import Boxd.Bpos.Produce
import Boxd.Proofs.InternalTxs
import Boxd.Proofs.ReceiptHash

/-! What the header of an accepted block says about its execution. Receipts are compared
by their hash and the state by its root; the filter is not compared with anything, and
neither is a root of contract outputs that is missing. -/

namespace Boxd
open Lib List Bpos Outcome

variable {header : BlockHeader}

/-- A chain that keeps receipts as `NewReceipt` makes them. -/
structure LogEnv extends ChainEnv where
  receiptOf : Receipt → Boxd.Receipt
  hashable : ∀ receipt, (receiptOf receipt).Hashable
  hashes : ∀ receipts, Boxd.receiptsHash crypto (receipts.map receiptOf) = some (receiptsHash receipts)

def committedUtxoRoot (env : ChainEnv) (longestChainHeight : UInt32) (db : UtxoDB) (block blockCopy : Block) :
    Outcome ChainError (Option HashType) := do
  let run ← executeBlock env db block blockCopy
  let block ← validateExecuteResult env longestChainHeight run.block run.utxoTxs run.gasUsed run.totalTxsFee
    run.receipts
  let state ← updateContractUtxoState env.world run.state (run.utxoSet.applyInternalTxs env.crypto block)
  let (_, utxoRoot, _) ← orFail .stateFailed (env.world.commit state)
  return utxoRoot

structure BlockHeader.SealedWith (c : Crypto) (header : BlockHeader) (made : List Receipt) : Prop where
  hashable : ∀ rc ∈ made, rc.Hashable
  bloom : (createReceiptsBloom made).map Filter.marshal = some header.bloom
  hash : if made.isEmpty then header.receiptHash = zeroHash else receiptsHash c made = some header.receiptHash

/-- The filter of a header holds the logs of some receipts, and a search for any of them
looks at the block. -/
def BlockHeader.FindsLogs (header : BlockHeader) (receipts : List Receipt) : Prop :=
  ∃ bloom : Filter, bloom.marshal = header.bloom ∧ (∀ rc ∈ receipts, ∀ log ∈ rc.logs, bloom.HoldsLog log) ∧
    ∀ query, filterLogs (receipts.flatMap Receipt.logs) query ≠ [] → bloomFilter bloom query = some true

section Search

variable {bloom : Filter} (sized : bloom.Sized)
include sized

theorem anyMatch_ok {wanted : List Bytes} {data : Bytes} (member : data ∈ wanted)
    (known : bloom.hasMatch data = some true) : anyMatch bloom wanted = some true := by
  induction wanted with
  | nil => cases member
  | cons first rest next =>
    obtain ⟨found, looked⟩ := sized.hasMatch first
    rw [anyMatch, looked]
    cases found with
    | true => rfl
    | false =>
      rcases mem_cons.mp member with rfl | later
      · rw [known] at looked
        cases looked
      · exact next later

theorem anyMatch_isSome (wanted : List Bytes) : ∃ found, anyMatch bloom wanted = some found := by
  induction wanted with
  | nil => exact ⟨false, rfl⟩
  | cons first rest next =>
    obtain ⟨found, looked⟩ := sized.hasMatch first
    rw [anyMatch, looked]
    cases found with
    | true => exact ⟨true, rfl⟩
    | false => exact next

theorem topicsMatch_ok {wanted : List (List Bytes)} {topics : List HashType} (enough : wanted.length ≤ topics.length)
    (kept : (wanted.zip topics).all (fun (sub, topic) => sub.isEmpty || topic.bytes ∈ sub) = true)
    (known : ∀ topic ∈ topics, bloom.hasMatch topic.bytes = some true) : topicsMatch bloom wanted = some true := by
  induction wanted generalizing topics with
  | nil => rfl
  | cons sub rest next =>
    cases topics with
    | nil => simp at enough
    | cons topic others =>
      simp only [zip_cons_cons, all_cons, Bool.and_eq_true, Bool.or_eq_true, decide_eq_true_eq] at kept
      rw [forall_mem_cons] at known
      have later := next (by simpa using enough) kept.2 known.2
      rw [topicsMatch]
      rcases kept.1 with any | listed
      · obtain ⟨found, looked⟩ := anyMatch_isSome sized sub
        simp [looked, any, later]
      · simp [anyMatch_ok sized listed known.1, later]

theorem bloomFilter_ok {query : LogQuery} {log : Log} (holds : bloom.HoldsLog log) (kept : keepsLog query log = true) :
    bloomFilter bloom query = some true := by
  simp only [keepsLog, Bool.and_eq_true, Bool.or_eq_true, decide_eq_true_eq] at kept
  obtain ⟨⟨address, enough⟩, topics⟩ := kept
  have later := topicsMatch_ok sized enough topics holds.2
  unfold bloomFilter
  rcases address with any | listed
  · simp [any, later]
  · simp [anyMatch_ok sized listed holds.1, later]

end Search

/-- The filter that was made from some receipts finds the logs of any receipts that have
the same addresses and topics. -/
theorem findsLogs_of_committed {made receipts : List Receipt}
    (bloom : (createReceiptsBloom made).map Filter.marshal = some header.bloom)
    (same : made.map Receipt.committed = receipts.map Receipt.committed) : header.FindsLogs receipts := by
  obtain ⟨filter, created, sized, found⟩ := createReceiptsBloom_ok made
  rw [created, Option.map_some, Option.some.injEq] at bloom
  have holds : ∀ rc ∈ receipts, ∀ log ∈ rc.logs, filter.HoldsLog log := by
    intro rc member log logged
    have committed : rc.committed ∈ made.map Receipt.committed := by
      rw [same]
      exact mem_map_of_mem member
    obtain ⟨other, among, equal⟩ := mem_map.mp committed
    have listed : (log.address, log.topics) ∈ other.committed.logs := by
      rw [equal]
      exact mem_map_of_mem logged
    obtain ⟨twin, logs, pair⟩ := mem_map.mp listed
    obtain ⟨address, topics⟩ := Prod.mk.inj pair
    have known := found other among twin logs
    rwa [Filter.HoldsLog, address, topics] at known
  refine ⟨filter, bloom, holds, ?_⟩
  intro query some
  obtain ⟨log, kept⟩ := exists_mem_of_ne_nil _ some
  obtain ⟨listed, kept⟩ := mem_filter.mp kept
  obtain ⟨rc, member, logged⟩ := mem_flatMap.mp listed
  exact bloomFilter_ok sized (holds rc member log logged) kept

/-- An accepted block has the hash of the executed receipts in its header, and the root
of contract outputs if there is one. -/
theorem adjustAndValidateState_committed {env : ChainEnv} {longestChainHeight : UInt32} {db : UtxoDB}
    {block blockCopy final : Block} {result : BlockExecuteResult env}
    (accepted : adjustAndValidateState env longestChainHeight db block blockCopy = .ok (result, final)) :
    receiptHash env result.receipts = block.header.receiptHash ∧
      ∃ utxoRoot, committedUtxoRoot env longestChainHeight db block blockCopy = .ok utxoRoot ∧
        (utxoRoot.isSome → utxoRoot = some block.header.utxoRoot) := by
  unfold adjustAndValidateState at accepted
  simp only [bind_ok_iff, ite_fail_ok_iff] at accepted
  obtain ⟨run, executed, checked, validated, state, updated, ⟨root, utxoRoot, after⟩, committed, -, utxo, -, returned⟩ :=
    accepted
  cases returned
  obtain ⟨header, -⟩ := executeBlock_block executed
  obtain ⟨kept, -⟩ := checkInternalTxs_ok (validateExecuteResult_internalTxs validated)
  have same : final.header = block.header := by rw [kept, header]
  rw [same] at utxo
  refine ⟨?_, utxoRoot, ?_, fun some => not_not.mp fun differ => utxo ⟨some, differ⟩⟩
  · have hashed := validated
    unfold validateExecuteResult at hashed
    simp only [bind_ok_iff, ite_fail_ok_iff] at hashed
    obtain ⟨_, internal, -, _, -, _, -, -, receipts, _⟩ := hashed
    rw [validateExecuteResult_internalTxs validated] at internal
    cases internal
    rw [← same]
    exact not_not.mp receipts
  · rw [committedUtxoRoot]
    simp only [bind_ok_iff]
    exact ⟨run, executed, final, validated, state, updated, _, committed, rfl⟩

theorem sealHeader_bloom {env : ProducerEnv} {block : Block} {gasUsed : UInt64} {receipts : List env.Receipt}
    {root : HashType} {utxoRoot : Option HashType}
    (done : Produce.sealHeader env block gasUsed receipts root utxoRoot = .ok header) :
    header.bloom = env.createReceiptsBloom receipts := by
  unfold Produce.sealHeader at done
  obtain ⟨txsRoot, -, done⟩ := bind_ok_iff.mp done
  by_cases none : block.internalTxs.isEmpty
  all_goals
    simp only [none, if_true, Bool.false_eq_true, if_false] at done
    obtain ⟨internalTxsRoot, -, returned⟩ := bind_ok_iff.mp done
    cases returned
    rfl

/-- The bookkeeper with `CreateReceiptsBloom`, on the receipts that those of the environment stand for. -/
def withReceiptsBloom (env : ProducerEnv) (receiptOf : env.Receipt → Receipt) : ProducerEnv :=
  { env with createReceiptsBloom receipts := ((createReceiptsBloom (receipts.map receiptOf)).map Filter.marshal).getD [] }

/-- A search for any log of a block that the bookkeeper has executed looks at the block. -/
theorem produced_block_finds_logs (env : ProducerEnv) (receiptOf : env.Receipt → Receipt)
    {st : ChainState} {block final : Block} {state : env.world.State} {result : BlockExecuteResult env.toChainEnv}
    (produced : Produce.executeBlock (withReceiptsBloom env receiptOf) st block state = .ok (final, result)) :
    final.header.FindsLogs (result.receipts.map receiptOf) := by
  unfold Produce.executeBlock at produced
  simp only [bind_ok_iff, ite_fail_ok_iff] at produced
  obtain ⟨_, -, _, -, _, -, _, -, ⟨_, receipts, _⟩, -, _, -, _, -, header, done, -, returned⟩ := produced
  cases returned
  refine findsLogs_of_committed ?_ rfl
  obtain ⟨filter, created, -⟩ := createReceiptsBloom_ok (receipts.map receiptOf)
  rw [sealHeader_bloom done]
  simp only [withReceiptsBloom, created, Option.map_some, Option.getD_some]

theorem findsLogs_of_sealedWith {env : LogEnv} {made : List Receipt}
    (same : header.SealedWith env.crypto made) {receipts : List env.Receipt}
    (hashed : receiptHash env.toChainEnv receipts = header.receiptHash)
    (free : Set.InjOn env.crypto.doubleHash (receiptInputs made (receipts.map env.receiptOf)))
    (nonzero : env.receiptsHash receipts ≠ zeroHash) : header.FindsLogs (receipts.map env.receiptOf) := by
  cases receipts with
  | nil =>
    obtain ⟨filter, created, -, -⟩ := createReceiptsBloom_ok made
    have bloom := same.bloom
    rw [created, Option.map_some, Option.some.injEq] at bloom
    exact ⟨filter, bloom, by simp, fun query some => absurd rfl some⟩
  | cons receipt rest =>
    have own : env.receiptsHash (receipt :: rest) = header.receiptHash := hashed
    have sealedHash := same.hash
    split at sealedHash
    · exact absurd (own.trans sealedHash) nonzero
    · apply findsLogs_of_committed same.bloom
      have executed : ∀ rc ∈ (receipt :: rest).map env.receiptOf, rc.Hashable := by
        intro rc member
        obtain ⟨receipt, -, rfl⟩ := mem_map.mp member
        exact env.hashable receipt
      apply (receiptsHash_eq_iff free same.hashable executed).mp
      rw [sealedHash, env.hashes, own]

/-- When the filter and the receipt hash of an accepted header were made from one list of
receipts, the header commits to the execution if and only if its root of contract outputs
is zero where execution leaves none. -/
theorem header_commits_iff (env : LogEnv) (longestChainHeight : UInt32) (db : UtxoDB) (block blockCopy final : Block)
    (result : BlockExecuteResult env.toChainEnv) (made : List Receipt)
    (accepted : adjustAndValidateState env.toChainEnv longestChainHeight db block blockCopy = .ok (result, final))
    (made_from : block.header.SealedWith env.crypto made)
    (free : Set.InjOn env.crypto.doubleHash (receiptInputs made (result.receipts.map env.receiptOf)))
    (nonzero : env.receiptsHash result.receipts ≠ zeroHash) :
    ∃ utxoRoot, committedUtxoRoot env.toChainEnv longestChainHeight db block blockCopy = .ok utxoRoot ∧
      (block.header.utxoRoot = utxoRoot.getD zeroHash ∧ block.header.FindsLogs (result.receipts.map env.receiptOf) ↔
        (utxoRoot = none → block.header.utxoRoot = zeroHash)) := by
  obtain ⟨hashed, utxoRoot, committed, present⟩ := adjustAndValidateState_committed accepted
  refine ⟨utxoRoot, committed, ?_⟩
  have finds := findsLogs_of_sealedWith made_from hashed free nonzero
  cases utxoRoot with
  | none => exact ⟨fun ⟨zero, _⟩ _ => zero, fun zero => ⟨zero rfl, finds⟩⟩
  | some root =>
    have same := Option.some.inj (present rfl)
    exact ⟨fun _ => nofun, fun _ => ⟨same.symm, finds⟩⟩

theorem sampleReceipt_hashable (contractAddress : AddressHash) (gasUsed : UInt64) (data : Bytes) :
    (sampleReceipt contractAddress gasUsed data).Hashable := by
  obtain ⟨bloom, made, -, copied, -⟩ := createLogBloom_ok [sampleLog data]
  rw [Receipt.Hashable, sampleReceipt, made]
  exact copied

/-- The only transaction that is executed leaves one log. The genesis contract holds 5
boxes and gets the reward. -/
def sampleLogChain (utxoRoot : Option HashType) : LogEnv where
  crypto := sampleReceiptCrypto
  pow10 := samplePow10
  world := { sampleWorld with
    stateDB := fun _ =>
      ⟨fun addr => addr = sampleGenesis.contractAddr, fun _ => none, fun _ => 7, fun _ => 817000000⟩
    commit := fun state => some (zeroHash, utxoRoot, state) }
  genesis := sampleGenesis
  Receipt := { rc : Receipt // rc.Hashable }
  receiptsHash receipts := (receiptsHash sampleReceiptCrypto (receipts.map Subtype.val)).getD zeroHash
  process _ state utxoSet := some ([⟨plainReceipt, sampleReceipt_hashable ..⟩], 0, [], state, utxoSet)
  fetchNetParamsByHeight _ := some sampleNetParams
  getParentBlock _ := some (sampleBlock (sampleHeader 9) [])
  receiptOf := Subtype.val
  hashable := Subtype.property
  hashes receipts := by
    have hashable : ∀ rc ∈ receipts.map Subtype.val, rc.Hashable := by
      intro rc member
      obtain ⟨receipt, -, rfl⟩ := mem_map.mp member
      exact receipt.property
    rw [receiptsHash_eq, mapM_commitment hashable]
    rfl

def sampleLogBlock (utxoRoot : HashType) (bloom : Bytes) : Block :=
  sampleBlock { sampleHeader 10 with
    utxoRoot
    receiptHash := (receiptsHash sampleReceiptCrypto [plainReceipt]).getD zeroHash
    bloom } [sampleCoinbase 10 317000000 0]

def sampleContractRoot : HashType := .fill 32 6

def sampleSealedBlock : Block :=
  sampleLogBlock sampleContractRoot
    (((createReceiptsBloom [plainReceipt]).map Filter.marshal).getD [])

def sampleBlankBlock : Block := sampleLogBlock sampleContractRoot emptyBloom.marshal

theorem sample_header_commits :
    ∃ result final, adjustAndValidateState (sampleLogChain (some sampleContractRoot)).toChainEnv 9 sampleDB
        sampleSealedBlock sampleSealedBlock = .ok (result, final) ∧
      sampleSealedBlock.header.FindsLogs (result.receipts.map Subtype.val) := by
  have ran : (adjustAndValidateState (sampleLogChain (some sampleContractRoot)).toChainEnv 9 sampleDB sampleSealedBlock
      sampleSealedBlock).map (fun done => done.1.receipts.map Subtype.val) =
        .ok [plainReceipt] := by decide +kernel
  obtain ⟨⟨result, final⟩, accepted, receipts⟩ := exists_ok_map ran
  refine ⟨result, final, accepted, ?_⟩
  have made : sampleSealedBlock.header.SealedWith sampleReceiptCrypto [plainReceipt] := by
    refine ⟨?_, by decide +kernel, by decide +kernel⟩
    intro rc member
    obtain rfl := mem_singleton.mp member
    exact sampleReceipt_hashable ..
  have alone : Set.InjOn sampleReceiptCrypto.doubleHash
      (receiptInputs [plainReceipt] (result.receipts.map Subtype.val)) := by
    rintro bytes ⟨first, member, hashed⟩ other ⟨second, among, hashedToo⟩ -
    rw [receipts] at member among
    simp only [mem_cons, not_mem_nil, or_false, or_self] at member among
    rw [member] at hashed
    rw [among] at hashedToo
    exact Option.some.inj (hashed.symm.trans hashedToo)
  have nonzero : (sampleLogChain (some sampleContractRoot)).receiptsHash result.receipts ≠ zeroHash := by
    change (receiptsHash sampleReceiptCrypto (result.receipts.map Subtype.val)).getD zeroHash ≠ zeroHash
    rw [receipts]
    decide +kernel
  obtain ⟨utxoRoot, committed, commits⟩ :=
    header_commits_iff (sampleLogChain (some sampleContractRoot)) 9 sampleDB _ _ _ result _ accepted made alone nonzero
  have root : committedUtxoRoot (sampleLogChain (some sampleContractRoot)).toChainEnv 9 sampleDB sampleSealedBlock
      sampleSealedBlock = .ok (some sampleContractRoot) := by decide +kernel
  cases committed.symm.trans root
  exact (commits.mpr nofun).2

def sampleProducer : ProducerEnv where
  toChainEnv := (sampleLogChain none).toChainEnv
  blockHash _ := zeroHash
  genesisBlock := sampleSealedBlock
  verify _ := true
  depth := 1
  bookkeeper := zeroAddressHash
  withTxHash _ receipt := receipt
  createReceiptsBloom _ := []

def sampleProduction : Outcome ChainError (Block × BlockExecuteResult sampleProducer.toChainEnv) :=
  Produce.executeBlock (withReceiptsBloom sampleProducer Subtype.val)
    ⟨sampleDB, ∅, ∅, ∅, ∅, ⟨⟨fun _ => [], []⟩, ∅⟩, ∅, ∅, sampleBlankBlock⟩ sampleBlankBlock ()

theorem sample_block_finds_logs : ∃ final result, sampleProduction = .ok (final, result) ∧
      final.header.FindsLogs (result.receipts.map Subtype.val) := by
  have ran : sampleProduction.map (fun _ => ()) = .ok () := by decide +kernel
  obtain ⟨⟨final, result⟩, produced, -⟩ := exists_ok_map ran
  exact ⟨final, result, produced, produced_block_finds_logs sampleProducer Subtype.val produced⟩

/-- A bookkeeper can leave the filter of a header empty: the block is accepted, and a
search for the address of its log does not look at it. -/
theorem blank_filter_accepted :
    ∃ result final, adjustAndValidateState (sampleLogChain (some sampleContractRoot)).toChainEnv 9 sampleDB
        sampleBlankBlock sampleBlankBlock = .ok (result, final) ∧
      emptyBloom.marshal = sampleBlankBlock.header.bloom ∧
      sampleLog [1] ∈ (result.receipts.map Subtype.val).flatMap Receipt.logs ∧
      sampleLog [1] ∈ filterLogs [sampleLog [1]] ⟨[(sampleLog [1]).address.bytes], []⟩ ∧
      emptyBloom.hasMatch (sampleLog [1]).address.bytes = some false ∧
      bloomFilter emptyBloom ⟨[(sampleLog [1]).address.bytes], []⟩ = some false := by
  have ran : (adjustAndValidateState (sampleLogChain (some sampleContractRoot)).toChainEnv 9 sampleDB sampleBlankBlock
      sampleBlankBlock).map (fun done => done.1.receipts.map Subtype.val) =
        .ok [plainReceipt] := by decide +kernel
  obtain ⟨⟨result, final⟩, accepted, receipts⟩ := exists_ok_map ran
  refine ⟨result, final, accepted, rfl, ?_, by decide +kernel, by decide +kernel, by decide +kernel⟩
  rw [receipts]
  exact mem_flatMap.mpr ⟨_, mem_singleton_self _, mem_singleton_self _⟩

end Boxd
