import Boxd.Proofs.Coinbase

/-! The internal transactions of a block. Execution is compared with the root in the
header; the list in the block is what is applied and stored. -/

namespace Boxd
open Lib List Bpos UtxoSet Outcome

variable {c : Crypto} {block final : Block} {env : ChainEnv}

def messages (txs : List Transaction) : List TxMessage := txs.map Transaction.toTxMessage

theorem map_txHash (c : Crypto) (txs : List Transaction) : txs.map (txHash c) = (messages txs).map c.calcTxHash := by
  rw [messages, map_map]
  rfl

def hashInputs (c : Crypto) (txs : List Transaction) : Set Bytes :=
  {bytes | ∃ tx ∈ txs, bytes = tx.marshal} ∪
    {bytes | ∃ pair ∈ combinedPairs (combineHash c) (merkleHeight txs.length) (txs.map (txHash c)),
      bytes = pair.1.bytes ++ pair.2.bytes}

theorem checkInternalTxs_ok {utxoTxs : List Transaction} (checked : checkInternalTxs c block utxoTxs = .ok final) :
    final = { block with internalTxs := if utxoTxs.isEmpty then [] else block.internalTxs } ∧
      (utxoTxs ≠ [] → calcTxsHash c utxoTxs = .ok block.header.internalTxsRoot) := by
  unfold checkInternalTxs at checked
  split at checked
  · next none =>
    cases checked
    exact ⟨by simp [none], fun some => absurd (isEmpty_iff.mp none) some⟩
  · next some =>
    obtain ⟨root, found, checked⟩ := bind_ok_iff.mp checked
    split at checked
    · cases checked
    · next same =>
      cases checked
      exact ⟨by simp [some], fun _ => by rw [found, not_not.mp same]⟩

theorem executeBlock_block {db : UtxoDB} {blockCopy : Block} {run : Execution env}
    (executed : executeBlock env db block blockCopy = .ok run) :
    run.block.header = block.header ∧ run.block.internalTxs = block.internalTxs := by
  obtain ⟨ready, prepared, ran⟩ := bind_ok_iff.mp executed
  obtain ⟨_, -, done⟩ := bind_ok_iff.mp ran
  cases done
  simp only [prepareBlock, bind_ok_iff] at prepared
  obtain ⟨_, -, _, -, _, -, _, -, _, -, _, -, _, -, done⟩ := prepared
  cases done
  exact ⟨rfl, rfl⟩

theorem validateExecuteResult_internalTxs {longestChainHeight : UInt32}
    {utxoTxs : List Transaction} {usedGas totalTxsFee : UInt64} {receipts : List env.Receipt}
    (executed : validateExecuteResult env longestChainHeight block utxoTxs usedGas totalTxsFee receipts = .ok final) :
    checkInternalTxs env.crypto block utxoTxs = .ok final := by
  unfold validateExecuteResult at executed
  simp only [bind_ok_iff, ite_fail_ok_iff] at executed
  obtain ⟨checked, internal, -, _, -, _, -, -, -, returned⟩ := executed
  cases returned
  exact internal

/-- The transactions that are applied are those of the block, or none at all when
execution made none. -/
theorem adjustAndValidateState_ok {longestChainHeight : UInt32} {db : UtxoDB}
    {blockCopy : Block} {result : BlockExecuteResult env} {run : Execution env}
    (executed : executeBlock env db block blockCopy = .ok run)
    (accepted : adjustAndValidateState env longestChainHeight db block blockCopy = .ok (result, final)) :
    final.internalTxs = (if run.utxoTxs.isEmpty then [] else block.internalTxs) ∧
      (run.utxoTxs ≠ [] → calcTxsHash env.crypto run.utxoTxs = .ok block.header.internalTxsRoot) ∧
      result.utxoSet = run.utxoSet.applyInternalTxs env.crypto final := by
  unfold adjustAndValidateState at accepted
  simp only [bind_ok_iff, ite_fail_ok_iff] at accepted
  obtain ⟨_, same, checked, validated, state, -, _, -, -, -, -, returned⟩ := accepted
  cases executed.symm.trans same
  cases returned
  obtain ⟨header, internalTxs⟩ := executeBlock_block executed
  obtain ⟨kept, root⟩ := checkInternalTxs_ok (validateExecuteResult_internalTxs validated)
  rw [header] at root
  exact ⟨by rw [kept, internalTxs], root, rfl⟩

theorem combineHash_injOn {free : Set Bytes} (injective : Set.InjOn c.doubleHash free) :
    Set.InjOn (fun pair : HashType × HashType => combineHash c pair.1 pair.2)
      {pair | pair.1.bytes ++ pair.2.bytes ∈ free} := by
  intro left member right other collide
  obtain ⟨one, two⟩ := append_inj (injective member other collide) (left.1.length_eq.trans right.1.length_eq.symm)
  exact Prod.ext (FixedBytes.ext one) (FixedBytes.ext two)

/-- Lists of one length with one root hold the same transactions, when nothing that
is hashed for the roots collides. -/
theorem messages_eq_of_calcTxsHash {left right : List Transaction}
    (free : Set.InjOn c.doubleHash (hashInputs c left ∪ hashInputs c right))
    (length : left.length = right.length) (same : calcTxsHash c left = calcTxsHash c right) :
    messages left = messages right := by
  have combines (txs : List Transaction) (within : hashInputs c txs ⊆ hashInputs c left ∪ hashInputs c right) :
      combinedPairs (combineHash c) (merkleHeight (txs.map (txHash c)).length) (txs.map (txHash c)) ⊆
        {pair | pair.1.bytes ++ pair.2.bytes ∈ hashInputs c left ∪ hashInputs c right} := by
    intro pair member
    rw [length_map] at member
    exact within (.inr ⟨pair, member, rfl⟩)
  have roots : merkleRoot (combineHash c) (left.map (txHash c)) = merkleRoot (combineHash c) (right.map (txHash c)) :=
    expect_injective same
  have hashes := merkleRoot_inj (combineHash c) (combineHash_injOn free) (by simpa using length)
    (combines left Set.subset_union_left) (combines right Set.subset_union_right) roots
  have hashed : Set.InjOn c.calcTxHash {message | message.marshal ∈ hashInputs c left ∪ hashInputs c right} := by
    intro first member second other collide
    exact TxMessage.marshal_injective (free member other collide)
  apply map_injOn hashed
  · rintro _ member
    obtain ⟨tx, found, rfl⟩ := mem_map.mp member
    exact .inl (.inl ⟨tx, found, rfl⟩)
  · rintro _ member
    obtain ⟨tx, found, rfl⟩ := mem_map.mp member
    exact .inr (.inl ⟨tx, found, rfl⟩)
  · rwa [map_txHash, map_txHash] at hashes

/-- The applied transactions are those of the execution, if and only if it made none, or
those in the block are as many and hash to the root in the header. Nothing checks that. -/
theorem applied_internal_txs_iff (env : ChainEnv) (longestChainHeight : UInt32) (db : UtxoDB)
    (block blockCopy final : Block) (result : BlockExecuteResult env) (run : Execution env)
    (executed : executeBlock env db block blockCopy = .ok run)
    (accepted : adjustAndValidateState env longestChainHeight db block blockCopy = .ok (result, final))
    (free : Set.InjOn env.crypto.doubleHash
      (hashInputs env.crypto block.internalTxs ∪ hashInputs env.crypto run.utxoTxs)) :
    messages final.internalTxs = messages run.utxoTxs ↔
      run.utxoTxs = [] ∨ block.internalTxs.length = run.utxoTxs.length ∧
        calcTxsHash env.crypto block.internalTxs = .ok block.header.internalTxsRoot := by
  obtain ⟨kept, root, -⟩ := adjustAndValidateState_ok executed accepted
  by_cases none : run.utxoTxs = []
  · simp [kept, none]
  · rw [kept, if_neg (by simpa using none)]
    constructor
    · intro same
      have length : block.internalTxs.length = run.utxoTxs.length := by
        simpa [messages] using congrArg length same
      refine .inr ⟨length, ?_⟩
      rw [← root none, calcTxsHash, calcTxsHash, map_txHash, map_txHash, same]
    · rintro (empty | ⟨length, hashed⟩)
      · exact absurd empty none
      · exact messages_eq_of_calcTxsHash free length (hashed.trans (root none).symm)

/-- A transaction that the genesis contract makes. -/
def sampleInternalTx (amount : UInt64) : Transaction :=
  { newTx 0 0 0 with
    vin := [⟨contractOutPoint sampleGenesis.contractAddr,
      (Script.addOpCode [] opContract).addOperand (bytesLE 8 9), 0⟩]
    vout := [makeVout sampleBookKeeper amount] }

def samplePayoutHash : HashType :=
  ⟨[151, 35, 102, 44, 76, 226, 186, 101, 67, 59, 140, 125, 76, 126, 77, 204, 51, 159, 84, 218, 115,
    153, 27, 85, 205, 227, 66, 222, 173, 77, 177, 143], by decide⟩

def sampleHashes : List (Bytes × HashType) :=
  [((sampleInternalTx 17000000).marshal, samplePayoutHash),
    ((sampleInternalTx 100000000000000000).marshal,
      ⟨[83, 212, 64, 234, 182, 23, 100, 226, 52, 221, 2, 30, 132, 232, 14, 155, 129, 188, 183, 45, 190, 9,
        2, 205, 173, 147, 126, 29, 42, 81, 101, 219], by decide⟩),
    ((sampleCoinbase 10 317000000 0).marshal,
      ⟨[115, 249, 230, 133, 232, 36, 239, 236, 157, 33, 80, 2, 187, 24, 73, 183, 177, 43, 190, 200, 193,
        152, 95, 154, 106, 219, 136, 241, 108, 74, 61, 136], by decide⟩)]

/-- The contract holds 5 boxes, gets the reward, and pays 17000000 of it to the
bookkeeper. -/
def samplePayingChain : ChainEnv :=
  { sampleChain with
    crypto := { sampleChain.crypto with doubleHash := fun bytes => (sampleHashes.lookup bytes).getD zeroHash }
    world := { sampleWorld with
      stateDB := fun _ =>
        ⟨fun addr => addr = sampleGenesis.contractAddr, fun _ => none, fun _ => 7, fun _ => 800000000⟩ }
    process := fun _ state utxoSet =>
      let outPoint := contractOutPoint sampleGenesis.contractAddr
      some ([()], 0, [sampleInternalTx 17000000], state, utxoSet.put outPoint (.new 800000000 [] 0))
    getParentBlock := fun _ => some (sampleBlock (sampleHeader 9) []) }

def sampleDB : UtxoDB :=
  AList.insert (contractOutPoint sampleGenesis.contractAddr) ⟨500000000, [], 0⟩ ∅

/-- A block whose header has the root of what execution makes. -/
def sampleInternalBlock (amount : UInt64) : Block where
  header := { sampleHeader 10 with internalTxsRoot := samplePayoutHash }
  txs := [sampleCoinbase 10 317000000 0]
  internalTxs := [sampleInternalTx amount]
  signature := []
  irreversibleInfo := none

theorem sample_internal_txs_applied : ∃ run result final,
      executeBlock samplePayingChain sampleDB (sampleInternalBlock 17000000) (sampleInternalBlock 17000000) = .ok run ∧
      adjustAndValidateState samplePayingChain 9 sampleDB (sampleInternalBlock 17000000) (sampleInternalBlock 17000000) =
        .ok (result, final) ∧
      run.utxoTxs = [sampleInternalTx 17000000] ∧ messages final.internalTxs = messages run.utxoTxs := by
  have ran : (executeBlock samplePayingChain sampleDB (sampleInternalBlock 17000000) (sampleInternalBlock 17000000)).map
      Execution.utxoTxs = .ok [sampleInternalTx 17000000] := by decide +kernel
  obtain ⟨run, executed, made⟩ := exists_ok_map ran
  obtain ⟨⟨result, final⟩, accepted⟩ := exists_ok (adjustAndValidateState samplePayingChain 9 sampleDB
    (sampleInternalBlock 17000000) (sampleInternalBlock 17000000)) (by decide +kernel)
  refine ⟨run, result, final, executed, accepted, made, ?_⟩
  refine (applied_internal_txs_iff _ _ _ _ _ _ _ run executed accepted ?_).mpr (.inr ⟨?_, by decide +kernel⟩)
  · -- One transaction is its own root, so that nothing else is hashed.
    have only (bytes : Bytes) (hashed : bytes ∈ hashInputs samplePayingChain.crypto [sampleInternalTx 17000000]) :
        bytes = (sampleInternalTx 17000000).marshal := by
      obtain ⟨tx, member, rfl⟩ | ⟨pair, ⟨below, bound, -⟩, -⟩ := hashed
      · rw [mem_singleton.mp member]
      · have flat : merkleHeight [sampleInternalTx 17000000].length = 0 := by decide
        omega
    rw [made]
    change Set.InjOn _ (hashInputs samplePayingChain.crypto [sampleInternalTx 17000000] ∪ _)
    rw [Set.union_self]
    intro left leftHashed right rightHashed _
    rw [only left leftHashed, only right rightHashed]
  · rw [made]
    rfl

/-- A bookkeeper can put any internal transactions into a block whose header has the
right root: they are applied, and nobody compares them with the root. -/
theorem forged_internal_txs_applied : ∃ run result final,
      executeBlock samplePayingChain sampleDB (sampleInternalBlock 100000000000000000)
        (sampleInternalBlock 100000000000000000) = .ok run ∧
      adjustAndValidateState samplePayingChain 9 sampleDB (sampleInternalBlock 100000000000000000)
        (sampleInternalBlock 100000000000000000) = .ok (result, final) ∧
      messages final.internalTxs ≠ messages run.utxoTxs := by
  have ran : (executeBlock samplePayingChain sampleDB (sampleInternalBlock 100000000000000000)
      (sampleInternalBlock 100000000000000000)).map Execution.utxoTxs =
        .ok [sampleInternalTx 17000000] := by decide +kernel
  obtain ⟨run, executed, made⟩ := exists_ok_map ran
  obtain ⟨⟨result, final⟩, accepted⟩ := exists_ok (adjustAndValidateState samplePayingChain 9 sampleDB
    (sampleInternalBlock 100000000000000000) (sampleInternalBlock 100000000000000000)) (by decide +kernel)
  refine ⟨run, result, final, executed, accepted, ?_⟩
  rw [(adjustAndValidateState_ok executed accepted).1, made]
  decide +kernel

end Boxd
