import Boxd.Receipt
import Boxd.Lib.Outcome
import Mathlib.Data.Set.Function

/-! What the hash of receipts commits to. The hash is taken of a second form of the
receipts, which has neither the data of logs nor contract addresses. -/

namespace Boxd
open Lib WireField List Boxd.Filter Function

variable {bloom : Filter}

/-- The part of a receipt that reaches the hash. -/
structure Committed where
  txHash : HashType
  txIndex : UInt32
  deployed : Bool
  failed : Bool
  gasUsed : UInt64
  internalTxs : List HashType
  errMsg : Bytes
  logs : List (AddressHash × List HashType)
  deriving DecidableEq

def Receipt.committed (rc : Receipt) : Committed where
  txHash := rc.txHash
  txIndex := rc.txIndex
  deployed := rc.deployed
  failed := rc.failed
  gasUsed := rc.gasUsed
  internalTxs := rc.internalTxs
  errMsg := rc.errMsg
  logs := rc.logs.map fun log => (log.address, log.topics)

def Receipt.Hashable (rc : Receipt) : Prop := (rc.bloom.getD emptyBloom).canCopy = true

def committedLog (log : AddressHash × List HashType) : Bytes := HashLog.marshal ⟨log.1, log.2, []⟩

def Committed.marshal (rc : Committed) : Bytes :=
  encodeWire (ofBytes 1 rc.txHash.bytes ++ ofNumber 2 rc.txIndex.toNat ++ ofNumber 3 rc.deployed.toNat ++
    ofNumber 4 rc.failed.toNat ++ ofNumber 5 rc.gasUsed.toNat ++ ofMessages 6 (rc.internalTxs.map FixedBytes.bytes) ++
    ofMessages 7 (rc.logs.map committedLog) ++ ofBytes 8 emptyBloom.marshal ++ ofBytes 9 rc.errMsg)

/-- What is hashed of a receipt, or nothing when its filter cannot be copied. -/
def Receipt.commitment (rc : Receipt) : Option Committed :=
  if (rc.bloom.getD emptyBloom).canCopy then some rc.committed else none

theorem Receipt.toHashReceipt_marshal (rc : Receipt) :
    rc.toHashReceipt.map HashReceipt.marshal = rc.commitment.map Committed.marshal := by
  unfold Receipt.toHashReceipt Receipt.commitment
  split
  · simp only [Option.map_some, HashReceipt.marshal, map_map, Option.getD_none, Committed.marshal,
      Receipt.committed]
    rfl
  · rfl

def marshalCommitted (rcs : List Committed) : Bytes := encodeWire (ofMessages 1 (rcs.map Committed.marshal))

theorem toHashReceipts_marshal (rcs : List Receipt) :
    (toHashReceipts rcs).map marshalHashReceipts = (rcs.mapM Receipt.commitment).map marshalCommitted := by
  have messages : (toHashReceipts rcs).map (map HashReceipt.marshal) =
      (rcs.mapM Receipt.commitment).map (map Committed.marshal) := by
    rw [toHashReceipts, map_mapM, map_mapM]
    congr 1
    funext rc
    exact rc.toHashReceipt_marshal
  have encoded := congrArg (Option.map fun contents => encodeWire (ofMessages 1 contents)) messages
  rwa [Option.map_map, Option.map_map] at encoded

theorem receiptsHash_eq (c : Crypto) (rcs : List Receipt) :
    receiptsHash c rcs = (rcs.mapM Receipt.commitment).map fun committed => c.doubleHash (marshalCommitted committed) := by
  have hashed := congrArg (Option.map c.doubleHash) (toHashReceipts_marshal rcs)
  rwa [Option.map_map, Option.map_map] at hashed

theorem mapM_commitment {rcs : List Receipt} (hashable : ∀ rc ∈ rcs, rc.Hashable) :
    rcs.mapM Receipt.commitment = some (rcs.map Receipt.committed) := by
  induction rcs with
  | nil => rfl
  | cons rc rest next =>
    rw [forall_mem_cons] at hashable
    have first : rc.commitment = some rc.committed := if_pos hashable.1
    rw [mapM_cons, first, next hashable.2]
    rfl

theorem mapM_commitment_none {rcs : List Receipt} (hashable : ¬∀ rc ∈ rcs, rc.Hashable) :
    rcs.mapM Receipt.commitment = none := by
  induction rcs with
  | nil => exact absurd (fun rc member => absurd member not_mem_nil) hashable
  | cons rc rest next =>
    rw [forall_mem_cons, not_and_or] at hashable
    rw [mapM_cons]
    rcases hashable with first | later
    · have none : rc.commitment = none := if_neg first
      rw [none]
      rfl
    · rw [next later]
      cases rc.commitment <;> rfl

theorem committedLog_injective : Injective committedLog := by
  intro left right same
  have wires := encodeWire_injective same
  have address := ofBytes_inj (by simpa using congrArg (only 1) wires)
  have topics := ofMessages_inj (by simpa using congrArg (only 2) wires)
  exact Prod.ext (FixedBytes.ext address) (map_injective_iff.mpr (fun _ _ => FixedBytes.ext) topics)

private theorem toNat_bool_inj : ∀ {left right : Bool}, left.toNat = right.toNat → left = right := by decide

theorem Committed.marshal_injective : Injective Committed.marshal := by
  intro left right same
  have wires := encodeWire_injective same
  have txHash := ofBytes_inj (by simpa using congrArg (only 1) wires)
  have txIndex := ofNumber_inj (by simpa using congrArg (only 2) wires)
  have deployed := ofNumber_inj (by simpa using congrArg (only 3) wires)
  have failed := ofNumber_inj (by simpa using congrArg (only 4) wires)
  have gasUsed := ofNumber_inj (by simpa using congrArg (only 5) wires)
  have internalTxs := ofMessages_inj (by simpa using congrArg (only 6) wires)
  have logs := ofMessages_inj (by simpa using congrArg (only 7) wires)
  have errMsg := ofBytes_inj (by simpa using congrArg (only 9) wires)
  cases left
  cases right
  rw [Committed.mk.injEq]
  exact ⟨FixedBytes.ext txHash, UInt32.toNat_inj.mp txIndex, toNat_bool_inj deployed, toNat_bool_inj failed,
    UInt64.toNat_inj.mp gasUsed, map_injective_iff.mpr (fun _ _ => FixedBytes.ext) internalTxs, errMsg,
    map_injective_iff.mpr committedLog_injective logs⟩

theorem marshalCommitted_injective : Injective marshalCommitted := by
  intro left right same
  exact map_injective_iff.mpr Committed.marshal_injective (ofMessages_inj (encodeWire_injective same))

def receiptInputs (left right : List Receipt) : Set Bytes :=
  {bytes | ∃ hashrcs ∈ [toHashReceipts left, toHashReceipts right], hashrcs.map marshalHashReceipts = some bytes}

/-- Among receipts that can be hashed, the hash tells what is committed. -/
theorem receiptsHash_eq_iff {c : Crypto} {left right : List Receipt}
    (free : Set.InjOn c.doubleHash (receiptInputs left right)) (leftHashable : ∀ rc ∈ left, rc.Hashable)
    (rightHashable : ∀ rc ∈ right, rc.Hashable) :
    receiptsHash c left = receiptsHash c right ↔ left.map Receipt.committed = right.map Receipt.committed := by
  have inputs (rcs : List Receipt) (listed : toHashReceipts rcs ∈ [toHashReceipts left, toHashReceipts right])
      (hashable : ∀ rc ∈ rcs, rc.Hashable) : marshalCommitted (rcs.map Receipt.committed) ∈ receiptInputs left right := by
    refine ⟨toHashReceipts rcs, listed, ?_⟩
    rw [toHashReceipts_marshal, mapM_commitment hashable]
    rfl
  rw [receiptsHash_eq, receiptsHash_eq, mapM_commitment leftHashable, mapM_commitment rightHashable]
  simp only [Option.map_some, Option.some.injEq]
  constructor
  · intro collide
    apply marshalCommitted_injective
    exact free (inputs left (by simp) leftHashable) (inputs right (by simp) rightHashable) collide
  · intro same
    rw [same]

/-- Two lists have different hashes if and only if they differ in what is committed, or
exactly one of them has no hash. -/
theorem receipts_hash_differs_iff (c : Crypto) (left right : List Receipt)
    (free : Set.InjOn c.doubleHash (receiptInputs left right)) :
    receiptsHash c left ≠ receiptsHash c right ↔
      ((∀ rc ∈ left, rc.Hashable) ∨ ∀ rc ∈ right, rc.Hashable) ∧
        ((∀ rc ∈ left, rc.Hashable) → (∀ rc ∈ right, rc.Hashable) →
          left.map Receipt.committed ≠ right.map Receipt.committed) := by
  by_cases leftHashable : ∀ rc ∈ left, rc.Hashable
  · by_cases rightHashable : ∀ rc ∈ right, rc.Hashable
    · rw [ne_eq, receiptsHash_eq_iff free leftHashable rightHashable]
      exact ⟨fun differ => ⟨.inl leftHashable, fun _ _ => differ⟩, fun ⟨_, differ⟩ => differ leftHashable rightHashable⟩
    · rw [receiptsHash_eq, receiptsHash_eq, mapM_commitment leftHashable, mapM_commitment_none rightHashable]
      exact ⟨fun _ => ⟨.inl leftHashable, fun _ both => absurd both rightHashable⟩, nofun⟩
  · by_cases rightHashable : ∀ rc ∈ right, rc.Hashable
    · rw [receiptsHash_eq, receiptsHash_eq, mapM_commitment_none leftHashable, mapM_commitment rightHashable]
      exact ⟨fun _ => ⟨.inr rightHashable, fun both => absurd both leftHashable⟩, nofun⟩
    · rw [receiptsHash_eq, receiptsHash_eq, mapM_commitment_none leftHashable, mapM_commitment_none rightHashable]
      exact ⟨fun differ => absurd rfl differ, fun ⟨one, _⟩ => absurd one (not_or.mpr ⟨leftHashable, rightHashable⟩)⟩

def sampleLog (data : Bytes) : Log where
  address := .fill 20 8
  topics := [.fill 32 1, .fill 32 2]
  data := data
  blockNumber := 0
  txHash := .fill 32 3
  txIndex := 0
  blockHash := zeroHash
  index := 0
  removed := false

def sampleReceipt (contractAddress : AddressHash) (gasUsed : UInt64) (data : Bytes) : Receipt where
  txHash := .fill 32 3
  txIndex := 0
  contractAddress := contractAddress
  deployed := false
  failed := false
  gasUsed := gasUsed
  blockHash := zeroHash
  blockHeight := 10
  internalTxs := []
  errMsg := []
  logs := [sampleLog data]
  bloom := createLogBloom [sampleLog data]

def plainReceipt : Receipt := sampleReceipt zeroAddressHash 21000 [1]

/-- The hash function, known at two lists of one receipt. -/
def sampleReceiptCrypto : Crypto where
  Signature := Unit
  PublicKey := Unit
  hash160 _ := zeroAddressHash
  createAddress sender _ := sender
  doubleHash bytes :=
    if some bytes = (toHashReceipts [plainReceipt]).map marshalHashReceipts then
      ⟨[214, 8, 48, 250, 72, 22, 122, 244, 89, 121, 133, 192, 205, 124, 215, 80, 213, 94, 233, 64, 201, 136, 233, 53,
        176, 7, 220, 245, 199, 24, 207, 203], by decide⟩
    else
      ⟨[176, 211, 157, 136, 15, 164, 41, 211, 96, 13, 85, 74, 248, 52, 161, 23, 22, 237, 32, 176, 61, 179, 99, 89,
        237, 177, 54, 29, 170, 202, 194, 209], by decide⟩
  sigFromBytes _ := none
  publicKeyFromBytes _ := none
  verifySignature _ _ _ := false

def sampleInput (gasUsed : UInt64) : Bytes :=
  ((toHashReceipts [sampleReceipt zeroAddressHash gasUsed [1]]).map marshalHashReceipts).getD []

/-- More gas is another hash. -/
theorem gas_changes_receipts_hash : receiptsHash sampleReceiptCrypto [plainReceipt] ≠
      receiptsHash sampleReceiptCrypto [sampleReceipt zeroAddressHash 22000 [1]] := by
  have hashable (gasUsed : UInt64) : ∀ rc ∈ [sampleReceipt zeroAddressHash gasUsed [1]], rc.Hashable := by
    intro rc member
    obtain rfl := mem_singleton.mp member
    exact (by decide +kernel : ((createLogBloom [sampleLog [1]]).getD emptyBloom).canCopy = true)
  refine (receipts_hash_differs_iff _ _ _ ?_).mpr ⟨.inl (hashable _), fun _ _ => by decide +kernel⟩
  have listed : ∀ bytes ∈ receiptInputs [plainReceipt] [sampleReceipt zeroAddressHash 22000 [1]],
      bytes ∈ [sampleInput 21000, sampleInput 22000] := by
    rintro bytes ⟨hashrcs, member, hashed⟩
    simp only [mem_cons, not_mem_nil, or_false, sampleInput, plainReceipt] at member ⊢
    rcases member with first | second
    · left
      rw [← first, hashed, Option.getD_some]
    · right
      rw [← second, hashed, Option.getD_some]
  have apart : ([sampleInput 21000, sampleInput 22000].map sampleReceiptCrypto.doubleHash).Nodup := by decide +kernel
  intro bytes hashed other hashedToo collide
  exact inj_on_of_nodup_map apart (listed bytes hashed) (listed other hashedToo) collide

/-- Receipts that differ in the data of a log, or in the address of the contract, have
one hash. -/
theorem log_data_not_in_receipts_hash : receiptsHash sampleReceiptCrypto [plainReceipt] =
      receiptsHash sampleReceiptCrypto [sampleReceipt ⟨replicate 20 8, rfl⟩ 21000 [2]] ∧
    receiptsHash sampleReceiptCrypto [plainReceipt] ≠ none := by
  decide +kernel

section Made

theorem emptyBloom_sized : emptyBloom.Sized := ⟨by decide +kernel, by decide +kernel⟩

theorem canCopy_of_below (below : emptyBloom.Below bloom) : bloom.canCopy = true := by
  have size : bloom.size = bloomBitLength := by
    rw [size, ← below.length]
    decide +kernel
  have copy : .newFilter bloom.size bloom.hashFuncs 0 = emptyBloom := by
    rw [size, ← below.hashFuncs]
    decide +kernel
  obtain ⟨after, merged, -⟩ := merge_ok below.hashFuncs below.tweak below.length
  rw [canCopy, copy, merged]
  rfl

theorem addLog_ok (sized : bloom.Sized) (log : Log) :
    ∃ after, addLog bloom log = some after ∧ bloom.Below after ∧ after.hasMatch log.address.bytes = some true ∧
      ∀ topic ∈ log.topics, after.hasMatch topic.bytes = some true := by
  obtain ⟨first, added, below, address⟩ := add_ok sized log.address.bytes
  suffices topics : ∀ (topics : List HashType) {bloom : Filter}, bloom.Sized →
      ∃ after, topics.foldlM (fun bloom topic => bloom.add topic.bytes) bloom = some after ∧ bloom.Below after ∧
        ∀ topic ∈ topics, after.hasMatch topic.bytes = some true by
    obtain ⟨after, rest, above, found⟩ := topics log.topics (below.sized sized)
    refine ⟨after, ?_, below.trans above, above.hasMatch address, found⟩
    rw [addLog, added]
    exact rest
  intro topics
  induction topics with
  | nil => exact fun {bloom} _ => ⟨bloom, rfl, .refl bloom, by simp⟩
  | cons topic rest next =>
    intro bloom sized
    obtain ⟨one, added, below, known⟩ := add_ok sized topic.bytes
    obtain ⟨after, others, above, found⟩ := next (below.sized sized)
    refine ⟨after, ?_, below.trans above, forall_mem_cons.mpr ⟨above.hasMatch known, found⟩⟩
    rw [foldlM_cons, added]
    exact others

def Filter.HoldsLog (bloom : Filter) (log : Log) : Prop :=
  bloom.hasMatch log.address.bytes = some true ∧ ∀ topic ∈ log.topics, bloom.hasMatch topic.bytes = some true

theorem Filter.HoldsLog.mono {low high : Filter} {log : Log} (holds : low.HoldsLog log) (below : low.Below high) :
    high.HoldsLog log :=
  ⟨below.hasMatch holds.1, fun topic member => below.hasMatch (holds.2 topic member)⟩

theorem addLogs_ok (logs : List Log) (sized : bloom.Sized) :
    ∃ after, logs.foldlM addLog bloom = some after ∧ bloom.Below after ∧ ∀ log ∈ logs, after.HoldsLog log := by
  induction logs generalizing bloom with
  | nil => exact ⟨bloom, rfl, .refl bloom, by simp⟩
  | cons log rest next =>
    obtain ⟨one, added, below, address, topics⟩ := addLog_ok sized log
    obtain ⟨after, others, above, found⟩ := next (below.sized sized)
    refine ⟨after, ?_, below.trans above, forall_mem_cons.mpr ⟨?_, found⟩⟩
    · rw [foldlM_cons, added]
      exact others
    · exact Filter.HoldsLog.mono ⟨address, topics⟩ above

theorem createLogBloom_ok (logs : List Log) :
    ∃ bloom, createLogBloom logs = some bloom ∧ emptyBloom.Below bloom ∧ bloom.canCopy = true ∧
      ∀ log ∈ logs, bloom.HoldsLog log := by
  obtain ⟨bloom, made, below, found⟩ := addLogs_ok logs emptyBloom_sized
  exact ⟨bloom, made, below, canCopy_of_below below, found⟩

private theorem mergeReceipts_ok (rcs : List Receipt) (shape : emptyBloom.Below bloom) :
    ∃ after, rcs.foldlM (fun bloom rc => do
        let logs ← createLogBloom rc.logs
        return (bloom.merge logs).getD bloom) bloom = some after ∧
      bloom.Below after ∧ ∀ rc ∈ rcs, ∀ log ∈ rc.logs, after.HoldsLog log := by
  induction rcs generalizing bloom with
  | nil => exact ⟨bloom, rfl, .refl bloom, by simp⟩
  | cons rc rest next =>
    obtain ⟨logs, made, like, -, found⟩ := createLogBloom_ok rc.logs
    obtain ⟨both, merged, left, right⟩ := merge_ok (shape.hashFuncs.symm.trans like.hashFuncs)
      (shape.tweak.symm.trans like.tweak) (shape.length.symm.trans like.length)
    obtain ⟨after, others, above, later⟩ := next (shape.trans left)
    refine ⟨after, ?_, left.trans above, forall_mem_cons.mpr ⟨?_, later⟩⟩
    · rw [foldlM_cons, made]
      simp only [Option.bind_eq_bind, Option.bind_some, merged, Option.getD_some]
      exact others
    · exact fun log member => (found log member).mono (right.trans above)

/-- The filter of a header holds the address and the topics of every log in the receipts
that it was made from. -/
theorem createReceiptsBloom_ok (rcs : List Receipt) :
    ∃ bloom, createReceiptsBloom rcs = some bloom ∧ bloom.Sized ∧ ∀ rc ∈ rcs, ∀ log ∈ rc.logs, bloom.HoldsLog log := by
  obtain ⟨bloom, made, below, found⟩ := mergeReceipts_ok rcs (.refl emptyBloom)
  exact ⟨bloom, made, below.sized emptyBloom_sized, found⟩

end Made
end Boxd
