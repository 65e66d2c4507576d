import Boxd.Proofs.Coins
import Boxd.Proofs.InternalTxs

/-! The root of the transactions in a header. The tree doubles its last node, so a list
and the list with its tail repeated have the same root; a block that repeats a
transaction spends an outpoint twice and is refused. -/

namespace Boxd
open Lib List Outcome

variable {txs : List Transaction} {c : Crypto}

/-- An accepted block has the root of its transactions in the header, and all of them
spend something. -/
theorem validateBlock_root {block validated : Block} {statedb : StateDB}
    (ok : validateBlock c block statedb = .ok validated) :
    calcTxsHash c block.txs = .ok block.header.txsRoot ∧ ∀ tx ∈ block.txs, tx.vin ≠ [] := by
  unfold validateBlock at ok
  split at ok
  · cases ok
  · next first rest listed =>
    simp only [ite_fail_ok_iff, bind_ok_iff, lift_ok_iff] at ok
    obtain ⟨-, -, txs, checked, root, hashed, same, -⟩ := ok
    exact ⟨by rw [hashed, not_not.mp same], fun tx member => ((validateTxs_ok checked).2.1 tx member).1⟩

/-- The pairs of nodes that are hashed together for the root of a list of transactions. -/
def innerPairs (c : Crypto) (txs : List Transaction) : Set (HashType × HashType) :=
  combinedPairs (combineHash c) (merkleHeight txs.length) (txs.map (txHash c))

/-- Transactions with one hash spend the same outpoints, so they are not in one block. -/
theorem txHash_nodup {free : Set Bytes} (injective : Set.InjOn c.doubleHash free)
    (hashed : ∀ tx ∈ txs, tx.marshal ∈ free) (filled : ∀ tx ∈ txs, tx.vin ≠ [])
    (distinct : (txs.flatMap spentBy).Nodup) : (txs.map (txHash c)).Nodup := by
  obtain ⟨-, apart⟩ := nodup_flatMap.mp distinct
  rw [Nodup, pairwise_map]
  apply apart.imp_of_mem
  intro tx other member among disjoint collide
  have same : tx.toTxMessage = other.toTxMessage :=
    TxMessage.marshal_injective (injective (hashed tx member) (hashed other among) collide)
  obtain ⟨txIn, spends⟩ := exists_mem_of_ne_nil tx.vin (filled tx member)
  have spent : txIn.prevOutPoint ∈ spentBy tx := mem_map_of_mem spends
  have again : txIn.prevOutPoint ∈ spentBy other := by
    rw [spentBy, ← congrArg TxMessage.vin same]
    exact spent
  exact disjoint spent again

/-- Two accepted blocks with the same root have the same transaction hashes, none of them
twice, and neither block spends an outpoint twice. -/
theorem txs_root_commits (c : Crypto) (left right leftDone rightDone : Block) (leftState rightState : StateDB)
    (leftOk : validateBlock c left leftState = .ok leftDone) (rightOk : validateBlock c right rightState = .ok rightDone)
    (same : left.header.txsRoot = right.header.txsRoot)
    (free : Set.InjOn c.doubleHash (hashInputs c left.txs ∪ hashInputs c right.txs))
    (apart : ∀ tx ∈ left.txs ++ right.txs, ∀ pair ∈ innerPairs c left.txs ∪ innerPairs c right.txs,
      txHash c tx ≠ combineHash c pair.1 pair.2) :
    left.txs.map (txHash c) = right.txs.map (txHash c) ∧
      (left.txs.map (txHash c)).Nodup ∧ (left.txs.flatMap spentBy).Nodup ∧
      (right.txs.map (txHash c)).Nodup ∧ (right.txs.flatMap spentBy).Nodup := by
  obtain ⟨leftRoot, leftFilled⟩ := validateBlock_root leftOk
  obtain ⟨rightRoot, rightFilled⟩ := validateBlock_root rightOk
  have leftSpent := (validateBlock_ok leftOk).distinct
  have rightSpent := (validateBlock_ok rightOk).distinct
  have leftOnce := txHash_nodup free (fun tx member => .inl (.inl ⟨tx, member, rfl⟩)) leftFilled leftSpent
  have rightOnce := txHash_nodup free (fun tx member => .inr (.inl ⟨tx, member, rfl⟩)) rightFilled rightSpent
  have roots : merkleRoot (combineHash c) (left.txs.map (txHash c)) =
      merkleRoot (combineHash c) (right.txs.map (txHash c)) := by
    rw [calcTxsHash, same, ← rightRoot] at leftRoot
    exact expect_injective leftRoot
  refine ⟨?_, leftOnce, leftSpent, rightOnce, rightSpent⟩
  apply merkleRoot_inj_of_nodup (combineHash_injOn free) leftOnce rightOnce
  · intro pair member
    rw [length_map] at member
    exact .inl (.inr ⟨pair, member, rfl⟩)
  · intro pair member
    rw [length_map] at member
    exact .inr (.inr ⟨pair, member, rfl⟩)
  · intro pair member leaf
    rw [length_map] at member
    obtain ⟨tx, among, hash⟩ := mem_map.mp leaf
    exact apart tx (mem_append_left _ among) pair (.inr member) hash
  · intro pair member leaf
    rw [length_map] at member
    obtain ⟨tx, among, hash⟩ := mem_map.mp leaf
    exact apart tx (mem_append_right _ among) pair (.inl member) hash
  · exact roots

/-- The pairs level by level, from the leaves upwards. -/
def innerPairsList (c : Crypto) (txs : List Transaction) : List (HashType × HashType) :=
  (range (merkleHeight txs.length)).flatMap fun below => pairsOf ((parents (combineHash c))^[below] (txs.map (txHash c)))

theorem mem_innerPairs {pair : HashType × HashType} : pair ∈ innerPairs c txs ↔ pair ∈ innerPairsList c txs :=
  mem_combinedPairs (combineHash c)

theorem mem_hashInputs {bytes : Bytes} (hashed : bytes ∈ hashInputs c txs) :
    bytes ∈ txs.map (fun tx => tx.marshal) ++ (innerPairsList c txs).map fun pair => pair.1.bytes ++ pair.2.bytes := by
  rcases hashed with ⟨tx, member, rfl⟩ | ⟨pair, member, rfl⟩
  · exact mem_append_left _ (mem_map_of_mem member)
  · exact mem_append_right _ (mem_map_of_mem (mem_innerPairs.mp member))

def sampleSignedBlock (signature : Bytes) : Block :=
  { sampleSplitBlock 2100000 [samplePayment, sampleRespend] with signature }

theorem sample_root_commits : (sampleSignedBlock [1]).txs.map (txHash sampleSplitCrypto) =
      (sampleSignedBlock [2]).txs.map (txHash sampleSplitCrypto) ∧
    (sampleSignedBlock [1]).txs.length = 3 := by
  obtain ⟨leftDone, leftOk⟩ := exists_ok (validateBlock sampleSplitCrypto (sampleSignedBlock [1]) sampleParentState)
    (by decide +kernel)
  obtain ⟨rightDone, rightOk⟩ := exists_ok (validateBlock sampleSplitCrypto (sampleSignedBlock [2]) sampleParentState)
    (by decide +kernel)
  refine ⟨(txs_root_commits _ _ _ _ _ _ _ leftOk rightOk rfl ?_ ?_).1, rfl⟩
  · change Set.InjOn _ (hashInputs _ (sampleSignedBlock [1]).txs ∪ hashInputs _ (sampleSignedBlock [1]).txs)
    rw [Set.union_self]
    have apart : ((((sampleSignedBlock [1]).txs.map fun tx => tx.marshal) ++
        (innerPairsList sampleSplitCrypto (sampleSignedBlock [1]).txs).map fun pair =>
          pair.1.bytes ++ pair.2.bytes).map sampleSplitCrypto.doubleHash).Nodup := by decide +kernel
    intro bytes hashed other hashedToo collide
    exact inj_on_of_nodup_map apart (mem_hashInputs hashed) (mem_hashInputs hashedToo) collide
  · have apart : ∀ tx ∈ (sampleSignedBlock [1]).txs,
        ∀ pair ∈ innerPairsList sampleSplitCrypto (sampleSignedBlock [1]).txs,
          txHash sampleSplitCrypto tx ≠ combineHash sampleSplitCrypto pair.1 pair.2 := by decide +kernel
    intro tx member pair combined
    refine apart tx ?_ pair ?_
    · rcases mem_append.mp member with first | second
      · exact first
      · exact second
    · rcases combined with first | second
      · exact mem_innerPairs.mp first
      · exact mem_innerPairs.mp second

end Boxd
