import Boxd.Chain.Transfers
import Boxd.Proofs.Rollback

/-! Executing a block goes through the paying contracts in no fixed order. The
transactions come out in that order, so nodes agree on them only when one contract
pays. -/

namespace Boxd
open Lib List UtxoSet Outcome

variable {transferInfos : List TransferInfo} {u after : UtxoSet}

section Run

variable {senderNonce : UInt64} {db : UtxoDB} {statedb : StateDB}

theorem voutRanges_ne_nil (length : Nat) : voutRanges length ≠ [] := by
  unfold voutRanges
  split
  · intro empty
    simp at empty
  · exact cons_ne_nil _ _

theorem makeTx_vin {voutBegin voutEnd : Nat} {tx : Transaction}
    (made : makeTx transferInfos senderNonce voutBegin voutEnd db statedb u = .ok (tx, after)) :
    ∃ first, transferInfos.head? = some first ∧
      tx.vin = [⟨contractOutPoint first.sender, makeContractScriptSig senderNonce, 0⟩] := by
  unfold makeTx at made
  obtain ⟨first, found, made⟩ := bind_ok_iff.mp made
  rw [ite_fail_ok_iff] at made
  obtain ⟨wrap, -, made⟩ := bind_ok_iff.mp made.2
  obtain ⟨vouts, -, done⟩ := bind_ok_iff.mp made
  cases done
  exact ⟨first, expect_ok found, rfl⟩

theorem payTransfers_first {txs : List Transaction}
    (paid : payTransfers senderNonce db statedb transferInfos u = .ok (txs, after)) :
    ∃ first tx rest, transferInfos.head? = some first ∧ txs = tx :: rest ∧
      tx.vin = [⟨contractOutPoint first.sender, makeContractScriptSig senderNonce, 0⟩] := by
  unfold payTransfers at paid
  obtain ⟨range, ranges, cut⟩ := exists_cons_of_ne_nil (voutRanges_ne_nil transferInfos.length)
  rw [cut, makeTxs] at paid
  obtain ⟨⟨tx, between⟩, made, paid⟩ := bind_ok_iff.mp paid
  obtain ⟨⟨rest, _⟩, -, done⟩ := bind_ok_iff.mp paid
  cases done
  obtain ⟨first, found, vin⟩ := makeTx_vin made
  exact ⟨first, tx, rest, found, rfl, vin⟩

theorem createUtxoTx_first {payer : AddressHash}
    {others : List (AddressHash × List TransferInfo)} (sent : ∀ info ∈ transferInfos, info.sender = payer)
    {txs : List Transaction}
    (created : createUtxoTx ((payer, transferInfos) :: others) senderNonce u db statedb = .ok (txs, after)) :
    ∃ tx rest, txs = tx :: rest ∧
      tx.vin = [⟨contractOutPoint payer, makeContractScriptSig senderNonce, 0⟩] := by
  unfold createUtxoTx at created
  obtain ⟨⟨made, _⟩, ran, done⟩ := bind_ok_iff.mp created
  cases done
  rw [makeTxs] at ran
  obtain ⟨⟨own, between⟩, paid, ran⟩ := bind_ok_iff.mp ran
  obtain ⟨⟨later, _⟩, -, done⟩ := bind_ok_iff.mp ran
  cases done
  obtain ⟨first, tx, rest, found, rfl, vin⟩ := payTransfers_first paid
  rw [sent first (mem_of_mem_head? found)] at vin
  exact ⟨tx, rest ++ later.flatten, rfl, vin⟩

end Run

/-- The transactions that two nodes get: the same ones, or none at all. -/
def SameTxs (left right : Outcome TransferError (List Transaction × UtxoSet)) : Prop :=
  left.toOption.map Prod.fst = right.toOption.map Prod.fst

section Orders

variable (transfers : TransferGroups) (senderNonce : UInt64) (u : UtxoSet) (db : UtxoDB) (statedb : StateDB)

theorem TransferGroups.order_eq (few : transfers.groups.length ≤ 1) {left right : List (AddressHash × List TransferInfo)}
    (ofLeft : left.Perm transfers.groups) (ofRight : right.Perm transfers.groups) : left = right := by
  rcases groups : transfers.groups with - | ⟨group, - | ⟨other, rest⟩⟩
  · rw [groups] at ofLeft ofRight
    rw [perm_nil.mp ofLeft, perm_nil.mp ofRight]
  · rw [groups] at ofLeft ofRight
    rw [perm_singleton.mp ofLeft, perm_singleton.mp ofRight]
  · simp [groups] at few

/-- With another contract in front, the first transaction spends the coins of that contract. -/
theorem TransferGroups.front_differs {first second : AddressHash × List TransferInfo} {others : List (AddressHash × List TransferInfo)}
    (among : (first :: second :: others).Perm transfers.groups)
    (created : (createUtxoTx (first :: second :: others) senderNonce u db statedb).isOk = true) :
    ¬SameTxs (createUtxoTx (first :: second :: others) senderNonce u db statedb)
      (createUtxoTx (second :: first :: others) senderNonce u db statedb) := by
  intro agree
  have swapped := (Perm.swap first second others).trans among
  have sentFirst := (transfers.sent _ (among.subset mem_cons_self)).2
  have sentSecond := (transfers.sent _ (swapped.subset mem_cons_self)).2
  have apart : first.1 ≠ second.1 := by
    have once := (among.map Prod.fst).nodup_iff.mpr transfers.distinct
    intro equal
    simp [equal] at once
  obtain ⟨⟨txs, after⟩, created⟩ := exists_ok _ created
  obtain ⟨tx, rest, rfl, vin⟩ := createUtxoTx_first sentFirst created
  rw [SameTxs, created] at agree
  obtain ⟨⟨others, final⟩, createdToo, same⟩ := Option.map_eq_some_iff.mp agree.symm
  obtain ⟨other, remaining, rfl, vinToo⟩ := createUtxoTx_first sentSecond (toOption_eq_some_iff.mp createdToo)
  obtain ⟨rfl, -⟩ := cons.inj same
  rw [vin] at vinToo
  simp only [cons.injEq, TxIn.mk.injEq, and_true] at vinToo
  exact apart (contractOutPoint_injective vinToo)

/-- Every order of iteration gives the same transactions where at most one contract pays.
Where several do, every order that succeeds has one that differs. -/
theorem same_txs_in_every_order :
    (transfers.groups.length ≤ 1 → ∀ left right : List (AddressHash × List TransferInfo), left.Perm transfers.groups →
      right.Perm transfers.groups → SameTxs (createUtxoTx left senderNonce u db statedb) (createUtxoTx right senderNonce u db statedb)) ∧
    (1 < transfers.groups.length → ∀ order : List (AddressHash × List TransferInfo), order.Perm transfers.groups →
      (createUtxoTx order senderNonce u db statedb).isOk = true → ∃ other : List (AddressHash × List TransferInfo),
        other.Perm transfers.groups ∧ ¬SameTxs (createUtxoTx order senderNonce u db statedb)
          (createUtxoTx other senderNonce u db statedb)) := by
  refine ⟨fun few left right ofLeft ofRight => ?_, fun several order among created => ?_⟩
  · rw [transfers.order_eq few ofLeft ofRight]
    rfl
  · have length := among.length_eq
    rcases order with - | ⟨first, - | ⟨second, others⟩⟩
    · simp only [length_nil] at length
      omega
    · simp only [length_singleton] at length
      omega
    · exact ⟨_, (Perm.swap first second others).trans among,
        transfers.front_differs senderNonce u db statedb among created⟩

end Orders

def sampleFirst : AddressHash := .fill 20 1
def sampleSecond : AddressHash := .fill 20 2
def samplePayee : AddressHash := .fill 20 3

/-- The second contract pays 5 to the first one, which pays 5 to an account. -/
def sampleTransfers : TransferGroups where
  groups := [(sampleFirst, [⟨sampleFirst, samplePayee, 5⟩]), (sampleSecond, [⟨sampleSecond, sampleFirst, 5⟩])]
  distinct := by decide
  sent := by decide

def sampleContracts : StateDB where
  isContractAddr addr := addr = sampleFirst || addr = sampleSecond
  getContractUtxo _ := none
  getNonce _ := 0
  getBalance _ := 0

/-- The coins of the two contracts before the payments. -/
def sampleFunds (first second : UInt64) : UtxoSet :=
  (new.put (contractOutPoint sampleFirst) (.new first [] 1)).put
    (contractOutPoint sampleSecond) (.new second [] 1)

/-- The first contract is the only one that pays. -/
def loneTransfer : TransferGroups where
  groups := [(sampleFirst, [⟨sampleFirst, samplePayee, 5⟩])]
  distinct := by decide
  sent := by decide

/-- What the contracts pay when each holds 5. -/
def samplePaid (groups : List (AddressHash × List TransferInfo)) : Outcome TransferError (List Transaction × UtxoSet) :=
  createUtxoTx groups 9 (sampleFunds 5 5) ∅ sampleContracts

theorem lone_payer_agrees : (samplePaid loneTransfer.groups).isOk ∧
    ∀ order : List (AddressHash × List TransferInfo), order.Perm loneTransfer.groups →
      SameTxs (samplePaid loneTransfer.groups) (samplePaid order) :=
  ⟨by decide +kernel, fun order among => (same_txs_in_every_order loneTransfer 9 (sampleFunds 5 5) ∅ sampleContracts).1
    (by decide) _ order (.refl _) among⟩

/-- Two orders of one map: both give transactions when both contracts hold enough, but
not the same ones; when the first contract needs what the second pays, one fails. -/
theorem iteration_order_matters : sampleTransfers.groups.reverse.Perm sampleTransfers.groups ∧
    ((samplePaid sampleTransfers.groups).isOk ∧
      (samplePaid sampleTransfers.groups.reverse).isOk ∧
      ¬SameTxs (samplePaid sampleTransfers.groups) (samplePaid sampleTransfers.groups.reverse)) ∧
    (createUtxoTx sampleTransfers.groups 9 (sampleFunds 0 5) ∅ sampleContracts).isOk = false ∧
      (createUtxoTx sampleTransfers.groups.reverse 9 (sampleFunds 0 5) ∅ sampleContracts).isOk := by
  refine ⟨reverse_perm _, ⟨by decide +kernel, by decide +kernel, ?_⟩, by decide +kernel, by decide +kernel⟩
  unfold SameTxs
  decide +kernel

end Boxd
