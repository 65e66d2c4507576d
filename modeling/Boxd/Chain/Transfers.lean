import Boxd.Chain.System
import Boxd.Chain.Utxo

/-! The transactions that record what contracts paid. The payments are kept in a map from
the paying contract, which is read in whatever order it is iterated. -/

namespace Boxd
open Lib Outcome UtxoSet

structure TransferInfo where
  sender : AddressHash
  recipient : AddressHash
  value : UInt64
  deriving DecidableEq

def voutLimit : Nat := 1000

inductive TransferError where
  | invalidFrom | fromUtxoNotFound | zeroRecipient | toUtxoNotFound | insufficientBalance
  deriving DecidableEq

def makeContractScriptSig (nonce : UInt64) : Script := (Script.addOpCode [] opContract).addOperand (bytesLE 8 nonce.toNat)

def markContract (u : UtxoSet) (addr : AddressHash) : UtxoSet :=
  { u with contractUtxos := u.contractUtxos.insert (contractOutPoint addr) }

/-- Where the loop of `makeTx` sends a payment: a contract gets the value at once. -/
def payRecipient (statedb : StateDB) (u : UtxoSet) (info : TransferInfo) : Outcome TransferError (Script × UtxoSet) :=
  if info.recipient = zeroAddressHash then .fail .zeroRecipient
  else if statedb.isContractAddr info.recipient then do
    let spk ← expect (makeContractScriptPubkey info.sender info.recipient 1 0 0).toOption
    let u := markContract u info.recipient
    let outOp := contractOutPoint info.recipient
    let utxoWrap ← orFail .toUtxoNotFound
      ((u.findUtxo outOp).or ((statedb.getContractUtxo info.recipient).map UtxoEntry.wrap))
    return (spk, u.put outOp (utxoWrap.addValue info.value))
  else return (payToPubKeyHashScript info.recipient, u)

/-- The loop of `makeTx`. The payer's entry is read again for every payment, since a
payment may be one to itself. -/
def makeVouts (statedb : StateDB) (payer : AddressHash) :
    List TransferInfo → UtxoSet → Outcome TransferError (List TxOut × UtxoSet)
  | [], u => .ok ([], u)
  | info :: rest, u => do
    let (spk, u) ← payRecipient statedb u { info with sender := payer }
    let inOp := contractOutPoint payer
    let fromUtxoWrap ← expect (u.findUtxo inOp)
    let fromValue := fromUtxoWrap.value - info.value
    if fromValue > fromUtxoWrap.value then .fail .insufficientBalance
    else
      let (vouts, u) ← makeVouts statedb payer rest (u.put inOp (fromUtxoWrap.setValue fromValue))
      return (⟨info.value, spk⟩ :: vouts, u)

/-- `makeTx` for the payments between two positions. The payer is that of the first
payment of all. -/
def makeTx (transferInfos : List TransferInfo) (senderNonce : UInt64) (voutBegin voutEnd : Nat) (db : UtxoDB)
    (statedb : StateDB) (u : UtxoSet) : Outcome TransferError (Transaction × UtxoSet) := do
  let first ← expect transferInfos.head?
  if normalizeAddressHash first.sender = zeroHash then .fail .invalidFrom
  else
    let inOp := contractOutPoint first.sender
    let u := markContract u first.sender
    let fromUtxoWrap ← orFail .fromUtxoNotFound ((u.findUtxo inOp).or ((db.lookup inOp).map UtxoEntry.wrap))
    let (vout, u) ← makeVouts statedb first.sender ((transferInfos.take voutEnd).drop voutBegin) (u.put inOp fromUtxoWrap)
    return ({ newTx 0 0 0 with vin := [⟨inOp, makeContractScriptSig senderNonce, 0⟩], vout }, u)

/-- Where the payments of one contract are cut. The last end is counted from the begin, and
not from the start of the list. -/
def voutRanges (length : Nat) : List (Nat × Nat) :=
  if length > voutLimit then
    (List.range (length / voutLimit + 1)).map fun i =>
      (i * voutLimit, if (i + 1) * voutLimit < length then (i + 1) * voutLimit else length - i * voutLimit)
  else [(0, length)]

def makeTxs {ε α τ : Type} (make : α → UtxoSet → Outcome ε (τ × UtxoSet)) :
    List α → UtxoSet → Outcome ε (List τ × UtxoSet)
  | [], u => .ok ([], u)
  | item :: rest, u => do
    let (tx, u) ← make item u
    let (txs, u) ← makeTxs make rest u
    return (tx :: txs, u)

/-- The payments of one contract in `createUtxoTx`. -/
def payTransfers (senderNonce : UInt64) (db : UtxoDB) (statedb : StateDB) (transferInfos : List TransferInfo)
    (u : UtxoSet) : Outcome TransferError (List Transaction × UtxoSet) :=
  makeTxs (fun range u => makeTx transferInfos senderNonce range.1 range.2 db statedb u)
    (voutRanges transferInfos.length) u

/-- `createUtxoTx`; the list is the map in the order of the iteration. -/
def createUtxoTx (transfers : List (AddressHash × List TransferInfo)) (senderNonce : UInt64) (u : UtxoSet)
    (db : UtxoDB) (statedb : StateDB) : Outcome TransferError (List Transaction × UtxoSet) := do
  let (txs, u) ← makeTxs (fun entry u => payTransfers senderNonce db statedb entry.2 u) transfers u
  return (txs.flatten, u)

/-- The map of payments: every contract that pays has its own list, which is not empty. -/
structure TransferGroups where
  groups : List (AddressHash × List TransferInfo)
  distinct : (groups.map Prod.fst).Nodup
  sent : ∀ group ∈ groups, group.2 ≠ [] ∧ ∀ info ∈ group.2, info.sender = group.1

end Boxd
