import Boxd.Chain.Utxo
import Boxd.Lib.Bloom

/-! Split addresses. A payment to one is expanded into payments to the addresses behind it,
by weight, and again if one of those is a split address. -/

namespace Boxd
open Lib List

/-- `splitAddrInfo`, with each address next to its weight. -/
structure SplitAddrInfo where
  shares : List (AddressHash × UInt32)
  deriving DecidableEq

namespace SplitAddrInfo

def marshall (info : SplitAddrInfo) : Bytes :=
  info.shares.flatMap fun (addr, weight) => addr.bytes ++ bytesLE 4 weight.toNat

/-- `Unmarshall`: it fails when the length is not that of whole shares. -/
def unmarshall (data : Bytes) : Option SplitAddrInfo :=
  if data.length % 24 ≠ 0 then none
  else some ⟨(range (data.length / 24)).map fun i =>
    (.copy 20 ((data.drop (24 * i)).take 20), .ofNat (natLE ((data.drop (24 * i + 20)).take 4)))⟩

def totalWeight (info : SplitAddrInfo) : UInt64 := (info.shares.map fun share => share.2.toUInt64).sum

end SplitAddrInfo

/-- Where split addresses are looked up: a bloom filter, and the records. -/
structure SplitAddrIndex where
  splitAddrFilter : Bloom AddressHash
  records : Table AddressHash Bytes

def SplitAddrIndex.findSplitAddr (index : SplitAddrIndex) (addr : AddressHash) : Option SplitAddrInfo :=
  if !index.splitAddrFilter.hasMatch addr then none
  else (index.records.lookup addr).bind SplitAddrInfo.unmarshall

/-- The outputs to the addresses of a split address: the last one gets the remainder. -/
def splitShares (value totalWeight : UInt64) : List (AddressHash × UInt32) → (totalValue : UInt64) → List TxOut
  | [], _ => []
  | [(addr, _)], totalValue => [⟨value - totalValue, payToPubKeyHashScript addr⟩]
  | (addr, weight) :: rest, totalValue =>
    let share := value * weight.toUInt64 / totalWeight
    ⟨share, payToPubKeyHashScript addr⟩ :: splitShares value totalWeight rest (totalValue + share)

/-- `splitTxOutput`. A record that leads back to its address recurses until the stack is
exhausted; the depth is the size of the stack. -/
def splitTxOutput (index : SplitAddrIndex) : (depth : Nat) → TxOut → Outcome ChainError (List TxOut)
  | 0, _ => .panicked
  | depth + 1, txOut =>
    match (UtxoSet.pubKeyHashOf txOut.scriptPubKey).bind index.findSplitAddr with
    | none => .ok [txOut]
    | some sai =>
      if sai.shares = [] then .ok []
      else if sai.totalWeight = 0 then .panicked
      else (flatten ·) <$> (splitShares txOut.value sai.totalWeight sai.shares 0).mapM (splitTxOutput index depth)

/-- `splitTxOutputs`: the transaction afterwards, and whether an output was split into
several. -/
def splitTxOutputs (index : SplitAddrIndex) (depth : Nat) (tx : Transaction) :
    Outcome ChainError (Transaction × Bool) := do
  let expanded ← tx.vout.mapM (splitTxOutput index depth)
  if expanded.any fun txOuts => 1 < txOuts.length then
    return ({ tx with vout := expanded.flatten, type := .splitTx }, true)
  else return (tx, false)

/-- The loop of `SplitBlockOutputs`: the transactions afterwards, and the split ones
under the hash they had before. -/
def splitTxs (c : Crypto) (index : SplitAddrIndex) (depth : Nat) :
    List Transaction → Table HashType Transaction → Outcome ChainError (List Transaction × Table HashType Transaction)
  | [], found => .ok ([], found)
  | tx :: rest, found => do
    let (split, isSplitTx) ← splitTxOutputs index depth tx
    let (rest, found) ← splitTxs c index depth rest (if isSplitTx then found.insert (txHash c tx) split else found)
    return (split :: rest, found)

def splitBlockOutputs (c : Crypto) (index : SplitAddrIndex) (depth : Nat) (block : Block) :
    Outcome ChainError (Block × Table HashType Transaction) := do
  let (txs, found) ← splitTxs c index depth block.txs ∅
  return ({ block with txs }, found)

end Boxd
