import Boxd.Bloom
import Boxd.Types

/-! Receipts of executed transactions and their logs: the hash that a header commits to,
the bloom filter of a header, and the search for logs that reads it. -/

namespace Boxd
open Lib WireField

structure Log where
  address : AddressHash
  topics : List HashType
  data : Bytes
  blockNumber : UInt64
  txHash : HashType
  txIndex : UInt32
  blockHash : HashType
  index : UInt32
  removed : Bool
  deriving DecidableEq

structure Receipt where
  txHash : HashType
  txIndex : UInt32
  contractAddress : AddressHash
  deployed : Bool
  failed : Bool
  gasUsed : UInt64
  blockHash : HashType
  blockHeight : UInt32
  internalTxs : List HashType
  errMsg : Bytes
  logs : List Log
  bloom : Option Filter
  deriving DecidableEq

structure HashLog where
  address : AddressHash
  topics : List HashType
  data : Bytes
  deriving DecidableEq

structure HashReceipt where
  txHash : HashType
  txIndex : UInt32
  contractAddress : AddressHash
  deployed : Bool
  failed : Bool
  gasUsed : UInt64
  internalTxs : List HashType
  blockHash : HashType
  blockHeight : UInt32
  errMsg : Bytes
  logs : List HashLog
  bloom : Option Filter
  deriving DecidableEq

def bloomBitLength : UInt32 := 2048
def bloomHashNum : UInt32 := 3

/-- `NewFilterWithMK` with the size of a header's filter. -/
def emptyBloom : Filter := .newFilter bloomBitLength bloomHashNum 0

/-- The loop of `createLogBloom` over the logs. It has no result when the code panics. -/
def addLog (bloom : Filter) (log : Log) : Option Filter := do
  let bloom ← bloom.add log.address.bytes
  log.topics.foldlM (fun bloom topic => bloom.add topic.bytes) bloom

def createLogBloom (logs : List Log) : Option Filter := logs.foldlM addLog emptyBloom

/-- `CreateReceiptsBloom`; the error of `Merge` is not looked at. -/
def createReceiptsBloom (rcs : List Receipt) : Option Filter :=
  rcs.foldlM (fun bloom rc => do
    let logs ← createLogBloom rc.logs
    return (bloom.merge logs).getD bloom) emptyBloom

/-- `toHashLog`. The data is copied into a slice that has no room for it. -/
def Log.toHashLog (log : Log) : HashLog where
  address := log.address
  topics := log.topics
  data := []

/-- The loop of `toHashReceipts`. The filter is copied onto itself, not into the result;
when that fails there is no result. -/
def Receipt.toHashReceipt (rc : Receipt) : Option HashReceipt :=
  if (rc.bloom.getD emptyBloom).canCopy then
    some {
      txHash := rc.txHash
      txIndex := rc.txIndex
      contractAddress := rc.contractAddress
      deployed := rc.deployed
      failed := rc.failed
      gasUsed := rc.gasUsed
      internalTxs := rc.internalTxs
      blockHash := zeroHash
      blockHeight := rc.blockHeight
      errMsg := rc.errMsg
      logs := rc.logs.map Log.toHashLog
      bloom := none }
  else none

def toHashReceipts (rcs : List Receipt) : Option (List HashReceipt) := rcs.mapM Receipt.toHashReceipt

def HashLog.marshal (log : HashLog) : Bytes :=
  encodeWire (ofBytes 1 log.address.bytes ++ ofMessages 2 (log.topics.map FixedBytes.bytes) ++ ofBytes 3 log.data)

/-- The message has no contract address, no block hash and no height. -/
def HashReceipt.marshal (rc : HashReceipt) : Bytes :=
  encodeWire (ofBytes 1 rc.txHash.bytes ++ ofNumber 2 rc.txIndex.toNat ++ ofNumber 3 rc.deployed.toNat ++
    ofNumber 4 rc.failed.toNat ++ ofNumber 5 rc.gasUsed.toNat ++ ofMessages 6 (rc.internalTxs.map FixedBytes.bytes) ++
    ofMessages 7 (rc.logs.map HashLog.marshal) ++ ofBytes 8 (rc.bloom.getD emptyBloom).marshal ++ ofBytes 9 rc.errMsg)

def marshalHashReceipts (rcs : List HashReceipt) : Bytes := encodeWire (ofMessages 1 (rcs.map HashReceipt.marshal))

/-- `Receipts.Hash`; it returns nil when a filter cannot be copied. -/
def receiptsHash (c : Crypto) (rcs : List Receipt) : Option HashType :=
  (toHashReceipts rcs).map fun hashrcs => c.doubleHash (marshalHashReceipts hashrcs)

section Search

/-- What a log search asks for: the addresses, and for each position the topics. An
empty set of topics stands for any. -/
structure LogQuery where
  addrs : List Bytes
  topics : List (List Bytes)

/-- The `for` loops of `bloomFilter`; they stop at the first match. -/
def anyMatch (bf : Filter) : List Bytes → Option Bool
  | [] => some false
  | data :: rest => do
    let found ← bf.hasMatch data
    if found then return true else anyMatch bf rest

/-- The loop of `bloomFilter` over the positions. -/
def topicsMatch (bf : Filter) : List (List Bytes) → Option Bool
  | [] => some true
  | sub :: rest => do
    let included ← anyMatch bf sub
    if sub.isEmpty || included then topicsMatch bf rest else return false

/-- `bloomFilter`: whether a block is looked at, by the filter in its header. -/
def bloomFilter (bf : Filter) (query : LogQuery) : Option Bool := do
  if !query.addrs.isEmpty then
    let included ← anyMatch bf query.addrs
    if !included then return false
  topicsMatch bf query.topics

def keepsLog (query : LogQuery) (log : Log) : Bool :=
  (query.addrs.isEmpty || log.address.bytes ∈ query.addrs) && query.topics.length ≤ log.topics.length &&
    (query.topics.zip log.topics).all fun (sub, topic) => sub.isEmpty || topic.bytes ∈ sub

def filterLogs (logs : List Log) (query : LogQuery) : List Log := logs.filter (keepsLog query)

end Search
end Boxd
