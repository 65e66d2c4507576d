import Boxd.Script.Kinds

/-! Blocks, and how transactions are told apart by their inputs and outputs. -/

namespace Boxd
open Lib

structure BlockHeader where
  version : Int32
  prevBlockHash : HashType
  txsRoot : HashType
  internalTxsRoot : HashType
  utxoRoot : HashType
  receiptHash : HashType
  timeStamp : Int64
  magic : UInt32
  rootHash : HashType
  dynastyHash : HashType
  height : UInt32
  gasUsed : UInt64
  bookKeeper : AddressHash
  bloom : Bytes
  deriving DecidableEq

structure IrreversibleInfo where
  hash : HashType
  signatures : List Bytes
  deriving DecidableEq

structure Block where
  header : BlockHeader
  txs : List Transaction
  internalTxs : List Transaction
  signature : Bytes
  irreversibleInfo : Option IrreversibleInfo
  deriving DecidableEq

/-- An output as it is stored, in the UTXO database or in the state of a contract. -/
structure UtxoEntry where
  value : UInt64
  script : Bytes
  height : UInt32
  deriving DecidableEq

/-- What the chain reads from the world state: which addresses hold code, the entries of
contracts, nonces and balances. -/
structure StateDB where
  isContractAddr : AddressHash → Bool
  getContractUtxo : AddressHash → Option UtxoEntry
  getNonce : AddressHash → UInt64
  getBalance : AddressHash → Nat

/-- The world state: accounts, contracts and the coins of contracts, kept in tries
that the roots in a block header name. -/
structure World where
  State : Type
  new : (rootHash utxoRoot : HashType) → Option State
  stateDB : State → StateDB
  addBalance : State → AddressHash → Int → State
  subBalance : State → AddressHash → Int → State
  updateUtxo : State → AddressHash → Option UtxoEntry → Option State
  commit : State → Option (HashType × Option HashType × State)

def isNullOutPoint (outPoint : OutPoint) : Bool := outPoint.index == maxUint32 && outPoint.hash == zeroHash

def hasSystemInput (index : UInt32) (tx : Transaction) : Bool :=
  match tx.vin with
  | [txIn] => txIn.prevOutPoint.index == index && txIn.prevOutPoint.hash == zeroHash
  | _ => false

def isInternalContract : Transaction → Bool := hasSystemInput (maxUint32 - 1)

def isCoinBase : Transaction → Bool := hasSystemInput maxUint32

/-- `TxHash`. The code caches it on the transaction, and `FromProtoMessage` the hash of the
message it got, which is the same one for a canonical message. -/
def txHash (c : Crypto) (tx : Transaction) : HashType := c.calcTxHash tx.toTxMessage

/-- The loop of `ParseTxType` over the outputs that are left, with the cached type, the
index of the output that decided it and the number of data outputs. The last component is
the type that stays cached: some errors are not cached. -/
def parseTxTypeFrom (statedb : StateDB) :
    List TxOut → (i : Nat) → (type : TxType) → (idx opReturns : Nat) → TxType × Nat × TxType
  | [], _, type, idx, _ =>
    if type = .unknownTx then (.payToPubkTx, 0, .payToPubkTx) else (type, idx, type)
  | txOut :: rest, i, type, idx, opReturns =>
    let sc : Script := txOut.scriptPubKey
    let goOn := parseTxTypeFrom statedb rest (i + 1)
    let failed : TxType × Nat × TxType := (.errorTx, 0, .errorTx)
    let paysContract : Option Bool :=
      match sc.extractAddress with
      | .error _ => none
      | .ok addr => some (addr.hash160.any statedb.isContractAddr)
    if type ≠ .unknownTx then
      match sc.pubkType with
      | .tokenTransferPubk => if type ≠ .tokenTransferTx then (.errorTx, 0, type) else goOn type idx opReturns
      | .payToPubk =>
        match paysContract with
        | none => failed
        | some true => (.errorTx, 0, type)
        | some false => goOn type idx opReturns
      | .payToPubkCLTV | .payToScriptPubk => goOn type idx opReturns
      | .opReturnPubk => if 0 < opReturns then failed else goOn type idx (opReturns + 1)
      | _ => failed
    else
      match sc.pubkType with
      | .payToPubkCLTV | .payToScriptPubk => goOn type idx opReturns
      | .payToPubk =>
        match paysContract with
        | none => failed
        | some true => goOn .contractTx i opReturns
        | some false => goOn type idx opReturns
      | .unknownPubk => failed
      | .tokenTransferPubk => goOn .tokenTransferTx i opReturns
      | .tokenIssuePubk => goOn .tokenIssueTx i opReturns
      | .contractPubk => goOn .contractTx i opReturns
      | .splitAddrPubk => goOn .splitTx i opReturns
      | .opReturnPubk => if 0 < opReturns then failed else goOn type idx (opReturns + 1)

/-- `ParseTxType`: the returned type and output index, and the type left in the cache. -/
def parseTxType (statedb : StateDB) (tx : Transaction) : TxType × Nat × TxType :=
  parseTxTypeFrom statedb tx.vout 0 tx.type 0 0

def isStandardTx (statedb : StateDB) (tx : Transaction) : Bool × Transaction :=
  if tx.type ≠ .unknownTx then (tx.type != .errorTx, tx)
  else
    let (type, _, cached) := parseTxType statedb tx
    (type != .errorTx, { tx with type := cached })

def getTxType (statedb : StateDB) (tx : Transaction) : TxType × Transaction :=
  if tx.type ≠ .unknownTx then (tx.type, tx)
  else
    let (type, _, cached) := parseTxType statedb tx
    (type, { tx with type := cached })

end Boxd
