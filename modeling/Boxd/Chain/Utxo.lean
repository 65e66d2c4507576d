import Boxd.Chain.Block
import Boxd.Lib.Table

/-! The set of unspent outputs that is loaded for a transaction or a block, checked,
and then changed by it. -/

namespace Boxd
open Lib Script Outcome

/-- `types.UtxoWrap`, with its two flags. -/
structure UtxoWrap where
  value : UInt64
  script : Bytes
  height : UInt32
  isSpent : Bool
  isModified : Bool
  deriving DecidableEq

namespace UtxoWrap

def new (value : UInt64) (script : Bytes) (height : UInt32) : UtxoWrap := ⟨value, script, height, false, true⟩

/-- The zero value of the type. -/
def empty : UtxoWrap := ⟨0, [], 0, false, false⟩

variable (utxoWrap : UtxoWrap)

def spend : UtxoWrap :=
  if utxoWrap.isSpent then utxoWrap else { utxoWrap with isSpent := true, isModified := true }

def unSpend : UtxoWrap := { utxoWrap with isSpent := false, isModified := true }

def setValue (value : UInt64) : UtxoWrap := { utxoWrap with value, isModified := true }

def addValue (value : UInt64) : UtxoWrap :=
  { utxoWrap with value := utxoWrap.value + value, isModified := true }

/-- `SerializeUtxoWrap`: a spent output has no serialization. -/
def serialize : Option UtxoEntry :=
  if utxoWrap.isSpent then none else some ⟨utxoWrap.value, utxoWrap.script, utxoWrap.height⟩

/-- What happens to the entry of an output: nothing, deletion, or a new value. -/
def written : Option (Option UtxoEntry) :=
  if utxoWrap.isModified then some utxoWrap.serialize else none

end UtxoWrap

/-- `DeserializeUtxoWrap`: an entry that is read counts as modified. -/
def UtxoEntry.wrap (entry : UtxoEntry) : UtxoWrap := .new entry.value entry.script entry.height

abbrev UtxoMap := Table OutPoint UtxoWrap

/-- The part of the database that holds the unspent outputs. -/
abbrev UtxoDB := Table OutPoint UtxoEntry

inductive ChainError where
  | script (err : ScriptError)
  | noTransactions | firstTxNotCoinbase | multipleCoinbases | maxTxsSizeExceeded | unfinalizedTx | doubleSpendTx
  | nonStandardTransaction | badMerkleRoot | duplicateTx | noTxInputs | noTxOutputs | utxosOob | voutsOob
  | badTxOutValue | badCoinbaseScriptLen | badTxInput | missingTxOut | tokenInvalidName | spendTooHigh
  | tokenInputsOutputNotEqual | txOutIndexOob | addExistingUtxo | opReturnVout | contractVout | utxoNotFound
  | contractUtxoNotFound | invalidFee | badFees | maxCodeSizeExceeded | contractFromMismatched
  | invalidInternalTxs | invalidGasUsed | badCoinbaseValue | invalidReceiptHash | invalidStateRoot
  | invalidUtxoRoot | ambiguousBalance | stateNotFound | stateFailed | netParamsNotFound | processFailed
  | blockNotFound | rollbackBalance | consensusFailed
  deriving DecidableEq

/-- `UtxoSet`. The two sets of outpoints are lists without repetitions. -/
structure UtxoSet where
  utxoMap : UtxoMap
  normalTxUtxoSet : List OutPoint
  contractUtxos : List OutPoint

namespace UtxoSet

def new : UtxoSet := ⟨∅, [], []⟩

variable (c : Crypto) (u : UtxoSet)

def findUtxo (outPoint : OutPoint) : Option UtxoWrap := u.utxoMap.lookup outPoint

/-- Write an entry of the map. -/
def put (outPoint : OutPoint) (utxoWrap : UtxoWrap) : UtxoSet :=
  { u with utxoMap := u.utxoMap.insert outPoint utxoWrap }

def addUtxo (tx : Transaction) (txOutIdx blockHeight : UInt32) : Except ChainError UtxoSet :=
  match tx.vout[txOutIdx.toNat]? with
  | none => .error .txOutIndexOob
  | some vout =>
    let sc : Script := vout.scriptPubKey
    let outPoint : OutPoint := ⟨txHash c tx, txOutIdx⟩
    if sc.isOpReturnScript then .error .opReturnVout
    else if sc.isContractPubkey then .error .contractVout
    else if (u.findUtxo outPoint).isSome then .error .addExistingUtxo
    else .ok (u.put outPoint (.new vout.value vout.scriptPubKey blockHeight))

/-- `SpendUtxo`. An output that is not there is marked all the same, so that it is deleted
from the database. -/
def spendUtxo (outPoint : OutPoint) : UtxoSet :=
  u.put outPoint ((u.findUtxo outPoint).getD .empty).spend

def contractOutPoint (addr : AddressHash) : OutPoint := ⟨normalizeAddressHash addr, 0⟩

/-- An output that `applyUtxo` adds under its own outpoint. The type of the
transaction is cached on the way. -/
def applyCommon (tx : Transaction) (vout : TxOut) (txOutIdx blockHeight : UInt32)
    (statedb : StateDB) : Except ChainError (UtxoSet × Transaction) :=
  let outPoint : OutPoint := ⟨txHash c tx, txOutIdx⟩
  if (u.findUtxo outPoint).isSome then .error .addExistingUtxo
  else
    let u := u.put outPoint (.new vout.value vout.scriptPubKey blockHeight)
    let (type, tx) := getTxType statedb tx
    if type ≠ .contractTx then .ok ({ u with normalTxUtxoSet := u.normalTxUtxoSet.insert outPoint }, tx)
    else .ok (u, tx)

/-- A payment to the address of a contract adds to its coins, which are taken from the state
when the set does not have them. -/
def applyTransfer (addr : AddressHash) (value : UInt64) (statedb : StateDB) : Except ChainError UtxoSet :=
  if value = 0 then .ok u
  else
    let outPoint := contractOutPoint addr
    match (u.findUtxo outPoint).or ((statedb.getContractUtxo addr).map UtxoEntry.wrap) with
    | none => .error .utxoNotFound
    | some utxoWrap => .ok (u.put outPoint (utxoWrap.setValue (utxoWrap.value + value)))

/-- A contract output: a deployment starts with no coins, a call adds to them. -/
def applyContract (vout : TxOut) (blockHeight : UInt32) : Outcome ChainError UtxoSet :=
  match parseContractInfo vout.scriptPubKey with
  | .error err => .fail (.script err)
  | .ok (sender, none, nonce) =>
    if sender = zeroAddressHash then .panicked
    else
      let outPoint := contractOutPoint (c.createAddress sender nonce)
      let u := u.put outPoint (.new 0 vout.scriptPubKey blockHeight)
      .ok { u with contractUtxos := u.contractUtxos.insert outPoint }
  | .ok (_, some contractAddr, _) =>
    let outPoint := contractOutPoint contractAddr
    match u.findUtxo outPoint with
    | none => .fail .contractUtxoNotFound
    | some utxoWrap =>
      let u := u.put outPoint (utxoWrap.addValue vout.value)
      .ok { u with contractUtxos := u.contractUtxos.insert outPoint }

/-- `applyUtxo` for the output at the given index, with the transaction afterwards. -/
def applyUtxo (tx : Transaction) (vout : TxOut) (txOutIdx blockHeight : UInt32)
    (statedb : StateDB) : Outcome ChainError (UtxoSet × Transaction) :=
  let sc : Script := vout.scriptPubKey
  if sc.isContractPubkey then (applyContract c u vout blockHeight).map (·, tx)
  else match sc.extractAddress with
    | .error err => .fail (.script err)
    | .ok address =>
      match address.hash160 with
      | none => .panicked
      | some addr =>
        if statedb.isContractAddr addr then lift ((applyTransfer u addr vout.value statedb).map (·, tx))
        else lift (applyCommon c u tx vout txOutIdx blockHeight statedb)

/-- The loop of `applyTx` over the outputs. An output that exists already was spent
before in the same block. -/
def applyVouts (c : Crypto) (blockHeight : UInt32) (statedb : StateDB) :
    List TxOut → (txOutIdx : Nat) → UtxoSet → Transaction → Outcome ChainError (UtxoSet × Transaction)
  | [], _, u, tx => .ok (u, tx)
  | vout :: rest, txOutIdx, u, tx =>
    if isOpReturnScript vout.scriptPubKey then applyVouts c blockHeight statedb rest (txOutIdx + 1) u tx
    else match applyUtxo c u tx vout (.ofNat txOutIdx) blockHeight statedb with
      | .ok (u, tx) => applyVouts c blockHeight statedb rest (txOutIdx + 1) u tx
      | .error err =>
        if err = .error .addExistingUtxo then applyVouts c blockHeight statedb rest (txOutIdx + 1) u tx
        else .error err

/-- The loop of `applyTx` over the inputs. -/
def spendVins (statedb : StateDB) : List TxIn → UtxoSet → Transaction → UtxoSet × Transaction
  | [], u, tx => (u, tx)
  | txIn :: rest, u, tx =>
    let u := u.spendUtxo txIn.prevOutPoint
    let (type, tx) := getTxType statedb tx
    let u := if type ≠ .contractTx then { u with normalTxUtxoSet := u.normalTxUtxoSet.insert txIn.prevOutPoint } else u
    spendVins statedb rest u tx

def applyTx (tx : Transaction) (blockHeight : UInt32) (statedb : StateDB) :
    Outcome ChainError (UtxoSet × Transaction) := do
  let (u, tx) ← applyVouts c blockHeight statedb tx.vout 0 u tx
  if isCoinBase tx || isInternalContract tx then return (u, tx)
  else return spendVins statedb tx.vin u tx

/-- The loop of `ApplyBlock`. -/
def applyTxs (c : Crypto) (blockHeight : UInt32) (statedb : StateDB) :
    List Transaction → UtxoSet → Outcome ChainError (UtxoSet × List Transaction)
  | [], u => .ok (u, [])
  | tx :: rest, u => do
    let (u, tx) ← applyTx c u tx blockHeight statedb
    let (u, rest) ← applyTxs c blockHeight statedb rest u
    return (u, tx :: rest)

def applyBlock (block : Block) (statedb : StateDB) : Outcome ChainError (UtxoSet × Block) := do
  let (u, txs) ← applyTxs c block.header.height statedb block.txs u
  return (u, { block with txs })

/-- The loop of `applyInternalTx`: only pay-to-pubkey-hash outputs are added. -/
def applyInternalVouts (hash : HashType) (height : UInt32) : List TxOut → (idx : Nat) → UtxoSet → UtxoSet
  | [], _, u => u
  | vout :: rest, idx, u =>
    let u := if isPayToPubKeyHash vout.scriptPubKey
      then u.put ⟨hash, .ofNat idx⟩ (.new vout.value vout.scriptPubKey height) else u
    applyInternalVouts hash height rest (idx + 1) u

def applyInternalTx (height : UInt32) (u : UtxoSet) (tx : Transaction) : UtxoSet :=
  applyInternalVouts (txHash c tx) height tx.vout 0 u

def applyInternalTxs (block : Block) : UtxoSet :=
  block.internalTxs.foldl (applyInternalTx c block.header.height) u

/-- `fetchUtxosFromOutPointSet`: an entry of the database replaces one of the set. -/
def fetchUtxosFromOutPointSet (db : UtxoDB) (outPoints : List OutPoint) (u : UtxoSet) : UtxoSet :=
  outPoints.foldl (fun u outPoint =>
    match db.lookup outPoint with
    | some entry => u.put outPoint entry.wrap
    | none => u) u

def loadTxUtxos (tx : Transaction) (db : UtxoDB) : UtxoSet :=
  if isCoinBase tx || isInternalContract tx then u
  else u.fetchUtxosFromOutPointSet db (tx.vin.foldl (fun set txIn => set.insert txIn.prevOutPoint) [])

def txIndexes (txs : List Transaction) : Table HashType Nat :=
  txs.zipIdx.foldl (fun indexes (tx, index) => indexes.insert (txHash c tx) index) ∅

/-- The inputs of the `i`-th transaction in `LoadBlockUtxos`: an output of the block is
added to the set, errors are only logged; others are fetched. -/
def loadVins (c : Crypto) (block : Block) (needContract : Bool) (i : Nat) :
    List TxIn → UtxoSet × List OutPoint → UtxoSet × List OutPoint
  | [], loading => loading
  | txIn :: rest, (u, outPointsToFetch) =>
    let goOn := loadVins c block needContract i rest
    let outPoint := txIn.prevOutPoint
    let inBlock := ((txIndexes c block.txs).lookup outPoint.hash).filter (· ≤ i)
    if !needContract && outPoint.isContractType then goOn (u, outPointsToFetch)
    else match inBlock.bind (block.txs[·]?) with
      | some originTx =>
        match u.addUtxo c originTx outPoint.index block.header.height with
        | .ok u => goOn (u, outPointsToFetch)
        | .error _ => goOn (u, outPointsToFetch)
      | none =>
        if (u.findUtxo outPoint).isSome then goOn (u, outPointsToFetch)
        else goOn (u, outPointsToFetch.insert outPoint)

/-- The contract that an output pays, as `LoadBlockUtxos` sees it. -/
def contractOf (statedb : StateDB) (txOut : TxOut) : Except ScriptError (Option AddressHash) :=
  let sc : Script := txOut.scriptPubKey
  if sc.isContractPubkey then sc.parseContractAddr
  else if sc.isPayToPubKeyHash then
    sc.extractAddress.map fun addrPkh => addrPkh.hash160.filter statedb.isContractAddr
  else .ok none

def loadVouts (statedb : StateDB) : List TxOut → List OutPoint → Except ChainError (List OutPoint)
  | [], outPointsToFetch => .ok outPointsToFetch
  | txOut :: rest, outPointsToFetch =>
    match contractOf statedb txOut with
    | .error err => .error (.script err)
    | .ok none => loadVouts statedb rest outPointsToFetch
    | .ok (some addr) => loadVouts statedb rest (outPointsToFetch.insert (contractOutPoint addr))

/-- The loop of `LoadBlockUtxos` over the transactions. -/
def loadTxs (c : Crypto) (block : Block) (needContract : Bool) (statedb : StateDB) :
    List Transaction → (i : Nat) → UtxoSet × List OutPoint → Except ChainError (UtxoSet × List OutPoint)
  | [], _, loading => .ok loading
  | tx :: rest, i, loading =>
    let (u, outPointsToFetch) := if 0 < i then loadVins c block needContract i tx.vin loading else loading
    if 0 < i ∧ !needContract then loadTxs c block needContract statedb rest (i + 1) (u, outPointsToFetch)
    else do
      let outPointsToFetch ← loadVouts statedb tx.vout outPointsToFetch
      loadTxs c block needContract statedb rest (i + 1) (u, outPointsToFetch)

def loadBlockUtxos (block : Block) (needContract : Bool) (db : UtxoDB)
    (statedb : StateDB) : Except ChainError UtxoSet := do
  let (u, outPointsToFetch) ← loadTxs c block needContract statedb block.txs 0 (u, [])
  return u.fetchUtxosFromOutPointSet db outPointsToFetch

def voutsToFetch (needContract : Bool) (tx : Transaction) : List OutPoint :=
  tx.vout.zipIdx.filterMap fun (out, idx) =>
    let sc : Script := out.scriptPubKey
    if sc.isOpReturnScript then none
    else if !needContract && sc.isContractPubkey then none
    else some ⟨txHash c tx, .ofNat idx⟩

/-- `LoadBlockAllUtxos`. The error of `LoadBlockUtxos` is not looked at. -/
def loadBlockAllUtxos (block : Block) (needContract : Bool) (db : UtxoDB) (statedb : StateDB) : UtxoSet :=
  let u := match u.loadBlockUtxos c block needContract db statedb with
    | .ok u => u
    | .error _ => u
  u.fetchUtxosFromOutPointSet db ((block.txs ++ block.internalTxs).flatMap (voutsToFetch c needContract)).dedup

/-- `ContractUtxos` -/
def contractUtxoMap : List (OutPoint × Option UtxoWrap) :=
  u.contractUtxos.map fun outPoint => (outPoint, u.findUtxo outPoint)

def importUtxoMap (utxoMap : UtxoMap) : UtxoSet :=
  utxoMap.entries.foldl (fun u entry => u.put entry.1 entry.2) u

/-- The entries of the unspent outputs after `WriteUtxoSetToDB`. -/
def writeUtxos (db : UtxoDB) : UtxoDB := u.utxoMap.patch UtxoWrap.written db

def pubKeyHashOf (script : Script) : Option AddressHash :=
  if script.isPayToPubKeyHash then script.extractAddress.toOption.bind Address.hash160 else none

/-- `calcNormalTxBalanceChanges`: what the accounts gain and what they lose. -/
def calcNormalTxBalanceChanges (block : Block) : Table AddressHash UInt64 × Table AddressHash UInt64 :=
  let paid := (block.txs.filter fun tx => tx.type ≠ .contractTx).flatMap fun tx => tx.vout
  let add := paid.foldl (fun (add : Table AddressHash UInt64) vout =>
    match pubKeyHashOf vout.scriptPubKey with
    | some addr => add.deposit addr vout.value
    | none => add) ∅
  let sub := u.utxoMap.entries.foldl (fun (sub : Table AddressHash UInt64) entry =>
    match pubKeyHashOf entry.2.script with
    | some addr => if entry.1 ∈ u.normalTxUtxoSet ∧ entry.2.isSpent then sub.deposit addr entry.2.value else sub
    | none => sub) ∅
  (add, sub)

end UtxoSet
end Boxd
