import Boxd.Chain.System
import Boxd.Chain.Utxo
import Boxd.Lib.Merkle

/-! The checks that a transaction and a block pass before they are applied. -/

namespace Boxd
open Lib Outcome Script

def isTxFinalized (tx : Transaction) (blockHeight : UInt32) (blockTime : Int64) : Bool :=
  if tx.lockTime = 0 then true
  else
    let blockTimeOrHeight : Int64 := if tx.lockTime < lockTimeThreshold then .ofNat blockHeight.toNat else blockTime
    if tx.lockTime < blockTimeOrHeight then true
    else tx.vin.all fun txIn => txIn.sequence == maxUint32

/-- `ScriptItem`: what a script check needs, for parallel validation. -/
structure ScriptItem where
  tx : Transaction
  txInIdx : Nat
  scriptSig : Script
  prevScriptPubKey : Script
  deriving DecidableEq

/-- The loop of `CheckTxScripts` over the inputs that are left. -/
def checkTxScriptsFrom (c : Crypto) (utxoSet : UtxoSet) (tx : Transaction) (skipValidation : Bool) :
    List TxIn → Nat → Except ChainError (List ScriptItem)
  | [], _ => .ok []
  | txIn :: rest, txInIdx =>
    match utxoSet.findUtxo txIn.prevOutPoint with
    | none => .error .missingTxOut
    | some utxo =>
      if utxo.isSpent then .error .missingTxOut
      else if skipValidation then
        (checkTxScriptsFrom c utxoSet tx skipValidation rest (txInIdx + 1)).map
          (⟨tx, txInIdx, txIn.scriptSig, utxo.script⟩ :: ·)
      else match validate c txIn.scriptSig utxo.script tx txInIdx with
        | .error err => .error (.script err)
        | .ok _ => checkTxScriptsFrom c utxoSet tx skipValidation rest (txInIdx + 1)

def checkTxScripts (c : Crypto) (utxoSet : UtxoSet) (tx : Transaction) (skipValidation : Bool) :
    Except ChainError (List ScriptItem) :=
  checkTxScriptsFrom c utxoSet tx skipValidation tx.vin 0

/-- 3e9 boxes of 1e8 units. -/
def totalSupply : UInt64 := 300000000000000000
def transferGasLimit : UInt64 := 21000
def transferFee : UInt64 := fixedGasPrice * transferGasLimit
def inOutNumPerExtraFee : Nat := 16
def maxVinInTx : Nat := 256
def maxVoutInTx : Nat := 256
def minCoinbaseScriptLen : Nat := 2
def maxCoinbaseScriptLen : Nat := 1000
def maxCodeSize : Nat := 24576
def maxTxsRoughSize : Nat := 4 * 1024 * 1024

def extraFee (tx : Transaction) : UInt64 :=
  .ofNat ((tx.vin.length + tx.vout.length) / inOutNumPerExtraFee) * transferFee

def roughSize (tx : Transaction) : Nat :=
  16 + (tx.vin.map fun txIn => 32 + 4 + 4 + txIn.scriptSig.length).sum +
    (tx.vout.map fun txOut => 8 + txOut.scriptPubKey.length).sum +
    (tx.data.map fun data => 4 + data.content.length).getD 0

def isBoxName (name : Bytes) : Bool :=
  match name with
  | [b, o, x] => (b == 98 || b == 66) && (o == 111 || o == 79) && (x == 120 || x == 88)
  | _ => false

/-- The float power of ten as the platform converts it to 64 bits. It is exact for the
powers that fit. -/
structure Pow10 where
  toFun : UInt8 → UInt64
  exact : ∀ decimals : UInt8, decimals.toNat ≤ 19 → (toFun decimals).toNat = 10 ^ decimals.toNat

abbrev TokenAmounts := Table TokenID UInt64

/-- The tokens of a transfer output. The error of `GetTransferParams` is ignored, so its nil
result makes the node panic. -/
def transferAmount (sc : Script) : Outcome ChainError (TokenID × UInt64) :=
  match sc.getTransferParams with
  | .ok params => .ok (params.tokenID, params.amount)
  | .error _ => .panicked

/-- The tokens of an input: all of them for an issue, none for other outputs. -/
def tokenInput (pow10 : Pow10) (outPoint : OutPoint) (sc : Script) : Outcome ChainError (Option (TokenID × UInt64)) :=
  if sc.isTokenIssue then
    match sc.getIssueParams with
    | .error _ => .panicked
    | .ok params =>
      if isBoxName params.name then .fail .tokenInvalidName
      else .ok (some (outPoint, params.totalSupply * pow10.toFun params.decimals))
  else if sc.isTokenTransfer then (transferAmount sc).map some
  else .ok none

def tokenOutput (sc : Script) : Outcome ChainError (Option (TokenID × UInt64)) :=
  if sc.isTokenTransfer then (transferAmount sc).map some else .ok none

def addToken (amounts : TokenAmounts) : Option (TokenID × UInt64) → TokenAmounts
  | none => amounts
  | some (token, amount) => amounts.deposit token amount

def sumInputs (pow10 : Pow10) (utxoSet : UtxoSet) :
    List TxIn → UInt64 → TokenAmounts → Outcome ChainError (UInt64 × TokenAmounts)
  | [], total, amounts => .ok (total, amounts)
  | txIn :: rest, total, amounts =>
    match utxoSet.findUtxo txIn.prevOutPoint with
    | none => .fail .missingTxOut
    | some utxo =>
      if utxo.isSpent then .fail .missingTxOut
      else if utxo.value > totalSupply then .fail .badTxOutValue
      else if total + utxo.value < total ∨ total + utxo.value > totalSupply then .fail .badTxOutValue
      else do
        let token ← tokenInput pow10 txIn.prevOutPoint utxo.script
        sumInputs pow10 utxoSet rest (total + utxo.value) (addToken amounts token)

def sumOutputs : List TxOut → UInt64 → TokenAmounts → Outcome ChainError (UInt64 × TokenAmounts)
  | [], total, amounts => .ok (total, amounts)
  | txOut :: rest, total, amounts => do
    let token ← tokenOutput txOut.scriptPubKey
    sumOutputs rest (total + txOut.value) (addToken amounts token)

def validateTxInputs (pow10 : Pow10) (utxoSet : UtxoSet) (tx : Transaction) : Outcome ChainError UInt64 :=
  if isCoinBase tx || isInternalContract tx then .ok 0
  else do
    let (totalInputAmount, tokenInputAmounts) ← sumInputs pow10 utxoSet tx.vin 0 ∅
    let (totalOutputAmount, tokenOutputAmounts) ← sumOutputs tx.vout 0 ∅
    if totalInputAmount < totalOutputAmount then .fail .spendTooHigh
    else if tokenOutputAmounts.entries.length ≠ tokenInputAmounts.entries.length then .fail .tokenInputsOutputNotEqual
    else if tokenOutputAmounts.entries.any fun entry => tokenInputAmounts.lookup entry.1 ≠ some entry.2 then
      .fail .tokenInputsOutputNotEqual
    else return totalInputAmount - totalOutputAmount

/-- The sum of the outputs in `ValidateTransactionPreliminary`. -/
def checkVoutValues : List TxOut → UInt64 → Except ChainError Unit
  | [], _ => .ok ()
  | txOut :: rest, totalValue =>
    if txOut.value > totalSupply then .error .badTxOutValue
    else if totalValue + txOut.value < txOut.value then .error .badTxOutValue
    else if totalValue + txOut.value > totalSupply then .error .badTxOutValue
    else checkVoutValues rest (totalValue + txOut.value)

def validateTransactionPreliminary (tx : Transaction) : Except ChainError Unit := do
  if tx.vin.length = 0 then .error .noTxInputs
  else if tx.vout.length = 0 then .error .noTxOutputs
  else if tx.vin.length > maxVinInTx then .error .utxosOob
  else if tx.vout.length > maxVoutInTx then .error .voutsOob
  else
    checkVoutValues tx.vout 0
    if isCoinBase tx || isInternalContract tx then
      let slen := (tx.vin.head?.map fun txIn => txIn.scriptSig.length).getD 0
      if slen < minCoinbaseScriptLen || slen > maxCoinbaseScriptLen then .error .badCoinbaseScriptLen
      else .ok ()
    else if tx.vin.any fun txIn => isNullOutPoint txIn.prevOutPoint then .error .badTxInput
    else .ok ()

def combineHash (c : Crypto) (left right : HashType) : HashType := c.doubleHash (left.bytes ++ right.bytes)

/-- `CalcTxsHash`: it panics on an empty list. -/
def calcTxsHash (c : Crypto) (txs : List Transaction) : Outcome ChainError HashType :=
  expect (merkleRoot (combineHash c) (txs.map (txHash c)))

/-- The loop of `validateBlock` over the transactions, with the transactions as they
are afterwards. -/
def validateTxs (header : BlockHeader) (statedb : StateDB) :
    List Transaction → (existingOutPoints : List OutPoint) → (txsRoughSize : Nat) →
      Except ChainError (List Transaction)
  | [], _, _ => .ok []
  | tx :: rest, existingOutPoints, txsRoughSize =>
    if txsRoughSize + roughSize tx > maxTxsRoughSize then .error .maxTxsSizeExceeded
    else if !isTxFinalized tx header.height header.timeStamp then .error .unfinalizedTx
    else do
      validateTransactionPreliminary tx
      let spent := tx.vin.map TxIn.prevOutPoint
      if ¬(spent.Nodup ∧ ∀ outPoint ∈ spent, outPoint ∉ existingOutPoints) then .error .doubleSpendTx
      else
        let (standard, tx) := isStandardTx statedb tx
        if !standard then .error .nonStandardTransaction
        else
          let rest ← validateTxs header statedb rest (existingOutPoints ++ spent) (txsRoughSize + roughSize tx)
          return tx :: rest

/-- `validateBlock`, with the block afterwards. The check for duplicates compares pointers,
so it never finds one. -/
def validateBlock (c : Crypto) (block : Block) (statedb : StateDB) : Outcome ChainError Block :=
  match block.txs with
  | [] => .fail .noTransactions
  | first :: rest =>
    if !isCoinBase first then .fail .firstTxNotCoinbase
    else if rest.any isCoinBase then .fail .multipleCoinbases
    else do
      let txs ← lift (validateTxs block.header statedb block.txs [] 0)
      let calculatedMerkleRoot ← calcTxsHash c block.txs
      if block.header.txsRoot ≠ calculatedMerkleRoot then .fail .badMerkleRoot
      else return { block with txs }

def collectScriptItems (c : Crypto) (utxoSet : UtxoSet) : List Transaction → Except ChainError (List ScriptItem)
  | [] => .ok []
  | tx :: rest =>
    if isInternalContract tx then collectScriptItems c utxoSet rest
    else do
      let txScriptItems ← checkTxScripts c utxoSet tx true
      let scriptItems ← collectScriptItems c utxoSet rest
      return txScriptItems ++ scriptItems

/-- `scriptValidator.validate`, one item after the other. -/
def validateScriptItems (c : Crypto) : List ScriptItem → Except ChainError Unit
  | [] => .ok ()
  | it :: rest =>
    match validate c it.scriptSig it.prevScriptPubKey it.tx it.txInIdx with
    | .error err => .error (.script err)
    | .ok _ => validateScriptItems c rest

def validateBlockScripts (c : Crypto) (utxoSet : UtxoSet) (block : Block) : Outcome ChainError Unit :=
  match block.txs with
  | [] => .panicked
  | _ :: txs => lift do
    let scriptItems ← collectScriptItems c utxoSet txs
    validateScriptItems c scriptItems

/-- `TxIn.AddressHash`: the hash of the last bytes of the unlocking script. -/
def TxIn.addressHash (c : Crypto) (txIn : TxIn) : Option AddressHash :=
  if txIn.prevOutPoint.hash = zeroHash then none
  else if txIn.scriptSig.length ≤ 33 then none
  else some (c.hash160 (txIn.scriptSig.drop (txIn.scriptSig.length - 33)))

/-- The loop of `GetContractVout` over the outputs. A payment to a contract is turned
into a call by the owner of the first input. -/
def contractVoutFrom (c : Crypto) (statedb : StateDB) (vin : List TxIn) : List TxOut → Outcome ChainError TxOut
  | [] => .panicked
  | o :: rest =>
    let sc : Script := o.scriptPubKey
    if sc.isContractPubkey then .ok o
    else match UtxoSet.pubKeyHashOf sc with
      | none => contractVoutFrom c statedb vin rest
      | some addr =>
        if !statedb.isContractAddr addr then contractVoutFrom c statedb vin rest
        else do
          let sender ← expect (vin.head?.bind (TxIn.addressHash c))
          let csc ← expect
            (makeContractScriptPubkey sender addr transferGasLimit (statedb.getNonce sender + 1) 0).toOption
          return ⟨o.value, csc⟩

def getContractVout (c : Crypto) (tx : Transaction) (statedb : StateDB) : Outcome ChainError TxOut :=
  contractVoutFrom c statedb tx.vin tx.vout

def fetchOutPointOwner (op : OutPoint) (utxoSet : UtxoSet) : Except ChainError Address :=
  match utxoSet.findUtxo op with
  | none => .error .utxoNotFound
  | some utxoWrap =>
    match extractAddress utxoWrap.script with
    | .error err => .error (.script err)
    | .ok address => .ok address

def checkContractTx (c : Crypto) (utxoSet : UtxoSet) (statedb : StateDB) (tx : Transaction) (txFee : UInt64) :
    Outcome ChainError Unit := do
  if maxCodeSize < (tx.data.map fun data => data.content.length).getD 0 then .fail .maxCodeSizeExceeded
  else
    let contractVout ← getContractVout c tx statedb
    match parseContractParams contractVout.scriptPubKey with
    | .error err => .fail (.script err)
    | .ok param =>
      if txFee ≠ param.gasLimit * fixedGasPrice + extraFee tx then .fail .invalidFee
      else
        let first ← expect tx.vin.head?
        match fetchOutPointOwner first.prevOutPoint utxoSet with
        | .error _ => .fail .contractFromMismatched
        | .ok addr =>
          let owner ← expect addr.hash160
          if owner ≠ param.sender then .fail .contractFromMismatched else return ()

/-- `validateBlockInputs`: the fees of all transfers, and the transactions afterwards. -/
def validateBlockInputs (c : Crypto) (pow10 : Pow10) (utxoSet : UtxoSet) (statedb : StateDB) :
    List Transaction → (totalFees : UInt64) → Outcome ChainError (UInt64 × List Transaction)
  | [], totalFees => .ok (totalFees, [])
  | tx :: rest, totalFees => do
    let (txType, tx) := getTxType statedb tx
    if isCoinBase tx || isInternalContract tx then
      let (totalFees, rest) ← validateBlockInputs c pow10 utxoSet statedb rest totalFees
      return (totalFees, tx :: rest)
    else
      let txFee ← validateTxInputs pow10 utxoSet tx
      if txType ≠ .contractTx then
        if txFee ≠ transferFee + extraFee tx then .fail .invalidFee
        else if totalFees + txFee < totalFees then .fail .badFees
        else
          let (totalFees, rest) ← validateBlockInputs c pow10 utxoSet statedb rest (totalFees + txFee)
          return (totalFees, tx :: rest)
      else
        checkContractTx c utxoSet statedb tx txFee
        let (totalFees, rest) ← validateBlockInputs c pow10 utxoSet statedb rest totalFees
        return (totalFees, tx :: rest)

end Boxd
