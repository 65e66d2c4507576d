import Boxd.Chain.Validate

/-! The builders of unsigned transactions that wallets use. They compute the change from the
inputs, the payments and an estimate of the fee. -/

namespace Boxd
open Lib Script Outcome UInt64 List

/-- `rpcpb.Utxo`, as far as the builders read it. -/
structure Utxo where
  outPoint : OutPoint
  txOut : TxOut
  deriving DecidableEq

structure TokenTag where
  name : Bytes
  symbol : Bytes
  decimal : UInt32
  supply : UInt64
  deriving DecidableEq

inductive WalletError where
  | invalidArguments | insufficientInput | insufficientTokenInput | utxoNotRecognized | needContractAddress
  | script (err : ScriptError)
  deriving DecidableEq

namespace TxLogic

def sumAmounts (amounts : List UInt64) : UInt64 := amounts.foldl (· + ·) 0

def calcChangeAmount (toAmounts : List UInt64) (utxos : List Utxo) : Outcome WalletError UInt64 :=
  let inputAmt := sumAmounts (utxos.map fun utxo => utxo.txOut.value)
  let toAmount := sumAmounts toAmounts
  let fee := ofNat ((utxos.length + toAmounts.length + 1) / inOutNumPerExtraFee + 1) * transferFee
  let changeAmt := inputAmt - toAmount - fee
  if changeAmt > inputAmt then .fail .insufficientInput else .ok changeAmt

def calcContractChangeAmount (gasLimit amount : UInt64) (utxos : List Utxo) : Outcome WalletError UInt64 :=
  let inputAmt := sumAmounts (utxos.map fun utxo => utxo.txOut.value)
  -- Two outputs: one for the contract and one for the change.
  let extraFee := ofNat ((utxos.length + 2) / inOutNumPerExtraFee) * transferFee
  let changeAmt := inputAmt - gasLimit * fixedGasPrice - amount - extraFee
  if changeAmt > inputAmt then .fail .insufficientInput else .ok changeAmt

def parseUtxoAmount (pow10 : Pow10) (utxo : Utxo) : Outcome WalletError (UInt64 × Option TokenID) :=
  let s : Script := utxo.txOut.scriptPubKey
  if s.isPayToPubKeyHash || s.isPayToPubKeyHashCLTVScript || s.isContractPubkey || isPayToScriptHash s ||
      s.isOpReturnScript then
    .ok (utxo.txOut.value, none)
  else if s.isTokenIssue then do
    let param ← s.getIssueParams.mapError (Fault.map WalletError.script)
    return (param.totalSupply * pow10.toFun param.decimals, some utxo.outPoint)
  else if s.isTokenTransfer then do
    let param ← s.getTransferParams.mapError (Fault.map WalletError.script)
    return (param.amount, some param.tokenID)
  else if s.isSplitAddrScript then .ok (0, none)
  else .fail .utxoNotRecognized

def tokenInputAmount (pow10 : Pow10) (tid : TokenID) : List Utxo → UInt64 → Outcome WalletError UInt64
  | [], inputAmt => .ok inputAmt
  | utxo :: rest, inputAmt => do
    let (v, id) ← parseUtxoAmount pow10 utxo
    tokenInputAmount pow10 tid rest (if id = some tid then inputAmt + v else inputAmt)

def calcTokenChangeAmount (pow10 : Pow10) (tid : TokenID) (toAmounts : List UInt64) (utxos : List Utxo) :
    Outcome WalletError UInt64 := do
  let inputAmt ← tokenInputAmount pow10 tid utxos 0
  let changeAmt := inputAmt - sumAmounts toAmounts
  if changeAmt > inputAmt then .fail .insufficientTokenInput else .ok changeAmt

/-- `MakeVin` for each input -/
def makeVins (utxos : List Utxo) : List TxIn := utxos.map fun utxo => ⟨utxo.outPoint, [], 0⟩

def makeIssueTokenVout (addrHash : AddressHash) (tag : TokenTag) : TxOut :=
  ⟨0, issueTokenScript addrHash ⟨tag.name, tag.symbol, tag.supply, tag.decimal.toUInt8⟩⟩

def makeTokenVout (addrHash : AddressHash) (tokenID : TokenID) (amount : UInt64) : TxOut :=
  ⟨0, transferTokenScript addrHash ⟨tokenID, amount⟩⟩

def splitAddrScript (c : Crypto) (addrs : List AddressHash) (weights : List UInt32) : Option Script :=
  if addrs.length = 0 ∨ addrs.length ≠ weights.length ∨ addrs.length > maxSplitAddrs then none
  else
    let s := splitAddrOperands addrs weights
    some ((addOpCode [] opReturn).addOpCode op0 |>.addOperand (c.hash160 s).bytes |>.addScript s)

/-- `MakeSplitAddrVout`. It reads the script without looking whether there is one. -/
def makeSplitAddrVout (c : Crypto) (addrs : List AddressHash) (weights : List UInt32) : Outcome WalletError TxOut := do
  let script ← expect (splitAddrScript c addrs weights)
  return ⟨0, script⟩

variable (sender : AddressHash)

def makeContractCreationVout (amount gas nonce : UInt64) : Outcome WalletError TxOut :=
  (lift ((makeContractScriptPubkey sender none gas nonce vmVersion).map fun vs => ⟨amount, vs⟩)).mapError
    (Fault.map WalletError.script)

/-- The inputs, the outputs, and an output for the change if there is any. -/
def unsignedTx (utxos : List Utxo) (vouts : List TxOut) (sender : AddressHash) (changeAmt : UInt64) : Transaction :=
  { newTx 0 0 0 with
    vin := makeVins utxos
    vout := vouts ++ if changeAmt > 0 then [makeVout sender changeAmt] else [] }

def makeUnsignedTx (to_ : List AddressHash) (amounts : List UInt64) (utxos : List Utxo) :
    Outcome WalletError Transaction :=
  if to_.length ≠ amounts.length then .fail .invalidArguments
  else do
    let changeAmt ← calcChangeAmount amounts utxos
    return unsignedTx utxos (zipWith makeVout to_ amounts) sender changeAmt

def makeUnsignedContractTx (addr : AddressHash) (amount gasLimit : UInt64) (contractVout : TxOut) (byteCode : Bytes)
    (utxos : List Utxo) : Outcome WalletError Transaction := do
  let changeAmt ← calcContractChangeAmount gasLimit amount utxos
  return { unsignedTx utxos [contractVout] addr changeAmt with data := some ⟨contractDataType, byteCode⟩ }

def makeUnsignedContractDeployTx (amount gasLimit nonce : UInt64) (byteCode : Bytes)
    (utxos : List Utxo) : Outcome WalletError Transaction := do
  let contractVout ← makeContractCreationVout sender amount gasLimit nonce
  makeUnsignedContractTx sender amount gasLimit contractVout byteCode utxos

def makeUnsignedContractCallTx (to_ : Option AddressHash) (amount gasLimit nonce : UInt64)
    (byteCode : Bytes) (utxos : List Utxo) : Outcome WalletError Transaction := do
  let contract ← orFail .needContractAddress to_
  let contractVout ←
    (lift (makeContractCallVout sender contract amount gasLimit nonce)).mapError (Fault.map WalletError.script)
  makeUnsignedContractTx sender amount gasLimit contractVout byteCode utxos

def makeUnsignedSplitAddrTx (c : Crypto) (sender : AddressHash) (addrs : List AddressHash) (weights : List UInt32)
    (utxos : List Utxo) : Outcome WalletError Transaction :=
  if addrs.length ≠ weights.length then .fail .invalidArguments
  else do
    let changeAmt ← calcChangeAmount [] utxos
    let splitAddrOut ← makeSplitAddrVout c addrs weights
    return unsignedTx utxos [splitAddrOut] sender changeAmt

/-- `MakeUnsignedTokenIssueTx`; the index of the issue is always zero. -/
def makeUnsignedTokenIssueTx (issuer owner : AddressHash) (tag : TokenTag) (utxos : List Utxo) :
    Outcome WalletError Transaction := do
  let changeAmt ← calcChangeAmount [] utxos
  return unsignedTx utxos [makeIssueTokenVout owner tag] issuer changeAmt

def makeUnsignedTokenTransferTx (pow10 : Pow10) (sender : AddressHash) (to_ : List AddressHash) (amounts : List UInt64)
    (tid : TokenID) (utxos : List Utxo) : Outcome WalletError Transaction :=
  if to_.length ≠ amounts.length then .fail .invalidArguments
  else do
    let changeAmt ← calcChangeAmount [] utxos
    let tokenRemain ← calcTokenChangeAmount pow10 tid amounts utxos
    let vouts := zipWith (makeTokenVout · tid ·) to_ amounts ++
      if tokenRemain > 0 then [makeTokenVout sender tid tokenRemain] else []
    return unsignedTx utxos vouts sender changeAmt

end TxLogic
end Boxd
