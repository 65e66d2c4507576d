import Boxd.Chain.Execute
import Boxd.Chain.Transition

/-! The state processor: it runs the contract transactions of a block, and keeps what their
gas costs and the transactions that they lead to. -/

namespace Boxd
open Lib Outcome UtxoSet

def maxBlockGasLimit : UInt64 := 10000 * transferFee

inductive ProcessError where
  | chain (err : ChainError)
  | script (err : ScriptError)
  | transition (err : TransitionError)
  | transfer (err : TransferError)
  | outOfBlockGasLimit | incorrectNonce | contractUtxoNotFound | refundTooHigh
  deriving DecidableEq

/-- `ExtractVMTransaction`, with the transaction afterwards. There is no value for a
transaction without a contract. -/
def extractVMTransaction (c : Crypto) (statedb : StateDB) (tx : Transaction) :
    Outcome ProcessError (Option VMTransaction × Transaction) := do
  let (type, tx) := getTxType statedb tx
  if type ≠ .contractTx then return (none, tx)
  else
    let contractVout ← (getContractVout c tx statedb).mapError (Fault.map .chain)
    match Script.parseContractParams contractVout.scriptPubKey with
    | .error err => .fail (.script err)
    | .ok p =>
      let typ : ContractType := if p.receiver = zeroAddressHash then .contractCreation else .contractCall
      let msg : VMTransaction := {
        sender := p.sender
        recipient := if typ = .contractCall then some p.receiver else none
        originTx := txHash c tx
        value := contractVout.value.toInt64.toInt
        gasPrice := if isCoinBase tx || isInternalContract tx then 0 else fixedGasPrice.toNat
        gas := p.gasLimit
        nonce := p.nonce
        code := (tx.data.map Data.content).getD []
        typ }
      return (some msg, tx)

/-- The loop of `addNewContractUtxos`. -/
def addNewContractUtxos (statedb : StateDB) (height : UInt32) (items : List ContractCreatedItem) (u : UtxoSet) : UtxoSet :=
  items.foldl (fun u item =>
    let u := markContract u item.address
    let op := contractOutPoint item.address
    match u.findUtxo op with
    | some utxoWrap => u.put op (utxoWrap.addValue item.value)
    | none =>
      let scriptPubk := (makeContractScriptPubkey item.caller item.address 1 item.nonce 0).toOption.getD []
      u.put op (.new (if statedb.isContractAddr item.caller then 0 else item.value) scriptPubk height)) u

def VMTransaction.valueUint64 (msg : VMTransaction) : UInt64 := .ofNat msg.value.natAbs

/-- A failed call gives back what the contract was paid. -/
def subtractRefund (msg : VMTransaction) (outPoint : OutPoint) (u : UtxoSet) : Outcome ProcessError UtxoSet :=
  if msg.typ = .contractCreation then return u
  else do
    let utxoWrap ← orFail .contractUtxoNotFound (u.findUtxo outPoint)
    if utxoWrap.value < msg.valueUint64 then .fail .refundTooHigh
    else return u.put outPoint (utxoWrap.setValue (utxoWrap.value - msg.valueUint64))

def createRefundTx (msg : VMTransaction) (senderNonce : UInt64) (contractAddr : AddressHash) (u : UtxoSet) :
    Outcome ProcessError (Transaction × UtxoSet) := do
  let outPoint := contractOutPoint contractAddr
  let u ← subtractRefund msg outPoint u
  return ({ newTx 0 0 0 with
    vin := [⟨outPoint, makeContractScriptSig senderNonce, 0⟩]
    vout := [⟨msg.valueUint64, payToPubKeyHashScript msg.sender⟩] }, u)

def newReceipt (txHash : HashType) (contractAddress : AddressHash) (deployed failed : Bool) (gasUsed : UInt64)
    (errMsg : Bytes) (logs : List Log) : Option Receipt :=
  (createLogBloom logs).map fun bloom =>
    ⟨txHash, 0, contractAddress, deployed, failed, gasUsed, zeroHash, 0, [], errMsg, logs, some bloom⟩

/-- What `ApplyTransaction` returns. -/
structure Applied (State : Type) where
  receipt : Receipt
  gasUsed : UInt64
  gasRemainingFee : UInt64
  txs : List Transaction
  state : State
  utxoSet : UtxoSet

/-- What `Process` returns. -/
structure Processed (State : Type) where
  receipts : List Receipt
  usedGas : UInt64
  utxoTxs : List Transaction
  state : State
  utxoSet : UtxoSet

namespace Evm

variable {world : World} (evm : Evm world) (c : Crypto)

/-- The outputs of the contracts that a transaction has made. A deployed contract gets
what was paid to its address before. -/
def addCreated (height : UInt32) (msg : VMTransaction) (contractAddr : AddressHash) (made : Transition world.State)
    (u : UtxoSet) : Outcome ProcessError UtxoSet :=
  if made.failed then return u
  else
    let u := addNewContractUtxos (world.stateDB made.state) height made.contractCreatedItems u
    if msg.typ = .contractCreation then do
      let origBal := UInt64.ofNat ((world.stateDB made.state).getBalance contractAddr) - msg.valueUint64
      let outPoint := contractOutPoint contractAddr
      let utxoWrap ← expect (u.findUtxo outPoint)
      return u.put outPoint (utxoWrap.addValue origBal)
    else return u

/-- The transactions for what contracts have paid, or for what a failed one was paid. -/
def createInternalTxs (db : UtxoDB) (msg : VMTransaction) (contractAddr : AddressHash) (made : Transition world.State)
    (u : UtxoSet) : Outcome ProcessError (List Transaction × UtxoSet) :=
  let statedb := world.stateDB made.state
  let senderNonce := statedb.getNonce msg.sender
  if !made.failed && !made.transfers.groups.isEmpty then
    (createUtxoTx made.transfers.groups senderNonce u db statedb).mapError (Fault.map .transfer)
  else if made.failed && 0 < msg.valueUint64 then do
    let (tx, u) ← createRefundTx msg senderNonce contractAddr u
    return ([tx], u)
  else return ([], u)

def applyTransaction (db : UtxoDB) (header : BlockHeader) (msg : VMTransaction) (state : world.State) (u : UtxoSet) :
    Outcome ProcessError (Applied world.State) := do
  let context : EvmContext := ⟨header.bookKeeper, msg.sender, header.height, header.timeStamp, msg.gasPrice, msg.nonce⟩
  let made ← (lift (evm.transitionDb context state msg)).mapError (Fault.map .transition)
  let deployed : Bool := msg.typ = .contractCreation
  let contractAddr := if deployed then c.createAddress msg.sender msg.nonce else msg.recipient.getD zeroAddressHash
  let u ← addCreated header.height msg contractAddr made u
  let (internalTxs, u) ← createInternalTxs db msg contractAddr made u
  let txs := made.gasRefundTx.toList ++ internalTxs
  let receipt ← expect (newReceipt msg.originTx contractAddr deployed made.failed made.usedGas
    (if made.failed then made.ret else []) (evm.getLogs made.state msg.originTx))
  return {
    receipt := { receipt with internalTxs := txs.map (txHash c) }
    gasUsed := made.usedGas
    gasRemainingFee := made.gasRemaining
    txs
    state := made.state
    utxoSet := u }

def gasThisTx (msg : VMTransaction) (tx : Transaction) (gasUsed : UInt64) : UInt64 :=
  .ofNat msg.gasPrice * gasUsed + extraFee tx

/-- The loop of `Process`, from the transaction at the given index on. -/
def processFrom (db : UtxoDB) (header : BlockHeader) (blockHash : HashType) :
    List Transaction → (i : Nat) → (sumGas : UInt64) → world.State → UtxoSet → Outcome ProcessError (Processed world.State)
  | [], _, _, state, u => .ok ⟨[], 0, [], state, u⟩
  | tx :: rest, i, sumGas, state, u => do
    if maxBlockGasLimit < sumGas then .fail .outOfBlockGasLimit
    else
      let (vmTx, tx) ← extractVMTransaction c (world.stateDB state) tx
      match vmTx with
      | none => processFrom db header blockHash rest (i + 1) (sumGas + (transferFee + extraFee tx)) state u
      | some msg =>
        if msg.nonce ≠ (world.stateDB state).getNonce msg.sender + 1 then .fail .incorrectNonce
        else
          let state := evm.prepare state (txHash c tx) blockHash i
          let applied ← evm.applyTransaction c db header msg state u
          let gas := gasThisTx msg tx applied.gasUsed
          let later ← processFrom db header blockHash rest (i + 1) (sumGas + gas) applied.state applied.utxoSet
          let receipt := { applied.receipt with
            txIndex := .ofNat i, blockHash := blockHash, blockHeight := header.height }
          return {
            receipts := receipt :: later.receipts
            usedGas := gas + later.usedGas
            utxoTxs := applied.txs ++ later.utxoTxs
            state := later.state
            utxoSet := later.utxoSet }

def process (db : UtxoDB) (blockHash : HashType) (block : Block) (state : world.State) (u : UtxoSet) :
    Outcome ProcessError (Processed world.State) :=
  evm.processFrom c db block.header blockHash block.txs 0 0 state u

end Evm

/-- A chain whose blocks are executed by a virtual machine. -/
structure VmChain where
  crypto : Crypto
  pow10 : Pow10
  world : World
  evm : Evm world
  genesis : GenesisContract
  receiptsHash : List Receipt → HashType
  blockHash : BlockHeader → HashType
  fetchNetParamsByHeight : UInt32 → Option NetParams
  getParentBlock : Block → Option Block

/-- Execution on a database, with the state processor in its place. -/
def VmChain.toChainEnv (chain : VmChain) (db : UtxoDB) : ChainEnv where
  crypto := chain.crypto
  pow10 := chain.pow10
  world := chain.world
  genesis := chain.genesis
  Receipt := Receipt
  receiptsHash := chain.receiptsHash
  process block state utxoSet :=
    (chain.evm.process chain.crypto db (chain.blockHash block.header) block state utxoSet).toOption.map fun done =>
      (done.receipts, done.usedGas, done.utxoTxs, done.state, done.utxoSet)
  fetchNetParamsByHeight := chain.fetchNetParamsByHeight
  getParentBlock := chain.getParentBlock

end Boxd
