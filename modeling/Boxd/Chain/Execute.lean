import Boxd.Chain.Split
import Boxd.Chain.Validate

/-! How a block from a peer is executed on the state of its parent, and how the
results are compared with what the block says. -/

namespace Boxd
open Lib Outcome UInt64

/-- What block execution depends on. The state processor runs the virtual machine; it
returns the receipts, the gas that was used, and the transactions of contracts. -/
structure ChainEnv where
  crypto : Crypto
  pow10 : Pow10
  world : World
  genesis : GenesisContract
  Receipt : Type
  receiptsHash : List Receipt → HashType
  process : Block → world.State → UtxoSet →
    Option (List Receipt × UInt64 × List Transaction × world.State × UtxoSet)
  fetchNetParamsByHeight : UInt32 → Option NetParams
  getParentBlock : Block → Option Block

structure BlockExecuteResult (env : ChainEnv) where
  stateDB : env.world.State
  receipts : List env.Receipt
  utxoSet : UtxoSet

/-- `checkInternalTxs`, with the block afterwards. The transactions of the execution are
compared with the root in the header, not with those in the block. -/
def checkInternalTxs (c : Crypto) (block : Block) (utxoTxs : List Transaction) : Outcome ChainError Block := do
  if utxoTxs.isEmpty then return { block with internalTxs := [] }
  else
    let txsRoot ← calcTxsHash c utxoTxs
    if block.header.internalTxsRoot ≠ txsRoot then .fail .invalidInternalTxs else return block

variable (env : ChainEnv)

def receiptHash (receipts : List env.Receipt) : HashType :=
  if receipts.isEmpty then zeroHash else env.receiptsHash receipts

def validateExecuteResult (longestChainHeight : UInt32) (block : Block)
    (utxoTxs : List Transaction) (usedGas totalTxsFee : UInt64) (receipts : List env.Receipt) :
    Outcome ChainError Block := do
  let block ← checkInternalTxs env.crypto block utxoTxs
  if block.header.gasUsed ≠ usedGas then .fail .invalidGasUsed
  else
    let coinbase ← expect block.txs.head?
    let totalCoinbaseOutput := (coinbase.vout.map TxOut.value).foldl (· + ·) 0
    let netParams ← orFail .netParamsNotFound (env.fetchNetParamsByHeight longestChainHeight)
    let expectedCoinbaseOutput := ofNat netParams.blockReward + totalTxsFee + usedGas
    if totalCoinbaseOutput ≠ expectedCoinbaseOutput then .fail .badCoinbaseValue
    else if receiptHash env receipts ≠ block.header.receiptHash then .fail .invalidReceiptHash
    else return block

def addCoinbaseBalances (block : Block) (state : env.world.State) : Outcome ChainError env.world.State := do
  let coinbase ← expect block.txs.head?
  let reward ← expect coinbase.vout[0]?
  let state := env.world.addBalance state env.genesis.admin reward.value.toNat
  match coinbase.vout with
  | [_, fee] => return env.world.addBalance state block.header.bookKeeper fee.value.toInt64.toInt
  | _ => return state

def updateNormalTxBalanceState (world : World) (block : Block) (utxoSet : UtxoSet) (state : world.State) :
    world.State :=
  let (bAdd, bSub) := utxoSet.calcNormalTxBalanceChanges block
  let state := bAdd.entries.foldl (fun state entry => world.addBalance state entry.1 entry.2.toNat) state
  bSub.entries.foldl (fun state entry => world.subBalance state entry.1 entry.2.toNat) state

/-- The address whose coins an outpoint holds: the last bytes of the hash. -/
def OutPoint.contractAddr (op : OutPoint) : AddressHash :=
  ⟨op.hash.bytes.drop 12, by simp [op.hash.length_eq]⟩

/-- The loop of `UpdateContractUtxoState`. -/
def updateContractUtxos (world : World) :
    List (OutPoint × Option UtxoWrap) → world.State → Outcome ChainError world.State
  | [], state => .ok state
  | (_, none) :: _, _ => .panicked
  | (op, some utxoWrap) :: rest, state =>
    match world.updateUtxo state op.contractAddr utxoWrap.serialize with
    | none => .fail .stateFailed
    | some state => updateContractUtxos world rest state

def updateContractUtxoState (world : World) (state : world.State) (utxoSet : UtxoSet) :
    Outcome ChainError world.State :=
  updateContractUtxos world utxoSet.contractUtxoMap state

/-- The coins of a contract are the same in the set and in the state. -/
def balanceAgrees (statedb : StateDB) : OutPoint × Option UtxoWrap → Bool
  | (_, none) => false
  | (op, some utxoWrap) => utxoWrap.value == ofNat (statedb.getBalance op.contractAddr)

/-- What is known before the state processor runs, with the state that the outputs were
applied with. -/
structure Prepared (env : ChainEnv) where
  block : Block
  totalTxsFee : UInt64
  credited : env.world.State
  state : env.world.State
  utxoSet : UtxoSet

/-- The first part of `adjustAndValidateState`: inputs are checked on the block, and outputs
are applied from the copy. -/
def prepareBlock (db : UtxoDB) (block blockCopy : Block) : Outcome ChainError (Prepared env) := do
  let parent ← expect (env.getParentBlock block)
  let state ← orFail .stateNotFound (env.world.new parent.header.rootHash parent.header.utxoRoot)
  let statedb := env.world.stateDB state
  let utxoSet ← lift (UtxoSet.new.loadBlockUtxos env.crypto block true db statedb)
  validateBlockScripts env.crypto utxoSet block
  let (totalTxsFee, txs) ← validateBlockInputs env.crypto env.pow10 utxoSet statedb block.txs 0
  let block := { block with txs }
  let state ← addCoinbaseBalances env block state
  let (utxoSet, blockCopy) ← utxoSet.applyBlock env.crypto blockCopy (env.world.stateDB state)
  return ⟨block, totalTxsFee, state, updateNormalTxBalanceState env.world blockCopy utxoSet state, utxoSet⟩

/-- What is known when the state processor has run. -/
structure Execution (env : ChainEnv) where
  block : Block
  totalTxsFee : UInt64
  receipts : List env.Receipt
  gasUsed : UInt64
  utxoTxs : List Transaction
  state : env.world.State
  utxoSet : UtxoSet

/-- The first half of `adjustAndValidateState`: the block is prepared, and then contracts run. -/
def executeBlock (db : UtxoDB) (block blockCopy : Block) : Outcome ChainError (Execution env) := do
  let ready ← prepareBlock env db block blockCopy
  let (receipts, gasUsed, utxoTxs, state, utxoSet) ← orFail .processFailed
    (env.process ready.block ready.state ready.utxoSet)
  return ⟨ready.block, ready.totalTxsFee, receipts, gasUsed, utxoTxs, state, utxoSet⟩

/-- `adjustAndValidateState`, with the block afterwards. The test of the UTXO root uses `&&`,
so a missing root is never an error. -/
def adjustAndValidateState (longestChainHeight : UInt32) (db : UtxoDB) (block blockCopy : Block) :
    Outcome ChainError (BlockExecuteResult env × Block) := do
  let run ← executeBlock env db block blockCopy
  let block ← validateExecuteResult env longestChainHeight run.block run.utxoTxs run.gasUsed run.totalTxsFee
    run.receipts
  let utxoSet := run.utxoSet.applyInternalTxs env.crypto block
  let state ← updateContractUtxoState env.world run.state utxoSet
  let (root, utxoRoot, state) ← orFail .stateFailed (env.world.commit state)
  if root ≠ block.header.rootHash then .fail .invalidStateRoot
  else if utxoRoot.isSome ∧ utxoRoot ≠ some block.header.utxoRoot then .fail .invalidUtxoRoot
  else if !utxoSet.contractUtxoMap.all (balanceAgrees (env.world.stateDB state)) then .fail .ambiguousBalance
  else return (⟨state, run.receipts, utxoSet⟩, block)

end Boxd
