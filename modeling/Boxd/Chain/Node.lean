import Boxd.Chain.Blockchain

/-! A node of the repository: a chain with the checks of `Bpos`, `validateBlock` and
`adjustAndValidateState`, over any cryptography, tries and virtual machine. -/

namespace Boxd
open Lib Outcome Bpos

/-- `Finalize`. Messages to the bookkeepers and the update of the eternal block are
started in the background. -/
def Bpos.finalize (env : Env) (block : Block) : Stateful Service Error Unit :=
  updateVerifyContext env block

structure Node where
  crypto : Crypto
  pow10 : Pow10
  world : World
  genesis : GenesisContract
  Receipt : Type
  receiptsHash : List Receipt → HashType
  withTxHash : HashType → Receipt → Receipt
  createReceiptsBloom : List Receipt → Bytes
  /-- How many topics of the logs of the genesis contract are `DynastySwitch`. -/
  dynastySwitchTopics : Receipt → Nat
  process : ChainState → Block → world.State → UtxoSet →
    Option (List Receipt × UInt64 × List Transaction × world.State × UtxoSet)
  getDynasty : world.State → Option Dynasty
  getNetParams : world.State → Option NetParams
  calcScores : Option (List Int)
  blockHash : BlockHeader → HashType
  dynastyHash : List Delegate → HashType
  recoverCompact : HashType → Bytes → Option AddressHash
  genesisBlock : Block
  genesis_height : genesisBlock.header.height = 0
  bookkeeper : AddressHash
  depth : Nat

theorem validateBlock_header {c : Crypto} {block validated : Block} {statedb : StateDB}
    (ok : validateBlock c block statedb = .ok validated) : validated.header = block.header := by
  unfold validateBlock at ok
  split at ok
  · cases ok
  · simp only [ite_fail_ok_iff, bind_ok_iff] at ok
    obtain ⟨-, -, txs, -, root, -, -, ok⟩ := ok
    cases ok
    rfl

theorem checkInternalTxs_header {c : Crypto} {block after : Block} {utxoTxs : List Transaction}
    (ok : checkInternalTxs c block utxoTxs = .ok after) : after.header = block.header := by
  unfold checkInternalTxs at ok
  split at ok
  · cases ok
    rfl
  · obtain ⟨root, -, ok⟩ := bind_ok_iff.mp ok
    obtain ⟨-, ok⟩ := ite_fail_ok_iff.mp ok
    cases ok
    rfl

theorem validateExecuteResult_header {env : ChainEnv} {longestChainHeight : UInt32} {block after : Block}
    {utxoTxs : List Transaction} {usedGas totalTxsFee : UInt64} {receipts : List env.Receipt}
    (ok : validateExecuteResult env longestChainHeight block utxoTxs usedGas totalTxsFee receipts = .ok after) :
    after.header = block.header := by
  simp only [validateExecuteResult, ite_fail_ok_iff, bind_ok_iff] at ok
  obtain ⟨checked, internal, -, coinbase, -, netParams, -, -, -, ok⟩ := ok
  cases ok
  exact checkInternalTxs_header internal

theorem executeBlock_header {env : ChainEnv} {db : UtxoDB} {block blockCopy : Block} {run : Execution env}
    (ok : executeBlock env db block blockCopy = .ok run) : run.block.header = block.header := by
  simp only [executeBlock, prepareBlock, bind_ok_iff] at ok
  obtain ⟨_, ⟨_, -, _, -, _, -, _, -, _, -, _, -, _, -, ready⟩, _, -, done⟩ := ok
  cases ready
  cases done
  rfl

theorem adjustAndValidateState_header {env : ChainEnv} {longestChainHeight : UInt32} {db : UtxoDB}
    {block blockCopy after : Block} {res : BlockExecuteResult env}
    (ok : adjustAndValidateState env longestChainHeight db block blockCopy = .ok (res, after)) :
    after.header = block.header := by
  simp only [adjustAndValidateState, ite_fail_ok_iff, bind_ok_iff] at ok
  obtain ⟨run, executed, checked, valid, state, -, committed, -, -, -, -, ok⟩ := ok
  cases ok
  rw [validateExecuteResult_header valid, executeBlock_header executed]

namespace Node

/-- The chain as `Bpos` sees it. -/
def bposEnv (node : Node) (view : ChainView node.world) : Env where
  world := node.world
  genesis := node.genesis
  getParentBlock := view.getParentBlock
  fetchDynastyByHeight height := (view.stateByHeight height).bind node.getDynasty
  fetchNetParamsByHeight height := (view.stateByHeight height).bind node.getNetParams
  calcScores := node.calcScores
  blockHash := node.blockHash
  dynastyHash := node.dynastyHash
  recoverCompact := node.recoverCompact

def consensus (node : Node) : Consensus node.world where
  Service := Service
  verify view block := verify (node.bposEnv view) block
  finalize view block := finalize (node.bposEnv view) block
  dynastyUpdate isDynastyChange service := { service with isDynastyChangeForVerify := isDynastyChange }

/-- How often `adjustAndValidateState` announces a new dynasty: for every topic of that
name, when the results of the execution are valid. -/
def dynastySwitches (env : ChainEnv) (topics : env.Receipt → Nat) (longestChainHeight : UInt32) (db : UtxoDB)
    (block blockCopy : Block) : Nat :=
  let valid := do
    let run ← executeBlock env db block blockCopy
    let _ ← validateExecuteResult env longestChainHeight run.block run.utxoTxs run.gasUsed run.totalTxsFee run.receipts
    return run.receipts
  match valid with
  | .ok receipts => (receipts.map topics).sum
  | .error _ => 0

def setup (node : Node) : Setup where
  crypto := node.crypto
  pow10 := node.pow10
  world := node.world
  genesis := node.genesis
  Receipt := node.Receipt
  receiptsHash := node.receiptsHash
  withTxHash := node.withTxHash
  createReceiptsBloom := node.createReceiptsBloom
  process := node.process
  getNetParams := node.getNetParams
  blockHash := node.blockHash
  genesisBlock := node.genesisBlock
  bookkeeper := node.bookkeeper
  depth := node.depth
  consensus := node.consensus
  validateBlock := validateBlock node.crypto
  adjustAndValidateState := adjustAndValidateState
  dynastySwitchTopics := node.dynastySwitchTopics
  dynastySwitches := dynastySwitches
  genesis_height := node.genesis_height
  validateBlock_header := Boxd.validateBlock_header
  adjustAndValidateState_header := Boxd.adjustAndValidateState_header

def start (node : Node) (records : ChainState) (tailState : node.world.State) (context : ConsensusContext) :
    BlockChain node.setup where
  records
  tail := node.genesisBlock
  tailState
  eternal := node.genesisBlock
  longestChainHeight := 0
  repeatedMintCache := .empty
  hashToOrphanBlock := ∅
  orphanBlockHashToChildren := ∅
  blockExecuteResults := ∅
  consensus := ⟨context, true, true⟩
  bus := subscribe .new
  log := []

end Node
end Boxd
