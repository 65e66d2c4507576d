import Boxd.Bpos.Produce
import Boxd.Bpos.Verify
import Boxd.Bus
import Boxd.Lib.Lru
import Boxd.Lib.Triple

/-! The chain of a node: how blocks that arrive in any order are connected to the main
chain, kept for later, or replace a part of it. The checks of a block are parameters. -/

namespace Boxd
open Lib Outcome Bpos Stateful

inductive BlockError where
  | chain (err : ChainError)
  | consensus (err : Error)
  | blockExists | repeatedMintAtSameTime | parentBlockNotExist | wrongBlockHeight | blockInSideChain | expiredBlock
  | executeResultNotFound
  deriving DecidableEq

structure ChainView (world : World) where
  getParentBlock : Block → Option Block
  stateByHeight : UInt32 → Option world.State

/-- `Consensus`, with the state of the service and what it does on `TopicDynastyUpdate`. -/
structure Consensus (world : World) where
  Service : Type
  verify : ChainView world → Block → Stateful Service Error Unit
  finalize : ChainView world → Block → Stateful Service Error Unit
  dynastyUpdate : Bool → Service → Service

/-- What a chain is made of besides its state. `dynastySwitches` counts how often
`adjustAndValidateState` announces a new dynasty. -/
structure Setup where
  crypto : Crypto
  pow10 : Pow10
  world : World
  genesis : GenesisContract
  Receipt : Type
  receiptsHash : List Receipt → HashType
  withTxHash : HashType → Receipt → Receipt
  createReceiptsBloom : List Receipt → Bytes
  process : ChainState → Block → world.State → UtxoSet →
    Option (List Receipt × UInt64 × List Transaction × world.State × UtxoSet)
  getNetParams : world.State → Option NetParams
  blockHash : BlockHeader → HashType
  genesisBlock : Block
  bookkeeper : AddressHash
  depth : Nat
  consensus : Consensus world
  validateBlock : Block → StateDB → Outcome ChainError Block
  adjustAndValidateState : (env : ChainEnv) → (longestChainHeight : UInt32) → UtxoDB → (block blockCopy : Block) →
    Outcome ChainError (BlockExecuteResult env × Block)
  /-- How many topics of the logs of the genesis contract are `DynastySwitch`. -/
  dynastySwitchTopics : Receipt → Nat
  dynastySwitches : (env : ChainEnv) → (env.Receipt → Nat) → (longestChainHeight : UInt32) → UtxoDB →
    (block blockCopy : Block) → Nat
  genesis_height : genesisBlock.header.height = 0
  validateBlock_header : ∀ {block validated : Block} {statedb : StateDB},
    validateBlock block statedb = .ok validated → validated.header = block.header
  adjustAndValidateState_header : ∀ {env : ChainEnv} {longestChainHeight : UInt32} {db : UtxoDB}
    {block blockCopy after : Block} {res : BlockExecuteResult env},
    adjustAndValidateState env longestChainHeight db block blockCopy = .ok (res, after) → after.header = block.header

namespace Setup

/-- What execution uses, for given records and lookups. -/
def env (setup : Setup) (records : ChainState) (view : ChainView setup.world) : NodeEnv where
  crypto := setup.crypto
  pow10 := setup.pow10
  world := setup.world
  genesis := setup.genesis
  Receipt := setup.Receipt
  receiptsHash := setup.receiptsHash
  process := setup.process records
  fetchNetParamsByHeight height := (view.stateByHeight height).bind setup.getNetParams
  getParentBlock := view.getParentBlock
  blockHash := setup.blockHash
  genesisBlock := setup.genesisBlock
  verify _ := true
  depth := setup.depth

def genesisHash (setup : Setup) : HashType := setup.blockHash setup.genesisBlock.header

/-- `BlockExecuteResult`, as it is kept between calls. -/
structure Result (setup : Setup) where
  stateDB : setup.world.State
  receipts : List setup.Receipt
  utxoSet : UtxoSet

end Setup

/-- What happened, for the statements about whole runs. The consensus is called with the
chain as it is then. A block is sealed with the result of the checks of that call, or with
one that was kept for a block. An attempt to connect starts from a tail and records. -/
inductive Entry (setup : Setup) where
  | verified (block : Block) (view : ChainView setup.world) (service : setup.consensus.Service)
  | finalized (block : Block) (view : ChainView setup.world) (service : setup.consensus.Service)
  | sealed (block : Block) (executedFor : Option Block)
  | connected (block : Block) (messageFrom : PeerID) (tail : Block) (records : ChainState)
      (verdict : Except (Fault BlockError) Unit)

/-- `BlockChain`. Kept results stand next to the block that they were computed for, and
there is a log. The cache of main chain blocks is left out: it holds what the records hold. -/
structure BlockChain (setup : Setup) where
  records : ChainState
  tail : Block
  tailState : setup.world.State
  eternal : Block
  longestChainHeight : UInt32
  repeatedMintCache : Lru 512 Int64 Block
  hashToOrphanBlock : Table HashType Block
  orphanBlockHashToChildren : Table HashType (List Block)
  blockExecuteResults : Table UInt32 (Block × setup.Result)
  consensus : setup.consensus.Service
  bus : Bus
  log : List (Entry setup)

/-- A block that was written and read again: the types of its transactions are gone. -/
def Block.unmarshalled (block : Block) : Block :=
  { block with
    txs := block.txs.map fun tx => { tx with type := .unknownTx }
    internalTxs := block.internalTxs.map fun tx => { tx with type := .unknownTx } }

namespace BlockChain

variable {setup : Setup} (chain : BlockChain setup)

def loadBlockByHash (hash : HashType) : Option Block :=
  (chain.records.blocks.lookup hash).map Block.unmarshalled

def blockExists (hash : HashType) : Bool := (chain.loadBlockByHash hash).isSome

def getBlockHash (height : UInt32) : Option HashType :=
  if height = 0 then some setup.genesisHash else chain.records.blockHashes.lookup height

def loadBlockByHeight (height : UInt32) : Option Block :=
  if height = 0 then some setup.genesisBlock
  else (chain.records.blockHashes.lookup height).bind chain.loadBlockByHash

def getParentBlock (block : Block) : Option Block :=
  if setup.blockHash block.header = setup.genesisHash ∨ block.header.prevBlockHash = setup.genesisHash then
    some setup.genesisBlock
  else chain.loadBlockByHash block.header.prevBlockHash

/-- The state that `CallGenesisContract` runs on. Height zero stands for the tail. -/
def stateByHeight (height : UInt32) : Option setup.world.State :=
  let height := if height = 0 then chain.tail.header.height else height
  if chain.tail.header.height < height then none
  else (chain.loadBlockByHeight height).bind fun block =>
    setup.world.new block.header.rootHash block.header.utxoRoot

def view : ChainView setup.world := ⟨chain.getParentBlock, chain.stateByHeight⟩

def env : NodeEnv := setup.env chain.records chain.view

def storeBlock (block : Block) (chain : BlockChain setup) : BlockChain setup :=
  { chain with records.blocks := chain.records.blocks.insert (setup.blockHash block.header) block }

def removeBlock (block : Block) (chain : BlockChain setup) : BlockChain setup :=
  { chain with records.blocks := chain.records.blocks.erase (setup.blockHash block.header) }

def send (topic : Topic) (chain : BlockChain setup) : BlockChain setup := { chain with bus := chain.bus.send topic }

abbrev Call (setup : Setup) := Stateful (BlockChain setup) BlockError

def Call.lift {α : Type} (result : Outcome ChainError α) : Call setup α :=
  Stateful.lift (result.mapError (Fault.map .chain))

def Call.consensus {α : Type} (action : Stateful setup.consensus.Service Error α) : Call setup α :=
  action.zoom (fun chain => chain.consensus) (fun service chain => { chain with consensus := service }) .consensus

def verify (block : Block) : Call setup Unit := do
  let view := (← get).view
  (Call.consensus (setup.consensus.verify view block)).observe fun _ chain =>
    { chain with log := chain.log ++ [.verified block view chain.consensus] }

/-- `ChangeNewTail`. Messages to other bookkeepers and the update of the eternal block are
started in the background. -/
def changeNewTail (tail : Block) : Call setup Unit := do
  let view := (← get).view
  (Call.consensus (setup.consensus.finalize view tail)).orPanic
  modify fun chain => { chain with
    repeatedMintCache := chain.repeatedMintCache.add tail.header.timeStamp tail
    longestChainHeight := tail.header.height
    tail
    log := chain.log ++ [.finalized tail view chain.consensus] }

/-- `sealBlock`. The block itself is written at once, everything else in one batch. -/
def sealBlock (block : Block) (splitTxs : Table HashType Transaction) (res : setup.Result)
    (executedFor : Option Block) : Call setup Unit := do
  modify (storeBlock block)
  let chain ← get
  let records ← Call.lift (chain.records.writeBlockToDB chain.env block splitTxs res.utxoSet)
  modify fun chain => { chain with records }
  changeNewTail block
  modify fun chain => { chain with tailState := res.stateDB, log := chain.log ++ [.sealed block executedFor] }

def connectBlock (block : Block) (messageFrom : PeerID) : Call setup Block := do
  let chain ← get
  let (blockCopy, splitTxs) ← Call.lift (splitBlockOutputs setup.crypto chain.records.splitAddrs setup.depth block)
  if messageFrom = "" then
    let (executedFor, res) ← lift
      (orFail .executeResultNotFound (chain.blockExecuteResults.lookup block.header.height))
    modify fun chain => { chain with
      blockExecuteResults := chain.blockExecuteResults.erase block.header.height }
    sealBlock block splitTxs res (some executedFor)
    return block
  else
    verify block
    let chain ← get
    let env := chain.env.toChainEnv
    let switches := setup.dynastySwitches env setup.dynastySwitchTopics chain.longestChainHeight chain.records.utxos
      block blockCopy
    modify fun chain => (send .dynastyUpdate)^[switches] chain
    let (res, block) ← Call.lift
      (setup.adjustAndValidateState env chain.longestChainHeight chain.records.utxos block blockCopy)
    sealBlock block splitTxs ⟨res.stateDB, res.receipts, res.utxoSet⟩ none
    return block

def noteConnected (block : Block) (messageFrom : PeerID) (before : BlockChain setup)
    (result : Except (Fault BlockError) Block) (chain : BlockChain setup) : BlockChain setup :=
  { chain with
    log := chain.log ++ [.connected block messageFrom before.tail before.records (result.map fun _ => ())] }

def tryConnectBlockToMainChain (block : Block) (messageFrom : PeerID) : Call setup Block := do
  let before ← get
  (connectBlock block messageFrom).observe (noteConnected block messageFrom before)

def tryDisConnectBlockFromMainChain (block : Block) : Call setup Unit := do
  let chain ← get
  let records ← Call.lift (chain.records.tryDisConnectBlockFromMainChain chain.env block)
  modify fun chain => { chain with records }
  let newTail ← lift (expect (chain.getParentBlock block))
  changeNewTail newTail
  let state ← Call.lift
    (orFail .stateNotFound (setup.world.new newTail.header.rootHash newTail.header.utxoRoot))
  modify fun chain => { chain with tailState := state }

/-- The first loop of `findFork`: up the side chain to the height of the main chain. -/
def moveUp (chain : BlockChain setup) : Nat → (sideChainBlock : Option Block) → (attachBlocks : List Block) →
      Outcome BlockError (Option Block × List Block)
  | 0, sideChainBlock, attachBlocks => .ok (sideChainBlock, attachBlocks)
  | _ + 1, none, _ => .panicked
  | steps + 1, some sideChainBlock, attachBlocks =>
    chain.moveUp steps (chain.getParentBlock sideChainBlock) (attachBlocks ++ [sideChainBlock])

/-- The second loop of `findFork`: up both chains until they meet. As many steps as the main
chain is high are enough. -/
def meet (chain : BlockChain setup) :
    Nat → (mainChainBlock sideChainBlock : Option Block) → (detachBlocks attachBlocks : List Block) →
      Outcome BlockError (Block × List Block × List Block)
  | steps + 1, some mainChainBlock, some sideChainBlock, detachBlocks, attachBlocks =>
    if mainChainBlock.header.height ≠ sideChainBlock.header.height then .panicked
    else if setup.blockHash mainChainBlock.header = setup.blockHash sideChainBlock.header then
      if attachBlocks.length ≤ detachBlocks.length then .panicked else .ok (mainChainBlock, detachBlocks, attachBlocks)
    else chain.meet steps (chain.getParentBlock mainChainBlock) (chain.getParentBlock sideChainBlock)
      (detachBlocks ++ [mainChainBlock]) (attachBlocks ++ [sideChainBlock])
  | _, _, _, _, _ => .panicked

/-- `findFork`: the block where the chains part, and the blocks to detach and to attach,
the highest first. -/
def findFork (block : Block) : Outcome BlockError (Block × List Block × List Block) := do
  if block.header.height ≤ chain.longestChainHeight then .panicked
  else
    let steps := block.header.height.toNat - chain.longestChainHeight.toNat
    let (sideChainBlock, attachBlocks) ← chain.moveUp steps (some block) []
    chain.meet (chain.tail.header.height.toNat + 1) (some chain.tail) sideChainBlock [] attachBlocks

/-- What `reorganize` does with the side chain when it leaves the main chain below the
eternal block. -/
def dropSideChain (attachBlocks : List Block) (chain : BlockChain setup) : BlockChain setup :=
  attachBlocks.foldl (fun chain block =>
    let hash := setup.blockHash block.header
    removeBlock block { chain with
      hashToOrphanBlock := chain.hashToOrphanBlock.erase hash
      orphanBlockHashToChildren := chain.orphanBlockHashToChildren.erase hash }) chain

/-- Connect a block in `reorganize`: the consensus is told that the dynasty may change. -/
def connectAgain (messageFrom : PeerID) (block : Block) : Call setup Block := do
  modify (send .dynastyUpdate)
  tryConnectBlockToMainChain block messageFrom

/-- Roll back: what was attached is detached, the highest block first, and what was detached
is attached again, the lowest first. -/
def rollBack (messageFrom : PeerID) (attached detachBlocks : List Block) : Call setup Unit := do
  attached.forM fun block => (tryDisConnectBlockFromMainChain block).orPanic
  detachBlocks.reverse.forM fun block => do
    let _ ← (connectAgain messageFrom block).orPanic

def attach (messageFrom : PeerID) (detachBlocks : List Block) : (attachBlocks attached : List Block) → Call setup Unit
  | [], _ => pure ()
  | block :: rest, attached => do
    match ← (connectAgain messageFrom block).attempt with
    | .ok block => attach messageFrom detachBlocks rest (block :: attached)
    | .error err =>
      rollBack messageFrom attached detachBlocks
      .fail err

def reorganize (block : Block) (messageFrom : PeerID) : Call setup Unit := do
  let chain ← get
  let (forkpoint, detachBlocks, attachBlocks) ← lift (chain.findFork block)
  if forkpoint.header.height < chain.eternal.header.height then modify (dropSideChain attachBlocks)
  else
    detachBlocks.forM fun block => (tryDisConnectBlockFromMainChain block).orPanic
    attach messageFrom detachBlocks attachBlocks.reverse []

def tryAcceptBlock (processOrphans : Block → Call setup Unit) (block : Block) (messageFrom : PeerID) :
    Call setup Unit := do
  let chain ← get
  match chain.getParentBlock block with
  | none => .fail .parentBlockNotExist
  | some parentBlock =>
    if block.header.height ≠ parentBlock.header.height + 1 then .fail .wrongBlockHeight
    else if block.header.prevBlockHash = setup.blockHash chain.tail.header then
      let _ ← tryConnectBlockToMainChain block messageFrom
    else if block.header.height ≤ chain.longestChainHeight then
      if chain.eternal.header.height < block.header.height then
        modify (storeBlock block)
        processOrphans block
        .fail .blockInSideChain
      else .fail .expiredBlock
    else reorganize block messageFrom

/-- The loop of `processOrphans` over the accepted blocks. Every turn but the first
follows one orphan. -/
def acceptOrphans (accept : Block → Call setup Unit) : Nat → (acceptedBlocks : List Block) → Call setup Unit
  | _, [] => pure ()
  | 0, _ :: _ => .panicked
  | turns + 1, acceptedBlock :: acceptedBlocks => do
    let hash := setup.blockHash acceptedBlock.header
    let childOrphans := ((← get).orphanBlockHashToChildren.lookup hash).getD []
    childOrphans.forM fun orphan => do
      modify fun chain => { chain with
        hashToOrphanBlock := chain.hashToOrphanBlock.erase (setup.blockHash orphan.header) }
      accept orphan
    modify fun chain => { chain with orphanBlockHashToChildren := chain.orphanBlockHashToChildren.erase hash }
    acceptOrphans accept turns (acceptedBlocks ++ childOrphans)

def orphanCount : Nat :=
  (chain.orphanBlockHashToChildren.entries.map fun entry => entry.2.length).sum

/-- `processOrphans`. It calls itself through `tryAcceptBlock`; the depth stands for the
size of the stack. -/
def processOrphans (messageFrom : PeerID) : (depth : Nat) → Block → Call setup Unit
  | 0, _ => .panicked
  | depth + 1, block => do
    let turns := (← get).orphanCount + 1
    acceptOrphans (fun orphan => tryAcceptBlock (processOrphans messageFrom depth) orphan messageFrom) turns [block]

def addOrphanBlock (orphan : Block) (chain : BlockChain setup) : BlockChain setup :=
  let parentHash := orphan.header.prevBlockHash
  { chain with
    hashToOrphanBlock := chain.hashToOrphanBlock.insert (setup.blockHash orphan.header) orphan
    orphanBlockHashToChildren := chain.orphanBlockHashToChildren.insert parentHash
      ((chain.orphanBlockHashToChildren.lookup parentHash).getD [] ++ [orphan]) }

def verifyRepeatedMint (block : Block) : Call setup Bool := do
  let (exist, repeatedMintCache) := (← get).repeatedMintCache.get block.header.timeStamp
  modify fun chain => { chain with repeatedMintCache }
  return !(exist.any fun exist => block.header.bookKeeper == exist.header.bookKeeper)

/-- `ProcessBlock`. Syncing and broadcasting are left out. -/
def processBlock (block : Block) (messageFrom : PeerID) : Call setup Unit := do
  let blockHash := setup.blockHash block.header
  if (← get).blockExists blockHash then .fail .blockExists
  else if !(← verifyRepeatedMint block) then .fail .repeatedMintAtSameTime
  else
    let chain ← get
    let block ← Call.lift (setup.validateBlock block (setup.world.stateDB chain.tailState))
    if !chain.blockExists block.header.prevBlockHash then
      if (chain.hashToOrphanBlock.lookup blockHash).isSome then return ()
      else modify (addOrphanBlock block)
    else
      tryAcceptBlock (processOrphans messageFrom setup.depth) block messageFrom
      processOrphans messageFrom setup.depth block

/-- `updateEternal`, with `SetEternal` -/
def updateEternal (block : Block) : Call setup Unit := do
  let chain ← get
  if block.header.height ≤ chain.eternal.header.height then return ()
  else
    let found ← lift (expect (chain.loadBlockByHeight block.header.height))
    if setup.blockHash found.header ≠ setup.blockHash block.header then return ()
    else modify fun chain => { chain with eternal := block }

/-- What the bookkeeper uses to execute a block. -/
def producerEnv : ProducerEnv where
  toNodeEnv := chain.env
  bookkeeper := setup.bookkeeper
  withTxHash := setup.withTxHash
  createReceiptsBloom := setup.createReceiptsBloom

/-- The end of `PackTxs` with `executeBlock`: the block is executed on the state of its
parent, and the result kept under its height. -/
def executeBlock (block : Block) (reward totalTransferFee : UInt64) : Call setup Block := do
  let chain ← get
  let parent ← Call.lift (orFail .blockNotFound (chain.loadBlockByHash block.header.prevBlockHash))
  let state ← Call.lift
    (orFail .stateNotFound (setup.world.new parent.header.rootHash parent.header.utxoRoot))
  let state := Produce.creditFees chain.producerEnv reward totalTransferFee state
  let (block, res) ← Call.lift (Produce.executeBlock chain.producerEnv chain.records block state)
  modify fun chain => { chain with
    blockExecuteResults := chain.blockExecuteResults.insert block.header.height
      (block, ⟨res.stateDB, res.receipts, res.utxoSet⟩) }
  return block

/-- A callback of the bus that was started runs. -/
def deliver : Call setup Unit :=
  modify fun chain =>
    match chain.bus.pending with
    | [] => chain
    | topic :: pending =>
      { chain with
        bus := { chain.bus with pending }
        consensus := if topic = .dynastyUpdate then setup.consensus.dynastyUpdate true chain.consensus
          else chain.consensus }

inductive Event where
  | processBlock (block : Block) (messageFrom : PeerID)
  | updateEternal (block : Block)
  | executeBlock (block : Block) (reward totalTransferFee : UInt64)
  | deliver

/-- The calls that a node makes, one after the other. -/
def step : Event → Call setup Unit
  | .processBlock block messageFrom => processBlock block messageFrom
  | .updateEternal block => updateEternal block
  | .executeBlock block reward totalTransferFee => do
    let _ ← executeBlock block reward totalTransferFee
  | .deliver => deliver

end BlockChain
end Boxd
