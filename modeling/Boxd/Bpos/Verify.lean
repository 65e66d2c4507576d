import Boxd.Chain.System

/-! How a node checks the consensus rules of a block that a peer sent. -/

namespace Boxd
open Lib Outcome UInt64

structure Delegate where
  addr : AddressHash
  peerID : String
  deriving DecidableEq

structure Dynasty where
  delegates : List Delegate
  addrs : List AddressHash
  deriving DecidableEq

namespace Bpos

def secondInMs : Int64 := 1000
def bookkeeperRefreshInterval : Int64 := 5000

inductive Error where
  | failedToVerifySign | notFoundBookkeeper | invalidCoinbaseTx | invalidDynastySwitchTx | invalidCalcScoreTx
  | multipleDynastySwitchTx | dynastySwitchIsNotAllowed | invalidDynastyHash | notEnoughIrreversibleSignatures
  | duplicatedIrreversibleSignature | invalidIrreversibleSignature | invalidIrreversibleInfo | stateNotFound
  | contractCallFailed
  deriving DecidableEq

/-- The part of `ConsensusContext` that verification reads. -/
structure ConsensusContext where
  verifyDynasty : Dynasty
  verifyDynastySwitchThreshold : Nat
  verifyCalcScoreThreshold : Nat
  deriving DecidableEq

/-- The state of the consensus service that verification changes. -/
structure Service where
  context : ConsensusContext
  isDynastyChange : Bool
  isDynastyChangeForVerify : Bool
  deriving DecidableEq

/-- The chain as the consensus service sees it. The dynasty and the net parameters
are results of contract calls. -/
structure Env where
  world : World
  genesis : GenesisContract
  getParentBlock : Block → Option Block
  fetchDynastyByHeight : UInt32 → Option Dynasty
  fetchNetParamsByHeight : UInt32 → Option NetParams
  calcScores : Option (List Int)
  blockHash : BlockHeader → HashType
  dynastyHash : List Delegate → HashType
  /-- The address of the key that made a compact signature. -/
  recoverCompact : HashType → Bytes → Option AddressHash

/-- The number of signatures that make a block irreversible. -/
def quorum (dynasty : Dynasty) : Nat := 2 * dynasty.delegates.length / 3

def findProposerWithTimeStamp (timestamp : Int64) (delegates : List Delegate) : Outcome Error AddressHash :=
  let dynastySize : Int64 := .ofNat delegates.length
  if bookkeeperRefreshInterval * dynastySize = 0 then .panicked
  else
    let offsetPeriod := (timestamp * secondInMs) % (bookkeeperRefreshInterval * dynastySize)
    let offset := (offsetPeriod / bookkeeperRefreshInterval) % dynastySize
    if 0 ≤ offset ∧ offset < dynastySize then
      (expect delegates[offset.toNatClampNeg]?).map Delegate.addr
    else .fail .notFoundBookkeeper

variable (env : Env) (block : Block)

/-- `updateVerifyContext`: the dynasty is the one after the parent block. -/
def updateVerifyContext : Stateful Service Error Unit := do
  let height := if 0 < block.header.height then block.header.height - 1 else 0
  if (← get).isDynastyChangeForVerify then
    let dynasty ← .lift (orFail .contractCallFailed (env.fetchDynastyByHeight height))
    let netParams ← .lift (orFail .contractCallFailed (env.fetchNetParamsByHeight height))
    modify fun bpos => { bpos with
      context := ⟨dynasty, netParams.dynastySwitchThreshold, netParams.calcScoreThreshold⟩
      isDynastyChangeForVerify := false }

def verifySign : Stateful Service Error Bool := do
  updateVerifyContext env block
  let bookkeeper ← .lift (findProposerWithTimeStamp block.header.timeStamp (← get).context.verifyDynasty.delegates)
  return env.recoverCompact (env.blockHash block.header) block.signature == some bookkeeper

/-- The transaction that `verifyImmutableTx` expects, its place, and the error when there is
another one. -/
def expectedTx (parentState : env.world.State) : SystemCall → Outcome Error (Transaction × Nat × Error)
  | .calcBonus => do
    let adminNonce := (env.world.stateDB parentState).getNonce env.genesis.admin + 1
    let coinbase ← expect block.txs[0]?
    let reward ← expect coinbase.vout[0]?
    let totalTransferFee : UInt64 := (coinbase.vout[1]?.map TxOut.value).getD 0
    let tx ← orFail .contractCallFailed (makeCoinBaseContractTx env.genesis block.header.bookKeeper reward.value
      totalTransferFee adminNonce block.header.height)
    return (tx, 0, .invalidCoinbaseTx)
  | .execBonus => do
    let adminNonce := (env.world.stateDB parentState).getNonce env.genesis.admin + 2
    let tx ← orFail .contractCallFailed
      (makeDynastySwitchTx env.genesis env.genesis.admin adminNonce block.header.height)
    return (tx, 1, .invalidDynastySwitchTx)
  | .calcScore _ => do
    let adminNonce := (env.world.stateDB parentState).getNonce env.genesis.admin + 2
    let scores ← orFail .contractCallFailed env.calcScores
    let tx ← orFail .contractCallFailed
      (makeCalcScoreTx env.genesis env.genesis.admin adminNonce block.header.height scores)
    return (tx, 1, .invalidCalcScoreTx)

/-- `verifyImmutableTx`: rebuild a system transaction and compare the bytes. -/
def verifyImmutableTx (ty : SystemCall) : Outcome Error Unit := do
  let parent ← expect (env.getParentBlock block)
  let parentState ← orFail .stateNotFound (env.world.new parent.header.rootHash parent.header.utxoRoot)
  let (expected, index, err) ← expectedTx env block parentState ty
  let current ← expect block.txs[index]?
  if expected.marshal ≠ current.marshal then .fail err else return ()

/-- `verifyInternalContractTx`. The check of the score transaction is commented out in the
source: at a height for scores the second transaction is not looked at. -/
def verifyInternalContractTx : Stateful Service Error Unit := do
  .lift (verifyImmutableTx env block .calcBonus)
  let context := (← get).context
  let height := block.header.height
  let switchHeight := ofNat context.verifyDynastySwitchThreshold
  let scoreHeight := ofNat context.verifyCalcScoreThreshold
  if switchHeight = 0 then .panicked
  else
    if (height + 1).toUInt64 % switchHeight = 0 then
      .lift (verifyImmutableTx env block .execBonus)
      modify fun bpos => { bpos with isDynastyChange := true }
    if (height + 1).toUInt64 % switchHeight = 0 ∨ height.toUInt64 % switchHeight = scoreHeight then
      if block.txs.length < 2 then .panicked
      else if (block.txs.drop 2).any isInternalContract then .fail .multipleDynastySwitchTx
      else return ()
    else if block.txs.any isInternalContract then .fail .dynastySwitchIsNotAllowed
    else return ()

def verifyDynasty (env : Env) (context : ConsensusContext) (block : Block) : Outcome Error Unit :=
  if 0 < block.header.height then
    if block.header.dynastyHash ≠ env.dynastyHash context.verifyDynasty.delegates then .fail .invalidDynastyHash
    else .ok ()
  else .ok ()

/-- The loop of `verifyIrreversibleInfo`; `remains` are the signers so far. -/
def verifyIrreversibleSignatures (env : Env) (dynasty : Dynasty) (hash : HashType) :
    List Bytes → List AddressHash → Outcome Error (List AddressHash)
  | [], remains => .ok remains
  | signature :: rest, remains =>
    match env.recoverCompact hash signature with
    | none => .fail .invalidIrreversibleSignature
    | some addr =>
      if addr ∉ dynasty.addrs then .fail .invalidIrreversibleSignature
      else if addr ∈ remains then .fail .duplicatedIrreversibleSignature
      else verifyIrreversibleSignatures env dynasty hash rest (remains ++ [addr])

def verifyIrreversibleInfo (context : ConsensusContext) (block : Block) : Outcome Error Unit :=
  match block.irreversibleInfo with
  | none => .ok ()
  | some irreversibleInfo => do
    let dynasty := context.verifyDynasty
    if irreversibleInfo.signatures.length < quorum dynasty then .fail .notEnoughIrreversibleSignatures
    else
      let remains ← verifyIrreversibleSignatures env dynasty irreversibleInfo.hash irreversibleInfo.signatures []
      if remains.length < quorum dynasty then .fail .invalidIrreversibleInfo else return ()

def verify : Stateful Service Error Unit := do
  let ok ← verifySign env block
  if !ok then .fail .failedToVerifySign
  else
    verifyInternalContractTx env block
    .lift (verifyDynasty env (← get).context block)
    .lift (verifyIrreversibleInfo env (← get).context block)

end Bpos
end Boxd
