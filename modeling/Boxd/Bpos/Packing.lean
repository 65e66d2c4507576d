import Boxd.Chain.Process
import Boxd.Lib.Dag

/-! How a bookkeeper orders pending transactions: contract transactions whose nonces do not
follow are left out with all that spends their outputs, the others are sorted by a graph. -/

namespace Boxd.Packing
open Lib Outcome

/-- `types.TxWrap`, as far as packing reads it. -/
structure TxWrap where
  tx : Transaction
  addedTimestamp : Int
  isScriptValid : Bool
  deriving DecidableEq

/-- What the language leaves open: how a heap orders equal elements, and in which order a
map is read. -/
structure Runtime where
  drain : {α : Type} → (α → Int) → List α → List α
  drain_perm : ∀ {α : Type} (key : α → Int) (items : List α), (drain key items).Perm items
  drain_sorted : ∀ {α : Type} (key : α → Int) (items : List α), (drain key items).Pairwise (key · ≤ key ·)
  range : {α : Type} → List α → List α
  range_perm : ∀ {α : Type} (keys : List α), (range keys).Perm keys

/-- The state of the tail that types are cached with, and the one that is opened for the
nonces, which may fail. -/
structure PackEnv extends Runtime where
  crypto : Crypto
  tailState : StateDB
  newState : Option StateDB

inductive PackError where
  | state | circleTxExistInDag
  | process (err : ProcessError)
  deriving DecidableEq

/-- A pending transaction with its hash, and what the virtual machine is given for it. -/
structure Pending where
  hash : HashType
  wrap : TxWrap
  vmTx : Option VMTransaction
  deriving DecidableEq

variable (env : PackEnv)

/-- What the first loop reads of a transaction. -/
def readTx (statedb : StateDB) (pendingTx : TxWrap) : Outcome PackError Pending :=
  let hash := txHash env.crypto pendingTx.tx
  let (type, tx) := getTxType env.tailState pendingTx.tx
  if type ≠ .contractTx then .ok ⟨hash, { pendingTx with tx }, none⟩
  else do
    let (extracted, tx) ← (extractVMTransaction env.crypto statedb tx).mapError (Fault.map .process)
    let vmTx ← expect extracted
    return ⟨hash, { pendingTx with tx }, some vmTx⟩

/-- What the first loop reads. Only transactions whose scripts have been verified are packed. -/
def readTxs (statedb : StateDB) (pendingTxs : List TxWrap) : Outcome PackError (List Pending) :=
  (pendingTxs.filter TxWrap.isScriptValid).mapM (readTx env statedb)

structure Maps where
  pool : List Pending
  hashToTx : Table HashType Pending
  outPointToTx : Table OutPoint Pending
  addressToTxs : Table AddressHash (List VMTransaction)
  hashToAddress : Table HashType AddressHash

/-- What the first loop keeps of a transaction. Only the first transaction of a sender
gets an entry in `hashToAddress`. -/
def record (maps : Maps) (pending : Pending) : Maps :=
  let maps := { maps with
    pool := maps.pool ++ [pending]
    hashToTx := maps.hashToTx.insert pending.hash pending
    outPointToTx := pending.wrap.tx.vin.foldl (fun spenders txIn => spenders.insert txIn.prevOutPoint pending) maps.outPointToTx }
  match pending.vmTx with
  | none => maps
  | some vmTx =>
    match maps.addressToTxs.lookup vmTx.sender with
    | some queue => { maps with addressToTxs := maps.addressToTxs.insert vmTx.sender (queue ++ [vmTx]) }
    | none => { maps with
        addressToTxs := maps.addressToTxs.insert vmTx.sender [vmTx]
        hashToAddress := maps.hashToAddress.insert pending.hash vmTx.sender }

/-- The transactions that spend an output of a removed one. -/
def childTxs (outPointToTx : Table OutPoint Pending) (removedTx : Pending) : List Pending :=
  (List.range removedTx.wrap.tx.vout.length).filterMap fun txOutIdx =>
    outPointToTx.lookup ⟨removedTx.hash, .ofNat txOutIdx⟩

/-- The loop over `removedTxs`, which grows by the children: a generation at a time. -/
def removeChildren (outPointToTx : Table OutPoint Pending) :
    (fuel : Nat) → (removedTxs : List Pending) → Table HashType Pending → Table HashType Pending
  | 0, _, hashToTx => hashToTx
  | fuel + 1, removedTxs, hashToTx =>
    let children := removedTxs.flatMap (childTxs outPointToTx)
    if children = [] then hashToTx
    else removeChildren outPointToTx fuel children
      (children.foldl (fun hashToTx child => hashToTx.erase child.hash) hashToTx)

/-- The loop over the transactions of a sender, by nonce. Those whose nonce does not follow
are removed with their children. -/
def sequence (maps : Maps) :
    List VMTransaction → (currentNonce : UInt64) → (hashToTx : Table HashType Pending) → (vmtxs : List VMTransaction) →
      Table HashType Pending × List VMTransaction
  | [], _, hashToTx, vmtxs => (hashToTx, vmtxs)
  | vmTx :: rest, currentNonce, hashToTx, vmtxs =>
    match hashToTx.lookup vmTx.originTx with
    | none => sequence maps rest currentNonce hashToTx vmtxs
    | some pending =>
      if vmTx.nonce ≠ currentNonce + 1 then
        let hashToTx := removeChildren maps.outPointToTx maps.pool.length [pending] hashToTx
        sequence maps rest currentNonce (hashToTx.erase vmTx.originTx) vmtxs
      else sequence maps rest (currentNonce + 1) hashToTx (vmtxs ++ [vmTx])

/-- What is left of the transactions, and the ordered transactions of each sender. -/
structure Sequenced where
  hashToTx : Table HashType Pending
  addressToNonceSortedTxs : Table AddressHash (List VMTransaction)

def sequenceSender (statedb : StateDB) (maps : Maps) (state : Sequenced) (sender : AddressHash) : Sequenced :=
  let queue := env.drain (fun vmTx => (vmTx.nonce.toNat : Int)) ((maps.addressToTxs.lookup sender).getD [])
  let (hashToTx, vmtxs) := sequence maps queue (statedb.getNonce sender) state.hashToTx []
  ⟨hashToTx, state.addressToNonceSortedTxs.insert sender vmtxs⟩

/-- `handleVMTx`. The entry of a transaction is read without looking whether it is there. -/
def handleVMTx (hashToTx : Table HashType Pending) :
    List VMTransaction → (parentHash : Option HashType) → Dag HashType → Outcome PackError (Dag HashType)
  | [], _, dag => .ok dag
  | vmTx :: rest, parentHash, dag => do
    let hash := vmTx.originTx
    let originTx ← expect (hashToTx.lookup hash)
    let dag := dag.addNode hash originTx.wrap.addedTimestamp
    handleVMTx hashToTx rest (some hash) (parentHash.elim dag fun parent => dag.addEdge parent hash)

structure Graph where
  dag : Dag HashType
  addressToNonceSortedTxs : Table AddressHash (List VMTransaction)

/-- The chain of nonces of the sender that is known for a contract transaction. -/
def addCalls (maps : Maps) (hashToTx : Table HashType Pending) (pending : Pending) (graph : Graph) :
    Outcome PackError Graph :=
  if (getTxType env.tailState pending.wrap.tx).1 ≠ .contractTx then .ok graph
  else do
    let sender := (maps.hashToAddress.lookup pending.hash).getD zeroAddressHash
    let sortedNonceTxs := (graph.addressToNonceSortedTxs.lookup sender).getD []
    let dag ← handleVMTx hashToTx sortedNonceTxs none graph.dag
    return ⟨dag, graph.addressToNonceSortedTxs.erase sender⟩

/-- The edge from a pending transaction that an input spends. -/
def addParent (hashToTx : Table HashType Pending) (hash : HashType) (dag : Dag HashType) (txIn : TxIn) : Dag HashType :=
  let prevTxHash := txIn.prevOutPoint.hash
  match hashToTx.lookup prevTxHash with
  | none => dag
  | some wrap => (dag.addNode prevTxHash wrap.wrap.addedTimestamp).addEdge prevTxHash hash

/-- The third loop, for one transaction of the pool. -/
def addTx (maps : Maps) (hashToTx : Table HashType Pending) (graph : Graph) (pending : Pending) :
    Outcome PackError Graph :=
  match hashToTx.lookup pending.hash with
  | none => .ok graph
  | some _ => do
    let graph ← addCalls env maps hashToTx pending
      { graph with dag := graph.dag.addNode pending.hash pending.wrap.addedTimestamp }
    return { graph with dag := pending.wrap.tx.vin.foldl (addParent hashToTx pending.hash) graph.dag }

/-- `sortPendingTxs`. An entry without a transaction is a nil pointer. -/
def sortPendingTxs (pendingTxs : List TxWrap) : Outcome PackError (List (Option Pending)) := do
  let statedb ← orFail .state env.newState
  let txs ← readTxs env statedb pendingTxs
  let maps := txs.foldl record ⟨[], ∅, ∅, ∅, ∅⟩
  let sequenced := (env.range maps.addressToTxs.keys).foldl (sequenceSender env statedb maps) ⟨maps.hashToTx, ∅⟩
  let graph ← (env.drain (·.wrap.addedTimestamp) maps.pool).foldlM (addTx env maps sequenced.hashToTx)
    ⟨.new, sequenced.addressToNonceSortedTxs⟩
  let dag := graph.dag
  if dag.isCirclular (env.range dag.keys) ≠ some false then .fail .circleTxExistInDag
  else .ok (((dag.topoSort env.drain (env.range dag.keys)).getD []).map sequenced.hashToTx.lookup)

end Boxd.Packing
