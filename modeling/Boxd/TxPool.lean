import Boxd.Chain.Transition
import Boxd.Lib.Lru
import Boxd.Lib.Triple
import Mathlib.Logic.Function.Basic

/-! The pool of transactions that wait for a block, and the pool of orphans, whose inputs
are not there yet. The maps refer to transactions: their message never changes, but the
cached type does. Each call runs to its end before the next one starts. -/

namespace Boxd
open Lib Outcome Stateful Script UtxoSet

/-- The address of a transaction object. -/
abbrev TxRef := Nat

/-- `types.TxWrap`; times are in seconds. -/
structure TxWrap where
  tx : TxRef
  addedTimestamp : Int
  height : UInt32
  isScriptValid : Bool
  deriving DecidableEq

inductive PoolError where
  | chain (err : ChainError)
  | duplicateTxInPool | coinbaseTx | nonStandardTransaction | orphanTransaction | outPutAlreadySpent | doubleSpendTx
  | invalidFee | maxCodeSizeExceeded | outOfGas | contractFromMismatched | contractNotFound | nonceTooLow | nonceTooBig
  | nonceExists
  deriving DecidableEq

/-- What happened, for the statements about whole runs: a transaction was removed from
outside, was put among the orphans, or was offered to the pool as an orphan. -/
inductive PoolEntry where
  | removed (tx : TxRef) (hashToTx : Table HashType TxWrap)
  | orphaned (tx : TxRef) (hashToOrphanTx : Table HashType TxWrap) (seen : Bool)
  | offered (tx : TxRef) (hashToTx hashToOrphanTx : Table HashType TxWrap) (result : Except (Fault PoolError) Unit)

/-- The maps of `TransactionPool`. The log is not part of the source. -/
structure PoolMaps where
  hashToTx : Table HashType TxWrap
  outPointToTx : Table OutPoint TxRef
  hashToOrphanTx : Table HashType TxWrap
  outPointToOrphan : Table OutPoint (Table HashType TxRef)
  txcache : Lru 65536 HashType Bool
  log : List PoolEntry

/-- `TransactionPool`, with the types that are cached on the transactions and the scripts
that wait for their check. -/
structure TransactionPool extends PoolMaps where
  types : TxRef → TxType
  nonceMap : Table AddressHash (List UInt64)
  newTxScriptCh : List (TxRef × UtxoSet)

/-- What does not change: the messages of the transactions. -/
structure PoolEnv where
  crypto : Crypto
  pow10 : Pow10
  message : TxRef → TxMessage

namespace PoolEnv

def hash (env : PoolEnv) (tx : TxRef) : HashType := env.crypto.calcTxHash (env.message tx)

def spends (env : PoolEnv) (tx : TxRef) : List OutPoint := (env.message tx).vin.map TxIn.prevOutPoint

def outputs (env : PoolEnv) (tx : TxRef) : List OutPoint :=
  (List.range (env.message tx).vout.length).map fun txOutIdx => ⟨env.hash tx, .ofNat txOutIdx⟩

end PoolEnv

/-- The order in which a map is gone through. -/
structure RangeOrder where
  arrange : {α : Type} → List α → List α
  perm : ∀ {α : Type} (values : List α), (arrange values).Perm values

/-- What a call reads besides the pool: the chain and the clock. -/
structure Moment where
  db : UtxoDB
  tailState : StateDB
  exist : AddressHash → Bool
  longestChainHeight : UInt32
  now : Int
  range : RangeOrder

def Moment.seconds (moment : Moment) : Int := moment.now / 1000000000

def txTTL : Int := 3600

namespace PoolMaps

variable (env : PoolEnv) (moment : Moment)

def empty : PoolMaps := ⟨∅, ∅, ∅, ∅, .empty, []⟩

variable (tx : TxRef) (maps : PoolMaps)

def isTransactionInPool (hash : HashType) : Bool := (maps.hashToTx.lookup hash).isSome

def isOrphanInPool (hash : HashType) : Bool := (maps.hashToOrphanTx.lookup hash).isSome

def findTransaction (outPoint : OutPoint) : Option TxRef := maps.outPointToTx.lookup outPoint

def getPoolDoubleSpendTxs (tx : TxRef) : List (OutPoint × TxRef) :=
  (env.spends tx).filterMap fun outPoint => (maps.findTransaction outPoint).map (outPoint, ·)

def addTx (height : UInt32) (maps : PoolMaps) : PoolMaps :=
  { maps with
    hashToTx := maps.hashToTx.insert (env.hash tx) ⟨tx, moment.seconds, height, false⟩
    outPointToTx := (env.spends tx).foldl (fun index outPoint => index.insert outPoint tx) maps.outPointToTx }

/-- The hash is put into the cache of the transactions that were seen. -/
def see : PoolMaps := { maps with txcache := maps.txcache.add (env.hash tx) true }

def forget : PoolMaps := { maps with txcache := maps.txcache.remove (env.hash tx) }

/-- One input in `removeTx`: whoever spends the output goes, too. -/
def unspend (hash : HashType) (maps : PoolMaps) (outPoint : OutPoint) : PoolMaps :=
  match maps.findTransaction outPoint with
  | none => maps
  | some dsTx =>
    let maps := { maps with outPointToTx := maps.outPointToTx.erase outPoint }
    if env.hash dsTx = hash then maps else { maps with hashToTx := maps.hashToTx.erase (env.hash dsTx) }

def dropTx : PoolMaps :=
  (env.spends tx).foldl (unspend env (env.hash tx)) { maps with hashToTx := maps.hashToTx.erase (env.hash tx) }

/-- `LoadOrStore`: the orphans of an output that has some stay as they are. -/
def registerOrphan (index : Table OutPoint (Table HashType TxRef)) (outPoint : OutPoint) :
    Table OutPoint (Table HashType TxRef) :=
  match index.lookup outPoint with
  | none => index.insert outPoint (AList.singleton (env.hash tx) tx)
  | some _ => index

def addOrphan : PoolMaps :=
  { maps with
    hashToOrphanTx := maps.hashToOrphanTx.insert (env.hash tx) ⟨tx, moment.seconds, 0, false⟩
    outPointToOrphan := (env.spends tx).foldl (registerOrphan env tx) maps.outPointToOrphan
    log := maps.log ++ [.orphaned tx maps.hashToOrphanTx (maps.txcache.contains (env.hash tx))] }

/-- One input in `removeOrphan`. -/
def unregisterOrphan (hash : HashType) (index : Table OutPoint (Table HashType TxRef)) (outPoint : OutPoint) :
    Table OutPoint (Table HashType TxRef) :=
  match index.lookup outPoint with
  | none => index
  | some siblingOrphans =>
    let siblingOrphans := siblingOrphans.erase hash
    if siblingOrphans.entries.isEmpty then index.erase outPoint else index.insert outPoint siblingOrphans

def removeOrphan : PoolMaps :=
  { maps with
    outPointToOrphan := (env.spends tx).foldl (unregisterOrphan (env.hash tx)) maps.outPointToOrphan
    hashToOrphanTx := maps.hashToOrphanTx.erase (env.hash tx) }

/-- The orphans that spend an output, in the order of the iteration. -/
def orphansOf (outPoint : OutPoint) : List TxRef :=
  match maps.outPointToOrphan.lookup outPoint with
  | none => []
  | some orphans => moment.range.arrange (orphans.entries.map fun entry => entry.2)

def removeDoubleSpendOrphans : PoolMaps :=
  (env.spends tx).foldl (fun maps outPoint =>
    (maps.orphansOf moment outPoint).foldl (fun maps orphan => maps.removeOrphan env orphan) maps) maps

/-- How many orphans are registered under the outputs that they spend. -/
def registrations : Nat :=
  (maps.outPointToOrphan.entries.map fun entry => entry.2.entries.length).sum

def note (entry : PoolEntry) (maps : PoolMaps) : PoolMaps := { maps with log := maps.log ++ [entry] }

end PoolMaps

/-- What `ParseContractParams` leaves in its result for the sender and the nonce, also with an
error. There is no result when the sender cannot be read. -/
def Script.senderAndNonce (script : Script) : Option (AddressHash × UInt64) :=
  let next := script.parseNextOp 0
  if next.err.isSome ∨ next.opCode ≠ opContract then none
  else (script.readAddress next.pc).toOption.map fun (sender, pc) =>
    (sender, (((script.readAddress pc).toOption.bind fun (_, pc) => (script.readUint64 pc).toOption).map Prod.fst).getD 0)

/-- `GetExtendedTxUtxoSet`: the outputs of pooled transactions can be spent, too. -/
def getExtendedTxUtxoSet (c : Crypto) (tx : Transaction) (db : UtxoDB)
    (spendable : HashType → Option (Transaction × UInt32)) : UtxoSet :=
  tx.vin.foldl (fun utxoSet txIn =>
    if (utxoSet.findUtxo txIn.prevOutPoint).any fun utxo => !utxo.isSpent then utxoSet
    else match spendable txIn.prevOutPoint.hash with
      | none => utxoSet
      | some (origin, height) =>
        match utxoSet.addUtxo c origin txIn.prevOutPoint.index height with
        | .ok utxoSet => utxoSet
        | .error _ => utxoSet) (new.loadTxUtxos tx db)

/-- The loop of `TxInputAmount`. -/
def sumInputAmounts (u : UtxoSet) : List TxIn → UInt64 → UInt64
  | [], totalInputAmount => totalInputAmount
  | txIn :: rest, totalInputAmount =>
    match u.findUtxo txIn.prevOutPoint with
    | none => 0
    | some utxo => if utxo.isSpent then 0 else sumInputAmounts u rest (totalInputAmount + utxo.value)

def UtxoSet.txInputAmount (u : UtxoSet) (tx : Transaction) : UInt64 := sumInputAmounts u tx.vin 0

namespace TransactionPool

variable (env : PoolEnv) (moment : Moment)

def new (types : TxRef → TxType) : TransactionPool := ⟨.empty, types, ∅, []⟩

def load (pool : TransactionPool) (tx : TxRef) : Transaction := { env.message tx with type := pool.types tx }

variable (tx : TxRef)

def cacheType (type : TxType) (pool : TransactionPool) : TransactionPool :=
  { pool with types := Function.update pool.types tx type }

abbrev Call := Stateful TransactionPool PoolError

def Call.chain {α : Type} (result : Outcome ChainError α) : Call α :=
  lift (result.mapError (Fault.map .chain))

def modifyMaps (change : PoolMaps → PoolMaps) : Call Unit :=
  modify fun pool => { pool with toPoolMaps := change pool.toPoolMaps }

def getTxType (tx : TxRef) : Call TxType := do
  let (type, typed) := Boxd.getTxType moment.tailState ((← get).load env tx)
  modify (cacheType tx typed.type)
  return type

def isStandardTx (tx : TxRef) : Call Bool := do
  let (standard, typed) := Boxd.isStandardTx moment.tailState ((← get).load env tx)
  modify (cacheType tx typed.type)
  return standard

/-- `checkDoubleSpend`. Lists of one, of two and of more inputs are treated apart there. -/
def checkDoubleSpend : Call Unit := do
  if !((← get).getPoolDoubleSpendTxs env tx).isEmpty then .fail .outPutAlreadySpent
  else if ¬(env.spends tx).Nodup then .fail .doubleSpendTx
  else return ()

/-- The output creates or calls a contract, or pays one. -/
def isContractVout (statedb : StateDB) (o : TxOut) : Bool :=
  isContractPubkey o.scriptPubKey || (pubKeyHashOf o.scriptPubKey).any statedb.isContractAddr

/-- `GetContractVout` when its result is not read at once: it is nil without a contract
output. -/
def findContractVout (tx : Transaction) : Outcome ChainError (Option TxOut) :=
  if tx.vout.any (isContractVout moment.tailState) then some <$> getContractVout env.crypto tx moment.tailState
  else .ok none

/-- The part of `CheckGasAndNonce` that only reads: the fee, the gas and the nonce. When
the owner of the first input is not found, the error message reads it all the same. -/
def checkContract (tx : Transaction) (utxoSet : UtxoSet) (txFee : UInt64) : Outcome PoolError VMTxParams := do
  let contractVout ← (findContractVout env moment tx).mapError (Fault.map .chain)
  if maxCodeSize < (tx.data.map fun data => data.content.length).getD 0 then .fail .maxCodeSizeExceeded
  else
    let contractVout ← expect contractVout
    match parseContractParams contractVout.scriptPubKey with
    | .error err => .fail (.chain (.script err))
    | .ok param =>
      let contractCreation : Bool := param.receiver = zeroAddressHash
      if txFee ≠ param.gasLimit * fixedGasPrice + extraFee tx then .fail .invalidFee
      else
        let data ← expect tx.data
        let gas ← orFail .outOfGas (intrinsicGas data.content contractCreation)
        if param.gasLimit < gas then .fail .outOfGas
        else
          let first ← expect tx.vin.head?
          let addr ← expect (fetchOutPointOwner first.prevOutPoint utxoSet).toOption
          let owner ← expect addr.hash160
          let nonceOnChain := moment.tailState.getNonce param.sender
          if owner ≠ param.sender then .fail .contractFromMismatched
          else if !contractCreation && !moment.exist param.receiver then .fail .contractNotFound
          else if param.nonce < nonceOnChain + 1 then .fail .nonceTooLow
          else if param.nonce > nonceOnChain + 200 then .fail .nonceTooBig
          else return param

def dropNonce (sender : AddressHash) (nonce : UInt64) (pool : TransactionPool) : TransactionPool :=
  let nonces := ((pool.nonceMap.lookup sender).getD []).erase nonce
  { pool with nonceMap := if nonces.isEmpty then pool.nonceMap.erase sender else pool.nonceMap.insert sender nonces }

/-- One turn of the loop of `CheckGasAndNonce` over those that spend the same outputs. The
parameters are read from the new transaction, not from the one that is there. -/
def replaceDoubleSpend (param : VMTxParams) (dsOp : OutPoint) (dsTx : TxRef) : Call Unit := do
  if (← getTxType env moment dsTx) ≠ .contractTx then return ()
  else
    let contractVout ← Call.chain (getContractVout env.crypto ((← get).load env tx) moment.tailState)
    match parseContractParams contractVout.scriptPubKey with
    | .error _ => return ()
    | .ok p =>
      if param.nonce < p.nonce then
        modifyMaps fun maps => { maps with
          outPointToTx := maps.outPointToTx.erase dsOp
          hashToTx := maps.hashToTx.erase (env.hash dsTx) }
        modify (dropNonce param.sender p.nonce)
      else return ()

/-- The end of `CheckGasAndNonce`: the nonce must be new. -/
def checkNonce (param : VMTxParams) : Call Unit := do
  let pool ← get
  if ((pool.nonceMap.lookup param.sender).getD []).contains param.nonce then .fail .nonceExists
  else
    modify fun pool =>
      if (pool.nonceMap.lookup param.sender).isNone then
        { pool with nonceMap := pool.nonceMap.insert param.sender [] } else pool
    (pool.getPoolDoubleSpendTxs env tx).forM fun entry => replaceDoubleSpend env moment tx param entry.1 entry.2
    let nonces ← lift (expect ((← get).nonceMap.lookup param.sender))
    modify fun pool => { pool with nonceMap := pool.nonceMap.insert param.sender (nonces.insert param.nonce) }

def checkGasAndNonce (utxoSet : UtxoSet) : Call Unit := do
  let txFee ← Call.chain (validateTxInputs env.pow10 utxoSet ((← get).load env tx))
  let type ← getTxType env moment tx
  let pool ← get
  if type ≠ .contractTx then
    if txFee ≠ transferFee + extraFee (pool.load env tx) then .fail .invalidFee else return ()
  else
    let param ← lift (checkContract env moment (pool.load env tx) utxoSet txFee)
    checkNonce env moment tx param

/-- The pooled transactions whose outputs can be spent, with the height at which they
were added. -/
def spendable (pool : TransactionPool) (hash : HashType) : Option (Transaction × UInt32) :=
  (pool.hashToTx.lookup hash).map fun wrap => (pool.load env wrap.tx, wrap.height)

/-- The end of `maybeAcceptTx`. A payment may turn out to be one to a contract, so its
type is forgotten. -/
def acceptTx (utxoSet : UtxoSet) : Call Unit := do
  modify fun pool => if pool.types tx = .payToPubkTx then pool.cacheType tx .unknownTx else pool
  modify fun pool => { pool with newTxScriptCh := pool.newTxScriptCh ++ [(tx, utxoSet)] }
  modifyMaps (PoolMaps.addTx env moment tx (moment.longestChainHeight + 1))
  modifyMaps (PoolMaps.see env tx)

/-- `maybeAcceptTx`. Sending the transaction to others is left out. -/
def maybeAcceptTx (detectDupOrphan : Bool) (tx : TxRef) : Call Unit := do
  let pool ← get
  if pool.isTransactionInPool (env.hash tx) || detectDupOrphan && pool.isOrphanInPool (env.hash tx) ||
      pool.txcache.contains (env.hash tx) then .fail .duplicateTxInPool
  else
    Call.chain (lift (validateTransactionPreliminary (pool.load env tx)))
    if isCoinBase (pool.load env tx) then .fail .coinbaseTx
    else if !(← isStandardTx env moment tx) then .fail .nonStandardTransaction
    else
      let pool ← get
      let utxoSet := getExtendedTxUtxoSet env.crypto (pool.load env tx) moment.db (pool.spendable env)
      if utxoSet.txInputAmount (pool.load env tx) = 0 then
        modifyMaps (PoolMaps.addOrphan env moment tx)
        .fail .orphanTransaction
      else
        checkGasAndNonce env moment tx utxoSet
        checkDoubleSpend env tx
        acceptTx env moment tx utxoSet

def offer (orphan : TxRef) : Call Unit := do
  let pool ← get
  (maybeAcceptTx env moment false orphan).observe fun result pool' =>
    { pool' with toPoolMaps := pool'.toPoolMaps.note (.offered orphan pool.hashToTx pool.hashToOrphanTx result) }

/-- The orphans of one output in `processOrphans`, until one of them is accepted. -/
def offerOrphans : List TxRef → Call (Option TxRef)
  | [] => return none
  | orphan :: rest => do
    match ← (offer env moment orphan).attempt with
    | .error _ => offerOrphans rest
    | .ok _ =>
      modifyMaps (PoolMaps.removeOrphan env orphan)
      return some orphan

/-- The outputs of an accepted transaction in `processOrphans`, with the orphans that
are accepted for them. -/
def offerSpenders : List OutPoint → Call (List TxRef)
  | [] => return []
  | outPoint :: rest => do
    let accepted ← offerOrphans env moment ((← get).orphansOf moment outPoint)
    let others ← offerSpenders rest
    return accepted.toList ++ others

/-- The loop of `processOrphans` over the accepted transactions, those before and those
from the current one on. -/
def acceptOrphans : (turns : Nat) → (before acceptedTxs : List TxRef) → Call (List TxRef)
  | _, before, [] => return before
  | 0, before, acceptedTxs => return before ++ acceptedTxs
  | turns + 1, before, acceptedTx :: acceptedTxs => do
    let accepted ← offerSpenders env moment (env.outputs acceptedTx)
    acceptOrphans turns (before ++ [acceptedTx]) (acceptedTxs ++ accepted)

/-- `processOrphans`. Every turn but the first follows an orphan that was registered. -/
def processOrphans : Call Unit := do
  let turns := (← get).registrations + 1
  let acceptedTxs ← acceptOrphans env moment turns [] [tx]
  acceptedTxs.forM fun acceptedTx => modifyMaps (PoolMaps.removeDoubleSpendOrphans env moment acceptedTx)

def processTx : Call Unit := do
  maybeAcceptTx env moment true tx
  processOrphans env moment tx

/-- The nonce of a contract transaction that leaves the pool is free again. -/
def releaseNonce : Call Unit := do
  if (← getTxType env moment tx) = .contractTx then
    let contractVout ← Call.chain (getContractVout env.crypto ((← get).load env tx) moment.tailState)
    let (sender, nonce) ← lift (expect (senderAndNonce contractVout.scriptPubKey))
    modify (dropNonce sender nonce)

/-- `removeTx` when it is not recursive. -/
def removeOne : Call Unit := do
  modifyMaps (PoolMaps.dropTx env tx)
  releaseNonce env moment tx

/-- The outputs of a removed transaction in `removeTx`: whoever spends them becomes an
orphan. -/
def evictSpenders : List OutPoint → Call (List TxRef)
  | [] => return []
  | outPoint :: rest => do
    match (← get).findTransaction outPoint with
    | none => evictSpenders rest
    | some childTx =>
      removeOne env moment childTx
      modifyMaps (PoolMaps.addOrphan env moment childTx)
      let others ← evictSpenders rest
      return childTx :: others

/-- The loop of `removeTx` over the removed transactions. -/
def evictChildren : (turns : Nat) → (removedTxs : List TxRef) → Call Unit
  | _, [] => return ()
  | 0, _ :: _ => return ()
  | turns + 1, removedTx :: removedTxs => do
    let evicted ← evictSpenders env moment (env.outputs removedTx)
    evictChildren turns (removedTxs ++ evicted)

/-- `removeTx`. Every turn but the first follows a transaction that spends an output. -/
def removeTx (recursive : Bool) (tx : TxRef) : Call Unit := do
  removeOne env moment tx
  if recursive then
    let turns := (← get).outPointToTx.entries.length + 1
    evictChildren env moment turns [tx]

/-- `removeTx` for a transaction that need not be in the pool. -/
def removeOutside (recursive : Bool) (tx : TxRef) : Call Unit := do
  modifyMaps fun maps => maps.note (.removed tx maps.hashToTx)
  removeTx env moment recursive tx

/-- A block that leaves the main chain, in `processChainUpdateMsg`. -/
def detachBlock : (txs : List TxRef) → Call Unit
  | [] => panicked
  | first :: rest => do
    rest.forM fun tx => do
      modifyMaps (PoolMaps.forget env tx)
      let _ ← (maybeAcceptTx env moment true tx).attempt
    (first :: rest).forM fun tx => (env.outputs tx).forM fun outPoint => do
      match (← get).findTransaction outPoint with
      | none => return ()
      | some childTx => removeTx env moment true childTx

def removeBlockTxs : (txs : List TxRef) → Call Unit
  | [] => panicked
  | _ :: rest => rest.forM fun tx => do
    modifyMaps (PoolMaps.see env tx)
    removeOutside env moment false tx
    modifyMaps (PoolMaps.removeOrphan env tx)
    modifyMaps (PoolMaps.removeDoubleSpendOrphans env moment tx)

def processChainUpdateMsg (detachBlocks attachBlocks : List (List TxRef)) : Call Unit := do
  detachBlocks.forM (detachBlock env moment)
  attachBlocks.forM (removeBlockTxs env moment)

def checkTxScript (position : Nat) : Call Unit := do
  match (← get).newTxScriptCh[position]? with
  | none => return ()
  | some (tx, utxoSet) =>
    modify fun pool => { pool with newTxScriptCh := pool.newTxScriptCh.eraseIdx position }
    match checkTxScripts env.crypto utxoSet ((← get).load env tx) false with
    | .error _ => removeOutside env moment true tx
    | .ok _ => modifyMaps fun maps =>
      match maps.hashToTx.lookup (env.hash tx) with
      | none => maps
      | some wrap => { maps with hashToTx := maps.hashToTx.insert (env.hash tx) { wrap with isScriptValid := true } }

/-- The transactions of a map that were added too long ago. -/
def expired (wraps : Table HashType TxWrap) : List TxRef :=
  ((moment.range.arrange (wraps.entries.map fun entry => entry.2)).filter fun wrap =>
    (wrap.addedTimestamp + txTTL) * 1000000000 < moment.now).map TxWrap.tx

def cleanExpiredTxs : Call Unit := do
  let pool ← get
  let expiredOrphans := expired moment pool.hashToOrphanTx
  let expiredTxs := expired moment pool.hashToTx
  expiredOrphans.forM fun orphan => modifyMaps (PoolMaps.removeOrphan env orphan)
  expiredTxs.forM fun tx => removeTx env moment true tx

/-- What happens to a pool. The rest of the node may cache a type on a transaction. -/
inductive Event where
  | processTx (tx : TxRef)
  | checkTxScript (position : Nat)
  | cleanExpiredTxs
  | invalidTx (tx : TxRef)
  | processChainUpdateMsg (detachBlocks attachBlocks : List (List TxRef))
  | cacheType (tx : TxRef) (type : TxType)

def step : Moment × Event → Call Unit
  | (moment, .processTx tx) => processTx env moment tx
  | (moment, .checkTxScript position) => checkTxScript env moment position
  | (moment, .cleanExpiredTxs) => cleanExpiredTxs env moment
  | (moment, .invalidTx tx) => removeOutside env moment true tx
  | (moment, .processChainUpdateMsg detachBlocks attachBlocks) =>
    processChainUpdateMsg env moment detachBlocks attachBlocks
  | (_, .cacheType tx type) => modify (cacheType tx type)

end TransactionPool
end Boxd
