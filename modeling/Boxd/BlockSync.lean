import Boxd.Chain.Validate
import Boxd.Lib.Transitions

/-! The side of `SyncManager` that asks for blocks: it locates missing hashes, lets other
peers check them, and fetches the blocks in chunks. `startSync` and the handler of messages
take turns; who answers, what they answer and when a timer runs out comes from outside. -/

namespace Boxd
open Lib

inductive PeerStatus where
  | available | locate | locateDone | checked | checkedDone | blocks | blocksDone | err
  deriving DecidableEq

inductive SyncStatus where
  | free | locate | check | blocks
  deriving DecidableEq

inductive ErrFlag where
  | noHash | inSync | unmarshal | wrongPeerStatus | checkNumTooBig | rootHashMismatch
  deriving DecidableEq

def maxCheckPeers : Nat := 2
def syncBlockChunkSize : Nat := 64
def maxBlocksPerSync : Nat := 1024
def maxSyncChunks : Nat := maxBlocksPerSync / syncBlockChunkSize
def retryTimes : Nat := 10
def maxUint32Idx : Nat := 2 ^ 32 - 1

structure FetchBlockHeaders where
  idx : Nat
  beginHash : HashType
  length : Nat
  deriving DecidableEq

structure BlockCheckInfo where
  rootHash : HashType
  fbh : FetchBlockHeaders
  deriving DecidableEq

structure SyncBlocks where
  idx : Nat
  blocks : List Block

/-- What a request for blocks continues with: the next chunk, waiting for the blocks, or
the loop over the chunks that timed out. -/
inductive Resumption where
  | nextChunk | waiting | retrying
  deriving DecidableEq

/-- Where `startSync` is. -/
inductive Phase where
  | ended
  | restarting
  | locating
  | asking (checkTimes : Nat) (peers : List PeerID)
  | checking
  | sending (fbh : FetchBlockHeaders) (tries : Nat) (resumption : Resumption)
  | recording (fbh : FetchBlockHeaders) (pid : PeerID)
  | waiting
  | retrying
  | finishing
  deriving DecidableEq

/-- What happened in this round: the peers that an earlier round had left as asked to check, the
peers that were asked to check, the hashes that peers confirmed, the chunks that were requested and
accepted. It is not part of the source. -/
structure SyncLog where
  left : List PeerID
  asked : List PeerID
  replies : List (PeerID × HashType)
  requests : List (Nat × PeerID)
  accepted : List (Nat × List HashType)
  deriving DecidableEq

structure SyncManager where
  phase : Phase
  status : SyncStatus
  checkNum : Nat
  checkRootHash : HashType
  fetchHashes : List HashType
  peerBlockCheckInfo : Table PeerID (List (Option BlockCheckInfo))
  stalePeers : Table PeerID PeerStatus
  maliciousPeers : List PeerID
  blocksSynced : Nat
  lastLocatedHash : Option HashType
  locateErrCh : Option ErrFlag
  locateDoneCh : Bool
  checkErrCh : Option ErrFlag
  checkOkCh : Nat
  blocksDoneCh : Nat
  blocksErrCh : List FetchBlockHeaders
  log : SyncLog

/-- What does not change: the hashes of blocks and of pairs of hashes. -/
structure SyncEnv where
  crypto : Crypto
  blockHash : BlockHeader → HashType

/-- The root of a list of hashes; `zeroHash` for no hashes, as in `checkBlocksAndClearInfo`. -/
def SyncEnv.rootHash (env : SyncEnv) (hashes : List HashType) : HashType :=
  (merkleRoot (combineHash env.crypto) hashes).getD zeroHash

def SyncEnv.blockHashes (env : SyncEnv) (sb : SyncBlocks) : List HashType :=
  sb.blocks.map fun block => env.blockHash block.header

namespace SyncManager

variable (env : SyncEnv)

/-- `NewSyncManager` -/
def new : SyncManager where
  phase := .ended
  status := .free
  checkNum := 0
  checkRootHash := zeroHash
  fetchHashes := []
  peerBlockCheckInfo := ∅
  stalePeers := ∅
  maliciousPeers := []
  blocksSynced := 0
  lastLocatedHash := none
  locateErrCh := none
  locateDoneCh := false
  checkErrCh := none
  checkOkCh := 0
  blocksDoneCh := 0
  blocksErrCh := []
  log := ⟨[], [], [], [], []⟩

variable (sm : SyncManager)

def drainCheckChan : SyncManager := { sm with checkErrCh := none, checkOkCh := 0 }

def drainBlocksChan : SyncManager := { sm with blocksDoneCh := 0, blocksErrCh := [] }

def verifyPeerStatus (status : PeerStatus) (pid : PeerID) (sm : SyncManager) : Bool :=
  sm.stalePeers.lookup pid == some status

def reset : SyncManager :=
  drainBlocksChan <| drainCheckChan { sm with
    checkNum := 0
    checkRootHash := zeroHash
    fetchHashes := []
    peerBlockCheckInfo := ∅
    blocksSynced := 0
    locateErrCh := none
    locateDoneCh := false
    log := ⟨sm.stalePeers.keys.filter fun pid => sm.verifyPeerStatus .checked pid || sm.verifyPeerStatus .checkedDone pid,
      [], [], [], []⟩ }

/-- A new round of the loop of `startSync`. -/
def restart : SyncManager := { sm.reset with status := .locate, phase := .restarting }

/-- `startSync` returns, after `resetAll`. -/
def leave : SyncManager := { sm.reset with status := .free, stalePeers := ∅, phase := .ended }

def setPeer (pid : PeerID) (status : PeerStatus) (sm : SyncManager) : SyncManager :=
  { sm with stalePeers := sm.stalePeers.insert pid status }

def setTimeoutPeersErrStatus (status : PeerStatus) (sm : SyncManager) : SyncManager :=
  { sm with
    stalePeers := sm.stalePeers.entries.foldl (fun peers entry =>
      if entry.2 = status then peers.insert entry.1 .err else peers) sm.stalePeers }

/-- The results that `pickOnePeer` can have: a peer that located or checked, if blocks are
wanted; a new peer; or any peer that made no error. -/
def pickable (wanted : SyncStatus) (conns : List (PeerID × Bool)) (sm : SyncManager) : List PeerID :=
  let synced := (conns.filter (·.2)).map (·.1) |>.filter (· ∉ sm.maliciousPeers)
  let preferred := synced.filter fun pid =>
    wanted == .blocks && (sm.verifyPeerStatus .locateDone pid || sm.verifyPeerStatus .checkedDone pid)
  let fresh := synced.filter fun pid => (sm.stalePeers.lookup pid).isNone
  if preferred ≠ [] then preferred
  else if fresh ≠ [] then fresh
  else synced.filter fun pid => !sm.verifyPeerStatus .err pid

def checkPass : Bool := maxCheckPeers ≤ sm.checkNum

def completed : Bool := sm.fetchHashes.length ≤ sm.blocksSynced

def moreSync : Bool := maxBlocksPerSync ≤ sm.fetchHashes.length

def chunk (hashes : List HashType) (idx : Nat) : List HashType :=
  (hashes.drop (idx * syncBlockChunkSize)).take syncBlockChunkSize

/-- The request for a chunk and what its blocks are checked with, in `fetchAllBlocks`. -/
def newFetchBlockHeaders (hashes : List HashType) (idx : Nat) : FetchBlockHeaders :=
  ⟨idx, hashes.getD (idx * syncBlockChunkSize) zeroHash, (chunk hashes idx).length⟩

def newBlockCheckInfo (hashes : List HashType) (idx : Nat) : BlockCheckInfo :=
  ⟨env.rootHash (chunk hashes idx), newFetchBlockHeaders hashes idx⟩

/-- The loop of `fetchAllBlocks`, from a chunk on. -/
def fetchFrom (idx : Nat) (sm : SyncManager) : SyncManager :=
  if idx * syncBlockChunkSize < sm.fetchHashes.length then
    { sm with phase := .sending (newFetchBlockHeaders sm.fetchHashes idx) 0 .nextChunk }
  else { sm with phase := .waiting }

/-- A request could not be sent, in `fetchRemoteBlocksWithRetry`. -/
def retry (fbh : FetchBlockHeaders) (tries : Nat) (resumption : Resumption) (sm : SyncManager) : SyncManager :=
  if tries + 1 < retryTimes then { sm with phase := .sending fbh (tries + 1) resumption } else sm.leave

/-- A request was sent. -/
def resume (fbh : FetchBlockHeaders) (pid : PeerID) : Resumption → Phase
  | .nextChunk => .recording fbh pid
  | .waiting => .waiting
  | .retrying => .retrying

/-- `checkBlocksAndClearInfo`: the request whose blocks are wrong, whether blocks are
accepted, and the check infos. -/
def checkBlocksAndClearInfo (sb : SyncBlocks) (pid : PeerID) (sm : SyncManager) :
    Option FetchBlockHeaders × Bool × Table PeerID (List (Option BlockCheckInfo)) :=
  let infos := sm.peerBlockCheckInfo
  let clear (checkInfos : List (Option BlockCheckInfo)) :=
    if checkInfos.all Option.isNone then infos.erase pid else infos.insert pid checkInfos
  match infos.lookup pid with
  | none => (none, false, infos)
  | some checkInfos =>
    let rootHash := env.rootHash (env.blockHashes sb)
    match checkInfos.findIdx? fun v => v.any fun info => info.fbh.idx == sb.idx with
    | none => (none, false, clear checkInfos)
    | some i =>
      match checkInfos[i]?.join with
      | none => (none, false, infos)
      | some info =>
        if rootHash ≠ info.rootHash then (some info.fbh, false, infos)
        else (none, true, clear (checkInfos.set i none))

/-- `tryPushErrFlagChan` into `locateErrCh` -/
def pushLocateErr (ef : ErrFlag) (sm : SyncManager) : SyncManager :=
  { sm with locateErrCh := sm.locateErrCh.or (some ef) }

/-- `tryPushErrFlagChan` into `checkErrCh` -/
def pushCheckErr (ef : ErrFlag) (sm : SyncManager) : SyncManager := { sm with checkErrCh := sm.checkErrCh.or (some ef) }

/-- `onLocateResponse`. The chain tells which blocks are known. There is no state after a
message that cannot be parsed: the line that logs it reads the first hash. -/
def onLocateResponse (pid : PeerID) (body : Option (List HashType)) (known : HashType → Bool) (sm : SyncManager) :
    Option SyncManager :=
  if sm.status ≠ .locate then some sm
  else if !sm.verifyPeerStatus .locate pid then some ((sm.setPeer pid .err).pushLocateErr .wrongPeerStatus)
  else match body with
    | none => none
    | some hashes =>
      if hashes = [zeroHash] then some ((sm.setPeer pid .err).pushLocateErr .unmarshal)
      else if hashes = [] then some ((sm.setPeer pid .err).pushLocateErr .noHash)
      else
        let fetchHashes := hashes.dropWhile known
        if fetchHashes = [] then some ({ sm with lastLocatedHash := hashes.getLast? }.pushLocateErr .noHash)
        else some { sm.setPeer pid .locateDone with
          fetchHashes, checkRootHash := env.rootHash fetchHashes, locateDoneCh := true }

def logReply (pid : PeerID) (body : Option HashType) (sm : SyncManager) : SyncManager :=
  { sm with log := { sm.log with replies := sm.log.replies ++ body.toList.map (pid, ·) } }

/-- `onCheckResponse`. The message may be one that cannot be parsed. -/
def onCheckResponse (pid : PeerID) (body : Option HashType) (sm : SyncManager) : SyncManager :=
  let expected := sm.verifyPeerStatus .checked pid || sm.verifyPeerStatus .checkedDone pid
  if sm.status ≠ .check then if !expected then sm.setPeer pid .err else sm
  else
    let sm := sm.logReply pid body
    if !expected then (sm.setPeer pid .err).pushCheckErr .wrongPeerStatus
    else if sm.checkNum > maxCheckPeers then (sm.setPeer pid .err).pushCheckErr .checkNumTooBig
    else match body with
      | none => (sm.setPeer pid .err).pushCheckErr .unmarshal
      | some rootHash =>
        if sm.checkRootHash ≠ rootHash then
          (sm.setPeer pid .err).pushCheckErr (if rootHash = zeroHash then .inSync else .rootHashMismatch)
        else { sm.setPeer pid .checkedDone with
          checkOkCh := min maxCheckPeers (sm.checkOkCh + 1)
          checkNum := sm.checkNum + 1 }

def onBlocksResponse (pid : PeerID) (body : Option SyncBlocks) (sm : SyncManager) : SyncManager :=
  if sm.status ≠ .blocks then sm
  else if !sm.verifyPeerStatus .blocks pid && !sm.verifyPeerStatus .blocksDone pid then sm.setPeer pid .err
  else match body with
    | none => sm.setPeer pid .err
    | some sb =>
      if sb.idx = maxUint32Idx then sm.setPeer pid .err
      else
        let maxChanLen := (sm.fetchHashes.length + syncBlockChunkSize - 1) / syncBlockChunkSize
        match checkBlocksAndClearInfo env sb pid sm with
        | (fbh, false, infos) =>
          let sm := { sm.setPeer pid .err with peerBlockCheckInfo := infos }
          if sm.blocksErrCh.length < min maxChanLen maxSyncChunks then
            { sm with blocksErrCh := sm.blocksErrCh ++ fbh.toList }
          else sm
        | (_, true, infos) =>
          let sm := { sm with
            peerBlockCheckInfo := infos
            log := { sm.log with accepted := sm.log.accepted ++ [(sb.idx, env.blockHashes sb)] } }
          if maxChanLen ≤ sm.blocksDoneCh then sm.setPeer pid .err
          else { sm.setPeer pid .blocksDone with
            blocksSynced := sm.blocksSynced + sb.blocks.length
            blocksDoneCh := min maxSyncChunks (sm.blocksDoneCh + 1) }

/-- What can happen next: a step of `startSync`, with the connections, the peer it picks and
whether the message can be sent; or a message. -/
inductive Action where
  | startSync
  | giveUp
  | closing
  | locateHashes (conns : List (PeerID × Bool)) (pid : PeerID) (sent : Bool)
  | locateFailed
  | locateDone
  | locateError
  | locateTimeout
  | pickChecker (conns : List (PeerID × Bool)) (pid : PeerID)
  | noChecker (conns : List (PeerID × Bool))
  | sendCheck (sent : Bool)
  | checkOk
  | checkError
  | checkTimeout
  | fetch (conns : List (PeerID × Bool)) (pid : PeerID) (sent : Bool)
  | noFetcher (conns : List (PeerID × Bool))
  | record
  | blocksDone
  | blocksError
  | blocksTimeout
  | retryEntry (pid : PeerID) (i : Nat)
  | retryDone
  | processed (ok : Bool)
  | processFailed (pid : PeerID)
  | onLocateResponse (pid : PeerID) (body : Option (List HashType)) (known : HashType → Bool)
  | onCheckResponse (pid : PeerID) (body : Option HashType)
  | onBlocksResponse (pid : PeerID) (body : Option SyncBlocks)

def step : Action → SyncManager → Option SyncManager
  | .startSync, sm => if sm.phase = .ended then some sm.restart else none
  | .giveUp, sm => if sm.phase = .restarting then some sm.leave else none
  | .closing, sm =>
    if sm.phase = .locating ∨ sm.phase = .checking ∨ sm.phase = .waiting then some sm.leave else none
  | .locateHashes conns pid sent, sm =>
    if sm.phase = .restarting ∧ pid ∈ sm.pickable .locate conns then
      let sm := sm.setPeer pid .locate
      some (if sent then { sm with phase := .locating } else sm.restart)
    else none
  -- There is no peer to pick, or the locator of the chain cannot be read.
  | .locateFailed, sm => if sm.phase = .restarting then some sm.restart else none
  | .locateDone, sm =>
    if sm.phase = .locating ∧ sm.locateDoneCh then
      some { sm.drainCheckChan with
        locateDoneCh := false, lastLocatedHash := none, status := .check, phase := .asking maxCheckPeers [] }
    else none
  | .locateError, sm =>
    if sm.phase = .locating then sm.locateErrCh.map fun ef =>
      if ef = .noHash ∧ sm.lastLocatedHash = none then sm.leave else sm.restart
    else none
  | .locateTimeout, sm => if sm.phase = .locating then some (sm.setTimeoutPeersErrStatus .locate).restart else none
  | .pickChecker conns pid, sm =>
    match sm.phase with
    | .asking (checkTimes + 1) peers =>
      if pid ∈ sm.pickable .check conns then
        some { sm.setPeer pid .checked with phase := .asking checkTimes (peers ++ [pid]) }
      else none
    | _ => none
  | .noChecker conns, sm =>
    match sm.phase with
    | .asking (_ + 1) _ => if sm.pickable .check conns = [] then some sm.restart else none
    | _ => none
  | .sendCheck sent, sm =>
    match sm.phase with
    | .asking 0 (pid :: peers) =>
      some (if sent then
        { sm with
          log := { sm.log with asked := sm.log.asked ++ [pid] }
          phase := if peers = [] then .checking else .asking 0 peers }
      else sm.restart)
    | _ => none
  | .checkOk, sm =>
    if sm.phase = .checking ∧ 0 < sm.checkOkCh then
      let sm := { sm with checkOkCh := sm.checkOkCh - 1 }
      some (if sm.checkPass then { sm.drainBlocksChan with status := .blocks }.fetchFrom 0 else sm)
    else none
  | .checkError, sm =>
    if sm.phase = .checking then sm.checkErrCh.map fun ef =>
      if ef = .rootHashMismatch then sm.restart else { sm with checkErrCh := none, phase := .asking 1 [] }
    else none
  | .checkTimeout, sm => if sm.phase = .checking then some (sm.setTimeoutPeersErrStatus .checked).restart else none
  | .fetch conns pid sent, sm =>
    match sm.phase with
    | .sending fbh tries resumption =>
      if pid ∈ sm.pickable .blocks conns then
        let sm := sm.setPeer pid .blocks
        some (if sent then
          { sm with
            log := { sm.log with requests := sm.log.requests ++ [(fbh.idx, pid)] }
            phase := resume fbh pid resumption }
        else sm.retry fbh tries resumption)
      else none
    | _ => none
  | .noFetcher conns, sm =>
    match sm.phase with
    | .sending fbh tries resumption => if sm.pickable .blocks conns = [] then some (sm.retry fbh tries resumption) else none
    | _ => none
  | .record, sm =>
    match sm.phase with
    | .recording fbh pid =>
      let checkInfos := (sm.peerBlockCheckInfo.lookup pid).getD []
      some (fetchFrom (fbh.idx + 1) { sm with
        peerBlockCheckInfo :=
          sm.peerBlockCheckInfo.insert pid (checkInfos ++ [some ⟨env.rootHash (chunk sm.fetchHashes fbh.idx), fbh⟩]) })
    | _ => none
  | .blocksDone, sm =>
    if sm.phase = .waiting ∧ 0 < sm.blocksDoneCh then
      let sm := { sm with blocksDoneCh := sm.blocksDoneCh - 1 }
      some (if sm.completed then { sm with phase := .finishing } else sm)
    else none
  | .blocksError, sm =>
    match sm.phase, sm.blocksErrCh with
    | .waiting, fbh :: rest => some { sm with blocksErrCh := rest, phase := .sending fbh 0 .waiting }
    | _, _ => none
  | .blocksTimeout, sm =>
    if sm.phase = .waiting then some { sm.setTimeoutPeersErrStatus .blocks with phase := .retrying } else none
  | .retryEntry pid i, sm =>
    if sm.phase = .retrying then
      ((sm.peerBlockCheckInfo.lookup pid).bind fun infos => infos[i]?.join).map fun info =>
        { sm with phase := .sending info.fbh 0 .retrying }
    else none
  | .retryDone, sm => if sm.phase = .retrying then some { sm with phase := .waiting } else none
  | .processed ok, sm => if sm.phase = .finishing then some (if ok ∧ sm.moreSync then sm.restart else sm.leave) else none
  | .processFailed pid, sm => some { sm with maliciousPeers := pid :: sm.maliciousPeers }
  | .onLocateResponse pid body known, sm => onLocateResponse env pid body known sm
  | .onCheckResponse pid body, sm => some (onCheckResponse pid body sm)
  | .onBlocksResponse pid body, sm => some (onBlocksResponse env pid body sm)

end SyncManager
end Boxd
