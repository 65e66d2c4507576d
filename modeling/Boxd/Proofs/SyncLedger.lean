import Boxd.BlockSync
import Mathlib.Data.List.ReduceOption

/-! What a round of the block sync has on record: each requested chunk is either held by one
check info, under the peer that was asked first, or was accepted once, with blocks that have
its root. Replies are counted from known peers only. -/

namespace Boxd.SyncManager
open Lib List Option Nat AList

variable {pid : PeerID} {infos : Table PeerID (List (Option BlockCheckInfo))}

variable {env : SyncEnv}

/-- The part of the state that a round keeps its records in. -/
structure Ledger where
  hashes : List HashType
  root : HashType
  infos : Table PeerID (List (Option BlockCheckInfo))
  requests : List (Nat × PeerID)
  accepted : List (Nat × List HashType)
  synced : Nat

def ledger (sm : SyncManager) : Ledger :=
  ⟨sm.fetchHashes, sm.checkRootHash, sm.peerBlockCheckInfo, sm.log.requests, sm.log.accepted, sm.blocksSynced⟩

def chunkCount (hashes : List HashType) : Nat := (hashes.length + syncBlockChunkSize - 1) / syncBlockChunkSize

/-- How many chunks have a check info, or had one. -/
def recorded (hashes : List HashType) : Phase → Nat
  | .sending fbh _ .nextChunk => fbh.idx
  | .recording fbh _ => fbh.idx
  | .sending _ _ _ => chunkCount hashes
  | .waiting => chunkCount hashes
  | .retrying => chunkCount hashes
  | .finishing => chunkCount hashes
  | _ => 0

def requested (hashes : List HashType) : Phase → Nat
  | .recording fbh _ => fbh.idx + 1
  | phase => recorded hashes phase

def firstAsked (requests : List (Nat × PeerID)) (idx : Nat) : Option PeerID :=
  (requests.find? fun request => request.1 = idx).map (·.2)

def heldBy (infos : Table PeerID (List (Option BlockCheckInfo))) (pid : PeerID) : List BlockCheckInfo :=
  ((infos.lookup pid).getD []).reduceOption

structure Books (env : SyncEnv) (book : Ledger) (recorded requested : Nat) : Prop where
  root : book.root = env.rootHash book.hashes
  within : ∀ idx < recorded, idx * syncBlockChunkSize < book.hashes.length
  entry : ∀ pid, ∀ info ∈ heldBy book.infos pid, info = newBlockCheckInfo env book.hashes info.fbh.idx ∧
    info.fbh.idx < recorded ∧ info.fbh.idx ∉ book.accepted.map (·.1) ∧
    firstAsked book.requests info.fbh.idx = some pid
  once : ∀ pid, ((heldBy book.infos pid).map (·.fbh.idx)).Nodup
  held : ∀ idx < recorded, idx ∉ book.accepted.map (·.1) → ∃ pid, ∃ info ∈ heldBy book.infos pid, info.fbh.idx = idx
  accepted : ∀ response ∈ book.accepted,
    response.1 < recorded ∧ env.rootHash response.2 = env.rootHash (chunk book.hashes response.1)
  acceptedOnce : (book.accepted.map (·.1)).Nodup
  asked : ∀ request ∈ book.requests, request.1 < requested
  synced : book.synced ≤ (book.accepted.map (·.2.length)).sum

/-- What the goroutine knows of the request it is about to send or to record. -/
def InPhase (hashes : List HashType) (requests : List (Nat × PeerID)) : Phase → Prop
  | .sending fbh _ .nextChunk =>
    fbh = newFetchBlockHeaders hashes fbh.idx ∧ fbh.idx * syncBlockChunkSize < hashes.length
  | .sending fbh _ _ => fbh.idx < chunkCount hashes
  | .recording fbh pid => fbh = newFetchBlockHeaders hashes fbh.idx ∧
    fbh.idx * syncBlockChunkSize < hashes.length ∧ firstAsked requests fbh.idx = some pid
  | _ => True

/-- The peers that are picked to check and not asked yet. -/
def unsent : Phase → List PeerID
  | .asking _ peers => peers
  | _ => []

/-- A reply of the peer would be counted. -/
def Expects (peers : Table PeerID PeerStatus) (pid : PeerID) : Prop :=
  peers.lookup pid = some .checked ∨ peers.lookup pid = some .checkedDone

/-- Replies are expected from known peers only, and as many as were counted are from known peers. -/
structure Attributed (peers : Table PeerID PeerStatus) (known : List PeerID) (count : Nat) (root : HashType)
    (replies : List (PeerID × HashType)) : Prop where
  expected : ∀ pid, Expects peers pid → pid ∈ known
  counted : ∃ pids : List PeerID, pids.length = count ∧ pids.map (·, root) <+ replies ∧ pids ⊆ known

structure Tracked (env : SyncEnv) (sm : SyncManager) : Prop where
  books : Books env sm.ledger (recorded sm.fetchHashes sm.phase) (requested sm.fetchHashes sm.phase)
  located : sm.status = .locate → (sm.phase = .restarting ∨ sm.phase = .locating) ∧ sm.checkNum = 0
  inPhase : InPhase sm.fetchHashes sm.log.requests sm.phase
  errors : ∀ fbh ∈ sm.blocksErrCh, fbh.idx < recorded sm.fetchHashes sm.phase
  attributed : Attributed sm.stalePeers (sm.log.left ++ unsent sm.phase ++ sm.log.asked) sm.checkNum sm.checkRootHash
    sm.log.replies

section Attribution

variable {peers : Table PeerID PeerStatus} {status : PeerStatus} {known : List PeerID} {count : Nat} {root : HashType}
  {replies : List (PeerID × HashType)}

namespace Attributed

theorem fresh (expected : ∀ pid, Expects peers pid → pid ∈ known) : Attributed peers known 0 root replies :=
  ⟨expected, [], rfl, nil_sublist _, nil_subset _⟩

section
variable (attributed : Attributed peers known count root replies)
include attributed

theorem mark (pid : PeerID) (status : PeerStatus) (allowed : (status ≠ .checked ∧ status ≠ .checkedDone) ∨ pid ∈ known) :
    Attributed (peers.insert pid status) known count root replies := by
  refine ⟨fun other expects => ?_, attributed.counted⟩
  by_cases same : other = pid
  · rw [same, Expects, lookup_insert, some.injEq, some.injEq] at expects
    exact same ▸ allowed.resolve_left fun quiet => expects.elim quiet.1 quiet.2
  · rw [Expects, lookup_insert_ne same] at expects
    exact attributed.expected other expects

theorem know {more : List PeerID} (grows : known ⊆ more) : Attributed peers more count root replies := by
  obtain ⟨pids, length, listed, among⟩ := attributed.counted
  exact ⟨fun pid expects => grows (attributed.expected pid expects), pids, length, listed, fun _ member => grows (among member)⟩

theorem reply (more : List (PeerID × HashType)) : Attributed peers known count root (replies ++ more) := by
  obtain ⟨pids, length, listed, among⟩ := attributed.counted
  exact ⟨attributed.expected, pids, length, listed.trans (sublist_append_left _ _), among⟩

theorem confirm (expects : Expects peers pid) :
    Attributed (peers.insert pid .checkedDone) known (count + 1) root (replies ++ [(pid, root)]) := by
  have member := attributed.expected pid expects
  obtain ⟨pids, length, listed, among⟩ := attributed.counted
  refine ⟨(attributed.mark pid .checkedDone (.inr member)).expected, pids ++ [pid], by rw [length_append, length]; rfl, ?_, ?_⟩
  · rw [map_append]
    exact listed.append (.refl _)
  · exact append_subset.mpr ⟨among, cons_subset.mpr ⟨member, nil_subset _⟩⟩

end

theorem timeout {entries : List (Sigma fun _ : PeerID => PeerStatus)}
    (attributed : Attributed peers known count root replies) :
    Attributed (entries.foldl (fun peers entry => if entry.2 = status then peers.insert entry.1 .err else peers) peers)
      known count root replies := by
  induction entries generalizing peers with
  | nil => exact attributed
  | cons entry rest next =>
    rw [foldl_cons]
    split
    · exact next (attributed.mark _ .err (.inl (by decide)))
    · exact next attributed

end Attributed

end Attribution

section Held

variable {infos : Table PeerID (List (Option BlockCheckInfo))}

theorem heldBy_insert (pid other : PeerID) (checkInfos : List (Option BlockCheckInfo)) :
    heldBy (infos.insert pid checkInfos) other =
      if other = pid then checkInfos.reduceOption else heldBy infos other := by
  unfold heldBy
  split
  · next same => rw [same, lookup_insert, getD_some]
  · next differ => rw [lookup_insert_ne differ]

theorem heldBy_erase (pid other : PeerID) :
    heldBy (infos.erase pid) other = if other = pid then [] else heldBy infos other := by
  unfold heldBy
  split
  · next same =>
    rw [same, lookup_erase]
    rfl
  · next differ => rw [lookup_erase_ne differ]

theorem reduceOption_eq_nil {α : Type*} {values : List (Option α)} (missing : values.all isNone) :
    values.reduceOption = [] := by
  induction values with
  | nil => rfl
  | cons value rest next =>
    obtain ⟨none_, rest⟩ := Bool.and_eq_true_iff.mp (all_cons ▸ missing)
    rw [isNone_iff_eq_none.mp none_, reduceOption_cons_of_none, next rest]

/-- A list of check infos without any is dropped; nothing is lost by that. -/
theorem heldBy_clear (pid other : PeerID) (checkInfos : List (Option BlockCheckInfo)) :
    heldBy (if checkInfos.all isNone then infos.erase pid else infos.insert pid checkInfos) other =
      if other = pid then checkInfos.reduceOption else heldBy infos other := by
  split
  · next missing => rw [heldBy_erase, reduceOption_eq_nil missing]
  · exact heldBy_insert pid other checkInfos

theorem reduceOption_set_none {α : Type*} {values : List (Option α)} {i : Nat} {value : α}
    (held : values[i]? = some (some value)) : values.reduceOption.Perm (value :: (values.set i none).reduceOption) := by
  have before := (perm_cons_eraseIdx held).filterMap id
  have after := (perm_set_eraseIdx held none).filterMap id
  exact before.trans (after.symm.cons value)

end Held

/-- The two results of checking a response. Either nothing that is held changes, and the
returned request is of an info that is held; or one info with the index and the root of the
response is taken away. -/
inductive Checked (env : SyncEnv) (sb : SyncBlocks) (pid : PeerID) (sm : SyncManager) :
    Option FetchBlockHeaders × Bool × Table PeerID (List (Option BlockCheckInfo)) → Prop where
  | failed {fbh : Option FetchBlockHeaders} {infos : Table PeerID (List (Option BlockCheckInfo))}
      (same : ∀ other, heldBy infos other = heldBy sm.peerBlockCheckInfo other)
      (known : ∀ request ∈ fbh, ∃ info ∈ heldBy sm.peerBlockCheckInfo pid, info.fbh = request) :
      Checked env sb pid sm (fbh, false, infos)
  | accepted {info : BlockCheckInfo} {infos : Table PeerID (List (Option BlockCheckInfo))}
      (idx : info.fbh.idx = sb.idx) (root : env.rootHash (env.blockHashes sb) = info.rootHash)
      (taken : (heldBy sm.peerBlockCheckInfo pid).Perm (info :: heldBy infos pid))
      (others : ∀ other, other ≠ pid → heldBy infos other = heldBy sm.peerBlockCheckInfo other) :
      Checked env sb pid sm (none, true, infos)

theorem checkBlocksAndClearInfo_checked (sb : SyncBlocks) (pid : PeerID) (sm : SyncManager) :
    Checked env sb pid sm (checkBlocksAndClearInfo env sb pid sm) := by
  unfold checkBlocksAndClearInfo
  simp only
  split
  · exact .failed (fun _ => rfl) (fun _ absent => by cases absent)
  · next checkInfos looked =>
    have own : heldBy sm.peerBlockCheckInfo pid = checkInfos.reduceOption := by rw [heldBy, looked, getD_some]
    split
    · refine .failed (fun other => ?_) (fun _ absent => by cases absent)
      rw [heldBy_clear]
      split
      · next same => rw [same, own]
      · rfl
    · next i found =>
      obtain ⟨inside, matching, -⟩ := findIdx?_eq_some_iff_getElem.mp found
      obtain ⟨info, at_, idx⟩ : ∃ info, checkInfos[i] = some info ∧ (info.fbh.idx == sb.idx) = true := by
        cases at_ : checkInfos[i] with
        | none => simp [at_] at matching
        | some info => exact ⟨info, rfl, by simpa [at_] using matching⟩
      have listed : checkInfos[i]? = some (some info) := by rw [getElem?_eq_getElem inside, at_]
      simp only [listed, join_some]
      split
      · refine .failed (fun _ => rfl) ?_
        intro request returned
        cases returned
        refine ⟨info, ?_, rfl⟩
        rw [own, reduceOption_mem_iff]
        exact mem_of_getElem? listed
      · next same =>
        refine .accepted (beq_iff_eq.mp idx) (not_not.mp same) ?_ ?_
        · rw [heldBy_clear, if_pos rfl, own]
          exact reduceOption_set_none listed
        · intro other differ
          rw [heldBy_clear, if_neg differ]

section Requests

variable {requests : List (Nat × PeerID)} {idx : Nat} {pid : PeerID}

theorem firstAsked_append (asked : firstAsked requests idx = some pid) (request : Nat × PeerID) :
    firstAsked (requests ++ [request]) idx = some pid := by
  obtain ⟨first, found, rfl⟩ := map_eq_some_iff.mp asked
  rw [firstAsked, find?_append, found, some_or, map_some]

theorem firstAsked_new (fresh : ∀ request ∈ requests, request.1 < idx) :
    firstAsked (requests ++ [(idx, pid)]) idx = some pid := by
  have unasked : requests.find? (fun request => request.1 = idx) = none := by
    rw [find?_eq_none]
    intro request member same
    exact absurd (fresh request member) (by simp only [decide_eq_true_eq] at same; omega)
  rw [firstAsked, find?_append, unasked, none_or]
  simp

end Requests

section Keeping

variable {book : Ledger} {recorded requested : Nat}

theorem Books.cleared : Books env ⟨[], zeroHash, ∅, [], [], 0⟩ 0 0 where
  root := by rw [SyncEnv.rootHash, merkleRoot_nil, getD_none]
  within := fun _ none_ => absurd none_ (not_lt_zero _)
  entry := fun _ _ held => by cases held
  once := fun _ => nodup_nil
  held := fun _ none_ => absurd none_ (not_lt_zero _)
  accepted := fun _ member => by cases member
  acceptedOnce := nodup_nil
  asked := fun _ member => by cases member
  synced := le_refl _

theorem Books.relocate (books : Books env book 0 0) (hashes : List HashType) :
    Books env { book with hashes, root := env.rootHash hashes } 0 0 where
  root := rfl
  within := fun _ none_ => absurd none_ (not_lt_zero _)
  entry := fun pid info held => absurd (books.entry pid info held).2.1 (not_lt_zero _)
  once := books.once
  held := fun _ none_ => absurd none_ (not_lt_zero _)
  accepted := fun response member => absurd (books.accepted response member).1 (not_lt_zero _)
  acceptedOnce := books.acceptedOnce
  asked := books.asked
  synced := books.synced

section
variable (books : Books env book recorded requested)
include books

theorem Books.request {idx : Nat} (pid : PeerID)
    {more : Nat} (below : idx < more) (grows : requested ≤ more) :
    Books env { book with requests := book.requests ++ [(idx, pid)] } recorded more :=
  { books with
    entry := by
      intro other info held
      obtain ⟨is, bound, open_, asked⟩ := books.entry other info held
      exact ⟨is, bound, open_, firstAsked_append asked _⟩
    asked := by
      intro request member
      rcases mem_append.mp member with earlier | last
      · exact lt_of_lt_of_le (books.asked request earlier) grows
      · rw [mem_singleton.mp last]
        exact below }

theorem Books.record (inside : recorded * syncBlockChunkSize < book.hashes.length)
    (asked : firstAsked book.requests recorded = some pid)
    (added : ∀ other, heldBy infos other = if other = pid
      then heldBy book.infos pid ++ [newBlockCheckInfo env book.hashes recorded] else heldBy book.infos other) :
    Books env { book with infos } (recorded + 1) requested where
  root := books.root
  within := by
    intro idx below
    rcases Nat.lt_succ_iff_lt_or_eq.mp below with before | rfl
    · exact books.within idx before
    · exact inside
  entry := by
    intro other info held
    rw [added] at held
    have old {pid : PeerID} (held : info ∈ heldBy book.infos pid) := books.entry pid info held
    split at held
    · next same =>
      subst same
      rcases mem_append.mp held with before | last
      · obtain ⟨is, bound, rest⟩ := old before
        exact ⟨is, lt_succ_of_lt bound, rest⟩
      · obtain rfl := mem_singleton.mp last
        refine ⟨rfl, lt_succ_self _, ?_, asked⟩
        intro accepted
        obtain ⟨response, member, same⟩ := mem_map.mp accepted
        have before := (books.accepted response member).1
        rw [same] at before
        exact lt_irrefl _ before
    · obtain ⟨is, bound, rest⟩ := old held
      exact ⟨is, lt_succ_of_lt bound, rest⟩
  once := by
    intro other
    rw [added]
    split
    · rw [map_append, nodup_append]
      refine ⟨books.once pid, nodup_singleton _, ?_⟩
      intro idx before last among same
      obtain ⟨info, held, rfl⟩ := mem_map.mp before
      have bound := (books.entry pid info held).2.1
      rw [same, mem_singleton.mp among] at bound
      exact lt_irrefl _ bound
    · exact books.once other
  held := by
    intro idx below unaccepted
    rcases Nat.lt_succ_iff_lt_or_eq.mp below with before | rfl
    · obtain ⟨other, info, held, same⟩ := books.held idx before unaccepted
      refine ⟨other, info, ?_, same⟩
      rw [added]
      split
      · next same => exact mem_append_left _ (same ▸ held)
      · exact held
    · refine ⟨pid, newBlockCheckInfo env book.hashes idx, ?_, rfl⟩
      rw [added, if_pos rfl]
      exact mem_append_right _ (mem_singleton_self _)
  accepted := by
    intro response member
    obtain ⟨bound, root⟩ := books.accepted response member
    exact ⟨lt_succ_of_lt bound, root⟩
  acceptedOnce := books.acceptedOnce
  asked := books.asked
  synced := books.synced

theorem Books.same_held (same : ∀ other, heldBy infos other = heldBy book.infos other) :
    Books env { book with infos } recorded requested :=
  { books with
    entry := fun pid info held => books.entry pid info (same pid ▸ held)
    once := fun pid => (same pid).symm ▸ books.once pid
    held := by
      intro idx below unaccepted
      obtain ⟨pid, info, held, is⟩ := books.held idx below unaccepted
      exact ⟨pid, info, (same pid).symm ▸ held, is⟩ }

theorem Books.accept {info : BlockCheckInfo}
    {hashes : List HashType}
    (root : env.rootHash hashes = info.rootHash)
    (taken : (heldBy book.infos pid).Perm (info :: heldBy infos pid))
    (others : ∀ other, other ≠ pid → heldBy infos other = heldBy book.infos other) {synced : Nat}
    (counted : synced ≤ book.synced + hashes.length) :
    Books env { book with infos, accepted := book.accepted ++ [(info.fbh.idx, hashes)], synced } recorded requested := by
  have mine : info ∈ heldBy book.infos pid := taken.mem_iff.mpr mem_cons_self
  obtain ⟨is, bound, open_, asked⟩ := books.entry pid info mine
  have onceTaken := (taken.map (·.fbh.idx)).nodup_iff.mp (books.once pid)
  rw [map_cons, nodup_cons] at onceTaken
  -- What is still held was held before, and is not of the chunk that was accepted.
  have still (other : PeerID) (left : BlockCheckInfo) (held : left ∈ heldBy infos other) :
      left ∈ heldBy book.infos other ∧ left.fbh.idx ≠ info.fbh.idx := by
    by_cases same : other = pid
    · subst same
      refine ⟨taken.mem_iff.mpr (mem_cons_of_mem _ held), ?_⟩
      intro equal
      exact onceTaken.1 (equal ▸ mem_map_of_mem held)
    · rw [others other same] at held
      refine ⟨held, ?_⟩
      intro equal
      have first := (books.entry other left held).2.2.2
      rw [equal, asked] at first
      exact same (some.inj first).symm
  have idxs : (book.accepted ++ [(info.fbh.idx, hashes)]).map (·.1) = book.accepted.map (·.1) ++ [info.fbh.idx] := by
    rw [map_append, map_singleton]
  constructor
  · exact books.root
  · exact books.within
  · intro other left held
    obtain ⟨before, differ⟩ := still other left held
    obtain ⟨is, bound, open_, asked⟩ := books.entry other left before
    refine ⟨is, bound, ?_, asked⟩
    simp only [idxs, mem_append, mem_singleton, not_or]
    exact ⟨open_, differ⟩
  · intro other
    by_cases same : other = pid
    · rw [same]
      exact onceTaken.2
    · simp only [others other same]
      exact books.once other
  · intro idx below unaccepted
    simp only [idxs, mem_append, mem_singleton, not_or] at unaccepted
    obtain ⟨other, left, held, same⟩ := books.held idx below unaccepted.1
    refine ⟨other, left, ?_, same⟩
    by_cases own : other = pid
    · subst own
      refine (mem_cons.mp (taken.mem_iff.mp held)).resolve_left ?_
      rintro rfl
      exact unaccepted.2 same.symm
    · simp only [others other own]
      exact held
  · intro response member
    rcases mem_append.mp member with before | last
    · exact books.accepted response before
    · rw [mem_singleton.mp last]
      refine ⟨bound, root.trans ?_⟩
      rw [is]
      rfl
  · rw [idxs, nodup_append]
    refine ⟨books.acceptedOnce, nodup_singleton _, ?_⟩
    intro idx before last among same
    rw [mem_singleton.mp among] at same
    exact open_ (same ▸ before)
  · exact books.asked
  · have before := books.synced
    simp only [map_append, List.sum_append, map_singleton, sum_singleton]
    omega

end

end Keeping

namespace Tracked

variable {sm : SyncManager}

theorem new : Tracked env new := ⟨.cleared, nofun, trivial, nofun, .fresh nofun⟩

theorem restart (sm : SyncManager) : Tracked env sm.restart := by
  refine ⟨.cleared, fun _ => ⟨.inl rfl, rfl⟩, trivial, nofun, .fresh fun pid expects => ?_⟩
  have listed : pid ∈ sm.stalePeers.keys := by
    rw [← AList.mem_keys, ← AList.lookup_isSome]
    rcases expects with found | found <;> exact isSome_of_mem found
  refine mem_append_left _ (mem_append_left _ (mem_filter.mpr ⟨listed, ?_⟩))
  simpa [verifyPeerStatus] using (id expects : sm.stalePeers.lookup pid = _ ∨ sm.stalePeers.lookup pid = _)

theorem leave (sm : SyncManager) : Tracked env sm.leave := ⟨.cleared, nofun, trivial, nofun, .fresh nofun⟩

section
variable (tracked : Tracked env sm)
include tracked

theorem at_phase {phase : Phase} (at_ : sm.phase = phase) :
    Books env sm.ledger (recorded sm.fetchHashes phase) (requested sm.fetchHashes phase) ∧
      InPhase sm.fetchHashes sm.log.requests phase ∧
      (∀ fbh ∈ sm.blocksErrCh, fbh.idx < recorded sm.fetchHashes phase) ∧
      Attributed sm.stalePeers (sm.log.left ++ unsent phase ++ sm.log.asked) sm.checkNum sm.checkRootHash sm.log.replies ∧
      (phase ≠ .restarting ∧ phase ≠ .locating → sm.status ≠ .locate) := by
  subst at_
  refine ⟨tracked.books, tracked.inPhase, tracked.errors, tracked.attributed, ?_⟩
  intro later locating
  exact (tracked.located locating).1.elim later.1 later.2

theorem marked (pid : PeerID) (status : PeerStatus) (quiet : status ≠ .checked ∧ status ≠ .checkedDone) :
    Tracked env (sm.setPeer pid status) :=
  { tracked with attributed := tracked.attributed.mark pid status (.inl quiet) }

omit tracked in
/-- The loop of `fetchAllBlocks` goes on with a chunk, or all chunks are requested. -/
theorem fetchFrom {idx : Nat} (books : Books env sm.ledger idx idx) (status : sm.status ≠ .locate)
    (errors : ∀ fbh ∈ sm.blocksErrCh, fbh.idx < idx) (attributed : Attributed sm.stalePeers
      (sm.log.left ++ [] ++ sm.log.asked) sm.checkNum sm.checkRootHash sm.log.replies) : Tracked env (sm.fetchFrom idx) := by
  unfold SyncManager.fetchFrom
  split
  · next more => exact ⟨books, status.elim, ⟨rfl, more⟩, errors, attributed⟩
  · next done =>
    have all : chunkCount sm.fetchHashes = idx := by
      have last : idx = 0 ∨ (idx - 1) * syncBlockChunkSize < sm.fetchHashes.length := by
        rcases Nat.eq_zero_or_pos idx with none_ | some_
        · exact .inl none_
        · exact .inr (books.within (idx - 1) (by omega))
      simp only [chunkCount, syncBlockChunkSize] at done last ⊢
      omega
    refine ⟨?_, status.elim, trivial, ?_, attributed⟩
    · show Books env sm.ledger (chunkCount sm.fetchHashes) (chunkCount sm.fetchHashes)
      rw [all]
      exact books
    · show ∀ fbh ∈ sm.blocksErrCh, fbh.idx < chunkCount sm.fetchHashes
      rw [all]
      exact errors

section
variable {fbh : FetchBlockHeaders} {tries : Nat} {resumption : Resumption} (at_ : sm.phase = .sending fbh tries resumption)
include at_

theorem retry : Tracked env (sm.retry fbh tries resumption) := by
  obtain ⟨books, inPhase, errors, attributed, status⟩ := tracked.at_phase at_
  have unlocated : sm.status ≠ .locate := status (by simp)
  unfold SyncManager.retry
  split
  · cases resumption <;> exact ⟨books, unlocated.elim, inPhase, errors, attributed⟩
  · exact leave sm

theorem sent (pid : PeerID) : Tracked env { sm with
      log := { sm.log with requests := sm.log.requests ++ [(fbh.idx, pid)] }
      phase := resume fbh pid resumption } := by
  obtain ⟨books, inPhase, errors, attributed, status⟩ := tracked.at_phase at_
  have unlocated : sm.status ≠ .locate := status (by simp)
  cases resumption with
  | nextChunk =>
    obtain ⟨is, inside⟩ := inPhase
    exact ⟨books.request pid (lt_succ_self _) (le_succ _), unlocated.elim,
      ⟨is, inside, firstAsked_new books.asked⟩, errors, attributed⟩
  | waiting =>
    exact ⟨books.request pid inPhase (le_refl _), unlocated.elim, trivial, errors, attributed⟩
  | retrying =>
    exact ⟨books.request pid inPhase (le_refl _), unlocated.elim, trivial, errors, attributed⟩

end

theorem record {fbh : FetchBlockHeaders} (at_ : sm.phase = .recording fbh pid) :
    Tracked env (.fetchFrom (fbh.idx + 1) { sm with
      peerBlockCheckInfo := sm.peerBlockCheckInfo.insert pid
        ((sm.peerBlockCheckInfo.lookup pid).getD [] ++
          [some ⟨env.rootHash (chunk sm.fetchHashes fbh.idx), fbh⟩]) }) := by
  obtain ⟨books, ⟨is, inside, asked⟩, errors, attributed, status⟩ := tracked.at_phase at_
  refine fetchFrom (books.record inside asked ?_) (status (by simp)) ?_ attributed
  · intro other
    rw [heldBy_insert]
    split
    · rw [reduceOption_append, reduceOption_singleton]
      show heldBy sm.peerBlockCheckInfo pid ++ [⟨env.rootHash (chunk sm.fetchHashes fbh.idx), fbh⟩] =
        heldBy sm.peerBlockCheckInfo pid ++ [newBlockCheckInfo env sm.fetchHashes fbh.idx]
      rw [newBlockCheckInfo, ← is]
    · rfl
  · exact fun request queued => lt_succ_of_lt (errors request queued)

theorem onLocateResponse {body : Option (List HashType)}
    {known : HashType → Bool} {after : SyncManager} (handled : onLocateResponse env pid body known sm = some after) :
    Tracked env after := by
  unfold SyncManager.onLocateResponse at handled
  split at handled
  · cases handled
    exact tracked
  · next locating =>
    obtain ⟨early, none_⟩ := tracked.located (not_not.mp locating)
    have failed (ef : ErrFlag) : Tracked env ((sm.setPeer pid .err).pushLocateErr ef) :=
      { tracked.marked pid .err (by decide) with }
    split at handled
    · cases handled
      exact failed _
    · split at handled
      · cases handled
      · next hashes =>
        split at handled
        · cases handled
          exact failed _
        · split at handled
          · cases handled
            exact failed _
          · simp only at handled
            split at handled
            · cases handled
              exact { tracked with }
            · cases handled
              rcases early with at_ | at_ <;>
              · obtain ⟨books, inPhase, errors, -⟩ := tracked.at_phase at_
                refine ⟨?_, fun _ => ⟨by simp [setPeer, at_], none_⟩, ?_, ?_, ?_⟩
                · show Books env _ (recorded _ sm.phase) (requested _ sm.phase)
                  rw [at_]
                  exact books.relocate _
                · show InPhase _ _ sm.phase
                  rw [at_]
                  trivial
                · show ∀ fbh ∈ sm.blocksErrCh, fbh.idx < recorded _ sm.phase
                  rw [at_]
                  exact errors
                · show Attributed _ _ sm.checkNum _ _
                  rw [none_]
                  exact .fresh (tracked.attributed.mark pid .locateDone (.inl (by decide))).expected

theorem onCheckResponse (pid : PeerID) (body : Option HashType) : Tracked env (onCheckResponse pid body sm) := by
  unfold SyncManager.onCheckResponse
  have refused (ef : ErrFlag) : Tracked env (((sm.logReply pid body).setPeer pid .err).pushCheckErr ef) :=
    { tracked with attributed := (tracked.attributed.reply _).mark pid .err (.inl (by decide)) }
  simp only
  split
  · split
    · exact tracked.marked pid .err (by decide)
    · exact tracked
  · next checking =>
    have unlocated : sm.status ≠ .locate := by
      rw [not_not.mp checking]
      simp
    split
    · exact refused _
    · next expected =>
      have expects : Expects sm.stalePeers pid := by simpa [verifyPeerStatus, Expects, or_iff_not_imp_left] using expected
      split
      · exact refused _
      · split
        · exact refused _
        · split
          · exact refused _
          · next same =>
            obtain rfl : sm.checkRootHash = _ := not_not.mp same
            exact ⟨tracked.books, unlocated.elim, tracked.inPhase, tracked.errors,
              tracked.attributed.confirm expects⟩

theorem onBlocksResponse (pid : PeerID) (body : Option SyncBlocks) :
    Tracked env (onBlocksResponse env pid body sm) := by
  have failed : Tracked env (sm.setPeer pid .err) := tracked.marked pid .err (by decide)
  unfold SyncManager.onBlocksResponse
  split
  · exact tracked
  · split
    · exact failed
    · cases body with
      | none => exact failed
      | some sb =>
        simp only
        split
        · exact failed
        · have checked : Checked env sb pid sm _ := checkBlocksAndClearInfo_checked sb pid sm
          revert checked
          generalize checkBlocksAndClearInfo env sb pid sm = result
          intro checked
          cases checked with
          | failed same known =>
            have books := tracked.books.same_held same
            simp only
            split
            · refine ⟨books, tracked.located, tracked.inPhase, ?_, failed.attributed⟩
              intro request queued
              rcases mem_append.mp queued with before | last
              · exact tracked.errors request before
              · obtain ⟨info, held, rfl⟩ := known request (mem_toList.mp last)
                exact (tracked.books.entry pid info held).2.1
            · exact { failed with books }
          | accepted idx root taken others =>
            have books {synced : Nat} (counted : synced ≤ sm.blocksSynced + (env.blockHashes sb).length) :=
              idx ▸ tracked.books.accept root taken others counted
            simp only
            split
            · exact { failed with books := books (le_add_right _ _) }
            · refine { tracked.marked pid .blocksDone (by decide) with books := books ?_ }
              simp [SyncEnv.blockHashes]

end

theorem step {action : Action} {before after : SyncManager} (stepped : step env action before = some after)
    (tracked : Tracked env before) : Tracked env after := by
  cases action with
  | startSync | giveUp | closing | locateFailed | locateTimeout | checkTimeout =>
    obtain ⟨-, ⟨⟩⟩ := ite_none_right_eq_some.mp stepped
    first
      | exact restart _
      | exact leave _
  | locateHashes conns pid sent =>
    obtain ⟨⟨at_, -⟩, ⟨⟩⟩ := ite_none_right_eq_some.mp stepped
    obtain ⟨books, -, errors, attributed, -⟩ := tracked.at_phase at_
    split
    · refine ⟨books, ?_, trivial, errors, attributed.mark pid .locate (.inl (by decide))⟩
      intro locating
      exact ⟨.inr rfl, (tracked.located locating).2⟩
    · exact restart _
  | locateDone =>
    obtain ⟨⟨at_, -⟩, ⟨⟩⟩ := ite_none_right_eq_some.mp stepped
    obtain ⟨books, -, errors, attributed, -⟩ := tracked.at_phase at_
    exact ⟨books, nofun, trivial, errors, attributed⟩
  | locateError =>
    simp only [SyncManager.step, ite_none_right_eq_some, map_eq_some_iff] at stepped
    obtain ⟨-, ef, -, rfl⟩ := stepped
    split
    · exact leave _
    · exact restart _
  | pickChecker conns pid =>
    simp only [SyncManager.step] at stepped
    split at stepped
    · next checkTimes peers at_ =>
      obtain ⟨-, ⟨⟩⟩ := ite_none_right_eq_some.mp stepped
      obtain ⟨books, -, errors, attributed, status⟩ := tracked.at_phase at_
      refine ⟨books, (status (by simp)).elim, trivial, errors,
        (attributed.know fun other => ?_).mark pid .checked (.inr (by simp [unsent]))⟩
      simp only [unsent, setPeer, mem_append]
      tauto
    · cases stepped
  | noChecker conns =>
    simp only [SyncManager.step] at stepped
    split at stepped
    · obtain ⟨-, ⟨⟩⟩ := ite_none_right_eq_some.mp stepped
      exact restart _
    · cases stepped
  | sendCheck sent =>
    simp only [SyncManager.step] at stepped
    split at stepped
    · next pid peers at_ =>
      cases stepped
      obtain ⟨books, -, errors, attributed, status⟩ := tracked.at_phase at_
      have unlocated : before.status ≠ .locate := status (by simp)
      have moved (other : PeerID) : other ∈ before.log.left ++ (pid :: peers) ++ before.log.asked →
          other ∈ before.log.left ++ peers ++ (before.log.asked ++ [pid]) := by
        simp only [mem_append, mem_cons, not_mem_nil]
        tauto
      split
      · split
        · next last =>
          subst last
          exact ⟨books, unlocated.elim, trivial, errors, attributed.know moved⟩
        · exact ⟨books, unlocated.elim, trivial, errors, attributed.know moved⟩
      · exact restart _
    · cases stepped
  | checkOk =>
    obtain ⟨⟨at_, -⟩, ⟨⟩⟩ := ite_none_right_eq_some.mp stepped
    obtain ⟨books, -, -, attributed, -⟩ := tracked.at_phase at_
    split
    · exact fetchFrom books (by simp) (fun _ queued => by cases queued) attributed
    · exact { tracked with }
  | checkError =>
    simp only [SyncManager.step, ite_none_right_eq_some, map_eq_some_iff] at stepped
    obtain ⟨at_, ef, -, rfl⟩ := stepped
    obtain ⟨books, -, errors, attributed, status⟩ := tracked.at_phase at_
    split
    · exact restart _
    · exact ⟨books, (status (by simp)).elim, trivial, errors, attributed⟩
  | fetch conns pid sent =>
    simp only [SyncManager.step] at stepped
    split at stepped
    · next fbh tries resumption at_ =>
      obtain ⟨-, ⟨⟩⟩ := ite_none_right_eq_some.mp stepped
      have marked := tracked.marked pid .blocks (by decide)
      split
      · exact marked.sent at_ pid
      · exact marked.retry at_
    · cases stepped
  | noFetcher conns =>
    simp only [SyncManager.step] at stepped
    split at stepped
    · next fbh tries resumption at_ =>
      obtain ⟨-, ⟨⟩⟩ := ite_none_right_eq_some.mp stepped
      exact tracked.retry at_
    · cases stepped
  | record =>
    simp only [SyncManager.step] at stepped
    split at stepped
    · next fbh pid at_ =>
      cases stepped
      exact tracked.record at_
    · cases stepped
  | blocksDone =>
    obtain ⟨⟨at_, -⟩, ⟨⟩⟩ := ite_none_right_eq_some.mp stepped
    obtain ⟨books, -, errors, attributed, status⟩ := tracked.at_phase at_
    split
    · exact ⟨books, (status (by simp)).elim, trivial, errors, attributed⟩
    · exact { tracked with }
  | blocksError =>
    simp only [SyncManager.step] at stepped
    split at stepped
    · next fbh rest at_ queue =>
      cases stepped
      obtain ⟨books, -, errors, attributed, status⟩ := tracked.at_phase at_
      rw [queue] at errors
      exact ⟨books, (status (by simp)).elim, errors fbh mem_cons_self,
        fun request queued => errors request (mem_cons_of_mem _ queued), attributed⟩
    · cases stepped
  | blocksTimeout | retryDone =>
    obtain ⟨at_, ⟨⟩⟩ := ite_none_right_eq_some.mp stepped
    obtain ⟨books, -, errors, attributed, status⟩ := tracked.at_phase at_
    first
      | exact ⟨books, (status (by simp)).elim, trivial, errors, attributed.timeout⟩
      | exact ⟨books, (status (by simp)).elim, trivial, errors, attributed⟩
  | retryEntry pid i =>
    simp only [SyncManager.step, ite_none_right_eq_some, map_eq_some_iff, bind_eq_some_iff,
      join_eq_some_iff] at stepped
    obtain ⟨at_, info, ⟨infos, looked, listed⟩, rfl⟩ := stepped
    obtain ⟨books, -, errors, attributed, status⟩ := tracked.at_phase at_
    have held : info ∈ heldBy before.peerBlockCheckInfo pid := by
      rw [heldBy, looked, getD_some, reduceOption_mem_iff]
      exact mem_of_getElem? listed
    exact ⟨books, (status (by simp)).elim, (books.entry pid info held).2.1, errors,
      attributed⟩
  | processed ok =>
    obtain ⟨-, ⟨⟩⟩ := ite_none_right_eq_some.mp stepped
    split
    · exact restart _
    · exact leave _
  | processFailed pid =>
    cases stepped
    exact { tracked with }
  | onLocateResponse pid body known => exact tracked.onLocateResponse stepped
  | onCheckResponse pid body =>
    cases stepped
    exact tracked.onCheckResponse pid body
  | onBlocksResponse pid body =>
    cases stepped
    exact tracked.onBlocksResponse pid body

theorem reached (run : Reached (SyncManager.step env) SyncManager.new sm) : Tracked env sm :=
  run.invariant new fun _ _ _ stepped tracked => step stepped tracked

end Tracked

end Boxd.SyncManager
