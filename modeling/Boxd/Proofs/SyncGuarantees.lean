import Boxd.Proofs.SyncLedger
import Mathlib.Algebra.Order.BigOperators.Group.Finset
import Mathlib.Algebra.BigOperators.Group.Finset.Basic

/-! What a round of the block sync guarantees: how many peers confirm the located hashes,
which peer can answer for a chunk, and which blocks are accepted for it. -/

namespace Boxd.SyncManager
open Lib List

variable {env : SyncEnv} {sm : SyncManager}

section Samples

def numberHash (number : Nat) : HashType := ⟨(range 32).map fun i => UInt8.ofNat (number >>> (8 * i)), by simp⟩

/-- Blocks are told apart by their heights, and pairs of hashes by a short checksum. -/
def sampleSyncEnv : SyncEnv where
  crypto := ⟨Unit, Unit, fun _ => zeroAddressHash, fun _ _ => zeroAddressHash,
    fun bytes => numberHash (bytes.foldl (fun sum byte => (31 * sum + byte.toNat) % 65521) 65536),
    fun _ => none, fun _ => none, fun _ _ _ => false⟩
  blockHash header := numberHash header.height.toNat

def sampleConns : List (PeerID × Bool) := [("a", true), ("b", true), ("c", true)]

/-- The hashes of the first blocks after the genesis. -/
def sampleLocated (count : Nat) : List HashType := (range count).map fun i => numberHash (i + 1)

def sampleHeader (height : UInt32) : BlockHeader :=
  ⟨1, zeroHash, zeroHash, zeroHash, zeroHash, zeroHash, 0, 0, zeroHash, zeroHash, height, 0, zeroAddressHash, []⟩

def sampleBlocks (heights : List UInt32) : SyncBlocks := ⟨0, heights.map fun height => ⟨sampleHeader height, [], [], [], none⟩⟩

/-- One peer locates some hashes, and two others are asked to check them. -/
def askToCheck (count : Nat) : List Action :=
  [.startSync, .locateHashes sampleConns "a" true, .onLocateResponse "a" (some (sampleLocated count)) (fun _ => false),
    .locateDone, .pickChecker sampleConns "b", .pickChecker sampleConns "c", .sendCheck true, .sendCheck true]

def confirm (count : Nat) (pid : PeerID) : Action := .onCheckResponse pid (some (sampleSyncEnv.rootHash (sampleLocated count)))

/-- Both confirm them, and the first chunk is requested from the peer that located them. -/
def requestChunk (count : Nat) : List Action :=
  askToCheck count ++ [confirm count "b", confirm count "c", .checkOk, .fetch sampleConns "a" true, .record]

/-- It is not answered in time, and requested from a second peer. -/
def requestAgain : List Action := requestChunk 1 ++ [.blocksTimeout, .retryEntry "a" 0, .fetch sampleConns "b" true]

def after (actions : List Action) : SyncManager := (runActions (step sampleSyncEnv) actions new).getD new

theorem after_reached {actions : List Action} (runs : (runActions (step sampleSyncEnv) actions new).isSome) :
    Reached (step sampleSyncEnv) new (after actions) :=
  .of_runs runs

end Samples

/-- The peers of the replies with the root of the located hashes, in this round. -/
def confirming (sm : SyncManager) : List PeerID :=
  (sm.log.replies.filter fun reply => reply.2 = sm.checkRootHash).map (·.1)

/-- When no peer sends the root twice, and of the peers whose status was left from an earlier round
or that are still to be asked only those send it that were asked too, the check passes only with
enough different peers. A peer that replies again is counted again, and so is one that was asked in
an earlier round. -/
theorem located_confirmed_by_peers (run : Reached (step env) new sm) (once : sm.confirming.Nodup)
    (asked : ∀ pid ∈ sm.confirming, pid ∈ sm.log.left ∨ pid ∈ unsent sm.phase → pid ∈ sm.log.asked) (pass : sm.checkPass) :
    ∃ peers : List PeerID, peers.Nodup ∧ maxCheckPeers ≤ peers.length ∧
      ∀ pid ∈ peers, pid ∈ sm.log.asked ∧ (pid, env.rootHash sm.fetchHashes) ∈ sm.log.replies := by
  have tracked := Tracked.reached run
  obtain ⟨pids, count, listed, known⟩ := tracked.attributed.counted
  have confirmed : pids <+ sm.confirming := by
    have kept := (listed.filter fun reply => reply.2 = sm.checkRootHash).map Prod.fst
    rwa [filter_eq_self.mpr (by simp), map_map, show (Prod.fst ∘ fun pid => (pid, sm.checkRootHash)) = id from rfl,
      map_id] at kept
  refine ⟨pids, once.sublist confirmed, count ▸ of_decide_eq_true pass, fun pid member => ⟨?_, ?_⟩⟩
  · rcases mem_append.mp (known member) with other | done
    · exact asked pid (confirmed.subset member) (mem_append.mp other)
    · exact done
  · have root : sm.checkRootHash = env.rootHash sm.fetchHashes := tracked.books.root
    exact root ▸ listed.subset (mem_map_of_mem member)

/-- Two peers that were asked confirm one hash. -/
theorem two_peers_confirm : (after (askToCheck 1 ++ [confirm 1 "b", confirm 1 "c"])).checkPass ∧
      ∃ peers : List PeerID, peers.Nodup ∧ 2 ≤ peers.length ∧ ∀ pid ∈ peers, pid ∈ ["b", "c"] := by
  have pass : (after (askToCheck 1 ++ [confirm 1 "b", confirm 1 "c"])).checkPass := by decide +kernel
  have run : Reached (step sampleSyncEnv) new (after (askToCheck 1 ++ [confirm 1 "b", confirm 1 "c"])) :=
    after_reached (by decide +kernel)
  obtain ⟨peers, once, enough, replied⟩ := located_confirmed_by_peers run (by decide +kernel) (by decide +kernel) pass
  have asked : (after (askToCheck 1 ++ [confirm 1 "b", confirm 1 "c"])).log.asked = ["b", "c"] := by decide +kernel
  exact ⟨pass, peers, once, enough, fun pid member => asked ▸ (replied pid member).1⟩

/-- One of the two confirms twice, and the check passes. -/
theorem one_peer_confirms_twice :
    Reached (step sampleSyncEnv) new (after (askToCheck 1 ++ [confirm 1 "b", confirm 1 "b"])) ∧
      (after (askToCheck 1 ++ [confirm 1 "b", confirm 1 "b"])).checkPass ∧
      ∀ reply ∈ (after (askToCheck 1 ++ [confirm 1 "b", confirm 1 "b"])).log.replies, reply.1 = "b" :=
  ⟨after_reached (by decide +kernel), by decide +kernel, by decide +kernel⟩

section Outstanding

/-- The request for a chunk that was sent last, when no response was accepted. -/
def Outstanding (sm : SyncManager) (idx : Nat) (pid : PeerID) : Prop :=
  firstAsked sm.log.requests.reverse idx = some pid ∧ idx ∉ sm.log.accepted.map (·.1)

theorem Outstanding.requested {idx : Nat} {pid : PeerID} (outstanding : sm.Outstanding idx pid) : (idx, pid) ∈ sm.log.requests := by
  obtain ⟨request, found, rfl⟩ := Option.map_eq_some_iff.mp outstanding.1
  have same := find?_some found
  rw [← of_decide_eq_true same]
  exact mem_reverse.mp (mem_of_find?_eq_some found)

/-- A peer that holds the check info of a chunk can answer for it. -/
theorem accepts_chunk {recorded requested : Nat} (books : Books env sm.ledger recorded requested) {pid : PeerID}
    {info : BlockCheckInfo} (held : info ∈ heldBy sm.peerBlockCheckInfo pid) {sb : SyncBlocks}
    (idx : sb.idx = info.fbh.idx) (blocks : env.blockHashes sb = chunk sm.fetchHashes info.fbh.idx) :
    (checkBlocksAndClearInfo env sb pid sm).2.1 = true := by
  cases looked : sm.peerBlockCheckInfo.lookup pid with
  | none => simp [heldBy, looked] at held
  | some checkInfos =>
    rw [heldBy, looked, Option.getD_some, reduceOption_mem_iff] at held
    cases found : checkInfos.findIdx? fun v => v.any fun info => info.fbh.idx == sb.idx with
    | none =>
      have absent := findIdx?_eq_none_iff.mp found (some info) held
      simp [idx] at absent
    | some i =>
      obtain ⟨inside, matching, -⟩ := findIdx?_eq_some_iff_getElem.mp found
      cases at_ : checkInfos[i] with
      | none => simp [at_] at matching
      | some other =>
        have same : other.fbh.idx = info.fbh.idx := by simpa [at_, idx] using matching
        have listed : checkInfos[i]? = some (some other) := by rw [getElem?_eq_getElem inside, at_]
        have mine : other ∈ heldBy sm.peerBlockCheckInfo pid := by
          rw [heldBy, looked, Option.getD_some, reduceOption_mem_iff]
          exact mem_of_getElem? listed
        have root : other.rootHash = env.rootHash (env.blockHashes sb) := by
          rw [(books.entry pid other mine).1, same, blocks]
          rfl
        simp [checkBlocksAndClearInfo, looked, found, listed, root]

/-- An open request is on record with the peer that was asked last exactly when no other
peer was asked first and it is not being recorded just now: when it is sent again, the check
info does not move to the new peer. -/
theorem outstanding_recorded_iff (run : Reached (step env) new sm) : (∀ idx pid, sm.Outstanding idx pid →
      (∃ info ∈ heldBy sm.peerBlockCheckInfo pid, info.fbh.idx = idx) ∧
      ∀ sb : SyncBlocks, sb.idx = idx → env.blockHashes sb = chunk sm.fetchHashes idx →
        (checkBlocksAndClearInfo env sb pid sm).2.1 = true) ↔
    ∀ idx pid, sm.Outstanding idx pid →
      firstAsked sm.log.requests idx = some pid ∧ ∀ fbh, sm.phase = .recording fbh pid → fbh.idx ≠ idx := by
  have tracked := Tracked.reached run
  have books := tracked.books
  constructor
  · intro able idx pid outstanding
    obtain ⟨⟨info, held, rfl⟩, -⟩ := able idx pid outstanding
    obtain ⟨-, below, -, first⟩ := books.entry pid info held
    refine ⟨first, ?_⟩
    intro fbh at_ same
    rw [at_] at below
    exact Nat.lt_irrefl _ (same ▸ below)
  · intro kept idx pid outstanding
    obtain ⟨first, settled⟩ := kept idx pid outstanding
    have recorded : idx < recorded sm.fetchHashes sm.phase := by
      have sent := books.asked _ outstanding.requested
      unfold SyncManager.requested at sent
      split at sent
      · next fbh asked at_ =>
        obtain ⟨-, ⟨-, -, asking⟩, -⟩ := tracked.at_phase at_
        rcases Nat.lt_succ_iff_lt_or_eq.mp sent with before | same
        · rw [at_]
          exact before
        · rw [← same, first] at asking
          cases asking
          exact absurd same.symm (settled fbh at_)
      · exact sent
    obtain ⟨other, info, held, rfl⟩ := books.held idx recorded outstanding.2
    obtain rfl : pid = other := Option.some.inj (first.symm.trans (books.entry other info held).2.2.2)
    exact ⟨⟨info, held, rfl⟩, fun sb is blocks => accepts_chunk books held is blocks⟩

/-- The peer that was asked for the first chunk can answer. -/
theorem first_peer_can_answer : (after (requestChunk 1)).Outstanding 0 "a" ∧
      (checkBlocksAndClearInfo sampleSyncEnv (sampleBlocks [1]) "a" (after (requestChunk 1))).2.1 = true := by
  have outstanding : (after (requestChunk 1)).Outstanding 0 "a" := ⟨by decide +kernel, by decide +kernel⟩
  have requests : (after (requestChunk 1)).log.requests = [(0, "a")] := by decide +kernel
  have phase : (after (requestChunk 1)).phase = .waiting := by decide +kernel
  have run : Reached (step sampleSyncEnv) new (after (requestChunk 1)) := after_reached (by decide +kernel)
  refine ⟨outstanding, ((outstanding_recorded_iff run).mpr ?_ 0 "a" outstanding).2 _ rfl (by decide +kernel)⟩
  intro idx pid open_
  have asked := open_.requested
  rw [requests, mem_singleton] at asked
  cases asked
  rw [requests, phase]
  exact ⟨rfl, nofun⟩

/-- The first chunk is not answered in time and requested from a second peer. The answer
of that peer is refused. -/
theorem second_peer_cannot_answer : Reached (step sampleSyncEnv) new (after requestAgain) ∧
      (after requestAgain).Outstanding 0 "b" ∧
      heldBy (after requestAgain).peerBlockCheckInfo "b" = [] ∧
      sampleSyncEnv.blockHashes (sampleBlocks [1]) = chunk (sampleLocated 1) 0 ∧
      (checkBlocksAndClearInfo sampleSyncEnv (sampleBlocks [1]) "b" (after requestAgain)).2.1 = false :=
  ⟨after_reached (by decide +kernel), ⟨by decide +kernel, by decide +kernel⟩, by decide +kernel, by decide +kernel,
    by decide +kernel⟩

end Outstanding

section Chunks

variable {hashes : List HashType}

theorem chunk_length (hashes : List HashType) (idx : Nat) :
    (chunk hashes idx).length = min syncBlockChunkSize (hashes.length - idx * syncBlockChunkSize) := by
  rw [chunk, length_take, length_drop]

theorem sum_chunks (hashes : List HashType) (count : Nat) :
    ∑ idx ∈ Finset.range count, (chunk hashes idx).length = min (count * syncBlockChunkSize) hashes.length := by
  induction count with
  | zero => simp
  | succ count next =>
    rw [Finset.sum_range_succ, next, chunk_length]
    simp only [syncBlockChunkSize]
    omega

theorem exists_chunk {hash : HashType} (member : hash ∈ hashes) :
    ∃ idx, idx * syncBlockChunkSize < hashes.length ∧ hash ∈ chunk hashes idx := by
  obtain ⟨place, listed⟩ := mem_iff_getElem?.mp member
  have inside := (List.getElem?_eq_some_iff.mp listed).1
  have split : place / syncBlockChunkSize * syncBlockChunkSize + place % syncBlockChunkSize = place :=
    Nat.div_add_mod' place syncBlockChunkSize
  refine ⟨place / syncBlockChunkSize, by omega, ?_⟩
  refine mem_iff_getElem?.mpr ⟨place % syncBlockChunkSize, ?_⟩
  rw [chunk, getElem?_take_of_lt (Nat.mod_lt _ (by decide)), getElem?_drop, split, listed]

theorem chunk_ne_nil {idx : Nat} (inside : idx * syncBlockChunkSize < hashes.length) : chunk hashes idx ≠ [] := by
  rw [← length_pos_iff, chunk_length]
  simp only [syncBlockChunkSize] at inside ⊢
  omega

/-- Responses for different chunks, each as long as its chunk, that are as many as all
hashes together leave no chunk out. -/
theorem every_chunk_accepted {accepted : List (Nat × List HashType)} (once : (accepted.map (·.1)).Nodup)
    (inside : ∀ response ∈ accepted, response.1 * syncBlockChunkSize < hashes.length)
    (lengths : ∀ response ∈ accepted, response.2.length = (chunk hashes response.1).length)
    (all : hashes.length ≤ (accepted.map (·.2.length)).sum) {idx : Nat}
    (there : idx * syncBlockChunkSize < hashes.length) : idx ∈ accepted.map (·.1) := by
  by_contra missing
  have total : (accepted.map (·.2.length)).sum =
      ∑ idx ∈ (accepted.map (·.1)).toFinset, (chunk hashes idx).length := by
    rw [sum_toFinset _ once, map_map]
    exact congrArg sum (map_congr_left lengths)
  have less : ∑ idx ∈ (accepted.map (·.1)).toFinset, (chunk hashes idx).length <
      ∑ idx ∈ Finset.range hashes.length, (chunk hashes idx).length := by
    refine Finset.sum_lt_sum_of_subset (i := idx) ?_ ?_ ?_ ?_ (fun _ _ _ => Nat.zero_le _)
    · intro other among
      obtain ⟨response, member, rfl⟩ := mem_map.mp (mem_toFinset.mp among)
      have bound := inside response member
      simp only [syncBlockChunkSize] at bound
      exact Finset.mem_range.mpr (by omega)
    · simp only [syncBlockChunkSize] at there
      exact Finset.mem_range.mpr (by omega)
    · exact fun among => missing (mem_toFinset.mp among)
    · exact length_pos_iff.mpr (chunk_ne_nil there)
  have capped := sum_chunks hashes hashes.length
  omega

end Chunks

def rootPairs (env : SyncEnv) (hashes : List HashType) : Set (HashType × HashType) :=
  combinedPairs (combineHash env.crypto) (merkleHeight hashes.length) hashes

theorem rootHash_inj {left right : List HashType} {free : Set (HashType × HashType)}
    (injective : Set.InjOn (fun pair => combineHash env.crypto pair.1 pair.2) free)
    (leftFree : rootPairs env left ⊆ free) (rightFree : rootPairs env right ⊆ free) (present : right ≠ [])
    (length : left.length = right.length) (same : env.rootHash left = env.rootHash right) : left = right := by
  have some_ {hashes : List HashType} (present : hashes ≠ []) :
      merkleRoot (combineHash env.crypto) hashes = some (env.rootHash hashes) := by
    obtain ⟨top, root, -⟩ := merkleRoot_eq (combineHash env.crypto) present
    rw [SyncEnv.rootHash, root]
    rfl
  have filled : left ≠ [] := by
    rintro rfl
    exact present (eq_nil_of_length_eq_zero length.symm)
  apply merkleRoot_inj (combineHash env.crypto) injective length leftFree rightFree
  rw [some_ filled, some_ present, same]

/-- Where no pairs of hashes collide, the accepted responses are exactly the chunks, each
accepted once and all of them when the round is complete, if and only if every accepted
response has as many blocks as were asked for. -/
theorem accepts_chunks_iff (run : Reached (step env) new sm) {free : Set (HashType × HashType)}
    (injective : Set.InjOn (fun pair => combineHash env.crypto pair.1 pair.2) free)
    (covered : ∀ response ∈ sm.log.accepted,
      rootPairs env response.2 ⊆ free ∧ rootPairs env (chunk sm.fetchHashes response.1) ⊆ free) :
    ((∀ response ∈ sm.log.accepted, response.1 * syncBlockChunkSize < sm.fetchHashes.length ∧
        response.2 = chunk sm.fetchHashes response.1) ∧
      (sm.log.accepted.map (·.1)).Nodup ∧
      (sm.completed → ∀ hash ∈ sm.fetchHashes, ∃ response ∈ sm.log.accepted, hash ∈ response.2)) ↔
    ∀ response ∈ sm.log.accepted, response.2.length = (chunk sm.fetchHashes response.1).length := by
  have books := (Tracked.reached run).books
  have inside (response) (member : response ∈ sm.log.accepted) :
      response.1 * syncBlockChunkSize < sm.fetchHashes.length :=
    books.within _ (books.accepted response member).1
  constructor
  · rintro ⟨exactly, -⟩ response member
    rw [(exactly response member).2]
  · intro lengths
    have exactly (response) (member : response ∈ sm.log.accepted) : response.2 = chunk sm.fetchHashes response.1 := by
      obtain ⟨leftFree, rightFree⟩ := covered response member
      exact rootHash_inj injective leftFree rightFree (chunk_ne_nil (inside response member))
        (lengths response member) (books.accepted response member).2
    refine ⟨fun response member => ⟨inside response member, exactly response member⟩, books.acceptedOnce, ?_⟩
    intro complete hash listed
    obtain ⟨idx, there, member⟩ := exists_chunk listed
    have all : sm.fetchHashes.length ≤ (sm.log.accepted.map (·.2.length)).sum :=
      (of_decide_eq_true complete).trans books.synced
    obtain ⟨response, among, rfl⟩ := mem_map.mp (every_chunk_accepted books.acceptedOnce inside lengths all there)
    refine ⟨response, among, ?_⟩
    rw [exactly response among]
    exact member

theorem rootPairs_subset (hashes : List HashType) {free : List (HashType × HashType)}
    (listed : ∀ pair ∈ (range (merkleHeight hashes.length)).flatMap fun below =>
      pairsOf ((parents (combineHash env.crypto))^[below] hashes), pair ∈ free) :
    rootPairs env hashes ⊆ {pair | pair ∈ free} :=
  fun pair combined => listed pair ((mem_combinedPairs _).mp combined)

/-- Three hashes are located; the pairs that are combined for their root, and for the root
of a response with the last block twice. -/
def samplePairs : List (HashType × HashType) :=
  (range 2).flatMap fun below => pairsOf ((parents (combineHash sampleSyncEnv.crypto))^[below] (sampleLocated 3))

theorem samplePairs_injOn :
    Set.InjOn (fun pair => combineHash sampleSyncEnv.crypto pair.1 pair.2) {pair | pair ∈ samplePairs} := by
  have apart : (samplePairs.map fun pair => combineHash sampleSyncEnv.crypto pair.1 pair.2).Nodup := by decide +kernel
  intro pair member other among collide
  exact inj_on_of_nodup_map apart member among collide

def answered (heights : List UInt32) : SyncManager :=
  after (requestChunk 3 ++ [.onBlocksResponse "a" (some (sampleBlocks heights))])

theorem answer_completes : (answered [1, 2, 3]).completed ∧
      ∀ hash ∈ sampleLocated 3, ∃ response ∈ (answered [1, 2, 3]).log.accepted, hash ∈ response.2 := by
  have completed : (answered [1, 2, 3]).completed := by decide +kernel
  have located : (answered [1, 2, 3]).fetchHashes = sampleLocated 3 := by decide +kernel
  have accepted : (answered [1, 2, 3]).log.accepted = [(0, sampleLocated 3)] := by decide +kernel
  have run : Reached (step sampleSyncEnv) new (answered [1, 2, 3]) := after_reached (by decide +kernel)
  have lengths : ∀ response ∈ (answered [1, 2, 3]).log.accepted,
      response.2.length = (chunk (answered [1, 2, 3]).fetchHashes response.1).length := by decide +kernel
  have exactly := (accepts_chunks_iff run samplePairs_injOn ?_).mpr lengths
  · exact ⟨completed, located ▸ exactly.2.2 completed⟩
  · rw [accepted, located]
    intro response member
    obtain rfl := mem_singleton.mp member
    exact ⟨rootPairs_subset _ (by decide +kernel), rootPairs_subset _ (by decide +kernel)⟩

/-- A response with the last block twice is accepted for a chunk of three blocks. -/
theorem repeated_block_accepted : Reached (step sampleSyncEnv) new (answered [1, 2, 3, 3]) ∧
      Set.InjOn (fun pair => combineHash sampleSyncEnv.crypto pair.1 pair.2) {pair | pair ∈ samplePairs} ∧
      (∀ response ∈ (answered [1, 2, 3, 3]).log.accepted,
        rootPairs sampleSyncEnv response.2 ⊆ {pair | pair ∈ samplePairs}) ∧
      (answered [1, 2, 3, 3]).fetchHashes = [numberHash 1, numberHash 2, numberHash 3] ∧
      (answered [1, 2, 3, 3]).log.accepted = [(0, [numberHash 1, numberHash 2, numberHash 3, numberHash 3])] := by
  have accepted : (answered [1, 2, 3, 3]).log.accepted =
      [(0, [numberHash 1, numberHash 2, numberHash 3, numberHash 3])] := by decide +kernel
  refine ⟨after_reached (by decide +kernel), samplePairs_injOn, ?_, by decide +kernel, accepted⟩
  rw [accepted]
  intro response member
  obtain rfl := mem_singleton.mp member
  exact rootPairs_subset _ (by decide +kernel)

end Boxd.SyncManager
