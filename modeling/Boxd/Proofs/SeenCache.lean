import Boxd.Proofs.PoolIndex

/-! Orphans and the cache of seen transactions. What is in the cache is refused as a
duplicate. Only a detached block and the size of the cache take hashes out of it, so
whoever is moved from the pool to the orphans stays seen. -/

namespace Boxd
open Lib Stateful PoolMaps AList Option List

/-- A transaction was not seen yet when it was put among the orphans. -/
def PoolEntry.Unseen : PoolEntry → Prop
  | .orphaned _ _ seen => seen = false
  | _ => True

instance PoolEntry.decidableUnseen : DecidablePred PoolEntry.Unseen
  | .removed _ _ => .isTrue trivial
  | .orphaned _ _ seen => inferInstanceAs (Decidable (seen = false))
  | .offered _ _ _ _ => .isTrue trivial

/-- An orphan that was offered to the pool was not refused as a duplicate. -/
def PoolEntry.Welcome (env : PoolEnv) : PoolEntry → Prop
  | .offered tx _ hashToOrphanTx result =>
    hashToOrphanTx.lookup (env.hash tx) ≠ none → result ≠ .error (.error .duplicateTxInPool)
  | _ => True

instance PoolEntry.decidableWelcome (env : PoolEnv) : DecidablePred (PoolEntry.Welcome env)
  | .removed _ _ => .isTrue trivial
  | .orphaned _ _ _ => .isTrue trivial
  | .offered tx _ hashToOrphanTx result =>
    inferInstanceAs (Decidable (hashToOrphanTx.lookup (env.hash tx) ≠ none → result ≠ .error (.error .duplicateTxInPool)))

namespace PoolMaps

variable {env : PoolEnv} {moment : Moment} {maps after : PoolMaps} {tx : TxRef}

/-- An orphan is neither pooled nor seen. -/
def Apart (maps : PoolMaps) : Prop :=
  ∀ hash, maps.hashToOrphanTx.lookup hash ≠ none →
    maps.hashToTx.lookup hash = none ∧ maps.txcache.contains hash = false

def SeenKept (env : PoolEnv) : PoolMaps → Prop :=
  Given PoolEntry.Unseen fun maps => maps.Apart ∧ ∀ entry ∈ maps.log, entry.Welcome env

section
variable (apart : maps.Apart)
include apart

/-- Orphans stay apart while none is added and none of them is pooled or seen. -/
theorem Apart.mono
    (orphans : ∀ hash, after.hashToOrphanTx.lookup hash ≠ none → maps.hashToOrphanTx.lookup hash ≠ none)
    (pool : ∀ hash, after.hashToOrphanTx.lookup hash ≠ none → maps.hashToTx.lookup hash = none →
      after.hashToTx.lookup hash = none)
    (cache : ∀ hash, after.hashToOrphanTx.lookup hash ≠ none → after.txcache.contains hash = true →
      maps.txcache.contains hash = true) : after.Apart := by
  intro hash orphan
  obtain ⟨unpooled, unseen⟩ := apart hash (orphans hash orphan)
  refine ⟨pool hash orphan unpooled, Bool.eq_false_iff.mpr fun seen => ?_⟩
  rw [cache hash orphan seen] at unseen
  cases unseen

omit apart in
theorem lookup_erase_ne_none {κ ν : Type} [DecidableEq κ] {table : Table κ ν} {key other : κ}
    (held : (table.erase key).lookup other ≠ none) : other ≠ key ∧ table.lookup other ≠ none := by
  obtain ⟨value, found⟩ := ne_none_iff_exists'.mp held
  obtain ⟨differ, at_⟩ := Table.lookup_of_erase found
  exact ⟨differ, by simp [at_]⟩

theorem Apart.removeOrphan (tx : TxRef) : (maps.removeOrphan env tx).Apart :=
  apart.mono (fun _ held => (lookup_erase_ne_none held).2) (fun _ _ absent => absent) fun _ _ seen => seen

omit apart in
theorem dropTx_absent {hash : HashType} (absent : maps.hashToTx.lookup hash = none) :
    (maps.dropTx env tx).hashToTx.lookup hash = none := by
  cases found : (maps.dropTx env tx).hashToTx.lookup hash with
  | none => rfl
  | some wrap =>
    rw [(dropTx_shrunk tx maps).pool hash wrap found] at absent
    cases absent

omit apart in
theorem dropTx_self : (maps.dropTx env tx).hashToTx.lookup (env.hash tx) = none := by
  cases found : (maps.dropTx env tx).hashToTx.lookup (env.hash tx) with
  | none => rfl
  | some wrap => exact absurd rfl ((dropTx_pool _ _ _ _).mp found).2.1

theorem Apart.dropTx (tx : TxRef) : (maps.dropTx env tx).Apart := by
  obtain ⟨hashToTx, outPointToTx, same⟩ := dropTx_frame env tx maps
  refine apart.mono (fun hash held => ?_) (fun _ _ absent => dropTx_absent absent) fun hash _ seen => ?_
  · rwa [same] at held
  · rwa [same] at seen

theorem Apart.addOrphan (unpooled : maps.hashToTx.lookup (env.hash tx) = none)
    (unseen : maps.txcache.contains (env.hash tx) = false) : (maps.addOrphan env moment tx).Apart := by
  intro hash orphan
  by_cases same : hash = env.hash tx
  · rw [same]
    exact ⟨unpooled, unseen⟩
  · change (maps.hashToOrphanTx.insert (env.hash tx) _).lookup hash ≠ none at orphan
    rw [lookup_insert_ne same] at orphan
    exact apart hash orphan

theorem Apart.see (free : maps.hashToOrphanTx.lookup (env.hash tx) = none) : (maps.see env tx).Apart := by
  refine apart.mono (fun _ held => held) (fun _ _ absent => absent) fun hash orphan seen => ?_
  refine (Lru.contains_add seen).resolve_left ?_
  rintro rfl
  exact orphan free

theorem Apart.addTx (free : maps.hashToOrphanTx.lookup (env.hash tx) = none) (height : UInt32) :
    (maps.addTx env moment tx height).Apart := by
  refine apart.mono (fun _ held => held) (fun hash orphan absent => ?_) fun _ _ seen => seen
  refine (lookup_insert_ne ?_).trans absent
  rintro rfl
  exact orphan free

theorem Apart.confirm (tx : TxRef) :
    ((((maps.see env tx).note (.removed tx maps.hashToTx)).dropTx env tx).removeOrphan env tx).Apart := by
  obtain ⟨hashToTx, outPointToTx, same⟩ := dropTx_frame env tx ((maps.see env tx).note (.removed tx maps.hashToTx))
  refine apart.mono (fun hash held => ?_) (fun hash _ absent => dropTx_absent absent) fun hash held seen => ?_
  · rw [same] at held
    exact (lookup_erase_ne_none held).2
  · rw [same] at seen
    exact (Lru.contains_add seen).resolve_left (lookup_erase_ne_none held).1

theorem Apart.check {hash : HashType} {wrap checked : TxWrap} (found : maps.hashToTx.lookup hash = some wrap) :
    Apart { maps with hashToTx := maps.hashToTx.insert hash checked } := by
  refine apart.mono (fun _ held => held) (fun other _ absent => ?_) fun _ _ seen => seen
  refine (lookup_insert_ne ?_).trans absent
  rintro rfl
  rw [found] at absent
  cases absent

end

theorem SeenKept.silent (kept : SeenKept env maps) (log : after.log = maps.log) (apart : maps.Apart → after.Apart) :
    SeenKept env after := by
  refine Given.silent kept log fun ⟨before, welcome⟩ => ⟨apart before, ?_⟩
  rwa [log]

theorem SeenKept.noted (kept : SeenKept env maps) {entry : PoolEntry} (log : after.log = maps.log ++ [entry])
    (apart : entry.Unseen → maps.Apart → after.Apart) (welcome : maps.Apart → entry.Welcome env) :
    SeenKept env after := by
  refine Given.noted kept log fun unseen ⟨before, welcomed⟩ => ⟨apart unseen before, ?_⟩
  rw [log, forall_mem_append, forall_mem_singleton]
  exact ⟨welcomed, welcome before⟩

theorem SeenKept.attempt {result : Except (Fault PoolError) Unit} (kept : SeenKept env maps)
    (attempt : TransactionPool.Attempt env moment true tx maps result after) : SeenKept env after := by
  cases attempt with
  | accepted height fresh => exact kept.silent rfl fun apart => (apart.addTx (fresh.orphan rfl) height).see (fresh.orphan rfl)
  | orphaned fresh => exact kept.noted rfl (fun _ apart => apart.addOrphan fresh.pool fresh.seen) fun _ => trivial
  | duplicate => exact kept
  | refused => exact kept

theorem Apart.fresh (apart : maps.Apart) (orphan : maps.hashToOrphanTx.lookup (env.hash tx) ≠ none) :
    TransactionPool.Fresh env false tx maps where
  pool := (apart _ orphan).1
  orphan detect := by cases detect
  seen := (apart _ orphan).2

theorem SeenKept.accept (kept : SeenKept env maps)
    (attempt : TransactionPool.Attempt env moment false tx maps (.ok ()) after) :
    SeenKept env ((after.note (.offered tx maps.hashToTx maps.hashToOrphanTx (.ok ()))).removeOrphan env tx) := by
  cases attempt with
  | accepted height =>
    refine kept.noted rfl (fun _ apart => ?_) fun _ _ => nofun
    have free : (maps.removeOrphan env tx).hashToOrphanTx.lookup (env.hash tx) = none := lookup_erase _ _
    exact ((apart.removeOrphan tx).addTx free height).see free

theorem SeenKept.refuse {fault : Fault PoolError} (kept : SeenKept env maps)
    (attempt : TransactionPool.Attempt env moment false tx maps (.error fault) after) :
    SeenKept env (after.note (.offered tx maps.hashToTx maps.hashToOrphanTx (.error fault))) := by
  cases attempt with
  | orphaned fresh =>
    have orphaned : SeenKept env (maps.addOrphan env moment tx) :=
      kept.noted rfl (fun _ apart => apart.addOrphan fresh.pool fresh.seen) fun _ => trivial
    exact orphaned.noted rfl (fun _ apart => apart) fun _ _ => nofun
  | duplicate known => exact kept.noted rfl (fun _ apart => apart) fun apart orphan => absurd (apart.fresh orphan) known
  | refused _ other => exact kept.noted rfl (fun _ apart => apart) fun _ _ same => other (Except.error.inj same)

end PoolMaps

namespace TransactionPool

variable {env : PoolEnv}

theorem seenKept_closed : Closed env (SeenKept env) where
  attempt kept attempt := kept.attempt attempt
  accept kept _ attempt := kept.accept attempt
  refuse kept _ attempt := kept.refuse attempt
  removeOrphan kept := kept.silent rfl fun apart => apart.removeOrphan _
  drop kept _ := kept.silent (dropTx_log _ _) fun apart => apart.dropTx _
  evict {_ _ child maps} kept _ := by
    have dropped : SeenKept env (maps.dropTx env child) :=
      kept.silent (dropTx_log _ _) fun apart => apart.dropTx _
    exact dropped.noted rfl (fun unseen apart => apart.addOrphan dropTx_self unseen) fun _ => trivial
  expire _ kept _ _ := kept.silent (dropTx_log _ _) fun apart => apart.dropTx _
  outside {tx maps} kept := by
    have noted : SeenKept env (maps.note (.removed tx maps.hashToTx)) :=
      kept.noted rfl (fun _ apart => apart) fun _ => trivial
    exact noted.silent (dropTx_log _ _) fun apart => apart.dropTx _
  forget kept := kept.silent rfl fun apart =>
    apart.mono (fun _ held => held) (fun _ _ absent => absent) fun _ _ seen => Lru.contains_remove seen
  confirm {tx maps} kept := by
    exact kept.noted (dropTx_log _ _) (fun _ apart => apart.confirm tx) fun _ => trivial
  check kept found := kept.silent rfl fun apart => apart.check found

/-- After every run in which no seen transaction was moved to the orphans, no orphan is
pooled or in the cache, and none was refused as a duplicate when it was offered. -/
theorem orphans_unseen {types : TxRef → TxType} {calls : List (Moment × Event)} {pool : TransactionPool}
    (run : Runs (step env) (new types) calls pool) (unseen : ∀ entry ∈ pool.log, entry.Unseen) :
    (∀ hash, pool.isOrphanInPool hash = true →
        pool.isTransactionInPool hash = false ∧ pool.txcache.contains hash = false) ∧
      ∀ orphan hashToTx hashToOrphanTx result, .offered orphan hashToTx hashToOrphanTx result ∈ pool.log →
        hashToOrphanTx.lookup (env.hash orphan) ≠ none → result ≠ .error (.error .duplicateTxInPool) := by
  have empty : SeenKept env (new types).toPoolMaps := by
    intro _
    exact ⟨fun hash orphan => absurd rfl orphan, fun entry member => by cases member⟩
  obtain ⟨apart, welcome⟩ := seenKept_closed.runs run empty unseen
  refine ⟨fun hash orphan => ?_, fun orphan hashToTx hashToOrphanTx result member => welcome _ member⟩
  obtain ⟨unpooled, unseen⟩ := apart hash (isSome_iff_ne_none.mp orphan)
  refine ⟨?_, unseen⟩
  unfold isTransactionInPool
  rw [unpooled]
  rfl

def firstParent : TxMessage := poolTx [firstOutput] 3950000 1
def secondParent : TxMessage := poolTx [secondOutput] 3950000 2

/-- Two transactions, and one that spends an output of each of them. -/
def familyEnv : PoolEnv :=
  poolEnv [firstParent, secondParent,
    poolTx [⟨poolCrypto.calcTxHash firstParent, 0⟩, ⟨poolCrypto.calcTxHash secondParent, 0⟩] 6850000 3]

def familyMoment : Moment := poolMoment [(firstOutput, 5000000), (secondOutput, 5000000)]

def parentMoment : Moment :=
  poolMoment [(firstOutput, 5000000), (⟨poolCrypto.calcTxHash secondParent, 0⟩, 3950000)]

/-- The child arrives before its first parent, and is offered to the pool with it while the second
one is missing. -/
def childCalls : List (Moment × Event) := [(familyMoment, .processTx 2), (familyMoment, .processTx 0)]

def childPool : TransactionPool :=
  childCalls.foldl (fun pool call => (step familyEnv call).after pool) (new fun _ => .unknownTx)

theorem waiting_orphan_unseen :
    childPool.isOrphanInPool (familyEnv.hash 2) = true ∧ childPool.isTransactionInPool (familyEnv.hash 2) = false ∧
      childPool.txcache.contains (familyEnv.hash 2) = false ∧
      ((step familyEnv (familyMoment, .processTx 1)).after childPool).isTransactionInPool (familyEnv.hash 2) = true := by
  have run : Runs (step familyEnv) (new fun _ => .unknownTx) childCalls childPool := .of_survives (by decide +kernel)
  have orphan : childPool.isOrphanInPool (familyEnv.hash 2) = true := by decide +kernel
  obtain ⟨unpooled, unseen⟩ := (orphans_unseen run (by decide +kernel)).1 _ orphan
  exact ⟨orphan, unpooled, unseen, by decide +kernel⟩

/-- The first parent turns out to be invalid, and the block of the second one leaves the
main chain. -/
def returnCalls : List (Moment × Event) :=
  [(parentMoment, .processTx 0), (parentMoment, .processTx 2), (parentMoment, .invalidTx 0), (familyMoment, .processTx 1)]

def returnPool : TransactionPool :=
  returnCalls.foldl (fun pool call => (step familyEnv call).after pool) (new fun _ => .unknownTx)

/-- The child is an orphan that was seen, and it is refused when its second parent is
there again. -/
theorem evicted_child_refused : Runs (step familyEnv) (new fun _ => .unknownTx) returnCalls returnPool ∧
      returnPool.isOrphanInPool (familyEnv.hash 2) = true ∧ returnPool.txcache.contains (familyEnv.hash 2) = true ∧
      ∃ entry ∈ returnPool.log, ¬entry.Welcome familyEnv := by
  exact ⟨.of_survives (by decide +kernel), by decide +kernel, by decide +kernel, by decide +kernel⟩

end TransactionPool
end Boxd
