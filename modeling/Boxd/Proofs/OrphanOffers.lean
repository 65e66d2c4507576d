import Boxd.Proofs.OrphanPool
import Boxd.Proofs.SeenCache

/-! The loop of `processOrphans`. Whoever waits for an output of an accepted transaction is
offered to the pool. The loop stops: it goes on only after an orphan that was registered
when it started, and takes each of them once. -/

namespace Boxd
open Lib Stateful List Option AList PoolMaps Table

variable {orphan : TxRef} {result : Option TxRef} {outPoints : List OutPoint} {others all : List TxRef}
  {outPoint : OutPoint}

def PoolEntry.offeredTx : PoolEntry → Option TxRef
  | .offered orphan _ _ _ => some orphan
  | _ => none

namespace PoolMaps

variable {env : PoolEnv} {moment : Moment} {maps after : PoolMaps} {tx : TxRef}

theorem registered_iff :
    maps.Registered orphan ↔ ∃ outPoint hash, orphanAt maps.outPointToOrphan outPoint hash = some orphan := by
  unfold Registered orphanAt
  simp only [bind_eq_some_iff]
  constructor
  · rintro ⟨outPoint, orphans, hash, found, held⟩
    exact ⟨outPoint, hash, orphans, found, held⟩
  · rintro ⟨outPoint, hash, orphans, found, held⟩
    exact ⟨outPoint, orphans, hash, found, held⟩

theorem Registered.of_removeOrphan (registered : (maps.removeOrphan env tx).Registered orphan) :
    maps.Registered orphan := by
  obtain ⟨outPoint, hash, at_⟩ := registered_iff.mp registered
  rw [orphanAt_removeOrphan] at at_
  split at at_
  · cases at_
  · exact registered_iff.mpr ⟨outPoint, hash, at_⟩

theorem Registered.of_addOrphan (registered : (maps.addOrphan env moment tx).Registered orphan) :
    orphan = tx ∨ maps.Registered orphan := by
  obtain ⟨outPoint, hash, at_⟩ := registered_iff.mp registered
  rw [OrphansIndexed.orphanAt_addOrphan] at at_
  split at at_
  · split at at_
    · exact .inl (some.inj at_).symm
    · cases at_
  · exact .inr (registered_iff.mpr ⟨outPoint, hash, at_⟩)

/-- The orphans that are registered, once for each output. -/
def registeredTxs (maps : PoolMaps) : List TxRef :=
  maps.outPointToOrphan.entries.flatMap fun entry => entry.2.entries.map fun orphan => orphan.2

theorem length_registeredTxs : maps.registeredTxs.length = maps.registrations := by
  unfold registeredTxs registrations
  rw [length_flatMap]
  simp

theorem Registered.mem (registered : maps.Registered orphan) : orphan ∈ maps.registeredTxs := by
  obtain ⟨outPoint, orphans, hash, found, held⟩ := registered
  refine mem_flatMap.mpr ⟨⟨outPoint, orphans⟩, mem_lookup_iff.mp found, ?_⟩
  exact mem_map.mpr ⟨⟨hash, orphan⟩, mem_lookup_iff.mp held, rfl⟩

end PoolMaps

theorem PoolMaps.OrphansIndexed.orphansOf_eq {env : PoolEnv} {moment : Moment} {maps : PoolMaps}
    (indexed : OrphansIndexed env maps) {hash : HashType}
    (at_ : orphanAt maps.outPointToOrphan outPoint hash = some orphan) : maps.orphansOf moment outPoint = [orphan] := by
  obtain ⟨orphans, found, held⟩ := bind_eq_some_iff.mp at_
  have only : ∀ entry ∈ orphans.entries, entry = ⟨hash, orphan⟩ := by
    intro entry member
    have stored : orphans.lookup entry.1 = some entry.2 := mem_lookup_iff.mpr member
    have same : entry.1 = hash := by
      refine indexed.alone outPoint entry.1 hash ?_ ?_
      · unfold orphanAt
        rw [found, bind_some, stored]
        exact nofun
      · rw [at_]
        exact nofun
    obtain ⟨key, value⟩ := entry
    dsimp only at same stored
    rw [same, held] at stored
    cases stored
    rw [same]
  have single : orphans.entries = [⟨hash, orphan⟩] := by
    have member := mem_lookup_iff.mp held
    have distinct := NodupKeys.nodup orphans.nodupKeys
    rcases stored : orphans.entries with _ | ⟨one, _ | ⟨two, rest⟩⟩
    · rw [stored] at member
      cases member
    · rw [only one (stored ▸ mem_cons_self)]
    · rw [stored, only one (stored ▸ mem_cons_self),
        only two (stored ▸ mem_cons_of_mem _ mem_cons_self)] at distinct
      exact absurd mem_cons_self (nodup_cons.mp distinct).1
  unfold orphansOf
  rw [found]
  dsimp only
  rw [single]
  exact perm_singleton.mp (moment.range.perm _)

namespace TransactionPool

variable {env : PoolEnv} {moment : Moment} {maps after final start : PoolMaps} {first : TxRef} {accepted : List TxRef}

/-- How far the loop has come: the orphans that it accepted were registered at its start,
are in the pool now, and nothing else is. -/
structure Advanced (env : PoolEnv) (start : PoolMaps) (first : TxRef) (accepted : List TxRef) (maps : PoolMaps) : Prop where
  registered : ∀ orphan, maps.Registered orphan → start.Registered orphan
  pooled : ∀ tx ∈ first :: accepted, maps.hashToTx.lookup (env.hash tx) ≠ none
  only : ∀ hash, maps.hashToTx.lookup hash ≠ none →
    start.hashToTx.lookup hash ≠ none ∨ ∃ tx ∈ accepted, env.hash tx = hash
  among : ∀ tx ∈ accepted, start.Registered tx
  distinct : accepted.Nodup

section
variable (advanced : Advanced env start first accepted maps)
include advanced

theorem Advanced.length_le : accepted.length ≤ start.registrations := by
  rw [← length_registeredTxs]
  exact (subperm_of_subset advanced.distinct fun tx member => (advanced.among tx member).mem).length_le

theorem Advanced.accept
    (registered : start.Registered orphan) (attempt : Attempt env moment false orphan maps (.ok ()) after)
    (entry : PoolEntry) :
    Advanced env start first (accepted ++ [orphan]) ((after.note entry).removeOrphan env orphan) := by
  cases attempt with
  | accepted height fresh =>
    have added : ∀ hash, (((maps.addTx env moment orphan height).see env orphan).note entry).hashToTx.lookup hash ≠ none ↔
        hash = env.hash orphan ∨ maps.hashToTx.lookup hash ≠ none := by
      intro hash
      change lookup hash (maps.hashToTx.insert _ _) ≠ none ↔ _
      by_cases same : hash = env.hash orphan
      · simp [same]
      · simp [same, lookup_insert_ne same]
    constructor
    · intro other held
      have before : maps.Registered other := held.of_removeOrphan
      exact advanced.registered other before
    · intro tx member
      refine (added _).mpr ?_
      rw [← cons_append, mem_append, mem_singleton] at member
      rcases member with old | rfl
      · exact .inr (advanced.pooled tx old)
      · exact .inl rfl
    · intro hash held
      rcases (added hash).mp held with same | old
      · exact .inr ⟨orphan, mem_append_right _ mem_cons_self, same.symm⟩
      · rcases advanced.only hash old with before | ⟨tx, member, same⟩
        · exact .inl before
        · exact .inr ⟨tx, mem_append_left _ member, same⟩
    · rw [forall_mem_append, forall_mem_singleton]
      exact ⟨advanced.among, registered⟩
    · refine nodup_append.mpr ⟨advanced.distinct, nodup_singleton _, ?_⟩
      intro tx member other new same
      rw [mem_singleton.mp new] at same
      subst same
      exact advanced.pooled tx (mem_cons_of_mem _ member) fresh.pool

theorem Advanced.refuse {fault : Fault PoolError}
    (registered : start.Registered orphan) (attempt : Attempt env moment false orphan maps (.error fault) after)
    (entry : PoolEntry) : Advanced env start first accepted (after.note entry) := by
  cases attempt with
  | orphaned =>
    refine ⟨fun other held => ?_, advanced.pooled, advanced.only, advanced.among, advanced.distinct⟩
    have added : (maps.addOrphan env moment orphan).Registered other := held
    rcases added.of_addOrphan with rfl | old
    · exact registered
    · exact advanced.registered other old
  | duplicate => exact { advanced with }
  | refused => exact { advanced with }

end

theorem Tried.advanced {orphans : List TxRef}
    (tried : Tried env moment orphans maps result final) (advanced : Advanced env start first accepted maps)
    (registered : ∀ orphan ∈ orphans, start.Registered orphan) :
    Advanced env start first (accepted ++ result.toList) final := by
  induction tried with
  | nil =>
    rw [toList_none, append_nil]
    exact advanced
  | accepted attempt => exact advanced.accept (registered _ mem_cons_self) attempt _
  | refused attempt _ next =>
    rw [forall_mem_cons] at registered
    exact next (advanced.refuse registered.1 attempt _) registered.2

theorem Scanned.advanced
    (scanned : Scanned env moment outPoints maps others final) (advanced : Advanced env start first accepted maps) :
    Advanced env start first (accepted ++ others) final := by
  induction scanned generalizing accepted with
  | nil =>
    rw [append_nil]
    exact advanced
  | cons tried _ next =>
    rw [← append_assoc]
    exact next (tried.advanced advanced fun orphan member => advanced.registered orphan (registered_of_orphansOf member))

/-- Among the entries of the log, the orphan with a hash was offered to the pool. It was
accepted, or its parents were all in the pool. -/
def WasOffered (env : PoolEnv) (hash : HashType) (parents : HashType → Prop) (log : List PoolEntry) : Prop :=
  ∃ orphan pooled orphans result, .offered orphan pooled orphans result ∈ log ∧ env.hash orphan = hash ∧
    (result = .ok () ∨ ∀ parent, parents parent → pooled.lookup parent ≠ none)

theorem WasOffered.mono {hash : HashType} {parents others : HashType → Prop} {log more : List PoolEntry}
    (offered : WasOffered env hash parents log) (fewer : ∀ parent, others parent → parents parent) (longer : log ⊆ more) :
    WasOffered env hash others more := by
  obtain ⟨orphan, pooled, orphans, result, member, same, ended⟩ := offered
  refine ⟨orphan, pooled, orphans, result, longer member, same, ended.imp_right fun all parent among => ?_⟩
  exact all parent (fewer parent among)

/-- The transaction with a hash was accepted, and the orphan spends one of its outputs. -/
def ParentAccepted (env : PoolEnv) (before after : PoolMaps) (orphan : TxRef) (hash : HashType) : Prop :=
  before.hashToTx.lookup hash = none ∧ after.hashToTx.lookup hash ≠ none ∧
    ∃ parent, env.hash parent = hash ∧ ∃ outPoint ∈ env.outputs parent, outPoint ∈ env.spends orphan

/-- What offering orphans does to the log, the pool and the other orphans. -/
structure Grown (env : PoolEnv) (maps : PoolMaps) (new : List PoolEntry) (final : PoolMaps) : Prop where
  log : final.log = maps.log ++ new
  pool : ∀ hash, maps.hashToTx.lookup hash ≠ none → final.hashToTx.lookup hash ≠ none
  orphans : ∀ hash, maps.hashToOrphanTx.lookup hash ≠ none →
    final.hashToOrphanTx.lookup hash ≠ none ∨ ∀ parents, WasOffered env hash parents new

theorem Grown.refl (maps : PoolMaps) : Grown env maps [] maps :=
  ⟨(append_nil _).symm, fun _ held => held, fun _ held => .inl held⟩

theorem Grown.trans {between : PoolMaps} {new more : List PoolEntry} (before : Grown env maps new between)
    (next : Grown env between more final) : Grown env maps (new ++ more) final := by
  constructor
  · rw [next.log, before.log, append_assoc]
  · exact fun hash held => next.pool hash (before.pool hash held)
  · intro hash held
    rcases before.orphans hash held with still | offered
    · refine (next.orphans hash still).imp_right fun offered parents => ?_
      exact (offered parents).mono (fun _ among => among) (subset_append_right _ _)
    · exact .inr fun parents => (offered parents).mono (fun _ among => among) (subset_append_left _ _)

theorem Attempt.grown_accept (attempt : Attempt env moment false orphan maps (.ok ()) after) :
    Grown env maps [.offered orphan maps.hashToTx maps.hashToOrphanTx (.ok ())]
      ((after.note (.offered orphan maps.hashToTx maps.hashToOrphanTx (.ok ()))).removeOrphan env orphan) := by
  cases attempt with
  | accepted height =>
    refine ⟨rfl, fun hash held => lookup_insert_ne_none _ (.inr held), fun hash held => ?_⟩
    by_cases same : hash = env.hash orphan
    · exact .inr fun parents => ⟨orphan, _, _, _, mem_cons_self, same.symm, .inl rfl⟩
    · exact .inl (by rwa [← lookup_erase_ne same] at held)

theorem Attempt.grown_refuse {fault : Fault PoolError}
    (attempt : Attempt env moment false orphan maps (.error fault) after) :
    ∃ new, Grown env maps (new ++ [.offered orphan maps.hashToTx maps.hashToOrphanTx (.error fault)])
      (after.note (.offered orphan maps.hashToTx maps.hashToOrphanTx (.error fault))) := by
  cases attempt with
  | orphaned =>
    exact ⟨[_], append_assoc _ _ _, fun _ held => held, fun _ held => .inl (lookup_insert_ne_none _ (.inr held))⟩
  | duplicate => exact ⟨[], rfl, fun _ held => held, fun _ held => .inl held⟩
  | refused => exact ⟨[], rfl, fun _ held => held, fun _ held => .inl held⟩

theorem Tried.grown {orphans : List TxRef}
    (tried : Tried env moment orphans maps result final) : ∃ new, Grown env maps new final := by
  induction tried with
  | nil maps => exact ⟨[], .refl maps⟩
  | accepted attempt => exact ⟨_, attempt.grown_accept⟩
  | refused attempt _ next =>
    obtain ⟨new, grown⟩ := attempt.grown_refuse
    obtain ⟨more, later⟩ := next
    exact ⟨_, grown.trans later⟩

theorem Tried.head_offered {rest : List TxRef} {parents : HashType → Prop}
    {new : List PoolEntry} (tried : Tried env moment (orphan :: rest) maps result final)
    (grown : Grown env maps new final) (pooled : ∀ parent, parents parent → maps.hashToTx.lookup parent ≠ none) :
    WasOffered env (env.hash orphan) parents new := by
  cases tried with
  | accepted attempt =>
    have same := append_cancel_left (grown.log.symm.trans attempt.grown_accept.log)
    rw [same]
    exact ⟨orphan, _, _, _, mem_cons_self, rfl, .inl rfl⟩
  | refused attempt next =>
    obtain ⟨before, first⟩ := attempt.grown_refuse
    obtain ⟨more, later⟩ := next.grown
    have same := append_cancel_left (grown.log.symm.trans (first.trans later).log)
    rw [same]
    exact ⟨orphan, _, _, _, mem_append_left _ (mem_append_right _ mem_cons_self), rfl, .inr pooled⟩

variable {done : List OutPoint} {new : List PoolEntry}

/-- After the outputs that are done, every orphan of the start that spends one of them was
offered, or is no orphan any more because it was accepted. -/
structure Served (env : PoolEnv) (start : PoolMaps) (done : List OutPoint) (new : List PoolEntry) (maps : PoolMaps) :
    Prop where
  log : maps.log = start.log ++ new
  pooled : ∀ outPoint ∈ done, maps.hashToTx.lookup outPoint.hash ≠ none
  each : ∀ hash wrap, start.hashToOrphanTx.lookup hash = some wrap →
    (∀ parents, WasOffered env hash parents new) ∨
      maps.hashToOrphanTx.lookup hash ≠ none ∧ ((∃ outPoint ∈ done, outPoint ∈ env.spends wrap.tx) →
        WasOffered env hash (fun parent => ∃ outPoint ∈ done, outPoint ∈ env.spends wrap.tx ∧ outPoint.hash = parent) new)

theorem Grown.lone (grown : Grown env maps new final) (lone : ∀ entry ∈ final.log, entry.Lone env) :
    ∀ entry ∈ maps.log, entry.Lone env := by
  intro entry member
  refine lone entry ?_
  rw [grown.log]
  exact mem_append_left _ member

theorem outputs_hash {tx : TxRef} (member : outPoint ∈ env.outputs tx) : outPoint.hash = env.hash tx := by
  obtain ⟨index, -, rfl⟩ := mem_map.mp member
  rfl

theorem Scanned.grown
    (scanned : Scanned env moment outPoints maps others final) : ∃ new, Grown env maps new final := by
  induction scanned with
  | nil maps => exact ⟨[], .refl maps⟩
  | cons tried _ next =>
    obtain ⟨new, grown⟩ := tried.grown
    obtain ⟨more, later⟩ := next
    exact ⟨_, grown.trans later⟩

theorem Worked.grown {turns : Nat} {before waiting : List TxRef}
    (worked : Worked env moment turns before waiting maps all final) : ∃ new, Grown env maps new final := by
  induction worked with
  | done _ _ maps => exact ⟨[], .refl maps⟩
  | stopped _ _ _ maps => exact ⟨[], .refl maps⟩
  | turn scanned _ next =>
    obtain ⟨new, grown⟩ := scanned.grown
    obtain ⟨more, later⟩ := next
    exact ⟨_, grown.trans later⟩

section
variable (apart : env.HashesApart)
  (keyed : ∀ hash wrap, start.hashToOrphanTx.lookup hash = some wrap → env.hash wrap.tx = hash)
include apart keyed

theorem Tried.served (indexed : OrphansIndexed env maps)
    (tried : Tried env moment (maps.orphansOf moment outPoint) maps result final)
    (parent : maps.hashToTx.lookup outPoint.hash ≠ none) (served : Served env start done new maps) :
    ∃ more, Served env start (done ++ [outPoint]) (new ++ more) final := by
  obtain ⟨more, grown⟩ := tried.grown
  have pooled : ∀ other ∈ done ++ [outPoint], maps.hashToTx.lookup other.hash ≠ none := by
    rw [forall_mem_append, forall_mem_singleton]
    exact ⟨served.pooled, parent⟩
  refine ⟨more, ?_, fun other member => grown.pool _ (pooled other member), fun hash wrap found => ?_⟩
  · rw [grown.log, served.log, append_assoc]
  rcases served.each hash wrap found with offered | ⟨before, asked⟩
  · exact .inl fun parents => (offered parents).mono (fun _ among => among) (subset_append_left _ _)
  rcases grown.orphans hash before with still | offered
  · refine .inr ⟨still, fun spends => ?_⟩
    by_cases spent : outPoint ∈ env.spends wrap.tx
    · -- the orphan is still registered under the output, and is the only one there
      obtain ⟨held, present⟩ := ne_none_iff_exists'.mp before
      have same : env.hash held.tx = env.hash wrap.tx := (indexed.keyed hash held present).1.trans (keyed hash wrap found).symm
      rw [← apart.spends same] at spent
      obtain ⟨orphan, at_⟩ := ne_none_iff_exists'.mp (indexed.under hash held present outPoint spent)
      rw [indexed.orphansOf_eq at_] at tried
      have offered : WasOffered env (env.hash orphan) (fun parent =>
          ∃ other ∈ done ++ [outPoint], other ∈ env.spends wrap.tx ∧ other.hash = parent) more := by
        refine tried.head_offered grown ?_
        rintro parent ⟨other, member, -, rfl⟩
        exact pooled other member
      rw [(indexed.listed outPoint hash orphan at_).1] at offered
      exact offered.mono (fun _ among => among) (subset_append_right _ _)
    · have earlier : ∀ other ∈ done ++ [outPoint], other ∈ env.spends wrap.tx → other ∈ done := by
        intro other member shares
        refine (mem_append.mp member).resolve_right fun last => spent ?_
        rwa [← mem_singleton.mp last]
      obtain ⟨other, member, shares⟩ := spends
      refine (asked ⟨other, earlier other member shares, shares⟩).mono ?_ (subset_append_left _ _)
      rintro parent ⟨other, member, shares, rfl⟩
      exact ⟨other, earlier other member shares, shares, rfl⟩
  · exact .inl fun parents => (offered parents).mono (fun _ among => among) (subset_append_right _ _)

theorem Scanned.served (scanned : Scanned env moment outPoints maps others final) (kept : OrphansKept env maps)
    (lone : ∀ entry ∈ final.log, entry.Lone env)
    (parents : ∀ outPoint ∈ outPoints, maps.hashToTx.lookup outPoint.hash ≠ none) (served : Served env start done new maps) :
    ∃ more, Served env start (done ++ outPoints) (new ++ more) final := by
  induction scanned generalizing done new with
  | nil =>
    refine ⟨[], ?_⟩
    rw [append_nil, append_nil]
    exact served
  | cons tried next ih =>
    rw [forall_mem_cons] at parents
    obtain ⟨_, grown⟩ := tried.grown
    obtain ⟨_, later⟩ := next.grown
    have between := tried.keeps (orphansKept_closed apart) kept fun _ => registered_of_orphansOf
    have indexed := kept (grown.lone (later.lone lone))
    obtain ⟨first, served⟩ := tried.served apart keyed indexed parents.1 served
    obtain ⟨more, served⟩ := ih between lone (fun other member => grown.pool _ (parents.2 other member)) served
    refine ⟨first ++ more, ?_⟩
    rw [append_assoc, append_assoc] at served
    exact served

/-- The loop goes through all accepted transactions: the turns are not used up before. -/
theorem Worked.served {turns : Nat} {before waiting : List TxRef}
    (worked : Worked env moment turns before waiting maps all final) (kept : OrphansKept env maps)
    (lone : ∀ entry ∈ final.log, entry.Lone env) (enough : start.registrations + 1 ≤ before.length + turns)
    (split : first :: accepted = before ++ waiting) (advanced : Advanced env start first accepted maps)
    (served : Served env start (before.flatMap env.outputs) new maps) :
    ∃ all' more, Advanced env start first all' final ∧
      Served env start ((first :: all').flatMap env.outputs) (new ++ more) final := by
  induction worked generalizing accepted new with
  | done _ before maps =>
    refine ⟨accepted, [], advanced, ?_⟩
    rw [split, append_nil, append_nil]
    exact served
  | stopped before tx waiting maps =>
    have bound := advanced.length_le
    have count := congrArg length split
    simp only [length_cons, length_append] at count
    omega
  | @turn turns before waiting others all tx maps between final scanned next ih =>
    obtain ⟨_, grown⟩ := scanned.grown
    obtain ⟨_, later⟩ := next.grown
    have parents : ∀ outPoint ∈ env.outputs tx, maps.hashToTx.lookup outPoint.hash ≠ none := by
      intro outPoint member
      rw [outputs_hash member]
      refine advanced.pooled tx ?_
      rw [split]
      exact mem_append_right _ mem_cons_self
    obtain ⟨more, between⟩ := scanned.served apart keyed kept (later.lone lone) parents served
    rw [← flatMap_singleton env.outputs tx, ← flatMap_append] at between
    have enough : start.registrations + 1 ≤ (before ++ [tx]).length + turns := by
      rw [length_append, length_singleton]
      omega
    have split : first :: (accepted ++ others) = before ++ [tx] ++ (waiting ++ others) := by
      rw [← cons_append, split]
      simp
    obtain ⟨all', rest, ended, final⟩ :=
      ih (scanned.keeps (orphansKept_closed apart) kept) lone enough split (scanned.advanced advanced) between
    refine ⟨all', more ++ rest, ended, ?_⟩
    rwa [← append_assoc]

end

theorem removeDoubleSpendOrphans_frame (env : PoolEnv) (moment : Moment) (all : List TxRef) (maps : PoolMaps) :
    ∃ hashToOrphanTx outPointToOrphan, all.foldl (fun maps tx => maps.removeDoubleSpendOrphans env moment tx) maps =
      { maps with hashToOrphanTx, outPointToOrphan } := by
  let framed : PoolMaps → Prop :=
    fun after => ∃ hashToOrphanTx outPointToOrphan, after = { maps with hashToOrphanTx, outPointToOrphan }
  have removed : ∀ {orphan : TxRef} {after : PoolMaps}, framed after → framed (after.removeOrphan env orphan) := by
    rintro orphan _ ⟨_, _, rfl⟩
    exact ⟨_, _, rfl⟩
  refine foldlRecOn all _ (motive := framed) ⟨_, _, rfl⟩ fun after held tx _ => ?_
  refine foldlRecOn (env.spends tx) _ (motive := framed) held fun after held outPoint _ => ?_
  exact foldlRecOn _ _ (motive := framed) held fun _ held _ _ => removed held

theorem orphan_iff_registered (apart : env.HashesApart) (indexed : OrphansIndexed env maps) (tx : TxRef) :
    maps.isOrphanInPool (env.hash tx) = true ↔ env.spends tx ≠ [] ∧
      ∀ outPoint ∈ env.spends tx, orphanAt maps.outPointToOrphan outPoint (env.hash tx) ≠ none := by
  unfold isOrphanInPool
  rw [isSome_iff_exists]
  constructor
  · rintro ⟨wrap, found⟩
    obtain ⟨same, inputs⟩ := indexed.keyed _ wrap found
    rw [apart.spends same.symm]
    exact ⟨inputs, indexed.under _ wrap found⟩
  · rintro ⟨inputs, under⟩
    obtain ⟨outPoint, spent⟩ := exists_mem_of_ne_nil _ inputs
    obtain ⟨orphan, at_⟩ := ne_none_iff_exists'.mp (under outPoint spent)
    exact ne_none_iff_exists'.mp (indexed.listed outPoint _ orphan at_).2.2

theorem Attempt.orphans_offered (apart : env.HashesApart) {before middle : PoolMaps} {tx : TxRef}
    (kept : OrphansKept env before) (attempt : Attempt env moment true tx before (.ok ()) middle)
    (worked : Worked env moment (middle.registrations + 1) [] [tx] middle all final)
    (lone : ∀ entry ∈ final.log, entry.Lone env) :
    ∃ new, final.log = before.log ++ new ∧ ∀ hash wrap, before.hashToOrphanTx.lookup hash = some wrap →
      (∃ parent, ParentAccepted env before final wrap.tx parent) →
        WasOffered env hash (ParentAccepted env before final wrap.tx) new := by
  have keptMiddle := kept.attempt apart attempt
  obtain ⟨_, grown⟩ := worked.grown
  have keyed := (keptMiddle (grown.lone lone)).keyed
  cases attempt with
  | accepted height fresh =>
    have held : ((before.addTx env moment tx height).see env tx).hashToTx.lookup (env.hash tx) ≠ none := by
      change lookup _ (before.hashToTx.insert _ _) ≠ none
      rw [lookup_insert]
      exact nofun
    have advanced : Advanced env ((before.addTx env moment tx height).see env tx) tx []
        ((before.addTx env moment tx height).see env tx) := by
      refine ⟨fun _ held => held, ?_, fun _ held => .inl held, nofun, nodup_nil⟩
      rw [forall_mem_singleton]
      exact held
    have served : Served env ((before.addTx env moment tx height).see env tx) [] []
        ((before.addTx env moment tx height).see env tx) := by
      refine ⟨(append_nil _).symm, nofun, fun hash wrap found => .inr ⟨?_, ?_⟩⟩
      · rw [found]
        exact nofun
      · rintro ⟨_, member, -⟩
        cases member
    obtain ⟨all', new, ended, served⟩ := worked.served apart (fun hash wrap found => (keyed hash wrap found).1) keptMiddle
      lone (Nat.le_of_eq (Nat.zero_add _).symm) rfl advanced served
    refine ⟨new, served.log, fun hash wrap found parents => ?_⟩
    have among : ∀ parent, ParentAccepted env before final wrap.tx parent →
        ∃ outPoint ∈ (tx :: all').flatMap env.outputs, outPoint ∈ env.spends wrap.tx ∧ outPoint.hash = parent := by
      rintro hash ⟨absent, present, parent, rfl, outPoint, output, spent⟩
      have accepted : ∃ other ∈ tx :: all', env.hash other = env.hash parent := by
        rcases ended.only _ present with old | ⟨other, member, same⟩
        · refine ⟨tx, mem_cons_self, ?_⟩
          by_contra differ
          exact old ((lookup_insert_ne (Ne.symm differ)).trans absent)
        · exact ⟨other, mem_cons_of_mem _ member, same⟩
      obtain ⟨other, member, same⟩ := accepted
      exact ⟨outPoint, mem_flatMap.mpr ⟨other, member, apart.outputs same ▸ output⟩, spent, outputs_hash output⟩
    rcases served.each hash wrap found with offered | ⟨-, asked⟩
    · exact offered _
    · obtain ⟨parent, accepted⟩ := parents
      obtain ⟨outPoint, output, spent, -⟩ := among parent accepted
      exact (asked ⟨outPoint, output, spent⟩).mono among (.refl _)

/-- After every run, an orphan is registered under each output it spends, and when
`ProcessTx` accepts transactions, every orphan that spends an output of theirs is offered:
it is accepted, or its accepted parents are all in the pool then. This needs that no two
orphans spend the same output. -/
theorem orphans_registered_and_offered (apart : env.HashesApart) {types : TxRef → TxType}
    {calls : List (Moment × Event)} {pool : TransactionPool} (run : Runs (step env) (TransactionPool.new types) calls pool)
    (lone : ∀ entry ∈ pool.log, entry.Lone env) :
    (∀ tx, pool.isOrphanInPool (env.hash tx) = true ↔ env.spends tx ≠ [] ∧
        ∀ outPoint ∈ env.spends tx, orphanAt pool.outPointToOrphan outPoint (env.hash tx) ≠ none) ∧
      ∀ moment tx final, (processTx env moment tx).Returns pool () final → (∀ entry ∈ final.log, entry.Lone env) →
        ∃ new, final.log = pool.log ++ new ∧ ∀ hash wrap, pool.hashToOrphanTx.lookup hash = some wrap →
          (∃ parent, ParentAccepted env pool.toPoolMaps final.toPoolMaps wrap.tx parent) →
            WasOffered env hash (ParentAccepted env pool.toPoolMaps final.toPoolMaps wrap.tx) new := by
  have kept := orphansKept_runs apart run
  refine ⟨orphan_iff_registered apart (kept lone), fun moment tx final returned loneFinal => ?_⟩
  obtain ⟨_, middle, accepted, processed⟩ := returns_bind.mp returned
  have attempt := maybeAcceptTx_attempt.returned accepted rfl
  obtain ⟨all, between, worked, ended⟩ := processOrphans_worked.returned processed rfl
  obtain ⟨hashToOrphanTx, outPointToOrphan, same⟩ := removeDoubleSpendOrphans_frame env moment all between
  rw [same] at ended
  have log : final.log = between.log := by rw [ended]
  have pooled : final.hashToTx = between.hashToTx := by rw [ended]
  rw [log] at loneFinal ⊢
  obtain ⟨new, grown, offered⟩ := attempt.orphans_offered apart kept worked loneFinal
  refine ⟨new, grown, ?_⟩
  unfold ParentAccepted at offered ⊢
  rwa [pooled]

end TransactionPool

namespace TransactionPool

/-- It is enough to look at the messages that there are. -/
theorem poolEnv_apart {txs : List TxMessage} (distinct : ∀ left ∈ poolTx [] 0 0 :: txs, ∀ right ∈ poolTx [] 0 0 :: txs,
    poolCrypto.calcTxHash left = poolCrypto.calcTxHash right → left = right) : (poolEnv txs).HashesApart := by
  have among : ∀ tx, (poolEnv txs).message tx ∈ poolTx [] 0 0 :: txs := by
    intro tx
    change (txs[tx]?).getD (poolTx [] 0 0) ∈ _
    cases found : txs[tx]? with
    | none => exact mem_cons_self
    | some message => exact mem_cons_of_mem _ (mem_of_getElem? found)
  exact fun tx other same => distinct _ (among tx) _ (among other) same

def waitingPool : TransactionPool := (step familyEnv (familyMoment, .processTx 2)).after (new fun _ => .unknownTx)

def parentPool : TransactionPool := (processTx familyEnv familyMoment 0).after waitingPool

/-- The child is offered when one of its parents is there, and stays an orphan. -/
theorem child_offered :
    waitingPool.isOrphanInPool (familyEnv.hash 2) = true ∧ parentPool.isOrphanInPool (familyEnv.hash 2) = true ∧
      ∃ new, parentPool.log = waitingPool.log ++ new ∧ WasOffered familyEnv (familyEnv.hash 2)
        (ParentAccepted familyEnv waitingPool.toPoolMaps parentPool.toPoolMaps 2) new := by
  have apart : familyEnv.HashesApart := poolEnv_apart (by decide +kernel)
  have run : Runs (step familyEnv) (new fun _ => .unknownTx) [(familyMoment, .processTx 2)] waitingPool :=
    .of_survives (by decide +kernel)
  obtain ⟨-, offered⟩ := orphans_registered_and_offered apart run (by decide +kernel)
  obtain ⟨new, log, each⟩ := offered familyMoment 0 parentPool (returns_after (by decide +kernel)) (by decide +kernel)
  refine ⟨by decide +kernel, by decide +kernel, new, log, each _ ⟨2, 0, 0, false⟩ (by decide +kernel) ?_⟩
  refine ⟨familyEnv.hash 0, by decide +kernel, by decide +kernel, 0, rfl, ⟨familyEnv.hash 0, 0⟩, ?_, ?_⟩
  · decide +kernel
  · decide +kernel

/-- Two transactions that spend the output of another; the first of them pays a wrong
fee. -/
def siblingsEnv : PoolEnv :=
  poolEnv [firstParent, poolTx [⟨poolCrypto.calcTxHash firstParent, 0⟩] 1 4,
    poolTx [⟨poolCrypto.calcTxHash firstParent, 0⟩] 2900000 5]

def siblingsCalls : List (Moment × Event) :=
  [(familyMoment, .processTx 1), (familyMoment, .processTx 2), (familyMoment, .processTx 0)]

def siblingsPool : TransactionPool :=
  siblingsCalls.foldl (fun pool call => (step siblingsEnv call).after pool) (new fun _ => .unknownTx)

/-- The second orphan is not registered, and is not offered when its only parent is
accepted. -/
theorem second_sibling_not_offered : Runs (step siblingsEnv) (new fun _ => .unknownTx) siblingsCalls siblingsPool ∧
      siblingsPool.isTransactionInPool (siblingsEnv.hash 0) = true ∧
      siblingsPool.isOrphanInPool (siblingsEnv.hash 2) = true ∧
      (∀ outPoint ∈ siblingsEnv.spends 2,
        orphanAt siblingsPool.outPointToOrphan outPoint (siblingsEnv.hash 2) = none ∧
          outPoint ∈ siblingsEnv.outputs 0) ∧
      2 ∉ siblingsPool.log.filterMap PoolEntry.offeredTx := by
  exact ⟨.of_survives (by decide +kernel), by decide +kernel, by decide +kernel, by decide +kernel, by decide +kernel⟩

end TransactionPool
end Boxd
