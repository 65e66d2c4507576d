import Boxd.Proofs.PayToPubKeyHash
import Boxd.Proofs.PoolCalls
import Boxd.Proofs.Tokens

/-! The index of the outputs that pooled transactions spend. Removing a transaction also
removes those that spend one of its outputs, but only that output leaves the index: the
others of such a transaction stay blocked. -/

namespace Boxd
open Lib Stateful AList List PoolMaps Table Script Option

variable {tx : TxRef}

namespace PoolMaps

variable {env : PoolEnv} {moment : Moment} {maps : PoolMaps}

def Keyed (env : PoolEnv) (maps : PoolMaps) : Prop :=
  ∀ hash wrap, maps.hashToTx.lookup hash = some wrap → env.hash wrap.tx = hash

/-- An output is mapped to the pooled transaction that spends it. -/
def Indexed (env : PoolEnv) (maps : PoolMaps) : Prop :=
  ∀ outPoint tx, maps.outPointToTx.lookup outPoint = some tx ↔ maps.Pooled tx ∧ outPoint ∈ env.spends tx

/-- Whoever in the pool has the hash of a transaction or spends one of its outputs spends
nothing else. -/
def Covers (env : PoolEnv) (tx : TxRef) (hashToTx : Table HashType TxWrap) : Prop :=
  ∀ entry ∈ hashToTx.entries,
    (entry.1 = env.hash tx ∨ ∃ outPoint ∈ env.spends tx, outPoint ∈ env.spends entry.2.tx) →
      ∀ outPoint ∈ env.spends entry.2.tx, outPoint ∈ env.spends tx

instance decidableCovers (env : PoolEnv) (tx : TxRef) (hashToTx : Table HashType TxWrap) :
    Decidable (Covers env tx hashToTx) :=
  inferInstanceAs (Decidable (∀ entry ∈ hashToTx.entries, _ → _))

theorem Keyed.pooled_iff (keyed : Keyed env maps) :
    maps.Pooled tx ↔ ∃ wrap, maps.hashToTx.lookup (env.hash tx) = some wrap ∧ wrap.tx = tx := by
  constructor
  · rintro ⟨hash, wrap, found, rfl⟩
    exact ⟨wrap, by rwa [keyed hash wrap found], rfl⟩
  · rintro ⟨wrap, found, same⟩
    exact ⟨_, wrap, found, same⟩

theorem Keyed.unique (keyed : Keyed env maps) {other : TxRef} (pooled : maps.Pooled tx) (too : maps.Pooled other)
    (same : env.hash tx = env.hash other) : tx = other := by
  obtain ⟨wrap, found, rfl⟩ := keyed.pooled_iff.mp pooled
  obtain ⟨also, at_, rfl⟩ := keyed.pooled_iff.mp too
  rw [same, at_] at found
  cases found
  rfl

theorem Indexed.covers (keyed : Keyed env maps) (indexed : Indexed env maps) {start : PoolMaps}
    (shrunk : Shrunk maps start) (pooled : maps.Pooled tx) : Covers env tx start.hashToTx := by
  intro entry member related
  have held : maps.Pooled entry.2.tx := ⟨entry.1, entry.2, shrunk.pool _ _ (mem_lookup_iff.mpr member), rfl⟩
  have same : entry.2.tx = tx := by
    rcases related with hash | ⟨outPoint, spent, also⟩
    · refine keyed.unique held pooled ?_
      rw [keyed entry.1 entry.2 (shrunk.pool _ _ (mem_lookup_iff.mpr member)), hash]
    · have left := (indexed outPoint tx).mpr ⟨pooled, spent⟩
      rw [(indexed outPoint entry.2.tx).mpr ⟨held, also⟩] at left
      exact some.inj left
  rw [same]
  exact fun _ spent => spent

theorem unspend_find (hash : HashType) (outPoint other : OutPoint) :
    (unspend env hash maps outPoint).findTransaction other =
      if other = outPoint then none else maps.findTransaction other := by
  unfold unspend
  split
  · next absent =>
    split
    · next same => rw [same, absent]
    · rfl
  · next dsTx found =>
    have erased : (maps.outPointToTx.erase outPoint).lookup other =
        if other = outPoint then none else maps.outPointToTx.lookup other := by
      split
      · next same => rw [same, lookup_erase]
      · next differ => rw [lookup_erase_ne differ]
    dsimp only
    split
    · exact erased
    · exact erased

theorem unspend_pool (hash other : HashType) (outPoint : OutPoint) (wrap : TxWrap) :
    (unspend env hash maps outPoint).hashToTx.lookup other = some wrap ↔ maps.hashToTx.lookup other = some wrap ∧
        ∀ dsTx, maps.findTransaction outPoint = some dsTx → env.hash dsTx = other → other = hash := by
  unfold unspend
  split
  · next absent => simp [absent]
  · next dsTx found =>
    simp only [found, some.injEq, forall_eq']
    split
    · next same =>
      rw [same]
      exact ⟨fun at_ => ⟨at_, fun equal => equal.symm⟩, And.left⟩
    · next differ =>
      constructor
      · intro at_
        obtain ⟨apart, at_⟩ := lookup_of_erase at_
        exact ⟨at_, fun equal => absurd equal.symm apart⟩
      · rintro ⟨at_, only⟩
        rw [lookup_erase_ne]
        · exact at_
        · rintro rfl
          exact differ (only rfl)

theorem unspends_find (hash : HashType) (outPoints : List OutPoint) (maps : PoolMaps) (other : OutPoint) :
    (outPoints.foldl (unspend env hash) maps).findTransaction other =
      if other ∈ outPoints then none else maps.findTransaction other := by
  induction outPoints generalizing maps with
  | nil => rfl
  | cons outPoint rest next =>
    rw [foldl_cons, next, unspend_find]
    by_cases first : other = outPoint
    · simp [first]
    · simp [first]

theorem unspends_pool (hash other : HashType) (outPoints : List OutPoint) (maps : PoolMaps) (wrap : TxWrap) :
    (outPoints.foldl (unspend env hash) maps).hashToTx.lookup other = some wrap ↔
      maps.hashToTx.lookup other = some wrap ∧ ∀ outPoint ∈ outPoints, ∀ dsTx,
        maps.findTransaction outPoint = some dsTx → env.hash dsTx = other → other = hash := by
  induction outPoints generalizing maps with
  | nil => simp
  | cons outPoint rest next =>
    rw [foldl_cons, next, unspend_pool, forall_mem_cons, and_assoc]
    refine and_congr_right fun _ => and_congr_right fun here => forall₂_congr fun later _ => ?_
    refine forall_congr' fun dsTx => ?_
    rw [unspend_find]
    split
    · next same =>
      subst same
      exact ⟨fun _ => here dsTx, fun _ absent => by cases absent⟩
    · rfl

theorem dropTx_find (tx : TxRef) (maps : PoolMaps) (outPoint : OutPoint) :
    (maps.dropTx env tx).findTransaction outPoint =
      if outPoint ∈ env.spends tx then none else maps.findTransaction outPoint :=
  unspends_find _ _ _ _

theorem dropTx_pool (tx : TxRef) (maps : PoolMaps) (hash : HashType) (wrap : TxWrap) :
    (maps.dropTx env tx).hashToTx.lookup hash = some wrap ↔
      maps.hashToTx.lookup hash = some wrap ∧ hash ≠ env.hash tx ∧ ∀ outPoint ∈ env.spends tx, ∀ dsTx,
        maps.findTransaction outPoint = some dsTx → env.hash dsTx ≠ hash := by
  unfold dropTx
  rw [unspends_pool]
  constructor
  · rintro ⟨at_, others⟩
    obtain ⟨differ, at_⟩ := lookup_of_erase at_
    exact ⟨at_, differ, fun outPoint spent dsTx found same => differ (others outPoint spent dsTx found same)⟩
  · rintro ⟨at_, differ, others⟩
    refine ⟨?_, fun outPoint spent dsTx found same => absurd same (others outPoint spent dsTx found)⟩
    rw [lookup_erase_ne differ]
    exact at_

theorem Keyed.dropTx (keyed : Keyed env maps) (tx : TxRef) : Keyed env (maps.dropTx env tx) :=
  fun hash wrap found => keyed hash wrap ((dropTx_shrunk tx maps).pool hash wrap found)

/-- The index stays right when those that go with a transaction spend nothing else. -/
theorem Indexed.dropTx (keyed : Keyed env maps) (indexed : Indexed env maps)
    (covers : Covers env tx maps.hashToTx) : Indexed env (maps.dropTx env tx) := by
  intro outPoint other
  change (maps.dropTx env tx).findTransaction outPoint = some other ↔ _
  rw [dropTx_find]
  constructor
  · intro at_
    split at at_
    · cases at_
    next kept =>
      obtain ⟨pooled, spent⟩ := (indexed outPoint other).mp at_
      obtain ⟨wrap, found, same⟩ := keyed.pooled_iff.mp pooled
      have apart : ∀ related : env.hash other = env.hash tx ∨
          ∃ outPoint ∈ env.spends tx, outPoint ∈ env.spends other, False := by
        intro related
        refine kept (covers ⟨_, wrap⟩ (mem_lookup_iff.mp found) ?_ outPoint ?_)
        · rw [same]
          exact related
        · rw [same]
          exact spent
      refine ⟨⟨env.hash other, wrap, (dropTx_pool _ _ _ _).mpr ⟨found, fun equal => apart (.inl equal), ?_⟩, same⟩, spent⟩
      intro shared spends dsTx at_ equal
      obtain ⟨held, also⟩ := (indexed shared dsTx).mp at_
      obtain rfl := keyed.unique held pooled equal
      exact apart (.inr ⟨shared, spends, also⟩)
  · rintro ⟨⟨hash, wrap, found, rfl⟩, spent⟩
    obtain ⟨at_, -, others⟩ := (dropTx_pool _ _ _ _).mp found
    have mapped := (indexed outPoint wrap.tx).mpr ⟨⟨hash, wrap, at_, rfl⟩, spent⟩
    rw [if_neg]
    · exact mapped
    · exact fun shared => others outPoint shared wrap.tx mapped (keyed hash wrap at_)

theorem lookup_spends (tx : TxRef) (outPoints : List OutPoint) (index : Table OutPoint TxRef) (outPoint : OutPoint) :
    (outPoints.foldl (fun index outPoint => index.insert outPoint tx) index).lookup outPoint =
      if outPoint ∈ outPoints then some tx else index.lookup outPoint := by
  induction outPoints generalizing index with
  | nil => rfl
  | cons first rest next =>
    rw [foldl_cons, next]
    by_cases same : outPoint = first
    · subst same
      simp
    · simp [same, lookup_insert_ne same]

theorem Keyed.addTx (keyed : Keyed env maps) (tx : TxRef) (height : UInt32) :
    Keyed env (maps.addTx env moment tx height) :=
  All.insert keyed rfl

theorem Indexed.addTx (keyed : Keyed env maps) (indexed : Indexed env maps) {height : UInt32}
    (fresh : maps.hashToTx.lookup (env.hash tx) = none)
    (unspent : ∀ outPoint ∈ env.spends tx, maps.findTransaction outPoint = none) :
    Indexed env (maps.addTx env moment tx height) := by
  have keyedAfter : Keyed env (maps.addTx env moment tx height) := keyed.addTx tx height
  have pooled : ∀ other, (maps.addTx env moment tx height).Pooled other ↔ other = tx ∨ maps.Pooled other := by
    intro other
    rw [keyedAfter.pooled_iff, keyed.pooled_iff]
    change (∃ wrap, (maps.hashToTx.insert (env.hash tx) _).lookup (env.hash other) = some wrap ∧ _) ↔ _
    by_cases same : env.hash other = env.hash tx
    · rw [same, lookup_insert, fresh]
      simp [eq_comm]
    · rw [lookup_insert_ne same]
      have differ : other ≠ tx := fun equal => same (congrArg env.hash equal)
      simp [differ]
  intro outPoint other
  have mapped : (maps.addTx env moment tx height).outPointToTx.lookup outPoint =
      if outPoint ∈ env.spends tx then some tx else maps.outPointToTx.lookup outPoint := lookup_spends tx _ _ _
  rw [mapped, pooled]
  constructor
  · intro at_
    split at at_
    · next spent =>
      cases at_
      exact ⟨.inl rfl, spent⟩
    · obtain ⟨held, spent⟩ := (indexed outPoint other).mp at_
      exact ⟨.inr held, spent⟩
  · rintro ⟨rfl | held, spent⟩
    · rw [if_pos spent]
    · have mapped := (indexed outPoint other).mpr ⟨held, spent⟩
      rw [if_neg]
      · exact mapped
      · intro shared
        rw [show maps.outPointToTx.lookup outPoint = none from unspent outPoint shared] at mapped
        cases mapped

theorem dropTx_frame (env : PoolEnv) (tx : TxRef) (maps : PoolMaps) :
    ∃ hashToTx outPointToTx, maps.dropTx env tx = { maps with hashToTx, outPointToTx } := by
  refine foldlRecOn (env.spends tx) _
    (motive := fun after : PoolMaps => ∃ hashToTx outPointToTx, after = { maps with hashToTx, outPointToTx })
    ⟨_, _, rfl⟩ fun between same outPoint _ => ?_
  obtain ⟨hashToTx, outPointToTx, rfl⟩ := same
  unfold unspend
  split
  · exact ⟨_, _, rfl⟩
  · dsimp only
    split
    · exact ⟨_, _, rfl⟩
    · exact ⟨_, _, rfl⟩

theorem dropTx_log (tx : TxRef) (maps : PoolMaps) : (maps.dropTx env tx).log = maps.log := by
  obtain ⟨_, _, same⟩ := dropTx_frame env tx maps
  rw [same]

end PoolMaps

/-- A transaction that was removed from outside covers those that went with it. -/
def PoolEntry.Whole (env : PoolEnv) : PoolEntry → Prop
  | .removed tx hashToTx => Covers env tx hashToTx
  | _ => True

instance PoolEntry.decidableWhole (env : PoolEnv) : DecidablePred (PoolEntry.Whole env)
  | .removed tx hashToTx => decidableCovers env tx hashToTx
  | .orphaned _ _ _ => .isTrue trivial
  | .offered _ _ _ _ => .isTrue trivial

namespace PoolMaps

variable {env : PoolEnv} {maps after : PoolMaps}

/-- The index is right if every removal was whole. -/
def IndexKept (env : PoolEnv) : PoolMaps → Prop :=
  Given (PoolEntry.Whole env) fun maps => Keyed env maps ∧ Indexed env maps

section
variable (kept : IndexKept env maps)
include kept

theorem IndexKept.of_same (pool : after.hashToTx = maps.hashToTx)
    (index : after.outPointToTx = maps.outPointToTx) (log : maps.log ⊆ after.log) : IndexKept env after := by
  intro whole
  obtain ⟨keyed, indexed⟩ := kept fun entry member => whole entry (log member)
  unfold Keyed Indexed Pooled
  rw [pool, index]
  exact ⟨keyed, indexed⟩

theorem IndexKept.dropTx
    (covers : (∀ entry ∈ maps.log, entry.Whole env) → Keyed env maps → Indexed env maps → Covers env tx maps.hashToTx) :
    IndexKept env (maps.dropTx env tx) := by
  intro whole
  rw [dropTx_log] at whole
  obtain ⟨keyed, indexed⟩ := kept whole
  exact ⟨keyed.dropTx tx, indexed.dropTx keyed (covers whole keyed indexed)⟩

theorem IndexKept.drop {outPoint : OutPoint} {child : TxRef}
    (found : maps.findTransaction outPoint = some child) : IndexKept env (maps.dropTx env child) :=
  kept.dropTx fun _ keyed indexed => indexed.covers keyed (.refl maps) ((indexed outPoint child).mp found).1

theorem IndexKept.outside (tx : TxRef) : IndexKept env ((maps.note (.removed tx maps.hashToTx)).dropTx env tx) := by
  have noted : IndexKept env (maps.note (.removed tx maps.hashToTx)) := kept.of_same rfl rfl (subset_append_left _ _)
  refine noted.dropTx fun whole _ _ => ?_
  exact whole _ (mem_append_right _ mem_cons_self)

theorem IndexKept.attempt {moment : Moment} {detectDupOrphan : Bool}
    {result : Except (Fault PoolError) Unit}
    (attempt : TransactionPool.Attempt env moment detectDupOrphan tx maps result after) : IndexKept env after := by
  cases attempt with
  | accepted height fresh inputs unspent distinct =>
    intro whole
    obtain ⟨keyed, indexed⟩ := kept whole
    exact ⟨keyed.addTx tx height, indexed.addTx keyed fresh.pool unspent⟩
  | orphaned => exact kept.of_same rfl rfl (subset_append_left _ _)
  | duplicate => exact kept
  | refused => exact kept

theorem IndexKept.note (entry : PoolEntry) : IndexKept env (maps.note entry) :=
  kept.of_same rfl rfl (subset_append_left _ _)

theorem IndexKept.check {hash : HashType} {wrap : TxWrap} (found : maps.hashToTx.lookup hash = some wrap) :
    IndexKept env { maps with hashToTx := maps.hashToTx.insert hash { wrap with isScriptValid := true } } := by
  intro whole
  obtain ⟨keyed, indexed⟩ := kept whole
  refine ⟨All.insert keyed (keyed hash wrap found), fun outPoint tx => ?_⟩
  refine (indexed outPoint tx).trans (and_congr_left fun _ => ?_)
  constructor
  · rintro ⟨other, held, at_, same⟩
    by_cases equal : other = hash
    · subst equal
      rw [found] at at_
      cases at_
      exact ⟨other, _, lookup_insert _, same⟩
    · exact ⟨other, held, by rwa [lookup_insert_ne equal], same⟩
  · rintro ⟨other, held, at_, same⟩
    obtain ⟨rfl, rfl⟩ | ⟨-, before⟩ := lookup_insert_cases at_
    · exact ⟨other, wrap, found, same⟩
    · exact ⟨other, held, before, same⟩

end

/-- Every output that a pooled transaction spends leads to it. -/
def Claimed (env : PoolEnv) (maps : PoolMaps) : Prop :=
  All (fun hash wrap => env.hash wrap.tx = hash ∧
    ∀ outPoint ∈ env.spends wrap.tx, maps.findTransaction outPoint = some wrap.tx) maps.hashToTx

section
variable (claimed : Claimed env maps)
include claimed

theorem Claimed.dropTx (tx : TxRef) : Claimed env (maps.dropTx env tx) := by
  intro hash wrap held
  obtain ⟨before, -, others⟩ := (dropTx_pool tx maps hash wrap).mp held
  obtain ⟨keyed, found⟩ := claimed hash wrap before
  refine ⟨keyed, fun outPoint spent => ?_⟩
  rw [dropTx_find, if_neg]
  · exact found outPoint spent
  · exact fun shared => others outPoint shared wrap.tx (found outPoint spent) keyed

theorem Claimed.attempt {moment : Moment} {detectDupOrphan : Bool} {result : Except (Fault PoolError) Unit}
    (attempt : TransactionPool.Attempt env moment detectDupOrphan tx maps result after) : Claimed env after := by
  cases attempt with
  | orphaned | duplicate | refused => exact claimed
  | accepted height fresh inputs unspent distinct =>
    have index (outPoint : OutPoint) : (maps.addTx env moment tx height).findTransaction outPoint =
        if outPoint ∈ env.spends tx then some tx else maps.findTransaction outPoint := lookup_spends tx _ _ _
    refine All.insert (fun hash wrap held => ?_) ⟨rfl, fun outPoint spent => (index outPoint).trans (if_pos spent)⟩
    obtain ⟨keyed, found⟩ := claimed hash wrap held
    refine ⟨keyed, fun outPoint spent => (index outPoint).trans ((if_neg ?_).trans (found outPoint spent))⟩
    intro shared
    cases (unspent outPoint shared).symm.trans (found outPoint spent)

end

end PoolMaps

namespace TransactionPool

variable {env : PoolEnv}

theorem indexKept_closed : Closed env (IndexKept env) where
  attempt kept attempt := kept.attempt attempt
  accept kept _ attempt := ((kept.attempt attempt).note _).of_same rfl rfl (.refl _)
  refuse kept _ attempt := (kept.attempt attempt).note _
  removeOrphan kept := kept.of_same rfl rfl (.refl _)
  drop kept found := kept.drop found
  evict kept found := (kept.drop found).of_same rfl rfl (subset_append_left _ _)
  expire ofStart kept shrunk pooled := by
    refine kept.dropTx fun whole _ _ => ?_
    obtain ⟨keyed, indexed⟩ := ofStart fun entry member => whole entry (shrunk.log member)
    exact indexed.covers keyed shrunk pooled
  outside kept := kept.outside _
  forget kept := kept.of_same rfl rfl (.refl _)
  confirm {tx maps} kept := by
    have seen : IndexKept env (maps.see env tx) := kept.of_same rfl rfl (.refl _)
    exact (seen.outside tx).of_same rfl rfl (.refl _)
  check kept found := kept.check found

/-- After every run in which no transaction from outside took another one with it that
spends more than it does, an output is mapped to a transaction if and only if that
transaction is pooled and spends it. -/
theorem outpoints_indexed {types : TxRef → TxType} {calls : List (Moment × Event)} {pool : TransactionPool}
    (run : Runs (step env) (new types) calls pool) (whole : ∀ entry ∈ pool.log, entry.Whole env) :
    (∀ outPoint tx, pool.outPointToTx.lookup outPoint = some tx ↔ pool.Pooled tx ∧ outPoint ∈ env.spends tx) ∧
      ∀ outPoint tx other, pool.Pooled tx → pool.Pooled other → outPoint ∈ env.spends tx → outPoint ∈ env.spends other →
        tx = other := by
  have empty : IndexKept env (new types).toPoolMaps := by
    intro _
    refine ⟨All.empty _, fun outPoint tx => ⟨fun found => (by cases found), ?_⟩⟩
    rintro ⟨⟨hash, wrap, found, -⟩, -⟩
    cases found
  obtain ⟨-, indexed⟩ := indexKept_closed.runs run empty whole
  refine ⟨indexed, fun outPoint tx other pooled too spent also => ?_⟩
  have left := (indexed outPoint tx).mpr ⟨pooled, spent⟩
  rw [(indexed outPoint other).mpr ⟨too, also⟩] at left
  exact (some.inj left).symm

theorem claimed_closed : Closed env (Claimed env) where
  attempt claimed attempt := claimed.attempt attempt
  accept claimed _ attempt := (claimed.attempt attempt :)
  refuse claimed _ attempt := (claimed.attempt attempt :)
  removeOrphan claimed := claimed
  drop claimed _ := claimed.dropTx _
  evict claimed _ := claimed.dropTx _
  expire _ claimed _ _ := claimed.dropTx _
  outside {tx maps} claimed := by
    have noted : Claimed env (maps.note (.removed tx maps.hashToTx)) := claimed
    exact noted.dropTx tx
  forget claimed := claimed
  confirm {tx maps} claimed := by
    have seen : Claimed env ((maps.see env tx).note (.removed tx maps.hashToTx)) := claimed
    exact seen.dropTx tx
  check claimed held := All.insert claimed (claimed _ _ held :)

/-- After every run, whatever was removed, expired or came back with a detached block, each
output that a pooled transaction spends leads to it, and no other one spends it. -/
theorem pool_without_double_spends {types : TxRef → TxType} {calls : List (Moment × Event)} {pool : TransactionPool}
    (run : Runs (step env) (new types) calls pool) {outPoint : OutPoint} (pooled : pool.Pooled tx)
    (spent : outPoint ∈ env.spends tx) : pool.findTransaction outPoint = some tx ∧
      ∀ other, pool.Pooled other → outPoint ∈ env.spends other → other = tx := by
  have claimed : Claimed env pool.toPoolMaps := claimed_closed.runs run (All.empty _)
  have found : ∀ other, pool.Pooled other → outPoint ∈ env.spends other → pool.findTransaction outPoint = some other := by
    rintro other ⟨hash, wrap, held, rfl⟩ shared
    exact (claimed hash wrap held).2 outPoint shared
  refine ⟨found tx pooled spent, fun other too shared => ?_⟩
  exact some.inj ((found other too shared).symm.trans (found tx pooled spent))

/-- A hash that shows the end of what is hashed, where the lock time stands. -/
def poolCrypto : Crypto := { sampleCrypto with doubleHash := fun data => .copy 32 data.reverse }

def poolTx (inputs : List OutPoint) (value : UInt64) (lockTime : Int64) : TxMessage where
  version := 1
  vin := inputs.map fun outPoint => ⟨outPoint, sampleScriptSig, maxUint32⟩
  vout := [⟨value, payToPubKeyHashScript sampleKeyHash⟩]
  data := none
  magic := 1
  lockTime

def poolEnv (txs : List TxMessage) : PoolEnv := ⟨poolCrypto, samplePow10, fun tx => txs.getD tx (poolTx [] 0 0)⟩

/-- A chain with outputs of the given values, without contracts. -/
def poolMoment (outputs : List (OutPoint × UInt64)) : Moment where
  db := outputs.foldl (fun db (outPoint, value) =>
    db.insert outPoint ⟨value, payToPubKeyHashScript sampleKeyHash, 1⟩) ∅
  tailState := ⟨fun _ => false, fun _ => none, fun _ => 0, fun _ => 0⟩
  exist _ := false
  longestChainHeight := 1
  now := 0
  range := ⟨id, fun values => .refl values⟩

def firstOutput : OutPoint := ⟨.fill 32 1, 0⟩
def secondOutput : OutPoint := ⟨.fill 32 2, 0⟩

/-- A transaction that spends both outputs, and one that spends the first of them. -/
def conflictEnv : PoolEnv :=
  poolEnv [poolTx [firstOutput, secondOutput] 950000 1, poolTx [firstOutput] 950000 2]

def conflictMoment : Moment := poolMoment [(firstOutput, 1000000), (secondOutput, 1000000)]

/-- The pooled transaction itself is confirmed. -/
def confirmedCalls : List (Moment × Event) :=
  [(conflictMoment, .processTx 0), (conflictMoment, .processChainUpdateMsg [] [[2, 0]])]

def confirmedPool : TransactionPool :=
  confirmedCalls.foldl (fun pool call => (step conflictEnv call).after pool) (new fun _ => .unknownTx)

theorem confirmed_outpoints_indexed : (confirmedPool.outPointToTx.lookup secondOutput = some 0 ↔
        confirmedPool.Pooled 0 ∧ secondOutput ∈ conflictEnv.spends 0) ∧
      confirmedPool.outPointToTx.lookup secondOutput = none := by
  have run : Runs (step conflictEnv) (new fun _ => .unknownTx) confirmedCalls confirmedPool :=
    .of_survives (by decide +kernel)
  exact ⟨(outpoints_indexed run (by decide +kernel)).1 secondOutput 0, by decide +kernel⟩

/-- The second transaction spends an output of the first one and is refused. -/
theorem refused_double_spend : ∃ pool, Runs (step conflictEnv) (new fun _ => .unknownTx)
      [(conflictMoment, .processTx 0), (conflictMoment, .processTx 1)] pool ∧
      ∀ other, pool.Pooled other → firstOutput ∈ conflictEnv.spends other → other = 0 := by
  refine ⟨_, .of_survives (by decide +kernel), ?_⟩
  refine (pool_without_double_spends (.of_survives (by decide +kernel)) ?_ (by decide)).2
  exact ⟨conflictEnv.hash 0, ⟨0, 0, 2, false⟩, by decide +kernel, rfl⟩

/-- A block confirms a transaction that conflicts with a pooled one. -/
def conflictCalls : List (Moment × Event) :=
  [(conflictMoment, .processTx 0), (conflictMoment, .processChainUpdateMsg [] [[2, 1]])]

def conflictPool : TransactionPool :=
  conflictCalls.foldl (fun pool call => (step conflictEnv call).after pool) (new fun _ => .unknownTx)

/-- The second output stays blocked by a transaction that left the pool. -/
theorem conflict_leaves_outpoint : Runs (step conflictEnv) (new fun _ => .unknownTx) conflictCalls conflictPool ∧
      conflictPool.outPointToTx.lookup secondOutput = some 0 ∧ conflictPool.hashToTx.entries = [] := by
  exact ⟨.of_survives (by decide +kernel), by decide +kernel, by decide +kernel⟩

end TransactionPool
end Boxd
