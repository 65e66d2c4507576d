import Boxd.Proofs.PoolIndex

/-! The index of the outputs that orphans wait for. The first orphan of an output is kept
in the index; the next one is not added, because `LoadOrStore` finds the map of the first. -/

namespace Boxd
open Lib Stateful Option AList List PoolMaps Table

def PoolEnv.HashesApart (env : PoolEnv) : Prop :=
  ∀ tx other, env.hash tx = env.hash other → env.message tx = env.message other

namespace PoolEnv.HashesApart

variable {env : PoolEnv} {tx other : TxRef}

theorem spends (apart : env.HashesApart) (same : env.hash tx = env.hash other) : env.spends tx = env.spends other := by
  unfold PoolEnv.spends
  rw [apart tx other same]

theorem outputs (apart : env.HashesApart) (same : env.hash tx = env.hash other) : env.outputs tx = env.outputs other := by
  unfold PoolEnv.outputs
  rw [apart tx other same, same]

end PoolEnv.HashesApart

/-- No other orphan spent an output of a transaction that was put among the orphans. -/
def PoolEntry.Lone (env : PoolEnv) : PoolEntry → Prop
  | .orphaned tx hashToOrphanTx _ =>
    ∀ entry ∈ hashToOrphanTx.entries, entry.1 ≠ env.hash tx → ∀ outPoint ∈ env.spends entry.2.tx, outPoint ∉ env.spends tx
  | _ => True

instance PoolEntry.decidableLone (env : PoolEnv) : DecidablePred (PoolEntry.Lone env)
  | .removed _ _ => .isTrue trivial
  | .orphaned _ hashToOrphanTx _ => inferInstanceAs (Decidable (∀ entry ∈ hashToOrphanTx.entries, _ → _))
  | .offered _ _ _ _ => .isTrue trivial

namespace PoolMaps

variable {env : PoolEnv} {moment : Moment} {maps after : PoolMaps} {tx : TxRef}

def orphanAt (index : Table OutPoint (Table HashType TxRef)) (outPoint : OutPoint) (hash : HashType) : Option TxRef :=
  (index.lookup outPoint).bind fun orphans => orphans.lookup hash

theorem lookup_unregister (hash : HashType) (index : Table OutPoint (Table HashType TxRef)) (outPoint at_ : OutPoint) :
    (unregisterOrphan hash index outPoint).lookup at_ =
      if at_ = outPoint then
        ((index.lookup outPoint).map fun orphans => orphans.erase hash).filter fun orphans => !orphans.entries.isEmpty
      else index.lookup at_ := by
  unfold unregisterOrphan
  by_cases here : at_ = outPoint
  · subst here
    rw [if_pos rfl]
    cases found : index.lookup at_ with
    | none => exact found
    | some orphans =>
      cases empty : (orphans.erase hash).entries.isEmpty with
      | true => simp [Option.filter, empty]
      | false => simp [Option.filter, empty]
  · rw [if_neg here]
    cases found : index.lookup outPoint with
    | none => rfl
    | some orphans =>
      dsimp only
      split
      · exact lookup_erase_ne here
      · exact lookup_insert_ne here

theorem lookup_singleton {κ ν : Type} [DecidableEq κ] (key other : κ) (value : ν) :
    lookup other (singleton key value : Table κ ν) = if other = key then some value else none := by
  rw [← insert_empty]
  split
  · next same => rw [same, lookup_insert]
  · next differ => rw [lookup_insert_ne differ, lookup_empty]

theorem lookup_erase_eq {κ ν : Type} [DecidableEq κ] (table : Table κ ν) (key other : κ) :
    (table.erase key).lookup other = if other = key then none else table.lookup other := by
  split
  · next same => rw [same, lookup_erase]
  · next differ => rw [lookup_erase_ne differ]

theorem orphanAt_unregister (hash other : HashType) (index : Table OutPoint (Table HashType TxRef))
    (outPoint at_ : OutPoint) :
    orphanAt (unregisterOrphan hash index outPoint) at_ other =
      if at_ = outPoint ∧ other = hash then none else orphanAt index at_ other := by
  unfold orphanAt
  rw [lookup_unregister]
  by_cases same : at_ = outPoint
  · subst same
    rw [if_pos rfl]
    cases found : index.lookup at_ with
    | none => simp
    | some orphans =>
      simp only [true_and, bind_some, map_some]
      rw [← lookup_erase_eq]
      cases empty : (orphans.erase hash).entries.isEmpty with
      | true =>
        have none : (orphans.erase hash).entries = [] := isEmpty_iff.mp empty
        simp [AList.lookup, Option.filter, none]
      | false => simp [Option.filter, empty]
  · rw [if_neg same, if_neg fun here => same here.1]

theorem orphanAt_removeOrphan (tx : TxRef) (maps : PoolMaps) (outPoint : OutPoint) (hash : HashType) :
    orphanAt (maps.removeOrphan env tx).outPointToOrphan outPoint hash =
      if outPoint ∈ env.spends tx ∧ hash = env.hash tx then none else orphanAt maps.outPointToOrphan outPoint hash := by
  change orphanAt ((env.spends tx).foldl _ _) outPoint hash = _
  generalize maps.outPointToOrphan = index
  induction env.spends tx generalizing index with
  | nil => simp
  | cons first rest next =>
    rw [foldl_cons, next, orphanAt_unregister]
    by_cases here : outPoint = first
    · by_cases same : hash = env.hash tx
      · simp [here, same]
      · simp [same]
    · simp [here]

theorem lookup_register (tx : TxRef) (index : Table OutPoint (Table HashType TxRef)) (outPoint at_ : OutPoint) :
    (registerOrphan env tx index outPoint).lookup at_ =
      if at_ = outPoint then some ((index.lookup outPoint).getD (singleton (env.hash tx) tx))
      else index.lookup at_ := by
  unfold registerOrphan
  split
  · next absent =>
    split
    · next here => rw [here, lookup_insert, absent, getD_none]
    · next other => rw [lookup_insert_ne other]
  · next orphans found =>
    split
    · next here => rw [here, found, getD_some]
    · rfl

theorem lookup_addOrphan (tx : TxRef) (maps : PoolMaps) (outPoint : OutPoint) :
    (maps.addOrphan env moment tx).outPointToOrphan.lookup outPoint =
      if outPoint ∈ env.spends tx then
        some ((maps.outPointToOrphan.lookup outPoint).getD (singleton (env.hash tx) tx))
      else maps.outPointToOrphan.lookup outPoint := by
  change AList.lookup outPoint ((env.spends tx).foldl _ _) = _
  generalize maps.outPointToOrphan = index
  induction env.spends tx generalizing index with
  | nil => simp
  | cons first rest next =>
    rw [foldl_cons, next, lookup_register]
    by_cases here : outPoint = first
    · subst here
      simp
    · simp [here]

/-- An orphan is registered under what it spends, and under nothing else. -/
structure OrphansIndexed (env : PoolEnv) (maps : PoolMaps) : Prop where
  keyed : ∀ hash wrap, maps.hashToOrphanTx.lookup hash = some wrap → env.hash wrap.tx = hash ∧ env.spends wrap.tx ≠ []
  under : ∀ hash wrap, maps.hashToOrphanTx.lookup hash = some wrap →
    ∀ outPoint ∈ env.spends wrap.tx, orphanAt maps.outPointToOrphan outPoint hash ≠ none
  filled : ∀ outPoint orphans, maps.outPointToOrphan.lookup outPoint = some orphans → orphans.entries ≠ []
  listed : ∀ outPoint hash tx, orphanAt maps.outPointToOrphan outPoint hash = some tx →
    env.hash tx = hash ∧ outPoint ∈ env.spends tx ∧ maps.hashToOrphanTx.lookup hash ≠ none
  alone : ∀ outPoint hash other, orphanAt maps.outPointToOrphan outPoint hash ≠ none →
    orphanAt maps.outPointToOrphan outPoint other ≠ none → hash = other
  spent : ∀ outPoint tx, maps.outPointToTx.lookup outPoint = some tx → outPoint ∈ env.spends tx

namespace OrphansIndexed

theorem of_same (indexed : OrphansIndexed env maps) (orphans : after.hashToOrphanTx = maps.hashToOrphanTx)
    (index : after.outPointToOrphan = maps.outPointToOrphan)
    (spent : ∀ outPoint tx, after.outPointToTx.lookup outPoint = some tx → outPoint ∈ env.spends tx) :
    OrphansIndexed env after := by
  obtain ⟨keyed, under, filled, listed, alone, -⟩ := indexed
  constructor
  · rwa [orphans]
  · rwa [orphans, index]
  · rwa [index]
  · rwa [orphans, index]
  · rwa [index]
  · exact spent

theorem removeOrphan (apart : env.HashesApart) (indexed : OrphansIndexed env maps) (tx : TxRef) :
    OrphansIndexed env (maps.removeOrphan env tx) := by
  constructor
  · intro hash wrap found
    exact indexed.keyed hash wrap (lookup_of_erase found).2
  · intro hash wrap found outPoint spent
    obtain ⟨differ, held⟩ := lookup_of_erase found
    rw [orphanAt_removeOrphan, if_neg fun here => differ here.2]
    exact indexed.under hash wrap held outPoint spent
  · refine foldlRecOn (env.spends tx) _ (motive := fun index : Table OutPoint (Table HashType TxRef) =>
      ∀ outPoint orphans, index.lookup outPoint = some orphans → orphans.entries ≠ []) indexed.filled ?_
    intro index filled outPoint _ at_ orphans found
    rw [lookup_unregister] at found
    split at found
    · have kept := (filter_eq_some_iff.mp found).2
      rintro empty
      simp [empty] at kept
    · exact filled at_ orphans found
  · intro outPoint hash orphan at_
    rw [orphanAt_removeOrphan] at at_
    split at at_
    · cases at_
    next other =>
      obtain ⟨same, spent, held⟩ := indexed.listed outPoint hash orphan at_
      have differ : hash ≠ env.hash tx := by
        intro equal
        refine other ⟨?_, equal⟩
        rw [← apart.spends (same.trans equal)]
        exact spent
      exact ⟨same, spent, by rwa [← lookup_erase_ne differ] at held⟩
  · intro outPoint hash other first second
    rw [orphanAt_removeOrphan] at first second
    split at first
    · exact absurd rfl first
    split at second
    · exact absurd rfl second
    exact indexed.alone outPoint hash other first second
  · exact indexed.spent

theorem orphanAt_addOrphan (outPoint : OutPoint) (hash : HashType) :
    orphanAt (maps.addOrphan env moment tx).outPointToOrphan outPoint hash =
      if outPoint ∈ env.spends tx ∧ maps.outPointToOrphan.lookup outPoint = none then
        if hash = env.hash tx then some tx else none
      else orphanAt maps.outPointToOrphan outPoint hash := by
  unfold orphanAt
  rw [lookup_addOrphan]
  by_cases spent : outPoint ∈ env.spends tx
  · cases found : maps.outPointToOrphan.lookup outPoint with
    | none =>
      rw [if_pos spent, if_pos ⟨spent, rfl⟩]
      exact lookup_singleton _ _ _
    | some orphans => simp [spent]
  · simp [spent]

theorem lone_at (apart : env.HashesApart) (indexed : OrphansIndexed env maps)
    (lone : PoolEntry.Lone env (.orphaned tx maps.hashToOrphanTx (maps.txcache.contains (env.hash tx))))
    {outPoint : OutPoint} (spent : outPoint ∈ env.spends tx) {hash : HashType}
    (held : orphanAt maps.outPointToOrphan outPoint hash ≠ none) : hash = env.hash tx := by
  obtain ⟨orphan, at_⟩ := ne_none_iff_exists'.mp held
  obtain ⟨same, also, present⟩ := indexed.listed outPoint hash orphan at_
  obtain ⟨wrap, found⟩ := ne_none_iff_exists'.mp present
  by_contra differ
  refine lone ⟨hash, wrap⟩ (mem_lookup_iff.mp found) differ outPoint ?_ spent
  rw [apart.spends ((indexed.keyed hash wrap found).1.trans same.symm)]
  exact also

theorem addOrphan (apart : env.HashesApart) (indexed : OrphansIndexed env maps) (inputs : env.spends tx ≠ [])
    (lone : PoolEntry.Lone env (.orphaned tx maps.hashToOrphanTx (maps.txcache.contains (env.hash tx)))) :
    OrphansIndexed env (maps.addOrphan env moment tx) := by
  have under : ∀ outPoint ∈ env.spends tx,
      orphanAt (maps.addOrphan env moment tx).outPointToOrphan outPoint (env.hash tx) ≠ none := by
    intro outPoint spent
    rw [orphanAt_addOrphan]
    split
    · simp
    · next taken =>
      obtain ⟨orphans, found⟩ := ne_none_iff_exists'.mp fun absent => taken ⟨spent, absent⟩
      obtain ⟨entry, member⟩ := exists_mem_of_ne_nil _ (indexed.filled outPoint orphans found)
      have held : orphanAt maps.outPointToOrphan outPoint entry.1 ≠ none := by
        unfold orphanAt
        rw [found, bind_some, mem_lookup_iff.mpr member]
        exact nofun
      rwa [← indexed.lone_at apart lone spent held]
  constructor
  · intro hash wrap found
    obtain ⟨rfl, rfl⟩ | ⟨-, before⟩ := lookup_insert_cases found
    · exact ⟨rfl, inputs⟩
    · exact indexed.keyed hash wrap before
  · intro hash wrap found outPoint spent
    obtain ⟨rfl, rfl⟩ | ⟨-, before⟩ := lookup_insert_cases found
    · exact under outPoint spent
    · have held := indexed.under hash wrap before outPoint spent
      rw [orphanAt_addOrphan, if_neg]
      · exact held
      · rintro ⟨-, absent⟩
        unfold orphanAt at held
        rw [absent] at held
        exact held rfl
  · intro outPoint orphans found
    rw [lookup_addOrphan] at found
    split at found
    · cases held : maps.outPointToOrphan.lookup outPoint with
      | none =>
        rw [held] at found
        cases found
        exact nofun
      | some inner =>
        rw [held] at found
        cases found
        exact indexed.filled outPoint inner held
    · exact indexed.filled outPoint orphans found
  · intro outPoint hash orphan at_
    have held : maps.hashToOrphanTx.lookup hash ≠ none → (maps.addOrphan env moment tx).hashToOrphanTx.lookup hash ≠ none := by
      intro before
      change lookup hash (maps.hashToOrphanTx.insert _ _) ≠ none
      by_cases same : hash = env.hash tx
      · rw [same, lookup_insert]
        exact nofun
      · rwa [lookup_insert_ne same]
    rw [orphanAt_addOrphan] at at_
    split at at_
    · next new =>
      split at at_
      · next same =>
        cases at_
        refine ⟨same.symm, new.1, ?_⟩
        rw [same]
        change lookup _ (maps.hashToOrphanTx.insert _ _) ≠ none
        rw [lookup_insert]
        exact nofun
      · cases at_
    · obtain ⟨same, spent, present⟩ := indexed.listed outPoint hash orphan at_
      exact ⟨same, spent, held present⟩
  · intro outPoint hash other first second
    rw [orphanAt_addOrphan] at first second
    split at first
    · next new =>
      rw [if_pos new] at second
      split at first
      · next same =>
        split at second
        · next equal => rw [same, equal]
        · exact absurd rfl second
      · exact absurd rfl first
    · next old =>
      rw [if_neg old] at second
      exact indexed.alone outPoint hash other first second
  · exact indexed.spent

end OrphansIndexed

def OrphansKept (env : PoolEnv) : PoolMaps → Prop := Given (PoolEntry.Lone env) (OrphansIndexed env)

theorem OrphansIndexed.addTx (indexed : OrphansIndexed env maps) (tx : TxRef) (height : UInt32) :
    OrphansIndexed env (maps.addTx env moment tx height) := by
  refine indexed.of_same rfl rfl fun outPoint other found => ?_
  have mapped : (maps.addTx env moment tx height).outPointToTx.lookup outPoint =
      if outPoint ∈ env.spends tx then some tx else maps.outPointToTx.lookup outPoint := lookup_spends tx _ _ _
  rw [mapped] at found
  split at found
  · next spent =>
    cases found
    exact spent
  · exact indexed.spent outPoint other found

theorem OrphansIndexed.dropTx (indexed : OrphansIndexed env maps) (tx : TxRef) :
    OrphansIndexed env (maps.dropTx env tx) := by
  obtain ⟨hashToTx, outPointToTx, same⟩ := dropTx_frame env tx maps
  refine indexed.of_same (by rw [same]) (by rw [same]) fun outPoint other found => ?_
  have mapped : (maps.dropTx env tx).findTransaction outPoint = some other := found
  rw [dropTx_find] at mapped
  split at mapped
  · cases mapped
  · exact indexed.spent outPoint other mapped

section
variable (kept : OrphansKept env maps)
include kept

theorem OrphansKept.addOrphan (apart : env.HashesApart) (inputs : env.spends tx ≠ []) :
    OrphansKept env (maps.addOrphan env moment tx) :=
  kept.noted rfl fun lone indexed => indexed.addOrphan apart inputs lone

theorem OrphansKept.attempt (apart : env.HashesApart) {detectDupOrphan : Bool}
    {result : Except (Fault PoolError) Unit}
    (attempt : TransactionPool.Attempt env moment detectDupOrphan tx maps result after) : OrphansKept env after := by
  cases attempt with
  | accepted height =>
    have added : OrphansKept env (maps.addTx env moment tx height) := kept.silent rfl fun indexed => indexed.addTx tx height
    exact added.silent rfl fun indexed => indexed.of_same rfl rfl indexed.spent
  | orphaned _ inputs => exact kept.addOrphan apart inputs
  | duplicate => exact kept
  | refused => exact kept

theorem OrphansKept.note (entry : PoolEntry) : OrphansKept env (maps.note entry) :=
  kept.noted rfl fun _ indexed => indexed.of_same rfl rfl indexed.spent

theorem OrphansKept.removeOrphan (apart : env.HashesApart) (tx : TxRef) :
    OrphansKept env (maps.removeOrphan env tx) :=
  kept.silent rfl fun indexed => indexed.removeOrphan apart tx

theorem OrphansKept.dropTx (tx : TxRef) : OrphansKept env (maps.dropTx env tx) :=
  kept.silent (dropTx_log _ _) fun indexed => indexed.dropTx tx

end

end PoolMaps

namespace TransactionPool

variable {env : PoolEnv}

theorem orphansKept_closed (apart : env.HashesApart) : Closed env (OrphansKept env) where
  attempt kept attempt := kept.attempt apart attempt
  accept kept _ attempt := ((kept.attempt apart attempt).note _).removeOrphan apart _
  refuse kept _ attempt := (kept.attempt apart attempt).note _
  removeOrphan kept := kept.removeOrphan apart _
  drop kept _ := kept.dropTx _
  evict {_ _ child maps} kept found := by
    refine kept.noted (congrArg (· ++ _) (dropTx_log _ _)) fun lone indexed =>
      (indexed.dropTx child).addOrphan apart ?_ lone
    exact ne_nil_of_mem (indexed.spent _ child found)
  expire _ kept _ _ := kept.dropTx _
  outside kept := (kept.note _).dropTx _
  forget kept := kept.silent rfl fun indexed => indexed.of_same rfl rfl indexed.spent
  confirm {tx maps} kept := by
    have seen : OrphansKept env (maps.see env tx) := kept.silent rfl fun indexed =>
      indexed.of_same rfl rfl indexed.spent
    exact ((seen.note _).dropTx tx).removeOrphan apart tx
  check kept _ := kept.silent rfl fun indexed => indexed.of_same rfl rfl indexed.spent

theorem orphansKept_runs (apart : env.HashesApart) {types : TxRef → TxType} {calls : List (Moment × Event)}
    {pool : TransactionPool} (run : Runs (step env) (new types) calls pool) : OrphansKept env pool.toPoolMaps := by
  refine (orphansKept_closed apart).runs run fun _ => ?_
  constructor <;> exact nofun

end TransactionPool
end Boxd
