import Mathlib.Data.List.AList

/-! Finite maps. A deposit adds to what a map holds for a key, as `m[key] += amount`
does; a missing entry counts as zero. A patch writes the changes that one map holds
into another. -/

namespace Boxd.Lib
open List Option AList

abbrev Table (κ ν : Type*) := AList fun _ : κ => ν

namespace Table

variable {κ ν : Type*} [DecidableEq κ]

def All (property : κ → ν → Prop) (table : Table κ ν) : Prop :=
  ∀ key value, table.lookup key = some value → property key value

theorem All.empty (property : κ → ν → Prop) : All property (∅ : Table κ ν) := by
  intro key value found
  cases found

variable {property : κ → ν → Prop} {table : Table κ ν} {key : κ}

theorem lookup_insert_cases {value found : ν} {other : κ} (present : (table.insert key value).lookup other = some found) :
    (other = key ∧ found = value) ∨ (other ≠ key ∧ table.lookup other = some found) := by
  by_cases same : other = key
  · subst same
    rw [lookup_insert] at present
    exact .inl ⟨rfl, (some.inj present).symm⟩
  · rw [lookup_insert_ne same] at present
    exact .inr ⟨same, present⟩

theorem lookup_of_erase {found : ν} {other : κ} (present : (table.erase key).lookup other = some found) :
    other ≠ key ∧ table.lookup other = some found := by
  by_cases same : other = key
  · rw [same, lookup_erase] at present
    cases present
  · exact ⟨same, by rwa [lookup_erase_ne same] at present⟩

theorem All.insert (all : All property table) {value : ν}
    (holds : property key value) : All property (table.insert key value) := by
  intro other found present
  obtain ⟨rfl, rfl⟩ | ⟨-, before⟩ := lookup_insert_cases present
  · exact holds
  · exact all other found before

theorem All.erase (all : All property table) (key : κ) :
    All property (table.erase key) := fun other found present => all other found (lookup_of_erase present).2

theorem lookup_erase_eq_none {other : κ} (absent : other = key ∨ table.lookup other = none) :
    (table.erase key).lookup other = none := by
  by_cases same : other = key
  · rw [same, lookup_erase]
  · rw [lookup_erase_ne same]
    exact absent.resolve_left same

theorem lookup_insert_ne_none {other : κ} (value : ν)
    (present : other = key ∨ table.lookup other ≠ none) : (table.insert key value).lookup other ≠ none := by
  by_cases same : other = key
  · rw [same, lookup_insert]
    exact some_ne_none value
  · rw [lookup_insert_ne same]
    exact present.resolve_left same

theorem all_iff : All property table ↔ ∀ entry ∈ table.entries, property entry.1 entry.2 :=
  ⟨fun all entry member => all entry.1 entry.2 (mem_lookup_iff.mpr member),
    fun all key value found => all ⟨key, value⟩ (mem_lookup_iff.mp found)⟩

def amount [Zero ν] (table : Table κ ν) (key : κ) : ν := (table.lookup key).getD 0

def deposit [Zero ν] [Add ν] (table : Table κ ν) (key : κ) (value : ν) : Table κ ν := table.insert key (table.amount key + value)

theorem amount_empty [Zero ν] (key : κ) : (∅ : Table κ ν).amount key = 0 := rfl

theorem amount_deposit [Zero ν] [Add ν] (table : Table κ ν) (key other : κ) (value : ν) :
    (table.deposit key value).amount other = if other = key then table.amount key + value else table.amount other := by
  unfold amount deposit
  split
  · next same => rw [same, lookup_insert, getD_some, amount]
  · next differ => rw [lookup_insert_ne differ]

/-- A map whose entries are all in another map of the same size is that map. -/
theorem lookup_eq_of_entries {left right : Table κ ν} (size : left.entries.length = right.entries.length)
    (within : ∀ entry ∈ left.entries, right.lookup entry.1 = some entry.2) (key : κ) :
    left.lookup key = right.lookup key := by
  cases found : left.lookup key with
  | some value => exact (within ⟨key, value⟩ (mem_lookup_iff.mp found)).symm
  | none =>
    -- The keys of both maps are the same, since one side covers the other.
    have covered : left.keys ⊆ right.keys := by
      intro present member
      obtain ⟨value, entry⟩ := exists_of_mem_keys member
      exact lookup_isSome.mp (by rw [within _ entry]; rfl)
    have same : left.keys.Perm right.keys :=
      (subperm_of_subset left.keys_nodup covered).perm_of_length_le (by simp [AList.keys, List.keys, size])
    symm
    rw [lookup_eq_none] at found ⊢
    exact fun member => found (mem_keys.mpr (same.mem_iff.mpr (mem_keys.mp member)))

section Keys

variable {α : Type*} (keyOf : α → κ)

variable {key : κ}

theorem lookup_foldl_insert {valueOf : α → ν} {values : List α} (absent : key ∉ values.map keyOf)
    (table : Table κ ν) :
    (values.foldl (fun table value => table.insert (keyOf value) (valueOf value)) table).lookup key =
      table.lookup key := by
  induction values generalizing table with
  | nil => rfl
  | cons value rest next =>
    obtain ⟨differ, absent⟩ := not_or.mp (mt mem_cons.mpr absent)
    rw [foldl_cons, next absent, lookup_insert_ne differ]

theorem exists_lookup_foldl_insert (valueOf : α → ν) {values : List α} (member : key ∈ values.map keyOf)
    (table : Table κ ν) :
    ∃ value ∈ values, keyOf value = key ∧
      (values.foldl (fun table value => table.insert (keyOf value) (valueOf value)) table).lookup key =
        some (valueOf value) := by
  induction values generalizing table with
  | nil => cases member
  | cons value rest next =>
    rw [foldl_cons]
    by_cases later : key ∈ rest.map keyOf
    · obtain ⟨found, among, rest⟩ := next later (table.insert (keyOf value) (valueOf value))
      exact ⟨found, mem_cons_of_mem _ among, rest⟩
    · obtain rfl : key = keyOf value := (mem_cons.mp member).resolve_right later
      refine ⟨value, mem_cons_self, rfl, ?_⟩
      rw [lookup_foldl_insert keyOf later, lookup_insert]

theorem lookup_foldl_erase (values : List α) (table : Table κ ν) (key : κ) :
    (values.foldl (fun table value => table.erase (keyOf value)) table).lookup key =
      if key ∈ values.map keyOf then none else table.lookup key := by
  induction values generalizing table with
  | nil => rfl
  | cons value rest next =>
    rw [foldl_cons, next]
    by_cases same : key = keyOf value
    · rw [same, lookup_erase, ite_self, map_cons, if_pos mem_cons_self]
    · rw [lookup_erase_ne same]
      simp only [map_cons, mem_cons, same, false_or]

/-- What was added under fresh keys is gone when the same keys are erased. -/
theorem lookup_erase_insert (valueOf : α → ν) {added : List α} {table : Table κ ν}
    (fresh : ∀ value ∈ added, table.lookup (keyOf value) = none) (key : κ) :
    (added.foldl (fun table value => table.erase (keyOf value))
      (added.foldl (fun table value => table.insert (keyOf value) (valueOf value)) table)).lookup key =
        table.lookup key := by
  rw [lookup_foldl_erase]
  split
  · next member =>
    obtain ⟨value, among, rfl⟩ := mem_map.mp member
    exact (fresh value among).symm
  · next absent => rw [lookup_foldl_insert keyOf absent]

def update {μ : Type*} (next : α → μ → Option ν → ν) (entries : List (Sigma fun _ : α => μ)) (table : Table κ ν) : Table κ ν :=
  entries.foldl (fun table entry =>
    table.insert (keyOf entry.1) (next entry.1 entry.2 (table.lookup (keyOf entry.1)))) table

variable {μ : Type*} (next : α → μ → Option ν → ν) {entries : List (Sigma fun _ : α => μ)}

theorem lookup_update_of_ne (elsewhere : ∀ entry ∈ entries, keyOf entry.1 ≠ key) (table : Table κ ν) :
    (update keyOf next entries table).lookup key = table.lookup key := by
  unfold update
  induction entries generalizing table with
  | nil => rfl
  | cons entry rest later =>
    rw [forall_mem_cons] at elsewhere
    rw [foldl_cons, later elsewhere.2, lookup_insert_ne elsewhere.1.symm]

theorem lookup_update [DecidableEq α] {keyOf : α → κ} (injective : Function.Injective keyOf) (distinct : entries.NodupKeys)
    (table : Table κ ν) (key : α) :
    (update keyOf next entries table).lookup (keyOf key) =
      ((entries.dlookup key).map fun value => next key value (table.lookup (keyOf key))).or
        (table.lookup (keyOf key)) := by
  induction entries generalizing table with
  | nil => rfl
  | cons entry rest later =>
    obtain ⟨head, value⟩ := entry
    obtain ⟨fresh, others⟩ := nodupKeys_cons.mp distinct
    change (update keyOf next rest _).lookup _ = _
    by_cases same : key = head
    · subst same
      rw [later others, dlookup_eq_none.mpr fresh, dlookup_cons_eq, lookup_insert]
      rfl
    · have elsewhere : keyOf key ≠ keyOf head := fun collides => same (injective collides)
      rw [later others, dlookup_cons_ne _ _ same, lookup_insert_ne elsewhere]

end Keys

section Patch

variable {μ : Type*} (write : μ → Option (Option ν))

def change (key : κ) (value : μ) (table : Table κ ν) : Table κ ν :=
  match write value with
  | none => table
  | some none => table.erase key
  | some (some written) => table.insert key written

def patch (changes : Table κ μ) (table : Table κ ν) : Table κ ν :=
  changes.entries.foldl (fun table entry => change write entry.1 entry.2 table) table

theorem lookup_change (key : κ) (value : μ) (table : Table κ ν) :
    (change write key value table).lookup key = (write value).getD (table.lookup key) := by
  unfold change
  split
  · next skipped => rw [skipped, getD_none]
  · next erased => rw [erased, lookup_erase, getD_some]
  · next written wrote => rw [wrote, lookup_insert, getD_some]

theorem lookup_change_ne {key other : κ} (differ : other ≠ key) (value : μ) (table : Table κ ν) :
    (change write key value table).lookup other = table.lookup other := by
  unfold change
  split
  · rfl
  · exact lookup_erase_ne differ
  · exact lookup_insert_ne differ

private theorem lookup_changes (entries : List (Sigma fun _ => μ)) (distinct : entries.NodupKeys)
    (table : Table κ ν) (key : κ) :
    (entries.foldl (fun table entry => change write entry.1 entry.2 table) table).lookup key =
      ((entries.dlookup key).bind write).getD (table.lookup key) := by
  induction entries generalizing table with
  | nil => rfl
  | cons entry rest next =>
    obtain ⟨head, value⟩ := entry
    obtain ⟨fresh, distinct⟩ := nodupKeys_cons.mp distinct
    rw [foldl_cons, next distinct]
    by_cases same : key = head
    · subst same
      rw [dlookup_eq_none.mpr fresh, dlookup_cons_eq, lookup_change]
      rfl
    · rw [dlookup_cons_ne _ _ same, lookup_change_ne write same]

theorem lookup_patch (changes : Table κ μ) (table : Table κ ν) (key : κ) :
    (patch write changes table).lookup key = ((changes.lookup key).bind write).getD (table.lookup key) :=
  lookup_changes write changes.entries changes.nodupKeys table key

end Patch
end Table
end Boxd.Lib
