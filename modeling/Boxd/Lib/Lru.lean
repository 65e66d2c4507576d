import Mathlib.Data.List.Basic

/-! Caches of a fixed size that forget the entry that was not used for longest. -/

namespace Boxd.Lib

/-- The entries are in the order of their last use, the latest first. -/
structure Lru (size : Nat) (κ ν : Type*) where
  entries : List (κ × ν)
  bounded : entries.length ≤ size

namespace Lru

variable {size : Nat} {κ ν : Type*} [DecidableEq κ]

def empty : Lru size κ ν := ⟨[], Nat.zero_le _⟩

variable (cache : Lru size κ ν)

def peek (key : κ) : Option ν := (cache.entries.find? fun entry => entry.1 = key).map Prod.snd

def contains (key : κ) : Bool := (cache.peek key).isSome

def add (key : κ) (value : ν) : Lru size κ ν :=
  ⟨((key, value) :: cache.entries.filter fun entry => entry.1 ≠ key).take size, List.length_take_le _ _⟩

/-- What is found counts as used. -/
def get (key : κ) : Option ν × Lru size κ ν :=
  match cache.peek key with
  | none => (none, cache)
  | some value => (some value, cache.add key value)

def remove (key : κ) : Lru size κ ν :=
  ⟨cache.entries.filter fun entry => entry.1 ≠ key, Nat.le_trans (List.length_filter_le _ _) cache.bounded⟩

theorem contains_iff {cache : Lru size κ ν} {key : κ} : cache.contains key = true ↔ ∃ entry ∈ cache.entries, entry.1 = key := by
  simp [contains, peek]

theorem contains_add {cache : Lru size κ ν} {key other : κ} {value : ν} (held : (cache.add key value).contains other = true) :
    other = key ∨ cache.contains other = true := by
  obtain ⟨entry, member, rfl⟩ := contains_iff.mp held
  rcases List.mem_cons.mp (List.mem_of_mem_take member) with rfl | old
  · exact .inl rfl
  · exact .inr (contains_iff.mpr ⟨entry, (List.mem_filter.mp old).1, rfl⟩)

theorem contains_remove {cache : Lru size κ ν} {key other : κ} (held : (cache.remove key).contains other = true) :
    cache.contains other = true := by
  obtain ⟨entry, member, rfl⟩ := contains_iff.mp held
  exact contains_iff.mpr ⟨entry, (List.mem_filter.mp member).1, rfl⟩

theorem peek_add (positive : 0 < size) (cache : Lru size κ ν) (key : κ) (value : ν) :
    (cache.add key value).peek key = some value := by
  obtain ⟨size, rfl⟩ := Nat.exists_eq_succ_of_ne_zero (Nat.ne_of_gt positive)
  simp [peek, add]

theorem get_fst (cache : Lru size κ ν) (key : κ) : (cache.get key).1 = cache.peek key := by
  unfold get
  split
  · next absent => exact absent.symm
  · next value found => exact found.symm

theorem peek_get (positive : 0 < size) (cache : Lru size κ ν) (key : κ) :
    (cache.get key).2.peek key = cache.peek key := by
  unfold get
  split
  · next absent => rfl
  · next value found => rw [found, peek_add positive]

end Lru
end Boxd.Lib
