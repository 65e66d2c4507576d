import Boxd.Lib.Table
import Mathlib.Data.Finsupp.Weight

/-! Totals of finite maps. Entries are worth something; what is posted to keys is a
list of payments. A bound on totals follows from the same bound at each key. -/

namespace Boxd.Lib

variable {κ ν : Type*}

namespace Table

variable [DecidableEq κ]

def worthAt (worth : ν → ℕ) (table : Table κ ν) (key : κ) : ℕ := (table.lookup key).elim 0 worth

def total (worth : ν → ℕ) (table : Table κ ν) : ℕ := (table.entries.map fun entry => worth entry.2).sum

noncomputable def holdings (worth : ν → ℕ) (table : Table κ ν) : κ →₀ ℕ :=
  Finsupp.onFinset table.keys.toFinset (table.worthAt worth) (by
    intro key held
    rw [List.mem_toFinset, ← AList.mem_keys, ← AList.lookup_isSome]
    cases found : table.lookup key with
    | none => simp [worthAt, found] at held
    | some value => rfl)

theorem degree_holdings (worth : ν → ℕ) (table : Table κ ν) : (table.holdings worth).degree = table.total worth := by
  have entries : table.keys.map (table.worthAt worth) = table.entries.map fun entry => worth entry.2 := by
    rw [AList.keys, List.keys, List.map_map]
    apply List.map_congr_left
    intro entry member
    have found : table.lookup entry.1 = some entry.2 := AList.mem_lookup_iff.mpr member
    simp [worthAt, found]
  rw [total, ← entries, ← List.sum_toFinset _ table.keys_nodup, Finsupp.degree_apply]
  apply Finset.sum_subset Finsupp.support_onFinset_subset
  intro key _ absent
  exact Finsupp.notMem_support_iff.mp absent

end Table

noncomputable def posted (payments : List (κ × ℕ)) : κ →₀ ℕ :=
  (payments.map fun payment => Finsupp.single payment.1 payment.2).sum

def paidTotal (payments : List (κ × ℕ)) : ℕ := (payments.map Prod.snd).sum

@[simp]
theorem posted_cons (payment : κ × ℕ) (payments : List (κ × ℕ)) :
    posted (payment :: payments) = Finsupp.single payment.1 payment.2 + posted payments := by
  simp [posted]

@[simp]
theorem posted_append (left right : List (κ × ℕ)) : posted (left ++ right) = posted left + posted right := by
  simp [posted]

theorem degree_posted (payments : List (κ × ℕ)) : (posted payments).degree = paidTotal payments := by
  induction payments with
  | nil => rfl
  | cons payment rest next =>
    rw [posted_cons, map_add, Finsupp.degree_single, next]
    rfl

theorem le_posted {payments : List (κ × ℕ)} {payment : κ × ℕ} (member : payment ∈ payments) :
    payment.2 ≤ posted payments payment.1 := by
  induction payments with
  | nil => cases member
  | cons head rest next =>
    rw [posted_cons, Finsupp.add_apply]
    rcases List.mem_cons.mp member with rfl | later
    · simp
    · exact (next later).trans (Nat.le_add_left _ _)

theorem posted_of_notMem {payments : List (κ × ℕ)} {key : κ} (absent : key ∉ payments.map Prod.fst) :
    posted payments key = 0 := by
  induction payments with
  | nil => rfl
  | cons head rest next =>
    obtain ⟨differ, absent⟩ := not_or.mp (mt List.mem_cons.mpr absent)
    rw [posted_cons, Finsupp.add_apply, next absent, Finsupp.single_eq_of_ne differ]

theorem posted_of_mem {payments : List (κ × ℕ)} {payment : κ × ℕ} (distinct : (payments.map Prod.fst).Nodup)
    (member : payment ∈ payments) : posted payments payment.1 = payment.2 := by
  induction payments with
  | nil => cases member
  | cons head rest next =>
    obtain ⟨fresh, distinct⟩ := List.nodup_cons.mp distinct
    rw [posted_cons, Finsupp.add_apply]
    rcases List.mem_cons.mp member with rfl | later
    · rw [Finsupp.single_eq_same, posted_of_notMem fresh, add_zero]
    · have differ : payment.1 ≠ head.1 := by
        intro same
        exact fresh (same ▸ List.mem_map_of_mem later)
      rw [Finsupp.single_eq_of_ne differ, next distinct later, zero_add]

/-- If at every key the debits are covered by what was there and by the credits, then
so are the totals. -/
theorem total_add_paid_le [DecidableEq κ] {worth : ν → ℕ} {before after : Table κ ν} {debits credits : List (κ × ℕ)}
    (covered : ∀ key, after.worthAt worth key + posted debits key ≤ before.worthAt worth key + posted credits key) :
    after.total worth + paidTotal debits ≤ before.total worth + paidTotal credits := by
  have pointwise : after.holdings worth + posted debits ≤ before.holdings worth + posted credits := covered
  have degrees := Finsupp.degree_mono pointwise
  simpa only [map_add, Table.degree_holdings, degree_posted] using degrees

end Boxd.Lib
