import Mathlib.Data.List.Range

/-! Intervals of numbers as lists: cutting one out of another, putting equal pieces
together, and leaving out elements that contribute nothing. -/

namespace Boxd.Lib.Interval
open List Nat

theorem flatMap_range' (start length count : Nat) :
    (range count).flatMap (fun i => range' ((start + i) * length) length) =
      range' (start * length) (count * length) := by
  induction count with
  | zero => simp
  | succ count next =>
    rw [range_succ, flatMap_append, next, flatMap_singleton, Nat.succ_mul, ← range'_append_1, Nat.add_mul]

theorem filter_le_range' (start length upper : Nat) :
    (range' start length).filter (fun n => decide (n ≤ upper)) =
      range' start (min (start + length) (upper + 1) - start) := by
  induction length generalizing start with
  | zero => simp [show min start (upper + 1) - start = 0 by omega]
  | succ length next =>
    rw [range'_succ, filter_cons, next]
    rcases lt_or_ge upper start with above | inside
    · rw [if_neg (by simpa using above), show min (start + 1 + length) (upper + 1) - (start + 1) = 0 by omega,
        show min (start + (length + 1)) (upper + 1) - start = 0 by omega]
      rfl
    · rw [if_pos (by simpa using inside), show min (start + (length + 1)) (upper + 1) - start =
        min (start + 1 + length) (upper + 1) - (start + 1) + 1 by omega, range'_succ]

theorem filter_ge_range' {start lower : Nat} (length : Nat) (below : start ≤ lower) :
    (range' start length).filter (fun n => decide (lower ≤ n)) = range' lower (start + length - lower) := by
  induction length generalizing start with
  | zero => simp [show start - lower = 0 by omega]
  | succ length next =>
    rcases lt_or_ge start lower with before | here
    · rw [range'_succ, filter_cons_of_neg (by simpa using before), next before]
      congr 1
      omega
    · have same : start = lower := le_antisymm below here
      rw [same, show lower + (length + 1) - lower = length + 1 by omega]
      refine filter_eq_self.mpr fun n member => ?_
      rw [mem_range'_1] at member
      simpa using member.1

theorem filter_range' {start lower : Nat} (length upper : Nat) (below : start ≤ lower) :
    (range' start length).filter (fun n => decide (lower ≤ n) && decide (n ≤ upper)) =
      range' lower (min (start + length) (upper + 1) - lower) := by
  rw [← filter_filter, filter_le_range']
  have cut := filter_ge_range' (min (start + length) (upper + 1) - start) below
  rw [cut]
  congr 1
  omega

theorem range'_split (start middle stop : Nat) :
    range' start (min middle stop - start) ++ range' (max middle start) (stop - max middle start) =
      range' start (stop - start) := by
  rcases le_total middle start with before | after
  · rw [max_eq_right before, show min middle stop - start = 0 by omega]
    rfl
  · rw [max_eq_left after]
    rcases le_total middle stop with inner | outer
    · rw [min_eq_left inner]
      have joined : range' start (middle - start) ++ range' (start + (middle - start)) (stop - middle) =
          range' start (middle - start + (stop - middle)) := range'_append_1
      rwa [show start + (middle - start) = middle by omega, show middle - start + (stop - middle) = stop - start by omega]
        at joined
    · rw [Nat.min_eq_right outer, Nat.sub_eq_zero_of_le outer]
      exact append_nil _

/-- Pieces one after the other, cut at both ends only: inside nothing is cut off. -/
theorem flatMap_ends {start last length lower upper : Nat} (kept : Nat → Bool) (ordered : start ≤ last)
    (low : start * length ≤ lower) (near : lower < (start + 1) * length) (high : last * length ≤ upper) :
    (range (last - start + 1)).flatMap (fun i =>
        if i = 0 ∨ i = last - start then
          ((range' ((start + i) * length) length).filter kept).filter fun n => decide (lower ≤ n) && decide (n ≤ upper)
        else (range' ((start + i) * length) length).filter kept) =
      (range' lower (min ((last + 1) * length) (upper + 1) - lower)).filter kept := by
  have cut : ∀ i ∈ range (last - start + 1), (if i = 0 ∨ i = last - start then
          ((range' ((start + i) * length) length).filter kept).filter fun n => decide (lower ≤ n) && decide (n ≤ upper)
        else (range' ((start + i) * length) length).filter kept) =
      ((range' ((start + i) * length) length).filter fun n => decide (lower ≤ n) && decide (n ≤ upper)).filter kept := by
    intro i member
    rw [mem_range] at member
    have swapped := filter_comm kept (fun n => decide (lower ≤ n) && decide (n ≤ upper))
      (range' ((start + i) * length) length)
    split
    next => exact swapped.symm
    next inner =>
      rw [not_or] at inner
      have above : (start + 1) * length ≤ (start + i) * length := mul_le_mul_right _ (by omega)
      have below : (start + i + 1) * length ≤ last * length := mul_le_mul_right _ (by omega)
      rw [Nat.add_mul _ 1, Nat.one_mul] at below
      have whole : ∀ n ∈ range' ((start + i) * length) length, (decide (lower ≤ n) && decide (n ≤ upper)) = true := by
        intro n inside
        rw [mem_range'_1] at inside
        rw [Bool.and_eq_true, decide_eq_true_eq, decide_eq_true_eq]
        omega
      rw [filter_eq_self.mpr whole]
  rw [flatMap_congr cut, ← filter_flatMap, ← filter_flatMap, flatMap_range', filter_range' _ _ low]
  rw [← Nat.add_mul, show start + (last - start + 1) = last + 1 by omega]

/-- Leaving elements out changes nothing if and only if they contribute nothing. -/
theorem flatMap_filter_eq_iff {α β : Type*} {values : List α} {kept : α → Bool} {f : α → List β} :
    (values.filter kept).flatMap f = values.flatMap f ↔ ∀ value ∈ values, kept value = false → f value = [] := by
  have length : ∀ rest : List α, ((rest.filter kept).flatMap f).length ≤ (rest.flatMap f).length := by
    intro rest
    induction rest with
    | nil => simp
    | cons value rest next =>
      cases held : kept value with
      | true => simpa [held] using next
      | false =>
        rw [filter_cons_of_neg (by simp [held]), flatMap_cons, length_append]
        omega
  induction values with
  | nil => simp
  | cons value rest next =>
    rw [forall_mem_cons]
    cases held : kept value with
    | true => simp [held, next]
    | false =>
      rw [filter_cons_of_neg (by simp [held]), flatMap_cons]
      constructor
      · intro same
        have sizes := congrArg List.length same
        rw [length_append] at sizes
        have none : f value = [] := by
          apply eq_nil_of_length_eq_zero
          have := length rest
          omega
        rw [none, nil_append] at same
        exact ⟨fun _ => none, next.mp same⟩
      · rintro ⟨none, others⟩
        rw [none rfl, nil_append]
        exact next.mpr others

end Boxd.Lib.Interval
