import Boxd.Lib.Outcome

/-! Runs over a list: what every step needs and keeps, and what one of the steps brings
about. -/

namespace Boxd.Lib

universe u

/-- A run succeeds when every step does and keeps what makes the next one succeed. -/
theorem exists_foldlM {ε : Type*} {α : Type*} {σ : Type u} {f : σ → α → Except ε σ} {motive : σ → Prop}
    (values : List α) {start : σ}
    (step : ∀ value ∈ values, ∀ before, motive before → ∃ after, f before value = .ok after ∧ motive after)
    (initial : motive start) : ∃ final, values.foldlM f start = .ok final ∧ motive final := by
  induction values generalizing start with
  | nil => exact ⟨start, rfl, initial⟩
  | cons value rest next =>
    obtain ⟨between, first, kept⟩ := step value List.mem_cons_self start initial
    obtain ⟨final, ok, holds⟩ := next (fun value member => step value (List.mem_cons_of_mem _ member)) kept
    refine ⟨final, ?_, holds⟩
    rw [List.foldlM_cons, bind_ok_iff]
    exact ⟨between, first, ok⟩

theorem foldlM_eq {ε : Type*} {α : Type*} {σ : Type u} {f : σ → α → Except ε σ} {g : σ → α → σ} {values : List α}
    (each : ∀ value ∈ values, ∀ state, f state value = .ok (g state value)) (start : σ) :
    values.foldlM f start = .ok (values.foldl g start) := by
  induction values generalizing start with
  | nil => rfl
  | cons value rest next =>
    rw [List.forall_mem_cons] at each
    rw [List.foldlM_cons, each.1, List.foldl_cons]
    exact next each.2 (g start value)

/-- What one step brings about holds in the end, when the other steps keep what it
needs before and what it left after. -/
theorem foldl_establishes {α σ : Type*} {f : σ → α → σ} (before after : σ → Prop) {values : List α} {value : α}
    (member : value ∈ values) (keep : ∀ value ∈ values, ∀ state, before state → before (f state value))
    (stay : ∀ value ∈ values, ∀ state, after state → after (f state value))
    (establish : ∀ state, before state → after (f state value)) {start : σ} (initial : before start) :
    after (values.foldl f start) := by
  induction values generalizing start with
  | nil => cases member
  | cons first rest next =>
    rw [List.forall_mem_cons] at keep stay
    rw [List.foldl_cons]
    rcases List.mem_cons.mp member with rfl | later
    · exact List.foldlRecOn rest f (establish start initial) fun state held value among => stay.2 value among state held
    · exact next later keep.2 stay.2 (keep.1 start initial)

end Boxd.Lib
