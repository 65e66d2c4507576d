import Mathlib.Data.List.Perm.Basic
import Mathlib.Tactic.Common

/-! Systems of several parties, where each step is chosen from outside: a step of the
chosen action, or none when the action is not enabled. -/

namespace Boxd.Lib

variable {σ ι : Type*}

/-- The states that some choice of actions leads to. -/
inductive Reached (step : ι → σ → Option σ) (start : σ) : σ → Prop where
  | start : Reached step start start
  | step {before after : σ} (reached : Reached step start before) (action : ι) (stepped : step action before = some after) :
      Reached step start after

def Enabled (step : ι → σ → Option σ) (state : σ) : Prop := ∃ action after, step action state = some after

def runActions (step : ι → σ → Option σ) : List ι → σ → Option σ
  | [], state => some state
  | action :: rest, state => (step action state).bind (runActions step rest)

namespace Reached

variable {step : ι → σ → Option σ} {start state : σ}

theorem invariant {kept : σ → Prop} (reached : Reached step start state) (holds : kept start)
    (each : ∀ action before after, step action before = some after → kept before → kept after) : kept state := by
  induction reached with
  | start => exact holds
  | step _ action stepped before => exact each action _ _ stepped before

theorem trans {final : σ} (first : Reached step start state) (second : Reached step state final) :
    Reached step start final := by
  induction second with
  | start => exact first
  | step _ action stepped next => exact .step next action stepped

theorem of_run {actions : List ι} (run : runActions step actions start = some state) : Reached step start state := by
  induction actions generalizing start with
  | nil =>
    cases run
    exact .start
  | cons action rest next =>
    obtain ⟨middle, stepped, run⟩ := Option.bind_eq_some_iff.mp run
    exact trans (.step .start action stepped) (next run)

theorem of_runs {actions : List ι} (runs : (runActions step actions start).isSome) {other : σ} :
    Reached step start ((runActions step actions start).getD other) := by
  obtain ⟨state, run⟩ := Option.isSome_iff_exists.mp runs
  rw [run, Option.getD_some]
  exact of_run run

end Reached

/-- What drops with every step bounds the length of every run. -/
theorem runActions_length_le {step : ι → σ → Option σ} {rank : σ → Nat}
    (drops : ∀ action before after, step action before = some after → rank after < rank before)
    {actions : List ι} {start final : σ} (run : runActions step actions start = some final) :
    actions.length + rank final ≤ rank start := by
  induction actions generalizing start with
  | nil =>
    cases run
    simp
  | cons action rest next =>
    obtain ⟨middle, stepped, run⟩ := Option.bind_eq_some_iff.mp run
    have dropped := drops action start middle stepped
    have later := next run
    rw [List.length_cons]
    omega

theorem perm_cons_eraseIdx {list : List σ} {index : Nat} {entry : σ} (held : list[index]? = some entry) :
    list.Perm (entry :: list.eraseIdx index) := by
  obtain ⟨inside, rfl⟩ := List.getElem?_eq_some_iff.mp held
  exact (List.getElem_cons_eraseIdx_perm inside).symm

theorem perm_set_eraseIdx {list : List σ} {index : Nat} {entry : σ} (held : list[index]? = some entry) (other : σ) :
    (list.set index other).Perm (other :: list.eraseIdx index) := by
  obtain ⟨inside, rfl⟩ := List.getElem?_eq_some_iff.mp held
  have replaced : (list.set index other)[index]? = some other := List.getElem?_set_self inside
  have perm := perm_cons_eraseIdx replaced
  rwa [List.eraseIdx_set_eq] at perm

end Boxd.Lib
