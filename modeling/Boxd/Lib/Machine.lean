import Mathlib.Logic.Relation
import Mathlib.Tactic.Common
import Boxd.Lib.Outcome

/-! Deterministic machines that halt, step, or fail. A fuelled run is related to
reachability once, so that later arguments follow configurations and never
count fuel. -/

namespace Boxd.Lib

structure Machine (σ ε : Type*) where
  halted : σ → Bool
  step : σ → Except ε σ

namespace Machine

variable {σ ε : Type*} (m : Machine σ ε)

/-- Run until the machine halts or fails. Without fuel the current configuration
is returned as it is; `run_halts` says when this cannot happen. -/
def run : Nat → σ → Except ε σ
  | 0, s => .ok s
  | fuel + 1, s =>
    if m.halted s then .ok s
    else match m.step s with
      | .error e => .error e
      | .ok t => run fuel t

def Next (s t : σ) : Prop := m.halted s = false ∧ m.step s = .ok t

def Reaches : σ → σ → Prop := Relation.ReflTransGen m.Next

/-- A measure that every successful step decreases and that bounds the fuel. -/
def Ranked (rank : σ → Nat) : Prop :=
  (∀ s t, m.Next s t → rank t < rank s) ∧ ∀ s, rank s = 0 → m.halted s = true

variable {m}

variable {s t u : σ}

theorem Next.unique (first : m.Next s t) (second : m.Next s u) : t = u := by
  have same := first.2.symm.trans second.2
  cases same
  rfl

theorem Reaches.refl (s : σ) : m.Reaches s s := Relation.ReflTransGen.refl

theorem Reaches.trans (first : m.Reaches s t) (second : m.Reaches t u) : m.Reaches s u :=
  Relation.ReflTransGen.trans first second

theorem Reaches.head (first : m.Next s t) (rest : m.Reaches t u) : m.Reaches s u :=
  Relation.ReflTransGen.head first rest

theorem Reaches.single (moves : m.Next s t) : m.Reaches s t :=
  Relation.ReflTransGen.single moves

/-- Determinism: a configuration on the way to a halted one is passed through. -/
theorem Reaches.through (way : m.Reaches s t) (whole : m.Reaches s u)
    (halted : m.halted u = true) : m.Reaches t u := by
  induction way using Relation.ReflTransGen.head_induction_on with
  | refl => exact whole
  | @head s middle first rest ih =>
    rcases Relation.ReflTransGen.cases_head whole with same | ⟨other, moves, remaining⟩
    · subst same
      simp [first.1] at halted
    · obtain rfl := first.unique moves
      exact ih remaining

theorem Reaches.total (first : m.Reaches s t) (second : m.Reaches s u) : m.Reaches t u ∨ m.Reaches u t :=
  Relation.ReflTransGen.total_of_right_unique (fun _ _ _ one other => Next.unique one other) first second

theorem Reaches.of_halted (halted : m.halted s = true) (way : m.Reaches s t) : t = s := by
  rcases Relation.ReflTransGen.cases_head way with same | ⟨other, moves, _⟩
  · exact same.symm
  · simp [moves.1] at halted

/-- The invariant rule: what every step keeps holds wherever the machine gets. -/
theorem Reaches.invariant (way : m.Reaches s t) (inv : σ → Prop)
    (kept : ∀ s t, m.Next s t → inv s → inv t) (holds : inv s) : inv t := by
  induction way with
  | refl => exact holds
  | tail _ last ih => exact kept _ _ last ih

theorem Reaches.crosses (way : m.Reaches s u) (inv : σ → Prop) (holds : inv s) (fails : ¬ inv u) :
    ∃ t v, m.Reaches s t ∧ inv t ∧ m.Next t v ∧ ¬ inv v ∧ m.Reaches v u := by
  induction way using Relation.ReflTransGen.head_induction_on with
  | refl => exact absurd holds fails
  | @head s middle first rest ih =>
    by_cases kept : inv middle
    · obtain ⟨t, v, before, at_, moves, lost, after⟩ := ih kept
      exact ⟨t, v, .head first before, at_, moves, lost, after⟩
    · exact ⟨s, middle, .refl s, holds, first, kept, rest⟩

variable {fuel : Nat}

theorem run_reaches (ran : m.run fuel s = .ok t) : m.Reaches s t := by
  induction fuel generalizing s with
  | zero => cases ran; exact .refl _
  | succ fuel ih =>
    simp only [run] at ran
    split at ran
    · cases ran; exact .refl _
    next running =>
      split at ran
      · cases ran
      next next stepped => exact .head ⟨by simpa using running, stepped⟩ (ih ran)

variable {rank : σ → Nat}

theorem run_halts (ranked : m.Ranked rank)
    (enough : rank s ≤ fuel) (ran : m.run fuel s = .ok t) : m.halted t = true := by
  induction fuel generalizing s with
  | zero => cases ran; exact ranked.2 _ (by omega)
  | succ fuel ih =>
    simp only [run] at ran
    split at ran
    next halted => cases ran; exact halted
    next running =>
      split at ran
      · cases ran
      next next stepped =>
        have lower := ranked.1 s next ⟨by simpa using running, stepped⟩
        exact ih (by omega) ran

theorem run_of_reaches (ranked : m.Ranked rank)
    (enough : rank s ≤ fuel) (way : m.Reaches s t) (halted : m.halted t = true) :
    m.run fuel s = .ok t := by
  induction way using Relation.ReflTransGen.head_induction_on generalizing fuel with
  | refl => cases fuel <;> simp [run, halted]
  | @head s middle first rest ih =>
    have lower := ranked.1 s middle first
    obtain ⟨fuel, rfl⟩ : ∃ rest, fuel = rest + 1 := ⟨fuel - 1, by omega⟩
    simp only [run, first.1, Bool.false_eq_true, if_false, first.2]
    exact ih (by omega)

/-- With enough fuel a run succeeds exactly along a path to a halted configuration. -/
theorem run_ok_iff (ranked : m.Ranked rank) (enough : rank s ≤ fuel) :
    m.run fuel s = .ok t ↔ m.Reaches s t ∧ m.halted t = true :=
  ⟨fun ran => ⟨run_reaches ran, run_halts ranked enough ran⟩,
    fun ⟨way, halted⟩ => run_of_reaches ranked enough way halted⟩

end Machine
end Boxd.Lib
