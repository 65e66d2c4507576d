import Mathlib.Data.List.Forall2

/-! Results of code that returns a value, returns an error, or panics. -/

universe u

namespace Boxd.Lib
open List

inductive Fault (ε : Type*) where
  | error (err : ε)
  | panic
  deriving DecidableEq

abbrev Outcome (ε α : Type*) := Except (Fault ε) α

def Fault.map {ε δ : Type*} (wrap : ε → δ) : Fault ε → Fault δ
  | .error err => .error (wrap err)
  | .panic => .panic

namespace Outcome

variable {ε α : Type*}

def fail (err : ε) : Outcome ε α := .error (.error err)

def panicked : Outcome ε α := .error .panic

/-- A function that returns errors but does not panic. -/
def lift (result : Except ε α) : Outcome ε α :=
  match result with
  | .ok value => .ok value
  | .error err => fail err

/-- Continue with a value that the code takes for granted. -/
def expect (value : Option α) : Outcome ε α :=
  match value with
  | some value => .ok value
  | none => panicked

/-- A missing value is an error of the caller's choice. -/
def orFail (err : ε) (value : Option α) : Outcome ε α :=
  match value with
  | some value => .ok value
  | none => fail err

theorem lift_ok_iff {result : Except ε α} {value : α} : lift result = .ok value ↔ result = .ok value := by
  cases result <;> simp [lift, fail]

variable {value : Option α} {result : α}

theorem expect_ok (ok : (expect value : Outcome ε α) = .ok result) : value = some result := by
  cases value with
  | none => cases ok
  | some value =>
    cases ok
    rfl

theorem expect_injective {left right : Option α} (same : (expect left : Outcome ε α) = expect right) :
    left = right := by
  cases left <;> cases right <;> cases same <;> rfl

variable {condition : Prop} {err : ε} {rest : Outcome ε α}

theorem ite_fail_ok_iff [Decidable condition] {value : α} :
    (if condition then fail err else rest) = .ok value ↔ ¬condition ∧ rest = .ok value := by
  split
  · next holds => simp [holds, fail]
  · next not => simp [not]

theorem ite_panicked_ok_iff [Decidable condition] {value : α} :
    (if condition then panicked else rest) = .ok value ↔ ¬condition ∧ rest = .ok value := by
  split
  · next holds => simp [holds, panicked]
  · next not => simp [not]

theorem ite_fail_panicked_iff [Decidable condition] :
    (if condition then fail err else rest) = panicked ↔ ¬condition ∧ rest = panicked := by
  by_cases holds : condition
  · simp [holds, fail, panicked]
  · simp [holds]

theorem expect_panicked_iff : (expect value : Outcome ε α) = panicked ↔ value = none := by
  cases value with
  | none => exact iff_of_true rfl rfl
  | some value => exact iff_of_false nofun nofun

theorem expect_ok_iff : (expect value : Outcome ε α) = .ok result ↔ value = some result := by
  cases value with
  | none => exact iff_of_false nofun nofun
  | some value => simp [expect]

theorem orFail_ok_iff : orFail err value = .ok result ↔ value = some result := by
  cases value with
  | none => exact iff_of_false nofun nofun
  | some value => simp [orFail]

theorem orFail_ne_panicked : orFail err value ≠ panicked := by
  cases value with
  | none => exact nofun
  | some value => exact nofun

theorem orFail_ok (ok : orFail err value = .ok result) : value = some result := by
  cases value with
  | none => cases ok
  | some value =>
    cases ok
    rfl

end Outcome

/-- Code that also changes a state. The changes stay when it fails. -/
abbrev Stateful (σ ε : Type) := ExceptT (Fault ε) (StateM σ)

namespace Stateful

variable {σ ε α β : Type}

def fail (err : ε) : Stateful σ ε α := throw (.error err)

def panicked : Stateful σ ε α := throw .panic

def lift (result : Outcome ε α) : Stateful σ ε α := ExceptT.mk (pure result)

def zoom {τ δ : Type} (part : σ → τ) (put : τ → σ → σ) (wrap : δ → ε) (action : Stateful τ δ α) : Stateful σ ε α :=
  ExceptT.mk fun start =>
    let (result, changed) := action.run.run (part start)
    ((result.mapError (Fault.map wrap), put changed start) : Except (Fault ε) α × σ)

def Returns (action : Stateful σ ε α) (start : σ) (value : α) (final : σ) : Prop :=
  action.run.run start = (.ok value, final)

instance [DecidableEq σ] [DecidableEq ε] [DecidableEq α] (action : Stateful σ ε α) (start final : σ) (value : α) :
    Decidable (action.Returns start value final) :=
  inferInstanceAs (Decidable ((_ : Except (Fault ε) α × σ) = _))

variable {start final : σ}

theorem returns_bind {first : Stateful σ ε α} {rest : α → Stateful σ ε β} {value : β} :
    (first >>= rest).Returns start value final ↔
      ∃ middle between, first.Returns start middle between ∧ (rest middle).Returns between value final := by
  unfold Returns
  rw [ExceptT.run_bind, StateT.run_bind]
  generalize first.run.run start = outcome
  obtain ⟨_ | middle, between⟩ := outcome
  · constructor
    · intro returned
      cases returned
    · rintro ⟨middle, other, returned, _⟩
      cases returned
  · constructor
    · intro returned
      exact ⟨middle, between, rfl, returned⟩
    · rintro ⟨_, _, returned, later⟩
      cases returned
      exact later

variable {value : α}

@[simp] theorem returns_pure {given : α} :
    (pure given : Stateful σ ε α).Returns start value final ↔ given = value ∧ start = final := by
  constructor
  · intro returned
    cases returned
    exact ⟨rfl, rfl⟩
  · rintro ⟨rfl, rfl⟩
    rfl

@[simp] theorem returns_lift {result : Outcome ε α} :
    (lift result : Stateful σ ε α).Returns start value final ↔ result = .ok value ∧ start = final := by
  constructor
  · intro returned
    cases returned
    exact ⟨rfl, rfl⟩
  · rintro ⟨rfl, rfl⟩
    rfl

@[simp] theorem not_returns_fail {err : ε} : ¬(fail err : Stateful σ ε α).Returns start value final := by
  intro returned
  cases returned

@[simp] theorem not_returns_panicked : ¬(panicked : Stateful σ ε α).Returns start value final := by
  intro returned
  cases returned

@[simp] theorem returns_get {value : σ} :
    (get : Stateful σ ε σ).Returns start value final ↔ start = value ∧ start = final := by
  constructor
  · intro returned
    cases returned
    exact ⟨rfl, rfl⟩
  · rintro ⟨rfl, rfl⟩
    rfl

@[simp] theorem returns_modify {change : σ → σ} {value : PUnit} :
    (modify change : Stateful σ ε PUnit).Returns start value final ↔ change start = final := by
  constructor
  · intro returned
    cases returned
    rfl
  · rintro rfl
    rfl

end Stateful

theorem ok_bind {ε : Type*} {α β : Type u} (value : α) (rest : α → Except ε β) :
    ((.ok value : Except ε α) >>= rest) = rest value := rfl

theorem bind_ok_iff {ε : Type*} {α β : Type u} {first : Except ε α} {rest : α → Except ε β} {value : β} :
    (first >>= rest) = .ok value ↔ ∃ middle, first = .ok middle ∧ rest middle = .ok value := by
  cases first <;> simp [bind, Except.bind]

theorem bind_panicked_iff {ε : Type*} {α β : Type u} {first : Outcome ε α} {rest : α → Outcome ε β} :
    (first >>= rest) = Outcome.panicked ↔ first = .panicked ∨ ∃ value, first = .ok value ∧ rest value = .panicked := by
  cases first with
  | ok value => simp [ok_bind, Outcome.panicked]
  | error fault => simp [Bind.bind, Except.bind, Outcome.panicked]

/-- A list is mapped to a result when each element is mapped to its result. -/
theorem mapM_ok {ε : Type*} {α : Type*} {β : Type u} {f : α → Except ε β} {values : List α} {results : List β}
    (ok : values.mapM f = .ok results) : Forall₂ (fun value result => f value = .ok result) values results := by
  induction values generalizing results with
  | nil =>
    cases ok
    exact .nil
  | cons value rest next =>
    simp only [mapM_cons, bind_ok_iff] at ok
    obtain ⟨result, first, others, ok, done⟩ := ok
    cases done
    exact .cons first (next ok)

theorem exists_mapM {ε : Type*} {α : Type*} {β : Type u} {f : α → Except ε β} {related : α → β → Prop} {values : List α}
    (each : ∀ value ∈ values, ∃ result, f value = .ok result ∧ related value result) :
    ∃ results, values.mapM f = .ok results ∧ Forall₂ related values results := by
  induction values with
  | nil => exact ⟨[], rfl, .nil⟩
  | cons value rest next =>
    rw [forall_mem_cons] at each
    obtain ⟨result, first, holds⟩ := each.1
    obtain ⟨results, others, all⟩ := next each.2
    refine ⟨result :: results, ?_, .cons holds all⟩
    rw [mapM_cons, first, ok_bind, others, ok_bind]
    rfl

theorem mapM_eq {ε : Type*} {α : Type*} {β : Type u} {f : α → Except ε β} {g : α → β} {values : List α}
    (each : ∀ value ∈ values, f value = .ok (g value)) : values.mapM f = .ok (values.map g) := by
  induction values with
  | nil => rfl
  | cons value rest next =>
    rw [forall_mem_cons] at each
    rw [mapM_cons, each.1, next each.2]
    rfl

theorem map_mapM {α β γ : Type*} (f : α → Option β) (g : β → γ) (values : List α) :
    (values.mapM f).map (map g) = values.mapM fun value => (f value).map g := by
  induction values with
  | nil => rfl
  | cons value rest next =>
    rw [mapM_cons, mapM_cons, ← next]
    cases f value <;> cases rest.mapM f <;> rfl

theorem bind_ne_fail {ε : Type*} {α β : Type u} {first : Outcome ε α} {rest : α → Outcome ε β} {err : ε}
    (before : first ≠ .fail err) (after : ∀ value, rest value ≠ .fail err) : (first >>= rest) ≠ .fail err := by
  intro failed
  cases first with
  | ok value => exact after value failed
  | error fault =>
    cases failed
    exact before rfl

/-- The code returns or panics. -/
def Outcome.Unfailing {ε α : Type*} (result : Outcome ε α) : Prop := ∀ err, result ≠ .fail err

namespace Outcome.Unfailing

theorem ok {ε α : Type*} (value : α) : Unfailing (.ok value : Outcome ε α) := nofun

theorem panicked {ε α : Type*} : Unfailing (.panicked : Outcome ε α) := nofun

theorem expect {ε α : Type*} (value : Option α) : Unfailing (.expect value : Outcome ε α) := by
  cases value with
  | none => exact panicked
  | some value => exact ok value

theorem bind {ε : Type*} {α β : Type u} {first : Outcome ε α} {rest : α → Outcome ε β} (before : Unfailing first)
    (after : ∀ value, Unfailing (rest value)) : Unfailing (first >>= rest) :=
  fun err => bind_ne_fail (before err) fun value => after value err

theorem mapM {ε α : Type*} {β : Type u} {f : α → Outcome ε β} {values : List α}
    (each : ∀ value ∈ values, Unfailing (f value)) : Unfailing (values.mapM f) := by
  induction values with
  | nil => exact ok _
  | cons value rest next =>
    rw [forall_mem_cons] at each
    rw [mapM_cons]
    exact bind each.1 fun _ => bind (next each.2) fun _ => ok _

end Outcome.Unfailing

theorem mapError_ok_iff {ε δ α : Type*} {wrap : ε → δ} {result : Except ε α} {value : α} :
    result.mapError wrap = .ok value ↔ result = .ok value := by
  cases result <;> simp [Except.mapError]

theorem toOption_eq_some_iff {ε α : Type*} {result : Except ε α} {value : α} :
    result.toOption = some value ↔ result = .ok value := by
  cases result <;> simp [Except.toOption]

section
variable {α β : Type*} {related : α → β → Prop} {left : List α} {right : List β} (all : Forall₂ related left right)
include all

theorem exists_of_mem_right {value : β} (member : value ∈ right) : ∃ origin ∈ left, related origin value := by
  induction all with
  | nil => cases member
  | cons first _ next =>
    rcases mem_cons.mp member with rfl | later
    · exact ⟨_, mem_cons_self, first⟩
    · obtain ⟨origin, among, relates⟩ := next later
      exact ⟨origin, mem_cons_of_mem _ among, relates⟩

theorem exists_of_mem_left {value : α} (member : value ∈ left) : ∃ image ∈ right, related value image :=
  exists_of_mem_right all.flip member

end

theorem flatMap_congr {α β γ : Type*} {related : α → β → Prop} {f : α → List γ} {g : β → List γ}
    (same : ∀ left right, related left right → f left = g right) {lefts : List α} {rights : List β}
    (all : Forall₂ related lefts rights) : lefts.flatMap f = rights.flatMap g := by
  induction all with
  | nil => rfl
  | cons first _ next => rw [flatMap_cons, flatMap_cons, same _ _ first, next]

theorem exists_ok {ε α : Type*} (result : Except ε α) (ok : result.isOk = true) : ∃ value, result = .ok value := by
  cases result with
  | error _ => cases ok
  | ok value => exact ⟨value, rfl⟩

theorem exists_ok_map {ε α β : Type*} {result : Except ε α} {view : α → β} {value : β}
    (ok : result.map view = .ok value) : ∃ found, result = .ok found ∧ view found = value := by
  cases result with
  | error _ => cases ok
  | ok found => exact ⟨found, rfl, Except.ok.inj ok⟩

instance decidableExistsOk {ε α : Type*} {result : Except ε α} {property : α → Prop} [DecidablePred property] :
    Decidable (∃ value, result = .ok value ∧ property value) :=
  match result with
  | .ok value => decidable_of_iff (property value) (by simp)
  | .error _ => .isFalse (by simp)

end Boxd.Lib
