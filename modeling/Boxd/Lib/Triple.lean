import Boxd.Lib.Outcome

/-! Rules for code that changes a state. What holds when the code fails or panics is
stated next to what holds when it returns. -/

namespace Boxd.Lib.Stateful

variable {σ ε α β : Type}

def errorAsValue : Except (Fault ε) α → Except (Fault ε) (Except ε α)
  | .ok value => .ok (.ok value)
  | .error (.error err) => .ok (.error err)
  | .error .panic => .error .panic

/-- Run an action whose error is looked at. A panic is passed on. -/
def attempt (action : Stateful σ ε α) : Stateful σ ε (Except ε α) :=
  ExceptT.mk fun start => ((action.run.run start).map errorAsValue id : Except (Fault ε) (Except ε α) × σ)

def errorAsPanic : Except (Fault ε) α → Except (Fault ε) α
  | .ok value => .ok value
  | .error _ => .error .panic

/-- Run an action whose error the caller does not survive. -/
def orPanic (action : Stateful σ ε α) : Stateful σ ε α :=
  ExceptT.mk fun start => ((action.run.run start).map errorAsPanic id : Except (Fault ε) α × σ)

def observe (note : Except (Fault ε) α → σ → σ) (action : Stateful σ ε α) : Stateful σ ε α :=
  ExceptT.mk fun start =>
    let (result, final) := action.run.run start
    ((result, note result final) : Except (Fault ε) α × σ)

/-- The state that an action leaves, however it ends. -/
def after (action : Stateful σ ε α) (start : σ) : σ := (action.run.run start).2

variable {start : σ}

theorem returns_after {action : Stateful σ ε α} {value : α} (ok : (action.run.run start).1 = .ok value) :
    action.Returns start value (action.after start) := Prod.ext ok rfl

def AtEnd (post : α → σ → Prop) (failed : Fault ε → σ → Prop) : Except (Fault ε) α × σ → Prop
  | (.ok value, final) => post value final
  | (.error fault, final) => failed fault final

def Triple (pre : σ → Prop) (action : Stateful σ ε α) (post : α → σ → Prop) (failed : Fault ε → σ → Prop) : Prop :=
  ∀ start, pre start → AtEnd post failed (action.run.run start)

/-- What holds when the code fails, and what holds when it panics. -/
def Ended (kept died : σ → Prop) : Fault ε → σ → Prop
  | .error _, state => kept state
  | .panic, state => died state

/-- What holds when the code fails. After a panic nothing is left to be said. -/
abbrev Survived (kept : σ → Prop) : Fault ε → σ → Prop := Ended kept fun _ => True

namespace Ended

variable {kept kept' died died' : σ → Prop} {fault : Fault ε} {state : σ}

theorem intro (dies : kept state → died state) (holds : kept state) : Ended kept died fault state := by
  cases fault with
  | error err => exact holds
  | panic => exact dies holds

theorem mono {state' : σ} (fails : kept state → kept' state') (dies : died state → died' state')
    (ended : Ended kept died fault state) : Ended kept' died' fault state' := by
  cases fault with
  | error err => exact fails ended
  | panic => exact dies ended

theorem anyway (dies : kept state → died state) (ended : Ended kept died fault state) : died state := by
  cases fault with
  | error err => exact dies ended
  | panic => exact ended

end Ended

def Keeps (kept : σ → Prop) (action : Stateful σ ε α) : Prop := Triple kept action (fun _ => kept) (Survived kept)

namespace Triple

variable {pre : σ → Prop} {failed : Fault ε → σ → Prop}

variable {action : Stateful σ ε α} {post : α → σ → Prop}

theorem of_start (each : ∀ start, pre start → Triple (· = start) action post failed) : Triple pre action post failed :=
  fun start holds => each start holds start rfl

section
variable (triple : Triple pre action post failed)
include triple

theorem returned {start final : σ} {value : α} (returns : action.Returns start value final) (holds : pre start) :
    post value final := by
  have ended := triple start holds
  rw [show action.run.run start = (.ok value, final) from returns] at ended
  exact ended

variable {pre' : σ → Prop} {failed' : Fault ε → σ → Prop}

theorem weaken {post' : α → σ → Prop} (before : ∀ state, pre' state → pre state)
    (after : ∀ value state, post value state → post' value state)
    (fails : ∀ fault state, failed fault state → failed' fault state) : Triple pre' action post' failed' := by
  intro start holds
  have ended := triple start (before start holds)
  generalize action.run.run start = ran at ended
  match ran with
  | (.ok value, final) => exact after value final ended
  | (.error fault, final) => exact fails fault final ended

theorem of_pre (before : ∀ state, pre' state → pre state) : Triple pre' action post failed :=
  triple.weaken before (fun _ _ holds => holds) fun _ _ holds => holds

end

theorem trivial : Triple (fun _ => True) action (fun _ _ => True) (fun _ _ => True) := by
  intro start _
  match action.run.run start with
  | (.ok _, _) => exact True.intro
  | (.error _, _) => exact True.intro

theorem and {post' : α → σ → Prop} (left : Triple pre action post failed) (right : Triple pre' action post' failed') :
    Triple (fun state => pre state ∧ pre' state) action (fun value state => post value state ∧ post' value state)
      (fun fault state => failed fault state ∧ failed' fault state) := by
  rintro start ⟨holds, holds'⟩
  have ended := left start holds
  have ended' := right start holds'
  generalize action.run.run start = ran at ended ended'
  match ran with
  | (.ok value, final) => exact ⟨ended, ended'⟩
  | (.error fault, final) => exact ⟨ended, ended'⟩

theorem pure {value : α} (holds : ∀ state, pre state → post value state) :
    Triple pre (Pure.pure value : Stateful σ ε α) post failed := holds

theorem fail {err : ε} (holds : ∀ state, pre state → failed (.error err) state) :
    Triple pre (Stateful.fail err : Stateful σ ε α) post failed := holds

theorem panicked (holds : ∀ state, pre state → failed .panic state) :
    Triple pre (Stateful.panicked : Stateful σ ε α) post failed := holds

theorem lift {result : Outcome ε α} (returns : ∀ value, result = .ok value → ∀ state, pre state → post value state)
    (fails : ∀ fault, result = .error fault → ∀ state, pre state → failed fault state) :
    Triple pre (Stateful.lift result) post failed := by
  intro start before
  cases result with
  | ok value => exact returns value rfl start before
  | error fault => exact fails fault rfl start before

theorem get {post : σ → σ → Prop} (holds : ∀ state, pre state → post state state) :
    Triple pre (MonadState.get : Stateful σ ε σ) post failed := holds

theorem modify {change : σ → σ} {post : PUnit → σ → Prop} (holds : ∀ state, pre state → post ⟨⟩ (change state)) :
    Triple pre (modify change : Stateful σ ε PUnit) post failed := holds

theorem bind {first : Stateful σ ε α} {rest : α → Stateful σ ε β} {post : β → σ → Prop} (middle : α → σ → Prop)
    (before : Triple pre first middle failed) (after : ∀ value, Triple (middle value) (rest value) post failed) :
    Triple pre (first >>= rest) post failed := by
  intro start holds
  have ended := before start holds
  rw [ExceptT.run_bind, StateT.run_bind]
  generalize first.run.run start = ran at ended
  match ran with
  | (.ok value, between) => exact after value between ended
  | (.error fault, between) => exact ended

theorem bind_same {first : Stateful σ ε α} {rest : α → Stateful σ ε β} {post : β → σ → Prop}
    (before : Triple pre first (fun _ => pre) failed) (after : ∀ value, Triple pre (rest value) post failed) :
    Triple pre (first >>= rest) post failed := bind _ before after

theorem get_bind {rest : σ → Stateful σ ε β} {post : β → σ → Prop}
    (after : ∀ start, pre start → Triple (· = start) (rest start) post failed) :
    Triple pre (MonadState.get >>= rest) post failed := by
  intro start holds
  exact after start holds start rfl

/-- When the error is looked at, the action fails no more. -/
theorem attempt (triple : Triple pre action post failed) (dies : ∀ state, failed .panic state → failed' .panic state) :
    Triple pre action.attempt
      (fun result state => (∀ value, result = .ok value → post value state) ∧
        ∀ err, result = .error err → failed (.error err) state) failed' := by
  intro start holds
  have ended := triple start holds
  have ran : action.attempt.run.run start = (action.run.run start).map errorAsValue id := rfl
  rw [ran]
  generalize action.run.run start = outcome at ended
  match outcome with
  | (.ok value, final) =>
    refine ⟨fun _ same => ?_, fun _ same => (by cases same)⟩
    cases same
    exact ended
  | (.error (.error err), final) =>
    refine ⟨fun _ same => (by cases same), fun _ same => ?_⟩
    cases same
    exact ended
  | (.error .panic, final) => exact dies final ended

theorem orPanic (triple : Triple pre action post failed) (dies : ∀ fault state, failed fault state → failed' .panic state) :
    Triple pre action.orPanic post failed' := by
  intro start holds
  have ended := triple start holds
  have ran : action.orPanic.run.run start = (action.run.run start).map errorAsPanic id := rfl
  rw [ran]
  generalize action.run.run start = outcome at ended
  match outcome with
  | (.ok value, final) => exact ended
  | (.error fault, final) => exact dies fault final ended

theorem observe {note : Except (Fault ε) α → σ → σ}
    (triple : Triple pre action (fun value state => post value (note (.ok value) state))
      fun fault state => failed fault (note (.error fault) state)) : Triple pre (action.observe note) post failed := by
  intro start holds
  have ended := triple start holds
  have ran : (action.observe note).run.run start =
      ((action.run.run start).1, note (action.run.run start).1 (action.run.run start).2) := rfl
  rw [ran]
  generalize action.run.run start = outcome at ended
  match outcome with
  | (.ok value, final) => exact ended
  | (.error fault, final) => exact ended

theorem after {kept : σ → Prop} (triple : Triple pre action (fun _ => kept) fun _ => kept)
    {start : σ} (holds : pre start) : kept (action.after start) := by
  have ended := triple start holds
  unfold Stateful.after
  generalize action.run.run start = outcome at ended
  match outcome with
  | (.ok _, final) => exact ended
  | (.error _, final) => exact ended

theorem forM {values : List α} {body : α → Stateful σ ε PUnit} (left : List α → σ → Prop)
    (step : ∀ value rest, Triple (left (value :: rest)) (body value) (fun _ => left rest) failed) :
    Triple (left values) (values.forM body) (fun _ => left []) failed := by
  induction values with
  | nil => exact .pure fun _ holds => holds
  | cons value rest next =>
    change Triple _ (body value >>= fun _ => rest.forM body) _ _
    exact .bind _ (step value rest) fun _ => next

end Triple

namespace Keeps

variable {kept : σ → Prop}

theorem pure (value : α) : Keeps kept (Pure.pure value : Stateful σ ε α) := Triple.pure fun _ holds => holds

theorem panicked : Keeps kept (Stateful.panicked : Stateful σ ε α) := Triple.panicked fun _ _ => trivial

theorem survived {fault : Fault ε} {state : σ} (holds : kept state) : Survived kept fault state :=
  Ended.intro (fun _ => trivial) holds

theorem lift (result : Outcome ε α) : Keeps kept (Stateful.lift result : Stateful σ ε α) :=
  Triple.lift (fun _ _ _ holds => holds) fun _ _ _ holds => survived holds

theorem get : Keeps kept (MonadState.get : Stateful σ ε σ) := Triple.get fun _ holds => holds

theorem bind {first : Stateful σ ε α} {rest : α → Stateful σ ε β} (before : Keeps kept first)
    (after : ∀ value, Keeps kept (rest value)) : Keeps kept (first >>= rest) := Triple.bind _ before after

theorem forM {body : α → Stateful σ ε PUnit} {values : List α} (step : ∀ value ∈ values, Keeps kept (body value)) :
    Keeps kept (values.forM body) := by
  induction values with
  | nil => exact pure _
  | cons value rest next =>
    rw [List.forall_mem_cons] at step
    change Keeps _ (body value >>= fun _ => rest.forM body)
    exact bind step.1 fun _ => next step.2

end Keeps

/-- The action keeps an assertion, however it ends. -/
def Always (kept : σ → Prop) (action : Stateful σ ε α) : Prop := Triple kept action (fun _ => kept) (fun _ => kept)

namespace Always

variable {kept : σ → Prop}

theorem pure (value : α) : Always kept (Pure.pure value : Stateful σ ε α) := Triple.pure fun _ holds => holds

theorem fail (err : ε) : Always kept (Stateful.fail err : Stateful σ ε α) := Triple.fail fun _ holds => holds

theorem panicked : Always kept (Stateful.panicked : Stateful σ ε α) := Triple.panicked fun _ holds => holds

theorem lift (result : Outcome ε α) : Always kept (Stateful.lift result : Stateful σ ε α) :=
  Triple.lift (fun _ _ _ holds => holds) fun _ _ _ holds => holds

theorem get : Always kept (MonadState.get : Stateful σ ε σ) := Triple.get fun _ holds => holds

theorem modify {change : σ → σ} (holds : ∀ state, kept state → kept (change state)) :
    Always kept (modify change : Stateful σ ε PUnit) := Triple.modify holds

theorem bind {first : Stateful σ ε α} {rest : α → Stateful σ ε β} (before : Always kept first)
    (after : ∀ value, Always kept (rest value)) : Always kept (first >>= rest) := Triple.bind _ before after

theorem ite {condition : Prop} [Decidable condition] {yes no : Stateful σ ε α} (left : Always kept yes)
    (right : Always kept no) : Always kept (if condition then yes else no) := by
  split
  · exact left
  · exact right

theorem orPanic {action : Stateful σ ε α} (always : Always kept action) : Always kept action.orPanic :=
  Triple.orPanic always fun _ _ holds => holds

theorem keeps {action : Stateful σ ε α} (always : Always kept action) : Keeps kept action :=
  .weaken always (fun _ holds => holds) (fun _ _ holds => holds) fun _ _ holds => Keeps.survived holds

end Always

theorem zoom_triple {τ δ : Type} {part : σ → τ} {put : τ → σ → σ} {wrap : δ → ε} {action : Stateful τ δ α}
    {post : α → τ → Prop} {failed : Fault δ → τ → Prop} (triple : Triple (· = part start) action post failed) :
    Triple (· = start) (action.zoom part put wrap) (fun value final => ∃ changed, final = put changed start ∧ post value changed)
      fun _ final => ∃ fault changed, final = put changed start ∧ failed fault changed := by
  rintro _ rfl
  have ended := triple _ rfl
  have ran : ∀ start, (action.zoom part put wrap).run.run start =
      ((action.run.run (part start)).1.mapError (Fault.map wrap), put (action.run.run (part start)).2 start) := fun _ => rfl
  rw [ran]
  generalize action.run.run (part _) = outcome at ended
  match outcome with
  | (.ok value, changed) => exact ⟨changed, rfl, ended⟩
  | (.error fault, changed) => exact ⟨fault, changed, rfl, ended⟩

variable {kept : σ → Prop}

section
variable {τ δ : Type} {put : τ → σ → σ} (keep : ∀ changed state, kept state → kept (put changed state))
include keep

theorem Always.zoom {part : σ → τ} {wrap : δ → ε} {action : Stateful τ δ α} :
    Always kept (action.zoom part put wrap) :=
  .of_start fun start holds => .weaken (zoom_triple (.of_pre .trivial fun _ _ => trivial))
    (fun _ same => same) (fun _ _ ⟨changed, same, _⟩ => same ▸ keep changed start holds)
    fun _ _ ⟨_, changed, same, _⟩ => same ▸ keep changed start holds

theorem Keeps.zoom {part : σ → τ} {wrap : δ → ε} {action : Stateful τ δ α} : Keeps kept (action.zoom part put wrap) :=
  (Always.zoom keep).keeps

end

/-- The action returns or fails, and leaves the given state. -/
def Ends (action : Stateful σ ε α) (start final : σ) : Prop :=
  ∃ result, action.run.run start = (result, final) ∧ result ≠ .error .panic

theorem Keeps.ends {action : Stateful σ ε α} (keeps : Keeps kept action) {final : σ}
    (ended : Ends action start final) (holds : kept start) : kept final := by
  obtain ⟨result, ran, survived⟩ := ended
  have kept := keeps start holds
  rw [ran] at kept
  match result with
  | .ok value => exact kept
  | .error (.error err) => exact kept
  | .error .panic => exact absurd rfl survived

/-- Calls one after the other. A panic ends the run. -/
inductive Runs {ι : Type*} (step : ι → Stateful σ ε PUnit) : σ → List ι → σ → Prop where
  | nil (state : σ) : Runs step state [] state
  | cons {start middle final : σ} {call : ι} {calls : List ι} (ended : Ends (step call) start middle)
      (rest : Runs step middle calls final) : Runs step start (call :: calls) final

namespace Runs

variable {ι : Type*} {step : ι → Stateful σ ε PUnit} {calls : List ι} {start final : σ}

theorem keeps {kept : σ → Prop} (run : Runs step start calls final) (each : ∀ call ∈ calls, Keeps kept (step call))
    (holds : kept start) : kept final := by
  induction run with
  | nil => exact holds
  | cons ended rest next =>
    rw [List.forall_mem_cons] at each
    exact next each.2 (each.1.ends ended holds)

theorem single {call : ι} (survived : ((step call).run.run start).1 ≠ .error .panic) :
    Runs step start [call] ((step call).run.run start).2 := .cons ⟨_, rfl, survived⟩ (.nil _)

theorem concat {middle : σ} {call : ι} (run : Runs step start calls middle) (ended : Ends (step call) middle final) :
    Runs step start (calls ++ [call]) final := by
  induction run with
  | nil => exact .cons ended (.nil _)
  | cons first _ next => exact .cons first (next ended)

/-- Whether no call panics. -/
def survives (step : ι → Stateful σ ε PUnit) : List ι → σ → Bool
  | [], _ => true
  | call :: calls, start =>
    match ((step call).run.run start).1 with
    | .error .panic => false
    | _ => survives step calls ((step call).after start)

theorem of_survives {calls : List ι} {start : σ} (survived : survives step calls start = true) :
    Runs step start calls (calls.foldl (fun state call => (step call).after state) start) := by
  induction calls generalizing start with
  | nil => exact .nil start
  | cons call calls next =>
    rw [survives] at survived
    split at survived
    · cases survived
    · next alive => exact .cons ⟨_, rfl, alive⟩ (next survived)

end Runs
end Boxd.Lib.Stateful
