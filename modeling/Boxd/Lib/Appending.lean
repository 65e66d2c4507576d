import Boxd.Lib.Outcome

/-! Code over a store that only grows. A read sees all records, the newest first; a
write adds one. What a run ends with is stated for the records that it may see. -/

namespace Boxd.Lib

/-- The result of a run, with the records that it added. They stay when the code fails. -/
def Appending (ρ ε α : Type) := List ρ → Except (Fault ε) α × List ρ

namespace Appending

variable {ρ ε α β : Type}

instance : Monad (Appending ρ ε) where
  pure value := fun _ => (.ok value, [])
  bind first rest := fun records =>
    match first records with
    | (.ok value, added) => ((rest value (added ++ records)).1, (rest value (added ++ records)).2 ++ added)
    | (.error fault, added) => (.error fault, added)

def read : Appending ρ ε (List ρ) := fun records => (.ok records, [])

def add (record : ρ) : Appending ρ ε Unit := fun _ => (.ok (), [record])

def lift (result : Outcome ε α) : Appending ρ ε α := fun _ => (result, [])

def fail (err : ε) : Appending ρ ε α := lift (.fail err)

def panicked : Appending ρ ε α := lift .panicked

def expect (value : Option α) : Appending ρ ε α := lift (Outcome.expect value)

/-- Run an action whose error the caller does not survive. -/
def orPanic (action : Appending ρ ε α) : Appending ρ ε α := fun records =>
  match action records with
  | (.ok value, added) => (.ok value, added)
  | (.error _, added) => (.error .panic, added)

@[simp] theorem pure_bind_eq (value : α) (rest : α → Appending ρ ε β) :
    ((Pure.pure value : Appending ρ ε α) >>= rest) = rest value := by
  funext records
  simp [Bind.bind, Pure.pure]

@[simp] theorem lift_ok (value : α) : (lift (.ok value) : Appending ρ ε α) = Pure.pure value := rfl

@[simp] theorem expect_some (value : α) : (expect (some value) : Appending ρ ε α) = Pure.pure value := rfl

/-- The store after a run. -/
def after (action : Appending ρ ε α) (records : List ρ) : List ρ := (action records).2 ++ records

def Silent (action : Appending ρ ε α) : Prop := ∀ records, (action records).2 = []

namespace Silent

theorem pure (value : α) : Silent (Pure.pure value : Appending ρ ε α) := fun _ => rfl

theorem lift (result : Outcome ε α) : Silent (Appending.lift result : Appending ρ ε α) := fun _ => rfl

theorem read : Silent (Appending.read : Appending ρ ε (List ρ)) := fun _ => rfl

theorem bind {first : Appending ρ ε α} {rest : α → Appending ρ ε β} (before : Silent first)
    (next : ∀ value, Silent (rest value)) : Silent (first >>= rest) := by
  intro records
  have added := before records
  simp only [Bind.bind]
  generalize first records = ran at added
  obtain ⟨outcome | value, new⟩ := ran
  · exact added
  · cases added
    simp [next value records]

theorem after_eq {action : Appending ρ ε α} (silent : Silent action) (records : List ρ) : action.after records = records := by
  rw [after, silent records, List.nil_append]

end Silent

/-- If all records of the run are allowed ones then it has the result, and leaves a store with `post`. -/
def Ends (allowed : Set ρ) (records : List ρ) (action : Appending ρ ε α) (result : Except (Fault ε) α)
    (post : List ρ → Prop) : Prop :=
  (∀ record ∈ action.after records, record ∈ allowed) → (action records).1 = result ∧ post (action.after records)

namespace Ends

variable {allowed : Set ρ} {records : List ρ} {action : Appending ρ ε α} {result : Except (Fault ε) α}
  {post post' : List ρ → Prop}

theorem mono (ends : Ends allowed records action result post) (weaker : ∀ final, post final → post' final) :
    Ends allowed records action result post' := by
  intro within
  obtain ⟨same, holds⟩ := ends within
  exact ⟨same, weaker _ holds⟩

theorem of_start (ends : (∀ record ∈ records, record ∈ allowed) → Ends allowed records action result post) :
    Ends allowed records action result post := by
  intro within
  apply ends _ within
  intro record member
  exact within record (List.mem_append_right _ member)

theorem grown (ends : Ends allowed records action result post) :
    Ends allowed records action result fun final => records ⊆ final ∧ post final := by
  intro within
  obtain ⟨same, holds⟩ := ends within
  exact ⟨same, List.subset_append_right _ _, holds⟩

theorem pure {value : α} (holds : post records) :
    Ends allowed records (Pure.pure value : Appending ρ ε α) (.ok value) post :=
  fun _ => ⟨rfl, holds⟩

theorem fail {err : ε} (holds : post records) :
    Ends allowed records (Appending.fail err : Appending ρ ε α) (.error (.error err)) post :=
  fun _ => ⟨rfl, holds⟩

theorem add {record : ρ} (holds : record ∈ allowed → post (record :: records)) :
    Ends allowed records (Appending.add record : Appending ρ ε Unit) (.ok ()) post :=
  fun within => ⟨rfl, holds (within record List.mem_cons_self)⟩

theorem read (holds : post records) : Ends allowed records (Appending.read : Appending ρ ε _) (.ok records) post :=
  fun _ => ⟨rfl, holds⟩

private theorem after_bind {first : Appending ρ ε α} (rest : α → Appending ρ ε β) {value : α}
    (ok : (first records).1 = .ok value) :
    ((first >>= rest) records).1 = (rest value (first.after records)).1 ∧
      (first >>= rest).after records = (rest value).after (first.after records) := by
  simp only [Appending.after, bind]
  generalize first records = ran at ok
  obtain ⟨outcome, added⟩ := ran
  cases ok
  exact ⟨rfl, List.append_assoc _ _ _⟩

theorem bind {first : Appending ρ ε α} {rest : α → Appending ρ ε β} {value : α} {middle : List ρ → Prop}
    {result : Except (Fault ε) β} (before : Ends allowed records first (.ok value) middle)
    (next : ∀ between, middle between → Ends allowed between (rest value) result post) :
    Ends allowed records (first >>= rest) result post := by
  intro within
  -- The records after the first action are among those after both, whatever it returned.
  have early : ∀ record ∈ first.after records, record ∈ allowed := by
    intro record member
    apply within
    simp only [Appending.after, Bind.bind] at member ⊢
    generalize first records = ran at member
    obtain ⟨outcome | value, added⟩ := ran
    · exact member
    · simp only [List.append_assoc]
      exact List.mem_append_right _ member
  obtain ⟨ok, holds⟩ := before early
  obtain ⟨same, store⟩ := after_bind rest ok
  rw [store] at within
  have ended := next _ holds within
  rwa [← same, ← store] at ended

theorem map {value : α} (change : α → β) (ends : Ends allowed records action (.ok value) post) :
    Ends allowed records (change <$> action) (.ok (change value)) post :=
  ends.bind fun _ holds => .pure holds

theorem bind_error {first : Appending ρ ε α} {rest : α → Appending ρ ε β} {fault : Fault ε}
    (before : Ends allowed records first (.error fault) post) :
    Ends allowed records (first >>= rest) (.error fault) post := by
  unfold Ends Appending.after at *
  simp only [Bind.bind]
  generalize first records = ran at before
  obtain ⟨outcome | value, added⟩ := ran
  · intro within
    obtain ⟨same, holds⟩ := before within
    cases same
    exact ⟨rfl, holds⟩
  · intro within
    have early : ∀ record ∈ added ++ records, record ∈ allowed := by
      intro record member
      apply within
      simp only [List.append_assoc]
      exact List.mem_append_right _ member
    cases (before early).1

theorem orPanic {value : α} (ends : Ends allowed records action (.ok value) post) :
    Ends allowed records action.orPanic (.ok value) post := by
  unfold Ends Appending.after Appending.orPanic at *
  generalize action records = ran at ends ⊢
  obtain ⟨outcome | value, added⟩ := ran
  · intro within
    cases (ends within).1
  · exact ends

end Ends

end Appending

end Boxd.Lib
