import Boxd.Chain.ScriptValidator
import Boxd.Proofs.PayToPubKeyHash

/-! The parallel check of scripts is exact, for every interleaving of the dispatcher and the
workers, and it never gets stuck. -/

namespace Boxd
open Lib List Option Script Nat
open scoped List

variable {totalValidatorWorkers : Nat} {s : ScriptValidator}

namespace Worker

def validating? : Worker → Option Nat
  | .validating itemIdx => some itemIdx
  | _ => none

def reporting? : Worker → Option Nat
  | .reporting itemIdx _ => some itemIdx
  | _ => none

def Right (c : Crypto) (scriptItems : List ScriptItem) : Worker → Prop
  | .validating itemIdx => itemIdx < scriptItems.length
  | .reporting itemIdx err => ∃ it, scriptItems[itemIdx]? = some it ∧ it.validate c = err
  | _ => True

end Worker

namespace ScriptValidator

/-- What one step does, with the worker that takes part put first. -/
inductive Stepped (c : Crypto) (scriptItems : List ScriptItem) : ScriptValidator → ScriptValidator → Prop where
  | send {nextItemIdx validatedItems : Nat} {workers after others : List Worker} {log : List Nat}
      (left : nextItemIdx < scriptItems.length) (from_ : workers.Perm (.waiting :: others))
      (to_ : after.Perm (.validating nextItemIdx :: others)) :
      Stepped c scriptItems ⟨.running nextItemIdx validatedItems, workers, log⟩
        ⟨.running (nextItemIdx + 1) validatedItems, after, log⟩
  | validate {dispatcher : Dispatcher} {workers after others : List Worker} {log : List Nat} {itemIdx : Nat}
      {it : ScriptItem}
      (item : scriptItems[itemIdx]? = some it) (from_ : workers.Perm (.validating itemIdx :: others))
      (to_ : after.Perm (.reporting itemIdx (it.validate c) :: others)) :
      Stepped c scriptItems ⟨dispatcher, workers, log⟩ ⟨dispatcher, after, log ++ [itemIdx]⟩
  | received {nextItemIdx validatedItems : Nat} {workers after others : List Worker} {log : List Nat} {itemIdx : Nat}
      (from_ : workers.Perm (.reporting itemIdx none :: others))
      (to_ : after.Perm (.waiting :: others)) :
      Stepped c scriptItems ⟨.running nextItemIdx validatedItems, workers, log⟩
        ⟨.running nextItemIdx (validatedItems + 1), after, log⟩
  | failed {nextItemIdx validatedItems : Nat} {workers after others : List Worker} {log : List Nat} {itemIdx : Nat}
      {err : ScriptError}
      (from_ : workers.Perm (.reporting itemIdx (some err) :: others)) (to_ : after.Perm (.stopped :: others)) :
      Stepped c scriptItems ⟨.running nextItemIdx validatedItems, workers, log⟩ ⟨.returned (some err), after, log⟩
  | finish {nextItemIdx validatedItems : Nat} {workers : List Worker} {log : List Nat} (all : scriptItems.length ≤ validatedItems) :
      Stepped c scriptItems ⟨.running nextItemIdx validatedItems, workers, log⟩ ⟨.returned none, workers, log⟩
  | quit {err : Option ScriptError} {workers after others : List Worker} {log : List Nat} (from_ : workers.Perm (.waiting :: others))
      (to_ : after.Perm (.stopped :: others)) :
      Stepped c scriptItems ⟨.returned err, workers, log⟩ ⟨.returned err, after, log⟩

variable {c : Crypto} {scriptItems : List ScriptItem}

theorem step_stepped {action : Action} {before after : ScriptValidator}
    (stepped : step c scriptItems action before = some after) : Stepped c scriptItems before after := by
  obtain ⟨dispatcher, workers, log⟩ := before
  cases action with
  | send w =>
    cases dispatcher with
    | returned err => cases stepped
    | running nextItemIdx validatedItems =>
      simp only [step, ite_none_right_eq_some] at stepped
      obtain ⟨⟨-, left, held⟩, same⟩ := stepped
      cases same
      exact .send left (perm_cons_eraseIdx held) (perm_set_eraseIdx held _)
  | validate w =>
    simp only [step] at stepped
    split at stepped
    · next itemIdx held =>
      obtain ⟨it, item, same⟩ := map_eq_some_iff.mp stepped
      cases same
      exact .validate item (perm_cons_eraseIdx held) (perm_set_eraseIdx held _)
    · cases stepped
  | receive w =>
    cases dispatcher with
    | returned err => cases stepped
    | running nextItemIdx validatedItems =>
      simp only [step, ite_none_right_eq_some] at stepped
      obtain ⟨-, stepped⟩ := stepped
      split at stepped
      · next itemIdx err held =>
        cases stepped
        cases err with
        | none => exact .received (perm_cons_eraseIdx held) (perm_set_eraseIdx held _)
        | some err => exact .failed (perm_cons_eraseIdx held) (perm_set_eraseIdx held _)
      · cases stepped
  | finish =>
    cases dispatcher with
    | returned err => cases stepped
    | running nextItemIdx validatedItems =>
      simp only [step, ite_none_left_eq_some] at stepped
      obtain ⟨all, same⟩ := stepped
      cases same
      exact .finish (Nat.le_of_not_lt all)
  | quit w =>
    cases dispatcher with
    | running nextItemIdx validatedItems => cases stepped
    | returned err =>
      simp only [step, ite_none_right_eq_some] at stepped
      obtain ⟨held, same⟩ := stepped
      cases same
      exact .quit (perm_cons_eraseIdx held) (perm_set_eraseIdx held _)

/-- While the dispatcher runs: the items that were handed out are run or being run, and
the results of those that were run are counted or waiting to be sent. -/
structure Tally (c : Crypto) (scriptItems : List ScriptItem) (nextItemIdx validatedItems : Nat) (workers : List Worker)
    (log : List Nat) : Prop where
  within : nextItemIdx ≤ scriptItems.length
  given : (log ++ workers.filterMap Worker.validating?).Perm (range nextItemIdx)
  counted : log.length = validatedItems + (workers.filterMap Worker.reporting?).length
  passed : ∀ itemIdx ∈ log, (∃ it, scriptItems[itemIdx]? = some it ∧ it.validate c = none) ∨
    itemIdx ∈ workers.filterMap Worker.reporting?
  alive : .stopped ∉ workers

/-- What is true in every state. -/
structure Sound (c : Crypto) (scriptItems : List ScriptItem) (s : ScriptValidator) : Prop where
  staffed : s.workers ≠ []
  right : ∀ worker ∈ s.workers, worker.Right c scriptItems
  running : ∀ nextItemIdx validatedItems, s.dispatcher = .running nextItemIdx validatedItems →
    Tally c scriptItems nextItemIdx validatedItems s.workers s.log
  succeeded : s.dispatcher = .returned none → s.log.Perm (range scriptItems.length) ∧
    (∀ it ∈ scriptItems, it.validate c = none) ∧ s.workers.filterMap Worker.validating? = []
  failed : ∀ err, s.dispatcher = .returned (some err) → ∃ it ∈ scriptItems, it.validate c = some err

theorem Sound.start (some_ : 0 < totalValidatorWorkers) : Sound c scriptItems (start totalValidatorWorkers) := by
  have waiting : ∀ worker ∈ replicate totalValidatorWorkers Worker.waiting, worker = .waiting :=
    fun worker member => eq_of_mem_replicate member
  have idle (f : Worker → Option Nat) (none : f .waiting = none) :
      (replicate totalValidatorWorkers Worker.waiting).filterMap f = [] := by
    rw [filterMap_eq_nil_iff]
    intro worker member
    rw [waiting worker member, none]
  constructor
  · exact fun empty => ne_of_gt some_ (replicate_eq_nil_iff _ |>.mp empty)
  · intro worker member
    rw [waiting worker member]
    trivial
  · intro nextItemIdx validatedItems at_
    cases at_
    refine ⟨zero_le _, ?_, ?_, ?_, ?_⟩
    · change (filterMap _ (replicate _ _)).Perm []
      rw [idle Worker.validating? rfl]
    · change 0 = 0 + (filterMap _ (replicate _ _)).length
      rw [idle Worker.reporting? rfl]
      rfl
    · exact fun _ member => absurd member not_mem_nil
    · exact fun stopped => nomatch waiting _ stopped
  · exact fun at_ => nomatch at_
  · exact fun _ at_ => nomatch at_

section Step

variable {nextItemIdx validatedItems : Nat} {workers after others : List Worker} {log : List Nat} {worker next : Worker}

theorem right_step (right : ∀ other ∈ workers, other.Right c scriptItems) (from_ : workers.Perm (worker :: others))
    (to_ : after.Perm (next :: others)) (good : next.Right c scriptItems) :
    ∀ other ∈ after, other.Right c scriptItems := by
  intro other member
  rcases mem_cons.mp (to_.mem_iff.mp member) with rfl | member
  · exact good
  · exact right other (from_.mem_iff.mpr (.tail _ member))

theorem alive_step (alive : .stopped ∉ workers) (from_ : workers.Perm (worker :: others))
    (to_ : after.Perm (next :: others)) (goes : next ≠ .stopped) : .stopped ∉ after := by
  intro stopped
  rcases mem_cons.mp (to_.mem_iff.mp stopped) with same | member
  · exact goes same.symm
  · exact alive (from_.mem_iff.mpr (.tail _ member))

theorem staffed_step (to_ : after.Perm (next :: others)) : after ≠ [] := by
  rintro rfl
  cases nil_perm.mp to_

section
variable (tally : Tally c scriptItems nextItemIdx validatedItems workers log)
include tally

theorem Tally.send (left : nextItemIdx < scriptItems.length) (from_ : workers.Perm (.waiting :: others))
    (to_ : after.Perm (.validating nextItemIdx :: others)) :
    Tally c scriptItems (nextItemIdx + 1) validatedItems after log := by
  have validating := from_.filterMap Worker.validating?
  have reporting := (from_.filterMap Worker.reporting?).trans (to_.filterMap Worker.reporting?).symm
  refine ⟨left, ?_, ?_, ?_, ?_⟩
  · calc log ++ after.filterMap Worker.validating?
      _ ~ log ++ nextItemIdx :: others.filterMap Worker.validating? := (to_.filterMap _).append_left log
      _ ~ nextItemIdx :: (log ++ others.filterMap Worker.validating?) := perm_middle
      _ ~ nextItemIdx :: (log ++ workers.filterMap Worker.validating?) := (validating.symm.append_left log).cons _
      _ ~ nextItemIdx :: range nextItemIdx := tally.given.cons _
      _ ~ range (nextItemIdx + 1) := by
        rw [range_succ]
        exact (perm_append_singleton _ _).symm
  · rw [tally.counted, reporting.length_eq]
  · intro itemIdx member
    exact (tally.passed itemIdx member).imp_right fun waits => reporting.mem_iff.mp waits
  · exact alive_step tally.alive from_ to_ nofun

theorem Tally.validate {itemIdx : Nat} {err : Option ScriptError}
    (from_ : workers.Perm (.validating itemIdx :: others)) (to_ : after.Perm (.reporting itemIdx err :: others)) :
    Tally c scriptItems nextItemIdx validatedItems after (log ++ [itemIdx]) := by
  have before : (workers.filterMap Worker.reporting?).Perm (others.filterMap Worker.reporting?) :=
    from_.filterMap Worker.reporting?
  have reporting : (after.filterMap Worker.reporting?).Perm (itemIdx :: others.filterMap Worker.reporting?) :=
    to_.filterMap Worker.reporting?
  refine ⟨tally.within, ?_, ?_, ?_, ?_⟩
  · calc log ++ [itemIdx] ++ after.filterMap Worker.validating?
      _ ~ log ++ [itemIdx] ++ others.filterMap Worker.validating? := (to_.filterMap _).append_left _
      _ ~ log ++ itemIdx :: others.filterMap Worker.validating? := by simp
      _ ~ log ++ workers.filterMap Worker.validating? := (from_.filterMap Worker.validating?).symm.append_left log
      _ ~ range nextItemIdx := tally.given
  · rw [length_append, tally.counted, before.length_eq, reporting.length_eq]
    rfl
  · intro other member
    rcases mem_append.mp member with member | member
    · refine (tally.passed other member).imp_right fun waits => ?_
      exact reporting.mem_iff.mpr (.tail _ (before.mem_iff.mp waits))
    · cases mem_singleton.mp member
      exact .inr (reporting.mem_iff.mpr mem_cons_self)
  · exact alive_step tally.alive from_ to_ nofun

theorem Tally.receive {itemIdx : Nat} (right : ∀ other ∈ workers, other.Right c scriptItems)
    (from_ : workers.Perm (.reporting itemIdx none :: others)) (to_ : after.Perm (.waiting :: others)) :
    Tally c scriptItems nextItemIdx (validatedItems + 1) after log := by
  have before : (workers.filterMap Worker.reporting?).Perm (itemIdx :: others.filterMap Worker.reporting?) :=
    from_.filterMap Worker.reporting?
  have reporting : (after.filterMap Worker.reporting?).Perm (others.filterMap Worker.reporting?) :=
    to_.filterMap Worker.reporting?
  have validating := (to_.filterMap Worker.validating?).trans (from_.filterMap Worker.validating?).symm
  refine ⟨tally.within, (validating.append_left log).trans tally.given, ?_, ?_, ?_⟩
  · rw [tally.counted, before.length_eq, reporting.length_eq, length_cons]
    omega
  · intro other member
    rcases tally.passed other member with passed | waits
    · exact .inl passed
    rcases mem_cons.mp (before.mem_iff.mp waits) with rfl | waits
    · exact .inl (right _ (from_.mem_iff.mpr mem_cons_self))
    · exact .inr (reporting.mem_iff.mpr waits)
  · exact alive_step tally.alive from_ to_ nofun

theorem Tally.finish (all : scriptItems.length ≤ validatedItems) :
    log.Perm (range scriptItems.length) ∧ (∀ it ∈ scriptItems, it.validate c = none) ∧
      workers.filterMap Worker.validating? = [] ∧ workers.filterMap Worker.reporting? = [] := by
  have total := tally.given.length_eq
  have counted := tally.counted
  have within := tally.within
  rw [length_append, length_range] at total
  have idle : workers.filterMap Worker.validating? = [] := length_eq_zero_iff.mp (by omega)
  have sent : workers.filterMap Worker.reporting? = [] := length_eq_zero_iff.mp (by omega)
  have last : nextItemIdx = scriptItems.length := by omega
  have given : log.Perm (range scriptItems.length) := by
    have given := tally.given
    rwa [idle, append_nil, last] at given
  refine ⟨given, fun it member => ?_, idle, sent⟩
  obtain ⟨itemIdx, inside, rfl⟩ := mem_iff_getElem.mp member
  rcases tally.passed itemIdx (given.mem_iff.mpr (mem_range.mpr inside)) with ⟨it, held, passed⟩ | waits
  · rw [getElem?_eq_getElem inside] at held
    cases held
    exact passed
  · rw [sent] at waits
    cases waits

end

end Step

theorem Sound.step {before after : ScriptValidator} (sound : Sound c scriptItems before)
    (stepped : Stepped c scriptItems before after) : Sound c scriptItems after := by
  obtain ⟨staffed, right, running, succeeded, failed⟩ := sound
  cases stepped with
  | send left from_ to_ =>
    refine ⟨staffed_step to_, right_step right from_ to_ left, ?_, nofun, nofun⟩
    intro _ _ same
    cases same
    exact (running _ _ rfl).send left from_ to_
  | validate item from_ to_ =>
    refine ⟨staffed_step to_, right_step right from_ to_ ⟨_, item, rfl⟩, ?_, ?_, failed⟩
    · exact fun _ _ at_ => (running _ _ at_).validate from_ to_
    · intro at_
      obtain ⟨-, -, idle⟩ := succeeded at_
      have busy := (from_.filterMap Worker.validating?).symm
      rw [idle] at busy
      cases perm_nil.mp busy
  | received from_ to_ =>
    refine ⟨staffed_step to_, right_step right from_ to_ trivial, ?_, nofun, nofun⟩
    intro _ _ same
    cases same
    exact (running _ _ rfl).receive right from_ to_
  | failed from_ to_ =>
    refine ⟨staffed_step to_, right_step right from_ to_ trivial, nofun, nofun, ?_⟩
    intro err same
    cases same
    obtain ⟨it, held, result⟩ := right _ (from_.mem_iff.mpr mem_cons_self)
    exact ⟨it, mem_of_getElem? held, result⟩
  | finish all =>
    obtain ⟨log, passed, idle, -⟩ := (running _ _ rfl).finish all
    exact ⟨staffed, right, nofun, fun _ => ⟨log, passed, idle⟩, nofun⟩
  | quit from_ to_ =>
    refine ⟨staffed_step to_, right_step right from_ to_ trivial, nofun, ?_, failed⟩
    intro at_
    obtain ⟨log, passed, idle⟩ := succeeded at_
    refine ⟨log, passed, ?_⟩
    have same := (to_.filterMap Worker.validating?).trans (from_.filterMap Worker.validating?).symm
    rw [idle] at same
    exact perm_nil.mp same

theorem sound_reached (some_ : 0 < totalValidatorWorkers)
    (reached : Reached (step c scriptItems) (start totalValidatorWorkers) s) : Sound c scriptItems s :=
  reached.invariant (Sound.start some_) fun _ _ _ stepped sound => sound.step (step_stepped stepped)

/-- While the dispatcher runs, a result is waiting for it, a worker has an item, or all
workers wait and there is an item left. -/
theorem Sound.enabled (sound : Sound c scriptItems s) (running : ∀ err, s.dispatcher ≠ .returned err) :
    Enabled (ScriptValidator.step c scriptItems) s := by
  obtain ⟨dispatcher, workers, log⟩ := s
  cases dispatcher with
  | returned err => exact (running err rfl).elim
  | running nextItemIdx validatedItems =>
    have tally := sound.running _ _ rfl
    by_cases all : scriptItems.length ≤ validatedItems
    · exact ⟨.finish, _, if_neg (not_lt.mpr all)⟩
    have left := Nat.lt_of_not_le all
    by_cases reports : ∃ itemIdx err, .reporting itemIdx err ∈ workers
    · obtain ⟨itemIdx, err, member⟩ := reports
      obtain ⟨w, held⟩ := mem_iff_getElem?.mp member
      refine ⟨.receive w, ⟨afterResult nextItemIdx validatedItems err, workers.set w (afterReport err), log⟩, ?_⟩
      rw [ScriptValidator.step, if_pos left, held]
    by_cases validates : ∃ itemIdx, .validating itemIdx ∈ workers
    · obtain ⟨itemIdx, member⟩ := validates
      obtain ⟨w, held⟩ := mem_iff_getElem?.mp member
      have inside : itemIdx < scriptItems.length := sound.right _ member
      refine ⟨.validate w, ⟨.running nextItemIdx validatedItems,
        workers.set w (.reporting itemIdx (scriptItems[itemIdx].validate c)), log ++ [itemIdx]⟩, ?_⟩
      simp only [ScriptValidator.step, held, getElem?_eq_getElem inside]
      rfl
    have waiting : ∀ worker ∈ workers, worker = .waiting := by
      intro worker member
      cases worker with
      | waiting => rfl
      | validating itemIdx => exact (validates ⟨itemIdx, member⟩).elim
      | reporting itemIdx err => exact (reports ⟨itemIdx, err, member⟩).elim
      | stopped => exact (tally.alive member).elim
    have idle (f : Worker → Option Nat) (none : f .waiting = none) : workers.filterMap f = [] := by
      rw [filterMap_eq_nil_iff]
      intro worker member
      rw [waiting worker member, none]
    have total := tally.given.length_eq
    have counted := tally.counted
    rw [idle Worker.validating? rfl, append_nil, length_range] at total
    rw [idle Worker.reporting? rfl, length_nil] at counted
    have next : nextItemIdx < scriptItems.length := by omega
    have first : workers[0]? = some .waiting := by
      obtain ⟨worker, rest, rfl⟩ := exists_cons_of_ne_nil sound.staffed
      rw [waiting worker mem_cons_self]
      rfl
    exact ⟨.send 0, _, if_pos ⟨left, next, first⟩⟩

/-- For every interleaving: success is returned only when every item was run once and
passed, an error only when some item fails with it, and some step is possible until
then. -/
theorem script_validation_exact (c : Crypto) (scriptItems : List ScriptItem) {totalValidatorWorkers : Nat}
    (some_ : 0 < totalValidatorWorkers) {s : ScriptValidator}
    (reached : Reached (step c scriptItems) (start totalValidatorWorkers) s) :
    (s.dispatcher = .returned none → ∀ itemIdx it, scriptItems[itemIdx]? = some it →
      it.validate c = none ∧ s.log.count itemIdx = 1) ∧
    (∀ err, s.dispatcher = .returned (some err) → ∃ it ∈ scriptItems, it.validate c = some err) ∧
    ((∀ err, s.dispatcher ≠ .returned err) → Enabled (step c scriptItems) s) := by
  have sound := sound_reached some_ reached
  refine ⟨fun at_ itemIdx it held => ?_, sound.failed, sound.enabled⟩
  obtain ⟨log, passed, -⟩ := sound.succeeded at_
  refine ⟨passed it (mem_of_getElem? held), ?_⟩
  obtain ⟨inside, -⟩ := List.getElem?_eq_some_iff.mp held
  rw [log.count_eq, count_eq_one_of_mem nodup_range (mem_range.mpr inside)]

/-- Two items that pass, checked by two workers at the same time. -/
def sampleItem : ScriptItem :=
  ⟨sampleTx sampleScriptSig maxUint32 0, 0, sampleScriptSig, payToPubKeyHashScript sampleKeyHash⟩

def overlapping : List Action :=
  [.send 1, .send 0, .validate 0, .validate 1, .receive 0, .receive 1, .finish]

def overlappingEnd : ScriptValidator := ⟨.returned none, [.waiting, .waiting], [1, 0]⟩

theorem overlapping_exact :
    overlappingEnd.dispatcher = .returned none ∧ sampleItem.validate sampleCrypto = none ∧
      overlappingEnd.log.count 1 = 1 := by
  have reached : Reached (step sampleCrypto [sampleItem, sampleItem]) (start 2) overlappingEnd :=
    .of_run (show runActions _ overlapping (start 2) = some overlappingEnd by decide +kernel)
  exact ⟨rfl, (script_validation_exact sampleCrypto [sampleItem, sampleItem] (by decide) reached).1 rfl 1 sampleItem rfl⟩

section Release

/-- Every worker can still get to its return. -/
def Released (c : Crypto) (scriptItems : List ScriptItem) (s : ScriptValidator) : Prop :=
  ∀ w < s.workers.length, ∃ t, Reached (step c scriptItems) s t ∧ t.workers[w]? = some .stopped

/-- The worker has an item and nobody will receive its result. -/
def Stranded (w : Nat) (s : ScriptValidator) : Prop :=
  (∃ err, s.dispatcher = .returned err) ∧ ∃ worker, s.workers[w]? = some worker ∧ worker ≠ .waiting ∧ worker ≠ .stopped

variable {before after : ScriptValidator} {w : Nat}

theorem Stranded.step {action : Action} (stranded : Stranded w before)
    (stepped : step c scriptItems action before = some after) : Stranded w after := by
  obtain ⟨dispatcher, workers, log⟩ := before
  obtain ⟨⟨err, returned⟩, worker, held, waits, stops⟩ := stranded
  cases returned
  obtain ⟨inside, -⟩ := List.getElem?_eq_some_iff.mp held
  cases action with
  | send other => cases stepped
  | receive other => cases stepped
  | finish => cases stepped
  | validate other =>
    simp only [ScriptValidator.step] at stepped
    split at stepped
    · obtain ⟨it, -, same⟩ := map_eq_some_iff.mp stepped
      cases same
      refine ⟨⟨err, rfl⟩, ?_⟩
      by_cases same : other = w
      · cases same
        exact ⟨_, getElem?_set_self inside, nofun, nofun⟩
      · exact ⟨worker, (getElem?_set_ne same).trans held, waits, stops⟩
    · cases stepped
  | quit other =>
    simp only [ScriptValidator.step, ite_none_right_eq_some] at stepped
    obtain ⟨idle, same⟩ := stepped
    cases same
    refine ⟨⟨err, rfl⟩, worker, (getElem?_set_ne ?_).trans held, waits, stops⟩
    rintro rfl
    exact waits (some.inj (held.symm.trans idle))

theorem Stranded.not_released (stranded : Stranded w s) : ¬Released c scriptItems s := by
  intro released
  obtain ⟨-, worker, held, -⟩ := id stranded
  obtain ⟨t, reached, stopped⟩ := released w (List.getElem?_eq_some_iff.mp held).1
  obtain ⟨-, worker, held, -, stops⟩ := reached.invariant stranded fun _ _ _ stepped stranded => stranded.step stepped
  exact stops (some.inj (held.symm.trans stopped))

theorem Stepped.length_eq (stepped : Stepped c scriptItems before after) :
    after.workers.length = before.workers.length := by
  cases stepped with
  | finish all => rfl
  | send left from_ to_ => exact to_.length_eq.trans from_.length_eq.symm
  | validate item from_ to_ => exact to_.length_eq.trans from_.length_eq.symm
  | received from_ to_ => exact to_.length_eq.trans from_.length_eq.symm
  | failed from_ to_ => exact to_.length_eq.trans from_.length_eq.symm
  | quit from_ to_ => exact to_.length_eq.trans from_.length_eq.symm

theorem workers_length (reached : Reached (ScriptValidator.step c scriptItems) (start totalValidatorWorkers) s) :
    s.workers.length = totalValidatorWorkers := by
  induction reached with
  | start => exact length_replicate
  | step _ action stepped before => exact (step_stepped stepped).length_eq.trans before

/-- No worker has an item once the dispatcher has returned. -/
def Idle (s : ScriptValidator) : Prop :=
  ∀ err, s.dispatcher = .returned err → ∀ worker ∈ s.workers, worker = .waiting ∨ worker = .stopped

theorem idle_of_empty {workers : List Worker} (validating : workers.filterMap Worker.validating? = [])
    (reporting : workers.filterMap Worker.reporting? = []) : ∀ worker ∈ workers, worker = .waiting ∨ worker = .stopped := by
  rw [filterMap_eq_nil_iff] at validating reporting
  intro worker member
  cases worker with
  | waiting => exact .inl rfl
  | stopped => exact .inr rfl
  | validating itemIdx => cases validating _ member
  | reporting itemIdx err => cases reporting _ member

/-- Not more than one item is ever out, or no error ends the loop early. -/
def Narrow (c : Crypto) (scriptItems : List ScriptItem) (totalValidatorWorkers : Nat) : Prop :=
  totalValidatorWorkers ≤ 1 ∨ scriptItems.length ≤ 1 ∨ ∀ it ∈ scriptItems, it.validate c = none

theorem Idle.step (narrow : Narrow c scriptItems before.workers.length) (sound : Sound c scriptItems before)
    (idle : Idle before) (stepped : Stepped c scriptItems before after) : Idle after := by
  cases stepped with
  | send left from_ to_ => nofun
  | received from_ to_ => nofun
  | validate item from_ to_ =>
    intro err at_
    rcases idle err at_ _ (from_.mem_iff.mpr mem_cons_self) with same | same <;> cases same
  | finish all =>
    obtain ⟨-, -, validating, reporting⟩ := (sound.running _ _ rfl).finish all
    exact fun _ _ => idle_of_empty validating reporting
  | quit from_ to_ =>
    intro err at_ worker member
    rcases mem_cons.mp (to_.mem_iff.mp member) with rfl | member
    · exact .inr rfl
    · exact idle err at_ worker (from_.mem_iff.mpr (.tail _ member))
  | @failed nextItemIdx validatedItems workers _ others log itemIdx err from_ to_ =>
    intro _ _ worker member
    rcases mem_cons.mp (to_.mem_iff.mp member) with rfl | member
    · exact .inr rfl
    rcases narrow with single | single | passed
    · have count := from_.length_eq
      cases others with
      | nil => cases member
      | cons other rest => simp only [length_cons] at single count; omega
    · obtain ⟨within, given, counted, -⟩ := sound.running _ _ rfl
      have validating := (from_.filterMap Worker.validating?).length_eq
      have reporting := (from_.filterMap Worker.reporting?).length_eq
      have total := given.length_eq
      simp only [length_append, length_range, filterMap_cons, Worker.validating?, Worker.reporting?, length_cons] at *
      exact idle_of_empty (length_eq_zero_iff.mp (by omega)) (length_eq_zero_iff.mp (by omega)) worker member
    · obtain ⟨it, held, fails⟩ := sound.right _ (from_.mem_iff.mpr mem_cons_self)
      rw [passed it (mem_of_getElem? held)] at fails
      cases fails

theorem idle_reached (some_ : 0 < totalValidatorWorkers) (narrow : Narrow c scriptItems totalValidatorWorkers)
    (reached : Reached (ScriptValidator.step c scriptItems) (start totalValidatorWorkers) s) : Idle s := by
  induction reached with
  | start => nofun
  | step reached action stepped idle =>
    rw [← workers_length reached] at narrow
    exact idle.step narrow (sound_reached some_ reached) (step_stepped stepped)

theorem Idle.released {err : Option ScriptError} (idle : Idle s) (returned : s.dispatcher = .returned err) :
    Released c scriptItems s := by
  intro w inside
  obtain ⟨dispatcher, workers, log⟩ := s
  cases returned
  have held := getElem?_eq_getElem inside
  rcases idle err rfl _ (getElem_mem inside) with waits | stops
  · refine ⟨_, .step .start (.quit w) (if_pos (held.trans (congrArg some waits))), ?_⟩
    exact getElem?_set_self inside
  · exact ⟨_, .start, held.trans (congrArg some stops)⟩

/-- One worker can check the items of the block one after the other, as long as they pass. -/
theorem reached_alone (n : Nat) {k : Nat} (fits : k ≤ scriptItems.length)
    (passes : ∀ i (inside : i < scriptItems.length), i < k → scriptItems[i].validate c = none) :
    Reached (ScriptValidator.step c scriptItems) (start (n + 1)) ⟨.running k k, replicate (n + 1) .waiting, range k⟩ := by
  induction k with
  | zero => exact .start
  | succ k before =>
    refine (before (by omega) fun i inside lower => passes i inside (by omega)).trans ?_
    have inside : k < scriptItems.length := fits
    have run : runActions (ScriptValidator.step c scriptItems) [.send 0, .validate 0, .receive 0]
        ⟨.running k k, replicate (n + 1) .waiting, range k⟩ =
        some ⟨.running (k + 1) (k + 1), replicate (n + 1) .waiting, range (k + 1)⟩ := by
      simp [runActions, ScriptValidator.step, inside, replicate_succ, passes k inside, range_succ, afterResult, afterReport]
    exact .of_run run

/-- Two items are out when the first one that fails is reported: the other is never received. -/
theorem stranded_reached (n : Nat) (two : 2 ≤ scriptItems.length) {it : ScriptItem} (member : it ∈ scriptItems)
    (fails : it.validate c ≠ none) :
    ∃ s, Reached (ScriptValidator.step c scriptItems) (start (n + 2)) s ∧ Stranded 1 s := by
  obtain ⟨failing, inside, failed, passes⟩ : ∃ failing, ∃ inside : failing < scriptItems.length,
      (scriptItems[failing].validate c).isSome ∧
        ∀ i (inside : i < scriptItems.length), i < failing → scriptItems[i].validate c = none := by
    refine ⟨scriptItems.findIdx fun it => (it.validate c).isSome, ?_, ?_, ?_⟩
    · exact findIdx_lt_length_of_exists ⟨it, member, isSome_iff_ne_none.mpr fails⟩
    · exact findIdx_getElem (p := fun it : ScriptItem => (it.validate c).isSome)
    · exact fun i inside lower => isNone_iff_eq_none.mp (isSome_eq_false_iff.mp (not_of_lt_findIdx lower))
  obtain ⟨err, failed⟩ := isSome_iff_exists.mp failed
  cases failing with
  | zero =>
    have run : runActions (ScriptValidator.step c scriptItems) [.send 0, .send 1, .validate 0, .receive 0] (start (n + 2)) =
        some ⟨.returned (some err), .stopped :: .validating 1 :: replicate n .waiting, [0]⟩ := by
      have second : 1 < scriptItems.length := two
      simp [runActions, ScriptValidator.step, start, inside, second, replicate_succ, failed, afterResult, afterReport]
    exact ⟨_, .of_run run, ⟨_, rfl⟩, _, rfl, nofun, nofun⟩
  | succ k =>
    have reached := reached_alone (n + 1) (le_of_lt (lt_of_succ_lt inside)) fun i inside lower => passes i inside (by omega)
    have run : runActions (ScriptValidator.step c scriptItems) [.send 1, .send 0, .validate 0, .receive 0]
        ⟨.running k k, replicate (n + 2) .waiting, range k⟩ =
        some ⟨.returned (some err), .stopped :: .validating k :: replicate n .waiting, range k ++ [k + 1]⟩ := by
      have first : k < scriptItems.length := by omega
      simp [runActions, ScriptValidator.step, first, inside, replicate_succ, failed, afterResult, afterReport]
    exact ⟨_, reached.trans (.of_run run), ⟨_, rfl⟩, _, rfl, nofun, nofun⟩

/-- After `validate` has returned, every worker can still return, exactly when no error
can be received while another worker has an item. -/
theorem workers_released_iff (c : Crypto) (scriptItems : List ScriptItem) (totalValidatorWorkers : Nat) :
    (∀ s err, Reached (ScriptValidator.step c scriptItems) (start totalValidatorWorkers) s → s.dispatcher = .returned err →
      Released c scriptItems s) ↔
    totalValidatorWorkers ≤ 1 ∨ scriptItems.length ≤ 1 ∨ ∀ it ∈ scriptItems, it.validate c = none := by
  constructor
  · intro released
    by_contra wide
    simp only [not_or, not_le, not_forall] at wide
    obtain ⟨many, two, it, member, fails⟩ := wide
    obtain ⟨n, rfl⟩ := Nat.exists_eq_add_of_le' many
    obtain ⟨s, reached, stranded⟩ := stranded_reached n two member fails
    obtain ⟨⟨err, returned⟩, -⟩ := id stranded
    exact stranded.not_released (released s err reached returned)
  · intro narrow s err reached returned
    rcases Nat.eq_zero_or_pos totalValidatorWorkers with rfl | some_
    · intro w inside
      rw [workers_length reached] at inside
      cases inside
    · exact (idle_reached some_ narrow reached).released returned

/-- The first item fails while the other worker has the second one. -/
theorem second_worker_blocked :
    ∃ s err, Reached (ScriptValidator.step sampleCrypto [⟨sampleItem.tx, 0, [], []⟩, sampleItem]) (start 2) s ∧
      s.dispatcher = .returned err ∧ ¬Released sampleCrypto [⟨sampleItem.tx, 0, [], []⟩, sampleItem] s := by
  have run : runActions (ScriptValidator.step sampleCrypto [⟨sampleItem.tx, 0, [], []⟩, sampleItem])
      [.send 0, .send 1, .validate 0, .receive 0] (start 2) =
      some ⟨.returned (some .finalStackEmpty), [.stopped, .validating 1], [0]⟩ := by decide +kernel
  refine ⟨_, _, .of_run run, rfl, Stranded.not_released (w := 1) ?_⟩
  exact ⟨⟨_, rfl⟩, _, rfl, nofun, nofun⟩

end Release

theorem validateScriptItems_ok_iff :
    validateScriptItems c scriptItems = .ok () ↔ ∀ it ∈ scriptItems, it.validate c = none := by
  induction scriptItems with
  | nil => simp [validateScriptItems]
  | cons it rest next =>
    rw [forall_mem_cons, ← next, validateScriptItems, ScriptItem.validate]
    split <;> simp [*]

/-- The parallel check of a block refines the sequential one: it succeeds when that does, and
otherwise returns what that returns for the items in some order. -/
theorem validate_refines_sequential {err : Option ScriptError} (some_ : 0 < totalValidatorWorkers)
    (reached : Reached (step c scriptItems) (start totalValidatorWorkers) s) (returned : s.dispatcher = .returned err) :
    (err = none ↔ validateScriptItems c scriptItems = .ok ()) ∧
    ∀ e, err = some e → ∃ order, order.Perm scriptItems ∧ validateScriptItems c order = .error (.script e) := by
  have sound := sound_reached some_ reached
  rw [validateScriptItems_ok_iff]
  cases err with
  | none => exact ⟨iff_of_true rfl (sound.succeeded returned).2.1, nofun⟩
  | some err =>
    obtain ⟨it, member, fails⟩ := sound.failed err returned
    refine ⟨iff_of_false nofun fun passed => ?_, ?_⟩
    · cases (passed it member).symm.trans fails
    · rintro _ ⟨⟩
      obtain ⟨front, rest, rfl⟩ := append_of_mem member
      refine ⟨it :: (front ++ rest), perm_middle.symm, ?_⟩
      rw [ScriptItem.validate] at fails
      rw [validateScriptItems]
      split at fails <;> cases fails
      simp [*]

theorem overlapping_run : runActions (step sampleCrypto [sampleItem, sampleItem]) overlapping (start 2) =
    some overlappingEnd := by decide +kernel

theorem overlapping_sequential : validateScriptItems sampleCrypto [sampleItem, sampleItem] = .ok () :=
  (validate_refines_sequential (by decide) (.of_run overlapping_run) rfl).1.mp rfl

/-- How many steps a worker can take with the item it has, one to stop included. -/
def load : Worker → Nat
  | .waiting => 1
  | .validating _ => 3
  | .reporting _ _ => 2
  | .stopped => 0

/-- How many steps are left at most: an item that is sent costs three, and the return one. -/
def rank (scriptItems : List ScriptItem) (s : ScriptValidator) : Nat :=
  (s.workers.map load).sum + match s.dispatcher with
    | .running nextItemIdx _ => 3 * (scriptItems.length - nextItemIdx) + 1
    | .returned _ => 0

theorem load_step {workers after others : List Worker} {worker next : Worker} (from_ : workers.Perm (worker :: others))
    (to_ : after.Perm (next :: others)) : (after.map load).sum + load worker = (workers.map load).sum + load next := by
  rw [(from_.map load).sum_eq, (to_.map load).sum_eq, map_cons, map_cons, sum_cons, sum_cons]
  omega

theorem Stepped.rank_lt {before after : ScriptValidator} (stepped : Stepped c scriptItems before after) :
    rank scriptItems after < rank scriptItems before := by
  cases stepped with
  | finish all => exact Nat.add_lt_add_left (Nat.succ_pos _) _
  | send _ from_ to_ | validate _ from_ to_ | received from_ to_ | failed from_ to_ | quit from_ to_ =>
    have moved := load_step from_ to_
    simp only [rank, load] at *
    omega

/-- Every schedule ends, without any fairness, and `validate` has returned by then. -/
theorem schedule_ends {actions : List Action} (some_ : 0 < totalValidatorWorkers)
    (run : runActions (step c scriptItems) actions (start totalValidatorWorkers) = some s) :
    actions.length ≤ 3 * scriptItems.length + totalValidatorWorkers + 1 ∧
      (¬Enabled (step c scriptItems) s → ∃ err, s.dispatcher = .returned err) := by
  constructor
  · have bound := runActions_length_le (fun _ _ _ stepped => (step_stepped stepped).rank_lt) run
    have initial : rank scriptItems (start totalValidatorWorkers) = totalValidatorWorkers + (3 * scriptItems.length + 1) := by
      simp [rank, start, load]
    omega
  · intro stuck
    by_contra running
    exact stuck ((sound_reached some_ (.of_run run)).enabled (not_exists.mp running))

theorem overlapping_ends : overlapping.length ≤ 9 := (schedule_ends (by decide) overlapping_run).1

end ScriptValidator
end Boxd
