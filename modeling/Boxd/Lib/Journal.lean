import Mathlib.Data.List.Basic
import Mathlib.Order.Basic

/-! Undo journals with savepoints. Changes are journalled with entries that undo them, and
a rollback undoes the entries beyond a savepoint. It may fail where the code would panic. -/

namespace Boxd.Lib
open List Option

/-- A state seen through what its entries restore. The newest entry comes first. -/
structure Journaled (ε β : Type*) where
  view : β
  entries : List ε
  marks : List (Nat × Nat)
  next : Nat

namespace Journaled

variable {ε β : Type*} (undo : ε → β → Option β)

def rewind (entries : List ε) (view : β) : Option β := entries.foldlM (fun view entry => undo entry view) view

@[simp] theorem rewind_cons (entry : ε) (entries : List ε) (view : β) :
    rewind undo (entry :: entries) view = (undo entry view).bind (rewind undo entries) := by
  rw [rewind, foldlM_cons]
  rfl

theorem rewind_append (newer older : List ε) (view : β) :
    rewind undo (newer ++ older) view = (rewind undo newer view).bind (rewind undo older) := by
  rw [rewind, foldlM_append]
  rfl

def mark (state : Journaled ε β) : Journaled ε β :=
  { state with marks := state.marks ++ [(state.next, state.entries.length)], next := state.next + 1 }

/-- The entries beyond a savepoint are undone, and it is dropped with the later ones. -/
def rollback (id : Nat) (state : Journaled ε β) : Option (Journaled ε β) :=
  let index := state.marks.findIdx fun mark => id ≤ mark.1
  match state.marks[index]? with
  | none => none
  | some (found, length) =>
    if found = id then
      let newer := state.entries.length - length
      (rewind undo (state.entries.take newer) state.view).map fun view =>
        ⟨view, state.entries.drop newer, state.marks.take index, state.next⟩
    else none

/-- Changes are journalled, savepoints are made, and there are rollbacks to savepoints that
were made after the given one. -/
inductive Run (id : Nat) : Journaled ε β → Journaled ε β → Prop
  | refl (state : Journaled ε β) : Run id state state
  | record {start state : Journaled ε β} (run : Run id start state) (added : List ε) (view : β)
    (undone : rewind undo added view = some state.view) :
    Run id start { state with view, entries := added ++ state.entries }
  | mark {start state : Journaled ε β} (run : Run id start state) : Run id start state.mark
  | rollback {start state final : Journaled ε β} (run : Run id start state) {other : Nat} (later : id < other)
    (done : rollback undo other state = some final) : Run id start final

/-- A state that comes after a savepoint: what was journalled since leads back to it, and all
later savepoints are above it. -/
structure Since (start state : Journaled ε β) : Prop where
  entries : ∃ added, state.entries = added ++ start.entries ∧ rewind undo added state.view = some start.view
  marks : ∃ newer, state.marks = start.marks ++ (start.next, start.entries.length) :: newer ∧
    ∀ mark ∈ newer, start.next < mark.1 ∧ start.entries.length ≤ mark.2
  next : start.next < state.next

variable {undo}

theorem Since.mark_self (start : Journaled ε β) : Since undo start start.mark where
  entries := ⟨[], rfl, rfl⟩
  marks := ⟨[], rfl, by simp⟩
  next := Nat.lt_succ_self _

theorem Since.record {start state : Journaled ε β} (since : Since undo start state) {added : List ε} {view : β}
    (undone : rewind undo added view = some state.view) :
    Since undo start { state with view, entries := added ++ state.entries } where
  entries := by
    obtain ⟨earlier, same, back⟩ := since.entries
    refine ⟨added ++ earlier, by rw [same, append_assoc], ?_⟩
    rw [rewind_append, undone, bind_some, back]
  marks := since.marks
  next := since.next

theorem Since.mark {start state : Journaled ε β} (since : Since undo start state) : Since undo start state.mark where
  entries := since.entries
  marks := by
    obtain ⟨newer, same, above⟩ := since.marks
    refine ⟨newer ++ [(state.next, state.entries.length)], ?_, ?_⟩
    · simp [Journaled.mark, same]
    · intro mark member
      rcases mem_append.mp member with earlier | last
      · exact above mark earlier
      · obtain ⟨added, grown, -⟩ := since.entries
        obtain rfl := mem_singleton.mp last
        refine ⟨since.next, ?_⟩
        simp [grown]
  next := Nat.lt_succ_of_lt since.next

private theorem findIdx_skip {marks : List (Nat × Nat)} {id : Nat} (below : ∀ mark ∈ marks, mark.1 < id)
    (rest : List (Nat × Nat)) :
    (marks ++ rest).findIdx (fun mark => id ≤ mark.1) = rest.findIdx (fun mark => id ≤ mark.1) + marks.length := by
  rw [findIdx_append, if_neg]
  have none : marks.findIdx (fun mark => id ≤ mark.1) = marks.length := by
    rw [findIdx_eq_length]
    intro mark member
    simpa using below mark member
  omega

section
variable {start state : Journaled ε β} (fresh : ∀ mark ∈ start.marks, mark.1 < start.next)
include fresh

theorem Since.rollback {final : Journaled ε β} (since : Since undo start state) {other : Nat} (later : start.next < other)
    (done : rollback undo other state = some final) : Since undo start final := by
  obtain ⟨added, grown, back⟩ := since.entries
  obtain ⟨newer, marks, above⟩ := since.marks
  -- The savepoint that is found is one of the newer ones.
  have below : ∀ mark ∈ start.marks ++ [(start.next, start.entries.length)], mark.1 < other := by
    intro mark member
    rcases mem_append.mp member with earlier | last
    · exact Nat.lt_trans (fresh mark earlier) later
    · obtain rfl := mem_singleton.mp last
      exact later
  have listed : state.marks = start.marks ++ [(start.next, start.entries.length)] ++ newer := by simp [marks]
  unfold Journaled.rollback at done
  dsimp only at done
  rw [listed, findIdx_skip below, getElem?_append_right (Nat.le_add_left _ _), Nat.add_sub_cancel] at done
  generalize newer.findIdx (fun mark => other ≤ mark.1) = index at done
  split at done
  · cases done
  · next found length at_ =>
    split at done
    · obtain ⟨view, rewound, rfl⟩ := map_eq_some_iff.mp done
      obtain ⟨-, high⟩ := above _ (mem_of_getElem? at_)
      dsimp only at high
      refine ⟨?_, ⟨newer.take index, ?_, fun mark member => above mark (mem_of_mem_take member)⟩, since.next⟩
      · have count : state.entries.length - length ≤ added.length := by
          rw [grown, length_append]
          omega
        rw [grown, take_append_of_le_length (grown ▸ count)] at rewound
        refine ⟨added.drop (state.entries.length - length), ?_, ?_⟩
        · rw [grown, drop_append_of_le_length (grown ▸ count)]
        · rw [← take_append_drop (state.entries.length - length) added, rewind_append, grown, rewound] at back
          rw [grown]
          exact back
      · rw [take_append, take_of_length_le (Nat.le_add_left _ _), Nat.add_sub_cancel]
        simp
    · cases done

theorem Since.of_run (run : Run undo start.next start.mark state) : Since undo start state := by
  generalize marked : start.mark = first at run
  induction run with
  | refl => exact marked ▸ Since.mark_self start
  | record run added view undone since => exact since.record undone
  | mark run since => exact since.mark
  | rollback run later done since => exact since.rollback fresh later done

/-- After a run from a savepoint the rollback to it restores the state, and drops the savepoint
and those that were made later. -/
theorem rollback_of_run (run : Run undo start.next start.mark state) :
    rollback undo start.next state = some { start with next := state.next } := by
  have since := Since.of_run fresh run
  obtain ⟨added, grown, back⟩ := since.entries
  obtain ⟨newer, marks, -⟩ := since.marks
  have first : ((start.next, start.entries.length) :: newer).findIdx (fun mark => start.next ≤ mark.1) = 0 := by
    simp [findIdx_cons]
  have count : state.entries.length - start.entries.length = added.length := by
    rw [grown, length_append, Nat.add_sub_cancel]
  unfold rollback
  dsimp only
  rw [marks, findIdx_skip fresh, first, Nat.zero_add, getElem?_append_right (Nat.le_refl _), Nat.sub_self]
  simp only [getElem?_cons_zero, if_true, count]
  rw [grown]
  simp only [take_left, drop_left, back, map_some]

end

section Always

/-- A property of journals that holds now, and held at every savepoint that is left. -/
structure Always (holds : List ε → Prop) (state : Journaled ε β) : Prop where
  now : holds state.entries
  marks : ∀ mark ∈ state.marks, mark.2 ≤ state.entries.length ∧
    holds (state.entries.drop (state.entries.length - mark.2))
  sorted : state.marks.Pairwise fun earlier later => earlier.2 ≤ later.2

variable {holds : List ε → Prop} {state final : Journaled ε β}

theorem Always.record (always : Always holds state) (added : List ε) (view : β) (now : holds (added ++ state.entries)) :
    Always holds { state with view, entries := added ++ state.entries } where
  now := now
  marks := by
    intro mark member
    obtain ⟨within, held⟩ := always.marks mark member
    refine ⟨?_, ?_⟩
    · rw [length_append]
      omega
    · have count : (added ++ state.entries).length - mark.2 = added.length + (state.entries.length - mark.2) := by
        rw [length_append]
        omega
      rw [count, ← drop_drop, drop_left]
      exact held
  sorted := always.sorted

theorem Always.mark (always : Always holds state) : Always holds state.mark where
  now := always.now
  marks := by
    intro mark member
    rcases mem_append.mp member with old | new
    · exact always.marks mark old
    · obtain rfl := mem_singleton.mp new
      refine ⟨Nat.le_refl _, ?_⟩
      simpa [Journaled.mark] using always.now
  sorted := by
    refine pairwise_append.mpr ⟨always.sorted, pairwise_singleton _ _, ?_⟩
    intro earlier member later last
    obtain rfl := mem_singleton.mp last
    exact (always.marks earlier member).1

theorem rollback_eq_some {id : Nat} (done : rollback undo id state = some final) :
    ∃ index length view, state.marks[index]? = some (id, length) ∧
      rewind undo (state.entries.take (state.entries.length - length)) state.view = some view ∧
      final = ⟨view, state.entries.drop (state.entries.length - length), state.marks.take index, state.next⟩ := by
  unfold rollback at done
  dsimp only at done
  generalize state.marks.findIdx (fun mark => id ≤ mark.1) = index at done
  split at done
  · cases done
  · next found length at_ =>
    split at done
    · next same =>
      subst same
      obtain ⟨view, rewound, same⟩ := map_eq_some_iff.mp done
      exact ⟨index, length, view, at_, rewound, same.symm⟩
    · cases done

theorem Always.rollback (always : Always holds state) {id : Nat} (done : rollback undo id state = some final) :
    Always holds final := by
  obtain ⟨index, length, view, at_, -, rfl⟩ := rollback_eq_some done
  obtain ⟨within, held⟩ := always.marks _ (mem_of_getElem? at_)
  dsimp only at within held
  refine ⟨held, ?_, always.sorted.sublist (take_sublist _ _)⟩
  intro mark member
  -- The savepoints that are left were made before.
  obtain ⟨earlier, position, same⟩ := mem_take_iff_getElem.mp member
  obtain ⟨bound, found⟩ := List.getElem?_eq_some_iff.mp at_
  have below : mark.2 ≤ length := by
    have ordered := pairwise_iff_getElem.mp always.sorted earlier index (by omega) bound (by omega)
    rw [same, found] at ordered
    exact ordered
  have size : (state.entries.drop (state.entries.length - length)).length = length := by
    rw [length_drop]
    omega
  refine ⟨by rw [size]; exact below, ?_⟩
  have count : state.entries.length - length + (length - mark.2) = state.entries.length - mark.2 := by omega
  dsimp only
  rw [size, drop_drop, count]
  exact (always.marks mark (mem_of_mem_take member)).2

/-- A rollback leaves entries that lead back to where the whole journal led. -/
theorem rewind_rollback {id : Nat} (done : rollback undo id state = some final) {origin : β}
    (back : rewind undo state.entries state.view = some origin) : rewind undo final.entries final.view = some origin := by
  obtain ⟨index, length, view, -, rewound, rfl⟩ := rollback_eq_some done
  rw [← take_append_drop (state.entries.length - length) state.entries, rewind_append, rewound] at back
  exact back

end Always

end Journaled

end Boxd.Lib
