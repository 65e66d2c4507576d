import Mathlib.Data.UInt
import Mathlib.Tactic.Common

/-! The heights of a block locator: the last few, then with steps that double, then the
genesis block. The loops are written for any numbers, so that those of 32 bits can be
compared with the integers. -/

namespace Boxd.Locator

def locatorSeqPartLen : Nat := 6

section
variable {α : Type} [Add α] [Sub α] [Mul α] [LT α] [DecidableLT α] [DecidableEq α] [OfNat α 0] [OfNat α 1] [OfNat α 2]

/-- The skip portion, from the last height that is listed. There is no result when the
fuel runs out. -/
def skipPortion : (fuel : Nat) → (h step : α) → Option (List α)
  | 0, _, _ => none
  | fuel + 1, h, step =>
    if step + 1 < h then (skipPortion fuel (h - (step + 1)) (step * 2)).map ((h - (step + 1)) :: ·)
    else some (if 0 < h then [0] else [])

/-- The sequential portion, with the turns that are left. -/
def sequentialPortion (height : α) : (left : Nat) → (h i : α) → Option (List α)
  | 0, h, _ => skipPortion 32 h 1
  | left + 1, _, i =>
    if height - i = 0 then some [height - i]
    else (sequentialPortion height left (height - i) (i + 1)).map ((height - i) :: ·)

def heightLocator (height : α) : Option (List α) := sequentialPortion height locatorSeqPartLen 0 0

end

/-- Heights that go down to the genesis block. Each gap is at most twice the one before. -/
inductive Descends : (h gap : Nat) → List UInt32 → Prop where
  | genesis (gap : Nat) : Descends 0 gap []
  | lower {h gap : Nat} {next : UInt32} {rest : List UInt32} (less : next.toNat < h) (near : h - next.toNat ≤ 2 * gap)
      (later : Descends next.toNat (h - next.toNat) rest) : Descends h gap (next :: rest)

abbrev exact (heights : List UInt32) : List Int := heights.map fun h => h.toNat

variable {h step height i : UInt32}

theorem toNat_succ (room : i.toNat + 1 < 2 ^ 32) : (i + 1).toNat = i.toNat + 1 := by
  rw [UInt32.toNat_add, UInt32.toNat_one, Nat.mod_eq_of_lt room]

/-- Height and step together fit, and lose one with every turn, so neither wraps. The step is
doubled with every turn, so the fuel is enough. -/
theorem skipPortion_descends {fuel gap : Nat} (positive : 0 < h) (fits : h.toNat + step.toNat < 2 ^ 32)
    (enough : 2 ^ 32 ≤ step.toNat * 2 ^ fuel) (near : step.toNat + 1 ≤ 2 * gap) :
    ∃ rest, skipPortion fuel h step = some rest ∧ Descends h.toNat gap rest ∧
      skipPortion fuel (h.toNat : Int) step.toNat = some (exact rest) := by
  have above_zero : 0 < h.toNat := positive
  induction fuel generalizing h step gap with
  | zero => omega
  | succ fuel ih =>
    have further := toNat_succ (i := step) (by omega)
    unfold skipPortion
    by_cases above : step + 1 < h
    · have less := UInt32.lt_iff_toNat_lt.mp above
      have lower := UInt32.toNat_sub_of_le _ _ (UInt32.le_of_lt above)
      have doubled : (step * 2).toNat = step.toNat * 2 := (UInt32.toNat_mul ..).trans (Nat.mod_eq_of_lt (by change _ * 2 < _; omega))
      have lowered : (h.toNat : Int) - (step.toNat + 1) = ((h - (step + 1)).toNat : Int) := by omega
      have smaller : 0 < (h - (step + 1)).toNat := by omega
      have turns : 2 ^ 32 ≤ (step * 2).toNat * 2 ^ fuel := by rwa [doubled, Nat.mul_assoc, ← Nat.pow_succ']
      have gaps : (step * 2).toNat + 1 ≤ 2 * (step.toNat + 1) := by omega
      obtain ⟨rest, listed, descends, same⟩ := ih (h := h - (step + 1)) smaller (by omega) turns gaps smaller
      rw [if_pos above, if_pos (by omega), listed, lowered, show (step.toNat : Int) * 2 = (step * 2).toNat by omega, same]
      refine ⟨_, rfl, .lower (by omega) (by omega) ?_, rfl⟩
      rwa [show h.toNat - (h - (step + 1)).toNat = step.toNat + 1 by omega]
    · rw [if_neg above, if_pos positive]
      rw [UInt32.lt_iff_toNat_lt] at above
      rw [if_neg (by omega), if_pos (by omega)]
      exact ⟨_, rfl, .lower above_zero (by rw [UInt32.toNat_zero]; omega) (.genesis _), rfl⟩

theorem sequentialPortion_descends {left : Nat} (turns : i.toNat + left = locatorSeqPartLen) (below : i.toNat ≤ height.toNat)
    (last : left = 0 → 0 < h ∧ h.toNat + i.toNat = height.toNat + 1) (previous : Int) (same : left = 0 → previous = h.toNat) :
    ∃ heights, sequentialPortion height left h i = some heights ∧ Descends (height.toNat + 1 - i.toNat) 1 heights ∧
      (∀ j < left, i.toNat + j ≤ height.toNat → heights[j]? = some (height - .ofNat (i.toNat + j))) ∧
      sequentialPortion (height.toNat : Int) left previous i.toNat = some (exact heights) := by
  have bound := height.toNat_lt
  induction left generalizing h i previous with
  | zero =>
    obtain ⟨positive, before⟩ := last rfl
    obtain ⟨rest, listed, descends, again⟩ : ∃ rest, skipPortion 32 h 1 = some rest ∧ Descends h.toNat 1 rest ∧
        skipPortion 32 (h.toNat : Int) 1 = some (exact rest) :=
      skipPortion_descends positive (by rw [UInt32.toNat_one]; unfold locatorSeqPartLen at turns; omega) (by decide) (by decide)
    rw [same rfl, show height.toNat + 1 - i.toNat = h.toNat by omega]
    exact ⟨rest, listed, descends, nofun, again⟩
  | succ left ih =>
    have lower := UInt32.toNat_sub_of_le height i (UInt32.le_iff_toNat_le.mpr below)
    have first : height - .ofNat (i.toNat + 0) = height - i := by rw [Nat.add_zero, UInt32.ofNat_toNat]
    unfold sequentialPortion
    rw [show (height.toNat : Int) - i.toNat = ((height - i).toNat : Int) by omega]
    by_cases ground : height - i = 0
    · have zero : (height - i).toNat = 0 := congrArg UInt32.toNat ground
      rw [if_pos ground, if_pos (by omega)]
      refine ⟨_, rfl, .lower (by omega) (by omega) (zero ▸ .genesis _), fun j _ within => ?_, rfl⟩
      obtain rfl : j = 0 := by omega
      rw [first]
      rfl
    · have above : 0 < (height - i).toNat := Nat.pos_of_ne_zero fun zero => ground (UInt32.toNat_inj.mp zero)
      have counted := toNat_succ (i := i) (by omega)
      obtain ⟨rest, listed, descends, gapless, again⟩ := ih (h := height - i) (i := i + 1) (by omega) (by omega)
        (fun _ => ⟨above, by omega⟩) _ fun _ => rfl
      rw [if_neg ground, if_neg (by omega), listed, show (i.toNat : Int) + 1 = ((i + 1).toNat : Int) by omega, again]
      refine ⟨_, rfl, .lower (by omega) (by omega) ?_, fun j inside within => ?_, rfl⟩
      · rwa [show height.toNat + 1 - i.toNat - (height - i).toNat = 1 by omega,
          show (height - i).toNat = height.toNat + 1 - (i + 1).toNat by omega]
      · cases j with
        | zero =>
          rw [first]
          rfl
        | succ j =>
          have later := gapless j (by omega) (by omega)
          rwa [counted, Nat.add_right_comm, Nat.add_assoc] at later

/-- The locator starts at the tail, goes down one by one in its sequential part, then with
gaps that at most double, and ends at the genesis block. Nothing wraps around: it is the
one that is computed over the integers. -/
theorem heightLocator_spec (height : UInt32) :
    ∃ heights, heightLocator height = some heights ∧ Descends (height.toNat + 1) 1 heights ∧
      (∀ i < locatorSeqPartLen, i ≤ height.toNat → heights[i]? = some (height - .ofNat i)) ∧
      heightLocator (height.toNat : Int) = some (exact heights) := by
  have turns : (0 : UInt32).toNat + locatorSeqPartLen = locatorSeqPartLen := rfl
  simpa [heightLocator] using
    sequentialPortion_descends (h := 0) turns (Nat.zero_le height.toNat) (by rintro ⟨⟩) 0 (by rintro ⟨⟩)

end Boxd.Locator
