import Boxd.Lib.Bytes
import Mathlib.Data.Nat.Bitwise
import Mathlib.Data.UInt

/-! Byte strings as sets of numbers. Number `i` is in byte `i / 8`, and the highest bit of
a byte stands for the first of its numbers. -/

namespace Boxd.Lib.BitSet

def bitMask (shift : Nat) : UInt8 := 1 <<< UInt8.ofNat shift

def bitOf (byte : UInt8) (shift : Nat) : Bool := byte &&& bitMask shift != 0

def has (data : Bytes) (i : Nat) : Bool := data[i / 8]?.any fun byte => bitOf byte (7 - i % 8)

def add (data : Bytes) (i : Nat) : Bytes := data.modify (i / 8) (· ||| bitMask (7 - i % 8))

def inter (left right : Bytes) : Bytes := List.zipWith (· &&& ·) left right

def union (left right : Bytes) : Bytes := List.zipWith (· ||| ·) left right

/-- The numbers of a set, in their order. -/
def indexes (data : Bytes) : List Nat := (List.range (data.length * 8)).filter (has data)

theorem bitOf_eq_testBit (byte : UInt8) {shift : Nat} (small : shift < 8) : bitOf byte shift = byte.toNat.testBit shift := by
  have mask : (bitMask shift).toNat = 2 ^ shift := by
    have each : ∀ shift < 8, (bitMask shift).toNat = 2 ^ shift := by decide
    exact each shift small
  have value : (byte &&& bitMask shift).toNat = (byte.toNat.testBit shift).toNat * 2 ^ shift := by
    rw [UInt8.toNat_and, mask, Nat.and_two_pow]
  unfold bitOf
  cases set : byte.toNat.testBit shift with
  | false =>
    have zero : byte &&& bitMask shift = 0 := by
      apply UInt8.toNat_inj.mp
      rw [value, set]
      simp
    simp [zero]
  | true =>
    have nonzero : byte &&& bitMask shift ≠ 0 := by
      intro zero
      rw [zero, set, Bool.toNat_true, Nat.one_mul] at value
      exact absurd value.symm (Nat.two_pow_pos shift).ne'
    simp [nonzero]

theorem bitOf_and (left right : UInt8) {shift : Nat} (small : shift < 8) :
    bitOf (left &&& right) shift = (bitOf left shift && bitOf right shift) := by
  simp [bitOf_eq_testBit _ small, Nat.testBit_and]

theorem bitOf_or (left right : UInt8) {shift : Nat} (small : shift < 8) :
    bitOf (left ||| right) shift = (bitOf left shift || bitOf right shift) := by
  simp [bitOf_eq_testBit _ small, Nat.testBit_or]

theorem bitOf_mask {shift other : Nat} (small : shift < 8) (below : other < 8) :
    bitOf (bitMask shift) other = decide (other = shift) := by
  have each : ∀ shift < 8, ∀ other < 8, bitOf (bitMask shift) other = decide (other = shift) := by decide
  exact each shift small other below

theorem shift_lt (i : Nat) : 7 - i % 8 < 8 := by omega

@[simp] theorem length_add (data : Bytes) (i : Nat) : (add data i).length = data.length := by simp [add]

theorem has_add {data : Bytes} {i : Nat} (inside : i / 8 < data.length) (j : Nat) :
    has (add data i) j = (has data j || decide (j = i)) := by
  unfold has add
  rw [List.getElem?_modify]
  by_cases same : i / 8 = j / 8
  · rw [← same, List.getElem?_eq_getElem inside]
    simp only [Option.map_eq_map, Option.map_some, Option.any_some, if_true]
    rw [bitOf_or _ _ (shift_lt j), bitOf_mask (shift_lt i) (shift_lt j)]
    congr 1
    rw [decide_eq_decide]
    omega
  · have differ : j ≠ i := by
      rintro rfl
      exact same rfl
    simp [same, differ]

theorem has_inter (left right : Bytes) (j : Nat) : has (inter left right) j = (has left j && has right j) := by
  unfold has inter
  rw [List.getElem?_zipWith]
  cases left[j / 8]? with
  | none => simp
  | some byte =>
    cases right[j / 8]? with
    | none => simp
    | some other => simp [bitOf_and _ _ (shift_lt j)]

theorem has_union {left right : Bytes} (same : left.length = right.length) (j : Nat) :
    has (union left right) j = (has left j || has right j) := by
  unfold has union
  rw [List.getElem?_zipWith]
  rcases Nat.lt_or_ge (j / 8) left.length with inside | outside
  · rw [List.getElem?_eq_getElem inside, List.getElem?_eq_getElem (same ▸ inside)]
    simp [bitOf_or _ _ (shift_lt j)]
  · rw [List.getElem?_eq_none outside, List.getElem?_eq_none (same ▸ outside)]
    simp

@[simp] theorem has_replicate_zero (n j : Nat) : has (List.replicate n 0) j = false := by
  unfold has
  rw [List.getElem?_replicate]
  split
  · rw [Option.any_some, bitOf_eq_testBit _ (shift_lt j)]
    simp
  · rfl

theorem has_lt {data : Bytes} {i : Nat} (held : has data i = true) : i < data.length * 8 := by
  unfold has at held
  cases read : data[i / 8]? with
  | none =>
    rw [read] at held
    cases held
  | some byte =>
    obtain ⟨inside, -⟩ := List.getElem?_eq_some_iff.mp read
    omega

theorem mem_indexes {data : Bytes} {i : Nat} : i ∈ indexes data ↔ has data i = true := by
  unfold indexes
  rw [List.mem_filter, List.mem_range]
  exact ⟨And.right, fun held => ⟨has_lt held, held⟩⟩

end Boxd.Lib.BitSet
