import Mathlib.Data.Nat.Digits.Lemmas

/-! Numbers as byte strings: the minimal big-endian form without a sign, and the
little-endian form of a fixed width. -/

namespace Boxd.Lib

abbrev Bytes := List UInt8

/-- The number a big-endian byte string stands for; leading zeros do not count. -/
def natBE (bytes : Bytes) : Nat := Nat.ofDigits 256 (bytes.reverse.map UInt8.toNat)

/-- The shortest big-endian byte string of a number; zero is the empty string. -/
def bytesBE (n : Nat) : Bytes := ((Nat.digits 256 n).map UInt8.ofNat).reverse

def natLE (bytes : Bytes) : Nat := Nat.ofDigits 256 (bytes.map UInt8.toNat)

def bytesLE : Nat → Nat → Bytes
  | 0, _ => []
  | width + 1, n => UInt8.ofNat n :: bytesLE width (n / 256)

@[simp] theorem bytesLE_length (width n : Nat) : (bytesLE width n).length = width := by
  induction width generalizing n with
  | zero => rfl
  | succ width ih => simp [bytesLE, ih]

@[simp] theorem natLE_cons (byte : UInt8) (bytes : Bytes) :
    natLE (byte :: bytes) = byte.toNat + 256 * natLE bytes := by
  simp [natLE, Nat.ofDigits_cons]

theorem natLE_lt (bytes : Bytes) : natLE bytes < 256 ^ bytes.length := by
  have bound := Nat.ofDigits_lt_base_pow_length (b := 256) (l := bytes.map UInt8.toNat) (by decide)
    (by simpa using fun (byte : UInt8) _ => byte.toNat_lt)
  simpa [natLE] using bound

theorem natLE_bytesLE (width n : Nat) : natLE (bytesLE width n) = n % 256 ^ width := by
  induction width generalizing n with
  | zero => simp [bytesLE, natLE, Nat.mod_one]
  | succ width ih =>
    have byte : (UInt8.ofNat n).toNat = n % 256 := by simp
    rw [bytesLE, natLE_cons, ih, byte, pow_succ', Nat.mod_mul]

private theorem digits_map_toNat (n : Nat) :
    ((Nat.digits 256 n).map UInt8.ofNat).map UInt8.toNat = Nat.digits 256 n := by
  rw [List.map_map]
  conv_rhs => rw [← List.map_id (Nat.digits 256 n)]
  apply List.map_congr_left
  intro digit member
  have small : digit < 256 := Nat.digits_lt_base (by norm_num) member
  simp [Nat.mod_eq_of_lt small]

theorem natBE_bytesBE (n : Nat) : natBE (bytesBE n) = n := by
  simp only [natBE, bytesBE, List.reverse_reverse, digits_map_toNat]
  exact Nat.ofDigits_digits 256 n

theorem bytesBE_length_le {n width : Nat} (small : n < 256 ^ width) : (bytesBE n).length ≤ width := by
  simp only [bytesBE, List.length_reverse, List.length_map]
  rcases Nat.eq_zero_or_pos n with rfl | positive
  · simp
  · exact (Nat.digits_length_le_iff (by norm_num) n).mpr small

private theorem ofDigits_ne_zero {digits : List Nat} {digit : Nat} (member : digit ∈ digits)
    (nonzero : digit ≠ 0) : Nat.ofDigits 256 digits ≠ 0 := by
  induction digits with
  | nil => cases member
  | cons first rest ih =>
    rw [Nat.ofDigits_cons]
    rcases List.mem_cons.mp member with rfl | later
    · simp [nonzero]
    · have := ih later
      simp
      omega

theorem natBE_ne_zero {bytes : Bytes} {byte : UInt8} (member : byte ∈ bytes) (nonzero : byte ≠ 0) :
    natBE bytes ≠ 0 := by
  refine ofDigits_ne_zero (List.mem_map.mpr ⟨byte, List.mem_reverse.mpr member, rfl⟩) ?_
  exact fun zero => nonzero (UInt8.toNat_inj.mp zero)

end Boxd.Lib
