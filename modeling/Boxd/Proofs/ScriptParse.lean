import Boxd.Script.Exec

/-! What one read of `parseNextOp` means in terms of the bytes it consumes, and how
the boundaries between operations of a script relate to those of a longer one. -/

namespace Boxd.Script
open Lib List Relation Nat

/-- How many size bytes follow the opcode of a push. -/
def headerLength (opCode : OpCode) : Nat :=
  if opCode < opPushData1 then 0 else if opCode = opPushData1 then 1 else if opCode = opPushData2 then 2 else 4

/-- The operand size that the opcode and its size bytes announce. -/
def headerValue (opCode : OpCode) (header : Bytes) : Nat :=
  if opCode < opPushData1 then opCode.toNat else natLE (header.take 2)

/-- The byte strings that are read as one operation. -/
inductive Encodes : OpCode → Option Operand → Bytes → Prop where
  | plain {opCode : OpCode} (large : opPushData4 < opCode) : Encodes opCode none [opCode]
  | push {opCode : OpCode} (header data : Bytes) (small : opCode ≤ opPushData4)
      (size : header.length = headerLength opCode) (announced : data.length = headerValue opCode header) :
      Encodes opCode (some data) (opCode :: (header ++ data))

variable {opCode : OpCode} {operand : Option Operand} {code : Bytes}

theorem Encodes.length_pos (encodes : Encodes opCode operand code) : 0 < code.length := by
  cases encodes <;> simp

theorem headerValue_le (opCode : OpCode) (header : Bytes) : headerValue opCode header ≤ 0xffff := by
  unfold headerValue
  split_ifs
  · have small := opCode.toNat_lt
    omega
  · have value := natLE_lt (header.take 2)
    have bound : 256 ^ (header.take 2).length ≤ 256 ^ 2 :=
      Nat.pow_le_pow_right (by decide) (by rw [length_take]; omega)
    omega

variable {script : Script} {pc : Nat}

private theorem operandSize_ok_iff {size start : Nat} : operandSize script opCode pc = .ok (size, start) ↔
      ∃ header rest, script.drop pc = header ++ rest ∧ header.length = headerLength opCode ∧
        size = headerValue opCode header ∧ start = pc + header.length := by
  unfold operandSize headerLength headerValue
  split_ifs with direct one two
  · constructor
    · intro same
      cases same
      exact ⟨[], script.drop pc, rfl, rfl, rfl, rfl⟩
    · rintro ⟨header, rest, -, size, rfl, rfl⟩
      rw [size, add_zero]
  · generalize script.drop pc = code
    constructor
    · intro same
      rcases code with _ | ⟨first, rest⟩
      · cases same
      · cases same
        exact ⟨[first], rest, rfl, rfl, by simp [natLE], rfl⟩
    · rintro ⟨header, rest, rfl, size, rfl, rfl⟩
      obtain ⟨first, rfl⟩ := length_eq_one_iff.mp size
      simp [natLE]
  · generalize script.drop pc = code
    constructor
    · intro same
      rcases code with _ | ⟨low, _ | ⟨high, rest⟩⟩
      · cases same
      · cases same
      · cases same
        exact ⟨[low, high], rest, rfl, rfl, rfl, rfl⟩
    · rintro ⟨header, rest, rfl, size, rfl, rfl⟩
      obtain ⟨low, high, rfl⟩ := length_eq_two.mp size
      rfl
  · generalize script.drop pc = code
    constructor
    · intro same
      rcases code with _ | ⟨low, _ | ⟨high, _ | ⟨third, _ | ⟨fourth, rest⟩⟩⟩⟩
      · cases same
      · cases same
      · cases same
      · cases same
      · cases same
        exact ⟨[low, high, third, fourth], rest, rfl, rfl, rfl, rfl⟩
    · rintro ⟨header, rest, rfl, size, rfl, rfl⟩
      obtain ⟨low, high, third, fourth, rfl⟩ := length_eq_four.mp size
      rfl

theorem drop_after {rest : Bytes} (here : script.drop pc = code ++ rest) : script.drop (pc + code.length) = rest := by
  rw [← drop_drop, here, drop_left]

theorem length_after {rest : Bytes}
    (here : script.drop pc = code ++ rest) : script.length - pc = code.length + rest.length := by
  rw [← length_drop, here, length_append]

variable {next : Nat}

/-- A read succeeds exactly when the script continues with the bytes of one
operation; nothing else of the script matters. -/
theorem parseNextOp_ok_iff : parseNextOp script pc = ⟨opCode, operand, next, none⟩ ↔
      ∃ code rest, Encodes opCode operand code ∧ script.drop pc = code ++ rest ∧ next = pc + code.length := by
  constructor
  · intro parsed
    unfold parseNextOp at parsed
    split at parsed
    · cases parsed
    next first tail here =>
      split_ifs at parsed with large
      · obtain ⟨rfl, rfl, rfl, -⟩ := Parsed.mk.injEq .. ▸ parsed
        exact ⟨[first], tail, .plain large, here, rfl⟩
      · split at parsed
        · cases parsed
        next size start sized =>
          obtain ⟨header, rest, follows, length, rfl, rfl⟩ := operandSize_ok_iff.mp sized
          split_ifs at parsed with short
          · cases parsed
          rw [drop_after follows] at parsed
          obtain ⟨rfl, rfl, rfl, -⟩ := Parsed.mk.injEq .. ▸ parsed
          have total := length_after follows
          have tail_eq : tail = header ++ rest := by
            rw [← follows, ← drop_after (show script.drop pc = [first] ++ tail from here)]
            rfl
          have room : headerValue first header ≤ rest.length := by omega
          refine ⟨first :: (header ++ rest.take (headerValue first header)), rest.drop (headerValue first header),
            .push header _ (UInt8.not_lt.mp large) length (by rw [length_take]; omega), ?_, ?_⟩
          · rw [here, tail_eq]
            simp
          · simp only [length_cons, length_append, length_take]
            omega
  · rintro ⟨code, rest, encodes, here, rfl⟩
    cases encodes with
    | plain large =>
      simp only [cons_append, nil_append] at here
      simp [parseNextOp, here, large]
    | push header data small size announced =>
      have here' : script.drop pc = [opCode] ++ (header ++ (data ++ rest)) := by
        rw [here]
        simp
      have follows : script.drop (pc + 1) = header ++ (data ++ rest) := drop_after here'
      have operand : script.drop (pc + 1 + header.length) = data ++ rest := drop_after follows
      have total := length_after operand
      have sized := operandSize_ok_iff.mpr ⟨header, data ++ rest, follows, size, announced, rfl⟩
      have fits : ¬ script.length - (pc + 1 + header.length) < data.length := by omega
      simp only [cons_append] at here
      simp only [parseNextOp, here, UInt8.not_lt.mpr small, if_false, sized, fits, operand, take_left]
      simp only [length_cons, length_append]
      congr 1
      omega

/-- No operand that is read is longer than a two byte size can announce. -/
theorem parseNextOp_operand_length (script : Script) (pc : Nat) :
    ((parseNextOp script pc).operand.getD []).length ≤ 0xffff := by
  unfold parseNextOp
  split
  · simp
  · split_ifs
    · simp
    · split
      · simp
      next size start sized =>
        obtain ⟨header, -, -, -, rfl, -⟩ := operandSize_ok_iff.mp sized
        split_ifs
        · simp
        · simp only [Option.getD_some, length_take]
          exact le_trans (min_le_left _ _) (headerValue_le _ _)

/-- Operands that a two byte size can announce are read back as they were appended. -/
theorem encodes_operand (data : Bytes) (size : data.length ≤ 0xffff) :
    ∃ opCode ≤ opPushData4, Encodes opCode (some data) (operandHeader data.length ++ data) := by
  have byte (n : Nat) : (UInt8.ofNat n).toNat = n % 256 := by simp
  unfold operandHeader
  split_ifs with direct one
  · have value : (UInt8.ofNat data.length).toNat = data.length := by
      rw [byte]
      exact mod_eq_of_lt (lt_trans direct (by decide))
    have small : UInt8.ofNat data.length < opPushData1 := by
      rw [UInt8.lt_iff_toNat_lt, value]
      exact direct
    have below : UInt8.ofNat data.length ≤ opPushData4 :=
      UInt8.le_of_lt (UInt8.lt_trans small (show opPushData1 < opPushData4 by decide))
    exact ⟨_, below, .push [] data below (by simp [headerLength, small]) (by simp [headerValue, small, value])⟩
  · refine ⟨opPushData1, by decide, .push [UInt8.ofNat data.length] data (by decide) rfl ?_⟩
    have announced : natLE [UInt8.ofNat data.length] = data.length := by
      rw [natLE_cons, byte]
      simp only [natLE, map_nil, ofDigits_nil]
      omega
    exact announced.symm
  · refine ⟨opPushData2, by decide, .push (bytesLE 2 data.length) data (by decide) (bytesLE_length _ _) ?_⟩
    have announced : natLE ((bytesLE 2 data.length).take 2) = data.length := by
      rw [take_of_length_le (by simp), natLE_bytesLE]
      omega
    exact announced.symm

/-- An operation is read at the first position and ends at the second. -/
def OpAt (script : Script) (pc next : Nat) : Prop :=
  ∃ opCode operand, parseNextOp script pc = ⟨opCode, operand, next, none⟩

/-- The positions between operations when the script is read from its start. -/
def Boundary (script : Script) : Nat → Prop := ReflTransGen (OpAt script) 0

theorem OpAt.iff : OpAt script pc next ↔ ∃ opCode operand code rest, Encodes opCode operand code ∧
      script.drop pc = code ++ rest ∧ next = pc + code.length := by
  simp only [OpAt, parseNextOp_ok_iff]

theorem OpAt.bounds (read : OpAt script pc next) : pc < next ∧ next ≤ script.length := by
  obtain ⟨_, _, code, rest, encodes, here, rfl⟩ := OpAt.iff.mp read
  have total := length_after here
  have some := encodes.length_pos
  omega

theorem OpAt.unique : Relator.RightUnique (OpAt script) := by
  rintro pc next other ⟨_, _, first⟩ ⟨_, _, second⟩
  cases first.symm.trans second
  rfl

variable {rest : Script}

theorem parseNextOp_append (inside : next ≤ script.length) :
    parseNextOp (script ++ rest) pc = ⟨opCode, operand, next, none⟩ ↔
      parseNextOp script pc = ⟨opCode, operand, next, none⟩ := by
  simp only [parseNextOp_ok_iff]
  constructor
  · rintro ⟨code, tail, encodes, here, rfl⟩
    rw [drop_append_of_le_length (by omega)] at here
    have fits : code.length ≤ (script.drop pc).length := by
      rw [length_drop]
      omega
    obtain ⟨left, same⟩ := prefix_of_prefix_length_le ⟨tail, here.symm⟩ (prefix_append _ rest) fits
    exact ⟨code, left, encodes, same.symm, rfl⟩
  · rintro ⟨code, tail, encodes, here, rfl⟩
    refine ⟨code, tail ++ rest, encodes, ?_, rfl⟩
    rw [drop_append_of_le_length (by omega), here, append_assoc]

theorem OpAt.append (read : OpAt script pc next) (rest : Script) : OpAt (script ++ rest) pc next := by
  obtain ⟨opCode, operand, parsed⟩ := read
  exact ⟨opCode, operand, (parseNextOp_append (OpAt.bounds ⟨_, _, parsed⟩).2).mpr parsed⟩

theorem OpAt.of_append (read : OpAt (script ++ rest) pc next)
    (inside : next ≤ script.length) : OpAt script pc next := by
  obtain ⟨opCode, operand, parsed⟩ := read
  exact ⟨opCode, operand, (parseNextOp_append inside).mp parsed⟩

theorem Boundary.le_length (reached : Boundary script pc) : pc ≤ script.length := by
  rcases ReflTransGen.cases_tail reached with rfl | ⟨_, _, last⟩
  · exact zero_le _
  · exact last.bounds.2

theorem Boundary.append (reached : Boundary script pc) (rest : Script) : Boundary (script ++ rest) pc :=
  .mono (fun _ _ read => .append read rest) _ _ reached

theorem Boundary.of_append (reached : Boundary (script ++ rest) pc)
    (inside : pc ≤ script.length) : Boundary script pc := by
  induction reached with
  | refl => exact .refl
  | tail _ last ih =>
    have lower := last.bounds.1
    exact .tail (ih (by omega)) (last.of_append inside)

theorem parseNextOp_shift (parsed : parseNextOp rest pc = ⟨opCode, operand, next, none⟩) :
    parseNextOp (script ++ rest) (script.length + pc) = ⟨opCode, operand, script.length + next, none⟩ := by
  obtain ⟨code, tail, encodes, here, rfl⟩ := parseNextOp_ok_iff.mp parsed
  refine parseNextOp_ok_iff.mpr ⟨code, tail, encodes, ?_, by omega⟩
  rw [← here, ← drop_drop, drop_left]

/-- A read that starts inside the script depends on what follows the script only
through its length and its first two bytes, which can belong to an operand size. -/
theorem OpAt.change_tail {tail tail' : Script} (inside : pc < script.length)
    (length : tail'.length = tail.length) (first : tail'.take 2 = tail.take 2)
    (read : OpAt (script ++ tail) pc next) : OpAt (script ++ tail') pc next := by
  obtain ⟨opCode, operand, code, rest, encodes, here, rfl⟩ := OpAt.iff.mp read
  obtain ⟨byte, own, split⟩ : ∃ byte own, script.drop pc = byte :: own :=
    exists_cons_of_ne_nil (by rw [ne_eq, drop_eq_nil_iff]; omega)
  rw [drop_append_of_le_length inside.le, split] at here
  have here' : (script ++ tail').drop pc = byte :: (own ++ tail') := by
    rw [drop_append_of_le_length inside.le, split]
    rfl
  cases encodes with
  | plain large =>
    obtain ⟨rfl, -⟩ := cons.inj here
    exact OpAt.iff.mpr ⟨byte, none, [byte], own ++ tail', .plain large, here', rfl⟩
  | push header data small size announced =>
    obtain ⟨rfl, follows⟩ : byte = _ ∧ own ++ tail = header ++ data ++ rest := cons.inj here
    have known : (own ++ tail').take 2 = (own ++ tail).take 2 := by
      have start (n : Nat) (small : n ≤ 2) : tail'.take n = tail.take n := by
        rw [← min_eq_left small, ← take_take, first, take_take]
      rw [take_append, take_append, start _ (by omega)]
    have total : (own ++ tail').length = header.length + data.length + rest.length := by
      have same := congrArg List.length follows
      simp only [length_append] at same ⊢
      omega
    have header_eq : header = (own ++ tail).take (headerLength byte) := by
      rw [follows, append_assoc, ← size, take_left]
    have value : headerValue byte ((own ++ tail').take (headerLength byte)) = data.length := by
      rw [announced, header_eq]
      unfold headerValue
      rw [take_take, take_take, min_comm, ← take_take, known, take_take]
    refine OpAt.iff.mpr ⟨byte, some (((own ++ tail').drop (headerLength byte)).take data.length), _,
      ((own ++ tail').drop (headerLength byte)).drop data.length,
      .push ((own ++ tail').take (headerLength byte)) _ small ?_ ?_, ?_, ?_⟩
    · rw [length_take]
      omega
    · rw [value, length_take, length_drop]
      omega
    · rw [here']
      simp only [cons_append, append_assoc, take_append_drop]
    · simp only [length_cons, length_append, length_take, length_drop]
      simp only [length_append] at total
      omega

/-- The script can be read to its end on its own, so no operation of it asks for
bytes that follow the script. -/
def Complete (script : Script) : Prop := ∀ element ∈ script.parse, element.isError = false

instance (script : Script) : Decidable script.Complete :=
  inferInstanceAs (Decidable (∀ element ∈ script.parse, element.isError = false))

private theorem no_error_of_boundary (ends : Boundary script script.length) (fuel : Nat)
    (reached : Boundary script pc) : ∀ element ∈ parseFrom script fuel pc, element.isError = false := by
  induction fuel generalizing pc with
  | zero => simp [parseFrom]
  | succ fuel ih =>
    unfold parseFrom
    split
    next more =>
      rcases ReflTransGen.total_of_right_unique OpAt.unique reached ends with way | way
      · rcases ReflTransGen.cases_head way with same | ⟨next, read, _⟩
        · omega
        · have later := ih (reached.tail read)
          obtain ⟨opCode, operand, parsed⟩ := read
          cases operand <;> simpa [parsed, Element.isError] using later
      · have below := reached.le_length
        rcases ReflTransGen.cases_head way with same | ⟨next, read, _⟩
        · omega
        · have outside := read.bounds
          omega
    · simp

private theorem boundary_of_no_error (fuel : Nat) (reached : Boundary script pc)
    (enough : script.length ≤ pc + fuel) (clean : ∀ element ∈ parseFrom script fuel pc, element.isError = false) :
    Boundary script script.length := by
  have below := reached.le_length
  induction fuel generalizing pc with
  | zero =>
    have same : script.length = pc := by omega
    exact same ▸ reached
  | succ fuel ih =>
    by_cases more : pc < script.length
    · rcases parsed : parseNextOp script pc with ⟨opCode, operand, next, _ | err⟩
      · have read : OpAt script pc next := ⟨opCode, operand, parsed⟩
        refine ih (reached.tail read) (by have := read.bounds; omega) (fun element member => clean element ?_) read.bounds.2
        cases operand <;> simp [parseFrom, more, parsed, member]
      · simp [parseFrom, more, parsed, Element.isError] at clean
    · have same : script.length = pc := by omega
      exact same ▸ reached

theorem parseFrom_subset (reached : Boundary script pc) :
    ∃ fuel, script.length ≤ pc + fuel ∧ ∀ element ∈ parseFrom script fuel pc, element ∈ script.parse := by
  induction reached with
  | refl => exact ⟨script.length, by omega, fun _ member => member⟩
  | tail _ read ih =>
    obtain ⟨fuel, enough, subset⟩ := ih
    have bounds := read.bounds
    obtain ⟨fuel, rfl⟩ : ∃ rest, fuel = rest + 1 := ⟨fuel - 1, by omega⟩
    obtain ⟨opCode, operand, parsed⟩ := read
    refine ⟨fuel, by omega, fun element member => subset element ?_⟩
    have more : _ < script.length := lt_of_lt_of_le bounds.1 bounds.2
    cases operand <;> simp [parseFrom, more, parsed, member]

theorem complete_iff_boundary : Complete script ↔ Boundary script script.length :=
  ⟨fun clean => boundary_of_no_error script.length .refl (by omega) clean,
    fun ends => no_error_of_boundary ends script.length .refl⟩

end Boxd.Script
