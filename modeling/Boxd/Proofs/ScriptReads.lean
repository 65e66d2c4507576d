import Boxd.Proofs.ScriptParse
import Boxd.Script.Kinds

/-! Scripts that are read operation by operation. What is built of opcodes and operands
is read back, unless an operand needs more than two bytes for its size. -/

namespace Boxd.Script
open Lib List Nat

/-- An operation as an element of the list that `parse` returns. -/
def element (opCode : OpCode) : Option Operand → Element
  | some data => .operand data
  | none => .opCode opCode

def Element.data : Element → Operand
  | .operand data => data
  | _ => []

/-- The operations that are read one after the other from a position on, and where they end. -/
inductive Reads (script : Script) : Nat → List Element → Nat → Prop where
  | done (pc : Nat) : Reads script pc [] pc
  | next {opCode : OpCode} {operand : Option Operand} {pc middle last : Nat} {elements : List Element}
      (parsed : parseNextOp script pc = ⟨opCode, operand, middle, none⟩)
      (rest : Reads script middle elements last) :
      Reads script pc (element opCode operand :: elements) last

variable {script : Script} {pc middle last n : Nat} {elements more : List Element}

theorem Reads.append (first : Reads script pc elements middle) (second : Reads script middle more last) :
    Reads script pc (elements ++ more) last := by
  induction first with
  | done => exact second
  | next parsed _ ih => exact .next parsed (ih second)

theorem Reads.extend (reads : Reads script pc elements last) (rest : Script) :
    Reads (script ++ rest) pc elements last := by
  induction reads with
  | done => exact .done _
  | next parsed _ ih =>
    exact .next ((parseNextOp_append (OpAt.bounds ⟨_, _, parsed⟩).2).mpr parsed) ih

theorem Reads.shift (front : Script) (reads : Reads script pc elements last) :
    Reads (front ++ script) (front.length + pc) elements (front.length + last) := by
  induction reads with
  | done => exact .done _
  | next parsed _ ih => exact .next (parseNextOp_shift parsed) ih

theorem Reads.concat {other : Script} (first : Reads script pc elements script.length)
    (second : Reads other 0 more other.length) :
    Reads (script ++ other) pc (elements ++ more) (script ++ other).length := by
  have behind := second.shift script
  rw [add_zero, ← length_append] at behind
  exact (first.extend other).append behind

theorem Reads.parseFrom (reads : Reads script pc elements script.length) (fuel : Nat)
    (enough : script.length ≤ pc + fuel) : parseFrom script fuel pc = elements := by
  generalize same : script.length = last at reads
  induction reads generalizing fuel with
  | done => cases fuel <;> simp [Script.parseFrom, same]
  | @next opCode operand _ _ _ _ parsed _ ih =>
    have bounds := OpAt.bounds ⟨_, _, parsed⟩
    obtain ⟨fuel, rfl⟩ : ∃ rest, fuel = rest + 1 := ⟨fuel - 1, by omega⟩
    have inside := lt_of_lt_of_le bounds.1 bounds.2
    have rest := ih fuel (by omega) same
    cases operand <;> simp [Script.parseFrom, inside, parsed, rest, element]

theorem Reads.parse (reads : Reads script 0 elements script.length) : script.parse = elements :=
  reads.parseFrom _ (by omega)

theorem reads_parseFrom (fuel : Nat) (inside : pc ≤ script.length) (enough : script.length ≤ pc + fuel)
    (clean : ∀ element ∈ parseFrom script fuel pc, element.isError = false) :
    Reads script pc (parseFrom script fuel pc) script.length := by
  induction fuel generalizing pc with
  | zero =>
    obtain rfl : pc = script.length := by omega
    exact .done _
  | succ fuel ih =>
    by_cases more : pc < script.length
    · rcases parsed : parseNextOp script pc with ⟨opCode, operand, middle, _ | err⟩
      · have bounds := OpAt.bounds ⟨_, _, parsed⟩
        have shape : parseFrom script (fuel + 1) pc = element opCode operand :: parseFrom script fuel middle := by
          cases operand <;> simp [parseFrom, more, parsed, element]
        rw [shape] at clean ⊢
        exact .next parsed (ih bounds.2 (by omega) fun _ member => clean _ (mem_cons_of_mem _ member))
      · simp [parseFrom, more, parsed, Element.isError] at clean
    · obtain rfl : pc = script.length := by omega
      simpa [parseFrom] using Reads.done script.length

theorem reads_parse (complete : Complete script) : Reads script 0 script.parse script.length :=
  reads_parseFrom _ (zero_le _) (by omega) complete

/-- The n-th operation that is read, with the operations behind it. -/
theorem Reads.nthOperand (reads : Reads script pc elements last) (inside : n < elements.length) :
    ∃ middle, script.nthOperand pc n = .ok (elements[n].data, middle) ∧
      Reads script middle (elements.drop (n + 1)) last := by
  induction reads generalizing n with
  | done => exact absurd inside (not_lt_zero _)
  | @next opCode operand _ middle _ _ parsed rest ih =>
    cases n with
    | zero =>
      refine ⟨middle, ?_, rest⟩
      cases operand <;> simp [Script.nthOperand, getNthOp, parsed, element, Element.data, Except.map]
    | succ n =>
      obtain ⟨middle, found, behind⟩ := ih (lt_of_succ_lt_succ inside)
      refine ⟨middle, ?_, behind⟩
      simpa [Script.nthOperand, getNthOp, parsed] using found

theorem getElem?_of_getD {n : Nat} {byte : UInt8} (inside : n < script.length) (same : script.getD n 0 = byte) :
    script[n]? = some byte := by
  rw [getD_eq_getElem?_getD, getElem?_eq_getElem inside, Option.getD_some] at same
  rw [getElem?_eq_getElem inside, same]

theorem parseNextOp_direct {size : UInt8} (here : script[pc]? = some size) (small : size < opPushData1)
    (room : pc + 1 + size.toNat ≤ script.length) : parseNextOp script pc =
      ⟨size, some ((script.drop (pc + 1)).take size.toNat), pc + 1 + size.toNat, none⟩ := by
  obtain ⟨inside, same⟩ := List.getElem?_eq_some_iff.mp here
  have begins : script.drop pc = size :: script.drop (pc + 1) := by
    rw [drop_eq_getElem_cons inside, same]
  have push : ¬ opPushData4 < size := UInt8.not_lt.mpr (UInt8.le_of_lt (UInt8.lt_trans small (by decide)))
  have long : ¬ script.length - (pc + 1) < size.toNat := by omega
  simp only [parseNextOp, begins, if_neg push, operandSize, if_pos small, if_neg long]

theorem parseNextOp_plain {code : OpCode} (here : script[pc]? = some code) (large : opPushData4 < code) :
    parseNextOp script pc = ⟨code, none, pc + 1, none⟩ := by
  obtain ⟨inside, same⟩ := List.getElem?_eq_some_iff.mp here
  simp only [parseNextOp, drop_eq_getElem_cons inside, same, if_pos large]

/-- An opcode that is no push, or an operand whose size has four bytes. -/
def Element.Buildable : Element → Prop
  | .opCode code => opPushData4 < code
  | .operand data => data.length < 2 ^ 32
  | .error _ => False

/-- A two byte size can announce the operand. -/
def Element.Short (element : Element) : Prop := element.data.length ≤ 0xffff

instance : DecidablePred Element.Short := fun element => inferInstanceAs (Decidable (element.data.length ≤ 0xffff))

/-- The script that `AddOpCode` and `AddOperand` build of a sequence. -/
def build (elements : List Element) : Script :=
  elements.foldl (fun script element => match element with
    | .opCode code => script.addOpCode code
    | .operand data => script.addOperand data
    | .error _ => script) []

theorem reads_opCode {code : OpCode} (plain : opPushData4 < code) : Reads [code] 0 [.opCode code] [code].length :=
  .next (parseNextOp_ok_iff.mpr ⟨[code], [], .plain plain, rfl, rfl⟩) (.done 1)

theorem reads_operand {data : Operand} (short : data.length ≤ 0xffff) :
    Reads (operandHeader data.length ++ data) 0 [.operand data] (operandHeader data.length ++ data).length := by
  obtain ⟨opCode, -, encodes⟩ := encodes_operand data short
  exact .next (parseNextOp_ok_iff.mpr ⟨_, [], encodes, by simp, by rw [zero_add]⟩) (.done _)

theorem Reads.addOpCode {code : OpCode} (reads : Reads script pc elements script.length) (plain : opPushData4 < code) :
    Reads (script.addOpCode code) pc (elements ++ [.opCode code]) (script.addOpCode code).length :=
  reads.concat (reads_opCode plain)

theorem Reads.addOperand {data : Operand} (reads : Reads script pc elements script.length)
    (short : data.length ≤ 0xffff) :
    Reads (script.addOperand data) pc (elements ++ [.operand data]) (script.addOperand data).length := by
  have longer := reads.concat (reads_operand short)
  rwa [← append_assoc] at longer

theorem reads_build (buildable : ∀ element ∈ elements, element.Buildable)
    (short : ∀ element ∈ elements, element.Short) :
    Reads (build elements) 0 elements (build elements).length := by
  induction elements using reverseRecOn with
  | nil => exact .done 0
  | append_singleton elements last ih =>
    simp only [mem_append, mem_singleton, or_imp, forall_and, forall_eq] at buildable short
    have before := ih buildable.1 short.1
    simp only [build, foldl_append, foldl_cons, foldl_nil]
    cases last with
    | opCode code => exact before.addOpCode buildable.2
    | operand data => exact before.addOperand short.2
    | error err => exact buildable.2.elim

theorem parseFrom_short (fuel : Nat) : ∀ element ∈ parseFrom script fuel pc, element.Short := by
  induction fuel generalizing pc with
  | zero => exact fun element member => absurd member not_mem_nil
  | succ fuel ih =>
    have bound := parseNextOp_operand_length script pc
    unfold parseFrom
    split
    · rcases parsed : parseNextOp script pc with ⟨opCode, _ | data, middle, _ | err⟩ <;>
        simp only [mem_cons, forall_eq_or_imp]
      · exact ⟨zero_le _, ih⟩
      · exact ⟨zero_le _, fun element member => absurd member not_mem_nil⟩
      · rw [parsed] at bound
        exact ⟨bound, ih⟩
      · exact ⟨zero_le _, fun element member => absurd member not_mem_nil⟩
    · exact fun element member => absurd member not_mem_nil

/-- A sequence that is built into a script is read back, step by step to its end,
exactly when no operand is longer than a two byte size can announce. -/
theorem parse_build_iff (elements : List Element) (buildable : ∀ element ∈ elements, element.Buildable) :
    (build elements).parse = elements ↔ ∀ element ∈ elements, element.Short := by
  constructor
  · intro same
    rw [← same]
    exact parseFrom_short _
  · exact fun short => (reads_build buildable short).parse

theorem parse_build_lock : (build [.operand [5], .opCode opCheckLockTimeVerify]).parse =
    [.operand [5], .opCode opCheckLockTimeVerify] :=
  (parse_build_iff _ (by simp [Element.Buildable]; decide)).mpr (by decide)

/-- The size of a longer operand is cut to its first two bytes. -/
theorem long_operand_read_short :
    (build [.operand (replicate 0x10000 0)]).parse ≠ [.operand (replicate 0x10000 0)] := by
  intro same
  have short : ∀ element ∈ (build [.operand (replicate 0x10000 0)]).parse, element.Short := parseFrom_short _
  rw [same] at short
  have bound : (replicate 0x10000 (0 : UInt8)).length ≤ 0xffff := short _ (mem_singleton_self _)
  rw [length_replicate] at bound
  exact absurd bound (by decide)

end Boxd.Script
