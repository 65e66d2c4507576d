import Boxd.Chain.Validate
import Boxd.Proofs.PayToPubKeyHash

/-! Spending the entry that holds a contract's coins. Its script starts with an opcode
that the interpreter rejects, so it can only be spent by an unlocking script whose
last push takes this opcode for data. -/

namespace Boxd.Script
open Lib Lib.Machine List Relation Script

variable {pc : Nat}

/-- An operation that starts in the unlocking script takes the separator and the
opcode of a contract script behind it for data. -/
def Swallows (scriptSig : Script) : Prop :=
  ∃ pc next contract, Boundary scriptSig pc ∧ contract.isContractPubkey = true ∧
    OpAt (catScript scriptSig contract) pc next ∧ scriptSig.length + 2 ≤ next

def PushOnly (scriptSig : Script) : Prop := ∀ opCode, Element.opCode opCode ∉ scriptSig.parse

theorem opAt_separator {scriptSig scriptPubKey : Script} :
    OpAt (catScript scriptSig scriptPubKey) scriptSig.length (scriptSig.length + 1) :=
  OpAt.iff.mpr ⟨opCodeSeparator, none, [opCodeSeparator], scriptPubKey, .plain (by decide),
    by rw [catScript_eq, drop_left]; rfl, rfl⟩

section Rejected

variable {c : Crypto} {scriptSig contract : Script} {tx : Transaction} {txInIdx : Nat}

theorem isContractPubkey_length (recognised : contract.isContractPubkey = true) : contract.length = 66 := by
  simp [isContractPubkey] at recognised
  exact recognised.1.1.1.1.1.1

theorem isContractPubkey_cons (recognised : contract.isContractPubkey = true) :
    ∃ rest, contract = opContract :: ripemd160Size :: rest := by
  have size := isContractPubkey_length recognised
  match contract, size with
  | first :: second :: rest, _ =>
    simp [isContractPubkey] at recognised
    exact ⟨rest, by rw [recognised.1.1.1.1.1.2, recognised.1.1.1.1.2]⟩

private theorem contract_plain (recognised : contract.isContractPubkey = true) :
    isPayToScriptHash contract = false := by
  simp [isPayToScriptHash, isContractPubkey_length recognised, p2SHScriptLen]

/-- A completed run steps over the end of the unlocking script in one operation. Both
the separator and a push that takes only the separator lead to the contract opcode. -/
theorem validate_contract_rejected (c : Crypto) (tx : Transaction) (txInIdx : Nat) (apart : ¬ Swallows scriptSig)
    (recognised : contract.isContractPubkey = true) : ∃ err, validate c scriptSig contract tx txInIdx = .error err := by
  cases result : validate c scriptSig contract tx txInIdx with
  | error err => exact ⟨err, rfl⟩
  | ok evaluations =>
    exfalso
    obtain ⟨final, ran, -⟩ := validate_plain (contract_plain recognised) result
    obtain ⟨whole, ended, -⟩ := evaluate_ok_iff.mp ran
    have long : (catScript scriptSig contract).length = scriptSig.length + 1 + contract.length := by
      simp [catScript_eq]
      omega
    obtain ⟨st, t, before, inside, moves, outside, after⟩ :=
      whole.crosses (fun st => st.pc ≤ scriptSig.length) (Nat.zero_le _) (by omega)
    have read := next_opAt moves
    have boundary := reaches_boundary before
    have own : Boundary scriptSig st.pc := by
      rw [catScript_eq] at boundary
      exact boundary.of_append inside
    by_cases next : t.pc = scriptSig.length + 1
    · obtain ⟨rest, rfl⟩ := isContractPubkey_cons recognised
      have here : (catScript scriptSig (opContract :: ripemd160Size :: rest)).drop t.pc =
          [opContract] ++ ripemd160Size :: rest := by
        rw [next, catScript_drop]
        rfl
      obtain ⟨_, ran, -⟩ := passes_operation after ended here (.plain (by decide))
      cases ran
    · exact apart ⟨st.pc, t.pc, contract, own, recognised, read, by omega⟩

end Rejected

section Accepted

variable {c : Crypto} {scriptSig : Script} {tx : Transaction} {txInIdx : Nat}

/-- A contract script whose free bytes are the opcode that pushes one. Wherever it is
entered behind its first byte, it is read as pushes up to its end. -/
def openContract : Script :=
  [opContract, ripemd160Size] ++ replicate 20 op1 ++ ripemd160Size :: replicate 20 op1 ++
    8 :: replicate 8 op1 ++ 8 :: replicate 8 op1 ++ 4 :: replicate 4 op1

def Parsed.pushesTrue (next : Parsed) : Bool :=
  next.err.isNone && (decide (next.opCode ≤ opPushData4) && natBE (next.operand.getD []) != 0 || next.opCode == op1)

private theorem openContract_pushesTrue : ∀ pc : Fin 66, 0 < pc.val →
    (openContract.parseNextOp pc).pushesTrue = true := by
  decide +kernel

private theorem openContract_reads (positive : 0 < pc) (inside : pc < 66) :
    ∃ opCode operand next, openContract.parseNextOp pc = ⟨opCode, operand, next, none⟩ ∧
      (opCode ≤ opPushData4 ∧ natBE (operand.getD []) ≠ 0 ∨ opCode = op1) := by
  have pushes := openContract_pushesTrue ⟨pc, inside⟩ positive
  rcases parsed : openContract.parseNextOp pc with ⟨opCode, operand, next, err⟩
  simp only [parsed, Parsed.pushesTrue] at pushes
  simp at pushes
  obtain ⟨rfl, pushes⟩ := pushes
  exact ⟨opCode, operand, next, rfl, pushes⟩

private theorem openContract_next (c : Crypto) (tx : Transaction) (txInIdx : Nat) (positive : 0 < pc)
    (inside : pc < 66) {st : ExecState}
    (here : st.pc = scriptSig.length + 1 + pc) :
    ∃ value next, natBE value ≠ 0 ∧ pc < next ∧ next ≤ 66 ∧
      (machine c (catScript scriptSig openContract) tx txInIdx).Next st
        { st with pc := scriptSig.length + 1 + next, stack := value :: st.stack } := by
  obtain ⟨opCode, operand, next, parsed, pushes⟩ := openContract_reads positive inside
  have bounds := OpAt.bounds ⟨_, _, parsed⟩
  have same : catScript scriptSig openContract = (scriptSig ++ [opCodeSeparator]) ++ openContract := by
    simp [catScript_eq]
  have moved : (catScript scriptSig openContract).parseNextOp st.pc =
      ⟨opCode, operand, scriptSig.length + 1 + next, none⟩ := by
    have size : (scriptSig ++ [opCodeSeparator]).length = scriptSig.length + 1 := by simp
    rw [same, here, ← size]
    exact parseNextOp_shift parsed
  have within := OpAt.bounds ⟨_, _, moved⟩
  rcases pushes with ⟨small, nonzero⟩ | rfl
  · exact ⟨_, next, nonzero, bounds.1, bounds.2,
      next_iff.mpr ⟨by omega, opCode, operand, _, moved, execOp_push small⟩⟩
  · exact ⟨bytesBE 1, next, by rw [natBE_bytesBE]; decide, bounds.1, bounds.2,
      next_iff.mpr ⟨by omega, op1, operand, _, moved, rfl⟩⟩

private theorem validateTop_ok {value : Operand} {stack : Stack} (nonzero : natBE value ≠ 0) :
    Stack.validateTop (value :: stack) = .ok () := by
  simp [Stack.validateTop, nonzero]

/-- From any position behind the first byte the rest of the script runs to a true
result, by induction on the number of bytes that are left. -/
private theorem openContract_runs (c : Crypto) (scriptSig : Script) (tx : Transaction) (txInIdx left : Nat) :
    ∀ (st : ExecState) (pc : Nat), pc + left = 66 → 0 < pc →
    st.pc = scriptSig.length + 1 + pc → (left = 0 → st.stack.validateTop = .ok ()) →
    ∃ final, (machine c (catScript scriptSig openContract) tx txInIdx).Reaches st final ∧
      (catScript scriptSig openContract).length ≤ final.pc ∧ final.stack.validateTop = .ok () := by
  induction left using Nat.strong_induction_on with
  | _ left ih =>
    intro st pc total positive here top
    by_cases done : left = 0
    · refine ⟨st, .refl st, ?_, top done⟩
      rw [here, catScript_eq]
      simp [openContract]
      omega
    · obtain ⟨value, next, nonzero, further, within, moves⟩ :=
        openContract_next c tx txInIdx positive (by omega) here
      obtain ⟨final, way, ended, valid⟩ := ih (66 - next) (by omega)
        { st with pc := scriptSig.length + 1 + next, stack := value :: st.stack } next (by omega) (by omega) rfl
        (fun _ => validateTop_ok nonzero)
      exact ⟨final, .head moves way, ended, valid⟩

theorem openContract_recognised : openContract.isContractPubkey = true := by decide

/-- Pushing data never fails, so the run of the unlocking script gets to each of its
boundaries. -/
private theorem pushOnly_reaches (c : Crypto) (tx : Transaction) (txInIdx : Nat) (pushes : PushOnly scriptSig) (rest : Script)
    (boundary : Boundary scriptSig pc) :
    ∃ st, (machine c (scriptSig ++ rest) tx txInIdx).Reaches initialState st ∧ st.pc = pc := by
  induction boundary with
  | refl => exact ⟨initialState, .refl _, rfl⟩
  | @tail pc next before read ih =>
    obtain ⟨st, way, rfl⟩ := ih
    have bounds := read.bounds
    obtain ⟨opCode, operand, parsed⟩ := read
    have small : opCode ≤ opPushData4 := by
      obtain ⟨code, tail, encodes, -⟩ := parseNextOp_ok_iff.mp parsed
      cases encodes with
      | push _ _ small _ _ => exact small
      | plain large =>
        obtain ⟨fuel, enough, subset⟩ := parseFrom_subset before
        obtain ⟨fuel, rfl⟩ : ∃ more, fuel = more + 1 := ⟨fuel - 1, by omega⟩
        have more : st.pc < scriptSig.length := by omega
        exact absurd (subset (.opCode opCode) (by simp [parseFrom, more, parsed])) (pushes opCode)
    have moves : (machine c (scriptSig ++ rest) tx txInIdx).Next st
        { st with pc := next, stack := operand.getD [] :: st.stack } :=
      next_iff.mpr ⟨by rw [length_append]; omega, opCode, operand, next,
        (parseNextOp_append bounds.2).mpr parsed, execOp_push small⟩
    exact ⟨_, way.trans (.single moves), rfl⟩

private theorem headerLength_le (opCode : OpCode) : headerLength opCode ≤ 4 := by
  unfold headerLength
  split_ifs <;> omega

/-- A push that ends with the whole script has its last byte, which is not zero. -/
private theorem swallowed_true {opCode : OpCode} {data : Operand} (inside : pc < scriptSig.length)
    (parsed : (catScript scriptSig openContract).parseNextOp pc =
      ⟨opCode, some data, (catScript scriptSig openContract).length, none⟩) : natBE data ≠ 0 := by
  obtain ⟨code, rest, encodes, here, total⟩ := parseNextOp_ok_iff.mp parsed
  have long : (catScript scriptSig openContract).length = scriptSig.length + 67 := by
    simp [catScript_eq, openContract]
  have left := length_after here
  obtain rfl : rest = [] := length_eq_zero_iff.mp (by omega)
  cases encodes with
  | push header _ small size announced =>
    have short := headerLength_le opCode
    simp only [length_cons, length_append] at total
    have nonempty : data ≠ [] := length_pos_iff.mp (by omega)
    obtain ⟨start, last, rfl⟩ := (eq_nil_or_concat data).resolve_left nonempty
    have ends : (catScript scriptSig openContract).drop pc =
        (scriptSig.drop pc ++ opCodeSeparator :: openContract.dropLast) ++ [op1] := by
      rw [catScript_eq, drop_append_of_le_length inside.le, append_assoc, cons_append]
      rfl
    have same : (scriptSig.drop pc ++ opCodeSeparator :: openContract.dropLast) ++ [op1] =
        (opCode :: (header ++ start)) ++ [last] := by
      rw [← ends, here]
      simp
    obtain rfl : op1 = last := singleton_inj.mp (append_inj' same rfl).2
    exact natBE_ne_zero (show op1 ∈ start.concat op1 by simp) (by decide)

/-- If the operations before it are pushes too, a swallowing push makes some contract
script spendable. -/
theorem validate_contract_accepted (c : Crypto) (tx : Transaction) (txInIdx : Nat) (swallows : Swallows scriptSig)
    (pushes : PushOnly scriptSig) : ∃ evaluations, validate c scriptSig openContract tx txInIdx = .ok evaluations := by
  obtain ⟨pc, next, contract, boundary, recognised, read, far⟩ := swallows
  have inside : pc < scriptSig.length := by
    rcases lt_or_eq_of_le boundary.le_length with inside | rfl
    · exact inside
    · have same := OpAt.unique read opAt_separator
      omega
  have read : OpAt (catScript scriptSig openContract) pc next := by
    obtain ⟨rest, rfl⟩ := isContractPubkey_cons recognised
    have size := isContractPubkey_length recognised
    rw [catScript_eq] at read ⊢
    refine read.change_tail inside ?_ ?_
    · simpa [openContract] using size.symm
    · rfl
  have long : (catScript scriptSig openContract).length = scriptSig.length + 67 := by
    simp [catScript_eq, openContract]
  have bounds := read.bounds
  obtain ⟨opCode, operand, parsed⟩ := read
  obtain ⟨code, _, encodes, _, total⟩ := parseNextOp_ok_iff.mp parsed
  cases encodes with
  | plain _ =>
    simp only [length_singleton] at total
    omega
  | push header data small _ _ =>
    obtain ⟨st, way, rfl⟩ := pushOnly_reaches c tx txInIdx pushes (opCodeSeparator :: openContract) boundary
    rw [← catScript_eq] at way
    have moves : (machine c (catScript scriptSig openContract) tx txInIdx).Next st
        { st with pc := next, stack := data :: st.stack } :=
      next_iff.mpr ⟨by omega, opCode, some data, next, parsed, execOp_push small⟩
    obtain ⟨final, rest, ended, top⟩ := openContract_runs c scriptSig tx txInIdx (scriptSig.length + 67 - next)
      { st with pc := next, stack := data :: st.stack } (next - scriptSig.length - 1) (by omega) (by omega)
      (by simp only; omega) (fun none => validateTop_ok (swallowed_true inside (by rw [parsed, long]; congr 1; omega)))
    have ran := evaluate_ok_iff.mpr ⟨(way.trans (.single moves)).trans rest, ended, top⟩
    refine ⟨[⟨scriptSig, openContract, final⟩], ?_⟩
    simp [validate, evaluateCat, ran, contract_plain openContract_recognised]

end Accepted

section Spending

variable {c : Crypto} {scriptSig : Script} {tx : Transaction} {utxoSet : UtxoSet}

theorem Complete.not_swallows (complete : Complete scriptSig) : ¬ Swallows scriptSig := by
  rintro ⟨pc, next, contract, boundary, -, read, far⟩
  have here : pc = scriptSig.length ∨ ∃ other, OpAt scriptSig pc other := by
    have ends := complete_iff_boundary.mp complete
    rcases ReflTransGen.total_of_right_unique OpAt.unique boundary ends with way | way
    · rcases ReflTransGen.cases_head way with same | ⟨other, own, _⟩
      · exact .inl same
      · exact .inr ⟨other, own⟩
    · rcases ReflTransGen.cases_head way with same | ⟨other, own, _⟩
      · exact .inl same.symm
      · have bounds := own.bounds
        omega
  rcases here with rfl | ⟨other, own⟩
  · have same := OpAt.unique read opAt_separator
    omega
  · have bounds := own.bounds
    rw [catScript_eq] at read
    have same := OpAt.unique read (own.append _)
    omega

private theorem checkTxScriptsFrom_rejected {inputs : List TxIn} {txIn : TxIn} {utxo : UtxoWrap} (member : txIn ∈ inputs)
    (found : utxoSet.findUtxo txIn.prevOutPoint = some utxo) (recognised : isContractPubkey utxo.script = true)
    (apart : ¬ Swallows txIn.scriptSig) (txInIdx : Nat) :
    ∃ err, checkTxScriptsFrom c utxoSet tx false inputs txInIdx = .error err := by
  induction inputs generalizing txInIdx with
  | nil => cases member
  | cons first rest ih =>
    unfold checkTxScriptsFrom
    rcases mem_cons.mp member with rfl | later
    · obtain ⟨err, rejected⟩ := validate_contract_rejected c tx txInIdx apart recognised
      cases spent : utxo.isSpent <;> simp [found, spent, rejected]
    · split
      · exact ⟨_, rfl⟩
      · split
        · exact ⟨_, rfl⟩
        · simp only [Bool.false_eq_true, if_false]
          split
          · exact ⟨_, rfl⟩
          · exact ih later _

/-- Contract scripts are rejected for every unlocking script that does not swallow them, and
so are transactions that spend one; one of pushes that swallows is accepted for some. -/
theorem contract_spend_rejected (c : Crypto) (scriptSig : Script) (tx : Transaction) (txInIdx : Nat) :
    (¬ Swallows scriptSig → ∀ contract : Script, contract.isContractPubkey = true →
        ∃ err, validate c scriptSig contract tx txInIdx = .error err) ∧
      (PushOnly scriptSig → (∀ contract : Script, contract.isContractPubkey = true →
        ∃ err, validate c scriptSig contract tx txInIdx = .error err) → ¬ Swallows scriptSig) ∧
      ∀ (utxoSet : UtxoSet), ∀ txIn ∈ tx.vin, ∀ utxo, utxoSet.findUtxo txIn.prevOutPoint = some utxo →
        isContractPubkey utxo.script = true → ¬ Swallows txIn.scriptSig →
        ∃ err, checkTxScripts c utxoSet tx false = .error err := by
  refine ⟨fun apart contract recognised => validate_contract_rejected c tx txInIdx apart recognised, ?_, ?_⟩
  · intro pushes rejected swallows
    obtain ⟨evaluations, accepted⟩ := validate_contract_accepted c tx txInIdx swallows pushes
    obtain ⟨err, failed⟩ := rejected openContract openContract_recognised
    cases accepted.symm.trans failed
  · intro utxoSet txIn member utxo found recognised apart
    exact checkTxScriptsFrom_rejected member found recognised apart 0

end Spending

/-- A call of a contract by the owner of `samplePubKey`. -/
def sampleContract : Script :=
  (addOpCode [] opContract).addOperand sampleKeyHash.bytes |>.addOperand (replicate 20 0x22)
    |>.addOperand (bytesLE 8 1) |>.addOperand (bytesLE 8 100000) |>.addOperand (bytesLE 4 0)

def contractSpend (scriptSig : Script) : Transaction :=
  { sampleTx scriptSig maxUint32 0 with
    vin := [⟨⟨normalizeAddressHash (.fill 20 0x22), 0⟩, scriptSig, maxUint32⟩] }

def contractUtxoSet : UtxoSet :=
  { UtxoSet.new with
    utxoMap := AList.singleton ⟨normalizeAddressHash (.fill 20 0x22), 0⟩
      (UtxoWrap.new 70000 sampleContract 5) }

theorem sample_contract_rejected :
    (∃ err, validate sampleCrypto sampleScriptSig sampleContract (contractSpend sampleScriptSig) 0 = .error err) ∧
      ∃ err, checkTxScripts sampleCrypto contractUtxoSet (contractSpend sampleScriptSig) false = .error err := by
  have apart : ¬ Swallows sampleScriptSig := Complete.not_swallows (by decide +kernel)
  obtain ⟨rejected, -, unspent⟩ :=
    contract_spend_rejected sampleCrypto sampleScriptSig (contractSpend sampleScriptSig) 0
  exact ⟨rejected apart sampleContract (by decide +kernel),
    unspent contractUtxoSet _ (mem_singleton.mpr rfl) (UtxoWrap.new 70000 sampleContract 5) (by decide +kernel)
      (by decide +kernel) apart⟩

/-- One byte that announces 67 bytes of data swallows the separator and the contract
script, and the transaction spends the contract's coins. -/
theorem swallowed_contract_accepted : sampleContract.isContractPubkey = true ∧
      (∃ evaluations, validate sampleCrypto [0x43] sampleContract (contractSpend [0x43]) 0 = .ok evaluations) ∧
      checkTxScripts sampleCrypto contractUtxoSet (contractSpend [0x43]) false = .ok [] := by
  refine ⟨by decide +kernel, exists_ok _ (by decide +kernel), by decide +kernel⟩

end Boxd.Script
