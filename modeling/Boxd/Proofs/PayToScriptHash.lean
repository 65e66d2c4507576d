import Boxd.Proofs.PayToPubKeyHash

/-! Spending an output that commits to a script hash. The item that is hashed is on
top of the stack, but the script that is executed is the second operation of the
unlocking script, and only the first operation is handed to it. -/

namespace Boxd.Script
open Lib Lib.Machine List

section Phases

variable {c : Crypto} {scriptSig scriptPubKey : Script} {tx : Transaction} {txInIdx : Nat} {stack : Stack}

def Leaves (c : Crypto) (scriptSig scriptPubKey : Script) (tx : Transaction) (txInIdx : Nat) (stack : Stack) : Prop :=
  ∃ st, (machine c (catScript scriptSig scriptPubKey) tx txInIdx).Reaches initialState st ∧
    st.pc = scriptSig.length ∧ st.stack = stack

def Enters (c : Crypto) (scriptSig scriptPubKey : Script) (tx : Transaction) (txInIdx : Nat) (stack : Stack) : Prop :=
  ∃ st, (machine c (catScript scriptSig scriptPubKey) tx txInIdx).Reaches initialState st ∧
    st.pc = scriptSig.length + 1 ∧ st.scriptPubKeyStart = scriptSig.length + 1 ∧ st.stack = stack

theorem Leaves.enters (left : Leaves c scriptSig scriptPubKey tx txInIdx stack) :
    Enters c scriptSig scriptPubKey tx txInIdx stack := by
  obtain ⟨st, way, ends, rfl⟩ := left
  have here : (catScript scriptSig scriptPubKey).drop st.pc = [opCodeSeparator] ++ scriptPubKey := by
    rw [ends, catScript_eq, drop_left]
    rfl
  have moves : (machine c (catScript scriptSig scriptPubKey) tx txInIdx).Next st
      { st with pc := st.pc + 1, scriptPubKeyStart := st.pc + 1 } :=
    next_operation here (.plain (by decide)) rfl
  exact ⟨_, way.trans (.single moves), by simp [ends], by simp [ends], rfl⟩

theorem Enters.unique {other : Stack} (first : Enters c scriptSig scriptPubKey tx txInIdx stack)
    (second : Enters c scriptSig scriptPubKey tx txInIdx other) : stack = other := by
  obtain ⟨_, way, pc, _, rfl⟩ := first
  obtain ⟨_, way', pc', _, rfl⟩ := second
  rw [reaches_unique way way' (pc.trans pc'.symm)]

private theorem foldl_addOperand (operands : List Bytes) (script : Script) :
    operands.foldl addOperand script = script ++ operands.foldl addOperand [] := by
  induction operands generalizing script with
  | nil => simp
  | cons data operands ih =>
    rw [foldl_cons, foldl_cons, ih, ih (addOperand [] data)]
    simp [addOperand]

private theorem reaches_operands (c : Crypto) (script : Script) (tx : Transaction) (txInIdx : Nat) {rest : Bytes}
    (operands : List Bytes) (sizes : ∀ data ∈ operands, data.length ≤ 0xffff) (st : ExecState)
    (here : script.drop st.pc = operands.foldl addOperand [] ++ rest) :
    (machine c script tx txInIdx).Reaches st
      { st with
        pc := st.pc + (operands.foldl addOperand []).length
        stack := operands.reverse ++ st.stack } := by
  induction operands generalizing st with
  | nil => exact .refl _
  | cons data operands ih =>
    obtain ⟨opCode, small, encodes⟩ := encodes_operand data (sizes data (by simp))
    have split : (data :: operands).foldl addOperand [] =
        (operandHeader data.length ++ data) ++ operands.foldl addOperand [] := by
      rw [foldl_cons, foldl_addOperand]
      simp [addOperand]
    rw [split, append_assoc] at here
    have later := ih (fun other member => sizes other (by simp [member]))
      { st with
        pc := st.pc + (operandHeader data.length ++ data).length
        stack := data :: st.stack } (drop_after here)
    rw [split]
    refine .head (next_operation here encodes (execOp_push small)) ?_
    simpa [Nat.add_assoc] using later

/-- An unlocking script of data pushes leaves the operands, the last one on top. -/
theorem leaves_operands (operands : List Bytes) (sizes : ∀ data ∈ operands, data.length ≤ 0xffff) :
    Leaves c (operands.foldl addOperand []) scriptPubKey tx txInIdx operands.reverse := by
  have way := reaches_operands c (catScript (operands.foldl addOperand []) scriptPubKey) tx txInIdx operands sizes
    initialState catScript_eq
  exact ⟨_, way, by simp [initialState], by simp [initialState]⟩

end Phases
section Spending

variable {c : Crypto} {scriptSig : Script} {h : AddressHash} {tx : Transaction} {txInIdx : Nat}

def firstOperand (scriptSig : Script) : Operand := (scriptSig.parseNextOp 0).operand.getD []

/-- The second one, read where the first operation ends or fails. -/
def secondOperand (scriptSig : Script) : Operand :=
  (scriptSig.parseNextOp (scriptSig.parseNextOp 0).pc).operand.getD []

/-- A script with hash `h` was executed to a true result on the stack that the rest
of the unlocking script left. -/
def RedeemExecuted (c : Crypto) (scriptSig : Script) (h : AddressHash) (tx : Transaction) (txInIdx : Nat)
    (evaluations : List Evaluation) : Prop :=
  ∃ redeemScript rest, c.hash160 redeemScript = h ∧
    Leaves c scriptSig (payToScriptHashScript h) tx txInIdx (redeemScript :: rest) ∧
    ∃ evaluation ∈ evaluations, evaluation.scriptPubKey = redeemScript ∧
      evaluate c (catScript evaluation.scriptSig redeemScript) tx txInIdx = .ok evaluation.final ∧
      Enters c evaluation.scriptSig redeemScript tx txInIdx rest

private theorem payToScriptHash_code (h : AddressHash) :
    payToScriptHashScript h = [opHash160] ++ ((operandHeader h.bytes.length ++ h.bytes) ++ ([opEqual] ++ [])) := by
  simp [payToScriptHashScript, addOpCode, addOperand]

private theorem payToScriptHash_recognised : isPayToScriptHash (payToScriptHashScript h) = true := by
  obtain ⟨bytes, size⟩ := h
  simp [isPayToScriptHash, payToScriptHash_code, size, operandHeader, opPushData1, p2SHScriptLen, ripemd160Size]

section
variable {evaluations : List Evaluation} (accepted : validate c scriptSig (payToScriptHashScript h) tx txInIdx = .ok evaluations)
include accepted

/-- Acceptance against a script hash is two successful evaluations. -/
theorem validate_scriptHash : ∃ first second,
      evaluate c (catScript scriptSig (payToScriptHashScript h)) tx txInIdx = .ok first ∧
      evaluate c (catScript (addOperand [] scriptSig.firstOperand) scriptSig.secondOperand) tx txInIdx = .ok second ∧
      evaluations = [⟨scriptSig, payToScriptHashScript h, first⟩,
        ⟨addOperand [] scriptSig.firstOperand, scriptSig.secondOperand, second⟩] := by
  unfold validate evaluateCat at accepted
  cases ran : evaluate c (catScript scriptSig (payToScriptHashScript h)) tx txInIdx with
  | error err => simp [ran] at accepted
  | ok first =>
    simp only [ran, payToScriptHash_recognised, Bool.not_true, Bool.false_eq_true, if_false] at accepted
    simp only [firstOperand, secondOperand]
    split at accepted
    · cases accepted
    next evaluation ran' =>
      split at ran' <;> cases ran'
      next second ran' => exact ⟨first, second, rfl, ran', (Except.ok.inj accepted).symm⟩

omit accepted in
/-- Symbolic execution of the locking script: the topmost item hashes to `h`. -/
theorem passes_payToScriptHash {script : Script} {st final : ExecState}
    (way : (machine c script tx txInIdx).Reaches st final) (ended : script.length ≤ final.pc)
    (top : final.stack.validateTop = .ok ()) (here : script.drop st.pc = payToScriptHashScript h) :
    ∃ item rest, st.stack = item :: rest ∧ c.hash160 item = h := by
  rw [payToScriptHash_code] at here
  obtain ⟨t, ran, way, here, -⟩ := passes_operation way ended here (.plain (by decide))
  obtain ⟨item, rest, held, rfl⟩ := exec_hash160 ran
  obtain ⟨opCode, small, encodes⟩ := encodes_operand h.bytes (by rw [h.length_eq]; decide)
  obtain ⟨t, ran, way, here, -⟩ := passes_operation way ended here encodes
  obtain rfl := exec_push small ran
  obtain ⟨t, ran, way, here, -⟩ := passes_operation way ended here (.plain (by decide))
  obtain ⟨_, _, _, same, rfl⟩ := exec_equal ran
  cases same
  obtain rfl := passes_nothing way here
  refine ⟨item, rest, held, FixedBytes.ext ?_⟩
  by_contra different
  simp only [Option.getD_some, different, if_false] at top
  cases top

theorem not_redeemExecuted
    (locking : c.hash160 (payToScriptHashScript h) ≠ h) (second : c.hash160 scriptSig.secondOperand ≠ h) :
    ¬ RedeemExecuted c scriptSig h tx txInIdx evaluations := by
  rintro ⟨_, _, hash, -, evaluation, member, rfl, -⟩
  obtain ⟨_, _, _, _, rfl⟩ := validate_scriptHash accepted
  rcases mem_pair.mp member with rfl | rfl
  · exact locking hash
  · exact second hash

end

/-- An accepted spend executed the committed script on the rest of the stack exactly
when the unlocking script left two items, its second operand on its first one. -/
theorem validate_redeemExecuted_iff {evaluations : List Evaluation}
    (accepted : validate c scriptSig (payToScriptHashScript h) tx txInIdx = .ok evaluations) :
    RedeemExecuted c scriptSig h tx txInIdx evaluations ↔
      Leaves c scriptSig (payToScriptHashScript h) tx txInIdx [scriptSig.secondOperand, scriptSig.firstOperand] := by
  obtain ⟨first, second, ran, ran', rfl⟩ := validate_scriptHash accepted
  have first_size : scriptSig.firstOperand.length ≤ 0xffff := parseNextOp_operand_length _ _
  have handed : Enters c (addOperand [] scriptSig.firstOperand) scriptSig.secondOperand tx txInIdx
      [scriptSig.firstOperand] := (leaves_operands [scriptSig.firstOperand] (by simpa using first_size)).enters
  constructor
  · rintro ⟨redeemScript, rest, -, left, evaluation, member, rfl, -, entered⟩
    rcases mem_pair.mp member with rfl | rfl
    · have grown := congrArg length (entered.unique left.enters)
      simp at grown
    · rw [entered.unique handed] at left
      exact left
  · intro left
    obtain ⟨whole, ended, top⟩ := evaluate_ok_iff.mp ran
    obtain ⟨st, way, pc, start, stack⟩ := left.enters
    have rest := way.through whole (decide_eq_true ended)
    obtain ⟨item, items, held, hash⟩ := passes_payToScriptHash rest ended top (by rw [pc, catScript_drop])
    cases stack.symm.trans held
    exact ⟨_, _, hash, left, _, mem_pair.mpr (.inr rfl), rfl, ran', handed⟩

end Spending

def sampleRedeemScript : Script := addOpCode (addOperand [] samplePubKey) opCheckSig

def sampleScriptHash : AddressHash :=
  ⟨[35, 176, 173, 52, 119, 242, 23, 139, 192, 179, 238, 210, 110, 78, 99, 22, 244, 232, 58, 161], by decide⟩

def redeemSignature : Bytes :=
  [48, 69, 2, 33, 0, 157, 45, 48, 67, 116, 165, 213, 87, 29, 125, 140, 57, 219, 153, 200, 238, 209,
    73, 118, 125, 202, 247, 11, 225, 163, 86, 160, 131, 118, 202, 163, 79, 2, 32, 84, 95, 38, 211, 127,
    104, 176, 198, 59, 0, 149, 37, 214, 197, 39, 248, 129, 126, 136, 168, 166, 206, 57, 125, 86, 121,
    177, 187, 245, 226, 248, 227]

def redeemSigHash : HashType :=
  ⟨[112, 117, 59, 190, 117, 236, 43, 219, 27, 226, 145, 172, 195, 143, 108, 99, 193, 203, 252, 154,
    103, 58, 122, 59, 144, 227, 75, 4, 85, 27, 111, 46], by decide⟩

/-- The hash function is known at the redeem script, at the locking script that
commits to it, at the empty script and at the script of the single opcode 1. -/
def redeemCrypto : Crypto :=
  knownCrypto
    [(sampleRedeemScript, sampleScriptHash),
      (payToScriptHashScript sampleScriptHash,
        ⟨[216, 214, 192, 59, 165, 110, 202, 240, 205, 139, 123, 188, 213, 141, 2, 19, 245, 180, 62, 186], by decide⟩),
      ([], ⟨[180, 114, 162, 102, 208, 189, 137, 193, 55, 6, 164, 19, 44, 207, 177, 111, 124, 59, 159, 203], by decide⟩),
      ([0x51], ⟨[218, 23, 69, 233, 181, 73, 189, 11, 250, 26, 86, 153, 113, 199, 126, 186, 48, 205, 90, 75], by decide⟩)]
    samplePubKey redeemSignature redeemSigHash

def redeemScriptSig : Script := [redeemSignature, sampleRedeemScript].foldl addOperand []

theorem sample_redeemExecuted :
    ∃ evaluations, validate redeemCrypto redeemScriptSig (payToScriptHashScript sampleScriptHash)
        (sampleTx redeemScriptSig maxUint32 0) 0 = .ok evaluations ∧
      RedeemExecuted redeemCrypto redeemScriptSig sampleScriptHash (sampleTx redeemScriptSig maxUint32 0) 0
        evaluations := by
  obtain ⟨evaluations, accepted⟩ := exists_ok (validate redeemCrypto redeemScriptSig
    (payToScriptHashScript sampleScriptHash) (sampleTx redeemScriptSig maxUint32 0) 0) (by decide +kernel)
  have first : redeemScriptSig.firstOperand = redeemSignature := by decide +kernel
  have second : redeemScriptSig.secondOperand = sampleRedeemScript := by decide +kernel
  refine ⟨evaluations, accepted, (validate_redeemExecuted_iff accepted).mpr ?_⟩
  rw [first, second]
  exact leaves_operands [redeemSignature, sampleRedeemScript] (by decide)

/-- Pushing the redeem script alone is accepted: the empty second operand is executed. So is
pushing any true script and then swallowing the locking script. -/
theorem unexecuted_redeem_accepted : (∃ evaluations, validate redeemCrypto (addOperand [] sampleRedeemScript)
        (payToScriptHashScript sampleScriptHash) (sampleTx (addOperand [] sampleRedeemScript) maxUint32 0) 0 =
          .ok evaluations ∧
      ¬ RedeemExecuted redeemCrypto (addOperand [] sampleRedeemScript) sampleScriptHash
        (sampleTx (addOperand [] sampleRedeemScript) maxUint32 0) 0 evaluations) ∧
    ∃ evaluations, validate redeemCrypto [0x00, 0x01, 0x51, 0x18] (payToScriptHashScript sampleScriptHash)
        (sampleTx [0x00, 0x01, 0x51, 0x18] maxUint32 0) 0 = .ok evaluations ∧
      ¬ RedeemExecuted redeemCrypto [0x00, 0x01, 0x51, 0x18] sampleScriptHash
        (sampleTx [0x00, 0x01, 0x51, 0x18] maxUint32 0) 0 evaluations := by
  constructor
  · obtain ⟨evaluations, accepted⟩ := exists_ok (validate redeemCrypto (addOperand [] sampleRedeemScript)
      (payToScriptHashScript sampleScriptHash) (sampleTx (addOperand [] sampleRedeemScript) maxUint32 0) 0)
      (by decide +kernel)
    exact ⟨evaluations, accepted, not_redeemExecuted accepted (by decide +kernel) (by decide +kernel)⟩
  · obtain ⟨evaluations, accepted⟩ := exists_ok (validate redeemCrypto [0x00, 0x01, 0x51, 0x18]
      (payToScriptHashScript sampleScriptHash) (sampleTx [0x00, 0x01, 0x51, 0x18] maxUint32 0) 0) (by decide +kernel)
    exact ⟨evaluations, accepted, not_redeemExecuted accepted (by decide +kernel) (by decide +kernel)⟩

end Boxd.Script
