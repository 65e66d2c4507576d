import Boxd.Proofs.ScriptParse

/-! What one operation can change, and how a completed evaluation passes through
the boundaries of its script. -/

namespace Boxd.Script
open Lib Lib.Machine List Relation

section Effect

variable {c : Crypto} {script : Script} {tx : Transaction} {txInIdx : Nat}

/-- The recorded check was made over the given script code and succeeded. -/
structure Checked (c : Crypto) (scriptPubKey : Script) (tx : Transaction) (txInIdx : Nat) (check : SigCheck) :
    Prop where
  code : check.scriptPubKey = scriptPubKey
  valid : verifySig c check.signature check.pubKey scriptPubKey tx txInIdx = true

/-- What an operation may do besides changing the stack: the separator moves the
start of the script code, and the others only add checks over the current code. -/
structure Effect (c : Crypto) (script : Script) (tx : Transaction) (txInIdx : Nat) (opCode : OpCode)
    (st t : ExecState) : Prop where
  pc : t.pc = st.pc
  start : t.scriptPubKeyStart = st.scriptPubKeyStart ∨ opCode = opCodeSeparator ∧ t.scriptPubKeyStart = st.pc
  verified : ∀ check ∈ t.verified, check ∈ st.verified ∨
    Checked c (script.drop st.scriptPubKeyStart) tx txInIdx check

variable {opCode : OpCode} {st : ExecState}

private theorem Effect.stack {stack : Stack} : Effect c script tx txInIdx opCode st { st with stack } :=
  ⟨rfl, .inl rfl, fun _ member => .inl member⟩

private theorem checkMultiSigLoop_verified {stack : Stack} {scriptPubKey : Script} (pubKeyCount : Nat) :
    ∀ (sigCount : Nat) (sigIdx pubKeyIdx : Int) (verified : List SigCheck),
      ∀ check ∈ (checkMultiSigLoop (fun signature pubKey => verifySig c signature pubKey scriptPubKey tx txInIdx)
        stack scriptPubKey pubKeyCount sigCount sigIdx pubKeyIdx verified).2,
      check ∈ verified ∨ Checked c scriptPubKey tx txInIdx check := by
  induction pubKeyCount with
  | zero =>
    intro sigCount sigIdx pubKeyIdx verified check member
    cases sigCount <;> exact .inl member
  | succ pubKeyCount ih =>
    intro sigCount sigIdx pubKeyIdx verified check member
    cases sigCount with
    | zero => exact .inl member
    | succ sigCount =>
      have added (valid : verifySig c (stack.topN sigIdx) (stack.topN pubKeyIdx) scriptPubKey tx txInIdx = true)
          (known : check ∈ ⟨stack.topN sigIdx, stack.topN pubKeyIdx, scriptPubKey⟩ :: verified) :
          check ∈ verified ∨ Checked c scriptPubKey tx txInIdx check := by
        rcases mem_cons.mp known with rfl | old
        · exact .inr ⟨rfl, valid⟩
        · exact .inl old
      simp only [checkMultiSigLoop] at member
      split_ifs at member with valid few few
      · exact added valid member
      · rcases ih _ _ _ _ check member with known | checked
        · exact added valid known
        · exact .inr checked
      · exact .inl member
      · exact ih _ _ _ _ check member

variable {t : ExecState}

private theorem execCheckSig_effect {mustVerify : Bool}
    (ran : execCheckSig c script tx txInIdx mustVerify st = .ok t) : Effect c script tx txInIdx opCode st t := by
  unfold execCheckSig at ran
  split at ran
  next pubKey signature rest held =>
    simp only at ran
    split at ran
    next valid =>
      cases ran
      refine ⟨rfl, .inl rfl, fun check member => ?_⟩
      rcases mem_cons.mp member with rfl | old
      · exact .inr ⟨rfl, valid⟩
      · exact .inl old
    next =>
      split at ran <;> cases ran
      exact .stack
  · cases ran

private theorem execCheckMultiSig_effect (ran : execCheckMultiSig c script tx txInIdx st = .ok t) : Effect c script tx txInIdx opCode st t := by
  unfold execCheckMultiSig at ran
  split_ifs at ran
  split at ran
  · cases ran
  simp only at ran
  split_ifs at ran
  split at ran
  · cases ran
  split at ran
  · cases ran
  split at ran
  · cases ran
  split at ran
  · cases ran
  cases ran
  exact ⟨rfl, .inl rfl, fun check member => checkMultiSigLoop_verified _ _ _ _ _ check member⟩

private theorem action_codeSeparator : ∀ opCode, opCode.action = .codeSeparator → opCode = opCodeSeparator := by
  rintro ⟨⟨code⟩⟩
  revert code
  decide +kernel

theorem execOp_effect {pushData : Operand}
    (ran : execOp c script tx txInIdx opCode pushData st = .ok t) : Effect c script tx txInIdx opCode st t := by
  cases action : opCode.action <;> simp only [execOp, action] at ran
  case codeSeparator =>
    cases ran
    exact ⟨rfl, .inr ⟨action_codeSeparator opCode action, rfl⟩, fun _ member => .inl member⟩
  case checkSig | checkSigVerify => exact execCheckSig_effect ran
  case checkMultiSig | checkMultiSigVerify => exact execCheckMultiSig_effect ran
  case ret | bad => cases ran
  case pushData | pushNum => cases ran; exact .stack
  case drop | dup | add | sub | equal | hash160 =>
    split at ran <;> cases ran
    exact .stack
  case equalVerify | checkLockTimeVerify =>
    split at ran
    · split at ran <;> cases ran
      exact .stack
    · cases ran

section Inversion

variable {pushData : Operand} {st t : ExecState}

theorem execOp_push {opCode : OpCode} (small : opCode ≤ opPushData4) :
    execOp c script tx txInIdx opCode pushData st = .ok { st with stack := pushData :: st.stack } := by
  have action : opCode.action = .pushData := if_pos small
  simp only [execOp, action]

theorem exec_push {opCode : OpCode} (small : opCode ≤ opPushData4)
    (ran : execOp c script tx txInIdx opCode pushData st = .ok t) : t = { st with stack := pushData :: st.stack } := by
  cases (execOp_push small).symm.trans ran
  rfl

theorem exec_dup (ran : execOp c script tx txInIdx opDup pushData st = .ok t) :
    ∃ top rest, st.stack = top :: rest ∧ t = { st with stack := top :: top :: rest } := by
  simp only [execOp, show opDup.action = .dup by decide] at ran
  split at ran <;> cases ran
  next top rest held => exact ⟨top, rest, held, rfl⟩

theorem exec_hash160 (ran : execOp c script tx txInIdx opHash160 pushData st = .ok t) :
    ∃ top rest, st.stack = top :: rest ∧ t = { st with stack := (c.hash160 top).bytes :: rest } := by
  simp only [execOp, show opHash160.action = .hash160 by decide] at ran
  split at ran <;> cases ran
  next top rest held => exact ⟨top, rest, held, rfl⟩

theorem exec_equal (ran : execOp c script tx txInIdx opEqual pushData st = .ok t) :
    ∃ right left rest, st.stack = right :: left :: rest ∧
      t = { st with stack := (if left = right then operandTrue else operandFalse) :: rest } := by
  simp only [execOp, show opEqual.action = .equal by decide] at ran
  split at ran <;> cases ran
  next right left rest held => exact ⟨right, left, rest, held, rfl⟩

theorem exec_equalVerify (ran : execOp c script tx txInIdx opEqualVerify pushData st = .ok t) :
    ∃ top rest, st.stack = top :: top :: rest ∧ t = { st with stack := rest } := by
  simp only [execOp, show opEqualVerify.action = .equalVerify by decide] at ran
  split at ran
  next right left rest held =>
    split at ran <;> cases ran
    next same => exact ⟨right, rest, same ▸ held, rfl⟩
  · cases ran

theorem exec_checkSig (ran : execOp c script tx txInIdx opCheckSig pushData st = .ok t) :
    ∃ pubKey signature rest, st.stack = pubKey :: signature :: rest ∧
      t = if verifySig c signature pubKey (script.drop st.scriptPubKeyStart) tx txInIdx then
          { st with
            stack := operandTrue :: rest
            verified := ⟨signature, pubKey, script.drop st.scriptPubKeyStart⟩ :: st.verified }
        else { st with stack := operandFalse :: rest } := by
  simp only [execOp, show opCheckSig.action = .checkSig by decide, execCheckSig] at ran
  split at ran
  next pubKey signature rest held =>
    refine ⟨pubKey, signature, rest, held, ?_⟩
    split at ran
    next valid => cases ran; simp [valid]
    next invalid => cases ran; simp [invalid]
  · cases ran

theorem exec_checkLockTimeVerify (ran : execOp c script tx txInIdx opCheckLockTimeVerify pushData st = .ok t) :
    ∃ top rest, st.stack = top :: rest ∧ checkLockTime (Int64.ofNat (natBE top)) tx.lockTime = true ∧
      t = { st with stack := rest } := by
  simp only [execOp, show opCheckLockTimeVerify.action = .checkLockTimeVerify by decide] at ran
  split at ran
  next top rest held =>
    split at ran <;> cases ran
    next reached => exact ⟨top, rest, held, reached, rfl⟩
  · cases ran

end Inversion

theorem next_iff : (machine c script tx txInIdx).Next st t ↔ st.pc < script.length ∧ ∃ opCode operand next,
      parseNextOp script st.pc = ⟨opCode, operand, next, none⟩ ∧
        execOp c script tx txInIdx opCode (operand.getD []) { st with pc := next } = .ok t := by
  simp only [Next, machine, decide_eq_false_iff_not, not_le]
  refine and_congr_right fun _ => ?_
  rcases parsed : parseNextOp script st.pc with ⟨opCode, operand, next, _ | err⟩
  · constructor
    · intro ran
      exact ⟨opCode, operand, next, rfl, ran⟩
    · rintro ⟨_, _, _, same, ran⟩
      cases same
      exact ran
  · constructor
    · intro ran
      cases ran
    · rintro ⟨_, _, _, same, _⟩
      cases same

theorem next_opAt (moves : (machine c script tx txInIdx).Next st t) : OpAt script st.pc t.pc := by
  obtain ⟨_, opCode, operand, next, parsed, ran⟩ := next_iff.mp moves
  rw [(execOp_effect ran).pc]
  exact ⟨opCode, operand, parsed⟩

theorem machine_ranked : (machine c script tx txInIdx).Ranked (fun st => script.length - st.pc) := by
  constructor
  · intro st t moves
    have bounds := (next_opAt moves).bounds
    simp only
    omega
  · intro st rank
    exact decide_eq_true (Nat.le_of_sub_eq_zero rank)

variable {final : ExecState}

/-- A successful evaluation is a path to the end of the script that leaves a
non-zero value on top. -/
theorem evaluate_ok_iff : evaluate c script tx txInIdx = .ok final ↔
      (machine c script tx txInIdx).Reaches initialState final ∧ script.length ≤ final.pc ∧
        final.stack.validateTop = .ok () := by
  have ran_iff (t : ExecState) : (machine c script tx txInIdx).run script.length initialState = .ok t ↔
      (machine c script tx txInIdx).Reaches initialState t ∧ script.length ≤ t.pc := by
    rw [run_ok_iff machine_ranked (Nat.sub_le _ _)]
    simp only [machine, decide_eq_true_eq]
  rw [← and_assoc, ← ran_iff]
  unfold evaluate
  split
  next err failed => simp [failed]
  next last ran =>
    split
    next err failed =>
      constructor
      · intro same
        cases same
      · rintro ⟨same, valid⟩
        cases ran.symm.trans same
        cases failed.symm.trans valid
    next valid =>
      constructor
      · intro same
        cases same
        exact ⟨ran, valid⟩
      · rintro ⟨same, _⟩
        exact ran.symm.trans same

theorem visits (whole : (machine c script tx txInIdx).Reaches initialState final)
    (ended : script.length ≤ final.pc) {pc : Nat} (boundary : Boundary script pc) :
    ∃ st, (machine c script tx txInIdx).Reaches initialState st ∧ (machine c script tx txInIdx).Reaches st final ∧
      st.pc = pc := by
  induction boundary with
  | refl => exact ⟨initialState, .refl _, whole, rfl⟩
  | @tail pc next _ read ih =>
    obtain ⟨st, before, after, rfl⟩ := ih
    have bounds := read.bounds
    rcases ReflTransGen.cases_head after with rfl | ⟨t, moves, rest⟩
    · omega
    · exact ⟨t, before.trans (.single moves), rest, OpAt.unique (next_opAt moves) read⟩

theorem reaches_boundary (way : (machine c script tx txInIdx).Reaches initialState st) : Boundary script st.pc :=
  way.invariant (fun st => Boundary script st.pc) (fun _ _ moves held => held.tail (next_opAt moves)) .refl

private theorem reaches_pc_le (way : (machine c script tx txInIdx).Reaches st t) : st.pc ≤ t.pc :=
  way.invariant (fun t => st.pc ≤ t.pc)
    (fun _ _ moves below => le_trans below (next_opAt moves).bounds.1.le) le_rfl

theorem reaches_unique (first : (machine c script tx txInIdx).Reaches initialState st)
    (second : (machine c script tx txInIdx).Reaches initialState t) (same : st.pc = t.pc) : st = t := by
  have stops {s u : ExecState} (way : (machine c script tx txInIdx).Reaches s u) (same : s.pc = u.pc) : s = u := by
    rcases ReflTransGen.cases_head way with rfl | ⟨middle, moves, rest⟩
    · rfl
    · have further := (next_opAt moves).bounds.1
      have below := reaches_pc_le rest
      omega
  rcases first.total second with way | way
  · exact stops way same
  · exact (stops way same.symm).symm

/-- Where script code can start: at the beginning, or behind a byte that was executed. -/
def CodeStart (script : Script) (start : Nat) : Prop := start = 0 ∨ ∃ pc, Boundary script pc ∧ start = pc + 1

/-- Every check was made over script code that starts at the beginning or right
after a separator. -/
structure Recorded (c : Crypto) (script : Script) (tx : Transaction) (txInIdx : Nat) (st : ExecState) : Prop where
  start : CodeStart script st.scriptPubKeyStart
  verified : ∀ check ∈ st.verified, ∃ start, CodeStart script start ∧ Checked c (script.drop start) tx txInIdx check

private theorem Recorded.next (moves : (machine c script tx txInIdx).Next st t)
    (boundary : Boundary script st.pc) (recorded : Recorded c script tx txInIdx st) :
    Recorded c script tx txInIdx t := by
  obtain ⟨_, opCode, operand, next, parsed, ran⟩ := next_iff.mp moves
  have effect := execOp_effect ran
  constructor
  · rcases effect.start with kept | ⟨rfl, moved⟩
    · exact kept ▸ recorded.start
    · obtain ⟨code, _, encodes, _, rfl⟩ := parseNextOp_ok_iff.mp parsed
      cases encodes with
      | plain _ => exact .inr ⟨st.pc, boundary, moved⟩
      | push header data small _ _ => exact absurd small (by decide)
  · intro check member
    rcases effect.verified check member with old | checked
    · exact recorded.verified check old
    · exact ⟨st.scriptPubKeyStart, recorded.start, checked⟩

theorem reaches_recorded (way : (machine c script tx txInIdx).Reaches initialState st) :
    Recorded c script tx txInIdx st := by
  have both := way.invariant (fun st => Boundary script st.pc ∧ Recorded c script tx txInIdx st)
    (fun _ _ moves held => ⟨held.1.tail (next_opAt moves), held.2.next moves held.1⟩)
    ⟨.refl, .inl rfl, by simp [initialState]⟩
  exact both.2

theorem next_operation {operand : Option Operand} {code rest : Bytes}
    (here : script.drop st.pc = code ++ rest) (encodes : Encodes opCode operand code)
    (ran : execOp c script tx txInIdx opCode (operand.getD []) { st with pc := st.pc + code.length } = .ok t) :
    (machine c script tx txInIdx).Next st t := by
  have parsed := parseNextOp_ok_iff.mpr ⟨code, rest, encodes, here, rfl⟩
  have bounds := OpAt.bounds ⟨_, _, parsed⟩
  exact next_iff.mpr ⟨by omega, opCode, operand, _, parsed, ran⟩

section
variable (way : (machine c script tx txInIdx).Reaches st final)
include way

/-- Follow a completed run over one operation whose bytes are known. -/
theorem passes_operation {operand : Option Operand} {code rest : Bytes} (ended : script.length ≤ final.pc)
    (here : script.drop st.pc = code ++ rest) (encodes : Encodes opCode operand code) :
    ∃ t, execOp c script tx txInIdx opCode (operand.getD []) { st with pc := st.pc + code.length } = .ok t ∧
      (machine c script tx txInIdx).Reaches t final ∧ script.drop t.pc = rest ∧ t.pc = st.pc + code.length := by
  have parsed := parseNextOp_ok_iff.mpr ⟨code, rest, encodes, here, rfl⟩
  have bounds := OpAt.bounds ⟨_, _, parsed⟩
  rcases ReflTransGen.cases_head way with rfl | ⟨t, moves, remaining⟩
  · omega
  · obtain ⟨_, _, _, _, same, ran⟩ := next_iff.mp moves
    cases parsed.symm.trans same
    have kept : t.pc = st.pc + code.length := (execOp_effect ran).pc
    refine ⟨t, ran, remaining, ?_, kept⟩
    rw [kept, ← drop_drop, here, drop_left]

theorem passes_nothing (here : script.drop st.pc = []) : final = st :=
  way.of_halted (decide_eq_true (drop_eq_nil_iff.mp here))

end

end Effect

section Cat

variable {c : Crypto} {scriptSig scriptPubKey : Script} {tx : Transaction} {txInIdx : Nat}

theorem catScript_eq : catScript scriptSig scriptPubKey = scriptSig ++ opCodeSeparator :: scriptPubKey := by
  simp [catScript, addScript, addOpCode]

theorem catScript_drop : (catScript scriptSig scriptPubKey).drop (scriptSig.length + 1) = scriptPubKey := by
  rw [catScript_eq, ← drop_drop, drop_left]
  rfl

/-- When the unlocking script is read on its own, the locking script is entered with
the stack it left, and is itself the script code. -/
theorem enters_locking {final : ExecState} (complete : Complete scriptSig)
    (whole : (machine c (catScript scriptSig scriptPubKey) tx txInIdx).Reaches initialState final)
    (ended : (catScript scriptSig scriptPubKey).length ≤ final.pc) :
    ∃ st, (machine c (catScript scriptSig scriptPubKey) tx txInIdx).Reaches initialState st ∧
      st.pc = scriptSig.length ∧
      (machine c (catScript scriptSig scriptPubKey) tx txInIdx).Reaches
        { st with pc := scriptSig.length + 1, scriptPubKeyStart := scriptSig.length + 1 } final := by
  have ends := (complete_iff_boundary.mp complete).append (opCodeSeparator :: scriptPubKey)
  rw [← catScript_eq] at ends
  obtain ⟨st, before, after, same⟩ := visits whole ended ends
  have here : (catScript scriptSig scriptPubKey).drop st.pc = [opCodeSeparator] ++ scriptPubKey := by
    rw [same, catScript_eq, drop_left]
    rfl
  obtain ⟨t, ran, remaining, -, -⟩ := passes_operation after ended here (.plain (by decide))
  refine ⟨st, before, same, ?_⟩
  cases ran
  simpa [same] using remaining

/-- Script code of the length of the locking script is the locking script, and it is
only reached when the unlocking script is read on its own. -/
theorem codeStart_complete {start : Nat} (nonempty : scriptPubKey ≠ [])
    (allowed : CodeStart (catScript scriptSig scriptPubKey) start)
    (same : (catScript scriptSig scriptPubKey).drop start = scriptPubKey) : Complete scriptSig := by
  have positive := length_pos_iff.mpr nonempty
  have total := congrArg length same
  rw [length_drop, catScript_eq, length_append, length_cons] at total
  rcases allowed with rfl | ⟨pc, boundary, rfl⟩
  · omega
  · rw [catScript_eq] at boundary
    have last : pc = scriptSig.length := by omega
    exact complete_iff_boundary.mpr (last ▸ boundary.of_append (by omega))

/-- What acceptance means for an output that is not recognised as a script hash. -/
theorem validate_plain {evaluations : List Evaluation} (plain : isPayToScriptHash scriptPubKey = false)
    (accepted : validate c scriptSig scriptPubKey tx txInIdx = .ok evaluations) :
    ∃ final, evaluate c (catScript scriptSig scriptPubKey) tx txInIdx = .ok final ∧
      evaluations = [⟨scriptSig, scriptPubKey, final⟩] := by
  unfold validate evaluateCat at accepted
  cases ran : evaluate c (catScript scriptSig scriptPubKey) tx txInIdx with
  | error err => simp [ran] at accepted
  | ok final =>
    refine ⟨final, rfl, ?_⟩
    simpa [ran, plain] using accepted.symm

end Cat
end Boxd.Script
