import Boxd.Lib.Machine
import Boxd.Message
import Boxd.Script.Code

/-! The script interpreter. Unlocking and locking scripts are concatenated around a
separator and executed as one. The state records the signature checks that succeeded;
nothing reads this record while executing. -/

namespace Boxd
open Lib Script

abbrev Stack := List Operand

def operandFalse : Operand := [0]
def operandTrue : Operand := [1]

def Operand.int (operand : Operand) : Except ScriptError Int :=
  if natBE operand < 2 ^ 63 then .ok (natBE operand) else .error .notInt64

namespace Stack

/-- The n-th element from the top, starting at 1, and nothing when out of range. -/
def topN (stack : Stack) (n : Int) : Operand :=
  if n ≤ 0 then [] else stack.getD (n - 1).toNat []

def validateTop (stack : Stack) : Except ScriptError Unit :=
  match stack with
  | [] => .error .finalStackEmpty
  | top :: _ => if natBE top = 0 then .error .finalTopStackEleFalse else .ok ()

end Stack

/-- A signature check that succeeded, with the script code it was made over. -/
structure SigCheck where
  signature : Operand
  pubKey : Operand
  scriptPubKey : Script
  deriving DecidableEq

structure ExecState where
  pc : Nat
  scriptPubKeyStart : Nat
  stack : Stack
  verified : List SigCheck
  deriving DecidableEq

/-- The cases that `execOp` tells apart. -/
inductive Action where
  | pushData | pushNum | ret | drop | dup | add | sub | equal | equalVerify | hash160 | codeSeparator
  | checkSig | checkSigVerify | checkMultiSig | checkMultiSigVerify | checkLockTimeVerify | bad
  deriving DecidableEq

def OpCode.action (opCode : OpCode) : Action :=
  if opCode ≤ opPushData4 then .pushData
  else if opCode ≤ op16 ∧ opCode ≠ opReserved then .pushNum
  else if opCode = opReturn then .ret
  else if opCode = opDrop then .drop
  else if opCode = opDup then .dup
  else if opCode = opAdd then .add
  else if opCode = opSub then .sub
  else if opCode = opEqual then .equal
  else if opCode = opEqualVerify then .equalVerify
  else if opCode = opHash160 then .hash160
  else if opCode = opCodeSeparator then .codeSeparator
  else if opCode = opCheckSig then .checkSig
  else if opCode = opCheckSigVerify then .checkSigVerify
  else if opCode = opCheckMultiSig then .checkMultiSig
  else if opCode = opCheckMultiSigVerify then .checkMultiSigVerify
  else if opCode = opCheckLockTimeVerify then .checkLockTimeVerify
  else .bad

def lockTimeThreshold : Int64 := 500000000

def checkLockTime (lockTime txLockTime : Int64) : Bool :=
  if !(decide (lockTime < lockTimeThreshold) && decide (txLockTime < lockTimeThreshold) ||
      decide (lockTimeThreshold ≤ lockTime) && decide (lockTimeThreshold ≤ txLockTime)) then false
  else decide (lockTime ≤ txLockTime)

/-- `CalcTxHashForSig`: every unlocking script is emptied except that the signed
input carries the locking script. -/
def calcTxHashForSig (c : Crypto) (scriptPubKey : Script) (originalTx : Transaction) (txInIdx : Nat) :
    Option HashType :=
  if originalTx.vin.length ≤ txInIdx then none
  else some <| c.calcTxHash
    { originalTx.toTxMessage with
      vin := originalTx.vin.mapIdx fun i txIn =>
        { txIn with scriptSig := if i = txInIdx then scriptPubKey else [] } }

def verifySig (c : Crypto) (sigStr publicKeyStr : Operand) (scriptPubKey : Script) (tx : Transaction)
    (txInIdx : Nat) : Bool :=
  match c.sigFromBytes sigStr, c.publicKeyFromBytes publicKeyStr, calcTxHashForSig c scriptPubKey tx txInIdx with
  | some sig, some publicKey, some sigHash => c.verifySignature sig publicKey sigHash
  | _, _, _ => false

/-- The loop of `OPCHECKMULTISIG`: walk the keys, moving to the next signature when one
verifies, until none is left or there are fewer keys than signatures. -/
def checkMultiSigLoop (verify : Operand → Operand → Bool) (stack : Stack) (scriptPubKey : Script) :
    (pubKeyCount sigCount : Nat) → (sigIdx pubKeyIdx : Int) → List SigCheck → Bool × List SigCheck
  | _, 0, _, _, verified => (true, verified)
  | 0, _ + 1, _, _, verified => (false, verified)
  | pubKeyCount + 1, sigCount + 1, sigIdx, pubKeyIdx, verified =>
    let signature := stack.topN sigIdx
    let pubKey := stack.topN pubKeyIdx
    if verify signature pubKey then
      let verified := ⟨signature, pubKey, scriptPubKey⟩ :: verified
      if pubKeyCount < sigCount then (false, verified)
      else checkMultiSigLoop verify stack scriptPubKey pubKeyCount sigCount (sigIdx + 1) (pubKeyIdx + 1) verified
    else if pubKeyCount < sigCount + 1 then (false, verified)
    else checkMultiSigLoop verify stack scriptPubKey pubKeyCount (sigCount + 1) sigIdx (pubKeyIdx + 1) verified

def wrapInt (n : Int) : Int := n.bmod (2 ^ 64)

section Exec

variable (c : Crypto) (script : Script) (tx : Transaction) (txInIdx : Nat)

def execCheckSig (mustVerify : Bool) (st : ExecState) : Except ScriptError ExecState :=
  match st.stack with
  | pubKey :: signature :: rest =>
    let scriptPubKey := script.drop st.scriptPubKeyStart
    if verifySig c signature pubKey scriptPubKey tx txInIdx then
      let verified := ⟨signature, pubKey, scriptPubKey⟩ :: st.verified
      .ok { st with stack := if mustVerify then rest else operandTrue :: rest, verified }
    else if mustVerify then .error .scriptSignatureVerifyFail
    else .ok { st with stack := operandFalse :: rest }
  | _ => .error .invalidStackOperation

/-- Both multi-signature opcodes: the code compares the opcode with `OPCHECKSIGVERIFY`, so
neither of them drops the result again. -/
def execCheckMultiSig (st : ExecState) : Except ScriptError ExecState :=
  if st.stack.length < 1 then .error .invalidStackOperation
  else match Operand.int (st.stack.topN 1) with
    | .error err => .error err
    | .ok pubKeyCount =>
      if pubKeyCount < 0 then .error .countNegative
      else
        let i := wrapInt (2 + pubKeyCount)
        if st.stack.length < i then .error .invalidStackOperation
        else match Operand.int (st.stack.topN i) with
          | .error err => .error err
          | .ok sigCount =>
            if sigCount < 0 then .error .countNegative
            else if pubKeyCount < sigCount then .error .scriptSignatureVerifyFail
            else
              let sigIdx := wrapInt (i + 1)
              let i := wrapInt (sigIdx + sigCount)
              if st.stack.length < wrapInt (i - 1) then .error .invalidStackOperation
              else
                let scriptPubKey := script.drop st.scriptPubKeyStart
                let (isVerified, verified) := checkMultiSigLoop
                  (fun signature pubKey => verifySig c signature pubKey scriptPubKey tx txInIdx)
                  st.stack scriptPubKey pubKeyCount.toNat sigCount.toNat sigIdx 2 st.verified
                let rest := st.stack.drop (i - 1).toNat
                .ok { st with stack := (if isVerified then operandTrue else operandFalse) :: rest, verified }

/-- Execute an operation. The program counter already points behind it. -/
def execOp (opCode : OpCode) (pushData : Operand) (st : ExecState) : Except ScriptError ExecState :=
  match opCode.action with
  | .pushData => .ok { st with stack := pushData :: st.stack }
  | .pushNum => .ok { st with stack := bytesBE ((opCode.toNat : Int) - op1.toNat + 1).natAbs :: st.stack }
  | .ret => .error .opReturn
  | .drop => match st.stack with
    | _ :: rest => .ok { st with stack := rest }
    | _ => .error .invalidStackOperation
  | .dup => match st.stack with
    | top :: rest => .ok { st with stack := top :: top :: rest }
    | _ => .error .invalidStackOperation
  | .add => match st.stack with
    | right :: left :: rest => .ok { st with stack := bytesBE (natBE left + natBE right) :: rest }
    | _ => .error .invalidStackOperation
  | .sub => match st.stack with
    | right :: left :: rest =>
      .ok { st with stack := bytesBE ((natBE left : Int) - natBE right).natAbs :: rest }
    | _ => .error .invalidStackOperation
  | .equal => match st.stack with
    | right :: left :: rest =>
      .ok { st with stack := (if left = right then operandTrue else operandFalse) :: rest }
    | _ => .error .invalidStackOperation
  | .equalVerify => match st.stack with
    | right :: left :: rest =>
      if left = right then .ok { st with stack := rest } else .error .scriptEqualVerify
    | _ => .error .invalidStackOperation
  | .hash160 => match st.stack with
    | top :: rest => .ok { st with stack := (c.hash160 top).bytes :: rest }
    | _ => .error .invalidStackOperation
  | .codeSeparator => .ok { st with scriptPubKeyStart := st.pc }
  | .checkSig => execCheckSig c script tx txInIdx false st
  | .checkSigVerify => execCheckSig c script tx txInIdx true st
  | .checkMultiSig => execCheckMultiSig c script tx txInIdx st
  | .checkMultiSigVerify => execCheckMultiSig c script tx txInIdx st
  | .checkLockTimeVerify => match st.stack with
    | top :: rest =>
      if checkLockTime (Int64.ofNat (natBE top)) tx.lockTime then .ok { st with stack := rest }
      else .error .scriptLockTimeVerifyFail
    | _ => .error .invalidStackOperation
  | .bad => .error .badOpcode

/-- The loop of `evaluate`. -/
def machine : Machine ExecState ScriptError where
  halted st := script.length ≤ st.pc
  step st :=
    let next := script.parseNextOp st.pc
    match next.err with
    | some err => .error err
    | none => execOp c script tx txInIdx next.opCode (next.operand.getD []) { st with pc := next.pc }

def initialState : ExecState := ⟨0, 0, [], []⟩

/-- Run the script to its end and check the top of the stack. Each turn consumes a byte, so
the length of the script bounds their number. -/
def evaluate : Except ScriptError ExecState :=
  match (machine c script tx txInIdx).run script.length initialState with
  | .error err => .error err
  | .ok final => match final.stack.validateTop with
    | .error err => .error err
    | .ok () => .ok final

end Exec

def p2SHScriptLen : Nat := 23

def isPayToScriptHash (script : Script) : Bool :=
  script.length == p2SHScriptLen && script.getD 0 0 == opHash160 && script.getD 1 0 == ripemd160Size &&
    script.getD 22 0 == opEqual

/-- One successful evaluation: the unlocking script, the locking script, and the
state in which their concatenation ended. -/
structure Evaluation where
  scriptSig : Script
  scriptPubKey : Script
  final : ExecState
  deriving DecidableEq

/-- The byte stream that is executed for an unlocking and a locking script. -/
def catScript (scriptSig scriptPubKey : Script) : Script :=
  (addScript [] scriptSig).addOpCode opCodeSeparator |>.addScript scriptPubKey

def evaluateCat (c : Crypto) (scriptSig scriptPubKey : Script) (tx : Transaction) (txInIdx : Nat) :
    Except ScriptError Evaluation :=
  match evaluate c (catScript scriptSig scriptPubKey) tx txInIdx with
  | .error err => .error err
  | .ok final => .ok ⟨scriptSig, scriptPubKey, final⟩

/-- `Validate`, with the evaluations that were made. For a script hash the first operand of
the unlocking script is the signature and the second the redeem script; errors of these
two reads are ignored. -/
def validate (c : Crypto) (scriptSig scriptPubKey : Script) (tx : Transaction) (txInIdx : Nat) :
    Except ScriptError (List Evaluation) :=
  match evaluateCat c scriptSig scriptPubKey tx txInIdx with
  | .error err => .error err
  | .ok first =>
    if !isPayToScriptHash scriptPubKey then .ok [first]
    else
      let sig := scriptSig.parseNextOp 0
      let newScriptSig := addOperand [] (sig.operand.getD [])
      let redeemScript := (scriptSig.parseNextOp sig.pc).operand.getD []
      match evaluateCat c newScriptSig redeemScript tx txInIdx with
      | .error err => .error err
      | .ok second => .ok [first, second]

end Boxd
