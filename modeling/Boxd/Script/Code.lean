import Boxd.Types

/-! Scripts as byte strings: how operations are appended to them and how the next
operation is read back. -/

namespace Boxd
open Lib

abbrev OpCode := UInt8
abbrev Operand := Bytes
abbrev Script := Bytes

def op0 : OpCode := 0x00
def opPushData1 : OpCode := 0x4c
def opPushData2 : OpCode := 0x4d
def opPushData4 : OpCode := 0x4e
def opReserved : OpCode := 0x50
def op1 : OpCode := 0x51
def op16 : OpCode := 0x60
def opReturn : OpCode := 0x6a
def opDrop : OpCode := 0x75
def opDup : OpCode := 0x76
def opEqual : OpCode := 0x87
def opEqualVerify : OpCode := 0x88
def opAdd : OpCode := 0x93
def opSub : OpCode := 0x94
def opHash160 : OpCode := 0xa9
def opCodeSeparator : OpCode := 0xab
def opCheckSig : OpCode := 0xac
def opCheckSigVerify : OpCode := 0xad
def opCheckMultiSig : OpCode := 0xae
def opCheckMultiSigVerify : OpCode := 0xaf
def opCheckLockTimeVerify : OpCode := 0xb0
def opContract : OpCode := 0xb1

def ripemd160Size : UInt8 := 20

inductive ScriptError where
  | scriptBound | noEnoughDataOpPushData1 | noEnoughDataOpPushData2 | noEnoughDataOpPushData4
  | invalidStackOperation | badOpcode | scriptEqualVerify | scriptSignatureVerifyFail
  | addressNotApplicable | opReturn | invalidSplitAddrScript | scriptLockTimeVerifyFail
  | invalidContractScript | invalidContractParams | finalStackEmpty | finalTopStackEleFalse
  | countNegative | notInt64 | invalidPKHash | nonceSize | txHashSize | uintSize
  deriving DecidableEq

namespace Script

variable (script : Script)

def addOpCode (opCode : OpCode) : Script := script ++ [opCode]

def operandHeader (dataLen : Nat) : Bytes :=
  if dataLen < opPushData1.toNat then [UInt8.ofNat dataLen]
  else if dataLen ≤ 0xff then [opPushData1, UInt8.ofNat dataLen]
  else if dataLen ≤ 0xffff then opPushData2 :: bytesLE 2 dataLen
  else opPushData4 :: bytesLE 4 dataLen

def addOperand (operand : Bytes) : Script :=
  script ++ operandHeader operand.length ++ operand

def addScript (script other : Script) : Script := script ++ other

/-- What `parseNextOp` returns. Its position is meaningful even when it reports an
error, because one caller ignores the error. -/
structure Parsed where
  opCode : OpCode
  operand : Option Operand
  pc : Nat
  err : Option ScriptError
  deriving DecidableEq

/-- The size of a push's operand and where the operand starts. The four byte size is decoded
by `Uint16`, so only its first two bytes count. -/
def operandSize (opCode : OpCode) (pc : Nat) : Except ScriptError (Nat × Nat) :=
  if opCode < opPushData1 then .ok (opCode.toNat, pc)
  else if opCode = opPushData1 then
    match script.drop pc with
    | size :: _ => .ok (size.toNat, pc + 1)
    | [] => .error .noEnoughDataOpPushData1
  else if opCode = opPushData2 then
    match script.drop pc with
    | low :: high :: _ => .ok (natLE [low, high], pc + 2)
    | _ => .error .noEnoughDataOpPushData2
  else
    match script.drop pc with
    | low :: high :: _ :: _ :: _ => .ok (natLE [low, high], pc + 4)
    | _ => .error .noEnoughDataOpPushData4

/-- Get the next opcode and operand. Only data pushes have an operand. -/
def parseNextOp (pc : Nat) : Parsed :=
  match script.drop pc with
  | [] => ⟨0, none, pc, some .scriptBound⟩
  | opCode :: _ =>
    if opPushData4 < opCode then ⟨opCode, none, pc + 1, none⟩
    else match operandSize script opCode (pc + 1) with
      | .error err => ⟨opCode, none, pc + 1, some err⟩
      | .ok (size, start) =>
        if script.length - start < size then ⟨opCode, none, start, some .scriptBound⟩
        else ⟨opCode, some ((script.drop start).take size), start + size, none⟩

/-- An element of the list `parse` returns. -/
inductive Element where
  | operand (data : Operand)
  | opCode (code : OpCode)
  | error (err : ScriptError)
  deriving DecidableEq

def Element.isError : Element → Bool
  | .error _ => true
  | _ => false

def parseFrom (script : Script) : Nat → Nat → List Element
  | 0, _ => []
  | fuel + 1, pc =>
    if pc < script.length then
      let next := parseNextOp script pc
      match next.err, next.operand with
      | some err, _ => [.error err]
      | none, some data => .operand data :: parseFrom script fuel next.pc
      | none, none => .opCode next.opCode :: parseFrom script fuel next.pc
    else []

/-- The whole script as operators and operands, with an error at the end if it cannot be
parsed. Every operation takes a byte. -/
def parse : List Element := script.parseFrom script.length 0

/-- The n-th operation, counting from `pcStart`. -/
def getNthOp (script : Script) (pcStart : Nat) : Nat → Except ScriptError Parsed
  | 0 =>
    let next := script.parseNextOp pcStart
    match next.err with
    | some err => .error err
    | none => .ok next
  | n + 1 =>
    let next := script.parseNextOp pcStart
    match next.err with
    | some err => .error err
    | none => getNthOp script next.pc n

end Script

def payToPubKeyHashScript (pubKeyHash : AddressHash) : Script :=
  (Script.addOpCode [] opDup).addOpCode opHash160 |>.addOperand pubKeyHash.bytes
    |>.addOpCode opEqualVerify |>.addOpCode opCheckSig

/-- `PayToPubKeyHashCLTVScript`: `big.NewInt(t).Bytes()` drops the sign of `t`. -/
def payToPubKeyHashCLTVScript (pubKeyHash : AddressHash) (blockTimeOrHeight : Int64) : Script :=
  (Script.addOperand [] (bytesBE blockTimeOrHeight.toInt.natAbs)).addOpCode opCheckLockTimeVerify
    |>.addOpCode opDup |>.addOpCode opHash160 |>.addOperand pubKeyHash.bytes
    |>.addOpCode opEqualVerify |>.addOpCode opCheckSig

/-- The output script that `IsPayToScriptHash` recognises. -/
def payToScriptHashScript (scriptHash : AddressHash) : Script :=
  (Script.addOpCode [] opHash160).addOperand scriptHash.bytes |>.addOpCode opEqual

def standardCoinbaseSignatureScript (height : UInt32) : Script :=
  (Script.addOperand [] (bytesBE height.toNat)).addOperand (bytesBE 0)

end Boxd
