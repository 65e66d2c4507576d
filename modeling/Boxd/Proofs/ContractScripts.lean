import Boxd.Chain.System
import Boxd.Proofs.ScriptReads

/-! Contract scripts: what is built is read back, and the parser that goes through the
script reads the same fields as the accessors that know their positions. -/

namespace Boxd.Script
open Lib List Script

variable {script : Script} {pc : Nat}

variable {size : UInt8}

theorem nthOperand_direct (here : script[pc]? = some size) (small : size < opPushData1)
    (room : pc + 1 + size.toNat ≤ script.length) :
    script.nthOperand pc 0 = .ok ((script.drop (pc + 1)).take size.toNat, pc + 1 + size.toNat) := by
  simp only [nthOperand, getNthOp, parseNextOp_direct here small room, Except.map, Option.getD_some]

/-- The bytes between two positions. -/
def field (script : Script) (start size : Nat) : Bytes := (script.drop start).take size

theorem field_length {start size : Nat} (room : start + size ≤ script.length) : (script.field start size).length = size := by
  simp only [field, length_take, length_drop]
  omega

/-- The parameters at their positions. -/
def contractParams (script : Script) (long : script.length = 66) : VMTxParams where
  sender := ⟨script.field 2 20, field_length (by omega)⟩
  receiver := ⟨script.field 23 20, field_length (by omega)⟩
  nonce := .ofNat (natLE (script.field 44 8))
  gasLimit := .ofNat (natLE (script.field 53 8))
  version := (UInt32.ofNat (natLE (script.field 62 4))).toInt32

/-- The operands of a recognised script, at their positions. -/
structure ContractFields (script : Script) : Prop where
  long : script.length = 66
  begins : script.parseNextOp 0 = ⟨opContract, none, 1, none⟩
  sender : script.nthOperand 1 0 = .ok (script.field 2 20, 22)
  receiver : script.nthOperand 22 0 = .ok (script.field 23 20, 43)
  nonce : script.nthOperand 43 0 = .ok (script.field 44 8, 52)
  gasLimit : script.nthOperand 52 0 = .ok (script.field 53 8, 61)
  version : script.nthOperand 61 0 = .ok (script.field 62 4, 66)
  ends : (script.parseNextOp 66).err = some .scriptBound

theorem contractFields (recognised : script.isContractPubkey = true) : ContractFields script := by
  simp only [isContractPubkey, Bool.and_eq_true, beq_iff_eq] at recognised
  obtain ⟨⟨⟨⟨⟨⟨long, first⟩, second⟩, third⟩, fourth⟩, fifth⟩, sixth⟩ := recognised
  have byte {n : Nat} {value : UInt8} (inside : n < 66) (same : script.getD n 0 = value) : script[n]? = some value :=
    getElem?_of_getD (by omega) same
  have begins : script.drop 0 = opContract :: script.drop 1 := by
    obtain ⟨inside, same⟩ := List.getElem?_eq_some_iff.mp (byte (by decide) first)
    rw [drop_eq_getElem_cons inside, same]
  refine ⟨long, ?_, nthOperand_direct (byte (by decide) second) (by decide) ?_,
    nthOperand_direct (byte (by decide) third) (by decide) ?_, nthOperand_direct (byte (by decide) fourth) (by decide) ?_,
    nthOperand_direct (byte (by decide) fifth) (by decide) ?_, nthOperand_direct (byte (by decide) sixth) (by decide) ?_, ?_⟩
  · simp only [parseNextOp, begins, if_pos (show opPushData4 < opContract by decide), Nat.zero_add]
  · rw [long]; decide
  · rw [long]; decide
  · rw [long]; decide
  · rw [long]; decide
  · rw [long]; decide
  · simp [parseNextOp, drop_of_length_le (Nat.le_of_eq long)]

theorem ContractFields.parsed (fields : ContractFields script) :
    script.parseContractParams = .ok (script.contractParams fields.long) := by
  have sized {start size : Nat} (room : start + size ≤ 66) : (script.field start size).length = size :=
    field_length (by have := fields.long; omega)
  simp [parseContractParams, readAddress, readUint64, readUint32, fields.begins, fields.sender, fields.receiver, fields.nonce,
    fields.gasLimit, fields.version, fields.ends, sized, contractParams, bind, Except.bind]

section
variable {sender : AddressHash} {contract : Option AddressHash} {gasLimit nonce : UInt64} {version : Int32}
  (made : makeContractScriptPubkey sender contract gasLimit nonce version = .ok script)
include made

theorem makeContractScriptPubkey_isContract : script.isContractPubkey = true := by
  unfold makeContractScriptPubkey at made
  split_ifs at made
  cases made
  have own := sender.length_eq
  have called := (contract.getD zeroAddressHash).length_eq
  simp [isContractPubkey, addOpCode, addOperand, operandHeader, own, called,
    List.getD_eq_getElem?_getD, opPushData1, opContract, ripemd160Size]

theorem parseContractParams_made :
    script.parseContractParams = .ok ⟨sender, contract.getD zeroAddressHash, gasLimit, nonce, version⟩ := by
  rw [(contractFields (makeContractScriptPubkey_isContract made)).parsed]
  unfold makeContractScriptPubkey at made
  split_ifs at made
  cases made
  have own := sender.length_eq
  have called := (contract.getD zeroAddressHash).length_eq
  have small : (20 : Nat) < opPushData1.toNat ∧ (8 : Nat) < opPushData1.toNat ∧ (4 : Nat) < opPushData1.toNat := by decide
  simp [contractParams, field, addOpCode, addOperand, operandHeader, own, called, small,
    drop_append, drop_of_length_le, take_of_length_le, natLE_bytesLE]

end

/-- The fields of every script that can be built are read back with the type, and whatever
script is recognised, the parser succeeds and agrees with the accessors. -/
theorem contract_scripts_parse : (∀ sender contract gasLimit nonce version script,
      makeContractScriptPubkey sender contract gasLimit nonce version = .ok script →
      script.parseContractParams = .ok ⟨sender, contract.getD zeroAddressHash, gasLimit, nonce, version⟩ ∧
      script.parseContractType =
        .ok (if contract = none ∨ contract = some zeroAddressHash then .contractCreation else .contractCall)) ∧
    ∀ script : Script, script.isContractPubkey = true → ∃ params : VMTxParams,
      script.parseContractParams = .ok params ∧ script.parseContractFrom = .ok params.sender ∧
      script.parseContractAddr = .ok (if params.receiver = zeroAddressHash then none else some params.receiver) ∧
      script.parseContractNonce = .ok params.nonce ∧ script.parseContractGas = .ok params.gasLimit := by
  constructor
  · intro sender contract gasLimit nonce version script made
    have parsed := parseContractParams_made made
    refine ⟨parsed, ?_⟩
    rw [parseContractType, parsed]
    cases contract <;> simp [Except.map]
  · intro script recognised
    have fields := contractFields recognised
    have long := fields.long
    have sized {start size : Nat} (room : start + size ≤ 66) : (script.field start size).length = size :=
      field_length (by omega)
    refine ⟨_, fields.parsed, ?_, ?_, ?_, ?_⟩
    · simp [parseContractFrom, fields.sender, sized, addressHashOf, contractParams, bind, Except.bind]
    · simp only [parseContractAddr, fields.receiver, bind, Except.bind, contractParams, FixedBytes.ext_iff]
      split_ifs <;> simp_all [addressHashOf, Except.map]
    · simp [parseContractNonce, fields.nonce, sized, contractParams, bind, Except.bind]
    · simp [parseContractGas, fields.gasLimit, sized, contractParams, bind, Except.bind]

theorem sample_call_parses : ∃ script, makeContractScriptPubkey (.fill 20 3) (some (.fill 20 5)) 70000 9 2 = .ok script ∧
    parseContractParams script = .ok ⟨.fill 20 3, .fill 20 5, 70000, 9, 2⟩ ∧ parseContractType script = .ok .contractCall ∧
    parseContractFrom script = .ok (.fill 20 3) ∧ parseContractAddr script = .ok (some (.fill 20 5)) ∧
    parseContractNonce script = .ok 9 ∧ parseContractGas script = .ok 70000 := by
  obtain ⟨parsed, type⟩ := contract_scripts_parse.1 (.fill 20 3) (some (.fill 20 5)) 70000 9 2 _ rfl
  obtain ⟨params, same, sender, receiver, nonce, gas⟩ := contract_scripts_parse.2 _ (makeContractScriptPubkey_isContract
    (rfl : makeContractScriptPubkey (.fill 20 3) (some (.fill 20 5)) 70000 9 2 = _))
  cases parsed.symm.trans same
  exact ⟨_, rfl, parsed, type, sender, receiver, nonce, gas⟩

end Boxd.Script
