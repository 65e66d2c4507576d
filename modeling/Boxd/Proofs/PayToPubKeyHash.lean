import Boxd.Proofs.ScriptRun

/-! Spending an output that pays a public key hash. Unlocking and locking script are only
separated by a byte that a push can swallow: the key is needed exactly when the unlocking
script is complete on its own. -/

namespace Boxd.Script
open Lib Lib.Machine List

section Locking

variable {c : Crypto} {script : Script} {tx : Transaction} {txInIdx : Nat}

private theorem payToPubKeyHash_code (h : AddressHash) :
    payToPubKeyHashScript h = [opDup] ++ ([opHash160] ++ ((operandHeader h.bytes.length ++ h.bytes) ++
      ([opEqualVerify] ++ ([opCheckSig] ++ [])))) := by
  simp [payToPubKeyHashScript, addOpCode, addOperand]

/-- Symbolic execution of the locking script: when it ends in a true result, the two
topmost items were a key that hashes to `h` and a signature that verified. -/
theorem passes_payToPubKeyHash {st final : ExecState} {h : AddressHash}
    (way : (machine c script tx txInIdx).Reaches st final) (ended : script.length ≤ final.pc)
    (top : final.stack.validateTop = .ok ()) (here : script.drop st.pc = payToPubKeyHashScript h) :
    ∃ pubKey signature, c.hash160 pubKey = h ∧
      verifySig c signature pubKey (script.drop st.scriptPubKeyStart) tx txInIdx = true ∧
      final.verified = ⟨signature, pubKey, script.drop st.scriptPubKeyStart⟩ :: st.verified := by
  rw [payToPubKeyHash_code] at here
  obtain ⟨t, ran, way, here, -⟩ := passes_operation way ended here (.plain (by decide))
  obtain ⟨pubKey, items, held, rfl⟩ := exec_dup ran
  obtain ⟨t, ran, way, here, -⟩ := passes_operation way ended here (.plain (by decide))
  obtain ⟨_, _, same, rfl⟩ := exec_hash160 ran
  cases same
  obtain ⟨opCode, small, encodes⟩ := encodes_operand h.bytes (by rw [h.length_eq]; decide)
  obtain ⟨t, ran, way, here, -⟩ := passes_operation way ended here encodes
  obtain rfl := exec_push small ran
  obtain ⟨t, ran, way, here, -⟩ := passes_operation way ended here (.plain (by decide))
  obtain ⟨_, _, same, rfl⟩ := exec_equalVerify ran
  obtain ⟨rfl, hash, rfl⟩ : h.bytes = _ ∧ (c.hash160 pubKey).bytes = _ ∧ pubKey :: items = _ := by
    simpa only [cons.injEq, Option.getD_some] using same
  obtain ⟨t, ran, way, here, -⟩ := passes_operation way ended here (.plain (by decide))
  obtain ⟨_, signature, rest, same, rfl⟩ := exec_checkSig ran
  cases same
  obtain rfl := passes_nothing way here
  split at top
  next valid => exact ⟨pubKey, signature, FixedBytes.ext hash, valid, by simp [valid]⟩
  next invalid => cases top

end Locking

section Spending

variable {c : Crypto} {scriptSig : Script} {h : AddressHash} {tx : Transaction} {txInIdx : Nat}

/-- One of the evaluations verified a signature over the output script under a key
whose hash is `h`. -/
def SignedUnder (c : Crypto) (h : AddressHash) (tx : Transaction) (txInIdx : Nat) (evaluations : List Evaluation) :
    Prop :=
  ∃ evaluation ∈ evaluations, ∃ check ∈ evaluation.final.verified,
    Checked c (payToPubKeyHashScript h) tx txInIdx check ∧ c.hash160 check.pubKey = h

theorem payToPubKeyHash_length : (payToPubKeyHashScript h).length = 25 := by
  simp [payToPubKeyHash_code, h.length_eq, operandHeader, opPushData1]

private theorem payToPubKeyHash_plain : isPayToScriptHash (payToPubKeyHashScript h) = false := by
  simp [isPayToScriptHash, payToPubKeyHash_length, p2SHScriptLen]

/-- An accepted spend was signed with the key exactly when its unlocking script is
complete on its own: otherwise a push reaches over the separator, and no check is
made over the output script. -/
theorem validate_signedUnder_iff {evaluations : List Evaluation}
    (accepted : validate c scriptSig (payToPubKeyHashScript h) tx txInIdx = .ok evaluations) :
    SignedUnder c h tx txInIdx evaluations ↔ Complete scriptSig := by
  obtain ⟨final, ran, rfl⟩ := validate_plain payToPubKeyHash_plain accepted
  obtain ⟨whole, ended, top⟩ := evaluate_ok_iff.mp ran
  constructor
  · rintro ⟨evaluation, member, check, recorded, checked, -⟩
    obtain rfl := mem_singleton.mp member
    obtain ⟨start, allowed, made⟩ := (reaches_recorded whole).verified check recorded
    exact codeStart_complete (ne_nil_of_length_pos (by rw [payToPubKeyHash_length]; decide)) allowed
      (made.code.symm.trans checked.code)
  · intro complete
    obtain ⟨st, -, -, way⟩ := enters_locking complete whole ended
    obtain ⟨pubKey, signature, hash, valid, verified⟩ := passes_payToPubKeyHash way ended top catScript_drop
    rw [catScript_drop] at valid verified
    exact ⟨_, mem_singleton.mpr rfl, ⟨signature, pubKey, payToPubKeyHashScript h⟩, by simp [verified],
      ⟨rfl, valid⟩, hash⟩

end Spending

/-- Hash and signature functions that are known at some hashed strings, one key, one
signature and one message. -/
def knownCrypto (hashes : List (Bytes × AddressHash)) (pubKey signature : Bytes) (message : HashType) : Crypto where
  Signature := Bytes
  PublicKey := Bytes
  hash160 bytes := (hashes.lookup bytes).getD zeroAddressHash
  createAddress sender _ := sender
  doubleHash _ := message
  sigFromBytes bytes := if bytes = signature then some bytes else none
  publicKeyFromBytes bytes := if bytes = pubKey then some bytes else none
  verifySignature sig publicKey hash := decide (sig = signature ∧ publicKey = pubKey ∧ hash = message)

def samplePubKey : Bytes :=
  [2, 121, 190, 102, 126, 249, 220, 187, 172, 85, 160, 98, 149, 206, 135, 11, 7, 2, 155, 252, 219, 45,
    206, 40, 217, 89, 242, 129, 91, 22, 248, 23, 152]

def sampleKeyHash : AddressHash :=
  ⟨[117, 30, 118, 232, 25, 145, 150, 212, 84, 148, 28, 69, 209, 179, 163, 35, 241, 67, 59, 214], by decide⟩

def sampleTx (scriptSig : Script) (sequence : UInt32) (lockTime : Int64) : Transaction where
  version := 1
  vin := [⟨⟨.fill 32 0x11, 0⟩, scriptSig, sequence⟩]
  vout := [⟨50000, payToPubKeyHashScript sampleKeyHash⟩]
  data := none
  magic := 1
  lockTime := lockTime
  type := .unknownTx

/-- The signature of `sampleTx` over an output paying `sampleKeyHash`, with final
sequence number and no lock time. -/
def sampleSignature : Bytes :=
  [48, 69, 2, 33, 0, 240, 29, 107, 144, 24, 171, 66, 29, 212, 16, 64, 76, 184, 105, 7, 32, 101, 82,
    43, 248, 87, 52, 0, 143, 16, 92, 243, 133, 160, 35, 168, 15, 2, 32, 34, 122, 194, 15, 186, 143,
    162, 169, 139, 35, 63, 231, 244, 223, 159, 70, 164, 184, 219, 95, 139, 79, 153, 57, 93, 117, 172,
    62, 235, 221, 119, 221]

def sampleSigHash : HashType :=
  ⟨[193, 154, 188, 235, 95, 207, 191, 184, 194, 196, 120, 66, 187, 62, 182, 187, 176, 105, 81, 173, 80,
    8, 59, 17, 55, 50, 187, 19, 122, 160, 21, 105], by decide⟩

def sampleScriptSig : Script := (addOperand [] sampleSignature).addOperand samplePubKey

def sampleCrypto : Crypto := knownCrypto [(samplePubKey, sampleKeyHash)] samplePubKey sampleSignature sampleSigHash

theorem sample_spend_signedUnder :
    ∃ evaluations, validate sampleCrypto sampleScriptSig (payToPubKeyHashScript sampleKeyHash)
        (sampleTx sampleScriptSig maxUint32 0) 0 = .ok evaluations ∧
      SignedUnder sampleCrypto sampleKeyHash (sampleTx sampleScriptSig maxUint32 0) 0 evaluations := by
  obtain ⟨evaluations, accepted⟩ := exists_ok (validate sampleCrypto sampleScriptSig
    (payToPubKeyHashScript sampleKeyHash) (sampleTx sampleScriptSig maxUint32 0) 0) (by decide +kernel)
  exact ⟨evaluations, accepted, (validate_signedUnder_iff accepted).mpr (by decide +kernel)⟩

/-- One byte that announces 26 bytes of data swallows the separator and the locking
script, so the spend is accepted without any signature. -/
theorem swallowed_payToPubKeyHash_accepted :
    ∃ evaluations, validate sampleCrypto [0x1a] (payToPubKeyHashScript sampleKeyHash)
        (sampleTx [0x1a] maxUint32 0) 0 = .ok evaluations ∧
      ¬ SignedUnder sampleCrypto sampleKeyHash (sampleTx [0x1a] maxUint32 0) 0 evaluations := by
  refine ⟨_, rfl, ?_⟩
  rintro ⟨evaluation, member, check, recorded, -⟩
  obtain rfl := mem_singleton.mp member
  cases recorded

end Boxd.Script
