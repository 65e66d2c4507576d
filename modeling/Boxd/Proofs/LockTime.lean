import Boxd.Chain.Validate
import Boxd.Proofs.PayToPubKeyHash

/-! Outputs that are locked until a block height or a time. The opcode compares the
lock with the transaction's lock time, and the finality rule compares the lock
time with the block unless every input is final. -/

namespace Boxd.Script
open Lib Lib.Machine List

def LockReached (lock : Int64) (blockHeight : UInt32) (blockTime : Int64) : Prop :=
  if lock < lockTimeThreshold then lock.toInt ≤ blockHeight.toNat else lock ≤ blockTime

def LockCovered (lock lockTime : Int64) : Prop :=
  0 < lockTime ∧ (lockTime = Int64.maxValue ∨
    (lock < lockTimeThreshold ↔ lockTime < lockTimeThreshold) ∧ lock.toInt ≤ lockTime.toInt + 1)

section Finality

variable {tx : Transaction} {lock : Int64}

private theorem threshold_toInt : lockTimeThreshold.toInt = 500000000 := by decide

private theorem height_toInt (blockHeight : UInt32) : (Int64.ofNat blockHeight.toNat).toInt = blockHeight.toNat :=
  Int64.toInt_ofNat_of_lt (lt_trans blockHeight.toNat_lt (by decide))

private theorem below_threshold {time : Int64} : time < lockTimeThreshold ↔ time.toInt < 500000000 := by
  rw [Int64.lt_iff_toInt_lt, threshold_toInt]

theorem lockReached_iff {blockHeight : UInt32} {blockTime : Int64} : LockReached lock blockHeight blockTime ↔
      if lock.toInt < 500000000 then lock.toInt ≤ blockHeight.toNat else lock.toInt ≤ blockTime.toInt := by
  simp only [LockReached, below_threshold, Int64.le_iff_toInt_le]

theorem lockCovered_iff {lockTime : Int64} :
    LockCovered lock lockTime ↔ 0 < lockTime.toInt ∧ (lockTime.toInt = 2 ^ 63 - 1 ∨
      (lock.toInt < 500000000 ↔ lockTime.toInt < 500000000) ∧ lock.toInt ≤ lockTime.toInt + 1) := by
  simp only [LockCovered, Int64.lt_iff_toInt_lt, ← Int64.toInt_inj, Int64.toInt_zero, Int64.toInt_maxValue,
    threshold_toInt]

theorem isTxFinalized_iff {blockHeight : UInt32} {blockTime : Int64} :
    isTxFinalized tx blockHeight blockTime = true ↔ tx.lockTime.toInt = 0 ∨
      tx.lockTime.toInt < (if tx.lockTime.toInt < 500000000 then (blockHeight.toNat : Int) else blockTime.toInt) ∨
      ∀ txIn ∈ tx.vin, txIn.sequence = maxUint32 := by
  simp only [isTxFinalized, ← below_threshold, ← Int64.toInt_zero, Int64.toInt_inj]
  by_cases zero : tx.lockTime = 0
  · simp [zero]
  · by_cases height : tx.lockTime < lockTimeThreshold <;>
      simp only [zero, height, if_true, if_false, false_or, Int64.lt_iff_toInt_lt, height_toInt] <;> split <;> simp_all

/-- Whether finality alone guarantees the lock, for every block. The worst blocks are
the first one past the lock time and one of height and time zero. -/
theorem finalized_lockReached_iff (positive : 0 < lock) :
    (∀ blockHeight blockTime, isTxFinalized tx blockHeight blockTime = true → LockReached lock blockHeight blockTime) ↔
      (∃ txIn ∈ tx.vin, txIn.sequence ≠ maxUint32) ∧ LockCovered lock tx.lockTime := by
  have positive : 0 < lock.toInt := Int64.lt_iff_toInt_lt.mp positive
  have most := tx.lockTime.toInt_lt
  simp only [isTxFinalized_iff, lockReached_iff, lockCovered_iff]
  constructor
  · intro reached
    have start := reached 0 0
    simp only [UInt32.toNat_zero, Int64.toInt_zero, Nat.cast_zero] at start
    refine ⟨?_, ?_⟩
    · by_contra final
      push Not at final
      have early := start (.inr (.inr final))
      split_ifs at early <;> omega
    · have later : 0 < tx.lockTime.toInt := by
        by_contra early
        have below : tx.lockTime.toInt < 500000000 := by omega
        rw [if_pos below] at start
        rcases lt_or_eq_of_le (not_lt.mp early) with negative | zero
        · have early := start (.inr (.inl negative))
          split_ifs at early <;> omega
        · have early := start (.inl zero)
          split_ifs at early <;> omega
      refine ⟨later, ?_⟩
      by_cases height : tx.lockTime.toInt < 500000000
      · have size : (UInt32.ofNat (tx.lockTime.toInt.toNat + 1)).toNat = tx.lockTime.toInt.toNat + 1 :=
          UInt32.toNat_ofNat_of_lt (show tx.lockTime.toInt.toNat + 1 < 2 ^ 32 by omega)
        have next := reached (.ofNat (tx.lockTime.toInt.toNat + 1)) 0
        rw [if_pos height, size, Int64.toInt_zero] at next
        have due := next (.inr (.inl (by omega)))
        split_ifs at due with lower
        · exact .inr ⟨⟨fun _ => height, fun _ => lower⟩, by omega⟩
        · omega
      · by_cases last : tx.lockTime.toInt = 2 ^ 63 - 1
        · exact .inl last
        · have size : (Int64.ofInt (tx.lockTime.toInt + 1)).toInt = tx.lockTime.toInt + 1 :=
            Int64.toInt_ofInt_of_le (by omega) (by omega)
          have next := reached 0 (.ofInt (tx.lockTime.toInt + 1))
          rw [if_neg height, size, UInt32.toNat_zero] at next
          have due := next (.inr (.inl (by omega)))
          split_ifs at due with lower
          · omega
          · exact .inr ⟨⟨fun other => absurd other lower, fun other => absurd other height⟩, due⟩
  · rintro ⟨⟨txIn, member, unfinished⟩, later, covered⟩ blockHeight blockTime finalized
    have latest := blockTime.toInt_lt
    rcases finalized with zero | past | final
    · omega
    · split_ifs at past ⊢ <;> omega
    · exact absurd (final txIn member) unfinished

end Finality

section Spending

variable {c : Crypto} {scriptSig : Script} {h : AddressHash} {lock : Int64} {tx : Transaction} {txInIdx : Nat}

theorem checkLockTime_covered {lockTime : Int64} (positive : 0 < lock) (checked : checkLockTime lock lockTime = true) :
    LockCovered lock lockTime := by
  have positive : 0 < lock.toInt := Int64.lt_iff_toInt_lt.mp positive
  rw [lockCovered_iff]
  simp only [checkLockTime, Int64.lt_iff_toInt_lt, Int64.le_iff_toInt_le, threshold_toInt] at checked
  split at checked
  · cases checked
  next same =>
    have reached := of_decide_eq_true checked
    simp at same
    omega

private theorem payToPubKeyHashCLTV_code (h : AddressHash) (lock : Int64) : payToPubKeyHashCLTVScript h lock =
      (operandHeader (bytesBE lock.toInt.natAbs).length ++ bytesBE lock.toInt.natAbs) ++
        ([opCheckLockTimeVerify] ++ payToPubKeyHashScript h) := by
  simp [payToPubKeyHashCLTVScript, payToPubKeyHashScript, addOpCode, addOperand]

private theorem payToPubKeyHashCLTV_plain : isPayToScriptHash (payToPubKeyHashCLTVScript h lock) = false := by
  have long : p2SHScriptLen < (payToPubKeyHashCLTVScript h lock).length := by
    simp only [payToPubKeyHashCLTV_code, length_append, payToPubKeyHash_length, p2SHScriptLen]
    omega
  simp [isPayToScriptHash, long.ne']

private theorem lock_operand (positive : 0 < lock) :
    (bytesBE lock.toInt.natAbs).length ≤ 0xffff ∧ Int64.ofNat (natBE (bytesBE lock.toInt.natAbs)) = lock := by
  have positive : 0 < lock.toInt := Int64.lt_iff_toInt_lt.mp positive
  have bound := lock.toInt_lt
  constructor
  · have short := bytesBE_length_le (show lock.toInt.natAbs < 256 ^ 8 by omega)
    omega
  · rw [natBE_bytesBE, ← Int64.toInt_inj, Int64.toInt_ofNat_of_lt (by omega)]
    omega

theorem passes_lock {script : Script} {st final : ExecState} {opCode : OpCode} {data code rest : Bytes}
    (encodes : Encodes opCode (some data) code) (way : (machine c script tx txInIdx).Reaches st final)
    (ended : script.length ≤ final.pc) (here : script.drop st.pc = code ++ ([opCheckLockTimeVerify] ++ rest)) :
    checkLockTime (Int64.ofNat (natBE data)) tx.lockTime = true := by
  obtain ⟨t, ran, way, here, -⟩ := passes_operation way ended here encodes
  have small : opCode ≤ opPushData4 := by cases encodes; assumption
  obtain rfl := exec_push small ran
  obtain ⟨t, ran, -, -, -⟩ := passes_operation way ended here (.plain (by decide))
  obtain ⟨_, _, same, checked, -⟩ := exec_checkLockTimeVerify ran
  cases same
  exact checked

theorem passes_checkLockTime {script : Script} {st final : ExecState} (positive : 0 < lock)
    (way : (machine c script tx txInIdx).Reaches st final) (ended : script.length ≤ final.pc)
    (here : script.drop st.pc = payToPubKeyHashCLTVScript h lock) : checkLockTime lock tx.lockTime = true := by
  obtain ⟨size, value⟩ := lock_operand positive
  rw [payToPubKeyHashCLTV_code] at here
  obtain ⟨opCode, -, encodes⟩ := encodes_operand _ size
  have checked := passes_lock encodes way ended here
  rwa [value] at checked

/-- For an accepted spend, every block that finds the transaction final has reached
the lock exactly when some input is not final and the lock time was either checked
or covers the lock anyway. -/
theorem validate_lockReached_iff {evaluations : List Evaluation} (positive : 0 < lock)
    (accepted : validate c scriptSig (payToPubKeyHashCLTVScript h lock) tx txInIdx = .ok evaluations) :
    (∀ blockHeight blockTime, isTxFinalized tx blockHeight blockTime = true →
        LockReached lock blockHeight blockTime) ↔
      (∃ txIn ∈ tx.vin, txIn.sequence ≠ maxUint32) ∧ (Complete scriptSig ∨ LockCovered lock tx.lockTime) := by
  rw [finalized_lockReached_iff positive]
  refine and_congr_right fun _ => ⟨.inr, ?_⟩
  rintro (complete | covered)
  · obtain ⟨final, ran, rfl⟩ := validate_plain payToPubKeyHashCLTV_plain accepted
    obtain ⟨whole, ended, -⟩ := evaluate_ok_iff.mp ran
    obtain ⟨st, -, -, way⟩ := enters_locking complete whole ended
    exact checkLockTime_covered positive (passes_checkLockTime positive way ended catScript_drop)
  · exact covered

end Spending

/-- The signature of `sampleTx` with lock time 1000 and an input that is not final,
over an output locked until height 900, and the hash it signs. -/
def lockedSignature : Bytes :=
  [48, 69, 2, 33, 0, 225, 254, 67, 77, 52, 91, 243, 48, 131, 171, 182, 40, 15, 79, 68, 172, 95, 178,
    41, 52, 151, 120, 19, 194, 12, 1, 95, 43, 67, 211, 250, 184, 2, 32, 104, 252, 186, 92, 216, 215,
    88, 139, 224, 55, 78, 102, 205, 197, 87, 105, 214, 148, 216, 56, 165, 163, 82, 255, 47, 188, 3, 5,
    111, 242, 168, 223]

def lockedSigHash : HashType :=
  ⟨[197, 19, 96, 128, 241, 63, 205, 91, 4, 49, 63, 222, 124, 167, 13, 34, 191, 138, 145, 19, 24, 80,
    106, 201, 78, 36, 183, 247, 176, 127, 196, 162], by decide⟩

def finalSignature : Bytes :=
  [48, 69, 2, 33, 0, 225, 254, 67, 77, 52, 91, 243, 48, 131, 171, 182, 40, 15, 79, 68, 172, 95, 178,
    41, 52, 151, 120, 19, 194, 12, 1, 95, 43, 67, 211, 250, 184, 2, 32, 93, 83, 34, 93, 194, 7, 81,
    121, 152, 79, 229, 96, 247, 50, 181, 85, 245, 44, 202, 184, 142, 36, 141, 92, 85, 224, 70, 25, 58,
    37, 13, 125]

def finalSigHash : HashType :=
  ⟨[95, 85, 11, 68, 179, 218, 86, 222, 198, 211, 125, 38, 57, 153, 30, 159, 32, 161, 202, 213, 191,
    120, 119, 173, 75, 247, 60, 72, 218, 222, 20, 19], by decide⟩

def lockedScriptSig (signature : Bytes) : Script := (addOperand [] signature).addOperand samplePubKey

def lockedCrypto (signature : Bytes) (message : HashType) : Crypto :=
  knownCrypto [(samplePubKey, sampleKeyHash)] samplePubKey signature message

theorem sample_lockReached :
    (∃ evaluations, validate (lockedCrypto lockedSignature lockedSigHash) (lockedScriptSig lockedSignature)
        (payToPubKeyHashCLTVScript sampleKeyHash 900) (sampleTx (lockedScriptSig lockedSignature) 0 1000) 0 =
          .ok evaluations) ∧
      ∀ blockHeight blockTime,
        isTxFinalized (sampleTx (lockedScriptSig lockedSignature) 0 1000) blockHeight blockTime = true →
          LockReached 900 blockHeight blockTime := by
  obtain ⟨evaluations, accepted⟩ := exists_ok (validate (lockedCrypto lockedSignature lockedSigHash)
    (lockedScriptSig lockedSignature) (payToPubKeyHashCLTVScript sampleKeyHash 900)
    (sampleTx (lockedScriptSig lockedSignature) 0 1000) 0) (by decide +kernel)
  exact ⟨⟨evaluations, accepted⟩,
    (validate_lockReached_iff (by decide) accepted).mpr ⟨⟨_, mem_singleton.mpr rfl, by decide⟩,
      .inl (by decide +kernel)⟩⟩

/-- With a final input the same output is spent in a block of height 1. -/
theorem final_input_spends_early :
    ∃ evaluations, validate (lockedCrypto finalSignature finalSigHash) (lockedScriptSig finalSignature)
        (payToPubKeyHashCLTVScript sampleKeyHash 900) (sampleTx (lockedScriptSig finalSignature) maxUint32 1000) 0 =
          .ok evaluations ∧
      isTxFinalized (sampleTx (lockedScriptSig finalSignature) maxUint32 1000) 1 0 = true ∧
        ¬ LockReached 900 1 0 := by
  obtain ⟨evaluations, accepted⟩ := exists_ok (validate (lockedCrypto finalSignature finalSigHash)
    (lockedScriptSig finalSignature) (payToPubKeyHashCLTVScript sampleKeyHash 900)
    (sampleTx (lockedScriptSig finalSignature) maxUint32 1000) 0) (by decide +kernel)
  exact ⟨evaluations, accepted, by decide +kernel, by simp [lockReached_iff]⟩

end Boxd.Script
