import Boxd.TxLogic
import Boxd.Proofs.ValidBlock
import Boxd.Proofs.Tokens
import Boxd.Proofs.PayToPubKeyHash

/-! What the builders of unsigned transactions pay. The change is computed modulo 2^64 from
an estimate of the fee. -/

namespace Boxd.TxLogic
open Lib List Outcome Script Nat

/-- The calls of the builders. -/
inductive Build where
  | tx (sender : AddressHash) (to_ : List AddressHash) (amounts : List UInt64)
  | splitAddr (sender : AddressHash) (addrs : List AddressHash) (weights : List UInt32)
  | tokenIssue (issuer owner : AddressHash) (tag : TokenTag)
  | tokenTransfer (sender : AddressHash) (to_ : List AddressHash) (amounts : List UInt64) (tid : TokenID)
  | contractDeploy (sender : AddressHash) (amount gasLimit nonce : UInt64) (byteCode : Bytes)
  | contractCall (sender : AddressHash) (to_ : Option AddressHash) (amount gasLimit nonce : UInt64) (byteCode : Bytes)

namespace Build

def make (c : Crypto) (pow10 : Pow10) (utxos : List Utxo) : Build → Outcome WalletError Transaction
  | tx sender to_ amounts => makeUnsignedTx sender to_ amounts utxos
  | splitAddr sender addrs weights => makeUnsignedSplitAddrTx c sender addrs weights utxos
  | tokenIssue issuer owner tag => makeUnsignedTokenIssueTx issuer owner tag utxos
  | tokenTransfer sender to_ amounts tid => makeUnsignedTokenTransferTx pow10 sender to_ amounts tid utxos
  | contractDeploy sender amount gasLimit nonce byteCode =>
    makeUnsignedContractDeployTx sender amount gasLimit nonce byteCode utxos
  | contractCall sender to_ amount gasLimit nonce byteCode =>
    makeUnsignedContractCallTx sender to_ amount gasLimit nonce byteCode utxos

/-- What the recipients are paid, in boxes. -/
def payments : Build → Nat
  | tx _ _ amounts => (amounts.map UInt64.toNat).sum
  | contractDeploy _ amount _ _ _ => amount.toNat
  | contractCall _ _ amount _ _ _ => amount.toNat
  | _ => 0

def gasCost : Build → Nat
  | contractDeploy _ _ gasLimit _ _ => gasLimit.toNat * fixedGasPrice.toNat
  | contractCall _ _ _ gasLimit _ _ => gasLimit.toNat * fixedGasPrice.toNat
  | _ => 0

/-- The fee besides the gas: for a contract transaction there is only the extra fee. -/
def baseFee : Build → UInt64
  | contractDeploy _ _ _ _ _ => 0
  | contractCall _ _ _ _ _ _ => 0
  | _ => transferFee

def estimatedOutputs : Build → Nat
  | tx _ _ amounts => amounts.length + 1
  | contractDeploy _ _ _ _ _ => 2
  | contractCall _ _ _ _ _ _ => 2
  | _ => 1

/-- The number of outputs that are made, without the one for the change. -/
def outputs (pow10 : Pow10) (utxos : List Utxo) : Build → Nat
  | tx _ _ amounts => amounts.length
  | tokenTransfer _ _ amounts tid =>
    amounts.length + if calcTokenChangeAmount pow10 tid amounts utxos = .ok 0 then 0 else 1
  | _ => 1

def requiredFee (build : Build) (tx : Transaction) : Nat := build.gasCost + (build.baseFee + extraFee tx).toNat

end Build

def extraFeeFor (count : Nat) : UInt64 := .ofNat (count / inOutNumPerExtraFee) * transferFee

def Build.estimatedFee (build : Build) (utxos : List Utxo) : UInt64 :=
  build.baseFee + extraFeeFor (utxos.length + build.estimatedOutputs)

def inputTotal (utxos : List Utxo) : Nat := (utxos.map fun utxo => utxo.txOut.value.toNat).sum

/-- What is known of a built transaction: how many outputs it has besides the change, what
they are worth, and that the change is right modulo 2^64. -/
structure Built (pow10 : Pow10) (build : Build) (utxos : List Utxo) (tx : Transaction) (changeAmt : UInt64) : Prop where
  spends : tx.vin = makeVins utxos
  count : tx.vout.length = build.outputs pow10 utxos + if changeAmt = 0 then 0 else 1
  worth : outputTotal tx.vout = build.payments + changeAmt.toNat
  change : (changeAmt.toNat + (build.payments + build.gasCost) + (build.estimatedFee utxos).toNat) % 2 ^ 64 =
    inputTotal utxos % 2 ^ 64

section Sums

theorem toNat_sumAmounts (amounts : List UInt64) :
    (sumAmounts amounts).toNat = (amounts.map UInt64.toNat).sum % 2 ^ 64 := by
  have from_ (start : UInt64) :
      (amounts.foldl (· + ·) start).toNat = (start.toNat + (amounts.map UInt64.toNat).sum) % 2 ^ 64 := by
    induction amounts generalizing start with
    | nil => exact (mod_eq_of_lt start.toNat_lt).symm
    | cons amount rest next =>
      rw [foldl_cons, next, UInt64.toNat_add, map_cons, sum_cons]
      omega
  rw [sumAmounts, from_, UInt64.toNat_zero, zero_add]

theorem toNat_inputs (utxos : List Utxo) :
    (sumAmounts (utxos.map fun utxo => utxo.txOut.value)).toNat = inputTotal utxos % 2 ^ 64 := by
  rw [toNat_sumAmounts, map_map]
  rfl

theorem calcChangeAmount_ok {toAmounts : List UInt64} {utxos : List Utxo} {changeAmt : UInt64}
    (ok : calcChangeAmount toAmounts utxos = .ok changeAmt) :
    (changeAmt.toNat + (toAmounts.map UInt64.toNat).sum +
      (transferFee + extraFeeFor (utxos.length + (toAmounts.length + 1))).toNat) % 2 ^ 64 = inputTotal utxos % 2 ^ 64 := by
  simp only [calcChangeAmount, ite_fail_ok_iff] at ok
  obtain ⟨-, same⟩ := ok
  have fee : UInt64.ofNat ((utxos.length + toAmounts.length + 1) / inOutNumPerExtraFee + 1) * transferFee =
      transferFee + extraFeeFor (utxos.length + (toAmounts.length + 1)) := by
    rw [UInt64.ofNat_add, UInt64.add_mul, UInt64.add_comm, extraFeeFor, add_assoc]
    congr 1
  rw [fee] at same
  cases same
  generalize (transferFee + extraFeeFor (utxos.length + (toAmounts.length + 1))) = estimate
  rw [UInt64.toNat_sub, UInt64.toNat_sub, toNat_inputs, toNat_sumAmounts]
  have bound := estimate.toNat_lt
  omega

theorem calcContractChangeAmount_ok {gasLimit amount : UInt64} {utxos : List Utxo} {changeAmt : UInt64}
    (ok : calcContractChangeAmount gasLimit amount utxos = .ok changeAmt) :
    (changeAmt.toNat + (amount.toNat + gasLimit.toNat * fixedGasPrice.toNat) +
      (0 + extraFeeFor (utxos.length + 2)).toNat) % 2 ^ 64 = inputTotal utxos % 2 ^ 64 := by
  simp only [calcContractChangeAmount, ite_fail_ok_iff] at ok
  obtain ⟨-, same⟩ := ok
  cases same
  rw [UInt64.zero_add, ← extraFeeFor]
  generalize extraFeeFor (utxos.length + 2) = estimate
  rw [UInt64.toNat_sub, UInt64.toNat_sub, UInt64.toNat_sub, toNat_inputs, UInt64.toNat_mul]
  have bound := estimate.toNat_lt
  have amounts := amount.toNat_lt
  omega

end Sums

section Outputs

theorem change_gt_iff (changeAmt : UInt64) : changeAmt > 0 ↔ ¬changeAmt = 0 := by
  rw [gt_iff_lt, UInt64.lt_iff_toNat_lt, ← UInt64.toNat_inj, UInt64.toNat_zero]
  omega

theorem unsignedTx_outputs (utxos : List Utxo) (vouts : List TxOut) (sender : AddressHash) (changeAmt : UInt64) :
    (unsignedTx utxos vouts sender changeAmt).vout.length = vouts.length + (if changeAmt = 0 then 0 else 1) ∧
      outputTotal (unsignedTx utxos vouts sender changeAmt).vout = outputTotal vouts + changeAmt.toNat := by
  simp only [unsignedTx, change_gt_iff, length_append, outputTotal_append]
  by_cases none_ : changeAmt = 0
  · simp [none_, outputTotal]
  · simp [none_, outputTotal, makeVout]

theorem payments_worth {to_ : List AddressHash} {amounts : List UInt64} (same : to_.length = amounts.length) :
    outputTotal (zipWith makeVout to_ amounts) = (amounts.map UInt64.toNat).sum := by
  induction to_ generalizing amounts with
  | nil =>
    cases amounts with
    | nil => rfl
    | cons amount rest => simp at same
  | cons addr rest next =>
    cases amounts with
    | nil => simp at same
    | cons amount others =>
      have tail := next (succ.inj same)
      simp only [outputTotal, zipWith_cons_cons, map_cons, sum_cons] at tail ⊢
      rw [tail]
      rfl

theorem tokens_worthless (to_ : List AddressHash) (amounts : List UInt64) (tid : TokenID) :
    outputTotal (zipWith (makeTokenVout · tid ·) to_ amounts) = 0 := by
  induction to_ generalizing amounts with
  | nil => rfl
  | cons addr rest next =>
    cases amounts with
    | nil => rfl
    | cons amount others =>
      have tail := next others
      simp only [outputTotal, zipWith_cons_cons, map_cons, sum_cons] at tail ⊢
      rw [tail]
      rfl

end Outputs

variable {c : Crypto} {pow10 : Pow10} {build : Build} {utxos : List Utxo} {tx : Transaction}

theorem contract_built {addr : AddressHash} {amount gasLimit : UInt64} {script : Script} {byteCode : Bytes}
    (payments : build.payments = amount.toNat) (gas : build.gasCost = gasLimit.toNat * fixedGasPrice.toNat)
    (outputs : build.outputs pow10 utxos = 1) (estimate : build.estimatedFee utxos = 0 + extraFeeFor (utxos.length + 2))
    (ok : makeUnsignedContractTx addr amount gasLimit ⟨amount, script⟩ byteCode utxos = .ok tx) :
    ∃ changeAmt, Built pow10 build utxos tx changeAmt := by
  simp only [makeUnsignedContractTx, bind_ok_iff] at ok
  obtain ⟨changeAmt, change, made⟩ := ok
  cases made
  obtain ⟨count, worth⟩ := unsignedTx_outputs utxos [⟨amount, script⟩] addr changeAmt
  refine ⟨changeAmt, rfl, ?_, ?_, ?_⟩
  · rw [outputs]
    exact count
  · rw [payments]
    exact worth.trans (by simp [outputTotal])
  · rw [payments, gas, estimate]
    exact calcContractChangeAmount_ok change

theorem built (ok : build.make c pow10 utxos = .ok tx) : ∃ changeAmt, Built pow10 build utxos tx changeAmt := by
  cases build with
  | tx sender to_ amounts =>
    simp only [Build.make, makeUnsignedTx, ite_fail_ok_iff, bind_ok_iff, not_not] at ok
    obtain ⟨same, changeAmt, change, made⟩ := ok
    cases made
    obtain ⟨count, worth⟩ := unsignedTx_outputs utxos (zipWith makeVout to_ amounts) sender changeAmt
    refine ⟨changeAmt, rfl, ?_, ?_, calcChangeAmount_ok change⟩
    · rw [count, length_zipWith, same, min_self]
      rfl
    · rw [worth, payments_worth same]
      rfl
  | splitAddr sender addrs weights =>
    simp only [Build.make, makeUnsignedSplitAddrTx, makeSplitAddrVout, ite_fail_ok_iff, bind_ok_iff] at ok
    obtain ⟨-, changeAmt, change, splitAddrOut, ⟨script, -, out⟩, made⟩ := ok
    cases out
    cases made
    obtain ⟨count, worth⟩ := unsignedTx_outputs utxos [⟨0, script⟩] sender changeAmt
    exact ⟨changeAmt, rfl, count, worth, calcChangeAmount_ok change⟩
  | tokenIssue issuer owner tag =>
    simp only [Build.make, makeUnsignedTokenIssueTx, bind_ok_iff] at ok
    obtain ⟨changeAmt, change, made⟩ := ok
    cases made
    obtain ⟨count, worth⟩ := unsignedTx_outputs utxos [makeIssueTokenVout owner tag] issuer changeAmt
    exact ⟨changeAmt, rfl, count, worth, calcChangeAmount_ok change⟩
  | tokenTransfer sender to_ amounts tid =>
    simp only [Build.make, makeUnsignedTokenTransferTx, ite_fail_ok_iff, bind_ok_iff, not_not] at ok
    obtain ⟨same, changeAmt, change, tokenRemain, remain, made⟩ := ok
    cases made
    obtain ⟨count, worth⟩ := unsignedTx_outputs utxos (zipWith (makeTokenVout · tid ·) to_ amounts ++
      if tokenRemain > 0 then [makeTokenVout sender tid tokenRemain] else []) sender changeAmt
    refine ⟨changeAmt, rfl, ?_, ?_, calcChangeAmount_ok change⟩
    · rw [count, length_append, length_zipWith, same, min_self]
      simp only [Build.outputs, remain, Except.ok.injEq, change_gt_iff]
      by_cases none_ : tokenRemain = 0
      · simp only [none_, not_true_eq_false, if_false, if_true, length_nil]
      · simp only [none_, not_false_eq_true, if_true, if_false, length_singleton]
    · rw [worth, outputTotal_append, tokens_worthless]
      simp only [Build.payments]
      split <;> simp [outputTotal, makeTokenVout]
  | contractDeploy sender amount gasLimit nonce byteCode =>
    simp only [Build.make, makeUnsignedContractDeployTx, makeContractCreationVout, bind_ok_iff, mapError_ok_iff,
      lift_ok_iff] at ok
    obtain ⟨contractVout, out, made⟩ := ok
    obtain ⟨script, -, rfl⟩ := exists_ok_map out
    exact contract_built rfl rfl rfl rfl made
  | contractCall sender to_ amount gasLimit nonce byteCode =>
    simp only [Build.make, makeUnsignedContractCallTx, makeContractCallVout, bind_ok_iff, mapError_ok_iff,
      lift_ok_iff] at ok
    obtain ⟨contract, -, contractVout, out, made⟩ := ok
    obtain ⟨script, -, rfl⟩ := exists_ok_map out
    exact contract_built rfl rfl rfl rfl made

/-- Inputs and outputs differ by a fee exactly when the payments and the estimate are
covered and the estimate is that fee. -/
theorem balanced_iff {inputs paid estimate required change : Nat} (small : estimate < 2 ^ 64) (fits : required < 2 ^ 64)
    (bound : change < 2 ^ 64) (same : (change + paid + estimate) % 2 ^ 64 = inputs % 2 ^ 64) :
    inputs = paid + change + required ↔
      paid + estimate ≤ inputs ∧ inputs < paid + estimate + 2 ^ 64 ∧ required = estimate := by
  omega

/-- The estimate is right: the built transaction has as many inputs and outputs as the fee
was estimated for, or the difference costs nothing. Without change there is no output for
it. -/
def Build.EstimateFits (build : Build) (pow10 : Pow10) (utxos : List Utxo) : Prop :=
  let paid := build.payments + build.gasCost + (build.estimatedFee utxos).toNat
  extraFeeFor (utxos.length + (build.outputs pow10 utxos + if inputTotal utxos = paid then 0 else 1)) =
    extraFeeFor (utxos.length + build.estimatedOutputs)

/-- A built transaction pays exactly the required fee if and only if its inputs cover the
payments, the gas and the estimated fee, the change fits into 64 bits, and the estimate is
the fee for the outputs that are made. -/
theorem pays_required_fee_iff (c : Crypto) (pow10 : Pow10) (build : Build) (utxos : List Utxo) (tx : Transaction)
    (ok : build.make c pow10 utxos = .ok tx) :
    (inputTotal utxos = outputTotal tx.vout + build.requiredFee tx ↔
      build.payments + build.gasCost + (build.estimatedFee utxos).toNat ≤ inputTotal utxos ∧
      inputTotal utxos < build.payments + build.gasCost + (build.estimatedFee utxos).toNat + 2 ^ 64 ∧
      build.EstimateFits pow10 utxos) ∧
    ∀ utxoSet : UtxoSet, (∀ utxo ∈ utxos, utxoSet.valueOf utxo.outPoint = utxo.txOut.value.toNat) →
      isOrdinary tx = true → outputTotal tx.vout ≤ totalSupply.toNat → ∀ fee, validateTxInputs pow10 utxoSet tx = .ok fee →
        (fee.toNat = build.requiredFee tx ↔ inputTotal utxos = outputTotal tx.vout + build.requiredFee tx) := by
  obtain ⟨changeAmt, spends, count, worth, change⟩ := built ok
  constructor
  · have bound := changeAmt.toNat_lt
    have balanced := balanced_iff (build.estimatedFee utxos).toNat_lt (build.baseFee + extraFee tx).toNat_lt bound change
    have total : outputTotal tx.vout + build.requiredFee tx =
        build.payments + build.gasCost + changeAmt.toNat + (build.baseFee + extraFee tx).toNat := by
      rw [worth, Build.requiredFee]
      omega
    rw [total, balanced]
    refine and_congr_right fun covered => and_congr_right fun fits => ?_
    -- The change is what is left, so its output is missing exactly when nothing is left.
    have left_ : changeAmt = 0 ↔ inputTotal utxos = build.payments + build.gasCost + (build.estimatedFee utxos).toNat := by
      rw [← UInt64.toNat_inj, UInt64.toNat_zero]
      omega
    have extra : extraFee tx = extraFeeFor (utxos.length + (build.outputs pow10 utxos +
        if inputTotal utxos = build.payments + build.gasCost + (build.estimatedFee utxos).toNat then 0 else 1)) := by
      rw [extraFee, spends, count, makeVins, length_map, extraFeeFor]
      simp only [left_]
    rw [UInt64.toNat_inj, Build.estimatedFee, UInt64.add_right_inj, extra]
    rfl
  · intro utxoSet known ordinary inRange fee accepted
    have ordinary : (isCoinBase tx || isInternalContract tx) = false := by simpa [isOrdinary] using ordinary
    have inputs := validateTxInputs_balance accepted ordinary inRange
    have sum : ((tx.vin.map TxIn.prevOutPoint).map utxoSet.valueOf).sum = inputTotal utxos := by
      rw [spends, makeVins, map_map, map_map, inputTotal]
      exact congrArg sum (map_congr_left known)
    omega

/-- Outputs that the owner of the sample key holds. -/
def sampleUtxos (count : Nat) (value : UInt64) : List Utxo :=
  (range count).map fun i => ⟨⟨zeroHash, .ofNat i⟩, makeVout sampleKeyHash value⟩

/-- A payment of one fee to somebody else. -/
def samplePay : Build := .tx sampleKeyHash [zeroAddressHash] [transferFee]

theorem payment_pays_fee :
    ∃ tx, samplePay.make sampleCrypto samplePow10 (sampleUtxos 1 (3 * transferFee)) = .ok tx ∧
      inputTotal (sampleUtxos 1 (3 * transferFee)) = outputTotal tx.vout + samplePay.requiredFee tx := by
  obtain ⟨tx, ok⟩ := exists_ok (samplePay.make sampleCrypto samplePow10 (sampleUtxos 1 (3 * transferFee)))
    (by decide +kernel)
  refine ⟨tx, ok, (pays_required_fee_iff _ _ _ _ tx ok).1.mpr ⟨by decide +kernel, by decide +kernel, ?_⟩⟩
  unfold Build.EstimateFits
  decide +kernel

/-- A token is issued from fourteen outputs of one fee each. The fee is estimated for one
output, but there are two with the change, so that a second fee is required. -/
theorem token_issue_underpays :
    ∃ tx, makeUnsignedTokenIssueTx sampleKeyHash sampleKeyHash ⟨[116], [116], 0, 1⟩
        (sampleUtxos 14 transferFee) = .ok tx ∧
      inputTotal (sampleUtxos 14 transferFee) = outputTotal tx.vout + transferFee.toNat ∧
      (transferFee + extraFee tx).toNat = 2 * transferFee.toNat := by
  decide +kernel

end Boxd.TxLogic
