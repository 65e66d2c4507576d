import Boxd.Chain.Validate
import Mathlib.Data.Nat.ModEq

/-! Token amounts are added and multiplied in 64 bits without a check for overflow.
What an accepted transaction conserves is the sum modulo `2 ^ 64`. -/

namespace Boxd
open Lib List Table Option Outcome Script Nat

def inputToken (power : UInt8 → Nat) (utxoSet : UtxoSet) (txIn : TxIn) : Option (TokenID × Nat) :=
  (utxoSet.findUtxo txIn.prevOutPoint).bind fun utxo =>
    let sc : Script := utxo.script
    if sc.isTokenIssue then
      sc.getIssueParams.toOption.map fun params =>
        (txIn.prevOutPoint, params.totalSupply.toNat * power params.decimals)
    else if sc.isTokenTransfer then
      sc.getTransferParams.toOption.map fun params => (params.tokenID, params.amount.toNat)
    else none

def outputToken (txOut : TxOut) : Option (TokenID × Nat) :=
  let sc : Script := txOut.scriptPubKey
  if sc.isTokenTransfer then sc.getTransferParams.toOption.map fun params => (params.tokenID, params.amount.toNat)
  else none

def amountOf (id : TokenID) : Option (TokenID × Nat) → Nat
  | none => 0
  | some (token, amount) => if id = token then amount else 0

def tokensIn (power : UInt8 → Nat) (utxoSet : UtxoSet) (vin : List TxIn) (id : TokenID) : Nat :=
  (vin.map fun txIn => amountOf id (inputToken power utxoSet txIn)).sum

def tokensOut (vout : List TxOut) (id : TokenID) : Nat := (vout.map fun txOut => amountOf id (outputToken txOut)).sum

/-- The powers of ten as the platform converts them. -/
def Pow10.power (pow10 : Pow10) (decimals : UInt8) : Nat := (pow10.toFun decimals).toNat

private def readAmount (id : TokenID) (token : Option (TokenID × UInt64)) : Nat :=
  amountOf id (token.map fun found => (found.1, found.2.toNat))

private theorem amount_addToken (amounts : TokenAmounts) (token : Option (TokenID × UInt64)) (id : TokenID) :
    ((addToken amounts token).amount id).toNat ≡ (amounts.amount id).toNat + readAmount id token [MOD 2 ^ 64] := by
  cases token with
  | none => rfl
  | some found =>
    simp only [addToken, amount_deposit, readAmount, map_some, amountOf]
    split
    · next same =>
      rw [UInt64.toNat_add, same]
      exact mod_modEq _ _
    · rfl

variable {token : Option (TokenID × UInt64)}

private theorem transferAmount_ok {sc : Script} (ok : (transferAmount sc).map some = .ok token) (id : TokenID) :
    readAmount id token =
      amountOf id (sc.getTransferParams.toOption.map fun params => (params.tokenID, params.amount.toNat)) := by
  unfold transferAmount at ok
  split at ok
  · next params read =>
    cases ok
    rw [read]
    rfl
  · cases ok

variable {pow10 : Pow10} {utxoSet : UtxoSet}

private theorem tokenInput_ok {txIn : TxIn} {utxo : UtxoWrap} (found : utxoSet.findUtxo txIn.prevOutPoint = some utxo)
    (ok : tokenInput pow10 txIn.prevOutPoint utxo.script = .ok token) (id : TokenID) :
    readAmount id token ≡ amountOf id (inputToken pow10.power utxoSet txIn) [MOD 2 ^ 64] := by
  unfold tokenInput at ok
  simp only [inputToken, found, bind_some]
  split at ok
  · next issue =>
    rw [if_pos issue]
    split at ok
    · cases ok
    · next params read =>
      split at ok
      · cases ok
      · -- Here the product is taken modulo `2 ^ 64`.
        cases ok
        simp only [read, Except.toOption, map_some, readAmount, amountOf, UInt64.toNat_mul]
        split
        · exact mod_modEq _ _
        · rfl
  · next plain =>
    rw [if_neg plain]
    split at ok
    · next transfer =>
      rw [if_pos transfer, transferAmount_ok ok]
    · next other =>
      rw [if_neg other]
      cases ok
      rfl

private theorem tokenOutput_ok {txOut : TxOut} (ok : tokenOutput txOut.scriptPubKey = .ok token) (id : TokenID) :
    readAmount id token = amountOf id (outputToken txOut) := by
  unfold tokenOutput at ok
  unfold outputToken
  dsimp only
  split at ok
  · next transfer => rw [if_pos transfer, transferAmount_ok ok]
  · next other =>
    rw [if_neg other]
    cases ok
    rfl

/-- After the loop over the inputs the map holds their sums, modulo `2 ^ 64`. -/
theorem amount_sumInputs (id : TokenID) (vin : List TxIn) {start total : UInt64}
    {before after : TokenAmounts} (ran : sumInputs pow10 utxoSet vin start before = .ok (total, after)) :
    (after.amount id).toNat ≡ (before.amount id).toNat + tokensIn pow10.power utxoSet vin id [MOD 2 ^ 64] := by
  induction vin generalizing start before with
  | nil =>
    cases ran
    rfl
  | cons txIn rest next =>
    unfold sumInputs at ran
    split at ran
    · cases ran
    · next utxo found =>
      simp only [ite_fail_ok_iff, bind_ok_iff] at ran
      obtain ⟨-, -, -, token, read, ran⟩ := ran
      calc (after.amount id).toNat
        _ ≡ ((addToken before token).amount id).toNat + tokensIn pow10.power utxoSet rest id [MOD 2 ^ 64] := next ran
        _ ≡ (before.amount id).toNat + readAmount id token + tokensIn pow10.power utxoSet rest id [MOD 2 ^ 64] :=
          (amount_addToken before token id).add_right _
        _ ≡ (before.amount id).toNat + amountOf id (inputToken pow10.power utxoSet txIn) +
            tokensIn pow10.power utxoSet rest id [MOD 2 ^ 64] :=
          ((tokenInput_ok found read id).add_left _).add_right _
        _ = (before.amount id).toNat + tokensIn pow10.power utxoSet (txIn :: rest) id := by
          simp only [tokensIn, map_cons, sum_cons, add_assoc]

theorem amount_sumOutputs (id : TokenID) (vout : List TxOut) {start total : UInt64} {before after : TokenAmounts}
    (ran : sumOutputs vout start before = .ok (total, after)) :
    (after.amount id).toNat ≡ (before.amount id).toNat + tokensOut vout id [MOD 2 ^ 64] := by
  induction vout generalizing start before with
  | nil =>
    cases ran
    rfl
  | cons txOut rest next =>
    simp only [sumOutputs, bind_ok_iff] at ran
    obtain ⟨token, read, ran⟩ := ran
    calc (after.amount id).toNat
      _ ≡ ((addToken before token).amount id).toNat + tokensOut rest id [MOD 2 ^ 64] := next ran
      _ ≡ (before.amount id).toNat + readAmount id token + tokensOut rest id [MOD 2 ^ 64] :=
        (amount_addToken before token id).add_right _
      _ = (before.amount id).toNat + tokensOut (txOut :: rest) id := by
        simp only [tokenOutput_ok read, tokensOut, map_cons, sum_cons, add_assoc]

theorem tokens_conserved_mod {tx : Transaction} {fee : UInt64}
    (accepted : validateTxInputs pow10 utxoSet tx = .ok fee) (coinbase : isCoinBase tx = false)
    (internal : isInternalContract tx = false) (id : TokenID) :
    tokensOut tx.vout id ≡ tokensIn pow10.power utxoSet tx.vin id [MOD 2 ^ 64] := by
  simp only [validateTxInputs, coinbase, internal, Bool.or_self, Bool.false_eq_true, if_false, bind_ok_iff,
    ite_fail_ok_iff, Prod.exists] at accepted
  obtain ⟨total, inputs, summedIn, spent, outputs, summedOut, -, size, entries, -⟩ := accepted
  have same : outputs.lookup id = inputs.lookup id := by
    apply lookup_eq_of_entries (not_not.mp size)
    intro entry member
    by_contra differ
    exact entries (any_eq_true.mpr ⟨entry, member, by simpa using differ⟩)
  have amounts : outputs.amount id = inputs.amount id := by rw [amount, same, amount]
  have summed := amount_sumOutputs id tx.vout summedOut
  rw [amounts, amount_empty] at summed
  have brought := amount_sumInputs id tx.vin summedIn
  rw [amount_empty] at brought
  simpa using summed.symm.trans brought

def tenTo (decimals : UInt8) : Nat := 10 ^ decimals.toNat

/-- Two numbers are equal when they are equal modulo `2 ^ 64` and wrap equally often. -/
private theorem eq_iff_wraps (left right : Nat) :
    left = right ↔ left / 2 ^ 64 = right / 2 ^ 64 ∧ left ≡ right [MOD 2 ^ 64] := by
  constructor
  · rintro rfl
    exact ⟨rfl, rfl⟩
  · rintro ⟨wraps, rest⟩
    unfold ModEq at rest
    omega

def samplePow10 : Pow10 where
  toFun decimals := .ofNat (10 ^ decimals.toNat)
  exact decimals small := by
    have bound : 10 ^ decimals.toNat ≤ 10 ^ 19 := Nat.pow_le_pow_right (by decide) small
    rw [UInt64.toNat_ofNat']
    exact mod_eq_of_lt (by omega)

def sampleOwner : AddressHash := .fill 20 7
def sampleIssueTx : HashType := .fill 32 3
def sampleTransferTx : HashType := .fill 32 4

/-- A token of 21 units, of which 5 were moved to an output of their own. -/
def sampleToken : TokenID := ⟨sampleIssueTx, 0⟩
def sampleMoved : OutPoint := ⟨sampleTransferTx, 0⟩

def sampleTokenOut (value amount : UInt64) : TxOut :=
  ⟨value, transferTokenScript sampleOwner ⟨sampleToken, amount⟩⟩

def sampleTokens : UtxoSet :=
  (UtxoSet.new.put sampleToken (.new 100 (issueTokenScript sampleOwner ⟨[65], [65], 21, 0⟩) 1)).put
    sampleMoved (.new 100 (sampleTokenOut 100 5).scriptPubKey 2)

def sampleTokenTx (spent : List OutPoint) (amounts : List UInt64) : Transaction where
  version := 1
  vin := spent.map fun outPoint => ⟨outPoint, [], 0⟩
  vout := amounts.map (sampleTokenOut 1)
  data := none
  magic := 0
  lockTime := 0
  type := .unknownTx

/-- Exactly when an accepted transaction conserves a token. -/
theorem tokens_conserved_iff {pow10 : Pow10} {utxoSet : UtxoSet} {tx : Transaction} {fee : UInt64}
    (accepted : validateTxInputs pow10 utxoSet tx = .ok fee) (coinbase : isCoinBase tx = false) (id : TokenID) :
    tokensOut tx.vout id = tokensIn tenTo utxoSet tx.vin id ↔
      tokensOut tx.vout id / 2 ^ 64 = tokensIn tenTo utxoSet tx.vin id / 2 ^ 64 ∧
        if isInternalContract tx then tokensOut tx.vout id ≡ tokensIn tenTo utxoSet tx.vin id [MOD 2 ^ 64]
        else tokensIn pow10.power utxoSet tx.vin id ≡ tokensIn tenTo utxoSet tx.vin id [MOD 2 ^ 64] := by
  rw [eq_iff_wraps]
  refine and_congr_right fun wraps => ?_
  split
  · rfl
  · next checked =>
    have conserved := tokens_conserved_mod accepted coinbase (by simpa using checked) id
    exact ⟨conserved.symm.trans, conserved.trans⟩

/-- The issue and the transfer are spent together. -/
theorem sample_tokens_conserved :
    let tx := sampleTokenTx [sampleToken, sampleMoved] [26]
    ∃ fee, validateTxInputs samplePow10 sampleTokens tx = .ok fee ∧
      tokensOut tx.vout sampleToken = tokensIn tenTo sampleTokens tx.vin sampleToken := by
  intro tx
  obtain ⟨fee, accepted⟩ := exists_ok (validateTxInputs samplePow10 sampleTokens tx) (by decide +kernel)
  exact ⟨fee, accepted,
    (tokens_conserved_iff accepted (by decide +kernel) sampleToken).mpr ⟨by decide +kernel, by decide +kernel⟩⟩

/-- Five units become `2 ^ 64 + 5`. -/
theorem wrapped_tokens_accepted :
    let tx := sampleTokenTx [sampleMoved] [9223372036854775808, 9223372036854775808, 5]
    validateTxInputs samplePow10 sampleTokens tx = .ok 97 ∧ isCoinBase tx = false ∧
      tokensIn tenTo sampleTokens tx.vin sampleToken = 5 ∧ tokensOut tx.vout sampleToken = 2 ^ 64 + 5 := by
  decide +kernel

end Boxd
