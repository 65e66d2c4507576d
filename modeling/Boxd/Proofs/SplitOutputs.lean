import Boxd.Chain.Split
import Boxd.Proofs.ScriptParse

/-! What expanding the payments to split addresses does to a transaction. The shares of
an output add up to its value, so that an expansion never adds coins. -/

namespace Boxd
open Lib List Nat Script UtxoSet Outcome

def outputTotal (vouts : List TxOut) : Nat := (vouts.map fun vout => vout.value.toNat).sum

def SplitAddrIndex.WeightsFit (index : SplitAddrIndex) : Prop :=
  ∀ addr info, index.findSplitAddr addr = some info → (info.shares.map fun share => share.2.toNat).sum < 2 ^ 64

theorem totalWeight_toNat {info : SplitAddrInfo} (fits : (info.shares.map fun share => share.2.toNat).sum < 2 ^ 64) :
    info.totalWeight.toNat = (info.shares.map fun share => share.2.toNat).sum := by
  obtain ⟨shares⟩ := info
  simp only [SplitAddrInfo.totalWeight] at fits ⊢
  induction shares with
  | nil => rfl
  | cons share rest next =>
    simp only [map_cons, sum_cons, UInt64.toNat_add, UInt32.toNat_toUInt64] at fits ⊢
    rw [next (by omega)]
    exact mod_eq_of_lt fits

private theorem share_mul_le (value totalWeight : UInt64) (weight : UInt32) :
    (value * weight.toUInt64 / totalWeight).toNat * totalWeight.toNat ≤ value.toNat * weight.toNat := by
  exact (div_mul_le_self _ _).trans (mod_le _ _)

/-- The shares that are left make up what has not been paid yet, as long as the weights
that are left do not ask for more. -/
private theorem splitShares_total {value totalWeight paid : UInt64} (positive : 0 < totalWeight.toNat)
    {shares : List (AddressHash × UInt32)} (nonempty : shares ≠ [])
    (enough : paid.toNat * totalWeight.toNat + value.toNat * (shares.map fun share => share.2.toNat).sum ≤
      value.toNat * totalWeight.toNat) :
    outputTotal (splitShares value totalWeight shares paid) + paid.toNat = value.toNat := by
  have bounded : ∀ amount, amount * totalWeight.toNat ≤ value.toNat * totalWeight.toNat → amount ≤ value.toNat :=
    fun _ le => le_of_mul_le_mul_right le positive
  fun_induction splitShares value totalWeight shares paid with
  | case1 => exact absurd rfl nonempty
  | case2 addr weight paid =>
    have paid_le := bounded paid.toNat ((le_add_right _ _).trans enough)
    simp only [outputTotal, map_cons, map_nil, sum_cons, sum_nil]
    rw [UInt64.toNat_sub_of_le value paid (UInt64.le_iff_toNat_le.mpr paid_le)]
    omega
  | case3 addr weight rest paid more share next =>
    have asked := share_mul_le value totalWeight weight
    change share.toNat * totalWeight.toNat ≤ _ at asked
    simp only [map_cons, sum_cons, mul_add] at enough
    have paid_le : paid.toNat + share.toNat ≤ value.toNat := by
      apply bounded
      rw [add_mul]
      omega
    have total : (paid + share).toNat = paid.toNat + share.toNat := by
      exact mod_eq_of_lt (paid_le.trans_lt value.toNat_lt)
    have remaining := next (by rintro rfl; exact more rfl) (by rw [total, add_mul]; omega)
    simp only [outputTotal, map_cons, sum_cons] at remaining ⊢
    omega

/-- The shares of an output make up its value, also where a product overflows. -/
theorem splitShares_whole {info : SplitAddrInfo} (fits : (info.shares.map fun share => share.2.toNat).sum < 2 ^ 64)
    (nonempty : info.shares ≠ []) (weighted : info.totalWeight ≠ 0) (value : UInt64) :
    outputTotal (splitShares value info.totalWeight info.shares 0) = value.toNat := by
  have positive : 0 < info.totalWeight.toNat := pos_of_ne_zero fun zero => weighted (UInt64.toNat_inj.mp zero)
  have whole : outputTotal (splitShares value info.totalWeight info.shares 0) + (0 : UInt64).toNat = value.toNat :=
    splitShares_total positive nonempty (by rw [UInt64.toNat_zero, zero_mul, zero_add, totalWeight_toNat fits])
  rwa [UInt64.toNat_zero, add_zero] at whole

theorem outputTotal_append (left right : List TxOut) : outputTotal (left ++ right) = outputTotal left + outputTotal right := by
  simp [outputTotal]

private theorem outputTotal_flatten_le {vouts : List TxOut} {expanded : List (List TxOut)}
    (within : Forall₂ (fun vout outs => outputTotal outs ≤ vout.value.toNat) vouts expanded) :
    outputTotal expanded.flatten ≤ outputTotal vouts := by
  induction within with
  | nil => rfl
  | cons first _ next =>
    rw [flatten_cons, outputTotal_append]
    exact Nat.add_le_add first next

variable {index : SplitAddrIndex} {depth : Nat}

theorem splitTxOutput_total_le (fit : index.WeightsFit) {txOut : TxOut}
    {outs : List TxOut} (ok : splitTxOutput index depth txOut = .ok outs) :
    outputTotal outs ≤ txOut.value.toNat := by
  induction depth generalizing txOut outs with
  | zero => cases ok
  | succ depth deeper =>
    unfold splitTxOutput at ok
    split at ok
    · cases ok
      simp [outputTotal]
    · next sai found =>
      obtain ⟨addr, -, record⟩ := Option.bind_eq_some_iff.mp found
      split at ok
      · cases ok
        exact zero_le _
      · next nonempty =>
        obtain ⟨nonzero, ok⟩ := ite_panicked_ok_iff.mp ok
        obtain ⟨expanded, each, rfl⟩ := exists_ok_map ok
        calc outputTotal expanded.flatten
          _ ≤ outputTotal (splitShares txOut.value sai.totalWeight sai.shares 0) :=
            outputTotal_flatten_le ((mapM_ok each).imp fun _ _ share => deeper share)
          _ = txOut.value.toNat := splitShares_whole (fit addr sai record) nonempty nonzero txOut.value

section
variable (addr : AddressHash)
include addr

theorem payToPubKeyHash_not_contract : isContractPubkey (payToPubKeyHashScript addr) = false := by
  simp [isContractPubkey, payToPubKeyHashScript, addOpCode, addOperand, operandHeader,
    addr.length_eq, opPushData1]

theorem payToPubKeyHash_recognised : isPayToPubKeyHash (payToPubKeyHashScript addr) = true := by
  simp [isPayToPubKeyHash, payToPubKeyHashScript, addOpCode, addOperand, operandHeader,
    addr.length_eq, opPushData1, p2PKHScriptLen, ripemd160Size]

theorem extractAddress_payToPubKeyHash :
    extractAddress (payToPubKeyHashScript addr) = .ok (.pubKeyHash addr) := by
  obtain ⟨opCode, -, encodes⟩ := encodes_operand addr.bytes (by simp [addr.length_eq])
  have read : parseNextOp (payToPubKeyHashScript addr) 2 = ⟨opCode, some addr.bytes, 2 + 21, none⟩ := by
    refine parseNextOp_ok_iff.mpr ⟨_, [opEqualVerify, opCheckSig], encodes, ?_, ?_⟩
    · simp [payToPubKeyHashScript, addOpCode, addOperand]
    · simp [addr.length_eq, operandHeader, opPushData1]
  have operand : nthOperand (payToPubKeyHashScript addr) 2 0 = .ok (addr.bytes, 23) := by
    simp [nthOperand, getNthOp, read, Except.map]
  simp only [extractAddress, pubkType, payToPubKeyHash_recognised, if_true, operand]
  simp [addressHashOf, addr.length_eq, Except.map, bind, Except.bind]

theorem pubKeyHashOf_payToPubKeyHash : pubKeyHashOf (payToPubKeyHashScript addr) = some addr := by
  rw [pubKeyHashOf, payToPubKeyHash_recognised, if_pos rfl, extractAddress_payToPubKeyHash]
  rfl

end

theorem splitShares_scripts (value totalWeight paid : UInt64) (shares : List (AddressHash × UInt32)) :
    (splitShares value totalWeight shares paid).map TxOut.scriptPubKey =
      shares.map fun share => payToPubKeyHashScript share.1 := by
  fun_induction splitShares value totalWeight shares paid with
  | case1 => rfl
  | case2 addr weight paid => rfl
  | case3 addr weight rest paid more share next => rw [map_cons, map_cons, next]

theorem splitShares_script {value totalWeight paid : UInt64} {shares : List (AddressHash × UInt32)} {out : TxOut}
    (member : out ∈ splitShares value totalWeight shares paid) :
    ∃ share ∈ shares, out.scriptPubKey = payToPubKeyHashScript share.1 := by
  have listed := mem_map_of_mem (f := TxOut.scriptPubKey) member
  rw [splitShares_scripts] at listed
  obtain ⟨share, among, pays⟩ := mem_map.mp listed
  exact ⟨share, among, pays.symm⟩

/-- An output of an expansion is the one that was expanded, or pays a public key hash. -/
theorem splitTxOutput_script {txOut : TxOut} {outs : List TxOut}
    (ok : splitTxOutput index depth txOut = .ok outs) {out : TxOut} (member : out ∈ outs) :
    out = txOut ∨ ∃ addr, out.scriptPubKey = payToPubKeyHashScript addr := by
  induction depth generalizing txOut outs with
  | zero => cases ok
  | succ depth deeper =>
    unfold splitTxOutput at ok
    split at ok
    · cases ok
      exact .inl (mem_singleton.mp member)
    · next sai found =>
      split at ok
      · cases ok
        cases member
      · obtain ⟨-, ok⟩ := ite_panicked_ok_iff.mp ok
        obtain ⟨expanded, each, rfl⟩ := exists_ok_map ok
        obtain ⟨outs, among, member⟩ := mem_flatten.mp member
        obtain ⟨child, ofShare, split⟩ := exists_of_mem_right (mapM_ok each) among
        right
        rcases deeper split member with rfl | pays
        · obtain ⟨share, -, pays⟩ := splitShares_script ofShare
          exact ⟨share.1, pays⟩
        · exact pays

structure Expansion (tx copy : Transaction) : Prop where
  vin : copy.vin = tx.vin
  total_le : outputTotal copy.vout ≤ outputTotal tx.vout
  script : ∀ out ∈ copy.vout, out ∈ tx.vout ∨ ∃ addr, out.scriptPubKey = payToPubKeyHashScript addr

variable {tx copy : Transaction} {isSplitTx : Bool}

theorem splitTxOutputs_vin (ok : splitTxOutputs index depth tx = .ok (copy, isSplitTx)) : copy.vin = tx.vin := by
  simp only [splitTxOutputs, bind_ok_iff] at ok
  obtain ⟨expanded, -, ok⟩ := ok
  split at ok
  · cases ok
    rfl
  · cases ok
    rfl

theorem splitTxOutputs_script (ok : splitTxOutputs index depth tx = .ok (copy, isSplitTx)) :
    ∀ out ∈ copy.vout, out ∈ tx.vout ∨ ∃ addr, out.scriptPubKey = payToPubKeyHashScript addr := by
  simp only [splitTxOutputs, bind_ok_iff] at ok
  obtain ⟨expanded, each, ok⟩ := ok
  split at ok
  · cases ok
    intro out member
    obtain ⟨outs, among, member⟩ := mem_flatten.mp member
    obtain ⟨txOut, paid, split⟩ := exists_of_mem_right (mapM_ok each) among
    rcases splitTxOutput_script split member with rfl | pays
    · exact .inl paid
    · exact .inr pays
  · cases ok
    exact fun _ member => .inl member

theorem splitTxOutputs_expansion (fit : index.WeightsFit)
    (ok : splitTxOutputs index depth tx = .ok (copy, isSplitTx)) : Expansion tx copy := by
  refine ⟨splitTxOutputs_vin ok, ?_, splitTxOutputs_script ok⟩
  simp only [splitTxOutputs, bind_ok_iff] at ok
  obtain ⟨expanded, each, ok⟩ := ok
  split at ok
  · cases ok
    exact outputTotal_flatten_le ((mapM_ok each).imp fun _ _ split => splitTxOutput_total_le fit split)
  · cases ok
    exact le_rfl

theorem splitTxs_ok {c : Crypto} {txs copies : List Transaction}
    {found splits : Table HashType Transaction} (ok : splitTxs c index depth txs found = .ok (copies, splits)) :
    Forall₂ (fun tx copy => ∃ isSplitTx, splitTxOutputs index depth tx = .ok (copy, isSplitTx)) txs copies := by
  induction txs generalizing found copies with
  | nil =>
    cases ok
    exact .nil
  | cons tx rest next =>
    simp only [splitTxs, bind_ok_iff, Prod.exists] at ok
    obtain ⟨copy, isSplitTx, first, others, _, ok, done⟩ := ok
    cases done
    exact .cons ⟨isSplitTx, first⟩ (next ok)

theorem splitTxs_congr {before after : SplitAddrIndex} {c : Crypto} {txs : List Transaction}
    (same : ∀ tx ∈ txs, splitTxOutputs after depth tx = splitTxOutputs before depth tx) (found : Table HashType Transaction) :
    splitTxs c after depth txs found = splitTxs c before depth txs found := by
  induction txs generalizing found with
  | nil => rfl
  | cons tx rest next =>
    rw [forall_mem_cons] at same
    simp only [splitTxs, same.1, next same.2]

section Accounts

/-- How many accounts an address leads to. -/
def SplitAddrIndex.accounts (index : SplitAddrIndex) : (depth : Nat) → AddressHash → Nat
  | 0, _ => 0
  | depth + 1, addr =>
    match index.findSplitAddr addr with
    | none => 1
    | some info => (info.shares.map fun share => index.accounts depth share.1).sum

/-- How many accounts are paid in the end. -/
def SplitAddrIndex.accountsPaid (index : SplitAddrIndex) (depth : Nat) (vout : TxOut) : Nat :=
  ((pubKeyHashOf vout.scriptPubKey).map (index.accounts depth)).getD 1

/-- The number of parts depends only on the scripts of the shares. -/
theorem accountsPaid_shares (value totalWeight : UInt64) (shares : List (AddressHash × UInt32)) :
    (splitShares value totalWeight shares 0).map (index.accountsPaid depth) =
      shares.map fun share => index.accounts depth share.1 := by
  have scripts := congrArg (map fun script => ((pubKeyHashOf script).map (index.accounts depth)).getD 1)
    (splitShares_scripts value totalWeight 0 shares)
  rw [map_map, map_map] at scripts
  refine scripts.trans (map_congr_left fun share _ => ?_)
  rw [Function.comp_apply, pubKeyHashOf_payToPubKeyHash]
  rfl

theorem splitTxOutput_length {txOut : TxOut} {outs : List TxOut} (ok : splitTxOutput index depth txOut = .ok outs) :
    outs.length = index.accountsPaid depth txOut := by
  induction depth generalizing txOut outs with
  | zero => cases ok
  | succ depth deeper =>
    unfold splitTxOutput at ok
    cases pays : pubKeyHashOf txOut.scriptPubKey with
    | none =>
      rw [pays] at ok
      cases ok
      rw [SplitAddrIndex.accountsPaid, pays]
      rfl
    | some addr =>
      rw [pays, Option.bind_some] at ok
      rw [SplitAddrIndex.accountsPaid, pays, Option.map_some, Option.getD_some, SplitAddrIndex.accounts]
      cases found : index.findSplitAddr addr with
      | none =>
        rw [found] at ok
        cases ok
        rfl
      | some info =>
        simp only [found] at ok ⊢
        split at ok
        · next empty =>
          cases ok
          rw [empty]
          rfl
        · obtain ⟨-, ok⟩ := ite_panicked_ok_iff.mp ok
          obtain ⟨expanded, each, rfl⟩ := exists_ok_map ok
          have lengths : expanded.map length =
              (splitShares txOut.value info.totalWeight info.shares 0).map (index.accountsPaid depth) := by
            refine (congrFun₂ forall₂_eq_eq_eq _ _).mp (forall₂_map_left_iff.mpr (forall₂_map_right_iff.mpr ?_))
            exact ((mapM_ok each).imp fun _ _ split => deeper split).flip
          rw [length_flatten, lengths, accountsPaid_shares]

/-- A transaction is not expanded if none of its outputs leads to several accounts. -/
theorem splitTxOutputs_unexpanded (few : ∀ vout ∈ tx.vout, index.accountsPaid depth vout ≤ 1)
    (ok : splitTxOutputs index depth tx = .ok (copy, isSplitTx)) : copy = tx := by
  simp only [splitTxOutputs, bind_ok_iff] at ok
  obtain ⟨expanded, each, ok⟩ := ok
  split at ok
  · next several =>
    obtain ⟨outs, among, more⟩ := any_eq_true.mp several
    obtain ⟨vout, paid, split⟩ := exists_of_mem_right (mapM_ok each) among
    have one := few vout paid
    rw [← splitTxOutput_length split] at one
    exact absurd (of_decide_eq_true more) (Nat.not_lt.mpr one)
  · cases ok
    rfl

end Accounts
end Boxd
