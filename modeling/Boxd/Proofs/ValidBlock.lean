import Boxd.Chain.Validate
import Boxd.Proofs.ApplyBlock
import Boxd.Proofs.SplitOutputs

/-! What an accepted block guarantees: outputs are in range, no outpoint is spent twice, and
fees are what the inputs are worth more than the outputs, as natural numbers. -/

namespace Boxd
open Lib List Outcome UtxoSet UInt64

/-- What the entry of an outpoint in the set is worth. -/
def UtxoSet.valueOf (utxoSet : UtxoSet) (outPoint : OutPoint) : Nat :=
  (utxoSet.findUtxo outPoint).elim 0 fun utxoWrap => utxoWrap.value.toNat

private theorem toNat_add_of_le {left right : UInt64} (noOverflow : ¬ left + right < left) :
    (left + right).toNat = left.toNat + right.toNat := by
  have bound := right.toNat_lt
  rw [UInt64.lt_iff_toNat_lt, UInt64.toNat_add] at noOverflow
  rw [UInt64.toNat_add]
  omega

variable {pow10 : Pow10} {utxoSet : UtxoSet} {start total : UInt64} {before after : TokenAmounts}

theorem sumInputs_ok {vin : List TxIn} (ran : sumInputs pow10 utxoSet vin start before = .ok (total, after))
    (small : start ≤ totalSupply) :
    total.toNat = start.toNat + ((vin.map TxIn.prevOutPoint).map utxoSet.valueOf).sum ∧ total ≤ totalSupply ∧
      ∀ txIn ∈ vin, ∃ utxoWrap, utxoSet.findUtxo txIn.prevOutPoint = some utxoWrap ∧ utxoWrap.isSpent = false := by
  induction vin generalizing start before with
  | nil =>
    cases ran
    exact ⟨rfl, small, by simp⟩
  | cons txIn rest next =>
    unfold sumInputs at ran
    split at ran
    · cases ran
    · next utxo found =>
      simp only [ite_fail_ok_iff, bind_ok_iff] at ran
      obtain ⟨unspent, -, inRange, token, -, ran⟩ := ran
      obtain ⟨noOverflow, inRange⟩ := not_or.mp inRange
      obtain ⟨sum, bounded, present⟩ := next ran (UInt64.not_lt.mp inRange)
      refine ⟨?_, bounded, forall_mem_cons.mpr ⟨⟨utxo, found, by simpa using unspent⟩, present⟩⟩
      rw [sum, toNat_add_of_le noOverflow]
      simp only [map_cons, sum_cons, valueOf, found, Option.elim_some]
      omega

theorem sumOutputs_ok {vout : List TxOut} (ran : sumOutputs vout start before = .ok (total, after)) :
    total.toNat = (start.toNat + outputTotal vout) % 2 ^ 64 ∧
      ∀ txOut ∈ vout, ∃ token, tokenOutput txOut.scriptPubKey = .ok token := by
  induction vout generalizing start before with
  | nil =>
    cases ran
    exact ⟨(Nat.mod_eq_of_lt total.toNat_lt).symm, by simp⟩
  | cons txOut rest next =>
    simp only [sumOutputs, bind_ok_iff] at ran
    obtain ⟨token, read, ran⟩ := ran
    obtain ⟨sum, tokens⟩ := next ran
    refine ⟨?_, forall_mem_cons.mpr ⟨⟨token, read⟩, tokens⟩⟩
    rw [sum, UInt64.toNat_add]
    simp only [outputTotal, map_cons, sum_cons]
    omega

theorem checkVoutValues_total {vout : List TxOut} (ok : checkVoutValues vout start = .ok ())
    (small : start ≤ totalSupply) : start.toNat + outputTotal vout ≤ totalSupply.toNat := by
  induction vout generalizing start with
  | nil => simpa [outputTotal, le_iff_toNat_le] using small
  | cons txOut rest next =>
    unfold checkVoutValues at ok
    split at ok
    · cases ok
    · split at ok
      · cases ok
      · next noOverflow =>
        split at ok
        · cases ok
        · next inRange =>
          have total := next ok (UInt64.not_lt.mp inRange)
          rw [add_comm start] at noOverflow total
          rw [toNat_add_of_le noOverflow] at total
          simp only [outputTotal, map_cons, sum_cons] at total ⊢
          omega

variable {tx : Transaction}

/-- The fee of an ordinary transaction is what its inputs are worth more than its
outputs. -/
theorem validateTxInputs_balance {fee : UInt64}
    (accepted : validateTxInputs pow10 utxoSet tx = .ok fee) (ordinary : (isCoinBase tx || isInternalContract tx) = false)
    (inRange : outputTotal tx.vout ≤ totalSupply.toNat) :
    ((tx.vin.map TxIn.prevOutPoint).map utxoSet.valueOf).sum = outputTotal tx.vout + fee.toNat := by
  simp only [validateTxInputs, ordinary, Bool.false_eq_true, if_false, bind_ok_iff, ite_fail_ok_iff,
    Prod.exists] at accepted
  obtain ⟨total, _, summedIn, spent, _, summedOut, covered, -, -, done⟩ := accepted
  cases done
  have inputs := (sumInputs_ok summedIn (by decide)).1
  have outputs := (sumOutputs_ok summedOut).1
  have supply : totalSupply.toNat < 2 ^ 64 := by decide
  rw [UInt64.toNat_zero, zero_add] at inputs outputs
  rw [UInt64.not_lt] at covered
  rw [UInt64.toNat_sub_of_le _ _ covered]
  rw [le_iff_toNat_le] at covered
  omega

theorem isStandardTx_message (statedb : StateDB) (tx : Transaction) :
    (isStandardTx statedb tx).2.toTxMessage = tx.toTxMessage := by
  unfold isStandardTx
  split <;> rfl

theorem preliminary_vin (ok : validateTransactionPreliminary tx = .ok ()) : tx.vin ≠ [] := by
  unfold validateTransactionPreliminary at ok
  split at ok
  · cases ok
  · next filled => exact fun empty => filled (congrArg length empty)

theorem preliminary_total (ok : validateTransactionPreliminary tx = .ok ()) :
    outputTotal tx.vout ≤ totalSupply.toNat := by
  unfold validateTransactionPreliminary at ok
  split_ifs at ok
  all_goals
    obtain ⟨⟨⟩, values, -⟩ := bind_ok_iff.mp ok
    simpa using checkVoutValues_total values (by decide)

variable {statedb : StateDB} {txs : List Transaction}

section
variable {header : BlockHeader} {validated : List Transaction} {existing : List OutPoint} {size : Nat}

theorem validateTxs_cons (ok : validateTxs header statedb (tx :: txs) existing size = .ok validated) :
    validateTransactionPreliminary tx = .ok () ∧ (spentBy tx).Nodup ∧ (∀ outPoint ∈ spentBy tx, outPoint ∉ existing) ∧
      (isStandardTx statedb tx).1 = true ∧ ∃ size others,
        validateTxs header statedb txs (existing ++ spentBy tx) size = .ok others ∧
        validated = (isStandardTx statedb tx).2 :: others := by
  unfold validateTxs at ok
  split at ok
  · cases ok
  · split at ok
    · cases ok
    · obtain ⟨⟨⟩, preliminary, ok⟩ := bind_ok_iff.mp ok
      dsimp only at ok
      split at ok
      · cases ok
      · next spends =>
        split at ok
        · cases ok
        · next standard =>
          obtain ⟨others, checked, done⟩ := bind_ok_iff.mp ok
          cases done
          obtain ⟨once, unspent⟩ := not_not.mp spends
          exact ⟨preliminary, once, unspent, by simpa using standard, _, others, checked, rfl⟩

theorem validateTxs_ok (ok : validateTxs header statedb txs existing size = .ok validated) :
    Forall₂ (fun tx typed => typed.toTxMessage = tx.toTxMessage) txs validated ∧
      (∀ tx ∈ txs, tx.vin ≠ [] ∧ outputTotal tx.vout ≤ totalSupply.toNat) ∧ (txs.flatMap spentBy).Nodup ∧
      ∀ outPoint ∈ txs.flatMap spentBy, outPoint ∉ existing := by
  induction txs generalizing existing size validated with
  | nil =>
    cases ok
    exact ⟨.nil, by simp⟩
  | cons tx rest next =>
    obtain ⟨preliminary, once, unspent, -, _, others, checked, rfl⟩ := validateTxs_cons ok
    obtain ⟨messages, each, distinct, apart⟩ := next checked
    refine ⟨.cons (isStandardTx_message statedb tx) messages, ?_, ?_, ?_⟩
    · exact forall_mem_cons.mpr ⟨⟨preliminary_vin preliminary, preliminary_total preliminary⟩, each⟩
    · rw [flatMap_cons, nodup_append]
      refine ⟨once, distinct, ?_⟩
      rintro outPoint now _ later rfl
      exact apart outPoint later (mem_append_right _ now)
    · intro outPoint member
      rcases mem_append.mp (flatMap_cons ▸ member) with now | later
      · exact unspent outPoint now
      · exact fun earlier => apart outPoint later (mem_append_left _ earlier)

end

/-- What is known about a block that `validateBlock` accepts. -/
structure ValidBlock (block validated : Block) : Prop where
  header : validated.header = block.header
  messages : Forall₂ (fun tx typed : Transaction => typed.toTxMessage = tx.toTxMessage) block.txs validated.txs
  coinbase : ∃ first rest, block.txs = first :: rest ∧ isCoinBase first = true ∧ ∀ tx ∈ rest, isCoinBase tx = false
  inRange : ∀ tx ∈ block.txs, outputTotal tx.vout ≤ totalSupply.toNat
  distinct : (block.txs.flatMap spentBy).Nodup

variable {c : Crypto}

theorem validateBlock_ok {block validated : Block}
    (ok : validateBlock c block statedb = .ok validated) : ValidBlock block validated := by
  unfold validateBlock at ok
  split at ok
  · cases ok
  · next first rest listed =>
    simp only [ite_fail_ok_iff, bind_ok_iff, lift_ok_iff] at ok
    obtain ⟨isFirst, others, txs, checked, root, -, -, done⟩ := ok
    cases done
    obtain ⟨messages, each, distinct, -⟩ := validateTxs_ok checked
    refine ⟨rfl, messages, ⟨first, rest, listed, by simpa using isFirst, ?_⟩, fun tx member => (each tx member).2, distinct⟩
    simpa using others

/-- Whether a transaction is checked against the outputs that it spends. -/
def isOrdinary (tx : Transaction) : Bool := !(isCoinBase tx || isInternalContract tx)

theorem isOrdinary_congr {left right : Transaction} (same : left.vin = right.vin) :
    isOrdinary left = isOrdinary right := by
  simp only [isOrdinary, isCoinBase, isInternalContract, hasSystemInput, same]

def ordinaryTotal (txs : List Transaction) : Nat :=
  ((txs.filter isOrdinary).map fun tx => outputTotal tx.vout).sum

theorem consumed_eq (tx : Transaction) : consumed tx = if isOrdinary tx then spentBy tx else [] := by
  unfold consumed isOrdinary
  cases isCoinBase tx || isInternalContract tx <;> rfl

theorem consumed_congr {left right : Transaction} (same : left.vin = right.vin) :
    consumed left = consumed right := by
  rw [consumed_eq, consumed_eq, isOrdinary_congr same, spentBy, spentBy, same]

variable {typed : List Transaction} {totalFees : UInt64}

theorem validateBlockInputs_cons {rest : List Transaction}
    (ok : validateBlockInputs c pow10 utxoSet statedb (tx :: rest) start = .ok (totalFees, typed)) :
    ∃ raised others, validateBlockInputs c pow10 utxoSet statedb rest raised = .ok (totalFees, others) ∧
      typed = (getTxType statedb tx).2 :: others ∧
      if isOrdinary tx then ∃ txFee, validateTxInputs pow10 utxoSet (getTxType statedb tx).2 = .ok txFee ∧
        raised.toNat ≤ start.toNat + txFee.toNat
      else raised = start := by
  have same := getTxType_message statedb tx
  rw [← isOrdinary_congr (congrArg TxMessage.vin same)]
  unfold validateBlockInputs at ok
  generalize getTxType statedb tx = cached at ok
  obtain ⟨txType, cached⟩ := cached
  dsimp only at ok ⊢
  split at ok
  · next system =>
    obtain ⟨⟨fees, others⟩, checked, done⟩ := bind_ok_iff.mp ok
    cases done
    refine ⟨start, others, checked, rfl, ?_⟩
    rw [isOrdinary, system]
    rfl
  · next ordinary =>
    have ordinary : isOrdinary cached = true := by simpa [isOrdinary] using ordinary
    simp only [if_pos ordinary]
    obtain ⟨txFee, accepted, ok⟩ := bind_ok_iff.mp ok
    split at ok
    · simp only [ite_fail_ok_iff, bind_ok_iff, Prod.exists] at ok
      obtain ⟨-, noOverflow, fees, others, checked, done⟩ := ok
      cases done
      exact ⟨_, others, checked, rfl, txFee, accepted, (toNat_add_of_le noOverflow).le⟩
    · simp only [bind_ok_iff, Prod.exists] at ok
      obtain ⟨-, -, fees, others, checked, done⟩ := ok
      cases done
      exact ⟨start, others, checked, rfl, txFee, accepted, Nat.le_add_right _ _⟩

private theorem validateBlockInputs_raised {rest : List Transaction}
    (inRange : outputTotal tx.vout ≤ totalSupply.toNat)
    (ok : validateBlockInputs c pow10 utxoSet statedb (tx :: rest) start = .ok (totalFees, typed)) :
    ∃ raised others, validateBlockInputs c pow10 utxoSet statedb rest raised = .ok (totalFees, others) ∧
      ordinaryTotal [tx] + raised.toNat ≤ ((consumed tx).map utxoSet.valueOf).sum + start.toNat := by
  obtain ⟨raised, others, checked, -, fee⟩ := validateBlockInputs_cons ok
  refine ⟨raised, others, checked, ?_⟩
  have same := getTxType_message statedb tx
  cases kind : isOrdinary tx with
  | false =>
    rw [kind] at fee
    cases fee
    simp [ordinaryTotal, consumed_eq, kind]
  | true =>
    rw [kind] at fee
    obtain ⟨txFee, accepted, bound⟩ := fee
    have ordinary : (isCoinBase (getTxType statedb tx).2 || isInternalContract (getTxType statedb tx).2) = false := by
      have ordinary := (isOrdinary_congr (congrArg TxMessage.vin same)).trans kind
      simpa [isOrdinary] using ordinary
    have balance := validateTxInputs_balance accepted ordinary (by rwa [same])
    rw [same] at balance
    have total : ordinaryTotal [tx] = outputTotal tx.vout := by simp [ordinaryTotal, kind]
    rw [total, consumed_eq, if_pos kind, spentBy, balance]
    omega

/-- The fees are covered by what the inputs are worth more than the outputs. -/
theorem validateBlockInputs_fees (inRange : ∀ tx ∈ txs, outputTotal tx.vout ≤ totalSupply.toNat)
    (ok : validateBlockInputs c pow10 utxoSet statedb txs start = .ok (totalFees, typed)) :
    ordinaryTotal txs + totalFees.toNat ≤
      ((txs.flatMap consumed).map utxoSet.valueOf).sum + start.toNat := by
  induction txs generalizing start typed with
  | nil =>
    cases ok
    rfl
  | cons tx rest next =>
    obtain ⟨raised, others, checked, step⟩ := validateBlockInputs_raised (inRange tx mem_cons_self) ok
    have run := next (fun tx member => inRange tx (mem_cons_of_mem _ member)) checked
    have total : ordinaryTotal (tx :: rest) = ordinaryTotal [tx] + ordinaryTotal rest := by
      unfold ordinaryTotal
      cases kind : isOrdinary tx <;> simp [kind]
    rw [total, flatMap_cons, map_append, sum_append]
    omega

/-- What is known about an ordinary transaction: what it spends is in the set, and the
tokens that it pays can be read. -/
structure InputsChecked (utxoSet : UtxoSet) (tx : Transaction) : Prop where
  present : ∀ outPoint ∈ spentBy tx, ∃ utxoWrap, utxoSet.findUtxo outPoint = some utxoWrap
  tokens : ∀ txOut ∈ tx.vout, ∃ token, tokenOutput txOut.scriptPubKey = .ok token

theorem validateTxInputs_checked {fee : UInt64}
    (ordinary : isOrdinary tx = true) (accepted : validateTxInputs pow10 utxoSet tx = .ok fee) :
    InputsChecked utxoSet tx := by
  have ordinary : (isCoinBase tx || isInternalContract tx) = false := by simpa [isOrdinary] using ordinary
  simp only [validateTxInputs, ordinary, Bool.false_eq_true, if_false, bind_ok_iff, Prod.exists] at accepted
  obtain ⟨_, _, summed, _, _, paid, -⟩ := accepted
  constructor
  · intro outPoint member
    obtain ⟨txIn, among, rfl⟩ := mem_map.mp member
    exact ((sumInputs_ok summed (by decide)).2.2 txIn among).imp fun _ found => found.1
  · exact (sumOutputs_ok paid).2

/-- The transactions only have their types cached, and the ordinary ones are checked. -/
theorem validateBlockInputs_checked (ok : validateBlockInputs c pow10 utxoSet statedb txs start = .ok (totalFees, typed)) :
    typed = txs.map (fun tx => (getTxType statedb tx).2) ∧
      ∀ tx ∈ txs, isOrdinary tx = true → InputsChecked utxoSet tx := by
  induction txs generalizing start typed with
  | nil =>
    cases ok
    exact ⟨rfl, by simp⟩
  | cons tx rest next =>
    obtain ⟨raised, others, checked, rfl, fee⟩ := validateBlockInputs_cons ok
    obtain ⟨rfl, later⟩ := next checked
    refine ⟨rfl, forall_mem_cons.mpr ⟨?_, later⟩⟩
    intro ordinary
    rw [if_pos ordinary] at fee
    obtain ⟨txFee, accepted, -⟩ := fee
    have same := getTxType_message statedb tx
    have checks := validateTxInputs_checked ((isOrdinary_congr (congrArg TxMessage.vin same)).trans ordinary) accepted
    refine ⟨?_, ?_⟩
    · have present := checks.present
      rwa [spentBy, same] at present
    · have tokens := checks.tokens
      rwa [same] at tokens

theorem present_of_checked (checked : ∀ tx ∈ txs, isOrdinary tx = true → InputsChecked utxoSet tx) :
    ∀ outPoint ∈ txs.flatMap consumed, ∃ utxoWrap, utxoSet.findUtxo outPoint = some utxoWrap := by
  intro outPoint member
  obtain ⟨tx, among, spent⟩ := mem_flatMap.mp member
  rw [consumed_eq] at spent
  split at spent
  · next ordinary => exact (checked tx among ordinary).present outPoint spent
  · cases spent

theorem validateBlockInputs_present (known : ∀ tx ∈ txs, tx.type ≠ .unknownTx)
    (ok : validateBlockInputs c pow10 utxoSet statedb txs start = .ok (totalFees, typed)) :
    typed = txs ∧ ∀ outPoint ∈ txs.flatMap consumed, ∃ utxoWrap, utxoSet.findUtxo outPoint = some utxoWrap := by
  obtain ⟨rfl, checked⟩ := validateBlockInputs_checked ok
  refine ⟨?_, present_of_checked checked⟩
  have cached : ∀ tx ∈ txs, (getTxType statedb tx).2 = tx := fun tx member =>
    congrArg Prod.snd (if_pos (known tx member) : getTxType statedb tx = (tx.type, tx))
  rw [map_congr_left cached, map_id']

end Boxd
