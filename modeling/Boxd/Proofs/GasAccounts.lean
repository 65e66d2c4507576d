import Boxd.Chain.Process
import Boxd.Proofs.Coinbase
import Boxd.Proofs.TransferOrder
import Boxd.Proofs.ValidBlock
import Boxd.Proofs.TxTypes

/-! Gas is bought with the inputs of a transaction. What is used goes to the coinbase,
and the rest is paid back. -/

namespace Boxd
open Lib List Option Outcome Nat Bool UtxoSet Script Bpos AList UInt64

variable {before : StateDB} {received : Block}

/-- What the transactions that pay gas back are worth. They are those without an input
of their own. -/
def gasRefunds (txs : List Transaction) : Nat := ((txs.filter isCoinBase).map fun tx => outputTotal tx.vout).sum

theorem toNat_charge {gas price extra : UInt64} (fits : gas.toNat * price.toNat + extra.toNat < 2 ^ 64) :
    (gas * price + extra).toNat = gas.toNat * price.toNat + extra.toNat := by
  have product : gas.toNat * price.toNat < 2 ^ 64 := by omega
  rw [UInt64.toNat_add, UInt64.toNat_mul, mod_eq_of_lt product, mod_eq_of_lt fits]

namespace Evm

variable {world : World} {evm : Evm world} {context : EvmContext} {state : world.State} {msg : VMTransaction}
  {made : Transition world.State}

theorem runMessage_gas (evm : Evm world) (context : EvmContext) (state : world.State) (msg : VMTransaction) (gas : UInt64) :
    (evm.runMessage context state msg gas).gas ≤ gas := by
  unfold runMessage
  split
  · exact evm.create_gas ..
  · exact evm.call_gas ..

/-- The gas accounts of a message: the gas that is left and what is given back besides
are not used, and at most half of what was consumed is given back. -/
structure Settled (evm : Evm world) (context : EvmContext) (state : world.State) (msg : VMTransaction)
    (made : Transition world.State) (bought : world.State) (given left extra : UInt64) : Prop where
  paid : buyGas state msg = .ok bought
  given_le : given ≤ msg.gas
  left_le : left ≤ given
  leftOver : left = (evm.runMessage context bought msg given).gas
  extra_eq : extra = evm.extraRefund (evm.runMessage context bought msg given).state msg left
  half : 2 * extra.toNat ≤ msg.gas.toNat - left.toNat
  used : made.usedGas.toNat + left.toNat + extra.toNat = msg.gas.toNat
  refunds : gasRefunds made.gasRefundTx.toList = (left.toNat + extra.toNat) * msg.gasPrice % 2 ^ 64

theorem extraRefund_le (evm : Evm world) (state : world.State) {left : UInt64} (below : left ≤ msg.gas) :
    2 * (evm.extraRefund state msg left).toNat ≤ msg.gas.toNat - left.toNat := by
  have half : ((msg.gas - left) / 2).toNat = (msg.gas.toNat - left.toNat) / 2 := by
    rw [UInt64.toNat_div, UInt64.toNat_sub_of_le _ _ below]
    rfl
  unfold extraRefund
  simp only
  split
  next less =>
    rw [lt_iff_toNat_lt, half] at less
    omega
  next => omega

theorem gasRefunds_paid (addr : AddressHash) (paid nonce : UInt64) :
    gasRefunds (if 0 < paid then some (createGasRefundUtxoTx addr paid nonce) else none).toList = paid.toNat := by
  split
  next =>
    change outputTotal [_] + 0 = _
    simp [outputTotal]
  next zero =>
    rw [UInt64.not_lt] at zero
    rw [UInt64.le_zero_iff.mp zero]
    rfl

theorem payIntrinsicGas_le {given : UInt64} (paid : payIntrinsicGas msg = .ok given) : given ≤ msg.gas := by
  unfold payIntrinsicGas useGas at paid
  split at paid
  next => cases paid
  next gas _ =>
    split at paid
    next => cases paid
    next enough =>
      cases paid
      rw [UInt64.le_iff_toNat_le, UInt64.toNat_sub_of_le _ _ (UInt64.not_lt.mp enough)]
      exact sub_le _ _

theorem transitionDb_settled (done : evm.transitionDb context state msg = .ok made) :
    ∃ bought given left extra, evm.Settled context state msg made bought given left extra := by
  obtain ⟨bought, paid, done⟩ := bind_ok_iff.mp done
  obtain ⟨given, counted, done⟩ := bind_ok_iff.mp done
  simp only at done
  split at done
  next => cases done
  next =>
    cases done
    have given_le := payIntrinsicGas_le counted
    have left_le := runMessage_gas evm context bought msg given
    have below := UInt64.le_iff_toNat_le.mp (UInt64.le_trans left_le given_le)
    have half := evm.extraRefund_le (evm.runMessage context bought msg given).state (UInt64.le_trans left_le given_le)
    have sum : ((evm.runMessage context bought msg given).gas +
        evm.extraRefund (evm.runMessage context bought msg given).state msg
          (evm.runMessage context bought msg given).gas).toNat =
        (evm.runMessage context bought msg given).gas.toNat +
          (evm.extraRefund (evm.runMessage context bought msg given).state msg
            (evm.runMessage context bought msg given).gas).toNat := by
      rw [UInt64.toNat_add, mod_eq_of_lt]
      have := msg.gas.toNat_lt
      omega
    refine ⟨bought, given, _, _, paid, given_le, left_le, rfl, rfl, half, ?_, ?_⟩
    · simp only [refundGas]
      rw [UInt64.toNat_sub_of_le _ _ (by rw [UInt64.le_iff_toNat_le, sum]; omega), sum]
      omega
    · simp only [refundGas]
      rw [gasRefunds_paid, toNat_ofNat', sum]

/-- Gas and its price add up if and only if what is paid back fits into 64 bits. -/
theorem Settled.balance {bought : world.State} {given left extra : UInt64}
    (settled : evm.Settled context state msg made bought given left extra) :
    msg.gas.toNat * msg.gasPrice = made.usedGas.toNat * msg.gasPrice + gasRefunds made.gasRefundTx.toList ↔
      (left.toNat + extra.toNat) * msg.gasPrice < 2 ^ 64 := by
  have parts : msg.gas.toNat * msg.gasPrice =
      made.usedGas.toNat * msg.gasPrice + (left.toNat + extra.toNat) * msg.gasPrice := by
    rw [← settled.used, add_assoc, add_mul]
  rw [parts, settled.refunds, add_left_cancel_iff]
  constructor
  · intro same
    rw [same]
    exact mod_lt _ (by decide)
  · intro fits
    exact (mod_eq_of_lt fits).symm

end Evm

section Calls

variable {c : Crypto}

/-- No output of a transaction calls a contract after one that pays an address which is a
contract in only one of two states. -/
def Transaction.Steady (before now : StateDB) (tx : Transaction) : Prop :=
  tx.vout.Pairwise fun earlier later => isContractPubkey later.scriptPubKey = true →
    ∀ addr ∈ pubKeyHashOf earlier.scriptPubKey, now.isContractAddr addr = before.isContractAddr addr

instance Transaction.decidableSteady (before now : StateDB) (tx : Transaction) : Decidable (tx.Steady before now) :=
  inferInstanceAs (Decidable (Pairwise _ _))

variable {param : VMTxParams} {statedb : StateDB} {vin : List TxIn}

section
variable {out vout : TxOut} {rest : List TxOut} {addr : AddressHash}
  (plain : isContractPubkey out.scriptPubKey = false) (pays : pubKeyHashOf out.scriptPubKey = some addr)
include plain pays

theorem contractVoutFrom_skip (ordinary : statedb.isContractAddr addr = false) :
    contractVoutFrom c statedb vin (out :: rest) = contractVoutFrom c statedb vin rest := by
  simp only [contractVoutFrom, plain, pays, ordinary, false_eq_true, if_false, Bool.not_false, if_true]

/-- A payment to a contract is taken for a call with the gas of a transfer. -/
theorem contractVoutFrom_paid (contract : statedb.isContractAddr addr = true)
    (found : contractVoutFrom c statedb vin (out :: rest) = .ok vout)
    (parsed : parseContractParams vout.scriptPubKey = .ok param) : param.gasLimit = transferGasLimit := by
  simp only [contractVoutFrom, plain, pays, contract, false_eq_true, if_false, Bool.not_true] at found
  obtain ⟨sender, -, found⟩ := bind_ok_iff.mp found
  obtain ⟨script, made, found⟩ := bind_ok_iff.mp found
  cases found
  cases (parseContractParams_made (toOption_eq_some_iff.mp (expect_ok made))).symm.trans parsed
  rfl

end

theorem contractVoutFrom_transfer {vouts : List TxOut} {vout : TxOut}
    (plain : ∀ out ∈ vouts, isContractPubkey out.scriptPubKey = false)
    (found : contractVoutFrom c statedb vin vouts = .ok vout)
    (parsed : parseContractParams vout.scriptPubKey = .ok param) : param.gasLimit = transferGasLimit := by
  induction vouts with
  | nil => cases found
  | cons out rest next =>
    rw [forall_mem_cons] at plain
    cases pays : pubKeyHashOf out.scriptPubKey with
    | none =>
      simp only [contractVoutFrom, plain.1, pays, false_eq_true, if_false] at found
      exact next plain.2 found
    | some addr =>
      cases contract : statedb.isContractAddr addr with
      | false =>
        rw [contractVoutFrom_skip plain.1 pays contract] at found
        exact next plain.2 found
      | true => exact contractVoutFrom_paid plain.1 pays contract found parsed

/-- The gas limit of a call is the same in two states if the payments before the call are to
the same contracts in both. -/
theorem contractVoutFrom_gasLimit {now : StateDB} {vouts : List TxOut} {first second : TxOut}
    (steady : vouts.Pairwise fun earlier later => isContractPubkey later.scriptPubKey = true →
      ∀ addr ∈ pubKeyHashOf earlier.scriptPubKey, now.isContractAddr addr = before.isContractAddr addr)
    (found : contractVoutFrom c before vin vouts = .ok first) (again : contractVoutFrom c now vin vouts = .ok second)
    {other : VMTxParams} (parsed : parseContractParams first.scriptPubKey = .ok param)
    (reparsed : parseContractParams second.scriptPubKey = .ok other) : param.gasLimit = other.gasLimit := by
  induction vouts with
  | nil => cases found
  | cons out rest next =>
    obtain ⟨later, steady⟩ := pairwise_cons.mp steady
    cases plain : isContractPubkey out.scriptPubKey with
    | true =>
      simp only [contractVoutFrom, plain, if_true] at found again
      cases found
      cases again
      cases parsed.symm.trans reparsed
      rfl
    | false =>
      cases pays : pubKeyHashOf out.scriptPubKey with
      | none =>
        simp only [contractVoutFrom, plain, pays, false_eq_true, if_false] at found again
        exact next steady found again
      | some addr =>
        by_cases calls : ∃ other ∈ rest, isContractPubkey other.scriptPubKey = true
        · obtain ⟨call, among, isCall⟩ := calls
          have same := later call among isCall addr pays
          cases contract : before.isContractAddr addr with
          | false =>
            rw [contractVoutFrom_skip plain pays contract] at found
            rw [contractVoutFrom_skip plain pays (same.trans contract)] at again
            exact next steady found again
          | true =>
            rw [contractVoutFrom_paid plain pays contract found parsed,
              contractVoutFrom_paid plain pays (same.trans contract) again reparsed]
        · have none_ : ∀ other ∈ out :: rest, isContractPubkey other.scriptPubKey = false :=
            forall_mem_cons.mpr ⟨plain, fun other member => eq_false_iff.mpr fun call => calls ⟨other, member, call⟩⟩
          rw [contractVoutFrom_transfer none_ found parsed, contractVoutFrom_transfer none_ again reparsed]

def Transaction.isCall (tx : Transaction) : Bool := decide (tx.type = .contractTx) && isOrdinary tx

def callParams (c : Crypto) (statedb : StateDB) (tx : Transaction) : Option VMTxParams :=
  (getContractVout c tx statedb).toOption.bind fun vout => (parseContractParams vout.scriptPubKey).toOption

def gasCharge (c : Crypto) (statedb : StateDB) (tx : Transaction) : Nat :=
  ((callParams c statedb tx).map fun param => param.gasLimit.toNat * fixedGasPrice.toNat + (extraFee tx).toNat).getD 0

def blockCharge (c : Crypto) (statedb : StateDB) (txs : List Transaction) : Nat :=
  ((txs.filter Transaction.isCall).map (gasCharge c statedb)).sum

variable {tx : Transaction}

theorem blockCharge_call (call : tx.isCall = true) (shown : callParams c statedb tx = some param) :
    blockCharge c statedb [tx] = param.gasLimit.toNat * fixedGasPrice.toNat + (extraFee tx).toNat := by
  rw [blockCharge, filter_cons_of_pos call, filter_nil, map_singleton, sum_singleton, gasCharge, shown,
    map_some, getD_some]

theorem callParams_eq_some : callParams c statedb tx = some param ↔
      ∃ vout, getContractVout c tx statedb = .ok vout ∧ parseContractParams vout.scriptPubKey = .ok param := by
  simp only [callParams, bind_eq_some_iff, toOption_eq_some_iff]

theorem callParams_gasLimit {now : StateDB} {other : VMTxParams} (steady : tx.Steady before now)
    (found : callParams c before tx = some param) (again : callParams c now tx = some other) :
    param.gasLimit = other.gasLimit := by
  obtain ⟨vout, found, parsed⟩ := callParams_eq_some.mp found
  obtain ⟨second, again, reparsed⟩ := callParams_eq_some.mp again
  exact contractVoutFrom_gasLimit steady found again parsed reparsed

theorem validateBlockInputs_calls {pow10 : Pow10} {utxoSet : UtxoSet} {txs typed : List Transaction}
    {start totalFees : UInt64} (known : ∀ tx ∈ txs, tx.type ≠ .unknownTx)
    (ok : validateBlockInputs c pow10 utxoSet statedb txs start = .ok (totalFees, typed)) :
    ∀ tx ∈ txs, tx.isCall = true → ∃ param, callParams c statedb tx = some param ∧
      validateTxInputs pow10 utxoSet tx = .ok (param.gasLimit * fixedGasPrice + extraFee tx) := by
  induction txs generalizing start typed with
  | nil => simp
  | cons tx rest next =>
    have next := fun {start others} => @next others start fun tx member => known tx (mem_cons_of_mem _ member)
    have cached : getTxType statedb tx = (tx.type, tx) := if_pos (known tx mem_cons_self)
    simp only [validateBlockInputs, cached] at ok
    rw [forall_mem_cons]
    split at ok
    next system =>
      obtain ⟨⟨fees, others⟩, checked, done⟩ := bind_ok_iff.mp ok
      cases done
      refine ⟨fun call => ?_, next checked⟩
      rw [Transaction.isCall, isOrdinary, system, Bool.not_true, Bool.and_false] at call
      cases call
    next =>
      obtain ⟨txFee, accepted, ok⟩ := bind_ok_iff.mp ok
      split at ok
      next other =>
        simp only [ite_fail_ok_iff, bind_ok_iff, Prod.exists] at ok
        obtain ⟨-, -, fees, others, checked, done⟩ := ok
        cases done
        refine ⟨fun call => ?_, next checked⟩
        rw [Transaction.isCall, decide_eq_false other, Bool.false_and] at call
        cases call
      next =>
        obtain ⟨⟨⟩, priced, ok⟩ := bind_ok_iff.mp ok
        obtain ⟨⟨fees, others⟩, checked, done⟩ := bind_ok_iff.mp ok
        cases done
        refine ⟨fun _ => ?_, next checked⟩
        unfold checkContractTx at priced
        rw [ite_fail_ok_iff] at priced
        obtain ⟨vout, found, priced⟩ := bind_ok_iff.mp priced.2
        split at priced
        next => cases priced
        next param parsed =>
          rw [ite_fail_ok_iff] at priced
          rw [accepted, not_not.mp priced.1]
          exact ⟨param, callParams_eq_some.mpr ⟨vout, found, parsed⟩, rfl⟩

end Calls

section Process

variable {world : World} {evm : Evm world} {c : Crypto} {db : UtxoDB}

theorem gasRefunds_append (left right : List Transaction) : gasRefunds (left ++ right) = gasRefunds left + gasRefunds right := by
  simp only [gasRefunds, filter_append, map_append, List.sum_append]

variable {txs : List Transaction}

theorem gasRefunds_eq_zero (own : ∀ tx ∈ txs, isCoinBase tx = false) : gasRefunds txs = 0 := by
  rw [gasRefunds, filter_eq_nil_iff.mpr fun tx member => by rw [own tx member]; exact false_ne_true]
  rfl

variable {u after : UtxoSet}

theorem makeTxs_all {ε α τ : Type} {make : α → UtxoSet → Outcome ε (τ × UtxoSet)} (property : τ → Prop)
    (each : ∀ item u tx after, make item u = .ok (tx, after) → property tx) {items : List α} {made : List τ}
    (ran : makeTxs make items u = .ok (made, after)) : ∀ tx ∈ made, property tx := by
  induction items generalizing u made with
  | nil =>
    cases ran
    nofun
  | cons item rest next =>
    obtain ⟨⟨tx, between⟩, first, ran⟩ := bind_ok_iff.mp ran
    obtain ⟨⟨txs, _⟩, others, done⟩ := bind_ok_iff.mp ran
    cases done
    exact forall_mem_cons.mpr ⟨each item u tx between first, next others⟩

variable {tx : Transaction}

theorem isCoinBase_contract {addr : AddressHash} {scriptSig : Bytes}
    (vin : tx.vin = [⟨contractOutPoint addr, scriptSig, 0⟩]) : isCoinBase tx = false := by
  rw [isCoinBase, hasSystemInput, vin]
  rfl

variable {statedb : StateDB}

theorem createUtxoTx_own {transfers : List (AddressHash × List TransferInfo)} {senderNonce : UInt64}
    (made : createUtxoTx transfers senderNonce u db statedb = .ok (txs, after)) :
    ∀ tx ∈ txs, isCoinBase tx = false := by
  obtain ⟨⟨groups, _⟩, ran, done⟩ := bind_ok_iff.mp made
  cases done
  intro tx member
  obtain ⟨group, among, member⟩ := mem_flatten.mp member
  refine makeTxs_all (fun group => ∀ tx ∈ group, isCoinBase tx = false) ?_ ran group among tx member
  intro entry u group after paid
  refine makeTxs_all (fun tx => isCoinBase tx = false) ?_ paid
  intro range u tx after own
  obtain ⟨first, -, vin⟩ := makeTx_vin own
  exact isCoinBase_contract vin

theorem createInternalTxs_own {msg : VMTransaction} {contractAddr : AddressHash} {made : Transition world.State}
    (ran : Evm.createInternalTxs db msg contractAddr made u = .ok (txs, after)) :
    ∀ tx ∈ txs, isCoinBase tx = false := by
  unfold Evm.createInternalTxs at ran
  split at ran
  next =>
    exact createUtxoTx_own (mapError_ok_iff.mp ran)
  next =>
    split at ran
    next =>
      obtain ⟨⟨tx, _⟩, refunded, done⟩ := bind_ok_iff.mp ran
      cases done
      obtain ⟨_, -, done⟩ := bind_ok_iff.mp refunded
      cases done
      exact forall_mem_singleton.mpr (isCoinBase_contract rfl)
    next =>
      cases ran
      nofun

variable {header : BlockHeader} {msg : VMTransaction} {state : world.State}

theorem applyTransaction_ok {applied : Applied world.State}
    (ran : evm.applyTransaction c db header msg state u = .ok applied) :
    ∃ context made, evm.transitionDb context state msg = .ok made ∧ applied.gasUsed = made.usedGas ∧
      gasRefunds applied.txs = gasRefunds made.gasRefundTx.toList := by
  obtain ⟨made, moved, ran⟩ := bind_ok_iff.mp ran
  obtain ⟨u, created, ran⟩ := bind_ok_iff.mp ran
  obtain ⟨⟨internalTxs, after⟩, paid, ran⟩ := bind_ok_iff.mp ran
  obtain ⟨receipt, -, done⟩ := bind_ok_iff.mp ran
  cases done
  refine ⟨_, made, lift_ok_iff.mp (mapError_ok_iff.mp moved), rfl, ?_⟩
  rw [gasRefunds_append, gasRefunds_eq_zero (createInternalTxs_own paid), add_zero]

theorem extractVMTransaction_ok {typed : Transaction} {vmTx : Option VMTransaction}
    (known : tx.type ≠ .unknownTx) (ran : extractVMTransaction c statedb tx = .ok (vmTx, typed)) :
    typed = tx ∧ (vmTx = none → tx.type ≠ .contractTx) ∧ ∀ msg, vmTx = some msg → tx.type = .contractTx ∧
      ∃ param, callParams c statedb tx = some param ∧ msg.gas = param.gasLimit ∧
        msg.gasPrice = if isOrdinary tx then fixedGasPrice.toNat else 0 := by
  have cached : getTxType statedb tx = (tx.type, tx) := if_pos known
  unfold extractVMTransaction at ran
  rw [cached] at ran
  simp only at ran
  split at ran
  next other =>
    cases ran
    exact ⟨rfl, fun _ => other, nofun⟩
  next call =>
    obtain ⟨vout, found, ran⟩ := bind_ok_iff.mp ran
    split at ran
    next => cases ran
    next param parsed =>
      cases ran
      refine ⟨rfl, nofun, fun msg made => ?_⟩
      cases made
      refine ⟨not_not.mp call, param, callParams_eq_some.mpr ⟨vout, mapError_ok_iff.mp found, parsed⟩, rfl, ?_⟩
      unfold isOrdinary
      cases isCoinBase tx || isInternalContract tx <;> rfl

theorem gasThisTx_accounts {context : EvmContext} {made : Transition world.State}
    {param : VMTxParams} (steady : tx.isCall = true → tx.Steady before statedb) (small : isOrdinary tx = false → extraFee tx = 0)
    (contract : tx.type = .contractTx) (found : callParams c statedb tx = some param) (gas : msg.gas = param.gasLimit)
    (price : msg.gasPrice = if isOrdinary tx then fixedGasPrice.toNat else 0)
    (shown : tx.isCall = true → callParams c before tx ≠ none) (fits : blockCharge c before [tx] < 2 ^ 64)
    (moved : evm.transitionDb context state msg = .ok made) :
    (Evm.gasThisTx msg tx made.usedGas).toNat + gasRefunds made.gasRefundTx.toList = blockCharge c before [tx] := by
  obtain ⟨bought, given, left, extra, settled⟩ := Evm.transitionDb_settled moved
  have kind : tx.isCall = isOrdinary tx := by rw [Transaction.isCall, decide_eq_true contract, Bool.true_and]
  cases ordinary : isOrdinary tx with
  | false =>
    rw [ordinary] at price kind
    have free : Evm.gasThisTx msg tx made.usedGas = 0 := by
      rw [Evm.gasThisTx, price, small ordinary, if_neg Bool.false_ne_true, add_zero]
      exact zero_mul
    rw [free, settled.refunds, price, blockCharge, filter_cons_of_neg (by simp [kind])]
    rfl
  | true =>
    rw [ordinary] at price kind
    obtain ⟨limit, known⟩ := ne_none_iff_exists'.mp (shown kind)
    have charge : blockCharge c before [tx] = msg.gas.toNat * msg.gasPrice + (extraFee tx).toNat := by
      rw [blockCharge_call kind known, price, gas, callParams_gasLimit (steady kind) known found, if_pos rfl]
    have part : (left.toNat + extra.toNat) * msg.gasPrice ≤ msg.gas.toNat * msg.gasPrice :=
      mul_le_mul_right _ (by have := settled.used; omega)
    have balance := settled.balance.mpr (by omega)
    have used : (Evm.gasThisTx msg tx made.usedGas).toNat = made.usedGas.toNat * msg.gasPrice + (extraFee tx).toNat := by
      have whole : made.usedGas.toNat * msg.gasPrice + (extraFee tx).toNat < 2 ^ 64 := by omega
      rw [price, if_pos rfl] at whole ⊢
      rw [Evm.gasThisTx, price, if_pos rfl, UInt64.ofNat_toNat, UInt64.mul_comm, toNat_charge whole]
    omega

theorem blockCharge_cons (before : StateDB) (tx : Transaction) (rest : List Transaction) :
    blockCharge c before (tx :: rest) = blockCharge c before [tx] + blockCharge c before rest := by
  unfold blockCharge
  cases call : tx.isCall <;> simp [call]

/-- All transactions of a block: what is paid for gas is what is used and what is paid
back. -/
theorem processFrom_accounts {blockHash : HashType} {i : Nat} {sumGas : UInt64}
    {done : Processed world.State} (known : ∀ tx ∈ txs, tx.type ≠ .unknownTx)
    (steady : ∀ n tx reached, txs[n]? = some tx → tx.isCall = true →
      evm.processFrom c db header blockHash (txs.take n) i sumGas state u = .ok reached →
        tx.Steady before (world.stateDB reached.state))
    (small : ∀ tx ∈ txs, tx.type = .contractTx → isOrdinary tx = false → extraFee tx = 0)
    (shown : ∀ tx ∈ txs, tx.isCall = true → callParams c before tx ≠ none) (fits : blockCharge c before txs < 2 ^ 64)
    (ran : evm.processFrom c db header blockHash txs i sumGas state u = .ok done) :
    done.usedGas.toNat + gasRefunds done.utxoTxs = blockCharge c before txs := by
  induction txs generalizing i sumGas state u done with
  | nil =>
    cases ran
    rfl
  | cons tx rest next =>
    rw [forall_mem_cons] at known small shown
    rw [blockCharge_cons] at fits ⊢
    unfold Evm.processFrom at ran
    obtain ⟨room, ran⟩ := ite_fail_ok_iff.mp ran
    obtain ⟨⟨vmTx, typed⟩, extracted, ran⟩ := bind_ok_iff.mp ran
    obtain ⟨same, plain, calls⟩ := extractVMTransaction_ok known.1 extracted
    subst typed
    cases vmTx with
    | none =>
      have none : blockCharge c before [tx] = 0 := by
        rw [blockCharge, filter_cons_of_neg]
        · rfl
        · rw [Transaction.isCall, decide_eq_false (plain rfl), Bool.false_and]
          exact false_ne_true
      rw [none, zero_add] at fits ⊢
      refine next known.2 (fun n other reached listed call began => ?_) small.2 shown.2 fits ran
      refine steady (n + 1) other reached listed call ?_
      rw [take_succ_cons, Evm.processFrom, if_neg room, extracted]
      exact began
    | some msg =>
      obtain ⟨contract, param, found, gas, price⟩ := calls msg rfl
      obtain ⟨nonce, ran⟩ := ite_fail_ok_iff.mp ran
      obtain ⟨applied, executed, ran⟩ := bind_ok_iff.mp ran
      obtain ⟨later, continued, done⟩ := bind_ok_iff.mp ran
      cases done
      obtain ⟨context, made, moved, used, refunds⟩ := applyTransaction_ok executed
      have step := gasThisTx_accounts (fun call => steady 0 tx _ rfl call rfl) (small.1 contract) contract found gas price shown.1
        (by omega) moved
      have others := next known.2 (fun n other reached listed call began => ?_) small.2 shown.2 (by omega) continued
      · rw [gasRefunds_append, refunds, used, UInt64.toNat_add, mod_eq_of_lt]
        · omega
        · omega
      · obtain ⟨whole, began, ends⟩ : ∃ whole, evm.processFrom c db header blockHash ((tx :: rest).take (n + 1)) i sumGas state u =
            .ok whole ∧ whole.state = reached.state := by
          rw [take_succ_cons, Evm.processFrom, if_neg room, extracted]
          simp only [ok_bind, if_neg nonce, executed, began]
          exact ⟨_, rfl, rfl⟩
        exact ends ▸ steady (n + 1) other whole listed call began

end Process

/-- Blocks whose gas adds up: what a call pays before its contract output is a contract in the
state of the parent if and only if it is one when the call is executed, after the
transactions before it; contract transactions of the node itself are small, and what the gas
costs fits into 64 bits. -/
structure Block.GasPlain (chain : VmChain) (db : UtxoDB) (block : Block) (parent : StateDB)
    (ready : Prepared (chain.toChainEnv db)) : Prop where
  steady : ∀ n tx reached, block.txs[n]? = some tx → tx.isCall = true →
    chain.evm.process chain.crypto db (chain.blockHash block.header) { block with txs := block.txs.take n } ready.state
      ready.utxoSet = .ok reached → tx.Steady parent (chain.world.stateDB reached.state)
  small : ∀ tx ∈ block.txs, tx.type = .contractTx → isOrdinary tx = false → tx.vin.length + tx.vout.length < inOutNumPerExtraFee
  fits : blockCharge chain.crypto parent block.txs < 2 ^ 64

/-- What the calls of a block spend, and what they pay to outputs. -/
def callInputs (utxoSet : UtxoSet) (txs : List Transaction) : Nat :=
  ((txs.filter Transaction.isCall).map fun tx => ((spentBy tx).map utxoSet.valueOf).sum).sum

def callOutputs (txs : List Transaction) : Nat := ((txs.filter Transaction.isCall).map fun tx => outputTotal tx.vout).sum

theorem callInputs_eq {c : Crypto} {pow10 : Pow10} {utxoSet : UtxoSet} {statedb : StateDB} {txs : List Transaction}
    (priced : ∀ tx ∈ txs, tx.isCall = true → ∃ param, callParams c statedb tx = some param ∧
      validateTxInputs pow10 utxoSet tx = .ok (param.gasLimit * fixedGasPrice + extraFee tx))
    (inRange : ∀ tx ∈ txs, outputTotal tx.vout ≤ totalSupply.toNat) (fits : blockCharge c statedb txs < 2 ^ 64) :
    callInputs utxoSet txs = callOutputs txs + blockCharge c statedb txs := by
  induction txs with
  | nil => rfl
  | cons tx rest next =>
    rw [forall_mem_cons] at priced inRange
    rw [blockCharge_cons] at fits ⊢
    have others := next priced.2 inRange.2 (by omega)
    have inputs : callInputs utxoSet (tx :: rest) = callInputs utxoSet [tx] + callInputs utxoSet rest := by
      unfold callInputs
      cases call : tx.isCall <;> simp [call]
    have outputs : callOutputs (tx :: rest) = callOutputs [tx] + callOutputs rest := by
      unfold callOutputs
      cases call : tx.isCall <;> simp [call]
    have own : callInputs utxoSet [tx] = callOutputs [tx] + blockCharge c statedb [tx] := by
      cases call : tx.isCall with
      | false => simp [callInputs, callOutputs, blockCharge, call]
      | true =>
        obtain ⟨param, shown, accepted⟩ := priced.1 call
        have ordinary : (isCoinBase tx || isInternalContract tx) = false := by
          rw [Transaction.isCall, isOrdinary, and_eq_true, not_eq_true'] at call
          exact call.2
        have balance := validateTxInputs_balance accepted ordinary inRange.1
        have charge := blockCharge_call call shown
        have exact : (param.gasLimit * fixedGasPrice + extraFee tx).toNat = blockCharge c statedb [tx] := by
          rw [charge, toNat_charge]
          omega
        rw [← exact]
        simpa [callInputs, callOutputs, call, spentBy] using balance
    omega

theorem extraFee_small {tx : Transaction} (small : tx.vin.length + tx.vout.length < inOutNumPerExtraFee) : extraFee tx = 0 := by
  rw [extraFee, div_eq_of_lt small]
  exact zero_mul

theorem validateBlock_known {c : Crypto} {block : Block} {statedb : StateDB}
    (ok : validateBlock c received statedb = .ok block) : ∀ tx ∈ block.txs, tx.type ≠ .unknownTx := by
  unfold validateBlock at ok
  split at ok
  next => cases ok
  next =>
    simp only [ite_fail_ok_iff, bind_ok_iff, lift_ok_iff] at ok
    obtain ⟨-, -, txs, checked, root, -, -, done⟩ := ok
    cases done
    exact validateTxs_known checked

theorem ValidBlock.typed_inRange {block : Block} (valid : ValidBlock received block) :
    ∀ tx ∈ block.txs, outputTotal tx.vout ≤ totalSupply.toNat := by
  intro tx member
  obtain ⟨origin, among, same⟩ := exists_of_mem_right valid.messages member
  rw [same]
  exact valid.inRange origin among

/-- The gas of a message adds up if and only if what is paid back fits into 64 bits. In a
block the calls pay for what the coinbase collects and what is paid back. -/
theorem gas_accounted (chain : VmChain) :
    (∀ context state msg made, chain.evm.transitionDb context state msg = .ok made →
      ∃ bought given left extra, chain.evm.Settled context state msg made bought given left extra ∧
        (msg.gas.toNat * msg.gasPrice = made.usedGas.toNat * msg.gasPrice + gasRefunds made.gasRefundTx.toList ↔
          (left.toNat + extra.toNat) * msg.gasPrice < 2 ^ 64)) ∧
    ∀ {db : UtxoDB} {tailState : StateDB} {received block blockCopy final parent : Block} {state : chain.world.State}
      {longestChainHeight : UInt32} {ready : Prepared (chain.toChainEnv db)} {run : Execution (chain.toChainEnv db)},
      validateBlock chain.crypto received tailState = .ok block →
      executeBlock (chain.toChainEnv db) db block blockCopy = .ok run →
      validateExecuteResult (chain.toChainEnv db) longestChainHeight run.block run.utxoTxs run.gasUsed run.totalTxsFee
        run.receipts = .ok final →
      chain.getParentBlock block = some parent →
      chain.world.new parent.header.rootHash parent.header.utxoRoot = some state →
      prepareBlock (chain.toChainEnv db) db block blockCopy = .ok ready →
      block.GasPlain chain db (chain.world.stateDB state) ready →
      ∃ utxoSet, new.loadBlockUtxos chain.crypto block true db (chain.world.stateDB state) = .ok utxoSet ∧
        callInputs utxoSet block.txs = callOutputs block.txs + (run.gasUsed.toNat + gasRefunds run.utxoTxs) ∧
        ∀ {coinbase netParams}, block.txs.head? = some coinbase →
          chain.fetchNetParamsByHeight longestChainHeight = some netParams →
          (coinbase.vout.map TxOut.value).foldl (· + ·) 0 =
            UInt64.ofNat netParams.blockReward + run.totalTxsFee + run.gasUsed := by
  refine ⟨fun context state msg made moved => ?_, ?_⟩
  · obtain ⟨bought, given, left, extra, settled⟩ := Evm.transitionDb_settled moved
    exact ⟨bought, given, left, extra, settled, settled.balance⟩
  intro db tailState received block blockCopy final parent state longestChainHeight ready run valid ran checked found opened
    prepared plain
  have known := validateBlock_known valid
  have inRange := (validateBlock_ok valid).typed_inRange
  rw [executeBlock, prepared, ok_bind] at ran
  obtain ⟨⟨receipts, gasUsed, utxoTxs, after, utxos⟩, processed, done⟩ := bind_ok_iff.mp ran
  cases done
  simp only [prepareBlock, bind_ok_iff, Prod.exists] at prepared
  obtain ⟨parent', found', state', opened', utxoSet, loaded, ⟨⟩, -, totalTxsFee, txs, priced, credited, -, applied, copy, -,
    done⟩ := prepared
  cases done
  cases (expect_ok found').symm.trans found
  cases (orFail_ok opened').symm.trans opened
  obtain ⟨rfl, -⟩ := validateBlockInputs_present known priced
  have calls := validateBlockInputs_calls known priced
  have paid := callInputs_eq calls inRange plain.fits
  obtain ⟨ended, whole, same⟩ := map_eq_some_iff.mp (orFail_ok processed)
  cases same
  have accounts := processFrom_accounts known plain.steady
    (fun tx member contract system => extraFee_small (plain.small tx member contract system))
    (fun tx member call => ?_) plain.fits (toOption_eq_some_iff.mp whole)
  · refine ⟨utxoSet, lift_ok_iff.mp loaded, ?_, fun first params => validateExecuteResult_sum first params checked⟩
    exact paid.trans (congrArg (callOutputs block.txs + ·) accounts.symm)
  · obtain ⟨param, shown, -⟩ := calls tx member call
    intro none
    cases shown.symm.trans none

namespace GasSample

/-- A stand-in for the hash functions that tells the sample values apart. -/
def checksum (size : Nat) (bytes : Bytes) : FixedBytes size :=
  .copy size (bytesLE 4 (bytes.foldl (fun sum byte => (sum * 31 + byte.toNat) % 4294967291) 7))

def crypto : Crypto where
  Signature := Bytes
  PublicKey := Bytes
  hash160 := checksum 20
  createAddress sender nonce := checksum 20 (sender.bytes ++ bytesLE 8 nonce.toNat)
  doubleHash := checksum 32
  sigFromBytes := some
  publicKeyFromBytes := some
  verifySignature _ _ _ := true

def pubKey (owner : UInt8) : Bytes := replicate 33 owner
def address (owner : UInt8) : AddressHash := crypto.hash160 (pubKey owner)

/-- The contract that the first owner deploys. -/
def deployed : AddressHash := crypto.createAddress (address 1) 8

def outPoint (owner : UInt8) : OutPoint := ⟨.fill 32 owner, 0⟩

def db : UtxoDB :=
  insert (outPoint 1) ⟨5000000, payToPubKeyHashScript (address 1), 9⟩
    (insert (outPoint 2) ⟨2600000, payToPubKeyHashScript (address 2), 9⟩
      (insert (contractOutPoint sampleGenesis.contractAddr) ⟨500000000, [], 0⟩ ∅))

/-- The state is whether the contract of the first owner is there. -/
def world : World where
  State := Bool
  new _ _ := some false
  stateDB there := {
    isContractAddr := fun addr => addr = sampleGenesis.contractAddr || there && addr = deployed
    getContractUtxo := fun addr => if addr = sampleGenesis.contractAddr then some ⟨500000000, [], 0⟩ else none
    getNonce := fun _ => 7
    getBalance := fun addr =>
      if addr = sampleGenesis.contractAddr then 817000000 else if addr = deployed then 0 else 7600000 }
  addBalance state _ _ := state
  subBalance state _ _ := state
  updateUtxo state _ _ := some state
  commit state := some (zeroHash, none, state)

/-- A machine that uses half of the gas. -/
def evm : Evm world where
  setNonce state _ _ := state
  getRefund _ := 100
  getLogs _ _ := []
  prepare state _ _ _ := state
  unpackErrMsg _ := none
  create _ _ _ _ gas _ := ⟨[], deployed, gas / 2, none, true, ⟨[], by simp, by simp⟩, []⟩
  call _ state _ _ _ gas _ := ⟨[], zeroAddressHash, gas / 2, none, state, ⟨[], by simp, by simp⟩, []⟩
  create_gas _ _ _ _ gas _ := by
    rw [UInt64.le_iff_toNat_le, UInt64.toNat_div]
    exact div_le_self _ _
  call_gas _ _ _ _ _ gas _ := by
    rw [UInt64.le_iff_toNat_le, UInt64.toNat_div]
    exact div_le_self _ _

def chain : VmChain where
  crypto := crypto
  pow10 := samplePow10
  world := world
  evm := evm
  genesis := sampleGenesis
  receiptsHash _ := zeroHash
  blockHash _ := zeroHash
  fetchNetParamsByHeight _ := some sampleNetParams
  getParentBlock _ := some (sampleBlock (sampleHeader 9) [])

def call (owner : UInt8) (contract : Option AddressHash) (gasLimit : UInt64) : TxOut :=
  ⟨0, (makeContractScriptPubkey (address owner) contract gasLimit 8 0).toOption.getD []⟩

def ownTx (owner : UInt8) (vout : List TxOut) : Transaction :=
  { newTx 1 0 0 with
    vin := [⟨outPoint owner, (addOperand [] [1]).addOperand (pubKey owner), maxUint32⟩]
    vout := vout }

/-- The first owner deploys a contract, and the second calls another one. -/
def block (gasUsed : UInt64) (refunds : List Transaction) (vout : List TxOut) : Block :=
  let txs := [sampleCoinbase 10 317000000 gasUsed, ownTx 1 [call 1 none 100000], ownTx 2 vout]
  sampleBlock { sampleHeader 10 with
    txsRoot := (calcTxsHash crypto txs).toOption.getD zeroHash
    internalTxsRoot := (calcTxsHash crypto refunds).toOption.getD zeroHash
    gasUsed } txs

/-- The block as the first check leaves it. -/
def validated (received : Block) : Outcome ChainError Block := validateBlock crypto received (world.stateDB false)

/-- The gas that is used and what is paid back, if the block can be executed. -/
def executed (received : Block) : Option (UInt64 × Nat) := do
  let block ← (validated received).toOption
  let run ← (executeBlock (chain.toChainEnv db) db block block).toOption
  return (run.gasUsed, gasRefunds run.utxoTxs)

/-- What the calls spend and pay. -/
def spentAndPaid (received : Block) : Option (Nat × Nat) := do
  let block ← (validated received).toOption
  let utxoSet ← (new.loadBlockUtxos crypto block true db (world.stateDB false)).toOption
  return (callInputs utxoSet block.txs, callOutputs block.txs)

/-- The result of the execution passes its checks. -/
def passes (received : Block) : Bool :=
  isSome do
    let block ← (validated received).toOption
    let run ← (executeBlock (chain.toChainEnv db) db block block).toOption
    (validateExecuteResult (chain.toChainEnv db) 9 run.block run.utxoTxs run.gasUsed run.totalTxsFee run.receipts).toOption

def accepts (received : Block) : Bool :=
  isSome do
    let block ← (validated received).toOption
    (adjustAndValidateState (chain.toChainEnv db) 9 db block block).toOption

theorem executed_eq_some {gasUsed : UInt64} {refunds : Nat}
    (shown : executed received = some (gasUsed, refunds)) (passed : passes received = true) :
    ∃ block run final, validated received = .ok block ∧
      executeBlock (chain.toChainEnv db) db block block = .ok run ∧
      validateExecuteResult (chain.toChainEnv db) 9 run.block run.utxoTxs run.gasUsed run.totalTxsFee
        run.receipts = .ok final ∧ run.gasUsed = gasUsed ∧ gasRefunds run.utxoTxs = refunds := by
  simp only [executed, bind_eq_bind, bind_eq_some_iff, toOption_eq_some_iff] at shown
  obtain ⟨block, valid, run, ran, done⟩ := shown
  obtain ⟨final, passed⟩ := isSome_iff_exists.mp passed
  simp only [valid, ran, Except.toOption, bind_eq_bind, bind_some] at passed
  cases done
  exact ⟨block, run, final, valid, ran, toOption_eq_some_iff.mp passed, rfl, rfl⟩

theorem accepts_eq_true {block : Block} {inputs outputs : Nat}
    (valid : validated received = .ok block) (accepted : accepts received = true)
    (shown : spentAndPaid received = some (inputs, outputs)) :
    ∃ result utxoSet, adjustAndValidateState (chain.toChainEnv db) 9 db block block = .ok result ∧
      new.loadBlockUtxos crypto block true db (world.stateDB false) = .ok utxoSet ∧
      callInputs utxoSet block.txs = inputs ∧ callOutputs block.txs = outputs := by
  obtain ⟨result, accepted⟩ := isSome_iff_exists.mp accepted
  simp only [valid, Except.toOption, bind_eq_bind, bind_some] at accepted
  simp only [spentAndPaid, valid, bind_eq_bind, bind_eq_some_iff, toOption_eq_some_iff] at shown
  obtain ⟨_, same, utxoSet, loaded, done⟩ := shown
  cases same
  cases done
  exact ⟨result, utxoSet, toOption_eq_some_iff.mp accepted, loaded, rfl, rfl⟩

def otherCall : TxOut := call 2 (some sampleGenesis.contractAddr) 50000

/-- The change comes first, and then the call. -/
def changeBlock : Block :=
  block 3925000 [createGasRefundUtxoTx (address 1) 2372500 7, createGasRefundUtxoTx (address 2) 1202500 7]
    [makeVout (address 2) 100000, otherCall]

/-- The conditions under which the gas of a block adds up. -/
def plain (block : Block) (ready : Prepared (chain.toChainEnv db)) : Bool :=
  (range block.txs.length).all (fun n =>
      (evm.process crypto db zeroHash { block with txs := block.txs.take n } ready.state ready.utxoSet).toOption.all fun reached =>
        block.txs[n]?.all fun tx => !tx.isCall || decide (tx.Steady (world.stateDB false) (world.stateDB reached.state))) &&
    block.txs.all (fun tx => isOrdinary tx || decide (tx.vin.length + tx.vout.length < inOutNumPerExtraFee)) &&
    decide (blockCharge crypto (world.stateDB false) block.txs < 2 ^ 64)

theorem gasPlain_of_plain {block : Block} {ready : Prepared (chain.toChainEnv db)} (shown : plain block ready = true) :
    block.GasPlain chain db (world.stateDB false) ready := by
  simp only [plain, and_eq_true, decide_eq_true_eq, List.all_eq_true, or_eq_true] at shown
  obtain ⟨⟨steady, small⟩, fits⟩ := shown
  refine ⟨fun n tx reached listed call began => ?_, fun tx member _ system => ?_, fits⟩
  · have shown := steady n (mem_range.mpr (List.getElem?_eq_some_iff.mp listed).1)
    rw [show (evm.process crypto db zeroHash _ _ _).toOption = some reached from toOption_eq_some_iff.mpr began, listed] at shown
    change (!tx.isCall || decide (tx.Steady (world.stateDB false) (world.stateDB reached.state))) = true at shown
    rw [call] at shown
    exact of_decide_eq_true shown
  · exact (small tx member).resolve_left (by simp [system])

/-- The payment comes first. -/
def mixedBlock : Block :=
  block 3200000 [createGasRefundUtxoTx (address 1) 2372500 7, createGasRefundUtxoTx (address 2) 477500 7]
    [makeVout deployed 100000, otherCall]

end GasSample

open GasSample in
/-- The change comes before the call, and the gas adds up. -/
theorem change_block_accounts :
    ∃ block run utxoSet, validateBlock crypto changeBlock (world.stateDB false) = .ok block ∧
      executeBlock (chain.toChainEnv db) db block block = .ok run ∧
      callInputs utxoSet block.txs = callOutputs block.txs + (run.gasUsed.toNat + gasRefunds run.utxoTxs) ∧
      run.gasUsed = 3925000 ∧ gasRefunds run.utxoTxs = 3575000 := by
  have shown : executed changeBlock = some (3925000, 3575000) := by decide +kernel
  obtain ⟨block, run, final, valid, ran, checked, used, refunds⟩ := executed_eq_some shown (by decide +kernel)
  obtain ⟨ready, prepared, -⟩ := bind_ok_iff.mp ran
  have plain : (validated changeBlock).toOption.all (fun block =>
      (prepareBlock (chain.toChainEnv db) db block block).toOption.all (plain block)) = true := by decide +kernel
  rw [valid, Except.toOption, all_some, prepared] at plain
  obtain ⟨utxoSet, -, balance, -⟩ := (gas_accounted chain).2 valid ran checked rfl rfl prepared (gasPlain_of_plain plain)
  exact ⟨block, run, utxoSet, valid, ran, balance, used, refunds⟩

open GasSample in
/-- The payment is to a contract that is deployed in the same block. It is taken for the
call when the transaction is executed, and the gas of the real call is lost. -/
theorem early_payment_loses_gas :
    ∃ block run final result utxoSet, validateBlock crypto mixedBlock (world.stateDB false) = .ok block ∧
      executeBlock (chain.toChainEnv db) db block block = .ok run ∧
      validateExecuteResult (chain.toChainEnv db) 9 run.block run.utxoTxs run.gasUsed run.totalTxsFee
        run.receipts = .ok final ∧
      adjustAndValidateState (chain.toChainEnv db) 9 db block block = .ok result ∧
      new.loadBlockUtxos crypto block true db (world.stateDB false) = .ok utxoSet ∧
      callInputs utxoSet block.txs = callOutputs block.txs + 7500000 ∧
      run.gasUsed.toNat + gasRefunds run.utxoTxs = 6050000 := by
  have shown : executed mixedBlock = some (3200000, 2850000) := by decide +kernel
  have paid : spentAndPaid mixedBlock = some (7600000, 100000) := by decide +kernel
  obtain ⟨block, run, final, valid, ran, checked, used, refunds⟩ := executed_eq_some shown (by decide +kernel)
  obtain ⟨result, utxoSet, accepted, loaded, inputs, outputs⟩ := accepts_eq_true valid (by decide +kernel) paid
  refine ⟨block, run, final, result, utxoSet, valid, ran, checked, accepted, loaded, ?_, ?_⟩
  · rw [inputs, outputs]
  · rw [used, refunds]
    rfl

end Boxd
