import Boxd.Proofs.PoolAdmission

/-! Where a transaction makes the pool panic: unreadable token parameters, a payment to a
contract whose sender is not in the unlocking script, a contract transaction without data,
and a first input without an owner. -/

namespace Boxd
open Lib Stateful UtxoSet Option Outcome Script List

def OutputReadable (sc : Script) : Prop := sc.isTokenTransfer = true → ∃ params, sc.getTransferParams = .ok params

/-- The parameters of a spent token output can be read. -/
def InputReadable (sc : Script) : Prop :=
  (sc.isTokenIssue = true → ∃ params, sc.getIssueParams = .ok params) ∧ (sc.isTokenIssue = false → OutputReadable sc)

variable {sc : Script}

theorem transferAmount_panics_iff : transferAmount sc = .panicked ↔ ¬∃ params, sc.getTransferParams = .ok params := by
  unfold transferAmount
  cases sc.getTransferParams with
  | ok params => simp [Outcome.panicked]
  | error fault => simp

theorem map_panicked_iff {ε α β : Type} {view : α → β} {result : Outcome ε α} :
    result.map view = Outcome.panicked ↔ result = Outcome.panicked := by
  cases result with
  | ok value => simp [Except.map, Outcome.panicked]
  | error fault => simp [Except.map, Outcome.panicked]

theorem tokenOutput_panics_iff : tokenOutput sc = .panicked ↔ ¬OutputReadable sc := by
  unfold tokenOutput OutputReadable
  split
  · next transfer => rw [map_panicked_iff, transferAmount_panics_iff, forall_prop_of_true transfer]
  · next other => simp [other, Outcome.panicked]

theorem tokenInput_panics_iff {pow10 : Pow10} {outPoint : OutPoint} :
    tokenInput pow10 outPoint sc = .panicked ↔ ¬InputReadable sc := by
  unfold tokenInput InputReadable
  split
  · next issue =>
    simp only [issue, forall_const, Bool.true_eq_false, IsEmpty.forall_iff, and_true]
    cases read : sc.getIssueParams with
    | error fault => simp
    | ok params =>
      dsimp only
      split
      · simp [Outcome.panicked, Outcome.fail]
      · simp [Outcome.panicked]
  · next other =>
    simp only [other, Bool.false_eq_true, IsEmpty.forall_iff, true_and, forall_const]
    exact tokenOutput_panics_iff

/-- An input passes the checks of `ValidateTxInputs` before its tokens are read. -/
structure Counted (utxoSet : UtxoSet) (txIn : TxIn) (total : UInt64) (utxo : UtxoWrap) : Prop where
  found : utxoSet.findUtxo txIn.prevOutPoint = some utxo
  unspent : utxo.isSpent = false
  small : utxo.value ≤ totalSupply
  fits : ¬(total + utxo.value < total ∨ total + utxo.value > totalSupply)

variable {pow10 : Pow10} {utxoSet : UtxoSet} {txIn : TxIn} {vin : List TxIn} {vout : List TxOut} {total : UInt64}
  {amounts : TokenAmounts}

theorem sumInputs_counted {utxo : UtxoWrap} (counted : Counted utxoSet txIn total utxo) :
    sumInputs pow10 utxoSet (txIn :: vin) total amounts = tokenInput pow10 txIn.prevOutPoint utxo.script >>= fun token =>
      sumInputs pow10 utxoSet vin (total + utxo.value) (addToken amounts token) := by
  rw [sumInputs, counted.found]
  dsimp only
  rw [if_neg (Bool.eq_false_iff.mp counted.unspent), if_neg (UInt64.not_lt.mpr counted.small), if_neg counted.fits]

theorem sumInputs_uncounted (none : ∀ utxo, ¬Counted utxoSet txIn total utxo) :
    ∃ err, sumInputs pow10 utxoSet (txIn :: vin) total amounts = .fail err := by
  rw [sumInputs]
  cases found : utxoSet.findUtxo txIn.prevOutPoint with
  | none => exact ⟨_, rfl⟩
  | some utxo =>
    dsimp only
    split
    · exact ⟨_, rfl⟩
    next unspent =>
    split
    · exact ⟨_, rfl⟩
    next small =>
    split
    · exact ⟨_, rfl⟩
    next fits => exact (none utxo ⟨found, Bool.eq_false_iff.mpr unspent, UInt64.not_lt.mp small, fits⟩).elim

/-- The tokens of an input cannot be read, and the sum gets that far. -/
inductive UnreadableInput (pow10 : Pow10) (utxoSet : UtxoSet) : List TxIn → UInt64 → TokenAmounts → Prop where
  | here {txIn : TxIn} {rest : List TxIn} {total : UInt64} {amounts : TokenAmounts} {utxo : UtxoWrap}
      (counted : Counted utxoSet txIn total utxo) (unreadable : ¬InputReadable utxo.script) :
      UnreadableInput pow10 utxoSet (txIn :: rest) total amounts
  | later {txIn : TxIn} {rest : List TxIn} {total : UInt64} {amounts : TokenAmounts} {utxo : UtxoWrap}
      {token : Option (TokenID × UInt64)} (counted : Counted utxoSet txIn total utxo)
      (read : tokenInput pow10 txIn.prevOutPoint utxo.script = .ok token)
      (next : UnreadableInput pow10 utxoSet rest (total + utxo.value) (addToken amounts token)) :
      UnreadableInput pow10 utxoSet (txIn :: rest) total amounts

theorem Counted.unique {utxo other : UtxoWrap} (counted : Counted utxoSet txIn total utxo)
    (again : Counted utxoSet txIn total other) : utxo = other := some.inj (counted.found.symm.trans again.found)

theorem sumInputs_panics_iff :
    sumInputs pow10 utxoSet vin total amounts = .panicked ↔ UnreadableInput pow10 utxoSet vin total amounts := by
  induction vin generalizing total amounts with
  | nil => exact iff_of_false nofun nofun
  | cons txIn rest next =>
    by_cases any : ∃ utxo, Counted utxoSet txIn total utxo
    · obtain ⟨utxo, counted⟩ := any
      rw [sumInputs_counted counted]
      constructor
      · intro panics
        cases read : tokenInput pow10 txIn.prevOutPoint utxo.script with
        | ok token =>
          rw [read] at panics
          exact .later counted read (next.mp panics)
        | error fault =>
          rw [read] at panics
          cases panics
          exact .here counted (tokenInput_panics_iff.mp read)
      · intro unreadable
        cases unreadable with
        | here again unreadable =>
          cases counted.unique again
          rw [tokenInput_panics_iff.mpr unreadable]
          rfl
        | later again read unreadable =>
          cases counted.unique again
          rw [read, ok_bind]
          exact next.mpr unreadable
    · have fails : ∃ err, sumInputs pow10 utxoSet (txIn :: rest) total amounts = .fail err :=
        sumInputs_uncounted (not_exists.mp any)
      obtain ⟨err, failed⟩ := fails
      rw [failed]
      refine iff_of_false nofun fun unreadable => ?_
      cases unreadable with
      | here counted _ => exact any ⟨_, counted⟩
      | later counted _ _ => exact any ⟨_, counted⟩

theorem tokenOutput_unfailing (sc : Script) : (tokenOutput sc).Unfailing := by
  intro err failed
  unfold tokenOutput transferAmount at failed
  split at failed
  · cases read : sc.getTransferParams with
    | ok params =>
      rw [read] at failed
      cases failed
    | error fault =>
      rw [read] at failed
      cases failed
  · cases failed

theorem sumOutputs_panics_iff :
    sumOutputs vout total amounts = .panicked ↔ ∃ txOut ∈ vout, ¬OutputReadable txOut.scriptPubKey := by
  induction vout generalizing total amounts with
  | nil => simp [sumOutputs, Outcome.panicked]
  | cons txOut rest next =>
    rw [sumOutputs, exists_mem_cons_iff, ← tokenOutput_panics_iff]
    cases read : tokenOutput txOut.scriptPubKey with
    | ok token =>
      rw [ok_bind, next]
      simp [Outcome.panicked]
    | error fault =>
      have panics : (.error fault : Outcome ChainError (Option (TokenID × UInt64))) = Outcome.panicked := by
        cases fault with
        | error err => exact (tokenOutput_unfailing _ err read).elim
        | panic => rfl
      cases panics
      exact ⟨fun _ => .inl rfl, fun _ => rfl⟩

theorem validateTxInputs_panics_iff {tx : Transaction} :
    validateTxInputs pow10 utxoSet tx = .panicked ↔ (isCoinBase tx || isInternalContract tx) = false ∧
      (UnreadableInput pow10 utxoSet tx.vin 0 ∅ ∨
        (∃ sums, sumInputs pow10 utxoSet tx.vin 0 ∅ = .ok sums) ∧ ∃ txOut ∈ tx.vout, ¬OutputReadable txOut.scriptPubKey) := by
  unfold validateTxInputs
  split
  · next system => simp [system, Outcome.panicked]
  next ordinary =>
  rw [← sumInputs_panics_iff]
  simp only [Bool.eq_false_iff.mpr ordinary, true_and]
  cases summed : sumInputs pow10 utxoSet tx.vin 0 ∅ with
  | error fault => simp [Outcome.panicked, Bind.bind, Except.bind]
  | ok sums =>
    have outputs_iff : sumOutputs tx.vout 0 ∅ = .panicked ↔ ∃ txOut ∈ tx.vout, ¬OutputReadable txOut.scriptPubKey :=
      sumOutputs_panics_iff
    rw [ok_bind, ← outputs_iff]
    cases counted : sumOutputs tx.vout 0 ∅ with
    | error fault => simp [Outcome.panicked, Bind.bind, Except.bind]
    | ok outputs =>
      rw [ok_bind]
      refine iff_of_false ?_ ?_
      · intro panics
        split at panics
        · cases panics
        split at panics
        · cases panics
        split at panics
        · cases panics
        · cases panics
      · rintro (panics | ⟨-, panics⟩)
        · cases panics
        · cases panics

namespace TransactionPool

variable {env : PoolEnv} {moment : Moment}

theorem makeContractScriptPubkey_transfer (sender addr : AddressHash) (nonce : UInt64) :
    ∃ csc, makeContractScriptPubkey sender addr transferGasLimit nonce 0 = .ok csc := ⟨_, rfl⟩

/-- The first contract output is a payment to a contract. -/
inductive PaysFirst (statedb : StateDB) : List TxOut → Prop where
  | here {txOut : TxOut} {rest : List TxOut} {addr : AddressHash} (plain : isContractPubkey txOut.scriptPubKey = false)
      (pays : pubKeyHashOf txOut.scriptPubKey = some addr) (contract : statedb.isContractAddr addr = true) :
      PaysFirst statedb (txOut :: rest)
  | later {txOut : TxOut} {rest : List TxOut} (other : isContractVout statedb txOut = false)
      (next : PaysFirst statedb rest) : PaysFirst statedb (txOut :: rest)

variable {statedb : StateDB}

theorem paysFirst_skip {txOut : TxOut} {rest : List TxOut}
    (other : isContractVout statedb txOut = false) : PaysFirst statedb (txOut :: rest) ↔ PaysFirst statedb rest := by
  constructor
  · intro pays
    cases pays with
    | here plain pays contract => simp [isContractVout, plain, pays, contract] at other
    | later _ next => exact next
  · exact .later other

variable {vout : List TxOut}

theorem PaysFirst.any (pays : PaysFirst statedb vout) : vout.any (isContractVout statedb) = true := by
  induction pays with
  | here _ pays contract => simp [isContractVout, pays, contract]
  | later _ _ next => rw [any_cons, next, Bool.or_true]

/-- The owner of the first input is not in its unlocking script. -/
def Unnamed (c : Crypto) (vin : List TxIn) : Prop := vin.head?.bind (TxIn.addressHash c) = none

theorem contractVoutFrom_panics_iff {c : Crypto} {vin : List TxIn} (any : vout.any (isContractVout statedb) = true) :
    contractVoutFrom c statedb vin vout = .panicked ↔ PaysFirst statedb vout ∧ Unnamed c vin := by
  induction vout with
  | nil => cases any
  | cons txOut rest next =>
    rw [contractVoutFrom]
    split
    · next call =>
      refine iff_of_false (by simp [Outcome.panicked]) ?_
      rintro ⟨pays, -⟩
      cases pays with
      | here plain _ _ => simp [call] at plain
      | later other _ => simp [isContractVout, call] at other
    next plain =>
    have skip (other : isContractVout statedb txOut = false) :
        contractVoutFrom c statedb vin rest = .panicked ↔ PaysFirst statedb (txOut :: rest) ∧ Unnamed c vin := by
      rw [paysFirst_skip other]
      apply next
      rwa [any_cons, other, Bool.false_or] at any
    cases pays : pubKeyHashOf txOut.scriptPubKey with
    | none => exact skip (by simp [isContractVout, plain, pays])
    | some addr =>
      dsimp only
      split
      · next account => exact skip (by simpa [isContractVout, plain, pays] using account)
      next contract =>
      have contract : statedb.isContractAddr addr = true := by simpa using contract
      have first : PaysFirst statedb (txOut :: rest) := .here (Bool.eq_false_iff.mpr plain) pays contract
      rw [and_iff_right first, Unnamed]
      cases vin.head?.bind (TxIn.addressHash c) with
      | none => exact iff_of_true rfl rfl
      | some sender =>
        obtain ⟨csc, made⟩ := makeContractScriptPubkey_transfer sender addr (statedb.getNonce sender + 1)
        refine iff_of_false ?_ (some_ne_none _)
        simp only [expect, ok_bind, made]
        intro panics
        cases panics

inductive ContractCrash (env : PoolEnv) (moment : Moment) (tx : Transaction) (utxoSet : UtxoSet) (txFee : UInt64) : Prop
  | sender (pays : PaysFirst moment.tailState tx.vout) (unnamed : Unnamed env.crypto tx.vin)
  | vanished (none : tx.vout.any (isContractVout moment.tailState) = false)
      (small : (tx.data.map fun data => data.content.length).getD 0 ≤ maxCodeSize)
  | data {contractVout : TxOut} {param : VMTxParams} (found : getContractVout env.crypto tx moment.tailState = .ok contractVout)
      (parsed : parseContractParams contractVout.scriptPubKey = .ok param)
      (paid : txFee = param.gasLimit * fixedGasPrice + extraFee tx) (absent : tx.data = none)
  | owner {contractVout : TxOut} {param : VMTxParams} {data : Data} {gas : UInt64}
      (found : getContractVout env.crypto tx moment.tailState = .ok contractVout)
      (small : data.content.length ≤ maxCodeSize)
      (parsed : parseContractParams contractVout.scriptPubKey = .ok param)
      (paid : txFee = param.gasLimit * fixedGasPrice + extraFee tx) (present : tx.data = some data)
      (needed : intrinsicGas data.content (param.receiver = zeroAddressHash) = some gas) (enough : gas ≤ param.gasLimit)
      (unowned : (tx.vin.head?.bind fun first => (fetchOutPointOwner first.prevOutPoint utxoSet).toOption.bind
        Address.hash160) = none)

theorem mapError_panicked_iff {ε δ α : Type} {wrap : ε → δ} {result : Outcome ε α} :
    result.mapError (Fault.map wrap) = Outcome.panicked ↔ result = Outcome.panicked := by
  cases result with
  | ok value => exact iff_of_false nofun nofun
  | error fault =>
    cases fault with
    | error err => exact iff_of_false nofun nofun
    | panic => exact iff_of_true rfl rfl

variable {tx : Transaction}

theorem findContractVout_panics_iff :
    findContractVout env moment tx = .panicked ↔ PaysFirst moment.tailState tx.vout ∧ Unnamed env.crypto tx.vin := by
  unfold findContractVout
  split
  · next any => exact map_panicked_iff.trans (contractVoutFrom_panics_iff any)
  · next none =>
    exact iff_of_false nofun fun crash => none crash.1.any

theorem findContractVout_none (none : findContractVout env moment tx = .ok none) :
    tx.vout.any (isContractVout moment.tailState) = false := by
  unfold findContractVout at none
  split at none
  · obtain ⟨vout, -, same⟩ := exists_ok_map none
    cases same
  · next absent => exact Bool.eq_false_iff.mpr absent

theorem any_of_contractVoutFrom {c : Crypto} {vin : List TxIn} {contractVout : TxOut}
    (found : contractVoutFrom c statedb vin vout = .ok contractVout) : vout.any (isContractVout statedb) = true := by
  induction vout with
  | nil => cases found
  | cons txOut rest next =>
    rw [any_cons]
    cases here : isContractVout statedb txOut with
    | true => rfl
    | false =>
      rw [isContractVout, Bool.or_eq_false_iff] at here
      rw [contractVoutFrom, if_neg (Bool.eq_false_iff.mp here.1)] at found
      apply next
      cases pays : pubKeyHashOf txOut.scriptPubKey with
      | none =>
        rw [pays] at found
        exact found
      | some addr =>
        rw [pays, any_some] at here
        rw [pays] at found
        dsimp only at found
        rwa [here.2, if_pos (show (!false) = true from rfl)] at found

theorem findContractVout_of_get {contractVout : TxOut}
    (found : getContractVout env.crypto tx moment.tailState = .ok contractVout) :
    findContractVout env moment tx = .ok (some contractVout) := by
  rw [findContractVout, if_pos (any_of_contractVoutFrom found), found]
  rfl

theorem checkContract_panics_iff {utxoSet : UtxoSet} {txFee : UInt64} :
    checkContract env moment tx utxoSet txFee = .panicked ↔ ContractCrash env moment tx utxoSet txFee := by
  unfold checkContract
  constructor
  · intro panics
    rcases bind_panicked_iff.mp panics with unread | ⟨found, looked, panics⟩
    · obtain ⟨pays, unnamed⟩ := findContractVout_panics_iff.mp (mapError_panicked_iff.mp unread)
      exact .sender pays unnamed
    obtain ⟨small, panics⟩ := ite_fail_panicked_iff.mp panics
    rcases bind_panicked_iff.mp panics with nil | ⟨contractVout, here, panics⟩
    · rw [expect_panicked_iff.mp nil] at looked
      exact .vanished (findContractVout_none (mapError_ok_iff.mp looked)) (Nat.le_of_not_lt small)
    rw [expect_ok here] at looked
    have found := findContractVout_some (mapError_ok_iff.mp looked)
    cases parsed : parseContractParams contractVout.scriptPubKey with
    | error err =>
      rw [parsed] at panics
      cases panics
    | ok param =>
      rw [parsed] at panics
      obtain ⟨paid, panics⟩ := ite_fail_panicked_iff.mp panics
      have paid := not_not.mp paid
      rcases bind_panicked_iff.mp panics with absent | ⟨data, present, panics⟩
      · exact .data found parsed paid (expect_panicked_iff.mp absent)
      have present := expect_ok present
      rcases bind_panicked_iff.mp panics with never | ⟨gas, needed, panics⟩
      · exact (orFail_ne_panicked never).elim
      obtain ⟨enough, panics⟩ := ite_fail_panicked_iff.mp panics
      refine .owner found ?_ parsed paid present (orFail_ok needed) (UInt64.not_lt.mp enough) ?_
      · rw [present] at small
        exact Nat.le_of_not_lt small
      rcases bind_panicked_iff.mp panics with empty | ⟨first, head, panics⟩
      · rw [expect_panicked_iff.mp empty]
        rfl
      rw [expect_ok head, bind_some]
      rcases bind_panicked_iff.mp panics with unowned | ⟨addr, owned, panics⟩
      · rw [expect_panicked_iff.mp unowned]
        rfl
      rw [expect_ok owned, bind_some]
      rcases bind_panicked_iff.mp panics with hashless | ⟨owner, -, panics⟩
      · exact expect_panicked_iff.mp hashless
      · obtain ⟨-, panics⟩ := ite_fail_panicked_iff.mp panics
        obtain ⟨-, panics⟩ := ite_fail_panicked_iff.mp panics
        obtain ⟨-, panics⟩ := ite_fail_panicked_iff.mp panics
        obtain ⟨-, panics⟩ := ite_fail_panicked_iff.mp panics
        cases panics
  · intro crash
    cases crash with
    | sender pays unnamed =>
      exact bind_panicked_iff.mpr (.inl (mapError_panicked_iff.mpr (findContractVout_panics_iff.mpr ⟨pays, unnamed⟩)))
    | vanished none small =>
      rw [findContractVout, if_neg (Bool.eq_false_iff.mp none)]
      exact ite_fail_panicked_iff.mpr ⟨Nat.not_lt.mpr small, rfl⟩
    | data found parsed paid absent =>
      refine bind_panicked_iff.mpr (.inr ⟨_, mapError_ok_iff.mpr (findContractVout_of_get found), ?_⟩)
      refine ite_fail_panicked_iff.mpr ⟨by simp [absent], ?_⟩
      refine bind_panicked_iff.mpr (.inr ⟨_, rfl, ?_⟩)
      rw [parsed]
      refine ite_fail_panicked_iff.mpr ⟨not_not.mpr paid, ?_⟩
      exact bind_panicked_iff.mpr (.inl (expect_panicked_iff.mpr absent))
    | owner found small parsed paid present needed enough unowned =>
      refine bind_panicked_iff.mpr (.inr ⟨_, mapError_ok_iff.mpr (findContractVout_of_get found), ?_⟩)
      refine ite_fail_panicked_iff.mpr ⟨by simpa [present] using small, ?_⟩
      refine bind_panicked_iff.mpr (.inr ⟨_, rfl, ?_⟩)
      rw [parsed]
      refine ite_fail_panicked_iff.mpr ⟨not_not.mpr paid, ?_⟩
      refine bind_panicked_iff.mpr (.inr ⟨_, expect_ok_iff.mpr present, ?_⟩)
      refine bind_panicked_iff.mpr (.inr ⟨_, orFail_ok_iff.mpr needed, ?_⟩)
      refine ite_fail_panicked_iff.mpr ⟨UInt64.not_lt.mpr enough, ?_⟩
      cases head : tx.vin.head? with
      | none => rfl
      | some first =>
        rw [head, bind_some] at unowned
        refine bind_panicked_iff.mpr (.inr ⟨first, rfl, ?_⟩)
        cases owned : (fetchOutPointOwner first.prevOutPoint utxoSet).toOption with
        | none => rfl
        | some addr =>
          rw [owned, bind_some] at unowned
          refine bind_panicked_iff.mpr (.inr ⟨addr, rfl, ?_⟩)
          rw [unowned]
          rfl

/-- What makes `CheckGasAndNonce` panic. -/
inductive Crash (env : PoolEnv) (moment : Moment) (tx : TxRef) (pool : TransactionPool) (utxoSet : UtxoSet) : Prop
  | input (ordinary : (isCoinBase (pool.load env tx) || isInternalContract (pool.load env tx)) = false)
      (unreadable : UnreadableInput env.pow10 utxoSet (pool.load env tx).vin 0 ∅)
  | output (ordinary : (isCoinBase (pool.load env tx) || isInternalContract (pool.load env tx)) = false)
      (summed : ∃ sums, sumInputs env.pow10 utxoSet (pool.load env tx).vin 0 ∅ = .ok sums)
      (unreadable : ∃ txOut ∈ (pool.load env tx).vout, ¬OutputReadable txOut.scriptPubKey)
  | contract {txFee : UInt64} (valid : validateTxInputs env.pow10 utxoSet (pool.load env tx) = .ok txFee)
      (contract : (Boxd.getTxType moment.tailState (pool.load env tx)).1 = .contractTx)
      (crash : ContractCrash env moment ((classified env moment tx pool).load env tx) utxoSet txFee)

variable {tx : TxRef} {pool : TransactionPool}

theorem Crash.of_invalid (panics : validateTxInputs env.pow10 utxoSet (pool.load env tx) = .panicked) :
    Crash env moment tx pool utxoSet := by
  obtain ⟨ordinary, unreadable | ⟨summed, unreadable⟩⟩ := validateTxInputs_panics_iff.mp panics
  · exact .input ordinary unreadable
  · exact .output ordinary summed unreadable

variable {final : TransactionPool}

theorem GasChecked.crash
    (checked : GasChecked env moment tx utxoSet pool (.error .panic) final) : Crash env moment tx pool utxoSet := by
  generalize ended : (.error .panic : Except (Fault PoolError) Unit) = result at checked
  cases checked with
  | @invalid fault failed =>
    cases fault with
    | error err => cases ended
    | panic => exact .of_invalid failed
  | unpaid => cases ended
  | paid => cases ended
  | unfit valid contract failed =>
    cases ended
    exact .contract valid contract (checkContract_panics_iff.mp failed)
  | taken => cases ended
  | reserved => cases ended

variable {result : Except (Fault PoolError) Unit}

section
variable (checked : GasChecked env moment tx utxoSet pool result final)
include checked

theorem GasChecked.invalid_panics
    (panics : validateTxInputs env.pow10 utxoSet (pool.load env tx) = .panicked) : result = .error .panic := by
  have never : ∀ {txFee : UInt64}, validateTxInputs env.pow10 utxoSet (pool.load env tx) ≠ .ok txFee := by
    intro txFee valid
    rw [panics] at valid
    cases valid
  cases checked with
  | invalid failed =>
    rw [panics] at failed
    cases failed
    rfl
  | unpaid valid _ => exact (never valid).elim
  | paid valid _ => exact (never valid).elim
  | unfit valid _ _ => exact (never valid).elim
  | taken valid _ _ _ => exact (never valid).elim
  | reserved reserves _ _ =>
    obtain ⟨_, valid, _⟩ := reserves.checked
    exact (never valid).elim

theorem GasChecked.contract_panics {txFee : UInt64}
    (valid : validateTxInputs env.pow10 utxoSet (pool.load env tx) = .ok txFee)
    (contract : (Boxd.getTxType moment.tailState (pool.load env tx)).1 = .contractTx)
    (panics : checkContract env moment ((classified env moment tx pool).load env tx) utxoSet txFee = .panicked) :
    result = .error .panic := by
  cases checked with
  | invalid failed =>
    rw [valid] at failed
    cases failed
  | unpaid _ plain => exact absurd contract plain
  | paid _ plain => exact absurd contract plain
  | unfit again _ failed =>
    rw [valid] at again
    cases again
    rw [panics] at failed
    cases failed
    rfl
  | taken again _ checked _ =>
    rw [valid] at again
    cases again
    rw [panics] at checked
    cases checked
  | reserved reserves _ _ =>
    obtain ⟨_, again, checked⟩ := reserves.checked
    rw [valid] at again
    cases again
    rw [panics] at checked
    cases checked

theorem Crash.panics (crash : Crash env moment tx pool utxoSet) : result = .error .panic := by
  cases crash with
  | input ordinary unreadable =>
    exact checked.invalid_panics (validateTxInputs_panics_iff.mpr ⟨ordinary, .inl unreadable⟩)
  | output ordinary summed unreadable =>
    exact checked.invalid_panics (validateTxInputs_panics_iff.mpr ⟨ordinary, .inr ⟨summed, unreadable⟩⟩)
  | contract valid contract crash =>
    exact checked.contract_panics valid contract (checkContract_panics_iff.mpr crash)

end

/-- A transaction is accepted or refused without a panic if and only if it is stopped
before `CheckGasAndNonce` or nothing in it makes that check panic. -/
theorem admission_survives_iff (env : PoolEnv) (moment : Moment) (detectDupOrphan : Bool) (tx : TxRef)
    (pool : TransactionPool) :
    ((maybeAcceptTx env moment detectDupOrphan tx).run.run pool).1 ≠ .error .panic ↔
      ¬(Admitted env moment detectDupOrphan tx pool ∧
        Crash env moment tx (standardized env moment tx pool) (available env moment tx (standardized env moment tx pool))) := by
  obtain ⟨result, final, run⟩ : ∃ result final,
      (maybeAcceptTx env moment detectDupOrphan tx).run.run pool = (result, final) := ⟨_, _, rfl⟩
  rw [run]
  refine not_congr ⟨?_, ?_⟩
  · rintro rfl
    cases (maybeAcceptTx_ends run).1 with
    | failed admitted checked => exact ⟨admitted, checked.crash⟩
  · rintro ⟨admitted, crash⟩
    cases (maybeAcceptTx_ends run).1 with
    | refused early _ => exact (early admitted).elim
    | failed _ checked => exact crash.panics checked
    | conflicting _ checked _ _ => cases crash.panics checked
    | accepted _ checked _ => cases crash.panics checked

def paidContract : AddressHash := .fill 20 3

def contractPayment (scriptSig : Bytes) : TxMessage where
  version := 1
  vin := [⟨firstOutput, scriptSig, maxUint32⟩]
  vout := [⟨950000, payToPubKeyHashScript paidContract⟩]
  data := none
  magic := 1
  lockTime := 1

/-- A token transfer whose amount has one byte. -/
def shortTransfer : TxMessage :=
  { poolTx [firstOutput] 950000 1 with
    vout := [⟨950000, ((addParam (payToPubKeyHashScript sampleKeyHash) tokenTxHashKey
      (replicate 32 1)).addParam tokenTxOutIdxKey (bytesLE 4 0)).addParam tokenAmountKey [1]⟩] }

def crashMoment : Moment :=
  { poolMoment [(firstOutput, 2000000)] with
    tailState := ⟨fun addr => addr == paidContract, fun _ => none, fun _ => 0, fun _ => 0⟩
    exist := fun addr => addr == paidContract }

/-- What a node with an empty pool returns for a transaction. -/
def verdict (message : TxMessage) : Except (Fault PoolError) Unit :=
  ((maybeAcceptTx (poolEnv [message]) crashMoment true 0).run.run (new fun _ => .unknownTx)).1

/-- A plain payment to a contract stops the node, with and without a public key in its
unlocking script, and so does a token transfer with a short amount. -/
theorem payment_to_contract_panics :
    verdict (contractPayment sampleScriptSig) = .error .panic ∧ verdict (contractPayment []) = .error .panic ∧
      verdict shortTransfer = .error .panic :=
  ⟨by decide +kernel, by decide +kernel, by decide +kernel⟩

end TransactionPool
end Boxd
