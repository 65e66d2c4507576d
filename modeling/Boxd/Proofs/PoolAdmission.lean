import Boxd.Proofs.PoolIndex

/-! The way of a transaction into the pool, check by check: where it can be refused, what
a refusal leaves behind, and where the node can panic on the way. -/

namespace Boxd
open Lib Stateful Script List AList PoolMaps Option Bool

namespace TransactionPool

variable {env : PoolEnv} {moment : Moment} {tx : TxRef} {pool : TransactionPool} {utxoSet : UtxoSet}

/-- The pool after `IsStandardTx`, which caches a type. -/
def standardized (env : PoolEnv) (moment : Moment) (tx : TxRef) (pool : TransactionPool) : TransactionPool :=
  pool.cacheType tx (Boxd.isStandardTx moment.tailState (pool.load env tx)).2.type

def classified (env : PoolEnv) (moment : Moment) (tx : TxRef) (pool : TransactionPool) : TransactionPool :=
  pool.cacheType tx (Boxd.getTxType moment.tailState (pool.load env tx)).2.type

/-- The outputs that a transaction can spend. -/
def available (env : PoolEnv) (moment : Moment) (tx : TxRef) (pool : TransactionPool) : UtxoSet :=
  getExtendedTxUtxoSet env.crypto (pool.load env tx) moment.db (pool.spendable env)

/-- The checks before `CheckGasAndNonce` let the transaction pass. -/
structure Admitted (env : PoolEnv) (moment : Moment) (detectDupOrphan : Bool) (tx : TxRef) (pool : TransactionPool) :
    Prop where
  fresh : Fresh env detectDupOrphan tx pool.toPoolMaps
  sane : validateTransactionPreliminary (pool.load env tx) = .ok ()
  ordinary : isCoinBase (pool.load env tx) = false
  standard : (Boxd.isStandardTx moment.tailState (pool.load env tx)).1 = true
  funded : (available env moment tx (standardized env moment tx pool)).txInputAmount
    ((standardized env moment tx pool).load env tx) ≠ 0

def DoubleSpends (env : PoolEnv) (tx : TxRef) (maps : PoolMaps) : Prop :=
  (∃ outPoint ∈ env.spends tx, maps.findTransaction outPoint ≠ none) ∨ ¬(env.spends tx).Nodup

/-- The transaction is a contract transaction whose nonce passes all of `CheckGasAndNonce`. -/
structure Reserves (env : PoolEnv) (moment : Moment) (tx : TxRef) (pool : TransactionPool) (utxoSet : UtxoSet)
    (param : VMTxParams) : Prop where
  contract : (Boxd.getTxType moment.tailState (pool.load env tx)).1 = .contractTx
  checked : ∃ txFee, validateTxInputs env.pow10 utxoSet (pool.load env tx) = .ok txFee ∧
    checkContract env moment ((classified env moment tx pool).load env tx) utxoSet txFee = .ok param
  unused : ((pool.nonceMap.lookup param.sender).getD []).contains param.nonce = false

/-- How `CheckGasAndNonce` ends. -/
inductive GasChecked (env : PoolEnv) (moment : Moment) (tx : TxRef) (utxoSet : UtxoSet) (pool : TransactionPool) :
    Except (Fault PoolError) Unit → TransactionPool → Prop where
  | invalid {fault : Fault ChainError} (failed : validateTxInputs env.pow10 utxoSet (pool.load env tx) = .error fault) :
      GasChecked env moment tx utxoSet pool (.error (fault.map .chain)) pool
  | unpaid {txFee : UInt64} (valid : validateTxInputs env.pow10 utxoSet (pool.load env tx) = .ok txFee)
      (plain : (Boxd.getTxType moment.tailState (pool.load env tx)).1 ≠ .contractTx) :
      GasChecked env moment tx utxoSet pool (.error (.error .invalidFee)) (classified env moment tx pool)
  | paid {txFee : UInt64} (valid : validateTxInputs env.pow10 utxoSet (pool.load env tx) = .ok txFee)
      (plain : (Boxd.getTxType moment.tailState (pool.load env tx)).1 ≠ .contractTx) :
      GasChecked env moment tx utxoSet pool (.ok ()) (classified env moment tx pool)
  | unfit {txFee : UInt64} {fault : Fault PoolError}
      (valid : validateTxInputs env.pow10 utxoSet (pool.load env tx) = .ok txFee)
      (contract : (Boxd.getTxType moment.tailState (pool.load env tx)).1 = .contractTx)
      (failed : checkContract env moment ((classified env moment tx pool).load env tx) utxoSet txFee = .error fault) :
      GasChecked env moment tx utxoSet pool (.error fault) (classified env moment tx pool)
  | taken {txFee : UInt64} {param : VMTxParams}
      (valid : validateTxInputs env.pow10 utxoSet (pool.load env tx) = .ok txFee)
      (contract : (Boxd.getTxType moment.tailState (pool.load env tx)).1 = .contractTx)
      (checked : checkContract env moment ((classified env moment tx pool).load env tx) utxoSet txFee = .ok param)
      (used : ((pool.nonceMap.lookup param.sender).getD []).contains param.nonce = true) :
      GasChecked env moment tx utxoSet pool (.error (.error .nonceExists)) (classified env moment tx pool)
  | reserved {param : VMTxParams} {final : TransactionPool} (reserves : Reserves env moment tx pool utxoSet param)
      (maps : final.toPoolMaps = pool.toPoolMaps)
      (nonces : ∃ nonces, final.nonceMap.lookup param.sender = some nonces ∧ param.nonce ∈ nonces) :
      GasChecked env moment tx utxoSet pool (.ok ()) final

/-- How `maybeAcceptTx` ends. -/
inductive Admission (env : PoolEnv) (moment : Moment) (detectDupOrphan : Bool) (tx : TxRef) (pool : TransactionPool) :
    Except (Fault PoolError) Unit → TransactionPool → Prop where
  | refused {err : PoolError} {final : TransactionPool} (early : ¬Admitted env moment detectDupOrphan tx pool)
      (nonces : final.nonceMap = pool.nonceMap) : Admission env moment detectDupOrphan tx pool (.error (.error err)) final
  | failed {fault : Fault PoolError} {final : TransactionPool} (admitted : Admitted env moment detectDupOrphan tx pool)
      (checked : GasChecked env moment tx (available env moment tx (standardized env moment tx pool))
        (standardized env moment tx pool) (.error fault) final) :
      Admission env moment detectDupOrphan tx pool (.error fault) final
  | conflicting {err : PoolError} {final : TransactionPool} (admitted : Admitted env moment detectDupOrphan tx pool)
      (checked : GasChecked env moment tx (available env moment tx (standardized env moment tx pool))
        (standardized env moment tx pool) (.ok ()) final)
      (double : DoubleSpends env tx pool.toPoolMaps) (other : err ≠ .orphanTransaction) :
      Admission env moment detectDupOrphan tx pool (.error (.error err)) final
  | accepted {middle final : TransactionPool} (admitted : Admitted env moment detectDupOrphan tx pool)
      (checked : GasChecked env moment tx (available env moment tx (standardized env moment tx pool))
        (standardized env moment tx pool) (.ok ()) middle)
      (single : ¬DoubleSpends env tx pool.toPoolMaps) : Admission env moment detectDupOrphan tx pool (.ok ()) final

def At (maps : PoolMaps) (nonces : Table AddressHash (List UInt64)) (pool : TransactionPool) : Prop :=
  pool.toPoolMaps = maps ∧ pool.nonceMap = nonces

variable {maps : PoolMaps} {nonces : Table AddressHash (List UInt64)}

variable {failed : Fault PoolError → TransactionPool → Prop}

theorem getTxType_at : Triple (At maps nonces) (getTxType env moment tx) (fun _ => At maps nonces) failed :=
  .bind_same (.get fun _ at_ => at_) fun _ =>
    .bind_same (.modify fun _ at_ => at_) fun _ => .pure fun _ at_ => at_

theorem checkNonce_checked {param : VMTxParams} {contractVout : TxOut} {type : TxType}
    (found : getContractVout env.crypto { env.message tx with type } moment.tailState = .ok contractVout)
    (parsed : parseContractParams contractVout.scriptPubKey = .ok param) :
    Triple (· = pool) (checkNonce env moment tx param)
      (fun _ final => ((pool.nonceMap.lookup param.sender).getD []).contains param.nonce = false ∧
        final.toPoolMaps = pool.toPoolMaps ∧
        ∃ nonces, final.nonceMap.lookup param.sender = some nonces ∧ param.nonce ∈ nonces)
      (fun fault final => ((pool.nonceMap.lookup param.sender).getD []).contains param.nonce = true ∧
        fault = .error .nonceExists ∧ final = pool) := by
  refine .get_bind fun start same => ?_
  subst same
  split
  · next used => exact .fail fun _ at_ => ⟨used, rfl, at_⟩
  · next unused =>
    have unused := eq_false_iff.mpr unused
    let opened : Table AddressHash (List UInt64) :=
      if (start.nonceMap.lookup param.sender).isNone then start.nonceMap.insert param.sender [] else start.nonceMap
    refine .bind (fun _ => At start.toPoolMaps opened) (.modify ?_) fun _ => ?_
    · rintro pool rfl
      constructor
      · split
        · rfl
        · rfl
      · dsimp only [opened]
        split
        · rfl
        · rfl
    refine .bind (fun _ => At start.toPoolMaps opened) ?_ fun _ => ?_
    · exact .forM (fun _ => At start.toPoolMaps opened) fun entry _ => replaceDoubleSpend_keeps getTxType_at found parsed
    refine .get_bind fun middle at_ => ?_
    have present : ∃ nonces, opened.lookup param.sender = some nonces := by
      dsimp only [opened]
      split
      · exact ⟨[], lookup_insert _⟩
      · next known => exact ne_none_iff_exists'.mp (fun none => known (by rw [none]; rfl))
    obtain ⟨nonces, held⟩ := present
    rw [at_.2, held]
    refine .modify ?_
    rintro pool rfl
    exact ⟨unused, at_.1, _, lookup_insert _, mem_insert_self⟩

theorem getTxType_classified : Triple (· = pool) (getTxType env moment tx)
      (fun type final => type = (Boxd.getTxType moment.tailState (pool.load env tx)).1 ∧
        final = classified env moment tx pool) failed := by
  refine .get_bind fun start same => ?_
  subst same
  refine .bind (fun _ final => final = classified env moment tx start) (.modify ?_) fun _ =>
    .pure fun _ at_ => ⟨rfl, at_⟩
  rintro pool rfl
  rfl

theorem isStandardTx_standardized : Triple (· = pool) (isStandardTx env moment tx)
      (fun standard final => standard = (Boxd.isStandardTx moment.tailState (pool.load env tx)).1 ∧
        final = standardized env moment tx pool) failed := by
  refine .get_bind fun start same => ?_
  subst same
  refine .bind (fun _ final => final = standardized env moment tx start) (.modify ?_) fun _ =>
    .pure fun _ at_ => ⟨rfl, at_⟩
  rintro pool rfl
  rfl

theorem chain_triple {α : Type} {result : Outcome ChainError α} {post : α → TransactionPool → Prop}
    (returns : ∀ value, result = .ok value → post value pool)
    (fails : ∀ fault, result = .error fault → failed (fault.map .chain) pool) :
    Triple (· = pool) (Call.chain result) post failed := by
  refine .lift ?_ ?_
  · rintro value ok _ rfl
    exact returns value (mapError_ok_iff.mp ok)
  · rintro fault failed _ rfl
    cases result with
    | ok value => cases failed
    | error raised =>
      cases failed
      exact fails raised rfl

theorem checkGasAndNonce_checked : Triple (· = pool) (checkGasAndNonce env moment tx utxoSet)
      (fun _ => GasChecked env moment tx utxoSet pool (.ok ()))
      (fun fault => GasChecked env moment tx utxoSet pool (.error fault)) := by
  refine .get_bind fun start same => ?_
  subst same
  refine .bind (fun txFee final => validateTxInputs env.pow10 utxoSet (start.load env tx) = .ok txFee ∧ final = start)
    (chain_triple (fun txFee valid => ⟨valid, rfl⟩) fun fault failed => .invalid failed) fun txFee => ?_
  refine .of_start fun _ ⟨valid, same⟩ => ?_
  subst same
  refine .bind _ getTxType_classified fun type => ?_
  refine .of_start fun _ ⟨typed, same⟩ => ?_
  subst same typed
  refine .get_bind fun current same => ?_
  subst same
  split
  · next plain =>
    split
    · exact .fail fun _ at_ => at_ ▸ .unpaid valid plain
    · exact .pure fun _ at_ => at_ ▸ .paid valid plain
  · next contract =>
    have contract := not_not.mp contract
    refine .bind
      (fun param final => checkContract env moment ((classified env moment tx _).load env tx) utxoSet txFee = .ok param ∧
        final = classified env moment tx _)
      (.lift (fun param checked _ at_ => ⟨checked, at_⟩) fun fault failed _ at_ => at_ ▸ .unfit valid contract failed)
      fun param => ?_
    refine .of_start fun _ ⟨checked, same⟩ => ?_
    subst same
    obtain ⟨contractVout, found, parsed⟩ := checkContract_ok checked
    refine .weaken (checkNonce_checked found parsed) (fun _ at_ => at_) ?_ ?_
    · rintro _ final ⟨unused, maps, nonces⟩
      exact .reserved ⟨contract, ⟨txFee, valid, checked⟩, unused⟩ maps nonces
    · rintro _ final ⟨used, rfl, rfl⟩
      exact .taken valid contract checked used

theorem checkDoubleSpend_spec :
    Triple (· = pool) (checkDoubleSpend env tx) (fun _ final => ¬DoubleSpends env tx pool.toPoolMaps ∧ final = pool)
      (fun fault final => DoubleSpends env tx pool.toPoolMaps ∧ (∃ err, fault = .error err ∧ err ≠ .orphanTransaction) ∧
        final = pool) := by
  refine .get_bind fun start same => ?_
  subst same
  have spent_iff : (!(getPoolDoubleSpendTxs env start.toPoolMaps tx).isEmpty) = true ↔
      ∃ outPoint ∈ env.spends tx, start.findTransaction outPoint ≠ none := by
    rw [not_eq_true', isEmpty_eq_false_iff, ne_eq, getPoolDoubleSpendTxs, filterMap_eq_nil_iff]
    simp
  split
  · next spent => exact .fail fun _ at_ => ⟨.inl (spent_iff.mp spent), ⟨_, rfl, nofun⟩, at_⟩
  · next unspent =>
    split
    · next twice => exact .fail fun _ at_ => ⟨.inr twice, ⟨_, rfl, nofun⟩, at_⟩
    · next once =>
      refine .pure fun _ at_ => ⟨?_, at_⟩
      rintro (spent | twice)
      · exact unspent (spent_iff.mpr spent)
      · exact once twice

variable {result : Except (Fault PoolError) Unit} {final : TransactionPool}

section
variable (checked : GasChecked env moment tx utxoSet pool result final)
include checked

theorem GasChecked.maps_eq : final.toPoolMaps = pool.toPoolMaps := by
  cases checked with
  | reserved _ maps _ => exact maps
  | _ => rfl

omit checked in
theorem maybeAcceptTx_admission {detectDupOrphan : Bool} :
    Triple (· = pool) (maybeAcceptTx env moment detectDupOrphan tx)
      (fun _ => Admission env moment detectDupOrphan tx pool (.ok ()))
      (fun fault => Admission env moment detectDupOrphan tx pool (.error fault)) := by
  refine .get_bind fun start same => ?_
  subst same
  split
  · next known =>
    refine .fail fun final at_ => .refused (fun admitted => ?_) (at_ ▸ rfl)
    rw [fresh_iff.mpr admitted.fresh] at known
    cases known
  next unknown =>
  have fresh := fresh_iff.mp (eq_false_iff.mpr unknown)
  cases sane : validateTransactionPreliminary (start.load env tx) with
  | error err =>
    refine .fail fun final at_ => .refused (fun admitted => ?_) (at_ ▸ rfl)
    rw [admitted.sane] at sane
    cases sane
  | ok _ =>
    change Triple _ (if _ then _ else _) _ _
    split
    · next coinbase =>
      refine .fail fun final at_ => .refused (fun admitted => ?_) (at_ ▸ rfl)
      rw [admitted.ordinary] at coinbase
      cases coinbase
    next ordinary =>
    refine .bind _ isStandardTx_standardized fun standard => ?_
    refine .of_start fun _ both => ?_
    obtain ⟨typed, same⟩ := both
    subst same typed
    split
    · next strange =>
      refine .fail fun final at_ => .refused (fun admitted => ?_) (at_ ▸ rfl)
      rw [admitted.standard] at strange
      cases strange
    next standard =>
    refine .get_bind fun current same => ?_
    subst same
    change Triple _ (if _ then _ else _) _ _
    split
    · next missing =>
      refine .bind (fun _ final => final.nonceMap = start.nonceMap) (.modify ?_) fun _ => .fail ?_
      · rintro final rfl
        rfl
      · exact fun final nonces => .refused (fun admitted => admitted.funded missing) nonces
    next funded =>
    have admitted : Admitted env moment detectDupOrphan tx start :=
      ⟨fresh, sane, eq_false_iff.mpr ordinary, by simpa using standard, funded⟩
    refine .bind _ (.weaken checkGasAndNonce_checked (fun _ at_ => at_) (fun _ _ checked => checked) ?_)
      fun _ => ?_
    · exact fun fault final checked => .failed admitted checked
    refine .of_start fun middle checked => ?_
    refine .bind (fun _ final => ¬DoubleSpends env tx start.toPoolMaps ∧ final = middle)
      (.weaken checkDoubleSpend_spec (fun _ at_ => at_) ?_ ?_) fun _ => ?_
    · rintro _ final ⟨single, at_⟩
      exact ⟨checked.maps_eq ▸ single, at_⟩
    · rintro fault final ⟨double, ⟨err, rfl, other⟩, rfl⟩
      exact .conflicting admitted checked (checked.maps_eq ▸ double) other
    refine .of_start fun _ both => ?_
    obtain ⟨single, same⟩ := both
    subst same
    exact .weaken acceptTx_triple (fun _ at_ => congrArg toPoolMaps at_)
      (fun _ _ _ => .accepted admitted checked single) fun _ _ (never : False) => never.elim

omit checked in
/-- A contract transaction whose nonce is reserved before its double spend is noticed. -/
def ReservesInVain (env : PoolEnv) (moment : Moment) (detectDupOrphan : Bool) (tx : TxRef) (pool : TransactionPool) :
    Prop :=
  Admitted env moment detectDupOrphan tx pool ∧ DoubleSpends env tx pool.toPoolMaps ∧
    ∃ param, Reserves env moment tx (standardized env moment tx pool)
      (available env moment tx (standardized env moment tx pool)) param

theorem GasChecked.nonces_kept
    (none : ∀ param, ¬Reserves env moment tx pool utxoSet param) : final.nonceMap = pool.nonceMap := by
  cases checked with
  | reserved reserves _ _ => exact (none _ reserves).elim
  | _ => rfl

theorem GasChecked.nonces_changed {param : VMTxParams} (reserves : Reserves env moment tx pool utxoSet param) :
    result = .ok () ∧ final.nonceMap ≠ pool.nonceMap := by
  obtain ⟨contract, ⟨txFee, valid, fit⟩, unused⟩ := reserves
  cases checked with
  | invalid failed =>
    rw [valid] at failed
    cases failed
  | unpaid _ plain => exact absurd contract plain
  | paid _ plain => exact absurd contract plain
  | unfit again _ failed =>
    rw [valid] at again
    cases again
    rw [fit] at failed
    cases failed
  | taken again _ checked used =>
    rw [valid] at again
    cases again
    rw [fit] at checked
    cases checked
    rw [unused] at used
    cases used
  | reserved reserves _ nonces =>
    obtain ⟨contract, ⟨_, again, checked⟩, unused⟩ := reserves
    rw [valid] at again
    cases again
    rw [fit] at checked
    cases checked
    refine ⟨rfl, fun same => ?_⟩
    obtain ⟨nonces, held, member⟩ := nonces
    rw [← same, held, getD_some, contains_eq_mem, decide_eq_false_iff_not] at unused
    exact unused member

theorem GasChecked.reserves (changed : final.nonceMap ≠ pool.nonceMap) :
    ∃ param, Reserves env moment tx pool utxoSet param := by
  by_contra none
  exact changed (checked.nonces_kept (not_exists.mp none))

end

theorem maybeAcceptTx_ends {detectDupOrphan : Bool}
    (run : (maybeAcceptTx env moment detectDupOrphan tx).run.run pool = (result, final)) :
    Admission env moment detectDupOrphan tx pool result final ∧
      Attempt env moment detectDupOrphan tx pool.toPoolMaps result final.toPoolMaps := by
  have admission : AtEnd (fun _ => Admission env moment detectDupOrphan tx pool (.ok ()))
      (fun fault => Admission env moment detectDupOrphan tx pool (.error fault)) (result, final) :=
    run ▸ maybeAcceptTx_admission pool rfl
  have attempt : AtEnd (fun _ after => Attempt env moment detectDupOrphan tx pool.toPoolMaps (.ok ()) after.toPoolMaps)
      (fun fault after => Attempt env moment detectDupOrphan tx pool.toPoolMaps (.error fault) after.toPoolMaps)
      (result, final) := run ▸ maybeAcceptTx_attempt pool rfl
  cases result with
  | ok value => exact ⟨admission, attempt⟩
  | error fault => exact ⟨admission, attempt⟩

/-- A refused transaction leaves the pool as it was, and an accepted one replaces
nothing, unless the nonce of a contract transaction is reserved before its double spend
is noticed. -/
theorem rejection_keeps_pool_iff (env : PoolEnv) (moment : Moment) (detectDupOrphan : Bool) (tx : TxRef)
    (pool : TransactionPool) :
    (∀ result final, (maybeAcceptTx env moment detectDupOrphan tx).run.run pool = (result, final) →
      (∀ err, result = .error (.error err) → err ≠ .orphanTransaction →
        final.toPoolMaps = pool.toPoolMaps ∧ final.nonceMap = pool.nonceMap) ∧
      (result = .ok () → (∀ outPoint ∈ env.spends tx, pool.findTransaction outPoint = none) ∧
        ∀ hash wrap, pool.hashToTx.lookup hash = some wrap → final.hashToTx.lookup hash = some wrap)) ↔
      ¬ReservesInVain env moment detectDupOrphan tx pool := by
  constructor
  · rintro unchanged ⟨admitted, double, param, reserves⟩
    obtain ⟨result, final, run⟩ : ∃ result final,
        (maybeAcceptTx env moment detectDupOrphan tx).run.run pool = (result, final) := ⟨_, _, rfl⟩
    obtain ⟨keeps, -⟩ := unchanged result final run
    cases (maybeAcceptTx_ends run).1 with
    | refused early _ => exact early admitted
    | failed _ checked => cases (checked.nonces_changed reserves).1
    | conflicting _ checked _ other => exact (checked.nonces_changed reserves).2 (keeps _ rfl other).2
    | accepted _ _ alone => exact alone double
  · intro never result final run
    obtain ⟨admission, attempt⟩ := maybeAcceptTx_ends run
    constructor
    · rintro err rfl other
      constructor
      · generalize final.toPoolMaps = after at attempt
        cases attempt with
        | orphaned => exact absurd rfl other
        | duplicate => rfl
        | refused => rfl
      · cases admission with
        | refused _ nonces => exact nonces
        | failed admitted checked =>
          by_contra changed
          obtain ⟨param, reserves⟩ := checked.reserves changed
          cases (checked.nonces_changed reserves).1
        | conflicting admitted checked double _ =>
          by_contra changed
          exact never ⟨admitted, double, checked.reserves changed⟩
    · rintro rfl
      generalize final.toPoolMaps = after at attempt
      cases attempt with
      | accepted height fresh _ unspent _ =>
        refine ⟨unspent, fun hash wrap held => ?_⟩
        have other : hash ≠ env.hash tx := by
          rintro rfl
          rw [fresh.pool] at held
          cases held
        exact (lookup_insert_ne other).trans held

/-- A transaction that deploys a contract with nonce 1. -/
def deployment (outPoint : OutPoint) : TxMessage :=
  { poolTx [outPoint] 5000000 2 with
    vout := ((makeContractScriptPubkey sampleKeyHash none 100000 1 0).toOption.map (⟨0, ·⟩)).toList ++
      [⟨5000000, payToPubKeyHashScript sampleKeyHash⟩]
    data := some ⟨contractDataType, [1]⟩ }

def reservingEnv : PoolEnv := poolEnv [poolTx [firstOutput] 8950000 1, deployment firstOutput]

def reservingMoment : Moment := poolMoment [(firstOutput, 10000000)]

def reservingPool : TransactionPool :=
  (step reservingEnv (reservingMoment, .processTx 0)).after (new fun _ => .unknownTx)

/-- The deployment is refused, but its nonce stays reserved. -/
theorem nonce_reserved_in_vain :
    Runs (step reservingEnv) (new fun _ => .unknownTx) [(reservingMoment, .processTx 0)] reservingPool ∧
      ((maybeAcceptTx reservingEnv reservingMoment true 1).run.run reservingPool).1 =
        .error (.error .outPutAlreadySpent) ∧
      reservingPool.nonceMap.lookup sampleKeyHash = none ∧
      ((maybeAcceptTx reservingEnv reservingMoment true 1).after reservingPool).nonceMap.lookup sampleKeyHash =
        some [1] :=
  ⟨.of_survives (by decide +kernel), by decide +kernel, by decide +kernel, by decide +kernel⟩

end TransactionPool
end Boxd
