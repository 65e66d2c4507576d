import Boxd.Proofs.ValidBlock
import Boxd.TxPool

/-! What the calls of the transaction pool do to its maps. A property of the maps that the
few changes below keep is kept by every run. -/

namespace Boxd
open Lib Stateful List Outcome PoolMaps TransactionPool Script AList Table

variable {type : TxType} {detectDupOrphan : Bool} {outPoint : OutPoint} {outPoints : List OutPoint}

namespace TransactionPool

variable {env : PoolEnv} {moment : Moment}

theorem mapError_chain_ne {α : Type} (result : Outcome ChainError α) :
    result.mapError (Fault.map PoolError.chain) ≠ Outcome.fail .duplicateTxInPool := by
  cases result with
  | ok value => exact nofun
  | error fault =>
    cases fault with
    | error err => exact nofun
    | panic => exact nofun

abbrev Has (maps : PoolMaps) (pool : TransactionPool) : Prop := pool.toPoolMaps = maps

/-- The action leaves the maps alone, and does not report a duplicate. -/
def Quiet {α : Type} (action : Call α) : Prop :=
  ∀ maps, Triple (Has maps) action (fun _ => Has maps)
    fun fault pool => Has maps pool ∧ fault ≠ .error .duplicateTxInPool

namespace Quiet

variable {α β : Type}

theorem pure (value : α) : Quiet (Pure.pure value : Call α) := fun _ => Triple.pure fun _ same => same

theorem fail {err : PoolError} (other : err ≠ .duplicateTxInPool) : Quiet (Stateful.fail err : Call α) :=
  fun _ => .fail fun _ same => ⟨same, fun equal => other (Fault.error.inj equal)⟩

theorem lift {result : Outcome PoolError α} (other : result ≠ .fail .duplicateTxInPool) :
    Quiet (lift result : Call α) :=
  fun _ => .lift (fun _ _ _ same => same) fun _ failed _ same =>
    ⟨same, fun equal => other (failed.trans (congrArg Except.error equal))⟩

theorem chain (result : Outcome ChainError α) : Quiet (Call.chain result : Call α) :=
  lift (mapError_chain_ne result)

theorem expect (value : Option α) : Quiet (Stateful.lift (expect value) : Call α) :=
  lift (Unfailing.expect value _)

theorem get : Quiet (MonadState.get : Call TransactionPool) := fun _ => Triple.get fun _ same => same

theorem modify {change : TransactionPool → TransactionPool}
    (same : ∀ pool, (change pool).toPoolMaps = pool.toPoolMaps) : Quiet (modify change : Call PUnit) :=
  fun _ => .modify fun pool holds => (same pool).trans holds

theorem bind {first : Call α} {rest : α → Call β} (before : Quiet first) (after : ∀ value, Quiet (rest value)) :
    Quiet (first >>= rest) :=
  fun maps => .bind _ (before maps) fun value => after value maps

theorem forM {values : List α} {body : α → Call PUnit} (each : ∀ value ∈ values, Quiet (body value)) :
    Quiet (values.forM body) := by
  induction values with
  | nil => exact pure _
  | cons value rest next =>
    rw [forall_mem_cons] at each
    exact bind each.1 fun _ => next each.2

/-- After an action that leaves the maps alone, the next one starts from the same maps. -/
theorem bind_triple {first : Call α} {rest : α → Call β} {maps : PoolMaps} {post : β → TransactionPool → Prop}
    {failed : Fault PoolError → TransactionPool → Prop} (quiet : Quiet first)
    (fails : ∀ fault pool, Has maps pool ∧ fault ≠ .error .duplicateTxInPool → failed fault pool)
    (after : ∀ value, Triple (Has maps) (rest value) post failed) :
    Triple (Has maps) (first >>= rest) post failed :=
  .bind _ (.weaken (quiet maps) (fun _ same => same) (fun _ _ same => same) fails) after

end Quiet

variable {maps : PoolMaps} {failed : Fault PoolError → TransactionPool → Prop}

theorem modifyMaps_eq {change : PoolMaps → PoolMaps} :
    Triple (Has maps) (modifyMaps change) (fun _ => Has (change maps)) failed :=
  .modify fun pool same => (congrArg change same : change pool.toPoolMaps = change maps)

theorem forM_modifyMaps {α : Type} {values : List α} (change : PoolMaps → α → PoolMaps) :
    Triple (Has maps) (values.forM fun value => modifyMaps fun maps => change maps value)
      (fun _ => Has (values.foldl change maps)) failed := by
  let left : List α → TransactionPool → Prop :=
    fun rest pool => rest.foldl change pool.toPoolMaps = values.foldl change maps
  have each : Triple (left values) (values.forM fun value => modifyMaps fun maps => change maps value)
      (fun _ => left []) failed := .forM left fun value rest => .modify fun _ same => same
  refine .of_pre each fun pool same => ?_
  change values.foldl change pool.toPoolMaps = _
  rw [same]

theorem getTxType_quiet (tx : TxRef) : Quiet (getTxType env moment tx) :=
  .bind .get fun _ => .bind (.modify fun _ => rfl) fun _ => .pure _

theorem isStandardTx_quiet (tx : TxRef) : Quiet (isStandardTx env moment tx) :=
  .bind .get fun _ => .bind (.modify fun _ => rfl) fun _ => .pure _

variable {tx : TxRef} {param : VMTxParams} {contractVout : TxOut}

/-- The parameters that are compared with a nonce are those that the nonce was taken from,
so nothing is ever replaced. -/
theorem replaceDoubleSpend_keeps {kept : TransactionPool → Prop}
    {dsTx : TxRef} {dsOp : OutPoint}
    (typed : Triple kept (getTxType env moment dsTx) (fun _ => kept) failed)
    (found : getContractVout env.crypto { env.message tx with type } moment.tailState = .ok contractVout)
    (parsed : parseContractParams contractVout.scriptPubKey = .ok param) :
    Triple kept (replaceDoubleSpend env moment tx param dsOp dsTx) (fun _ => kept) failed := by
  refine .bind _ typed fun type => ?_
  split
  · exact .pure fun _ holds => holds
  refine .bind_same (.get fun _ holds => holds) fun pool => ?_
  have same : getContractVout env.crypto (pool.load env tx) moment.tailState = .ok contractVout := found
  rw [same]
  refine .bind (fun vout final => vout = contractVout ∧ kept final) (.lift ?_ ?_) fun vout => ?_
  · intro vout ok state holds
    cases ok
    exact ⟨rfl, holds⟩
  · intro fault failed
    cases failed
  refine .of_start fun start both => ?_
  obtain ⟨rfl, holds⟩ := both
  rw [parsed]
  dsimp only
  rw [if_neg (UInt64.lt_irrefl param.nonce)]
  exact .pure fun _ same => same ▸ holds

theorem findContractVout_some {tx : Transaction} (found : findContractVout env moment tx = .ok (some contractVout)) :
    getContractVout env.crypto tx moment.tailState = .ok contractVout := by
  unfold findContractVout at found
  split at found
  · obtain ⟨vout, ok, same⟩ := exists_ok_map found
    cases same
    exact ok
  · cases found

variable {utxoSet : UtxoSet}

theorem checkContract_ok {tx : Transaction} {txFee : UInt64}
    (ok : checkContract env moment tx utxoSet txFee = .ok param) :
    ∃ contractVout, getContractVout env.crypto tx moment.tailState = .ok contractVout ∧
      parseContractParams contractVout.scriptPubKey = .ok param := by
  obtain ⟨found, looked, ok⟩ := bind_ok_iff.mp ok
  obtain ⟨-, ok⟩ := ite_fail_ok_iff.mp ok
  obtain ⟨contractVout, here, ok⟩ := bind_ok_iff.mp ok
  rw [expect_ok here] at looked
  refine ⟨contractVout, findContractVout_some (mapError_ok_iff.mp looked), ?_⟩
  cases parsed : parseContractParams contractVout.scriptPubKey with
  | error err =>
    rw [parsed] at ok
    cases ok
  | ok read =>
    rw [parsed] at ok
    simp only [ite_fail_ok_iff, bind_ok_iff] at ok
    obtain ⟨-, data, -, gas, -, -, first, -, addr, -, owner, -, -, -, -, -, ok⟩ := ok
    cases ok
    rfl

theorem checkNonce_quiet
    (found : getContractVout env.crypto { env.message tx with type } moment.tailState = .ok contractVout)
    (parsed : parseContractParams contractVout.scriptPubKey = .ok param) :
    Quiet (checkNonce env moment tx param) := by
  refine .bind .get fun pool => ?_
  split
  · exact .fail nofun
  refine .bind (.modify fun pool => ?_) fun _ => .bind (.forM fun entry _ => fun _ =>
    replaceDoubleSpend_keeps (getTxType_quiet _ _) found parsed) fun _ =>
    .bind .get fun _ => .bind (.expect _) fun _ => .modify fun _ => rfl
  split
  · rfl
  · rfl

theorem checkContract_ne {tx : Transaction} {txFee : UInt64} :
    checkContract env moment tx utxoSet txFee ≠ .fail .duplicateTxInPool := by
  refine bind_ne_fail (mapError_chain_ne _) fun found => ?_
  split
  · exact nofun
  refine bind_ne_fail (Outcome.Unfailing.expect _ _) fun contractVout => ?_
  split
  · exact nofun
  split
  · exact nofun
  refine bind_ne_fail (Outcome.Unfailing.expect _ _) fun data => bind_ne_fail ?_ fun gas => ?_
  · cases intrinsicGas data.content _ with
    | none => exact nofun
    | some gas => exact nofun
  split
  · exact nofun
  refine bind_ne_fail (Outcome.Unfailing.expect _ _) fun first => bind_ne_fail (Outcome.Unfailing.expect _ _) fun addr =>
    bind_ne_fail (Outcome.Unfailing.expect _ _) fun owner => ?_
  dsimp only
  split
  · exact nofun
  split
  · exact nofun
  split
  · exact nofun
  split
  · exact nofun
  · exact nofun

theorem checkGasAndNonce_quiet (tx : TxRef) (utxoSet : UtxoSet) : Quiet (checkGasAndNonce env moment tx utxoSet) := by
  refine .bind .get fun _ => .bind (.chain _) fun txFee => .bind (getTxType_quiet tx) fun type => .bind .get fun pool => ?_
  split
  · split
    · exact .fail nofun
    · exact .pure _
  cases checked : checkContract env moment (pool.load env tx) utxoSet txFee with
  | error fault =>
    have lifted : Quiet (lift (.error fault : Outcome PoolError PUnit) : Call PUnit) := by
      refine .lift fun equal => checkContract_ne (checked.trans ?_)
      cases equal
      rfl
    exact lifted
  | ok param =>
    obtain ⟨contractVout, found, parsed⟩ := checkContract_ok checked
    exact checkNonce_quiet found parsed

/-- The hash is known neither to the pools nor to the cache. -/
structure Fresh (env : PoolEnv) (detectDupOrphan : Bool) (tx : TxRef) (maps : PoolMaps) : Prop where
  pool : maps.hashToTx.lookup (env.hash tx) = none
  orphan : detectDupOrphan = true → maps.hashToOrphanTx.lookup (env.hash tx) = none
  seen : maps.txcache.contains (env.hash tx) = false

inductive Attempt (env : PoolEnv) (moment : Moment) (detectDupOrphan : Bool) (tx : TxRef) (maps : PoolMaps) :
    Except (Fault PoolError) Unit → PoolMaps → Prop where
  | accepted (height : UInt32) (fresh : Fresh env detectDupOrphan tx maps) (inputs : env.spends tx ≠ [])
      (unspent : ∀ outPoint ∈ env.spends tx, maps.findTransaction outPoint = none) (distinct : (env.spends tx).Nodup) :
      Attempt env moment detectDupOrphan tx maps (.ok ()) ((maps.addTx env moment tx height).see env tx)
  | orphaned (fresh : Fresh env detectDupOrphan tx maps) (inputs : env.spends tx ≠ []) :
      Attempt env moment detectDupOrphan tx maps (.error (.error .orphanTransaction)) (maps.addOrphan env moment tx)
  | duplicate (known : ¬Fresh env detectDupOrphan tx maps) :
      Attempt env moment detectDupOrphan tx maps (.error (.error .duplicateTxInPool)) maps
  | refused (fault : Fault PoolError) (other : fault ≠ .error .duplicateTxInPool) :
      Attempt env moment detectDupOrphan tx maps (.error fault) maps

theorem fresh_iff : (maps.isTransactionInPool (env.hash tx) || detectDupOrphan && maps.isOrphanInPool (env.hash tx) ||
      maps.txcache.contains (env.hash tx)) = false ↔ Fresh env detectDupOrphan tx maps := by
  simp only [isTransactionInPool, isOrphanInPool, Bool.or_eq_false_iff, Bool.and_eq_false_imp,
    Option.isSome_eq_false_iff, Option.isNone_iff_eq_none]
  exact ⟨fun ⟨⟨pool, orphan⟩, seen⟩ => ⟨pool, orphan, seen⟩, fun fresh => ⟨⟨fresh.pool, fresh.orphan⟩, fresh.seen⟩⟩

theorem spends_ne_nil
    (valid : validateTransactionPreliminary { env.message tx with type } = .ok ()) : env.spends tx ≠ [] := by
  intro none
  exact preliminary_vin valid (map_eq_nil_iff.mp none)

theorem checkDoubleSpend_triple : Triple (Has maps) (checkDoubleSpend env tx)
      (fun _ pool => pool.toPoolMaps = maps ∧ (∀ outPoint ∈ env.spends tx, maps.findTransaction outPoint = none) ∧
        (env.spends tx).Nodup)
      (fun fault pool => Has maps pool ∧ fault ≠ .error .duplicateTxInPool) := by
  refine .get_bind fun start same => ?_
  split
  · exact .fail fun _ at_ => ⟨at_ ▸ same, nofun⟩
  · next unspent =>
    split
    · exact .fail fun _ at_ => ⟨at_ ▸ same, nofun⟩
    · next distinct =>
      refine .pure fun _ at_ => ⟨at_ ▸ same, ?_, not_not.mp distinct⟩
      subst same
      have none : getPoolDoubleSpendTxs env start.toPoolMaps tx = [] := by simpa using unspent
      intro outPoint member
      simpa using filterMap_eq_nil_iff.mp none outPoint member

theorem acceptTx_triple : Triple (Has maps) (acceptTx env moment tx utxoSet)
      (fun _ pool => pool.toPoolMaps =
        (maps.addTx env moment tx (moment.longestChainHeight + 1)).see env tx) failed := by
  refine .bind_same (.modify fun pool same => ?_) fun _ => ?_
  · split
    · exact same
    · exact same
  refine .bind_same (.modify fun _ same => same) fun _ => ?_
  exact .bind _ modifyMaps_eq fun _ => modifyMaps_eq

theorem maybeAcceptTx_attempt :
    Triple (Has maps) (maybeAcceptTx env moment detectDupOrphan tx)
      (fun _ pool => Attempt env moment detectDupOrphan tx maps (.ok ()) pool.toPoolMaps)
      (fun fault pool => Attempt env moment detectDupOrphan tx maps (.error fault) pool.toPoolMaps) := by
  refine .get_bind fun start same => ?_
  refine .of_pre ?_ fun pool (at_ : pool = start) => (at_ ▸ same : Has maps pool)
  split
  · next known =>
    rw [same] at known
    refine .fail fun pool at_ => ?_
    rw [at_]
    refine .duplicate fun fresh => ?_
    rw [fresh_iff.mpr fresh] at known
    cases known
  · next unknown =>
    rw [same] at unknown
    have fresh : Fresh env detectDupOrphan tx maps := fresh_iff.mp (Bool.eq_false_iff.mpr unknown)
    have refuse : ∀ (fault : Fault PoolError) (pool : TransactionPool),
        Has maps pool ∧ fault ≠ .error .duplicateTxInPool →
          Attempt env moment detectDupOrphan tx maps (.error fault) pool.toPoolMaps := by
      rintro fault pool ⟨at_, other⟩
      rw [at_]
      exact .refused fault other
    cases valid : validateTransactionPreliminary (start.load env tx) with
    | error err => exact .fail fun pool at_ => refuse _ pool ⟨at_, nofun⟩
    | ok _ =>
      have inputs := spends_ne_nil valid
      change Triple _ (if _ then _ else _) _ _
      split
      · exact .fail fun pool at_ => refuse _ pool ⟨at_, nofun⟩
      refine (isStandardTx_quiet tx).bind_triple refuse fun standard => ?_
      split
      · exact .fail fun pool at_ => refuse _ pool ⟨at_, nofun⟩
      refine Quiet.get.bind_triple refuse fun pool => ?_
      change Triple _ (if _ then _ else _) _ _
      split
      · refine .bind _ modifyMaps_eq fun _ => .fail fun pool at_ => ?_
        rw [at_]
        exact .orphaned fresh inputs
      refine (checkGasAndNonce_quiet tx _).bind_triple refuse fun _ => ?_
      refine .bind _ (.weaken checkDoubleSpend_triple (fun _ at_ => at_) (fun _ _ holds => holds) refuse)
        fun _ => ?_
      refine .of_start fun pool ⟨at_, unspent, distinct⟩ => ?_
      refine .weaken acceptTx_triple (fun other same => same ▸ at_) (fun _ final done => ?_) fun _ _ holds => holds
      rw [done]
      exact .accepted _ fresh inputs unspent distinct

theorem contractVoutFrom_unfailing (c : Crypto) (statedb : StateDB) (vin : List TxIn) (vout : List TxOut) :
    (contractVoutFrom c statedb vin vout).Unfailing := by
  induction vout with
  | nil => exact .panicked
  | cons o rest next =>
    unfold contractVoutFrom
    dsimp only
    split
    · exact .ok _
    split
    · exact next
    split
    · exact next
    · exact .bind (.expect _) fun _ => .bind (.expect _) fun _ => .ok _

theorem releaseNonce_triple :
    Triple (Has maps) (releaseNonce env moment tx) (fun _ => Has maps)
      (Survived fun _ => False) := by
  refine .bind (fun _ => Has maps) ?_ fun type => ?_
  · exact .get_bind fun start same => .bind (fun _ => Has maps)
      (.modify fun _ at_ => at_ ▸ same) fun _ => .pure fun _ at_ => at_
  split
  · refine .get_bind fun start same => ?_
    refine .of_pre ?_ fun pool (at_ : pool = start) => (at_ ▸ same : Has maps pool)
    refine .bind_same (.lift (fun _ _ _ at_ => at_) ?_) fun vout => ?_
    · intro fault failed pool _
      have unfailing := contractVoutFrom_unfailing env.crypto moment.tailState (env.message tx).vin (env.message tx).vout
      cases found : contractVoutFrom env.crypto moment.tailState (env.message tx).vin (env.message tx).vout with
      | ok vout =>
        have ok : getContractVout env.crypto (start.load env tx) moment.tailState = .ok vout := found
        rw [ok] at failed
        cases failed
      | error first =>
        cases first with
        | error err => exact absurd found (unfailing err)
        | panic =>
          have dies : getContractVout env.crypto (start.load env tx) moment.tailState = .error .panic := found
          rw [dies] at failed
          cases failed
          trivial
    refine .bind_same (.lift (fun _ _ _ at_ => at_) ?_) fun _ =>
      .modify fun _ at_ => at_
    intro fault failed pool _
    cases parsed : senderAndNonce vout.scriptPubKey with
    | none =>
      rw [parsed] at failed
      cases failed
      trivial
    | some _ =>
      rw [parsed] at failed
      cases failed
  · exact .pure fun _ at_ => at_

theorem removeOne_triple (kept : PoolMaps → Prop) :
    Triple (fun pool => kept (pool.toPoolMaps.dropTx env tx)) (removeOne env moment tx)
      (fun _ pool => kept pool.toPoolMaps) (Survived fun _ => False) := by
  refine .bind (fun _ pool => kept pool.toPoolMaps) (.modify fun _ holds => holds) fun _ => ?_
  refine .of_start fun start holds => ?_
  have released : Triple (Has start.toPoolMaps) (releaseNonce env moment tx) _ _ :=
    releaseNonce_triple
  exact .weaken released (fun _ at_ => at_ ▸ rfl) (fun _ _ at_ => at_ ▸ holds) fun _ _ ended => ended

end TransactionPool

namespace PoolMaps

def Registered (maps : PoolMaps) (orphan : TxRef) : Prop :=
  ∃ outPoint orphans hash, maps.outPointToOrphan.lookup outPoint = some orphans ∧ orphans.lookup hash = some orphan

def Pooled (maps : PoolMaps) (tx : TxRef) : Prop := ∃ hash wrap, maps.hashToTx.lookup hash = some wrap ∧ wrap.tx = tx

structure Shrunk (start maps : PoolMaps) : Prop where
  pool : ∀ hash wrap, maps.hashToTx.lookup hash = some wrap → start.hashToTx.lookup hash = some wrap
  log : start.log ⊆ maps.log

/-- A property of the maps that rests on what is in the log. -/
def Given (good : PoolEntry → Prop) (holds : PoolMaps → Prop) (maps : PoolMaps) : Prop :=
  (∀ entry ∈ maps.log, good entry) → holds maps

namespace Given

variable {good : PoolEntry → Prop} {holds : PoolMaps → Prop} {maps after : PoolMaps}

theorem silent (given : Given good holds maps) (log : after.log = maps.log) (keep : holds maps → holds after) :
    Given good holds after :=
  fun all => keep (given (log ▸ all))

theorem noted (given : Given good holds maps) {entry : PoolEntry} (log : after.log = maps.log ++ [entry])
    (keep : good entry → holds maps → holds after) : Given good holds after := by
  intro all
  rw [log, forall_mem_append, forall_mem_singleton] at all
  exact keep all.2 (given all.1)

end Given

variable {env : PoolEnv} {moment : Moment}

variable {maps : PoolMaps}

theorem mem_orphansOf {orphan : TxRef} : orphan ∈ maps.orphansOf moment outPoint ↔
      ∃ orphans hash, maps.outPointToOrphan.lookup outPoint = some orphans ∧ orphans.lookup hash = some orphan := by
  unfold orphansOf
  cases found : maps.outPointToOrphan.lookup outPoint with
  | none => simp
  | some orphans =>
    simp only [(moment.range.perm _).mem_iff, mem_map]
    constructor
    · rintro ⟨entry, member, rfl⟩
      exact ⟨orphans, entry.1, rfl, mem_lookup_iff.mpr member⟩
    · rintro ⟨_, hash, same, at_⟩
      cases same
      exact ⟨⟨hash, orphan⟩, mem_lookup_iff.mp at_, rfl⟩

theorem lookup_registerOrphans {tx : TxRef} {index : Table OutPoint (Table HashType TxRef)}
    {orphans : Table HashType TxRef} (found : index.lookup outPoint = some orphans) :
    (outPoints.foldl (registerOrphan env tx) index).lookup outPoint = some orphans := by
  induction outPoints generalizing index with
  | nil => exact found
  | cons first rest next =>
    refine next ?_
    unfold registerOrphan
    split
    · next absent =>
      have differ : outPoint ≠ first := by
        rintro rfl
        rw [absent] at found
        cases found
      rw [lookup_insert_ne differ, found]
    · exact found

theorem Registered.addOrphan {orphan : TxRef} (registered : maps.Registered orphan) (tx : TxRef) :
    (maps.addOrphan env moment tx).Registered orphan := by
  obtain ⟨outPoint, orphans, hash, found, at_⟩ := registered
  exact ⟨outPoint, orphans, hash, lookup_registerOrphans found, at_⟩

theorem Shrunk.refl (maps : PoolMaps) : Shrunk maps maps := ⟨fun _ _ found => found, Subset.refl _⟩

theorem Shrunk.trans {start between : PoolMaps} (first : Shrunk start between) (second : Shrunk between maps) :
    Shrunk start maps :=
  ⟨fun hash wrap found => first.pool hash wrap (second.pool hash wrap found), Subset.trans first.log second.log⟩

theorem addOrphan_shrunk (tx : TxRef) (maps : PoolMaps) : Shrunk maps (maps.addOrphan env moment tx) :=
  ⟨fun _ _ found => found, subset_append_left _ _⟩

theorem unspend_shrunk (hash : HashType) (maps : PoolMaps) (outPoint : OutPoint) :
    Shrunk maps (unspend env hash maps outPoint) := by
  unfold unspend
  split
  · exact .refl maps
  · dsimp only
    split
    · exact ⟨fun _ _ found => found, .refl _⟩
    · exact ⟨fun _ _ found => (lookup_of_erase found).2, .refl _⟩

theorem dropTx_shrunk (tx : TxRef) (maps : PoolMaps) : Shrunk maps (maps.dropTx env tx) := by
  refine foldlRecOn (env.spends tx) (unspend env (env.hash tx)) (motive := Shrunk maps) ?_ ?_
  · exact ⟨fun _ _ found => (lookup_of_erase found).2, .refl _⟩
  · exact fun between shrunk outPoint _ => shrunk.trans (unspend_shrunk _ between outPoint)

end PoolMaps

namespace TransactionPool

variable {env : PoolEnv} {moment : Moment}

/-- A property of the maps that the calls keep. Transactions are dropped when they spend
an output of another, when they have been in the pool for too long, or when they come
from outside. -/
structure Closed (env : PoolEnv) (kept : PoolMaps → Prop) : Prop where
  attempt : ∀ {moment : Moment} {tx : TxRef} {maps after : PoolMaps} {result : Except (Fault PoolError) Unit},
    kept maps → Attempt env moment true tx maps result after → kept after
  accept : ∀ {moment : Moment} {orphan : TxRef} {maps after : PoolMaps},
    kept maps → maps.Registered orphan → Attempt env moment false orphan maps (.ok ()) after →
      kept ((after.note (.offered orphan maps.hashToTx maps.hashToOrphanTx (.ok ()))).removeOrphan env orphan)
  refuse : ∀ {moment : Moment} {orphan : TxRef} {maps after : PoolMaps} {fault : Fault PoolError},
    kept maps → maps.Registered orphan → Attempt env moment false orphan maps (.error fault) after →
      kept (after.note (.offered orphan maps.hashToTx maps.hashToOrphanTx (.error fault)))
  removeOrphan : ∀ {tx : TxRef} {maps : PoolMaps}, kept maps → kept (maps.removeOrphan env tx)
  drop : ∀ {outPoint : OutPoint} {child : TxRef} {maps : PoolMaps},
    kept maps → maps.findTransaction outPoint = some child → kept (maps.dropTx env child)
  evict : ∀ {moment : Moment} {outPoint : OutPoint} {child : TxRef} {maps : PoolMaps},
    kept maps → maps.findTransaction outPoint = some child →
      kept ((maps.dropTx env child).addOrphan env moment child)
  expire : ∀ {tx : TxRef} {start maps : PoolMaps},
    kept start → kept maps → Shrunk start maps → start.Pooled tx → kept (maps.dropTx env tx)
  outside : ∀ {tx : TxRef} {maps : PoolMaps}, kept maps → kept ((maps.note (.removed tx maps.hashToTx)).dropTx env tx)
  forget : ∀ {tx : TxRef} {maps : PoolMaps}, kept maps → kept (maps.forget env tx)
  confirm : ∀ {tx : TxRef} {maps : PoolMaps}, kept maps →
    kept ((((maps.see env tx).note (.removed tx maps.hashToTx)).dropTx env tx).removeOrphan env tx)
  check : ∀ {hash : HashType} {wrap : TxWrap} {maps : PoolMaps}, kept maps → maps.hashToTx.lookup hash = some wrap →
    kept { maps with hashToTx := maps.hashToTx.insert hash { wrap with isScriptValid := true } }

abbrev Holds (kept : PoolMaps → Prop) (pool : TransactionPool) : Prop := kept pool.toPoolMaps

variable {kept : PoolMaps → Prop}

section
variable (evict : ∀ maps outPoint child, kept maps → findTransaction maps outPoint = some child →
    kept ((maps.dropTx env child).addOrphan env moment child))
include evict

theorem evictSpenders_keeps (outPoints : List OutPoint) :
    Keeps (Holds kept) (evictSpenders env moment outPoints) := by
  induction outPoints with
  | nil => exact .pure _
  | cons outPoint rest next =>
    refine .get_bind fun start holds => ?_
    refine .of_pre ?_ fun pool (at_ : pool = start) => at_
    cases found : start.findTransaction outPoint with
    | none => exact .of_pre next fun _ at_ => at_ ▸ holds
    | some child =>
      have dropped : Triple (· = start) (removeOne env moment child)
          (fun _ pool => kept (pool.toPoolMaps.addOrphan env moment child)) (Survived (Holds kept)) :=
        .weaken (removeOne_triple fun maps => kept (maps.addOrphan env moment child))
          (fun _ at_ => at_ ▸ evict _ outPoint child holds found) (fun _ _ holds => holds)
          fun _ _ ended => ended.mono False.elim fun _ => trivial
      refine .bind _ dropped fun _ => .bind (fun _ => Holds kept) (.modify fun _ holds => holds) fun _ => ?_
      exact Keeps.bind next fun _ => Keeps.pure _

theorem evictChildren_keeps (turns : Nat) (removedTxs : List TxRef) :
    Keeps (Holds kept) (evictChildren env moment turns removedTxs) := by
  induction turns generalizing removedTxs with
  | zero =>
    cases removedTxs with
    | nil => exact .pure _
    | cons _ _ => exact .pure _
  | succ turns next =>
    cases removedTxs with
    | nil => exact .pure _
    | cons removedTx rest => exact .bind (evictSpenders_keeps evict _) fun _ => next _

end

variable {tx : TxRef}

theorem removeTx_triple (evict : ∀ maps outPoint child, kept maps → findTransaction maps outPoint = some child →
      kept ((maps.dropTx env child).addOrphan env moment child)) {recursive : Bool} :
    Triple (fun pool => kept (pool.toPoolMaps.dropTx env tx)) (removeTx env moment recursive tx)
      (fun _ => Holds kept) (Survived (Holds kept)) := by
  refine .bind (fun _ => Holds kept) ?_ fun _ => ?_
  · exact .weaken (removeOne_triple kept) (fun _ holds => holds) (fun _ _ holds => holds)
      fun _ _ ended => ended.mono False.elim fun _ => trivial
  split
  · exact Keeps.bind Keeps.get fun _ => evictChildren_keeps evict _ _
  · exact Keeps.pure _

variable {orphan : TxRef} {maps : PoolMaps}

theorem offer_attempt : Triple (Has maps) (offer env moment orphan)
      (fun _ pool => ∃ after, Attempt env moment false orphan maps (.ok ()) after ∧
        pool.toPoolMaps = after.note (.offered orphan maps.hashToTx maps.hashToOrphanTx (.ok ())))
      (fun fault pool => ∃ after, Attempt env moment false orphan maps (.error fault) after ∧
        pool.toPoolMaps = after.note (.offered orphan maps.hashToTx maps.hashToOrphanTx (.error fault))) := by
  refine .get_bind fun start same => .observe ?_
  subst same
  exact .weaken maybeAcceptTx_attempt (fun _ at_ => at_ ▸ rfl) (fun _ pool ended => ⟨_, ended, rfl⟩)
    fun _ pool ended => ⟨_, ended, rfl⟩

theorem Attempt.registered {after : PoolMaps} {fault : Fault PoolError}
    (attempt : Attempt env moment detectDupOrphan tx maps (.error fault) after) (registered : maps.Registered orphan) :
    after.Registered orphan := by
  cases attempt with
  | orphaned => exact registered.addOrphan tx
  | duplicate => exact registered
  | refused => exact registered

/-- What `offerOrphans` does to the maps: orphans are offered until one of them is
accepted. -/
inductive Tried (env : PoolEnv) (moment : Moment) : List TxRef → PoolMaps → Option TxRef → PoolMaps → Prop where
  | nil (maps : PoolMaps) : Tried env moment [] maps none maps
  | accepted {orphan : TxRef} {rest : List TxRef} {maps after : PoolMaps}
      (attempt : Attempt env moment false orphan maps (.ok ()) after) :
      Tried env moment (orphan :: rest) maps (some orphan)
        ((after.note (.offered orphan maps.hashToTx maps.hashToOrphanTx (.ok ()))).removeOrphan env orphan)
  | refused {orphan : TxRef} {rest : List TxRef} {maps after final : PoolMaps} {fault : Fault PoolError}
      {result : Option TxRef} (attempt : Attempt env moment false orphan maps (.error fault) after)
      (next : Tried env moment rest (after.note (.offered orphan maps.hashToTx maps.hashToOrphanTx (.error fault))) result final) :
      Tried env moment (orphan :: rest) maps result final

inductive Scanned (env : PoolEnv) (moment : Moment) : List OutPoint → PoolMaps → List TxRef → PoolMaps → Prop where
  | nil (maps : PoolMaps) : Scanned env moment [] maps [] maps
  | cons {outPoint : OutPoint} {rest : List OutPoint} {maps between final : PoolMaps} {accepted : Option TxRef}
      {others : List TxRef} (tried : Tried env moment (maps.orphansOf moment outPoint) maps accepted between)
      (next : Scanned env moment rest between others final) :
      Scanned env moment (outPoint :: rest) maps (accepted.toList ++ others) final

/-- What `acceptOrphans` does to the maps. -/
inductive Worked (env : PoolEnv) (moment : Moment) :
    Nat → List TxRef → List TxRef → PoolMaps → List TxRef → PoolMaps → Prop where
  | done (turns : Nat) (before : List TxRef) (maps : PoolMaps) : Worked env moment turns before [] maps before maps
  | stopped (before : List TxRef) (tx : TxRef) (waiting : List TxRef) (maps : PoolMaps) :
      Worked env moment 0 before (tx :: waiting) maps (before ++ tx :: waiting) maps
  | turn {turns : Nat} {before waiting accepted all : List TxRef} {tx : TxRef} {maps between final : PoolMaps}
      (scanned : Scanned env moment (env.outputs tx) maps accepted between)
      (next : Worked env moment turns (before ++ [tx]) (waiting ++ accepted) between all final) :
      Worked env moment (turns + 1) before (tx :: waiting) maps all final

theorem offerOrphans_tried {orphans : List TxRef} :
    Triple (Has maps) (offerOrphans env moment orphans)
      (fun result pool => Tried env moment orphans maps result pool.toPoolMaps) (Survived fun _ => False) := by
  induction orphans generalizing maps with
  | nil =>
    refine .pure fun pool at_ => ?_
    rw [at_]
    exact .nil maps
  | cons orphan rest next =>
    refine .bind _ (.attempt offer_attempt fun _ _ => trivial) fun result => ?_
    cases result with
    | error err =>
      refine .of_start fun start ended => ?_
      obtain ⟨after, attempt, at_⟩ := ended.2 err rfl
      refine .weaken next (fun pool (same : pool = start) => ?_) (fun _ _ tried => .refused attempt tried)
        fun _ _ ended => ended
      rw [same]
      exact at_
    | ok value =>
      refine .of_start fun start ended => ?_
      obtain ⟨after, attempt, at_⟩ := ended.1 value rfl
      refine .bind _ (.of_pre modifyMaps_eq fun pool same => congrArg toPoolMaps same) fun _ =>
        .pure fun pool same => ?_
      rw [same, at_]
      exact .accepted attempt

theorem offerSpenders_scanned : Triple (Has maps) (offerSpenders env moment outPoints)
      (fun accepted pool => Scanned env moment outPoints maps accepted pool.toPoolMaps) (Survived fun _ => False) := by
  induction outPoints generalizing maps with
  | nil =>
    refine .pure fun pool at_ => ?_
    rw [at_]
    exact .nil maps
  | cons outPoint rest next =>
    refine .get_bind fun start at_ => ?_
    subst at_
    refine .bind _ (.of_pre offerOrphans_tried fun pool same => congrArg toPoolMaps same) fun accepted => ?_
    refine .of_start fun between tried => ?_
    refine .bind _ (.of_pre next fun pool same => congrArg toPoolMaps same) fun others =>
      .pure fun pool scanned => .cons tried scanned

theorem acceptOrphans_worked {turns : Nat} {before waiting : List TxRef} :
    Triple (Has maps) (acceptOrphans env moment turns before waiting)
      (fun all pool => Worked env moment turns before waiting maps all pool.toPoolMaps) (Survived fun _ => False) := by
  induction turns generalizing before waiting maps with
  | zero =>
    cases waiting with
    | nil =>
      refine .pure fun pool at_ => ?_
      rw [at_]
      exact .done 0 before maps
    | cons tx waiting =>
      refine .pure fun pool at_ => ?_
      rw [at_]
      exact .stopped before tx waiting maps
  | succ turns next =>
    cases waiting with
    | nil =>
      refine .pure fun pool at_ => ?_
      rw [at_]
      exact .done _ before maps
    | cons tx waiting =>
      refine .bind _ offerSpenders_scanned fun accepted => .of_start fun between scanned => ?_
      exact .weaken next (fun pool same => congrArg toPoolMaps same) (fun _ _ worked => .turn scanned worked)
        fun _ _ ended => ended

theorem processOrphans_worked : Triple (Has maps) (processOrphans env moment tx)
      (fun _ pool => ∃ all between, Worked env moment (maps.registrations + 1) [] [tx] maps all between ∧
        pool.toPoolMaps = all.foldl (fun maps tx => maps.removeDoubleSpendOrphans env moment tx) between)
      (Survived fun _ => False) := by
  refine .get_bind fun start at_ => ?_
  subst at_
  refine .bind _ (.of_pre acceptOrphans_worked fun pool same => congrArg toPoolMaps same) fun all =>
    .of_start fun between worked => ?_
  refine .weaken (forM_modifyMaps _) (fun pool same => congrArg toPoolMaps same)
    (fun _ pool done => ⟨all, _, worked, done⟩) fun _ _ ended => ended

variable {final : PoolMaps}

section
variable (closed : Closed env kept)
include closed

theorem Tried.keeps {orphans : List TxRef} {result : Option TxRef}
    (tried : Tried env moment orphans maps result final) (holds : kept maps)
    (registered : ∀ orphan ∈ orphans, maps.Registered orphan) : kept final := by
  induction tried with
  | nil => exact holds
  | accepted attempt => exact closed.accept holds (registered _ mem_cons_self) attempt
  | refused attempt _ next =>
    rw [forall_mem_cons] at registered
    exact next (closed.refuse holds registered.1 attempt) fun orphan member =>
      attempt.registered (registered.2 orphan member)

omit closed in
theorem registered_of_orphansOf (member : orphan ∈ maps.orphansOf moment outPoint) : maps.Registered orphan := by
  obtain ⟨orphans, hash, found, held⟩ := mem_orphansOf.mp member
  exact ⟨outPoint, orphans, hash, found, held⟩

theorem Scanned.keeps
    {accepted : List TxRef} (scanned : Scanned env moment outPoints maps accepted final) (holds : kept maps) :
    kept final := by
  induction scanned with
  | nil => exact holds
  | cons tried _ next => exact next (tried.keeps closed holds fun _ => registered_of_orphansOf)

theorem Worked.keeps {turns : Nat} {before waiting all : List TxRef}
    (worked : Worked env moment turns before waiting maps all final) (holds : kept maps) : kept final := by
  induction worked with
  | done => exact holds
  | stopped => exact holds
  | turn scanned _ next => exact next (scanned.keeps closed holds)

theorem Closed.removeDoubleSpendOrphans (holds : kept maps) : kept (maps.removeDoubleSpendOrphans env moment tx) := by
  refine foldlRecOn (env.spends tx) _ (motive := kept) holds fun between held outPoint _ => ?_
  exact foldlRecOn _ _ (motive := kept) held fun _ held _ _ => closed.removeOrphan held

omit closed in
theorem Closed.modifyMaps {change : PoolMaps → PoolMaps} (keep : ∀ maps, kept maps → kept (change maps)) :
    Keeps (Holds kept) (modifyMaps change) := .modify fun pool => keep pool.toPoolMaps

theorem processOrphans_keeps (tx : TxRef) : Keeps (Holds kept) (processOrphans env moment tx) := by
  refine .of_start fun start holds => ?_
  refine .weaken processOrphans_worked (fun pool same => congrArg toPoolMaps same) (fun _ pool ended => ?_)
    fun _ _ ended => ended.mono False.elim fun _ => trivial
  obtain ⟨all, between, worked, at_⟩ := ended
  change kept pool.toPoolMaps
  rw [at_]
  exact foldlRecOn all _ (motive := kept) (worked.keeps closed holds) fun _ held _ _ =>
    closed.removeDoubleSpendOrphans held

theorem maybeAcceptTx_keeps (tx : TxRef) : Always (Holds kept) (maybeAcceptTx env moment true tx) :=
  .of_start fun _ holds => .weaken maybeAcceptTx_attempt (fun _ at_ => at_ ▸ rfl)
    (fun _ _ attempt => closed.attempt holds attempt) fun _ _ attempt => closed.attempt holds attempt

theorem processTx_keeps (tx : TxRef) : Keeps (Holds kept) (processTx env moment tx) :=
  .bind (maybeAcceptTx_keeps closed tx).keeps fun _ => processOrphans_keeps closed tx

theorem removeChild_keeps (outPoint : OutPoint) : Keeps (Holds kept) (do
      match (← get).findTransaction outPoint with
      | none => return ()
      | some childTx => removeTx env moment true childTx) := by
  refine .get_bind fun start holds => ?_
  cases found : start.findTransaction outPoint with
  | none => exact .pure fun _ at_ => at_ ▸ holds
  | some child =>
    exact .of_pre (removeTx_triple fun _ _ _ held found => closed.evict held found)
      fun _ at_ => at_ ▸ closed.drop holds found

theorem removeOutside_keeps (recursive : Bool) (tx : TxRef) :
    Keeps (Holds kept) (removeOutside env moment recursive tx) := by
  refine Triple.bind (fun _ pool => kept (pool.toPoolMaps.dropTx env tx)) ?_ fun _ =>
    removeTx_triple fun _ _ _ held found => closed.evict held found
  exact .modify fun pool holds => closed.outside holds

theorem detachBlock_keeps (txs : List TxRef) : Keeps (Holds kept) (detachBlock env moment txs) := by
  cases txs with
  | nil => exact .panicked
  | cons first rest =>
    refine .bind (.forM fun tx _ => ?_) fun _ => .forM fun tx _ => .forM fun outPoint _ =>
      removeChild_keeps closed outPoint
    refine .bind (Closed.modifyMaps fun _ holds => closed.forget holds) fun _ => .bind ?_ fun _ => .pure _
    exact .weaken (.attempt (maybeAcceptTx_keeps closed tx) fun _ _ => trivial) (fun _ holds => holds)
      (fun result pool ⟨returned, failed⟩ => by
        cases result with
        | ok value => exact returned value rfl
        | error err => exact failed err rfl) fun _ _ ended => ended

theorem confirm_keeps (tx : TxRef) : Keeps (Holds kept) (do
      modifyMaps (see env tx)
      removeOutside env moment false tx
      modifyMaps (removeOrphan env tx)
      modifyMaps (removeDoubleSpendOrphans env moment tx)) := by
  refine .of_start fun start holds => ?_
  refine .bind _ (.of_pre modifyMaps_eq fun pool (at_ : pool = start) => (at_ ▸ rfl :
    pool.toPoolMaps = start.toPoolMaps)) fun _ => ?_
  refine .bind (fun _ pool => kept (pool.toPoolMaps.removeOrphan env tx)) ?_ fun _ =>
    .bind (fun _ => Holds kept) (.modify fun _ held => held) fun _ =>
      Closed.modifyMaps fun _ holds => closed.removeDoubleSpendOrphans holds
  refine .bind (fun _ pool => kept ((pool.toPoolMaps.dropTx env tx).removeOrphan env tx))
    (.modify fun pool at_ => ?_) fun _ => ?_
  · change kept (((pool.toPoolMaps.note (.removed tx pool.hashToTx)).dropTx env tx).removeOrphan env tx)
    rw [at_]
    exact closed.confirm holds
  · refine .bind _ (.weaken (removeOne_triple fun maps => kept (maps.removeOrphan env tx)) (fun _ held => held)
      (fun _ _ held => held) fun _ _ ended => ended.mono False.elim fun _ => trivial) fun _ => ?_
    exact .pure fun _ held => held

theorem removeBlockTxs_keeps (txs : List TxRef) : Keeps (Holds kept) (removeBlockTxs env moment txs) := by
  cases txs with
  | nil => exact .panicked
  | cons first rest => exact .forM fun tx _ => confirm_keeps closed tx

theorem checkTxScript_keeps (position : Nat) : Keeps (Holds kept) (checkTxScript env moment position) := by
  refine .bind .get fun pool => ?_
  split
  · exact .pure _
  refine Keeps.bind (Triple.modify fun _ holds => holds) fun _ => Keeps.bind Keeps.get fun pool => ?_
  split
  · exact removeOutside_keeps closed true _
  refine Closed.modifyMaps fun maps holds => ?_
  split
  · exact holds
  · next wrap found => exact closed.check holds found

omit closed in
theorem mem_expired {wraps : Table HashType TxWrap} (member : tx ∈ expired moment wraps) :
    ∃ hash wrap, wraps.lookup hash = some wrap ∧ wrap.tx = tx := by
  obtain ⟨wrap, among, rfl⟩ := mem_map.mp member
  have listed := (moment.range.perm _).mem_iff.mp (mem_filter.mp among).1
  obtain ⟨entry, stored, rfl⟩ := mem_map.mp listed
  exact ⟨entry.1, entry.2, mem_lookup_iff.mpr stored, rfl⟩

/-- The expired transactions were all in the pool when the first of them is removed. -/
theorem cleanExpiredTxs_keeps : Keeps (Holds kept) (cleanExpiredTxs env moment) := by
  refine Triple.get_bind fun start holds => ?_
  let still : PoolMaps → Prop := fun maps => kept maps ∧ Shrunk start.toPoolMaps maps
  have orphans : Keeps (Holds still) ((expired moment start.hashToOrphanTx).forM fun orphan =>
      modifyMaps (removeOrphan env orphan)) :=
    .forM fun _ _ => Closed.modifyMaps fun _ held => ⟨closed.removeOrphan held.1, held.2.pool, held.2.log⟩
  have evict : ∀ maps outPoint child, still maps → findTransaction maps outPoint = some child →
      still ((maps.dropTx env child).addOrphan env moment child) := by
    intro maps outPoint child held found
    exact ⟨closed.evict held.1 found, (held.2.trans (dropTx_shrunk child maps)).trans (addOrphan_shrunk child _)⟩
  have txs : Keeps (Holds still) ((expired moment start.hashToTx).forM fun tx => removeTx env moment true tx) := by
    refine .forM fun tx member => .of_pre (removeTx_triple evict) fun pool held => ?_
    exact ⟨closed.expire holds held.1 held.2 (mem_expired member), held.2.trans (dropTx_shrunk tx _)⟩
  refine Triple.weaken (Keeps.bind orphans fun _ => txs) (fun _ at_ => at_ ▸ ⟨holds, Shrunk.refl _⟩)
    (fun _ _ held => held.1) fun _ _ ended => ended.mono And.left fun _ => trivial

theorem step_keeps (call : Moment × Event) : Keeps (Holds kept) (step env call) := by
  obtain ⟨moment, event⟩ := call
  cases event with
  | processTx tx => exact processTx_keeps closed tx
  | checkTxScript position => exact checkTxScript_keeps closed position
  | cleanExpiredTxs => exact cleanExpiredTxs_keeps closed
  | invalidTx tx => exact removeOutside_keeps closed true tx
  | processChainUpdateMsg detachBlocks attachBlocks =>
    exact .bind (.forM fun txs _ => detachBlock_keeps closed txs) fun _ =>
      .forM fun txs _ => removeBlockTxs_keeps closed txs
  | cacheType tx type => exact .modify fun _ holds => holds

theorem Closed.runs {calls : List (Moment × Event)} {start final : TransactionPool}
    (run : Runs (step env) start calls final) (holds : kept start.toPoolMaps) : kept final.toPoolMaps :=
  run.keeps (fun call _ => step_keeps closed call) holds

end

end TransactionPool
end Boxd
