import Boxd.Lib.Ledger
import Boxd.Proofs.LoadBlock

/-! What applying transactions does to the set: each output changes at most the entry
that holds its value, and each input is marked as spent. -/

namespace Boxd
open Lib List Option AList Nat Script UtxoSet Table Outcome

variable {c : Crypto} {u after : UtxoSet} {vout : TxOut} {blockHeight : UInt32} {statedb : StateDB}
  {tx later : Transaction} {before : UtxoMap} {db : UtxoDB} {outPoint : OutPoint}

def TxOut.paidContract (statedb : StateDB) (vout : TxOut) : Option AddressHash :=
  ((extractAddress vout.scriptPubKey).toOption.bind Address.hash160).filter statedb.isContractAddr

/-- The outpoint that holds the value of an output: its own, or that of a contract. -/
def TxOut.holder (c : Crypto) (statedb : StateDB) (hash : HashType) (txOutIdx : Nat) (vout : TxOut) :
    Option OutPoint :=
  let sc : Script := vout.scriptPubKey
  if sc.isOpReturnScript then none
  else if sc.isContractPubkey then
    match sc.parseContractInfo with
    | .error _ => none
    | .ok (sender, none, nonce) => some (contractOutPoint (c.createAddress sender nonce))
    | .ok (_, some contractAddr, _) => some (contractOutPoint contractAddr)
  else some ((vout.paidContract statedb).elim ⟨hash, .ofNat txOutIdx⟩ contractOutPoint)

namespace UtxoSet

/-- What an output can do to the entry that holds its value. -/
inductive Credits (statedb : StateDB) (vout : TxOut) (blockHeight : UInt32) (holder : OutPoint) (before : UtxoMap) :
    UtxoMap → Prop
  | nothing : Credits statedb vout blockHeight holder before before
  | created (fresh : before.lookup holder = none) (plain : isContractPubkey vout.scriptPubKey = false)
      (kept : vout.paidContract statedb = none) : Credits statedb vout blockHeight holder before
      (before.insert holder (.new vout.value vout.scriptPubKey blockHeight))
  | added (utxoWrap : UtxoWrap) (found : before.lookup holder = some utxoWrap) :
      Credits statedb vout blockHeight holder before (before.insert holder (utxoWrap.addValue vout.value))
  | addedToRecord (addr : AddressHash) (entry : UtxoEntry) (plain : isContractPubkey vout.scriptPubKey = false)
      (paid : vout.paidContract statedb = some addr) (fresh : before.lookup holder = none)
      (place : holder = contractOutPoint addr) (record : statedb.getContractUtxo addr = some entry) :
      Credits statedb vout blockHeight holder before (before.insert holder (entry.wrap.addValue vout.value))
  | deployed (sender : AddressHash) (nonce : UInt64) (contract : isContractPubkey vout.scriptPubKey = true)
      (parsed : parseContractInfo vout.scriptPubKey = .ok (sender, none, nonce)) :
      Credits statedb vout blockHeight holder before (before.insert holder (.new 0 vout.scriptPubKey blockHeight))

theorem getTxType_message (statedb : StateDB) (tx : Transaction) :
    (getTxType statedb tx).2.toTxMessage = tx.toTxMessage := by
  unfold getTxType
  split <;> rfl

theorem txHash_congr {left right : Transaction} (same : left.toTxMessage = right.toTxMessage) :
    txHash c left = txHash c right := by rw [txHash, txHash, same]

section
variable (plain : isContractPubkey vout.scriptPubKey = false)
include plain

theorem applyTransfer_credits {addr : AddressHash}
    (paid : vout.paidContract statedb = some addr) (ok : applyTransfer u addr vout.value statedb = .ok after) :
    Credits statedb vout blockHeight (contractOutPoint addr) u.utxoMap after.utxoMap := by
  unfold applyTransfer at ok
  split at ok
  · cases ok
    exact .nothing
  · dsimp only at ok
    split at ok
    · cases ok
    · next utxoWrap found =>
      cases ok
      cases present : u.findUtxo (contractOutPoint addr) with
      | some held =>
        rw [present, some_or] at found
        cases found
        exact .added utxoWrap present
      | none =>
        rw [present, none_or] at found
        obtain ⟨entry, record, rfl⟩ := map_eq_some_iff.mp found
        exact .addedToRecord addr entry plain paid present rfl record

theorem applyCommon_credits {txOutIdx : Nat} (kept : vout.paidContract statedb = none)
    (ok : applyCommon c u tx vout (.ofNat txOutIdx) blockHeight statedb = .ok (after, later)) :
    later.toTxMessage = tx.toTxMessage ∧
      Credits statedb vout blockHeight ⟨txHash c tx, .ofNat txOutIdx⟩ u.utxoMap after.utxoMap := by
  unfold applyCommon at ok
  dsimp only at ok
  split at ok
  · cases ok
  · next absent =>
    have fresh : u.utxoMap.lookup ⟨txHash c tx, .ofNat txOutIdx⟩ = none := by simpa [findUtxo] using absent
    split at ok
    all_goals
      cases ok
      exact ⟨getTxType_message statedb tx, .created fresh plain kept⟩

end

theorem applyContract_credits
    (statedb : StateDB) (hash : HashType) (txOutIdx : Nat) (data : isOpReturnScript vout.scriptPubKey = false)
    (contract : isContractPubkey vout.scriptPubKey = true)
    (ok : applyContract c u vout blockHeight = .ok after) :
    ∃ holder, vout.holder c statedb hash txOutIdx = some holder ∧
      Credits statedb vout blockHeight holder u.utxoMap after.utxoMap := by
  unfold applyContract at ok
  simp only [TxOut.holder, data, contract, Bool.false_eq_true, if_false, if_true]
  cases parsed : parseContractInfo vout.scriptPubKey with
  | error err =>
    rw [parsed] at ok
    cases ok
  | ok info =>
    obtain ⟨sender, _ | contractAddr, nonce⟩ := info
    · rw [parsed] at ok
      obtain ⟨-, ok⟩ := ite_panicked_ok_iff.mp ok
      cases ok
      exact ⟨_, rfl, .deployed sender nonce contract parsed⟩
    · rw [parsed] at ok
      dsimp only at ok
      split at ok
      · cases ok
      · next utxoWrap found =>
        cases ok
        exact ⟨_, rfl, .added utxoWrap found⟩

/-- An output that is applied changes at most the entry that holds its value. -/
theorem applyUtxo_credits {txOutIdx : Nat} (data : isOpReturnScript vout.scriptPubKey = false)
    (ok : applyUtxo c u tx vout (.ofNat txOutIdx) blockHeight statedb = .ok (after, later)) :
    later.toTxMessage = tx.toTxMessage ∧ ∃ holder, vout.holder c statedb (txHash c tx) txOutIdx = some holder ∧
      Credits statedb vout blockHeight holder u.utxoMap after.utxoMap := by
  unfold applyUtxo at ok
  dsimp only at ok
  split at ok
  · next contract =>
    obtain ⟨_, applied, same⟩ := exists_ok_map ok
    cases same
    exact ⟨rfl, applyContract_credits statedb _ _ data contract applied⟩
  · next plain =>
    have plain : isContractPubkey vout.scriptPubKey = false := by simpa using plain
    simp only [TxOut.holder, data, plain, Bool.false_eq_true, if_false]
    split at ok
    · cases ok
    · next address extracted =>
      split at ok
      · cases ok
      · next addr known =>
        have pays : vout.paidContract statedb = (some addr).filter statedb.isContractAddr := by
          simp only [TxOut.paidContract, extracted, Except.toOption, bind_some, known]
        split at ok
        · next contract =>
          obtain ⟨_, applied, same⟩ := exists_ok_map (lift_ok_iff.mp ok)
          cases same
          rw [filter_some_pos contract] at pays
          rw [pays]
          exact ⟨rfl, _, rfl, applyTransfer_credits plain pays applied⟩
        · next common =>
          rw [filter_some_neg (Bool.eq_false_iff.mpr common)] at pays
          obtain ⟨same, credits⟩ := applyCommon_credits plain pays (lift_ok_iff.mp ok)
          rw [pays]
          exact ⟨same, _, rfl, credits⟩

theorem applyVouts_induct {hash : HashType}
    {motive : UtxoMap → Prop} (vouts : List TxOut) {start : Nat}
    (step : ∀ vout index, (vout, index) ∈ vouts.zipIdx start → ∀ holder before after,
      vout.holder c statedb hash index = some holder →
        Credits statedb vout blockHeight holder before after → motive before → motive after)
    (hashed : txHash c tx = hash)
    (ok : applyVouts c blockHeight statedb vouts start u tx = .ok (after, later)) (initial : motive u.utxoMap) :
    later.toTxMessage = tx.toTxMessage ∧ motive after.utxoMap := by
  induction vouts generalizing start u tx with
  | nil =>
    cases ok
    exact ⟨rfl, initial⟩
  | cons vout rest next =>
    have next := fun {u tx} => @next u tx (start + 1) fun vout index member =>
      step vout index (mem_cons_of_mem _ member)
    unfold applyVouts at ok
    split at ok
    · exact next hashed ok initial
    · next data =>
      split at ok
      · next between typed applied =>
        obtain ⟨same, holder, held, credits⟩ := applyUtxo_credits (by simpa using data) applied
        rw [hashed] at held
        have kept := step vout start mem_cons_self _ _ _ held credits initial
        obtain ⟨later, final⟩ := next (txHash_congr same ▸ hashed) ok kept
        exact ⟨later.trans same, final⟩
      · split at ok
        · exact next hashed ok initial
        · cases ok

/-- What an entry of the map is worth, or else that of the database. -/
def balance (db : UtxoDB) (utxoMap : UtxoMap) (outPoint : OutPoint) : Nat :=
  match utxoMap.lookup outPoint with
  | none => db.worthAt (fun entry => entry.value.toNat) outPoint
  | some utxoWrap => if utxoWrap.isSpent then 0 else utxoWrap.value.toNat

def RecordsWithin (statedb : StateDB) (db : UtxoDB) : Prop :=
  ∀ addr entry, statedb.getContractUtxo addr = some entry →
    entry.value.toNat ≤ db.worthAt (fun entry => entry.value.toNat) (contractOutPoint addr)

theorem balance_insert (db : UtxoDB) (utxoMap : UtxoMap) (outPoint other : OutPoint) (utxoWrap : UtxoWrap) :
    balance db (utxoMap.insert outPoint utxoWrap) other =
      if other = outPoint then (if utxoWrap.isSpent then 0 else utxoWrap.value.toNat)
      else balance db utxoMap other := by
  unfold balance
  by_cases same : other = outPoint
  · rw [if_pos same, same, lookup_insert]
  · rw [if_neg same, lookup_insert_ne same]

theorem addValue_worth_le (utxoWrap : UtxoWrap) (value : UInt64) :
    (if (utxoWrap.addValue value).isSpent then 0 else (utxoWrap.addValue value).value.toNat) ≤
      (if utxoWrap.isSpent then 0 else utxoWrap.value.toNat) + value.toNat := by
  simp only [UtxoWrap.addValue, UInt64.toNat_add]
  split
  · exact zero_le _
  · exact mod_le _ _

theorem Credits.balance_le {holder : OutPoint}
    {after : UtxoMap} (records : RecordsWithin statedb db)
    (credits : Credits statedb vout blockHeight holder before after) (outPoint : OutPoint) :
    balance db after outPoint ≤ balance db before outPoint + Finsupp.single holder vout.value.toNat outPoint := by
  by_cases same : outPoint = holder
  · subst same
    rw [Finsupp.single_eq_same]
    cases credits with
    | nothing => exact le_add_right _ _
    | created fresh => simp [balance_insert, UtxoWrap.new]
    | added utxoWrap found =>
      rw [balance_insert, if_pos rfl, balance, found]
      exact addValue_worth_le utxoWrap vout.value
    | addedToRecord addr entry _ _ fresh place record =>
      rw [balance_insert, if_pos rfl, balance, fresh, place]
      exact (addValue_worth_le entry.wrap vout.value).trans (Nat.add_le_add_right (records addr entry record) _)
    | deployed => simp [balance_insert, UtxoWrap.new]
  · have unchanged : balance db after outPoint = balance db before outPoint := by
      cases credits with
      | nothing => rfl
      | _ => rw [balance_insert, if_neg same]
    exact unchanged.le.trans (le_add_right _ _)

/-- What outputs pay, and where it is held. -/
def payments (c : Crypto) (statedb : StateDB) (hash : HashType) (vouts : List TxOut) (start : Nat) :
    List (OutPoint × Nat) :=
  (vouts.zipIdx start).filterMap fun (vout, index) => (vout.holder c statedb hash index).map (·, vout.value.toNat)

theorem paidTotal_payments_le (c : Crypto) (statedb : StateDB) (hash : HashType) (vouts : List TxOut) (start : Nat) :
    paidTotal (payments c statedb hash vouts start) ≤ (vouts.map fun vout => vout.value.toNat).sum := by
  induction vouts generalizing start with
  | nil => rfl
  | cons vout rest next =>
    simp only [payments, zipIdx_cons, filterMap_cons, map_cons, sum_cons]
    have rest_le := next (start + 1)
    cases vout.holder c statedb hash start with
    | none => exact rest_le.trans (le_add_left _ _)
    | some holder =>
      simp only [map_some, paidTotal, map_cons, sum_cons]
      exact Nat.add_le_add_left rest_le _

theorem applyVouts_balance_le {hash : HashType}
    (records : RecordsWithin statedb db) (vouts : List TxOut) {start : Nat}
    (hashed : txHash c tx = hash)
    (ok : applyVouts c blockHeight statedb vouts start u tx = .ok (after, later)) (outPoint : OutPoint) :
    balance db after.utxoMap outPoint ≤
      balance db u.utxoMap outPoint + posted (payments c statedb hash vouts start) outPoint := by
  induction vouts generalizing start u tx with
  | nil =>
    cases ok
    exact le_add_right _ _
  | cons vout rest next =>
    -- Outputs that are passed over may count as paid, since only a bound is stated.
    have passed : posted (payments c statedb hash rest (start + 1)) outPoint ≤
        posted (payments c statedb hash (vout :: rest) start) outPoint := by
      simp only [payments, zipIdx_cons, filterMap_cons]
      cases vout.holder c statedb hash start <;> simp
    unfold applyVouts at ok
    split at ok
    · exact (next hashed ok).trans (Nat.add_le_add_left passed _)
    · next data =>
      split at ok
      · next between typed applied =>
        obtain ⟨same, holder, held, credits⟩ := applyUtxo_credits (by simpa using data) applied
        rw [hashed] at held
        have paid : posted (payments c statedb hash (vout :: rest) start) outPoint =
            Finsupp.single holder vout.value.toNat outPoint +
              posted (payments c statedb hash rest (start + 1)) outPoint := by
          simp only [payments, zipIdx_cons, filterMap_cons, held, map_some, posted_cons, Finsupp.add_apply]
        rw [paid, ← add_assoc]
        exact (next (txHash_congr same ▸ hashed) ok).trans (Nat.add_le_add_right (credits.balance_le records _) _)
      · split at ok
        · exact (next hashed ok).trans (Nat.add_le_add_left passed _)
        · cases ok

def spendIn (utxoMap : UtxoMap) (outPoint : OutPoint) : UtxoMap :=
  utxoMap.insert outPoint ((utxoMap.lookup outPoint).getD .empty).spend

def consumed (tx : Transaction) : List OutPoint :=
  if isCoinBase tx || isInternalContract tx then [] else spentBy tx

theorem spendVins_eq (statedb : StateDB) (vin : List TxIn) (u : UtxoSet) (tx : Transaction) :
    (spendVins statedb vin u tx).1.utxoMap = (vin.map TxIn.prevOutPoint).foldl spendIn u.utxoMap ∧
      (spendVins statedb vin u tx).2.toTxMessage = tx.toTxMessage := by
  induction vin generalizing u tx with
  | nil => exact ⟨rfl, rfl⟩
  | cons txIn rest next =>
    obtain ⟨spent, same⟩ := next (if (getTxType statedb tx).1 ≠ .contractTx then { u.spendUtxo txIn.prevOutPoint with
          normalTxUtxoSet := (u.spendUtxo txIn.prevOutPoint).normalTxUtxoSet.insert txIn.prevOutPoint }
        else u.spendUtxo txIn.prevOutPoint) (getTxType statedb tx).2
    refine ⟨spent.trans ?_, same.trans (getTxType_message statedb tx)⟩
    split <;> rfl

theorem applyTx_ok (ok : applyTx c u tx blockHeight statedb = .ok (after, later)) :
    ∃ between typed, applyVouts c blockHeight statedb tx.vout 0 u tx = .ok (between, typed) ∧
      after.utxoMap = (consumed tx).foldl spendIn between.utxoMap ∧ later.toTxMessage = tx.toTxMessage := by
  simp only [applyTx, bind_ok_iff, Prod.exists] at ok
  obtain ⟨between, typed, applied, ok⟩ := ok
  obtain ⟨same, -⟩ := applyVouts_induct (motive := fun _ => True) tx.vout (fun _ _ _ _ _ _ _ _ _ => trivial) rfl
    applied trivial
  refine ⟨between, typed, applied, ?_⟩
  have vin : typed.vin = tx.vin := congrArg TxMessage.vin same
  have system : (isCoinBase typed || isInternalContract typed) = (isCoinBase tx || isInternalContract tx) := by
    simp only [isCoinBase, isInternalContract, hasSystemInput, vin]
  rw [system, vin] at ok
  unfold consumed
  split at ok
  · next skipped =>
    cases ok
    rw [if_pos skipped]
    exact ⟨rfl, same⟩
  · next spends =>
    rw [if_neg spends]
    obtain ⟨spent, kept⟩ := spendVins_eq statedb tx.vin between typed
    rw [Except.ok.inj ok] at spent kept
    exact ⟨spent, kept.trans same⟩

theorem applyTxs_induct {motive : UtxoMap → Prop} (txs : List Transaction) {later : List Transaction}
    (credit : ∀ tx ∈ txs, ∀ vout index, (vout, index) ∈ tx.vout.zipIdx → ∀ holder before after,
      vout.holder c statedb (txHash c tx) index = some holder →
        Credits statedb vout blockHeight holder before after → motive before → motive after)
    (spend : ∀ tx ∈ txs, ∀ outPoint ∈ consumed tx, ∀ utxoMap, motive utxoMap → motive (spendIn utxoMap outPoint))
    (ok : applyTxs c blockHeight statedb txs u = .ok (after, later)) (initial : motive u.utxoMap) :
    motive after.utxoMap := by
  induction txs generalizing u later with
  | nil =>
    cases ok
    exact initial
  | cons tx rest next =>
    simp only [applyTxs, bind_ok_iff, Prod.exists] at ok
    obtain ⟨between, typed, first, final, others, ok, done⟩ := ok
    cases done
    obtain ⟨paid, _, outputs, spent, -⟩ := applyTx_ok first
    obtain ⟨-, held⟩ := applyVouts_induct tx.vout (credit tx mem_cons_self) rfl outputs initial
    refine next (fun tx member => credit tx (mem_cons_of_mem _ member))
      (fun tx member => spend tx (mem_cons_of_mem _ member)) ok ?_
    rw [spent]
    exact foldlRecOn _ _ held fun utxoMap held outPoint member =>
      spend tx mem_cons_self outPoint member utxoMap held

theorem balance_spendIn_le (db : UtxoDB) (utxoMap : UtxoMap) (outPoint other : OutPoint) :
    balance db (spendIn utxoMap outPoint) other ≤ balance db utxoMap other := by
  rw [spendIn, balance_insert]
  split
  · have spent : (((utxoMap.lookup outPoint).getD .empty).spend).isSpent = true := by
      unfold UtxoWrap.spend
      split
      · assumption
      · rfl
    rw [if_pos spent]
    exact zero_le _
  · exact le_rfl

def allPayments (c : Crypto) (statedb : StateDB) (txs : List Transaction) : List (OutPoint × Nat) :=
  txs.flatMap fun tx => payments c statedb (txHash c tx) tx.vout 0

theorem applyTxs_balance_le (records : RecordsWithin statedb db) (txs : List Transaction) {later : List Transaction}
    (ok : applyTxs c blockHeight statedb txs u = .ok (after, later)) (outPoint : OutPoint) :
    balance db after.utxoMap outPoint ≤
      balance db u.utxoMap outPoint + posted (allPayments c statedb txs) outPoint := by
  induction txs generalizing u later with
  | nil =>
    cases ok
    exact le_add_right _ _
  | cons tx rest next =>
    simp only [applyTxs, bind_ok_iff, Prod.exists] at ok
    obtain ⟨between, typed, first, final, others, ok, done⟩ := ok
    cases done
    obtain ⟨paid, _, outputs, spent, -⟩ := applyTx_ok first
    have inputs : balance db between.utxoMap outPoint ≤ balance db paid.utxoMap outPoint := by
      rw [spent]
      exact foldlRecOn (motive := fun utxoMap => balance db utxoMap outPoint ≤ balance db paid.utxoMap outPoint)
        _ _ le_rfl fun utxoMap le spentNow _ => (balance_spendIn_le db utxoMap spentNow outPoint).trans le
    rw [allPayments, flatMap_cons, posted_append, Finsupp.add_apply, ← add_assoc]
    exact (next ok).trans (Nat.add_le_add_right
      (inputs.trans (applyVouts_balance_le records tx.vout rfl outputs outPoint)) _)

def SpentIn (utxoMap : UtxoMap) (outPoint : OutPoint) : Prop :=
  ∃ utxoWrap, utxoMap.lookup outPoint = some utxoWrap ∧ utxoWrap.isSpent = true

theorem spentIn_spendIn (utxoMap : UtxoMap) (outPoint : OutPoint) : SpentIn (spendIn utxoMap outPoint) outPoint :=
  ⟨_, lookup_insert _, by
    unfold UtxoWrap.spend
    split
    · assumption
    · rfl⟩

theorem SpentIn.spendIn {utxoMap : UtxoMap} (spent : SpentIn utxoMap outPoint)
    (other : OutPoint) : SpentIn (spendIn utxoMap other) outPoint := by
  by_cases same : outPoint = other
  · subst same
    exact spentIn_spendIn utxoMap outPoint
  · obtain ⟨utxoWrap, found, isSpent⟩ := spent
    exact ⟨utxoWrap, (lookup_insert_ne same).trans found, isSpent⟩

theorem Credits.spentIn {holder : OutPoint}
    {after : UtxoMap} (plain : isContractPubkey vout.scriptPubKey = false)
    (credits : Credits statedb vout blockHeight holder before after)
    (spent : SpentIn before outPoint) : SpentIn after outPoint := by
  obtain ⟨utxoWrap, found, isSpent⟩ := spent
  have elsewhere : outPoint ≠ holder → ∀ written, SpentIn (before.insert holder written) outPoint :=
    fun differ written => ⟨utxoWrap, (lookup_insert_ne differ).trans found, isSpent⟩
  cases credits with
  | nothing => exact ⟨utxoWrap, found, isSpent⟩
  | created fresh =>
    apply elsewhere
    rintro rfl
    rw [found] at fresh
    cases fresh
  | added held present =>
    by_cases same : outPoint = holder
    · subst same
      rw [found] at present
      cases present
      exact ⟨_, lookup_insert _, isSpent⟩
    · exact elsewhere same _
  | addedToRecord addr entry _ _ fresh =>
    apply elsewhere
    rintro rfl
    rw [found] at fresh
    cases fresh
  | deployed sender nonce contract =>
    rw [plain] at contract
    cases contract

theorem foldl_spendIn_spent {outPoints : List OutPoint} (member : outPoint ∈ outPoints)
    (utxoMap : UtxoMap) : SpentIn (outPoints.foldl spendIn utxoMap) outPoint := by
  induction outPoints generalizing utxoMap with
  | nil => cases member
  | cons first rest next =>
    rw [foldl_cons]
    rcases mem_cons.mp member with rfl | later
    · exact foldlRecOn (motive := fun utxoMap => SpentIn utxoMap outPoint) _ _
        (spentIn_spendIn utxoMap outPoint) fun _ spent other _ => spent.spendIn other
    · exact next later _

/-- Without contract outputs, what a transaction spends stays spent. -/
theorem applyTxs_spent (txs : List Transaction)
    {later : List Transaction}
    (plain : ∀ tx ∈ txs, ∀ vout ∈ tx.vout, isContractPubkey vout.scriptPubKey = false)
    (ok : applyTxs c blockHeight statedb txs u = .ok (after, later))
    (spends : outPoint ∈ txs.flatMap consumed) : SpentIn after.utxoMap outPoint := by
  induction txs generalizing u later with
  | nil => cases spends
  | cons tx rest next =>
    have plain' := fun tx member => plain tx (mem_cons_of_mem _ member)
    simp only [applyTxs, bind_ok_iff, Prod.exists] at ok
    obtain ⟨between, typed, first, final, others, ok, done⟩ := ok
    cases done
    rw [flatMap_cons, mem_append] at spends
    rcases spends with now | later
    · obtain ⟨paid, _, outputs, spent, -⟩ := applyTx_ok first
      apply applyTxs_induct rest
        (fun tx member vout _ among _ _ _ _ credits spent =>
          credits.spentIn (plain' tx member vout (fst_mem_of_mem_zipIdx among)) spent)
        (fun _ _ other _ _ spent => spent.spendIn other) ok
      rw [spent]
      exact foldl_spendIn_spent now _
    · exact next plain' ok later

def AllModified (utxoMap : UtxoMap) : Prop := utxoMap.All fun _ utxoWrap => utxoWrap.isModified = true

theorem Credits.allModified {holder : OutPoint}
    {after : UtxoMap} (credits : Credits statedb vout blockHeight holder before after)
    (all : AllModified before) : AllModified after := by
  cases credits with
  | nothing => exact all
  | _ => exact All.insert all rfl

theorem AllModified.spendIn {utxoMap : UtxoMap} (all : AllModified utxoMap) (outPoint : OutPoint) :
    AllModified (spendIn utxoMap outPoint) := by
  apply All.insert all
  cases found : utxoMap.lookup outPoint with
  | none => rfl
  | some utxoWrap =>
    rw [getD_some, UtxoWrap.spend]
    split
    · exact all outPoint utxoWrap found
    · rfl

theorem applyTxs_allModified {txs : List Transaction}
    {later : List Transaction} (ok : applyTxs c blockHeight statedb txs u = .ok (after, later))
    (all : AllModified u.utxoMap) : AllModified after.utxoMap :=
  applyTxs_induct txs (fun _ _ _ _ _ _ _ _ _ credits => credits.allModified)
    (fun _ _ outPoint _ _ all => all.spendIn outPoint) ok all

theorem worthAt_writeUtxos (all : AllModified u.utxoMap) (db : UtxoDB) (outPoint : OutPoint) :
    (u.writeUtxos db).worthAt (fun entry => entry.value.toNat) outPoint = balance db u.utxoMap outPoint := by
  rw [worthAt, writeUtxos, lookup_patch, balance]
  cases found : u.utxoMap.lookup outPoint with
  | none => rfl
  | some utxoWrap =>
    simp only [bind_some, UtxoWrap.written, all outPoint utxoWrap found, if_true, getD_some, UtxoWrap.serialize]
    cases utxoWrap.isSpent <;> rfl

end UtxoSet
end Boxd
