import Boxd.Proofs.ApplyTransfers

/-! What taking the transactions of a block back does to the set: its outputs end up spent,
and what it spent is there again, read from the block that holds it. -/

namespace Boxd
open Lib UtxoSet ChainState List Option AList Script Table Outcome

variable {outPoint : OutPoint}

/-- The output of an outpoint, as it is read from the block that holds it. -/
def reload (env : NodeEnv) (st : ChainState) (outPoint : OutPoint) : Option UtxoWrap := do
  let (block, prevTx) ← st.loadBlockInfoByTxHash env outPoint.hash
  let prevOut ← prevTx.vout[outPoint.index.toNat]?
  if isOpReturnScript prevOut.scriptPubKey then none
  else some (.new prevOut.value prevOut.scriptPubKey block.header.height)

theorem reload_some {env : NodeEnv} {st : ChainState} {utxoWrap : UtxoWrap}
    (found : reload env st outPoint = some utxoWrap) :
    ∃ block prevTx prevOut, st.loadBlockInfoByTxHash env outPoint.hash = some (block, prevTx) ∧
      prevTx.vout[outPoint.index.toNat]? = some prevOut ∧ isOpReturnScript prevOut.scriptPubKey = false ∧
      utxoWrap = .new prevOut.value prevOut.scriptPubKey block.header.height := by
  simp only [reload, bind_eq_bind, bind_eq_some_iff, Prod.exists] at found
  obtain ⟨block, prevTx, loaded, prevOut, output, kept⟩ := found
  split at kept
  · cases kept
  · next data => exact ⟨block, prevTx, prevOut, loaded, output, by simpa using data, (some.inj kept).symm⟩

/-- The map after an input is taken back. -/
def unspendIn (reloaded : OutPoint → UtxoWrap) (utxoMap : UtxoMap) (outPoint : OutPoint) : UtxoMap :=
  utxoMap.insert outPoint ((utxoMap.lookup outPoint).elim (reloaded outPoint) UtxoWrap.unSpend)

def revertIn (c : Crypto) (reloaded : OutPoint → UtxoWrap) (utxoMap : UtxoMap) (tx : Transaction) : UtxoMap :=
  (consumed tx).foldl (unspendIn reloaded) ((voutsToFetch c false tx).foldl spendIn utxoMap)

section Run

variable {env : NodeEnv} {st : ChainState} {reloaded : OutPoint → UtxoWrap}

theorem revertVouts_eq (c : Crypto) (tx : Transaction) (u : UtxoSet) :
    revertVouts (txHash c tx) tx.vout u = { u with utxoMap := (voutsToFetch c false tx).foldl spendIn u.utxoMap } := by
  unfold revertVouts voutsToFetch
  induction tx.vout.zipIdx generalizing u with
  | nil => rfl
  | cons output rest next =>
    obtain ⟨vout, index⟩ := output
    rw [foldl_cons, next, filterMap_cons]
    dsimp only
    cases data : isOpReturnScript vout.scriptPubKey with
    | true => simp only [if_true, Bool.true_or]
    | false =>
      cases contract : isContractPubkey vout.scriptPubKey with
      | true => simp only [Bool.or_true, Bool.not_false, Bool.and_true, Bool.false_eq_true, if_true, if_false]
      | false =>
        simp only [Bool.or_false, Bool.and_false, Bool.false_eq_true, if_false, foldl_cons]
        rfl

theorem revertVin_eq (plain : outPoint.isContractType = false)
    (found : reload env st outPoint = some (reloaded outPoint)) (u : UtxoSet) :
    revertVin env st u outPoint = .ok { u with utxoMap := unspendIn reloaded u.utxoMap outPoint } := by
  unfold revertVin unspendIn
  rw [plain, if_neg Bool.false_ne_true]
  cases present : u.utxoMap.lookup outPoint with
  | some utxoWrap =>
    simp only [findUtxo, present]
    rfl
  | none =>
    obtain ⟨block, prevTx, prevOut, loaded, output, data, same⟩ := reload_some found
    have read : expect (st.loadBlockInfoByTxHash env outPoint.hash) =
        (.ok (block, prevTx) : Outcome ChainError _) := by rw [loaded]; rfl
    have written : expect prevTx.vout[outPoint.index.toNat]? = (.ok prevOut : Outcome ChainError _) := by
      rw [output]; rfl
    simp only [findUtxo, present, read, elim_none]
    refine bind_ok_iff.mpr ⟨_, rfl, bind_ok_iff.mpr ⟨prevOut, written, ?_⟩⟩
    rw [data, same]
    rfl

theorem revertTx_eq {tx : Transaction} (plain : ∀ outPoint ∈ consumed tx, outPoint.isContractType = false)
    (found : ∀ outPoint ∈ consumed tx, reload env st outPoint = some (reloaded outPoint)) (u : UtxoSet) :
    revertTx env st u tx = .ok { u with utxoMap := revertIn env.crypto reloaded u.utxoMap tx } := by
  unfold revertTx revertIn
  rw [revertVouts_eq]
  generalize (voutsToFetch env.crypto false tx).foldl spendIn u.utxoMap = utxoMap
  unfold consumed at plain found ⊢
  split at plain
  · next system =>
    rw [if_pos system] at found ⊢
    rw [if_pos system]
    rfl
  · next ordinary =>
    rw [if_neg ordinary] at found ⊢
    rw [if_neg ordinary]
    change (spentBy tx).foldlM (revertVin env st) _ = _
    generalize spentBy tx = outPoints at plain found
    induction outPoints generalizing utxoMap with
    | nil => rfl
    | cons outPoint rest next =>
      rw [forall_mem_cons] at plain found
      rw [foldlM_cons, revertVin_eq plain.1 found.1]
      exact next (unspendIn reloaded utxoMap outPoint) plain.2 found.2

/-- The transactions are taken back from the last one to the first. -/
theorem revertBlock_eq {block : Block} (external : block.internalTxs = [])
    (plain : ∀ outPoint ∈ block.txs.flatMap consumed, outPoint.isContractType = false)
    (found : ∀ outPoint ∈ block.txs.flatMap consumed, reload env st outPoint = some (reloaded outPoint)) (u : UtxoSet) :
    revertBlock env st u block =
      .ok { u with utxoMap := block.txs.reverse.foldl (revertIn env.crypto reloaded) u.utxoMap } := by
  have each : ∀ tx ∈ block.txs.reverse, ∀ u,
      revertTx env st u tx = .ok { u with utxoMap := revertIn env.crypto reloaded u.utxoMap tx } := by
    intro tx member u
    have among := mem_reverse.mp member
    exact revertTx_eq (fun outPoint spent => plain outPoint (mem_flatMap.mpr ⟨tx, among, spent⟩))
      (fun outPoint spent => found outPoint (mem_flatMap.mpr ⟨tx, among, spent⟩)) u
  rw [revertBlock, external, append_nil]
  generalize block.txs.reverse = txs at each
  induction txs generalizing u with
  | nil => rfl
  | cons tx rest next =>
    rw [forall_mem_cons] at each
    rw [foldlM_cons, each.1]
    exact next _ each.2

end Run

section Map

variable {c : Crypto} {reloaded : OutPoint → UtxoWrap} {utxoMap : UtxoMap} {txs : List Transaction}

theorem revertIn_induct {motive : UtxoMap → Prop} (txs : List Transaction)
    (spend : ∀ outPoint ∈ ownOutputs c txs, ∀ utxoMap, motive utxoMap → motive (spendIn utxoMap outPoint))
    (unspend : ∀ outPoint ∈ txs.flatMap consumed, ∀ utxoMap, motive utxoMap → motive (unspendIn reloaded utxoMap outPoint))
    (initial : motive utxoMap) : motive (txs.reverse.foldl (revertIn c reloaded) utxoMap) := by
  refine foldlRecOn (motive := motive) _ _ initial ?_
  intro before held tx member
  have among := mem_reverse.mp member
  refine foldlRecOn (motive := motive) _ _ (foldlRecOn (motive := motive) _ _ held ?_) ?_
  · exact fun _ held outPoint own => spend outPoint (mem_flatMap.mpr ⟨tx, among, own⟩) _ held
  · exact fun _ held outPoint spent => unspend outPoint (mem_flatMap.mpr ⟨tx, among, spent⟩) _ held

theorem revertIn_frame (foreign : outPoint ∉ ownOutputs c txs) (unspent : outPoint ∉ txs.flatMap consumed) :
    (txs.reverse.foldl (revertIn c reloaded) utxoMap).lookup outPoint = utxoMap.lookup outPoint := by
  apply revertIn_induct (motive := fun after => after.lookup outPoint = utxoMap.lookup outPoint) txs ?_ ?_ rfl
  · intro own member before same
    rw [← same]
    apply lookup_insert_ne
    rintro rfl
    exact foreign member
  · intro spent member before same
    rw [← same]
    apply lookup_insert_ne
    rintro rfl
    exact unspent member

theorem revertIn_allModified (all : AllModified utxoMap)
    (fresh : ∀ outPoint ∈ txs.flatMap consumed, (reloaded outPoint).isModified = true) :
    AllModified (txs.reverse.foldl (revertIn c reloaded) utxoMap) := by
  apply revertIn_induct txs ?_ ?_ all
  · exact fun outPoint _ before all => all.spendIn outPoint
  · intro outPoint spent before all
    apply All.insert all
    cases before.lookup outPoint with
    | none => exact fresh outPoint spent
    | some utxoWrap => rfl

/-- An input never names an output of its own transaction or of a later one. -/
def InOrder (c : Crypto) (txs : List Transaction) : Prop :=
  (∀ tx ∈ txs, ∀ outPoint ∈ spentBy tx, outPoint.hash ≠ txHash c tx) ∧
    txs.Pairwise fun earlier later => ∀ outPoint ∈ spentBy earlier, outPoint.hash ≠ txHash c later

theorem consumed_subset (tx : Transaction) : consumed tx ⊆ spentBy tx := by
  unfold consumed
  split
  · exact nil_subset _
  · exact Subset.refl _

/-- What the block adds is spent in the end: it is taken back after all of its own
spends. -/
theorem revertIn_own (order : InOrder c txs) (own : outPoint ∈ ownOutputs c txs) :
    SpentIn (txs.reverse.foldl (revertIn c reloaded) utxoMap) outPoint := by
  obtain ⟨tx, among, output⟩ := mem_flatMap.mp own
  obtain ⟨_, _, -, -, -, here⟩ := mem_voutsToFetch.mp output
  have hashed : outPoint.hash = txHash c tx := by rw [here]
  obtain ⟨selves, sorted⟩ := order
  have self := selves tx among
  obtain ⟨earlier, later, rfl⟩ := append_of_mem among
  obtain ⟨-, -, sorted⟩ := pairwise_append.mp sorted
  rw [reverse_append, reverse_cons, append_assoc, foldl_append, foldl_append]
  have keeps : ∀ tx', (∀ spent ∈ consumed tx', spent ≠ outPoint) → ∀ before, SpentIn before outPoint →
      SpentIn ((consumed tx').foldl (unspendIn reloaded) before) outPoint := by
    intro tx' apart before spent
    refine foldlRecOn (motive := fun utxoMap => SpentIn utxoMap outPoint) _ _ spent ?_
    rintro before ⟨utxoWrap, found, isSpent⟩ other member
    exact ⟨utxoWrap, (lookup_insert_ne (apart other member).symm).trans found, isSpent⟩
  apply revertIn_induct (motive := fun utxoMap => SpentIn utxoMap outPoint) earlier
  · exact fun other _ _ spent => spent.spendIn other
  · rintro other member before ⟨utxoWrap, found, isSpent⟩
    obtain ⟨first, before, spends⟩ := mem_flatMap.mp member
    refine ⟨utxoWrap, (lookup_insert_ne ?_).trans found, isSpent⟩
    rintro rfl
    exact sorted first before tx mem_cons_self _ (consumed_subset first spends) hashed
  · refine keeps tx ?_ _ (foldl_spendIn_spent output _)
    rintro _ spends rfl
    exact self _ (consumed_subset tx spends) hashed

/-- The entry of an outpoint is missing, or restored already. -/
def Awaits (reloaded : OutPoint → UtxoWrap) (outPoint : OutPoint) (utxoMap : UtxoMap) : Prop :=
  utxoMap.lookup outPoint = none ∨ utxoMap.lookup outPoint = some (reloaded outPoint)

section
variable (again : (reloaded outPoint).unSpend = reloaded outPoint)
include again

theorem Awaits.unspendIn_self (awaits : Awaits reloaded outPoint utxoMap) :
    (unspendIn reloaded utxoMap outPoint).lookup outPoint = some (reloaded outPoint) := by
  rw [unspendIn, lookup_insert]
  rcases awaits with absent | present
  · rw [absent, elim_none]
  · rw [present, elim_some, again]

/-- Taking another entry back, or the same one again, changes nothing. -/
theorem Awaits.unspendIn (awaits : Awaits reloaded outPoint utxoMap) (other : OutPoint) :
    Awaits reloaded outPoint (unspendIn reloaded utxoMap other) := by
  by_cases same : outPoint = other
  · subst same
    exact .inr (awaits.unspendIn_self again)
  · rw [Awaits, Boxd.unspendIn, lookup_insert_ne same]
    exact awaits

/-- What was spent is there again, if it was gone and is not an output of the block. -/
theorem revertIn_spent (foreign : outPoint ∉ ownOutputs c txs)
    (spent : outPoint ∈ txs.flatMap consumed) (gone : utxoMap.lookup outPoint = none) :
    (txs.reverse.foldl (revertIn c reloaded) utxoMap).lookup outPoint = some (reloaded outPoint) := by
  have outputs : ∀ tx ∈ txs.reverse, ∀ before,
      ((voutsToFetch c false tx).foldl spendIn before).lookup outPoint = before.lookup outPoint := by
    intro tx among before
    refine foldlRecOn (motive := fun after : UtxoMap => after.lookup outPoint = before.lookup outPoint) _ _ rfl ?_
    intro between same own member
    rw [← same]
    apply lookup_insert_ne
    rintro rfl
    exact foreign (mem_flatMap.mpr ⟨tx, mem_reverse.mp among, member⟩)
  have restored : ∀ before, before.lookup outPoint = some (reloaded outPoint) → ∀ other,
      (Boxd.unspendIn reloaded before other).lookup outPoint = some (reloaded outPoint) := by
    intro before present other
    by_cases same : outPoint = other
    · subst same
      exact Awaits.unspendIn_self again (.inr present)
    · exact (lookup_insert_ne same).trans present
  obtain ⟨spender, among, spends⟩ := mem_flatMap.mp spent
  -- The entry is missing or restored until its spender is reached, and then it stays.
  refine foldl_establishes (Awaits reloaded outPoint) (fun after => after.lookup outPoint = some (reloaded outPoint))
    (mem_reverse.mpr among) ?_ ?_ ?_ (.inl gone)
  · intro tx member before awaits
    refine foldlRecOn (motive := Awaits reloaded outPoint) _ _ ?_ fun _ awaits other _ => awaits.unspendIn again other
    rwa [Awaits, outputs tx member before]
  · intro tx member before present
    refine foldlRecOn (motive := fun after => after.lookup outPoint = some (reloaded outPoint)) _ _ ?_
      fun between present other _ => restored between present other
    rwa [outputs tx member before]
  · intro before awaits
    refine foldl_establishes (Awaits reloaded outPoint) (fun after => after.lookup outPoint = some (reloaded outPoint))
      spends ?_ ?_ ?_ ?_
    · exact fun other _ between awaits => awaits.unspendIn again other
    · exact fun other _ between present => restored between present other
    · exact fun between awaits => awaits.unspendIn_self again
    · rwa [Awaits, outputs spender (mem_reverse.mpr among) before]

end

/-- Every entry can be listed, and keeps the script of the database. -/
def Writable (db : UtxoDB) (utxoMap : UtxoMap) : Prop :=
  utxoMap.All fun outPoint utxoWrap =>
    (∃ key, addrUtxoKey outPoint utxoWrap.script = .ok key) ∧ ∀ entry ∈ db.lookup outPoint, utxoWrap.script = entry.script

theorem addrUtxoKey_empty (outPoint : OutPoint) : ∃ key, addrUtxoKey outPoint [] = .ok key := ⟨_, rfl⟩

/-- What is written after a block is taken back can be listed. An output that is in
neither the set nor the database is spent without a script. -/
theorem revertIn_writable {db : UtxoDB} (writable : Writable db utxoMap)
    (covered : ∀ outPoint ∈ ownOutputs c txs, utxoMap.lookup outPoint = none → db.lookup outPoint = none)
    (gone : ∀ outPoint ∈ txs.flatMap consumed, db.lookup outPoint = none)
    (listable : ∀ outPoint ∈ txs.flatMap consumed, ∃ key, addrUtxoKey outPoint (reloaded outPoint).script = .ok key) :
    Writable db (txs.reverse.foldl (revertIn c reloaded) utxoMap) := by
  refine (revertIn_induct (motive := fun utxoMap => Writable db utxoMap ∧
    ∀ outPoint ∈ ownOutputs c txs, utxoMap.lookup outPoint = none → db.lookup outPoint = none) txs ?_ ?_
    ⟨writable, covered⟩).1
  · rintro outPoint own before ⟨writable, covered⟩
    refine ⟨All.insert writable ?_, ?_⟩
    · rw [UtxoWrap.spend_script]
      cases found : before.lookup outPoint with
      | some utxoWrap => exact writable outPoint utxoWrap found
      | none =>
        rw [covered outPoint own found]
        exact ⟨addrUtxoKey_empty outPoint, by rintro _ ⟨⟩⟩
    · intro other member absent
      by_cases same : other = outPoint
      · subst same
        rw [spendIn, lookup_insert] at absent
        cases absent
      · exact covered other member ((lookup_insert_ne same).symm.trans absent)
  · rintro outPoint spent before ⟨writable, covered⟩
    refine ⟨All.insert writable ?_, ?_⟩
    · cases found : before.lookup outPoint with
      | some utxoWrap => exact writable outPoint utxoWrap found
      | none =>
        rw [gone outPoint spent]
        exact ⟨listable outPoint spent, by rintro _ ⟨⟩⟩
    · intro other member absent
      by_cases same : other = outPoint
      · subst same
        rw [unspendIn, lookup_insert] at absent
        cases absent
      · exact covered other member ((lookup_insert_ne same).symm.trans absent)

end Map
end Boxd
