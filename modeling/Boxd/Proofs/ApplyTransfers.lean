import Boxd.Proofs.ApplyBlock
import Boxd.Proofs.Records

/-! Applying a block that calls one contract and pays no other: besides the outputs that it
adds, spends, or adds to the contract, nothing changes, and no script is replaced. -/

namespace Boxd
open Lib UtxoSet List Script AList

variable {tx : Transaction} {outPoint : OutPoint} {vout : TxOut} {db : UtxoDB}

/-- Outputs pay no contract, apart from calls of the given one. -/
structure Transfers (statedb : StateDB) (contract : AddressHash) (txs : List Transaction) : Prop where
  call : ∀ tx ∈ txs, ∀ vout ∈ tx.vout, isContractPubkey vout.scriptPubKey = true →
    ∃ sender nonce, parseContractInfo vout.scriptPubKey = .ok (sender, some contract, nonce)
  plain : ∀ tx ∈ txs, ∀ vout ∈ tx.vout, isContractPubkey vout.scriptPubKey = false →
    vout.paidContract statedb = none

def ownOutputs (c : Crypto) (txs : List Transaction) : List OutPoint := txs.flatMap (voutsToFetch c false)

theorem mem_voutsToFetch {c : Crypto} :
    outPoint ∈ voutsToFetch c false tx ↔ ∃ vout index, (vout, index) ∈ tx.vout.zipIdx ∧
      isOpReturnScript vout.scriptPubKey = false ∧ isContractPubkey vout.scriptPubKey = false ∧
      outPoint = ⟨txHash c tx, .ofNat index⟩ := by
  simp only [voutsToFetch, mem_filterMap, Prod.exists, Bool.not_false, Bool.true_and]
  refine exists_congr fun vout => exists_congr fun index => and_congr_right fun _ => ?_
  split
  · next data => simp [data]
  · next data =>
    split
    · next contract => simp [contract]
    · next plain => simp [data, plain, eq_comm]

section Apply

variable {c : Crypto} {statedb : StateDB} {contract : AddressHash} {txs later : List Transaction}
  {blockHeight : UInt32} {u after : UtxoSet}

theorem Transfers.holder (transfers : Transfers statedb contract txs) (among : tx ∈ txs)
    {index : Nat} (member : (vout, index) ∈ tx.vout.zipIdx) {holder : OutPoint}
    (held : vout.holder c statedb (txHash c tx) index = some holder) :
    holder ∈ ownOutputs c txs ∧ isContractPubkey vout.scriptPubKey = false ∨
      holder = contractOutPoint contract ∧ isContractPubkey vout.scriptPubKey = true := by
  have output := fst_mem_of_mem_zipIdx member
  unfold TxOut.holder at held
  dsimp only at held
  split at held
  · cases held
  · next data =>
    split at held
    · next isContract =>
      obtain ⟨sender, nonce, parsed⟩ := transfers.call tx among vout output isContract
      rw [parsed] at held
      cases held
      exact .inr ⟨rfl, isContract⟩
    · next plain =>
      have plain : isContractPubkey vout.scriptPubKey = false := by simpa using plain
      rw [transfers.plain tx among vout output plain] at held
      cases held
      exact .inl ⟨mem_flatMap.mpr ⟨tx, among, mem_voutsToFetch.mpr
        ⟨vout, index, member, by simpa using data, plain, rfl⟩⟩, plain⟩

theorem UtxoSet.Credits.lookup_ne {holder : OutPoint} {before after : UtxoMap}
    (credits : Credits statedb vout blockHeight holder before after) (differ : outPoint ≠ holder) :
    after.lookup outPoint = before.lookup outPoint := by
  cases credits with
  | nothing => rfl
  | _ => exact lookup_insert_ne differ

theorem applyTxs_frame (transfers : Transfers statedb contract txs)
    (ok : applyTxs c blockHeight statedb txs u = .ok (after, later))
    (unspent : outPoint ∉ txs.flatMap consumed) (foreign : outPoint ∉ ownOutputs c txs)
    (other : outPoint ≠ contractOutPoint contract) : after.findUtxo outPoint = u.findUtxo outPoint := by
  apply applyTxs_induct (motive := fun utxoMap => utxoMap.lookup outPoint = u.utxoMap.lookup outPoint) txs ?_ ?_ ok rfl
  · intro tx among vout index member holder before after held credits same
    rw [← same]
    apply credits.lookup_ne
    rintro rfl
    rcases transfers.holder among member held with ⟨own, -⟩ | ⟨called, -⟩
    · exact foreign own
    · exact other called
  · intro tx among spent member utxoMap same
    rw [← same]
    apply lookup_insert_ne
    rintro rfl
    exact unspent (mem_flatMap.mpr ⟨tx, among, member⟩)

/-- Entries are never lost, and keep their scripts and those of the database. -/
structure KeepsScripts (db : UtxoDB) (start utxoMap : UtxoMap) : Prop where
  present : ∀ outPoint utxoWrap, start.lookup outPoint = some utxoWrap →
    ∃ now, utxoMap.lookup outPoint = some now ∧ now.script = utxoWrap.script
  kept : ChainState.ScriptsKept db utxoMap

theorem KeepsScripts.insert {start utxoMap : UtxoMap} (keeps : KeepsScripts db start utxoMap)
    {utxoWrap : UtxoWrap}
    (same : ∀ old, utxoMap.lookup outPoint = some old → utxoWrap.script = old.script)
    (stored : ∀ entry ∈ db.lookup outPoint, utxoWrap.script = entry.script) :
    KeepsScripts db start (utxoMap.insert outPoint utxoWrap) := by
  refine ⟨?_, Table.All.insert keeps.kept stored⟩
  intro other initial found
  obtain ⟨now, present, script⟩ := keeps.present other initial found
  by_cases here : other = outPoint
  · subst here
    exact ⟨utxoWrap, lookup_insert _, (same now present).trans script⟩
  · exact ⟨now, (lookup_insert_ne here).trans present, script⟩

theorem UtxoWrap.spend_script (utxoWrap : UtxoWrap) : utxoWrap.spend.script = utxoWrap.script := by
  unfold UtxoWrap.spend
  split <;> rfl

theorem KeepsScripts.credits {start before after : UtxoMap} (transfers : Transfers statedb contract txs)
    (fresh : ∀ outPoint ∈ ownOutputs c txs, db.lookup outPoint = none)
    (among : tx ∈ txs) {index : Nat} (member : (vout, index) ∈ tx.vout.zipIdx)
    {holder : OutPoint} (held : vout.holder c statedb (txHash c tx) index = some holder)
    (credits : Credits statedb vout blockHeight holder before after) (keeps : KeepsScripts db start before) :
    KeepsScripts db start after := by
  cases credits with
  | nothing => exact keeps
  | created absent plain kept =>
    apply keeps.insert
    · intro old found
      rw [absent] at found
      cases found
    · rcases transfers.holder among member held with ⟨own, -⟩ | ⟨-, isContract⟩
      · rw [fresh holder own]
        rintro _ ⟨⟩
      · rw [plain] at isContract
        cases isContract
  | added utxoWrap found =>
    apply keeps.insert
    · intro old present
      rw [found] at present
      cases present
      rfl
    · exact keeps.kept holder utxoWrap found
  | addedToRecord addr entry plain paid =>
    rw [transfers.plain tx among vout (fst_mem_of_mem_zipIdx member) plain] at paid
    cases paid
  | deployed sender nonce isContract parsed =>
    obtain ⟨_, _, called⟩ := transfers.call tx among vout (fst_mem_of_mem_zipIdx member) isContract
    rw [parsed] at called
    cases called

theorem applyTxs_scripts (transfers : Transfers statedb contract txs)
    (fresh : ∀ outPoint ∈ ownOutputs c txs, db.lookup outPoint = none)
    (present : ∀ outPoint ∈ txs.flatMap consumed, ∃ utxoWrap, u.findUtxo outPoint = some utxoWrap)
    (kept : ChainState.ScriptsKept db u.utxoMap) (ok : applyTxs c blockHeight statedb txs u = .ok (after, later)) :
    KeepsScripts db u.utxoMap after.utxoMap := by
  apply applyTxs_induct txs ?_ ?_ ok ⟨fun _ utxoWrap found => ⟨utxoWrap, found, rfl⟩, kept⟩
  · intro tx among vout index member holder before after held credits keeps
    exact keeps.credits transfers fresh among member held credits
  · intro tx among spent member utxoMap keeps
    obtain ⟨initial, loaded⟩ := present spent (mem_flatMap.mpr ⟨tx, among, member⟩)
    obtain ⟨now, found, -⟩ := keeps.present spent initial loaded
    unfold spendIn
    rw [found, Option.getD_some]
    apply keeps.insert
    · intro old present
      rw [found] at present
      cases present
      exact UtxoWrap.spend_script now
    · rw [UtxoWrap.spend_script]
      exact keeps.kept spent now found

end Apply
end Boxd
