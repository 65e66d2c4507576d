import Boxd.Chain.Connect
import Boxd.Lib.Fold

/-! Outputs are stored twice, under their outpoint and listed for their address. The
lists follow from the outputs, so that restoring one restores the other. -/

namespace Boxd
open Lib Option List Table UtxoWrap

variable {key : AddrUtxoKey}

theorem addrUtxoKey_outPoint {outPoint : OutPoint} {script : Bytes}
    (keyed : addrUtxoKey outPoint script = .ok (some key)) : key.outPoint = outPoint := by
  unfold addrUtxoKey at keyed
  dsimp only at keyed
  split at keyed
  · split at keyed
    · cases keyed
      rfl
    · cases keyed
  · split at keyed
    · cases keyed
    · split at keyed
      · cases keyed
      · split at keyed
        · split at keyed
          · cases keyed
          · cases keyed
          · obtain ⟨addr, -, same⟩ := exists_ok_map keyed
            cases same
            rfl
        · split at keyed
          · obtain ⟨addr, -, same⟩ := exists_ok_map keyed
            cases same
            rfl
          · split at keyed
            · obtain ⟨addr, -, same⟩ := exists_ok_map keyed
              cases same
              rfl
            · cases keyed
              rfl

variable {utxoWrap : UtxoWrap}

theorem written_some {entry : UtxoEntry} (wrote : utxoWrap.written = some (some entry)) :
    utxoWrap.isModified = true ∧ utxoWrap.script = entry.script := by
  unfold UtxoWrap.written at wrote
  split at wrote
  · next modified =>
    refine ⟨modified, ?_⟩
    rw [serialize] at wrote
    split at wrote
    · cases wrote
    · cases wrote
      rfl
  · cases wrote

/-- What an output does to the entry under a key: nothing, if it is listed elsewhere. -/
def AddrUtxoKey.written (key : AddrUtxoKey) (utxoWrap : UtxoWrap) : Option (Option UtxoEntry) :=
  if (addrUtxoKey key.outPoint utxoWrap.script).toOption = some (some key) then utxoWrap.written else none

theorem AddrUtxoKey.written_of_keyed (keyed : addrUtxoKey key.outPoint utxoWrap.script = .ok (some key)) :
    key.written utxoWrap = utxoWrap.written :=
  if_pos (toOption_eq_some_iff.mpr keyed)

theorem AddrUtxoKey.written_of_ne (elsewhere : addrUtxoKey key.outPoint utxoWrap.script ≠ .ok (some key)) : key.written utxoWrap = none :=
  if_neg (mt toOption_eq_some_iff.mp elsewhere)

/-- Every output that is to be written can be listed. -/
def Listable (utxoMap : UtxoMap) : Prop :=
  utxoMap.All fun outPoint utxoWrap => utxoWrap.isModified = true →
    ∃ key, addrUtxoKey outPoint utxoWrap.script = .ok key

namespace ChainState

structure Written (u : UtxoSet) (st after : ChainState) : Prop where
  frame : after = { st with utxos := after.utxos, addrUtxos := after.addrUtxos }
  utxos : after.utxos = u.writeUtxos st.utxos
  addrUtxos : ∀ key, after.addrUtxos.lookup key =
    ((u.findUtxo key.outPoint).bind key.written).getD (st.addrUtxos.lookup key)
  listable : Listable u.utxoMap

variable {st after : ChainState}

theorem writeUtxo_ok {outPoint : OutPoint} {utxoWrap : UtxoWrap} (ok : st.writeUtxo outPoint utxoWrap = .ok after) :
    after = { st with utxos := after.utxos, addrUtxos := after.addrUtxos } ∧
      after.utxos = change UtxoWrap.written outPoint utxoWrap st.utxos ∧
      (∀ key, after.addrUtxos.lookup key =
        if key.outPoint = outPoint then (key.written utxoWrap).getD (st.addrUtxos.lookup key)
        else st.addrUtxos.lookup key) ∧
      (utxoWrap.isModified = true → ∃ key, addrUtxoKey outPoint utxoWrap.script = .ok key) := by
  unfold writeUtxo at ok
  split at ok
  · next kept =>
    cases ok
    have kept : utxoWrap.isModified = false := by simpa using kept
    have nothing : utxoWrap.written = none := by simp [UtxoWrap.written, kept]
    refine ⟨rfl, by rw [change, nothing], ?_, by simp [kept]⟩
    intro key
    simp [AddrUtxoKey.written, nothing]
  · obtain ⟨key, keyed, done⟩ := bind_ok_iff.mp ok
    cases done
    refine ⟨rfl, rfl, ?_, fun _ => ⟨key, keyed⟩⟩
    intro other
    cases key with
    | none =>
      split
      · next same =>
        rw [AddrUtxoKey.written_of_ne (by rw [same, keyed]; rintro ⟨⟩)]
        rfl
      · rfl
    | some key =>
      have place := addrUtxoKey_outPoint keyed
      rw [elim_some]
      by_cases same : other = key
      · subst same
        rw [lookup_change, if_pos place, AddrUtxoKey.written_of_keyed (place ▸ keyed)]
      · rw [lookup_change_ne _ same]
        split
        · next atOutPoint =>
          rw [AddrUtxoKey.written_of_ne, getD_none]
          rw [atOutPoint, keyed]
          rintro ⟨⟩
          exact same rfl
        · rfl

private theorem writeUtxos_ok {entries : List (Sigma fun _ => UtxoWrap)} (distinct : entries.NodupKeys)
    (ok : entries.foldlM (fun st entry => st.writeUtxo entry.1 entry.2) st = .ok after) :
    after = { st with utxos := after.utxos, addrUtxos := after.addrUtxos } ∧
      after.utxos =
        entries.foldl (fun utxos entry => change UtxoWrap.written entry.1 entry.2 utxos) st.utxos ∧
      (∀ key, after.addrUtxos.lookup key =
        ((entries.dlookup key.outPoint).bind key.written).getD (st.addrUtxos.lookup key)) ∧
      ∀ entry ∈ entries, entry.2.isModified = true → ∃ key, addrUtxoKey entry.1 entry.2.script = .ok key := by
  induction entries generalizing st with
  | nil =>
    cases ok
    exact ⟨rfl, rfl, fun _ => rfl, by simp⟩
  | cons entry rest next =>
    obtain ⟨outPoint, utxoWrap⟩ := entry
    obtain ⟨fresh, distinct⟩ := nodupKeys_cons.mp distinct
    rw [foldlM_cons, bind_ok_iff] at ok
    obtain ⟨between, first, ok⟩ := ok
    obtain ⟨frame, utxos, addrUtxos, listable⟩ := writeUtxo_ok first
    obtain ⟨laterFrame, laterUtxos, laterAddrUtxos, laterListable⟩ := next distinct ok
    refine ⟨?_, ?_, ?_, ?_⟩
    · rw [laterFrame, frame]
    · rw [laterUtxos, utxos, foldl_cons]
    · intro key
      rw [laterAddrUtxos, addrUtxos]
      by_cases same : key.outPoint = outPoint
      · rw [same, dlookup_eq_none.mpr fresh, dlookup_cons_eq, if_pos rfl]
        rfl
      · rw [dlookup_cons_ne _ _ same, if_neg same]
    · rintro entry (_ | ⟨_, later⟩)
      · exact listable
      · exact laterListable entry later

variable {u : UtxoSet}

theorem writeUtxoSetToDB_ok (ok : st.writeUtxoSetToDB u = .ok after) : Written u st after := by
  obtain ⟨frame, utxos, addrUtxos, listable⟩ := writeUtxos_ok u.utxoMap.nodupKeys ok
  exact ⟨frame, utxos, addrUtxos, all_iff.mpr listable⟩

theorem exists_written (listable : Listable u.utxoMap) (st : ChainState) :
    ∃ after, st.writeUtxoSetToDB u = .ok after := by
  have step : ∀ entry ∈ u.utxoMap.entries, ∀ before : ChainState, True →
      ∃ after, before.writeUtxo entry.1 entry.2 = .ok after ∧ True := by
    intro entry member before _
    unfold writeUtxo
    split
    · exact ⟨_, rfl, trivial⟩
    · next modified =>
      obtain ⟨key, keyed⟩ := all_iff.mp listable entry member (by simpa using modified)
      rw [keyed]
      exact ⟨_, rfl, trivial⟩
  obtain ⟨after, ok, -⟩ := exists_foldlM u.utxoMap.entries step trivial
  exact ⟨after, ok⟩

structure Listed (st : ChainState) : Prop where
  listed : st.utxos.All fun outPoint entry =>
    ∃ key, addrUtxoKey outPoint entry.script = .ok key ∧ ∀ listed ∈ key, st.addrUtxos.lookup listed = some entry
  only : st.addrUtxos.All fun key entry =>
    st.utxos.lookup key.outPoint = some entry ∧ addrUtxoKey key.outPoint entry.script = .ok (some key)

/-- What is written over an output of the database keeps its script. -/
def ScriptsKept (db : UtxoDB) (utxoMap : UtxoMap) : Prop :=
  utxoMap.All fun outPoint utxoWrap => ∀ entry ∈ db.lookup outPoint, utxoWrap.script = entry.script

theorem Listed.lookup_some {left right : ChainState} (leftListed : Listed left) (rightListed : Listed right)
    (same : ∀ outPoint, left.utxos.lookup outPoint = right.utxos.lookup outPoint) {key : AddrUtxoKey}
    {entry : UtxoEntry} (found : left.addrUtxos.lookup key = some entry) :
    right.addrUtxos.lookup key = some entry := by
  obtain ⟨stored, keyed⟩ := leftListed.only key entry found
  obtain ⟨listed, keyed', present⟩ := rightListed.listed key.outPoint entry (same key.outPoint ▸ stored)
  rw [keyed] at keyed'
  cases keyed'
  exact present key rfl

theorem Listed.lookup_eq {left right : ChainState} (leftListed : Listed left) (rightListed : Listed right)
    (same : ∀ outPoint, left.utxos.lookup outPoint = right.utxos.lookup outPoint) (key : AddrUtxoKey) :
    left.addrUtxos.lookup key = right.addrUtxos.lookup key := by
  apply ext
  intro entry
  exact ⟨leftListed.lookup_some rightListed same, rightListed.lookup_some leftListed fun o => (same o).symm⟩

theorem Written.lookup (written : Written u st after) (outPoint : OutPoint) :
    after.utxos.lookup outPoint = ((u.findUtxo outPoint).bind UtxoWrap.written).getD (st.utxos.lookup outPoint) := by
  rw [written.utxos, UtxoSet.writeUtxos, lookup_patch]
  rfl

theorem Written.listed (written : Written u st after) (listed : Listed st)
    (kept : ScriptsKept st.utxos u.utxoMap) : Listed after := by
  have utxos := written.lookup
  have untouched : ∀ key, (u.findUtxo key.outPoint).bind UtxoWrap.written = none →
      after.addrUtxos.lookup key = st.addrUtxos.lookup key := by
    intro key nothing
    have same : (u.findUtxo key.outPoint).bind key.written = none := by
      rw [bind_eq_none_iff] at nothing ⊢
      intro utxoWrap found
      rw [AddrUtxoKey.written, nothing utxoWrap found, ite_self]
    rw [written.addrUtxos, same, getD_none]
  constructor
  · intro outPoint entry present
    rw [utxos] at present
    cases changed : (u.findUtxo outPoint).bind UtxoWrap.written with
    | none =>
      rw [changed, getD_none] at present
      obtain ⟨key, keyed, stored⟩ := listed.listed outPoint entry present
      refine ⟨key, keyed, ?_⟩
      rintro key rfl
      rw [untouched key (addrUtxoKey_outPoint keyed ▸ changed)]
      exact stored key rfl
    | some value =>
      rw [changed, getD_some] at present
      subst present
      obtain ⟨utxoWrap, found, value⟩ := bind_eq_some_iff.mp changed
      obtain ⟨modified, script⟩ := written_some value
      obtain ⟨key, keyed⟩ := written.listable outPoint utxoWrap found modified
      refine ⟨key, script ▸ keyed, ?_⟩
      rintro key rfl
      have place := addrUtxoKey_outPoint keyed
      rw [written.addrUtxos, place, found, bind_some, AddrUtxoKey.written_of_keyed (place ▸ keyed), value, getD_some]
  · intro key entry present
    rw [written.addrUtxos] at present
    cases changed : (u.findUtxo key.outPoint).bind key.written with
    | some value =>
      rw [changed, getD_some] at present
      subst present
      obtain ⟨utxoWrap, found, value⟩ := bind_eq_some_iff.mp changed
      unfold AddrUtxoKey.written at value
      split at value
      · next keyed =>
        rw [utxos, found, bind_some, value, getD_some, ← (written_some value).2]
        exact ⟨rfl, toOption_eq_some_iff.mp keyed⟩
      · cases value
    | none =>
      rw [changed, getD_none] at present
      obtain ⟨stored, keyed⟩ := listed.only key entry present
      refine ⟨?_, keyed⟩
      have nothing : (u.findUtxo key.outPoint).bind UtxoWrap.written = none := by
        rw [bind_eq_none_iff] at changed ⊢
        intro utxoWrap found
        have result := changed utxoWrap found
        rwa [AddrUtxoKey.written_of_keyed (kept _ _ found entry stored ▸ keyed)] at result
      rw [utxos, nothing, getD_none, stored]

end ChainState
end Boxd
