import Boxd.Proofs.EvmRuns

/-! The two loops of a commit. Each round settles one address, and the tables of the database
only grow. -/

namespace Boxd.WorldState
open Lib List AList Function Option

variable {addr : AddressHash} {db grown : Database} {obj : StateObject} {content : Content}

section Growth

variable (env : Env)

theorem Database.update_tries (db : Database) (trie : Content) (key value : Bytes) :
    db.tries ⊆ (db.update trie key value).2.2.tries := by
  unfold Database.update
  split
  · exact subset_cons_self _ _
  · split
    · exact .refl _
    · exact subset_cons_self _ _

theorem StateObject.flushEntry_tries (obj : StateObject) (db : Database) (key value : HashType) :
    db.tries ⊆ (obj.flushEntry env db key value).2.tries := by
  unfold StateObject.flushEntry
  dsimp only
  split
  · exact .refl _
  · exact db.update_tries _ _ _

theorem StateObject.flushEntries_tries (entries : List (Sigma fun _ => HashType)) (obj : StateObject)
    (db : Database) :
    db.tries ⊆ (entries.foldl (fun (obj, db) entry => obj.flushEntry env db entry.1 entry.2) (obj, db)).2.tries := by
  induction entries generalizing obj db with
  | nil => exact .refl _
  | cons entry rest next => exact Subset.trans (obj.flushEntry_tries env db entry.1 entry.2) (next _ _)

theorem StateObject.updateTrie_tries (obj : StateObject) (db : Database) :
    db.tries ⊆ (obj.updateTrie env db).2.tries := by
  exact StateObject.flushEntries_tries env _ _ db

theorem StateObject.updateRoot_tries (obj : StateObject) (db : Database) :
    db.tries ⊆ (obj.updateRoot env db).2.tries := obj.updateTrie_tries env db

namespace StateDB

theorem updateStateObject_tries (s : StateDB) (obj : StateObject) :
    s.db.tries ⊆ (s.updateStateObject env obj).2.db.tries := by
  unfold updateStateObject
  split
  · exact .refl _
  · exact s.db.update_tries _ _ _

theorem deleteStateObject_tries (s : StateDB) (obj : StateObject) : s.db.tries ⊆ (s.deleteStateObject obj).db.tries := by
  exact s.db.update_tries s.trie obj.address.bytes []

variable (del : Bool)

theorem settleObject_tries (s : StateDB) (obj : StateObject) :
    s.db.tries ⊆ (s.settleObject env del obj).2.db.tries := by
  unfold settleObject
  split
  · exact s.deleteStateObject_tries obj
  · intro content member
    exact updateStateObject_tries env _ _ (obj.updateRoot_tries env s.db member)

theorem finaliseObject_db {s : StateDB} (live : s.stateObjects.lookup addr = some obj) :
    (s.finaliseObject env del addr).2.db = (s.settleObject env del obj).2.db := by
  rw [finaliseObject, live]
  dsimp only
  rcases s.settleObject env del obj with ⟨_ | _, t⟩ <;> rfl

theorem finaliseObject_tries (s : StateDB) (addr : AddressHash) :
    s.db.tries ⊆ (s.finaliseObject env del addr).2.db.tries := by
  cases live : s.stateObjects.lookup addr with
  | none =>
    rw [finaliseObject, live]
    exact .refl _
  | some obj =>
    rw [finaliseObject_db env del live]
    exact s.settleObject_tries env del obj

theorem putCode_tries (s : StateDB) (obj : StateObject) : (s.putCode obj).2.db.tries = s.db.tries := by
  unfold putCode
  split
  · rfl
  · split <;> rfl

theorem syncObject_tries (s : StateDB) (obj : StateObject) (isDirty : Bool) :
    s.db.tries ⊆ (s.syncObject env del obj isDirty).2.db.tries := by
  unfold syncObject
  split
  · exact s.deleteStateObject_tries obj
  · split
    · dsimp only
      have stored := (s.putCode obj).1.updateTrie_tries env (s.putCode obj).2.db
      rw [putCode_tries] at stored
      split
      · exact stored
      · intro content member
        exact updateStateObject_tries env _ _ (stored member)
    · exact .refl _

theorem commitObject_db {s : StateDB} (live : s.stateObjects.lookup addr = some obj) :
    (s.commitObject env del addr).2.db = (s.syncObject env del obj (s.stateObjectsDirty.lookup addr).isSome).2.db := by
  rw [commitObject, live]
  dsimp only
  rcases s.syncObject env del obj (s.stateObjectsDirty.lookup addr).isSome with ⟨_ | _, t⟩ <;> rfl

theorem commitObject_tries (s : StateDB) (addr : AddressHash) :
    s.db.tries ⊆ (s.commitObject env del addr).2.db.tries := by
  cases live : s.stateObjects.lookup addr with
  | none =>
    rw [commitObject, live]
    exact .refl _
  | some obj =>
    rw [commitObject_db env del live]
    exact s.syncObject_tries env del obj _

theorem forEach_tries {round : StateDB → AddressHash → Outcome CommitError Unit × StateDB}
    (grows : ∀ s addr, s.db.tries ⊆ (round s addr).2.db.tries) (addrs : List AddressHash) (s : StateDB) :
    s.db.tries ⊆ (forEach round addrs s).2.db.tries := by
  induction addrs generalizing s with
  | nil => exact .refl _
  | cons addr rest next =>
    have first := grows s addr
    rw [forEach]
    split
    · next fault t ended =>
      rw [ended] at first
      exact first
    · next t ended =>
      rw [ended] at first
      exact Subset.trans first (next t)

end StateDB

end Growth

/-- What a database has of an address: its live object, whether it is to be committed, and the
account in the trie. -/
structure Cell where
  object : Option StateObject
  dirty : Bool
  stored : Option Account

namespace StateDB

variable {env : Env} {codes : Set Bytes} {del : Bool} {s t : StateDB} {before after : Cell}

def cell (env : Env) (s : StateDB) (addr : AddressHash) : Cell where
  object := s.stateObjects.lookup addr
  dirty := (s.stateObjectsDirty.lookup addr).isSome
  stored := accountAt env s.trie addr

def Rooted (s : StateDB) : Prop := s.trie = emptyTrie ∨ s.trie ∈ s.db.tries

theorem cell_setStateObject {other : AddressHash} (apart : other ≠ addr) (s : StateDB) (same : obj.address = addr) :
    (s.setStateObject obj).cell env other = s.cell env other := by
  unfold cell setStateObject
  rw [same, lookup_insert_ne apart]

/-- One address is written, all others stay as they are. -/
structure Round (env : Env) (codes : Set Bytes) (addr : AddressHash) (s t : StateDB) : Prop where
  cells : ∀ other, other ≠ addr → t.cell env other = s.cell env other
  extends_ : s.db.Extends t.db
  consistent : s.db.Consistent env codes → t.db.Consistent env codes
  rooted : s.Rooted → t.Rooted
  utxoTrie : t.utxoTrie = s.utxoTrie

theorem Round.refl (addr : AddressHash) (s : StateDB) : Round env codes addr s s :=
  ⟨fun _ _ => rfl, .refl s.db, id, id, rfl⟩

theorem Round.trans {u : StateDB} (first : Round env codes addr s t)
    (second : Round env codes addr t u) : Round env codes addr s u where
  cells other apart := (second.cells other apart).trans (first.cells other apart)
  extends_ := first.extends_.trans second.extends_
  consistent := second.consistent ∘ first.consistent
  rooted := second.rooted ∘ first.rooted
  utxoTrie := second.utxoTrie.trans first.utxoTrie

theorem Round.of_tries (cells : ∀ other, other ≠ addr → t.cell env other = s.cell env other)
    (added : List Content) (db : t.db = { s.db with tries := added ++ s.db.tries })
    (trie : t.trie = s.trie ∨ t.trie ∈ added) (utxoTrie : t.utxoTrie = s.utxoTrie) : Round env codes addr s t where
  cells := cells
  extends_ := by
    rw [db]
    exact ⟨fun _ member => mem_append_right added member, fun _ _ found => found⟩
  consistent := by
    rw [db]
    exact id
  rooted := by
    intro rooted
    unfold Rooted
    rw [db]
    rcases trie with same | new
    · rw [same]
      exact rooted.imp_right (mem_append_right added)
    · exact .inr (mem_append_left _ new)
  utxoTrie := utxoTrie

theorem accountAt_update_ne {other : AddressHash} (apart : other ≠ addr) (trie : Content) (value : Option Bytes) :
    accountAt env (update trie addr.bytes value) other = accountAt env trie other := by
  have bytes : other.bytes ≠ addr.bytes := fun same => apart (FixedBytes.ext same)
  unfold accountAt
  rw [update_of_ne bytes]

theorem updateStateObject_spec (codes : Set Bytes) (lawful : env.Lawful) (s : StateDB) (obj : StateObject)
    (covered : 0 ≤ obj.data.balance) :
    ∃ t, s.updateStateObject env obj = (.ok (), t) ∧ Round env codes obj.address s t ∧
      t.stateObjects = s.stateObjects ∧ t.stateObjectsDirty = s.stateObjectsDirty ∧
      accountAt env t.trie obj.address = some obj.data := by
  obtain ⟨enc, encoded, nonempty, back⟩ := lawful.account obj.data covered
  have written : s.db.update s.trie obj.address.bytes enc =
      (false, update s.trie obj.address.bytes (some enc),
        { s.db with tries := update s.trie obj.address.bytes (some enc) :: s.db.tries }) := by
    simp [Database.update, nonempty]
  unfold updateStateObject
  rw [encoded]
  dsimp only
  rw [written]
  refine ⟨_, rfl, .of_tries (fun other apart => ?_) [_] rfl (.inr (mem_singleton_self _)) rfl, rfl, rfl, ?_⟩
  · unfold cell
    rw [accountAt_update_ne apart]
  · simp [accountAt, nonempty, back]

theorem deleteStateObject_spec (s : StateDB) (obj : StateObject) :
    Round env codes obj.address s (s.deleteStateObject obj) ∧
      (s.deleteStateObject obj).stateObjectsDirty = s.stateObjectsDirty ∧
      (s.deleteStateObject obj).stateObjects.lookup obj.address = some { obj with deleted := true } ∧
      accountAt env (s.deleteStateObject obj).trie obj.address = none := by
  unfold deleteStateObject Database.update
  simp only [length_nil, ne_eq, not_true_eq_false, if_false]
  by_cases absent : s.trie obj.address.bytes = none
  · rw [if_pos absent]
    refine ⟨.of_tries (fun other apart => cell_setStateObject apart _ rfl) [] rfl (.inl rfl) rfl, rfl, lookup_insert _, ?_⟩
    simp [accountAt, setStateObject, absent]
  · rw [if_neg absent]
    refine ⟨.of_tries (fun other apart => ?_) [_] rfl (.inr (mem_singleton_self _)) rfl, rfl, lookup_insert _, ?_⟩
    · unfold cell setStateObject
      rw [accountAt_update_ne apart, lookup_insert_ne apart]
    · simp [accountAt, setStateObject]

/-- A loop whose rounds each settle one address. What a round leaves at its address stays true
when the database grows. -/
theorem forEach_spec {limit : Database} {round : StateDB → AddressHash → Outcome CommitError Unit × StateDB}
    (ready : Database → AddressHash → Cell → Prop) (settled : Database → Cell → Cell → Prop)
    (grows : ∀ s addr, s.db.tries ⊆ (round s addr).2.db.tries)
    (step : ∀ s addr, s.db.Consistent env codes → ready s.db addr (s.cell env addr) →
      (round s addr).2.db.tries ⊆ limit.tries →
        ∃ t, round s addr = (.ok (), t) ∧ Round env codes addr s t ∧ settled t.db (s.cell env addr) (t.cell env addr))
    (readyMono : ∀ {db grown : Database} {addr cell}, db.Extends grown → grown.tries ⊆ limit.tries →
      ready db addr cell → ready grown addr cell)
    (settledMono : ∀ {db grown : Database} {before after}, db.Extends grown → grown.tries ⊆ limit.tries →
      settled db before after → settled grown before after)
    {addrs : List AddressHash} (distinctAddrs : addrs.Nodup) {s : StateDB} (consistent : s.db.Consistent env codes)
    (allReady : ∀ addr ∈ addrs, ready s.db addr (s.cell env addr))
    (within : (forEach round addrs s).2.db.tries ⊆ limit.tries) :
    ∃ t, forEach round addrs s = (.ok (), t) ∧ s.db.Extends t.db ∧ t.db.Consistent env codes ∧
      (s.Rooted → t.Rooted) ∧ t.utxoTrie = s.utxoTrie ∧
      (∀ addr, addr ∉ addrs → t.cell env addr = s.cell env addr) ∧
      ∀ addr ∈ addrs, settled t.db (s.cell env addr) (t.cell env addr) := by
  induction addrs generalizing s with
  | nil => exact ⟨s, rfl, .refl s.db, consistent, id, rfl, fun _ _ => rfl, by simp⟩
  | cons addr rest next =>
    rw [forall_mem_cons] at allReady
    obtain ⟨fresh, distinctRest⟩ := nodup_cons.mp distinctAddrs
    rw [forEach] at within ⊢
    have inside : (round s addr).2.db.tries ⊆ limit.tries := by
      revert within
      split
      · next ended => exact ended ▸ id
      · next t ended =>
        rw [ended]
        exact Subset.trans (forEach_tries grows rest t)
    obtain ⟨t, ended, first, final⟩ := step s addr consistent allReady.1 inside
    rw [ended] at within inside ⊢
    have stillReady : ∀ other ∈ rest, ready t.db other (t.cell env other) := by
      intro other member
      rw [first.cells other fun same => fresh (same ▸ member)]
      exact readyMono first.extends_ inside (allReady.2 other member)
    obtain ⟨u, done, grown, consistent, rooted, utxoTrie, others, finals⟩ :=
      next distinctRest (first.consistent consistent) stillReady within
    dsimp only at within ⊢
    rw [done] at within ⊢
    refine ⟨u, rfl, first.extends_.trans grown, consistent, rooted ∘ first.rooted, utxoTrie.trans first.utxoTrie, ?_, ?_⟩
    · intro other absent
      obtain ⟨apart, elsewhere⟩ := not_or.mp (mt mem_cons.mpr absent)
      rw [others other elsewhere, first.cells other apart]
    · intro other member
      by_cases same : other = addr
      · subst same
        rw [others other fresh]
        exact settledMono grown within final
      · rw [← first.cells other same]
        exact finals other ((mem_cons.mp member).resolve_left same)

def Doomed (env : Env) (del : Bool) (obj : StateObject) : Prop := (obj.suicided || (del && obj.empty env)) = true

inductive Finalised (env : Env) (codes : Set Bytes) (del : Bool) (db : Database) : Cell → Cell → Prop
  | absent {dirty : Bool} {stored : Option Account} : Finalised env codes del db ⟨none, dirty, stored⟩ ⟨none, dirty, stored⟩
  | deleted {obj : StateObject} {dirty : Bool} {stored : Option Account} (doomed : Doomed env del obj) :
    Finalised env codes del db ⟨some obj, dirty, stored⟩ ⟨some { obj with deleted := true }, true, none⟩
  | written {obj done : StateObject} {dirty : Bool} {stored : Option Account} {content : Content}
    (spared : ¬Doomed env del obj) (before : Backed env db codes content obj)
    (settles : Settles obj done (trieHash env (flushed env content obj.dirtyStorage.entries)))
    (backed : Backed env db codes (flushed env content obj.dirtyStorage.entries) done) :
    Finalised env codes del db ⟨some obj, dirty, stored⟩ ⟨some done, true, some done.data⟩

/-- The object of a cell, if there is one, can be written. -/
def Writable (env : Env) (codes : Set Bytes) (db : Database) (addr : AddressHash) (cell : Cell) : Prop :=
  ∀ obj, cell.object = some obj →
    obj.address = addr ∧ 0 ≤ obj.data.balance ∧ ∃ content, Backed env db codes content obj

section Finalise

variable (lawful : env.Lawful) {limit : Database} (distinct : limit.Distinct env)
include lawful distinct

theorem Writable.mono {cell : Cell} (extends_ : db.Extends grown)
    (within : grown.tries ⊆ limit.tries) (writable : Writable env codes db addr cell) :
    Writable env codes grown addr cell := by
  intro obj live
  obtain ⟨address, covered, content, backed⟩ := writable obj live
  exact ⟨address, covered, content, backed.mono lawful (distinct.mono within) extends_⟩

theorem Finalised.mono (extends_ : db.Extends grown)
    (within : grown.tries ⊆ limit.tries) (final : Finalised env codes del db before after) :
    Finalised env codes del grown before after := by
  cases final with
  | absent => exact .absent
  | deleted doomed => exact .deleted doomed
  | written spared before settles backed =>
    have later := distinct.mono within
    exact .written spared (before.mono lawful later extends_) settles (backed.mono lawful later extends_)

theorem settleObject_spec (live : s.stateObjects.lookup obj.address = some obj)
    (covered : 0 ≤ obj.data.balance) (backed : Backed env s.db codes content obj)
    (within : (s.settleObject env del obj).2.db.tries ⊆ limit.tries) :
    ∃ t, s.settleObject env del obj = (.ok (), t) ∧ Round env codes obj.address s t ∧
      Finalised env codes del t.db (s.cell env obj.address) { t.cell env obj.address with dirty := true } := by
  unfold settleObject at within ⊢
  have before : s.cell env obj.address = ⟨some obj, (s.stateObjectsDirty.lookup obj.address).isSome,
      accountAt env s.trie obj.address⟩ := by rw [cell, live]
  rw [before]
  by_cases doomed : Doomed env del obj
  · obtain ⟨round, -, object, stored⟩ := s.deleteStateObject_spec obj
    refine ⟨_, if_pos doomed, round, ?_⟩
    unfold cell
    rw [object, stored]
    exact .deleted doomed
  · obtain ⟨added, done, updated, settles, later⟩ := backed.updateRoot lawful
    have spared : ¬(obj.suicided || (del && obj.empty env)) = true := doomed
    rw [if_neg spared] at within ⊢
    rw [updated] at within ⊢
    dsimp only at within ⊢
    have address := settles.address
    have balance : done.data.balance = obj.data.balance := by rw [settles.data]
    have placed : Round env codes obj.address s ({ s with db.tries := added ++ s.db.tries }.setStateObject done) := by
      exact .of_tries (fun other apart => cell_setStateObject apart _ address) added rfl (.inl rfl) rfl
    obtain ⟨t, ended, round, objects, -, stored⟩ := updateStateObject_spec codes lawful
      ({ s with db.tries := added ++ s.db.tries }.setStateObject done) done (balance ▸ covered)
    rw [ended] at within ⊢
    rw [address] at round stored
    have apart := distinct.mono within
    refine ⟨t, rfl, placed.trans round, ?_⟩
    unfold cell
    rw [objects, stored]
    simp only [setStateObject, address, lookup_insert]
    exact .written doomed (backed.mono lawful apart (placed.extends_.trans round.extends_)) settles
      ((later (apart.mono round.extends_.tries)).mono lawful apart round.extends_)

theorem finaliseObject_spec (writable : Writable env codes s.db addr (s.cell env addr))
    (within : (s.finaliseObject env del addr).2.db.tries ⊆ limit.tries) :
    ∃ t, s.finaliseObject env del addr = (.ok (), t) ∧ Round env codes addr s t ∧
      Finalised env codes del t.db (s.cell env addr) (t.cell env addr) := by
  unfold finaliseObject
  cases live : s.stateObjects.lookup addr with
  | none =>
    refine ⟨s, rfl, .refl addr s, ?_⟩
    unfold cell
    rw [live]
    exact .absent
  | some obj =>
    obtain ⟨address, covered, content, backed⟩ := writable obj live
    subst address
    rw [finaliseObject_db env del live] at within
    obtain ⟨t, ended, round, final⟩ := settleObject_spec lawful distinct live covered backed within
    dsimp only
    rw [ended]
    refine ⟨_, rfl, round.trans (.of_tries (fun other apart => ?_) [] rfl (.inl rfl) rfl), ?_⟩
    · unfold cell
      rw [lookup_insert_ne apart]
    · have marked : cell env { t with stateObjectsDirty := t.stateObjectsDirty.insert obj.address () } obj.address =
          { t.cell env obj.address with dirty := true } := by simp [cell]
      rw [marked]
      exact final

end Finalise

/-- What `Commit` finds of an address after `finalise`. -/
inductive Syncable (env : Env) (codes : Set Bytes) (del : Bool) (db : Database) (addr : AddressHash) : Cell → Prop
  | clean {object : Option StateObject} {stored : Option Account}
    (alive : ∀ obj, object = some obj → obj.suicided = false) : Syncable env codes del db addr ⟨object, false, stored⟩
  | deleted {obj : StateObject} (address : obj.address = addr) (marked : obj.deleted = true) (doomed : Doomed env del obj) :
    Syncable env codes del db addr ⟨some obj, true, none⟩
  | written {obj : StateObject} {content : Content} (address : obj.address = addr) (spared : ¬Doomed env del obj)
    (covered : 0 ≤ obj.data.balance) (backed : Backed env db codes content obj)
    (clean : ∀ key, obj.dirtyStorage.lookup key = none) : Syncable env codes del db addr ⟨some obj, true, some obj.data⟩

/-- An address after its round of `Commit`. -/
inductive Synced (env : Env) (codes : Set Bytes) (db : Database) : Cell → Cell → Prop
  | clean {object : Option StateObject} {stored : Option Account} :
    Synced env codes db ⟨object, false, stored⟩ ⟨object, false, stored⟩
  | deleted {obj : StateObject} (marked : obj.deleted = true) :
    Synced env codes db ⟨some obj, true, none⟩ ⟨some obj, false, none⟩
  | written {obj done : StateObject} {content : Content}
    (same : done = { obj with trie := some content, dirtyCode := done.dirtyCode })
    (backed : Backed env db codes content done) (stored : done.dirtyCode = false ∨ done.code = none) :
    Synced env codes db ⟨some obj, true, some obj.data⟩ ⟨some done, false, some obj.data⟩

theorem updateTrie_clean (backed : Backed env db codes content obj)
    (clean : ∀ key, obj.dirtyStorage.lookup key = none) :
    obj.updateTrie env db = ({ obj with trie := some content }, db) := by
  have none : obj.dirtyStorage.entries = [] := by
    rw [eq_nil_iff_forall_not_mem]
    intro entry member
    have found := mem_lookup_iff.mpr member
    rw [clean] at found
    cases found
  unfold StateObject.updateTrie
  rw [backed.getTrie_eq]
  simp only [none, foldl_nil]

section Commit

variable (lawful : env.Lawful) {limit : Database} (distinct : limit.Distinct env) (hashes : Set.InjOn env.keccak256 codes)

include hashes in
theorem putCode_spec (consistent : s.db.Consistent env codes) (backed : Backed env s.db codes content obj) :
    ∃ db dirtyCode, s.putCode obj = ({ obj with dirtyCode }, { s with db }) ∧ db.tries = s.db.tries ∧
      s.db.Extends db ∧ db.Consistent env codes ∧ Backed env db codes content { obj with dirtyCode } ∧
      (dirtyCode = false ∨ obj.code = none) := by
  by_cases stored : obj.dirtyCode = false ∨ obj.code = none
  · -- Nothing is stored where the code is not new.
    refine ⟨s.db, obj.dirtyCode, ?_, rfl, .refl s.db, consistent, backed, stored⟩
    unfold putCode
    split
    · rfl
    · next code cached => exact if_neg (by simpa [cached] using stored)
  · obtain ⟨dirty, held⟩ := not_or.mp stored
    obtain ⟨code, cached⟩ := ne_none_iff_exists'.mp held
    obtain ⟨named, listed⟩ := backed.code code cached
    have grown : s.db.Extends { s.db with codes := s.db.codes.insert obj.data.codeHash code } := by
      refine ⟨fun _ member => member, fun hash other found => ?_⟩
      by_cases same : hash = obj.data.codeHash
      · obtain ⟨otherNamed, otherListed⟩ := consistent hash other found
        have one : other = code := hashes otherListed listed (by rw [otherNamed, named, same])
        rw [same, one]
        exact lookup_insert _
      · rw [lookup_insert_ne same]
        exact found
    refine ⟨{ s.db with codes := s.db.codes.insert obj.data.codeHash code }, false, ?_, rfl, grown,
      Table.All.insert consistent ⟨named, listed⟩, { backed with kept := ?_, missing := ?_ }, .inl rfl⟩
    · simp [putCode, cached, dirty]
    · rintro - other found
      obtain rfl := some.inj (cached.symm.trans found)
      exact lookup_insert _
    · intro missing
      cases cached.symm.trans missing

include lawful distinct

theorem Syncable.mono {cell : Cell} (extends_ : db.Extends grown)
    (within : grown.tries ⊆ limit.tries) (syncable : Syncable env codes del db addr cell) :
    Syncable env codes del grown addr cell := by
  cases syncable with
  | clean alive => exact .clean alive
  | deleted address marked doomed => exact .deleted address marked doomed
  | written address spared covered backed clean =>
    exact .written address spared covered (backed.mono lawful (distinct.mono within) extends_) clean

theorem Synced.mono (extends_ : db.Extends grown)
    (within : grown.tries ⊆ limit.tries) (synced : Synced env codes db before after) :
    Synced env codes grown before after := by
  cases synced with
  | clean => exact .clean
  | deleted marked => exact .deleted marked
  | written same backed stored => exact .written same (backed.mono lawful (distinct.mono within) extends_) stored

include hashes

/-- The object of an address that was written is stored once more, with its code. -/
theorem syncObject_written (consistent : s.db.Consistent env codes)
    (spared : ¬Doomed env del obj) (covered : 0 ≤ obj.data.balance) (backed : Backed env s.db codes content obj)
    (clean : ∀ key, obj.dirtyStorage.lookup key = none)
    (within : (s.syncObject env del obj true).2.db.tries ⊆ limit.tries) :
    ∃ t done, s.syncObject env del obj true = (.ok (), t) ∧ Round env codes obj.address s t ∧
      t.stateObjectsDirty = s.stateObjectsDirty ∧ t.stateObjects.lookup obj.address = some done ∧
      accountAt env t.trie obj.address = some obj.data ∧ Backed env t.db codes content done ∧
      done = { obj with trie := some content, dirtyCode := done.dirtyCode } ∧ (done.dirtyCode = false ∨ done.code = none) := by
  have keeps : ¬(obj.suicided || (true && del && obj.empty env)) = true := by simpa [Doomed] using spared
  obtain ⟨db, dirtyCode, put, tries, grown, consistent', backed', stored⟩ := putCode_spec hashes consistent backed
  unfold syncObject at within ⊢
  rw [if_neg keeps, if_pos rfl, put] at within ⊢
  dsimp only at within ⊢
  rw [updateTrie_clean backed' clean] at within ⊢
  have noErr : ¬obj.dbErr = true := by simp [backed.noErr]
  rw [if_neg noErr] at within ⊢
  have placed : Round env codes obj.address s
      ({ s with db }.setStateObject { obj with trie := some content, dirtyCode }) :=
    ⟨fun other apart => cell_setStateObject apart _ rfl, grown, fun _ => consistent', .imp_right (grown.tries _), rfl⟩
  obtain ⟨t, ended, round, objects, dirty, account⟩ := updateStateObject_spec codes lawful
    ({ s with db }.setStateObject { obj with trie := some content, dirtyCode }) { obj with trie := some content, dirtyCode }
    covered
  rw [ended] at within ⊢
  refine ⟨t, { obj with trie := some content, dirtyCode }, rfl, placed.trans round, dirty, ?_, account, ?_, rfl, stored⟩
  · rw [objects]
    exact lookup_insert _
  · exact backed'.withTrie.mono lawful (distinct.mono within) round.extends_

theorem commitObject_spec (consistent : s.db.Consistent env codes)
    (syncable : Syncable env codes del s.db addr (s.cell env addr))
    (within : (s.commitObject env del addr).2.db.tries ⊆ limit.tries) :
    ∃ t, s.commitObject env del addr = (.ok (), t) ∧ Round env codes addr s t ∧
      Synced env codes t.db (s.cell env addr) (t.cell env addr) := by
  have dirtyAt : (s.stateObjectsDirty.lookup addr).isSome = (s.cell env addr).dirty := rfl
  have liveAt : s.stateObjects.lookup addr = (s.cell env addr).object := rfl
  -- After its round the address is not marked any more.
  have unmark {t : StateDB} (round : Round env codes addr s t) :
      Round env codes addr s { t with stateObjectsDirty := t.stateObjectsDirty.erase addr } := by
    refine round.trans (.of_tries (fun other apart => ?_) [] rfl (.inl rfl) rfl)
    unfold cell
    rw [lookup_erase_ne apart]
  have unmarked (t : StateDB) : cell env { t with stateObjectsDirty := t.stateObjectsDirty.erase addr } addr =
      ⟨t.stateObjects.lookup addr, false, accountAt env t.trie addr⟩ := by simp [cell]
  unfold commitObject
  generalize at_ : s.cell env addr = before at syncable dirtyAt liveAt
  cases syncable with
  | @clean object _ alive =>
    rw [liveAt, dirtyAt]
    cases object with
    | none =>
      refine ⟨s, rfl, .refl addr s, ?_⟩
      rw [at_]
      exact .clean
    | some obj =>
      have skipped : s.syncObject env del obj false = (.ok (), s) := by simp [syncObject, alive obj rfl]
      dsimp only
      rw [skipped]
      refine ⟨_, rfl, unmark (.refl addr s), ?_⟩
      have account : accountAt env s.trie addr = _ := congrArg Cell.stored at_
      rw [unmarked, liveAt, account]
      exact .clean
  | @deleted obj address marked doomed =>
    subst address
    rw [liveAt, dirtyAt]
    have deletes : s.syncObject env del obj true = (.ok (), s.deleteStateObject obj) :=
      if_pos (by simpa [Doomed] using doomed)
    obtain ⟨round, -, object, account⟩ := s.deleteStateObject_spec obj
    dsimp only
    rw [deletes]
    refine ⟨_, rfl, unmark round, ?_⟩
    have same : { obj with deleted := true } = obj := by
      cases obj
      cases marked
      rfl
    rw [unmarked, object, account, same]
    exact .deleted marked
  | @written obj content address spared covered backed clean =>
    subst address
    rw [commitObject_db env del liveAt, dirtyAt] at within
    obtain ⟨t, done, ended, round, -, object, account, backed, same, stored⟩ :=
      syncObject_written lawful distinct hashes consistent spared covered backed clean within
    rw [liveAt, dirtyAt]
    dsimp only
    rw [ended]
    refine ⟨_, rfl, unmark round, ?_⟩
    rw [unmarked, object, account]
    exact .written same backed stored

end Commit

/-- An address after a commit. The flag says whether it was dirty. -/
inductive Closed (env : Env) (codes : Set Bytes) (del : Bool) (db : Database) (dirty : Bool) : Cell → Cell → Prop
  | absent {stored : Option Account} : Closed env codes del db dirty ⟨none, false, stored⟩ ⟨none, false, stored⟩
  | clean {obj : StateObject} {stored : Option Account} (unchanged : dirty = false) :
    Closed env codes del db dirty ⟨some obj, false, stored⟩ ⟨some obj, false, stored⟩
  | deleted {obj : StateObject} {stored : Option Account} (changed : dirty = true) (doomed : Doomed env del obj) :
    Closed env codes del db dirty ⟨some obj, false, stored⟩ ⟨some { obj with deleted := true }, false, none⟩
  | written {obj done : StateObject} {stored : Option Account} {content : Content} (changed : dirty = true)
    (spared : ¬Doomed env del obj) (before : Backed env db codes content obj)
    (settles : Settles { obj with dirtyCode := done.dirtyCode } done
      (trieHash env (flushed env content obj.dirtyStorage.entries)))
    (backed : Backed env db codes (flushed env content obj.dirtyStorage.entries) done)
    (kept : done.dirtyCode = false ∨ done.code = none) :
    Closed env codes del db dirty ⟨some obj, false, stored⟩ ⟨some done, false, some done.data⟩

section Loops

theorem commit_tries (env : Env) (del : Bool) (s : StateDB) :
    (forEach (finaliseObject env del) s.dirties.keys s).2.db.tries ⊆ (s.commit env del).2.db.tries ∧
      ∀ t, forEach (finaliseObject env del) s.dirties.keys s = (.ok (), t) →
        (forEach (commitObject env del) t.stateObjects.keys t.clearJournalAndRefund).2.db.tries ⊆
          (s.commit env del).2.db.tries := by
  unfold commit finalise
  rcases forEach (finaliseObject env del) s.dirties.keys s with ⟨_ | _, t⟩
  · exact ⟨.refl _, nofun⟩
  · have grows := forEach_tries (commitObject_tries env del) t.stateObjects.keys t.clearJournalAndRefund
    dsimp only
    have same : (t.clearJournalAndRefund).stateObjects = t.stateObjects := rfl
    rw [same]
    rcases ended : forEach (commitObject env del) t.stateObjects.keys t.clearJournalAndRefund with ⟨_ | _, u⟩
    all_goals
      rw [ended] at grows
      refine ⟨grows, ?_⟩
      rintro _ ⟨⟩
      rw [ended]
      exact .refl _

theorem Finalised.syncable (clean : before.dirty = false)
    (writable : Writable env codes db addr before) (final : Finalised env codes del db before after) :
    Syncable env codes del db addr after := by
  cases final with
  | absent =>
    obtain rfl : _ = false := clean
    exact .clean nofun
  | @deleted obj _ _ doomed =>
    obtain ⟨address, -, -⟩ := writable obj rfl
    exact .deleted address rfl doomed
  | @written obj done _ _ content spared _ settles backed =>
    obtain ⟨address, covered, -⟩ := writable obj rfl
    refine .written (settles.address.trans address) ?_ ?_ backed settles.clean
    · simpa [Doomed, StateObject.empty, settles.suicided, settles.data] using spared
    · rw [settles.data]
      exact covered

theorem Finalised.closed {dirty : Bool} {middle : Cell} (clean : before.dirty = false)
    (final : Finalised env codes del db before middle) (synced : Synced env codes db middle after)
    (changed : dirty = true) : Closed env codes del db dirty before after := by
  cases final with
  | absent =>
    obtain rfl : _ = false := clean
    cases synced
    exact .absent
  | deleted doomed =>
    obtain rfl : _ = false := clean
    cases synced
    exact .deleted changed doomed
  | @written obj done _ _ content spared backed settles settled =>
    obtain rfl : _ = false := clean
    cases synced with
    | @written _ last other same later kept =>
      have data : last.data = done.data := by rw [same]
      have contents : other = flushed env content obj.dirtyStorage.entries := by
        have opened := later.root
        rw [data, settled.root] at opened
        exact (some.inj opened).symm
      subst contents
      rw [← data]
      refine .written changed spared backed ⟨?_, ?_⟩ later kept
      · rw [same, settles.same]
      · intro key
        rw [same]
        exact settles.clean key

theorem Finalised.eq_of_absent (final : Finalised env codes del db before after)
    (absent : after.object = none) : after = before := by
  cases final with
  | absent => rfl
  | deleted doomed => cases absent
  | written => cases absent

theorem Synced.eq_of_clean (synced : Synced env codes db before after)
    (clean : before.dirty = false) : after = before := by
  cases synced with
  | clean => rfl
  | deleted marked => cases clean
  | written => cases clean

theorem Closed.same {dirty : Bool} (clean : before.dirty = false)
    (unchanged : before.object = none ∨ dirty = false) : Closed env codes del db dirty before before := by
  obtain ⟨_ | obj, marked, stored⟩ := before
  · obtain rfl : marked = false := clean
    exact .absent
  · obtain rfl : marked = false := clean
    exact .clean (unchanged.resolve_left nofun)

variable (lawful : env.Lawful) (hashes : Set.InjOn env.keccak256 codes)
include lawful hashes

/-- A commit succeeds, and closes every address. -/
theorem commit_spec (kept : s.Kept env codes s.entries)
    (covered : ∀ addr obj, s.stateObjects.lookup addr = some obj → 0 ≤ obj.data.balance)
    (alive : ∀ addr obj, s.dirties.lookup addr = none → s.stateObjects.lookup addr = some obj → obj.suicided = false)
    (distinct : (s.commit env del).2.db.Distinct env) :
    ∃ t, s.commit env del = (.ok (env.rootHash t.trie, env.rootHash t.utxoTrie), t) ∧ s.db.Extends t.db ∧
      t.db.Consistent env codes ∧ (s.Rooted → t.Rooted) ∧ t.utxoTrie = s.utxoTrie ∧ t.entries = [] ∧
      t.validRevisions = [] ∧
      ∀ addr, Closed env codes del t.db (s.dirties.lookup addr).isSome (s.cell env addr) (t.cell env addr) := by
  obtain ⟨within, inside⟩ := commit_tries env del s
  have cellAt (addr : AddressHash) :
      s.cell env addr = ⟨s.stateObjects.lookup addr, false, accountAt env s.trie addr⟩ := by simp [cell, kept.written]
  have clean (addr : AddressHash) : (s.cell env addr).dirty = false := by rw [cellAt]
  have writable (addr : AddressHash) : Writable env codes s.db addr (s.cell env addr) := by
    intro obj live
    obtain ⟨address, -, backed⟩ := kept.objects addr obj live
    exact ⟨address, covered addr obj live, backed⟩
  obtain ⟨t, finalised, grown, consistent, rooted, utxoTrie, others, finals⟩ :=
    forEach_spec (Writable env codes) (Finalised env codes del) (finaliseObject_tries env del)
      (fun s addr _ => finaliseObject_spec lawful distinct) (.mono lawful distinct)
      (Finalised.mono lawful distinct) s.dirties.keys_nodup kept.complete.consistent (fun addr _ => writable addr) within
  have inside := inside t finalised
  rw [finalised] at within
  have undirtied {addr : AddressHash} (absent : addr ∉ s.dirties.keys) : s.dirties.lookup addr = none :=
    lookup_eq_none.mpr absent
  have syncable (addr : AddressHash) : Syncable env codes del t.db addr (t.cell env addr) := by
    by_cases visited : addr ∈ s.dirties.keys
    · exact (finals addr visited).syncable (clean addr) ((writable addr).mono lawful distinct grown within)
    · rw [others addr visited, cellAt]
      exact .clean fun obj live => alive addr obj (undirtied visited) live
  obtain ⟨u, synced, later, consistent, rooted', utxoTrie', others', finals'⟩ :=
    forEach_spec (Syncable env codes del) (Synced env codes) (commitObject_tries env del)
      (fun s addr => commitObject_spec lawful distinct hashes) (.mono lawful distinct)
      (Synced.mono lawful distinct) t.stateObjects.keys_nodup (s := t.clearJournalAndRefund) consistent
      (fun addr _ => syncable addr) inside
  rw [synced] at inside
  refine ⟨u.clearJournalAndRefund, ?_, grown.trans later, consistent, rooted' ∘ rooted, utxoTrie'.trans utxoTrie, rfl, rfl, ?_⟩
  · unfold commit finalise
    rw [finalised]
    dsimp only
    rw [show t.clearJournalAndRefund.stateObjects = t.stateObjects from rfl, synced]
    rfl
  · intro addr
    change Closed env codes del u.db _ (s.cell env addr) (u.cell env addr)
    by_cases visited : addr ∈ s.dirties.keys
    · have changed : (s.dirties.lookup addr).isSome = true := lookup_isSome.mpr visited
      have final := (finals addr visited).mono lawful distinct later inside
      by_cases live : addr ∈ t.stateObjects.keys
      · exact final.closed (clean addr) (finals' addr live) changed
      · have absent : (t.cell env addr).object = none := lookup_eq_none.mpr live
        have same := final.eq_of_absent absent
        have kept : u.cell env addr = t.cell env addr := others' addr live
        rw [kept, same]
        exact .same (clean addr) (.inl (same ▸ absent))
    · have unchanged : (s.dirties.lookup addr).isSome = false := by rw [undirtied visited]; rfl
      have same : u.cell env addr = s.cell env addr := by
        rw [← others addr visited]
        by_cases live : addr ∈ t.stateObjects.keys
        · exact (finals' addr live).eq_of_clean (by rw [← clean addr, ← others addr visited]; rfl)
        · exact others' addr live
      rw [same]
      exact .same (clean addr) (.inr unchanged)

end Loops

end StateDB

end Boxd.WorldState
