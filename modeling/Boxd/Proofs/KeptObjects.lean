import Boxd.Proofs.StoredObjects
import Boxd.Proofs.Snapshots

/-! The objects of a state database between commits: all of them stand for what is stored, the
journal covers what was changed, and the counters of dirty addresses cover the journal. -/

namespace Boxd.WorldState
open Lib Option AList List Function WorldState.StateDB JournalEntry StateObject Table

def StateObject.Known (obj : StateObject) (key : HashType) : Prop := obj.originStorage.lookup key ≠ none

/-- Which keys are known of the object of an address. -/
abbrev Caches := AddressHash → HashType → Prop

variable {more : Caches} {entry : JournalEntry} {obj : StateObject} {content : Content}

namespace JournalEntry

/-- What is known of the objects after an entry is undone. -/
def below (caches : Caches) : JournalEntry → Caches
  | createObject account => update caches account fun _ => False
  | resetObject prev => update caches prev.address prev.Known
  | _ => caches

/-- A value of storage is only put back over a known one. -/
def Needs (caches : Caches) : JournalEntry → Prop
  | storage account key _ => caches account key
  | _ => True

/-- What entries put back stands for what is stored. -/
def Stands (env : Env) (db : Database) (codes : Set Bytes) : JournalEntry → Prop
  | resetObject prev => prev.deleted = false ∧ ∃ content, Backed env db codes content prev
  | code _ prevcode prevhash =>
    (∀ bytes, prevcode = some bytes → env.keccak256 bytes = prevhash ∧ bytes ∈ codes) ∧
      (prevcode = none → HasCode env db prevhash)
  | _ => True

def isReset : JournalEntry → Bool
  | resetObject _ => true
  | _ => false

theorem below_mono {caches : Caches} (less : ∀ addr key, caches addr key → more addr key) (entry : JournalEntry)
    (addr : AddressHash) (key : HashType) (known : entry.below caches addr key) : entry.below more addr key := by
  cases entry with
  | createObject account =>
    by_cases same : addr = account
    · simp [below, same] at known
    · simp only [below, update_of_ne same] at known ⊢
      exact less addr key known
  | resetObject prev =>
    by_cases same : addr = prev.address
    · simp only [below, same, update_self] at known ⊢
      exact known
    · simp only [below, update_of_ne same] at known ⊢
      exact less addr key known
  | _ => exact less addr key known

theorem Needs.mono {caches : Caches} (less : ∀ addr key, caches addr key → more addr key)
    (needs : entry.Needs caches) : entry.Needs more := by
  cases entry with
  | storage account key prevalue => exact less account key needs
  | _ => exact needs

end JournalEntry

/-- All entries can be undone over known values. -/
def Undoable : List JournalEntry → Caches → Prop
  | [], _ => True
  | entry :: rest, caches => entry.Needs caches ∧ Undoable rest (entry.below caches)

theorem Undoable.mono {entries : List JournalEntry} {caches : Caches}
    (less : ∀ addr key, caches addr key → more addr key) (undoable : Undoable entries caches) : Undoable entries more := by
  induction entries generalizing caches more with
  | nil => trivial
  | cons entry rest next => exact ⟨undoable.1.mono less, next (entry.below_mono less) undoable.2⟩

structure Complete (env : Env) (codes : Set Bytes) (db : Database) (trie : Content) : Prop where
  consistent : db.Consistent env codes
  accounts : ∀ addr data, accountAt env trie addr = some data →
    ∃ content, Backed env db codes content (.newObject addr data)

namespace StateDB

def caches (s : StateDB) : Caches := fun addr key =>
  match s.stateObjects.lookup addr with
  | some obj => obj.Known key
  | none => False

/-- The entries are those that are not undone yet. -/
structure Kept (env : Env) (codes : Set Bytes) (entries : List JournalEntry) (s : StateDB) : Prop where
  complete : Complete env codes s.db s.trie
  objects : ∀ addr obj, s.stateObjects.lookup addr = some obj →
    obj.address = addr ∧ obj.deleted = false ∧ ∃ content, Backed env s.db codes content obj
  stands : ∀ entry ∈ entries, entry.Stands env s.db codes
  undoable : Undoable entries s.caches
  counted : ∀ addr, (entries.countP fun entry => entry.dirtied = some addr : Int) ≤ s.dirties.amount addr
  written : ∀ addr, s.stateObjectsDirty.lookup addr = none

variable {env : Env} {codes : Set Bytes} {s t : StateDB} {entries : List JournalEntry}

theorem caches_setStateObject (s : StateDB) (obj : StateObject) :
    (s.setStateObject obj).caches = update s.caches obj.address obj.Known := by
  funext addr key
  unfold caches setStateObject
  by_cases same : addr = obj.address
  · subst same
    simp
  · simp [same]

theorem caches_of_live {addr : AddressHash} (live : s.stateObjects.lookup addr = some obj) :
    s.caches addr = obj.Known := by
  funext key
  simp [caches, live]

theorem caches_absent {addr : AddressHash} (absent : s.stateObjects.lookup addr = none) : s.caches addr = fun _ => False := by
  funext key
  simp [caches, absent]

theorem counted_append (counted : ∀ addr, (entries.countP fun entry => entry.dirtied = some addr : Int) ≤ s.dirties.amount addr)
    (entry : JournalEntry) (addr : AddressHash) :
    ((entry :: entries).countP fun entry => entry.dirtied = some addr : Int) ≤ (s.append entry).dirties.amount addr := by
  have before := counted addr
  rw [countP_cons]
  unfold append
  cases dirtied : entry.dirtied with
  | none => simpa using before
  | some account =>
    rw [amount_deposit]
    by_cases same : addr = account
    · subst same
      simpa using before
    · simpa [same, Ne.symm same] using before

theorem counted_clean
    (counted : ∀ addr, ((entry :: entries).countP fun entry => entry.dirtied = some addr : Int) ≤ s.dirties.amount addr)
    (addr : AddressHash) : (entries.countP fun entry => entry.dirtied = some addr : Int) ≤ (s.clean entry).dirties.amount addr := by
  have before := counted addr
  rw [countP_cons] at before
  unfold clean
  cases dirtied : entry.dirtied with
  | none => simpa [dirtied] using before
  | some account =>
    dsimp only
    by_cases same : addr = account
    · subst same
      simp only [dirtied, decide_true, if_true] at before
      split
      · simp only [amount, lookup_erase, getD_none]
        omega
      · simp only [amount, lookup_insert, getD_some]
        unfold amount at before
        omega
    · have apart : ¬account = addr := Ne.symm same
      simp only [dirtied, some.injEq, apart, decide_false, Bool.false_eq_true, if_false, Nat.add_zero] at before
      split
      · simpa only [amount, lookup_erase_ne same] using before
      · simpa only [amount, lookup_insert_ne same] using before

namespace Kept

section
variable (kept : s.Kept env codes entries)
include kept

private theorem objects_set (alive : obj.deleted = false)
    (backed : Backed env s.db codes content obj) (addr : AddressHash) (found : StateObject)
    (live : (s.stateObjects.insert obj.address obj).lookup addr = some found) :
    found.address = addr ∧ found.deleted = false ∧ ∃ content, Backed env s.db codes content found := by
  obtain ⟨rfl, rfl⟩ | ⟨-, before⟩ := lookup_insert_cases live
  · exact ⟨rfl, alive, content, backed⟩
  · exact kept.objects addr found before

theorem write (entry : JournalEntry) (alive : obj.deleted = false) (backed : Backed env s.db codes content obj)
    (stands : entry.Stands env s.db codes) (needs : entry.Needs (update s.caches obj.address obj.Known))
    (less : ∀ addr key, s.caches addr key → entry.below (update s.caches obj.address obj.Known) addr key) :
    ((s.append entry).setStateObject obj).Kept env codes (entry :: entries) where
  complete := kept.complete
  objects := kept.objects_set alive backed
  stands := forall_mem_cons.mpr ⟨stands, kept.stands⟩
  undoable := by
    rw [caches_setStateObject]
    exact ⟨needs, kept.undoable.mono less⟩
  counted := counted_append kept.counted entry
  written := kept.written

theorem cache (alive : obj.deleted = false)
    (backed : Backed env s.db codes content obj) (less : ∀ key, s.caches obj.address key → obj.Known key) :
    (s.setStateObject obj).Kept env codes entries where
  complete := kept.complete
  objects := kept.objects_set alive backed
  stands := kept.stands
  undoable := by
    rw [caches_setStateObject]
    refine kept.undoable.mono fun addr key known => ?_
    by_cases same : addr = obj.address
    · rw [same] at known ⊢
      rw [update_self]
      exact less key known
    · rwa [update_of_ne same]
  counted := kept.counted
  written := kept.written

theorem load (addr : AddressHash) : (s.getStateObject env addr = (none, s) ∧ s.stateObjects.lookup addr = none) ∨
      ∃ obj t, s.getStateObject env addr = (some obj, t) ∧ t.Kept env codes entries ∧
        t.stateObjects.lookup addr = some obj ∧ Frame s t ∧ t.utxoTrie = s.utxoTrie ∧ t.dirties = s.dirties ∧
        ∀ other key, s.caches other key → t.caches other key := by
  unfold getStateObject
  cases live : s.stateObjects.lookup addr with
  | some obj =>
    obtain ⟨-, alive, -⟩ := kept.objects addr obj live
    exact .inr ⟨obj, s, by simp [alive], kept, live, .refl s, rfl, rfl, fun _ _ known => known⟩
  | none =>
    cases stored : accountAt env s.trie addr with
    | none => exact .inl ⟨rfl, rfl⟩
    | some data =>
      obtain ⟨content, backed⟩ := kept.complete.accounts addr data stored
      have unknown (key : HashType) : ¬s.caches addr key := by
        rw [caches_absent live]
        exact not_false
      refine .inr ⟨_, _, rfl, kept.cache rfl backed fun key known => (unknown key known).elim, lookup_insert _,
        ⟨rfl, rfl, rfl, rfl, rfl⟩, rfl, rfl, ?_⟩
      intro other key known
      rw [caches_setStateObject]
      by_cases same : other = addr
      · exact (unknown key (same ▸ known)).elim
      · rwa [newObject, update_of_ne same]

end

theorem undo (kept : s.Kept env codes (entry :: entries)) (db : t.db = s.db) (trie : t.trie = s.trie)
    (dirties : t.dirties = s.dirties) (written : ∀ addr, t.stateObjectsDirty.lookup addr = none)
    (objects : ∀ addr obj, t.stateObjects.lookup addr = some obj →
      obj.address = addr ∧ obj.deleted = false ∧ ∃ content, Backed env s.db codes content obj)
    (less : ∀ addr key, entry.below s.caches addr key → t.caches addr key) : (t.clean entry).Kept env codes entries := by
  have counted : ∀ addr, ((entry :: entries).countP fun entry => entry.dirtied = some addr : Int) ≤ t.dirties.amount addr := by
    rw [dirties]
    exact kept.counted
  have frame : (t.clean entry).db = t.db ∧ (t.clean entry).trie = t.trie ∧
      (t.clean entry).stateObjects = t.stateObjects ∧ (t.clean entry).stateObjectsDirty = t.stateObjectsDirty := by
    unfold clean
    split <;> exact ⟨rfl, rfl, rfl, rfl⟩
  obtain ⟨cleanDb, cleanTrie, cleanObjects, cleanDirty⟩ := frame
  have caches : (t.clean entry).caches = t.caches := by
    unfold caches
    rw [cleanObjects]
  obtain ⟨-, stands⟩ := forall_mem_cons.mp kept.stands
  refine ⟨?_, ?_, ?_, ?_, counted_clean counted, ?_⟩
  · rw [cleanDb, cleanTrie, db, trie]
    exact kept.complete
  · rw [cleanObjects, cleanDb, db]
    exact objects
  · rw [cleanDb, db]
    exact stands
  · rw [caches]
    exact kept.undoable.2.mono less
  · rw [cleanDirty]
    exact written

end Kept

/-- A state that follows another within a run: nothing is stored, and no object is replaced. -/
structure Grows (env : Env) (codes : Set Bytes) (s t : StateDB) : Prop where
  kept : t.Kept env codes t.entries
  db : t.db = s.db
  trie : t.trie = s.trie
  utxoTrie : t.utxoTrie = s.utxoTrie
  entries : ∃ added, t.entries = added ++ s.entries ∧ ∀ entry ∈ added, entry.isReset = false

namespace Grows

theorem refl (kept : s.Kept env codes s.entries) : Grows env codes s s := ⟨kept, rfl, rfl, rfl, [], rfl, by simp⟩

theorem trans {u : StateDB} (first : Grows env codes s t) (second : Grows env codes t u) : Grows env codes s u where
  kept := second.kept
  db := second.db.trans first.db
  trie := second.trie.trans first.trie
  utxoTrie := second.utxoTrie.trans first.utxoTrie
  entries := by
    obtain ⟨earlier, before, plain⟩ := first.entries
    obtain ⟨later, after, plain'⟩ := second.entries
    refine ⟨later ++ earlier, by rw [after, before, append_assoc], ?_⟩
    intro entry member
    exact (mem_append.mp member).elim (plain' entry) (plain entry)

theorem change (kept : s.Kept env codes s.entries) (entry : JournalEntry) {addr : AddressHash}
    {changed : StateObject} (live : s.stateObjects.lookup addr = some obj) (address : changed.address = addr) (alive : changed.deleted = false)
    (backed : Backed env s.db codes content changed) (known : ∀ key, obj.Known key → changed.Known key)
    (stands : entry.Stands env s.db codes) (needs : entry.Needs (update s.caches addr changed.Known))
    (plain : ∀ caches, entry.below caches = caches) (replaces : entry.isReset = false) :
    Grows env codes s ((s.append entry).setStateObject changed) := by
  subst address
  refine ⟨kept.write entry alive backed stands needs ?_, rfl, rfl, rfl, [entry], rfl, by simpa using replaces⟩
  intro other key before
  rw [plain]
  by_cases same : other = changed.address
  · rw [same, caches_of_live live] at before
    rw [same, update_self]
    exact known key before
  · rwa [update_of_ne same]

theorem cache (kept : s.Kept env codes s.entries) {addr : AddressHash} {cached : StateObject}
    (live : s.stateObjects.lookup addr = some obj) (address : cached.address = addr) (alive : cached.deleted = false)
    (backed : Backed env s.db codes content cached) (known : ∀ key, obj.Known key → cached.Known key) :
    Grows env codes s (s.setStateObject cached) := by
  subst address
  refine ⟨kept.cache alive backed ?_, rfl, rfl, rfl, [], rfl, by simp⟩
  rw [caches_of_live live]
  exact known

end Grows

structure Held (env : Env) (codes : Set Bytes) (s t : StateDB) (addr : AddressHash) (obj : StateObject) (content : Content) :
    Prop where
  grows : Grows env codes s t
  live : t.stateObjects.lookup addr = some obj
  address : obj.address = addr
  alive : obj.deleted = false
  backed : Backed env t.db codes content obj

section Calls

variable (kept : s.Kept env codes s.entries)
include kept

theorem Kept.getStateObject (addr : AddressHash) :
    (s.getStateObject env addr = (none, s) ∧ s.stateObjects.lookup addr = none) ∨
      ∃ obj t content, s.getStateObject env addr = (some obj, t) ∧ Held env codes s t addr obj content := by
  rcases kept.load addr with absent | ⟨obj, t, found, loaded, live, frame, utxoTrie, -, -⟩
  · exact .inl absent
  · obtain ⟨address, alive, content, backed⟩ := loaded.objects addr obj live
    refine .inr ⟨obj, t, content, found, ⟨?_, frame.db, frame.trie, utxoTrie, [], frame.entries, by simp⟩, live, address,
      alive, backed⟩
    rw [frame.entries]
    exact loaded

theorem Grows.create {addr : AddressHash} (absent : s.stateObjects.lookup addr = none) :
    Grows env codes s ((s.append (.createObject addr)).setStateObject
      (.newObject addr ⟨0, 0, zeroHash, env.emptyCodeHash⟩)) := by
  refine ⟨kept.write (.createObject addr) rfl (.fresh env s.db codes addr) trivial trivial ?_, rfl, rfl, rfl, [_], rfl, by
    simp [JournalEntry.isReset]⟩
  intro other key known
  by_cases same : other = addr
  · rw [same, caches_absent absent] at known
    exact known.elim
  · simp only [below, newObject, update_of_ne same]
    exact known

theorem Kept.getOrNewStateObject (addr : AddressHash) :
    ∃ obj t content, s.getOrNewStateObject env addr = (obj, t) ∧ Held env codes s t addr obj content := by
  unfold StateDB.getOrNewStateObject
  rcases kept.getStateObject addr with ⟨found, absent⟩ | ⟨obj, t, content, found, held⟩
  · rw [found]
    simp only [createObject, found]
    exact ⟨_, _, emptyTrie, rfl, .create kept absent, lookup_insert _, rfl, rfl, .fresh env s.db codes addr⟩
  · rw [found]
    exact ⟨obj, t, content, rfl, held⟩

end Calls

section Objects

variable {addr : AddressHash} {obj : StateObject} {content : Content} (held : Held env codes s t addr obj content)
include held

theorem Held.journalBalance (amount : Int) : Grows env codes s (t.journalBalance obj amount) :=
  held.grows.trans (.change held.grows.kept (.balance obj.address obj.data.balance) held.live held.address held.alive
    (held.backed.setBalance amount)
    (fun _ known => known) trivial trivial (fun _ => rfl) rfl)

theorem Held.touch : Grows env codes s (t.touch obj) := by
  have kept := held.grows.kept
  have touched : (t.append (.touch obj.address)).Kept env codes (.touch obj.address :: t.entries) :=
    ⟨kept.complete, kept.objects, forall_mem_cons.mpr ⟨trivial, kept.stands⟩, ⟨trivial, kept.undoable⟩,
      counted_append kept.counted _, kept.written⟩
  have entries : ∀ entry ∈ [JournalEntry.touch obj.address], entry.isReset = false := by simp [JournalEntry.isReset]
  refine held.grows.trans ?_
  unfold StateDB.touch
  split
  · refine ⟨{ touched with counted := ?_ }, rfl, rfl, rfl, [_], rfl, entries⟩
    intro other
    have before := touched.counted other
    rw [amount_deposit]
    split
    · next same =>
      rw [same] at before ⊢
      exact before.trans (Int.le_add_of_nonneg_right (by decide))
    · exact before
  · exact ⟨touched, rfl, rfl, rfl, [_], rfl, entries⟩

theorem Held.setNonce (nonce : UInt64) :
    Grows env codes s ((t.append (.nonce obj.address obj.data.nonce)).setStateObject (obj.setNonce nonce)) :=
  held.grows.trans (.change held.grows.kept (.nonce obj.address obj.data.nonce) held.live held.address held.alive (held.backed.setNonce nonce)
    (fun _ known => known) trivial trivial (fun _ => rfl) rfl)

end Objects

section Setters

variable (kept : s.Kept env codes s.entries)
include kept

section
variable (addr : AddressHash)
include addr

theorem Kept.addBalance (amount : Int) : Grows env codes s (s.addBalance env addr amount) := by
  unfold StateDB.addBalance
  obtain ⟨obj, t, content, found, held⟩ := kept.getOrNewStateObject addr
  rw [found]
  dsimp only
  split
  · split
    · exact held.touch
    · exact held.grows
  · exact held.journalBalance _

theorem Kept.subBalance (amount : Int) : Grows env codes s (s.subBalance env addr amount) := by
  unfold StateDB.subBalance
  obtain ⟨obj, t, content, found, held⟩ := kept.getOrNewStateObject addr
  rw [found]
  dsimp only
  split
  · exact held.grows
  · exact held.journalBalance _

theorem Kept.setBalance (amount : Int) : Grows env codes s (s.setBalance env addr amount) := by
  unfold StateDB.setBalance
  obtain ⟨obj, t, content, found, held⟩ := kept.getOrNewStateObject addr
  rw [found]
  exact held.journalBalance _

theorem Kept.setNonce (nonce : UInt64) : Grows env codes s (s.setNonce env addr nonce) := by
  unfold StateDB.setNonce
  obtain ⟨obj, t, content, found, held⟩ := kept.getOrNewStateObject addr
  rw [found]
  exact held.setNonce nonce

theorem Kept.setCode {code : Option Bytes} (listed : ∀ bytes, code = some bytes → bytes ∈ codes) :
    Grows env codes s (s.setCode env addr code) := by
  unfold StateDB.setCode
  obtain ⟨obj, t, content, found, held⟩ := kept.getOrNewStateObject addr
  obtain ⟨prevcode, same⟩ := loadCode_spec env t.db obj
  obtain ⟨backed, origin⟩ := held.backed.loadCode held.grows.kept.complete.consistent
  have unloaded : (obj.loadCode env t.db).1 = (obj.loadCode env t.db).2.codeSeen env t.db :=
    prevcode.trans (congrArg AccountView.code same.view).symm
  rw [found]
  dsimp only
  generalize obj.loadCode env t.db = loaded at unloaded same backed origin
  obtain ⟨prev, cached⟩ := loaded
  dsimp only at unloaded same backed origin ⊢
  subst unloaded
  refine held.grows.trans (.change held.grows.kept _ held.live (same.address.trans held.address)
    (same.deleted.trans held.alive) (backed.setCode ?_ ?_) ?_ ?_ trivial (fun _ => rfl) rfl)
  · rintro bytes rfl
    exact ⟨rfl, listed bytes rfl⟩
  · rintro rfl
    exact .inl rfl
  · intro key known
    change cached.originStorage.lookup key ≠ none
    rw [origin]
    exact known
  · exact ⟨fun bytes seen => backed.codeSeen_named held.grows.kept.complete.consistent seen, backed.codeSeen_missing⟩

theorem Kept.setState (key value : HashType) : Grows env codes s (s.setState env addr key value) := by
  unfold StateDB.setState
  obtain ⟨obj, t, content, found, held⟩ := kept.getOrNewStateObject addr
  obtain ⟨-, same⟩ := getState_spec env t.db obj key
  obtain ⟨backed, known, more⟩ := held.backed.getState key
  rw [found]
  dsimp only
  generalize obj.getState env t.db key = loaded at same backed known more
  obtain ⟨prev, cached⟩ := loaded
  have address := same.address.trans held.address
  have alive := same.deleted.trans held.alive
  split
  · exact held.grows.trans (.cache held.grows.kept held.live address alive backed more)
  · refine held.grows.trans (.change held.grows.kept (.storage cached.address key prev) held.live address alive
      (backed.setState known value) more trivial ?_ (fun _ => rfl) rfl)
    change update t.caches addr _ cached.address key
    rw [address, update_self]
    exact known

theorem Kept.suicide : Grows env codes s (s.suicide env addr).2 := by
  unfold StateDB.suicide
  rcases kept.getStateObject addr with ⟨found, -⟩ | ⟨obj, t, content, found, held⟩
  · rw [found]
    exact .refl kept
  · rw [found]
    exact held.grows.trans (.change held.grows.kept (.suicide addr obj.suicided obj.data.balance) held.live held.address
      held.alive { held.backed with } (fun _ known => known) trivial trivial (fun _ => rfl) rfl)

end

theorem Grows.beside (db : t.db = s.db) (trie : t.trie = s.trie) (utxoTrie : t.utxoTrie = s.utxoTrie)
    (objects : t.stateObjects = s.stateObjects) (written : t.stateObjectsDirty = s.stateObjectsDirty)
    (entries : t.entries = entry :: s.entries) (dirties : t.dirties = s.dirties) (clean : entry.dirtied = none)
    (stands : entry.Stands env s.db codes) (needs : entry.Needs s.caches) (plain : ∀ caches, entry.below caches = caches)
    (replaces : entry.isReset = false) : Grows env codes s t := by
  have caches : t.caches = s.caches := by
    unfold caches
    rw [objects]
  refine ⟨⟨?_, ?_, ?_, ?_, ?_, ?_⟩, db, trie, utxoTrie, [entry], entries, by simpa using replaces⟩
  · rw [db, trie]
    exact kept.complete
  · rw [db, objects]
    exact kept.objects
  · rw [entries, db]
    exact forall_mem_cons.mpr ⟨stands, kept.stands⟩
  · rw [entries, caches]
    refine ⟨needs, ?_⟩
    rw [plain]
    exact kept.undoable
  · intro addr
    rw [entries, dirties, countP_cons]
    simpa [clean] using kept.counted addr
  · rw [written]
    exact kept.written

end Setters

section Revert

section
variable {entry : JournalEntry} (kept : s.Kept env codes (entry :: entries))
include kept

section
variable (plain : ∀ caches, entry.below caches = caches)
include plain

theorem Kept.putBack {addr : AddressHash} {changed : StateObject} {loaded : StateDB}
    (held : loaded.Kept env codes (entry :: entries)) (live : loaded.stateObjects.lookup addr = some obj)
    (frame : Frame s loaded) (utxoTrie : loaded.utxoTrie = s.utxoTrie) (dirties : loaded.dirties = s.dirties)
    (more : ∀ other key, s.caches other key → loaded.caches other key)
    (address : changed.address = obj.address) (alive : changed.deleted = obj.deleted)
    (origin : changed.originStorage = obj.originStorage)
    (backed : ∀ content, Backed env s.db codes content obj → Backed env s.db codes content changed) :
    ((loaded.setStateObject changed).clean entry).Kept env codes entries ∧
      (loaded.setStateObject changed).utxoTrie = s.utxoTrie := by
  obtain ⟨sameAddress, sameAlive, content, stands⟩ := held.objects addr obj live
  rw [frame.db] at stands
  refine ⟨kept.undo frame.db frame.trie dirties held.written ?_ ?_, utxoTrie⟩
  · have objects := held.objects_set (alive.trans sameAlive) (frame.db.symm ▸ backed content stands)
    rw [frame.db] at objects
    exact objects
  · intro other key known
    rw [plain] at known
    rw [caches_setStateObject]
    by_cases same : other = changed.address
    · have before := more other key known
      rw [same, address, sameAddress, caches_of_live live] at before
      rw [same, update_self, StateObject.Known, origin]
      exact before
    · rw [update_of_ne same]
      exact more other key known

theorem Kept.withObject {addr : AddressHash} {change : StateObject → StateObject}
    (reverted : s.withObject env addr change = some t)
    (changes : ∀ obj, (∀ key, s.caches addr key → obj.Known key) →
      (change obj).address = obj.address ∧ (change obj).deleted = obj.deleted ∧
      (change obj).originStorage = obj.originStorage ∧
      ∀ content, Backed env s.db codes content obj → Backed env s.db codes content (change obj)) :
    (t.clean entry).Kept env codes entries ∧ t.utxoTrie = s.utxoTrie := by
  unfold StateDB.withObject at reverted
  rcases kept.load addr with ⟨found, -⟩ | ⟨obj, loaded, found, held, live, frame, utxoTrie, dirties, more⟩
  · rw [found] at reverted
    cases reverted
  · rw [found] at reverted
    cases reverted
    obtain ⟨address, alive, origin, backed⟩ := changes obj fun key known => by
      rw [← caches_of_live live]
      exact more addr key known
    exact kept.putBack plain held live frame utxoTrie dirties more address alive origin backed

end

theorem Kept.revertEntry (reverted : s.revertEntry env entry = some t) :
    (t.clean entry).Kept env codes entries ∧ t.utxoTrie = s.utxoTrie := by
  obtain ⟨stands, -⟩ := forall_mem_cons.mp kept.stands
  -- Entries beside the objects leave them and the counters alone.
  have beside {t : StateDB} (db : t.db = s.db) (trie : t.trie = s.trie) (utxoTrie : t.utxoTrie = s.utxoTrie)
      (objects : t.stateObjects = s.stateObjects) (written : t.stateObjectsDirty = s.stateObjectsDirty)
      (dirties : t.dirties = s.dirties) (plain : ∀ caches, entry.below caches = caches) :
      (t.clean entry).Kept env codes entries ∧ t.utxoTrie = s.utxoTrie := by
    refine ⟨kept.undo db trie dirties ?_ ?_ ?_, utxoTrie⟩
    · rw [written]
      exact kept.written
    · rw [objects]
      exact kept.objects
    · intro addr key known
      rw [plain] at known
      unfold caches
      rw [objects]
      exact known
  cases entry with
  | createObject account =>
    cases reverted
    refine ⟨kept.undo rfl rfl rfl ?_ ?_ ?_, rfl⟩
    · exact fun addr => lookup_erase_eq_none (.inr (kept.written addr))
    · exact All.erase kept.objects account
    · intro addr key known
      by_cases same : addr = account
      · simp [below, same] at known
      · simp only [below, update_of_ne same] at known
        unfold caches at known ⊢
        rwa [lookup_erase_ne same]
  | resetObject prev =>
    cases reverted
    obtain ⟨alive, content, backed⟩ := stands
    refine ⟨kept.undo rfl rfl rfl kept.written (kept.objects_set alive backed) ?_, rfl⟩
    intro addr key known
    rw [caches_setStateObject]
    exact known
  | suicide account prev prevbalance =>
    simp only [revertEntry] at reverted
    rcases kept.load account with ⟨found, -⟩ | ⟨obj, loaded, found, held, live, frame, utxoTrie, dirties, more⟩
    · rw [found] at reverted
      cases reverted
      exact beside rfl rfl rfl rfl rfl rfl fun _ => rfl
    · rw [found] at reverted
      cases reverted
      exact kept.putBack (fun _ => rfl) held live frame utxoTrie dirties more rfl rfl rfl fun _ backed => { backed with }
  | balance account prev =>
    exact kept.withObject (fun _ => rfl) reverted fun obj _ => ⟨rfl, rfl, rfl, fun _ backed => backed.setBalance prev⟩
  | nonce account prev =>
    exact kept.withObject (fun _ => rfl) reverted fun obj _ => ⟨rfl, rfl, rfl, fun _ backed => backed.setNonce prev⟩
  | storage account key prevalue =>
    have needed : s.caches account key := kept.undoable.1
    exact kept.withObject (fun _ => rfl) reverted fun obj known =>
      ⟨rfl, rfl, rfl, fun _ backed => backed.setState (known key needed) prevalue⟩
  | code account prevcode prevhash =>
    exact kept.withObject (fun _ => rfl) reverted fun obj _ =>
      ⟨rfl, rfl, rfl, fun _ backed => backed.setCode stands.1 stands.2⟩
  | refund prev =>
    cases reverted
    exact beside rfl rfl rfl rfl rfl rfl fun _ => rfl
  | addLog txhash =>
    simp only [revertEntry] at reverted
    split at reverted
    · cases reverted
    · cases reverted
      exact beside rfl rfl rfl rfl rfl rfl fun _ => rfl
    · cases reverted
      exact beside rfl rfl rfl rfl rfl rfl fun _ => rfl
  | addPreimage hash =>
    cases reverted
    exact beside rfl rfl rfl rfl rfl rfl fun _ => rfl
  | touch account =>
    cases reverted
    exact beside rfl rfl rfl rfl rfl rfl fun _ => rfl

end

theorem Kept.revertEntries {newer : List JournalEntry} (kept : s.Kept env codes (newer ++ entries))
    (reverted : s.revertEntries env newer = some t) : t.Kept env codes entries ∧ t.utxoTrie = s.utxoTrie := by
  induction newer generalizing s with
  | nil =>
    cases reverted
    exact ⟨kept, rfl⟩
  | cons entry rest next =>
    obtain ⟨undone, first, later⟩ := bind_eq_some_iff.mp reverted
    obtain ⟨cleaned, utxoTrie⟩ := kept.revertEntry first
    obtain ⟨final, same⟩ := next cleaned later
    refine ⟨final, same.trans (Eq.trans ?_ utxoTrie)⟩
    unfold clean
    split <;> rfl

theorem Kept.revertToSnapshot (kept : s.Kept env codes s.entries) {revid : Nat}
    (reverted : s.revertToSnapshot env revid = some t) : t.Kept env codes t.entries ∧ t.utxoTrie = s.utxoTrie := by
  unfold StateDB.revertToSnapshot at reverted
  dsimp only at reverted
  split at reverted
  · cases reverted
  · next revision _ =>
    split at reverted
    · obtain ⟨undone, done, rfl⟩ := map_eq_some_iff.mp reverted
      rw [← take_append_drop (s.entries.length - revision.journalIndex) s.entries] at kept
      obtain ⟨final, utxoTrie⟩ := kept.revertEntries done
      exact ⟨{ final with }, utxoTrie⟩
    · cases reverted

end Revert

end StateDB

end Boxd.WorldState
