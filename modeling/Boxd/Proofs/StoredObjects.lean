import Boxd.WorldState.Commit
import Boxd.Proofs.WorldView
import Mathlib.Data.List.TakeWhile

/-! Objects over what the database has stored for them: what their caches stand for, and what
is stored when an object is written. -/

namespace Boxd.WorldState
open Lib List Option AList Function Table StateObject

variable {key : HashType}

/-- What is assumed of the encodings and of the root of the empty trie. -/
structure Env.Lawful (env : Env) : Prop where
  account : ∀ account, 0 ≤ account.balance →
    ∃ enc, env.encodeAccount account = some enc ∧ enc ≠ [] ∧ env.decodeAccount enc = some account
  bytes : ∀ bytes, env.encodeBytes bytes ≠ [] ∧ env.splitBytes (env.encodeBytes bytes) = some bytes
  emptyRoot : env.rootHash emptyTrie = none
  zeroRoot : ∀ content, env.rootHash content ≠ some zeroHash

/-- No two tries of the database have the same root. -/
def Database.Distinct (env : Env) (db : Database) : Prop :=
  Set.InjOn env.rootHash (insert emptyTrie {content | content ∈ db.tries})

/-- Nothing that one database has is lost in the other. -/
structure Database.Extends (db grown : Database) : Prop where
  tries : ∀ content ∈ db.tries, content ∈ grown.tries
  codes : ∀ hash code, db.codes.lookup hash = some code → grown.codes.lookup hash = some code

section Tries

variable {env : Env} {db grown : Database}

theorem Database.Extends.refl (db : Database) : db.Extends db := ⟨fun _ member => member, fun _ _ found => found⟩

theorem Database.Extends.trans {last : Database} (first : db.Extends grown) (second : grown.Extends last) : db.Extends last :=
  ⟨fun content member => second.tries content (first.tries content member),
    fun hash code found => second.codes hash code (first.codes hash code found)⟩

theorem Database.Distinct.mono (distinct : grown.Distinct env) (tries : ∀ content ∈ db.tries, content ∈ grown.tries) :
    db.Distinct env := by
  apply Set.InjOn.mono _ distinct
  apply Set.insert_subset_insert
  exact tries

theorem newTrie_eq_some_iff (lawful : env.Lawful) (distinct : db.Distinct env) {root : HashType} {content : Content} :
    newTrie env db root = some content ↔
      trieHash env content = root ∧ (content = emptyTrie ∨ content ∈ db.tries) := by
  unfold newTrie trieHash
  constructor
  · intro opened
    split at opened
    · next zero =>
      cases opened
      exact ⟨by rw [lawful.emptyRoot, zero]; rfl, .inl rfl⟩
    · have root := find?_some opened
      simp only [decide_eq_true_eq] at root
      exact ⟨by rw [root]; rfl, .inr (mem_of_find?_eq_some opened)⟩
  · rintro ⟨rfl, stored⟩
    cases rooted : env.rootHash content with
    | none =>
      have empty : content = emptyTrie := distinct (by simpa using stored) (by simp) (rooted.trans lawful.emptyRoot.symm)
      simp [empty]
    | some hash =>
      have nonzero : hash ≠ zeroHash := by
        rintro rfl
        exact lawful.zeroRoot content rooted
      have member : content ∈ db.tries := by
        refine stored.resolve_left ?_
        rintro rfl
        rw [lawful.emptyRoot] at rooted
        cases rooted
      rw [getD_some, if_neg nonzero]
      cases found : db.tries.find? fun content => decide (env.rootHash content = some hash) with
      | none =>
        have missing := find?_eq_none.mp found content member
        simp [rooted] at missing
      | some other =>
        have same := find?_some found
        simp only [decide_eq_true_eq] at same
        have among := mem_of_find?_eq_some found
        rw [distinct (by simp [among]) (by simp [member]) (same.trans rooted.symm)]

theorem newTrie_mono (lawful : env.Lawful) (distinct : grown.Distinct env)
    (tries : ∀ content ∈ db.tries, content ∈ grown.tries) {root : HashType} {content : Content}
    (opened : newTrie env db root = some content) : newTrie env grown root = some content := by
  obtain ⟨rooted, stored⟩ := (newTrie_eq_some_iff lawful (distinct.mono tries)).mp opened
  exact (newTrie_eq_some_iff lawful distinct).mpr ⟨rooted, stored.imp_right (tries content)⟩

end Tries

section Values

variable (env : Env)

/-- The value that a storage trie has for a key. -/
def decoded (content : Content) (key : HashType) : HashType :=
  (storedValue env (content key.bytes)).getD zeroHash

/-- All values of a storage trie can be decoded. -/
def Readable (content : Content) : Prop :=
  ∀ key : HashType, storedValue env (content key.bytes) = some (decoded env content key)

/-- What a storage trie has for a key after a value is written. -/
def entryOf (value : HashType) : Option Bytes :=
  if value = zeroHash then none else some (env.encodeBytes (value.bytes.dropWhile (· = 0)))

def putValue (content : Content) (key value : HashType) : Content :=
  if value = decoded env content key then content else update content key.bytes (entryOf env value)

variable {env}

theorem setBytes_stripped (value : HashType) : FixedBytes.setBytes 32 (value.bytes.dropWhile (· = 0)) = value := by
  apply FixedBytes.ext
  have split := takeWhile_append_dropWhile (p := (· = 0)) (l := value.bytes)
  have length := congrArg length split
  rw [length_append, value.length_eq] at length
  have zeros : value.bytes.takeWhile (· = 0) = replicate (32 - (value.bytes.dropWhile (· = 0)).length) 0 := by
    rw [eq_replicate_iff]
    refine ⟨by omega, ?_⟩
    intro byte member
    simpa using mem_takeWhile_imp member
  simp only [FixedBytes.setBytes]
  rw [← zeros, Nat.sub_eq_zero_of_le (by omega), drop_zero]
  exact split

section
variable (lawful : env.Lawful)
include lawful

theorem storedValue_entryOf (value : HashType) :
    storedValue env (entryOf env value) = some value := by
  unfold entryOf
  split
  · next zero => rw [zero]; rfl
  · obtain ⟨nonempty, back⟩ := lawful.bytes (value.bytes.dropWhile (· = 0))
    simp only [storedValue, length_eq_zero_iff, nonempty, if_false, back, map_some,
      setBytes_stripped]

variable {content : Content} (readable : Readable env content) (key value : HashType)
include readable

theorem storedValue_putValue (other : HashType) :
    storedValue env (putValue env content key value other.bytes) =
      some (update (decoded env content) key value other) := by
  unfold putValue
  split
  · next same => rw [same, update_eq_self, readable other]
  · by_cases at_ : other = key
    · rw [at_, update_self, update_self, storedValue_entryOf lawful]
    · have apart : other.bytes ≠ key.bytes := fun same => at_ (FixedBytes.ext same)
      rw [update_of_ne apart, update_of_ne at_, readable other]

theorem decoded_putValue :
    decoded env (putValue env content key value) = update (decoded env content) key value := by
  funext other
  rw [decoded, storedValue_putValue lawful readable, getD_some]

theorem Readable.putValue : Readable env (putValue env content key value) := by
  intro other
  rw [storedValue_putValue lawful readable, decoded_putValue lawful readable]

end

end Values

def HasCode (env : Env) (db : Database) (hash : HashType) : Prop :=
  hash = env.emptyCodeHash ∨ ∃ code, code ≠ [] ∧ db.codes.lookup hash = some code

/-- An object whose caches stand for what is stored: its root names the given storage trie, and
its code is one of the given ones. -/
structure Backed (env : Env) (db : Database) (codes : Set Bytes) (content : Content) (obj : StateObject) : Prop where
  root : newTrie env db obj.data.root = some content
  readable : Readable env content
  trie : ∀ cached, obj.trie = some cached → cached = content
  origin : ∀ key value, obj.originStorage.lookup key = some value → value = decoded env content key
  dirty : ∀ key, obj.originStorage.lookup key = none → obj.dirtyStorage.lookup key = none
  noErr : obj.dbErr = false
  code : ∀ code, obj.code = some code → env.keccak256 code = obj.data.codeHash ∧ code ∈ codes
  kept : obj.dirtyCode = false → ∀ code, obj.code = some code → db.codes.lookup obj.data.codeHash = some code
  missing : obj.code = none → HasCode env db obj.data.codeHash

def Database.Consistent (env : Env) (db : Database) (codes : Set Bytes) : Prop :=
  ∀ hash code, db.codes.lookup hash = some code → env.keccak256 code = hash ∧ code ∈ codes

namespace Backed

variable {env : Env} {db grown : Database} {codes : Set Bytes} {content : Content} {obj : StateObject}

section
variable (backed : Backed env db codes content obj)
include backed

theorem content_eq : obj.content env db = content := by
  unfold StateObject.content
  cases cached : obj.trie with
  | some trie => exact backed.trie trie cached
  | none => rw [backed.root]; rfl

theorem committed_eq : obj.committed env db = decoded env content := by
  funext key
  unfold committed
  cases cached : obj.originStorage.lookup key with
  | some value => exact backed.origin key value cached
  | none => rw [backed.content_eq]; rfl

theorem storage_eq (key : HashType) :
    obj.storage env db key = (obj.dirtyStorage.lookup key).getD (decoded env content key) := by
  rw [storage, backed.committed_eq]

theorem getTrie_eq :
    obj.getTrie env db = (content, { obj with trie := some content }) := by
  unfold getTrie
  cases cached : obj.trie with
  | some trie =>
    obtain rfl := backed.trie trie cached
    simp only [← cached]
  | none =>
    rw [backed.root]

theorem withTrie :
    Backed env db codes content { obj with trie := some content } :=
  { backed with trie := fun _ cached => (some.inj cached).symm }

theorem getCommittedState (key : HashType) :
    Backed env db codes content (obj.getCommittedState env db key).2 ∧
      (obj.getCommittedState env db key).2.originStorage.lookup key ≠ none ∧
      ∀ other, obj.originStorage.lookup other ≠ none →
        (obj.getCommittedState env db key).2.originStorage.lookup other ≠ none := by
  unfold StateObject.getCommittedState
  cases cached : obj.originStorage.lookup key with
  | some value => exact ⟨backed, by simp [cached], fun _ known => known⟩
  | none =>
    rw [backed.getTrie_eq]
    dsimp only
    rw [backed.readable key]
    refine ⟨{ backed.withTrie with origin := ?_, dirty := ?_ }, by simp, ?_⟩
    · intro other value found
      obtain ⟨rfl, rfl⟩ | ⟨-, before⟩ := lookup_insert_cases found
      · rfl
      · exact backed.origin other value before
    · intro other found
      by_cases same : other = key
      · subst same
        rw [lookup_insert] at found
        cases found
      · rw [lookup_insert_ne same] at found
        exact backed.dirty other found
    · exact fun other known => lookup_insert_ne_none _ (.inr known)

theorem getState (key : HashType) :
    Backed env db codes content (obj.getState env db key).2 ∧
      (obj.getState env db key).2.originStorage.lookup key ≠ none ∧
      ∀ other, obj.originStorage.lookup other ≠ none →
        (obj.getState env db key).2.originStorage.lookup other ≠ none := by
  unfold StateObject.getState
  cases dirty : obj.dirtyStorage.lookup key with
  | some value =>
    refine ⟨backed, ?_, fun _ known => known⟩
    intro uncached
    have clean := backed.dirty key uncached
    rw [dirty] at clean
    cases clean
  | none => exact backed.getCommittedState key

omit backed in
theorem loadCode (consistent : db.Consistent env codes) (backed : Backed env db codes content obj) :
    Backed env db codes content (obj.loadCode env db).2 ∧
      (obj.loadCode env db).2.originStorage = obj.originStorage := by
  unfold StateObject.loadCode
  cases cached : obj.code with
  | some code => exact ⟨backed, rfl⟩
  | none =>
    by_cases empty : obj.data.codeHash = env.emptyCodeHash
    · rw [if_pos empty]
      exact ⟨backed, rfl⟩
    · obtain ⟨code, nonempty, found⟩ := (backed.missing cached).resolve_left empty
      rw [if_neg empty, found]
      refine ⟨{ backed with noErr := ?_, code := ?_, kept := ?_, missing := nofun }, rfl⟩
      · simp [backed.noErr, nonempty]
      · rintro _ ⟨⟩
        exact consistent _ code found
      · rintro - _ ⟨⟩
        exact found

omit backed in
theorem codeSeen_named (consistent : db.Consistent env codes) (backed : Backed env db codes content obj) {code : Bytes}
    (seen : obj.codeSeen env db = some code) : env.keccak256 code = obj.data.codeHash ∧ code ∈ codes := by
  unfold codeSeen at seen
  cases cached : obj.code with
  | some own =>
    rw [cached] at seen
    exact backed.code code (cached.trans seen)
  | none =>
    rw [cached, none_or] at seen
    split at seen
    · cases seen
    · exact consistent _ code seen

theorem codeSeen_missing (missing : obj.codeSeen env db = none) :
    HasCode env db obj.data.codeHash := by
  exact backed.missing (or_eq_none_iff.mp missing).1

theorem setBalance (amount : Int) :
    Backed env db codes content (obj.setBalance amount) := { backed with }

theorem setNonce (nonce : UInt64) :
    Backed env db codes content (obj.setNonce nonce) := { backed with }

theorem setState (known : obj.originStorage.lookup key ≠ none)
    (value : HashType) : Backed env db codes content (obj.setState key value) := by
  refine { backed with dirty := ?_ }
  intro other uncached
  have apart : other ≠ key := by
    rintro rfl
    exact known uncached
  rw [StateObject.setState, lookup_insert_ne apart]
  exact backed.dirty other uncached

theorem setCode {hash : HashType} {code : Option Bytes}
    (named : ∀ bytes, code = some bytes → env.keccak256 bytes = hash ∧ bytes ∈ codes)
    (missing : code = none → HasCode env db hash) : Backed env db codes content (obj.setCode hash code) :=
  { backed with code := named, kept := nofun, missing := missing }

end

theorem fresh (env : Env) (db : Database) (codes : Set Bytes) (addr : AddressHash) :
    Backed env db codes emptyTrie (.newObject addr ⟨0, 0, zeroHash, env.emptyCodeHash⟩) where
  root := if_pos rfl
  readable := fun _ => rfl
  trie := nofun
  origin := nofun
  dirty := fun _ _ => rfl
  noErr := rfl
  code := nofun
  kept := nofun
  missing := fun _ => .inl rfl

section
variable (lawful : env.Lawful) (distinct : grown.Distinct env) (extends_ : db.Extends grown)
  (backed : Backed env db codes content obj)
include extends_ backed

theorem codeSeen_mono :
    obj.codeSeen env grown = obj.codeSeen env db := by
  unfold codeSeen
  cases cached : obj.code with
  | some code => rfl
  | none =>
    rcases backed.missing cached with empty | ⟨code, -, found⟩
    · simp [empty]
    · rw [found, extends_.codes _ code found]

include lawful distinct

theorem mono : Backed env grown codes content obj :=
  { backed with
    root := newTrie_mono lawful distinct extends_.tries backed.root
    kept := fun clean code cached => extends_.codes _ code (backed.kept clean code cached)
    missing := fun uncached => (backed.missing uncached).imp_right fun ⟨code, nonempty, found⟩ =>
      ⟨code, nonempty, extends_.codes _ code found⟩ }

theorem view_mono : obj.view env grown = obj.view env db := by
  have later := backed.mono lawful distinct extends_
  have storage : obj.storage env grown = obj.storage env db := by
    funext key
    rw [later.storage_eq, backed.storage_eq]
  unfold view
  rw [storage, later.committed_eq, backed.committed_eq, backed.codeSeen_mono extends_]

end

end Backed

section Flush

variable {env : Env}

/-- A storage trie with the entries that were written. -/
def flushed (env : Env) (content : Content) (entries : List (Sigma fun _ : HashType => HashType)) : Content :=
  entries.foldl (fun content entry => putValue env content entry.1 entry.2) content

variable {obj done : StateObject}

structure Settles (obj done : StateObject) (root : HashType) : Prop where
  same : done = { obj with
    data.root := root
    trie := done.trie
    originStorage := done.originStorage
    dirtyStorage := done.dirtyStorage }
  clean : ∀ key, done.dirtyStorage.lookup key = none

section
variable {root : HashType} (settles : Settles obj done root)
include settles

theorem Settles.address : done.address = obj.address := by rw [settles.same]

theorem Settles.data : done.data = { obj.data with root } := by rw [settles.same]

theorem Settles.suicided : done.suicided = obj.suicided := by rw [settles.same]

theorem Settles.deleted : done.deleted = obj.deleted := by rw [settles.same]

end

variable {content : Content} (lawful : env.Lawful)
include lawful

theorem flushed_spec {entries : List (Sigma fun _ => HashType)}
    (distinct : entries.NodupKeys) (readable : Readable env content) :
    Readable env (flushed env content entries) ∧
      ∀ key, decoded env (flushed env content entries) key = (entries.dlookup key).getD (decoded env content key) := by
  induction entries generalizing content with
  | nil => exact ⟨readable, fun _ => rfl⟩
  | cons entry rest next =>
    obtain ⟨head, value⟩ := entry
    obtain ⟨fresh, others⟩ := nodupKeys_cons.mp distinct
    obtain ⟨later, values⟩ := next others (readable.putValue lawful head value)
    refine ⟨later, ?_⟩
    intro key
    change decoded env (flushed env (putValue env content head value) rest) key = _
    rw [values, decoded_putValue lawful readable]
    by_cases same : key = head
    · subst same
      rw [dlookup_eq_none.mpr fresh, dlookup_cons_eq, update_self]
      rfl
    · rw [dlookup_cons_ne _ _ same, update_of_ne same]

theorem update_putValue (db : Database) {value : HashType} (changed : value ≠ decoded env content key) :
    db.update content key.bytes (encodeValue env value) =
      (false, putValue env content key value, { db with tries := putValue env content key value :: db.tries }) := by
  unfold putValue entryOf Database.update encodeValue
  rw [if_neg changed]
  by_cases zero : value = zeroHash
  · have present : content key.bytes ≠ none := by
      intro absent
      apply changed
      rw [zero, decoded, absent]
      rfl
    simp [zero, present]
  · obtain ⟨nonempty, -⟩ := lawful.bytes (value.bytes.dropWhile (· = 0))
    simp [zero, nonempty]

/-- An object after some of its entries were written to its storage trie. -/
structure Flushes (env : Env) (db grown : Database) (content : Content) (keys : List HashType) (obj done : StateObject) :
    Prop where
  same : done = { obj with
    trie := some content
    originStorage := done.originStorage
    dirtyStorage := done.dirtyStorage }
  origin : ∀ key value, done.originStorage.lookup key = some value → value = decoded env content key
  clean : ∀ key, key ∈ keys ∨ obj.dirtyStorage.lookup key = none → done.dirtyStorage.lookup key = none
  tries : ∃ added, grown = { db with tries := added ++ db.tries } ∧ (obj.trie = some content ∨ content ∈ added)

theorem flushEntry_spec (db : Database) (readable : Readable env content)
    (trie : obj.trie = some content) (noErr : obj.dbErr = false)
    (origin : ∀ key value, obj.originStorage.lookup key = some value → value = decoded env content key)
    (known : obj.originStorage.lookup key ≠ none) (value : HashType) :
    Flushes env db (obj.flushEntry env db key value).2 (putValue env content key value) [key] obj
        (obj.flushEntry env db key value).1 ∧
      ∀ other, obj.originStorage.lookup other ≠ none →
        (obj.flushEntry env db key value).1.originStorage.lookup other ≠ none := by
  obtain ⟨cached, found⟩ := ne_none_iff_exists'.mp known
  have before := origin key cached found
  have clean (other : HashType) (absent : other ∈ [key] ∨ obj.dirtyStorage.lookup other = none) :
      (obj.dirtyStorage.erase key).lookup other = none :=
    lookup_erase_eq_none (absent.imp_left mem_singleton.mp)
  unfold flushEntry
  dsimp only
  rw [found, getD_some, before]
  split
  · next same =>
    have unchanged : putValue env content key value = content := if_pos same
    rw [unchanged]
    refine ⟨⟨?_, origin, clean, [], rfl, .inl trie⟩, fun _ known => known⟩
    simp [← trie]
  · next changed =>
    rw [trie, getD_some, update_putValue lawful db changed]
    refine ⟨⟨?_, ?_, clean, [_], rfl, .inr (mem_singleton_self _)⟩, fun other known =>
      lookup_insert_ne_none value (.inr known)⟩
    · simp [noErr]
    · intro other stored present
      rw [decoded_putValue lawful readable]
      obtain ⟨rfl, rfl⟩ | ⟨differ, before⟩ := lookup_insert_cases present
      · rw [update_self]
      · rw [update_of_ne differ]
        exact origin other stored before

variable {db : Database}

omit lawful in
theorem Flushes.trans {middle grown : Database} {first second : Content} {keys others : List HashType}
    {between : StateObject} (before : Flushes env db middle first keys obj between)
    (after : Flushes env middle grown second others between done) :
    Flushes env db grown second (keys ++ others) obj done where
  same := by
    rw [after.same, before.same]
  origin := after.origin
  clean := by
    intro key absent
    apply after.clean
    rcases absent with among | clean
    · rcases mem_append.mp among with early | late
      · exact .inr (before.clean key (.inl early))
      · exact .inl late
    · exact .inr (before.clean key (.inr clean))
  tries := by
    obtain ⟨earlier, rfl, stored⟩ := before.tries
    obtain ⟨later, rfl, kept⟩ := after.tries
    refine ⟨later ++ earlier, by rw [append_assoc], ?_⟩
    rcases kept with same | new
    · have trie : between.trie = some first := congrArg StateObject.trie before.same
      obtain rfl := some.inj (trie.symm.trans same)
      exact stored.imp_right (mem_append_right later)
    · exact .inr (mem_append_left earlier new)

theorem flushEntries_spec {entries : List (Sigma fun _ => HashType)} (db : Database)
    (readable : Readable env content) (trie : obj.trie = some content)
    (noErr : obj.dbErr = false)
    (origin : ∀ key value, obj.originStorage.lookup key = some value → value = decoded env content key)
    (known : ∀ entry ∈ entries, obj.originStorage.lookup entry.1 ≠ none) :
    ∃ grown done, entries.foldl (fun (obj, db) entry => obj.flushEntry env db entry.1 entry.2) (obj, db) = (done, grown) ∧
      Flushes env db grown (flushed env content entries) (entries.map (·.1)) obj done := by
  induction entries generalizing db content obj with
  | nil =>
    refine ⟨db, obj, rfl, ?_, origin, ?_, [], rfl, .inl trie⟩
    · cases obj
      cases trie
      rfl
    · rintro key (among | clean)
      · cases among
      · exact clean
  | cons entry rest next =>
    rw [forall_mem_cons] at known
    obtain ⟨first, cached⟩ := flushEntry_spec lawful db readable trie noErr origin known.1 entry.2
    obtain ⟨grown, done, folded, later⟩ := next _ (readable.putValue lawful entry.1 entry.2)
      (congrArg StateObject.trie first.same) ((congrArg StateObject.dbErr first.same).trans noErr) first.origin
      (fun other member => cached other.1 (known.2 other member))
    exact ⟨grown, done, folded, first.trans later⟩

variable {codes : Set Bytes} (backed : Backed env db codes content obj)
include backed

theorem Backed.updateTrie :
    ∃ grown done, obj.updateTrie env db = (done, grown) ∧
      Flushes env db grown (flushed env content obj.dirtyStorage.entries) obj.dirtyStorage.keys
        { obj with trie := some content } done := by
  unfold StateObject.updateTrie
  rw [backed.getTrie_eq]
  refine flushEntries_spec lawful db backed.readable rfl backed.noErr backed.origin ?_
  intro entry member uncached
  have clean := backed.dirty entry.1 uncached
  rw [mem_lookup_iff.mpr member] at clean
  cases clean

theorem Backed.flushed_spec :
    Readable env (flushed env content obj.dirtyStorage.entries) ∧
      decoded env (flushed env content obj.dirtyStorage.entries) = obj.storage env db := by
  obtain ⟨readable, values⟩ := WorldState.flushed_spec lawful obj.dirtyStorage.nodupKeys backed.readable
  refine ⟨readable, ?_⟩
  funext key
  rw [values, backed.storage_eq]
  rfl

theorem Backed.updateRoot :
    ∃ added done, obj.updateRoot env db = (done, { db with tries := added ++ db.tries }) ∧
      Settles obj done (trieHash env (flushed env content obj.dirtyStorage.entries)) ∧
      (Database.Distinct env { db with tries := added ++ db.tries } →
        Backed env { db with tries := added ++ db.tries } codes (flushed env content obj.dirtyStorage.entries) done) := by
  obtain ⟨grown, done, updated, flushes⟩ := backed.updateTrie lawful
  obtain ⟨added, rfl, stored⟩ := flushes.tries
  obtain ⟨readable, -⟩ := backed.flushed_spec lawful
  have trie : done.trie = some (flushed env content obj.dirtyStorage.entries) := congrArg StateObject.trie flushes.same
  have clean (key : HashType) : done.dirtyStorage.lookup key = none := by
    apply flushes.clean
    by_cases among : key ∈ obj.dirtyStorage.keys
    · exact .inl among
    · exact .inr (lookup_eq_none.mpr among)
  refine ⟨added, { done with data.root := trieHash env (flushed env content obj.dirtyStorage.entries) }, ?_, ⟨?_, clean⟩, ?_⟩
  · unfold StateObject.updateRoot
    rw [updated]
    simp only [trie, getD_some]
  · rw [flushes.same]
  · intro distinct
    have opened : newTrie env { db with tries := added ++ db.tries }
        (trieHash env (flushed env content obj.dirtyStorage.entries)) =
          some (flushed env content obj.dirtyStorage.entries) := by
      refine (newTrie_eq_some_iff lawful distinct).mpr ⟨rfl, ?_⟩
      rcases stored with same | new
      · obtain same := some.inj same
        have before : db.Distinct env := distinct.mono fun _ member => mem_append_right added member
        obtain ⟨-, known⟩ := (newTrie_eq_some_iff lawful before).mp backed.root
        rw [← same]
        exact known.imp_right (mem_append_right added)
      · exact .inr (mem_append_left _ new)
    rw [flushes.same]
    exact {
      root := opened
      readable := readable
      trie := fun _ cached => (some.inj cached).symm
      origin := flushes.origin
      dirty := fun key _ => clean key
      noErr := backed.noErr
      code := backed.code
      kept := backed.kept
      missing := backed.missing }

end Flush

end Boxd.WorldState
