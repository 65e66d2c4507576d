import Boxd.WorldState.StateDB
import Boxd.Lib.Journal

/-! What can be seen of a state database, whatever it has cached, and how the entries of its
journal undo what is seen. -/

namespace Boxd.WorldState
open Lib Option

structure AccountView where
  nonce : UInt64
  balance : Int
  codeHash : HashType
  code : Option Bytes
  storage : HashType → HashType
  committed : HashType → HashType
  suicided : Bool

namespace StateObject

variable (env : Env) (db : Database)

def content (obj : StateObject) : Content := obj.trie.getD ((newTrie env db obj.data.root).getD emptyTrie)

def committed (obj : StateObject) (key : HashType) : HashType :=
  (obj.originStorage.lookup key).getD ((storedValue env (obj.content env db key.bytes)).getD zeroHash)

def storage (obj : StateObject) (key : HashType) : HashType :=
  (obj.dirtyStorage.lookup key).getD (obj.committed env db key)

def codeSeen (obj : StateObject) : Option Bytes :=
  obj.code.or (if obj.data.codeHash = env.emptyCodeHash then none else db.codes.lookup obj.data.codeHash)

def view (obj : StateObject) : AccountView where
  nonce := obj.data.nonce
  balance := obj.data.balance
  codeHash := obj.data.codeHash
  code := obj.codeSeen env db
  storage := obj.storage env db
  committed := obj.committed env db
  suicided := obj.suicided

def seen (obj : StateObject) : Option AccountView := if obj.deleted then none else some (obj.view env db)

structure SameSeen (left right : StateObject) : Prop where
  address : left.address = right.address
  data : left.data = right.data
  deleted : left.deleted = right.deleted
  view : left.view env db = right.view env db

variable {env db}

theorem SameSeen.refl (obj : StateObject) : SameSeen env db obj obj := ⟨rfl, rfl, rfl, rfl⟩

theorem SameSeen.seen {left right : StateObject} (same : SameSeen env db left right) :
    left.seen env db = right.seen env db := by
  rw [StateObject.seen, StateObject.seen, same.deleted, same.view]

theorem getTrie_eq (obj : StateObject) :
    ∃ err, obj.getTrie env db = (obj.content env db, { obj with trie := some (obj.content env db), dbErr := err }) := by
  unfold content getTrie
  cases cached : obj.trie with
  | some trie =>
    refine ⟨obj.dbErr, ?_⟩
    cases obj
    cases cached
    rfl
  | none =>
    cases newTrie env db obj.data.root with
    | some trie => exact ⟨obj.dbErr, rfl⟩
    | none => exact ⟨true, rfl⟩

private theorem view_loaded {obj : StateObject} {key value : HashType} (uncached : obj.originStorage.lookup key = none)
    (loaded : (storedValue env (obj.content env db key.bytes)).getD zeroHash = value) (err : Bool) :
    StateObject.view env db { obj with
      dbErr := err
      trie := some (obj.content env db)
      originStorage := obj.originStorage.insert key value } = obj.view env db := by
  have committed : StateObject.committed env db { obj with
      dbErr := err
      trie := some (obj.content env db)
      originStorage := obj.originStorage.insert key value } = obj.committed env db := by
    funext other
    unfold StateObject.committed
    by_cases same : other = key
    · subst same
      simp [uncached, loaded]
    · simp only [AList.lookup_insert_ne same]
      rfl
  unfold view storage
  rw [committed]
  rfl

theorem getCommittedState_spec (env : Env) (db : Database) (obj : StateObject) (key : HashType) :
    (obj.getCommittedState env db key).1 = obj.committed env db key ∧
      SameSeen env db (obj.getCommittedState env db key).2 obj := by
  unfold getCommittedState
  cases cached : obj.originStorage.lookup key with
  | some value => exact ⟨by simp [committed, cached], .refl obj⟩
  | none =>
    obtain ⟨err, trie⟩ := obj.getTrie_eq
    rw [trie]
    dsimp only
    cases stored : storedValue env (obj.content env db key.bytes) with
    | some value => exact ⟨by simp [committed, cached, stored], rfl, rfl, rfl, view_loaded cached (by simp [stored]) _⟩
    | none => exact ⟨by simp [committed, cached, stored], rfl, rfl, rfl, view_loaded cached (by simp [stored]) _⟩

theorem getState_spec (env : Env) (db : Database) (obj : StateObject) (key : HashType) :
    (obj.getState env db key).1 = obj.storage env db key ∧ SameSeen env db (obj.getState env db key).2 obj := by
  unfold getState
  cases dirty : obj.dirtyStorage.lookup key with
  | some value => exact ⟨by simp [storage, dirty], .refl obj⟩
  | none =>
    obtain ⟨value, same⟩ := getCommittedState_spec env db obj key
    exact ⟨by simp [storage, dirty, value], same⟩

theorem loadCode_spec (env : Env) (db : Database) (obj : StateObject) :
    (obj.loadCode env db).1 = obj.codeSeen env db ∧ SameSeen env db (obj.loadCode env db).2 obj := by
  unfold loadCode
  cases cached : obj.code with
  | some code => exact ⟨by simp [codeSeen, cached], .refl obj⟩
  | none =>
    by_cases empty : obj.data.codeHash = env.emptyCodeHash
    · rw [if_pos empty]
      exact ⟨by simp [codeSeen, cached, empty], .refl obj⟩
    · rw [if_neg empty]
      cases found : db.codes.lookup obj.data.codeHash with
      | some code =>
        refine ⟨by simp [codeSeen, cached, empty, found], rfl, rfl, rfl, ?_⟩
        simp only [view, codeSeen, cached, empty, found, if_false, some_or, none_or]
        rfl
      | none =>
        refine ⟨by simp [codeSeen, cached, empty, found], rfl, rfl, rfl, ?_⟩
        simp only [view, codeSeen, cached]
        rfl

end StateObject

/-- What can be seen of a state database. -/
structure View where
  account : AddressHash → Option AccountView
  logs : HashType → List Log
  logSize : UInt64
  refund : UInt64
  preimages : HashType → Option Bytes

namespace StateDB

variable (env : Env)

def account (s : StateDB) (addr : AddressHash) : Option AccountView :=
  match s.stateObjects.lookup addr with
  | some obj => obj.seen env s.db
  | none => (accountAt env s.trie addr).map fun data => (StateObject.newObject addr data).view env s.db

def view (s : StateDB) : View where
  account := s.account env
  logs := s.getLogs
  logSize := s.logSize
  refund := s.refund
  preimages := s.preimages.lookup

variable {env}

theorem account_setStateObject (s : StateDB) (obj : StateObject) :
    (s.setStateObject obj).account env = Function.update (s.account env) obj.address (obj.seen env s.db) := by
  funext addr
  unfold account setStateObject
  by_cases same : addr = obj.address
  · subst same
    simp
  · simp [same]

end StateDB

end Boxd.WorldState
