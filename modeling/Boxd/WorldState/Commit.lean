import Boxd.WorldState.StateDB

/-! Writing a state database to its tries. The source goes through its maps in any order, here
it is the order of their entries. A round of a loop only settles its own address, and what is
proved of the loops holds for every order of different addresses. -/

namespace Boxd.WorldState
open Lib

def Database.update (db : Database) (trie : Content) (key value : Bytes) : Bool × Content × Database :=
  if value.length ≠ 0 then
    let changed := Function.update trie key (some value)
    (false, changed, { db with tries := changed :: db.tries })
  else if trie key = none then (true, trie, db)
  else
    let changed := Function.update trie key none
    (false, changed, { db with tries := changed :: db.tries })

def trieHash (env : Env) (trie : Content) : HashType := (env.rootHash trie).getD zeroHash

namespace StateObject

variable (env : Env)

def encodeValue (value : HashType) : Bytes :=
  if value = zeroHash then [] else env.encodeBytes (value.bytes.dropWhile (· = 0))

/-- One round of the loop of `updateTrie`. -/
def flushEntry (obj : StateObject) (db : Database) (key value : HashType) : StateObject × Database :=
  let obj := { obj with dirtyStorage := obj.dirtyStorage.erase key }
  if value = (obj.originStorage.lookup key).getD zeroHash then (obj, db)
  else
    let (failed, trie, db) := db.update (obj.trie.getD emptyTrie) key.bytes (encodeValue env value)
    ({ obj with
        trie := some trie
        originStorage := obj.originStorage.insert key value
        dbErr := obj.dbErr || failed }, db)

def updateTrie (obj : StateObject) (db : Database) : StateObject × Database :=
  let (_, obj) := obj.getTrie env db
  obj.dirtyStorage.entries.foldl (fun (obj, db) entry => obj.flushEntry env db entry.1 entry.2) (obj, db)

def updateRoot (obj : StateObject) (db : Database) : StateObject × Database :=
  let (obj, db) := obj.updateTrie env db
  ({ obj with data.root := trieHash env (obj.trie.getD emptyTrie) }, db)

end StateObject

inductive CommitError where
  | database
  deriving DecidableEq

namespace StateDB

variable (env : Env)

def clearJournalAndRefund (s : StateDB) : StateDB :=
  { s with entries := [], dirties := ∅, validRevisions := [], refund := 0 }

/-- Panics if the account has no encoding. -/
def updateStateObject (s : StateDB) (obj : StateObject) : Outcome CommitError Unit × StateDB :=
  match env.encodeAccount obj.data with
  | none => (.panicked, s)
  | some data =>
    let (failed, trie, db) := s.db.update s.trie obj.address.bytes data
    (.ok (), { s with trie, db, dbErr := s.dbErr || failed })

def deleteStateObject (s : StateDB) (obj : StateObject) : StateDB :=
  let (failed, trie, db) := s.db.update s.trie obj.address.bytes []
  { s with trie, db, dbErr := s.dbErr || failed }.setStateObject { obj with deleted := true }

/-- A loop over addresses that ends with the first round that fails. -/
def forEach (round : StateDB → AddressHash → Outcome CommitError Unit × StateDB) :
    List AddressHash → StateDB → Outcome CommitError Unit × StateDB
  | [], s => (.ok (), s)
  | addr :: rest, s =>
    match round s addr with
    | (.error fault, s) => (.error fault, s)
    | (.ok _, s) => forEach round rest s

section Loops

variable (deleteEmptyObjects : Bool) (s : StateDB)

def settleObject (obj : StateObject) : Outcome CommitError Unit × StateDB :=
  if obj.suicided || (deleteEmptyObjects && obj.empty env) then (.ok (), s.deleteStateObject obj)
  else
    let (obj, db) := obj.updateRoot env s.db
    updateStateObject env ({ s with db }.setStateObject obj) obj

def finaliseObject (addr : AddressHash) : Outcome CommitError Unit × StateDB :=
  match s.stateObjects.lookup addr with
  | none => (.ok (), s)
  | some obj =>
    match s.settleObject env deleteEmptyObjects obj with
    | (.error fault, s) => (.error fault, s)
    | (.ok _, s) => (.ok (), { s with stateObjectsDirty := s.stateObjectsDirty.insert addr () })

def finalise : Outcome CommitError Unit × StateDB :=
  match forEach (finaliseObject env deleteEmptyObjects) s.dirties.keys s with
  | (.error fault, s) => (.error fault, s)
  | (.ok _, s) => (.ok (), s.clearJournalAndRefund)

def putCode (obj : StateObject) : StateObject × StateDB :=
  match obj.code with
  | none => (obj, s)
  | some code =>
    if obj.dirtyCode then
      ({ obj with dirtyCode := false }, { s with db.codes := s.db.codes.insert obj.data.codeHash code })
    else (obj, s)

def syncObject (obj : StateObject) (isDirty : Bool) : Outcome CommitError Unit × StateDB :=
  if obj.suicided || (isDirty && deleteEmptyObjects && obj.empty env) then (.ok (), s.deleteStateObject obj)
  else if isDirty then
    let (obj, s) := s.putCode obj
    let (obj, db) := obj.updateTrie env s.db
    let s := { s with db }.setStateObject obj
    if obj.dbErr then (.fail .database, s) else s.updateStateObject env obj
  else (.ok (), s)

def commitObject (addr : AddressHash) : Outcome CommitError Unit × StateDB :=
  match s.stateObjects.lookup addr with
  | none => (.ok (), s)
  | some obj =>
    match s.syncObject env deleteEmptyObjects obj (s.stateObjectsDirty.lookup addr).isSome with
    | (.error fault, s) => (.error fault, s)
    | (.ok _, s) => (.ok (), { s with stateObjectsDirty := s.stateObjectsDirty.erase addr })

/-- After `finalise` the journal is empty, so no address is added to the dirty ones. -/
def commit : Outcome CommitError (Option HashType × Option HashType) × StateDB :=
  match s.finalise env deleteEmptyObjects with
  | (.error fault, s) => (.error fault, s.clearJournalAndRefund)
  | (.ok _, s) =>
    match forEach (commitObject env deleteEmptyObjects) s.stateObjects.keys s with
    | (.error fault, s) => (.error fault, s.clearJournalAndRefund)
    | (.ok _, s) => (.ok (env.rootHash s.trie, env.rootHash s.utxoTrie), s.clearJournalAndRefund)

end Loops

end StateDB

end Boxd.WorldState
