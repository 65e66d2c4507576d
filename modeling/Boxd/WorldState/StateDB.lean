import Boxd.Receipt
import Boxd.Lib.Outcome
import Boxd.Lib.Table

/-! The state database of accounts: live objects over a trie, with a journal that undoes
their changes. A trie is a map here; encodings and hash functions are given. -/

namespace Boxd.WorldState
open Lib

/-- What a trie holds. -/
abbrev Content := Bytes → Option Bytes

structure Account where
  nonce : UInt64
  balance : Int
  root : HashType
  codeHash : HashType
  deriving DecidableEq

/-- Hashes and encodings. An account with a negative balance has no encoding. -/
structure Env where
  keccak256 : Bytes → HashType
  rootHash : Content → Option HashType
  encodeAccount : Account → Option Bytes
  decodeAccount : Bytes → Option Account
  encodeBytes : Bytes → Bytes
  splitBytes : Bytes → Option Bytes

def Env.emptyCodeHash (env : Env) : HashType := env.keccak256 []

/-- The table below all tries: what they have held, and code by its hash. -/
structure Database where
  tries : List Content
  codes : Table HashType Bytes

def emptyTrie : Content := fun _ => none

def newTrie (env : Env) (db : Database) (rootHash : HashType) : Option Content :=
  if rootHash = zeroHash then some emptyTrie
  else db.tries.find? fun content => env.rootHash content = some rootHash

abbrev Storage := Table HashType HashType

structure StateObject where
  address : AddressHash
  data : Account
  dbErr : Bool
  trie : Option Content
  code : Option Bytes
  originStorage : Storage
  dirtyStorage : Storage
  dirtyCode : Bool
  suicided : Bool
  deleted : Bool

namespace StateObject

def newObject (address : AddressHash) (data : Account) : StateObject :=
  { address, data, dbErr := false, trie := none, code := none, originStorage := ∅, dirtyStorage := ∅,
    dirtyCode := false, suicided := false, deleted := false }

variable (env : Env) (db : Database) (obj : StateObject)

def empty : Bool :=
  obj.data.nonce = 0 && obj.data.balance = 0 && obj.data.codeHash = env.emptyCodeHash

def getTrie : Content × StateObject :=
  match obj.trie with
  | some trie => (trie, obj)
  | none =>
    match newTrie env db obj.data.root with
    | some trie => (trie, { obj with trie := some trie })
    | none => (emptyTrie, { obj with trie := some emptyTrie, dbErr := true })

def storedValue (entry : Option Bytes) : Option HashType :=
  match entry with
  | none => some zeroHash
  | some enc => if enc.length = 0 then some zeroHash else (env.splitBytes enc).map (.setBytes 32)

def getCommittedState (key : HashType) : HashType × StateObject :=
  match obj.originStorage.lookup key with
  | some value => (value, obj)
  | none =>
    let (trie, obj) := obj.getTrie env db
    match storedValue env (trie key.bytes) with
    | some value => (value, { obj with originStorage := obj.originStorage.insert key value })
    | none => (zeroHash, { obj with originStorage := obj.originStorage.insert key zeroHash, dbErr := true })

def getState (key : HashType) : HashType × StateObject :=
  match obj.dirtyStorage.lookup key with
  | some value => (value, obj)
  | none => obj.getCommittedState env db key

def loadCode : Option Bytes × StateObject :=
  match obj.code with
  | some code => (some code, obj)
  | none =>
    if obj.data.codeHash = env.emptyCodeHash then (none, obj)
    else
      match db.codes.lookup obj.data.codeHash with
      | some code => (some code, { obj with code := some code, dbErr := obj.dbErr || code.length = 0 })
      | none => (none, { obj with dbErr := true })

def setBalance (amount : Int) : StateObject := { obj with data.balance := amount }

def setNonce (nonce : UInt64) : StateObject := { obj with data.nonce := nonce }

def setState (key value : HashType) : StateObject :=
  { obj with dirtyStorage := obj.dirtyStorage.insert key value }

def setCode (codeHash : HashType) (code : Option Bytes) : StateObject :=
  { obj with code := code, data.codeHash := codeHash, dirtyCode := true }

end StateObject

inductive JournalEntry where
  | createObject (account : AddressHash)
  | resetObject (prev : StateObject)
  | suicide (account : AddressHash) (prev : Bool) (prevbalance : Int)
  | balance (account : AddressHash) (prev : Int)
  | nonce (account : AddressHash) (prev : UInt64)
  | storage (account : AddressHash) (key prevalue : HashType)
  | code (account : AddressHash) (prevcode : Option Bytes) (prevhash : HashType)
  | refund (prev : UInt64)
  | addLog (txhash : HashType)
  | addPreimage (hash : HashType)
  | touch (account : AddressHash)

def JournalEntry.dirtied : JournalEntry → Option AddressHash
  | createObject account => some account
  | resetObject _ => none
  | suicide account _ _ => some account
  | balance account _ => some account
  | nonce account _ => some account
  | storage account _ _ => some account
  | code account _ _ => some account
  | refund _ => none
  | addLog _ => none
  | addPreimage _ => none
  | touch account => some account

structure Revision where
  id : Nat
  journalIndex : Nat
  deriving DecidableEq

/-- The journal keeps the newest entry first, the revisions the newest last. -/
structure StateDB where
  db : Database
  trie : Content
  utxoTrie : Content
  stateObjects : Table AddressHash StateObject
  stateObjectsDirty : Table AddressHash Unit
  dbErr : Bool
  refund : UInt64
  thash : HashType
  bhash : HashType
  txIndex : Nat
  logs : Table HashType (List Log)
  logSize : UInt64
  preimages : Table HashType Bytes
  entries : List JournalEntry
  dirties : Table AddressHash Int
  validRevisions : List Revision
  nextRevisionID : Nat

def ripemd : AddressHash := .setBytes 20 [3]

namespace StateDB

def new (env : Env) (rootHash utxoRootHash : Option HashType) (db : Database) : Option StateDB := do
  let trie ← newTrie env db (rootHash.getD zeroHash)
  let utxoTrie ← newTrie env db (utxoRootHash.getD zeroHash)
  some { db, trie, utxoTrie, stateObjects := ∅, stateObjectsDirty := ∅, dbErr := false, refund := 0,
         thash := zeroHash, bhash := zeroHash, txIndex := 0, logs := ∅, logSize := 0, preimages := ∅,
         entries := [], dirties := ∅, validRevisions := [], nextRevisionID := 0 }

def append (s : StateDB) (entry : JournalEntry) : StateDB :=
  { s with
    entries := entry :: s.entries
    dirties := match entry.dirtied with
      | some addr => s.dirties.deposit addr 1
      | none => s.dirties }

/-- The dirty tracking of an entry that is undone. -/
def clean (s : StateDB) (entry : JournalEntry) : StateDB :=
  match entry.dirtied with
  | some addr =>
    let count := s.dirties.amount addr - 1
    { s with dirties := if count = 0 then s.dirties.erase addr else s.dirties.insert addr count }
  | none => s

def setStateObject (s : StateDB) (obj : StateObject) : StateDB :=
  { s with stateObjects := s.stateObjects.insert obj.address obj }

variable (env : Env) (s : StateDB) (addr : AddressHash)

def accountAt (trie : Content) (addr : AddressHash) : Option Account :=
  match trie addr.bytes with
  | none => none
  | some enc => if enc.length = 0 then none else env.decodeAccount enc

def getStateObject : Option StateObject × StateDB :=
  match s.stateObjects.lookup addr with
  | some obj => (if obj.deleted then none else some obj, s)
  | none =>
    match accountAt env s.trie addr with
    | none => (none, s)
    | some data => (some (.newObject addr data), s.setStateObject (.newObject addr data))

def createObject : StateObject × Option StateObject × StateDB :=
  let (prev, s) := s.getStateObject env addr
  let newobj := StateObject.newObject addr ⟨0, 0, zeroHash, env.emptyCodeHash⟩
  let s := s.append (match prev with
    | none => .createObject addr
    | some prev => .resetObject prev)
  (newobj, prev, s.setStateObject newobj)

def getOrNewStateObject : StateObject × StateDB :=
  match s.getStateObject env addr with
  | (some obj, s) => (obj, s)
  | (none, s) =>
    let (obj, _, s) := s.createObject env addr
    (obj, s)

section Setters

/-- `stateObject.SetBalance` -/
def journalBalance (obj : StateObject) (amount : Int) : StateDB :=
  (s.append (.balance obj.address obj.data.balance)).setStateObject (obj.setBalance amount)

def touch (obj : StateObject) : StateDB :=
  let s := s.append (.touch obj.address)
  if obj.address = ripemd then { s with dirties := s.dirties.deposit obj.address 1 } else s

def addBalance (amount : Int) : StateDB :=
  let (obj, s) := s.getOrNewStateObject env addr
  if amount = 0 then (if obj.empty env then s.touch obj else s)
  else s.journalBalance obj (obj.data.balance + amount)

def subBalance (amount : Int) : StateDB :=
  let (obj, s) := s.getOrNewStateObject env addr
  if amount = 0 then s else s.journalBalance obj (obj.data.balance - amount)

def setBalance (amount : Int) : StateDB :=
  let (obj, s) := s.getOrNewStateObject env addr
  s.journalBalance obj amount

def setNonce (nonce : UInt64) : StateDB :=
  let (obj, s) := s.getOrNewStateObject env addr
  (s.append (.nonce obj.address obj.data.nonce)).setStateObject (obj.setNonce nonce)

/-- The code is a slice, which may be nil. -/
def setCode (code : Option Bytes) : StateDB :=
  let (obj, s) := s.getOrNewStateObject env addr
  let (prevcode, obj) := obj.loadCode env s.db
  (s.append (.code obj.address prevcode obj.data.codeHash)).setStateObject
    (obj.setCode (env.keccak256 (code.getD [])) code)

def setState (key value : HashType) : StateDB :=
  let (obj, s) := s.getOrNewStateObject env addr
  let (prev, obj) := obj.getState env s.db key
  if prev = value then s.setStateObject obj
  else (s.append (.storage obj.address key prev)).setStateObject (obj.setState key value)

def suicide : Bool × StateDB :=
  match s.getStateObject env addr with
  | (none, s) => (false, s)
  | (some obj, s) =>
    let s := s.append (.suicide addr obj.suicided obj.data.balance)
    (true, s.setStateObject { obj with suicided := true, data.balance := 0 })

/-- The balance is carried over to the new account. -/
def createAccount : StateDB :=
  let (obj, prev, s) := s.createObject env addr
  match prev with
  | none => s
  | some prev => s.setStateObject (obj.setBalance prev.data.balance)

def addLog (log : Log) : StateDB :=
  let s := s.append (.addLog s.thash)
  let log := { log with txHash := s.thash, blockHash := s.bhash, txIndex := .ofNat s.txIndex, index := s.logSize.toUInt32 }
  { s with logs := s.logs.insert s.thash ((s.logs.lookup s.thash).getD [] ++ [log]), logSize := s.logSize + 1 }

def addRefund (gas : UInt64) : StateDB :=
  let s := s.append (.refund s.refund)
  { s with refund := s.refund + gas }

/-- The entry is appended before the check that panics. -/
def subRefund (gas : UInt64) : Outcome Empty Unit × StateDB :=
  let s := s.append (.refund s.refund)
  if gas > s.refund then (.panicked, s) else (.ok (), { s with refund := s.refund - gas })

def addPreimage (hash : HashType) (preimage : Bytes) : StateDB :=
  match s.preimages.lookup hash with
  | some _ => s
  | none =>
    let s := s.append (.addPreimage hash)
    { s with preimages := s.preimages.insert hash preimage }

end Setters

section Getters

def exist : Bool × StateDB :=
  let (obj, s) := s.getStateObject env addr
  (obj.isSome, s)

def getBalance : Int × StateDB :=
  let (obj, s) := s.getStateObject env addr
  ((obj.map (·.data.balance)).getD 0, s)

def getNonce : UInt64 × StateDB :=
  let (obj, s) := s.getStateObject env addr
  ((obj.map (·.data.nonce)).getD 0, s)

/-- A getter that may load something into the object. -/
def readObject {α : Type} (missing : α) (read : StateObject → α × StateObject) : α × StateDB :=
  match s.getStateObject env addr with
  | (none, s) => (missing, s)
  | (some obj, s) =>
    let (value, obj) := read obj
    (value, s.setStateObject obj)

def getCode : Option Bytes × StateDB :=
  s.readObject env addr none (·.loadCode env s.db)

def getCodeHash : HashType × StateDB :=
  let (obj, s) := s.getStateObject env addr
  ((obj.map (·.data.codeHash)).getD zeroHash, s)

def getState (key : HashType) : HashType × StateDB :=
  s.readObject env addr zeroHash (·.getState env s.db key)

def getCommittedState (key : HashType) : HashType × StateDB :=
  s.readObject env addr zeroHash (·.getCommittedState env s.db key)

def hasSuicided : Bool × StateDB :=
  let (obj, s) := s.getStateObject env addr
  ((obj.map (·.suicided)).getD false, s)

def getLogs (hash : HashType) : List Log := (s.logs.lookup hash).getD []

end Getters

section Snapshots

def snapshot : Nat × StateDB :=
  (s.nextRevisionID,
    { s with
      nextRevisionID := s.nextRevisionID + 1
      validRevisions := s.validRevisions ++ [⟨s.nextRevisionID, s.entries.length⟩] })

def withObject (change : StateObject → StateObject) : Option StateDB :=
  match s.getStateObject env addr with
  | (none, _) => none
  | (some obj, s) => some (s.setStateObject (change obj))

def revertEntry (entry : JournalEntry) (s : StateDB) : Option StateDB :=
  match entry with
  | .createObject account =>
    some { s with
      stateObjects := s.stateObjects.erase account
      stateObjectsDirty := s.stateObjectsDirty.erase account }
  | .resetObject prev => some (s.setStateObject prev)
  | .suicide account prev prevbalance =>
    match s.getStateObject env account with
    | (none, s) => some s
    | (some obj, s) => some (s.setStateObject ({ obj with suicided := prev }.setBalance prevbalance))
  | .balance account prev => s.withObject env account (·.setBalance prev)
  | .nonce account prev => s.withObject env account (·.setNonce prev)
  | .storage account key prevalue => s.withObject env account (·.setState key prevalue)
  | .code account prevcode prevhash => s.withObject env account (·.setCode prevhash prevcode)
  | .refund prev => some { s with refund := prev }
  | .addLog txhash =>
    match s.getLogs txhash with
    | [] => none
    | [_] => some { s with logs := s.logs.erase txhash, logSize := s.logSize - 1 }
    | logs => some { s with logs := s.logs.insert txhash logs.dropLast, logSize := s.logSize - 1 }
  | .addPreimage hash => some { s with preimages := s.preimages.erase hash }
  | .touch _ => some s

def revertEntries : List JournalEntry → StateDB → Option StateDB
  | [], s => some s
  | entry :: rest, s => (revertEntry env entry s).bind fun s => revertEntries rest (s.clean entry)

/-- The revisions are sorted by id, so the search finds the first that is not smaller. -/
def revertToSnapshot (revid : Nat) : Option StateDB :=
  let idx := s.validRevisions.findIdx fun revision => revid ≤ revision.id
  match s.validRevisions[idx]? with
  | none => none
  | some revision =>
    if revision.id = revid then
      let newer := s.entries.length - revision.journalIndex
      (revertEntries env (s.entries.take newer) s).map fun reverted =>
        { reverted with entries := s.entries.drop newer, validRevisions := s.validRevisions.take idx }
    else none

end Snapshots

end StateDB

inductive Call where
  | addBalance (addr : AddressHash) (amount : Int)
  | subBalance (addr : AddressHash) (amount : Int)
  | setBalance (addr : AddressHash) (amount : Int)
  | setNonce (addr : AddressHash) (nonce : UInt64)
  | setCode (addr : AddressHash) (code : Option Bytes)
  | setState (addr : AddressHash) (key value : HashType)
  | suicide (addr : AddressHash)
  | createAccount (addr : AddressHash)
  | addLog (log : Log)
  | addRefund (gas : UInt64)
  | subRefund (gas : UInt64)
  | addPreimage (hash : HashType) (preimage : Bytes)
  | snapshot
  | revertToSnapshot (revid : Nat)
  | exist (addr : AddressHash)
  | getBalance (addr : AddressHash)
  | getNonce (addr : AddressHash)
  | getCode (addr : AddressHash)
  | getCodeHash (addr : AddressHash)
  | getState (addr : AddressHash) (key : HashType)
  | getCommittedState (addr : AddressHash) (key : HashType)
  | hasSuicided (addr : AddressHash)
  | getLogs (hash : HashType)
  | getRefund

inductive Reply where
  | done
  | panicked
  | flag (value : Bool)
  | number (value : Int)
  | counter (value : UInt64)
  | code (value : Option Bytes)
  | hash (value : HashType)
  | logs (value : List Log)
  | id (value : Nat)
  deriving DecidableEq

/-- A call, and how it ends. An unknown revision is refused before anything is changed. -/
def StateDB.perform (env : Env) (s : StateDB) : Call → Reply × StateDB
  | .addBalance addr amount => (.done, s.addBalance env addr amount)
  | .subBalance addr amount => (.done, s.subBalance env addr amount)
  | .setBalance addr amount => (.done, s.setBalance env addr amount)
  | .setNonce addr nonce => (.done, s.setNonce env addr nonce)
  | .setCode addr code => (.done, s.setCode env addr code)
  | .setState addr key value => (.done, s.setState env addr key value)
  | .suicide addr => (s.suicide env addr).map .flag id
  | .createAccount addr => (.done, s.createAccount env addr)
  | .addLog log => (.done, s.addLog log)
  | .addRefund gas => (.done, s.addRefund gas)
  | .subRefund gas => (s.subRefund gas).map (fun result => if result.isOk then .done else .panicked) id
  | .addPreimage hash preimage => (.done, s.addPreimage hash preimage)
  | .snapshot => s.snapshot.map .id id
  | .revertToSnapshot revid =>
    match s.revertToSnapshot env revid with
    | some reverted => (.done, reverted)
    | none => (.panicked, s)
  | .exist addr => (s.exist env addr).map .flag id
  | .getBalance addr => (s.getBalance env addr).map .number id
  | .getNonce addr => (s.getNonce env addr).map .counter id
  | .getCode addr => (s.getCode env addr).map .code id
  | .getCodeHash addr => (s.getCodeHash env addr).map .hash id
  | .getState addr key => (s.getState env addr key).map .hash id
  | .getCommittedState addr key => (s.getCommittedState env addr key).map .hash id
  | .hasSuicided addr => (s.hasSuicided env addr).map .flag id
  | .getLogs hash => (.logs (s.getLogs hash), s)
  | .getRefund => (.counter s.refund, s)

def StateDB.run (env : Env) (s : StateDB) (calls : List Call) : StateDB :=
  calls.foldl (fun s call => (s.perform env call).2) s

end Boxd.WorldState
