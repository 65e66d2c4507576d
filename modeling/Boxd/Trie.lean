import Boxd.Types
import Boxd.Lib.Wire
import Boxd.Lib.Appending
import Boxd.Lib.Patricia

/-! The Merkle Patricia trie. Nodes are kept under the hash of their encoding; a change
writes new ones and never removes one. The recursion along the hashes has fuel, and running
out of it is a panic like an index out of range. -/

namespace Boxd
open Lib

inductive TrieError where
  | nodeNotFound
  | invalidNodeType
  | invalidKeyPath
  | invalidMessage
  deriving DecidableEq

/-- A branch has the hashes of sixteen sub-nodes, an extension a path and the hash of the
next node, a leaf a path, a value and a terminator. -/
structure TrieNode where
  value : List Bytes
  deriving DecidableEq

namespace TrieNode

inductive Flag where
  | unknown
  | leaf
  | extension
  | branch
  deriving DecidableEq

def terminator : Bytes := [0]

def type (node : TrieNode) : Flag :=
  match node.value.length with
  | 3 => .leaf
  | 2 => .extension
  | 16 => .branch
  | _ => .unknown

def marshal (node : TrieNode) : Bytes := encodeWire (WireField.ofMessages 1 node.value)

def newEmptyBranchNode : TrieNode := ⟨List.replicate 16 []⟩

def newExtensionNode (key value : Bytes) : TrieNode := ⟨[key, value]⟩

def newLeafNode (key value : Bytes) : TrieNode := ⟨[key, value, terminator]⟩

def branchLen (node : TrieNode) : Nat := node.value.countP (· ≠ [])

end TrieNode

/-- The hash of the trie and the decoder of its nodes. -/
structure TrieEnv where
  sha3256 : Bytes → HashType
  unmarshal : Bytes → Option TrieNode
  unmarshal_marshal : ∀ node : TrieNode, unmarshal node.marshal = some node

/-- An entry of the node table. -/
structure TrieEnv.Put (env : TrieEnv) where
  hash : HashType
  nodeBin : Bytes
  hash_eq : hash = env.sha3256 nodeBin

structure Trie (env : TrieEnv) where
  rootHash : Option HashType
  db : List env.Put

namespace Trie

variable (env : TrieEnv)

abbrev Action := Appending env.Put TrieError

def bytesToHash (bytes : Bytes) : Option HashType := if bytes = [] then none else some (.setBytes 32 bytes)

def hashToBytes (hash : Option HashType) : Bytes := (hash.map (·.bytes)).getD []

def firstSubNodeHashInBranch (node : TrieNode) : Option HashType × Nat :=
  match node.value.findIdx? (· ≠ []) with
  | some index => (bytesToHash (node.value.getD index []), index)
  | none => (none, 0)

def commonPrefixes (old new : Bytes) : Outcome TrieError Bytes :=
  if old.length > new.length then .fail .invalidKeyPath else .ok (old.take (commonLength old new))

def keyToHex (key : Bytes) : Bytes := key.flatMap fun byte => [byte / 16, byte % 16]

section Nodes

variable {env}

def valueAt (node : TrieNode) (index : Nat) : Action env Bytes := .expect node.value[index]?

def setValueAt (node : TrieNode) (index : Nat) (value : Bytes) : Action env TrieNode :=
  if index < node.value.length then pure ⟨node.value.set index value⟩ else .panicked

def splitKey (key : Bytes) (index : Nat) : Action env (UInt8 × Bytes) :=
  match key.drop index with
  | [] => .panicked
  | first :: rest => pure (first, rest)

def getNode (hash : HashType) : Action env TrieNode := do
  let db ← Appending.read
  match db.find? (·.hash = hash) with
  | none => .fail .nodeNotFound
  | some put =>
    match env.unmarshal put.nodeBin with
    | none => .fail .invalidMessage
    | some node => pure node

def commit (node : TrieNode) : Action env HashType :=
  if node.type = .unknown then .fail .nodeNotFound
  else do
    .add ⟨env.sha3256 node.marshal, node.marshal, rfl⟩
    pure (env.sha3256 node.marshal)

end Nodes

variable {env}

def getValue : (fuel : Nat) → Option HashType → Bytes → Action env Bytes
  | _, none, _ => .fail .nodeNotFound
  | 0, some _, _ => .panicked
  | fuel + 1, some hash, key => do
    let root ← getNode hash
    match root.type with
    | .unknown => .fail .nodeNotFound
    | .branch =>
      let (first, rest) ← splitKey key 0
      let subNode ← valueAt root first.toNat
      getValue fuel (bytesToHash subNode) rest
    | .leaf =>
      let path ← valueAt root 0
      let prefixs ← .lift (commonPrefixes path key)
      if prefixs.length ≠ path.length ∨ prefixs.length ≠ key.length then .fail .nodeNotFound
      else valueAt root 1
    | .extension =>
      let path ← valueAt root 0
      let prefixs ← .lift (commonPrefixes path key)
      let next ← valueAt root 1
      -- That the key follows the whole path is not checked here.
      getValue fuel (bytesToHash next) (key.drop prefixs.length)

/-- The end of a split: a branch with two sub-nodes, below an extension if they share a path. -/
def commitFork (prefixs : Bytes) (old : UInt8) (oldHash : Bytes) (new : UInt8) (newHash : Bytes) :
    Action env HashType := do
  let branch ← setValueAt .newEmptyBranchNode old.toNat oldHash
  let branch ← setValueAt branch new.toNat newHash
  let branchHash ← commit branch
  if prefixs.length = 0 then pure branchHash else commit (.newExtensionNode prefixs branchHash.bytes)

def updateNode (value : Bytes) : (fuel : Nat) → Option HashType → Bytes → Action env HashType
  | _, none, key => commit (.newLeafNode key value)
  | 0, some _, _ => .panicked
  | fuel + 1, some hash, key => do
    let root ← getNode hash
    match root.type with
    | .unknown => .fail .nodeNotFound
    | .branch =>
      let (first, rest) ← splitKey key 0
      let subNode ← valueAt root first.toNat
      let hash ← updateNode value fuel (bytesToHash subNode) rest
      let root ← setValueAt root first.toNat hash.bytes
      commit root
    | .leaf =>
      let path ← valueAt root 0
      let prefixs ← .lift (commonPrefixes path key)
      if prefixs.length = path.length then do
        let root ← setValueAt root 1 value
        commit root
      else
        let (old, pathRest) ← splitKey path prefixs.length
        let oldValue ← valueAt root 1
        let oldLeafHash ← commit (.newLeafNode pathRest oldValue)
        let (new, keyRest) ← splitKey key prefixs.length
        let newLeafHash ← commit (.newLeafNode keyRest value)
        commitFork prefixs old oldLeafHash.bytes new newLeafHash.bytes
    | .extension =>
      let path ← valueAt root 0
      let prefixs ← .lift (commonPrefixes path key)
      let next ← valueAt root 1
      if prefixs.length = path.length then do
        let hash ← updateNode value fuel (bytesToHash next) (key.drop prefixs.length)
        let root ← setValueAt root 1 hash.bytes
        commit root
      else
        let (new, keyRest) ← splitKey key prefixs.length
        let newLeafHash ← commit (.newLeafNode keyRest value)
        let (old, pathRest) ← splitKey path prefixs.length
        if prefixs.length = path.length - 1 then commitFork prefixs old next new newLeafHash.bytes
        else do
          let extensionHash ← commit (.newExtensionNode pathRest next)
          commitFork prefixs old extensionHash.bytes new newLeafHash.bytes

def collapseBranch (root : TrieNode) : Action env (Option HashType) :=
  if root.branchLen = 1 then do
    let subHash ← .expect (firstSubNodeHashInBranch root).1
    let index := UInt8.ofNat (firstSubNodeHashInBranch root).2
    let subNode ← getNode subHash
    match subNode.type with
    | .leaf =>
      let path ← valueAt subNode 0
      let newNode ← setValueAt subNode 0 (index :: path)
      some <$> commit newNode
    | .branch => some <$> commit (.newExtensionNode [index] subHash.bytes)
    | .extension =>
      let path ← valueAt subNode 0
      let next ← valueAt subNode 1
      some <$> commit (.newExtensionNode (index :: path) next)
    | .unknown => .fail .invalidNodeType
  else some <$> commit root

def deleteNode : (fuel : Nat) → Option HashType → Bytes → Action env (Option HashType)
  | _, none, _ => .fail .nodeNotFound
  | 0, some _, _ => .panicked
  | fuel + 1, some hash, key => do
    let root ← getNode hash
    match root.type with
    | .unknown => .fail .invalidNodeType
    | .leaf =>
      let path ← valueAt root 0
      match commonPrefixes path key with
      | .error _ => .fail .nodeNotFound
      | .ok prefixs =>
        if prefixs.length ≠ path.length ∨ prefixs.length ≠ key.length then .fail .nodeNotFound
        else pure none
    | .branch =>
      let (first, rest) ← splitKey key 0
      let subNode ← valueAt root first.toNat
      let newHash ← deleteNode fuel (bytesToHash subNode) rest
      let root ← setValueAt root first.toNat (hashToBytes newHash)
      collapseBranch root
    | .extension =>
      let path ← valueAt root 0
      match commonPrefixes path key with
      | .error _ => .fail .nodeNotFound
      | .ok prefixs =>
        let next ← valueAt root 1
        let newHash ← deleteNode fuel (bytesToHash next) (key.drop prefixs.length)
        match newHash with
        | none => pure none
        | some newHash =>
          -- The error of this read is not looked at, and the node is used.
          let subNode ← (getNode newHash).orPanic
          match subNode.type with
          | .unknown => .fail .invalidNodeType
          | .branch => do
            let newNode ← setValueAt root 1 newHash.bytes
            some <$> commit newNode
          | _ => do
            let subPath ← valueAt subNode 0
            let newNode ← setValueAt subNode 0 (path ++ subPath)
            some <$> commit newNode

def fuelFor (key : Bytes) : Nat := key.length + 1

def empty : Trie env := ⟨none, []⟩

def get (trie : Trie env) (key : Bytes) : Outcome TrieError (Option Bytes) :=
  match (getValue (fuelFor (keyToHex key)) trie.rootHash (keyToHex key) trie.db).1 with
  | .error (.error .nodeNotFound) => .ok none
  | result => result.map some

def changeRoot (trie : Trie env) (key value : Bytes) : Action env (Option HashType) :=
  let hex := keyToHex key
  if value.length ≠ 0 then some <$> updateNode value (fuelFor hex) trie.rootHash hex
  else deleteNode (fuelFor hex) trie.rootHash hex

/-- A failed call may have written nodes, but it leaves the root. -/
def update (trie : Trie env) (key value : Bytes) : Outcome TrieError Unit × Trie env :=
  match trie.changeRoot key value trie.db with
  | (.ok rootHash, puts) => (.ok (), ⟨rootHash, puts ++ trie.db⟩)
  | (.error fault, puts) => (.error fault, ⟨trie.rootHash, puts ++ trie.db⟩)

def delete (trie : Trie env) (key : Bytes) : Outcome TrieError Unit × Trie env := trie.update key []

end Trie

end Boxd
