import Mathlib.Data.List.FinRange
import Boxd.Trie

/-! The tree that a table of nodes stands for. Reading and changing the nodes refines
lookup, insertion and deletion in a canonical Patricia tree over half bytes. -/

namespace Boxd.Trie
open Lib Lib.Patricia Lib.Patricia.Tree List Function
open Lib.Appending (pure_bind_eq lift_ok)

abbrev Nibble := Fin 16

variable {tree : Tree Nibble Bytes} {node : TrieNode} {n fuel : Nat} {key : List Nibble}
  {children : Nibble → Tree Nibble Bytes}

def Nibble.byte (nibble : Nibble) : UInt8 := UInt8.ofNat nibble

theorem Nibble.byte_injective : Injective Nibble.byte := by decide

theorem Nibble.byte_toNat (nibble : Nibble) : nibble.byte.toNat = nibble := by
  have small := nibble.isLt
  simp only [Nibble.byte, UInt8.toNat_ofNat']
  omega

def hex (path : List Nibble) : Bytes := path.map Nibble.byte

@[simp] theorem hex_length (path : List Nibble) : (hex path).length = path.length := length_map _

theorem hex_injective : Injective hex := map_injective_iff.mpr Nibble.byte_injective

variable {env : TrieEnv}

section Nodes

variable (env)

def treeHash : Tree Nibble Bytes → Option HashType
  | .empty => none
  | .leaf path value => some (env.sha3256 (TrieNode.newLeafNode (hex path) value).marshal)
  | .ext path child =>
    some (env.sha3256 (TrieNode.newExtensionNode (hex path) (hashToBytes (treeHash child))).marshal)
  | .branch children =>
    some (env.sha3256 (TrieNode.mk (ofFn fun i => hashToBytes (treeHash (children i)))).marshal)

def treeNode : Tree Nibble Bytes → TrieNode
  | .empty => ⟨[]⟩
  | .leaf path value => .newLeafNode (hex path) value
  | .ext path child => .newExtensionNode (hex path) (hashToBytes (treeHash env child))
  | .branch children => ⟨ofFn fun i => hashToBytes (treeHash env (children i))⟩

theorem treeHash_eq (tree : Tree Nibble Bytes) (filled : tree ≠ .empty) :
    treeHash env tree = some (env.sha3256 (treeNode env tree).marshal) := by
  cases tree with
  | empty => exact absurd rfl filled
  | leaf path value => rfl
  | ext path child => rfl
  | branch children => simp [treeHash, treeNode]

theorem treeHash_eq_none : treeHash env tree = none ↔ tree = .empty := by
  constructor
  · intro missing
    by_contra filled
    rw [treeHash_eq env tree filled] at missing
    cases missing
  · rintro rfl
    rfl

end Nodes

@[simp] theorem bytesToHash_hashToBytes (hash : Option HashType) : bytesToHash (hashToBytes hash) = hash := by
  cases hash with
  | none => rfl
  | some hash =>
    have filled : hash.bytes ≠ [] := by
      intro empty
      have length := hash.length_eq
      rw [empty] at length
      cases length
    simp [hashToBytes, bytesToHash, filled, FixedBytes.setBytes_bytes]

theorem hashToBytes_injective : Injective hashToBytes :=
  LeftInverse.injective bytesToHash_hashToBytes

theorem hashToBytes_eq_nil {hash : Option HashType} : hashToBytes hash = [] ↔ hash = none :=
  hashToBytes_injective.eq_iff' rfl

theorem marshal_injective : Injective TrieNode.marshal := by
  intro left right same
  have values := WireField.ofMessages_inj (encodeWire_injective same)
  cases left
  cases right
  cases values
  rfl

def Stored (db : List env.Put) (node : TrieNode) : Prop := ∃ put ∈ db, put.nodeBin = node.marshal

inductive Held (db : List env.Put) : Tree Nibble Bytes → Prop
  | empty : Held db .empty
  | leaf {path : List Nibble} {value : Bytes} (stored : Stored db (treeNode env (.leaf path value))) :
    Held db (.leaf path value)
  | ext {path : List Nibble} {child : Tree Nibble Bytes} (stored : Stored db (treeNode env (.ext path child)))
    (below : Held db child) : Held db (.ext path child)
  | branch {children : Nibble → Tree Nibble Bytes} (stored : Stored db (treeNode env (.branch children)))
    (below : ∀ i, Held db (children i)) : Held db (.branch children)

/-- No two encodings among the entries have the same hash. -/
def Apart (allowed : Set env.Put) : Prop :=
  ∀ left ∈ allowed, ∀ right ∈ allowed, left.hash = right.hash → left.nodeBin = right.nodeBin

theorem Stored.mono {db more : List env.Put} (grows : db ⊆ more) (stored : Stored db node) : Stored more node := by
  obtain ⟨put, member, same⟩ := stored
  exact ⟨put, grows member, same⟩

theorem Held.mono {db more : List env.Put} (grows : db ⊆ more) (held : Held db tree) : Held more tree := by
  induction held with
  | empty => exact .empty
  | leaf stored => exact .leaf (stored.mono grows)
  | ext stored _ below => exact .ext (stored.mono grows) below
  | branch stored _ below => exact .branch (stored.mono grows) below

theorem Held.stored {db : List env.Put} (held : Held db tree) (filled : tree ≠ .empty) :
    Stored db (treeNode env tree) := by
  cases held with
  | empty => exact absurd rfl filled
  | leaf stored => exact stored
  | ext stored _ => exact stored
  | branch stored _ => exact stored

theorem Held.update {db : List env.Put} {child : Tree Nibble Bytes} (changed : Held db child)
    (below : ∀ i, Held db (children i)) (i j : Nibble) : Held db (Function.update children i child j) := by
  rw [update_apply]
  split
  · exact changed
  · exact below j

section Steps

variable {allowed : Set env.Put} {db : List env.Put}

theorem getNode_ends (apart : Apart allowed) (stored : Stored db node) :
    (getNode (env.sha3256 node.marshal)).Ends allowed db (.ok node) (· = db) := by
  apply Appending.Ends.of_start
  intro within
  obtain ⟨put, member, same⟩ := stored
  have hash : put.hash = env.sha3256 node.marshal := by rw [put.hash_eq, same]
  refine .bind (.read rfl) ?_
  rintro _ rfl
  split
  · next missing =>
    have differs := find?_eq_none.mp missing put member
    simp [hash] at differs
  · next found at_ =>
    have equal : found.hash = env.sha3256 node.marshal := by simpa using find?_some at_
    have bin := apart found (within _ (mem_of_find?_eq_some at_)) put (within _ member) (equal.trans hash.symm)
    rw [bin, same, env.unmarshal_marshal]
    exact .pure rfl

theorem commit_ends (known : node.type ≠ .unknown) :
    (commit node).Ends allowed db (.ok (env.sha3256 node.marshal)) fun final => Stored final node := by
  rw [commit, if_neg known]
  refine .bind (.add fun _ => rfl) ?_
  rintro _ rfl
  exact .pure ⟨_, mem_cons_self, rfl⟩

@[simp] theorem type_leaf (path : List Nibble) (value : Bytes) : (treeNode env (.leaf path value)).type = .leaf := rfl

@[simp] theorem type_ext (path : List Nibble) (child : Tree Nibble Bytes) :
    (treeNode env (.ext path child)).type = .extension := rfl

@[simp] theorem type_branch (children : Nibble → Tree Nibble Bytes) : (treeNode env (.branch children)).type = .branch := by
  simp [treeNode, TrieNode.type]

@[simp] theorem valueAt_leaf_path (path : List Nibble) (value : Bytes) :
    valueAt (treeNode env (.leaf path value)) 0 = (pure (hex path) : Action env Bytes) := rfl

@[simp] theorem valueAt_leaf_value (path : List Nibble) (value : Bytes) :
    valueAt (treeNode env (.leaf path value)) 1 = (pure value : Action env Bytes) := rfl

@[simp] theorem valueAt_ext_path (path : List Nibble) (child : Tree Nibble Bytes) :
    valueAt (treeNode env (.ext path child)) 0 = (pure (hex path) : Action env Bytes) := rfl

@[simp] theorem valueAt_ext_next (path : List Nibble) (child : Tree Nibble Bytes) :
    valueAt (treeNode env (.ext path child)) 1 = (pure (hashToBytes (treeHash env child)) : Action env Bytes) := rfl

@[simp] theorem valueAt_branch (children : Nibble → Tree Nibble Bytes) (i : Nibble) :
    valueAt (treeNode env (.branch children)) i.byte.toNat =
      (pure (hashToBytes (treeHash env (children i))) : Action env Bytes) := by
  rw [valueAt, treeNode, Nibble.byte_toNat, List.getElem?_ofFn, dif_pos i.isLt]
  rfl

@[simp] theorem splitKey_append (front : List Nibble) (i : Nibble) (rest : List Nibble) :
    splitKey (hex (front ++ i :: rest)) front.length = (pure (i.byte, hex rest) : Action env (UInt8 × Bytes)) := by
  simp [splitKey, hex]

@[simp] theorem splitKey_cons (i : Nibble) (rest : List Nibble) :
    splitKey (hex (i :: rest)) 0 = (pure (i.byte, hex rest) : Action env (UInt8 × Bytes)) := rfl

@[simp] theorem drop_hex (front rest : List Nibble) : (hex (front ++ rest)).drop front.length = hex rest := by
  simp [hex]

@[simp] theorem commonPrefixes_append (path tail : List Nibble) :
    commonPrefixes (hex path) (hex (path ++ tail)) = .ok (hex path) := by
  rw [commonPrefixes, if_neg (by simp)]
  simp [hex]

theorem commonPrefixes_part {a b : Nibble} (differ : a ≠ b) (front rest tail : List Nibble)
    (short : (front ++ a :: rest).length ≤ (front ++ b :: tail).length) :
    commonPrefixes (hex (front ++ a :: rest)) (hex (front ++ b :: tail)) = .ok (hex front) := by
  rw [commonPrefixes, if_neg (by simpa using short)]
  unfold hex
  rw [commonLength_map Nibble.byte_injective, commonLength_part differ, ← map_take, take_left]

end Steps

section Get

variable {allowed : Set env.Put} {db : List env.Put}

theorem valueAt_silent (node : TrieNode) (index : Nat) : (valueAt node index : Action env Bytes).Silent := .lift _

theorem splitKey_silent (key : Bytes) (index : Nat) : (splitKey key index : Action env (UInt8 × Bytes)).Silent := by
  unfold splitKey
  split
  · exact .lift _
  · exact .pure _

theorem getNode_silent (hash : HashType) : (getNode hash : Action env TrieNode).Silent := by
  refine .bind .read fun db => ?_
  split
  · exact .lift _
  · split
    · exact .lift _
    · exact .pure _

theorem getValue_silent (fuel : Nat) (hash : Option HashType) (key : Bytes) :
    (getValue fuel hash key : Action env Bytes).Silent := by
  induction fuel generalizing hash key with
  | zero => cases hash <;> exact .lift _
  | succ fuel next =>
    cases hash with
    | none => exact .lift _
    | some hash =>
      refine .bind (getNode_silent hash) fun root => ?_
      split
      · exact .lift _
      · exact .bind (splitKey_silent _ _) fun _ => .bind (valueAt_silent _ _) fun _ => next _ _
      · refine .bind (valueAt_silent _ _) fun path => .bind (.lift _) fun prefixs => ?_
        split
        · exact .lift _
        · exact valueAt_silent _ _
      · exact .bind (valueAt_silent _ _) fun _ => .bind (.lift _) fun _ => .bind (valueAt_silent _ _) fun _ => next _ _

/-- Reading finds what the tree holds. A key longer than those of the tree can be asked for,
since an extension does not check that the key follows its path. -/
theorem getValue_ends (apart : Apart allowed) (canonical : Canonical n tree)
    (held : Held db tree) (enough : n < fuel) (long : n ≤ key.length) :
    (getValue fuel (treeHash env tree) (hex key)).Ends allowed db (Outcome.orFail .nodeNotFound (tree.lookup key))
      (· = db) := by
  induction canonical generalizing fuel key with
  | empty => cases fuel <;> exact .fail rfl
  | @leaf path value =>
    obtain ⟨fuel, rfl⟩ := Nat.exists_eq_add_of_lt enough
    rw [treeHash_eq env (.leaf path value) leaf_ne, getValue]
    refine .bind (getNode_ends apart (held.stored leaf_ne)) ?_
    rintro _ rfl
    rw [lookup_leaf]
    simp only [type_leaf, valueAt_leaf_path, valueAt_leaf_value, pure_bind_eq]
    rcases path_or_part long with ⟨tail, rfl⟩ | ⟨front, a, rest, b, tail, rfl, rfl, differ⟩
    · simp only [commonPrefixes_append, lift_ok, pure_bind_eq, hex_length]
      cases tail with
      | nil =>
        simp only [append_nil, ne_eq, not_true_eq_false, or_self, if_false, if_true]
        exact .pure rfl
      | cons i tail =>
        rw [if_pos (by simp), if_neg (by simp)]
        exact .fail rfl
    · simp only [commonPrefixes_part differ _ _ _ long, lift_ok, pure_bind_eq, hex_length]
      rw [if_pos (by simp), if_neg (by simp [differ.symm])]
      exact .fail rfl
  | @ext n path children longPath below next =>
    obtain ⟨fuel, rfl⟩ := Nat.exists_eq_add_of_lt enough
    cases held with
    | ext stored inner =>
      rw [treeHash_eq env (.ext path (.branch children)) ext_ne, getValue]
      refine .bind (getNode_ends apart stored) ?_
      rintro _ rfl
      have short : path.length ≤ key.length := by omega
      have positive := length_pos_iff.mpr longPath
      simp only [type_ext, valueAt_ext_path, valueAt_ext_next, pure_bind_eq]
      rcases path_or_part short with ⟨tail, rfl⟩ | ⟨front, a, rest, b, tail, rfl, rfl, differ⟩
      · simp only [commonPrefixes_append, lift_ok, pure_bind_eq, hex_length,
          bytesToHash_hashToBytes, drop_hex, lookup_ext_append]
        exact next inner (by omega) (by simpa using long)
      · simp only [commonPrefixes_part differ _ _ _ short, lift_ok, pure_bind_eq, hex_length,
          bytesToHash_hashToBytes, drop_hex]
        obtain ⟨longer, missing⟩ := below.lookup_longer long
        have absent : (Tree.ext (front ++ a :: rest) (.branch children)).lookup (front ++ b :: tail) = none := by
          apply under_of_ne
          simp [differ.symm]
        rw [absent, ← missing]
        exact next inner (by omega) longer
  | @branch n children below several next =>
    obtain ⟨fuel, rfl⟩ := Nat.exists_eq_add_of_lt enough
    cases held with
    | branch stored inner =>
      rw [treeHash_eq env (.branch children) branch_ne, getValue]
      refine .bind (getNode_ends apart stored) ?_
      rintro _ rfl
      cases key with
      | nil => simp at long
      | cons i tail =>
        simp only [type_branch, splitKey_cons, pure_bind_eq, valueAt_branch, bytesToHash_hashToBytes,
          lookup_branch_cons]
        exact next i (inner i) (by omega) (by simpa using long)

end Get

section Update

variable {allowed : Set env.Put} {db : List env.Put}

theorem hash_bytes (tree : Tree Nibble Bytes) (filled : tree ≠ .empty) :
    (env.sha3256 (treeNode env tree).marshal).bytes = hashToBytes (treeHash env tree) := by
  rw [treeHash_eq env tree filled]
  rfl

theorem type_ne_unknown (filled : tree ≠ .empty) : (treeNode env tree).type ≠ .unknown := by
  cases tree with
  | empty => exact absurd rfl filled
  | leaf path value => exact nofun
  | ext path child => exact nofun
  | branch children =>
    exact nofun

theorem commit_held (tree : Tree Nibble Bytes) (filled : tree ≠ .empty)
    (above : ∀ final, db ⊆ final → Stored final (treeNode env tree) → Held final tree) :
    (commit (treeNode env tree)).Ends allowed db (.ok (env.sha3256 (treeNode env tree).marshal))
      fun final => Held final tree := by
  apply (commit_ends (type_ne_unknown filled)).grown.mono
  rintro final ⟨grows, stored⟩
  exact above final grows stored

theorem commit_leaf (path : List Nibble) (value : Bytes) : (commit (.newLeafNode (hex path) value)).Ends allowed db
      (.ok (env.sha3256 (treeNode env (.leaf path value)).marshal)) fun final => Held final (.leaf path value) :=
  commit_held (.leaf path value) leaf_ne fun _ _ stored => .leaf stored

theorem commit_ext (path : List Nibble) {child : Tree Nibble Bytes} (below : Held db child) :
    (commit (.newExtensionNode (hex path) (hashToBytes (treeHash env child)))).Ends allowed db
      (.ok (env.sha3256 (treeNode env (.ext path child)).marshal)) fun final => Held final (.ext path child) :=
  commit_held (.ext path child) ext_ne fun _ grows stored => .ext stored (below.mono grows)

theorem commit_branch (below : ∀ i, Held db (children i)) : (commit (treeNode env (.branch children))).Ends allowed db
      (.ok (env.sha3256 (treeNode env (.branch children)).marshal)) fun final => Held final (.branch children) :=
  commit_held (.branch children) branch_ne fun _ grows stored => .branch stored fun i => (below i).mono grows

theorem setValueAt_branch (children : Nibble → Tree Nibble Bytes) (i : Nibble) (child : Tree Nibble Bytes) :
    setValueAt (treeNode env (.branch children)) i.byte.toNat (hashToBytes (treeHash env child)) =
      (pure (treeNode env (.branch (Function.update children i child))) : Action env TrieNode) := by
  rw [setValueAt, Nibble.byte_toNat, if_pos (by simp only [treeNode, length_ofFn, i.isLt])]
  congr 2
  apply ext_getElem
  · simp only [treeNode, length_set, length_ofFn]
  · intro j inside _
    simp only [treeNode, getElem_set, List.getElem_ofFn]
    by_cases same : i.val = j
    · subst same
      simp
    · have other : (⟨j, by simpa [treeNode] using inside⟩ : Nibble) ≠ i := fun equal => same (congrArg Fin.val equal).symm
      rw [if_neg same, update_of_ne other]

theorem newEmptyBranchNode_eq (env : TrieEnv) : TrieNode.newEmptyBranchNode = treeNode env (.branch fun _ => .empty) := rfl

theorem fork_eq (a : Nibble) (left : Tree Nibble Bytes) (b : Nibble) (right : Tree Nibble Bytes) :
    fork a left b right = .branch (Function.update (Function.update (fun _ => .empty) a left) b right) := by
  unfold fork
  congr 1
  funext i
  simp [Function.update_apply]

theorem commitFork_ends {left right : Tree Nibble Bytes} (front : List Nibble) (a b : Nibble) (ofLeft : Held db left)
    (ofRight : Held db right) :
    (commitFork (hex front) a.byte (hashToBytes (treeHash env left)) b.byte (hashToBytes (treeHash env right))).Ends
      allowed db (.ok (env.sha3256 (treeNode env (wrap front (fork a left b right))).marshal))
      fun final => Held final (wrap front (fork a left b right)) := by
  have below := ofRight.update (ofLeft.update (fun _ => .empty) a) b
  unfold commitFork
  simp only [newEmptyBranchNode_eq env, setValueAt_branch, pure_bind_eq, hex_length, fork_eq]
  refine .bind (commit_branch below) ?_
  intro grown held
  unfold wrap
  by_cases short : front = []
  · simp only [short, length_nil, if_true]
    exact .pure held
  · simp only [length_eq_zero_iff, short, if_false]
    exact commit_ext front held

theorem updateNode_ends (apart : Apart allowed) (canonical : Canonical n tree)
    (held : Held db tree) (enough : n < fuel) (length : key.length = n) (value : Bytes) :
    (updateNode value fuel (treeHash env tree) (hex key)).Ends allowed db
      (.ok (env.sha3256 (treeNode env (tree.insert value key)).marshal))
      fun final => Held final (tree.insert value key) := by
  induction canonical generalizing fuel key db with
  | empty =>
    cases fuel <;> exact commit_leaf key value
  | @leaf path old =>
    obtain ⟨fuel, rfl⟩ := Nat.exists_eq_add_of_lt enough
    rw [treeHash_eq env (.leaf path old) leaf_ne, updateNode]
    refine .bind (getNode_ends apart (held.stored leaf_ne)) ?_
    rintro _ rfl
    simp only [type_leaf, valueAt_leaf_path, valueAt_leaf_value, pure_bind_eq]
    rcases path_or_part length.ge with ⟨tail, rfl⟩ | ⟨front, a, rest, b, tail, rfl, rfl, differ⟩
    · obtain rfl : tail = [] := by
        rw [length_append] at length
        exact length_eq_zero_iff.mp (by omega)
      simp only [commonPrefixes_append, lift_ok, pure_bind_eq, if_true]
      rw [append_nil, insert_leaf_same]
      exact commit_leaf path value
    · simp only [commonPrefixes_part differ _ _ _ length.ge, lift_ok, pure_bind_eq, hex_length,
        splitKey_append]
      rw [if_neg (by simp), insert_leaf_part differ]
      refine .bind (commit_leaf rest old) ?_
      intro grown first
      refine .bind (commit_leaf tail value).grown ?_
      rintro more ⟨grows, second⟩
      rw [hash_bytes (.leaf rest old) leaf_ne, hash_bytes (.leaf tail value) leaf_ne]
      exact commitFork_ends front a b (first.mono grows) second
  | @ext n path children long below next =>
    obtain ⟨fuel, rfl⟩ := Nat.exists_eq_add_of_lt enough
    cases held with
    | ext stored inner =>
      rw [treeHash_eq env (.ext path (.branch children)) ext_ne, updateNode]
      refine .bind (getNode_ends apart stored) ?_
      rintro _ rfl
      have short : path.length ≤ key.length := by omega
      have positive := length_pos_iff.mpr long
      simp only [type_ext, valueAt_ext_path, valueAt_ext_next, pure_bind_eq]
      rcases path_or_part short with ⟨tail, rfl⟩ | ⟨front, a, rest, b, tail, rfl, rfl, differ⟩
      · simp only [commonPrefixes_append, lift_ok, pure_bind_eq, hex_length,
          bytesToHash_hashToBytes, drop_hex, if_true]
        have tailLength : tail.length = n := by simpa using length
        refine .bind (next inner (by omega) tailLength) ?_
        intro grown changed
        rw [hash_bytes _ (insert_ne_empty _ _ _), insert_ext_path]
        exact commit_ext path changed
      · simp only [commonPrefixes_part differ _ _ _ short, lift_ok, pure_bind_eq, hex_length,
          splitKey_append]
        rw [if_neg (by simp), insert_ext_part differ]
        refine .bind (commit_leaf tail value).grown ?_
        rintro grown ⟨grows, new⟩
        rw [hash_bytes (.leaf tail value) leaf_ne]
        by_cases last : rest = []
        · rw [if_pos (by simp [last]), last]
          exact commitFork_ends front a b (inner.mono grows) new
        · have more := length_pos_iff.mpr last
          rw [if_neg (by simp; omega)]
          have wrapped : wrap rest (Tree.branch children) = .ext rest (.branch children) := if_neg last
          refine .bind (commit_ext rest (inner.mono grows)).grown ?_
          rintro final ⟨again, old⟩
          rw [hash_bytes (.ext rest (.branch children)) ext_ne, wrapped]
          exact commitFork_ends front a b old (new.mono again)
  | @branch n children below several next =>
    obtain ⟨fuel, rfl⟩ := Nat.exists_eq_add_of_lt enough
    cases held with
    | branch stored inner =>
      rw [treeHash_eq env (.branch children) branch_ne, updateNode]
      refine .bind (getNode_ends apart stored) ?_
      rintro _ rfl
      cases key with
      | nil => simp at length
      | cons i tail =>
        simp only [type_branch, splitKey_cons, pure_bind_eq, valueAt_branch, bytesToHash_hashToBytes]
        refine .bind (next i (inner i) (by omega) (by simpa using length)).grown ?_
        rintro grown ⟨grows, changed⟩
        rw [hash_bytes _ (insert_ne_empty _ _ _), setValueAt_branch, pure_bind_eq, insert_branch_cons]
        exact commit_branch (changed.update (fun j => (inner j).mono grows) i)

end Update

section Delete

variable {allowed : Set env.Put} {db : List env.Put}

/-- Deleting a key that the tree does not hold fails, and writes nothing. -/
theorem deleteNode_missing (apart : Apart allowed) (canonical : Canonical n tree)
    (held : Held db tree) (enough : n < fuel) (long : n ≤ key.length)
    (missing : tree.lookup key = none) :
    (deleteNode fuel (treeHash env tree) (hex key)).Ends allowed db (.error (.error .nodeNotFound)) (· = db) := by
  induction canonical generalizing fuel key with
  | empty => cases fuel <;> exact .fail rfl
  | @leaf path value =>
    obtain ⟨fuel, rfl⟩ := Nat.exists_eq_add_of_lt enough
    rw [treeHash_eq env (.leaf path value) leaf_ne, deleteNode]
    refine .bind (getNode_ends apart (held.stored leaf_ne)) ?_
    rintro _ rfl
    simp only [type_leaf, valueAt_leaf_path, pure_bind_eq]
    rcases path_or_part long with ⟨tail, rfl⟩ | ⟨front, a, rest, b, tail, rfl, rfl, differ⟩
    · have more : tail ≠ [] := by
        rintro rfl
        simp [lookup_leaf] at missing
      simp only [commonPrefixes_append, hex_length]
      rw [if_pos (by simpa using more)]
      exact .fail rfl
    · simp only [commonPrefixes_part differ _ _ _ long, hex_length]
      rw [if_pos (by simp)]
      exact .fail rfl
  | @ext n path children longPath below next =>
    obtain ⟨fuel, rfl⟩ := Nat.exists_eq_add_of_lt enough
    cases held with
    | ext stored inner =>
      rw [treeHash_eq env (.ext path (.branch children)) ext_ne, deleteNode]
      refine .bind (getNode_ends apart stored) ?_
      rintro _ rfl
      have short : path.length ≤ key.length := by omega
      have positive := length_pos_iff.mpr longPath
      simp only [type_ext, valueAt_ext_path, valueAt_ext_next, pure_bind_eq]
      rcases path_or_part short with ⟨tail, rfl⟩ | ⟨front, a, rest, b, tail, rfl, rfl, differ⟩
      · simp only [commonPrefixes_append, hex_length, bytesToHash_hashToBytes, drop_hex]
        rw [lookup_ext_append] at missing
        exact (next inner (by omega) (by simpa using long) missing).bind_error
      · simp only [commonPrefixes_part differ _ _ _ short, hex_length, bytesToHash_hashToBytes, drop_hex]
        obtain ⟨longer, absent⟩ := below.lookup_longer long
        exact (next inner (by omega) longer absent).bind_error
  | @branch n children below several next =>
    obtain ⟨fuel, rfl⟩ := Nat.exists_eq_add_of_lt enough
    cases held with
    | branch stored inner =>
      rw [treeHash_eq env (.branch children) branch_ne, deleteNode]
      refine .bind (getNode_ends apart stored) ?_
      rintro _ rfl
      cases key with
      | nil => simp at long
      | cons i tail =>
        simp only [type_branch, splitKey_cons, pure_bind_eq, valueAt_branch, bytesToHash_hashToBytes]
        rw [lookup_branch_cons] at missing
        exact (next i (inner i) (by omega) (by simpa using long) missing).bind_error

private theorem countP_finRange_eq_one (holds : Fin n → Bool) :
    (finRange n).countP holds = 1 ↔ ∃ i, holds i = true ∧ ∀ j ≠ i, holds j = false := by
  rw [countP_eq_length_filter, List.length_eq_one_iff]
  constructor
  · rintro ⟨i, only⟩
    have member (j : Fin n) : holds j = true ↔ j = i := by
      have listed : j ∈ (finRange n).filter holds ↔ j ∈ [i] := by rw [only]
      simpa using listed
    refine ⟨i, (member i).mpr rfl, ?_⟩
    intro j other
    simpa using fun holds => other ((member j).mp holds)
  · rintro ⟨i, first, others⟩
    refine ⟨i, perm_singleton.mp ?_⟩
    rw [perm_ext_iff_of_nodup ((nodup_finRange n).filter _) (nodup_singleton i)]
    intro j
    by_cases same : j = i
    · simp [same, first]
    · simp [same, others j same]

theorem branchLen_eq_one_iff :
    (treeNode env (.branch children)).branchLen = 1 ↔ ∃ i, children i ≠ .empty ∧ ∀ j ≠ i, children j = .empty := by
  rw [TrieNode.branchLen, treeNode, ofFn_eq_map, countP_map, countP_finRange_eq_one]
  simp [hashToBytes_eq_nil, treeHash_eq_none]

theorem firstSubNode_eq {i : Nibble} (filled : children i ≠ .empty) (only : ∀ j ≠ i, children j = .empty) :
    firstSubNodeHashInBranch (treeNode env (.branch children)) = (treeHash env (children i), i.val) := by
  have at_ : (treeNode env (.branch children)).value.findIdx? (· ≠ []) = some i.val := by
    rw [findIdx?_eq_some_iff_getElem]
    refine ⟨by simp only [treeNode, length_ofFn, i.isLt], ?_, ?_⟩
    · simp only [treeNode, List.getElem_ofFn]
      rw [decide_eq_true_eq, ne_eq, hashToBytes_eq_nil, treeHash_eq_none]
      exact filled
    · intro j before
      have other : (⟨j, before.trans i.isLt⟩ : Nibble) ≠ i := fun same => before.ne (congrArg Fin.val same)
      simp only [treeNode, List.getElem_ofFn, only _ other]
      exact nofun
  have value : (treeNode env (.branch children)).value.getD i.val [] = hashToBytes (treeHash env (children i)) := by
    simp only [treeNode, getD_eq_getElem?_getD, List.getElem?_ofFn, i.isLt, dif_pos, Option.getD_some]
  simp only [firstSubNodeHashInBranch, at_, value, bytesToHash_hashToBytes]

@[simp] theorem setValueAt_leaf_path (path rest : List Nibble) (value : Bytes) :
    setValueAt (treeNode env (.leaf rest value)) 0 (hex path ++ hex rest) =
      (pure (.newLeafNode (hex (path ++ rest)) value) : Action env TrieNode) := by
  simp [setValueAt, treeNode, TrieNode.newLeafNode, hex]

theorem setValueAt_leaf_cons (i : Nibble) (rest : List Nibble) (value : Bytes) :
    setValueAt (treeNode env (.leaf rest value)) 0 (i.byte :: hex rest) =
      (pure (.newLeafNode (hex (i :: rest)) value) : Action env TrieNode) := rfl

@[simp] theorem setValueAt_ext_path (path rest : List Nibble) (child : Tree Nibble Bytes) :
    setValueAt (treeNode env (.ext rest child)) 0 (hex path ++ hex rest) =
      (pure (.newExtensionNode (hex (path ++ rest)) (hashToBytes (treeHash env child))) : Action env TrieNode) := by
  simp [setValueAt, treeNode, TrieNode.newExtensionNode, hex]

@[simp] theorem setValueAt_ext_next (path : List Nibble) (child other : Tree Nibble Bytes) :
    setValueAt (treeNode env (.ext path child)) 1 (hashToBytes (treeHash env other)) =
      (pure (.newExtensionNode (hex path) (hashToBytes (treeHash env other))) : Action env TrieNode) := rfl

/-- What deletion does with a branch after one of its sub-nodes has changed. -/
theorem collapse_ends (apart : Apart allowed) (held : ∀ i, Held db (children i)) :
    (collapseBranch (treeNode env (.branch children))).Ends allowed db (.ok (treeHash env (collapse children)))
      fun final => Held final (collapse children) := by
  unfold collapseBranch collapse
  by_cases only : ∃ i, children i ≠ .empty ∧ ∀ j ≠ i, children j = .empty
  · rw [if_pos (branchLen_eq_one_iff.mpr only), dif_pos only]
    obtain ⟨filled, others⟩ := only.choose_spec
    generalize only.choose = i at filled others
    have child := held i
    rw [firstSubNode_eq filled others]
    generalize children i = tree at filled child
    have index : UInt8.ofNat i.val = i.byte := rfl
    rw [treeHash_eq env tree filled]
    simp only [Appending.expect_some, pure_bind_eq, index]
    refine .bind (getNode_ends apart (child.stored filled)) ?_
    rintro _ rfl
    cases child with
    | empty => exact absurd rfl filled
    | @leaf rest value stored =>
      simp only [type_leaf, valueAt_leaf_path, pure_bind_eq, setValueAt_leaf_cons, join]
      exact .map _ (commit_leaf ([i] ++ rest) value)
    | @ext rest child stored below =>
      simp only [type_ext, valueAt_ext_path, valueAt_ext_next, pure_bind_eq, join]
      exact .map _ (commit_ext ([i] ++ rest) below)
    | @branch children stored below =>
      simp only [type_branch, hash_bytes (.branch children) branch_ne, join]
      exact .map _ (commit_ext [i] (.branch stored below))
  · rw [if_neg (mt branchLen_eq_one_iff.mp only), dif_neg only, treeHash_eq env (.branch children) branch_ne]
    exact .map _ (commit_branch held)

theorem deleteNode_found (apart : Apart allowed) (canonical : Canonical n tree)
    (held : Held db tree) (enough : n < fuel) (found : tree.lookup key ≠ none) :
    (deleteNode fuel (treeHash env tree) (hex key)).Ends allowed db (.ok (treeHash env (tree.erase key)))
      fun final => Held final (tree.erase key) := by
  induction canonical generalizing fuel key db with
  | empty => exact absurd rfl found
  | @leaf path value =>
    obtain ⟨fuel, rfl⟩ := Nat.exists_eq_add_of_lt enough
    obtain rfl := leaf_key found
    rw [treeHash_eq env (.leaf key value) leaf_ne, deleteNode]
    refine .bind (getNode_ends apart (held.stored leaf_ne)) ?_
    rintro _ rfl
    have whole := commonPrefixes_append key []
    rw [append_nil] at whole
    simp only [type_leaf, valueAt_leaf_path, pure_bind_eq, whole, ne_eq, not_true_eq_false, or_self, if_false]
    simp only [Tree.erase, if_true]
    exact .pure .empty
  | @ext n path children long below next =>
    obtain ⟨fuel, rfl⟩ := Nat.exists_eq_add_of_lt enough
    cases held with
    | ext stored inner =>
      rw [treeHash_eq env (.ext path (.branch children)) ext_ne, deleteNode]
      refine .bind (getNode_ends apart stored) ?_
      rintro _ rfl
      obtain ⟨tail, rfl, inside⟩ := under_ne_none found
      have positive := length_pos_iff.mpr long
      simp only [type_ext, valueAt_ext_path, valueAt_ext_next, pure_bind_eq, commonPrefixes_append,
        hex_length, bytesToHash_hashToBytes, drop_hex]
      refine .bind (next inner (by omega) inside) ?_
      rw [erase_ext_path]
      generalize (Tree.branch children).erase tail = erased
      intro grown changed
      cases changed with
      | empty => exact .pure .empty
      | @leaf rest value changed =>
        rw [treeHash_eq env (.leaf rest value) leaf_ne]
        refine .bind (getNode_ends apart changed).orPanic ?_
        rintro _ rfl
        simp only [type_leaf, valueAt_leaf_path, pure_bind_eq, setValueAt_leaf_path, join]
        exact .map _ (commit_leaf (path ++ rest) value)
      | @ext rest child changed below =>
        rw [treeHash_eq env (.ext rest child) ext_ne]
        refine .bind (getNode_ends apart changed).orPanic ?_
        rintro _ rfl
        simp only [type_ext, valueAt_ext_path, pure_bind_eq, setValueAt_ext_path, join]
        exact .map _ (commit_ext (path ++ rest) below)
      | @branch children changed below =>
        rw [treeHash_eq env (.branch children) branch_ne]
        refine .bind (getNode_ends apart changed).orPanic ?_
        rintro _ rfl
        simp only [type_branch, hash_bytes (.branch children) branch_ne, setValueAt_ext_next, pure_bind_eq, join]
        exact .map _ (commit_ext path (.branch changed below))
  | @branch n children below several next =>
    obtain ⟨fuel, rfl⟩ := Nat.exists_eq_add_of_lt enough
    cases held with
    | branch stored inner =>
      rw [treeHash_eq env (.branch children) branch_ne, deleteNode]
      refine .bind (getNode_ends apart stored) ?_
      rintro _ rfl
      cases key with
      | nil => simp at found
      | cons i tail =>
        rw [lookup_branch_cons] at found
        simp only [type_branch, splitKey_cons, pure_bind_eq, valueAt_branch, bytesToHash_hashToBytes]
        refine .bind (next i (inner i) (by omega) found).grown ?_
        rintro grown ⟨grows, changed⟩
        rw [setValueAt_branch, pure_bind_eq, erase_branch_cons]
        exact collapse_ends apart (changed.update (fun j => (inner j).mono grows) i)

end Delete

end Boxd.Trie
