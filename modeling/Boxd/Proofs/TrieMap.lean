import Boxd.Proofs.TrieNodes

/-! The trie as a map from keys of one length to values. Every sequence of calls is
answered as by the map, and the root hash stands for the map and nothing else. -/

namespace Boxd.Trie
open Lib Lib.Patricia Lib.Patricia.Tree List Outcome Function

inductive Call where
  | get (key : Bytes)
  | update (key value : Bytes)
  | delete (key : Bytes)

def Call.key : Call → Bytes
  | get key => key
  | update key _ => key
  | delete key => key

def Call.change (content : Bytes → Option Bytes) : Call → Bytes → Option Bytes
  | get _ => content
  | update key value => Function.update content key (if value = [] then none else some value)
  | delete key => Function.update content key none

/-- The map after the calls: the value of the last update of a key that is not followed by
its deletion. -/
def contents (calls : List Call) : Bytes → Option Bytes := calls.foldl Call.change fun _ => none

def Call.answer (content : Bytes → Option Bytes) : Call → Outcome TrieError (Option Bytes)
  | get key => .ok (content key)
  | update key value => if value = [] ∧ content key = none then .fail .nodeNotFound else .ok none
  | delete key => if content key = none then .fail .nodeNotFound else .ok none

variable {env : TrieEnv}

def perform (trie : Trie env) : Call → Outcome TrieError (Option Bytes) × Trie env
  | .get key => (trie.get key, trie)
  | .update key value => ((trie.update key value).1.map fun _ => none, (trie.update key value).2)
  | .delete key => ((trie.delete key).1.map fun _ => none, (trie.delete key).2)

def run (trie : Trie env) (calls : List Call) : Trie env := calls.foldl (fun trie call => (trie.perform call).2) trie

def stored (trie : Trie env) : Set Bytes := {bytes | ∃ put ∈ trie.db, put.nodeBin = bytes}

def nibbles (key : Bytes) : List Nibble :=
  key.flatMap fun byte => [⟨byte.toNat / 16, by have := byte.toNat_lt; omega⟩, ⟨byte.toNat % 16, by omega⟩]

theorem nibbles_length (key : Bytes) : (nibbles key).length = 2 * key.length := by
  simp [nibbles, length_flatMap, Nat.mul_comm]

theorem keyToHex_eq (key : Bytes) : keyToHex key = hex (nibbles key) := by
  unfold keyToHex nibbles hex
  rw [map_flatMap]
  congr 1
  funext byte
  have small := byte.toNat_lt
  simp only [map_cons, map_nil, Nibble.byte, cons.injEq, and_true]
  constructor
  · apply UInt8.toNat_inj.mp
    rw [UInt8.toNat_div, UInt8.toNat_ofNat']
    simp
    omega
  · apply UInt8.toNat_inj.mp
    rw [UInt8.toNat_mod, UInt8.toNat_ofNat']
    simp
    omega

theorem nibbles_injective : Injective nibbles := by
  intro left
  induction left with
  | nil =>
    intro right same
    cases right with
    | nil => rfl
    | cons byte rest => cases same
  | cons byte rest next =>
    intro right same
    cases right with
    | nil => cases same
    | cons other tail =>
      simp only [nibbles, flatMap_cons, cons_append, nil_append, cons.injEq, Fin.mk.injEq] at same
      obtain ⟨high, low, others⟩ := same
      have equal : byte = other := UInt8.toNat_inj.mp (by omega)
      rw [equal, next others]

theorem exists_nibbles {path : List Nibble} {length : Nat} (fits : path.length = 2 * length) : ∃ key, nibbles key = path := by
  induction length generalizing path with
  | zero => exact ⟨[], (length_eq_zero_iff.mp fits).symm⟩
  | succ length next =>
    match path with
    | [] => simp at fits
    | [_] =>
      simp at fits
      omega
    | high :: low :: rest =>
      obtain ⟨key, rfl⟩ := next (show rest.length = 2 * length by
        simp only [length_cons] at fits
        omega)
      have byte : (UInt8.ofNat (16 * high + low)).toNat = 16 * high + low := by
        have := high.isLt
        have := low.isLt
        rw [UInt8.toNat_ofNat']
        omega
      refine ⟨UInt8.ofNat (16 * high + low) :: key, ?_⟩
      simp only [nibbles, flatMap_cons, cons_append, nil_append, byte, cons.injEq, and_true]
      constructor
      · apply Fin.ext
        have := low.isLt
        show (16 * high.val + low.val) / 16 = high.val
        omega
      · apply Fin.ext
        have := low.isLt
        show (16 * high.val + low.val) % 16 = low.val
        omega

structure Represents (trie : Trie env) (length : Nat) (content : Bytes → Option Bytes) (tree : Tree Nibble Bytes) : Prop where
  canonical : Canonical (2 * length) tree
  root : trie.rootHash = treeHash env tree
  held : Held trie.db tree
  content : ∀ key, content key = tree.lookup (nibbles key)

section Calls

variable {allowed : Set env.Put} {trie : Trie env} {length : Nat} {content : Bytes → Option Bytes} {tree : Tree Nibble Bytes}

theorem enough_fuel {key : Bytes} (fits : (nibbles key).length = 2 * length) : 2 * length < fuelFor (hex (nibbles key)) := by
  rw [fuelFor, hex_length, fits]
  omega

theorem contents_set (represents : trie.Represents length content tree) {changed : Tree Nibble Bytes} {key : Bytes}
    {value : Option Bytes} (same : changed.lookup = Patricia.set tree.lookup (nibbles key) value) (at_ : Bytes) :
    Function.update content key value at_ = changed.lookup (nibbles at_) := by
  rw [same, Patricia.set, update_apply]
  simp only [nibbles_injective.eq_iff, represents.content]

theorem update_ends {key value : Bytes} {result : Except (Fault TrieError) (Option HashType)} {post : List env.Put → Prop}
    (ends : (trie.changeRoot key value).Ends allowed trie.db result post)
    (within : ∀ put ∈ (trie.update key value).2.db, put ∈ allowed) :
    (trie.update key value).1 = result.map (fun _ => ()) ∧
      (trie.update key value).2.rootHash = result.toOption.getD trie.rootHash ∧ post (trie.update key value).2.db := by
  unfold Appending.Ends Appending.after at ends
  unfold update at within ⊢
  generalize trie.changeRoot key value trie.db = ran at within ends ⊢
  obtain ⟨fault | rootHash, puts⟩ := ran
  · obtain ⟨rfl, holds⟩ := ends within
    exact ⟨rfl, rfl, holds⟩
  · obtain ⟨rfl, holds⟩ := ends within
    exact ⟨rfl, rfl, holds⟩

section
variable (apart : Apart allowed) (represents : trie.Represents length content tree) {key : Bytes}
  (fits : (nibbles key).length = 2 * length)
include apart represents fits

theorem get_eq (within : ∀ put ∈ trie.db, put ∈ allowed) : trie.get key = .ok (content key) := by
  have ends := getValue_ends apart represents.canonical represents.held (enough_fuel fits) fits.ge
  rw [Appending.Ends, (getValue_silent _ _ _).after_eq] at ends
  obtain ⟨found, -⟩ := ends within
  unfold get
  rw [keyToHex_eq, represents.root, found, represents.content]
  cases tree.lookup (nibbles key) <;> rfl

theorem update_value {value : Bytes} (filled : value ≠ []) (within : ∀ put ∈ (trie.update key value).2.db, put ∈ allowed) :
    (trie.update key value).1 = .ok () ∧
      (trie.update key value).2.Represents length (Function.update content key (some value))
        (tree.insert value (nibbles key)) := by
  have written := updateNode_ends apart represents.canonical represents.held (enough_fuel fits) fits value
  have ends : (trie.changeRoot key value).Ends allowed trie.db
      (.ok (treeHash env (tree.insert value (nibbles key)))) fun final => Held final (tree.insert value (nibbles key)) := by
    rw [changeRoot, keyToHex_eq, if_pos (by simpa using filled), represents.root,
      treeHash_eq env _ (insert_ne_empty tree value (nibbles key))]
    exact written.map some
  obtain ⟨done, root, held⟩ := update_ends ends within
  refine ⟨done, canonical_insert represents.canonical value fits, root, held, ?_⟩
  exact contents_set represents (lookup_insert represents.canonical value fits)

theorem update_nil_missing (missing : content key = none)
    (within : ∀ put ∈ (trie.update key []).2.db, put ∈ allowed) :
    (trie.update key []).1 = .fail .nodeNotFound ∧ (trie.update key []).2 = trie := by
  rw [represents.content] at missing
  have ends : (trie.changeRoot key []).Ends allowed trie.db (.error (.error .nodeNotFound)) (· = trie.db) := by
    rw [changeRoot, keyToHex_eq, if_neg (by simp), represents.root]
    exact deleteNode_missing apart represents.canonical represents.held (enough_fuel fits) fits.ge missing
  obtain ⟨failed, root, db⟩ := update_ends ends within
  refine ⟨failed, ?_⟩
  generalize (trie.update key []).2 = after at root db
  cases trie
  cases after
  cases root
  cases db
  rfl

theorem update_nil_found (found : content key ≠ none) (within : ∀ put ∈ (trie.update key []).2.db, put ∈ allowed) :
    (trie.update key []).1 = .ok () ∧
      (trie.update key []).2.Represents length (Function.update content key none) (tree.erase (nibbles key)) := by
  rw [represents.content] at found
  have ends : (trie.changeRoot key []).Ends allowed trie.db (.ok (treeHash env (tree.erase (nibbles key))))
      fun final => Held final (tree.erase (nibbles key)) := by
    rw [changeRoot, keyToHex_eq, if_neg (by simp), represents.root]
    exact deleteNode_found apart represents.canonical represents.held (enough_fuel fits) found
  obtain ⟨done, root, held⟩ := update_ends ends within
  refine ⟨done, canonical_erase represents.canonical fits, root, held, ?_⟩
  exact contents_set represents (lookup_erase represents.canonical fits)

theorem delete_step (within : ∀ put ∈ (trie.update key []).2.db, put ∈ allowed) :
    (trie.update key []).1.map (fun _ => (none : Option Bytes)) =
        (if content key = none then fail .nodeNotFound else .ok none) ∧
      ∃ changed, (trie.update key []).2.Represents length (Function.update content key none) changed := by
  by_cases missing : content key = none
  · obtain ⟨failed, same⟩ := update_nil_missing apart represents fits missing within
    rw [if_pos missing, failed, same, Function.update_eq_self_iff.mpr missing.symm]
    exact ⟨rfl, tree, represents⟩
  · obtain ⟨done, changed⟩ := update_nil_found apart represents fits missing within
    rw [if_neg missing, done]
    exact ⟨rfl, _, changed⟩

end

/-- One call is answered as by the map, and changes what the trie stands for as it changes the map. -/
theorem perform_step (apart : Apart allowed) (represents : trie.Represents length content tree) {call : Call}
    (fits : call.key.length = length) (within : ∀ put ∈ (trie.perform call).2.db, put ∈ allowed) :
    (trie.perform call).1 = call.answer content ∧
      ∃ changed, (trie.perform call).2.Represents length (call.change content) changed := by
  replace fits : (nibbles call.key).length = 2 * length := by rw [nibbles_length, fits]
  cases call with
  | get key => exact ⟨get_eq apart represents fits within, tree, represents⟩
  | update key value =>
    dsimp only [Call.key] at fits
    by_cases empty : value = []
    · subst empty
      simpa [perform, Call.answer, Call.change] using delete_step apart represents fits within
    · obtain ⟨done, changed⟩ := update_value apart represents fits empty within
      simp only [perform, Call.answer, Call.change, empty, false_and, if_false]
      exact ⟨by rw [done]; rfl, _, changed⟩
  | delete key => exact delete_step apart represents fits within

theorem update_grows (trie : Trie env) (key value : Bytes) : trie.db ⊆ (trie.update key value).2.db := by
  unfold update
  split <;> exact subset_append_right _ _

theorem perform_grows (trie : Trie env) (call : Call) : trie.db ⊆ (trie.perform call).2.db := by
  cases call with
  | get key => exact Subset.refl _
  | update key value => exact update_grows trie key value
  | delete key => exact update_grows trie key []

theorem update_error_root {key value : Bytes} {fault : Fault TrieError} (failed : (trie.update key value).1 = .error fault) :
    (trie.update key value).2.rootHash = trie.rootHash := by
  unfold update at failed ⊢
  split at failed
  · cases failed
  · rfl

theorem perform_error_root {call : Call} {fault : Fault TrieError} (failed : (trie.perform call).1 = .error fault) :
    (trie.perform call).2.rootHash = trie.rootHash := by
  have unmapped {result : Outcome TrieError Unit} (failed : result.map (fun _ => (none : Option Bytes)) = .error fault) :
      result = .error fault := by
    cases result with
    | ok _ => cases failed
    | error other =>
      cases failed
      rfl
  cases call with
  | get key => rfl
  | update key value => exact update_error_root (unmapped failed)
  | delete key => exact update_error_root (unmapped failed)

theorem empty_represents (length : Nat) : (empty : Trie env).Represents length (contents []) .empty :=
  ⟨.empty, rfl, .empty, fun _ => rfl⟩

theorem run_concat (calls : List Call) (call : Call) :
    run (empty : Trie env) (calls ++ [call]) = ((run empty calls).perform call).2 := by
  simp [run]

theorem contents_concat (calls : List Call) (call : Call) : contents (calls ++ [call]) = call.change (contents calls) := by
  simp [contents]

theorem run_represents (apart : Apart allowed) (calls : List Call) (fits : ∀ call ∈ calls, call.key.length = length)
    (within : ∀ put ∈ (run (empty : Trie env) calls).db, put ∈ allowed) :
    ∃ tree, (run (empty : Trie env) calls).Represents length (contents calls) tree := by
  induction calls using reverseRecOn with
  | nil => exact ⟨_, empty_represents length⟩
  | append_singleton calls call next =>
    rw [run_concat] at within ⊢
    rw [contents_concat]
    have earlier : ∀ call ∈ calls, call.key.length = length := fun call member => fits call (mem_append_left _ member)
    obtain ⟨tree, represents⟩ := next earlier fun put member => within put (perform_grows _ _ member)
    exact (perform_step apart represents (fits call (by simp)) within).2

end Calls

/-- If the hash is injective on encodings then entries with one hash have one encoding. -/
theorem apart_of_injOn {encodings : Set Bytes} (injective : Set.InjOn env.sha3256 encodings) :
    Apart {put : env.Put | put.nodeBin ∈ encodings} := by
  intro left ofLeft right ofRight same
  apply injective ofLeft ofRight
  rw [← left.hash_eq, ← right.hash_eq, same]

theorem Call.answer_ne_panicked (content : Bytes → Option Bytes) (call : Call) : call.answer content ≠ .panicked := by
  cases call with
  | get key => exact nofun
  | update key value =>
    simp only [answer]
    split <;> simp [fail, panicked]
  | delete key =>
    simp only [answer]
    split <;> simp [fail, panicked]

/-- The trie is a map: each call of a run on keys of one length is answered as by the map of
the calls before, a failed call leaves the root, and none panics. The hash is only asked to
be injective on the encodings that the run has stored. -/
theorem trie_is_map (length : Nat) (before : List Call) (call : Call)
    (fits : ∀ made ∈ before ++ [call], made.key.length = length)
    (injective : Set.InjOn env.sha3256 (run (empty : Trie env) (before ++ [call])).stored) :
    ((run (empty : Trie env) before).perform call).1 = call.answer (contents before) ∧
      (∀ fault, ((run (empty : Trie env) before).perform call).1 = .error fault →
        ((run (empty : Trie env) before).perform call).2.rootHash = (run (empty : Trie env) before).rootHash) ∧
      ((run (empty : Trie env) before).perform call).1 ≠ .panicked := by
  have apart := apart_of_injOn injective
  rw [run_concat] at apart
  have earlier : ∀ call ∈ before, call.key.length = length := fun call member => fits call (mem_append_left _ member)
  obtain ⟨tree, represents⟩ := run_represents apart before earlier
    fun put member => ⟨put, perform_grows _ _ member, rfl⟩
  obtain ⟨answered, -⟩ := perform_step apart represents (fits call (by simp)) fun put member => ⟨put, member, rfl⟩
  refine ⟨answered, fun fault failed => perform_error_root failed, ?_⟩
  rw [answered]
  exact call.answer_ne_panicked _

section Sample

/-- A hash that tells the sample nodes apart, with the decoder of the wire format. -/
def sampleTrieEnv : TrieEnv where
  sha3256 bytes := .copy 32 (bytesLE 32 (bytes.foldl (fun hash byte => 257 * hash + byte.toNat + 1) 0))
  unmarshal bytes := (decodeWire bytes).map fun wires => ⟨wires.filterMap fun
    | .bytes 1 content => some content
    | _ => none⟩
  unmarshal_marshal node := by
    rw [TrieNode.marshal, decodeWire_encodeWire]
    simp [WireField.ofMessages, filterMap_map]

/-- Two keys that share a half byte, one of which is deleted. -/
def sampleCalls : List Call := [.update [0x12] [5], .update [0x13] [6], .update [0x27] [7], .delete [0x12]]

/-- To compare the entries of tables is to compare their encodings. -/
theorem injOn_stored {trie other : Trie env} (entries : ∀ left ∈ trie.db ++ other.db, ∀ right ∈ trie.db ++ other.db,
      env.sha3256 left.nodeBin = env.sha3256 right.nodeBin → left.nodeBin = right.nodeBin) :
    Set.InjOn env.sha3256 (trie.stored ∪ other.stored) := by
  have member {bytes : Bytes} (among : bytes ∈ trie.stored ∪ other.stored) :
      ∃ put ∈ trie.db ++ other.db, put.nodeBin = bytes := by
    rcases among with ⟨put, member, same⟩ | ⟨put, member, same⟩
    · exact ⟨put, mem_append_left _ member, same⟩
    · exact ⟨put, mem_append_right _ member, same⟩
  intro _ first _ second same
  obtain ⟨left, ofLeft, rfl⟩ := member first
  obtain ⟨right, ofRight, rfl⟩ := member second
  exact entries left ofLeft right ofRight same

theorem sample_trie_is_map :
    ((run (empty : Trie sampleTrieEnv) sampleCalls).perform (.get [0x13])).1 = .ok (some [6]) := by
  have injective : Set.InjOn sampleTrieEnv.sha3256 ((run empty (sampleCalls ++ [.get [0x13]])).stored ∪
      (run empty (sampleCalls ++ [.get [0x13]])).stored) := injOn_stored (by decide +kernel)
  rw [Set.union_self] at injective
  exact (trie_is_map 1 sampleCalls (.get [0x13]) (by decide) injective).1

/-- The map of the sample, written in another order. -/
def sampleOtherCalls : List Call := [.update [0x27] [7], .update [0x13] [6]]

theorem sample_contents : contents sampleCalls = contents sampleOtherCalls := by
  funext key
  simp only [contents, sampleCalls, sampleOtherCalls, foldl_cons, foldl_nil, Call.change, Function.update_apply]
  by_cases first : key = [0x12]
  · simp [first]
  · by_cases second : key = [0x13]
    · simp [second]
    · simp [first, second]

end Sample

section Root

variable {allowed : Set env.Put}

variable (apart : Apart allowed) {db other : List env.Put} (within : ∀ put ∈ db, put ∈ allowed)
  (withinOther : ∀ put ∈ other, put ∈ allowed)
include apart within withinOther

theorem stored_inj {left right : TrieNode} (ofLeft : Stored db left)
    (ofRight : Stored other right) (same : env.sha3256 left.marshal = env.sha3256 right.marshal) : left = right := by
  obtain ⟨first, firstMember, firstBin⟩ := ofLeft
  obtain ⟨second, secondMember, secondBin⟩ := ofRight
  apply marshal_injective
  rw [← firstBin, ← secondBin]
  apply apart _ (within _ firstMember) _ (withinOther _ secondMember)
  rw [first.hash_eq, second.hash_eq, firstBin, secondBin, same]

theorem treeNode_eq {left right : Tree Nibble Bytes} (ofLeft : Held db left)
    (ofRight : Held other right) (same : treeHash env left = treeHash env right) (filled : left ≠ .empty) :
    treeNode env left = treeNode env right := by
  have filledRight : right ≠ .empty := by
    rintro rfl
    exact filled ((treeHash_eq_none env).mp same)
  rw [treeHash_eq env left filled, treeHash_eq env right filledRight] at same
  exact stored_inj apart within withinOther (ofLeft.stored filled) (ofRight.stored filledRight) (Option.some.inj same)

theorem treeHash_inj {left right : Tree Nibble Bytes} (ofLeft : Held db left)
    (ofRight : Held other right) (same : treeHash env left = treeHash env right) : left = right := by
  induction ofLeft generalizing right with
  | empty => exact ((treeHash_eq_none env).mp same.symm).symm
  | @leaf path value stored =>
    have nodes := treeNode_eq apart within withinOther (.leaf stored) ofRight same leaf_ne
    cases ofRight with
    | empty => cases same
    | leaf _ =>
      simp only [treeNode, TrieNode.newLeafNode, TrieNode.mk.injEq, cons.injEq, hex_injective.eq_iff] at nodes
      rw [nodes.1, nodes.2.1]
    | ext _ _ => simp [treeNode, TrieNode.newLeafNode, TrieNode.newExtensionNode] at nodes
    | branch _ _ => simp [treeNode, TrieNode.newLeafNode] at nodes
  | @ext path child stored below next =>
    have nodes := treeNode_eq apart within withinOther (.ext stored below) ofRight same ext_ne
    cases ofRight with
    | empty => cases same
    | leaf _ => simp [treeNode, TrieNode.newLeafNode, TrieNode.newExtensionNode] at nodes
    | ext _ belowOther =>
      simp only [treeNode, TrieNode.newExtensionNode, TrieNode.mk.injEq, cons.injEq, hex_injective.eq_iff,
        hashToBytes_injective.eq_iff] at nodes
      rw [nodes.1, next belowOther nodes.2.1]
    | branch _ _ => simp [treeNode, TrieNode.newExtensionNode] at nodes
  | @branch children stored below next =>
    have nodes := treeNode_eq apart within withinOther (.branch stored below) ofRight same branch_ne
    cases ofRight with
    | empty => simp [treeHash] at same
    | leaf _ => simp [treeNode, TrieNode.newLeafNode] at nodes
    | ext _ _ => simp [treeNode, TrieNode.newExtensionNode] at nodes
    | branch _ belowOther =>
      have hashes := ofFn_injective (TrieNode.mk.inj nodes)
      congr 1
      funext i
      exact next i (belowOther i) (hashToBytes_injective (congrFun hashes i))

omit apart within withinOther in
/-- A map of keys of one length is what a tree over their half bytes holds. -/
theorem lookup_eq_of_contents {left right : Trie env} {length : Nat} {content : Bytes → Option Bytes}
    {leftTree rightTree : Tree Nibble Bytes} (ofLeft : left.Represents length content leftTree)
    (ofRight : right.Represents length content rightTree) : leftTree.lookup = rightTree.lookup := by
  funext path
  by_cases fits : path.length = 2 * length
  · obtain ⟨key, rfl⟩ := exists_nibbles fits
    rw [← ofLeft.content, ← ofRight.content]
  · have absent {tree : Tree Nibble Bytes} (canonical : Canonical (2 * length) tree) : tree.lookup path = none := by
      by_contra found
      exact fits (canonical.length_of_lookup found)
    rw [absent ofLeft.canonical, absent ofRight.canonical]

end Root

/-- The root commits to the map and to nothing else: two runs on keys of one length end with
the same root exactly if they end with the same map. -/
theorem trie_root_commits (length : Nat) (left right : List Call) (ofLeft : ∀ call ∈ left, call.key.length = length)
    (ofRight : ∀ call ∈ right, call.key.length = length)
    (injective : Set.InjOn env.sha3256 ((run (empty : Trie env) left).stored ∪ (run (empty : Trie env) right).stored)) :
    (run (empty : Trie env) left).rootHash = (run (empty : Trie env) right).rootHash ↔ contents left = contents right := by
  have apart := apart_of_injOn injective
  obtain ⟨leftTree, leftRepresents⟩ := run_represents apart left ofLeft fun put member => .inl ⟨put, member, rfl⟩
  obtain ⟨rightTree, rightRepresents⟩ := run_represents apart right ofRight fun put member => .inr ⟨put, member, rfl⟩
  rw [leftRepresents.root, rightRepresents.root]
  constructor
  · intro same
    have trees := treeHash_inj apart (fun put member => .inl ⟨put, member, rfl⟩) (fun put member => .inr ⟨put, member, rfl⟩)
      leftRepresents.held rightRepresents.held same
    funext key
    rw [leftRepresents.content, rightRepresents.content, trees]
  · intro same
    rw [same] at leftRepresents
    rw [leftRepresents.canonical.ext_lookup rightRepresents.canonical (lookup_eq_of_contents leftRepresents rightRepresents)]

theorem sample_trie_root_commits :
    (run (empty : Trie sampleTrieEnv) sampleCalls).rootHash = (run (empty : Trie sampleTrieEnv) sampleOtherCalls).rootHash :=
  (trie_root_commits 1 sampleCalls sampleOtherCalls (by decide) (by decide) (injOn_stored (by decide +kernel))).mpr
    sample_contents

end Boxd.Trie
