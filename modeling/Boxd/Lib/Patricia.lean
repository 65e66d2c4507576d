import Mathlib.Data.Fintype.Basic
import Mathlib.Logic.Function.Basic

/-! Patricia trees over an alphabet. A tree is canonical for keys of one length when below
an extension there is a branch, and a branch has at least two children. A canonical tree is
determined by the map that it stands for. -/

namespace Boxd.Lib
open List Function

variable {ι V : Type*} [DecidableEq ι]

/-- How far two lists agree from the start. -/
def commonLength : List ι → List ι → Nat
  | a :: left, b :: right => if a = b then commonLength left right + 1 else 0
  | _, _ => 0

@[simp] theorem commonLength_append (path tail : List ι) : commonLength path (path ++ tail) = path.length := by
  induction path with
  | nil => simp [commonLength]
  | cons a path next => simp [commonLength, next]

theorem commonLength_part {a b : ι} (apart : a ≠ b) (front rest tail : List ι) :
    commonLength (front ++ a :: rest) (front ++ b :: tail) = front.length := by
  induction front with
  | nil => simp [commonLength, apart]
  | cons c front next => simp [commonLength, next]

theorem commonLength_map {κ : Type*} [DecidableEq κ] {f : ι → κ} (injective : Injective f) (left right : List ι) :
    commonLength (left.map f) (right.map f) = commonLength left right := by
  induction left generalizing right with
  | nil => simp [commonLength]
  | cons a left next =>
    cases right with
    | nil => simp [commonLength]
    | cons b right => simp [commonLength, injective.eq_iff, next]

namespace Patricia

inductive Tree (ι V : Type*) where
  | empty
  | leaf (path : List ι) (value : V)
  | ext (path : List ι) (child : Tree ι V)
  | branch (children : ι → Tree ι V)

namespace Tree

omit [DecidableEq ι]

theorem leaf_ne {path : List ι} {value : V} : Tree.leaf path value ≠ .empty := by
  intro same
  cases same

theorem ext_ne {path : List ι} {child : Tree ι V} : Tree.ext path child ≠ .empty := by
  intro same
  cases same

theorem branch_ne {children : ι → Tree ι V} : Tree.branch children ≠ .empty := by
  intro same
  cases same

end Tree

/-- A map moved below a path. -/
def under (path : List ι) (content : List ι → Option V) (key : List ι) : Option V :=
  if key.take path.length = path then content (key.drop path.length) else none

def single (value : V) : List ι → Option V
  | [] => some value
  | _ :: _ => none

def set (content : List ι → Option V) (key : List ι) (value : Option V) (at_ : List ι) : Option V :=
  if at_ = key then value else content at_

section Under

@[simp] theorem under_append (path rest : List ι) (content : List ι → Option V) :
    under path content (path ++ rest) = content rest := by simp [under]

variable {path key : List ι}

omit [DecidableEq ι] in
theorem eq_append_drop (same : key.take path.length = path) : key = path ++ key.drop path.length := by
  conv_lhs => rw [← take_append_drop path.length key, same]

theorem under_of_ne (content : List ι → Option V) (apart : ∀ rest, key ≠ path ++ rest) :
    under path content key = none :=
  if_neg fun same => apart _ (eq_append_drop same)

variable {content : List ι → Option V}

theorem under_eq_some {value : V}
    (found : under path content key = some value) : ∃ rest, key = path ++ rest ∧ content rest = some value := by
  unfold under at found
  split at found
  · next same => exact ⟨key.drop path.length, eq_append_drop same, found⟩
  · cases found

theorem under_ne_none (found : under path content key ≠ none) : ∃ rest, key = path ++ rest ∧ content rest ≠ none := by
  obtain ⟨value, found⟩ := Option.ne_none_iff_exists'.mp found
  obtain ⟨rest, same, found⟩ := under_eq_some found
  exact ⟨rest, same, by simp [found]⟩

theorem under_ext {other : List ι → Option V}
    (below : ∀ rest, other (path ++ rest) = content rest) (beside : ∀ key, (∀ rest, key ≠ path ++ rest) → other key = none) :
    under path content = other := by
  funext key
  by_cases inside : ∃ rest, key = path ++ rest
  · obtain ⟨rest, rfl⟩ := inside
    rw [under_append, below]
  · push Not at inside
    rw [under_of_ne content inside, beside key inside]

@[simp] theorem under_nil (content : List ι → Option V) : under [] content = content :=
  under_ext (fun _ => rfl) (fun key apart => absurd rfl (apart key))

theorem under_under (path rest : List ι) (content : List ι → Option V) :
    under path (under rest content) = under (path ++ rest) content := by
  apply under_ext
  · intro key
    by_cases inside : ∃ tail, key = rest ++ tail
    · obtain ⟨tail, rfl⟩ := inside
      rw [← append_assoc, under_append, under_append]
    · push Not at inside
      rw [under_of_ne content inside, under_of_ne]
      intro tail equal
      rw [append_assoc, append_cancel_left_eq] at equal
      exact inside tail equal
  · intro key apart
    apply under_of_ne
    intro tail equal
    exact apart (rest ++ tail) (by rw [equal, append_assoc])

theorem set_under (path rest : List ι) (content : List ι → Option V) (value : Option V) :
    under path (set content rest value) = set (under path content) (path ++ rest) value := by
  apply under_ext
  · intro key
    simp [set]
  · intro key apart
    rw [set, if_neg (apart rest), under_of_ne content apart]

end Under

namespace Tree

def lookup : Tree ι V → List ι → Option V
  | .empty => fun _ => none
  | .leaf path value => under path (single value)
  | .ext path child => under path child.lookup
  | .branch children => fun key =>
    match key with
    | [] => none
    | i :: rest => (children i).lookup rest

@[simp] theorem lookup_branch_nil (children : ι → Tree ι V) : (Tree.branch children).lookup [] = none := by
  simp [lookup]

@[simp] theorem lookup_branch_cons (children : ι → Tree ι V) (i : ι) (rest : List ι) :
    (Tree.branch children).lookup (i :: rest) = (children i).lookup rest := by
  simp [lookup]

@[simp] theorem lookup_ext_append (path rest : List ι) (child : Tree ι V) :
    (Tree.ext path child).lookup (path ++ rest) = child.lookup rest := under_append ..

theorem lookup_leaf (path key : List ι) (value : V) :
    (Tree.leaf path value).lookup key = if key = path then some value else none := by
  simp only [lookup]
  split
  · next same =>
    have own := under_append path ([] : List ι) (single value)
    rw [append_nil] at own
    rw [same, own, single]
  · next differ =>
    cases found : under path (single value) key with
    | none => rfl
    | some other =>
      obtain ⟨rest, rfl, inside⟩ := under_eq_some found
      cases rest with
      | nil => simp at differ
      | cons _ _ => cases inside

theorem leaf_key {path key : List ι} {value : V} (found : (Tree.leaf path value).lookup key ≠ none) : key = path := by
  rw [lookup_leaf] at found
  by_contra differ
  exact found (if_neg differ)

/-- An extension, unless its path is empty. -/
def wrap (path : List ι) (tree : Tree ι V) : Tree ι V := if path = [] then tree else .ext path tree

/-- A branch with two children. -/
def fork (a : ι) (left : Tree ι V) (b : ι) (right : Tree ι V) : Tree ι V :=
  .branch fun i => if i = b then right else if i = a then left else .empty

def insert (value : V) : Tree ι V → List ι → Tree ι V
  | .empty, key => .leaf key value
  | .leaf path old, key =>
    let common := commonLength path key
    match path.drop common, key.drop common with
    | a :: rest, b :: tail => wrap (path.take common) (fork a (.leaf rest old) b (.leaf tail value))
    | _, _ => .leaf path value
  | .ext path child, key =>
    let common := commonLength path key
    match path.drop common, key.drop common with
    | a :: rest, b :: tail => wrap (path.take common) (fork a (wrap rest child) b (.leaf tail value))
    | _, tail => .ext path (child.insert value tail)
  | .branch children, i :: tail => .branch (update children i ((children i).insert value tail))
  | .branch children, [] => .branch children

def join (path : List ι) : Tree ι V → Tree ι V
  | .empty => .empty
  | .leaf rest value => .leaf (path ++ rest) value
  | .ext rest child => .ext (path ++ rest) child
  | .branch children => .ext path (.branch children)

open Classical in
/-- A branch, unless only one child is left. -/
noncomputable def collapse (children : ι → Tree ι V) : Tree ι V :=
  if only : ∃ i, children i ≠ .empty ∧ ∀ j ≠ i, children j = .empty then join [only.choose] (children only.choose)
  else .branch children

noncomputable def erase : Tree ι V → List ι → Tree ι V
  | .empty, _ => .empty
  | .leaf path value, key => if key = path then .empty else .leaf path value
  | .ext path child, key =>
    if key.take path.length = path then join path (child.erase (key.drop path.length)) else .ext path child
  | .branch children, i :: tail => collapse (update children i ((children i).erase tail))
  | .branch children, [] => .branch children

/-- The shape that insertion and deletion keep, for keys of the given length. -/
inductive Canonical : Nat → Tree ι V → Prop
  | empty {n : Nat} : Canonical n .empty
  | leaf {path : List ι} {value : V} : Canonical path.length (.leaf path value)
  | ext {n : Nat} {path : List ι} {children : ι → Tree ι V} (long : path ≠ []) (below : Canonical n (.branch children)) :
    Canonical (path.length + n) (.ext path (.branch children))
  | branch {n : Nat} {children : ι → Tree ι V} (below : ∀ i, Canonical n (children i))
    (several : ∃ i j, i ≠ j ∧ children i ≠ .empty ∧ children j ≠ .empty) : Canonical (n + 1) (.branch children)

section Shapes

@[simp] theorem lookup_wrap (path : List ι) (tree : Tree ι V) : (wrap path tree).lookup = under path tree.lookup := by
  unfold wrap
  split
  · next empty => rw [empty, under_nil]
  · rfl

@[simp] theorem lookup_join (path : List ι) (tree : Tree ι V) : (join path tree).lookup = under path tree.lookup := by
  cases tree with
  | empty =>
    symm
    exact under_ext (fun _ => rfl) (fun _ _ => rfl)
  | leaf rest value => exact (under_under ..).symm
  | ext rest child => exact (under_under ..).symm
  | branch children => rfl

theorem lookup_collapse (children : ι → Tree ι V) : (collapse children).lookup = (Tree.branch children).lookup := by
  unfold collapse
  split
  · next only =>
    obtain ⟨-, others⟩ := only.choose_spec
    rw [lookup_join]
    apply under_ext
    · exact fun rest => lookup_branch_cons children _ rest
    · intro key apart
      cases key with
      | nil => simp
      | cons i rest =>
        have other : i ≠ only.choose := by
          rintro rfl
          exact apart rest rfl
        simp [others i other, lookup]
  · rfl

theorem lookup_update (children : ι → Tree ι V) (i : ι) (child : Tree ι V) (tail : List ι) (value : Option V)
    (changed : child.lookup = set (children i).lookup tail value) :
    (Tree.branch (update children i child)).lookup = set (Tree.branch children).lookup (i :: tail) value := by
  funext key
  cases key with
  | nil => simp [set]
  | cons j rest =>
    by_cases same : j = i
    · subst same
      simp [set, changed]
    · simp [set, same]

theorem lookup_fork {a b : ι} (apart : a ≠ b) (left : Tree ι V) (tail : List ι) (value : V) :
    (fork a left b (.leaf tail value)).lookup = set (under [a] left.lookup) (b :: tail) (some value) := by
  funext key
  cases key with
  | nil => simp [fork, set, under]
  | cons i rest =>
    by_cases second : i = b
    · subst second
      have other : under [a] left.lookup (i :: rest) = none :=
        under_of_ne _ fun tail equal => apart (cons.inj equal).1.symm
      simp [fork, set, other, lookup_leaf]
    · by_cases first : i = a
      · subst first
        simp [fork, set, second, under]
      · have other : under [a] left.lookup (i :: rest) = none :=
          under_of_ne _ fun tail equal => first (cons.inj equal).1
        simp [lookup, fork, set, second, first, other]

end Shapes

section Insert

variable {key : List ι}

theorem path_or_part {path : List ι} (short : path.length ≤ key.length) : (∃ tail, key = path ++ tail) ∨
      ∃ front a rest b tail, path = front ++ a :: rest ∧ key = front ++ b :: tail ∧ a ≠ b := by
  induction path generalizing key with
  | nil => exact .inl ⟨key, rfl⟩
  | cons a path next =>
    cases key with
    | nil => simp at short
    | cons b key =>
      by_cases same : a = b
      · subst same
        rcases next (by simpa using short) with ⟨tail, rfl⟩ | ⟨front, c, rest, d, tail, rfl, rfl, apart⟩
        · exact .inl ⟨tail, rfl⟩
        · exact .inr ⟨a :: front, c, rest, d, tail, rfl, rfl, apart⟩
      · exact .inr ⟨[], a, path, b, key, rfl, rfl, same⟩

variable {a b : ι}

theorem insert_leaf_part (apart : a ≠ b) (front rest tail : List ι) (old value : V) :
    (Tree.leaf (front ++ a :: rest) old).insert value (front ++ b :: tail) =
      wrap front (fork a (.leaf rest old) b (.leaf tail value)) := by
  simp [insert, commonLength_part apart]

theorem insert_ext_part (apart : a ≠ b) (front rest tail : List ι) (child : Tree ι V) (value : V) :
    (Tree.ext (front ++ a :: rest) child).insert value (front ++ b :: tail) =
      wrap front (fork a (wrap rest child) b (.leaf tail value)) := by
  simp [insert, commonLength_part apart]

theorem insert_leaf_same (path : List ι) (old value : V) : (Tree.leaf path old).insert value path = .leaf path value := by
  have common := commonLength_append path []
  rw [append_nil] at common
  simp [insert, common]

theorem insert_ext_path (path tail : List ι) (child : Tree ι V) (value : V) :
    (Tree.ext path child).insert value (path ++ tail) = .ext path (child.insert value tail) := by
  simp [insert]

theorem insert_branch_cons (children : ι → Tree ι V) (value : V) (i : ι) (tail : List ι) :
    (Tree.branch children).insert value (i :: tail) =
      .branch (update children i ((children i).insert value tail)) := by
  simp [insert]

variable {n : Nat}

theorem lookup_insert {tree : Tree ι V} (canonical : Canonical n tree) (value : V)
    (length : key.length = n) : (tree.insert value key).lookup = set tree.lookup key (some value) := by
  induction canonical generalizing key with
  | empty =>
    funext at_
    exact lookup_leaf key at_ value
  | @leaf path old =>
    rcases path_or_part length.ge with ⟨tail, rfl⟩ | ⟨front, a, rest, b, tail, rfl, rfl, apart⟩
    · obtain rfl : tail = [] := by
        simp at length
        exact length
      rw [append_nil, insert_leaf_same]
      funext at_
      simp only [set, lookup_leaf]
      split <;> rfl
    · rw [insert_leaf_part apart, lookup_wrap, lookup_fork apart]
      simp only [lookup]
      rw [set_under, under_under, under_under]
      simp
  | @ext n path children long below next =>
    rcases path_or_part (show path.length ≤ key.length by omega) with
      ⟨tail, rfl⟩ | ⟨front, a, rest, b, tail, rfl, rfl, apart⟩
    · rw [insert_ext_path]
      have tailLength : tail.length = n := by simpa using length
      have inner := next tailLength
      simp only [lookup] at inner ⊢
      rw [inner, set_under]
    · rw [insert_ext_part apart, lookup_wrap, lookup_fork apart, lookup_wrap]
      simp only [lookup]
      rw [set_under, under_under, under_under]
      simp
  | @branch n children below several next =>
    cases key with
    | nil => simp at length
    | cons i tail =>
      rw [insert_branch_cons]
      exact lookup_update _ _ _ _ _ (next i (by simpa using length))

omit [DecidableEq ι] in
theorem wrap_ne_empty {tree : Tree ι V} (path : List ι) (filled : tree ≠ .empty) : wrap path tree ≠ .empty := by
  unfold wrap
  split
  · exact filled
  · exact nofun

theorem insert_ne_empty (tree : Tree ι V) (value : V) (key : List ι) : tree.insert value key ≠ .empty := by
  cases tree with
  | empty => exact nofun
  | leaf path old =>
    unfold insert
    dsimp only
    split
    · exact wrap_ne_empty _ nofun
    · exact nofun
  | ext path child =>
    unfold insert
    dsimp only
    split
    · exact wrap_ne_empty _ nofun
    · exact nofun
  | branch children => cases key <;> exact nofun

omit [DecidableEq ι] in
theorem canonical_wrap {children : ι → Tree ι V} (path : List ι) (below : Canonical n (.branch children)) :
    Canonical (path.length + n) (wrap path (.branch children)) := by
  unfold wrap
  split
  · next empty =>
    rw [empty, length_nil, Nat.zero_add]
    exact below
  · next long => exact .ext long below

theorem canonical_fork {left right : Tree ι V} (apart : a ≠ b) (ofLeft : Canonical n left)
    (ofRight : Canonical n right) (leftFilled : left ≠ .empty) (rightFilled : right ≠ .empty) :
    Canonical (n + 1) (fork a left b right) := by
  refine .branch ?_ ⟨a, b, apart, by simpa [apart] using leftFilled, by simpa using rightFilled⟩
  intro i
  split
  · exact ofRight
  · split
    · exact ofLeft
    · exact .empty

theorem canonical_update {children : ι → Tree ι V} {child : Tree ι V} (below : ∀ i, Canonical n (children i))
    (changed : Canonical n child) (i j : ι) : Canonical n (update children i child j) := by
  rw [update_apply]
  split
  · exact changed
  · exact below j

theorem canonical_insert {tree : Tree ι V} (canonical : Canonical n tree) (value : V)
    (length : key.length = n) : Canonical n (tree.insert value key) := by
  induction canonical generalizing key with
  | empty =>
    subst length
    exact .leaf
  | @leaf path old =>
    rcases path_or_part length.ge with ⟨tail, rfl⟩ | ⟨front, a, rest, b, tail, rfl, rfl, apart⟩
    · obtain rfl : tail = [] := by
        simp at length
        exact length
      rw [append_nil, insert_leaf_same]
      exact .leaf
    · rw [insert_leaf_part apart]
      have same : tail.length = rest.length := by simpa using length
      have second : Canonical rest.length (.leaf tail value) := by
        rw [← same]
        exact .leaf
      have first : Canonical rest.length (Tree.leaf rest old) := .leaf
      have forked := canonical_fork apart first second nofun nofun
      rw [length_append, length_cons]
      exact canonical_wrap front forked
  | @ext n path children long below next =>
    rcases path_or_part (show path.length ≤ key.length by omega) with
      ⟨tail, rfl⟩ | ⟨front, a, rest, b, tail, rfl, rfl, apart⟩
    · rw [insert_ext_path]
      have tailLength : tail.length = n := by simpa using length
      have inner := next tailLength
      cases tail with
      | nil => exact .ext long inner
      | cons i tail =>
        rw [insert_branch_cons] at inner ⊢
        exact .ext long inner
    · rw [insert_ext_part apart]
      have same : tail.length = rest.length + n := by
        simp at length
        omega
      have second : Canonical (rest.length + n) (Tree.leaf tail value) := by
        rw [← same]
        exact .leaf
      have forked := canonical_fork apart (canonical_wrap rest below) second (wrap_ne_empty rest nofun) nofun
      have wrapped := canonical_wrap front forked
      rwa [show front.length + (rest.length + n + 1) = (front ++ a :: rest).length + n by simp; omega] at wrapped
  | @branch n children below several next =>
    cases key with
    | nil => simp at length
    | cons i tail =>
      rw [insert_branch_cons]
      obtain ⟨j, k, apart, first, second⟩ := several
      have kept (l : ι) (filled : children l ≠ .empty) :
          update children i ((children i).insert value tail) l ≠ .empty := by
        by_cases same : l = i
        · subst same
          simpa using insert_ne_empty _ _ _
        · simpa [same] using filled
      exact .branch (canonical_update below (next i (by simpa using length)) i) ⟨j, k, apart, kept j first, kept k second⟩

end Insert

section Erase

variable {n : Nat} {tree : Tree ι V}

omit [DecidableEq ι] in
theorem canonical_join {path : List ι} (long : path ≠ []) (canonical : Canonical n tree) :
    Canonical (path.length + n) (join path tree) := by
  cases canonical with
  | empty => exact .empty
  | @leaf rest value =>
    rw [← length_append]
    exact .leaf
  | @ext n rest children _ below =>
    rw [← Nat.add_assoc, ← length_append]
    exact .ext (by simp [long]) below
  | branch below several => exact .ext long (.branch below several)

omit [DecidableEq ι] in
theorem canonical_collapse {children : ι → Tree ι V} (below : ∀ i, Canonical n (children i))
    (some : ∃ i, children i ≠ .empty) : Canonical (n + 1) (collapse children) := by
  unfold collapse
  split
  · next only =>
    have joined := canonical_join (cons_ne_nil only.choose []) (below only.choose)
    rwa [length_singleton, Nat.add_comm] at joined
  · next several =>
    obtain ⟨i, filled⟩ := some
    push Not at several
    obtain ⟨j, apart, other⟩ := several i filled
    exact .branch below ⟨i, j, Ne.symm apart, filled, other⟩

theorem erase_branch_cons (children : ι → Tree ι V) (i : ι) (tail : List ι) :
    (Tree.branch children).erase (i :: tail) = collapse (update children i ((children i).erase tail)) := by
  simp [erase]

theorem erase_ext_path (path tail : List ι) (child : Tree ι V) :
    (Tree.ext path child).erase (path ++ tail) = join path (child.erase tail) := by
  simp [erase]

theorem lookup_erase (canonical : Canonical n tree) {key : List ι} (length : key.length = n) :
    (tree.erase key).lookup = set tree.lookup key none := by
  induction canonical generalizing key with
  | empty =>
    funext at_
    simp [erase, lookup, set]
  | @leaf path value =>
    funext at_
    unfold erase set
    split
    · next same =>
      rw [lookup_leaf, same]
      split <;> rfl
    · next differ =>
      rw [lookup_leaf]
      split
      · next same => rw [same, if_neg (Ne.symm differ)]
      · split <;> rfl
  | @ext n path children long below next =>
    by_cases inside : ∃ tail, key = path ++ tail
    · obtain ⟨tail, rfl⟩ := inside
      have tailLength : tail.length = n := by simpa using length
      rw [erase_ext_path, lookup_join, next tailLength, set_under]
      rfl
    · push Not at inside
      rw [erase, if_neg fun same => inside _ (eq_append_drop same)]
      funext at_
      unfold set
      split
      · next same =>
        rw [same]
        exact under_of_ne _ inside
      · rfl
  | @branch n children below several next =>
    cases key with
    | nil => simp at length
    | cons i tail =>
      rw [erase_branch_cons, lookup_collapse]
      exact lookup_update _ _ _ _ _ (next i (by simpa using length))

theorem canonical_erase (canonical : Canonical n tree) {key : List ι}
    (length : key.length = n) : Canonical n (tree.erase key) := by
  induction canonical generalizing key with
  | empty => exact .empty
  | @leaf path value =>
    unfold erase
    split
    · exact .empty
    · exact .leaf
  | @ext n path children long below next =>
    unfold erase
    split
    · next same =>
      have tailLength : (key.drop path.length).length = n := by
        rw [length_drop, length]
        omega
      exact canonical_join long (next tailLength)
    · exact .ext long below
  | @branch n children below several next =>
    cases key with
    | nil => simp at length
    | cons i tail =>
      rw [erase_branch_cons]
      refine canonical_collapse (canonical_update below (next i (by simpa using length)) i) ?_
      obtain ⟨j, k, apart, first, second⟩ := several
      by_cases same : j = i
      · exact ⟨k, by simpa [same ▸ apart.symm] using second⟩
      · exact ⟨j, by simpa [same] using first⟩

end Erase

omit [DecidableEq ι] in
theorem Canonical.length_of_lookup [DecidableEq ι] {n : Nat} {tree : Tree ι V} (canonical : Canonical n tree) {key : List ι}
    (found : tree.lookup key ≠ none) : key.length = n := by
  induction canonical generalizing key with
  | empty => exact absurd rfl found
  | leaf => rw [leaf_key found]
  | ext long below next =>
    obtain ⟨rest, rfl, inside⟩ := under_ne_none found
    rw [length_append, next inside]
  | branch below several next =>
    cases key with
    | nil => simp at found
    | cons i rest =>
      rw [lookup_branch_cons] at found
      rw [length_cons, next i found]

/-- Below a path that a key does not follow, the rest of the key is too long to be found. -/
theorem Canonical.lookup_longer {n : Nat} {tree : Tree ι V} (canonical : Canonical n tree) {front rest tail : List ι} {a b : ι}
    (long : (front ++ a :: rest).length + n ≤ (front ++ b :: tail).length) :
    n ≤ (b :: tail).length ∧ tree.lookup (b :: tail) = none := by
  have longer : n < (b :: tail).length := by
    simp only [length_append, length_cons] at long ⊢
    omega
  refine ⟨longer.le, ?_⟩
  by_contra found
  exact longer.ne' (canonical.length_of_lookup found)

section Unique

/-- Some keys differ at the first place. -/
def Spread (content : List ι → Option V) : Prop :=
  ∃ i j left right, i ≠ j ∧ content (i :: left) ≠ none ∧ content (j :: right) ≠ none

variable {n : Nat}

omit [DecidableEq ι] in
theorem Canonical.exists_key {tree : Tree ι V} [DecidableEq ι] (canonical : Canonical n tree) (filled : tree ≠ .empty) :
    ∃ key, tree.lookup key ≠ none := by
  induction canonical with
  | empty => exact absurd rfl filled
  | @leaf path value =>
    exact ⟨path, by simp [lookup_leaf]⟩
  | @ext n path children long below next =>
    obtain ⟨key, found⟩ := next nofun
    refine ⟨path ++ key, ?_⟩
    rwa [lookup, under_append]
  | @branch n children below several next =>
    obtain ⟨i, -, -, first, -⟩ := several
    obtain ⟨key, found⟩ := next i first
    exact ⟨i :: key, by rwa [lookup_branch_cons]⟩

theorem Canonical.spread {children : ι → Tree ι V} (canonical : Canonical n (.branch children)) :
    Spread (Tree.branch children).lookup := by
  cases canonical with
  | branch below several =>
    obtain ⟨i, j, apart, first, second⟩ := several
    obtain ⟨left, foundLeft⟩ := (below i).exists_key first
    obtain ⟨right, foundRight⟩ := (below j).exists_key second
    exact ⟨i, j, left, right, apart, by rwa [lookup_branch_cons], by rwa [lookup_branch_cons]⟩

theorem not_spread_under (a : ι) (path : List ι) (content : List ι → Option V) : ¬Spread (under (a :: path) content) := by
  rintro ⟨i, j, left, right, apart, first, second⟩
  obtain ⟨_, ofFirst, -⟩ := under_ne_none first
  obtain ⟨_, ofSecond, -⟩ := under_ne_none second
  exact apart ((cons.inj ofFirst).1.trans (cons.inj ofSecond).1.symm)

theorem under_cons (a : ι) (path rest : List ι) (content : List ι → Option V) :
    under (a :: path) content (a :: rest) = under path content rest := by
  simp [under]

/-- The path above keys that differ at once is the longest one that they share. -/
theorem under_inj_of_spread {left right : List ι → Option V} (ofLeft : Spread left) (ofRight : Spread right) :
    ∀ {path other : List ι}, under path left = under other right → path = other ∧ left = right
  | [], [], same => ⟨rfl, by simpa using same⟩
  | [], b :: other, same => by
    rw [under_nil] at same
    exact absurd (same ▸ ofLeft) (not_spread_under b other right)
  | a :: path, [], same => by
    rw [under_nil] at same
    exact absurd (same ▸ ofRight) (not_spread_under a path left)
  | a :: path, b :: other, same => by
    obtain ⟨i, -, tail, -, -, found, -⟩ := id ofLeft
    have shared : under (b :: other) right (a :: path ++ i :: tail) ≠ none := by
      rwa [← same, under_append]
    obtain ⟨rest, equal, -⟩ := under_ne_none shared
    obtain rfl : a = b := (cons.inj equal).1
    have below : under path left = under other right := by
      funext key
      have at_ := congrFun same (a :: key)
      rwa [under_cons, under_cons] at at_
    obtain ⟨rfl, alike⟩ := under_inj_of_spread ofLeft ofRight below
    exact ⟨rfl, alike⟩

theorem leaf_ne_empty {path : List ι} {value : V} : (Tree.leaf path value).lookup ≠ Tree.empty.lookup := by
  intro same
  have found := congrFun same path
  rw [lookup_leaf, if_pos rfl] at found
  cases found

theorem leaf_ne_under_spread {path other : List ι} {value : V} {content : List ι → Option V} (several : Spread content) :
    (Tree.leaf path value).lookup ≠ under other content := by
  intro same
  obtain ⟨i, j, left, right, apart, first, second⟩ := several
  have one : other ++ i :: left = path := by
    apply leaf_key
    rwa [same, under_append]
  have two : other ++ j :: right = path := by
    apply leaf_key
    rwa [same, under_append]
  exact apart (cons.inj (append_cancel_left (one.trans two.symm))).1

/-- A canonical tree is determined by the map that it stands for. -/
theorem Canonical.ext_lookup {m : Nat} {left right : Tree ι V} (ofLeft : Canonical n left) (ofRight : Canonical m right)
    (same : left.lookup = right.lookup) : left = right := by
  induction ofLeft generalizing m right with
  | empty =>
    by_contra differ
    obtain ⟨key, found⟩ := ofRight.exists_key (Ne.symm differ)
    exact found (congrFun same key).symm
  | @leaf path value =>
    cases ofRight with
    | empty => exact absurd same leaf_ne_empty
    | @leaf other new =>
      have equal := congrFun same path
      rw [lookup_leaf, lookup_leaf, if_pos rfl] at equal
      split at equal
      · next alike =>
        cases alike
        cases equal
        rfl
      · cases equal
    | ext long below => exact absurd same (leaf_ne_under_spread below.spread)
    | branch below several =>
      have spread := (Canonical.branch below several).spread
      exact absurd (same.trans (under_nil _).symm) (leaf_ne_under_spread spread)
  | @ext n path children long below next =>
    cases ofRight with
    | empty =>
      obtain ⟨key, found⟩ := (Canonical.ext long below).exists_key nofun
      exact absurd (congrFun same key) found
    | leaf => exact absurd same.symm (leaf_ne_under_spread below.spread)
    | @ext _ other _ longOther belowOther =>
      obtain ⟨rfl, inner⟩ := under_inj_of_spread below.spread belowOther.spread same
      rw [next belowOther inner]
    | branch belowOther several =>
      have spread := (Canonical.branch belowOther several).spread
      obtain ⟨rfl, -⟩ := under_inj_of_spread below.spread spread (same.trans (under_nil _).symm)
      exact absurd rfl long
  | @branch n children below several next =>
    have spread := (Canonical.branch below several).spread
    cases ofRight with
    | empty =>
      obtain ⟨key, found⟩ := (Canonical.branch below several).exists_key nofun
      exact absurd (congrFun same key) found
    | leaf => exact absurd (same.symm.trans (under_nil _).symm) (leaf_ne_under_spread spread)
    | ext long belowOther =>
      obtain ⟨rfl, -⟩ := under_inj_of_spread spread belowOther.spread ((under_nil _).trans same)
      exact absurd rfl long
    | @branch _ others belowOther severalOther =>
      congr 1
      funext i
      apply next i (belowOther i)
      funext key
      simpa using congrFun same (i :: key)

end Unique

end Tree
end Patricia
end Boxd.Lib
