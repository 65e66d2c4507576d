import Mathlib.Data.UInt
import Mathlib.Data.List.Nodup
import Mathlib.Data.Set.Function
import Mathlib.Data.Nat.Log

/-! Merkle trees that are stored level by level in one array. The lowest level is filled up
to a power of two; a node without a right sibling is combined with itself. The root
determines lists of one length if no combined pairs collide, and lists without repetitions
whatever their lengths. -/

namespace Boxd.Lib
open List Nat Function Option Prod

variable {α : Type*} (combine : α → α → α)

def merkleJoin : Option α → Option α → Option α
  | none, _ => none
  | some left, none => some (combine left left)
  | some left, some right => some (combine left right)

/-- The level above one of even length. -/
def pairUp : List (Option α) → List (Option α)
  | left :: right :: rest => merkleJoin combine left right :: pairUp rest
  | _ => []

/-- A level of two to the given power of nodes, followed by the levels above it. -/
def merkleLevels : Nat → List (Option α) → List (Option α)
  | 0, level => level
  | height + 1, level => level ++ merkleLevels height (pairUp combine level)

/-- The smallest power of two that is not below a number. -/
def calcLowestHierarchyCount (n : Nat) : Nat := if n &&& (n - 1) = 0 then n else 1 <<< (log2 n + 1)

/-- The whole array, or nothing for an empty list. -/
def buildMerkleRoot (hashs : List α) : Option (List (Option α)) :=
  if hashs = [] then none
  else
    let leafSize := calcLowestHierarchyCount hashs.length
    some (merkleLevels combine (log2 leafSize)
      (hashs.map some ++ replicate (leafSize - hashs.length) none))

def merkleRoot (hashs : List α) : Option α := (buildMerkleRoot combine hashs).bind fun merkles => merkles.getLast?.join

/-- The pairs that are combined above a level without its missing nodes. -/
def pairsOf : List α → List (α × α)
  | [] => []
  | [last] => [(last, last)]
  | left :: right :: rest => (left, right) :: pairsOf rest

def parents (level : List α) : List α := (pairsOf level).map fun pair => combine pair.1 pair.2

def combinedPairs (height : Nat) (level : List α) : Set (α × α) :=
  {pair | ∃ below < height, pair ∈ pairsOf ((parents combine)^[below] level)}

private theorem pairUp_missing (count : Nat) :
    pairUp combine (replicate (2 * count) none) = replicate count none := by
  induction count with
  | zero => rfl
  | succ count ih =>
    rw [show 2 * (count + 1) = 2 * count + 2 by omega, replicate_succ, replicate_succ, pairUp, ih]
    rfl

private theorem pairUp_level : ∀ (level : List α) (missing half : Nat), level.length + missing = 2 * half →
    ∃ fewer, pairUp combine (level.map some ++ replicate missing none) =
        (parents combine level).map some ++ replicate fewer none ∧
      (parents combine level).length + fewer = half
  | [], missing, half, even => by
    obtain rfl : missing = 2 * half := by simpa using even
    exact ⟨half, by simpa [parents, pairsOf] using pairUp_missing combine half, by simp [parents, pairsOf]⟩
  | [last], missing, half, even => by
    obtain ⟨half, rfl⟩ : ∃ fewer, half = fewer + 1 := ⟨half - 1, by simp at even; omega⟩
    obtain rfl : missing = 2 * half + 1 := by
      simp at even
      omega
    refine ⟨half, ?_, by simp [parents, pairsOf]; omega⟩
    rw [replicate_succ]
    simp [pairUp, merkleJoin, parents, pairsOf, pairUp_missing]
  | left :: right :: rest, missing, half, even => by
    obtain ⟨half, rfl⟩ : ∃ fewer, half = fewer + 1 := ⟨half - 1, by simp at even; omega⟩
    obtain ⟨fewer, above, count⟩ := pairUp_level rest missing half (by simp at even; omega)
    refine ⟨fewer, ?_, by simp [parents, pairsOf] at count ⊢; omega⟩
    simp only [map_cons, cons_append, pairUp, above]
    simp [merkleJoin, parents, pairsOf]

private theorem parents_ne_nil {level : List α} (present : level ≠ []) : parents combine level ≠ [] := by
  match level, present with
  | [last], _ => simp [parents, pairsOf]
  | left :: right :: rest, _ => simp [parents, pairsOf]

private theorem merkleLevels_root (height : Nat) : ∀ (level : List α) (missing : Nat), level ≠ [] →
    level.length + missing = 2 ^ height →
    (merkleLevels combine height (level.map some ++ replicate missing none)).getLast?.join =
      ((parents combine)^[height] level).head? ∧ ((parents combine)^[height] level).length = 1 := by
  induction height with
  | zero =>
    intro level missing present width
    have filled := length_pos_iff.mpr present
    obtain rfl : missing = 0 := by omega
    obtain ⟨root, rfl⟩ := length_eq_one_iff.mp (show level.length = 1 by omega)
    simp [merkleLevels]
  | succ height ih =>
    intro level missing present width
    obtain ⟨fewer, above, count⟩ := pairUp_level combine level missing (2 ^ height) (by rw [width, pow_succ]; omega)
    obtain ⟨root, single⟩ := ih (parents combine level) fewer (parents_ne_nil combine present) count
    rw [iterate_succ_apply]
    refine ⟨?_, single⟩
    rw [merkleLevels, above, getLast?_append, ← root]
    obtain ⟨node, unique⟩ := length_eq_one_iff.mp single
    rw [unique] at root
    cases last : (merkleLevels combine height
        ((parents combine level).map some ++ replicate fewer none)).getLast? with
    | none => simp [last] at root
    | some found => rfl

private theorem calcLowestHierarchyCount_spec {n : Nat} (positive : n ≠ 0) :
    n ≤ calcLowestHierarchyCount n ∧ calcLowestHierarchyCount n = 2 ^ log2 (calcLowestHierarchyCount n) := by
  unfold calcLowestHierarchyCount
  split
  · next power =>
    obtain ⟨height, rfl⟩ := (and_sub_one_eq_zero_iff_isPowerOfTwo positive).mp power
    simp [log2_two_pow]
  · rw [one_shiftLeft, log2_two_pow]
    exact ⟨le_of_lt lt_log2_self, rfl⟩

def merkleHeight (length : Nat) : Nat := log2 (calcLowestHierarchyCount length)

/-- The root is what is left after taking parents as often as the tree is high. -/
theorem merkleRoot_eq {hashs : List α} (present : hashs ≠ []) :
    ∃ top, merkleRoot combine hashs = some top ∧ (parents combine)^[merkleHeight hashs.length] hashs = [top] := by
  have filled := length_pos_iff.mpr present
  obtain ⟨fits, width⟩ := calcLowestHierarchyCount_spec (n := hashs.length) (by omega)
  obtain ⟨root, single⟩ := merkleLevels_root combine (merkleHeight hashs.length) hashs
    (calcLowestHierarchyCount hashs.length - hashs.length) present (by rw [merkleHeight, ← width]; omega)
  obtain ⟨top, is⟩ := length_eq_one_iff.mp single
  refine ⟨top, ?_, is⟩
  simp only [merkleRoot, buildMerkleRoot, if_neg present, bind_some]
  rw [is] at root
  exact root

theorem merkleRoot_nil : merkleRoot combine [] = none := by simp [merkleRoot, buildMerkleRoot]

private theorem pairsOf_length (level : List α) : (pairsOf level).length = (level.length + 1) / 2 := by
  match level with
  | [] => simp [pairsOf]
  | [last] => simp [pairsOf]
  | left :: right :: rest =>
    have fewer := pairsOf_length rest
    simp only [pairsOf, length_cons, fewer]
    omega

private theorem pairsOf_inj : ∀ {left right : List α}, left.length = right.length → pairsOf left = pairsOf right →
    left = right
  | [], [], _, _ => rfl
  | [first], [second], _, same => by simpa [pairsOf] using same
  | a :: b :: rest, c :: d :: others, length, same => by
    simp only [pairsOf, cons.injEq, mk.injEq] at same
    obtain ⟨⟨rfl, rfl⟩, tail⟩ := same
    rw [pairsOf_inj (by simpa using length) tail]

theorem map_injOn {β : Type*} {change : α → β} {free : Set α} (injective : Set.InjOn change free) :
    ∀ {left right : List α}, (∀ item ∈ left, item ∈ free) → (∀ item ∈ right, item ∈ free) →
    left.map change = right.map change → left = right
  | [], [], _, _, _ => rfl
  | first :: rest, second :: others, leftFree, rightFree, same => by
    simp only [map_cons, cons.injEq] at same
    simp only [mem_cons, forall_eq_or_imp] at leftFree rightFree
    rw [injective leftFree.1 rightFree.1 same.1, map_injOn injective leftFree.2 rightFree.2 same.2]

private theorem iterate_parents_inj {free : Set (α × α)}
    (injective : Set.InjOn (fun pair => combine pair.1 pair.2) free) (height : Nat) : ∀ {left right : List α},
    left.length = right.length → combinedPairs combine height left ⊆ free →
    combinedPairs combine height right ⊆ free →
    (parents combine)^[height] left = (parents combine)^[height] right → left = right := by
  induction height with
  | zero =>
    intro left right _ _ _ same
    exact same
  | succ height ih =>
    intro left right length leftFree rightFree same
    rw [iterate_succ_apply, iterate_succ_apply] at same
    have above {level : List α} (covered : combinedPairs combine (height + 1) level ⊆ free) :
        combinedPairs combine height (parents combine level) ⊆ free := by
      rintro pair ⟨below, bound, member⟩
      exact covered ⟨below + 1, by omega, by rwa [iterate_succ_apply]⟩
    have lowest {level : List α} (covered : combinedPairs combine (height + 1) level ⊆ free) :
        ∀ pair ∈ pairsOf level, pair ∈ free := fun pair member => covered ⟨0, by omega, member⟩
    have equal := ih (by simp [parents, pairsOf_length, length]) (above leftFree) (above rightFree) same
    exact pairsOf_inj length (map_injOn injective (lowest leftFree) (lowest rightFree) equal)

/-- Two lists of one length with the same root are equal, unless two different pairs
that are combined below the root collide. -/
theorem merkleRoot_inj {left right : List α} {free : Set (α × α)}
    (injective : Set.InjOn (fun pair => combine pair.1 pair.2) free) (length : left.length = right.length)
    (leftFree : combinedPairs combine (merkleHeight left.length) left ⊆ free)
    (rightFree : combinedPairs combine (merkleHeight right.length) right ⊆ free)
    (same : merkleRoot combine left = merkleRoot combine right) : left = right := by
  by_cases present : left = []
  · subst present
    exact (eq_nil_of_length_eq_zero length.symm).symm
  · have other : right ≠ [] := by
      rintro rfl
      exact present (eq_nil_of_length_eq_zero length)
    obtain ⟨leftTop, leftRoot, leftIs⟩ := merkleRoot_eq combine present
    obtain ⟨rightTop, rightRoot, rightIs⟩ := merkleRoot_eq combine other
    rw [← length] at rightIs rightFree
    rw [leftRoot, rightRoot, some.injEq] at same
    apply iterate_parents_inj combine injective _ length leftFree rightFree
    rw [leftIs, rightIs, same]

theorem mem_combinedPairs {height : Nat} {level : List α} {pair : α × α} : pair ∈ combinedPairs combine height level ↔
      pair ∈ (range height).flatMap fun below => pairsOf ((parents combine)^[below] level) := by
  simp [combinedPairs]

private theorem mem_of_mem_pairsOf : ∀ {level : List α} {pair : α × α}, pair ∈ pairsOf level → pair.1 ∈ level
  | [last], pair, member => by
    obtain rfl := mem_singleton.mp member
    exact mem_singleton_self _
  | left :: right :: rest, pair, member => by
    rcases mem_cons.mp member with rfl | later
    · exact mem_cons_self
    · exact mem_cons_of_mem _ (mem_cons_of_mem _ (mem_of_mem_pairsOf later))

private theorem pairsOf_nodup : ∀ {level : List α}, level.Nodup → (pairsOf level).Nodup
  | [], _ => nodup_nil
  | [last], _ => nodup_singleton _
  | left :: right :: rest, once => by
    simp only [nodup_cons, mem_cons, not_or] at once
    refine nodup_cons.mpr ⟨?_, pairsOf_nodup once.2.2⟩
    intro again
    exact once.1.2 (mem_of_mem_pairsOf again)

/-- Only a single node and its double have the same pairs. -/
private theorem pairsOf_inj_of_nodup : ∀ {left right : List α}, left.Nodup → right.Nodup →
    pairsOf left = pairsOf right → left = right
  | [], [], _, _, _ => rfl
  | [], [_], _, _, same => by simp [pairsOf] at same
  | [], _ :: _ :: _, _, _, same => by simp [pairsOf] at same
  | [_], [], _, _, same => by simp [pairsOf] at same
  | _ :: _ :: _, [], _, _, same => by simp [pairsOf] at same
  | [first], [second], _, _, same => by simpa [pairsOf] using same
  | [last], c :: d :: others, _, once, same => by
    simp only [pairsOf, cons.injEq, mk.injEq] at same
    obtain ⟨⟨rfl, rfl⟩, -⟩ := same
    simp at once
  | a :: b :: rest, [last], once, _, same => by
    simp only [pairsOf, cons.injEq, mk.injEq] at same
    obtain ⟨⟨rfl, rfl⟩, -⟩ := same
    simp at once
  | a :: b :: rest, c :: d :: others, once, other, same => by
    simp only [pairsOf, cons.injEq, mk.injEq] at same
    obtain ⟨⟨rfl, rfl⟩, tail⟩ := same
    rw [pairsOf_inj_of_nodup once.of_cons.of_cons other.of_cons.of_cons tail]

section Distinct

variable {combine} {free : Set (α × α)} (injective : Set.InjOn (fun pair => combine pair.1 pair.2) free)
include injective

private theorem parents_nodup {level : List α} (once : level.Nodup) (covered : ∀ pair ∈ pairsOf level, pair ∈ free) :
    (parents combine level).Nodup := by
  refine Nodup.map_on ?_ (pairsOf_nodup once)
  intro pair member other among collide
  exact injective (covered pair member) (covered other among) collide

private theorem iterate_parents_nodup (above : Nat) {height : Nat} {level : List α} (within : above ≤ height)
    (once : level.Nodup) (covered : combinedPairs combine height level ⊆ free) :
    ((parents combine)^[above] level).Nodup := by
  induction above with
  | zero => exact once
  | succ above next =>
    rw [iterate_succ_apply']
    apply parents_nodup injective (next (by omega))
    intro pair member
    exact covered ⟨above, by omega, member⟩

private theorem iterate_parents_inj_of_nodup (height : Nat) {left right : List α} (once : left.Nodup)
    (other : right.Nodup) (leftFree : combinedPairs combine height left ⊆ free)
    (rightFree : combinedPairs combine height right ⊆ free)
    (same : (parents combine)^[height] left = (parents combine)^[height] right) : left = right := by
  -- Downwards from the root: a level without repetitions is determined by the one above it.
  have below (down : Nat) (within : down ≤ height) :
      (parents combine)^[height - down] left = (parents combine)^[height - down] right := by
    induction down with
    | zero => exact same
    | succ down next =>
      have level : height - down = height - (down + 1) + 1 := by omega
      have above := next (by omega)
      rw [level, iterate_succ_apply', iterate_succ_apply'] at above
      apply pairsOf_inj_of_nodup (iterate_parents_nodup injective _ (by omega) once leftFree)
        (iterate_parents_nodup injective _ (by omega) other rightFree)
      refine map_injOn injective ?_ ?_ above
      · exact fun pair member => leftFree ⟨_, by omega, member⟩
      · exact fun pair member => rightFree ⟨_, by omega, member⟩
  simpa using below height (le_refl _)

/-- A node of a higher level is no leaf, so that trees of different heights have
different roots. -/
private theorem height_le_of_root {left right : List α} {low high : Nat} (once : left.Nodup) (other : right.Nodup)
    (present : left ≠ []) (leftFree : combinedPairs combine low left ⊆ free)
    (rightFree : combinedPairs combine high right ⊆ free)
    (apart : ∀ pair ∈ combinedPairs combine high right, combine pair.1 pair.2 ∉ left)
    (same : (parents combine)^[low] left = (parents combine)^[high] right) : high ≤ low := by
  by_contra higher
  obtain ⟨between, rfl⟩ : ∃ between, high = low + (between + 1) := ⟨high - low - 1, by omega⟩
  rw [iterate_add_apply] at same
  have raised : combinedPairs combine low ((parents combine)^[between + 1] right) ⊆ free := by
    rintro pair ⟨below, bound, member⟩
    rw [← iterate_add_apply] at member
    exact rightFree ⟨below + (between + 1), by omega, member⟩
  have equal := iterate_parents_inj_of_nodup injective low once
    (iterate_parents_nodup injective (between + 1) (by omega) other rightFree) leftFree raised same
  obtain ⟨leaf, leaves⟩ := exists_mem_of_ne_nil left present
  have inner := leaves
  rw [equal, iterate_succ_apply'] at inner
  obtain ⟨pair, member, rfl⟩ := mem_map.mp inner
  exact apart pair ⟨between, by omega, member⟩ leaves

/-- Two lists without repetitions that have the same root are equal, whatever their
lengths, when no leaf is a node above the leaves and no two combined pairs collide. -/
theorem merkleRoot_inj_of_nodup {left right : List α} (once : left.Nodup) (other : right.Nodup)
    (leftFree : combinedPairs combine (merkleHeight left.length) left ⊆ free)
    (rightFree : combinedPairs combine (merkleHeight right.length) right ⊆ free)
    (leftApart : ∀ pair ∈ combinedPairs combine (merkleHeight right.length) right, combine pair.1 pair.2 ∉ left)
    (rightApart : ∀ pair ∈ combinedPairs combine (merkleHeight left.length) left, combine pair.1 pair.2 ∉ right)
    (same : merkleRoot combine left = merkleRoot combine right) : left = right := by
  by_cases present : left = []
  · subst present
    by_contra filled
    obtain ⟨top, root, -⟩ := merkleRoot_eq combine (Ne.symm filled)
    rw [merkleRoot_nil, root] at same
    cases same
  · obtain ⟨leftTop, leftRoot, leftIs⟩ := merkleRoot_eq combine present
    by_cases filled : right = []
    · subst filled
      rw [merkleRoot_nil, leftRoot] at same
      cases same
    · obtain ⟨rightTop, rightRoot, rightIs⟩ := merkleRoot_eq combine filled
      rw [leftRoot, rightRoot, some.injEq] at same
      have tops : (parents combine)^[merkleHeight left.length] left =
          (parents combine)^[merkleHeight right.length] right := by rw [leftIs, rightIs, same]
      have heights : merkleHeight left.length = merkleHeight right.length := by
        apply le_antisymm
        · exact height_le_of_root injective other once filled rightFree leftFree rightApart tops.symm
        · exact height_le_of_root injective once other present leftFree rightFree leftApart tops
      rw [← heights] at tops rightFree
      exact iterate_parents_inj_of_nodup injective _ once other leftFree rightFree tops

end Distinct

end Boxd.Lib
