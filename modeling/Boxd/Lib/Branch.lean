import Mathlib.Data.List.Chain
import Mathlib.Data.List.Nodup
import Mathlib.Data.Set.Basic
import Mathlib.Logic.Relation
import Mathlib.Order.Basic
import Mathlib.Tactic.Common

/-! Branches of a tree whose nodes name their parent by its key and count the steps to
the root. A branch is a list, the highest node first. -/

namespace Boxd.Lib
open List Nat

structure Links (β κ : Type*) where
  key : β → κ
  prev : β → κ
  height : β → Nat

namespace Links

variable {β κ : Type*} (links : Links β κ)

structure ChildOf (child parent : β) : Prop where
  prev_eq : links.prev child = links.key parent
  height_eq : links.height child = links.height parent + 1

/-- Among some nodes, the first one is a descendant of the second, or the same. -/
def Descends (among : Set β) : β → β → Prop :=
  Relation.ReflTransGen fun child parent => parent ∈ among ∧ links.ChildOf child parent

structure Branch (root : β) (nodes : List β) : Prop where
  linked : nodes.IsChain links.ChildOf
  last : nodes.getLast? = some root
  root_height : links.height root = 0

variable {links}

theorem Descends.height_le {among : Set β} {node ancestor : β} (descends : links.Descends among node ancestor) :
    links.height ancestor ≤ links.height node := by
  induction descends with
  | refl => exact le_refl _
  | tail _ step lower => exact le_trans (by rw [step.2.height_eq]; exact le_succ _) lower

theorem Descends.eq_of_height_eq {among : Set β} {node ancestor : β} (descends : links.Descends among node ancestor)
    (same : links.height node = links.height ancestor) : node = ancestor := by
  cases descends with
  | refl => rfl
  | tail before step =>
    have lower := Descends.height_le before
    have higher := step.2.height_eq
    omega

section Injective

variable {among : Set β} (injective : Set.InjOn links.key among) {node left right : β}
include injective

/-- Of two ancestors of a node the higher one descends from the other. -/
theorem Descends.of_le (first : links.Descends among node left) (second : links.Descends among node right)
    (lower : links.height right ≤ links.height left) : links.Descends among left right := by
  induction first with
  | refl => exact second
  | tail _ step next =>
    have higher := step.2.height_eq
    rcases (next (by omega)).cases_head with rfl | ⟨parent, step', later⟩
    · omega
    · exact injective step'.1 step.1 (step'.2.prev_eq.symm.trans step.2.prev_eq) ▸ later

theorem Descends.unique (first : links.Descends among node left) (second : links.Descends among node right)
    (same : links.height left = links.height right) : left = right :=
  (first.of_le injective second same.ge).eq_of_height_eq same

end Injective

section Linked

variable {nodes : List β} (linked : nodes.IsChain links.ChildOf)
include linked

theorem heights_fall : (nodes.map links.height).Pairwise (· > ·) := by
  have falling : (nodes.map links.height).IsChain (· > ·) := by
    rw [isChain_map]
    exact linked.imp fun child parent step => by rw [step.height_eq]; exact lt_succ_self _
  exact falling.pairwise

theorem eq_of_height_eq {left right : β} (leftMember : left ∈ nodes) (rightMember : right ∈ nodes)
    (same : links.height left = links.height right) : left = right := by
  have distinct : (nodes.map links.height).Nodup := (heights_fall linked).imp fun lower => ne_of_gt lower
  exact inj_on_of_nodup_map distinct leftMember rightMember same

theorem mem_of_height_le {front rest : List β} {node other : β} (split : nodes = front ++ node :: rest)
    (member : other ∈ nodes) (lower : links.height other ≤ links.height node) : other ∈ node :: rest := by
  subst split
  rcases mem_append.mp member with above | below
  · have falls := heights_fall linked
    rw [map_append, pairwise_append] at falls
    have higher := falls.2.2 _ (mem_map_of_mem above) _ (mem_map_of_mem mem_cons_self)
    omega
  · exact below

theorem descends_of_mem {among : Set β} (members : ∀ node ∈ nodes, node ∈ among) {top node : β}
    (first : nodes.head? = some top) (member : node ∈ nodes) : links.Descends among top node := by
  induction nodes generalizing top with
  | nil => cases member
  | cons head rest next =>
    cases first
    rw [forall_mem_cons] at members
    rcases mem_cons.mp member with rfl | later
    · exact .refl
    · cases rest with
      | nil => cases later
      | cons second rest =>
        rw [isChain_cons_cons] at linked
        exact .head ⟨members.2 _ mem_cons_self, linked.1⟩ (next linked.2 members.2 rfl later)

end Linked

namespace Branch

variable {root : β} {nodes : List β}

section
variable (branch : links.Branch root nodes)
include branch

theorem exists_mem_height {top : β} (first : nodes.head? = some top) {height : Nat}
    (below : height ≤ links.height top) : ∃ node ∈ nodes, links.height node = height := by
  obtain ⟨linked, last, zero⟩ := branch
  induction nodes generalizing top with
  | nil => cases first
  | cons head rest next =>
    cases first
    by_cases same : height = links.height head
    · exact ⟨head, mem_cons_self, same.symm⟩
    · cases rest with
      | nil =>
        have only : head = root := by simpa using last
        rw [only] at below same
        omega
      | cons second rest =>
        rw [isChain_cons_cons] at linked
        have lower : height ≤ links.height second := by
          have step := linked.1.height_eq
          omega
        obtain ⟨node, member, found⟩ := next rfl lower linked.2 last
        exact ⟨node, mem_cons_of_mem _ member, found⟩

theorem height_le {top node : β} (first : nodes.head? = some top)
    (member : node ∈ nodes) : links.height node ≤ links.height top :=
  (descends_of_mem branch.linked (fun _ _ => Set.mem_univ _) first member).height_le

theorem cons {child parent : β} (first : nodes.head? = some parent)
    (step : links.ChildOf child parent) : links.Branch root (child :: nodes) := by
  cases nodes with
  | nil => cases first
  | cons head rest =>
    cases first
    exact ⟨isChain_cons_cons.mpr ⟨step, branch.linked⟩, branch.last, branch.root_height⟩

theorem tail {child parent : β} {rest : List β}
    (split : nodes = child :: parent :: rest) : links.Branch root (parent :: rest) := by
  subst split
  exact ⟨(isChain_cons_cons.mp branch.linked).2, branch.last, branch.root_height⟩

theorem eq_root {node : β} (member : node ∈ nodes) (zero : links.height node = 0) : node = root :=
  eq_of_height_eq branch.linked member (mem_of_getLast? branch.last) (zero.trans branch.root_height.symm)

end

end Branch
end Links
end Boxd.Lib
