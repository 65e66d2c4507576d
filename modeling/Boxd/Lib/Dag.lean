import Mathlib.Data.List.Count
import Mathlib.Data.List.Nodup
import Mathlib.Data.Set.Finite.Basic
import Mathlib.Logic.Function.Basic
import Mathlib.Logic.Relation
import Mathlib.Tactic.Common

/-! Directed graphs with weighted nodes, the search for a cycle, and the topological order
by generations: nodes without open parents come first, each generation in queue order. -/

namespace Boxd.Lib
open List Function Relation

structure Dag (κ : Type*) where
  keys : List κ
  weight : κ → Int
  children : κ → List κ
  pNum : κ → Int

/-- Every node of the list comes after all its parents. -/
def Topological {κ : Type*} (edge : κ → κ → Prop) (list : List κ) : Prop :=
  ∀ before node after, list = before ++ node :: after → ∀ parent, edge parent node → parent ∈ before

theorem topological_append {κ : Type*} {edge : κ → κ → Prop} {list more : List κ} (ordered : Topological edge list)
    (ready : ∀ node ∈ more, ∀ parent, edge parent node → parent ∈ list) : Topological edge (list ++ more) := by
  intro before node after split parent above
  rcases append_eq_append_iff.mp split with ⟨between, rfl, rest⟩ | ⟨between, rfl, rest⟩
  · refine mem_append_left _ (ready node ?_ parent above)
    rw [rest]
    exact mem_append_right _ mem_cons_self
  · cases between with
    | nil =>
      rw [nil_append] at rest
      have last := ready node (rest ▸ mem_cons_self) parent above
      rwa [append_nil] at last
    | cons first others =>
      cases rest
      exact ordered before node others rfl parent above

theorem Topological.mem_before {κ : Type*} {edge : κ → κ → Prop} {list : List κ} (ordered : Topological edge list) {parent node : κ}
    (path : TransGen edge parent node) : ∀ before after, list = before ++ node :: after → parent ∈ before := by
  induction path with
  | single step => exact fun before after split => ordered before _ after split _ step
  | tail _ step next =>
    intro before after split
    obtain ⟨earlier, between, rfl⟩ := append_of_mem (ordered before _ after split _ step)
    rw [append_assoc, cons_append] at split
    exact mem_append_left _ (next earlier _ split)

theorem Topological.pairwise {κ : Type*} {edge : κ → κ → Prop} {list : List κ} (ordered : Topological edge list)
    (once : list.Nodup) : list.Pairwise fun left right => ¬TransGen edge right left := by
  rw [pairwise_iff_getElem]
  intro i j inside within less path
  have split : list = list.take i ++ list[i] :: list.drop (i + 1) := by
    rw [getElem_cons_drop, take_append_drop]
  obtain ⟨k, bound, same⟩ := mem_take_iff_getElem.mp (ordered.mem_before path _ _ split)
  have equal := once.getElem_inj_iff.mp same
  omega

namespace Dag

variable {κ : Type*} [DecidableEq κ]

def new : Dag κ := ⟨[], fun _ => 0, fun _ => [], fun _ => 0⟩

def addNode (key : κ) (weight : Int) (dag : Dag κ) : Dag κ :=
  if key ∈ dag.keys then dag
  else {
    keys := dag.keys ++ [key]
    weight := update dag.weight key weight
    children := update dag.children key []
    pNum := update dag.pNum key 0 }

def addEdge (fkey tkey : κ) (dag : Dag κ) : Dag κ :=
  if fkey ∉ dag.keys ∨ tkey ∉ dag.keys then dag
  else if tkey ∈ dag.children fkey then dag
  else { dag with
    pNum := update dag.pNum tkey (dag.pNum tkey + 1)
    children := update dag.children fkey (dag.children fkey ++ [tkey]) }

/-- Search below one node after the other, until something is found. -/
def searchAll (search : κ → (κ → Nat) → Option (Bool × (κ → Nat))) : List κ → (κ → Nat) → Option (Bool × (κ → Nat))
  | [], visited => some (false, visited)
  | node :: rest, visited =>
    (search node visited).bind fun state => if state.1 then some state else searchAll search rest state.2

/-- Search below a node. A node is marked with one while it is on the path, and with two
afterwards. The fuel bounds the length of the path. -/
def hasCirclularDep (dag : Dag κ) : (fuel : Nat) → (current : κ) → (visited : κ → Nat) → Option (Bool × (κ → Nat))
  | 0, _, _ => none
  | fuel + 1, current, visited =>
    (searchAll (fun child visited => if visited child = 1 then some (true, visited) else hasCirclularDep dag fuel child visited)
      (dag.children current) (update visited current 1)).map fun below =>
        if below.1 then below else (false, update below.2 current 2)

/-- Search below all nodes, in the order of a map. -/
def isCirclular (dag : Dag κ) (order : List κ) : Option Bool :=
  (searchAll (hasCirclularDep dag dag.keys.length) order fun _ => 0).map fun state =>
    state.1 || order.any (state.2 · == 0)

/-- What is released while a generation is worked off: the nodes of the queue, the next
generation, and the numbers of open parents. -/
structure Released (κ : Type*) where
  queue : List κ
  tempNodes : List κ
  pNum : κ → Int

def releaseChild (state : Released κ) (child : κ) : Released κ :=
  let left := state.pNum child - 1
  { state with
    pNum := update state.pNum child left
    tempNodes := if left = 0 then state.tempNodes ++ [child] else state.tempNodes }

def releaseNode (dag : Dag κ) (state : Released κ) (node : κ) : Released κ :=
  if state.pNum node = 0 then (dag.children node).foldl releaseChild { state with queue := state.queue ++ [node] }
  else state

/-- One generation after the other. Every generation has a node, so there are at most as
many as nodes. -/
def sortNodes (dag : Dag κ) (drain : List κ → List κ) :
    (fuel : Nat) → (rootNodes : List κ) → (pNum : κ → Int) → (sortedNodes : List κ) → Option (List κ)
  | 0, _, _, _ => none
  | fuel + 1, rootNodes, pNum, sortedNodes =>
    let state := rootNodes.foldl (releaseNode dag) ⟨[], [], pNum⟩
    let sortedNodes := sortedNodes ++ drain state.queue
    if state.tempNodes = [] then some sortedNodes else sortNodes dag drain fuel state.tempNodes state.pNum sortedNodes

/-- The nodes in topological order; a queue orders each generation by weight. -/
def topoSort (dag : Dag κ) (drain : (κ → Int) → List κ → List κ) (order : List κ) : Option (List κ) :=
  sortNodes dag (drain dag.weight) (dag.keys.length + 1) (order.filter fun key => dag.pNum key = 0) dag.pNum []

def Edge (dag : Dag κ) (parent child : κ) : Prop := parent ∈ dag.keys ∧ child ∈ dag.children parent

def openParents (dag : Dag κ) (done : List κ) (key : κ) : Nat :=
  dag.keys.countP fun parent => parent ∉ done ∧ key ∈ dag.children parent

structure Sound (dag : Dag κ) : Prop where
  keys : dag.keys.Nodup
  inside : ∀ parent child, dag.Edge parent child → child ∈ dag.keys
  once : ∀ parent ∈ dag.keys, (dag.children parent).Nodup
  counted : ∀ key ∈ dag.keys, dag.pNum key = dag.openParents [] key

section Build

variable {dag : Dag κ}

theorem Sound.new : Sound (new : Dag κ) := ⟨nodup_nil, nofun, nofun, nofun⟩

theorem keys_addNode (key : κ) (weight : Int) (dag : Dag κ) (other : κ) :
    other ∈ (dag.addNode key weight).keys ↔ other ∈ dag.keys ∨ other = key := by
  unfold addNode
  split
  · next present =>
    refine ⟨.inl, fun either => either.elim id ?_⟩
    rintro rfl
    exact present
  · simp only [mem_append, mem_singleton]

theorem keys_addEdge (fkey tkey : κ) (dag : Dag κ) : (dag.addEdge fkey tkey).keys = dag.keys := by
  unfold addEdge
  split
  · rfl
  · split <;> rfl

theorem edge_addNode (dag : Dag κ) (key : κ) (weight : Int) (parent child : κ) :
    (dag.addNode key weight).Edge parent child ↔ dag.Edge parent child := by
  unfold addNode
  split
  · rfl
  · next absent =>
    constructor
    · rintro ⟨member, edge⟩
      by_cases same : parent = key
      · simp [same] at edge
      · simp only [update_of_ne same] at edge
        rcases mem_append.mp member with member | new
        · exact ⟨member, edge⟩
        · exact absurd (mem_singleton.mp new) same
    · rintro ⟨member, edge⟩
      have differ : parent ≠ key := fun same => absent (same ▸ member)
      refine ⟨mem_append_left _ member, ?_⟩
      simp only [update_of_ne differ]
      exact edge

theorem edge_addEdge (dag : Dag κ) (fkey tkey : κ) (parent child : κ) : (dag.addEdge fkey tkey).Edge parent child ↔
      dag.Edge parent child ∨ (fkey ∈ dag.keys ∧ tkey ∈ dag.keys ∧ parent = fkey ∧ child = tkey) := by
  unfold addEdge
  split
  · next missing =>
    refine ⟨.inl, fun either => either.elim id ?_⟩
    rintro ⟨there, also, -⟩
    exact absurd missing (not_or.mpr ⟨not_not.mpr there, not_not.mpr also⟩)
  · next present =>
    simp only [not_or, not_not] at present
    split
    · next known =>
      refine ⟨.inl, fun either => either.elim id ?_⟩
      rintro ⟨-, -, rfl, rfl⟩
      exact ⟨present.1, known⟩
    · unfold Edge
      by_cases same : parent = fkey
      · subst same
        simp only [update_self, mem_append, mem_singleton, present, true_and]
      · simp only [update_of_ne same, same, false_and, and_false, or_false]

omit [DecidableEq κ] in
/-- A number of parents that differs in one of them. -/
theorem countP_insert {keys : List κ} (once : keys.Nodup) {one : κ} (member : one ∈ keys) (left right : κ → Bool)
    (before : left one = false) (after : right one = true) (same : ∀ key ∈ keys, key ≠ one → left key = right key) :
    keys.countP right = keys.countP left + 1 := by
  obtain ⟨front, back, rfl⟩ := append_of_mem member
  have apart := nodup_middle.mp once
  obtain ⟨absent, -⟩ := nodup_cons.mp apart
  have equal (part : List κ) (within : part ⊆ front ++ back) : part.countP right = part.countP left := by
    refine countP_congr fun key among => ?_
    rw [same key]
    · have inside := within among
      simp only [mem_append, mem_cons] at inside ⊢
      tauto
    · rintro rfl
      exact absent (within among)
  simp only [countP_append, countP_cons, before, after, equal front (subset_append_left _ _),
    equal back (subset_append_right _ _)]
  simp
  omega

theorem Sound.addNode (sound : Sound dag) (key : κ) (weight : Int) : Sound (dag.addNode key weight) := by
  by_cases present : key ∈ dag.keys
  · rw [Dag.addNode, if_pos present]
    exact sound
  have edges := edge_addNode dag key weight
  rw [Dag.addNode, if_neg present] at edges ⊢
  refine ⟨?_, ?_, ?_, ?_⟩
  · exact nodup_append.mpr ⟨sound.keys, nodup_singleton _, by
      rintro other member _ among rfl
      exact present (mem_singleton.mp among ▸ member)⟩
  · intro parent child edge
    exact mem_append_left _ (sound.inside parent child ((edges parent child).mp edge))
  · intro parent member
    by_cases same : parent = key
    · simp [same]
    · simp only [update_of_ne same]
      exact sound.once parent ((mem_append.mp member).resolve_right fun new => same (mem_singleton.mp new))
  · intro other member
    -- No parent gains a child, and the new node has none.
    have count : (dag.keys ++ [key]).countP (fun parent => decide (parent ∉ ([] : List κ) ∧
        other ∈ update dag.children key [] parent)) = dag.openParents [] other := by
      have last : [key].countP (fun parent => decide (parent ∉ ([] : List κ) ∧
          other ∈ update dag.children key [] parent)) = 0 := by simp
      rw [countP_append, last, Nat.add_zero]
      refine countP_congr fun parent among => ?_
      have differ : parent ≠ key := fun same => present (same ▸ among)
      rw [update_of_ne differ]
    refine Eq.trans ?_ (congrArg Nat.cast count.symm)
    by_cases same : other = key
    · subst same
      have none_ : dag.openParents [] other = 0 := by
        refine countP_eq_zero.mpr fun parent among edge => ?_
        exact present (sound.inside parent other ⟨among, (of_decide_eq_true edge).2⟩)
      simp only [none_, update_self]
      rfl
    · have old := (mem_append.mp member).resolve_right fun new => same (mem_singleton.mp new)
      simp only [update_of_ne same, sound.counted other old]

theorem Sound.addEdge (sound : Sound dag) (fkey tkey : κ) : Sound (dag.addEdge fkey tkey) := by
  have edges := edge_addEdge dag fkey tkey
  unfold Dag.addEdge at edges ⊢
  split
  · exact sound
  · next present =>
    simp only [not_or, not_not] at present
    rw [if_neg (by simpa using present)] at edges
    split
    · exact sound
    · next fresh =>
      rw [if_neg fresh] at edges
      refine ⟨sound.keys, ?_, ?_, ?_⟩
      · intro parent child edge
        rcases (edges parent child).mp edge with old | ⟨-, there, -, rfl⟩
        · exact sound.inside parent child old
        · exact there
      · intro parent member
        by_cases same : parent = fkey
        · subst same
          simp only [update_self]
          refine nodup_append.mpr ⟨sound.once parent member, nodup_singleton _, ?_⟩
          rintro child among _ new rfl
          exact fresh (mem_singleton.mp new ▸ among)
        · simp only [update_of_ne same]
          exact sound.once parent member
      · intro key member
        by_cases same : key = tkey
        · subst same
          have more := countP_insert sound.keys present.1
            (fun parent => decide (parent ∉ ([] : List κ) ∧ key ∈ dag.children parent))
            (fun parent => decide (parent ∉ ([] : List κ) ∧
              key ∈ update dag.children fkey (dag.children fkey ++ [key]) parent))
            (by simp [fresh]) (by simp) (fun parent among differ => by rw [update_of_ne differ])
          simp only [update_self, sound.counted key member]
          exact (congrArg Nat.cast more).symm
        · simp only [update_of_ne same, sound.counted key member]
          refine congrArg Nat.cast (countP_congr fun parent among => ?_)
          by_cases from_ : parent = fkey
          · simp [from_, same]
          · simp only [update_of_ne from_]

/-- A graph that another one was made from by adding nodes and edges. -/
structure Grown (allowed : κ → Prop) (dag larger : Dag κ) : Prop where
  sound : dag.Sound → larger.Sound
  keys : ∀ key ∈ dag.keys, key ∈ larger.keys
  edges : ∀ parent child, dag.Edge parent child → larger.Edge parent child
  within : ∀ key ∈ larger.keys, key ∈ dag.keys ∨ allowed key

theorem Grown.refl (allowed : κ → Prop) (dag : Dag κ) : Grown allowed dag dag :=
  ⟨id, fun _ => id, fun _ _ => id, fun _ => .inl⟩

theorem Grown.trans {allowed : κ → Prop} {larger largest : Dag κ} (first : Grown allowed dag larger)
    (second : Grown allowed larger largest) : Grown allowed dag largest := by
  refine ⟨second.sound ∘ first.sound, fun key known => second.keys key (first.keys key known),
    fun parent child edge => second.edges parent child (first.edges parent child edge), ?_⟩
  intro key known
  exact (second.within key known).elim (first.within key) .inr

theorem Grown.addNode (allowed : κ → Prop) (dag : Dag κ) {key : κ} (ok : allowed key) (weight : Int) :
    Grown allowed dag (dag.addNode key weight) := by
  refine ⟨fun sound => sound.addNode key weight, fun other known => (keys_addNode ..).mpr (.inl known),
    fun parent child => (edge_addNode ..).mpr, ?_⟩
  intro other known
  rcases (keys_addNode ..).mp known with old | rfl
  · exact .inl old
  · exact .inr ok

theorem Grown.addEdge (allowed : κ → Prop) (dag : Dag κ) (fkey tkey : κ) : Grown allowed dag (dag.addEdge fkey tkey) := by
  refine ⟨fun sound => sound.addEdge fkey tkey, fun other known => (keys_addEdge fkey tkey dag).symm ▸ known,
    fun parent child edge => (edge_addEdge ..).mpr (.inl edge), ?_⟩
  intro other known
  rw [keys_addEdge] at known
  exact .inl known

end Build

section Sorting

variable {dag : Dag κ}

theorem openParents_congr {done other : List κ} (same : ∀ key, key ∈ done ↔ key ∈ other) (key : κ) :
    dag.openParents done key = dag.openParents other key :=
  countP_congr fun parent _ => by simp only [same]

theorem openParents_eq_zero {done : List κ} {key : κ} :
    dag.openParents done key = 0 ↔ ∀ parent, dag.Edge parent key → parent ∈ done := by
  simp only [openParents, countP_eq_zero, decide_eq_true_eq, not_and, Edge, and_imp]
  refine forall₂_congr fun parent member => ?_
  rw [not_imp_comm, not_not]

theorem openParents_done (sound : Sound dag) (done : List κ) {node : κ} (member : node ∈ dag.keys) (fresh : node ∉ done)
    (key : κ) :
    dag.openParents done key = dag.openParents (done ++ [node]) key + if key ∈ dag.children node then 1 else 0 := by
  split
  · next child =>
    refine countP_insert sound.keys member _ _ ?_ ?_ ?_
    · simp
    · simp [fresh, child]
    · intro parent _ differ
      simp [differ]
  · next other =>
    refine countP_congr fun parent _ => ?_
    by_cases same : parent = node
    · simp [same, other]
    · simp [same]

theorem releaseChildren (children : List κ) (once : children.Nodup) (state : Released κ) :
    children.foldl releaseChild state = {
      queue := state.queue
      tempNodes := state.tempNodes ++ children.filter fun child => state.pNum child - 1 = 0
      pNum := fun key => state.pNum key - if key ∈ children then 1 else 0 } := by
  induction children generalizing state with
  | nil => simp
  | cons child rest next =>
    obtain ⟨absent, once⟩ := nodup_cons.mp once
    rw [foldl_cons, next once]
    have others : ∀ key ∈ rest, (releaseChild state child).pNum key = state.pNum key := by
      intro key member
      have differ : key ≠ child := fun same => absent (same ▸ member)
      simp only [releaseChild, update_of_ne differ]
    have later : rest.filter (fun key => decide ((releaseChild state child).pNum key - 1 = 0)) =
        rest.filter fun key => decide (state.pNum key - 1 = 0) :=
      filter_congr fun key member => by rw [others key member]
    simp only [later, Released.mk.injEq]
    refine ⟨rfl, ?_, ?_⟩
    · by_cases last : state.pNum child - 1 = 0
      · simp [releaseChild, last]
      · simp [releaseChild, last]
    · funext key
      by_cases same : key = child
      · subst same
        simp [releaseChild, absent]
      · simp [releaseChild, same]

/-- What holds between two generations: some nodes are listed, and the next generation is
exactly the nodes whose parents are all listed. -/
structure Generation (dag : Dag κ) (sorted level : List κ) (pNum : κ → Int) : Prop where
  inside : ∀ key ∈ sorted, key ∈ dag.keys
  once : sorted.Nodup
  levelOnce : level.Nodup
  counted : ∀ key ∈ dag.keys, pNum key = dag.openParents sorted key
  ready : ∀ key, key ∈ level ↔ key ∈ dag.keys ∧ key ∉ sorted ∧ dag.openParents sorted key = 0
  ordered : Topological dag.Edge sorted

/-- In the middle of a generation: some of it is done, and what was released is exactly
what has no open parent and is not of the generation. -/
structure Releasing (dag : Dag κ) (sorted level done : List κ) (state : Released κ) : Prop where
  counted : ∀ key ∈ dag.keys, state.pNum key = dag.openParents (sorted ++ done) key
  queue : state.queue = done
  once : state.tempNodes.Nodup
  released : ∀ key, key ∈ state.tempNodes ↔
    key ∈ dag.keys ∧ key ∉ sorted ∧ key ∉ level ∧ dag.openParents (sorted ++ done) key = 0

theorem Generation.closed {sorted level : List κ} {pNum : κ → Int} (generation : Generation dag sorted level pNum)
    {parent key : κ} (edge : dag.Edge parent key) (listed : key ∈ sorted ∨ key ∈ level) : parent ∈ sorted := by
  rcases listed with listed | next
  · obtain ⟨before, after, split⟩ := append_of_mem listed
    rw [split]
    exact mem_append_left _ (generation.ordered before key after split parent edge)
  · exact openParents_eq_zero.mp ((generation.ready key).mp next).2.2 parent edge

theorem Releasing.node (sound : Sound dag) {sorted level done : List κ} {pNum : κ → Int} {state : Released κ} {node : κ}
    (generation : Generation dag sorted level pNum) (releasing : Releasing dag sorted level done state)
    (member : node ∈ level) (fresh : node ∉ done) :
    Releasing dag sorted level (done ++ [node]) (releaseNode dag state node) := by
  obtain ⟨inside, unlisted, ready⟩ := (generation.ready node).mp member
  have fewer := openParents_done sound (sorted ++ done) inside
    (fun listed => (mem_append.mp listed).elim unlisted fresh)
  have free : state.pNum node = 0 := by
    have none_ : dag.openParents (sorted ++ done) node = 0 := by
      rw [openParents_eq_zero] at ready ⊢
      exact fun parent edge => mem_append_left _ (ready parent edge)
    rw [releasing.counted node inside, none_]
    rfl
  rw [releaseNode, if_pos free, releaseChildren _ (sound.once node inside)]
  simp only [append_assoc] at fewer
  -- A child of the node is neither listed nor in this generation.
  have apart {child : κ} (below : child ∈ dag.children node) : child ∈ dag.keys ∧ child ∉ sorted ∧ child ∉ level := by
    have edge : dag.Edge node child := ⟨inside, below⟩
    refine ⟨sound.inside node child edge, ?_, ?_⟩
    · exact fun listed => unlisted (generation.closed edge (.inl listed))
    · exact fun next => unlisted (generation.closed edge (.inr next))
  refine ⟨?_, by rw [releasing.queue], ?_, ?_⟩
  · intro key known
    have count := fewer key
    simp only [releasing.counted key known]
    split at count <;> simp only [*, if_true, if_false] <;> omega
  · refine nodup_append.mpr ⟨releasing.once, (sound.once node inside).filter _, ?_⟩
    rintro key before _ after rfl
    obtain ⟨below, -⟩ := mem_filter.mp after
    have none_ := ((releasing.released key).mp before).2.2.2
    have count := fewer key
    rw [if_pos below] at count
    omega
  · intro key
    simp only [mem_append, releasing.released key, mem_filter, decide_eq_true_eq]
    have count := fewer key
    constructor
    · rintro (⟨known, unsorted, later, none_⟩ | ⟨below, none_⟩)
      · exact ⟨known, unsorted, later, by omega⟩
      · obtain ⟨known, unsorted, later⟩ := apart below
        rw [releasing.counted key known] at none_
        rw [if_pos below] at count
        exact ⟨known, unsorted, later, by omega⟩
    · rintro ⟨known, unsorted, later, none_⟩
      by_cases below : key ∈ dag.children node
      · refine .inr ⟨below, ?_⟩
        rw [releasing.counted key known]
        rw [if_pos below] at count
        omega
      · rw [if_neg below] at count
        exact .inl ⟨known, unsorted, later, by omega⟩

theorem Releasing.nodes (sound : Sound dag) {sorted level : List κ} {pNum : κ → Int}
    (generation : Generation dag sorted level pNum) {done rest : List κ} {state : Released κ}
    (split : level = done ++ rest) (releasing : Releasing dag sorted level done state) :
    Releasing dag sorted level level (rest.foldl (releaseNode dag) state) := by
  induction rest generalizing done state with
  | nil =>
    rw [append_nil] at split
    rw [foldl_nil]
    exact split ▸ releasing
  | cons node rest next =>
    have apart := split ▸ generation.levelOnce
    refine next (by rw [split, append_assoc, singleton_append]) (releasing.node sound generation ?_ ?_)
    · rw [split]
      exact mem_append_right _ mem_cons_self
    · exact fun again => disjoint_of_nodup_append apart again mem_cons_self

theorem Generation.next (sound : Sound dag) {sorted level : List κ} {pNum : κ → Int}
    (generation : Generation dag sorted level pNum) {drain : List κ → List κ} (perm : ∀ queue, (drain queue).Perm queue) :
    Generation dag (sorted ++ drain (level.foldl (releaseNode dag) ⟨[], [], pNum⟩).queue)
        (level.foldl (releaseNode dag) ⟨[], [], pNum⟩).tempNodes (level.foldl (releaseNode dag) ⟨[], [], pNum⟩).pNum ∧
      (level.foldl (releaseNode dag) ⟨[], [], pNum⟩).queue = level := by
  have started : Releasing dag sorted level [] ⟨[], [], pNum⟩ := by
    refine ⟨?_, rfl, nodup_nil, ?_⟩
    · rw [append_nil]
      exact generation.counted
    · intro key
      rw [append_nil]
      refine iff_of_false not_mem_nil ?_
      rintro ⟨known, unsorted, other, none_⟩
      exact other ((generation.ready key).mpr ⟨known, unsorted, none_⟩)
  have done := Releasing.nodes sound generation (nil_append level).symm started
  refine ⟨?_, done.queue⟩
  rw [done.queue]
  have members (key : κ) : key ∈ sorted ++ drain level ↔ key ∈ sorted ++ level := by
    rw [mem_append, mem_append, (perm level).mem_iff]
  refine ⟨?_, ?_, done.once, ?_, ?_, ?_⟩
  · intro key listed
    rcases mem_append.mp ((members key).mp listed) with before | now
    · exact generation.inside key before
    · exact ((generation.ready key).mp now).1
  · refine nodup_append.mpr ⟨generation.once, (perm level).nodup_iff.mpr generation.levelOnce, ?_⟩
    rintro key before _ now rfl
    exact ((generation.ready key).mp ((perm level).mem_iff.mp now)).2.1 before
  · intro key known
    rw [done.counted key known, openParents_congr members]
  · intro key
    rw [done.released key, members, mem_append, not_or, openParents_congr members]
    tauto
  · refine topological_append generation.ordered ?_
    intro node now parent edge
    exact generation.closed edge (.inr ((perm level).mem_iff.mp now))

/-- The final list: its nodes come after their parents, and every node whose parents are
all listed is listed. -/
structure Sorted (dag : Dag κ) (list : List κ) : Prop where
  inside : ∀ key ∈ list, key ∈ dag.keys
  once : list.Nodup
  ordered : Topological dag.Edge list
  complete : ∀ key ∈ dag.keys, (∀ parent, dag.Edge parent key → parent ∈ list) → key ∈ list

theorem Generation.sorted {sorted : List κ} {pNum : κ → Int} (generation : Generation dag sorted [] pNum) :
    Sorted dag sorted := by
  refine ⟨generation.inside, generation.once, generation.ordered, ?_⟩
  intro key known parents
  by_contra unlisted
  have next := (generation.ready key).mpr ⟨known, unlisted, openParents_eq_zero.mpr parents⟩
  cases next

theorem sortNodes_sorted (sound : Sound dag) {drain : List κ → List κ} (perm : ∀ queue, (drain queue).Perm queue)
    (fuel : Nat) {sorted level : List κ} {pNum : κ → Int} (generation : Generation dag sorted level pNum)
    (enough : dag.keys.length < fuel + sorted.length) :
    ∃ list, sortNodes dag drain fuel level pNum sorted = some list ∧ Sorted dag list := by
  induction fuel generalizing sorted level pNum with
  | zero =>
    have few := (subperm_of_subset generation.once generation.inside).length_le
    omega
  | succ fuel next =>
    obtain ⟨after, queue⟩ := generation.next sound perm
    simp only [sortNodes]
    split
    · next last =>
      rw [last] at after
      exact ⟨_, rfl, after.sorted⟩
    · next more =>
      refine next after ?_
      -- A generation without nodes releases nothing.
      have some_ : level ≠ [] := by
        rintro rfl
        exact more rfl
      have longer := length_pos_iff.mpr some_
      rw [queue, length_append, (perm level).length_eq]
      omega

/-- The list is in topological order, whatever the order of equal weights and of the map. -/
theorem topoSort_sorted (sound : Sound dag) {drain : (κ → Int) → List κ → List κ}
    (perm : ∀ weight queue, (drain weight queue).Perm queue) {order : List κ} (all : order.Perm dag.keys) :
    ∃ list, dag.topoSort drain order = some list ∧ Sorted dag list := by
  refine sortNodes_sorted sound (perm dag.weight) _ ⟨nofun, nodup_nil, ?_, sound.counted, ?_, ?_⟩ (by simp)
  · exact (all.nodup_iff.mpr sound.keys).filter _
  · intro key
    simp only [mem_filter, all.mem_iff, decide_eq_true_eq, not_mem_nil, not_false_eq_true, true_and]
    refine and_congr_right fun known => ?_
    rw [sound.counted key known]
    exact Int.natCast_eq_zero
  · intro before node after split
    simp at split

end Sorting

section Cycles

variable {dag : Dag κ}

open Relation

/-- What a search below some nodes comes to when the nodes of the path are the ones that are
marked with one: it ends, and if it finds nothing then the nodes are clear, and marked. -/
def Ends (path clear : κ → Prop) (cycle : Prop) (nodes : List κ) (visited : κ → Nat)
    (result : Option (Bool × (κ → Nat))) : Prop :=
  ∃ found after, result = some (found, after) ∧ (found = true → cycle) ∧ (found = false →
    (∀ key, after key = 1 ↔ path key) ∧ (∀ key, after key = 0 → visited key = 0 ∧ key ∉ nodes) ∧ ∀ node ∈ nodes, clear node)

omit [DecidableEq κ] in
theorem Ends.imp {path path' clear clear' : κ → Prop} {cycle : Prop} {nodes : List κ} {visited : κ → Nat}
    {result : Option (Bool × (κ → Nat))} (ends : Ends path clear cycle nodes visited result)
    (same : ∀ key, path key ↔ path' key) (weaker : ∀ node, clear node → clear' node) :
    Ends path' clear' cycle nodes visited result := by
  obtain ⟨found, after, ran, cycle, nothing⟩ := ends
  refine ⟨found, after, ran, cycle, fun none_ => ?_⟩
  obtain ⟨still, zeros, those⟩ := nothing none_
  exact ⟨fun key => (still key).trans (same key), zeros, fun node among => weaker node (those node among)⟩

omit [DecidableEq κ] in
theorem Ends.all {path clear : κ → Prop} {cycle : Prop} {search : κ → (κ → Nat) → Option (Bool × (κ → Nat))} {nodes : List κ}
    (each : ∀ node ∈ nodes, ∀ visited, (∀ key, visited key = 1 ↔ path key) →
      Ends path clear cycle [node] visited (search node visited))
    {visited : κ → Nat} (marked : ∀ key, visited key = 1 ↔ path key) :
    Ends path clear cycle nodes visited (searchAll search nodes visited) := by
  induction nodes generalizing visited with
  | nil => exact ⟨false, visited, rfl, nofun, fun _ => ⟨marked, fun key zero => ⟨zero, not_mem_nil⟩, nofun⟩⟩
  | cons node rest next =>
    obtain ⟨found, after, first, cycle, clear⟩ := each node mem_cons_self visited marked
    rw [searchAll, first, Option.bind_some]
    cases found with
    | true => exact ⟨true, after, rfl, fun _ => cycle rfl, nofun⟩
    | false =>
      obtain ⟨still, zeros, this⟩ := clear rfl
      obtain ⟨found, last, others, cycle, clear⟩ := next (fun node member => each node (mem_cons_of_mem _ member)) still
      refine ⟨found, last, others, cycle, fun nothing => ?_⟩
      obtain ⟨final, zeros', those⟩ := clear nothing
      refine ⟨final, fun key zero => ?_, forall_mem_cons.mpr ⟨this node mem_cons_self, those⟩⟩
      obtain ⟨between, later⟩ := zeros' key zero
      obtain ⟨before, now⟩ := zeros key between
      exact ⟨before, fun member => (mem_cons.mp member).elim (fun same => now (same ▸ mem_cons_self)) later⟩

/-- The nodes of the path are different ones, so the search below a node ends. -/
theorem hasCirclularDep_ends (sound : Sound dag) (fuel : Nat) {current : κ} {visited : κ → Nat} (member : current ∈ dag.keys)
    (off : visited current ≠ 1) (enough : dag.keys.countP (visited · ≠ 1) ≤ fuel)
    (path : ∀ key, visited key = 1 → TransGen dag.Edge key current) :
    Ends (visited · = 1) (fun node => (∀ key, visited key = 1 → ¬ ReflTransGen dag.Edge node key) ∧ ¬ TransGen dag.Edge node node)
      (∃ key, TransGen dag.Edge key key) [current] visited (dag.hasCirclularDep fuel current visited) := by
  induction fuel generalizing current visited with
  | zero => exact absurd (countP_eq_zero.mp (Nat.le_zero.mp enough) current member) (by simpa using off)
  | succ fuel next =>
    have loop : Ends (fun key => key = current ∨ visited key = 1)
        (fun child => ∀ key, key = current ∨ visited key = 1 → ¬ ReflTransGen dag.Edge child key)
        (∃ key, TransGen dag.Edge key key) (dag.children current) (update visited current 1)
        (searchAll (fun child visited => if visited child = 1 then some (true, visited)
          else hasCirclularDep dag fuel child visited) (dag.children current) (update visited current 1)) := by
      apply Ends.all
      · intro child below marks marked
        have edge : dag.Edge current child := ⟨member, below⟩
        have above : ∀ key, marks key = 1 → TransGen dag.Edge key child := by
          intro key mark
          rcases (marked key).mp mark with rfl | earlier
          · exact .single edge
          · exact (path key earlier).tail edge
        split
        · next onPath => exact ⟨true, marks, rfl, fun _ => ⟨child, above child onPath⟩, nofun⟩
        · next away =>
          have fewer : dag.keys.countP (marks · ≠ 1) ≤ fuel := by
            have less := countP_insert sound.keys member (marks · ≠ 1) (visited · ≠ 1) (by simp [marked]) (by simpa using off)
              (fun key _ differ => by simp [marked, differ])
            omega
          exact (next (sound.inside _ _ edge) away fewer above).imp marked
            fun node clear key either => clear.1 key ((marked key).mpr either)
      · intro key
        by_cases same : key = current <;> simp [same]
    obtain ⟨found, after, ran, cycle, clear⟩ := loop
    rw [hasCirclularDep, ran]
    cases found with
    | true => exact ⟨true, after, rfl, cycle, nofun⟩
    | false =>
      obtain ⟨still, zeros, those⟩ := clear rfl
      refine ⟨false, update after current 2, rfl, nofun, fun _ => ⟨fun key => ?_, fun key zero => ?_, ?_⟩⟩
      · by_cases same : key = current
        · subst same
          simpa using off
        · simp [same, still]
      · have differ : key ≠ current := by
          rintro rfl
          simp at zero
        rw [update_of_ne differ] at zero
        have before := (zeros key zero).1
        rw [update_of_ne differ] at before
        exact ⟨before, by simpa using differ⟩
      · -- A walk from the node goes on from one of its children.
        have unreached (key : κ) (either : key = current ∨ visited key = 1) : ¬ TransGen dag.Edge current key := by
          intro walk
          obtain ⟨child, edge, rest⟩ := TransGen.head'_iff.mp walk
          exact those child edge.2 key either rest
        simp only [mem_singleton, forall_eq]
        refine ⟨fun key mark walk => ?_, unreached current (.inl rfl)⟩
        rcases ReflTransGen.cases_head walk with same | ⟨child, edge, rest⟩
        · exact off (same ▸ mark)
        · exact unreached key (.inr mark) (.head' edge rest)

/-- The search for a cycle ends, and finds one if and only if there is one. -/
theorem isCirclular_iff (sound : Sound dag) {order : List κ} (all : order.Perm dag.keys) :
    ∃ found, dag.isCirclular order = some found ∧ (found = true ↔ ∃ key, TransGen dag.Edge key key) := by
  have loop : Ends (fun _ => False) (fun node => ¬ TransGen dag.Edge node node) (∃ key, TransGen dag.Edge key key) order
      (fun _ => 0) (searchAll (hasCirclularDep dag dag.keys.length) order fun _ => 0) := by
    apply Ends.all
    · intro node among visited marked
      exact (hasCirclularDep_ends sound dag.keys.length (all.mem_iff.mp among) (fun mark => (marked node).mp mark)
        countP_le_length fun key mark => ((marked key).mp mark).elim).imp marked fun node clear => clear.2
    · simp
  obtain ⟨found, after, ran, cycle, clear⟩ := loop
  rw [isCirclular, ran]
  refine ⟨_, rfl, ?_⟩
  cases found with
  | true => simpa using cycle rfl
  | false =>
    obtain ⟨-, zeros, those⟩ := clear rfl
    have none_ : ¬ ∃ key, TransGen dag.Edge key key := by
      rintro ⟨key, walk⟩
      obtain ⟨child, edge, -⟩ := TransGen.head'_iff.mp walk
      exact those key (all.mem_iff.mpr edge.1) walk
    simpa [none_] using fun key among zero => (zeros key zero).2 among

omit [DecidableEq κ] in
theorem Sorted.all {list : List κ} (sorted : Sorted dag list)
    (acyclic : ∀ key, ¬TransGen dag.Edge key key) : ∀ key ∈ dag.keys, key ∈ list := by
  have finite : Finite {key // key ∈ dag.keys} := (finite_toSet dag.keys).to_subtype
  let above (left right : {key // key ∈ dag.keys}) : Prop := TransGen dag.Edge left.1 right.1
  have transitive : IsTrans _ above := ⟨fun _ _ _ first second => TransGen.trans first second⟩
  have irreflexive : Std.Irrefl above := ⟨fun key => acyclic key.1⟩
  have founded : WellFounded above := Finite.wellFounded_of_trans_of_irrefl above
  intro key known
  have listed := founded.induction (C := fun key => key.1 ∈ list) ⟨key, known⟩ ?_
  · exact listed
  · intro next parents
    refine sorted.complete next.1 next.2 fun parent edge => ?_
    exact parents ⟨parent, edge.1⟩ (TransGen.single edge)

end Cycles

end Dag

end Boxd.Lib
