import Boxd.Proofs.PackingOrder
import Boxd.Proofs.PoolIndex
import Boxd.Proofs.TxTypes

/-! The graph over what is left of the pending transactions, and the list that is packed.
An edge leads from a transaction to those that spend its outputs, and along the calls of a
sender whose list is handled. The list can be executed where what the second loop leaves
gives no trouble. -/

namespace Boxd.Packing
open Lib Relation List VMTransaction TransactionPool Script Option UtxoSet Outcome AList

def Left (hashToTx : Table HashType Pending) (hash : HashType) : Prop := ∃ pending, hashToTx.lookup hash = some pending

instance decidableLeft (hashToTx : Table HashType Pending) (hash : HashType) : Decidable (Left hashToTx hash) :=
  decidable_of_iff ((hashToTx.lookup hash).isSome = true) isSome_iff_exists

/-- Each call spends from the one before it. -/
def Linked (txs : List Pending) (vmtxs : List VMTransaction) : Prop :=
  vmtxs.IsChain fun before after => ∃ parent ∈ txs, parent.hash = before.originTx ∧
    ∃ child ∈ txs, child.hash = after.originTx ∧ Spends child parent

instance decidableLinked (txs : List Pending) (vmtxs : List VMTransaction) : Decidable (Linked txs vmtxs) :=
  inferInstanceAs (Decidable (vmtxs.IsChain _))

/-- The calls of a sender's list that are left. -/
def leftOf (hashToTx : Table HashType Pending) (vmtxs : List VMTransaction) : List VMTransaction :=
  vmtxs.filter fun vmTx => Left hashToTx vmTx.originTx

/-- The list of a sender gives no trouble. Either all its calls are left, and they are linked, or
the first pending call of the sender is left, for which they get edges. Or the list is not
handled, since that first call is gone, and what is left of it is its beginning, and linked.
The list of the zero address is handled for the further calls of every sender. -/
def Undisturbed (txs : List Pending) (hashToTx : Table HashType Pending) (sender : AddressHash) (vmtxs : List VMTransaction) : Prop :=
  ((∀ vmTx ∈ vmtxs, Left hashToTx vmTx.originTx) ∧
      (Linked txs vmtxs ∨ ∃ first ∈ firstCall txs sender, Left hashToTx first.hash)) ∨
    (sender ≠ zeroAddressHash ∧ (∀ first ∈ firstCall txs sender, ¬Left hashToTx first.hash) ∧
      leftOf hashToTx vmtxs <+: vmtxs ∧ Linked txs (leftOf hashToTx vmtxs))

instance decidableUndisturbed (txs : List Pending) (hashToTx : Table HashType Pending) (sender : AddressHash)
    (vmtxs : List VMTransaction) : Decidable (Undisturbed txs hashToTx sender vmtxs) :=
  inferInstanceAs (Decidable (_ ∨ _))

/-- What the second loop leaves gives no trouble. -/
def Orderly (txs : List Pending) (state : Sequenced) : Prop :=
  ∀ sender vmtxs, state.addressToNonceSortedTxs.lookup sender = some vmtxs → Undisturbed txs state.hashToTx sender vmtxs

section Building

variable {statedb : StateDB} {txs : List Pending} {maps : Maps} {state : Sequenced}

theorem handleVMTx_grown {hashToTx : Table HashType Pending} {vmtxs : List VMTransaction}
    (left : ∀ vmTx ∈ vmtxs, Left hashToTx vmTx.originTx) (parentHash : Option HashType) (dag : Dag HashType)
    (known : ∀ parent, parentHash = some parent → parent ∈ dag.keys) :
    ∃ larger, handleVMTx hashToTx vmtxs parentHash dag = .ok larger ∧ Dag.Grown (Left hashToTx) dag larger ∧
      (parentHash.toList ++ vmtxs.map originTx).IsChain larger.Edge := by
  induction vmtxs generalizing parentHash dag with
  | nil =>
    refine ⟨dag, rfl, .refl .., ?_⟩
    cases parentHash with
    | none => exact .nil
    | some parent => exact .singleton parent
  | cons vmTx rest next =>
    obtain ⟨pending, found⟩ := left vmTx mem_cons_self
    have node := Dag.Grown.addNode (Left hashToTx) dag ⟨pending, found⟩ pending.wrap.addedTimestamp
    have new : vmTx.originTx ∈ (dag.addNode vmTx.originTx pending.wrap.addedTimestamp).keys :=
      (Dag.keys_addNode ..).mpr (.inr rfl)
    unfold handleVMTx
    simp only [found, expect, bind, Except.bind]
    cases parentHash with
    | none =>
      obtain ⟨larger, ok, grown, chain⟩ := next (fun other later => left other (mem_cons_of_mem _ later))
        (some vmTx.originTx) (dag.addNode vmTx.originTx pending.wrap.addedTimestamp) (fun _ same => by cases same; exact new)
      exact ⟨larger, ok, node.trans grown, chain⟩
    | some parent =>
      have old := node.keys parent (known parent rfl)
      have edge := Dag.Grown.addEdge (Left hashToTx) (dag.addNode vmTx.originTx pending.wrap.addedTimestamp) parent vmTx.originTx
      obtain ⟨larger, ok, grown, chain⟩ := next (fun other later => left other (mem_cons_of_mem _ later))
        (some vmTx.originTx) _ (fun _ same => by cases same; exact edge.keys _ new)
      refine ⟨larger, ok, (node.trans edge).trans grown, ?_⟩
      exact .cons_cons (grown.edges _ _ ((Dag.edge_addEdge ..).mpr (.inr ⟨old, new, rfl, rfl⟩))) chain

theorem addParents_grown (hashToTx : Table HashType Pending) (hash : HashType) (vin : List TxIn) (dag : Dag HashType)
    (known : hash ∈ dag.keys) :
    Dag.Grown (Left hashToTx) dag (vin.foldl (addParent hashToTx hash) dag) ∧
      ∀ txIn ∈ vin, Left hashToTx txIn.prevOutPoint.hash →
        (vin.foldl (addParent hashToTx hash) dag).Edge txIn.prevOutPoint.hash hash := by
  induction vin generalizing dag with
  | nil => exact ⟨.refl .., nofun⟩
  | cons txIn rest next =>
    have first : Dag.Grown (Left hashToTx) dag (addParent hashToTx hash dag txIn) ∧
        (Left hashToTx txIn.prevOutPoint.hash → (addParent hashToTx hash dag txIn).Edge txIn.prevOutPoint.hash hash) := by
      unfold addParent
      dsimp only
      split
      · next absent =>
        refine ⟨.refl .., ?_⟩
        rintro ⟨parent, found⟩
        rw [absent] at found
        cases found
      · next parent found =>
        have node := Dag.Grown.addNode (Left hashToTx) dag ⟨parent, found⟩ parent.wrap.addedTimestamp
        refine ⟨node.trans (.addEdge ..), fun _ => (Dag.edge_addEdge ..).mpr (.inr ⟨?_, node.keys _ known, rfl, rfl⟩)⟩
        exact (Dag.keys_addNode ..).mpr (.inr rfl)
    obtain ⟨grown, edges⟩ := next (addParent hashToTx hash dag txIn) (first.1.keys _ known)
    refine ⟨first.1.trans grown, ?_⟩
    intro other member left
    rcases mem_cons.mp member with rfl | later
    · exact grown.edges _ _ (first.2 left)
    · exact edges other later left

/-- The graph while transactions of the pool are added. -/
structure Growing (txs : List Pending) (maps : Maps) (state : Sequenced) (done : List Pending) (graph : Graph) : Prop where
  sound : graph.dag.Sound
  keys : ∀ hash ∈ graph.dag.keys, Left state.hashToTx hash
  nodes : ∀ pending ∈ done, Left state.hashToTx pending.hash → pending.hash ∈ graph.dag.keys
  parents : ∀ pending ∈ done, Left state.hashToTx pending.hash → ∀ parent, Child txs parent pending →
    graph.dag.Edge parent.hash pending.hash
  chains : ∀ sender vmtxs, state.addressToNonceSortedTxs.lookup sender = some vmtxs →
    graph.addressToNonceSortedTxs.lookup sender = some vmtxs ∨ (vmtxs.map originTx).IsChain graph.dag.Edge
  unhandled : ∀ sender vmtxs, graph.addressToNonceSortedTxs.lookup sender = some vmtxs →
    state.addressToNonceSortedTxs.lookup sender = some vmtxs
  handled : ∀ pending ∈ done, Left state.hashToTx pending.hash → pending.vmTx ≠ none → ∀ sender,
    maps.hashToAddress.lookup pending.hash = some sender → graph.addressToNonceSortedTxs.lookup sender = none

theorem Growing.start (txs : List Pending) (maps : Maps) (state : Sequenced) :
    Growing txs maps state [] ⟨.new, state.addressToNonceSortedTxs⟩ where
  sound := .new
  keys _ known := absurd known not_mem_nil
  nodes _ before := absurd before not_mem_nil
  parents _ before := absurd before not_mem_nil
  chains _ _ := .inl
  unhandled _ _ := id
  handled _ before := absurd before not_mem_nil

theorem Remaining.left_parent {parent child : Pending} (remaining : Remaining txs state.hashToTx) (edge : Child txs parent child)
    (left : Left state.hashToTx child.hash) : Left state.hashToTx parent.hash := by
  obtain ⟨found, there⟩ := left
  refine ne_none_iff_exists'.mp fun absent => ?_
  rw [remaining.closed parent child edge absent] at there
  cases there

variable {pending : Pending} {done : List Pending}

/-- The graph of what was there before, after it has grown and a sender may have been handled. -/
theorem Growing.grow {graph larger : Graph} (growing : Growing txs maps state done graph)
    (grown : Dag.Grown (Left state.hashToTx) graph.dag larger.dag)
    (fewer : ∀ sender vmtxs, larger.addressToNonceSortedTxs.lookup sender = some vmtxs →
      graph.addressToNonceSortedTxs.lookup sender = some vmtxs)
    (chained : ∀ sender vmtxs, graph.addressToNonceSortedTxs.lookup sender = some vmtxs →
      larger.addressToNonceSortedTxs.lookup sender = some vmtxs ∨ (vmtxs.map originTx).IsChain larger.dag.Edge) :
    Growing txs maps state done larger where
  sound := grown.sound growing.sound
  keys hash known := (grown.within hash known).elim (growing.keys hash) id
  nodes pending before left := grown.keys _ (growing.nodes pending before left)
  parents pending before left parent edge := grown.edges _ _ (growing.parents pending before left parent edge)
  chains sender vmtxs found := by
    rcases growing.chains sender vmtxs found with there | chain
    · exact chained sender vmtxs there
    · exact .inr (chain.imp fun _ _ => grown.edges _ _)
  unhandled sender vmtxs found := growing.unhandled sender vmtxs (fewer sender vmtxs found)
  handled pending before left called sender own := by
    have absent := growing.handled pending before left called sender own
    cases found : larger.addressToNonceSortedTxs.lookup sender with
    | none => rfl
    | some vmtxs =>
      rw [fewer sender vmtxs found] at absent
      cases absent

section
variable (graph : Dependencies txs) (recorded : Recorded txs maps) (remaining : Remaining txs state.hashToTx)
  (orderly : Orderly txs state)
  (extracted : Extracted txs) (env : PackEnv)
include recorded orderly

/-- No list is handled that has a call which is gone. -/
theorem handled_left (left : Left state.hashToTx pending.hash) (vmtxs : List VMTransaction)
    (found : state.addressToNonceSortedTxs.lookup ((maps.hashToAddress.lookup pending.hash).getD zeroAddressHash) = some vmtxs) :
    ∀ vmTx ∈ vmtxs, Left state.hashToTx vmTx.originTx := by
  rcases orderly _ vmtxs found with ⟨all, -⟩ | ⟨other, gone, -⟩
  · exact all
  · cases address : maps.hashToAddress.lookup pending.hash with
    | none =>
      rw [address] at other
      exact absurd rfl other
    | some sender =>
      rw [address] at gone
      obtain ⟨first, called, same⟩ := (recorded.firsts _ _).mp address
      exact absurd (same ▸ left) (gone first called)

include extracted

theorem addCalls_growing {graph : Graph} (growing : Growing txs maps state done graph) (member : pending ∈ txs)
    (left : Left state.hashToTx pending.hash) :
    ∃ larger, addCalls env maps state.hashToTx pending graph = .ok larger ∧ Growing txs maps state done larger ∧
      Dag.Grown (Left state.hashToTx) graph.dag larger.dag ∧
      (pending.vmTx ≠ none → ∀ sender, maps.hashToAddress.lookup pending.hash = some sender →
        larger.addressToNonceSortedTxs.lookup sender = none) := by
  unfold addCalls
  split
  · next plain =>
    refine ⟨graph, rfl, growing, .refl .., fun called => ?_⟩
    obtain ⟨vmTx, call⟩ := ne_none_iff_exists'.mp called
    have type := (extracted pending member vmTx call).2
    rw [getTxType, type] at plain
    exact absurd rfl plain
  · dsimp only
    have all (vmtxs : List VMTransaction) := handled_left recorded orderly left vmtxs
    generalize address : (maps.hashToAddress.lookup pending.hash).getD zeroAddressHash = sender at all
    have left : ∀ vmTx ∈ (graph.addressToNonceSortedTxs.lookup sender).getD [], Left state.hashToTx vmTx.originTx := by
      intro vmTx listed
      cases found : graph.addressToNonceSortedTxs.lookup sender with
      | none =>
        rw [found] at listed
        cases listed
      | some vmtxs =>
        rw [found] at listed
        exact all vmtxs (growing.unhandled sender vmtxs found) vmTx listed
    obtain ⟨dag, ok, grown, chain⟩ := handleVMTx_grown left none graph.dag (by rintro _ ⟨⟩)
    refine ⟨⟨dag, graph.addressToNonceSortedTxs.erase sender⟩, by rw [ok]; rfl, ?_, grown, ?_⟩
    · refine growing.grow grown ?_ ?_
      · intro other vmtxs found
        exact (Table.lookup_of_erase found).2
      · intro other vmtxs found
        by_cases same : other = sender
        · subst same
          rw [found] at chain
          exact .inr chain
        · rw [lookup_erase_ne same]
          exact .inl found
    · intro _ other own
      rw [own] at address
      rw [← address]
      exact lookup_erase ..

include graph remaining

theorem addTx_growing {built : Graph} (growing : Growing txs maps state done built) (member : pending ∈ txs) :
    ∃ larger, addTx env maps state.hashToTx built pending = .ok larger ∧
      Growing txs maps state (done ++ [pending]) larger := by
  unfold addTx
  split
  · next absent =>
    have last {other : Pending} (left : Left state.hashToTx other.hash) (among : other ∈ done ++ [pending]) : other ∈ done := by
      refine (mem_append.mp among).resolve_right fun only => ?_
      obtain ⟨found, there⟩ := left
      rw [mem_singleton.mp only, absent] at there
      cases there
    exact ⟨built, rfl, growing.sound, growing.keys, fun other among left => growing.nodes other (last left among) left,
      fun other among left => growing.parents other (last left among) left, growing.chains, growing.unhandled,
      fun other among left => growing.handled other (last left among) left⟩
  · next found present =>
    obtain ⟨among, same⟩ := remaining.known _ _ present
    obtain rfl := hash_inj graph among member same
    have node := Dag.Grown.addNode (Left state.hashToTx) built.dag ⟨found, present⟩ found.wrap.addedTimestamp
    have start : Growing txs maps state done { built with dag := built.dag.addNode found.hash found.wrap.addedTimestamp } :=
      growing.grow node (fun _ _ => id) (fun _ _ => .inl)
    obtain ⟨called, ok, growing, grown, handled⟩ :=
      addCalls_growing recorded orderly extracted env start member ⟨found, present⟩
    have known := grown.keys _ ((Dag.keys_addNode ..).mpr (.inr rfl))
    obtain ⟨further, edges⟩ := addParents_grown state.hashToTx found.hash found.wrap.tx.vin called.dag known
    let larger := { called with dag := found.wrap.tx.vin.foldl (addParent state.hashToTx found.hash) called.dag }
    have last : Growing txs maps state done larger := growing.grow further (fun _ _ => id) (fun _ _ => .inl)
    refine ⟨larger, by rw [ok]; rfl, ?_⟩
    refine ⟨last.sound, last.keys, ?_, ?_, last.chains, last.unhandled, ?_⟩
    · intro other listed left
      rcases mem_append.mp listed with before | only
      · exact last.nodes other before left
      · rw [mem_singleton.mp only]
        exact further.keys _ known
    · intro other listed left parent edge
      rcases mem_append.mp listed with before | only
      · exact last.parents other before left parent edge
      · obtain rfl := mem_singleton.mp only
        obtain ⟨txIn, input, hash, -⟩ := edge.2.2
        rw [← hash]
        refine edges txIn input ?_
        rw [hash]
        exact remaining.left_parent edge left
    · intro other listed left calls sender own
      rcases mem_append.mp listed with before | only
      · exact last.handled other before left calls sender own
      · obtain rfl := mem_singleton.mp only
        exact handled calls sender own

theorem addTxs_growing {rest : List Pending} (pending : ∀ one ∈ rest, one ∈ txs)
    {built : Graph} (growing : Growing txs maps state done built) :
    ∃ larger, rest.foldlM (addTx env maps state.hashToTx) built = .ok larger ∧
      Growing txs maps state (done ++ rest) larger := by
  induction rest generalizing done built with
  | nil =>
    rw [append_nil]
    exact ⟨built, rfl, growing⟩
  | cons first rest next =>
    obtain ⟨more, ok, growing⟩ :=
      addTx_growing graph recorded remaining orderly extracted env growing (pending first mem_cons_self)
    obtain ⟨larger, rest_, growing⟩ := next (fun one later => pending one (mem_cons_of_mem _ later)) growing
    rw [append_assoc, singleton_append] at growing
    refine ⟨larger, ?_, growing⟩
    rw [foldlM_cons, ok]
    exact rest_

end

end Building

section Reading

variable {statedb : StateDB}

theorem getTxType_contract {tx : Transaction} (contract : (getTxType statedb tx).1 = .contractTx) :
    (getTxType statedb tx).2.type = .contractTx := by
  unfold getTxType at contract ⊢
  split
  · next known =>
    rw [if_pos known] at contract
    exact contract
  · next unknown =>
    rw [if_neg unknown] at contract
    have cached := (parseTxType_cached statedb tx).2
    exact (cached (fun failed => nomatch contract.symm.trans failed)).trans contract

theorem extractVMTransaction_origin {c : Crypto} {tx after : Transaction} {vmTx : VMTransaction}
    (ok : extractVMTransaction c statedb tx = .ok (some vmTx, after)) :
    after = (getTxType statedb tx).2 ∧ vmTx.originTx = txHash c after := by
  unfold extractVMTransaction at ok
  dsimp only at ok
  split at ok
  · cases ok
  · obtain ⟨contractVout, -, ok⟩ := bind_ok_iff.mp ok
    split at ok
    · cases ok
    · cases ok
      exact ⟨rfl, rfl⟩

theorem extracted_of_read {env : PackEnv} {wraps : List TxWrap} {txs : List Pending}
    (read : wraps.mapM (readTx env statedb) = .ok txs) : Extracted txs := by
  intro pending member vmTx call
  obtain ⟨wrap, -, ok⟩ := exists_of_mem_right (mapM_ok read) member
  unfold readTx at ok
  dsimp only at ok
  split at ok
  · cases ok
    cases call
  · next contract =>
    obtain ⟨⟨extracted, after⟩, found, ok⟩ := bind_ok_iff.mp ok
    obtain ⟨value, some_, ok⟩ := bind_ok_iff.mp ok
    cases ok
    cases call
    obtain rfl := expect_ok some_
    obtain ⟨rfl, origin⟩ := extractVMTransaction_origin (mapError_ok_iff.mp found)
    have type := getTxType_contract (not_not.mp contract)
    have known : (getTxType env.tailState wrap.tx).2.type ≠ .unknownTx := fun unknown => nomatch type.symm.trans unknown
    refine ⟨origin.trans (txHash_congr ?_), ?_⟩
    · rw [getTxType_message, getTxType_message]
    · rw [getTxType, if_pos known]
      exact type

end Reading

/-- The list can be executed in order: nothing is listed twice, everything comes after what
it spends, senders have consecutive nonces, and nothing that needs no call is missing. -/
structure Executable (statedb : StateDB) (txs listed : List Pending) : Prop where
  once : (listed.map Pending.hash).Nodup
  pending : ∀ one ∈ listed, one ∈ txs
  parents : Topological (Child txs) listed
  ancestors : ∀ one ∈ listed, ∀ ancestor, TransGen (Child txs) ancestor one → ancestor ∈ listed
  nonces : ∀ sender, Consecutive statedb sender (calls listed sender)
  plain : ∀ one ∈ txs, NeedsNoCall txs one → one ∈ listed

section Listing

variable {statedb : StateDB} {txs : List Pending} {maps : Maps} {state : Sequenced}

theorem exists_listed (remaining : Remaining txs state.hashToTx) {hashes : List HashType}
    (left : ∀ hash ∈ hashes, Left state.hashToTx hash) :
    ∃ listed : List Pending, hashes.map state.hashToTx.lookup = listed.map some ∧ listed.map Pending.hash = hashes ∧
      ∀ pending ∈ listed, pending ∈ txs := by
  induction hashes with
  | nil => exact ⟨[], rfl, rfl, nofun⟩
  | cons hash rest next =>
    obtain ⟨pending, found⟩ := left hash mem_cons_self
    obtain ⟨member, rfl⟩ := remaining.known _ _ found
    obtain ⟨listed, looked, hashes, all⟩ := next fun other later => left other (mem_cons_of_mem _ later)
    refine ⟨pending :: listed, ?_, ?_, forall_mem_cons.mpr ⟨member, all⟩⟩
    · rw [map_cons, map_cons, found, looked]
    · rw [map_cons, hashes]

variable {sender : AddressHash} {vmtxs : List VMTransaction}

theorem firstCall_some {first : Pending} (called : firstCall txs sender = some first) : first ∈ txs ∧ first.vmTx ≠ none := by
  refine ⟨mem_of_find?_eq_some called, ?_⟩
  have own := find?_some called
  obtain ⟨vmTx, call, -⟩ := of_decide_eq_true own
  rw [mem_def.mp call]
  exact nofun

section
variable {done : List Pending} (all : ∀ pending ∈ txs, pending ∈ done) {graph : Graph}
  (growing : Growing txs maps state done graph)
include all growing

/-- Calls that spend from each other have edges. -/
theorem Growing.isChain (left : ∀ vmTx ∈ vmtxs, Left state.hashToTx vmTx.originTx) (linked : Linked txs vmtxs) :
    (vmtxs.map originTx).IsChain graph.dag.Edge := by
  refine (isChain_map _).mpr (linked.imp_of_mem_imp fun before after _ listed => ?_)
  rintro ⟨parent, among, parentHash, child, member, childHash, spends⟩
  rw [← parentHash, ← childHash]
  exact growing.parents child (all child member) (childHash ▸ left after listed) parent ⟨among, member, spends⟩

/-- The calls of a sender that are left have edges, and are the beginning of its list. -/
theorem Growing.linked (recorded : Recorded txs maps) (found : state.addressToNonceSortedTxs.lookup sender = some vmtxs)
    (undisturbed : Undisturbed txs state.hashToTx sender vmtxs) :
    ((leftOf state.hashToTx vmtxs).map originTx).IsChain graph.dag.Edge ∧ leftOf state.hashToTx vmtxs <+: vmtxs := by
  rcases undisturbed with ⟨left, either⟩ | ⟨-, -, start, linked⟩
  · rw [leftOf, filter_eq_self.mpr fun vmTx listed => decide_eq_true (left vmTx listed)]
    refine ⟨?_, prefix_rfl⟩
    rcases either with linked | ⟨first, called, there⟩
    · exact growing.isChain all left linked
    · obtain ⟨member, call⟩ := firstCall_some called
      have handled := growing.handled first (all first member) there call sender ((recorded.firsts _ _).mpr ⟨first, called, rfl⟩)
      refine (growing.chains sender vmtxs found).resolve_left fun there => ?_
      rw [handled] at there
      cases there
  · exact ⟨growing.isChain all (fun vmTx listed => of_decide_eq_true (mem_filter.mp listed).2) linked, start⟩

end

theorem Consecutive.initial {few : List VMTransaction} (consecutive : Consecutive statedb sender vmtxs) (start : few <+: vmtxs) :
    Consecutive statedb sender few := by
  obtain ⟨rest, rfl⟩ := start
  have equal := congrArg (List.take few.length) consecutive
  rw [map_append, length_append, range_add, map_append, take_left' (by simp), take_left' (by simp)] at equal
  exact equal

theorem calls_listed {edge : HashType → HashType → Prop} (acyclic : ∀ hash, ¬TransGen edge hash hash)
    (extracted : Extracted txs) {listed : List Pending} (pending : ∀ one ∈ listed, one ∈ txs)
    (once : (listed.map Pending.hash).Nodup) (ordered : Topological edge (listed.map Pending.hash))
    (linked : (vmtxs.map originTx).IsChain edge)
    (members : ∀ vmTx, vmTx ∈ calls listed sender ↔ vmTx ∈ vmtxs) : calls listed sender = vmtxs := by
  let above (left right : VMTransaction) : Prop := TransGen edge left.originTx right.originTx
  have chain : vmtxs.Pairwise above := by
    have steps := (isChain_map _).mp linked
    exact isChain_iff_pairwise.mp (steps.imp fun _ _ => TransGen.single)
  have symmetric : Std.Symm fun left right => above left right ∨ above right left := ⟨fun _ _ => Or.symm⟩
  have comparable := (chain.imp (S := fun left right => above left right ∨ above right left) .inl).forall
  have unlike : (calls listed sender).Pairwise fun left right => left ≠ right ∧ ¬above right left := by
    have hashes := (pairwise_map.mp (once.and (ordered.pairwise once)))
    refine .filter _ ((pairwise_filterMap).mpr (.imp_of_mem ?_ hashes))
    intro left right member among ⟨differ, below⟩ vmTx call other called
    rw [← (extracted left (pending left member) vmTx call).1] at differ below
    rw [← (extracted right (pending right among) other called).1] at differ below
    exact ⟨fun same => differ (congrArg _ same), below⟩
  have sorted : (calls listed sender).Pairwise above := by
    refine Pairwise.imp_of_mem ?_ unlike
    intro left right member among ⟨differ, below⟩
    have either := comparable ((members left).mp member) ((members right).mp among) differ
    exact either.resolve_right below
  refine Perm.eq_of_pairwise ?_ sorted chain ?_
  · intro left right _ _ down up
    exact absurd (down.trans up) (acyclic _)
  · refine (perm_ext_iff_of_nodup ?_ ?_).mpr members
    · exact unlike.imp fun differ => differ.1
    · refine chain.imp fun {left right} down same => ?_
      exact acyclic _ (same ▸ down)

theorem executable (graph : Dependencies txs) {senders : List AddressHash} (settled : Settled statedb txs senders state)
    (all_ : ∀ sender, calls txs sender ≠ [] → sender ∈ senders) (recorded : Recorded txs maps)
    (orderly : Orderly txs state)
    (extracted : Extracted txs) {done : List Pending} (all : ∀ pending ∈ txs, pending ∈ done)
    {built : Graph} (growing : Growing txs maps state done built) (acyclic : ∀ hash, ¬TransGen built.dag.Edge hash hash)
    {hashes : List HashType} (sorted : built.dag.Sorted hashes) :
    ∃ listed : List Pending, hashes.map state.hashToTx.lookup = listed.map some ∧ Executable statedb txs listed := by
  have left_of {hash : HashType} (member : hash ∈ hashes) := growing.keys hash (sorted.inside hash member)
  obtain ⟨listed, looked, rfl, pending⟩ := exists_listed settled.remaining fun hash => left_of
  have complete : ∀ one ∈ txs, Left state.hashToTx one.hash → one ∈ listed := by
    intro one member left
    obtain ⟨same, among, equal⟩ := mem_map.mp (sorted.all acyclic _ (growing.nodes one (all one member) left))
    exact hash_inj graph (pending same among) member equal ▸ among
  have parents : Topological (Child txs) listed := by
    intro before node after split parent edge
    have member : node ∈ listed := split ▸ mem_append_right _ mem_cons_self
    have link := growing.parents node (all node (pending node member)) (left_of (mem_map_of_mem member)) parent edge
    have earlier := sorted.ordered (before.map Pending.hash) node.hash (after.map Pending.hash)
      (by rw [split, map_append, map_cons]) _ link
    obtain ⟨same, among, equal⟩ := mem_map.mp earlier
    have one : same ∈ listed := split ▸ mem_append_left _ among
    exact hash_inj graph (pending same one) edge.1 equal ▸ among
  refine ⟨listed, looked, sorted.once, pending, parents, ?_, ?_, ?_⟩
  · intro one member ancestor path
    obtain ⟨before, after, split⟩ := append_of_mem member
    exact split ▸ mem_append_left _ (parents.mem_before path before after split)
  · intro sender
    by_cases none_ : calls txs sender = []
    · have empty : calls listed sender = [] := by
        refine eq_nil_iff_forall_not_mem.mpr fun vmTx member => ?_
        obtain ⟨⟨one, among, call⟩, own⟩ := mem_calls.mp member
        have called : vmTx ∈ calls txs sender := mem_calls.mpr ⟨⟨one, pending one among, call⟩, own⟩
        rw [none_] at called
        cases called
      rw [empty]
      rfl
    · obtain ⟨vmtxs, found, taken⟩ := settled.taken sender (all_ sender none_)
      obtain ⟨linked, start⟩ := growing.linked all recorded found (orderly sender vmtxs found)
      rw [calls_listed acyclic extracted pending sorted.once sorted.ordered linked]
      · exact (settled.consecutive sender vmtxs found).initial start
      · intro vmTx
        rw [leftOf, mem_filter, decide_eq_true_eq, mem_calls]
        constructor
        · rintro ⟨⟨one, among, call⟩, own⟩
          have left := left_of (mem_map_of_mem among)
          rw [← (extracted one (pending one among) vmTx call).1] at left
          obtain ⟨there, found⟩ := left
          refine ⟨(taken vmTx (mem_calls.mpr ⟨⟨one, pending one among, call⟩, own⟩)).resolve_left ?_, there, found⟩
          exact fun absent => nomatch absent.symm.trans found
        · rintro ⟨listed, left⟩
          obtain ⟨⟨one, among, call⟩, own⟩ := mem_calls.mp (settled.within sender vmtxs found vmTx listed)
          rw [(extracted one among vmTx call).1] at left
          exact ⟨⟨one, complete one among left, call⟩, own⟩
  · intro one member plain
    exact complete one member ⟨one, settled.remaining.plain one member plain⟩

end Listing

section Calls

/-- A call that adds to a graph. One that fails leaves it as it is. -/
inductive DagCall (κ : Type*) where
  | addNode (key : κ) (weight : Int)
  | addEdge (fkey tkey : κ)

variable {κ : Type*}

/-- A node was added. -/
def HasNode (calls : List (DagCall κ)) (key : κ) : Prop := ∃ weight, .addNode key weight ∈ calls

/-- An edge was added after both its nodes. -/
def HasEdge (calls : List (DagCall κ)) (fkey tkey : κ) : Prop :=
  ∃ before, before ++ [.addEdge fkey tkey] <+: calls ∧ HasNode before fkey ∧ HasNode before tkey

theorem hasEdge_snoc (calls : List (DagCall κ)) (call : DagCall κ) (fkey tkey : κ) : HasEdge (calls ++ [call]) fkey tkey ↔
    HasEdge calls fkey tkey ∨ (call = .addEdge fkey tkey ∧ HasNode calls fkey ∧ HasNode calls tkey) := by
  constructor
  · rintro ⟨before, made, nodes⟩
    rcases prefix_concat_iff.mp made with whole | earlier
    · obtain ⟨rfl, last⟩ := append_inj' whole rfl
      cases last
      exact .inr ⟨rfl, nodes⟩
    · exact .inl ⟨before, earlier, nodes⟩
  · rintro (⟨before, made, nodes⟩ | ⟨rfl, nodes⟩)
    · exact ⟨before, made.trans (prefix_append ..), nodes⟩
    · exact ⟨calls, prefix_rfl, nodes⟩

variable [DecidableEq κ]

def DagCall.run (dag : Dag κ) : DagCall κ → Dag κ
  | .addNode key weight => dag.addNode key weight
  | .addEdge fkey tkey => dag.addEdge fkey tkey

def graphOf (calls : List (DagCall κ)) : Dag κ := calls.foldl DagCall.run .new

theorem graphOf_snoc (calls : List (DagCall κ)) (call : DagCall κ) : graphOf (calls ++ [call]) = call.run (graphOf calls) := by
  rw [graphOf, foldl_append, foldl_cons, foldl_nil, graphOf]

theorem graphOf_sound (calls : List (DagCall κ)) : (graphOf calls).Sound := by
  refine calls.foldlRecOn DagCall.run Dag.Sound.new fun dag sound call _ => ?_
  cases call with
  | addNode key weight => exact sound.addNode key weight
  | addEdge fkey tkey => exact sound.addEdge fkey tkey

theorem mem_keys_graphOf (calls : List (DagCall κ)) (key : κ) : key ∈ (graphOf calls).keys ↔ HasNode calls key := by
  induction calls using reverseRecOn with
  | nil => exact iff_of_false not_mem_nil fun ⟨_, member⟩ => not_mem_nil member
  | append_singleton calls call next =>
    rw [graphOf_snoc]
    cases call with
    | addNode other weight =>
      rw [DagCall.run, Dag.keys_addNode, next]
      simp [HasNode, exists_or]
    | addEdge fkey tkey =>
      rw [DagCall.run, Dag.keys_addEdge, next]
      simp [HasNode]

theorem edge_graphOf (calls : List (DagCall κ)) (parent child : κ) :
    (graphOf calls).Edge parent child ↔ HasEdge calls parent child := by
  induction calls using reverseRecOn with
  | nil =>
    refine iff_of_false (fun edge => not_mem_nil edge.1) fun ⟨before, made, _⟩ => ?_
    simp at made
  | append_singleton calls call next =>
    rw [graphOf_snoc, hasEdge_snoc, ← next]
    cases call with
    | addNode key weight =>
      rw [DagCall.run, Dag.edge_addNode]
      simp
    | addEdge fkey tkey =>
      rw [DagCall.run, Dag.edge_addEdge, mem_keys_graphOf, mem_keys_graphOf]
      refine or_congr_right ⟨?_, ?_⟩
      · rintro ⟨left, right, rfl, rfl⟩
        exact ⟨rfl, left, right⟩
      · rintro ⟨same, left, right⟩
        cases same
        exact ⟨left, right, rfl, rfl⟩

/-- The graph has the nodes and edges of the calls. The search for a cycle ends and is right,
and a graph without a cycle is sorted, for all weights and all orders of the map. -/
theorem graph_searched_and_sorted (calls : List (DagCall κ)) {order : List κ} (range : order.Perm (graphOf calls).keys)
    {drain : (κ → Int) → List κ → List κ} (perm : ∀ weight queue, (drain weight queue).Perm queue) :
    (graphOf calls).keys.Nodup ∧ (∀ key, key ∈ (graphOf calls).keys ↔ HasNode calls key) ∧
    ∃ found, (graphOf calls).isCirclular order = some found ∧
      (found = true ↔ ∃ key, TransGen (HasEdge calls) key key) ∧
      (found = false → ∃ list, (graphOf calls).topoSort drain order = some list ∧ list.Perm (graphOf calls).keys ∧
        Topological (HasEdge calls) list) := by
  have sound := graphOf_sound calls
  have edges : (graphOf calls).Edge = HasEdge calls := by
    funext parent child
    exact propext (edge_graphOf calls parent child)
  obtain ⟨found, searched, cycle⟩ := Dag.isCirclular_iff sound range
  obtain ⟨list, listed, sorted⟩ := Dag.topoSort_sorted sound perm range
  rw [edges] at cycle
  refine ⟨sound.keys, mem_keys_graphOf calls, found, searched, cycle, fun none_ => ⟨list, listed, ?_, edges ▸ sorted.ordered⟩⟩
  have acyclic : ∀ key, ¬ TransGen (graphOf calls).Edge key key := fun key walk =>
    absurd (cycle.mpr ⟨key, edges ▸ walk⟩) (by simp [none_])
  exact (perm_ext_iff_of_nodup sorted.once sound.keys).mpr fun key => ⟨sorted.inside key, sorted.all acyclic key⟩

/-- Three nodes in a row. The first edge comes too early and is not added, and a node is
added once more. -/
def threeNodes : List (DagCall Nat) :=
  [.addNode 1 5, .addEdge 3 1, .addNode 2 9, .addNode 3 7, .addEdge 2 1, .addEdge 3 2, .addNode 2 4]

theorem threeNodes_sorted : (graphOf threeNodes).isCirclular [2, 3, 1] = some false ∧
    ¬(∃ key, TransGen (HasEdge threeNodes) key key) ∧
    (graphOf threeNodes).topoSort (fun _ queue => queue) [2, 3, 1] = some [3, 2, 1] ∧
      [3, 2, 1].Perm (graphOf threeNodes).keys ∧ Topological (HasEdge threeNodes) [3, 2, 1] := by
  obtain ⟨-, -, found, searched, cycle, sorted⟩ := @graph_searched_and_sorted _ _ threeNodes [2, 3, 1] (by decide)
    (fun _ queue => queue) fun _ _ => .refl _
  have none_ : (graphOf threeNodes).isCirclular [2, 3, 1] = some false := by decide
  obtain rfl := some.inj (none_.symm.trans searched)
  obtain ⟨list, listed, all, ordered⟩ := sorted rfl
  have order : (graphOf threeNodes).topoSort (fun _ queue => queue) [2, 3, 1] = some [3, 2, 1] := by decide
  obtain rfl := some.inj (order.symm.trans listed)
  exact ⟨none_, fun walk => Bool.noConfusion (cycle.mpr walk), order, all, ordered⟩

end Calls

section Samples

/-- A queue that keeps equal elements in order, and maps that are read in order. -/
def sampleRuntime : Runtime where
  drain key items := items.insertionSort (key · ≤ key ·)
  drain_perm _ items := perm_insertionSort _ items
  drain_sorted key items :=
    haveI : Std.Total (key · ≤ key ·) := ⟨fun left right => le_total (key left) (key right)⟩
    haveI : IsTrans _ (key · ≤ key ·) := ⟨fun _ _ _ => le_trans⟩
    pairwise_insertionSort _ items
  range := id
  range_perm keys := .refl keys

def freshState : StateDB := ⟨fun _ => false, fun _ => none, fun _ => 0, fun _ => 0⟩

def packEnv : PackEnv := { sampleRuntime with crypto := poolCrypto, tailState := freshState, newState := some freshState }

def deploying (sender : AddressHash) (outPoint : OutPoint) (nonce : UInt64) : TxMessage :=
  { poolTx [outPoint] 5000000 nonce.toInt64 with
    vout := ((makeContractScriptPubkey sender none 100000 nonce 0).toOption.map (⟨0, ·⟩)).toList ++
      [⟨5000000, payToPubKeyHashScript sender⟩]
    data := some ⟨contractDataType, [1]⟩ }

def wrapped (tx : TxMessage) (addedTimestamp : Int) : TxWrap := ⟨{ tx with type := .unknownTx }, addedTimestamp, true⟩

def readAll (pendingTxs : List TxWrap) : List Pending := (readTxs packEnv freshState pendingTxs).toOption.getD []

theorem readAll_ok {pendingTxs : List TxWrap} (ok : (readTxs packEnv freshState pendingTxs).isOk = true) :
    readTxs packEnv freshState pendingTxs = .ok (readAll pendingTxs) := by
  obtain ⟨txs, read⟩ := exists_ok _ ok
  rw [readAll, read]
  rfl

/-- Deployments of one sender with the nonces 2 and 1, and a payment with the change of the
second; a deployment whose nonce does not follow, and one of a third sender with its change. -/
def mixedTxs : List TxWrap :=
  let first := deploying sampleKeyHash ⟨.fill 32 2, 0⟩ 1
  let early := deploying (.fill 20 7) ⟨.fill 32 3, 0⟩ 5
  [wrapped (deploying sampleKeyHash ⟨.fill 32 1, 0⟩ 2) 1, wrapped first 2,
    wrapped (poolTx [⟨poolCrypto.calcTxHash first, 1⟩] 4000000 3) 3, wrapped early 4,
    wrapped (deploying (.fill 20 8) ⟨poolCrypto.calcTxHash early, 1⟩ 1) 5]

def mixedState : Sequenced := sequenced packEnv freshState ((readAll mixedTxs).foldl record ⟨[], ∅, ∅, ∅, ∅⟩)

/-- Deployments of one sender with the nonces 4, 2 and 1. The first does not follow. -/
def swappedTxs : List TxWrap :=
  [wrapped (deploying sampleKeyHash ⟨.fill 32 1, 0⟩ 4) 1, wrapped (deploying sampleKeyHash ⟨.fill 32 2, 0⟩ 2) 2,
    wrapped (deploying sampleKeyHash ⟨.fill 32 3, 0⟩ 1) 3]

end Samples

end Boxd.Packing
