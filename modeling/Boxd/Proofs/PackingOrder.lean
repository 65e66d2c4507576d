import Boxd.Bpos.Packing
import Mathlib.Data.List.Infix

/-! What the loops before the graph keep of the pending transactions: the maps that the
first loop fills, and what the second loop leaves of them after it has dropped the calls
whose nonces do not follow, with all that is below them. -/

namespace Boxd.Packing
open Lib Relation List AList Nat Table Option UInt64

variable {pending ancestor : Pending} {hashToTx : Table HashType Pending}

/-- One transaction spends an output of another. -/
def Spends (child parent : Pending) : Prop :=
  ∃ txIn ∈ child.wrap.tx.vin, txIn.prevOutPoint.hash = parent.hash ∧
    txIn.prevOutPoint.index.toNat < parent.wrap.tx.vout.length

/-- The pending transactions have different hashes, spend different outputs, and none of
them spends its own outputs, directly or through others. -/
structure Dependencies (txs : List Pending) : Prop where
  hashes : (txs.map Pending.hash).Nodup
  unshared : ∀ left ∈ txs, ∀ right ∈ txs, ∀ txIn ∈ left.wrap.tx.vin, ∀ other ∈ right.wrap.tx.vin,
    txIn.prevOutPoint = other.prevOutPoint → left = right
  ranked : ∃ rank : Pending → Nat, ∀ child ∈ txs, ∀ parent ∈ txs, Spends child parent → rank parent < rank child

def calls (txs : List Pending) (sender : AddressHash) : List VMTransaction :=
  (txs.filterMap Pending.vmTx).filter fun vmTx => vmTx.sender = sender

def Child (txs : List Pending) (parent child : Pending) : Prop := parent ∈ txs ∧ child ∈ txs ∧ Spends child parent

/-- The first pending call of a sender, the only one that the first loop keeps the sender of. -/
def firstCall (txs : List Pending) (sender : AddressHash) : Option Pending :=
  txs.find? fun pending => ∃ vmTx ∈ pending.vmTx, vmTx.sender = sender

section Recording

structure Recorded (done : List Pending) (maps : Maps) : Prop where
  pool : maps.pool = done
  hashes : ∀ hash pending, maps.hashToTx.lookup hash = some pending ↔ pending ∈ done ∧ pending.hash = hash
  spenders : ∀ outPoint pending, maps.outPointToTx.lookup outPoint = some pending ↔
    pending ∈ done ∧ ∃ txIn ∈ pending.wrap.tx.vin, txIn.prevOutPoint = outPoint
  queues : ∀ sender, maps.addressToTxs.lookup sender = if calls done sender = [] then none else some (calls done sender)
  firsts : ∀ hash sender, maps.hashToAddress.lookup hash = some sender ↔
    ∃ pending, firstCall done sender = some pending ∧ pending.hash = hash

theorem lookup_inputs (pending : Pending) (inputs : List TxIn) (spenders : Table OutPoint Pending) (outPoint : OutPoint) :
    (inputs.foldl (fun spenders txIn => spenders.insert txIn.prevOutPoint pending) spenders).lookup outPoint =
      if ∃ txIn ∈ inputs, txIn.prevOutPoint = outPoint then some pending else spenders.lookup outPoint := by
  induction inputs generalizing spenders with
  | nil => simp
  | cons txIn rest next =>
    rw [foldl_cons, next]
    by_cases later : ∃ other ∈ rest, other.prevOutPoint = outPoint
    · rw [if_pos later, if_pos]
      obtain ⟨other, member, same⟩ := later
      exact ⟨other, mem_cons_of_mem _ member, same⟩
    · by_cases first : txIn.prevOutPoint = outPoint
      · rw [if_neg later, if_pos ⟨txIn, mem_cons_self, first⟩, ← first, lookup_insert]
      · rw [if_neg later, if_neg, lookup_insert_ne (Ne.symm first)]
        rintro ⟨other, member, same⟩
        rcases mem_cons.mp member with rfl | among
        · exact first same
        · exact later ⟨other, among, same⟩
theorem calls_append (left right : List Pending) (sender : AddressHash) :
    calls (left ++ right) sender = calls left sender ++ calls right sender := by
  simp [calls]

theorem calls_single (pending : Pending) (sender : AddressHash) :
    calls [pending] sender = (pending.vmTx.toList.filter fun vmTx => vmTx.sender = sender) := by
  cases called : pending.vmTx <;> simp [calls, called]

theorem calls_snoc_none (done : List Pending) (plain : pending.vmTx = none) (sender : AddressHash) :
    calls (done ++ [pending]) sender = calls done sender := by
  rw [calls_append, calls_single, plain]
  exact append_nil _

theorem firstCall_snoc (done : List Pending) (pending : Pending) (sender : AddressHash) :
    firstCall (done ++ [pending]) sender =
      (firstCall done sender).or (if ∃ vmTx ∈ pending.vmTx, vmTx.sender = sender then some pending else none) := by
  rw [firstCall, find?_append, firstCall, find?_singleton]
  simp only [decide_eq_true_eq]

theorem mem_calls {txs : List Pending} {sender : AddressHash} {vmTx : VMTransaction} :
    vmTx ∈ calls txs sender ↔ (∃ pending ∈ txs, pending.vmTx = some vmTx) ∧ vmTx.sender = sender := by
  simp only [calls, mem_filter, mem_filterMap, decide_eq_true_eq]

theorem firstCall_eq_none_iff {txs : List Pending} {sender : AddressHash} :
    firstCall txs sender = none ↔ calls txs sender = [] := by
  simp only [firstCall, find?_eq_none, decide_eq_true_eq, eq_nil_iff_forall_not_mem, mem_calls]
  constructor
  · rintro none_ vmTx ⟨⟨pending, member, call⟩, own⟩
    exact none_ pending member ⟨vmTx, call, own⟩
  · rintro none_ pending member ⟨vmTx, call, own⟩
    exact none_ vmTx ⟨⟨pending, member, call⟩, own⟩

variable {done : List Pending} {maps : Maps} {vmTx : VMTransaction}

section
variable (recorded : Recorded done maps)
include recorded

theorem Recorded.hashes_insert (fresh : ∀ other ∈ done, other.hash ≠ pending.hash)
    (hash : HashType) (other : Pending) : (maps.hashToTx.insert pending.hash pending).lookup hash = some other ↔
      other ∈ done ++ [pending] ∧ other.hash = hash := by
  simp only [mem_append, mem_singleton]
  by_cases same : hash = pending.hash
  · rw [same, lookup_insert]
    constructor
    · intro found
      cases found
      exact ⟨.inr rfl, rfl⟩
    · rintro ⟨before | rfl, equal⟩
      · exact absurd equal (fresh other before)
      · rfl
  · rw [lookup_insert_ne same, recorded.hashes]
    constructor
    · exact fun ⟨before, equal⟩ => ⟨.inl before, equal⟩
    · rintro ⟨before | rfl, equal⟩
      · exact ⟨before, equal⟩
      · exact absurd equal.symm same

theorem Recorded.spenders_insert (unshared : ∀ other ∈ done, ∀ txIn ∈ other.wrap.tx.vin, ∀ mine ∈ pending.wrap.tx.vin,
      txIn.prevOutPoint ≠ mine.prevOutPoint) (outPoint : OutPoint) (other : Pending) :
    (pending.wrap.tx.vin.foldl (fun spenders txIn => spenders.insert txIn.prevOutPoint pending)
      maps.outPointToTx).lookup outPoint = some other ↔
    other ∈ done ++ [pending] ∧ ∃ txIn ∈ other.wrap.tx.vin, txIn.prevOutPoint = outPoint := by
  rw [lookup_inputs]
  simp only [mem_append, mem_singleton]
  split
  · next mine =>
    constructor
    · intro found
      cases found
      exact ⟨.inr rfl, mine⟩
    · rintro ⟨before | rfl, txIn, member, rfl⟩
      · obtain ⟨own, among, same⟩ := mine
        exact absurd same.symm (unshared other before txIn member own among)
      · rfl
  · next others =>
    rw [recorded.spenders]
    constructor
    · exact fun ⟨before, spends⟩ => ⟨.inl before, spends⟩
    · rintro ⟨before | rfl, spends⟩
      · exact ⟨before, spends⟩
      · exact absurd spends others

theorem Recorded.queues_insert (called : pending.vmTx = some vmTx) (sender : AddressHash) :
    (maps.addressToTxs.insert vmTx.sender (calls done vmTx.sender ++ [vmTx])).lookup sender =
      if calls (done ++ [pending]) sender = [] then none else some (calls (done ++ [pending]) sender) := by
  rw [calls_append, calls_single, called, toList_some]
  by_cases same : sender = vmTx.sender
  · rw [same, lookup_insert]
    simp
  · rw [lookup_insert_ne same, recorded.queues]
    simp [Ne.symm same]

/-- A transaction that is no call, or not the first one of its sender, is nobody's first call. -/
theorem Recorded.firsts_skip (later : ∀ vmTx, pending.vmTx = some vmTx → calls done vmTx.sender ≠ [])
    (hash : HashType) (sender : AddressHash) : maps.hashToAddress.lookup hash = some sender ↔
      ∃ first, firstCall (done ++ [pending]) sender = some first ∧ first.hash = hash := by
  rw [recorded.firsts, firstCall_snoc]
  cases found : firstCall done sender with
  | some first => rfl
  | none =>
    rw [if_neg]
    · rfl
    · rintro ⟨vmTx, called, rfl⟩
      exact later vmTx called (firstCall_eq_none_iff.mp found)

theorem Recorded.firsts_insert (fresh : ∀ other ∈ done, other.hash ≠ pending.hash)
    (called : pending.vmTx = some vmTx) (new : calls done vmTx.sender = []) (hash : HashType) (sender : AddressHash) :
    (maps.hashToAddress.insert pending.hash vmTx.sender).lookup hash = some sender ↔
      ∃ first, firstCall (done ++ [pending]) sender = some first ∧ first.hash = hash := by
  have old {first : Pending} (found : firstCall done sender = some first) : first.hash ≠ pending.hash :=
    fresh first (mem_of_find?_eq_some found)
  rw [firstCall_snoc, called]
  by_cases own : vmTx.sender = sender
  · rw [← own, firstCall_eq_none_iff.mpr new, none_or, if_pos ⟨vmTx, rfl, rfl⟩]
    by_cases same : hash = pending.hash
    · rw [same, lookup_insert]
      exact iff_of_true rfl ⟨pending, rfl, rfl⟩
    · rw [lookup_insert_ne same, recorded.firsts, firstCall_eq_none_iff.mpr new]
      refine iff_of_false nofun fun ⟨first, found, equal⟩ => ?_
      cases found
      exact same equal.symm
  · rw [if_neg (by rintro ⟨_, ⟨⟩, same⟩; exact own same), or_none]
    by_cases same : hash = pending.hash
    · rw [same, lookup_insert]
      exact iff_of_false (fun equal => own (some.inj equal)) fun ⟨first, found, equal⟩ => old found equal
    · rw [lookup_insert_ne same]
      exact recorded.firsts hash sender

theorem Recorded.record (fresh : ∀ other ∈ done, other.hash ≠ pending.hash)
    (unshared : ∀ other ∈ done, ∀ txIn ∈ other.wrap.tx.vin, ∀ mine ∈ pending.wrap.tx.vin,
      txIn.prevOutPoint ≠ mine.prevOutPoint) : Recorded (done ++ [pending]) (record maps pending) := by
  have pool : maps.pool ++ [pending] = done ++ [pending] := by rw [recorded.pool]
  have hashes := recorded.hashes_insert fresh
  have spenders := recorded.spenders_insert unshared
  unfold Packing.record
  simp only
  cases called : pending.vmTx with
  | none =>
    refine ⟨pool, hashes, spenders, ?_, recorded.firsts_skip fun vmTx call => nomatch called.symm.trans call⟩
    intro sender
    rw [calls_snoc_none done called]
    exact recorded.queues sender
  | some vmTx =>
    have queue := recorded.queues vmTx.sender
    have appended := recorded.queues_insert called
    by_cases new : calls done vmTx.sender = []
    · rw [if_pos new] at queue
      rw [new, nil_append] at appended
      simp only [queue]
      exact ⟨pool, hashes, spenders, appended, recorded.firsts_insert fresh called new⟩
    · rw [if_neg new] at queue
      simp only [queue]
      refine ⟨pool, hashes, spenders, appended, recorded.firsts_skip fun other call => ?_⟩
      cases called.symm.trans call
      exact new

end

theorem recorded_all {txs : List Pending} (graph : Dependencies txs) :
    Recorded txs (txs.foldl record ⟨[], ∅, ∅, ∅, ∅⟩) := by
  have from_ (done rest : List Pending) (maps : Maps) (split : txs = done ++ rest) (recorded : Recorded done maps) :
      Recorded txs (rest.foldl record maps) := by
    induction rest generalizing done maps with
    | nil =>
      rw [append_nil] at split
      exact split ▸ recorded
    | cons pending rest next =>
      have distinct := graph.hashes
      rw [split, map_append, map_cons, nodup_append] at distinct
      have mine : pending ∈ txs := split ▸ mem_append_right _ mem_cons_self
      refine next (done ++ [pending]) _ (by rw [split, append_assoc, singleton_append]) (recorded.record ?_ ?_)
      · intro other before same
        exact distinct.2.2 _ (mem_map_of_mem before) _ mem_cons_self same
      · intro other before txIn member own among same
        have equal := graph.unshared other (split ▸ mem_append_left _ before) pending mine txIn member own among same
        exact distinct.2.2 _ (mem_map_of_mem before) _ mem_cons_self (congrArg Pending.hash equal)
  refine from_ [] txs _ rfl ⟨rfl, ?_, ?_, fun _ => rfl, ?_⟩
  · intro hash pending
    exact iff_of_false nofun fun ⟨member, _⟩ => not_mem_nil member
  · intro outPoint pending
    exact iff_of_false nofun fun ⟨member, _⟩ => not_mem_nil member
  · intro hash sender
    exact iff_of_false nofun fun ⟨_, found, _⟩ => nomatch found

end Recording

section Removing

variable {txs : List Pending} {maps : Maps}

theorem mem_childTxs (recorded : Recorded txs maps) {parent child : Pending} :
    child ∈ childTxs maps.outPointToTx parent ↔ child ∈ txs ∧ Spends child parent := by
  simp only [childTxs, mem_filterMap, mem_range, recorded.spenders]
  constructor
  · rintro ⟨txOutIdx, inside, member, txIn, spends, same⟩
    refine ⟨member, txIn, spends, by rw [same], ?_⟩
    rw [same]
    exact lt_of_le_of_lt (by rw [UInt32.toNat_ofNat']; exact mod_le _ _) inside
  · rintro ⟨member, txIn, spends, hash, inside⟩
    refine ⟨_, inside, member, txIn, spends, ?_⟩
    rw [UInt32.ofNat_toNat, ← hash]

/-- A transaction below another one, after some number of steps. -/
def Below (txs : List Pending) : Nat → Pending → Pending → Prop
  | 0, ancestor, pending => ancestor = pending
  | steps + 1, ancestor, pending => ∃ child, Child txs ancestor child ∧ Below txs steps child pending

variable {pending : Pending}

theorem exists_below (path : TransGen (Child txs) ancestor pending) :
    ∃ steps, Below txs (steps + 1) ancestor pending := by
  induction path using TransGen.head_induction_on with
  | single child => exact ⟨0, _, child, rfl⟩
  | head child _ next =>
    obtain ⟨steps, below⟩ := next
    exact ⟨steps + 1, _, child, below⟩

/-- No path is longer than the pending transactions, since their ranks grow along it. -/
theorem Below.lt (graph : Dependencies txs) {steps : Nat} (member : ancestor ∈ txs)
    (below : Below txs steps ancestor pending) : steps < txs.length := by
  obtain ⟨rank, ranked⟩ := graph.ranked
  have path : ∃ path : List Pending, path.length = steps + 1 ∧ path.Nodup ∧
      ∀ one ∈ path, one ∈ txs ∧ rank ancestor ≤ rank one := by
    induction steps generalizing ancestor with
    | zero =>
      refine ⟨[ancestor], rfl, nodup_singleton _, ?_⟩
      intro one among
      rw [mem_singleton.mp among]
      exact ⟨member, le_refl _⟩
    | succ steps next =>
      obtain ⟨child, ⟨-, inside, spends⟩, below⟩ := below
      have higher := ranked child inside ancestor member spends
      obtain ⟨path, length, once, all⟩ := next inside below
      refine ⟨ancestor :: path, by rw [length_cons, length], nodup_cons.mpr ⟨?_, once⟩, ?_⟩
      · intro again
        have lower := (all ancestor again).2
        omega
      · refine forall_mem_cons.mpr ⟨⟨member, le_refl _⟩, fun one among => ?_⟩
        obtain ⟨known, above⟩ := all one among
        exact ⟨known, by omega⟩
  obtain ⟨path, length, once, all⟩ := path
  have few := (subperm_of_subset once fun one among => (all one among).1).length_le
  omega

theorem hash_inj (graph : Dependencies txs) {left right : Pending} (member : left ∈ txs) (among : right ∈ txs)
    (same : left.hash = right.hash) : left = right :=
  inj_on_of_nodup_map graph.hashes member among same

theorem removeChildren_lookup (spenders : Table OutPoint Pending) (fuel : Nat) (removed : List Pending)
    (hashToTx : Table HashType Pending) (hash : HashType) :
    (removeChildren spenders fuel removed hashToTx).lookup hash = none ∨
      (removeChildren spenders fuel removed hashToTx).lookup hash = hashToTx.lookup hash := by
  induction fuel generalizing removed hashToTx with
  | zero => exact .inr rfl
  | succ fuel next =>
    simp only [removeChildren]
    split
    · exact .inr rfl
    · rcases next (removed.flatMap (childTxs spenders)) ((removed.flatMap (childTxs spenders)).foldl
        (fun hashToTx child => hashToTx.erase child.hash) hashToTx) with absent | same
      · exact .inl absent
      · rw [lookup_foldl_erase] at same
        split at same
        · exact .inl same
        · exact .inr same

theorem removeChildren_keeps (graph : Dependencies txs) (recorded : Recorded txs maps) (fuel : Nat)
    {removed : List Pending} (hashToTx : Table HashType Pending) (inside : ∀ one ∈ removed, one ∈ txs)
    (member : pending ∈ txs) (apart : ∀ one ∈ removed, ¬TransGen (Child txs) one pending) :
    (removeChildren maps.outPointToTx fuel removed hashToTx).lookup pending.hash = hashToTx.lookup pending.hash := by
  induction fuel generalizing removed hashToTx with
  | zero => rfl
  | succ fuel next =>
    have children {child : Pending} (among : child ∈ removed.flatMap (childTxs maps.outPointToTx)) :
        ∃ one ∈ removed, Child txs one child := by
      obtain ⟨one, before, below⟩ := mem_flatMap.mp among
      obtain ⟨known, spends⟩ := (mem_childTxs recorded).mp below
      exact ⟨one, before, inside one before, known, spends⟩
    simp only [removeChildren]
    split
    · rfl
    · rw [next]
      · rw [lookup_foldl_erase, if_neg]
        intro erased
        obtain ⟨child, among, same⟩ := mem_map.mp erased
        obtain ⟨one, before, edge⟩ := children among
        cases hash_inj graph edge.2.1 member same
        exact apart one before (.single edge)
      · intro child among
        obtain ⟨one, before, edge⟩ := children among
        exact edge.2.1
      · intro child among path
        obtain ⟨one, before, edge⟩ := children among
        exact apart one before (.head edge path)

theorem removeChildren_removes (recorded : Recorded txs maps) {fuel steps : Nat} (enough : steps < fuel)
    {removed : List Pending} (hashToTx : Table HashType Pending) {one : Pending} (member : one ∈ removed)
    (below : Below txs (steps + 1) one pending) :
    (removeChildren maps.outPointToTx fuel removed hashToTx).lookup pending.hash = none := by
  induction fuel generalizing removed hashToTx steps one with
  | zero => omega
  | succ fuel next =>
    obtain ⟨child, edge, below⟩ := below
    have among : child ∈ removed.flatMap (childTxs maps.outPointToTx) :=
      mem_flatMap.mpr ⟨one, member, (mem_childTxs recorded).mpr edge.2⟩
    simp only [removeChildren]
    rw [if_neg (ne_nil_of_mem among)]
    cases steps with
    | zero =>
      cases below
      refine (removeChildren_lookup _ _ _ _ _).elim id fun same => same.trans ?_
      rw [lookup_foldl_erase, if_pos (mem_map_of_mem among)]
    | succ steps => exact next (by omega) _ among below

theorem lookup_removed (graph : Dependencies txs) (recorded : Recorded txs maps) (hashToTx : Table HashType Pending)
    {removed : Pending} (member : removed ∈ txs) (among : pending ∈ txs) :
    ((removeChildren maps.outPointToTx maps.pool.length [removed] hashToTx).erase removed.hash).lookup pending.hash = none ∧
        ReflTransGen (Child txs) removed pending ∨
      ((removeChildren maps.outPointToTx maps.pool.length [removed] hashToTx).erase removed.hash).lookup pending.hash =
        hashToTx.lookup pending.hash ∧ ¬ReflTransGen (Child txs) removed pending := by
  by_cases same : pending = removed
  · subst same
    exact .inl ⟨lookup_erase .., .refl⟩
  · have other : pending.hash ≠ removed.hash := fun equal => same (hash_inj graph among member equal)
    rw [lookup_erase_ne other, reflTransGen_iff_eq_or_transGen]
    by_cases path : TransGen (Child txs) removed pending
    · obtain ⟨steps, below⟩ := exists_below path
      have few := below.lt graph member
      refine .inl ⟨removeChildren_removes recorded ?_ hashToTx (mem_singleton_self _) below, .inr path⟩
      rw [recorded.pool]
      omega
    · refine .inr ⟨removeChildren_keeps graph recorded _ hashToTx ?_ among ?_, ?_⟩
      · exact fun one only => mem_singleton.mp only ▸ member
      · exact fun one only => mem_singleton.mp only ▸ path
      · exact fun either => either.elim same path

end Removing

instance decidableSpends (child parent : Pending) : Decidable (Spends child parent) :=
  inferInstanceAs (Decidable (∃ _ ∈ _, _))

/-- The calls are those of their transactions. -/
def Extracted (txs : List Pending) : Prop :=
  ∀ pending ∈ txs, ∀ vmTx, pending.vmTx = some vmTx → vmTx.originTx = pending.hash ∧ pending.wrap.tx.type = .contractTx

/-- The state after the second loop. -/
def sequenced (env : PackEnv) (statedb : StateDB) (maps : Maps) : Sequenced :=
  (env.range maps.addressToTxs.keys).foldl (sequenceSender env statedb maps) ⟨maps.hashToTx, ∅⟩

section Sequencing

variable {txs : List Pending} {maps : Maps} {statedb : StateDB} {sender : AddressHash} {vmTx : VMTransaction}

/-- Neither the transaction nor one whose outputs it needs is a call. -/
def NeedsNoCall (txs : List Pending) (pending : Pending) : Prop :=
  ∀ ancestor, ReflTransGen (Child txs) ancestor pending → ancestor.vmTx = none

/-- What is left of the transactions: all that need no call, and nothing below what is gone. -/
structure Remaining (txs : List Pending) (hashToTx : Table HashType Pending) : Prop where
  known : ∀ hash pending, hashToTx.lookup hash = some pending → pending ∈ txs ∧ pending.hash = hash
  plain : ∀ pending ∈ txs, NeedsNoCall txs pending → hashToTx.lookup pending.hash = some pending
  closed : ∀ parent child, Child txs parent child → hashToTx.lookup parent.hash = none → hashToTx.lookup child.hash = none

theorem Remaining.start (recorded : Recorded txs maps) : Remaining txs maps.hashToTx := by
  refine ⟨fun hash pending => (recorded.hashes hash pending).mp, ?_, ?_⟩
  · exact fun pending member _ => (recorded.hashes _ _).mpr ⟨member, rfl⟩
  · intro parent child edge absent
    rw [(recorded.hashes _ _).mpr ⟨edge.1, rfl⟩] at absent
    cases absent

theorem Remaining.remove (graph : Dependencies txs) (recorded : Recorded txs maps)
    (remaining : Remaining txs hashToTx) (member : pending ∈ txs) (call : pending.vmTx = some vmTx) :
    Remaining txs ((removeChildren maps.outPointToTx maps.pool.length [pending] hashToTx).erase pending.hash) := by
  have removed {other : Pending} (among : other ∈ txs) := lookup_removed graph recorded hashToTx member among
  refine ⟨?_, ?_, ?_⟩
  · intro hash other found
    refine remaining.known hash other ?_
    obtain ⟨-, found⟩ := lookup_of_erase found
    rcases removeChildren_lookup maps.outPointToTx maps.pool.length [pending] hashToTx hash with absent | same
    · rw [absent] at found
      cases found
    · rw [← same]
      exact found
  · intro other among plain
    rcases removed among with ⟨-, path⟩ | ⟨same, -⟩
    · exact nomatch call.symm.trans (plain pending path)
    · rw [same]
      exact remaining.plain other among plain
  · intro parent child edge absent
    rcases removed edge.2.1 with ⟨gone, -⟩ | ⟨same, unreached⟩
    · exact gone
    · rw [same]
      rcases removed edge.1 with ⟨-, path⟩ | ⟨before, -⟩
      · exact absurd (path.tail edge) unreached
      · exact remaining.closed parent child edge (before ▸ absent)

variable {among vmtxs done : List VMTransaction} {currentNonce : UInt64}

/-- Consecutive nonces from the one on the chain. -/
def Consecutive (statedb : StateDB) (sender : AddressHash) (vmtxs : List VMTransaction) : Prop :=
  vmtxs.map VMTransaction.nonce = (range vmtxs.length).map fun i => statedb.getNonce sender + 1 + .ofNat i

theorem Consecutive.take (consecutive : Consecutive statedb sender vmtxs)
    (next : vmTx.nonce = statedb.getNonce sender + .ofNat vmtxs.length + 1) : Consecutive statedb sender (vmtxs ++ [vmTx]) := by
  rw [Consecutive, map_append, consecutive, length_append, length_singleton, range_succ, map_append,
    map_singleton, map_singleton, next, UInt64.add_assoc (statedb.getNonce sender), UInt64.add_comm (.ofNat _),
    ← add_assoc]

/-- What holds while the calls of a sender are gone through: those that were taken have
consecutive nonces, and the others are gone. -/
structure Going (statedb : StateDB) (txs : List Pending) (sender : AddressHash) (done : List VMTransaction)
    (currentNonce : UInt64) (hashToTx : Table HashType Pending) (vmtxs : List VMTransaction) : Prop where
  remaining : Remaining txs hashToTx
  within : ∀ vmTx ∈ vmtxs, vmTx ∈ done
  consecutive : Consecutive statedb sender vmtxs
  current : currentNonce = statedb.getNonce sender + .ofNat vmtxs.length
  taken : ∀ vmTx ∈ done, hashToTx.lookup vmTx.originTx = none ∨ vmTx ∈ vmtxs

theorem Going.skip {smaller : Table HashType Pending} (going : Going statedb txs sender done currentNonce hashToTx vmtxs)
    (remaining : Remaining txs smaller) (fewer : ∀ hash, hashToTx.lookup hash = none → smaller.lookup hash = none)
    (absent : smaller.lookup vmTx.originTx = none) :
    Going statedb txs sender (done ++ [vmTx]) currentNonce smaller vmtxs := by
  refine ⟨remaining, fun other listed => mem_append_left _ (going.within other listed), going.consecutive, going.current, ?_⟩
  intro other member
  rcases mem_append.mp member with before | last
  · exact (going.taken other before).imp_left (fewer _)
  · rw [mem_singleton.mp last]
    exact .inl absent

theorem Going.take (going : Going statedb txs sender done currentNonce hashToTx vmtxs)
    (next : vmTx.nonce = currentNonce + 1) :
    Going statedb txs sender (done ++ [vmTx]) (currentNonce + 1) hashToTx (vmtxs ++ [vmTx]) := by
  refine ⟨going.remaining, ?_, going.consecutive.take (going.current ▸ next), ?_, ?_⟩
  · intro other listed
    exact mem_append.mpr ((mem_append.mp listed).imp_left (going.within other))
  · rw [going.current, length_append, length_singleton, ofNat_add, add_assoc]
    rfl
  · intro other member
    rcases mem_append.mp member with before | last
    · exact (going.taken other before).imp_right (mem_append_left _)
    · exact .inr (mem_append_right _ last)

theorem erase_removeChildren_none (removed : Pending) (hash other : HashType)
    (absent : hashToTx.lookup other = none) :
    ((removeChildren maps.outPointToTx maps.pool.length [removed] hashToTx).erase hash).lookup other = none := by
  by_cases same : other = hash
  · rw [same, lookup_erase]
  · rw [lookup_erase_ne same]
    exact (removeChildren_lookup ..).elim id (·.trans absent)

/-- The second loop, after some senders: what is left, and the list of each sender, which
has the calls that are left and perhaps some that were dropped after they were listed. -/
structure Settled (statedb : StateDB) (txs : List Pending) (done : List AddressHash) (state : Sequenced) : Prop where
  remaining : Remaining txs state.hashToTx
  within : ∀ sender vmtxs, state.addressToNonceSortedTxs.lookup sender = some vmtxs → ∀ vmTx ∈ vmtxs, vmTx ∈ calls txs sender
  consecutive : ∀ sender vmtxs, state.addressToNonceSortedTxs.lookup sender = some vmtxs → Consecutive statedb sender vmtxs
  taken : ∀ sender ∈ done, ∃ vmtxs, state.addressToNonceSortedTxs.lookup sender = some vmtxs ∧
    ∀ vmTx ∈ calls txs sender, state.hashToTx.lookup vmTx.originTx = none ∨ vmTx ∈ vmtxs

variable (graph : Dependencies txs) (extracted : Extracted txs) (recorded : Recorded txs maps)
include graph extracted recorded

/-- The loop over the calls of a sender takes those that follow, and drops the others. -/
theorem sequence_going {rest : List VMTransaction} (called : ∀ vmTx ∈ rest, vmTx ∈ calls txs sender)
    (going : Going statedb txs sender done currentNonce hashToTx vmtxs) :
    (∃ last, Going statedb txs sender (done ++ rest) last (sequence maps rest currentNonce hashToTx vmtxs).1
      (sequence maps rest currentNonce hashToTx vmtxs).2) ∧
      ∀ hash, hashToTx.lookup hash = none → (sequence maps rest currentNonce hashToTx vmtxs).1.lookup hash = none := by
  induction rest generalizing done currentNonce hashToTx vmtxs with
  | nil =>
    rw [append_nil]
    exact ⟨⟨currentNonce, going⟩, fun _ => id⟩
  | cons vmTx rest next =>
    obtain ⟨⟨pending, member, call⟩, -⟩ := mem_calls.mp (called vmTx mem_cons_self)
    obtain ⟨origin, -⟩ := extracted pending member vmTx call
    have later : ∀ other ∈ rest, other ∈ calls txs sender := fun other listed => called other (mem_cons_of_mem _ listed)
    rw [append_cons done vmTx rest]
    unfold sequence
    split
    · next absent => exact next later (going.skip going.remaining (fun _ => id) absent)
    · next found present =>
      obtain ⟨among, same⟩ := going.remaining.known _ found present
      obtain rfl := hash_inj graph among member (same.trans origin)
      split
      · have remaining := going.remaining.remove graph recorded member call
        rw [← origin] at remaining
        obtain ⟨ends, fewer⟩ := next later (going.skip remaining
          (fun hash => erase_removeChildren_none found vmTx.originTx hash) (lookup_erase ..))
        exact ⟨ends, fun hash absent => fewer hash (erase_removeChildren_none found vmTx.originTx hash absent)⟩
      · next equal => exact next later (going.take (not_not.mp equal))

variable (env : PackEnv)

theorem Settled.step {done : List AddressHash} {state : Sequenced} (settled : Settled statedb txs done state)
    (sender : AddressHash) : Settled statedb txs (done ++ [sender]) (sequenceSender env statedb maps state sender) := by
  have queue : (maps.addressToTxs.lookup sender).getD [] = calls txs sender := by
    rw [recorded.queues]
    split
    · next none_ => exact none_.symm
    · rfl
  have drained (vmTx : VMTransaction) := (env.drain_perm (fun vmTx => (vmTx.nonce.toNat : Int)) (calls txs sender)).mem_iff (a := vmTx)
  have start : Going statedb txs sender [] (statedb.getNonce sender) state.hashToTx [] :=
    ⟨settled.remaining, nofun, rfl, (add_zero _).symm, nofun⟩
  obtain ⟨⟨last, going⟩, fewer⟩ := sequence_going graph extracted recorded (fun vmTx => (drained vmTx).mp) start
  rw [nil_append] at going
  unfold sequenceSender
  rw [queue]
  refine ⟨going.remaining, ?_, ?_, ?_⟩
  · intro other vmtxs found
    obtain ⟨rfl, rfl⟩ | ⟨-, before⟩ := lookup_insert_cases found
    · exact fun vmTx listed => (drained vmTx).mp (going.within vmTx listed)
    · exact settled.within other vmtxs before
  · intro other vmtxs found
    obtain ⟨rfl, rfl⟩ | ⟨-, before⟩ := lookup_insert_cases found
    · exact going.consecutive
    · exact settled.consecutive other vmtxs before
  · intro other member
    by_cases same : other = sender
    · rw [same, lookup_insert]
      exact ⟨_, rfl, fun vmTx call => going.taken vmTx ((drained vmTx).mpr call)⟩
    · rw [lookup_insert_ne same]
      obtain ⟨vmtxs, found, taken⟩ := settled.taken other ((mem_append.mp member).resolve_right
        fun last => same (mem_singleton.mp last))
      exact ⟨vmtxs, found, fun vmTx call => (taken vmTx call).imp_left (fewer _)⟩

theorem Settled.senders (senders : List AddressHash) {done : List AddressHash} {state : Sequenced}
    (settled : Settled statedb txs done state) :
    Settled statedb txs (done ++ senders) (senders.foldl (sequenceSender env statedb maps) state) := by
  induction senders generalizing done state with
  | nil => exact (append_nil done).symm ▸ settled
  | cons sender rest next =>
    have further := next (settled.step graph extracted recorded env sender)
    rw [append_assoc, singleton_append] at further
    exact further

theorem sequenced_settled :
    Settled statedb txs (env.range maps.addressToTxs.keys) (sequenced env statedb maps) := by
  have start : Settled statedb txs [] ⟨maps.hashToTx, ∅⟩ := ⟨.start recorded, nofun, nofun, nofun⟩
  exact start.senders graph extracted recorded env _

omit graph extracted in
theorem mem_range_senders (some_ : calls txs sender ≠ []) : sender ∈ env.range maps.addressToTxs.keys := by
  rw [(env.range_perm _).mem_iff, ← AList.mem_keys, ← AList.lookup_isSome, recorded.queues, if_neg some_]
  rfl

end Sequencing

end Boxd.Packing
