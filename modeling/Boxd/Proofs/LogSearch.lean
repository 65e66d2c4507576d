import Boxd.Lib.Interval
import Boxd.Proofs.HeaderLogs
import Boxd.Proofs.SectionIndex

/-! The search for logs. Where sections are indexed, the sets of blocks for the bits of a
topic are intersected; elsewhere the filters of the headers are asked. Both find the same,
except for some blocks that are not looked at. -/

namespace Boxd
open Lib List Nat BitSet Boxd.Filter Function

variable {n : Nat}

namespace Filter

def hasBit (bf : Filter) (n : Nat) : Bool := bf.filter[n / 8]?.any fun byte => bitOf byte (n % 8)

theorem mask_eq (idx : UInt32) : mask idx = bitMask (idx.toNat % 8) := by
  unfold mask bitMask
  congr 1
  apply UInt8.toNat_inj.mp
  have low : idx.toNat % 256 &&& 7 = idx.toNat % 256 % 8 := and_two_pow_sub_one_eq_mod (idx.toNat % 256) 3
  simp [low]
  omega

theorem shift_eq (idx : UInt32) : (idx >>> 3).toNat = idx.toNat / 8 := by
  rw [UInt32.toNat_shiftRight, show (3 : UInt32).toNat % 32 = 3 by decide, shiftRight_eq_div_pow]

theorem hasBit_setBit {bf : Filter} {idx : UInt32} (inside : idx.toNat / 8 < bf.filter.length) (n : Nat) :
    (bf.setBit idx).hasBit n = (bf.hasBit n || decide (n = idx.toNat)) := by
  unfold hasBit setBit
  rw [shift_eq, mask_eq, getElem?_modify]
  by_cases same : idx.toNat / 8 = n / 8
  · rw [← same, getElem?_eq_getElem inside]
    simp only [Option.map_eq_map, Option.map_some, Option.any_some, if_true]
    rw [bitOf_or _ _ (mod_lt _ (by decide)), bitOf_mask (mod_lt _ (by decide)) (mod_lt _ (by decide))]
    congr 1
    rw [decide_eq_decide]
    omega
  · have differ : n ≠ idx.toNat := by
      rintro rfl
      exact same rfl
    simp [same, differ]

variable {bf after : Filter} {data : Bytes}

theorem Below.funcs (shaped : emptyBloom.Below bf) : bf.funcs = emptyBloom.funcs := by
  unfold Filter.funcs
  rw [shaped.hashFuncs]

/-- The bits that stand for some data. -/
def Marks (data : Bytes) (funcs : List UInt32) (n : Nat) : Prop :=
  ∃ i ∈ funcs, ∃ idx, emptyBloom.hash i data = some idx ∧ n = idx.toNat

theorem marks_cons {i idx : UInt32} {rest : List UInt32} (position : emptyBloom.hash i data = some idx) :
    Marks data (i :: rest) n ↔ n = idx.toNat ∨ Marks data rest n := by
  constructor
  · rintro ⟨other, member, found, at_, rfl⟩
    rcases mem_cons.mp member with rfl | later
    · rw [position] at at_
      cases at_
      exact .inl rfl
    · exact .inr ⟨other, later, found, at_, rfl⟩
  · rintro (rfl | ⟨other, later, found, at_, rfl⟩)
    · exact ⟨i, mem_cons_self, idx, position, rfl⟩
    · exact ⟨other, mem_cons_of_mem _ later, found, at_, rfl⟩

theorem hasMatchAt_iff (shaped : emptyBloom.Below bf) {funcs : List UInt32} :
    bf.hasMatchAt data funcs = some true ↔ ∀ n, Marks data funcs n → bf.hasBit n = true := by
  induction funcs with
  | nil => simp [hasMatchAt, Marks]
  | cons i rest next =>
    obtain ⟨idx, position, inside⟩ := (shaped.sized emptyBloom_sized).hash i data
    have read : bf.bitAt idx = some (bf.hasBit idx.toNat) := by
      unfold bitAt hasBit
      rw [shift_eq] at inside ⊢
      rw [getElem?_eq_getElem inside, mask_eq]
      rfl
    simp only [hasMatchAt, position, read, Option.bind_eq_bind, Option.bind_some]
    rw [← shaped.hash] at position
    simp only [marks_cons position]
    cases set : bf.hasBit idx.toNat with
    | false =>
      constructor
      · intro found
        cases found
      · intro all
        rw [all idx.toNat (.inl rfl)] at set
        cases set
    | true =>
      refine next.trans ⟨fun all n marked => ?_, fun all n marked => all n (.inr marked)⟩
      rcases marked with rfl | later
      · exact set
      · exact all n later

theorem hasMatch_iff (shaped : emptyBloom.Below bf) :
    bf.hasMatch data = some true ↔ ∀ n, Marks data emptyBloom.funcs n → bf.hasBit n = true := by
  unfold hasMatch
  rw [shaped.funcs]
  exact hasMatchAt_iff shaped

theorem addAt_hasBit {funcs : List UInt32} (shaped : emptyBloom.Below bf)
    (added : funcs.foldlM (fun (bf : Filter) i => (bf.hash i data).map bf.setBit) bf = some after) (n : Nat) :
    after.hasBit n = true ↔ bf.hasBit n = true ∨ Marks data funcs n := by
  induction funcs generalizing bf with
  | nil =>
    cases added
    simp [Marks]
  | cons i rest next =>
    obtain ⟨idx, position, inside⟩ := (shaped.sized emptyBloom_sized).hash i data
    rw [foldlM_cons, position] at added
    rw [shift_eq] at inside
    rw [← shaped.hash] at position
    rw [next (shaped.trans (below_setBit bf idx)) added, hasBit_setBit inside, marks_cons position, Bool.or_eq_true,
      decide_eq_true_eq, or_assoc]

theorem emptyBloom_filter : emptyBloom.filter = replicate bloomByteLength 0 := by decide +kernel

theorem emptyBloom_hasBit (n : Nat) : emptyBloom.hasBit n = false := by
  unfold hasBit
  rw [emptyBloom_filter, getElem?_replicate]
  split
  · rw [Option.any_some, bitOf_eq_testBit _ (mod_lt _ (by decide))]
    simp
  · rfl

theorem add_hasBit (added : emptyBloom.add data = some after) (n : Nat) :
    after.hasBit n = true ↔ Marks data emptyBloom.funcs n := by
  rw [addAt_hasBit (.refl emptyBloom) added, emptyBloom_hasBit]
  simp

/-- The bits of a byte are counted the other way round by `BitIndexes`. -/
theorem has_filter (bf : Filter) (p : Nat) : has bf.filter p = bf.hasBit (p / 8 * 8 + (7 - p % 8)) := by
  unfold has hasBit
  rw [show (p / 8 * 8 + (7 - p % 8)) / 8 = p / 8 by omega, show (p / 8 * 8 + (7 - p % 8)) % 8 = 7 - p % 8 by omega]

theorem rotatedBit_eq (bf : Filter) {p : Nat} (small : p < bloomBits) :
    bf.rotatedBit (bloomBits - 1 - p) = has bf.filter p := by
  unfold rotatedBit has
  unfold bloomBits at *
  rw [show bloomByteLength - 1 - (2048 - 1 - p) / 8 = p / 8 by unfold bloomByteLength; omega,
    show (2048 - 1 - p) % 8 = 7 - p % 8 by omega]

end Filter

theorem mem_topicIndexes {topic : Bytes} {p : Nat} :
    p ∈ topicIndexes topic ↔ p < bloomBits ∧ Filter.Marks topic emptyBloom.funcs (p / 8 * 8 + (7 - p % 8)) := by
  obtain ⟨after, added, below, -⟩ := add_ok emptyBloom_sized topic
  have length : after.filter.length = bloomByteLength := by
    rw [← below.length, emptyBloom_filter, length_replicate]
  unfold topicIndexes
  rw [added, Option.map_some, Option.getD_some, mem_indexes, has_filter, add_hasBit added]
  refine ⟨fun marked => ⟨?_, marked⟩, And.right⟩
  rw [← add_hasBit added, ← has_filter] at marked
  have bound := has_lt marked
  rwa [length] at bound

theorem marks_lt {topic : Bytes} (marked : Filter.Marks topic emptyBloom.funcs n) : n < bloomBits := by
  obtain ⟨i, -, idx, position, rfl⟩ := marked
  obtain ⟨other, at_, inside⟩ := emptyBloom_sized.hash i topic
  rw [position] at at_
  cases at_
  rw [shift_eq, emptyBloom_filter, length_replicate] at inside
  unfold bloomByteLength at inside
  unfold bloomBits
  omega

theorem swap_lt (small : n < bloomBits) : n / 8 * 8 + (7 - n % 8) < bloomBits := by
  unfold bloomBits at *
  omega

theorem swap_swap (n : Nat) : (n / 8 * 8 + (7 - n % 8)) / 8 * 8 + (7 - (n / 8 * 8 + (7 - n % 8)) % 8) = n := by omega

theorem topicIndexes_ne_nil (topic : Bytes) : topicIndexes topic ≠ [] := by
  obtain ⟨idx, position, -⟩ := emptyBloom_sized.hash 0 topic
  have marked : Filter.Marks topic emptyBloom.funcs idx.toNat := ⟨0, by decide, idx, position, rfl⟩
  refine ne_nil_of_mem (mem_topicIndexes.mpr ⟨swap_lt (marks_lt marked), ?_⟩)
  rwa [swap_swap]

theorem topicIndexes_all {bf : Filter} (shaped : emptyBloom.Below bf) (topic : Bytes) :
    (∀ p ∈ topicIndexes topic, bf.rotatedBit (bloomBits - 1 - p) = true) ↔ bf.hasMatch topic = some true := by
  rw [hasMatch_iff shaped]
  constructor
  · intro all n marked
    have small := swap_lt (marks_lt marked)
    have set := all _ (mem_topicIndexes.mpr ⟨small, by rwa [swap_swap]⟩)
    rwa [rotatedBit_eq bf small, has_filter, swap_swap] at set
  · intro all p member
    obtain ⟨small, marked⟩ := mem_topicIndexes.mp member
    rw [rotatedBit_eq bf small, has_filter]
    exact all _ marked

namespace SectionDB

variable {chain : UInt32 → Filter} {db : SectionDB} {count s j : Nat}

abbrev blockAt (chain : UInt32 → Filter) (s j : Nat) : Filter := chain (.ofNat (s * sectionBloomBitLength + j))

section
variable (stored : db.Stored chain count)
include stored

section
variable (inside : s < count) (small : j < sectionBloomBitLength)
include inside small

theorem matchIndexes_has {indexes : List Nat} {tmp : SectionBits} :
    (db.matchIndexes (.ofNat s) false indexes tmp).has j = true ↔
      tmp.has j = true ∧ ∀ p ∈ indexes, (blockAt chain s j).rotatedBit (bloomBits - 1 - p) = true := by
  induction indexes generalizing tmp with
  | nil => simp [matchIndexes]
  | cons index rest next =>
    obtain ⟨bits, found, right⟩ := stored s inside (bloomBits - 1 - index) (by unfold bloomBits; omega)
    unfold matchIndexes
    rw [found]
    dsimp only
    rw [if_neg Bool.false_ne_true, next, forall_mem_cons, ← right j small]
    unfold SectionBits.has SectionBits.inter
    rw [has_inter, Bool.and_eq_true, and_assoc]

theorem topicBits_has (shaped : emptyBloom.Below (blockAt chain s j)) (topic : Bytes) :
    (db.topicBits (.ofNat s) topic).has j = true ↔ (blockAt chain s j).hasMatch topic = some true := by
  rw [← topicIndexes_all shaped topic]
  unfold topicBits
  cases indexes : topicIndexes topic with
  | nil => exact absurd indexes (topicIndexes_ne_nil topic)
  | cons index rest =>
    obtain ⟨bits, found, right⟩ := stored s inside (bloomBits - 1 - index) (by unfold bloomBits; omega)
    unfold matchIndexes
    rw [found]
    dsimp only
    rw [if_pos rfl, matchIndexes_has stored inside small, forall_mem_cons, ← right j small]

theorem topicMatcher_has (shaped : emptyBloom.Below (blockAt chain s j)) (topics : List Bytes) :
    (db.topicMatcher (.ofNat s) topics).has j = true ↔ ∃ topic ∈ topics, (blockAt chain s j).hasMatch topic = some true := by
  have union : ∀ (rest : List Bytes) (matcher : SectionBits),
      (rest.foldl (fun matcher topic => matcher.union (db.topicBits (.ofNat s) topic)) matcher).has j = true ↔
        matcher.has j = true ∨ ∃ topic ∈ rest, (blockAt chain s j).hasMatch topic = some true := by
    intro rest
    induction rest with
    | nil => simp
    | cons topic rest next =>
      intro matcher
      have one : (matcher.union (db.topicBits (.ofNat s) topic)).has j = true ↔
          matcher.has j = true ∨ (blockAt chain s j).hasMatch topic = some true := by
        rw [← topicBits_has stored inside small shaped topic]
        unfold SectionBits.has SectionBits.union
        rw [has_union (matcher.length_eq.trans (db.topicBits (.ofNat s) topic).length_eq.symm), Bool.or_eq_true]
      rw [foldl_cons, next, one, or_assoc]
      simp only [mem_cons, exists_eq_or_imp]
  cases topics with
  | nil => simp [topicMatcher, SectionBits.has_empty]
  | cons topic rest =>
    unfold topicMatcher
    rw [union, topicBits_has stored inside small shaped]
    simp only [mem_cons, exists_eq_or_imp]

theorem heightMask_has (shaped : emptyBloom.Below (blockAt chain s j)) (query : LogQuery) :
    (db.heightMask (.ofNat s) query).has j = true ↔
      (∃ addr ∈ query.addrs, (blockAt chain s j).hasMatch addr = some true) ∧
        ∀ position ∈ query.topics.zipIdx 1, 1 < position.2 ∧ position.1 = [] ∨
          ∃ topic ∈ position.1, (blockAt chain s j).hasMatch topic = some true := by
  unfold heightMask
  rw [← topicMatcher_has stored inside small shaped]
  generalize db.topicMatcher (.ofNat s) query.addrs = mask
  generalize query.topics.zipIdx 1 = positions
  induction positions generalizing mask with
  | nil => simp
  | cons position rest next =>
    rw [foldl_cons, next, forall_mem_cons, ← and_assoc]
    refine and_congr_left fun _ => ?_
    rw [← topicMatcher_has stored inside small shaped]
    split
    · next any =>
      rw [Bool.and_eq_true, decide_eq_true_eq, List.isEmpty_iff] at any
      exact ⟨fun set => ⟨set, .inl any⟩, And.left⟩
    · next narrow =>
      rw [Bool.and_eq_true, decide_eq_true_eq, List.isEmpty_iff] at narrow
      unfold SectionBits.has SectionBits.inter
      rw [has_inter, Bool.and_eq_true]
      exact and_congr_right fun _ => ⟨.inr, fun set => set.resolve_left narrow⟩

end

end

end SectionDB

section Visits

variable {bf : Filter} (sized : bf.Sized)
include sized

theorem anyMatch_iff (wanted : List Bytes) :
    anyMatch bf wanted = some true ↔ ∃ data ∈ wanted, bf.hasMatch data = some true := by
  constructor
  · intro found
    induction wanted with
    | nil => cases found
    | cons first rest next =>
      obtain ⟨known, looked⟩ := sized.hasMatch first
      cases known with
      | true => exact ⟨first, mem_cons_self, looked⟩
      | false =>
        rw [anyMatch, looked] at found
        obtain ⟨data, member, known⟩ := next found
        exact ⟨data, mem_cons_of_mem _ member, known⟩
  · rintro ⟨data, member, known⟩
    exact anyMatch_ok sized member known

theorem topicsMatch_iff (wanted : List (List Bytes)) :
    topicsMatch bf wanted = some true ↔ ∀ sub ∈ wanted, sub = [] ∨ ∃ data ∈ sub, bf.hasMatch data = some true := by
  induction wanted with
  | nil => simp [topicsMatch]
  | cons sub rest next =>
    obtain ⟨included, looked⟩ := anyMatch_isSome sized sub
    have known := anyMatch_iff sized sub
    rw [forall_mem_cons, ← next, ← known, topicsMatch, looked]
    cases sub with
    | nil => simp
    | cons first others => cases included <;> simp

theorem bloomFilter_iff (query : LogQuery) :
    bloomFilter bf query = some true ↔ (query.addrs = [] ∨ ∃ addr ∈ query.addrs, bf.hasMatch addr = some true) ∧
      ∀ sub ∈ query.topics, sub = [] ∨ ∃ topic ∈ sub, bf.hasMatch topic = some true := by
  obtain ⟨included, looked⟩ := anyMatch_isSome sized query.addrs
  have known := anyMatch_iff sized query.addrs
  rw [← topicsMatch_iff sized, ← known]
  unfold bloomFilter
  cases addrs : query.addrs with
  | nil => simp
  | cons first rest =>
    rw [addrs] at looked
    cases included <;> simp [looked]

theorem bloomFilter_isSome (query : LogQuery) : ∃ visited, bloomFilter bf query = some visited := by
  have topics : ∀ wanted, ∃ found, topicsMatch bf wanted = some found := by
    intro wanted
    induction wanted with
    | nil => exact ⟨true, rfl⟩
    | cons sub rest next =>
      obtain ⟨included, looked⟩ := anyMatch_isSome sized sub
      obtain ⟨found, later⟩ := next
      rw [topicsMatch, looked]
      dsimp only [Option.bind_eq_bind, Option.bind_some]
      split
      · exact ⟨found, later⟩
      · exact ⟨false, rfl⟩
  obtain ⟨found, later⟩ := topics query.topics
  obtain ⟨included, looked⟩ := anyMatch_isSome sized query.addrs
  unfold bloomFilter
  cases empty : query.addrs.isEmpty with
  | true => exact ⟨found, by simpa using later⟩
  | false =>
    cases included with
    | true => exact ⟨found, by simpa [looked] using later⟩
    | false => exact ⟨false, by simp [looked]⟩

end Visits

/-- The index takes the set of addresses or of first topics of a search for one that
nothing belongs to. -/
def LogQuery.Blind (query : LogQuery) : Prop := query.addrs = [] ∨ query.topics.head? = some []

namespace SectionDB

variable {chain : UInt32 → Filter} {db : SectionDB} {count s j : Nat}

/-- The index finds the blocks that the filters find, if it is not blind. -/
theorem heightMask_iff (stored : db.Stored chain count) (inside : s < count) (small : j < sectionBloomBitLength)
    (shaped : emptyBloom.Below (blockAt chain s j)) (query : LogQuery) :
    (db.heightMask (.ofNat s) query).has j = true ↔ ¬query.Blind ∧ bloomFilter (blockAt chain s j) query = some true := by
  rw [heightMask_has stored inside small shaped, bloomFilter_iff (shaped.sized emptyBloom_sized)]
  have positions : ∀ (subs : List (List Bytes)) (i : Nat), 1 < i →
      ((∀ position ∈ subs.zipIdx i, 1 < position.2 ∧ position.1 = [] ∨
          ∃ topic ∈ position.1, (blockAt chain s j).hasMatch topic = some true) ↔
        ∀ sub ∈ subs, sub = [] ∨ ∃ topic ∈ sub, (blockAt chain s j).hasMatch topic = some true) := by
    intro subs
    induction subs with
    | nil => simp
    | cons sub rest next =>
      intro i late
      rw [zipIdx_cons, forall_mem_cons, forall_mem_cons, next (i + 1) (by omega)]
      simp [late]
  have filled : ∀ {values : List Bytes}, (∃ data ∈ values, (blockAt chain s j).hasMatch data = some true) → values ≠ [] := by
    rintro values ⟨data, member, -⟩
    exact ne_nil_of_mem member
  unfold LogQuery.Blind
  cases topics : query.topics with
  | nil =>
    constructor
    · rintro ⟨found, -⟩
      exact ⟨fun blind => filled found (blind.resolve_right nofun), .inr found, nofun⟩
    · rintro ⟨sighted, any, -⟩
      exact ⟨any.resolve_left fun none => sighted (.inl none), nofun⟩
  | cons sub rest =>
    rw [zipIdx_cons, forall_mem_cons, forall_mem_cons, positions rest (1 + 1) (by omega)]
    constructor
    · rintro ⟨found, first, others⟩
      have first := first.resolve_left fun late => lt_irrefl 1 late.1
      refine ⟨?_, .inr found, .inr first, others⟩
      rintro (none | none)
      · exact filled found none
      · exact filled first (Option.some.inj none)
    · rintro ⟨sighted, any, first, others⟩
      refine ⟨any.resolve_left fun none => sighted (.inl none), .inr (first.resolve_left fun none => ?_), others⟩
      exact sighted (.inr (congrArg some none))

/-- Whether the index has a block for a search, by the height. -/
def masked (db : SectionDB) (query : LogQuery) (height : Nat) : Bool :=
  (db.heightMask (.ofNat (height / sectionBloomBitLength)) query).has (height % sectionBloomBitLength)

theorem ofNat_add_mul (i s : Nat) :
    UInt32.ofNat i + UInt32.ofNat s * .ofNat sectionBloomBitLength = .ofNat (s * sectionBloomBitLength + i) := by
  rw [← UInt32.ofNat_mul, ← UInt32.ofNat_add, add_comm]

theorem indexed_eq (query : LogQuery) (s : Nat) :
    db.indexed (.ofNat s) query = ((range' (s * sectionBloomBitLength) sectionBloomBitLength).filter
      (db.masked query)).map UInt32.ofNat := by
  unfold indexed indexes
  simp only [ofNat_add_mul]
  rw [range'_eq_map_range, filter_map, map_map, (db.heightMask (.ofNat s) query).length_eq]
  have same : ∀ i ∈ range sectionBloomBitLength, has (db.heightMask (.ofNat s) query).bytes i =
      (db.masked query ∘ (s * sectionBloomBitLength + ·)) i := by
    intro i member
    have inside : i < sectionBloomBitLength := mem_range.mp member
    unfold masked
    simp only [comp_apply]
    rw [show (s * sectionBloomBitLength + i) / sectionBloomBitLength = s by unfold sectionBloomBitLength at *; omega,
      show (s * sectionBloomBitLength + i) % sectionBloomBitLength = i by unfold sectionBloomBitLength at *; omega]
    rfl
  rw [← filter_congr same]
  rfl

end SectionDB

namespace LogChain

variable {chain : LogChain} {query : LogQuery}

theorem logsAt_eq {heights : List UInt32} (inside : ∀ height ∈ heights, height ≤ chain.tail) :
    chain.logsAt query heights =
      .ok (heights.flatMap fun height => filterLogs ((chain.logs height).getD []) query) := by
  induction heights with
  | nil => rfl
  | cons height rest next =>
    rw [forall_mem_cons] at inside
    unfold logsAt
    rw [if_neg (UInt32.not_lt.mpr inside.1), next inside.2]
    rfl

theorem unIndexedFrom_eq (sized : ∀ height ≤ chain.tail, (chain.bloom height).Sized) {heights : List Nat}
    (inside : ∀ height ∈ heights, UInt32.ofNat height ≤ chain.tail) :
    chain.unIndexedFrom query heights = .ok ((heights.filter fun height =>
      bloomFilter (chain.bloom (.ofNat height)) query = some true).map UInt32.ofNat) := by
  induction heights with
  | nil => rfl
  | cons height rest next =>
    rw [forall_mem_cons] at inside
    obtain ⟨visited, looked⟩ := bloomFilter_isSome (sized _ inside.1) query
    unfold unIndexedFrom
    rw [if_neg (UInt32.not_lt.mpr inside.1), next inside.2, looked, filter_cons, looked]
    cases visited <;> rfl

end LogChain

/-- The heights that the index gives for a range of sections are those it has in the
range of heights. -/
theorem SectionDB.indexed_range (db : SectionDB) (query : LogQuery) {start last fromHeight toHeight : UInt32}
    (ordered : start ≤ last) (low : start.toNat = fromHeight.toNat / sectionBloomBitLength)
    (high : last.toNat * sectionBloomBitLength ≤ toHeight.toNat) :
    ((range ((last - start).toNat + 1)).flatMap fun i =>
        if i = 0 ∨ i = (last - start).toNat then
          (db.indexed (start + .ofNat i) query).filter fun height => fromHeight ≤ height ∧ height ≤ toHeight
        else db.indexed (start + .ofNat i) query) =
      ((range' fromHeight.toNat (min ((last.toNat + 1) * sectionBloomBitLength) (toHeight.toNat + 1) -
        fromHeight.toNat)).filter (db.masked query)).map UInt32.ofNat := by
  have bound := toHeight.toNat_lt
  have order := UInt32.le_iff_toNat_le.mp ordered
  have below : start.toNat * sectionBloomBitLength ≤ fromHeight.toNat := by
    rw [low]
    exact div_mul_le_self _ _
  have above : fromHeight.toNat < (start.toNat + 1) * sectionBloomBitLength := by
    rw [low, add_mul, one_mul]
    exact lt_div_mul_add (by decide)
  have ends := Interval.flatMap_ends (db.masked query) order below above high
  rw [← ends, map_flatMap, UInt32.toNat_sub_of_le _ _ ordered]
  refine flatMap_congr fun i member => ?_
  have piece : start + UInt32.ofNat i = .ofNat (start.toNat + i) := by rw [UInt32.ofNat_add, UInt32.ofNat_toNat]
  rw [piece, indexed_eq]
  split
  next =>
    rw [filter_map]
    congr 1
    refine filter_congr fun height listed => ?_
    have within := (mem_range'_1.mp (mem_filter.mp listed).1).2
    have small : height < UInt32.size := by unfold sectionBloomBitLength at *; change height < 2 ^ 32; omega
    simp only [comp_apply, UInt32.le_iff_toNat_le, UInt32.toNat_ofNat_of_lt' small, Bool.decide_and]
  next => rfl

namespace SectionManager

variable {sm : SectionManager} {chain : LogChain} {fromHeight toHeight : UInt32} {query : LogQuery}

/-- Whether a search looks at the block of a height in its range. -/
def visits (sm : SectionManager) (chain : LogChain) (fromHeight toHeight : UInt32) (query : LogQuery) (height : Nat) : Bool :=
  let boundary := sm.sectionNo.toNat * sectionBloomBitLength
  decide (fromHeight.toNat / sectionBloomBitLength ≤ sm.sectionNo.toNat) &&
    if height < boundary then sm.db.masked query height
    else decide (boundary < toHeight.toNat) && decide (bloomFilter (chain.bloom (.ofNat height)) query = some true)

theorem toNat_section (height : UInt32) :
    (height / .ofNat sectionBloomBitLength).toNat = height.toNat / sectionBloomBitLength := by
  rfl

theorem toNat_max (a b : UInt32) : (max a b).toNat = max a.toNat b.toNat := by
  change (if a ≤ b then b else a).toNat = _
  split
  next le => exact (max_eq_right (UInt32.le_iff_toNat_le.mp le)).symm
  next gt => exact (max_eq_left (UInt32.le_iff_toNat_le.mp (UInt32.le_of_lt (UInt32.not_le.mp gt)))).symm

theorem indexedPart_eq (query : LogQuery) (ordered : fromHeight ≤ toHeight)
    (near : fromHeight.toNat / sectionBloomBitLength ≤ sm.sectionNo.toNat) :
    (if fromHeight.toNat / sectionBloomBitLength < sm.sectionNo.toNat then
        let start := fromHeight / .ofNat sectionBloomBitLength
        let last := toHeight / .ofNat sectionBloomBitLength
        let last := if sm.sectionNo ≤ last then sm.sectionNo - 1 else last
        (range ((last - start).toNat + 1)).flatMap fun i =>
          if i = 0 ∨ i = (last - start).toNat then
            (sm.db.indexed (start + .ofNat i) query).filter fun height => fromHeight ≤ height ∧ height ≤ toHeight
          else sm.db.indexed (start + .ofNat i) query
      else []) =
      ((range' fromHeight.toNat (min (sm.sectionNo.toNat * sectionBloomBitLength) (toHeight.toNat + 1) -
        fromHeight.toNat)).filter (sm.db.masked query)).map UInt32.ofNat := by
  have order := UInt32.le_iff_toNat_le.mp ordered
  split
  next before =>
    have start := toNat_section fromHeight
    have last : (if sm.sectionNo ≤ toHeight / .ofNat sectionBloomBitLength then sm.sectionNo - 1
        else toHeight / .ofNat sectionBloomBitLength).toNat =
        min (sm.sectionNo.toNat - 1) (toHeight.toNat / sectionBloomBitLength) := by
      have final := toNat_section toHeight
      split
      next all =>
        rw [UInt32.toNat_sub_of_le _ _ (UInt32.le_iff_toNat_le.mpr (le_trans (succ_le_succ (zero_le _)) before))]
        exact (min_eq_left (le_trans (sub_le _ _) all)).symm
      next some =>
        rw [UInt32.not_le, UInt32.lt_iff_toNat_lt, final] at some
        omega
    have whole := Nat.div_le_div_right (c := sectionBloomBitLength) order
    have reach : min ((min (sm.sectionNo.toNat - 1) (toHeight.toNat / sectionBloomBitLength) + 1) * sectionBloomBitLength)
        (toHeight.toNat + 1) = min (sm.sectionNo.toNat * sectionBloomBitLength) (toHeight.toNat + 1) := by
      unfold sectionBloomBitLength at *
      omega
    rw [sm.db.indexed_range query (UInt32.le_iff_toNat_le.mpr ?_) start ?_, last, reach]
    · rw [start, last]
      omega
    · rw [last]
      unfold sectionBloomBitLength at *
      omega
  next =>
    rw [show min (sm.sectionNo.toNat * sectionBloomBitLength) (toHeight.toNat + 1) - fromHeight.toNat = 0 by
      unfold sectionBloomBitLength at *; omega]
    rfl

theorem getLogs_eq (sized : ∀ height ≤ chain.tail, (chain.bloom height).Sized)
    (fits : sm.sectionNo.toNat * sectionBloomBitLength < 2 ^ 32) (ordered : fromHeight ≤ toHeight)
    (inside : toHeight ≤ chain.tail) (ends : toHeight ≠ maxUint32) :
    sm.getLogs chain fromHeight toHeight query = chain.logsAt query
      (((range' fromHeight.toNat (toHeight.toNat + 1 - fromHeight.toNat)).filter
        (sm.visits chain fromHeight toHeight query)).map UInt32.ofNat) := by
  have boundary : (sm.sectionNo * .ofNat sectionBloomBitLength).toNat = sm.sectionNo.toNat * sectionBloomBitLength := by
    exact Nat.mod_eq_of_lt fits
  have order := UInt32.le_iff_toNat_le.mp ordered
  unfold getLogs
  rw [show min toHeight chain.tail = toHeight from if_pos inside]
  simp only [UInt32.lt_iff_toNat_lt, toNat_section, boundary]
  rw [if_neg (Nat.not_lt.mpr (Nat.div_le_div_right order))]
  split
  next far =>
    rw [filter_eq_nil_iff.mpr fun height _ => ?_]
    · rfl
    · simp only [visits, decide_eq_false (not_le.mpr far), Bool.false_and, Bool.false_eq_true, not_false_eq_true]
  next near =>
    rw [not_lt] at near
    have indexed := indexedPart_eq query ordered near
    rw [indexed]
    have inIndex : ∀ height ∈ range' fromHeight.toNat
        (min (sm.sectionNo.toNat * sectionBloomBitLength) (toHeight.toNat + 1) - fromHeight.toNat),
        sm.db.masked query height = sm.visits chain fromHeight toHeight query height := by
      intro height member
      rw [mem_range'_1] at member
      simp only [visits, decide_eq_true near, Bool.true_and]
      rw [if_pos (by omega)]
    rw [filter_congr inIndex, ← Interval.range'_split fromHeight.toNat (sm.sectionNo.toNat * sectionBloomBitLength) (toHeight.toNat + 1),
      filter_append, map_append]
    split
    next more =>
      have begins : (max (sm.sectionNo * .ofNat sectionBloomBitLength) fromHeight).toNat =
          max (sm.sectionNo.toNat * sectionBloomBitLength) fromHeight.toNat := by
        rw [← boundary]
        exact toNat_max _ _
      have outside : ∀ height ∈ range' (max (sm.sectionNo.toNat * sectionBloomBitLength) fromHeight.toNat)
          (toHeight.toNat + 1 - max (sm.sectionNo.toNat * sectionBloomBitLength) fromHeight.toNat),
          decide (bloomFilter (chain.bloom (.ofNat height)) query = some true) =
            sm.visits chain fromHeight toHeight query height := by
        intro height member
        rw [mem_range'_1] at member
        simp only [visits, decide_eq_true near, decide_eq_true more, Bool.true_and]
        rw [if_neg (by omega)]
      unfold LogChain.unIndexed
      rw [if_neg ends, begins, LogChain.unIndexedFrom_eq sized, filter_congr outside]
      · rfl
      · intro height member
        rw [mem_range'_1] at member
        refine UInt32.le_trans ?_ inside
        rw [UInt32.le_iff_toNat_le, UInt32.toNat_ofNat']
        exact le_trans (mod_le _ _) (by omega)
    next all =>
      -- A last block at the boundary itself is not looked at.
      have unseen : ∀ height ∈ range' (max (sm.sectionNo.toNat * sectionBloomBitLength) fromHeight.toNat)
          (toHeight.toNat + 1 - max (sm.sectionNo.toNat * sectionBloomBitLength) fromHeight.toNat),
          ¬sm.visits chain fromHeight toHeight query height = true := by
        intro height member
        rw [mem_range'_1] at member
        simp only [visits, decide_eq_false all, Bool.false_and]
        rw [if_neg (by omega), Bool.and_false]
        exact Bool.false_ne_true
      rw [filter_eq_nil_iff.mpr unseen, map_nil, append_nil]

/-- A block in the range of a search that the search does not look at: beyond the section
after the indexed ones if the range begins there, the last block if it is the first one
without an index, and an indexed one if no address or no first topic is named. -/
def Misses (sm : SectionManager) (fromHeight toHeight : UInt32) (query : LogQuery) (height : Nat) : Prop :=
  sm.sectionNo.toNat < fromHeight.toNat / sectionBloomBitLength ∨
    (height = toHeight.toNat ∧ height = sm.sectionNo.toNat * sectionBloomBitLength) ∨
    (height < sm.sectionNo.toNat * sectionBloomBitLength ∧ query.Blind)

theorem visits_iff (stored : sm.db.Stored chain.bloom sm.sectionNo.toNat) {height : Nat} (last : height ≤ toHeight.toNat)
    (shaped : emptyBloom.Below (chain.bloom (.ofNat height))) :
    sm.visits chain fromHeight toHeight query height = true ↔
      ¬sm.Misses fromHeight toHeight query height ∧ bloomFilter (chain.bloom (.ofNat height)) query = some true := by
  unfold visits Misses
  simp only [Bool.and_eq_true, decide_eq_true_eq, not_or, not_and]
  split
  next low =>
    have index := SectionDB.heightMask_iff stored (Nat.div_lt_of_lt_mul (Nat.mul_comm _ _ ▸ low))
      (mod_lt height (show 0 < sectionBloomBitLength by decide)) (by rwa [SectionDB.blockAt, div_add_mod']) query
    rw [SectionDB.blockAt, div_add_mod'] at index
    unfold SectionDB.masked
    rw [index]
    constructor
    · rintro ⟨near, sighted, visited⟩
      exact ⟨⟨Nat.not_lt.mpr near, fun _ here => Nat.ne_of_lt low here, fun _ => sighted⟩, visited⟩
    · rintro ⟨⟨near, -, sighted⟩, visited⟩
      exact ⟨not_lt.mp near, sighted low, visited⟩
  next high =>
    rw [not_lt] at high
    simp only [Bool.and_eq_true, decide_eq_true_eq]
    constructor
    · rintro ⟨near, more, visited⟩
      exact ⟨⟨not_lt.mpr near, fun _ _ => by omega, fun low => absurd high (not_le.mpr low)⟩, visited⟩
    · rintro ⟨⟨near, notLast, -⟩, visited⟩
      exact ⟨not_lt.mp near, by omega, visited⟩

/-- A search returns the logs of its range that it keeps, in the order of the chain, if
and only if no block that it misses has one. -/
theorem logs_found_iff (stored : sm.db.Stored chain.bloom sm.sectionNo.toNat)
    (shaped : ∀ height ≤ chain.tail, emptyBloom.Below (chain.bloom height))
    (holds : ∀ height ≤ chain.tail, ∀ log ∈ (chain.logs height).getD [], (chain.bloom height).HoldsLog log)
    (fits : sm.sectionNo.toNat * sectionBloomBitLength < 2 ^ 32) (ordered : fromHeight ≤ toHeight)
    (inside : toHeight ≤ chain.tail) (ends : toHeight ≠ maxUint32) :
    sm.getLogs chain fromHeight toHeight query =
        .ok ((range' fromHeight.toNat (toHeight.toNat + 1 - fromHeight.toNat)).flatMap fun height =>
          filterLogs ((chain.logs (.ofNat height)).getD []) query) ↔
      ∀ height, fromHeight.toNat ≤ height → height ≤ toHeight.toNat → sm.Misses fromHeight toHeight query height →
        filterLogs ((chain.logs (.ofNat height)).getD []) query = [] := by
  have known : ∀ height, height ≤ toHeight.toNat → UInt32.ofNat height ≤ chain.tail := by
    intro height last
    refine UInt32.le_trans ?_ inside
    exact le_trans (mod_le _ _) last
  rw [getLogs_eq (fun height below => (shaped height below).sized emptyBloom_sized) fits ordered inside ends,
    LogChain.logsAt_eq ?_, Except.ok.injEq, flatMap_map, Interval.flatMap_filter_eq_iff]
  · simp only [mem_range'_1]
    constructor
    · intro found height first last missed
      refine found height (by omega) (Bool.eq_false_iff.mpr fun seen => ?_)
      exact ((visits_iff stored last (shaped _ (known height last))).mp seen).1 missed
    · intro found height member unseen
      have last : height ≤ toHeight.toNat := by omega
      by_contra some
      obtain ⟨log, kept⟩ := exists_mem_of_ne_nil _ some
      obtain ⟨listed, kept⟩ := mem_filter.mp kept
      have shape := shaped _ (known height last)
      have visited := bloomFilter_ok (shape.sized emptyBloom_sized) (holds _ (known height last) log listed) kept
      refine some (found height member.1 last ?_)
      by_contra seen
      exact Bool.eq_false_iff.mp unseen ((visits_iff stored last shape).mpr ⟨seen, visited⟩)
  · intro height member
    obtain ⟨n, listed, rfl⟩ := mem_map.mp member
    have bounds := mem_range'_1.mp (mem_filter.mp listed).1
    exact known n (by omega)

def sameLogs : LogChain where
  tail := 8193
  bloom _ := (createLogBloom [sampleLog []]).getD emptyBloom
  logs _ := some [sampleLog []]

def sampleQuery : LogQuery := ⟨[(sampleLog []).address.bytes], []⟩

theorem sameLogs_bloom (height : UInt32) : emptyBloom.Below (sameLogs.bloom height) ∧
      ∀ log ∈ (sameLogs.logs height).getD [], (sameLogs.bloom height).HoldsLog log := by
  obtain ⟨bloom, made, below, -, holds⟩ := createLogBloom_ok [sampleLog []]
  unfold sameLogs
  rw [made]
  exact ⟨below, holds⟩

/-- The first block is in the committed section, the others are not indexed yet. -/
theorem indexed_and_later_found :
    ∃ node, SectionNode.run sameLogs.bloom SectionNode.skipEvents = some node ∧ node.sectionMgr.sectionNo.toNat = 1 ∧
      node.sectionMgr.getLogs sameLogs 8191 8193 sampleQuery = .ok [sampleLog [], sampleLog [], sampleLog []] := by
  have long (height : UInt32) : bloomByteLength ≤ (sameLogs.bloom height).filter.length := by
    rw [← (sameLogs_bloom height).1.length, emptyBloom_filter, length_replicate]
  obtain ⟨sectionMgr, ran, indexed, -⟩ := SectionNode.skipEvents_ran long
    sameLogs.bloom (fun _ _ => rfl) (fun _ _ _ _ => rfl)
  have one : sectionMgr.sectionNo.toNat = 1 := indexed.sections
  have stored : sectionMgr.db.Stored sameLogs.bloom sectionMgr.sectionNo.toNat := one ▸ indexed.stored
  refine ⟨_, ran, one, (logs_found_iff stored (fun height _ => (sameLogs_bloom height).1)
    (fun height _ => (sameLogs_bloom height).2) (by rw [one]; decide) (by decide) (by decide) (by decide)).mpr ?_⟩
  rintro height - - (far | ⟨final, boundary⟩ | ⟨-, blind⟩)
  · rw [one] at far
    exact absurd far (by decide)
  · rw [one] at boundary
    exact absurd (final.symm.trans boundary) (by decide)
  · rcases blind with ⟨⟨⟩⟩ | ⟨⟨⟩⟩

/-- The only block of a range has a log that the search keeps. Its filter has the log, no
section is indexed, and the search finds nothing. -/
theorem boundary_block_not_found : emptyBloom.Below (sameLogs.bloom 0) ∧ (sameLogs.bloom 0).HoldsLog (sampleLog []) ∧
      sameLogs.logs 0 = some [sampleLog []] ∧ keepsLog sampleQuery (sampleLog []) = true ∧
      SectionNode.fresh.sectionMgr.getLogs sameLogs 0 0 sampleQuery = .ok [] ∧
      SectionNode.fresh.sectionMgr.getLogs sameLogs 8192 8192 sampleQuery = .ok [] := by
  refine ⟨(sameLogs_bloom 0).1, (sameLogs_bloom 0).2 _ (mem_singleton_self _), rfl, by decide, rfl, rfl⟩

end SectionManager
end Boxd
