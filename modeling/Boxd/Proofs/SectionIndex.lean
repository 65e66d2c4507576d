import Boxd.SectionManager

/-! The rotated index. Header filters end up in the column of their height; a skipped height
gets the filter of another block, and after a restart a whole section is left out. -/

namespace Boxd
open Lib List Option Nat AList UInt32

/-- The same bits, as far as the index goes. -/
def Filter.SameBits (left right : Filter) : Prop :=
  ∀ i < bloomBits, left.rotatedBit i = right.rotatedBit i

/-- The blocks that were skipped have the filter that was taken for them, and the node was
started again only before its first eternal block. -/
def SectionEntry.Harmless (chain : UInt32 → Filter) : SectionEntry → Prop
  | .skipped height index => ∀ skipped, height < skipped → skipped ≤ index → (chain (index - 1)).SameBits (chain skipped)
  | .restarted eternal => eternal = 0
  | .committed _ => True

def SectionEntry.committedSection : SectionEntry → Option UInt32
  | .committed sectionNo => some sectionNo
  | _ => none

/-- The sets of the first sections are stored: each has the blocks whose filter has the
bit. -/
def SectionDB.Stored (chain : UInt32 → Filter) (db : SectionDB) (count : Nat) : Prop :=
  ∀ s < count, ∀ i < bloomBits, ∃ bits, db.bitSets.lookup (.ofNat s, i) = some bits ∧
    ∀ j < sectionBloomBitLength, bits.has j = (chain (.ofNat (s * sectionBloomBitLength + j))).rotatedBit i

namespace SectionBits

theorem has_empty (offset : Nat) : empty.has offset = false := BitSet.has_replicate_zero _ _

theorem has_add {offset : Nat} (small : offset < sectionBloomBitLength) (bits : SectionBits) (other : Nat) :
    (bits.add offset).has other = (bits.has other || decide (other = offset)) := by
  refine BitSet.has_add ?_ other
  rw [bits.length_eq]
  unfold sectionBloomBitLength at small
  unfold sectionBloomByteLength
  omega

end SectionBits

namespace SectionManager

variable {chain used : UInt32 → Filter} {sm after : SectionManager} {next : Nat}

/-- The filters of the first blocks are in the index, those of whole sections in the
store. -/
structure Indexed (used : UInt32 → Filter) (sm : SectionManager) (next : Nat) : Prop where
  bounded : next ≤ 2 ^ 32
  height : sm.height.toNat = next - 1
  sections : sm.sectionNo.toNat = next / sectionBloomBitLength
  memory : ∀ i j, j < sectionBloomBitLength → (sm.blooms i).has j =
    (decide (j < next % sectionBloomBitLength) &&
      (used (.ofNat (next / sectionBloomBitLength * sectionBloomBitLength + j))).rotatedBit i)
  stored : sm.db.Stored used (next / sectionBloomBitLength)
  sectionKey : sm.db.sectionKey =
    if next / sectionBloomBitLength = 0 then none else some (.ofNat (next / sectionBloomBitLength - 1))
  commits : sm.log.filterMap SectionEntry.committedSection = (range (next / sectionBloomBitLength)).map ofNat

variable {bits : Nat}

theorem lookup_inserts (sectionNo : UInt32) (blooms : Fin bits → SectionBits) {i : Fin bits}
    {indexes : List (Fin bits)} {bitSets : Table (UInt32 × Nat) SectionBits}
    (held : i ∈ indexes ∨ bitSets.lookup (sectionNo, i.val) = some (blooms i)) :
    (indexes.foldl (fun bitSets i => bitSets.insert (sectionNo, i.val) (blooms i)) bitSets).lookup (sectionNo, i.val) =
      some (blooms i) := by
  induction indexes generalizing bitSets with
  | nil => exact held.resolve_left nofun
  | cons first rest next =>
    refine next (or_iff_not_imp_left.mpr fun later => ?_)
    by_cases same : i = first
    · rw [same, lookup_insert]
    · have differ : (sectionNo, i.val) ≠ (sectionNo, first.val) := fun equal => same (Fin.ext (Prod.mk.inj equal).2)
      rw [lookup_insert_ne differ]
      refine held.resolve_left fun member => ?_
      exact (mem_cons.mp member).elim same later

theorem lookup_putBitSets (sectionNo : UInt32) (blooms : Fin bits → SectionBits)
    (bitSets : Table (UInt32 × Nat) SectionBits) (i : Fin bits) :
    (putBitSets sectionNo blooms bitSets).lookup (sectionNo, i.val) = some (blooms i) :=
  lookup_inserts sectionNo blooms (.inl (mem_finRange i))

theorem lookup_putBitSets_other {sectionNo : UInt32} (blooms : Fin bits → SectionBits)
    (bitSets : Table (UInt32 × Nat) SectionBits) {key : UInt32 × Nat} (other : key.1 ≠ sectionNo) :
    (putBitSets sectionNo blooms bitSets).lookup key = bitSets.lookup key := by
  unfold putBitSets
  generalize finRange bits = indexes
  induction indexes generalizing bitSets with
  | nil => rfl
  | cons first rest next =>
    rw [foldl_cons, next, lookup_insert_ne]
    exact fun equal => other (congrArg Prod.fst equal)

theorem commit_bitSets (sm : SectionManager) :
    sm.commit.db.bitSets = putBitSets sm.sectionNo sm.blooms sm.db.bitSets := by
  simp only [commit]

theorem Indexed.empty (used : UInt32 → Filter) {db : SectionDB} {log : List SectionEntry} (unset : db.sectionKey = none)
    (silent : log.filterMap SectionEntry.committedSection = []) : Indexed used (.new db log) 0 := by
  unfold SectionManager.new
  rw [unset]
  refine ⟨by omega, rfl, rfl, fun i j small => ?_, nofun, unset, silent⟩
  exact SectionBits.has_empty j

variable {bloom : Filter}

section
variable (indexed : Indexed used sm next)
include indexed

theorem insertBloom_memory
    (same : bloom.SameBits (used (.ofNat next))) (i : Fin bloomBits) {j : Nat} (small : j < sectionBloomBitLength) :
    (if bloom.rotatedBit i then (sm.blooms i).add (next % sectionBloomBitLength) else sm.blooms i).has j =
      (decide (j ≤ next % sectionBloomBitLength) &&
        (used (.ofNat (next / sectionBloomBitLength * sectionBloomBitLength + j))).rotatedBit i) := by
  have offset : next % sectionBloomBitLength < sectionBloomBitLength := mod_lt _ (by decide)
  by_cases here : j = next % sectionBloomBitLength
  · have at_ : next / sectionBloomBitLength * sectionBloomBitLength + j = next := by
      rw [here]
      exact div_add_mod' _ _
    rw [at_, ← same i i.isLt]
    split
    · next set => simp [SectionBits.has_add offset, here, set]
    · next clear =>
      rw [indexed.memory i j small]
      simp [here, clear]
  · have before : decide (j < next % sectionBloomBitLength) = decide (j ≤ next % sectionBloomBitLength) := by
      rw [decide_eq_decide]
      omega
    split
    · rw [SectionBits.has_add offset, indexed.memory i j small]
      simp [here, before]
    · rw [indexed.memory i j small, before]

theorem Indexed.within (small : next < 2 ^ 32)
    (same : bloom.SameBits (used (.ofNat next))) (inside : next % sectionBloomBitLength ≠ sectionBloomBitLength - 1) :
    Indexed used { sm with
      blooms := fun i => if bloom.rotatedBit i then (sm.blooms i).add (next % sectionBloomBitLength) else sm.blooms i
      height := .ofNat next } (next + 1) := by
  have quotient : (next + 1) / sectionBloomBitLength = next / sectionBloomBitLength := by
    unfold sectionBloomBitLength at *
    omega
  have remainder : (next + 1) % sectionBloomBitLength = next % sectionBloomBitLength + 1 := by
    unfold sectionBloomBitLength at *
    omega
  constructor
  · exact small
  · exact toNat_ofNat_of_lt' small
  · rw [quotient]
    exact indexed.sections
  · intro i j within
    rw [quotient, remainder]
    exact (insertBloom_memory indexed same i within).trans (by simp only [Nat.lt_succ_iff])
  · rw [quotient]
    exact indexed.stored
  · rw [quotient]
    exact indexed.sectionKey
  · rw [quotient]
    exact indexed.commits

theorem Indexed.last (small : next < 2 ^ 32)
    (same : bloom.SameBits (used (.ofNat next))) (last : next % sectionBloomBitLength = sectionBloomBitLength - 1) :
    Indexed used { commit { sm with
      blooms := fun i => if bloom.rotatedBit i then (sm.blooms i).add (next % sectionBloomBitLength) else sm.blooms i } with
      height := .ofNat next } (next + 1) := by
  have quotient : (next + 1) / sectionBloomBitLength = next / sectionBloomBitLength + 1 := by
    unfold sectionBloomBitLength at *
    omega
  have remainder : (next + 1) % sectionBloomBitLength = 0 := by
    unfold sectionBloomBitLength at *
    omega
  have few : next / sectionBloomBitLength < 2 ^ 19 := by
    unfold sectionBloomBitLength
    omega
  have current : sm.sectionNo = .ofNat (next / sectionBloomBitLength) := by
    rw [← indexed.sections, UInt32.ofNat_toNat]
  constructor
  · exact small
  · exact toNat_ofNat_of_lt' small
  · rw [quotient]
    change (sm.sectionNo + 1).toNat = _
    rw [UInt32.toNat_add, indexed.sections]
    exact mod_eq_of_lt (by simp; omega)
  · intro i j within
    rw [remainder]
    exact SectionBits.has_empty j
  · rw [quotient]
    intro s before i inside
    rcases Nat.lt_succ_iff_lt_or_eq.mp before with old | rfl
    · have other : ofNat s ≠ sm.sectionNo := by
        intro equal
        have numbers := congrArg toNat equal
        rw [indexed.sections, toNat_ofNat_of_lt' (lt_trans old (lt_trans few (by decide)))] at numbers
        omega
      obtain ⟨bits, found, right⟩ := indexed.stored s old i inside
      refine ⟨bits, ?_, right⟩
      rw [commit_bitSets, lookup_putBitSets_other _ _ other]
      exact found
    · rw [← current, commit_bitSets]
      refine ⟨_, lookup_putBitSets _ _ _ ⟨i, inside⟩, fun j within => ?_⟩
      · refine (insertBloom_memory indexed same ⟨i, inside⟩ within).trans ?_
        have all : j ≤ next % sectionBloomBitLength := by
          rw [last]
          exact le_sub_one_of_lt within
        simp [all]
  · rw [quotient, if_neg (Nat.succ_ne_zero _), Nat.add_sub_cancel, ← current]
    rfl
  · change (sm.log ++ [SectionEntry.committed sm.sectionNo]).filterMap _ = _
    rw [quotient, filterMap_append, indexed.commits, range_succ, map_append, current]
    rfl

theorem insertBloom_indexed (small : next < 2 ^ 32)
    (same : bloom.SameBits (used (.ofNat next))) (inserted : sm.insertBloom (.ofNat next) bloom = some after) :
    Indexed used after (next + 1) := by
  unfold insertBloom at inserted
  split at inserted
  · cases inserted
  cases inserted
  rw [toNat_ofNat_of_lt' small]
  split
  · next last => exact indexed.last small same last
  · next inside => exact indexed.within small same inside

/-- All blocks from the next one on get the filter of one block. -/
theorem catchUp_indexed {count : Nat} (small : next + count ≤ 2 ^ 32)
    (same : ∀ skipped, next ≤ skipped → skipped < next + count → bloom.SameBits (used (.ofNat skipped)))
    (inserted : (range' next count).foldlM (fun (sm : SectionManager) i => sm.insertBloom (.ofNat i) bloom) sm = some after) :
    Indexed used after (next + count) := by
  induction count generalizing sm next with
  | zero =>
    cases inserted
    exact indexed
  | succ count ih =>
    rw [range'_succ, foldlM_cons, bind_eq_bind, bind_eq_some_iff] at inserted
    obtain ⟨between, first, rest⟩ := inserted
    have one := insertBloom_indexed indexed (by omega) (same next (le_refl _) (by omega)) first
    rw [← add_assoc, add_right_comm]
    exact ih one (by omega) (fun skipped above below => same skipped (by omega) (by omega)) rest

theorem Indexed.noted {entry : SectionEntry} (other : entry.committedSection = none) :
    Indexed used { sm with log := sm.log ++ [entry] } next := by
  obtain ⟨bounded, height, sections, memory, stored, sectionKey, commits⟩ := indexed
  refine ⟨bounded, height, sections, memory, stored, sectionKey, ?_⟩
  rw [filterMap_append, commits, filterMap_cons_none other, filterMap_nil, append_nil]

end

variable {index : UInt32}

/-- A block above the last one is added, whether or not blocks are skipped. -/
theorem addBloom_indexed (indexed : Indexed used sm next) (above : next ≤ index.toNat)
    (begun : 0 < next ∨ index = 0) (here : ¬sm.height + 1 < index → (chain index).SameBits (used index))
    (skips : sm.height + 1 < index → ∀ skipped, sm.height < skipped → skipped ≤ index →
      (chain (index - 1)).SameBits (used skipped))
    (added : sm.addBloom chain index (chain index) = some after) : Indexed used after (index.toNat + 1) := by
  have width : index.toNat < 2 ^ 32 := index.toNat_lt
  have height : sm.height.toNat = next - 1 := indexed.height
  have following : (sm.height + 1).toNat = (next - 1 + 1) % 2 ^ 32 := by
    rw [UInt32.toNat_add, height]
    rfl
  unfold addBloom at added
  split at added
  · next low =>
    have below : index.toNat ≤ sm.height.toNat := le_iff_toNat_le.mp low.1
    have nonzero : sm.height.toNat ≠ 0 := fun zero => low.2 (UInt32.toNat_inj.mp zero)
    omega
  split at added
  · next gap =>
    have some : 0 < next := by
      refine begun.resolve_right fun zero => ?_
      rw [zero] at gap
      exact absurd gap (UInt32.not_lt_zero)
    split at added
    · cases added
    rw [height, show next - 1 + 1 = next by omega] at added
    have ended := catchUp_indexed (indexed.noted rfl) (by omega) ?_ added
    · rwa [show next + (index.toNat - (next - 1)) = index.toNat + 1 by omega] at ended
    · intro skipped first last
      have small : skipped < 2 ^ 32 := by omega
      refine skips gap (.ofNat skipped) ?_ ?_
      · rw [lt_iff_toNat_lt, toNat_ofNat_of_lt' small, height]
        omega
      · rw [le_iff_toNat_le, toNat_ofNat_of_lt' small]
        omega
  · next near =>
    have here := here near
    have same : index = .ofNat next := by
      rw [lt_iff_toNat_lt, following] at near
      apply UInt32.toNat_inj.mp
      rw [UInt32.toNat_ofNat_of_lt' (show next < 2 ^ 32 by omega)]
      rcases begun with some | rfl
      · rw [mod_eq_of_lt (by omega)] at near
        omega
      · exact (le_zero.mp above).symm
    rw [same] at here added ⊢
    rw [toNat_ofNat_of_lt' (show next < 2 ^ 32 by omega)]
    exact insertBloom_indexed indexed (by omega) here added

/-- What adding blocks writes into the log. -/
def Logs (start : SectionManager) (entries : SectionEntry → Prop) (final : SectionManager) : Prop :=
  ∃ more, final.log = start.log ++ more ∧ ∀ entry ∈ more, entries entry

variable {entries : SectionEntry → Prop}

theorem Logs.trans {start between final : SectionManager} (first : Logs start entries between)
    (second : Logs between entries final) : Logs start entries final := by
  obtain ⟨more, before, all⟩ := first
  obtain ⟨others, after, rest⟩ := second
  refine ⟨more ++ others, ?_, forall_mem_append.mpr ⟨all, rest⟩⟩
  rw [after, before, append_assoc]

section
variable (committed : ∀ sectionNo, entries (.committed sectionNo))
include committed

theorem insertBloom_logs (inserted : sm.insertBloom index bloom = some after) : Logs sm entries after := by
  unfold insertBloom at inserted
  split at inserted
  · cases inserted
  cases inserted
  split
  · exact ⟨[_], rfl, forall_mem_singleton.mpr (committed _)⟩
  · exact ⟨[], (append_nil _).symm, nofun⟩

theorem catchUp_logs {heights : List Nat}
    (inserted : heights.foldlM (fun (sm : SectionManager) i => sm.insertBloom (.ofNat i) bloom) sm = some after) :
    Logs sm entries after := by
  induction heights generalizing sm with
  | nil =>
    cases inserted
    exact ⟨[], (append_nil _).symm, nofun⟩
  | cons first rest next =>
    rw [foldlM_cons, bind_eq_bind, bind_eq_some_iff] at inserted
    obtain ⟨between, one, others⟩ := inserted
    exact (insertBloom_logs committed one).trans (next others)

theorem addBloom_logs (skipped : entries (.skipped sm.height index))
    (added : sm.addBloom chain index bloom = some after) : Logs sm entries after := by
  unfold addBloom at added
  split at added
  · cases added
    exact ⟨[], (append_nil _).symm, nofun⟩
  split at added
  · split at added
    · cases added
    have noted : Logs sm entries { sm with log := sm.log ++ [.skipped sm.height index] } :=
      ⟨[_], rfl, forall_mem_singleton.mpr skipped⟩
    exact noted.trans (catchUp_logs committed added)
  · exact insertBloom_logs committed added

end

theorem addBloom_skipped (above : ¬(index ≤ sm.height ∧ sm.height ≠ 0))
    (gap : sm.height + 1 < index) (added : sm.addBloom chain index bloom = some after) :
    .skipped sm.height index ∈ after.log := by
  unfold addBloom at added
  rw [if_neg above, if_pos gap] at added
  split at added
  · cases added
  have logged : Logs _ (fun _ => True) after := catchUp_logs (fun _ => trivial) added
  obtain ⟨more, log, -⟩ := logged
  rw [log]
  exact mem_append_left _ (mem_append_right _ mem_cons_self)

end SectionManager

namespace SectionNode

open SectionManager

variable {chain : UInt32 → Filter} {node final : SectionNode}

/-- The blocks below the eternal one are in the index, one after the other. -/
def Right (chain : UInt32 → Filter) (node : SectionNode) : Prop :=
  ∃ next, Indexed chain node.sectionMgr next ∧ next ≤ node.eternal.toNat ∧ (0 < next ∨ node.eternal = 0)

theorem right_fresh (chain : UInt32 → Filter) : Right chain fresh := by
  have empty : Indexed chain (.new ⟨none, ∅⟩ []) 0 := Indexed.empty chain rfl rfl
  exact ⟨0, empty, le_refl _, .inr rfl⟩

theorem setEternal_right {height : UInt32} {sectionMgr : SectionManager} (right : Right chain node)
    (later : node.eternal < height) (harmless : ∀ entry ∈ sectionMgr.log, entry.Harmless chain)
    (added : node.sectionMgr.addBloom chain node.eternal (chain node.eternal) = some sectionMgr) :
    Right chain ⟨height, sectionMgr⟩ := by
  obtain ⟨next, indexed, above, begun⟩ := right
  have high : ¬(node.eternal ≤ node.sectionMgr.height ∧ node.sectionMgr.height ≠ 0) := by
    rintro ⟨low, nonzero⟩
    have below : node.eternal.toNat ≤ node.sectionMgr.height.toNat := le_iff_toNat_le.mp low
    have some : node.sectionMgr.height.toNat ≠ 0 := fun zero => nonzero (UInt32.toNat_inj.mp zero)
    rw [indexed.height] at below some
    omega
  refine ⟨node.eternal.toNat + 1, ?_, lt_iff_toNat_lt.mp later, .inl (succ_pos _)⟩
  refine addBloom_indexed indexed above begun (fun _ _ _ => rfl) (fun gap => ?_) added
  exact harmless _ (addBloom_skipped high gap added)

theorem restart_right (right : Right chain node) (first : node.eternal = 0) : Right chain { node with
      sectionMgr := .new node.sectionMgr.db (node.sectionMgr.log ++ [.restarted node.eternal]) } := by
  obtain ⟨next, indexed, above, -⟩ := right
  have none : next = 0 := by
    rw [first] at above
    exact le_zero.mp above
  subst none
  refine ⟨0, Indexed.empty chain indexed.sectionKey ?_, zero_le _, .inr first⟩
  rw [filterMap_append, indexed.commits]
  rfl

theorem new_log (db : SectionDB) (log : List SectionEntry) : (SectionManager.new db log).log = log := by
  unfold SectionManager.new
  split
  · rfl
  · rfl

variable {event : SectionEvent}

theorem step_cases (stepped : node.step chain event = some final) :
    final = node ∨ (∃ height sectionMgr, event = .setEternal height ∧ node.eternal < height ∧
        node.sectionMgr.addBloom chain node.eternal (chain node.eternal) = some sectionMgr ∧ final = ⟨height, sectionMgr⟩) ∨
      event = .restart ∧ final = { node with
        sectionMgr := .new node.sectionMgr.db (node.sectionMgr.log ++ [.restarted node.eternal]) } := by
  cases event with
  | setEternal height =>
    change (if _ then _ else _) = _ at stepped
    split at stepped
    · next later =>
      obtain ⟨sectionMgr, added, same⟩ := map_eq_some_iff.mp stepped
      exact .inr (.inl ⟨height, sectionMgr, rfl, later, added, same.symm⟩)
    · exact .inl (some.inj stepped).symm
  | restart => exact .inr (.inr ⟨rfl, (some.inj stepped).symm⟩)

theorem step_log (stepped : node.step chain event = some final) : node.sectionMgr.log ⊆ final.sectionMgr.log := by
  rcases step_cases stepped with rfl | ⟨height, sectionMgr, -, -, added, rfl⟩ | ⟨-, rfl⟩
  · exact .refl _
  · have logged : Logs node.sectionMgr (fun _ => True) sectionMgr := addBloom_logs (fun _ => trivial) trivial added
    obtain ⟨more, log, -⟩ := logged
    rw [log]
    exact subset_append_left _ _
  · dsimp only
    rw [new_log]
    exact subset_append_left _ _

theorem step_right (right : Right chain node)
    (harmless : ∀ entry ∈ final.sectionMgr.log, entry.Harmless chain) (stepped : node.step chain event = some final) :
    Right chain final := by
  rcases step_cases stepped with rfl | ⟨height, sectionMgr, -, later, added, rfl⟩ | ⟨-, rfl⟩
  · exact right
  · exact setEternal_right right later harmless added
  · refine restart_right right (harmless (.restarted node.eternal) ?_)
    rw [new_log]
    exact mem_append_right _ mem_cons_self

theorem run_log {events : List SectionEvent} (ran : events.foldlM (step chain) node = some final) :
    node.sectionMgr.log ⊆ final.sectionMgr.log := by
  induction events generalizing node with
  | nil =>
    cases ran
    exact .refl _
  | cons event rest next =>
    rw [foldlM_cons, bind_eq_bind, bind_eq_some_iff] at ran
    obtain ⟨between, stepped, ran⟩ := ran
    exact Subset.trans (step_log stepped) (next ran)

theorem run_right {events : List SectionEvent} (right : Right chain node)
    (ran : events.foldlM (step chain) node = some final)
    (harmless : ∀ entry ∈ final.sectionMgr.log, entry.Harmless chain) : Right chain final := by
  induction events generalizing node with
  | nil =>
    cases ran
    exact right
  | cons event rest next =>
    rw [foldlM_cons, bind_eq_bind, bind_eq_some_iff] at ran
    obtain ⟨between, stepped, ran⟩ := ran
    exact next (step_right right (fun entry member => harmless entry (run_log ran member)) stepped) ran

/-- If no restart came after the first eternal block, and all skipped blocks have the filter
that was taken for them, then the sections were committed one after the other, with every
block in its place. -/
theorem sections_indexed {events : List SectionEvent} (ran : run chain events = some node)
    (harmless : ∀ entry ∈ node.sectionMgr.log, entry.Harmless chain) :
    node.sectionMgr.db.Stored chain node.sectionMgr.sectionNo.toNat ∧
      node.sectionMgr.log.filterMap SectionEntry.committedSection =
        (range node.sectionMgr.sectionNo.toNat).map ofNat := by
  obtain ⟨next, indexed, -⟩ := run_right (right_fresh chain) ran harmless
  rw [indexed.sections]
  exact ⟨indexed.stored, indexed.commits⟩

theorem insertBloom_isSome {bloom : Filter} (long : bloomByteLength ≤ bloom.filter.length) (index : UInt32)
    (sm : SectionManager) : ∃ after, sm.insertBloom index bloom = some after := by
  unfold insertBloom
  rw [if_neg (not_lt.mpr long)]
  exact ⟨_, rfl⟩

section
variable (long : ∀ height, bloomByteLength ≤ (chain height).filter.length)
include long

theorem addBloom_isSome {index : UInt32}
    (finite : index ≠ maxUint32) (sm : SectionManager) : ∃ after, sm.addBloom chain index (chain index) = some after := by
  have all : ∀ (heights : List Nat) (sm : SectionManager), ∃ after,
      heights.foldlM (fun (sm : SectionManager) i => sm.insertBloom (.ofNat i) (chain (index - 1))) sm = some after := by
    intro heights
    induction heights with
    | nil => exact fun sm => ⟨sm, rfl⟩
    | cons first rest next =>
      intro sm
      obtain ⟨between, one⟩ := insertBloom_isSome (long (index - 1)) (.ofNat first) sm
      rw [foldlM_cons, one]
      exact next between
  unfold addBloom
  split
  · exact ⟨sm, rfl⟩
  split
  · exact all _ _
  · exact insertBloom_isSome (long index) index sm

/-- The eternal block moves from the genesis block to the last block of the first section
at once. -/
def skipEvents : List SectionEvent := [.setEternal 8191, .setEternal 8192]

/-- The first section is committed with the filter of the block before the last. -/
theorem skipEvents_ran (used : UInt32 → Filter)
    (first : (chain 0).SameBits (used 0)) (others : ∀ height, 0 < height → (chain 8190).SameBits (used height)) :
    ∃ sectionMgr, run chain skipEvents = some ⟨8192, sectionMgr⟩ ∧ Indexed used sectionMgr 8192 ∧
      Logs fresh.sectionMgr (fun entry => (∃ sectionNo, entry = .committed sectionNo) ∨
        ∃ height index, entry = .skipped height index) sectionMgr := by
  have start : Indexed used fresh.sectionMgr 0 := by
    have empty : Indexed used (.new ⟨none, ∅⟩ []) 0 := Indexed.empty used rfl rfl
    exact empty
  obtain ⟨one, added⟩ := addBloom_isSome long (show (0 : UInt32) ≠ maxUint32 by decide) fresh.sectionMgr
  obtain ⟨all, more⟩ := addBloom_isSome long (show (8191 : UInt32) ≠ maxUint32 by decide) one
  have begun : Indexed used one 1 :=
    addBloom_indexed start (le_refl _) (.inr rfl) (fun _ => first) (fun gap => absurd gap (by decide)) added
  have done : Indexed used all 8192 := by
    refine addBloom_indexed begun (by decide) (.inl one_pos) (fun near => absurd ?_ near) (fun _ skipped above _ => ?_) more
    · rw [UInt32.lt_iff_toNat_lt, UInt32.toNat_add, begun.height]
      decide
    · refine others skipped ?_
      exact lt_of_le_of_lt (zero_le _) above
  refine ⟨all, ?_, done, ?_⟩
  · unfold run skipEvents
    simp only [foldlM_cons, foldlM_nil, bind_eq_bind, bind_eq_some_iff]
    refine ⟨⟨8191, one⟩, ?_, ⟨8192, all⟩, ?_, rfl⟩
    · change Option.map _ (fresh.sectionMgr.addBloom chain 0 (chain 0)) = _
      rw [added]
      rfl
    · change Option.map _ (one.addBloom chain 8191 (chain 8191)) = _
      rw [more]
      rfl
  · exact (addBloom_logs (fun _ => .inl ⟨_, rfl⟩) (.inr ⟨_, _, rfl⟩) added).trans
      (addBloom_logs (fun _ => .inl ⟨_, rfl⟩) (.inr ⟨_, _, rfl⟩) more)

end

def evenBloom (byte : UInt8) : Filter := ⟨replicate bloomByteLength byte, bloomHashNum, 0⟩

theorem evenBloom_long (byte : UInt8) : bloomByteLength ≤ (evenBloom byte).filter.length :=
  length_replicate.ge

theorem equal_filters_indexed :
    ∃ node, run (fun _ => evenBloom 255) skipEvents = some node ∧ node.sectionMgr.sectionNo.toNat = 1 ∧
      node.sectionMgr.db.Stored (fun _ => evenBloom 255) node.sectionMgr.sectionNo.toNat := by
  obtain ⟨sectionMgr, ran, indexed, more, log, entries⟩ := skipEvents_ran (fun _ => evenBloom_long 255)
    (fun _ => evenBloom 255) (fun _ _ => rfl) (fun _ _ _ _ => rfl)
  have harmless : ∀ entry ∈ sectionMgr.log, entry.Harmless fun _ => evenBloom 255 := by
    intro entry member
    rw [log] at member
    rcases entries entry member with ⟨_, rfl⟩ | ⟨_, _, rfl⟩
    · trivial
    · exact fun _ _ _ _ _ => rfl
  exact ⟨_, ran, indexed.sections, (sections_indexed ran harmless).1⟩

/-- Only the block before the last has a bit. -/
def loneChain (height : UInt32) : Filter := if height = 8190 then evenBloom 255 else evenBloom 0

/-- The stored set has a block whose filter has no bit at all. -/
theorem skipped_block_indexed_wrongly :
    ∃ node, run loneChain skipEvents = some node ∧ .committed 0 ∈ node.sectionMgr.log ∧
      ∃ bits, node.sectionMgr.db.bitSets.lookup (0, 0) = some bits ∧ bits.has 1 = true ∧
        (loneChain 1).rotatedBit 0 = false := by
  have long : ∀ height, bloomByteLength ≤ (loneChain height).filter.length := by
    intro height
    unfold loneChain
    split
    · exact evenBloom_long 255
    · exact evenBloom_long 0
  have others : ∀ height : UInt32, 0 < height →
      (loneChain 8190).SameBits (if height = 0 then loneChain 0 else loneChain 8190) := by
    intro height above
    have nonzero : height ≠ 0 := by
      rintro rfl
      exact absurd above (by decide)
    rw [if_neg nonzero]
    exact fun _ _ => rfl
  obtain ⟨sectionMgr, ran, indexed, -⟩ := skipEvents_ran long
    (fun height => if height = 0 then loneChain 0 else loneChain 8190) (fun _ _ => rfl) others
  · refine ⟨_, ran, ?_, ?_⟩
    · have commits := indexed.commits
      have member : (0 : UInt32) ∈ sectionMgr.log.filterMap SectionEntry.committedSection := by
        rw [commits]
        exact mem_cons_self
      obtain ⟨entry, listed, section0⟩ := mem_filterMap.mp member
      cases entry with
      | committed sectionNo =>
        cases section0
        exact listed
      | skipped => cases section0
      | restarted => cases section0
    · obtain ⟨bits, found, right⟩ := indexed.stored 0 (by decide) 0 (by decide)
      refine ⟨bits, found, (right 1 (by decide)).trans ?_, ?_⟩
      · decide +kernel
      · decide +kernel

end SectionNode
end Boxd
