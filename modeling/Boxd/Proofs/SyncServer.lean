import Boxd.Proofs.MainChain
import Boxd.SyncServer

/-! Which requests of a syncing peer are answered with the main chain after the fork. -/

namespace Boxd.BlockChain
open Lib List Option UInt32

variable {setup : Setup} {known : Known setup} {eternal : BlockHeader} {headers : List BlockHeader}
  {chain : BlockChain setup} {height : UInt32} {hash : HashType} {fuel : Nat}

/-- The height of a block of the main chain: the index lists it there. -/
def mainHeight (chain : BlockChain setup) (hash : HashType) : Option UInt32 :=
  (chain.loadBlockByHash hash).bind fun block =>
    if chain.getBlockHash block.header.height = some hash then some block.header.height else none

/-- The hashes of the main chain after a height, one after the other, as far as one answer
goes; nothing if there is no height. -/
def Follow (chain : BlockChain setup) (result : List HashType) : Option UInt32 → Prop
  | none => result = []
  | some height =>
    Forall₂ (fun n hash => chain.getBlockHash (.ofNat n) = some hash)
      (range' (height.toNat + 1) (min (chain.tail.header.height.toNat - height.toNat) maxBlocksPerSync)) result

/-- Exactly one block less than an answer holds is a case that is missed, and so is a tail at the
last height when the answer goes up to the tail. -/
def InReach (chain : BlockChain setup) (height : UInt32) : Prop :=
  let ahead := chain.tail.header.height.toNat - height.toNat
  ahead + 1 < maxBlocksPerSync ∧ chain.tail.header.height.toNat + 1 < 2 ^ 32 ∨
    maxBlocksPerSync ≤ ahead ∧ ahead + 1 < 2 ^ 32

theorem toNat_add_one (room : height.toNat + 1 < 2 ^ 32) : (height + 1).toNat = height.toNat + 1 := by
  rw [UInt32.toNat_add, UInt32.toNat_one, Nat.mod_eq_of_lt room]

theorem fetchToTail_endless (last : chain.tail.header.height.toNat + 1 = 2 ^ 32) {result : List HashType} :
    chain.fetchToTail fuel height ≠ some (.ok result) := by
  induction fuel generalizing height result with
  | zero => exact nofun
  | succ fuel next =>
    have below : height ≤ chain.tail.header.height := by
      rw [le_iff_toNat_le]
      have := height.toNat_lt
      omega
    rw [fetchToTail, if_pos below]
    split
    · exact nofun
    · intro ended
      obtain ⟨rest | rest, ok, same⟩ := map_eq_some_iff.mp ended
      · cases same
      · exact next ok

section
variable (shape : chain.Shape known eternal headers)
include shape

theorem Shape.loadBlockByHeight (below : height ≤ chain.tail.header.height) :
    ∃ block, chain.loadBlockByHeight height = some block ∧
      chain.getBlockHash height = some (setup.blockHash block.header) := by
  obtain ⟨header, among, level, indexed⟩ := shape.header_at below
  unfold BlockChain.loadBlockByHeight
  split
  · next zero => exact ⟨_, rfl, if_pos zero⟩
  · next positive =>
    obtain ⟨stored, held⟩ := isSome_iff_exists.mp (shape.held header among)
    have same := (shape.stored _ _ held).1
    rw [indexed]
    rw [getBlockHash, if_neg positive] at indexed
    refine ⟨stored.unmarshalled, ?_, by rw [same]; rfl⟩
    rw [indexed, bind_some, loadBlockByHash]
    exact congrArg (Option.map _) held

theorem Shape.hashAt (below : height ≤ chain.tail.header.height) :
    ∃ hash, chain.hashAt height = .ok hash ∧ chain.getBlockHash height = some hash := by
  obtain ⟨block, loaded, hash⟩ := shape.loadBlockByHeight below
  exact ⟨_, by rw [BlockChain.hashAt, loaded]; rfl, hash⟩

theorem Shape.fetchToTail (room : chain.tail.header.height.toNat + 1 < 2 ^ 32) {left : Nat}
    (at_ : height.toNat + left = chain.tail.header.height.toNat + 1) :
    ∃ result, chain.fetchToTail (left + 1) height = some (.ok result) ∧
      Forall₂ (fun n hash => chain.getBlockHash (.ofNat n) = some hash) (range' height.toNat left) result := by
  induction left generalizing height with
  | zero =>
    refine ⟨[], if_neg ?_, .nil⟩
    rw [le_iff_toNat_le]
    omega
  | succ left next =>
    have below : height ≤ chain.tail.header.height := le_iff_toNat_le.mpr (by omega)
    have succ := toNat_add_one (show height.toNat + 1 < 2 ^ 32 by omega)
    obtain ⟨hash, loaded, indexed⟩ := shape.hashAt below
    obtain ⟨rest, ended, others⟩ := @next (height + 1) (by omega)
    rw [succ] at others
    refine ⟨hash :: rest, ?_, .cons (by rwa [UInt32.ofNat_toNat]) others⟩
    rw [BlockChain.fetchToTail, if_pos below, loaded, ended]
    rfl

/-- At the fork the answer is the chain that follows, unless the fork is out of reach. -/
theorem Shape.fetch_iff (below : height ≤ chain.tail.header.height) :
    (∃ fuel result, (if (chain.tail.header.height - height + 1).toNat < maxBlocksPerSync then
        chain.fetchToTail fuel (height + 1)
      else some ((range maxBlocksPerSync).mapM fun idx => chain.hashAt (height + 1 + .ofNat idx))) = some (.ok result) ∧
      chain.Follow result (some height)) ↔ chain.InReach height := by
  have low := le_iff_toNat_le.mp below
  have bound := chain.tail.header.height.toNat_lt
  have ahead : (chain.tail.header.height - height + 1).toNat =
      (chain.tail.header.height.toNat - height.toNat + 1) % 2 ^ 32 := by
    rw [UInt32.toNat_add, UInt32.toNat_sub_of_le _ _ below, UInt32.toNat_one]
  unfold InReach Follow maxBlocksPerSync
  rw [ahead]
  split
  · next near =>
    constructor
    · rintro ⟨fuel, result, ended, -⟩
      by_contra far
      exact fetchToTail_endless (by omega) ended
    · intro reach
      have succ := toNat_add_one (show height.toNat + 1 < 2 ^ 32 by omega)
      obtain ⟨result, ended, follow⟩ := @Shape.fetchToTail _ _ _ _ _ (height + 1) shape (by omega)
        (chain.tail.header.height.toNat - height.toNat) (by omega)
      refine ⟨_, result, ended, ?_⟩
      rwa [succ, ← Nat.min_eq_left (show chain.tail.header.height.toNat - height.toNat ≤ 1024 by omega)] at follow
  · next far =>
    constructor
    · rintro ⟨-, result, ended, follow⟩
      have many := (mapM_ok (Option.some.inj ended)).length_eq
      have length := follow.length_eq
      rw [length_range] at many
      rw [length_range'] at length
      omega
    · intro reach
      have each : ∀ idx ∈ range 1024, ∃ hash, chain.hashAt (height + 1 + .ofNat idx) = .ok hash ∧
          chain.getBlockHash (.ofNat (height.toNat + 1 + idx)) = some hash := by
        intro idx small
        have at_ : height + 1 + .ofNat idx = ofNat (height.toNat + 1 + idx) := by
          rw [UInt32.ofNat_add, UInt32.ofNat_add, UInt32.ofNat_toNat]
          rfl
        rw [at_]
        refine shape.hashAt (le_iff_toNat_le.mpr ?_)
        have := mem_range.mp small
        rw [toNat_ofNat', Nat.mod_eq_of_lt (by omega)]
        omega
      obtain ⟨result, ended, follow⟩ := exists_mapM each
      refine ⟨0, result, congrArg some ended, ?_⟩
      dsimp only
      rw [Nat.min_eq_right (by omega), range'_eq_map_range, forall₂_map_left_iff]
      exact follow

/-- A request is answered with the main chain after the first locator on it, or with nothing,
if and only if no locator before is a block above the tail and the fork is in reach. -/
theorem headers_served_iff (hashes : List HashType) :
    (∃ fuel result, chain.locateForkPointAndFetchHeaders fuel hashes = some (.ok result) ∧
      chain.Follow result (hashes.findSome? chain.mainHeight)) ↔
    (∀ hash ∈ hashes.takeWhile fun hash => (chain.mainHeight hash).isNone, ∀ block,
      chain.loadBlockByHash hash = some block → block.header.height ≤ chain.tail.header.height) ∧
    ∀ height, hashes.findSome? chain.mainHeight = some height → chain.InReach height := by
  induction hashes with
  | nil => simp [locateForkPointAndFetchHeaders, Follow]
  | cons hash hashes next =>
    cases stored : chain.loadBlockByHash hash with
    | none => simp [locateForkPointAndFetchHeaders, mainHeight, stored, next]
    | some block =>
      have hashed : setup.blockHash block.header = hash := by
        obtain ⟨kept, found, rfl⟩ := map_eq_some_iff.mp stored
        exact (shape.stored _ _ found).1.symm
      have main : chain.mainHeight hash =
          if chain.getBlockHash block.header.height = some hash then some block.header.height else none := by
        rw [mainHeight, stored, bind_some]
      by_cases low : block.header.height ≤ chain.tail.header.height
      · obtain ⟨b, loaded, indexed⟩ := shape.loadBlockByHeight low
        by_cases same : setup.blockHash b.header = setup.blockHash block.header
        · rw [if_pos (by rw [indexed, same, hashed])] at main
          simpa [locateForkPointAndFetchHeaders, stored, loaded, same, main] using shape.fetch_iff low
        · rw [if_neg (by simpa [indexed, ← hashed] using same)] at main
          simp [locateForkPointAndFetchHeaders, stored, loaded, same, main, next, low]
      · have nowhere := shape.getBlockHash_above (UInt32.not_le.mp low)
        have lost : chain.loadBlockByHeight block.header.height = none := by
          have positive : block.header.height ≠ 0 := fun zero => low (zero ▸ UInt32.zero_le)
          rw [getBlockHash, if_neg positive] at nowhere
          rw [BlockChain.loadBlockByHeight, if_neg positive, nowhere]
          rfl
        rw [nowhere, if_neg (by rintro ⟨⟩)] at main
        simp [locateForkPointAndFetchHeaders, stored, lost, main, low, Outcome.panicked]

end

theorem Shape.connected {chain : BlockChain openSetup} {known : Known openSetup} (block : Block)
    (shape : chain.Shape known eternal headers) (member : block.header ∈ known.headers)
    (child : openSetup.links.ChildOf block.header chain.tail.header) :
    (chain.connected block).Shape known eternal (block.header :: headers) := by
  have tail := shape.known_mem _ (mem_of_mem_head? shape.tail_eq)
  have linked : known.Linked block.header := ⟨member, .inr ⟨_, tail, child⟩⟩
  have stored := Spine.Shape.store (Spine.Shape.store shape linked) linked
  exact stored.extend member child (by rw [AList.lookup_insert]; rfl)

/-- The first locator is on a side branch, the second one is the genesis block. -/
theorem branch_located :
    let chain := forked.connected (countedBlock 2)
    let hashes := [countedHash 3, countedHash 0]
    (∃ block, chain.loadBlockByHash (countedHash 3) = some block) ∧ chain.mainHeight (countedHash 3) = none ∧
      ∃ fuel result, chain.locateForkPointAndFetchHeaders fuel hashes = some (.ok result) ∧
        chain.Follow result (hashes.findSome? chain.mainHeight) ∧ result = [countedHash 1, countedHash 2] := by
  intro chain hashes
  have first : (openStart.connected (countedBlock 1)).Shape branches (countedHeader 0) [countedHeader 1, countedHeader 0] :=
    Shape.connected (countedBlock 1) (openStart_fresh.shape branches) (by decide +kernel : _ ∈ branchHeaders) ⟨rfl, rfl⟩
  have linked : branches.Linked (sideBlock 1 3 0).header :=
    ⟨(by decide +kernel : _ ∈ branchHeaders), .inr ⟨countedHeader 0, branches.genesis_mem, rfl, rfl⟩⟩
  have side : forked.Shape branches (countedHeader 0) [countedHeader 1, countedHeader 0] := Spine.Shape.store first linked
  have shape : chain.Shape branches (countedHeader 0) [countedHeader 2, countedHeader 1, countedHeader 0] :=
    Shape.connected (countedBlock 2) side (by decide +kernel : _ ∈ branchHeaders) ⟨rfl, rfl⟩
  have base : hashes.findSome? chain.mainHeight = some 0 := by decide +kernel
  obtain ⟨fuel, result, served, follow⟩ := (headers_served_iff shape hashes).mpr
    ⟨by decide +kernel, by rw [base]; rintro _ ⟨⟩; exact .inl ⟨by decide, by decide⟩⟩
  refine ⟨⟨_, rfl⟩, by decide +kernel, fuel, result, served, follow, ?_⟩
  rw [base] at follow
  obtain _ | ⟨one, _ | ⟨two, _ | _⟩⟩ := follow
  cases one
  cases two
  rfl

/-- A stored block that is higher than the main chain makes the node crash. -/
theorem higher_locator_panics :
    ∃ (setup : Setup) (known : Known setup) (chain : BlockChain setup) (headers : List BlockHeader) (hash : HashType),
      chain.Shape known chain.eternal.header headers ∧
      ∀ fuel, chain.locateForkPointAndFetchHeaders fuel [hash] = some .panicked := by
  refine ⟨openSetup, countedKnown 1 (by decide), openStart.storeBlock (countedBlock 1), _, countedHash 1,
    Spine.Shape.store (openStart_fresh.shape _) ?_, fun fuel => rfl⟩
  exact ⟨⟨1, le_rfl, rfl⟩, .inr ⟨countedHeader 0, ⟨0, by decide, rfl⟩, rfl, rfl⟩⟩

end Boxd.BlockChain
