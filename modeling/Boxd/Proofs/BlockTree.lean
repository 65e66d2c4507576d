import Boxd.Chain.Blockchain
import Boxd.Lib.Branch
import Boxd.Proofs.Records

/-! The main chain of a node as a branch of the block tree, and where a side chain leaves
it. -/

namespace Boxd
open Lib List Option AList Table Nat

variable {header : BlockHeader} {block : Block}

def Setup.links (setup : Setup) : Links BlockHeader HashType :=
  ⟨setup.blockHash, BlockHeader.prevBlockHash, fun header => header.height.toNat⟩

theorem Setup.links_height (setup : Setup) (header : BlockHeader) :
    setup.links.height header = header.height.toNat := rfl

/-- The headers that a run is about. No two of them have one hash. -/
structure Known (setup : Setup) where
  headers : Set BlockHeader
  genesis_mem : setup.genesisBlock.header ∈ headers
  injOn : Set.InjOn setup.blockHash headers

namespace Known

variable {setup : Setup} (known : Known setup)

def Low : Prop := ∀ header ∈ known.headers, header.height ≠ maxUint32

def Descends : BlockHeader → BlockHeader → Prop := setup.links.Descends known.headers

def Linked (header : BlockHeader) : Prop :=
  header ∈ known.headers ∧
    (header = setup.genesisBlock.header ∨ ∃ parent ∈ known.headers, setup.links.ChildOf header parent)

variable {known}

theorem genesis_linked : known.Linked setup.genesisBlock.header := ⟨known.genesis_mem, .inl rfl⟩

theorem Linked.eq_genesis (linked : known.Linked header) (zero : header.height.toNat = 0) :
    header = setup.genesisBlock.header := by
  rcases linked.2 with same | ⟨parent, -, child⟩
  · exact same
  · exact absurd child.height_eq (by rw [setup.links_height, zero]; exact (succ_ne_zero _).symm)

/-- The comparison of heights in `tryAcceptBlock`. -/
theorem childOf (low : known.Low) {child parent : BlockHeader} (member : parent ∈ known.headers)
    (link : child.prevBlockHash = setup.blockHash parent) (height : child.height = parent.height + 1) :
    setup.links.ChildOf child parent := by
  refine ⟨link, ?_⟩
  have below : parent.height.toNat ≠ 4294967295 := fun same =>
    low parent member (UInt32.toNat_inj.mp (by rw [same]; rfl))
  have bound := parent.height.toNat_lt
  change child.height.toNat = parent.height.toNat + 1
  rw [height, UInt32.toNat_add, UInt32.toNat_one, mod_eq_of_lt (by omega)]

end Known

/-- The part of a chain that its shape is about. -/
structure Spine where
  blocks : Table HashType Block
  blockHashes : Table UInt32 HashType
  tail : Block
  eternal : Block
  longestChainHeight : UInt32
  orphans : Table HashType (List Block)

structure Spine.Shape {setup : Setup} (known : Known setup) (eternal : BlockHeader) (headers : List BlockHeader)
    (spine : Spine) : Prop where
  branch : setup.links.Branch setup.genesisBlock.header headers
  known_mem : ∀ header ∈ headers, header ∈ known.headers
  tail_eq : headers.head? = some spine.tail.header
  index : ∀ height hash, height ≠ 0 → (spine.blockHashes.lookup height = some hash ↔
    ∃ header ∈ headers, header.height = height ∧ setup.blockHash header = hash)
  longest_eq : spine.longestChainHeight = spine.tail.header.height
  eternal_eq : spine.eternal.header = eternal
  eternal_mem : eternal ∈ headers
  stored : ∀ hash block, spine.blocks.lookup hash = some block →
    hash = setup.blockHash block.header ∧ known.Linked block.header
  held : ∀ header ∈ headers, (spine.blocks.lookup (setup.blockHash header)).isSome
  orphans : ∀ hash orphans, spine.orphans.lookup hash = some orphans →
    ∀ orphan ∈ orphans, orphan.header ∈ known.headers ∧ orphan.header.prevBlockHash = hash

namespace Spine.Shape

variable {setup : Setup} {known : Known setup} {eternal : BlockHeader} {headers : List BlockHeader} {spine : Spine}

theorem height_le (shape : spine.Shape known eternal headers) (member : header ∈ headers) :
    header.height.toNat ≤ spine.tail.header.height.toNat :=
  shape.branch.height_le shape.tail_eq member

variable {block : Block}

section
variable (shape : spine.Shape known eternal headers)
include shape

theorem store (linked : known.Linked block.header) : Shape known eternal headers
      { spine with blocks := spine.blocks.insert (setup.blockHash block.header) block } := by
  refine { shape with stored := ?_, held := ?_ }
  · intro hash stored found
    obtain ⟨rfl, rfl⟩ | ⟨-, before⟩ := lookup_insert_cases found
    · exact ⟨rfl, linked⟩
    · exact shape.stored hash stored before
  · intro header among
    rw [isSome_iff_ne_none]
    exact lookup_insert_ne_none _ (.inr (isSome_iff_ne_none.mp (shape.held header among)))

theorem remove (member : header ∈ known.headers) (off : header ∉ headers) :
    Shape known eternal headers { spine with blocks := spine.blocks.erase (setup.blockHash header) } := by
  refine { shape with stored := ?_, held := ?_ }
  · intro other stored found
    exact shape.stored other stored (lookup_of_erase found).2
  · intro other among
    have differ : setup.blockHash other ≠ setup.blockHash header := by
      intro same
      exact off (known.injOn (shape.known_mem other among) member same ▸ among)
    rw [lookup_erase_ne differ]
    exact shape.held other among

theorem dropOrphans (hash : HashType) :
    Shape known eternal headers { spine with orphans := spine.orphans.erase hash } := by
  refine { shape with orphans := ?_ }
  intro other orphans found
  exact shape.orphans other orphans (lookup_of_erase found).2

theorem addOrphan (member : block.header ∈ known.headers) : Shape known eternal headers
      { spine with
        orphans := spine.orphans.insert block.header.prevBlockHash
          ((spine.orphans.lookup block.header.prevBlockHash).getD [] ++ [block]) } := by
  refine { shape with orphans := ?_ }
  intro hash orphans found orphan among
  by_cases same : hash = block.header.prevBlockHash
  · rw [same, lookup_insert] at found
    cases found
    rcases mem_append.mp among with before | last
    · cases held : spine.orphans.lookup block.header.prevBlockHash with
      | none =>
        rw [held] at before
        cases before
      | some others =>
        rw [held] at before
        exact same ▸ shape.orphans _ others held orphan before
    · rw [mem_singleton.mp last]
      exact ⟨member, same.symm⟩
  · rw [lookup_insert_ne same] at found
    exact shape.orphans hash orphans found orphan among

theorem extend (member : block.header ∈ known.headers) (child : setup.links.ChildOf block.header spine.tail.header)
    (held : (spine.blocks.lookup (setup.blockHash block.header)).isSome) :
    Shape known eternal (block.header :: headers)
      { spine with
        blockHashes := spine.blockHashes.insert block.header.height (setup.blockHash block.header)
        tail := block
        longestChainHeight := block.header.height } := by
  have higher : block.header.height.toNat = spine.tail.header.height.toNat + 1 := child.height_eq
  refine { shape with
    branch := shape.branch.cons shape.tail_eq child
    known_mem := forall_mem_cons.mpr ⟨member, shape.known_mem⟩
    tail_eq := rfl
    index := ?_
    longest_eq := rfl
    eternal_mem := mem_cons_of_mem _ shape.eternal_mem
    held := forall_mem_cons.mpr ⟨held, shape.held⟩ }
  intro height hash positive
  by_cases same : height = block.header.height
  · subst same
    rw [lookup_insert, some.injEq]
    constructor
    · rintro rfl
      exact ⟨block.header, mem_cons_self, rfl, rfl⟩
    · rintro ⟨header, among, level, hashed⟩
      rcases mem_cons.mp among with rfl | lower
      · exact hashed
      · have bound := shape.height_le lower
        rw [level] at bound
        omega
  · rw [lookup_insert_ne same, shape.index height hash positive]
    constructor
    · rintro ⟨header, among, rest⟩
      exact ⟨header, mem_cons_of_mem _ among, rest⟩
    · rintro ⟨header, among, level, hashed⟩
      rcases mem_cons.mp among with rfl | lower
      · exact absurd level.symm same
      · exact ⟨header, lower, level, hashed⟩

end

theorem retract {parent : Block} {rest : List BlockHeader}
    (shape : spine.Shape known eternal (block.header :: parent.header :: rest))
    (below : eternal ∈ parent.header :: rest) :
    Shape known eternal (parent.header :: rest)
      { spine with
        blockHashes := spine.blockHashes.erase block.header.height
        tail := parent
        longestChainHeight := parent.header.height } := by
  have child := (isChain_cons_cons.mp shape.branch.linked).1
  have branch := shape.branch.tail rfl
  have higher : block.header.height.toNat = parent.header.height.toNat + 1 := child.height_eq
  have lower : ∀ header ∈ parent.header :: rest, header.height ≠ block.header.height := by
    intro header among same
    have bound : header.height.toNat ≤ parent.header.height.toNat := branch.height_le rfl among
    rw [same] at bound
    omega
  refine { shape with
    branch
    known_mem := fun header among => shape.known_mem header (mem_cons_of_mem _ among)
    tail_eq := rfl
    index := ?_
    longest_eq := rfl
    eternal_mem := below
    held := fun header among => shape.held header (mem_cons_of_mem _ among) }
  intro height hash positive
  by_cases same : height = block.header.height
  · rw [same, lookup_erase]
    constructor
    · rintro ⟨⟩
    · rintro ⟨header, among, level, -⟩
      exact absurd level (lower header among)
  · rw [lookup_erase_ne same, shape.index height hash positive]
    constructor
    · rintro ⟨header, among, level, hashed⟩
      rcases mem_cons.mp among with rfl | later
      · exact absurd level.symm same
      · exact ⟨header, later, level, hashed⟩
    · rintro ⟨header, among, level, hashed⟩
      exact ⟨header, mem_cons_of_mem _ among, level, hashed⟩

end Spine.Shape

namespace BlockChain

variable {setup : Setup} {known : Known setup} {eternal : BlockHeader} {headers : List BlockHeader}

def spine (chain : BlockChain setup) : Spine where
  blocks := chain.records.blocks
  blockHashes := chain.records.blockHashes
  tail := chain.tail
  eternal := chain.eternal
  longestChainHeight := chain.longestChainHeight
  orphans := chain.orphanBlockHashToChildren

def Shape (known : Known setup) (eternal : BlockHeader) (headers : List BlockHeader) (chain : BlockChain setup) : Prop :=
  chain.spine.Shape known eternal headers

variable {chain : BlockChain setup} {block parent : Block}

theorem getParentBlock_linked (shape : chain.Shape known eternal headers)
    (member : block.header ∈ known.headers) (found : chain.getParentBlock block = some parent) :
    known.Linked parent.header ∧
      (block.header ≠ setup.genesisBlock.header → block.header.prevBlockHash = setup.blockHash parent.header) := by
  unfold getParentBlock at found
  split at found
  · next toGenesis =>
    cases found
    refine ⟨Known.genesis_linked, fun higher => ?_⟩
    rcases toGenesis with same | link
    · exact absurd (known.injOn member known.genesis_mem same) higher
    · exact link
  · obtain ⟨stored, held, rfl⟩ := map_eq_some_iff.mp found
    obtain ⟨hash, linked⟩ := shape.stored _ stored held
    exact ⟨linked, fun _ => hash⟩

theorem getParentBlock_eq (shape : chain.Shape known eternal headers) (member : block.header ∈ known.headers)
    (higher : block.header ≠ setup.genesisBlock.header) (found : chain.getParentBlock block = some parent)
    (among : header ∈ known.headers) (child : setup.links.ChildOf block.header header) : header = parent.header := by
  obtain ⟨parentLinked, link⟩ := getParentBlock_linked shape member found
  exact known.injOn among parentLinked.1 (child.prev_eq.symm.trans (link higher))

end BlockChain

namespace ChainState

theorem writeBlockToDB_spine {env : NodeEnv} {splitTxs : Table HashType Transaction} {utxoSet : UtxoSet}
    {st after : ChainState} (ok : st.writeBlockToDB env block splitTxs utxoSet = .ok after) :
    after.blocks = st.blocks.insert (env.blockHash block.header) block ∧
      after.blockHashes = st.blockHashes.insert block.header.height (env.blockHash block.header) := by
  simp only [writeBlockToDB, bind_ok_iff] at ok
  obtain ⟨addrs, wroteAddrs, written, wrote, done⟩ := ok
  cases done
  have frame := (writeUtxoSetToDB_ok wrote).frame
  simp only [writeSplitAddrIndex, bind_ok_iff] at wroteAddrs
  obtain ⟨created, -, done⟩ := wroteAddrs
  cases done
  rw [frame]
  exact ⟨rfl, rfl⟩

theorem tryDisConnectBlockFromMainChain_spine {env : NodeEnv} {st after : ChainState}
    (ok : st.tryDisConnectBlockFromMainChain env block = .ok after) :
    after.blocks = st.blocks ∧ after.blockHashes = st.blockHashes.erase block.header.height := by
  simp only [tryDisConnectBlockFromMainChain, bind_ok_iff, Prod.exists] at ok
  obtain ⟨copy, splitTxs, -, state, -, utxoSet, -, contractUtxos, -, addrs, wroteAddrs, written, wrote, newTail, -, tailState, -,
    done⟩ := ok
  cases done
  have frame := (writeUtxoSetToDB_ok wrote).frame
  simp only [deleteSplitAddrIndex, bind_ok_iff] at wroteAddrs
  obtain ⟨created, -, done⟩ := wroteAddrs
  cases done
  rw [frame]
  exact ⟨rfl, rfl⟩

end ChainState

/-- A way up the tree: every header is the child of the next one. -/
structure Known.Climb {setup : Setup} (known : Known setup) (top : BlockHeader) (path : List BlockHeader)
    (base : BlockHeader) : Prop where
  linked : ∀ header ∈ path ++ [base], known.Linked header
  chained : (path ++ [base]).IsChain setup.links.ChildOf
  first : (path ++ [base]).head? = some top

namespace Known.Climb

variable {setup : Setup} {known : Known setup} {top base : BlockHeader} {path : List BlockHeader}

theorem step {blocks : List Block} {parent : Block} (climb : known.Climb top (blocks.map Block.header) block.header)
    (linked : known.Linked parent.header) (child : setup.links.ChildOf block.header parent.header) :
    known.Climb top ((blocks ++ [block]).map Block.header) parent.header := by
  rw [map_append]
  refine ⟨?_, ?_, ?_⟩
  · exact forall_mem_append.mpr ⟨climb.linked, forall_mem_singleton.mpr linked⟩
  · rw [isChain_append]
    refine ⟨climb.chained, isChain_singleton _, ?_⟩
    intro last isLast base isBase
    rw [map_singleton, getLast?_concat] at isLast
    cases isLast
    cases isBase
    exact child
  · rw [map_singleton, head?_append, climb.first]
    rfl

theorem descends (climb : known.Climb top path base) (member : header ∈ path ++ [base]) : known.Descends top header :=
  Links.descends_of_mem climb.chained (fun header among => (climb.linked header among).1) climb.first member

/-- There is one way up, so it is a part of the branch that the first header is on. -/
theorem of_branch {headers : List BlockHeader} (climb : known.Climb top path base)
    (branch : setup.links.Branch setup.genesisBlock.header headers) (members : ∀ header ∈ headers, header ∈ known.headers)
    (first : headers.head? = some top) : ∃ others, headers = path ++ base :: others := by
  obtain ⟨linked, chained, start⟩ := climb
  induction path generalizing headers top with
  | nil =>
    cases start
    exact ⟨_, (cons_head?_tail first).symm⟩
  | cons node path next =>
    cases start
    obtain ⟨second, above⟩ : ∃ second, (path ++ [base]).head? = some second := by cases path <;> exact ⟨_, rfl⟩
    rw [cons_append, isChain_cons] at chained
    rw [cons_append, forall_mem_cons] at linked
    have child := chained.1 second above
    have known_ := (linked.2 second (mem_of_mem_head? above)).1
    rcases headers with _ | ⟨node, _ | ⟨other, rest⟩⟩
    · cases first
    · have root : node = setup.genesisBlock.header := by simpa using branch.last
      cases first
      have height := child.height_eq
      rw [root, branch.root_height] at height
      cases height
    · cases first
      have same := (isChain_cons_cons.mp branch.linked).1
      cases known.injOn (members other (by simp)) known_ (same.prev_eq.symm.trans child.prev_eq)
      obtain ⟨others, split⟩ := next (branch.tail rfl) (fun header among => members header (mem_cons_of_mem _ among)) rfl
        linked.2 chained.2 above
      exact ⟨others, congrArg (node :: ·) split⟩

end Known.Climb

/-- Where the way from a block leaves the way from the tail: the highest common ancestor,
with the ways that lead to it. -/
structure Known.Fork {setup : Setup} (known : Known setup) (tail block fork : BlockHeader) (detached attached : List Block) :
    Prop where
  detached : known.Climb tail (detached.map Block.header) fork
  attached : known.Climb block (attached.map Block.header) fork
  highest : ∀ other, known.Descends tail other → known.Descends block other → known.Descends fork other

namespace BlockChain

variable {setup : Setup} {known : Known setup} {eternal : BlockHeader} {headers : List BlockHeader}

variable {chain : BlockChain setup} {tail top : BlockHeader} {block : Block}

/-- The parents that are found are the right ones. -/
def Parents (known : Known setup) (chain : BlockChain setup) : Prop :=
  ∀ block parent, known.Linked block.header → block.header ≠ setup.genesisBlock.header →
    chain.getParentBlock block = some parent → known.Linked parent.header ∧ setup.links.ChildOf block.header parent.header

/-- The parent of some block is not found. -/
def Lost (known : Known setup) (chain : BlockChain setup) : Prop :=
  ∃ block, known.Linked block.header ∧ block.header ≠ setup.genesisBlock.header ∧ chain.getParentBlock block = none

section
variable (parents : Parents known chain)
include parents

theorem moveUp_cases {steps fuel : Nat} {main : Option Block} {attached : List Block}
    (climb : known.Climb top (attached.map Block.header) block.header) (level : steps ≤ block.header.height.toNat) :
    (Lost known chain ∧ (chain.moveUp steps (some block) attached >>= fun moved =>
      chain.meet fuel main moved.1 [] moved.2) = .panicked) ∨
    ∃ side moved, chain.moveUp steps (some block) attached = .ok (some side, moved) ∧
      known.Climb top (moved.map Block.header) side.header ∧
      side.header.height.toNat + steps = block.header.height.toNat ∧ moved.length = attached.length + steps := by
  induction steps generalizing block attached with
  | zero => exact .inr ⟨block, attached, rfl, climb, rfl, rfl⟩
  | succ steps next =>
    have linked := climb.linked block.header (by simp)
    have higher : block.header ≠ setup.genesisBlock.header := by
      intro same
      rw [same, setup.genesis_height] at level
      cases level
    rw [moveUp]
    cases found : chain.getParentBlock block with
    | none =>
      refine .inl ⟨⟨block, linked, higher, found⟩, ?_⟩
      cases steps <;> cases fuel <;> cases main <;> rfl
    | some parent =>
      obtain ⟨linked, child⟩ := parents block parent linked higher found
      have height : block.header.height.toNat = parent.header.height.toNat + 1 := child.height_eq
      rcases next (climb.step linked child) (by omega) with lost | ⟨side, moved, ran, climb, _, _⟩
      · exact .inl lost
      · exact .inr ⟨side, moved, ran, climb, by omega, by simp_all; omega⟩

theorem meet_cases {steps : Nat} {main side : Block} {detach attach : List Block}
    (enough : main.header.height.toNat < steps) (level : main.header.height = side.header.height)
    (longer : detach.length < attach.length)
    (down : known.Climb tail (detach.map Block.header) main.header)
    (up : known.Climb top (attach.map Block.header) side.header)
    (common : ∀ other, known.Descends tail other → known.Descends top other →
      setup.links.height other ≤ setup.links.height main.header) :
    (Lost known chain ∧ chain.meet steps (some main) (some side) detach attach = .panicked) ∨
    ∃ fork detached attached, chain.meet steps (some main) (some side) detach attach = .ok (fork, detached, attached) ∧
      known.Fork tail top fork.header detached attached := by
  induction steps generalizing main side detach attach with
  | zero => cases enough
  | succ steps next =>
    have mainLinked := down.linked main.header (by simp)
    have sideLinked := up.linked side.header (by simp)
    rw [meet, if_neg (not_not.mpr level)]
    split
    · next same =>
      have same := known.injOn mainLinked.1 sideLinked.1 same
      rw [if_neg (by omega)]
      exact .inr ⟨main, detach, attach, rfl, down, same ▸ up, fun other fromTail fromTop =>
        (down.descends (by simp)).of_le known.injOn fromTail (common other fromTail fromTop)⟩
    · next differ =>
      have high : main.header.height.toNat ≠ 0 := fun zero =>
        differ (by rw [mainLinked.eq_genesis zero, sideLinked.eq_genesis (level ▸ zero)])
      have mainHigher : main.header ≠ setup.genesisBlock.header := fun same => high (by rw [same, setup.genesis_height]; rfl)
      have sideHigher : side.header ≠ setup.genesisBlock.header := fun same =>
        high (by rw [level, same, setup.genesis_height]; rfl)
      cases foundMain : chain.getParentBlock main with
      | none =>
        exact .inl ⟨⟨main, mainLinked, mainHigher, foundMain⟩, by cases steps <;> rfl⟩
      | some mainParent =>
        cases foundSide : chain.getParentBlock side with
        | none => exact .inl ⟨⟨side, sideLinked, sideHigher, foundSide⟩, by cases steps <;> rfl⟩
        | some sideParent =>
          obtain ⟨aboveMain, mainChild⟩ := parents main mainParent mainLinked mainHigher foundMain
          obtain ⟨aboveSide, sideChild⟩ := parents side sideParent sideLinked sideHigher foundSide
          have lower : main.header.height.toNat = mainParent.header.height.toNat + 1 := mainChild.height_eq
          have lower' : side.header.height.toNat = sideParent.header.height.toNat + 1 := sideChild.height_eq
          have levels : setup.links.height main.header = setup.links.height side.header := congrArg UInt32.toNat level
          refine next (by omega) (UInt32.toNat_inj.mp (by rw [level] at lower; omega)) (by simpa using longer)
            (down.step aboveMain mainChild) (up.step aboveSide sideChild) fun other fromTail fromTop => ?_
          have below := common other fromTail fromTop
          rcases lt_or_eq_of_le below with less | same
          · have height := mainChild.height_eq
            omega
          · have first := (down.descends (by simp)).unique known.injOn fromTail same.symm
            have second := (up.descends (by simp)).unique known.injOn fromTop (levels.symm.trans same.symm)
            exact absurd (by rw [first, second]) differ

theorem findFork_cases (longest : chain.longestChainHeight = chain.tail.header.height)
    (tailLinked : known.Linked chain.tail.header) (linked : known.Linked block.header)
    (above : chain.tail.header.height < block.header.height) :
    (Lost known chain ∧ chain.findFork block = .panicked) ∨
    ∃ fork detached attached, chain.findFork block = .ok (fork, detached, attached) ∧
      known.Fork chain.tail.header block.header fork.header detached attached := by
  have higher := UInt32.lt_iff_toNat_lt.mp above
  have start {header : BlockHeader} (linked : known.Linked header) :
      known.Climb header (([] : List Block).map Block.header) header :=
    ⟨by simpa using linked, isChain_singleton _, rfl⟩
  unfold findFork
  rw [longest, if_neg (UInt32.not_le.mpr above)]
  rcases moveUp_cases parents (start linked) (sub_le _ _) with lost | ⟨side, moved, ran, climb, height, length⟩
  · exact .inl lost
  · dsimp only
    rw [ran]
    exact meet_cases parents (lt_succ_self _) (UInt32.toNat_inj.mp (by omega)) (by simp [length]; omega)
      (start tailLinked) climb fun other fromTail _ => fromTail.height_le

end

/-- What `findFork` finds: the main chain above the fork, and a way from the block to
the fork beside the main chain. -/
theorem findFork_ok (shape : chain.Shape known eternal headers) {fork : Block}
    {detach attach : List Block} (linked : known.Linked block.header)
    (ok : chain.findFork block = .ok (fork, detach, attach)) :
    ∃ others, headers = detach.map Block.header ++ fork.header :: others ∧
      known.Climb block.header (attach.map Block.header) fork.header ∧
      ∀ header ∈ attach.map Block.header, header ∉ headers := by
  have parents : Parents known chain := by
    intro block parent linked higher found
    obtain ⟨other, among, child⟩ := linked.2.resolve_left higher
    exact ⟨(getParentBlock_linked shape linked.1 found).1, getParentBlock_eq shape linked.1 higher found among child ▸ child⟩
  have longest : chain.longestChainHeight = chain.tail.header.height := shape.longest_eq
  have above : chain.tail.header.height < block.header.height := by
    by_contra below
    rw [findFork, longest, if_pos (UInt32.not_lt.mp below)] at ok
    cases ok
  have tailMember := mem_of_mem_head? shape.tail_eq
  have tailLinked : known.Linked chain.tail.header := by
    obtain ⟨stored, held⟩ := isSome_iff_exists.mp (shape.held _ tailMember)
    obtain ⟨hash, linked⟩ := shape.stored _ stored held
    exact known.injOn (shape.known_mem _ tailMember) linked.1 hash ▸ linked
  rcases findFork_cases parents longest tailLinked linked above with ⟨-, lost⟩ | ⟨fork', detach', attach', found, fork⟩
  · rw [lost] at ok
    cases ok
  rw [found] at ok
  cases ok
  obtain ⟨others, split⟩ := fork.detached.of_branch shape.branch shape.known_mem shape.tail_eq
  refine ⟨others, split, fork.attached, fun header member among => ?_⟩
  have fromTail := Links.descends_of_mem shape.branch.linked shape.known_mem shape.tail_eq among
  have lower := (fork.highest header fromTail (fork.attached.descends (mem_append_left _ member))).height_le
  have falls := Links.heights_fall fork.attached.chained
  rw [map_append, pairwise_append] at falls
  have higher := falls.2.2 _ (mem_map_of_mem member) _ (mem_map_of_mem (mem_singleton.mpr rfl))
  omega

end BlockChain
end Boxd
