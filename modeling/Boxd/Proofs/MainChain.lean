import Boxd.Proofs.BlockTree
import Boxd.Proofs.ChainCalls
import Boxd.Proofs.PayToPubKeyHash
import Boxd.Proofs.Tokens

/-! The main chain of a node is one branch of the block tree: the index of the heights
lists it, and the eternal block lies on it. -/

namespace Boxd
open Lib Stateful List AList Block Outcome Nat Option

namespace BlockChain

variable {setup : Setup} {known : Known setup} {eternal : BlockHeader} {headers : List BlockHeader}

/-- A block that goes on from a branch. -/
structure Onto (known : Known setup) (headers : List BlockHeader) (block : Block) : Prop where
  member : block.header ∈ known.headers
  child : ∃ parent, headers.head? = some parent ∧ setup.links.ChildOf block.header parent

theorem changeNewTail_shape {tail : Block} {failed : BlockChain setup → Prop} : Triple
      (fun chain => Spine.Shape known eternal headers
        { chain.spine with tail, longestChainHeight := tail.header.height })
      (changeNewTail tail) (fun _ => Shape known eternal headers) (Survived failed) := by
  refine .get_bind fun chain shape => ?_
  refine .bind (fun _ chain => Spine.Shape known eternal headers
    { chain.spine with tail, longestChainHeight := tail.header.height })
    (.orPanic (.of_pre (Call.consensus_keeps fun _ _ holds => holds) fun _ same => same ▸ shape)
      fun _ _ _ => trivial) fun _ => ?_
  exact .modify fun _ holds => holds

variable {block : Block} {parent : BlockHeader}

theorem sealBlock_shape {splitTxs : Table HashType Transaction} {res : setup.Result}
    {executedFor : Option Block} (onto : Onto known headers block) :
    Triple (Shape known eternal headers) (sealBlock block splitTxs res executedFor)
      (fun _ => Shape known eternal (block.header :: headers)) (Survived (Shape known eternal headers)) := by
  obtain ⟨member, parent, first, child⟩ := onto
  have linked {chain} (shape : Shape known eternal headers chain) : known.Linked block.header :=
    ⟨member, .inr ⟨parent, shape.known_mem _ (mem_of_head? first), child⟩⟩
  refine .bind_same (.modify fun _ shape => Spine.Shape.store shape (linked shape)) fun _ => ?_
  refine .get_bind fun chain shape => ?_
  refine .bind (fun records after => after = chain ∧
      chain.records.writeBlockToDB chain.env block splitTxs res.utxoSet = .ok records)
    (Call.lift_triple (fun records ok _ same => ⟨same, ok⟩) fun _ _ same => Keeps.survived (same ▸ shape))
    fun records => ?_
  refine .bind (fun _ chain => Spine.Shape known eternal (block.header :: headers)
    { chain.spine with tail := block, longestChainHeight := block.header.height }) (.modify ?_) fun _ => ?_
  · rintro after ⟨same, wrote⟩
    subst same
    obtain ⟨blocks, blockHashes⟩ := ChainState.writeBlockToDB_spine wrote
    have tail : parent = after.tail.header := some.inj (first.symm.trans shape.tail_eq)
    have held : (lookup (setup.blockHash block.header)
        (after.records.blocks.insert (setup.blockHash block.header) block)).isSome := by
      rw [lookup_insert]
      rfl
    have extended := (Spine.Shape.store shape (linked shape)).extend member (tail ▸ child) held
    simp only [spine, blocks, blockHashes]
    exact extended
  · refine .bind _ changeNewTail_shape fun _ => ?_
    exact .modify fun _ holds => holds

variable {chain : BlockChain setup}

theorem send_shape {topic : Topic} {times : Nat} (shape : chain.Shape known eternal headers) :
    Shape known eternal headers ((send topic)^[times] chain) := by
  induction times generalizing chain with
  | zero => exact shape
  | succ times next =>
    rw [Function.iterate_succ_apply]
    exact next (show (send topic chain).Shape known eternal headers from shape)

variable {messageFrom : PeerID}

theorem connectBlock_shape (onto : Onto known headers block) :
    Triple (Shape known eternal headers) (connectBlock block messageFrom)
      (fun after chain => after.header = block.header ∧ chain.Shape known eternal (block.header :: headers))
      (Survived (Shape known eternal headers)) := by
  refine .get_bind fun chain shape => ?_
  refine .bind (fun _ => Shape known eternal headers)
    (Call.lift_triple (fun _ _ _ same => same ▸ shape) fun _ _ same => Keeps.survived (same ▸ shape)) fun split => ?_
  obtain ⟨blockCopy, splitTxs⟩ := split
  dsimp only
  split
  · refine Triple.bind_same (Keeps.lift _) fun kept => ?_
    obtain ⟨executedFor, res⟩ := kept
    refine .bind_same (.modify fun _ holds => holds) fun _ => ?_
    refine .bind _ (sealBlock_shape onto) fun _ => ?_
    exact .pure fun _ holds => ⟨rfl, holds⟩
  · refine .bind_same (verify_keeps fun _ _ _ holds => holds) fun _ => ?_
    refine .get_bind fun chain shape => ?_
    refine .bind (fun _ => Shape known eternal headers) (.modify fun _ same => send_shape (same ▸ shape)) fun _ => ?_
    refine .bind (fun result chain => result.2.header = block.header ∧ chain.Shape known eternal headers)
      (Call.lift_triple (fun result ok _ holds => ⟨setup.adjustAndValidateState_header ok, holds⟩)
        fun _ _ holds => Keeps.survived holds) fun result => ?_
    obtain ⟨res, after⟩ := result
    refine .of_start fun chain holds => ?_
    obtain ⟨same, shape⟩ := holds
    dsimp only at same ⊢
    rw [← same]
    have onto : Onto known headers after := ⟨same ▸ onto.member, same ▸ onto.child⟩
    refine .bind _ (.of_pre (sealBlock_shape onto) fun _ same => same ▸ shape) fun _ => ?_
    exact .pure fun _ holds => ⟨rfl, holds⟩

/-- A block that is connected is the next block of the main chain; otherwise the main
chain stays as it is. -/
theorem tryConnectBlockToMainChain_shape (onto : Onto known headers block) :
    Triple (Shape known eternal headers) (tryConnectBlockToMainChain block messageFrom)
      (fun after chain => after.header = block.header ∧ chain.Shape known eternal (block.header :: headers))
      (Survived (Shape known eternal headers)) := by
  refine tryConnectBlockToMainChain_triple (connectBlock_shape onto) (fun _ _ _ holds => holds) ?_
  intro before fault chain survived
  refine survived.mono (fun shape => ?_) fun _ => trivial
  exact shape

theorem tryDisConnectBlockFromMainChain_shape {rest : List BlockHeader} (below : eternal ∈ rest) :
    Triple (Shape known eternal (block.header :: rest)) (tryDisConnectBlockFromMainChain block)
      (fun _ => Shape known eternal rest) (Survived fun _ => True) := by
  refine .get_bind fun chain shape => ?_
  refine .bind (fun records after => after = chain ∧
      chain.records.tryDisConnectBlockFromMainChain chain.env block = .ok records)
    (Call.lift_triple (fun records ok _ same => ⟨same, ok⟩) fun _ _ _ => Keeps.survived trivial) fun records => ?_
  refine .of_start fun start holds => ?_
  obtain ⟨rfl, reverted⟩ := holds
  obtain ⟨blocks, blockHashes⟩ := ChainState.tryDisConnectBlockFromMainChain_spine reverted
  refine .bind (fun _ after => after = { start with records }) (.modify fun _ same => same ▸ rfl) fun _ => ?_
  refine .bind (fun newTail after => after = { start with records } ∧ start.getParentBlock block = some newTail)
    (Triple.lift (fun newTail ok _ same => ⟨same, expect_ok ok⟩) fun _ _ _ _ => Keeps.survived trivial)
    fun newTail => ?_
  refine .bind (fun _ => Shape known eternal rest) (.of_pre changeNewTail_shape ?_) fun _ => ?_
  · rintro _ ⟨rfl, found⟩
    cases rest with
    | nil => cases below
    | cons next rest =>
      have child := (isChain_cons_cons.mp shape.branch.linked).1
      have higher : block.header ≠ setup.genesisBlock.header := by
        intro same
        have height := child.height_eq
        rw [same, shape.branch.root_height] at height
        omega
      obtain rfl := getParentBlock_eq shape (shape.known_mem _ mem_cons_self) higher found (shape.known_mem _ (by simp)) child
      have retracted := Spine.Shape.retract shape below
      simp only [spine, blocks, blockHashes]
      exact retracted
  · refine Triple.bind_same (Call.lift_triple (fun _ _ _ holds => holds) fun _ _ _ => Keeps.survived trivial) fun state => ?_
    exact .modify fun _ holds => holds

variable {attachBlocks : List Block}

theorem dropSideChain_shape (shape : chain.Shape known eternal headers)
    (beside : ∀ block ∈ attachBlocks, block.header ∈ known.headers ∧ block.header ∉ headers) :
    (dropSideChain attachBlocks chain).Shape known eternal headers := by
  induction attachBlocks generalizing chain with
  | nil => exact shape
  | cons block rest next =>
    rw [forall_mem_cons] at beside
    exact next (Spine.Shape.remove (Spine.Shape.dropOrphans shape _) beside.1.1 beside.1.2) beside.2

def Shaped (known : Known setup) (eternal : BlockHeader) (chain : BlockChain setup) : Prop :=
  ∃ headers, chain.Shape known eternal headers

structure SameCalls (chain other : BlockChain setup) : Prop where
  tail : other.tail = chain.tail
  blockExecuteResults : other.blockExecuteResults = chain.blockExecuteResults
  consensus : other.consensus = chain.consensus
  bus : other.bus = chain.bus
  log : other.log = chain.log

theorem SameCalls.refl (chain : BlockChain setup) : chain.SameCalls chain := ⟨rfl, rfl, rfl, rfl, rfl⟩

theorem SameCalls.trans {middle other : BlockChain setup} (before : chain.SameCalls middle)
    (after : middle.SameCalls other) : chain.SameCalls other where
  tail := after.tail.trans before.tail
  blockExecuteResults := after.blockExecuteResults.trans before.blockExecuteResults
  consensus := after.consensus.trans before.consensus
  bus := after.bus.trans before.bus
  log := after.log.trans before.log

theorem dropSideChain_sameCalls : chain.SameCalls (dropSideChain attachBlocks chain) := by
  induction attachBlocks generalizing chain with
  | nil => exact .refl chain
  | cons block rest next =>
    refine SameCalls.trans ?_ next
    exact ⟨rfl, rfl, rfl, rfl, rfl⟩

abbrev HoldsOn (known : Known setup) (eternal : BlockHeader) (kept : BlockChain setup → Prop)
    (headers : List BlockHeader) (chain : BlockChain setup) : Prop := chain.Shape known eternal headers ∧ kept chain

/-- What the parts of `ProcessBlock` keep. -/
def Holds (known : Known setup) (eternal : BlockHeader) (kept : BlockChain setup → Prop) (chain : BlockChain setup) :
    Prop := chain.Shaped known eternal ∧ kept chain

abbrev Maintains (known : Known setup) (eternal : BlockHeader) (kept : BlockChain setup → Prop)
    (action : Call setup Unit) : Prop :=
  Triple (Holds known eternal kept) action (fun _ => Holds known eternal kept) (Ended (Holds known eternal kept) kept)

variable {kept : BlockChain setup → Prop}

theorem connect_both (onto : Onto known headers block)
    (keeps : Triple (HoldsOn known eternal kept headers) (tryConnectBlockToMainChain block messageFrom) (fun _ => kept)
      (fun _ => kept)) :
    Triple (HoldsOn known eternal kept headers) (tryConnectBlockToMainChain block messageFrom)
      (fun after chain => after.header = block.header ∧ HoldsOn known eternal kept (block.header :: headers) chain)
      (Ended (HoldsOn known eternal kept headers) kept) := by
  have shaped : Triple (Shape known eternal headers) (tryConnectBlockToMainChain block messageFrom) _ _ :=
    tryConnectBlockToMainChain_shape onto
  exact .weaken (shaped.and keeps) (fun _ holds => ⟨holds.1, holds⟩)
    (fun _ _ holds => ⟨holds.1.1, holds.1.2, holds.2⟩)
    fun _ _ ended => ended.1.mono (fun shape => ⟨shape, ended.2⟩) fun _ => ended.2

def KeptBelow (known : Known setup) (eternal floor : BlockHeader) (kept : BlockChain setup → Prop) : Prop :=
  ∀ (block : Block) (rest : List BlockHeader), floor ∈ rest →
    Triple (HoldsOn known eternal kept (block.header :: rest)) (tryDisConnectBlockFromMainChain block) (fun _ => kept)
      (fun _ => kept)

variable {blocks : List Block} {base : List BlockHeader}

theorem KeptBelow.detach {floor : BlockHeader} (keptBelow : KeptBelow known eternal floor kept)
    (below : eternal ∈ base) (within : floor ∈ base) {failed : BlockChain setup → Prop} :
    Triple (HoldsOn known eternal kept (blocks.map header ++ base))
      (blocks.forM fun block => (tryDisConnectBlockFromMainChain block).orPanic)
      (fun _ => HoldsOn known eternal kept base) (Ended failed kept) := by
  refine .forM (fun blocks => HoldsOn known eternal kept (blocks.map header ++ base)) ?_
  intro block rest
  have below := mem_append_right (rest.map header) below
  have within := mem_append_right (rest.map header) within
  have shaped : Triple (Shape known eternal (block.header :: (rest.map header ++ base))) _ _ _ :=
    tryDisConnectBlockFromMainChain_shape below
  exact .orPanic (.of_pre (shaped.and (keptBelow block _ within)) fun _ holds => ⟨holds.1, holds⟩)
    fun _ _ holds => holds.2

/-- An assertion that connecting and disconnecting blocks above the floor keep, so that
`reorganize` keeps it. -/
structure Steady (known : Known setup) (eternal floor : BlockHeader) (messageFrom : PeerID)
    (kept : BlockChain setup → Prop) : Prop where
  frame : ∀ {chain other}, kept chain → chain.SameCalls other → kept other
  send : ∀ {chain}, kept chain → kept (chain.send .dynastyUpdate)
  connect : ∀ {headers block}, floor ∈ headers → Onto known headers block →
    Triple (HoldsOn known eternal kept headers) (tryConnectBlockToMainChain block messageFrom) (fun _ => kept)
      (fun _ => kept)
  disconnect : KeptBelow known eternal floor kept

namespace Steady

variable {floor : BlockHeader} {messageFrom : PeerID} {kept : BlockChain setup → Prop}

theorem connectAgain (steady : Steady known eternal floor messageFrom kept) {block : Block}
    (within : floor ∈ headers) (onto : Onto known headers block) :
    Triple (HoldsOn known eternal kept headers) (connectAgain messageFrom block)
      (fun after chain => after.header = block.header ∧ HoldsOn known eternal kept (block.header :: headers) chain)
      (Ended (HoldsOn known eternal kept headers) kept) := by
  refine .bind_same (.modify fun _ holds => ⟨holds.1, steady.send holds.2⟩) fun _ => ?_
  exact connect_both onto (steady.connect within onto)

end Steady

section
variable (chained : ((block :: blocks).reverse.map header ++ base).IsChain setup.links.ChildOf)
include chained

theorem chained_rest : (blocks.reverse.map header ++ (block.header :: base)).IsChain setup.links.ChildOf := by
  rwa [reverse_cons, map_append, append_assoc] at chained

theorem Onto.of_chained (filled : base ≠ []) (member : block.header ∈ known.headers) : Onto known base block := by
  obtain ⟨head, rest, rfl⟩ := exists_cons_of_ne_nil filled
  exact ⟨member, head, rfl, (isChain_cons_cons.mp (isChain_append.mp (chained_rest chained)).2.1).1⟩

end

/-- What `reorganize` needs to go back: the blocks it has detached go on from the fork. -/
structure Restorable (known : Known setup) (eternal : BlockHeader) (base : List BlockHeader) (detached : List Block) :
    Prop where
  eternal_mem : eternal ∈ base
  chained : (detached.map header ++ base).IsChain setup.links.ChildOf
  members : ∀ block ∈ detached, block.header ∈ known.headers

namespace Steady

variable {floor : BlockHeader} {messageFrom : PeerID} {kept : BlockChain setup → Prop}

variable {base : List BlockHeader}

section
variable (steady : Steady known eternal floor messageFrom kept)
include steady

theorem reconnect {blocks : List Block}
    (within : floor ∈ base) (chained : (blocks.reverse.map header ++ base).IsChain setup.links.ChildOf)
    (members : ∀ block ∈ blocks, block.header ∈ known.headers) {failed : BlockChain setup → Prop} :
    Triple (HoldsOn known eternal kept base)
      (blocks.forM fun block => do
        let _ ← (BlockChain.connectAgain messageFrom block).orPanic)
      (fun _ => HoldsOn known eternal kept (blocks.reverse.map header ++ base)) (Ended failed kept) := by
  induction blocks generalizing base with
  | nil => exact .pure fun _ holds => holds
  | cons block rest next =>
    rw [forall_mem_cons] at members
    rw [reverse_cons, map_append, append_assoc]
    refine .bind (fun _ => HoldsOn known eternal kept (block.header :: base)) ?_ fun _ =>
      next (mem_cons_of_mem _ within) (chained_rest chained) members.2
    have onto := Onto.of_chained chained (ne_nil_of_mem within) members.1
    refine .bind _ (.orPanic (steady.connectAgain within onto)
      fun _ _ ended => ended.anyway fun holds => holds.2) fun after => ?_
    exact .pure fun _ holds => holds.2

theorem rollBack {attached detached : List Block}
    (restorable : Restorable known eternal base detached) (within : floor ∈ base) {failed : BlockChain setup → Prop} :
    Triple (HoldsOn known eternal kept (attached.map header ++ base)) (rollBack messageFrom attached detached)
      (fun _ => HoldsOn known eternal kept (detached.map header ++ base)) (Ended failed kept) := by
  refine .bind _ (steady.disconnect.detach restorable.eternal_mem within) fun _ => ?_
  have chained : (detached.reverse.reverse.map header ++ base).IsChain setup.links.ChildOf := by
    rw [reverse_reverse]
    exact restorable.chained
  refine .weaken (steady.reconnect within chained fun block among => restorable.members block
    (mem_reverse.mp among)) (fun _ holds => holds) (fun _ _ holds => ?_) fun _ _ holds => holds
  rwa [reverse_reverse] at holds

theorem attach {detached : List Block}
    (restorable : Restorable known eternal base detached) (within : floor ∈ base) {blocks attached : List Block}
    (chained : (blocks.reverse.map header ++ (attached.map header ++ base)).IsChain setup.links.ChildOf)
    (members : ∀ block ∈ blocks, block.header ∈ known.headers) :
    Triple (HoldsOn known eternal kept (attached.map header ++ base)) (attach messageFrom detached blocks attached)
      (fun _ => Holds known eternal kept) (Ended (Holds known eternal kept) kept) := by
  induction blocks generalizing attached with
  | nil => exact .pure fun _ holds => ⟨⟨_, holds.1⟩, holds.2⟩
  | cons block rest next =>
    rw [forall_mem_cons] at members
    have within' := mem_append_right (attached.map header) within
    have onto := Onto.of_chained chained (ne_nil_of_mem within') members.1
    refine .bind _ (.attempt (steady.connectAgain within' onto) fun _ holds => holds) fun result => ?_
    cases result with
    | ok after =>
      refine .of_start fun start holds => ?_
      obtain ⟨same, shape, holds⟩ := holds.1 after rfl
      rw [← same] at shape
      refine .of_pre (next ?_ members.2) fun _ eq => eq ▸ ⟨shape, holds⟩
      rw [map_cons, cons_append, same]
      exact chained_rest chained
    | error err =>
      refine .bind _ (.of_pre (steady.rollBack restorable within) fun _ holds => holds.2 err rfl) fun _ => ?_
      exact .fail fun _ holds => ⟨⟨_, holds.1⟩, holds.2⟩

end

end Steady

/-- What `reorganize` knows when it has found the fork at or above the eternal block. -/
structure Forked (known : Known setup) (eternal : BlockHeader) (headers : List BlockHeader) (block fork : Block)
    (detached attachBlocks : List Block) (others : List BlockHeader) : Prop where
  split : headers = detached.map header ++ fork.header :: others
  climb : known.Climb block.header (attachBlocks.map header) fork.header
  restorable : Restorable known eternal (fork.header :: others) detached
  chained : (attachBlocks.map header ++ (fork.header :: others)).IsChain setup.links.ChildOf

theorem Forked.of_findFork (shape : chain.Shape known eternal headers) {fork : Block}
    {detached : List Block} (linked : known.Linked block.header)
    (found : chain.findFork block = .ok (fork, detached, attachBlocks))
    (above : ¬fork.header.height < chain.eternal.header.height) :
    ∃ others, Forked known eternal headers block fork detached attachBlocks others := by
  obtain ⟨others, split, climb, -⟩ := findFork_ok shape linked found
  have eternalLow : setup.links.height eternal ≤ setup.links.height fork.header := by
    change eternal.height.toNat ≤ fork.header.height.toNat
    rw [← shape.eternal_eq]
    exact UInt32.not_lt.mp above
  have chained := split ▸ shape.branch.linked
  refine ⟨others, split, climb, ⟨?_, chained, ?_⟩, ?_⟩
  · exact Links.mem_of_height_le shape.branch.linked split shape.eternal_mem eternalLow
  · intro block among
    exact shape.known_mem _ (by rw [split]; exact mem_append_left _ (mem_map_of_mem among))
  · have lower := (isChain_append.mp chained).2.1
    have upper := climb.chained
    rw [isChain_append] at upper ⊢
    exact ⟨upper.1, lower, upper.2.2⟩

abbrev Attaches (known : Known setup) (eternal : BlockHeader) (kept : BlockChain setup → Prop) (messageFrom : PeerID)
    (fork : Block) (others : List BlockHeader) (detached blocks : List Block) : Prop :=
  Triple (HoldsOn known eternal kept (fork.header :: others)) (attach messageFrom detached blocks [])
    (fun _ => Holds known eternal kept) (Ended (Holds known eternal kept) kept)

/-- A reorganisation keeps what attaching the blocks keeps, and leaves a branch whether it
succeeds or is rolled back. -/
theorem reorganize_keeps (frame : ∀ {chain other}, kept chain → chain.SameCalls other → kept other)
    (keptBelow : KeptBelow known eternal eternal kept) (linked : known.Linked block.header)
    (attaches : ∀ {headers fork detached attachBlocks others},
      Forked known eternal headers block fork detached attachBlocks others →
      Attaches known eternal kept messageFrom fork others detached attachBlocks.reverse) :
    Maintains known eternal kept (reorganize block messageFrom) := by
  refine .get_bind fun chain both => ?_
  obtain ⟨⟨headers, shape⟩, holds⟩ := both
  refine .bind (fun found after => after = chain ∧ chain.findFork block = .ok found)
    (.lift (fun found ok _ same => ⟨same, ok⟩) fun _ _ _ same => ?_) fun found => ?_
  · exact same ▸ .intro (fun holds => holds.2) ⟨⟨headers, shape⟩, holds⟩
  obtain ⟨fork, detached, attachBlocks⟩ := found
  refine .of_start fun start found => ?_
  obtain ⟨rfl, found⟩ := found
  dsimp only
  split
  · refine .modify ?_
    rintro _ rfl
    obtain ⟨others, -, climb, off⟩ := findFork_ok shape linked found
    have beside : ∀ block ∈ attachBlocks, block.header ∈ known.headers ∧ block.header ∉ headers := fun block among =>
      ⟨(climb.linked _ (mem_append_left _ (mem_map_of_mem among))).1, off _ (mem_map_of_mem among)⟩
    exact ⟨⟨headers, dropSideChain_shape shape beside⟩, frame holds dropSideChain_sameCalls⟩
  · next above =>
    obtain ⟨others, forked⟩ := Forked.of_findFork shape linked found above
    have below := forked.restorable.eternal_mem
    refine .bind _ (.of_pre (keptBelow.detach below below) ?_) fun _ => attaches forked
    rintro _ rfl
    exact ⟨forked.split ▸ shape, holds⟩

theorem Steady.attach_forked {floor : BlockHeader}
    (steady : Steady known eternal floor messageFrom kept) {fork : Block} {detached : List Block}
    {others : List BlockHeader} (forked : Forked known eternal headers block fork detached attachBlocks others)
    (within : floor ∈ fork.header :: others) :
    Attaches known eternal kept messageFrom fork others detached attachBlocks.reverse := by
  have chained : (attachBlocks.reverse.reverse.map header ++
      (([] : List Block).map header ++ (fork.header :: others))).IsChain setup.links.ChildOf := by
    rw [reverse_reverse]
    exact forked.chained
  exact steady.attach forked.restorable within chained fun block among =>
    (forked.climb.linked block.header (mem_append_left _ (mem_map_of_mem (mem_reverse.mp among)))).1

section
variable (steady : Steady known eternal eternal messageFrom kept)
include steady

theorem Steady.reorganize (linked : known.Linked block.header) :
    Maintains known eternal kept (BlockChain.reorganize block messageFrom) :=
  reorganize_keeps steady.frame steady.disconnect linked fun forked =>
    steady.attach_forked forked forked.restorable.eternal_mem

/-- An assertion that `ProcessBlock` keeps when it is about blocks that can be reached
from the one it was called for. -/
structure Upheld (known : Known setup) (eternal : BlockHeader) (messageFrom : PeerID) (reached : BlockHeader → Prop)
    (kept : BlockChain setup → Prop) : Prop where
  frame : ∀ {chain other}, kept chain → chain.SameCalls other → kept other
  grows : ∀ {parent child}, reached parent → child ∈ known.headers → setup.links.ChildOf child parent → reached child
  connect : ∀ {headers block}, reached block.header → eternal ∈ headers → Onto known headers block →
    Triple (HoldsOn known eternal kept headers) (tryConnectBlockToMainChain block messageFrom) (fun _ => kept)
      (fun _ => kept)
  reorganize : ∀ {block}, reached block.header → known.Linked block.header →
    Maintains known eternal kept (BlockChain.reorganize block messageFrom)

theorem Steady.upheld : Upheld known eternal messageFrom (fun _ => True) kept where
  frame := steady.frame
  grows _ _ _ := trivial
  connect _ within onto := steady.connect within onto
  reorganize _ linked := steady.reorganize linked

end

namespace Upheld

variable {messageFrom : PeerID} {reached : BlockHeader → Prop} {kept : BlockChain setup → Prop}

variable {block : Block}

section
variable (upheld : Upheld known eternal messageFrom reached kept)
include upheld

theorem tryAcceptBlock (low : known.Low)
    {orphans : Block → Call setup Unit} (member : block.header ∈ known.headers)
    (reaches : ∀ parent ∈ known.headers, setup.links.ChildOf block.header parent → reached block.header)
    (keeps : reached block.header → Maintains known eternal kept (orphans block)) :
    Triple (Holds known eternal kept) (tryAcceptBlock orphans block messageFrom)
      (fun _ chain => Holds known eternal kept chain ∧ reached block.header) (Ended (Holds known eternal kept) kept) := by
  refine .get_bind fun chain both => ?_
  have unchanged : ∀ after, after = chain → Holds known eternal kept after := fun _ same => same ▸ both
  obtain ⟨⟨headers, shape⟩, holds⟩ := both
  split
  · exact .fail unchanged
  · next parentBlock found =>
    split
    · exact .fail unchanged
    · next level =>
      rw [not_not] at level
      have higher : block.header ≠ setup.genesisBlock.header := by
        intro same
        have parent : parentBlock = setup.genesisBlock := by
          rw [getParentBlock, if_pos (.inl (by rw [same]; rfl))] at found
          exact (some.inj found).symm
        rw [same, parent, setup.genesis_height] at level
        exact absurd level (by decide)
      obtain ⟨parentLinked, link⟩ := getParentBlock_linked shape member found
      have child := Known.childOf low parentLinked.1 (link higher) level
      have linked : known.Linked block.header := ⟨member, .inr ⟨parentBlock.header, parentLinked.1, child⟩⟩
      have reach := reaches _ parentLinked.1 child
      split
      · next onTail =>
        have tail := shape.tail_eq
        have same : parentBlock.header = chain.tail.header := known.injOn parentLinked.1
          (shape.known_mem _ (mem_of_head? tail)) ((link higher).symm.trans onTail)
        rw [same] at child
        have onto : Onto known headers block := ⟨member, _, tail, child⟩
        refine .bind (fun _ => Holds known eternal kept) ?_ fun _ => .pure fun _ holds => ⟨holds, reach⟩
        refine .weaken (connect_both onto (upheld.connect reach shape.eternal_mem onto)) ?_
          (fun _ _ holds => ⟨⟨_, holds.2.1⟩, holds.2.2⟩) fun _ _ ended =>
          ended.mono (fun holds => ⟨⟨_, holds.1⟩, holds.2⟩) fun holds => holds
        rintro _ rfl
        exact ⟨shape, holds⟩
      · split
        · split
          · refine .bind (fun _ => Holds known eternal kept) (.modify ?_) fun _ => ?_
            · rintro _ rfl
              exact ⟨⟨headers, Spine.Shape.store shape linked⟩, upheld.frame holds ⟨rfl, rfl, rfl, rfl, rfl⟩⟩
            · exact .bind _ (keeps reach) fun _ => .fail fun _ holds => holds
          · exact .fail unchanged
        · exact .weaken (upheld.reorganize reach linked) unchanged (fun _ _ holds => ⟨holds, reach⟩)
            fun _ _ ended => ended

theorem acceptOrphans {accept : Block → Call setup Unit} (keeps : ∀ block, block.header ∈ known.headers →
      (∀ parent ∈ known.headers, setup.links.ChildOf block.header parent → reached block.header) →
      Triple (Holds known eternal kept) (accept block)
        (fun _ chain => Holds known eternal kept chain ∧ reached block.header) (Ended (Holds known eternal kept) kept))
    {turns : Nat} {acceptedBlocks : List Block}
    (members : ∀ block ∈ acceptedBlocks, block.header ∈ known.headers ∧ reached block.header) :
    Maintains known eternal kept (acceptOrphans accept turns acceptedBlocks) := by
  induction turns generalizing acceptedBlocks with
  | zero =>
    cases acceptedBlocks with
    | nil => exact .pure fun _ holds => holds
    | cons _ _ => exact .panicked fun _ holds => holds.2
  | succ turns next =>
    cases acceptedBlocks with
    | nil => exact .pure fun _ holds => holds
    | cons acceptedBlock acceptedBlocks =>
      rw [forall_mem_cons] at members
      refine .get_bind fun chain both => ?_
      have children : ∀ orphan ∈ (chain.orphanBlockHashToChildren.lookup (setup.blockHash acceptedBlock.header)).getD [],
          orphan.header ∈ known.headers ∧
            orphan.header.prevBlockHash = setup.blockHash acceptedBlock.header := by
        obtain ⟨⟨headers, shape⟩, -⟩ := both
        intro orphan among
        cases found : chain.orphanBlockHashToChildren.lookup (setup.blockHash acceptedBlock.header) with
        | none =>
          rw [found] at among
          cases among
        | some orphans =>
          rw [found] at among
          exact shape.orphans _ orphans found orphan among
      generalize (chain.orphanBlockHashToChildren.lookup (setup.blockHash acceptedBlock.header)).getD [] = orphans at children ⊢
      -- an orphan that still waits is not known to be reached
      refine .bind (fun _ chain => Holds known eternal kept chain ∧ ∀ orphan ∈ orphans, reached orphan.header)
        (.weaken (.forM (fun left chain => Holds known eternal kept chain ∧ left ⊆ orphans ∧
          ∀ orphan ∈ orphans, orphan ∈ left ∨ reached orphan.header) fun orphan rest => ?_) ?_ ?_
          fun _ _ ended => ended) fun _ => ?_
      · refine .of_start fun start holds => ?_
        obtain ⟨holds, inside, waiting⟩ := holds
        have among := inside mem_cons_self
        refine .bind (fun _ => Holds known eternal kept) (.modify ?_) fun _ => ?_
        · rintro _ rfl
          exact ⟨holds.1, upheld.frame holds.2 ⟨rfl, rfl, rfl, rfl, rfl⟩⟩
        · refine .weaken (keeps orphan (children orphan among).1 fun parent known child => ?_)
            (fun _ holds => holds) (fun _ _ holds => ⟨holds.1, subset_of_cons_subset inside, ?_⟩)
            fun _ _ ended => ended
          · have same : parent = acceptedBlock.header :=
              Known.injOn _ known members.1.1 (child.1.symm.trans (children orphan among).2)
            rw [same] at child
            exact upheld.grows members.1.2 (children orphan among).1 child
          · intro other between
            obtain first | last := waiting other between
            · obtain rfl | later := mem_cons.mp first
              · exact .inr holds.2
              · exact .inl later
            · exact .inr last
      · rintro _ rfl
        exact ⟨both, fun _ among => among, fun _ among => .inl among⟩
      · rintro - final ⟨holds, -, done⟩
        exact ⟨holds, fun orphan among => (done orphan among).resolve_left not_mem_nil⟩
      · refine .of_start fun start holds => ?_
        obtain ⟨⟨⟨headers, shape⟩, holds⟩, done⟩ := holds
        refine .bind (fun _ => Holds known eternal kept) (.modify ?_) fun _ => next ?_
        · rintro _ rfl
          exact ⟨⟨headers, Spine.Shape.dropOrphans shape _⟩, upheld.frame holds ⟨rfl, rfl, rfl, rfl, rfl⟩⟩
        · intro block among
          obtain before | orphan := mem_append.mp among
          · exact members.2 block before
          · exact ⟨(children block orphan).1, done block orphan⟩

theorem processOrphans (low : known.Low) {depth : Nat}
    (member : block.header ∈ known.headers) (reach : reached block.header) :
    Maintains known eternal kept (processOrphans messageFrom depth block) := by
  induction depth generalizing block with
  | zero => exact .panicked fun _ holds => holds.2
  | succ depth next =>
    refine .bind_same (.get fun _ holds => holds) fun chain => ?_
    refine upheld.acceptOrphans (fun orphan known reaches => upheld.tryAcceptBlock low known reaches fun reach =>
      next known reach) fun accepted among => ?_
    rw [mem_singleton.mp among]
    exact ⟨member, reach⟩

theorem processBlock (low : known.Low) (member : block.header ∈ known.headers) (reach : reached block.header) :
    Maintains known eternal kept (processBlock block messageFrom) := by
  have ended : ∀ (fault : Fault BlockError) chain, Holds known eternal kept chain →
      Ended (Holds known eternal kept) kept fault chain :=
    fun _ _ holds => .intro (fun holds => holds.2) holds
  refine .bind_same (.get fun _ holds => holds) fun chain => ?_
  split
  · exact .fail (ended _)
  · have fresh : Triple (Holds known eternal kept) (verifyRepeatedMint block) (fun _ => Holds known eternal kept)
        (Ended (Holds known eternal kept) kept) := by
      refine .bind_same (.get fun _ holds => holds) fun chain => ?_
      refine .bind_same (.modify fun _ holds => ?_) fun _ =>
        .pure fun _ holds => holds
      exact ⟨holds.1, upheld.frame holds.2 ⟨rfl, rfl, rfl, rfl, rfl⟩⟩
    refine .bind _ fresh fun ok => ?_
    split
    · exact .fail (ended _)
    · refine .get_bind fun chain holds => ?_
      refine .bind (fun validated after => validated.header = block.header ∧ after = chain)
        (Call.lift_triple (fun validated ok _ same => ⟨setup.validateBlock_header ok, same⟩)
          fun fault _ same => same ▸ ended fault _ holds) fun validated => ?_
      refine .of_start fun start same => ?_
      obtain ⟨header, rfl⟩ := same
      rw [← header] at member reach
      have unchanged : ∀ after, after = start → Holds known eternal kept after := fun _ same => same ▸ holds
      split
      · split
        · exact .pure unchanged
        · refine .modify ?_
          rintro _ rfl
          obtain ⟨⟨headers, shape⟩, holds⟩ := holds
          exact ⟨⟨headers, shape.addOrphan member⟩, upheld.frame holds ⟨rfl, rfl, rfl, rfl, rfl⟩⟩
      · refine .bind (fun _ => Holds known eternal kept) (.weaken (upheld.tryAcceptBlock low member
          (fun _ _ _ => reach) fun reach => upheld.processOrphans low member reach) unchanged
          (fun _ _ holds => holds.1) fun _ _ ended => ended) fun _ => ?_
        exact upheld.processOrphans low member reach

end

end Upheld

theorem steady_shape : Steady known eternal eternal messageFrom (fun _ => True) where
  frame _ _ := trivial
  send _ := trivial
  connect _ _ := .weaken .trivial (fun _ _ => trivial) (fun _ _ _ => trivial) fun _ _ _ => trivial
  disconnect _ _ _ := .weaken .trivial (fun _ _ => trivial) (fun _ _ _ => trivial) fun _ _ _ => trivial

theorem processBlock_shaped (low : known.Low) (member : block.header ∈ known.headers) :
    Keeps (Shaped known eternal) (processBlock block messageFrom) :=
  .weaken (steady_shape.upheld.processBlock low member trivial) (fun _ shaped => ⟨shaped, trivial⟩)
    (fun _ _ holds => holds.1) fun _ _ ended => ended.mono (fun holds => holds.1) fun _ => trivial

theorem updateEternal_shape (member : block.header ∈ known.headers) :
    Triple (Shape known eternal headers) (updateEternal block)
      (fun _ chain => ∃ later, chain.Shape known later headers ∧ known.Descends later eternal)
      (Survived fun _ => False) := by
  refine .get_bind fun chain shape => ?_
  split
  · refine .pure ?_
    rintro _ rfl
    exact ⟨eternal, shape, .refl⟩
  · next higher =>
    have same : chain.eternal.header = eternal := shape.eternal_eq
    rw [UInt32.not_le, same] at higher
    refine .bind (fun found after => after = chain ∧ chain.loadBlockByHeight block.header.height = some found)
      (.lift (fun found ok _ same => ⟨same, expect_ok ok⟩) ?_) fun found => ?_
    · intro fault missing
      cases loaded : chain.loadBlockByHeight block.header.height <;> rw [loaded] at missing <;> cases missing
      exact fun _ _ => trivial
    · refine .of_start fun start holds => ?_
      obtain ⟨rfl, loaded⟩ := holds
      split
      · refine .pure ?_
        rintro _ rfl
        exact ⟨eternal, shape, .refl⟩
      · next sameHash =>
        rw [not_not] at sameHash
        have positive : block.header.height ≠ 0 := by
          intro zero
          rw [zero] at higher
          exact absurd higher (UInt32.not_lt_zero)
        rw [loadBlockByHeight, if_neg positive] at loaded
        obtain ⟨hash, indexed, loaded⟩ := bind_eq_some_iff.mp loaded
        obtain ⟨header, among, level, hashed⟩ := (shape.index _ hash positive).mp indexed
        obtain ⟨stored, held, rfl⟩ := map_eq_some_iff.mp loaded
        have same : header = block.header := known.injOn (shape.known_mem _ among) member
          (by rw [hashed, (shape.stored hash stored held).1]; exact sameHash)
        subst same
        obtain ⟨front, rest, split⟩ := append_of_mem among
        have below := Links.mem_of_height_le shape.branch.linked split shape.eternal_mem
          (UInt32.le_iff_toNat_le.mp (UInt32.le_of_lt higher))
        have suffix := (isChain_append.mp (split ▸ shape.branch.linked)).2.1
        have descends : known.Descends block.header eternal := Links.descends_of_mem suffix
            (fun node inside => shape.known_mem _ (by rw [split]; exact mem_append_right _ inside)) rfl below
        refine .modify ?_
        rintro _ rfl
        exact ⟨block.header, { shape with eternal_eq := rfl, eternal_mem := among }, descends⟩

namespace Event

def About (known : Known setup) : Event → Prop
  | .processBlock block _ => block.header ∈ known.headers
  | .updateEternal block => block.header ∈ known.headers
  | .executeBlock _ _ _ => True
  | .deliver => True

end Event

def ShapedAbove (known : Known setup) (first : BlockHeader) (chain : BlockChain setup) : Prop :=
  chain.Shaped known chain.eternal.header ∧ known.Descends chain.eternal.header first

variable {first : BlockHeader}

theorem keeps_shapedAbove {action : Call setup Unit}
    (keeps : ∀ eternal, Keeps (Shaped known eternal) action) : Keeps (ShapedAbove known first) action := by
  refine .of_start fun start above => ?_
  have after : ∀ final, final.Shaped known start.eternal.header → ShapedAbove known first final := by
    rintro final ⟨headers, shape⟩
    have same : final.eternal.header = start.eternal.header := shape.eternal_eq
    exact ⟨same ▸ ⟨headers, shape⟩, same ▸ above.2⟩
  exact .weaken (keeps start.eternal.header) (by rintro _ rfl; exact above.1) (fun _ => after)
    fun _ _ survived => survived.mono (after _) fun _ => trivial

theorem step_shapedAbove (low : known.Low) {event : Event} (about : event.About known) :
    Keeps (ShapedAbove known first) (step event : Call setup Unit) := by
  cases event with
  | processBlock block messageFrom => exact keeps_shapedAbove fun _ => processBlock_shaped low about
  | updateEternal block =>
    refine .of_start fun start above => ?_
    obtain ⟨⟨headers, shape⟩, descends⟩ := above
    refine .weaken (updateEternal_shape about) (by rintro _ rfl; exact shape) ?_
      fun _ _ survived => survived.mono False.elim fun _ => trivial
    rintro - final ⟨later, shape, higher⟩
    have same : final.eternal.header = later := shape.eternal_eq
    exact ⟨same ▸ ⟨headers, shape⟩, same ▸ higher.trans descends⟩
  | executeBlock block reward totalTransferFee =>
    refine keeps_shapedAbove fun eternal => .bind ?_ fun _ => .pure _
    refine .bind .get fun chain => .bind (Call.lift_keeps _) fun parent => ?_
    refine .bind (Call.lift_keeps _) fun state => .bind (Call.lift_keeps _) fun result => ?_
    exact .bind (.modify fun _ holds => holds) fun _ => .pure _
  | deliver =>
    refine keeps_shapedAbove fun eternal => .modify ?_
    intro chain shaped
    split <;> exact shaped

theorem Upheld.ends {reached : BlockHeader → Prop}
    (upheld : ∀ eternal, Upheld known eternal messageFrom reached kept) (low : known.Low)
    (member : block.header ∈ known.headers) (reach : reached block.header) :
    Triple (fun chain => ShapedAbove known first chain ∧ kept chain) (BlockChain.processBlock block messageFrom)
      (fun _ => kept) (fun _ => kept) := by
  refine .of_start fun start both => ?_
  refine .weaken ((upheld start.eternal.header).processBlock low member reach) ?_ (fun _ _ holds => holds.2)
    fun _ _ ended => ended.anyway fun holds => holds.2
  rintro _ rfl
  exact ⟨both.1.1, both.2⟩

/-- Along a run the shape is kept together with any assertion that each call keeps. -/
theorem runs_keep {events : List Event}
    {start final : BlockChain setup} (ran : Runs step start events final) (low : known.Low)
    (about : ∀ event ∈ events, event.About known)
    (each : ∀ event ∈ events, Triple (fun chain => ShapedAbove known first chain ∧ kept chain) (step event : Call setup Unit)
      (fun _ => kept) (fun _ => kept))
    (holds : ShapedAbove known first start ∧ kept start) : ShapedAbove known first final ∧ kept final := by
  have keeps : ∀ event ∈ events, Keeps (fun chain => ShapedAbove known first chain ∧ kept chain) (step event) := by
    intro event among
    exact .weaken ((step_shapedAbove low (about event among)).and (each event among))
      (fun _ both => ⟨both.1, both⟩) (fun _ _ both => both)
      fun _ _ ended => ended.1.mono (fun shaped => ⟨shaped, ended.2⟩) fun _ => trivial
  exact ran.keeps keeps holds

structure Fresh (chain : BlockChain setup) : Prop where
  blocks : chain.records.blocks = (∅ : Table HashType Block).insert setup.genesisHash setup.genesisBlock
  blockHashes : chain.records.blockHashes = ∅
  tail : chain.tail = setup.genesisBlock
  eternal : chain.eternal = setup.genesisBlock
  longest : chain.longestChainHeight = 0
  orphans : chain.orphanBlockHashToChildren = ∅

theorem Fresh.shape (fresh : chain.Fresh) (known : Known setup) :
    chain.Shape known setup.genesisBlock.header [setup.genesisBlock.header] where
  branch := ⟨isChain_singleton _, rfl, by rw [setup.links_height, setup.genesis_height]; rfl⟩
  known_mem := by simpa using known.genesis_mem
  tail_eq := by rw [spine, fresh.tail]; rfl
  index := by
    intro height hash positive
    rw [spine, fresh.blockHashes]
    constructor
    · rintro ⟨⟩
    · rintro ⟨header, among, level, -⟩
      rw [mem_singleton.mp among, setup.genesis_height] at level
      exact absurd level.symm positive
  longest_eq := by rw [spine, fresh.longest, fresh.tail, setup.genesis_height]
  eternal_eq := by rw [spine, fresh.eternal]
  eternal_mem := mem_singleton_self _
  stored := by
    intro hash block found
    rw [spine, fresh.blocks] at found
    obtain ⟨rfl, rfl⟩ | ⟨-, ⟨⟩⟩ := Table.lookup_insert_cases found
    exact ⟨rfl, Known.genesis_linked⟩
  held := by
    rw [forall_mem_singleton, spine, fresh.blocks]
    change (lookup setup.genesisHash (insert setup.genesisHash _ _)).isSome = true
    rw [lookup_insert]
    rfl
  orphans := by
    intro hash orphans found
    rw [spine, fresh.orphans] at found
    cases found

theorem Fresh.shapedAbove (fresh : chain.Fresh) (known : Known setup) :
    ShapedAbove known setup.genesisBlock.header chain := by
  rw [ShapedAbove, fresh.eternal]
  exact ⟨⟨_, fresh.shape known⟩, .refl⟩

/-- The index lists the ancestors of the tail by their height and nothing above the
tail, and the eternal block is one of them. -/
structure Indexed (known : Known setup) (chain : BlockChain setup) : Prop where
  ancestor : ∀ height ≤ chain.tail.header.height, ∃ header, known.Descends chain.tail.header header ∧
    header.height = height ∧ chain.getBlockHash height = some (setup.blockHash header)
  above : ∀ height > chain.tail.header.height, chain.getBlockHash height = none
  eternal : known.Descends chain.tail.header chain.eternal.header

theorem Shape.header_at (shape : chain.Shape known eternal headers) {height : UInt32}
    (below : height ≤ chain.tail.header.height) :
    ∃ header ∈ headers, header.height = height ∧ chain.getBlockHash height = some (setup.blockHash header) := by
  obtain ⟨header, among, level⟩ := shape.branch.exists_mem_height shape.tail_eq (UInt32.le_iff_toNat_le.mp below)
  have level : header.height = height := UInt32.toNat_inj.mp level
  refine ⟨header, among, level, ?_⟩
  unfold getBlockHash
  split
  · next zero =>
    have root := shape.branch.eq_root among (by rw [setup.links_height, level, zero]; rfl)
    rw [root]
    rfl
  · next positive => exact (shape.index height _ positive).mpr ⟨header, among, level, rfl⟩

theorem Shape.getBlockHash_above (shape : chain.Shape known eternal headers) {height : UInt32}
    (higher : chain.tail.header.height < height) : chain.getBlockHash height = none := by
  have positive : height ≠ 0 := by
    rintro rfl
    exact absurd higher UInt32.not_lt_zero
  rw [getBlockHash, if_neg positive, eq_none_iff_forall_ne_some]
  intro hash found
  obtain ⟨header, among, level, -⟩ := (shape.index height hash positive).mp found
  have bound := shape.height_le among
  rw [level] at bound
  exact absurd (UInt32.lt_iff_toNat_lt.mp higher) (not_lt.mpr bound)

theorem Shape.indexed (shape : chain.Shape known chain.eternal.header headers) : chain.Indexed known := by
  have descends : ∀ header ∈ headers, known.Descends chain.tail.header header := fun header among =>
    Links.descends_of_mem shape.branch.linked shape.known_mem shape.tail_eq among
  refine ⟨fun height below => ?_, fun height higher => shape.getBlockHash_above higher, descends _ shape.eternal_mem⟩
  obtain ⟨header, among, level, hash⟩ := shape.header_at below
  exact ⟨header, descends header among, level, hash⟩

/-- Whatever a node is told, in whatever order, its index lists the ancestors of its
tail, and its eternal block is one of them and only moves to a descendant. Heights
must not start again from zero. -/
theorem main_chain_indexed (known : Known setup) (low : known.Low) {start middle final : BlockChain setup}
    {before after : List Event} (fresh : start.Fresh) (aboutBefore : ∀ event ∈ before, event.About known)
    (aboutAfter : ∀ event ∈ after, event.About known) (ranBefore : Runs step start before middle)
    (ranAfter : Runs step middle after final) :
    final.Indexed known ∧ known.Descends final.eternal.header middle.eternal.header := by
  have between := ranBefore.keeps (fun event among => step_shapedAbove low (aboutBefore event among))
    (fresh.shapedAbove known)
  have last : ShapedAbove known middle.eternal.header final :=
    ranAfter.keeps (fun event among => step_shapedAbove low (aboutAfter event among)) ⟨between.1, .refl⟩
  obtain ⟨⟨headers, shape⟩, descends⟩ := last
  exact ⟨Shape.indexed shape, descends⟩

end BlockChain

def openWorld : World where
  State := Unit
  new _ _ := some ()
  stateDB _ := ⟨fun _ => false, fun _ => none, fun _ => 0, fun _ => 0⟩
  addBalance _ _ _ := ()
  subBalance _ _ _ := ()
  updateUtxo _ _ _ := some ()
  commit _ := some (zeroHash, none, ())

def countedHash (number : Nat) : HashType := .copy 32 (bytesLE 8 number)

def countedHeader (number : Nat) : BlockHeader where
  version := 1
  prevBlockHash := countedHash (number - 1)
  txsRoot := zeroHash
  internalTxsRoot := zeroHash
  utxoRoot := zeroHash
  receiptHash := zeroHash
  timeStamp := 0
  magic := 0
  rootHash := zeroHash
  dynastyHash := zeroHash
  height := .ofNat number
  gasUsed := .ofNat number
  bookKeeper := if number % 2 = 0 then zeroAddressHash else .fill 20 1
  bloom := []

def countedBlock (number : Nat) : Block := ⟨countedHeader number, [], [], [], none⟩

def openSetup : Setup where
  crypto := Script.sampleCrypto
  pow10 := samplePow10
  world := openWorld
  genesis := ⟨zeroAddressHash, zeroAddressHash, fun _ => none⟩
  Receipt := Unit
  receiptsHash _ := zeroHash
  withTxHash _ receipt := receipt
  createReceiptsBloom _ := []
  process _ _ state utxoSet := some ([], 0, [], state, utxoSet)
  getNetParams _ := none
  blockHash header := .copy 32 (bytesLE 8 header.gasUsed.toNat)
  genesisBlock := countedBlock 0
  bookkeeper := zeroAddressHash
  depth := 1
  consensus := ⟨Unit, fun _ _ => pure (), fun _ _ => pure (), fun _ service => service⟩
  validateBlock block _ := .ok block
  adjustAndValidateState env _ _ block _ := do
    let state ← orFail .stateNotFound (env.world.new block.header.rootHash block.header.utxoRoot)
    return (⟨state, [], UtxoSet.new⟩, block)
  dynastySwitchTopics _ := 0
  dynastySwitches _ _ _ _ _ _ := 0
  genesis_height := rfl
  validateBlock_header ok := by cases ok; rfl
  adjustAndValidateState_header ok := by
    obtain ⟨state, -, done⟩ := bind_ok_iff.mp ok
    cases done
    rfl

namespace BlockChain

def writing (chain : BlockChain openSetup) (block : Block) : BlockChain openSetup :=
  let hash := openSetup.blockHash block.header
  { chain with
    records := { chain.records with
      blocks := (chain.records.blocks.insert hash block).insert hash block
      blockHashes := chain.records.blockHashes.insert block.header.height hash
      tail := block } }

def connected (chain : BlockChain openSetup) (block : Block) : BlockChain openSetup :=
  { writing chain block with
    tail := block
    tailState := ()
    longestChainHeight := block.header.height
    repeatedMintCache := chain.repeatedMintCache.add block.header.timeStamp block
    log := chain.log ++ [.verified block chain.view ()] ++ [.finalized block (writing chain block).view ()] ++
      [.sealed block none] ++ [.connected block "peer" chain.tail chain.records (.ok ())] }

theorem connects (chain : BlockChain openSetup) (number : Nat) :
    (tryConnectBlockToMainChain (countedBlock number) "peer").Returns chain (countedBlock number)
      (chain.connected (countedBlock number)) := by
  rfl

theorem countedHash_injective {left right : Nat} (leftSmall : left ≤ 2 ^ 32) (rightSmall : right ≤ 2 ^ 32)
    (same : countedHash left = countedHash right) : left = right := by
  have bytes := congrArg (fun hash => hash.bytes.take 8) same
  simp only [countedHash, FixedBytes.copy, take_take] at bytes
  rw [take_left' (by simp), take_left' (by simp)] at bytes
  have numbers := congrArg natLE bytes
  rw [natLE_bytesLE, natLE_bytesLE] at numbers
  omega

variable {number : Nat}

theorem openSetup_blockHash (small : number ≤ 2 ^ 32) :
    openSetup.blockHash (countedHeader number) = countedHash number := by
  have same : (countedHeader number).gasUsed.toNat = number := by
    rw [countedHeader, UInt64.toNat_ofNat', mod_eq_of_lt (by omega)]
  change FixedBytes.copy 32 (bytesLE 8 (countedHeader number).gasUsed.toNat) = _
  rw [same]
  rfl

structure Counted (number : Nat) (chain : BlockChain openSetup) : Prop where
  stored : chain.records.blocks.lookup (countedHash number) = some (countedBlock number)
  unseen : ∀ later, number < later → later ≤ 2 ^ 32 → chain.records.blocks.lookup (countedHash later) = none
  tail : chain.tail = countedBlock number
  minted : ∀ exist, chain.repeatedMintCache.peek 0 = some exist →
    exist.header.bookKeeper = (countedHeader number).bookKeeper
  orphans : chain.orphanBlockHashToChildren = ∅
  indexed : 0 < number → chain.records.blockHashes.lookup 1 = some (countedHash 1)

variable {chain : BlockChain openSetup}

section
variable (counted : Counted number chain)
include counted

theorem counted_tryAccept (small : number + 1 ≤ 2 ^ 32) {orphans : Block → Call openSetup Unit} :
    (tryAcceptBlock orphans (countedBlock (number + 1)) "peer").Returns chain ()
      (chain.connected (countedBlock (number + 1))) := by
  have below : number ≤ 2 ^ 32 := by omega
  obtain ⟨parent, found, level⟩ : ∃ parent, chain.getParentBlock (countedBlock (number + 1)) = some parent ∧
      parent.header = countedHeader number := by
    unfold getParentBlock
    have prev : (countedBlock (number + 1)).header.prevBlockHash = countedHash number := rfl
    split
    · next genesis =>
      refine ⟨countedBlock 0, rfl, ?_⟩
      have root : openSetup.genesisHash = countedHash 0 := rfl
      rcases genesis with same | same
      · have impossible := countedHash_injective small (by decide)
          ((openSetup_blockHash small).symm.trans (same.trans root))
        omega
      · rw [prev, root] at same
        rw [countedHash_injective below (by decide) same]
        rfl
    · exact ⟨(countedBlock number).unmarshalled, by rw [prev, loadBlockByHash, counted.stored]; rfl, rfl⟩
  have height : (countedBlock (number + 1)).header.height = parent.header.height + 1 := by
    rw [level]
    exact UInt32.ofNat_add number 1
  have onTail : (countedBlock (number + 1)).header.prevBlockHash = openSetup.blockHash chain.tail.header := by
    rw [counted.tail]
    exact (openSetup_blockHash below).symm
  unfold tryAcceptBlock
  refine returns_bind.mpr ⟨chain, chain, returns_get.mpr ⟨rfl, rfl⟩, ?_⟩
  rw [found]
  dsimp only
  rw [if_neg (not_not.mpr height), if_pos onTail]
  exact returns_bind.mpr ⟨_, _, connects chain (number + 1), rfl⟩

omit counted in
/-- The chain when the cache of `verifyRepeatedMint` was used. -/
def minting (chain : BlockChain openSetup) : BlockChain openSetup :=
  { chain with repeatedMintCache := (chain.repeatedMintCache.get 0).2 }

theorem Counted.minting : Counted number chain.minting := by
  refine { counted with minted := fun exist found => counted.minted exist ?_ }
  rwa [BlockChain.minting, Lru.peek_get (by decide)] at found

theorem Counted.verifyRepeatedMint :
    (verifyRepeatedMint (countedBlock (number + 1))).Returns chain true chain.minting := by
  refine returns_bind.mpr ⟨chain, chain, returns_get.mpr ⟨rfl, rfl⟩, ?_⟩
  refine returns_bind.mpr ⟨⟨⟩, chain.minting, returns_modify.mpr rfl, returns_pure.mpr ⟨?_, rfl⟩⟩
  change (!Option.any _ (chain.repeatedMintCache.get 0).1) = true
  rw [Lru.get_fst, Bool.not_eq_true', Option.any_eq_false]
  intro exist found
  rw [beq_eq_false_iff_ne, counted.minted exist found, ne_eq]
  change ¬(if (number + 1) % 2 = 0 then zeroAddressHash else _) = (if number % 2 = 0 then zeroAddressHash else _)
  rcases mod_two_eq_zero_or_one number with even | odd
  · rw [if_pos even, if_neg (by omega)]
    decide
  · rw [if_pos (show (number + 1) % 2 = 0 by omega), if_neg (by omega)]
    decide

omit counted in
theorem processOrphans_none (none : chain.orphanBlockHashToChildren = ∅) (block : Block) :
    (processOrphans "peer" 1 block).Returns chain () { chain with orphanBlockHashToChildren := ∅ } := by
  obtain ⟨_, _, _, _, _, _, _, orphans, _, _, _, _⟩ := chain
  cases (show orphans = ∅ from none)
  rfl

theorem Counted.connected
    (small : number + 1 ≤ 2 ^ 32) : Counted (number + 1) (chain.connected (countedBlock (number + 1))) where
  stored := by
    change lookup _ (insert (openSetup.blockHash (countedHeader (number + 1))) _ _) = _
    rw [openSetup_blockHash small, lookup_insert]
  unseen := by
    intro later higher bound
    have differ : countedHash later ≠ countedHash (number + 1) := by
      intro same
      have := countedHash_injective bound small same
      omega
    change lookup _ (insert (openSetup.blockHash (countedHeader (number + 1))) _
      (insert (openSetup.blockHash (countedHeader (number + 1))) _ _)) = _
    rw [openSetup_blockHash small, lookup_insert_ne differ, lookup_insert_ne differ]
    exact counted.unseen later (by omega) bound
  tail := rfl
  minted := by
    intro exist found
    change (Lru.add chain.repeatedMintCache 0 (countedBlock (number + 1))).peek 0 = some exist at found
    rw [Lru.peek_add (by decide)] at found
    cases found
    rfl
  orphans := counted.orphans
  indexed := by
    intro _
    change lookup 1 (chain.records.blockHashes.insert (countedHeader (number + 1)).height
      (openSetup.blockHash (countedHeader (number + 1)))) = _
    rw [openSetup_blockHash small]
    rcases Nat.eq_zero_or_pos number with rfl | positive
    · exact lookup_insert _
    · have differ : (1 : UInt32) ≠ (countedHeader (number + 1)).height := by
        intro same
        have numbers := congrArg UInt32.toNat same
        change 1 = (UInt32.ofNat (number + 1)).toNat at numbers
        rw [UInt32.toNat_ofNat'] at numbers
        omega
      rw [lookup_insert_ne differ]
      exact counted.indexed positive

theorem Counted.processBlock (small : number + 1 ≤ 2 ^ 32) :
    ∃ after, (processBlock (countedBlock (number + 1)) "peer").Returns chain () after ∧ Counted (number + 1) after := by
  have again := counted.minting
  have done := again.connected small
  have new : chain.blockExists (openSetup.blockHash (countedBlock (number + 1)).header) = false := by
    rw [show openSetup.blockHash (countedBlock (number + 1)).header = _ from openSetup_blockHash small, blockExists,
      loadBlockByHash, counted.unseen _ (lt_succ_self _) small]
    rfl
  have parentExists : chain.minting.blockExists (countedBlock (number + 1)).header.prevBlockHash = true := by
    change Option.isSome (Option.map _ (chain.minting.records.blocks.lookup (countedHash number))) = true
    rw [again.stored]
    rfl
  refine ⟨{ chain.minting.connected (countedBlock (number + 1)) with orphanBlockHashToChildren := ∅ }, ?_,
    { done with orphans := rfl }⟩
  refine returns_bind.mpr ⟨chain, chain, returns_get.mpr ⟨rfl, rfl⟩, ?_⟩
  rw [new]
  refine returns_bind.mpr ⟨true, _, counted.verifyRepeatedMint, ?_⟩
  refine returns_bind.mpr ⟨_, _, returns_get.mpr ⟨rfl, rfl⟩, ?_⟩
  refine returns_bind.mpr ⟨countedBlock (number + 1), _, returns_lift.mpr ⟨rfl, rfl⟩, ?_⟩
  dsimp only
  rw [parentExists]
  refine returns_bind.mpr ⟨_, _, counted_tryAccept again small, ?_⟩
  exact processOrphans_none done.orphans _

end

def countedEvents (number : Nat) : List Event :=
  (range number).map fun count => .processBlock (countedBlock (count + 1)) "peer"

def openStart : BlockChain openSetup where
  records :=
    { utxos := ∅, addrUtxos := ∅, txIndex := ∅, splitTxs := ∅, txs := ∅, splitAddrs := ⟨⟨fun _ => [], []⟩, ∅⟩, blockHashes := ∅
      blocks := (∅ : Table HashType Block).insert openSetup.genesisHash openSetup.genesisBlock
      tail := openSetup.genesisBlock }
  tail := openSetup.genesisBlock
  tailState := ()
  eternal := openSetup.genesisBlock
  longestChainHeight := 0
  repeatedMintCache := .empty
  hashToOrphanBlock := ∅
  orphanBlockHashToChildren := ∅
  blockExecuteResults := ∅
  consensus := ()
  bus := .new
  log := []

theorem openStart_fresh : openStart.Fresh := ⟨rfl, rfl, rfl, rfl, rfl, rfl⟩

theorem openStart_counted : Counted 0 openStart where
  stored := rfl
  unseen := by
    intro later higher bound
    have differ : countedHash later ≠ countedHash 0 := by
      intro same
      have := countedHash_injective bound (by decide) same
      omega
    exact lookup_insert_ne differ
  tail := rfl
  minted := by
    rintro exist ⟨⟩
  orphans := rfl
  indexed := by
    intro positive
    cases positive

theorem counted_runs (small : number ≤ 2 ^ 32) :
    ∃ final, Runs step openStart (countedEvents number) final ∧ Counted number final := by
  induction number with
  | zero => exact ⟨openStart, .nil _, openStart_counted⟩
  | succ number next =>
    obtain ⟨middle, ran, counted⟩ := next (by omega)
    obtain ⟨final, processed, done⟩ := counted.processBlock small
    refine ⟨final, ?_, done⟩
    rw [countedEvents, range_succ, map_append]
    exact ran.concat ⟨_, processed, by rintro ⟨⟩⟩

def countedKnown (bound : Nat) (small : bound ≤ 2 ^ 32) : Known openSetup where
  headers := { header | ∃ number ≤ bound, header = countedHeader number }
  genesis_mem := ⟨0, zero_le _, rfl⟩
  injOn := by
    rintro _ ⟨left, leftSmall, rfl⟩ _ ⟨right, rightSmall, rfl⟩ same
    rw [openSetup_blockHash (by omega), openSetup_blockHash (by omega)] at same
    rw [countedHash_injective (by omega) (by omega) same]

/-- In a tree in which every parent is found, `findFork` returns the highest common
ancestor of the tail and a higher block, and the ways from both to it. -/
theorem fork_found {setup : Setup} (known : Known setup) {chain : BlockChain setup} {block : Block}
    (found : ∀ block : Block, block.header ∈ known.headers → block.header ≠ setup.genesisBlock.header →
      ∃ parent, chain.getParentBlock block = some parent ∧ parent.header ∈ known.headers ∧
        setup.links.ChildOf block.header parent.header)
    (longest : chain.longestChainHeight = chain.tail.header.height) (tailMember : chain.tail.header ∈ known.headers)
    (member : block.header ∈ known.headers) (above : chain.tail.header.height < block.header.height) :
    ∃ fork detached attached, chain.findFork block = .ok (fork, detached, attached) ∧
      known.Fork chain.tail.header block.header fork.header detached attached := by
  have linked (block : Block) (member : block.header ∈ known.headers) : known.Linked block.header := by
    refine ⟨member, or_iff_not_imp_left.mpr fun higher => ?_⟩
    obtain ⟨parent, -, among, child⟩ := found block member higher
    exact ⟨parent.header, among, child⟩
  have parents : Parents known chain := by
    intro block parent known_ higher got
    obtain ⟨other, same, among, child⟩ := found block known_.1 higher
    cases got.symm.trans same
    exact ⟨linked parent among, child⟩
  refine (findFork_cases parents longest (linked _ tailMember) (linked _ member) above).resolve_left ?_
  rintro ⟨⟨lost, known_, higher, none_⟩, -⟩
  obtain ⟨parent, same, -⟩ := found lost known_.1 higher
  cases none_.symm.trans same

/-- A block beside the counted ones, with its own number. -/
def sideBlock (height number parent : Nat) : Block :=
  ⟨{ countedHeader height with prevBlockHash := countedHash parent, gasUsed := .ofNat number }, [], [], [], none⟩

def branchHeaders : List BlockHeader :=
  [countedHeader 0, countedHeader 1, countedHeader 2, (sideBlock 1 3 0).header, (sideBlock 2 4 3).header]

def branches : Known openSetup where
  headers := { header | header ∈ branchHeaders }
  genesis_mem := mem_cons_self
  injOn := by
    have injective : ∀ left ∈ branchHeaders, ∀ right ∈ branchHeaders,
        openSetup.blockHash left = openSetup.blockHash right → left = right := by decide +kernel
    exact fun left among right member => injective left among right member

/-- Both blocks on the genesis block are stored, the first of them is the tail. -/
def forked : BlockChain openSetup := (openStart.connected (countedBlock 1)).storeBlock (sideBlock 1 3 0)

theorem longer_branch_forks :
    ∃ fork detached attached, forked.findFork (sideBlock 2 4 3) = .ok (fork, detached, attached) ∧
      branches.Fork (countedHeader 1) (sideBlock 2 4 3).header fork.header detached attached ∧
      fork.header = countedHeader 0 ∧ detached.map Block.header = [countedHeader 1] ∧
      attached.map Block.header = [(sideBlock 2 4 3).header, (sideBlock 1 3 0).header] := by
  have parents : ∀ header ∈ branchHeaders, header ≠ countedHeader 0 → ∃ parent ∈ branchHeaders,
      (forked.getParentBlock ⟨header, [], [], [], none⟩).map Block.header = some parent ∧
      header.prevBlockHash = openSetup.blockHash parent ∧ header.height.toNat = parent.height.toNat + 1 := by
    decide +kernel
  have headers : (forked.findFork (sideBlock 2 4 3)).map (fun found =>
      (found.1.header, found.2.1.map Block.header, found.2.2.map Block.header)) =
      .ok (countedHeader 0, [countedHeader 1], [(sideBlock 2 4 3).header, (sideBlock 1 3 0).header]) := by
    decide +kernel
  have forks : ∃ fork detached attached, forked.findFork (sideBlock 2 4 3) = .ok (fork, detached, attached) ∧
      branches.Fork (countedHeader 1) (sideBlock 2 4 3).header fork.header detached attached := by
    refine fork_found branches ?_ rfl (by decide +kernel : countedHeader 1 ∈ branchHeaders)
      (by decide +kernel : _ ∈ branchHeaders) (by decide)
    intro block member higher
    obtain ⟨parent, among, same, prev, height⟩ := parents block.header member higher
    obtain ⟨found, got, rfl⟩ := map_eq_some_iff.mp same
    exact ⟨found, got, among, prev, height⟩
  obtain ⟨fork, detached, attached, found, highest⟩ := forks
  rw [found] at headers
  obtain ⟨base, left, joined⟩ := Prod.ext_iff.mp (Except.ok.inj headers) |>.imp_right Prod.ext_iff.mp
  exact ⟨fork, detached, attached, found, highest, base, left, joined⟩

theorem countedEvents_about {bound : Nat} (small : bound ≤ 2 ^ 32) :
    ∀ event ∈ countedEvents bound, event.About (countedKnown bound small) := by
  intro event among
  obtain ⟨count, below, rfl⟩ := mem_map.mp among
  exact ⟨count + 1, mem_range.mp below, rfl⟩

def afterCall (event : Event) (chain : BlockChain openSetup) : BlockChain openSetup := ((step event).run.run chain).2

theorem first_block_becomes_eternal :
    let middle := afterCall (.processBlock (countedBlock 1) "peer") openStart
    let final := afterCall (.updateEternal (countedBlock 1)) middle
    let known := countedKnown 1 (by decide)
    middle.eternal = countedBlock 0 ∧ final.eternal = countedBlock 1 ∧ final.Indexed known ∧
      known.Descends final.eternal.header middle.eternal.header := by
  refine ⟨by decide +kernel, by decide +kernel, ?_⟩
  have connected : Runs step openStart (countedEvents 1) (afterCall (.processBlock (countedBlock 1) "peer") openStart) :=
    Runs.single (by decide +kernel)
  have updated : Runs step (afterCall (.processBlock (countedBlock 1) "peer") openStart) [.updateEternal (countedBlock 1)]
      (afterCall (.updateEternal (countedBlock 1)) (afterCall (.processBlock (countedBlock 1) "peer") openStart)) :=
    Runs.single (by decide +kernel)
  refine main_chain_indexed (countedKnown 1 (by decide)) ?_ openStart_fresh (countedEvents_about _) ?_ connected updated
  · rintro _ ⟨number, small, rfl⟩
    interval_cases number <;> decide
  · intro event among
    rw [mem_singleton.mp among]
    exact ⟨1, le_rfl, rfl⟩

/-- After the last height the index keeps the old blocks above the tail. -/
theorem heights_start_again :
    ∃ (setup : Setup) (known : Known setup) (start final : BlockChain setup) (events : List Event),
      start.Fresh ∧ (∀ event ∈ events, event.About known) ∧ Runs step start events final ∧ ¬final.Indexed known := by
  obtain ⟨final, ran, counted⟩ := counted_runs (le_refl (2 ^ 32))
  refine ⟨openSetup, countedKnown (2 ^ 32) le_rfl, openStart, final, countedEvents (2 ^ 32), openStart_fresh,
    countedEvents_about _, ran, ?_⟩
  intro shape
  have tail : final.tail.header.height = 0 := by
    rw [counted.tail]
    exact UInt32.toNat_inj.mp (UInt32.toNat_ofNat' .. ▸ rfl)
  have nothing := shape.above 1 (by rw [tail]; decide)
  have listed : final.getBlockHash 1 = some (countedHash 1) := by
    rw [getBlockHash, if_neg (by decide)]
    exact counted.indexed (by decide)
  rw [nothing] at listed
  cases listed

end BlockChain
end Boxd
