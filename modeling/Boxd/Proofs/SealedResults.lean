import Boxd.Proofs.VerifyContext

/-! Which blocks are sealed with a result that the node has kept. Results are kept under
heights, and every block that is connected without a sender is sealed with one. -/

namespace Boxd
open Lib Stateful List Table UInt32

variable {index : SplitAddrIndex} {depth : Nat} {block : Block} {header : BlockHeader} {height : UInt32}
  {rest : List Block}

theorem splitTxOutput_unfailing {txOut : TxOut} : (splitTxOutput index depth txOut).Unfailing := by
  induction depth generalizing txOut with
  | zero => exact .panicked
  | succ depth next =>
    unfold splitTxOutput
    split
    · exact .ok _
    · split
      · exact .ok _
      · split
        · exact .panicked
        · exact .bind (.mapM fun _ _ => next) fun _ => .ok _

theorem splitTxs_unfailing {c : Crypto} {txs : List Transaction}
    {found : Table HashType Transaction} : (splitTxs c index depth txs found).Unfailing := by
  induction txs generalizing found with
  | nil => exact .ok _
  | cons tx rest next =>
    have split : (splitTxOutputs index depth tx).Unfailing := by
      refine .bind (.mapM fun _ _ => splitTxOutput_unfailing) fun expanded => ?_
      split
      · exact .ok _
      · exact .ok _
    exact .bind split fun _ => .bind next fun _ => .ok _

theorem splitBlockOutputs_unfailing {c : Crypto} :
    (splitBlockOutputs c index depth block).Unfailing := .bind splitTxs_unfailing fun _ => .ok _

namespace BlockChain

variable {setup : Setup} {known : Known setup} {eternal : BlockHeader} {headers : List BlockHeader}

abbrev Results (setup : Setup) := Table UInt32 (Block × setup.Result)

/-- A block that was sealed with a kept result is the block that the result is for. -/
def Honest (log : List (Entry setup)) : Prop :=
  ∀ block executedFor, .sealed block (some executedFor) ∈ log → executedFor.header = block.header

/-- Kept results have a property, and the blocks sealed so far were sealed as themselves. -/
structure Sealing (results : Results setup → Prop) (chain : BlockChain setup) : Prop where
  honest : Honest chain.log
  results : results chain.blockExecuteResults

theorem Honest.concat {log : List (Entry setup)} (honest : Honest log) {entry : Entry setup}
    (own : ∀ block executedFor, entry = .sealed block (some executedFor) → executedFor.header = block.header) :
    Honest (log ++ [entry]) := by
  intro block executedFor among
  obtain before | last := mem_append.mp among
  · exact honest block executedFor before
  · exact own block executedFor (mem_singleton.mp last).symm

section Calls

variable {results : Results setup → Prop}

theorem Sealing.concat {chain : BlockChain setup} (holds : Sealing results chain) {entry : Entry setup}
    (own : ∀ block executedFor, entry = .sealed block (some executedFor) → executedFor.header = block.header) :
    Sealing results { chain with log := chain.log ++ [entry] } := ⟨holds.honest.concat own, holds.results⟩

theorem changeNewTail_sealing {tail : Block} : Always (Sealing results) (changeNewTail tail : Call setup Unit) := by
  refine .bind .get fun chain => .bind (.orPanic ?_) fun _ => .modify fun _ holds => ?_
  · exact Call.consensus_always fun _ _ holds => ⟨holds.honest, holds.results⟩
  · exact ⟨holds.honest.concat nofun, holds.results⟩

theorem verify_sealing : Always (Sealing results) (verify block : Call setup Unit) := by
  refine .bind .get fun chain => .observe ?_
  refine .weaken (Call.consensus_always fun _ _ holds => ⟨holds.honest, holds.results⟩) (fun _ holds => holds)
    (fun _ _ holds => ?_) fun _ _ holds => ?_
  · exact ⟨holds.honest.concat nofun, holds.results⟩
  · exact ⟨holds.honest.concat nofun, holds.results⟩

theorem sealBlock_sealing {splitTxs : Table HashType Transaction} {res : setup.Result}
    {executedFor : Option Block} (own : ∀ other, executedFor = some other → other.header = block.header) :
    Always (Sealing results) (sealBlock block splitTxs res executedFor) := by
  refine .bind (.modify fun _ holds => ⟨holds.honest, holds.results⟩) fun _ => ?_
  refine .bind .get fun chain => .bind (.lift _) fun records => ?_
  refine .bind (.modify fun _ holds => ⟨holds.honest, holds.results⟩) fun _ => ?_
  refine .bind changeNewTail_sealing fun _ => .modify fun _ holds => ?_
  refine ⟨holds.honest.concat ?_, holds.results⟩
  rintro _ other ⟨⟩
  exact own other rfl

theorem disconnect_sealing : Always (Sealing results) (tryDisConnectBlockFromMainChain block : Call setup Unit) := by
  refine .bind .get fun chain => .bind (.lift _) fun records => ?_
  refine .bind (.modify fun _ holds => ⟨holds.honest, holds.results⟩) fun _ => ?_
  refine .bind (.lift _) fun newTail => .bind changeNewTail_sealing fun _ => ?_
  exact .bind (.lift _) fun state => .modify fun _ holds => ⟨holds.honest, holds.results⟩

theorem send_sealing {topic : Topic} {times : Nat} {chain : BlockChain setup} (holds : Sealing results chain) :
    Sealing results ((send topic)^[times] chain) := by
  induction times generalizing chain with
  | zero => exact holds
  | succ times next =>
    exact next ⟨holds.honest, holds.results⟩

theorem peer_connect_sealing {messageFrom : PeerID} (peer : messageFrom ≠ "") :
    Always (Sealing results) (tryConnectBlockToMainChain block messageFrom : Call setup Block) := by
  refine tryConnectBlockToMainChain_triple ?_ (fun _ _ _ holds => holds.concat nofun) fun _ _ _ holds => holds.concat nofun
  refine Always.bind Always.get fun chain => Always.bind (Always.lift _) fun split => ?_
  obtain ⟨blockCopy, splitTxs⟩ := split
  dsimp only
  rw [if_neg peer]
  refine .bind verify_sealing fun _ => .bind .get fun chain => ?_
  refine .bind (.modify fun _ => send_sealing) fun _ => .bind (.lift _) fun result => ?_
  exact .bind (sealBlock_sealing nofun) fun _ => .pure _

theorem missing_connect_sealing (missing : ∀ kept, results kept → kept.lookup block.header.height = none) :
    Triple (Sealing results) (tryConnectBlockToMainChain block "" : Call setup Block) (fun _ _ => False)
      (fun _ => Sealing results) := by
  refine tryConnectBlockToMainChain_triple ?_ (fun _ _ _ holds => holds) fun _ _ _ holds => holds.concat nofun
  refine .get_bind fun chain holds => ?_
  refine .bind (fun _ after => after = chain) (Call.lift_triple (fun _ _ _ same => same) fun _ _ same => same ▸ holds)
    fun split => ?_
  obtain ⟨blockCopy, splitTxs⟩ := split
  dsimp only
  rw [if_pos rfl, missing _ holds.results]
  refine .bind (fun _ _ => False) (.lift nofun ?_) fun _ => fun _ => False.elim
  rintro fault ⟨⟩ _ rfl
  exact holds

theorem Sealing.frame {chain other : BlockChain setup} (holds : Sealing results chain) (same : chain.SameCalls other) :
    Sealing results other := ⟨same.log ▸ holds.honest, same.blockExecuteResults ▸ holds.results⟩

end Calls

def Keyed : Results setup → Prop := All fun height entry => entry.1.header.height = height

structure OwnAbove (header : BlockHeader) (height : UInt32) (results : Results setup) : Prop where
  keyed : Keyed results
  own : results.All fun key entry => entry.1.header = header ∨ key ≤ height

structure NoneAbove (header : BlockHeader) (height top : UInt32) (results : Results setup) : Prop where
  own : OwnAbove header height results
  none : results.All fun key _ => key ≤ top

theorem OwnAbove.erase {results : Results setup}
    (own : OwnAbove header height results) (key : UInt32) : OwnAbove header height (results.erase key) :=
  ⟨own.keyed.erase key, own.own.erase key⟩

theorem Onto.higher (onto : Onto known headers block) {chain : BlockChain setup}
    (shape : chain.Shape known eternal headers) {floor : BlockHeader} (within : floor ∈ headers) :
    floor.height < block.header.height := by
  obtain ⟨-, parent, first, child⟩ := onto
  have lower := shape.branch.height_le first within
  have step := child.height_eq
  rw [setup.links_height, setup.links_height] at lower step
  exact lt_iff_toNat_lt.mpr (by omega)

theorem peer_steady {messageFrom : PeerID} (peer : messageFrom ≠ "") {results : Results setup → Prop} :
    Steady known eternal eternal messageFrom (Sealing results) where
  frame := Sealing.frame
  send holds := ⟨holds.honest, holds.results⟩
  connect _ _ := .of_pre (peer_connect_sealing peer) fun _ both => both.2
  disconnect _ _ _ := .of_pre disconnect_sealing fun _ both => both.2

theorem noneAbove_steady {floor : BlockHeader} :
    Steady known eternal floor "" (Sealing (NoneAbove header height floor.height : Results setup → Prop)) where
  frame := Sealing.frame
  send holds := ⟨holds.honest, holds.results⟩
  connect := by
    intro headers block within onto
    refine .of_start fun start both => ?_
    have higher := onto.higher both.1 within
    refine .weaken (missing_connect_sealing fun kept holds => ?_) ?_ (fun _ _ => False.elim) fun _ _ holds => holds
    · cases found : kept.lookup block.header.height with
      | none => rfl
      | some entry => exact absurd (holds.none _ _ found) (UInt32.not_le.mpr higher)
    · rintro _ rfl
      exact both.2
  disconnect _ _ _ := .of_pre disconnect_sealing fun _ both => both.2

theorem OwnAbove.missing {key : UInt32} {results : Results setup}
    (own : OwnAbove header height results) (higher : height < key) (other : header.height ≠ key) :
    results.lookup key = none := by
  cases found : results.lookup key with
  | none => rfl
  | some entry =>
    obtain same | lower := own.own _ _ found
    · exact absurd (same ▸ own.keyed _ _ found) other
    · exact absurd lower (UInt32.not_le.mpr higher)

theorem OwnAbove.noneAbove {top : UInt32} {results : Results setup}
    (own : OwnAbove header height results) (low : height ≤ top)
    (missing : ∀ entry, results.lookup header.height = some entry → header.height ≤ top) :
    NoneAbove header height top results := by
  refine ⟨own, fun key entry found => ?_⟩
  obtain same | lower := own.own key entry found
  · have at_header : header.height = key := same ▸ own.keyed key entry found
    exact at_header ▸ missing entry (at_header ▸ found)
  · exact UInt32.le_trans lower low

section
variable {results : Results setup → Prop} (later : Results setup → Prop)
  (own : ∀ kept entry, results kept → kept.lookup block.header.height = some entry → entry.1.header = block.header)
  (missing : ∀ kept, results kept → kept.lookup block.header.height = none → later kept)
  (erased : ∀ kept, results kept → later (kept.erase block.header.height)) (weaker : ∀ kept, later kept → results kept)
include own missing erased weaker

/-- Without a sender, a block is sealed with the result at its height, which is then
gone. A failed attempt leaves no result at that height either. -/
theorem local_connect_sealing :
    Triple (Sealing results) (tryConnectBlockToMainChain block "" : Call setup Block) (fun _ => Sealing later)
      (Ended (Sealing later) (Sealing results)) := by
  refine tryConnectBlockToMainChain_triple ?_ (fun _ _ _ holds => holds.concat nofun) fun _ _ _ ended =>
    ended.mono (fun holds => holds.concat nofun) fun holds => holds.concat nofun
  refine .get_bind fun chain holds => ?_
  refine .bind (fun _ after => after = chain) (Call.lift_unfailing splitBlockOutputs_unfailing
    (fun _ _ _ same => same) fun _ same => same ▸ holds) fun split => ?_
  obtain ⟨blockCopy, splitTxs⟩ := split
  dsimp only
  rw [if_pos rfl]
  cases found : chain.blockExecuteResults.lookup block.header.height with
  | none =>
    refine .bind (fun _ _ => False) (.lift nofun ?_) fun _ => fun _ => False.elim
    rintro fault ⟨⟩ _ rfl
    exact ⟨holds.honest, missing _ holds.results found⟩
  | some entry =>
    obtain ⟨executedFor, res⟩ := entry
    refine .bind (fun kept after => kept = (executedFor, res) ∧ after = chain)
      (.lift (fun kept ok _ same => ⟨(Except.ok.inj ok).symm, same⟩) nofun) fun kept => ?_
    refine .of_start fun start same => ?_
    obtain ⟨rfl, rfl⟩ := same
    refine .bind (fun _ => Sealing later) (.modify ?_) fun _ => ?_
    · rintro _ rfl
      exact ⟨holds.honest, erased _ holds.results⟩
    · refine .bind (fun _ => Sealing later) (.weaken (sealBlock_sealing ?_) (fun _ holds => holds)
        (fun _ _ holds => holds) fun _ _ holds => .intro (fun holds => ⟨holds.honest, weaker _ holds.results⟩) holds)
        fun _ => .pure fun _ holds => holds
      rintro other ⟨⟩
      exact own _ _ holds.results found

theorem local_connectAgain (onto : Onto known headers block) :
    Triple (HoldsOn known eternal (Sealing results) headers) (connectAgain "" block)
      (fun after chain =>
        after.header = block.header ∧ HoldsOn known eternal (Sealing later) (block.header :: headers) chain)
      (Ended (HoldsOn known eternal (Sealing later) headers) (Sealing results)) := by
  refine .bind_same (.modify fun _ both => ⟨both.1, both.2.honest, both.2.results⟩) fun _ => ?_
  have shaped : Triple (Shape known eternal headers) (tryConnectBlockToMainChain block "") _ _ :=
    tryConnectBlockToMainChain_shape onto
  refine .weaken (shaped.and (local_connect_sealing later own missing erased weaker)) (fun _ both => both)
    (fun _ _ both => ⟨both.1.1, both.1.2, both.2⟩) fun fault _ ended => ?_
  cases fault with
  | error err => exact ended
  | panic => exact ended.2

end

/-- A block whose height has no result does not leave the place before it. -/
theorem missing_connectAgain {results : Results setup → Prop} (onto : Onto known headers block)
    (missing : ∀ kept, results kept → kept.lookup block.header.height = none) :
    Triple (HoldsOn known eternal (Sealing results) headers) (connectAgain "" block)
      (fun _ _ => False) (Ended (HoldsOn known eternal (Sealing results) headers) (Sealing results)) := by
  refine .bind_same (.modify fun _ both => ⟨both.1, both.2.honest, both.2.results⟩) fun _ => ?_
  have shaped : Triple (Shape known eternal headers) (tryConnectBlockToMainChain block "") _ _ :=
    tryConnectBlockToMainChain_shape onto
  exact .weaken (shaped.and (missing_connect_sealing missing)) (fun _ both => both) (fun _ _ both => both.2)
    fun _ _ ended => ended.1.mono (fun shape => ⟨shape, ended.2⟩) fun _ => ended.2

theorem missing_rollBack {results : Results setup → Prop} {detached : List Block} {base : List BlockHeader}
    (restorable : Restorable known eternal base detached)
    (missing : ∀ block kept, Onto known base block → results kept → kept.lookup block.header.height = none)
    {failed : BlockChain setup → Prop} :
    Triple (HoldsOn known eternal (Sealing results) base) (rollBack "" [] detached)
      (fun _ => HoldsOn known eternal (Sealing results) (detached.map Block.header ++ base))
      (Ended failed (Sealing results)) := by
  refine .bind_same (.pure fun _ both => both) fun _ => ?_
  cases order : detached.reverse with
  | nil =>
    rw [reverse_eq_nil_iff.mp order]
    exact .pure fun _ both => both
  | cons block rest =>
    have chained := restorable.chained
    rw [← reverse_reverse detached, order] at chained
    have onto := Onto.of_chained chained (ne_nil_of_mem restorable.eternal_mem)
      (restorable.members block (mem_reverse.mp (order ▸ mem_cons_self)))
    refine .bind (fun _ _ => False) ?_ fun _ _ => False.elim
    refine .bind (fun _ _ => False) (.orPanic (missing_connectAgain onto fun kept => missing block kept onto)
      fun _ _ ended => ended.anyway fun both => both.2) fun _ _ => ?_
    exact False.elim

theorem Onto.height_eq {parent : BlockHeader} (onto : Onto known (parent :: headers) block) :
    block.header.height.toNat = parent.height.toNat + 1 := by
  obtain ⟨-, _, ⟨⟩, child⟩ := onto
  exact child.height_eq

section Local

variable {header : BlockHeader} {block fork : Block} {detached attachBlocks : List Block} {others : List BlockHeader}
  (forked : Forked known eternal headers block fork detached attachBlocks others)

include forked

theorem Forked.lowest {lowest : Block} (order : attachBlocks.reverse = lowest :: rest) :
    Onto known (fork.header :: others) lowest ∧ known.Descends block.header lowest.header := by
  have chained := forked.chained
  rw [← reverse_reverse attachBlocks, order] at chained
  have among : lowest.header ∈ attachBlocks.map Block.header ++ [fork.header] :=
    mem_append_left _ (mem_map_of_mem (mem_reverse.mp (order ▸ mem_cons_self)))
  exact ⟨.of_chained chained (cons_ne_nil _ _) (forked.climb.linked _ among).1,
    Links.descends_of_mem forked.climb.chained (fun node inside => (forked.climb.linked node inside).1)
      forked.climb.first among⟩

theorem Forked.eternal_le : eternal.height ≤ fork.header.height := by
  have linked := (isChain_append.mp forked.chained).2.1
  have descends := Links.descends_of_mem linked (fun _ _ => Set.mem_univ _) rfl forked.restorable.eternal_mem
  exact le_iff_toNat_le.mpr descends.height_le

theorem attach_below (below : header.height ≤ fork.header.height) :
    Attaches known eternal (Sealing (OwnAbove header eternal.height)) "" fork others detached attachBlocks.reverse := by
  have steady : Steady known eternal fork.header ""
      (Sealing (NoneAbove header eternal.height fork.header.height : Results setup → Prop)) := noneAbove_steady
  refine .weaken (steady.attach_forked forked mem_cons_self) ?_ ?_ ?_
  · rintro chain ⟨shape, holds⟩
    exact ⟨shape, holds.honest, holds.results.noneAbove forked.eternal_le fun _ _ => below⟩
  · rintro - chain ⟨shaped, holds⟩
    exact ⟨shaped, holds.honest, holds.results.own⟩
  · intro fault chain ended
    exact ended.mono (fun both => ⟨both.1, both.2.honest, both.2.results.own⟩) fun holds =>
      ⟨holds.honest, holds.results.own⟩

/-- The lowest block to attach is the one with a result. When it has been tried, no result
is left above the fork. -/
theorem attach_own {lowest : Block} (order : attachBlocks.reverse = lowest :: rest) (own : lowest.header = header) :
    Attaches known eternal (Sealing (OwnAbove header eternal.height)) "" fork others detached (lowest :: rest) := by
  obtain ⟨onto, -⟩ := forked.lowest order
  have low := forked.eternal_le
  have higher : eternal.height < lowest.header.height := by
    have step := onto.height_eq
    rw [le_iff_toNat_le] at low
    exact lt_iff_toNat_lt.mpr (by omega)
  have steady : Steady known eternal fork.header ""
      (Sealing (NoneAbove header eternal.height fork.header.height : Results setup → Prop)) := noneAbove_steady
  refine .bind _ (.attempt (local_connectAgain (NoneAbove header eternal.height fork.header.height)
    ?own ?missing ?erased (fun _ holds => holds.own) onto) fun _ holds => holds) fun result => ?_
  case own =>
    intro kept entry holds found
    obtain same | lower := holds.own _ _ found
    · exact same.trans own.symm
    · exact absurd lower (UInt32.not_le.mpr higher)
  case missing =>
    intro kept holds missing
    refine holds.noneAbove low fun entry found => ?_
    rw [← own, missing] at found
    cases found
  case erased =>
    intro kept holds
    refine (holds.erase _).noneAbove low fun entry found => ?_
    rw [← own, AList.lookup_erase] at found
    cases found
  have back : ∀ chain, Holds known eternal (Sealing (NoneAbove header eternal.height fork.header.height)) chain →
      Holds known eternal (Sealing (OwnAbove header eternal.height)) chain := fun _ both => ⟨both.1, both.2.honest, both.2.results.own⟩
  cases result with
  | ok after =>
    refine .of_start fun start holds => ?_
    obtain ⟨same, shape, holds⟩ := holds.1 after rfl
    have chained := forked.chained
    rw [← reverse_reverse attachBlocks, order] at chained
    have later : (rest.reverse.map Block.header ++ ([after].map Block.header ++ (fork.header :: others))).IsChain
        setup.links.ChildOf := by
      rw [map_singleton, same]
      exact chained_rest chained
    have members : ∀ block ∈ rest, block.header ∈ known.headers := fun block among =>
      (forked.climb.linked block.header (mem_append_left _ (mem_map_of_mem
        (mem_reverse.mp (order ▸ mem_cons_of_mem _ among))))).1
    refine .weaken (steady.attach forked.restorable mem_cons_self later members) ?_ (fun _ => back)
      fun _ _ ended => ended.mono (back _) fun holds => ⟨holds.honest, holds.results.own⟩
    rintro _ rfl
    rw [map_singleton, same]
    exact ⟨shape, holds⟩
  | error err =>
    have rolled : Triple _ (rollBack "" [] detached) _ (Ended (fun _ => False) _) :=
      steady.rollBack forked.restorable mem_cons_self
    refine .bind _ (.weaken rolled (fun _ holds => holds.2 err rfl) (fun _ _ holds => holds)
      fun _ _ ended => ended.mono False.elim fun holds => ⟨holds.honest, holds.results.own⟩) fun _ => ?_
    exact .fail fun chain both => back chain ⟨⟨_, both.1⟩, both.2⟩

/-- The block with a result is higher than the lowest block to attach, which has none, and
neither has the lowest block that was detached. -/
theorem attach_above {lowest : Block} (order : attachBlocks.reverse = lowest :: rest)
    (above : fork.header.height.toNat + 1 < header.height.toNat) :
    Attaches known eternal (Sealing (OwnAbove header eternal.height)) "" fork others detached (lowest :: rest) := by
  obtain ⟨onto, -⟩ := forked.lowest order
  have low := forked.eternal_le
  have missing : ∀ (next : Block) (kept : Results setup), Onto known (fork.header :: others) next →
      OwnAbove header eternal.height kept → kept.lookup next.header.height = none := by
    intro next kept onto holds
    have step := onto.height_eq
    rw [le_iff_toNat_le] at low
    refine holds.missing (lt_iff_toNat_lt.mpr (by omega)) fun same => ?_
    rw [same] at above
    omega
  refine .bind _ (.attempt (missing_connectAgain onto fun kept => missing lowest kept onto) fun _ holds => holds) fun result => ?_
  cases result with
  | ok after => exact fun start holds => (holds.1 after rfl).elim
  | error err =>
    have rolled : Triple _ (rollBack "" [] detached) _
        (Ended (Holds known eternal (Sealing (OwnAbove header eternal.height))) _) :=
      missing_rollBack forked.restorable missing
    refine .bind _ (.of_pre rolled fun _ holds => holds.2 err rfl) fun _ => ?_
    exact .fail fun _ both => ⟨⟨_, both.1⟩, both.2⟩

/-- Attaching keeps the results honest: among the blocks on the way up, only the one that
was called for can find a result. -/
theorem local_attach (descends : known.Descends block.header header) :
    Attaches known eternal (Sealing (OwnAbove header eternal.height)) "" fork others detached attachBlocks.reverse := by
  by_cases below : header.height ≤ fork.header.height
  · exact attach_below forked below
  rw [UInt32.not_le, UInt32.lt_iff_toNat_lt] at below
  cases order : attachBlocks.reverse with
  | nil => exact .pure fun _ both => ⟨⟨_, both.1⟩, both.2⟩
  | cons lowest rest =>
    obtain ⟨onto, above⟩ := forked.lowest order
    have step := onto.height_eq
    by_cases higher : fork.header.height.toNat + 1 < header.height.toNat
    · exact attach_above forked order higher
    · refine attach_own forked order (Links.Descends.unique known.injOn above descends ?_)
      rw [setup.links_height, setup.links_height]
      omega

end Local

def Reached (known : Known setup) (header node : BlockHeader) : Prop :=
  node ∈ known.headers ∧ known.Descends node header

theorem local_upheld :
    Upheld known eternal "" (Reached known header) (Sealing (OwnAbove header eternal.height : Results setup → Prop)) where
  frame := Sealing.frame
  grows reach member child := ⟨member, .head ⟨reach.1, child⟩ reach.2⟩
  connect := by
    intro headers block reach within onto
    refine .of_start fun start both => ?_
    have higher := onto.higher both.1 within
    refine .weaken (local_connect_sealing (OwnAbove header eternal.height) ?_ (fun _ holds _ => holds)
      (fun _ holds => holds.erase _) fun _ holds => holds) ?_ (fun _ _ holds => holds) fun _ _ ended => ended.anyway id
    · intro kept entry holds found
      obtain same | lower := holds.own _ _ found
      · have height : header.height = block.header.height := same ▸ holds.keyed _ _ found
        rw [same]
        refine (reach.2.eq_of_height_eq ?_).symm
        rw [setup.links_height, setup.links_height, height]
      · exact absurd lower (UInt32.not_le.mpr higher)
    · rintro _ rfl
      exact both.2
  reorganize reach linked :=
    reorganize_keeps Sealing.frame (fun _ _ _ => .of_pre disconnect_sealing fun _ both => both.2) linked fun forked =>
      local_attach forked reach.2

/-- Above the eternal block, nothing but the result for the given block is kept. -/
def Own (block : Block) (chain : BlockChain setup) : Prop :=
  chain.blockExecuteResults.All fun height entry =>
    entry.1.header = block.header ∨ height ≤ chain.eternal.header.height

/-- A call without a sender finds no result but its own. -/
def Event.Own : Event → BlockChain setup → Prop
  | .processBlock block messageFrom, chain => messageFrom = "" → chain.Own block
  | _, _ => True

def OwnResults : List Event → BlockChain setup → Prop
  | [], _ => True
  | event :: rest, chain => event.Own chain ∧ OwnResults rest ((step event).after chain)

theorem step_sealing (low : known.Low) {first : BlockHeader} {event : Event} (about : event.About known) :
    Triple (fun chain => (ShapedAbove known first chain ∧ Sealing Keyed chain) ∧ event.Own chain)
      (step event : Call setup Unit) (fun _ => Sealing Keyed) (fun _ => Sealing Keyed) := by
  have always : ∀ {action : Call setup Unit}, Always (Sealing Keyed) action →
      Triple (fun chain => (ShapedAbove known first chain ∧ Sealing Keyed chain) ∧ event.Own chain) action
        (fun _ => Sealing Keyed) (fun _ => Sealing Keyed) := fun keeps => .of_pre keeps fun _ both => both.1.2
  cases event with
  | processBlock block messageFrom =>
    by_cases peer : messageFrom = ""
    · subst peer
      refine .of_start fun start both => ?_
      obtain ⟨⟨shaped, holds⟩, own⟩ := both
      have upheld : Upheld known start.eternal.header "" (Reached known block.header)
        (Sealing (OwnAbove block.header start.eternal.header.height)) := local_upheld
      refine .weaken (upheld.processBlock low about ⟨about, .refl⟩) ?_
        (fun _ _ both => ⟨both.2.honest, both.2.results.keyed⟩) fun _ _ ended => ?_
      · rintro _ rfl
        exact ⟨shaped.1, holds.honest, holds.results, own rfl⟩
      · have kept := ended.anyway fun both => both.2
        exact ⟨kept.honest, kept.results.keyed⟩
    · exact .of_pre (Upheld.ends (fun _ => (peer_steady peer).upheld) low about trivial) fun _ both => both.1
  | updateEternal block =>
    refine always (.bind .get fun chain => .ite (.pure _) ?_)
    refine .bind (.lift _) fun found => .ite (.pure _) ?_
    exact .modify fun _ holds => ⟨holds.honest, holds.results⟩
  | executeBlock block reward totalTransferFee =>
    refine always (.bind ?_ fun _ => .pure _)
    refine .bind .get fun chain => .bind (.lift _) fun parent => ?_
    refine .bind (.lift _) fun state => .bind (.lift _) fun result => ?_
    refine .bind (.modify fun _ holds => ?_) fun _ => .pure _
    exact ⟨holds.honest, holds.results.insert rfl⟩
  | deliver =>
    refine always (.modify fun chain holds => ?_)
    split
    · exact holds
    · exact ⟨holds.honest, holds.results⟩

theorem runs_sealing (low : known.Low) {first : BlockHeader} {events : List Event} {start middle : BlockChain setup}
    (ran : Runs step start events middle) {event : Event} (about : ∀ call ∈ events, call.About known)
    (own : OwnResults (events ++ [event]) start) (holds : ShapedAbove known first start ∧ Sealing Keyed start) :
    (ShapedAbove known first middle ∧ Sealing Keyed middle) ∧ event.Own middle := by
  induction ran with
  | nil => exact ⟨holds, own.1⟩
  | @cons start between final call calls ended rest next =>
    rw [forall_mem_cons] at about
    have after : (step call).after start = between := by
      obtain ⟨result, ran, -⟩ := ended
      rw [Stateful.after, ran]
    have kept := (step_sealing low about.1).after ⟨holds, own.1⟩
    exact next about.2 (after ▸ own.2) ⟨(step_shapedAbove low about.1).ends ended holds.1, after ▸ kept⟩

/-- In every run in which a call without a sender finds no result but its own, blocks are
sealed as themselves, also in a call that panics. -/
theorem sealed_as_itself {start : BlockChain setup} (low : known.Low) (fresh : start.Fresh) (log : start.log = [])
    (unproduced : start.blockExecuteResults = ∅) {events : List Event} {middle : BlockChain setup}
    (ran : Runs step start events middle) (event : Event) (about : ∀ call ∈ event :: events, call.About known)
    (own : OwnResults (events ++ [event]) start) : Honest ((step event).after middle).log := by
  rw [forall_mem_cons] at about
  have holds : Sealing Keyed start := by
    refine ⟨?_, ?_⟩
    · rw [log]
      exact nofun
    · rw [unproduced]
      exact All.empty _
  exact ((step_sealing low about.1).after (runs_sealing low ran about.2 own ⟨fresh.shapedAbove known, holds⟩)).honest

/-- Each block that was sealed with a kept result, next to the block that the result is for. -/
def sealings (log : List (Entry setup)) : List (Block × Block) :=
  log.filterMap fun
    | .sealed block (some executedFor) => some (block, executedFor)
    | _ => none

theorem mem_sealings {log : List (Entry setup)} {executedFor : Block} (among : (block, executedFor) ∈ sealings log) :
    .sealed block (some executedFor) ∈ log := by
  obtain ⟨entry, logged, same⟩ := mem_filterMap.mp among
  split at same
  · cases same
    exact logged
  · cases same

def producedOne : BlockChain turnNode.setup := (step (.executeBlock turnFirst 317000000 0)).after turnStart

/-- A block that the node has produced itself and that nobody overtakes. -/
theorem own_block_sealed_as_itself :
    let final := (step (.processBlock turnFirst "")).after producedOne
    (turnFirst, turnFirst) ∈ sealings final.log ∧ Honest final.log := by
  refine ⟨by decide +kernel, ?_⟩
  have ran : Runs step turnStart [.executeBlock turnFirst 317000000 0] producedOne := Runs.single (by decide +kernel)
  have about : ∀ call ∈ [Event.processBlock turnFirst "", .executeBlock turnFirst 317000000 0], call.About turnKnown := by
    rw [forall_mem_cons, forall_mem_singleton]
    exact ⟨mem_cons_of_mem _ mem_cons_self, trivial⟩
  have own : OwnResults [.executeBlock turnFirst 317000000 0, .processBlock turnFirst ""] turnStart :=
    ⟨trivial, fun _ => all_iff.mpr (by decide +kernel), trivial⟩
  exact sealed_as_itself turnKnown_low turnStart_fresh rfl rfl ran (.processBlock turnFirst "") about own

/-- Two blocks on the genesis block, the first by the node itself, and blocks on top: two on
the second, by the node and by a peer, and one on the first. -/
def overtaking : Block := turnBlock turnNode.genesisBlock.header 2 0
def ownNext : Block := turnBlock overtaking.header 3 0
def peerNext : Block := turnBlock turnFirst.header 4 0
def peerLast : Block := turnBlock ownNext.header 5 0

/-- The node loses a race, produces on top of the winner, and the main chain changes to its
own first block. The peer's last block waits for its parent. -/
def racingCalls : List Event :=
  [.executeBlock turnFirst 317000000 0, .processBlock overtaking "peer", .processBlock turnFirst "",
    .executeBlock ownNext 317000000 0, .processBlock peerNext "peer", .processBlock peerLast "peer"]

def raced : BlockChain turnNode.setup := racingCalls.foldl (fun chain event => (step event).after chain) turnStart

/-- When its second block arrives without a sender, the waiting block makes the main chain
change back, and the overtaking block is sealed with the result for the first one. -/
theorem overtaking_block_sealed_with_other_result : Runs step turnStart racingCalls raced ∧
      ∃ block executedFor, .sealed block (some executedFor) ∈ ((step (.processBlock ownNext "")).after raced).log ∧
        block.header = overtaking.header ∧ executedFor.header = turnFirst.header ∧
        turnFirst.header ≠ overtaking.header := by
  refine ⟨Runs.of_survives (by decide +kernel), ?_⟩
  have among : ∃ pair ∈ sealings ((step (.processBlock ownNext "")).after raced).log,
      pair.1.header = overtaking.header ∧ pair.2.header = turnFirst.header := by decide +kernel
  obtain ⟨⟨block, executedFor⟩, among, same, other⟩ := among
  exact ⟨block, executedFor, mem_sealings among, same, other, by decide +kernel⟩

end BlockChain
end Boxd
