import Boxd.Chain.Node
import Boxd.Proofs.MainChain
import Boxd.Proofs.SystemTxs

/-! Which dynasty a block is verified with. The context is loaded for the first block, from
the genesis state. Nothing refreshes it, because the bus does not accept the callback. -/

namespace Boxd
open Lib Stateful List Bpos Option

namespace Bpos

/-- What `updateVerifyContext` loads. -/
def fetchContext (env : Env) (block : Block) : Option ConsensusContext := do
  let height := if 0 < block.header.height then block.header.height - 1 else 0
  let dynasty ← env.fetchDynastyByHeight height
  let netParams ← env.fetchNetParamsByHeight height
  return ⟨dynasty, netParams.dynastySwitchThreshold, netParams.calcScoreThreshold⟩

/-- The service after `updateVerifyContext`, whether it fails or not. -/
def refresh (env : Env) (block : Block) (service : Service) : Service :=
  if service.isDynastyChangeForVerify then
    match fetchContext env block with
    | none => service
    | some context => { service with context, isDynastyChangeForVerify := false }
  else service

variable {env : Env} {block : Block} {service : Service}

theorem refresh_none (none : fetchContext env block = none) :
    refresh env block service = service := by
  unfold refresh
  rw [none]
  split
  · rfl
  · rfl

theorem refresh_some {context : ConsensusContext}
    (flag : service.isDynastyChangeForVerify = true) (found : fetchContext env block = some context) :
    refresh env block service = { service with context, isDynastyChangeForVerify := false } := by
  unfold refresh
  rw [flag, found, if_pos rfl]

structure SameContext (service after : Service) : Prop where
  context : after.context = service.context
  flag : after.isDynastyChangeForVerify = service.isDynastyChangeForVerify

theorem updateVerifyContext_refreshes :
    Triple (· = service) (updateVerifyContext env block)
      (fun _ after => after = refresh env block service ∧ after.isDynastyChangeForVerify = false)
      (fun _ after => after = service ∧ refresh env block service = service) := by
  refine .get_bind ?_
  rintro _ rfl
  unfold refresh fetchContext
  generalize (if 0 < block.header.height then block.header.height - 1 else 0) = height
  dsimp only
  split
  · cases env.fetchDynastyByHeight height with
    | none =>
      rintro _ rfl
      exact ⟨rfl, rfl⟩
    | some dynasty =>
      cases env.fetchNetParamsByHeight height with
      | none =>
        rintro _ rfl
        exact ⟨rfl, rfl⟩
      | some netParams =>
        rintro _ rfl
        exact ⟨rfl, rfl⟩
  · next flag =>
    rintro _ rfl
    exact ⟨rfl, eq_false_of_ne_true flag⟩

theorem verifyInternalContractTx_sameContext :
    Always (SameContext service) (verifyInternalContractTx env block) := by
  refine .bind (.lift _) fun _ => .bind .get fun current => ?_
  have counted : Always (SameContext service) (if (block.txs.drop 2).any isInternalContract then
      (.fail .multipleDynastySwitchTx : Stateful Service Error Unit) else pure ()) := .ite (.fail _) (.pure _)
  have none : Always (SameContext service) (if block.txs.any isInternalContract then
      (.fail .dynastySwitchIsNotAllowed : Stateful Service Error Unit) else pure ()) := .ite (.fail _) (.pure _)
  refine .ite .panicked (.ite ?_ (.ite (.ite .panicked counted) none))
  refine .bind (.lift _) fun _ => ?_
  refine .bind (.modify fun _ same => ⟨same.context, same.flag⟩) fun _ => ?_
  exact .ite (.ite .panicked counted) none

/-- `Verify` changes its context only by refreshing it first. -/
theorem verify_refreshes :
    Triple (· = service) (verify env block) (fun _ => SameContext (refresh env block service))
      (fun _ => SameContext (refresh env block service)) := by
  have signed : Triple (· = service) (verifySign env block) (fun _ => SameContext (refresh env block service))
      (fun _ => SameContext (refresh env block service)) := by
    refine .bind (fun _ => SameContext (refresh env block service)) (.weaken updateVerifyContext_refreshes
      (fun _ same => same) (fun _ _ same => same.1 ▸ ⟨rfl, rfl⟩) fun _ _ same => by rw [same.1, same.2]; exact ⟨rfl, rfl⟩) fun _ => ?_
    exact Always.bind Always.get fun current => Always.bind (Always.lift _) fun bookkeeper => Always.pure _
  refine Triple.bind _ signed fun ok => Always.ite (Always.fail _) ?_
  refine Always.bind verifyInternalContractTx_sameContext fun _ => Always.bind Always.get fun current => ?_
  exact .bind (.lift _) fun _ => .bind .get fun current => .lift _

end Bpos

namespace Node

variable {node : Node}

def contextAfter (node : Node) (header : BlockHeader) : Option ConsensusContext := do
  let state ← node.world.new header.rootHash header.utxoRoot
  let dynasty ← node.getDynasty state
  let netParams ← node.getNetParams state
  return ⟨dynasty, netParams.dynastySwitchThreshold, netParams.calcScoreThreshold⟩

def contextAfterParent (node : Node) (view : ChainView node.world) (block : Block) : Option ConsensusContext :=
  (view.getParentBlock block).bind fun parent => node.contextAfter parent.header

def genesisContext (node : Node) : Option ConsensusContext := node.contextAfter node.genesisBlock.header

/-- Each block that was verified, with the context that was right for it and the one that
was used. -/
def verifications (node : Node) (log : List (Entry node.setup)) :
    List (Block × Option ConsensusContext × ConsensusContext) :=
  log.filterMap fun
    | .verified block view service =>
      some (block, node.contextAfterParent view block, (service : Service).context)
    | _ => none

variable {log : List (Entry node.setup)} {block : Block}

theorem mem_verifications {given : Option ConsensusContext}
    {used : ConsensusContext} (among : (block, given, used) ∈ node.verifications log) :
    ∃ view, ∃ service, .verified block view service ∈ log ∧
      node.contextAfterParent view block = given ∧ service.context = used := by
  obtain ⟨entry, logged, same⟩ := mem_filterMap.mp among
  cases entry with
  | verified block view service =>
    cases same
    exact ⟨view, service, logged, rfl, rfl⟩
  | finalized => cases same
  | sealed => cases same
  | connected => cases same

/-- No context has been loaded, because there was none to load. -/
structure Waiting (service : Service) (log : List (Entry node.setup)) : Prop where
  flag : service.isDynastyChangeForVerify = true
  verified : ∀ block view (used : Service), .verified block view used ∈ log →
    node.contextAfterParent view block = none

/-- The context of the genesis block was loaded, and is what blocks are verified with. -/
structure Loaded (service : Service) (log : List (Entry node.setup)) : Prop where
  flag : service.isDynastyChangeForVerify = false
  genesis : node.genesisContext = some service.context
  verified : ∀ block view (used : Service), .verified block view used ∈ log →
    (node.contextAfterParent view block).isSome → used.context = service.context

variable {service : Service}

theorem Loaded.unrefreshed (loaded : Loaded service log)
    (env : Env) (block : Block) : refresh env block service = service := by
  unfold refresh
  rw [loaded.flag, if_neg Bool.false_ne_true]

theorem Loaded.verify {after : Service} (loaded : Loaded service log)
    {env : Env} (same : SameContext (refresh env block service) after)
    {view : ChainView node.world} : Loaded after (log ++ [.verified block view after]) := by
  rw [loaded.unrefreshed] at same
  refine ⟨same.flag.trans loaded.flag, same.context ▸ loaded.genesis, ?_⟩
  intro other otherView used among given
  obtain before | last := mem_append.mp among
  · exact (loaded.verified other otherView used before given).trans same.context.symm
  · cases mem_singleton.mp last
    rfl

/-- The first block that is verified is verified with the context of the genesis block. -/
theorem Waiting.verify {after : Service} (waiting : Waiting service log)
    {env : Env} (same : SameContext (refresh env block service) after)
    (current : fetchContext env block = node.genesisContext) {view : ChainView node.world}
    (parent : node.contextAfterParent view block = node.genesisContext) :
    Waiting after (log ++ [.verified block view after]) ∨ Loaded after (log ++ [.verified block view after]) := by
  cases given : node.genesisContext with
  | none =>
    rw [refresh_none (current.trans given)] at same
    rw [given] at parent
    refine .inl ⟨same.flag.trans waiting.flag, ?_⟩
    intro other otherView used among
    obtain before | last := mem_append.mp among
    · exact waiting.verified other otherView used before
    · cases mem_singleton.mp last
      exact parent
  | some context =>
    rw [refresh_some waiting.flag (current.trans given)] at same
    refine .inr ⟨same.flag, given.trans (congrArg some same.context.symm), ?_⟩
    intro other otherView used among someContext
    obtain before | last := mem_append.mp among
    · rw [waiting.verified other otherView used before] at someContext
      cases someContext
    · cases mem_singleton.mp last
      rfl

theorem Waiting.concat (waiting : Waiting service log)
    {entry : Entry node.setup} (other : ∀ block view used, entry ≠ .verified block view used) :
    Waiting service (log ++ [entry]) := by
  refine ⟨waiting.flag, ?_⟩
  intro block view used among
  obtain before | last := mem_append.mp among
  · exact waiting.verified block view used before
  · exact absurd (mem_singleton.mp last).symm (other block view used)

theorem Loaded.concat (loaded : Loaded service log)
    {entry : Entry node.setup} (other : ∀ block view used, entry ≠ .verified block view used) :
    Loaded service (log ++ [entry]) := by
  refine ⟨loaded.flag, loaded.genesis, ?_⟩
  intro block view used among given
  obtain before | last := mem_append.mp among
  · exact loaded.verified block view used before given
  · exact absurd (mem_singleton.mp last).symm (other block view used)

end Node

/-- Nobody will be told that the dynasty has changed. -/
structure Bus.Quiet (bus : Bus) : Prop where
  unhandled : bus.sendHandlers.lookup .dynastyUpdate = none
  absent : .dynastyUpdate ∉ bus.pending

/-- `Reply` refuses the callback for the dynasty, since it has no channel for a result. -/
theorem Bpos.subscribe_quiet : (subscribe .new).Quiet := ⟨by decide, by decide⟩

theorem Bus.Quiet.send {bus : Bus} (quiet : bus.Quiet) : bus.send .dynastyUpdate = bus := by
  unfold Bus.send
  rw [quiet.unhandled]
  rfl

namespace BlockChain

variable {node : Node} {known : Known node.setup}

/-- What is known about the context between two calls: it was loaded once, or the chain
still has only its genesis block. -/
structure Contextual (chain : BlockChain node.setup) : Prop where
  quiet : chain.bus.Quiet
  phase : (chain.tail.header = node.genesisBlock.header ∧ Node.Waiting chain.consensus chain.log) ∨
    Node.Loaded chain.consensus chain.log

variable {chain : BlockChain node.setup}

section
variable (contextual : chain.Contextual)
include contextual

theorem Contextual.frame {other : BlockChain node.setup}
    (tail : other.tail = chain.tail) (consensus : other.consensus = chain.consensus) (bus : other.bus = chain.bus)
    (log : other.log = chain.log) : other.Contextual := by
  refine ⟨bus ▸ contextual.quiet, ?_⟩
  rw [tail, consensus, log]
  exact contextual.phase

theorem Contextual.send : (chain.send .dynastyUpdate).Contextual :=
  contextual.frame rfl rfl contextual.quiet.send rfl

theorem Contextual.sends {times : Nat} :
    Contextual ((BlockChain.send .dynastyUpdate)^[times] chain) := by
  induction times generalizing chain with
  | zero => exact contextual
  | succ times next =>
    exact next contextual.send

end

variable {block : Block}

theorem getParentBlock_first (child : node.setup.links.ChildOf block.header node.genesisBlock.header) :
    chain.getParentBlock block = some node.genesisBlock := by
  rw [getParentBlock, if_pos (.inr child.1)]
  rfl

/-- The height of the first block's parent is zero, which stands for the tail, and the tail
is the genesis block. -/
theorem fetchContext_first (tail : chain.tail.header = node.genesisBlock.header)
    (child : node.setup.links.ChildOf block.header node.genesisBlock.header) :
    fetchContext (node.bposEnv chain.view) block = node.genesisContext := by
  have level : block.header.height = 1 := by
    have height := child.height_eq
    rw [node.setup.links_height, node.setup.links_height, node.genesis_height] at height
    exact UInt32.toNat_inj.mp height
  have state : chain.view.stateByHeight 0 =
      node.world.new node.genesisBlock.header.rootHash node.genesisBlock.header.utxoRoot := by
    change chain.stateByHeight 0 = _
    rw [stateByHeight, tail, node.genesis_height]
    rfl
  unfold fetchContext
  rw [level]
  change ((chain.view.stateByHeight 0).bind node.getDynasty).bind (fun dynasty =>
    ((chain.view.stateByHeight 0).bind node.getNetParams).bind _) = _
  rw [state, Node.genesisContext, Node.contextAfter]
  cases node.world.new node.genesisBlock.header.rootHash node.genesisBlock.header.utxoRoot <;> rfl

structure Next (header : BlockHeader) (chain : BlockChain node.setup) : Prop where
  contextual : chain.Contextual
  child : chain.tail.header = node.genesisBlock.header → node.setup.links.ChildOf header node.genesisBlock.header

theorem verify_next :
    Always (Next block.header) (BlockChain.verify block : Call node.setup Unit) := by
  refine .get_bind fun chain next => .observe ?_
  have called : ∀ after,
      SameContext (refresh (node.bposEnv chain.view) block chain.consensus) after →
      Next block.header
        { chain with consensus := after, log := chain.log ++ [.verified block chain.view after] } := by
    intro after same
    refine ⟨⟨next.contextual.quiet, ?_⟩, next.child⟩
    obtain ⟨tail, waiting⟩ | loaded := next.contextual.phase
    · have child := next.child tail
      have parent : node.contextAfterParent chain.view block = node.genesisContext := by
        change (chain.getParentBlock block).bind _ = _
        rw [getParentBlock_first child]
        rfl
      obtain waiting | loaded := waiting.verify same (fetchContext_first tail child) parent
      · exact .inl ⟨tail, waiting⟩
      · exact .inr loaded
    · exact .inr (loaded.verify same)
  refine .weaken (zoom_triple verify_refreshes) (fun _ same => same) ?_ ?_
  · rintro - _ ⟨after, rfl, same⟩
    exact called after same
  · rintro - _ ⟨-, after, rfl, same⟩
    exact called after same

/-- A block that becomes the tail has its context loaded, or the node panics. -/
theorem changeNewTail_contextual {tail : Block} :
    Triple (Next tail.header) (changeNewTail tail : Call node.setup Unit) (fun _ => Contextual)
      (fun _ => Contextual) := by
  refine .get_bind fun chain next => ?_
  have finalized : Triple (· = chain) (Call.consensus (node.setup.consensus.finalize chain.view tail))
      (fun _ after => ∃ service, after = { chain with consensus := service } ∧
        service = refresh (node.bposEnv chain.view) tail chain.consensus ∧
        service.isDynastyChangeForVerify = false)
      (fun _ after => after = chain) := by
    refine .weaken (zoom_triple updateVerifyContext_refreshes) (fun _ same => same)
      (fun _ _ holds => holds) ?_
    rintro - _ ⟨-, service, rfl, rfl, -⟩
    rfl
  refine .bind _ (.orPanic finalized fun _ _ same => same ▸ next.contextual) fun _ => .modify ?_
  rintro _ ⟨service, rfl, refreshed, flag⟩
  refine ⟨next.contextual.quiet, .inr (Node.Loaded.concat ?_ nofun)⟩
  obtain ⟨genesis, waiting⟩ | loaded := next.contextual.phase
  · have current := fetchContext_first genesis (next.child genesis)
    cases given : node.genesisContext with
    | none =>
      rw [refreshed.trans (refresh_none (current.trans given)), waiting.flag] at flag
      cases flag
    | some context =>
      have loaded := refreshed.trans (refresh_some waiting.flag (current.trans given))
      refine ⟨flag, given.trans (by rw [loaded]), fun block view used among someContext => ?_⟩
      rw [waiting.verified block view used among] at someContext
      cases someContext
  · rw [refreshed.trans (loaded.unrefreshed _ _)]
    exact loaded

theorem Contextual.concat (contextual : chain.Contextual) {entry : Entry node.setup}
    (other : ∀ block view used, entry ≠ .verified block view used) :
    Contextual { chain with log := chain.log ++ [entry] } := by
  refine ⟨contextual.quiet, ?_⟩
  obtain ⟨tail, waiting⟩ | loaded := contextual.phase
  · exact .inl ⟨tail, waiting.concat other⟩
  · exact .inr (loaded.concat other)

theorem sealBlock_contextual {splitTxs : Table HashType Transaction} {res : node.setup.Result}
    {executedFor : Option Block} :
    Triple (Next block.header) (sealBlock block splitTxs res executedFor) (fun _ => Contextual)
      (fun _ => Contextual) := by
  refine .bind_same (.modify fun _ next => ⟨next.contextual.frame rfl rfl rfl rfl, next.child⟩) fun _ => ?_
  refine .bind_same (.get fun _ next => next) fun chain => ?_
  refine .bind_same (Call.lift_triple (fun _ _ _ next => next) fun _ _ next => next.contextual) fun records => ?_
  refine .bind_same (.modify fun _ next => ⟨next.contextual.frame rfl rfl rfl rfl, next.child⟩) fun _ => ?_
  refine .bind _ changeNewTail_contextual fun _ => .modify fun chain contextual => ?_
  have noted : Contextual { chain with log := chain.log ++ [.sealed block executedFor] } := contextual.concat nofun
  exact noted.frame rfl rfl rfl rfl

variable {messageFrom : PeerID}

theorem connectBlock_contextual :
    Triple (Next block.header) (connectBlock block messageFrom : Call node.setup Block)
      (fun _ => Contextual) (fun _ => Contextual) := by
  refine .bind_same (.get fun _ next => next) fun chain => ?_
  refine .bind_same (Call.lift_triple (fun _ _ _ next => next) fun _ _ next => next.contextual) fun split => ?_
  obtain ⟨blockCopy, splitTxs⟩ := split
  dsimp only
  split
  · refine .bind_same (.lift (fun _ _ _ next => next) fun _ _ _ next => next.contextual) fun kept => ?_
    obtain ⟨executedFor, res⟩ := kept
    refine .bind_same (.modify fun _ next => ⟨next.contextual.frame rfl rfl rfl rfl, next.child⟩) fun _ => ?_
    exact .bind _ sealBlock_contextual fun _ => .pure fun _ holds => holds
  · refine .bind_same (.weaken verify_next (fun _ next => next)
      (fun _ _ next => next) fun _ _ next => next.contextual) fun _ => ?_
    refine .bind_same (.get fun _ next => next) fun chain => ?_
    refine .bind_same (.modify fun chain next => ?_) fun _ => ?_
    · refine ⟨next.contextual.sends, ?_⟩
      rw [send_tail]
      exact next.child
    · refine .bind (fun result chain => result.2.header = block.header ∧ chain.Next block.header)
        (Call.lift_triple (fun result ok _ next => ⟨node.setup.adjustAndValidateState_header ok, next⟩)
          fun _ _ next => next.contextual) fun result => ?_
      obtain ⟨res, after⟩ := result
      refine .of_start fun chain holds => ?_
      obtain ⟨same, next⟩ := holds
      dsimp only at same ⊢
      rw [← same] at next
      refine .bind _ (.of_pre sealBlock_contextual ?_) fun _ => .pure fun _ holds => holds
      rintro _ rfl
      exact next

theorem tryConnectBlockToMainChain_contextual :
    Triple (Next block.header) (tryConnectBlockToMainChain block messageFrom : Call node.setup Block)
      (fun _ => Contextual) (fun _ => Contextual) :=
  tryConnectBlockToMainChain_triple connectBlock_contextual (fun _ _ _ contextual => contextual.concat nofun)
    fun _ _ _ contextual => contextual.concat nofun

theorem tryDisConnectBlockFromMainChain_contextual (higher : block.header ≠ node.genesisBlock.header) :
    Triple (fun chain => chain.Contextual ∧ chain.tail.header = block.header)
      (tryDisConnectBlockFromMainChain block : Call node.setup Unit) (fun _ => Contextual) (fun _ => Contextual) := by
  refine .bind_same (.get fun _ holds => holds) fun chain => ?_
  refine .bind_same (Call.lift_triple (fun _ _ _ holds => holds) fun _ _ holds => holds.1) fun records => ?_
  refine .bind_same (.modify fun _ holds => ⟨holds.1.frame rfl rfl rfl rfl, holds.2⟩) fun _ => ?_
  refine .bind_same (.lift (fun _ _ _ holds => holds) fun _ _ _ holds => holds.1) fun newTail => ?_
  refine .bind (fun _ => Contextual) (.of_pre changeNewTail_contextual fun _ holds =>
    ⟨holds.1, fun genesis => absurd (holds.2.symm.trans genesis) higher⟩) fun _ => ?_
  refine .bind_same (Call.lift_triple (fun _ _ _ holds => holds) fun _ _ holds => holds) fun state => ?_
  exact .modify fun _ holds => holds.frame rfl rfl rfl rfl

theorem contextual_steady {eternal : BlockHeader} :
    Steady known eternal eternal messageFrom Contextual where
  frame contextual same := contextual.frame same.tail same.consensus same.bus same.log
  send contextual := contextual.send
  connect := by
    intro headers block within onto
    refine .of_pre tryConnectBlockToMainChain_contextual ?_
    rintro chain ⟨shape, contextual⟩
    refine ⟨contextual, fun genesis => ?_⟩
    obtain ⟨-, parent, first, child⟩ := onto
    have tail : parent = chain.tail.header := some.inj (first.symm.trans shape.tail_eq)
    rw [tail, genesis] at child
    exact child
  disconnect := by
    intro block rest below
    refine .of_start fun start both => ?_
    obtain ⟨shape, contextual⟩ := both
    have higher : block.header ≠ node.genesisBlock.header := by
      cases rest with
      | nil => cases below
      | cons next rest =>
        have height := (isChain_cons_cons.mp shape.branch.linked).1.height_eq
        intro genesis
        rw [genesis, node.setup.links_height, node.genesis_height] at height
        cases height
    refine .of_pre (tryDisConnectBlockFromMainChain_contextual higher) ?_
    rintro _ rfl
    exact ⟨contextual, (some.inj shape.tail_eq).symm⟩

theorem step_contextual (low : known.Low) {first : BlockHeader} {event : Event} (about : event.About known) :
    Triple (fun chain => ShapedAbove known first chain ∧ chain.Contextual) (step event : Call node.setup Unit)
      (fun _ => Contextual) (fun _ => Contextual) := by
  have always : ∀ {action : Call node.setup Unit}, Always Contextual action →
      Triple (fun chain => ShapedAbove known first chain ∧ chain.Contextual) action (fun _ => Contextual)
        (fun _ => Contextual) := fun keeps => .of_pre keeps fun _ both => both.2
  cases event with
  | processBlock block messageFrom => exact Upheld.ends (fun _ => contextual_steady.upheld) low about trivial
  | updateEternal block =>
    refine always (.bind .get fun chain => .ite (.pure _) ?_)
    refine .bind (.lift _) fun found => .ite (.pure _) ?_
    exact .modify fun _ holds => holds.frame rfl rfl rfl rfl
  | executeBlock block reward totalTransferFee =>
    refine always (.bind ?_ fun _ => .pure _)
    refine .bind .get fun chain => .bind (.lift _) fun parent => ?_
    refine .bind (.lift _) fun state => .bind (.lift _) fun result => ?_
    exact .bind (.modify fun _ holds => holds.frame rfl rfl rfl rfl) fun _ => .pure _
  | deliver =>
    refine always (.modify fun chain holds => ?_)
    cases pending : chain.bus.pending with
    | nil => exact holds
    | cons topic rest =>
      have absent := holds.quiet.absent
      rw [pending, mem_cons, not_or] at absent
      dsimp only
      rw [if_neg (Ne.symm absent.1)]
      exact ⟨⟨holds.quiet.unhandled, absent.2⟩, holds.phase⟩

theorem start_contextual (records : ChainState) (tailState : node.world.State) (context : ConsensusContext) :
    (node.start records tailState context).Contextual :=
  ⟨subscribe_quiet, .inl ⟨rfl, rfl, nofun⟩⟩

/-- In every run, a block is verified with the dynasty and the thresholds that the genesis
contract gives after its parent exactly when they are those that it gave after the genesis
block. -/
theorem verified_with_current_context_iff {records : ChainState} {tailState : node.world.State}
    {context : ConsensusContext} (low : known.Low) (fresh : (node.start records tailState context).Fresh)
    {events : List Event} {middle : BlockChain node.setup}
    (ran : Runs step (node.start records tailState context) events middle) (event : Event)
    (about : ∀ call ∈ event :: events, call.About known) {block : Block} {expected used : ConsensusContext}
    (called : (block, some expected, used) ∈ node.verifications ((step event).after middle).log) :
    used = expected ↔ node.genesisContext = some expected := by
  rw [forall_mem_cons] at about
  have before := runs_keep ran low about.2 (fun call among => step_contextual low (about.2 call among))
    ⟨fresh.shapedAbove known, start_contextual records tailState context⟩
  have contextual : ((step event).after middle).Contextual := (step_contextual low about.1).after before
  obtain ⟨view, service, verified, given, rfl⟩ := Node.mem_verifications called
  obtain ⟨-, waiting⟩ | loaded := contextual.phase
  · rw [waiting.verified block view service verified] at given
    cases given
  · rw [loaded.verified block view service verified (given ▸ rfl), loaded.genesis, some_inj]

end BlockChain

def mixedHash (bytes : Bytes) : HashType :=
  ⟨bytesLE 32 (bytes.foldl (fun mixed byte => (mixed * 257 + byte.toNat + 1) % 2 ^ 256) 0), by simp⟩

/-- Cryptography in which every signature is valid. -/
def openCrypto : Crypto where
  Signature := Unit
  PublicKey := Bytes
  hash160 bytes := .copy 20 (mixedHash bytes).bytes
  createAddress addr nonce := .copy 20 (mixedHash (addr.bytes ++ bytesLE 8 nonce.toNat)).bytes
  doubleHash := mixedHash
  sigFromBytes _ := some ()
  publicKeyFromBytes := some
  verifySignature _ _ _ := true

def countedRoot (blocks : Nat) : HashType := ⟨bytesLE 32 blocks, by simp⟩

/-- A world whose state is the number of blocks, each of which rewards the genesis contract. -/
def countingWorld : World where
  State := Nat
  new root _ := some (natLE root.bytes)
  stateDB blocks :=
    { isContractAddr := (· = sampleGenesis.contractAddr)
      getContractUtxo := fun addr =>
        if addr = sampleGenesis.contractAddr then some ⟨.ofNat (317000000 * blocks), [], 0⟩ else none
      getNonce := fun addr => if addr = sampleGenesis.admin then 7 else 0
      getBalance := fun addr => if addr = sampleGenesis.contractAddr then 317000000 * blocks else 0 }
  addBalance state _ _ := state
  subBalance state _ _ := state
  updateUtxo state _ _ := some state
  commit blocks := some (countedRoot blocks, some (countedRoot blocks), blocks)

def turnDelegate (blocks : Nat) : AddressHash := .copy 20 [UInt8.ofNat blocks]
def turnDynasty (blocks : Nat) : Dynasty := ⟨[⟨turnDelegate blocks, "peer"⟩], [turnDelegate blocks]⟩
def turnContext (blocks : Nat) : ConsensusContext := ⟨turnDynasty blocks, 250, 200⟩

/-- A node whose dynasty changes with every block. A signature is the address of the
delegate that made it. -/
def turnNode : Node where
  crypto := openCrypto
  pow10 := samplePow10
  world := countingWorld
  genesis := sampleGenesis
  Receipt := Unit
  receiptsHash _ := zeroHash
  withTxHash _ receipt := receipt
  createReceiptsBloom _ := (sampleHeader 0).bloom
  dynastySwitchTopics _ := 0
  process _ _ blocks utxoSet := some ([], 0, [], Nat.succ blocks, utxoSet)
  getDynasty blocks := some (turnDynasty blocks)
  getNetParams _ := some ⟨250, 317000000, 200⟩
  calcScores := none
  blockHash header := .copy 32 (bytesLE 4 header.height.toNat ++ bytesLE 8 header.timeStamp.toUInt64.toNat)
  dynastyHash delegates := mixedHash (delegates.flatMap fun delegate => delegate.addr.bytes)
  recoverCompact _ signature := some (.copy 20 signature)
  genesisBlock := sampleBlock { sampleHeader 0 with timeStamp := 0 } []
  genesis_height := rfl
  bookkeeper := sampleBookKeeper
  depth := 9

/-- A block with nothing but its coinbase, signed by the delegate of a given dynasty. -/
def turnBlock (parent : BlockHeader) (timeStamp : Int64) (turn : Nat) : Block where
  header := { parent with
    prevBlockHash := turnNode.blockHash parent
    txsRoot := txHash openCrypto (sampleCoinbase (parent.height + 1) 317000000 0)
    rootHash := countedRoot (parent.height.toNat + 1)
    utxoRoot := countedRoot (parent.height.toNat + 1)
    timeStamp
    dynastyHash := turnNode.dynastyHash (turnDynasty turn).delegates
    height := parent.height + 1 }
  txs := [sampleCoinbase (parent.height + 1) 317000000 0]
  internalTxs := []
  signature := (turnDelegate turn).bytes
  irreversibleInfo := none

def turnRecords : ChainState where
  utxos := AList.insert (UtxoSet.contractOutPoint sampleGenesis.contractAddr) ⟨0, [], 0⟩ ∅
  addrUtxos := ∅
  txIndex := ∅
  splitTxs := ∅
  txs := ∅
  splitAddrs := ⟨⟨fun addr => addr.bytes.map UInt8.toNat, []⟩, ∅⟩
  blockHashes := ∅
  blocks := (∅ : Table HashType Block).insert turnNode.setup.genesisHash turnNode.genesisBlock
  tail := turnNode.genesisBlock

def turnStart : BlockChain turnNode.setup := turnNode.start turnRecords (0 : Nat) ⟨⟨[], []⟩, 0, 0⟩

def turnFirst : Block := turnBlock turnNode.genesisBlock.header 1 0
def turnSecond : Block := turnBlock turnFirst.header 2 0

namespace BlockChain

def turnMiddle : BlockChain turnNode.setup := (step (.processBlock turnFirst "peer")).after turnStart
def turnFinal : BlockChain turnNode.setup := (step (.processBlock turnSecond "peer")).after turnMiddle

def turnHeaders : List BlockHeader := [turnNode.genesisBlock.header, turnFirst.header, turnSecond.header]

def turnKnown : Known turnNode.setup where
  headers := { header | header ∈ turnHeaders }
  genesis_mem := mem_cons_self
  injOn := by
    have injective : ∀ left ∈ turnHeaders, ∀ right ∈ turnHeaders,
        turnNode.blockHash left = turnNode.blockHash right → left = right := by decide +kernel
    exact fun left leftMem right rightMem same => injective left leftMem right rightMem same

theorem turnKnown_low : turnKnown.Low := by
  have low : ∀ header ∈ turnHeaders, header.height ≠ maxUint32 := by decide +kernel
  exact low

theorem turnStart_fresh : turnStart.Fresh := ⟨rfl, rfl, rfl, rfl, rfl, rfl⟩

/-- The first block is verified with the right context. -/
theorem first_block_verified_with_current_context :
    (turnFirst, some (turnContext 0), turnContext 0) ∈ turnNode.verifications turnFinal.log ∧
      turnNode.genesisContext = some (turnContext 0) := by
  have ran : Runs step turnStart [.processBlock turnFirst "peer"] turnMiddle := Runs.single (by decide +kernel)
  have about : ∀ call ∈ [Event.processBlock turnSecond "peer", .processBlock turnFirst "peer"], call.About turnKnown := by
    rw [forall_mem_cons, forall_mem_singleton]
    exact ⟨mem_cons_of_mem _ (mem_cons_of_mem _ mem_cons_self), mem_cons_of_mem _ mem_cons_self⟩
  have called : (turnFirst, some (turnContext 0), turnContext 0) ∈ turnNode.verifications turnFinal.log := by
    decide +kernel
  exact ⟨called, (verified_with_current_context_iff turnKnown_low turnStart_fresh ran (.processBlock turnSecond "peer")
    about called).mp rfl⟩

/-- The second block is signed by a delegate that the contract had replaced with the
first block, and it is accepted. -/
theorem second_block_verified_with_old_context :
    ((step (.processBlock turnSecond "peer")).run.run turnMiddle).1 = .ok () ∧
      (turnSecond, some (turnContext 1), turnContext 0) ∈ turnNode.verifications turnFinal.log ∧
      turnContext 0 ≠ turnContext 1 := by
  refine ⟨by decide +kernel, by decide +kernel, by decide +kernel⟩

end BlockChain
end Boxd
