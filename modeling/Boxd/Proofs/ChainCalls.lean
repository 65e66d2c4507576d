import Boxd.Chain.Blockchain

/-! Rules for the calls on a chain. -/

namespace Boxd.BlockChain
open Lib Stateful Bpos

variable {setup : Setup}

variable {kept : BlockChain setup → Prop}

theorem Call.lift_keeps {α : Type} (result : Outcome ChainError α) :
    Keeps kept (Call.lift result : Call setup α) := .lift _

variable {pre : BlockChain setup → Prop} {failed : Fault BlockError → BlockChain setup → Prop}

theorem Call.lift_triple {α : Type}
    {post : α → BlockChain setup → Prop} {result : Outcome ChainError α}
    (returns : ∀ value, result = .ok value → ∀ chain, pre chain → post value chain)
    (fails : ∀ fault chain, pre chain → failed fault chain) :
    Triple pre (Call.lift result : Call setup α) post failed :=
  .lift (fun value ok => returns value (mapError_ok_iff.mp ok)) fun fault _ => fails fault

theorem Call.lift_unfailing {α : Type}
    {post : α → BlockChain setup → Prop}
    {result : Outcome ChainError α} (unfailing : result.Unfailing)
    (returns : ∀ value, result = .ok value → ∀ chain, pre chain → post value chain)
    (dies : ∀ chain, pre chain → failed .panic chain) : Triple pre (Call.lift result : Call setup α) post failed := by
  refine .lift (fun value ok => returns value (mapError_ok_iff.mp ok)) fun fault failing => ?_
  cases result with
  | ok found => cases failing
  | error first =>
    cases first with
    | error err => exact absurd rfl (unfailing err)
    | panic =>
      cases failing
      exact dies

theorem Call.consensus_keeps {α : Type}
    {action : Stateful setup.consensus.Service Error α}
    (keep : ∀ service chain, kept chain → kept { chain with consensus := service }) :
    Keeps kept (Call.consensus action) := .zoom keep

theorem Call.consensus_always {α : Type}
    {action : Stateful setup.consensus.Service Error α}
    (keep : ∀ service chain, kept chain → kept { chain with consensus := service }) :
    Always kept (Call.consensus action) := .zoom keep

theorem verify_keeps {block : Block}
    (keep : ∀ service log chain, kept chain → kept { chain with consensus := service, log }) :
    Keeps kept (verify block) := by
  refine .bind .get fun chain => .observe ?_
  refine .weaken (Call.consensus_keeps fun service chain holds => keep service chain.log chain holds)
    (fun _ holds => holds) (fun _ state holds => keep state.consensus _ state holds) fun _ state survived => ?_
  exact survived.mono (fun holds => keep state.consensus _ state holds) fun _ => trivial

theorem tryConnectBlockToMainChain_triple {block : Block} {messageFrom : PeerID}
    {post : Block → BlockChain setup → Prop}
    (triple : Triple pre (connectBlock block messageFrom) post failed)
    (returns : ∀ before after chain, post after chain →
      post after (noteConnected block messageFrom before (.ok after) chain))
    (fails : ∀ before fault chain, failed fault chain →
      failed fault (noteConnected block messageFrom before (.error fault) chain)) :
    Triple pre (tryConnectBlockToMainChain block messageFrom) post failed := by
  refine .get_bind fun before holds => .observe ?_
  exact .weaken triple (fun _ same => same ▸ holds) (returns before) (fails before)

theorem send_tail {topic : Topic} {times : Nat} {chain : BlockChain setup} :
    ((send topic)^[times] chain).tail = chain.tail := by
  induction times generalizing chain with
  | zero => rfl
  | succ times next =>
    rw [Function.iterate_succ_apply, next]
    rfl

end Boxd.BlockChain
