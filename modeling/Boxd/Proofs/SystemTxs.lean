import Boxd.Bpos.Verify
import Boxd.Proofs.ContractScripts

/-! System transactions skip the script and input checks, so consensus has to know all of
them. The rebuilt ones are compared as bytes, which determine the message. -/

namespace Boxd.Bpos
open Lib Option Outcome Stateful UInt64 Script List

variable {env : Env} {block : Block} {tx : Transaction}

/-- A transaction that the node builds for this block: the dynasty switch, or a score
transaction, with the nonce that follows the coinbase in the parent's state. -/
def IsSystemTx (env : Env) (block : Block) (tx : Transaction) : Prop :=
  ∃ parent parentState, env.getParentBlock block = some parent ∧
    env.world.new parent.header.rootHash parent.header.utxoRoot = some parentState ∧
    ∃ built, tx.toTxMessage = built.toTxMessage ∧
      (makeDynastySwitchTx env.genesis env.genesis.admin
          ((env.world.stateDB parentState).getNonce env.genesis.admin + 2) block.header.height = some built ∨
        ∃ scores, makeCalcScoreTx env.genesis env.genesis.admin
          ((env.world.stateDB parentState).getNonce env.genesis.admin + 2) block.header.height scores = some built)

def SwitchHeight (context : ConsensusContext) (height : UInt32) : Prop :=
  (height + 1).toUInt64 % ofNat context.verifyDynastySwitchThreshold = 0

def ScoreHeight (context : ConsensusContext) (height : UInt32) : Prop :=
  height.toUInt64 % ofNat context.verifyDynastySwitchThreshold =
    ofNat context.verifyCalcScoreThreshold

theorem verifyImmutableTx_ok {ty : SystemCall} (ok : verifyImmutableTx env block ty = .ok ()) :
    ∃ parent parentState expected index err current, env.getParentBlock block = some parent ∧
      env.world.new parent.header.rootHash parent.header.utxoRoot = some parentState ∧
      expectedTx env block parentState ty = .ok (expected, index, err) ∧
      block.txs[index]? = some current ∧ current.toTxMessage = expected.toTxMessage := by
  obtain ⟨parent, found, ok⟩ := bind_ok_iff.mp ok
  obtain ⟨parentState, opened, ok⟩ := bind_ok_iff.mp ok
  obtain ⟨⟨expected, index, err⟩, built, ok⟩ := bind_ok_iff.mp ok
  obtain ⟨current, present, ok⟩ := bind_ok_iff.mp ok
  refine ⟨parent, parentState, expected, index, err, current, expect_ok found, orFail_ok opened, built,
    expect_ok present, ?_⟩
  split at ok
  · cases ok
  · next same => exact (TxMessage.marshal_injective (not_not.mp same)).symm

theorem makeContractCallVout_ok {sender contract : AddressHash} {amount gas nonce : UInt64} {txOut : TxOut}
    (made : (makeContractCallVout sender contract amount gas nonce).toOption = some txOut) :
    txOut.value = amount ∧ isContractPubkey txOut.scriptPubKey = true := by
  unfold makeContractCallVout at made
  cases script : makeContractScriptPubkey sender contract gas nonce vmVersion with
  | error err => simp [script, Except.map, Except.toOption] at made
  | ok value =>
    rw [script] at made
    cases made
    exact ⟨rfl, makeContractScriptPubkey_isContract script⟩

theorem makeCoinBaseContractTx_eq {genesis : GenesisContract} {bookKeeper : AddressHash}
    {reward txFee nonce : UInt64} {blockHeight : UInt32}
    (built : makeCoinBaseContractTx genesis bookKeeper reward txFee nonce blockHeight = some tx) :
    ∃ call, call.value = reward ∧ isContractPubkey call.scriptPubKey = true ∧
      tx.vin = [systemInput maxUint32 blockHeight] ∧
      tx.vout = call :: if 0 < txFee then [makeVout bookKeeper txFee] else [] := by
  simp only [makeCoinBaseContractTx, bind_eq_bind, bind_eq_some_iff] at built
  obtain ⟨call, made, code, packed, built⟩ := built
  obtain ⟨value, isContract⟩ := makeContractCallVout_ok made
  cases built
  exact ⟨call, value, isContract, rfl, rfl⟩

/-- An accepted coinbase is the rebuilt one: a contract call, and at most one more
output, which pays the bookkeeper. -/
theorem coinbase_shape (ok : verifyImmutableTx env block .calcBonus = .ok ()) :
    ∃ coinbase call txFee, block.txs[0]? = some coinbase ∧ isContractPubkey call.scriptPubKey = true ∧
      coinbase.vin = [systemInput maxUint32 block.header.height] ∧
      coinbase.vout = call :: if 0 < txFee then [makeVout block.header.bookKeeper txFee] else [] := by
  obtain ⟨parent, parentState, expected, index, err, current, -, -, built, present, same⟩ := verifyImmutableTx_ok ok
  obtain ⟨coinbase, first, built⟩ := bind_ok_iff.mp built
  obtain ⟨reward, paid, built⟩ := bind_ok_iff.mp built
  obtain ⟨tx, made, built⟩ := bind_ok_iff.mp built
  cases built
  obtain ⟨call, -, isContract, vin, vout⟩ := makeCoinBaseContractTx_eq (orFail_ok made)
  exact ⟨current, call, _, present, isContract, (congrArg TxMessage.vin same).trans vin,
    (congrArg TxMessage.vout same).trans vout⟩

theorem coinbase_not_internal
    (ok : verifyImmutableTx env block .calcBonus = .ok ()) (first : block.txs[0]? = some tx) :
    isInternalContract tx = false := by
  obtain ⟨coinbase, call, txFee, present, -, vin, -⟩ := coinbase_shape ok
  cases first.symm.trans present
  unfold isInternalContract hasSystemInput
  rw [vin]
  rfl

theorem switch_isSystemTx (ok : verifyImmutableTx env block .execBonus = .ok ()) (second : block.txs[1]? = some tx) :
    IsSystemTx env block tx := by
  obtain ⟨parent, parentState, expected, index, err, current, found, opened, built, present, same⟩ :=
    verifyImmutableTx_ok ok
  obtain ⟨switch, made, built⟩ := bind_ok_iff.mp built
  cases built
  cases second.symm.trans present
  exact ⟨parent, parentState, found, opened, expected, same, .inl (orFail_ok made)⟩

/-- What an accepted block guarantees at each kind of height. -/
theorem verifyInternalContractTx_ok {bpos after : Service}
    (accepted : (verifyInternalContractTx env block).Returns bpos () after) :
    verifyImmutableTx env block .calcBonus = .ok () ∧
      (SwitchHeight bpos.context block.header.height → verifyImmutableTx env block .execBonus = .ok ()) ∧
      (∀ tx ∈ block.txs.drop 2, isInternalContract tx = false) ∧
      (¬SwitchHeight bpos.context block.header.height → ¬ScoreHeight bpos.context block.header.height →
        ∀ tx ∈ block.txs, isInternalContract tx = false) := by
  unfold verifyInternalContractTx at accepted
  simp only [returns_bind, returns_lift, returns_get] at accepted
  obtain ⟨_, _, ⟨coinbase, rfl⟩, _, _, ⟨rfl, rfl⟩, accepted⟩ := accepted
  refine ⟨coinbase, ?_⟩
  split at accepted
  · simp at accepted
  by_cases switch : (block.header.height + 1).toUInt64 % ofNat bpos.context.verifyDynastySwitchThreshold = 0
  · rw [if_pos switch, if_pos (.inl switch)] at accepted
    simp only [returns_bind, returns_lift] at accepted
    obtain ⟨_, _, ⟨switched, rfl⟩, _, _, -, accepted⟩ := accepted
    split_ifs at accepted with short scanned
    · simp at accepted
    · simp at accepted
    · exact ⟨fun _ => switched, by simpa using scanned, fun other => absurd switch other⟩
  · rw [if_neg switch] at accepted
    split_ifs at accepted with score short scanned scanned
    · simp at accepted
    · simp at accepted
    · exact ⟨fun other => absurd other switch, by simpa using scanned,
        fun _ other => absurd (score.resolve_left switch) other⟩
    · simp at accepted
    · have none : ∀ tx ∈ block.txs, isInternalContract tx = false := by simpa using scanned
      exact ⟨fun other => absurd other switch, fun tx member => none tx (mem_of_mem_drop member),
        fun _ _ => none⟩

/-- In an accepted block every internal contract transaction is one the node builds, if and
only if the second transaction is, where the height is for scores and not for the dynasty
switch. -/
theorem internal_contracts_built_iff (env : Env) (block : Block) (bpos after : Service)
    (accepted : (verifyInternalContractTx env block).Returns bpos () after) :
    (∀ tx ∈ block.txs, isInternalContract tx = true → IsSystemTx env block tx) ↔
      (ScoreHeight bpos.context block.header.height → ¬SwitchHeight bpos.context block.header.height →
        ∀ tx, block.txs[1]? = some tx → isInternalContract tx = true → IsSystemTx env block tx) := by
  obtain ⟨coinbase, switched, later, others⟩ := verifyInternalContractTx_ok accepted
  constructor
  · intro built _ _ tx second
    exact built tx (mem_of_getElem? second)
  · intro scored tx member internal
    obtain ⟨index, found⟩ := mem_iff_getElem?.mp member
    -- The position of the transaction decides which check it went through.
    match index, found with
    | 0, found => simp [coinbase_not_internal coinbase found] at internal
    | 1, found =>
      by_cases switch : SwitchHeight bpos.context block.header.height
      · exact switch_isSystemTx (switched switch) found
      · by_cases score : ScoreHeight bpos.context block.header.height
        · exact scored score switch tx found internal
        · simp [others switch score tx member] at internal
    | index + 2, found =>
      have dropped : tx ∈ block.txs.drop 2 := mem_of_getElem? (by simpa [Nat.add_comm] using found)
      simp [later tx dropped] at internal

def sampleGenesis : GenesisContract where
  admin := ⟨[205, 213, 118, 47, 15, 111, 31, 240, 118, 86, 167, 106, 82, 186, 82, 134, 186, 45, 132, 22], by decide⟩
  contractAddr :=
    ⟨[230, 231, 234, 175, 157, 54, 130, 255, 36, 18, 97, 182, 81, 89, 138, 205, 194, 225, 72, 254], by decide⟩
  pack
    | .calcBonus => some [186, 97, 2, 31]
    | .execBonus => some [160, 238, 219, 115]
    | .calcScore scores =>
      let word (n : Int) : Bytes := (bytesLE 32 (n % 2 ^ 256).toNat).reverse
      some ([0, 42, 249, 198] ++ word 32 ++ word scores.length ++ scores.flatMap word)

def sampleBookKeeper : AddressHash :=
  .copy 20 [117, 30, 118, 232, 25, 145, 150, 212, 84, 148, 28, 69, 209, 179, 163, 35, 241, 67, 59, 214]

/-- A state that holds no contract besides the nonce of the administrator. -/
def sampleWorld : World where
  State := Unit
  new _ _ := some ()
  stateDB _ := ⟨fun _ => false, fun _ => none, fun addr => if addr = sampleGenesis.admin then 7 else 0, fun _ => 0⟩
  addBalance state _ _ := state
  subBalance state _ _ := state
  updateUtxo state _ _ := some state
  commit state := some (zeroHash, none, state)

def sampleHeader (height : UInt32) : BlockHeader where
  version := 1
  prevBlockHash := zeroHash
  txsRoot := zeroHash
  internalTxsRoot := zeroHash
  utxoRoot := zeroHash
  receiptHash := zeroHash
  timeStamp := 1600000000
  magic := 0
  rootHash := zeroHash
  dynastyHash := zeroHash
  height := height
  gasUsed := 0
  bookKeeper := sampleBookKeeper
  bloom := [3, 0, 0, 0, 0, 0, 0, 0, 128, 2] ++ replicate 256 0

def sampleBlock (header : BlockHeader) (txs : List Transaction) : Block := ⟨header, txs, [], [], none⟩

def sampleEnv : Env where
  world := sampleWorld
  genesis := sampleGenesis
  getParentBlock block := some (sampleBlock (sampleHeader (block.header.height - 1)) [])
  fetchDynastyByHeight _ := none
  fetchNetParamsByHeight _ := none
  calcScores := none
  blockHash _ := zeroHash
  dynastyHash _ := zeroHash
  recoverCompact _ _ := none

/-- The thresholds the genesis contract starts with. -/
def sampleService : Service := ⟨⟨⟨[], []⟩, 250, 200⟩, false, false⟩

def sampleCoinbase (height : UInt32) (reward txFee : UInt64) : Transaction :=
  (makeCoinBaseContractTx sampleGenesis sampleBookKeeper reward txFee 8 height).getD (newTx 1 0 0)

def sampleSwitch : Transaction :=
  (makeDynastySwitchTx sampleGenesis sampleGenesis.admin 9 249).getD (newTx 1 0 0)

theorem sample_switch_built :
    (verifyInternalContractTx sampleEnv (sampleBlock (sampleHeader 249) [sampleCoinbase 249 317000000 0,
        sampleSwitch])).Returns sampleService () { sampleService with isDynastyChange := true } ∧
      IsSystemTx sampleEnv (sampleBlock (sampleHeader 249) [sampleCoinbase 249 317000000 0, sampleSwitch])
        sampleSwitch := by
  have accepted : (verifyInternalContractTx sampleEnv (sampleBlock (sampleHeader 249)
      [sampleCoinbase 249 317000000 0, sampleSwitch])).Returns sampleService ()
        { sampleService with isDynastyChange := true } := by decide +kernel
  refine ⟨accepted, (internal_contracts_built_iff _ _ _ _ accepted).mpr ?_ sampleSwitch ?_ ?_⟩
  · intro score
    unfold ScoreHeight at score
    exact absurd score (by decide)
  · simp [sampleBlock]
  · decide +kernel

def sampleForged : Transaction :=
  { newTx 1 0 0 with
    vin := [systemInput (maxUint32 - 1) 200]
    vout := [makeVout sampleBookKeeper 100000000000000000] }

/-- At a height for scores a bookkeeper can put any transaction with the input of a
system transaction in second place, and pay itself coins that nobody had. -/
theorem forged_system_tx_accepted :
    (verifyInternalContractTx sampleEnv (sampleBlock (sampleHeader 200) [sampleCoinbase 200 317000000 0,
        sampleForged])).Returns sampleService () sampleService ∧
      isInternalContract sampleForged = true ∧
      ¬IsSystemTx sampleEnv (sampleBlock (sampleHeader 200) [sampleCoinbase 200 317000000 0, sampleForged])
        sampleForged := by
  refine ⟨by decide +kernel, by decide +kernel, ?_⟩
  rintro ⟨parent, parentState, -, -, built, same, made | ⟨scores, made⟩⟩
  · obtain ⟨code, -, rfl⟩ := map_eq_some_iff.mp made
    exact absurd (congrArg TxMessage.data same) (by simp [makeGenesisContractTx, sampleForged, newTx])
  · obtain ⟨code, -, rfl⟩ := map_eq_some_iff.mp made
    exact absurd (congrArg TxMessage.data same) (by simp [makeGenesisContractTx, sampleForged, newTx])

end Boxd.Bpos
