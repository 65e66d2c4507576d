import Boxd.Chain.Execute
import Boxd.Proofs.SplitOutputs
import Boxd.Proofs.SystemTxs
import Boxd.Proofs.Tokens

/-! What the coinbase pays. Consensus rebuilds the coinbase from the values of its own
outputs, and execution compares one sum of 64 bits. -/

namespace Boxd
open Lib Bpos Option Stateful Outcome Script

def contractOutputs (tx : Transaction) : List Nat :=
  (tx.vout.filter fun txOut => isContractPubkey txOut.scriptPubKey).map fun txOut => txOut.value.toNat

def paidTo (addr : AddressHash) (tx : Transaction) : Nat :=
  ((tx.vout.filter fun txOut => txOut.scriptPubKey = payToPubKeyHashScript addr).map
    fun txOut => txOut.value.toNat).sum

/-- The contract output of the coinbase is the reward, and the bookkeeper gets the
fees and the gas. -/
def CoinbasePays (block : Block) (reward fees gas : Nat) : Prop :=
  ∃ coinbase, block.txs.head? = some coinbase ∧ contractOutputs coinbase = [reward] ∧
    paidTo block.header.bookKeeper coinbase = fees + gas

def FirstOutputIs (block : Block) (value : Nat) : Prop :=
  ∃ coinbase txOut, block.txs.head? = some coinbase ∧ coinbase.vout.head? = some txOut ∧ txOut.value.toNat = value

theorem Bpos.verify_coinbase {env : Env} {block : Block} {bpos after : Service}
    (verified : (verify env block).Returns bpos () after) :
    verifyImmutableTx env block .calcBonus = .ok () := by
  obtain ⟨ok, _, -, verified⟩ := returns_bind.mp verified
  cases ok with
  | false => simp at verified
  | true =>
    obtain ⟨_, _, checked, -⟩ := returns_bind.mp verified
    exact (verifyInternalContractTx_ok checked).1

/-- The only comparison of the coinbase with the reward, the fees and the gas. -/
theorem validateExecuteResult_sum {env : ChainEnv} {longestChainHeight : UInt32} {block final : Block}
    {utxoTxs : List Transaction} {usedGas totalTxsFee : UInt64} {receipts : List env.Receipt} {netParams : NetParams}
    {coinbase : Transaction} (first : block.txs.head? = some coinbase)
    (params : env.fetchNetParamsByHeight longestChainHeight = some netParams)
    (executed : validateExecuteResult env longestChainHeight block utxoTxs usedGas totalTxsFee receipts = .ok final) :
    (coinbase.vout.map TxOut.value).foldl (· + ·) 0 = UInt64.ofNat netParams.blockReward + totalTxsFee + usedGas := by
  obtain ⟨checked, internal, executed⟩ := bind_ok_iff.mp executed
  have sameTxs : checked.txs = block.txs := by
    unfold checkInternalTxs at internal
    split at internal
    · cases internal
      rfl
    · obtain ⟨root, -, internal⟩ := bind_ok_iff.mp internal
      split at internal
      · cases internal
      · cases internal
        rfl
  split at executed
  · cases executed
  · obtain ⟨paying, found, executed⟩ := bind_ok_iff.mp executed
    obtain ⟨read, fetched, executed⟩ := bind_ok_iff.mp executed
    obtain rfl := some.inj (first.symm.trans (sameTxs ▸ expect_ok found))
    obtain rfl := some.inj (params.symm.trans (orFail_ok fetched))
    by_contra differs
    rw [if_pos differs] at executed
    cases executed

theorem coinbasePays_iff_values {block : Block} {coinbase : Transaction} {call : TxOut} {txFee : UInt64}
    {reward fees gas : Nat} (first : block.txs.head? = some coinbase)
    (isContract : isContractPubkey call.scriptPubKey = true)
    (vout : coinbase.vout = call :: if 0 < txFee then [makeVout block.header.bookKeeper txFee] else []) :
    CoinbasePays block reward fees gas ↔ call.value.toNat = reward ∧ txFee.toNat = fees + gas := by
  have other : call.scriptPubKey ≠ payToPubKeyHashScript block.header.bookKeeper := by
    intro same
    simp [same, payToPubKeyHash_not_contract] at isContract
  have paid : contractOutputs coinbase = [call.value.toNat] ∧
      paidTo block.header.bookKeeper coinbase = txFee.toNat := by
    unfold contractOutputs paidTo
    rw [vout]
    split
    · simp [isContract, other, makeVout, payToPubKeyHash_not_contract]
    · next none =>
      obtain rfl : txFee = 0 := UInt64.le_zero_iff.mp (UInt64.not_lt.mp none)
      simp [isContract, other]
  constructor
  · rintro ⟨found, isFirst, outputs, total⟩
    obtain rfl := some.inj (first.symm.trans isFirst)
    exact ⟨by simpa [paid.1] using outputs, paid.2.symm.trans total⟩
  · rintro ⟨outputs, total⟩
    exact ⟨coinbase, first, by rw [paid.1, outputs], paid.2.trans total⟩

/-- The coinbase of an accepted block pays what it should if and only if its first
output is the reward, and the fees and the gas fit into 64 bits. -/
theorem coinbase_pays_iff (env : Env) (chain : ChainEnv) (bpos after : Service) (block final : Block)
    (longestChainHeight : UInt32) (utxoTxs : List Transaction) (usedGas totalTxsFee : UInt64)
    (receipts : List chain.Receipt) (netParams : NetParams)
    (verified : (verify env block).Returns bpos () after)
    (params : chain.fetchNetParamsByHeight longestChainHeight = some netParams)
    (executed : validateExecuteResult chain longestChainHeight block utxoTxs usedGas totalTxsFee receipts =
      .ok final) :
    CoinbasePays block netParams.blockReward totalTxsFee.toNat usedGas.toNat ↔
      FirstOutputIs block netParams.blockReward ∧ totalTxsFee.toNat + usedGas.toNat < 2 ^ 64 := by
  obtain ⟨coinbase, call, txFee, first, isContract, -, vout⟩ := coinbase_shape (verify_coinbase verified)
  rw [← List.head?_eq_getElem?] at first
  rw [coinbasePays_iff_values first isContract vout]
  have firstOutput : FirstOutputIs block netParams.blockReward ↔ call.value.toNat = netParams.blockReward := by
    simp [FirstOutputIs, first, vout]
  have total : (coinbase.vout.map TxOut.value).foldl (· + ·) 0 = call.value + txFee := by
    rw [vout]
    split
    · simp [makeVout]
    · next none =>
      obtain rfl : txFee = 0 := UInt64.le_zero_iff.mp (UInt64.not_lt.mp none)
      simp
  have sum := congrArg UInt64.toNat (total.symm.trans (validateExecuteResult_sum first params executed))
  rw [firstOutput]
  simp only [UInt64.toNat_add, UInt64.toNat_ofNat'] at sum
  have feeBound := txFee.toNat_lt
  constructor
  · rintro ⟨paid, fee⟩
    exact ⟨paid, by omega⟩
  · rintro ⟨paid, fits⟩
    exact ⟨paid, by omega⟩

/-- A block with one transfer and the given outputs of its coinbase, and what its
header hashes to. -/
structure SampleBlock where
  reward : UInt64
  txFee : UInt64
  txsRoot : HashType
  hash : HashType
  signature : Bytes

def sampleDynasty : Dynasty :=
  ⟨[⟨sampleBookKeeper, "12D3KooWFQ2naj8XZUVyGhFzBTEMrMc6emiCEDKLjaJMsK7p8Cza"⟩], [sampleBookKeeper]⟩

def sampleDynastyHash : HashType :=
  ⟨[240, 116, 206, 96, 0, 185, 62, 47, 29, 106, 72, 177, 4, 170, 220, 194, 53, 127, 101, 236, 219, 247,
    230, 196, 146, 143, 45, 182, 101, 57, 36, 126], by decide⟩

def sampleNetParams : NetParams := ⟨250, 317000000, 200⟩

def sampleTransfer : Transaction :=
  { newTx 1 0 0 with
    vin := [⟨⟨.fill 32 0x11, 0⟩, [], maxUint32⟩]
    vout := [makeVout sampleBookKeeper 50000] }

def SampleBlock.block (sample : SampleBlock) : Block where
  header := { sampleHeader 10 with txsRoot := sample.txsRoot, dynastyHash := sampleDynastyHash }
  txs := [sampleCoinbase 10 sample.reward sample.txFee, sampleTransfer]
  internalTxs := []
  signature := sample.signature
  irreversibleInfo := none

def sampleConsensus (block : Block) (hash : HashType) : Env :=
  { sampleEnv with
    fetchDynastyByHeight := fun _ => some sampleDynasty
    fetchNetParamsByHeight := fun _ => some sampleNetParams
    blockHash := fun header => if header = block.header then hash else zeroHash
    dynastyHash := fun delegates => if delegates = sampleDynasty.delegates then sampleDynastyHash else zeroHash
    recoverCompact := fun signed signature =>
      if signed = hash ∧ signature = block.signature then some sampleBookKeeper else none }

def SampleBlock.env (sample : SampleBlock) : Env := sampleConsensus sample.block sample.hash

def sampleChain : ChainEnv where
  crypto := ⟨Unit, Unit, fun _ => zeroAddressHash, fun addr _ => addr, fun _ => zeroHash, fun _ => none,
    fun _ => none, fun _ _ _ => false⟩
  pow10 := samplePow10
  world := sampleWorld
  genesis := sampleGenesis
  Receipt := Unit
  receiptsHash _ := zeroHash
  process _ _ _ := none
  fetchNetParamsByHeight _ := some sampleNetParams
  getParentBlock _ := none

def sampleVerifying : Service := ⟨⟨⟨[], []⟩, 0, 0⟩, false, true⟩
def sampleVerified : Service := ⟨⟨sampleDynasty, 250, 200⟩, false, false⟩

/-- The reward for the contract, and the fee of one transfer for the bookkeeper. -/
def fairBlock : SampleBlock where
  reward := 317000000
  txFee := 1050000
  txsRoot :=
    ⟨[209, 144, 69, 170, 51, 168, 107, 254, 204, 209, 195, 11, 93, 30, 22, 195, 221, 195, 230, 198, 129,
    64, 91, 6, 93, 195, 204, 137, 108, 76, 73, 224], by decide⟩
  hash :=
    ⟨[157, 234, 239, 195, 104, 151, 146, 69, 104, 38, 189, 235, 181, 133, 153, 1, 167, 177, 198, 19, 29,
    12, 100, 182, 70, 196, 47, 73, 167, 28, 93, 190], by decide⟩
  signature :=
    [31, 225, 254, 67, 77, 52, 91, 243, 48, 131, 171, 182, 40, 15, 79, 68, 172, 95, 178, 41, 52, 151,
    120, 19, 194, 12, 1, 95, 43, 67, 211, 250, 184, 93, 188, 40, 117, 153, 169, 93, 101, 252, 18, 130,
    82, 87, 183, 61, 251, 175, 31, 242, 113, 123, 151, 110, 141, 27, 86, 187, 210, 208, 200, 222, 232]

theorem fairBlock_pays : (verify fairBlock.env fairBlock.block).Returns sampleVerifying () sampleVerified ∧
      validateExecuteResult sampleChain 9 fairBlock.block [] 0 1050000 [] = .ok fairBlock.block ∧
      CoinbasePays fairBlock.block 317000000 1050000 0 := by
  have verified : (verify fairBlock.env fairBlock.block).Returns sampleVerifying () sampleVerified := by
    decide +kernel
  have executed : validateExecuteResult sampleChain 9 fairBlock.block [] 0 1050000 [] = .ok fairBlock.block := rfl
  refine ⟨verified, executed, (coinbase_pays_iff _ sampleChain _ _ _ _ 9 [] 0 1050000 [] sampleNetParams verified rfl
    executed).mpr ⟨⟨_, _, rfl, rfl, rfl⟩, by decide⟩⟩

/-- The bookkeeper takes all of the reward but one unit. -/
def greedyBlock : SampleBlock where
  reward := 1
  txFee := 318049999
  txsRoot :=
    ⟨[19, 149, 232, 243, 91, 203, 60, 83, 223, 32, 219, 23, 73, 188, 254, 146, 230, 78, 92, 95, 159, 186,
    81, 194, 63, 86, 81, 151, 45, 58, 10, 159], by decide⟩
  hash :=
    ⟨[215, 234, 50, 115, 3, 177, 45, 211, 235, 179, 219, 209, 176, 182, 76, 164, 97, 85, 2, 117, 62, 242,
    255, 112, 36, 94, 60, 226, 2, 68, 61, 32], by decide⟩
  signature :=
    [31, 172, 236, 114, 230, 133, 28, 25, 63, 20, 71, 120, 72, 253, 43, 146, 181, 82, 142, 228, 37, 137,
    129, 113, 15, 65, 200, 148, 73, 80, 165, 214, 53, 92, 246, 103, 136, 171, 156, 59, 166, 49, 175,
    180, 193, 131, 215, 209, 59, 54, 211, 49, 123, 1, 12, 59, 85, 148, 98, 188, 105, 221, 188, 94, 171]

/-- A bookkeeper can move the reward from the contract to itself, since only the sum
of the outputs is compared. -/
theorem greedyBlock_accepted :
    (verify greedyBlock.env greedyBlock.block).Returns sampleVerifying () sampleVerified ∧
      validateExecuteResult sampleChain 9 greedyBlock.block [] 0 1050000 [] = .ok greedyBlock.block ∧
      ¬CoinbasePays greedyBlock.block 317000000 1050000 0 := by
  refine ⟨by decide +kernel, rfl, ?_⟩
  rintro ⟨coinbase, first, outputs, -⟩
  cases first
  exact absurd outputs (by decide +kernel)

end Boxd
