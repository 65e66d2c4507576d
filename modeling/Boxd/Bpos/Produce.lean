import Boxd.Chain.Connect

/-! How a bookkeeper executes the block that it has packed, before the block is signed
and sent. -/

namespace Boxd
open Lib Outcome

/-- What the bookkeeper uses besides: its address, and the parts of a receipt that
production writes or reads. -/
structure ProducerEnv extends NodeEnv where
  bookkeeper : AddressHash
  withTxHash : HashType → Receipt → Receipt
  createReceiptsBloom : List Receipt → Bytes

namespace Produce

def addGasUsed (bookkeeper : AddressHash) (gasUsed : UInt64) (coinbase : Transaction) : Transaction :=
  match coinbase.vout with
  | [reward, fee] => { coinbase with vout := [reward, { fee with value := fee.value + gasUsed }] }
  | vout => { coinbase with vout := vout ++ [makeVout bookkeeper gasUsed] }

/-- What `executeBlock` changes when gas was used. The hash of the coinbase is cached, so
the old output is spent; the error of `AddUtxo` is not looked at. -/
def creditGasUsed (env : ProducerEnv) (block : Block) (gasUsed : UInt64) (receipts : List env.Receipt)
    (state : env.world.State) (utxoSet : UtxoSet) :
    Outcome ChainError (Block × List env.Receipt × env.world.State × UtxoSet) :=
  if gasUsed = 0 then .ok (block, receipts, state, utxoSet)
  else match block.txs, receipts with
    | coinbase :: txs, receipt :: rest =>
      let state := env.world.addBalance state env.bookkeeper gasUsed.toInt64.toInt
      let paid := addGasUsed env.bookkeeper gasUsed coinbase
      let utxoSet := utxoSet.spendUtxo ⟨txHash env.crypto coinbase, 1⟩
      let utxoSet := match utxoSet.addUtxo env.crypto paid 1 block.header.height with
        | .ok utxoSet => utxoSet
        | .error _ => utxoSet
      .ok ({ block with txs := paid :: txs }, env.withTxHash (txHash env.crypto paid) receipt :: rest, state, utxoSet)
    | _, _ => .panicked

def sealHeader (env : ProducerEnv) (block : Block) (gasUsed : UInt64) (receipts : List env.Receipt)
    (root : HashType) (utxoRoot : Option HashType) : Outcome ChainError BlockHeader := do
  let txsRoot ← calcTxsHash env.crypto block.txs
  let internalTxsRoot ← if block.internalTxs.isEmpty then .ok block.header.internalTxsRoot
    else calcTxsHash env.crypto block.internalTxs
  return { block.header with
    gasUsed
    rootHash := root
    txsRoot
    internalTxsRoot
    utxoRoot := utxoRoot.getD block.header.utxoRoot
    bloom := env.createReceiptsBloom receipts
    receiptHash := if receipts.isEmpty then block.header.receiptHash else env.receiptsHash receipts }

/-- `executeBlock`, with the block afterwards and the result that is kept for it. -/
def executeBlock (env : ProducerEnv) (st : ChainState) (block : Block) (state : env.world.State) :
    Outcome ChainError (Block × BlockExecuteResult env.toChainEnv) := do
  let utxoSet ← lift (UtxoSet.new.loadBlockUtxos env.crypto block true st.utxos (env.world.stateDB state))
  let (blockCopy, _) ← splitBlockOutputs env.crypto st.splitAddrs env.depth block
  let (utxoSet, blockCopy) ← utxoSet.applyBlock env.crypto blockCopy (env.world.stateDB state)
  let state := updateNormalTxBalanceState env.world blockCopy utxoSet state
  let (receipts, gasUsed, utxoTxs, state, utxoSet) ← orFail .processFailed (env.process block state utxoSet)
  let (block, receipts, state, utxoSet) ← creditGasUsed env block gasUsed receipts state utxoSet
  let block := { block with internalTxs := utxoTxs }
  let utxoSet := utxoSet.applyInternalTxs env.crypto block
  let state ← updateContractUtxoState env.world state utxoSet
  let (root, utxoRoot, state) ← orFail .stateFailed (env.world.commit state)
  let header ← sealHeader env block gasUsed receipts root utxoRoot
  if !utxoSet.contractUtxoMap.all (balanceAgrees (env.world.stateDB state)) then .fail .ambiguousBalance
  else return ({ block with header }, ⟨state, receipts, utxoSet⟩)

/-- The state that `PackTxs` hands to `executeBlock`: the administrator gets the reward, and
the bookkeeper the fees of the transfers. -/
def creditFees (env : ProducerEnv) (reward totalTransferFee : UInt64) (state : env.world.State) : env.world.State :=
  let state := env.world.addBalance state env.genesis.admin reward.toNat
  if 0 < totalTransferFee then env.world.addBalance state env.bookkeeper totalTransferFee.toInt64.toInt else state

end Produce
end Boxd
