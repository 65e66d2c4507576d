import Boxd.Chain.Execute

/-! How a block is connected to the main chain and disconnected again. The records are
tables, one for each kind of key in the database. -/

namespace Boxd
open Lib Outcome UtxoSet Table Script

/-- `AddrUtxoKey`, and `AddrTokenUtxoKey` for an output that holds tokens. -/
structure AddrUtxoKey where
  addrHash : AddressHash
  tokenID : Option TokenID
  outPoint : OutPoint
  deriving DecidableEq

/-- The records of the chain, with the filter that is kept in memory next to those of
the split addresses. Outputs are kept decoded. -/
structure ChainState where
  utxos : UtxoDB
  addrUtxos : Table AddrUtxoKey UtxoEntry
  txIndex : Table HashType (UInt32 × UInt32)
  splitTxs : Table HashType TxMessage
  txs : Table HashType TxMessage
  splitAddrs : SplitAddrIndex
  blockHashes : Table UInt32 HashType
  blocks : Table HashType Block
  tail : Block

/-- What a node uses besides the records. The consensus verifies a block; the depth
stands for the size of the stack. -/
structure NodeEnv extends ChainEnv where
  blockHash : BlockHeader → HashType
  genesisBlock : Block
  verify : Block → Bool
  depth : Nat

/-- The key under which `WriteUtxoSetToDB` lists an output. An output that is not in the
database any more has no script. -/
def addrUtxoKey (outPoint : OutPoint) (script : Bytes) : Outcome ChainError (Option AddrUtxoKey) :=
  let sc : Script := script
  if script.isEmpty then
    .ok (if outPoint.isContractType then some ⟨outPoint.contractAddr, none, outPoint⟩ else none)
  else if sc.isOpReturnScript then .fail .opReturnVout
  else match sc.extractAddress with
    | .error err => .fail (.script err)
    | .ok address =>
      if sc.isTokenTransfer then
        match sc.getTransferParams with
        | .error (.error err) => .fail (.script err)
        | .error .panic => .panicked
        | .ok params => (expect address.hash160).map fun addr => some ⟨addr, some params.tokenID, outPoint⟩
      else if sc.isTokenIssue then
        (expect address.hash160).map fun addr => some ⟨addr, some outPoint, outPoint⟩
      else if !sc.isContractPubkey then
        (expect address.hash160).map fun addr => some ⟨addr, none, outPoint⟩
      else .ok (some ⟨outPoint.contractAddr, none, outPoint⟩)

namespace ChainState

/-- One entry of the loop of `WriteUtxoSetToDB`. -/
def writeUtxo (st : ChainState) (outPoint : OutPoint) (utxoWrap : UtxoWrap) : Outcome ChainError ChainState :=
  if !utxoWrap.isModified then .ok st
  else do
    let key ← addrUtxoKey outPoint utxoWrap.script
    return { st with
      utxos := change UtxoWrap.written outPoint utxoWrap st.utxos
      addrUtxos := key.elim st.addrUtxos fun key => change UtxoWrap.written key utxoWrap st.addrUtxos }

def writeUtxoSetToDB (u : UtxoSet) (st : ChainState) : Outcome ChainError ChainState :=
  u.utxoMap.entries.foldlM (fun st entry => st.writeUtxo entry.1 entry.2) st

def indexedTxs (block : Block) (splitTxs : Table HashType Transaction) : List Transaction :=
  block.txs ++ block.internalTxs ++ splitTxs.entries.map fun entry => entry.2

def writeTxIndex (c : Crypto) (block : Block) (splitTxs : Table HashType Transaction) (st : ChainState) : ChainState :=
  { st with
    txIndex := (indexedTxs block splitTxs).zipIdx.foldl (fun txIndex entry =>
      txIndex.insert (txHash c entry.1) (block.header.height, .ofNat entry.2)) st.txIndex }

def delTxIndex (c : Crypto) (block : Block) (splitTxs : Table HashType Transaction) (st : ChainState) : ChainState :=
  { st with txIndex := (indexedTxs block splitTxs).foldl (fun txIndex tx => txIndex.erase (txHash c tx)) st.txIndex }

def storeSplitTxs (c : Crypto) (splitTxs : Table HashType Transaction) (st : ChainState) : ChainState :=
  { st with
    splitTxs := splitTxs.entries.foldl (fun stored entry => stored.insert entry.1 entry.2.toTxMessage) st.splitTxs
    txs := splitTxs.entries.foldl (fun stored entry => stored.insert (txHash c entry.2) entry.2.toTxMessage) st.txs }

def delSplitTxs (c : Crypto) (splitTxs : Table HashType Transaction) (st : ChainState) : ChainState :=
  { st with
    splitTxs := splitTxs.entries.foldl (fun stored entry => stored.erase entry.1) st.splitTxs
    txs := splitTxs.entries.foldl (fun stored entry => stored.erase (txHash c entry.2)) st.txs }

end ChainState

def makeSplitAddress (c : Crypto) (hash : HashType) (idx : UInt32) (addrs : List AddressHash) (weights : List UInt32) :
    AddressHash :=
  c.hash160 (hash.bytes ++ bytesLE 4 idx.toNat ++ (c.hash160 (splitAddrOperands addrs weights)).bytes)

def createdSplitAddr (c : Crypto) (hash : HashType) (idx : Nat) (vout : TxOut) :
    Outcome ChainError (Option (AddressHash × SplitAddrInfo)) :=
  let sc : Script := vout.scriptPubKey
  if !sc.isSplitAddrScript then .ok none
  else match sc.parseSplitAddrScript c with
    | .error (.error err) => .fail (.script err)
    | .error .panic => .panicked
    | .ok (addrs, weights) => .ok (some (makeSplitAddress c hash (.ofNat idx) addrs weights, ⟨addrs.zip weights⟩))

def createdSplitAddrs (c : Crypto) (block : Block) : Outcome ChainError (List (AddressHash × SplitAddrInfo)) := do
  let outputs := block.txs.flatMap fun tx => tx.vout.zipIdx.map fun (vout, idx) => (txHash c tx, idx, vout)
  let created ← outputs.mapM fun (hash, idx, vout) => createdSplitAddr c hash idx vout
  return created.filterMap id

namespace ChainState

def writeSplitAddrIndex (c : Crypto) (block : Block) (st : ChainState) : Outcome ChainError ChainState := do
  let created ← createdSplitAddrs c block
  return { st with
    splitAddrs :=
      ⟨created.foldl (fun filter entry => filter.add entry.1) st.splitAddrs.splitAddrFilter,
        created.foldl (fun records entry => records.insert entry.1 entry.2.marshall) st.splitAddrs.records⟩ }

/-- `DeleteSplitAddrIndex`. The filter is left as it is. -/
def deleteSplitAddrIndex (c : Crypto) (block : Block) (st : ChainState) : Outcome ChainError ChainState := do
  let created ← createdSplitAddrs c block
  return { st with
    splitAddrs := ⟨st.splitAddrs.splitAddrFilter,
      created.foldl (fun records entry => records.erase entry.1) st.splitAddrs.records⟩ }

variable (env : NodeEnv)

/-- `writeBlockToDB` without the receipts. -/
def writeBlockToDB (block : Block) (splitTxs : Table HashType Transaction) (utxoSet : UtxoSet)
    (st : ChainState) : Outcome ChainError ChainState := do
  let hash := env.blockHash block.header
  let st := { st with
    blockHashes := st.blockHashes.insert block.header.height hash
    blocks := st.blocks.insert hash block }
  let st := (st.writeTxIndex env.crypto block splitTxs).storeSplitTxs env.crypto splitTxs
  let st ← st.writeSplitAddrIndex env.crypto block
  let st ← st.writeUtxoSetToDB utxoSet
  return { st with tail := block }

variable (st : ChainState)

def tryConnectBlockToMainChain (block : Block) : Outcome ChainError (ChainState × Block) := do
  let (blockCopy, splitTxs) ← splitBlockOutputs env.crypto st.splitAddrs env.depth block
  if !env.verify block then .fail .consensusFailed
  else
    let (res, block) ← adjustAndValidateState env.toChainEnv st.tail.header.height st.utxos block blockCopy
    let st ← st.writeBlockToDB env block splitTxs res.utxoSet
    return (st, block)

def loadBlockByHeight (height : UInt32) : Option Block :=
  if height = 0 then some env.genesisBlock else (st.blockHashes.lookup height).bind st.blocks.lookup

/-- `LoadBlockInfoByTxHash`. An index after the transactions of the block is that of a
split transaction. -/
def loadBlockInfoByTxHash (hash : HashType) : Option (Block × TxMessage) := do
  let (height, index) ← st.txIndex.lookup hash
  let block ← st.loadBlockByHeight env height
  let listed := (block.txs ++ block.internalTxs)[index.toNat]?
  let tx ← if index.toNat < block.txs.length + block.internalTxs.length then listed.map Transaction.toTxMessage
    else st.txs.lookup hash
  if env.crypto.calcTxHash tx = hash then some (block, tx) else none

/-- The outputs in `RevertTx`: what was added is spent. -/
def revertVouts (hash : HashType) (vout : List TxOut) (u : UtxoSet) : UtxoSet :=
  vout.zipIdx.foldl (fun u (o, i) =>
    let sc : Script := o.scriptPubKey
    if sc.isOpReturnScript || sc.isContractPubkey then u else u.spendUtxo ⟨hash, .ofNat i⟩) u

/-- One input in `RevertTx`. An output that was deleted is read from the block that
holds it. -/
def revertVin (u : UtxoSet) (outPoint : OutPoint) : Outcome ChainError UtxoSet :=
  if outPoint.isContractType then .ok u
  else match u.findUtxo outPoint with
    | some utxoWrap => .ok (u.put outPoint utxoWrap.unSpend)
    | none => do
      let (block, prevTx) ← expect (st.loadBlockInfoByTxHash env outPoint.hash)
      let prevOut ← expect prevTx.vout[outPoint.index.toNat]?
      if isOpReturnScript prevOut.scriptPubKey then return u
      else return u.put outPoint (.new prevOut.value prevOut.scriptPubKey block.header.height)

def revertTx (u : UtxoSet) (tx : Transaction) : Outcome ChainError UtxoSet :=
  let u := revertVouts (txHash env.crypto tx) tx.vout u
  if isCoinBase tx || isInternalContract tx then .ok u
  else (tx.vin.map TxIn.prevOutPoint).foldlM (revertVin env st) u

def revertBlock (u : UtxoSet) (block : Block) : Outcome ChainError UtxoSet :=
  (block.txs ++ block.internalTxs).reverse.foldlM (revertTx env st) u

/-- The contract that an output pays in `calcContractAddrBalanceChanges`. -/
def paidContractAddr (c : Crypto) (statedb : StateDB) (vout : TxOut) : Except ChainError (Option AddressHash) :=
  let sc : Script := vout.scriptPubKey
  if !sc.isContractPubkey then .ok ((pubKeyHashOf sc).filter statedb.isContractAddr)
  else match sc.parseContractParams with
    | .error err => .error (.script err)
    | .ok param => .ok (some (if param.receiver = zeroAddressHash then c.createAddress param.sender param.nonce
      else param.receiver))

def takenFromContract (tx : Transaction) : Outcome ChainError (Option (AddressHash × UInt64)) := do
  let first ← expect tx.vin.head?
  if !first.prevOutPoint.isContractType then return none
  else return some (first.prevOutPoint.contractAddr, (tx.vout.map TxOut.value).foldl (· + ·) 0)

/-- `calcContractAddrBalanceChanges`: what the contracts gain and what they lose. -/
def calcContractAddrBalanceChanges (c : Crypto) (statedb : StateDB) (block : Block) :
    Outcome ChainError (Table AddressHash UInt64 × Table AddressHash UInt64) := do
  let paid ← lift ((block.txs.flatMap fun tx => tx.vout).mapM fun vout =>
    (paidContractAddr c statedb vout).map fun addr => addr.map (·, vout.value))
  let taken ← block.internalTxs.mapM takenFromContract
  let total := fun (changes : List (Option (AddressHash × UInt64))) =>
    (changes.filterMap id).foldl (fun total (addr, value) => deposit total addr value) ∅
  return (total paid, total taken)

/-- The entry that a contract starts from in `MakeRollbackContractUtxos`. -/
def rollbackUtxo (statedb prevStateDB : StateDB) (height : UInt32) (addr : AddressHash) :
    Outcome ChainError UtxoWrap := do
  let sc ← expect
    (makeContractScriptPubkey zeroAddressHash addr transferGasLimit (prevStateDB.getNonce addr) vmVersion).toOption
  return .new (.ofNat (statedb.getBalance addr)) sc height

/-- The entry of a contract in the state before the block, whose balance has to be what is
left when the changes are taken back. -/
def previousUtxo (prevStateDB : StateDB) (outPoint : OutPoint) (utxoWrap : UtxoWrap) : Outcome ChainError UtxoWrap :=
  let addr := outPoint.contractAddr
  if UInt64.ofNat (prevStateDB.getBalance addr) ≠ utxoWrap.value then .fail .rollbackBalance
  else .ok (((prevStateDB.getContractUtxo addr).map UtxoEntry.wrap).getD utxoWrap.spend)

def makeRollbackContractUtxos (block : Block) : Outcome ChainError UtxoMap := do
  let state ← expect (env.world.new block.header.rootHash block.header.utxoRoot)
  let prevBlock ← orFail .blockNotFound (st.blocks.lookup block.header.prevBlockHash)
  let prevState ← orFail .stateNotFound
    (env.world.new prevBlock.header.rootHash prevBlock.header.utxoRoot)
  let statedb := env.world.stateDB state
  let prevStateDB := env.world.stateDB prevState
  let (bAdd, bSub) ← calcContractAddrBalanceChanges env.crypto statedb block
  let um ← bAdd.entries.foldlM (fun (um : UtxoMap) entry => do
    let utxo ← rollbackUtxo statedb prevStateDB block.header.height entry.1
    return um.insert (contractOutPoint entry.1) (utxo.setValue (utxo.value - entry.2))) ∅
  let um ← bSub.entries.foldlM (fun (um : UtxoMap) entry => do
    let utxo ← match um.lookup (contractOutPoint entry.1) with
      | some utxo => pure utxo
      | none => rollbackUtxo statedb prevStateDB block.header.height entry.1
    return um.insert (contractOutPoint entry.1) (utxo.setValue (utxo.value + entry.2))) um
  um.entries.foldlM (fun (um : UtxoMap) entry => do
    let utxo ← previousUtxo prevStateDB entry.1 entry.2
    return um.insert entry.1 utxo) ∅

def tryDisConnectBlockFromMainChain (block : Block) : Outcome ChainError ChainState := do
  let (blockCopy, splitTxs) ← splitBlockOutputs env.crypto st.splitAddrs env.depth block
  let state ← orFail .stateNotFound (env.world.new block.header.rootHash block.header.utxoRoot)
  let utxoSet := new.loadBlockAllUtxos env.crypto blockCopy false st.utxos (env.world.stateDB state)
  let utxoSet ← st.revertBlock env utxoSet blockCopy
  let contractUtxos ← st.makeRollbackContractUtxos env block
  let utxoSet := utxoSet.importUtxoMap contractUtxos
  let st := { st with blockHashes := st.blockHashes.erase block.header.height }
  let st := (st.delTxIndex env.crypto block splitTxs).delSplitTxs env.crypto splitTxs
  let st ← st.deleteSplitAddrIndex env.crypto block
  let st ← st.writeUtxoSetToDB utxoSet
  let newTail ← expect (env.getParentBlock block)
  let _ ← orFail .stateNotFound (env.world.new newTail.header.rootHash newTail.header.utxoRoot)
  return { st with tail := newTail }

end ChainState
end Boxd
