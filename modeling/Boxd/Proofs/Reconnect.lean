import Boxd.Proofs.Coins
import Boxd.Proofs.InternalTxs
import Boxd.Proofs.RevertBlock
import Boxd.Proofs.Rollback

/-! Connecting a block and disconnecting it again. Disconnecting expands the block once
more and reads what was spent from the blocks that hold it, so it restores the records
as long as both see what connecting saw. -/

namespace Boxd
open Lib UtxoSet ChainState List AList Outcome Table UtxoWrap Script Bpos UInt64 Except

variable {c : Crypto} {utxoWrap : UtxoWrap} {origin : Transaction}

/-- Two states with the same records, apart from the blocks themselves. -/
structure Restored (before after : ChainState) : Prop where
  utxos : ∀ outPoint, after.utxos.lookup outPoint = before.utxos.lookup outPoint
  addrUtxos : ∀ key, after.addrUtxos.lookup key = before.addrUtxos.lookup key
  txIndex : ∀ hash, after.txIndex.lookup hash = before.txIndex.lookup hash
  splitTxs : ∀ hash, after.splitTxs.lookup hash = before.splitTxs.lookup hash
  txs : ∀ hash, after.txs.lookup hash = before.txs.lookup hash
  splitAddrs : ∀ addr, after.splitAddrs.records.lookup addr = before.splitAddrs.records.lookup addr
  blockHashes : ∀ height, after.blockHashes.lookup height = before.blockHashes.lookup height
  tail : after.tail = before.tail

/-- The index with the split addresses of a block. -/
def SplitAddrIndex.withAddrs (index : SplitAddrIndex) (created : List (AddressHash × SplitAddrInfo)) : SplitAddrIndex :=
  ⟨created.foldl (fun filter entry => filter.add entry.1) index.splitAddrFilter,
    created.foldl (fun records entry => records.insert entry.1 entry.2.marshall) index.records⟩

/-- The records with those of the block, before the outputs are written. -/
def withBlock (env : NodeEnv) (st : ChainState) (block : Block) (splits : Table HashType Transaction)
    (created : List (AddressHash × SplitAddrInfo)) : ChainState :=
  { (({ st with
        blockHashes := st.blockHashes.insert block.header.height (env.blockHash block.header)
        blocks := st.blocks.insert (env.blockHash block.header) block }).writeTxIndex env.crypto block splits).storeSplitTxs
      env.crypto splits with
    splitAddrs := st.splitAddrs.withAddrs created }

def withoutBlock (env : NodeEnv) (st : ChainState) (block : Block) (splits : Table HashType Transaction)
    (created : List (AddressHash × SplitAddrInfo)) : ChainState :=
  { (({ st with blockHashes := st.blockHashes.erase block.header.height }).delTxIndex env.crypto block splits).delSplitTxs
      env.crypto splits with
    splitAddrs := ⟨st.splitAddrs.splitAddrFilter,
      created.foldl (fun records entry => records.erase entry.1) st.splitAddrs.records⟩ }

variable {block : Block}

theorem writeBlockToDB_ok {env : NodeEnv} {st after : ChainState} {splits : Table HashType Transaction}
    {u : UtxoSet} (ok : st.writeBlockToDB env block splits u = .ok after) :
    ∃ created between, createdSplitAddrs env.crypto block = .ok created ∧
      Written u (withBlock env st block splits created) between ∧ after = { between with tail := block } := by
  simp only [writeBlockToDB, writeSplitAddrIndex, bind_ok_iff] at ok
  obtain ⟨_, ⟨created, made, done⟩, between, written, final⟩ := ok
  cases done
  cases final
  exact ⟨created, between, made, writeUtxoSetToDB_ok written, rfl⟩

/-- For the block that was prepared, the state processor makes no transactions, and touches
the one contract only. -/
def Quiet (env : NodeEnv) (block : Block) (contract : AddressHash) (ready : Prepared env.toChainEnv) : Prop :=
  ∀ receipts gasUsed utxoTxs final (after : UtxoSet),
    env.process block ready.state ready.utxoSet = some (receipts, gasUsed, utxoTxs, final, after) →
      utxoTxs = [] ∧
        (∀ outPoint, outPoint ≠ contractOutPoint contract → after.findUtxo outPoint = ready.utxoSet.findUtxo outPoint) ∧
        (after.findUtxo (contractOutPoint contract)).map UtxoWrap.script =
          (ready.utxoSet.findUtxo (contractOutPoint contract)).map UtxoWrap.script

variable {copy : Block}

section
variable {c : Crypto} {index : SplitAddrIndex} {depth : Nat} {splits : Table HashType Transaction}
  (expanded : splitBlockOutputs c index depth block = .ok (copy, splits))
include expanded

theorem expandedCopy : copy.header = block.header ∧ copy.internalTxs = block.internalTxs ∧
      splitTxs c index depth block.txs ∅ = .ok (copy.txs, splits) := by
  simp only [splitBlockOutputs, bind_ok_iff, Prod.exists] at expanded
  obtain ⟨copies, found, split, done⟩ := expanded
  cases done
  exact ⟨rfl, rfl, split⟩

theorem splitBlockOutputs_copy : copy = { block with txs := copy.txs } := by
  simp only [splitBlockOutputs, bind_ok_iff, Prod.exists] at expanded
  obtain ⟨_, _, -, done⟩ := expanded
  cases done
  rfl

end

/-- The steps of a connection that succeeds. -/
structure Connects (env : NodeEnv) (st : ChainState) (block copy : Block) (splits : Table HashType Transaction)
    (state : env.world.State) (ready : Prepared env.toChainEnv) (start final : UtxoSet) (after : ChainState) : Prop where
  parent : env.world.new st.tail.header.rootHash st.tail.header.utxoRoot = some state
  load : new.loadBlockUtxos env.crypto block true st.utxos (env.world.stateDB state) = .ok start
  present : ∀ outPoint ∈ block.txs.flatMap consumed, ∃ utxoWrap, start.findUtxo outPoint = some utxoWrap
  prepared : prepareBlock env.toChainEnv st.utxos block copy = .ok ready
  apply : ∃ later, applyTxs env.crypto block.header.height (env.world.stateDB ready.credited) copy.txs start =
    .ok (ready.utxoSet, later)
  process : ∃ receipts gasUsed state', env.process block ready.state ready.utxoSet = some (receipts, gasUsed, [], state', final)
  write : st.writeBlockToDB env { block with internalTxs := [] } splits final = .ok after

theorem connects {env : NodeEnv} {st after : ChainState} {block' : Block} {splits : Table HashType Transaction}
    {contract : AddressHash} (parent : env.getParentBlock block = some st.tail) (typed : ∀ tx ∈ block.txs, tx.type ≠ .unknownTx)
    (quiet : ∀ ready, prepareBlock env.toChainEnv st.utxos block copy = .ok ready → Quiet env block contract ready)
    (expanded : splitBlockOutputs env.crypto st.splitAddrs env.depth block = .ok (copy, splits))
    (ok : tryConnectBlockToMainChain env st block = .ok (after, block')) :
    block' = { block with internalTxs := [] } ∧ ∃ state ready start final,
      Connects env st block copy splits state ready start final after := by
  simp only [tryConnectBlockToMainChain, expanded, ok_bind, ite_fail_ok_iff, bind_ok_iff, Prod.exists] at ok
  obtain ⟨-, result, checked, valid, final, written, done⟩ := ok
  cases done
  simp only [adjustAndValidateState, executeBlock, bind_ok_iff, Prod.exists] at valid
  obtain ⟨run, ⟨ready, prepared, receipts, gasUsed, utxoTxs, processed, final, process, ran⟩, validated, executed, _, -, root,
    utxoRoot, _, -, valid⟩ := valid
  cases ran
  have quiet := quiet ready prepared
  have steps := prepared
  simp only [prepareBlock, applyBlock, parent, expect, ok_bind, bind_ok_iff, lift_ok_iff, Prod.exists] at steps
  obtain ⟨state, found, start, load, ⟨⟩, -, fees, txs, inputs, credited, -, middle, _, ⟨_, later, applied, copied⟩, steps⟩ := steps
  cases copied
  cases steps
  obtain ⟨rfl, present⟩ := validateBlockInputs_present typed inputs
  have process := orFail_ok process
  obtain ⟨rfl, -⟩ := quiet _ _ _ _ _ process
  obtain ⟨rfl, -⟩ := checkInternalTxs_ok (validateExecuteResult_internalTxs executed)
  simp only [ite_fail_ok_iff] at valid
  obtain ⟨-, -, -, done⟩ := valid
  cases done
  obtain ⟨header, -, -⟩ := expandedCopy expanded
  exact ⟨rfl, state, _, start, final, orFail_ok found, load, present, prepared, ⟨later, header ▸ applied⟩,
    ⟨receipts, gasUsed, processed, process⟩, written⟩

/-- What the node keeps up between blocks: outputs are listed, and can be read again from
the blocks that hold them. -/
structure WellKept (env : NodeEnv) (st : ChainState) : Prop where
  listed : Listed st
  held : st.utxos.All fun outPoint entry =>
    outPoint.isContractType = false → reload env st outPoint = some entry.wrap

/-- The block is a new one on top of the tail. -/
structure Extends (env : NodeEnv) (st : ChainState) (block : Block) : Prop where
  parent : ∀ other : Block, other.header = block.header → env.getParentBlock other = some st.tail
  stored : st.blocks.lookup block.header.prevBlockHash = some st.tail
  distinct : env.blockHash block.header ≠ block.header.prevBlockHash
  height : block.header.height ≠ 0
  free : st.blockHashes.lookup block.header.height = none
  unlisted : st.blockHashes.All fun _ hash => hash ≠ env.blockHash block.header

structure Unused (env : NodeEnv) (st : ChainState) (block copy : Block) (splits : Table HashType Transaction) :
    Prop where
  index : ∀ tx ∈ indexedTxs { block with internalTxs := [] } splits, st.txIndex.lookup (txHash env.crypto tx) = none
  distinct : ((indexedTxs { block with internalTxs := [] } splits).map (txHash env.crypto)).Nodup
  few : (indexedTxs { block with internalTxs := [] } splits).length < 2 ^ 32
  splitTxs : ∀ entry ∈ splits.entries, st.splitTxs.lookup entry.1 = none
  txs : ∀ entry ∈ splits.entries, st.txs.lookup (txHash env.crypto entry.2) = none
  utxos : st.utxos.All fun outPoint _ => ∀ tx ∈ block.txs ++ copy.txs, outPoint.hash ≠ txHash env.crypto tx
  copies : (copy.txs.map (txHash env.crypto)).Nodup
  order : InOrder env.crypto copy.txs

/-- Who is spent from in the block is not expanded. The split addresses that the block
creates are new, and with them it is expanded as before. -/
structure SplitsApart (env : NodeEnv) (st : ChainState) (block : Block)
    (created : List (AddressHash × SplitAddrInfo)) : Prop where
  fresh : ∀ entry ∈ created, st.splitAddrs.records.lookup entry.1 = none
  same : ∀ tx ∈ block.txs,
    splitTxOutputs (st.splitAddrs.withAddrs created) env.depth tx = splitTxOutputs st.splitAddrs env.depth tx
  kept : ∀ outPoint ∈ inputsAfterFirst block.txs, ∀ origin ∈ block.txs, txHash env.crypto origin = outPoint.hash →
    ∀ vout ∈ origin.vout, st.splitAddrs.accountsPaid env.depth vout ≤ 1

/-- The coinbase calls a contract with its first output, and there are no contracts
otherwise, neither when the outputs are applied nor in the state of the block. The entry of
the contract is that of the state. -/
structure OneCall (env : NodeEnv) (st : ChainState) (block copy : Block) (contract : AddressHash) (call : TxOut)
    (entry : UtxoEntry) : Prop where
  quiet : ∀ ready, prepareBlock env.toChainEnv st.utxos block copy = .ok ready → Quiet env block contract ready
  transfers : ∀ ready, prepareBlock env.toChainEnv st.utxos block copy = .ok ready →
    Transfers (env.world.stateDB ready.credited) contract copy.txs
  coinbase : ∃ first rest others, block.txs = first :: rest ∧ first.vout = call :: others ∧ isCoinBase first = true ∧
    ∀ vout ∈ others, isContractPubkey vout.scriptPubKey = false
  others : ∀ tx ∈ block.txs.tail, isOrdinary tx = true ∧ NonContract tx
  inputs : ∀ outPoint ∈ inputsAfterFirst block.txs, outPoint.isContractType = false
  called : isContractPubkey call.scriptPubKey = true ∧ contract ≠ zeroAddressHash ∧
    ∃ param, parseContractParams call.scriptPubKey = .ok param ∧ param.receiver = contract
  stored : st.utxos.lookup (contractOutPoint contract) = some entry
  states : ∀ prev, env.world.new st.tail.header.rootHash st.tail.header.utxoRoot = some prev →
    (env.world.stateDB prev).getContractUtxo contract = some entry ∧
      ∃ state, env.world.new block.header.rootHash block.header.utxoRoot = some state ∧
        Transfers (env.world.stateDB state) contract block.txs ∧ ofNat ((env.world.stateDB prev).getBalance contract) =
          ofNat ((env.world.stateDB state).getBalance contract) - call.value

/-- The block without the transactions that the processor makes. -/
abbrev Block.external (block : Block) : Block := { block with internalTxs := [] }

/-- A block that can be undone: its expansion is known, and a transaction that it spends
from in the block is not expanded. -/
structure Undoable (env : NodeEnv) (st : ChainState) (block copy : Block) (splits : Table HashType Transaction)
    (contract : AddressHash) (call : TxOut) (entry : UtxoEntry) : Prop where
  expanded : splitBlockOutputs env.crypto st.splitAddrs env.depth block = .ok (copy, splits)
  unused : Unused env st block copy splits
  calls : OneCall env st block copy contract call entry
  kept : ∀ outPoint ∈ inputsAfterFirst block.txs, ∀ origin ∈ block.txs, txHash env.crypto origin = outPoint.hash →
    ∀ vout ∈ origin.vout, st.splitAddrs.accountsPaid env.depth vout ≤ 1

section Connected

variable {env : NodeEnv} {st after : ChainState} {block copy : Block} {splits : Table HashType Transaction}
  {contract : AddressHash} {call : TxOut} {entry : UtxoEntry} {state : env.world.State} {ready : Prepared env.toChainEnv}
  {start final : UtxoSet}

theorem contractOutPoint_type (addr : AddressHash) : (contractOutPoint addr).isContractType = true := by
  have longer : addr.bytes ≠ [0, 0, 0, 0, 0, 0, 0, 0] := by
    intro same
    have size := addr.length_eq
    rw [same] at size
    cases size
  simp [contractOutPoint, OutPoint.isContractType, normalizeAddressHash, longer]

theorem consumed_copy (expanded : splitBlockOutputs env.crypto st.splitAddrs env.depth block = .ok (copy, splits)) :
    copy.txs.flatMap consumed = block.txs.flatMap consumed := by
  obtain ⟨-, -, split⟩ := expandedCopy expanded
  exact (flatMap_congr (fun _ _ ⟨_, split⟩ => consumed_congr (splitTxOutputs_vin split).symm) (splitTxs_ok split)).symm

theorem OneCall.consumed_eq (calls : OneCall env st block copy contract call entry) :
    block.txs.flatMap consumed = inputsAfterFirst block.txs := by
  obtain ⟨first, rest, others, listed, -, isFirst, -⟩ := calls.coinbase
  have spends := calls.others
  rw [listed] at spends ⊢
  rw [inputsAfterFirst, tail_cons, flatMap_cons, consumed, isFirst]
  exact flatMap_congr fun tx member => by rw [Boxd.consumed_eq, if_pos (spends tx member).1]

theorem hash_of_own {txs : List Transaction} {outPoint : OutPoint} (own : outPoint ∈ ownOutputs c txs) :
    ∃ tx ∈ txs, outPoint.hash = txHash c tx := by
  obtain ⟨tx, among, output⟩ := mem_flatMap.mp own
  obtain ⟨_, _, -, -, -, here⟩ := mem_voutsToFetch.mp output
  exact ⟨tx, among, by rw [here]⟩

theorem Unused.own (unused : Unused env st block copy splits) {outPoint : OutPoint}
    (own : outPoint ∈ ownOutputs env.crypto copy.txs) : st.utxos.lookup outPoint = none := by
  obtain ⟨tx, among, hashed⟩ := hash_of_own own
  by_contra present
  obtain ⟨entry, found⟩ := Option.ne_none_iff_exists'.mp present
  exact unused.utxos outPoint entry found tx (mem_append_right _ among) hashed

inductive Origin (env : NodeEnv) (st : ChainState) (block : Block) (outPoint : OutPoint) : Prop
  | stored (entry : UtxoEntry) (found : st.utxos.lookup outPoint = some entry)
  | inBlock (origin : Transaction) (vout : TxOut) (key : Option AddrUtxoKey) (among : origin ∈ block.txs)
      (hashed : txHash env.crypto origin = outPoint.hash) (output : origin.vout[outPoint.index.toNat]? = some vout)
      (data : isOpReturnScript vout.scriptPubKey = false)
      (plain : isContractPubkey vout.scriptPubKey = false)
      (keyed : addrUtxoKey outPoint vout.scriptPubKey = .ok key)

structure Connected (env : NodeEnv) (st : ChainState) (block copy : Block) (contract : AddressHash)
    (after : ChainState) : Prop where
  gone : ∀ outPoint ∈ inputsAfterFirst block.txs, after.utxos.lookup outPoint = none
  frame : ∀ outPoint, outPoint ∉ inputsAfterFirst block.txs → outPoint ∉ ownOutputs env.crypto copy.txs →
    outPoint ≠ contractOutPoint contract → after.utxos.lookup outPoint = st.utxos.lookup outPoint
  scripts : ∀ outPoint before now, st.utxos.lookup outPoint = some before → after.utxos.lookup outPoint = some now →
    now.script = before.script
  origin : ∀ outPoint ∈ inputsAfterFirst block.txs, Origin env st block outPoint
  listed : Listed after

theorem written_of_spent (modified : utxoWrap.isModified = true)
    (spent : utxoWrap.isSpent = true) : utxoWrap.written = some none := by
  rw [UtxoWrap.written, modified, if_pos rfl, serialize, spent, if_pos rfl]

theorem UtxoEntry.written_wrap (entry : UtxoEntry) : entry.wrap.written = some (some entry) := rfl

variable (undo : Undoable env st block copy splits contract call entry)
include undo

theorem Undoable.inputs_copy : copy.txs.flatMap consumed = inputsAfterFirst block.txs :=
  (consumed_copy undo.expanded).trans undo.calls.consumed_eq

variable (connects : Connects env st block copy splits state ready start final after)
include connects

theorem Connects.scripts : KeepsScripts st.utxos start.utxoMap final.utxoMap := by
  obtain ⟨later, applied⟩ := connects.apply
  obtain ⟨_, _, _, processed⟩ := connects.process
  obtain ⟨-, frame, script⟩ := undo.calls.quiet ready connects.prepared _ _ _ _ _ processed
  have sourced := loadBlockUtxos_sourced connects.load
  have kept : ScriptsKept st.utxos start.utxoMap := by
    intro outPoint utxoWrap found entry stored
    rcases sourced outPoint utxoWrap found with ⟨entry', stored', rfl⟩ | ⟨-, ⟨origin, vout, among, hashed, _, _, _⟩⟩
    · rw [Option.mem_def.mp stored] at stored'
      cases stored'
      rfl
    · exact absurd hashed.symm (undo.unused.utxos outPoint entry stored origin (mem_append_left _ among))
  have present := connects.present
  rw [← consumed_copy undo.expanded] at present
  have keeps := applyTxs_scripts (undo.calls.transfers ready connects.prepared) (fun _ own => undo.unused.own own) present kept applied
  have same : ∀ outPoint, (final.findUtxo outPoint).map UtxoWrap.script =
      (ready.utxoSet.findUtxo outPoint).map UtxoWrap.script := by
    intro outPoint
    by_cases here : outPoint = contractOutPoint contract
    · rw [here, script]
    · rw [frame outPoint here]
  constructor
  · intro outPoint utxoWrap found
    obtain ⟨now, present, kept⟩ := keeps.present outPoint utxoWrap found
    have same := same outPoint
    rw [findUtxo, findUtxo, present, Option.map_some, Option.map_eq_some_iff] at same
    obtain ⟨now', present', script⟩ := same
    exact ⟨now', present', script.trans kept⟩
  · intro outPoint utxoWrap found
    have same := same outPoint
    rw [findUtxo, found, Option.map_some, eq_comm, Option.map_eq_some_iff] at same
    obtain ⟨now, present, script⟩ := same
    rw [← script]
    exact keeps.kept outPoint now present

theorem Connects.spent : ∀ outPoint ∈ inputsAfterFirst block.txs, SpentIn ready.utxoSet.utxoMap outPoint := by
  intro outPoint member
  obtain ⟨later, ran⟩ := connects.apply
  obtain ⟨first, rest, -, listed, -, isFirst, -⟩ := undo.calls.coinbase
  have others := undo.calls.others
  obtain ⟨-, -, split⟩ := expandedCopy undo.expanded
  have partners := splitTxs_ok split
  rw [← undo.inputs_copy] at member
  rw [listed] at partners others
  obtain ⟨firstCopy, restCopy, ⟨_, firstSplit⟩, restPartners, copied⟩ := forall₂_cons_left_iff.mp partners
  have coinbase : consumed firstCopy = [] := by
    rw [consumed_congr (splitTxOutputs_vin firstSplit), consumed, isFirst]
    rfl
  rw [copied] at ran member
  rw [flatMap_cons, coinbase, nil_append] at member
  simp only [applyTxs, bind_ok_iff, Prod.exists] at ran
  obtain ⟨between, _, -, final, _, ran, done⟩ := ran
  cases done
  refine applyTxs_spent restCopy ?_ ran member
  intro tx among vout output
  obtain ⟨original, member, _, split⟩ := exists_of_mem_right restPartners among
  rcases splitTxOutputs_script split vout output with same | ⟨addr, pays⟩
  · exact (others original member).2.2 vout same
  · rw [pays]
    exact payToPubKeyHash_not_contract addr

theorem Connects.connected (listed : Listed st) : Connected env st block copy contract after := by
  obtain ⟨created, between, -, written, rfl⟩ := writeBlockToDB_ok connects.write
  have lookup : ∀ outPoint, between.utxos.lookup outPoint =
      ((final.findUtxo outPoint).bind UtxoWrap.written).getD (st.utxos.lookup outPoint) := written.lookup
  have keeps := connects.scripts undo
  obtain ⟨later, ran⟩ := connects.apply
  obtain ⟨_, _, _, processed⟩ := connects.process
  obtain ⟨-, frame, -⟩ := undo.calls.quiet ready connects.prepared _ _ _ _ _ processed
  have sourced := loadBlockUtxos_sourced connects.load
  have modified := applyTxs_allModified ran sourced.modified
  have spends := undo.inputs_copy
  have plainInput : ∀ outPoint ∈ inputsAfterFirst block.txs, outPoint ≠ contractOutPoint contract := by
    rintro outPoint member rfl
    have type := undo.calls.inputs _ member
    rw [contractOutPoint_type] at type
    cases type
  have spent := connects.spent undo
  constructor
  · intro outPoint member
    obtain ⟨utxoWrap, found, isSpent⟩ := spent outPoint member
    have here : final.findUtxo outPoint = some utxoWrap := (frame outPoint (plainInput outPoint member)).trans found
    rw [lookup, here, Option.bind_some, written_of_spent (modified outPoint utxoWrap found) isSpent, Option.getD_some]
  · intro outPoint unspent foreign other
    have same := applyTxs_frame (undo.calls.transfers ready connects.prepared) ran (spends ▸ unspent) foreign other
    rw [lookup, frame outPoint other, same]
    cases found : start.findUtxo outPoint with
    | none => rfl
    | some utxoWrap =>
      rcases sourced outPoint utxoWrap found with ⟨entry, stored, rfl⟩ | ⟨spent, -⟩
      · rw [stored]
        rfl
      · exact absurd spent unspent
  · intro outPoint before now stored present
    rw [lookup, stored] at present
    cases found : final.findUtxo outPoint with
    | none =>
      rw [found] at present
      cases present
      rfl
    | some utxoWrap =>
      have kept := keeps.kept outPoint utxoWrap found before stored
      rw [found, Option.bind_some] at present
      cases wrote : utxoWrap.written with
      | none =>
        rw [wrote] at present
        cases present
        rfl
      | some value =>
        rw [wrote, Option.getD_some] at present
        subst present
        rw [← kept, (written_some wrote).2]
  · intro outPoint member
    obtain ⟨utxoWrap, found⟩ := connects.present outPoint (undo.calls.consumed_eq ▸ member)
    rcases sourced outPoint utxoWrap found with ⟨entry, stored, -⟩ | ⟨-, ofBlock⟩
    · exact .stored entry stored
    · obtain ⟨now, present, script⟩ := keeps.present outPoint utxoWrap found
      obtain ⟨spentWrap, applied, -⟩ := spent outPoint member
      have same : final.utxoMap.lookup outPoint = some spentWrap :=
        (frame outPoint (plainInput outPoint member)).trans applied
      rw [present] at same
      cases same
      obtain ⟨key, keyed⟩ := written.listable outPoint now present (modified outPoint now applied)
      obtain ⟨origin, vout, among, hashed, output, data, plain⟩ := ofBlock
      rw [script] at keyed
      exact .inBlock origin vout key among hashed output data plain keyed
  · have before : Listed (withBlock env st block.external splits created) := ⟨listed.listed, listed.only⟩
    have listed := written.listed before keeps.kept
    exact ⟨listed.listed, listed.only⟩

end Connected

section Reload

variable {env : NodeEnv} {st : ChainState} {block copy : Block} {splits : Table HashType Transaction}
  {created : List (AddressHash × SplitAddrInfo)}

theorem zipIdx_map_txHash {txs : List Transaction} :
    txs.zipIdx.map (fun entry => txHash c entry.1) = txs.map (txHash c) := by
  rw [show (fun entry : Transaction × Nat => txHash c entry.1) = txHash c ∘ Prod.fst from rfl, ← map_map,
    zipIdx_map_fst]

theorem Unused.indexed (unused : Unused env st block copy splits) {hash : HashType} {place : UInt32 × UInt32}
    (found : st.txIndex.lookup hash = some place) :
    hash ∉ (indexedTxs block.external splits).map (txHash env.crypto) := by
  rintro member
  obtain ⟨tx, among, rfl⟩ := mem_map.mp member
  rw [unused.index tx among] at found
  cases found

theorem loadBlockByHeight_kept (extend : Extends env st block) {height : UInt32} {other added : Block}
    (found : st.loadBlockByHeight env height = some other) (same : added.header = block.header) :
    (withBlock env st added splits created).loadBlockByHeight env height = some other := by
  unfold loadBlockByHeight at found ⊢
  split at found
  · next zero => rwa [if_pos zero]
  · next nonzero =>
    rw [if_neg nonzero]
    obtain ⟨hash, listed, stored⟩ := Option.bind_eq_some_iff.mp found
    have differ : height ≠ added.header.height := by
      rintro rfl
      rw [same, extend.free] at listed
      cases listed
    have apart : hash ≠ env.blockHash added.header := by
      rw [same]
      exact extend.unlisted height hash listed
    exact Option.bind_eq_some_iff.mpr
      ⟨hash, (lookup_insert_ne differ).trans listed, (lookup_insert_ne apart).trans stored⟩

theorem loadBlockInfo_kept (extend : Extends env st block) (unused : Unused env st block copy splits)
    {hash : HashType} {info : Block × TxMessage} (found : st.loadBlockInfoByTxHash env hash = some info) :
    (withBlock env st block.external splits created).loadBlockInfoByTxHash env hash = some info := by
  simp only [loadBlockInfoByTxHash, Option.bind_eq_bind, Option.bind_eq_some_iff, Prod.exists] at found ⊢
  obtain ⟨height, index, indexed, other, loaded, read⟩ := found
  have absent := unused.indexed indexed
  refine ⟨height, index, ?_, other, loadBlockByHeight_kept extend loaded rfl, ?_⟩
  · refine (lookup_foldl_insert (fun entry : Transaction × Nat => txHash env.crypto entry.1) ?_ _).trans indexed
    rwa [zipIdx_map_txHash]
  · have same : (withBlock env st block.external splits created).txs.lookup hash = st.txs.lookup hash := by
      apply lookup_foldl_insert (fun entry : Sigma fun _ : HashType => Transaction => txHash env.crypto entry.2)
      intro member
      obtain ⟨entry, among, hashed⟩ := mem_map.mp member
      refine absent (mem_map.mpr ⟨entry.2, ?_, hashed⟩)
      exact mem_append_right _ (mem_map_of_mem among)
    rwa [same]

theorem loadBlockInfo_inBlock (extend : Extends env st block) (unused : Unused env st block copy splits)
    (among : origin ∈ block.txs) :
    (withBlock env st block.external splits created).loadBlockInfoByTxHash env
      (txHash env.crypto origin) = some (block.external, origin.toTxMessage) := by
  have member : txHash env.crypto origin ∈
      ((indexedTxs block.external splits).zipIdx.map fun entry => txHash env.crypto entry.1) := by
    rw [zipIdx_map_txHash]
    exact mem_map_of_mem (mem_append_left _ (mem_append_left _ among))
  obtain ⟨⟨tx, position⟩, listed, hashed, found⟩ := exists_lookup_foldl_insert
    (fun entry : Transaction × Nat => txHash env.crypto entry.1)
    (fun entry => (block.header.height, UInt32.ofNat entry.2)) member st.txIndex
  -- The hashes differ, so the entry is that of the transaction itself.
  obtain ⟨index, here⟩ := getElem?_of_mem among
  have inside : index < block.txs.length := (List.getElem?_eq_some_iff.mp here).1
  have place : (indexedTxs block.external splits)[index]? = some origin := by
    rw [indexedTxs, append_assoc, getElem?_append_left inside]
    exact here
  have listed := mk_mem_zipIdx_iff_getElem?.mp listed
  have bound : position < (indexedTxs block.external splits).length := (List.getElem?_eq_some_iff.mp listed).1
  obtain rfl : position = index := by
    apply (getElem?_inj (by rwa [length_map]) unused.distinct).mp
    rw [getElem?_map, getElem?_map, listed, place, Option.map_some, Option.map_some, hashed]
  have number : (UInt32.ofNat position).toNat = position := UInt32.toNat_ofNat_of_lt' (bound.trans unused.few)
  simp only [loadBlockInfoByTxHash, Option.bind_eq_bind, Option.bind_eq_some_iff, Prod.exists]
  refine ⟨block.header.height, UInt32.ofNat position, found, block.external, ?_, ?_⟩
  · rw [loadBlockByHeight, if_neg extend.height]
    exact Option.bind_eq_some_iff.mpr ⟨_, lookup_insert _, lookup_insert _⟩
  · rw [number, if_pos (by simpa using inside), append_nil, here]
    exact if_pos rfl

variable {outPoint : OutPoint}

theorem reload_congr {left right : ChainState} {info : Block × TxMessage}
    (leftFound : left.loadBlockInfoByTxHash env outPoint.hash = some info)
    (rightFound : right.loadBlockInfoByTxHash env outPoint.hash = some info) :
    reload env left outPoint = reload env right outPoint := by
  rw [reload, reload, leftFound, rightFound]

theorem reload_stored (extend : Extends env st block) (unused : Unused env st block copy splits)
    (found : reload env st outPoint = some utxoWrap) :
    reload env (withBlock env st block.external splits created) outPoint = some utxoWrap := by
  obtain ⟨_, _, _, loaded, -⟩ := reload_some found
  rw [← found]
  exact reload_congr (loadBlockInfo_kept extend unused loaded) loaded

theorem reload_inBlock (extend : Extends env st block) (unused : Unused env st block copy splits)
    {vout : TxOut} (among : origin ∈ block.txs)
    (hashed : txHash env.crypto origin = outPoint.hash) (output : origin.vout[outPoint.index.toNat]? = some vout)
    (data : isOpReturnScript vout.scriptPubKey = false) :
    reload env (withBlock env st block.external splits created) outPoint =
      some (.new vout.value vout.scriptPubKey block.header.height) := by
  have loaded : (withBlock env st block.external splits created).loadBlockInfoByTxHash env
      (txHash env.crypto origin) = _ := loadBlockInfo_inBlock extend unused among
  rw [hashed] at loaded
  rw [reload, loaded]
  change (origin.vout[outPoint.index.toNat]? >>= _) = _
  rw [output]
  change (if isOpReturnScript vout.scriptPubKey = true then none else _) = _
  rw [data]
  rfl

end Reload

section Disconnect

variable {env : NodeEnv} {st after : ChainState} {block copy : Block} {splits : Table HashType Transaction}
  {contract : AddressHash} {call : TxOut} {entry : UtxoEntry}

/-- What is read for an output that the block spends: it can be listed, and is what the
database had. -/
def ReadBack (env : NodeEnv) (st after : ChainState) (outPoint : OutPoint) (utxoWrap : UtxoWrap) : Prop :=
  reload env after outPoint = some utxoWrap ∧ (∃ key, addrUtxoKey outPoint utxoWrap.script = .ok key) ∧
    ∀ entry, st.utxos.lookup outPoint = some entry → utxoWrap = entry.wrap

variable {outPoint : OutPoint}

theorem Connected.readBack (connected : Connected env st block copy contract after) (kept : WellKept env st)
    (extend : Extends env st block) (unused : Unused env st block copy splits)
    (inputs : ∀ outPoint ∈ inputsAfterFirst block.txs, outPoint.isContractType = false)
    (same : ∀ outPoint, ∃ created, reload env after outPoint =
      reload env (withBlock env st block.external splits created) outPoint)
    (member : outPoint ∈ inputsAfterFirst block.txs) :
    ∃ utxoWrap, ReadBack env st after outPoint utxoWrap := by
  obtain ⟨created, reads⟩ := same outPoint
  cases connected.origin outPoint member with
  | stored entry found =>
    obtain ⟨key, keyed, -⟩ := kept.listed.listed outPoint entry found
    have held := kept.held outPoint entry found (inputs outPoint member)
    refine ⟨entry.wrap, reads.trans (reload_stored extend unused held), ⟨key, keyed⟩, ?_⟩
    intro other present
    rw [found] at present
    cases present
    rfl
  | inBlock origin vout key among hashed output data plain keyed =>
    refine ⟨_, reads.trans (reload_inBlock extend unused among hashed output data), ⟨key, keyed⟩, ?_⟩
    intro entry found
    exact absurd hashed.symm (unused.utxos outPoint entry found origin (mem_append_left _ among))

/-- The set that is written when the block is disconnected. -/
structure Undoes (st after : ChainState) (u : UtxoSet) : Prop where
  restores : ∀ outPoint, ((u.findUtxo outPoint).bind UtxoWrap.written).getD (after.utxos.lookup outPoint) =
    st.utxos.lookup outPoint
  writable : Writable after.utxos u.utxoMap

theorem importUtxoMap_lookup (u : UtxoSet) (utxoMap : UtxoMap) (outPoint : OutPoint) :
    (u.importUtxoMap utxoMap).findUtxo outPoint = (utxoMap.lookup outPoint).or (u.findUtxo outPoint) := by
  have map : ∀ entries : List (Sigma fun _ : OutPoint => UtxoWrap), ∀ u : UtxoSet,
      (entries.foldl (fun u entry => u.put entry.1 entry.2) u).utxoMap =
        update id (fun _ utxoWrap _ => utxoWrap) entries u.utxoMap := by
    intro entries
    induction entries with
    | nil => exact fun _ => rfl
    | cons entry rest next => exact fun u => next (u.put entry.1 entry.2)
  have updated := lookup_update (fun _ utxoWrap (_ : Option UtxoWrap) => utxoWrap) Function.injective_id
    utxoMap.nodupKeys u.utxoMap outPoint
  rw [findUtxo, importUtxoMap, map, show outPoint = id outPoint from rfl, updated, Option.map_id']
  rfl

abbrev loadedSet (env : NodeEnv) (after : ChainState) (copy : Block) (statedb : StateDB) : UtxoSet :=
  new.loadBlockAllUtxos env.crypto copy.external false after.utxos statedb

def revertedSet (env : NodeEnv) (after : ChainState) (copy : Block) (statedb : StateDB)
    (reloaded : OutPoint → UtxoWrap) : UtxoSet :=
  { loadedSet env after copy statedb with
    utxoMap := copy.txs.reverse.foldl (revertIn env.crypto reloaded) (loadedSet env after copy statedb).utxoMap }

theorem readBack_fresh (read : ReadBack env st after outPoint utxoWrap) :
    utxoWrap.isModified = true ∧ utxoWrap.unSpend = utxoWrap := by
  obtain ⟨_, _, _, -, -, -, same⟩ := reload_some read.1
  rw [same]
  exact ⟨rfl, rfl⟩

theorem paidContractAddr_plain {statedb : StateDB} {vout : TxOut}
    (plain : isContractPubkey vout.scriptPubKey = false) (unpaid : vout.paidContract statedb = none) :
    paidContractAddr c statedb vout = .ok none := by
  rw [paidContractAddr, plain]
  change ok _ = _
  rw [pubKeyHashOf]
  split
  · rw [← TxOut.paidContract, unpaid]
  · rfl

section
variable (calls : OneCall env st block copy contract call entry)
include calls

theorem OneCall.changes {state : env.world.State} (transfers : Transfers (env.world.stateDB state) contract block.txs) :
    calcContractAddrBalanceChanges env.crypto (env.world.stateDB state) block.external =
      .ok (deposit ∅ contract call.value, ∅) := by
  obtain ⟨first, rest, others, listed, outputs, -, plain⟩ := calls.coinbase
  obtain ⟨isContract, nonzero, param, parsed, receiver⟩ := calls.called
  have ordinary := calls.others
  rw [listed] at transfers ordinary
  have pays : paidContractAddr env.crypto (env.world.stateDB state) call = .ok (some contract) := by
    rw [paidContractAddr, isContract]
    simp only [Bool.not_true, Bool.false_eq_true, if_false, parsed, receiver, if_neg nonzero]
  have paid : ∀ vout ∈ others ++ rest.flatMap fun tx => tx.vout,
      ((paidContractAddr env.crypto (env.world.stateDB state) vout).map fun addr => addr.map (·, vout.value)) =
        .ok none := by
    intro vout member
    suffices plain : isContractPubkey vout.scriptPubKey = false ∧
        vout.paidContract (env.world.stateDB state) = none by
      rw [paidContractAddr_plain plain.1 plain.2]
      rfl
    rcases mem_append.mp member with here | later
    · have output : vout ∈ first.vout := outputs ▸ mem_cons_of_mem _ here
      exact ⟨plain vout here, transfers.plain first mem_cons_self vout output (plain vout here)⟩
    · obtain ⟨tx, among, output⟩ := mem_flatMap.mp later
      have plain := (ordinary tx among).2.2 vout output
      exact ⟨plain, transfers.plain tx (mem_cons_of_mem _ among) vout output plain⟩
  have list : ((call :: (others ++ rest.flatMap fun tx => tx.vout)).mapM fun vout =>
      (paidContractAddr env.crypto (env.world.stateDB state) vout).map fun addr => addr.map (·, vout.value)) =
      .ok (some (contract, call.value) :: (others ++ rest.flatMap fun tx => tx.vout).map fun _ => none) := by
    rw [mapM_cons, pays, mapM_eq paid]
    rfl
  simp only [calcContractAddrBalanceChanges, listed, flatMap_cons, outputs, cons_append, list, lift,
    ok_bind, mapM_nil]
  have none : ((others ++ rest.flatMap fun tx => tx.vout).map fun _ =>
      (none : Option (AddressHash × UInt64))).filterMap id = [] := by
    simp [filterMap_map]
  change ok (((contract, call.value) :: filterMap id _).foldl _ ∅, _) = _
  rw [none]
  rfl

/-- Rolling the contract back gives the entry that was stored before. -/
theorem OneCall.rollback
    {prev : env.world.State} (parent : env.world.new st.tail.header.rootHash st.tail.header.utxoRoot = some prev)
    (stored : after.blocks.lookup block.header.prevBlockHash = some st.tail) :
    ∃ um, after.makeRollbackContractUtxos env block.external = .ok um ∧
      ∀ outPoint, um.lookup outPoint = if outPoint = contractOutPoint contract then some entry.wrap else none := by
  obtain ⟨record, state, new, transfers, balance⟩ := calls.states prev parent
  have rollback : RollbackOf env after block.external st.tail state prev
      (deposit ∅ contract call.value) ∅ := ⟨new, stored, parent, calls.changes transfers⟩
  have amount : (deposit ∅ contract call.value : Table AddressHash UInt64).amount contract = call.value := by
    rw [amount_deposit, if_pos rfl, amount_empty, zero_add]
  have only : ∀ addr, Touched (deposit ∅ contract call.value) ∅ addr ↔ addr = contract := by
    intro addr
    unfold Touched deposit
    by_cases same : addr = contract
    · rw [same, lookup_insert]
      simp
    · rw [lookup_insert_ne same, lookup_empty]
      simp [same]
  obtain ⟨um, ok, lookup⟩ := makeRollbackContractUtxos_ok rollback (by
    intro addr touched
    rw [(only addr).mp touched, balance, takenBack, amount, amount_empty, add_zero])
  refine ⟨um, ok, fun outPoint => ?_⟩
  rw [lookup]
  split
  · next here =>
    obtain ⟨utxoWrap, found⟩ : ∃ utxoWrap, (changedUtxos (env.world.stateDB state) (env.world.stateDB prev)
        block.header.height (deposit ∅ contract call.value) ∅).lookup (contractOutPoint contract) =
          some utxoWrap := by
      obtain ⟨utxoWrap, found, -⟩ := changedUtxos_touched ((only contract).mpr rfl)
      exact ⟨utxoWrap, found⟩
    rw [here, found, Option.map_some, recorded, contractAddr_contractOutPoint, record]
    rfl
  · next other =>
    cases found : (changedUtxos (env.world.stateDB state) (env.world.stateDB prev) block.header.height
        (deposit ∅ contract call.value) ∅).lookup outPoint with
    | none => rfl
    | some utxoWrap =>
      obtain ⟨addr, touched, place⟩ := changedUtxos_only found
      rw [(only addr).mp touched] at place
      exact absurd place other

end

variable (undo : Undoable env st block copy splits contract call entry)
include undo

theorem Undoable.inputsAfterFirst_copy : inputsAfterFirst copy.txs = inputsAfterFirst block.txs := by
  obtain ⟨-, -, split⟩ := expandedCopy undo.expanded
  have partners := splitTxs_ok split
  obtain ⟨first, rest, -, listed, -⟩ := undo.calls.coinbase
  rw [listed] at partners ⊢
  obtain ⟨firstCopy, restCopy, -, restPartners, copied⟩ := forall₂_cons_left_iff.mp partners
  rw [copied]
  exact (flatMap_congr (fun _ _ ⟨_, split⟩ => by rw [spentBy, spentBy, splitTxOutputs_vin split]) restPartners).symm

/-- A transaction that is spent from in the block is in the copy as it is. -/
theorem Undoable.kept_copied (member : outPoint ∈ inputsAfterFirst block.txs)
    (among : origin ∈ block.txs) (hashed : txHash env.crypto origin = outPoint.hash) : origin ∈ copy.txs := by
  obtain ⟨-, -, split⟩ := expandedCopy undo.expanded
  obtain ⟨copied, member', _, split⟩ := exists_of_mem_left (splitTxs_ok split) among
  rwa [splitTxOutputs_unexpanded (undo.kept outPoint member origin among hashed) split] at member'

theorem Undoable.loaded_cases {statedb : StateDB}
    (found : (loadedSet env after copy statedb).findUtxo outPoint = some utxoWrap) :
    (∃ entry, after.utxos.lookup outPoint = some entry ∧ utxoWrap = entry.wrap) ∨
      outPoint ∈ inputsAfterFirst block.txs ∧ OfBlock env.crypto copy.external outPoint utxoWrap := by
  have sourced := loadBlockAllUtxos_sourced env.crypto copy.external false after.utxos statedb
  rcases sourced outPoint utxoWrap found with stored | ⟨member, ofBlock⟩
  · exact .inl stored
  · exact .inr ⟨undo.inputsAfterFirst_copy ▸ member, ofBlock⟩

variable (connected : Connected env st block copy contract after)
include connected

theorem Connected.stored_or_own (member : outPoint ∈ inputsAfterFirst block.txs) :
    (∃ entry, st.utxos.lookup outPoint = some entry) ∨ outPoint ∈ ownOutputs env.crypto copy.txs := by
  cases connected.origin outPoint member with
  | stored entry found => exact .inl ⟨entry, found⟩
  | inBlock origin vout _ among hashed output data plain _ =>
    have copied := undo.kept_copied member among hashed
    refine .inr (mem_flatMap.mpr ⟨origin, copied, mem_voutsToFetch.mpr
      ⟨vout, outPoint.index.toNat, mk_mem_zipIdx_iff_getElem?.mpr output, data, plain, ?_⟩⟩)
    rw [hashed, UInt32.ofNat_toNat]

theorem Connected.loaded_writable (statedb : StateDB) :
    Writable after.utxos (loadedSet env after copy statedb).utxoMap := by
  intro outPoint utxoWrap found
  rcases undo.loaded_cases found with
    ⟨entry, stored, rfl⟩ | ⟨member, ⟨origin, vout, among, hashed, output, data, plain⟩⟩
  · obtain ⟨key, keyed, -⟩ := connected.listed.listed outPoint entry stored
    refine ⟨⟨key, keyed⟩, ?_⟩
    rintro other present
    rw [stored] at present
    cases present
    rfl
  · rw [connected.gone outPoint member]
    refine ⟨?_, by rintro _ ⟨⟩⟩
    cases connected.origin outPoint member with
    | stored entry found =>
      exact absurd hashed.symm (undo.unused.utxos outPoint entry found origin (mem_append_right _ among))
    | inBlock origin' vout' key among' hashed' output' data' plain' keyed =>
      -- The two are the same transaction, since their hashes are.
      have member' := undo.kept_copied member among' hashed'
      obtain rfl := inj_on_of_nodup_map undo.unused.copies among member' (hashed.trans hashed'.symm)
      rw [output] at output'
      cases output'
      exact ⟨key, keyed⟩

variable {reloaded : OutPoint → UtxoWrap}
  (read : ∀ outPoint ∈ inputsAfterFirst block.txs, ReadBack env st after outPoint (reloaded outPoint))
include read

theorem Connected.reverted_writable (statedb : StateDB) :
    Writable after.utxos (revertedSet env after copy statedb reloaded).utxoMap := by
  have spends := undo.inputs_copy
  refine revertIn_writable (connected.loaded_writable undo statedb) ?_ ?_ ?_
  · intro outPoint own absent
    by_contra present
    obtain ⟨entry, stored⟩ := Option.ne_none_iff_exists'.mp present
    have found : (loadedSet env after copy statedb).findUtxo outPoint = some entry.wrap := loadBlockAllUtxos_found (by rwa [append_nil]) stored
    rw [findUtxo, absent] at found
    cases found
  · exact fun outPoint member => connected.gone outPoint (spends ▸ member)
  · exact fun outPoint member => (read outPoint (spends ▸ member)).2.1

theorem Connected.reverted_restores (statedb : StateDB) (other : outPoint ≠ contractOutPoint contract) :
    (((revertedSet env after copy statedb reloaded).findUtxo outPoint).bind UtxoWrap.written).getD
      (after.utxos.lookup outPoint) = st.utxos.lookup outPoint := by
  have spends := undo.inputs_copy
  have cases : ∀ utxoWrap, (loadedSet env after copy statedb).findUtxo outPoint = some utxoWrap → _ := fun _ => undo.loaded_cases
  by_cases own : outPoint ∈ ownOutputs env.crypto copy.txs
  · -- Outputs of the block are spent again.
    have modified : AllModified (revertedSet env after copy statedb reloaded).utxoMap := by
      refine revertIn_allModified (loadBlockAllUtxos_sourced _ _ _ _ _).modified ?_
      exact fun outPoint member => (readBack_fresh (read outPoint (spends ▸ member))).1
    obtain ⟨utxoWrap, found, isSpent⟩ : SpentIn (revertedSet env after copy statedb reloaded).utxoMap outPoint :=
      revertIn_own undo.unused.order own
    rw [findUtxo, found, Option.bind_some, written_of_spent (modified outPoint utxoWrap found) isSpent,
      Option.getD_some, undo.unused.own own]
  · by_cases spent : outPoint ∈ inputsAfterFirst block.txs
    · -- What the block spent comes back as it was.
      obtain ⟨entry, stored⟩ := (connected.stored_or_own undo spent).resolve_right own
      obtain ⟨reads, -, back⟩ := read outPoint spent
      have gone : (loadedSet env after copy statedb).utxoMap.lookup outPoint = none := by
        by_contra present
        obtain ⟨utxoWrap, found⟩ := Option.ne_none_iff_exists'.mp present
        rcases cases utxoWrap found with ⟨entry', present, -⟩ | ⟨-, ⟨origin, _, among, hashed, _, _, _⟩⟩
        · rw [connected.gone outPoint spent] at present
          cases present
        · exact undo.unused.utxos outPoint entry stored origin (mem_append_right _ among) hashed.symm
      have found : (revertedSet env after copy statedb reloaded).findUtxo outPoint = some (reloaded outPoint) :=
        revertIn_spent (readBack_fresh (read outPoint spent)).2 own (spends ▸ spent) gone
      rw [found, back entry stored, Option.bind_some, UtxoEntry.written_wrap, Option.getD_some, stored]
    · -- Nothing else has changed.
      have same : (revertedSet env after copy statedb reloaded).findUtxo outPoint =
          (loadedSet env after copy statedb).findUtxo outPoint := revertIn_frame own (spends ▸ spent)
      rw [same, ← connected.frame outPoint spent own other]
      cases found : (loadedSet env after copy statedb).findUtxo outPoint with
      | none => rfl
      | some utxoWrap =>
        rcases cases utxoWrap found with ⟨entry, stored, rfl⟩ | ⟨member, -⟩
        · rw [stored]
          rfl
        · exact absurd member spent

/-- With the entry of the contract, the set brings every output back. -/
theorem Connected.undoes (keyed : ∃ key, addrUtxoKey (contractOutPoint contract) entry.script = .ok key)
    (statedb : StateDB) {um : UtxoMap}
    (rolled : ∀ outPoint, um.lookup outPoint = if outPoint = contractOutPoint contract then some entry.wrap else none) :
    Undoes st after ((revertedSet env after copy statedb reloaded).importUtxoMap um) := by
  have imported := fun outPoint => importUtxoMap_lookup (revertedSet env after copy statedb reloaded) um outPoint
  constructor
  · intro outPoint
    rw [imported, rolled]
    split
    · next here =>
      rw [Option.some_or, Option.bind_some, UtxoEntry.written_wrap, Option.getD_some, here, undo.calls.stored]
    · next other =>
      rw [Option.none_or]
      exact connected.reverted_restores undo read statedb other
  · intro outPoint utxoWrap found
    rw [show AList.lookup outPoint _ = _ from imported outPoint, rolled] at found
    split at found
    · next here =>
      rw [Option.some_or] at found
      cases found
      rw [here]
      refine ⟨keyed, fun now present => ?_⟩
      exact (connected.scripts _ entry now undo.calls.stored present).symm
    · rw [Option.none_or] at found
      exact connected.reverted_writable undo read statedb outPoint utxoWrap found

end Disconnect

section Restore

variable {env : NodeEnv} {st after : ChainState} {block copy connected : Block} {splits : Table HashType Transaction}
  {created : List (AddressHash × SplitAddrInfo)} {contract : AddressHash} {call : TxOut} {entry : UtxoEntry}

/-- Erasing what the block added leaves the records as they were, but for the outputs. -/
theorem withoutBlock_restores (same : after = { withBlock env st block.external splits created with
      utxos := after.utxos, addrUtxos := after.addrUtxos, tail := after.tail })
    (extend : Extends env st block) (unused : Unused env st block copy splits)
    (fresh : ∀ entry ∈ created, st.splitAddrs.records.lookup entry.1 = none)
    {final : ChainState} (erased : final = { withoutBlock env after block.external splits created with
      utxos := final.utxos, addrUtxos := final.addrUtxos, tail := st.tail })
    (utxos : ∀ outPoint, final.utxos.lookup outPoint = st.utxos.lookup outPoint)
    (addrUtxos : ∀ key, final.addrUtxos.lookup key = st.addrUtxos.lookup key) : Restored st final := by
  refine ⟨utxos, addrUtxos, ?_, ?_, ?_, ?_, ?_, by rw [erased]⟩ <;> rw [erased]
  · intro hash
    rw [same]
    change ((indexedTxs block.external splits).foldl _
      ((indexedTxs block.external splits).zipIdx.foldl _ st.txIndex)).lookup hash = _
    rw [lookup_foldl_erase]
    split
    · next member =>
      obtain ⟨tx, among, rfl⟩ := mem_map.mp member
      exact (unused.index tx among).symm
    · next absent => exact lookup_foldl_insert _ (zipIdx_map_txHash ▸ absent) _
  · intro hash
    rw [same]
    exact lookup_erase_insert _ _ unused.splitTxs hash
  · intro hash
    rw [same]
    exact lookup_erase_insert _ _ unused.txs hash
  · intro addr
    rw [same]
    exact lookup_erase_insert _ _ fresh addr
  · intro height
    rw [same]
    change ((st.blockHashes.insert block.header.height _).erase block.header.height).lookup height = _
    by_cases here : height = block.header.height
    · rw [here, lookup_erase, extend.free]
    · rw [lookup_erase_ne here, lookup_insert_ne here]

/-- Expanding the block again, with the addresses that it created, gives the same copy. -/
theorem SplitsApart.expanded_again (apart : SplitsApart env st block created)
    (expanded : splitBlockOutputs env.crypto st.splitAddrs env.depth block = .ok (copy, splits)) :
    splitBlockOutputs env.crypto (withBlock env st block.external splits created).splitAddrs env.depth
      block.external = .ok (copy.external, splits) := by
  obtain ⟨header, internal, split⟩ := expandedCopy expanded
  have again : splitTxs env.crypto (withBlock env st block.external splits created).splitAddrs env.depth
      block.txs ∅ = .ok (copy.txs, splits) := by
    rw [← split]
    exact splitTxs_congr apart.same ∅
  rw [splitBlockOutputs, again, ok_bind, splitBlockOutputs_copy expanded]
  rfl

theorem Connected.disconnects (connected : Connected env st block copy contract after)
    (same : after = { withBlock env st block.external splits created with
      utxos := after.utxos, addrUtxos := after.addrUtxos, tail := after.tail })
    (made : createdSplitAddrs env.crypto block.external = .ok created)
    {prev : env.world.State} (parent : env.world.new st.tail.header.rootHash st.tail.header.utxoRoot = some prev)
    (undo : Undoable env st block copy splits contract call entry) (kept : WellKept env st) (extend : Extends env st block)
    (apart : SplitsApart env st block created) :
    ∃ final, tryDisConnectBlockFromMainChain env after block.external = .ok final ∧
      Restored st final := by
  have again : splitBlockOutputs env.crypto after.splitAddrs env.depth block.external =
      .ok (copy.external, splits) := by
    rw [same]
    exact apart.expanded_again undo.expanded
  have stored : after.blocks.lookup block.header.prevBlockHash = some st.tail := by
    rw [same]
    exact (lookup_insert_ne extend.distinct.symm).trans extend.stored
  obtain ⟨-, state, new, -⟩ := undo.calls.states prev parent
  have reads : ∀ outPoint, ∃ created, reload env after outPoint =
      reload env (withBlock env st block.external splits created) outPoint := by
    intro outPoint
    rw [same]
    exact ⟨created, rfl⟩
  have : Nonempty UtxoWrap := ⟨entry.wrap⟩
  choose! reloaded read using fun (outPoint : OutPoint) (member : outPoint ∈ inputsAfterFirst block.txs) =>
    connected.readBack kept extend undo.unused undo.calls.inputs reads member
  have spends := undo.inputs_copy
  have external : copy.external.internalTxs = [] := rfl
  have reverts : revertBlock env after _ copy.external = _ :=
    revertBlock_eq external (fun outPoint member => undo.calls.inputs outPoint (spends ▸ member))
      (fun outPoint member => (read outPoint (spends ▸ member)).1)
      (loadedSet env after copy (env.world.stateDB state))
  obtain ⟨um, rolled, lookup⟩ := undo.calls.rollback parent stored
  obtain ⟨key, keyed, -⟩ := kept.listed.listed _ entry undo.calls.stored
  have undoes := connected.undoes undo read ⟨key, keyed⟩ (env.world.stateDB state) lookup
  obtain ⟨written, wrote⟩ := exists_written (fun outPoint utxoWrap found _ => (undoes.writable outPoint utxoWrap found).1)
    (withoutBlock env after block.external splits created)
  have records := writeUtxoSetToDB_ok wrote
  have disconnects : tryDisConnectBlockFromMainChain env after block.external =
      .ok { written with tail := st.tail } := by
    have deleted : ((({ after with blockHashes := after.blockHashes.erase block.header.height }).delTxIndex env.crypto
        block.external splits).delSplitTxs env.crypto splits).deleteSplitAddrIndex env.crypto
          block.external = .ok (withoutBlock env after block.external splits created) := by
      rw [deleteSplitAddrIndex, made]
      rfl
    rw [revertedSet] at wrote
    have tail := extend.parent block.external rfl
    simp only [tryDisConnectBlockFromMainChain, again, ok_bind, new, orFail, reverts, rolled, deleted, wrote, tail,
      expect, parent]
    rfl
  refine ⟨_, disconnects, ?_⟩
  have back : ∀ outPoint, written.utxos.lookup outPoint = st.utxos.lookup outPoint := by
    intro outPoint
    rw [records.lookup]
    exact undoes.restores outPoint
  have listed : Listed written := by
    exact records.listed ⟨connected.listed.listed, connected.listed.only⟩
      fun outPoint utxoWrap found => (undoes.writable outPoint utxoWrap found).2
  refine withoutBlock_restores same extend undo.unused apart.fresh ?_ back (listed.lookup_eq kept.listed back)
  rw [records.frame]

end Restore

/-- A world with one contract, whose state is the balance of the contract. -/
def sampleWorld : World where
  State := Nat
  new root _ := if root = zeroHash then some 500000000 else if root = sampleRoot then some 817000000 else none
  stateDB balance :=
    { sampleParentState with
      getContractUtxo := fun addr => if addr = sampleGenesis.contractAddr then some ⟨.ofNat balance, [], 0⟩ else none
      getBalance := fun addr => if addr = sampleGenesis.contractAddr then balance else 0 }
  addBalance state _ _ := state
  subBalance state _ _ := state
  updateUtxo state _ _ := some state
  commit balance := some (if balance = 817000000 then sampleRoot else zeroHash, some sampleUtxoRoot, balance)

def sampleNode (block : Block) (hash : HashType) : NodeEnv where
  crypto := sampleSplitCrypto
  pow10 := samplePow10
  world := sampleWorld
  genesis := sampleGenesis
  Receipt := Unit
  receiptsHash _ := zeroHash
  process _ balance utxoSet := some ([()], 0, [], Nat.add balance 317000000, utxoSet)
  fetchNetParamsByHeight _ := some sampleNetParams
  getParentBlock _ := some sampleParent
  blockHash header := if header = block.header then hash else sampleParentHash
  genesisBlock := sampleParent
  verify block := ((verify (sampleConsensus block hash) block).run.run sampleVerifying).1.isOk
  depth := 9

def sampleRecords : ChainState where
  utxos := sampleCoins
  addrUtxos :=
    insert ⟨sampleCoinOwner, none, ⟨sampleFundingHash, 0⟩⟩ ⟨10000000, payToPubKeyHashScript sampleCoinOwner, 9⟩
      (insert ⟨sampleCoinOwner, none, ⟨sampleFundingHash, 1⟩⟩ ⟨8550000, payToPubKeyHashScript sampleCoinOwner, 9⟩
        (insert ⟨sampleGenesis.contractAddr, none, contractOutPoint sampleGenesis.contractAddr⟩
          ⟨500000000, [], 0⟩ ∅))
  txIndex := insert sampleFundingHash (9, 0) ∅
  splitTxs := ∅
  txs := ∅
  splitAddrs := sampleIndex
  blockHashes := insert 9 sampleParentHash ∅
  blocks := insert sampleParentHash sampleParent ∅
  tail := sampleParent

def samplePaymentBlock : Block :=
  { sampleSplitBlock 1050000 [{ samplePayment with type := .payToPubkTx }] with
    signature :=
      [32, 90, 66, 207, 205, 61, 24, 17, 209, 153, 176, 157, 200, 9, 48, 129, 52, 207, 98, 25, 226, 224, 41, 89, 142,
        137, 148, 24, 249, 183, 175, 71, 36, 102, 14, 90, 22, 155, 137, 184, 159, 159, 209, 21, 28, 175, 198, 250, 83,
        97, 142, 98, 43, 109, 103, 84, 33, 69, 65, 226, 44, 90, 219, 99, 19] }

def samplePaymentNode : NodeEnv :=
  sampleNode samplePaymentBlock
    ⟨[221, 33, 56, 0, 7, 220, 75, 131, 100, 217, 9, 240, 226, 146, 249, 122, 176, 139, 186, 44, 251, 36, 27, 64, 140,
      137, 253, 38, 75, 35, 118, 97], rfl⟩

def sampleRespendBlock : Block :=
  { sampleSplitBlock 2100000 [samplePayment, sampleRespend] with
    signature :=
      [31, 184, 218, 38, 176, 169, 174, 167, 56, 179, 67, 254, 105, 212, 216, 35, 120, 38, 170, 141, 82, 196, 23, 116,
        197, 55, 192, 147, 188, 107, 6, 251, 87, 100, 106, 108, 207, 35, 32, 162, 75, 10, 115, 138, 113, 129, 252, 4,
        248, 156, 252, 179, 130, 249, 86, 194, 85, 51, 7, 161, 46, 153, 67, 112, 133] }

def sampleRespendNode : NodeEnv :=
  sampleNode sampleRespendBlock
    ⟨[61, 208, 186, 246, 92, 192, 127, 81, 78, 206, 252, 168, 1, 112, 254, 203, 34, 80, 57, 10, 15, 242, 36, 63, 22, 7,
      83, 11, 6, 52, 190, 74], rfl⟩

def samplePaymentCopy : Block :=
  { samplePaymentBlock with
    txs := [sampleCoinbase 10 317000000 1050000, { sampleExpanded with type := .splitTx }] }

def samplePaymentSplits : Table HashType Transaction :=
  insert samplePaymentHash { sampleExpanded with type := .splitTx } ∅

def sampleCall : TxOut := ((sampleCoinbase 10 317000000 1050000).vout.head?).getD ⟨0, []⟩

theorem samplePaymentBlock_expands :
    splitBlockOutputs samplePaymentNode.crypto sampleRecords.splitAddrs samplePaymentNode.depth samplePaymentBlock =
      .ok (samplePaymentCopy, samplePaymentSplits) := by
  have txs : (splitTxs samplePaymentNode.crypto sampleRecords.splitAddrs samplePaymentNode.depth samplePaymentBlock.txs
      ∅).map (fun result => (result.1, result.2.entries)) = .ok (samplePaymentCopy.txs, samplePaymentSplits.entries) := by
    decide +kernel
  obtain ⟨⟨txs, splits⟩, split, same⟩ := exists_ok_map txs
  obtain ⟨rfl, entries⟩ := Prod.mk.inj same
  have same : splits = samplePaymentSplits := ext entries
  rw [splitBlockOutputs, split, same]
  rfl

theorem sampleRecords_wellKept : WellKept samplePaymentNode sampleRecords where
  listed := ⟨all_iff.mpr (by decide +kernel), all_iff.mpr (by decide +kernel)⟩
  held := all_iff.mpr (by decide +kernel)

theorem samplePaymentBlock_extends : Extends samplePaymentNode sampleRecords samplePaymentBlock where
  parent _ _ := rfl
  stored := by decide +kernel
  distinct := by decide +kernel
  height := by decide +kernel
  free := by decide +kernel
  unlisted := all_iff.mpr (by decide +kernel)

theorem samplePaymentBlock_unused :
    Unused samplePaymentNode sampleRecords samplePaymentBlock samplePaymentCopy samplePaymentSplits where
  index := by decide +kernel
  distinct := by decide +kernel
  few := by decide +kernel
  splitTxs := by decide +kernel
  txs := by decide +kernel
  utxos := all_iff.mpr (by decide +kernel)
  copies := by decide +kernel
  order := ⟨by decide +kernel, by decide +kernel⟩

theorem sampleTransfers_of {txs : List Transaction} {state : Nat}
    (calls : ∀ tx ∈ txs, ∀ vout ∈ tx.vout, isContractPubkey vout.scriptPubKey = true →
      (parseContractInfo vout.scriptPubKey).map (fun info => info.2.1) = .ok (some sampleGenesis.contractAddr))
    (plain : ∀ tx ∈ txs, ∀ vout ∈ tx.vout, isContractPubkey vout.scriptPubKey = false →
      vout.paidContract sampleParentState = none) :
    Transfers (sampleWorld.stateDB state) sampleGenesis.contractAddr txs := by
  refine ⟨fun tx among vout output isContract => ?_, plain⟩
  obtain ⟨⟨sender, _, nonce⟩, parsed, rfl⟩ := exists_ok_map (calls tx among vout output isContract)
  exact ⟨sender, nonce, parsed⟩

theorem samplePaymentBlock_calls :
    OneCall samplePaymentNode sampleRecords samplePaymentBlock samplePaymentCopy sampleGenesis.contractAddr
      sampleCall ⟨500000000, [], 0⟩ where
  quiet _ _ := by
    rintro _ _ _ _ _ ⟨⟩
    exact ⟨rfl, fun _ _ => rfl, rfl⟩
  transfers _ _ := sampleTransfers_of (by decide +kernel) (by decide +kernel)
  coinbase := ⟨_, _, (sampleCoinbase 10 317000000 1050000).vout.tail, rfl, by decide +kernel, by decide +kernel,
    by decide +kernel⟩
  others := by decide +kernel
  inputs := by decide +kernel
  called := ⟨by decide +kernel, by decide +kernel, by decide +kernel⟩
  stored := by decide +kernel
  states := by
    rintro _ ⟨⟩
    exact ⟨by decide +kernel, (817000000 : Nat), rfl, sampleTransfers_of (by decide +kernel) (by decide +kernel),
      by decide +kernel⟩

end Boxd
