import Boxd.Proofs.Coinbase
import Boxd.Proofs.PayToPubKeyHash
import Boxd.Proofs.ValidBlock

/-! Coins are not created. Inputs are checked on the block as it is, while outputs are
applied from its expanded copy, in which who pays a split address has another hash: an
output of theirs that is spent in the same block stays unspent under the new hash. -/

namespace Boxd
open Lib UtxoSet List Script Bpos AList Outcome Table

variable {outPoint : OutPoint} {inputs : List OutPoint}

/-- What the unspent outputs of a database are worth. -/
def coins (db : UtxoDB) : Nat := db.total fun entry => entry.value.toNat

/-- What is spent inside the block is held by the outpoint that is spent: the transaction
before is not expanded, and the output does not pay a contract. -/
def SpendsKept (c : Crypto) (index : SplitAddrIndex) (depth : Nat) (statedb : StateDB) (txs : List Transaction) : Prop :=
  ∀ outPoint ∈ inputsAfterFirst txs, ∀ origin ∈ txs, txHash c origin = outPoint.hash →
    (∀ vout ∈ origin.vout, index.accountsPaid depth vout ≤ 1) ∧
      ∀ vout ∈ origin.vout[outPoint.index.toNat]?, vout.paidContract statedb = none

instance (c : Crypto) (index : SplitAddrIndex) (depth : Nat) (statedb : StateDB) (txs : List Transaction) :
    Decidable (SpendsKept c index depth statedb txs) := by
  unfold SpendsKept
  infer_instance

theorem payment_mem {c : Crypto} {statedb : StateDB} {txs : List Transaction} {origin : Transaction} {vout : TxOut}
    (among : origin ∈ txs) (hashed : txHash c origin = outPoint.hash)
    (output : origin.vout[outPoint.index.toNat]? = some vout)
    (data : isOpReturnScript vout.scriptPubKey = false)
    (plain : isContractPubkey vout.scriptPubKey = false) (kept : vout.paidContract statedb = none) :
    (outPoint, vout.value.toNat) ∈ allPayments c statedb txs := by
  refine mem_flatMap.mpr ⟨origin, among, mem_filterMap.mpr ⟨(vout, outPoint.index.toNat), ?_, ?_⟩⟩
  · exact mk_mem_zipIdx_iff_getElem?.mpr output
  · have held : vout.holder c statedb (txHash c origin) outPoint.index.toNat = some outPoint := by
      simp only [TxOut.holder, data, plain, Bool.false_eq_true, if_false, kept, Option.elim_none, hashed]
      rw [UInt32.ofNat_toNat]
    dsimp only
    rw [held]
    rfl

theorem paidTotal_copies_le (c : Crypto) (statedb : StateDB) {txs copies : List Transaction}
    (expansions : Forall₂ Expansion txs copies) :
    paidTotal (allPayments c statedb copies) ≤ (txs.map fun tx => outputTotal tx.vout).sum := by
  induction expansions with
  | nil => rfl
  | @cons tx copy _ copies first _ next =>
    simp only [allPayments, flatMap_cons, paidTotal, map_append, sum_append, map_cons, sum_cons]
    exact Nat.add_le_add ((paidTotal_payments_le c statedb _ copy.vout 0).trans first.total_le) next

section Block

variable {c : Crypto} {statedb : StateDB} {index : SplitAddrIndex} {depth : Nat} {block : Block} {db : UtxoDB}
  {copies : List Transaction} {utxoSet after : UtxoSet}

theorem balance_unspent (sourced : Sourced c block db inputs utxoSet.utxoMap) (unspent : outPoint ∉ inputs) :
    balance db utxoSet.utxoMap outPoint = db.worthAt (fun entry => entry.value.toNat) outPoint := by
  unfold balance
  split
  · rfl
  · next utxoWrap found =>
    rcases sourced outPoint utxoWrap found with ⟨entry, stored, rfl⟩ | ⟨spent, -⟩
    · simp [worthAt, stored, UtxoEntry.wrap, UtxoWrap.new]
    · exact absurd spent unspent

/-- At an outpoint that the block spends, its value is stored, or the copy pays it. -/
theorem valueOf_le (sourced : Sourced c block db inputs utxoSet.utxoMap)
    (paid : ∀ utxoWrap, OfBlock c block outPoint utxoWrap →
      (outPoint, utxoWrap.value.toNat) ∈ allPayments c statedb copies) :
    utxoSet.valueOf outPoint ≤
      db.worthAt (fun entry => entry.value.toNat) outPoint + posted (allPayments c statedb copies) outPoint := by
  unfold valueOf
  cases found : utxoSet.findUtxo outPoint with
  | none => exact Nat.zero_le _
  | some utxoWrap =>
    rcases sourced outPoint utxoWrap found with ⟨entry, stored, rfl⟩ | ⟨-, ofBlock⟩
    · simp [worthAt, stored, UtxoEntry.wrap, UtxoWrap.new]
    · exact (le_posted (paid utxoWrap ofBlock)).trans (Nat.le_add_left _ _)

/-- If what a block spends is stored or paid by the copy, then applying the copy leaves
no more coins than there were, less what is spent, plus what is paid. -/
theorem coins_applied_le {first : Transaction} {rest later : List Transaction} {blockHeight : UInt32}
    (records : RecordsWithin statedb db)
    (sourced : Sourced c block db inputs utxoSet.utxoMap) (distinct : inputs.Nodup)
    (spends : rest.flatMap consumed = inputs)
    (plain : ∀ tx ∈ rest, ∀ vout ∈ tx.vout, isContractPubkey vout.scriptPubKey = false)
    (paid : ∀ outPoint ∈ inputs, ∀ utxoWrap, OfBlock c block outPoint utxoWrap →
      (outPoint, utxoWrap.value.toNat) ∈ allPayments c statedb (first :: rest))
    (ok : applyTxs c blockHeight statedb (first :: rest) utxoSet = .ok (after, later)) :
    coins (after.writeUtxos db) + (inputs.map utxoSet.valueOf).sum ≤
      coins db + paidTotal (allPayments c statedb (first :: rest)) := by
  have modified := applyTxs_allModified ok sourced.modified
  have spent : ∀ outPoint ∈ inputs, SpentIn after.utxoMap outPoint := by
    intro outPoint member
    simp only [applyTxs, bind_ok_iff, Prod.exists] at ok
    obtain ⟨between, _, -, final, others, applied, done⟩ := ok
    cases done
    exact applyTxs_spent rest plain applied (spends ▸ member)
  have debits : paidTotal (inputs.map fun outPoint => (outPoint, utxoSet.valueOf outPoint)) =
      (inputs.map utxoSet.valueOf).sum := by
    rw [paidTotal, map_map]
    rfl
  have keys : (inputs.map fun outPoint => (outPoint, utxoSet.valueOf outPoint)).map Prod.fst = inputs := by
    rw [map_map]
    exact map_id _
  rw [← debits]
  apply total_add_paid_le
  intro outPoint
  rw [worthAt_writeUtxos modified]
  by_cases member : outPoint ∈ inputs
  · -- A spent entry is worth nothing, and its value comes out of one of the two sides.
    obtain ⟨utxoWrap, found, isSpent⟩ := spent outPoint member
    have nothing : balance db after.utxoMap outPoint = 0 := by simp [balance, found, isSpent]
    have debit := posted_of_mem (keys.symm ▸ distinct) (mem_map_of_mem member)
    rw [nothing, debit, zero_add]
    exact valueOf_le sourced (paid outPoint member)
  · rw [posted_of_notMem (by rwa [keys]), add_zero, ← balance_unspent sourced member]
    exact applyTxs_balance_le records (first :: rest) ok outPoint

end Block

/-- A transaction without contracts: it is not one of the system's, and no output is a
contract output. -/
def NonContract (tx : Transaction) : Prop :=
  isInternalContract tx = false ∧ ∀ vout ∈ tx.vout, isContractPubkey vout.scriptPubKey = false

instance (tx : Transaction) : Decidable (NonContract tx) := inferInstanceAs (Decidable (_ ∧ _))

theorem Expansion.plain {tx copy : Transaction} (expansion : Expansion tx copy)
    (plain : ∀ vout ∈ tx.vout, isContractPubkey vout.scriptPubKey = false) :
    ∀ vout ∈ copy.vout, isContractPubkey vout.scriptPubKey = false := by
  intro vout member
  rcases expansion.script vout member with original | ⟨addr, pays⟩
  · exact plain vout original
  · rw [pays]
    exact payToPubKeyHash_not_contract addr

/-- From the first check of a block to the set that is written: the fees and the set. The
states are that of the tail, that of the parent, and that with the coinbase added. -/
def checkAndApply (c : Crypto) (pow10 : Pow10) (tailState statedb state : StateDB) (index : SplitAddrIndex)
    (depth : Nat) (db : UtxoDB) (block : Block) : Outcome ChainError (UInt64 × UtxoSet) := do
  let block ← validateBlock c block tailState
  let utxoSet ← lift (new.loadBlockUtxos c block true db statedb)
  let (totalFees, _) ← validateBlockInputs c pow10 utxoSet statedb block.txs 0
  let (blockCopy, _) ← splitBlockOutputs c index depth block
  let (utxoSet, _) ← utxoSet.applyBlock c blockCopy state
  return (totalFees, utxoSet)

def coinbaseTotal (block : Block) : Nat := (block.txs.head?.map fun coinbase => outputTotal coinbase.vout).getD 0

/-- The coins do not grow by more than the coinbase less the fees, as long as what is
spent inside the block is kept by the expansion. -/
theorem coins_not_created {c : Crypto} {pow10 : Pow10} {tailState statedb state : StateDB} {index : SplitAddrIndex}
    {depth : Nat} {db : UtxoDB} {block : Block} {totalFees : UInt64} {after : UtxoSet}
    (ran : checkAndApply c pow10 tailState statedb state index depth db block = .ok (totalFees, after))
    (transfers : ∀ tx ∈ block.txs.tail, NonContract tx) (fit : index.WeightsFit) (records : RecordsWithin state db)
    (kept : SpendsKept c index depth state block.txs) :
    coins (after.writeUtxos db) + totalFees.toNat ≤ coins db + coinbaseTotal block := by
  simp only [checkAndApply, bind_ok_iff, lift_ok_iff, Prod.exists] at ran
  obtain ⟨validated, valid, utxoSet, loaded, fees, typed, checked, copy, splits, expanded, final, applied, ran, done⟩ := ran
  cases done
  obtain ⟨header, messages, ⟨first, rest, listed, isFirst, others⟩, inRange, distinct⟩ := validateBlock_ok valid
  rw [listed] at messages transfers kept inRange distinct
  obtain ⟨first', rest', firstSame, restSame, listed'⟩ := forall₂_cons_left_iff.mp messages
  -- Caching the types of the transactions changes nothing that matters here.
  have inputs : rest'.flatMap spentBy = rest.flatMap spentBy :=
    (flatMap_congr (fun tx typed (same : typed.toTxMessage = tx.toTxMessage) => by rw [spentBy, spentBy, same])
      restSame).symm
  have transfers' : ∀ tx ∈ rest', isOrdinary tx = true ∧
      ∀ vout ∈ tx.vout, isContractPubkey vout.scriptPubKey = false := by
    intro typed member
    obtain ⟨tx, among, same⟩ := exists_of_mem_right restSame member
    obtain ⟨external, plain⟩ := transfers tx among
    rw [isOrdinary_congr (congrArg TxMessage.vin same), same]
    exact ⟨by rw [isOrdinary, others tx among, external]; rfl, plain⟩
  have kept' : SpendsKept c index depth state validated.txs := by
    intro outPoint member typed among hashed
    obtain ⟨tx, original, same⟩ := exists_of_mem_right messages among
    rw [listed', inputsAfterFirst, tail_cons, inputs] at member
    have keeps := kept outPoint member tx original (txHash_congr same ▸ hashed)
    rwa [← same] at keeps
  have inRange' : ∀ tx ∈ validated.txs, outputTotal tx.vout ≤ totalSupply.toNat := by
    intro typed among
    obtain ⟨tx, original, same⟩ := exists_of_mem_right messages among
    rw [same]
    exact inRange tx original
  have coinbase : isOrdinary first' = false := by
    rw [isOrdinary_congr (congrArg TxMessage.vin firstSame), isOrdinary, isFirst]
    rfl
  -- The copy has the same inputs, and keeps what is spent inside the block.
  simp only [splitBlockOutputs, bind_ok_iff, Prod.exists] at expanded
  obtain ⟨copies, _, split, done⟩ := expanded
  cases done
  have partners := splitTxs_ok split
  have expansions : Forall₂ Expansion validated.txs copies := by
    refine partners.imp ?_
    rintro _ _ ⟨_, split⟩
    exact splitTxOutputs_expansion fit split
  have paid : ∀ outPoint ∈ rest'.flatMap spentBy, ∀ utxoWrap, OfBlock c validated outPoint utxoWrap →
      (outPoint, utxoWrap.value.toNat) ∈ allPayments c state copies := by
    rintro outPoint member utxoWrap ⟨origin, vout, among, hashed, output, data, plain⟩
    obtain ⟨single, held⟩ := kept' outPoint (by rwa [listed']) origin among hashed
    obtain ⟨copy, copied, _, split⟩ := exists_of_mem_left partners among
    obtain rfl := splitTxOutputs_unexpanded single split
    exact payment_mem copied hashed output data plain (held vout output)
  have pays := paidTotal_copies_le c state expansions
  rw [listed'] at expansions
  obtain ⟨firstCopy, restCopy, -, restExpansions, rfl⟩ := forall₂_cons_left_iff.mp expansions
  have consumes : rest'.flatMap consumed = rest'.flatMap spentBy :=
    flatMap_congr fun tx member => by rw [consumed_eq, if_pos (transfers' tx member).1]
  have spends : restCopy.flatMap consumed = rest'.flatMap spentBy := by
    rw [← consumes]
    exact (flatMap_congr (fun _ _ expansion => consumed_congr expansion.vin.symm) restExpansions).symm
  have plain : ∀ tx ∈ restCopy, ∀ vout ∈ tx.vout, isContractPubkey vout.scriptPubKey = false := by
    intro copy member
    obtain ⟨tx, among, expansion⟩ := exists_of_mem_right restExpansions member
    exact expansion.plain (transfers' tx among).2
  have sourced := loadBlockUtxos_sourced loaded
  rw [listed', inputsAfterFirst, tail_cons] at sourced
  have once : (rest'.flatMap spentBy).Nodup := by
    rw [flatMap_cons, nodup_append] at distinct
    exact inputs ▸ distinct.2.1
  simp only [applyBlock, bind_ok_iff, Prod.exists] at ran
  obtain ⟨final, txs, ran, done⟩ := ran
  cases done
  have bound := coins_applied_le records sourced once spends plain paid ran
  have fees := validateBlockInputs_fees inRange' checked
  have ordinary : ordinaryTotal validated.txs = (rest'.map fun tx => outputTotal tx.vout).sum := by
    rw [ordinaryTotal, listed', filter_cons_of_neg (by simp [coinbase]),
      filter_eq_self.mpr fun tx member => (transfers' tx member).1]
  have spent : validated.txs.flatMap consumed = rest'.flatMap spentBy := by
    rw [listed', flatMap_cons, consumed_eq, coinbase, consumes]
    rfl
  have total : outputTotal first'.vout = outputTotal first.vout := by rw [firstSame]
  rw [ordinary, spent, UInt64.toNat_zero, add_zero] at fees
  rw [listed', map_cons, sum_cons, total] at pays
  rw [coinbaseTotal, listed, head?_cons, Option.map_some, Option.getD_some]
  omega

def sampleCoinOwner : AddressHash := sampleBookKeeper

def sampleSplitAddr : AddressHash := .fill 20 9
def sampleSplitInfo : SplitAddrInfo := ⟨[(.fill 20 1, 1), (.fill 20 2, 1)]⟩

def indexOf (info : SplitAddrInfo) : SplitAddrIndex where
  splitAddrFilter := Bloom.add ⟨fun addr => addr.bytes.map UInt8.toNat, []⟩ sampleSplitAddr
  records := insert sampleSplitAddr info.marshall ∅

def sampleIndex : SplitAddrIndex := indexOf sampleSplitInfo

/-- The split address leads to one account. -/
def sampleSingleInfo : SplitAddrInfo := ⟨[(.fill 20 1, 1)]⟩

/-- A transaction with one input that the owner of the coins signs. -/
def ownedTx (outPoint : OutPoint) (signature : Bytes) (vout : List TxOut) : Transaction :=
  { newTx 1 0 0 with
    vin := [⟨outPoint, (addOperand [] signature).addOperand samplePubKey, maxUint32⟩]
    vout := vout }

/-- What the signature of an `ownedTx` signs. -/
def ownedMessage (outPoint : OutPoint) (vout : List TxOut) : TxMessage :=
  { newTx 1 0 0 with
    vin := [⟨outPoint, payToPubKeyHashScript sampleCoinOwner, maxUint32⟩]
    vout := vout }.toTxMessage

def sampleFunding : Transaction :=
  { newTx 1 0 0 with
    vin := [⟨⟨.fill 32 0x11, 0⟩, [], maxUint32⟩]
    vout := [makeVout sampleCoinOwner 10000000, makeVout sampleCoinOwner 8550000] }

def sampleFundingHash : HashType :=
  ⟨[157, 25, 59, 97, 115, 25, 113, 129, 25, 178, 194, 89, 239, 46, 209, 173, 172, 161, 56, 166, 103,
    11, 118, 40, 230, 230, 129, 24, 115, 168, 59, 135], by decide⟩

/-- A payment to the split address, with change. -/
def samplePayment : Transaction :=
  ownedTx ⟨sampleFundingHash, 0⟩
    [48, 68, 2, 32, 7, 137, 222, 233, 34, 168, 9, 226, 19, 101, 245, 21, 193, 11, 97, 189, 196, 79, 24,
      235, 92, 247, 228, 247, 29, 73, 42, 200, 190, 21, 117, 118, 2, 32, 18, 241, 174, 101, 207, 119, 15,
      221, 2, 71, 43, 77, 85, 6, 154, 30, 101, 29, 211, 116, 73, 172, 247, 178, 50, 60, 184, 200, 93, 5,
      178, 241]
    [makeVout sampleSplitAddr 400000, makeVout sampleCoinOwner 8550000]

def samplePaymentHash : HashType :=
  ⟨[192, 174, 135, 119, 83, 3, 16, 56, 202, 107, 32, 238, 222, 171, 59, 155, 224, 70, 74, 52, 212, 20,
    90, 104, 98, 203, 10, 165, 218, 201, 102, 54], by decide⟩

/-- The payment after its expansion. -/
def sampleExpanded : Transaction :=
  { samplePayment with
    vout := (sampleSplitInfo.shares.map fun share => makeVout share.1 200000) ++ [makeVout sampleCoinOwner 8550000] }

/-- The change is spent in the block of the payment. -/
def sampleRespend : Transaction :=
  ownedTx ⟨samplePaymentHash, 1⟩
    [48, 69, 2, 33, 0, 233, 35, 65, 16, 56, 124, 33, 34, 40, 135, 208, 121, 123, 219, 201, 170, 166, 50,
      178, 55, 42, 86, 50, 200, 142, 96, 70, 83, 112, 162, 132, 162, 2, 32, 85, 218, 120, 78, 151, 95,
      11, 40, 9, 136, 48, 200, 95, 159, 92, 63, 124, 68, 36, 222, 121, 135, 183, 122, 1, 6, 102, 45, 75,
      16, 179, 55]
    [makeVout sampleCoinOwner 7500000]

def sampleTxHashes : List (Bytes × HashType) :=
  [(sampleFunding.marshal, sampleFundingHash), (samplePayment.marshal, samplePaymentHash),
    (sampleExpanded.marshal,
      ⟨[229, 41, 236, 153, 211, 2, 124, 0, 9, 48, 60, 210, 116, 216, 7, 232, 45, 69, 184, 28, 31, 99, 92,
      108, 94, 148, 55, 210, 229, 212, 212, 62], by decide⟩),
    (sampleRespend.marshal,
      ⟨[55, 122, 133, 40, 225, 208, 213, 195, 96, 84, 199, 64, 137, 169, 230, 194, 13, 171, 228, 8, 49,
      192, 12, 99, 254, 159, 126, 175, 39, 27, 251, 82], by decide⟩),
    ((sampleCoinbase 10 317000000 1050000).marshal,
      ⟨[238, 75, 205, 205, 175, 83, 233, 234, 124, 198, 19, 52, 216, 55, 35, 54, 95, 23, 241, 219, 66, 180,
      27, 9, 195, 196, 96, 142, 25, 28, 80, 161], by decide⟩),
    ((sampleCoinbase 10 317000000 2100000).marshal,
      ⟨[209, 168, 23, 182, 230, 100, 234, 176, 46, 121, 50, 188, 199, 143, 217, 129, 111, 165, 156, 241,
      245, 133, 158, 109, 57, 109, 248, 97, 7, 217, 218, 9], by decide⟩),
    ((ownedMessage ⟨sampleFundingHash, 0⟩ samplePayment.vout).marshal,
      ⟨[225, 49, 244, 30, 160, 60, 210, 77, 171, 229, 146, 85, 38, 90, 107, 119, 132, 30, 173, 245, 39, 92,
      152, 191, 204, 175, 35, 34, 24, 3, 223, 131], by decide⟩),
    ((ownedMessage ⟨samplePaymentHash, 1⟩ sampleRespend.vout).marshal,
      ⟨[10, 212, 189, 134, 163, 201, 199, 115, 211, 184, 184, 143, 98, 106, 45, 156, 255, 237, 87, 191,
      116, 165, 188, 114, 236, 38, 8, 51, 39, 201, 92, 229], by decide⟩)]

def lookupHash (hashes : List (Bytes × HashType)) (bytes : Bytes) : HashType := (hashes.lookup bytes).getD zeroHash

def sampleNodeHashes : List (Bytes × HashType) :=
  let hash := lookupHash sampleTxHashes
  let first := hash (sampleCoinbase 10 317000000 1050000).marshal
  let second := hash (sampleCoinbase 10 317000000 2100000).marshal
  let respend := hash sampleRespend.marshal
  let left : HashType :=
    ⟨[109, 164, 232, 37, 70, 20, 144, 250, 160, 158, 124, 178, 98, 181, 115, 144, 33, 93, 187, 112, 154,
      197, 135, 29, 33, 145, 237, 10, 24, 68, 67, 248], by decide⟩
  let right : HashType :=
    ⟨[229, 220, 65, 95, 227, 155, 178, 123, 121, 254, 87, 174, 219, 102, 203, 1, 235, 113, 23, 140, 198,
      138, 164, 255, 28, 198, 34, 245, 206, 38, 147, 75], by decide⟩
  [(first.bytes ++ samplePaymentHash.bytes,
      ⟨[140, 124, 222, 138, 109, 104, 208, 0, 9, 193, 224, 57, 212, 173, 187, 27, 121, 240, 226, 43, 203,
      0, 189, 238, 236, 54, 112, 135, 169, 126, 239, 251], by decide⟩),
    (second.bytes ++ samplePaymentHash.bytes, left), (respend.bytes ++ respend.bytes, right),
    (left.bytes ++ right.bytes,
      ⟨[239, 224, 136, 42, 89, 59, 17, 30, 201, 198, 210, 42, 101, 41, 142, 28, 93, 92, 152, 213, 127, 31,
      125, 160, 247, 85, 194, 100, 177, 112, 49, 22], by decide⟩)]

/-- Hash functions and signatures, known at the sample transactions. -/
def sampleSplitCrypto : Crypto where
  Signature := Bytes
  PublicKey := Bytes
  hash160 bytes := if bytes = samplePubKey then sampleCoinOwner else zeroAddressHash
  createAddress sender _ := sender
  doubleHash := lookupHash (sampleTxHashes ++ sampleNodeHashes)
  sigFromBytes := some
  publicKeyFromBytes := some
  verifySignature signature publicKey hash :=
    publicKey = samplePubKey &&
      [samplePayment, sampleRespend].any fun tx => tx.vin.any fun txIn =>
        txIn.scriptSig = (addOperand [] signature).addOperand publicKey &&
          hash = lookupHash sampleTxHashes (ownedMessage txIn.prevOutPoint tx.vout).marshal

/-- The state of the parent: the genesis contract holds five boxes. -/
def sampleParentState : StateDB where
  isContractAddr addr := addr = sampleGenesis.contractAddr
  getContractUtxo addr := if addr = sampleGenesis.contractAddr then some ⟨500000000, [], 0⟩ else none
  getNonce addr := if addr = sampleGenesis.admin then 7 else 0
  getBalance addr := if addr = sampleGenesis.contractAddr then 500000000 else 0

def sampleCoins : UtxoDB :=
  insert ⟨sampleFundingHash, 0⟩ ⟨10000000, payToPubKeyHashScript sampleCoinOwner, 9⟩
    (insert ⟨sampleFundingHash, 1⟩ ⟨8550000, payToPubKeyHashScript sampleCoinOwner, 9⟩
      (insert (contractOutPoint sampleGenesis.contractAddr) ⟨500000000, [], 0⟩ ∅))

def sampleParent : Block := sampleBlock (sampleHeader 9) [sampleFunding]

def sampleParentHash : HashType :=
  ⟨[208, 163, 210, 69, 165, 67, 199, 26, 94, 18, 148, 1, 198, 56, 169, 170, 129, 95, 119, 94, 135, 184,
    79, 49, 141, 217, 169, 114, 209, 203, 56, 84], by decide⟩

def sampleRoot : HashType := .fill 32 5
def sampleUtxoRoot : HashType := .fill 32 6

def sampleSplitBlock (txFee : UInt64) (txs : List Transaction) : Block where
  header := { sampleHeader 10 with
    prevBlockHash := sampleParentHash
    txsRoot := ((calcTxsHash sampleSplitCrypto (sampleCoinbase 10 317000000 txFee :: txs)).toOption).getD zeroHash
    utxoRoot := sampleUtxoRoot
    rootHash := sampleRoot
    dynastyHash := sampleDynastyHash }
  txs := sampleCoinbase 10 317000000 txFee :: txs
  internalTxs := []
  signature := []
  irreversibleInfo := none

theorem sampleSingle_fits : (indexOf sampleSingleInfo).WeightsFit := by
  intro addr info found
  have record : info = sampleSingleInfo := by
    unfold SplitAddrIndex.findSplitAddr at found
    split at found
    · cases found
    · by_cases same : addr = sampleSplitAddr
      · subst same
        exact Option.some.inj (found.symm.trans (by decide +kernel))
      · rw [indexOf, lookup_insert_ne same] at found
        cases found
  rw [record]
  decide

theorem sampleParentState_within : RecordsWithin sampleParentState sampleCoins := by
  intro addr entry found
  simp only [sampleParentState] at found
  split at found
  · next same =>
    subst same
    cases found
    decide +kernel
  · cases found

/-- The change of a payment is spent in the same block. The split address that is paid leads
to one account, so that the payment is not expanded. -/
theorem sample_respend_creates_none :
    ∃ totalFees after, checkAndApply sampleSplitCrypto samplePow10 sampleParentState sampleParentState
        sampleParentState (indexOf sampleSingleInfo) 9 sampleCoins (sampleSplitBlock 2100000 [samplePayment, sampleRespend]) =
          .ok (totalFees, after) ∧
      coins (after.writeUtxos sampleCoins) + totalFees.toNat ≤
        coins sampleCoins + coinbaseTotal (sampleSplitBlock 2100000 [samplePayment, sampleRespend]) := by
  obtain ⟨⟨totalFees, after⟩, ran⟩ := exists_ok (checkAndApply sampleSplitCrypto samplePow10 sampleParentState
    sampleParentState sampleParentState (indexOf sampleSingleInfo) 9 sampleCoins
    (sampleSplitBlock 2100000 [samplePayment, sampleRespend])) (by decide +kernel)
  exact ⟨totalFees, after, ran, coins_not_created ran (by decide +kernel) sampleSingle_fits sampleParentState_within
    (by decide +kernel)⟩

/-- The change of a payment to a split address is spent in the same block: the coins
grow by the change. -/
theorem respent_change_creates_coins :
    ∃ after, checkAndApply sampleSplitCrypto samplePow10 sampleParentState sampleParentState sampleParentState
        sampleIndex 9 sampleCoins (sampleSplitBlock 2100000 [samplePayment, sampleRespend]) = .ok (2100000, after) ∧
      coins (after.writeUtxos sampleCoins) + 2100000 =
        coins sampleCoins + coinbaseTotal (sampleSplitBlock 2100000 [samplePayment, sampleRespend]) + 8550000 := by
  have ran : (checkAndApply sampleSplitCrypto samplePow10 sampleParentState sampleParentState sampleParentState
      sampleIndex 9 sampleCoins (sampleSplitBlock 2100000 [samplePayment, sampleRespend])).map
        (fun result => (result.1, coins (result.2.writeUtxos sampleCoins))) = .ok (2100000, 844100000) := by
    decide +kernel
  obtain ⟨⟨_, after⟩, applied, result⟩ := exists_ok_map ran
  obtain ⟨rfl, worth⟩ := Prod.mk.inj result
  refine ⟨after, applied, ?_⟩
  rw [worth]
  decide +kernel

/-- Fees are exact: the inputs are there and not spent, neither sum wraps or exceeds the
supply, and the fee is their difference. -/
theorem fees_exact {pow10 : Pow10} {utxoSet : UtxoSet} {tx : Transaction} {fee : UInt64} (coinbase : isCoinBase tx = false)
    (internal : isInternalContract tx = false) (preliminary : validateTransactionPreliminary tx = .ok ())
    (accepted : validateTxInputs pow10 utxoSet tx = .ok fee) :
    (∀ txIn ∈ tx.vin, ∃ utxoWrap, utxoSet.findUtxo txIn.prevOutPoint = some utxoWrap ∧ utxoWrap.isSpent = false) ∧
      ∃ totalIn tokensIn totalOut tokensOut, sumInputs pow10 utxoSet tx.vin 0 ∅ = .ok (totalIn, tokensIn) ∧
        sumOutputs tx.vout 0 ∅ = .ok (totalOut, tokensOut) ∧
        totalIn.toNat = ((tx.vin.map TxIn.prevOutPoint).map utxoSet.valueOf).sum ∧
        totalOut.toNat = outputTotal tx.vout ∧ totalIn ≤ totalSupply ∧ totalOut ≤ totalSupply ∧
        totalIn.toNat = totalOut.toNat + fee.toNat := by
  have inRange := preliminary_total preliminary
  have balance := validateTxInputs_balance accepted (by rw [coinbase, internal]; rfl) inRange
  simp only [validateTxInputs, coinbase, internal, Bool.or_self, Bool.false_eq_true, if_false, bind_ok_iff,
    Prod.exists] at accepted
  obtain ⟨totalIn, tokensIn, summedIn, totalOut, tokensOut, summedOut, -⟩ := accepted
  obtain ⟨inputs, bounded, present⟩ := sumInputs_ok summedIn (by decide)
  have outputs := (sumOutputs_ok summedOut).1
  have supply : totalSupply.toNat < 2 ^ 64 := by decide
  rw [UInt64.toNat_zero, zero_add] at inputs outputs
  rw [Nat.mod_eq_of_lt (inRange.trans_lt supply)] at outputs
  refine ⟨present, totalIn, tokensIn, totalOut, tokensOut, summedIn, summedOut, inputs, outputs, bounded, ?_, ?_⟩
  · rw [UInt64.le_iff_toNat_le, outputs]
    exact inRange
  · rw [inputs, outputs]
    exact balance

theorem sample_fee_exact : ∃ totalIn tokensIn totalOut tokensOut,
      sumInputs samplePow10 sampleTokens [⟨sampleToken, [], 0⟩, ⟨sampleMoved, [], 0⟩] 0 ∅ = .ok (totalIn, tokensIn) ∧
        sumOutputs [sampleTokenOut 1 26] 0 ∅ = .ok (totalOut, tokensOut) ∧ totalIn.toNat = totalOut.toNat + 199 := by
  let tx := sampleTokenTx [sampleToken, sampleMoved] [26]
  have accepted : validateTxInputs samplePow10 sampleTokens tx = .ok 199 := by decide +kernel
  obtain ⟨-, totalIn, tokensIn, totalOut, tokensOut, summedIn, summedOut, -, -, -, -, fee⟩ :=
    fees_exact (by decide +kernel) (by decide +kernel) (by decide +kernel) accepted
  exact ⟨totalIn, tokensIn, totalOut, tokensOut, summedIn, summedOut, fee⟩

/-- The inputs of an internal contract transaction are not looked at. -/
theorem internal_contract_unchecked :
    let tx : Transaction := { sampleTokenTx [] [5] with vin := [⟨⟨zeroHash, maxUint32 - 1⟩, [0, 0], 0⟩] }
    isCoinBase tx = false ∧ validateTransactionPreliminary tx = .ok () ∧
      validateTxInputs samplePow10 new tx = .ok 0 ∧ outputTotal tx.vout = 1 ∧
      ∀ txIn ∈ tx.vin, new.findUtxo txIn.prevOutPoint = none := by
  decide +kernel

end Boxd
