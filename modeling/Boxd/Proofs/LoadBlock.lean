import Boxd.Chain.Utxo
import Boxd.Lib.Fold

/-! Where the entries of a loaded set come from: the database, or an output of the
block that a later transaction of the block spends. -/

namespace Boxd
open Lib List Table Script UtxoSet Option AList

variable {c : Crypto} {block : Block} {db : UtxoDB} {u after : UtxoSet} {needContract : Bool} {i : Nat}
  {outPointsToFetch : List OutPoint} {statedb : StateDB}

def spentBy (tx : Transaction) : List OutPoint := tx.vin.map TxIn.prevOutPoint

namespace UtxoSet

theorem txIndexes_lookup {txs : List Transaction} {hash : HashType} {index : Nat}
    (found : (txIndexes c txs).lookup hash = some index) : ∃ tx, txs[index]? = some tx ∧ txHash c tx = hash := by
  revert found
  apply foldlRecOn (motive := fun indexes : Table HashType Nat =>
    indexes.lookup hash = some index → ∃ tx, txs[index]? = some tx ∧ txHash c tx = hash)
  · intro found
    cases found
  · rintro indexes next ⟨tx, position⟩ member found
    obtain ⟨rfl, rfl⟩ | ⟨-, before⟩ := lookup_insert_cases found
    · exact ⟨tx, mk_mem_zipIdx_iff_getElem?.mp member, rfl⟩
    · exact next before

/-- An output of a transaction of the block, as an entry of the set. -/
inductive OfBlock (c : Crypto) (block : Block) (outPoint : OutPoint) : UtxoWrap → Prop
  | mk (origin : Transaction) (vout : TxOut) (among : origin ∈ block.txs) (hashed : txHash c origin = outPoint.hash)
      (output : origin.vout[outPoint.index.toNat]? = some vout)
      (data : isOpReturnScript vout.scriptPubKey = false)
      (plain : isContractPubkey vout.scriptPubKey = false) :
      OfBlock c block outPoint (.new vout.value vout.scriptPubKey block.header.height)

/-- An entry of the database. -/
def Stored (db : UtxoDB) (outPoint : OutPoint) (utxoWrap : UtxoWrap) : Prop :=
  ∃ entry, db.lookup outPoint = some entry ∧ utxoWrap = entry.wrap

/-- Every entry comes from the database, or is spent by a transaction of the block
and comes from the block. -/
def Sourced (c : Crypto) (block : Block) (db : UtxoDB) (inputs : List OutPoint) (utxoMap : UtxoMap) : Prop :=
  utxoMap.All fun outPoint utxoWrap =>
    Stored db outPoint utxoWrap ∨ outPoint ∈ inputs ∧ OfBlock c block outPoint utxoWrap

theorem Sourced.modified {inputs : List OutPoint} {utxoMap : UtxoMap} (sourced : Sourced c block db inputs utxoMap) :
    utxoMap.All fun _ utxoWrap => utxoWrap.isModified = true := by
  intro outPoint utxoWrap found
  rcases sourced outPoint utxoWrap found with ⟨entry, -, rfl⟩ | ⟨-, ⟨_, _, _, _, _, _, _⟩⟩
  · rfl
  · rfl

theorem fetch_sourced {inputs outPoints : List OutPoint} (sourced : Sourced c block db inputs u.utxoMap) :
    Sourced c block db inputs (u.fetchUtxosFromOutPointSet db outPoints).utxoMap := by
  apply foldlRecOn (motive := fun u : UtxoSet => Sourced c block db inputs u.utxoMap)
  · exact sourced
  · intro u sourced outPoint _
    split
    · next entry found => exact All.insert sourced (.inl ⟨entry, found, rfl⟩)
    · exact sourced

theorem addUtxo_ok {tx : Transaction} {txOutIdx blockHeight : UInt32}
    (ok : u.addUtxo c tx txOutIdx blockHeight = .ok after) :
    ∃ vout, tx.vout[txOutIdx.toNat]? = some vout ∧ isOpReturnScript vout.scriptPubKey = false ∧
      isContractPubkey vout.scriptPubKey = false ∧
      after.utxoMap = u.utxoMap.insert ⟨txHash c tx, txOutIdx⟩ (.new vout.value vout.scriptPubKey blockHeight) := by
  unfold addUtxo at ok
  split at ok
  · cases ok
  · next vout output =>
    dsimp only at ok
    split at ok
    · cases ok
    · next data =>
      split at ok
      · cases ok
      · next plain =>
        split at ok
        · cases ok
        · cases ok
          exact ⟨vout, output, by simpa using data, by simpa using plain, rfl⟩

theorem loadVins_sourced
    {inputs : List OutPoint} (vin : List TxIn) (within : ∀ txIn ∈ vin, txIn.prevOutPoint ∈ inputs)
    (sourced : Sourced c block db inputs u.utxoMap) :
    Sourced c block db inputs (loadVins c block needContract i vin (u, outPointsToFetch)).1.utxoMap := by
  induction vin generalizing u outPointsToFetch with
  | nil => exact sourced
  | cons txIn rest next =>
    have next := fun {u fetch} => @next u fetch fun txIn member => within txIn (mem_cons_of_mem _ member)
    unfold loadVins
    dsimp only
    split
    · exact next sourced
    · split
      · next originTx found =>
        split
        · next after added =>
          apply next
          obtain ⟨index, indexed, located⟩ := bind_eq_some_iff.mp found
          obtain ⟨tx, position, hashed⟩ := txIndexes_lookup (filter_eq_some_iff.mp indexed).1
          obtain rfl : tx = originTx := some.inj (position.symm.trans located)
          obtain ⟨vout, output, data, plain, inserted⟩ := addUtxo_ok added
          have outPoint : (⟨txHash c tx, txIn.prevOutPoint.index⟩ : OutPoint) = txIn.prevOutPoint := by rw [hashed]
          rw [inserted, outPoint]
          exact All.insert sourced (.inr ⟨within txIn mem_cons_self,
            .mk tx vout (mem_of_getElem? located) hashed output data plain⟩)
        · exact next sourced
      · split
        · exact next sourced
        · exact next sourced

private theorem loadTxs_cons {tx : Transaction}
    {rest : List Transaction} {fetched : List OutPoint}
    (ok : loadTxs c block needContract statedb (tx :: rest) i (u, outPointsToFetch) = .ok (after, fetched)) :
    ∃ toFetch, loadTxs c block needContract statedb rest (i + 1)
      ((if 0 < i then (loadVins c block needContract i tx.vin (u, outPointsToFetch)).1 else u), toFetch) =
        .ok (after, fetched) := by
  unfold loadTxs at ok
  dsimp only at ok
  rw [apply_ite Prod.fst] at ok
  split at ok
  · exact ⟨_, ok⟩
  · obtain ⟨toFetch, -, ok⟩ := bind_ok_iff.mp ok
    exact ⟨toFetch, ok⟩

theorem loadTxs_sourced
    {inputs : List OutPoint} (txs : List Transaction) (within : ∀ tx ∈ txs, ∀ txIn ∈ tx.vin, txIn.prevOutPoint ∈ inputs)
    {fetched : List OutPoint}
    (ok : loadTxs c block needContract statedb txs i (u, outPointsToFetch) = .ok (after, fetched))
    (sourced : Sourced c block db inputs u.utxoMap) : Sourced c block db inputs after.utxoMap := by
  induction txs generalizing i u outPointsToFetch with
  | nil =>
    cases ok
    exact sourced
  | cons tx rest next =>
    obtain ⟨toFetch, ok⟩ := loadTxs_cons ok
    apply next (fun tx member => within tx (mem_cons_of_mem _ member)) ok
    split
    · exact loadVins_sourced tx.vin (within tx mem_cons_self) sourced
    · exact sourced

/-- The outpoints that the transactions after the coinbase spend. -/
def inputsAfterFirst (txs : List Transaction) : List OutPoint := txs.tail.flatMap spentBy

theorem loadBlockUtxos_sourced (ok : new.loadBlockUtxos c block needContract db statedb = .ok u) :
    Sourced c block db (inputsAfterFirst block.txs) u.utxoMap := by
  have empty : Sourced c block db (inputsAfterFirst block.txs) (∅ : UtxoMap) := All.empty _
  simp only [loadBlockUtxos, bind_ok_iff, Prod.exists] at ok
  obtain ⟨loaded, toFetch, ok, done⟩ := ok
  cases done
  apply fetch_sourced
  cases listed : block.txs with
  | nil =>
    rw [listed] at ok
    cases ok
    exact listed ▸ empty
  | cons first rest =>
    rw [listed] at ok
    obtain ⟨_, ok⟩ := loadTxs_cons ok
    rw [listed] at empty
    refine loadTxs_sourced rest ?_ ok empty
    intro tx member txIn among
    exact mem_flatMap.mpr ⟨tx, member, mem_map_of_mem among⟩

theorem fetch_found {outPoints : List OutPoint} {outPoint : OutPoint} {entry : UtxoEntry}
    (member : outPoint ∈ outPoints) (stored : db.lookup outPoint = some entry) (u : UtxoSet) :
    (u.fetchUtxosFromOutPointSet db outPoints).findUtxo outPoint = some entry.wrap := by
  refine foldl_establishes (fun _ => True) (fun u : UtxoSet => u.findUtxo outPoint = some entry.wrap) member
    (fun _ _ _ _ => trivial) ?_ ?_ trivial
  · intro other _ u found
    by_cases same : outPoint = other
    · subst same
      rw [stored]
      exact lookup_insert _
    · cases db.lookup other with
      | none => exact found
      | some _ => exact (lookup_insert_ne same).trans found
  · intro u _
    rw [stored]
    exact lookup_insert _

theorem loadBlockAllUtxos_sourced (c : Crypto) (block : Block) (needContract : Bool) (db : UtxoDB) (statedb : StateDB) :
    Sourced c block db (inputsAfterFirst block.txs)
      (new.loadBlockAllUtxos c block needContract db statedb).utxoMap := by
  apply fetch_sourced
  split
  · next loaded => exact loadBlockUtxos_sourced loaded
  · exact All.empty _

theorem loadBlockAllUtxos_found
    {outPoint : OutPoint} {entry : UtxoEntry}
    (member : outPoint ∈ (block.txs ++ block.internalTxs).flatMap (voutsToFetch c needContract))
    (stored : db.lookup outPoint = some entry) :
    (new.loadBlockAllUtxos c block needContract db statedb).findUtxo outPoint = some entry.wrap :=
  fetch_found (mem_dedup.mpr member) stored _

end UtxoSet
end Boxd
