import Boxd.Proofs.Records

/-! What taking the contract balances of a block back comes to. A contract that was paid by
an output or paid out gets the entry of the state before, if its balance less what it got
plus what it gave is its balance before. -/

namespace Boxd
open Lib UtxoSet ChainState Option AList Table UInt64 Function Outcome List

theorem contractAddr_contractOutPoint (addr : AddressHash) : (contractOutPoint addr).contractAddr = addr := by
  obtain ⟨bytes, size⟩ := addr
  simp [contractOutPoint, normalizeAddressHash, OutPoint.contractAddr]

theorem contractOutPoint_injective : Injective contractOutPoint := by
  intro left right same
  rw [← contractAddr_contractOutPoint left, same, contractAddr_contractOutPoint]

def startUtxo (statedb prevStateDB : StateDB) (height : UInt32) (addr : AddressHash) : UtxoWrap :=
  (rollbackUtxo statedb prevStateDB height addr).toOption.getD .empty

theorem rollbackUtxo_eq (statedb prevStateDB : StateDB) (height : UInt32) (addr : AddressHash) :
    rollbackUtxo statedb prevStateDB height addr = .ok (startUtxo statedb prevStateDB height addr) ∧
      (startUtxo statedb prevStateDB height addr).value = .ofNat (statedb.getBalance addr) := by
  have fee : ¬ transferGasLimit = 0 := by decide
  have limit : ¬ transferGasLimit ≥ 0x7fffffffffffffff / fixedGasPrice := by decide
  simp only [startUtxo, rollbackUtxo, makeContractScriptPubkey, fee, limit, if_false]
  exact ⟨rfl, rfl⟩

section Changes

variable {statedb prevStateDB : StateDB} {height : UInt32} {bAdd bSub : Table AddressHash UInt64}

/-- The contract is among those whose balances changed, as far as the block shows it. -/
def Touched (bAdd bSub : Table AddressHash UInt64) (addr : AddressHash) : Prop :=
  (bAdd.lookup addr).isSome = true ∨ (bSub.lookup addr).isSome = true

def takenBack (statedb : StateDB) (bAdd bSub : Table AddressHash UInt64) (addr : AddressHash) : UInt64 :=
  .ofNat (statedb.getBalance addr) - bAdd.amount addr + bSub.amount addr

def lessAdded (statedb prevStateDB : StateDB) (height : UInt32) (addr : AddressHash) (value : UInt64)
    (_ : Option UtxoWrap) : UtxoWrap :=
  let utxo := startUtxo statedb prevStateDB height addr
  utxo.setValue (utxo.value - value)

def plusTaken (statedb prevStateDB : StateDB) (height : UInt32) (addr : AddressHash) (value : UInt64)
    (before : Option UtxoWrap) : UtxoWrap :=
  let utxo := before.getD (startUtxo statedb prevStateDB height addr)
  utxo.setValue (utxo.value + value)

/-- The entries with the changes taken back. -/
def changedUtxos (statedb prevStateDB : StateDB) (height : UInt32) (bAdd bSub : Table AddressHash UInt64) : UtxoMap :=
  update contractOutPoint (plusTaken statedb prevStateDB height) bSub.entries
    (update contractOutPoint (lessAdded statedb prevStateDB height) bAdd.entries ∅)

theorem startUtxo_value (statedb prevStateDB : StateDB) (height : UInt32) (addr : AddressHash) :
    (startUtxo statedb prevStateDB height addr).value = .ofNat (statedb.getBalance addr) :=
  (rollbackUtxo_eq statedb prevStateDB height addr).2

/-- A contract that the block touches has its balance with the changes taken back. -/
theorem changedUtxos_touched {addr : AddressHash} (touched : Touched bAdd bSub addr) :
    ∃ utxoWrap, (changedUtxos statedb prevStateDB height bAdd bSub).lookup (contractOutPoint addr) = some utxoWrap ∧
      utxoWrap.value = takenBack statedb bAdd bSub addr := by
  have start := startUtxo_value statedb prevStateDB height addr
  have subtracted : bSub.entries.dlookup addr = bSub.lookup addr := rfl
  have credited : bAdd.entries.dlookup addr = bAdd.lookup addr := rfl
  unfold changedUtxos
  rw [lookup_update _ contractOutPoint_injective bSub.nodupKeys,
    lookup_update _ contractOutPoint_injective bAdd.nodupKeys, subtracted, credited, lookup_empty,
    or_none]
  unfold takenBack amount
  cases added : bAdd.lookup addr with
  | some more =>
    cases taken : bSub.lookup addr with
    | some less =>
      refine ⟨_, rfl, ?_⟩
      simp only [plusTaken, lessAdded, map_some, getD_some, UtxoWrap.setValue]
      rw [start]
    | none =>
      refine ⟨_, rfl, ?_⟩
      simp only [lessAdded, getD_some, getD_none, UtxoWrap.setValue, add_zero]
      rw [start]
  | none =>
    cases taken : bSub.lookup addr with
    | some less =>
      refine ⟨_, rfl, ?_⟩
      simp only [plusTaken, map_none, getD_some, getD_none, UtxoWrap.setValue, sub_zero]
      rw [start]
    | none =>
      rcases touched with present | present
      · rw [added] at present
        cases present
      · rw [taken] at present
        cases present

theorem changedUtxos_only {outPoint : OutPoint} {utxoWrap : UtxoWrap}
    (found : (changedUtxos statedb prevStateDB height bAdd bSub).lookup outPoint = some utxoWrap) :
    ∃ addr, Touched bAdd bSub addr ∧ outPoint = contractOutPoint addr := by
  by_contra none
  have apart : ∀ addr, Touched bAdd bSub addr → contractOutPoint addr ≠ outPoint :=
    fun addr touched same => none ⟨addr, touched, same.symm⟩
  unfold changedUtxos at found
  rw [lookup_update_of_ne, lookup_update_of_ne] at found
  · cases found
  · exact fun entry member => apart _ (.inl (lookup_isSome.mpr (mem_keys_of_mem member)))
  · exact fun entry member => apart _ (.inr (lookup_isSome.mpr (mem_keys_of_mem member)))

end Changes

section Rollback

variable {env : NodeEnv} {st : ChainState} {block prevBlock : Block} {state prevState : env.world.State}
  {bAdd bSub : Table AddressHash UInt64}

/-- What is looked up before the entries are made. -/
structure RollbackOf (env : NodeEnv) (st : ChainState) (block prevBlock : Block) (state prevState : env.world.State)
    (bAdd bSub : Table AddressHash UInt64) : Prop where
  new : env.world.new block.header.rootHash block.header.utxoRoot = some state
  parent : st.blocks.lookup block.header.prevBlockHash = some prevBlock
  prev : env.world.new prevBlock.header.rootHash prevBlock.header.utxoRoot = some prevState
  changes : calcContractAddrBalanceChanges env.crypto (env.world.stateDB state) block = .ok (bAdd, bSub)

section
variable (rollback : RollbackOf env st block prevBlock state prevState bAdd bSub)
include rollback

theorem makeRollbackContractUtxos_eq : st.makeRollbackContractUtxos env block =
      (changedUtxos (env.world.stateDB state) (env.world.stateDB prevState) block.header.height bAdd bSub).entries.foldlM
        (fun (um : UtxoMap) entry => do
          let utxo ← previousUtxo (env.world.stateDB prevState) entry.1 entry.2
          return um.insert entry.1 utxo) ∅ := by
  obtain ⟨new, parent, prev, changes⟩ := rollback
  have start := fun addr => (rollbackUtxo_eq (env.world.stateDB state) (env.world.stateDB prevState)
    block.header.height addr).1
  simp only [makeRollbackContractUtxos, new, parent, prev, expect, orFail, changes, ok_bind]
  rw [foldlM_eq (g := fun um entry => um.insert (contractOutPoint entry.1)
      (lessAdded (env.world.stateDB state) (env.world.stateDB prevState) block.header.height entry.1 entry.2
        (um.lookup (contractOutPoint entry.1)))), ok_bind]
  · rw [foldlM_eq (g := fun um entry => um.insert (contractOutPoint entry.1)
        (plusTaken (env.world.stateDB state) (env.world.stateDB prevState) block.header.height entry.1 entry.2
          (um.lookup (contractOutPoint entry.1)))), ok_bind]
    · rfl
    · intro entry _ um
      cases found : um.lookup (contractOutPoint entry.1) with
      | some utxo => rfl
      | none =>
        simp only [start, ok_bind]
        rfl
  · intro entry _ um
    rfl

def recorded (prevStateDB : StateDB) (outPoint : OutPoint) (utxoWrap : UtxoWrap) : UtxoWrap :=
  ((prevStateDB.getContractUtxo outPoint.contractAddr).map UtxoEntry.wrap).getD utxoWrap.spend

/-- The balances before match, so the entries of the state before come back. -/
theorem makeRollbackContractUtxos_ok (balanced : ∀ addr, Touched bAdd bSub addr →
      ofNat ((env.world.stateDB prevState).getBalance addr) = takenBack (env.world.stateDB state) bAdd bSub addr) :
    ∃ um, st.makeRollbackContractUtxos env block = .ok um ∧ ∀ outPoint, um.lookup outPoint =
      ((changedUtxos (env.world.stateDB state) (env.world.stateDB prevState) block.header.height bAdd bSub).lookup
        outPoint).map (recorded (env.world.stateDB prevState) outPoint) := by
  rw [makeRollbackContractUtxos_eq rollback, foldlM_eq (g := fun um entry =>
    um.insert entry.1 (recorded (env.world.stateDB prevState) entry.1 entry.2))]
  · refine ⟨_, rfl, fun outPoint => ?_⟩
    have updated := lookup_update (fun outPoint utxoWrap (_ : Option UtxoWrap) =>
      recorded (env.world.stateDB prevState) outPoint utxoWrap) injective_id
      (changedUtxos (env.world.stateDB state) (env.world.stateDB prevState) block.header.height bAdd bSub).nodupKeys ∅
      outPoint
    rw [id, lookup_empty, or_none] at updated
    exact updated
  · intro entry member um
    have found := mem_lookup_iff.mpr member
    obtain ⟨addr, touched, place⟩ := changedUtxos_only found
    obtain ⟨utxoWrap, present, value⟩ := changedUtxos_touched touched
    rw [place, present] at found
    obtain rfl : utxoWrap = entry.2 := some.inj found
    have same : ofNat ((env.world.stateDB prevState).getBalance entry.1.contractAddr) = entry.2.value := by
      rw [place, contractAddr_contractOutPoint, balanced addr touched, value]
    rw [previousUtxo, if_neg (not_not.mpr same)]
    rfl

end

end Rollback
end Boxd
