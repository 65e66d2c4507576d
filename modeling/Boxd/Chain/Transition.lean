import Boxd.Chain.Transfers
import Boxd.Chain.Validate
import Boxd.Receipt

/-! The gas of a contract transaction: it is bought, used by the virtual machine, and
what is left is paid back with a transaction. -/

namespace Boxd
open Lib

def txGas : UInt64 := 2100
def txGasContractCreation : UInt64 := 5300
def txDataZeroGas : UInt64 := 1
def txDataNonZeroGas : UInt64 := 6

def maxUint64 : UInt64 := 0xffffffffffffffff

/-- `IntrinsicGas`; there is no value when the gas does not fit. -/
def intrinsicGas (data : Bytes) (contractCreation : Bool) : Option UInt64 :=
  let gas := if contractCreation then txGasContractCreation else txGas
  if data.isEmpty then some gas
  else
    let nz : UInt64 := .ofNat (data.filter (· ≠ 0)).length
    if (maxUint64 - gas) / txDataNonZeroGas < nz then none
    else
      let gas := gas + nz * txDataNonZeroGas
      let z : UInt64 := .ofNat data.length - nz
      if (maxUint64 - gas) / txDataZeroGas < z then none else some (gas + z * txDataZeroGas)

/-- `types.VMTransaction`. There is no recipient in a deployment. -/
structure VMTransaction where
  sender : AddressHash
  recipient : Option AddressHash
  originTx : HashType
  value : Int
  gasPrice : Nat
  gas : UInt64
  nonce : UInt64
  code : Bytes
  typ : ContractType
  deriving DecidableEq

inductive VmError where
  | insufficientBalance | outOfGas | codeStoreOutOfGas | depth | contractAddressCollision | executionReverted
  | maxCodeSizeExceeded | interpreter
  deriving DecidableEq

structure ContractCreatedItem where
  caller : AddressHash
  address : AddressHash
  value : UInt64
  nonce : UInt64
  deriving DecidableEq

/-- `vm.Context`, without what the machine itself changes. -/
structure EvmContext where
  coinbase : AddressHash
  origin : AddressHash
  blockNumber : UInt32
  time : Int64
  gasPrice : Nat
  nonce : UInt64

/-- What a run of the virtual machine leaves. The address is that of a new contract. -/
structure EvmResult (State : Type) where
  ret : Bytes
  addr : AddressHash
  gas : UInt64
  vmerr : Option VmError
  state : State
  transfers : TransferGroups
  contractCreatedItems : List ContractCreatedItem

/-- The virtual machine, and what it keeps in the state. It leaves no more gas than it
was given. -/
structure Evm (world : World) where
  setNonce : world.State → AddressHash → UInt64 → world.State
  getRefund : world.State → UInt64
  getLogs : world.State → HashType → List Log
  prepare : world.State → (thash bhash : HashType) → Nat → world.State
  unpackErrMsg : Bytes → Option Bytes
  create : EvmContext → world.State → (caller : AddressHash) → (code : Bytes) → (gas : UInt64) → (value : Int) →
    EvmResult world.State
  call : EvmContext → world.State → (caller addr : AddressHash) → (input : Bytes) → (gas : UInt64) → (value : Int) →
    EvmResult world.State
  create_gas : ∀ context state caller code gas value, (create context state caller code gas value).gas ≤ gas
  call_gas : ∀ context state caller addr input gas value, (call context state caller addr input gas value).gas ≤ gas

inductive TransitionError where
  | insufficientBalanceForGas | outOfGas | insufficientBalance
  deriving DecidableEq

/-- What `TransitionDb` returns, and what the machine has left for the caller. -/
structure Transition (State : Type) where
  ret : Bytes
  usedGas : UInt64
  gasRemaining : UInt64
  failed : Bool
  gasRefundTx : Option Transaction
  state : State
  transfers : TransferGroups
  contractCreatedItems : List ContractCreatedItem

def createGasRefundUtxoTx (addrHash : AddressHash) (value nonce : UInt64) : Transaction :=
  { newTx 0 0 0 with
    vin := [⟨⟨zeroHash, maxUint32⟩, makeContractScriptSig nonce, 0⟩]
    vout := [⟨value, payToPubKeyHashScript addrHash⟩] }

namespace Evm

variable {world : World} (evm : Evm world)

def buyGas (state : world.State) (msg : VMTransaction) : Except TransitionError world.State :=
  let mgval := msg.gas.toNat * msg.gasPrice
  if (world.stateDB state).getBalance msg.sender < mgval then .error .insufficientBalanceForGas
  else .ok (world.subBalance state msg.sender mgval)

def useGas (gas amount : UInt64) : Except TransitionError UInt64 :=
  if gas < amount then .error .outOfGas else .ok (gas - amount)

def payIntrinsicGas (msg : VMTransaction) : Except TransitionError UInt64 :=
  match intrinsicGas msg.code (msg.typ = .contractCreation) with
  | none => .error .outOfGas
  | some gas => useGas msg.gas gas

/-- The run of the machine in `TransitionDb`. A deployment returns the address. -/
def runMessage (context : EvmContext) (state : world.State) (msg : VMTransaction) (gas : UInt64) : EvmResult world.State :=
  match msg.typ with
  | .contractCreation =>
    let result := evm.create context state msg.sender msg.code gas msg.value
    { result with ret := result.addr.bytes }
  | .contractCall =>
    let state := evm.setNonce state msg.sender ((world.stateDB state).getNonce msg.sender + 1)
    evm.call context state msg.sender (msg.recipient.getD zeroAddressHash) msg.code gas msg.value

/-- The gas that `refundGas` gives back for what the machine cleared. -/
def extraRefund (state : world.State) (msg : VMTransaction) (gas : UInt64) : UInt64 :=
  let refund := (msg.gas - gas) / 2
  if evm.getRefund state < refund then evm.getRefund state else refund

/-- `refundGas`: the gas, the amount, the transaction that pays it back, and the state. The
transaction has 64 bits of the amount. -/
def refundGas (state : world.State) (msg : VMTransaction) (gas : UInt64) :
    UInt64 × UInt64 × Option Transaction × world.State :=
  let gas := gas + evm.extraRefund state msg gas
  let remaining := gas.toNat * msg.gasPrice
  let paid := UInt64.ofNat remaining
  let nonce := (world.stateDB state).getNonce msg.sender
  (gas, paid, if 0 < paid then some (createGasRefundUtxoTx msg.sender paid nonce) else none,
    world.addBalance state msg.sender remaining)

/-- The text of a failure, if there is one. -/
def errorMessage (result : EvmResult world.State) : Bytes :=
  if result.vmerr.isSome ∧ result.ret ≠ [] then (evm.unpackErrMsg result.ret).getD result.ret else result.ret

def transitionDb (context : EvmContext) (state : world.State) (msg : VMTransaction) :
    Except TransitionError (Transition world.State) := do
  let state ← buyGas state msg
  let gas ← payIntrinsicGas msg
  let result := evm.runMessage context state msg gas
  if result.vmerr = some .insufficientBalance then .error .insufficientBalance
  else
    let (gas, gasRemaining, gasRefundTx, state) := evm.refundGas result.state msg result.gas
    return {
      ret := evm.errorMessage result
      usedGas := msg.gas - gas
      gasRemaining
      failed := result.vmerr.isSome
      gasRefundTx
      state
      transfers := result.transfers
      contractCreatedItems := result.contractCreatedItems }

end Evm

end Boxd
