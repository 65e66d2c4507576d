import Boxd.Chain.Block

/-! The transactions that the node builds itself: the coinbase, the dynasty switch
and the score transaction. All of them call the genesis contract. -/

namespace Boxd
open Lib

def fixedGasPrice : UInt64 := 50
def vmVersion : Int32 := 0
def contractDataType : Int32 := 1

def makeContractScriptPubkey (sender : AddressHash) (contract : Option AddressHash) (gasLimit nonce : UInt64)
    (version : Int32) : Except ScriptError Script :=
  if gasLimit = 0 then .error .invalidContractParams
  else if gasLimit ≥ 0x7fffffffffffffff / fixedGasPrice then .error .invalidContractParams
  else .ok ((Script.addOpCode [] opContract).addOperand sender.bytes
    |>.addOperand (contract.getD zeroAddressHash).bytes |>.addOperand (bytesLE 8 nonce.toNat)
    |>.addOperand (bytesLE 8 gasLimit.toNat) |>.addOperand (bytesLE 4 version.toUInt32.toNat))

def makeContractCallVout (sender contract : AddressHash) (amount gas nonce : UInt64) : Except ScriptError TxOut :=
  (makeContractScriptPubkey sender contract gas nonce vmVersion).map fun vs => ⟨amount, vs⟩

def makeVout (addrHash : AddressHash) (amount : UInt64) : TxOut := ⟨amount, payToPubKeyHashScript addrHash⟩

/-- The parameters that the genesis contract keeps. -/
structure NetParams where
  dynastySwitchThreshold : Nat
  blockReward : Nat
  calcScoreThreshold : Nat
  deriving DecidableEq

/-- The methods of the genesis contract that these transactions call. -/
inductive SystemCall where
  | calcBonus
  | execBonus
  | calcScore (scores : List Int)
  deriving DecidableEq

/-- The genesis contract: its administrator, its address, and the encoder of its interface,
which fails on unknown methods. -/
structure GenesisContract where
  admin : AddressHash
  contractAddr : AddressHash
  pack : SystemCall → Option Bytes

/-- The only input of a transaction that spends no output. -/
def systemInput (index : UInt32) (blockHeight : UInt32) : TxIn :=
  ⟨⟨zeroHash, index⟩, standardCoinbaseSignatureScript blockHeight, maxUint32⟩

/-- `MakeGenesisContractTx`. The gas limit is within bounds, so the output exists. -/
def makeGenesisContractTx (blockHeight txIdx : UInt32) (sender genesisAddr : AddressHash) (nonce : UInt64)
    (code : Bytes) : Transaction :=
  { newTx 1 0 0 with
    vin := [systemInput txIdx blockHeight]
    vout := (makeContractCallVout sender genesisAddr 0 1000000000 nonce).toOption.toList
    data := some ⟨contractDataType, code⟩
    type := .contractTx }

def makeDynastySwitchTx (genesis : GenesisContract) (sender : AddressHash) (nonce : UInt64)
    (blockHeight : UInt32) : Option Transaction :=
  (genesis.pack .execBonus).map (makeGenesisContractTx blockHeight (maxUint32 - 1) sender genesis.contractAddr nonce)

def makeCalcScoreTx (genesis : GenesisContract) (sender : AddressHash) (nonce : UInt64)
    (blockHeight : UInt32) (scores : List Int) : Option Transaction :=
  (genesis.pack (.calcScore scores)).map
    (makeGenesisContractTx blockHeight (maxUint32 - 1) sender genesis.contractAddr nonce)

/-- `MakeCoinBaseContractTx`. There is no output for the fees when they are zero. -/
def makeCoinBaseContractTx (genesis : GenesisContract) (bookKeeper : AddressHash) (reward txFee nonce : UInt64)
    (blockHeight : UInt32) : Option Transaction := do
  let vout ← (makeContractCallVout genesis.admin genesis.contractAddr reward 1000000000 nonce).toOption
  let code ← genesis.pack .calcBonus
  some { newTx 1 0 0 with
    vin := [systemInput maxUint32 blockHeight]
    vout := vout :: if 0 < txFee then [makeVout bookKeeper txFee] else []
    data := some ⟨contractDataType, code⟩
    type := .contractTx }

end Boxd
