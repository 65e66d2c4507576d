import Boxd.Script.Exec

/-! The kinds of output scripts: how each is recognised and what is read from it. What
the readers do on scripts that were not recognised is modelled as well. -/

namespace Boxd
open Lib Outcome UInt64

/-- `types.Address`. The address of a contract script that deploys is nil. -/
inductive Address where
  | pubKeyHash (hash : AddressHash)
  | split (hash : AddressHash)
  | contract (hash : Option AddressHash)
  deriving DecidableEq

def Address.hash160 : Address → Option AddressHash
  | .pubKeyHash hash => some hash
  | .split hash => some hash
  | .contract hash => hash

abbrev TokenID := OutPoint

structure IssueParams where
  name : Bytes
  symbol : Bytes
  totalSupply : UInt64
  decimals : UInt8
  deriving DecidableEq

structure TransferParams where
  tokenID : TokenID
  amount : UInt64
  deriving DecidableEq

/-- The fields of `types.VMTxParams` that a contract script holds. -/
structure VMTxParams where
  sender : AddressHash
  receiver : AddressHash
  gasLimit : UInt64
  nonce : UInt64
  version : Int32
  deriving DecidableEq

inductive ContractType where
  | contractCreation | contractCall
  deriving DecidableEq

inductive PubkType where
  | unknownPubk | payToPubk | tokenTransferPubk | tokenIssuePubk | contractPubk | splitAddrPubk
  | payToPubkCLTV | payToScriptPubk | opReturnPubk
  deriving DecidableEq

namespace Script

def p2PKHScriptLen : Nat := 25
def maxSplitAddrs : Nat := 32
def maxOpReturnSize : Nat := 512

/-- The bytes of `"Name"`, `"Symbol"`, `"Amount"`, `"Decimals"`, `"TokenTxHash"` and
`"TokenTxOutIdx"`. -/
def tokenNameKey : Bytes := [78, 97, 109, 101]
def tokenSymbolKey : Bytes := [83, 121, 109, 98, 111, 108]
def tokenAmountKey : Bytes := [65, 109, 111, 117, 110, 116]
def tokenDecimalsKey : Bytes := [68, 101, 99, 105, 109, 97, 108, 115]
def tokenTxHashKey : Bytes := [84, 111, 107, 101, 110, 84, 120, 72, 97, 115, 104]
def tokenTxOutIdxKey : Bytes := [84, 111, 107, 101, 110, 84, 120, 79, 117, 116, 73, 100, 120]

variable (script : Script)

def isPayToPubKeyHash : Bool :=
  script.length == p2PKHScriptLen && script.getD 0 0 == opDup && script.getD 1 0 == opHash160 &&
    script.getD 2 0 == ripemd160Size && script.getD 23 0 == opEqualVerify && script.getD 24 0 == opCheckSig

def isPayToPubKeyHashCLTVScript : Bool :=
  let l := script.length
  decide (27 ≤ l) && script.getD (l - 1) 0 == opCheckSig && script.getD (l - 2) 0 == opEqualVerify &&
    script.getD (l - 23) 0 == ripemd160Size && script.getD (l - 24) 0 == opHash160 &&
    script.getD (l - 25) 0 == opDup && script.getD (l - 26) 0 == opCheckLockTimeVerify

/-- The loop of `IsSplitAddrScript` over the pairs. It gives up when `(i + 26) / 26` is the
limit, which is one pair early. -/
def splitAddrPairs (script : Script) : (fuel i : Nat) → Bool
  | 0, _ => true
  | fuel + 1, i =>
    if script.length ≤ i then true
    else if script.getD i 0 != ripemd160Size || script.getD (i + 21) 0 != 4 then false
    else if (i + 26) / 26 == maxSplitAddrs then false
    else splitAddrPairs script fuel (i + 26)

def isSplitAddrScript : Bool :=
  if script.length < 49 then false
  else if (script.length - 23) % 26 != 0 || script.getD 0 0 != opReturn || script.getD 1 0 != op0 then false
  else splitAddrPairs script script.length 23

def isContractPubkey : Bool :=
  script.length == 66 && script.getD 0 0 == opContract && script.getD 1 0 == ripemd160Size &&
    script.getD 22 0 == ripemd160Size && script.getD 43 0 == 8 && script.getD 52 0 == 8 && script.getD 61 0 == 4

def isOpReturnScript : Bool :=
  if script.length < 3 then false
  else if script.getD 0 0 != opReturn then false
  else if script.getD 1 0 == op0 then false
  else
    let next := script.parseNextOp 1
    next.err.isNone && decide ((next.operand.getD []).length ≤ maxOpReturnSize) && script.length == next.pc

/-- The parameters of a token script follow a pay-to-pubkey-hash script, each as key,
`OP_DROP`, value, `OP_DROP`. -/
def isTokenScript (keys : List Bytes) (script : Script) : Bool :=
  if script.length < p2PKHScriptLen then false
  else if !isPayToPubKeyHash (script.take p2PKHScriptLen) then false
  else
    let r := parse (script.drop p2PKHScriptLen)
    r.length == 4 * keys.length && keys.zipIdx.all fun (key, i) =>
      r.getD (4 * i) (.opCode 0) == .operand key && r.getD (4 * i + 1) (.opCode 0) == .opCode opDrop &&
        r.getD (4 * i + 3) (.opCode 0) == .opCode opDrop

def isTokenIssue : Script → Bool :=
  isTokenScript [tokenNameKey, tokenSymbolKey, tokenAmountKey, tokenDecimalsKey]

def isTokenTransfer : Script → Bool :=
  isTokenScript [tokenTxHashKey, tokenTxOutIdxKey, tokenAmountKey]

def addParam (key operand : Bytes) : Script :=
  (script.addOperand key).addOpCode opDrop |>.addOperand operand |>.addOpCode opDrop

def issueTokenScript (addrHash : AddressHash) (params : IssueParams) : Script :=
  (addParam (payToPubKeyHashScript addrHash) tokenNameKey params.name).addParam tokenSymbolKey params.symbol
    |>.addParam tokenAmountKey (bytesLE 8 params.totalSupply.toNat) |>.addParam tokenDecimalsKey [params.decimals]

def transferTokenScript (addrHash : AddressHash) (params : TransferParams) : Script :=
  (addParam (payToPubKeyHashScript addrHash) tokenTxHashKey params.tokenID.hash.bytes)
    |>.addParam tokenTxOutIdxKey (bytesLE 4 params.tokenID.index.toNat)
    |>.addParam tokenAmountKey (bytesLE 8 params.amount.toNat)

/-- `PubkType`: the first recogniser that accepts. -/
def pubkType : PubkType :=
  if script.isPayToPubKeyHash then .payToPubk
  else if script.isTokenTransfer then .tokenTransferPubk
  else if script.isTokenIssue then .tokenIssuePubk
  else if script.isContractPubkey then .contractPubk
  else if script.isSplitAddrScript then .splitAddrPubk
  else if script.isPayToPubKeyHashCLTVScript then .payToPubkCLTV
  else if isPayToScriptHash script then .payToScriptPubk
  else if script.isOpReturnScript then .opReturnPubk
  else .unknownPubk

/-- The operand that `getNthOp` returns; it is nil for an opcode. -/
def nthOperand (pcStart n : Nat) : Except ScriptError (Operand × Nat) :=
  (script.getNthOp pcStart n).map fun next => (next.operand.getD [], next.pc)

def addressHashOf (bytes : Bytes) : Except ScriptError AddressHash :=
  if size : bytes.length = 20 then .ok ⟨bytes, size⟩ else .error .invalidPKHash

def parseContractFrom : Except ScriptError AddressHash := do
  let (operand, _) ← script.nthOperand 1 0
  if operand.length ≠ 20 then .error .invalidContractScript else addressHashOf operand

/-- `ParseContractAddr`: the zero address stands for a deployment. -/
def parseContractAddr : Except ScriptError (Option AddressHash) := do
  let (operand, _) ← script.nthOperand 22 0
  if operand.length ≠ 20 then .error .invalidContractScript
  else if operand = zeroAddressHash.bytes then .ok none
  else (addressHashOf operand).map some

def parseContractNonce : Except ScriptError UInt64 := do
  let (operand, _) ← script.nthOperand 43 0
  if operand.length ≠ 8 then .error .nonceSize else .ok (ofNat (natLE operand))

def parseContractGas : Except ScriptError UInt64 := do
  let (operand, _) ← script.nthOperand 52 0
  if operand.length ≠ 8 then .error .uintSize else .ok (ofNat (natLE operand))

def parseContractInfo : Except ScriptError (AddressHash × Option AddressHash × UInt64) := do
  let sender ← script.parseContractFrom
  let contractAddress ← script.parseContractAddr
  let nonce ← script.parseContractNonce
  .ok (sender, contractAddress, nonce)

def readUint64 (pc : Nat) : Except ScriptError (UInt64 × Nat) := do
  let (operand, pc) ← script.nthOperand pc 0
  if operand.length ≠ 8 then .error .uintSize else .ok (ofNat (natLE operand), pc)

def readAddress (pc : Nat) : Except ScriptError (AddressHash × Nat) := do
  let (operand, pc) ← script.nthOperand pc 0
  if size : operand.length = 20 then .ok (⟨operand, size⟩, pc) else .error .invalidContractScript

/-- `readUint32` without its error, which its caller does not look at. After an error of `getNthOp`
the position is zero. -/
def readUint32 (pc : Nat) : UInt32 × Nat :=
  match script.nthOperand pc 0 with
  | .error _ => (0, 0)
  | .ok (operand, pc) => (if operand.length = 4 then .ofNat (natLE operand) else 0, pc)

/-- `ParseContractParams`. A version of another size counts as zero. If there is none, the last
check looks at the first opcode again and refuses the script. -/
def parseContractParams : Except ScriptError VMTxParams := do
  let next := script.parseNextOp 0
  if next.err.isSome ∨ next.opCode ≠ opContract then .error .invalidContractScript else
  let (sender, pc) ← script.readAddress next.pc
  let (receiver, pc) ← script.readAddress pc
  let (nonce, pc) ← script.readUint64 pc
  let (gasLimit, pc) ← script.readUint64 pc
  let (version, pc) := script.readUint32 pc
  if (script.parseNextOp pc).err ≠ some .scriptBound then .error .invalidContractScript
  else .ok ⟨sender, receiver, gasLimit, nonce, version.toInt32⟩

/-- The type that `ParseContractParams` returns beside the parameters. -/
def parseContractType : Except ScriptError ContractType :=
  script.parseContractParams.map fun params =>
    if params.receiver = zeroAddressHash then .contractCreation else .contractCall

def extractAddress : Except ScriptError Address :=
  match script.pubkType with
  | .payToPubk | .tokenTransferPubk | .tokenIssuePubk => do
    let (pubKeyHash, _) ← script.nthOperand 2 0
    (addressHashOf pubKeyHash).map .pubKeyHash
  | .contractPubk => script.parseContractAddr.map .contract
  | .splitAddrPubk => do
    let (pubKeyHash, _) ← script.nthOperand 2 0
    (addressHashOf pubKeyHash).map .split
  | .payToPubkCLTV => do
    let (pubKeyHash, _) ← script.nthOperand (script.length - 23) 0
    (addressHashOf pubKeyHash).map .pubKeyHash
  | .payToScriptPubk => do
    let (pubKeyHash, _) ← script.nthOperand 1 0
    (addressHashOf pubKeyHash).map .pubKeyHash
  | .unknownPubk | .opReturnPubk => .error .addressNotApplicable

def splitAddrOperands (addrs : List AddressHash) (weights : List UInt32) : Script :=
  (addrs.zip weights).foldl (fun script (addr, weight) =>
    (script.addOperand addr.bytes).addOperand (bytesLE 4 weight.toNat)) []

/-- The loop of `ParseSplitAddrScript` from the `i`-th operand on. It stops at the
first operand that is not there. -/
def parseSplitAddrsFrom (script : Script) (pc : Nat) :
    (fuel i : Nat) → List AddressHash → List UInt32 → Except ScriptError (List AddressHash × List UInt32)
  | 0, _, addrs, weights => .ok (addrs, weights)
  | fuel + 1, i, addrs, weights =>
    match script.getNthOp pc i with
    | .error err => if err = .scriptBound then .ok (addrs, weights) else .error .invalidSplitAddrScript
    | .ok next =>
      let operand := next.operand.getD []
      if i % 2 = 0 then
        if size : operand.length = 20 then
          parseSplitAddrsFrom script pc fuel (i + 1) (addrs ++ [⟨operand, size⟩]) weights
        else .error .invalidSplitAddrScript
      else if operand.length ≠ 4 then .error .invalidSplitAddrScript
      else parseSplitAddrsFrom script pc fuel (i + 1) addrs (weights ++ [UInt32.ofNat (natLE operand)])

/-- `ParseSplitAddrScript`. An address without a weight makes it panic. -/
def parseSplitAddrScript (c : Crypto) (script : Script) : Outcome ScriptError (List AddressHash × List UInt32) := do
  let next := script.parseNextOp 0
  if next.err.isSome ∨ next.opCode ≠ opReturn then .fail .invalidSplitAddrScript else
  let next := script.parseNextOp next.pc
  if next.err.isSome ∨ next.opCode ≠ op0 then .fail .invalidSplitAddrScript else
  let next := script.parseNextOp next.pc
  let operandHash := next.operand.getD []
  if next.err.isSome ∨ operandHash.length ≠ 20 then .fail .invalidSplitAddrScript else
  let (addrs, weights) ← lift (script.parseSplitAddrsFrom next.pc (script.length + 1) 0 [] [])
  if maxSplitAddrs < addrs.length then .fail .invalidSplitAddrScript
  else if weights.length < addrs.length then .panicked
  else if (c.hash160 (splitAddrOperands addrs weights)).bytes ≠ operandHash then .fail .invalidSplitAddrScript
  else .ok (addrs, weights)

/-- `binary.LittleEndian` reads the first bytes and panics when there are too few. -/
def littleEndian (width : Nat) (operand : Operand) : Outcome ScriptError Nat :=
  if operand.length < width then .panicked else .ok (natLE (operand.take width))

def getIssueParams : Outcome ScriptError IssueParams := do
  let (name, pc) ← lift (script.nthOperand 0 7)
  let (symbol, pc) ← lift (script.nthOperand pc 3)
  let (operand, pc) ← lift (script.nthOperand pc 3)
  let totalSupply ← littleEndian 8 operand
  let (operand, _) ← lift (script.nthOperand pc 3)
  let decimals ← expect operand.head?
  .ok ⟨name, symbol, ofNat totalSupply, decimals⟩

def getTransferParams : Outcome ScriptError TransferParams := do
  let (operand, pc) ← lift (script.nthOperand 0 7)
  if operand.length < 32 then .fail .txHashSize else
  let hash : HashType := .copy 32 operand
  let (operand, pc) ← lift (script.nthOperand pc 3)
  let index ← littleEndian 4 operand
  let (operand, _) ← lift (script.nthOperand pc 3)
  let amount ← littleEndian 8 operand
  .ok ⟨⟨hash, UInt32.ofNat index⟩, ofNat amount⟩

end Script
end Boxd
