import Boxd.Lib.Bytes
import Mathlib.Data.UInt

/-! Transactions, outpoints and hash functions. The message of a transaction is kept apart
from the type that the node caches on it, because only the message is hashed and sent. -/

namespace Boxd
open Lib List

structure FixedBytes (size : Nat) where
  bytes : Bytes
  length_eq : bytes.length = size
  deriving DecidableEq

namespace FixedBytes

@[ext] theorem ext {size : Nat} {left right : FixedBytes size} (same : left.bytes = right.bytes) :
    left = right := by
  cases left
  cases right
  simpa using same

def zero (size : Nat) : FixedBytes size := ⟨replicate size 0, by simp⟩

def fill (size : Nat) (byte : UInt8) : FixedBytes size := ⟨replicate size byte, length_replicate⟩

/-- `copy` into a fresh array: too long a source is cut, too short a one padded
with zeros. -/
def copy (size : Nat) (source : Bytes) : FixedBytes size :=
  ⟨(source ++ replicate size 0).take size, by simp⟩

theorem copy_bytes {size : Nat} (value : FixedBytes size) : copy size value.bytes = value := by
  apply ext
  simp [copy, value.length_eq]

/-- `SetBytes` of a fresh array: aligned to the right, the front of too long a source is cut. -/
def setBytes (size : Nat) (source : Bytes) : FixedBytes size :=
  ⟨replicate (size - source.length) 0 ++ source.drop (source.length - size), by
    simp only [length_append, length_replicate, length_drop]
    omega⟩

theorem setBytes_bytes {size : Nat} (value : FixedBytes size) : setBytes size value.bytes = value := by
  apply ext
  simp [setBytes, value.length_eq]

end FixedBytes

abbrev HashType := FixedBytes 32

abbrev AddressHash := FixedBytes 20

def zeroHash : HashType := .zero 32
def zeroAddressHash : AddressHash := .zero 20

def maxUint32 : UInt32 := 0xffffffff

structure OutPoint where
  hash : HashType
  index : UInt32
  deriving DecidableEq

structure TxIn where
  prevOutPoint : OutPoint
  scriptSig : Bytes
  sequence : UInt32
  deriving DecidableEq

structure TxOut where
  value : UInt64
  scriptPubKey : Bytes
  deriving DecidableEq

structure Data where
  type : Int32
  content : Bytes
  deriving DecidableEq

/-- What `ToProtoMessage` sends and `CalcTxHash` hashes. Messages are canonical: the hashes of
their outpoints have 32 bytes, where `FromProtoMessage` would cut or fill others. -/
structure TxMessage where
  version : Int32
  vin : List TxIn
  vout : List TxOut
  data : Option Data
  magic : UInt32
  lockTime : Int64
  deriving DecidableEq

inductive TxType where
  | unknownTx | payToPubkTx | contractTx | tokenIssueTx | tokenTransferTx | splitTx | internalTx | errorTx
  deriving DecidableEq

structure Transaction extends TxMessage where
  type : TxType
  deriving DecidableEq

def newTx (version : Int32) (magic : UInt32) (lockTime : Int64) : Transaction :=
  { version, vin := [], vout := [], data := none, magic, lockTime, type := .unknownTx }

def normalizeAddressHash (addr : AddressHash) : HashType :=
  ⟨replicate 12 0 ++ addr.bytes, by simp [addr.length_eq]⟩

def OutPoint.isContractType (op : OutPoint) : Bool :=
  op.index == 0 && op.hash.bytes.take 12 == replicate 12 0 && op.hash.bytes.drop 12 != replicate 8 0

abbrev PeerID := String

/-- The cryptographic functions. Signatures are DER encoded and public keys are
compressed; the parsers reject everything else. -/
structure Crypto where
  Signature : Type
  PublicKey : Type
  hash160 : Bytes → AddressHash
  createAddress : AddressHash → UInt64 → AddressHash
  doubleHash : Bytes → HashType
  sigFromBytes : Bytes → Option Signature
  publicKeyFromBytes : Bytes → Option PublicKey
  verifySignature : Signature → PublicKey → HashType → Bool

end Boxd
