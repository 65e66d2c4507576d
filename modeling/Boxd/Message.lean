import Boxd.Lib.Wire
import Boxd.Types

/-! The bytes a transaction is sent as. They determine its message. -/

namespace Boxd
open Lib WireField Function List

def OutPoint.marshal (op : OutPoint) : Bytes :=
  encodeWire (ofBytes 1 op.hash.bytes ++ ofNumber 2 op.index.toNat)

def TxIn.marshal (txIn : TxIn) : Bytes :=
  encodeWire (ofMessages 1 [txIn.prevOutPoint.marshal] ++ ofBytes 2 txIn.scriptSig ++
    ofNumber 3 txIn.sequence.toNat)

def TxOut.marshal (txOut : TxOut) : Bytes :=
  encodeWire (ofNumber 1 txOut.value.toNat ++ ofBytes 2 txOut.scriptPubKey)

/-- A negative number is sent as its two's complement in 64 bits. -/
def Data.marshal (data : Data) : Bytes :=
  encodeWire (ofNumber 1 data.type.toInt64.toUInt64.toNat ++ ofBytes 2 data.content)

def TxMessage.marshal (tx : TxMessage) : Bytes :=
  encodeWire (ofNumber 1 tx.version.toInt64.toUInt64.toNat ++ ofMessages 2 (tx.vin.map TxIn.marshal) ++
    ofMessages 3 (tx.vout.map TxOut.marshal) ++ ofMessages 4 (tx.data.toList.map Data.marshal) ++
    ofNumber 5 tx.magic.toNat ++ ofNumber 6 tx.lockTime.toUInt64.toNat)

def Crypto.calcTxHash (c : Crypto) (tx : TxMessage) : HashType := c.doubleHash tx.marshal

private theorem signed_inj {left right : Int32}
    (same : left.toInt64.toUInt64.toNat = right.toInt64.toUInt64.toNat) : left = right := by
  have words := UInt64.toNat_inj.mp same
  have extended : left.toInt64 = right.toInt64 := by
    simpa using congrArg UInt64.toInt64 words
  have values := congrArg Int64.toInt extended
  exact Int32.toInt_inj.mp (by simpa using values)

theorem OutPoint.marshal_injective : Injective OutPoint.marshal := by
  intro left right same
  have wires := encodeWire_injective same
  have hash := ofBytes_inj (by simpa using congrArg (only 1) wires)
  have index := ofNumber_inj (by simpa using congrArg (only 2) wires)
  cases left
  cases right
  rw [OutPoint.mk.injEq]
  exact ⟨FixedBytes.ext hash, UInt32.toNat_inj.mp index⟩

theorem TxIn.marshal_injective : Injective TxIn.marshal := by
  intro left right same
  have wires := encodeWire_injective same
  have outPoint := ofMessages_inj (by simpa using congrArg (only 1) wires)
  have script := ofBytes_inj (by simpa using congrArg (only 2) wires)
  have sequence := ofNumber_inj (by simpa using congrArg (only 3) wires)
  cases left
  cases right
  rw [TxIn.mk.injEq]
  exact ⟨OutPoint.marshal_injective (cons.inj outPoint).1, script, UInt32.toNat_inj.mp sequence⟩

theorem TxOut.marshal_injective : Injective TxOut.marshal := by
  intro left right same
  have wires := encodeWire_injective same
  have value := ofNumber_inj (by simpa using congrArg (only 1) wires)
  have script := ofBytes_inj (by simpa using congrArg (only 2) wires)
  cases left
  cases right
  rw [TxOut.mk.injEq]
  exact ⟨UInt64.toNat_inj.mp value, script⟩

theorem Data.marshal_injective : Injective Data.marshal := by
  intro left right same
  have wires := encodeWire_injective same
  have type := ofNumber_inj (by simpa using congrArg (only 1) wires)
  have content := ofBytes_inj (by simpa using congrArg (only 2) wires)
  cases left
  cases right
  rw [Data.mk.injEq]
  exact ⟨signed_inj type, content⟩

theorem TxMessage.marshal_injective : Injective TxMessage.marshal := by
  intro left right same
  have wires := encodeWire_injective same
  have version := ofNumber_inj (by simpa using congrArg (only 1) wires)
  have vin := ofMessages_inj (by simpa using congrArg (only 2) wires)
  have vout := ofMessages_inj (by simpa using congrArg (only 3) wires)
  have data := ofMessages_inj (by simpa using congrArg (only 4) wires)
  have magic := ofNumber_inj (by simpa using congrArg (only 5) wires)
  have lockTime := ofNumber_inj (by simpa using congrArg (only 6) wires)
  cases left
  cases right
  rw [TxMessage.mk.injEq]
  refine ⟨signed_inj version, map_injective_iff.mpr TxIn.marshal_injective vin,
    map_injective_iff.mpr TxOut.marshal_injective vout, ?_, UInt32.toNat_inj.mp magic, ?_⟩
  · have entries := map_injective_iff.mpr Data.marshal_injective data
    simpa using congrArg head? entries
  · have words := UInt64.toNat_inj.mp lockTime
    simpa using congrArg UInt64.toInt64 words

end Boxd
