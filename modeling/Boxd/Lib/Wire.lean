import Boxd.Lib.Bytes

/-! The protocol buffer wire format: numbers in groups of seven bits, and fields
that are numbers or byte strings under a field number. No two lists of fields
have the same encoding. -/

namespace Boxd.Lib
open List Function

def varintLoop : (fuel value : Nat) → Bytes
  | 0, value => [UInt8.ofNat value]
  | fuel + 1, value =>
    if value < 128 then [UInt8.ofNat value]
    else UInt8.ofNat (value % 128 + 128) :: varintLoop fuel (value / 128)

def varint (value : Nat) : Bytes := varintLoop value value

private theorem byte_inj {left right : Nat} (leftByte : left < 256) (rightByte : right < 256)
    (same : UInt8.ofNat left = UInt8.ofNat right) : left = right := by
  have toNat := congrArg UInt8.toNat same
  simpa [Nat.mod_eq_of_lt leftByte, Nat.mod_eq_of_lt rightByte] using toNat

private theorem varintLoop_eq {fuel value : Nat} (bounded : value ≤ fuel) :
    varintLoop fuel value = if value < 128 then [UInt8.ofNat value]
      else UInt8.ofNat (value % 128 + 128) :: varintLoop (fuel - 1) (value / 128) := by
  cases fuel with
  | zero =>
    obtain rfl : value = 0 := by omega
    rfl
  | succ fuel => rfl

private theorem varintLoop_append_inj (fuel : Nat) : ∀ {other left right : Nat} {tail rest : Bytes},
    left ≤ fuel → right ≤ other → varintLoop fuel left ++ tail = varintLoop other right ++ rest →
    left = right ∧ tail = rest := by
  -- The high bit of the first byte says whether a group follows, so both loops end together.
  induction fuel using Nat.strongRecOn with
  | ind fuel ih =>
    intro other left right tail rest leftBound rightBound same
    rw [varintLoop_eq leftBound, varintLoop_eq rightBound] at same
    split at same <;> split at same
    all_goals obtain ⟨first, others⟩ := cons.inj same
    · exact ⟨byte_inj (by omega) (by omega) first, others⟩
    · have := byte_inj (by omega) (by omega) first
      omega
    · have := byte_inj (by omega) (by omega) first
      omega
    · have low := byte_inj (by omega) (by omega) first
      obtain ⟨high, equal⟩ := ih (fuel - 1) (by omega) (by omega) (by omega) others
      exact ⟨by omega, equal⟩

theorem varint_append_inj {left right : Nat} {tail rest : Bytes}
    (same : varint left ++ tail = varint right ++ rest) : left = right ∧ tail = rest :=
  varintLoop_append_inj left le_rfl le_rfl same

inductive WireField where
  | number (field value : Nat)
  | bytes (field : Nat) (content : Bytes)
  deriving DecidableEq

namespace WireField

def field : WireField → Nat
  | number field _ => field
  | bytes field _ => field

/-- The key holds the field number and, in its low three bits, the wire type. -/
def encode : WireField → Bytes
  | number field value => varint (8 * field) ++ varint value
  | bytes field content => varint (8 * field + 2) ++ varint content.length ++ content

theorem encode_append_inj {left right : WireField} {tail rest : Bytes}
    (same : left.encode ++ tail = right.encode ++ rest) : left = right ∧ tail = rest := by
  cases left <;> cases right
  all_goals
    simp only [encode, append_assoc] at same
    obtain ⟨key, same⟩ := varint_append_inj same
  · obtain ⟨rfl, rfl⟩ := varint_append_inj same
    simp
    omega
  · omega
  · omega
  · obtain ⟨length, same⟩ := varint_append_inj same
    obtain ⟨rfl, rfl⟩ := append_inj same length
    simp
    omega

theorem encode_ne_nil (wire : WireField) : wire.encode ≠ [] := by
  have start (value : Nat) : varint value ≠ [] := by
    rw [varint, varintLoop_eq le_rfl]
    split <;> simp
  cases wire <;> simp [encode, start]

/-- Numbers and byte strings that hold their default are not sent. -/
def ofNumber (field value : Nat) : List WireField := if value = 0 then [] else [number field value]

def ofBytes (field : Nat) (content : Bytes) : List WireField :=
  if content = [] then [] else [bytes field content]

theorem ofNumber_inj {field left right : Nat} (same : ofNumber field left = ofNumber field right) :
    left = right := by
  unfold ofNumber at same
  split at same <;> split at same <;> simp_all

theorem ofBytes_inj {field : Nat} {left right : Bytes} (same : ofBytes field left = ofBytes field right) :
    left = right := by
  unfold ofBytes at same
  split at same <;> split at same <;> simp_all

/-- Embedded messages are sent even when they are empty. -/
def ofMessages (field : Nat) (contents : List Bytes) : List WireField := contents.map (bytes field)

theorem ofMessages_inj {field : Nat} {left right : List Bytes}
    (same : ofMessages field left = ofMessages field right) : left = right := by
  apply map_injective_iff.mpr _ same
  intro first second equal
  simpa using equal

def only (field : Nat) (wires : List WireField) : List WireField := wires.filter fun wire => wire.field == field

@[simp] theorem only_append (field : Nat) (left right : List WireField) :
    only field (left ++ right) = only field left ++ only field right := filter_append ..

@[simp] theorem only_ofNumber (field other value : Nat) :
    only field (ofNumber other value) = if other = field then ofNumber other value else [] := by
  unfold only ofNumber
  split <;> simp [WireField.field, filter_cons]

@[simp] theorem only_ofBytes (field other : Nat) (content : Bytes) :
    only field (ofBytes other content) = if other = field then ofBytes other content else [] := by
  unfold only ofBytes
  split <;> simp [WireField.field, filter_cons]

@[simp] theorem only_ofMessages (field other : Nat) (contents : List Bytes) :
    only field (ofMessages other contents) = if other = field then ofMessages other contents else [] := by
  unfold only ofMessages
  split
  · next same => simp [filter_map, comp_def, WireField.field, same]
  · next differ => simp [filter_map, comp_def, WireField.field, differ]

end WireField

def encodeWire (wires : List WireField) : Bytes := wires.flatMap WireField.encode

theorem encodeWire_injective : Injective encodeWire := by
  intro left
  induction left with
  | nil =>
    intro right same
    cases right with
    | nil => rfl
    | cons wire rest => simp [encodeWire, WireField.encode_ne_nil] at same
  | cons first tail ih =>
    intro right same
    cases right with
    | nil => simp [encodeWire, WireField.encode_ne_nil] at same
    | cons wire rest =>
      simp only [encodeWire, flatMap_cons] at same
      obtain ⟨rfl, others⟩ := WireField.encode_append_inj same
      rw [ih others]

section Decode

/-- Read a number, and what follows it. -/
def unvarint : Bytes → Option (Nat × Bytes)
  | [] => none
  | byte :: rest =>
    if byte.toNat < 128 then some (byte.toNat, rest)
    else (unvarint rest).map fun (high, rest) => (byte.toNat - 128 + 128 * high, rest)

private theorem unvarint_varintLoop {fuel value : Nat} (bounded : value ≤ fuel) (rest : Bytes) :
    unvarint (varintLoop fuel value ++ rest) = some (value, rest) := by
  induction fuel using Nat.strongRecOn generalizing value with
  | ind fuel next =>
    rw [varintLoop_eq bounded]
    split
    · next small =>
      have byte : (UInt8.ofNat value).toNat = value := by
        rw [UInt8.toNat_ofNat']
        omega
      simp [unvarint, byte, small]
    · next large =>
      have byte : (UInt8.ofNat (value % 128 + 128)).toNat = value % 128 + 128 := by
        rw [UInt8.toNat_ofNat']
        omega
      have high := next (fuel - 1) (by omega) (show value / 128 ≤ fuel - 1 by omega)
      simp only [cons_append, unvarint, byte, high]
      rw [if_neg (by omega)]
      simp only [Option.map_some, Option.some.injEq, Prod.mk.injEq, and_true]
      omega

theorem unvarint_varint (value : Nat) (rest : Bytes) : unvarint (varint value ++ rest) = some (value, rest) :=
  unvarint_varintLoop le_rfl rest

def WireField.decode (bytes : Bytes) : Option (WireField × Bytes) := do
  let (key, rest) ← unvarint bytes
  let (value, rest) ← unvarint rest
  match key % 8 with
  | 0 => some (.number (key / 8) value, rest)
  | 2 => if value ≤ rest.length then some (.bytes (key / 8) (rest.take value), rest.drop value) else none
  | _ => none

theorem WireField.decode_encode (wire : WireField) (rest : Bytes) : decode (wire.encode ++ rest) = some (wire, rest) := by
  cases wire with
  | number field value =>
    simp only [encode, decode, append_assoc, unvarint_varint, Option.bind_eq_bind, Option.bind_some]
    simp
  | bytes field content =>
    simp only [encode, decode, append_assoc, unvarint_varint, Option.bind_eq_bind, Option.bind_some]
    have type : (8 * field + 2) % 8 = 2 := by omega
    have number : (8 * field + 2) / 8 = field := by omega
    simp [type, number]

def decodeLoop : (fuel : Nat) → Bytes → Option (List WireField)
  | _, [] => some []
  | 0, _ :: _ => none
  | fuel + 1, byte :: bytes => do
    let (wire, rest) ← WireField.decode (byte :: bytes)
    let wires ← decodeLoop fuel rest
    some (wire :: wires)

def decodeWire (bytes : Bytes) : Option (List WireField) := decodeLoop bytes.length bytes

private theorem decodeLoop_encodeWire (wires : List WireField) {fuel : Nat} (enough : (encodeWire wires).length ≤ fuel) :
    decodeLoop fuel (encodeWire wires) = some wires := by
  induction wires generalizing fuel with
  | nil => cases fuel <;> rfl
  | cons wire wires next =>
    have split : encodeWire (wire :: wires) = wire.encode ++ encodeWire wires := rfl
    have positive := length_pos_iff.mpr wire.encode_ne_nil
    rw [split, length_append] at enough
    obtain ⟨fuel, rfl⟩ : ∃ more, fuel = more + 1 := ⟨fuel - 1, by omega⟩
    obtain ⟨first, others, cons⟩ := exists_cons_of_ne_nil
      (show encodeWire (wire :: wires) ≠ [] by simp [encodeWire, WireField.encode_ne_nil])
    rw [cons, decodeLoop, ← cons, split, WireField.decode_encode]
    simp only [Option.bind_eq_bind, Option.bind_some]
    rw [next (by omega)]
    rfl

theorem decodeWire_encodeWire (wires : List WireField) : decodeWire (encodeWire wires) = some wires :=
  decodeLoop_encodeWire wires le_rfl

end Decode

end Boxd.Lib
