import Boxd.Lib.Wire

/-! The bloom filters of headers and receipts, byte by byte. A filter that comes from a
peer may have any size, so looking something up in it can divide by zero. -/

namespace Boxd
open Lib Option UInt32

/-- The loop of `MurmurHash3WithSeed` over whole words, with the bytes that are left. -/
def murmurWords : Bytes → (hash : UInt32) → UInt32 × Bytes
  | b0 :: b1 :: b2 :: b3 :: rest, hash =>
    let k := ofNat (natLE [b0, b1, b2, b3]) * 0xcc9e2d51
    let k := ((k <<< 15) ||| (k >>> 17)) * 0x1b873593
    let hash := hash ^^^ k
    let hash := (hash <<< 13) ||| (hash >>> 19)
    murmurWords rest ((hash <<< 2) + hash + 0xe6546b64)
  | tail, hash => (hash, tail)

def murmurHash3WithSeed (data : Bytes) (seed : UInt32) : UInt32 :=
  let (hash, tail) := murmurWords data seed
  let k := ofNat (natLE tail) * 0xcc9e2d51
  let k := ((k <<< 15) ||| (k >>> 17)) * 0x1b873593
  let hash := if tail = [] then hash else hash ^^^ k
  let hash := hash ^^^ ofNat data.length
  let hash := (hash ^^^ (hash >>> 16)) * 0x85ebca6b
  let hash := (hash ^^^ (hash >>> 13)) * 0xc2b2ae35
  hash ^^^ (hash >>> 16)

example : murmurHash3WithSeed [104, 101, 108, 108, 111] 1 = 0xbb4abcad := by decide +kernel

structure Filter where
  filter : Bytes
  hashFuncs : UInt32
  tweak : UInt32
  deriving DecidableEq

namespace Filter

def maxFilterHashFuncs : UInt32 := 256
def maxFilterSize : Nat := 32 * 1024 * 1024

def newFilter (m k tweak : UInt32) : Filter where
  filter := List.replicate (min maxFilterSize (((if m = 0 then 1 else m).toNat + 7) / 8)) 0
  hashFuncs := min maxFilterHashFuncs (if k = 0 then 1 else k)
  tweak := tweak

variable (bf : Filter)

def size : UInt32 := ofNat bf.filter.length <<< 3

/-- `hash`: the position of a bit. An empty filter makes it divide by zero. -/
def hash (hashFuncNum : UInt32) (data : Bytes) : Option UInt32 :=
  if bf.size = 0 then none
  else some (murmurHash3WithSeed data (hashFuncNum * 0xfba4c795 + bf.tweak) % bf.size)

def mask (idx : UInt32) : UInt8 := 1 <<< (idx &&& 7).toUInt8

def bitAt (idx : UInt32) : Option Bool :=
  bf.filter[(idx >>> 3).toNat]?.map fun byte => byte &&& mask idx != 0

def funcs : List UInt32 := (List.range bf.hashFuncs.toNat).map ofNat

/-- The loop of `Matches`; it has no result when the code panics. -/
def hasMatchAt (bf : Filter) (data : Bytes) : List UInt32 → Option Bool
  | [] => some true
  | i :: rest => do
    let idx ← bf.hash i data
    let set ← bf.bitAt idx
    if set then hasMatchAt bf data rest else return false

def hasMatch (data : Bytes) : Option Bool := bf.hasMatchAt data bf.funcs

def setBit (idx : UInt32) : Filter :=
  { bf with filter := bf.filter.modify (idx >>> 3).toNat (· ||| mask idx) }

def add (data : Bytes) : Option Filter :=
  bf.funcs.foldlM (fun bf i => (bf.hash i data).map bf.setBit) bf

/-- `Merge`; there is no result when it returns an error. -/
def merge (bf rf : Filter) : Option Filter :=
  if bf.hashFuncs ≠ rf.hashFuncs then none
  else if bf.filter.length ≠ rf.filter.length then none
  else if bf.tweak ≠ rf.tweak then none
  else some { bf with filter := List.zipWith (· ||| ·) bf.filter rf.filter }

def canCopy (f : Filter) : Bool := ((newFilter f.size f.hashFuncs 0).merge f).isSome

def marshal : Bytes :=
  bytesLE 4 bf.hashFuncs.toNat ++ bytesLE 4 bf.tweak.toNat ++ varint bf.filter.length ++ bf.filter

variable {low high bf : Filter} {data : Bytes}

/-- One filter has the shape of another and all of its bits. -/
structure Below (low high : Filter) : Prop where
  hashFuncs : low.hashFuncs = high.hashFuncs
  tweak : low.tweak = high.tweak
  length : low.filter.length = high.filter.length
  bits : ∀ idx, low.bitAt idx = some true → high.bitAt idx = some true

namespace Below

theorem refl (bf : Filter) : Below bf bf := ⟨rfl, rfl, rfl, fun _ set => set⟩

theorem trans {middle : Filter} (first : Below low middle) (second : Below middle high) : Below low high :=
  ⟨first.hashFuncs.trans second.hashFuncs, first.tweak.trans second.tweak, first.length.trans second.length,
    fun idx set => second.bits idx (first.bits idx set)⟩

section
variable (below : Below low high)
include below

theorem hash (i : UInt32) (data : Bytes) : low.hash i data = high.hash i data := by
  unfold Filter.hash size
  rw [below.length, below.tweak]

theorem hasMatchAt {funcs : List UInt32}
    (known : low.hasMatchAt data funcs = some true) : high.hasMatchAt data funcs = some true := by
  induction funcs with
  | nil => rfl
  | cons i rest next =>
    simp only [Filter.hasMatchAt, bind_eq_bind, bind_eq_some_iff] at known ⊢
    obtain ⟨idx, position, set, read, known⟩ := known
    cases set with
    | false => cases known
    | true => exact ⟨idx, below.hash i data ▸ position, true, below.bits idx read, next known⟩

theorem hasMatch (known : low.hasMatch data = some true) : high.hasMatch data = some true := by
  have same : low.funcs = high.funcs := by rw [funcs, funcs, below.hashFuncs]
  rw [Filter.hasMatch, ← same]
  exact below.hasMatchAt known

end

end Below

theorem or_and_distrib (left right mask : UInt8) : (left ||| right) &&& mask = (left &&& mask) ||| (right &&& mask) := by
  apply UInt8.toNat_inj.mp
  simp [Nat.and_or_distrib_right]

theorem mask_ne_zero (idx : UInt32) : mask idx ≠ 0 := by
  have small : (idx &&& 7).toUInt8.toNat < 8 := by
    have bound := Nat.and_le_right (n := idx.toNat % 256) (m := 7)
    simp
    omega
  have each : ∀ shift < 8, (1 : UInt8) <<< UInt8.ofNat shift ≠ 0 := by decide
  have shifted := each _ small
  rwa [UInt8.ofNat_toNat] at shifted

theorem bitAt_modify (bf : Filter) {change : UInt8 → UInt8} (grows : ∀ byte, ∃ more, change byte = byte ||| more)
    (at_ : Nat) (idx : UInt32) (set : bf.bitAt idx = some true) :
    bitAt { bf with filter := bf.filter.modify at_ change } idx = some true := by
  unfold bitAt at set ⊢
  dsimp only
  rw [List.getElem?_modify]
  obtain ⟨byte, read, set⟩ := map_eq_some_iff.mp set
  rw [read]
  simp only [map_eq_map, map_some, some.injEq]
  split
  · obtain ⟨more, changed⟩ := grows byte
    rw [changed, or_and_distrib]
    simp only [bne_iff_ne, ne_eq, UInt8.or_eq_zero_iff, not_and] at set ⊢
    exact fun clear => absurd clear set
  · exact set

theorem below_setBit (bf : Filter) (idx : UInt32) : Below bf (bf.setBit idx) :=
  ⟨rfl, rfl, by simp [setBit], fun other => bitAt_modify bf (fun _ => ⟨_, rfl⟩) _ other⟩

theorem bitAt_setBit {idx : UInt32} (inside : (idx >>> 3).toNat < bf.filter.length) :
    (bf.setBit idx).bitAt idx = some true := by
  unfold bitAt setBit
  dsimp only
  rw [List.getElem?_modify, List.getElem?_eq_getElem inside]
  simp only [map_eq_map, map_some, some.injEq, if_true]
  rw [or_and_distrib, UInt8.and_self]
  simp only [bne_iff_ne, ne_eq, UInt8.or_eq_zero_iff, not_and]
  exact fun _ => mask_ne_zero idx

/-- A filter that the code made itself: its size fits, and it is not empty. -/
structure Sized (bf : Filter) : Prop where
  positive : 0 < bf.filter.length
  bounded : bf.filter.length < 2 ^ 29

theorem Sized.hash (sized : Sized bf) (i : UInt32) (data : Bytes) :
    ∃ idx, bf.hash i data = some idx ∧ (idx >>> 3).toNat < bf.filter.length := by
  have size : bf.size.toNat = 8 * bf.filter.length := by
    have small : bf.filter.length * 2 ^ 3 % 2 ^ 32 = 8 * bf.filter.length := by
      have := sized.bounded
      omega
    simp [Filter.size, UInt32.toNat_shiftLeft, Nat.shiftLeft_eq]
    omega
  have filled : bf.size ≠ 0 := by
    intro empty
    have := sized.positive
    rw [empty, UInt32.toNat_zero] at size
    omega
  refine ⟨_, if_neg filled, ?_⟩
  rw [UInt32.toNat_shiftRight, UInt32.toNat_mod, size]
  have inside := Nat.mod_lt (murmurHash3WithSeed data (i * 0xfba4c795 + bf.tweak)).toNat
    (show 0 < 8 * bf.filter.length by have := sized.positive; omega)
  rw [show (3 : UInt32).toNat % 32 = 3 by decide, Nat.shiftRight_eq_div_pow]
  omega

theorem Sized.hasMatch (sized : Sized bf) (data : Bytes) : ∃ found, bf.hasMatch data = some found := by
  unfold Filter.hasMatch
  generalize bf.funcs = funcs
  induction funcs with
  | nil => exact ⟨true, rfl⟩
  | cons i rest next =>
    obtain ⟨idx, position, inside⟩ := sized.hash i data
    obtain ⟨found, later⟩ := next
    have read : bf.bitAt idx = some (bf.filter[(idx >>> 3).toNat] &&& mask idx != 0) := by
      rw [bitAt, List.getElem?_eq_getElem inside]
      rfl
    simp only [hasMatchAt, position, read, bind_eq_bind, bind_some, later]
    split
    · exact ⟨found, rfl⟩
    · exact ⟨false, rfl⟩

theorem Below.sized (below : Below low high) (sized : Sized low) : Sized high :=
  ⟨below.length ▸ sized.positive, below.length ▸ sized.bounded⟩

private theorem addAt_ok (funcs : List UInt32) (sized : Sized bf) :
    ∃ after, funcs.foldlM (fun bf i => (bf.hash i data).map bf.setBit) bf = some after ∧ Below bf after ∧
      after.hasMatchAt data funcs = some true := by
  induction funcs generalizing bf with
  | nil => exact ⟨bf, rfl, .refl bf, rfl⟩
  | cons i rest next =>
    obtain ⟨idx, position, inside⟩ := sized.hash i data
    have first := below_setBit bf idx
    obtain ⟨after, added, below, known⟩ := next (first.sized sized)
    refine ⟨after, ?_, first.trans below, ?_⟩
    · rw [List.foldlM_cons, position]
      exact added
    · simp only [Filter.hasMatchAt, bind_eq_bind, bind_eq_some_iff]
      refine ⟨idx, ?_, true, below.bits idx (bitAt_setBit inside), known⟩
      rw [← (first.trans below).hash, position]

theorem add_ok (sized : Sized bf) (data : Bytes) :
    ∃ after, bf.add data = some after ∧ Below bf after ∧ after.hasMatch data = some true := by
  obtain ⟨after, added, below, known⟩ := addAt_ok bf.funcs sized
  refine ⟨after, added, below, ?_⟩
  have same : after.funcs = bf.funcs := by rw [funcs, funcs, below.hashFuncs]
  rw [hasMatch, same]
  exact known

theorem merge_ok {rf : Filter} (hashFuncs : bf.hashFuncs = rf.hashFuncs) (tweak : bf.tweak = rf.tweak)
    (length : bf.filter.length = rf.filter.length) :
    ∃ after, bf.merge rf = some after ∧ Below bf after ∧ Below rf after := by
  refine ⟨{ bf with filter := List.zipWith (· ||| ·) bf.filter rf.filter }, ?_, ⟨rfl, rfl, ?_, ?_⟩,
    ⟨hashFuncs.symm, tweak.symm, ?_, ?_⟩⟩
  · simp only [merge, ne_eq, hashFuncs, length, tweak, not_true_eq_false, if_false]
  · simp [length]
  · intro idx set
    unfold bitAt at set ⊢
    obtain ⟨byte, read, set⟩ := map_eq_some_iff.mp set
    obtain ⟨inside, here⟩ := List.getElem?_eq_some_iff.mp read
    have other := List.getElem?_eq_getElem (length ▸ inside)
    simp only [List.getElem?_zipWith, read, other, map_some, some.injEq, or_and_distrib, bne_iff_ne,
      ne_eq, UInt8.or_eq_zero_iff, not_and] at set ⊢
    exact fun clear => absurd clear set
  · simp [length]
  · intro idx set
    unfold bitAt at set ⊢
    obtain ⟨byte, read, set⟩ := map_eq_some_iff.mp set
    obtain ⟨inside, here⟩ := List.getElem?_eq_some_iff.mp read
    have other := List.getElem?_eq_getElem (length.symm ▸ inside)
    simp only [List.getElem?_zipWith, read, other, map_some, some.injEq, or_and_distrib, bne_iff_ne,
      ne_eq, UInt8.or_eq_zero_iff, not_and] at set ⊢
    exact fun _ => set

end Filter
end Boxd
