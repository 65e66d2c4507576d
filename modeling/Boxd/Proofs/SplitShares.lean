import Boxd.Chain.Connect
import Boxd.Proofs.Coins

/-! Payments to split addresses, for every index that a chain can have. The shares add up to
what is divided. What can go wrong is an address whose weights are all zero, or one that
leads to one account only. -/

namespace Boxd
open Lib UtxoSet List Outcome Nat Script Table AList Bpos

variable {c : Crypto}

theorem drop_flatMap_const {α β : Type*} {f : α → List β} {size : Nat} (each : ∀ value, (f value).length = size)
    (values : List α) (count : Nat) : (values.flatMap f).drop (size * count) = (values.drop count).flatMap f := by
  induction count generalizing values with
  | zero => simp
  | succ count next =>
    cases values with
    | nil => simp
    | cons value rest =>
      rw [mul_succ, add_comm, ← drop_drop, flatMap_cons, ← each value, drop_left, each value, drop_succ_cons, next]

namespace SplitAddrInfo

theorem unmarshall_marshall (info : SplitAddrInfo) : unmarshall info.marshall = some info := by
  obtain ⟨shares⟩ := info
  have each : ∀ share : AddressHash × UInt32, (share.1.bytes ++ bytesLE 4 share.2.toNat).length = 24 := by
    intro share
    simp [share.1.length_eq]
  have length : (marshall ⟨shares⟩).length = 24 * shares.length := by
    rw [marshall, length_flatMap, map_congr_left fun share _ => each share, map_const']
    simp [mul_comm]
  unfold unmarshall
  rw [length, if_neg (by simp), Nat.mul_div_cancel_left _ (by decide)]
  congr 2
  apply ext_getElem
  · simp
  · intro i _ inside
    rw [getElem_map, getElem_range]
    have here : (marshall ⟨shares⟩).drop (24 * i) =
        shares[i].1.bytes ++ (bytesLE 4 shares[i].2.toNat ++ (shares.drop (i + 1)).flatMap fun share =>
          share.1.bytes ++ bytesLE 4 share.2.toNat) := by
      rw [marshall, drop_flatMap_const each, drop_eq_getElem_cons inside, flatMap_cons, append_assoc]
    have rest : (marshall ⟨shares⟩).drop (24 * i + 20) =
        bytesLE 4 shares[i].2.toNat ++ (shares.drop (i + 1)).flatMap fun share =>
          share.1.bytes ++ bytesLE 4 share.2.toNat := by
      rw [← drop_drop, here, drop_left' shares[i].1.length_eq]
    rw [here, rest, take_left' shares[i].1.length_eq, take_left' (bytesLE_length 4 _), FixedBytes.copy_bytes,
      natLE_bytesLE, mod_eq_of_lt (show _ < 256 ^ 4 from shares[i].2.toNat_lt), UInt32.ofNat_toNat]

end SplitAddrInfo

theorem parseSplitAddrScript_few {script : Script} {addrs : List AddressHash} {weights : List UInt32}
    (parsed : script.parseSplitAddrScript c = .ok (addrs, weights)) : addrs.length ≤ maxSplitAddrs := by
  obtain ⟨-, parsed⟩ := ite_fail_ok_iff.mp parsed
  obtain ⟨-, parsed⟩ := ite_fail_ok_iff.mp parsed
  obtain ⟨-, parsed⟩ := ite_fail_ok_iff.mp parsed
  obtain ⟨⟨found, others⟩, -, parsed⟩ := bind_ok_iff.mp parsed
  obtain ⟨few, parsed⟩ := ite_fail_ok_iff.mp parsed
  obtain ⟨-, parsed⟩ := ite_panicked_ok_iff.mp parsed
  obtain ⟨-, parsed⟩ := ite_fail_ok_iff.mp parsed
  cases parsed
  exact Nat.le_of_not_lt few

theorem createdSplitAddrs_few {block : Block} {created : List (AddressHash × SplitAddrInfo)}
    (ok : createdSplitAddrs c block = .ok created) : ∀ entry ∈ created, entry.2.shares.length ≤ maxSplitAddrs := by
  simp only [createdSplitAddrs, bind_ok_iff] at ok
  obtain ⟨each, ok, done⟩ := ok
  cases done
  intro entry member
  obtain ⟨result, among, same⟩ := mem_filterMap.mp member
  obtain ⟨output, -, made⟩ := exists_of_mem_right (mapM_ok ok) among
  cases same
  unfold createdSplitAddr at made
  dsimp only at made
  split at made
  · cases made
  · split at made
    · cases made
    · cases made
    · next addrs weights parsed =>
      cases made
      rw [length_zip]
      exact (min_le_left _ _).trans (parseSplitAddrScript_few parsed)

namespace SplitAddrIndex

/-- The indexes that a chain can have: a record is written with the block that creates
the address, and deleted with it. -/
inductive Kept (c : Crypto) : SplitAddrIndex → Prop
  | start (filter : Bloom AddressHash) : Kept c ⟨filter, ∅⟩
  | written {st after : ChainState} {block : Block} (before : Kept c st.splitAddrs)
      (ok : st.writeSplitAddrIndex c block = .ok after) : Kept c after.splitAddrs
  | deleted {st after : ChainState} {block : Block} (before : Kept c st.splitAddrs)
      (ok : st.deleteSplitAddrIndex c block = .ok after) : Kept c after.splitAddrs

theorem Kept.records {index : SplitAddrIndex} (kept : Kept c index) :
    index.records.All fun _ data => ∃ info : SplitAddrInfo, info.shares.length ≤ maxSplitAddrs ∧
      data = info.marshall := by
  induction kept with
  | start filter => exact All.empty _
  | written before ok next =>
    obtain ⟨created, made, done⟩ := bind_ok_iff.mp ok
    cases done
    refine foldlRecOn (motive := All _) created _ next ?_
    intro records all entry member
    exact all.insert ⟨entry.2, createdSplitAddrs_few made entry member, rfl⟩
  | deleted before ok next =>
    obtain ⟨created, -, done⟩ := bind_ok_iff.mp ok
    cases done
    exact foldlRecOn (motive := All _) created _ next fun records all entry _ => all.erase entry.1

theorem sum_weights_le (shares : List (AddressHash × UInt32)) :
    (shares.map fun share => share.2.toNat).sum ≤ shares.length * 2 ^ 32 := by
  induction shares with
  | nil => rfl
  | cons share rest next =>
    have small := share.2.toNat_lt
    rw [map_cons, sum_cons, length_cons]
    omega

/-- At most 32 weights never overflow. -/
theorem Kept.weightsFit {index : SplitAddrIndex} (kept : Kept c index) : index.WeightsFit := by
  intro addr info found
  unfold findSplitAddr at found
  split at found
  · cases found
  · obtain ⟨data, record, read⟩ := Option.bind_eq_some_iff.mp found
    obtain ⟨written, few, rfl⟩ := kept.records addr data record
    rw [SplitAddrInfo.unmarshall_marshall] at read
    cases read
    have total := sum_weights_le info.shares
    unfold maxSplitAddrs at few
    omega

/-- The record of the address that an output pays. -/
def paid (index : SplitAddrIndex) (txOut : TxOut) : Option SplitAddrInfo :=
  (pubKeyHashOf txOut.scriptPubKey).bind index.findSplitAddr

inductive Divisible (index : SplitAddrIndex) : AddressHash → Prop
  | account {addr : AddressHash} (plain : index.findSplitAddr addr = none) : Divisible index addr
  | split {addr : AddressHash} {info : SplitAddrInfo} (found : index.findSplitAddr addr = some info)
      (weighted : ∃ share ∈ info.shares, share.2 ≠ 0) (each : ∀ share ∈ info.shares, Divisible index share.1) :
      Divisible index addr

inductive Single (index : SplitAddrIndex) : AddressHash → Prop
  | account {addr : AddressHash} (plain : index.findSplitAddr addr = none) : Single index addr
  | split {addr : AddressHash} {info : SplitAddrInfo} {share : AddressHash × UInt32}
      (found : index.findSplitAddr addr = some info) (one : info.shares = [share]) (next : Single index share.1) :
      Single index addr

/-- Every record has a target, and no address leads back to itself. -/
structure Acyclic (index : SplitAddrIndex) (rank : AddressHash → Nat) : Prop where
  filled : ∀ addr info, index.findSplitAddr addr = some info → info.shares ≠ []
  falls : ∀ addr info, index.findSplitAddr addr = some info → ∀ share ∈ info.shares, rank share.1 < rank addr

/-- What splitting an output has to give: the value in parts, to accounts only. -/
structure Divided (index : SplitAddrIndex) (txOut : TxOut) (outs : List TxOut) : Prop where
  total : outputTotal outs = txOut.value.toNat
  bounded : ∀ out ∈ outs, out.value ≤ txOut.value
  accounts : ∀ out ∈ outs, index.paid out = none

end SplitAddrIndex

open SplitAddrIndex

section Split

variable {index : SplitAddrIndex} {rank : AddressHash → Nat} {depth : Nat} {txOut : TxOut} {outs : List TxOut}

variable {info : SplitAddrInfo}

theorem totalWeight_ne_zero (fits : (info.shares.map fun share => share.2.toNat).sum < 2 ^ 64) :
    info.totalWeight ≠ 0 ↔ ∃ share ∈ info.shares, share.2 ≠ 0 := by
  have positive : ∀ shares : List (AddressHash × UInt32),
      (shares.map fun share => share.2.toNat).sum ≠ 0 ↔ ∃ share ∈ shares, share.2 ≠ 0 := by
    intro shares
    induction shares with
    | nil => simp
    | cons share rest next =>
      have zero : share.2 = 0 ↔ share.2.toNat = 0 := UInt32.toNat_inj.symm
      rw [map_cons, sum_cons, exists_mem_cons_iff, ← next, ne_eq, ne_eq, zero]
      omega
  rw [← positive, ← totalWeight_toNat fits, ne_eq, ← UInt64.toNat_inj, UInt64.toNat_zero]

theorem splitTxOutput_plain (plain : index.paid txOut = none) : splitTxOutput index (depth + 1) txOut = .ok [txOut] := by
  rw [splitTxOutput, show (pubKeyHashOf txOut.scriptPubKey).bind index.findSplitAddr = none from plain]

theorem splitTxOutput_split (found : index.paid txOut = some info) (filled : info.shares ≠ []) :
    splitTxOutput index (depth + 1) txOut = if info.totalWeight = 0 then .panicked else
      (flatten ·) <$> (splitShares txOut.value info.totalWeight info.shares 0).mapM (splitTxOutput index depth) := by
  rw [splitTxOutput, show (pubKeyHashOf txOut.scriptPubKey).bind index.findSplitAddr = some info from found]
  exact if_neg filled

variable {addr : AddressHash}

theorem paid_of_address (pays : pubKeyHashOf txOut.scriptPubKey = some addr) :
    index.paid txOut = index.findSplitAddr addr := by
  rw [paid, pays]
  rfl

theorem paid_unaddressed (plain : pubKeyHashOf txOut.scriptPubKey = none) : index.paid txOut = none := by
  rw [paid, plain]
  rfl

theorem divided_plain (plain : index.paid txOut = none) : index.Divided txOut [txOut] := by
  refine ⟨?_, ?_, ?_⟩
  · simp [outputTotal]
  · simp
  · simpa using plain

theorem share_address {value totalWeight paid : UInt64} {shares : List (AddressHash × UInt32)} {out : TxOut}
    (member : out ∈ splitShares value totalWeight shares paid) :
    ∃ share ∈ shares, pubKeyHashOf out.scriptPubKey = some share.1 := by
  obtain ⟨share, among, pays⟩ := splitShares_script member
  exact ⟨share, among, pays ▸ pubKeyHashOf_payToPubKeyHash share.1⟩

variable {expanded : List (List TxOut)}

theorem outputTotal_flatten {vouts : List TxOut}
    (each : Forall₂ (fun vout outs => outputTotal outs = vout.value.toNat) vouts expanded) :
    outputTotal expanded.flatten = outputTotal vouts := by
  induction each with
  | nil => rfl
  | cons first _ next =>
    rw [flatten_cons, outputTotal_append, next, first]
    simp [outputTotal]

theorem value_le_outputTotal {out : TxOut} (member : out ∈ outs) : out.value.toNat ≤ outputTotal outs := by
  obtain ⟨before, after, rfl⟩ := append_of_mem member
  rw [outputTotal_append]
  simp only [outputTotal, map_cons, sum_cons]
  omega

/-- With weights everywhere, an output is divided once the stack is as deep as the
addresses are nested. -/
theorem splitTxOutput_divides (fit : index.WeightsFit) (acyclic : index.Acyclic rank)
    (divisible : index.Divisible addr) (deep : rank addr < depth)
    (pays : pubKeyHashOf txOut.scriptPubKey = some addr) :
    ∃ outs, splitTxOutput index depth txOut = .ok outs ∧ index.Divided txOut outs := by
  induction divisible generalizing depth txOut with
  | account plain =>
    obtain ⟨depth, rfl⟩ := exists_eq_succ_of_ne_zero (ne_zero_of_lt deep)
    have plain := (paid_of_address pays).trans plain
    exact ⟨[txOut], splitTxOutput_plain plain, divided_plain plain⟩
  | @split addr info found weighted _ next =>
    obtain ⟨depth, rfl⟩ := exists_eq_succ_of_ne_zero (ne_zero_of_lt deep)
    have filled := acyclic.filled addr info found
    have fits := fit addr info found
    have nonzero := (totalWeight_ne_zero fits).mpr weighted
    have record : index.paid txOut = some info := (paid_of_address pays).trans found
    have shares : ∀ child ∈ splitShares txOut.value info.totalWeight info.shares 0,
        ∃ outs, splitTxOutput index depth child = .ok outs ∧ index.Divided child outs := by
      intro child member
      obtain ⟨share, among, paysShare⟩ := share_address member
      have falls := acyclic.falls addr info found share among
      exact next share among (by omega) paysShare
    obtain ⟨expanded, ok, each⟩ := exists_mapM shares
    have total : outputTotal expanded.flatten = txOut.value.toNat := by
      rw [outputTotal_flatten (each.imp fun _ _ divided => divided.total)]
      exact splitShares_whole fits filled nonzero txOut.value
    refine ⟨expanded.flatten, ?_, total, ?_, ?_⟩
    · rw [splitTxOutput_split record filled, if_neg nonzero, ok]
      rfl
    · intro out member
      rw [UInt64.le_iff_toNat_le, ← total]
      exact value_le_outputTotal member
    · intro out member
      obtain ⟨outs, among, member⟩ := mem_flatten.mp member
      obtain ⟨child, -, divided⟩ := exists_of_mem_right each among
      exact divided.accounts out member

/-- A weight is needed everywhere: without one the division panics. -/
theorem divisible_of_ok (fit : index.WeightsFit) (filled : ∀ addr info, index.findSplitAddr addr = some info →
    info.shares ≠ []) (pays : pubKeyHashOf txOut.scriptPubKey = some addr)
    (ok : splitTxOutput index depth txOut = .ok outs) : index.Divisible addr := by
  induction depth generalizing addr txOut outs with
  | zero => cases ok
  | succ depth deeper =>
    cases found : index.findSplitAddr addr with
    | none => exact .account found
    | some info =>
      rw [splitTxOutput_split ((paid_of_address pays).trans found) (filled addr info found)] at ok
      obtain ⟨nonzero, ok⟩ := ite_panicked_ok_iff.mp ok
      obtain ⟨expanded, each, -⟩ := exists_ok_map ok
      refine .split found ((totalWeight_ne_zero (fit addr info found)).mp nonzero) ?_
      intro share among
      have listed : payToPubKeyHashScript share.1 ∈
          (splitShares txOut.value info.totalWeight info.shares 0).map TxOut.scriptPubKey := by
        rw [splitShares_scripts]
        exact mem_map.mpr ⟨share, among, rfl⟩
      obtain ⟨child, member, script⟩ := mem_map.mp listed
      obtain ⟨outs, -, split⟩ := exists_of_mem_left (mapM_ok each) member
      exact deeper (script ▸ pubKeyHashOf_payToPubKeyHash share.1) split

theorem single_split (found : index.findSplitAddr addr = some info) :
    index.Single addr ↔ ∃ share, info.shares = [share] ∧ index.Single share.1 := by
  constructor
  · intro single
    cases single with
    | account plain =>
      rw [found] at plain
      cases plain
    | split record one next =>
      rw [found] at record
      cases record
      exact ⟨_, one, next⟩
  · rintro ⟨share, one, next⟩
    exact .split found one next

theorem flatten_length_eq_one {lists : List (List α)} (filled : ∀ list ∈ lists, list ≠ []) :
    lists.flatten.length = 1 ↔ ∃ list, lists = [list] ∧ list.length = 1 := by
  constructor
  · intro one
    cases lists with
    | nil => cases one
    | cons first rest =>
      have start := length_pos_iff.mpr (filled first mem_cons_self)
      cases rest with
      | nil => exact ⟨first, rfl, by simpa using one⟩
      | cons second rest =>
        have following := length_pos_iff.mpr (filled second (.tail _ mem_cons_self))
        rw [flatten_cons, flatten_cons, length_append, length_append] at one
        omega
  · rintro ⟨list, rfl, one⟩
    simpa using one

section
variable (filled : ∀ addr info, index.findSplitAddr addr = some info → info.shares ≠ [])
include filled

/-- An output stays one output if and only if its address leads to one account. -/
theorem length_eq_one_iff (pays : pubKeyHashOf txOut.scriptPubKey = some addr)
    (ok : splitTxOutput index depth txOut = .ok outs) : outs ≠ [] ∧ (outs.length = 1 ↔ index.Single addr) := by
  induction depth generalizing addr txOut outs with
  | zero => cases ok
  | succ depth deeper =>
    cases found : index.findSplitAddr addr with
    | none =>
      rw [splitTxOutput_plain ((paid_of_address pays).trans found)] at ok
      cases ok
      exact ⟨cons_ne_nil _ _, fun _ => .account found, fun _ => rfl⟩
    | some info =>
      have filledHere := filled addr info found
      rw [splitTxOutput_split ((paid_of_address pays).trans found) filledHere] at ok
      obtain ⟨nonzero, ok⟩ := ite_panicked_ok_iff.mp ok
      obtain ⟨expanded, each, rfl⟩ := exists_ok_map ok
      have each := mapM_ok each
      have scripts := splitShares_scripts txOut.value info.totalWeight 0 info.shares
      have lengths := each.length_eq
      rw [← length_map TxOut.scriptPubKey, scripts, length_map] at lengths
      have nonempty : ∀ list ∈ expanded, list ≠ [] := by
        intro list member
        obtain ⟨child, among, split⟩ := exists_of_mem_right each member
        obtain ⟨share, -, paysShare⟩ := share_address among
        exact (deeper paysShare split).1
      constructor
      · cases expanded with
        | nil => exact absurd (length_eq_zero_iff.mp lengths) filledHere
        | cons first rest =>
          exact append_ne_nil_of_left_ne_nil (nonempty first mem_cons_self) _
      · rw [flatten_length_eq_one nonempty, single_split found]
        constructor
        · rintro ⟨list, rfl, one⟩
          obtain ⟨share, alone⟩ := length_eq_one_iff.mp lengths
          refine ⟨share, alone, ?_⟩
          obtain ⟨child, among, split⟩ := exists_of_mem_right each mem_cons_self
          obtain ⟨target, member, paysShare⟩ := share_address among
          rw [alone] at member
          cases mem_singleton.mp member
          exact (deeper paysShare split).2.mp one
        · rintro ⟨share, alone, single⟩
          rw [alone] at lengths
          obtain ⟨list, rfl⟩ := length_eq_one_iff.mp lengths.symm
          refine ⟨list, rfl, ?_⟩
          obtain ⟨child, among, split⟩ := exists_of_mem_right each mem_cons_self
          obtain ⟨target, member, paysShare⟩ := share_address among
          rw [alone] at member
          cases mem_singleton.mp member
          exact (deeper paysShare split).2.mpr single

omit filled in
theorem splitTxOutput_unaddressed (depth : Nat) (plain : pubKeyHashOf txOut.scriptPubKey = none) :
    splitTxOutput index (depth + 1) txOut = .ok [txOut] :=
  splitTxOutput_plain (paid_unaddressed plain)

theorem several_iff (ok : splitTxOutput index depth txOut = .ok outs) :
    1 < outs.length ↔ ∃ addr, pubKeyHashOf txOut.scriptPubKey = some addr ∧ ¬index.Single addr := by
  cases pays : pubKeyHashOf txOut.scriptPubKey with
  | none =>
    cases depth with
    | zero => cases ok
    | succ depth =>
      rw [splitTxOutput_unaddressed depth pays] at ok
      cases ok
      simp
  | some addr =>
    obtain ⟨nonempty, one⟩ := length_eq_one_iff filled pays ok
    have positive := length_pos_iff.mpr nonempty
    simp only [Option.some.injEq, exists_eq_left', ← one]
    omega

omit filled in
theorem exists_deep (rank : AddressHash → Nat) (vouts : List TxOut) :
    ∃ depth, ∀ vout ∈ vouts, ∀ addr, pubKeyHashOf vout.scriptPubKey = some addr → rank addr < depth := by
  induction vouts with
  | nil => exact ⟨0, fun _ member => absurd member not_mem_nil⟩
  | cons vout rest next =>
    obtain ⟨depth, deep⟩ := next
    refine ⟨depth + ((pubKeyHashOf vout.scriptPubKey).map rank).getD 0 + 1, ?_⟩
    intro other member addr pays
    rcases mem_cons.mp member with rfl | member
    · rw [pays, Option.map_some, Option.getD_some]
      omega
    · have := deep other member addr pays
      omega

omit filled in
theorem splitTxOutputs_eq {tx : Transaction} (ok : tx.vout.mapM (splitTxOutput index depth) = .ok expanded) :
    splitTxOutputs index depth tx = if expanded.any fun txOuts => 1 < txOuts.length then
      .ok ({ tx with vout := expanded.flatten, type := .splitTx }, true) else .ok (tx, false) := by
  rw [splitTxOutputs, ok]
  rfl

theorem exists_several_iff
    {vouts : List TxOut} (ok : vouts.mapM (splitTxOutput index depth) = .ok expanded) :
    (expanded.any fun txOuts => 1 < txOuts.length) = true ↔
      ∃ vout ∈ vouts, ∃ addr, pubKeyHashOf vout.scriptPubKey = some addr ∧ ¬index.Single addr := by
  have each := mapM_ok ok
  rw [any_eq_true]
  constructor
  · rintro ⟨outs, member, several⟩
    obtain ⟨vout, among, split⟩ := exists_of_mem_right each member
    exact ⟨vout, among, (several_iff filled split).mp (of_decide_eq_true several)⟩
  · rintro ⟨vout, among, leads⟩
    obtain ⟨outs, member, split⟩ := exists_of_mem_left each among
    exact ⟨outs, member, decide_eq_true ((several_iff filled split).mpr leads)⟩

end

/-- Once the stack is deep enough, the outputs of a transaction are divided into parts for
accounts, and replaced if a split address is paid: exactly when every record on the way has
a weight, and a paid split address comes with an output that leads to several accounts. -/
theorem split_conserves_iff {c : Crypto} (kept : index.Kept c) (acyclic : index.Acyclic rank) (tx : Transaction) :
    (∃ depth, ∀ deeper, depth ≤ deeper → ∃ expanded copy isSplitTx,
      tx.vout.mapM (splitTxOutput index deeper) = .ok expanded ∧ Forall₂ index.Divided tx.vout expanded ∧
      splitTxOutputs index deeper tx = .ok (copy, isSplitTx) ∧
      ((∃ vout ∈ tx.vout, index.paid vout ≠ none) → isSplitTx = true ∧ copy.vout = expanded.flatten)) ↔
    (∀ vout ∈ tx.vout, ∀ addr, pubKeyHashOf vout.scriptPubKey = some addr → index.Divisible addr) ∧
      ((∃ vout ∈ tx.vout, index.paid vout ≠ none) →
        ∃ vout ∈ tx.vout, ∃ addr, pubKeyHashOf vout.scriptPubKey = some addr ∧ ¬index.Single addr) := by
  constructor
  · rintro ⟨depth, deep⟩
    obtain ⟨expanded, copy, isSplitTx, ok, -, done, replaced⟩ := deep depth (le_refl depth)
    constructor
    · intro vout member addr pays
      obtain ⟨outs, -, split⟩ := exists_of_mem_left (mapM_ok ok) member
      exact divisible_of_ok kept.weightsFit acyclic.filled pays split
    · intro paysSplit
      rw [← exists_several_iff acyclic.filled ok]
      obtain ⟨rfl, -⟩ := replaced paysSplit
      rw [splitTxOutputs_eq ok] at done
      split at done
      · next several => exact several
      · cases done
  · rintro ⟨divisible, leads⟩
    obtain ⟨depth, deep⟩ := exists_deep rank tx.vout
    refine ⟨depth + 1, fun deeper enough => ?_⟩
    have divided : ∀ vout ∈ tx.vout,
        ∃ outs, splitTxOutput index deeper vout = .ok outs ∧ index.Divided vout outs := by
      intro vout member
      cases pays : pubKeyHashOf vout.scriptPubKey with
      | none =>
        obtain ⟨deeper, rfl⟩ := exists_eq_succ_of_ne_zero (ne_zero_of_lt enough)
        exact ⟨[vout], splitTxOutput_unaddressed deeper pays, divided_plain (paid_unaddressed pays)⟩
      | some addr =>
        have below := deep vout member addr pays
        exact splitTxOutput_divides kept.weightsFit acyclic (divisible vout member addr pays) (by omega) pays
    obtain ⟨expanded, ok, each⟩ := exists_mapM divided
    rw [splitTxOutputs_eq ok]
    by_cases several : (expanded.any fun txOuts => 1 < txOuts.length) = true
    · exact ⟨expanded, _, true, ok, each, if_pos several, fun _ => ⟨rfl, rfl⟩⟩
    · refine ⟨expanded, tx, false, ok, each, if_neg several, fun paysSplit => ?_⟩
      exact absurd ((exists_several_iff acyclic.filled ok).mpr (leads paysSplit)) several

end Split

def splitAddrScript (c : Crypto) (addrs : List AddressHash) (weights : List UInt32) : Script :=
  let operands := splitAddrOperands addrs weights
  addOperand [opReturn, op0] (c.hash160 operands).bytes ++ operands

def splitCrypto : Crypto := { sampleCrypto with hash160 _ := sampleSplitAddr }

def splitCreation (info : SplitAddrInfo) : Block :=
  sampleBlock (sampleHeader 10)
    [{ newTx 1 0 0 with
      vout := [⟨0, splitAddrScript splitCrypto (info.shares.map (·.1)) (info.shares.map (·.2))⟩] }]

/-- The records before the first split address. -/
def unsplitRecords : ChainState where
  utxos := ∅
  addrUtxos := ∅
  txIndex := ∅
  splitTxs := ∅
  txs := ∅
  splitAddrs := ⟨⟨fun addr => addr.bytes.map UInt8.toNat, []⟩, ∅⟩
  blockHashes := ∅
  blocks := ∅
  tail := sampleParent

def createdIndex (info : SplitAddrInfo) : SplitAddrIndex :=
  ⟨unsplitRecords.splitAddrs.splitAddrFilter.add sampleSplitAddr,
    (∅ : Table AddressHash Bytes).insert sampleSplitAddr info.marshall⟩

variable {info : SplitAddrInfo}

theorem createdIndex_kept
    (created : createdSplitAddrs splitCrypto (splitCreation info) = .ok [(sampleSplitAddr, info)]) :
    (createdIndex info).Kept splitCrypto := by
  have ok : unsplitRecords.writeSplitAddrIndex splitCrypto (splitCreation info) =
      .ok { unsplitRecords with splitAddrs := createdIndex info } := by
    rw [ChainState.writeSplitAddrIndex, created]
    rfl
  exact .written (.start _) ok

theorem createdIndex_find {found : SplitAddrInfo} {addr : AddressHash}
    (record : (createdIndex info).findSplitAddr addr = some found) : addr = sampleSplitAddr ∧ found = info := by
  unfold findSplitAddr at record
  split at record
  · cases record
  · by_cases same : addr = sampleSplitAddr
    · subst same
      rw [createdIndex, lookup_insert, Option.bind_some, SplitAddrInfo.unmarshall_marshall] at record
      exact ⟨rfl, (Option.some.inj record).symm⟩
    · rw [createdIndex, lookup_insert_ne same] at record
      cases record

def createdRank (addr : AddressHash) : Nat := if addr = sampleSplitAddr then 1 else 0

theorem createdIndex_acyclic (filled : info.shares ≠ [])
    (others : ∀ share ∈ info.shares, share.1 ≠ sampleSplitAddr) : (createdIndex info).Acyclic createdRank := by
  constructor
  · intro addr found record
    obtain ⟨-, rfl⟩ := createdIndex_find record
    exact filled
  · intro addr found record share member
    obtain ⟨rfl, rfl⟩ := createdIndex_find record
    rw [createdRank, createdRank, if_neg (others share member), if_pos rfl]
    exact zero_lt_one

theorem createdIndex_account {addr : AddressHash} (other : addr ≠ sampleSplitAddr) :
    (createdIndex info).findSplitAddr addr = none := by
  cases record : (createdIndex info).findSplitAddr addr with
  | none => rfl
  | some found => exact absurd (createdIndex_find record).1 other

theorem sample_split_conserves : ∃ depth, ∀ deeper, depth ≤ deeper → ∃ expanded copy isSplitTx,
      samplePayment.vout.mapM (splitTxOutput (createdIndex sampleSplitInfo) deeper) = .ok expanded ∧
      Forall₂ (createdIndex sampleSplitInfo).Divided samplePayment.vout expanded ∧
      splitTxOutputs (createdIndex sampleSplitInfo) deeper samplePayment = .ok (copy, isSplitTx) ∧
      ((∃ vout ∈ samplePayment.vout, (createdIndex sampleSplitInfo).paid vout ≠ none) →
        isSplitTx = true ∧ copy.vout = expanded.flatten) := by
  have found : (createdIndex sampleSplitInfo).findSplitAddr sampleSplitAddr = some sampleSplitInfo := by decide +kernel
  have others : ∀ share ∈ sampleSplitInfo.shares, share.1 ≠ sampleSplitAddr := by decide
  refine (split_conserves_iff (createdIndex_kept (by decide +kernel)) (createdIndex_acyclic (by decide) others)
    samplePayment).mpr ⟨?_, ?_⟩
  · intro vout _ addr _
    by_cases same : addr = sampleSplitAddr
    · subst same
      refine .split found (by decide) fun share member => .account (createdIndex_account (others share member))
    · exact .account (createdIndex_account same)
  · intro _
    refine ⟨makeVout sampleSplitAddr 400000, by decide +kernel, sampleSplitAddr, by decide +kernel, fun single => ?_⟩
    obtain ⟨share, alone, -⟩ := (single_split found).mp single
    cases alone

/-- An address with one target stays in the transaction that pays it, and an address
whose weights are zero stops the node. -/
theorem single_target_not_split :
    (createdIndex ⟨[(.fill 20 1, 1)]⟩).Kept splitCrypto ∧ (createdIndex ⟨[(.fill 20 1, 1)]⟩).Acyclic createdRank ∧
      (createdIndex ⟨[(.fill 20 1, 1)]⟩).paid (makeVout sampleSplitAddr 400000) = some ⟨[(.fill 20 1, 1)]⟩ ∧
      splitTxOutputs (createdIndex ⟨[(.fill 20 1, 1)]⟩) 9 samplePayment = .ok (samplePayment, false) ∧
      (createdIndex ⟨[(.fill 20 1, 0)]⟩).Kept splitCrypto ∧ (createdIndex ⟨[(.fill 20 1, 0)]⟩).Acyclic createdRank ∧
      splitTxOutput (createdIndex ⟨[(.fill 20 1, 0)]⟩) 9 (makeVout sampleSplitAddr 400000) = .panicked :=
  ⟨createdIndex_kept (by decide +kernel), createdIndex_acyclic (by decide) (by decide), by decide +kernel,
    by decide +kernel, createdIndex_kept (by decide +kernel), createdIndex_acyclic (by decide) (by decide),
    by decide +kernel⟩

end Boxd
