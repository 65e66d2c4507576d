import Boxd.Proofs.TransferOrder

/-! The transactions that record what contracts paid. Payments are cut into pages, and the
end of the last page is computed like a length: the page is empty. -/

namespace Boxd
open Lib List Option Nat UtxoSet UtxoEntry Outcome Table AList Prod

variable {payer : AddressHash} {done infos : List TransferInfo} {u after : UtxoSet}

def TransferInfo.output (statedb : StateDB) (payer : AddressHash) (info : TransferInfo) : TxOut :=
  ⟨info.value, if statedb.isContractAddr info.recipient
    then (makeContractScriptPubkey payer info.recipient 1 0 0).toOption.getD []
    else payToPubKeyHashScript info.recipient⟩

def paidBy (addr : AddressHash) (infos : List TransferInfo) : Nat :=
  ((infos.filter fun info => info.sender = addr).map fun info => info.value.toNat).sum

def paidInto (statedb : StateDB) (addr : AddressHash) (infos : List TransferInfo) : Nat :=
  ((infos.filter fun info => statedb.isContractAddr addr && info.recipient = addr).map fun info => info.value.toNat).sum

/-- The coins of a contract: those of the set, or else those of the database. -/
def coinsOf (db : UtxoDB) (u : UtxoSet) (addr : AddressHash) : Option UInt64 :=
  ((u.findUtxo (contractOutPoint addr)).or ((db.lookup (contractOutPoint addr)).map wrap)).map UtxoWrap.value

section Totals

variable {statedb : StateDB} {addr : AddressHash}

theorem paidBy_append (left right : List TransferInfo) :
    paidBy addr (left ++ right) = paidBy addr left + paidBy addr right := by
  simp [paidBy]

theorem paidInto_append (left right : List TransferInfo) :
    paidInto statedb addr (left ++ right) = paidInto statedb addr left + paidInto statedb addr right := by
  simp [paidInto]

theorem paidBy_singleton (info : TransferInfo) :
    paidBy addr [info] = if info.sender = addr then info.value.toNat else 0 := by
  by_cases own : info.sender = addr <;> simp [paidBy, own]

theorem paidInto_singleton (info : TransferInfo) : paidInto statedb addr [info] =
      if statedb.isContractAddr addr = true ∧ info.recipient = addr then info.value.toNat else 0 := by
  by_cases paid : statedb.isContractAddr addr = true ∧ info.recipient = addr
  · simp [paidInto, paid.1, paid.2]
  · rw [if_neg paid, paidInto, filter_cons_of_neg (by simpa using paid)]
    rfl

end Totals

section Coins

variable {db : UtxoDB} {u : UtxoSet} {addr other : AddressHash}

theorem coinsOf_put (utxoWrap : UtxoWrap) : coinsOf db (u.put (contractOutPoint addr) utxoWrap) addr =
    some utxoWrap.value := by
  have found : (u.put (contractOutPoint addr) utxoWrap).findUtxo (contractOutPoint addr) =
      some utxoWrap := lookup_insert _
  rw [coinsOf, found]
  rfl

theorem coinsOf_put_ne (utxoWrap : UtxoWrap) (apart : other ≠ addr) :
    coinsOf db (u.put (contractOutPoint addr) utxoWrap) other = coinsOf db u other := by
  have found : (u.put (contractOutPoint addr) utxoWrap).findUtxo (contractOutPoint other) =
      u.findUtxo (contractOutPoint other) :=
    lookup_insert_ne fun same => apart (contractOutPoint_injective same)
  rw [coinsOf, coinsOf, found]

end Coins

/-- What is known after some of the payments: the coins of every payer are its first
coins with what it was paid and without what it paid. -/
structure Paying (db : UtxoDB) (statedb : StateDB) (all : List TransferInfo) (initial : AddressHash → Nat)
    (paid received : List TransferInfo) (u : UtxoSet) : Prop where
  balance : ∀ info ∈ all, ∃ value, coinsOf db u info.sender = some value ∧
    value.toNat + paidBy info.sender paid = initial info.sender + paidInto statedb info.sender received
  known : ∀ info ∈ all, statedb.isContractAddr info.recipient = true →
    u.findUtxo (contractOutPoint info.recipient) ≠ none ∨ statedb.getContractUtxo info.recipient ≠ none
  agree : ∀ addr, u.findUtxo (contractOutPoint addr) = none →
    (db.lookup (contractOutPoint addr)).map value = (statedb.getContractUtxo addr).map value

/-- The payments can be made: nobody pays more than it has, and no sum overflows. -/
structure Funded (statedb : StateDB) (all : List TransferInfo) (initial : AddressHash → Nat) : Prop where
  enough : ∀ info ∈ all, paidBy info.sender all ≤ initial info.sender
  fits : ∀ info ∈ all, initial info.sender + paidInto statedb info.sender all < 2 ^ 64
  sender : ∀ info ∈ all, normalizeAddressHash info.sender ≠ zeroHash
  recipient : ∀ info ∈ all, info.recipient ≠ zeroAddressHash

section Pay

variable {db : UtxoDB} {statedb : StateDB} {all paid received : List TransferInfo} {initial : AddressHash → Nat}
  {u : UtxoSet}

theorem findUtxo_put_ne_none {outPoint other : OutPoint} {utxoWrap : UtxoWrap} (present : u.findUtxo other ≠ none) :
    (u.put outPoint utxoWrap).findUtxo other ≠ none := lookup_insert_ne_none utxoWrap (.inr present)

theorem Paying.put {paid' received' : List TransferInfo} (paying : Paying db statedb all initial paid received u)
    (addr : AddressHash) {utxoWrap : UtxoWrap}
    (own : ∀ info ∈ all, info.sender = addr →
      utxoWrap.value.toNat + paidBy addr paid' = initial addr + paidInto statedb addr received')
    (others : ∀ info ∈ all, info.sender ≠ addr → paidBy info.sender paid' = paidBy info.sender paid ∧
      paidInto statedb info.sender received' = paidInto statedb info.sender received) :
    Paying db statedb all initial paid' received' (u.put (contractOutPoint addr) utxoWrap) := by
  refine ⟨?_, ?_, ?_⟩
  · intro info member
    by_cases same : info.sender = addr
    · rw [same]
      exact ⟨_, coinsOf_put utxoWrap, own info member same⟩
    · obtain ⟨value, coins, balance⟩ := paying.balance info member
      rw [(others info member same).1, (others info member same).2, coinsOf_put_ne _ same]
      exact ⟨value, coins, balance⟩
  · intro info member contract
    rcases paying.known info member contract with here | recorded
    · exact .inl (findUtxo_put_ne_none here)
    · exact .inr recorded
  · intro other absent
    apply paying.agree
    by_contra present
    exact findUtxo_put_ne_none present absent

theorem toNat_add_of_fits {left right : UInt64} (fits : left.toNat + right.toNat < 2 ^ 64) :
    (left + right).toNat = left.toNat + right.toNat := by
  rw [UInt64.toNat_add, mod_eq_of_lt fits]

section
variable (funded : Funded statedb all initial)
include funded

/-- A contract that is paid has the coins at once, other addresses get an output only. -/
theorem payRecipient_pays (paying : Paying db statedb all initial paid received u)
    {info : TransferInfo} (member : info ∈ all) (within : ∀ addr, paidInto statedb addr (received ++ [info]) ≤
      paidInto statedb addr all) :
    ∃ after, payRecipient statedb u info = .ok ((info.output statedb info.sender).scriptPubKey, after) ∧
      Paying db statedb all initial paid (received ++ [info]) after ∧
      ∀ outPoint, u.findUtxo outPoint ≠ none → after.findUtxo outPoint ≠ none := by
  unfold payRecipient TransferInfo.output
  rw [if_neg (funded.recipient info member)]
  by_cases contract : statedb.isContractAddr info.recipient = true
  · rw [if_pos contract, if_pos contract]
    have script : makeContractScriptPubkey info.sender info.recipient 1 0 0 = .ok _ := rfl
    obtain ⟨utxoWrap, found⟩ : ∃ utxoWrap, (u.findUtxo (contractOutPoint info.recipient)).or
        ((statedb.getContractUtxo info.recipient).map wrap) = some utxoWrap := by
      rw [← isSome_iff_exists, isSome_or, Bool.or_eq_true, isSome_map]
      exact (paying.known info member contract).imp isSome_iff_ne_none.mpr isSome_iff_ne_none.mpr
    -- What the state records of a contract is what the database has of it.
    have coins : coinsOf db u info.recipient = some utxoWrap.value := by
      rw [coinsOf]
      cases here : u.findUtxo (contractOutPoint info.recipient) with
      | some held =>
        rw [here] at found
        cases found
        rfl
      | none =>
        rw [here, none_or] at found
        have agree := paying.agree info.recipient here
        obtain ⟨entry, record, rfl⟩ := map_eq_some_iff.mp found
        rw [record, map_some, map_eq_some_iff] at agree
        obtain ⟨stored, lookup, same⟩ := agree
        rw [none_or, lookup]
        exact congrArg some same
    refine ⟨(markContract u info.recipient).put (contractOutPoint info.recipient)
      (utxoWrap.addValue info.value), ?_, ?_, fun _ present => findUtxo_put_ne_none present⟩
    · have lookup : (markContract u info.recipient).findUtxo (contractOutPoint info.recipient) =
          u.findUtxo (contractOutPoint info.recipient) := rfl
      simp only [script, Except.toOption, expect, ok_bind, lookup, found, orFail]
      rfl
    · have marked : Paying db statedb all initial paid received (markContract u info.recipient) :=
        { paying with }
      apply marked.put
      · intro payer among same
        obtain ⟨value, held, balance⟩ := paying.balance payer among
        rw [same, coins] at held
        cases held
        rw [same] at balance
        have fits := funded.fits payer among
        rw [same] at fits
        have bound := within info.recipient
        rw [paidInto_append, paidInto_singleton, if_pos ⟨contract, rfl⟩] at bound ⊢
        rw [UtxoWrap.addValue, toNat_add_of_fits (by omega)]
        omega
      · intro payer _ apart
        rw [paidInto_append, paidInto_singleton, if_neg fun paid => apart paid.2.symm]
        exact ⟨rfl, rfl⟩
  · rw [if_neg contract, if_neg contract]
    refine ⟨u, rfl, ⟨?_, paying.known, paying.agree⟩, fun _ present => present⟩
    intro payer among
    have unpaid : ¬(statedb.isContractAddr payer.sender = true ∧ info.recipient = payer.sender) := by
      rintro ⟨isContract, same⟩
      exact contract (same ▸ isContract)
    rw [paidInto_append, paidInto_singleton, if_neg unpaid]
    exact paying.balance payer among

theorem makeVouts_pays {rest : List TransferInfo}
    (listed : all = done ++ infos ++ rest) (sent : ∀ info ∈ infos, info.sender = payer)
    (paying : Paying db statedb all initial done done u)
    (here : u.findUtxo (contractOutPoint payer) ≠ none) :
    ∃ after, makeVouts statedb payer infos u = .ok (infos.map (TransferInfo.output statedb payer), after) ∧
      Paying db statedb all initial (done ++ infos) (done ++ infos) after ∧
      ∀ outPoint, u.findUtxo outPoint ≠ none → after.findUtxo outPoint ≠ none := by
  induction infos generalizing done u with
  | nil =>
    rw [append_nil]
    exact ⟨u, rfl, paying, fun _ present => present⟩
  | cons info infos next =>
    have member : info ∈ all := by
      rw [listed]
      simp
    obtain ⟨own, sent⟩ := forall_mem_cons.mp sent
    have regrouped : all = (done ++ [info]) ++ infos ++ rest := by simp [listed]
    have within : ∀ addr, paidInto statedb addr (done ++ [info]) ≤ paidInto statedb addr all := by
      intro addr
      rw [regrouped, append_assoc, paidInto_append _ (infos ++ rest)]
      exact le_add_right _ _
    obtain ⟨given, paid, receives, kept⟩ := payRecipient_pays funded paying member within
    obtain ⟨utxoWrap, found⟩ := ne_none_iff_exists'.mp (kept _ here)
    obtain ⟨value, held, balance⟩ := receives.balance info member
    rw [own] at held balance
    have coins : value = utxoWrap.value := by
      rw [coinsOf, found] at held
      exact (some.inj held).symm
    have total : paidBy payer done + info.value.toNat ≤ paidBy payer all := by
      rw [regrouped, append_assoc, paidBy_append (done ++ [info]), paidBy_append, paidBy_singleton, if_pos own]
      exact le_add_right _ _
    have enough := funded.enough info member
    rw [own] at enough
    have covered : info.value ≤ utxoWrap.value := by
      rw [UInt64.le_iff_toNat_le, ← coins]
      omega
    have left : (utxoWrap.value - info.value).toNat = utxoWrap.value.toNat - info.value.toNat :=
      UInt64.toNat_sub_of_le _ _ covered
    have pays : Paying db statedb all initial (done ++ [info]) (done ++ [info])
        (given.put (contractOutPoint payer) (utxoWrap.setValue (utxoWrap.value - info.value))) := by
      apply receives.put
      · intro _ _ _
        rw [coins] at balance
        rw [paidBy_append, paidBy_singleton, if_pos own, UtxoWrap.setValue, left]
        omega
      · intro other _ apart
        rw [paidBy_append, paidBy_singleton, if_neg fun same => apart (same.symm.trans own)]
        exact ⟨rfl, rfl⟩
    obtain ⟨after, made, final, present⟩ := next regrouped sent pays (findUtxo_put_ne_none (kept _ here))
    have same : ({ info with sender := payer } : TransferInfo) = info := by rw [← own]
    refine ⟨after, ?_, ?_, fun outPoint found => present outPoint (findUtxo_put_ne_none (kept outPoint found))⟩
    · have inRange : ¬(utxoWrap.value - info.value > utxoWrap.value) := by
        rw [UInt64.not_lt, UInt64.le_iff_toNat_le, left]
        exact sub_le _ _
      rw [makeVouts, same, paid, ok_bind]
      dsimp only
      rw [found, expect, ok_bind, if_neg inRange, made, ok_bind, own]
      rfl
    · rwa [append_assoc, singleton_append] at final

theorem payTransfers_pays {rest : List TransferInfo}
    (listed : all = done ++ infos ++ rest) (sent : infos ≠ [] ∧ ∀ info ∈ infos, info.sender = payer)
    (few : infos.length ≤ voutLimit) (paying : Paying db statedb all initial done done u) (senderNonce : UInt64) :
    ∃ tx after, payTransfers senderNonce db statedb infos u = .ok ([tx], after) ∧
      tx.vout = infos.map (TransferInfo.output statedb payer) ∧
      Paying db statedb all initial (done ++ infos) (done ++ infos) after := by
  obtain ⟨some, sent⟩ := sent
  obtain ⟨first, others, rfl⟩ := exists_cons_of_ne_nil some
  have member : first ∈ all := by
    rw [listed]
    simp
  obtain rfl : first.sender = payer := sent first mem_cons_self
  obtain ⟨value, held, balance⟩ := paying.balance first member
  obtain ⟨utxoWrap, found, same⟩ := map_eq_some_iff.mp held
  have ready : Paying db statedb all initial done done
      ((markContract u first.sender).put (contractOutPoint first.sender) utxoWrap) := by
    have marked : Paying db statedb all initial done done (markContract u first.sender) :=
      { paying with }
    exact marked.put first.sender (fun _ _ _ => same ▸ balance) fun _ _ _ => ⟨rfl, rfl⟩
  have present : ((markContract u first.sender).put (contractOutPoint first.sender) utxoWrap).findUtxo
      (contractOutPoint first.sender) ≠ none := lookup_insert_ne_none utxoWrap (.inl rfl)
  obtain ⟨after, made, final, -⟩ := makeVouts_pays funded listed sent ready present
  have valid : ¬(normalizeAddressHash first.sender = zeroHash) := funded.sender first member
  have lookup : ((markContract u first.sender).findUtxo (contractOutPoint first.sender)).or
      ((db.lookup (contractOutPoint first.sender)).map wrap) = .some utxoWrap := found
  have page : ((first :: others).take (first :: others).length).drop 0 = first :: others := take_length
  refine ⟨{ newTx 0 0 0 with
    vin := [⟨contractOutPoint first.sender, makeContractScriptSig senderNonce, 0⟩]
    vout := (first :: others).map (TransferInfo.output statedb first.sender) }, after, ?_, rfl, final⟩
  unfold payTransfers voutRanges
  rw [if_neg (not_lt.mpr few), makeTxs, makeTx, page, head?_cons, expect, ok_bind]
  simp only [if_neg valid, lookup, orFail, ok_bind, made, makeTxs]
  rfl

end

end Pay

/-- What the transactions of a contract have to record: its payments in their order, on
pages that are neither empty nor too long. -/
structure Recorded (statedb : StateDB) (group : AddressHash × List TransferInfo) (txs : List Transaction) : Prop where
  outputs : txs.flatMap (fun tx => tx.vout) = group.2.map (TransferInfo.output statedb group.1)
  sizes : ∀ tx ∈ txs, 1 ≤ tx.vout.length ∧ tx.vout.length ≤ voutLimit

def TransferGroups.all (transfers : TransferGroups) : List TransferInfo := transfers.groups.flatMap snd

/-- Every contract has what it pays, and the addresses of the payments are known. -/
structure Sufficient (transfers : TransferGroups) (u : UtxoSet) (db : UtxoDB) (statedb : StateDB) : Prop where
  payer : ∀ group ∈ transfers.groups, normalizeAddressHash group.1 ≠ zeroHash
  funds : ∀ group ∈ transfers.groups, ∃ value, coinsOf db u group.1 = some value ∧
    (group.2.map fun info => info.value.toNat).sum ≤ value.toNat ∧
    value.toNat + paidInto statedb group.1 transfers.all < 2 ^ 64
  recipient : ∀ info ∈ transfers.all, info.recipient ≠ zeroAddressHash ∧ (statedb.isContractAddr info.recipient = true →
    u.findUtxo (contractOutPoint info.recipient) ≠ none ∨ statedb.getContractUtxo info.recipient ≠ none)
  agree : ∀ addr, u.findUtxo (contractOutPoint addr) = none →
    (db.lookup (contractOutPoint addr)).map value = (statedb.getContractUtxo addr).map value

theorem paidBy_own {addr : AddressHash} (own : ∀ info ∈ infos, info.sender = addr) :
    paidBy addr infos = (infos.map fun info => info.value.toNat).sum := by
  rw [paidBy, filter_eq_self.mpr fun info member => by simpa using own info member]

theorem paidBy_other {addr : AddressHash} (others : ∀ info ∈ infos, info.sender ≠ addr) : paidBy addr infos = 0 := by
  rw [paidBy, filter_eq_nil_iff.mpr fun info member => by simpa using others info member]
  rfl

theorem paidBy_groups {groups : List (AddressHash × List TransferInfo)} (distinct : (groups.map fst).Nodup)
    (sent : ∀ group ∈ groups, ∀ info ∈ group.2, info.sender = group.1) {group : AddressHash × List TransferInfo}
    (member : group ∈ groups) :
    paidBy group.1 (groups.flatMap snd) = (group.2.map fun info => info.value.toNat).sum := by
  induction groups with
  | nil => cases member
  | cons first rest next =>
    rw [map_cons, nodup_cons] at distinct
    rw [forall_mem_cons] at sent
    rw [flatMap_cons, paidBy_append]
    rcases mem_cons.mp member with rfl | later
    · rw [paidBy_own sent.1, paidBy_other, add_zero]
      intro info among same
      obtain ⟨other, isOther, among⟩ := mem_flatMap.mp among
      rw [sent.2 other isOther info among] at same
      exact distinct.1 (same ▸ mem_map_of_mem isOther)
    · rw [next distinct.2 sent.2 later, paidBy_other, zero_add]
      intro info among same
      rw [sent.1 info among] at same
      exact distinct.1 (same ▸ mem_map_of_mem later)

def initialCoins (db : UtxoDB) (u : UtxoSet) (addr : AddressHash) : Nat := ((coinsOf db u addr).map UInt64.toNat).getD 0

section Groups

variable {transfers : TransferGroups} {u : UtxoSet} {db : UtxoDB} {statedb : StateDB}

theorem TransferGroups.group_of {info : TransferInfo} (member : info ∈ transfers.all) :
    ∃ group ∈ transfers.groups, info.sender = group.1 := by
  obtain ⟨group, among, paid⟩ := mem_flatMap.mp member
  exact ⟨group, among, (transfers.sent group among).2 info paid⟩

theorem TransferGroups.paidBy {group : AddressHash × List TransferInfo} (member : group ∈ transfers.groups) :
    paidBy group.1 transfers.all = (group.2.map fun info => info.value.toNat).sum :=
  paidBy_groups transfers.distinct (fun group among => (transfers.sent group among).2) member

theorem Sufficient.funded (sufficient : Sufficient transfers u db statedb) :
    Funded statedb transfers.all (initialCoins db u) := by
  have coins : ∀ info ∈ transfers.all, Boxd.paidBy info.sender transfers.all ≤ initialCoins db u info.sender ∧
      initialCoins db u info.sender + paidInto statedb info.sender transfers.all < 2 ^ 64 := by
    intro info member
    obtain ⟨group, among, own⟩ := TransferGroups.group_of member
    obtain ⟨value, coins, enough, fits⟩ := sufficient.funds group among
    rw [own, TransferGroups.paidBy among, initialCoins, coins]
    exact ⟨enough, fits⟩
  refine ⟨fun info member => (coins info member).1, fun info member => (coins info member).2, ?_,
    fun info member => (sufficient.recipient info member).1⟩
  intro info member
  obtain ⟨group, among, own⟩ := TransferGroups.group_of member
  exact own ▸ sufficient.payer group among

theorem Sufficient.paying (sufficient : Sufficient transfers u db statedb) :
    Paying db statedb transfers.all (initialCoins db u) [] [] u := by
  refine ⟨?_, fun info member => (sufficient.recipient info member).2, sufficient.agree⟩
  intro info member
  obtain ⟨group, among, own⟩ := TransferGroups.group_of member
  obtain ⟨value, coins, -⟩ := sufficient.funds group among
  rw [own, initialCoins, coins]
  exact ⟨value, rfl, rfl⟩

theorem makeTxs_pays {all : List TransferInfo} {initial : AddressHash → Nat} (funded : Funded statedb all initial)
    {groups : List (AddressHash × List TransferInfo)}
    (listed : all = done ++ groups.flatMap snd)
    (sent : ∀ group ∈ groups, group.2 ≠ [] ∧ ∀ info ∈ group.2, info.sender = group.1)
    (few : ∀ group ∈ groups, group.2.length ≤ voutLimit) (senderNonce : UInt64)
    (paying : Paying db statedb all initial done done u) :
    ∃ made after, makeTxs (fun entry u => payTransfers senderNonce db statedb entry.2 u) groups u = .ok (made, after) ∧
      Forall₂ (Recorded statedb) groups made ∧ Paying db statedb all initial all all after := by
  induction groups generalizing done u with
  | nil =>
    rw [flatMap_nil, append_nil] at listed
    subst listed
    exact ⟨[], u, rfl, .nil, paying⟩
  | cons group rest next =>
    rw [forall_mem_cons] at sent few
    rw [flatMap_cons, ← append_assoc] at listed
    obtain ⟨tx, between, paid, vout, later⟩ := payTransfers_pays funded listed sent.1 few.1 paying senderNonce
    obtain ⟨made, after, ok, recorded, final⟩ := next listed sent.2 few.2 later
    refine ⟨[tx] :: made, after, ?_, .cons ⟨?_, ?_⟩ recorded, final⟩
    · rw [makeTxs, paid, ok_bind]
      dsimp only
      rw [ok, ok_bind]
      rfl
    · rw [flatMap_singleton, vout]
    · intro other member
      rw [mem_singleton.mp member, vout, length_map]
      exact ⟨length_pos_iff.mpr sent.1.1, few.1⟩

end Groups

section Pages

variable {senderNonce : UInt64} {db : UtxoDB} {statedb : StateDB}

theorem makeVouts_length {vouts : List TxOut}
    (made : makeVouts statedb payer infos u = .ok (vouts, after)) : vouts.length = infos.length := by
  induction infos generalizing u vouts with
  | nil =>
    cases made
    rfl
  | cons info rest next =>
    simp only [makeVouts, bind_ok_iff, ite_fail_ok_iff, Prod.exists] at made
    obtain ⟨_, _, -, _, -, -, vouts, _, made, done⟩ := made
    cases done
    rw [length_cons, length_cons, next made]

theorem makeTx_length {first last : Nat} {tx : Transaction}
    (made : makeTx infos senderNonce first last db statedb u = .ok (tx, after)) :
    tx.vout.length = ((infos.take last).drop first).length := by
  simp only [makeTx, bind_ok_iff, ite_fail_ok_iff, Prod.exists] at made
  obtain ⟨_, -, -, _, -, vouts, _, made, done⟩ := made
  cases done
  exact makeVouts_length made

theorem makeTxs_each {ε α τ : Type} {make : α → UtxoSet → Outcome ε (τ × UtxoSet)} {items : List α}
    {txs : List τ} (ok : makeTxs make items u = .ok (txs, after)) {item : α} (member : item ∈ items) :
    ∃ before tx between, make item before = .ok (tx, between) ∧ tx ∈ txs := by
  induction items generalizing u txs with
  | nil => cases member
  | cons first rest next =>
    simp only [makeTxs, bind_ok_iff, Prod.exists] at ok
    obtain ⟨tx, between, made, txs, _, ok, done⟩ := ok
    cases done
    rcases mem_cons.mp member with rfl | later
    · exact ⟨u, tx, between, made, mem_cons_self⟩
    · obtain ⟨before, tx, between, made, among⟩ := next ok later
      exact ⟨before, tx, between, made, mem_cons_of_mem _ among⟩

/-- The last page of several starts after its end. -/
theorem exists_empty_page {length : Nat} (many : voutLimit < length) :
    ∃ range ∈ voutRanges length, range.2 ≤ range.1 := by
  have pages : 1 ≤ length / voutLimit := (one_le_div_iff (by decide)).mpr many.le
  have cut : length < (length / voutLimit + 1) * voutLimit := by
    rw [mul_comm]
    exact lt_mul_div_succ length (by decide)
  unfold voutRanges
  rw [if_pos many]
  refine ⟨_, mem_map_of_mem (mem_range.mpr (lt_succ_self (length / voutLimit))), ?_⟩
  rw [if_neg (not_lt.mpr cut.le)]
  rw [add_mul] at cut
  have page : 1 * voutLimit ≤ length / voutLimit * voutLimit := mul_le_mul_right _ pages
  omega

theorem exists_empty_tx (many : voutLimit < infos.length)
    {txs : List Transaction} (paid : payTransfers senderNonce db statedb infos u = .ok (txs, after)) :
    ∃ tx ∈ txs, tx.vout.length = 0 := by
  obtain ⟨range, member, empty⟩ := exists_empty_page many
  obtain ⟨_, tx, _, made, among⟩ := makeTxs_each paid member
  refine ⟨tx, among, ?_⟩
  rw [makeTx_length made, length_drop, length_take]
  omega

end Pages

/-- When the contracts have what they pay, the payments are recorded one for one, and the
coins of the contracts change by them, if and only if no contract pays more often than
there are outputs on a page. -/
theorem transfers_recorded_iff (transfers : TransferGroups) (senderNonce : UInt64) (u : UtxoSet) (db : UtxoDB)
    (statedb : StateDB) (sufficient : Sufficient transfers u db statedb) :
    (∃ made after, createUtxoTx transfers.groups senderNonce u db statedb = .ok (made.flatten, after) ∧
        Forall₂ (Recorded statedb) transfers.groups made ∧
        ∀ group ∈ transfers.groups, ∃ before now, coinsOf db u group.1 = some before ∧
          coinsOf db after group.1 = some now ∧
          now.toNat + (group.2.map fun info => info.value.toNat).sum =
            before.toNat + paidInto statedb group.1 transfers.all) ↔
      ∀ group ∈ transfers.groups, group.2.length ≤ voutLimit := by
  constructor
  · rintro ⟨made, after, created, recorded, -⟩ group member
    by_contra many
    simp only [createUtxoTx, bind_ok_iff, Prod.exists] at created
    obtain ⟨lists, _, ok, done⟩ := created
    have same : lists.flatten = made.flatten := congrArg fst (Except.ok.inj done)
    obtain ⟨_, txs, _, paid, among⟩ := makeTxs_each ok member
    obtain ⟨tx, ofGroup, empty⟩ := exists_empty_tx (Nat.lt_of_not_le many) paid
    have listed : tx ∈ made.flatten := same ▸ mem_flatten.mpr ⟨txs, among, ofGroup⟩
    obtain ⟨txs, among, listed⟩ := mem_flatten.mp listed
    obtain ⟨other, -, records⟩ := exists_of_mem_right recorded among
    have size := (records.sizes tx listed).1
    omega
  · intro few
    obtain ⟨made, after, ok, recorded, final⟩ := makeTxs_pays sufficient.funded rfl transfers.sent few senderNonce
      sufficient.paying
    refine ⟨made, after, ?_, recorded, ?_⟩
    · rw [createUtxoTx, ok, ok_bind]
      rfl
    · intro group member
      obtain ⟨before, coins, -⟩ := sufficient.funds group member
      obtain ⟨some, sent⟩ := transfers.sent group member
      obtain ⟨info, rest, listed⟩ := exists_cons_of_ne_nil some
      have paid : info ∈ group.2 := listed ▸ mem_cons_self
      obtain ⟨now, held, balance⟩ := final.balance info (mem_flatMap.mpr ⟨group, member, paid⟩)
      rw [sent info paid] at held balance
      rw [TransferGroups.paidBy member, initialCoins, coins] at balance
      exact ⟨before, now, coins, held, balance⟩

theorem sampleFunds_sufficient : Sufficient sampleTransfers (sampleFunds 5 5) ∅ sampleContracts where
  payer := by decide
  funds := by
    intro group member
    refine ⟨5, ?_⟩
    revert group
    decide
  recipient := by decide
  agree _ _ := rfl

/-- The first contract is paid what it pays, so that its coins stay the same. -/
theorem sample_transfers_recorded : Sufficient sampleTransfers (sampleFunds 5 5) ∅ sampleContracts ∧
      ∃ made after, createUtxoTx sampleTransfers.groups 9 (sampleFunds 5 5) ∅ sampleContracts = .ok (made.flatten, after) ∧
        Forall₂ (Recorded sampleContracts) sampleTransfers.groups made ∧
        ∀ group ∈ sampleTransfers.groups, ∃ before now, coinsOf ∅ (sampleFunds 5 5) group.1 = some before ∧
          coinsOf ∅ after group.1 = some now ∧
          now.toNat + (group.2.map fun info => info.value.toNat).sum =
            before.toNat + paidInto sampleContracts group.1 sampleTransfers.all :=
  ⟨sampleFunds_sufficient, (transfers_recorded_iff sampleTransfers 9 (sampleFunds 5 5) ∅ sampleContracts
    sampleFunds_sufficient).mpr (by decide)⟩

/-- One payment more than there are outputs on a page. -/
def longTransfers : List TransferInfo := replicate 1001 ⟨sampleFirst, samplePayee, 3⟩

/-- The second transaction has no outputs, and one payment is missing. -/
theorem last_page_empty :
    ((createUtxoTx [(sampleFirst, longTransfers)] 9 (sampleFunds 10000 0) ∅ sampleContracts).toOption.map fun created =>
      (created.1.map fun tx => tx.vout.length, coinsOf ∅ created.2 sampleFirst)) = some ([1000, 0], some 7000) ∧
    (longTransfers.map fun info => info.value.toNat).sum = 3003 := by
  constructor
  · decide +kernel
  · decide +kernel

end Boxd
