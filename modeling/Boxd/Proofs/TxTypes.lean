import Boxd.Proofs.TokenScripts
import Boxd.Proofs.Tokens
import Boxd.Proofs.ValidBlock

/-! The types of transactions. They are found from the outputs when a block is checked,
and are cached from then on. -/

namespace Boxd
open Lib List Script Option

theorem Script.extractAddress_payToPubk {script : Script} (paid : script.isPayToPubKeyHash = true) :
    ∃ addr, script.extractAddress = .ok (.pubKeyHash addr) := by
  have kind : script.pubkType = .payToPubk := by rw [pubkType, if_pos paid]
  simp only [isPayToPubKeyHash, p2PKHScriptLen, Bool.and_eq_true, beq_iff_eq] at paid
  obtain ⟨⟨⟨⟨⟨long, -⟩, -⟩, third⟩, -⟩, -⟩ := paid
  have read := parseNextOp_direct (getElem?_of_getD (by omega) third) (by decide) (by rw [long]; decide)
  have size : ((script.drop 3).take 20).length = 20 := by
    rw [length_take, length_drop, long]
    rfl
  refine ⟨⟨_, size⟩, ?_⟩
  simp [extractAddress, kind, nthOperand, getNthOp, read, addressHashOf, Except.map, bind, Except.bind, ripemd160Size, long]

/-- What an output is to the search for the type of its transaction. -/
inductive OutputKind where
  | plain
  | data
  | nonstandard
  | tokenIssue
  | tokenTransfer
  | contract
  | contractPayment
  | split
  deriving DecidableEq

namespace OutputKind

/-- The type that a special output stands for. -/
def type : OutputKind → Option TxType
  | .tokenIssue => some .tokenIssueTx
  | .tokenTransfer => some .tokenTransferTx
  | .contract | .contractPayment => some .contractTx
  | .split => some .splitTx
  | .plain | .data | .nonstandard => none

/-- The outputs for which an error is returned without being cached. -/
def quiet (kind : OutputKind) : Bool := kind = .tokenTransfer || kind = .contractPayment

theorem type_known {kind : OutputKind} {type : TxType} (special : kind.type = some type) :
    type ≠ .unknownTx ∧ type ≠ .errorTx ∧ kind ≠ .nonstandard ∧ kind ≠ .data := by
  cases kind <;> cases special <;> decide

end OutputKind

def outputKind (statedb : StateDB) (txOut : TxOut) : OutputKind :=
  let sc : Script := txOut.scriptPubKey
  match sc.pubkType with
  | .payToPubkCLTV | .payToScriptPubk => .plain
  | .payToPubk =>
    if sc.extractAddress.toOption.any fun addr => addr.hash160.any statedb.isContractAddr then .contractPayment else .plain
  | .unknownPubk => .nonstandard
  | .opReturnPubk => .data
  | .tokenTransferPubk => .tokenTransfer
  | .tokenIssuePubk => .tokenIssue
  | .contractPubk => .contract
  | .splitAddrPubk => .split

/-- What `ParseTxType` makes of outputs of the given kinds: the type that it returns and
the type that it leaves in the cache. -/
def scanKinds : List OutputKind → (type : TxType) → (opReturns : Nat) → TxType × TxType
  | [], type, _ => if type = .unknownTx then (.payToPubkTx, .payToPubkTx) else (type, type)
  | kind :: rest, type, opReturns =>
    match kind.type with
    | some new =>
      if type = .unknownTx then scanKinds rest new opReturns
      else if type = .tokenTransferTx ∧ new = .tokenTransferTx then scanKinds rest type opReturns
      else (.errorTx, if kind.quiet then type else .errorTx)
    | none =>
      if kind = .nonstandard ∨ kind = .data ∧ 0 < opReturns then (.errorTx, .errorTx)
      else scanKinds rest type (opReturns + if kind = .data then 1 else 0)

theorem parseTxTypeFrom_kinds (statedb : StateDB) (vouts : List TxOut) (i : Nat) (type : TxType) (idx opReturns : Nat) :
    Prod.map id Prod.snd (parseTxTypeFrom statedb vouts i type idx opReturns) =
      scanKinds (vouts.map (outputKind statedb)) type opReturns := by
  induction vouts generalizing i type idx opReturns with
  | nil => by_cases unknown : type = .unknownTx <;> simp [parseTxTypeFrom, scanKinds, unknown]
  | cons txOut rest next =>
    unfold parseTxTypeFrom
    cases kind : pubkType txOut.scriptPubKey with
    | payToPubk =>
      have paid : isPayToPubKeyHash txOut.scriptPubKey = true := by
        unfold pubkType at kind
        split_ifs at kind
        assumption
      obtain ⟨addr, extracted⟩ := extractAddress_payToPubk paid
      by_cases unknown : type = .unknownTx <;> cases owned : statedb.isContractAddr addr <;>
        simp [outputKind, kind, unknown, extracted, owned, Except.toOption, Address.hash160, scanKinds, next,
          OutputKind.type, OutputKind.quiet]
    | opReturnPubk =>
      by_cases unknown : type = .unknownTx <;> by_cases first : 0 < opReturns <;>
        simp [outputKind, kind, unknown, first, scanKinds, next, OutputKind.type]
    | tokenTransferPubk =>
      by_cases unknown : type = .unknownTx <;> by_cases first : type = .tokenTransferTx <;>
        simp_all [outputKind, scanKinds, OutputKind.type, OutputKind.quiet]
    | _ =>
      by_cases unknown : type = .unknownTx <;>
        simp [outputKind, kind, unknown, scanKinds, next, OutputKind.type, OutputKind.quiet]

/-- A type that is not an error is cached, and it is never unknown. -/
theorem parseTxType_cached (statedb : StateDB) (tx : Transaction) : (parseTxType statedb tx).1 ≠ .unknownTx ∧
    ((parseTxType statedb tx).1 ≠ .errorTx → (parseTxType statedb tx).2.2 = (parseTxType statedb tx).1) := by
  have cached (kinds : List OutputKind) (type : TxType) (opReturns : Nat) :
      (scanKinds kinds type opReturns).1 ≠ .unknownTx ∧ ((scanKinds kinds type opReturns).1 ≠ .errorTx →
        (scanKinds kinds type opReturns).2 = (scanKinds kinds type opReturns).1) := by
    fun_induction scanKinds kinds type opReturns <;> simp_all
  have same := cached (tx.vout.map (outputKind statedb)) tx.type 0
  rwa [← parseTxTypeFrom_kinds statedb tx.vout 0 tx.type 0 0] at same

theorem isStandardTx_known {statedb : StateDB} {tx : Transaction} (standard : (isStandardTx statedb tx).1 = true) :
    (isStandardTx statedb tx).2.type ≠ .unknownTx := by
  unfold isStandardTx at standard ⊢
  split
  · next known => exact known
  · next unknown =>
    obtain ⟨known, cached⟩ := parseTxType_cached statedb tx
    rw [if_neg unknown] at standard
    have same := cached (by simpa using standard)
    exact fun none => known (same.symm.trans none)

/-- The types that the special outputs stand for. -/
def specials (kinds : List OutputKind) : List TxType := kinds.filterMap OutputKind.type

/-- Outputs that no transaction of one type has together. -/
def Misfit (kinds : List OutputKind) : Prop :=
  .nonstandard ∈ kinds ∨ 1 < kinds.count .data ∨
    1 < (specials kinds).length ∧ ∃ type ∈ specials kinds, type ≠ .tokenTransferTx

instance Misfit.decidable (kinds : List OutputKind) : Decidable (Misfit kinds) :=
  inferInstanceAs (Decidable (_ ∨ _ ∨ _ ∧ _))

section
variable {kinds seen before rest : List OutputKind} {kind : OutputKind}

theorem Misfit.append (misfit : Misfit kinds) (rest : List OutputKind) : Misfit (kinds ++ rest) := by
  unfold Misfit specials at *
  rw [filterMap_append, count_append, length_append]
  rcases misfit with member | many | ⟨several, type, member, other⟩
  · exact .inl (mem_append_left _ member)
  · exact .inr (.inl (by omega))
  · exact .inr (.inr ⟨by omega, type, mem_append_left _ member, other⟩)

theorem Misfit.perm (misfit : Misfit kinds) (same : kinds.Perm rest) : Misfit rest := by
  unfold Misfit specials at *
  have types := same.filterMap OutputKind.type
  simpa only [same.mem_iff, same.count_eq, types.mem_iff, types.length_eq] using misfit

/-- The outputs of a misfit have a shortest beginning that is one. -/
theorem Misfit.shortest (misfit : Misfit kinds) :
    ∃ before late after, kinds = before ++ late :: after ∧ ¬ Misfit before ∧ Misfit (before ++ [late]) := by
  induction kinds using reverseRecOn with
  | nil => exact absurd misfit (by decide)
  | append_singleton before late shorter =>
    by_cases already : Misfit before
    · obtain ⟨first, bad, after, rfl, rest⟩ := shorter already
      exact ⟨first, bad, after ++ [late], by simp, rest⟩
    · exact ⟨before, late, [], rfl, already, misfit⟩

/-- The rest of the scan when some outputs were seen. -/
def scanFrom (seen rest : List OutputKind) : TxType × TxType :=
  scanKinds rest ((specials seen).headD .unknownTx) (seen.count .data)

theorem specials_known {type : TxType} (member : type ∈ specials kinds) : type ≠ .unknownTx ∧ type ≠ .errorTx := by
  obtain ⟨kind, -, special⟩ := mem_filterMap.mp member
  exact ⟨(OutputKind.type_known special).1, (OutputKind.type_known special).2.1⟩

theorem misfit_append_plain (fits : ¬ Misfit seen) (plain : kind.type = none) :
    Misfit (seen ++ [kind]) ↔ kind = .nonstandard ∨ kind = .data ∧ 0 < seen.count .data := by
  have types : specials (seen ++ [kind]) = specials seen := by simp [specials, filterMap_append, plain]
  rw [Misfit, types, count_append, mem_append, mem_singleton, count_singleton]
  unfold Misfit at fits
  grind

theorem misfit_append_special {new : TxType} (fits : ¬ Misfit seen) (special : kind.type = some new) :
    Misfit (seen ++ [kind]) ↔
      ∃ type, (specials seen).head? = some type ∧ ¬ (type = .tokenTransferTx ∧ new = .tokenTransferTx) := by
  have types : specials (seen ++ [kind]) = specials seen ++ [new] := by simp [specials, filterMap_append, special]
  have known := OutputKind.type_known special
  rw [Misfit, types, count_append, mem_append, mem_singleton, count_singleton]
  unfold Misfit at fits
  cases found : specials seen with
  | nil => grind
  | cons type others =>
    simp only [mem_append, mem_cons, or_and_right, exists_or, exists_eq_left, found, head?_cons,
      some.injEq, exists_eq_left'] at fits ⊢
    grind

theorem scanFrom_cons (fits : ¬ Misfit seen) (rest : List OutputKind) :
    (¬ Misfit (seen ++ [kind]) → scanFrom seen (kind :: rest) = scanFrom (seen ++ [kind]) rest) ∧
    (Misfit (seen ++ [kind]) → ∃ cached, scanFrom seen (kind :: rest) = (.errorTx, cached) ∧ cached ≠ .unknownTx ∧
      (cached = .errorTx ↔ kind.quiet = false)) := by
  have types : specials (seen ++ [kind]) = specials seen ++ kind.type.toList := by
    cases special : kind.type <;> simp [specials, filterMap_append, special]
  rw [scanFrom, scanFrom, scanKinds, types, count_append, count_singleton]
  cases special : kind.type with
  | none =>
    have loud : kind.quiet = false := by cases kind <;> first | rfl | cases special
    rw [misfit_append_plain fits special]
    refine ⟨fun fine => ?_, fun bad => ⟨.errorTx, if_pos bad, by decide, by simp [loud]⟩⟩
    simp only [if_neg fine, toList_none, append_nil, beq_iff_eq]
  | some new =>
    have known := OutputKind.type_known special
    rw [misfit_append_special fits special]
    cases found : specials seen with
    | nil => exact ⟨fun _ => by simp [known], fun misfit => by simp at misfit⟩
    | cons type others =>
      have earlier := specials_known (found ▸ mem_cons_self : type ∈ specials seen)
      by_cases transfers : type = .tokenTransferTx ∧ new = .tokenTransferTx
      · exact ⟨fun _ => by simp [known, transfers], fun misfit => by simp [transfers] at misfit⟩
      · refine ⟨fun fine => absurd ⟨type, rfl, transfers⟩ fine, fun _ =>
          ⟨if kind.quiet then type else .errorTx, by simp [earlier, transfers], ?_⟩⟩
        cases kind.quiet <;> simp [earlier]

theorem scanFrom_append (seen rest : List OutputKind) (fits : ¬ Misfit (seen ++ before)) :
    scanFrom seen (before ++ rest) = scanFrom (seen ++ before) rest := by
  induction before generalizing seen with
  | nil => rw [nil_append, append_nil]
  | cons kind before later =>
    rw [← singleton_append, ← append_assoc] at fits ⊢
    have next : ¬ Misfit (seen ++ [kind]) := fun misfit => fits (misfit.append before)
    rw [← later _ fits, ← (scanFrom_cons (fun misfit => next (misfit.append [kind])) _).1 next]
    rfl

theorem scanKinds_fits (fits : ¬ Misfit kinds) : ∃ type, scanKinds kinds .unknownTx 0 = (type, type) ∧
    type = (specials kinds).headD .payToPubkTx ∧ type ≠ .unknownTx ∧ type ≠ .errorTx := by
  have scanned := scanFrom_append [] [] fits
  rw [append_nil, nil_append] at scanned
  rw [show scanKinds kinds .unknownTx 0 = _ from scanned, scanFrom]
  cases found : specials kinds with
  | nil => exact ⟨.payToPubkTx, rfl, rfl, by decide⟩
  | cons type others =>
    have known := specials_known (found ▸ mem_cons_self : type ∈ specials kinds)
    exact ⟨type, by simp [scanKinds, known], rfl, known⟩

theorem scanKinds_misfit {late : OutputKind} (after : List OutputKind) (fits : ¬ Misfit before)
    (misfit : Misfit (before ++ [late])) : ∃ cached, scanKinds (before ++ late :: after) .unknownTx 0 = (.errorTx, cached) ∧
      cached ≠ .unknownTx ∧ (cached = .errorTx ↔ late.quiet = false) := by
  obtain ⟨cached, scanned, rest⟩ := (scanFrom_cons fits after).2 misfit
  exact ⟨cached, (scanFrom_append [] (late :: after) fits).trans scanned, rest⟩

theorem head_specials_perm (fits : ¬ Misfit kinds) (same : rest.Perm kinds) (type : TxType) :
    (specials rest).headD type = (specials kinds).headD type := by
  have types : (specials rest).Perm (specials kinds) := same.filterMap _
  have alike := (not_or.mp (not_or.mp fits).2).2
  generalize specials rest = first at types
  generalize specials kinds = last at types alike
  rcases last with _ | ⟨one, _ | ⟨two, others⟩⟩
  · rw [types.eq_nil]
  · rw [perm_singleton.mp types]
  · cases first with
    | nil => exact absurd types.nil_eq (by simp)
    | cons head tail =>
      have transfer : ∀ other ∈ one :: two :: others, other = .tokenTransferTx := by simpa using alike
      exact (transfer head (types.mem_iff.mp mem_cons_self)).trans (transfer one mem_cons_self).symm

variable {statedb : StateDB} {tx : Transaction} (fresh : tx.type = .unknownTx)
include fresh

theorem parseTxType_scan {type cached : TxType}
    (scanned : scanKinds (tx.vout.map (outputKind statedb)) .unknownTx 0 = (type, cached)) :
    (parseTxType statedb tx).1 = type ∧ (parseTxType statedb tx).2.2 = cached := by
  rw [← fresh, ← parseTxTypeFrom_kinds statedb tx.vout 0 tx.type 0 0] at scanned
  exact Prod.mk.inj scanned

theorem parseTxType_type : (parseTxType statedb tx).1 = if Misfit (tx.vout.map (outputKind statedb)) then .errorTx
    else (specials (tx.vout.map (outputKind statedb))).headD .payToPubkTx := by
  split
  · next misfit =>
    obtain ⟨before, late, after, outputs, fits, short⟩ := misfit.shortest
    obtain ⟨cached, scanned, -⟩ := scanKinds_misfit after fits short
    exact (parseTxType_scan fresh (outputs ▸ scanned)).1
  · next fits =>
    obtain ⟨type, scanned, rfl, -⟩ := scanKinds_fits fits
    exact (parseTxType_scan fresh scanned).1

/-- The type of a transaction is an error if and only if its outputs do not fit together,
and it does not depend on their order. -/
theorem type_of_outputs : ((parseTxType statedb tx).1 = .errorTx ↔ Misfit (tx.vout.map (outputKind statedb))) ∧
      ∀ vouts, vouts.Perm tx.vout → (parseTxType statedb { tx with vout := vouts }).1 = (parseTxType statedb tx).1 := by
  rw [parseTxType_type fresh]
  by_cases misfit : Misfit (tx.vout.map (outputKind statedb))
  · rw [if_pos misfit]
    refine ⟨by simp [misfit], fun vouts same => ?_⟩
    rw [@parseTxType_type statedb { tx with vout := vouts } fresh, if_pos (misfit.perm (same.symm.map _))]
  · rw [if_neg misfit]
    obtain ⟨-, -, rfl, -, standard⟩ := scanKinds_fits misfit
    refine ⟨by simpa [misfit] using standard, fun vouts same => ?_⟩
    rw [@parseTxType_type statedb { tx with vout := vouts } fresh, if_neg fun other => misfit (other.perm (same.map _))]
    exact head_specials_perm misfit (same.map _) _

/-- A call that asks for the type of a transaction. -/
inductive TypeCall where
  | isStandardTx
  | getTxType

def TypeCall.run (statedb : StateDB) (tx : Transaction) : TypeCall → Transaction
  | .isStandardTx => (Boxd.isStandardTx statedb tx).2
  | .getTxType => (Boxd.getTxType statedb tx).2

theorem foldl_typeCall (known : (parseTxType statedb tx).2.2 ≠ .unknownTx) (calls : List TypeCall) :
    calls = [] ∨ calls.foldl (TypeCall.run statedb) tx = { tx with type := (parseTxType statedb tx).2.2 } := by
  induction calls using reverseRecOn with
  | nil => exact .inl rfl
  | append_singleton calls call earlier =>
    right
    rcases earlier with rfl | same
    · cases call <;> simp [TypeCall.run, isStandardTx, getTxType, fresh]
    · cases call <;> simp [TypeCall.run, same, isStandardTx, getTxType, known]

/-- The answers about a transaction stay the same if and only if the first output that does
not fit is not a token transfer or a payment to a contract, whose error is not cached. -/
theorem stable_type_iff : (∀ calls : List TypeCall, (isStandardTx statedb (calls.foldl (TypeCall.run statedb) tx)).1 =
        ((parseTxType statedb tx).1 != .errorTx) ∧
      (getTxType statedb (calls.foldl (TypeCall.run statedb) tx)).1 = (parseTxType statedb tx).1) ↔
    ¬ ∃ before late after, tx.vout.map (outputKind statedb) = before ++ late :: after ∧ ¬ Misfit before ∧
      Misfit (before ++ [late]) ∧ (late = .tokenTransfer ∨ late = .contractPayment) := by
  constructor
  · rintro stable ⟨before, late, after, outputs, fits, misfit, quiet⟩
    obtain ⟨cached, scanned, known, error⟩ := scanKinds_misfit after fits misfit
    obtain ⟨failed, rfl⟩ := parseTxType_scan fresh (outputs ▸ scanned)
    have asked := (stable [.getTxType]).2
    simp only [foldl_cons, foldl_nil, TypeCall.run, getTxType, fresh, ne_eq, not_true_eq_false, if_false,
      known, not_false_eq_true, if_true, failed, error] at asked
    rcases quiet with rfl | rfl <;> cases asked
  · intro loud calls
    have cached : (parseTxType statedb tx).2.2 = (parseTxType statedb tx).1 := by
      by_cases misfit : Misfit (tx.vout.map (outputKind statedb))
      · obtain ⟨before, late, after, outputs, fits, short⟩ := misfit.shortest
        obtain ⟨cached, scanned, -, error⟩ := scanKinds_misfit after fits short
        obtain ⟨failed, rfl⟩ := parseTxType_scan fresh (outputs ▸ scanned)
        rw [failed, error]
        by_contra quiet
        exact loud ⟨before, late, after, outputs, fits, short, by simpa [OutputKind.quiet, or_iff_not_imp_left] using quiet⟩
      · obtain ⟨type, scanned, -⟩ := scanKinds_fits misfit
        obtain ⟨same, cached⟩ := parseTxType_scan fresh scanned
        rw [same, cached]
    have known := (parseTxType_cached statedb tx).1
    rcases foldl_typeCall fresh (cached ▸ known) calls with rfl | same
    · simp [isStandardTx, getTxType, fresh]
    · simp [isStandardTx, getTxType, same, known, cached]

end

def noContracts : StateDB := ⟨fun _ => false, fun _ => none, fun _ => 0, fun _ => 0⟩

theorem sampleTransfers_reordered :
    (parseTxType noContracts (sampleTokenTx [] [7, 5])).1 = (parseTxType noContracts (sampleTokenTx [] [5, 7])).1 :=
  (@type_of_outputs noContracts (sampleTokenTx [] [5, 7]) rfl).2 _ (.swap ..)

theorem transfers_stable :
    (getTxType noContracts ([TypeCall.isStandardTx, .getTxType].foldl (TypeCall.run noContracts)
      (sampleTokenTx [] [5, 7]))).1 = (parseTxType noContracts (sampleTokenTx [] [5, 7])).1 := by
  refine ((stable_type_iff rfl).mpr ?_ _).2
  rintro ⟨before, late, after, outputs, -, misfit, -⟩
  have whole := misfit.append after
  rw [append_assoc, singleton_append, ← outputs] at whole
  exact absurd whole (by decide +kernel)

/-- A token is issued and moved in one transaction. The error is found at the transfer,
when the transaction already has a type. -/
def sampleMixed : Transaction :=
  { sampleTokenTx [] [] with
    vout := [⟨0, issueTokenScript sampleOwner ⟨[65], [65], 21, 0⟩⟩, sampleTokenOut 1 5] }

theorem sampleMixed_passes : (isStandardTx noContracts sampleMixed).1 = false ∧
    (isStandardTx noContracts (isStandardTx noContracts sampleMixed).2).1 = true := by
  decide +kernel

section
variable {header : BlockHeader} {statedb : StateDB} {txs validated : List Transaction} {existing : List OutPoint} {size : Nat}
  (ok : validateTxs header statedb txs existing size = .ok validated)
include ok

/-- Every transaction of an accepted block is a standard one, and keeps the type that
was found. -/
theorem validateTxs_standard :
    validated = txs.map (fun tx => (isStandardTx statedb tx).2) ∧ ∀ tx ∈ txs, (isStandardTx statedb tx).1 = true := by
  induction txs generalizing existing size validated with
  | nil =>
    cases ok
    simp
  | cons tx rest next =>
    obtain ⟨-, -, -, standard, _, others, checked, rfl⟩ := validateTxs_cons ok
    obtain ⟨rfl, later⟩ := next checked
    exact ⟨rfl, forall_mem_cons.mpr ⟨standard, later⟩⟩

theorem validateTxs_known : ∀ tx ∈ validated, tx.type ≠ .unknownTx := by
  obtain ⟨rfl, standard⟩ := validateTxs_standard ok
  intro validated member
  obtain ⟨tx, among, rfl⟩ := mem_map.mp member
  exact isStandardTx_known (standard tx among)

end

end Boxd
