import Boxd.Proofs.ScriptReads

/-! Token scripts: which of those that are recognised can be read, and which of those
that are built are read back. -/

namespace Boxd.Script
open Lib List Outcome

variable {script : Script} {pc : Nat}

/-- Only the last element can be an error. -/
theorem parseFrom_clean_or (fuel : Nat) : (∀ element ∈ parseFrom script fuel pc, element.isError = false) ∨
    ∃ front err, parseFrom script fuel pc = front ++ [.error err] := by
  induction fuel generalizing pc with
  | zero => exact .inl fun _ member => absurd member not_mem_nil
  | succ fuel ih =>
    unfold parseFrom
    split
    · rcases parsed : parseNextOp script pc with ⟨opCode, operand, middle, _ | err⟩
      · rcases @ih middle with clean | ⟨front, err, same⟩
        · left
          cases operand <;> simpa [Element.isError] using clean
        · right
          cases operand <;> exact ⟨_ :: front, err, by simp [same]; rfl⟩
      · exact .inr ⟨[], err, rfl⟩
    · exact .inl fun _ member => absurd member not_mem_nil

/-- What is read of a pay-to-pubkey-hash script. -/
def payToPubKeyHashElements (script : Script) : List Element :=
  [.opCode opDup, .opCode opHash160, .operand ((script.drop 3).take 20), .opCode opEqualVerify, .opCode opCheckSig]

theorem reads_payToPubKeyHash (recognised : script.isPayToPubKeyHash = true) :
    Reads script 0 script.payToPubKeyHashElements script.length := by
  simp only [isPayToPubKeyHash, p2PKHScriptLen, Bool.and_eq_true, beq_iff_eq] at recognised
  obtain ⟨⟨⟨⟨⟨long, first⟩, second⟩, third⟩, fourth⟩, fifth⟩ := recognised
  have byte {n : Nat} {value : UInt8} (inside : n < 25) (same : script.getD n 0 = value) : script[n]? = some value :=
    getElem?_of_getD (by omega) same
  rw [long]
  exact .next (parseNextOp_plain (byte (by decide) first) (by decide)) <|
    .next (parseNextOp_plain (byte (by decide) second) (by decide)) <|
    .next (parseNextOp_direct (byte (by decide) third) (by decide) (by rw [long]; decide)) <|
    .next (parseNextOp_plain (byte (by decide) fourth) (by decide)) <|
    .next (parseNextOp_plain (byte (by decide) fifth) (by decide)) (.done 25)

/-- The parameters of a token script, as they are parsed. -/
def tokenElements (script : Script) : List Element := parse (script.drop p2PKHScriptLen)

/-- The value of the n-th parameter. -/
def tokenValue (script : Script) (n : Nat) : Operand := (script.tokenElements.getD (4 * n + 2) (.opCode 0)).data

theorem tokenElements_last {keys : List Bytes} (some_ : keys ≠ []) (recognised : isTokenScript keys script = true) :
    isPayToPubKeyHash (script.take p2PKHScriptLen) = true ∧ script.tokenElements.length = 4 * keys.length ∧
      ∃ front, script.tokenElements = front ++ [.opCode opDrop] := by
  unfold isTokenScript at recognised
  split_ifs at recognised with short other
  simp only [Bool.and_eq_true, beq_iff_eq, all_eq_true] at recognised
  obtain ⟨count, each⟩ := recognised
  have positive := length_pos_of_ne_nil some_
  have last : script.tokenElements.getD (4 * (keys.length - 1) + 3) (.opCode 0) = .opCode opDrop :=
    (each (keys[keys.length - 1], keys.length - 1) (mk_mem_zipIdx_iff_getElem?.mpr (by simp))).2
  change script.tokenElements.length = _ at count
  rw [show 4 * (keys.length - 1) + 3 = script.tokenElements.length - 1 by omega, getD_eq_getElem?_getD,
    getElem?_eq_getElem (by omega), Option.getD_some] at last
  have filled : script.tokenElements ≠ [] := ne_nil_of_length_pos (by omega)
  refine ⟨by simpa using other, count, script.tokenElements.dropLast, ?_⟩
  rw [← last, ← getLast_eq_getElem filled, dropLast_append_getLast]

theorem reads_tokenScript {keys : List Bytes} (some_ : keys ≠ []) (recognised : isTokenScript keys script = true) :
    Reads script 0 (payToPubKeyHashElements (script.take p2PKHScriptLen) ++ script.tokenElements) script.length ∧
      script.tokenElements.length = 4 * keys.length := by
  obtain ⟨paid, count, front, same⟩ := tokenElements_last some_ recognised
  have complete : Complete (script.drop p2PKHScriptLen) := by
    refine (parseFrom_clean_or _).resolve_right ?_
    rintro ⟨other, err, failed⟩
    exact absurd (congrArg getLast? (same.symm.trans failed)) (by simp)
  have whole := (reads_payToPubKeyHash paid).concat (reads_parse complete)
  rw [take_append_drop] at whole
  exact ⟨whole, count⟩

theorem tokenValue_length {n : Nat} : (script.tokenValue n).length ≤ 0xffff := by
  unfold tokenValue
  rw [getD_eq_getElem?_getD]
  cases found : script.tokenElements[4 * n + 2]? with
  | none => exact Nat.zero_le _
  | some element => exact parseFrom_short _ _ (mem_of_getElem? found)

variable {last n : Nat}

theorem firstValue {front : List Element} (reads : Reads script 0 (front ++ script.tokenElements) last)
    (long : front.length = 5) (inside : 2 < script.tokenElements.length) :
    ∃ middle, script.nthOperand 0 7 = .ok (script.tokenValue 0, middle) ∧
      Reads script middle (script.tokenElements.drop 3) last := by
  obtain ⟨middle, found, rest⟩ := reads.nthOperand (n := 7) (by rw [length_append]; omega)
  refine ⟨middle, ?_, ?_⟩
  · rw [found, tokenValue, getElem_append_right (by omega), getD_eq_getElem?_getD,
      getElem?_eq_getElem inside]
    simp only [long]
    rfl
  · rwa [drop_append, long, drop_of_length_le (by omega), nil_append] at rest

theorem nextValue (reads : Reads script pc (script.tokenElements.drop (4 * n + 3)) last)
    (inside : 4 * (n + 1) + 2 < script.tokenElements.length) :
    ∃ middle, script.nthOperand pc 3 = .ok (script.tokenValue (n + 1), middle) ∧
      Reads script middle (script.tokenElements.drop (4 * (n + 1) + 3)) last := by
  obtain ⟨middle, found, rest⟩ := reads.nthOperand (n := 3) (by rw [length_drop]; omega)
  refine ⟨middle, ?_, ?_⟩
  · rw [found, tokenValue, getElem_drop, getD_eq_getElem?_getD,
      getElem?_eq_getElem inside]
    rfl
  · rwa [drop_drop] at rest

theorem littleEndian_ok_iff {width value : Nat} {operand : Operand} :
    littleEndian width operand = .ok value ↔ width ≤ operand.length ∧ natLE (operand.take width) = value := by
  unfold littleEndian
  split
  next short => exact iff_of_false (fun same => by cases same) (by omega)
  next long => simp [Nat.not_lt.mp long]

theorem getTransferParams_ok_iff {params : TransferParams} (recognised : script.isTokenTransfer = true) :
    script.getTransferParams = .ok params ↔
      (32 ≤ (script.tokenValue 0).length ∧ 4 ≤ (script.tokenValue 1).length ∧ 8 ≤ (script.tokenValue 2).length) ∧
      params = ⟨⟨.copy 32 (script.tokenValue 0), .ofNat (natLE ((script.tokenValue 1).take 4))⟩,
        .ofNat (natLE ((script.tokenValue 2).take 8))⟩ := by
  obtain ⟨reads, count⟩ := reads_tokenScript (by simp) recognised
  simp only [length_cons, length_nil] at count
  obtain ⟨first, hash, reads⟩ := firstValue reads rfl (by omega)
  obtain ⟨second, index, reads⟩ := nextValue (n := 0) reads (by omega)
  obtain ⟨third, amount, -⟩ := nextValue (n := 1) reads (by omega)
  simp only [getTransferParams, hash, index, amount, lift, ok_bind, ite_fail_ok_iff, bind_ok_iff,
    littleEndian_ok_iff, Nat.not_lt]
  constructor
  · rintro ⟨long, _, ⟨indexed, rfl⟩, _, ⟨counted, rfl⟩, same⟩
    exact ⟨⟨long, indexed, counted⟩, (Except.ok.inj same).symm⟩
  · rintro ⟨⟨long, indexed, counted⟩, rfl⟩
    exact ⟨long, _, ⟨indexed, rfl⟩, _, ⟨counted, rfl⟩, rfl⟩

theorem getIssueParams_ok_iff {params : IssueParams} (recognised : script.isTokenIssue = true) :
    script.getIssueParams = .ok params ↔
      8 ≤ (script.tokenValue 2).length ∧ (script.tokenValue 3).head? = some params.decimals ∧
      params.name = script.tokenValue 0 ∧ params.symbol = script.tokenValue 1 ∧
      params.totalSupply = .ofNat (natLE ((script.tokenValue 2).take 8)) := by
  obtain ⟨reads, count⟩ := reads_tokenScript (by simp) recognised
  simp only [length_cons, length_nil] at count
  obtain ⟨first, name, reads⟩ := firstValue reads rfl (by omega)
  obtain ⟨second, symbol, reads⟩ := nextValue (n := 0) reads (by omega)
  obtain ⟨third, supply, reads⟩ := nextValue (n := 1) reads (by omega)
  obtain ⟨fourth, decimals, -⟩ := nextValue (n := 2) reads (by omega)
  simp only [getIssueParams, name, symbol, supply, decimals, lift, ok_bind, bind_ok_iff,
    littleEndian_ok_iff, expect_ok_iff]
  constructor
  · rintro ⟨_, ⟨long, rfl⟩, _, present, same⟩
    cases same
    exact ⟨long, present, rfl, rfl, rfl⟩
  · rcases params with ⟨_, _, _, _⟩
    rintro ⟨long, present, rfl, rfl, rfl⟩
    exact ⟨_, ⟨long, rfl⟩, _, present, rfl⟩

variable {params : List (Bytes × Bytes)}

def addParams (script : Script) (params : List (Bytes × Bytes)) : Script :=
  params.foldl (fun script param => addParam script param.1 param.2) script

theorem addParams_append (front : Script) (params : List (Bytes × Bytes)) :
    addParams front params = front ++ addParams [] params := by
  induction params generalizing front with
  | nil => simp [addParams]
  | cons param params ih =>
    change addParams (addParam _ _ _) params = front ++ addParams (addParam _ _ _) params
    rw [ih, ih (addParam [] _ _)]
    simp [addParam, addOperand, addOpCode]

def paramElements (params : List (Bytes × Bytes)) : List Element :=
  params.flatMap fun param => [.operand param.1, .opCode opDrop, .operand param.2, .opCode opDrop]

theorem reads_params (short : ∀ param ∈ params, param.1.length ≤ 0xffff ∧ param.2.length ≤ 0xffff) :
    Reads (addParams [] params) 0 (paramElements params) (addParams [] params).length := by
  induction params using reverseRecOn with
  | nil => exact .done 0
  | append_singleton params param ih =>
    have before := ih fun other member => short other (mem_append_left _ member)
    obtain ⟨key, value⟩ := short param (mem_append_right _ (mem_singleton_self _))
    have longer := (((before.addOperand key).addOpCode (show opPushData4 < opDrop by decide)).addOperand value).addOpCode
      (show opPushData4 < opDrop by decide)
    simpa [addParams, paramElements, foldl_append, flatMap_append, addParam] using longer

theorem payToPubKeyHashScript_recognised (addrHash : AddressHash) :
    (payToPubKeyHashScript addrHash).isPayToPubKeyHash = true ∧ (payToPubKeyHashScript addrHash).length = p2PKHScriptLen := by
  have own := addrHash.length_eq
  simp [isPayToPubKeyHash, payToPubKeyHashScript, addOpCode, addOperand, operandHeader, own, p2PKHScriptLen,
    getD_eq_getElem?_getD, opPushData1, ripemd160Size]

variable (addrHash : AddressHash)

theorem tokenElements_built (short : ∀ param ∈ params, param.1.length ≤ 0xffff ∧ param.2.length ≤ 0xffff) :
    (addParams (payToPubKeyHashScript addrHash) params).tokenElements = paramElements params := by
  rw [tokenElements, addParams_append, drop_left' (payToPubKeyHashScript_recognised addrHash).2]
  exact (reads_params short).parse

theorem isTokenScript_built (keys : List Bytes)
    (short : ∀ param ∈ params, param.1.length ≤ 0xffff ∧ param.2.length ≤ 0xffff) :
    isTokenScript keys (addParams (payToPubKeyHashScript addrHash) params) =
      ((paramElements params).length == 4 * keys.length && keys.zipIdx.all fun (key, i) =>
        (paramElements params).getD (4 * i) (.opCode 0) == .operand key &&
          (paramElements params).getD (4 * i + 1) (.opCode 0) == .opCode opDrop &&
          (paramElements params).getD (4 * i + 3) (.opCode 0) == .opCode opDrop) := by
  obtain ⟨recognised, size⟩ := payToPubKeyHashScript_recognised addrHash
  have elements := tokenElements_built addrHash short
  rw [tokenElements] at elements
  have long : ¬ (addParams (payToPubKeyHashScript addrHash) params).length < p2PKHScriptLen := by
    rw [addParams_append, length_append]
    omega
  have front : (addParams (payToPubKeyHashScript addrHash) params).take p2PKHScriptLen = payToPubKeyHashScript addrHash := by
    rw [addParams_append]
    exact take_left' size
  simp only [isTokenScript, long, front, recognised, elements, if_false, Bool.not_true, Bool.false_eq_true]

def transferEntries (transfer : TransferParams) : List (Bytes × Bytes) :=
  [(tokenTxHashKey, transfer.tokenID.hash.bytes), (tokenTxOutIdxKey, bytesLE 4 transfer.tokenID.index.toNat),
    (tokenAmountKey, bytesLE 8 transfer.amount.toNat)]

theorem transferTokenScript_read (transfer : TransferParams) :
    (transferTokenScript addrHash transfer).isTokenTransfer = true ∧
      (transferTokenScript addrHash transfer).getTransferParams = .ok transfer := by
  have short : ∀ param ∈ transferEntries transfer, param.1.length ≤ 0xffff ∧ param.2.length ≤ 0xffff := by
    simp [transferEntries, transfer.tokenID.hash.length_eq, tokenTxHashKey, tokenTxOutIdxKey, tokenAmountKey]
  have built : transferTokenScript addrHash transfer =
      addParams (payToPubKeyHashScript addrHash) (transferEntries transfer) := rfl
  have elements := tokenElements_built addrHash short
  have recognised := isTokenScript_built addrHash [tokenTxHashKey, tokenTxOutIdxKey, tokenAmountKey] short
  rw [← built] at elements recognised
  replace recognised : (transferTokenScript addrHash transfer).isTokenTransfer = true := by
    rw [isTokenTransfer, recognised]
    simp [paramElements, transferEntries]
  refine ⟨recognised, (getTransferParams_ok_iff recognised).mpr ?_⟩
  simp [tokenValue, elements, paramElements, transferEntries, Element.data, transfer.tokenID.hash.length_eq,
    take_of_length_le, natLE_bytesLE, FixedBytes.copy_bytes]

def issueEntries (issue : IssueParams) : List (Bytes × Bytes) :=
  [(tokenNameKey, issue.name), (tokenSymbolKey, issue.symbol), (tokenAmountKey, bytesLE 8 issue.totalSupply.toNat),
    (tokenDecimalsKey, [issue.decimals])]

theorem issueTokenScript_read_iff (issue : IssueParams) : ((issueTokenScript addrHash issue).isTokenIssue = true ∧
      (issueTokenScript addrHash issue).getIssueParams = .ok issue) ↔
      issue.name.length ≤ 0xffff ∧ issue.symbol.length ≤ 0xffff := by
  constructor
  · rintro ⟨recognised, read⟩
    obtain ⟨-, -, name, symbol, -⟩ := (getIssueParams_ok_iff recognised).mp read
    rw [name, symbol]
    exact ⟨tokenValue_length, tokenValue_length⟩
  · rintro ⟨name, symbol⟩
    have short : ∀ param ∈ issueEntries issue, param.1.length ≤ 0xffff ∧ param.2.length ≤ 0xffff := by
      simp [issueEntries, name, symbol, tokenNameKey, tokenSymbolKey, tokenAmountKey, tokenDecimalsKey]
    have built : issueTokenScript addrHash issue =
        addParams (payToPubKeyHashScript addrHash) (issueEntries issue) := rfl
    have elements := tokenElements_built addrHash short
    have recognised := isTokenScript_built addrHash
      [tokenNameKey, tokenSymbolKey, tokenAmountKey, tokenDecimalsKey] short
    rw [← built] at elements recognised
    replace recognised : (issueTokenScript addrHash issue).isTokenIssue = true := by
      rw [isTokenIssue, recognised]
      simp [paramElements, issueEntries]
    refine ⟨recognised, (getIssueParams_ok_iff recognised).mpr ?_⟩
    simp [tokenValue, elements, paramElements, issueEntries, Element.data, take_of_length_le, natLE_bytesLE]

/-- Recognised token scripts can be read exactly when the values of fixed width are long enough. What is
built for a transfer is always read back; for an issue that depends on the lengths of its name and symbol. -/
theorem token_scripts_read (script : Script) (addrHash : AddressHash) (transfer : TransferParams) (issue : IssueParams) :
    (script.isTokenTransfer = true → ((∃ params, script.getTransferParams = .ok params) ↔
      32 ≤ (script.tokenValue 0).length ∧ 4 ≤ (script.tokenValue 1).length ∧ 8 ≤ (script.tokenValue 2).length)) ∧
    (script.isTokenIssue = true → ((∃ params, script.getIssueParams = .ok params) ↔
      8 ≤ (script.tokenValue 2).length ∧ 1 ≤ (script.tokenValue 3).length)) ∧
    ((transferTokenScript addrHash transfer).isTokenTransfer = true ∧
      (transferTokenScript addrHash transfer).getTransferParams = .ok transfer) ∧
    (((issueTokenScript addrHash issue).isTokenIssue = true ∧
      (issueTokenScript addrHash issue).getIssueParams = .ok issue) ↔
      issue.name.length ≤ 0xffff ∧ issue.symbol.length ≤ 0xffff) := by
  refine ⟨fun recognised => ?_, fun recognised => ?_, transferTokenScript_read addrHash transfer,
    issueTokenScript_read_iff addrHash issue⟩
  · simp only [getTransferParams_ok_iff recognised, exists_and_left, exists_eq, and_true]
  · simp only [getIssueParams_ok_iff recognised, exists_and_left]
    constructor
    · rintro ⟨long, params, decimals, -⟩
      exact ⟨long, length_pos_of_ne_nil fun empty => by simp [empty] at decimals⟩
    · rintro ⟨long, some_⟩
      obtain ⟨decimals, rest, same⟩ := exists_cons_of_length_pos some_
      exact ⟨long, ⟨_, _, _, decimals⟩, by rw [same]; rfl, rfl, rfl, rfl⟩

/-- A transfer whose index and amount have the given bytes. -/
def rawTransfer (index amount : Bytes) : Script :=
  addParams (payToPubKeyHashScript zeroAddressHash)
    [(tokenTxHashKey, replicate 32 0), (tokenTxOutIdxKey, index), (tokenAmountKey, amount)]

theorem zero_transfer_read :
    ∃ params, (rawTransfer [0, 0, 0, 0] [0, 0, 0, 0, 0, 0, 0, 0]).getTransferParams = .ok params :=
  ((token_scripts_read _ zeroAddressHash ⟨⟨.fill 32 0, 0⟩, 0⟩ ⟨[], [], 0, 0⟩).1 (by decide +kernel)).mpr (by decide +kernel)

/-- A recognised transfer without an index makes the node panic. -/
theorem indexless_transfer_panics :
    (rawTransfer [] []).isTokenTransfer = true ∧ (rawTransfer [] []).getTransferParams = .panicked := by
  decide +kernel

end Boxd.Script
