import Boxd.Proofs.CommitLoops

/-! Committed state can be reopened: after a run of calls as the EVM makes them and a commit,
the database that is opened with the returned roots shows what the live one shows. -/

namespace Boxd.WorldState
open Lib List Option StateObject WorldState.StateDB Function

variable {codes : Set Bytes} {addr : AddressHash}

/-- The storage and the code of every account of a trie are in the database, and codes stand
under their hashes. -/
structure Stored (env : Env) (db : Database) (trie : Content) : Prop where
  codes : ∀ hash code, db.codes.lookup hash = some code → env.keccak256 code = hash
  storage : ∀ addr data, accountAt env trie addr = some data →
    ∃ content, newTrie env db data.root = some content ∧ Readable env content
  code : ∀ addr data, accountAt env trie addr = some data → HasCode env db data.codeHash

/-- The byte strings that are hashed as code: the empty one, those of the database, and those
that are set. -/
def codesOf (db : Database) (calls : List Call) : Set Bytes :=
  {code | code = [] ∨ (∃ hash, db.codes.lookup hash = some code) ∨ ∃ addr, .setCode addr (some code) ∈ calls}

/-- Databases that show the same accounts. Code that is nil shows as empty. -/
structure SameAccounts (env : Env) (s t : StateDB) : Prop where
  exist : ∀ addr, (s.exist env addr).1 = (t.exist env addr).1
  balance : ∀ addr, (s.getBalance env addr).1 = (t.getBalance env addr).1
  nonce : ∀ addr, (s.getNonce env addr).1 = (t.getNonce env addr).1
  code : ∀ addr, (s.getCode env addr).1.getD [] = (t.getCode env addr).1.getD []
  state : ∀ addr key, (s.getState env addr key).1 = (t.getState env addr key).1

section Accounts

variable {env : Env} {codes : Set Bytes} {db : Database} {content : Content} {obj : StateObject}

structure SameAccount (left right : AccountView) : Prop where
  nonce : left.nonce = right.nonce
  balance : left.balance = right.balance
  code : left.code.getD [] = right.code.getD []
  storage : left.storage = right.storage

theorem SameAccount.rel_refl (seen : Option AccountView) : Rel SameAccount seen seen := by
  cases seen with
  | none => exact .none
  | some account => exact .some ⟨rfl, rfl, rfl, rfl⟩

private theorem getD_map_eq {α : Type} {left right : Option AccountView} (same : Rel SameAccount left right)
    {field : AccountView → α} (missing : α) (fields : ∀ first second, SameAccount first second → field first = field second) :
    (left.map field).getD missing = (right.map field).getD missing := by
  cases same with
  | none => rfl
  | some related => exact fields _ _ related

theorem SameAccounts.of_accounts {s t : StateDB} (ofLeft : s.Sound env) (ofRight : t.Sound env)
    (same : ∀ addr, Rel SameAccount (s.account env addr) (t.account env addr)) : SameAccounts env s t := by
  have codes (seen : Option AccountView) :
      ((seen.map (·.code)).getD none).getD [] = (seen.map fun account => account.code.getD []).getD [] := by
    cases seen <;> rfl
  refine ⟨?_, ?_, ?_, ?_, ?_⟩
  · intro addr
    have related := same addr
    rw [exist_eq ofLeft, exist_eq ofRight]
    revert related
    generalize s.account env addr = left
    generalize t.account env addr = right
    intro related
    cases related <;> rfl
  · intro addr
    rw [getBalance_eq ofLeft, getBalance_eq ofRight]
    exact getD_map_eq (same addr) 0 fun _ _ related => related.balance
  · intro addr
    rw [getNonce_eq ofLeft, getNonce_eq ofRight]
    exact getD_map_eq (same addr) 0 fun _ _ related => related.nonce
  · intro addr
    rw [getCode_eq ofLeft, getCode_eq ofRight, codes, codes]
    exact getD_map_eq (same addr) [] fun _ _ related => related.code
  · intro addr key
    rw [getState_eq ofLeft, getState_eq ofRight]
    exact getD_map_eq (same addr) zeroHash fun _ _ related => congrFun related.storage key

namespace Backed

section
variable (backed : Backed env db codes content obj)
include backed

theorem reloaded (kept : obj.dirtyCode = false ∨ obj.code = none)
    (addr : AddressHash) : Backed env db codes content (.newObject addr obj.data) where
  root := backed.root
  readable := backed.readable
  trie := nofun
  origin := nofun
  dirty := fun _ _ => rfl
  noErr := rfl
  code := nofun
  kept := nofun
  missing := by
    intro _
    rcases eq_none_or_eq_some obj.code with missing | ⟨code, cached⟩
    · exact backed.missing missing
    · have clean := kept.resolve_right (by simp [cached])
      by_cases empty : obj.data.codeHash = env.emptyCodeHash
      · exact .inl empty
      · refine .inr ⟨code, ?_, backed.kept clean code cached⟩
        rintro rfl
        exact empty (backed.code [] cached).1.symm

theorem codeSeen_reloaded (hashes : Set.InjOn env.keccak256 codes) (listed : [] ∈ codes)
    (kept : obj.dirtyCode = false ∨ obj.code = none) (addr : AddressHash) :
    (obj.codeSeen env db).getD [] = ((newObject addr obj.data).codeSeen env db).getD [] := by
  rcases eq_none_or_eq_some obj.code with missing | ⟨code, cached⟩
  · rw [codeSeen, missing]
    rfl
  · have clean := kept.resolve_right (by simp [cached])
    obtain ⟨named, among⟩ := backed.code code cached
    by_cases empty : obj.data.codeHash = env.emptyCodeHash
    · have none : code = [] := hashes among listed (named.trans empty)
      simp [codeSeen, newObject, cached, empty, none]
    · simp [codeSeen, newObject, cached, empty, backed.kept clean code cached]

/-- What is seen of an object that is committed is seen of it when it is loaded anew. -/
theorem sameAccount (hashes : Set.InjOn env.keccak256 codes) (listed : [] ∈ codes)
    (kept : obj.dirtyCode = false ∨ obj.code = none)
    (clean : ∀ key, obj.dirtyStorage.lookup key = none) (addr : AddressHash) :
    SameAccount (obj.view env db) ((newObject addr obj.data).view env db) where
  nonce := rfl
  balance := rfl
  code := backed.codeSeen_reloaded hashes listed kept addr
  storage := by
    have later := backed.reloaded kept addr
    change obj.storage env db = (newObject addr obj.data).storage env db
    funext key
    rw [backed.storage_eq, later.storage_eq, clean]
    rfl

end

end Backed

end Accounts

namespace StateDB

variable {env : Env} {db : Database} {rootHash utxoRootHash : Option HashType} {s : StateDB}

theorem new_eq_some (opened : new env rootHash utxoRootHash db = some s) :
    newTrie env db (rootHash.getD zeroHash) = some s.trie ∧ newTrie env db (utxoRootHash.getD zeroHash) = some s.utxoTrie ∧
      s.db = db ∧ (∀ addr, s.stateObjects.lookup addr = none) ∧ (∀ addr, s.stateObjectsDirty.lookup addr = none) ∧
      s.entries = [] ∧ s.validRevisions = [] ∧ s.dirties = ∅ := by
  simp only [new, bind_eq_bind, bind_eq_some_iff] at opened
  obtain ⟨trie, first, utxoTrie, second, same⟩ := opened
  cases same
  exact ⟨first, second, rfl, fun _ => rfl, fun _ => rfl, rfl, rfl, rfl⟩

theorem Stored.complete {trie : Content} (stored : Stored env db trie)
    (listed : ∀ hash code, db.codes.lookup hash = some code → code ∈ codes) : Complete env codes db trie where
  consistent hash code found := ⟨stored.codes hash code found, listed hash code found⟩
  accounts addr data at_ := by
    obtain ⟨content, opened, readable⟩ := stored.storage addr data at_
    exact ⟨content, opened, readable, nofun, nofun, fun _ _ => rfl, rfl, nofun, nofun, fun _ => stored.code addr data at_⟩

theorem Complete.stored {trie : Content} (complete : Complete env codes db trie) : Stored env db trie where
  codes hash code found := (complete.consistent hash code found).1
  storage addr data at_ := by
    obtain ⟨content, backed⟩ := complete.accounts addr data at_
    exact ⟨content, backed.root, backed.readable⟩
  code addr data at_ := by
    obtain ⟨content, backed⟩ := complete.accounts addr data at_
    exact backed.missing rfl

theorem InRun.opened (opened : new env rootHash utxoRootHash db = some s)
    (complete : Complete env codes db s.trie) : InRun env codes s s := by
  obtain ⟨-, -, same, objects, dirty, entries, revisions, dirties⟩ := new_eq_some opened
  refine ⟨new_sound opened, ⟨?_, ?_, ?_, ?_, ?_, dirty⟩, rfl, rfl, rfl, ?_, ⟨?_, ?_, ?_⟩⟩
  · rw [same]
    exact complete
  · intro addr obj live
    rw [objects] at live
    cases live
  · simp [entries]
  · rw [entries]
    trivial
  · simp [entries, dirties, Table.amount_empty]
  · rw [entries]
    rfl
  · change Covered s.entries
    rw [entries]
    exact .nil
  · simp [journaled, revisions]
  · simp [journaled, revisions]

section Closing

variable {codes : Set Bytes} {live t : StateDB}

theorem account_of_live {obj : StateObject} (found : live.stateObjects.lookup addr = some obj)
    (alive : obj.deleted = false) : live.account env addr = some (obj.view env live.db) := by
  simp only [account, found, seen_alive alive]

theorem account_unloaded (absent : live.stateObjects.lookup addr = none) : live.account env addr =
      (accountAt env live.trie addr).map fun data => (newObject addr data).view env live.db := by
  simp only [account, absent]

theorem InRun.clean (run : InRun env codes s live) (fresh : ∀ addr, s.stateObjects.lookup addr = none)
    (clean : live.dirties.lookup addr = none) {obj : StateObject}
    (found : live.stateObjects.lookup addr = some obj) :
    ∃ data, accountAt env live.trie addr = some data ∧
      obj.view env live.db = (newObject addr data).view env live.db := by
  obtain ⟨-, alive, -⟩ := run.kept.objects addr obj found
  have seen := run.account_eq clean
  rw [account_of_live found alive, account_unloaded (fresh addr), run.db, ← run.trie] at seen
  obtain ⟨data, at_, same⟩ := map_eq_some_iff.mp seen.symm
  rw [run.db]
  exact ⟨data, at_, same.symm⟩

theorem Closed.reopened (lawful : env.Lawful) (hashes : Set.InjOn env.keccak256 codes) (listed : [] ∈ codes) {del : Bool}
    (run : InRun env codes s live) (fresh : ∀ addr, s.stateObjects.lookup addr = none)
    (distinct : t.db.Distinct env) (grown : live.db.Extends t.db)
    (closed : Closed env codes del t.db (live.dirties.lookup addr).isSome (live.cell env addr) (t.cell env addr)) :
    Rel SameAccount (t.account env addr)
        ((accountAt env t.trie addr).map fun data => (newObject addr data).view env t.db) ∧
      (∀ data, accountAt env t.trie addr = some data →
        ∃ content, Backed env t.db codes content (.newObject addr data)) ∧
      ∀ obj, t.stateObjects.lookup addr = some obj →
        obj.address = addr ∧ (obj.deleted = true → accountAt env t.trie addr = none) := by
  have kept (data : Account) (at_ : accountAt env live.trie addr = some data) :
      ∃ content, Backed env t.db codes content (.newObject addr data) := by
    obtain ⟨content, backed⟩ := run.kept.complete.accounts addr data at_
    exact ⟨content, backed.mono lawful distinct grown⟩
  have before : live.stateObjects.lookup addr = (live.cell env addr).object := rfl
  have after : t.stateObjects.lookup addr = (t.cell env addr).object := rfl
  have storedBefore : accountAt env live.trie addr = (live.cell env addr).stored := rfl
  have storedAfter : accountAt env t.trie addr = (t.cell env addr).stored := rfl
  revert closed before after storedBefore storedAfter
  generalize live.cell env addr = first
  generalize t.cell env addr = last
  intro closed before after storedBefore storedAfter
  cases closed with
  | absent =>
    refine ⟨?_, ?_, ?_⟩
    · rw [account_unloaded after]
      exact SameAccount.rel_refl _
    · rw [storedAfter, ← storedBefore]
      exact kept
    · intro obj found
      cases after.symm.trans found
  | @clean obj _ unchanged =>
    have undirtied : live.dirties.lookup addr = none := by simpa using unchanged
    obtain ⟨data, at_, same⟩ := run.clean fresh undirtied before
    obtain ⟨address, alive, content, backed⟩ := run.kept.objects addr obj before
    obtain ⟨reloaded, loads⟩ := run.kept.complete.accounts addr data at_
    have stored := storedAfter.trans (storedBefore.symm.trans at_)
    refine ⟨?_, ?_, ?_⟩
    · rw [account_of_live after alive, stored, map_some, backed.view_mono lawful distinct grown, same,
        loads.view_mono lawful distinct grown]
      exact SameAccount.rel_refl _
    · rw [storedAfter, ← storedBefore]
      exact kept
    · intro other found
      obtain rfl := some.inj (after.symm.trans found)
      refine ⟨address, ?_⟩
      intro marked
      rw [alive] at marked
      cases marked
  | @deleted obj _ changed doomed =>
    obtain ⟨address, -, -⟩ := run.kept.objects addr obj before
    refine ⟨?_, ?_, ?_⟩
    · have gone : t.account env addr = none := by simp [account, after, seen]
      rw [gone, storedAfter]
      exact .none
    · intro data at_
      rw [storedAfter] at at_
      cases at_
    · intro other found
      obtain rfl := some.inj (after.symm.trans found)
      exact ⟨address, fun _ => storedAfter⟩
  | @written obj done _ content changed spared _ settles backed keeps =>
    obtain ⟨address, alive, -⟩ := run.kept.objects addr obj before
    have remains : done.deleted = false := settles.deleted.trans alive
    refine ⟨?_, ?_, ?_⟩
    · rw [account_of_live after remains, storedAfter, map_some]
      exact .some (backed.sameAccount hashes listed keeps settles.clean addr)
    · rw [storedAfter]
      rintro _ ⟨⟩
      exact ⟨_, backed.reloaded keeps addr⟩
    · intro other found
      obtain rfl := some.inj (after.symm.trans found)
      refine ⟨settles.address.trans address, ?_⟩
      intro marked
      rw [remains] at marked
      cases marked

end Closing

/-- A state that was opened from roots whose accounts are all there, after any calls as the
EVM makes them, is committed without an error, and the database that is opened with the
returned roots shows the accounts of the live one. Its accounts are again all there, and the live
one is sound again, so that its next snapshots are exact. -/
theorem commit_reopens (lawful : env.Lawful) (opened : new env rootHash utxoRootHash db = some s)
    (stored : Stored env db s.trie) (calls : List Call) (evm : EvmCalls env s calls)
    (hashes : Set.InjOn env.keccak256 (codesOf db calls))
    (covered : ∀ addr, 0 ≤ ((s.run env calls).getBalance env addr).1) (del : Bool)
    (distinct : ((s.run env calls).commit env del).2.db.Distinct env) :
    ∃ roots t, (s.run env calls).commit env del = (.ok roots, t) ∧ t.Sound env ∧
      ∃ u, new env roots.1 roots.2 t.db = some u ∧ SameAccounts env t u ∧ Stored env t.db u.trie := by
  have complete : Complete env (codesOf db calls) db s.trie :=
    Stored.complete stored fun hash code found => .inr (.inl ⟨hash, found⟩)
  have run : InRun env (codesOf db calls) s (s.run env calls) :=
    .of_calls evm (.opened opened complete) fun addr bytes member => .inr (.inr ⟨addr, member⟩)
  generalize s.run env calls = live at run covered distinct ⊢
  obtain ⟨opens, utxoOpens, sameDb, fresh, -⟩ := new_eq_some opened
  have balances (addr : AddressHash) (obj : StateObject) (found : live.stateObjects.lookup addr = some obj) :
      0 ≤ obj.data.balance := by
    obtain ⟨-, alive, -⟩ := run.kept.objects addr obj found
    have balance := covered addr
    rw [getBalance_eq run.sound, account_of_live found alive] at balance
    exact balance
  have alive (addr : AddressHash) (obj : StateObject) (clean : live.dirties.lookup addr = none)
      (found : live.stateObjects.lookup addr = some obj) : obj.suicided = false := by
    obtain ⟨data, -, same⟩ := run.clean fresh clean found
    exact congrArg AccountView.suicided same
  obtain ⟨t, committed, grown, consistent, rooted, utxoTrie, entries, revisions, closed⟩ :=
    commit_spec lawful hashes run.kept balances alive distinct
  rw [committed] at distinct ⊢
  have dbs : live.db = db := run.db.trans sameDb
  have before : db.Distinct env := distinct.mono (dbs ▸ grown.tries)
  have opened' (addr : AddressHash) := (closed addr).reopened lawful hashes (.inl rfl) run fresh distinct grown
  -- Both roots are those of tries that are stored.
  have reopens : newTrie env t.db ((env.rootHash t.trie).getD zeroHash) = some t.trie := by
    refine (newTrie_eq_some_iff lawful distinct).mpr ⟨rfl, rooted ?_⟩
    unfold Rooted
    rw [run.trie, dbs]
    exact ((newTrie_eq_some_iff lawful before).mp opens).2
  have utxoReopens : newTrie env t.db ((env.rootHash t.utxoTrie).getD zeroHash) = some t.utxoTrie := by
    refine (newTrie_eq_some_iff lawful distinct).mpr ⟨rfl, ?_⟩
    rw [utxoTrie, run.utxoTrie]
    exact ((newTrie_eq_some_iff lawful before).mp utxoOpens).2.imp_right (dbs ▸ grown.tries _)
  obtain ⟨u, reopened⟩ : ∃ u, new env (env.rootHash t.trie) (env.rootHash t.utxoTrie) t.db = some u := by
    simp [new, reopens, utxoReopens]
  obtain ⟨trie, -, reopenedDb, unloaded, -⟩ := new_eq_some reopened
  have trie : u.trie = t.trie := some.inj (trie.symm.trans reopens)
  have sound : t.Sound env := by
    refine ⟨?_, ?_, by simp [entries], by simp [revisions]⟩
    · exact fun addr obj found => ((opened' addr).2.2 obj found).1
    · exact fun addr obj found => ((opened' addr).2.2 obj found).2
  refine ⟨_, t, rfl, sound, u, reopened, ?_, ?_⟩
  · refine .of_accounts sound (new_sound reopened) fun addr => ?_
    rw [account_unloaded (unloaded addr), trie, reopenedDb]
    exact (opened' addr).1
  · rw [trie]
    exact Complete.stored ⟨consistent, fun addr => (opened' addr).2.1⟩

section Sample

/-- Plain encodings, with roots that tell the tries of the sample apart. -/
def plainEnv : Env where
  keccak256 bytes := .copy 32 bytes
  rootHash content :=
    if content ripemd.bytes ≠ none then some (.copy 32 [1])
    else if content zeroHash.bytes ≠ none then some (.copy 32 [2])
    else none
  encodeAccount account :=
    if account.balance < 0 then none
    else some (account.root.bytes ++ (account.codeHash.bytes ++
      (replicate account.nonce.toNat 0 ++ replicate account.balance.toNat 1)))
  decodeAccount enc :=
    some ⟨.ofNat ((enc.drop 64).count 0), (enc.drop 64).count 1, .copy 32 (enc.take 32), .copy 32 ((enc.drop 32).take 32)⟩
  encodeBytes bytes := 0 :: bytes
  splitBytes enc := enc.tail?

theorem plainEnv_lawful : plainEnv.Lawful where
  account account covered := by
    have balance : ¬account.balance < 0 := by omega
    refine ⟨_, if_neg balance, ?_, ?_⟩
    · intro empty
      have length := congrArg length empty
      simp [account.root.length_eq] at length
    · obtain ⟨nonce, amount, root, codeHash⟩ := account
      have tail : (root.bytes ++ (codeHash.bytes ++ (replicate nonce.toNat 0 ++ replicate amount.toNat 1))).drop 64 =
          (replicate nonce.toNat 0 ++ replicate amount.toNat 1 : Bytes) := by
        rw [← append_assoc, drop_left' (by simp [root.length_eq, codeHash.length_eq])]
      have first : (root.bytes ++ (codeHash.bytes ++ (replicate nonce.toNat 0 ++ replicate amount.toNat 1))).take 32 =
          root.bytes := take_left' root.length_eq
      have second : ((root.bytes ++ (codeHash.bytes ++ (replicate nonce.toNat 0 ++
          replicate amount.toNat 1))).drop 32).take 32 = codeHash.bytes := by
        rw [drop_left' root.length_eq, take_left' codeHash.length_eq]
      simp only [plainEnv, tail, first, second, FixedBytes.copy_bytes]
      simp only [count_append, count_replicate, some.injEq, Account.mk.injEq]
      refine ⟨by simp, ?_, trivial, trivial⟩
      have nonnegative : 0 ≤ amount := covered
      simp [nonnegative]
  bytes bytes := ⟨cons_ne_nil _ _, rfl⟩
  emptyRoot := rfl
  zeroRoot content := by
    unfold plainEnv
    dsimp only
    split
    · decide
    · split
      · decide
      · exact nofun

/-- An account is created and changed, with a suicide that is undone. -/
def plainCalls : List Call :=
  [.createAccount ripemd, .setNonce ripemd 1, .addBalance ripemd 5, .setCode ripemd (some [1]),
    .setState ripemd zeroHash (.copy 32 [7]), .snapshot, .suicide ripemd, .revertToSnapshot 0]

theorem plainCalls_evm : EvmCalls plainEnv sampleState plainCalls :=
  .createWithNonce (.call nofun (.call nofun (.call nofun (.call nofun (.call nofun (.call nofun (.nil _)))))))

theorem plainCalls_distinct : ((sampleState.run plainEnv plainCalls).commit plainEnv false).2.db.Distinct plainEnv := by
  obtain ⟨account, value, tries⟩ : ∃ account value,
      ((sampleState.run plainEnv plainCalls).commit plainEnv false).2.db.tries =
        [update (update emptyTrie ripemd.bytes (some account)) ripemd.bytes (some account),
          update emptyTrie ripemd.bytes (some account), update emptyTrie zeroHash.bytes (some value)] :=
    ⟨(plainEnv.encodeAccount ⟨1, 5, .copy 32 [2], .copy 32 [1]⟩).getD [], 0 :: (FixedBytes.copy 32 [7]).bytes, rfl⟩
  have accounts : plainEnv.rootHash (update emptyTrie ripemd.bytes (some account)) = some (.copy 32 [1]) := by
    simp [plainEnv]
  have storage : plainEnv.rootHash (update emptyTrie zeroHash.bytes (some value)) = some (.copy 32 [2]) := by
    have apart : ripemd.bytes ≠ zeroHash.bytes := by decide
    simp [plainEnv, update_of_ne apart, emptyTrie]
  have nothing : plainEnv.rootHash emptyTrie = none := rfl
  have different : FixedBytes.copy 32 [1] ≠ FixedBytes.copy 32 [2] := by decide
  unfold Database.Distinct
  rw [tries, update_idem]
  intro left among right others same
  simp only [Set.mem_insert_iff, Set.mem_ofPred_eq, mem_cons, not_mem_nil, or_false] at among others
  rcases among with rfl | rfl | rfl | rfl <;> rcases others with rfl | rfl | rfl | rfl <;>
    simp_all [Ne.symm different]

theorem plainCalls_covered (addr : AddressHash) :
    0 ≤ ((sampleState.run plainEnv plainCalls).getBalance plainEnv addr).1 := by
  by_cases same : addr = ripemd
  · subst same
    decide +kernel
  · have keys : (sampleState.run plainEnv plainCalls).stateObjects.keys = [ripemd] := by decide +kernel
    have absent : (sampleState.run plainEnv plainCalls).stateObjects.lookup addr = none := by
      rw [AList.lookup_eq_none, AList.mem_keys, keys]
      simpa using same
    have empty : accountAt plainEnv (sampleState.run plainEnv plainCalls).trie addr = none := rfl
    simp [getBalance, getStateObject, absent, empty]

theorem plainCalls_hashes : Set.InjOn plainEnv.keccak256 (codesOf ⟨[], ∅⟩ plainCalls) := by
  have listed (code : Bytes) (among : code ∈ codesOf ⟨[], ∅⟩ plainCalls) : code = [] ∨ code = [1] := by
    rcases among with empty | ⟨hash, found⟩ | ⟨addr, member⟩
    · exact .inl empty
    · cases found
    · right
      simp only [plainCalls, mem_cons, reduceCtorEq, Call.setCode.injEq, some.injEq, not_mem_nil, or_false,
        false_or] at member
      exact member.2
  have different : plainEnv.keccak256 [] ≠ plainEnv.keccak256 [1] := by decide
  intro left among right others same
  rcases listed left among with rfl | rfl <;> rcases listed right others with rfl | rfl
  · rfl
  · exact (different same).elim
  · exact (different same.symm).elim
  · rfl

theorem sample_commit_reopens :
    ∃ roots t, (sampleState.run plainEnv plainCalls).commit plainEnv false = (.ok roots, t) ∧ t.Sound plainEnv ∧
      ∃ u, new plainEnv roots.1 roots.2 t.db = some u ∧ SameAccounts plainEnv t u ∧ Stored plainEnv t.db u.trie :=
  commit_reopens plainEnv_lawful (show new plainEnv none none ⟨[], ∅⟩ = some sampleState from rfl)
    ⟨nofun, nofun, nofun⟩ plainCalls plainCalls_evm plainCalls_hashes plainCalls_covered false plainCalls_distinct

end Sample

end StateDB

end Boxd.WorldState
