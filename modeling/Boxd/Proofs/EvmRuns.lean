import Boxd.Proofs.KeptObjects

/-! Runs of calls as the EVM makes them. Along such a run an address that is not dirty is seen
as it is stored. -/

namespace Boxd.WorldState
open Lib Option List Function JournalEntry

variable {entries : List JournalEntry} {addr : AddressHash}

/-- An account is created where there is none, or is given a nonce next. -/
inductive EvmCalls (env : Env) : StateDB → List Call → Prop
  | nil (s : StateDB) : EvmCalls env s []
  | call {s : StateDB} {call : Call} {rest : List Call} (other : ∀ addr, call ≠ .createAccount addr)
    (later : EvmCalls env (s.perform env call).2 rest) : EvmCalls env s (call :: rest)
  | create {s : StateDB} {addr : AddressHash} {rest : List Call} (absent : (s.exist env addr).1 = false)
    (later : EvmCalls env (s.createAccount env addr) rest) : EvmCalls env s (.createAccount addr :: rest)
  | createWithNonce {s : StateDB} {addr : AddressHash} {nonce : UInt64} {rest : List Call}
    (later : EvmCalls env ((s.createAccount env addr).setNonce env addr nonce) rest) :
    EvmCalls env s (.createAccount addr :: .setNonce addr nonce :: rest)

/-- An object that replaced another got a nonce next. -/
def Covered (entries : List JournalEntry) : Prop :=
  ∀ newer prev older, entries = newer ++ .resetObject prev :: older →
    ∃ front nonce, newer = front ++ [.nonce prev.address nonce]

theorem Covered.nil : Covered [] := by
  intro newer prev older same
  simp at same

theorem Covered.cons (covered : Covered entries) {entry : JournalEntry}
    (plain : entry.isReset = false) : Covered (entry :: entries) := by
  intro newer prev older same
  cases newer with
  | nil =>
    cases same
    cases plain
  | cons head rest =>
    simp only [cons_append, cons.injEq] at same
    obtain ⟨rfl, same⟩ := same
    obtain ⟨front, nonce, rfl⟩ := covered rest prev older same
    exact ⟨entry :: front, nonce, rfl⟩

theorem Covered.append {added : List JournalEntry} (plain : ∀ entry ∈ added, entry.isReset = false)
    (covered : Covered entries) : Covered (added ++ entries) := by
  induction added with
  | nil => exact covered
  | cons entry rest next =>
    rw [forall_mem_cons] at plain
    exact (next plain.2).cons plain.1

theorem Covered.reset (covered : Covered entries) (prev : StateObject) (nonce : UInt64) :
    Covered (.nonce prev.address nonce :: .resetObject prev :: entries) := by
  intro newer replaced older same
  rcases newer with _ | ⟨first, _ | ⟨second, rest⟩⟩
  · cases same
  · cases same
    exact ⟨[], nonce, rfl⟩
  · simp only [cons_append, cons.injEq] at same
    obtain ⟨rfl, rfl, same⟩ := same
    obtain ⟨front, last, rfl⟩ := covered rest replaced older same
    exact ⟨_ :: _ :: front, last, rfl⟩

def JournalEntry.Touches (addr : AddressHash) (entry : JournalEntry) : Prop :=
  entry.dirtied = some addr ∨ ∃ prev : StateObject, entry = .resetObject prev ∧ prev.address = addr

theorem Covered.untouched (covered : Covered entries)
    (clean : ∀ entry ∈ entries, entry.dirtied ≠ some addr) : ∀ entry ∈ entries, ¬entry.Touches addr := by
  rintro entry member (dirtied | ⟨prev, rfl, rfl⟩)
  · exact clean entry member dirtied
  · obtain ⟨newer, older, rfl⟩ := append_of_mem member
    obtain ⟨front, nonce, rfl⟩ := covered newer prev older rfl
    exact clean (.nonce prev.address nonce) (by simp) rfl

section Undo

variable {env : Env} {db : Database} {addr : AddressHash} {before after : View}

theorem View.setAccount_of_ne {account : AddressHash} (apart : account ≠ addr) (view : View) (seen : Option AccountView) :
    (view.setAccount account seen).account addr = view.account addr := by
  unfold View.setAccount
  exact update_of_ne apart.symm _ _

theorem View.withAccount_of_ne {account : AddressHash} (apart : account ≠ addr) {change : AccountView → AccountView}
    (undone : before.withAccount account change = some after) : after.account addr = before.account addr := by
  obtain ⟨seen, -, rfl⟩ := map_eq_some_iff.mp undone
  exact update_of_ne apart.symm _ _

theorem undo_account {entry : JournalEntry} (elsewhere : ¬entry.Touches addr)
    (undone : entry.undo env db before = some after) : after.account addr = before.account addr := by
  obtain ⟨clean, replaces⟩ := not_or.mp elsewhere
  have apart {account : AddressHash} (dirtied : entry.dirtied = some account) : account ≠ addr := by
    rintro rfl
    exact clean dirtied
  cases entry with
  | createObject account =>
    cases undone
    exact View.setAccount_of_ne (apart rfl) _ _
  | resetObject prev =>
    cases undone
    exact View.setAccount_of_ne (fun same => replaces ⟨prev, rfl, same⟩) _ _
  | suicide account prev prevbalance =>
    cases undone
    exact View.setAccount_of_ne (apart rfl) _ _
  | balance account prev => exact View.withAccount_of_ne (apart rfl) undone
  | nonce account prev => exact View.withAccount_of_ne (apart rfl) undone
  | storage account key prevalue => exact View.withAccount_of_ne (apart rfl) undone
  | code account prevcode prevhash => exact View.withAccount_of_ne (apart rfl) undone
  | addLog txhash =>
    simp only [undo] at undone
    split at undone
    · cases undone
    · cases undone
      rfl
  | refund prev =>
    cases undone
    rfl
  | addPreimage hash =>
    cases undone
    rfl
  | touch account =>
    cases undone
    rfl

theorem rewind_account (elsewhere : ∀ entry ∈ entries, ¬entry.Touches addr)
    (undone : Journaled.rewind (undo env db) entries before = some after) :
    after.account addr = before.account addr := by
  induction entries generalizing before with
  | nil =>
    cases undone
    rfl
  | cons entry rest next =>
    rw [forall_mem_cons] at elsewhere
    rw [Journaled.rewind_cons] at undone
    obtain ⟨middle, first, later⟩ := bind_eq_some_iff.mp undone
    exact (next elsewhere.2 later).trans (undo_account elsewhere.1 first)

end Undo

namespace StateDB

variable {env : Env} {codes : Set Bytes} {s t u : StateDB}

section Calls

variable (kept : s.Kept env codes s.entries)
include kept

theorem Kept.readObject {α : Type} (addr : AddressHash) (missing : α) {read : StateObject → α × StateObject}
    (same : ∀ obj, StateObject.SameSeen env s.db (read obj).2 obj)
    (backed : ∀ obj content, Backed env s.db codes content obj →
      Backed env s.db codes content (read obj).2 ∧ ∀ key, obj.Known key → (read obj).2.Known key) :
    Grows env codes s (s.readObject env addr missing read).2 := by
  unfold StateDB.readObject
  rcases kept.getStateObject addr with ⟨found, -⟩ | ⟨obj, t, content, found, held⟩
  · rw [found]
    exact .refl kept
  · rw [found]
    have stands := held.backed
    rw [held.grows.db] at stands
    obtain ⟨loaded, known⟩ := backed obj content stands
    rw [← held.grows.db] at loaded
    exact held.grows.trans (.cache held.grows.kept held.live ((same obj).address.trans held.address)
      ((same obj).deleted.trans held.alive) loaded known)

theorem Kept.getStateObject_grows (addr : AddressHash) : Grows env codes s (s.getStateObject env addr).2 := by
  rcases kept.getStateObject addr with ⟨found, -⟩ | ⟨obj, t, content, found, held⟩
  · rw [found]
    exact .refl kept
  · rw [found]
    exact held.grows

theorem Kept.createAccount (absent : (s.exist env addr).1 = false) :
    Grows env codes s (s.createAccount env addr) := by
  unfold StateDB.exist at absent
  unfold StateDB.createAccount createObject
  rcases kept.getStateObject addr with ⟨found, missing⟩ | ⟨obj, t, content, found, held⟩
  · rw [found]
    exact .create kept missing
  · rw [found] at absent
    cases absent

theorem Kept.addPreimage (hash : HashType) (preimage : Bytes) : Grows env codes s (s.addPreimage hash preimage) := by
  unfold StateDB.addPreimage
  cases s.preimages.lookup hash with
  | some _ => exact .refl kept
  | none => exact .beside kept rfl rfl rfl rfl rfl rfl rfl rfl trivial trivial (fun _ => rfl) rfl

theorem Kept.subRefund (gas : UInt64) : Grows env codes s (s.subRefund gas).2 := by
  unfold StateDB.subRefund
  dsimp only
  split
  · exact .beside kept rfl rfl rfl rfl rfl rfl rfl rfl trivial trivial (fun _ => rfl) rfl
  · exact .beside kept rfl rfl rfl rfl rfl rfl rfl rfl trivial trivial (fun _ => rfl) rfl

theorem Kept.perform {call : Call} (other : ∀ addr, call ≠ .createAccount addr)
    (listed : ∀ addr bytes, call = .setCode addr (some bytes) → bytes ∈ codes)
    (forward : ∀ revid, call ≠ .revertToSnapshot revid) (unmarked : call ≠ .snapshot) :
    Grows env codes s (s.perform env call).2 := by
  cases call with
  | addBalance addr amount => exact kept.addBalance addr amount
  | subBalance addr amount => exact kept.subBalance addr amount
  | setBalance addr amount => exact kept.setBalance addr amount
  | setNonce addr nonce => exact kept.setNonce addr nonce
  | setCode addr code =>
    apply kept.setCode addr
    rintro bytes rfl
    exact listed addr bytes rfl
  | setState addr key value => exact kept.setState addr key value
  | suicide addr => exact kept.suicide addr
  | createAccount addr => exact (other addr rfl).elim
  | addLog log => exact .beside kept rfl rfl rfl rfl rfl rfl rfl rfl trivial trivial (fun _ => rfl) rfl
  | addRefund gas => exact .beside kept rfl rfl rfl rfl rfl rfl rfl rfl trivial trivial (fun _ => rfl) rfl
  | subRefund gas => exact kept.subRefund gas
  | addPreimage hash preimage => exact kept.addPreimage hash preimage
  | snapshot => exact (unmarked rfl).elim
  | revertToSnapshot revid => exact (forward revid rfl).elim
  | exist addr => exact kept.getStateObject_grows addr
  | getBalance addr => exact kept.getStateObject_grows addr
  | getNonce addr => exact kept.getStateObject_grows addr
  | getCode addr =>
    refine kept.readObject addr _ (fun obj => (obj.loadCode_spec env s.db).2) fun obj content backed => ?_
    obtain ⟨loaded, origin⟩ := backed.loadCode kept.complete.consistent
    refine ⟨loaded, fun key known => ?_⟩
    rw [StateObject.Known, origin]
    exact known
  | getCodeHash addr => exact kept.getStateObject_grows addr
  | getState addr key =>
    refine kept.readObject addr _ (fun obj => (obj.getState_spec env s.db key).2) fun obj content backed => ?_
    obtain ⟨loaded, -, known⟩ := backed.getState key
    exact ⟨loaded, known⟩
  | getCommittedState addr key =>
    refine kept.readObject addr _ (fun obj => (obj.getCommittedState_spec env s.db key).2) fun obj content backed => ?_
    obtain ⟨loaded, -, known⟩ := backed.getCommittedState key
    exact ⟨loaded, known⟩
  | hasSuicided addr => exact kept.getStateObject_grows addr
  | getLogs hash => exact .refl kept
  | getRefund => exact .refl kept

end Calls

structure InRun (env : Env) (codes : Set Bytes) (s t : StateDB) : Prop where
  sound : t.Sound env
  kept : t.Kept env codes t.entries
  db : t.db = s.db
  trie : t.trie = s.trie
  utxoTrie : t.utxoTrie = s.utxoTrie
  back : Journaled.rewind (undo env s.db) t.entries (t.view env) = some (s.view env)
  covered : Journaled.Always Covered (t.journaled env)

namespace InRun

section
variable (run : InRun env codes s t)
include run

theorem advance (advances : Advances env t u) (kept : u.Kept env codes u.entries)
    (utxoTrie : u.utxoTrie = t.utxoTrie) (covered : Covered u.entries) : InRun env codes s u := by
  obtain ⟨added, entries, undone⟩ := advances.undone
  rw [run.db] at undone
  refine ⟨advances.sound, kept, advances.db.trans run.db, advances.trie.trans run.trie, utxoTrie.trans run.utxoTrie, ?_, ?_⟩
  · rw [entries, Journaled.rewind_append, undone, bind_some, run.back]
  · have recorded := run.covered.record added (u.view env) (entries ▸ covered)
    have same : u.journaled env = { t.journaled env with view := u.view env, entries := added ++ t.entries } := by
      simp only [journaled, entries, advances.validRevisions, advances.nextRevisionID]
    rw [same]
    exact recorded

theorem grow (advances : Advances env t u) (grows : Grows env codes t u) : InRun env codes s u := by
  obtain ⟨added, entries, plain⟩ := grows.entries
  refine run.advance advances grows.kept grows.utxoTrie ?_
  rw [entries]
  exact .append plain run.covered.now

theorem snapshot : InRun env codes s t.snapshot.2 where
  sound := run.sound.snapshot
  kept := { run.kept with }
  db := run.db
  trie := run.trie
  utxoTrie := run.utxoTrie
  back := run.back
  covered := by
    rw [journaled_snapshot]
    exact run.covered.mark

theorem revert {revid : Nat} (reverted : t.revertToSnapshot env revid = some u) : InRun env codes s u := by
  obtain ⟨same, stays⟩ := revertToSnapshot_spec run.sound revid
  obtain ⟨sound, db, trie⟩ := stays u reverted
  obtain ⟨kept, utxoTrie⟩ := run.kept.revertToSnapshot reverted
  rw [reverted, run.db] at same
  exact ⟨sound, kept, db.trans run.db, trie.trans run.trie, utxoTrie.trans run.utxoTrie,
    Journaled.rewind_rollback same.symm run.back, run.covered.rollback same.symm⟩

theorem perform {call : Call} (other : ∀ addr, call ≠ .createAccount addr)
    (listed : ∀ addr bytes, call = .setCode addr (some bytes) → bytes ∈ codes) :
    InRun env codes s (t.perform env call).2 := by
  by_cases marks : call = .snapshot
  · subst marks
    exact run.snapshot
  by_cases reverts : ∃ revid, call = .revertToSnapshot revid
  · obtain ⟨revid, rfl⟩ := reverts
    simp only [StateDB.perform]
    split
    · next u reverted => exact run.revert reverted
    · exact run
  have forward (revid : Nat) : call ≠ .revertToSnapshot revid := fun same => reverts ⟨revid, same⟩
  have grows := run.kept.perform other listed forward marks
  have performs := perform_performs run.sound call
  revert performs grows
  generalize (t.perform env call).2 = u
  intro grows performs
  cases performs with
  | advances advances => exact run.grow advances grows
  | snapshot => exact (marks rfl).elim
  | revert reverted => exact (forward _ rfl).elim

theorem create (absent : (t.exist env addr).1 = false) : InRun env codes s (t.createAccount env addr) :=
  run.grow (createAccount_advances run.sound addr) (run.kept.createAccount absent)

omit run in
theorem setNonce_entries {obj : StateObject} (live : t.stateObjects.lookup addr = some obj)
    (alive : obj.deleted = false) (nonce : UInt64) :
    (t.setNonce env addr nonce).entries = .nonce obj.address obj.data.nonce :: t.entries := by
  simp [StateDB.setNonce, getOrNewStateObject, getStateObject, live, alive, append, setStateObject]

theorem createWithNonce (addr : AddressHash) (nonce : UInt64) :
    InRun env codes s ((t.createAccount env addr).setNonce env addr nonce) := by
  have created := createAccount_advances run.sound addr
  have advances := created.trans (setNonce_advances created.sound addr nonce)
  rcases run.kept.getStateObject addr with ⟨found, missing⟩ | ⟨obj, u, content, found, held⟩
  · have absent : (t.exist env addr).1 = false := by
      rw [StateDB.exist, found]
      rfl
    have grows := run.kept.createAccount absent
    exact run.grow advances (grows.trans (grows.kept.setNonce addr nonce))
  · have replaced : t.createAccount env addr = (u.append (.resetObject obj)).setStateObject
        ((StateObject.newObject addr ⟨0, 0, zeroHash, env.emptyCodeHash⟩).setBalance obj.data.balance) := by
      unfold StateDB.createAccount createObject
      rw [found]
      exact setStateObject_carried _ _ _
    have kept : (t.createAccount env addr).Kept env codes (t.createAccount env addr).entries := by
      rw [replaced]
      refine held.grows.kept.write (.resetObject obj) rfl ((Backed.fresh env u.db codes addr).setBalance _)
        ⟨held.alive, content, held.backed⟩ trivial ?_
      intro other key known
      simp only [below, held.address]
      by_cases same : other = addr
      · rw [same, caches_of_live held.live] at known
        rw [same, update_self]
        exact known
      · rw [update_of_ne same]
        simp only [StateObject.setBalance, StateObject.newObject, update_of_ne same]
        exact known
    have grows := kept.setNonce addr nonce
    obtain ⟨added, loaded, plain⟩ := held.grows.entries
    refine run.advance advances grows.kept ?_ ?_
    · rw [grows.utxoTrie, replaced]
      exact held.grows.utxoTrie
    · have live : (t.createAccount env addr).stateObjects.lookup addr = some
          ((StateObject.newObject addr ⟨0, 0, zeroHash, env.emptyCodeHash⟩).setBalance obj.data.balance) := by
        rw [replaced]
        exact AList.lookup_insert _
      have entries : (t.createAccount env addr).entries = .resetObject obj :: u.entries := by
        rw [replaced]
        rfl
      rw [setNonce_entries live rfl, entries, loaded, show _ = obj.address from held.address.symm]
      exact .reset (.append plain run.covered.now) obj _

omit run in
theorem of_calls {calls : List Call} (evm : EvmCalls env t calls) (run : InRun env codes s t)
    (listed : ∀ addr bytes, .setCode addr (some bytes) ∈ calls → bytes ∈ codes) : InRun env codes s (t.run env calls) := by
  induction evm with
  | nil => exact run
  | call other _ next =>
    refine next (run.perform other ?_) fun addr bytes member => listed addr bytes (mem_cons_of_mem _ member)
    rintro addr bytes rfl
    exact listed addr bytes mem_cons_self
  | create absent _ next =>
    exact next (run.create absent) fun addr bytes member => listed addr bytes (mem_cons_of_mem _ member)
  | createWithNonce _ next =>
    exact next (run.createWithNonce _ _) fun addr bytes member =>
      listed addr bytes (mem_cons_of_mem _ (mem_cons_of_mem _ member))

theorem account_eq (clean : t.dirties.lookup addr = none) : t.account env addr = s.account env addr := by
  have none : t.entries.countP (fun entry => entry.dirtied = some addr) = 0 := by
    have counted := run.kept.counted addr
    rw [Table.amount, clean, getD_none] at counted
    omega
  have elsewhere := run.covered.now.untouched fun entry (member : entry ∈ t.entries) dirtied =>
    countP_eq_zero.mp none entry member (by simpa using dirtied)
  exact (rewind_account elsewhere run.back).symm

end

end InRun

end StateDB

end Boxd.WorldState
