import Boxd.Proofs.WorldView

/-! Snapshots of a state database. Each call journals entries that undo what it changes of
the view, so a revert leads back to the view of the snapshot. -/

namespace Boxd.WorldState
open Lib List Option AList Function View Journaled Table

variable {addr : AddressHash} {u : StateDB} {entry : JournalEntry}

namespace View

def withAccount (view : View) (addr : AddressHash) (change : AccountView → AccountView) : Option View :=
  (view.account addr).map fun seen =>
    { view with account := update view.account addr (some (change seen)) }

def setAccount (view : View) (addr : AddressHash) (seen : Option AccountView) : View :=
  { view with account := update view.account addr seen }

@[simp] theorem setAccount_account (view : View) (addr : AddressHash) (seen : Option AccountView) :
    (view.setAccount addr seen).account addr = seen := by simp [setAccount]

theorem setAccount_self {view : View} {seen : Option AccountView} (same : view.account addr = seen) :
    view.setAccount addr seen = view := by
  unfold setAccount
  rw [← same, update_eq_self]

@[simp] theorem setAccount_setAccount (view : View) (addr : AddressHash) (first second : Option AccountView) :
    (view.setAccount addr first).setAccount addr second = view.setAccount addr second := by
  simp [setAccount]

theorem withAccount_setAccount (view : View) (addr : AddressHash) (seen : AccountView) (change : AccountView → AccountView) :
    (view.setAccount addr (some seen)).withAccount addr change = some (view.setAccount addr (some (change seen))) := by
  simp [withAccount, setAccount]

end View

def JournalEntry.undo (env : Env) (db : Database) : JournalEntry → View → Option View
  | createObject account, view => some (view.setAccount account none)
  | resetObject prev, view => some (view.setAccount prev.address (some (prev.view env db)))
  | suicide account prev prevbalance, view =>
    some (view.setAccount account
      ((view.account account).map fun seen => { seen with suicided := prev, balance := prevbalance }))
  | balance account prev, view => view.withAccount account fun seen => { seen with balance := prev }
  | nonce account prev, view => view.withAccount account fun seen => { seen with nonce := prev }
  | storage account key prevalue, view =>
    view.withAccount account fun seen => { seen with storage := update seen.storage key prevalue }
  | code account prevcode prevhash, view =>
    view.withAccount account fun seen => { seen with code := prevcode, codeHash := prevhash }
  | refund prev, view => some { view with refund := prev }
  | addLog txhash, view =>
    if view.logs txhash = [] then none
    else some { view with
      logs := update view.logs txhash (view.logs txhash).dropLast
      logSize := view.logSize - 1 }
  | addPreimage hash, view => some { view with preimages := update view.preimages hash none }
  | touch _, view => some view

/-- What an entry says about the time when it was journalled. -/
def JournalEntry.Holds (env : Env) (db : Database) (trie : Content) : JournalEntry → Prop
  | createObject account => StateDB.accountAt env trie account = none
  | resetObject prev => prev.deleted = false
  | code _ prevcode prevhash => prevcode = none → prevhash = env.emptyCodeHash ∨ db.codes.lookup prevhash = none
  | _ => True

namespace StateDB

variable (env : Env)

/-- Objects stand under their addresses, the trie has no account that is marked as deleted, the
journal tells what was before, and the revisions are older than the next one. -/
structure Sound (s : StateDB) : Prop where
  address : ∀ addr obj, s.stateObjects.lookup addr = some obj → obj.address = addr
  deleted : ∀ addr obj, s.stateObjects.lookup addr = some obj → obj.deleted = true → accountAt env s.trie addr = none
  entries : ∀ entry ∈ s.entries, entry.Holds env s.db s.trie
  revisions : ∀ revision ∈ s.validRevisions, revision.id < s.nextRevisionID

/-- Nothing but objects and counters has changed. -/
structure Frame (s t : StateDB) : Prop where
  db : t.db = s.db
  trie : t.trie = s.trie
  entries : t.entries = s.entries
  validRevisions : t.validRevisions = s.validRevisions
  nextRevisionID : t.nextRevisionID = s.nextRevisionID

variable {env} {s t : StateDB}

theorem Frame.refl (s : StateDB) : Frame s s := ⟨rfl, rfl, rfl, rfl, rfl⟩

theorem Frame.trans (first : Frame s t) (second : Frame t u) : Frame s u :=
  ⟨second.db.trans first.db, second.trie.trans first.trie, second.entries.trans first.entries,
    second.validRevisions.trans first.validRevisions, second.nextRevisionID.trans first.nextRevisionID⟩

variable {obj : StateObject}

theorem Sound.setStateObject (sound : s.Sound env) (alive : obj.deleted = false) :
    (s.setStateObject obj).Sound env := by
  refine ⟨?_, ?_, sound.entries, sound.revisions⟩
  · intro addr found at_
    rcases lookup_insert_cases at_ with ⟨rfl, rfl⟩ | ⟨-, old⟩
    · rfl
    · exact sound.address addr found old
  · intro addr found at_ marked
    rcases lookup_insert_cases at_ with ⟨rfl, rfl⟩ | ⟨-, old⟩
    · rw [alive] at marked
      cases marked
    · exact sound.deleted addr found old marked

theorem view_setStateObject (s : StateDB) (obj : StateObject) :
    (s.setStateObject obj).view env = (s.view env).setAccount obj.address (obj.seen env s.db) := by
  unfold view setAccount
  rw [account_setStateObject]
  rfl

theorem seen_alive {db : Database} (alive : obj.deleted = false) :
    obj.seen env db = some (obj.view env db) := by simp [StateObject.seen, alive]

structure Loaded (env : Env) (s t : StateDB) (addr : AddressHash) (obj : StateObject) : Prop where
  frame : Frame s t
  sound : t.Sound env
  view : t.view env = s.view env
  seen : s.account env addr = some (obj.view env s.db)
  address : obj.address = addr
  alive : obj.deleted = false
  live : t.stateObjects.lookup addr = some obj

theorem getStateObject_spec (sound : s.Sound env) (addr : AddressHash) :
    (s.getStateObject env addr = (none, s) ∧ s.account env addr = none) ∨
      ∃ obj t, s.getStateObject env addr = (some obj, t) ∧ Loaded env s t addr obj := by
  unfold getStateObject account
  cases live : s.stateObjects.lookup addr with
  | some obj =>
    cases marked : obj.deleted with
    | true => exact .inl ⟨by simp [marked], by simp [StateObject.seen, marked]⟩
    | false =>
      refine .inr ⟨obj, s, by simp [marked], .refl s, sound, rfl, ?_, sound.address addr obj live, marked, live⟩
      simp only [account, live, seen_alive marked]
  | none =>
    cases stored : accountAt env s.trie addr with
    | none => exact .inl ⟨rfl, rfl⟩
    | some data =>
      have seen : s.account env addr = some ((StateObject.newObject addr data).view env s.db) := by
        simp only [account, live, stored, map_some]
      refine .inr ⟨.newObject addr data, s.setStateObject (.newObject addr data), rfl, ⟨rfl, rfl, rfl, rfl, rfl⟩,
        sound.setStateObject rfl, ?_, seen, rfl, rfl, lookup_insert _⟩
      rw [view_setStateObject]
      exact setAccount_self seen

/-- A state that follows another: the entries that were journalled lead back to its view. -/
structure Advances (env : Env) (s t : StateDB) : Prop where
  sound : t.Sound env
  db : t.db = s.db
  trie : t.trie = s.trie
  validRevisions : t.validRevisions = s.validRevisions
  nextRevisionID : t.nextRevisionID = s.nextRevisionID
  undone : ∃ added, t.entries = added ++ s.entries ∧
    rewind (JournalEntry.undo env s.db) added (t.view env) = some (s.view env)

namespace Advances

theorem of_frame (frame : Frame s t) (sound : t.Sound env) (view : t.view env = s.view env) : Advances env s t :=
  ⟨sound, frame.db, frame.trie, frame.validRevisions, frame.nextRevisionID, [], frame.entries, by rw [view]; rfl⟩

theorem refl (sound : s.Sound env) : Advances env s s := of_frame (.refl s) sound rfl

theorem trans (first : Advances env s t) (second : Advances env t u) : Advances env s u where
  sound := second.sound
  db := second.db.trans first.db
  trie := second.trie.trans first.trie
  validRevisions := second.validRevisions.trans first.validRevisions
  nextRevisionID := second.nextRevisionID.trans first.nextRevisionID
  undone := by
    obtain ⟨earlier, before, back⟩ := first.undone
    obtain ⟨later, after, back'⟩ := second.undone
    refine ⟨later ++ earlier, by rw [after, before, append_assoc], ?_⟩
    rw [first.db] at back'
    rw [rewind_append, back', bind_some, back]

theorem loaded {obj : StateObject} (loaded : Loaded env s t addr obj) : Advances env s t :=
  of_frame loaded.frame loaded.sound loaded.view

end Advances

theorem Sound.append (sound : s.Sound env) (holds : entry.Holds env s.db s.trie) :
    (s.append entry).Sound env := by
  refine { sound with entries := ?_ }
  intro other member
  rcases mem_cons.mp member with rfl | old
  · exact holds
  · exact sound.entries other old

theorem Advances.journal (sound : t.Sound env) (frame : Frame (s.append entry) t)
    (undone : entry.undo env s.db (t.view env) = some (s.view env)) : Advances env s t where
  sound := sound
  db := frame.db
  trie := frame.trie
  validRevisions := frame.validRevisions
  nextRevisionID := frame.nextRevisionID
  undone := by
    refine ⟨[entry], frame.entries, ?_⟩
    rw [rewind_cons, undone]
    rfl

theorem Advances.change (sound : s.Sound env) (alive : obj.deleted = false)
    (holds : entry.Holds env s.db s.trie)
    (undone : entry.undo env s.db ((s.view env).setAccount obj.address (some (obj.view env s.db))) = some (s.view env)) :
    Advances env s ((s.append entry).setStateObject obj) := by
  refine .journal ((sound.append holds).setStateObject alive) ⟨rfl, rfl, rfl, rfl, rfl⟩ ?_
  rw [view_setStateObject, seen_alive alive]
  exact undone

variable {addr : AddressHash}

section
variable (sound : s.Sound env)
include sound

theorem Sound.accountAt_eq_none (absent : s.account env addr = none) :
    accountAt env s.trie addr = none := by
  unfold account at absent
  cases live : s.stateObjects.lookup addr with
  | some obj =>
    apply sound.deleted addr obj live
    simp only [live, StateObject.seen] at absent
    by_contra alive
    simp [alive] at absent
  | none => simpa [live] using absent

omit sound in
theorem account_of_view (same : t.view env = s.view env) : t.account env = s.account env := congrArg View.account same

theorem Advances.create (alive : obj.deleted = false)
    (absent : s.account env obj.address = none) :
    Advances env s ((s.append (.createObject obj.address)).setStateObject obj) := by
  refine .change sound alive (sound.accountAt_eq_none absent) ?_
  simp only [JournalEntry.undo, setAccount_setAccount]
  exact congrArg some (setAccount_self absent)

theorem Advances.reset {prev : StateObject} (alive : obj.deleted = false)
    (same : prev.address = obj.address) (prevAlive : prev.deleted = false)
    (seen : s.account env obj.address = some (prev.view env s.db)) :
    Advances env s ((s.append (.resetObject prev)).setStateObject obj) := by
  refine .change sound alive prevAlive ?_
  simp only [JournalEntry.undo, same, setAccount_setAccount]
  exact congrArg some (setAccount_self seen)

omit sound in
structure Obtained (env : Env) (s t : StateDB) (addr : AddressHash) (obj : StateObject) : Prop where
  advances : Advances env s t
  address : obj.address = addr
  alive : obj.deleted = false
  seen : t.account env addr = some (obj.view env t.db)

omit sound in
theorem Loaded.obtained (loaded : Loaded env s t addr obj) :
    Obtained env s t addr obj where
  advances := .loaded loaded
  address := loaded.address
  alive := loaded.alive
  seen := by rw [account_of_view loaded.view, loaded.seen, loaded.frame.db]

omit sound in
theorem Obtained.cache {cached : StateObject} (obtained : Obtained env s t addr obj)
    (same : StateObject.SameSeen env t.db cached obj) : Advances env s (t.setStateObject cached) := by
  have alive := same.deleted.trans obtained.alive
  refine obtained.advances.trans (.of_frame ⟨rfl, rfl, rfl, rfl, rfl⟩ (obtained.advances.sound.setStateObject alive) ?_)
  rw [view_setStateObject, same.seen, seen_alive obtained.alive, same.address, obtained.address]
  exact setAccount_self obtained.seen

theorem getOrNewStateObject_spec (addr : AddressHash) :
    ∃ obj t, s.getOrNewStateObject env addr = (obj, t) ∧ Obtained env s t addr obj := by
  unfold getOrNewStateObject
  rcases getStateObject_spec sound addr with ⟨found, absent⟩ | ⟨obj, t, found, loaded⟩
  · rw [found]
    simp only [createObject, found]
    refine ⟨_, _, rfl, .create sound rfl absent, rfl, rfl, ?_⟩
    rw [account_setStateObject]
    exact update_self ..
  · rw [found]
    exact ⟨obj, t, rfl, loaded.obtained⟩

omit sound in
theorem setStateObject_carried (s : StateDB) (obj : StateObject) (amount : Int) :
    (s.setStateObject obj).setStateObject (obj.setBalance amount) = s.setStateObject (obj.setBalance amount) := by
  unfold setStateObject StateObject.setBalance
  simp only [insert_insert]

theorem createAccount_advances (addr : AddressHash) : Advances env s (s.createAccount env addr) := by
  unfold createAccount createObject
  rcases getStateObject_spec sound addr with ⟨found, absent⟩ | ⟨prev, t, found, loaded⟩
  · rw [found]
    exact .create sound rfl absent
  · rw [found]
    have obtained := loaded.obtained
    dsimp only
    rw [setStateObject_carried]
    refine obtained.advances.trans (.reset loaded.sound rfl ?_ loaded.alive ?_)
    · exact loaded.address
    · exact obtained.seen

omit sound in
theorem journalBalance_advances (obtained : Obtained env s t addr obj) (amount : Int) :
    Advances env s (t.journalBalance obj amount) := by
  refine obtained.advances.trans (.change obtained.advances.sound obtained.alive trivial ?_)
  simp only [JournalEntry.undo, StateObject.setBalance, withAccount_setAccount]
  exact congrArg some (setAccount_self (obtained.address ▸ obtained.seen))

theorem Advances.beside (entry : JournalEntry) (holds : entry.Holds env s.db s.trie)
    (frame : Frame (s.append entry) t) (objects : t.stateObjects = s.stateObjects)
    (undone : entry.undo env s.db (t.view env) = some (s.view env)) : Advances env s t := by
  have appended := sound.append holds
  refine .journal ⟨?_, ?_, ?_, ?_⟩ frame undone
  · rw [objects]
    exact appended.address
  · rw [objects, frame.trie]
    exact appended.deleted
  · rw [frame.entries, frame.db, frame.trie]
    exact appended.entries
  · rw [frame.validRevisions, frame.nextRevisionID]
    exact appended.revisions

theorem touch_advances (obj : StateObject) : Advances env s (s.touch obj) := by
  unfold touch
  split
  · exact .beside sound (.touch obj.address) trivial ⟨rfl, rfl, rfl, rfl, rfl⟩ rfl rfl
  · exact .beside sound (.touch obj.address) trivial (.refl _) rfl rfl

variable (addr : AddressHash)

theorem addBalance_advances (amount : Int) :
    Advances env s (s.addBalance env addr amount) := by
  unfold addBalance
  obtain ⟨obj, t, found, obtained⟩ := getOrNewStateObject_spec sound addr
  rw [found]
  dsimp only
  split
  · split
    · exact obtained.advances.trans (touch_advances obtained.advances.sound obj)
    · exact obtained.advances
  · exact journalBalance_advances obtained _

theorem subBalance_advances (amount : Int) :
    Advances env s (s.subBalance env addr amount) := by
  unfold subBalance
  obtain ⟨obj, t, found, obtained⟩ := getOrNewStateObject_spec sound addr
  rw [found]
  dsimp only
  split
  · exact obtained.advances
  · exact journalBalance_advances obtained _

theorem setBalance_advances (amount : Int) :
    Advances env s (s.setBalance env addr amount) := by
  unfold setBalance
  obtain ⟨obj, t, found, obtained⟩ := getOrNewStateObject_spec sound addr
  rw [found]
  exact journalBalance_advances obtained _

theorem setNonce_advances (nonce : UInt64) :
    Advances env s (s.setNonce env addr nonce) := by
  unfold setNonce
  obtain ⟨obj, t, found, obtained⟩ := getOrNewStateObject_spec sound addr
  rw [found]
  refine obtained.advances.trans (.change obtained.advances.sound obtained.alive trivial ?_)
  simp only [JournalEntry.undo, StateObject.setNonce, withAccount_setAccount]
  exact congrArg some (setAccount_self (obtained.address ▸ obtained.seen))

theorem suicide_advances : Advances env s (s.suicide env addr).2 := by
  unfold suicide
  rcases getStateObject_spec sound addr with ⟨found, absent⟩ | ⟨obj, t, found, loaded⟩
  · rw [found]
    exact .refl sound
  · rw [found]
    have obtained := loaded.obtained
    refine obtained.advances.trans (.change loaded.sound loaded.alive trivial ?_)
    simp only [JournalEntry.undo, loaded.address, setAccount_account, setAccount_setAccount, map_some]
    exact congrArg some (setAccount_self obtained.seen)

omit sound in
theorem codeSeen_holds (obj : StateObject) (db : Database) (missing : obj.codeSeen env db = none) :
    obj.data.codeHash = env.emptyCodeHash ∨ db.codes.lookup obj.data.codeHash = none := by
  unfold StateObject.codeSeen at missing
  rw [or_eq_none_iff] at missing
  by_cases empty : obj.data.codeHash = env.emptyCodeHash
  · exact .inl empty
  · right
    simpa [empty] using missing.2

theorem setCode_advances (code : Option Bytes) :
    Advances env s (s.setCode env addr code) := by
  unfold setCode
  obtain ⟨obj, t, found, obtained⟩ := getOrNewStateObject_spec sound addr
  obtain ⟨prevcode, same⟩ := StateObject.loadCode_spec env t.db obj
  rw [found]
  dsimp only
  generalize obj.loadCode env t.db = loaded at prevcode same
  obtain ⟨prev, cached⟩ := loaded
  dsimp only at prevcode same ⊢
  subst prevcode
  refine obtained.advances.trans (.change obtained.advances.sound (same.deleted.trans obtained.alive) ?_ ?_)
  · intro missing
    rw [same.data]
    exact codeSeen_holds obj t.db missing
  · have back : ({ (cached.setCode (env.keccak256 (code.getD [])) code).view env t.db with
        code := obj.codeSeen env t.db, codeHash := cached.data.codeHash } : AccountView) = obj.view env t.db := by
      change ({ cached.view env t.db with code := obj.codeSeen env t.db, codeHash := cached.data.codeHash } : AccountView) = _
      rw [same.view, same.data]
      rfl
    have address : (cached.setCode (env.keccak256 (code.getD [])) code).address = addr := same.address.trans obtained.address
    simp only [JournalEntry.undo, address, same.address, obtained.address, withAccount_setAccount, back]
    exact congrArg some (setAccount_self obtained.seen)

omit sound in
theorem storage_setState (obj : StateObject) (db : Database) (key value : HashType) :
    (obj.setState key value).storage env db = update (obj.storage env db) key value := by
  funext other
  unfold StateObject.storage StateObject.setState
  by_cases same : other = key
  · subst same
    simp
  · simp only [lookup_insert_ne same, update_of_ne same]
    rfl

omit sound in
theorem view_setState (obj : StateObject) (db : Database) (key value : HashType) :
    (obj.setState key value).view env db =
      { obj.view env db with storage := update (obj.view env db).storage key value } := by
  change ({ obj.view env db with storage := (obj.setState key value).storage env db } : AccountView) = _
  rw [storage_setState]
  rfl

theorem setState_advances (key value : HashType) :
    Advances env s (s.setState env addr key value) := by
  unfold setState
  obtain ⟨obj, t, found, obtained⟩ := getOrNewStateObject_spec sound addr
  obtain ⟨prevalue, same⟩ := StateObject.getState_spec env t.db obj key
  rw [found]
  dsimp only
  generalize obj.getState env t.db key = loaded at prevalue same
  obtain ⟨prev, cached⟩ := loaded
  dsimp only at prevalue same ⊢
  subst prevalue
  split
  · exact obtained.cache same
  · refine obtained.advances.trans (.change obtained.advances.sound (same.deleted.trans obtained.alive) trivial ?_)
    have address : (cached.setState key value).address = addr := same.address.trans obtained.address
    have back : update (obj.view env t.db).storage key (obj.storage env t.db key) = (obj.view env t.db).storage :=
      update_eq_self ..
    simp only [JournalEntry.undo, address, same.address, obtained.address, withAccount_setAccount, view_setState,
      same.view, update_idem, back]
    exact congrArg some (setAccount_self obtained.seen)

omit sound in
theorem getLogs_insert (s : StateDB) (hash : HashType) (logs : List Log) (logSize : UInt64) :
    getLogs { s with logs := s.logs.insert hash logs, logSize } = update s.getLogs hash logs := by
  funext other
  unfold getLogs
  by_cases same : other = hash
  · subst same
    simp
  · simp [same]

theorem addLog_advances (log : Log) : Advances env s (s.addLog log) := by
  refine .beside sound (.addLog s.thash) trivial ⟨rfl, rfl, rfl, rfl, rfl⟩ rfl ?_
  have logs : ((s.addLog log).view env).logs = update s.getLogs s.thash (s.getLogs s.thash ++
      [{ log with txHash := s.thash, blockHash := s.bhash, txIndex := .ofNat s.txIndex, index := s.logSize.toUInt32 }]) :=
    getLogs_insert (s.append (.addLog s.thash)) _ _ _
  simp only [JournalEntry.undo, logs, update_self, append_eq_nil_iff, cons_ne_nil, and_false, if_false,
    dropLast_concat, update_idem, update_eq_self]
  have size : ((s.addLog log).view env).logSize = s.logSize + 1 := rfl
  rw [size, UInt64.add_sub_cancel]
  rfl

theorem addRefund_advances (gas : UInt64) : Advances env s (s.addRefund gas) :=
  .beside sound (.refund s.refund) trivial ⟨rfl, rfl, rfl, rfl, rfl⟩ rfl rfl

theorem subRefund_advances (gas : UInt64) : Advances env s (s.subRefund gas).2 := by
  unfold subRefund
  dsimp only
  split <;> exact .beside sound (.refund s.refund) trivial ⟨rfl, rfl, rfl, rfl, rfl⟩ rfl rfl

theorem addPreimage_advances (hash : HashType) (preimage : Bytes) :
    Advances env s (s.addPreimage hash preimage) := by
  unfold addPreimage
  cases known : s.preimages.lookup hash with
  | some _ => exact .refl sound
  | none =>
    refine .beside sound (.addPreimage hash) trivial ⟨rfl, rfl, rfl, rfl, rfl⟩ rfl ?_
    have restored : update (fun other => (s.preimages.insert hash preimage).lookup other) hash none =
        fun other => s.preimages.lookup other := by
      funext other
      by_cases same : other = hash
      · rw [same, update_self, known]
      · rw [update_of_ne same, lookup_insert_ne same]
    simp only [JournalEntry.undo, view, append]
    exact congrArg (fun preimages => some (View.mk _ _ _ _ preimages)) restored

end

section Revert

def Mirrors (env : Env) (s : StateDB) (undone : Option View) : Option StateDB → Prop
  | none => undone = none
  | some t => undone = some (t.view env) ∧ Frame s t ∧ t.Sound env

theorem withObject_mirrors (sound : s.Sound env) (addr : AddressHash) (change : StateObject → StateObject)
    (seen : AccountView → AccountView)
    (changes : ∀ obj, (change obj).address = obj.address ∧ (change obj).deleted = obj.deleted ∧
      (change obj).view env s.db = seen (obj.view env s.db)) :
    Mirrors env s ((s.view env).withAccount addr seen) (s.withObject env addr change) := by
  unfold withObject
  rcases getStateObject_spec sound addr with ⟨found, absent⟩ | ⟨obj, t, found, loaded⟩
  · rw [found]
    exact congrArg (Option.map _) absent
  · rw [found]
    obtain ⟨address, deleted, view⟩ := changes obj
    refine ⟨?_, loaded.frame.trans ⟨rfl, rfl, rfl, rfl, rfl⟩, loaded.sound.setStateObject (deleted.trans loaded.alive)⟩
    rw [view_setStateObject, address, loaded.address, seen_alive (deleted.trans loaded.alive), loaded.frame.db, view,
      loaded.view]
    have at_ : (s.view env).account addr = some (obj.view env s.db) := loaded.seen
    simp only [withAccount, at_, map_some]
    rfl

theorem Sound.erase (sound : s.Sound env) (addr : AddressHash) (dirty : Table AddressHash Unit) :
    Sound env { s with stateObjects := s.stateObjects.erase addr, stateObjectsDirty := dirty } :=
  ⟨All.erase sound.address addr, All.erase sound.deleted addr, sound.entries, sound.revisions⟩

/-- Dropping a live object uncovers what the trie has, which is nothing. -/
theorem view_erase (absent : accountAt env s.trie addr = none) (dirty : Table AddressHash Unit) :
    view env { s with stateObjects := s.stateObjects.erase addr, stateObjectsDirty := dirty } =
      (s.view env).setAccount addr none := by
  unfold view setAccount
  congr 1
  funext other
  by_cases same : other = addr
  · subst same
    rw [update_self, account, lookup_erase, absent, map_none]
  · rw [update_of_ne same, account, lookup_erase_ne same]
    rfl

theorem view_setCode (obj : StateObject) (db : Database) {prevcode : Option Bytes} {prevhash : HashType}
    (holds : prevcode = none → prevhash = env.emptyCodeHash ∨ db.codes.lookup prevhash = none) :
    (obj.setCode prevhash prevcode).view env db = { obj.view env db with code := prevcode, codeHash := prevhash } := by
  have code : (obj.setCode prevhash prevcode).codeSeen env db = prevcode := by
    unfold StateObject.codeSeen StateObject.setCode
    cases prevcode with
    | some code => rfl
    | none =>
      rcases holds rfl with empty | missing
      · simp [empty]
      · simp [missing]
  change ({ obj.view env db with code := (obj.setCode prevhash prevcode).codeSeen env db, codeHash := prevhash } :
    AccountView) = _
  rw [code]

theorem suicide_mirrors (sound : s.Sound env) (account : AddressHash) (prev : Bool) (prevbalance : Int) :
    Mirrors env s ((JournalEntry.suicide account prev prevbalance).undo env s.db (s.view env))
      (s.revertEntry env (.suicide account prev prevbalance)) := by
  unfold revertEntry
  rcases getStateObject_spec sound account with ⟨found, absent⟩ | ⟨obj, t, found, loaded⟩
  · have none : (s.view env).account account = none := absent
    simp only [found, JournalEntry.undo, none, map_none]
    exact ⟨congrArg some (setAccount_self absent), .refl s, sound⟩
  · have some : (s.view env).account account = some (obj.view env s.db) := loaded.seen
    simp only [found, JournalEntry.undo, some, map_some]
    refine ⟨?_, loaded.frame.trans ⟨rfl, rfl, rfl, rfl, rfl⟩, loaded.sound.setStateObject loaded.alive⟩
    have alive : (StateObject.setBalance { obj with suicided := prev } prevbalance).deleted = false := loaded.alive
    rw [view_setStateObject, seen_alive alive, loaded.view, loaded.frame.db, ← loaded.address]
    rfl

theorem addLog_mirrors (sound : s.Sound env) (txhash : HashType) :
    Mirrors env s ((JournalEntry.addLog txhash).undo env s.db (s.view env)) (s.revertEntry env (.addLog txhash)) := by
  have seen : (s.view env).logs = s.getLogs := rfl
  rcases found : s.getLogs txhash with _ | ⟨log, _ | ⟨second, rest⟩⟩
  · simp only [revertEntry, JournalEntry.undo, seen, found, if_true]
    rfl
  · simp only [revertEntry, JournalEntry.undo, seen, found, cons_ne_nil, if_false]
    refine ⟨?_, ⟨rfl, rfl, rfl, rfl, rfl⟩, { sound with }⟩
    have logs : getLogs { s with logs := s.logs.erase txhash, logSize := s.logSize - 1 } =
        update s.getLogs txhash [log].dropLast := by
      funext other
      by_cases same : other = txhash
      · subst same
        simp [getLogs]
      · simp [getLogs, same]
    rw [← logs]
    rfl
  · simp only [revertEntry, JournalEntry.undo, seen, found, cons_ne_nil, if_false]
    refine ⟨?_, ⟨rfl, rfl, rfl, rfl, rfl⟩, { sound with }⟩
    rw [← getLogs_insert s txhash _ (s.logSize - 1)]
    rfl

theorem revertEntry_mirrors (sound : s.Sound env) (holds : entry.Holds env s.db s.trie) :
    Mirrors env s (entry.undo env s.db (s.view env)) (s.revertEntry env entry) := by
  cases entry with
  | createObject account => exact ⟨congrArg some (view_erase holds _).symm, ⟨rfl, rfl, rfl, rfl, rfl⟩, sound.erase _ _⟩
  | resetObject prev =>
    refine ⟨?_, ⟨rfl, rfl, rfl, rfl, rfl⟩, sound.setStateObject holds⟩
    rw [view_setStateObject, seen_alive holds]
    rfl
  | suicide account prev prevbalance => exact suicide_mirrors sound account prev prevbalance
  | balance account prev => exact withObject_mirrors sound account _ _ fun obj => ⟨rfl, rfl, rfl⟩
  | nonce account prev => exact withObject_mirrors sound account _ _ fun obj => ⟨rfl, rfl, rfl⟩
  | storage account key prevalue =>
    exact withObject_mirrors sound account _ _ fun obj => ⟨rfl, rfl, view_setState obj s.db key prevalue⟩
  | code account prevcode prevhash =>
    exact withObject_mirrors sound account _ _ fun obj => ⟨rfl, rfl, view_setCode obj s.db holds⟩
  | refund prev => exact ⟨rfl, ⟨rfl, rfl, rfl, rfl, rfl⟩, { sound with }⟩
  | addLog txhash => exact addLog_mirrors sound txhash
  | addPreimage hash =>
    refine ⟨?_, ⟨rfl, rfl, rfl, rfl, rfl⟩, { sound with }⟩
    have erased : update (fun other => s.preimages.lookup other) hash none =
        fun other => (s.preimages.erase hash).lookup other := by
      funext other
      by_cases same : other = hash
      · rw [same, update_self, lookup_erase]
      · rw [update_of_ne same, lookup_erase_ne same]
    exact congrArg (fun preimages => some (View.mk _ _ _ _ preimages)) erased
  | touch account => exact ⟨rfl, .refl s, sound⟩

theorem view_clean (s : StateDB) (entry : JournalEntry) : (s.clean entry).view env = s.view env := by
  unfold clean
  split <;> rfl

theorem clean_frame (s : StateDB) (entry : JournalEntry) : Frame s (s.clean entry) := by
  unfold clean
  split
  · exact ⟨rfl, rfl, rfl, rfl, rfl⟩
  · exact .refl s

theorem Sound.clean (sound : s.Sound env) (entry : JournalEntry) : (s.clean entry).Sound env := by
  unfold StateDB.clean
  split
  · exact { sound with }
  · exact sound

theorem revertEntries_mirrors (sound : s.Sound env) {entries : List JournalEntry}
    (holds : ∀ entry ∈ entries, entry.Holds env s.db s.trie) :
    Mirrors env s (rewind (JournalEntry.undo env s.db) entries (s.view env)) (s.revertEntries env entries) := by
  induction entries generalizing s with
  | nil => exact ⟨rfl, .refl s, sound⟩
  | cons entry rest next =>
    rw [forall_mem_cons] at holds
    have first := revertEntry_mirrors sound holds.1
    rw [revertEntries, rewind_cons]
    cases reverted : s.revertEntry env entry with
    | none =>
      rw [reverted] at first
      rw [show entry.undo env s.db (s.view env) = none from first]
      rfl
    | some t =>
      rw [reverted] at first
      obtain ⟨undone, frame, sound⟩ := first
      have frame' := frame.trans (clean_frame t entry)
      have later := next (sound.clean entry) (by rw [frame'.db, frame'.trie]; exact holds.2)
      rw [view_clean, frame'.db] at later
      rw [undone, bind_some, bind_some]
      revert later
      cases (t.clean entry).revertEntries env rest with
      | none => exact fun later => later
      | some u => exact fun later => ⟨later.1, frame'.trans later.2.1, later.2.2⟩

end Revert

def journaled (env : Env) (s : StateDB) : Journaled JournalEntry View where
  view := s.view env
  entries := s.entries
  marks := s.validRevisions.map fun revision => (revision.id, revision.journalIndex)
  next := s.nextRevisionID

theorem revertToSnapshot_spec (sound : s.Sound env) (revid : Nat) :
    (s.revertToSnapshot env revid).map (journaled env) =
      rollback (JournalEntry.undo env s.db) revid (s.journaled env) ∧
    ∀ t, s.revertToSnapshot env revid = some t → t.Sound env ∧ t.db = s.db ∧ t.trie = s.trie := by
  unfold revertToSnapshot rollback journaled
  dsimp only
  rw [findIdx_map, getElem?_map]
  simp only [comp_def]
  generalize s.validRevisions.findIdx (fun revision => revid ≤ revision.id) = idx
  cases found : s.validRevisions[idx]? with
  | none => exact ⟨rfl, nofun⟩
  | some revision =>
    simp only [map_some]
    by_cases same : revision.id = revid
    · simp only [same, if_true]
      generalize s.entries.length - revision.journalIndex = newer
      have mirrors := revertEntries_mirrors sound fun entry (member : entry ∈ s.entries.take newer) =>
        sound.entries entry (mem_of_mem_take member)
      revert mirrors
      cases s.revertEntries env (s.entries.take newer) with
      | none =>
        intro undone
        rw [show rewind _ _ (s.view env) = none from undone]
        exact ⟨rfl, nofun⟩
      | some t =>
        rintro ⟨undone, frame, kept⟩
        rw [undone]
        refine ⟨?_, ?_⟩
        · simp only [map_some, frame.nextRevisionID, map_take]
          rfl
        · rintro _ ⟨⟩
          refine ⟨⟨kept.address, kept.deleted, ?_, ?_⟩, frame.db, frame.trie⟩
          · intro entry member
            apply kept.entries
            rw [frame.entries]
            exact mem_of_mem_drop member
          · intro revision member
            apply kept.revisions
            rw [frame.validRevisions]
            exact mem_of_mem_take member
    · simp only [same, if_false]
      exact ⟨rfl, nofun⟩

section Runs

theorem Sound.snapshot (sound : s.Sound env) : s.snapshot.2.Sound env := by
  refine { sound with revisions := ?_ }
  intro revision member
  rcases mem_append.mp member with old | new
  · exact Nat.lt_succ_of_lt (sound.revisions revision old)
  · obtain rfl := mem_singleton.mp new
    exact Nat.lt_succ_self _

theorem journaled_snapshot (s : StateDB) : s.snapshot.2.journaled env = (s.journaled env).mark := by
  simp only [journaled, mark, StateDB.snapshot, map_append, map_cons, map_nil]
  rfl

inductive Performs (env : Env) (s : StateDB) : Call → StateDB → Prop
  | advances {call : Call} {t : StateDB} (advances : Advances env s t) : Performs env s call t
  | snapshot : Performs env s .snapshot s.snapshot.2
  | revert {revid : Nat} {t : StateDB} (reverted : s.revertToSnapshot env revid = some t) :
    Performs env s (.revertToSnapshot revid) t

theorem readObject_advances {α : Type} (sound : s.Sound env) (addr : AddressHash) (missing : α)
    {read : StateObject → α × StateObject} (same : ∀ obj, StateObject.SameSeen env s.db (read obj).2 obj) :
    Advances env s (s.readObject env addr missing read).2 := by
  unfold readObject
  rcases getStateObject_spec sound addr with ⟨found, -⟩ | ⟨obj, t, found, loaded⟩
  · rw [found]
    exact .refl sound
  · rw [found]
    refine loaded.obtained.cache ?_
    rw [loaded.frame.db]
    exact same obj

theorem getStateObject_advances (sound : s.Sound env) (addr : AddressHash) :
    Advances env s (s.getStateObject env addr).2 := by
  rcases getStateObject_spec sound addr with ⟨found, -⟩ | ⟨obj, t, found, loaded⟩
  · rw [found]
    exact .refl sound
  · rw [found]
    exact .loaded loaded

theorem perform_performs (sound : s.Sound env) (call : Call) : Performs env s call (s.perform env call).2 := by
  cases call with
  | addBalance addr amount => exact .advances (addBalance_advances sound addr amount)
  | subBalance addr amount => exact .advances (subBalance_advances sound addr amount)
  | setBalance addr amount => exact .advances (setBalance_advances sound addr amount)
  | setNonce addr nonce => exact .advances (setNonce_advances sound addr nonce)
  | setCode addr code => exact .advances (setCode_advances sound addr code)
  | setState addr key value => exact .advances (setState_advances sound addr key value)
  | suicide addr => exact .advances (suicide_advances sound addr)
  | createAccount addr => exact .advances (createAccount_advances sound addr)
  | addLog log => exact .advances (addLog_advances sound log)
  | addRefund gas => exact .advances (addRefund_advances sound gas)
  | subRefund gas => exact .advances (subRefund_advances sound gas)
  | addPreimage hash preimage => exact .advances (addPreimage_advances sound hash preimage)
  | snapshot => exact .snapshot
  | revertToSnapshot revid =>
    simp only [perform]
    split
    · next t reverted => exact .revert reverted
    · exact .advances (.refl sound)
  | exist addr => exact .advances (getStateObject_advances sound addr)
  | getBalance addr => exact .advances (getStateObject_advances sound addr)
  | getNonce addr => exact .advances (getStateObject_advances sound addr)
  | getCode addr => exact .advances (readObject_advances sound addr _ fun obj => (obj.loadCode_spec env s.db).2)
  | getCodeHash addr => exact .advances (getStateObject_advances sound addr)
  | getState addr key => exact .advances (readObject_advances sound addr _ fun obj => (obj.getState_spec env s.db key).2)
  | getCommittedState addr key => exact .advances (readObject_advances sound addr _ fun obj => (obj.getCommittedState_spec env s.db key).2)
  | hasSuicided addr => exact .advances (getStateObject_advances sound addr)
  | getLogs hash => exact .advances (.refl sound)
  | getRefund => exact .advances (.refl sound)

structure Runs (env : Env) (s : StateDB) (id : Nat) (t : StateDB) : Prop where
  sound : t.Sound env
  db : t.db = s.db
  trie : t.trie = s.trie
  run : Journaled.Run (JournalEntry.undo env s.db) id (s.journaled env) (t.journaled env)

theorem Runs.perform {id : Nat} (runs : Runs env s id t) {call : Call} (performs : Performs env t call u)
    (nested : ∀ revid, call = .revertToSnapshot revid → id < revid) : Runs env s id u := by
  cases performs with
  | advances advances =>
    obtain ⟨added, entries, undone⟩ := advances.undone
    rw [runs.db] at undone
    refine ⟨advances.sound, advances.db.trans runs.db, advances.trie.trans runs.trie, ?_⟩
    have recorded := runs.run.record added (u.view env) undone
    have same : u.journaled env = { t.journaled env with view := u.view env, entries := added ++ t.entries } := by
      simp only [journaled, entries, advances.validRevisions, advances.nextRevisionID]
    rw [same]
    exact recorded
  | snapshot => exact ⟨runs.sound.snapshot, runs.db, runs.trie, journaled_snapshot t ▸ runs.run.mark⟩
  | @revert revid _ reverted =>
    obtain ⟨same, kept⟩ := revertToSnapshot_spec runs.sound revid
    obtain ⟨sound, db, trie⟩ := kept u reverted
    rw [reverted, runs.db] at same
    exact ⟨sound, db.trans runs.db, trie.trans runs.trie, runs.run.rollback (nested revid rfl) same.symm⟩

theorem run_runs (sound : s.Sound env) {id : Nat} (calls : List Call)
    (nested : ∀ revid, .revertToSnapshot revid ∈ calls → id < revid) : Runs env s id (s.run env calls) := by
  induction calls using reverseRecOn with
  | nil => exact ⟨sound, rfl, rfl, .refl _⟩
  | append_singleton calls call next =>
    have earlier := next fun revid member => nested revid (mem_append_left _ member)
    have last : s.run env (calls ++ [call]) = ((s.run env calls).perform env call).2 := by simp [StateDB.run]
    rw [last]
    refine earlier.perform (perform_performs earlier.sound call) ?_
    rintro revid rfl
    exact nested revid (by simp)

end Runs

/-- Two databases answer all questions alike. -/
structure SameAnswers (env : Env) (s t : StateDB) : Prop where
  exist : ∀ addr, (s.exist env addr).1 = (t.exist env addr).1
  balance : ∀ addr, (s.getBalance env addr).1 = (t.getBalance env addr).1
  nonce : ∀ addr, (s.getNonce env addr).1 = (t.getNonce env addr).1
  code : ∀ addr, (s.getCode env addr).1 = (t.getCode env addr).1
  codeHash : ∀ addr, (s.getCodeHash env addr).1 = (t.getCodeHash env addr).1
  state : ∀ addr key, (s.getState env addr key).1 = (t.getState env addr key).1
  committedState : ∀ addr key, (s.getCommittedState env addr key).1 = (t.getCommittedState env addr key).1
  hasSuicided : ∀ addr, (s.hasSuicided env addr).1 = (t.hasSuicided env addr).1
  logs : ∀ hash, s.getLogs hash = t.getLogs hash
  logSize : s.logSize = t.logSize
  refund : s.refund = t.refund
  preimages : ∀ hash, s.preimages.lookup hash = t.preimages.lookup hash

section Answers

section
variable (sound : s.Sound env) (addr : AddressHash)
include sound

theorem getStateObject_seen :
    (s.getStateObject env addr).1.map (·.view env s.db) = s.account env addr := by
  rcases getStateObject_spec sound addr with ⟨found, absent⟩ | ⟨obj, t, found, loaded⟩
  · rw [found, absent]
    rfl
  · rw [found, loaded.seen]
    rfl

theorem readObject_eq {α : Type} (missing : α)
    {read : StateObject → α × StateObject} (seen : AccountView → α)
    (same : ∀ obj, (read obj).1 = seen (obj.view env s.db)) :
    (s.readObject env addr missing read).1 = ((s.account env addr).map seen).getD missing := by
  unfold readObject
  rcases getStateObject_spec sound addr with ⟨found, absent⟩ | ⟨obj, t, found, loaded⟩
  · rw [found, absent]
    rfl
  · rw [found, loaded.seen]
    exact same obj

theorem exist_eq : (s.exist env addr).1 = (s.account env addr).isSome := by
  rw [← getStateObject_seen sound, isSome_map]
  rfl

theorem getBalance_eq :
    (s.getBalance env addr).1 = ((s.account env addr).map (·.balance)).getD 0 := by
  rw [← getStateObject_seen sound, Option.map_map]
  rfl

theorem getNonce_eq :
    (s.getNonce env addr).1 = ((s.account env addr).map (·.nonce)).getD 0 := by
  rw [← getStateObject_seen sound, Option.map_map]
  rfl

theorem getCodeHash_eq :
    (s.getCodeHash env addr).1 = ((s.account env addr).map (·.codeHash)).getD zeroHash := by
  rw [← getStateObject_seen sound, Option.map_map]
  rfl

theorem hasSuicided_eq :
    (s.hasSuicided env addr).1 = ((s.account env addr).map (·.suicided)).getD false := by
  rw [← getStateObject_seen sound, Option.map_map]
  rfl

theorem getCode_eq :
    (s.getCode env addr).1 = ((s.account env addr).map (·.code)).getD none :=
  readObject_eq sound addr none (·.code) fun obj => (obj.loadCode_spec env s.db).1

theorem getState_eq (key : HashType) :
    (s.getState env addr key).1 = ((s.account env addr).map (·.storage key)).getD zeroHash :=
  readObject_eq sound addr zeroHash (·.storage key) fun obj => (obj.getState_spec env s.db key).1

theorem getCommittedState_eq (key : HashType) :
    (s.getCommittedState env addr key).1 = ((s.account env addr).map (·.committed key)).getD zeroHash :=
  readObject_eq sound addr zeroHash (·.committed key) fun obj => (obj.getCommittedState_spec env s.db key).1

end

theorem SameAnswers.of_view (ofLeft : s.Sound env) (ofRight : t.Sound env) (same : s.view env = t.view env) :
    SameAnswers env s t := by
  have account (addr : AddressHash) : s.account env addr = t.account env addr := congrFun (congrArg View.account same) addr
  exact {
    exist := fun addr => by rw [exist_eq ofLeft, exist_eq ofRight, account]
    balance := fun addr => by rw [getBalance_eq ofLeft, getBalance_eq ofRight, account]
    nonce := fun addr => by rw [getNonce_eq ofLeft, getNonce_eq ofRight, account]
    code := fun addr => by rw [getCode_eq ofLeft, getCode_eq ofRight, account]
    codeHash := fun addr => by rw [getCodeHash_eq ofLeft, getCodeHash_eq ofRight, account]
    state := fun addr key => by rw [getState_eq ofLeft, getState_eq ofRight, account]
    committedState := fun addr key => by rw [getCommittedState_eq ofLeft, getCommittedState_eq ofRight, account]
    hasSuicided := fun addr => by rw [hasSuicided_eq ofLeft, hasSuicided_eq ofRight, account]
    logs := congrFun (congrArg View.logs same)
    logSize := congrArg View.logSize same
    refund := congrArg View.refund same
    preimages := congrFun (congrArg View.preimages same) }

end Answers

/-- Snapshots are exact: after any calls, among them reverts to later snapshots only, the
revert to a snapshot returns, all questions are answered as at the snapshot, and the valid
revisions are those made before it. -/
theorem snapshot_exact (s : StateDB) (sound : s.Sound env) (calls : List Call)
    (nested : ∀ revid, .revertToSnapshot revid ∈ calls → s.snapshot.1 < revid) :
    ∃ t, (s.snapshot.2.run env calls).revertToSnapshot env s.snapshot.1 = some t ∧ SameAnswers env t s ∧
      t.validRevisions = s.validRevisions := by
  have runs := run_runs sound.snapshot calls nested
  have marked := runs.run
  rw [journaled_snapshot] at marked
  have fresh : ∀ mark ∈ (s.journaled env).marks, mark.1 < (s.journaled env).next := by
    intro mark member
    obtain ⟨revision, among, rfl⟩ := mem_map.mp member
    exact sound.revisions revision among
  have restored := rollback_of_run fresh marked
  obtain ⟨same, kept⟩ := revertToSnapshot_spec runs.sound s.snapshot.1
  rw [runs.db] at same
  obtain ⟨t, reverted, final⟩ := map_eq_some_iff.mp (same.trans restored)
  refine ⟨t, reverted, .of_view (kept t reverted).1 sound (congrArg Journaled.view final), ?_⟩
  have marks : t.validRevisions.map (fun revision => (revision.id, revision.journalIndex)) =
      s.validRevisions.map fun revision => (revision.id, revision.journalIndex) := congrArg marks final
  refine map_injective_iff.mpr ?_ marks
  rintro ⟨⟩ ⟨⟩ ⟨⟩
  rfl

theorem new_sound {db : Database} {rootHash utxoRootHash : Option HashType}
    (opened : StateDB.new env rootHash utxoRootHash db = some s) : s.Sound env := by
  simp only [StateDB.new, bind_eq_bind, bind_eq_some_iff] at opened
  obtain ⟨trie, -, utxoTrie, -, same⟩ := opened
  cases same
  exact ⟨nofun, nofun, by simp, by simp⟩

section Sample

/-- Encodings and hashes that only tell apart what the samples use. -/
def sampleEnv : Env where
  keccak256 bytes := .copy 32 bytes
  rootHash content := if content ripemd.bytes = none then none else some (.copy 32 [1])
  encodeAccount account := if account.balance < 0 then none else some [account.nonce.toUInt8, .ofNat account.balance.toNat]
  decodeAccount enc := some ⟨(enc.getD 0 0).toUInt64, (enc.getD 1 0).toNat, zeroHash, .copy 32 []⟩
  encodeBytes bytes := 0 :: bytes
  splitBytes enc := enc.tail?

/-- A database over an empty table. -/
def sampleState : StateDB :=
  { db := ⟨[], ∅⟩, trie := emptyTrie, utxoTrie := emptyTrie, stateObjects := ∅, stateObjectsDirty := ∅, dbErr := false,
    refund := 0, thash := zeroHash, bhash := zeroHash, txIndex := 0, logs := ∅, logSize := 0, preimages := ∅,
    entries := [], dirties := ∅, validRevisions := [], nextRevisionID := 0 }

theorem sampleState_new : StateDB.new sampleEnv none none ⟨[], ∅⟩ = some sampleState := rfl

/-- A suicide after a change of storage, with a snapshot and a revert in between. -/
def sampleCalls : List Call :=
  [.addBalance ripemd 5, .snapshot, .setState ripemd zeroHash (.copy 32 [7]), .suicide ripemd, .revertToSnapshot 1,
    .createAccount ripemd, .setNonce ripemd 1]

theorem sample_snapshot_exact :
    ∃ t, (sampleState.snapshot.2.run sampleEnv sampleCalls).revertToSnapshot sampleEnv 0 = some t ∧
      SameAnswers sampleEnv t sampleState ∧ t.validRevisions = [] :=
  snapshot_exact sampleState (new_sound sampleState_new) sampleCalls (by simp [sampleCalls, sampleState, StateDB.snapshot])

/-- The snapshot that was reverted to is not valid any more. -/
theorem reverted_snapshot_invalid :
    ∃ t, sampleState.snapshot.2.revertToSnapshot sampleEnv sampleState.snapshot.1 = some t ∧
      t.revertToSnapshot sampleEnv sampleState.snapshot.1 = none :=
  ⟨_, rfl, rfl⟩

end Sample

end StateDB

end Boxd.WorldState
