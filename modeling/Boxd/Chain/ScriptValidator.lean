import Boxd.Chain.Validate
import Boxd.Lib.Transitions

/-! The parallel check of the scripts of a block: `validate` hands the items to the workers
over one unbuffered channel and gets their results over another, in one `select`. -/

namespace Boxd

def ScriptItem.validate (c : Crypto) (it : ScriptItem) : Option ScriptError :=
  match Boxd.validate c it.scriptSig it.prevScriptPubKey it.tx it.txInIdx with
  | .ok _ => none
  | .error err => some err

/-- Where a worker is in `doValidate`: at the `select`, with an item, or blocked on
sending its result. -/
inductive Worker where
  | waiting
  | validating (itemIdx : Nat)
  | reporting (itemIdx : Nat) (err : Option ScriptError)
  | stopped
  deriving DecidableEq

/-- Where `validate` is: at the `select` of its loop, or at the end. `quitCh` is closed
when it has returned. -/
inductive Dispatcher where
  | running (nextItemIdx validatedItems : Nat)
  | returned (err : Option ScriptError)
  deriving DecidableEq

/-- `scriptValidator` with its goroutines. The log of the items whose scripts were run is
not part of the source. -/
structure ScriptValidator where
  dispatcher : Dispatcher
  workers : List Worker
  log : List Nat
  deriving DecidableEq

namespace ScriptValidator

/-- The steps of the goroutines. An item and a result pass the channel when both sides
are ready. -/
inductive Action where
  | send (worker : Nat)
  | validate (worker : Nat)
  | receive (worker : Nat)
  | finish
  | quit (worker : Nat)
  deriving DecidableEq

def start (totalValidatorWorkers : Nat) : ScriptValidator :=
  ⟨.running 0 0, List.replicate totalValidatorWorkers .waiting, []⟩

def afterReport : Option ScriptError → Worker
  | none => .waiting
  | some _ => .stopped

def afterResult (nextItemIdx validatedItems : Nat) : Option ScriptError → Dispatcher
  | none => .running nextItemIdx (validatedItems + 1)
  | some err => .returned (some err)

def step (c : Crypto) (scriptItems : List ScriptItem) : Action → ScriptValidator → Option ScriptValidator
  | .send w, ⟨.running nextItemIdx validatedItems, workers, log⟩ =>
    if validatedItems < scriptItems.length ∧ nextItemIdx < scriptItems.length ∧ workers[w]? = some .waiting then
      some ⟨.running (nextItemIdx + 1) validatedItems, workers.set w (.validating nextItemIdx), log⟩
    else none
  | .validate w, ⟨dispatcher, workers, log⟩ =>
    match workers[w]? with
    | some (.validating itemIdx) =>
      scriptItems[itemIdx]?.map fun it => ⟨dispatcher, workers.set w (.reporting itemIdx (it.validate c)), log ++ [itemIdx]⟩
    | _ => none
  | .receive w, ⟨.running nextItemIdx validatedItems, workers, log⟩ =>
    if validatedItems < scriptItems.length then
      match workers[w]? with
      | some (.reporting _ err) =>
        some ⟨afterResult nextItemIdx validatedItems err, workers.set w (afterReport err), log⟩
      | _ => none
    else none
  | .finish, ⟨.running _ validatedItems, workers, log⟩ =>
    if validatedItems < scriptItems.length then none else some ⟨.returned none, workers, log⟩
  | .quit w, ⟨.returned err, workers, log⟩ =>
    if workers[w]? = some .waiting then some ⟨.returned err, workers.set w .stopped, log⟩ else none
  | _, _ => none

end ScriptValidator
end Boxd
