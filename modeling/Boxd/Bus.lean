import Boxd.Lib.Table

/-! The send-reply half of the event bus, and what the consensus registers there. -/

namespace Boxd
open Lib

inductive Topic where
  | miners | checkMiner | dynastyUpdate
  deriving DecidableEq

/-- The parameter of a callback, as far as `Reply` looks at it. -/
inductive ParamKind where
  | chan | other
  deriving DecidableEq

inductive BusError where
  | noChanParam | alreadyHasReceiver
  deriving DecidableEq

/-- `EventBus`: the receiver of each topic, and the callbacks that were started in a
goroutine and have not run yet. -/
structure Bus where
  sendHandlers : Table Topic (List ParamKind)
  pending : List Topic

namespace Bus

def new : Bus := ⟨∅, []⟩

/-- `Reply`: a callback has to have a channel for its result. -/
def reply (topic : Topic) (params : List ParamKind) (bus : Bus) : Except BusError Bus :=
  if ParamKind.chan ∉ params then .error .noChanParam
  else if (bus.sendHandlers.lookup topic).isSome then .error .alreadyHasReceiver
  else .ok { bus with sendHandlers := bus.sendHandlers.insert topic params }

def send (topic : Topic) (bus : Bus) : Bus :=
  if (bus.sendHandlers.lookup topic).isSome then { bus with pending := bus.pending ++ [topic] } else bus

end Bus

/-- The callbacks of `Bpos.subscribe`, in order. -/
def Bpos.replies : List (Topic × List ParamKind) :=
  [(.miners, [.chan]), (.checkMiner, [.other, .chan]), (.dynastyUpdate, [.other])]

def Bpos.subscribe (bus : Bus) : Bus :=
  Bpos.replies.foldl (fun bus entry => (bus.reply entry.1 entry.2).toOption.getD bus) bus

end Boxd
