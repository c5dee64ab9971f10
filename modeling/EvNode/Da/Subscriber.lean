import EvNode.Types.Basic

/-!
# The DA subscriber

`block/internal/da/subscriber.go`: `runCatchup` and the event branch of `runSubscription`, two
processes that share `localDAHeight`. Each `Op` is one atomic load, compare-and-swap or store of one
of them, or the return of a handler call. An operation of a process that is not at that point of its
program does nothing.

What the handler does is not modelled here: an operation says what the call returned.
-/

namespace EvNode

/-- Where `catchupLoop` is. -/
inductive CatchupAt where
  /-- waiting for `catchupSignal` -/
  | waiting
  /-- at the top of the loop of `runCatchup` -/
  | top
  /-- `local` is loaded -/
  | loaded (localHeight : Nat)
  /-- `highest` is loaded too, and there is more to do -/
  | behind (localHeight highest : Nat)
  /-- `HandleCatchup` runs -/
  | handling (localHeight highest : Nat)
  /-- `HandleCatchup` has returned an error -/
  | failed (localHeight highest : Nat) (err : Err)
  /-- in `shouldContinueCatchup` -/
  | backingOff
  deriving DecidableEq

/-- Where `runSubscription` is. -/
inductive FollowAt where
  /-- waiting for an event -/
  | waiting
  /-- an event has been received -/
  | received (height : Nat)
  /-- `local` is loaded -/
  | loaded (height localHeight : Nat)
  /-- `HandleEvent` runs; inline, the height of the event is also `local` -/
  | handling (height : Nat) (isInline : Bool)
  /-- the inline `HandleEvent` has succeeded -/
  | succeeded (height : Nat)
  /-- the inline `HandleEvent` has returned an error -/
  | failed (height : Nat)
  deriving DecidableEq

/-- `Subscriber`, with the program points of its two loops. `handled` is a history no function
reads: the heights for which a claiming handler call has returned nil. -/
structure Subscriber where
  localDAHeight : Nat
  highestSeenDAHeight : Nat
  headReached : Bool
  seenSubscriptionEvent : Bool
  catchupSignal : Bool
  catchup : CatchupAt
  follow : FollowAt
  handled : List Nat
  deriving DecidableEq

namespace Subscriber

/-- `NewSubscriber`. -/
def newSubscriber (startHeight : Nat) : Subscriber :=
  ⟨startHeight, startHeight, false, false, startHeight ≠ 0, .waiting, .waiting, []⟩

/-- `updateHighest`. -/
def updateHighest (height : Nat) (s : Subscriber) : Subscriber :=
  if height ≤ s.highestSeenDAHeight then s
  else { s with highestSeenDAHeight := height, catchupSignal := true }

inductive Op where
  /-- `pollDAHeight` with the latest DA height -/
  | poll (height : Nat)
  | receive (height : Nat)
  | followLoad
  | followSwap
  | followReturn (err : Option Err)
  | followHead
  | followRollback
  | wake
  | catchupLoad (cancelled : Bool)
  | catchupLoadHighest
  | catchupSwap
  | catchupReturn (err : Option Err)
  | catchupRollback
  | catchupResume (cancelled : Bool)
  deriving DecidableEq

/-- `pollDAHeight`. -/
def poll (height : Nat) (s : Subscriber) : Subscriber :=
  if height ≤ s.highestSeenDAHeight then s
  else updateHighest height { s with seenSubscriptionEvent := true }

/-! ## The event branch of `runSubscription` -/

def receive (height : Nat) (s : Subscriber) : Subscriber :=
  match s.follow with
  | .waiting =>
    updateHighest height { s with seenSubscriptionEvent := true, follow := .received height }
  | _ => s

def followLoad (s : Subscriber) : Subscriber :=
  match s.follow with
  | .received height => { s with follow := .loaded height s.localDAHeight }
  | _ => s

/-- The compare-and-swap, which is tried only when the event is for the loaded height. -/
def followSwap (s : Subscriber) : Subscriber :=
  match s.follow with
  | .loaded height localHeight =>
    if height = localHeight ∧ s.localDAHeight = localHeight then
      { s with localDAHeight := localHeight + 1, follow := .handling height true }
    else { s with follow := .handling height false }
  | _ => s

def followReturn (err : Option Err) (s : Subscriber) : Subscriber :=
  match s.follow with
  | .handling height true =>
    match err with
    | none => { s with follow := .succeeded height, handled := height :: s.handled }
    | some _ => { s with follow := .failed height }
  | .handling _ false => { s with follow := .waiting }
  | _ => s

def followHead (s : Subscriber) : Subscriber :=
  match s.follow with
  | .succeeded height =>
    { s with
      headReached := if s.highestSeenDAHeight ≤ height then true else s.headReached
      follow := .waiting }
  | _ => s

def followRollback (s : Subscriber) : Subscriber :=
  match s.follow with
  | .failed height => { s with localDAHeight := height, follow := .waiting }
  | _ => s

/-! ## `runCatchup` -/

def wake (s : Subscriber) : Subscriber :=
  match s.catchup with
  | .waiting => if s.catchupSignal then { s with catchupSignal := false, catchup := .top } else s
  | _ => s

def catchupLoad (cancelled : Bool) (s : Subscriber) : Subscriber :=
  match s.catchup with
  | .top =>
    if cancelled then { s with catchup := .waiting }
    else { s with catchup := .loaded s.localDAHeight }
  | _ => s

def catchupLoadHighest (s : Subscriber) : Subscriber :=
  match s.catchup with
  | .loaded localHeight =>
    if s.seenSubscriptionEvent ∧ s.highestSeenDAHeight < localHeight then
      { s with headReached := true, catchup := .waiting }
    else { s with catchup := .behind localHeight s.highestSeenDAHeight }
  | _ => s

def catchupSwap (s : Subscriber) : Subscriber :=
  match s.catchup with
  | .behind localHeight highest =>
    if s.localDAHeight = localHeight then
      { s with localDAHeight := localHeight + 1, catchup := .handling localHeight highest }
    else { s with catchup := .top }
  | _ => s

def catchupReturn (err : Option Err) (s : Subscriber) : Subscriber :=
  match s.catchup with
  | .handling localHeight highest =>
    match err with
    | none => { s with catchup := .top, handled := localHeight :: s.handled }
    | some e => { s with catchup := .failed localHeight highest e }
  | _ => s

def catchupRollback (s : Subscriber) : Subscriber :=
  match s.catchup with
  | .failed localHeight highest e =>
    if e.is .heightFromFuture ∧ highest ≤ localHeight then
      { s with localDAHeight := localHeight, headReached := true, catchup := .waiting }
    else { s with localDAHeight := localHeight, catchup := .backingOff }
  | _ => s

/-- The end of `shouldContinueCatchup`. -/
def catchupResume (cancelled : Bool) (s : Subscriber) : Subscriber :=
  match s.catchup with
  | .backingOff => { s with catchup := if cancelled then .waiting else .top }
  | _ => s

/-- One atomic step. -/
def step (s : Subscriber) : Op → Subscriber
  | .poll height => s.poll height
  | .receive height => s.receive height
  | .followLoad => s.followLoad
  | .followSwap => s.followSwap
  | .followReturn err => s.followReturn err
  | .followHead => s.followHead
  | .followRollback => s.followRollback
  | .wake => s.wake
  | .catchupLoad cancelled => s.catchupLoad cancelled
  | .catchupLoadHighest => s.catchupLoadHighest
  | .catchupSwap => s.catchupSwap
  | .catchupReturn err => s.catchupReturn err
  | .catchupRollback => s.catchupRollback
  | .catchupResume cancelled => s.catchupResume cancelled

end Subscriber

end EvNode
