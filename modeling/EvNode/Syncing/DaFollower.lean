import EvNode.Da.Subscriber
import EvNode.Syncing.DaNode

/-!
# The DA follower

`block/internal/syncing/da_follower.go`: the handler of the subscriber, over the retriever and the
syncer. The event branch of `runSubscription` and `runCatchup` take the steps of `Subscriber.step`; where
one of them is in a handler call, the call is one step here, and the subscriber goes on with what it
returned. The blobs of an event are those of one namespace at one DA height.

One process: the subscriber is new, and so is the retriever. A crash ends the run.
-/

namespace EvNode

open Crash Proc

variable {Tx : Type}

namespace Syncer

/-- What became of a number of events: the error of the last `PipeEvent`, the events for which it
returned nil, and the syncer. -/
structure Piped (Tx : Type) where
  err : Option Err
  events : List (DAHeightEvent Tx)
  syncer : Syncer Tx

/-- `pipeEvents`, with what `PipeEvent` returned. -/
def pipeAll (cfg : SyncerConfig Tx) :
    Option Nat → List (DAHeightEvent Tx) → Syncer Tx → Piped Tx
  | _, [], s => ⟨none, [], s⟩
  | none, event :: events, s =>
    let piped := pipeAll cfg none events (pipeEvent cfg false event s)
    { piped with events := event :: piped.events }
  | some (n + 1), event :: events, s =>
    let piped := pipeAll cfg (some n) events (pipeEvent cfg false event s)
    { piped with events := event :: piped.events }
  | some 0, event :: events, s =>
    if s.cache.isHeaderSeen (headerHash cfg event) then
      let piped := pipeAll cfg (some 0) events s
      { piped with events := event :: piped.events }
    else ⟨some (.text "context canceled"), [], pipeEvent cfg true event s⟩

theorem pipeAll_syncer (cfg : SyncerConfig Tx) (doneAt : Option Nat) (events : List (DAHeightEvent Tx))
    (s : Syncer Tx) : (pipeAll cfg doneAt events s).syncer = pipeEvents cfg doneAt events s := by
  fun_induction pipeEvents cfg doneAt events s with
  | case1 => simp [pipeAll]
  | case2 _ _ _ ih | case3 _ _ _ _ ih => simp [pipeAll, ih]
  | case4 _ _ _ hseen ih => simp [pipeAll, hseen, ih]
  | case5 _ _ _ hseen => simp [pipeAll, hseen]

theorem pipeAll_none (cfg : SyncerConfig Tx) (events : List (DAHeightEvent Tx)) (s : Syncer Tx) :
    (pipeAll cfg none events s).err = none ∧ (pipeAll cfg none events s).events = events := by
  induction events generalizing s with
  | nil => exact ⟨rfl, rfl⟩
  | cons event events ih =>
    obtain ⟨herr, hevents⟩ := ih (pipeEvent cfg false event s)
    exact ⟨herr, congrArg (event :: ·) hevents⟩

end Syncer

/-- `daFollower` with its subscriber, and the node it serves. -/
structure DAFollower (Tx : Type) where
  subscriber : Subscriber
  node : DANode Tx
  /-- The blobs of the event that `runSubscription` has received. -/
  blobs : List Bytes
  priorityHeights : List Nat
  /-- The events for which `PipeEvent` returned nil. -/
  handed : List (DAHeightEvent Tx)

/-- What one fetch meets: the answers of the DA client, and the environment of the blobs. -/
structure FetchEnv where
  client : DARetriever.BlobAnswers
  scan : ScanEnv

/-- What one `HandleCatchup` meets: for each hint that it takes up, and for the height itself. -/
structure CatchupEnv where
  hint : Nat → FetchEnv
  sequential : FetchEnv

namespace DAFollower

/-- The follower of a process that has just started. -/
def started (startHeight : Nat) (syncer : Syncer Tx) : DAFollower Tx :=
  ⟨.newSubscriber startHeight, ⟨syncer, DARetriever.newDARetriever⟩, [], [], []⟩

/-- What a handler call returned, the events it piped, and the node. -/
structure Handled (Tx : Type) where
  err : Option Err
  events : List (DAHeightEvent Tx)
  node : DANode Tx

/-! ## The handler -/

/-- Pipe the events that the retriever has returned. -/
def pipe (cfg : DANodeConfig Tx) (doneAt : Option Nat) (events : List (DAHeightEvent Tx))
    (r : Retrieval Tx) (n : DANode Tx) : Handled Tx :=
  let piped := Syncer.pipeAll cfg.toSyncerConfig doneAt events { n.syncer with cache := r.cache }
  ⟨piped.err, piped.events, ⟨piped.syncer, r.retriever⟩⟩

/-- `HandleEvent`. -/
def handleEvent (cfg : DANodeConfig Tx) (env : ScanEnv) (blobs : List Bytes) (height : Nat)
    (isInline : Bool) (n : DANode Tx) : Handled Tx :=
  if isInline = false then ⟨none, [], n⟩
  else if blobs.length = 0 then ⟨some (.text "skip inline: no blobs"), [], n⟩
  else
    let res := DARetriever.processBlobs cfg.retriever (DANode.blobEnv env n.syncer) blobs height
      ⟨n.part, n.syncer.cache⟩
    if res.1.length = 0 then
      ⟨some (.text "skip inline: no complete events"), [],
        ⟨{ n.syncer with cache := res.2.cache }, res.2.retriever⟩⟩
    else pipe cfg env.doneAt res.1 res.2 n

/-- `fetchAndPipeHeight`. A DA height without blobs is done. -/
def fetchAndPipeHeight (cfg : DANodeConfig Tx) (env : FetchEnv) (daHeight : Nat) (n : DANode Tx) :
    Handled Tx :=
  match DARetriever.retrieveFromDA cfg.retriever (DANode.blobEnv env.scan n.syncer) env.client daHeight
    ⟨n.part, n.syncer.cache⟩ with
  | (.error e, _) => ⟨if e.is .blobNotFound then none else some e, [], n⟩
  | (.ok events, r) => pipe cfg env.scan.doneAt events r n

/-- The first loop of `HandleCatchup`: hints below the height are dropped, a hint from the future is
ignored, and the first other one is fetched. -/
def drainPriority (cfg : DANodeConfig Tx) (env : Nat → FetchEnv) (daHeight : Nat) :
    List Nat → DANode Tx → List Nat × Handled Tx
  | [], n => ([], ⟨none, [], n⟩)
  | hint :: hints, n =>
    if hint = 0 then (hints, ⟨none, [], n⟩)
    else if hint < daHeight then drainPriority cfg env daHeight hints n
    else
      let fetched := fetchAndPipeHeight cfg (env hint) hint n
      match fetched.err with
      | none => (hints, fetched)
      | some e =>
        if e.is .heightFromFuture then
          let rest := drainPriority cfg env daHeight hints fetched.node
          (rest.1, { rest.2 with events := fetched.events ++ rest.2.events })
        else (hints, fetched)

/-- `HandleCatchup`. -/
def handleCatchup (cfg : DANodeConfig Tx) (env : CatchupEnv) (daHeight : Nat) (hints : List Nat)
    (n : DANode Tx) : List Nat × Handled Tx :=
  let drained := drainPriority cfg env.hint daHeight hints n
  match drained.2.err with
  | some _ => drained
  | none =>
    let fetched := fetchAndPipeHeight cfg env.sequential daHeight drained.2.node
    (drained.1, { fetched with events := drained.2.events ++ fetched.events })

/-- The capacity of the priority queue. -/
def maxPriorityHeights : Nat := 1024

/-- `QueuePriorityHeight`. -/
def queuePriorityHeight (daHeight : Nat) (heights : List Nat) : List Nat :=
  if daHeight ∈ heights then heights
  else if maxPriorityHeights ≤ heights.length then
    if heights.getLast?.getD 0 ≤ daHeight then heights
    else heights.dropLast.orderedInsert (· ≤ ·) daHeight
  else heights.orderedInsert (· ≤ ·) daHeight

/-! ## Operations -/

/-- Steps of the subscriber outside of handler calls, the receipt of an event, the two handler calls, a
hint from P2P, and what the syncer does besides. -/
inductive Op (Tx : Type) where
  | subscriber (op : Subscriber.Op)
  | receive (height : Nat) (blobs : List Bytes)
  | handleEvent (env : ScanEnv)
  | handleCatchup (env : CatchupEnv)
  | queuePriorityHeight (daHeight : Nat)
  | syncer (op : Syncer.Op Tx)

/-- What an operation does while the process runs. A handler call returns to the subscriber. -/
def perform (cfg : DANodeConfig Tx) (f : DAFollower Tx) : Op Tx → DAFollower Tx
  | .subscriber (.receive _) | .subscriber (.followReturn _) | .subscriber (.catchupReturn _) => f
  | .subscriber op => { f with subscriber := f.subscriber.step op }
  | .receive height blobs =>
    match f.subscriber.follow with
    | .waiting => { f with subscriber := f.subscriber.receive height, blobs := blobs }
    | _ => f
  | .handleEvent env =>
    match f.subscriber.follow with
    | .handling height isInline =>
      let res := handleEvent cfg env f.blobs height isInline f.node
      { f with
        subscriber := f.subscriber.followReturn res.err
        node := res.node
        handed := f.handed ++ res.events }
    | _ => f
  | .handleCatchup env =>
    match f.subscriber.catchup with
    | .handling localHeight _ =>
      let res := handleCatchup cfg env localHeight f.priorityHeights f.node
      { f with
        subscriber := f.subscriber.catchupReturn res.2.err
        node := res.2.node
        priorityHeights := res.1
        handed := f.handed ++ res.2.events }
    | _ => f
  | .queuePriorityHeight daHeight =>
    { f with priorityHeights := queuePriorityHeight daHeight f.priorityHeights }
  | .syncer _ => f

/-- One process. The syncer is not started again, and its events from DA come from the follower. -/
def step [Transaction Tx] (cfg : DANodeConfig Tx) (l : Live (DAFollower Tx)) :
    Op Tx → Live (DAFollower Tx)
  | .syncer (.start _) | .syncer (.pipeEvent _ _) => l
  | .syncer op =>
    let node := Hooked.step DARetriever.hooks cfg.toSyncerConfig ⟨l.up, l.state.node⟩ op
    ⟨node.up, { l.state with node := node.state }⟩
  | op => l.call (modify fun f => perform cfg f op : Proc (DAFollower Tx) Err Unit)

end DAFollower

/-! ## Catch-up before production

`catchupStatus` and `waitForCatchup` of `node/failover.go`. -/

/-- `catchupStatus`. -/
structure CatchupStatus where
  storeHeight : Nat
  headerHeight : Nat
  dataHeight : Nat
  headerP2PReady : Bool
  dataP2PReady : Bool
  daCaughtUp : Bool
  pendingEvents : Nat
  deriving DecidableEq

/-- What the P2P services say. -/
structure P2PStatus where
  headerHeight : Nat
  dataHeight : Nat
  headerP2PReady : Bool
  dataP2PReady : Bool

namespace CatchupStatus

def p2pReady (s : CatchupStatus) : Bool :=
  s.headerP2PReady && s.dataP2PReady && max s.headerHeight s.dataHeight ≤ s.storeHeight

def ready (p2pRecovery : Bool) (s : CatchupStatus) : Bool :=
  if !s.daCaughtUp || s.pendingEvents != 0 then false
  else if !p2pRecovery then true
  else s.p2pReady

end CatchupStatus

/-- `PendingCount`. No event is in flight between two steps. -/
def Syncer.pendingCount (s : Syncer Tx) : Nat :=
  s.heightInCh.length + s.cache.pendingEvents.entries.length

/-- `catchupStatus` of a node with a syncer. -/
def DAFollower.catchupStatus (p2p : P2PStatus) (f : DAFollower Tx) : CatchupStatus where
  storeHeight := f.node.syncer.store.height
  headerHeight := p2p.headerHeight
  dataHeight := p2p.dataHeight
  headerP2PReady := p2p.headerP2PReady
  dataP2PReady := p2p.dataP2PReady
  daCaughtUp := f.subscriber.headReached
  pendingEvents := f.node.syncer.pendingCount

/-- What the loop of `waitForCatchup` selects, with the status it reads or the error of that. -/
inductive CatchupTick where
  | cancelled
  | timeout (status : Except Err CatchupStatus)
  | ticker (status : Except Err CatchupStatus)

/-- The end of one round of `waitForCatchup`. -/
inductive CatchupRound where
  | returned (caughtUp : Except Err Bool)
  | goesOn (timeoutOn : Bool)

/-- One round of `waitForCatchup`. `timeoutOn` says whether `timeoutCh` is not nil. -/
def waitForCatchup (p2pRecovery timeoutOn : Bool) : CatchupTick → CatchupRound
  | .cancelled => .returned (.error (.text "context canceled"))
  | .timeout (.error e) =>
    if timeoutOn then
      .returned (.error (.wrap "P2P recovery timed out and failed to read recovery heights" e))
    else .goesOn timeoutOn
  | .timeout (.ok status) =>
    if timeoutOn then
      if status.p2pReady then .goesOn false
      else .returned (.error (.text "P2P recovery timed out before continuity was established"))
    else .goesOn timeoutOn
  | .ticker (.error _) => .goesOn timeoutOn
  | .ticker (.ok status) =>
    if status.ready p2pRecovery then .returned (.ok true)
    else .goesOn (if p2pRecovery && status.p2pReady then false else timeoutOn)

end EvNode
