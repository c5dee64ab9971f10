import EvNode.Raft.Fsm

/-!
# Raft leader election

`DynamicLeaderElection.Run` of `pkg/raft/election.go`, with what its follower does for it:
`IsSyncedWithRaft` and `RecoverFromRaft` of the syncer. Between two steps of the loop the replicated
state machine may apply another block, and the worker of the follower may sync one.

The loop reads the raft state, compares it with the store, may wait for the store, reads the raft state
again, and recovers. It does not look at the raft state after that. The chain and the raft state with
which the leader was started are recorded in `led`.
-/

namespace EvNode

open Crash Proc

variable {Tx : Type}

namespace Syncer

/-! ## The follower's answers -/

/-- The state of a syncer that was not started. -/
def unstartedState : State := ⟨⟨0, 0⟩, "", 0, 0, 0, [], 0, [], []⟩

/-- The state from which `RecoverFromRaft` goes on. A syncer that was not started reads it from the
store, and falls back to the height before the first one. -/
def recoveryState (cfg : SyncerConfig Tx) (s : Syncer Tx) : State :=
  if s.lastState.chainID = "" then
    s.store.getState.getD { unstartedState with
      chainID := cfg.genesis.chainID
      initialHeight := cfg.genesis.initialHeight
      lastBlockHeight := cfg.genesis.initialHeight - 1 }
  else s.lastState

/-- `RecoverFromRaft`, of a syncer that may not have been started. -/
def recover [Transaction Tx] (cfg : SyncerConfig Tx) (env : SyncEnv Tx) (raft : RaftBlockState Tx) :
    Proc (Syncer Tx) Err Unit := do
  let s ← get
  let currentState := s.recoveryState cfg
  if currentState.lastBlockHeight = raft.height then
    require (currentState.lastHeaderHash = raft.hash) (.text "header hash mismatch")
  else if currentState.lastBlockHeight + 1 = raft.height then
    trySyncNextBlockWithState cfg env ⟨raft.header, raft.data, 0, .raft⟩ currentState
  else if raft.height < currentState.lastBlockHeight then
    match s.store.getBlockData raft.height with
    | none => throw (.text "local state ahead of raft snapshot, cannot verify hash")
    | some (header, _) =>
      require (cfg.hashes.headerHash header.header = raft.hash)
        (.text "local state diverged from raft")
  else pure ()

theorem recover_started [Transaction Tx] (cfg : SyncerConfig Tx) (env : SyncEnv Tx)
    (raft : RaftBlockState Tx) {s : Syncer Tx} (h : s.lastState.chainID ≠ "") :
    recover cfg env raft s = recoverFromRaft cfg env raft s := by
  unfold recover recoverFromRaft recoveryState
  rewrite [get_bind_run, get_bind_run, if_neg h]
  rfl

/-- `Recover` of the failover state. The empty raft state has no header to decode. -/
def recoverFSM [Transaction Tx] (cfg : SyncerConfig Tx) (env : SyncEnv Tx) :
    Raft.FSM Tx → Proc (Syncer Tx) Err Unit
  | none => throw (.wrap "unmarshal header" (.text "signed header's Header is nil"))
  | some raft => recover cfg env raft.toRaftBlockState

/-- `IsSyncedWithRaft`: by how many blocks the chain is ahead of raft. At the same height the hashes are
compared. -/
def isSyncedWithRaft (cfg : SyncerConfig Tx) (raft : Raft.FSM Tx) (s : Syncer Tx) : Except Err Int :=
  match s.store.getState with
  | none => .error (.text "failed to get state")
  | some state =>
    let diff := (state.lastBlockHeight : Int) - Raft.FSM.height raft
    if diff ≠ 0 then .ok diff
    else if Raft.FSM.height raft = 0 then .ok 0
    else
      match s.store.getBlockData (Raft.FSM.height raft) with
      | none => .error (.text "get header for sync check")
      | some (header, _) =>
        if cfg.hashes.headerHash header.header = Raft.FSM.hash raft then .ok 0
        else .error (.text "header hash mismatch")

/-- `NewSyncer` alone. -/
def unstarted (cfg : SyncerConfig Tx) (env : StartEnv) (store : Store Tx) : Syncer Tx :=
  { newSyncer cfg env store with lastState := unstartedState }

/-- `Start` of a syncer that exists. -/
def startWorker (cfg : SyncerConfig Tx) (env : StartEnv) : Proc (Syncer Tx) Err Unit := do
  initializeState cfg env
  modify fun s => { s with processedHeight := max s.processedHeight s.store.height }

end Syncer

/-! ## The loop -/

/-- The goroutine of the follower. -/
inductive Worker where
  | absent
  | launched
  | running
  | exited
  deriving DecidableEq

/-- Where `Run` is. -/
inductive Phase (Tx : Type) where
  /-- In the `select`, not the leader. -/
  | idle
  /-- `startFollower` creates the follower. -/
  | following
  /-- `verifyState`. -/
  | verifying
  /-- Became the leader, and waits until the messages have landed. -/
  | landing
  /-- About to read the raft state, for the second time if `refreshed`. -/
  | reading (refreshed : Bool)
  /-- About to compare the store with the raft state that was read. -/
  | checking (raft : Raft.FSM Tx) (refreshed : Bool)
  /-- `waitForBlockStoreSync`. -/
  | waiting
  | recovering (raft : Raft.FSM Tx)
  /-- About to stop the follower, if there is one, and to start the leader. -/
  | starting
  /-- In the `select`, with the leader started. -/
  | leader
  /-- `Run` has returned. -/
  | stopped

structure Election (Tx : Type) where
  phase : Phase Tx
  ticking : Bool
  isStarted : Bool
  worker : Worker
  syncer : Syncer Tx
  fsm : Raft.FSM Tx
  /-- The chain and the raft state when the leader was started after a follower. -/
  led : Option (Store Tx × Raft.FSM Tx)

/-- What one step of the loop meets. -/
structure LoopEnv (Tx : Type) where
  /-- `waitForMsgsLanded` succeeds. -/
  landed : Bool
  /-- `leaderID` is the own one. -/
  isLeader : Bool
  /-- The context is done. -/
  cancelled : Bool
  /-- The deadline of a wait has passed. -/
  expired : Bool
  /-- `leadershipTransfer` succeeds. -/
  transferred : Bool
  /-- The factory succeeds. -/
  created : Bool
  start : Syncer.StartEnv
  sync : SyncEnv Tx

namespace Election

/-- The loop when it starts, on a datastore and with a raft state. -/
def initial (syncer : Syncer Tx) (fsm : Raft.FSM Tx) : Election Tx :=
  ⟨.idle, true, false, .absent, syncer, fsm, none⟩

def stop (e : Election Tx) : Election Tx := { e with phase := .stopped }

/-- Go on with `next` if the recovery succeeds. -/
def recoverThen [Transaction Tx] (cfg : SyncerConfig Tx) (env : SyncEnv Tx) (raft : Raft.FSM Tx)
    (next : Election Tx → Election Tx) (e : Election Tx) : Election Tx :=
  match Syncer.recoverFSM cfg env raft e.syncer with
  | (.ok (), s) => next { e with syncer := s }
  | (_, s) => stop { e with syncer := s }

/-- `startWorker` for the follower: its goroutine exists. -/
def launch (e : Election Tx) : Election Tx := { e with phase := .idle, worker := .launched }

/-- `verifyState` and the start of the follower's worker. A chain behind the raft state is left to the
normal sync. -/
def verifyState [Transaction Tx] (cfg : SyncerConfig Tx) (env : LoopEnv Tx) (e : Election Tx) :
    Election Tx :=
  if Raft.FSM.height e.fsm = 0 then
    if env.cancelled then e.stop
    else if env.expired then e.launch
    else e
  else
    match e.syncer.isSyncedWithRaft cfg e.fsm with
    | .error _ => e.recoverThen cfg env.sync e.fsm launch
    | .ok diff => if diff ≤ 0 then e.launch else e.recoverThen cfg env.sync e.fsm launch

/-- One round of `waitForBlockStoreSync`, and what follows its result. -/
def waitForBlockStoreSync (cfg : SyncerConfig Tx) (env : LoopEnv Tx) (e : Election Tx) :
    Election Tx :=
  let synced := match e.syncer.isSyncedWithRaft cfg e.fsm with
    | .ok diff => decide (-1 ≤ diff)
    | .error _ => false
  if env.cancelled then e.stop
  else if env.expired then
    if synced then { e with phase := .reading true }
    else if env.transferred then { e with phase := .idle }
    else e.stop
  else if env.isLeader then
    if synced then { e with phase := .reading true } else e
  else { e with phase := .idle }

/-- The comparison of the store with the raft state that was read. -/
def checkSynced (cfg : SyncerConfig Tx) (raft : Raft.FSM Tx) (refreshed : Bool) (e : Election Tx) :
    Election Tx :=
  match e.syncer.isSyncedWithRaft cfg raft with
  | .error _ => e.stop
  | .ok diff =>
    if refreshed = false ∧ diff < -1 then { e with phase := .waiting }
    else if diff ≠ 0 then { e with phase := .recovering raft }
    else { e with phase := .starting }

/-- The follower is stopped, and the leader started. -/
def startLeader (env : LoopEnv Tx) (e : Election Tx) : Election Tx :=
  let e := { e with worker := if e.isStarted then .exited else e.worker }
  if env.created then
    { e with
      phase := .leader
      isStarted := true
      led := if e.isStarted then some (e.syncer.store, e.fsm) else none }
  else e.stop

/-- The next step of the loop, outside of the `select`. -/
def advance [Transaction Tx] (cfg : SyncerConfig Tx) (env : LoopEnv Tx) (e : Election Tx) :
    Election Tx :=
  match e.phase with
  | .following =>
    if env.created then
      { e with phase := .verifying, syncer := .unstarted cfg env.start e.syncer.store }
    else e.stop
  | .verifying => e.verifyState cfg env
  | .landing =>
    if env.landed then
      if e.isStarted then { e with phase := if env.isLeader then .reading false else .idle }
      else { e with phase := .starting }
    else { e with phase := .idle }
  | .reading refreshed => { e with phase := .checking e.fsm refreshed }
  | .checking raft refreshed => e.checkSynced cfg raft refreshed
  | .waiting => e.waitForBlockStoreSync cfg env
  | .recovering raft => e.recoverThen cfg env.sync raft fun e => { e with phase := .starting }
  | .starting => e.startLeader env
  | .idle | .leader | .stopped => e

/-! ## Operations -/

/-- What can happen: to the raft state, in the `select`, to the loop outside of it, and to the worker of
the follower. -/
inductive Op (Tx : Type) where
  | applied (state : Raft.BlockState Tx)
  | leaderCh (becameLeader : Bool)
  /-- The ticker finds no leader, or a leader that is this node or not. -/
  | tick (leader : Option Bool)
  /-- The worker failed, or the context is done. -/
  | exit
  | advance (env : LoopEnv Tx)
  | startWorker (env : Syncer.StartEnv)
  | work (op : Syncer.Op Tx)
  | exitWorker

/-- `startFollower` is called. -/
def follow (e : Election Tx) : Election Tx :=
  if e.isStarted then e else { e with isStarted := true, phase := .following }

/-- What the syncer does while it runs: everything but to start, to crash and to recover. A crash takes
the whole process down. -/
def work [Transaction Tx] (cfg : SyncerConfig Tx) (e : Election Tx) : Syncer.Op Tx → Election Tx
  | .start _ | .crash | .recoverFromRaft _ _ => e
  | op =>
    let l := Syncer.step cfg ⟨true, e.syncer⟩ op
    if l.up then { e with syncer := l.state } else stop { e with syncer := l.state, worker := .exited }

def step [Transaction Tx] (cfg : SyncerConfig Tx) (e : Election Tx) : Op Tx → Election Tx
  | .applied state => { e with fsm := (Raft.apply e.fsm state).2 }
  | .leaderCh becameLeader =>
    match e.phase, becameLeader with
    | .idle, true => { e with phase := .landing }
    | .idle, false => e.follow
    | .leader, false => e.stop
    | _, _ => e
  | .tick leader =>
    match e.phase, e.ticking, leader with
    | .idle, true, some true => { e with ticking := false }
    | .idle, true, some false => { e with ticking := false }.follow
    | .leader, true, some _ => { e with ticking := false }
    | _, _, _ => e
  | .exit =>
    match e.phase with
    | .idle | .leader => e.stop
    | _ => e
  | .advance env => e.advance cfg env
  | .startWorker env =>
    if e.worker = .launched then
      match Syncer.startWorker cfg env e.syncer with
      | (.ok (), s) => { e with syncer := s, worker := .running }
      | (.error _, s) => { e with syncer := s, worker := .exited }
      | (.crash, s) => stop { e with syncer := s, worker := .exited }
    else e
  | .work op => if e.worker = .running then e.work cfg op else e
  | .exitWorker => if e.worker = .running then { e with worker := .exited } else e

end Election

end EvNode
