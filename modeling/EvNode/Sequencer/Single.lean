import EvNode.Sequencer.Common
import EvNode.Sequencer.Queue

/-!
# The single sequencer

`pkg/sequencers/single/sequencer.go`. The state holds the durable part too: the WAL in `queue.db`
and the saved checkpoint in `checkpointStore`. The block store belongs to the executor and is read
through a `ChainView`.
-/

namespace EvNode

open Crash Proc

variable {Tx : Type}

inductive CatchUpState where
  | unchecked
  | inProgress
  | done
  deriving DecidableEq, Repr

structure Sequencer (Tx : Type) where
  genesis : Genesis
  id : String
  queue : BatchQueue Tx
  fiRetriever : ForcedInclusionRetriever
  daHeight : Nat
  daStartHeight : Nat
  checkpointStore : Option (Checkpoint Tx)
  checkpoint : Checkpoint Tx
  cachedForcedInclusionTxs : List Tx
  catchUpState : CatchUpState
  currentDAEndTime : Time
  currentEpochTxCount : Nat

/-- The arguments of `NewSequencer` that stay the same over restarts. -/
structure SequencerConfig where
  genesis : Genesis
  id : String
  maxQueueSize : Int
  hasForcedInclusionNamespace : Bool

namespace Sequencer

def setDAHeight (height : Nat) (s : Sequencer Tx) : Sequencer Tx := { s with daHeight := height }

def isCatchingUp (s : Sequencer Tx) : Bool := s.catchUpState = .inProgress

/-- Run an operation of the queue. -/
def onQueue {α : Type} (p : Proc (BatchQueue Tx) Err α) : Proc (Sequencer Tx) Err α :=
  zoom Sequencer.queue (fun q s => { s with queue := q }) p

/-! ## Start -/

/-- `getInitialDAStartHeight`, with the height it stores. -/
def getInitialDAStartHeight (view : ChainView Tx) (s : Sequencer Tx) : Nat :=
  if s.daStartHeight ≠ 0 then s.daStartHeight else view.genesisDAHeight.getD 0

/-- Install a retriever that starts at the initial DA height. -/
def startRetriever (view : ChainView Tx) (s : Sequencer Tx) : Sequencer Tx :=
  { s with
    fiRetriever := { s.fiRetriever with
      daStartHeight := s.getInitialDAStartHeight view
      daEpochSize := s.genesis.daEpochForcedInclusion }
    daStartHeight := s.getInitialDAStartHeight view }

/-- The sequencer before anything is loaded. -/
def blank (cfg : SequencerConfig) (db : Wal Tx) (checkpointStore : Option (Checkpoint Tx)) :
    Sequencer Tx where
  genesis := cfg.genesis
  id := cfg.id
  queue := newBatchQueue db cfg.maxQueueSize
  fiRetriever := ⟨cfg.hasForcedInclusionNamespace, 0, cfg.genesis.daEpochForcedInclusion⟩
  daHeight := cfg.genesis.daStartHeight
  daStartHeight := cfg.genesis.daStartHeight
  checkpointStore := checkpointStore
  checkpoint := ⟨cfg.genesis.daStartHeight, 0, []⟩
  cachedForcedInclusionTxs := []
  catchUpState := .unchecked
  currentDAEndTime := cfg.genesis.startTime
  currentEpochTxCount := 0

/-- The datastore operations of one `NewSequencer`. -/
structure StartEnv where
  load : BatchQueue.LoadEnv
  readBlock : Outcome
  dropWrite : Nat → Outcome
  loadCheckpoint : Outcome

variable [Transaction Tx]

def reconcileQueueWithLastBlock (env : StartEnv) (view : ChainView Tx) :
    Proc (Sequencer Tx) Err Unit := do
  let s ← get
  if s.queue.size = 0 then pure ()
  else do
    io env.readBlock (.text "failed to read block data") fun s => s
    if view.height = 0 then pure ()
    else match view.blockTxs with
      | none => throw (.text "failed to read block data")
      | some [] => pure ()
      | some txs => onQueue (BatchQueue.dropIncluded env.dropWrite txs)

/-- `NewSequencer`. What the state held in memory before is lost. -/
def newSequencer (cfg : SequencerConfig) (env : StartEnv) (view : ChainView Tx) :
    Proc (Sequencer Tx) Err Unit := do
  modify fun s => blank cfg s.queue.db s.checkpointStore
  mapError (.wrap "failed to load batch queue from DB") (onQueue (BatchQueue.load env.load))
  mapError (.wrap "failed to reconcile batch queue with last committed block")
    (reconcileQueueWithLastBlock env view)
  io env.loadCheckpoint (.text "failed to load checkpoint from DB") fun s =>
    { s with checkpoint := s.checkpointStore.getD ⟨s.daHeight, 0, []⟩ }
  modify (startRetriever view)

/-! ## Mempool -/

structure SubmitBatchTxsRequest (Tx : Type) where
  id : String
  batch : List Tx

def submitBatchTxs (put : Outcome) (req : SubmitBatchTxsRequest Tx) :
    Proc (Sequencer Tx) Err Unit := do
  let s ← get
  require (s.id = req.id) .invalidId
  if req.batch = [] then pure ()
  else
    mapError (fun e =>
        if e.is .queueFull then .wrap "batch queue is full, cannot accept more batches" e
        else .wrap "failed to add batch" e)
      (onQueue (BatchQueue.addBatch put req.batch))

def ackBatch (put commit : Outcome) : Proc (Sequencer Tx) Err Unit :=
  onQueue (BatchQueue.ack put commit)

/-! ## Catch-up -/

/-- `updateCatchUpState`. Entering catch-up takes the last block time as the timestamp floor. -/
def updateCatchUpState (env : BatchEnv Tx) (view : ChainView Tx) (s : Sequencer Tx) :
    Sequencer Tx :=
  if s.catchUpState ≠ .unchecked then s
  else
    let s := { s with catchUpState := .done }
    let epochSize := s.genesis.daEpochForcedInclusion
    if epochSize = 0 then s
    else match env.latestDAHeight with
      | none => s
      | some latestDAHeight =>
        if latestDAHeight ≤ s.checkpoint.daHeight then s
        else
          let daStartHeight := s.genesis.daStartHeight
          let currentEpoch := calculateEpochNumber s.checkpoint.daHeight daStartHeight epochSize
          let latestEpoch := calculateEpochNumber latestDAHeight daStartHeight epochSize
          if latestEpoch - currentEpoch = 0 then s
          else { s with
            catchUpState := .inProgress
            currentDAEndTime := match view.lastBlockTime with
              | none => s.currentDAEndTime
              | some t => if t = zeroTime then s.currentDAEndTime else laterOf t s.currentDAEndTime }

/-- The DA head was reached. -/
def leaveCatchUp (s : Sequencer Tx) : Sequencer Tx :=
  if s.catchUpState = .inProgress then { s with catchUpState := .done } else s

/-- Cache the transactions of an epoch. -/
def cacheEpoch (maxBytes : Nat) (event : ForcedInclusionEvent Tx) (s : Sequencer Tx) :
    Sequencer Tx :=
  { s with
    cachedForcedInclusionTxs := sizeFiltered maxBytes event.txs
    currentEpochTxCount := (sizeFiltered maxBytes event.txs).length
    currentDAEndTime := laterOf event.timestamp s.currentDAEndTime }

/-- `fetchNextDAEpoch`. It returns 0 when there is nothing to fetch yet. -/
def fetchNextDAEpoch (env : BatchEnv Tx) (view : ChainView Tx) (maxBytes : Nat) :
    Proc (Sequencer Tx) Err Nat := do
  modify (updateCatchUpState env view)
  let s ← get
  match retrieveForcedIncludedTxs s.fiRetriever env.da s.checkpoint.daHeight with
  | .error e =>
    if e.is .heightFromFuture then do
      modify leaveCatchUp
      pure 0
    else if e.is .forceInclusionNotConfigured then do
      modify fun s => { s with cachedForcedInclusionTxs := [], catchUpState := .done }
      pure 0
    else throw (.wrap "failed to retrieve forced inclusion transactions" e)
  | .ok event => do
    modify (cacheEpoch maxBytes event)
    pure event.endDaHeight

/-! ## GetNextBatch -/

/-- The checkpoint init path: the DA height became known after the start. -/
def initCheckpoint (view : ChainView Tx) (s : Sequencer Tx) : Sequencer Tx :=
  if 0 < s.daHeight ∧ s.checkpoint.daHeight = 0 then
    startRetriever view
      { s with checkpoint := { s.checkpoint with daHeight := s.daHeight, txIndex := 0 } }
  else s

/-- The forced transactions of the cached epoch that are left. -/
def remainingForcedTxs (s : Sequencer Tx) : List Tx :=
  s.cachedForcedInclusionTxs.drop s.checkpoint.txIndex

/-- Fetch the next epoch when the cached one is used up. -/
def fetchIfConsumed (env : BatchEnv Tx) (view : ChainView Tx) (maxBytes : Nat) :
    Proc (Sequencer Tx) Err Nat := do
  let s ← get
  if 0 < s.daHeight ∧ s.cachedForcedInclusionTxs.length ≤ s.checkpoint.txIndex then
    fetchNextDAEpoch env view maxBytes
  else pure s.daHeight

/-- The mempool is skipped during catch-up. -/
def drainMempool (env : BatchEnv Tx) (maxBytes : Nat) : Proc (Sequencer Tx) Err (List Tx) := do
  let s ← get
  if s.catchUpState ≠ .inProgress then onQueue (BatchQueue.drain env.rollbackDelete maxBytes)
  else pure []

/-- Move the checkpoint over the consumed transactions, and past the epoch with its last one. -/
def advanceCheckpoint (daHeight : Nat) (consumed : List (Tx × FilterStatus)) (s : Sequencer Tx) :
    Sequencer Tx :=
  let checkpoint := { s.checkpoint with
    txIndex := s.checkpoint.txIndex + consumed.length
    passed := s.checkpoint.passed ++ consumed }
  if s.cachedForcedInclusionTxs.length ≤ checkpoint.txIndex then
    { s with
      checkpoint := { checkpoint with daHeight := daHeight + 1, txIndex := 0 }
      cachedForcedInclusionTxs := []
      daHeight := daHeight + 1 }
  else { s with checkpoint := checkpoint }

/-- Advance and save the checkpoint, and return `txIndexForTimestamp`. -/
def saveCheckpoint (env : BatchEnv Tx) (daHeight : Nat) (forcedTxs : List Tx)
    (consumed : List (Tx × FilterStatus)) : Proc (Sequencer Tx) Err Nat := do
  let s ← get
  if 0 < daHeight ∨ forcedTxs ≠ [] then do
    modify (advanceCheckpoint daHeight consumed)
    io env.save (.text "failed to save checkpoint") fun s =>
      { s with checkpointStore := some s.checkpoint }
    pure (s.checkpoint.txIndex + consumed.length)
  else pure 0

/-- The timestamp of the batch: on the DA epoch during catch-up or with forced transactions, else
the wall clock. -/
def batchTimestamp (now : Time) (consumed : List (Tx × FilterStatus)) (txIndex : Nat)
    (s : Sequencer Tx) : Time :=
  if s.catchUpState = .inProgress ∨ consumed ≠ [] then
    epochTimestamp s.currentDAEndTime s.currentEpochTxCount txIndex
  else now

def getNextBatch (env : BatchEnv Tx) (view : ChainView Tx) (req : GetNextBatchRequest) :
    Proc (Sequencer Tx) Err (GetNextBatchResponse Tx) := do
  let s ← get
  require (s.id = req.id) .invalidId
  modify (initCheckpoint view)
  let daHeight ← fetchIfConsumed env view req.maxBytes
  let s ← get
  let forcedTxs := s.remainingForcedTxs
  let mempoolTxs ← drainMempool env req.maxBytes
  let allTxs := forcedTxs ++ mempoolTxs
  let statuses := filterStatuses env.executor allTxs req.maxBytes (0 < forcedTxs.length)
  let sel := selectTxs forcedTxs.length allTxs statuses
  modify fun s => { s with queue := s.queue.setPostponed sel.postponedMempoolTxs }
  let txIndex ← saveCheckpoint env daHeight forcedTxs sel.consumed
  let s ← get
  let batchTxs := sel.validForcedTxs ++ sel.validMempoolTxs
  require (!(s.isCatchingUp && batchTxs.isEmpty)) .noBatch
  pure ⟨batchTxs, s.batchTimestamp env.now sel.consumed txIndex⟩

/-! ## Operations -/

/-- Everything that can be done with a sequencer. -/
inductive Op (Tx : Type) where
  | start (env : StartEnv) (view : ChainView Tx)
  | crash
  | submit (put : Outcome) (req : SubmitBatchTxsRequest Tx)
  | getNextBatch (env : BatchEnv Tx) (view : ChainView Tx) (req : GetNextBatchRequest)
  | ack (put commit : Outcome)
  | setDAHeight (height : Nat)

def step (cfg : SequencerConfig) (l : Live (Sequencer Tx)) : Op Tx → Live (Sequencer Tx)
  | .start env view => l.boot (newSequencer cfg env view)
  | .crash => l.halt
  | .submit put req => l.call (submitBatchTxs put req)
  | .getNextBatch env view req => l.call (getNextBatch env view req)
  | .ack put commit => l.call (ackBatch put commit)
  | .setDAHeight height => l.call (modify (setDAHeight height) : Proc (Sequencer Tx) Err Unit)

end Sequencer

end EvNode
