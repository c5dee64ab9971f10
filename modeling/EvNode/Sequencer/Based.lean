import EvNode.Sequencer.Common

/-!
# The based sequencer

`pkg/sequencers/based/sequencer.go`. It takes transactions from the DA layer only.
-/

namespace EvNode

open Crash Proc

variable {Tx : Type}

structure BasedSequencer (Tx : Type) where
  fiRetriever : ForcedInclusionRetriever
  daHeight : Nat
  checkpointStore : Option (Checkpoint Tx)
  checkpoint : Checkpoint Tx
  currentBatchTxs : List Tx
  currentDAEndTime : Time
  currentEpochTxCount : Nat

namespace BasedSequencer

/-- `NewBasedSequencer`. A chain that ran before with another sequencer goes on at its DA
height. -/
def newBasedSequencer (genesis : Genesis) (hasForcedInclusionNamespace : Bool)
    (loadCheckpoint : Outcome) (view : ChainView Tx) : Proc (BasedSequencer Tx) Err Unit := do
  let daStartHeight := match view.daHeight with
    | none => genesis.daStartHeight
    | some h => if 0 < h then h else genesis.daStartHeight
  modify fun s =>
    { fiRetriever := ⟨hasForcedInclusionNamespace, genesis.daStartHeight,
        genesis.daEpochForcedInclusion⟩
      daHeight := daStartHeight
      checkpointStore := s.checkpointStore
      checkpoint := ⟨daStartHeight, 0, []⟩
      currentBatchTxs := []
      currentDAEndTime := genesis.startTime
      currentEpochTxCount := 0 }
  io loadCheckpoint (.text "failed to load checkpoint from DB") fun s =>
    { s with checkpoint := s.checkpointStore.getD ⟨s.daHeight, 0, []⟩ }

def setDAHeight (height : Nat) (s : BasedSequencer Tx) : BasedSequencer Tx :=
  { s with daHeight := height }

variable [Transaction Tx]

def cacheEpoch (maxBytes : Nat) (event : ForcedInclusionEvent Tx) (s : BasedSequencer Tx) :
    BasedSequencer Tx :=
  { s with
    currentBatchTxs := sizeFiltered maxBytes event.txs
    currentEpochTxCount := (sizeFiltered maxBytes event.txs).length
    currentDAEndTime := laterOf event.timestamp s.currentDAEndTime }

def fetchNextDAEpoch (env : BatchEnv Tx) (maxBytes : Nat) : Proc (BasedSequencer Tx) Err Nat := do
  let s ← get
  match retrieveForcedIncludedTxs s.fiRetriever env.da s.checkpoint.daHeight with
  | .error e =>
    if e.is .forceInclusionNotConfigured then throw .forceInclusionNotConfigured
    else if e.is .heightFromFuture then pure 0
    else throw (.wrap "failed to retrieve forced inclusion transactions" e)
  | .ok event => do
    modify (cacheEpoch maxBytes event)
    pure event.endDaHeight

def fetchIfConsumed (env : BatchEnv Tx) (maxBytes : Nat) : Proc (BasedSequencer Tx) Err Nat := do
  let s ← get
  if 0 < s.daHeight ∧ s.currentBatchTxs.length ≤ s.checkpoint.txIndex then
    fetchNextDAEpoch env maxBytes
  else pure s.daHeight

/-- The loop over the statuses: the valid transactions and those consumed, up to the first
postponed one. -/
def processStatuses : List (Tx × FilterStatus) → List Tx × List (Tx × FilterStatus)
  | [] => ([], [])
  | (tx, .ok) :: rest => (tx :: (processStatuses rest).1, (tx, .ok) :: (processStatuses rest).2)
  | (tx, .remove) :: rest => ((processStatuses rest).1, (tx, .remove) :: (processStatuses rest).2)
  | (_, .postpone) :: _ => ([], [])

def advanceCheckpoint (daHeight : Nat) (consumed : List (Tx × FilterStatus))
    (s : BasedSequencer Tx) : BasedSequencer Tx :=
  let checkpoint := { s.checkpoint with
    txIndex := s.checkpoint.txIndex + consumed.length
    passed := s.checkpoint.passed ++ consumed }
  if s.currentBatchTxs.length ≤ checkpoint.txIndex then
    { s with
      checkpoint := { checkpoint with daHeight := daHeight + 1, txIndex := 0 }
      currentBatchTxs := []
      daHeight := daHeight + 1 }
  else { s with checkpoint := checkpoint }

def saveCheckpoint (env : BatchEnv Tx) (daHeight : Nat) (batchTxs : List Tx)
    (consumed : List (Tx × FilterStatus)) : Proc (BasedSequencer Tx) Err Nat := do
  let s ← get
  if 0 < daHeight ∨ batchTxs ≠ [] then do
    modify (advanceCheckpoint daHeight consumed)
    io env.save (.text "failed to save checkpoint") fun s =>
      { s with checkpointStore := some s.checkpoint }
    pure (s.checkpoint.txIndex + consumed.length)
  else pure 0

/-- `GetNextBatch`, with a context that is not cancelled. -/
def getNextBatch (env : BatchEnv Tx) (req : GetNextBatchRequest) :
    Proc (BasedSequencer Tx) Err (GetNextBatchResponse Tx) := do
  let daHeight ← fetchIfConsumed env req.maxBytes
  let s ← get
  let batchTxs := s.currentBatchTxs.drop s.checkpoint.txIndex
  let statuses := filterStatuses env.executor batchTxs req.maxBytes true
  let r := processStatuses (batchTxs.zip statuses)
  let txIndex ← saveCheckpoint env daHeight batchTxs r.2
  let s ← get
  require (!r.1.isEmpty) .noBatch
  pure ⟨r.1, epochTimestamp s.currentDAEndTime s.currentEpochTxCount txIndex⟩

/-! ## Operations -/

/-- Everything that can be done with a based sequencer. -/
inductive Op (Tx : Type) where
  | start (loadCheckpoint : Outcome) (view : ChainView Tx)
  | crash
  | getNextBatch (env : BatchEnv Tx) (req : GetNextBatchRequest)
  | setDAHeight (height : Nat)

def step (genesis : Genesis) (hasForcedInclusionNamespace : Bool) (l : Live (BasedSequencer Tx)) :
    Op Tx → Live (BasedSequencer Tx)
  | .start loadCheckpoint view =>
    l.boot (newBasedSequencer genesis hasForcedInclusionNamespace loadCheckpoint view)
  | .crash => l.halt
  | .getNextBatch env req => l.call (getNextBatch env req)
  | .setDAHeight height => l.call (modify (setDAHeight height) : Proc (BasedSequencer Tx) Err Unit)

end BasedSequencer

end EvNode
