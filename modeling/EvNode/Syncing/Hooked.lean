import EvNode.Syncing.Syncer

/-!
# The syncer with a part beside it

When the syncer starts, passes over an event or commits one, another part of the node can change too:
the DA retriever drops the data it keeps for the event (`removePendingDAData`), or a history grows.
`SyncHooks` says how, and `Hooked` is the syncer together with that part. Apart from the hooks, every
definition here is that of the same name in `Syncer`.
-/

namespace EvNode

open Crash Proc

variable {Tx ρ : Type}

/-- How the part changes. -/
structure SyncHooks (Tx ρ : Type) where
  /-- a new process starts -/
  started : ρ → ρ
  /-- the event is for a block that was handled before -/
  skipped : DAHeightEvent Tx → ρ → ρ
  /-- the block of the event was committed and left this state -/
  committed : DAHeightEvent Tx → State → ρ → ρ

structure Hooked (Tx ρ : Type) where
  syncer : Syncer Tx
  part : ρ

namespace Hooked

def withSyncer (s : Syncer Tx) (w : Hooked Tx ρ) : Hooked Tx ρ := { w with syncer := s }

def onSyncer {α : Type} (p : Proc (Syncer Tx) Err α) : Proc (Hooked Tx ρ) Err α :=
  zoom Hooked.syncer withSyncer p

def modifyPart (f : ρ → ρ) : Proc (Hooked Tx ρ) Err Unit :=
  modify fun w => { w with part := f w.part }

variable (hooks : SyncHooks Tx ρ)

def start (cfg : SyncerConfig Tx) (env : Syncer.StartEnv) : Proc (Hooked Tx ρ) Err Unit := do
  modifyPart hooks.started
  onSyncer (Syncer.start cfg env)

variable [Transaction Tx]

def trySyncNextBlockWithState (cfg : SyncerConfig Tx) (env : SyncEnv Tx)
    (event : DAHeightEvent Tx) (currentState : State) : Proc (Hooked Tx ρ) Err Unit := do
  let r ← onSyncer (Syncer.trySyncNextBlockWithState cfg env event currentState)
  modify fun w => { w with part := hooks.committed event w.syncer.lastState w.part }
  pure r

def trySyncNextBlock (cfg : SyncerConfig Tx) (env : SyncEnv Tx) (event : DAHeightEvent Tx) :
    Proc (Hooked Tx ρ) Err Unit := do
  let w ← get
  trySyncNextBlockWithState hooks cfg env event w.syncer.lastState

def processHeightEvent (cfg : SyncerConfig Tx) (env : SyncEnv Tx) (event : DAHeightEvent Tx) :
    Proc (Hooked Tx ρ) Err Unit := do
  let w ← get
  let height := event.header.header.height
  if height ≤ w.syncer.store.height ∨ w.syncer.cache.isHeaderSeen (Syncer.headerHash cfg event) then
    modifyPart (hooks.skipped event)
  else if height ≠ w.syncer.store.height + 1 then
    onSyncer (Syncer.modifyCache fun m => m.setPendingEvent height event)
  else
    match Syncer.withLastDataHash cfg w.syncer.store event with
    | none => pure ()
    | some event => do
      let r ← attempt (trySyncNextBlock hooks cfg env event)
      match r with
      | .ok () => pure ()
      | .error e => do
        let w ← get
        if e.is .invalidBlock || w.syncer.hasCriticalError then pure ()
        else if e.is .maliciousProposer then onSyncer Syncer.sendCriticalError
        else if e.is .invalidState then onSyncer Syncer.sendCriticalError
        else onSyncer (Syncer.modifyCache fun m => m.setPendingEvent height event)

def processNext (cfg : SyncerConfig Tx) (env : SyncEnv Tx) : Proc (Hooked Tx ρ) Err Unit := do
  let w ← get
  match w.syncer.heightInCh with
  | [] => pure ()
  | event :: rest => do
    onSyncer (modify fun s => { s with heightInCh := rest })
    processHeightEvent hooks cfg env event

/-- Unless raft is one block ahead, `recoverFromRaft` only compares hashes. -/
def recoverFromRaft (cfg : SyncerConfig Tx) (env : SyncEnv Tx) (raft : Syncer.RaftBlockState Tx) :
    Proc (Hooked Tx ρ) Err Unit := do
  let w ← get
  if w.syncer.lastState.lastBlockHeight + 1 = raft.height then
    trySyncNextBlockWithState hooks cfg env ⟨raft.header, raft.data, 0, .raft⟩ w.syncer.lastState
  else onSyncer (Syncer.recoverFromRaft cfg env raft)

def step (cfg : SyncerConfig Tx) (l : Live (Hooked Tx ρ)) : Syncer.Op Tx → Live (Hooked Tx ρ)
  | .start env => l.boot (start hooks cfg env)
  | .crash => l.halt
  | .pipeEvent done event => l.call (onSyncer (modify (Syncer.pipeEvent cfg done event)))
  | .processHeight height header data =>
    l.call (onSyncer (modify (Syncer.processHeight cfg height header data)))
  | .processPendingEvents => l.call (onSyncer (modify Syncer.processPendingEvents))
  | .processNext env => l.call (processNext hooks cfg env)
  | .recoverFromRaft env raft => l.call (recoverFromRaft hooks cfg env raft)
  | .headerDAIncluded hash daHeight height =>
    l.call (onSyncer (Syncer.modifyCache fun m => m.setHeaderDAIncluded hash daHeight height))
  | .dataDAIncluded hash daHeight height =>
    l.call (onSyncer (Syncer.modifyCache fun m => m.setDataDAIncluded hash daHeight height))
  | .deleteHeight height => l.call (onSyncer (Syncer.modifyCache fun m => m.deleteHeight height))

end Hooked

end EvNode
