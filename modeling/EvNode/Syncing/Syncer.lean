import EvNode.Syncing.Cache
import EvNode.Syncing.ForcedInclusion
import EvNode.Types.Validation

/-!
# The syncer

`block/internal/syncing/syncer.go` and `ProcessHeight` of `p2p_handler.go`. Events reach the
process loop through the channel `heightInCh`; an event that finds no room, or whose block is not
the next one, waits in the pending map of the cache. The DA follower and the DA retriever are
behind `PipeEvent`.

`Syncer.step` is the system: one process on its datastore. A graceful stop is a number of
`processNext` steps, for the events it drains, followed by `crash`.
-/

namespace EvNode

open Crash Proc

variable {Tx : Type}

/-- What stays the same over restarts. -/
structure SyncerConfig (Tx : Type) where
  genesis : Genesis
  hashes : Hashes Tx
  scheme : SignatureScheme Tx
  /-- Whether a DA client is configured, and then its `HasForcedInclusionNamespace`. -/
  daClient : Option Bool
  /-- `config.DA.StartHeight`, the override of the start height. -/
  daStartHeight : Nat

/-- `NewForcedInclusionRetriever`, as `Start` calls it. -/
def SyncerConfig.fiRetriever (cfg : SyncerConfig Tx) : Option ForcedInclusionRetriever :=
  cfg.daClient.map fun ns =>
    ⟨ns, cfg.genesis.daStartHeight, cfg.genesis.daEpochForcedInclusion⟩

/-- `Syncer`, with `processedHeight` of its P2P handler. -/
structure Syncer (Tx : Type) where
  store : Store Tx
  lastState : State
  cache : CacheManager Tx
  heightInCh : List (DAHeightEvent Tx)
  processedHeight : Nat
  daRetrieverHeight : Nat
  forced : ForcedInclusion Tx
  hasCriticalError : Bool
  lastHeaderHashErrCount : Nat

/-- The environment of one event. -/
structure SyncEnv (Tx : Type) where
  now : Time
  cancelled : Bool
  verify : VerifyEnv Tx
  /-- The last attempt of `executeTxsWithRetry`. -/
  executeTxs : Outcome
  stateRoot : Bytes
  nextProposer : Bytes
  commit : Outcome

namespace Syncer

def onStore {α : Type} (p : Proc (Store Tx) Err α) : Proc (Syncer Tx) Err α :=
  zoom Syncer.store (fun store s => { s with store := store }) p

def onForced {α : Type} (p : Proc (ForcedInclusion Tx) Err α) : Proc (Syncer Tx) Err α :=
  zoom Syncer.forced (fun forced s => { s with forced := forced }) p

def modifyCache (f : CacheManager Tx → CacheManager Tx) : Proc (Syncer Tx) Err Unit :=
  modify fun s => { s with cache := f s.cache }

/-- `sendCriticalError`. -/
def sendCriticalError : Proc (Syncer Tx) Err Unit :=
  modify fun s => { s with hasCriticalError := true }

def headerHash (cfg : SyncerConfig Tx) (event : DAHeightEvent Tx) : Bytes :=
  cfg.hashes.headerHash event.header.header

def daCommitment (cfg : SyncerConfig Tx) (event : DAHeightEvent Tx) : Bytes :=
  cfg.hashes.daCommitment event.data.txs

/-! ## Syncing one block -/

/-- `ValidateBlock`, with the counter of `AssertValidSequence`. -/
def validateBlock (cfg : SyncerConfig Tx) (now : Time) (currState : State) (data : Data Tx)
    (header : SignedHeader) (lastHeaderHashErrCount : Nat) : Except Err Unit × Nat :=
  match header.validateBasicWithData cfg.scheme now data with
  | .error e =>
    (.error (.join .invalidBlock (.blockValidation .header (.wrap "invalid header" e))),
      lastHeaderHashErrCount)
  | .ok () =>
    match currState.assertExpectedProposer header with
    | .error e =>
      (.error (.join .invalidBlock (.blockValidation .header e)), lastHeaderHashErrCount)
    | .ok () =>
      match currState.assertValidSequence header lastHeaderHashErrCount with
      | (.error e, count) =>
        if e.is .invalidChainID || e.is .invalidBlockHeight || e.is .invalidBlockTime then
          (.error (.join .invalidBlock (.blockValidation .header e)), count)
        else (.error (.join .invalidState e), count)
      | (.ok (), count) =>
        match validate cfg.hashes header data with
        | .error e =>
          (.error (.join .invalidBlock (.blockValidation .data
            (.wrap "header-data validation failed" e))), count)
        | .ok () => (.ok (), count)

/-- Drop the DA-inclusion marks of both sides of the pair. -/
def evictPair (cfg : SyncerConfig Tx) (event : DAHeightEvent Tx) (m : CacheManager Tx) :
    CacheManager Tx :=
  (m.removeHeaderDAIncluded (headerHash cfg event)).removeDataDAIncluded (daCommitment cfg event)

/-- Drop the DA-inclusion mark of the side that the validation error blames. -/
def evictInvalid (cfg : SyncerConfig Tx) (event : DAHeightEvent Tx) (e : Err)
    (m : CacheManager Tx) : CacheManager Tx :=
  match e.fault? with
  | some .header => m.removeHeaderDAIncluded (headerHash cfg event)
  | some .data => m.removeDataDAIncluded (daCommitment cfg event)
  | none => if e.is .invalidState then m else evictPair cfg event m

/-- The first part of `trySyncNextBlockWithState`. -/
def checkBlock (cfg : SyncerConfig Tx) (env : SyncEnv Tx) (event : DAHeightEvent Tx)
    (currentState : State) : Proc (Syncer Tx) Err Unit := do
  let s ← get
  let checked :=
    validateBlock cfg env.now currentState event.data event.header s.lastHeaderHashErrCount
  modify fun s => { s with lastHeaderHashErrCount := checked.2 }
  match checked.1 with
  | .ok () => pure ()
  | .error e => do
    modifyCache (evictInvalid cfg event e)
    throw (if e.is .invalidState || e.is .invalidBlock then e else .join .invalidBlock e)

/-- The forced-inclusion check of a block from DA. An error other than `errMaliciousProposer` is
only logged. -/
def verifyBlock [Transaction Tx] (cfg : SyncerConfig Tx) (env : SyncEnv Tx)
    (event : DAHeightEvent Tx) : Proc (Syncer Tx) Err Unit := do
  let s ← get
  if event.source = .da then do
    let r ← attempt (onForced (ForcedInclusion.verifyForcedInclusionTxs cfg.genesis cfg.fiRetriever
      env.verify s.lastState.daHeight event.daHeight event.data.txs))
    match r with
    | .ok () => pure ()
    | .error e =>
      if e.is .maliciousProposer then do
        modifyCache (evictPair cfg event)
        throw e
      else pure ()
  else pure ()

/-- `ApplyBlock`: the state after the block. -/
def applyBlock (cfg : SyncerConfig Tx) (env : SyncEnv Tx) (header : Header)
    (currentState : State) : Proc (Syncer Tx) Err State := do
  let r ← attempt (io env.executeTxs (.text "failed to execute transactions") fun s => s)
  match r with
  | .error e => do
    sendCriticalError
    throw e
  | .ok () => pure (currentState.nextState cfg.hashes header env.stateRoot env.nextProposer)

/-- The new state with the DA height of the event, if that is higher. -/
def withDAHeight (state : State) (daHeight : Nat) : State :=
  if state.daHeight < daHeight then { state with daHeight := daHeight } else state

/-- What follows the commit of a block: the state, the seen marks and the P2P cursor. -/
def committed (cfg : SyncerConfig Tx) (event : DAHeightEvent Tx) (newState : State)
    (s : Syncer Tx) : Syncer Tx :=
  let seen := s.cache.setHeaderSeen (headerHash cfg event) event.header.header.height
  { s with
    lastState := newState
    cache := if event.header.header.dataHash ≠ cfg.hashes.dataHashForEmptyTxs
      then seen.setDataSeen (daCommitment cfg event) newState.lastBlockHeight else seen
    processedHeight := max s.processedHeight newState.lastBlockHeight }

def trySyncNextBlockWithState [Transaction Tx] (cfg : SyncerConfig Tx) (env : SyncEnv Tx)
    (event : DAHeightEvent Tx) (currentState : State) : Proc (Syncer Tx) Err Unit := do
  require (!env.cancelled) (.text "context canceled")
  checkBlock cfg env event currentState
  verifyBlock cfg env event
  let newState ← mapError (.wrap "failed to apply block")
    (applyBlock cfg env event.header.header currentState)
  let newState := withDAHeight newState event.daHeight
  onStore (io env.commit (.text "failed to commit batch")
    (Node.commitBatch event.header event.data event.header.signature newState))
  modify (committed cfg event newState)

def trySyncNextBlock [Transaction Tx] (cfg : SyncerConfig Tx) (env : SyncEnv Tx)
    (event : DAHeightEvent Tx) : Proc (Syncer Tx) Err Unit := do
  let s ← get
  trySyncNextBlockWithState cfg env event s.lastState

/-! ## Events -/

/-- The data of an empty block from DA lacks the hash of the data before it, which is filled in
from the store. -/
def withLastDataHash (cfg : SyncerConfig Tx) (s : Store Tx) (event : DAHeightEvent Tx) :
    Option (DAHeightEvent Tx) :=
  if event.source = .da ∧ event.header.header.dataHash = cfg.hashes.dataHashForEmptyTxs ∧
      0 < s.height then
    (s.getBlockData s.height).map fun b =>
      { event with data := { event.data with lastDataHash := cfg.hashes.dataHash b.2 } }
  else some event

def processHeightEvent [Transaction Tx] (cfg : SyncerConfig Tx) (env : SyncEnv Tx)
    (event : DAHeightEvent Tx) : Proc (Syncer Tx) Err Unit := do
  let s ← get
  let height := event.header.header.height
  if height ≤ s.store.height ∨ s.cache.isHeaderSeen (headerHash cfg event) then pure ()
  else if height ≠ s.store.height + 1 then modifyCache fun m => m.setPendingEvent height event
  else
    match withLastDataHash cfg s.store event with
    | none => pure ()
    | some event => do
      let r ← attempt (trySyncNextBlock cfg env event)
      match r with
      | .ok () => pure ()
      | .error e => do
        let s ← get
        if e.is .invalidBlock || s.hasCriticalError then pure ()
        else if e.is .maliciousProposer then sendCriticalError
        else if e.is .invalidState then sendCriticalError
        else modifyCache fun m => m.setPendingEvent height event

/-- The capacity of `heightInCh`. -/
def heightInChCapacity : Nat := 100

/-- Send an event without blocking: into the channel, or to the pending map when it is full. -/
def sendOrPend (event : DAHeightEvent Tx) (s : Syncer Tx) : Syncer Tx :=
  if s.heightInCh.length < heightInChCapacity then { s with heightInCh := s.heightInCh ++ [event] }
  else { s with cache := s.cache.setPendingEvent event.header.header.height event }

/-- `PipeEvent`. With a context that is done, `select` may also take the branch of the pending
map. -/
def pipeEvent (cfg : SyncerConfig Tx) (done : Bool) (event : DAHeightEvent Tx) (s : Syncer Tx) :
    Syncer Tx :=
  if s.cache.isHeaderSeen (headerHash cfg event) then s
  else if done then
    { s with cache := s.cache.setPendingEvent event.header.header.height event }
  else sendOrPend event s

/-- `ProcessHeight` of the P2P handler, for the header and data its stores return. -/
def processHeight (cfg : SyncerConfig Tx) (height : Nat) (header : SignedHeader) (data : Data Tx)
    (s : Syncer Tx) : Syncer Tx :=
  if height ≤ s.processedHeight then s
  else if header.header.height ≠ height ∨ data.height ≠ height ∨
      header.header.dataHash ≠ cfg.hashes.daCommitment data.txs then s
  else
    let s := sendOrPend ⟨header, data, 0, .p2p⟩ s
    { s with processedHeight := max s.processedHeight height }

/-- The process loop takes the next event off the channel. -/
def processNext [Transaction Tx] (cfg : SyncerConfig Tx) (env : SyncEnv Tx) :
    Proc (Syncer Tx) Err Unit := do
  let s ← get
  match s.heightInCh with
  | [] => pure ()
  | event :: rest => do
    modify fun s => { s with heightInCh := rest }
    processHeightEvent cfg env event

/-- The loop of `processPendingEvents`, with `room` places left in the channel. -/
def sendPending : Nat → Nat → Syncer Tx → Syncer Tx
  | 0, _, s => s
  | room + 1, nextHeight, s =>
    match s.cache.pendingEvents.get? nextHeight with
    | none => s
    | some event =>
      sendPending room (nextHeight + 1) { s with
        heightInCh := s.heightInCh ++ [event]
        cache := { s.cache with pendingEvents := s.cache.pendingEvents.delete nextHeight } }

def processPendingEvents (s : Syncer Tx) : Syncer Tx :=
  sendPending (heightInChCapacity - s.heightInCh.length) (s.store.height + 1) s

/-! ## Raft -/

/-- `raft.RaftBlockState`, with its header and data decoded. -/
structure RaftBlockState (Tx : Type) where
  height : Nat
  hash : Bytes
  header : SignedHeader
  data : Data Tx

def recoverFromRaft [Transaction Tx] (cfg : SyncerConfig Tx) (env : SyncEnv Tx)
    (raft : RaftBlockState Tx) : Proc (Syncer Tx) Err Unit := do
  let s ← get
  if s.lastState.lastBlockHeight = raft.height then
    require (s.lastState.lastHeaderHash = raft.hash) (.text "header hash mismatch")
  else if s.lastState.lastBlockHeight + 1 = raft.height then
    trySyncNextBlockWithState cfg env ⟨raft.header, raft.data, 0, .raft⟩ s.lastState
  else if raft.height < s.lastState.lastBlockHeight then
    match s.store.getBlockData raft.height with
    | none => throw (.text "local state ahead of raft snapshot, cannot verify hash")
    | some (header, _) =>
      require (cfg.hashes.headerHash header.header = raft.hash)
        (.text "local state diverged from raft")
  else pure ()

/-! ## Start -/

/-- The environment of one start: the snapshots of the two caches with the DA heights of the last
finalized block, the P2P header store, and what `initializeState` meets. -/
structure StartEnv where
  headerSnapshot : List (Nat × Nat)
  dataSnapshot : List (Nat × Nat)
  finalizedHeight : Nat
  finalizedHeaderDAHeight : Nat
  finalizedDataDAHeight : Nat
  initChain : Outcome
  stateRoot : Bytes
  commit : Outcome
  headerStoreHeight : Option Nat
  replay : Store.ReplayEnv

/-- `NewSyncer` with `NewManager`, on the datastore `store`. -/
def newSyncer (cfg : SyncerConfig Tx) (env : StartEnv) (store : Store Tx) : Syncer Tx where
  store := store
  lastState := Node.genesisState cfg.genesis []
  cache :=
    { headerCache := (Cache.restored env.headerSnapshot env.finalizedHeight).setMaxDAHeight
        env.finalizedHeaderDAHeight
      dataCache := (Cache.restored env.dataSnapshot env.finalizedHeight).setMaxDAHeight
        env.finalizedDataDAHeight
      pendingEvents := .empty }
  heightInCh := []
  processedHeight := 0
  daRetrieverHeight := cfg.genesis.daStartHeight
  forced := .initial 0
  hasCriticalError := false
  lastHeaderHashErrCount := 0

/-- The stored state, or a new chain. -/
def loadState (cfg : SyncerConfig Tx) (env : StartEnv) : Proc (Syncer Tx) Err State := do
  let s ← get
  match s.store.getState with
  | some state =>
    pure (if state.nextProposerAddress = []
      then { state with nextProposerAddress := cfg.genesis.proposerAddress } else state)
  | none => do
    io env.initChain (.text "failed to initialize execution client") fun s => s
    pure (Node.genesisState cfg.genesis env.stateRoot)

/-- `lastCheckedEpochEnd` as `initializeState` derives it from the DA height of the state. -/
def initialCheckedEpochEnd (genesis : Genesis) (daHeight : Nat) : Nat :=
  let epochSize := genesis.daEpochForcedInclusion
  let firstEpochEnd := genesis.daStartHeight + epochSize - 1
  if genesis.daStartHeight ≤ daHeight ∧ firstEpochEnd ≤ daHeight then
    firstEpochEnd + (daHeight - firstEpochEnd) / epochSize * epochSize
  else 0

/-- The DA height from which the DA follower starts. -/
def initialDARetrieverHeight (cfg : SyncerConfig Tx) (env : StartEnv) (state : State)
    (cacheDAHeight : Nat) : Nat :=
  let start := cfg.genesis.daStartHeight
  let daHeight := if start < state.daHeight then max start (state.daHeight - 1) else start
  let daHeight := match env.headerStoreHeight with
    | none => daHeight
    | some h => if state.lastBlockHeight < h then max daHeight cacheDAHeight else daHeight
  if 0 < cfg.daStartHeight then cfg.daStartHeight else daHeight

def initializeState (cfg : SyncerConfig Tx) (env : StartEnv) : Proc (Syncer Tx) Err Unit := do
  let state ← loadState cfg env
  require (state.daHeight = 0 ∨ cfg.genesis.daStartHeight ≤ state.daHeight)
    (.text "DA height is lower than DA start height")
  onStore (io env.commit (.text "failed to commit batch")
    fun s => (s.setHeight state.lastBlockHeight).updateState state)
  modify fun s => { s with
    lastState := state
    forced := .initial (initialCheckedEpochEnd cfg.genesis state.daHeight)
    daRetrieverHeight := initialDARetrieverHeight cfg env state s.cache.daHeight }
  mapError (.wrap "failed to sync execution layer on startup")
    (onStore (Store.syncToHeight cfg.genesis cfg.hashes env.replay state.lastBlockHeight))

/-- A new process on the same datastore. -/
def start (cfg : SyncerConfig Tx) (env : StartEnv) : Proc (Syncer Tx) Err Unit := do
  modify fun s => newSyncer cfg env s.store
  initializeState cfg env
  modify fun s => { s with processedHeight := max s.processedHeight s.store.height }

/-! ## Operations -/

/-- Everything that can happen to a syncing node. The last three are calls of the DA retriever and
of the submitter on the shared cache. -/
inductive Op (Tx : Type) where
  | start (env : StartEnv)
  | crash
  | pipeEvent (done : Bool) (event : DAHeightEvent Tx)
  | processHeight (height : Nat) (header : SignedHeader) (data : Data Tx)
  | processPendingEvents
  | processNext (env : SyncEnv Tx)
  | recoverFromRaft (env : SyncEnv Tx) (raft : RaftBlockState Tx)
  | headerDAIncluded (hash : Bytes) (daHeight height : Nat)
  | dataDAIncluded (hash : Bytes) (daHeight height : Nat)
  | deleteHeight (height : Nat)

def step [Transaction Tx] (cfg : SyncerConfig Tx) (l : Live (Syncer Tx)) : Op Tx → Live (Syncer Tx)
  | .start env => l.boot (start cfg env)
  | .crash => l.halt
  | .pipeEvent done event => l.call (modify (pipeEvent cfg done event) : Proc (Syncer Tx) Err Unit)
  | .processHeight height header data =>
    l.call (modify (processHeight cfg height header data) : Proc (Syncer Tx) Err Unit)
  | .processPendingEvents => l.call (modify processPendingEvents : Proc (Syncer Tx) Err Unit)
  | .processNext env => l.call (processNext cfg env)
  | .recoverFromRaft env raft => l.call (recoverFromRaft cfg env raft)
  | .headerDAIncluded hash daHeight height =>
    l.call (modifyCache fun m => m.setHeaderDAIncluded hash daHeight height)
  | .dataDAIncluded hash daHeight height =>
    l.call (modifyCache fun m => m.setDataDAIncluded hash daHeight height)
  | .deleteHeight height => l.call (modifyCache fun m => m.deleteHeight height)

end Syncer

/-! ## A concrete syncer

One process whose keys verify everything and whose every action succeeds, for concrete runs. -/

def SyncerConfig.plain (genesis : Genesis) : SyncerConfig RawTx where
  genesis := genesis
  hashes := (NodeConfig.plain genesis true).hashes
  scheme :=
    { keyAddress := fun key => key
      verify := fun _ _ _ => some true
      syncNodeSignatureBytes := none
      marshalBinary := fun h => some [UInt8.ofNat h.height]
      marshalBinaryLegacy := fun h => some [UInt8.ofNat h.height] }
  daClient := some true
  daStartHeight := 0

def SyncEnv.plain (da : DAAnswers RawTx) (executor : ExecutionAnswers RawTx) : SyncEnv RawTx where
  now := 0
  cancelled := false
  verify := ⟨da, executor⟩
  executeTxs := .ok
  stateRoot := []
  nextProposer := []
  commit := .ok

def Syncer.StartEnv.plain : Syncer.StartEnv :=
  ⟨[], [], 0, 0, 0, .ok, [], .ok, none, ⟨none, .ok, fun _ => none, fun _ => .ok⟩⟩

/-- The block at `height` with the transactions `txs`, one nanosecond after genesis, as it arrives from
`source`. -/
def DAHeightEvent.plain (genesis : Genesis) (height : Nat) (txs : List RawTx) (daHeight : Nat)
    (source : EventSource) : DAHeightEvent RawTx where
  header :=
    { header :=
        { height := height
          time := genesis.startTime + 1
          chainID := genesis.chainID
          version := ⟨0, 0⟩
          lastHeaderHash := [UInt8.ofNat (height - 1)]
          dataHash := txs.map fun tx => UInt8.ofNat tx.digest
          appHash := []
          validatorHash := []
          proposerAddress := genesis.proposerAddress }
      signature := [9]
      signerPubKey := genesis.proposerAddress
      signerAddress := genesis.proposerAddress }
  data := ⟨genesis.chainID, height, genesis.startTime + 1, [], txs⟩
  daHeight := daHeight
  source := source

/-- A syncer that was never started, on an empty datastore. -/
def Syncer.plain (cfg : SyncerConfig RawTx) : Syncer RawTx := .newSyncer cfg .plain .empty

end EvNode
