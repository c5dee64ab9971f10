import EvNode.Executing.Store
import EvNode.Sequencer.Single

/-!
# Block production

`block/internal/executing/executor.go`, over the single sequencer. A node is the sequencer and the
executor of one process; each of them holds its durable part. Results of the execution layer, the
signer and raft come from the environment.

`Node.step` is the system: one process on its datastore, with the operations that reach it.
-/

namespace EvNode

open Crash Proc

variable {Tx : Type}

structure Signer where
  pubKey : Bytes
  address : Bytes

/-- What stays the same over restarts. -/
structure NodeConfig (Tx : Type) where
  genesis : Genesis
  maxQueueSize : Int
  hasForcedInclusionNamespace : Bool
  signer : Signer
  hashes : Hashes Tx
  validatorHasher : Bytes → Bytes → Bytes
  raftNode : Bool
  maxPendingHeadersAndData : Nat

def NodeConfig.sequencer (cfg : NodeConfig Tx) : SequencerConfig :=
  ⟨cfg.genesis, cfg.genesis.chainID, cfg.maxQueueSize, cfg.hasForcedInclusionNamespace⟩

structure LastBlockInfo where
  headerHash : Bytes
  dataHash : Bytes
  signature : Bytes
  deriving DecidableEq

/-- `Executor`. `lastHeaderHashErrCount` is the process-wide counter of `types/state.go`. -/
structure Executor (Tx : Type) where
  store : Store Tx
  lastState : State
  lastBlockInfo : Option LastBlockInfo
  hasPendingBlock : Bool
  pendingBatchAck : Bool
  pendingCheckCounter : Nat
  lastHeaderHashErrCount : Nat

structure Node (Tx : Type) where
  seq : Sequencer Tx
  exec : Executor Tx

/-- `blobsize.DefaultMaxBlobSize`. -/
def defaultMaxBlobSize : Nat := 5242880

/-- The outcomes of the two datastore writes of one `AckBatch`. -/
structure AckEnv where
  put : Outcome
  commit : Outcome

/-- The environment of one `ProduceBlock`. -/
structure ProduceEnv (Tx : Type) where
  quorum : Bool
  retryAck : AckEnv
  numPendingHeaders : Nat
  numPendingData : Nat
  readPending : Outcome
  batch : BatchEnv Tx
  createBlock : Outcome
  savePending : Outcome
  quorumBeforeApply : Bool
  applyBlock : Outcome
  stateRoot : Bytes
  nextProposer : Bytes
  sign : Outcome
  signature : Bytes
  broadcast : Outcome
  commit : Outcome
  ack : AckEnv

namespace Node

def onSeq {α : Type} (p : Proc (Sequencer Tx) Err α) : Proc (Node Tx) Err α :=
  zoom Node.seq (fun q n => { n with seq := q }) p

def onStore {α : Type} (p : Proc (Store Tx) Err α) : Proc (Node Tx) Err α :=
  zoom (fun n => n.exec.store) (fun s n => { n with exec := { n.exec with store := s } }) p

def modifyExec (f : Executor Tx → Executor Tx) : Proc (Node Tx) Err Unit :=
  modify fun n => { n with exec := f n.exec }

def view (n : Node Tx) : ChainView Tx := n.exec.store.view

/-! ## Parts of ProduceBlock -/

section ProduceBlock

variable [Transaction Tx]

/-- `ackCommittedBatch`: a failure is remembered, so that the ack is retried. -/
def ackCommittedBatch (env : AckEnv) : Proc (Node Tx) Err Unit := do
  let r ← attempt (onSeq (Sequencer.ackBatch env.put env.commit))
  match r with
  | .ok () => modifyExec fun e => { e with pendingBatchAck := false }
  | .error e => do
    modifyExec fun e => { e with pendingBatchAck := true }
    throw e

def retryAck (env : ProduceEnv Tx) : Proc (Node Tx) Err Unit := do
  let n ← get
  if n.exec.pendingBatchAck then
    mapError (.wrap "failed to ack previously committed batch") (ackCommittedBatch env.retryAck)
  else pure ()

/-- The amortized check of the pending limit: whether production is skipped. -/
def pendingLimitReached (cfg : NodeConfig Tx) (env : ProduceEnv Tx) : Proc (Node Tx) Err Bool := do
  if 0 < cfg.maxPendingHeadersAndData then do
    modifyExec fun e => { e with pendingCheckCounter := e.pendingCheckCounter + 1 }
    let n ← get
    let shouldCheck : Bool :=
      cfg.maxPendingHeadersAndData ≤ 64 ∨ n.exec.pendingCheckCounter % 64 = 0
    pure (shouldCheck && (decide (cfg.maxPendingHeadersAndData ≤ env.numPendingHeaders)
      || decide (cfg.maxPendingHeadersAndData ≤ env.numPendingData)))
  else pure false

/-- The stored pending block, when the flag is set and it is for `newHeight`. -/
def reusePendingBlock (env : ProduceEnv Tx) (newHeight : Nat) :
    Proc (Node Tx) Err (Option (SignedHeader × Data Tx)) := do
  let n ← get
  if n.exec.hasPendingBlock then do
    io env.readPending (.text "failed to get block data") fun n => n
    match n.exec.store.getPendingBlock with
    | .error e => throw (.wrap "failed to get block data" e)
    | .ok none => pure none
    | .ok (some (header, data)) =>
      pure (if header.header.height = newHeight then some (header, data) else none)
  else pure none

/-- The hashes and the signature of the block before `height`, from the cache or the store. -/
def lastBlockInfo (cfg : NodeConfig Tx) (height : Nat) (e : Executor Tx) : Option LastBlockInfo :=
  if cfg.genesis.initialHeight < height then
    match e.lastBlockInfo with
    | some info => some info
    | none => (e.store.blocks.get? (height - 1)).map fun b =>
        ⟨cfg.hashes.headerHash b.header.header, cfg.hashes.dataHash b.data, b.signature⟩
  else some ⟨[], [], []⟩

/-- The block `CreateBlock` builds. -/
def buildBlock (cfg : NodeConfig Tx) (height : Nat) (batch : GetNextBatchResponse Tx)
    (state : State) (last : LastBlockInfo) : SignedHeader × Data Tx :=
  let headerTime :=
    if cfg.genesis.initialHeight < height then batch.timestamp else cfg.genesis.startTime
  let proposerAddress :=
    if state.nextProposerAddress = [] then cfg.genesis.proposerAddress
    else state.nextProposerAddress
  let header : Header :=
    { height := height
      time := headerTime
      chainID := cfg.genesis.chainID
      version := state.version
      lastHeaderHash := last.headerHash
      dataHash := if batch.batch = [] then cfg.hashes.dataHashForEmptyTxs
        else cfg.hashes.daCommitment batch.batch
      appHash := state.appHash
      validatorHash := cfg.validatorHasher proposerAddress cfg.signer.pubKey
      proposerAddress := proposerAddress }
  (⟨header, last.signature, cfg.signer.pubKey, proposerAddress⟩,
    ⟨cfg.genesis.chainID, height, headerTime, last.dataHash, batch.batch⟩)

def createBlock (cfg : NodeConfig Tx) (env : ProduceEnv Tx) (height : Nat)
    (batch : GetNextBatchResponse Tx) : Proc (Node Tx) Err (SignedHeader × Data Tx) := do
  let n ← get
  match lastBlockInfo cfg height n.exec with
  | none => throw (.text "failed to get last block")
  | some last => do
    io env.createBlock (.text "signer") fun n => n
    let block := buildBlock cfg height batch n.exec.lastState last
    require (cfg.signer.address = block.1.header.proposerAddress) .notProposer
    pure block

/-- The request of `RetrieveBatch`. -/
def batchRequest (cfg : NodeConfig Tx) : GetNextBatchRequest :=
  ⟨cfg.genesis.chainID, defaultMaxBlobSize⟩

/-- `RetrieveBatch`, then `CreateBlock`, then `savePendingBlock`; nothing when there is no
batch. -/
def newPendingBlock (cfg : NodeConfig Tx) (env : ProduceEnv Tx) (newHeight : Nat) :
    Proc (Node Tx) Err (Option (SignedHeader × Data Tx)) := do
  let n ← get
  let r ← attempt (onSeq (Sequencer.getNextBatch env.batch n.view (batchRequest cfg)))
  match r with
  | .error e =>
    if e.is .noBatch then pure none else throw (.wrap "failed to retrieve batch" e)
  | .ok batch => do
    let block ← mapError (.wrap "failed to create block") (createBlock cfg env newHeight batch)
    mapError (.wrap "failed to save block data")
      (onStore (Store.savePendingBlock env.savePending block.1 block.2))
    pure (some block)

/-- The state after the block, with the DA height of the sequencer. -/
def nextState (cfg : NodeConfig Tx) (env : ProduceEnv Tx) (header : Header) (n : Node Tx) : State :=
  { n.exec.lastState.nextState cfg.hashes header env.stateRoot env.nextProposer with
    daHeight := n.seq.daHeight }

/-- The durable effect of the block batch. -/
def commitBatch (header : SignedHeader) (data : Data Tx) (signature : Bytes) (newState : State)
    (s : Store Tx) : Store Tx :=
  ((s.saveBlockData header data signature).setHeight header.header.height).updateState newState

/-- Record that the signer is asked to sign `header`. -/
def recordSigned (header : Header) (n : Node Tx) : Node Tx :=
  { n with exec := { n.exec with
      store := { n.exec.store with signed := n.exec.store.signed ++ [header] } } }

def broadcast (cfg : NodeConfig Tx) (env : ProduceEnv Tx) : Proc (Node Tx) Err Unit :=
  if cfg.raftNode then io env.broadcast (.text "failed to propose block to raft") fun n => n
  else pure ()

/-- Apply, sign and validate the block. It returns the state after it. -/
def applyAndSign (cfg : NodeConfig Tx) (env : ProduceEnv Tx) (header : SignedHeader) :
    Proc (Node Tx) Err State := do
  require (!cfg.raftNode || env.quorumBeforeApply) (.text "raft cluster does not have quorum")
  io env.applyBlock (.text "failed to apply block") fun n => n
  let n ← get
  let newState := nextState cfg env header.header n
  modify (recordSigned header.header)
  io env.sign (.text "failed to sign header") fun n => n
  let checked := n.exec.lastState.assertValidSequence header n.exec.lastHeaderHashErrCount
  modifyExec fun e => { e with lastHeaderHashErrCount := checked.2 }
  match checked.1 with
  | .error e => throw (.wrap "failed to validate block" e)
  | .ok () => pure newState

/-- Commit the block and acknowledge its batch. A failed ack is only logged. -/
def commitBlock (cfg : NodeConfig Tx) (env : ProduceEnv Tx) (header : SignedHeader)
    (data : Data Tx) (newState : State) : Proc (Node Tx) Err Unit := do
  broadcast cfg env
  onStore (io env.commit (.text "failed to commit batch")
    (commitBatch { header with signature := env.signature } data env.signature newState))
  modifyExec fun e => { e with hasPendingBlock := false, lastState := newState }
  let _ ← attempt (ackCommittedBatch env.ack)
  modifyExec fun e => { e with
    lastBlockInfo := some ⟨newState.lastHeaderHash, cfg.hashes.dataHash data, env.signature⟩ }

/-- Everything after the block is there. -/
def finishBlock (cfg : NodeConfig Tx) (env : ProduceEnv Tx) :
    Option (SignedHeader × Data Tx) → Proc (Node Tx) Err Unit
  | none => pure ()
  | some (header, data) => do
    let newState ← applyAndSign cfg env header
    commitBlock cfg env header data newState

/-- The pending block if it is for the next height, else a new one. -/
def nextBlock (cfg : NodeConfig Tx) (env : ProduceEnv Tx) :
    Proc (Node Tx) Err (Option (SignedHeader × Data Tx)) := do
  let n ← get
  let newHeight := n.exec.lastState.lastBlockHeight + 1
  let reused ← reusePendingBlock env newHeight
  match reused with
  | some block => pure (some block)
  | none => newPendingBlock cfg env newHeight

def produceBlock (cfg : NodeConfig Tx) (env : ProduceEnv Tx) : Proc (Node Tx) Err Unit := do
  require (!cfg.raftNode || env.quorum) (.text "raft cluster does not have quorum")
  retryAck env
  let skip ← pendingLimitReached cfg env
  if skip then pure ()
  else do
    let block ← nextBlock cfg env
    finishBlock cfg env block

end ProduceBlock

/-! ## Start and stop -/

/-- The raft state a node sees when it starts. -/
structure RaftState where
  height : Nat
  hash : Bytes

/-- The environment of one start: `NewSequencer`, then `initializeState`. -/
structure InitEnv where
  seq : Sequencer.StartEnv
  initChain : Outcome
  stateRoot : Bytes
  raft : Option RaftState
  commit : Outcome
  migrateSave : Outcome
  migrateCleanup : Outcome
  replay : Store.ReplayEnv

/-- The state of a new chain. -/
def genesisState (genesis : Genesis) (stateRoot : Bytes) : State where
  version := ⟨0, 0⟩
  chainID := genesis.chainID
  initialHeight := genesis.initialHeight
  lastBlockHeight := genesis.initialHeight - 1
  lastBlockTime := genesis.startTime
  lastHeaderHash := []
  daHeight := genesis.daStartHeight
  appHash := stateRoot
  nextProposerAddress := genesis.proposerAddress

/-- An executor that has loaded nothing yet. -/
def blankExecutor (genesis : Genesis) (store : Store Tx) : Executor Tx where
  store := store
  lastState := genesisState genesis []
  lastBlockInfo := none
  hasPendingBlock := false
  pendingBatchAck := false
  pendingCheckCounter := 0
  lastHeaderHashErrCount := 0

/-- The stored state, or a new chain. -/
def loadState (cfg : NodeConfig Tx) (env : InitEnv) : Proc (Node Tx) Err State := do
  let n ← get
  match n.exec.store.getState with
  | some state =>
    pure (if state.nextProposerAddress = []
      then { state with nextProposerAddress := cfg.genesis.proposerAddress } else state)
  | none => do
    io env.initChain (.text "failed to initialize chain") fun n => n
    pure (genesisState cfg.genesis env.stateRoot)

/-- The checks against raft: the node is not ahead of it and has the same block at its height. -/
def checkRaft (cfg : NodeConfig Tx) (raft : Option RaftState) (lastBlockHeight : Nat)
    (s : Store Tx) : Bool :=
  match raft with
  | none => true
  | some r =>
    if r.height = 0 then true
    else if r.height < lastBlockHeight then false
    else if 0 < lastBlockHeight ∧ lastBlockHeight = r.height then
      match s.getBlockData lastBlockHeight with
      | none => false
      | some b => cfg.hashes.headerHash b.1.header = r.hash
    else true

/-- The last-block cache from the store. -/
def warmLastBlock (cfg : NodeConfig Tx) (e : Executor Tx) : Executor Tx :=
  let info := (e.store.blocks.get? e.lastState.lastBlockHeight).map fun b => LastBlockInfo.mk
    (cfg.hashes.headerHash b.header.header) (cfg.hashes.dataHash b.data) b.signature
  { e with lastBlockInfo := if 0 < e.lastState.lastBlockHeight then info else e.lastBlockInfo }

/-- The height the execution layer is synced to. -/
def syncTarget (raft : Option RaftState) (lastBlockHeight : Nat) : Nat :=
  match raft with
  | none => lastBlockHeight
  | some r => max r.height lastBlockHeight

def initializeState (cfg : NodeConfig Tx) (env : InitEnv) : Proc (Node Tx) Err Unit := do
  let state ← loadState cfg env
  require (cfg.signer.address = state.nextProposerAddress) .notProposer
  let n ← get
  require (checkRaft cfg env.raft state.lastBlockHeight n.exec.store) (.text "invalid state")
  modifyExec fun e => { e with lastState := state }
  modify fun n => { n with seq := n.seq.setDAHeight state.daHeight }
  onStore (io env.commit (.text "failed to commit batch")
    fun s => (s.setHeight state.lastBlockHeight).updateState state)
  mapError (.wrap "failed to migrate legacy pending block")
    (onStore (Store.migrateLegacyPendingBlock env.migrateSave env.migrateCleanup
      state.lastBlockHeight))
  modifyExec fun e => { e with
    hasPendingBlock := e.hasPendingBlock || e.store.pendingHeader.isSome }
  modifyExec (warmLastBlock cfg)
  mapError (.wrap "failed to sync execution layer")
    (onStore (Store.syncToHeight cfg.genesis cfg.hashes env.replay
      (syncTarget env.raft state.lastBlockHeight)))

/-- A new process on the same datastore. -/
def start [Transaction Tx] (cfg : NodeConfig Tx) (env : InitEnv) : Proc (Node Tx) Err Unit := do
  modify fun n => { n with exec := blankExecutor cfg.genesis n.exec.store }
  let n ← get
  onSeq (Sequencer.newSequencer cfg.sequencer env.seq n.view)
  initializeState cfg env

/-- `Stop`: without the flag, the stored pending block is deleted, best-effort. -/
def stop (deleteHeader deleteData : Outcome) : Proc (Node Tx) Err Unit := do
  let n ← get
  if n.exec.hasPendingBlock then pure ()
  else do
    let _ ← attempt (onStore (Store.deletePendingBlock deleteHeader deleteData))

/-- The part of `setNodeHeightToDAHeight` of the submitter that runs for the first block. -/
def genesisInclusion (write : Outcome) (genesisDAIncludedHeight : Nat) :
    Proc (Node Tx) Err Unit := do
  onStore (io write (.text "datastore put") fun s =>
    { s with genesisDAHeight := some genesisDAIncludedHeight })
  modify fun n => { n with seq := n.seq.setDAHeight genesisDAIncludedHeight }

/-! ## Operations -/

/-- Everything that can happen to a node. -/
inductive Op (Tx : Type) where
  | start (env : InitEnv)
  | crash
  | stop (deleteHeader deleteData : Outcome)
  | submit (put : Outcome) (batch : List Tx)
  | produce (env : ProduceEnv Tx)
  | genesisInclusion (write : Outcome) (genesisDAIncludedHeight : Nat)

def step [Transaction Tx] (cfg : NodeConfig Tx) (l : Live (Node Tx)) : Op Tx → Live (Node Tx)
  | .start env => l.boot (start cfg env)
  | .crash => l.halt
  | .stop deleteHeader deleteData => (l.call (stop deleteHeader deleteData)).halt
  | .submit put batch =>
    l.call (onSeq (Sequencer.submitBatchTxs put ⟨cfg.genesis.chainID, batch⟩))
  | .produce env => l.call (produceBlock cfg env)
  | .genesisInclusion write height => l.call (genesisInclusion write height)

end Node

/-! ## A concrete node

One process without raft and without a pending limit, whose every action succeeds, for concrete
runs. -/

def NodeConfig.plain (genesis : Genesis) (hasForcedInclusionNamespace : Bool) :
    NodeConfig RawTx where
  genesis := genesis
  maxQueueSize := 0
  hasForcedInclusionNamespace := hasForcedInclusionNamespace
  signer := ⟨[7], genesis.proposerAddress⟩
  hashes :=
    { headerHash := fun h => [UInt8.ofNat h.height]
      dataHash := fun d => [UInt8.ofNat d.txs.length]
      daCommitment := fun txs => txs.map fun tx => UInt8.ofNat tx.digest
      dataHashForEmptyTxs := [] }
  validatorHasher := fun _ _ => []
  raftNode := false
  maxPendingHeadersAndData := 0

def BatchEnv.plain (da : DAAnswers RawTx) (now : Time) : BatchEnv RawTx where
  da := da
  latestDAHeight := none
  executor := .acceptAll
  now := now
  rollbackDelete := .ok
  save := .ok

def ProduceEnv.plain (da : DAAnswers RawTx) (now : Time) : ProduceEnv RawTx where
  quorum := true
  retryAck := ⟨.ok, .ok⟩
  numPendingHeaders := 0
  numPendingData := 0
  readPending := .ok
  batch := .plain da now
  createBlock := .ok
  savePending := .ok
  quorumBeforeApply := true
  applyBlock := .ok
  stateRoot := []
  nextProposer := []
  sign := .ok
  signature := [9]
  broadcast := .ok
  commit := .ok
  ack := ⟨.ok, .ok⟩

def Sequencer.StartEnv.plain : Sequencer.StartEnv :=
  ⟨⟨.ok, fun _ => .ok, fun _ => .ok, fun _ => .ok⟩, .ok, fun _ => .ok, .ok⟩

def Node.InitEnv.plain : Node.InitEnv :=
  ⟨.plain, .ok, [], none, .ok, .ok, .ok, ⟨none, .ok, fun _ => none, fun _ => .ok⟩⟩

/-- A node that was never started, on an empty datastore. -/
def Node.plain (cfg : NodeConfig RawTx) : Node RawTx :=
  ⟨.blank cfg.sequencer ⟨.empty, [], []⟩ none, blankExecutor cfg.genesis .empty⟩

end EvNode
