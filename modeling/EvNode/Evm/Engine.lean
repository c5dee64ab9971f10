import EvNode.Evm.ExecStore
import EvNode.Lib.Crash
import EvNode.Lib.Lineage
import EvNode.Lib.OrdMap

/-!
# The EVM execution client and its execution layer

`execution/evm/execution.go`. The client executes a block by asking the execution layer to build a
payload on the parent, fetching it, submitting it and moving the head onto it. Between two calls it
keeps the hashes it last sent as head, safe and finalized, a few recent hashes, and a metadata record
per height from which an interrupted call is resumed.

A block stands for its hash: two blocks have the same hash exactly when they and their ancestors are
the same. The execution layer serves the chain below its head, and the payloads it has issued an id
for as long as it keeps them. An id stands for one payload, as ids are derived from what is built.

Each call to the execution layer has an outcome of its own. Besides succeeding it can be refused, be
applied and still answered with an error, and the process can die before or after it takes effect.
The retries of a call that gets a `SYNCING` answer send the same message and are one call.
-/

namespace EvNode

open Crash Proc

/-- What a block adds to its parent: the time in seconds, and the transactions. -/
structure Payload where
  timestamp : Int
  txs : List Bytes
  deriving DecidableEq, Repr

/-- A block of the execution layer. The root is the genesis block with its time. -/
abbrev ELBlock := Lineage Int Payload

def ELBlock.timestamp : ELBlock → Int
  | .root timestamp => timestamp
  | .next _ payload => payload.timestamp

/-! ## The execution layer -/

structure ExecutionLayer where
  head : ELBlock
  /-- Every payload an id was issued for. -/
  payloads : Bytes → Option ELBlock
  /-- The ids that can still be fetched. -/
  live : Bytes → Bool

namespace ExecutionLayer

/-- The canonical block at a height. -/
def headerByNumber (height : Nat) (el : ExecutionLayer) : Option ELBlock := el.head.at? height

def getPayload (id : Bytes) (el : ExecutionLayer) : Option ELBlock :=
  if el.live id then el.payloads id else none

/-- Move the head. An execution layer may leave the head alone when it is told to move to a block
below it. -/
def setCanonical (keepsHead : Bool) (b : ELBlock) (el : ExecutionLayer) : ExecutionLayer :=
  if keepsHead = true ∧ el.headerByNumber b.height = some b then el else { el with head := b }

/-- An id of eight bytes that was not issued for another payload, of a time that is not negative. -/
def accepts (id : Bytes) (b : ELBlock) (el : ExecutionLayer) : Bool :=
  decide (id.length = 8 ∧ 0 ≤ b.timestamp ∧
    (el.payloads id = none ∨ el.payloads id = some b))

def build (id : Bytes) (b : ELBlock) (el : ExecutionLayer) : ExecutionLayer :=
  { el with
    payloads := Function.update el.payloads id (some b)
    live := Function.update el.live id true }

/-- After a restart no payload is left and the head may be an earlier block. -/
def restart (height : Nat) (el : ExecutionLayer) : ExecutionLayer :=
  { el with head := (el.headerByNumber height).getD el.head, live := fun _ => false }

end ExecutionLayer

/-! ## The client -/

/-- `engine.ForkchoiceStateV1`. -/
structure Forkchoice where
  head : ELBlock
  safe : ELBlock
  finalized : ELBlock
  deriving DecidableEq, Repr

/-- What the client takes from its environment: the genesis time and the hash functions. -/
structure EngineConfig where
  genesisTime : Int
  blockHash : ELBlock → Bytes
  stateRoot : ELBlock → Bytes
  sha256 : Bytes → Bytes

def EngineConfig.genesis (cfg : EngineConfig) : ELBlock := .root cfg.genesisTime

/-- `EngineClient` with its store, and the execution layer it talks to. -/
structure EngineNode where
  el : ExecutionLayer
  store : EVMStore
  currentHeadBlockHash : ELBlock
  currentHeadHeight : Nat
  currentSafeBlockHash : ELBlock
  currentFinalizedBlockHash : ELBlock
  blockHashCache : OrdMap Nat ELBlock
  /-- Every forkchoice state sent so far, oldest first. -/
  sent : List Forkchoice
  /-- The height of the last successful `ExecuteTxs`. -/
  executed : Nat

/-- How a call that changes the execution layer ends. -/
inductive RpcOutcome where
  | ok
  | refused
  /-- It is applied, and the answer is an error. -/
  | lost
  | crash
  /-- It is applied, and the process dies before the answer. -/
  | crashAfter
  deriving DecidableEq, Repr

/-- How a block lookup ends, when the block is there. -/
inductive LookupOutcome where
  | ok
  | fail
  | pruned
  | crash
  deriving DecidableEq, Repr

/-- How a query for the next proposer ends. -/
inductive ProposerReply where
  | proposer (hash : Bytes)
  | methodNotFound
  | fail
  | crash
  deriving DecidableEq, Repr

/-- `execution.ExecuteResult`. -/
structure EvmResult where
  updatedStateRoot : Bytes
  nextProposerAddress : Bytes
  deriving DecidableEq, Repr

/-- What the environment does during one `ExecuteTxs`. -/
structure ExecuteEnv where
  keepsHead : Bool
  now : Int
  promotedLookup : LookupOutcome
  promotedSetHead : RpcOutcome
  resumePayload : Outcome
  existingLookup : LookupOutcome
  existingSetHead : RpcOutcome
  saveExisting : Outcome
  rollbackLookup : LookupOutcome
  rollback : RpcOutcome
  prevLookup : LookupOutcome
  build : RpcOutcome
  payloadID : Bytes
  saveStarted : Outcome
  getPayload : Outcome
  newPayload : Outcome
  safeLookup : LookupOutcome
  finalizedLookup : LookupOutcome
  promote : RpcOutcome
  savePromoted : Outcome
  proposerBefore : ProposerReply
  proposerAfter : ProposerReply
  deriving DecidableEq, Repr

namespace EngineNode

abbrev Action := Proc EngineNode Err

def safeBlockLag : Nat := 2

def finalizedBlockLag : Nat := 3

/-- `timestamp.Unix()`. The times of the execution layer are not negative, so that its `uint64` and
this `int64` are the same numbers. -/
def unix (time : Time) : Int := time / 1000000000

/-- `ethereum.NotFound`. -/
def errNotFound : Err := .text "not found"

/-- An RPC error with the code `prunedHistoryErrorCode`. -/
def errPrunedHistory : Err := .text "pruned history unavailable"

def isHistoryUnavailable (e : Err) : Bool := e.is errNotFound || e.is errPrunedHistory

/-- The genesis state, with a new client. -/
def start (cfg : EngineConfig) : EngineNode :=
  ⟨⟨cfg.genesis, fun _ => none, fun _ => false⟩, .empty, cfg.genesis, 0, cfg.genesis, cfg.genesis,
    .empty, [], 0⟩

/-- `NewEngineExecutionClient`: the labels and the cache are not kept over a restart. -/
def newEngineExecutionClient (cfg : EngineConfig) (n : EngineNode) : EngineNode :=
  { n with
    currentHeadBlockHash := cfg.genesis
    currentHeadHeight := 0
    currentSafeBlockHash := cfg.genesis
    currentFinalizedBlockHash := cfg.genesis
    blockHashCache := .empty }

/-- A call that changes the execution layer. -/
def rpc (o : RpcOutcome) (e : Err) (f : ExecutionLayer → ExecutionLayer) : Action Unit := fun n =>
  match o with
  | .ok => (.ok (), { n with el := f n.el })
  | .refused => (.error e, n)
  | .lost => (.error e, { n with el := f n.el })
  | .crash => (.crash, n)
  | .crashAfter => (.crash, { n with el := f n.el })

/-- `getBlockInfo`: the header at a height. -/
def getBlockInfo (o : LookupOutcome) (height : Nat) : Action ELBlock := fun n =>
  let failed := Err.wrap s!"failed to get block at height {height}"
  match o with
  | .crash => (.crash, n)
  | .fail => (.error (failed (.text "request failed")), n)
  | .pruned => (.error (failed errPrunedHistory), n)
  | .ok =>
    match n.el.headerByNumber height with
    | some b => (.ok b, n)
    | none => (.error (failed errNotFound), n)

/-- The engine call `GetPayload`. -/
def fetchPayload (o : Outcome) (id : Bytes) : Action ELBlock := do
  io o (.text "request failed") fun n => n
  let n ← get
  match n.el.getPayload id with
  | some b => pure b
  | none => throw (.text "unknown payload")

/-- `doForkchoiceUpdate`. -/
def doForkchoiceUpdate (o : RpcOutcome) (keepsHead : Bool) (args : Forkchoice) : Action Unit := do
  modify fun n => { n with sent := n.sent ++ [args] }
  rpc o (.text "forkchoice update failed") fun el => el.setCanonical keepsHead args.head

/-- The forkchoice update of `ExecuteTxs`, which also asks for a payload. -/
def startPayload (env : ExecuteEnv) (args : Forkchoice) (b : ELBlock) : Action Unit := do
  modify fun n => { n with sent := n.sent ++ [args] }
  let n ← get
  if n.el.accepts env.payloadID b then
    rpc env.build (.text "forkchoice update failed") fun el =>
      (el.setCanonical env.keepsHead args.head).build env.payloadID b
  else do
    rpc env.build (.text "forkchoice update failed") fun el =>
      el.setCanonical env.keepsHead args.head
    throw (.text "returned nil PayloadID")

def hashTxs (cfg : EngineConfig) (txs : List Bytes) : Bytes :=
  if txs = [] then [] else cfg.sha256 txs.flatten

/-- `filterTransactions`. -/
def filterTransactions (txs : List Bytes) : List Bytes := txs.filter fun tx => tx.length ≠ 0

/-- `saveExecMeta`. A failure is logged only. -/
def saveExecMeta (o : Outcome) (execMeta : ExecMeta) : Action Unit := do
  let _ ← attempt (io o (.text "failed to save exec meta") fun n =>
    { n with store := n.store.saveExecMeta execMeta })
  pure ()

def cacheBlockHash (height : Nat) (b : ELBlock) (n : EngineNode) : EngineNode :=
  let cache := n.blockHashCache.put height b
  -- `minHeight` is 0 below 9, where the subtraction ends as well
  let stale := cache.entries.filter fun e => e.1 < height - 9
  { n with blockHashCache :=
      if 10 < cache.entries.length then stale.foldl (fun m e => m.delete e.1) cache else cache }

/-- `setHead`. -/
def setHead (o : RpcOutcome) (keepsHead : Bool) (b : ELBlock) : Action Unit := do
  modify fun n => { n with currentHeadBlockHash := b }
  let n ← get
  doForkchoiceUpdate o keepsHead ⟨b, n.currentSafeBlockHash, n.currentFinalizedBlockHash⟩

/-- A block hash from the cache, or else from the execution layer. -/
def cachedBlock (o : LookupOutcome) (height : Nat) : Action (Option ELBlock) := do
  let n ← get
  match n.blockHashCache.get? height with
  | some b => pure (some b)
  | none => do
    match ← attempt (getBlockInfo o height) with
    | .ok b => pure (some b)
    | .error _ => pure none

/-- The block a lag below the head, if the head is high enough and the block is found. -/
def laggingBlock (o : LookupOutcome) (headHeight lag : Nat) : Action (Option ELBlock) :=
  if lag < headHeight then cachedBlock o (headHeight - lag) else pure none

/-- `setFinalWithHeight` with `isFinal` false. -/
def advanceHead (env : ExecuteEnv) (b : ELBlock) (headHeight : Nat) : Action Unit := do
  let safe ← laggingBlock env.safeLookup headHeight safeBlockLag
  let finalized ← laggingBlock env.finalizedLookup headHeight finalizedBlockLag
  modify fun n => { n with
    currentHeadBlockHash := b
    currentHeadHeight := headHeight
    currentSafeBlockHash := safe.getD n.currentSafeBlockHash
    currentFinalizedBlockHash := finalized.getD n.currentFinalizedBlockHash }
  let n ← get
  doForkchoiceUpdate env.promote env.keepsHead
    ⟨n.currentHeadBlockHash, n.currentSafeBlockHash, n.currentFinalizedBlockHash⟩

/-- `setFinalWithHeight` with `isFinal` true. -/
def setFinalHash (o : RpcOutcome) (keepsHead : Bool) (b : ELBlock) : Action Unit := do
  modify fun n => { n with currentFinalizedBlockHash := b, currentSafeBlockHash := b }
  let n ← get
  doForkchoiceUpdate o keepsHead
    ⟨n.currentHeadBlockHash, n.currentSafeBlockHash, n.currentFinalizedBlockHash⟩

/-- `Rollback`. -/
def rollback (lookup : LookupOutcome) (o : RpcOutcome) (keepsHead : Bool) (targetHeight : Nat) :
    Action Unit := do
  let b ← mapError (.wrap s!"get block at height {targetHeight}") (getBlockInfo lookup targetHeight)
  modify fun n => { n with
    currentHeadBlockHash := b
    currentHeadHeight := targetHeight
    currentSafeBlockHash := b
    currentFinalizedBlockHash := b }
  mapError (.wrap "forkchoice update for rollback failed") (doForkchoiceUpdate o keepsHead ⟨b, b, b⟩)

/-! ## Reusing an earlier execution -/

/-- What `reconcileExecutionAtHeight` finds. -/
inductive Reconciled where
  | executed (stateRoot : Bytes)
  | inProgress (payloadID : Bytes)
  | notFound
  deriving DecidableEq, Repr

/-- The promoted record of the same second, if the execution layer still has a block of that second
at the height. -/
def reusePromoted (cfg : EngineConfig) (env : ExecuteEnv) (height : UInt64) (seconds : Int)
    (execMeta : ExecMeta) : Action (Option Bytes) :=
  if execMeta.stage = .promoted ∧ 0 < execMeta.stateRoot.length ∧ execMeta.timestamp = seconds then do
    match ← attempt (getBlockInfo env.promotedLookup height.toNat) with
    | .error _ => pure none
    | .ok b =>
      if b.timestamp = seconds then do
        let _ ← attempt (setHead env.promotedSetHead env.keepsHead b)
        pure (some (cfg.stateRoot b))
      else pure none
  else pure none

/-- The started record of the same inputs, if its payload can still be fetched. -/
def reuseStarted (cfg : EngineConfig) (env : ExecuteEnv) (txs : List Bytes) (seconds : Int)
    (execMeta : ExecMeta) : Action (Option Bytes) :=
  if execMeta.stage = .started ∧ execMeta.payloadID.length = 8 ∧
      execMeta.timestamp = seconds ∧ execMeta.txHash = hashTxs cfg txs then do
    match ← attempt (fetchPayload env.resumePayload execMeta.payloadID) with
    | .ok _ => pure (some execMeta.payloadID)
    | .error _ => pure none
  else pure none

/-- The block the execution layer has at the height. One of another second is rolled back. -/
def reuseExisting (cfg : EngineConfig) (env : ExecuteEnv) (txs : List Bytes) (height : UInt64)
    (seconds : Int) : Action Reconciled := do
  match ← attempt (getBlockInfo env.existingLookup height.toNat) with
  | .error _ => pure .notFound
  | .ok b =>
    if b.timestamp = seconds then do
      let _ ← attempt (setHead env.existingSetHead env.keepsHead b)
      saveExecMeta env.saveExisting ⟨height, [], [], cfg.blockHash b, cfg.stateRoot b,
        hashTxs cfg txs, seconds, .promoted, env.now⟩
      pure (.executed (cfg.stateRoot b))
    else if 0 < height then do
      mapError (.wrap s!"failed to rollback EL for timestamp mismatch at height {height}")
        (rollback env.rollbackLookup env.rollback env.keepsHead (height - 1).toNat)
      pure .notFound
    else pure .notFound

/-- `reconcileExecutionAtHeight`. An unreadable record is passed over. -/
def reconcileExecutionAtHeight (cfg : EngineConfig) (env : ExecuteEnv) (txs : List Bytes)
    (height : UInt64) (seconds : Int) : Action Reconciled := do
  let n ← get
  match n.store.getExecMeta height with
  | .ok (some execMeta) => do
    match ← reusePromoted cfg env height seconds execMeta with
    | some stateRoot => pure (.executed stateRoot)
    | none => do
      match ← reuseStarted cfg env txs seconds execMeta with
      | some payloadID => pure (.inProgress payloadID)
      | none => reuseExisting cfg env txs height seconds
  | _ => reuseExisting cfg env txs height seconds

/-! ## ExecuteTxs -/

/-- `nextProposerAtBlock`: the proposer, or nothing when the method is not supported. -/
def nextProposerAtBlock (reply : ProposerReply) (height : UInt64) : Action (Option Bytes) := fun n =>
  match reply with
  | .proposer hash => (.ok (some hash), n)
  | .methodNotFound => (.ok none, n)
  | .fail =>
    (.error (.wrap s!"failed to get next proposer at block {height}" (.text "request failed")), n)
  | .crash => (.crash, n)

/-- `nextProposerChangeAfterBlock`. -/
def nextProposerChangeAfterBlock (env : ExecuteEnv) (height : UInt64) : Action Bytes := do
  if height = 0 then pure []
  else do
    match ← nextProposerAtBlock env.proposerBefore (height - 1) with
    | none => pure []
    | some before => do
      match ← nextProposerAtBlock env.proposerAfter height with
      | none => pure []
      | some after =>
        if after = List.replicate 32 0 ∨ after = before then pure [] else pure after

/-- `executionResultAfterBlock`. -/
def executionResultAfterBlock (env : ExecuteEnv) (stateRoot : Bytes) (height : UInt64) :
    Action EvmResult := do
  let nextProposer ← nextProposerChangeAfterBlock env height
  pure ⟨stateRoot, nextProposer⟩

/-- `processPayload`. -/
def processPayload (cfg : EngineConfig) (env : ExecuteEnv) (payloadID : Bytes)
    (txs : List Bytes) : Action Bytes := do
  let b ← mapError (.wrap "get payload failed") (fetchPayload env.getPayload payloadID)
  io env.newPayload (.text "new payload submission failed") fun n => n
  modify (cacheBlockHash b.height b)
  mapError (.wrap "forkchoice update failed") (advanceHead env b b.height)
  saveExecMeta env.savePromoted ⟨.ofNat b.height, [], payloadID, cfg.blockHash b, cfg.stateRoot b,
    hashTxs cfg txs, b.timestamp, .promoted, env.now⟩
  pure (cfg.stateRoot b)

/-- The part of `ExecuteTxs` that builds a block. -/
def buildBlock (cfg : EngineConfig) (env : ExecuteEnv) (txs : List Bytes) (height : UInt64)
    (seconds : Int) (prevStateRoot : Bytes) : Action Bytes := do
  let prev ← mapError (.wrap "failed to get block info")
    (getBlockInfo env.prevLookup (height - 1).toNat)
  require (decide (prevStateRoot.length = 0 ∨ prevStateRoot = cfg.stateRoot prev))
    (.text s!"prevStateRoot mismatch at height {height - 1}")
  modify (cacheBlockHash (height - 1).toNat prev)
  let n ← get
  startPayload env ⟨prev, n.currentSafeBlockHash, n.currentFinalizedBlockHash⟩
    (.next prev ⟨seconds, filterTransactions txs⟩)
  saveExecMeta env.saveStarted ⟨height, [], env.payloadID, [], [], hashTxs cfg txs, seconds,
    .started, env.now⟩
  processPayload cfg env env.payloadID txs

/-- `ExecuteTxs`. An error of the idempotency check is logged, and the block is built. -/
def executeTxs (cfg : EngineConfig) (env : ExecuteEnv) (txs : List Bytes) (height : UInt64)
    (time : Time) (prevStateRoot : Bytes) : Action EvmResult := do
  let reconciled ← attempt (reconcileExecutionAtHeight cfg env txs height (unix time))
  let stateRoot ← match reconciled with
    | .ok (.executed stateRoot) => pure stateRoot
    | .ok (.inProgress payloadID) => processPayload cfg env payloadID txs
    | _ => buildBlock cfg env txs height (unix time) prevStateRoot
  executionResultAfterBlock env stateRoot height

/-! ## SetFinal -/

/-- What the environment does during one `SetFinal`. -/
structure FinalEnv where
  keepsHead : Bool
  lookup : LookupOutcome
  update : RpcOutcome
  headLookup : Outcome
  deriving DecidableEq, Repr

/-- `SetFinal`. A block that is no longer served, below the head, is passed over. -/
def setFinal (env : FinalEnv) (height : UInt64) : Action Unit := do
  match ← attempt (getBlockInfo env.lookup height.toNat) with
  | .ok b => setFinalHash env.update env.keepsHead b
  | .error e =>
    if isHistoryUnavailable e then do
      match ← attempt (io env.headLookup (.text "request failed") fun n => n) with
      | .error _ => throw (.wrap "failed to get block info" e)
      | .ok _ => do
        let n ← get
        require (decide (height.toNat ≤ n.el.head.height)) (.wrap "failed to get block info" e)
    else throw (.wrap "failed to get block info" e)

/-! ## Runs -/

inductive Op where
  | executeTxs (env : ExecuteEnv) (txs : List Bytes) (height : UInt64) (time : Time)
      (prevStateRoot : Bytes)
  | setFinal (env : FinalEnv) (height : UInt64)
  | rollback (lookup : LookupOutcome) (o : RpcOutcome) (keepsHead : Bool) (height : UInt64)
  | pruneExec (height : UInt64)
  /-- The process of the node ends and is started again. -/
  | restart
  /-- The execution layer is restarted, with the head at an earlier block or where it was. -/
  | restartEL (height : Nat)
  deriving DecidableEq, Repr

/-- The state after a call. A call that dies is followed by a new client. -/
def after {α : Type} (cfg : EngineConfig) (p : Action α) (done : EngineNode → EngineNode)
    (n : EngineNode) : EngineNode :=
  match p n with
  | (.ok _, n') => done n'
  | (.error _, n') => n'
  | (.crash, n') => newEngineExecutionClient cfg n'

def step (cfg : EngineConfig) (n : EngineNode) : Op → EngineNode
  | .executeTxs env txs height time prevStateRoot =>
    after cfg (executeTxs cfg env txs height time prevStateRoot)
      (fun n' => { n' with executed := height.toNat }) n
  | .setFinal env height => after cfg (setFinal env height) (fun n' => n') n
  | .rollback lookup o keepsHead height =>
    after cfg (rollback lookup o keepsHead height.toNat) (fun n' => n') n
  | .pruneExec height => { n with store := n.store.pruneExec height }
  | .restart => newEngineExecutionClient cfg n
  | .restartEL height => { n with el := n.el.restart height }

end EngineNode

end EvNode
