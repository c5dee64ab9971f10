import EvNode.Lib.OrdMap
import EvNode.Sequencer.Common
import EvNode.Types.Block

/-!
# The block store, the pending block and the replayer

`pkg/store`, `block/internal/executing/pending.go` and `block/internal/common/replay.go`. A
datastore batch is committed atomically, so each commit is one write with one `Outcome`. Reads
succeed.
-/

namespace EvNode

open Crash Proc

variable {Tx : Type}

/-- A stored block: header, data and the separately stored signature. -/
structure Block (Tx : Type) where
  header : SignedHeader
  data : Data Tx
  signature : Bytes

/-- The part of the datastore behind `pkg/store`. `signed` is a history no function reads: the
headers handed to the signer, in order. -/
structure Store (Tx : Type) where
  height : Nat
  blocks : OrdMap Nat (Block Tx)
  states : OrdMap Nat State
  pendingHeader : Option SignedHeader
  pendingData : Option (Data Tx)
  genesisDAHeight : Option Nat
  signed : List Header

namespace Store

def empty : Store Tx := ⟨0, .empty, .empty, none, none, none, []⟩

def getState (s : Store Tx) : Option State := s.states.get? s.height

def getBlockData (s : Store Tx) (height : Nat) : Option (SignedHeader × Data Tx) :=
  (s.blocks.get? height).map fun b => (b.header, b.data)

/-- `Batch.SetHeight`: the height never goes down. -/
def setHeight (height : Nat) (s : Store Tx) : Store Tx :=
  if height ≤ s.height then s else { s with height := height }

def updateState (state : State) (s : Store Tx) : Store Tx :=
  { s with states := s.states.put state.lastBlockHeight state }

def saveBlockData (header : SignedHeader) (data : Data Tx) (signature : Bytes) (s : Store Tx) :
    Store Tx :=
  { s with blocks := s.blocks.put header.header.height ⟨header, data, signature⟩ }

/-- What a sequencer reads. -/
def view (s : Store Tx) : ChainView Tx where
  height := s.height
  blockTxs := (s.getBlockData s.height).map fun b => b.2.txs
  lastBlockTime := s.getState.map State.lastBlockTime
  daHeight := s.getState.map State.daHeight
  genesisDAHeight := s.genesisDAHeight

/-! ## The pending block -/

/-- `getPendingBlock`: nothing, a block, or an error when the data is missing. -/
def getPendingBlock (s : Store Tx) : Except Err (Option (SignedHeader × Data Tx)) :=
  match s.pendingHeader, s.pendingData with
  | none, _ => .ok none
  | some _, none => .error (.text "pending header exists but data is missing: corrupt state")
  | some header, some data => .ok (some (header, data))

def savePendingBlock (commit : Outcome) (header : SignedHeader) (data : Data Tx) :
    Proc (Store Tx) Err Unit :=
  io commit (.wrap "commit pending block" (.text "datastore commit")) fun s =>
    { s with pendingHeader := some header, pendingData := some data }

/-- `deletePendingBlock`: two deletes, one after the other. -/
def deletePendingBlock (deleteHeader deleteData : Outcome) : Proc (Store Tx) Err Unit := do
  io deleteHeader (.text "delete pending header") fun s => { s with pendingHeader := none }
  io deleteData (.text "delete pending data") fun s => { s with pendingData := none }

/-- `migrateLegacyPendingBlock`: a block without signature above the last height becomes the
pending block. -/
def migrateLegacyPendingBlock (save cleanup : Outcome) (lastBlockHeight : Nat) :
    Proc (Store Tx) Err Unit := do
  let s ← get
  match s.getBlockData (lastBlockHeight + 1) with
  | none => pure ()
  | some (header, data) => do
    require header.signature.isEmpty (.text "pending block with signatures found")
    mapError (.wrap "save migrated pending block") (savePendingBlock save header data)
    io cleanup (.text "commit cleanup batch") fun s =>
      { s with blocks := s.blocks.delete (lastBlockHeight + 1) }

/-! ## Replay -/

/-- The execution layer during a replay: its height when it reports one, the result of
`ExecuteTxs` at each height, and the outcome of saving each state. -/
structure ReplayEnv where
  execHeight : Option Nat
  rollback : Outcome
  executeTxs : Nat → Option (Bytes × Bytes)
  saveState : Nat → Outcome

/-- The state a replay of `height` starts from. -/
def replayPrevState (genesis : Genesis) (height : Nat) (header : SignedHeader) (s : Store Tx) :
    Option State :=
  if height = genesis.initialHeight then
    some { version := ⟨0, 0⟩
           chainID := genesis.chainID
           initialHeight := genesis.initialHeight
           lastBlockHeight := genesis.initialHeight - 1
           lastBlockTime := genesis.startTime
           lastHeaderHash := []
           daHeight := 0
           appHash := header.header.appHash
           nextProposerAddress := genesis.proposerAddress }
  else s.states.get? (height - 1)

/-- Whether a replayed state agrees with the stored one, if there is one. -/
def replayMatches (stored : Option State) (state : State) : Bool :=
  match stored with
  | none => true
  | some expected => state.appHash = expected.appHash ∧
      (expected.nextProposerAddress = [] ∨
        state.nextProposerAddress = expected.nextProposerAddress)

def replayBlock (genesis : Genesis) (hs : Hashes Tx) (env : ReplayEnv) (height : Nat) :
    Proc (Store Tx) Err Unit := do
  let s ← get
  match s.getBlockData height with
  | none => throw (.text "failed to get block data from store")
  | some (header, _) =>
    match replayPrevState genesis height header s with
    | none => throw (.text "failed to get previous state")
    | some prevState =>
      match env.executeTxs height with
      | none => throw (.text "failed to execute transactions")
      | some (stateRoot, nextProposer) => do
        let newState := prevState.nextState hs header.header stateRoot nextProposer
        require (replayMatches (s.states.get? height) newState) (.text "state mismatch")
        io (env.saveState height) (.text "commit batch with new state") (updateState newState)

def replayBlocks (genesis : Genesis) (hs : Hashes Tx) (env : ReplayEnv) :
    List Nat → Proc (Store Tx) Err Unit
  | [] => pure ()
  | height :: rest => do
    replayBlock genesis hs env height
    replayBlocks genesis hs env rest

/-- `SyncToHeight`. -/
def syncToHeight (genesis : Genesis) (hs : Hashes Tx) (env : ReplayEnv) (targetHeight : Nat) :
    Proc (Store Tx) Err Unit := do
  let s ← get
  match env.execHeight with
  | none => pure ()
  | some execHeight =>
    if targetHeight < genesis.initialHeight then pure ()
    else if targetHeight < execHeight then
      io env.rollback (.text "failed to rollback execution layer") fun s => s
    else if execHeight < targetHeight then do
      require (s.getBlockData targetHeight).isSome (.text "block not found in store")
      replayBlocks genesis hs env (List.range' (execHeight + 1) (targetHeight - execHeight))
    else pure ()

end Store

end EvNode
