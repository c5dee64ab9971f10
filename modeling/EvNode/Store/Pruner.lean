import EvNode.Store.DefaultStore

/-!
# The pruner

`block/internal/pruner/pruner.go`. A tick of the pruning loop reads the heights it works with and
then prunes in chunks, each of which is one batch of the store, while blocks are committed and the
DA-included height grows. A crash is possible between any two chunks, and the mode may be another one
after a restart. Pruning of the execution metadata is left out: it touches another datastore.

Sums and differences of heights are those of `uint64`.
-/

namespace EvNode

variable {Tx : Type}

inductive PruningMode where
  | metadata
  | all
  deriving DecidableEq, Repr

/-- `PruningConfig` with the block time, as far as `Validate` accepts it; durations are in
nanoseconds. `daEnabled` says whether the node has a DA address. -/
structure PruningConfig where
  keepRecent : Nat
  interval : Nat
  blockTime : Nat
  daEnabled : Bool
  keepRecent_pos : 0 < keepRecent
  keepRecent_lt : keepRecent < 2 ^ 64
  blockTime_pos : 0 < blockTime

/-- `a + b` of `uint64`. -/
def uint64Add (a b : Nat) : Nat := (a + b) % 2 ^ 64

/-- `a - b` of `uint64`. -/
def uint64Sub (a b : Nat) : Nat := if b ≤ a then a - b else a + 2 ^ 64 - b

/-- Where the pruner is in a tick: between ticks, or in one of the two chunk loops. -/
inductive PrunePhase where
  | idle
  | blocks (start stop : Nat)
  | states (start stop : Nat)
  deriving DecidableEq, Repr

/-- A store with its pruner. -/
structure PruningNode (Tx : Type) where
  store : DefaultStore Tx
  mode : PruningMode
  phase : PrunePhase

namespace PruningNode

def maxPruneChunk : Nat := 10000

/-- `getLastPrunedBlockHeight` and `getLastPrunedStateHeight`: a marker that is zero or malformed is
an error. -/
def lastPrunedHeight (key : Bytes) (s : DefaultStore Tx) : Option Nat :=
  match s.getMetadata key with
  | none => some 0
  | some (.height 0) => none
  | some (.height height) => some height
  | some (.bytes _) => none

section
variable (cfg : PruningConfig)

def pruneBudget : Nat := max (cfg.interval / cfg.blockTime * 4 % 2 ^ 64) maxPruneChunk

/-- `pruneStates`, up to its chunk loop. -/
def pruneStates (upTo : Nat) (s : DefaultStore Tx) : PrunePhase :=
  match lastPrunedHeight lastPrunedStateHeightKey s with
  | none => .idle
  | some lastPrunedState =>
    if upTo ≤ lastPrunedState then .idle
    else .states lastPrunedState (min (uint64Add lastPrunedState (pruneBudget cfg)) upTo)

/-- `pruneMetadata`, up to its chunk loop. -/
def pruneMetadata (s : DefaultStore Tx) : PrunePhase :=
  if s.height ≤ uint64Add cfg.keepRecent 1 then .idle
  else
    let target := uint64Sub s.height cfg.keepRecent
    pruneStates cfg (uint64Sub target 1) s

/-- The height up to which blocks may go: with DA, that of the included ones. -/
def upperBound (s : DefaultStore Tx) : Option Nat :=
  if cfg.daEnabled then
    match s.getMetadata daIncludedHeightKey with
    | some (.height currentDAIncluded) => some (min s.height currentDAIncluded)
    | _ => none
  else some s.height

/-- `pruneBlocks`, up to its first chunk loop. -/
def pruneBlocks (s : DefaultStore Tx) : PrunePhase :=
  match upperBound cfg s with
  | none => .idle
  | some upperBound =>
    if upperBound ≤ cfg.keepRecent then .idle
    else
      match lastPrunedHeight lastPrunedBlockHeightKey s with
      | none => .idle
      | some lastPruned =>
        let targetHeight := upperBound - cfg.keepRecent
        .blocks lastPruned
          (max (min (uint64Add lastPruned (pruneBudget cfg)) targetHeight) lastPruned)

/-- A tick of the loop, which is not at work on an earlier one. -/
def tick (n : PruningNode Tx) : PruningNode Tx :=
  match n.phase with
  | .idle =>
    { n with phase := match n.mode with
      | .metadata => pruneMetadata cfg n.store
      | .all => pruneBlocks cfg n.store }
  | _ => n

variable (blobHash : SignedHeader → Bytes)

/-- One round of `pruneInChunks`, or what follows its last one. The state at the last pruned block is
kept: replaying the next block needs it. -/
def chunk (n : PruningNode Tx) : PruningNode Tx :=
  match n.phase with
  | .idle => n
  | .blocks start stop =>
    if start < stop then
      let stop' := min (uint64Add start maxPruneChunk) stop
      { n with store := n.store.pruneBlocks blobHash stop', phase := .blocks stop' stop }
    else if stop = 0 then { n with phase := .idle }
    else { n with phase := pruneStates cfg (stop - 1) n.store }
  | .states start stop =>
    if start < stop then
      let stop' := min (uint64Add start maxPruneChunk) stop
      { n with store := n.store.pruneStates blobHash stop', phase := .states stop' stop }
    else { n with phase := .idle }

/-- What can happen to the node: a block is committed, the DA-included height is written, the pruner
takes a step, the process starts again, or the store is rolled back. -/
inductive Op (Tx : Type) where
  | commit (header : SignedHeader) (data : Data Tx) (signature : Bytes) (state : State)
  | setDAIncluded (height : Nat)
  | tick
  | chunk
  | restart (mode : PruningMode)
  | rollback (height : Nat) (aggregator : Bool)

/-- What an operation other than the pruner's does to the store. -/
def write (s : DefaultStore Tx) : Op Tx → DefaultStore Tx
  | .commit header data signature state => s.commitBlock blobHash header data signature state
  | .setDAIncluded height => s.setMetadata blobHash daIncludedHeightKey (.height height)
  | .rollback height aggregator =>
    match s.rollback blobHash height aggregator with
    | .ok s' => s'
    | .error _ => s
  | _ => s

def step (n : PruningNode Tx) : Op Tx → PruningNode Tx
  | .tick => n.tick cfg
  | .chunk => n.chunk cfg blobHash
  | .restart mode => { n with mode := mode, phase := .idle }
  | op => { n with store := write blobHash n.store op }

/-- The store after the first start: the state before the first block. -/
def genesisStore (genesis : Genesis) (state : State) : DefaultStore Tx :=
  { DefaultStore.empty with
    height := genesis.initialHeight - 1
    states := OrdMap.empty.put (genesis.initialHeight - 1) state }

def newNode (genesis : Genesis) (state : State) (mode : PruningMode) : PruningNode Tx :=
  ⟨genesisStore genesis state, mode, .idle⟩

end

end PruningNode

end EvNode
