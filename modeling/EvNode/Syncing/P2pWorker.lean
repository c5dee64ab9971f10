import EvNode.Syncing.Syncer

/-!
# The P2P worker

`p2pWorkerLoop` of `syncer.go` and `ProcessHeight` of `p2p_handler.go`, with the stores they read:
`StoreAdapter` of `pkg/store/store_adapter.go` keeps what came from P2P in memory until the block is
committed. The worker is a process of its own. Each of its steps is one read or one send, so that
the process loop and the DA follower can act in between.
-/

namespace EvNode

open Crash Proc

variable {Tx : Type}

/-- `StoreAdapter`: the items received from P2P, and the height that its `heightSub` has reached. -/
structure StoreAdapter (α : Type) where
  items : Nat → Option α
  heightSub : Nat

/-- How `GetByHeight` ends, if it does. -/
inductive Got (α : Type) where
  | found (item : α)
  | notFound
  | waits
  deriving DecidableEq

namespace StoreAdapter

variable {α : Type}

/-- `NewStoreAdapter`. -/
def newStoreAdapter (storeHeight : Nat) : StoreAdapter α := ⟨fun _ => none, storeHeight⟩

/-- `Append` of one item. An item of a height that is in the store is left out. A later item of the
same height replaces the earlier one. -/
def append (hasAt : Bool) (height : Nat) (item : α) (a : StoreAdapter α) : StoreAdapter α :=
  if hasAt then a
  else
    { items := Function.update a.items height (some item)
      heightSub := max a.heightSub height }

/-- `GetByHeight`, where `stored` is what the store has. It waits for a height that was not reached
yet. -/
def getByHeight (stored : Option α) (height : Nat) (a : StoreAdapter α) : Got α :=
  match stored.or (a.items height) with
  | some item => .found item
  | none => if height ≤ a.heightSub then .notFound else .waits

end StoreAdapter

/-- Where the P2P worker is. -/
inductive P2PWorker where
  /-- At the top of its loop. -/
  | top
  /-- It has computed its target height. -/
  | target (height : Nat)
  /-- In `GetByHeight` of the header store. -/
  | header (height : Nat)
  /-- It has the header, and is in `GetByHeight` of the data store. -/
  | data (height : Nat) (header : SignedHeader)
  /-- In `waitForStoreHeight`. -/
  | commit (height : Nat)

/-- A syncer with its P2P worker. -/
structure P2PSyncer (Tx : Type) where
  syncer : Syncer Tx
  headerStore : StoreAdapter SignedHeader
  dataStore : StoreAdapter (Data Tx)
  worker : P2PWorker

namespace P2PSyncer

/-- A syncer that has started, before its worker runs. -/
def started (s : Syncer Tx) : P2PSyncer Tx :=
  ⟨s, .newStoreAdapter s.store.height, .newStoreAdapter s.store.height, .top⟩

def getHeader (height : Nat) (n : P2PSyncer Tx) : Got SignedHeader :=
  n.headerStore.getByHeight ((n.syncer.store.getBlockData height).map (·.1)) height

def getData (height : Nat) (n : P2PSyncer Tx) : Got (Data Tx) :=
  n.dataStore.getByHeight ((n.syncer.store.getBlockData height).map (·.2)) height

/-- `ProcessHeight` sends the event and marks the height as processed. -/
def handOver (height : Nat) (header : SignedHeader) (data : Data Tx) (s : Syncer Tx) : Syncer Tx :=
  let s := Syncer.sendOrPend ⟨header, data, 0, .p2p⟩ s
  { s with processedHeight := max s.processedHeight height }

/-- One step of the worker. An error sends it back to the top of its loop. -/
def workerStep (cfg : SyncerConfig Tx) (n : P2PSyncer Tx) : P2PSyncer Tx :=
  match n.worker with
  | .top => { n with worker := .target (n.syncer.store.height + 1) }
  | .target height =>
    { n with worker := if height ≤ n.syncer.processedHeight then .commit height else .header height }
  | .header height =>
    match n.getHeader height with
    | .waits => n
    | .notFound => { n with worker := .top }
    | .found header =>
      { n with worker := if header.header.height ≠ height then .top else .data height header }
  | .data height header =>
    match n.getData height with
    | .waits => n
    | .notFound => { n with worker := .top }
    | .found data =>
      if data.height ≠ height ∨ header.header.dataHash ≠ cfg.hashes.daCommitment data.txs then
        { n with worker := .top }
      else { n with syncer := handOver height header data n.syncer, worker := .commit height }
  | .commit height => if height ≤ n.syncer.store.height then { n with worker := .top } else n

/-- `cancelP2PWait`: a read that is cancelled. -/
def cancelP2PWait (n : P2PSyncer Tx) : P2PSyncer Tx :=
  match n.worker with
  | .header _ => { n with worker := .top }
  | .data _ _ => { n with worker := .top }
  | _ => n

/-- The processes that share the channel and the pending map, and what arrives from outside. -/
inductive Op (Tx : Type) where
  | pipeEvent (done : Bool) (event : DAHeightEvent Tx)
  | appendHeader (header : SignedHeader)
  | appendData (data : Data Tx)
  | worker
  | cancelP2PWait
  | processPendingEvents
  | processNext (env : SyncEnv Tx)

def step [Transaction Tx] (cfg : SyncerConfig Tx) (n : P2PSyncer Tx) : Op Tx → P2PSyncer Tx
  | .pipeEvent done event => { n with syncer := n.syncer.pipeEvent cfg done event }
  | .appendHeader header =>
    let hasAt := (n.syncer.store.getBlockData header.header.height).isSome
    { n with headerStore := n.headerStore.append hasAt header.header.height header }
  | .appendData data =>
    let hasAt := (n.syncer.store.getBlockData data.height).isSome
    { n with dataStore := n.dataStore.append hasAt data.height data }
  | .worker => n.workerStep cfg
  | .cancelP2PWait => n.cancelP2PWait
  | .processPendingEvents => { n with syncer := n.syncer.processPendingEvents }
  | .processNext env => { n with syncer := (Syncer.processNext cfg env n.syncer).2 }

/-- The worker waits: for a height of the stores, or for the commit of its target. -/
def Waits (n : P2PSyncer Tx) : P2PWorker → Prop
  | .header height => n.getHeader height = .waits
  | .data height _ => n.getData height = .waits
  | .commit height => n.syncer.store.height < height
  | _ => False

instance [DecidableEq Tx] (n : P2PSyncer Tx) (worker : P2PWorker) : Decidable (n.Waits worker) :=
  match worker with
  | .header height => inferInstanceAs (Decidable (n.getHeader height = .waits))
  | .data height _ => inferInstanceAs (Decidable (n.getData height = .waits))
  | .commit height => inferInstanceAs (Decidable (n.syncer.store.height < height))
  | .top => .isFalse id
  | .target _ => .isFalse id

/-- Nothing is left to do until something arrives. -/
structure Quiescent (n : P2PSyncer Tx) : Prop where
  channel : n.syncer.heightInCh = []
  pending : n.syncer.cache.pendingEvents.get? (n.syncer.store.height + 1) = none
  worker : n.Waits n.worker

instance [DecidableEq Tx] (n : P2PSyncer Tx) : Decidable n.Quiescent :=
  decidable_of_iff (n.syncer.heightInCh.length = 0 ∧
      (n.syncer.cache.pendingEvents.get? (n.syncer.store.height + 1)).isNone = true ∧
      n.Waits n.worker)
    ⟨fun h => ⟨List.eq_nil_of_length_eq_zero h.1, Option.isNone_iff_eq_none.mp h.2.1, h.2.2⟩,
      fun h => ⟨by rw [h.channel]; rfl, Option.isNone_iff_eq_none.mpr h.pending, h.worker⟩⟩

/-- The worker hands over what `ProcessHeight` does in one piece. -/
theorem handOver_eq_processHeight {cfg : SyncerConfig Tx} {height : Nat} {header : SignedHeader}
    {data : Data Tx} {s : Syncer Tx} (hnew : s.processedHeight < height)
    (hheader : header.header.height = height) (hdata : data.height = height)
    (hhash : header.header.dataHash = cfg.hashes.daCommitment data.txs) :
    handOver height header data s = s.processHeight cfg height header data := by
  unfold Syncer.processHeight handOver
  rw [if_neg (by omega), if_neg (by simp [hheader, hdata, hhash])]

end P2PSyncer

end EvNode
