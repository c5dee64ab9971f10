import EvNode.Store.DefaultStore

/-!
# The cached store

`pkg/store/cached_store.go`: two caches of blocks in front of a store, and a queue of metadata writes
behind it.

A cache may drop any entry at any time, which covers every size. The write loop takes operations
from the channel into a window and flushes the window as one batch; when it does which is up to the
timer. `Close` has two parts with the end of the loop in between: it marks the store as stopped, and
once the loop has written everything it closes the store below, after which every call fails. The
capacity of the channel is left out: a call that waits for room is issued when it gets it.
-/

namespace EvNode

open KeyValue

variable {Tx : Type}

/-- `asyncWriteOp`: a put, or a delete when there is no value. -/
abbrev AsyncWriteOp := Write Bytes MetaValue

/-- `CachedStore`. -/
structure CachedStore (Tx : Type) where
  store : DefaultStore Tx
  headerCache : Nat → Option SignedHeader
  blockDataCache : Nat → Option (SignedHeader × Data Tx)
  writeCh : List AsyncWriteOp
  /-- What the write loop has taken from the channel and not flushed yet. -/
  window : List AsyncWriteOp
  stopped : Bool
  closed : Bool

namespace CachedStore

/-- `NewCachedStore`. -/
def newCachedStore (store : DefaultStore Tx) : CachedStore Tx where
  store := store
  headerCache := fun _ => none
  blockDataCache := fun _ => none
  writeCh := []
  window := []
  stopped := false
  closed := false

/-! ## Reads -/

def getHeader (height : Nat) (cs : CachedStore Tx) : Option SignedHeader × CachedStore Tx :=
  match cs.headerCache height with
  | some header => (some header, cs)
  | none =>
    match cs.store.getHeader height with
    | none => (none, cs)
    | some header =>
      (some header, { cs with headerCache := Function.update cs.headerCache height (some header) })

def getBlockData (height : Nat) (cs : CachedStore Tx) :
    Option (SignedHeader × Data Tx) × CachedStore Tx :=
  match cs.blockDataCache height with
  | some entry => (some entry, cs)
  | none =>
    match cs.store.getBlockData height with
    | none => (none, cs)
    | some (header, data) =>
      (some (header, data), { cs with
        blockDataCache := Function.update cs.blockDataCache height (some (header, data))
        headerCache := Function.update cs.headerCache height (some header) })

/-- `GetMetadata`, which the cached store inherits. -/
def getMetadata (cs : CachedStore Tx) (key : Bytes) : Option MetaValue := cs.store.getMetadata key

/-! ## Invalidation -/

def invalidateRange (fromHeight toHeight : Nat) (cs : CachedStore Tx) : CachedStore Tx :=
  { cs with
    headerCache := fun h => if fromHeight ≤ h ∧ h ≤ toHeight then none else cs.headerCache h
    blockDataCache := fun h => if fromHeight ≤ h ∧ h ≤ toHeight then none else cs.blockDataCache h }

def clearCache (cs : CachedStore Tx) : CachedStore Tx :=
  { cs with headerCache := fun _ => none, blockDataCache := fun _ => none }

section
variable (blobHash : SignedHeader → Bytes)

/-- `Commit` of a batch from `NewBatch`, which the cached store inherits. -/
def commit (batch : List (BatchOp Tx)) (cs : CachedStore Tx) : CachedStore Tx :=
  { cs with store := cs.store.commit blobHash batch }

def rollback (height : Nat) (aggregator : Bool) (cs : CachedStore Tx) :
    Except Err (CachedStore Tx) := do
  let store ← cs.store.rollback blobHash height aggregator
  pure (invalidateRange (height + 1) cs.store.height { cs with store := store })

def pruneBlocks (height : Nat) (cs : CachedStore Tx) : CachedStore Tx :=
  invalidateRange 1 height { cs with store := cs.store.pruneBlocks blobHash height }

/-! ## Metadata writes -/

def setMetadata (key : Bytes) (value : MetaValue) (cs : CachedStore Tx) : CachedStore Tx :=
  if cs.stopped then { cs with store := cs.store.setMetadata blobHash key value }
  else { cs with writeCh := cs.writeCh ++ [⟨key, some value⟩] }

def deleteMetadata (key : Bytes) (cs : CachedStore Tx) : CachedStore Tx :=
  if cs.stopped then { cs with store := cs.store.deleteMetadata blobHash key }
  else { cs with writeCh := cs.writeCh ++ [⟨key, none⟩] }

/-- The write loop takes the next operation. -/
def receive (cs : CachedStore Tx) : CachedStore Tx :=
  match cs.writeCh with
  | [] => cs
  | op :: rest => { cs with window := cs.window ++ [op], writeCh := rest }

/-- The batch of `BatchMetadata`: the puts, then the deletes. -/
def metadataBatch (ops : List AsyncWriteOp) : List (BatchOp Tx) :=
  let puts := ops.filterMap fun o => o.value.map (BatchOp.putMeta o.key)
  let deletes := (ops.filter fun o => o.value.isNone).map fun o => BatchOp.deleteMeta o.key
  puts ++ deletes

/-- The window ends. `range` is the order in which Go ranges over the last operation of each key. -/
def flush (range : List AsyncWriteOp → List AsyncWriteOp) (cs : CachedStore Tx) :
    CachedStore Tx :=
  { cs with
    store := cs.store.commit blobHash (metadataBatch (range (coalesce cs.window)))
    window := [] }

/-! ## Close -/

/-- `Close` up to the wait for the write loop. -/
def stop (cs : CachedStore Tx) : CachedStore Tx := { cs with stopped := true }

/-- `Close` from there: the write loop ends when nothing is left to write. -/
def close (cs : CachedStore Tx) : CachedStore Tx :=
  if cs.stopped ∧ cs.writeCh = [] ∧ cs.window = [] then { cs.clearCache with closed := true } else cs

/-! ## Operations -/

/-- What can happen to a cached store. -/
inductive Op (Tx : Type) where
  | commit (batch : List (BatchOp Tx))
  | getHeader (height : Nat)
  | getBlockData (height : Nat)
  | evictHeader (height : Nat)
  | evictBlockData (height : Nat)
  | rollback (height : Nat) (aggregator : Bool)
  | pruneBlocks (height : Nat)
  | setMetadata (key : Bytes) (value : MetaValue)
  | deleteMetadata (key : Bytes)
  | receive
  | flush (range : List AsyncWriteOp → List AsyncWriteOp) (range_perm : ∀ l, (range l).Perm l)
  | stop
  | close

def step (cs : CachedStore Tx) (op : Op Tx) : CachedStore Tx :=
  if cs.closed then cs
  else
    match op with
    | .commit batch => cs.commit blobHash batch
    | .getHeader height => (cs.getHeader height).2
    | .getBlockData height => (cs.getBlockData height).2
    | .evictHeader height => { cs with headerCache := Function.update cs.headerCache height none }
    | .evictBlockData height =>
      { cs with blockDataCache := Function.update cs.blockDataCache height none }
    | .rollback height aggregator =>
      match cs.rollback blobHash height aggregator with
      | .ok cs' => cs'
      | .error _ => cs
    | .pruneBlocks height => cs.pruneBlocks blobHash height
    | .setMetadata key value => cs.setMetadata blobHash key value
    | .deleteMetadata key => cs.deleteMetadata blobHash key
    | .receive => cs.receive
    | .flush range _ => cs.flush blobHash range
    | .stop => cs.stop
    | .close => cs.close

end

end CachedStore

end EvNode
