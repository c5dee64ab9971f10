import EvNode.Lib.Crash
import EvNode.Lib.HeadSlice
import EvNode.Lib.OrdMap
import EvNode.Types.Basic

/-!
# The mempool queue and its write-ahead log

`pkg/sequencers/single/queue.go`. A WAL key is the sequence number that `seqToKey` encodes: the
encoding is big-endian, so the order of the keys is the order of the numbers. Keys of any other
form are legacy ones, which `load` migrates.

Each datastore operation has an `Outcome` that the environment chooses.
-/

namespace EvNode

open Crash Proc

variable {Tx : Type}

/-- The `batches` part of the datastore. `accepted` is a history no function reads: the
transactions `addBatch` has written, in order. -/
structure Wal (Tx : Type) where
  entries : OrdMap Nat (List Tx)
  legacy : List (String × List Tx)
  accepted : List Tx

structure QueuedItem (Tx : Type) where
  batch : List Tx
  key : Nat
  deriving DecidableEq

/-- `BatchQueue`. The slice `queue` and its index `head` are one `HeadSlice`. -/
structure BatchQueue (Tx : Type) where
  queue : HeadSlice (QueuedItem Tx)
  maxQueueSize : Int
  inFlight : List (QueuedItem Tx)
  inFlightPostponed : List Tx
  postponedItem : Option (QueuedItem Tx)
  txSeen : Finset Nat
  nextAddSeq : Nat
  nextPrependSeq : Nat
  db : Wal Tx

def initialSeqNum : Nat := 0x8000000000000000

def newBatchQueue (db : Wal Tx) (maxSize : Int) : BatchQueue Tx where
  queue := .empty
  maxQueueSize := maxSize
  inFlight := []
  inFlightPostponed := []
  postponedItem := none
  txSeen := ∅
  nextAddSeq := initialSeqNum
  nextPrependSeq := initialSeqNum - 1
  db := db

namespace BatchQueue

variable [Transaction Tx]

/-! ## Datastore operations -/

def persistBatch (put : Outcome) (batch : List Tx) (key : Nat) : Proc (BatchQueue Tx) Err Unit :=
  io put (.text "datastore put") fun bq =>
    { bq with db := { bq.db with entries := bq.db.entries.put key batch } }

def deleteEntry (delete : Outcome) (key : Nat) : Proc (BatchQueue Tx) Err Unit :=
  io delete (.text "datastore delete") fun bq =>
    { bq with db := { bq.db with entries := bq.db.entries.delete key } }

/-! ## Adding -/

/-- The transactions not seen before, and the hashes seen with them. -/
def dedup (seen : Finset Nat) : List Tx → List Tx × Finset Nat
  | [] => ([], seen)
  | tx :: rest =>
    if Transaction.hash tx ∈ seen then dedup seen rest
    else
      let r := dedup (insert (Transaction.hash tx) seen) rest
      (tx :: r.1, r.2)

def rollbackSeenLocked (txs : List Tx) (bq : BatchQueue Tx) : BatchQueue Tx :=
  { bq with txSeen := txs.foldl (fun seen tx => seen.erase (Transaction.hash tx)) bq.txSeen }

/-- `Size`: queued entries and entries drained but not acked. -/
def size (bq : BatchQueue Tx) : Nat := bq.queue.length + bq.inFlight.length

def addBatch (put : Outcome) (batch : List Tx) : Proc (BatchQueue Tx) Err Unit := do
  let bq ← get
  let unique := (dedup bq.txSeen batch).1
  modify fun bq => { bq with txSeen := (dedup bq.txSeen batch).2 }
  if unique = [] then pure ()
  else do
    let full : Bool := 0 < bq.maxQueueSize ∧ bq.maxQueueSize ≤ bq.size
    let added ← attempt (do
      require (!full) .queueFull
      mapError (.wrap "failed to persist batch to WAL") (persistBatch put unique bq.nextAddSeq)
      modify fun bq => { bq with
        nextAddSeq := (bq.nextAddSeq + 1) % 2 ^ 64
        queue := bq.queue.push ⟨unique, bq.nextAddSeq⟩
        db := { bq.db with accepted := bq.db.accepted ++ unique } })
    match added with
    | .ok () => pure ()
    | .error e => do
      modify (rollbackSeenLocked unique)
      throw e

/-! ## Draining -/

/-- `rollbackInFlightLocked`. The delete of a persisted postponed entry is best-effort. -/
def rollbackInFlightLocked (delete : Outcome) : Proc (BatchQueue Tx) Err Unit := do
  let bq ← get
  if bq.inFlight = [] then pure ()
  else do
    match bq.postponedItem with
    | none => pure ()
    | some item => do
      let _ ← attempt (deleteEntry delete item.key)
    modify fun bq => { bq with
      postponedItem := none
      inFlightPostponed := []
      queue := bq.queue.prependAll bq.inFlight
      inFlight := [] }

/-- The loop of `Drain` over the waiting entries: all transactions taken, and the entries they
come from. -/
def drainLoop (maxBytes totalBytes : Nat) (allTxs : List Tx) :
    List (QueuedItem Tx) → List Tx × List (QueuedItem Tx)
  | [] => (allTxs, [])
  | item :: rest =>
    let entryBytes := (item.batch.map Transaction.size).sum
    if 0 < maxBytes ∧ maxBytes < totalBytes + entryBytes ∧ allTxs ≠ [] then (allTxs, [])
    else
      let r := drainLoop maxBytes (totalBytes + entryBytes) (allTxs ++ item.batch) rest
      (r.1, item :: r.2)

def drain (delete : Outcome) (maxBytes : Nat) : Proc (BatchQueue Tx) Err (List Tx) := do
  rollbackInFlightLocked delete
  let bq ← get
  let r := drainLoop maxBytes 0 [] bq.queue.toList
  modify fun bq => { bq with
    inFlight := bq.inFlight ++ r.2
    queue := (bq.queue.advance ⟨[], 0⟩ r.2.length).compact }
  pure r.1

def setPostponed (txs : List Tx) (bq : BatchQueue Tx) : BatchQueue Tx :=
  match bq.postponedItem with
  | some _ => bq
  | none => { bq with inFlightPostponed := txs }

/-! ## Acknowledging -/

/-- The first part of `Ack`: write the postponed transactions before their sources are deleted. -/
def persistPostponed (put : Outcome) : Proc (BatchQueue Tx) Err Unit := do
  let bq ← get
  if bq.inFlightPostponed ≠ [] ∧ bq.postponedItem.isNone then do
    mapError (.wrap "failed to persist postponed txs")
      (persistBatch put bq.inFlightPostponed bq.nextPrependSeq)
    modify fun bq => { bq with
      nextPrependSeq := (bq.nextPrependSeq + (2 ^ 64 - 1)) % 2 ^ 64
      postponedItem := some ⟨bq.inFlightPostponed, bq.nextPrependSeq⟩ }
  else pure ()

/-- The second part of `Ack`: delete the entries in flight in one datastore batch. -/
def deleteInFlight (commit : Outcome) : Proc (BatchQueue Tx) Err Unit := do
  let bq ← get
  if bq.inFlight = [] then pure ()
  else
    io commit (.wrap "failed to commit WAL deletes" (.text "datastore commit")) fun bq =>
      { bq with db := { bq.db with
          entries := bq.inFlight.foldl (fun m item => m.delete item.key) bq.db.entries } }

/-- The last part of `Ack`, in memory only. -/
def finishAck (bq : BatchQueue Tx) : BatchQueue Tx :=
  let postponed := bq.inFlightPostponed.map Transaction.hash
  let committed := (bq.inFlight.flatMap QueuedItem.batch).filter fun tx =>
    Transaction.hash tx ∉ postponed
  { rollbackSeenLocked committed bq with
    queue := match bq.postponedItem with
      | some item => bq.queue.prepend item
      | none => bq.queue
    inFlight := []
    inFlightPostponed := []
    postponedItem := none }

def ack (put commit : Outcome) : Proc (BatchQueue Tx) Err Unit := do
  persistPostponed put
  deleteInFlight commit
  modify finishAck

/-! ## Loading -/

/-- `dedupAndEnqueueLocked`. A cleanup write that fails is only logged. -/
def dedupAndEnqueueLocked (cleanup : Outcome) (batch : List Tx) (key : Nat) :
    Proc (BatchQueue Tx) Err Unit := do
  let bq ← get
  let filtered := (dedup bq.txSeen batch).1
  modify fun bq => { bq with txSeen := (dedup bq.txSeen batch).2 }
  if filtered = [] then do
    let _ ← attempt (deleteEntry cleanup key)
  else do
    let _ ← attempt (
      if filtered.length < batch.length then persistBatch cleanup filtered key else pure ())
    modify fun bq => { bq with queue := bq.queue.push ⟨filtered, key⟩ }

/-- Keep the next sequence numbers outside the keys that are in use. -/
def noteSeq (seq : Nat) (bq : BatchQueue Tx) : BatchQueue Tx :=
  { bq with
    nextAddSeq := if bq.nextAddSeq ≤ seq then (seq + 1) % 2 ^ 64 else bq.nextAddSeq
    nextPrependSeq :=
      if seq ≤ bq.nextPrependSeq then (seq + (2 ^ 64 - 1)) % 2 ^ 64 else bq.nextPrependSeq }

def loadEntries (cleanup : Nat → Outcome) : List (Nat × List Tx) → Proc (BatchQueue Tx) Err Unit
  | [] => pure ()
  | (seq, batch) :: rest => do
    modify (noteSeq seq)
    dedupAndEnqueueLocked (cleanup seq) batch seq
    loadEntries cleanup rest

/-- The outcomes of the datastore operations of one `Load`, by the key they are about. -/
structure LoadEnv where
  query : Outcome
  cleanup : Nat → Outcome
  migratePut : String → Outcome
  migrateDelete : String → Outcome

def migrateLegacy (env : LoadEnv) : List (String × List Tx) → Proc (BatchQueue Tx) Err Unit
  | [] => pure ()
  | (key, batch) :: rest => do
    let bq ← get
    let newKey := bq.nextAddSeq
    let migrated ← attempt (persistBatch (env.migratePut key) batch newKey)
    match migrated with
    | .error _ => pure ()
    | .ok () => do
      let _ ← attempt (io (env.migrateDelete key) (.text "datastore delete")
        fun (bq : BatchQueue Tx) => { bq with db := { bq.db with
          legacy := bq.db.legacy.filter fun item => item.1 ≠ key } })
      dedupAndEnqueueLocked (env.cleanup newKey) batch newKey
      modify fun bq => { bq with nextAddSeq := (bq.nextAddSeq + 1) % 2 ^ 64 }
    migrateLegacy env rest

def load (env : LoadEnv) : Proc (BatchQueue Tx) Err Unit := do
  modify fun bq => newBatchQueue bq.db bq.maxQueueSize
  io env.query (.wrap "error querying datastore" (.text "datastore query")) id
  let bq ← get
  loadEntries env.cleanup bq.db.entries.entries
  migrateLegacy env bq.db.legacy

/-! ## Dropping what the last block included -/

def dropLoop (write : Nat → Outcome) (included : Finset Nat) :
    List (QueuedItem Tx) → Proc (BatchQueue Tx) Err (List (QueuedItem Tx))
  | [] => pure []
  | item :: rest => do
    let remaining := item.batch.filter fun tx => Transaction.hash tx ∉ included
    modify (rollbackSeenLocked (item.batch.filter fun tx => Transaction.hash tx ∈ included))
    let here ←
      if remaining.length = item.batch.length then pure [item]
      else if remaining = [] then do
        mapError (.wrap "failed to delete included WAL entry") (deleteEntry (write item.key) item.key)
        pure []
      else do
        mapError (.wrap "failed to rewrite WAL entry")
          (persistBatch (write item.key) remaining item.key)
        pure [{ item with batch := remaining }]
    let kept ← dropLoop write included rest
    pure (here ++ kept)

def dropIncluded (write : Nat → Outcome) (included : List Tx) : Proc (BatchQueue Tx) Err Unit := do
  let bq ← get
  let kept ← dropLoop write (included.map Transaction.hash).toFinset bq.queue.toList
  modify fun bq => { bq with queue := bq.queue.replace kept }

end BatchQueue

end EvNode
