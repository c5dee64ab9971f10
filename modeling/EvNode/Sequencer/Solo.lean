import EvNode.Types.Basic

/-!
# The solo sequencer

`pkg/sequencers/solo/sequencer.go`: an in-memory queue of transactions without forced inclusion.
`GetNextBatch` has two critical sections. The first takes the whole queue, the second puts back
what the filter postponed; in between other calls run. The limits given to the filter are
part of its answer.
-/

namespace EvNode

variable {Tx : Type} [Transaction Tx]

structure SoloSequencer (Tx : Type) where
  id : String
  queue : List Tx
  queueBytes : Nat
  maxQueueBytes : Nat

/-- `FilterTxs`, which gives each transaction a status or fails. -/
structure TxFilter (Tx : Type) where
  run : List Tx → Option (List FilterStatus)
  one_each : ∀ txs statuses, run txs = some statuses → statuses.length = txs.length

def totalSize (txs : List Tx) : Nat := (txs.map Transaction.size).sum

namespace SoloSequencer

/-- `SubmitBatchTxs`. An error leaves the sequencer as it is. -/
def submitBatchTxs (id : String) (batch : List Tx) (s : SoloSequencer Tx) :
    Except Err (SoloSequencer Tx) :=
  if s.id ≠ id then .error .invalidId
  else if batch = [] then .ok s
  else if s.maxQueueBytes = 0 then .ok { s with queue := s.queue ++ batch }
  else if s.maxQueueBytes < s.queueBytes + totalSize batch then .error .queueFull
  else .ok { s with queue := s.queue ++ batch, queueBytes := s.queueBytes + totalSize batch }

/-- The first critical section of `GetNextBatch`. -/
def takeQueue (s : SoloSequencer Tx) : SoloSequencer Tx := { s with queue := [], queueBytes := 0 }

/-- The loop over the statuses. It moves the transactions of the batch to the front of the slice
that it reads. -/
def compactLoop : List FilterStatus → Nat → Nat → List Tx → List Tx → List Tx × List Tx
  | [], _, write, txs, postponed => (txs.take write, postponed)
  | status :: rest, i, write, txs, postponed =>
    match status with
    | .ok => compactLoop rest (i + 1) (write + 1)
        ((txs[i]?).elim txs fun tx => txs.set write tx) postponed
    | .postpone => compactLoop rest (i + 1) write txs (postponed ++ (txs[i]?).toList)
    | .remove => compactLoop rest (i + 1) write txs postponed

/-- The second critical section. -/
def requeue (postponed : List Tx) (s : SoloSequencer Tx) : SoloSequencer Tx :=
  if postponed = [] then s
  else { s with queue := postponed ++ s.queue, queueBytes := s.queueBytes + totalSize postponed }

/-- The transactions with a status. -/
def withStatus (status : FilterStatus) (txs : List Tx) (statuses : List FilterStatus) : List Tx :=
  ((txs.zip statuses).filter fun x => x.2 = status).map Prod.fst

end SoloSequencer

/-- The sequencer with the calls of `GetNextBatch` in progress, each with what it took. The last
three are histories: what was returned, removed by the filter, and admitted. -/
structure SoloSystem (Tx : Type) where
  seq : SoloSequencer Tx
  calls : List (List Tx)
  returned : List (List Tx)
  removed : List Tx
  admitted : List Tx

namespace SoloSystem

open SoloSequencer hiding id

inductive Op (Tx : Type) where
  | submit (id : String) (batch : List Tx)
  | take (id : String)
  /-- The call at place `i` of those in progress gets the answer of the filter and returns. -/
  | finish (i : Nat) (filter : TxFilter Tx)

def step (r : SoloSystem Tx) : Op Tx → SoloSystem Tx
  | .submit id batch =>
    match r.seq.submitBatchTxs id batch with
    | .ok seq => { r with seq := seq, admitted := r.admitted ++ batch }
    | .error _ => r
  | .take id =>
    if r.seq.id ≠ id then r
    else if r.seq.queue = [] then { r with seq := r.seq.takeQueue, returned := r.returned ++ [[]] }
    else { r with seq := r.seq.takeQueue, calls := r.calls ++ [r.seq.queue] }
  | .finish i filter =>
    match r.calls[i]? with
    | none => r
    | some txs =>
      match filter.run txs with
      -- a failed filter lets everything through
      | none => { r with calls := r.calls.eraseIdx i, returned := r.returned ++ [txs] }
      | some statuses =>
        let (batch, postponed) := compactLoop statuses 0 0 txs []
        { r with
          seq := r.seq.requeue postponed
          calls := r.calls.eraseIdx i
          returned := r.returned ++ [batch]
          removed := r.removed ++ withStatus .remove txs statuses }

def start (id : String) (maxQueueBytes : Nat) : SoloSystem Tx :=
  ⟨⟨id, [], 0, maxQueueBytes⟩, [], [], [], []⟩

end SoloSystem

end EvNode
