import EvNode.Da.Retriever
import EvNode.Lib.Crash

/-!
# What the sequencers share

The DA checkpoint of `pkg/sequencers/common/checkpoint.go`, the requests and answers of
`core/sequencer`, the executor's side of a call, and the selection of transactions by their
filter status.
-/

namespace EvNode

open Crash

variable {Tx : Type}

/-- `Checkpoint`. `passed` is a history no function reads: the forced transactions behind the
checkpoint, each with its status. -/
structure Checkpoint (Tx : Type) where
  daHeight : Nat
  txIndex : Nat
  passed : List (Tx × FilterStatus)
  deriving DecidableEq

/-- The executor during one call: `GetExecutionInfo`, with `none` for an error, and `FilterTxs`,
which answers with one status for each transaction or with an error. -/
structure ExecutionAnswers (Tx : Type) where
  maxGas : Option Nat
  filterTxs : List Tx → Nat → Nat → Bool → Option (List FilterStatus)
  filterTxs_length : ∀ {txs maxBytes gas force statuses},
    filterTxs txs maxBytes gas force = some statuses → statuses.length = txs.length

/-- An executor without a gas limit that finds every transaction valid. -/
def ExecutionAnswers.acceptAll : ExecutionAnswers Tx where
  maxGas := none
  filterTxs txs _ _ _ := some (txs.map fun _ => .ok)
  filterTxs_length := by
    intro txs maxBytes gas force statuses h
    rw [← Option.some.inj h, List.length_map]

/-- An executor without a gas limit whose blocks have room for `n` transactions. -/
def ExecutionAnswers.acceptFirst (n : Nat) : ExecutionAnswers Tx where
  maxGas := none
  filterTxs txs _ _ _ :=
    some (List.replicate (min n txs.length) .ok ++ List.replicate (txs.length - n) .postpone)
  filterTxs_length := by
    intro txs maxBytes gas force statuses h
    rw [← Option.some.inj h, List.length_append, List.length_replicate, List.length_replicate]
    omega

/-- The environment of one `GetNextBatch`: the DA layer, the executor, the clock, and the
outcomes of the two datastore writes. -/
structure BatchEnv (Tx : Type) where
  da : DAAnswers Tx
  latestDAHeight : Option Nat
  executor : ExecutionAnswers Tx
  now : Time
  rollbackDelete : Outcome
  save : Outcome

/-- What the sequencers read of the block store. -/
structure ChainView (Tx : Type) where
  height : Nat
  blockTxs : Option (List Tx)
  lastBlockTime : Option Time
  daHeight : Option Nat
  genesisDAHeight : Option Nat

structure GetNextBatchRequest where
  id : String
  maxBytes : Nat

structure GetNextBatchResponse (Tx : Type) where
  batch : List Tx
  timestamp : Time
  deriving DecidableEq

/-- The filter statuses, all OK when the executor returns an error. -/
def filterStatuses (executor : ExecutionAnswers Tx) (txs : List Tx) (maxBytes : Nat)
    (force : Bool) : List FilterStatus :=
  (executor.filterTxs txs maxBytes (executor.maxGas.getD 0) force).getD
    (List.replicate txs.length .ok)

/-- What `fetchNextDAEpoch` keeps of an event: the blobs that fit into a block. -/
def sizeFiltered [Transaction Tx] (maxBytes : Nat) (txs : List Tx) : List Tx :=
  txs.filter fun tx => size tx ≤ maxBytes

/-- The later of two times, as `if t.After(floor) { floor = t }` computes it. -/
def laterOf (t floor : Time) : Time := if floor < t then t else floor

/-- `daEndTime - totalEpochTxs * 1ms + txIndex * 1ms`. -/
def epochTimestamp (daEndTime : Time) (totalEpochTxs txIndex : Nat) : Time :=
  daEndTime - totalEpochTxs * millisecond + txIndex * millisecond

/-! ## Selection by status -/

/-- The accumulators of the loop over the statuses. `consumed` lists the forced transactions that
`forcedTxConsumedCount` counts. -/
structure Selection (Tx : Type) where
  validForcedTxs : List Tx
  validMempoolTxs : List Tx
  postponedMempoolTxs : List Tx
  consumed : List (Tx × FilterStatus)
  forcedTxPostponed : Bool

namespace Selection

def empty : Selection Tx := ⟨[], [], [], [], false⟩

/-- A forced transaction: after the first postponed one nothing is taken any more. -/
def addForced (sel : Selection Tx) (tx : Tx) (status : FilterStatus) : Selection Tx :=
  if sel.forcedTxPostponed then sel
  else match status with
    | .ok => { sel with
        validForcedTxs := sel.validForcedTxs ++ [tx]
        consumed := sel.consumed ++ [(tx, .ok)] }
    | .remove => { sel with consumed := sel.consumed ++ [(tx, .remove)] }
    | .postpone => { sel with forcedTxPostponed := true }

/-- A mempool transaction: removed ones are dropped for good. -/
def addMempool (sel : Selection Tx) (tx : Tx) (status : FilterStatus) : Selection Tx :=
  match status with
  | .ok => { sel with validMempoolTxs := sel.validMempoolTxs ++ [tx] }
  | .remove => sel
  | .postpone => { sel with postponedMempoolTxs := sel.postponedMempoolTxs ++ [tx] }

/-- One turn of the loop, at index `i`. -/
def add (forcedTxCount : Nat) (sel : Selection Tx) (x : (Tx × FilterStatus) × Nat) :
    Selection Tx :=
  if x.2 < forcedTxCount then sel.addForced x.1.1 x.1.2 else sel.addMempool x.1.1 x.1.2

end Selection

/-- The whole loop. -/
def selectTxs (forcedTxCount : Nat) (allTxs : List Tx) (statuses : List FilterStatus) :
    Selection Tx :=
  (allTxs.zip statuses).zipIdx.foldl (Selection.add forcedTxCount) .empty

end EvNode
