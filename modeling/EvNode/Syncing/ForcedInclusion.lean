import EvNode.Executing.Executor

/-!
# Verification of forced inclusion

The forced-inclusion tracking of `block/internal/syncing/syncer.go`. Each block read from DA is
recorded under its DA height. An epoch whose grace window has elapsed is checked once: its forced
transactions are looked up among the recorded ones, and then everything recorded up to the end of
the epoch is forgotten.
-/

namespace EvNode

open Crash Proc

variable {Tx : Type}

def baseGracePeriodEpochs : Nat := 1

def maxGracePeriodEpochs : Nat := 4

/-- `math.Round(fullnessThreshold * DefaultMaxBlobSize)`, four fifths of the blob size. -/
def fullnessThreshold : Nat := 4194304

/-- One lookup in `seenBlockTxs`. -/
structure Lookup (Tx : Type) where
  epochEnd : Nat
  tx : Tx
  seen : Bool
  deriving DecidableEq

/-- The tracking fields of `Syncer`. The two maps by DA height are only read with their zero value
as default, so they are functions. `verified` and `lookups` are histories no function reads: the
blocks recorded, with their DA heights, and the lookups made. -/
structure ForcedInclusion (Tx : Type) where
  seenBlockTxs : Finset Nat
  seenBlockTxsByHeight : Nat → List Nat
  daBlockBytes : Nat → Nat
  lastCheckedEpochEnd : Nat
  verified : List (Nat × List Tx)
  lookups : List (Lookup Tx)

/-- What the DA layer and the executor answer during one verification. -/
structure VerifyEnv (Tx : Type) where
  da : DAAnswers Tx
  executor : ExecutionAnswers Tx

namespace ForcedInclusion

/-- The fields as `NewSyncer` makes them, with the epochs up to `epochEnd` taken as checked. -/
def initial (epochEnd : Nat) : ForcedInclusion Tx :=
  ⟨∅, fun _ => [], fun _ => 0, epochEnd, [], []⟩

/-! ## The grace window -/

def gracePeriodForEpoch (s : ForcedInclusion Tx) (epochStart epochEnd : Nat) : Nat :=
  if epochEnd < epochStart then baseGracePeriodEpochs
  else
    -- heights without a block count with 0 bytes
    let heightCount := epochEnd - epochStart + 1
    let totalBytes := ((List.range' epochStart heightCount).map s.daBlockBytes).sum
    let avgBytes := totalBytes / heightCount
    let extra :=
      if fullnessThreshold < avgBytes then (avgBytes - fullnessThreshold) / fullnessThreshold else 0
    min (baseGracePeriodEpochs + extra) maxGracePeriodEpochs

/-- The last DA height of the grace window of the epoch that ends at `epochEnd`. -/
def graceBoundary (genesis : Genesis) (s : ForcedInclusion Tx) (epochEnd : Nat) : Nat :=
  let epochSize := genesis.daEpochForcedInclusion
  epochEnd + s.gracePeriodForEpoch (epochEnd - (epochSize - 1)) epochEnd * epochSize

/-! ## Recording and pruning -/

/-- Record the transactions and the bytes of a block at its DA height. A second block at the same
height replaces the list and the bytes of the first. -/
def recordBlock [Transaction Tx] (daHeight : Nat) (txs : List Tx) (s : ForcedInclusion Tx) :
    ForcedInclusion Tx :=
  { s with
    seenBlockTxs := s.seenBlockTxs ∪ (txs.map Transaction.hash).toFinset
    seenBlockTxsByHeight :=
      Function.update s.seenBlockTxsByHeight daHeight (txs.map Transaction.hash)
    daBlockBytes := Function.update s.daBlockBytes daHeight (txs.map size).sum
    verified := s.verified ++ [(daHeight, txs)] }

/-- Forget what is recorded at `h`. -/
def pruneHeight (s : ForcedInclusion Tx) (h : Nat) : ForcedInclusion Tx :=
  { s with
    seenBlockTxs := s.seenBlockTxs \ (s.seenBlockTxsByHeight h).toFinset
    seenBlockTxsByHeight := Function.update s.seenBlockTxsByHeight h []
    daBlockBytes := Function.update s.daBlockBytes h 0 }

def pruneUpTo (upTo : Nat) (s : ForcedInclusion Tx) : ForcedInclusion Tx :=
  { (List.range' s.lastCheckedEpochEnd (upTo + 1 - s.lastCheckedEpochEnd)).foldl pruneHeight s with
    lastCheckedEpochEnd := upTo }

/-- The epoch that ends at `epochEnd` has been checked. -/
def epochChecked (epochEnd : Nat) (s : ForcedInclusion Tx) : ForcedInclusion Tx :=
  if s.lastCheckedEpochEnd < epochEnd then s.pruneUpTo epochEnd else s

/-! ## The check -/

/-- The end of the first epoch that is not checked yet. -/
def startEpochEnd (genesis : Genesis) (s : ForcedInclusion Tx) : Nat :=
  let firstEpochEnd := genesis.daStartHeight + genesis.daEpochForcedInclusion - 1
  if s.lastCheckedEpochEnd = 0 ∨ s.lastCheckedEpochEnd < firstEpochEnd then firstEpochEnd
  else s.lastCheckedEpochEnd + genesis.daEpochForcedInclusion

variable [Transaction Tx]

/-- The lookups for one epoch: a transaction whose status is not OK is not looked up. -/
def epochLookups (epochEnd : Nat) (txs : List Tx) (statuses : List FilterStatus)
    (s : ForcedInclusion Tx) : List (Lookup Tx) :=
  ((txs.zip statuses).filter fun x => x.2 = .ok).map fun x =>
    ⟨epochEnd, x.1, decide (Transaction.hash x.1 ∈ s.seenBlockTxs)⟩

/-- One turn of the loop of `VerifyForcedInclusionTxs`: the number of missing transactions. -/
def checkEpoch (retriever : ForcedInclusionRetriever) (env : VerifyEnv Tx)
    (maxGas epochEnd : Nat) : Proc (ForcedInclusion Tx) Err Nat :=
  match retrieveForcedIncludedTxs retriever env.da epochEnd with
  | .error e =>
    if e.is .forceInclusionNotConfigured then throw .forceInclusionNotConfigured
    else throw (.wrap "failed to retrieve forced inclusion txs for epoch" e)
  | .ok event =>
    if event.txs = [] then do
      modify (epochChecked epochEnd)
      pure 0
    else
      match env.executor.filterTxs event.txs defaultMaxBlobSize maxGas true with
      | none => throw (.text "failed to filter forced inclusion txs")
      | some statuses => do
        let s ← get
        let lookups := s.epochLookups epochEnd event.txs statuses
        modify fun s => { s with lookups := s.lookups ++ lookups }
        modify (epochChecked epochEnd)
        pure (lookups.countP fun l => !l.seen)

/-- The loop, from the epoch that ends at `epochEnd`: the number of missing transactions. The
grace boundary of an epoch lies behind its end, so `daHeight - epochEnd` turns are enough. -/
def checkEpochs (genesis : Genesis) (retriever : ForcedInclusionRetriever) (env : VerifyEnv Tx)
    (maxGas daHeight : Nat) : Nat → Nat → Nat → Proc (ForcedInclusion Tx) Err Nat
  | 0, _, maliciousCount => pure maliciousCount
  | fuel + 1, epochEnd, maliciousCount => do
    let s ← get
    if daHeight ≤ s.graceBoundary genesis epochEnd then pure maliciousCount
    else do
      let missing ← checkEpoch retriever env maxGas epochEnd
      checkEpochs genesis retriever env maxGas daHeight fuel
        (epochEnd + genesis.daEpochForcedInclusion) (maliciousCount + missing)

/-- `VerifyForcedInclusionTxs`. `lastDAHeight` is the DA height of the last state. -/
def verifyForcedInclusionTxs (genesis : Genesis) (fiRetriever : Option ForcedInclusionRetriever)
    (env : VerifyEnv Tx) (lastDAHeight daHeight : Nat) (txs : List Tx) :
    Proc (ForcedInclusion Tx) Err Unit :=
  match fiRetriever with
  | none => pure ()
  | some retriever => do
    modify (recordBlock daHeight txs)
    if daHeight < genesis.daStartHeight ∨ daHeight < lastDAHeight then pure ()
    else
      match env.executor.maxGas with
      | none => throw (.text "failed to get execution info")
      | some maxGas => do
        let s ← get
        let epochEnd := s.startEpochEnd genesis
        let r ← attempt
          (checkEpochs genesis retriever env maxGas daHeight (daHeight - epochEnd) epochEnd 0)
        match r with
        | .error e => if e = .forceInclusionNotConfigured then pure () else throw e
        | .ok maliciousCount =>
          if 0 < maliciousCount then
            throw (.join .maliciousProposer (.text ("sequencer is malicious: " ++
              toString maliciousCount ++
              " forced inclusion transaction(s) past grace boundary not included")))
          else pure ()

end ForcedInclusion

end EvNode
