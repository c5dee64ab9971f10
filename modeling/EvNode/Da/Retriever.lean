import EvNode.Types.Basic
import EvNode.Types.Epoch

/-!
# The forced-inclusion retriever

`block/internal/da/forced_inclusion_retriever.go`. One call reads every height of an epoch, from
the prefetch cache where it has the height and from the DA client otherwise.
-/

namespace EvNode

/-- `datypes.StatusCode`. -/
inductive StatusCode where
  | unknown
  | success
  | notFound
  | notIncludedInBlock
  | alreadyInMempool
  | tooBig
  | contextDeadline
  | error
  | incorrectAccountSequence
  | contextCanceled
  | heightFromFuture
  deriving DecidableEq, Repr

/-- `datypes.ResultRetrieve`, the fields the retriever reads. -/
structure ResultRetrieve (Tx : Type) where
  code : StatusCode
  message : String
  timestamp : Time
  data : List Tx

/-- `da.BlockData`. -/
structure BlockData (Tx : Type) where
  timestamp : Time
  blobs : List Tx

/-- `da.ForcedInclusionEvent`. -/
structure ForcedInclusionEvent (Tx : Type) where
  timestamp : Time
  startDaHeight : Nat
  endDaHeight : Nat
  txs : List Tx
  deriving DecidableEq

/-- What the DA side answers during one call: the prefetch cache (a read error counts as a miss,
as in the source) and `client.Retrieve` for each height. -/
structure DAAnswers (Tx : Type) where
  getCachedBlock : Nat → Option (BlockData Tx)
  retrieve : Nat → ResultRetrieve Tx

/-- A DA layer without a prefetch cache that holds the given blocks: not-found below `head`, from
the future above it. -/
def DAAnswers.ofBlocks {Tx : Type} (head : Nat) (blocks : List (Nat × BlockData Tx)) :
    DAAnswers Tx where
  getCachedBlock _ := none
  retrieve h :=
    if head < h then ⟨.heightFromFuture, "", zeroTime, []⟩
    else match blocks.lookup h with
      | none => ⟨.notFound, "", zeroTime, []⟩
      | some block => ⟨.success, "", block.timestamp, block.blobs⟩

/-- `forcedInclusionRetriever`, with `client.HasForcedInclusionNamespace()`. -/
structure ForcedInclusionRetriever where
  hasForcedInclusionNamespace : Bool
  daStartHeight : Nat
  daEpochSize : Nat
  deriving DecidableEq, Repr

variable {Tx : Type}

/-- Fetch the heights that are not cached: the blocks that were answered and the errors met. A
height from the future ends the call. -/
def syncFetch (da : DAAnswers Tx) : List Nat → Except Err (List (Nat × BlockData Tx) × List Err)
  | [] => .ok ([], [])
  | h :: rest =>
    let result := da.retrieve h
    if result.code = .heightFromFuture then
      .error (.wrap "height not yet available" .heightFromFuture)
    else
      match syncFetch da rest with
      | .error e => .error e
      | .ok (blocks, errs) =>
        if result.code = .notFound then .ok ((h, ⟨result.timestamp, []⟩) :: blocks, errs)
        else if result.code ≠ .success then
          .ok (blocks,
            .wrap "failed to retrieve forced inclusion blobs" (.text result.message) :: errs)
        else .ok ((h, ⟨result.timestamp, result.data⟩) :: blocks, errs)

/-- Add the block at `h`, if there is one, to the event. -/
def addBlock [Transaction Tx] (da : DAAnswers Tx) (synced : List (Nat × BlockData Tx))
    (event : ForcedInclusionEvent Tx) (h : Nat) : ForcedInclusionEvent Tx :=
  match (da.getCachedBlock h).or (synced.lookup h) with
  | none => event
  | some block =>
    { event with
      txs := event.txs ++ block.blobs.filter (fun blob => 0 < size blob)
      timestamp := if block.timestamp > event.timestamp then block.timestamp else event.timestamp }

/-- `RetrieveForcedIncludedTxs`. -/
def retrieveForcedIncludedTxs [Transaction Tx] (r : ForcedInclusionRetriever) (da : DAAnswers Tx)
    (daHeight : Nat) : Except Err (ForcedInclusionEvent Tx) :=
  if !r.hasForcedInclusionNamespace then .error .forceInclusionNotConfigured
  else if daHeight < r.daStartHeight then
    .error (.text "DA height is before the configured start height")
  else
    let epochStart := epochStart daHeight r.daStartHeight r.daEpochSize
    let epochEnd := epochEnd daHeight r.daStartHeight r.daEpochSize
    if daHeight ≠ epochEnd then .ok ⟨zeroTime, daHeight, daHeight, []⟩
    else
      let heights := epochHeights daHeight r.daStartHeight r.daEpochSize
      let missing := heights.filter fun h => (da.getCachedBlock h).isNone
      match syncFetch da missing with
      | .error e => .error e
      | .ok (synced, processErrs) =>
        let event := heights.foldl (addBlock da synced) ⟨zeroTime, epochStart, epochEnd, []⟩
        -- a partial epoch is reported as an event without transactions, not as an error
        if processErrs ≠ [] then .ok ⟨event.timestamp, daHeight, daHeight, []⟩
        else .ok event

end EvNode
