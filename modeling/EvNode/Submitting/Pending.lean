import EvNode.Executing.Store

/-!
# Items that wait for DA submission

`block/internal/cache/pending_base.go`, `pending_headers.go` and `pending_data.go`: a cursor behind
the last submitted height, whose value is also written to the store. The cache of fetched items is
left out, since a stored block does not change.
-/

namespace EvNode

variable {Tx : Type}

/-- `DefaultPendingCacheSize`. -/
def defaultPendingCacheSize : Nat := 200000

/-- `pendingBase`: the cursor, and its value in the metadata of the store. -/
structure PendingBase where
  lastHeight : Nat
  stored : Option Nat
  deriving DecidableEq, Repr

namespace PendingBase

/-- `newPendingBase` with `init`. -/
def newPendingBase (stored : Option Nat) : PendingBase := ⟨stored.getD 0, stored⟩

/-- `setLastSubmittedHeight`: the cursor only moves forward. Failing to write it is logged. -/
def setLastSubmittedHeight (newLastSubmittedHeight : Nat) (written : Bool) (pb : PendingBase) :
    PendingBase :=
  if pb.lastHeight < newLastSubmittedHeight then
    ⟨newLastSubmittedHeight, if written then some newLastSubmittedHeight else pb.stored⟩
  else pb

/-- `getPending`: the items behind the cursor, at most as many as the cache holds. -/
def getPending {T : Type} (fetch : Nat → Except Err T) (storeHeight : Nat) (pb : PendingBase) :
    Except Err (List T) :=
  if pb.lastHeight = storeHeight then .ok []
  else if storeHeight < pb.lastHeight then
    .error (.text "height of last submitted item is greater than height of last item")
  else
    let pendingCount := storeHeight - pb.lastHeight
    let endHeight := if defaultPendingCacheSize < pendingCount
      then pb.lastHeight + defaultPendingCacheSize else storeHeight
    (List.range' (pb.lastHeight + 1) (endHeight - pb.lastHeight)).mapM fetch

/-- `numPending`, a difference of `uint64`: it wraps when the cursor is ahead. -/
def numPending (storeHeight : Nat) (pb : PendingBase) : Nat :=
  if pb.lastHeight ≤ storeHeight then storeHeight - pb.lastHeight
  else storeHeight + 2 ^ 64 - pb.lastHeight

end PendingBase

/-- `fetchSignedHeader`. -/
def fetchSignedHeader (s : Store Tx) (height : Nat) : Except Err SignedHeader :=
  match s.blocks.get? height with
  | none => .error (.text "datastore: key not found")
  | some b => if b.header.header.height = 0 then .error (.text "inflight header") else .ok b.header

/-- `fetchData`. -/
def fetchData (s : Store Tx) (height : Nat) : Except Err (Data Tx) :=
  match s.blocks.get? height with
  | none => .error (.text "datastore: key not found")
  | some b => if b.data.height = 0 then .error (.text "inflight data") else .ok b.data

def getPendingHeaders (s : Store Tx) (pb : PendingBase) : Except Err (List SignedHeader) :=
  pb.getPending (fetchSignedHeader s) s.height

/-- `GetPendingData` of the manager, which leaves out empty data. -/
def getPendingData (s : Store Tx) (pb : PendingBase) : Except Err (List (Data Tx)) :=
  match pb.getPending (fetchData s) s.height with
  | .error e => .error e
  | .ok data => .ok (data.filter fun d => d.txs.length ≠ 0)

/-- The loop of `advancePastEmptyData` over the given heights. -/
def advanceLoop (s : Store Tx) (written : Bool) : List Nat → PendingBase → PendingBase
  | [], pb => pb
  | height :: heights, pb =>
    match fetchData s height with
    | .error _ => pb
    | .ok data =>
      if 0 < data.txs.length then pb
      else advanceLoop s written heights (pb.setLastSubmittedHeight height written)

/-- `advancePastEmptyData`: the cursor passes the empty data right behind it. -/
def advancePastEmptyData (s : Store Tx) (written : Bool) (pb : PendingBase) : PendingBase :=
  advanceLoop s written (List.range' (pb.lastHeight + 1) (s.height - pb.lastHeight)) pb

end EvNode
