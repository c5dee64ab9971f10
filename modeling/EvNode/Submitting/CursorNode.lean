import EvNode.Store.DefaultStore
import EvNode.Submitting.DaSubmitter

/-!
# The submission cursors of a node

The two cursors of `block/internal/cache` with everything that moves them or the chain under them:
the submission rounds, the raft preprocessor that `NewSyncer` installs, which takes over the cursors
of the leader, blocks from the executor or the syncer, `Rollback` of `pkg/store/store.go`, and
restarts. A change of leadership builds the components anew, as a restart does.
-/

namespace EvNode

variable {Tx : Type}

/-- A block store and the two cursors over it. -/
structure CursorNode (Tx : Type) where
  store : DefaultStore Tx
  headers : PendingBase
  data : PendingBase
  confirmedHeaders : List Nat
  confirmedData : List Nat

namespace CursorNode

/-- What the submitter works on. -/
def submission (n : CursorNode Tx) : Submission Tx :=
  ⟨n.store.toStore, n.headers, n.data, n.confirmedHeaders, n.confirmedData⟩

/-- A round of the submitter leaves the store alone. -/
def withSubmission (n : CursorNode Tx) (s : Submission Tx) : CursorNode Tx :=
  { n with
    headers := s.headers
    data := s.data
    confirmedHeaders := s.confirmedHeaders
    confirmedData := s.confirmedData }

inductive Op (Tx : Type) where
  | commit (header : SignedHeader) (data : Data Tx) (signature : Bytes) (state : State)
  | submitHeaders (env : SubmitEnv SignedHeader)
  | submitData (env : SubmitEnv (Data Tx))
  | advancePastEmptyData (written : Bool)
  | raftState (lastSubmittedDaHeaderHeight lastSubmittedDaDataHeight : Nat) (written : Bool)
  | rollback (height : Nat) (aggregator : Bool)
  | restart

section
variable (blobHash : SignedHeader → Bytes)

/-- The executor and the syncer commit the next block only. -/
def commit (header : SignedHeader) (data : Data Tx) (signature : Bytes) (state : State)
    (n : CursorNode Tx) : CursorNode Tx :=
  if header.header.height = n.store.height + 1 ∧ data.height = n.store.height + 1 then
    { n with store := n.store.commitBlock blobHash header data signature state }
  else n

/-- The preprocessor of the raft retriever. It does not look at the store. -/
def raftBlockPreProcessor (headerHeight dataHeight : Nat) (written : Bool) (n : CursorNode Tx) :
    CursorNode Tx :=
  { n with
    headers := n.headers.setLastSubmittedHeight headerHeight written
    data := n.data.setLastSubmittedHeight dataHeight written }

def step (n : CursorNode Tx) : Op Tx → CursorNode Tx
  | .commit header data signature state => n.commit blobHash header data signature state
  | .submitHeaders env => n.withSubmission (Submission.headerRound env n.submission).2
  | .submitData env => n.withSubmission (Submission.dataRound env n.submission).2
  | .advancePastEmptyData written =>
    { n with data := EvNode.advancePastEmptyData n.store.toStore written n.data }
  | .raftState headerHeight dataHeight written =>
    n.raftBlockPreProcessor headerHeight dataHeight written
  | .rollback height aggregator =>
    match n.store.rollback blobHash height aggregator with
    | .ok s => { n with store := s }
    | .error _ => n
  | .restart =>
    { n with
      headers := .newPendingBase n.headers.stored
      data := .newPendingBase n.data.stored }

/-- A chain without blocks whose first height is `initialHeight`. -/
def initial (initialHeight : Nat) : CursorNode Tx :=
  ⟨{ DefaultStore.empty with height := initialHeight - 1 }, .newPendingBase none,
    .newPendingBase none, [], []⟩

end

end CursorNode

end EvNode
