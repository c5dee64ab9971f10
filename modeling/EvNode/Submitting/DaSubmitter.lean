import EvNode.Submitting.Pending

/-!
# Submission to DA

`SubmitHeaders`, `SubmitData` and `submitToDA` of `block/internal/submitting/da_submitter.go`. One
round takes the pending items, cuts them to a batch that fits into a blob and submits the batch until
it is confirmed: a partial success moves the window forward, a batch that is too big is halved.
Backoff, signing addresses and metrics are left out.

`Submission.step` is the system: a chain that grows while rounds of both kinds run.
-/

namespace EvNode

open Crash Proc

variable {Tx T σ : Type}

/-- What `client.Submit` answers. -/
inductive SubmitAnswer where
  | success (submittedCount : Nat)
  | tooBig
  | notIncludedInBlock
  | alreadyInMempool
  | contextCanceled
  | other
  deriving DecidableEq, Repr

/-- The environment of one round. -/
structure SubmitEnv (T : Type) where
  /-- The items are signed and marshalled, or this fails. -/
  marshal : Bool
  /-- The length of the marshalled item. -/
  size : T → Nat
  maxBlobBytes : Nat
  maxAttempts : Nat
  /-- Whether the context is done before an attempt. -/
  cancelled : Nat → Bool
  answer : Nat → SubmitAnswer
  /-- Whether the cursor can be written to the store. -/
  written : Bool

/-- How many sizes fit, from a running total on. -/
def fittingCount (maxBytes : Nat) : Nat → List Nat → Nat
  | _, [] => 0
  | total, sz :: sizes =>
    if maxBytes < sz then 0
    else if maxBytes < total + sz then 0
    else fittingCount maxBytes (total + sz) sizes + 1

/-- `limitBatchBySize`: the longest prefix that fits. -/
def limitBatchBySize (size : T → Nat) (maxBytes : Nat) : List T → Except Err (List T)
  | [] => .error (.text "no items fit within max bytes")
  | first :: rest =>
    if maxBytes < size first then .error (.text "item size exceeds max")
    else .ok ((first :: rest).take (fittingCount maxBytes 0 ((first :: rest).map size)))

/-- The retry loop of `submitToDA`, with `left` attempts left. A count beyond the batch makes the
slice expression panic. -/
def submitLoop (postSubmit : List T → σ → σ) (env : SubmitEnv T) :
    Nat → Nat → List T → Proc σ Err Unit
  | 0, _, _ => throw (.text "failed to submit all items to DA layer")
  | left + 1, attempt, items =>
    if env.cancelled attempt then throw (.text "context canceled")
    else
      match env.answer attempt with
      | .success submittedCount =>
        if items.length < submittedCount then io .crash (.text "slice bounds out of range") id
        else do
          modify (postSubmit (items.take submittedCount))
          if submittedCount = items.length then pure ()
          else submitLoop postSubmit env left (attempt + 1) (items.drop submittedCount)
      | .tooBig =>
        if items.length = 1 then throw (.text "single item exceeds DA blob size limit")
        else
          let half := if items.length / 2 = 0 then 1 else items.length / 2
          submitLoop postSubmit env left (attempt + 1) (items.take half)
      | .contextCanceled => throw (.text "context canceled")
      | _ => submitLoop postSubmit env left (attempt + 1) items

def submitToDA (postSubmit : List T → σ → σ) (env : SubmitEnv T) (items : List T) :
    Proc σ Err Unit :=
  if items.length = 0 then submitLoop postSubmit env env.maxAttempts 0 items
  else
    match limitBatchBySize env.size env.maxBlobBytes items with
    | .error e => throw (.wrap "unrecoverable error: no items fit within max blob size" e)
    | .ok batch => submitLoop postSubmit env env.maxAttempts 0 batch

/-- The cursor moves to the last of the confirmed heights. -/
def PendingBase.postSubmit (submitted : List Nat) (written : Bool) (pb : PendingBase) :
    PendingBase :=
  match submitted.getLast? with
  | none => pb
  | some lastHeight => pb.setLastSubmittedHeight lastHeight written

/-- A chain and the two cursors. The last two fields are histories no function reads: the heights of
the headers and of the data in confirmed submissions, in order. -/
structure Submission (Tx : Type) where
  store : Store Tx
  headers : PendingBase
  data : PendingBase
  confirmedHeaders : List Nat
  confirmedData : List Nat

namespace Submission

/-- What `SubmitHeaders` does with confirmed headers. -/
def headersSubmitted (written : Bool) (submitted : List SignedHeader) (s : Submission Tx) :
    Submission Tx :=
  let heights := submitted.map fun h => h.header.height
  { s with
    headers := s.headers.postSubmit heights written
    confirmedHeaders := s.confirmedHeaders ++ heights }

/-- What `SubmitData` does with confirmed data. -/
def dataSubmitted (written : Bool) (submitted : List (Data Tx)) (s : Submission Tx) :
    Submission Tx :=
  let heights := submitted.map Data.height
  { s with
    data := s.data.postSubmit heights written
    confirmedData := s.confirmedData ++ heights }

def submitHeaders (env : SubmitEnv SignedHeader) (headers : List SignedHeader) :
    Proc (Submission Tx) Err Unit := do
  if headers.length = 0 then pure ()
  else do
    require env.marshal (.text "failed to create envelope for header")
    submitToDA (headersSubmitted env.written) env headers

def submitData (env : SubmitEnv (Data Tx)) (data : List (Data Tx)) :
    Proc (Submission Tx) Err Unit := do
  if data.length = 0 then pure ()
  else do
    require env.marshal (.text "failed to sign data")
    let signed := data.filter fun d => d.txs.length ≠ 0
    if signed.length = 0 then pure ()
    else submitToDA (dataSubmitted env.written) env signed

/-- One round of the submission loop for headers. -/
def headerRound (env : SubmitEnv SignedHeader) : Proc (Submission Tx) Err Unit := do
  let s ← get
  match getPendingHeaders s.store s.headers with
  | .error e => throw e
  | .ok headers => submitHeaders env headers

/-- One round of the submission loop for data. -/
def dataRound (env : SubmitEnv (Data Tx)) : Proc (Submission Tx) Err Unit := do
  let s ← get
  match getPendingData s.store s.data with
  | .error e => throw e
  | .ok data => submitData env data

/-- The next block is committed. -/
def grow (header : SignedHeader) (data : Data Tx) (s : Submission Tx) : Submission Tx :=
  if header.header.height = s.store.height + 1 ∧ data.height = s.store.height + 1 then
    let saved := s.store.saveBlockData header data header.signature
    { s with store := saved.setHeight header.header.height }
  else s

inductive Op (Tx : Type) where
  | grow (header : SignedHeader) (data : Data Tx)
  | submitHeaders (env : SubmitEnv SignedHeader)
  | submitData (env : SubmitEnv (Data Tx))
  | advancePastEmptyData (written : Bool)

def step (s : Submission Tx) : Op Tx → Submission Tx
  | .grow header data => s.grow header data
  | .submitHeaders env => (headerRound env s).2
  | .submitData env => (dataRound env s).2
  | .advancePastEmptyData written =>
    { s with data := EvNode.advancePastEmptyData s.store written s.data }

/-- A chain without blocks whose first height is `initialHeight`. -/
def initial (initialHeight : Nat) : Submission Tx :=
  ⟨{ Store.empty with height := initialHeight - 1 }, .newPendingBase none, .newPendingBase none,
    [], []⟩

end Submission

end EvNode
