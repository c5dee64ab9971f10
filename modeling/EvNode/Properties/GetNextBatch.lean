import EvNode.Properties.Queue
import EvNode.Properties.Selection
import EvNode.Sequencer.Single

/-!
# Everything one `GetNextBatch` of the single sequencer can do

Each result about runs starts from `getNextBatch_cases`: the call ends in the checkpoint init path,
in the fetch, in the drain, in the save, or at its end, and each case says what it leaves behind.
-/

namespace EvNode

open Crash Proc

variable {Tx : Type} [Transaction Tx]

namespace Sequencer

/-! ## The checkpoint init path -/

omit [Transaction Tx] in
theorem initCheckpoint_of_pos {view : ChainView Tx} {s : Sequencer Tx}
    (h : 0 < s.checkpoint.daHeight) : initCheckpoint view s = s := by
  unfold initCheckpoint
  rw [if_neg (by omega)]

omit [Transaction Tx] in
theorem checkpoint_pos_of_initCheckpoint (view : ChainView Tx) (s : Sequencer Tx)
    (h : 0 < (initCheckpoint view s).daHeight) :
    0 < (initCheckpoint view s).checkpoint.daHeight := by
  unfold initCheckpoint at h ⊢
  by_cases hc : 0 < s.daHeight ∧ s.checkpoint.daHeight = 0
  · rw [if_pos hc]
    exact hc.1
  · rw [if_neg hc] at h ⊢
    omega

omit [Transaction Tx] in
theorem initCheckpoint_passed (view : ChainView Tx) (s : Sequencer Tx) :
    (initCheckpoint view s).checkpoint.passed = s.checkpoint.passed := by
  unfold initCheckpoint
  split <;> rfl

omit [Transaction Tx] in
theorem initCheckpoint_store (view : ChainView Tx) (s : Sequencer Tx) :
    (initCheckpoint view s).checkpointStore = s.checkpointStore := by
  unfold initCheckpoint
  split <;> rfl

/-! ## The fetch -/

inductive FetchCase (env : BatchEnv Tx) (view : ChainView Tx) (maxBytes : Nat)
    (s : Sequencer Tx) : Exit Err Nat × Sequencer Tx → Prop
  | cached (h : ¬ (0 < s.daHeight ∧ s.cachedForcedInclusionTxs.length ≤ s.checkpoint.txIndex)) :
    FetchCase env view maxBytes s (.ok s.daHeight, s)
  | future (e : Err)
      (h : 0 < s.daHeight ∧ s.cachedForcedInclusionTxs.length ≤ s.checkpoint.txIndex)
      (hr : retrieveForcedIncludedTxs s.fiRetriever env.da s.checkpoint.daHeight = .error e)
      (he : e.is .heightFromFuture = true) :
    FetchCase env view maxBytes s (.ok 0, leaveCatchUp (updateCatchUpState env view s))
  | notConfigured (e : Err)
      (h : 0 < s.daHeight ∧ s.cachedForcedInclusionTxs.length ≤ s.checkpoint.txIndex)
      (hr : retrieveForcedIncludedTxs s.fiRetriever env.da s.checkpoint.daHeight = .error e)
      (he : e.is .heightFromFuture = false) (hn : e.is .forceInclusionNotConfigured = true) :
    FetchCase env view maxBytes s (.ok 0, { updateCatchUpState env view s with
      cachedForcedInclusionTxs := [], catchUpState := .done })
  | failed (e : Err)
      (h : 0 < s.daHeight ∧ s.cachedForcedInclusionTxs.length ≤ s.checkpoint.txIndex)
      (hr : retrieveForcedIncludedTxs s.fiRetriever env.da s.checkpoint.daHeight = .error e)
      (he : e.is .heightFromFuture = false) (hn : e.is .forceInclusionNotConfigured = false) :
    FetchCase env view maxBytes s
      (.error (.wrap "failed to retrieve forced inclusion transactions" e),
        updateCatchUpState env view s)
  | fetched (event : ForcedInclusionEvent Tx)
      (h : 0 < s.daHeight ∧ s.cachedForcedInclusionTxs.length ≤ s.checkpoint.txIndex)
      (hr : retrieveForcedIncludedTxs s.fiRetriever env.da s.checkpoint.daHeight = .ok event) :
    FetchCase env view maxBytes s
      (.ok event.endDaHeight, cacheEpoch maxBytes event (updateCatchUpState env view s))

omit [Transaction Tx] in
/-- Entering catch-up changes the catch-up state and the timestamp floor, nothing else. -/
theorem updateCatchUpState_eq (env : BatchEnv Tx) (view : ChainView Tx) (s : Sequencer Tx) :
    ∃ state time, updateCatchUpState env view s =
      { s with catchUpState := state, currentDAEndTime := time } := by
  unfold updateCatchUpState
  split
  · exact ⟨s.catchUpState, s.currentDAEndTime, rfl⟩
  · dsimp only
    split
    · exact ⟨_, _, rfl⟩
    · split
      · exact ⟨_, _, rfl⟩
      · split
        · exact ⟨_, _, rfl⟩
        · split
          · exact ⟨_, _, rfl⟩
          · exact ⟨_, _, rfl⟩

theorem fetchIfConsumed_cases (env : BatchEnv Tx) (view : ChainView Tx) (maxBytes : Nat)
    (s : Sequencer Tx) : FetchCase env view maxBytes s (fetchIfConsumed env view maxBytes s) := by
  unfold fetchIfConsumed
  rw [get_bind_run]
  by_cases h : 0 < s.daHeight ∧ s.cachedForcedInclusionTxs.length ≤ s.checkpoint.txIndex
  · rw [if_pos h]
    unfold fetchNextDAEpoch
    rw [modify_bind_run, get_bind_run]
    obtain ⟨state, time, hu⟩ := updateCatchUpState_eq env view s
    have hret : retrieveForcedIncludedTxs (updateCatchUpState env view s).fiRetriever env.da
        (updateCatchUpState env view s).checkpoint.daHeight =
          retrieveForcedIncludedTxs s.fiRetriever env.da s.checkpoint.daHeight := by
      rw [hu]
    rw [hret]
    cases hr : retrieveForcedIncludedTxs s.fiRetriever env.da s.checkpoint.daHeight with
    | ok event => exact .fetched event h hr
    | error e =>
      dsimp only
      cases he : e.is .heightFromFuture with
      | true =>
        rw [if_pos rfl]
        exact .future e h hr he
      | false =>
        rw [if_neg Bool.false_ne_true]
        cases hn : e.is .forceInclusionNotConfigured with
        | true =>
          rw [if_pos rfl]
          exact .notConfigured e h hr he hn
        | false =>
          rw [if_neg Bool.false_ne_true]
          exact .failed e h hr he hn
  · rw [if_neg h]
    exact .cached h

/-- A fetch changes the cache and the catch-up state only. -/
theorem fetchIfConsumed_eq {env : BatchEnv Tx} {view : ChainView Tx} {maxBytes : Nat}
    {s s1 : Sequencer Tx} {r : Exit Err Nat}
    (hf : fetchIfConsumed env view maxBytes s = (r, s1)) :
    ∃ cached state time count, s1 = { s with
      cachedForcedInclusionTxs := cached
      catchUpState := state
      currentDAEndTime := time
      currentEpochTxCount := count } := by
  have hc := fetchIfConsumed_cases env view maxBytes s
  obtain ⟨state, time, hu⟩ := updateCatchUpState_eq env view s
  rw [hf] at hc
  cases hc with
  | cached _ => exact ⟨_, _, _, _, rfl⟩
  | future e _ _ _ =>
    rw [hu]
    unfold leaveCatchUp
    split
    · exact ⟨_, _, _, _, rfl⟩
    · exact ⟨_, _, _, _, rfl⟩
  | notConfigured e _ _ _ _ | failed e _ _ _ _ | fetched event _ _ =>
    rw [hu]
    exact ⟨_, _, _, _, rfl⟩

theorem fetchIfConsumed_pos {env : BatchEnv Tx} {view : ChainView Tx} {maxBytes d : Nat}
    {s s1 : Sequencer Tx} (hf : fetchIfConsumed env view maxBytes s = (.ok d, s1)) :
    0 < s.daHeight ∨ (s1 = s ∧ d = s.daHeight) := by
  have hc := fetchIfConsumed_cases env view maxBytes s
  rw [hf] at hc
  cases hc with
  | cached _ => exact .inr ⟨rfl, rfl⟩
  | future _ h _ _ | notConfigured _ h _ _ _ | fetched _ h _ => exact .inl h.1

/-! ## The rest of the call

`s` is the sequencer after the fetch and `daHeight` the height the fetch returned. -/

section AfterFetch

variable (env : BatchEnv Tx) (maxBytes daHeight : Nat) (s : Sequencer Tx)

/-- The mempool part of the batch. -/
def mempoolTxs : List Tx :=
  if s.catchUpState ≠ .inProgress then s.queue.drainedTxs env.rollbackDelete maxBytes else []

def selection : Selection Tx :=
  let forcedTxs := s.remainingForcedTxs
  let allTxs := forcedTxs ++ s.mempoolTxs env maxBytes
  selectTxs forcedTxs.length allTxs
    (filterStatuses env.executor allTxs maxBytes (0 < forcedTxs.length))

/-- The queue after the drain and `SetPostponed`. -/
def queueAfter : BatchQueue Tx :=
  (if s.catchUpState ≠ .inProgress then s.queue.drained env.rollbackDelete maxBytes
    else s.queue).setPostponed (s.selection env maxBytes).postponedMempoolTxs

/-- Whether the checkpoint is touched at all. -/
def Advances : Prop := 0 < daHeight ∨ s.remainingForcedTxs ≠ []

instance : Decidable (Advances daHeight s) :=
  inferInstanceAs (Decidable (0 < daHeight ∨ s.remainingForcedTxs ≠ []))

/-- The sequencer after the checkpoint is advanced in memory. -/
def advanced : Sequencer Tx :=
  let s' := { s with queue := s.queueAfter env maxBytes }
  if Advances daHeight s then advanceCheckpoint daHeight (s.selection env maxBytes).consumed s'
  else s'

/-- The sequencer after the checkpoint is saved. -/
def saved : Sequencer Tx :=
  let s' := s.advanced env maxBytes daHeight
  if Advances daHeight s then { s' with checkpointStore := some s'.checkpoint } else s'

def batchTxs : List Tx :=
  (s.selection env maxBytes).validForcedTxs ++ (s.selection env maxBytes).validMempoolTxs

def txIndexForTimestamp : Nat :=
  if Advances daHeight s then
    s.checkpoint.txIndex + (s.selection env maxBytes).consumed.length
  else 0

def response : GetNextBatchResponse Tx :=
  ⟨s.batchTxs env maxBytes,
    s.batchTimestamp env.now (s.selection env maxBytes).consumed
      (s.txIndexForTimestamp env maxBytes daHeight)⟩

end AfterFetch

inductive BatchCase (env : BatchEnv Tx) (view : ChainView Tx) (req : GetNextBatchRequest)
    (s : Sequencer Tx) : Exit Err (GetNextBatchResponse Tx) × Sequencer Tx → Prop
  | invalidId (hid : s.id ≠ req.id) : BatchCase env view req s (.error .invalidId, s)
  | fetchFailed (e : Err) (s1 : Sequencer Tx) (hid : s.id = req.id)
      (hf : fetchIfConsumed env view req.maxBytes (initCheckpoint view s) = (.error e, s1)) :
    BatchCase env view req s (.error e, s1)
  | drainCrash (d : Nat) (s1 : Sequencer Tx) (hid : s.id = req.id)
      (hf : fetchIfConsumed env view req.maxBytes (initCheckpoint view s) = (.ok d, s1))
      (hcatch : s1.catchUpState ≠ .inProgress) :
    BatchCase env view req s (.crash, s1)
  | saveFailed (d : Nat) (s1 : Sequencer Tx) (hid : s.id = req.id)
      (hf : fetchIfConsumed env view req.maxBytes (initCheckpoint view s) = (.ok d, s1))
      (hadv : Advances d s1) (hsave : env.save = .fail) :
    BatchCase env view req s
      (.error (.text "failed to save checkpoint"), s1.advanced env req.maxBytes d)
  | saveCrash (d : Nat) (s1 : Sequencer Tx) (hid : s.id = req.id)
      (hf : fetchIfConsumed env view req.maxBytes (initCheckpoint view s) = (.ok d, s1))
      (hadv : Advances d s1) (hsave : env.save = .crash) :
    BatchCase env view req s (.crash, s1.advanced env req.maxBytes d)
  | noBatch (d : Nat) (s1 : Sequencer Tx) (hid : s.id = req.id)
      (hf : fetchIfConsumed env view req.maxBytes (initCheckpoint view s) = (.ok d, s1))
      (hsave : Advances d s1 → env.save = .ok)
      (hnone : s1.isCatchingUp = true ∧ s1.batchTxs env req.maxBytes = []) :
    BatchCase env view req s (.error .noBatch, s1.saved env req.maxBytes d)
  | batch (d : Nat) (s1 : Sequencer Tx) (hid : s.id = req.id)
      (hf : fetchIfConsumed env view req.maxBytes (initCheckpoint view s) = (.ok d, s1))
      (hsave : Advances d s1 → env.save = .ok)
      (hsome : ¬ (s1.isCatchingUp = true ∧ s1.batchTxs env req.maxBytes = [])) :
    BatchCase env view req s
      (.ok (s1.response env req.maxBytes d), s1.saved env req.maxBytes d)

omit [Transaction Tx] in
/-- The checkpoint and the height move, the rest of the sequencer does not. -/
theorem advanceCheckpoint_eq (d : Nat) (consumed : List (Tx × FilterStatus)) (s : Sequencer Tx) :
    ∃ cp cached h, advanceCheckpoint d consumed s =
      { s with checkpoint := cp, cachedForcedInclusionTxs := cached, daHeight := h } := by
  unfold advanceCheckpoint
  dsimp only
  split
  · exact ⟨_, _, _, rfl⟩
  · exact ⟨_, _, _, rfl⟩

theorem advanced_eq (env : BatchEnv Tx) (maxBytes d : Nat) (s : Sequencer Tx) :
    ∃ cp cached h, s.advanced env maxBytes d = { s with
      queue := s.queueAfter env maxBytes
      checkpoint := cp
      cachedForcedInclusionTxs := cached
      daHeight := h } := by
  unfold advanced
  by_cases hadv : Advances d s
  · obtain ⟨cp, cached, h, heq⟩ := advanceCheckpoint_eq d (s.selection env maxBytes).consumed
      { s with queue := s.queueAfter env maxBytes }
    simp only [if_pos hadv, heq]
    exact ⟨_, _, _, rfl⟩
  · simp only [if_neg hadv]
    exact ⟨_, _, _, rfl⟩

theorem saved_eq (env : BatchEnv Tx) (maxBytes d : Nat) (s : Sequencer Tx) :
    ∃ store, s.saved env maxBytes d =
      { s.advanced env maxBytes d with checkpointStore := store } := by
  unfold saved
  dsimp only
  split
  · exact ⟨_, rfl⟩
  · exact ⟨(s.advanced env maxBytes d).checkpointStore, rfl⟩

theorem drainMempool_cases (env : BatchEnv Tx) (maxBytes : Nat) (s : Sequencer Tx) :
    (s.catchUpState ≠ .inProgress ∧ drainMempool env maxBytes s = (.crash, s)) ∨
      drainMempool env maxBytes s = (.ok (s.mempoolTxs env maxBytes),
        { s with queue := if s.catchUpState ≠ .inProgress
            then s.queue.drained env.rollbackDelete maxBytes else s.queue }) := by
  unfold drainMempool mempoolTxs
  rw [get_bind_run]
  by_cases h : s.catchUpState ≠ .inProgress
  · rw [if_pos h, if_pos h, if_pos h]
    unfold onQueue zoom
    rcases BatchQueue.drain_cases env.rollbackDelete maxBytes s.queue with hd | hd
    · left
      rw [hd]
      exact ⟨h, rfl⟩
    · right
      rw [hd]
  · right
    rw [if_neg h, if_neg h, if_neg h]
    rfl

theorem getNextBatch_cases (env : BatchEnv Tx) (view : ChainView Tx) (req : GetNextBatchRequest)
    (s : Sequencer Tx) : BatchCase env view req s (getNextBatch env view req s) := by
  unfold getNextBatch
  rw [get_bind_run]
  by_cases hid : s.id = req.id
  · have hreq : (require (decide (s.id = req.id)) Err.invalidId : Proc (Sequencer Tx) Err Unit) s =
        (.ok (), s) := by
      unfold require
      rw [if_pos (decide_eq_true hid)]
    rw [bind_run_ok hreq, modify_bind_run]
    rcases hf : fetchIfConsumed env view req.maxBytes (initCheckpoint view s) with ⟨r, s1⟩
    cases r with
    | error e =>
      rw [bind_run_error hf]
      exact .fetchFailed e s1 hid hf
    | crash =>
      have hc := fetchIfConsumed_cases env view req.maxBytes (initCheckpoint view s)
      rw [hf] at hc
      cases hc
    | ok d =>
      rw [bind_run_ok hf, get_bind_run]
      rcases drainMempool_cases env req.maxBytes s1 with ⟨hcatch, hd⟩ | hd
      · rw [bind_run_crash hd]
        exact .drainCrash d s1 hid hf hcatch
      · rw [bind_run_ok hd, modify_bind_run]
        -- from here on the call is the checkpoint update and the answer
        show BatchCase env view req s
          ((saveCheckpoint env d s1.remainingForcedTxs (s1.selection env req.maxBytes).consumed >>=
            fun txIndex => get >>= fun s => do
              require (!(s.isCatchingUp && (s1.batchTxs env req.maxBytes).isEmpty)) .noBatch
              pure ⟨s1.batchTxs env req.maxBytes,
                s.batchTimestamp env.now (s1.selection env req.maxBytes).consumed txIndex⟩)
            { s1 with queue := s1.queueAfter env req.maxBytes })
        have hanswer : ∀ s2 : Sequencer Tx, s2 = s1.saved env req.maxBytes d →
            (Advances d s1 → env.save = .ok) →
            BatchCase env view req s ((get >>= fun s => do
              require (!(s.isCatchingUp && (s1.batchTxs env req.maxBytes).isEmpty)) .noBatch
              pure ⟨s1.batchTxs env req.maxBytes,
                s.batchTimestamp env.now (s1.selection env req.maxBytes).consumed
                  (s1.txIndexForTimestamp env req.maxBytes d)⟩) s2) := by
          rintro s2 rfl hsave
          obtain ⟨store, hstore⟩ := saved_eq env req.maxBytes d s1
          obtain ⟨cp, cached, h, heq⟩ := advanced_eq env req.maxBytes d s1
          have hcatch : (s1.saved env req.maxBytes d).isCatchingUp = s1.isCatchingUp := by
            rw [hstore, heq]
            rfl
          have htime : ∀ now consumed idx, (s1.saved env req.maxBytes d).batchTimestamp now consumed
              idx = s1.batchTimestamp now consumed idx := by
            intro now consumed idx
            rw [hstore, heq]
            rfl
          rw [get_bind_run, hcatch, htime]
          by_cases hnone : s1.isCatchingUp = true ∧ s1.batchTxs env req.maxBytes = []
          · rw [hnone.1, hnone.2]
            exact .noBatch d s1 hid hf hsave hnone
          · have hb : (!(s1.isCatchingUp && (s1.batchTxs env req.maxBytes).isEmpty)) = true := by
              rw [Bool.not_eq_true', Bool.and_eq_false_iff]
              by_cases hcu : s1.isCatchingUp = true
              · right
                rw [List.isEmpty_eq_false_iff]
                exact fun hnil => hnone ⟨hcu, hnil⟩
              · left
                exact Bool.eq_false_iff.mpr hcu
            rw [hb]
            exact .batch d s1 hid hf hsave hnone
        unfold saveCheckpoint
        by_cases hadv : Advances d s1
        · have hguard : 0 < d ∨ s1.remainingForcedTxs ≠ [] := hadv
          have hstep : s1.advanced env req.maxBytes d = advanceCheckpoint d
              (s1.selection env req.maxBytes).consumed
              { s1 with queue := s1.queueAfter env req.maxBytes } := by
            unfold advanced
            rw [if_pos hadv]
          have hidx : s1.txIndexForTimestamp env req.maxBytes d =
              s1.checkpoint.txIndex + (s1.selection env req.maxBytes).consumed.length := by
            unfold txIndexForTimestamp
            rw [if_pos hadv]
          cases hsave : env.save with
          | fail =>
            simp only [if_pos hguard]
            have h : BatchCase env view req s (_, s1.advanced env req.maxBytes d) :=
              .saveFailed d s1 hid hf hadv hsave
            rw [hstep] at h
            exact h
          | crash =>
            simp only [if_pos hguard]
            have h : BatchCase env view req s (_, s1.advanced env req.maxBytes d) :=
              .saveCrash d s1 hid hf hadv hsave
            rw [hstep] at h
            exact h
          | ok =>
            simp only [if_pos hguard]
            have h := hanswer _ rfl fun _ => hsave
            rw [hidx] at h
            unfold saved at h
            rw [if_pos hadv, hstep] at h
            exact h
        · have hguard : ¬ (0 < d ∨ s1.remainingForcedTxs ≠ []) := hadv
          have hidx : s1.txIndexForTimestamp env req.maxBytes d = 0 := by
            unfold txIndexForTimestamp
            rw [if_neg hadv]
          have h := hanswer _ rfl fun h => absurd h hadv
          rw [hidx] at h
          unfold saved advanced at h
          rw [if_neg hadv, if_neg hadv] at h
          simp only [if_neg hguard]
          exact h
  · have hreq : (require (decide (s.id = req.id)) Err.invalidId : Proc (Sequencer Tx) Err Unit) s =
        (.error .invalidId, s) := by
      unfold require
      rw [if_neg (by simpa using hid)]
    rw [bind_run_error hreq]
    exact .invalidId hid

theorem getNextBatch_invalidId {env : BatchEnv Tx} {view : ChainView Tx}
    {req : GetNextBatchRequest} {s : Sequencer Tx} (hid : s.id ≠ req.id) :
    getNextBatch env view req s = (.error .invalidId, s) := by
  have hc := getNextBatch_cases env view req s
  generalize getNextBatch env view req s = r at hc
  cases hc with
  | invalidId _ => rfl
  | fetchFailed _ _ hid' | drainCrash _ _ hid' | saveFailed _ _ hid' | saveCrash _ _ hid'
  | noBatch _ _ hid' | batch _ _ hid' => exact absurd hid' hid

end Sequencer

end EvNode
