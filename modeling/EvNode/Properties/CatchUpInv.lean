import EvNode.Lib.Run
import EvNode.Properties.GetNextBatch
import EvNode.Properties.NewSequencer
import EvNode.Properties.Retriever

/-!
# An invariant of catch-up

A sequencer that is catching up has a checkpoint and a namespace, and a call leaves its queue as it
is: either nothing is postponed that `SetPostponed` could overwrite, or every fetch fails before
the queue is reached. `catchUpInv_reachable` says this of every run of the operations.
-/

namespace EvNode

open Crash Proc

variable {Tx : Type} [Transaction Tx]

namespace Sequencer

/-! ## An invariant of catch-up -/

/-- A later `SetPostponed` without transactions does not change the queue. -/
def QueueQuiet (q : BatchQueue Tx) : Prop :=
  q.inFlightPostponed = [] ∨ q.postponedItem.isSome = true

/-- Every fetch fails, because the checkpoint is before the start of the retriever. -/
def Stuck (s : Sequencer Tx) : Prop :=
  s.checkpoint.daHeight < s.fiRetriever.daStartHeight ∧
    s.cachedForcedInclusionTxs.length ≤ s.checkpoint.txIndex

def CatchUpInv (s : Sequencer Tx) : Prop :=
  s.catchUpState = .inProgress →
    0 < s.checkpoint.daHeight ∧ s.fiRetriever.hasForcedInclusionNamespace = true ∧
      (QueueQuiet s.queue ∨ s.Stuck)

variable {q : BatchQueue Tx} {s : Sequencer Tx} {env : BatchEnv Tx} {maxBytes d : Nat}

omit [Transaction Tx] in
theorem setPostponed_nil (h : QueueQuiet q) : q.setPostponed [] = q := by
  obtain ⟨queue, maxSize, inFlight, postponed, item, seen, add, prepend, db⟩ := q
  unfold BatchQueue.setPostponed
  cases item with
  | some i => rfl
  | none =>
    rcases h with h | h
    · simp only at h
      subst h
      rfl
    · cases h

omit [Transaction Tx] in
theorem queueQuiet_setPostponed_nil (q : BatchQueue Tx) : QueueQuiet (q.setPostponed []) := by
  unfold BatchQueue.setPostponed
  cases hi : q.postponedItem with
  | some i =>
    right
    rw [hi]
    rfl
  | none => exact .inl rfl

theorem QueueQuiet.addBatch (h : QueueQuiet q) (put : Outcome)
    (batch : List Tx) : QueueQuiet (BatchQueue.addBatch put batch q).2 := by
  rcases BatchQueue.addBatch_state put batch q with ⟨seen, hs⟩ | hs
  · rw [hs]
    exact h
  · rw [hs]
    exact h

theorem QueueQuiet.ack (h : QueueQuiet q) (put commit : Outcome) :
    QueueQuiet (BatchQueue.ack put commit q).2 := by
  have hpersisted : QueueQuiet q.postponedPersisted := by
    unfold BatchQueue.postponedPersisted
    split
    · exact .inr rfl
    · exact h
  have hc := BatchQueue.ack_cases put commit q
  generalize BatchQueue.ack put commit q = r at hc
  cases hc with
  | putFailed e | putCrash => exact h
  | deleteFailed e hin | deleteCrash hin => exact hpersisted
  | acked => exact .inl rfl

/-! ## The invariant over one call -/

omit [Transaction Tx] in
theorem CatchUpInv.initCheckpoint (h : CatchUpInv s) (view : ChainView Tx) :
    CatchUpInv (initCheckpoint view s) := by
  intro hc
  by_cases hpos : 0 < s.checkpoint.daHeight
  · rw [initCheckpoint_of_pos hpos] at hc ⊢
    exact h hc
  · have hcatch : s.catchUpState = .inProgress := by
      unfold Sequencer.initCheckpoint at hc
      split at hc
      · exact hc
      · exact hc
    exact absurd (h hcatch).1 hpos

theorem namespace_of_retrieve {r : ForcedInclusionRetriever} {da : DAAnswers Tx} {h : Nat}
    {event : ForcedInclusionEvent Tx} (hr : retrieveForcedIncludedTxs r da h = .ok event) :
    r.hasForcedInclusionNamespace = true := by
  have hc := retrieve_cases r da h
  rw [hr] at hc
  cases hc <;> assumption

/-- The only other error of a retrieval is a height before the start. -/
theorem before_start_of_retrieve {r : ForcedInclusionRetriever} {da : DAAnswers Tx} {h : Nat}
    {e : Err} (hr : retrieveForcedIncludedTxs r da h = .error e)
    (he : e.is .heightFromFuture = false) (hn : e.is .forceInclusionNotConfigured = false) :
    r.hasForcedInclusionNamespace = true ∧ h < r.daStartHeight := by
  have hc := retrieve_cases r da h
  rw [hr] at hc
  cases hc with
  | notConfigured hns => cases hn
  | beforeStart hns hlt => exact ⟨hns, hlt⟩
  | future hns hend hf => cases he

theorem fetch_catchUp {view : ChainView Tx}
    {s1 : Sequencer Tx} (hinv : CatchUpInv s)
    (hpos : 0 < s.daHeight → 0 < s.checkpoint.daHeight)
    (hf : fetchIfConsumed env view maxBytes s = (.ok d, s1))
    (hcatch : s1.catchUpState = .inProgress) :
    0 < s1.checkpoint.daHeight ∧ s1.fiRetriever.hasForcedInclusionNamespace = true := by
  have hc := fetchIfConsumed_cases env view maxBytes s
  obtain ⟨state, time, hu⟩ := updateCatchUpState_eq env view s
  rw [hf] at hc
  cases hc with
  | cached h => exact ⟨(hinv hcatch).1, (hinv hcatch).2.1⟩
  | future e h hr he =>
    unfold leaveCatchUp at hcatch
    split at hcatch
    · cases hcatch
    · next hne => exact absurd hcatch hne
  | notConfigured e h hr he hn => cases hcatch
  | fetched event h hr =>
    rw [hu]
    exact ⟨hpos h.1, namespace_of_retrieve hr⟩

theorem fetch_failed {view : ChainView Tx} {e : Err}
    {s1 : Sequencer Tx} (hpos : 0 < s.daHeight → 0 < s.checkpoint.daHeight)
    (hf : fetchIfConsumed env view maxBytes s = (.error e, s1)) : CatchUpInv s1 := by
  have hc := fetchIfConsumed_cases env view maxBytes s
  obtain ⟨state, time, hu⟩ := updateCatchUpState_eq env view s
  rw [hf] at hc
  cases hc with
  | failed e' h hr he hn =>
    intro _
    obtain ⟨hns, hlt⟩ := before_start_of_retrieve hr he hn
    rw [hu]
    exact ⟨hpos h.1, hns, .inr ⟨hlt, h.2⟩⟩

theorem mempoolTxs_of_catchUp
    (h : s.catchUpState = .inProgress) : s.mempoolTxs env maxBytes = [] := by
  unfold mempoolTxs
  rw [if_neg (not_not_intro h)]

theorem postponed_of_catchUp
    (h : s.catchUpState = .inProgress) :
    (s.selection env maxBytes).postponedMempoolTxs = [] := by
  unfold selection
  rw [mempoolTxs_of_catchUp h]
  dsimp only
  rw [selectTxs_postponedMempoolTxs (length_filterStatuses ..)]
  rfl

theorem queueAfter_of_catchUp
    (h : s.catchUpState = .inProgress) :
    s.queueAfter env maxBytes = s.queue.setPostponed [] := by
  unfold queueAfter
  rw [if_neg (not_not_intro h), postponed_of_catchUp h]

omit [Transaction Tx] in
theorem advanceCheckpoint_pos {consumed : List (Tx × FilterStatus)}
    (h : 0 < s.checkpoint.daHeight) : 0 < (advanceCheckpoint d consumed s).checkpoint.daHeight := by
  unfold advanceCheckpoint
  dsimp only
  split
  · exact Nat.succ_pos d
  · exact h

theorem advanced_pos
    (h : 0 < s.checkpoint.daHeight) : 0 < (s.advanced env maxBytes d).checkpoint.daHeight := by
  unfold advanced
  dsimp only
  split
  · exact advanceCheckpoint_pos h
  · exact h

theorem catchUpInv_advanced
    (h : s.catchUpState = .inProgress →
      0 < s.checkpoint.daHeight ∧ s.fiRetriever.hasForcedInclusionNamespace = true) :
    CatchUpInv (s.advanced env maxBytes d) := by
  obtain ⟨cp, cached, height, heq⟩ := advanced_eq env maxBytes d s
  intro hcatch
  have hcatch' : s.catchUpState = .inProgress := by
    rw [heq] at hcatch
    exact hcatch
  obtain ⟨hpos, hns⟩ := h hcatch'
  refine ⟨advanced_pos hpos, ?_, .inl ?_⟩
  · rw [heq]
    exact hns
  · rw [heq, queueAfter_of_catchUp hcatch']
    exact queueQuiet_setPostponed_nil _

omit [Transaction Tx] in
theorem CatchUpInv.save (h : CatchUpInv s) (store : Option (Checkpoint Tx)) :
    CatchUpInv { s with checkpointStore := store } := h

theorem catchUpInv_getNextBatch (h : CatchUpInv s) (env : BatchEnv Tx)
    (view : ChainView Tx) (req : GetNextBatchRequest) :
    CatchUpInv (getNextBatch env view req s).2 := by
  have hc := getNextBatch_cases env view req s
  have hpos := checkpoint_pos_of_initCheckpoint view s
  have hinit := h.initCheckpoint view
  have hadv : ∀ d s1, fetchIfConsumed env view req.maxBytes (Sequencer.initCheckpoint view s) =
      (.ok d, s1) → CatchUpInv (s1.advanced env req.maxBytes d) := fun d s1 hf =>
    catchUpInv_advanced fun hcatch => fetch_catchUp hinit hpos hf hcatch
  have hsaved : ∀ d s1, fetchIfConsumed env view req.maxBytes (Sequencer.initCheckpoint view s) =
      (.ok d, s1) → CatchUpInv (s1.saved env req.maxBytes d) := by
    intro d s1 hf
    unfold saved
    dsimp only
    split
    · exact (hadv d s1 hf).save _
    · exact hadv d s1 hf
  generalize getNextBatch env view req s = r at hc
  cases hc with
  | invalidId hid => exact h
  | fetchFailed e s1 hid hf => exact fetch_failed hpos hf
  | drainCrash d s1 hid hf hcatch => exact fun hc => absurd hc hcatch
  | saveFailed d s1 hid hf _ _ | saveCrash d s1 hid hf _ _ => exact hadv d s1 hf
  | noBatch d s1 hid hf _ _ | batch d s1 hid hf _ _ => exact hsaved d s1 hf

/-! ## The invariant over runs -/

omit [Transaction Tx] in
theorem CatchUpInv.onQueue {α : Type} (h : CatchUpInv s)
    (p : Proc (BatchQueue Tx) Err α) (hq : QueueQuiet s.queue → QueueQuiet (p s.queue).2) :
    CatchUpInv (Sequencer.onQueue p s).2 := by
  intro hc
  obtain ⟨hpos, hns, hquiet | hstuck⟩ := h hc
  · exact ⟨hpos, hns, .inl (hq hquiet)⟩
  · exact ⟨hpos, hns, .inr hstuck⟩

theorem catchUpInv_submit (h : CatchUpInv s) (put : Outcome)
    (req : SubmitBatchTxsRequest Tx) : CatchUpInv (submitBatchTxs put req s).2 := by
  rcases submitBatchTxs_state put req s with hs | hs
  · rw [hs]
    exact h
  · rw [hs]
    exact h.onQueue _ fun hq => hq.addBatch put req.batch

theorem catchUpInv_step (cfg : SequencerConfig) (l : Live (Sequencer Tx)) (op : Op Tx)
    (h : l.Holds CatchUpInv fun _ => True) : (step cfg l op).Holds CatchUpInv fun _ => True := by
  cases op with
  | start env view =>
    refine h.boot fun _ => ?_
    refine wp_mono (newSequencer_spec cfg env view l.state) (fun _ s hs => ?_)
      (fun _ _ _ => trivial) (fun _ _ => trivial)
    obtain ⟨q, rfl⟩ := hs
    intro hc
    cases hc
  | crash => exact h.halt fun _ _ => trivial
  | submit put req =>
    exact h.call fun hi => wp_of_state (catchUpInv_submit hi put req) fun _ _ => trivial
  | getNextBatch env view req =>
    exact h.call fun hi => wp_of_state (catchUpInv_getNextBatch hi env view req) fun _ _ => trivial
  | ack put commit =>
    exact h.call fun hi =>
      wp_of_state (hi.onQueue _ fun hq => hq.ack put commit) fun _ _ => trivial
  | setDAHeight height => exact h.call fun hi => hi

theorem catchUpInv_reachable (cfg : SequencerConfig) (ops : List (Op Tx)) (s0 : Sequencer Tx) :
    (Run.exec (step cfg) ⟨false, s0⟩ ops).Holds CatchUpInv fun _ => True := by
  refine Run.invariant_all (fun l => l.Holds CatchUpInv fun _ => True)
    (fun l op h => catchUpInv_step cfg l op h) ops _ ?_
  exact ⟨fun hf => absurd hf (by simp), fun _ => trivial⟩

end Sequencer

end EvNode
