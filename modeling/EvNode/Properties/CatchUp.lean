import EvNode.Properties.Based
import EvNode.Properties.CatchUpInv

/-!
# Catch-up agrees with based sequencing

A single sequencer that is catching up and a based sequencer in the same position answer alike,
call by call, until the DA head is reached. The queue of the single sequencer does not change.
-/

namespace EvNode

open Crash Proc

variable {Tx : Type} [Transaction Tx]

/-! ## The two positions -/

/-- The two sequencers are in the same position. -/
structure Agree (s : Sequencer Tx) (b : BasedSequencer Tx) : Prop where
  retriever : b.fiRetriever = s.fiRetriever
  daHeight : b.daHeight = s.daHeight
  checkpointHeight : b.checkpoint.daHeight = s.checkpoint.daHeight
  txIndex : b.checkpoint.txIndex = s.checkpoint.txIndex
  cachedTxs : b.currentBatchTxs = s.cachedForcedInclusionTxs
  daEndTime : b.currentDAEndTime = s.currentDAEndTime
  epochTxCount : b.currentEpochTxCount = s.currentEpochTxCount

/-- The call gets `ErrHeightFromFuture` from the retriever. -/
def HitsFuture (s : Sequencer Tx) (env : BatchEnv Tx) : Prop :=
  (0 < s.daHeight ∧ s.cachedForcedInclusionTxs.length ≤ s.checkpoint.txIndex) ∧
    ∃ e, retrieveForcedIncludedTxs s.fiRetriever env.da s.checkpoint.daHeight = .error e ∧
      e.is .heightFromFuture = true

omit [Transaction Tx] in
theorem Sequencer.updateCatchUpState_of_checked (env : BatchEnv Tx) (view : ChainView Tx)
    {s : Sequencer Tx} (h : s.catchUpState = .inProgress) :
    Sequencer.updateCatchUpState env view s = s := by
  unfold Sequencer.updateCatchUpState
  rw [if_pos (by rw [h]; decide)]

/-- A fetch that does not reach the DA head fails alike in both, or leaves both in the same
position again. -/
theorem fetch_agree {env : BatchEnv Tx} {view : ChainView Tx} {maxBytes : Nat}
    {s : Sequencer Tx} {b : BasedSequencer Tx} (ha : Agree s b)
    (hcatch : s.catchUpState = .inProgress)
    (hns : s.fiRetriever.hasForcedInclusionNamespace = true) (hfut : ¬ HitsFuture s env) :
    (∃ e, Sequencer.fetchIfConsumed env view maxBytes s = (.error e, s) ∧
        BasedSequencer.fetchIfConsumed env maxBytes b = (.error e, b)) ∨
      ∃ d s1 b1, Sequencer.fetchIfConsumed env view maxBytes s = (.ok d, s1) ∧
        BasedSequencer.fetchIfConsumed env maxBytes b = (.ok d, b1) ∧ Agree s1 b1 ∧
        s1.catchUpState = .inProgress ∧ s1.queue = s.queue ∧ s1.id = s.id ∧
        s1.daHeight = s.daHeight := by
  have hc := Sequencer.fetchIfConsumed_cases env view maxBytes s
  have hbfetch : BasedSequencer.fetchIfConsumed env maxBytes b =
      if 0 < s.daHeight ∧ s.cachedForcedInclusionTxs.length ≤ s.checkpoint.txIndex then
        BasedSequencer.fetchNextDAEpoch env maxBytes b else (.ok s.daHeight, b) := by
    unfold BasedSequencer.fetchIfConsumed
    rw [get_bind_run, ha.daHeight, ha.cachedTxs, ha.txIndex]
    split <;> rfl
  have hbret : retrieveForcedIncludedTxs b.fiRetriever env.da b.checkpoint.daHeight =
      retrieveForcedIncludedTxs s.fiRetriever env.da s.checkpoint.daHeight := by
    rw [ha.retriever, ha.checkpointHeight]
  have hu := Sequencer.updateCatchUpState_of_checked env view hcatch
  rw [hbfetch]
  generalize Sequencer.fetchIfConsumed env view maxBytes s = r at hc
  cases hc with
  | cached h =>
    right
    refine ⟨_, _, _, rfl, ?_, ha, hcatch, rfl, rfl, rfl⟩
    rw [if_neg h]
  | future e h hr he => exact absurd ⟨h, e, hr, he⟩ hfut
  | notConfigured e h hr he hn =>
    have hcase := retrieve_cases s.fiRetriever env.da s.checkpoint.daHeight
    rw [hr] at hcase
    cases hcase with
    | notConfigured hns' =>
      rw [hns] at hns'
      cases hns'
    | beforeStart _ _ | future _ _ _ => cases hn
  | failed e h hr he hn =>
    left
    refine ⟨_, by rw [hu], ?_⟩
    rw [if_pos h]
    unfold BasedSequencer.fetchNextDAEpoch
    rw [get_bind_run, hbret, hr]
    dsimp only
    rw [hn, if_neg Bool.false_ne_true, he, if_neg Bool.false_ne_true]
    rfl
  | fetched event h hr =>
    right
    rw [hu]
    refine ⟨_, _, b.cacheEpoch maxBytes event, rfl, ?_, ?_, hcatch, rfl, rfl, rfl⟩
    · rw [if_pos h]
      unfold BasedSequencer.fetchNextDAEpoch
      rw [get_bind_run, hbret, hr]
      rfl
    · exact ⟨ha.retriever, ha.daHeight, ha.checkpointHeight, ha.txIndex, rfl,
        by simp only [BasedSequencer.cacheEpoch, Sequencer.cacheEpoch, ha.daEndTime], rfl⟩

/-! ## One call -/

section OneCall

variable {env : BatchEnv Tx} {maxBytes d : Nat} {s : Sequencer Tx} {b : BasedSequencer Tx}

omit [Transaction Tx] in
theorem remainingForcedTxs_agree (ha : Agree s b) :
    b.currentBatchTxs.drop b.checkpoint.txIndex = s.remainingForcedTxs := by
  unfold Sequencer.remainingForcedTxs
  rw [ha.cachedTxs, ha.txIndex]

omit [Transaction Tx] in
/-- The flag of `FilterTxs` differs only when there is nothing to filter. -/
theorem filterStatuses_force (ex : ExecutionAnswers Tx) (txs : List Tx) (maxBytes : Nat) :
    filterStatuses ex txs maxBytes (0 < txs.length) = filterStatuses ex txs maxBytes true := by
  cases txs with
  | nil =>
    have h1 := length_filterStatuses ex [] maxBytes (decide (0 < ([] : List Tx).length))
    have h2 := length_filterStatuses ex [] maxBytes true
    rw [List.eq_nil_of_length_eq_zero h1, List.eq_nil_of_length_eq_zero h2]
  | cons tx txs => rfl

theorem selection_agree (ha : Agree s b) (hcatch : s.catchUpState = .inProgress) :
    (s.selection env maxBytes).consumed = (b.processed env maxBytes).2 ∧
      s.batchTxs env maxBytes = (b.processed env maxBytes).1 := by
  have hlen := length_filterStatuses env.executor (s.remainingForcedTxs ++ []) maxBytes
    (decide (0 < s.remainingForcedTxs.length))
  have hst : filterStatuses env.executor (s.remainingForcedTxs ++ []) maxBytes
      (decide (0 < s.remainingForcedTxs.length)) =
        filterStatuses env.executor s.remainingForcedTxs maxBytes true := by
    rw [List.append_nil]
    exact filterStatuses_force _ _ _
  unfold Sequencer.batchTxs Sequencer.selection BasedSequencer.processed
  rw [Sequencer.mempoolTxs_of_catchUp hcatch, remainingForcedTxs_agree ha]
  dsimp only
  rw [selectTxs_consumed hlen, selectTxs_validForcedTxs hlen, selectTxs_validMempoolTxs hlen, hst]
  exact ⟨rfl, List.append_nil _⟩

theorem advanced_agree (ha : Agree s b) (hcatch : s.catchUpState = .inProgress)
    (hadv : Sequencer.Advances d s) :
    Agree (s.advanced env maxBytes d) (b.advanceCheckpoint d (b.processed env maxBytes).2) := by
  unfold Sequencer.advanced
  simp only [if_pos hadv]
  rw [(selection_agree ha hcatch).1]
  unfold Sequencer.advanceCheckpoint BasedSequencer.advanceCheckpoint
  dsimp only
  rw [ha.cachedTxs, ha.txIndex]
  split
  · exact ⟨ha.retriever, rfl, rfl, rfl, rfl, ha.daEndTime, ha.epochTxCount⟩
  · exact ⟨ha.retriever, ha.daHeight, ha.checkpointHeight, rfl, rfl, ha.daEndTime,
      ha.epochTxCount⟩

theorem Agree.not_advanced (ha : Agree s b) (hadv : ¬ Sequencer.Advances d s) :
    Agree (s.advanced env maxBytes d) b := by
  unfold Sequencer.advanced
  simp only [if_neg hadv]
  exact ⟨ha.retriever, ha.daHeight, ha.checkpointHeight, ha.txIndex, ha.cachedTxs, ha.daEndTime,
    ha.epochTxCount⟩

omit [Transaction Tx] in
theorem Agree.save (ha : Agree s b) (store store' : Option (Checkpoint Tx)) :
    Agree { s with checkpointStore := store } { b with checkpointStore := store' } :=
  ⟨ha.retriever, ha.daHeight, ha.checkpointHeight, ha.txIndex, ha.cachedTxs, ha.daEndTime,
    ha.epochTxCount⟩

/-- From the same position both answer with the same batch, or both have none. -/
theorem answer_agree {txIndex : Nat} {b' : BasedSequencer Tx} (ha : Agree s b)
    (hcatch : s.catchUpState = .inProgress) (htime : b'.currentDAEndTime = s.currentDAEndTime)
    (hcount : b'.currentEpochTxCount = s.currentEpochTxCount)
    (hidx : txIndex = s.txIndexForTimestamp env maxBytes d) :
    b.answer env maxBytes txIndex b' =
      (if s.batchTxs env maxBytes = [] then .error .noBatch
        else .ok (s.response env maxBytes d), b') := by
  have hts : s.catchUpState = .inProgress ∨ (s.selection env maxBytes).consumed ≠ [] := .inl hcatch
  unfold BasedSequencer.answer Sequencer.response Sequencer.batchTimestamp
  rw [(selection_agree ha hcatch).2, htime, hcount, hidx, if_pos hts]
  split <;> rfl

omit [Transaction Tx] in
theorem afterFetch_of_advances (ha : Agree s b) (hadv : Sequencer.Advances d s) :
    b.afterFetch env maxBytes d =
      let b' := b.advanceCheckpoint d (b.processed env maxBytes).2
      match env.save with
      | .ok => b.answer env maxBytes
          (b.checkpoint.txIndex + (b.processed env maxBytes).2.length)
          { b' with checkpointStore := some b'.checkpoint }
      | .fail => (.error (.text "failed to save checkpoint"), b')
      | .crash => (.crash, b') := by
  have hcond : 0 < d ∨ s.remainingForcedTxs ≠ [] := hadv
  unfold BasedSequencer.afterFetch
  cases env.save <;> simp only [remainingForcedTxs_agree ha, hcond, if_true]

omit [Transaction Tx] in
theorem BasedSequencer.advanceCheckpoint_times (d : Nat) (consumed : List (Tx × FilterStatus))
    (b : BasedSequencer Tx) :
    (b.advanceCheckpoint d consumed).currentDAEndTime = b.currentDAEndTime ∧
      (b.advanceCheckpoint d consumed).currentEpochTxCount = b.currentEpochTxCount := by
  unfold BasedSequencer.advanceCheckpoint
  dsimp only
  split <;> exact ⟨rfl, rfl⟩

/-- When nothing fails in the save, both answer alike from the same position. -/
theorem afterFetch_agree (ha : Agree s b) (hcatch : s.catchUpState = .inProgress)
    (hsave : Sequencer.Advances d s → env.save = .ok) :
    ∃ b2, b.afterFetch env maxBytes d =
        (if s.batchTxs env maxBytes = [] then .error .noBatch
          else .ok (s.response env maxBytes d), b2) ∧
      Agree (s.saved env maxBytes d) b2 := by
  by_cases hadv : Sequencer.Advances d s
  · obtain ⟨htime, hcount⟩ :=
      BasedSequencer.advanceCheckpoint_times d (b.processed env maxBytes).2 b
    rw [afterFetch_of_advances ha hadv, hsave hadv]
    refine ⟨_, answer_agree ha hcatch (htime.trans ha.daEndTime) (hcount.trans ha.epochTxCount) ?_,
      ?_⟩
    · unfold Sequencer.txIndexForTimestamp
      rw [if_pos hadv, (selection_agree ha hcatch).1, ha.txIndex]
    · unfold Sequencer.saved
      simp only [if_pos hadv]
      exact (advanced_agree ha hcatch hadv).save _ _
  · have hcond : ¬ (0 < d ∨ s.remainingForcedTxs ≠ []) := hadv
    refine ⟨b, ?_, ?_⟩
    · unfold BasedSequencer.afterFetch
      dsimp only
      rw [remainingForcedTxs_agree ha, if_neg hcond]
      refine answer_agree ha hcatch ha.daEndTime ha.epochTxCount ?_
      unfold Sequencer.txIndexForTimestamp
      rw [if_neg hadv]
    · unfold Sequencer.saved
      simp only [if_neg hadv]
      exact ha.not_advanced hadv

theorem daHeight_advanced_pos (h : 0 < s.daHeight) :
    0 < (s.advanced env maxBytes d).daHeight := by
  unfold Sequencer.advanced
  dsimp only
  split
  · unfold Sequencer.advanceCheckpoint
    dsimp only
    split
    · exact Nat.succ_pos d
    · exact h
  · exact h

end OneCall

/-- The two sequencers in lock step; `q` and `id` are the queue and the id at the start. -/
structure InStep (q : BatchQueue Tx) (id : String) (s : Sequencer Tx) (b : BasedSequencer Tx) :
    Prop where
  agree : Agree s b
  catchingUp : s.catchUpState = .inProgress
  daHeight_pos : 0 < s.daHeight
  inv : Sequencer.CatchUpInv s
  queue_eq : s.queue = q
  id_eq : s.id = id

theorem fetch_of_stuck {env : BatchEnv Tx} {view : ChainView Tx} {maxBytes d : Nat}
    {s s1 : Sequencer Tx} (hstuck : s.Stuck) (hpos : 0 < s.daHeight)
    (hns : s.fiRetriever.hasForcedInclusionNamespace = true) :
    Sequencer.fetchIfConsumed env view maxBytes s ≠ (.ok d, s1) := by
  intro hf
  have hc := Sequencer.fetchIfConsumed_cases env view maxBytes s
  have hret := retrieve_cases s.fiRetriever env.da s.checkpoint.daHeight
  have hlt := hstuck.1
  rw [hf] at hc
  cases hc with
  | cached h => exact h ⟨hpos, hstuck.2⟩
  | future e h hr he =>
    rw [hr] at hret
    cases hret with
    | notConfigured hns' =>
      rw [hns] at hns'
      cases hns'
    | beforeStart _ _ => cases he
    | future _ hend _ => exact absurd hend.1 (by omega)
  | notConfigured e h hr he hn =>
    rw [hr] at hret
    cases hret with
    | notConfigured hns' =>
      rw [hns] at hns'
      cases hns'
    | beforeStart _ _ => cases hn
    | future _ hend _ => exact absurd hend.1 (by omega)
  | fetched event h hr =>
    rw [hr] at hret
    cases hret with
    | notEnd _ hle _ => omega
    | failed _ _ hend _ _ | complete _ _ hend _ => exact absurd hend.1 (by omega)

theorem InStep.after {q : BatchQueue Tx} {id : String} {env : BatchEnv Tx} {maxBytes d : Nat}
    {s1 s2 : Sequencer Tx} {b2 : BasedSequencer Tx} (hcatch : s1.catchUpState = .inProgress)
    (hpos : 0 < s1.daHeight) (hq : s1.queue = q) (hid : s1.id = id)
    (hquiet : Sequencer.QueueQuiet s1.queue) (hagree : Agree s2 b2)
    (hs2 : ∃ store, s2 = { s1.advanced env maxBytes d with checkpointStore := store })
    (hinv : Sequencer.CatchUpInv s2) : InStep q id s2 b2 := by
  obtain ⟨store, rfl⟩ := hs2
  obtain ⟨cp, cached, h, heq⟩ := Sequencer.advanced_eq env maxBytes d s1
  refine ⟨hagree, ?_, daHeight_advanced_pos hpos, hinv, ?_, ?_⟩
  · simp only [heq]
    exact hcatch
  · simp only [heq]
    rw [Sequencer.queueAfter_of_catchUp hcatch, Sequencer.setPostponed_nil hquiet]
    exact hq
  · simp only [heq]
    exact hid

/-- **One call.** Both answer alike and stay in step, unless the DA head is reached. -/
theorem getNextBatch_agree {q : BatchQueue Tx} {id : String} {s : Sequencer Tx}
    {b : BasedSequencer Tx} (h : InStep q id s b) (env : BatchEnv Tx) (view : ChainView Tx)
    (maxBytes : Nat) (hfut : ¬ HitsFuture s env) :
    (Sequencer.getNextBatch env view ⟨id, maxBytes⟩ s).1 =
        (BasedSequencer.getNextBatch env ⟨id, maxBytes⟩ b).1 ∧
      InStep q id (Sequencer.getNextBatch env view ⟨id, maxBytes⟩ s).2
        (BasedSequencer.getNextBatch env ⟨id, maxBytes⟩ b).2 := by
  obtain ⟨hpos, hns, hquiet⟩ := h.inv h.catchingUp
  have hinv' := Sequencer.catchUpInv_getNextBatch h.inv env view ⟨id, maxBytes⟩
  have hinit : Sequencer.initCheckpoint view s = s := Sequencer.initCheckpoint_of_pos hpos
  have hc := Sequencer.getNextBatch_cases env view ⟨id, maxBytes⟩ s
  generalize Sequencer.getNextBatch env view ⟨id, maxBytes⟩ s = r at hc hinv' ⊢
  have hid' : s.id = id := h.id_eq
  have hfetch := @fetch_agree Tx _ env view maxBytes s b h.agree h.catchingUp hns hfut
  rcases hfetch with ⟨e, hfs, hfb⟩ | ⟨d, s1, b1, hfs, hfb, ha1, hc1, hq1, hid1, hd1⟩
  · -- both fail in the fetch
    have hb : BasedSequencer.getNextBatch env ⟨id, maxBytes⟩ b = (.error e, b) := by
      unfold BasedSequencer.getNextBatch
      rw [bind_run_error hfb]
    rw [hb]
    cases hc with
    | invalidId hid => exact absurd hid' hid
    | fetchFailed e' s1 hid hf =>
      rw [hinit, hfs] at hf
      cases hf
      exact ⟨rfl, h⟩
    | drainCrash d s1 hid hf _ | saveFailed d s1 hid hf _ _ | saveCrash d s1 hid hf _ _
    | noBatch d s1 hid hf _ _ | batch d s1 hid hf _ _ =>
      rw [hinit, hfs] at hf
      cases hf
  · have hquiet1 : Sequencer.QueueQuiet s1.queue := by
      rw [hq1]
      rcases hquiet with hquiet | hstuck
      · exact hquiet
      · exact absurd hfs (fetch_of_stuck hstuck h.daHeight_pos hns)
    have hpos1 : 0 < s1.daHeight := by
      rw [hd1]
      exact h.daHeight_pos
    have hafter : ∀ {s2 : Sequencer Tx} {b2 : BasedSequencer Tx}, Agree s2 b2 →
        (∃ store, s2 = { s1.advanced env maxBytes d with checkpointStore := store }) →
        Sequencer.CatchUpInv s2 → InStep q id s2 b2 :=
      InStep.after hc1 hpos1 (hq1.trans h.queue_eq) (hid1.trans h.id_eq) hquiet1
    have hanswer := @afterFetch_agree Tx _ env maxBytes d s1 b1 ha1 hc1
    rw [BasedSequencer.getNextBatch_of_fetch ⟨id, maxBytes⟩ hfb]
    cases hc with
    | invalidId hid => exact absurd hid' hid
    | fetchFailed e' s1' hid hf =>
      rw [hinit, hfs] at hf
      cases hf
    | drainCrash d' s1' hid hf hcatch =>
      rw [hinit, hfs] at hf
      cases hf
      exact absurd hc1 hcatch
    | saveFailed d' s1' hid hf hadv hsave | saveCrash d' s1' hid hf hadv hsave =>
      rw [hinit, hfs] at hf
      cases hf
      rw [afterFetch_of_advances ha1 hadv, hsave]
      exact ⟨rfl, hafter (advanced_agree ha1 hc1 hadv) ⟨_, rfl⟩ hinv'⟩
    | noBatch d' s1' hid hf hsave hnone =>
      rw [hinit, hfs] at hf
      cases hf
      obtain ⟨b2, hb2, hagree⟩ := hanswer hsave
      rw [hb2, if_pos hnone.2]
      exact ⟨rfl, hafter hagree (Sequencer.saved_eq ..) hinv'⟩
    | batch d' s1' hid hf hsave hsome =>
      rw [hinit, hfs] at hf
      cases hf
      have hne : s1.batchTxs env maxBytes ≠ [] := fun hnil =>
        hsome ⟨decide_eq_true hc1, hnil⟩
      obtain ⟨b2, hb2, hagree⟩ := hanswer hsave
      rw [hb2, if_neg hne]
      exact ⟨rfl, hafter hagree (Sequencer.saved_eq ..) hinv'⟩

/-! ## Runs -/

/-- One call of both sequencers: the environment, the store the single one reads, `MaxBytes`. -/
structure Call (Tx : Type) where
  env : BatchEnv Tx
  view : ChainView Tx
  maxBytes : Nat

def Sequencer.answerCall (id : String) (s : Sequencer Tx) (c : Call Tx) :
    Exit Err (GetNextBatchResponse Tx) × Sequencer Tx :=
  Sequencer.getNextBatch c.env c.view ⟨id, c.maxBytes⟩ s

def BasedSequencer.answerCall (id : String) (b : BasedSequencer Tx) (c : Call Tx) :
    Exit Err (GetNextBatchResponse Tx) × BasedSequencer Tx :=
  BasedSequencer.getNextBatch c.env ⟨id, c.maxBytes⟩ b

/--
**Catch-up agrees with based sequencing.**

Take any reachable single sequencer that is catching up, and a based sequencer in the same
position. As long as no call reaches the DA head, both give the same answers, end at the same
checkpoint, and the queue of the single sequencer, with its WAL, is what it was.
-/
theorem catchUp_agrees_with_based (cfg : SequencerConfig) (s0 : Sequencer Tx)
    (ops : List (Sequencer.Op Tx)) (s : Sequencer Tx) (b : BasedSequencer Tx)
    (hreach : Run.exec (Sequencer.step cfg) ⟨false, s0⟩ ops = ⟨true, s⟩)
    (hcatch : s.catchUpState = .inProgress) (hpos : 0 < s.daHeight) (hagree : Agree s b)
    (calls : List (Call Tx))
    (hfuture : Run.Meets (fun t c => (Sequencer.answerCall s.id t c).2)
      (fun t c => ¬ HitsFuture t c.env) s calls) :
    Run.outputs (Sequencer.answerCall s.id) s calls =
        Run.outputs (BasedSequencer.answerCall s.id) b calls ∧
      (Run.final (Sequencer.answerCall s.id) s calls).checkpoint.daHeight =
        (Run.final (BasedSequencer.answerCall s.id) b calls).checkpoint.daHeight ∧
      (Run.final (Sequencer.answerCall s.id) s calls).checkpoint.txIndex =
        (Run.final (BasedSequencer.answerCall s.id) b calls).checkpoint.txIndex ∧
      (Run.final (Sequencer.answerCall s.id) s calls).queue = s.queue := by
  have hinv : Sequencer.CatchUpInv s := by
    have h := Sequencer.catchUpInv_reachable cfg ops s0
    rw [hreach] at h
    exact h.1 rfl
  have hstart : InStep s.queue s.id s b := ⟨hagree, hcatch, hpos, hinv, rfl, rfl⟩
  have hstep : ∀ t u c, InStep s.queue s.id t u → ¬ HitsFuture t c.env →
      (Sequencer.answerCall s.id t c).1 = (BasedSequencer.answerCall s.id u c).1 ∧
        InStep s.queue s.id (Sequencer.answerCall s.id t c).2
          (BasedSequencer.answerCall s.id u c).2 := fun t u c ht hc =>
    getNextBatch_agree ht c.env c.view c.maxBytes hc
  obtain ⟨hout, hend⟩ := Run.lockstep (InStep s.queue s.id) hstep calls s b hstart hfuture
  exact ⟨hout, hend.agree.checkpointHeight.symm, hend.agree.txIndex.symm, hend.queue_eq⟩

/-! ## A sequencer that starts behind the DA head -/

namespace CatchUpRun

def genesis : Genesis := ⟨"chain", 0, 1, [1], 10, 2, Nat.one_pos, Nat.two_pos⟩

def cfg : SequencerConfig := ⟨genesis, "chain", 0, true⟩

/-- Epochs of two heights from 10 on; the head is 15, and the first epoch has two blobs. -/
def env : BatchEnv RawTx where
  da := .ofBlocks 15 [(10, ⟨1000000000, [⟨1, 5⟩]⟩), (11, ⟨2000000000, [⟨2, 6⟩]⟩)]
  latestDAHeight := some 15
  executor := .acceptAll
  now := 9000000000
  rollbackDelete := .ok
  save := .ok

def view : ChainView RawTx := ⟨0, none, none, none, none⟩

def startEnv : Sequencer.StartEnv :=
  ⟨⟨.ok, fun _ => .ok, fun _ => .ok, fun _ => .ok⟩, .ok, fun _ => .ok, .ok⟩

def blank : Sequencer RawTx := .blank cfg ⟨.empty, [], []⟩ none

def ops : List (Sequencer.Op RawTx) :=
  [.start startEnv view, .getNextBatch env view ⟨"chain", 100⟩]

/-- The sequencer after its first call, which enters catch-up. -/
def seq : Sequencer RawTx := (Run.exec (Sequencer.step cfg) ⟨false, blank⟩ ops).state

/-- A based sequencer in the same position. -/
def based : BasedSequencer RawTx where
  fiRetriever := seq.fiRetriever
  daHeight := seq.daHeight
  checkpointStore := none
  checkpoint := seq.checkpoint
  currentBatchTxs := seq.cachedForcedInclusionTxs
  currentDAEndTime := seq.currentDAEndTime
  currentEpochTxCount := seq.currentEpochTxCount

def calls : List (Call RawTx) := [⟨env, view, 100⟩, ⟨env, view, 100⟩]

end CatchUpRun

open CatchUpRun in
/-- Two calls: the first takes the whole epoch, the second finds a height inside the next one. -/
theorem catchUp_agrees_with_based_two_calls :
    Run.outputs (Sequencer.answerCall "chain") seq calls =
        Run.outputs (BasedSequencer.answerCall "chain") based calls ∧
      Run.outputs (BasedSequencer.answerCall "chain") based calls =
        [.ok ⟨[⟨1, 5⟩, ⟨2, 6⟩], 2000000000⟩, .error .noBatch] ∧
      (Run.final (Sequencer.answerCall "chain") seq calls).queue = seq.queue := by
  have hreach : Run.exec (Sequencer.step cfg) ⟨false, blank⟩ ops = ⟨true, seq⟩ := by
    have hup : (Run.exec (Sequencer.step cfg) ⟨false, blank⟩ ops).up = true := by decide
    rw [← hup]
    rfl
  have hfuture : Run.Meets (fun t c => (Sequencer.answerCall seq.id t c).2)
      (fun t c => ¬ HitsFuture t c.env) seq calls := by
    refine ⟨?_, ?_, trivial⟩
    · rintro ⟨_, e, hr, he⟩
      have hok : (retrieveForcedIncludedTxs seq.fiRetriever env.da seq.checkpoint.daHeight).isOk =
        true := by decide
      have hr' : retrieveForcedIncludedTxs seq.fiRetriever env.da seq.checkpoint.daHeight =
        .error e := hr
      rw [hr'] at hok
      cases hok
    · rintro ⟨_, e, hr, he⟩
      have hok : (retrieveForcedIncludedTxs
          (Sequencer.answerCall seq.id seq ⟨env, view, 100⟩).2.fiRetriever env.da
          (Sequencer.answerCall seq.id seq ⟨env, view, 100⟩).2.checkpoint.daHeight).isOk =
        true := by decide
      have hr' : retrieveForcedIncludedTxs
          (Sequencer.answerCall seq.id seq ⟨env, view, 100⟩).2.fiRetriever env.da
          (Sequencer.answerCall seq.id seq ⟨env, view, 100⟩).2.checkpoint.daHeight =
        .error e := hr
      rw [hr'] at hok
      cases hok
  obtain ⟨hout, _, _, hqueue⟩ := catchUp_agrees_with_based cfg blank ops seq based hreach
    (by decide) (by decide) ⟨rfl, rfl, rfl, rfl, rfl, rfl, rfl⟩ calls hfuture
  exact ⟨hout, by decide, hqueue⟩

end EvNode
