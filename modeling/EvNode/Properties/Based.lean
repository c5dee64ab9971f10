import EvNode.Properties.Selection

/-!
# Everything one `GetNextBatch` of the based sequencer can do

The fetch fails, finds the DA head, is not needed, or caches an epoch; after it the call is
`afterFetch`.
-/

namespace EvNode

open Crash Proc

variable {Tx : Type} [Transaction Tx]

namespace BasedSequencer

/-! ## The fetch -/

theorem fetchIfConsumed_cases (env : BatchEnv Tx) (maxBytes : Nat) (b : BasedSequencer Tx) :
    (∃ e, (0 < b.daHeight ∧ b.currentBatchTxs.length ≤ b.checkpoint.txIndex) ∧
        fetchIfConsumed env maxBytes b = (.error e, b)) ∨
      ((0 < b.daHeight ∧ b.currentBatchTxs.length ≤ b.checkpoint.txIndex) ∧
        fetchIfConsumed env maxBytes b = (.ok 0, b)) ∨
      (¬ (0 < b.daHeight ∧ b.currentBatchTxs.length ≤ b.checkpoint.txIndex) ∧
        fetchIfConsumed env maxBytes b = (.ok b.daHeight, b)) ∨
      ∃ event, (0 < b.daHeight ∧ b.currentBatchTxs.length ≤ b.checkpoint.txIndex) ∧
        retrieveForcedIncludedTxs b.fiRetriever env.da b.checkpoint.daHeight = .ok event ∧
        fetchIfConsumed env maxBytes b = (.ok event.endDaHeight, b.cacheEpoch maxBytes event) := by
  unfold fetchIfConsumed
  rw [get_bind_run]
  by_cases h : 0 < b.daHeight ∧ b.currentBatchTxs.length ≤ b.checkpoint.txIndex
  · rw [if_pos h]
    unfold fetchNextDAEpoch
    rw [get_bind_run]
    cases hr : retrieveForcedIncludedTxs b.fiRetriever env.da b.checkpoint.daHeight with
    | ok event => exact .inr (.inr (.inr ⟨event, h, rfl, rfl⟩))
    | error e =>
      dsimp only
      split
      · exact .inl ⟨_, h, rfl⟩
      · split
        · exact .inr (.inl ⟨h, rfl⟩)
        · exact .inl ⟨_, h, rfl⟩
  · rw [if_neg h]
    exact .inr (.inr (.inl ⟨h, rfl⟩))

/-! ## After the fetch -/

section AfterFetch

variable (env : BatchEnv Tx) (maxBytes daHeight : Nat) (b : BasedSequencer Tx)

/-- The valid and the consumed transactions of the batch. -/
def processed : List Tx × List (Tx × FilterStatus) :=
  let batchTxs := b.currentBatchTxs.drop b.checkpoint.txIndex
  processStatuses (batchTxs.zip (filterStatuses env.executor batchTxs maxBytes true))

/-- The answer from the sequencer `b'` after the checkpoint is saved. -/
def answer (txIndex : Nat) (b' : BasedSequencer Tx) :
    Exit Err (GetNextBatchResponse Tx) × BasedSequencer Tx :=
  if (b.processed env maxBytes).1 = [] then (.error .noBatch, b')
  else (.ok ⟨(b.processed env maxBytes).1,
    epochTimestamp b'.currentDAEndTime b'.currentEpochTxCount txIndex⟩, b')

def afterFetch : Exit Err (GetNextBatchResponse Tx) × BasedSequencer Tx :=
  let b' := b.advanceCheckpoint daHeight (b.processed env maxBytes).2
  if 0 < daHeight ∨ b.currentBatchTxs.drop b.checkpoint.txIndex ≠ [] then
    match env.save with
    | .ok => b.answer env maxBytes
        (b.checkpoint.txIndex + (b.processed env maxBytes).2.length)
        { b' with checkpointStore := some b'.checkpoint }
    | .fail => (.error (.text "failed to save checkpoint"), b')
    | .crash => (.crash, b')
  else b.answer env maxBytes 0 b

end AfterFetch

theorem getNextBatch_of_fetch {env : BatchEnv Tx} (req : GetNextBatchRequest) {d : Nat}
    {b b1 : BasedSequencer Tx} (hf : fetchIfConsumed env req.maxBytes b = (.ok d, b1)) :
    getNextBatch env req b = b1.afterFetch env req.maxBytes d := by
  have hanswer : ∀ (txIndex : Nat) (b' : BasedSequencer Tx), (do
      let s ← get
      require (!(b1.processed env req.maxBytes).1.isEmpty) .noBatch
      pure (⟨(b1.processed env req.maxBytes).1,
        epochTimestamp s.currentDAEndTime s.currentEpochTxCount txIndex⟩ :
          GetNextBatchResponse Tx) : Proc (BasedSequencer Tx) Err (GetNextBatchResponse Tx)) b' =
        b1.answer env req.maxBytes txIndex b' := by
    intro txIndex b'
    unfold answer
    cases (b1.processed env req.maxBytes).1 with
    | nil | cons tx txs => rfl
  unfold getNextBatch
  rw [bind_run_ok hf, get_bind_run]
  show (saveCheckpoint env d (b1.currentBatchTxs.drop b1.checkpoint.txIndex)
      (b1.processed env req.maxBytes).2 >>= fun txIndex => do
        let s ← get
        require (!(b1.processed env req.maxBytes).1.isEmpty) .noBatch
        pure (⟨(b1.processed env req.maxBytes).1,
          epochTimestamp s.currentDAEndTime s.currentEpochTxCount txIndex⟩ :
            GetNextBatchResponse Tx)) b1 = _
  unfold saveCheckpoint afterFetch
  dsimp only
  by_cases hadv : 0 < d ∨ b1.currentBatchTxs.drop b1.checkpoint.txIndex ≠ []
  · rw [if_pos hadv]
    cases hsave : env.save with
    | ok =>
      simp only [if_pos hadv]
      exact hanswer _ _
    | fail | crash =>
      simp only [if_pos hadv]
      rfl
  · rw [if_neg hadv]
    simp only [if_neg hadv]
    exact hanswer _ _

omit [Transaction Tx] in
theorem answer_state (env : BatchEnv Tx) (maxBytes txIndex : Nat) (b b' : BasedSequencer Tx) :
    (b.answer env maxBytes txIndex b').2 = b' := by
  unfold answer
  split <;> rfl

omit [Transaction Tx] in
/-- The state after the call: the checkpoint is advanced, and saved or not, or nothing is done. -/
theorem afterFetch_state (env : BatchEnv Tx) (maxBytes d : Nat) (b : BasedSequencer Tx) :
    ((0 < d ∨ b.currentBatchTxs.drop b.checkpoint.txIndex ≠ []) ∧
        ∃ store, (b.afterFetch env maxBytes d).2 =
          { b.advanceCheckpoint d (b.processed env maxBytes).2 with checkpointStore := store }) ∨
      (¬ (0 < d ∨ b.currentBatchTxs.drop b.checkpoint.txIndex ≠ []) ∧
        (b.afterFetch env maxBytes d).2 = b) := by
  unfold afterFetch
  by_cases h : 0 < d ∨ b.currentBatchTxs.drop b.checkpoint.txIndex ≠ []
  · left
    refine ⟨h, ?_⟩
    simp only [if_pos h]
    cases env.save with
    | ok =>
      rw [answer_state]
      exact ⟨_, rfl⟩
    | fail | crash =>
      exact ⟨(b.advanceCheckpoint d (b.processed env maxBytes).2).checkpointStore, rfl⟩
  · right
    refine ⟨h, ?_⟩
    simp only [if_neg h]
    exact answer_state ..

end BasedSequencer

end EvNode
