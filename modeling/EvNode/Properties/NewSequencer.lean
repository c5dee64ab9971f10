import EvNode.Sequencer.Single

/-!
# A sequencer that has just started

`newSequencer_spec`: apart from the queue, a started sequencer is determined by the configuration,
the saved checkpoint and the stored DA height. The saved checkpoint survives every start.
-/

namespace EvNode

open Crash Proc

variable {Tx : Type}

namespace Sequencer

def started (cfg : SequencerConfig) (view : ChainView Tx) (db : Wal Tx)
    (store : Option (Checkpoint Tx)) (q : BatchQueue Tx) : Sequencer Tx :=
  startRetriever view { blank cfg db store with
    queue := q
    checkpoint := store.getD ⟨cfg.genesis.daStartHeight, 0, []⟩ }

theorem wp_onQueue {α : Type} (p : Proc (BatchQueue Tx) Err α) (s : Sequencer Tx) :
    wp (onQueue p) (fun _ s' => ∃ q, s' = { s with queue := q })
      (fun _ s' => ∃ q, s' = { s with queue := q }) (fun s' => ∃ q, s' = { s with queue := q }) s :=
  by
  unfold onQueue
  rw [wp_zoom]
  unfold wp
  rcases p s.queue with ⟨r, q⟩
  cases r with
  | ok a | error e | crash => exact ⟨q, rfl⟩

variable [Transaction Tx]

theorem wp_reconcileQueueWithLastBlock (env : StartEnv) (view : ChainView Tx) (s : Sequencer Tx) :
    wp (reconcileQueueWithLastBlock env view) (fun _ s' => ∃ q, s' = { s with queue := q })
      (fun _ s' => ∃ q, s' = { s with queue := q }) (fun s' => ∃ q, s' = { s with queue := q })
      s := by
  unfold reconcileQueueWithLastBlock
  rw [wp_bind, wp_get]
  by_cases hsize : s.queue.size = 0
  · rw [if_pos hsize]
    exact ⟨s.queue, rfl⟩
  · rw [if_neg hsize, wp_bind, wp_io]
    refine ⟨fun _ => ?_, fun _ => ⟨s.queue, rfl⟩, fun _ => ⟨s.queue, rfl⟩⟩
    by_cases hheight : view.height = 0
    · rw [if_pos hheight]
      exact ⟨s.queue, rfl⟩
    · rw [if_neg hheight]
      split
      · exact ⟨s.queue, rfl⟩
      · exact ⟨s.queue, rfl⟩
      · exact wp_onQueue _ s

/-- **Start.** -/
theorem newSequencer_spec (cfg : SequencerConfig) (env : StartEnv) (view : ChainView Tx)
    (s : Sequencer Tx) :
    wp (newSequencer cfg env view)
      (fun _ s' => ∃ q, s' = started cfg view s.queue.db s.checkpointStore q)
      (fun _ s' => s'.checkpointStore = s.checkpointStore)
      (fun s' => s'.checkpointStore = s.checkpointStore) s := by
  unfold newSequencer
  rw [wp_bind, wp_modify, wp_bind, wp_mapError]
  refine wp_mono (wp_onQueue _ _) ?_ ?_ ?_
  · rintro _ s1 ⟨q1, rfl⟩
    rw [wp_bind, wp_mapError]
    refine wp_mono (wp_reconcileQueueWithLastBlock env view _) ?_ ?_ ?_
    · rintro _ s2 ⟨q2, rfl⟩
      rw [wp_bind, wp_io]
      refine ⟨fun _ => ?_, fun _ => rfl, fun _ => rfl⟩
      rw [wp_modify]
      exact ⟨q2, rfl⟩
    · rintro _ s2 ⟨q2, rfl⟩
      rfl
    · rintro s2 ⟨q2, rfl⟩
      rfl
  · rintro _ s1 ⟨q1, rfl⟩
    rfl
  · rintro s1 ⟨q1, rfl⟩
    rfl

/-! ## Submitting -/

theorem submitBatchTxs_state (put : Outcome) (req : SubmitBatchTxsRequest Tx) (s : Sequencer Tx) :
    (submitBatchTxs put req s).2 = s ∨
      (submitBatchTxs put req s).2 = (onQueue (BatchQueue.addBatch put req.batch) s).2 := by
  unfold submitBatchTxs
  rw [get_bind_run]
  by_cases hid : s.id = req.id
  · have hreq : (require (decide (s.id = req.id)) Err.invalidId :
        Proc (Sequencer Tx) Err Unit) s = (.ok (), s) := by
      unfold require
      rw [if_pos (decide_eq_true hid)]
    rw [bind_run_ok hreq]
    by_cases hb : req.batch = []
    · rw [if_pos hb]
      exact .inl rfl
    · rw [if_neg hb]
      right
      unfold mapError
      rcases onQueue (BatchQueue.addBatch put req.batch) s with ⟨r, s'⟩
      cases r <;> rfl
  · have hreq : (require (decide (s.id = req.id)) Err.invalidId :
        Proc (Sequencer Tx) Err Unit) s = (.error .invalidId, s) := by
      unfold require
      rw [if_neg (by simpa using hid)]
    rw [bind_run_error hreq]
    exact .inl rfl

theorem submitBatchTxs_queue (put : Outcome) (req : SubmitBatchTxsRequest Tx) (s : Sequencer Tx) :
    ∃ q, (submitBatchTxs put req s).2 = { s with queue := q } := by
  rcases submitBatchTxs_state put req s with hs | hs
  · exact ⟨s.queue, hs⟩
  · exact ⟨_, hs⟩

end Sequencer

end EvNode
