import EvNode.Properties.CatchUpInv
import EvNode.Properties.QueueOnce

/-!
# One transaction in one `GetNextBatch`

The call rolls back what was in flight and drains again. `getNextBatch_redrawn` follows one
transaction that is not a forced one: it stays as often in the queue as it was, nothing on disk
changes, and if it is in the batch, then it is in flight and not postponed.
-/

namespace EvNode

open Crash Proc

variable {Tx : Type} [Transaction Tx] [DecidableEq Tx]

omit [Transaction Tx] in
theorem count_withStatus_le (t : Tx) (l : List (Tx × FilterStatus)) :
    (withStatus .ok l).count t + (withStatus .postpone l).count t ≤ (l.map Prod.fst).count t := by
  induction l with
  | nil => exact Nat.le_refl _
  | cons x rest ih =>
    obtain ⟨tx, status⟩ := x
    unfold withStatus at ih ⊢
    cases status <;> simp [List.count_cons] <;> omega

/-- `t` is not a blob of the forced-inclusion namespace. -/
def DAAnswers.Without (t : Tx) (da : DAAnswers Tx) : Prop := ∀ h, t ∉ da.txsAt h

/-- The queue after a call that started with the queue `q`. -/
structure BatchQueue.Redrawn (t : Tx) (q q' : BatchQueue Tx) : Prop where
  heldOnce : q'.HeldOnce t
  item : q'.postponedItem = none
  db : q'.db = q.db
  count : q'.waitingTxs.count t + q'.flyingTxs.count t = q.waitingTxs.count t + q.flyingTxs.count t

namespace Sequencer

variable {t : Tx} {s s1 : Sequencer Tx}

/-! ## The forced part -/

variable {env : BatchEnv Tx} {maxBytes : Nat}

omit [DecidableEq Tx] in
theorem cached_of_fetch (hda : env.da.Without t) {view : ChainView Tx} {r : Exit Err Nat} (h : t ∉ s.cachedForcedInclusionTxs)
    (hf : fetchIfConsumed env view maxBytes s = (r, s1)) : t ∉ s1.cachedForcedInclusionTxs := by
  have hc := fetchIfConsumed_cases env view maxBytes s
  obtain ⟨state, time, hu⟩ := updateCatchUpState_eq env view s
  rw [hf] at hc
  cases hc with
  | cached _ => exact h
  | future e _ _ _ =>
    rw [hu]
    unfold leaveCatchUp
    split <;> exact h
  | notConfigured e _ _ _ _ => exact List.not_mem_nil
  | failed e _ _ _ _ =>
    rw [hu]
    exact h
  | fetched event _ hr =>
    have hevent : t ∉ event.txs := by
      have hcase := retrieve_cases s.fiRetriever env.da s.checkpoint.daHeight
      rw [hr] at hcase
      cases hcase with
      | notEnd _ _ _ | failed _ _ _ _ _ => exact List.not_mem_nil
      | complete _ _ _ _ =>
        intro hmem
        obtain ⟨k, _, hk⟩ := List.mem_flatMap.mp hmem
        exact hda k hk
    intro hmem
    exact hevent (List.mem_of_mem_filter hmem)

omit [DecidableEq Tx] in
theorem cached_advanced {d : Nat}
    (h : t ∉ s.cachedForcedInclusionTxs) :
    t ∉ (s.advanced env maxBytes d).cachedForcedInclusionTxs := by
  unfold advanced advanceCheckpoint
  dsimp only
  split
  · split
    · exact List.not_mem_nil
    · exact h
  · exact h

omit [DecidableEq Tx] in
/-- A transaction of the batch that is not cached comes from the mempool. -/
theorem mem_validMempoolTxs
    (h : t ∉ s.cachedForcedInclusionTxs) (ht : t ∈ s.batchTxs env maxBytes) :
    t ∈ (s.selection env maxBytes).validMempoolTxs := by
  rcases List.mem_append.mp ht with hforced | hmempool
  · have hvalid : t ∈ withStatus .ok (s.selection env maxBytes).consumed := by
      unfold selection at hforced ⊢
      dsimp only at hforced ⊢
      rw [selectTxs_validForcedTxs (length_filterStatuses ..),
        BasedSequencer.valid_eq_filter] at hforced
      rw [selectTxs_consumed (length_filterStatuses ..)]
      exact hforced
    rw [mem_withStatus] at hvalid
    unfold selection at hvalid
    dsimp only at hvalid
    rw [selectTxs_consumed (length_filterStatuses ..),
      BasedSequencer.consumed_eq_takeWhile] at hvalid
    have hzip := (List.takeWhile_sublist _).subset hvalid
    exact absurd (List.mem_of_mem_drop (List.of_mem_zip hzip).1) h
  · exact hmempool

/-! ## The mempool part -/

theorem queueAfter_redrawn (env : BatchEnv Tx) (maxBytes : Nat) (h : s.queue.HeldOnce t)
    (hitem : s.queue.postponedItem = none) :
    s.queue.Redrawn t (s.queueAfter env maxBytes) ∧
      (t ∈ (s.selection env maxBytes).validMempoolTxs →
        t ∈ (s.queueAfter env maxBytes).flyingTxs ∧
          t ∉ (s.queueAfter env maxBytes).inFlightPostponed) := by
  by_cases hcatch : s.catchUpState = .inProgress
  · rw [queueAfter_of_catchUp hcatch, BatchQueue.setPostponed_of_none hitem]
    refine ⟨⟨⟨h.once, h.covered, Nat.zero_le _, fun i hi => ?_⟩, hitem, rfl, rfl⟩, fun ht => ?_⟩
    · exact absurd (hitem.symm.trans hi) (by simp)
    · unfold selection at ht
      rw [mempoolTxs_of_catchUp hcatch] at ht
      dsimp only at ht
      rw [selectTxs_validMempoolTxs (length_filterStatuses ..)] at ht
      exact absurd ht List.not_mem_nil
  · obtain ⟨k, _, _, hnone, hdb, htxs⟩ :=
      BatchQueue.drained_eq (q := s.queue) env.rollbackDelete maxBytes hitem
    have hmempool : s.mempoolTxs env maxBytes =
        (s.queue.drained env.rollbackDelete maxBytes).flyingTxs := by
      unfold mempoolTxs
      rw [if_pos hcatch, htxs]
    have hafter : s.queueAfter env maxBytes =
        (s.queue.drained env.rollbackDelete maxBytes).setPostponed
          (s.selection env maxBytes).postponedMempoolTxs := by
      unfold queueAfter
      rw [if_pos hcatch]
    -- what the filter takes and what it postpones are parts of the drained transactions
    have hcount : (s.selection env maxBytes).validMempoolTxs.count t +
        (s.selection env maxBytes).postponedMempoolTxs.count t ≤
          (s.queue.drained env.rollbackDelete maxBytes).flyingTxs.count t := by
      unfold selection
      dsimp only
      rw [selectTxs_validMempoolTxs (length_filterStatuses ..),
        selectTxs_postponedMempoolTxs (length_filterStatuses ..), ← hmempool]
      refine (count_withStatus_le t _).trans (List.Sublist.count_le t ?_)
      rw [List.map_fst_zip]
      rw [List.length_drop, length_filterStatuses, List.length_append]
      omega
    obtain ⟨hheld, hsum⟩ := h.drained env.rollbackDelete maxBytes hitem
      ((Nat.le_add_left _ _).trans hcount)
    have hset := BatchQueue.setPostponed_of_none hnone
      (s.selection env maxBytes).postponedMempoolTxs
    rw [hafter]
    refine ⟨⟨hheld, ?_, ?_, ?_⟩, fun ht => ?_⟩
    · rw [hset]
      exact hnone
    · rw [hset]
      exact hdb
    · rw [hset]
      exact hsum
    · have hpos := List.count_pos_iff.mpr ht
      have hone := h.once
      have hflying : 0 < (s.queue.drained env.rollbackDelete maxBytes).flyingTxs.count t := by omega
      have hpostponed : (s.selection env maxBytes).postponedMempoolTxs.count t = 0 := by omega
      rw [hset]
      exact ⟨List.count_pos_iff.mp hflying, List.count_eq_zero.mp hpostponed⟩

theorem getNextBatch_redrawn (hda : env.da.Without t) (view : ChainView Tx)
    (req : GetNextBatchRequest) (h : s.queue.HeldOnce t) (hitem : s.queue.postponedItem = none)
    (hcached : t ∉ s.cachedForcedInclusionTxs) :
    wp (getNextBatch env view req)
      (fun batch s' => s.queue.Redrawn t s'.queue ∧ t ∉ s'.cachedForcedInclusionTxs ∧
        (t ∈ batch.batch → t ∈ s'.queue.flyingTxs ∧ t ∉ s'.queue.inFlightPostponed))
      (fun _ s' => s.queue.Redrawn t s'.queue ∧ t ∉ s'.cachedForcedInclusionTxs)
      (fun s' => s'.queue.db = s.queue.db) s := by
  have hsame : s.queue.Redrawn t s.queue := ⟨h, hitem, rfl, rfl⟩
  have hinit : (initCheckpoint view s).queue = s.queue ∧
      (initCheckpoint view s).cachedForcedInclusionTxs = s.cachedForcedInclusionTxs := by
    unfold initCheckpoint
    split <;> exact ⟨rfl, rfl⟩
  have hfetch : ∀ {r1 s1}, fetchIfConsumed env view req.maxBytes (initCheckpoint view s) =
      (r1, s1) → s1.queue = s.queue ∧ t ∉ s1.cachedForcedInclusionTxs := by
    intro r1 s1 hf
    refine ⟨?_, cached_of_fetch hda (by rw [hinit.2]; exact hcached) hf⟩
    obtain ⟨_, _, _, _, rfl⟩ := fetchIfConsumed_eq hf
    exact hinit.1
  have hdraw : ∀ {s1 : Sequencer Tx} (d : Nat), s1.queue = s.queue →
      s.queue.Redrawn t (s1.advanced env req.maxBytes d).queue ∧
        (t ∈ (s1.selection env req.maxBytes).validMempoolTxs →
          t ∈ (s1.advanced env req.maxBytes d).queue.flyingTxs ∧
            t ∉ (s1.advanced env req.maxBytes d).queue.inFlightPostponed) := by
    intro s1 d hq
    obtain ⟨_, _, _, hadv⟩ := advanced_eq env req.maxBytes d s1
    rw [hadv, ← hq]
    exact queueAfter_redrawn env req.maxBytes (by rw [hq]; exact h) (by rw [hq]; exact hitem)
  have hc := getNextBatch_cases env view req s
  unfold wp
  generalize getNextBatch env view req s = r at hc
  cases hc with
  | invalidId _ => exact ⟨hsame, hcached⟩
  | fetchFailed e s1 _ hf =>
    obtain ⟨hq, hc1⟩ := hfetch hf
    exact ⟨by rw [hq]; exact hsame, hc1⟩
  | drainCrash d s1 _ hf _ =>
    show s1.queue.db = s.queue.db
    rw [(hfetch hf).1]
  | saveFailed d s1 _ hf _ _ =>
    obtain ⟨hq, hc1⟩ := hfetch hf
    exact ⟨(hdraw d hq).1, cached_advanced hc1⟩
  | saveCrash d s1 _ hf _ _ => exact (hdraw d (hfetch hf).1).1.db
  | noBatch d s1 _ hf _ _ =>
    obtain ⟨hq, hc1⟩ := hfetch hf
    obtain ⟨store, hsaved⟩ := saved_eq env req.maxBytes d s1
    dsimp only
    rw [hsaved]
    exact ⟨(hdraw d hq).1, cached_advanced hc1⟩
  | batch d s1 _ hf _ _ =>
    obtain ⟨hq, hc1⟩ := hfetch hf
    obtain ⟨store, hsaved⟩ := saved_eq env req.maxBytes d s1
    obtain ⟨hredrawn, hvalid⟩ := hdraw d hq
    dsimp only
    rw [hsaved]
    exact ⟨hredrawn, cached_advanced hc1, fun ht => hvalid (mem_validMempoolTxs hc1 ht)⟩

end Sequencer

end EvNode
