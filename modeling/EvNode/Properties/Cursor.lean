import EvNode.Properties.Based
import EvNode.Properties.GetNextBatch
import EvNode.Properties.Retriever

/-!
# The forced-inclusion cursor

What the two sequencers have in common is a cursor over the DA heights: the retriever, the DA
height, the checkpoint and the cached epoch. `Cursor.Call` is what one `GetNextBatch` may do to it,
whatever the sequencer does besides.

* `Sequencer.getNextBatch_call`, `BasedSequencer.getNextBatch_call` — both sequencers move the
  cursor in this way
-/

namespace EvNode

open Crash Proc

variable {Tx : Type}

structure Cursor (Tx : Type) where
  retriever : ForcedInclusionRetriever
  daHeight : Nat
  checkpoint : Checkpoint Tx
  cached : List Tx

def Sequencer.cursor (s : Sequencer Tx) : Cursor Tx :=
  ⟨s.fiRetriever, s.daHeight, s.checkpoint, s.cachedForcedInclusionTxs⟩

def BasedSequencer.cursor (b : BasedSequencer Tx) : Cursor Tx :=
  ⟨b.fiRetriever, b.daHeight, b.checkpoint, b.currentBatchTxs⟩

namespace Cursor

/-- The next call fetches an epoch. -/
def Fetches (c : Cursor Tx) : Prop :=
  0 < c.daHeight ∧ c.cached.length ≤ c.checkpoint.txIndex

instance (c : Cursor Tx) : Decidable c.Fetches :=
  inferInstanceAs (Decidable (0 < c.daHeight ∧ c.cached.length ≤ c.checkpoint.txIndex))

def remaining (c : Cursor Tx) : List Tx := c.cached.drop c.checkpoint.txIndex

/-- Pass `consumed`, and leave the epoch for height `d + 1` with its last transaction. -/
def advance (d : Nat) (consumed : List (Tx × FilterStatus)) (c : Cursor Tx) : Cursor Tx :=
  let txIndex := c.checkpoint.txIndex + consumed.length
  let passed := c.checkpoint.passed ++ consumed
  if c.cached.length ≤ txIndex then ⟨c.retriever, d + 1, ⟨d + 1, 0, passed⟩, []⟩
  else ⟨c.retriever, c.daHeight, ⟨c.checkpoint.daHeight, txIndex, passed⟩, c.cached⟩

/-- `consumed` are the first of `txs`, none of them postponed. -/
def IsConsumed (txs : List Tx) (consumed : List (Tx × FilterStatus)) : Prop :=
  consumed.map Prod.fst = txs.take consumed.length ∧ ∀ x ∈ consumed, x.2 ≠ .postpone

theorem remaining_ne_nil {c : Cursor Tx} (hf : ¬ c.Fetches)
    (h : 0 < c.daHeight ∨ c.remaining ≠ []) : c.remaining ≠ [] := by
  rcases h with h | h
  · intro hnil
    exact hf ⟨h, List.drop_eq_nil_iff.mp hnil⟩
  · exact h

variable [Transaction Tx]

/-- What one `GetNextBatch` may do to the cursor. -/
inductive Call (da : DAAnswers Tx) (maxBytes : Nat) (c : Cursor Tx) : Cursor Tx → Prop
  | idle : Call da maxBytes c c
  | cleared (hf : c.Fetches) : Call da maxBytes c { c with cached := [] }
  | interrupted (event : ForcedInclusionEvent Tx) (hf : c.Fetches)
      (hr : retrieveForcedIncludedTxs c.retriever da c.checkpoint.daHeight = .ok event) :
    Call da maxBytes c { c with cached := sizeFiltered maxBytes event.txs }
  | served (consumed : List (Tx × FilterStatus)) (hf : ¬ c.Fetches)
      (hrem : 0 < c.daHeight ∨ c.remaining ≠ []) (hc : IsConsumed c.remaining consumed) :
    Call da maxBytes c (c.advance c.daHeight consumed)
  | fetched (event : ForcedInclusionEvent Tx) (consumed : List (Tx × FilterStatus))
      (hf : c.Fetches)
      (hr : retrieveForcedIncludedTxs c.retriever da c.checkpoint.daHeight = .ok event)
      (hc : IsConsumed ((sizeFiltered maxBytes event.txs).drop c.checkpoint.txIndex) consumed) :
    Call da maxBytes c
      ({ c with cached := sizeFiltered maxBytes event.txs }.advance event.endDaHeight consumed)

end Cursor

/-! ## Both sequencers move the cursor this way -/

theorem processStatuses_isConsumed (l : List (Tx × FilterStatus)) :
    Cursor.IsConsumed (l.map Prod.fst) (BasedSequencer.processStatuses l).2 := by
  induction l with
  | nil => exact ⟨rfl, by simp [BasedSequencer.processStatuses]⟩
  | cons x rest ih =>
    obtain ⟨tx, status⟩ := x
    obtain ⟨htake, hnone⟩ := ih
    cases status with
    | ok | remove =>
      refine ⟨by simpa [BasedSequencer.processStatuses] using htake, ?_⟩
      intro x hx
      rcases List.mem_cons.mp hx with rfl | hx
      · simp
      · exact hnone x hx
    | postpone => exact ⟨rfl, by simp [BasedSequencer.processStatuses]⟩

theorem isConsumed_zip {txs : List Tx} {statuses : List FilterStatus}
    (h : txs.length ≤ statuses.length) :
    Cursor.IsConsumed txs (BasedSequencer.processStatuses (txs.zip statuses)).2 := by
  have hc := processStatuses_isConsumed (txs.zip statuses)
  rw [List.map_fst_zip h] at hc
  exact hc

variable [Transaction Tx]

/-- The selection consumes the first of the remaining forced transactions. -/
theorem Sequencer.isConsumed_selection (env : BatchEnv Tx) (maxBytes : Nat) (s : Sequencer Tx) :
    Cursor.IsConsumed s.remainingForcedTxs (s.selection env maxBytes).consumed := by
  unfold selection
  dsimp only
  have hlen := length_filterStatuses env.executor
    (s.remainingForcedTxs ++ s.mempoolTxs env maxBytes) maxBytes
    (decide (0 < s.remainingForcedTxs.length))
  rw [selectTxs_consumed hlen]
  refine isConsumed_zip ?_
  rw [hlen, List.length_append]
  omega

variable {env : BatchEnv Tx} {maxBytes : Nat} {s : Sequencer Tx}

theorem Sequencer.cursor_advanced {d : Nat}
    (h : Advances d s) :
    (s.advanced env maxBytes d).cursor = s.cursor.advance d (s.selection env maxBytes).consumed := by
  unfold advanced advanceCheckpoint Cursor.advance
  simp only [if_pos h]
  split
  · next hlen =>
    have hlen' : s.cursor.cached.length ≤
      s.cursor.checkpoint.txIndex + (s.selection env maxBytes).consumed.length := hlen
    rw [if_pos hlen']
    rfl
  · next hlen =>
    have hlen' : ¬ s.cursor.cached.length ≤
      s.cursor.checkpoint.txIndex + (s.selection env maxBytes).consumed.length := hlen
    rw [if_neg hlen']
    rfl

theorem Sequencer.cursor_not_advanced {d : Nat}
    (h : ¬ Advances d s) : (s.advanced env maxBytes d).cursor = s.cursor := by
  unfold advanced
  simp only [if_neg h]
  rfl

theorem Sequencer.cursor_saved (env : BatchEnv Tx) (maxBytes d : Nat) (s : Sequencer Tx) :
    (s.saved env maxBytes d).cursor = (s.advanced env maxBytes d).cursor := by
  obtain ⟨store, h⟩ := saved_eq env maxBytes d s
  rw [h]
  rfl

omit [Transaction Tx] in
theorem Sequencer.cursor_updateCatchUpState (env : BatchEnv Tx) (view : ChainView Tx)
    (s : Sequencer Tx) : (updateCatchUpState env view s).cursor = s.cursor := by
  obtain ⟨state, time, h⟩ := updateCatchUpState_eq env view s
  rw [h]
  rfl

theorem Sequencer.fetch_cursor {view : ChainView Tx}
    {s1 : Sequencer Tx} {r : Exit Err Nat}
    (hf : fetchIfConsumed env view maxBytes s = (r, s1)) :
    (s1.cursor = s.cursor ∧ ((¬ s.cursor.Fetches ∧ r = .ok s.daHeight) ∨
        (s.cursor.Fetches ∧ (r = .ok 0 ∨ ∃ e, r = .error e)))) ∨
      (s.cursor.Fetches ∧ s1.cursor = { s.cursor with cached := [] } ∧ r = .ok 0) ∨
      ∃ event, s.cursor.Fetches ∧
        retrieveForcedIncludedTxs s.fiRetriever env.da s.checkpoint.daHeight = .ok event ∧
        s1.cursor = { s.cursor with cached := sizeFiltered maxBytes event.txs } ∧
        r = .ok event.endDaHeight := by
  have hc := fetchIfConsumed_cases env view maxBytes s
  have hu := cursor_updateCatchUpState env view s
  rw [hf] at hc
  cases hc with
  | cached h => exact .inl ⟨rfl, .inl ⟨h, rfl⟩⟩
  | future e h hr he =>
    refine .inl ⟨?_, .inr ⟨h, .inl rfl⟩⟩
    unfold leaveCatchUp
    split
    · exact hu
    · exact hu
  | notConfigured e h hr he hn =>
    refine .inr (.inl ⟨h, ?_, rfl⟩)
    rw [← hu]
    rfl
  | failed e h hr he hn => exact .inl ⟨hu, .inr ⟨h, .inr ⟨_, rfl⟩⟩⟩
  | fetched event h hr =>
    refine .inr (.inr ⟨event, h, hr, ?_, rfl⟩)
    rw [← hu]
    rfl

theorem Sequencer.getNextBatch_call (env : BatchEnv Tx) (view : ChainView Tx)
    {req : GetNextBatchRequest} (hid : s.id = req.id) :
    Cursor.Call env.da req.maxBytes (initCheckpoint view s).cursor
      (getNextBatch env view req s).2.cursor := by
  have hc := getNextBatch_cases env view req s
  -- after a fetch that returned `d`, the call advances by what it consumed, or not at all
  have hafter : ∀ d s1,
      fetchIfConsumed env view req.maxBytes (initCheckpoint view s) = (.ok d, s1) →
      Cursor.Call env.da req.maxBytes (initCheckpoint view s).cursor
        (s1.advanced env req.maxBytes d).cursor := by
    intro d s1 hf
    have hcons := isConsumed_selection env req.maxBytes s1
    by_cases hadv : Advances d s1
    · rw [cursor_advanced hadv]
      have hrem : 0 < d ∨ s1.remainingForcedTxs ≠ [] := hadv
      rcases fetch_cursor hf with ⟨hs, h⟩ | ⟨hfe, hs, hr⟩ | ⟨event, hfe, hret, hs, hr⟩
      · have hremaining : s1.remainingForcedTxs = (initCheckpoint view s).cursor.remaining := by
          rw [← hs]
          rfl
        rw [hremaining] at hrem hcons
        rcases h with ⟨hnf, hr⟩ | ⟨hfe, hr | ⟨e, hr⟩⟩
        · cases hr
          rw [hs]
          exact .served _ hnf hrem hcons
        · cases hr
          have hnil : (initCheckpoint view s).cursor.remaining = [] :=
            List.drop_eq_nil_of_le hfe.2
          rcases hrem with h0 | h0
          · omega
          · exact absurd hnil h0
        · cases hr
      · cases hr
        have hnil : s1.remainingForcedTxs = [] := by
          show s1.cursor.remaining = []
          rw [hs]
          exact List.drop_nil
        rcases hrem with h0 | h0
        · omega
        · exact absurd hnil h0
      · cases hr
        have hremaining : s1.remainingForcedTxs = (sizeFiltered req.maxBytes event.txs).drop
            (initCheckpoint view s).cursor.checkpoint.txIndex := by
          show s1.cursor.remaining = _
          rw [hs]
          rfl
        rw [hremaining] at hcons
        rw [hs]
        exact .fetched event _ hfe hret hcons
    · rw [cursor_not_advanced hadv]
      rcases fetch_cursor hf with ⟨hs, _⟩ | ⟨hfe, hs, _⟩ | ⟨event, hfe, hret, hs, _⟩
      · rw [hs]
        exact .idle
      · rw [hs]
        exact .cleared hfe
      · rw [hs]
        exact .interrupted event hfe hret
  generalize getNextBatch env view req s = r at hc
  cases hc with
  | invalidId hid' => exact absurd hid hid'
  | fetchFailed e s1 _ hf =>
    rcases fetch_cursor hf with ⟨hs, _⟩ | ⟨_, _, hr⟩ | ⟨_, _, _, _, hr⟩
    · rw [hs]
      exact .idle
    · cases hr
    · cases hr
  | drainCrash d s1 _ hf hcatch =>
    rcases fetch_cursor hf with ⟨hs, _⟩ | ⟨hfe, hs, _⟩ | ⟨event, hfe, hret, hs, _⟩
    · rw [hs]
      exact .idle
    · rw [hs]
      exact .cleared hfe
    · rw [hs]
      exact .interrupted event hfe hret
  | saveFailed d s1 _ hf _ _ | saveCrash d s1 _ hf _ _ => exact hafter d s1 hf
  | noBatch d s1 _ hf _ _ | batch d s1 _ hf _ _ =>
    rw [cursor_saved]
    exact hafter d s1 hf

omit [Transaction Tx] in
theorem BasedSequencer.cursor_advanceCheckpoint (d : Nat) (consumed : List (Tx × FilterStatus))
    (b : BasedSequencer Tx) : (b.advanceCheckpoint d consumed).cursor = b.cursor.advance d consumed := by
  unfold advanceCheckpoint Cursor.advance
  dsimp only
  split
  · next hlen =>
    have hlen' : b.cursor.cached.length ≤ b.cursor.checkpoint.txIndex + consumed.length := hlen
    rw [if_pos hlen']
    rfl
  · next hlen =>
    have hlen' : ¬ b.cursor.cached.length ≤ b.cursor.checkpoint.txIndex + consumed.length := hlen
    rw [if_neg hlen']
    rfl

omit [Transaction Tx] in
theorem BasedSequencer.isConsumed_processed (env : BatchEnv Tx) (maxBytes : Nat)
    (b : BasedSequencer Tx) :
    Cursor.IsConsumed (b.currentBatchTxs.drop b.checkpoint.txIndex)
      (b.processed env maxBytes).2 :=
  isConsumed_zip (Nat.le_of_eq (length_filterStatuses ..).symm)

theorem BasedSequencer.getNextBatch_call (env : BatchEnv Tx) (req : GetNextBatchRequest)
    (b : BasedSequencer Tx) :
    Cursor.Call env.da req.maxBytes b.cursor (getNextBatch env req b).2.cursor := by
  rcases fetchIfConsumed_cases env req.maxBytes b with
    ⟨e, hfe, hf⟩ | ⟨hfe, hf⟩ | ⟨hnf, hf⟩ | ⟨event, hfe, hr, hf⟩
  · unfold getNextBatch
    rw [bind_run_error hf]
    exact .idle
  · -- the DA head is reached: nothing is left to consume
    rw [getNextBatch_of_fetch req hf]
    have hnil : b.currentBatchTxs.drop b.checkpoint.txIndex = [] := List.drop_eq_nil_of_le hfe.2
    have hcond : ¬ (0 < 0 ∨ b.currentBatchTxs.drop b.checkpoint.txIndex ≠ []) := by
      rw [hnil]
      simp
    unfold afterFetch
    simp only [if_neg hcond]
    rw [answer_state]
    exact .idle
  · rw [getNextBatch_of_fetch req hf]
    rcases afterFetch_state env req.maxBytes b.daHeight b with ⟨hadv, store, hs⟩ | ⟨hadv, hs⟩
    · rw [hs]
      have hcall : Cursor.Call env.da req.maxBytes b.cursor
          (b.cursor.advance b.daHeight (b.processed env req.maxBytes).2) :=
        .served _ hnf hadv (isConsumed_processed env req.maxBytes b)
      rw [← cursor_advanceCheckpoint] at hcall
      exact hcall
    · rw [hs]
      exact .idle
  · rw [getNextBatch_of_fetch req hf]
    rcases afterFetch_state env req.maxBytes event.endDaHeight (b.cacheEpoch req.maxBytes event) with
      ⟨hadv, store, hs⟩ | ⟨hadv, hs⟩
    · rw [hs]
      have hcall : Cursor.Call env.da req.maxBytes b.cursor
          ((b.cacheEpoch req.maxBytes event).cursor.advance event.endDaHeight
            ((b.cacheEpoch req.maxBytes event).processed env req.maxBytes).2) :=
        .fetched event _ hfe hr (isConsumed_processed env req.maxBytes _)
      rw [← cursor_advanceCheckpoint] at hcall
      exact hcall
    · rw [hs]
      exact .interrupted event hfe hr

end EvNode
