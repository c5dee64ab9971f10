import EvNode.Properties.CatchUpInv
import EvNode.Properties.Cursor

/-!
# The timestamp of a batch

A batch with forced transactions is dated back from the end of their epoch, one millisecond for
each transaction that is left of it; any other batch has the time of the clock. `Timed now last`
says what keeps the next timestamp between the last block and the clock: what is left of the cached
epoch still fits between `last` and the end of the epoch.
-/

namespace EvNode

open Crash Proc

variable {Tx : Type}

/-! ## Timestamps in an epoch -/

variable {i : Nat}

theorem epochTimestamp_le (t : Int) {n : Nat} (h : i ≤ n) : epochTimestamp t n i ≤ t := by
  show t - n * 1000000 + i * 1000000 ≤ t
  omega

theorem epochTimestamp_mono (t : Int) (n : Nat) {j : Nat} (h : i ≤ j) :
    epochTimestamp t n i ≤ epochTimestamp t n j := by
  show t - n * 1000000 + i * 1000000 ≤ t - n * 1000000 + j * 1000000
  omega

/-- Where an epoch of `n` transactions starts to fit after `last`. -/
theorem le_epochTimestamp {last e t : Int} {n : Nat} (hlt : i < n)
    (hroom : last + (n - i : Nat) * millisecond ≤ e) (hle : e ≤ t) :
    last ≤ epochTimestamp t n i := by
  have hroom' : last + (n - i : Nat) * 1000000 ≤ e := hroom
  show last ≤ t - n * 1000000 + i * 1000000
  omega

theorem laterOf_le {a b c : Time} (ha : a ≤ c) (hb : b ≤ c) : laterOf a b ≤ c := by
  unfold laterOf
  split
  · exact ha
  · exact hb

theorem le_laterOf (a b : Time) : a ≤ laterOf a b := by
  unfold laterOf
  split
  · exact Int.le_refl a
  · next h => exact Int.not_lt.mp h

/-! ## The first status -/

/-- The executor never postpones the first transaction of a list with forced ones. -/
def ExecutionAnswers.TakesFirst (ex : ExecutionAnswers Tx) : Prop :=
  ∀ txs maxBytes gas statuses, ex.filterTxs txs maxBytes gas true = some statuses →
    statuses.head? ≠ some .postpone

theorem head_filterStatuses {ex : ExecutionAnswers Tx} (h : ex.TakesFirst) (txs : List Tx)
    (maxBytes : Nat) : (filterStatuses ex txs maxBytes true).head? ≠ some .postpone := by
  unfold filterStatuses
  cases hf : ex.filterTxs txs maxBytes (ex.maxGas.getD 0) true with
  | some statuses => exact h _ _ _ _ hf
  | none => cases txs <;> simp [List.replicate_succ]

namespace Sequencer

variable [Transaction Tx]

variable {env : BatchEnv Tx} {maxBytes : Nat} {view : ChainView Tx}

theorem consumed_ne_nil (h : env.executor.TakesFirst)
    {s : Sequencer Tx} (hne : s.remainingForcedTxs ≠ []) :
    (s.selection env maxBytes).consumed ≠ [] := by
  obtain ⟨tx, rest, hforced⟩ := List.exists_cons_of_ne_nil hne
  have hhead := head_filterStatuses h (s.remainingForcedTxs ++ s.mempoolTxs env maxBytes) maxBytes
  have hlen := length_filterStatuses env.executor
    (s.remainingForcedTxs ++ s.mempoolTxs env maxBytes) maxBytes true
  have hforce : decide (0 < s.remainingForcedTxs.length) = true := by
    rw [hforced]
    rfl
  unfold selection
  dsimp only
  rw [hforce, selectTxs_consumed hlen, BasedSequencer.consumed_eq_takeWhile]
  generalize filterStatuses env.executor (s.remainingForcedTxs ++ s.mempoolTxs env maxBytes)
    maxBytes true = statuses at hhead hlen
  rw [hforced] at hlen ⊢
  cases statuses with
  | nil => cases hlen
  | cons status statuses =>
    have hstatus : status ≠ .postpone := fun heq => hhead (by rw [heq]; rfl)
    simp [hstatus]

/-! ## The invariant -/

/-- What is left of the cached epoch fits between `last` and the end of the epoch, which is not
after `now`. -/
structure Timed (now last : Time) (s : Sequencer Tx) : Prop where
  endTime : s.currentDAEndTime ≤ now
  anchored : s.cachedForcedInclusionTxs ≠ [] → 0 < s.checkpoint.daHeight
  count : s.remainingForcedTxs ≠ [] →
    s.currentEpochTxCount = s.cachedForcedInclusionTxs.length
  epoch : s.remainingForcedTxs ≠ [] →
    last ≤ epochTimestamp s.currentDAEndTime s.currentEpochTxCount s.checkpoint.txIndex

variable {now last : Time} {s s1 : Sequencer Tx}

omit [Transaction Tx] in
theorem Timed.mono (h : s.Timed now last) {now' last' : Time} (hnow : now ≤ now')
    (hlast : last' ≤ last) : s.Timed now' last' :=
  ⟨h.endTime.trans hnow, h.anchored, h.count, fun hne => hlast.trans (h.epoch hne)⟩

omit [Transaction Tx] in
theorem Timed.congr {s' : Sequencer Tx} (h : s.Timed now last)
    (htime : s'.currentDAEndTime = s.currentDAEndTime)
    (hcount : s'.currentEpochTxCount = s.currentEpochTxCount)
    (hcached : s'.cachedForcedInclusionTxs = s.cachedForcedInclusionTxs)
    (hcheckpoint : s'.checkpoint = s.checkpoint) : s'.Timed now last := by
  refine ⟨?_, ?_, ?_, ?_⟩
  all_goals simp only [remainingForcedTxs, htime, hcount, hcached, hcheckpoint]
  · exact h.endTime
  · exact h.anchored
  · exact h.count
  · exact h.epoch

omit [Transaction Tx] in
theorem Timed.of_nil (hend : s.currentDAEndTime ≤ now)
    (hanchored : s.cachedForcedInclusionTxs ≠ [] → 0 < s.checkpoint.daHeight)
    (hnil : s.remainingForcedTxs = []) : s.Timed now last :=
  ⟨hend, hanchored, fun hne => absurd hnil hne, fun hne => absurd hnil hne⟩

omit [Transaction Tx] in
theorem Timed.initCheckpoint (h : s.Timed now last) (view : ChainView Tx) :
    (initCheckpoint view s).Timed now last := by
  unfold Sequencer.initCheckpoint
  split
  · next hc =>
    -- nothing is cached before the checkpoint has a DA height
    have hnil : s.cachedForcedInclusionTxs = [] := by
      by_contra hne
      have hpos := h.anchored hne
      omega
    refine .of_nil h.endTime (fun hne => absurd hnil hne) ?_
    show s.cachedForcedInclusionTxs.drop 0 = []
    rw [hnil]
    rfl
  · exact h

/-! ## The fetch -/

/-- The call fetches an epoch. -/
def FetchesEpoch (s : Sequencer Tx) : Prop :=
  0 < s.daHeight ∧ s.cachedForcedInclusionTxs.length ≤ s.checkpoint.txIndex

/-- An epoch that is fetched did not end after the time of the call. -/
def EpochPast (env : BatchEnv Tx) (s : Sequencer Tx) : Prop :=
  s.FetchesEpoch → ∀ event,
    retrieveForcedIncludedTxs s.fiRetriever env.da s.checkpoint.daHeight = .ok event →
      event.timestamp ≤ env.now

/-- An epoch that is fetched ended after `last`, with one millisecond for each transaction that is
left of it. -/
def EpochSpaced (env : BatchEnv Tx) (maxBytes : Nat) (last : Time) (s : Sequencer Tx) : Prop :=
  s.FetchesEpoch → ∀ event,
    retrieveForcedIncludedTxs s.fiRetriever env.da s.checkpoint.daHeight = .ok event →
      s.checkpoint.txIndex < (sizeFiltered maxBytes event.txs).length →
        last + ((sizeFiltered maxBytes event.txs).length - s.checkpoint.txIndex : Nat) * millisecond
          ≤ event.timestamp

omit [Transaction Tx] in
theorem endTime_updateCatchUpState (env : BatchEnv Tx)
    (hview : ∀ t, view.lastBlockTime = some t → t ≤ now) (h : s.currentDAEndTime ≤ now) :
    (updateCatchUpState env view s).currentDAEndTime ≤ now := by
  unfold updateCatchUpState
  split
  · exact h
  · dsimp only
    split
    · exact h
    · split
      · exact h
      · split
        · exact h
        · split
          · exact h
          · dsimp only
            split
            · exact h
            · next t ht =>
              split
              · exact h
              · exact laterOf_le (hview t ht) h

theorem Timed.fetch {r : Exit Err Nat}
    (h : s.Timed env.now last) (hview : ∀ t, view.lastBlockTime = some t → t ≤ env.now)
    (hpos : 0 < s.daHeight → 0 < s.checkpoint.daHeight) (hpast : EpochPast env s)
    (hspaced : EpochSpaced env maxBytes last s)
    (hf : fetchIfConsumed env view maxBytes s = (r, s1)) : s1.Timed env.now last := by
  have hend := endTime_updateCatchUpState env hview h.endTime
  have hc := fetchIfConsumed_cases env view maxBytes s
  obtain ⟨state, time, hu⟩ := updateCatchUpState_eq env view s
  have htime : time ≤ env.now := by
    rw [hu] at hend
    exact hend
  rw [hf] at hc
  have hnil : s.FetchesEpoch → s.remainingForcedTxs = [] := fun hfetch =>
    List.drop_eq_nil_of_le hfetch.2
  cases hc with
  | cached _ => exact h
  | future e hfetch _ _ =>
    rw [hu]
    unfold leaveCatchUp
    split
    · exact .of_nil htime h.anchored (hnil hfetch)
    · exact .of_nil htime h.anchored (hnil hfetch)
  | notConfigured e _ _ _ _ =>
    rw [hu]
    exact .of_nil htime (fun hne => absurd rfl hne) List.drop_nil
  | failed e hfetch _ _ _ =>
    rw [hu]
    exact .of_nil htime h.anchored (hnil hfetch)
  | fetched event hfetch hr =>
    rw [hu]
    refine ⟨laterOf_le (hpast hfetch event hr) htime, fun _ => hpos hfetch.1, fun _ => rfl,
      fun hne => ?_⟩
    have hne' : (sizeFiltered maxBytes event.txs).drop s.checkpoint.txIndex ≠ [] := hne
    have hlt : s.checkpoint.txIndex < (sizeFiltered maxBytes event.txs).length := by
      by_contra hge
      exact hne' (List.drop_eq_nil_of_le (by omega))
    exact le_epochTimestamp hlt (hspaced hfetch event hr hlt) (le_laterOf event.timestamp time)

theorem catchUp_of_remaining
    {r : Exit Err Nat} (hf : fetchIfConsumed env view maxBytes s = (r, s1))
    (hne : s1.remainingForcedTxs ≠ []) (hcatch : s.catchUpState = .inProgress) :
    s1.catchUpState = .inProgress := by
  have hc := fetchIfConsumed_cases env view maxBytes s
  have hu : updateCatchUpState env view s = s := by
    unfold updateCatchUpState
    rw [if_pos (by rw [hcatch]; simp)]
  rw [hf] at hc
  cases hc with
  | cached _ => exact hcatch
  | future e hfetch _ _ =>
    have hnil : (leaveCatchUp (updateCatchUpState env view s)).remainingForcedTxs = [] := by
      rw [hu]
      unfold leaveCatchUp
      split <;> exact List.drop_eq_nil_of_le hfetch.2
    exact absurd hnil hne
  | notConfigured e _ _ _ _ => exact absurd List.drop_nil hne
  | failed e _ _ _ _ | fetched event _ _ =>
    rw [hu]
    exact hcatch

/-! ## The answer -/

theorem length_consumed_le (env : BatchEnv Tx) (maxBytes : Nat) (s : Sequencer Tx) :
    (s.selection env maxBytes).consumed.length ≤ s.remainingForcedTxs.length := by
  unfold selection
  dsimp only
  rw [selectTxs_consumed (length_filterStatuses ..), BasedSequencer.consumed_eq_takeWhile]
  refine (List.takeWhile_sublist _).length_le.trans ?_
  rw [List.length_zip]
  exact Nat.min_le_left _ _

theorem Timed.advanced {d : Nat} (h : s.Timed now last)
    {last' : Time}
    (hlast : s.remainingForcedTxs ≠ [] → last' ≤ epochTimestamp s.currentDAEndTime
      s.currentEpochTxCount (s.checkpoint.txIndex + (s.selection env maxBytes).consumed.length)) :
    (s.advanced env maxBytes d).Timed now last' := by
  unfold Sequencer.advanced advanceCheckpoint
  dsimp only
  split
  · split
    · exact .of_nil h.endTime (fun hne => absurd rfl hne) List.drop_nil
    · next hlt =>
      have hne : s.remainingForcedTxs ≠ [] := by
        intro hnil
        have hle := List.drop_eq_nil_iff.mp hnil
        omega
      exact ⟨h.endTime, h.anchored, fun _ => h.count hne, fun _ => hlast hne⟩
  · next hadv =>
    have hnil : s.remainingForcedTxs = [] := by
      by_contra hne
      exact hadv (.inr hne)
    exact .of_nil h.endTime h.anchored hnil

/-- **The timestamp of a batch.** -/
theorem Timed.response {d : Nat} (h : s.Timed env.now last)
    (hlast : last ≤ env.now)
    (hfirst : s.catchUpState ≠ .inProgress → s.remainingForcedTxs ≠ [] → env.executor.TakesFirst)
    (hsome : ¬ (s.isCatchingUp = true ∧ s.batchTxs env maxBytes = [])) :
    last ≤ (s.response env maxBytes d).timestamp ∧
      (s.response env maxBytes d).timestamp ≤ env.now ∧
      (s.remainingForcedTxs ≠ [] → (s.response env maxBytes d).timestamp ≤
        epochTimestamp s.currentDAEndTime s.currentEpochTxCount
          (s.checkpoint.txIndex + (s.selection env maxBytes).consumed.length)) := by
  by_cases hconsumed : (s.selection env maxBytes).consumed = []
  · -- without forced transactions the batch has the time of the clock, unless it is catching up
    have hcatch : s.catchUpState ≠ .inProgress := by
      intro hcatch
      refine hsome ⟨by rw [isCatchingUp, hcatch]; rfl, ?_⟩
      have hforced : (s.selection env maxBytes).validForcedTxs = [] := by
        have hvalid : (s.selection env maxBytes).validForcedTxs =
            withStatus .ok (s.selection env maxBytes).consumed := by
          unfold selection
          dsimp only
          rw [selectTxs_validForcedTxs (length_filterStatuses ..),
            selectTxs_consumed (length_filterStatuses ..), BasedSequencer.valid_eq_filter]
        rw [hvalid, hconsumed]
        rfl
      have hmempool : (s.selection env maxBytes).validMempoolTxs = [] := by
        unfold selection
        rw [mempoolTxs_of_catchUp hcatch]
        dsimp only
        rw [selectTxs_validMempoolTxs (length_filterStatuses ..)]
        rfl
      unfold batchTxs
      rw [hforced, hmempool]
      rfl
    have hnow : (s.response env maxBytes d).timestamp = env.now := by
      show s.batchTimestamp env.now (s.selection env maxBytes).consumed _ = env.now
      unfold batchTimestamp
      rw [if_neg]
      rintro (hc | hc)
      · exact hcatch hc
      · exact hc hconsumed
    rw [hnow]
    exact ⟨hlast, Int.le_refl _, fun hne => absurd hconsumed (consumed_ne_nil (hfirst hcatch hne) hne)⟩
  · have hle := length_consumed_le env maxBytes s
    have hne : s.remainingForcedTxs ≠ [] := by
      intro hnil
      rw [hnil] at hle
      exact hconsumed (List.length_eq_zero_iff.mp (Nat.le_zero.mp hle))
    have hts : (s.response env maxBytes d).timestamp =
        epochTimestamp s.currentDAEndTime s.currentEpochTxCount
          (s.checkpoint.txIndex + (s.selection env maxBytes).consumed.length) := by
      show s.batchTimestamp env.now (s.selection env maxBytes).consumed
        (s.txIndexForTimestamp env maxBytes d) = _
      unfold batchTimestamp txIndexForTimestamp
      rw [if_pos (.inr hconsumed), if_pos (.inr hne)]
    rw [hts]
    refine ⟨(h.epoch hne).trans (epochTimestamp_mono _ _ (Nat.le_add_right _ _)), ?_,
      fun _ => Int.le_refl _⟩
    refine (epochTimestamp_le _ ?_).trans h.endTime
    rw [h.count hne]
    unfold remainingForcedTxs at hle hne
    have hlt : s.checkpoint.txIndex < s.cachedForcedInclusionTxs.length := by
      by_contra hge
      exact hne (List.drop_eq_nil_of_le (by omega))
    rw [List.length_drop] at hle
    omega

theorem getNextBatch_timed {req : GetNextBatchRequest}
    (h : s.Timed env.now last) (hlast : last ≤ env.now)
    (hview : ∀ t, view.lastBlockTime = some t → t ≤ env.now)
    (hpast : EpochPast env (initCheckpoint view s))
    (hspaced : EpochSpaced env req.maxBytes last (initCheckpoint view s))
    (hfirst : s.catchUpState ≠ .inProgress → env.executor.TakesFirst) :
    wp (getNextBatch env view req)
      (fun batch s' => last ≤ batch.timestamp ∧ batch.timestamp ≤ env.now ∧
        s'.Timed env.now batch.timestamp)
      (fun _ s' => s'.Timed env.now last) (fun _ => True) s := by
  have hfetch : ∀ {r1 s1}, fetchIfConsumed env view req.maxBytes (initCheckpoint view s) =
      (r1, s1) → s1.Timed env.now last := fun hf =>
    (h.initCheckpoint view).fetch hview (checkpoint_pos_of_initCheckpoint view s) hpast hspaced hf
  have hcatch : (initCheckpoint view s).catchUpState = s.catchUpState := by
    unfold initCheckpoint
    split <;> rfl
  have hmoved : ∀ {s1 : Sequencer Tx} (d : Nat), s1.Timed env.now last →
      (s1.advanced env req.maxBytes d).Timed env.now last := fun d h1 =>
    h1.advanced fun hne =>
      (h1.epoch hne).trans (epochTimestamp_mono _ _ (Nat.le_add_right _ _))
  have hc := getNextBatch_cases env view req s
  unfold wp
  generalize getNextBatch env view req s = r at hc
  cases hc with
  | invalidId _ => exact h
  | fetchFailed e s1 _ hf => exact hfetch hf
  | drainCrash d s1 _ hf _ => trivial
  | saveFailed d s1 _ hf _ _ => exact hmoved d (hfetch hf)
  | saveCrash d s1 _ hf _ _ => trivial
  | noBatch d s1 _ hf _ _ =>
    obtain ⟨store, hsaved⟩ := saved_eq env req.maxBytes d s1
    dsimp only
    rw [hsaved]
    exact (hmoved d (hfetch hf)).congr rfl rfl rfl rfl
  | batch d s1 _ hf _ hsome =>
    obtain ⟨store, hsaved⟩ := saved_eq env req.maxBytes d s1
    have h1 := hfetch hf
    have hfirst1 : s1.catchUpState ≠ .inProgress → s1.remainingForcedTxs ≠ [] →
        env.executor.TakesFirst := by
      intro hc hne
      refine hfirst fun hs => hc (catchUp_of_remaining hf hne ?_)
      rw [hcatch]
      exact hs
    obtain ⟨hge, hle, hepoch⟩ := h1.response (d := d) hlast hfirst1 hsome
    dsimp only
    rw [hsaved]
    exact ⟨hge, hle, (h1.advanced hepoch).congr rfl rfl rfl rfl⟩

end Sequencer

end EvNode
