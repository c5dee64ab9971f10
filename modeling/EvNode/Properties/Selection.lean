import EvNode.Sequencer.Based

/-!
# What the loops over the filter statuses select

The single sequencer walks over forced and mempool transactions in one loop, the based sequencer
over forced ones only. Both take the forced transactions up to the first postponed one.

* `selectTxs_validForcedTxs`, `selectTxs_consumed` — the forced part is `processStatuses`
* `selectTxs_validMempoolTxs`, `selectTxs_postponedMempoolTxs` — the mempool part is a filter
* `consumed_eq_takeWhile`, `valid_eq_filter` — `processStatuses` in closed form
-/

namespace EvNode

variable {Tx : Type}

def withStatus (status : FilterStatus) (l : List (Tx × FilterStatus)) : List Tx :=
  (l.filter fun x => x.2 = status).map Prod.fst

theorem mem_withStatus {status : FilterStatus} {l : List (Tx × FilterStatus)} {t : Tx} :
    t ∈ withStatus status l ↔ (t, status) ∈ l := by
  unfold withStatus
  simp only [List.mem_map, List.mem_filter, decide_eq_true_eq]
  constructor
  · rintro ⟨⟨u, st⟩, ⟨hmem, hst⟩, heq⟩
    simp only at hst heq
    rw [← heq, ← hst]
    exact hmem
  · intro h
    exact ⟨(t, status), ⟨h, rfl⟩, rfl⟩

theorem length_filterStatuses (ex : ExecutionAnswers Tx) (txs : List Tx) (maxBytes : Nat)
    (force : Bool) : (filterStatuses ex txs maxBytes force).length = txs.length := by
  unfold filterStatuses
  cases h : ex.filterTxs txs maxBytes (ex.maxGas.getD 0) force with
  | none => exact List.length_replicate
  | some statuses => exact ex.filterTxs_length h

/-! ## The loop of the based sequencer -/

namespace BasedSequencer

theorem consumed_eq_takeWhile (l : List (Tx × FilterStatus)) :
    (processStatuses l).2 = l.takeWhile fun x => x.2 ≠ .postpone := by
  induction l with
  | nil => rfl
  | cons x rest ih =>
    obtain ⟨tx, status⟩ := x
    cases status with
    | ok | remove => simp [processStatuses, ih]
    | postpone => simp [processStatuses]

theorem valid_eq_filter (l : List (Tx × FilterStatus)) :
    (processStatuses l).1 = withStatus .ok (processStatuses l).2 := by
  induction l with
  | nil => rfl
  | cons x rest ih =>
    obtain ⟨tx, status⟩ := x
    cases status with
    | ok | remove => simpa [processStatuses, withStatus] using ih
    | postpone => rfl

end BasedSequencer

/-! ## The loop of the single sequencer -/

namespace Selection

theorem foldl_zipIdx_forced (n : Nat) (l : List (Tx × FilterStatus)) :
    ∀ (k : Nat) (sel : Selection Tx), k + l.length ≤ n →
      (l.zipIdx k).foldl (add n) sel = l.foldl (fun sel x => sel.addForced x.1 x.2) sel := by
  induction l with
  | nil => intro k sel _; rfl
  | cons x rest ih =>
    intro k sel hk
    rw [List.length_cons] at hk
    have hlt : k < n := by omega
    rw [List.zipIdx_cons, List.foldl_cons, List.foldl_cons, ih (k + 1) _ (by omega)]
    simp only [add, hlt, if_true]

theorem foldl_zipIdx_mempool (n : Nat) (l : List (Tx × FilterStatus)) :
    ∀ (k : Nat) (sel : Selection Tx), n ≤ k →
      (l.zipIdx k).foldl (add n) sel = l.foldl (fun sel x => sel.addMempool x.1 x.2) sel := by
  induction l with
  | nil => intro k sel _; rfl
  | cons x rest ih =>
    intro k sel hk
    have hlt : ¬ k < n := by omega
    rw [List.zipIdx_cons, List.foldl_cons, List.foldl_cons, ih (k + 1) _ (by omega)]
    simp only [add, hlt, if_false]

/-- Once a forced transaction was postponed, the rest of them changes nothing. -/
theorem foldl_addForced_postponed (l : List (Tx × FilterStatus)) (sel : Selection Tx)
    (h : sel.forcedTxPostponed = true) :
    l.foldl (fun sel x => sel.addForced x.1 x.2) sel = sel := by
  induction l with
  | nil => rfl
  | cons x rest ih =>
    have hx : sel.addForced x.1 x.2 = sel := by
      unfold addForced
      rw [h]
      rfl
    rw [List.foldl_cons, hx]
    exact ih

theorem foldl_addForced (l : List (Tx × FilterStatus)) :
    ∀ sel : Selection Tx, sel.forcedTxPostponed = false →
      ∃ postponed, l.foldl (fun sel x => sel.addForced x.1 x.2) sel =
        { sel with
          validForcedTxs := sel.validForcedTxs ++ (BasedSequencer.processStatuses l).1
          consumed := sel.consumed ++ (BasedSequencer.processStatuses l).2
          forcedTxPostponed := postponed } := by
  induction l with
  | nil =>
    intro sel hsel
    refine ⟨false, ?_⟩
    simp only [List.foldl_nil, BasedSequencer.processStatuses, List.append_nil]
    rw [← hsel]
  | cons x rest ih =>
    intro sel hsel
    obtain ⟨tx, status⟩ := x
    rw [List.foldl_cons]
    cases status with
    | ok =>
      have hstep : sel.addForced tx .ok = { sel with
          validForcedTxs := sel.validForcedTxs ++ [tx]
          consumed := sel.consumed ++ [(tx, .ok)] } := by
        unfold addForced
        rw [hsel]
        rfl
      obtain ⟨postponed, h⟩ := ih (sel.addForced tx .ok) (by rw [hstep]; exact hsel)
      refine ⟨postponed, ?_⟩
      rw [h, hstep]
      simp [BasedSequencer.processStatuses, List.append_assoc]
    | remove =>
      have hstep : sel.addForced tx .remove = { sel with
          consumed := sel.consumed ++ [(tx, .remove)] } := by
        unfold addForced
        rw [hsel]
        rfl
      obtain ⟨postponed, h⟩ := ih (sel.addForced tx .remove) (by rw [hstep]; exact hsel)
      refine ⟨postponed, ?_⟩
      rw [h, hstep]
      simp [BasedSequencer.processStatuses, List.append_assoc]
    | postpone =>
      have hstep : sel.addForced tx .postpone = { sel with forcedTxPostponed := true } := by
        unfold addForced
        rw [hsel]
        rfl
      refine ⟨true, ?_⟩
      rw [hstep, foldl_addForced_postponed _ _ rfl]
      simp [BasedSequencer.processStatuses]

theorem foldl_addMempool (l : List (Tx × FilterStatus)) :
    ∀ sel : Selection Tx, l.foldl (fun sel x => sel.addMempool x.1 x.2) sel =
      { sel with
        validMempoolTxs := sel.validMempoolTxs ++ withStatus .ok l
        postponedMempoolTxs := sel.postponedMempoolTxs ++ withStatus .postpone l } := by
  induction l with
  | nil => intro sel; simp [withStatus]
  | cons x rest ih =>
    intro sel
    obtain ⟨tx, status⟩ := x
    rw [List.foldl_cons, ih]
    cases status <;> simp [addMempool, withStatus]

end Selection

/-- The statuses of the forced transactions come first, those of the mempool after them. -/
theorem zip_append_statuses {forced mempool : List Tx} {statuses : List FilterStatus}
    (h : statuses.length = (forced ++ mempool).length) :
    (forced ++ mempool).zip statuses =
      forced.zip statuses ++ mempool.zip (statuses.drop forced.length) := by
  rw [List.length_append] at h
  have htake : forced.length = (statuses.take forced.length).length := by
    rw [List.length_take]
    omega
  have hzip : forced.zip statuses = forced.zip (statuses.take forced.length) := by
    conv_lhs => rw [← List.take_append_drop forced.length statuses]
    have happ : (forced ++ []).zip (statuses.take forced.length ++ statuses.drop forced.length) =
        forced.zip (statuses.take forced.length) ++ [] := List.zip_append htake
    simpa only [List.append_nil] using happ
  rw [hzip]
  conv_lhs => rw [← List.take_append_drop forced.length statuses]
  exact List.zip_append htake

/-- **The loop in closed form.** -/
theorem selectTxs_eq {forced mempool : List Tx} {statuses : List FilterStatus}
    (h : statuses.length = (forced ++ mempool).length) :
    ∃ postponed, selectTxs forced.length (forced ++ mempool) statuses =
      { validForcedTxs := (BasedSequencer.processStatuses (forced.zip statuses)).1
        validMempoolTxs := withStatus .ok (mempool.zip (statuses.drop forced.length))
        postponedMempoolTxs := withStatus .postpone (mempool.zip (statuses.drop forced.length))
        consumed := (BasedSequencer.processStatuses (forced.zip statuses)).2
        forcedTxPostponed := postponed } := by
  have hlen : (forced.zip statuses).length = forced.length := by
    rw [List.length_zip]
    rw [List.length_append] at h
    omega
  unfold selectTxs
  rw [zip_append_statuses h, List.zipIdx_append, List.foldl_append,
    Selection.foldl_zipIdx_forced _ (forced.zip statuses) 0 _ (by omega),
    Selection.foldl_zipIdx_mempool _ _ _ _ (by omega)]
  obtain ⟨postponed, hf⟩ := Selection.foldl_addForced (forced.zip statuses) .empty rfl
  refine ⟨postponed, ?_⟩
  rw [hf, Selection.foldl_addMempool]
  simp [Selection.empty]

section Fields

variable {forced mempool : List Tx} {statuses : List FilterStatus}
  (h : statuses.length = (forced ++ mempool).length)

include h

theorem selectTxs_validForcedTxs :
    (selectTxs forced.length (forced ++ mempool) statuses).validForcedTxs =
      (BasedSequencer.processStatuses (forced.zip statuses)).1 := by
  obtain ⟨_, hsel⟩ := selectTxs_eq h
  rw [hsel]

theorem selectTxs_consumed :
    (selectTxs forced.length (forced ++ mempool) statuses).consumed =
      (BasedSequencer.processStatuses (forced.zip statuses)).2 := by
  obtain ⟨_, hsel⟩ := selectTxs_eq h
  rw [hsel]

theorem selectTxs_validMempoolTxs :
    (selectTxs forced.length (forced ++ mempool) statuses).validMempoolTxs =
      withStatus .ok (mempool.zip (statuses.drop forced.length)) := by
  obtain ⟨_, hsel⟩ := selectTxs_eq h
  rw [hsel]

theorem selectTxs_postponedMempoolTxs :
    (selectTxs forced.length (forced ++ mempool) statuses).postponedMempoolTxs =
      withStatus .postpone (mempool.zip (statuses.drop forced.length)) := by
  obtain ⟨_, hsel⟩ := selectTxs_eq h
  rw [hsel]

end Fields

end EvNode
