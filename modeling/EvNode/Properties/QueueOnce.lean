import EvNode.Properties.Queue

/-!
# A transaction in the queue and in the WAL

`HeldOnce t` follows one transaction through the queue: it waits or is in flight at most once, and
every WAL entry that has it belongs to an entry of the queue in memory. So deleting the entries of
the queue that have `t` leaves no trace of it on disk.
-/

namespace EvNode

open Crash Proc

variable {Tx : Type}

def Wal.Has (t : Tx) (w : Wal Tx) : Prop := ∃ k b, w.entries.get? k = some b ∧ t ∈ b

/-- `w'` has `t` only if `w` has. -/
structure Wal.Shrinks (t : Tx) (w w' : Wal Tx) : Prop where
  has : w'.Has t → w.Has t
  legacy : (∀ x ∈ w.legacy, t ∉ x.2) → ∀ x ∈ w'.legacy, t ∉ x.2
  accepted : w'.accepted = w.accepted

theorem Wal.Shrinks.refl (t : Tx) (w : Wal Tx) : w.Shrinks t w := ⟨id, id, rfl⟩

theorem Wal.Shrinks.trans {t : Tx} {w w' w'' : Wal Tx} (h : w.Shrinks t w')
    (h' : w'.Shrinks t w'') : w.Shrinks t w'' :=
  ⟨fun hh => h.has (h'.has hh), fun hl => h'.legacy (h.legacy hl),
    h'.accepted.trans h.accepted⟩

theorem Wal.Shrinks.put {t : Tx} {w w' : Wal Tx} (h : w.Shrinks t w') (key : Nat) {batch : List Tx}
    (hbatch : t ∈ batch → w.Has t) :
    w.Shrinks t { w' with entries := w'.entries.put key batch } := by
  refine ⟨?_, h.legacy, h.accepted⟩
  rintro ⟨k, b, hb, ht⟩
  have hb' : (w'.entries.put key batch).get? k = some b := hb
  rw [OrdMap.get?_put] at hb'
  split at hb'
  · rw [← Option.some.inj hb'] at ht
    exact hbatch ht
  · exact h.has ⟨k, b, hb', ht⟩

theorem Wal.Shrinks.delete {t : Tx} {w w' : Wal Tx} (h : w.Shrinks t w') (key : Nat) :
    w.Shrinks t { w' with entries := w'.entries.delete key } := by
  refine ⟨?_, h.legacy, h.accepted⟩
  rintro ⟨k, b, hb, ht⟩
  have hb' : (w'.entries.delete key).get? k = some b := hb
  rw [OrdMap.get?_delete] at hb'
  split at hb'
  · cases hb'
  · exact h.has ⟨k, b, hb', ht⟩

/-- Some of the queue entries `items` has the key `k` and the transaction `t`. -/
def Lists (items : List (QueuedItem Tx)) (k : Nat) (t : Tx) : Prop :=
  ∃ item ∈ items, item.key = k ∧ t ∈ item.batch

theorem Lists.mono {items items' : List (QueuedItem Tx)} {k : Nat} {t : Tx} (h : Lists items k t)
    (hsub : items ⊆ items') : Lists items' k t := by
  obtain ⟨item, hmem, hkey, ht⟩ := h
  exact ⟨item, hsub hmem, hkey, ht⟩

theorem Lists.mem {items : List (QueuedItem Tx)} {k : Nat} {t : Tx} (h : Lists items k t) :
    t ∈ items.flatMap QueuedItem.batch := by
  obtain ⟨item, hmem, _, ht⟩ := h
  exact List.mem_flatMap.mpr ⟨item, hmem, ht⟩

namespace BatchQueue

def waitingTxs (q : BatchQueue Tx) : List Tx := q.queue.toList.flatMap QueuedItem.batch

def flyingTxs (q : BatchQueue Tx) : List Tx := q.inFlight.flatMap QueuedItem.batch

structure Idle (q : BatchQueue Tx) : Prop where
  inFlight : q.inFlight = []
  postponed : q.inFlightPostponed = []
  item : q.postponedItem = none

variable [DecidableEq Tx] {t : Tx} {q : BatchQueue Tx}

/-- What holds of `t` in a running queue. -/
structure HeldOnce (t : Tx) (q : BatchQueue Tx) : Prop where
  once : q.waitingTxs.count t + q.flyingTxs.count t ≤ 1
  covered : ∀ k b, q.db.entries.get? k = some b → t ∈ b →
    Lists q.queue.toList k t ∨ Lists q.inFlight k t ∨ Lists q.postponedItem.toList k t
  postponed : q.inFlightPostponed.count t ≤ q.flyingTxs.count t
  item : ∀ i, q.postponedItem = some i → i.batch = q.inFlightPostponed

theorem HeldOnce.mem_flyingTxs (h : q.HeldOnce t) (ht : t ∈ q.inFlightPostponed) :
    t ∈ q.flyingTxs := by
  have hpos := List.count_pos_iff.mpr ht
  have hle := h.postponed
  exact List.count_pos_iff.mp (by omega)

theorem HeldOnce.mem_of_has (h : q.HeldOnce t) (hw : q.db.Has t) :
    t ∈ q.waitingTxs ∨ t ∈ q.flyingTxs := by
  obtain ⟨k, b, hb, ht⟩ := hw
  rcases h.covered k b hb ht with hl | hl | hl
  · exact .inl hl.mem
  · exact .inr hl.mem
  · right
    obtain ⟨item, hmem, _, hti⟩ := hl
    rw [h.item item (Option.mem_toList.mp hmem)] at hti
    exact h.mem_flyingTxs hti

/-! ## Adding -/

/-- Adding transactions, when `t` is among them only if the queue has no trace of it. -/
theorem HeldOnce.added (h : q.HeldOnce t) {unique : List Tx} (seen : Finset Nat)
    (hone : unique.count t ≤ 1)
    (hnew : t ∈ unique → t ∉ q.waitingTxs ∧ t ∉ q.flyingTxs ∧ ¬ q.db.Has t) :
    (q.added unique seen).HeldOnce t := by
  have hwaiting : (q.added unique seen).waitingTxs = q.waitingTxs ++ unique := by
    unfold waitingTxs BatchQueue.added
    simp
  have hitems : (q.added unique seen).queue.toList = q.queue.toList ++ [⟨unique, q.nextAddSeq⟩] :=
    HeadSlice.toList_push ..
  refine ⟨?_, ?_, h.postponed, h.item⟩
  · rw [hwaiting, List.count_append]
    show q.waitingTxs.count t + unique.count t + q.flyingTxs.count t ≤ 1
    by_cases ht : t ∈ unique
    · obtain ⟨hw, hf, _⟩ := hnew ht
      rw [List.count_eq_zero.mpr hw, List.count_eq_zero.mpr hf]
      omega
    · rw [List.count_eq_zero.mpr ht]
      exact h.once
  · intro k b hb ht
    have hb' : (q.db.entries.put q.nextAddSeq unique).get? k = some b := hb
    rw [OrdMap.get?_put] at hb'
    rw [hitems]
    split at hb'
    · next hk =>
      refine .inl ⟨⟨unique, q.nextAddSeq⟩, by simp, hk.symm, ?_⟩
      rw [Option.some.inj hb']
      exact ht
    · rcases h.covered k b hb' ht with hl | hl
      · exact .inl (hl.mono fun _ hx => List.mem_append_left _ hx)
      · exact .inr hl

/-! ## Draining -/

variable [Transaction Tx]

omit [DecidableEq Tx] in
/-- The loop of `Drain` takes the first entries, and their transactions. -/
theorem drainLoop_eq (maxBytes : Nat) (l : List (QueuedItem Tx)) :
    ∀ total allTxs, ∃ k, drainLoop maxBytes total allTxs l =
      (allTxs ++ (l.take k).flatMap QueuedItem.batch, l.take k) := by
  induction l with
  | nil => exact fun _ allTxs => ⟨0, by simp [drainLoop]⟩
  | cons item rest ih =>
    intro total allTxs
    unfold drainLoop
    dsimp only
    split
    · exact ⟨0, by simp⟩
    · obtain ⟨k, hk⟩ := ih (total + (item.batch.map Transaction.size).sum) (allTxs ++ item.batch)
      refine ⟨k + 1, ?_⟩
      rw [hk]
      simp

omit [DecidableEq Tx] [Transaction Tx] in
/-- The rollback puts the entries in flight back. -/
theorem rolledBack_lists (delete : Outcome) (q : BatchQueue Tx) :
    (q.rolledBack delete).queue.toList = q.inFlight ++ q.queue.toList ∧
      (q.rolledBack delete).inFlight = [] := by
  unfold rolledBack
  split
  · next hin => simp [hin]
  · exact ⟨HeadSlice.toList_prependAll .., rfl⟩

omit [DecidableEq Tx] in
theorem drained_lists (delete : Outcome) (maxBytes : Nat) (q : BatchQueue Tx) :
    let r := drainLoop maxBytes 0 [] (q.inFlight ++ q.queue.toList);
    (q.drained delete maxBytes).inFlight = r.2 ∧
      (q.drained delete maxBytes).queue.toList = (q.inFlight ++ q.queue.toList).drop r.2.length ∧
      q.drainedTxs delete maxBytes = r.1 := by
  obtain ⟨hqueue, hflight⟩ := rolledBack_lists delete q
  unfold drained drainedTxs
  dsimp only
  rw [HeadSlice.toList_compact, HeadSlice.toList_advance, hqueue, hflight, List.nil_append]
  exact ⟨rfl, rfl, rfl⟩

omit [DecidableEq Tx] in
theorem drained_eq (delete : Outcome) (maxBytes : Nat) (hitem : q.postponedItem = none) :
    ∃ k, (q.drained delete maxBytes).queue.toList = (q.inFlight ++ q.queue.toList).drop k ∧
      (q.drained delete maxBytes).inFlight = (q.inFlight ++ q.queue.toList).take k ∧
      (q.drained delete maxBytes).postponedItem = none ∧ (q.drained delete maxBytes).db = q.db ∧
      q.drainedTxs delete maxBytes = (q.drained delete maxBytes).flyingTxs := by
  obtain ⟨hin, hqueue, htxs⟩ := drained_lists delete maxBytes q
  obtain ⟨k, hk⟩ := drainLoop_eq maxBytes (q.inFlight ++ q.queue.toList) 0 []
  rw [hk] at hin hqueue htxs
  refine ⟨_, hqueue, ?_, ?_, ?_, ?_⟩
  · rw [hin, List.length_take, List.take_eq_take_min]
  · unfold drained rolledBack
    split
    · exact hitem
    · rfl
  · unfold drained rolledBack
    rw [hitem]
    split <;> rfl
  · rw [htxs]
    unfold flyingTxs
    rw [hin]
    rfl

omit [DecidableEq Tx] [Transaction Tx] in
theorem setPostponed_of_none (h : q.postponedItem = none) (txs : List Tx) :
    q.setPostponed txs = { q with inFlightPostponed := txs } := by
  unfold setPostponed
  split
  · next heq =>
    rw [h] at heq
    cases heq
  · rfl

/-- A drain moves entries between the two parts of the queue. -/
theorem HeldOnce.drained (h : q.HeldOnce t) (delete : Outcome) (maxBytes : Nat)
    (hitem : q.postponedItem = none) {postponed : List Tx}
    (hpost : postponed.count t ≤ (q.drained delete maxBytes).flyingTxs.count t) :
    ((q.drained delete maxBytes).setPostponed postponed).HeldOnce t ∧
      (q.drained delete maxBytes).waitingTxs.count t +
        (q.drained delete maxBytes).flyingTxs.count t =
          q.waitingTxs.count t + q.flyingTxs.count t := by
  obtain ⟨k, hqueue, hflight, hnone, hdb, _⟩ := drained_eq delete maxBytes hitem
  have hcount : (q.drained delete maxBytes).waitingTxs.count t +
      (q.drained delete maxBytes).flyingTxs.count t = q.waitingTxs.count t + q.flyingTxs.count t := by
    unfold waitingTxs flyingTxs
    rw [hqueue, hflight, Nat.add_comm, ← List.count_append, ← List.flatMap_append,
      List.take_append_drop, List.flatMap_append, List.count_append, Nat.add_comm]
  refine ⟨?_, hcount⟩
  rw [setPostponed_of_none hnone]
  refine ⟨hcount.trans_le h.once, ?_, hpost, ?_⟩
  · intro k' b hb ht
    have hb' : q.db.entries.get? k' = some b := hdb ▸ hb
    show Lists (q.drained delete maxBytes).queue.toList k' t ∨
      Lists (q.drained delete maxBytes).inFlight k' t ∨ _
    rw [hqueue, hflight]
    have hl : Lists (q.inFlight ++ q.queue.toList) k' t := by
      rcases h.covered k' b hb' ht with hl | hl | hl
      · exact hl.mono (List.subset_append_right _ _)
      · exact hl.mono (List.subset_append_left _ _)
      · rw [hitem] at hl
        obtain ⟨_, hmem, _⟩ := hl
        exact absurd hmem List.not_mem_nil
    obtain ⟨item, hmem, hkey, hti⟩ := hl
    rw [← List.take_append_drop k (q.inFlight ++ q.queue.toList)] at hmem
    rcases List.mem_append.mp hmem with hmem | hmem
    · exact .inr (.inl ⟨item, hmem, hkey, hti⟩)
    · exact .inl ⟨item, hmem, hkey, hti⟩
  · intro i hi
    have hi' : (q.drained delete maxBytes).postponedItem = some i := hi
    rw [hnone] at hi'
    cases hi'

/-! ## Acknowledging -/

omit [Transaction Tx] in
theorem HeldOnce.postponedPersisted (h : q.HeldOnce t) : q.postponedPersisted.HeldOnce t := by
  unfold BatchQueue.postponedPersisted
  split
  · next hc =>
    have hnone : q.postponedItem = none := Option.isNone_iff_eq_none.mp hc.2
    refine ⟨h.once, ?_, h.postponed, ?_⟩
    · intro k b hb ht
      have hb' : (q.db.entries.put q.nextPrependSeq q.inFlightPostponed).get? k = some b := hb
      rw [OrdMap.get?_put] at hb'
      split at hb'
      · next hk =>
        refine .inr (.inr ⟨_, List.mem_singleton_self _, hk.symm, ?_⟩)
        rw [Option.some.inj hb']
        exact ht
      · rcases h.covered k b hb' ht with hl | hl | hl
        · exact .inl hl
        · exact .inr (.inl hl)
        · rw [hnone] at hl
          obtain ⟨_, hmem, _⟩ := hl
          exact absurd hmem List.not_mem_nil
    · intro i hi
      rw [← Option.some.inj hi]
  · exact h

omit [DecidableEq Tx] [Transaction Tx] in
/-- The WAL after `Ack` deleted the entries in flight. -/
theorem get?_foldl_delete (items : List (QueuedItem Tx)) (m : OrdMap Nat (List Tx)) (k : Nat)
    {b : List Tx} (h : (items.foldl (fun m item => m.delete item.key) m).get? k = some b) :
    m.get? k = some b ∧ ∀ item ∈ items, item.key ≠ k := by
  induction items generalizing m with
  | nil => exact ⟨h, fun _ hmem => absurd hmem List.not_mem_nil⟩
  | cons item rest ih =>
    obtain ⟨hget, hrest⟩ := ih (m.delete item.key) h
    rw [OrdMap.get?_delete] at hget
    split at hget
    · cases hget
    · next hne =>
      refine ⟨hget, fun x hx => ?_⟩
      rcases List.mem_cons.mp hx with rfl | hx
      · exact fun heq => hne heq.symm
      · exact hrest x hx

def acked (q : BatchQueue Tx) : BatchQueue Tx := finishAck (inFlightDeleted (postponedPersisted q))

omit [DecidableEq Tx] in
/-- What waits after an ack: the postponed transactions, and what waited before. -/
theorem waitingTxs_acked (hitem : ∀ i, q.postponedItem = some i → i.batch = q.inFlightPostponed) :
    q.acked.waitingTxs = q.inFlightPostponed ++ q.waitingTxs := by
  unfold waitingTxs acked finishAck inFlightDeleted BatchQueue.postponedPersisted
  by_cases hc : q.inFlightPostponed ≠ [] ∧ q.postponedItem.isNone
  · rw [if_pos hc]
    simp
  · rw [if_neg hc]
    cases hp : q.postponedItem with
    | some i =>
      rw [← hitem i hp]
      simp
    | none =>
      have hnil : q.inFlightPostponed = [] := by
        by_contra hne
        exact hc ⟨hne, by rw [hp]; rfl⟩
      simp [hnil]

omit [DecidableEq Tx] in
theorem idle_acked (q : BatchQueue Tx) : q.acked.Idle := ⟨rfl, rfl, rfl⟩

theorem HeldOnce.acked (h : q.HeldOnce t) : q.acked.HeldOnce t := by
  have hwaiting := waitingTxs_acked h.item
  have hp := h.postponedPersisted
  refine ⟨?_, ?_, Nat.zero_le _, ?_⟩
  · rw [hwaiting, List.count_append]
    have hle := h.postponed
    have hone := h.once
    show q.inFlightPostponed.count t + q.waitingTxs.count t + 0 ≤ 1
    omega
  · intro k b hb ht
    obtain ⟨hget, hkeys⟩ := get?_foldl_delete _ _ k hb
    left
    rcases hp.covered k b hget ht with hl | hl | hl
    · obtain ⟨item, hmem, hkey, hti⟩ := hl
      refine ⟨item, ?_, hkey, hti⟩
      unfold BatchQueue.acked finishAck
      dsimp only
      split
      · rw [HeadSlice.toList_prepend]
        exact List.mem_cons_of_mem _ hmem
      · exact hmem
    · obtain ⟨item, hmem, hkey, _⟩ := hl
      exact absurd hkey (hkeys item hmem)
    · obtain ⟨item, hmem, hkey, hti⟩ := hl
      have hitem : q.postponedPersisted.postponedItem = some item := Option.mem_toList.mp hmem
      refine ⟨item, ?_, hkey, hti⟩
      have hitem' : (inFlightDeleted q.postponedPersisted).postponedItem = some item := hitem
      unfold BatchQueue.acked finishAck
      dsimp only
      rw [hitem', HeadSlice.toList_prepend]
      exact List.mem_cons_self
  · intro i hi
    cases hi

end BatchQueue

end EvNode
