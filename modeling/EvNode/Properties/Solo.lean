import EvNode.Sequencer.Solo
import EvNode.Lib.Run

/-!
# No transaction is lost or doubled by the solo sequencer
-/

namespace EvNode

variable {Tx : Type} [Transaction Tx]

namespace SoloSystem

open SoloSequencer hiding id

/-! ## The loop in place -/

omit [Transaction Tx] in
theorem withStatus_cons (status s : FilterStatus) (tx : Tx) (txs : List Tx)
    (statuses : List FilterStatus) : withStatus status (tx :: txs) (s :: statuses) =
      (if s = status then [tx] else []) ++ withStatus status txs statuses := by
  unfold withStatus
  by_cases h : s = status <;> simp [h]

omit [Transaction Tx] in
/-- The front of the slice is the batch so far, then come slots that were read, and the rest is as
it was. -/
theorem compactLoop_eq (rest : List FilterStatus) (batch read todo postponed : List Tx)
    (hlen : rest.length = todo.length) :
    compactLoop rest (batch.length + read.length) batch.length (batch ++ read ++ todo) postponed =
      (batch ++ withStatus .ok todo rest, postponed ++ withStatus .postpone todo rest) := by
  induction rest generalizing batch read todo postponed with
  | nil =>
    cases List.length_eq_zero_iff.mp hlen.symm
    simp [compactLoop, withStatus]
  | cons status rest ih =>
    obtain ⟨tx, todo, rfl⟩ := List.exists_cons_of_length_eq_add_one hlen.symm
    have hrest : rest.length = todo.length := by simpa using hlen
    have hget : (batch ++ (read ++ tx :: todo))[batch.length + read.length]? = some tx := by
      simp
    -- a slot that is passed over joins those that were read
    have hpass := fun postponed => ih batch (read ++ [tx]) todo postponed hrest
    simp only [List.length_append, List.length_singleton, ← Nat.add_assoc, List.append_assoc,
      List.singleton_append] at hpass
    unfold compactLoop
    simp only [withStatus_cons, List.append_assoc, hget, Option.elim_some]
    cases status with
    | postpone => simp [hpass]
    | remove => simp [hpass]
    | ok =>
      cases read with
      | nil => simpa using ih (batch ++ [tx]) [] todo postponed hrest
      | cons old read =>
        have hset : (batch ++ (old :: read ++ tx :: todo)).set batch.length tx =
            batch ++ [tx] ++ (read ++ [tx]) ++ todo := by simp
        have hplace : batch.length + (old :: read).length + 1 =
            (batch ++ [tx]).length + (read ++ [tx]).length := by
          simp only [List.length_append, List.length_cons, List.length_nil]
          omega
        have hwrite : batch.length + 1 = (batch ++ [tx]).length := by simp
        rw [hset, hplace, hwrite]
        refine (ih (batch ++ [tx]) (read ++ [tx]) todo postponed hrest).trans ?_
        simp

/-! ## Runs -/

variable [DecidableEq Tx] {r : SoloSystem Tx}

omit [Transaction Tx] in
theorem count_withStatus (t : Tx) (txs : List Tx) (statuses : List FilterStatus)
    (hlen : statuses.length = txs.length) :
    (withStatus .ok txs statuses).count t + (withStatus .postpone txs statuses).count t +
      (withStatus .remove txs statuses).count t = txs.count t := by
  induction statuses generalizing txs with
  | nil =>
    cases List.length_eq_zero_iff.mp hlen.symm
    rfl
  | cons status statuses ih =>
    obtain ⟨tx, txs, rfl⟩ := List.exists_cons_of_length_eq_add_one hlen.symm
    have hrest := ih txs (by simpa using hlen)
    cases status <;> simp [withStatus_cons, List.count_cons] <;> omega

/-- Every occurrence of an admitted transaction is in one place, and the counter is the size of the
queue. -/
structure Conserved (r : SoloSystem Tx) : Prop where
  places : ∀ t, r.seq.queue.count t + r.calls.flatten.count t + r.returned.flatten.count t +
    r.removed.count t = r.admitted.count t
  bytes : r.seq.maxQueueBytes ≠ 0 → r.seq.queueBytes = totalSize r.seq.queue

theorem Conserved.finish (h : r.Conserved) (i : Nat) (filter : TxFilter Tx) :
    (step r (.finish i filter)).Conserved := by
  cases hcall : r.calls[i]? with
  | none => simpa [step, hcall] using h
  | some txs =>
    have hcalls : ∀ t, r.calls.flatten.count t =
        txs.count t + (r.calls.eraseIdx i).flatten.count t := by
      obtain ⟨hi, rfl⟩ := List.getElem?_eq_some_iff.mp hcall
      intro t
      rw [← List.count_append, ← List.flatten_cons]
      exact (List.getElem_cons_eraseIdx_perm hi).symm.flatten.count_eq t
    cases hrun : filter.run txs with
    | none =>
      refine ⟨fun t => ?_, by simpa [step, hcall, hrun] using h.bytes⟩
      have hplaces := h.places t
      simp [step, hcall, hrun, hcalls] at hplaces ⊢
      omega
    | some statuses =>
      have hone := filter.one_each _ _ hrun
      have hloop : compactLoop statuses 0 0 txs [] =
          (withStatus .ok txs statuses, withStatus .postpone txs statuses) := by
        simpa using compactLoop_eq statuses [] [] txs [] hone
      refine ⟨fun t => ?_, fun hcap => ?_⟩ <;> simp only [step, hcall, hrun, hloop, requeue]
      · have hplaces := h.places t
        have hsplit := count_withStatus t txs statuses hone
        split_ifs with hnil <;> simp [hcalls, hnil] at hplaces hsplit ⊢ <;> omega
      · have hbytes := h.bytes (by grind [step, requeue])
        split_ifs <;> simp_all [totalSize, Nat.add_comm]

theorem conserved_step (r : SoloSystem Tx) (op : Op Tx) (h : r.Conserved) :
    (step r op).Conserved := by
  cases op with
  | submit id batch =>
    have hadd : ∀ t, (r.seq.queue ++ batch).count t + r.calls.flatten.count t +
        r.returned.flatten.count t + r.removed.count t = (r.admitted ++ batch).count t := by
      intro t
      have hplaces := h.places t
      simp only [List.count_append]
      omega
    simp only [step, submitBatchTxs]
    split_ifs with _ hnil hnocap
    · exact h
    · exact ⟨by simpa [hnil] using h.places, h.bytes⟩
    · exact ⟨hadd, fun hcap => absurd hnocap hcap⟩
    · exact h
    · exact ⟨hadd, fun hcap => by simp [h.bytes hcap, totalSize]⟩
  | take id =>
    simp only [step, takeQueue]
    split_ifs with _ hnil
    · exact h
    · exact ⟨by simpa [hnil] using h.places, fun _ => rfl⟩
    · refine ⟨fun t => ?_, fun _ => rfl⟩
      have hplaces := h.places t
      simp only [List.flatten_append, List.flatten_singleton, List.count_append, List.count_nil]
      omega
  | finish i filter => exact h.finish i filter

/--
**The solo sequencer conserves transactions.**

In every interleaving of submissions with the two critical sections of any number of `GetNextBatch`
calls, and for every answer of the filter, each occurrence of an admitted transaction is in the
queue, in a call in progress, in one returned batch, or was removed by the filter. With a cap,
`queueBytes` is the size of the queue.
-/
theorem solo_conserves (id : String) (maxQueueBytes : Nat) (ops : List (Op Tx)) :
    let r := Run.exec step (start id maxQueueBytes) ops;
    (r.seq.queue ++ r.calls.flatten ++ r.returned.flatten ++ r.removed).Perm r.admitted ∧
      (r.seq.maxQueueBytes ≠ 0 → r.seq.queueBytes = totalSize r.seq.queue) := by
  intro r
  have h : r.Conserved :=
    Run.invariant_all Conserved conserved_step ops _ ⟨fun _ => rfl, fun _ => rfl⟩
  exact ⟨List.perm_iff_count.mpr fun t => by simpa [Nat.add_assoc] using h.places t, h.bytes⟩

end SoloSystem

end EvNode
