import EvNode.Lib.Frame
import EvNode.Sequencer.Queue

/-!
# What one operation of the queue can do

One lemma for each operation says every state it can leave behind: an addition that is refused or
stored, a drain that crashes in its rollback or completes, an ack that stops before the postponed
entry, between it and the deletes, or not at all.
-/

namespace EvNode

open Crash Proc

variable {Tx : Type} [Transaction Tx]

namespace BatchQueue

/-! ## Draining -/

def rolledBack (delete : Outcome) (bq : BatchQueue Tx) : BatchQueue Tx :=
  if bq.inFlight = [] then bq
  else
    { bq with
      db := match bq.postponedItem, delete with
        | some item, .ok => { bq.db with entries := bq.db.entries.delete item.key }
        | _, _ => bq.db
      postponedItem := none
      inFlightPostponed := []
      queue := bq.queue.prependAll bq.inFlight
      inFlight := [] }

def drained (delete : Outcome) (maxBytes : Nat) (bq : BatchQueue Tx) : BatchQueue Tx :=
  let bq := rolledBack delete bq
  let r := drainLoop maxBytes 0 [] bq.queue.toList
  { bq with
    inFlight := bq.inFlight ++ r.2
    queue := (bq.queue.advance ⟨[], 0⟩ r.2.length).compact }

def drainedTxs (delete : Outcome) (maxBytes : Nat) (bq : BatchQueue Tx) : List Tx :=
  (drainLoop maxBytes 0 [] (rolledBack delete bq).queue.toList).1

omit [Transaction Tx] in
theorem rollbackInFlightLocked_cases (delete : Outcome) (bq : BatchQueue Tx) :
    rollbackInFlightLocked delete bq = (.crash, bq) ∨
      rollbackInFlightLocked delete bq = (.ok (), rolledBack delete bq) := by
  unfold rollbackInFlightLocked rolledBack
  rw [get_bind_run]
  by_cases hin : bq.inFlight = []
  · right
    rw [if_pos hin, if_pos hin]
    rfl
  · rw [if_neg hin, if_neg hin]
    cases hp : bq.postponedItem with
    | none => exact .inr rfl
    | some item =>
      cases delete with
      | crash => exact .inl rfl
      | ok | fail => exact .inr rfl

/-- `Drain` never returns an error; the best-effort delete of the rollback can crash. -/
theorem drain_cases (delete : Outcome) (maxBytes : Nat) (bq : BatchQueue Tx) :
    drain delete maxBytes bq = (.crash, bq) ∨
      drain delete maxBytes bq = (.ok (drainedTxs delete maxBytes bq), drained delete maxBytes bq) := by
  unfold drain
  rcases rollbackInFlightLocked_cases delete bq with h | h
  · left
    exact bind_run_crash h
  · right
    rw [bind_run_ok h]
    rfl

/-! ## Adding -/

/-- The queue after `unique` was stored as a new entry. -/
def added (unique : List Tx) (seen : Finset Nat) (bq : BatchQueue Tx) : BatchQueue Tx :=
  { bq with
    txSeen := seen
    nextAddSeq := (bq.nextAddSeq + 1) % 2 ^ 64
    queue := bq.queue.push ⟨unique, bq.nextAddSeq⟩
    db := { bq.db with
      entries := bq.db.entries.put bq.nextAddSeq unique
      accepted := bq.db.accepted ++ unique } }

/-- `AddBatch` stores the new transactions of the batch, or only touches the dedup set. -/
theorem addBatch_state (put : Outcome) (batch : List Tx) (bq : BatchQueue Tx) :
    (∃ seen, (addBatch put batch bq).2 = { bq with txSeen := seen }) ∨
      (addBatch put batch bq).2 = added (dedup bq.txSeen batch).1 (dedup bq.txSeen batch).2 bq := by
  unfold addBatch
  rw [get_bind_run, modify_bind_run]
  by_cases hu : (dedup bq.txSeen batch).1 = []
  · rw [if_pos hu]
    exact .inl ⟨_, rfl⟩
  · rw [if_neg hu]
    by_cases hfull : 0 < bq.maxQueueSize ∧ bq.maxQueueSize ≤ bq.size
    · left
      simp only [hfull]
      exact ⟨_, rfl⟩
    · simp only [hfull, decide_false]
      cases put with
      | ok => exact .inr rfl
      | fail | crash => exact .inl ⟨_, rfl⟩

/-! ## Acknowledging -/

/-- The queue after the postponed transactions are written, if there are any to write. -/
def postponedPersisted (bq : BatchQueue Tx) : BatchQueue Tx :=
  if bq.inFlightPostponed ≠ [] ∧ bq.postponedItem.isNone then
    { bq with
      db := { bq.db with entries := bq.db.entries.put bq.nextPrependSeq bq.inFlightPostponed }
      nextPrependSeq := (bq.nextPrependSeq + (2 ^ 64 - 1)) % 2 ^ 64
      postponedItem := some ⟨bq.inFlightPostponed, bq.nextPrependSeq⟩ }
  else bq

/-- The queue after the entries in flight are deleted from the WAL. -/
def inFlightDeleted (bq : BatchQueue Tx) : BatchQueue Tx :=
  { bq with db := { bq.db with
      entries := bq.inFlight.foldl (fun m item => m.delete item.key) bq.db.entries } }

inductive AckCase (bq : BatchQueue Tx) : Exit Err Unit × BatchQueue Tx → Prop
  | putFailed (e : Err) : AckCase bq (.error e, bq)
  | putCrash : AckCase bq (.crash, bq)
  | deleteFailed (e : Err) (hin : bq.inFlight ≠ []) : AckCase bq (.error e, postponedPersisted bq)
  | deleteCrash (hin : bq.inFlight ≠ []) : AckCase bq (.crash, postponedPersisted bq)
  | acked : AckCase bq (.ok (), finishAck (inFlightDeleted (postponedPersisted bq)))

omit [Transaction Tx] in
theorem persistPostponed_cases (put : Outcome) (bq : BatchQueue Tx) :
    (∃ e, persistPostponed put bq = (.error e, bq)) ∨ persistPostponed put bq = (.crash, bq) ∨
      persistPostponed put bq = (.ok (), postponedPersisted bq) := by
  unfold persistPostponed postponedPersisted
  rw [get_bind_run]
  by_cases h : bq.inFlightPostponed ≠ [] ∧ bq.postponedItem.isNone
  · rw [if_pos h, if_pos h]
    cases put with
    | ok => exact .inr (.inr rfl)
    | fail => exact .inl ⟨_, rfl⟩
    | crash => exact .inr (.inl rfl)
  · rw [if_neg h, if_neg h]
    exact .inr (.inr rfl)

omit [Transaction Tx] in
@[simp] theorem inFlight_postponedPersisted (bq : BatchQueue Tx) :
    (postponedPersisted bq).inFlight = bq.inFlight := by
  unfold postponedPersisted
  split <;> rfl

omit [Transaction Tx] in
@[simp] theorem inFlightPostponed_postponedPersisted (bq : BatchQueue Tx) :
    bq.postponedPersisted.inFlightPostponed = bq.inFlightPostponed := by
  unfold BatchQueue.postponedPersisted
  split <;> rfl

omit [Transaction Tx] in
@[simp] theorem queue_postponedPersisted (bq : BatchQueue Tx) :
    bq.postponedPersisted.queue = bq.queue := by
  unfold BatchQueue.postponedPersisted
  split <;> rfl

omit [Transaction Tx] in
theorem inFlightDeleted_of_nil {bq : BatchQueue Tx} (h : bq.inFlight = []) :
    inFlightDeleted bq = bq := by
  obtain ⟨queue, maxSize, inFlight, postponed, item, seen, add, prepend, db⟩ := bq
  simp only at h
  subst h
  rfl

theorem ack_cases (put commit : Outcome) (bq : BatchQueue Tx) :
    AckCase bq (ack put commit bq) := by
  unfold ack
  rcases persistPostponed_cases put bq with ⟨e, h⟩ | h | h
  · rw [bind_run_error h]
    exact .putFailed e
  · rw [bind_run_crash h]
    exact .putCrash
  · rw [bind_run_ok h]
    by_cases hin : bq.inFlight = []
    · have hd : deleteInFlight commit (postponedPersisted bq) = (.ok (), postponedPersisted bq) := by
        unfold deleteInFlight
        rw [get_bind_run, inFlight_postponedPersisted, if_pos hin]
        rfl
      have hacked : AckCase bq (.ok (), finishAck (inFlightDeleted (postponedPersisted bq))) :=
        .acked
      rw [inFlightDeleted_of_nil (by rw [inFlight_postponedPersisted]; exact hin)] at hacked
      rw [bind_run_ok hd]
      exact hacked
    · have hd : deleteInFlight commit (postponedPersisted bq) =
          io commit (.wrap "failed to commit WAL deletes" (.text "datastore commit"))
            inFlightDeleted (postponedPersisted bq) := by
        unfold deleteInFlight
        rw [get_bind_run, inFlight_postponedPersisted, if_neg hin]
        rfl
      cases commit with
      | ok =>
        rw [bind_run_ok hd]
        exact .acked
      | fail =>
        rw [bind_run_error hd]
        exact .deleteFailed _ hin
      | crash =>
        rw [bind_run_crash hd]
        exact .deleteCrash hin

/-! ## Framing -/

/-- `view` shows nothing of the WAL, of the dedup set and of the sequence numbers, and does not change
with an entry that is put at the end. -/
structure Frames {ρ : Type} (view : BatchQueue Tx → ρ) : Prop where
  memory : ∀ (bq : BatchQueue Tx) seen add prepend db, view { bq with
    txSeen := seen, nextAddSeq := add, nextPrependSeq := prepend, db := db } = view bq
  push : ∀ (bq : BatchQueue Tx) item, item.batch ≠ [] →
    view { bq with queue := bq.queue.push item } = view bq

namespace Frames

variable {ρ : Type} {view : BatchQueue Tx → ρ} (h : Frames view)

include h

omit [Transaction Tx] in
theorem persistBatch (put : Outcome) (batch : List Tx) (key : Nat) :
    Keeps view (persistBatch put batch key) :=
  keeps_io _ _ fun _ => h.memory ..

omit [Transaction Tx] in
theorem deleteEntry (delete : Outcome) (key : Nat) :
    Keeps view (deleteEntry delete key : Proc (BatchQueue Tx) Err Unit) :=
  keeps_io _ _ fun _ => h.memory ..

theorem addBatch (put : Outcome) (batch : List Tx) : Keeps view (addBatch put batch) := by
  refine keeps_get fun bq => Keeps.bind (keeps_modify fun _ => h.memory ..) fun _ => ?_
  split
  · exact keeps_pure ()
  · next hne =>
    refine Keeps.bind (Keeps.attempt ((keeps_require _ _).bind fun _ =>
      ((h.persistBatch put _ _).mapError _).bind fun _ => keeps_modify fun _ =>
        (h.memory ..).trans (h.push _ _ hne))) ?_
    intro added
    cases added with
    | ok _ => exact keeps_pure ()
    | error e => exact Keeps.bind (keeps_modify fun _ => h.memory ..) fun _ => keeps_throw e

theorem dedupAndEnqueueLocked (cleanup : Outcome) (batch : List Tx) (key : Nat) :
    Keeps view (dedupAndEnqueueLocked cleanup batch key) := by
  refine keeps_get fun bq => Keeps.bind (keeps_modify fun _ => h.memory ..) fun _ => ?_
  split
  · exact (h.deleteEntry cleanup key).attempt.bind fun _ => keeps_pure _
  · next hne =>
    refine Keeps.bind (Keeps.attempt ?_) fun _ => keeps_modify fun _ => h.push _ _ hne
    split
    · exact h.persistBatch cleanup _ key
    · exact keeps_pure ()

theorem loadEntries (cleanup : Nat → Outcome) (entries : List (Nat × List Tx)) :
    Keeps view (loadEntries cleanup entries) := by
  induction entries with
  | nil => exact keeps_pure ()
  | cons entry rest ih =>
    exact Keeps.bind (keeps_modify fun _ => h.memory ..) fun _ =>
      (h.dedupAndEnqueueLocked _ _ _).bind fun _ => ih

theorem migrateLegacy (env : LoadEnv) (legacy : List (String × List Tx)) :
    Keeps view (migrateLegacy env legacy) := by
  induction legacy with
  | nil => exact keeps_pure ()
  | cons entry rest ih =>
    refine keeps_get fun bq => (h.persistBatch _ _ _).attempt.bind fun migrated => ?_
    cases migrated with
    | error _ => exact ih
    | ok _ =>
      refine Keeps.bind (Keeps.attempt (keeps_io _ _ fun _ => h.memory ..)) fun _ => ?_
      exact (h.dedupAndEnqueueLocked _ _ _).bind fun _ =>
        Keeps.bind (keeps_modify fun _ => h.memory ..) fun _ => ih

end Frames

end BatchQueue

end EvNode
