import EvNode.Lib.History
import EvNode.Lib.Run
import EvNode.Properties.SyncBlock
import EvNode.Syncing.Hooked

/-!
# The part beside the syncer changes nothing

`exec_syncer`: without its part, a run of `Hooked` is a run of `Syncer`. `processHeightEvent_cases`
says what becomes of an event, and what the part is told of it.
-/

namespace EvNode

open Crash Proc

variable {Tx ρ : Type} {hooks : SyncHooks Tx ρ}

namespace Hooked

/-! ## Without the part -/

theorem erases_onSyncer {α : Type} (p : Proc (Syncer Tx) Err α) :
    Erases Hooked.syncer (onSyncer p : Proc (Hooked Tx ρ) Err α) p :=
  erases_zoom (fun _ _ => rfl) p

theorem erases_start (hooks : SyncHooks Tx ρ) (cfg : SyncerConfig Tx) (env : Syncer.StartEnv) :
    Erases Hooked.syncer (start hooks cfg env) (Syncer.start cfg env) :=
  (erases_onSyncer _).after_record fun _ => rfl

variable [Transaction Tx]

theorem erases_trySync (hooks : SyncHooks Tx ρ) (cfg : SyncerConfig Tx) (env : SyncEnv Tx)
    (event : DAHeightEvent Tx) (currentState : State) :
    Erases Hooked.syncer (trySyncNextBlockWithState hooks cfg env event currentState)
      (Syncer.trySyncNextBlockWithState cfg env event currentState) :=
  (erases_onSyncer _).record fun _ _ => rfl

theorem erases_trySyncNextBlock (hooks : SyncHooks Tx ρ) (cfg : SyncerConfig Tx) (env : SyncEnv Tx)
    (event : DAHeightEvent Tx) :
    Erases Hooked.syncer (trySyncNextBlock hooks cfg env event)
      (Syncer.trySyncNextBlock cfg env event) :=
  erases_get fun w => erases_trySync hooks cfg env event w.syncer.lastState

theorem erases_processHeightEvent (hooks : SyncHooks Tx ρ) (cfg : SyncerConfig Tx)
    (env : SyncEnv Tx) (event : DAHeightEvent Tx) :
    Erases Hooked.syncer (processHeightEvent hooks cfg env event)
      (Syncer.processHeightEvent cfg env event) := by
  refine erases_get fun w => ?_
  dsimp only
  split
  · exact fun _ => rfl
  split
  · exact erases_onSyncer _
  cases Syncer.withLastDataHash cfg w.syncer.store event with
  | none => exact erases_pure ()
  | some event' =>
    refine (erases_trySyncNextBlock hooks cfg env event').attempt.bind fun r => ?_
    cases r with
    | ok _ => exact erases_pure ()
    | error e =>
      refine erases_get fun w => ?_
      split
      · exact erases_pure ()
      split
      · exact erases_onSyncer _
      split
      · exact erases_onSyncer _
      · exact erases_onSyncer _

theorem erases_processNext (hooks : SyncHooks Tx ρ) (cfg : SyncerConfig Tx) (env : SyncEnv Tx) :
    Erases Hooked.syncer (processNext hooks cfg env) (Syncer.processNext cfg env) := by
  refine erases_get fun w => ?_
  cases w.syncer.heightInCh with
  | nil => exact erases_pure ()
  | cons event rest =>
    exact (erases_onSyncer _).bind fun _ => erases_processHeightEvent hooks cfg env event

theorem erases_recoverFromRaft (hooks : SyncHooks Tx ρ) (cfg : SyncerConfig Tx) (env : SyncEnv Tx)
    (raft : Syncer.RaftBlockState Tx) :
    Erases Hooked.syncer (recoverFromRaft hooks cfg env raft)
      (Syncer.recoverFromRaft cfg env raft) := by
  intro w
  unfold recoverFromRaft
  rw [get_bind_run]
  split
  · next hnext =>
    rw [Syncer.recoverFromRaft_next hnext]
    exact erases_trySync hooks cfg env _ _ w
  · exact erases_onSyncer _ w

theorem step_syncer (hooks : SyncHooks Tx ρ) (cfg : SyncerConfig Tx) (l : Live (Hooked Tx ρ))
    (op : Syncer.Op Tx) :
    Syncer.step cfg (l.map Hooked.syncer) op = (step hooks cfg l op).map Hooked.syncer := by
  cases op with
  | start env => exact Live.map_boot (erases_start hooks cfg env) l
  | crash => rfl
  | processNext env => exact Live.map_call (erases_processNext hooks cfg env) l
  | recoverFromRaft env raft => exact Live.map_call (erases_recoverFromRaft hooks cfg env raft) l
  | _ =>
    unfold Syncer.step step
    exact Live.map_call (erases_onSyncer _) l

/-- **The part changes nothing**, in any run. -/
theorem exec_syncer (hooks : SyncHooks Tx ρ) (cfg : SyncerConfig Tx) (l : Live (Hooked Tx ρ))
    (ops : List (Syncer.Op Tx)) :
    Run.exec (Syncer.step cfg) (l.map Hooked.syncer) ops =
      (Run.exec (step hooks cfg) l ops).map Hooked.syncer :=
  List.foldl_hom (Live.map Hooked.syncer) (step_syncer hooks cfg)

/-! ## One event -/

section Cases

variable (hooks : SyncHooks Tx ρ) (cfg : SyncerConfig Tx) (env : SyncEnv Tx)
  (event : DAHeightEvent Tx)

def synced (currentState : State) (count : Nat) (w : Hooked Tx ρ) : Hooked Tx ρ :=
  ⟨Syncer.synced cfg env event currentState (Syncer.checked cfg env event count w.syncer),
    hooks.committed event (Syncer.nextState cfg env event currentState) w.part⟩

inductive TrySyncCase (currentState : State) (w : Hooked Tx ρ) :
    Exit Err Unit × Hooked Tx ρ → Prop
  | failed (r : Exit Err Unit) (s : Syncer Tx) (hr : r ≠ .ok ())
      (htry : Syncer.TrySyncCase cfg env event currentState w.syncer (r, s)) :
    TrySyncCase currentState w (r, w.withSyncer s)
  | committed (count : Nat) (hcan : env.cancelled = false)
      (hv : Syncer.validateBlock cfg env.now currentState event.data event.header
        w.syncer.lastHeaderHashErrCount = (.ok (), count))
      (hm : ∀ e, (Syncer.verification cfg env event w.syncer).1 = .error e →
        e.is .maliciousProposer = false) :
    TrySyncCase currentState w (.ok (), synced hooks cfg env event currentState count w)

theorem trySync_cases (currentState : State) (w : Hooked Tx ρ) :
    TrySyncCase hooks cfg env event currentState w
      (trySyncNextBlockWithState hooks cfg env event currentState w) := by
  have hc := Syncer.trySync_cases cfg env event currentState w.syncer
  have hrun : onSyncer (Syncer.trySyncNextBlockWithState cfg env event currentState) w =
      ((Syncer.trySyncNextBlockWithState cfg env event currentState w.syncer).1, w.withSyncer
        (Syncer.trySyncNextBlockWithState cfg env event currentState w.syncer).2) := rfl
  unfold trySyncNextBlockWithState
  generalize Syncer.trySyncNextBlockWithState cfg env event currentState w.syncer = q at hc hrun
  obtain ⟨r, s⟩ := q
  cases r with
  | error e =>
    rw [bind_run_error hrun]
    exact .failed _ s nofun hc
  | crash =>
    rw [bind_run_crash hrun]
    exact .failed _ s nofun hc
  | ok u =>
    rw [bind_run_ok hrun]
    cases hc with
    | uncommitted r count hcan hv hm hr =>
      rcases hr with hr | hr
      · cases hr
      · cases hr
    | synced count hcan hv hm => exact .committed count hcan hv hm

inductive EventCase (w : Hooked Tx ρ) : Exit Err Unit × Hooked Tx ρ → Prop
  | skipped (h : event.header.header.height ≤ w.syncer.store.height ∨
        w.syncer.cache.isHeaderSeen (Syncer.headerHash cfg event) = true) :
    EventCase w (.ok (), { w with part := hooks.skipped event w.part })
  | waits (hlt : w.syncer.store.height + 1 < event.header.header.height) :
    EventCase w (.ok (), w.withSyncer { w.syncer with
      cache := w.syncer.cache.setPendingEvent event.header.header.height event })
  | unread (hnext : event.header.header.height = w.syncer.store.height + 1)
      (hev : Syncer.withLastDataHash cfg w.syncer.store event = none) : EventCase w (.ok (), w)
  | failed (event' : DAHeightEvent Tx) (r : Exit Err Unit) (s1 : Syncer Tx)
      (hnext : event.header.header.height = w.syncer.store.height + 1)
      (hseen : w.syncer.cache.isHeaderSeen (Syncer.headerHash cfg event) = false)
      (hev : Syncer.withLastDataHash cfg w.syncer.store event = some event') (hr : r ≠ .ok ())
      (htry : Syncer.TrySyncCase cfg env event' w.syncer.lastState w.syncer (r, s1))
      (r' : Exit Err Unit) (s' : Syncer Tx) (hr' : r = .crash ↔ r' = .crash)
      (hs' : Syncer.AfterTry event' s1 s') : EventCase w (r', w.withSyncer s')
  | committed (event' : DAHeightEvent Tx) (count : Nat) (hcan : env.cancelled = false)
      (hnext : event.header.header.height = w.syncer.store.height + 1)
      (hseen : w.syncer.cache.isHeaderSeen (Syncer.headerHash cfg event) = false)
      (hev : Syncer.withLastDataHash cfg w.syncer.store event = some event')
      (hv : Syncer.validateBlock cfg env.now w.syncer.lastState event'.data event'.header
        w.syncer.lastHeaderHashErrCount = (.ok (), count))
      (hm : ∀ e, (Syncer.verification cfg env event' w.syncer).1 = .error e →
        e.is .maliciousProposer = false) :
    EventCase w (.ok (), synced hooks cfg env event' w.syncer.lastState count w)

omit [Transaction Tx] in
/-- What follows an error of `trySyncNextBlock`. -/
theorem afterTry_run (event' : DAHeightEvent Tx) (e : Err) (w1 : Hooked Tx ρ) :
    ∃ s', Syncer.AfterTry event' w1.syncer s' ∧
      (get >>= fun w : Hooked Tx ρ =>
        if e.is .invalidBlock || w.syncer.hasCriticalError then pure ()
        else if e.is .maliciousProposer then onSyncer Syncer.sendCriticalError
        else if e.is .invalidState then onSyncer Syncer.sendCriticalError
        else onSyncer (Syncer.modifyCache fun m =>
          m.setPendingEvent event'.header.header.height event') : Proc (Hooked Tx ρ) Err Unit) w1 =
        (.ok (), w1.withSyncer s') := by
  rw [get_bind_run]
  split
  · exact ⟨_, .same, rfl⟩
  split
  · exact ⟨_, .critical, rfl⟩
  split
  · exact ⟨_, .critical, rfl⟩
  · exact ⟨_, .pending, rfl⟩

/-- **One event.** -/
theorem processHeightEvent_cases (w : Hooked Tx ρ) :
    EventCase hooks cfg env event w (processHeightEvent hooks cfg env event w) := by
  unfold processHeightEvent
  rw [get_bind_run]
  by_cases hseen : event.header.header.height ≤ w.syncer.store.height ∨
      w.syncer.cache.isHeaderSeen (Syncer.headerHash cfg event) = true
  · rw [if_pos hseen]
    exact .skipped hseen
  rw [if_neg hseen]
  by_cases hnext : event.header.header.height ≠ w.syncer.store.height + 1
  · rw [if_pos hnext]
    have hgt : ¬ event.header.header.height ≤ w.syncer.store.height := fun h => hseen (.inl h)
    exact .waits (by omega)
  rw [if_neg hnext]
  have hnext := not_not.mp hnext
  have hseen : w.syncer.cache.isHeaderSeen (Syncer.headerHash cfg event) = false :=
    Bool.eq_false_iff.mpr fun h => hseen (.inr h)
  cases hev : Syncer.withLastDataHash cfg w.syncer.store event with
  | none => exact .unread hnext hev
  | some event' =>
    have hheight : event'.header.header.height = event.header.header.height := by
      rw [(Syncer.withLastDataHash_header cfg hev).1]
    have hc := trySync_cases hooks cfg env event' w.syncer.lastState w
    have hrun : trySyncNextBlock hooks cfg env event' w =
        trySyncNextBlockWithState hooks cfg env event' w.syncer.lastState w := rfl
    show EventCase hooks cfg env event w ((attempt (trySyncNextBlock hooks cfg env event') >>= _) w)
    generalize trySyncNextBlockWithState hooks cfg env event' w.syncer.lastState w = q at hc hrun
    cases hc with
    | committed count hcan hv hm =>
      rw [bind_run_ok (attempt_run_ok hrun)]
      exact .committed event' count hcan hnext hseen hev hv hm
    | failed r s hr htry =>
      cases r with
      | ok u => exact absurd rfl hr
      | crash =>
        rw [bind_run_crash (attempt_run_crash hrun)]
        exact .failed event' _ s hnext hseen hev hr htry _ s Iff.rfl .same
      | error e =>
        rw [bind_run_ok (attempt_run_error hrun)]
        obtain ⟨s', hs', hafter⟩ := afterTry_run event' e (w.withSyncer s)
        dsimp only
        rw [← hheight, hafter]
        exact .failed event' _ s hnext hseen hev hr htry _ s' (by simp) hs'

end Cases

end Hooked

/-! ## The syncer alone -/

/-- Nothing is told of the events. -/
def SyncHooks.none : SyncHooks Tx Unit := ⟨id, fun _ => id, fun _ _ => id⟩

/-- **One event**, without a part. -/
theorem Syncer.processHeightEvent_cases [Transaction Tx] (cfg : SyncerConfig Tx) (env : SyncEnv Tx)
    (event : DAHeightEvent Tx) (s : Syncer Tx) :
    EventCase cfg env event s (processHeightEvent cfg env event s) := by
  have hc := Hooked.processHeightEvent_cases .none cfg env event ⟨s, ()⟩
  rw [Hooked.erases_processHeightEvent .none cfg env event ⟨s, ()⟩]
  generalize Hooked.processHeightEvent .none cfg env event ⟨s, ()⟩ = q at hc ⊢
  cases hc with
  | skipped h => exact .dropped (h.imp_right .inl)
  | waits hlt => exact .waits hlt
  | unread hnext hev => exact .dropped (.inr (.inr hev))
  | failed event' r s1 hnext hseen hev hr htry r' s' hr' hs' =>
    exact .tried event' r s1 hnext hseen hev htry r' s' hr' (fun hok => absurd hok hr) hs'
  | committed event' count hcan hnext hseen hev hv hm =>
    exact .tried event' _ _ hnext hseen hev (.synced count hcan hv hm) _ _ Iff.rfl (fun _ => rfl) .same

end EvNode
