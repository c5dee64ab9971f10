import EvNode.Properties.ForcedCheck
import EvNode.Syncing.Syncer

/-!
# How the syncer handles one block

`trySync_cases` says everything `trySyncNextBlockWithState` can do, and `EventCase` what becomes of an
event. The forced-inclusion check is a parameter here (`verification`).
-/

namespace EvNode

open Crash Proc

variable {Tx : Type} [Transaction Tx]

namespace Syncer

section Cases

variable (cfg : SyncerConfig Tx) (env : SyncEnv Tx) (event : DAHeightEvent Tx)

/-- The forced-inclusion check of the event, and what it leaves. -/
def verification (s : Syncer Tx) : Exit Err Unit × ForcedInclusion Tx :=
  if event.source = .da then
    ForcedInclusion.verifyForcedInclusionTxs cfg.genesis cfg.fiRetriever env.verify
      s.lastState.daHeight event.daHeight event.data.txs s.forced
  else (.ok (), s.forced)

/-- The syncer after a block was found valid and was checked for forced inclusion. -/
def checked (count : Nat) (s : Syncer Tx) : Syncer Tx :=
  { s with lastHeaderHashErrCount := count, forced := (verification cfg env event s).2 }

/-- The state after the block. -/
def nextState (currentState : State) : State :=
  withDAHeight (currentState.nextState cfg.hashes event.header.header env.stateRoot
    env.nextProposer) event.daHeight

/-- The syncer after the block was committed. -/
def synced (currentState : State) (s : Syncer Tx) : Syncer Tx :=
  committed cfg event (nextState cfg env event currentState) { s with
    store := Node.commitBatch event.header event.data event.header.signature
      (nextState cfg env event currentState) s.store }

inductive TrySyncCase (currentState : State) (s : Syncer Tx) :
    Exit Err Unit × Syncer Tx → Prop
  | cancelled (hcan : env.cancelled = true) :
    TrySyncCase currentState s (.error (.text "context canceled"), s)
  | invalid (e : Err) (count : Nat)
      (hv : validateBlock cfg env.now currentState event.data event.header
        s.lastHeaderHashErrCount = (.error e, count)) :
    TrySyncCase currentState s
      (.error (if e.is .invalidState || e.is .invalidBlock then e else .join .invalidBlock e),
        { s with
          lastHeaderHashErrCount := count
          cache := evictInvalid cfg event e s.cache })
  | malicious (e : Err) (count : Nat) (hcan : env.cancelled = false)
      (hv : validateBlock cfg env.now currentState event.data event.header
        s.lastHeaderHashErrCount = (.ok (), count))
      (hm : (verification cfg env event s).1 = .error e) (he : e.is .maliciousProposer = true) :
    TrySyncCase currentState s
      (.error e, { checked cfg env event count s with cache := evictPair cfg event s.cache })
  | unapplied (count : Nat) (hcan : env.cancelled = false)
      (hv : validateBlock cfg env.now currentState event.data event.header
        s.lastHeaderHashErrCount = (.ok (), count))
      (hm : ∀ e, (verification cfg env event s).1 = .error e → e.is .maliciousProposer = false) :
    TrySyncCase currentState s
      (.error (.wrap "failed to apply block" (.text "failed to execute transactions")),
        { checked cfg env event count s with hasCriticalError := true })
  | uncommitted (r : Exit Err Unit) (count : Nat) (hcan : env.cancelled = false)
      (hv : validateBlock cfg env.now currentState event.data event.header
        s.lastHeaderHashErrCount = (.ok (), count))
      (hm : ∀ e, (verification cfg env event s).1 = .error e → e.is .maliciousProposer = false)
      (hr : r = .error (.text "failed to commit batch") ∨ r = .crash) :
    TrySyncCase currentState s (r, checked cfg env event count s)
  | synced (count : Nat) (hcan : env.cancelled = false)
      (hv : validateBlock cfg env.now currentState event.data event.header
        s.lastHeaderHashErrCount = (.ok (), count))
      (hm : ∀ e, (verification cfg env event s).1 = .error e → e.is .maliciousProposer = false) :
    TrySyncCase currentState s
      (.ok (), synced cfg env event currentState (checked cfg env event count s))

theorem verifyBlock_cases (s : Syncer Tx) :
    ((∀ e, (verification cfg env event s).1 = .error e → e.is .maliciousProposer = false) ∧
        verifyBlock cfg env event s =
          (.ok (), { s with forced := (verification cfg env event s).2 })) ∨
      ∃ e, (verification cfg env event s).1 = .error e ∧ e.is .maliciousProposer = true ∧
        verifyBlock cfg env event s = (.error e, { s with
          forced := (verification cfg env event s).2
          cache := evictPair cfg event s.cache }) := by
  unfold verifyBlock verification
  rw [get_bind_run]
  by_cases hsrc : event.source = .da
  · rw [if_pos hsrc, if_pos hsrc]
    rcases hr : ForcedInclusion.verifyForcedInclusionTxs cfg.genesis cfg.fiRetriever env.verify
      s.lastState.daHeight event.daHeight event.data.txs s.forced with ⟨v, f⟩
    have hzoom : onForced (ForcedInclusion.verifyForcedInclusionTxs cfg.genesis cfg.fiRetriever
        env.verify s.lastState.daHeight event.daHeight event.data.txs) s =
          (v, { s with forced := f }) := by
      show ((_ : Exit Err Unit × ForcedInclusion Tx).1, _) = _
      rw [hr]
    cases v with
    | ok u =>
      rw [bind_run_ok (attempt_run_ok hzoom)]
      exact .inl ⟨fun e he => (nomatch he), rfl⟩
    | error e =>
      rw [bind_run_ok (attempt_run_error hzoom)]
      dsimp only
      cases he : e.is .maliciousProposer with
      | true => exact .inr ⟨e, rfl, he, rfl⟩
      | false =>
        refine .inl ⟨fun e' he' => ?_, rfl⟩
        cases he'
        exact he
    | crash =>
      exact absurd hr (ForcedInclusion.verify_not_crash _ _ _ _ _ _ _ _)
  · rw [if_neg hsrc, if_neg hsrc]
    exact .inl ⟨fun e he => (nomatch he), rfl⟩

variable {currentState : State} {s : Syncer Tx}

theorem trySync_invalid {e : Err} {count : Nat}
    (hcan : env.cancelled = false)
    (hv : validateBlock cfg env.now currentState event.data event.header
      s.lastHeaderHashErrCount = (.error e, count)) :
    trySyncNextBlockWithState cfg env event currentState s =
      (.error (if e.is .invalidState || e.is .invalidBlock then e else .join .invalidBlock e),
        { s with
          lastHeaderHashErrCount := count
          cache := evictInvalid cfg event e s.cache }) := by
  have hcheck : checkBlock cfg env event currentState s =
      (.error (if e.is .invalidState || e.is .invalidBlock then e else .join .invalidBlock e),
        { s with
          lastHeaderHashErrCount := count
          cache := evictInvalid cfg event e s.cache }) := by
    unfold checkBlock
    rw [get_bind_run, hv]
    rfl
  unfold trySyncNextBlockWithState
  rw [hcan, bind_run_ok (require_run_true Bool.not_false _ _), bind_run_error hcheck]

theorem trySync_cancelled (hcan : env.cancelled = true) :
    trySyncNextBlockWithState cfg env event currentState s =
      (.error (.text "context canceled"), s) := by
  unfold trySyncNextBlockWithState
  rw [hcan, bind_run_error (require_run_false Bool.not_true _ _)]

/-- A block that passes validation is checked for forced inclusion next. -/
theorem trySync_valid {count : Nat}
    (hcan : env.cancelled = false)
    (hv : validateBlock cfg env.now currentState event.data event.header
      s.lastHeaderHashErrCount = (.ok (), count)) :
    trySyncNextBlockWithState cfg env event currentState s =
      (do
        verifyBlock cfg env event
        let newState ← mapError (.wrap "failed to apply block")
          (applyBlock cfg env event.header.header currentState)
        let newState := withDAHeight newState event.daHeight
        onStore (io env.commit (.text "failed to commit batch")
          (Node.commitBatch event.header event.data event.header.signature newState))
        modify (committed cfg event newState)) { s with lastHeaderHashErrCount := count } := by
  have hcheck : checkBlock cfg env event currentState s =
      (.ok (), { s with lastHeaderHashErrCount := count }) := by
    unfold checkBlock
    rw [get_bind_run, hv]
    rfl
  unfold trySyncNextBlockWithState
  rw [hcan, bind_run_ok (require_run_true Bool.not_false _ _), bind_run_ok hcheck]

theorem trySync_cases (currentState : State) (s : Syncer Tx) :
    TrySyncCase cfg env event currentState s
      (trySyncNextBlockWithState cfg env event currentState s) := by
  cases hcan : env.cancelled with
  | true =>
    rw [trySync_cancelled cfg env event hcan]
    exact .cancelled hcan
  | false =>
    rcases hv : validateBlock cfg env.now currentState event.data event.header
      s.lastHeaderHashErrCount with ⟨v, count⟩
    cases v with
    | error e =>
      rw [trySync_invalid cfg env event hcan hv]
      exact .invalid e count hv
    | ok u =>
      rw [trySync_valid cfg env event hcan hv]
      rcases verifyBlock_cases cfg env event { s with lastHeaderHashErrCount := count } with
        ⟨hm, hok⟩ | ⟨e, he, hmal, herr⟩
      · rw [bind_run_ok hok]
        unfold applyBlock
        cases env.executeTxs with
        | fail => exact .unapplied count hcan hv hm
        | crash => exact .uncommitted .crash count hcan hv hm (.inr rfl)
        | ok =>
          cases env.commit with
          | fail => exact .uncommitted _ count hcan hv hm (.inl rfl)
          | crash => exact .uncommitted .crash count hcan hv hm (.inr rfl)
          | ok => exact .synced count hcan hv hm
      · rw [bind_run_error herr]
        exact .malicious e count hcan hv he hmal

/-- What becomes of the syncer after a block was tried: nothing, a critical error, or the event
waits. -/
inductive AfterTry (s : Syncer Tx) : Syncer Tx → Prop
  | same : AfterTry s s
  | critical : AfterTry s { s with hasCriticalError := true }
  | pending : AfterTry s
      { s with cache := s.cache.setPendingEvent event.header.header.height event }

inductive EventCase (s : Syncer Tx) : Exit Err Unit × Syncer Tx → Prop
  | dropped (h : event.header.header.height ≤ s.store.height ∨
        s.cache.isHeaderSeen (headerHash cfg event) = true ∨
        withLastDataHash cfg s.store event = none) : EventCase s (.ok (), s)
  | waits (hlt : s.store.height + 1 < event.header.header.height) :
    EventCase s
      (.ok (), { s with cache := s.cache.setPendingEvent event.header.header.height event })
  | tried (event' : DAHeightEvent Tx) (r : Exit Err Unit) (s1 : Syncer Tx)
      (hnext : event.header.header.height = s.store.height + 1)
      (hseen : s.cache.isHeaderSeen (headerHash cfg event) = false)
      (hev : withLastDataHash cfg s.store event = some event')
      (htry : TrySyncCase cfg env event' s.lastState s (r, s1)) (r' : Exit Err Unit)
      (s' : Syncer Tx) (hr' : r = .crash ↔ r' = .crash) (hok : r = .ok () → s' = s1)
      (hs' : AfterTry event' s1 s') :
    EventCase s (r', s')

omit [Transaction Tx] in
theorem withLastDataHash_header {store : Store Tx} {event event' : DAHeightEvent Tx}
    (h : withLastDataHash cfg store event = some event') :
    event'.header = event.header ∧ event'.daHeight = event.daHeight ∧
      event'.source = event.source ∧ event'.data.txs = event.data.txs := by
  unfold withLastDataHash at h
  split at h
  · obtain ⟨b, _, rfl⟩ := Option.map_eq_some_iff.mp h
    exact ⟨rfl, rfl, rfl, rfl⟩
  · cases h
    exact ⟨rfl, rfl, rfl, rfl⟩

end Cases

/-! ## The other operations -/

section Buffers

omit [Transaction Tx]

/-- Only the pending map, the channel and the P2P cursor differ. -/
def Buffered (s s' : Syncer Tx) : Prop :=
  ∃ pendingEvents heightInCh processedHeight, s' = { s with
    cache := { s.cache with pendingEvents := pendingEvents }
    heightInCh := heightInCh
    processedHeight := processedHeight }

theorem buffered_sendOrPend (event : DAHeightEvent Tx) (s : Syncer Tx) :
    Buffered s (sendOrPend event s) := by
  unfold sendOrPend
  split
  · exact ⟨_, _, _, rfl⟩
  · exact ⟨_, _, _, rfl⟩

theorem buffered_pipeEvent (cfg : SyncerConfig Tx) (done : Bool) (event : DAHeightEvent Tx)
    (s : Syncer Tx) : Buffered s (pipeEvent cfg done event s) := by
  unfold pipeEvent
  split
  · exact ⟨_, _, _, rfl⟩
  · split
    · exact ⟨_, _, _, rfl⟩
    · exact buffered_sendOrPend event s

theorem buffered_processHeight (cfg : SyncerConfig Tx) (height : Nat) (header : SignedHeader)
    (data : Data Tx) (s : Syncer Tx) : Buffered s (processHeight cfg height header data s) := by
  unfold processHeight
  split
  · exact ⟨_, _, _, rfl⟩
  · split
    · exact ⟨_, _, _, rfl⟩
    · obtain ⟨cache, ch, processed, hs⟩ := buffered_sendOrPend ⟨header, data, 0, .p2p⟩ s
      dsimp only
      rw [hs]
      exact ⟨_, _, _, rfl⟩

theorem buffered_sendPending (room nextHeight : Nat) (s : Syncer Tx) :
    Buffered s (sendPending room nextHeight s) := by
  induction room generalizing nextHeight s with
  | zero => exact ⟨_, _, _, rfl⟩
  | succ room ih =>
    unfold sendPending
    split
    · exact ⟨_, _, _, rfl⟩
    · obtain ⟨cache, ch, processed, hs⟩ := ih (nextHeight + 1) _
      rw [hs]
      exact ⟨_, _, _, rfl⟩

end Buffers

theorem recoverFromRaft_next {cfg : SyncerConfig Tx} {env : SyncEnv Tx} {raft : RaftBlockState Tx}
    {s : Syncer Tx} (h : s.lastState.lastBlockHeight + 1 = raft.height) :
    recoverFromRaft cfg env raft s =
      trySyncNextBlockWithState cfg env ⟨raft.header, raft.data, 0, .raft⟩ s.lastState s := by
  unfold recoverFromRaft
  rw [get_bind_run, if_neg (by omega), if_pos h]

/-- Otherwise only hashes are compared. -/
theorem recoverFromRaft_of_ne {cfg : SyncerConfig Tx} {env : SyncEnv Tx} {raft : RaftBlockState Tx}
    {s : Syncer Tx} (h : s.lastState.lastBlockHeight + 1 ≠ raft.height) :
    (recoverFromRaft cfg env raft s).2 = s := by
  have hreq : ∀ b e, ((require b e : Proc (Syncer Tx) Err Unit) s).2 = s := by
    intro b e
    cases b <;> rfl
  unfold recoverFromRaft
  rw [get_bind_run, if_neg h]
  split
  · exact hreq _ _
  · split
    · cases s.store.getBlockData raft.height with
      | none => rfl
      | some b => exact hreq _ _
    · rfl

end Syncer

end EvNode
