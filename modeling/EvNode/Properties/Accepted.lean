import EvNode.Properties.Moves

/-!
# Blocks that are accepted

With an executor and a store that succeed, an event is dropped, waits, is rejected or is committed
(`processHeightEvent_settles`). No event comes to wait a second time.
-/

namespace EvNode

open Crash Proc

variable {Tx : Type}

/-- Executor and store succeed, and the context is not done. -/
structure SyncEnv.Succeeds (env : SyncEnv Tx) : Prop where
  cancelled : env.cancelled = false
  executeTxs : env.executeTxs = .ok
  commit : env.commit = .ok

instance (env : SyncEnv Tx) : Decidable env.Succeeds :=
  decidable_of_iff (env.cancelled = false ∧ env.executeTxs = .ok ∧ env.commit = .ok)
    ⟨fun h => ⟨h.1, h.2.1, h.2.2⟩, fun h => ⟨h.cancelled, h.executeTxs, h.commit⟩⟩

namespace Syncer

variable [Transaction Tx]

/-- Whether the next block gets as far as `ApplyBlock`. -/
def applies (cfg : SyncerConfig Tx) (env : SyncEnv Tx) (event : DAHeightEvent Tx)
    (s : Syncer Tx) : Bool :=
  match env.cancelled, (validateBlock cfg env.now s.lastState event.data event.header
    s.lastHeaderHashErrCount).1, (verification cfg env event s).1 with
  | false, .ok (), .error e => !e.is .maliciousProposer
  | false, .ok (), _ => true
  | _, _, _ => false

/-- The event, as the next block, passes every check. -/
def Accepts (cfg : SyncerConfig Tx) (env : SyncEnv Tx) (s : Syncer Tx) (event : DAHeightEvent Tx) :
    Prop :=
  ∃ event' ∈ withLastDataHash cfg s.store event, applies cfg env event' s = true

instance (cfg : SyncerConfig Tx) (env : SyncEnv Tx) (s : Syncer Tx) (event : DAHeightEvent Tx) :
    Decidable (Accepts cfg env s event) :=
  inferInstanceAs (Decidable (∃ event' ∈ withLastDataHash cfg s.store event,
    applies cfg env event' s = true))

section

variable {cfg : SyncerConfig Tx} {env : SyncEnv Tx} {event : DAHeightEvent Tx} {s s' : Syncer Tx}

theorem applies_iff : applies cfg env event s = true ↔ env.cancelled = false ∧
    (∃ count, validateBlock cfg env.now s.lastState event.data event.header
      s.lastHeaderHashErrCount = (.ok (), count)) ∧
    ∀ e, (verification cfg env event s).1 = .error e → e.is .maliciousProposer = false := by
  unfold applies
  rcases hv : validateBlock cfg env.now s.lastState event.data event.header
    s.lastHeaderHashErrCount with ⟨v, count⟩
  cases env.cancelled <;> cases v <;> cases (verification cfg env event s).1 <;> simp

/-- What becomes of an event when executor and store succeed. -/
inductive Settles (cfg : SyncerConfig Tx) (env : SyncEnv Tx) (event : DAHeightEvent Tx)
    (s : Syncer Tx) : Syncer Tx → Prop
  | dropped (h : event.header.header.height ≤ s.store.height ∨
      s.cache.isHeaderSeen (headerHash cfg event) = true) : Settles cfg env event s s
  | waits (hlt : s.store.height + 1 < event.header.header.height) :
    Settles cfg env event s
      { s with cache := s.cache.setPendingEvent event.header.header.height event }
  | rejected {s' : Syncer Tx} (hnext : event.header.header.height = s.store.height + 1)
      (hnot : ¬ Accepts cfg env s event) (h : Rejected s s') : Settles cfg env event s s'
  | committed (event' : DAHeightEvent Tx) (count : Nat)
      (hnext : event.header.header.height = s.store.height + 1)
      (hev : withLastDataHash cfg s.store event = some event')
      (hv : validateBlock cfg env.now s.lastState event'.data event'.header
        s.lastHeaderHashErrCount = (.ok (), count)) :
    Settles cfg env event s (afterCommit cfg env event' s.lastState count s)

theorem trySync_accepted (henv : env.Succeeds) (h : applies cfg env event s = true) :
    ∃ count, validateBlock cfg env.now s.lastState event.data event.header
        s.lastHeaderHashErrCount = (.ok (), count) ∧
      trySyncNextBlock cfg env event s =
        (.ok (), afterCommit cfg env event s.lastState count s) := by
  obtain ⟨hcan, ⟨count, hv⟩, hm⟩ := applies_iff.mp h
  refine ⟨count, hv, ?_⟩
  show trySyncNextBlockWithState cfg env event s.lastState s = _
  rw [trySync_valid cfg env event hcan hv]
  rcases verifyBlock_cases cfg env event { s with lastHeaderHashErrCount := count } with
    ⟨-, hok⟩ | ⟨e, he, hmal, -⟩
  · rw [bind_run_ok hok]
    unfold applyBlock
    rw [henv.executeTxs, henv.commit]
    rfl
  · cases (hm e he).symm.trans hmal

/-- The errors after which an event is not scheduled again. -/
def Final (e : Err) : Prop :=
  e.is .invalidBlock = true ∨ e.is .maliciousProposer = true ∨ e.is .invalidState = true

theorem trySync_refused (hcan : env.cancelled = false) (h : applies cfg env event s ≠ true) :
    ∃ e s', trySyncNextBlock cfg env event s = (.error e, s') ∧ Final e ∧ Rejected s s' := by
  show ∃ e s', trySyncNextBlockWithState cfg env event s.lastState s = (.error e, s') ∧ _
  have hcase := trySync_cases cfg env event s.lastState s
  rcases hv : validateBlock cfg env.now s.lastState event.data event.header
    s.lastHeaderHashErrCount with ⟨v, count⟩
  cases v with
  | error e =>
    rw [trySync_invalid cfg env event hcan hv] at hcase ⊢
    refine ⟨_, _, rfl, ?_, hcase.rejected nofun⟩
    split
    · next hkind => exact (Bool.or_eq_true_iff.mp hkind).elim (.inr ∘ .inr) .inl
    · exact .inl rfl
  | ok u =>
    rw [trySync_valid cfg env event hcan hv] at hcase ⊢
    rcases verifyBlock_cases cfg env event { s with lastHeaderHashErrCount := count } with
      ⟨hok, -⟩ | ⟨e, -, hmal, herr⟩
    · exact absurd (applies_iff.mpr ⟨hcan, ⟨count, hv⟩, hok⟩) h
    · rw [bind_run_error herr] at hcase ⊢
      exact ⟨e, _, rfl, .inr (.inl hmal), hcase.rejected nofun⟩

omit [Transaction Tx] in
theorem Rejected.critical (h : Rejected s s') :
    Rejected s { s' with hasCriticalError := true } :=
  ⟨h.store, h.lastState, h.heightInCh, h.pendingEvents, h.processedHeight, h.headerSeen,
    h.headerIndex, h.dataIndex, h.headerMarks, h.dataMarks⟩

/-- **One event, when executor and store succeed.** -/
theorem processHeightEvent_settles (cfg : SyncerConfig Tx) (henv : env.Succeeds)
    (event : DAHeightEvent Tx) (s : Syncer Tx) :
    ∃ s', processHeightEvent cfg env event s = (.ok (), s') ∧ Settles cfg env event s s' := by
  unfold processHeightEvent
  rw [get_bind_run]
  by_cases hold : event.header.header.height ≤ s.store.height ∨
      s.cache.isHeaderSeen (headerHash cfg event) = true
  · rw [if_pos hold]
    exact ⟨_, rfl, .dropped hold⟩
  rw [if_neg hold]
  by_cases hnext : event.header.header.height = s.store.height + 1
  case neg =>
    rw [if_pos hnext]
    exact ⟨_, rfl, .waits (by omega)⟩
  rw [if_neg (not_not.mpr hnext)]
  cases hev : withLastDataHash cfg s.store event with
  | none => exact ⟨_, rfl, .rejected hnext (fun ⟨_, h, _⟩ => nomatch hev.symm.trans h) (.refl s)⟩
  | some event' =>
    dsimp only
    by_cases happlies : applies cfg env event' s = true
    · obtain ⟨count, hv, hrun⟩ := trySync_accepted henv happlies
      rw [bind_run_ok (attempt_run_ok hrun)]
      exact ⟨_, rfl, .committed event' count hnext hev hv⟩
    · have hnot : ¬ Accepts cfg env s event := fun ⟨_, h, hap⟩ =>
        happlies (Option.some.inj (hev.symm.trans h) ▸ hap)
      obtain ⟨e, s1, hrun, hfinal, hrej⟩ := trySync_refused henv.cancelled happlies
      rw [bind_run_ok (attempt_run_error hrun)]
      dsimp only
      rw [get_bind_run]
      -- the error is one of the three that are not scheduled again
      split
      · exact ⟨_, rfl, .rejected hnext hnot hrej⟩
      next hno =>
      split
      · exact ⟨_, rfl, .rejected hnext hnot hrej.critical⟩
      next hmal =>
      split
      · exact ⟨_, rfl, .rejected hnext hnot hrej.critical⟩
      next hinv =>
      rcases hfinal with h | h | h
      · exact absurd (by simp [h]) hno
      · exact absurd h hmal
      · exact absurd h hinv

theorem processNext_settles (cfg : SyncerConfig Tx) (henv : env.Succeeds) {rest : List (DAHeightEvent Tx)}
    (hch : s.heightInCh = event :: rest) :
    ∃ s', processNext cfg env s = (.ok (), s') ∧
      Settles cfg env event { s with heightInCh := rest } s' := by
  unfold processNext
  rw [get_bind_run, hch]
  dsimp only
  rw [modify_bind_run]
  exact processHeightEvent_settles cfg henv event _

theorem processNext_nil (hch : s.heightInCh = []) : processNext cfg env s = (.ok (), s) := by
  unfold processNext
  rw [get_bind_run, hch]
  rfl

end

end Syncer

end EvNode
