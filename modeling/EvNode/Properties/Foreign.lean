import EvNode.Properties.Accepted
import EvNode.Properties.Validation

/-!
# Blocks that the proposer did not sign

An event is foreign if its header is not signed by the proposer that the state expects. Such a block
fails before anything but the signer is looked at, and the mark of its header is dropped. A header's
hash does not cover its signature, so that mark can be the one of the proposer's own header
(`foreign_event_unmarks`).

`foreign_events_have_no_effect`: apart from the marks of the headers in foreign events, a run is the
same without them. It is a statement about two runs: `masked` hides these marks, and every event is
handled alike with and without the mask (`erases_processHeightEvent_masked`).
-/

namespace EvNode

open Crash Proc

variable {Tx : Type}

/-! ## Marks that are hidden -/

/-- The cache without the marks of the hashes in `F`. -/
def Cache.masked (F : Bytes → Bool) (c : Cache) : Cache :=
  { c with
    daIncluded := fun key => match key with
      | .hash hash => if F hash then none else c.daIncluded key
      | .placeholder _ => c.daIncluded key }

theorem Cache.masked_removeDAIncluded (F : Bytes → Bool) (c : Cache) (hash : Bytes) :
    (c.removeDAIncluded hash).masked F = (c.masked F).removeDAIncluded hash := by
  unfold masked removeDAIncluded
  congr 1
  funext key
  cases key with
  | placeholder h => simp [Function.update]
  | hash h => by_cases hh : h = hash <;> simp [Function.update, hh]

theorem Cache.masked_removeDAIncluded_of_mem {F : Bytes → Bool} {hash : Bytes} (h : F hash = true)
    (c : Cache) : (c.removeDAIncluded hash).masked F = c.masked F := by
  unfold masked removeDAIncluded
  congr 1
  funext key
  cases key with
  | placeholder h => simp [Function.update]
  | hash h' => by_cases hh : h' = hash <;> simp [Function.update, hh, h]

def CacheManager.masked (F : Bytes → Bool) (m : CacheManager Tx) : CacheManager Tx :=
  { m with headerCache := m.headerCache.masked F }

namespace Syncer

def masked (F : Bytes → Bool) (s : Syncer Tx) : Syncer Tx := { s with cache := s.cache.masked F }

variable {F : Bytes → Bool}

/-! ## Every event is handled alike -/

theorem evictPair_masked (cfg : SyncerConfig Tx) (event : DAHeightEvent Tx) (m : CacheManager Tx) :
    evictPair cfg event (m.masked F) = (evictPair cfg event m).masked F := by
  unfold evictPair CacheManager.masked CacheManager.removeHeaderDAIncluded
    CacheManager.removeDataDAIncluded
  rw [Cache.masked_removeDAIncluded]

theorem evictInvalid_masked (cfg : SyncerConfig Tx) (event : DAHeightEvent Tx) (e : Err)
    (m : CacheManager Tx) :
    evictInvalid cfg event e (m.masked F) = (evictInvalid cfg event e m).masked F := by
  unfold evictInvalid
  split
  · unfold CacheManager.masked CacheManager.removeHeaderDAIncluded
    rw [Cache.masked_removeDAIncluded]
  · rfl
  · split
    · rfl
    · exact evictPair_masked cfg event m

theorem erases_modifyCache_masked {f : CacheManager Tx → CacheManager Tx}
    (h : ∀ m, f (m.masked F) = (f m).masked F) :
    Erases (masked F) (modifyCache f : Proc (Syncer Tx) Err Unit) (modifyCache f) :=
  erases_modify fun s => by
    unfold masked
    dsimp only
    rw [h]

theorem erases_onStore_masked {α : Type} (q : Proc (Store Tx) Err α) :
    Erases (masked F) (onStore q) (onStore q) := by
  refine erases_part ?_ ?_ q
  · exact fun _ => rfl
  · exact fun _ _ => rfl

theorem erases_onForced_masked {α : Type} (q : Proc (ForcedInclusion Tx) Err α) :
    Erases (masked F) (onForced q) (onForced q) := by
  refine erases_part ?_ ?_ q
  · exact fun _ => rfl
  · exact fun _ _ => rfl

theorem erases_sendCriticalError_masked :
    Erases (masked F) (sendCriticalError : Proc (Syncer Tx) Err Unit) sendCriticalError :=
  erases_modify fun _ => rfl

theorem erases_checkBlock_masked (cfg : SyncerConfig Tx) (env : SyncEnv Tx)
    (event : DAHeightEvent Tx) (currentState : State) :
    Erases (masked F) (checkBlock cfg env event currentState)
      (checkBlock cfg env event currentState) := by
  refine erases_get fun s => ?_
  dsimp only
  refine Erases.bind ?_ fun _ => ?_
  · exact erases_modify fun _ => rfl
  have hcount : (s.masked F).lastHeaderHashErrCount = s.lastHeaderHashErrCount := rfl
  rw [hcount]
  cases (validateBlock cfg env.now currentState event.data event.header
      s.lastHeaderHashErrCount).1 with
  | ok u => exact erases_pure ()
  | error e =>
    exact (erases_modifyCache_masked (evictInvalid_masked cfg event e)).bind fun _ => erases_throw _

theorem committed_masked (cfg : SyncerConfig Tx) (event : DAHeightEvent Tx) (newState : State)
    (s : Syncer Tx) : committed cfg event newState (s.masked F) =
      (committed cfg event newState s).masked F := by
  unfold committed masked
  dsimp only
  split <;> rfl

theorem erases_applyBlock_masked (cfg : SyncerConfig Tx) (env : SyncEnv Tx) (header : Header)
    (currentState : State) :
    Erases (masked F) (applyBlock cfg env header currentState)
      (applyBlock cfg env header currentState) := by
  refine Erases.bind (Erases.attempt ?_) fun r => ?_
  · exact erases_io _ _ fun _ => rfl
  cases r with
  | error e => exact erases_sendCriticalError_masked.bind fun _ => erases_throw e
  | ok u => exact erases_pure _

variable [Transaction Tx]

theorem erases_verifyBlock_masked (cfg : SyncerConfig Tx) (env : SyncEnv Tx)
    (event : DAHeightEvent Tx) :
    Erases (masked F) (verifyBlock cfg env event) (verifyBlock cfg env event) := by
  refine erases_get fun s => ?_
  split
  · refine (erases_onForced_masked _).attempt.bind fun r => ?_
    cases r with
    | ok u => exact erases_pure ()
    | error e =>
      dsimp only
      split
      · exact (erases_modifyCache_masked (evictPair_masked cfg event)).bind fun _ => erases_throw _
      · exact erases_pure ()
  · exact erases_pure ()

theorem erases_trySync_masked (cfg : SyncerConfig Tx) (env : SyncEnv Tx) (event : DAHeightEvent Tx)
    (currentState : State) :
    Erases (masked F) (trySyncNextBlockWithState cfg env event currentState)
      (trySyncNextBlockWithState cfg env event currentState) := by
  refine (erases_require _ _).bind fun _ => ?_
  refine (erases_checkBlock_masked cfg env event currentState).bind fun _ => ?_
  refine (erases_verifyBlock_masked cfg env event).bind fun _ => ?_
  refine ((erases_applyBlock_masked cfg env _ currentState).mapError _).bind fun newState => ?_
  refine (erases_onStore_masked _).bind fun _ => ?_
  exact erases_modify fun s => committed_masked cfg event _ s

/-- **The hidden marks change nothing.** -/
theorem erases_processHeightEvent_masked (cfg : SyncerConfig Tx) (env : SyncEnv Tx)
    (event : DAHeightEvent Tx) :
    Erases (masked F) (processHeightEvent cfg env event) (processHeightEvent cfg env event) := by
  have hpend : ∀ {height : Nat} {event : DAHeightEvent Tx},
      Erases (masked F) (modifyCache fun m => m.setPendingEvent height event : Proc (Syncer Tx) Err Unit)
        (modifyCache fun m => m.setPendingEvent height event) :=
    erases_modifyCache_masked fun _ => rfl
  refine erases_get fun s => ?_
  have hstore : (s.masked F).store = s.store := rfl
  have hseen : (s.masked F).cache.isHeaderSeen = s.cache.isHeaderSeen := rfl
  dsimp only
  rw [hstore, hseen]
  split
  · exact erases_pure ()
  split
  · exact hpend
  cases withLastDataHash cfg s.store event with
  | none => exact erases_pure ()
  | some event' =>
    refine Erases.bind (Erases.attempt ?_) fun r => ?_
    · exact erases_get fun s => erases_trySync_masked cfg env event' s.lastState
    · cases r with
      | ok u => exact erases_pure ()
      | error e =>
        refine erases_get fun s => ?_
        show Erases (masked F) _ (if (e.is .invalidBlock || s.hasCriticalError) = true then _ else _)
        split
        · exact erases_pure ()
        split
        · exact erases_sendCriticalError_masked
        split
        · exact erases_sendCriticalError_masked
        · exact hpend

/-! ## Foreign events -/

omit [Transaction Tx] in
/-- The header is signed by the proposer that the state expects. -/
def Authentic (cfg : SyncerConfig Tx) (state : State) (event : DAHeightEvent Tx) : Prop :=
  ∃ key, cfg.scheme.keyAddress key = state.nextProposerAddress ∧
    ∃ payload, .ok payload ∈ event.header.payloads cfg.scheme event.data ∧
      cfg.scheme.verify key payload event.header.signature = some true

/-- The event, as it is validated, is not authentic. -/
def Foreign (cfg : SyncerConfig Tx) (s : Syncer Tx) (event : DAHeightEvent Tx) : Prop :=
  ∀ event' ∈ withLastDataHash cfg s.store event, ¬ Authentic cfg s.lastState event'

omit [Transaction Tx] in
/-- Validation stops at the signer, and blames the header. -/
theorem validateBlock_foreign {cfg : SyncerConfig Tx} {state : State} {event : DAHeightEvent Tx}
    (hknown : state.nextProposerAddress ≠ []) (h : ¬ Authentic cfg state event) (now : Time)
    (count : Nat) :
    ∃ e, validateBlock cfg now state event.data event.header count =
      (.error (.join .invalidBlock (.blockValidation .header e)), count) := by
  unfold validateBlock
  cases hbasic : event.header.validateBasicWithData cfg.scheme now event.data with
  | error e => exact ⟨_, rfl⟩
  | ok u =>
    dsimp only
    cases hproposer : state.assertExpectedProposer event.header with
    | error e => exact ⟨_, rfl⟩
    | ok u =>
      -- signed by a key with the expected address
      obtain ⟨_, hkey, hsigner, hsigned⟩ := SignedHeader.validateBasicWithData_ok hbasic
      refine absurd ⟨event.header.signerPubKey, ?_, hsigned⟩ h
      unfold State.assertExpectedProposer at hproposer
      split at hproposer
      · cases hproposer
      · next hsame =>
        have heq : event.header.header.proposerAddress = state.nextProposerAddress :=
          not_not.mp fun hne => hsame ⟨List.length_pos_iff.mpr hknown, hne⟩
        rw [hkey, ← hsigner]
        exact heq

/-! ## Handling events one by one -/

/-- A call of `ExecuteTxs`. -/
structure ExecuteCall (Tx : Type) where
  txs : List Tx
  height : Nat
  time : Time
  appHash : Bytes

/-- The call of `ExecuteTxs` that `ApplyBlock` makes for the event, if the event gets so far. -/
def executeCall (cfg : SyncerConfig Tx) (env : SyncEnv Tx) (event : DAHeightEvent Tx)
    (s : Syncer Tx) : Option (ExecuteCall Tx) :=
  if event.header.header.height = s.store.height + 1 ∧
      s.cache.isHeaderSeen (headerHash cfg event) = false then
    (withLastDataHash cfg s.store event).bind fun event' =>
      if applies cfg env event' s then
        some ⟨event'.data.txs, event'.header.header.height, event'.header.header.time,
          s.lastState.appHash⟩
      else none
  else none

section Executor

variable {cfg : SyncerConfig Tx} {env : SyncEnv Tx} {event : DAHeightEvent Tx} {s : Syncer Tx}

/-- `env` with other answers of the executor. -/
def answered (env : SyncEnv Tx) (executeTxs : Outcome) (stateRoot nextProposer : Bytes) :
    SyncEnv Tx :=
  { env with executeTxs := executeTxs, stateRoot := stateRoot, nextProposer := nextProposer }

/-- A block that is not applied does not depend on the executor. -/
theorem trySync_answered (h : applies cfg env event s ≠ true) (o : Outcome) (root next : Bytes) :
    trySyncNextBlock cfg (answered env o root next) event s = trySyncNextBlock cfg env event s := by
  show trySyncNextBlockWithState cfg (answered env o root next) event s.lastState s =
    trySyncNextBlockWithState cfg env event s.lastState s
  cases hcan : env.cancelled with
  | true =>
    have hcan' : (answered env o root next).cancelled = true := hcan
    rw [trySync_cancelled cfg env event hcan, trySync_cancelled cfg _ event hcan']
  | false =>
    have hcan' : (answered env o root next).cancelled = false := hcan
    rcases hv : validateBlock cfg env.now s.lastState event.data event.header
      s.lastHeaderHashErrCount with ⟨v, count⟩
    cases v with
    | error e => rw [trySync_invalid cfg env event hcan hv, trySync_invalid cfg _ event hcan' hv]
    | ok u =>
      rw [trySync_valid cfg env event hcan hv, trySync_valid cfg _ event hcan' hv]
      rcases verifyBlock_cases cfg env event { s with lastHeaderHashErrCount := count } with
        ⟨hok, -⟩ | ⟨e, -, -, herr⟩
      · exact absurd (applies_iff.mpr ⟨hcan, ⟨count, hv⟩, hok⟩) h
      · have herr' : verifyBlock cfg (answered env o root next) event
            { s with lastHeaderHashErrCount := count } = _ := herr
        rw [bind_run_error herr, bind_run_error herr']

/-- **No call:** what the executor would answer does not matter. -/
theorem processHeightEvent_answered (h : executeCall cfg env event s = none) (o : Outcome)
    (root next : Bytes) :
    processHeightEvent cfg (answered env o root next) event s =
      processHeightEvent cfg env event s := by
  unfold processHeightEvent
  rw [get_bind_run, get_bind_run]
  by_cases hold : event.header.header.height ≤ s.store.height ∨
      s.cache.isHeaderSeen (headerHash cfg event) = true
  · rw [if_pos hold, if_pos hold]
  by_cases hnext : event.header.header.height = s.store.height + 1
  case neg => rw [if_neg hold, if_neg hold, if_pos hnext, if_pos hnext]
  have hseen : s.cache.isHeaderSeen (headerHash cfg event) = false :=
    Bool.eq_false_iff.mpr fun hs => hold (.inr hs)
  unfold executeCall at h
  rw [if_pos ⟨hnext, hseen⟩] at h
  rw [if_neg hold, if_neg hold, if_neg (not_not.mpr hnext), if_neg (not_not.mpr hnext)]
  cases hev : withLastDataHash cfg s.store event with
  | none => rfl
  | some event' =>
    rw [hev] at h
    have happlies : applies cfg env event' s ≠ true := by
      intro happlies
      rw [Option.bind_some, if_pos happlies] at h
      cases h
    exact bind_run_congr _ (attempt_run_congr (trySync_answered happlies o root next))

/-- **A call:** the executor is asked, and an executor that fails leaves a critical error. -/
theorem processHeightEvent_unexecuted {call : ExecuteCall Tx}
    (h : executeCall cfg env event s = some call) (hfail : env.executeTxs = .fail) :
    (processHeightEvent cfg env event s).2.hasCriticalError = true := by
  unfold executeCall at h
  split at h
  case isFalse => cases h
  case isTrue hnew =>
  obtain ⟨hnext, hseen⟩ := hnew
  obtain ⟨event', hev, hcall⟩ := Option.bind_eq_some_iff.mp h
  have happlies : applies cfg env event' s = true := by
    by_contra hnot
    rw [if_neg hnot] at hcall
    cases hcall
  obtain ⟨hcan, ⟨count, hv⟩, hm⟩ := applies_iff.mp happlies
  have htry : ∃ e s', trySyncNextBlock cfg env event' s = (.error e, s') ∧
      s'.hasCriticalError = true := by
    show ∃ e s', trySyncNextBlockWithState cfg env event' s.lastState s = (.error e, s') ∧ _
    rw [trySync_valid cfg env event' hcan hv]
    rcases verifyBlock_cases cfg env event' { s with lastHeaderHashErrCount := count } with
      ⟨-, hok⟩ | ⟨e, he, hmal, -⟩
    · rw [bind_run_ok hok]
      unfold applyBlock
      rw [hfail]
      exact ⟨_, _, rfl, rfl⟩
    · cases (hm e he).symm.trans hmal
  obtain ⟨e, s', hrun, hcritical⟩ := htry
  have hold : ¬ (event.header.header.height ≤ s.store.height ∨
      s.cache.isHeaderSeen (headerHash cfg event) = true) := by
    rw [hseen]
    simp
    omega
  unfold processHeightEvent
  rw [get_bind_run]
  rw [if_neg hold, if_neg (not_not.mpr hnext), hev]
  dsimp only
  rw [bind_run_ok (attempt_run_error hrun)]
  dsimp only
  rw [get_bind_run, if_pos (by simp [hcritical])]
  exact hcritical

end Executor

/-- Handle an event, and say what the executor was called with. -/
def handle (cfg : SyncerConfig Tx) (s : Syncer Tx) (x : SyncEnv Tx × DAHeightEvent Tx) :
    Option (ExecuteCall Tx) × Syncer Tx :=
  (executeCall cfg x.1 x.2 s, (processHeightEvent cfg x.1 x.2 s).2)

theorem handle_masked (cfg : SyncerConfig Tx) (s : Syncer Tx) (x : SyncEnv Tx × DAHeightEvent Tx) :
    handle cfg (s.masked F) x = ((handle cfg s x).1, (handle cfg s x).2.masked F) := by
  unfold handle
  rw [erases_processHeightEvent_masked cfg x.1 x.2 s]
  rfl

/-- The next block is not valid: the marks are dropped as its error says, and that is all. -/
theorem processHeightEvent_invalid {cfg : SyncerConfig Tx} {env : SyncEnv Tx}
    {event event' : DAHeightEvent Tx} {s : Syncer Tx} {e : Err} {count : Nat}
    (hnew : ¬ (event.header.header.height ≤ s.store.height ∨
      s.cache.isHeaderSeen (headerHash cfg event) = true))
    (hnext : event.header.header.height = s.store.height + 1)
    (hev : withLastDataHash cfg s.store event = some event') (hcan : env.cancelled = false)
    (hv : validateBlock cfg env.now s.lastState event'.data event'.header
      s.lastHeaderHashErrCount = (.error e, count)) (he : e.is .invalidBlock = true) :
    processHeightEvent cfg env event s = (.ok (), { s with
      lastHeaderHashErrCount := count
      cache := evictInvalid cfg event' e s.cache }) := by
  have htry : trySyncNextBlock cfg env event' s = (.error e, { s with
      lastHeaderHashErrCount := count
      cache := evictInvalid cfg event' e s.cache }) := by
    have hrun := trySync_invalid cfg env event' hcan hv
    rw [he, Bool.or_true, if_pos rfl] at hrun
    exact hrun
  unfold processHeightEvent
  rw [get_bind_run]
  rw [if_neg hnew, if_neg (not_not.mpr hnext), hev]
  dsimp only
  rw [bind_run_ok (attempt_run_error htry)]
  dsimp only
  rw [get_bind_run, if_pos (by simp [he])]
  rfl

theorem processHeightEvent_cancelled {cfg : SyncerConfig Tx} {env : SyncEnv Tx}
    {event event' : DAHeightEvent Tx} {s : Syncer Tx}
    (hnew : ¬ (event.header.header.height ≤ s.store.height ∨
      s.cache.isHeaderSeen (headerHash cfg event) = true))
    (hnext : event.header.header.height = s.store.height + 1)
    (hev : withLastDataHash cfg s.store event = some event') (hcan : env.cancelled = true) :
    (processHeightEvent cfg env event s).2 = s ∨ (processHeightEvent cfg env event s).2 = { s with
      cache := s.cache.setPendingEvent event.header.header.height event' } := by
  have htry : trySyncNextBlock cfg env event' s = (.error (.text "context canceled"), s) :=
    trySync_cancelled cfg env event' hcan
  unfold processHeightEvent
  rw [get_bind_run]
  rw [if_neg hnew, if_neg (not_not.mpr hnext), hev]
  dsimp only
  rw [bind_run_ok (attempt_run_error htry)]
  dsimp only
  rw [get_bind_run]
  by_cases hcritical : s.hasCriticalError = true
  · left
    rw [if_pos (by simp [hcritical])]
    rfl
  · right
    have hother : ((Err.text "context canceled").is .invalidBlock || s.hasCriticalError) ≠ true := by
      rw [Bool.eq_false_iff.mpr hcritical]
      nofun
    rw [if_neg hother]
    rfl

/-- A foreign event that does not come to wait does nothing but drop the mark of its header. -/
theorem handle_foreign {cfg : SyncerConfig Tx} {s : Syncer Tx} {x : SyncEnv Tx × DAHeightEvent Tx}
    (hknown : s.lastState.nextProposerAddress ≠ []) (hforeign : Foreign cfg s x.2)
    (hF : x.2.header.header.height = s.store.height + 1 → F (headerHash cfg x.2) = true)
    (hpending : (handle cfg s x).2.cache.pendingEvents.get? x.2.header.header.height = none) :
    (handle cfg s x).1 = none ∧ (handle cfg s x).2.masked F = s.masked F := by
  obtain ⟨env, event⟩ := x
  dsimp only at hforeign hF hpending
  -- an event that comes to wait would be in the pending map
  have hwaits : ∀ event' : DAHeightEvent Tx, (processHeightEvent cfg env event s).2 ≠ { s with
      cache := s.cache.setPendingEvent event.header.header.height event' } := by
    intro event' heq
    have hnone : (processHeightEvent cfg env event s).2.cache.pendingEvents.get?
        event.header.header.height = none := hpending
    rw [heq] at hnone
    have hsome : (s.cache.pendingEvents.put event.header.header.height event').get?
        event.header.header.height = none := hnone
    rw [OrdMap.get?_put_self] at hsome
    cases hsome
  show executeCall cfg env event s = none ∧ (processHeightEvent cfg env event s).2.masked F = _
  by_cases hold : event.header.header.height ≤ s.store.height ∨
      s.cache.isHeaderSeen (headerHash cfg event) = true
  · constructor
    · unfold executeCall
      rw [if_neg]
      rintro ⟨hnext, hseen⟩
      rcases hold with hle | hseen'
      · omega
      · rw [hseen] at hseen'
        cases hseen'
    · unfold processHeightEvent
      rw [get_bind_run]
      rw [if_pos hold]
      rfl
  by_cases hnext : event.header.header.height = s.store.height + 1
  case neg =>
    refine absurd ?_ (hwaits event)
    unfold processHeightEvent
    rw [get_bind_run]
    rw [if_neg hold, if_pos hnext]
    rfl
  have hseen : s.cache.isHeaderSeen (headerHash cfg event) = false :=
    Bool.eq_false_iff.mpr fun h => hold (.inr h)
  unfold executeCall
  cases hev : withLastDataHash cfg s.store event with
  | none =>
    constructor
    · rw [if_pos ⟨hnext, hseen⟩]
      rfl
    · unfold processHeightEvent
      rw [get_bind_run]
      rw [if_neg hold, if_neg (not_not.mpr hnext), hev]
      rfl
  | some event' =>
    have hheader := (withLastDataHash_header cfg hev).1
    cases hcan : env.cancelled with
    | true =>
      have hstops : applies cfg env event' s = false := by
        unfold applies
        rw [hcan]
      rw [if_pos ⟨hnext, hseen⟩, Option.bind_some, hstops]
      refine ⟨rfl, ?_⟩
      rcases processHeightEvent_cancelled hold hnext hev hcan with hsame | hwait
      · rw [hsame]
      · exact absurd hwait (hwaits event')
    | false =>
      obtain ⟨e, hv⟩ := validateBlock_foreign hknown (hforeign event' hev) env.now
        s.lastHeaderHashErrCount
      have hstops : applies cfg env event' s = false := by
        unfold applies
        rw [hcan, hv]
      constructor
      · rw [if_pos ⟨hnext, hseen⟩, Option.bind_some, hstops]
        rfl
      · rw [processHeightEvent_invalid hold hnext hev hcan hv rfl]
        have hhash : F (headerHash cfg event') = true := by
          have hF' := hF hnext
          unfold headerHash at hF' ⊢
          rw [hheader]
          exact hF'
        show masked F { s with cache := s.cache.removeHeaderDAIncluded (headerHash cfg event') } = _
        unfold masked CacheManager.masked CacheManager.removeHeaderDAIncluded
        dsimp only
        rw [Cache.masked_removeDAIncluded_of_mem hhash]

theorem handle_nextProposer {cfg : SyncerConfig Tx} {s : Syncer Tx}
    (x : SyncEnv Tx × DAHeightEvent Tx) (hknown : s.lastState.nextProposerAddress ≠ []) :
    (handle cfg s x).2.lastState.nextProposerAddress ≠ [] := by
  have hcase := processHeightEvent_cases cfg x.1 x.2 s
  show (processHeightEvent cfg x.1 x.2 s).2.lastState.nextProposerAddress ≠ []
  generalize processHeightEvent cfg x.1 x.2 s = q at hcase
  cases hcase with
  | dropped | waits => exact hknown
  | tried event' r s1 hnext hseen hev htry r' s' hr' hok hs' =>
    have hafter : s'.lastState = s1.lastState := hs'.requeued.buffered.lastState
    show s'.lastState.nextProposerAddress ≠ []
    rw [hafter]
    by_cases hr : r = .ok ()
    · subst hr
      cases htry with
      | uncommitted r count hcan hv hm hr =>
        rcases hr with hr | hr
        · cases hr
        · cases hr
      | synced count hcan hv hm =>
        show (nextState cfg x.1 event' s.lastState).nextProposerAddress ≠ []
        have hfield : (nextState cfg x.1 event' s.lastState).nextProposerAddress =
            (s.lastState.nextState cfg.hashes event'.header.header x.1.stateRoot
              x.1.nextProposer).nextProposerAddress := by
          unfold nextState withDAHeight
          split <;> rfl
        rw [hfield]
        unfold State.nextState
        by_cases hpos : x.1.nextProposer.length > 0
        · rw [if_pos hpos]
          dsimp only
          rw [if_neg (by omega)]
          exact List.ne_nil_of_length_pos hpos
        · rw [if_neg hpos]
          dsimp only
          rw [if_neg (mt List.eq_nil_of_length_eq_zero hknown)]
          exact hknown
    · rw [(htry.rejected hr).lastState]
      exact hknown

/-! ## Runs without foreign events -/

/-- `ys` is `xs` without some foreign events, none of which came to wait. `F` has the header hashes of
those that were for the next block. -/
inductive Deletes (cfg : SyncerConfig Tx) (F : Bytes → Bool) : Syncer Tx →
    List (SyncEnv Tx × DAHeightEvent Tx) → List (SyncEnv Tx × DAHeightEvent Tx) → Prop
  | nil (s : Syncer Tx) : Deletes cfg F s [] []
  | keep {s : Syncer Tx} {x : SyncEnv Tx × DAHeightEvent Tx}
      {xs ys : List (SyncEnv Tx × DAHeightEvent Tx)} (h : Deletes cfg F (handle cfg s x).2 xs ys) :
      Deletes cfg F s (x :: xs) (x :: ys)
  | delete {s : Syncer Tx} {x : SyncEnv Tx × DAHeightEvent Tx}
      {xs ys : List (SyncEnv Tx × DAHeightEvent Tx)} (hforeign : Foreign cfg s x.2)
      (hF : x.2.header.header.height = s.store.height + 1 → F (headerHash cfg x.2) = true)
      (hpending : (handle cfg s x).2.cache.pendingEvents.get? x.2.header.header.height = none)
      (h : Deletes cfg F (handle cfg s x).2 xs ys) : Deletes cfg F s (x :: xs) ys

/-- Two syncers that differ at most in the marks of the hashes in `F`, as far as a run shows it. -/
structure SameBut (F : Bytes → Bool) (a b : Syncer Tx) : Prop where
  store : a.store = b.store
  lastState : a.lastState = b.lastState
  hasCriticalError : a.hasCriticalError = b.hasCriticalError
  lastHeaderHashErrCount : a.lastHeaderHashErrCount = b.lastHeaderHashErrCount
  forced : a.forced = b.forced
  dataCache : a.cache.dataCache = b.cache.dataCache
  headerIndex : a.cache.headerCache.hashByHeight = b.cache.headerCache.hashByHeight
  headerMarks : ∀ hash, F hash = false →
    a.cache.headerCache.daIncluded (.hash hash) = b.cache.headerCache.daIncluded (.hash hash)

omit [Transaction Tx] in
theorem sameBut_of_masked {a b : Syncer Tx} (h : a.masked F = b.masked F) : SameBut F a b where
  store := congrArg (·.store) h
  lastState := congrArg (·.lastState) h
  hasCriticalError := congrArg (·.hasCriticalError) h
  lastHeaderHashErrCount := congrArg (·.lastHeaderHashErrCount) h
  forced := congrArg (·.forced) h
  dataCache := congrArg (·.cache.dataCache) h
  headerIndex := congrArg (·.cache.headerCache.hashByHeight) h
  headerMarks hash hhash := by
    have hmark := congrFun (congrArg (·.cache.headerCache.daIncluded) h) (.hash hash)
    simpa [masked, CacheManager.masked, Cache.masked, hhash] using hmark

theorem Deletes.masked {cfg : SyncerConfig Tx} {s t : Syncer Tx}
    {xs ys : List (SyncEnv Tx × DAHeightEvent Tx)} (h : Deletes cfg F s xs ys)
    (hknown : s.lastState.nextProposerAddress ≠ []) (heq : s.masked F = t.masked F) :
    (Run.final (handle cfg) s xs).masked F = (Run.final (handle cfg) t ys).masked F ∧
      (Run.outputs (handle cfg) s xs).filterMap id = (Run.outputs (handle cfg) t ys).filterMap id := by
  induction h generalizing t with
  | nil => exact ⟨heq, rfl⟩
  | @keep s x xs ys h ih =>
    -- both runs handle the event, and the mask does not matter
    have hstep : ((handle cfg s x).1, (handle cfg s x).2.masked F) =
        ((handle cfg t x).1, (handle cfg t x).2.masked F) := by
      rw [← handle_masked, ← handle_masked, heq]
    obtain ⟨hfinal, houts⟩ := ih (handle_nextProposer x hknown) (congrArg Prod.snd hstep)
    refine ⟨hfinal, ?_⟩
    show ((handle cfg s x).1 :: _).filterMap id = ((handle cfg t x).1 :: _).filterMap id
    rw [List.filterMap_cons, List.filterMap_cons, houts, congrArg Prod.fst hstep]
  | @delete s x xs ys hforeign hF hpending h ih =>
    obtain ⟨hcall, hmask⟩ := handle_foreign hknown hforeign hF hpending
    obtain ⟨hfinal, houts⟩ := ih (handle_nextProposer x hknown) (hmask.trans heq)
    refine ⟨hfinal, ?_⟩
    show ((handle cfg s x).1 :: _).filterMap id = _
    rw [hcall, List.filterMap_cons_none rfl]
    exact houts

/-- **Foreign events have no effect**, apart from the marks of the headers they carry: the runs with
and without them end in the same store, state, counters and tracking, with the same marks of all
other headers and of all data, after the same calls of the executor. -/
theorem foreign_events_have_no_effect (cfg : SyncerConfig Tx) (F : Bytes → Bool) (s : Syncer Tx)
    (hknown : s.lastState.nextProposerAddress ≠ []) (xs ys : List (SyncEnv Tx × DAHeightEvent Tx))
    (hdel : Deletes cfg F s xs ys) :
    SameBut F (Run.final (handle cfg) s xs) (Run.final (handle cfg) s ys) ∧
      (Run.outputs (handle cfg) s xs).filterMap id =
        (Run.outputs (handle cfg) s ys).filterMap id := by
  obtain ⟨hfinal, houts⟩ := hdel.masked hknown rfl
  exact ⟨sameBut_of_masked hfinal, houts⟩

end Syncer

namespace ForeignRun

def genesis : Genesis := ⟨"chain", 0, 1, [7], 0, 1, Nat.one_pos, Nat.one_pos⟩

def cfg : SyncerConfig RawTx := (DANodeConfig.symbolic genesis [] []).toSyncerConfig

def header : SignedHeader := (Header.block [7] 1 [] []).signedBy [7]

def honest : DAHeightEvent RawTx := ⟨header, Data.block 1 [], 10, .da⟩

/-- The same block with a signature that does not verify. -/
def forged : DAHeightEvent RawTx := ⟨{ header with signature := [0] }, Data.block 1 [], 0, .p2p⟩

/-- A block of another key. -/
def intruder : DAHeightEvent RawTx :=
  ⟨(Header.block [8] 1 [] []).signedBy [8], Data.block 1 [], 10, .da⟩

def env : SyncEnv RawTx := .plain (.ofBlocks 0 []) .acceptAll

/-- A syncer after its start, for which the retriever has found the header on DA. -/
def marked : Syncer RawTx :=
  (Run.exec (Syncer.step cfg) ⟨false, .plain cfg⟩
    [.start .plain, .headerDAIncluded (cfg.hashes.headerHash header.header) 10 1]).state

theorem foreign_forged : Syncer.Foreign cfg marked forged := by
  rintro event' hev ⟨key, hkey, payload, hpayload, hverify⟩
  cases hev
  have hsig : some (decide ([0] = sign key payload)) = some true := hverify
  simp [sign] at hsig

theorem foreign_intruder : Syncer.Foreign cfg marked intruder := by
  rintro event' hev ⟨key, hkey, payload, hpayload, hverify⟩
  cases hev
  have hkey : key = [7] := hkey
  have hsig : some (decide (sign [8] (Header.block [8] 1 [] []).encode = sign key payload)) =
    some true := hverify
  subst hkey
  simp [sign] at hsig

end ForeignRun

open ForeignRun in
theorem Syncer.foreign_events_have_no_effect_intruder :
    (Run.final (handle cfg) marked [(env, intruder), (env, honest)]).cache.headerCache.daIncluded
        (.hash (headerHash cfg honest)) = some 10 ∧
      (Run.final (handle cfg) marked [(env, intruder), (env, honest)]).store =
        (Run.final (handle cfg) marked [(env, honest)]).store := by
  have hdel : Deletes cfg (fun hash => hash = headerHash cfg intruder) marked
      [(env, intruder), (env, honest)] [(env, honest)] :=
    .delete foreign_intruder (fun _ => by decide) (by decide +kernel) (.keep (.nil _))
  have hsame := (foreign_events_have_no_effect cfg _ marked (by decide +kernel) _ _ hdel).1
  refine ⟨?_, hsame.store⟩
  rw [hsame.headerMarks (headerHash cfg honest) (by decide)]
  decide +kernel

open ForeignRun in
/-- **A foreign event takes the mark of the proposer's header away.** The header of block 1 was found on
DA. The same header with a wrong signature is handled, and block 1 is committed without its mark. -/
theorem Syncer.foreign_event_unmarks :
    Foreign cfg marked forged ∧
      (Run.final (handle cfg) marked [(env, forged), (env, honest)]).store.getBlockData 1 =
        some (header, Data.block 1 []) ∧
      (Run.final (handle cfg) marked [(env, honest)]).cache.headerCache.daIncluded
        (.hash (headerHash cfg honest)) = some 10 ∧
      (Run.final (handle cfg) marked [(env, forged), (env, honest)]).cache.headerCache.daIncluded
        (.hash (headerHash cfg honest)) = none :=
  ⟨foreign_forged, by decide +kernel⟩

end EvNode
