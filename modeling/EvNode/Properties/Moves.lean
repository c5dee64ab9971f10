import EvNode.Lib.Frame
import EvNode.Properties.Blobs
import EvNode.Properties.Hooked
import EvNode.Properties.Start
import EvNode.Syncing.DaNode

/-!
# What one step does to a node that runs

`Hooked.Moves` lists what an operation can do to a running syncer with a part beside it, and
`DANode.Moves` adds the processing of blobs. A process that starts is `Fresh`. An invariant of the
running node is shown case by case (`DANode.invariant`).
-/

namespace EvNode

open Crash Proc

variable {Tx : Type}

namespace Syncer

/-! ## Events that wait -/

/-- The event waits in the channel or in the pending map. -/
def Queued (s : Syncer Tx) (event : DAHeightEvent Tx) : Prop :=
  event ∈ s.heightInCh ∨ ∃ h, s.cache.pendingEvents.get? h = some event

/-- Only the pending map, the channel and the P2P cursor differ, and an event that waits now did so
before or satisfies `new`. -/
structure Requeued (new : DAHeightEvent Tx → Prop) (s s' : Syncer Tx) : Prop where
  buffered : Buffered s s'
  queued : ∀ {event}, s'.Queued event → s.Queued event ∨ new event

variable {new : DAHeightEvent Tx → Prop} {s s' s'' : Syncer Tx}

theorem Buffered.refl (s : Syncer Tx) : Buffered s s := ⟨_, _, _, rfl⟩

theorem Buffered.trans (h : Buffered s s') (h' : Buffered s' s'') : Buffered s s'' := by
  obtain ⟨_, _, _, rfl⟩ := h
  obtain ⟨_, _, _, rfl⟩ := h'
  exact ⟨_, _, _, rfl⟩

theorem Buffered.store (h : Buffered s s') : s'.store = s.store := by
  obtain ⟨_, _, _, rfl⟩ := h
  rfl

theorem Buffered.lastState (h : Buffered s s') : s'.lastState = s.lastState := by
  obtain ⟨_, _, _, rfl⟩ := h
  rfl

theorem Buffered.headerCache (h : Buffered s s') : s'.cache.headerCache = s.cache.headerCache := by
  obtain ⟨_, _, _, rfl⟩ := h
  rfl

theorem Buffered.dataCache (h : Buffered s s') : s'.cache.dataCache = s.cache.dataCache := by
  obtain ⟨_, _, _, rfl⟩ := h
  rfl

theorem Requeued.refl (new : DAHeightEvent Tx → Prop) (s : Syncer Tx) : Requeued new s s :=
  ⟨.refl s, .inl⟩

theorem Requeued.mono {new' : DAHeightEvent Tx → Prop} (h : Requeued new s s')
    (hnew : ∀ event, new event → new' event) : Requeued new' s s' :=
  ⟨h.buffered, fun hq => (h.queued hq).imp_right (hnew _)⟩

theorem Requeued.trans (h : Requeued new s s') (h' : Requeued new s' s'') : Requeued new s s'' :=
  ⟨h.buffered.trans h'.buffered, fun hq => (h'.queued hq).elim h.queued .inr⟩

theorem queued_setPendingEvent {height : Nat} {event x : DAHeightEvent Tx}
    (h : Queued { s with cache := s.cache.setPendingEvent height event } x) :
    s.Queued x ∨ x = event := by
  rcases h with h | ⟨k, hk⟩
  · exact .inl (.inl h)
  · have hk : (s.cache.pendingEvents.put height event).get? k = some x := hk
    rw [OrdMap.get?_put] at hk
    split at hk
    · cases hk
      exact .inr rfl
    · exact .inl (.inr ⟨k, hk⟩)

theorem requeued_setPendingEvent (height : Nat) (event : DAHeightEvent Tx) (s : Syncer Tx) :
    Requeued (· = event) s { s with cache := s.cache.setPendingEvent height event } :=
  ⟨⟨_, _, _, rfl⟩, queued_setPendingEvent⟩

theorem requeued_sendOrPend (event : DAHeightEvent Tx) (s : Syncer Tx) :
    Requeued (· = event) s (sendOrPend event s) := by
  unfold sendOrPend
  split
  · refine ⟨⟨_, _, _, rfl⟩, fun {x} h => ?_⟩
    rcases h with h | h
    · rcases List.mem_append.mp h with h | h
      · exact .inl (.inl h)
      · exact .inr (List.mem_singleton.mp h)
    · exact .inl (.inr h)
  · exact requeued_setPendingEvent _ event s

theorem requeued_pipeEvent (cfg : SyncerConfig Tx) (done : Bool) (event : DAHeightEvent Tx)
    (s : Syncer Tx) : Requeued (· = event) s (pipeEvent cfg done event s) := by
  unfold pipeEvent
  split
  · exact .refl _ s
  · split
    · exact requeued_setPendingEvent _ event s
    · exact requeued_sendOrPend event s

theorem requeued_processHeight (cfg : SyncerConfig Tx) (height : Nat) (header : SignedHeader)
    (data : Data Tx) (s : Syncer Tx) :
    Requeued (· = ⟨header, data, 0, .p2p⟩) s (processHeight cfg height header data s) := by
  have hsent := requeued_sendOrPend ⟨header, data, 0, .p2p⟩ s
  unfold processHeight
  split
  · exact .refl _ s
  · split
    · exact .refl _ s
    · exact hsent.trans ⟨⟨_, _, _, rfl⟩, .inl⟩

theorem requeued_sendPending (room nextHeight : Nat) (s : Syncer Tx) :
    Requeued (fun _ => False) s (sendPending room nextHeight s) := by
  induction room generalizing nextHeight s with
  | zero => exact .refl _ s
  | succ room ih =>
    unfold sendPending
    cases hget : s.cache.pendingEvents.get? nextHeight with
    | none => exact .refl _ s
    | some event =>
      refine Requeued.trans ⟨⟨_, _, _, rfl⟩, fun {x} h => .inl ?_⟩ (ih _ _)
      rcases h with h | ⟨k, hk⟩
      · rcases List.mem_append.mp h with h | h
        · exact .inl h
        · exact .inr ⟨nextHeight, by rw [hget, List.mem_singleton.mp h]⟩
      · have hk : (s.cache.pendingEvents.delete nextHeight).get? k = some x := hk
        rw [OrdMap.get?_delete] at hk
        split at hk
        · cases hk
        · exact .inr ⟨k, hk⟩

theorem requeued_pipeEvents (cfg : SyncerConfig Tx) (doneAt : Option Nat)
    (events : List (DAHeightEvent Tx)) (s : Syncer Tx) :
    Requeued (· ∈ events) s (pipeEvents cfg doneAt events s) := by
  have hhead : ∀ {done event events} (s : Syncer Tx),
      Requeued (· ∈ event :: events) s (pipeEvent cfg done event s) := fun {done event events} s =>
    (requeued_pipeEvent cfg done event s).mono fun _ h => h ▸ List.mem_cons_self
  have htail : ∀ {event : DAHeightEvent Tx} {events} {s s' : Syncer Tx},
      Requeued (· ∈ events) s s' → Requeued (· ∈ event :: events) s s' := fun h =>
    h.mono fun _ hx => List.mem_cons_of_mem _ hx
  fun_induction pipeEvents cfg doneAt events s with
  | case1 => exact .refl _ _
  | case2 event events s ih | case3 n event events s ih => exact (hhead s).trans (htail ih)
  | case4 event events s hseen ih => exact htail ih
  | case5 event events s hseen => exact hhead s

/-- What an operation offers to the syncer. -/
def Op.Offers : Op Tx → DAHeightEvent Tx → Prop
  | .pipeEvent _ event => fun x => x = event
  | .processHeight _ header data => fun x => x = ⟨header, data, 0, .p2p⟩
  | _ => fun _ => False

/-! ## A committed block -/

section Synced

variable [Transaction Tx] (cfg : SyncerConfig Tx) (env : SyncEnv Tx) (event : DAHeightEvent Tx)
  (currentState : State) (count : Nat)

/-- The syncer after a block passed all checks and was committed. -/
def afterCommit (s : Syncer Tx) : Syncer Tx :=
  synced cfg env event currentState (checked cfg env event count s)

variable {cfg env event currentState count}

theorem afterCommit_height (h : s.store.height < event.header.header.height) :
    (afterCommit cfg env event currentState count s).store.height = event.header.header.height :=
  Store.setHeight_height h

theorem afterCommit_pendingEvents :
    (afterCommit cfg env event currentState count s).cache.pendingEvents = s.cache.pendingEvents := by
  show (if _ then _ else _ : CacheManager Tx).pendingEvents = _
  split <;> rfl

theorem afterCommit_queued {x : DAHeightEvent Tx}
    (h : (afterCommit cfg env event currentState count s).Queued x) : s.Queued x := by
  rcases h with h | ⟨k, hk⟩
  · exact .inl h
  · rw [afterCommit_pendingEvents] at hk
    exact .inr ⟨k, hk⟩

theorem afterCommit_headerCache :
    (afterCommit cfg env event currentState count s).cache.headerCache =
      s.cache.headerCache.setSeen (headerHash cfg event) event.header.header.height := by
  show (if _ then _ else _ : CacheManager Tx).headerCache = _
  split <;> rfl

omit [Transaction Tx] in
theorem nextState_lastBlockHeight (cfg : SyncerConfig Tx) (env : SyncEnv Tx)
    (event : DAHeightEvent Tx) (currentState : State) :
    (nextState cfg env event currentState).lastBlockHeight = event.header.header.height := by
  unfold nextState withDAHeight
  split <;> rfl

theorem afterCommit_dataCache :
    (afterCommit cfg env event currentState count s).cache.dataCache =
      if event.header.header.dataHash ≠ cfg.hashes.dataHashForEmptyTxs then
        s.cache.dataCache.setSeen (daCommitment cfg event) event.header.header.height
      else s.cache.dataCache := by
  rw [← nextState_lastBlockHeight cfg env event currentState]
  show (if _ then _ else _ : CacheManager Tx).dataCache = _
  split <;> rfl

theorem afterCommit_getBlockData (k : Nat) :
    (afterCommit cfg env event currentState count s).store.getBlockData k =
      if k = event.header.header.height then some (event.header, event.data)
      else s.store.getBlockData k := by
  have hblocks : (afterCommit cfg env event currentState count s).store.blocks =
      s.store.blocks.put event.header.header.height ⟨event.header, event.data, _⟩ :=
    Store.commitBatch_blocks ..
  unfold Store.getBlockData
  rw [hblocks, OrdMap.get?_put]
  split <;> rfl

theorem afterCommit_seen {hash : Bytes}
    (h : (afterCommit cfg env event currentState count s).cache.isHeaderSeen hash = true) :
    s.cache.isHeaderSeen hash = true ∨ hash = headerHash cfg event := by
  unfold CacheManager.isHeaderSeen at h
  rw [afterCommit_headerCache] at h
  unfold Cache.isSeen Cache.setSeen at h
  dsimp only at h
  by_cases hhash : hash = headerHash cfg event
  · exact .inr hhash
  · rw [Function.update_of_ne (fun heq => hhash (CacheKey.hash.inj heq))] at h
    exact .inl h

end Synced

/-! ## A block that is not committed -/

/-- The chain and the queues stay, what was seen stays, and no mark is new. -/
structure Rejected (s s' : Syncer Tx) : Prop where
  store : s'.store = s.store
  lastState : s'.lastState = s.lastState
  heightInCh : s'.heightInCh = s.heightInCh
  pendingEvents : s'.cache.pendingEvents = s.cache.pendingEvents
  processedHeight : s'.processedHeight = s.processedHeight
  headerSeen : s'.cache.headerCache.hashes = s.cache.headerCache.hashes
  headerIndex : s'.cache.headerCache.hashByHeight = s.cache.headerCache.hashByHeight
  dataIndex : s'.cache.dataCache.hashByHeight = s.cache.dataCache.hashByHeight
  headerMarks : ∀ {key d}, s'.cache.headerCache.daIncluded key = some d →
    s.cache.headerCache.daIncluded key = some d
  dataMarks : ∀ {key d}, s'.cache.dataCache.daIncluded key = some d →
    s.cache.dataCache.daIncluded key = some d

theorem Rejected.refl (s : Syncer Tx) : Rejected s s :=
  ⟨rfl, rfl, rfl, rfl, rfl, rfl, rfl, rfl, id, id⟩

theorem Rejected.queued (h : Rejected s s') {x : DAHeightEvent Tx} (hq : s'.Queued x) :
    s.Queued x := by
  unfold Queued at hq
  rw [h.heightInCh, h.pendingEvents] at hq
  exact hq

theorem removeDAIncluded_le {c : Cache} {hash : Bytes} {key : CacheKey} {d : Nat}
    (h : (c.removeDAIncluded hash).daIncluded key = some d) : c.daIncluded key = some d := by
  unfold Cache.removeDAIncluded at h
  dsimp only at h
  by_cases hkey : key = .hash hash
  · rw [hkey, Function.update_self] at h
    cases h
  · rw [Function.update_of_ne hkey] at h
    exact h

theorem rejected_evictInvalid (cfg : SyncerConfig Tx) (event : DAHeightEvent Tx) (e : Err)
    (s : Syncer Tx) : Rejected s { s with cache := evictInvalid cfg event e s.cache } := by
  unfold evictInvalid
  split
  · exact ⟨rfl, rfl, rfl, rfl, rfl, rfl, rfl, rfl, removeDAIncluded_le, id⟩
  · exact ⟨rfl, rfl, rfl, rfl, rfl, rfl, rfl, rfl, id, removeDAIncluded_le⟩
  · split
    · exact .refl s
    · exact ⟨rfl, rfl, rfl, rfl, rfl, rfl, rfl, rfl, removeDAIncluded_le, removeDAIncluded_le⟩

theorem TrySyncCase.rejected [Transaction Tx] {cfg : SyncerConfig Tx} {env : SyncEnv Tx}
    {event : DAHeightEvent Tx} {currentState : State} {r : Exit Err Unit}
    (h : TrySyncCase cfg env event currentState s (r, s')) (hr : r ≠ .ok ()) : Rejected s s' := by
  cases h with
  | cancelled => exact .refl s
  | invalid e count hv =>
    have hevict := rejected_evictInvalid cfg event e s
    exact ⟨rfl, rfl, rfl, hevict.pendingEvents, rfl, hevict.headerSeen, hevict.headerIndex,
      hevict.dataIndex, hevict.headerMarks, hevict.dataMarks⟩
  | malicious =>
    exact ⟨rfl, rfl, rfl, rfl, rfl, rfl, rfl, rfl, removeDAIncluded_le, removeDAIncluded_le⟩
  | unapplied | uncommitted => exact ⟨rfl, rfl, rfl, rfl, rfl, rfl, rfl, rfl, id, id⟩
  | synced => exact absurd rfl hr

theorem AfterTry.requeued {event : DAHeightEvent Tx} {s1 : Syncer Tx} (h : AfterTry event s1 s') :
    Requeued (· = event) { s1 with hasCriticalError := s'.hasCriticalError } s' := by
  cases h with
  | same | critical => exact .refl _ _
  | pending => exact requeued_setPendingEvent _ event _

/-! ## A new process -/

/-- The memory of a process that has just started. -/
structure Fresh (cfg : SyncerConfig Tx) (env : StartEnv) (s s' : Syncer Tx) : Prop where
  cache : s'.cache = (newSyncer cfg env s.store).cache
  heightInCh : s'.heightInCh = []
  hasCriticalError : s'.hasCriticalError = false
  lastHeaderHashErrCount : s'.lastHeaderHashErrCount = 0

theorem Fresh.isHeaderSeen {cfg : SyncerConfig Tx} {env : StartEnv} (h : Fresh cfg env s s')
    (hash : Bytes) : s'.cache.isHeaderSeen hash = false := by
  rw [h.cache]
  show Cache.isSeen (Cache.setMaxDAHeight _ _) hash = false
  unfold Cache.isSeen
  rw [Cache.setMaxDAHeight_hashes]
  exact Cache.isSeen_restored ..

/-- What `initializeState` leaves alone. -/
def memory (s : Syncer Tx) : CacheManager Tx × List (DAHeightEvent Tx) × Bool × Nat × Nat :=
  (s.cache, s.heightInCh, s.hasCriticalError, s.lastHeaderHashErrCount, s.processedHeight)

theorem keeps_onStore {α : Type} (p : Proc (Store Tx) Err α) : Keeps memory (onStore p) :=
  fun _ => rfl

theorem keeps_loadState (cfg : SyncerConfig Tx) (env : StartEnv) :
    Keeps memory (loadState cfg env) := by
  refine keeps_get fun s => ?_
  cases s.store.getState with
  | some state => exact keeps_pure _
  | none => exact (keeps_io _ _ fun _ => rfl).bind fun _ => keeps_pure _

theorem keeps_initializeState (cfg : SyncerConfig Tx) (env : StartEnv) :
    Keeps memory (initializeState cfg env) :=
  (keeps_loadState cfg env).bind fun _ => (keeps_require _ _).bind fun _ =>
    (keeps_onStore _).bind fun _ => Keeps.bind (keeps_modify fun _ => rfl) fun _ => (keeps_onStore _).mapError _

theorem start_fresh (cfg : SyncerConfig Tx) (env : StartEnv) (s : Syncer Tx) :
    Fresh cfg env s (start cfg env s).2 := by
  have hinit : memory (initializeState cfg env (newSyncer cfg env s.store)).2 =
      memory (newSyncer cfg env s.store) := keeps_initializeState cfg env _
  have hlast : ∃ height, (start cfg env s).2 =
      { (initializeState cfg env (newSyncer cfg env s.store)).2 with processedHeight := height } := by
    unfold start
    rw [modify_bind_run]
    rcases hr : initializeState cfg env (newSyncer cfg env s.store) with ⟨r, s1⟩
    cases r with
    | ok u => exact ⟨_, by rw [bind_run_ok hr]; rfl⟩
    | error e => exact ⟨_, by rw [bind_run_error hr]⟩
    | crash => exact ⟨_, by rw [bind_run_crash hr]⟩
  obtain ⟨height, hlast⟩ := hlast
  rw [hlast]
  exact ⟨congrArg (·.1) hinit, congrArg (·.2.1) hinit, congrArg (·.2.2.1) hinit,
    congrArg (·.2.2.2.1) hinit⟩

/-- The P2P cursor of a process that has started. -/
theorem start_processedHeight {cfg : SyncerConfig Tx} {env : StartEnv}
    (h : start cfg env s = (.ok (), s')) : s'.processedHeight = s'.store.height := by
  have hinit : memory (initializeState cfg env (newSyncer cfg env s.store)).2 =
      memory (newSyncer cfg env s.store) := keeps_initializeState cfg env _
  unfold start at h
  rw [modify_bind_run] at h
  rcases hr : initializeState cfg env (newSyncer cfg env s.store) with ⟨r, s1⟩
  rw [hr] at hinit
  have hzero : s1.processedHeight = 0 := congrArg (·.2.2.2.2) hinit
  cases r with
  | ok u =>
    rw [bind_run_ok hr] at h
    cases h
    show max s1.processedHeight s1.store.height = s1.store.height
    rw [hzero, Nat.zero_max]
  | error e =>
    rw [bind_run_error hr] at h
    cases h
  | crash =>
    rw [bind_run_crash hr] at h
    cases h

end Syncer

namespace Hooked

variable {ρ : Type} [Transaction Tx] (hooks : SyncHooks Tx ρ) (cfg : SyncerConfig Tx)

/-- What an operation can do to a running node. -/
inductive Moves (w : Hooked Tx ρ) : Syncer.Op Tx → Hooked Tx ρ → Prop
  | idle {op : Syncer.Op Tx} : Moves w op w
  | requeued {op : Syncer.Op Tx} {s' : Syncer Tx} (h : Syncer.Requeued op.Offers w.syncer s') :
      Moves w op (w.withSyncer s')
  | handled {env : SyncEnv Tx} {event : DAHeightEvent Tx} {rest : List (DAHeightEvent Tx)}
      {r : Exit Err Unit} {w' : Hooked Tx ρ} (hch : w.syncer.heightInCh = event :: rest)
      (hcase : EventCase hooks cfg env event
        (w.withSyncer { w.syncer with heightInCh := rest }) (r, w')) :
      Moves w (.processNext env) w'
  | raft {env : SyncEnv Tx} {raft : Syncer.RaftBlockState Tx} {r : Exit Err Unit}
      {w' : Hooked Tx ρ} (hnext : w.syncer.lastState.lastBlockHeight + 1 = raft.height)
      (hcase : TrySyncCase hooks cfg env ⟨raft.header, raft.data, 0, .raft⟩ w.syncer.lastState w
        (r, w')) :
      Moves w (.recoverFromRaft env raft) w'
  | headerMarked {hash : Bytes} {daHeight height : Nat} :
      Moves w (.headerDAIncluded hash daHeight height) (w.withSyncer { w.syncer with
        cache := w.syncer.cache.setHeaderDAIncluded hash daHeight height })
  | dataMarked {hash : Bytes} {daHeight height : Nat} :
      Moves w (.dataDAIncluded hash daHeight height) (w.withSyncer { w.syncer with
        cache := w.syncer.cache.setDataDAIncluded hash daHeight height })
  | deleted {height : Nat} :
      Moves w (.deleteHeight height) (w.withSyncer { w.syncer with
        cache := w.syncer.cache.deleteHeight height })

theorem moves_processNext (env : SyncEnv Tx) (w : Hooked Tx ρ) :
    Moves hooks cfg w (.processNext env) (processNext hooks cfg env w).2 := by
  unfold processNext
  rw [get_bind_run]
  cases hch : w.syncer.heightInCh with
  | nil => exact .idle
  | cons event rest => exact .handled hch (processHeightEvent_cases hooks cfg env event _)

theorem moves_recoverFromRaft (env : SyncEnv Tx) (raft : Syncer.RaftBlockState Tx)
    (w : Hooked Tx ρ) :
    Moves hooks cfg w (.recoverFromRaft env raft) (recoverFromRaft hooks cfg env raft w).2 := by
  unfold recoverFromRaft
  rw [get_bind_run]
  split
  · next hnext => exact .raft hnext (trySync_cases hooks cfg env _ _ w)
  · next hnext =>
    have hsame : (onSyncer (Syncer.recoverFromRaft cfg env raft) w).2 = w := by
      show w.withSyncer (Syncer.recoverFromRaft cfg env raft w.syncer).2 = w
      rw [Syncer.recoverFromRaft_of_ne hnext]
      rfl
    rw [hsame]
    exact .idle

/-- **One step of a running node.** -/
theorem step_moves {l : Live (Hooked Tx ρ)} (hup : l.up = true) (op : Syncer.Op Tx) :
    Moves hooks cfg l.state op (step hooks cfg l op).state := by
  have hcall : ∀ {α : Type} {p : Proc (Hooked Tx ρ) Err α} {op},
      Moves hooks cfg l.state op (p l.state).2 → Moves hooks cfg l.state op (l.call p).state :=
    fun h => (Live.call_up hup).symm ▸ h
  cases op with
  | start env =>
    have hsame : step hooks cfg l (.start env) = l := Live.boot_up hup
    rw [hsame]
    exact .idle
  | crash => exact .idle
  | pipeEvent done event => exact hcall (.requeued (Syncer.requeued_pipeEvent cfg done event _))
  | processHeight height header data =>
    exact hcall (.requeued (Syncer.requeued_processHeight cfg height header data _))
  | processPendingEvents => exact hcall (.requeued (Syncer.requeued_sendPending _ _ _))
  | processNext env => exact hcall (moves_processNext hooks cfg env l.state)
  | recoverFromRaft env raft => exact hcall (moves_recoverFromRaft hooks cfg env raft l.state)
  | headerDAIncluded hash daHeight height => exact hcall .headerMarked
  | dataDAIncluded hash daHeight height => exact hcall .dataMarked
  | deleteHeight height => exact hcall .deleted

theorem fresh_of_up {l : Live (Hooked Tx ρ)} {op : Syncer.Op Tx} (hdown : l.up = false)
    (hup : (step hooks cfg l op).up = true) :
    ∃ env, op = .start env ∧ (step hooks cfg l op).state.part = hooks.started l.state.part ∧
      Syncer.Fresh cfg env l.state.syncer (step hooks cfg l op).state.syncer := by
  have hcall : ∀ {α : Type} (p : Proc (Hooked Tx ρ) Err α), (l.call p).up = true → False :=
    fun p h => absurd (Live.up_of_call h) (by rw [hdown]; nofun)
  cases op with
  | start env =>
    refine ⟨env, rfl, ?_⟩
    have hstate : (step hooks cfg l (.start env)).state = (start hooks cfg env l.state).2 :=
      Live.boot_down_state hdown
    rw [hstate]
    exact ⟨rfl, Syncer.start_fresh cfg env l.state.syncer⟩
  | crash => cases hup
  | _ => exact (hcall _ hup).elim

/-- The same event, up to the data hash that is filled in. -/
structure SameEvent (x event : DAHeightEvent Tx) : Prop where
  header : x.header = event.header
  daHeight : x.daHeight = event.daHeight
  source : x.source = event.source
  txs : x.data.txs = event.data.txs

omit [Transaction Tx] in
theorem SameEvent.refl (event : DAHeightEvent Tx) : SameEvent event event := ⟨rfl, rfl, rfl, rfl⟩

omit [Transaction Tx] in
theorem sameEvent_withLastDataHash {store : Store Tx} {event event' : DAHeightEvent Tx}
    (h : Syncer.withLastDataHash cfg store event = some event') : SameEvent event' event := by
  obtain ⟨hheader, hdaHeight, hsource, htxs⟩ := Syncer.withLastDataHash_header cfg h
  exact ⟨hheader, hdaHeight, hsource, htxs⟩

/-- What waits after a step waited before, up to the data hash that is filled in, or was offered. -/
theorem queued_of_moves {w w' : Hooked Tx ρ} {op : Syncer.Op Tx} (h : Moves hooks cfg w op w')
    {x : DAHeightEvent Tx} (hq : w'.syncer.Queued x) :
    op.Offers x ∨ ∃ event, w.syncer.Queued event ∧ SameEvent x event := by
  have hold : ∀ {s : Syncer Tx}, s.Queued x → (∀ {e}, s.Queued e → w.syncer.Queued e) →
      op.Offers x ∨ ∃ event, w.syncer.Queued event ∧ SameEvent x event :=
    fun hx hs => .inr ⟨x, hs hx, .refl x⟩
  cases h with
  | idle | headerMarked | dataMarked => exact hold hq id
  | @deleted height =>
    refine hold hq fun h => h.imp_right fun ⟨k, hk⟩ => ⟨k, ?_⟩
    have hk : (w.syncer.cache.pendingEvents.delete height).get? k = _ := hk
    rw [OrdMap.get?_delete] at hk
    split at hk
    · cases hk
    · exact hk
  | requeued hs => exact (hs.queued hq).symm.imp_right fun hq => ⟨x, hq, .refl x⟩
  | @handled env event rest r w' hch hcase =>
    have hevent : w.syncer.Queued event := .inl (hch ▸ List.mem_cons_self)
    have hrest : ∀ {e}, Syncer.Queued { w.syncer with heightInCh := rest } e → w.syncer.Queued e :=
      fun h => h.imp_left fun hmem => hch ▸ List.mem_cons_of_mem _ hmem
    cases hcase with
    | skipped | unread => exact hold hq hrest
    | waits =>
      rcases Syncer.queued_setPendingEvent hq with hq | rfl
      · exact hold hq hrest
      · exact .inr ⟨_, hevent, .refl _⟩
    | failed event' r s1 hnext hseen hev hr htry r' s' hr' hs' =>
      rcases hs'.requeued.queued hq with hq | rfl
      · exact hold ((htry.rejected hr).queued hq) hrest
      · exact .inr ⟨_, hevent, sameEvent_withLastDataHash cfg hev⟩
    | committed => exact hold (Syncer.afterCommit_queued hq) hrest
  | @raft env raft r w' hnext hcase =>
    cases hcase with
    | failed r s hr htry => exact hold ((htry.rejected hr).queued hq) id
    | committed => exact hold (Syncer.afterCommit_queued hq) id

end Hooked

namespace DANode

variable [Transaction Tx] {cfg : DANodeConfig Tx}

/-! ## Blobs -/

/-- The retriever and the cache once the blobs of a scan are read. -/
def read (cfg : DANodeConfig Tx) (env : ScanEnv) (blobs : List Bytes) (daHeight : Nat)
    (n : DANode Tx) : Retrieval Tx :=
  DARetriever.decodeBlobs cfg.retriever (blobEnv env n.syncer) blobs daHeight
    ⟨n.part, n.syncer.cache⟩

/-- The blocks that are complete then. -/
def matched (cfg : DANodeConfig Tx) (env : ScanEnv) (blobs : List Bytes) (daHeight : Nat)
    (n : DANode Tx) : List (DAHeightEvent Tx) × DARetriever Tx :=
  DARetriever.matchHeaders cfg.retriever (blobEnv env n.syncer) daHeight
    (read cfg env blobs daHeight n).retriever

/-- What an operation can do to a running node. -/
inductive Moves (cfg : DANodeConfig Tx) (n : DANode Tx) : Op Tx → DANode Tx → Prop
  | syncer {op : Syncer.Op Tx} {n' : DANode Tx}
      (h : Hooked.Moves DARetriever.hooks cfg.toSyncerConfig n op n') : Moves cfg n (.syncer op) n'
  | scanned {env : ScanEnv} {blobs : List Bytes} {daHeight : Nat} {s' : Syncer Tx}
      (h : Syncer.Requeued (· ∈ (matched cfg env blobs daHeight n).1)
        { n.syncer with cache := (read cfg env blobs daHeight n).cache } s') :
      Moves cfg n (.scan env blobs daHeight) ⟨s', (matched cfg env blobs daHeight n).2⟩

theorem step_moves {l : Live (DANode Tx)} (hup : l.up = true) (op : Op Tx) :
    Moves cfg l.state op (step cfg l op).state := by
  cases op with
  | syncer op => exact .syncer (Hooked.step_moves _ _ hup op)
  | scan env blobs daHeight =>
    unfold step
    rw [Live.call_up hup]
    exact .scanned (Syncer.requeued_pipeEvents _ _ _ _)

omit [Transaction Tx] in
theorem removePendingDAData_cases (event : DAHeightEvent Tx) (r : DARetriever Tx) :
    r.removePendingDAData event = r ∨ event.source = .da ∧
      r.removePendingDAData event = r.removePendingData event.header.header.height := by
  unfold DARetriever.removePendingDAData
  by_cases hsource : event.source = .da
  · exact .inr ⟨hsource, if_neg (not_not.mpr hsource)⟩
  · exact .inl (if_pos hsource)

/-- The retriever stays, or forgets the data of an event from DA that was handled. -/
theorem part_of_moves {n n' : DANode Tx} {op : Syncer.Op Tx}
    (h : Hooked.Moves DARetriever.hooks cfg.toSyncerConfig n op n') :
    n'.part = n.part ∨ ∃ event ∈ n.syncer.heightInCh, event.source = .da ∧
      n'.part = n.part.removePendingData event.header.header.height := by
  cases h with
  | idle | requeued _ | headerMarked | dataMarked | deleted => exact .inl rfl
  | @handled env event rest r w' hch hcase =>
    have hmem : event ∈ n.syncer.heightInCh := hch ▸ List.mem_cons_self
    cases hcase with
    | waits | unread | failed => exact .inl rfl
    | skipped =>
      exact (removePendingDAData_cases event n.part).imp id fun ⟨hs, heq⟩ => ⟨event, hmem, hs, heq⟩
    | committed event' count hcan hnext hseen hev hv hm =>
      obtain ⟨hheader, -, hsource, -⟩ := Syncer.withLastDataHash_header _ hev
      refine (removePendingDAData_cases event' n.part).imp id fun ⟨hs, heq⟩ => ⟨event, hmem, ?_, ?_⟩
      · exact hsource ▸ hs
      · exact hheader ▸ heq
  | @raft env raft r w' hnext hcase =>
    cases hcase with
    | failed => exact .inl rfl
    | committed =>
      refine .inl ((removePendingDAData_cases ⟨raft.header, raft.data, 0, .raft⟩ n.part).resolve_right ?_)
      rintro ⟨hsource, -⟩
      cases hsource

theorem fresh_of_up {l : Live (DANode Tx)} {op : Op Tx} (hdown : l.up = false)
    (hup : (step cfg l op).up = true) :
    ∃ env, op = .syncer (.start env) ∧ (step cfg l op).state.part = DARetriever.newDARetriever ∧
      Syncer.Fresh cfg.toSyncerConfig env l.state.syncer (step cfg l op).state.syncer := by
  cases op with
  | scan env blobs daHeight =>
    exact absurd (Live.up_of_call hup) (by rw [hdown]; nofun)
  | syncer op =>
    obtain ⟨env, rfl, hfresh⟩ := Hooked.fresh_of_up _ _ hdown hup
    exact ⟨env, rfl, hfresh⟩

/-- **An invariant of the running node.** -/
theorem invariant {cond : DANode Tx → Op Tx → Prop} (Inv : DANode Tx → Prop)
    (hfresh : ∀ {env n n'}, cond n (.syncer (.start env)) →
      n'.part = DARetriever.newDARetriever →
      Syncer.Fresh cfg.toSyncerConfig env n.syncer n'.syncer → Inv n')
    (hmoves : ∀ {n op n'}, Inv n → cond n op → Moves cfg n op n' → Inv n')
    (ops : List (Op Tx)) {l : Live (DANode Tx)} (hinit : l.up = true → Inv l.state)
    (hrun : Run.Meets (step cfg) (fun l op => cond l.state op) l ops)
    (hup : (Run.exec (step cfg) l ops).up = true) : Inv (Run.exec (step cfg) l ops).state := by
  refine Run.invariant (fun l : Live (DANode Tx) => l.up = true → Inv l.state) ?_ ops l hinit hrun hup
  intro l op hinv hop hup
  cases hl : l.up with
  | true => exact hmoves (hinv hl) hop (step_moves hl op)
  | false =>
    obtain ⟨env, rfl, hpart, hsyncer⟩ := fresh_of_up hl hup
    exact hfresh hop hpart hsyncer

end DANode

end EvNode
