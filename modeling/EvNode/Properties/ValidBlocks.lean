import EvNode.Properties.Accepted
import EvNode.Syncing.P2pWorker

/-!
# Valid blocks among invalid ones

An event that arrives early waits in the pending map, which has one place for each height. A later
event of that height takes the place, and an invalid block is dropped for good when its turn comes.
The P2P worker reads each height once, before the block is validated. So a valid block is lost when
an invalid one comes to wait after it, or when the P2P stores had an invalid one first
(`valid_blocks_lost`).

In `valid_blocks_survive`, `Tame` says that nothing but valid events comes to wait, and then a block that
is `Held` stays so.
-/

namespace EvNode

open Crash Proc

variable {Tx : Type}

namespace Syncer

variable {V : DAHeightEvent Tx → Prop} {cfg : SyncerConfig Tx} {event : DAHeightEvent Tx}
  {s s' : Syncer Tx} {k : Nat}

/-! ## Blocks that are held -/

/-- The channel has room for an event. -/
def HasRoom (s : Syncer Tx) : Prop := s.heightInCh.length < heightInChCapacity

instance (s : Syncer Tx) : Decidable s.HasRoom := inferInstanceAs (Decidable (_ < _))

/-- The height is committed, or an event in `V` waits for it. -/
def Held (V : DAHeightEvent Tx → Prop) (k : Nat) (s : Syncer Tx) : Prop :=
  k ≤ s.store.height ∨ ∃ event, V event ∧ event.header.header.height = k ∧
    (event ∈ s.heightInCh ∨ s.cache.pendingEvents.get? k = some event)

/-- Only events in `V` wait in the pending map, the others in the channel are not early, and the
headers that were seen are committed. -/
structure Tame (cfg : SyncerConfig Tx) (V : DAHeightEvent Tx → Prop) (s : Syncer Tx) : Prop where
  channel : ∀ event ∈ s.heightInCh, V event ∨ event.header.header.height ≤ s.store.height + 1
  pending : ∀ {h event}, s.cache.pendingEvents.get? h = some event →
    V event ∧ event.header.header.height = h
  seen : ∀ header, s.cache.isHeaderSeen (cfg.hashes.headerHash header) = true →
    header.height ≤ s.store.height

/-- A step that loses no block. -/
structure Safely (cfg : SyncerConfig Tx) (V : DAHeightEvent Tx → Prop) (s s' : Syncer Tx) :
    Prop where
  tame : Tame cfg V s'
  held : ∀ {k}, Held V k s → Held V k s'

theorem Tame.setPendingEvent (h : Tame cfg V s) (hV : V event) :
    Safely cfg V s
      { s with cache := s.cache.setPendingEvent event.header.header.height event } := by
  have hget : ∀ h, (s.cache.setPendingEvent event.header.header.height event).pendingEvents.get? h =
      if h = event.header.header.height then some event else s.cache.pendingEvents.get? h :=
    fun h => OrdMap.get?_put ..
  refine ⟨⟨h.channel, fun {k x} hx => ?_, h.seen⟩, fun {k} hk => ?_⟩
  · rw [hget] at hx
    split at hx
    · next heq =>
      cases hx
      exact ⟨hV, heq.symm⟩
    · exact h.pending hx
  · rcases hk with hle | ⟨x, hVx, hx, hmem | hmem⟩
    · exact .inl hle
    · exact .inr ⟨x, hVx, hx, .inl hmem⟩
    · -- the event takes the place of another one of its height
      by_cases heq : k = event.header.header.height
      · exact .inr ⟨event, hV, heq.symm, .inr (by rw [hget, if_pos heq])⟩
      · exact .inr ⟨x, hVx, hx, .inr (by rw [hget, if_neg heq, hmem])⟩

theorem held_setPendingEvent (hV : V event) :
    Held V event.header.header.height
      { s with cache := s.cache.setPendingEvent event.header.header.height event } :=
  .inr ⟨event, hV, rfl, .inr (OrdMap.get?_put_self ..)⟩

theorem Tame.sendOrPend (h : Tame cfg V s)
    (hev : V event ∨ event.header.header.height ≤ s.store.height + 1 ∧ s.HasRoom) :
    Safely cfg V s (sendOrPend event s) := by
  unfold Syncer.sendOrPend
  split
  · refine ⟨⟨fun x hx => ?_, h.pending, h.seen⟩, fun {k} hk => ?_⟩
    · rcases List.mem_append.mp hx with hx | hx
      · exact h.channel x hx
      · rw [List.mem_singleton.mp hx]
        exact hev.imp_right And.left
    · rcases hk with hle | ⟨x, hVx, hx, hmem | hmem⟩
      · exact .inl hle
      · exact .inr ⟨x, hVx, hx, .inl (List.mem_append_left _ hmem)⟩
      · exact .inr ⟨x, hVx, hx, .inr hmem⟩
  · next hfull => exact h.setPendingEvent (hev.resolve_right fun hroom => hfull hroom.2)

theorem held_sendOrPend (hV : V event) : Held V event.header.header.height (sendOrPend event s) := by
  unfold sendOrPend
  split
  · exact .inr ⟨event, hV, rfl, .inl (List.mem_append_right _ (List.mem_singleton_self event))⟩
  · exact held_setPendingEvent hV

theorem Tame.refl (h : Tame cfg V s) : Safely cfg V s s := ⟨h, id⟩

/-- The events that a piped event may meet. -/
def Welcome (V : DAHeightEvent Tx → Prop) (done : Bool) (event : DAHeightEvent Tx)
    (s : Syncer Tx) : Prop :=
  V event ∨ done = false ∧ event.header.header.height ≤ s.store.height + 1 ∧ s.HasRoom

theorem Tame.pipeEvent (h : Tame cfg V s) {done : Bool} (hev : Welcome V done event s) :
    Safely cfg V s (pipeEvent cfg done event s) := by
  unfold Syncer.pipeEvent
  split
  · exact h.refl
  · split
    · next hdone =>
      refine h.setPendingEvent (hev.resolve_right fun hnot => ?_)
      rw [hnot.1] at hdone
      cases hdone
    · exact h.sendOrPend (hev.imp_right And.right)

theorem Tame.held_pipeEvent (h : Tame cfg V s) {done : Bool} (hV : V event) :
    Held V event.header.header.height (Syncer.pipeEvent cfg done event s) := by
  unfold Syncer.pipeEvent
  split
  · next hseen => exact .inl (h.seen event.header.header hseen)
  · split
    · exact held_setPendingEvent hV
    · exact held_sendOrPend hV

theorem Tame.sendPending (room nextHeight : Nat) (h : Tame cfg V s) :
    Safely cfg V s (sendPending room nextHeight s) := by
  induction room generalizing nextHeight s with
  | zero => exact h.refl
  | succ room ih =>
    unfold Syncer.sendPending
    cases hget : s.cache.pendingEvents.get? nextHeight with
    | none => exact h.refl
    | some event =>
      obtain ⟨hV, hheight⟩ := h.pending hget
      have hmove : Safely cfg V s { s with
          heightInCh := s.heightInCh ++ [event]
          cache := { s.cache with pendingEvents := s.cache.pendingEvents.delete nextHeight } } := by
        refine ⟨⟨fun x hx => ?_, fun {k x} hx => ?_, h.seen⟩, fun {k} hk => ?_⟩
        · rcases List.mem_append.mp hx with hx | hx
          · exact h.channel x hx
          · rw [List.mem_singleton.mp hx]
            exact .inl hV
        · have hx : (s.cache.pendingEvents.delete nextHeight).get? k = some x := hx
          rw [OrdMap.get?_delete] at hx
          split at hx
          · cases hx
          · exact h.pending hx
        · rcases hk with hle | ⟨x, hVx, hx, hmem | hmem⟩
          · exact .inl hle
          · exact .inr ⟨x, hVx, hx, .inl (List.mem_append_left _ hmem)⟩
          · by_cases heq : k = nextHeight
            · refine .inr ⟨event, hV, hheight.trans heq.symm, .inl ?_⟩
              exact List.mem_append_right _ (List.mem_singleton_self event)
            · refine .inr ⟨x, hVx, hx, .inr ?_⟩
              show (s.cache.pendingEvents.delete nextHeight).get? k = some x
              rw [OrdMap.get?_delete, if_neg heq, hmem]
      have hrest := ih (nextHeight + 1) hmove.tame
      exact ⟨hrest.tame, fun hk => hrest.held (hmove.held hk)⟩

section Next

variable [Transaction Tx] {env : SyncEnv Tx}

/-- The hash of a header determines its height. -/
def HashesHeight (cfg : SyncerConfig Tx) : Prop :=
  ∀ h h' : Header, cfg.hashes.headerHash h = cfg.hashes.headerHash h' → h.height = h'.height

theorem Tame.processNext (hhash : HashesHeight cfg) (henv : env.Succeeds) (h : Tame cfg V s)
    (hV : ∀ event, V event → event.header.header.height = s.store.height + 1 →
      Accepts cfg env s event) :
    Safely cfg V s (processNext cfg env s).2 := by
  cases hch : s.heightInCh with
  | nil =>
    rw [processNext_nil hch]
    exact h.refl
  | cons event rest =>
    have hrest : Tame cfg V { s with heightInCh := rest } :=
      ⟨fun x hx => h.channel x (hch ▸ List.mem_cons_of_mem event hx), h.pending, h.seen⟩
    -- a block that is held is held by this event or without it
    have hsplit : ∀ {k}, Held V k s →
        (V event ∧ event.header.header.height = k) ∨ Held V k { s with heightInCh := rest } := by
      rintro k (hle | ⟨x, hVx, hx, hmem | hmem⟩)
      · exact .inr (.inl hle)
      · rcases List.mem_cons.mp (hch ▸ hmem) with rfl | hmem
        · exact .inl ⟨hVx, hx⟩
        · exact .inr (.inr ⟨x, hVx, hx, .inl hmem⟩)
      · exact .inr (.inr ⟨x, hVx, hx, .inr hmem⟩)
    obtain ⟨s', hrun, hsettles⟩ := processNext_settles cfg henv hch
    rw [hrun]
    cases hsettles with
    | dropped hold =>
      refine ⟨hrest, fun {k} hk => ?_⟩
      rcases hsplit hk with ⟨-, hheight⟩ | hk
      · refine .inl (hheight ▸ hold.elim id fun hseen => ?_)
        exact h.seen event.header.header hseen
      · exact hk
    | waits hlt =>
      have hVe : V event := (h.channel event (hch ▸ List.mem_cons_self)).resolve_right
        fun hle => absurd (Nat.lt_of_lt_of_le hlt hle) (Nat.lt_irrefl _)
      have hwait := hrest.setPendingEvent hVe
      refine ⟨hwait.tame, fun {k} hk => ?_⟩
      rcases hsplit hk with ⟨-, hheight⟩ | hk
      · exact hheight ▸ held_setPendingEvent hVe
      · exact hwait.held hk
    | rejected hnext hnot hrej =>
      refine ⟨⟨?_, ?_, ?_⟩, fun {k} hk => ?_⟩
      · rw [hrej.heightInCh, hrej.store]
        exact hrest.channel
      · rw [hrej.pendingEvents]
        exact hrest.pending
      · intro header hseen
        rw [hrej.store]
        unfold CacheManager.isHeaderSeen Cache.isSeen at hseen
        rw [hrej.headerSeen] at hseen
        exact h.seen header hseen
      · rcases hsplit hk with ⟨hVe, -⟩ | hk
        · exact absurd (hV event hVe hnext) hnot
        · unfold Held
          rw [hrej.heightInCh, hrej.store, hrej.pendingEvents]
          exact hk
    | committed event' count hnext hev hv =>
      have hheader := (withLastDataHash_header cfg hev).1
      have hheight : (afterCommit cfg env event' s.lastState count
          { s with heightInCh := rest }).store.height = s.store.height + 1 := by
        rw [afterCommit_height (by rw [hheader]; exact hnext ▸ Nat.lt_succ_self _), hheader]
        exact hnext
      refine ⟨⟨?_, ?_, ?_⟩, fun {k} hk => ?_⟩
      · intro x hx
        rw [hheight]
        exact (hrest.channel x hx).imp_right Nat.le_succ_of_le
      · rw [afterCommit_pendingEvents]
        exact hrest.pending
      · intro header hseen
        rw [hheight]
        rcases afterCommit_seen hseen with hseen | hsame
        · exact Nat.le_succ_of_le (h.seen header hseen)
        · rw [hhash _ _ hsame, hheader]
          exact hnext.le
      · rcases hsplit hk with ⟨-, hk⟩ | hle | ⟨x, hVx, hx, hmem⟩
        · exact .inl (by rw [hheight, ← hk]; exact hnext.le)
        · exact .inl (by rw [hheight]; exact Nat.le_succ_of_le hle)
        · exact .inr ⟨x, hVx, hx, by rw [afterCommit_pendingEvents]; exact hmem⟩

/-- The chain only grows, blocks above it stay, and the P2P cursor follows it. -/
structure Grows (s s' : Syncer Tx) : Prop where
  height : s.store.height ≤ s'.store.height
  blocks : ∀ {k}, s'.store.height < k → s'.store.getBlockData k = s.store.getBlockData k
  processed : s'.processedHeight ≤ max s.processedHeight s'.store.height
  processed_le : s.processedHeight ≤ s'.processedHeight

omit [Transaction Tx] in
theorem grows_of_buffered (h : Buffered s s') (hprocessed : s'.processedHeight = s.processedHeight) :
    Grows s s' := by
  refine ⟨?_, fun _ => ?_, ?_, hprocessed.ge⟩
  · rw [h.store]
  · rw [h.store]
  · rw [hprocessed]
    exact le_max_left ..

omit [Transaction Tx] in
theorem sendOrPend_processedHeight (event : DAHeightEvent Tx) (s : Syncer Tx) :
    (sendOrPend event s).processedHeight = s.processedHeight := by
  unfold sendOrPend
  split <;> rfl

omit [Transaction Tx] in
theorem grows_pipeEvent (cfg : SyncerConfig Tx) (done : Bool) (event : DAHeightEvent Tx)
    (s : Syncer Tx) : Grows s (pipeEvent cfg done event s) := by
  refine grows_of_buffered (buffered_pipeEvent cfg done event s) ?_
  unfold pipeEvent
  split
  · rfl
  · split
    · rfl
    · exact sendOrPend_processedHeight event s

omit [Transaction Tx] in
theorem grows_processPendingEvents (s : Syncer Tx) : Grows s s.processPendingEvents := by
  have hprocessed : ∀ room nextHeight (s : Syncer Tx),
      (sendPending room nextHeight s).processedHeight = s.processedHeight := by
    intro room
    induction room with
    | zero => exact fun _ _ => rfl
    | succ room ih =>
      intro nextHeight s
      unfold sendPending
      split
      · rfl
      · exact ih ..
  exact grows_of_buffered (buffered_sendPending ..) (hprocessed ..)

theorem grows_processNext (henv : env.Succeeds) : Grows s (processNext cfg env s).2 := by
  have hself : ∀ {ch}, Grows s { s with heightInCh := ch } :=
    ⟨le_rfl, fun _ => rfl, le_max_left .., le_rfl⟩
  cases hch : s.heightInCh with
  | nil =>
    rw [processNext_nil hch]
    exact ⟨le_rfl, fun _ => rfl, le_max_left .., le_rfl⟩
  | cons event rest =>
    obtain ⟨s', hrun, hsettles⟩ := processNext_settles cfg henv hch
    rw [hrun]
    cases hsettles with
    | dropped => exact hself
    | waits => exact ⟨le_rfl, fun _ => rfl, le_max_left .., le_rfl⟩
    | rejected hnext hnot hrej =>
      refine ⟨?_, fun _ => ?_, ?_, ?_⟩
      · rw [hrej.store]
      · rw [hrej.store]
      · rw [hrej.processedHeight]
        exact le_max_left ..
      · rw [hrej.processedHeight]
    | committed event' count hnext hev hv =>
      have hheader := (withLastDataHash_header cfg hev).1
      have hheight : (afterCommit cfg env event' s.lastState count
          { s with heightInCh := rest }).store.height = event'.header.header.height :=
        afterCommit_height (by rw [hheader]; exact hnext ▸ Nat.lt_succ_self _)
      have hprocessed : (afterCommit cfg env event' s.lastState count
          { s with heightInCh := rest }).processedHeight =
            max s.processedHeight event'.header.header.height := by
        rw [← nextState_lastBlockHeight cfg env event' s.lastState]
        rfl
      refine ⟨?_, fun {k} hk => ?_, ?_, ?_⟩
      · rw [hheight, hheader]
        exact Nat.le_of_succ_le hnext.ge
      · rw [hheight] at hk
        rw [afterCommit_getBlockData, if_neg hk.ne']
      · rw [hprocessed, hheight]
      · rw [hprocessed]
        exact le_max_left ..

end Next

theorem start_tame {env : StartEnv} (hstart : start cfg env s = (.ok (), s')) : Tame cfg V s' := by
  have hfresh := start_fresh cfg env s
  rw [hstart] at hfresh
  refine ⟨fun x hx => ?_, fun {h x} hx => ?_, fun header hseen => ?_⟩
  · rw [hfresh.heightInCh] at hx
    cases hx
  · rw [hfresh.cache] at hx
    cases hx
  · rw [hfresh.isHeaderSeen] at hseen
    cases hseen

end Syncer

namespace StoreAdapter

variable {α : Type} {a : StoreAdapter α}

/-- The `heightSub` has reached every item. -/
def Reached (a : StoreAdapter α) : Prop := ∀ k x, a.items k = some x → k ≤ a.heightSub

theorem reached_newStoreAdapter (storeHeight : Nat) :
    (newStoreAdapter storeHeight : StoreAdapter α).Reached := nofun

theorem items_append (hasAt : Bool) (height : Nat) (item : α) (k : Nat) :
    (a.append hasAt height item).items k =
      if hasAt = false ∧ k = height then some item else a.items k := by
  unfold append
  cases hasAt with
  | true => simp
  | false =>
    by_cases hk : k = height
    · subst hk
      simp
    · simp [hk]

theorem Reached.append (h : a.Reached) (hasAt : Bool) (height : Nat) (item : α) :
    (a.append hasAt height item).Reached := by
  intro k x hx
  rw [items_append] at hx
  unfold StoreAdapter.append
  cases hasAt with
  | true => exact h k x (by simpa using hx)
  | false =>
    by_cases hk : k = height
    · exact hk ▸ le_max_right ..
    · exact le_max_of_le_left (h k x (by simpa [hk] using hx))

theorem lt_of_getByHeight_waits {stored : Option α} {height : Nat}
    (h : a.getByHeight stored height = .waits) : a.heightSub < height := by
  unfold getByHeight at h
  split at h
  · cases h
  · split at h
    · cases h
    · omega

/-- What is found is stored or was received. -/
theorem of_getByHeight_found {stored : Option α} {height : Nat} {item : α}
    (h : a.getByHeight stored height = .found item) (hnone : stored = none) :
    a.items height = some item := by
  unfold getByHeight at h
  rw [hnone, Option.none_or] at h
  cases hget : a.items height with
  | some x =>
    rw [hget] at h
    cases h
    rfl
  | none =>
    rw [hget] at h
    dsimp only at h
    split at h <;> cases h

end StoreAdapter

namespace P2PSyncer

variable {V : DAHeightEvent Tx → Prop} {cfg : SyncerConfig Tx} {n : P2PSyncer Tx}

/-! ## Runs -/

section Conditions

variable [Transaction Tx] (cfg)

/-- If the event is the next block when the process loop takes an event, it passes every check. -/
def ValidAt (event : DAHeightEvent Tx) (n : P2PSyncer Tx) : Op Tx → Prop
  | .processNext env => event.header.header.height = n.syncer.store.height + 1 →
    Syncer.Accepts cfg env n.syncer event
  | _ => True

/-- The event is valid in the run: it passes every check whenever it is the next block. -/
def Valid (n : P2PSyncer Tx) (ops : List (Op Tx)) (event : DAHeightEvent Tx) : Prop :=
  Run.Meets (step cfg) (ValidAt cfg event) n ops

end Conditions

/-- What the worker has read, if it has both header and data. -/
def handing (n : P2PSyncer Tx) : Option (DAHeightEvent Tx) :=
  match n.worker with
  | .data height header =>
    match n.getData height with
    | .found data => some ⟨header, data, 0, .p2p⟩
    | _ => none
  | _ => none

/-- Executor and store succeed, and what is not in `V` is offered only for the next height or below,
while the channel has room. -/
def Orderly (V : DAHeightEvent Tx → Prop) (n : P2PSyncer Tx) : Op Tx → Prop
  | .pipeEvent done event => Syncer.Welcome V done event n.syncer
  | .worker => ∀ event ∈ n.handing, V event ∨ n.syncer.HasRoom
  | .processNext env => env.Succeeds
  | _ => True

instance [Transaction Tx] (event : DAHeightEvent Tx) (n : P2PSyncer Tx) (op : Op Tx) :
    Decidable (ValidAt cfg event n op) := by
  cases op <;> dsimp only [ValidAt] <;> infer_instance

instance [Transaction Tx] (n : P2PSyncer Tx) (ops : List (Op Tx)) :
    DecidablePred (Valid cfg n ops) := fun event =>
  inferInstanceAs (Decidable (Run.Meets (step cfg) (ValidAt cfg event) n ops))

instance [DecidablePred V] (n : P2PSyncer Tx) (op : Op Tx) : Decidable (Orderly V n op) := by
  cases op <;> dsimp only [Orderly, Syncer.Welcome] <;> infer_instance

/-! ## The worker -/

/-- The worker is not ahead of the chain, and what it waits for was handed over. -/
def OnTarget (s : Syncer Tx) : P2PWorker → Prop
  | .top => True
  | .target height => height ≤ s.store.height + 1
  | .header height => height ≤ s.store.height + 1
  | .data height header => height ≤ s.store.height + 1 ∧ header.header.height = height
  | .commit height => height ≤ s.store.height + 1 ∧
    (height ≤ s.store.height ∨ height ≤ s.processedHeight)

theorem OnTarget.mono {s s' : Syncer Tx} {worker : P2PWorker} (h : OnTarget s worker)
    (hheight : s.store.height ≤ s'.store.height)
    (hprocessed : s.processedHeight ≤ s'.processedHeight) : OnTarget s' worker := by
  cases worker with
  | top => trivial
  | target height | header height => exact Nat.le_trans h (Nat.succ_le_succ hheight)
  | data height header => exact ⟨Nat.le_trans h.1 (Nat.succ_le_succ hheight), h.2⟩
  | commit height =>
    exact ⟨Nat.le_trans h.1 (Nat.succ_le_succ hheight),
      h.2.imp (fun h => Nat.le_trans h hheight) fun h => Nat.le_trans h hprocessed⟩

/-- What the channel, the pending map, the worker and the P2P stores keep among them. -/
structure Sound (cfg : SyncerConfig Tx) (V : DAHeightEvent Tx → Prop) (n : P2PSyncer Tx) :
    Prop where
  tame : Syncer.Tame cfg V n.syncer
  worker : OnTarget n.syncer n.worker
  headerStore : n.headerStore.Reached
  dataStore : n.dataStore.Reached

/-- What a step of the worker does. -/
inductive WorkerCase (n : P2PSyncer Tx) : P2PSyncer Tx → Prop
  | moved (worker : P2PWorker) (hgoal : OnTarget n.syncer n.worker → OnTarget n.syncer worker)
      (hread : ∀ {height header}, worker = .data height header →
        n.worker = worker ∨ n.getHeader height = .found header) :
    WorkerCase n { n with worker := worker }
  | handedOver {height : Nat} {header : SignedHeader} {data : Data Tx}
      (hworker : n.worker = .data height header) (hdata : n.getData height = .found data) :
    WorkerCase n
      { n with syncer := handOver height header data n.syncer, worker := .commit height }

theorem workerStep_cases (cfg : SyncerConfig Tx) (n : P2PSyncer Tx) :
    WorkerCase n (n.workerStep cfg) := by
  have htop : WorkerCase n { n with worker := .top } := .moved .top (fun _ => trivial) nofun
  have hsame : WorkerCase n n := .moved n.worker id fun _ => .inl rfl
  unfold workerStep
  cases hworker : n.worker with
  | top => exact .moved _ (fun _ => Nat.le_refl _) nofun
  | target height =>
    dsimp only
    split
    · next hdone =>
      refine .moved _ (fun h => ?_) nofun
      rw [hworker] at h
      exact ⟨h, .inr hdone⟩
    · refine .moved _ (fun h => ?_) nofun
      rw [hworker] at h
      exact h
  | header height =>
    dsimp only
    cases hget : n.getHeader height with
    | waits => exact hsame
    | notFound => exact htop
    | found header =>
      dsimp only
      split
      · exact htop
      · next hheight =>
        refine .moved _ (fun h => ?_) fun heq => .inr ?_
        · rw [hworker] at h
          exact ⟨h, not_not.mp hheight⟩
        · cases heq
          exact hget
  | data height header =>
    dsimp only
    cases hget : n.getData height with
    | waits => exact hsame
    | notFound => exact htop
    | found data =>
      dsimp only
      split
      · exact htop
      · exact .handedOver hworker hget
  | commit height =>
    dsimp only
    split
    · exact htop
    · exact hsame

theorem cancelP2PWait_cases (n : P2PSyncer Tx) : WorkerCase n n.cancelP2PWait := by
  have htop : WorkerCase n { n with worker := .top } := .moved .top (fun _ => trivial) nofun
  unfold cancelP2PWait
  split
  · exact htop
  · exact htop
  · exact .moved n.worker id fun _ => .inl rfl

section Step

variable [Transaction Tx] {op : Op Tx}

/-- The conditions on a step of a run in which the events of `V` are valid. -/
def Allowed (cfg : SyncerConfig Tx) (V : DAHeightEvent Tx → Prop) (n : P2PSyncer Tx) (op : Op Tx) :
    Prop :=
  Orderly V n op ∧ ∀ event, V event → ValidAt cfg event n op

/-- What a step does. -/
inductive StepCase (n : P2PSyncer Tx) : Op Tx → P2PSyncer Tx → Prop
  | synced {op : Op Tx} {s' : Syncer Tx} (h : Syncer.Grows n.syncer s') :
    StepCase n op { n with syncer := s' }
  | headerAppended {header : SignedHeader} :
    StepCase n (.appendHeader header) { n with
      headerStore := n.headerStore.append
        (n.syncer.store.getBlockData header.header.height).isSome header.header.height header }
  | dataAppended {data : Data Tx} :
    StepCase n (.appendData data) { n with
      dataStore := n.dataStore.append
        (n.syncer.store.getBlockData data.height).isSome data.height data }
  | worker {op : Op Tx} {n' : P2PSyncer Tx} (h : WorkerCase n n') : StepCase n op n'

theorem step_cases (cfg : SyncerConfig Tx) (hop : Orderly V n op) : StepCase n op (step cfg n op) := by
  cases op with
  | pipeEvent done event => exact .synced (Syncer.grows_pipeEvent ..)
  | appendHeader header => exact .headerAppended
  | appendData data => exact .dataAppended
  | worker => exact .worker (workerStep_cases cfg n)
  | cancelP2PWait => exact .worker (cancelP2PWait_cases n)
  | processPendingEvents => exact .synced (Syncer.grows_processPendingEvents _)
  | processNext env => exact .synced (Syncer.grows_processNext hop)

/-- **One step loses no block that is held.** -/
theorem Sound.safely (hhash : Syncer.HashesHeight cfg) (h : Sound cfg V n)
    (hop : Allowed cfg V n op) : Syncer.Safely cfg V n.syncer (step cfg n op).syncer := by
  cases op with
  | pipeEvent done event => exact h.tame.pipeEvent hop.1
  | appendHeader header | appendData data => exact h.tame.refl
  | worker =>
    have hcase := workerStep_cases cfg n
    show Syncer.Safely cfg V n.syncer (n.workerStep cfg).syncer
    generalize n.workerStep cfg = n' at hcase
    cases hcase with
    | moved => exact h.tame.refl
    | @handedOver height header data hworker hdata =>
      have hoffer : V ⟨header, data, 0, .p2p⟩ ∨ n.syncer.HasRoom := by
        refine hop.1 _ ?_
        unfold handing
        rw [hworker]
        dsimp only
        rw [hdata]
        rfl
      have haim := h.worker
      rw [hworker] at haim
      have hsent : Syncer.Safely cfg V n.syncer
          (Syncer.sendOrPend ⟨header, data, 0, .p2p⟩ n.syncer) :=
        h.tame.sendOrPend (hoffer.imp_right fun hroom => ⟨haim.2.le.trans haim.1, hroom⟩)
      exact ⟨⟨hsent.tame.channel, hsent.tame.pending, hsent.tame.seen⟩, hsent.held⟩
  | cancelP2PWait =>
    have hcase := cancelP2PWait_cases n
    show Syncer.Safely cfg V n.syncer n.cancelP2PWait.syncer
    unfold P2PSyncer.cancelP2PWait
    split <;> exact h.tame.refl
  | processPendingEvents => exact h.tame.sendPending _ _
  | processNext env => exact h.tame.processNext hhash hop.1 fun event hV => hop.2 event hV

omit [Transaction Tx] in
theorem handOver_processedHeight (height : Nat) (header : SignedHeader) (data : Data Tx)
    (s : Syncer Tx) : (handOver height header data s).processedHeight =
      max s.processedHeight height := by
  unfold handOver
  dsimp only
  rw [Syncer.sendOrPend_processedHeight]

omit [Transaction Tx] in
theorem handOver_store (height : Nat) (header : SignedHeader) (data : Data Tx) (s : Syncer Tx) :
    (handOver height header data s).store = s.store :=
  (Syncer.buffered_sendOrPend ⟨header, data, 0, .p2p⟩ s).store

theorem Sound.step (hhash : Syncer.HashesHeight cfg) (h : Sound cfg V n)
    (hop : Allowed cfg V n op) : Sound cfg V (step cfg n op) := by
  have htame := (h.safely hhash hop).tame
  have hcase := step_cases cfg hop.1
  generalize P2PSyncer.step cfg n op = n' at htame hcase
  cases hcase with
  | synced hgrows =>
    exact ⟨htame, h.worker.mono hgrows.height hgrows.processed_le, h.headerStore, h.dataStore⟩
  | headerAppended => exact ⟨htame, h.worker, h.headerStore.append _ _ _, h.dataStore⟩
  | dataAppended => exact ⟨htame, h.worker, h.headerStore, h.dataStore.append _ _ _⟩
  | worker hcase =>
    cases hcase with
    | moved worker hgoal => exact ⟨htame, hgoal h.worker, h.headerStore, h.dataStore⟩
    | @handedOver height header data hworker hdata =>
      have haim := h.worker
      rw [hworker] at haim
      refine ⟨htame, ⟨?_, .inr ?_⟩, h.headerStore, h.dataStore⟩
      · rw [handOver_store]
        exact haim.1
      · rw [handOver_processedHeight]
        exact le_max_right ..

/-- A height for which the P2P stores get one header and one data. -/
structure Watched (V : DAHeightEvent Tx → Prop) (k : Nat) (header : SignedHeader) (data : Data Tx)
    (n : P2PSyncer Tx) : Prop where
  stored : n.syncer.store.height < k → n.syncer.store.getBlockData k ≠ none →
    n.headerStore.items k = none
  headers : ∀ {x}, n.headerStore.items k = some x → x = header
  data : ∀ {x}, n.dataStore.items k = some x → x = data
  read : n.syncer.store.height < k → n.syncer.store.getBlockData k = none →
    ∀ {x}, n.worker = .data k x → x = header
  processed : n.syncer.store.height < k → n.syncer.store.getBlockData k = none →
    k ≤ n.syncer.processedHeight → Syncer.Held V k n.syncer

/-- Nothing else is appended for the height. -/
def Only (k : Nat) (header : SignedHeader) (data : Data Tx) : Op Tx → Prop
  | .appendHeader header' => header'.header.height = k → header' = header
  | .appendData data' => data'.height = k → data' = data
  | _ => True

omit [Transaction Tx] in
instance [DecidableEq Tx] (k : Nat) (header : SignedHeader) (data : Data Tx) (op : Op Tx) :
    Decidable (Only k header data op) := by
  cases op <;> dsimp only [Only] <;> infer_instance

variable {header : SignedHeader} {data : Data Tx}

theorem Watched.step {k : Nat}
    (hhash : Syncer.HashesHeight cfg) (hV : V ⟨header, data, 0, .p2p⟩)
    (hheader : header.header.height = k) (hs : Sound cfg V n)
    (h : Watched V k header data n) (hop : Allowed cfg V n op) (honly : Only k header data op) :
    Watched V k header data (step cfg n op) := by
  have hsafe := hs.safely hhash hop
  have hcase := step_cases cfg hop.1
  generalize P2PSyncer.step cfg n op = n' at hsafe hcase
  cases hcase with
  | @synced op s' hgrows =>
    have hbelow : s'.store.height < k → n.syncer.store.height < k :=
      Nat.lt_of_le_of_lt hgrows.height
    refine ⟨fun hk hsome => ?_, h.headers, h.data, fun hk hnone => ?_, fun hk hnone hle => ?_⟩
    · rw [hgrows.blocks hk] at hsome
      exact h.stored (hbelow hk) hsome
    · rw [hgrows.blocks hk] at hnone
      exact h.read (hbelow hk) hnone
    · rw [hgrows.blocks hk] at hnone
      have hprocessed : k ≤ n.syncer.processedHeight :=
        (le_max_iff.mp (Nat.le_trans hle hgrows.processed)).resolve_right (Nat.not_le_of_lt hk)
      exact hsafe.held (h.processed (hbelow hk) hnone hprocessed)
  | @headerAppended header' =>
    refine ⟨fun hk hsome => ?_, fun {x} hx => ?_, h.data, h.read, h.processed⟩
    · rw [StoreAdapter.items_append, if_neg]
      · exact h.stored hk hsome
      · rintro ⟨hasAt, rfl⟩
        exact hsome (by simpa using hasAt)
    · rw [StoreAdapter.items_append] at hx
      split at hx
      · next hnew =>
        cases hx
        exact honly hnew.2.symm
      · exact h.headers hx
  | @dataAppended data' =>
    refine ⟨h.stored, h.headers, fun {x} hx => ?_, h.read, h.processed⟩
    rw [StoreAdapter.items_append] at hx
    split at hx
    · next hnew =>
      cases hx
      exact honly hnew.2.symm
    · exact h.data hx
  | worker hcase =>
    cases hcase with
    | moved worker hgoal hread =>
      refine ⟨h.stored, h.headers, h.data, fun hk hnone {x} hx => ?_, h.processed⟩
      rcases hread hx with hsame | hfound
      · exact h.read hk hnone (hsame.trans hx)
      · refine h.headers (StoreAdapter.of_getByHeight_found hfound ?_)
        rw [hnone]
        rfl
    | @handedOver height header' data' hworker hdata =>
      have haim := hs.worker
      rw [hworker] at haim
      refine ⟨?_, h.headers, h.data, nofun, ?_⟩
      · rw [handOver_store]
        exact h.stored
      · intro hk hnone hle
        rw [handOver_store] at hk hnone
        rw [handOver_processedHeight] at hle
        rcases le_max_iff.mp hle with hle | hle
        · exact hsafe.held (h.processed hk hnone hle)
        · -- the worker is at the next height, which is `k`
          have hheight : height = k := Nat.le_antisymm (Nat.le_trans haim.1 hk) hle
          subst hheight
          have hx : header' = header := h.read hk hnone hworker
          have hy : data' = data := by
            refine h.data (StoreAdapter.of_getByHeight_found hdata ?_)
            rw [hnone]
            rfl
          subst hx hy
          exact hheader ▸ Syncer.held_sendOrPend hV

theorem height_le_step (cfg : SyncerConfig Tx) (hop : Orderly V n op) :
    n.syncer.store.height ≤ (P2PSyncer.step cfg n op).syncer.store.height := by
  have hcase := step_cases cfg hop
  generalize P2PSyncer.step cfg n op = n' at hcase
  cases hcase with
  | synced hgrows => exact hgrows.height
  | headerAppended | dataAppended => exact Nat.le_refl _
  | worker hcase =>
    cases hcase with
    | moved => exact Nat.le_refl _
    | handedOver =>
      rw [handOver_store]

theorem held_of_piped (hhash : Syncer.HashesHeight cfg) {ops : List (Op Tx)} (hs : Sound cfg V n)
    (hrun : Run.Meets (P2PSyncer.step cfg) (Allowed cfg V) n ops) {done : Bool}
    {event : DAHeightEvent Tx} (hV : V event) (hpiped : .pipeEvent done event ∈ ops) :
    Syncer.Held V event.header.header.height (Run.exec (P2PSyncer.step cfg) n ops).syncer := by
  refine Run.invariant_from (Sound cfg V)
    (fun n => Syncer.Held V event.header.header.height n.syncer)
    (fun n op hs hop => hs.step hhash hop) ?_ ?_ ops n hs hrun ⟨_, hpiped, rfl⟩
  · rintro n _ hs - rfl
    exact hs.tame.held_pipeEvent hV
  · intro n op hs hop hheld
    exact (hs.safely hhash hop).held hheld

omit [Transaction Tx] in
theorem watched_started {s : Syncer Tx} {k : Nat}
    (hprocessed : s.processedHeight = s.store.height) : Watched V k header data (started s) where
  stored _ _ := rfl
  headers := nofun
  data := nofun
  read _ _ := nofun
  processed hk _ hle := by
    rw [show (started s).syncer.processedHeight = s.store.height from hprocessed] at hle
    exact absurd hk (Nat.not_lt_of_le hle)

omit [Transaction Tx] in
/-- If the worker waits while the P2P stores have the next block, it has handed it over. -/
theorem Watched.held {k : Nat}
    (h : Watched V k header data n) (hs : Sound cfg V n) (hnext : k = n.syncer.store.height + 1)
    (hheader : n.headerStore.items k = some header) (hdata : n.dataStore.items k = some data)
    (hwaits : n.Waits n.worker) : Syncer.Held V k n.syncer := by
  have hgoal := hs.worker
  have hbelow : n.syncer.store.height < k := hnext ▸ Nat.lt_succ_self _
  have hnone : n.syncer.store.getBlockData k = none := by
    by_contra hsome
    have habsent := h.stored hbelow hsome
    rw [habsent] at hheader
    cases hheader
  cases hworker : n.worker with
  | top | target height =>
    rw [hworker] at hwaits
    cases hwaits
  | header height =>
    rw [hworker] at hwaits hgoal
    have hlt := StoreAdapter.lt_of_getByHeight_waits hwaits
    have hreached := hs.headerStore k header hheader
    have hgoal : height ≤ n.syncer.store.height + 1 := hgoal
    omega
  | data height header' =>
    rw [hworker] at hwaits hgoal
    have hlt := StoreAdapter.lt_of_getByHeight_waits hwaits
    have hreached := hs.dataStore k data hdata
    have hgoal : height ≤ n.syncer.store.height + 1 := hgoal.1
    omega
  | commit height =>
    rw [hworker] at hwaits hgoal
    have hwaits : n.syncer.store.height < height := hwaits
    have hheight : height = k := by
      have hle := hgoal.1
      omega
    exact h.processed hbelow hnone (hheight ▸ hgoal.2.resolve_left (Nat.not_le_of_lt hwaits))

theorem watched_of_only (hhash : Syncer.HashesHeight cfg) {ops : List (Op Tx)} {k : Nat} (hs : Sound cfg V n)
    (hrun : Run.Meets (P2PSyncer.step cfg) (Allowed cfg V) n ops)
    (hV : V ⟨header, data, 0, .p2p⟩) (hheader : header.header.height = k)
    (hw : Watched V k header data n) (honly : ∀ op ∈ ops, Only k header data op) :
    Sound cfg V (Run.exec (P2PSyncer.step cfg) n ops) ∧
      Watched V k header data (Run.exec (P2PSyncer.step cfg) n ops) := by
  refine Run.invariant (fun n => Sound cfg V n ∧ Watched V k header data n) ?_ ops n ⟨hs, hw⟩
    (hrun.and (Run.meets_of_forall honly n))
  intro n op hn hop
  exact ⟨hn.1.step hhash hop.1, hn.2.step hhash hV hheader hn.1 hop.1 hop.2⟩

end Step

section Theorem

variable [Transaction Tx] (cfg)

/-- A valid block of height `k` was piped by the DA follower, or is in the P2P stores, which were given
no other header or data of that height. -/
def Offered (n : P2PSyncer Tx) (ops : List (Op Tx)) (k : Nat) : Prop :=
  (∃ done event, .pipeEvent done event ∈ ops ∧ event.header.header.height = k ∧
      Valid cfg n ops event) ∨
    ∃ header data, (Run.exec (step cfg) n ops).headerStore.items k = some header ∧
      (Run.exec (step cfg) n ops).dataStore.items k = some data ∧ header.header.height = k ∧
      (∀ op ∈ ops, Only k header data op) ∧ Valid cfg n ops ⟨header, data, 0, .p2p⟩

end Theorem

end P2PSyncer

variable [Transaction Tx]

open P2PSyncer in
/-- **Valid blocks survive invalid ones.** In a run of a syncer that has started, in which executor and
store succeed and invalid events are offered only for the next height or below, while the channel has
room: if every height up to `h` was offered a valid block, then the store is at `h` in every quiescent
state. -/
theorem P2PSyncer.valid_blocks_survive (cfg : SyncerConfig Tx) (hhash : Syncer.HashesHeight cfg)
    (env : Syncer.StartEnv) (s₀ s : Syncer Tx) (hstart : Syncer.start cfg env s₀ = (.ok (), s))
    (ops : List (Op Tx))
    (hrun : Run.Meets (step cfg) (Orderly (Valid cfg (started s) ops)) (started s) ops) (h : Nat)
    (hoffered : ∀ k, s.store.height < k → k ≤ h → Offered cfg (started s) ops k)
    (hquiet : (Run.exec (step cfg) (started s) ops).Quiescent) :
    h ≤ (Run.exec (step cfg) (started s) ops).syncer.store.height := by
  have hallowed : Run.Meets (step cfg) (Allowed cfg (Valid cfg (started s) ops)) (started s) ops :=
    hrun.and (Run.meets_forall fun event => Run.meets_forall fun hV => hV)
  have hsound : Sound cfg (Valid cfg (started s) ops) (started s) :=
    ⟨Syncer.start_tame hstart, trivial, StoreAdapter.reached_newStoreAdapter _,
      StoreAdapter.reached_newStoreAdapter _⟩
  have hgrows : Sound cfg (Valid cfg (started s) ops) (Run.exec (step cfg) (started s) ops) ∧
      s.store.height ≤ (Run.exec (step cfg) (started s) ops).syncer.store.height := by
    refine Run.invariant (fun n => Sound cfg _ n ∧ s.store.height ≤ n.syncer.store.height) ?_ ops _
      ⟨hsound, Nat.le_refl _⟩ hallowed
    intro n op hn hop
    exact ⟨hn.1.step hhash hop, Nat.le_trans hn.2 (height_le_step cfg hop.1)⟩
  by_contra hlt
  -- the next height was offered a valid block, which is still held
  have hheld : Syncer.Held (Valid cfg (started s) ops)
      ((Run.exec (step cfg) (started s) ops).syncer.store.height + 1)
      (Run.exec (step cfg) (started s) ops).syncer := by
    rcases hoffered ((Run.exec (step cfg) (started s) ops).syncer.store.height + 1)
      (Nat.lt_succ_of_le hgrows.2) (Nat.lt_of_not_le hlt) with
      ⟨done, event, hpiped, hheight, hV⟩ | ⟨header, data, hheader, hdata, hheight, honly, hV⟩
    · exact hheight ▸ held_of_piped hhash hsound hallowed hV hpiped
    · obtain ⟨hsound', hwatched⟩ := watched_of_only hhash hsound hallowed hV hheight
        (watched_started (Syncer.start_processedHeight hstart)) honly
      exact hwatched.held hsound' rfl hheader hdata hquiet.worker
  rcases hheld with hle | ⟨event, -, -, hmem | hmem⟩
  · exact Nat.not_succ_le_self _ hle
  · rw [hquiet.channel] at hmem
    cases hmem
  · rw [hquiet.pending] at hmem
    cases hmem

namespace ValidRun

def genesis : Genesis := ⟨"chain", 0, 1, [7], 0, 1, Nat.one_pos, Nat.one_pos⟩

def cfg : SyncerConfig RawTx := (DANodeConfig.symbolic genesis [] []).toSyncerConfig

theorem hashesHeight : Syncer.HashesHeight cfg := fun _ _ heq => unary_inj heq

def header1 : SignedHeader := (Header.block [7] 1 [] []).signedBy [7]

def header2 : SignedHeader := (Header.block [7] 2 [] header1.header.encode).signedBy [7]

def valid1 : DAHeightEvent RawTx := ⟨header1, Data.block 1 [], 10, .da⟩

def valid2 : DAHeightEvent RawTx := ⟨header2, Data.block 2 [], 10, .da⟩

/-- Their headers with a signature that does not verify. -/
def invalid1 : DAHeightEvent RawTx := { valid1 with header := { header1 with signature := [0] } }

def invalid2 : DAHeightEvent RawTx := { valid2 with header := { header2 with signature := [0] } }

def env : SyncEnv RawTx := .plain (.ofBlocks 0 []) .acceptAll

def start : Syncer RawTx := (Syncer.start cfg .plain (.plain cfg)).2

theorem start_eq : Syncer.start cfg .plain (.plain cfg) = (.ok (), start) :=
  Prod.ext (by decide +kernel) rfl

def run (ops : List (P2PSyncer.Op RawTx)) : P2PSyncer RawTx :=
  Run.exec (P2PSyncer.step cfg) (.started start) ops

/-- Block 2 is early and an invalid block 1 is rejected. Block 1 comes from P2P. -/
def survives : List (P2PSyncer.Op RawTx) :=
  [.pipeEvent false valid2, .processNext env, .pipeEvent false invalid1, .processNext env,
    .appendHeader header1, .appendData (Data.block 1 []), .worker, .worker, .worker, .worker,
    .processNext env, .processPendingEvents, .processNext env, .worker, .worker, .worker]

/-- An invalid block 2 takes the place of the valid one that waits. -/
def replaced : List (P2PSyncer.Op RawTx) :=
  [.pipeEvent false valid2, .processNext env, .pipeEvent false invalid2, .processNext env,
    .pipeEvent false valid1, .processNext env, .processPendingEvents, .processNext env,
    .worker, .worker, .worker]

/-- The P2P stores have an invalid header first. -/
def readEarly : List (P2PSyncer.Op RawTx) :=
  [.appendHeader invalid1.header, .appendData (Data.block 1 []), .worker, .worker, .worker, .worker,
    .processNext env, .appendHeader header1, .worker]

end ValidRun

open ValidRun in
theorem P2PSyncer.valid_blocks_survive_invalid1 : 2 ≤ (run survives).syncer.store.height := by
  have hoffered : ∀ k, start.store.height < k → k ≤ 2 → Offered cfg (.started start) survives k := by
    intro k hlt hle
    obtain rfl | rfl : k = 1 ∨ k = 2 := by
      have hzero : start.store.height = 0 := by decide +kernel
      omega
    · exact .inr ⟨header1, Data.block 1 [], by decide +kernel⟩
    · exact .inl ⟨false, valid2, List.mem_cons_self, rfl, by decide +kernel⟩
  exact P2PSyncer.valid_blocks_survive cfg hashesHeight .plain (.plain cfg) start start_eq survives
    (by decide +kernel) 2 hoffered (by decide +kernel)

open ValidRun in
/-- **Valid blocks are lost to invalid ones.** A valid block 2 waits for block 1, and an invalid one
takes its place. Or the P2P stores have an invalid header of height 1 when the worker reads them, and the
valid one after that. Both runs end in a quiescent state below blocks that are valid and were
offered. -/
theorem P2PSyncer.valid_blocks_lost :
    (Valid cfg (.started start) replaced valid1 ∧ Valid cfg (.started start) replaced valid2 ∧
      (run replaced).Quiescent ∧ (run replaced).syncer.store.height = 1) ∧
    ((run readEarly).headerStore.items 1 = some header1 ∧
      (run readEarly).dataStore.items 1 = some (Data.block 1 []) ∧
      Valid cfg (.started start) readEarly ⟨header1, Data.block 1 [], 0, .p2p⟩ ∧
      (run readEarly).Quiescent ∧ (run readEarly).syncer.store.height = 0) := by
  decide +kernel

end EvNode
