import EvNode.Properties.InlineEvents
import EvNode.Properties.Suppression

/-!
# What is handled when the head of DA is reached

`headReached` is set in three places, and none of them looks at the claim of the other process: the
catch-up loop finds `localDAHeight` above all heights seen while the subscription still handles the last
of them (`head_reached_early`). An aggregator that waits for the head then starts to produce.
-/

namespace EvNode

open Crash Proc DARetriever

variable {Tx : Type}

namespace Subscriber

/-! ## The subscriber -/

/-- Every DA height from the start to the highest one seen is handled. -/
def AllHandled (startHeight : Nat) (s : Subscriber) : Prop :=
  ∀ h ≤ s.highestSeenDAHeight, startHeight ≤ h → h ∈ s.handled

instance (startHeight : Nat) (s : Subscriber) : Decidable (s.AllHandled startHeight) :=
  Nat.decidableBallLE ..

/-- A step sets `headReached` only when `localDAHeight` is above every height seen, and no process has
claimed one of these. -/
def HeadHolds (s : Subscriber) (op : Op) : Prop :=
  s.headReached = false → (s.step op).headReached = true →
    s.highestSeenDAHeight < s.localDAHeight ∧
      (∀ h ∈ s.follow.claim, s.highestSeenDAHeight < h) ∧
      ∀ h ∈ s.catchup.claim, s.highestSeenDAHeight < h

instance (s : Subscriber) (op : Op) : Decidable (s.HeadHolds op) :=
  inferInstanceAs (Decidable (_ → _ → _ ∧ _ ∧ _))

variable {s : Subscriber} {op : Op} {startHeight : Nat}

theorem HeadHolds.allHandled (h : s.HeadHolds op) (hcovered : s.claims.Covered startHeight)
    (hbefore : s.headReached = false) (hafter : (s.step op).headReached = true) :
    s.AllHandled startHeight := by
  obtain ⟨hlocal, hfollow, hcatchup⟩ := h hbefore hafter
  intro h hle hge
  rcases hcovered h hge (Nat.lt_of_le_of_lt hle hlocal) with hhandled | ⟨k, hk⟩
  · exact hhandled
  · have hlt : s.highestSeenDAHeight < h := by
      cases k with
      | follow => exact hfollow h hk
      | catchup => exact hcatchup h hk
    omega

theorem covered_newSubscriber (startHeight : Nat) :
    (newSubscriber startHeight).claims.Covered startHeight :=
  fun _ hge hlt => absurd hge (Nat.not_le.mpr hlt)

/-- If `headReached` is set, there was a moment at which all heights seen were handled. -/
theorem handled_before_head (startHeight : Nat) (ops : List Op)
    (hrun : Run.Meets step (fun s op => s.RollsBack op ∧ s.HeadHolds op)
      (newSubscriber startHeight) ops)
    (hhead : (Run.exec step (newSubscriber startHeight) ops).headReached = true) :
    ∃ ops₁ ops₂, ops = ops₁ ++ ops₂ ∧
      (Run.exec step (newSubscriber startHeight) ops₁).AllHandled startHeight := by
  have hstep : ∀ (s : Subscriber) (op : Op), s.claims.Covered startHeight ∧ s.headReached = false →
      s.RollsBack op ∧ s.HeadHolds op → s.AllHandled startHeight ∨
        (s.step op).claims.Covered startHeight ∧ (s.step op).headReached = false := by
    rintro s op ⟨hcovered, hbefore⟩ ⟨hback, hholds⟩
    cases hafter : (s.step op).headReached with
    | true => exact .inl (hholds.allHandled hcovered hbefore hafter)
    | false => exact .inr ⟨(refines_step s op hback).covered hcovered, rfl⟩
  rcases Run.happens_or_invariant _ hstep ops _ ⟨covered_newSubscriber startHeight, rfl⟩ hrun with
    ⟨ops₁, op, ops₂, heq, hmoment⟩ | ⟨-, hnot⟩
  · exact ⟨ops₁, op :: ops₂, heq, hmoment⟩
  · rw [hhead] at hnot
    cases hnot

theorem headReached_of_isHandler (s : Subscriber) (op : Op) (hop : op.isHandler = true) :
    (s.step op).headReached = s.headReached := by
  cases op with
  | receive height =>
    simp only [step, receive]
    split
    · unfold updateHighest
      split <;> rfl
    · rfl
  | followReturn err =>
    simp only [step, followReturn]
    split
    · split <;> rfl
    · rfl
    · rfl
  | catchupReturn err =>
    simp only [step, catchupReturn]
    split
    · split <;> rfl
    · rfl
  | _ => cases hop

end Subscriber

/-! ## A block on DA -/

/-- The header's proposer is not another one than the state expects at its height. -/
def Syncer.expects (s : Syncer Tx) (header : SignedHeader) : Bool :=
  assertExpectedProposer (DANode.blobEnv (.plain 0) s) header

theorem Syncer.expects_congr {s s' : Syncer Tx} (h : s'.lastState = s.lastState) (header : SignedHeader) :
    s'.expects header = s.expects header := by
  unfold Syncer.expects assertExpectedProposer DANode.blobEnv Syncer.expectedProposerForHeight
  rw [h]

namespace DARetriever.ProposedBlock

variable {cfg : DANodeConfig Tx} (b : ProposedBlock cfg.retriever)

/-- The block is complete on the DA heights from `first` to `last`. -/
structure Published (content : DAContent) (first last : Nat) : Prop where
  header : ∃ h, first ≤ h ∧ h ≤ last ∧ b.headerBlob ∈ content.blobs h
  data : isEmptyDataExpected cfg.retriever b.header = false →
    ∃ h, first ≤ h ∧ h ≤ last ∧ b.dataBlob ∈ content.blobs h

/-- No other blob on DA is accepted for the block's height. -/
def Alone (content : DAContent) : Prop :=
  ∀ h, ∀ bz ∈ content.blobs h, ∀ env, Carries cfg.retriever b.OwnHeader b.OwnData env bz

/-- The event of the block is among those handed to the syncer. -/
def Found (handed : List (DAHeightEvent Tx)) : Prop :=
  ∃ event ∈ handed, event.header = b.header ∧ event.data = b.data

/-- What was read of the block waits in the retriever, and no event of its height is queued. -/
structure Unfound (n : DANode Tx) : Prop where
  holds : Holds b.OwnHeader b.OwnData n.part
  missing : ¬ (b.HeaderWaits n.part ∧ b.DataWaits n.part)
  header : ∀ {h}, (h, b.headerBlob) ∈ n.part.processed → b.HeaderWaits n.part
  data : ∀ {h}, (h, b.dataBlob) ∈ n.part.processed → b.DataWaits n.part
  queued : ∀ {event}, n.syncer.Queued event → event.source = .da →
    event.header.header.height ≠ b.header.header.height

/-- The block is found, or what was read of it waits. -/
def Tracked (handed : List (DAHeightEvent Tx)) (n : DANode Tx) : Prop := b.Found handed ∨ b.Unfound n

variable {b} {n : DANode Tx} {handed : List (DAHeightEvent Tx)}

theorem Found.mono {handed' : List (DAHeightEvent Tx)} (h : b.Found handed) (hsub : handed ⊆ handed') :
    b.Found handed' := by
  obtain ⟨event, hmem, heq⟩ := h
  exact ⟨event, hsub hmem, heq⟩

theorem unfound_new {s : Syncer Tx} (hqueue : ∀ event, ¬ s.Queued event) :
    b.Unfound ⟨s, newDARetriever⟩ := by
  refine ⟨holds_newDARetriever, ?_, ?_, ?_, fun hq => absurd hq (hqueue _)⟩
  · rintro ⟨hheader, -⟩
    cases hheader
  · intro h hmem
    cases hmem
  · intro h hmem
    cases hmem

theorem event_of_height {r : DARetriever Tx} {env : BlobEnv Tx} {daHeight : Nat}
    (hold : Holds b.OwnHeader b.OwnData r) {event : DAHeightEvent Tx}
    (hmem : event ∈ (matchHeaders cfg.retriever env daHeight r).1)
    (hheight : event.header.header.height = b.header.header.height) :
    event.header = b.header ∧ event.data = b.data := by
  obtain ⟨hown, hdata, -⟩ := hold.events hmem
  have hheader : event.header = b.header := hown hheight
  refine ⟨hheader, ?_⟩
  rcases hdata with ⟨hdata, heq⟩ | ⟨hempty, heq⟩
  · exact (hdata (heq.trans hheight)).1
  · rw [heq, hheader]
    rw [hheader] at hempty
    exact (b.empty hempty).symm

/-- A scan finds the block, or what was read of it waits. -/
theorem Unfound.scan (h : b.Unfound n) {env : ScanEnv} {blobs : List Bytes} {daHeight : Nat}
    (hexpects : n.syncer.expects b.header = true)
    (htime : b.header.header.validateBasic env.now = .ok ())
    (hblobs : ∀ bz ∈ blobs, ∀ env, Carries cfg.retriever b.OwnHeader b.OwnData env bz) :
    b.Found (DANode.matched cfg env blobs daHeight n).1 ∨
      b.Unfound (DANode.scan cfg env blobs daHeight n) := by
  have hcarries : ∀ bz ∈ blobs, Carries cfg.retriever b.OwnHeader b.OwnData
      (DANode.blobEnv env n.syncer) bz := fun bz hbz => hblobs bz hbz _
  have hread : Holds b.OwnHeader b.OwnData (DANode.read cfg env blobs daHeight n).retriever :=
    Holds.decodeBlobs (r := ⟨n.part, n.syncer.cache⟩) h.holds hcarries
  have hproposer : assertExpectedProposer (DANode.blobEnv env n.syncer) b.header = true := hexpects
  have hold : Holds b.OwnHeader b.OwnData (DANode.scan cfg env blobs daHeight n).part :=
    hread.matchHeaders cfg.retriever (DANode.blobEnv env n.syncer) daHeight
  have hpending : (DANode.read cfg env blobs daHeight n).cache.pendingEvents =
      n.syncer.cache.pendingEvents := (readFrom_decodeBlobs ..).pendingEvents
  by_cases hfound : b.Found (DANode.matched cfg env blobs daHeight n).1
  · exact .inl hfound
  rcases processBlobs_waits (r := ⟨n.part, n.syncer.cache⟩) hproposer hcarries h.holds with
    hnow | ⟨hheader, hdata, hmissing⟩
  · exact absurd hnow hfound
  have hprocessed : ∀ {h bz}, (h, bz) ∈ (DANode.scan cfg env blobs daHeight n).part.processed →
      (h, bz) ∈ n.part.processed ∨ bz ∈ blobs := by
    intro h bz hmem
    rw [DAFollower.processed_scan] at hmem
    refine (List.mem_append.mp hmem).imp_right fun hmem => ?_
    obtain ⟨bz', hbz', heq⟩ := List.mem_map.mp hmem
    cases heq
    exact hbz'
  refine .inr ⟨hold, hmissing, fun hmem => hheader ?_, fun hmem => hdata ?_, ?_⟩
  · exact (hprocessed hmem).imp h.header fun hmem => ⟨hmem, htime⟩
  · exact (hprocessed hmem).imp_left h.data
  · intro event hq hsource hheight
    rcases (Syncer.requeued_pipeEvents cfg.toSyncerConfig env.doneAt _ _).queued hq with hq | hmem
    · refine h.queued (hq.imp_right fun ⟨k, hk⟩ => ⟨k, ?_⟩) hsource hheight
      rw [← hpending]
      exact hk
    · exact hfound ⟨event, hmem, event_of_height hread hmem hheight⟩

/-- A syncer operation other than `PipeEvent` forgets data of a height only for an event that was queued. -/
theorem Unfound.moves [Transaction Tx] (h : b.Unfound n) {op : Syncer.Op Tx} {n' : DANode Tx}
    (hop : ∀ done event, op ≠ .pipeEvent done event)
    (hmoves : Hooked.Moves hooks cfg.toSyncerConfig n op n') : b.Unfound n' := by
  have hqueued : ∀ {event}, n'.syncer.Queued event → event.source = .da →
      event.header.header.height ≠ b.header.header.height := by
    intro event hq hsource
    rcases Hooked.queued_of_moves _ _ hmoves hq with hoffer | ⟨old, hold, hsame⟩
    · cases op with
      | pipeEvent done e => exact absurd rfl (hop done e)
      | processHeight height header data =>
        obtain rfl : event = ⟨header, data, 0, .p2p⟩ := hoffer
        cases hsource
      | _ => exact hoffer.elim
    · rw [hsame.header]
      exact h.queued hold (hsame.source.symm.trans hsource)
  rcases DANode.part_of_moves hmoves with hpart | ⟨event, hmem, hsource, hpart⟩
  · refine ⟨hpart ▸ h.holds, ?_, ?_, ?_, hqueued⟩ <;> rw [hpart]
    · exact h.missing
    · exact h.header
    · exact h.data
  · have hne := h.queued (.inl hmem) hsource
    have hdata : b.DataWaits n'.part ↔ b.DataWaits n.part := by
      rw [hpart]
      exact removePendingData_dataWaits hne
    refine ⟨?_, fun hboth => ?_, fun hread => ?_, fun hread => hdata.mpr ?_, hqueued⟩
    · rw [hpart]
      exact h.holds.removePendingData _
    · rw [hdata, hpart] at hboth
      exact h.missing hboth
    · rw [hpart] at hread ⊢
      exact h.header hread
    · rw [hpart] at hread
      exact h.data hread

end DARetriever.ProposedBlock

/-! ## The follower -/

namespace DAFollower

open ProposedBlock

/-- What DA delivers is what is there, or an error, and no context is done. -/
def Delivered (content : DAContent) : Op Tx → Prop
  | .receive height blobs => ∀ bz ∈ blobs, bz ∈ content.blobs height
  | .handleEvent env => env.doneAt = none
  | .handleCatchup env =>
    (∀ h, (env.hint h).scan.doneAt = none ∧ content.Faithful (env.hint h).client h) ∧
      env.sequential.scan.doneAt = none ∧ ∀ h, content.Faithful env.sequential.client h
  | _ => True

/-- The time of the header is not in the future where blobs are read. -/
def Timely (header : SignedHeader) : Op Tx → Prop
  | .handleEvent env => header.header.validateBasic env.now = .ok ()
  | .handleCatchup env =>
    (∀ h, header.header.validateBasic (env.hint h).scan.now = .ok ()) ∧
      header.header.validateBasic env.sequential.scan.now = .ok ()
  | _ => True

/-- As `Subscriber.HeadHolds`, for the steps of the subscriber. -/
def HeadHolds (f : DAFollower Tx) : Op Tx → Prop
  | .subscriber op => f.subscriber.HeadHolds op
  | _ => True

instance (f : DAFollower Tx) : DecidablePred f.HeadHolds
  | .subscriber op => inferInstanceAs (Decidable (f.subscriber.HeadHolds op))
  | .receive _ _ | .handleEvent _ | .handleCatchup _ | .queuePriorityHeight _ | .syncer _ =>
    .isTrue trivial

variable {cfg : DANodeConfig Tx} {content : DAContent} {startHeight : Nat}
  {b : ProposedBlock cfg.retriever} {n : DANode Tx} {handed : List (DAHeightEvent Tx)}

theorem Delivered.answered {f : DAFollower Tx} {op : Op Tx} (h : Delivered content op) :
    Answered content f op := by
  cases op with
  | handleCatchup env =>
    unfold Answered
    dsimp only
    split
    · exact h.2.2 _
    · trivial
  | _ => trivial

theorem lastState_scan (env : ScanEnv) (blobs : List Bytes) (daHeight : Nat) (n : DANode Tx) :
    (DANode.scan cfg env blobs daHeight n).syncer.lastState = n.syncer.lastState :=
  (Syncer.requeued_pipeEvents cfg.toSyncerConfig env.doneAt _ _).buffered.lastState

/-- The block is tracked, in the state of the chain `state`. -/
def TracksIn (b : ProposedBlock cfg.retriever) (state : State) (handed : List (DAHeightEvent Tx))
    (n : DANode Tx) : Prop := b.Tracked handed n ∧ n.syncer.lastState = state

theorem TracksIn.fetch {state : State} (h : TracksIn b state handed n) (halone : b.Alone content)
    (hexpects : n.syncer.expects b.header = true) {env : FetchEnv} {daHeight : Nat}
    (hdone : env.scan.doneAt = none) (hda : content.Faithful env.client daHeight)
    (htime : b.header.header.validateBasic env.scan.now = .ok ()) :
    TracksIn b state (handed ++ (fetchAndPipeHeight cfg env daHeight n).events)
      (fetchAndPipeHeight cfg env daHeight n).node := by
  obtain ⟨htracked, hstate⟩ := h
  have hcases := fetchAndPipeHeight_cases cfg env daHeight n
  have hfetch := hda.fetchBlobs_cases
  cases hblobs : fetchBlobs env.client daHeight with
  | ok blobs =>
    rw [hblobs] at hcases hfetch
    obtain ⟨hnode, hevents⟩ := hcases
    rw [hnode, hevents hdone]
    refine ⟨?_, (lastState_scan ..).trans hstate⟩
    rcases htracked with hfound | hunfound
    · exact .inl (hfound.mono (List.subset_append_left ..))
    · have hown : ∀ bz ∈ blobs, ∀ env, Carries cfg.retriever b.OwnHeader b.OwnData env bz :=
        fun bz hbz => halone daHeight bz (hfetch ▸ hbz)
      exact (hunfound.scan hexpects htime hown).imp_left fun hfound =>
        hfound.mono (List.subset_append_right ..)
  | error e =>
    rw [hblobs] at hcases
    rw [hcases]
    exact ⟨by simpa using htracked, hstate⟩

variable [Transaction Tx] {f f' : DAFollower Tx} {op : Op Tx}

theorem Performs.handed_subset (h : Performs cfg f op f') : f.handed ⊆ f'.handed := by
  cases h with
  | eventHandled | caughtUp => exact List.subset_append_left ..
  | _ => exact List.Subset.refl _

/-- The blobs received are on DA, and the block is tracked. -/
structure Tracks (content : DAContent) (b : ProposedBlock cfg.retriever) (f : DAFollower Tx) : Prop where
  blobs : ∀ bz ∈ f.blobs, ∃ h, bz ∈ content.blobs h
  tracked : b.Tracked f.handed f.node

/-- **One step.** -/
theorem Tracks.step (h : Tracks content b f) (halone : b.Alone content) (hda : Delivered content op)
    (htime : Timely b.header op) (hexpects : f.node.syncer.expects b.header = true)
    (hstep : Performs cfg f op f') : Tracks content b f' := by
  cases hstep with
  | idle | subscriber | queued => exact ⟨h.blobs, h.tracked⟩
  | received => exact ⟨fun bz hbz => ⟨_, hda bz hbz⟩, h.tracked⟩
  | @eventHandled env height isInline res hfollow hres =>
    subst hres
    refine ⟨h.blobs, ?_⟩
    rcases h.tracked with hfound | hunfound
    · exact .inl (hfound.mono (List.subset_append_left ..))
    cases isInline with
    | false => exact .inr hunfound
    | true =>
      rcases handleEvent_inline cfg env f.blobs height f.node with ⟨hnode, -⟩ | ⟨hnode, hevents⟩
      · right
        dsimp only
        rwa [hnode]
      · have hown : ∀ bz ∈ f.blobs, ∀ env, Carries cfg.retriever b.OwnHeader b.OwnData env bz := by
          intro bz hbz
          obtain ⟨daHeight, hmem⟩ := h.blobs bz hbz
          exact halone daHeight bz hmem
        dsimp only
        rw [hnode, hevents hda]
        exact (hunfound.scan hexpects htime hown).imp_left fun hfound =>
          hfound.mono (List.subset_append_right ..)
  | @caughtUp env localHeight highest hints res hcatchup hres =>
    refine ⟨h.blobs, ?_⟩
    obtain ⟨hhints, hdone, hfaithful⟩ := hda
    have hexpects' : ∀ {n : DANode Tx}, n.syncer.lastState = f.node.syncer.lastState →
        n.syncer.expects b.header = true :=
      fun hstate => (Syncer.expects_congr hstate _).trans hexpects
    have hcases := handleCatchup_invariant cfg env localHeight (TracksIn b f.node.syncer.lastState)
      (fun hint _ _ hn => hn.fetch halone (hexpects' hn.2) (hhints hint).1 (hhints hint).2 (htime.1 hint))
      f.priorityHeights f.handed f.node ⟨h.tracked, rfl⟩
    rw [hres] at hcases
    rcases hcases with ⟨hints', r, heq, -, htracked⟩ | ⟨hints', events, n', htracked, heq⟩
    · cases heq
      exact htracked.1
    · cases heq
      have hfetched := (htracked.fetch halone (hexpects' htracked.2) hdone (hfaithful localHeight)
        htime.2).1
      rwa [List.append_assoc] at hfetched
  | syncer hop hmoves => exact ⟨h.blobs, h.tracked.imp_right fun hunfound => hunfound.moves hop hmoves⟩

omit [Transaction Tx] in
/-- When all blobs of the heights on which the block is published are processed, it has been found. -/
theorem Tracks.found (h : Tracks content b f) (hread : Read content startHeight f)
    (hall : f.subscriber.AllHandled startHeight)
    (hpublished : b.Published content startHeight f.subscriber.highestSeenDAHeight) :
    b.Found f.handed := by
  refine h.tracked.resolve_right fun hunfound => ?_
  have hprocessed : ∀ {bz}, (∃ h, startHeight ≤ h ∧ h ≤ f.subscriber.highestSeenDAHeight ∧
      bz ∈ content.blobs h) → ∃ h, (h, bz) ∈ f.node.part.processed := by
    rintro bz ⟨h, hge, hle, hmem⟩
    exact ⟨h, hread.processed h (hall h hle hge) bz hmem⟩
  refine hunfound.missing ⟨?_, ?_⟩
  · obtain ⟨h, hmem⟩ := hprocessed hpublished.header
    exact hunfound.header hmem
  · cases hempty : isEmptyDataExpected cfg.retriever b.header with
    | true => exact .inl hempty
    | false =>
      obtain ⟨h, hmem⟩ := hprocessed (hpublished.data hempty)
      exact hunfound.data hmem

/-- A step leaves `headReached` unset, or all heights seen are handled. -/
theorem Performs.head_cases (h : Performs cfg f op f') (hholds : f.HeadHolds op)
    (hread : Read content startHeight f) (hbefore : f.subscriber.headReached = false) :
    f'.subscriber.headReached = false ∨ f.subscriber.AllHandled startHeight := by
  cases h with
  | idle | queued | syncer => exact .inl hbefore
  | @subscriber op hop =>
    cases hafter : (f.subscriber.step op).headReached with
    | true => exact .inr (Subscriber.HeadHolds.allHandled hholds hread.covered hbefore hafter)
    | false => exact .inl rfl
  | received =>
    exact .inl ((Subscriber.headReached_of_isHandler _ (.receive _) rfl).trans hbefore)
  | eventHandled =>
    exact .inl ((Subscriber.headReached_of_isHandler _ (.followReturn _) rfl).trans hbefore)
  | caughtUp =>
    exact .inl ((Subscriber.headReached_of_isHandler _ (.catchupReturn _) rfl).trans hbefore)

omit [Transaction Tx] in
/-- `waitForCatchup` returns true only when `headReached` is set. -/
theorem headReached_of_waitForCatchup {p2pRecovery timeoutOn : Bool} {p2p : P2PStatus}
    (h : waitForCatchup p2pRecovery timeoutOn (.ticker (.ok (f.catchupStatus p2p))) =
      .returned (.ok true)) : f.subscriber.headReached = true := by
  unfold waitForCatchup CatchupStatus.ready at h
  by_contra hnot
  have hstatus : (f.catchupStatus p2p).daCaughtUp = false := by
    simpa [catchupStatus] using hnot
  simp [hstatus] at h

/-- There was a moment at which all heights seen were handled, and all their blobs processed. -/
theorem read_before_head (cfg : DANodeConfig Tx) {content : DAContent} {startHeight : Nat}
    {syncer : Syncer Tx} (ops : List (Op Tx)) (hda : ∀ op ∈ ops, Delivered content op)
    (hrun : Run.Meets (DAFollower.step cfg)
      (fun l op => Complete cfg content l.state op ∧ l.state.HeadHolds op)
      ⟨true, started startHeight syncer⟩ ops)
    (hup : (Run.exec (DAFollower.step cfg) ⟨true, started startHeight syncer⟩ ops).up = true)
    (hhead : (Run.exec (DAFollower.step cfg) ⟨true, started startHeight syncer⟩
      ops).state.subscriber.headReached = true) :
    ∃ ops₁ ops₂, ops = ops₁ ++ ops₂ ∧
      let l := Run.exec (DAFollower.step cfg) ⟨true, started startHeight syncer⟩ ops₁
      l.up = true ∧ Read content startHeight l.state ∧ l.state.subscriber.AllHandled startHeight := by
  have hstep : ∀ (l : Live (DAFollower Tx)) (op : Op Tx),
      (l.up = true → Read content startHeight l.state ∧ l.state.subscriber.headReached = false) →
      (Complete cfg content l.state op ∧ l.state.HeadHolds op) ∧ Delivered content op →
      (l.up = true ∧ Read content startHeight l.state ∧ l.state.subscriber.AllHandled startHeight) ∨
        ((DAFollower.step cfg l op).up = true →
          Read content startHeight (DAFollower.step cfg l op).state ∧
            (DAFollower.step cfg l op).state.subscriber.headReached = false) := by
    rintro l op hinv ⟨⟨hcomplete, hholds⟩, hda⟩
    cases hl : l.up with
    | false =>
      refine .inr fun hup => ?_
      rw [up_of_step cfg hup] at hl
      cases hl
    | true =>
      obtain ⟨hread, hbefore⟩ := hinv hl
      have hperforms := step_performs cfg hl op
      rcases hperforms.head_cases hholds hread hbefore with hafter | hall
      · exact .inr fun _ => ⟨hread.step hda.answered hcomplete hperforms, hafter⟩
      · exact .inl ⟨rfl, hread, hall⟩
  have hinit : Read content startHeight (started startHeight syncer) :=
    ⟨Subscriber.covered_newSubscriber startHeight, nofun⟩
  rcases Run.happens_or_invariant _ hstep ops _ (fun _ => ⟨hinit, rfl⟩)
    (hrun.and (Run.meets_of_forall hda _)) with ⟨ops₁, op, ops₂, heq, hmoment⟩ | hend
  · exact ⟨ops₁, op :: ops₂, heq, hmoment⟩
  · rw [(hend hup).2] at hhead
    cases hhead

end DAFollower

open DAFollower in
/--
**What is caught up is complete.**

In every interleaving, with handler calls that fail in any pattern: if `headReached` is set, there was a moment at which every DA height from the start to the
highest one seen had been handled. And when `waitForCatchup` returns true without P2P recovery, every
block that is complete on those heights has been handed to the syncer.

A rollback does not set `localDAHeight` forward, and `headReached` is set only while no height that was
seen is claimed or rolled back. For the blocks, an inline event that is handled with success completes the
blobs of its height, and no other blob on DA is accepted for the height of the block.
-/
theorem caught_up_complete (startHeight : Nat) :
    (∀ ops : List Subscriber.Op,
      Run.Meets Subscriber.step (fun s op => s.RollsBack op ∧ s.HeadHolds op)
        (.newSubscriber startHeight) ops →
      (Run.exec Subscriber.step (.newSubscriber startHeight) ops).headReached = true →
      ∃ ops₁ ops₂, ops = ops₁ ++ ops₂ ∧
        (Run.exec Subscriber.step (.newSubscriber startHeight) ops₁).AllHandled startHeight) ∧
    ∀ (Tx : Type) [Transaction Tx] (cfg : DANodeConfig Tx) (content : DAContent)
      (syncer : Syncer Tx) (ops : List (DAFollower.Op Tx)) (timeoutOn : Bool) (p2p : P2PStatus),
      let run := Run.exec (DAFollower.step cfg) ⟨true, started startHeight syncer⟩
      (∀ event, ¬ syncer.Queued event) →
      (∀ op ∈ ops, Delivered content op) →
      Run.Meets (DAFollower.step cfg)
        (fun l op => Complete cfg content l.state op ∧ l.state.HeadHolds op)
        ⟨true, started startHeight syncer⟩ ops →
      (run ops).up = true →
      waitForCatchup false timeoutOn (.ticker (.ok ((run ops).state.catchupStatus p2p))) =
        .returned (.ok true) →
      ∃ ops₁ ops₂, ops = ops₁ ++ ops₂ ∧ (run ops₁).state.subscriber.AllHandled startHeight ∧
        ∀ b : ProposedBlock cfg.retriever,
          b.Published content startHeight (run ops₁).state.subscriber.highestSeenDAHeight →
          b.Alone content → (∀ op ∈ ops, Timely b.header op) →
          Run.Meets (DAFollower.step cfg) (fun l _ => l.state.node.syncer.expects b.header = true)
            ⟨true, started startHeight syncer⟩ ops →
          b.Found (run ops).state.handed := by
  refine ⟨Subscriber.handled_before_head startHeight, ?_⟩
  intro Tx _ cfg content syncer ops timeoutOn p2p run hqueue hda hrun hup hwait
  obtain ⟨ops₁, ops₂, rfl, hup₁, hread, hall⟩ :=
    read_before_head cfg ops hda hrun hup (headReached_of_waitForCatchup hwait)
  refine ⟨ops₁, ops₂, rfl, hall, fun b hpublished halone htime hexpects => ?_⟩
  have hinit : Tracks content b (started startHeight syncer) := ⟨nofun, .inr (ProposedBlock.unfound_new hqueue)⟩
  have htracks : Tracks content b (run ops₁).state := by
    refine DAFollower.invariant cfg (fun f op => (Delivered content op ∧ Timely b.header op) ∧
      f.node.syncer.expects b.header = true) _
      (fun h hcond hstep => h.step halone hcond.1.1 hcond.1.2 hcond.2 hstep) ops₁ hinit ?_ hup₁
    have hops : ∀ op ∈ ops₁, Delivered content op ∧ Timely b.header op := fun op hop =>
      ⟨hda op (List.mem_append_left _ hop), htime op (List.mem_append_left _ hop)⟩
    exact (Run.meets_of_forall hops _).and ((Run.meets_append ..).mp hexpects).1
  have hfound := htracks.found hread hall hpublished
  -- what was handed over by then stays
  have hrest : run (ops₁ ++ ops₂) = Run.exec (DAFollower.step cfg) (run ops₁) ops₂ :=
    Run.exec_append ..
  rw [hrest] at hup ⊢
  exact DAFollower.invariant cfg (fun _ _ => True) (fun f => b.Found f.handed)
    (fun h _ hstep => h.mono hstep.handed_subset) ops₂ hfound
    (Run.meets_of_forall (fun _ _ => trivial) _) hup

/-! ## Concrete runs -/

namespace HeadRun

open InlineRun (cfg syncer)

/-- The header of the empty block 1 is at DA height 10. -/
def content : DAContent where
  sameNamespace := true
  headers h := if h = 10 then [[1]] else []
  data _ := []

def block : ProposedBlock cfg.retriever where
  header := InlineRun.first.signedBy [7]
  data := createEmptyDataForHeader (InlineRun.first.signedBy [7])
  headerBlob := [1]
  dataBlob := []
  headerBlob_ne := DARetriever.SuppressionRun.blob_ne
  decodes := by decide
  empty := fun _ => rfl
  height := rfl
  published := fun h => absurd h (by decide)

def p2p : P2PStatus := ⟨0, 0, false, false⟩

def run (ops : List (DAFollower.Op RawTx)) : Live (DAFollower RawTx) :=
  Run.exec (DAFollower.step cfg) ⟨true, .started 10 syncer⟩ ops

def caughtUp (f : DAFollower RawTx) : Bool := (f.catchupStatus p2p).ready false

/-- The subscription has claimed DA height 10 and handles it. The catch-up loop finds that 11 is above
all heights seen. -/
def early : List (DAFollower.Op RawTx) :=
  [.receive 10 [[1]], .subscriber .followLoad, .subscriber .followSwap, .subscriber .wake,
    .subscriber (.catchupLoad false), .subscriber .catchupLoadHighest]

/-- The catch-up loop handles DA height 10 while the subscription is done with 11. -/
def overtaken : List Subscriber.Op :=
  [.wake, .catchupLoad false, .catchupLoadHighest, .catchupSwap, .receive 11, .followLoad, .followSwap,
    .followReturn none, .followHead]

/-- The DA client does not know DA height 10 yet, which the subscription has seen. -/
def unknown : List Subscriber.Op :=
  [.receive 10, .wake, .catchupLoad false, .catchupLoadHighest, .catchupSwap,
    .catchupReturn (some .heightFromFuture), .catchupRollback]

/-- The subscription handles DA height 10, and block 1 is committed. -/
def settled : List (DAFollower.Op RawTx) :=
  [.receive 10 [[1]], .subscriber .followLoad, .subscriber .followSwap, .handleEvent (.plain 0),
    .subscriber .followHead, .syncer (.processNext (.plain (.ofBlocks 0 []) .acceptAll))]

theorem block_alone : block.Alone content := by
  intro h bz hbz env
  have hbz : bz = [1] := by
    unfold DAContent.blobs content at hbz
    dsimp only at hbz
    split at hbz
    · split at hbz
      · simpa using hbz
      · cases hbz
    · simp_all
  subst hbz
  constructor
  · intro strictMode header isValidEnvelope haccept _
    have hdecode := (block.decodes strictMode).symm.trans (decodeHeader_of_accept haccept)
    cases hdecode
    rfl
  · intro data haccept
    have hnone : acceptData cfg.retriever [1] = none := by decide
    rw [hnone] at haccept
    cases haccept

theorem syncer_idle : ∀ event, ¬ syncer.Queued event := by
  have hch : syncer.heightInCh.length = 0 := by decide +kernel
  have hpending : syncer.cache.pendingEvents.entries.length = 0 := by decide +kernel
  rintro event (hmem | ⟨h, hget⟩)
  · rw [List.length_eq_zero_iff.mp hch] at hmem
    cases hmem
  · rw [OrdMap.get?, List.length_eq_zero_iff.mp hpending] at hget
    cases hget

theorem settled_delivered : ∀ op ∈ settled, DAFollower.Delivered content op := by
  simp [settled, DAFollower.Delivered, ScanEnv.plain, DAContent.blobs, content]

theorem settled_timely : ∀ op ∈ settled, DAFollower.Timely block.header op := by
  simp [settled, DAFollower.Timely]
  decide

theorem settled_caughtUp : waitForCatchup false false (.ticker (.ok ((run settled).state.catchupStatus p2p))) =
    .returned (.ok true) := by
  have hready : ((run settled).state.catchupStatus p2p).ready false = true := by decide +kernel
  unfold waitForCatchup
  exact if_pos hready

theorem settled_seen {ops₁ ops₂ : List (DAFollower.Op RawTx)} (heq : settled = ops₁ ++ ops₂) :
    10 ≤ (run ops₁).state.subscriber.highestSeenDAHeight := by
  have hprefixes : ∀ n ≤ settled.length,
      10 ≤ (run (settled.take n)).state.subscriber.highestSeenDAHeight := by decide +kernel
  have hlength : ops₁.length ≤ settled.length := by
    rw [heq]
    simp
  have htake := hprefixes ops₁.length hlength
  rw [heq, List.take_left] at htake
  exact htake

end HeadRun

open HeadRun in
/-- **The head is reached early**, in each of the three places. DA height 10 has been seen and is never
handled. In the first run an aggregator that waits for the head starts, and block 1 on DA height 10 has
not been handed to the syncer. -/
theorem head_reached_early :
    ((run early).state.subscriber.headReached = true ∧ caughtUp (run early).state = true ∧
      (∀ n ≤ early.length, ¬ (run (early.take n)).state.subscriber.AllHandled 10) ∧
      block.headerBlob ∈ content.blobs 10 ∧ (run early).state.handed.length = 0) ∧
    ∀ ops ∈ [overtaken, unknown],
      (Run.exec Subscriber.step (.newSubscriber 10) ops).headReached = true ∧
        ∀ n ≤ ops.length,
          ¬ (Run.exec Subscriber.step (.newSubscriber 10) (ops.take n)).AllHandled 10 := by
  refine ⟨⟨by decide +kernel, by decide +kernel, by decide +kernel, by decide, by decide +kernel⟩, ?_⟩
  decide +kernel

open HeadRun in
theorem caught_up_complete_settled :
    (∃ ops₁ ops₂, [.receive 10, .followLoad, .followSwap, .followReturn none, .followHead] = ops₁ ++ ops₂ ∧
      (Run.exec Subscriber.step (.newSubscriber 10) ops₁).AllHandled 10) ∧
      block.Found (run settled).state.handed := by
  refine ⟨(caught_up_complete 10).1 _ (by decide +kernel) (by decide +kernel), ?_⟩
  obtain ⟨ops₁, ops₂, heq, hall, hfound⟩ := (caught_up_complete 10).2 RawTx InlineRun.cfg content
    InlineRun.syncer settled false p2p syncer_idle settled_delivered (by decide +kernel) (by decide +kernel)
    settled_caughtUp
  refine hfound block ⟨⟨10, Nat.le_refl _, settled_seen heq, by decide⟩, fun h => absurd h (by decide)⟩
    block_alone settled_timely (by decide +kernel)

end EvNode
