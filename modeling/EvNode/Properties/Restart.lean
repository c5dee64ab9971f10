import EvNode.Properties.DaPlacement
import EvNode.Properties.ValidBlocks

/-!
# Restarts of a node that reads DA only

Headers and data that wait for each other are in memory only. After a restart the node reads DA again
from one height below that of its state, which is the height at which its last block was complete. A
header of a later block can lie far below that, and then the block is never committed
(`block_lost_by_restart`).

In `restart_completes` what was read is `Held` until it is committed, and the next block moves to the
front of the channel (`Near`) within a bounded number of rounds.
-/

namespace EvNode

open Crash Proc DARetriever

variable {Tx : Type}

namespace Syncer

variable {V : DAHeightEvent Tx → Prop} {cfg : SyncerConfig Tx} {s s' : Syncer Tx} {i : Nat}

/-! ## The channel -/

/-- Pending events are appended to the channel, that of the next height first. -/
theorem sendPending_heightInCh (room nextHeight : Nat) (s : Syncer Tx) :
    ∃ moved, (sendPending room nextHeight s).heightInCh = s.heightInCh ++ moved ∧
      moved.length ≤ room ∧ ∀ event, 0 < room → s.cache.pendingEvents.get? nextHeight = some event →
        ∃ rest, moved = event :: rest := by
  induction room generalizing nextHeight s with
  | zero => exact ⟨[], by simp [sendPending], Nat.le_refl 0, fun _ hroom => absurd hroom (by simp)⟩
  | succ room ih =>
    unfold sendPending
    cases hget : s.cache.pendingEvents.get? nextHeight with
    | none => exact ⟨[], by simp, by simp, fun _ _ h => nomatch h⟩
    | some event =>
      obtain ⟨moved, happend, hlength, -⟩ := ih (nextHeight + 1) { s with
        heightInCh := s.heightInCh ++ [event]
        cache := { s.cache with pendingEvents := s.cache.pendingEvents.delete nextHeight } }
      refine ⟨event :: moved, ?_, ?_, fun _ _ h => ⟨moved, by cases h; rfl⟩⟩
      · rw [happend]
        simp
      · simpa using hlength

/-- The channel holds no more than it can. -/
def Fits (s : Syncer Tx) : Prop := s.heightInCh.length ≤ heightInChCapacity

theorem Fits.processPendingEvents (h : s.Fits) : s.processPendingEvents.Fits := by
  obtain ⟨moved, happend, hlength, -⟩ :=
    sendPending_heightInCh (heightInChCapacity - s.heightInCh.length) (s.store.height + 1) s
  have hfits : s.heightInCh.length ≤ heightInChCapacity := h
  unfold Fits Syncer.processPendingEvents
  rw [happend, List.length_append]
  omega

theorem Fits.pipeEvent (h : s.Fits) (event : DAHeightEvent Tx) :
    (pipeEvent cfg false event s).Fits := by
  unfold Syncer.pipeEvent
  split
  · exact h
  · unfold Fits Syncer.sendOrPend
    split
    · next hnot => cases hnot
    · split
      · next hroom =>
        rw [List.length_append]
        exact hroom
      · exact h

theorem Tame.pipeEvents {events : List (DAHeightEvent Tx)} (h : Tame cfg V s) (hfits : s.Fits)
    (hV : ∀ event ∈ events, V event) :
    Safely cfg V s (pipeEvents cfg none events s) ∧ (pipeEvents cfg none events s).Fits ∧
      ∀ event ∈ events, Held V event.header.header.height (pipeEvents cfg none events s) := by
  induction events generalizing s with
  | nil => exact ⟨h.refl, hfits, nofun⟩
  | cons event events ih =>
    have hevent := hV event List.mem_cons_self
    have hpiped : Safely cfg V s (Syncer.pipeEvent cfg false event s) := h.pipeEvent (.inl hevent)
    obtain ⟨hsafe, hfits', hheld⟩ := ih hpiped.tame (hfits.pipeEvent event)
      fun x hx => hV x (List.mem_cons_of_mem _ hx)
    refine ⟨⟨hsafe.tame, fun hk => hsafe.held (hpiped.held hk)⟩, hfits', fun x hx => ?_⟩
    rcases List.mem_cons.mp hx with rfl | hx
    · exact hsafe.held (h.held_pipeEvent hevent)
    · exact hheld x hx

theorem Tame.withCache (h : Tame cfg V s) {cache : CacheManager Tx}
    (hpending : cache.pendingEvents = s.cache.pendingEvents)
    (hseen : cache.headerCache.hashes = s.cache.headerCache.hashes) :
    Safely cfg V s { s with cache := cache } := by
  refine ⟨⟨h.channel, ?_, fun header hhash => h.seen header ?_⟩, fun hk => ?_⟩
  · dsimp only
    rw [hpending]
    exact h.pending
  · unfold CacheManager.isHeaderSeen Cache.isSeen at hhash ⊢
    rw [← hseen]
    exact hhash
  · unfold Held
    dsimp only
    rw [hpending]
    exact hk

/-! ## Rounds -/

/-- An event in `V` for the next height is in the channel, behind at most `i` others. -/
def Near (V : DAHeightEvent Tx → Prop) (i : Nat) (s : Syncer Tx) : Prop :=
  ∃ before event after, s.heightInCh = before ++ event :: after ∧ V event ∧
    event.header.header.height = s.store.height + 1 ∧ before.length ≤ i

theorem Near.processPendingEvents (h : Near V i s) : Near V i s.processPendingEvents := by
  obtain ⟨before, event, after, hch, hV, hheight, hlength⟩ := h
  obtain ⟨moved, happend, -⟩ :=
    sendPending_heightInCh (heightInChCapacity - s.heightInCh.length) (s.store.height + 1) s
  have hstore : s.processPendingEvents.store = s.store :=
    (requeued_sendPending _ _ s).buffered.store
  refine ⟨before, event, after ++ moved, ?_, hV, hstore.symm ▸ hheight, hlength⟩
  refine happend.trans ?_
  rw [hch]
  simp

/-- What is held for the next height moves to the channel, unless that is full. -/
theorem near_of_held (hheld : Held V (s.store.height + 1) s) (hfits : s.Fits) :
    Near V heightInChCapacity s.processPendingEvents ∨ s.heightInCh.length = heightInChCapacity := by
  have hfits : s.heightInCh.length ≤ heightInChCapacity := hfits
  rcases hheld with hle | ⟨event, hV, hheight, hmem | hget⟩
  · exact absurd hle (Nat.not_succ_le_self _)
  · obtain ⟨before, after, hch⟩ := List.append_of_mem hmem
    refine .inl (Near.processPendingEvents ⟨before, event, after, hch, hV, hheight, ?_⟩)
    rw [hch, List.length_append] at hfits
    omega
  · by_cases hfull : s.heightInCh.length = heightInChCapacity
    · exact .inr hfull
    · obtain ⟨moved, happend, -, hfirst⟩ :=
        sendPending_heightInCh (heightInChCapacity - s.heightInCh.length) (s.store.height + 1) s
      obtain ⟨rest, rfl⟩ := hfirst event (by omega) hget
      have hstore : s.processPendingEvents.store = s.store :=
        (requeued_sendPending _ _ s).buffered.store
      exact .inl ⟨_, event, rest, happend, hV, hstore.symm ▸ hheight, hfits⟩

variable [Transaction Tx] {env : SyncEnv Tx}

/-- The process loop takes one event off the channel. -/
theorem processNext_heightInCh (cfg : SyncerConfig Tx) (henv : env.Succeeds) (s : Syncer Tx) :
    (processNext cfg env s).2.heightInCh = s.heightInCh.tail := by
  cases hch : s.heightInCh with
  | nil =>
    rw [processNext_nil hch]
    exact hch
  | cons event rest =>
    obtain ⟨s', hrun, hsettles⟩ := processNext_settles cfg henv hch
    rw [hrun]
    cases hsettles with
    | rejected hnext hnot hrej => exact hrej.heightInCh
    | _ => rfl

/-- The event moves to the front, or a block is committed. -/
theorem Near.processNext (h : Near V i s) (htame : Tame cfg V s) (henv : env.Succeeds)
    (hV : ∀ event, V event → event.header.header.height = s.store.height + 1 →
      Accepts cfg env s event) :
    s.store.height < (processNext cfg env s).2.store.height ∨
      0 < i ∧ Near V (i - 1) (Syncer.processNext cfg env s).2 := by
  obtain ⟨before, event, after, hch, hVe, hheight, hlength⟩ := h
  have htail := processNext_heightInCh cfg henv s
  -- the first event of the channel
  obtain ⟨x, rest, hx⟩ : ∃ x rest, s.heightInCh = x :: rest := by
    rw [hch]
    cases before with
    | nil | cons x before => exact ⟨_, _, rfl⟩
  obtain ⟨s', hrun, hsettles⟩ := processNext_settles cfg henv hx
  rw [hrun] at htail ⊢
  have hsame : s'.store = s.store →
      (x = event → False) → s.store.height < s'.store.height ∨ 0 < i ∧ Near V (i - 1) s' := by
    intro hstore hne
    cases before with
    | nil =>
      rw [hch] at hx
      cases hx
      exact (hne rfl).elim
    | cons y before =>
      rw [hch] at htail
      have hpos : before.length + 1 ≤ i := by simpa using hlength
      exact .inr ⟨by omega, before, event, after, htail, hVe, hstore.symm ▸ hheight, by omega⟩
  cases hsettles with
  | dropped hold =>
    refine hsame rfl fun heq => ?_
    subst heq
    have hle : x.header.header.height ≤ s.store.height :=
      hold.elim id fun hseen => htame.seen x.header.header hseen
    omega
  | waits hlt =>
    refine hsame rfl fun heq => ?_
    subst heq
    have hlt : s.store.height + 1 < x.header.header.height := hlt
    omega
  | rejected hnext hnot hrej =>
    refine hsame hrej.store fun heq => ?_
    subst heq
    exact hnot (hV x hVe hheight)
  | committed event' count hnext hev hv =>
    have hnext : x.header.header.height = s.store.height + 1 := hnext
    have hlt : s.store.height < event'.header.header.height := by
      rw [(withLastDataHash_header cfg hev).1, hnext]
      exact Nat.lt_succ_self _
    have hheight' : (afterCommit cfg env event' s.lastState count
        { s with heightInCh := rest }).store.height = event'.header.header.height :=
      afterCommit_height hlt
    exact .inl (hlt.trans_eq hheight'.symm)

end Syncer

namespace DAChain

variable {cfg : DANodeConfig Tx} {content : DAContent} (chain : DAChain cfg content)

/-! ## Reading DA again -/

/-- No blob is below the start height, and no block is complete more than one DA height above a blob of
a later block. -/
structure Ordered : Prop where
  header : ∀ {k}, chain.Covers k → cfg.genesis.daStartHeight ≤ (chain.block k).headerDA
  data : ∀ {k}, chain.Covers k → isEmptyDataExpected cfg.retriever (chain.block k).header = false →
    cfg.genesis.daStartHeight ≤ (chain.block k).dataDA
  before_header : ∀ {i j}, chain.Covers i → chain.Covers j → i < j →
    (chain.block i).done ≤ (chain.block j).headerDA + 1
  before_data : ∀ {i j}, chain.Covers i → chain.Covers j → i < j →
    isEmptyDataExpected cfg.retriever (chain.block j).header = false →
    (chain.block i).done ≤ (chain.block j).dataDA + 1

/-- An event of a block of the chain, as it comes from DA. -/
def Whole (event : DAHeightEvent Tx) : Prop :=
  ∀ k, chain.Covers k → event.header.header.height = k → ∃ d ≤ (chain.block k).done,
    event = ⟨(chain.block k).header, (chain.block k).data, d, .da⟩

/-- The first block is not an empty one above height 1, for which there is no block before it in the
store. -/
def FirstReadable : Prop :=
  cfg.genesis.initialHeight = 1 ∨
    isEmptyDataExpected cfg.retriever (chain.block cfg.genesis.initialHeight).header = false

variable {chain} {n n' : DANode Tx} {k : Nat}

theorem Ordered.le_headerDA (ho : chain.Ordered) {h d : Nat} (hd : chain.Below h d)
    (hk : chain.Covers k) (hlt : h < k) : d ≤ (chain.block k).headerDA := by
  rcases hd with hle | ⟨i, hi, hih, hdone⟩
  · exact Nat.le_trans hle (ho.header hk)
  · have hbefore := ho.before_header hi hk (Nat.lt_of_le_of_lt hih hlt)
    omega

theorem Ordered.le_dataDA (ho : chain.Ordered) {h d : Nat} (hd : chain.Below h d)
    (hk : chain.Covers k) (hlt : h < k)
    (hnonempty : isEmptyDataExpected cfg.retriever (chain.block k).header = false) :
    d ≤ (chain.block k).dataDA := by
  rcases hd with hle | ⟨i, hi, hih, hdone⟩
  · exact Nat.le_trans hle (ho.data hk hnonempty)
  · have hbefore := ho.before_data hi hk (Nat.lt_of_le_of_lt hih hlt) hnonempty
    omega

/-- What a scan completes is whole. -/
theorem Running.whole_of_mem (hn : chain.Running n) {env : ScanEnv} {blobs : List Bytes}
    {daHeight : Nat} (hblobs : ∀ bz ∈ blobs, bz ∈ content.blobs daHeight) {event : DAHeightEvent Tx}
    (hmem : event ∈ (DANode.matched cfg env blobs daHeight n).1) : chain.Whole event := by
  intro k hk hheight
  obtain ⟨hheader, hdata, hdone⟩ :=
    (hn.traced hk).event_of_mem hblobs hmem (hheight.trans hk.number.symm)
  obtain ⟨_, _, _, -, -, rfl⟩ := mem_matchHeaders.mp hmem
  dsimp only at hheader hdata hdone
  subst hheader hdata
  exact ⟨daHeight, hdone, rfl⟩

variable [Transaction Tx]

/-- The next block of the chain passes every check. -/
def Passes (chain : DAChain cfg content) (env : SyncEnv Tx) (s : Syncer Tx) : Prop :=
  chain.Covers (s.store.height + 1) →
    let b := chain.block (s.store.height + 1)
    ∀ d ≤ b.done, ∀ event ∈ Syncer.withLastDataHash cfg.toSyncerConfig s.store
      ⟨b.header, b.data, d, .da⟩, Syncer.applies cfg.toSyncerConfig env event s = true

/-- DA is read again and blocks are applied, with an executor and a store that succeed. The blocks of
the chain are valid, and their times are not in the future. -/
def Valid (chain : DAChain cfg content) (n : DANode Tx) : DANode.Op Tx → Prop
  | .scan env blobs daHeight => (∀ bz ∈ blobs, bz ∈ content.blobs daHeight) ∧ env.doneAt = none ∧
      ∀ k, chain.Covers k → n.syncer.expects (chain.block k).header = true ∧
        (chain.block k).header.header.validateBasic env.now = .ok ()
  | .syncer .processPendingEvents => True
  | .syncer (.processNext env) => env.Succeeds ∧ chain.Passes env n.syncer
  | .syncer _ => False

omit [Transaction Tx] in
instance (chain : DAChain cfg content) : DecidablePred chain.Covers :=
  fun _ => inferInstanceAs (Decidable (_ ∧ _))

instance (chain : DAChain cfg content) (P : Nat → Prop) [DecidablePred P] :
    Decidable (∀ k, chain.Covers k → P k) :=
  decidable_of_iff (∀ k ≤ chain.last, cfg.genesis.initialHeight ≤ k → P k)
    ⟨fun h k hk => h k hk.2 hk.1, fun h k hle hge => h k ⟨hge, hle⟩⟩

instance (chain : DAChain cfg content) (env : SyncEnv Tx) (s : Syncer Tx) :
    Decidable (chain.Passes env s) :=
  inferInstanceAs (Decidable (_ → ∀ _ ≤ _, ∀ _ ∈ _, _))

instance (chain : DAChain cfg content) (n : DANode Tx) (op : DANode.Op Tx) :
    Decidable (chain.Valid n op) := by
  induction op using DANode.Op.casesOn with
  | scan => exact inferInstanceAs (Decidable ((∀ _ ∈ _, _) ∧ _ ∧ ∀ k, chain.Covers k → _))
  | syncer op =>
    induction op using Syncer.Op.casesOn <;> dsimp only [Valid] <;> infer_instance

/-- The node that reads DA again: every block of the chain is held, or what was read of it waits. -/
structure Rereads (chain : DAChain cfg content) (n : DANode Tx) : Prop where
  running : chain.Running n
  tame : Syncer.Tame cfg.toSyncerConfig chain.Whole n.syncer
  fits : n.syncer.Fits
  found : ∀ {k}, chain.Covers k →
    Syncer.Held chain.Whole k n.syncer ∨ (chain.block k).Unfound n

omit [Transaction Tx] in
theorem Started.rereads {env : Syncer.StartEnv} (h : chain.Started env n n') : chain.Rereads n' := by
  obtain ⟨hrunning, hpart, hfresh, -⟩ := h
  have hqueue : ∀ event, ¬ n'.syncer.Queued event := by
    rintro event (hmem | ⟨h, hget⟩)
    · rw [hfresh.heightInCh] at hmem
      cases hmem
    · rw [hfresh.cache] at hget
      cases hget
  refine ⟨hrunning, ⟨?_, ?_, ?_⟩, ?_, fun {k} hk => .inr ?_⟩
  · exact fun event hmem => absurd (.inl hmem) (hqueue event)
  · exact fun hget => absurd (.inr ⟨_, hget⟩) (hqueue _)
  · intro header hseen
    rw [hfresh.isHeaderSeen] at hseen
    cases hseen
  · unfold Syncer.Fits
    rw [hfresh.heightInCh]
    exact Nat.zero_le _
  · have hn' : n' = ⟨n'.syncer, newDARetriever⟩ := by rw [← hpart]
    rw [hn']
    exact ProposedBlock.unfound_new hqueue

/-- The next block of the chain is accepted. -/
theorem Running.accepts (hn : chain.Running n) (hfirst : chain.FirstReadable) {env : SyncEnv Tx}
    (hpasses : chain.Passes env n.syncer) (hcovers : chain.Covers (n.syncer.store.height + 1))
    {event : DAHeightEvent Tx} (hwhole : chain.Whole event)
    (hheight : event.header.header.height = n.syncer.store.height + 1) :
    Syncer.Accepts cfg.toSyncerConfig env n.syncer event := by
  obtain ⟨d, hd, rfl⟩ := hwhole _ hcovers hheight
  have hpasses := hpasses hcovers d hd
  cases hev : Syncer.withLastDataHash cfg.toSyncerConfig n.syncer.store
      ⟨(chain.block (n.syncer.store.height + 1)).header,
        (chain.block (n.syncer.store.height + 1)).data, d, .da⟩ with
  | some event' => exact ⟨event', hev, hpasses event' hev⟩
  | none =>
    -- the block before an empty one is stored
    exfalso
    unfold Syncer.withLastDataHash at hev
    split at hev
    · next hempty =>
      obtain ⟨-, hempty, hpos⟩ := hempty
      have hnone := Option.map_eq_none_iff.mp hev
      by_cases hstored : chain.Covers n.syncer.store.height
      · obtain ⟨data, hget, -⟩ := hn.blocks hstored (Nat.le_refl _)
        rw [hget] at hnone
        cases hnone
      · have hle := hn.initialHeight_le
        have hinitial : cfg.genesis.initialHeight = n.syncer.store.height + 1 := by
          have hnot : ¬ cfg.genesis.initialHeight ≤ n.syncer.store.height := fun hge =>
            hstored ⟨hge, Nat.le_of_succ_le hcovers.2⟩
          omega
        rcases hfirst with hone | hnonempty
        · omega
        · rw [hinitial] at hnonempty
          have hyes : isEmptyDataExpected cfg.retriever
              (chain.block (n.syncer.store.height + 1)).header = true := by
            unfold isEmptyDataExpected
            exact decide_eq_true (.inr hempty)
          rw [hyes] at hnonempty
          cases hnonempty
    · cases hev

/-! ## Steps -/

/-- A step of a node that reads DA again. It loses no block, and the chain does not shrink. -/
structure Advances (chain : DAChain cfg content) (n n' : DANode Tx) : Prop where
  rereads : chain.Rereads n'
  held : ∀ {k}, Syncer.Held chain.Whole k n.syncer → Syncer.Held chain.Whole k n'.syncer

theorem Rereads.scan (hn : chain.Rereads n) {env : ScanEnv} {blobs : List Bytes} {daHeight : Nat}
    (hvalid : chain.Valid n (.scan env blobs daHeight)) :
    chain.Advances n (DANode.scan cfg env blobs daHeight n) := by
  obtain ⟨hblobs, hdone, hblock⟩ := hvalid
  have hread : ReadFrom ⟨n.part, n.syncer.cache⟩ (DANode.read cfg env blobs daHeight n) :=
    readFrom_decodeBlobs ..
  have hmarked := hn.tame.withCache hread.pendingEvents hread.seen
  obtain ⟨hpiped, hfits, hheld⟩ := hmarked.tame.pipeEvents hn.fits
    fun event hmem => hn.running.whole_of_mem hblobs hmem
  have hsyncer : (DANode.scan cfg env blobs daHeight n).syncer =
      Syncer.pipeEvents cfg.toSyncerConfig none (DANode.matched cfg env blobs daHeight n).1
        { n.syncer with cache := (DANode.read cfg env blobs daHeight n).cache } := by
    rw [← hdone]
    rfl
  rw [← hsyncer] at hpiped hfits hheld
  have hkeep : ∀ {k}, Syncer.Held chain.Whole k n.syncer →
      Syncer.Held chain.Whole k (DANode.scan cfg env blobs daHeight n).syncer :=
    fun hk => hpiped.held (hmarked.held hk)
  have hmoves : DANode.Moves cfg n (.scan env blobs daHeight) (DANode.scan cfg env blobs daHeight n) :=
    DANode.step_moves (l := ⟨true, n⟩) rfl (.scan env blobs daHeight)
  have hop : DANode.Op.FromDA content (.scan env blobs daHeight : DANode.Op Tx) := hblobs
  refine ⟨⟨hn.running.moves hop hmoves, hpiped.tame, hfits, fun {k} hk => ?_⟩, hkeep⟩
  rcases hn.found hk with hold | hunfound
  · exact .inl (hkeep hold)
  · obtain ⟨hexpects, htime⟩ := hblock k hk
    refine (hunfound.scan hexpects htime fun bz hbz => (chain.block k).alone _ bz (hblobs bz hbz)).imp
      (fun ⟨event, hmem, hheader, _⟩ => ?_) id
    have hheight : event.header.header.height = k := by
      rw [hheader]
      exact hk.number
    exact hheight ▸ hheld event hmem

theorem Rereads.processPendingEvents (hn : chain.Rereads n) :
    chain.Advances n (n.withSyncer n.syncer.processPendingEvents) := by
  have hsafe : Syncer.Safely cfg.toSyncerConfig chain.Whole n.syncer n.syncer.processPendingEvents :=
    hn.tame.sendPending _ _
  have hmoves : Hooked.Moves hooks cfg.toSyncerConfig n .processPendingEvents
      (n.withSyncer n.syncer.processPendingEvents) :=
    Hooked.step_moves hooks _ (l := ⟨true, n⟩) rfl .processPendingEvents
  have hop : DANode.Op.FromDA content (.syncer .processPendingEvents : DANode.Op Tx) := trivial
  refine ⟨⟨hn.running.moves hop (.syncer hmoves), hsafe.tame, hn.fits.processPendingEvents,
    fun hk => ?_⟩, hsafe.held⟩
  refine (hn.found hk).imp hsafe.held fun hunfound => hunfound.moves ?_ hmoves
  exact fun _ _ h => by cases h

theorem Rereads.processNext (hn : chain.Rereads n)
    (hhash : Syncer.HashesHeight cfg.toSyncerConfig) (hfirst : chain.FirstReadable)
    {env : SyncEnv Tx} (henv : env.Succeeds) (hpasses : chain.Passes env n.syncer)
    (hlt : n.syncer.store.height < chain.last)
    (hmoves : Hooked.Moves hooks cfg.toSyncerConfig n (.processNext env) n')
    (hsyncer : n'.syncer = (Syncer.processNext cfg.toSyncerConfig env n.syncer).2) :
    chain.Advances n n' := by
  have hcovers : chain.Covers (n.syncer.store.height + 1) := ⟨hn.running.initialHeight_le, hlt⟩
  have hsafe := hn.tame.processNext hhash henv fun event hwhole hheight =>
    hn.running.accepts hfirst hpasses hcovers hwhole hheight
  have hfits : n'.syncer.Fits := by
    have hold : n.syncer.heightInCh.length ≤ Syncer.heightInChCapacity := hn.fits
    unfold Syncer.Fits
    rw [hsyncer, Syncer.processNext_heightInCh _ henv, List.length_tail]
    omega
  rw [← hsyncer] at hsafe
  have hop : DANode.Op.FromDA content (.syncer (.processNext env) : DANode.Op Tx) := trivial
  refine ⟨⟨hn.running.moves hop (.syncer hmoves), hsafe.tame, hfits, fun hk => ?_⟩, hsafe.held⟩
  refine (hn.found hk).imp hsafe.held fun hunfound => hunfound.moves ?_ hmoves
  exact fun _ _ h => by cases h

theorem step_processNext (cfg : DANodeConfig Tx) {env : SyncEnv Tx} (henv : env.Succeeds)
    (n : DANode Tx) :
    ∃ n', DANode.step cfg ⟨true, n⟩ (.syncer (.processNext env)) = ⟨true, n'⟩ ∧
      n'.syncer = (Syncer.processNext cfg.toSyncerConfig env n.syncer).2 ∧
      Hooked.Moves hooks cfg.toSyncerConfig n (.processNext env) n' := by
  have herase := Hooked.erases_processNext hooks cfg.toSyncerConfig env n
  have hok : (Syncer.processNext cfg.toSyncerConfig env n.syncer).1 = .ok () := by
    cases hch : n.syncer.heightInCh with
    | nil => rw [Syncer.processNext_nil hch]
    | cons event rest =>
      obtain ⟨s', hrun, -⟩ := Syncer.processNext_settles cfg.toSyncerConfig henv hch
      rw [hrun]
  have hmoves := Hooked.moves_processNext hooks cfg.toSyncerConfig env n
  rcases hrun : Hooked.processNext hooks cfg.toSyncerConfig env n with ⟨r, n'⟩
  rw [hrun] at herase hmoves
  rw [herase] at hok ⊢
  have hok : r = .ok () := hok
  subst hok
  refine ⟨n', ?_, rfl, hmoves⟩
  show Live.call (Hooked.processNext hooks cfg.toSyncerConfig env) ⟨true, n⟩ = _
  unfold Live.call
  rw [if_pos rfl]
  dsimp only
  rw [hrun]

/-- What a step of the node that reads DA again leaves. -/
structure After (chain : DAChain cfg content) (l l' : Live (DANode Tx)) : Prop where
  up : l'.up = true
  height : l.state.syncer.store.height ≤ l'.state.syncer.store.height
  processed : l.state.part.processed ⊆ l'.state.part.processed
  advances : chain.Rereads l.state → l'.state.syncer.store.height < chain.last →
    chain.Advances l.state l'.state

variable {l l' l'' : Live (DANode Tx)}

omit [Transaction Tx] in
theorem After.refl (hup : l.up = true) : chain.After l l :=
  ⟨hup, Nat.le_refl _, List.Subset.refl _, fun hl _ => ⟨hl, id⟩⟩

omit [Transaction Tx] in
theorem After.trans (h : chain.After l l') (h' : chain.After l' l'') : chain.After l l'' where
  up := h'.up
  height := Nat.le_trans h.height h'.height
  processed := List.Subset.trans h.processed h'.processed
  advances hl hlt := by
    have hfirst := h.advances hl (Nat.lt_of_le_of_lt h'.height hlt)
    have hsecond := h'.advances hfirst.rereads hlt
    exact ⟨hsecond.rereads, fun hk => hsecond.held (hfirst.held hk)⟩

theorem processed_of_moves {op : Syncer.Op Tx}
    (h : Hooked.Moves hooks cfg.toSyncerConfig n op n') : n'.part.processed = n.part.processed := by
  rcases DANode.part_of_moves h with hpart | ⟨event, -, -, hpart⟩
  · rw [hpart]
  · rw [hpart]
    rfl

section Rereading

variable (hhash : Syncer.HashesHeight cfg.toSyncerConfig) (hfirst : chain.FirstReadable)

include hhash hfirst in
/-- **One step.** -/
theorem after_step {op : DANode.Op Tx} (hup : l.up = true) (hop : chain.Valid l.state op) :
    chain.After l (DANode.step cfg l op) := by
  obtain ⟨up, n⟩ := l
  have hup : up = true := hup
  subst hup
  cases op with
  | scan env blobs daHeight =>
    have hbuffered := (Syncer.requeued_pipeEvents cfg.toSyncerConfig env.doneAt
      (DANode.matched cfg env blobs daHeight n).1
      { n.syncer with cache := (DANode.read cfg env blobs daHeight n).cache }).buffered
    refine ⟨rfl, (congrArg Store.height hbuffered.store).ge, ?_, fun hn _ => hn.scan hop⟩
    show n.part.processed ⊆ (DANode.scan cfg env blobs daHeight n).part.processed
    rw [DAFollower.processed_scan]
    exact List.subset_append_left ..
  | syncer op =>
    cases op with
    | processPendingEvents =>
      exact ⟨rfl, (Syncer.grows_processPendingEvents n.syncer).height, List.Subset.refl _,
        fun hn _ => hn.processPendingEvents⟩
    | processNext env =>
      obtain ⟨henv, hpasses⟩ := hop
      obtain ⟨n', hstep, hsyncer, hmoves⟩ := step_processNext cfg henv n
      have hheight : n.syncer.store.height ≤ n'.syncer.store.height := by
        rw [hsyncer]
        exact (Syncer.grows_processNext henv).height
      rw [hstep]
      refine ⟨rfl, hheight, (processed_of_moves hmoves).symm ▸ List.Subset.refl _, fun hn hlt => ?_⟩
      exact hn.processNext hhash hfirst henv hpasses (Nat.lt_of_le_of_lt hheight hlt) hmoves hsyncer
    | _ => exact hop.elim

include hhash hfirst in
/-- **Every run of the node that reads DA again.** -/
theorem after_exec (ops : List (DANode.Op Tx)) (hup : l.up = true)
    (hops : Run.Meets (DANode.step cfg) (fun l op => chain.Valid l.state op) l ops) :
    chain.After l (Run.exec (DANode.step cfg) l ops) := by
  induction ops generalizing l with
  | nil => exact .refl hup
  | cons op ops ih =>
    have hstep := after_step hhash hfirst hup hops.1
    exact hstep.trans (ih hstep.up hops.2)

include hhash hfirst in
theorem processed_exec {ops : List (DANode.Op Tx)} (hup : l.up = true)
    (hops : Run.Meets (DANode.step cfg) (fun l op => chain.Valid l.state op) l ops) {env : ScanEnv}
    {blobs : List Bytes} {d : Nat} (hmem : .scan env blobs d ∈ ops) {bz : Bytes} (hbz : bz ∈ blobs) :
    (d, bz) ∈ (Run.exec (DANode.step cfg) l ops).state.part.processed := by
  obtain ⟨before, rest, rfl⟩ := List.append_of_mem hmem
  rw [Run.meets_append] at hops
  rw [Run.exec_append]
  have hbefore := after_exec hhash hfirst before hup hops.1
  generalize Run.exec (DANode.step cfg) l before = l' at *
  have hscan := after_step hhash hfirst hbefore.up hops.2.1
  refine (after_exec hhash hfirst rest hscan.up hops.2.2).processed ?_
  have hstate : (DANode.step cfg l' (.scan env blobs d)).state = DANode.scan cfg env blobs d l'.state :=
    Live.call_up hbefore.up
  rw [hstate, DAFollower.processed_scan]
  exact List.mem_append_right _ (List.mem_map.mpr ⟨bz, hbz, rfl⟩)

/-! ## Draining -/

/-- One round of the two loops of the syncer. -/
def round (env : SyncEnv Tx) : List (DANode.Op Tx) :=
  [.syncer .processPendingEvents, .syncer (.processNext env)]

def drain (envs : List (SyncEnv Tx)) : List (DANode.Op Tx) := envs.flatMap round

/-- What one round leaves: the first event of the channel is gone, and an event of the next height has
moved on or a block was committed. -/
structure Rounded (chain : DAChain cfg content) (n n' : DANode Tx) : Prop extends
    chain.Advances n n' where
  height : n.syncer.store.height ≤ n'.syncer.store.height
  heightInCh : n'.syncer.heightInCh = n.syncer.processPendingEvents.heightInCh.tail
  near : ∀ {i}, Syncer.Near chain.Whole i n.syncer.processPendingEvents →
    n.syncer.store.height < n'.syncer.store.height ∨ 0 < i ∧ Syncer.Near chain.Whole (i - 1) n'.syncer

include hhash hfirst in
theorem Rereads.round (hn : chain.Rereads n) (hlt : n.syncer.store.height < chain.last)
    {env : SyncEnv Tx} (hvalid : Run.Meets (DANode.step cfg) (fun l op => chain.Valid l.state op)
      ⟨true, n⟩ (round env)) :
    ∃ n', Run.exec (DANode.step cfg) ⟨true, n⟩ (DAChain.round env) = ⟨true, n'⟩ ∧
      chain.Rounded n n' := by
  obtain ⟨-, ⟨henv, hpasses⟩, -⟩ := hvalid
  have hpend := hn.processPendingEvents
  obtain ⟨n₁, hn₁⟩ : ∃ n₁, n₁ = n.withSyncer n.syncer.processPendingEvents := ⟨_, rfl⟩
  have hsyncer₁ : n₁.syncer = n.syncer.processPendingEvents := by rw [hn₁]; rfl
  have hstore : n₁.syncer.store = n.syncer.store := by
    rw [hsyncer₁]
    exact (Syncer.requeued_sendPending _ _ n.syncer).buffered.store
  change chain.Passes env (n.withSyncer n.syncer.processPendingEvents).syncer at hpasses
  rw [← hn₁] at hpend hpasses
  obtain ⟨n', hstep, hsyncer, hmoves⟩ := step_processNext cfg henv n₁
  have hlt₁ : n₁.syncer.store.height < chain.last := hstore ▸ hlt
  have hnext := hpend.rereads.processNext hhash hfirst henv hpasses hlt₁ hmoves hsyncer
  have hcovers : chain.Covers (n₁.syncer.store.height + 1) :=
    ⟨hpend.rereads.running.initialHeight_le, hlt₁⟩
  refine ⟨n', ?_, ⟨hnext.rereads, fun hk => hnext.held (hpend.held hk)⟩, ?_, ?_, fun hnear => ?_⟩
  · rw [← hstep, hn₁]
    rfl
  · rw [hsyncer, ← hstore]
    exact (Syncer.grows_processNext henv).height
  · rw [hsyncer, ← hsyncer₁]
    exact Syncer.processNext_heightInCh _ henv _
  · rw [← hsyncer₁] at hnear
    rw [hsyncer, ← hstore]
    exact hnear.processNext hpend.rereads.tame henv fun event hwhole hheight =>
      hpend.rereads.running.accepts hfirst hpasses hcovers hwhole hheight

include hhash hfirst in
/-- The event of the next height comes to the front of the channel and is committed. -/
theorem commits_of_near (envs : List (SyncEnv Tx)) {i : Nat} (hn : chain.Rereads n)
    (hlt : n.syncer.store.height < chain.last)
    (hnear : Syncer.Near chain.Whole i n.syncer.processPendingEvents) (hi : i < envs.length)
    (hvalid : Run.Meets (DANode.step cfg) (fun l op => chain.Valid l.state op) ⟨true, n⟩
      (drain envs)) :
    n.syncer.store.height <
      (Run.exec (DANode.step cfg) ⟨true, n⟩ (drain envs)).state.syncer.store.height := by
  induction envs generalizing i n with
  | nil => exact absurd hi (Nat.not_lt_zero _)
  | cons env envs ih =>
    have hcons : drain (env :: envs) = DAChain.round env ++ drain envs := List.flatMap_cons
    rw [hcons, Run.meets_append] at hvalid
    obtain ⟨n', hround, hn'⟩ := hn.round hhash hfirst hlt hvalid.1
    rw [hcons, Run.exec_append, hround]
    rw [hround] at hvalid
    have hmono := (after_exec hhash hfirst _ rfl hvalid.2).height
    rcases hn'.near hnear with hgrown | ⟨hpos, hnear'⟩
    · exact Nat.lt_of_lt_of_le hgrown hmono
    · rcases Nat.lt_or_eq_of_le hn'.height with hgrown | hsame
      · exact Nat.lt_of_lt_of_le hgrown hmono
      · rw [hsame]
        refine ih hn'.rereads (hsame ▸ hlt) hnear'.processPendingEvents ?_ hvalid.2
        have hlength : i < envs.length + 1 := hi
        omega

/-- The rounds that suffice for one block. -/
def roundsPerBlock : Nat := Syncer.heightInChCapacity + 2

include hhash hfirst in
theorem commits_of_held (envs : List (SyncEnv Tx)) (hn : chain.Rereads n)
    (hlt : n.syncer.store.height < chain.last)
    (hheld : Syncer.Held chain.Whole (n.syncer.store.height + 1) n.syncer)
    (henvs : roundsPerBlock ≤ envs.length)
    (hvalid : Run.Meets (DANode.step cfg) (fun l op => chain.Valid l.state op) ⟨true, n⟩
      (drain envs)) :
    n.syncer.store.height <
      (Run.exec (DANode.step cfg) ⟨true, n⟩ (drain envs)).state.syncer.store.height := by
  have henvs : Syncer.heightInChCapacity + 2 ≤ envs.length := henvs
  rcases Syncer.near_of_held hheld hn.fits with hnear | hfull
  · exact commits_of_near hhash hfirst envs hn hlt hnear (by omega) hvalid
  -- the channel is full, and has room after the first round
  cases envs with
  | nil => exact absurd henvs (by simp)
  | cons env envs =>
    have hcons : drain (env :: envs) = DAChain.round env ++ drain envs := List.flatMap_cons
    rw [hcons, Run.meets_append] at hvalid
    obtain ⟨n', hround, hn'⟩ := hn.round hhash hfirst hlt hvalid.1
    rw [hcons, Run.exec_append, hround]
    rw [hround] at hvalid
    rcases Nat.lt_or_eq_of_le hn'.height with hgrown | hsame
    · exact Nat.lt_of_lt_of_le hgrown (after_exec hhash hfirst _ rfl hvalid.2).height
    · rw [hsame]
      have hheld' : Syncer.Held chain.Whole (n'.syncer.store.height + 1) n'.syncer :=
        hsame ▸ hn'.held hheld
      have hroom : n'.syncer.heightInCh.length < Syncer.heightInChCapacity := by
        have hfits : n.syncer.processPendingEvents.heightInCh.length ≤ Syncer.heightInChCapacity :=
          hn.fits.processPendingEvents
        have hpos : 0 < Syncer.heightInChCapacity := by decide
        rw [hn'.heightInCh, List.length_tail]
        omega
      refine commits_of_near hhash hfirst envs hn'.rereads (hsame ▸ hlt)
        ((Syncer.near_of_held hheld' hn'.rereads.fits).resolve_right (Nat.ne_of_lt hroom)) ?_ hvalid.2
      have hlength : Syncer.heightInChCapacity + 2 ≤ envs.length + 1 := henvs
      omega

include hhash hfirst in
/-- When every block is held, the rounds commit them all. -/
theorem commits_all (m : Nat) (envs : List (SyncEnv Tx)) (hn : chain.Rereads n)
    (hheld : ∀ {k}, chain.Covers k → Syncer.Held chain.Whole k n.syncer)
    (hm : chain.last - n.syncer.store.height ≤ m) (henvs : roundsPerBlock * m ≤ envs.length)
    (hvalid : Run.Meets (DANode.step cfg) (fun l op => chain.Valid l.state op) ⟨true, n⟩
      (drain envs)) :
    chain.last ≤ (Run.exec (DANode.step cfg) ⟨true, n⟩ (drain envs)).state.syncer.store.height := by
  induction m generalizing n envs with
  | zero =>
    have hle : chain.last ≤ n.syncer.store.height := by omega
    exact Nat.le_trans hle (after_exec hhash hfirst _ rfl hvalid).height
  | succ m ih =>
    rcases Nat.lt_or_ge n.syncer.store.height chain.last with hlt | hge
    · -- the rounds for one block, and then the others
      have hsplit : drain envs = drain (envs.take roundsPerBlock) ++ drain (envs.drop roundsPerBlock) := by
        unfold drain
        rw [← List.flatMap_append, List.take_append_drop]
      have hlength : roundsPerBlock * m + roundsPerBlock ≤ envs.length := henvs
      rw [hsplit, Run.meets_append] at hvalid
      rw [hsplit, Run.exec_append]
      have hgrown := commits_of_held hhash hfirst _ hn hlt
        (hheld ⟨hn.running.initialHeight_le, hlt⟩) (by rw [List.length_take]; omega) hvalid.1
      have hafter := after_exec hhash hfirst _ rfl hvalid.1
      rcases hrun : Run.exec (DANode.step cfg) ⟨true, n⟩ (drain (envs.take roundsPerBlock)) with ⟨up, n'⟩
      rw [hrun] at hgrown hafter hvalid
      have hup : up = true := hafter.up
      subst hup
      have hmono := (after_exec hhash hfirst _ rfl hvalid.2).height
      rcases Nat.lt_or_ge n'.syncer.store.height chain.last with hlt' | hge'
      · have hadvances := hafter.advances hn hlt'
        have hgrown : n.syncer.store.height < n'.syncer.store.height := hgrown
        refine ih _ hadvances.rereads (fun hk => hadvances.held (hheld hk)) (by omega) ?_ hvalid.2
        rw [List.length_drop]
        omega
      · exact Nat.le_trans hge' hmono
    · exact Nat.le_trans hge (after_exec hhash hfirst _ rfl hvalid).height

include hhash hfirst in
/-- Once the chain is committed, no more is asked of the rounds than that executor and store succeed. -/
theorem valid_drain_of_committed (envs : List (SyncEnv Tx)) (henvs : ∀ env ∈ envs, env.Succeeds)
    (hup : l.up = true) (hlast : chain.last ≤ l.state.syncer.store.height) :
    Run.Meets (DANode.step cfg) (fun l op => chain.Valid l.state op) l (drain envs) := by
  induction envs generalizing l with
  | nil => trivial
  | cons env envs ih =>
    have hpasses : ∀ {l' : Live (DANode Tx)}, chain.last ≤ l'.state.syncer.store.height →
        chain.Valid l'.state (.syncer (.processNext env)) := by
      intro l' hlast'
      exact ⟨henvs env List.mem_cons_self, fun hcovers => absurd hcovers.2 (by omega)⟩
    have hpend : chain.After l (DANode.step cfg l (.syncer .processPendingEvents)) :=
      after_step hhash hfirst hup trivial
    have hlast₁ := Nat.le_trans hlast hpend.height
    have hnext := after_step hhash hfirst hpend.up (hpasses hlast₁)
    refine ⟨trivial, hpasses hlast₁, ih (fun x hx => henvs x (List.mem_cons_of_mem _ hx)) hnext.up ?_⟩
    exact Nat.le_trans hlast₁ hnext.height

/-! ## The restart -/

/-- Every DA height in the range is read. -/
def Scans (content : DAContent) (first head : Nat) (ops : List (DANode.Op Tx)) : Prop :=
  ∀ d, first ≤ d → d ≤ head → ∃ env blobs, .scan env blobs d ∈ ops ∧ ∀ bz ∈ content.blobs d, bz ∈ blobs

/-- All blobs of the chain are on DA heights up to `head`. -/
structure Within (chain : DAChain cfg content) (head : Nat) : Prop where
  header : ∀ {k}, chain.Covers k → (chain.block k).headerDA ≤ head
  data : ∀ {k}, chain.Covers k → isEmptyDataExpected cfg.retriever (chain.block k).header = false →
    (chain.block k).dataDA ≤ head

include hhash hfirst in
/-- Once DA is read again, every block is held. -/
theorem held_of_scans (hordered : chain.Ordered) {head : Nat} (hwithin : chain.Within head)
    {ops : List (DANode.Op Tx)} (hn : chain.Rereads n)
    (hbelow : n.syncer.store.height < chain.last →
      chain.Below n.syncer.store.height n.syncer.daRetrieverHeight)
    (hvalid : Run.Meets (DANode.step cfg) (fun l op => chain.Valid l.state op) ⟨true, n⟩ ops)
    (hscans : Scans content n.syncer.daRetrieverHeight head ops)
    (hlt : (Run.exec (DANode.step cfg) ⟨true, n⟩ ops).state.syncer.store.height < chain.last)
    (hk : chain.Covers k) :
    Syncer.Held chain.Whole k (Run.exec (DANode.step cfg) ⟨true, n⟩ ops).state.syncer := by
  have hafter := after_exec hhash hfirst ops rfl hvalid
  rcases Nat.lt_or_ge n.syncer.store.height k with hlate | hold
  · have hbelow := hbelow (Nat.lt_of_le_of_lt hafter.height hlt)
    have hprocessed : ∀ {d bz}, n.syncer.daRetrieverHeight ≤ d → d ≤ head → bz ∈ content.blobs d →
        (d, bz) ∈ (Run.exec (DANode.step cfg) ⟨true, n⟩ ops).state.part.processed := by
      intro d bz hge hle hbz
      obtain ⟨env, blobs, hmem, hblobs⟩ := hscans d hge hle
      exact processed_exec hhash hfirst rfl hvalid hmem (hblobs bz hbz)
    refine ((hafter.advances hn hlt).rereads.found hk).resolve_right fun hunfound => ?_
    refine hunfound.missing ⟨hunfound.header (hprocessed (hordered.le_headerDA hbelow hk hlate)
      (hwithin.header hk) (chain.block k).header_mem), ?_⟩
    cases hempty : isEmptyDataExpected cfg.retriever (chain.block k).header with
    | true => exact .inl hempty
    | false =>
      exact hunfound.data (hprocessed (hordered.le_dataDA hbelow hk hlate hempty)
        (hwithin.data hk hempty) ((chain.block k).data_mem hempty))
  · exact .inl (Nat.le_trans hold hafter.height)

end Rereading

theorem fromDA_of_valid {op : DANode.Op Tx} (h : chain.Valid n op) : op.FromDA content := by
  cases op with
  | scan => exact h.1
  | syncer op =>
    cases op with
    | processPendingEvents | processNext => trivial
    | _ => exact h.elim

end DAChain

open DAChain in
/--
**No block is lost by a restart.**

A node that receives blocks only from DA runs for any time, with any failures and restarts, and crashes
anywhere. After a restart it reads every DA height from `daRetrieverHeight` up to the head, and applies
blocks, with an executor and a store that succeed, in any interleaving. Then all blocks of the chain are
committed after a bounded number of rounds of its loops.

No block is complete more than one DA height above a blob of a later block, the first block is readable,
and the start height is neither overridden nor moved by P2P.
-/
theorem restart_completes [Transaction Tx] (cfg : DANodeConfig Tx) (content : DAContent)
    (chain : DAChain cfg content) (hhash : Syncer.HashesHeight cfg.toSyncerConfig)
    (hordered : chain.Ordered) (hfirst : chain.FirstReadable) (head : Nat) (hwithin : chain.Within head)
    (n : DANode Tx) (hstore : n.syncer.store = .empty) (ops : List (DANode.Op Tx))
    (hops : ∀ op ∈ ops, op.FromDA content) (env : Syncer.StartEnv) (rereading : List (DANode.Op Tx))
    (envs : List (SyncEnv Tx)) :
    let stopped := Run.exec (DANode.step cfg) ⟨false, n⟩ (ops ++ [.syncer .crash])
    let restarted := DANode.step cfg stopped (.syncer (.start env))
    OnlyDA cfg env stopped.state.syncer.store → restarted.up = true →
    Run.Meets (DANode.step cfg) (fun l op => chain.Valid l.state op) restarted
      (rereading ++ drain envs) →
    Scans content restarted.state.syncer.daRetrieverHeight head rereading →
    roundsPerBlock * chain.last ≤ envs.length →
    ∀ k, chain.Covers k → chain.Committed
      (Run.exec (DANode.step cfg) restarted (rereading ++ drain envs)).state.syncer.store k := by
  intro stopped restarted honly hup hvalid hscans henvs k hk
  have hdisk : chain.OnDisk n.syncer.store := hstore ▸ onDisk_empty
  have hstopped : chain.Holds stopped := by
    refine holds_exec _ ?_ ⟨nofun, fun _ => hdisk⟩
    intro op hop
    rcases List.mem_append.mp hop with hop | hop
    · exact hops op hop
    · rw [List.mem_singleton.mp hop]
      trivial
  have hdown : stopped.up = false := by
    have hhalt : stopped = DANode.step cfg (Run.exec (DANode.step cfg) ⟨false, n⟩ ops) (.syncer .crash) :=
      Run.exec_concat ..
    rw [hhalt]
    rfl
  -- the chain holds of the store all along
  have hfinal : chain.Holds (Run.exec (DANode.step cfg) restarted (rereading ++ drain envs)) := by
    refine Run.invariant chain.Holds (fun _ _ h hop => h.step (fromDA_of_valid hop)) _ _ ?_ hvalid
    have hop : DANode.Op.FromDA content (.syncer (.start env) : DANode.Op Tx) := trivial
    exact hstopped.step hop
  suffices hlast : chain.last ≤
      (Run.exec (DANode.step cfg) restarted (rereading ++ drain envs)).state.syncer.store.height from
    (Live.Holds.of_both hfinal fun _ h => h.toOnDisk).blocks hk (Nat.le_trans hk.2 hlast)
  obtain ⟨_, n', hstart, hrestarted⟩ := Live.boot_ok hdown hup
  have hstarted : chain.Started env stopped.state n' :=
    wp_ok (wp_hooked_start env (hstopped.2 hdown)) hstart
  have hrestarted : restarted = ⟨true, n'⟩ := hrestarted
  rw [hrestarted] at hvalid hscans ⊢
  rw [Run.meets_append] at hvalid
  rw [Run.exec_append]
  have hreread := hstarted.rereads
  have hafter := after_exec hhash hfirst rereading rfl hvalid.1
  have hheld := fun hlt k hk => held_of_scans hhash hfirst hordered hwithin hreread
    (hstarted.below honly) hvalid.1 hscans hlt (k := k) hk
  rcases hrun : Run.exec (DANode.step cfg) ⟨true, n'⟩ rereading with ⟨up, n''⟩
  rw [hrun] at hafter hheld hvalid
  have hup' : up = true := hafter.up
  subst hup'
  rcases Nat.lt_or_ge n''.syncer.store.height chain.last with hlt | hge
  · exact commits_all hhash hfirst chain.last envs (hafter.advances hreread hlt).rereads
      (fun hk => hheld hlt _ hk) (Nat.sub_le ..) henvs hvalid.2
  · exact Nat.le_trans hge (after_exec hhash hfirst _ rfl hvalid.2).height

/-! ## Concrete runs -/

namespace RestartRun

def first : Header := .block [7] 1 [⟨3, 5⟩] []

def second : Header := .block [7] 2 [⟨4, 5⟩] first.encode

def cfg : DANodeConfig RawTx :=
  .symbolic ⟨"chain", 0, 1, [7], 0, 1, Nat.one_pos, Nat.one_pos⟩
    [([1], first.signedBy [7]), ([3], second.signedBy [7])]
    [([2], (Data.block 1 [⟨3, 5⟩]).signedBy [7]), ([4], (Data.block 2 [⟨4, 5⟩]).signedBy [7])]

/-- The DA heights of the header and the data of block 1, and of those of block 2. -/
structure Places where
  header₁ : Nat
  data₁ : Nat
  header₂ : Nat
  data₂ : Nat

namespace Places

variable (p : Places)

def table : List (Nat × Bytes) := [(p.header₁, [1]), (p.data₁, [2]), (p.header₂, [3]), (p.data₂, [4])]

def content : DAContent where
  sameNamespace := true
  headers h := (p.table.filter fun e => e.1 = h).map Prod.snd
  data _ := []

theorem mem_blobs {d : Nat} {bz : Bytes} : bz ∈ p.content.blobs d ↔ (d, bz) ∈ p.table := by
  show bz ∈ (p.table.filter fun e => e.1 = d).map Prod.snd ↔ _
  simp

theorem decodes₁ : ∀ strictMode, decodeHeader cfg.retriever strictMode [1] =
    some (first.signedBy [7], true) := by decide

theorem decodes₂ : ∀ strictMode, decodeHeader cfg.retriever strictMode [3] =
    some (second.signedBy [7], true) := by decide

theorem decodes_data : ∀ bz ∈ [[2], [4]], ∀ strictMode, decodeHeader cfg.retriever strictMode bz = none := by
  decide

theorem accepts₁ : acceptData cfg.retriever [2] = some (Data.block 1 [⟨3, 5⟩]) := by decide

theorem accepts₂ : acceptData cfg.retriever [4] = some (Data.block 2 [⟨4, 5⟩]) := by decide

theorem accepts_header : ∀ bz ∈ [[1], [3]], acceptData cfg.retriever bz = none := by decide

/-- What the four blobs are accepted as. -/
theorem carries {H : SignedHeader → Prop} {D : Data RawTx → Prop} {d : Nat} {bz : Bytes}
    (hmem : bz ∈ p.content.blobs d) (env : BlobEnv RawTx)
    (hfirst : d = p.header₁ → H (first.signedBy [7])) (hsecond : d = p.header₂ → H (second.signedBy [7]))
    (hdata₁ : d = p.data₁ → D (Data.block 1 [⟨3, 5⟩]))
    (hdata₂ : d = p.data₂ → D (Data.block 2 [⟨4, 5⟩])) : Carries cfg.retriever H D env bz := by
  rw [mem_blobs] at hmem
  simp only [table, List.mem_cons, Prod.mk.injEq, List.not_mem_nil, or_false] at hmem
  rcases hmem with ⟨hd, rfl⟩ | ⟨hd, rfl⟩ | ⟨hd, rfl⟩ | ⟨hd, rfl⟩
  · constructor
    · intro strictMode header isValidEnvelope haccept
      cases (decodes₁ strictMode).symm.trans (decodeHeader_of_accept haccept)
      exact hfirst hd
    · exact fun haccept => nomatch (accepts_header [1] (by decide)).symm.trans haccept
  · constructor
    · intro strictMode header isValidEnvelope haccept
      cases (decodes_data [2] (by decide) strictMode).symm.trans (decodeHeader_of_accept haccept)
    · intro data haccept
      cases accepts₁.symm.trans haccept
      exact hdata₁ hd
  · constructor
    · intro strictMode header isValidEnvelope haccept
      cases (decodes₂ strictMode).symm.trans (decodeHeader_of_accept haccept)
      exact hsecond hd
    · exact fun haccept => nomatch (accepts_header [3] (by decide)).symm.trans haccept
  · constructor
    · intro strictMode header isValidEnvelope haccept
      cases (decodes_data [4] (by decide) strictMode).symm.trans (decodeHeader_of_accept haccept)
    · intro data haccept
      cases accepts₂.symm.trans haccept
      exact hdata₂ hd

def block₁ : PlacedBlock cfg p.content where
  header := first.signedBy [7]
  data := Data.block 1 [⟨3, 5⟩]
  headerBlob := [1]
  dataBlob := [2]
  headerBlob_ne := DARetriever.SuppressionRun.blob_ne
  decodes := decodes₁
  empty := by decide
  height := rfl
  published := fun _ => ⟨by decide, decodes_data [2] (by decide), accepts₁⟩
  headerDA := p.header₁
  dataDA := p.data₁
  header_mem := p.mem_blobs.mpr (by simp [table])
  data_mem := fun _ => p.mem_blobs.mpr (by simp [table])
  own := fun d bz hbz env => p.carries hbz env (fun hd _ => ⟨rfl, hd⟩) (fun _ h => absurd h (by decide))
    (fun hd _ => ⟨rfl, by decide, hd⟩) (fun _ h => absurd h (by decide))

def block₂ : PlacedBlock cfg p.content where
  header := second.signedBy [7]
  data := Data.block 2 [⟨4, 5⟩]
  headerBlob := [3]
  dataBlob := [4]
  headerBlob_ne := by decide
  decodes := decodes₂
  empty := by decide
  height := rfl
  published := fun _ => ⟨by decide, decodes_data [4] (by decide), accepts₂⟩
  headerDA := p.header₂
  dataDA := p.data₂
  header_mem := p.mem_blobs.mpr (by simp [table])
  data_mem := fun _ => p.mem_blobs.mpr (by simp [table])
  own := fun d bz hbz env => p.carries hbz env (fun _ h => absurd h (by decide)) (fun hd _ => ⟨rfl, hd⟩)
    (fun _ h => absurd h (by decide)) (fun hd _ => ⟨rfl, by decide, hd⟩)

def chain : DAChain cfg p.content where
  last := 2
  block k := if k = 1 then p.block₁ else p.block₂
  number := by
    intro k hge hle
    have hge : 1 ≤ k := hge
    obtain rfl | rfl : k = 1 ∨ k = 2 := by omega
    · rfl
    · rfl

def scan (d : Nat) : DANode.Op RawTx := .scan (.plain 0) (p.content.blobs d) d

end Places

def env : SyncEnv RawTx := .plain (.ofBlocks 0 []) .acceptAll

def next : DANode.Op RawTx := .syncer (.processNext env)

def run (ops : List (DANode.Op RawTx)) : Live (DANode RawTx) :=
  Run.exec (DANode.step cfg) ⟨false, .plain cfg⟩ ops

/-- Both headers are read, and block 1 is complete. -/
def near : Places := ⟨10, 10, 10, 12⟩

def beforeStop : List (DANode.Op RawTx) := [.syncer (.start .plain), near.scan 10, next]

def stopped : Live (DANode RawTx) := run (beforeStop ++ [.syncer .crash])

def restarted : Live (DANode RawTx) := DANode.step cfg stopped (.syncer (.start .plain))

def rereading : List (DANode.Op RawTx) := [near.scan 9, near.scan 10, near.scan 11, near.scan 12]

/-- Two rounds commit block 2, and the others are idle. -/
def rounds (idle : Nat) : List (SyncEnv RawTx) := [env, env] ++ List.replicate idle env

theorem near_covers {k : Nat} (hk : near.chain.Covers k) : k = 1 ∨ k = 2 := by
  have hge : 1 ≤ k := hk.1
  have hle : k ≤ 2 := hk.2
  omega

theorem near_ordered : near.chain.Ordered where
  header _ := Nat.zero_le _
  data _ _ := Nat.zero_le _
  before_header hi hj hlt := by
    obtain rfl | rfl := near_covers hi <;> obtain rfl | rfl := near_covers hj <;>
      first | decide | exact absurd hlt (by decide)
  before_data hi hj hlt _ := by
    obtain rfl | rfl := near_covers hi <;> obtain rfl | rfl := near_covers hj <;>
      first | decide | exact absurd hlt (by decide)

theorem near_within : near.chain.Within 12 where
  header hk := by obtain rfl | rfl := near_covers hk <;> decide
  data hk _ := by obtain rfl | rfl := near_covers hk <;> decide

theorem near_scans : DAChain.Scans near.content 9 12 rereading := by
  intro d hge hle
  obtain rfl | rfl | rfl | rfl : d = 9 ∨ d = 10 ∨ d = 11 ∨ d = 12 := by omega
  all_goals exact ⟨.plain 0, _, by simp [rereading, Places.scan], fun _ h => h⟩

def far : Places := ⟨10, 30, 11, 31⟩

/-- Block 1 is complete at DA height 30, after the header of block 2 was read at 11. -/
def beforeCrash : List (DANode.Op RawTx) :=
  [.syncer (.start .plain), far.scan 10, far.scan 11, far.scan 30, next]

def afterCrash : List (DANode.Op RawTx) :=
  beforeCrash ++ [.syncer .crash, .syncer (.start .plain), far.scan 29, far.scan 30, far.scan 31, next,
    .syncer .processPendingEvents, next]

def idle (s : Syncer RawTx) : Bool := s.heightInCh.isEmpty && s.cache.pendingEvents.entries.isEmpty

/-- A chain that starts at height 5 with an empty block. -/
def late : DANodeConfig RawTx :=
  .symbolic ⟨"chain", 0, 5, [7], 0, 1, by decide, Nat.one_pos⟩
    [([1], (Header.block [7] 5 [] []).signedBy [7])] []

def lateRun : Live (DANode RawTx) :=
  Run.exec (DANode.step late) ⟨false, .plain late⟩
    [.syncer (.start .plain), .scan (.plain 0) [[1]] 10, next, .syncer .processPendingEvents, next]

end RestartRun

open RestartRun in
/-- The node crashes after block 1, when it has read the header of block 2 at the same DA height. -/
theorem restart_completes_near : near.chain.Committed
    (Run.exec (DANode.step cfg) restarted
      (rereading ++ DAChain.drain (rounds 202))).state.syncer.store 2 := by
  have hhash : Syncer.HashesHeight cfg.toSyncerConfig := fun _ _ heq => unary_inj heq
  have hfirst : near.chain.FirstReadable := .inl rfl
  have hrounds : DAChain.roundsPerBlock * near.chain.last ≤ (rounds 202).length := by
    rw [rounds, List.length_append, List.length_replicate]
    decide
  have hscans : DAChain.Scans near.content restarted.state.syncer.daRetrieverHeight 12 rereading := by
    have hheight : restarted.state.syncer.daRetrieverHeight = 9 := by decide +kernel
    rw [hheight]
    exact near_scans
  have hvalid : Run.Meets (DANode.step cfg) (fun l op => near.chain.Valid l.state op) restarted
      (rereading ++ DAChain.drain (rounds 202)) := by
    have hsplit : rereading ++ DAChain.drain (rounds 202) =
        (rereading ++ DAChain.drain [env, env]) ++ DAChain.drain (List.replicate 202 env) := by
      rw [rounds, DAChain.drain, List.flatMap_append, List.append_assoc]
      rfl
    rw [hsplit, Run.meets_append]
    refine ⟨by decide +kernel, DAChain.valid_drain_of_committed hhash hfirst _ ?_ ?_ ?_⟩
    · intro x hx
      rw [List.eq_of_mem_replicate hx]
      decide
    · decide +kernel
    · show 2 ≤ _
      decide +kernel
  generalize rounds 202 = envs at hvalid hrounds ⊢
  exact restart_completes cfg near.content near.chain hhash near_ordered hfirst 12 near_within
    (.plain cfg) rfl beforeStop (by decide) .plain rereading envs ⟨rfl, nofun⟩ (by decide +kernel)
    hvalid hscans hrounds 2 (by decide)

open RestartRun in
/-- **A block is lost by a restart.** Headers lie on DA in order, and so does the data. The node crashes
when block 1, whose data came late, is committed. It then reads DA again from height 29, and the header
of block 2 is below that: all of DA is read, nothing is left to do, and block 2 is not committed. Without
the crash it is. The empty first block of a chain that starts above height 1 is never committed at all. -/
theorem block_lost_by_restart :
    (far.header₁ < far.header₂ ∧ far.data₁ < far.data₂) ∧
    (run (beforeCrash ++ [far.scan 31, next])).state.syncer.store.height = 2 ∧
    (run (beforeCrash ++ [.syncer .crash, .syncer (.start .plain)])).state.syncer.daRetrieverHeight = 29 ∧
    ((run afterCrash).up = true ∧ idle (run afterCrash).state.syncer = true ∧
      (run afterCrash).state.syncer.store.height = 1) ∧
    (lateRun.up = true ∧ idle lateRun.state.syncer = true ∧ lateRun.state.syncer.store.height = 4) := by
  refine ⟨by decide, ?_, ?_, ?_, ?_⟩ <;> decide +kernel

end EvNode
