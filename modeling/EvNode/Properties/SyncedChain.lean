import EvNode.Properties.Hooked
import EvNode.Properties.Start
import EvNode.Properties.Validation

/-!
# The synced chain

Events arrive in any order, more than once, and with different blocks for one height. The blocks that
are committed make one chain, without gaps, in which each block is valid after the one before it.

The syncer is run with a log of its commits beside it (`SyncLog`), which changes nothing
(`Hooked.exec_syncer`).
-/

namespace EvNode

open Crash Proc

variable {Tx : Type}

/-- One commit: the process it happened in, the block, and the state after it. -/
structure Commit (Tx : Type) where
  process : Nat
  event : DAHeightEvent Tx
  after : State

namespace Commit

def header (c : Commit Tx) : Header := c.event.header.header

def height (c : Commit Tx) : Nat := c.header.height

def block (c : Commit Tx) : Block Tx := ⟨c.event.header, c.event.data, c.event.header.signature⟩

end Commit

/-- The commits so far, and the number of the process that runs. -/
structure CommitLog (Tx : Type) where
  process : Nat
  commits : List (Commit Tx)

/-- Commits are logged. -/
def CommitLog.hooks : SyncHooks Tx (CommitLog Tx) where
  started log := { log with process := log.process + 1 }
  skipped _ log := log
  committed event state log := { log with commits := log.commits ++ [⟨log.process, event, state⟩] }

/-- A syncer with a log of its commits. -/
abbrev SyncLog (Tx : Type) := Hooked Tx (CommitLog Tx)

namespace SyncLog

abbrev process (w : SyncLog Tx) : Nat := w.part.process

abbrev commits (w : SyncLog Tx) : List (Commit Tx) := w.part.commits

end SyncLog

/-! ## The chain of the log -/

/-- Everything the next block is checked against is the same. -/
structure State.Agrees (a b : State) : Prop where
  chainID : a.chainID = b.chainID
  lastBlockHeight : a.lastBlockHeight = b.lastBlockHeight
  lastBlockTime : a.lastBlockTime = b.lastBlockTime
  lastHeaderHash : a.lastHeaderHash = b.lastHeaderHash
  appHash : a.appHash = b.appHash
  nextProposerAddress : a.nextProposerAddress = b.nextProposerAddress

theorem State.Agrees.refl (a : State) : a.Agrees a := ⟨rfl, rfl, rfl, rfl, rfl, rfl⟩

namespace Commit

/-- The block is valid after one that left `state`. -/
structure ValidAfter (cfg : SyncerConfig Tx) (state : State) (c : Commit Tx) : Prop where
  chainID : c.header.chainID = state.chainID
  proposer : c.header.proposerAddress = state.nextProposerAddress
  signer : c.header.proposerAddress = c.event.header.signerAddress
  key : cfg.scheme.keyAddress c.event.header.signerPubKey = c.event.header.signerAddress
  time : state.lastBlockTime ≤ c.header.time
  appHash : c.header.appHash = state.appHash
  dataHash : c.header.dataHash = cfg.hashes.daCommitment c.event.data.txs
  metadata : c.event.data.chainID = c.header.chainID ∧ c.event.data.height = c.height ∧
    c.event.data.time = c.header.time

/-- The state after the block is that of its header. -/
structure Sound (cfg : SyncerConfig Tx) (c : Commit Tx) : Prop where
  chainID : c.after.chainID = cfg.genesis.chainID
  lastBlockHeight : c.after.lastBlockHeight = c.height
  lastBlockTime : c.after.lastBlockTime = c.header.time
  lastHeaderHash : c.after.lastHeaderHash = cfg.hashes.headerHash c.header
  nextProposer : c.after.nextProposerAddress ≠ []

/-- The commits of `process` whose header does not have the hash of the header before it. -/
def unlinked (cfg : SyncerConfig Tx) (process : Nat) (commits : List (Commit Tx)) : Nat :=
  (commits.zip commits.tail).countP fun x =>
    x.2.process = process ∧ x.2.header.lastHeaderHash ≠ cfg.hashes.headerHash x.1.header

theorem zip_tail_concat {α : Type} (l : List α) (a : α) :
    (l ++ [a]).zip (l ++ [a]).tail = l.zip l.tail ++ (l.getLast?.map (·, a)).toList := by
  induction l with
  | nil => rfl
  | cons b l ih =>
    cases l with
    | nil => rfl
    | cons c l => exact congrArg ((b, c) :: ·) ih

theorem unlinked_concat_none {cfg : SyncerConfig Tx} {process : Nat} {commits : List (Commit Tx)}
    {c : Commit Tx} (h : ∀ last ∈ commits.getLast?, c.process = process →
      c.header.lastHeaderHash = cfg.hashes.headerHash last.header) :
    unlinked cfg process (commits ++ [c]) = unlinked cfg process commits := by
  unfold unlinked
  rw [zip_tail_concat, List.countP_append]
  cases hlast : commits.getLast? with
  | none => rfl
  | some last =>
    rw [Option.map_some, Option.toList_some, List.countP_singleton, if_neg, Nat.add_zero]
    simpa using h last hlast

theorem unlinked_concat_le (cfg : SyncerConfig Tx) (process : Nat) (commits : List (Commit Tx))
    (c : Commit Tx) : unlinked cfg process (commits ++ [c]) ≤ unlinked cfg process commits + 1 := by
  unfold unlinked
  rw [zip_tail_concat, List.countP_append]
  refine Nat.add_le_add_left (Nat.le_trans List.countP_le_length ?_) _
  cases commits.getLast? with
  | none => exact Nat.zero_le 1
  | some _ => exact Nat.le_refl 1

theorem unlinked_of_forall_ne {cfg : SyncerConfig Tx} {process : Nat} {commits : List (Commit Tx)}
    (h : ∀ c ∈ commits, c.process ≠ process) : unlinked cfg process commits = 0 := by
  unfold unlinked
  rw [List.countP_eq_zero]
  rintro ⟨a, b⟩ hx
  have hb : b ∈ commits := List.mem_of_mem_tail (List.of_mem_zip hx).2
  simpa using fun hp => absurd hp (h b hb)

end Commit

/-- The logged blocks make a chain. -/
structure Chain (cfg : SyncerConfig Tx) (commits : List (Commit Tx)) : Prop where
  heights : commits.map Commit.height = List.range' cfg.genesis.initialHeight commits.length
  valid : commits.IsChain fun a b => b.ValidAfter cfg a.after
  sound : ∀ c ∈ commits, c.Sound cfg

namespace Chain

variable {cfg : SyncerConfig Tx} {commits : List (Commit Tx)} {c c' : Commit Tx}

theorem concat (h : Chain cfg commits)
    (hheight : c.height = cfg.genesis.initialHeight + commits.length)
    (hvalid : ∀ last ∈ commits.getLast?, c.ValidAfter cfg last.after) (hsound : c.Sound cfg) :
    Chain cfg (commits ++ [c]) where
  heights := by
    rw [List.map_append, h.heights, List.length_append, List.length_singleton,
      List.range'_concat, Nat.one_mul, ← hheight]
    rfl
  valid := by
    rw [List.isChain_append]
    refine ⟨h.valid, .singleton c, fun last hlast c' hc' => ?_⟩
    cases hc'
    exact hvalid last hlast
  sound c' hc' := by
    rcases List.mem_append.mp hc' with hc' | hc'
    · exact h.sound c' hc'
    · rw [List.mem_singleton.mp hc']
      exact hsound

theorem height_mem (h : Chain cfg commits) (hc : c ∈ commits) :
    cfg.genesis.initialHeight ≤ c.height ∧
      c.height < cfg.genesis.initialHeight + commits.length := by
  have hmem : c.height ∈ commits.map Commit.height := List.mem_map_of_mem hc
  rw [h.heights, List.mem_range'_1] at hmem
  exact hmem

theorem last_height (h : Chain cfg commits) (hc : c ∈ commits.getLast?) :
    c.height + 1 = cfg.genesis.initialHeight + commits.length := by
  obtain ⟨init, rfl⟩ := List.getLast?_eq_some_iff.mp hc
  have hheights := h.heights
  rw [List.map_append, List.length_append, List.length_singleton, List.range'_concat,
    Nat.one_mul] at hheights
  have hlast := List.append_inj_right' hheights rfl
  rw [List.length_append, List.length_singleton, ← Nat.add_assoc]
  exact congrArg (· + 1) (List.singleton_inj.mp hlast)

theorem eq_of_height_eq (h : Chain cfg commits) (hc : c ∈ commits) (hc' : c' ∈ commits)
    (heq : c.height = c'.height) : c = c' := by
  have hnodup : (commits.map Commit.height).Nodup := by
    rw [h.heights]
    exact List.nodup_range'
  exact List.inj_on_of_nodup_map hnodup hc hc' heq

end Chain

/-! ## The store and the log -/

/-- What a state stored for height `h` has in common with the log. -/
structure StateAt (cfg : SyncerConfig Tx) (commits : List (Commit Tx)) (h : Nat) (state : State) :
    Prop where
  chainID : state.chainID = cfg.genesis.chainID
  initial : h < cfg.genesis.initialHeight → state.lastHeaderHash = []
  agrees : ∀ c ∈ commits, c.height = h → state.Agrees c.after

/-- The store holds the logged blocks and the states after them. -/
structure Recorded (cfg : SyncerConfig Tx) (commits : List (Commit Tx)) (s : Store Tx) : Prop where
  wf : s.WF cfg.genesis
  lastHeight : s.lastHeight cfg.genesis + 1 = cfg.genesis.initialHeight + commits.length
  blocks : ∀ c ∈ commits, s.blocks.get? c.height = some c.block
  logged : ∀ h b, s.blocks.get? h = some b → ∃ c ∈ commits, c.height = h ∧ b = c.block
  stored : ∀ c ∈ commits, (s.states.get? c.height).isSome = true
  stateAt : ∀ h state, s.states.get? h = some state → StateAt cfg commits h state

theorem StateAt.concat {cfg : SyncerConfig Tx} {commits : List (Commit Tx)} {c : Commit Tx}
    {h : Nat} {state : State} (hs : StateAt cfg commits h state) (hne : c.height ≠ h) :
    StateAt cfg (commits ++ [c]) h state where
  chainID := hs.chainID
  initial := hs.initial
  agrees c' hc' heq := by
    rcases List.mem_append.mp hc' with hc' | hc'
    · exact hs.agrees c' hc' heq
    · rw [List.mem_singleton.mp hc'] at heq
      exact absurd heq hne

namespace Recorded

variable {cfg : SyncerConfig Tx} {commits : List (Commit Tx)} {s : Store Tx}

theorem empty (cfg : SyncerConfig Tx) : Recorded cfg [] (.empty : Store Tx) where
  wf := ⟨nofun, fun _ => Nat.zero_le _, nofun⟩
  lastHeight := Nat.sub_add_cancel cfg.genesis.initialHeight_pos
  blocks := nofun
  logged := nofun
  stored := nofun
  stateAt := nofun

theorem putState {s' : Store Tx} {state : State} (h : Recorded cfg commits s)
    (hblocks : s'.blocks = s.blocks)
    (hstates : s'.states = s.states.put state.lastBlockHeight state)
    (hwf : s'.WF cfg.genesis) (hlast : s'.lastHeight cfg.genesis = s.lastHeight cfg.genesis)
    (hstate : StateAt cfg commits state.lastBlockHeight state) : Recorded cfg commits s' where
  wf := hwf
  lastHeight := hlast ▸ h.lastHeight
  blocks := hblocks ▸ h.blocks
  logged := hblocks ▸ h.logged
  stored c hc := by
    rw [hstates, OrdMap.get?_put]
    split
    · rfl
    · exact h.stored c hc
  stateAt k state' hk := by
    rw [hstates, OrdMap.get?_put] at hk
    split at hk
    · next heq =>
      cases hk
      exact heq ▸ hstate
    · exact h.stateAt k state' hk

theorem writeBack (h : Recorded cfg commits s) {state : State}
    (hlast : state.lastBlockHeight = s.lastHeight cfg.genesis)
    (hstate : StateAt cfg commits state.lastBlockHeight state) :
    Recorded cfg commits ((s.setHeight state.lastBlockHeight).updateState state) := by
  obtain ⟨hwf, hheight, _⟩ := h.wf.writeBack hlast
  refine h.putState ?_ ?_ hwf hheight hstate
  · exact Store.setHeight_blocks state.lastBlockHeight s
  · show (s.setHeight state.lastBlockHeight).states.put _ _ = _
    rw [Store.setHeight_states]

/-- A replay writes a state that agrees with the one after the block. -/
theorem keptByReplay (hchain : Chain cfg commits) :
    Store.KeptByReplay cfg.genesis cfg.hashes fun s : Store Tx =>
      Recorded cfg commits s ∧ s.getState.isSome = true := by
  rintro s height b prev stateRoot nextProposer ⟨h, hsome⟩ hb hprev hmatch
  obtain ⟨c, hc, rfl, rfl⟩ := h.logged height b hb
  obtain ⟨state, hstate⟩ := Option.isSome_iff_exists.mp (h.stored c hc)
  have hagrees := (h.stateAt _ state hstate).agrees c hc rfl
  have hsound := hchain.sound c hc
  have hprevID : prev.chainID = cfg.genesis.chainID := by
    unfold Store.replayPrevState at hprev
    split at hprev
    · cases hprev
      rfl
    · exact (h.stateAt _ prev hprev).chainID
  rw [hstate] at hmatch
  obtain ⟨happ, hproposer⟩ := of_decide_eq_true hmatch
  have hreplayed : Store.Replayed s (s.updateState
      (prev.nextState cfg.hashes c.header stateRoot nextProposer)) :=
    (Store.replayed_refl h.wf.statesKeyed).updateState ⟨c.height, c.block, hb, rfl, rfl⟩
  obtain ⟨hwf, hlast, hsome'⟩ := hreplayed.wf h.wf hsome
  refine ⟨h.putState rfl rfl hwf hlast ⟨hprevID, fun hlt => ?_, fun c' hc' heq => ?_⟩, hsome'⟩
  · exact absurd hlt (Nat.not_lt.mpr (hchain.height_mem hc).1)
  · rw [hchain.eq_of_height_eq hc' hc heq]
    refine ⟨hprevID.trans hsound.chainID.symm, hsound.lastBlockHeight.symm,
      hsound.lastBlockTime.symm, hsound.lastHeaderHash.symm, happ.trans hagrees.appHash, ?_⟩
    rcases hproposer with hnil | hsame
    · exact absurd (hagrees.nextProposerAddress.symm.trans hnil) hsound.nextProposer
    · exact hsame.trans hagrees.nextProposerAddress

/-- The commit of the next block. -/
theorem commit (h : Recorded cfg commits s) {c : Commit Tx}
    (hchain : Chain cfg commits) (hsound : c.Sound cfg)
    (hheight : c.height = cfg.genesis.initialHeight + commits.length) :
    Recorded cfg (commits ++ [c]) (Node.commitBatch c.event.header c.event.data
        c.event.header.signature c.after s) ∧
      (Node.commitBatch c.event.header c.event.data c.event.header.signature c.after s).getState =
        some c.after := by
  have hnext : c.height = s.lastHeight cfg.genesis + 1 := hheight.trans h.lastHeight.symm
  obtain ⟨hwf, hlast, hget, _⟩ := h.wf.commitBatch hnext c.event.data
    c.event.header.signature hsound.lastBlockHeight
  have hblocks : (Node.commitBatch c.event.header c.event.data c.event.header.signature c.after
      s).blocks = s.blocks.put c.height c.block := Store.commitBatch_blocks ..
  have hstates : (Node.commitBatch c.event.header c.event.data c.event.header.signature c.after
      s).states = s.states.put c.height c.after := by
    rw [Store.commitBatch_states, hsound.lastBlockHeight]
  have hne : ∀ c' ∈ commits, c'.height ≠ c.height := fun c' hc' heq =>
    absurd (hchain.height_mem hc').2 (by omega)
  refine ⟨?_, hget⟩
  constructor
  · exact hwf
  · rw [hlast, ← hnext, hheight, List.length_append, List.length_singleton]
    rfl
  · intro c' hc'
    rw [hblocks]
    rcases List.mem_append.mp hc' with hc' | hc'
    · rw [OrdMap.get?_put_ne _ _ (hne c' hc')]
      exact h.blocks c' hc'
    · rw [List.mem_singleton.mp hc']
      exact OrdMap.get?_put_self ..
  · intro k b hb
    rw [hblocks, OrdMap.get?_put] at hb
    split at hb
    · next heq =>
      cases hb
      exact ⟨c, List.mem_append_right _ (List.mem_singleton_self c), heq.symm, rfl⟩
    · obtain ⟨c', hc', hb'⟩ := h.logged k b hb
      exact ⟨c', List.mem_append_left _ hc', hb'⟩
  · intro c' hc'
    rw [hstates, OrdMap.get?_put]
    split
    · rfl
    · next hne' =>
      rcases List.mem_append.mp hc' with hc' | hc'
      · exact h.stored c' hc'
      · rw [List.mem_singleton.mp hc'] at hne'
        exact absurd rfl hne'
  · intro k state hk
    rw [hstates, OrdMap.get?_put] at hk
    split at hk
    · next heq =>
      cases hk
      refine ⟨hsound.chainID, fun hlt => by omega, fun c' hc' hc'k => ?_⟩
      rcases List.mem_append.mp hc' with hc' | hc'
      · exact absurd (hc'k.trans heq) (hne c' hc')
      · rw [List.mem_singleton.mp hc']
        exact .refl _
    · next hne' => exact (h.stateAt k state hk).concat fun heq => hne' heq.symm

end Recorded

/-- What a running syncer has loaded: the state of the last height. -/
structure Loaded (cfg : SyncerConfig Tx) (commits : List (Commit Tx)) (store : Store Tx)
    (lastState : State) : Prop where
  stored : store.getState.isSome = true
  height : lastState.lastBlockHeight + 1 = cfg.genesis.initialHeight + commits.length
  stateAt : StateAt cfg commits lastState.lastBlockHeight lastState

theorem Recorded.loaded {cfg : SyncerConfig Tx} {commits : List (Commit Tx)} {s : Store Tx}
    {state : State} (h : Recorded cfg commits s) (hget : s.getState = some state) :
    Loaded cfg commits s state := by
  have hheight : state.lastBlockHeight = s.height := h.wf.statesKeyed _ _ hget
  refine ⟨by rw [hget]; rfl, ?_, ?_⟩
  · rw [← Store.lastHeight_of_getState hget]
    exact h.lastHeight
  · rw [hheight]
    exact h.stateAt _ state hget

namespace Syncer

variable {cfg : SyncerConfig Tx} {commits : List (Commit Tx)}

/-- The state a start loads is that of the last height. -/
theorem wp_loadState (hchain : Chain cfg commits) (env : StartEnv) {s : Syncer Tx}
    (h : Recorded cfg commits s.store) :
    wp (loadState cfg env)
      (fun state s' => s' = s ∧ state.lastBlockHeight = s.store.lastHeight cfg.genesis ∧
        StateAt cfg commits state.lastBlockHeight state)
      (fun _ s' => s' = s) (fun s' => s' = s) s := by
  unfold loadState
  rw [wp_bind, wp_get]
  cases hst : s.store.getState with
  | some state =>
    have hlast : state.lastBlockHeight = s.store.lastHeight cfg.genesis :=
      (Store.lastHeight_of_getState hst).symm
    have hat := (h.loaded hst).stateAt
    refine ⟨rfl, ?_⟩
    split
    · next hnil =>
      -- after a logged block the next proposer is known
      refine ⟨hlast, hat.chainID, hat.initial, fun c hc heq => ?_⟩
      have hagrees := hat.agrees c hc heq
      exact absurd (hagrees.nextProposerAddress.symm.trans hnil) (hchain.sound c hc).nextProposer
    · exact ⟨hlast, hat⟩
  | none =>
    have hlast : s.store.lastHeight cfg.genesis = cfg.genesis.initialHeight - 1 := by
      unfold Store.lastHeight
      rw [hst]
    dsimp only
    rw [wp_bind, wp_io]
    refine ⟨fun _ => ⟨rfl, hlast.symm, rfl, fun _ => rfl, fun c hc heq => ?_⟩, fun _ => rfl,
      fun _ => rfl⟩
    have hle := (hchain.height_mem hc).1
    have hpos := cfg.genesis.initialHeight_pos
    change c.height = cfg.genesis.initialHeight - 1 at heq
    omega

theorem wp_start (hchain : Chain cfg commits) (env : StartEnv) {s : Syncer Tx}
    (h : Recorded cfg commits s.store) :
    wp (start cfg env)
      (fun _ s' => Recorded cfg commits s'.store ∧ Loaded cfg commits s'.store s'.lastState ∧
        s'.lastHeaderHashErrCount = 0)
      (fun _ s' => Recorded cfg commits s'.store) (fun s' => Recorded cfg commits s'.store) s := by
  unfold start initializeState
  rw [wp_bind, wp_modify, wp_bind, wp_bind]
  refine wp_mono (wp_loadState hchain env h) ?_ ?_ ?_
  · rintro state _ ⟨rfl, hlast, hat⟩
    rw [wp_bind, wp_require]
    refine ⟨fun _ => ?_, fun _ => h⟩
    rw [wp_bind, onStore, wp_zoom, wp_io]
    refine ⟨fun _ => ?_, fun _ => h, fun _ => h⟩
    have hback := h.writeBack hlast hat
    have hsome : ((s.store.setHeight state.lastBlockHeight).updateState state).getState.isSome =
        true := by
      rw [(h.wf.writeBack hlast).2.2.1]
      rfl
    rw [wp_bind, wp_modify, wp_mapError, onStore, wp_zoom]
    refine wp_mono (Store.wp_syncToHeight (Recorded.keptByReplay hchain) env.replay _
      ⟨hback, hsome⟩) ?_ ?_ ?_
    · rintro _ store ⟨hstore, hsome⟩
      have hheight : state.lastBlockHeight + 1 = cfg.genesis.initialHeight + commits.length :=
        hlast ▸ h.lastHeight
      exact ⟨hstore, ⟨hsome, hheight, hat⟩, rfl⟩
    · exact fun _ _ hstore => hstore.1
    · exact fun _ hstore => hstore.1
  · rintro _ _ rfl
    exact h
  · rintro _ rfl
    exact h

end Syncer

/-! ## One block -/

/-- The state after a block on a state of this chain. -/
theorem sound_nextState {cfg : SyncerConfig Tx} {env : SyncEnv Tx} {event : DAHeightEvent Tx}
    {state : State} (process : Nat) (hchainID : state.chainID = cfg.genesis.chainID)
    (hproposer : event.header.header.proposerAddress ≠ []) :
    Commit.Sound cfg ⟨process, event, Syncer.nextState cfg env event state⟩ := by
  have hnext : (state.nextState cfg.hashes event.header.header env.stateRoot
      env.nextProposer).nextProposerAddress ≠ [] := by
    unfold State.nextState
    dsimp only
    generalize (if env.nextProposer.length > 0 then env.nextProposer
      else state.nextProposerAddress) = proposer
    split
    · exact hproposer
    · next hne => exact fun hnil => hne (List.length_eq_zero_iff.mpr hnil)
  unfold Syncer.nextState Syncer.withDAHeight
  split
  · exact ⟨hchainID, rfl, rfl, rfl, hnext⟩
  · exact ⟨hchainID, rfl, rfl, rfl, hnext⟩

/-- A block that was found valid is valid after the last logged one. It has the hash of that one, or
the counter was raised for it. -/
theorem Loaded.validAfter {cfg : SyncerConfig Tx} {commits : List (Commit Tx)} {store : Store Tx}
    {lastState : State} {event : DAHeightEvent Tx} {now : Time} {n m : Nat} {last : Commit Tx}
    (h : Loaded cfg commits store lastState) (hchain : Chain cfg commits)
    (hhash : ∀ header, cfg.hashes.headerHash header ≠ [])
    (hv : Syncer.validateBlock cfg now lastState event.data event.header n = (.ok (), m))
    (hlast : last ∈ commits.getLast?) (process : Nat) (after : State) :
    Commit.ValidAfter cfg last.after ⟨process, event, after⟩ ∧
      (event.header.header.lastHeaderHash = cfg.hashes.headerHash last.header ∧ m = n ∨
        n ≠ 1 ∧ m = 1) := by
  have hmem : last ∈ commits := List.mem_of_getLast? hlast
  have hsound := hchain.sound last hmem
  have hheight := hchain.last_height hlast
  have hagrees := h.stateAt.agrees last hmem (by have := h.height; omega)
  have hlink : lastState.lastHeaderHash = cfg.hashes.headerHash last.header :=
    hagrees.lastHeaderHash.trans hsound.lastHeaderHash
  obtain ⟨hbasic, hproposer, hseq, hdata⟩ := Syncer.validateBlock_ok hv
  obtain ⟨_, hkey, hsigner, _⟩ := SignedHeader.validateBasicWithData_ok hbasic
  obtain ⟨hchainID, ⟨hnil, _⟩ | ⟨htime, happ, hlinked⟩⟩ := State.assertValidSequence_ok hseq
  · exact absurd (hlink.symm.trans hnil) (hhash _)
  · have hproposer' : event.header.header.proposerAddress = last.after.nextProposerAddress := by
      unfold State.assertExpectedProposer at hproposer
      rw [hagrees.nextProposerAddress] at hproposer
      split at hproposer
      · cases hproposer
      · next hsame =>
        refine not_not.mp fun hne => hsame ⟨?_, hne⟩
        exact List.length_pos_iff.mpr hsound.nextProposer
    obtain ⟨⟨hmeta, hmeta', hmeta''⟩, hcommitment⟩ := validate_ok hdata
    refine ⟨⟨?_, hproposer', hsigner, hkey, ?_, ?_, hcommitment.symm, hmeta.symm, hmeta'.symm,
      hmeta''.symm⟩, ?_⟩
    · exact hchainID.trans hagrees.chainID
    · rw [← hagrees.lastBlockTime]
      exact htime
    · exact happ.trans hagrees.appHash
    · rw [← hlink]
      exact hlinked

/-! ## The invariant -/

namespace SyncLog

/-- What holds of the log and the store, also when the process is down. -/
structure OnDisk (cfg : SyncerConfig Tx) (w : SyncLog Tx) : Prop where
  chain : Chain cfg w.commits
  recorded : Recorded cfg w.commits w.syncer.store
  past : ∀ c ∈ w.commits, c.process ≤ w.process
  linked : ∀ process, Commit.unlinked cfg process w.commits ≤ 1

/-- What holds of a running process: a block that did not link was counted. -/
structure Running (cfg : SyncerConfig Tx) (w : SyncLog Tx) : Prop extends OnDisk cfg w where
  loaded : Loaded cfg w.commits w.syncer.store w.syncer.lastState
  counted : Commit.unlinked cfg w.process w.commits ≤ w.syncer.lastHeaderHashErrCount
  count_le : w.syncer.lastHeaderHashErrCount ≤ 1

variable {cfg : SyncerConfig Tx} {w : SyncLog Tx}

theorem Running.withSyncer (h : w.Running cfg) {s : Syncer Tx} (hstore : s.store = w.syncer.store)
    (hstate : s.lastState = w.syncer.lastState)
    (hcount : w.syncer.lastHeaderHashErrCount ≤ s.lastHeaderHashErrCount ∧
      s.lastHeaderHashErrCount ≤ 1) : Running cfg (w.withSyncer s) where
  chain := h.chain
  recorded := by
    show Recorded cfg w.commits s.store
    rw [hstore]
    exact h.recorded
  past := h.past
  linked := h.linked
  loaded := by
    show Loaded cfg w.commits s.store s.lastState
    rw [hstore, hstate]
    exact h.loaded
  counted := Nat.le_trans h.counted hcount.1
  count_le := hcount.2

theorem Running.wp_of_same {α : Type} {p : Proc (Syncer Tx) Err α} (h : w.Running cfg)
    (hp : (p w.syncer).2.store = w.syncer.store ∧ (p w.syncer).2.lastState = w.syncer.lastState ∧
      (p w.syncer).2.lastHeaderHashErrCount = w.syncer.lastHeaderHashErrCount) :
    wp (Hooked.onSyncer p) (fun _ => Running cfg) (fun _ => Running cfg) (OnDisk cfg) w := by
  refine wp_of_state ?_ fun _ h' => h'.toOnDisk
  refine h.withSyncer hp.1 hp.2.1 ?_
  rw [hp.2.2]
  exact ⟨Nat.le_refl _, h.count_le⟩

theorem Running.wp_of_buffered {f : Syncer Tx → Syncer Tx} (h : w.Running cfg)
    (hf : Syncer.Buffered w.syncer (f w.syncer)) :
    wp (Hooked.onSyncer (modify f)) (fun _ => Running cfg) (fun _ => Running cfg) (OnDisk cfg)
      w := by
  refine h.wp_of_same ?_
  obtain ⟨_, _, _, hs⟩ := hf
  have hs : (modify f : Proc (Syncer Tx) Err Unit) w.syncer = (.ok (), _) :=
    congrArg (Prod.mk _) hs
  rw [hs]
  exact ⟨rfl, rfl, rfl⟩

variable [Transaction Tx]

theorem Running.commit {env : SyncEnv Tx} {event : DAHeightEvent Tx} {count : Nat}
    (h : w.Running cfg) (hhash : ∀ header, cfg.hashes.headerHash header ≠ [])
    (hnext : event.header.header.height = w.syncer.lastState.lastBlockHeight + 1)
    (hv : Syncer.validateBlock cfg env.now w.syncer.lastState event.data event.header
      w.syncer.lastHeaderHashErrCount = (.ok (), count)) :
    Running cfg (w.synced CommitLog.hooks cfg env event w.syncer.lastState count) := by
  obtain ⟨c, hc⟩ : ∃ c : Commit Tx,
    c = ⟨w.process, event, Syncer.nextState cfg env event w.syncer.lastState⟩ := ⟨_, rfl⟩
  have hproposer : event.header.header.proposerAddress ≠ [] :=
    (SignedHeader.validateBasicWithData_ok (Syncer.validateBlock_ok hv).1).1
  have hsound : c.Sound cfg := hc ▸ sound_nextState w.process h.loaded.stateAt.chainID hproposer
  have hheight : c.height = cfg.genesis.initialHeight + w.commits.length := by
    rw [← h.loaded.height, ← hnext, hc]
    rfl
  have hvalid : ∀ last ∈ w.commits.getLast?, c.ValidAfter cfg last.after := fun last hlast =>
    hc ▸ (h.loaded.validAfter h.chain hhash hv hlast w.process _).1
  have hcounts := Syncer.validateBlock_count cfg env.now w.syncer.lastState event.data event.header
    h.count_le
  rw [hv] at hcounts
  have hprocess : c.process = w.process := by rw [hc]
  -- a block that does not link finds the counter at zero
  have hcounted : Commit.unlinked cfg w.process (w.commits ++ [c]) ≤ count := by
    by_cases hlink : ∀ last ∈ w.commits.getLast?, c.process = w.process →
        c.header.lastHeaderHash = cfg.hashes.headerHash last.header
    · rw [Commit.unlinked_concat_none hlink]
      exact Nat.le_trans h.counted hcounts.1
    · push Not at hlink
      obtain ⟨last, hlast, _, hne⟩ := hlink
      rw [hc] at hne
      rcases (h.loaded.validAfter h.chain hhash hv hlast w.process w.syncer.lastState).2 with
        ⟨heq, _⟩ | ⟨hzero, rfl⟩
      · exact absurd heq hne
      · have hle := Commit.unlinked_concat_le cfg w.process w.commits c
        have := h.counted
        have := h.count_le
        omega
  have hlinked : ∀ process, Commit.unlinked cfg process (w.commits ++ [c]) ≤ 1 := by
    intro process
    by_cases hp : process = w.process
    · rw [hp]
      exact Nat.le_trans hcounted hcounts.2
    · rw [Commit.unlinked_concat_none fun _ _ hcp => absurd (hcp.symm.trans hprocess) hp]
      exact h.linked process
  have hpast : ∀ c' ∈ w.commits ++ [c], c'.process ≤ w.process := by
    intro c' hc'
    rcases List.mem_append.mp hc' with hc' | hc'
    · exact h.past c' hc'
    · rw [List.mem_singleton.mp hc', hprocess]
  obtain ⟨hrecorded, hget⟩ := h.recorded.commit h.chain hsound hheight
  have hchain := h.chain.concat hheight hvalid hsound
  subst hc
  exact ⟨⟨hchain, hrecorded, hpast, hlinked⟩, hrecorded.loaded hget, hcounted, hcounts.2⟩

theorem Running.failed (h : w.Running cfg) {env : SyncEnv Tx} {event : DAHeightEvent Tx}
    {r : Exit Err Unit} {s : Syncer Tx} (hr : r ≠ .ok ())
    (htry : Syncer.TrySyncCase cfg env event w.syncer.lastState w.syncer (r, s)) :
    Running cfg (w.withSyncer s) := by
  have hcount : ∀ {v count}, Syncer.validateBlock cfg env.now w.syncer.lastState event.data
      event.header w.syncer.lastHeaderHashErrCount = (v, count) →
      w.syncer.lastHeaderHashErrCount ≤ count ∧ count ≤ 1 := by
    intro v count hv
    have hle := Syncer.validateBlock_count cfg env.now w.syncer.lastState event.data event.header
      h.count_le
    rw [hv] at hle
    exact hle
  cases htry with
  | cancelled hcan => exact h
  | invalid e count hv | malicious e count hcan hv hm he | unapplied count hcan hv hm =>
    exact h.withSyncer rfl rfl (hcount hv)
  | uncommitted r count hcan hv hm hr => exact h.withSyncer rfl rfl (hcount hv)
  | synced count hcan hv hm => exact absurd rfl hr

theorem Running.trySync (h : w.Running cfg)
    (hhash : ∀ header, cfg.hashes.headerHash header ≠ []) (env : SyncEnv Tx)
    {event : DAHeightEvent Tx}
    (hnext : event.header.header.height = w.syncer.lastState.lastBlockHeight + 1) :
    Running cfg (Hooked.trySyncNextBlockWithState CommitLog.hooks cfg env event w.syncer.lastState
      w).2 := by
  have hc := Hooked.trySync_cases CommitLog.hooks cfg env event w.syncer.lastState w
  generalize Hooked.trySyncNextBlockWithState CommitLog.hooks cfg env event w.syncer.lastState w =
    q at hc ⊢
  cases hc with
  | failed r s hr htry => exact h.failed hr htry
  | committed count hcan hv hm => exact h.commit hhash hnext hv

theorem Running.processHeightEvent (h : w.Running cfg)
    (hhash : ∀ header, cfg.hashes.headerHash header ≠ []) (env : SyncEnv Tx)
    (event : DAHeightEvent Tx) :
    Running cfg (Hooked.processHeightEvent CommitLog.hooks cfg env event w).2 := by
  have hc := Hooked.processHeightEvent_cases CommitLog.hooks cfg env event w
  generalize Hooked.processHeightEvent CommitLog.hooks cfg env event w = q at hc ⊢
  have hsame : w.syncer.lastHeaderHashErrCount ≤ w.syncer.lastHeaderHashErrCount ∧
      w.syncer.lastHeaderHashErrCount ≤ 1 := ⟨Nat.le_refl _, h.count_le⟩
  cases hc with
  | skipped hskip => exact h
  | waits hlt => exact h.withSyncer rfl rfl hsame
  | unread hnext hev => exact h
  | failed event' r s1 hnext hseen hev hr htry r' s' hr' hs' =>
    have hfailed := h.failed hr htry
    have hsame' := Nat.le_refl s1.lastHeaderHashErrCount
    cases hs' with
    | same => exact hfailed
    | critical | pending => exact hfailed.withSyncer rfl rfl ⟨hsame', hfailed.count_le⟩
  | committed event' count hcan hnext hseen hev hv hm =>
    have hheight : w.syncer.store.height = w.syncer.lastState.lastBlockHeight := by
      have := h.loaded.height
      have := h.recorded.lastHeight
      have := h.recorded.wf.lastHeight_eq h.loaded.stored
      omega
    refine h.commit hhash ?_ hv
    rw [(Syncer.withLastDataHash_header cfg hev).1, hnext, hheight]

theorem Running.wp_processNext (h : w.Running cfg)
    (hhash : ∀ header, cfg.hashes.headerHash header ≠ []) (env : SyncEnv Tx) :
    wp (Hooked.processNext CommitLog.hooks cfg env) (fun _ => Running cfg) (fun _ => Running cfg)
      (OnDisk cfg) w := by
  unfold Hooked.processNext
  rw [wp_bind, wp_get]
  split
  · exact h
  · rw [wp_bind]
    refine wp_imp (h.wp_of_same ⟨rfl, rfl, rfl⟩) (fun _ w' h' => ?_)
    exact wp_of_state (h'.processHeightEvent hhash env _) fun _ h' => h'.toOnDisk

theorem Running.wp_recoverFromRaft (h : w.Running cfg)
    (hhash : ∀ header, cfg.hashes.headerHash header ≠ []) (env : SyncEnv Tx)
    {raft : Syncer.RaftBlockState Tx} (hraft : raft.header.header.height = raft.height) :
    wp (Hooked.recoverFromRaft CommitLog.hooks cfg env raft) (fun _ => Running cfg)
      (fun _ => Running cfg) (OnDisk cfg) w := by
  unfold Hooked.recoverFromRaft
  rw [wp_bind, wp_get]
  split
  · next hnext =>
    refine wp_of_state (h.trySync hhash env ?_) fun _ h' => h'.toOnDisk
    exact hraft.trans hnext.symm
  · next hne =>
    refine h.wp_of_same ?_
    rw [Syncer.recoverFromRaft_of_ne hne]
    exact ⟨rfl, rfl, rfl⟩

omit [Transaction Tx] in
/-- A new process has committed nothing yet. -/
theorem OnDisk.wp_start (h : w.OnDisk cfg) (env : Syncer.StartEnv) :
    wp (Hooked.start CommitLog.hooks cfg env) (fun _ => Running cfg) (fun _ => OnDisk cfg)
      (OnDisk cfg) w := by
  have hpast : ∀ c ∈ w.commits, c.process ≤ w.process + 1 := fun c hc =>
    Nat.le_succ_of_le (h.past c hc)
  unfold Hooked.start Hooked.modifyPart
  rw [wp_bind, wp_modify, Hooked.onSyncer, wp_zoom]
  refine wp_mono (Syncer.wp_start h.chain env h.recorded) ?_ ?_ ?_
  · rintro _ s ⟨hrecorded, hloaded, hcount⟩
    have hnone : Commit.unlinked cfg (w.process + 1) w.commits = 0 :=
      Commit.unlinked_of_forall_ne fun c hc heq => by
        have := h.past c hc
        omega
    refine ⟨⟨h.chain, hrecorded, hpast, h.linked⟩, hloaded, ?_, ?_⟩
    · exact Nat.le_trans (Nat.le_of_eq hnone) (Nat.zero_le _)
    · show s.lastHeaderHashErrCount ≤ 1
      rw [hcount]
      exact Nat.zero_le 1
  · exact fun _ s hrecorded => ⟨h.chain, hrecorded, hpast, h.linked⟩
  · exact fun s hrecorded => ⟨h.chain, hrecorded, hpast, h.linked⟩

/-- The block that raft hands over is that of the height it names. -/
def RaftHeight : Syncer.Op Tx → Prop
  | .recoverFromRaft _ raft => raft.header.header.height = raft.height
  | _ => True

instance (op : Syncer.Op Tx) : Decidable (RaftHeight op) := by
  cases op <;> dsimp only [RaftHeight] <;> infer_instance

/-- **One step.** -/
theorem holds_step (hhash : ∀ header, cfg.hashes.headerHash header ≠ []) {l : Live (SyncLog Tx)}
    {op : Syncer.Op Tx} (hop : RaftHeight op) (h : l.Holds (Running cfg) (OnDisk cfg)) :
    (Hooked.step CommitLog.hooks cfg l op).Holds (Running cfg) (OnDisk cfg) := by
  cases op with
  | start env => exact h.boot fun hd => hd.wp_start env
  | crash => exact h.halt fun _ hr => hr.toOnDisk
  | pipeEvent done event =>
    exact h.call fun hr => hr.wp_of_buffered (Syncer.buffered_pipeEvent cfg done event _)
  | processHeight height header data =>
    exact h.call fun hr => hr.wp_of_buffered (Syncer.buffered_processHeight cfg height header data _)
  | processPendingEvents =>
    exact h.call fun hr => hr.wp_of_buffered (Syncer.buffered_sendPending _ _ _)
  | processNext env => exact h.call fun hr => hr.wp_processNext hhash env
  | recoverFromRaft env raft => exact h.call fun hr => hr.wp_recoverFromRaft hhash env hop
  | headerDAIncluded hash daHeight height =>
    exact h.call fun hr => hr.wp_of_same ⟨rfl, rfl, rfl⟩
  | dataDAIncluded hash daHeight height | deleteHeight height =>
    exact h.call fun hr => hr.wp_of_same ⟨rfl, rfl, rfl⟩

/-! ## Runs -/

def run (cfg : SyncerConfig Tx) (s0 : Syncer Tx) (ops : List (Syncer.Op Tx)) : Live (SyncLog Tx) :=
  Run.exec (Hooked.step CommitLog.hooks cfg) ⟨false, s0, 0, []⟩ ops

theorem run_onDisk (hhash : ∀ header, cfg.hashes.headerHash header ≠ []) {s0 : Syncer Tx}
    (hempty : s0.store = .empty) {ops : List (Syncer.Op Tx)} (hops : ∀ op ∈ ops, RaftHeight op) :
    OnDisk cfg (run cfg s0 ops).state := by
  have hinit : Live.Holds (Running cfg) (OnDisk cfg) ⟨false, s0, 0, []⟩ := by
    refine ⟨nofun, fun _ => ⟨⟨rfl, .nil, nofun⟩, ?_, nofun, fun _ => Nat.zero_le 1⟩⟩
    show Recorded cfg [] s0.store
    rw [hempty]
    exact .empty cfg
  have hmeets : Run.Meets (Hooked.step CommitLog.hooks cfg) (fun _ => RaftHeight)
      ⟨false, s0, 0, []⟩ ops := Run.meets_of_forall hops _
  have hholds : (run cfg s0 ops).Holds (Running cfg) (OnDisk cfg) :=
    Run.invariant _ (fun _ _ h hop => holds_step hhash hop h) ops _ hinit hmeets
  exact hholds.of_both fun _ h => h.toOnDisk

end SyncLog

namespace SyncedChainRun

def genesis : Genesis := ⟨"c", 1000000000, 1, [7], 1, 2, Nat.one_pos, Nat.two_pos⟩

def cfg : SyncerConfig RawTx := .plain genesis

def env : SyncEnv RawTx := .plain (.ofBlocks 0 []) .acceptAll

def block (height digest : Nat) : DAHeightEvent RawTx :=
  .plain genesis height [⟨digest, 1⟩] 0 .p2p

/-- The block without the hash of the one before it. -/
def unlinkedBlock (height digest : Nat) : DAHeightEvent RawTx :=
  let event := block height digest
  { event with header := { event.header with
      header := { event.header.header with lastHeaderHash := [] } } }

/-- In the first process, block 2 arrives before block 1 and waits, and another block 1 comes too
late. In the second, block 3 does not link, and a block 4 that does not link either is refused. -/
def twoProcesses : List (Syncer.Op RawTx) :=
  [.start .plain, .pipeEvent false (block 2 5), .processNext env, .pipeEvent false (block 1 4),
    .pipeEvent false (block 1 6), .processNext env, .processNext env, .processPendingEvents,
    .processNext env, .crash, .start .plain, .pipeEvent false (unlinkedBlock 3 7),
    .processNext env, .pipeEvent false (unlinkedBlock 4 8), .processNext env]

end SyncedChainRun

end EvNode
