import EvNode.Properties.Moves
import EvNode.Properties.Validation
import EvNode.Raft.Election

/-!
# Taking over raft leadership

`RecoverFromRaft` returns nil and does nothing if raft is more than one block ahead. The loop of the
election reads the raft state a second time after it waited for the block store, and then recovers
however far raft is ahead (`behind_leader_started`). It also starts the leader with the raft state that
it read, which may no longer be the latest.
-/

namespace EvNode

open Crash Proc

variable {Tx : Type}

/-! ## The chain of the store -/

/-- The raft state names the block that it has. -/
structure Syncer.RaftBlockState.Proper (cfg : SyncerConfig Tx) (raft : Syncer.RaftBlockState Tx) :
    Prop where
  pos : 0 < raft.height
  height : raft.header.header.height = raft.height
  hash : cfg.hashes.headerHash raft.header.header = raft.hash
  chainID : raft.header.header.chainID ≠ ""

namespace Store

def HasHash (cfg : SyncerConfig Tx) (h : Nat) (hash : Bytes) (s : Store Tx) : Prop :=
  ∃ b, s.blocks.get? h = some b ∧ cfg.hashes.headerHash b.header.header = hash

def Contains (cfg : SyncerConfig Tx) (s : Store Tx) : Raft.FSM Tx → Prop
  | none => True
  | some raft => raft.height ≤ s.height ∧ s.HasHash cfg raft.height raft.hash

/-- Blocks are stored under their height, and a state has the hash of the block of its height. -/
structure Headed (cfg : SyncerConfig Tx) (s : Store Tx) : Prop where
  wf : s.WF cfg.genesis
  keyed : ∀ h b, s.blocks.get? h = some b → b.header.header.height = h
  headed : ∀ h state, s.states.get? h = some state → state.lastHeaderHash ≠ [] →
    s.HasHash cfg h state.lastHeaderHash

/-- The chain of `s` is continued in `s'`. -/
structure Extends (cfg : SyncerConfig Tx) (s s' : Store Tx) : Prop where
  height : s.height ≤ s'.height
  lastHeight : s.lastHeight cfg.genesis ≤ s'.lastHeight cfg.genesis
  blocks : ∀ k ≤ s.height, s'.blocks.get? k = s.blocks.get? k
  stored : s.getState.isSome = true → s'.getState.isSome = true

variable {cfg : SyncerConfig Tx} {s s' : Store Tx}

theorem Extends.refl (cfg : SyncerConfig Tx) (s : Store Tx) : s.Extends cfg s :=
  ⟨le_rfl, le_rfl, fun _ _ => rfl, id⟩

theorem Extends.trans {s'' : Store Tx} (h : s.Extends cfg s') (h' : s'.Extends cfg s'') :
    s.Extends cfg s'' :=
  ⟨h.height.trans h'.height, h.lastHeight.trans h'.lastHeight,
    fun k hk => (h'.blocks k (hk.trans h.height)).trans (h.blocks k hk), fun hs => h'.stored (h.stored hs)⟩

theorem Contains.mono {raft : Raft.FSM Tx} (h : s.Contains cfg raft) (he : s.Extends cfg s') :
    s'.Contains cfg raft := by
  cases raft with
  | none => trivial
  | some raft =>
    obtain ⟨hle, b, hb, hhash⟩ := h
    exact ⟨hle.trans he.height, b, (he.blocks _ hle).trans hb, hhash⟩

theorem Headed.commit (h : s.Headed cfg) {header : SignedHeader} (data : Data Tx) {state : State}
    (hheight : header.header.height = s.lastHeight cfg.genesis + 1)
    (hstate : state.lastBlockHeight = header.header.height)
    (hhash : state.lastHeaderHash = cfg.hashes.headerHash header.header) :
    (Node.commitBatch header data header.signature state s).Headed cfg ∧
      s.Extends cfg (Node.commitBatch header data header.signature state s) ∧
      (Node.commitBatch header data header.signature state s).lastHeight cfg.genesis =
        header.header.height ∧
      (Node.commitBatch header data header.signature state s).HasHash cfg header.header.height
        (cfg.hashes.headerHash header.header) := by
  obtain ⟨hwf, hlast, hget, -⟩ := h.wf.commitBatch hheight data header.signature hstate
  have hblocks := commitBatch_blocks header data header.signature state s
  have hstates := commitBatch_states header data header.signature state s
  rw [hstate] at hstates
  have hle := h.wf.height_le
  generalize Node.commitBatch header data header.signature state s = s' at *
  have hnew : s'.HasHash cfg header.header.height (cfg.hashes.headerHash header.header) := by
    refine ⟨⟨header, data, header.signature⟩, ?_, rfl⟩
    rw [hblocks, OrdMap.get?_put_self]
  have hbelow : ∀ k, k ≠ header.header.height → s'.blocks.get? k = s.blocks.get? k := by
    intro k hk
    rw [hblocks, OrdMap.get?_put, if_neg hk]
  have hheight' : s'.height = header.header.height := by
    rw [← hwf.lastHeight_eq (by rw [hget]; rfl), hlast, hheight]
  refine ⟨⟨hwf, fun k b hb => ?_, fun k st hst hne => ?_⟩, ⟨by omega, by omega, ?_, ?_⟩, by omega,
    hnew⟩
  · by_cases hk : k = header.header.height
    · obtain ⟨b', hb', -⟩ := hnew
      rw [hblocks, hk, OrdMap.get?_put_self] at hb
      cases hb
      exact hk.symm
    · exact h.keyed k b ((hbelow k hk).symm.trans hb)
  · rw [hstates, OrdMap.get?_put] at hst
    split at hst
    · next hk =>
      cases hst
      rw [hk, hhash]
      exact hnew
    · next hk =>
      obtain ⟨b, hb, hbhash⟩ := h.headed k st hst hne
      exact ⟨b, (hbelow k hk).trans hb, hbhash⟩
  · exact fun k hk => hbelow k (by omega)
  · intro _
    rw [hget]
    rfl

theorem Headed.writeBack (h : s.Headed cfg) {state : State}
    (hheight : state.lastBlockHeight = s.lastHeight cfg.genesis)
    (hhash : state.lastHeaderHash ≠ [] →
      s.HasHash cfg (s.lastHeight cfg.genesis) state.lastHeaderHash) :
    ((s.setHeight state.lastBlockHeight).updateState state).Headed cfg ∧
      s.Extends cfg ((s.setHeight state.lastBlockHeight).updateState state) ∧
      ((s.setHeight state.lastBlockHeight).updateState state).lastHeight cfg.genesis =
        s.lastHeight cfg.genesis ∧
      ((s.setHeight state.lastBlockHeight).updateState state).getState = some state := by
  obtain ⟨hwf, hlast, hget, height, states, heq⟩ := h.wf.writeBack hheight
  have hstates : ((s.setHeight state.lastBlockHeight).updateState state).states =
      s.states.put state.lastBlockHeight state := by
    unfold updateState
    rw [setHeight_states]
  have hblocks : ((s.setHeight state.lastBlockHeight).updateState state).blocks = s.blocks :=
    setHeight_blocks _ _
  have hsome : ((s.setHeight state.lastBlockHeight).updateState state).getState.isSome = true := by
    rw [hget]
    rfl
  have hle := h.wf.height_le
  have hheight' := hwf.lastHeight_eq hsome
  generalize (s.setHeight state.lastBlockHeight).updateState state = s' at *
  refine ⟨⟨hwf, fun k b hb => h.keyed k b (hblocks ▸ hb), fun k st hst hne => ?_⟩,
    ⟨by omega, hlast.ge, fun k _ => by rw [hblocks], fun _ => hsome⟩, hlast, hget⟩
  unfold HasHash
  rw [hblocks]
  rw [hstates, OrdMap.get?_put] at hst
  split at hst
  · next hk =>
    cases hst
    rw [hk, hheight]
    exact hhash hne
  · exact h.headed k st hst hne

/-- A replay writes states of stored blocks. -/
theorem keptByReplay_headed (cfg : SyncerConfig Tx) (s0 : Store Tx)
    (hsome : s0.getState.isSome = true) :
    KeptByReplay cfg.genesis cfg.hashes fun s => s.Headed cfg ∧ Replayed s0 s ∧ s0.WF cfg.genesis := by
  rintro s height b prev stateRoot nextProposer ⟨h, hr, hwf0⟩ hb - -
  have hkeyed := h.keyed height b hb
  have hr' : Replayed s0
      (s.updateState (prev.nextState cfg.hashes b.header.header stateRoot nextProposer)) :=
    hr.updateState ⟨height, b, hb, rfl, rfl⟩
  refine ⟨⟨(hr'.wf hwf0 hsome).1, h.keyed, fun k st hst hne => ?_⟩, hr', hwf0⟩
  have hput : (s.states.put b.header.header.height
    (prev.nextState cfg.hashes b.header.header stateRoot nextProposer)).get? k = some st := hst
  rw [OrdMap.get?_put] at hput
  split at hput
  · next hk =>
    cases hput
    exact ⟨b, by rw [hk, hkeyed]; exact hb, rfl⟩
  · exact h.headed k st hput hne

end Store

namespace Syncer

/-! ## Recovery -/

/-- The chain is at the raft height with the raft hash, or ahead of it and has the raft hash there. -/
def AtOrPast (cfg : SyncerConfig Tx) (raft : RaftBlockState Tx) (s : Syncer Tx) : Prop :=
  ((s.recoveryState cfg).lastBlockHeight = raft.height ∧
      (s.recoveryState cfg).lastHeaderHash = raft.hash) ∨
    (raft.height < (s.recoveryState cfg).lastBlockHeight ∧ s.store.HasHash cfg raft.height raft.hash)

section Recover

variable [Transaction Tx] (cfg : SyncerConfig Tx) (env : SyncEnv Tx) (raft : RaftBlockState Tx)

/-- How `RecoverFromRaft` ends. -/
inductive RecoverCase (s : Syncer Tx) : Exit Err Unit × Syncer Tx → Prop
  | matched (h : AtOrPast cfg raft s) : RecoverCase s (.ok (), s)
  | refused (e : Err) : RecoverCase s (.error e, s)
  | far (h : (s.recoveryState cfg).lastBlockHeight + 1 < raft.height) : RecoverCase s (.ok (), s)
  | next {q : Exit Err Unit × Syncer Tx}
      (hnext : (s.recoveryState cfg).lastBlockHeight + 1 = raft.height)
      (htry : TrySyncCase cfg env ⟨raft.header, raft.data, 0, .raft⟩ (s.recoveryState cfg) s q) :
    RecoverCase s q

theorem recover_cases (s : Syncer Tx) : RecoverCase cfg env raft s (recover cfg env raft s) := by
  have hrequire : ∀ {b : Bool} {e : Err}, (b = true → AtOrPast cfg raft s) →
      RecoverCase cfg env raft s ((require b e : Proc (Syncer Tx) Err Unit) s) := by
    intro b e h
    cases b with
    | false => exact .refused e
    | true => exact .matched (h rfl)
  unfold recover
  rw [get_bind_run]
  split
  · next heq => exact hrequire fun h => .inl ⟨heq, of_decide_eq_true h⟩
  · split
    · next hnext => exact .next hnext (trySync_cases ..)
    · split
      · next hlt =>
        cases hget : s.store.getBlockData raft.height with
        | none => exact .refused _
        | some pair =>
          obtain ⟨b, hb, rfl⟩ := Option.map_eq_some_iff.mp hget
          exact hrequire fun h => .inr ⟨hlt, b, hb, of_decide_eq_true h⟩
      · exact .far (by omega)

variable {cfg env raft}

theorem recoveryState_synced {event : DAHeightEvent Tx} {state : State} {count : Nat} {s : Syncer Tx}
    (hv : validateBlock cfg env.now state event.data event.header s.lastHeaderHashErrCount =
      (.ok (), count)) (hchain : event.header.header.chainID ≠ "") :
    (synced cfg env event state (checked cfg env event count s)).recoveryState cfg =
      nextState cfg env event state := by
  have hsame := (State.assertValidSequence_ok (validateBlock_ok hv).2.2.1).1
  have hid : (nextState cfg env event state).chainID = state.chainID := by
    unfold nextState withDAHeight
    split <;> rfl
  have hne : (nextState cfg env event state).chainID ≠ "" := by
    rw [hid, ← hsame]
    exact hchain
  exact if_neg hne

omit [Transaction Tx] in
theorem nextState_lastHeaderHash (cfg : SyncerConfig Tx) (env : SyncEnv Tx)
    (event : DAHeightEvent Tx) (state : State) :
    (nextState cfg env event state).lastHeaderHash = cfg.hashes.headerHash event.header.header := by
  unfold nextState withDAHeight
  split <;> rfl

theorem recover_atOrPast (hraft : raft.Proper cfg) {s s' : Syncer Tx}
    (hnear : raft.height ≤ (s.recoveryState cfg).lastBlockHeight + 1)
    (h : recover cfg env raft s = (.ok (), s')) : AtOrPast cfg raft s' := by
  have hcase := recover_cases cfg env raft s
  rw [h] at hcase
  cases hcase with
  | matched hmatch => exact hmatch
  | far hfar => omega
  | next hnext htry =>
    cases htry with
    | uncommitted _ _ _ _ _ hr => simp at hr
    | synced count hcan hv hm =>
      left
      rw [recoveryState_synced hv hraft.chainID, nextState_lastBlockHeight, nextState_lastHeaderHash]
      exact ⟨hraft.height, hraft.hash⟩

end Recover

/-- What the comparison with raft says. -/
theorem isSyncedWithRaft_ok {cfg : SyncerConfig Tx} {raft : Raft.FSM Tx} {s : Syncer Tx} {diff : Int}
    (h : s.isSyncedWithRaft cfg raft = .ok diff) :
    ∃ state, s.store.getState = some state ∧
      diff = (state.lastBlockHeight : Int) - Raft.FSM.height raft ∧
      (diff = 0 → Raft.FSM.height raft = 0 ∨
        s.store.HasHash cfg (Raft.FSM.height raft) (Raft.FSM.hash raft)) := by
  unfold isSyncedWithRaft at h
  cases hget : s.store.getState with
  | none => simp [hget] at h
  | some state =>
    refine ⟨state, rfl, ?_⟩
    rw [hget] at h
    dsimp only at h
    split at h
    · next hne =>
      cases h
      exact ⟨rfl, fun h0 => absurd h0 hne⟩
    · next heq =>
      have hdiff := not_not.mp heq
      split at h
      · next hzero =>
        cases h
        exact ⟨hdiff.symm, fun _ => .inl hzero⟩
      · cases hblock : s.store.getBlockData (Raft.FSM.height raft) with
        | none => simp [hblock] at h
        | some pair =>
          obtain ⟨b, hb, rfl⟩ := Option.map_eq_some_iff.mp hblock
          rw [hblock] at h
          dsimp only at h
          split at h
          · next hsame =>
            cases h
            exact ⟨hdiff.symm, fun _ => .inr ⟨b, hb, hsame⟩⟩
          · cases h

/-! ## The follower's chain -/

/-- The state in memory, if there is one, is that of the last block of the store. -/
structure Consistent (cfg : SyncerConfig Tx) (s : Syncer Tx) : Prop where
  disk : s.store.Headed cfg
  height : s.lastState.chainID ≠ "" →
    s.lastState.lastBlockHeight = s.store.lastHeight cfg.genesis
  head : s.lastState.chainID ≠ "" → s.lastState.lastHeaderHash ≠ [] →
    s.store.HasHash cfg (s.store.lastHeight cfg.genesis) s.lastState.lastHeaderHash

/-- The chain of `s` is continued in `s'`. -/
structure Evolves (cfg : SyncerConfig Tx) (s s' : Syncer Tx) : Prop where
  consistent : s'.Consistent cfg
  continued : s.store.Extends cfg s'.store

variable {cfg : SyncerConfig Tx} {s s' : Syncer Tx}

theorem Consistent.recoveryState_height (h : s.Consistent cfg) :
    (s.recoveryState cfg).lastBlockHeight = s.store.lastHeight cfg.genesis := by
  unfold recoveryState
  split
  · unfold Store.lastHeight
    cases s.store.getState <;> rfl
  · next hne => exact h.height hne

theorem Consistent.recoveryState_head (h : s.Consistent cfg)
    (hne : (s.recoveryState cfg).lastHeaderHash ≠ []) :
    s.store.HasHash cfg (s.store.lastHeight cfg.genesis) (s.recoveryState cfg).lastHeaderHash := by
  unfold recoveryState at hne ⊢
  split at hne
  · next hnil =>
    rw [if_pos hnil]
    cases hget : s.store.getState with
    | none =>
      rw [hget] at hne
      exact absurd rfl hne
    | some state =>
      rw [hget] at hne
      rw [h.disk.wf.lastHeight_eq (by rw [hget]; rfl)]
      exact h.disk.headed _ state hget hne
  · next hnil =>
    rw [if_neg hnil]
    exact h.head hnil hne

theorem Consistent.evolves_of_same (h : s.Consistent cfg) (hstore : s'.store = s.store)
    (hstate : s'.lastState = s.lastState) : Evolves cfg s s' := by
  obtain ⟨hdisk, hheight, hhead⟩ := h
  rw [← hstore, ← hstate] at hheight hhead
  exact ⟨⟨hstore ▸ hdisk, hheight, hhead⟩, hstore ▸ .refl cfg _⟩

theorem Evolves.trans {s'' : Syncer Tx} (h : Evolves cfg s s') (h' : Evolves cfg s' s'') :
    Evolves cfg s s'' :=
  ⟨h'.consistent, h.continued.trans h'.continued⟩

/-- A chain that is at or past the raft state has its block. -/
theorem Consistent.contains (h : s.Consistent cfg)
    (hhash : ∀ header, cfg.hashes.headerHash header ≠ []) {raft : Raft.BlockState Tx}
    (hraft : raft.toRaftBlockState.Proper cfg) (hat : AtOrPast cfg raft.toRaftBlockState s)
    (hsome : s.store.getState.isSome = true) : s.store.Contains cfg (some raft) := by
  have hlast := h.disk.wf.lastHeight_eq hsome
  rcases hat with ⟨hheight, hsame⟩ | ⟨hlt, hstored⟩
  · rw [h.recoveryState_height] at hheight
    have hne : (s.recoveryState cfg).lastHeaderHash ≠ [] := by
      rw [hsame, ← hraft.hash]
      exact hhash _
    have hhead := h.recoveryState_head hne
    rw [hheight, hsame] at hhead
    exact ⟨by omega, hhead⟩
  · rw [h.recoveryState_height] at hlt
    exact ⟨by omega, hstored⟩

section Work

variable [Transaction Tx] {env : SyncEnv Tx} {event : DAHeightEvent Tx} {state : State}

theorem Consistent.trySync (h : s.Consistent cfg)
    (hheight : event.header.header.height = s.store.lastHeight cfg.genesis + 1)
    {r : Exit Err Unit} (htry : TrySyncCase cfg env event state s (r, s')) : Evolves cfg s s' := by
  by_cases hr : r = .ok ()
  · subst hr
    cases htry with
    | uncommitted _ _ _ _ _ hr => simp at hr
    | synced count hcan hv hm =>
      have hlast := nextState_lastBlockHeight cfg env event state
      have hhash := nextState_lastHeaderHash cfg env event state
      obtain ⟨hheaded, hextends, hheight', hhas⟩ := h.disk.commit event.data hheight hlast hhash
      refine ⟨⟨hheaded, fun _ => hlast.trans hheight'.symm, fun _ _ => ?_⟩, hextends⟩
      show Store.HasHash cfg _ (nextState cfg env event state).lastHeaderHash _
      rw [hhash]
      exact hheight'.symm ▸ hhas
  · have hrejected := htry.rejected hr
    exact h.evolves_of_same hrejected.store hrejected.lastState

theorem Consistent.processHeightEvent (h : s.Consistent cfg) (hsome : s.store.getState.isSome = true)
    (env : SyncEnv Tx) (event : DAHeightEvent Tx) :
    Evolves cfg s (processHeightEvent cfg env event s).2 := by
  have hcase := processHeightEvent_cases cfg env event s
  generalize Syncer.processHeightEvent cfg env event s = q at hcase ⊢
  cases hcase with
  | dropped _ | waits _ => exact h.evolves_of_same rfl rfl
  | tried event' r s1 hnext hseen hev htry r' s' hr' hok hs' =>
    have hheader := (withLastDataHash_header cfg hev).1
    have htried := h.trySync (by rw [hheader, hnext, h.disk.wf.lastHeight_eq hsome]) htry
    refine htried.trans ?_
    cases hs' with
    | same | critical | pending => exact htried.consistent.evolves_of_same rfl rfl

theorem Consistent.work (h : s.Consistent cfg) (hsome : s.store.getState.isSome = true)
    (op : Syncer.Op Tx) (hop : ∀ env raft, op ≠ .recoverFromRaft env raft) :
    Evolves cfg s (Syncer.step cfg ⟨true, s⟩ op).state := by
  have hbuffered : ∀ {s'}, Buffered s s' → Evolves cfg s s' := fun hb =>
    h.evolves_of_same hb.store hb.lastState
  cases op with
  | start env | crash => exact h.evolves_of_same rfl rfl
  | pipeEvent done event => exact hbuffered (buffered_pipeEvent cfg done event s)
  | processHeight height header data => exact hbuffered (buffered_processHeight cfg height header data s)
  | processPendingEvents => exact hbuffered (buffered_sendPending _ _ s)
  | processNext env =>
    show Evolves cfg s (Live.call (processNext cfg env) ⟨true, s⟩).state
    rw [Live.call_up rfl]
    unfold processNext
    rw [get_bind_run]
    cases hch : s.heightInCh with
    | nil => exact h.evolves_of_same rfl rfl
    | cons event rest =>
      have hpopped : Evolves cfg s { s with heightInCh := rest } := h.evolves_of_same rfl rfl
      exact hpopped.trans (hpopped.consistent.processHeightEvent hsome env event)
  | recoverFromRaft env raft => exact absurd rfl (hop env raft)
  | headerDAIncluded hash daHeight height | dataDAIncluded hash daHeight height =>
    exact h.evolves_of_same rfl rfl
  | deleteHeight height => exact h.evolves_of_same rfl rfl

theorem Consistent.recover (h : s.Consistent cfg) {raft : RaftBlockState Tx}
    (hraft : raft.Proper cfg) (env : SyncEnv Tx) : Evolves cfg s (recover cfg env raft s).2 := by
  have hcase := recover_cases cfg env raft s
  generalize Syncer.recover cfg env raft s = q at hcase ⊢
  obtain ⟨r, s'⟩ := q
  cases hcase with
  | matched _ | refused _ | far _ => exact h.evolves_of_same rfl rfl
  | next hnext htry =>
    refine h.trySync ?_ htry
    rw [← h.recoveryState_height, hnext]
    exact hraft.height

end Work

section Start

theorem Consistent.wp_loadState (h : s.Consistent cfg) (env : StartEnv) :
    wp (loadState cfg env)
      (fun state s' => s = s' ∧ state.lastBlockHeight = s.store.lastHeight cfg.genesis ∧
        (state.lastHeaderHash ≠ [] →
          s.store.HasHash cfg (s.store.lastHeight cfg.genesis) state.lastHeaderHash))
      (fun _ s' => s = s') (fun s' => s = s') s := by
  unfold loadState
  rw [wp_bind, wp_get]
  cases hget : s.store.getState with
  | none =>
    rw [wp_bind, wp_io]
    refine ⟨fun _ => ⟨rfl, ?_, fun hne => absurd rfl hne⟩, fun _ => rfl, fun _ => rfl⟩
    unfold Store.lastHeight
    rw [hget]
    rfl
  | some state =>
    rw [wp_pure]
    have hheaded := h.disk.headed _ state hget
    rw [h.disk.wf.lastHeight_eq (by rw [hget]; rfl)]
    have hkeyed := h.disk.wf.statesKeyed _ state hget
    split
    · exact ⟨rfl, hkeyed, hheaded⟩
    · exact ⟨rfl, hkeyed, hheaded⟩

/-- **The start of the worker.** -/
theorem Consistent.wp_startWorker (h : s.Consistent cfg) (env : StartEnv) :
    wp (startWorker cfg env) (fun _ s' => Evolves cfg s s' ∧ s'.store.getState.isSome = true)
      (fun _ => Evolves cfg s) (Evolves cfg s) s := by
  have hself : Evolves cfg s s := h.evolves_of_same rfl rfl
  unfold startWorker initializeState
  rw [wp_bind, wp_bind]
  refine wp_mono (h.wp_loadState env) ?_ ?_ ?_
  · rintro state _ ⟨rfl, hheight, hhash⟩
    rw [wp_bind, wp_require]
    refine ⟨fun _ => ?_, fun _ => hself⟩
    rw [wp_bind, onStore, wp_zoom, wp_io]
    refine ⟨fun _ => ?_, fun _ => hself, fun _ => hself⟩
    obtain ⟨hheaded, hextends, hlast, hget⟩ := h.disk.writeBack hheight hhash
    have hblocks : ((s.store.setHeight state.lastBlockHeight).updateState state).blocks =
      s.store.blocks := Store.setHeight_blocks _ _
    generalize (s.store.setHeight state.lastBlockHeight).updateState state = store at *
    have hsome : store.getState.isSome = true := by
      rw [hget]
      rfl
    have hdone : ∀ {store' : Store Tx}, store'.Headed cfg ∧ store.Replayed store' ∧
        store.WF cfg.genesis → ∀ s' : Syncer Tx, s'.store = store' → s'.lastState = state →
        Evolves cfg s s' ∧ s'.store.getState.isSome = true := by
      rintro _ ⟨hheaded', hr, hwf⟩ s' rfl hstate
      obtain ⟨-, hlast', hsome'⟩ := hr.wf hwf hsome
      obtain ⟨states, hstore, -⟩ := hr
      have hblocks' : s'.store.blocks = s.store.blocks := by
        rw [hstore]
        exact hblocks
      have hsame : s'.store.lastHeight cfg.genesis = s.store.lastHeight cfg.genesis :=
        hlast'.trans hlast
      refine ⟨⟨⟨hheaded', fun _ => ?_, fun _ hne => ?_⟩, ⟨?_, hsame.ge, ?_, fun _ => hsome'⟩⟩, hsome'⟩
      · rw [hstate, hsame, hheight]
      · rw [hstate] at hne ⊢
        rw [hsame]
        unfold Store.HasHash
        rw [hblocks']
        exact hhash hne
      · rw [hstore]
        exact hextends.height
      · intro k _
        rw [hblocks']
    rw [wp_bind, wp_modify, wp_mapError, onStore, wp_zoom]
    refine wp_mono (Store.wp_syncToHeight (Store.keptByReplay_headed cfg store hsome) env.replay _
      ⟨hheaded, Store.replayed_refl hheaded.wf.statesKeyed, hheaded.wf⟩) ?_ ?_ ?_
    · intro _ store' hstore
      exact hdone hstore _ rfl rfl
    · intro _ store' hstore
      exact (hdone hstore _ rfl rfl).1
    · intro store' hstore
      exact (hdone hstore _ rfl rfl).1
  · rintro _ _ rfl
    exact hself
  · rintro _ rfl
    exact hself

end Start

end Syncer

namespace Election

/-! ## The loop -/

/-- The loop uses a raft state that it read to become the leader. -/
def UsesRaft (e : Election Tx) : Prop :=
  match e.phase with
  | .checking _ _ | .recovering _ | .starting => True
  | _ => False

/-- Raft does not move on while the loop uses what it read. The raft state that it reads again is at
most one block ahead of the store. -/
def Prudent (cfg : SyncerConfig Tx) (e : Election Tx) : Op Tx → Prop
  | .applied state => state.toRaftBlockState.Proper cfg ∧ ¬ e.UsesRaft
  | .advance _ =>
    match e.phase with
    | .checking raft true => Raft.FSM.height raft ≤ e.syncer.store.lastHeight cfg.genesis + 1
    | _ => True
  | _ => True

/-- What the loop knows. -/
def Knows (cfg : SyncerConfig Tx) (store : Store Tx) (fsm : Raft.FSM Tx) (isStarted : Bool) :
    Phase Tx → Prop
  | .checking raft _ => raft = fsm
  | .recovering raft => raft = fsm ∧ store.getState.isSome = true ∧
      Raft.FSM.height raft ≤ store.lastHeight cfg.genesis + 1
  | .starting => isStarted = true → store.Contains cfg fsm
  | _ => True

theorem Knows.mono {cfg : SyncerConfig Tx} {store store' : Store Tx} {fsm : Raft.FSM Tx}
    {isStarted : Bool} {phase : Phase Tx} (h : Knows cfg store fsm isStarted phase)
    (he : store.Extends cfg store') : Knows cfg store' fsm isStarted phase := by
  cases phase with
  | checking raft refreshed => exact h
  | recovering raft =>
    obtain ⟨hsame, hsome, hnear⟩ := h
    exact ⟨hsame, he.stored hsome, hnear.trans (Nat.add_le_add_right he.lastHeight 1)⟩
  | starting => exact fun hstarted => (h hstarted).mono he
  | idle | following | verifying | landing | reading _ | waiting | leader | stopped => trivial

structure Inv (cfg : SyncerConfig Tx) (e : Election Tx) : Prop where
  syncer : e.syncer.Consistent cfg
  running : e.worker = .running → e.syncer.store.getState.isSome = true
  raft : ∀ raft ∈ e.fsm, raft.toRaftBlockState.Proper cfg
  knows : Knows cfg e.syncer.store e.fsm e.isStarted e.phase
  led : ∀ x ∈ e.led, x.1.Contains cfg x.2

section Step

variable {cfg : SyncerConfig Tx} {e : Election Tx}

theorem Inv.withPhase (h : Inv cfg e) {phase : Phase Tx}
    (hk : Knows cfg e.syncer.store e.fsm e.isStarted phase) : Inv cfg { e with phase := phase } :=
  ⟨h.syncer, h.running, h.raft, hk, h.led⟩

theorem Inv.stop (h : Inv cfg e) : Inv cfg e.stop := h.withPhase trivial

theorem Inv.withSyncer (h : Inv cfg e) {s : Syncer Tx} (he : Syncer.Evolves cfg e.syncer s) :
    Inv cfg { e with syncer := s } :=
  ⟨he.consistent, fun hrun => he.continued.stored (h.running hrun), h.raft,
    h.knows.mono he.continued, h.led⟩

theorem Inv.withWorker (h : Inv cfg e) {worker : Worker}
    (hw : worker = .running → e.syncer.store.getState.isSome = true) :
    Inv cfg { e with worker := worker } :=
  ⟨h.syncer, hw, h.raft, h.knows, h.led⟩

theorem Inv.launch (h : Inv cfg e) : Inv cfg e.launch := by
  have hworker : Inv cfg { e with worker := .launched } := h.withWorker nofun
  exact hworker.withPhase trivial

theorem Inv.follow (h : Inv cfg e) : Inv cfg e.follow := by
  unfold Election.follow
  split
  · exact h
  · exact ⟨h.syncer, h.running, h.raft, trivial, h.led⟩

variable [Transaction Tx]

theorem Inv.recoverThen (h : Inv cfg e) (env : SyncEnv Tx) {raft : Raft.FSM Tx} (hraft : raft = e.fsm)
    {next : Election Tx → Election Tx}
    (hnext : ∀ s, Syncer.recoverFSM cfg env raft e.syncer = (.ok (), s) →
      Syncer.Evolves cfg e.syncer s → Inv cfg (next { e with syncer := s })) :
    Inv cfg (e.recoverThen cfg env raft next) := by
  have hevolves : Syncer.Evolves cfg e.syncer (Syncer.recoverFSM cfg env raft e.syncer).2 := by
    subst hraft
    cases hfsm : e.fsm with
    | none => exact h.syncer.evolves_of_same rfl rfl
    | some r => exact h.syncer.recover (h.raft r hfsm) env
  unfold Election.recoverThen
  rcases hrun : Syncer.recoverFSM cfg env raft e.syncer with ⟨r, s⟩
  rw [hrun] at hevolves
  cases r with
  | ok u => exact hnext s hrun hevolves
  | error err | crash => exact (h.withSyncer hevolves).stop

theorem Inv.verifyState (h : Inv cfg e) (env : LoopEnv Tx) : Inv cfg (e.verifyState cfg env) := by
  have hrecover : Inv cfg (e.recoverThen cfg env.sync e.fsm Election.launch) :=
    h.recoverThen env.sync rfl fun _ _ he => (h.withSyncer he).launch
  unfold Election.verifyState
  split
  · split
    · exact h.stop
    · split
      · exact h.launch
      · exact h
  · split
    · exact hrecover
    · split
      · exact h.launch
      · exact hrecover

omit [Transaction Tx] in
theorem Inv.waitForBlockStoreSync (h : Inv cfg e) (env : LoopEnv Tx) :
    Inv cfg (e.waitForBlockStoreSync cfg env) := by
  have hto : ∀ {phase : Phase Tx}, Knows cfg e.syncer.store e.fsm e.isStarted phase →
    Inv cfg { e with phase := phase } := fun hk => h.withPhase hk
  unfold Election.waitForBlockStoreSync
  dsimp only
  split_ifs
  all_goals first | exact h | exact hto trivial

omit [Transaction Tx] in
theorem Inv.checkSynced (h : Inv cfg e) {raft : Raft.FSM Tx} {refreshed : Bool} (hraft : raft = e.fsm)
    (hnear : refreshed = true →
      Raft.FSM.height raft ≤ e.syncer.store.lastHeight cfg.genesis + 1) :
    Inv cfg (e.checkSynced cfg raft refreshed) := by
  unfold Election.checkSynced
  cases hsync : e.syncer.isSyncedWithRaft cfg raft with
  | error err => exact h.stop
  | ok diff =>
    obtain ⟨state, hget, hdiff, hhash⟩ := Syncer.isSyncedWithRaft_ok hsync
    have hsome : e.syncer.store.getState.isSome = true := by simp [hget]
    have hlast : e.syncer.store.lastHeight cfg.genesis = state.lastBlockHeight :=
      Store.lastHeight_of_getState hget
    dsimp only
    split
    · exact h.withPhase trivial
    · next hwait =>
      split
      · refine h.withPhase ⟨hraft, hsome, ?_⟩
        cases refreshed with
        | true => exact hnear rfl
        | false =>
          have hge : ¬ diff < -1 := fun hlt => hwait ⟨rfl, hlt⟩
          omega
      · next hzero =>
        refine h.withPhase fun _ => ?_
        subst hraft
        cases hfsm : e.fsm with
        | none => trivial
        | some r =>
          have hpos := (h.raft r hfsm).pos
          have hstored := hhash (not_not.mp hzero)
          rw [hfsm] at hdiff hstored
          have hheight : r.height = state.lastBlockHeight := by
            have hd : diff = (state.lastBlockHeight : Int) - r.height := hdiff
            omega
          refine ⟨?_, hstored.resolve_left hpos.ne'⟩
          rw [← h.syncer.disk.wf.lastHeight_eq hsome, hlast, hheight]

omit [Transaction Tx] in
theorem Inv.startLeader (h : Inv cfg e) (env : LoopEnv Tx)
    (hcontains : e.isStarted = true → e.syncer.store.Contains cfg e.fsm) :
    Inv cfg (e.startLeader env) := by
  have hworker : Inv cfg { e with worker := if e.isStarted then .exited else e.worker } := by
    refine h.withWorker fun hrun => ?_
    split at hrun
    · cases hrun
    · exact h.running hrun
  unfold Election.startLeader
  dsimp only
  split
  · refine ⟨h.syncer, hworker.running, h.raft, trivial, fun x hx => ?_⟩
    dsimp only at hx
    split at hx
    · next hstarted =>
      cases hx
      exact hcontains hstarted
    · cases hx
  · exact hworker.stop

theorem Inv.advance (hhash : ∀ header, cfg.hashes.headerHash header ≠ []) (h : Inv cfg e)
    (env : LoopEnv Tx) (hok : Prudent cfg e (.advance env)) : Inv cfg (e.advance cfg env) := by
  have hknows := h.knows
  unfold Prudent at hok
  unfold Election.advance
  cases hphase : e.phase with
  | idle | leader | stopped => exact h
  | following =>
    dsimp only
    split
    · exact ⟨⟨h.syncer.disk, fun hne => absurd rfl hne, fun hne => absurd rfl hne⟩, h.running, h.raft,
        trivial, h.led⟩
    · exact h.stop
  | verifying => exact h.verifyState env
  | landing =>
    dsimp only
    split
    · split
      · refine h.withPhase ?_
        split <;> trivial
      · next hnot => exact h.withPhase fun hstarted => absurd hstarted hnot
    · exact h.withPhase trivial
  | reading refreshed => exact h.withPhase rfl
  | checking raft refreshed =>
    rw [hphase] at hknows hok
    refine h.checkSynced hknows fun hre => ?_
    subst hre
    exact hok
  | waiting => exact h.waitForBlockStoreSync env
  | recovering raft =>
    rw [hphase] at hknows
    obtain ⟨hraft, hsome, hnear⟩ := hknows
    refine h.recoverThen env.sync hraft fun s hrun he => (h.withSyncer he).withPhase fun _ => ?_
    subst hraft
    cases hfsm : e.fsm with
    | none => trivial
    | some r =>
      have hproper := h.raft r hfsm
      rw [hfsm] at hrun hnear
      refine he.consistent.contains hhash hproper ?_ (he.continued.stored hsome)
      refine Syncer.recover_atOrPast hproper ?_ hrun
      rw [h.syncer.recoveryState_height]
      exact hnear
  | starting =>
    rw [hphase] at hknows
    exact h.startLeader env hknows

theorem Inv.work (h : Inv cfg e) (hsome : e.syncer.store.getState.isSome = true)
    (op : Syncer.Op Tx) : Inv cfg (e.work cfg op) := by
  unfold Election.work
  split
  · exact h
  · exact h
  · exact h
  · next hop =>
    have hevolves := h.syncer.work hsome op fun env raft heq => hop env raft heq
    have hs := h.withSyncer hevolves
    dsimp only
    split
    · exact hs
    · have hexited : Inv cfg { e with
          syncer := (Syncer.step cfg ⟨true, e.syncer⟩ op).state
          worker := .exited } := hs.withWorker nofun
      exact hexited.stop

/-- **One step.** -/
theorem Inv.step (hhash : ∀ header, cfg.hashes.headerHash header ≠ []) (e : Election Tx) (op : Op Tx)
    (h : Inv cfg e) (hok : Prudent cfg e op) : Inv cfg (Election.step cfg e op) := by
  unfold Election.step
  cases op with
  | applied state =>
    obtain ⟨hproper, hunused⟩ := hok
    refine ⟨h.syncer, h.running, fun raft hraft => ?_, ?_, h.led⟩
    · dsimp only at hraft
      unfold Raft.apply at hraft
      split at hraft
      · exact h.raft raft hraft
      · cases hraft
        exact hproper
    · unfold UsesRaft at hunused
      have hknows := h.knows
      dsimp only
      cases hphase : e.phase with
      | checking _ _ | recovering _ | starting => simp [hphase] at hunused
      | idle | following | verifying | landing | reading _ | waiting | leader | stopped => trivial
  | leaderCh becameLeader =>
    dsimp only
    split
    · exact h.withPhase trivial
    · exact h.follow
    · exact h.stop
    · exact h
  | tick leader =>
    have hticked : Inv cfg { e with ticking := false } :=
      ⟨h.syncer, h.running, h.raft, h.knows, h.led⟩
    dsimp only
    split
    · exact hticked
    · exact hticked.follow
    · exact hticked
    · exact h
  | exit =>
    dsimp only
    split
    · exact h.stop
    · exact h.stop
    · exact h
  | advance env => exact h.advance hhash env hok
  | startWorker env =>
    dsimp only
    split
    · have hstart := h.syncer.wp_startWorker env
      unfold wp at hstart
      split at hstart
      · next hrun =>
        rw [hrun]
        exact (h.withSyncer hstart.1).withWorker fun _ => hstart.2
      · next hrun =>
        rw [hrun]
        exact (h.withSyncer hstart).withWorker nofun
      · next hrun =>
        rw [hrun]
        have hexited : Inv cfg { e with syncer := _, worker := .exited } :=
          (h.withSyncer hstart).withWorker nofun
        exact hexited.stop
    · exact h
  | work op =>
    dsimp only
    split
    · next hrunning =>
      exact h.work (h.running hrunning) op
    · exact h
  | exitWorker =>
    dsimp only
    split
    · exact h.withWorker nofun
    · exact h

end Step

/--
**The leader is started on a chain that has the raft block.**

`RecoverFromRaft` returns nil only on a chain that is at the raft state, or past it with the same block
there, if raft is at most one block ahead. In a run of the election loop in which raft does not move on
while the loop uses the raft state that it read, and in which the raft state that it reads again is at
most one block ahead of the store, a leader that is started after a follower has the block of the raft
state.
-/
theorem leader_started_on_raft_chain [Transaction Tx] (cfg : SyncerConfig Tx)
    (hhash : ∀ header, cfg.hashes.headerHash header ≠ []) :
    (∀ (env : SyncEnv Tx) (raft : Syncer.RaftBlockState Tx) (s s' : Syncer Tx), raft.Proper cfg →
      raft.height ≤ (s.recoveryState cfg).lastBlockHeight + 1 →
      Syncer.recover cfg env raft s = (.ok (), s') → Syncer.AtOrPast cfg raft s') ∧
    ∀ (start : Syncer.StartEnv) (store : Store Tx) (fsm : Raft.FSM Tx), store.Headed cfg →
      (∀ raft ∈ fsm, raft.toRaftBlockState.Proper cfg) → ∀ ops : List (Op Tx),
      Run.Meets (step cfg) (Prudent cfg) (initial (.unstarted cfg start store) fsm) ops →
      ∀ x ∈ (Run.exec (step cfg) (initial (.unstarted cfg start store) fsm) ops).led,
        x.1.Contains cfg x.2 := by
  constructor
  · intro env raft s s' hraft hnear hrun
    exact Syncer.recover_atOrPast hraft hnear hrun
  · intro start store fsm hdisk hraft ops hmeets
    have hstart : Inv cfg (initial (.unstarted cfg start store) fsm) := by
      refine ⟨⟨hdisk, fun hne => absurd rfl hne, fun hne => absurd rfl hne⟩, nofun, hraft, trivial, ?_⟩
      intro x hx
      cases hx
    exact (Run.invariant (Inv cfg) (Inv.step hhash) ops _ hstart hmeets).led

/-! ## A leader behind raft -/

namespace TakeoverRun

def genesis : Genesis := ⟨"c", 0, 1, [7], 0, 1, Nat.one_pos, Nat.one_pos⟩

def cfg : SyncerConfig RawTx := .plain genesis

def block (height : Nat) : DAHeightEvent RawTx := .plain genesis height [⟨height, 1⟩] 0 .p2p

def raft (height : Nat) : Raft.BlockState RawTx where
  height := height
  hash := cfg.hashes.headerHash (block height).header.header
  header := (block height).header
  data := (block height).data
  timestamp := height

def env : LoopEnv RawTx :=
  ⟨true, true, false, false, true, true, .plain, .plain (.ofBlocks 0 []) .acceptAll⟩

def syncs (height : Nat) : List (Op RawTx) :=
  [.work (.pipeEvent false (block height)), .work (.processNext env.sync)]

/-- The follower starts while the raft state is empty, and has block 1 when raft is at 3 and makes it the
leader. It waits until block 2 is there. -/
def waiting : List (Op RawTx) :=
  [.tick (some false), .advance env, .advance { env with expired := true }, .startWorker .plain] ++
    syncs 1 ++ [.applied (raft 3), .leaderCh true, .advance env, .advance env, .advance env] ++
    syncs 2 ++ [.advance env]

/-- Raft is at 3, and the leader recovers block 3. -/
def inTime : List (Op RawTx) := waiting ++ List.replicate 4 (.advance env)

/-- Raft moves on to 4 before its state is read again. -/
def tooFar : List (Op RawTx) := waiting ++ .applied (raft 4) :: List.replicate 4 (.advance env)

def run (ops : List (Op RawTx)) : Election RawTx :=
  Run.exec (step cfg) (initial (.unstarted cfg .plain .empty) none) ops

/-- The height of the chain and that of raft when the leader was started. -/
def ledAt (e : Election RawTx) : Option (Nat × Nat) :=
  e.led.map fun x => (x.1.height, Raft.FSM.height x.2)

end TakeoverRun

open TakeoverRun in
/-- With raft two blocks ahead, `RecoverFromRaft` returns nil and changes nothing. A leader is started
at height 2 while raft is at 4. -/
theorem behind_leader_started :
    (Syncer.recover cfg env.sync (raft 4).toRaftBlockState (run waiting).syncer).1 = .ok () ∧
    (Syncer.recover cfg env.sync (raft 4).toRaftBlockState
      (run waiting).syncer).2.lastState.lastBlockHeight = 2 ∧
    ledAt (run tooFar) = some (2, 4) := by
  decide +kernel

open TakeoverRun in
/-- The leader that waits in time is started with the block of the raft state. -/
theorem leader_started_on_raft_chain_inTime :
    ledAt (run inTime) = some (3, 3) ∧ ∀ x ∈ (run inTime).led, x.1.Contains cfg x.2 := by
  refine ⟨by decide +kernel, ?_⟩
  refine (leader_started_on_raft_chain cfg fun _ => List.cons_ne_nil _ _).2 .plain .empty none ?_ nofun
    inTime ?_
  · refine ⟨⟨?_, ?_, ?_⟩, ?_, ?_⟩
    · intro h state hget
      cases hget
    · exact fun _ => Nat.zero_le _
    · intro h b hget
      cases hget
    · intro h b hget
      cases hget
    · intro h state hget
      cases hget
  · have hraft : (raft 3).toRaftBlockState.Proper cfg := ⟨by decide, rfl, rfl, by decide⟩
    have hnear : 3 ≤ (run waiting).syncer.store.lastHeight cfg.genesis + 1 := by decide +kernel
    refine ⟨trivial, trivial, trivial, trivial, trivial, trivial, ⟨hraft, id⟩, trivial, trivial, trivial,
      trivial, trivial, trivial, trivial, trivial, hnear, trivial, trivial, trivial⟩

end Election

end EvNode
