import EvNode.Executing.Executor
import EvNode.Properties.NewSequencer

/-!
# What a start does to the block store

`initializeState` writes the state back, migrates a legacy pending block and replays blocks. None
of this changes the last height or the history of signed headers. `initializeState_spec` says this
of every start, complete or not, and what a complete start leaves in memory.
-/

namespace EvNode

open Crash Proc

variable {Tx : Type}

namespace Store

/-- The height of the last committed block, or the height before the first one. -/
def lastHeight (genesis : Genesis) (s : Store Tx) : Nat :=
  match s.getState with
  | some state => state.lastBlockHeight
  | none => genesis.initialHeight - 1

/-- The time of the last committed block, or the start time. -/
def lastTime (genesis : Genesis) (s : Store Tx) : Time :=
  match s.getState with
  | some state => state.lastBlockTime
  | none => genesis.startTime

/-- Blocks are stored under their height, and the last one has the time of the last state. -/
structure Dated (genesis : Genesis) (s : Store Tx) : Prop where
  keyed : ∀ h b, s.blocks.get? h = some b → b.header.header.height = h
  last : ∀ b, s.blocks.get? (s.lastHeight genesis) = some b →
    b.header.header.time = s.lastTime genesis

/-- States are stored under their height, and no block is above the next height. -/
structure WF (genesis : Genesis) (s : Store Tx) : Prop where
  statesKeyed : ∀ h state, s.states.get? h = some state → state.lastBlockHeight = h
  fresh : s.getState = none → s.height ≤ genesis.initialHeight - 1
  bounded : ∀ h b, s.blocks.get? h = some b → h ≤ s.lastHeight genesis + 1

variable {genesis : Genesis} {s s' : Store Tx}

theorem setHeight_height {height : Nat} {s : Store Tx} (h : s.height < height) :
    (s.setHeight height).height = height := by
  unfold setHeight
  rw [if_neg (Nat.not_le.mpr h)]

@[simp] theorem setHeight_blocks (height : Nat) (s : Store Tx) :
    (s.setHeight height).blocks = s.blocks := by
  unfold setHeight
  split <;> rfl

@[simp] theorem setHeight_states (height : Nat) (s : Store Tx) :
    (s.setHeight height).states = s.states := by
  unfold setHeight
  split <;> rfl

@[simp] theorem commitBatch_blocks (header : SignedHeader) (data : Data Tx) (signature : Bytes)
    (state : State) (s : Store Tx) : (Node.commitBatch header data signature state s).blocks =
      s.blocks.put header.header.height ⟨header, data, signature⟩ :=
  setHeight_blocks _ _

@[simp] theorem commitBatch_signed (header : SignedHeader) (data : Data Tx) (signature : Bytes)
    (state : State) (s : Store Tx) :
    (Node.commitBatch header data signature state s).signed = s.signed := by
  unfold Node.commitBatch updateState setHeight
  split <;> rfl

@[simp] theorem commitBatch_states (header : SignedHeader) (data : Data Tx) (signature : Bytes)
    (state : State) (s : Store Tx) : (Node.commitBatch header data signature state s).states =
      s.states.put state.lastBlockHeight state := by
  unfold Node.commitBatch updateState
  rw [setHeight_states]
  rfl

variable {state : State} {s0 : Store Tx} {hs : Hashes Tx} {lastHeight : Nat}

theorem lastHeight_of_getState (h : s.getState = some state) :
    s.lastHeight genesis = state.lastBlockHeight := by
  unfold lastHeight
  rw [h]

theorem lastTime_of_getState (h : s.getState = some state) :
    s.lastTime genesis = state.lastBlockTime := by
  unfold lastTime
  rw [h]

theorem WF.lastHeight_eq (h : s.WF genesis) (hsome : s.getState.isSome = true) :
    s.lastHeight genesis = s.height := by
  obtain ⟨state, hstate⟩ := Option.isSome_iff_exists.mp hsome
  rw [lastHeight_of_getState hstate]
  exact h.statesKeyed _ _ hstate

theorem WF.height_le (h : s.WF genesis) : s.height ≤ s.lastHeight genesis := by
  cases hstate : s.getState with
  | some state => exact (h.lastHeight_eq (by rw [hstate]; rfl)).ge
  | none =>
    unfold lastHeight
    rw [hstate]
    exact h.fresh hstate

theorem statesKeyed_put {m : OrdMap Nat State}
    (h : ∀ h state, m.get? h = some state → state.lastBlockHeight = h) (new : State) :
    ∀ h state, (m.put new.lastBlockHeight new).get? h = some state →
      state.lastBlockHeight = h := by
  intro k state hk
  rw [OrdMap.get?_put] at hk
  split at hk
  · next heq =>
    rw [← Option.some.inj hk]
    exact heq.symm
  · exact h k state hk

theorem WF.writeBack (h : s.WF genesis)
    (hs : state.lastBlockHeight = s.lastHeight genesis) :
    ((s.setHeight state.lastBlockHeight).updateState state).WF genesis ∧
      ((s.setHeight state.lastBlockHeight).updateState state).lastHeight genesis =
        s.lastHeight genesis ∧
      ((s.setHeight state.lastBlockHeight).updateState state).getState = some state ∧
      ∃ height states, (s.setHeight state.lastBlockHeight).updateState state =
        { s with height := height, states := states } := by
  have hheight : ∃ height, s.setHeight state.lastBlockHeight = { s with height := height } ∧
      height = state.lastBlockHeight := by
    unfold setHeight
    by_cases hle : state.lastBlockHeight ≤ s.height
    · rw [if_pos hle]
      exact ⟨s.height, rfl, Nat.le_antisymm (hs ▸ h.height_le) hle⟩
    · rw [if_neg hle]
      exact ⟨state.lastBlockHeight, rfl, rfl⟩
  obtain ⟨height, hset, rfl⟩ := hheight
  rw [hset]
  have hget : ({ s with height := state.lastBlockHeight }.updateState state).getState =
      some state := by
    unfold getState updateState
    exact OrdMap.get?_put_self ..
  have hlast : ({ s with height := state.lastBlockHeight }.updateState state).lastHeight genesis =
      s.lastHeight genesis := by
    rw [lastHeight_of_getState hget, hs]
  refine ⟨⟨statesKeyed_put h.statesKeyed state, fun hnone => ?_, fun k b hb => ?_⟩, hlast, hget,
    _, _, rfl⟩
  · rw [hget] at hnone
    cases hnone
  · rw [hlast]
    exact h.bounded k b hb

theorem WF.commitBatch (h : s.WF genesis) {header : SignedHeader}
    (hheight : header.header.height = s.lastHeight genesis + 1) (data : Data Tx)
    (signature : Bytes) (hstate : state.lastBlockHeight = header.header.height) :
    (Node.commitBatch header data signature state s).WF genesis ∧
      (Node.commitBatch header data signature state s).lastHeight genesis =
        s.lastHeight genesis + 1 ∧
      (Node.commitBatch header data signature state s).getState = some state ∧
      ∃ states, Node.commitBatch header data signature state s = { s with
        height := header.header.height
        blocks := s.blocks.put header.header.height ⟨header, data, signature⟩
        states := states } := by
  have hlt : ¬ header.header.height ≤ s.height := by
    have hle := h.height_le
    omega
  have hset : (s.saveBlockData header data signature).setHeight header.header.height =
      { s with
        height := header.header.height
        blocks := s.blocks.put header.header.height ⟨header, data, signature⟩ } := by
    unfold setHeight
    exact if_neg hlt
  unfold Node.commitBatch
  rw [hset]
  obtain ⟨s1, hs1⟩ : ∃ s1 : Store Tx, s1 = { s with
    height := header.header.height
    blocks := s.blocks.put header.header.height ⟨header, data, signature⟩ } := ⟨_, rfl⟩
  rw [← hs1]
  have hget : (s1.updateState state).getState = some state := by
    unfold getState updateState
    rw [hs1, hstate]
    exact OrdMap.get?_put_self ..
  have hlast : (s1.updateState state).lastHeight genesis = s.lastHeight genesis + 1 := by
    rw [lastHeight_of_getState hget, hstate, hheight]
  have hkeyed := statesKeyed_put h.statesKeyed state
  refine ⟨⟨?_, fun hnone => ?_, fun k b hb => ?_⟩, hlast, hget, ?_⟩
  · rw [hs1]
    exact hkeyed
  · rw [hget] at hnone
    cases hnone
  · rw [hlast]
    rw [hs1] at hb
    have hb' : (s.blocks.put header.header.height ⟨header, data, signature⟩).get? k = some b := hb
    rw [OrdMap.get?_put] at hb'
    split at hb'
    · next heq => omega
    · have hle := h.bounded k b hb'
      omega
  · rw [hs1]
    exact ⟨_, rfl⟩

/-! ## Replay -/

/-- The state has the height and the time of a stored block. -/
def FromBlock (s : Store Tx) (state : State) : Prop :=
  ∃ k b, s.blocks.get? k = some b ∧ b.header.header.height = state.lastBlockHeight ∧
    b.header.header.time = state.lastBlockTime

/-- Only states of stored blocks were written, each under its height. -/
def Replayed (s s' : Store Tx) : Prop :=
  ∃ states, s' = { s with states := states } ∧
    (∀ h state, states.get? h = some state → state.lastBlockHeight = h) ∧
    (∀ h, (s.states.get? h).isSome = true → (states.get? h).isSome = true) ∧
    ∀ h state, states.get? h = some state → s.states.get? h = some state ∨ s.FromBlock state

theorem Replayed.updateState (h : Replayed s0 s)
    (hstate : s.FromBlock state) : Replayed s0 (s.updateState state) := by
  obtain ⟨states, rfl, hkeyed, hsome, hfrom⟩ := h
  refine ⟨_, rfl, statesKeyed_put hkeyed state, fun k hk => ?_, fun k state' hk => ?_⟩
  · rw [OrdMap.get?_put]
    split
    · rfl
    · exact hsome k hk
  · rw [OrdMap.get?_put] at hk
    split at hk
    · right
      rw [← Option.some.inj hk]
      exact hstate
    · exact hfrom k state' hk

theorem Replayed.wf (h : Replayed s0 s) (hwf : s0.WF genesis)
    (hsome : s0.getState.isSome = true) :
    s.WF genesis ∧ s.lastHeight genesis = s0.lastHeight genesis ∧ s.getState.isSome = true := by
  obtain ⟨states, rfl, hkeyed, hstates, _⟩ := h
  have hsome' : ({ s0 with states := states } : Store Tx).getState.isSome = true :=
    hstates _ hsome
  have hlast : ({ s0 with states := states } : Store Tx).lastHeight genesis =
      s0.lastHeight genesis := by
    obtain ⟨state, hstate⟩ := Option.isSome_iff_exists.mp hsome'
    rw [lastHeight_of_getState hstate, hwf.lastHeight_eq hsome]
    exact hkeyed _ _ hstate
  refine ⟨⟨hkeyed, fun hnone => ?_, fun k b hb => ?_⟩, hlast, hsome'⟩
  · rw [hnone] at hsome'
    cases hsome'
  · rw [hlast]
    exact hwf.bounded k b hb

/-- A replay of the last height writes the time the state had. -/
theorem Replayed.dated (h : Replayed s0 s) (hwf : s0.WF genesis)
    (hsome : s0.getState.isSome = true) (hd : s0.Dated genesis) :
    s.Dated genesis ∧ s.lastTime genesis = s0.lastTime genesis := by
  obtain ⟨_, hlast, hsome'⟩ := h.wf hwf hsome
  obtain ⟨state, hstate⟩ := Option.isSome_iff_exists.mp hsome'
  have htime : s.lastTime genesis = s0.lastTime genesis := by
    have hheight : s.lastHeight genesis = state.lastBlockHeight := lastHeight_of_getState hstate
    obtain ⟨states, rfl, hkeyed, _, hfrom⟩ := h
    rw [lastTime_of_getState hstate]
    rcases hfrom _ state hstate with hsame | ⟨k, b, hb, hbh, hbt⟩
    · exact (lastTime_of_getState hsame).symm
    · have hk : k = s0.lastHeight genesis := by
        rw [← hd.keyed k b hb, hbh, ← hheight, hlast]
      rw [← hbt]
      exact hd.last b (hk ▸ hb)
  refine ⟨⟨?_, ?_⟩, htime⟩
  · obtain ⟨states, rfl, _⟩ := h
    exact hd.keyed
  · rw [hlast, htime]
    obtain ⟨states, rfl, _⟩ := h
    exact hd.last

/-- What writing the state of a replayed block keeps. -/
def KeptByReplay (genesis : Genesis) (hs : Hashes Tx) (P : Store Tx → Prop) : Prop :=
  ∀ s height b prev stateRoot nextProposer, P s → s.blocks.get? height = some b →
    replayPrevState genesis height b.header s = some prev →
    replayMatches (s.states.get? height)
      (prev.nextState hs b.header.header stateRoot nextProposer) = true →
    P (s.updateState (prev.nextState hs b.header.header stateRoot nextProposer))

variable {P : Store Tx → Prop}

theorem wp_replayBlock (hP : KeptByReplay genesis hs P) (env : ReplayEnv)
    (height : Nat) (h : P s) :
    wp (replayBlock genesis hs env height) (fun _ => P) (fun _ => P) P s := by
  unfold replayBlock
  rw [wp_bind, wp_get]
  split
  · exact h
  · next header data hblock =>
    obtain ⟨b, hb, hpair⟩ := Option.map_eq_some_iff.mp hblock
    obtain ⟨rfl, _⟩ := Prod.mk.inj hpair
    split
    · exact h
    · next prev hprev =>
      split
      · exact h
      · rw [wp_bind, wp_require, wp_io]
        exact ⟨fun hmatch => ⟨fun _ => hP s height b prev _ _ h hb hprev hmatch, fun _ => h,
          fun _ => h⟩, fun _ => h⟩

theorem wp_replayBlocks (hP : KeptByReplay genesis hs P) (env : ReplayEnv)
    (heights : List Nat) (h : P s) :
    wp (replayBlocks genesis hs env heights) (fun _ => P) (fun _ => P) P s := by
  induction heights generalizing s with
  | nil => exact h
  | cons height rest ih =>
    unfold replayBlocks
    rw [wp_bind]
    exact wp_imp (wp_replayBlock hP env height h) (fun _ s' h' => ih h')

theorem wp_syncToHeight (hP : KeptByReplay genesis hs P) (env : ReplayEnv)
    (targetHeight : Nat) (h : P s) :
    wp (syncToHeight genesis hs env targetHeight) (fun _ => P) (fun _ => P) P s := by
  unfold syncToHeight
  rw [wp_bind, wp_get]
  split
  · exact h
  · split
    · exact h
    · split
      · rw [wp_io]
        exact ⟨fun _ => h, fun _ => h, fun _ => h⟩
      · split
        · rw [wp_bind, wp_require]
          exact ⟨fun _ => wp_replayBlocks hP env _ h, fun _ => h⟩
        · exact h

theorem keptByReplay_replayed (genesis : Genesis) (hs : Hashes Tx) (s0 : Store Tx) :
    KeptByReplay genesis hs (Replayed s0) :=
  fun _ height b _ _ _ h hb _ _ => h.updateState ⟨height, b, hb, rfl, rfl⟩

theorem replayed_refl (hkeyed : ∀ h state, s.states.get? h = some state →
    state.lastBlockHeight = h) : Replayed s s :=
  ⟨s.states, rfl, hkeyed, fun _ hsome => hsome, fun _ _ hst => .inl hst⟩

/-! ## The legacy pending block -/

/-- The pending block is what it was, or a block stored at the next height became the pending
block. -/
def Moved (lastHeight : Nat) (s s' : Store Tx) : Prop :=
  (s'.pendingHeader = s.pendingHeader ∧ s'.pendingData = s.pendingData ∧ s'.blocks = s.blocks) ∨
    ∃ b, s.blocks.get? (lastHeight + 1) = some b ∧ s'.pendingHeader = some b.header ∧
      s'.pendingData = some b.data ∧
      (s'.blocks = s.blocks ∨ s'.blocks = s.blocks.delete (lastHeight + 1))

theorem Moved.get? (h : Moved lastHeight s s') {k : Nat} {b : Block Tx}
    (hb : s'.blocks.get? k = some b) : s.blocks.get? k = some b := by
  rcases h with ⟨_, _, hblocks⟩ | ⟨_, _, _, _, hblocks | hblocks⟩
  · exact hblocks ▸ hb
  · exact hblocks ▸ hb
  · rw [hblocks, OrdMap.get?_delete] at hb
    split at hb
    · cases hb
    · exact hb

/-- Only the pending block and the blocks were written. -/
def Migrated (lastHeight : Nat) (s s' : Store Tx) : Prop :=
  ∃ header data blocks, s' = { s with
      pendingHeader := header, pendingData := data, blocks := blocks } ∧ Moved lastHeight s s'

theorem wp_migrateLegacyPendingBlock (save cleanup : Outcome) (lastHeight : Nat) (s : Store Tx) :
    wp (migrateLegacyPendingBlock save cleanup lastHeight)
      (fun _ s' => Migrated lastHeight s s' ∧ s'.blocks.get? (lastHeight + 1) = none)
      (fun _ => Migrated lastHeight s) (Migrated lastHeight s) s := by
  have hsame : Migrated lastHeight s s := ⟨_, _, _, rfl, .inl ⟨rfl, rfl, rfl⟩⟩
  unfold migrateLegacyPendingBlock
  rw [wp_bind, wp_get]
  cases hb : s.blocks.get? (lastHeight + 1) with
  | none =>
    have hget : s.getBlockData (lastHeight + 1) = none := by
      unfold getBlockData
      rw [hb]
      rfl
    rw [hget]
    exact ⟨hsame, hb⟩
  | some b =>
    have hget : s.getBlockData (lastHeight + 1) = some (b.header, b.data) := by
      unfold getBlockData
      rw [hb]
      rfl
    rw [hget]
    dsimp only
    have hsaved : ∀ blocks, (blocks = s.blocks ∨ blocks = s.blocks.delete (lastHeight + 1)) →
        Migrated lastHeight s { s with
          pendingHeader := some b.header, pendingData := some b.data, blocks := blocks } :=
      fun blocks hblocks => ⟨_, _, _, rfl, .inr ⟨b, hb, rfl, rfl, hblocks⟩⟩
    rw [wp_bind, wp_require]
    refine ⟨fun _ => ?_, fun _ => hsame⟩
    unfold savePendingBlock
    rw [wp_bind, wp_mapError, wp_io]
    refine ⟨fun _ => ?_, fun _ => hsame, fun _ => hsame⟩
    rw [wp_io]
    refine ⟨fun _ => ⟨hsaved _ (.inr rfl), ?_⟩, fun _ => hsaved _ (.inl rfl),
      fun _ => hsaved _ (.inl rfl)⟩
    show (s.blocks.delete (lastHeight + 1)).get? (lastHeight + 1) = none
    rw [OrdMap.get?_delete, if_pos rfl]

/-- What every start keeps of the store, complete or not. -/
structure Restarted (genesis : Genesis) (s s' : Store Tx) : Prop where
  wf : s'.WF genesis
  lastHeight_eq : s'.lastHeight genesis = s.lastHeight genesis
  signed_eq : s'.signed = s.signed
  genesisDAHeight_eq : s'.genesisDAHeight = s.genesisDAHeight
  stored : s.getState.isSome = true → s'.getState.isSome = true
  dated : s.Dated genesis → s'.Dated genesis ∧ s'.lastTime genesis = s.lastTime genesis
  moved : Moved (s.lastHeight genesis) s s'

theorem WF.restarted (h : s.WF genesis) : Restarted genesis s s :=
  ⟨h, rfl, rfl, rfl, id, fun hd => ⟨hd, rfl⟩, .inl ⟨rfl, rfl, rfl⟩⟩

theorem lastHeight_congr (hheight : s'.height = s.height) (hstates : s'.states = s.states) :
    s'.lastHeight genesis = s.lastHeight genesis := by
  unfold lastHeight getState
  rw [hheight, hstates]

theorem Migrated.wf (h : Migrated lastHeight s0 s)
    (hwf : s0.WF genesis) : s.WF genesis := by
  obtain ⟨header, data, blocks, rfl, hmoved⟩ := h
  exact ⟨hwf.statesKeyed, hwf.fresh, fun k b hb => hwf.bounded k b (hmoved.get? hb)⟩

theorem Migrated.dated (h : Migrated lastHeight s0 s)
    (hd : s0.Dated genesis) : s.Dated genesis ∧ s.lastTime genesis = s0.lastTime genesis := by
  obtain ⟨header, data, blocks, rfl, hmoved⟩ := h
  exact ⟨⟨fun k b hb => hd.keyed k b (hmoved.get? hb), fun b hb => hd.last b (hmoved.get? hb)⟩, rfl⟩

theorem Restarted.migrate {s1 : Store Tx}
    (hN : lastHeight = s.lastHeight genesis)
    (hs1 : ∃ height states, s1 = { s with height := height, states := states })
    (h : Restarted genesis s s1) (hm : Migrated lastHeight s1 s') : Restarted genesis s s' := by
  have hwf := hm.wf h.wf
  have hdated : s.Dated genesis → s'.Dated genesis ∧ s'.lastTime genesis = s.lastTime genesis := by
    intro hd
    obtain ⟨hd1, htime1⟩ := h.dated hd
    obtain ⟨hd2, htime2⟩ := hm.dated hd1
    exact ⟨hd2, htime2.trans htime1⟩
  obtain ⟨header, data, blocks, hs', hmoved⟩ := hm
  obtain ⟨height, states, hs1⟩ := hs1
  refine ⟨hwf, ?_, ?_, ?_, ?_, hdated, ?_⟩
  · rw [← h.lastHeight_eq]
    exact lastHeight_congr (by rw [hs']) (by rw [hs'])
  · rw [hs']
    exact h.signed_eq
  · rw [hs']
    exact h.genesisDAHeight_eq
  · rw [hs']
    exact h.stored
  · rw [hs1, hN] at hmoved
    exact hmoved

theorem Restarted.replay {s2 : Store Tx} (h : Restarted genesis s s2)
    (hsome : s2.getState.isSome = true) (hr : Replayed s2 s') : Restarted genesis s s' := by
  obtain ⟨hwf, hlast, hsome'⟩ := hr.wf h.wf hsome
  have hdated : s.Dated genesis → s'.Dated genesis ∧ s'.lastTime genesis = s.lastTime genesis := by
    intro hd
    obtain ⟨hd2, htime2⟩ := h.dated hd
    obtain ⟨hd', htime'⟩ := hr.dated h.wf hsome hd2
    exact ⟨hd', htime'.trans htime2⟩
  obtain ⟨states, hs', _⟩ := hr
  have hmoved := h.moved
  refine ⟨hwf, hlast.trans h.lastHeight_eq, ?_, ?_, fun _ => hsome', hdated, ?_⟩
  · rw [hs']
    exact h.signed_eq
  · rw [hs']
    exact h.genesisDAHeight_eq
  · rw [hs']
    exact hmoved

end Store

namespace Node

/-! ## Start -/

/-- The state `initializeState` works with. -/
def loadedState (cfg : NodeConfig Tx) (env : InitEnv) (s : Store Tx) : State :=
  match s.getState with
  | some state => if state.nextProposerAddress = []
      then { state with nextProposerAddress := cfg.genesis.proposerAddress } else state
  | none => genesisState cfg.genesis env.stateRoot

theorem lastBlockHeight_loadedState (cfg : NodeConfig Tx) (env : InitEnv) (s : Store Tx) :
    (loadedState cfg env s).lastBlockHeight = s.lastHeight cfg.genesis := by
  unfold loadedState Store.lastHeight
  cases s.getState with
  | none => rfl
  | some state =>
    dsimp only
    split <;> rfl

theorem lastBlockTime_loadedState (cfg : NodeConfig Tx) (env : InitEnv) (s : Store Tx) :
    (loadedState cfg env s).lastBlockTime = s.lastTime cfg.genesis := by
  unfold loadedState Store.lastTime
  cases s.getState with
  | none => rfl
  | some state =>
    dsimp only
    split <;> rfl

theorem wp_loadState (cfg : NodeConfig Tx) (env : InitEnv) (n : Node Tx) :
    wp (loadState cfg env) (fun state n' => state = loadedState cfg env n.exec.store ∧ n = n')
      (fun _ n' => n = n') (fun n' => n = n') n := by
  unfold loadState loadedState
  rw [wp_bind, wp_get]
  cases n.exec.store.getState with
  | some state => exact ⟨rfl, rfl⟩
  | none =>
    rw [wp_bind, wp_io]
    exact ⟨fun _ => ⟨rfl, rfl⟩, fun _ => rfl, fun _ => rfl⟩

/-- What a complete `initializeState` leaves behind. -/
structure Initialized (cfg : NodeConfig Tx) (env : InitEnv) (n n' : Node Tx) : Prop where
  store : Store.Restarted cfg.genesis n.exec.store n'.exec.store
  lastState : n'.exec.lastState = loadedState cfg env n.exec.store
  seq : n'.seq = n.seq.setDAHeight (loadedState cfg env n.exec.store).daHeight
  flag : n'.exec.hasPendingBlock = (n.exec.hasPendingBlock || n'.exec.store.pendingHeader.isSome)
  ack : n'.exec.pendingBatchAck = n.exec.pendingBatchAck
  stored : n'.exec.store.getState.isSome = true
  next : n'.exec.store.blocks.get? (n.exec.store.lastHeight cfg.genesis + 1) = none

/-- What an incomplete one leaves on disk. -/
def Interrupted (cfg : NodeConfig Tx) (n n' : Node Tx) : Prop :=
  Store.Restarted cfg.genesis n.exec.store n'.exec.store ∧ ∃ d, n'.seq = n.seq.setDAHeight d

theorem initializeState_spec (cfg : NodeConfig Tx) (env : InitEnv) {n : Node Tx}
    (hwf : n.exec.store.WF cfg.genesis) :
    wp (initializeState cfg env) (fun _ => Initialized cfg env n) (fun _ => Interrupted cfg n)
      (Interrupted cfg n) n := by
  have hnone : Interrupted cfg n n := ⟨hwf.restarted, n.seq.daHeight, rfl⟩
  have hN := lastBlockHeight_loadedState cfg env n.exec.store
  unfold initializeState
  rw [wp_bind]
  refine wp_mono (wp_loadState cfg env n) ?_ ?_ ?_
  · rintro state _ ⟨rfl, rfl⟩
    rw [wp_bind, wp_require]
    refine ⟨fun _ => ?_, fun _ => hnone⟩
    rw [wp_bind, wp_get, wp_bind, wp_require]
    refine ⟨fun _ => ?_, fun _ => hnone⟩
    unfold modifyExec onStore
    rw [wp_bind, wp_modify, wp_bind, wp_modify, wp_bind, wp_zoom, wp_io]
    have hsame : Interrupted cfg n { n with
        seq := n.seq.setDAHeight (loadedState cfg env n.exec.store).daHeight
        exec := { n.exec with lastState := loadedState cfg env n.exec.store } } :=
      ⟨hwf.restarted, _, rfl⟩
    refine ⟨fun _ => ?_, fun _ => hsame, fun _ => hsame⟩
    obtain ⟨hwf1, hlast1, hget1, hs1⟩ := hwf.writeBack hN
    have hr1 : Store.Restarted cfg.genesis n.exec.store
        ((n.exec.store.setHeight (loadedState cfg env n.exec.store).lastBlockHeight).updateState
          (loadedState cfg env n.exec.store)) := by
      obtain ⟨height, states, heq⟩ := hs1
      refine ⟨hwf1, hlast1, ?_, ?_, fun _ => ?_, fun hd => ?_, ?_⟩
      · rw [heq]
      · rw [heq]
      · rw [hget1]
        rfl
      · have htime : Store.lastTime cfg.genesis _ = n.exec.store.lastTime cfg.genesis :=
          (Store.lastTime_of_getState hget1).trans (lastBlockTime_loadedState cfg env n.exec.store)
        refine ⟨⟨?_, ?_⟩, htime⟩
        · rw [heq]
          exact hd.keyed
        · rw [hlast1, htime, heq]
          exact hd.last
      · rw [heq]
        exact .inl ⟨rfl, rfl, rfl⟩
    rw [wp_bind, wp_mapError, wp_zoom]
    refine wp_mono (Store.wp_migrateLegacyPendingBlock env.migrateSave env.migrateCleanup _ _) ?_ ?_ ?_
    · rintro _ s2 ⟨hm, hnext⟩
      rw [wp_bind, wp_modify, wp_bind, wp_modify]
      have hr2 := Store.Restarted.migrate hN hs1 hr1 hm
      have hsome2 : s2.getState.isSome = true := by
        obtain ⟨_, _, _, hs2, _⟩ := hm
        have hget2 : s2.getState = some (loadedState cfg env n.exec.store) := by
          rw [hs2]
          exact hget1
        rw [hget2]
        rfl
      rw [wp_mapError, wp_zoom]
      have hinit : ∀ s3, Store.Replayed s2 s3 → Store.Restarted cfg.genesis n.exec.store s3 ∧
          s3.getState.isSome = true ∧ s3.blocks = s2.blocks ∧ s3.pendingHeader = s2.pendingHeader := by
        intro s3 hrep
        have hr3 := hr2.replay hsome2 hrep
        obtain ⟨_, _, hsome3⟩ := hrep.wf hr2.wf hsome2
        obtain ⟨_, hs3, _⟩ := hrep
        exact ⟨hr3, hsome3, by rw [hs3], by rw [hs3]⟩
      refine wp_mono (Store.wp_syncToHeight (Store.keptByReplay_replayed _ _ _) _ _
        (Store.replayed_refl hr2.wf.statesKeyed)) ?_ ?_ ?_
      · intro _ s3 hrep
        obtain ⟨hr3, hsome3, hblocks, hpending⟩ := hinit s3 hrep
        refine ⟨hr3, rfl, rfl, ?_, rfl, hsome3, ?_⟩
        · show (n.exec.hasPendingBlock || s2.pendingHeader.isSome) =
            (n.exec.hasPendingBlock || s3.pendingHeader.isSome)
          rw [hpending]
        · show s3.blocks.get? (n.exec.store.lastHeight cfg.genesis + 1) = none
          rw [hblocks, ← hN]
          exact hnext
      · intro _ s3 hrep
        exact ⟨(hinit s3 hrep).1, _, rfl⟩
      · intro s3 hrep
        exact ⟨(hinit s3 hrep).1, _, rfl⟩
    · intro _ s2 hm
      exact ⟨Store.Restarted.migrate hN hs1 hr1 hm, _, rfl⟩
    · intro s2 hm
      exact ⟨Store.Restarted.migrate hN hs1 hr1 hm, _, rfl⟩
  · rintro _ _ rfl
    exact hnone
  · rintro _ rfl
    exact hnone

/-- What an incomplete start leaves behind, when `NewSequencer` ends in `ES`, or in `QS` and
`initializeState` does not complete. -/
def StartInterrupted (cfg : NodeConfig Tx) (QS ES : Sequencer Tx → Prop) (n n' : Node Tx) : Prop :=
  Store.Restarted cfg.genesis n.exec.store n'.exec.store ∧
    (ES n'.seq ∨ ∃ s d, QS s ∧ n'.seq = s.setDAHeight d)

theorem start_spec [Transaction Tx] {cfg : NodeConfig Tx} {env : InitEnv} {n : Node Tx}
    (QS ES : Sequencer Tx → Prop) (hwf : n.exec.store.WF cfg.genesis)
    (hseq : wp (Sequencer.newSequencer cfg.sequencer env.seq n.view) (fun _ => QS) (fun _ => ES) ES
      n.seq) :
    wp (start cfg env)
      (fun _ n' => ∃ s, QS s ∧
        Initialized cfg env ⟨s, blankExecutor cfg.genesis n.exec.store⟩ n')
      (fun _ => StartInterrupted cfg QS ES n) (StartInterrupted cfg QS ES n) n := by
  unfold start onSeq
  rw [wp_bind, wp_modify, wp_bind, wp_get, wp_bind, wp_zoom]
  refine wp_mono hseq ?_ ?_ ?_
  · intro _ s hs
    refine wp_mono (initializeState_spec cfg env
      (n := ⟨s, blankExecutor cfg.genesis n.exec.store⟩) hwf) ?_ ?_ ?_
    · exact fun _ n' h => ⟨s, hs, h⟩
    · rintro _ n' ⟨h, d, hd⟩
      exact ⟨h, .inr ⟨s, d, hs, hd⟩⟩
    · rintro n' ⟨h, d, hd⟩
      exact ⟨h, .inr ⟨s, d, hs, hd⟩⟩
  · exact fun _ s hs => ⟨hwf.restarted, .inl hs⟩
  · exact fun s hs => ⟨hwf.restarted, .inl hs⟩

end Node

end EvNode
