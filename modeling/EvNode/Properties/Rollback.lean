import EvNode.Properties.PrunedChain
import EvNode.Syncing.Syncer

/-!
# A rolled back store is startable

`Rollback` checks that the blocks it removes are there, not that the state it goes back to is. If the
target is above the states that were pruned, everything is as it should be (`rollback_startable`).
Below that the state is gone: `GetState` fails, and the next start takes the chain for a new one
(`rollback_to_pruned_state`).
-/

namespace EvNode

open Crash

variable {Tx : Type}

theorem Node.loadState_of_getState (cfg : NodeConfig Tx) (env : Node.InitEnv) {n : Node Tx}
    {state : State} (h : n.exec.store.getState = some state) :
    ∃ loaded, Node.loadState cfg env n = (.ok loaded, n) ∧
      loaded.lastBlockHeight = state.lastBlockHeight := by
  refine ⟨_, by rw [Node.loadState, Proc.get_bind_run, h]; rfl, ?_⟩
  split <;> rfl

theorem Node.loadState_of_none {cfg : NodeConfig Tx} {env : Node.InitEnv} {n : Node Tx}
    (h : n.exec.store.getState = none) (hinit : env.initChain = .ok) :
    Node.loadState cfg env n = (.ok (Node.genesisState cfg.genesis env.stateRoot), n) := by
  rw [Node.loadState, Proc.get_bind_run, h]
  simp only [hinit]
  rfl

theorem Syncer.loadState_of_getState (cfg : SyncerConfig Tx) (env : Syncer.StartEnv) {y : Syncer Tx}
    {state : State} (h : y.store.getState = some state) :
    ∃ loaded, Syncer.loadState cfg env y = (.ok loaded, y) ∧
      loaded.lastBlockHeight = state.lastBlockHeight := by
  refine ⟨_, by rw [Syncer.loadState, Proc.get_bind_run, h]; rfl, ?_⟩
  split <;> rfl

namespace PruningNode

/-- A store at a height, with its state and nothing above it, from which the executor and the syncer
go on. -/
structure Startable (height : Nat) (s : DefaultStore Tx) : Prop where
  height_eq : s.height = height
  state : ∃ state, s.getState = some state ∧ state.lastBlockHeight = height
  above : ∀ h, height < h → s.blocks.get? h = none ∧ s.states.get? h = none
  index : ∀ hash h, s.index hash = some h → h ≤ height
  executor : ∀ (cfg : NodeConfig Tx) (env : Node.InitEnv) (n : Node Tx), n.exec.store = s.toStore →
    ∃ state, Node.loadState cfg env n = (.ok state, n) ∧ state.lastBlockHeight = height
  syncer : ∀ (cfg : SyncerConfig Tx) (env : Syncer.StartEnv) (y : Syncer Tx), y.store = s.toStore →
    ∃ state, Syncer.loadState cfg env y = (.ok state, y) ∧ state.lastBlockHeight = height

theorem Chain.startable {blobHash : SignedHeader → Bytes} {genesis : Genesis} {s : DefaultStore Tx}
    (hs : Chain blobHash genesis s) (hstate : stateMarker s < s.height ∨ s.height = 0) :
    Startable s.height s := by
  obtain ⟨state, hget⟩ := Option.isSome_iff_exists.mp
    (hs.states_some s.height hs.height (le_refl _) hstate)
  have hheight := hs.state_height s.height state hget
  refine ⟨rfl, ⟨state, hget, hheight⟩, ?_, ?_, ?_, ?_⟩
  · intro h hlt
    exact ⟨hs.blocks_above h hlt, hs.states_above h hlt⟩
  · intro hash h hentry
    obtain ⟨b, hb, -⟩ := hs.index hash h hentry
    by_contra hgt
    rw [hs.blocks_above h (not_le.mp hgt)] at hb
    cases hb
  · intro cfg env n hstore
    obtain ⟨loaded, hload, hloaded⟩ := Node.loadState_of_getState cfg env (hstore ▸ hget : n.exec.store.getState = some state)
    exact ⟨loaded, hload, hloaded.trans hheight⟩
  · intro cfg env y hstore
    obtain ⟨loaded, hload, hloaded⟩ := Syncer.loadState_of_getState cfg env (hstore ▸ hget : y.store.getState = some state)
    exact ⟨loaded, hload, hloaded.trans hheight⟩

/--
**A rollback above the pruned states leaves a startable store.**

For every run of commits, prunes in either mode and rollbacks. Blocks, signatures and states up to
the target are as before.
-/
theorem rollback_startable (cfg : PruningConfig) (blobHash : SignedHeader → Bytes)
    (genesis : Genesis) (stateRoot : Bytes) (mode : PruningMode) (ops : List (Op Tx))
    (hops : Run.Meets (step cfg blobHash) (fun n => Next n.store)
      (newNode genesis (Node.genesisState genesis stateRoot) mode) ops)
    (height : Nat) (aggregator : Bool) (s' : DefaultStore Tx)
    (hroll : (reached cfg blobHash genesis stateRoot mode ops).rollback blobHash height aggregator =
      .ok s')
    (hpruned : stateMarker (reached cfg blobHash genesis stateRoot mode ops) < height ∨
      height = 0) :
    Startable height s' ∧ ∀ h ≤ height,
      s'.blocks.get? h = (reached cfg blobHash genesis stateRoot mode ops).blocks.get? h ∧
      s'.states.get? h = (reached cfg blobHash genesis stateRoot mode ops).states.get? h := by
  have hgenesis : (Node.genesisState genesis stateRoot).lastBlockHeight =
      genesis.initialHeight - 1 := rfl
  have hchain : Chain blobHash genesis (reached cfg blobHash genesis stateRoot mode ops) :=
    Chain.exec hgenesis mode ops hops
  have hrolled := DefaultStore.rollback_ok blobHash hroll
  have hmarker := stateMarker_congr (hrolled.metadata (metaKey lastPrunedStateHeightKey) (by decide))
  constructor
  · have hstart := (hchain.rolledBack hrolled).startable
    rw [hrolled.height_eq, hmarker] at hstart
    exact hstart hpruned
  · intro h hle
    exact ⟨hrolled.blocks_kept h (.inl hle), hrolled.states_kept h (.inl hle)⟩

namespace RollbackRun

def cfg : PruningConfig := ⟨1, 10, 1, false, Nat.one_pos, by decide, Nat.one_pos⟩

def genesis : Genesis := ⟨"chain", 0, 1, [7], 0, 1, Nat.one_pos, Nat.one_pos⟩

def blobHash (header : SignedHeader) : Bytes := [UInt8.ofNat header.header.height]

def commit (height : Nat) : Op RawTx :=
  .commit ⟨⟨height, 0, "chain", ⟨0, 0⟩, [], [], [], [], [7]⟩, [1], [], [7]⟩
    ⟨"chain", height, 0, [], []⟩ [1]
    { Node.genesisState genesis [] with lastBlockHeight := height }

/-- Five blocks, and a tick that prunes the states up to the third. -/
def pruned : List (Op RawTx) :=
  [commit 1, commit 2, commit 3, commit 4, commit 5, .tick, .chunk, .chunk]

def prunedStore : DefaultStore RawTx := reached cfg blobHash genesis [] .metadata pruned

/-- The store that a rollback leaves. -/
def rolledBack (height : Nat) : DefaultStore RawTx :=
  match prunedStore.rollback blobHash height true with
  | .ok s => s
  | .error _ => prunedStore

theorem rollback_eq {height : Nat} (h : (prunedStore.rollback blobHash height true).isOk = true) :
    prunedStore.rollback blobHash height true = .ok (rolledBack height) := by
  unfold rolledBack
  cases hroll : prunedStore.rollback blobHash height true with
  | ok s => rfl
  | error e => rw [hroll] at h; cases h

end RollbackRun

open RollbackRun in
theorem rollback_startable_four :
    prunedStore.rollback RollbackRun.blobHash 4 true = .ok (rolledBack 4) ∧ stateMarker prunedStore = 3 ∧
    (Startable 4 (rolledBack 4) ∧ ∀ h ≤ 4, (rolledBack 4).blocks.get? h = prunedStore.blocks.get? h ∧
      (rolledBack 4).states.get? h = prunedStore.states.get? h) :=
  ⟨rollback_eq (by decide +kernel), by decide +kernel,
    rollback_startable RollbackRun.cfg RollbackRun.blobHash RollbackRun.genesis [] .metadata pruned
      (by decide +kernel) 4 true (rolledBack 4) (rollback_eq (by decide +kernel))
      (by decide +kernel)⟩

open RollbackRun in
/-- The rollback to the third block succeeds, its state is missing, and an executor that starts
there begins a new chain at the first block. -/
theorem rollback_to_pruned_state :
    prunedStore.rollback RollbackRun.blobHash 3 true = .ok (rolledBack 3) ∧ (rolledBack 3).height = 3 ∧
    (rolledBack 3).getState = none ∧
    ∀ (cfg : NodeConfig RawTx) (env : Node.InitEnv) (n : Node RawTx),
      n.exec.store = (rolledBack 3).toStore → env.initChain = .ok →
        Node.loadState cfg env n = (.ok (Node.genesisState cfg.genesis env.stateRoot), n) := by
  have hnone : (rolledBack 3).getState = none := by decide +kernel
  refine ⟨rollback_eq (by decide +kernel), by decide +kernel, hnone, ?_⟩
  intro cfg env n hstore hinit
  exact Node.loadState_of_none (hstore ▸ hnone) hinit

end PruningNode

end EvNode
