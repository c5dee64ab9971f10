import EvNode.Properties.ProduceBlock
import EvNode.Properties.Start

/-!
# Memory and store of a running node

After a complete start, the last height in memory is the last height of the store, and no block is
stored above it. Block production keeps this, so the next block always has the next height.
-/

namespace EvNode

open Crash Proc

variable {Tx : Type}

namespace Node

/-- A running node: the last height in memory is the one of the store. -/
structure Synced (genesis : Genesis) (n : Node Tx) : Prop where
  wf : n.exec.store.WF genesis
  lastHeight : n.exec.lastState.lastBlockHeight = n.exec.store.lastHeight genesis
  stored : n.exec.store.getState.isSome = true
  next : n.exec.store.blocks.get? (n.exec.store.lastHeight genesis + 1) = none

variable {cfg : NodeConfig Tx} {genesis : Genesis} {n : Node Tx}

theorem Initialized.synced {env : InitEnv} {n' : Node Tx} (h : Initialized cfg env n n') :
    n'.Synced cfg.genesis := by
  refine ⟨h.store.wf, ?_, h.stored, ?_⟩
  · rw [h.lastState, lastBlockHeight_loadedState, h.store.lastHeight_eq]
  · rw [h.store.lastHeight_eq]
    exact h.next

theorem Synced.nextHeight_eq (h : n.Synced genesis) :
    n.nextHeight = n.exec.store.lastHeight genesis + 1 := congrArg (· + 1) h.lastHeight

theorem Synced.congr {n' : Node Tx} (h : n.Synced genesis)
    (hstore : n'.exec.store = n.exec.store) (hstate : n'.exec.lastState = n.exec.lastState) :
    n'.Synced genesis := by
  refine ⟨?_, ?_, ?_, ?_⟩
  · rw [hstore]
    exact h.wf
  · rw [hstore, hstate]
    exact h.lastHeight
  · rw [hstore]
    exact h.stored
  · rw [hstore]
    exact h.next

theorem Synced.withPending (h : n.Synced genesis) (block : SignedHeader × Data Tx) :
    (n.withPending block).Synced genesis :=
  ⟨⟨h.wf.statesKeyed, h.wf.fresh, h.wf.bounded⟩, h.lastHeight, h.stored, h.next⟩

theorem Synced.recordSigned (h : n.Synced genesis) (header : Header) :
    (recordSigned header n).Synced genesis :=
  ⟨⟨h.wf.statesKeyed, h.wf.fresh, h.wf.bounded⟩, h.lastHeight, h.stored, h.next⟩

theorem Synced.signed (h : n.Synced genesis) (header : SignedHeader) (count : Nat) :
    (Node.signed header count n).Synced genesis :=
  ⟨⟨h.wf.statesKeyed, h.wf.fresh, h.wf.bounded⟩, h.lastHeight, h.stored, h.next⟩

theorem Synced.commitBatch (h : n.Synced genesis) (cfg : NodeConfig Tx) (env : ProduceEnv Tx) {header : SignedHeader}
    (hheight : header.header.height = n.nextHeight) (data : Data Tx) :
    (committed cfg env header data n).exec.store.WF genesis ∧
      (committed cfg env header data n).exec.store.lastHeight genesis = n.nextHeight ∧
      (committed cfg env header data n).exec.store.getState =
        some (nextState cfg env header.header n) ∧
      ∃ states, (committed cfg env header data n).exec.store = { n.exec.store with
        height := header.header.height
        blocks := n.exec.store.blocks.put n.nextHeight
          ⟨{ header with signature := env.signature }, data, env.signature⟩
        states := states } := by
  have hheight' : ({ header with signature := env.signature } : SignedHeader).header.height =
      n.exec.store.lastHeight genesis + 1 := hheight.trans h.nextHeight_eq
  obtain ⟨hwf, hlast, hget, states, heq⟩ :=
    h.wf.commitBatch hheight' data env.signature
      (rfl : (nextState cfg env header.header n).lastBlockHeight = header.header.height)
  refine ⟨hwf, hlast.trans h.nextHeight_eq.symm, hget, states, ?_⟩
  rw [← hheight]
  exact heq

theorem Synced.committed (h : n.Synced genesis) (cfg : NodeConfig Tx) (env : ProduceEnv Tx) {header : SignedHeader}
    (hheight : header.header.height = n.nextHeight) (data : Data Tx) :
    (Node.committed cfg env header data n).Synced genesis := by
  obtain ⟨hwf, hlast, hget, states, heq⟩ := h.commitBatch cfg env hheight data
  refine ⟨hwf, ?_, ?_, ?_⟩
  · exact hheight.trans hlast.symm
  · rw [hget]
    rfl
  · rw [hlast, heq]
    show (n.exec.store.blocks.put n.nextHeight _).get? (n.nextHeight + 1) = none
    rw [OrdMap.get?_put_ne _ _ (by omega)]
    cases hb : n.exec.store.blocks.get? (n.nextHeight + 1) with
    | none => rfl
    | some b =>
      have hle := h.wf.bounded _ b hb
      rw [← h.nextHeight_eq] at hle
      omega

/-! ## The other operations -/

/-- `Stop` does nothing, or, without the flag, it deletes parts of the pending block. -/
theorem stop_state (deleteHeader deleteData : Outcome) (n : Node Tx) :
    (stop deleteHeader deleteData n).2 = n ∨ (n.exec.hasPendingBlock = false ∧
      ∃ header data, (header = none ∨ header = n.exec.store.pendingHeader) ∧
        (data = none ∨ data = n.exec.store.pendingData) ∧
        (stop deleteHeader deleteData n).2 = { n with exec := { n.exec with
          store := { n.exec.store with pendingHeader := header, pendingData := data } } }) := by
  unfold stop
  rw [get_bind_run]
  cases hflag : n.exec.hasPendingBlock with
  | true => exact .inl rfl
  | false =>
    right
    cases deleteHeader with
    | ok =>
      cases deleteData with
      | ok => exact ⟨rfl, none, none, .inl rfl, .inl rfl, rfl⟩
      | fail | crash => exact ⟨rfl, none, n.exec.store.pendingData, .inl rfl, .inr rfl, rfl⟩
    | fail | crash =>
      exact ⟨rfl, n.exec.store.pendingHeader, n.exec.store.pendingData, .inr rfl, .inr rfl, rfl⟩

theorem genesisInclusion_state (write : Outcome) (height : Nat) (n : Node Tx) :
    ∃ g d, (genesisInclusion write height n).2 = { n with
      seq := n.seq.setDAHeight d
      exec := { n.exec with store := { n.exec.store with genesisDAHeight := g } } } := by
  unfold genesisInclusion
  cases write with
  | ok => exact ⟨_, _, rfl⟩
  | fail | crash => exact ⟨n.exec.store.genesisDAHeight, n.seq.daHeight, rfl⟩

end Node

end EvNode
