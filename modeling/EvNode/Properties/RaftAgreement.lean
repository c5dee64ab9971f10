import EvNode.Executing.RaftLeader
import EvNode.Properties.DoubleSign

/-!
# Agreement of a raft leader with the replicated state

The state machine of raft refuses a block whose height or timestamp does not increase, and
`Broadcast` does not read its answer. A leader then commits a block that the machine never held: after
a failed commit it may have made another block for the height (`retry_signs_twice`), or two blocks may
have the same timestamp, which `AssertValidSequence` accepts (`unheld_block_committed`).
-/

namespace EvNode

open Crash Proc

variable {Tx : Type}

namespace RaftLeader

/-! ## The invariant -/

def store (w : RaftLeader Tx) : Store Tx := w.node.exec.store

/-- Timestamps increase with the height, beginning above that of `fsm`. -/
structure TimesIncrease (fsm : Raft.FSM Tx) (signed : List Header) : Prop where
  above : ∀ h ∈ signed, Raft.FSM.timestamp fsm < h.time
  increase : ∀ h ∈ signed, ∀ h' ∈ signed, h.height < h'.height → h.time < h'.time

theorem TimesIncrease.mono {fsm : Raft.FSM Tx} {signed signed' : List Header}
    (h : TimesIncrease fsm signed') (hsub : ∀ x ∈ signed, x ∈ signed') : TimesIncrease fsm signed :=
  ⟨fun x hx => h.above x (hsub x hx),
    fun x hx y hy hlt => h.increase x (hsub x hx) y (hsub y hy) hlt⟩

/-- The machine, which started with `fsm₀` when the chain was at `height₀`, held the blocks that were
committed since then, and at most the pending block beyond them. -/
structure Agrees (cfg : NodeConfig Tx) (sign : Header → Bytes) (fsm₀ : Raft.FSM Tx) (height₀ : Nat)
    (w : RaftLeader Tx) : Prop where
  grown : height₀ ≤ w.store.lastHeight cfg.genesis
  fsm : w.fsm = w.held.getLast?.or fsm₀
  range : ∀ r ∈ w.held, height₀ < r.height ∧ r.height ≤ w.store.lastHeight cfg.genesis + 1
  signed : ∀ r ∈ w.held, r.header.header ∈ w.store.signed
  stored : ∀ r ∈ w.held, r.height ≤ w.store.lastHeight cfg.genesis →
    ∃ b, w.store.blocks.get? r.height = some b ∧ r = blockState cfg b.header b.data
  pending : ∀ r ∈ w.held, r.height = w.store.lastHeight cfg.genesis + 1 →
    ∃ header data, w.store.pendingHeader = some header ∧ w.store.pendingData = some data ∧
      r = blockState cfg { header with signature := sign header.header } data
  covered : ∀ h, height₀ < h → h ≤ w.store.lastHeight cfg.genesis → ∃ r ∈ w.held, r.height = h
  acked : ∀ x ∈ w.acked, x.2 = some x.1

section Invariant

variable {cfg : NodeConfig Tx} {sign : Header → Bytes} {fsm₀ : Raft.FSM Tx} {height₀ : Nat}
  {w : RaftLeader Tx}

theorem Agrees.isBlock (h : Agrees cfg sign fsm₀ height₀ w) {r : Raft.BlockState Tx}
    (hr : r ∈ w.held) : r.height = r.header.header.height ∧ r.timestamp = r.header.header.time := by
  by_cases hle : r.height ≤ w.store.lastHeight cfg.genesis
  · obtain ⟨b, -, heq⟩ := h.stored r hr hle
    rw [heq]
    exact ⟨rfl, rfl⟩
  · have hrange := h.range r hr
    obtain ⟨header, data, -, -, heq⟩ := h.pending r hr (by omega)
    rw [heq]
    exact ⟨rfl, rfl⟩

variable {n n' : Node Tx} {header : SignedHeader} {data : Data Tx} {env : ProduceEnv Tx}

/-- Committed blocks stay, and so does the pending block if the machine has it. -/
theorem Agrees.keep (h : Agrees cfg sign fsm₀ height₀ w)
    (hlast : n.exec.store.lastHeight cfg.genesis = w.store.lastHeight cfg.genesis)
    (hblocks : ∀ k, k ≤ w.store.lastHeight cfg.genesis →
      n.exec.store.blocks.get? k = w.store.blocks.get? k)
    (hsigned : ∀ x ∈ w.store.signed, x ∈ n.exec.store.signed)
    (hpending : (n.exec.store.pendingHeader = w.store.pendingHeader ∧
        n.exec.store.pendingData = w.store.pendingData) ∨
      ∀ r ∈ w.held, r.height ≠ w.store.lastHeight cfg.genesis + 1) :
    Agrees cfg sign fsm₀ height₀ { w with node := n } := by
  have hlast' : ({ w with node := n } : RaftLeader Tx).store.lastHeight cfg.genesis =
    w.store.lastHeight cfg.genesis := hlast
  constructor
  · exact hlast' ▸ h.grown
  · exact h.fsm
  · rw [hlast']
    exact h.range
  · exact fun r hr => hsigned _ (h.signed r hr)
  · rw [hlast']
    intro r hr hle
    obtain ⟨b, hb, heq⟩ := h.stored r hr hle
    exact ⟨b, (hblocks _ hle).trans hb, heq⟩
  · rw [hlast']
    intro r hr hheight
    rcases hpending with ⟨hheader, hdata⟩ | hnone
    · obtain ⟨header, data, hp, hd, heq⟩ := h.pending r hr hheight
      exact ⟨header, data, hheader.trans hp, hdata.trans hd, heq⟩
    · exact absurd hheight (hnone r hr)
  · rw [hlast']
    exact h.covered
  · exact h.acked

/-- A block of the machine beyond the chain is pending. -/
theorem Agrees.next_pending (h : Agrees cfg sign fsm₀ height₀ w)
    (hsynced : w.node.Synced cfg.genesis) (hflag : w.node.PendingFlagged) {r : Raft.BlockState Tx}
    (hr : r ∈ w.held) (hheight : r.height = w.store.lastHeight cfg.genesis + 1) :
    w.node.exec.hasPendingBlock = true ∧
      ∃ header, w.store.pendingHeader = some header ∧ header.header.height = w.node.nextHeight := by
  obtain ⟨header, data, hp, -, heq⟩ := h.pending r hr hheight
  have hnext : header.header.height = w.node.nextHeight := by
    rw [hsynced.nextHeight_eq]
    rw [heq] at hheight
    exact hheight
  exact ⟨hflag header hp hnext, header, hp, hnext⟩

/-- A new block is made only if the machine has none beyond the chain. -/
theorem Agrees.none_above (h : Agrees cfg sign fsm₀ height₀ w) (hsynced : w.node.Synced cfg.genesis)
    (hflag : w.node.PendingFlagged) (hnew : w.node.TakesNew) :
    ∀ r ∈ w.held, r.height ≠ w.store.lastHeight cfg.genesis + 1 := by
  intro r hr hheight
  obtain ⟨hpending, header, hp, hnext⟩ := h.next_pending hsynced hflag hr hheight
  exact hnew hpending header hp hnext

/-- **A proposal.** The pending block of the next height becomes the state of the machine, or was it
already. -/
theorem Agrees.applyLog (h : Agrees cfg sign fsm₀ height₀ w)
    (hbehind : Raft.FSM.height fsm₀ ≤ height₀) (htimes : TimesIncrease fsm₀ w.store.signed)
    (hheight : header.header.height = w.store.lastHeight cfg.genesis + 1)
    (hsigned : header.header ∈ w.store.signed) (hheader : w.store.pendingHeader = some header)
    (hdata : w.store.pendingData = some data) :
    let state := blockState cfg { header with signature := sign header.header } data
    Agrees cfg sign fsm₀ height₀ (applyLog state w) ∧ (RaftLeader.applyLog state w).fsm = some state := by
  intro state
  have hstate : state.height = w.store.lastHeight cfg.genesis + 1 := hheight
  have hgrown := h.grown
  by_cases hheld : ∃ r, w.fsm = some r ∧ r ∈ w.held ∧
      r.height = w.store.lastHeight cfg.genesis + 1
  · -- the machine has the block and refuses it
    obtain ⟨r, hfsm, hr, hnext⟩ := hheld
    have hsame : r = state := by
      obtain ⟨header', data', hp, hd, heq⟩ := h.pending r hr hnext
      cases hheader.symm.trans hp
      cases hdata.symm.trans hd
      exact heq
    have hrefused : RaftLeader.applyLog state w = w := by
      unfold RaftLeader.applyLog
      rw [Raft.apply_of_le (by rw [hfsm, hsame]; exact le_rfl)]
    rw [hrefused]
    exact ⟨h, hsame ▸ hfsm⟩
  · have hbelow : Raft.FSM.height w.fsm < state.height ∧
        Raft.FSM.timestamp w.fsm < state.timestamp := by
      rw [hstate, h.fsm]
      cases hlast : w.held.getLast? with
      | none => exact ⟨by simp only [Option.none_or]; omega, htimes.above _ hsigned⟩
      | some r =>
        have hr := List.mem_of_getLast? hlast
        have hrange := h.range r hr
        have hne : r.height ≠ w.store.lastHeight cfg.genesis + 1 := fun heq =>
          hheld ⟨r, by rw [h.fsm, hlast]; rfl, hr, heq⟩
        obtain ⟨hrheight, hrtime⟩ := h.isBlock hr
        refine ⟨show r.height < _ by omega, ?_⟩
        show r.timestamp < header.header.time
        rw [hrtime]
        exact htimes.increase _ (h.signed r hr) _ hsigned (by omega)
    have haccepted : RaftLeader.applyLog state w =
        { w with fsm := some state, held := w.held ++ [state] } := by
      unfold RaftLeader.applyLog
      rw [Raft.apply_of_lt hbelow.1 hbelow.2]
    rw [haccepted]
    refine ⟨?_, rfl⟩
    have hsplit : ∀ {P : Raft.BlockState Tx → Prop}, (∀ r ∈ w.held, P r) → P state →
        ∀ r ∈ w.held ++ [state], P r := by
      intro P hold hnew r hr
      rcases List.mem_append.mp hr with hr | hr
      · exact hold r hr
      · exact List.mem_singleton.mp hr ▸ hnew
    constructor
    · exact h.grown
    · show some state = (w.held ++ [state]).getLast?.or fsm₀
      rw [List.getLast?_concat]
      rfl
    · exact hsplit h.range ⟨hstate ▸ Nat.lt_succ_of_le hgrown, hstate.le⟩
    · exact hsplit h.signed hsigned
    · exact hsplit h.stored fun hle => absurd hle (by
        show ¬ state.height ≤ w.store.lastHeight cfg.genesis
        omega)
    · exact hsplit h.pending fun _ => ⟨header, data, hheader, hdata, rfl⟩
    · intro k hlt hle
      obtain ⟨r, hr, hk⟩ := h.covered k hlt hle
      exact ⟨r, List.mem_append_left _ hr, hk⟩
    · exact h.acked

theorem Agrees.commit (h : Agrees cfg sign fsm₀ height₀ w)
    (hbehind : Raft.FSM.height fsm₀ ≤ height₀)
    (signature : Bytes)
    (hheight : header.header.height = w.store.lastHeight cfg.genesis + 1)
    (hheader : w.store.pendingHeader = some header) (hdata : w.store.pendingData = some data)
    (hfsm : w.fsm = some (blockState cfg { header with signature := sign header.header } data))
    (hlast : n.exec.store.lastHeight cfg.genesis = header.header.height)
    (hblocks : n.exec.store.blocks = w.store.blocks.put header.header.height
      ⟨{ header with signature := sign header.header }, data, signature⟩)
    (hsigned : ∀ x ∈ w.store.signed, x ∈ n.exec.store.signed) :
    Agrees cfg sign fsm₀ height₀ { w with node := n } := by
  have hlast' : ({ w with node := n } : RaftLeader Tx).store.lastHeight cfg.genesis =
    w.store.lastHeight cfg.genesis + 1 := hlast.trans hheight
  have hgrown := h.grown
  constructor
  · rw [hlast']
    exact Nat.le_succ_of_le h.grown
  · exact h.fsm
  · rw [hlast']
    exact fun r hr => ⟨(h.range r hr).1, Nat.le_succ_of_le (h.range r hr).2⟩
  · exact fun r hr => hsigned _ (h.signed r hr)
  · rw [hlast']
    intro r hr hle
    show ∃ b, n.exec.store.blocks.get? r.height = some b ∧ _
    rw [hblocks]
    by_cases hnext : r.height = w.store.lastHeight cfg.genesis + 1
    · obtain ⟨header', data', hp, hd, heq⟩ := h.pending r hr hnext
      cases hheader.symm.trans hp
      cases hdata.symm.trans hd
      exact ⟨_, by rw [hnext, ← hheight, OrdMap.get?_put_self], heq⟩
    · obtain ⟨b, hb, heq⟩ := h.stored r hr (by omega)
      exact ⟨b, by rw [OrdMap.get?_put_ne _ _ (by omega), hb], heq⟩
  · rw [hlast']
    intro r hr hheight
    have hrange := h.range r hr
    omega
  · rw [hlast']
    intro k hlt hle
    by_cases hnext : k = w.store.lastHeight cfg.genesis + 1
    · -- the machine is at the block, so it holds it
      have hheld : blockState cfg { header with signature := sign header.header } data ∈ w.held := by
        rw [h.fsm] at hfsm
        cases hget : w.held.getLast? with
        | some r =>
          rw [hget] at hfsm
          cases hfsm
          exact List.mem_of_getLast? hget
        | none =>
          rw [hget, Option.none_or] at hfsm
          rw [hfsm] at hbehind
          have hbehind : header.header.height ≤ height₀ := hbehind
          omega
      exact ⟨_, hheld, hheight.trans hnext.symm⟩
    · exact h.covered k hlt (by omega)
  · exact h.acked

theorem Agrees.ack (h : Agrees cfg sign fsm₀ height₀ w) (state : Raft.BlockState Tx) :
    Agrees cfg sign fsm₀ height₀ { w with acked := w.acked ++ [(state, some state)] } := by
  refine ⟨h.grown, h.fsm, h.range, h.signed, h.stored, h.pending, h.covered, fun x hx => ?_⟩
  rcases List.mem_append.mp hx with hx | hx
  · exact h.acked x hx
  · rw [List.mem_singleton.mp hx]

/-! ## One ProduceBlock -/

/-- What a node does before it proposes a block: committed blocks stay, and the pending block is
replaced only if none was flagged for the next height. -/
structure Prepares (n n' : Node Tx) : Prop where
  blocks : n'.exec.store.blocks = n.exec.store.blocks
  lastHeight : ∀ genesis, n'.exec.store.lastHeight genesis = n.exec.store.lastHeight genesis
  synced : ∀ {genesis}, n.Synced genesis → n'.Synced genesis
  signed : ∀ x ∈ n.exec.store.signed, x ∈ n'.exec.store.signed
  pending : (n'.exec.store.pendingHeader = n.exec.store.pendingHeader ∧
    n'.exec.store.pendingData = n.exec.store.pendingData) ∨ n.TakesNew

theorem Agrees.prepares (h : Agrees cfg sign fsm₀ height₀ w) (hsynced : w.node.Synced cfg.genesis)
    (hflag : w.node.PendingFlagged) (hn : Prepares w.node n) :
    Agrees cfg sign fsm₀ height₀ { w with node := n } := by
  refine h.keep (hn.lastHeight _) (fun k _ => ?_) hn.signed (hn.pending.imp_right ?_)
  · rw [hn.blocks]
    rfl
  · exact h.none_above hsynced hflag

variable [Transaction Tx]

theorem prepares_retry {r : Exit Err Unit}
    (h : Node.RetryCase env n (r, n')) : Prepares n n' := by
  cases h with
  | nothing | acked | failed | crash =>
    exact ⟨rfl, fun _ => rfl, fun h => h.congr rfl rfl, fun _ => id, .inl ⟨rfl, rfl⟩⟩

theorem prepares_nextBlock {n1 n2 : Node Tx} {r : Exit Err Unit}
    {r' : Exit Err (Option (SignedHeader × Data Tx))} {counter : Nat}
    (h1 : Node.RetryCase env n (r, n1))
    (h2 : Node.NextBlockCase cfg env (n1.counted counter) (r', n2)) :
    Prepares n n2 ∧ n2.exec.store.signed = n.exec.store.signed := by
  have hkept : Prepares n (n1.counted counter) ∧ (n1.counted counter).exec.store.signed =
      n.exec.store.signed ∧ ((n1.counted counter).TakesNew → n.TakesNew) := by
    cases h1 with
    | nothing | acked | failed | crash =>
      exact ⟨⟨rfl, fun _ => rfl, fun h => h.congr rfl rfl, fun _ => id, .inl ⟨rfl, rfl⟩⟩, rfl, id⟩
  obtain ⟨hk, hsigned, hnew⟩ := hkept
  cases h2 with
  | unread | reused | noBatch | batchCrash | unsaved =>
    exact ⟨⟨hk.blocks, hk.lastHeight, fun h => (hk.synced h).congr rfl rfl, hk.signed,
      hk.pending⟩, hsigned⟩
  | created batch s last hfresh =>
    refine ⟨⟨hk.blocks, hk.lastHeight, fun h => ?_, hk.signed, .inr (hnew hfresh)⟩, hsigned⟩
    have hs : ((n1.counted counter).withSeq s).Synced _ := (hk.synced h).congr rfl rfl
    exact hs.withPending _

omit [Transaction Tx] in
theorem Prepares.recordSigned (h : Prepares n n') (header : Header) :
    Prepares n (Node.recordSigned header n') :=
  ⟨h.blocks, h.lastHeight, fun hs => (h.synced hs).recordSigned header,
    fun x hx => List.mem_append_left _ (h.signed x hx), h.pending⟩

omit [Transaction Tx] in
theorem Prepares.withSigned (h : Prepares n n') (header : SignedHeader)
    (count : Nat) : Prepares n (Node.signed header count n') :=
  have hr := h.recordSigned header.header
  ⟨hr.blocks, hr.lastHeight, fun hs => (h.synced hs).signed header count, hr.signed, hr.pending⟩

/-- How `produceBlock` ends: nothing is proposed, or a block that is ready and signed. -/
inductive LeaderCase (cfg : NodeConfig Tx) (env : ProduceEnv Tx) (applied : Bool)
    (w : RaftLeader Tx) : Exit Err Unit × RaftLeader Tx → Prop
  | quiet (r : Exit Err Unit) (n : Node Tx) (h : Prepares w.node n) :
    LeaderCase cfg env applied w (r, { w with node := n })
  | proposed (header : SignedHeader) (data : Data Tx) (n : Node Tx) (h : Prepares w.node n)
      (hheight : header.header.height = n.nextHeight)
      (hheader : n.exec.store.pendingHeader = some header)
      (hdata : n.exec.store.pendingData = some data)
      (hsigned : n.exec.store.signed = w.node.exec.store.signed ++ [header.header]) :
    LeaderCase cfg env applied w (commitBlock cfg env applied header data
      (Node.nextState cfg env header.header n) { w with node := n })

omit [Transaction Tx] in
theorem onNode_run {α : Type} {p : Proc (Node Tx) Err α} {r : Exit Err α}
    (h : p w.node = (r, n)) : onNode p w = (r, { w with node := n }) := by
  unfold onNode zoom
  rw [h]

omit [Transaction Tx] in
theorem onNode_state {α : Type} (p : Proc (Node Tx) Err α) (w : RaftLeader Tx) :
    (onNode p w).2 = { w with node := (p w.node).2 } :=
  rfl

theorem produceBlock_cases (cfg : NodeConfig Tx) (env : ProduceEnv Tx) (applied : Bool)
    (w : RaftLeader Tx) : LeaderCase cfg env applied w (produceBlock cfg env applied w) := by
  have hself : ∀ r, LeaderCase cfg env applied w (r, w) := fun r =>
    .quiet r w.node ⟨rfl, fun _ => rfl, id, fun _ => id, .inl ⟨rfl, rfl⟩⟩
  unfold produceBlock
  cases hq : (!cfg.raftNode || env.quorum) with
  | false =>
    rw [bind_run_error (require_run_false rfl _ _)]
    exact hself _
  | true =>
    rw [bind_run_ok (require_run_true rfl _ _)]
    have h1 := Node.retryAck_cases env w.node
    rcases hretry : Node.retryAck env w.node with ⟨r, n1⟩
    rw [hretry] at h1
    cases r with
    | error e =>
      rw [bind_run_error (onNode_run hretry)]
      exact .quiet _ n1 (prepares_retry h1)
    | crash =>
      rw [bind_run_crash (onNode_run hretry)]
      exact .quiet _ n1 (prepares_retry h1)
    | ok u =>
      obtain ⟨skip, counter, hlimit⟩ := Node.pendingLimitReached_eq cfg env n1
      have hlimit' : onNode (Node.pendingLimitReached cfg env) { w with node := n1 } =
          (.ok skip, { w with node := n1.counted counter }) := onNode_run hlimit
      rw [bind_run_ok (onNode_run hretry), bind_run_ok hlimit']
      cases skip with
      | true =>
        have hp := prepares_retry h1
        exact .quiet _ (n1.counted counter) ⟨hp.blocks, hp.lastHeight,
          fun h => (hp.synced h).congr rfl rfl, hp.signed, hp.pending⟩
      | false =>
        rw [if_neg Bool.false_ne_true]
        have h2 := Node.nextBlock_cases cfg env (n1.counted counter)
        rcases hnext : Node.nextBlock cfg env (n1.counted counter) with ⟨r, n2⟩
        have hnext' : onNode (Node.nextBlock cfg env) { w with node := n1.counted counter } =
          (r, { w with node := n2 }) := onNode_run hnext
        rw [hnext] at h2
        obtain ⟨hprep, hsigned⟩ := prepares_nextBlock h1 h2
        cases r with
        | error e =>
          rw [bind_run_error hnext']
          exact .quiet _ n2 hprep
        | crash =>
          rw [bind_run_crash hnext']
          exact .quiet _ n2 hprep
        | ok block =>
          rw [bind_run_ok hnext']
          cases block with
          | none => exact .quiet _ n2 hprep
          | some block =>
            obtain ⟨header, data⟩ := block
            obtain ⟨hheight, hheader, hdata⟩ := h2.ready
            have hrun : ∀ {r n3}, Node.applyAndSign cfg env header n2 = (r, n3) →
                onNode (Node.applyAndSign cfg env header) { w with node := n2 } =
                  (r, { w with node := n3 }) := fun h => onNode_run h
            show LeaderCase cfg env applied w ((onNode (Node.applyAndSign cfg env header) >>=
              fun newState => commitBlock cfg env applied header data newState)
                { w with node := n2 })
            rcases Node.applyAndSign_cases cfg env header n2 with
              ⟨r, hr, ha | ha⟩ | ⟨e, count, hv, ha⟩ | ⟨count, hv, ha⟩
            · obtain ⟨r', _, hstop⟩ := bind_run_stop _ (hrun ha) hr
              rw [hstop]
              exact .quiet r' n2 hprep
            · obtain ⟨r', _, hstop⟩ := bind_run_stop _ (hrun ha) hr
              rw [hstop]
              exact .quiet r' _ (hprep.recordSigned header.header)
            · rw [bind_run_error (hrun ha)]
              exact .quiet _ _ (hprep.withSigned header count)
            · rw [bind_run_ok (hrun ha)]
              refine .proposed header data (Node.signed header count n2)
                (hprep.withSigned header count) hheight hheader hdata ?_
              rw [← hsigned]
              rfl

theorem Agrees.afterBroadcast (h : Agrees cfg sign fsm₀ height₀ w)
    (hsynced : w.node.Synced cfg.genesis) (hbehind : Raft.FSM.height fsm₀ ≤ height₀)
    (hnext : header.header.height = w.node.nextHeight)
    (hheader : w.store.pendingHeader = some header) (hdata : w.store.pendingData = some data)
    (hsign : env.signature = sign header.header)
    (hfsm : w.fsm = some (blockState cfg { header with signature := env.signature } data)) :
    Agrees cfg sign fsm₀ height₀ (onNode (Node.commitBlock cfg env header data
      (Node.nextState cfg env header.header w.node)) w).2 := by
  have hheight := hnext
  rw [hsynced.nextHeight_eq] at hheight
  -- whatever the ack does, the store is the one after the commit
  have hcommit : ∀ {n : Node Tx}, n.exec.store = (Node.committed cfg env header data
      w.node).exec.store → Agrees cfg sign fsm₀ height₀ { w with node := n } := by
    intro n hstore
    have hlast := (hsynced.committed cfg env hnext data).lastHeight
    refine h.commit hbehind env.signature hheight hheader hdata (hsign ▸ hfsm) ?_ ?_ ?_
    · rw [hstore]
      exact hlast.symm
    · rw [hstore, ← hsign]
      exact Store.commitBatch_blocks ..
    · rw [hstore]
      exact fun x hx => (Store.commitBatch_signed ..).symm ▸ hx
  have hacked : ∀ {r n}, Node.AckCommittedCase env.ack (Node.committed cfg env header data w.node)
      (r, n) → n.exec.store = (Node.committed cfg env header data w.node).exec.store := by
    intro r n hack
    cases hack with
    | acked | failed | crash => rfl
  rcases Node.commitBlock_cases cfg env header data w.node with
    ⟨r, -, hc⟩ | ⟨n, hack, hc⟩ | ⟨r, n, -, hack, hc⟩
  · rw [onNode_run hc]
    exact h
  · rw [onNode_run hc]
    exact hcommit (hacked hack)
  · rw [onNode_run hc]
    have hstore : (Node.cached cfg env data n).exec.store = n.exec.store := rfl
    exact hcommit (hstore.trans (hacked hack))

/-- **A signed block is proposed and committed.** -/
theorem Agrees.commitBlock (hraft : cfg.raftNode = true) (h : Agrees cfg sign fsm₀ height₀ w)
    (hsynced : w.node.Synced cfg.genesis) (hbehind : Raft.FSM.height fsm₀ ≤ height₀)
    (htimes : TimesIncrease fsm₀ w.store.signed) (applied : Bool)
    (hheight : header.header.height = w.node.nextHeight) (hsigned : header.header ∈ w.store.signed)
    (hheader : w.store.pendingHeader = some header) (hdata : w.store.pendingData = some data)
    (hsign : env.signature = sign header.header) :
    Agrees cfg sign fsm₀ height₀ (RaftLeader.commitBlock cfg env applied header data
      (Node.nextState cfg env header.header w.node) w).2 := by
  have hnext := hheight
  rw [hsynced.nextHeight_eq] at hheight
  obtain ⟨happly, hfsm⟩ := h.applyLog hbehind htimes hheight hsigned hheader hdata
  rw [← hsign] at happly hfsm
  unfold RaftLeader.commitBlock
  generalize hstate : blockState cfg { header with signature := env.signature } data = state
    at happly hfsm
  -- an entry that fails reaches the machine or not
  have hfailed : ∀ b, Agrees cfg sign fsm₀ height₀
      (if (applied || b) = true then RaftLeader.applyLog state w else w) := by
    intro b
    split
    · exact happly
    · exact h
  have hrun : ∀ o, env.broadcast = o → broadcast cfg env applied state w =
      io o (.text "failed to propose block to raft")
        (fun w => { w with acked := w.acked ++ [(state, w.fsm)] })
        (if (applied || o = .ok) = true then RaftLeader.applyLog state w else w) := by
    rintro o rfl
    unfold broadcast
    rw [if_pos hraft, modify_bind_run]
  cases hb : env.broadcast with
  | fail =>
    rw [bind_run_error (hrun _ hb)]
    exact hfailed _
  | crash =>
    rw [bind_run_crash (hrun _ hb)]
    exact hfailed _
  | ok =>
    have hacked : RaftLeader.broadcast cfg env applied state w = (.ok (),
        { RaftLeader.applyLog state w with
          acked := (RaftLeader.applyLog state w).acked ++ [(state, some state)] }) := by
      rw [hrun _ hb, if_pos (by simp), ← hfsm]
      rfl
    rw [bind_run_ok hacked]
    have hnode : (RaftLeader.applyLog state w).node = w.node := applyLog_node state w
    have hstore : (RaftLeader.applyLog state w).store = w.store := congrArg (·.exec.store) hnode
    rw [← hnode]
    refine (happly.ack state).afterBroadcast ?_ hbehind ?_ ?_ ?_ hsign (hfsm.trans ?_)
    · rw [show _ = w.node from hnode]
      exact hsynced
    · rw [show _ = w.node from hnode]
      exact hnext
    · exact hstore ▸ hheader
    · exact hstore ▸ hdata
    · rw [hstate]

theorem commitBlock_signed (cfg : NodeConfig Tx) (env : ProduceEnv Tx) (applied : Bool)
    (header : SignedHeader) (data : Data Tx) (w : RaftLeader Tx) :
    (commitBlock cfg env applied header data (Node.nextState cfg env header.header w.node)
      w).2.store.signed = w.store.signed := by
  have herase := erases_commitBlock cfg env applied header data
    (Node.nextState cfg env header.header w.node) w
  have hnode := congrArg (fun q => q.2.exec.store.signed) herase
  refine hnode.symm.trans ?_
  have hacked : ∀ {r n}, Node.AckCommittedCase env.ack (Node.committed cfg env header data w.node)
      (r, n) → n.exec.store.signed = w.store.signed := by
    intro r n hack
    cases hack with
    | acked | failed | crash => exact Store.commitBatch_signed ..
  rcases Node.commitBlock_cases cfg env header data w.node with
    ⟨r, -, hc⟩ | ⟨n, hack, hc⟩ | ⟨r, n, -, hack, hc⟩
  · rw [hc]
    rfl
  · rw [hc]
    exact hacked hack
  · rw [hc]
    have hn := hacked hack
    exact hn

/-- **One `ProduceBlock` keeps the agreement.** -/
theorem Agrees.produceBlock (hraft : cfg.raftNode = true) (h : Agrees cfg sign fsm₀ height₀ w)
    (hsynced : w.node.Synced cfg.genesis) (hflag : w.node.PendingFlagged)
    (hbehind : Raft.FSM.height fsm₀ ≤ height₀) (env : ProduceEnv Tx) (applied : Bool)
    (hsign : ∀ x ∈ (RaftLeader.produceBlock cfg env applied w).2.store.signed.drop
      w.store.signed.length, env.signature = sign x)
    (htimes : TimesIncrease fsm₀ (RaftLeader.produceBlock cfg env applied w).2.store.signed) :
    Agrees cfg sign fsm₀ height₀ (RaftLeader.produceBlock cfg env applied w).2 := by
  have hcase := produceBlock_cases cfg env applied w
  generalize RaftLeader.produceBlock cfg env applied w = q at hcase hsign htimes
  cases hcase with
  | quiet r n hn => exact h.prepares hsynced hflag hn
  | proposed header data n hn hheight hheader hdata hsigned =>
    have hsame := commitBlock_signed cfg env applied header data { w with node := n }
    rw [hsame] at htimes hsign
    have hnew : ({ w with node := n } : RaftLeader Tx).store.signed =
      w.store.signed ++ [header.header] := hsigned
    refine (h.prepares hsynced hflag hn).commitBlock hraft (hn.synced hsynced) hbehind htimes applied
      hheight ?_ hheader hdata ?_
    · rw [hnew]
      exact List.mem_append_right _ (List.mem_singleton_self _)
    · refine hsign header.header ?_
      rw [hnew, List.drop_left]
      exact List.mem_singleton_self _

/-! ## Runs -/

/-- A step finds the flag of the pending block right, and its signature is that of `sign`. -/
def Steady (cfg : NodeConfig Tx) (sign : Header → Bytes) (l : Live (RaftLeader Tx))
    (op : Node.Op Tx × Bool) : Prop :=
  Node.FlagOk (l.map node) op.1 ∧ match op.1 with
    | .produce env => ∀ x ∈ (step cfg l op).state.store.signed.drop l.state.store.signed.length,
        env.signature = sign x
    | _ => True

/-- The chain of the node, which is up or down, and the machine. -/
structure Inv (cfg : NodeConfig Tx) (sign : Header → Bytes) (fsm₀ : Raft.FSM Tx) (height₀ : Nat)
    (l : Live (RaftLeader Tx)) : Prop where
  node : (l.map node).Holds (Node.SignsOnce cfg.genesis) fun n =>
    n.exec.store.SignedOnce cfg.genesis
  agrees : TimesIncrease fsm₀ l.state.store.signed → Agrees cfg sign fsm₀ height₀ l.state

omit [Transaction Tx] in
theorem Agrees.restarted (h : Agrees cfg sign fsm₀ height₀ w)
    (honce : w.store.SignedOnce cfg.genesis)
    (hr : Store.Restarted cfg.genesis w.store n.exec.store) :
    Agrees cfg sign fsm₀ height₀ { w with node := n } := by
  refine h.keep hr.lastHeight_eq (fun k hk => ?_) (fun x hx => hr.signed_eq.symm ▸ hx) ?_
  · rcases hr.moved with ⟨_, _, hblocks⟩ | ⟨_, _, _, _, hblocks | hblocks⟩
    · rw [hblocks]
    · rw [hblocks]
    · rw [hblocks, OrdMap.get?_delete, if_neg (by omega)]
  · rcases hr.moved with ⟨hheader, hdata, _⟩ | ⟨b, hb, _⟩
    · exact .inl ⟨hheader, hdata⟩
    · -- a block that was signed is not stored above the chain
      refine .inr fun r hr hheight => ?_
      have hnone := (honce.pending _ (h.signed r hr) ((h.isBlock hr).1 ▸ hheight)).2
      rw [hnone] at hb
      cases hb

theorem signed_produceBlock (cfg : NodeConfig Tx) (env : ProduceEnv Tx) (applied : Bool)
    (w : RaftLeader Tx) :
    ∀ x ∈ w.store.signed, x ∈ (RaftLeader.produceBlock cfg env applied w).2.store.signed := by
  have hcase := produceBlock_cases cfg env applied w
  generalize RaftLeader.produceBlock cfg env applied w = q at hcase
  cases hcase with
  | quiet r n hn => exact hn.signed
  | proposed header data n hn hheight hheader hdata hsigned =>
    rw [commitBlock_signed cfg env applied header data { w with node := n }]
    exact hn.signed

omit [Transaction Tx] in
theorem Agrees.congr (h : Agrees cfg sign fsm₀ height₀ w)
    (hlast : n.exec.store.lastHeight cfg.genesis = w.store.lastHeight cfg.genesis)
    (hblocks : n.exec.store.blocks = w.store.blocks) (hsigned : n.exec.store.signed = w.store.signed)
    (hheader : n.exec.store.pendingHeader = w.store.pendingHeader)
    (hdata : n.exec.store.pendingData = w.store.pendingData) :
    Agrees cfg sign fsm₀ height₀ { w with node := n } :=
  h.keep hlast (fun _ _ => by rw [hblocks]) (fun x hx => hsigned.symm ▸ hx) (.inl ⟨hheader, hdata⟩)

/-- **One step of a raft leader.** -/
theorem Inv.step (hraft : cfg.raftNode = true) (hbehind : Raft.FSM.height fsm₀ ≤ height₀)
    (l : Live (RaftLeader Tx)) (op : Node.Op Tx × Bool) (h : Inv cfg sign fsm₀ height₀ l)
    (hok : Steady cfg sign l op) : Inv cfg sign fsm₀ height₀ (RaftLeader.step cfg l op) := by
  obtain ⟨hflag, hsign⟩ := hok
  refine ⟨map_step cfg l op ▸ Node.signsOnce_step cfg _ op.1 h.node hflag, ?_⟩
  have honce : l.state.store.SignedOnce cfg.genesis := h.node.of_both fun _ hn => hn.once
  obtain ⟨op, applied⟩ := op
  cases op with
  | start env =>
    cases hup : l.up with
    | true =>
      have hsame := Live.boot_up (p := onNode (Node.start cfg env)) hup
      exact (congrArg Live.state hsame).symm ▸ h.agrees
    | false =>
      have hstate := Live.boot_down_state (p := onNode (Node.start cfg env)) hup
      have hr : Store.Restarted cfg.genesis l.state.store
          (Node.start cfg env l.state.node).2.exec.store := by
        refine state_of_wp (I := fun n => Store.Restarted cfg.genesis l.state.store n.exec.store)
          (wp_mono (Node.start_spec (fun _ => True) (fun _ => True) honce.wf
            (wp_of_state trivial fun _ _ => trivial)) ?_ ?_ ?_)
        · rintro _ n' ⟨s, _, hinit⟩
          exact hinit.store
        · exact fun _ n' hn' => hn'.1
        · exact fun n' hn' => hn'.1
      intro htimes
      have hagrees := h.agrees (htimes.mono fun x hx => ?_)
      · exact hstate.symm ▸ hagrees.restarted honce hr
      · rw [show (RaftLeader.step cfg l (.start env, applied)).state = _ from hstate]
        exact hr.signed_eq.symm ▸ hx
  | crash => exact h.agrees
  | stop deleteHeader deleteData =>
    refine Live.call_state (p := onNode (Node.stop deleteHeader deleteData))
      (P := fun w => TimesIncrease fsm₀ w.store.signed → Agrees cfg sign fsm₀ height₀ w)
      h.agrees fun hup htimes => ?_
    rw [onNode_state] at htimes ⊢
    rcases Node.stop_state deleteHeader deleteData l.state.node with hs | ⟨hfalse, _, _, _, _, hs⟩
    · rw [hs] at htimes ⊢
      exact h.agrees htimes
    · rw [hs] at htimes ⊢
      have hagrees := h.agrees htimes
      refine hagrees.keep rfl (fun _ _ => rfl) (fun _ => id) (.inr fun r hr hheight => ?_)
      have htrue := (hagrees.next_pending (h.node.1 hup).synced (hflag hup) hr hheight).1
      exact absurd (hfalse.symm.trans htrue) Bool.false_ne_true
  | submit put batch =>
    refine Live.call_state (P := fun w => TimesIncrease fsm₀ w.store.signed →
      Agrees cfg sign fsm₀ height₀ w) h.agrees fun _ htimes => ?_
    exact (h.agrees htimes).congr rfl rfl rfl rfl rfl
  | produce env =>
    have hcall : RaftLeader.step cfg l (.produce env, applied) =
      l.call (RaftLeader.produceBlock cfg env applied) := rfl
    rw [hcall] at hsign ⊢
    refine Live.call_state (P := fun w => TimesIncrease fsm₀ w.store.signed →
      Agrees cfg sign fsm₀ height₀ w) h.agrees fun hup htimes => ?_
    rw [Live.call_up hup] at hsign
    have hagrees := h.agrees (htimes.mono (signed_produceBlock cfg env applied l.state))
    exact hagrees.produceBlock hraft (h.node.1 hup).synced (hflag hup) hbehind env applied hsign
      htimes
  | genesisInclusion write height =>
    refine Live.call_state (p := onNode (Node.genesisInclusion write height))
      (P := fun w => TimesIncrease fsm₀ w.store.signed → Agrees cfg sign fsm₀ height₀ w)
      h.agrees fun _ htimes => ?_
    obtain ⟨g, d, hs⟩ := Node.genesisInclusion_state write height l.state.node
    rw [onNode_state, hs] at htimes ⊢
    exact (h.agrees htimes).congr rfl rfl rfl rfl rfl

end Invariant

/--
**Raft agrees with the chain of the leader.**

In a run of a raft leader whose state machine does not begin ahead of the chain, in which each
`ProduceBlock` and each `Stop` finds a stored pending block for the next height flagged, signing is
deterministic and timestamps increase with the height, the machine is at the block for which
`Broadcast` returned nil, and it held every block that was committed, and no other of its height.
-/
theorem raft_agrees [Transaction Tx] (cfg : NodeConfig Tx) (hraft : cfg.raftNode = true)
    (sign : Header → Bytes) (n0 : Node Tx) (fsm0 : Raft.FSM Tx)
    (hwf : n0.exec.store.WF cfg.genesis) (hsigned : n0.exec.store.signed = [])
    (hbehind : Raft.FSM.height fsm0 ≤ n0.exec.store.lastHeight cfg.genesis)
    (ops : List (Node.Op Tx × Bool))
    (hmeets : Run.Meets (step cfg) (Steady cfg sign) ⟨false, ⟨n0, fsm0, [], []⟩⟩ ops) :
    let w := (Run.exec (step cfg) ⟨false, ⟨n0, fsm0, [], []⟩⟩ ops).state
    TimesIncrease fsm0 w.store.signed →
      (∀ x ∈ w.acked, x.2 = some x.1) ∧ w.fsm = w.held.getLast?.or fsm0 ∧
      ∀ h b, n0.exec.store.lastHeight cfg.genesis < h → h ≤ w.store.lastHeight cfg.genesis →
        w.store.blocks.get? h = some b →
        (∃ r ∈ w.held, r.height = h) ∧
        ∀ r ∈ w.held, r.height = h → r = blockState cfg b.header b.data := by
  intro w htimes
  have hstart : Inv cfg sign fsm0 (n0.exec.store.lastHeight cfg.genesis)
      ⟨false, ⟨n0, fsm0, [], []⟩⟩ := by
    refine ⟨⟨fun hf => absurd hf Bool.false_ne_true, fun _ => .of_nil hwf hsigned⟩, fun _ => ?_⟩
    constructor
    · exact le_rfl
    · rfl
    · exact fun r hr => absurd hr List.not_mem_nil
    · exact fun r hr => absurd hr List.not_mem_nil
    · exact fun r hr => absurd hr List.not_mem_nil
    · exact fun r hr => absurd hr List.not_mem_nil
    · intro h hlt hle
      exact absurd hle (Nat.not_le.mpr hlt)
    · exact fun x hx => absurd hx List.not_mem_nil
  have hinv := Run.invariant (Inv cfg sign fsm0 (n0.exec.store.lastHeight cfg.genesis))
    (fun l op h hok => h.step hraft hbehind l op hok) ops _ hstart hmeets
  have hagrees := hinv.agrees htimes
  refine ⟨hagrees.acked, hagrees.fsm, fun h b hlt hle hget => ⟨hagrees.covered h hlt hle, ?_⟩⟩
  intro r hr hheight
  obtain ⟨b', hb', heq⟩ := hagrees.stored r hr (hheight ▸ hle)
  rw [hheight, hget] at hb'
  cases hb'
  exact heq

/-! ## Blocks that the machine never held -/

namespace RaftRun

def cfg : NodeConfig RawTx :=
  { NodeConfig.plain ⟨"chain", 1, 1, [1], 0, 1, Nat.one_pos, Nat.one_pos⟩ false with raftNode := true }

def env (now : Time) : ProduceEnv RawTx := .plain (.ofBlocks 0 []) now

/-- The commit fails after the block reached the machine. -/
def failing : ProduceEnv RawTx := { env 1000000000 with commit := .fail }

def run (ops : List (Node.Op RawTx)) : RaftLeader RawTx :=
  (Run.exec (step cfg) ⟨false, ⟨.plain cfg, none, [], []⟩⟩ (ops.map (·, false))).state

/-- A transaction arrives, and the same process produces the block again. -/
def retrying : List (Node.Op RawTx) :=
  [.start .plain, .produce failing, .submit .ok [⟨1, 5⟩], .produce (env 1000000000)]

/-- The second and the third block are produced at the same time. -/
def simultaneous : List (Node.Op RawTx) :=
  [.start .plain, .produce (env 1000000000), .produce (env 1000000000), .produce (env 1000000000)]

/-- The process crashes instead, and later produces another block. -/
def crashing : List (Node.Op RawTx) :=
  [.start .plain, .produce failing, .crash, .start .plain, .submit .ok [⟨1, 5⟩],
    .produce (env 1000000000), .produce (env 2000000000)]

def txsAt (h : Nat) (w : RaftLeader RawTx) : Option (List RawTx) :=
  (w.store.blocks.get? h).map fun b => b.data.txs

end RaftRun

open RaftRun in
/-- After the retry the chain has a transaction that the machine's block of the height has not. Of two
blocks with the same time the machine holds the first, and the leader commits both. -/
theorem unheld_block_committed :
    (run retrying).held.map (fun r => (r.height, r.data.txs)) = [(1, [])] ∧
    txsAt 1 (run retrying) = some [⟨1, 5⟩] ∧
    (run retrying).acked.map (fun x => (x.1.data.txs, x.2.map fun r => r.data.txs)) =
      [([], some []), ([⟨1, 5⟩], some [])] ∧
    (run simultaneous).held.map (fun r => r.height) = [1, 2] ∧
    (run simultaneous).store.height = 3 ∧
    (run simultaneous).acked.map (fun x => (x.1.height, Raft.FSM.height x.2)) =
      [(1, 1), (2, 2), (3, 2)] := by
  decide +kernel

open RaftRun in
/-- After a crash the block that the machine has is committed. -/
theorem raft_agrees_crashing :
    let w := run crashing
    w.held.map (fun r => (r.height, r.data.txs)) = [(1, []), (2, [⟨1, 5⟩])] ∧
      (∀ x ∈ w.acked, x.2 = some x.1) ∧ w.fsm = w.held.getLast?.or none ∧
      ∀ h b, 0 < h → h ≤ 2 → w.store.blocks.get? h = some b →
        (∃ r ∈ w.held, r.height = h) ∧
        ∀ r ∈ w.held, r.height = h → r = blockState cfg b.header b.data := by
  refine ⟨by decide +kernel, ?_⟩
  refine raft_agrees cfg rfl (fun _ => (env 0).signature) (.plain cfg) none ⟨?_, ?_, ?_⟩ rfl le_rfl
    (crashing.map (·, false)) ?_ ⟨by decide +kernel, by decide +kernel⟩
  · intro h state hget
    cases hget
  · exact fun _ => Nat.zero_le _
  · intro h b hget
    cases hget
  · refine ⟨⟨trivial, trivial⟩, ⟨fun _ => ?_, fun _ _ => rfl⟩, ⟨trivial, trivial⟩, ⟨trivial, trivial⟩,
      ⟨trivial, trivial⟩, ⟨fun _ => ?_, fun _ _ => rfl⟩, ⟨fun _ => ?_, fun _ _ => rfl⟩, trivial⟩
    · intro header hheader
      cases hheader
    · intro _ _ _
      decide +kernel
    · intro header hheader
      cases hheader
      decide +kernel

end RaftLeader

end EvNode
