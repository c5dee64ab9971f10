import EvNode.Lib.Run
import EvNode.Properties.Synced
import EvNode.Submitting.Pending

/-!
# The pending limit

`ProduceBlock` is to pause when too many headers wait for DA. With a limit of at most 64 the check is
made in every call, and no more headers wait than the limit (`LimitedNode.unconfirmed_bounded`).

With a larger limit the check is made in every 64th call only. A call that is skipped still moves the
counter, so the 63 calls after it produce blocks whatever waits, and the number of waiting headers has
no bound.
-/

namespace EvNode

open Crash Proc

variable {Tx : Type}

/-- A node with the cursor of its header submission. `confirmed` is a history no function reads: the
height up to which the headers are confirmed on DA. -/
structure LimitedNode (Tx : Type) where
  live : Live (Node Tx)
  headers : PendingBase
  confirmed : Nat

namespace LimitedNode

inductive Op (Tx : Type) where
  | node (op : Node.Op Tx)
  | confirm (height : Nat) (written : Bool)

/-- What `ProduceBlock` reads of the cursor. The number of pending data stays arbitrary. -/
def counting (w : LimitedNode Tx) (env : ProduceEnv Tx) : ProduceEnv Tx :=
  { env with numPendingHeaders := w.headers.numPending w.live.state.exec.store.height }

/-- A start reads the cursor back from the store. -/
def step [Transaction Tx] (cfg : NodeConfig Tx) (w : LimitedNode Tx) : Op Tx → LimitedNode Tx
  | .node (.produce env) => { w with live := w.live.call (Node.produceBlock cfg (w.counting env)) }
  | .node (.start env) =>
    { w with
      live := Node.step cfg w.live (.start env)
      headers := .newPendingBase w.headers.stored }
  | .node op => { w with live := Node.step cfg w.live op }
  | .confirm height written =>
    { w with
      headers := w.headers.setLastSubmittedHeight height written
      confirmed := max w.confirmed height }

/-- The number of produced blocks whose headers are not confirmed. -/
def unconfirmed (genesis : Genesis) (w : LimitedNode Tx) : Nat :=
  w.live.state.exec.store.lastHeight genesis - max w.confirmed (genesis.initialHeight - 1)

/-- A process that was not started yet, with a datastore on which nothing is submitted. -/
def fresh (n0 : Node Tx) : LimitedNode Tx := ⟨⟨false, n0⟩, .newPendingBase none, 0⟩

end LimitedNode

/-! ## One call -/

namespace Node

section Produce

variable [Transaction Tx] {cfg : NodeConfig Tx} {env : ProduceEnv Tx} {n : Node Tx}

theorem RetryCase.exec_eq {r : Exit Err Unit} {n1 : Node Tx} (h : RetryCase env n (r, n1)) :
    n1.exec.store = n.exec.store ∧ n1.exec.lastState = n.exec.lastState := by
  cases h with
  | nothing _ | acked q _ _ | failed _ _ q _ _ | crash q _ _ => exact ⟨rfl, rfl⟩

/-- With a limit of at most 64, a call that finds as many headers waiting produces nothing. -/
theorem produceBlock_limited (hpos : 0 < cfg.maxPendingHeadersAndData)
    (hsmall : cfg.maxPendingHeadersAndData ≤ 64)
    (hlimit : cfg.maxPendingHeadersAndData ≤ env.numPendingHeaders) :
    (produceBlock cfg env n).2.exec.store = n.exec.store ∧
      (produceBlock cfg env n).2.exec.lastState = n.exec.lastState := by
  unfold produceBlock
  cases hq : (!cfg.raftNode || env.quorum) with
  | false =>
    rw [bind_run_error (require_run_false rfl _ _)]
    exact ⟨rfl, rfl⟩
  | true =>
    rw [bind_run_ok (require_run_true rfl _ _)]
    have h1 := retryAck_cases env n
    rcases hretry : retryAck env n with ⟨r, n1⟩
    rw [hretry] at h1
    cases r with
    | error e =>
      rw [bind_run_error hretry]
      exact h1.exec_eq
    | crash =>
      rw [bind_run_crash hretry]
      exact h1.exec_eq
    | ok u =>
      have hskip : pendingLimitReached cfg env n1 =
          (.ok true, n1.counted (n1.exec.pendingCheckCounter + 1)) := by
        unfold pendingLimitReached
        rw [if_pos hpos]
        show (Exit.ok _, _) = (Exit.ok true, _)
        simp [hsmall, hlimit, counted]
      rw [bind_run_ok hretry, bind_run_ok hskip]
      exact h1.exec_eq

variable {genesis : Genesis}

theorem Synced.nextBlock {r : Exit Err (Option (SignedHeader × Data Tx))} {n' : Node Tx}
    (h : n.Synced genesis) (hr : NextBlockCase cfg env n (r, n')) :
    n'.Synced genesis ∧ n'.exec.store.lastHeight genesis = n.exec.store.lastHeight genesis := by
  cases hr with
  | unread _ _ | reused _ _ _ => exact ⟨h, rfl⟩
  | noBatch _ s _ _ _ _ | batchCrash s _ _ | unsaved _ s _ _ _ _ _ =>
    exact ⟨h.congr rfl rfl, rfl⟩
  | created batch s last _ _ _ =>
    exact ⟨(h.congr rfl rfl : (n.withSeq s).Synced genesis).withPending _, rfl⟩

theorem Synced.finishBlock {header : SignedHeader} {data : Data Tx} {r : Exit Err Unit}
    {n' : Node Tx} (h : n.Synced genesis) (hheight : header.header.height = n.nextHeight)
    (hr : FinishCase cfg env header data n (r, n')) :
    n'.Synced genesis ∧ n'.exec.store.lastHeight genesis ≤ n.exec.store.lastHeight genesis + 1 := by
  have hack : ∀ count r n', AckCommittedCase env.ack
      (Node.committed cfg env header data (Node.signed header count n)) (r, n') →
      n'.Synced genesis ∧
        n'.exec.store.lastHeight genesis ≤ n.exec.store.lastHeight genesis + 1 := by
    intro count r n' hack
    have hs := h.signed header count
    have hc := hs.committed cfg env hheight data
    have hlast := (hs.commitBatch cfg env hheight data).2.1
    have hnext : (Node.signed header count n).nextHeight =
        n.exec.store.lastHeight genesis + 1 := h.nextHeight_eq
    rw [hnext] at hlast
    cases hack with
    | acked q _ | failed _ q _ | crash q _ => exact ⟨hc.congr rfl rfl, Nat.le_of_eq hlast⟩
  cases hr with
  | unsigned _ _ => exact ⟨h, Nat.le_succ _⟩
  | unsignable _ _ => exact ⟨h.recordSigned _, Nat.le_succ _⟩
  | invalid _ count _ | uncommitted count _ _ _ => exact ⟨h.signed header count, Nat.le_succ _⟩
  | ackCrash count _ n' hc => exact hack count _ _ hc
  | done count _ r n' hc _ =>
    obtain ⟨hs, hle⟩ := hack count _ _ hc
    exact ⟨hs.congr rfl rfl, hle⟩

theorem Synced.produceBlock (h : n.Synced genesis) (cfg : NodeConfig Tx) (env : ProduceEnv Tx) :
    (Node.produceBlock cfg env n).2.Synced genesis ∧
      (Node.produceBlock cfg env n).2.exec.store.lastHeight genesis ≤
        n.exec.store.lastHeight genesis + 1 := by
  have hretry : ∀ {r n1}, RetryCase env n (r, n1) → ∀ counter,
      (n1.counted counter).Synced genesis ∧
        (n1.counted counter).exec.store.lastHeight genesis = n.exec.store.lastHeight genesis :=
    fun h1 counter => ⟨h.congr h1.exec_eq.1 h1.exec_eq.2,
      congrArg (Store.lastHeight genesis) h1.exec_eq.1⟩
  have hc := produceBlock_cases cfg env n
  generalize Node.produceBlock cfg env n = r at hc
  cases hc with
  | noQuorum _ => exact ⟨h, Nat.le_succ _⟩
  | unacked r n1 h1 _ =>
    obtain ⟨hn1, hlast⟩ := hretry h1 0
    exact ⟨hn1.congr rfl rfl, Nat.le_succ_of_le (Nat.le_of_eq hlast)⟩
  | skipped n1 h1 counter =>
    obtain ⟨hn1, hlast⟩ := hretry h1 counter
    exact ⟨hn1, Nat.le_succ_of_le (Nat.le_of_eq hlast)⟩
  | noBlock n1 h1 counter r n2 h2 _ _ _ =>
    obtain ⟨hn1, hlast⟩ := hretry h1 counter
    obtain ⟨hn2, hlast2⟩ := hn1.nextBlock h2
    exact ⟨hn2, Nat.le_succ_of_le (Nat.le_of_eq (hlast2.trans hlast))⟩
  | block n1 h1 counter header data n2 h2 r n3 h3 =>
    obtain ⟨hn1, hlast⟩ := hretry h1 counter
    obtain ⟨hn2, hlast2⟩ := hn1.nextBlock h2
    obtain ⟨hn3, hle⟩ := hn2.finishBlock h2.ready.1 h3
    exact ⟨hn3, hlast2.trans hlast ▸ hle⟩

end Produce

end Node

/-! ## Runs -/

/-- The disk: a well-formed store with no block above the bound. -/
structure Store.UpTo (genesis : Genesis) (bound : Nat) (s : Store Tx) : Prop where
  wf : s.WF genesis
  le : s.lastHeight genesis ≤ bound

namespace Node

variable {cfg : NodeConfig Tx} {genesis : Genesis} {bound : Nat}

/-- A running node with no block above the bound. -/
structure SyncedUpTo (genesis : Genesis) (bound : Nat) (n : Node Tx) : Prop where
  synced : n.Synced genesis
  le : n.exec.store.lastHeight genesis ≤ bound

theorem SyncedUpTo.onDisk {n : Node Tx} (h : n.SyncedUpTo genesis bound) :
    n.exec.store.UpTo genesis bound := ⟨h.synced.wf, h.le⟩

theorem syncedUpTo_step [Transaction Tx] (l : Live (Node Tx)) (op : Op Tx)
    (hop : ∀ env, op ≠ .produce env)
    (h : l.Holds (SyncedUpTo cfg.genesis bound) fun n => n.exec.store.UpTo cfg.genesis bound) :
    (step cfg l op).Holds (SyncedUpTo cfg.genesis bound)
      fun n => n.exec.store.UpTo cfg.genesis bound := by
  cases op with
  | start env =>
    refine h.boot fun hdisk => ?_
    refine wp_mono (start_spec (fun _ => True) (fun _ => True) hdisk.wf
      (wp_of_state trivial fun _ _ => trivial)) ?_ ?_ ?_
    · rintro _ n' ⟨s, _, hinit⟩
      exact ⟨hinit.synced, hinit.store.lastHeight_eq ▸ hdisk.le⟩
    · exact fun _ n' hn' => ⟨hn'.1.wf, hn'.1.lastHeight_eq ▸ hdisk.le⟩
    · exact fun n' hn' => ⟨hn'.1.wf, hn'.1.lastHeight_eq ▸ hdisk.le⟩
  | crash => exact h.halt fun _ hn => hn.onDisk
  | stop deleteHeader deleteData =>
    refine h.call_halt (fun _ hn => hn.onDisk) fun hup => ?_
    have hn := (h.1 hup).onDisk
    rcases stop_state deleteHeader deleteData l.state with hs | ⟨_, header, data, _, _, hs⟩
    · rw [hs]
      exact hn
    · rw [hs]
      exact ⟨⟨hn.wf.statesKeyed, hn.wf.fresh, hn.wf.bounded⟩, hn.le⟩
  | submit put batch =>
    refine Live.call_holds h.2 fun hup => wp_of_state ?_ fun _ hn => hn.onDisk
    exact ⟨(h.1 hup).synced.congr rfl rfl, (h.1 hup).le⟩
  | produce env => exact absurd rfl (hop env)
  | genesisInclusion write height =>
    refine Live.call_holds h.2 fun hup => wp_of_state ?_ fun _ hn => hn.onDisk
    obtain ⟨g, d, hs⟩ := genesisInclusion_state write height l.state
    obtain ⟨hsynced, hle⟩ := h.1 hup
    rw [hs]
    exact ⟨⟨⟨hsynced.wf.statesKeyed, hsynced.wf.fresh, hsynced.wf.bounded⟩,
      hsynced.lastHeight, hsynced.stored, hsynced.next⟩, hle⟩

end Node

namespace LimitedNode

variable {cfg : NodeConfig Tx} {w : LimitedNode Tx}

/-- The height no block may be above. -/
def bound (cfg : NodeConfig Tx) (w : LimitedNode Tx) : Nat :=
  max w.confirmed (cfg.genesis.initialHeight - 1) + cfg.maxPendingHeadersAndData

/-- At most as many headers wait as the limit allows, and the cursor is not ahead of what is
confirmed. -/
structure Bounded (cfg : NodeConfig Tx) (w : LimitedNode Tx) : Prop where
  node : w.live.Holds (Node.SyncedUpTo cfg.genesis (w.bound cfg))
    fun n => n.exec.store.UpTo cfg.genesis (w.bound cfg)
  cursor : w.headers.lastHeight ≤ w.confirmed
  stored : ∀ h, w.headers.stored = some h → h ≤ w.confirmed

theorem Bounded.start (h : w.Bounded cfg) :
    (PendingBase.newPendingBase w.headers.stored).lastHeight ≤ w.confirmed := by
  unfold PendingBase.newPendingBase
  cases hs : w.headers.stored with
  | none => exact Nat.zero_le _
  | some k => exact h.stored k hs

theorem Bounded.confirm (h : w.Bounded cfg) (height : Nat) (written : Bool) :
    ({ w with
      headers := w.headers.setLastSubmittedHeight height written
      confirmed := max w.confirmed height } : LimitedNode Tx).Bounded cfg := by
  have hbound : w.bound cfg ≤ bound cfg { w with
      headers := w.headers.setLastSubmittedHeight height written
      confirmed := max w.confirmed height } := by
    simp only [bound]
    omega
  refine ⟨⟨fun hup => ?_, fun hdown => ?_⟩, ?_, fun k hk => ?_⟩
  · exact ⟨(h.node.1 hup).synced, Nat.le_trans (h.node.1 hup).le hbound⟩
  · exact ⟨(h.node.2 hdown).wf, Nat.le_trans (h.node.2 hdown).le hbound⟩
  · have := h.cursor
    simp only [PendingBase.setLastSubmittedHeight]
    split
    · exact Nat.le_max_right _ _
    · omega
  · have hold : w.headers.stored = some k → k ≤ max w.confirmed height := fun hs =>
      Nat.le_trans (h.stored k hs) (Nat.le_max_left _ _)
    simp only [PendingBase.setLastSubmittedHeight] at hk
    split at hk
    · cases written with
      | true =>
        cases hk
        exact Nat.le_max_right _ _
      | false => exact hold hk
    · exact hold hk

/-- A call that adds a block found fewer headers waiting than the limit. -/
theorem Bounded.produce [Transaction Tx] (h : w.Bounded cfg)
    (hpos : 0 < cfg.maxPendingHeadersAndData) (hsmall : cfg.maxPendingHeadersAndData ≤ 64)
    (env : ProduceEnv Tx) {n : Node Tx} (hn : n.SyncedUpTo cfg.genesis (w.bound cfg))
    (heq : w.live.state = n) :
    (Node.produceBlock cfg (w.counting env) n).2.SyncedUpTo cfg.genesis (w.bound cfg) := by
  by_cases hlimit : cfg.maxPendingHeadersAndData ≤ (w.counting env).numPendingHeaders
  · obtain ⟨hstore, hstate⟩ := Node.produceBlock_limited (n := n) hpos hsmall hlimit
    exact ⟨hn.synced.congr hstore hstate, hstore ▸ hn.le⟩
  · obtain ⟨hsynced, hle⟩ := hn.synced.produceBlock cfg (w.counting env)
    refine ⟨hsynced, Nat.le_trans hle ?_⟩
    have hheight := hn.synced.wf.lastHeight_eq hn.synced.stored
    have hcursor := h.cursor
    -- Either the cursor is ahead of the store, or fewer heights than the limit lie in between.
    simp only [counting, PendingBase.numPending, heq] at hlimit
    unfold bound
    split at hlimit <;> omega

theorem bounded_step [Transaction Tx] (cfg : NodeConfig Tx)
    (hpos : 0 < cfg.maxPendingHeadersAndData) (hsmall : cfg.maxPendingHeadersAndData ≤ 64)
    (w : LimitedNode Tx) (op : Op Tx) (h : w.Bounded cfg) : (step cfg w op).Bounded cfg := by
  cases op with
  | confirm height written => exact h.confirm height written
  | node op =>
    cases op with
    | produce env =>
      refine ⟨?_, h.cursor, h.stored⟩
      refine Live.call_holds h.node.2 fun hup => wp_of_state ?_ fun _ hn => hn.onDisk
      exact h.produce hpos hsmall env (h.node.1 hup) rfl
    | start env =>
      exact ⟨Node.syncedUpTo_step w.live (.start env) (by simp) h.node, h.start, h.stored⟩
    | crash => exact ⟨Node.syncedUpTo_step w.live .crash (by simp) h.node, h.cursor, h.stored⟩
    | stop deleteHeader deleteData =>
      exact ⟨Node.syncedUpTo_step w.live (.stop _ _) (by simp) h.node, h.cursor, h.stored⟩
    | submit put batch =>
      exact ⟨Node.syncedUpTo_step w.live (.submit _ _) (by simp) h.node, h.cursor, h.stored⟩
    | genesisInclusion write height =>
      exact ⟨Node.syncedUpTo_step w.live (.genesisInclusion _ _) (by simp) h.node, h.cursor,
        h.stored⟩

/-- With a limit of at most 64, the number of produced blocks whose headers are not confirmed stays
within the limit, over every run of calls, confirmations, crashes and restarts. -/
theorem unconfirmed_bounded [Transaction Tx] (cfg : NodeConfig Tx)
    (hpos : 0 < cfg.maxPendingHeadersAndData) (hsmall : cfg.maxPendingHeadersAndData ≤ 64)
    (n0 : Node Tx) (hwf : n0.exec.store.WF cfg.genesis) (hnew : n0.exec.store.getState = none)
    (ops : List (Op Tx)) :
    (Run.exec (step cfg) (fresh n0) ops).unconfirmed cfg.genesis ≤
      cfg.maxPendingHeadersAndData := by
  have hstart : (fresh n0).Bounded cfg := by
    refine ⟨⟨fun hf => absurd hf (by simp [fresh]), fun _ => ⟨hwf, ?_⟩⟩, Nat.zero_le _, nofun⟩
    have hlast : n0.exec.store.lastHeight cfg.genesis = cfg.genesis.initialHeight - 1 := by
      simp [Store.lastHeight, hnew]
    show n0.exec.store.lastHeight cfg.genesis ≤ _
    rw [hlast]
    unfold bound
    omega
  have hrun := Run.invariant_all (Bounded cfg) (bounded_step cfg hpos hsmall) ops _ hstart
  have hle := (hrun.node.of_both fun _ hn => hn.onDisk).le
  unfold bound at hle
  unfold unconfirmed
  omega

end LimitedNode

/-! ## A limit above 64 -/

namespace PendingLimitRun

def cfg (limit : Nat) : NodeConfig RawTx :=
  { NodeConfig.plain ⟨"chain", 0, 1, [1], 0, 1, Nat.one_pos, Nat.one_pos⟩ false with
    maxPendingHeadersAndData := limit }

def env : ProduceEnv RawTx := .plain (.ofBlocks 0 []) 1000000000

/-- A start, then calls of `ProduceBlock` while DA confirms nothing. -/
def stalled (calls : Nat) : List (LimitedNode.Op RawTx) :=
  .node (.start .plain) :: List.replicate calls (.node (.produce env))

def unconfirmed (limit calls : Nat) : Nat :=
  (Run.exec (LimitedNode.step (cfg limit)) (.fresh (.plain (cfg limit))) (stalled calls)).unconfirmed
    (cfg limit).genesis

end PendingLimitRun

open PendingLimitRun in
/-- With the limit 2 the third call is skipped. -/
theorem unconfirmed_bounded_two : unconfirmed 2 5 = 2 ∧ unconfirmed 2 5 ≤ 2 :=
  ⟨by decide, LimitedNode.unconfirmed_bounded (cfg 2) (by decide) (by decide) (.plain (cfg 2))
    ⟨nofun, fun _ => Nat.zero_le _, nofun⟩ rfl (stalled 5)⟩

open PendingLimitRun in
/-- With the limit 65 the 128th call is skipped and the next ones are not. -/
theorem unconfirmed_beyond_limit : 65 + 64 < unconfirmed 65 131 := by decide +kernel

end EvNode
