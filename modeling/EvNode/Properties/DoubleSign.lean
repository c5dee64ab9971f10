import EvNode.Lib.Run
import EvNode.Properties.Synced

/-!
# No double signing

A header is signed only for the height after the last committed block. Until that height is
committed, the block that was signed stays the stored pending block, so a later `ProduceBlock`
should sign it again and nothing else. For this the flag `hasPendingBlock` must agree with the
store (`PendingFlagged`), but `savePendingBlock` does not set it.
-/

namespace EvNode

open Crash Proc

variable {Tx : Type}

/-! ## The invariant -/

/-- A height is signed once, and a signed header above the last height is the pending one. -/
structure Store.SignedOnce (genesis : Genesis) (s : Store Tx) : Prop where
  wf : s.WF genesis
  unique : ∀ h ∈ s.signed, ∀ h' ∈ s.signed, h.height = h'.height → h = h'
  below : ∀ h ∈ s.signed, h.height ≤ s.lastHeight genesis + 1
  pending : ∀ h ∈ s.signed, h.height = s.lastHeight genesis + 1 →
    (∃ header, s.pendingHeader = some header ∧ header.header = h) ∧
      s.blocks.get? (s.lastHeight genesis + 1) = none

namespace Store

variable {genesis : Genesis} {s s' : Store Tx}

theorem SignedOnce.of_nil (hwf : s.WF genesis) (hsigned : s.signed = []) :
    s.SignedOnce genesis := by
  have hnone : ∀ h, h ∉ s.signed := fun h => hsigned ▸ List.not_mem_nil
  exact ⟨hwf, fun h hh => absurd hh (hnone h), fun h hh => absurd hh (hnone h),
    fun h hh => absurd hh (hnone h)⟩

/-- Without a signed header at the next height, any block may become the pending one. -/
theorem SignedOnce.replacePending (h : s.SignedOnce genesis)
    (hnone : ∀ x ∈ s.signed, x.height ≠ s.lastHeight genesis + 1) (header : Option SignedHeader)
    (data : Option (Data Tx)) :
    ({ s with pendingHeader := header, pendingData := data } : Store Tx).SignedOnce genesis :=
  ⟨⟨h.wf.statesKeyed, h.wf.fresh, h.wf.bounded⟩, h.unique, h.below,
    fun x hx heq => absurd heq (hnone x hx)⟩

theorem SignedOnce.restarted (h : s.SignedOnce genesis) (hr : Restarted genesis s s') :
    s'.SignedOnce genesis := by
  refine ⟨hr.wf, ?_, ?_, ?_⟩
  · rw [hr.signed_eq]
    exact h.unique
  · rw [hr.signed_eq, hr.lastHeight_eq]
    exact h.below
  · rw [hr.signed_eq, hr.lastHeight_eq]
    intro x hx heq
    obtain ⟨hpending, hblock⟩ := h.pending x hx heq
    rcases hr.moved with ⟨hheader, _, hblocks⟩ | ⟨b, hb, _⟩
    · rw [hheader, hblocks]
      exact ⟨hpending, hblock⟩
    · rw [hblock] at hb
      cases hb

theorem SignedOnce.sign (h : s.SignedOnce genesis) {header : SignedHeader}
    (hpending : s.pendingHeader = some header)
    (hheight : header.header.height = s.lastHeight genesis + 1)
    (hblock : s.blocks.get? (s.lastHeight genesis + 1) = none) :
    ({ s with signed := s.signed ++ [header.header] } : Store Tx).SignedOnce genesis := by
  -- what was signed at this height before is this header
  have hsame : ∀ x ∈ s.signed, x.height = header.header.height → x = header.header := by
    intro x hx heq
    obtain ⟨⟨header', hheader', rfl⟩, _⟩ := h.pending x hx (heq.trans hheight)
    rw [Option.some.inj (hheader'.symm.trans hpending)]
  have hmem : ∀ {x}, x ∈ s.signed ++ [header.header] → x ∈ s.signed ∨ x = header.header := by
    intro x hx
    rcases List.mem_append.mp hx with hx | hx
    · exact .inl hx
    · exact .inr (List.mem_singleton.mp hx)
  refine ⟨⟨h.wf.statesKeyed, h.wf.fresh, h.wf.bounded⟩, ?_, ?_, ?_⟩
  · intro x hx y hy heq
    rcases hmem hx with hx | rfl
    · rcases hmem hy with hy | rfl
      · exact h.unique x hx y hy heq
      · exact hsame x hx heq
    · rcases hmem hy with hy | rfl
      · exact (hsame y hy heq.symm).symm
      · rfl
  · intro x hx
    rcases hmem hx with hx | rfl
    · exact h.below x hx
    · exact Nat.le_of_eq hheight
  · intro x hx heq
    rcases hmem hx with hx | rfl
    · exact h.pending x hx heq
    · exact ⟨⟨header, hpending, rfl⟩, hblock⟩

theorem SignedOnce.commit (h : s.SignedOnce genesis)
    {header : SignedHeader} (hheight : header.header.height = s.lastHeight genesis + 1)
    (data : Data Tx) (signature : Bytes) {state : State}
    (hstate : state.lastBlockHeight = header.header.height) :
    (Node.commitBatch header data signature state s).SignedOnce genesis := by
  obtain ⟨hwf, hlast, _, states, heq⟩ := h.wf.commitBatch hheight data signature hstate
  have hsigned : (Node.commitBatch header data signature state s).signed = s.signed := by rw [heq]
  refine ⟨hwf, ?_, ?_, ?_⟩
  · rw [hsigned]
    exact h.unique
  · rw [hsigned, hlast]
    intro x hx
    have hle := h.below x hx
    omega
  · rw [hsigned, hlast]
    intro x hx hx'
    have hle := h.below x hx
    omega

end Store

namespace Node

/-- A stored pending block for the next height is flagged in memory. -/
def PendingFlagged (n : Node Tx) : Prop :=
  ∀ header, n.exec.store.pendingHeader = some header → header.header.height = n.nextHeight →
    n.exec.hasPendingBlock = true

structure SignsOnce (genesis : Genesis) (n : Node Tx) : Prop where
  synced : n.Synced genesis
  once : n.exec.store.SignedOnce genesis

variable [Transaction Tx] {cfg : NodeConfig Tx} {n : Node Tx}

/-! ## One ProduceBlock -/

omit [Transaction Tx] in
theorem SignsOnce.congr {n' : Node Tx} (h : n.SignsOnce cfg.genesis)
    (hstore : n'.exec.store = n.exec.store) (hstate : n'.exec.lastState = n.exec.lastState) :
    n'.SignsOnce cfg.genesis := by
  refine ⟨h.synced.congr hstore hstate, ?_⟩
  rw [hstore]
  exact h.once

omit [Transaction Tx] in
theorem SignsOnce.unsigned (h : n.SignsOnce cfg.genesis) (hflag : n.PendingFlagged)
    (hnew : n.TakesNew) :
    ∀ x ∈ n.exec.store.signed, x.height ≠ n.exec.store.lastHeight cfg.genesis + 1 := by
  intro x hx heq
  obtain ⟨⟨header, hheader, rfl⟩, _⟩ := h.once.pending x hx heq
  have hheight : header.header.height = n.nextHeight := heq.trans h.synced.nextHeight_eq.symm
  exact hnew (hflag header hheader hheight) header hheader hheight

theorem SignsOnce.nextBlock {env : ProduceEnv Tx} {r : Exit Err (Option (SignedHeader × Data Tx))}
    {n' : Node Tx} (h : n.SignsOnce cfg.genesis) (hflag : n.PendingFlagged)
    (hr : NextBlockCase cfg env n (r, n')) : n'.SignsOnce cfg.genesis := by
  cases hr with
  | unread _ _ | reused _ _ _ => exact h
  | noBatch _ s _ _ _ _ | batchCrash s _ _ | unsaved _ s _ _ _ _ _ => exact h.congr rfl rfl
  | created batch s last hnew _ _ =>
    refine ⟨(h.synced.congr rfl rfl : (n.withSeq s).Synced cfg.genesis).withPending _, ?_⟩
    exact h.once.replacePending (h.unsigned hflag hnew) _ _

omit [Transaction Tx] in
theorem SignsOnce.sign (h : n.SignsOnce cfg.genesis) {header : SignedHeader}
    (hheight : header.header.height = n.nextHeight)
    (hpending : n.exec.store.pendingHeader = some header) :
    (recordSigned header.header n).SignsOnce cfg.genesis :=
  ⟨h.synced.recordSigned _,
    h.once.sign hpending (hheight.trans h.synced.nextHeight_eq) h.synced.next⟩

theorem SignsOnce.finishBlock {env : ProduceEnv Tx} {header : SignedHeader} {data : Data Tx}
    {r : Exit Err Unit} {n' : Node Tx} (h : n.SignsOnce cfg.genesis)
    (hheight : header.header.height = n.nextHeight)
    (hpending : n.exec.store.pendingHeader = some header)
    (hr : FinishCase cfg env header data n (r, n')) : n'.SignsOnce cfg.genesis := by
  have hsign := h.sign hheight hpending
  have hcommit : ∀ count, (committed cfg env header data (signed header count n)).SignsOnce
      cfg.genesis := by
    intro count
    have hs : (signed header count n).SignsOnce cfg.genesis := hsign.congr rfl rfl
    refine ⟨hs.synced.committed cfg env hheight data, ?_⟩
    have hheight' : ({ header with signature := env.signature } : SignedHeader).header.height =
      (signed header count n).exec.store.lastHeight cfg.genesis + 1 :=
        hheight.trans hs.synced.nextHeight_eq
    exact hs.once.commit hheight' data env.signature
      (rfl : (nextState cfg env header.header n).lastBlockHeight = header.header.height)
  have hack : ∀ count r n', AckCommittedCase env.ack
      (committed cfg env header data (signed header count n)) (r, n') →
      n'.SignsOnce cfg.genesis := by
    intro count r n' hack
    cases hack with
    | acked q _ | failed _ q _ | crash q _ => exact (hcommit count).congr rfl rfl
  cases hr with
  | unsigned _ _ => exact h
  | unsignable _ _ => exact hsign
  | invalid _ _ _ | uncommitted _ _ _ _ => exact hsign.congr rfl rfl
  | ackCrash count _ n' hc => exact hack count _ _ hc
  | done count _ r n' hc _ => exact (hack count _ _ hc).congr rfl rfl

/-- **One `ProduceBlock` keeps the invariant.** -/
theorem SignsOnce.produceBlock (h : n.SignsOnce cfg.genesis) (hflag : n.PendingFlagged)
    (env : ProduceEnv Tx) : (Node.produceBlock cfg env n).2.SignsOnce cfg.genesis := by
  have hretry : ∀ r n1, RetryCase env n (r, n1) → ∀ counter,
      (n1.counted counter).SignsOnce cfg.genesis ∧ (n1.counted counter).PendingFlagged := by
    intro r n1 hr counter
    cases hr with
    | nothing _ | acked q _ _ | failed _ _ q _ _ | crash q _ _ => exact ⟨h.congr rfl rfl, hflag⟩
  have hc := produceBlock_cases cfg env n
  generalize Node.produceBlock cfg env n = r at hc
  cases hc with
  | noQuorum _ => exact h
  | unacked r n1 h1 _ => exact (hretry _ _ h1 0).1.congr rfl rfl
  | skipped n1 h1 counter => exact (hretry _ _ h1 counter).1
  | noBlock n1 h1 counter r n2 h2 _ _ _ =>
    obtain ⟨hn1, hflag1⟩ := hretry _ _ h1 counter
    exact hn1.nextBlock hflag1 h2
  | block n1 h1 counter header data n2 h2 r n3 h3 =>
    obtain ⟨hn1, hflag1⟩ := hretry _ _ h1 counter
    obtain ⟨hheight, hpending, _⟩ := h2.ready
    exact (hn1.nextBlock hflag1 h2).finishBlock hheight hpending h3

/-! ## Runs -/

/-- The condition on each operation: `ProduceBlock` and `Stop` find the flag right. -/
def FlagOk (l : Live (Node Tx)) : Op Tx → Prop
  | .produce _ => l.up = true → l.state.PendingFlagged
  | .stop _ _ => l.up = true → l.state.PendingFlagged
  | _ => True

omit [Transaction Tx] in
/-- `Stop` deletes no block that was signed. -/
theorem SignsOnce.stop (h : n.SignsOnce cfg.genesis) (hflag : n.PendingFlagged)
    (deleteHeader deleteData : Outcome) :
    (Node.stop deleteHeader deleteData n).2.exec.store.SignedOnce cfg.genesis := by
  rcases stop_state deleteHeader deleteData n with hs | ⟨hfalse, header, data, _, _, hs⟩
  · rw [hs]
    exact h.once
  · rw [hs]
    refine h.once.replacePending (h.unsigned hflag fun htrue => ?_) header data
    exact absurd (hfalse.symm.trans htrue) Bool.false_ne_true

theorem signsOnce_step (cfg : NodeConfig Tx) (l : Live (Node Tx)) (op : Op Tx)
    (h : l.Holds (SignsOnce cfg.genesis) fun n => n.exec.store.SignedOnce cfg.genesis)
    (hok : FlagOk l op) :
    (step cfg l op).Holds (SignsOnce cfg.genesis) fun n => n.exec.store.SignedOnce cfg.genesis := by
  cases op with
  | start env =>
    refine h.boot fun honce => ?_
    refine wp_mono (start_spec (fun _ => True) (fun _ => True) honce.wf
      (wp_of_state trivial fun _ _ => trivial)) ?_ ?_ ?_
    · rintro _ n' ⟨s, _, hinit⟩
      exact ⟨hinit.synced, honce.restarted hinit.store⟩
    · exact fun _ n' hn' => honce.restarted hn'.1
    · exact fun n' hn' => honce.restarted hn'.1
  | crash => exact h.halt fun _ hn => hn.once
  | stop deleteHeader deleteData =>
    exact h.call_halt (fun _ hn => hn.once) fun hup =>
      (h.1 hup).stop (hok hup) deleteHeader deleteData
  | submit put batch =>
    refine Live.call_holds h.2 fun hup => wp_of_state ?_ fun _ hn => hn.once
    exact (h.1 hup).congr rfl rfl
  | produce env =>
    refine Live.call_holds h.2 fun hup => wp_of_state ?_ fun _ hn => hn.once
    exact (h.1 hup).produceBlock (hok hup) env
  | genesisInclusion write height =>
    refine Live.call_holds h.2 fun hup => wp_of_state ?_ fun _ hn => hn.once
    obtain ⟨g, d, hs⟩ := genesisInclusion_state write height l.state
    have hn := h.1 hup
    rw [hs]
    refine ⟨⟨⟨hn.synced.wf.statesKeyed, hn.synced.wf.fresh, hn.synced.wf.bounded⟩,
      hn.synced.lastHeight, hn.synced.stored, hn.synced.next⟩,
      ⟨⟨hn.synced.wf.statesKeyed, hn.synced.wf.fresh, hn.synced.wf.bounded⟩, hn.once.unique,
        hn.once.below, hn.once.pending⟩⟩

end Node

/--
**No double signing.**

In a run in which each `ProduceBlock` and each `Stop` finds a stored pending block for the next
height flagged, no two different headers of one height are handed to the signer.
-/
theorem no_double_signing [Transaction Tx] (cfg : NodeConfig Tx) (n0 : Node Tx)
    (hwf : n0.exec.store.WF cfg.genesis) (hsigned : n0.exec.store.signed = [])
    (ops : List (Node.Op Tx)) (hmeets : Run.Meets (Node.step cfg) Node.FlagOk ⟨false, n0⟩ ops) :
    let signed := (Run.exec (Node.step cfg) ⟨false, n0⟩ ops).state.exec.store.signed
    ∀ h ∈ signed, ∀ h' ∈ signed, h.height = h'.height → h = h' := by
  intro signed
  have hinv := Run.invariant (fun l : Live (Node Tx) => l.Holds (Node.SignsOnce cfg.genesis)
    fun n => n.exec.store.SignedOnce cfg.genesis) (Node.signsOnce_step cfg) ops ⟨false, n0⟩
    ⟨fun hf => absurd hf (by simp), fun _ => .of_nil hwf hsigned⟩ hmeets
  exact (hinv.of_both fun _ hn => hn.once).unique

/-! ## A retry in the same process -/

namespace DoubleSignRun

def cfg : NodeConfig RawTx :=
  .plain ⟨"chain", 0, 1, [1], 0, 1, Nat.one_pos, Nat.one_pos⟩ false

def env : ProduceEnv RawTx := .plain (.ofBlocks 0 []) 1000000000

/-- The commit of the first block fails after it was signed. -/
def failing : ProduceEnv RawTx := { env with commit := .fail }

def run (ops : List (Node.Op RawTx)) : List Header :=
  (Run.exec (Node.step cfg) ⟨false, .plain cfg⟩ ops).state.exec.store.signed

/-- A transaction arrives, and the same process produces the block again. -/
def retrying : List (Node.Op RawTx) :=
  [.start .plain, .produce failing, .submit .ok [⟨1, 5⟩], .produce env]

/-- The process is stopped and started before it produces the block again. -/
def stopping : List (Node.Op RawTx) :=
  [.start .plain, .produce failing, .stop .ok .ok, .start .plain, .submit .ok [⟨1, 5⟩],
    .produce env]

/-- The process crashes instead. -/
def crashing : List (Node.Op RawTx) :=
  [.start .plain, .produce failing, .crash, .start .plain, .submit .ok [⟨1, 5⟩], .produce env]

end DoubleSignRun

open DoubleSignRun in
/-- Two headers of height 1 are signed: one without transactions, one with the transaction. -/
theorem retry_signs_twice :
    (run retrying).map (fun h => (h.height, h.dataHash)) = [(1, []), (1, [1])] ∧
      (run stopping).map (fun h => (h.height, h.dataHash)) = [(1, []), (1, [1])] := by
  decide

open DoubleSignRun in
/-- After a crash the pending block is signed again. -/
theorem no_double_signing_crashing :
    (run crashing).map Header.height = [1, 1] ∧
      ∀ h ∈ run crashing, ∀ h' ∈ run crashing, h.height = h'.height → h = h' := by
  refine ⟨by decide, ?_⟩
  refine no_double_signing cfg (.plain cfg) ⟨?_, ?_, ?_⟩ rfl crashing ?_
  · intro h state hget
    cases hget
  · exact fun _ => Nat.zero_le _
  · intro h b hget
    cases hget
  · refine ⟨trivial, fun _ => ?_, trivial, trivial, trivial, fun _ => ?_, trivial⟩
    · intro header hheader
      cases hheader
    · intro _ _ _
      decide

end EvNode
