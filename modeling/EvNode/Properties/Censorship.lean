import EvNode.Properties.Tracking

/-!
# When censorship is detected

A forced transaction that no block contains is looked up, and missed, when its epoch is checked.
The check of an epoch is due when a block arrives behind its grace window, at most four epochs
after its end. But `initializeState` takes every epoch that the stored DA height has reached as
checked, so an epoch whose grace window is open at a restart is never checked.
-/

namespace EvNode

open Crash Proc

variable {Tx : Type} [Transaction Tx]

/-- A verification at `daHeight` is shown the forced transaction `t` of the epoch that ends at `e`:
the DA layer answers every height below `daHeight`, and the executor answers and finds `t`
valid. -/
structure VerifyEnv.Shows (genesis : Genesis) (content : Nat → List Tx) (e : Nat) (t : Tx)
    (daHeight : Nat) (env : VerifyEnv Tx) : Prop where
  truthful : env.da.Truthful content
  answered : ∀ h < daHeight, genesis.daStartHeight ≤ h → env.da.Answered h
  info : env.executor.maxGas ≠ none
  filters : ∀ txs gas, env.executor.filterTxs txs defaultMaxBlobSize gas true ≠ none
  valid : ∀ gas statuses,
    env.executor.filterTxs (genesis.forcedTxs content e) defaultMaxBlobSize gas true =
      some statuses → (t, FilterStatus.ok) ∈ (genesis.forcedTxs content e).zip statuses

namespace ForcedInclusion

variable {genesis : Genesis} {s : ForcedInclusion Tx} {env : VerifyEnv Tx}
  {content : Nat → List Tx} {e daHeight : Nat} {t : Tx} {txs : List Tx}

/-- The epoch that ends at `e` is not checked yet, and `t` has not been seen. -/
structure Open (genesis : Genesis) (e : Nat) (t : Tx) (s : ForcedInclusion Tx) : Prop where
  aligned : s.Aligned genesis
  unchecked : s.startEpochEnd genesis ≤ e
  unseen : Transaction.hash t ∉ s.seenBlockTxs

theorem CheckCase.missed {maxGas missing : Nat} {s' : ForcedInclusion Tx}
    (h : CheckCase (genesis.retriever true) env maxGas e s (.ok missing, s'))
    (he : genesis.IsEpochEnd e) (hans : (genesis.retriever true).EpochAnswered env.da e)
    (hshow : env.Shows genesis content e t daHeight) (ht : t ∈ genesis.forcedTxs content e)
    (hunseen : Transaction.hash t ∉ s.seenBlockTxs) :
    0 < missing ∧ ⟨e, t, false⟩ ∈ s'.lookups := by
  obtain ⟨event, hr, htxs⟩ := hshow.truthful.retrieve_answered he hans
  cases h with
  | empty event' hr' hnil =>
    obtain rfl : event' = event := Except.ok.inj (hr'.symm.trans hr)
    rw [hnil] at htxs
    rw [← htxs] at ht
    cases ht
  | checked event' statuses hr' _ hf =>
    obtain rfl : event' = event := Except.ok.inj (hr'.symm.trans hr)
    rw [htxs] at hf
    have hlook : (⟨e, t, false⟩ : Lookup Tx) ∈ s.epochLookups e event'.txs statuses := by
      rw [htxs]
      simpa [hunseen] using mem_epochLookups (s := s) (e := e) (hshow.valid _ _ hf)
    refine ⟨List.countP_pos_iff.mpr ⟨_, hlook, rfl⟩, ?_⟩
    rw [epochChecked_lookups]
    exact List.mem_append_right _ hlook

/-- The loop has not come to the epoch of `t`, or has counted `t`. -/
structure Watching (genesis : Genesis) (start : Nat) (recorded : ForcedInclusion Tx) (e : Nat)
    (t : Tx) (epochEnd count : Nat) (s : ForcedInclusion Tx) : Prop where
  at_ : LoopAt genesis start recorded epochEnd s
  counted : e < epochEnd → 0 < count ∧ ⟨e, t, false⟩ ∈ s.lookups

/-- Before the loop has come to the epoch of `t`, that epoch is open. -/
theorem Watching.isOpen {start epochEnd count : Nat} {recorded : ForcedInclusion Tx}
    (h : Watching genesis start recorded e t epochEnd count s) (he : genesis.IsEpochEnd e)
    (hle : epochEnd ≤ e) (hunseen : Transaction.hash t ∉ recorded.seenBlockTxs) :
    s.Open genesis e t := by
  have hsize := genesis.daEpochForcedInclusion_pos
  refine ⟨h.at_.aligned, h.at_.aligned.startEpochEnd_le he fun hpos => ?_,
    fun hs => hunseen (h.at_.seen_subset hs)⟩
  have := h.at_.last hpos
  omega

omit [Transaction Tx] in
/-- A check that did not come to the epoch of `t` is one before the end of its grace window. -/
theorem le_of_not_reached {epochEnd : Nat} (hle : epochEnd ≤ e)
    (hstop : daHeight ≤ s.graceBoundary genesis epochEnd) :
    daHeight ≤ e + maxGracePeriodEpochs * genesis.daEpochForcedInclusion :=
  (hstop.trans (graceBoundary_le genesis s epochEnd)).trans (Nat.add_le_add_right hle _)

/-- **One verification.** It misses `t` and accuses, or the epoch of `t` stays open; the latter
only before the end of the grace window, or when the call returns early. -/
theorem Open.verify (h : s.Open genesis e t) (he : genesis.IsEpochEnd e)
    (ht : t ∈ genesis.forcedTxs content e) (hshow : env.Shows genesis content e t daHeight)
    (hblock : Transaction.hash t ∉ txs.map Transaction.hash) (lastDAHeight : Nat) :
    let v := verifyForcedInclusionTxs genesis (some (genesis.retriever true)) env lastDAHeight
      daHeight txs s
    (∃ n, v.1 = .error (accusation n) ∧ ⟨e, t, false⟩ ∈ v.2.lookups) ∨
      (v.2.Open genesis e t ∧ (daHeight < genesis.daStartHeight ∨ daHeight < lastDAHeight ∨
        daHeight ≤ e + maxGracePeriodEpochs * genesis.daEpochForcedInclusion)) := by
  have hunseen : Transaction.hash t ∉ (s.recordBlock daHeight txs).seenBlockTxs := by
    intro hs
    rcases Finset.mem_union.mp hs with hs | hs
    · exact h.unseen hs
    · exact hblock (List.mem_toFinset.mp hs)
  have haligned : (s.recordBlock daHeight txs).Aligned genesis := h.aligned
  have hrec : (s.recordBlock daHeight txs).Open genesis e t := ⟨haligned, h.unchecked, hunseen⟩
  have hanswered : ∀ {epochEnd}, genesis.IsEpochEnd epochEnd → epochEnd < daHeight →
      (genesis.retriever true).EpochAnswered env.da epochEnd := by
    intro epochEnd hend hlt x hx
    obtain ⟨hge, hle⟩ := hend.of_mem_heights hx
    exact hshow.answered x (by omega) hge
  have hc : VerifyCase genesis (genesis.retriever true) env lastDAHeight daHeight
      (fun _ => Watching genesis (s.startEpochEnd genesis) (s.recordBlock daHeight txs) e t)
      (s.recordBlock daHeight txs)
      (verifyForcedInclusionTxs genesis (some (genesis.retriever true)) env lastDAHeight daHeight
        txs s) := by
    refine verify_cases (fun maxGas _ => ?_) (fun _ => ⟨.init haligned, fun hlt =>
      absurd h.unchecked (Nat.not_le.mpr hlt)⟩)
    intro epochEnd count s1 missing s2 hw hgo hcheck
    refine ⟨hw.at_.turn hcheck, fun hlt => ?_⟩
    have hbelow := Nat.lt_of_le_of_lt (add_le_graceBoundary genesis s1 epochEnd) hgo
    rcases Nat.lt_trichotomy epochEnd e with hbefore | rfl | hbehind
    · have := hw.at_.isEnd.add_le_of_lt he hbefore
      omega
    · obtain ⟨hmissing, hlook⟩ := hcheck.missed he (hanswered he (by omega)) hshow ht
        fun hs => hunseen (hw.at_.seen_subset hs)
      exact ⟨by omega, hlook⟩
    · obtain ⟨hcount, hlook⟩ := hw.counted hbehind
      obtain ⟨l, hl⟩ := hcheck.lookups_append
      exact ⟨by omega, hl ▸ List.mem_append_left _ hlook⟩
  generalize verifyForcedInclusionTxs genesis (some (genesis.retriever true)) env lastDAHeight
    daHeight txs s = v at hc ⊢
  cases hc with
  | early hearly =>
    refine .inr ⟨hrec, ?_⟩
    omega
  | noInfo hgas => exact absurd hgas hshow.info
  | notConfigured _ _ _ _ hns _ => cases hns
  | failed maxGas epochEnd count s' err _ _ hw hgo hcheck _ _ =>
    have hbelow := Nat.lt_of_le_of_lt (add_le_graceBoundary genesis s' epochEnd) hgo
    obtain ⟨event, hr, _⟩ := hshow.truthful.retrieve_answered hw.at_.isEnd
      (hanswered hw.at_.isEnd (by omega))
    cases hcheck with
    | notConfigured hns => cases hns
    | unretrieved _ _ hr' =>
      rw [hr] at hr'
      cases hr'
    | unfiltered _ _ _ hf => exact absurd hf (hshow.filters _ _)
  | passed maxGas epochEnd s' _ _ hw hstop =>
    have hle : epochEnd ≤ e := Nat.le_of_not_lt fun hlt => by
      have := (hw.counted hlt).1
      omega
    exact .inr ⟨hw.isOpen he hle hunseen, .inr (.inr (le_of_not_reached hle hstop))⟩
  | accused maxGas epochEnd count s' _ _ hw _ hstop =>
    rcases Nat.lt_or_ge e epochEnd with hlt | hle
    · exact .inl ⟨count, rfl, (hw.counted hlt).2⟩
    · exact .inr ⟨hw.isOpen he hle hunseen, .inr (.inr (le_of_not_reached hle hstop))⟩

theorem Open.initial {d : Nat} (he : genesis.IsEpochEnd e) (hd : d < e) :
    (ForcedInclusion.initial (Syncer.initialCheckedEpochEnd genesis d) :
      ForcedInclusion Tx).Open genesis e t := by
  have hal : (ForcedInclusion.initial (Syncer.initialCheckedEpochEnd genesis d) :
      ForcedInclusion Tx).Aligned genesis :=
    (Syncer.initialCheckedEpochEnd_spec genesis d).imp_right And.left
  refine ⟨hal, hal.startEpochEnd_le he fun hpos => ?_, Finset.notMem_empty _⟩
  rcases Syncer.initialCheckedEpochEnd_spec genesis d with h0 | ⟨_, hle⟩
  · exact absurd hpos (by simp [ForcedInclusion.initial, h0])
  · exact Nat.lt_of_le_of_lt hle hd

end ForcedInclusion

namespace Syncer

/-- The block of an operation does not contain the forced transaction, and its verification is
shown it. -/
def Censored (cfg : SyncerConfig Tx) (content : Nat → List Tx) (e : Nat) (t : Tx) :
    Live (Syncer Tx) → Op Tx → Prop :=
  EachCheck fun event env => Transaction.hash t ∉ event.data.txs.map Transaction.hash ∧
    env.Shows cfg.genesis content e t event.daHeight

/-- A start finds a stored DA height below `e`. -/
def StartsBelow (cfg : SyncerConfig Tx) (e : Nat) (l : Live (Syncer Tx)) : Op Tx → Prop
  | .start _ => l.state.store.stateDAHeight cfg.genesis < e
  | _ => True

/-- The check of an operation misses `t` and accuses the sequencer. -/
def Accuses (cfg : SyncerConfig Tx) (e : Nat) (t : Tx) (l : Live (Syncer Tx)) (op : Op Tx) :
    Prop :=
  ∃ n s', verificationIn cfg l op = some (.error (ForcedInclusion.accusation n), s') ∧
    ⟨e, t, false⟩ ∈ s'.lookups

variable {cfg : SyncerConfig Tx} {content : Nat → List Tx} {e : Nat} {t : Tx}

theorem Censored.verify {l : Live (Syncer Tx)} {op : Op Tx}
    {v : Exit Err Unit × ForcedInclusion Tx} (hcen : Censored cfg content e t l op)
    (hns : cfg.daClient = some true) (he : cfg.genesis.IsEpochEnd e)
    (ht : t ∈ cfg.genesis.forcedTxs content e) (h : l.state.forced.Open cfg.genesis e t)
    (hv : verificationIn cfg l op = some v) :
    Accuses cfg e t l op ∨ (v.2.Open cfg.genesis e t ∧
      ∀ event, l.state.heightInCh.head? = some event →
        l.state.lastState.daHeight ≤ event.daHeight →
          event.daHeight ≤ e + maxGracePeriodEpochs * cfg.genesis.daEpochForcedInclusion) := by
  obtain ⟨env, event, rest, rfl, _, hch, hda, hver⟩ := verificationIn_eq_some hv
  obtain ⟨hblock, hshow⟩ := hcen event rest hch hda
  have hfi : cfg.fiRetriever = some (cfg.genesis.retriever true) := by
    simp [SyncerConfig.fiRetriever, hns, Genesis.retriever]
  rw [hfi] at hver
  have hone := h.verify he ht hshow hblock l.state.lastState.daHeight
  dsimp only at hone
  rw [← hver] at hone
  rcases hone with ⟨n, hr, hlook⟩ | ⟨hopen, hwhen⟩
  · exact .inl ⟨n, v.2, by rw [hv, ← hr], hlook⟩
  · refine .inr ⟨hopen, fun event' hhead hmono => ?_⟩
    rw [hch] at hhead
    obtain rfl := Option.some.inj hhead
    have hfirst := he.first_le
    omega

theorem open_step (hns : cfg.daClient = some true) (he : cfg.genesis.IsEpochEnd e)
    (ht : t ∈ cfg.genesis.forcedTxs content e) (l : Live (Syncer Tx)) (op : Op Tx)
    (h : l.Holds (fun s => s.forced.Open cfg.genesis e t) fun _ => True)
    (hop : Censored cfg content e t l op ∧ StartsBelow cfg e l op) :
    Accuses cfg e t l op ∨
      (step cfg l op).Holds (fun s => s.forced.Open cfg.genesis e t) fun _ => True := by
  by_cases hacc : Accuses cfg e t l op
  · exact .inl hacc
  · right
    refine holds_forced_step h ?_ fun hopen v hv => ?_
    · rintro env rfl
      exact .initial he hop.2
    · rcases hop.1.verify hns he ht hopen hv with hbad | ⟨hopen', _⟩
      · exact absurd hbad hacc
      · exact hopen'

/--
**Censorship is detected.**

Let `t` be a forced transaction of the epoch that ends at `e`, which no block from DA contains and
every verification is shown. When the block at the head of the channel is checked at a DA height
more than four epochs behind `e`, then this check or one before it misses `t` and accuses the
sequencer, over any number of restarts with a stored DA height below `e`.
-/
theorem censorship_detected (cfg : SyncerConfig Tx) (s0 : Syncer Tx)
    (hns : cfg.daClient = some true) (content : Nat → List Tx) (e : Nat) (t : Tx)
    (he : cfg.genesis.IsEpochEnd e) (ht : t ∈ cfg.genesis.forcedTxs content e)
    (ops : List (Op Tx)) (env : SyncEnv Tx) (event : DAHeightEvent Tx)
    (hrun : Run.Meets (step cfg)
      (fun l op => Censored cfg content e t l op ∧ StartsBelow cfg e l op) ⟨false, s0⟩
      (ops ++ [.processNext env]))
    (hhead : (Run.exec (step cfg) ⟨false, s0⟩ ops).state.heightInCh.head? = some event)
    (hchecked : verificationIn cfg (Run.exec (step cfg) ⟨false, s0⟩ ops) (.processNext env) ≠ none)
    (hmono : (Run.exec (step cfg) ⟨false, s0⟩ ops).state.lastState.daHeight ≤ event.daHeight)
    (hbeyond : e + maxGracePeriodEpochs * cfg.genesis.daEpochForcedInclusion < event.daHeight) :
    ∃ ops₁ op ops₂, ops ++ [.processNext env] = ops₁ ++ op :: ops₂ ∧
      Accuses cfg e t (Run.exec (step cfg) ⟨false, s0⟩ ops₁) op := by
  rw [Run.meets_concat] at hrun
  have h0 : (⟨false, s0⟩ : Live (Syncer Tx)).Holds (fun s => s.forced.Open cfg.genesis e t)
    fun _ => True := ⟨fun hf => (by cases hf), fun _ => trivial⟩
  rcases Run.happens_or_invariant _ (open_step hns he ht) ops _ h0 hrun.1 with
    ⟨ops₁, op, ops₂, rfl, hacc⟩ | hopen
  · exact ⟨ops₁, op, ops₂ ++ [.processNext env], by simp, hacc⟩
  · obtain ⟨v, hv⟩ := Option.ne_none_iff_exists'.mp hchecked
    obtain ⟨_, _, _, _, hup, _⟩ := verificationIn_eq_some hv
    rcases hrun.2.1.verify hns he ht (hopen.1 hup) hv with hacc | ⟨_, hwhen⟩
    · exact ⟨ops, .processNext env, [], rfl, hacc⟩
    · -- so late a check comes to the epoch
      exact absurd (hwhen event hhead hmono) (Nat.not_le.mpr hbeyond)

end Syncer

/-! ## Concrete runs -/

namespace CensoredRun

/-- Epochs of `n + 1` DA heights from DA height 1 on. -/
def genesis (n : Nat) : Genesis :=
  ⟨"c", 1000000000, 1, [7], 1, n + 1, Nat.one_pos, Nat.succ_pos n⟩

abbrev cfg (n : Nat) : SyncerConfig RawTx := .plain (genesis n)

def tx : RawTx := ⟨5, 10⟩

/-- The transaction is forced at DA height 1. -/
def env : SyncEnv RawTx :=
  .plain (.ofBlocks 20 [(1, ⟨0, [tx]⟩)]) { ExecutionAnswers.acceptAll with maxGas := some 0 }

/-- The empty block `height` is read at `daHeight`. -/
def block (n : Nat) (height daHeight : Nat) : DAHeightEvent RawTx :=
  .plain (genesis n) height [] daHeight .da

def run (n : Nat) (ops : List (Syncer.Op RawTx)) : Live (Syncer RawTx) :=
  Run.exec (Syncer.step (cfg n)) ⟨false, .plain (cfg n)⟩ ops

end CensoredRun

open CensoredRun in
/-- Epochs of two heights: block 1 is read in the grace window of the first epoch, and the node
restarts, in the second run after block 2 has been refused. Epochs of one height: a node that
starts for the first time takes the first epoch as checked. Each time the next block is read more
than four epochs later and passes. -/
theorem censorship_missed :
    (let l := run 1 [.start .plain, .pipeEvent false (block 1 1 4), .processNext env, .crash,
        .start .plain];
      l.state.forced.lookups = [] ∧ l.state.forced.lastCheckedEpochEnd = 4 ∧
        (Syncer.trySyncNextBlock (cfg 1) env (block 1 2 11) l.state).1 = .ok ()) ∧
      (let l := run 1 [.start .plain, .pipeEvent false (block 1 1 4), .processNext env];
      let l' := run 1 [.start .plain, .pipeEvent false (block 1 1 4), .processNext env,
        .pipeEvent false (block 1 2 11), .processNext env, .crash, .start .plain];
      (Syncer.trySyncNextBlock (cfg 1) env (block 1 2 11) l.state).1 =
          .error (ForcedInclusion.accusation 1) ∧
        (Syncer.trySyncNextBlock (cfg 1) env (block 1 2 11) l'.state).1 = .ok ()) ∧
      (let l := run 0 [.start .plain];
      l.state.forced.lastCheckedEpochEnd = 1 ∧
        (Syncer.trySyncNextBlock (cfg 0) env (block 0 1 6) l.state).1 = .ok ()) := by
  decide

open CensoredRun in
/-- Without a restart the transaction is missed at DA height 11. -/
theorem censorship_detected_late :
    ∃ ops₁ op ops₂, [.start .plain, .pipeEvent false (block 1 1 11)] ++
        [Syncer.Op.processNext env] = ops₁ ++ op :: ops₂ ∧
      Syncer.Accuses (cfg 1) 2 tx (run 1 ops₁) op := by
  have hch : (run 1 [.start .plain, .pipeEvent false (block 1 1 11)]).state.heightInCh =
    [block 1 1 11] := rfl
  refine Syncer.censorship_detected (cfg 1) (.plain (cfg 1)) rfl
    env.verify.da.txsAt 2 tx ⟨0, rfl⟩ (by decide) _ env (block 1 1 11) ?_ rfl (by decide)
    (by decide) (by decide)
  refine ⟨⟨trivial, Nat.lt_succ_self 1⟩, ⟨trivial, trivial⟩, ⟨?_, trivial⟩, trivial⟩
  intro event rest h _
  obtain ⟨rfl, -⟩ := List.cons.inj (hch.symm.trans h)
  refine ⟨by decide, ⟨fun _ _ => rfl, by decide, by decide, fun _ _ => nofun, ?_⟩⟩
  intro gas statuses hs
  rw [← Option.some.inj hs]
  decide

end EvNode
