import EvNode.Evm.FilterTxs
import EvNode.Properties.Tracking

/-!
# Which forced transactions are verified

An epoch counts as checked when its turn of the loop does not fail. Three things let a forced
transaction pass unseen: the filter postpones it, since it is given a whole epoch with the limits of
one block; a height of the epoch could not be fetched, in which case the retriever returns an empty
event; and an error in the turn of a later epoch, which drops the count of the whole call.
-/

namespace EvNode

open Crash Proc

variable {Tx : Type} [Transaction Tx]

/-- Nothing of the epoch that ends at `e` is kept from a verification at `daHeight`. -/
structure VerifyEnv.Complete (genesis : Genesis) (gasOf : Tx → Option Nat)
    (content : Nat → List Tx) (e daHeight : Nat) (env : VerifyEnv Tx) : Prop where
  answered : (genesis.retriever true).EpochAnswered env.da e
  current : ∀ h < daHeight, genesis.daStartHeight ≤ h → ¬ env.da.FromFuture h
  fits : ∀ maxGas, env.executor.maxGas = some maxGas →
    Evm.Fits gasOf defaultMaxBlobSize maxGas (genesis.forcedTxs content e)

namespace ForcedInclusion

/-- Each transaction that is not removed is among the lookups of the epoch, and a missing one is
counted. -/
def LookedUp (e : Nat) (txs : List (Tx × FilterStatus)) (lookups : List (Lookup Tx)) (count : Nat) :
    Prop :=
  ∀ p ∈ txs, p.2 ≠ .remove → ∃ seen, ⟨e, p.1, seen⟩ ∈ lookups ∧ (seen = false → 0 < count)

omit [Transaction Tx] in
theorem LookedUp.mono {e count count' : Nat} {txs : List (Tx × FilterStatus)}
    {lookups lookups' : List (Lookup Tx)} (h : LookedUp e txs lookups count)
    (hl : lookups ⊆ lookups') (hc : count ≤ count') : LookedUp e txs lookups' count' := by
  intro p hp hne
  obtain ⟨seen, hmem, hcount⟩ := h p hp hne
  exact ⟨seen, hl hmem, fun hs => Nat.lt_of_lt_of_le (hcount hs) hc⟩

variable {genesis : Genesis} {s : ForcedInclusion Tx} {env : VerifyEnv Tx}
  {gasOf : Tx → Option Nat} {gas : Option Nat} {content : Nat → List Tx} {e daHeight : Nat}
  {txs : List Tx}

theorem CheckCase.lookedUp {ns : Bool} {maxGas missing : Nat} {s' : ForcedInclusion Tx}
    (h : CheckCase (genesis.retriever ns) env maxGas e s (.ok missing, s'))
    (hex : env.executor = Evm.executor gasOf (some maxGas)) (htrue : env.da.Truthful content)
    (he : genesis.IsEpochEnd e) (hcomp : env.Complete genesis gasOf content e daHeight) :
    ∃ l, s'.lookups = s.lookups ++ l ∧ LookedUp e ((genesis.forcedTxs content e).zip
      (Evm.filterTxs gasOf (genesis.forcedTxs content e) defaultMaxBlobSize maxGas true)) l
        missing := by
  have htxs : ∀ event, retrieveForcedIncludedTxs (genesis.retriever ns) env.da e = .ok event →
      event.txs = genesis.forcedTxs content e := by
    intro event hr
    cases ns with
    | true =>
      obtain ⟨event', hr', htxs⟩ := htrue.retrieve_answered he hcomp.answered
      rw [hr] at hr'
      rw [Except.ok.inj hr', htxs]
    | false => cases hr
  cases h with
  | empty event hr hnil =>
    refine ⟨[], by simp, fun p hp => ?_⟩
    rw [← htxs event hr, hnil] at hp
    cases hp
  | checked event statuses hr _ hf =>
    rw [hex, htxs event hr] at hf
    obtain rfl := Option.some.inj hf
    rw [htxs event hr]
    refine ⟨s.epochLookups e (genesis.forcedTxs content e)
      (Evm.filterTxs gasOf (genesis.forcedTxs content e) defaultMaxBlobSize maxGas true),
      by simp [ForcedInclusion.looked], fun p hp hne => ?_⟩
    -- what fits into one block is not postponed
    have hok : p.2 = .ok := (hcomp.fits maxGas (by rw [hex]; rfl)).ok_of_ne_remove hp hne
    have hmem : (p.1, FilterStatus.ok) ∈ (genesis.forcedTxs content e).zip
        (Evm.filterTxs gasOf (genesis.forcedTxs content e) defaultMaxBlobSize maxGas true) := by
      rw [← hok]
      exact hp
    refine ⟨_, mem_epochLookups hmem, fun hseen => ?_⟩
    exact List.countP_pos_iff.mpr ⟨_, mem_epochLookups hmem, by simp [hseen]⟩

/-- The loop has not come to the epoch, or has looked up everything in it. -/
structure Looking (genesis : Genesis) (start : Nat) (recorded : ForcedInclusion Tx) (e : Nat)
    (ns : Bool) (txs : List (Tx × FilterStatus)) (epochEnd count : Nat)
    (s : ForcedInclusion Tx) : Prop where
  at_ : LoopAt genesis start recorded epochEnd s
  new : ∃ l, s.lookups = recorded.lookups ++ l ∧ (e < epochEnd → LookedUp e txs l count)
  idle : ns = false → s = recorded

theorem Looking.turn {start epochEnd count maxGas missing : Nat} {recorded s' : ForcedInclusion Tx}
    {ns : Bool}
    (h : Looking genesis start recorded e ns ((genesis.forcedTxs content e).zip
      (Evm.filterTxs gasOf (genesis.forcedTxs content e) defaultMaxBlobSize maxGas true)) epochEnd
        count s)
    (hc : CheckCase (genesis.retriever ns) env maxGas epochEnd s (.ok missing, s'))
    (hex : env.executor = Evm.executor gasOf (some maxGas)) (htrue : env.da.Truthful content)
    (he : genesis.IsEpochEnd e) (hcomp : env.Complete genesis gasOf content e daHeight) :
    Looking genesis start recorded e ns ((genesis.forcedTxs content e).zip
      (Evm.filterTxs gasOf (genesis.forcedTxs content e) defaultMaxBlobSize maxGas true))
        (epochEnd + genesis.daEpochForcedInclusion) (count + missing) s' := by
  obtain ⟨l, hl, hlooked⟩ := h.new
  refine ⟨h.at_.turn hc, ?_, ?_⟩
  · rcases Nat.lt_trichotomy epochEnd e with hbefore | rfl | hbehind
    · obtain ⟨l', hl'⟩ := hc.lookups_append
      have := h.at_.isEnd.add_le_of_lt he hbefore
      exact ⟨l ++ l', by rw [hl', hl, List.append_assoc], fun hlt => by omega⟩
    · obtain ⟨l', hl', hall⟩ := hc.lookedUp hex htrue he hcomp
      refine ⟨l ++ l', by rw [hl', hl, List.append_assoc], fun _ => ?_⟩
      exact hall.mono (List.subset_append_right _ _) (Nat.le_add_left _ _)
    · obtain ⟨l', hl'⟩ := hc.lookups_append
      refine ⟨l ++ l', by rw [hl', hl, List.append_assoc], fun _ => ?_⟩
      exact (hlooked hbehind).mono (List.subset_append_left _ _) (Nat.le_add_right _ _)
  · -- without a namespace no turn succeeds
    rintro rfl
    cases hc with
    | empty _ hr _ | checked _ _ hr _ _ => cases hr

/-- **One verification.** When it passes the epoch, it has looked up everything in it, and it
accuses if something was missing. -/
theorem lookedUp_of_passed (h : s.Aligned genesis) (ns : Bool) (he : genesis.IsEpochEnd e)
    (hbefore : s.lastCheckedEpochEnd < e) (hex : env.executor = Evm.executor gasOf gas)
    (htrue : env.da.Truthful content) (hcomp : env.Complete genesis gasOf content e daHeight)
    (lastDAHeight : Nat) :
    let v := verifyForcedInclusionTxs genesis (some (genesis.retriever ns)) env lastDAHeight
      daHeight txs s
    e ≤ v.2.lastCheckedEpochEnd →
      ∃ maxGas l count, gas = some maxGas ∧ v.2.lookups = s.lookups ++ l ∧
        LookedUp e ((genesis.forcedTxs content e).zip
          (Evm.filterTxs gasOf (genesis.forcedTxs content e) defaultMaxBlobSize maxGas true)) l
            count ∧
        (0 < count → v.1 = .error (accusation count)) := by
  have hrec : (s.recordBlock daHeight txs).lastCheckedEpochEnd < e := hbefore
  have haligned : (s.recordBlock daHeight txs).Aligned genesis := h
  have hstart : (s.recordBlock daHeight txs).startEpochEnd genesis ≤ e :=
    haligned.startEpochEnd_le he fun _ => hrec
  have hc : VerifyCase genesis (genesis.retriever ns) env lastDAHeight daHeight
      (fun maxGas => Looking genesis (s.startEpochEnd genesis) (s.recordBlock daHeight txs) e ns
        ((genesis.forcedTxs content e).zip
          (Evm.filterTxs gasOf (genesis.forcedTxs content e) defaultMaxBlobSize maxGas true)))
      (s.recordBlock daHeight txs)
      (verifyForcedInclusionTxs genesis (some (genesis.retriever ns)) env lastDAHeight daHeight
        txs s) := by
    refine verify_cases (fun maxGas hgas => ?_) (fun _ => ⟨.init haligned, ⟨[], by simp,
      fun hlt => absurd hstart (Nat.not_le.mpr hlt)⟩, fun _ => rfl⟩)
    intro epochEnd count s1 missing s2 hlook _ hcheck
    have hex' : env.executor = Evm.executor gasOf (some maxGas) := by
      rw [hex] at hgas ⊢
      rw [show gas = some maxGas from hgas]
    exact hlook.turn hcheck hex' htrue he hcomp
  generalize verifyForcedInclusionTxs genesis (some (genesis.retriever ns)) env lastDAHeight
    daHeight txs s = v at hc
  -- the loop stopped behind the epoch
  have hbehind : ∀ {start epochEnd : Nat} {recorded s' : ForcedInclusion Tx},
      LoopAt genesis start recorded epochEnd s' → e ≤ s'.lastCheckedEpochEnd → e < epochEnd := by
    intro start epochEnd recorded s' hat hle
    have hsize := genesis.daEpochForcedInclusion_pos
    have hlast := hat.last
    omega
  intro v' hafter
  cases hc with
  | early _ | noInfo _ => exact absurd hafter (Nat.not_le.mpr hrec)
  | notConfigured _ _ _ s' hns hlook =>
    obtain rfl := hlook.idle hns
    exact absurd hafter (Nat.not_le.mpr hrec)
  | failed maxGas epochEnd count s' err _ _ hlook hgo hcheck _ hns =>
    exfalso
    have hbelow := Nat.lt_of_le_of_lt (add_le_graceBoundary genesis s' epochEnd) hgo
    cases hcheck with
    | notConfigured hns' => exact absurd (hns.symm.trans hns') (by simp)
    | unretrieved err _ hr =>
      have hcase := retrieve_cases (genesis.retriever ns) env.da epochEnd
      rw [hr] at hcase
      cases hcase with
      | notConfigured hns' => exact absurd (hns.symm.trans hns') (by simp)
      | beforeStart _ hlt =>
        exact absurd (hlook.at_.isEnd.retriever ns).1 (Nat.not_le.mpr hlt)
      | future _ _ hf =>
        obtain ⟨x, hx, hfx⟩ := hf
        obtain ⟨hge, hle⟩ := hlook.at_.isEnd.of_mem_heights hx
        exact hcomp.current x (by omega) hge hfx
    | unfiltered _ _ _ hf =>
      rw [hex] at hf
      cases hf
  | passed maxGas epochEnd s' hgas _ hlook _ =>
    obtain ⟨l, hl, hall⟩ := hlook.new
    rw [hex] at hgas
    exact ⟨maxGas, l, 0, hgas, hl, hall (hbehind hlook.at_ hafter), fun h0 => by omega⟩
  | accused maxGas epochEnd count s' hgas _ hlook _ _ =>
    obtain ⟨l, hl, hall⟩ := hlook.new
    rw [hex] at hgas
    exact ⟨maxGas, l, count, hgas, hl, hall (hbehind hlook.at_ hafter), fun _ => rfl⟩

end ForcedInclusion

namespace Syncer

/--
**No forced transaction escapes verification.**

In every run of a syncing node with the EVM executor, `lastCheckedEpochEnd` moves past an epoch,
other than by a start, only in a call of `VerifyForcedInclusionTxs` that looks up every forced
transaction of the epoch that the filter does not remove, and that accuses the sequencer when one
of them is missing.
-/
theorem escapes_no_check (cfg : SyncerConfig Tx) (s0 : Syncer Tx) (ops : List (Op Tx)) (op : Op Tx)
    (gasOf : Tx → Option Nat) (gas : Option Nat) (content : Nat → List Tx) (e : Nat)
    (he : cfg.genesis.IsEpochEnd e) (hstart : ∀ env, op ≠ .start env)
    (hbefore : (Run.exec (step cfg) ⟨false, s0⟩ ops).state.forced.lastCheckedEpochEnd < e)
    (hafter : e ≤ (step cfg (Run.exec (step cfg) ⟨false, s0⟩ ops) op).state.forced.lastCheckedEpochEnd)
    (hcheck : EachCheck (fun event env => env.executor = Evm.executor gasOf gas ∧
      env.da.Truthful content ∧ env.Complete cfg.genesis gasOf content e event.daHeight)
        (Run.exec (step cfg) ⟨false, s0⟩ ops) op) :
    ∃ v maxGas l, verificationIn cfg (Run.exec (step cfg) ⟨false, s0⟩ ops) op = some v ∧
      gas = some maxGas ∧
      v.2.lookups = (Run.exec (step cfg) ⟨false, s0⟩ ops).state.forced.lookups ++ l ∧
      ∀ p ∈ (cfg.genesis.forcedTxs content e).zip (Evm.filterTxs gasOf
          (cfg.genesis.forcedTxs content e) defaultMaxBlobSize maxGas true), p.2 ≠ .remove →
        ∃ seen, ⟨e, p.1, seen⟩ ∈ l ∧
          (seen = false → ∃ n, v.1 = .error (ForcedInclusion.accusation n)) := by
  have htr := tracked_reachable cfg s0 ops
  generalize Run.exec (step cfg) ⟨false, s0⟩ ops = l at hbefore hafter hcheck htr ⊢
  rw [step_forced cfg l op hstart] at hafter
  cases hv : verificationIn cfg l op with
  | none =>
    rw [hv] at hafter
    exact absurd hafter (Nat.not_le.mpr hbefore)
  | some v =>
    rw [hv] at hafter
    obtain ⟨env, event, rest, rfl, hup, hch, hda, hver⟩ := verificationIn_eq_some hv
    obtain ⟨hex, htrue, hcomp⟩ := hcheck event rest hch hda
    have hafter : e ≤ v.2.lastCheckedEpochEnd := hafter
    unfold SyncerConfig.fiRetriever at hver
    cases hns : cfg.daClient with
    | none =>
      rw [hns] at hver
      rw [hver] at hafter
      exact absurd hafter (Nat.not_le.mpr hbefore)
    | some ns =>
      rw [hns] at hver
      obtain ⟨maxGas, new, count, hgas, hnew, hall, hacc⟩ := ForcedInclusion.lookedUp_of_passed
        (htr hup).aligned ns he hbefore hex htrue hcomp l.state.lastState.daHeight
        (by rw [hver] at hafter; exact hafter)
      refine ⟨v, maxGas, new, rfl, hgas, by rw [hver]; exact hnew, fun p hp hne => ?_⟩
      obtain ⟨seen, hmem, hcount⟩ := hall p hp hne
      exact ⟨seen, hmem, fun hs => ⟨count, by rw [hver]; exact hacc (hcount hs)⟩⟩

end Syncer

/-! ## Concrete runs -/

namespace EscapeRun

def genesis : Genesis := ⟨"c", 1000000000, 1, [7], 1, 2, Nat.one_pos, Nat.two_pos⟩

abbrev cfg : SyncerConfig RawTx := .plain genesis

def gasOf (_ : RawTx) : Option Nat := some 6

def included : RawTx := ⟨5, 10⟩

def missing : RawTx := ⟨6, 10⟩

def env (da : DAAnswers RawTx) : SyncEnv RawTx := .plain da (Evm.executor gasOf (some 10))

/-- Block 1 is read at DA height 3 and has one transaction, block 2 is waiting. -/
def run (daHeight : Nat) (da : DAAnswers RawTx) : Live (Syncer RawTx) :=
  Run.exec (Syncer.step cfg) ⟨false, .plain cfg⟩ [.start .plain,
    .pipeEvent false (.plain genesis 1 [included] 3 .da), .processNext (env da),
    .pipeEvent false (.plain genesis 2 [] daHeight .da)]

/-- Block 2 has been handled: the epoch that ends at 2 has passed, its missing transaction has not
been looked up or has not been reported. -/
def escaped (daHeight : Nat) (da : DAAnswers RawTx) : Prop :=
  let l := run daHeight da
  let l' := Syncer.step cfg l (.processNext (env da))
  l.state.forced.lastCheckedEpochEnd = 0 ∧ l'.state.forced.lastCheckedEpochEnd = 2 ∧
    l'.state.hasCriticalError = false ∧ l'.state.store.height = 2

instance (daHeight : Nat) (da : DAAnswers RawTx) : Decidable (escaped daHeight da) :=
  inferInstanceAs (Decidable (_ ∧ _))

/-- The missing transaction is forced at DA height 1. -/
def answering : DAAnswers RawTx := .ofBlocks 20 [(1, ⟨0, [missing]⟩)]

/-- The same DA layer, which does not answer height 2. -/
def failing : DAAnswers RawTx where
  getCachedBlock _ := none
  retrieve h := if h = 2 then ⟨.error, "timeout", zeroTime, []⟩ else answering.retrieve h

/-- An empty block 1, read at DA height 5, is waiting. -/
def first : Live (Syncer RawTx) :=
  Run.exec (Syncer.step cfg) ⟨false, .plain cfg⟩
    [.start .plain, .pipeEvent false (.plain genesis 1 [] 5 .da)]

end EscapeRun

open EscapeRun in
/-- The missing transaction is postponed by the gas limit of one block; it is lost with the epoch
when height 2 is not answered; and it is counted, but the count is dropped when the DA layer has not
reached height 4. -/
theorem forced_tx_escapes :
    escaped 5 (.ofBlocks 20 [(1, ⟨0, [included, missing]⟩)]) ∧ escaped 5 failing ∧
      escaped 7 (.ofBlocks 3 [(1, ⟨0, [missing]⟩)]) := by
  decide

open EscapeRun in
/-- With one transaction and a DA layer that answers, it is looked up and reported. -/
theorem escapes_no_check_one :
    ∃ v maxGas l, Syncer.verificationIn cfg first (.processNext (env answering)) = some v ∧
      some 10 = some maxGas ∧ v.2.lookups = first.state.forced.lookups ++ l ∧
      ∀ p ∈ (genesis.forcedTxs answering.txsAt 2).zip (Evm.filterTxs gasOf
          (genesis.forcedTxs answering.txsAt 2) defaultMaxBlobSize maxGas true), p.2 ≠ .remove →
        ∃ seen, ⟨2, p.1, seen⟩ ∈ l ∧
          (seen = false → ∃ n, v.1 = .error (ForcedInclusion.accusation n)) := by
  have hch : first.state.heightInCh = [.plain genesis 1 [] 5 .da] := rfl
  refine Syncer.escapes_no_check cfg (.plain cfg)
    [.start .plain, .pipeEvent false (.plain genesis 1 [] 5 .da)] (.processNext (env answering)) gasOf
    (some 10) answering.txsAt 2 ⟨0, rfl⟩ (by simp) (by decide) (by decide) ?_
  intro event rest h _
  obtain ⟨rfl, -⟩ := List.cons.inj (hch.symm.trans h)
  refine ⟨rfl, fun _ _ => rfl, by decide, ?_, ?_⟩
  · have hall : ∀ h < 5, (answering.retrieve h).code ≠ .heightFromFuture := by decide
    exact fun h hlt _ hf => hall h hlt hf.2
  · intro maxGas hgas
    obtain rfl : 10 = maxGas := Option.some.inj hgas
    exact ⟨by decide, by decide⟩

end EvNode
