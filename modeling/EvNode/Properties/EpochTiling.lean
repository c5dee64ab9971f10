import EvNode.Properties.CatchUpInv
import EvNode.Properties.Tracking

/-!
# One tiling of the DA heights

Epoch `k + 1` has `daEpochForcedInclusion` DA heights, the first of them
`daStartHeight + k * daEpochForcedInclusion`. The based sequencer, the syncer and the catch-up
detection of the single sequencer compute these epochs from genesis. The retriever of the single
sequencer starts at the recorded DA height of the first block when `daStartHeight` is 0.
-/

namespace EvNode

open Crash Proc

variable {Tx : Type}

/-- First height, last height and number of the epoch that a retriever reads at `h`. -/
def ForcedInclusionRetriever.epochAt (r : ForcedInclusionRetriever) (h : Nat) : Nat × Nat × Nat :=
  calculateEpochBoundaries h r.daStartHeight r.daEpochSize

namespace Genesis

/-- First height, last height and number of epoch `k + 1`. -/
def epoch (genesis : Genesis) (k : Nat) : Nat × Nat × Nat :=
  (genesis.daStartHeight + k * genesis.daEpochForcedInclusion,
    genesis.daStartHeight + k * genesis.daEpochForcedInclusion + genesis.daEpochForcedInclusion - 1,
    k + 1)

theorem epoch_succ (genesis : Genesis) (k : Nat) :
    (genesis.epoch (k + 1)).1 = (genesis.epoch k).2.1 + 1 ∧
      (genesis.epoch (k + 1)).2.1 =
        (genesis.epoch k).2.1 + genesis.daEpochForcedInclusion := by
  have hpos := genesis.daEpochForcedInclusion_pos
  simp only [epoch, Nat.succ_mul]
  omega

variable {genesis : Genesis} {h k : Nat}

theorem exists_epoch (hle : genesis.daStartHeight ≤ h) :
    ∃ k, (genesis.epoch k).1 ≤ h ∧ h ≤ (genesis.epoch k).2.1 := by
  have hpos := genesis.daEpochForcedInclusion_pos
  have hdiv := Nat.div_add_mod' (h - genesis.daStartHeight) genesis.daEpochForcedInclusion
  have hmod := Nat.mod_lt (h - genesis.daStartHeight) hpos
  refine ⟨(h - genesis.daStartHeight) / genesis.daEpochForcedInclusion, ?_, ?_⟩ <;>
    simp only [epoch] <;> omega

theorem calculateEpochBoundaries_eq (hlo : (genesis.epoch k).1 ≤ h)
    (hhi : h ≤ (genesis.epoch k).2.1) :
    calculateEpochBoundaries h genesis.daStartHeight genesis.daEpochForcedInclusion =
      genesis.epoch k := by
  have hpos := genesis.daEpochForcedInclusion_pos
  simp only [epoch] at hlo hhi
  have hnum : (h - genesis.daStartHeight) / genesis.daEpochForcedInclusion = k := by
    refine Nat.div_eq_of_lt_le (by omega) ?_
    rw [Nat.succ_mul]
    omega
  have hstart : ¬ h < genesis.daStartHeight := by omega
  simp only [calculateEpochBoundaries, calculateEpochNumber, hstart, if_false,
    Nat.pos_iff_ne_zero.mp hpos, hnum, epoch, Nat.succ_mul, Nat.add_sub_cancel, Nat.add_assoc]

theorem IsEpochEnd.exists_epoch (he : genesis.IsEpochEnd h) : ∃ k, h = (genesis.epoch k).2.1 := by
  obtain ⟨k, hk⟩ := he
  refine ⟨k, ?_⟩
  rw [Nat.succ_mul] at hk
  simp only [epoch]
  omega

/-- The last epoch that is complete at `h`. -/
theorem initialCheckedEpochEnd_eq (hlo : (genesis.epoch k).2.1 ≤ h)
    (hhi : h < (genesis.epoch (k + 1)).2.1) :
    Syncer.initialCheckedEpochEnd genesis h = (genesis.epoch k).2.1 := by
  have hpos := genesis.daEpochForcedInclusion_pos
  rw [(genesis.epoch_succ k).2] at hhi
  simp only [epoch] at hlo hhi ⊢
  have hnum : (h - (genesis.daStartHeight + genesis.daEpochForcedInclusion - 1)) /
      genesis.daEpochForcedInclusion = k := by
    refine Nat.div_eq_of_lt_le (by omega) ?_
    rw [Nat.succ_mul]
    omega
  unfold Syncer.initialCheckedEpochEnd
  dsimp only
  rw [if_pos (by omega), hnum]
  omega

theorem initialCheckedEpochEnd_before (hlt : h < (genesis.epoch 0).2.1) :
    Syncer.initialCheckedEpochEnd genesis h = 0 := by
  simp only [epoch, Nat.zero_mul, Nat.add_zero] at hlt
  exact if_neg (by omega)

end Genesis

/-! ## The retriever of the single sequencer -/

namespace Sequencer

/-- What the epochs of a sequencer are computed from. -/
def epochBase (s : Sequencer Tx) : Genesis × Nat × Nat × Nat :=
  (s.genesis, s.daStartHeight, s.fiRetriever.daStartHeight, s.fiRetriever.daEpochSize)

/-- The sequencer and its retriever use the epochs of `genesis`. -/
def AtGenesis (genesis : Genesis) (s : Sequencer Tx) : Prop :=
  s.epochBase = (genesis, genesis.daStartHeight, genesis.daStartHeight,
    genesis.daEpochForcedInclusion)

/-- Genesis has a DA start height, or none is recorded by the submitter. -/
def StartsAtGenesis (genesis : Genesis) : Op Tx → Prop
  | .start _ view | .getNextBatch _ view _ =>
    genesis.daStartHeight ≠ 0 ∨ view.genesisDAHeight.getD 0 = 0
  | _ => True

variable {genesis : Genesis} {s : Sequencer Tx} {view : ChainView Tx}

theorem atGenesis_startRetriever
    (hview : genesis.daStartHeight ≠ 0 ∨ view.genesisDAHeight.getD 0 = 0)
    (hgenesis : s.genesis = genesis) (hstart : s.daStartHeight = genesis.daStartHeight) :
    AtGenesis genesis (startRetriever view s) := by
  have heq : s.getInitialDAStartHeight view = genesis.daStartHeight := by
    unfold getInitialDAStartHeight
    rw [hstart]
    split
    · rfl
    · next hz =>
      rw [hview.resolve_left hz]
      exact (not_not.mp hz).symm
  simp [AtGenesis, epochBase, startRetriever, heq, hgenesis]

variable [Transaction Tx]

/-- After the checkpoint init path, `GetNextBatch` leaves the retriever alone. -/
theorem epochBase_getNextBatch (env : BatchEnv Tx) (req : GetNextBatchRequest)
    (s : Sequencer Tx) : (getNextBatch env view req s).2.epochBase = s.epochBase ∨
      (getNextBatch env view req s).2.epochBase = (initCheckpoint view s).epochBase := by
  have hadvanced : ∀ {d s1}, fetchIfConsumed env view req.maxBytes (initCheckpoint view s) =
      (.ok d, s1) → (s1.advanced env req.maxBytes d).epochBase =
        (initCheckpoint view s).epochBase := by
    intro d s1 hf
    obtain ⟨_, _, _, heq⟩ := advanced_eq env req.maxBytes d s1
    obtain ⟨_, _, _, _, rfl⟩ := fetchIfConsumed_eq hf
    rw [heq]
    rfl
  have hc := getNextBatch_cases env view req s
  generalize getNextBatch env view req s = r at hc
  cases hc with
  | invalidId _ => exact .inl rfl
  | fetchFailed _ s1 _ hf | drainCrash _ s1 _ hf _ =>
    obtain ⟨_, _, _, _, rfl⟩ := fetchIfConsumed_eq hf
    exact .inr rfl
  | saveFailed d s1 _ hf _ _ | saveCrash d s1 _ hf _ _ => exact .inr (hadvanced hf)
  | noBatch d s1 _ hf _ _ | batch d s1 _ hf _ _ =>
    obtain ⟨_, heq⟩ := saved_eq env req.maxBytes d s1
    rw [heq]
    exact .inr (hadvanced hf)

theorem AtGenesis.getNextBatch (h : AtGenesis genesis s)
    (hview : genesis.daStartHeight ≠ 0 ∨ view.genesisDAHeight.getD 0 = 0) (env : BatchEnv Tx)
    (req : GetNextBatchRequest) : AtGenesis genesis (Sequencer.getNextBatch env view req s).2 := by
  rcases epochBase_getNextBatch env req s with heq | heq
  · exact heq.trans h
  · refine heq.trans ?_
    unfold initCheckpoint
    split
    · exact atGenesis_startRetriever hview (congrArg Prod.fst h) (congrArg (fun x => x.2.1) h)
    · exact h

theorem atGenesis_step (cfg : SequencerConfig) (l : Live (Sequencer Tx)) (op : Op Tx)
    (h : l.Holds (AtGenesis cfg.genesis) fun _ => True) (hop : StartsAtGenesis cfg.genesis op) :
    (step cfg l op).Holds (AtGenesis cfg.genesis) fun _ => True := by
  cases op with
  | start env view =>
    refine h.boot fun _ => wp_mono (newSequencer_spec cfg env view l.state) ?_
      (fun _ _ _ => trivial) (fun _ _ => trivial)
    rintro _ s ⟨q, rfl⟩
    exact atGenesis_startRetriever hop rfl rfl
  | crash => exact h.halt fun _ _ => trivial
  | submit put req =>
    refine h.call fun hi => wp_of_state ?_ fun _ _ => trivial
    obtain ⟨q, hq⟩ := submitBatchTxs_queue put req l.state
    rw [hq]
    exact hi
  | getNextBatch env view req =>
    exact h.call fun hi => wp_of_state (hi.getNextBatch hop env req) fun _ _ => trivial
  | ack put commit => exact h.call fun hi => wp_of_state hi fun _ _ => trivial
  | setDAHeight height => exact h.call fun hi => hi

end Sequencer

namespace EpochTiling

def cfg (daStartHeight : Nat) : SequencerConfig :=
  ⟨⟨"chain", 0, 1, [7], daStartHeight, 10, Nat.one_pos, by decide⟩, "chain", 0, true⟩

/-- DA height 5 was recorded for the first block. -/
def view : ChainView RawTx := ⟨0, none, none, none, some 5⟩

def blank (daStartHeight : Nat) : Sequencer RawTx := .blank (cfg daStartHeight) ⟨.empty, [], []⟩ none

def started (daStartHeight : Nat) : Live (Sequencer RawTx) :=
  Run.exec (Sequencer.step (cfg daStartHeight)) ⟨false, blank daStartHeight⟩ [.start .plain view]

end EpochTiling

end EvNode
