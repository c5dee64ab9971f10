import EvNode.Lib.Run
import EvNode.Properties.Cursor
import EvNode.Properties.NewSequencer

/-!
# Epochs and failed retrievals

The checkpoint should pass an epoch only after a call in which every height of the epoch was
answered. The retriever reports a partly failed epoch as an event without transactions, and the
sequencers then move on. `CallOk` excludes such calls; under it the checkpoint passes answered
epochs only, for both sequencers.
-/

namespace EvNode

open Crash Proc

variable {Tx : Type} [Transaction Tx]

/-- An epoch: the retriever that tiles the heights and the last height. -/
abbrev Epoch := ForcedInclusionRetriever × Nat

namespace Cursor

/-- The epoch a call gets an answer for at every height. -/
def answeredBy (da : DAAnswers Tx) (c : Cursor Tx) : List Epoch :=
  if c.Fetches ∧ c.retriever.IsEpochEnd c.checkpoint.daHeight ∧
      c.retriever.EpochAnswered da c.checkpoint.daHeight
  then [(c.retriever, c.checkpoint.daHeight)] else []

/--
The condition on one call. A fetch at an epoch end finds every height of the epoch answered, or
some height from the future. A call that serves cached transactions starts at a DA height not
above the checkpoint.
-/
def CallOk (da : DAAnswers Tx) (c : Cursor Tx) : Prop :=
  (c.Fetches → c.retriever.IsEpochEnd c.checkpoint.daHeight →
    c.retriever.EpochFromFuture da c.checkpoint.daHeight ∨
      c.retriever.EpochAnswered da c.checkpoint.daHeight) ∧
  (¬ c.Fetches → c.remaining ≠ [] → c.daHeight ≤ c.checkpoint.daHeight)

/-- Cached transactions come from an epoch that was answered. -/
def Known (answered : List Epoch) (c : Cursor Tx) : Prop :=
  c.remaining ≠ [] → (c.retriever, c.checkpoint.daHeight) ∈ answered

omit [Transaction Tx] in
theorem advance_cases (d : Nat) (consumed : List (Tx × FilterStatus)) (c : Cursor Tx) :
    ((c.advance d consumed).checkpoint.daHeight = d + 1 ∧ (c.advance d consumed).remaining = []) ∨
      ((c.advance d consumed).checkpoint.daHeight = c.checkpoint.daHeight ∧
        (c.advance d consumed).retriever = c.retriever ∧
        c.checkpoint.txIndex < c.cached.length) := by
  unfold advance
  dsimp only
  split
  · exact .inl ⟨rfl, List.drop_nil⟩
  · exact .inr ⟨rfl, rfl, by omega⟩

variable {da : DAAnswers Tx} {c c' : Cursor Tx} {maxBytes : Nat}

/-- Under the condition, a fetched event is about a height inside an epoch, and has no
transactions, or about an epoch that was answered. -/
theorem fetched_cases {event : ForcedInclusionEvent Tx}
    (hok : c.CallOk da) (hf : c.Fetches)
    (hr : retrieveForcedIncludedTxs c.retriever da c.checkpoint.daHeight = .ok event) :
    event.endDaHeight = c.checkpoint.daHeight ∧
      ((¬ c.retriever.IsEpochEnd c.checkpoint.daHeight ∧ event.txs = []) ∨
        (c.retriever.EpochAnswered da c.checkpoint.daHeight ∧
          (c.retriever, c.checkpoint.daHeight) ∈ c.answeredBy da)) := by
  have hc := retrieve_cases c.retriever da c.checkpoint.daHeight
  rw [hr] at hc
  cases hc with
  | notEnd hns hle hne => exact ⟨rfl, .inl ⟨hne, rfl⟩⟩
  | failed ts hns hend hfut hans =>
    rcases hok.1 hf hend with h | h
    · exact absurd h hfut
    · exact absurd h hans
  | complete ts hns hend hans =>
    refine ⟨rfl, .inr ⟨hans, ?_⟩⟩
    unfold answeredBy
    rw [if_pos ⟨hf, hend, hans⟩]
    exact List.mem_singleton.mpr rfl

/-- **One call passes answered epochs only.** -/
theorem call_moves
    {answered : List Epoch} (h : Call da maxBytes c c') (hok : c.CallOk da)
    (hk : c.Known answered) {E : Nat} (hend : c.retriever.IsEpochEnd E)
    (hle : c.checkpoint.daHeight ≤ E) (hlt : E < c'.checkpoint.daHeight) :
    (c.retriever, E) ∈ answered ++ c.answeredBy da := by
  cases h with
  | idle => omega
  | cleared hf | interrupted event hf hr => exact absurd hlt (by simp only; omega)
  | served consumed hf hrem hc =>
    have hne := remaining_ne_nil hf hrem
    have hd := hok.2 hf hne
    rcases advance_cases c.daHeight consumed c with ⟨hcp, _⟩ | ⟨hcp, _, _⟩
    · have hE : E = c.checkpoint.daHeight := by omega
      rw [hE]
      exact List.mem_append_left _ (hk hne)
    · omega
  | fetched event consumed hf hr hc =>
    obtain ⟨hd, hcase⟩ := fetched_cases hok hf hr
    rcases advance_cases event.endDaHeight consumed
      { c with cached := sizeFiltered maxBytes event.txs } with ⟨hcp, _⟩ | ⟨hcp, _, _⟩
    · have hE : E = c.checkpoint.daHeight := by omega
      rcases hcase with ⟨hne, _⟩ | ⟨_, hmem⟩
      · rw [hE] at hend
        exact absurd hend hne
      · rw [hE]
        exact List.mem_append_right _ hmem
    · simp only at hcp
      omega

/-- **A call that finds an epoch end unanswered leaves the checkpoint where it is.** -/
theorem call_keeps
    (h : Call da maxBytes c c') (hok : c.CallOk da) (hf : c.Fetches)
    (hend : c.retriever.IsEpochEnd c.checkpoint.daHeight)
    (hans : ¬ c.retriever.EpochAnswered da c.checkpoint.daHeight) :
    c'.checkpoint = c.checkpoint := by
  cases h with
  | idle | cleared _ | interrupted _ _ _ => rfl
  | served _ hnf _ _ => exact absurd hf hnf
  | fetched event consumed _ hr _ =>
    rcases (fetched_cases hok hf hr).2 with ⟨hne, _⟩ | ⟨hans', _⟩
    · exact absurd hend hne
    · exact absurd hans' hans

theorem call_known
    {answered : List Epoch} (h : Call da maxBytes c c') (hok : c.CallOk da)
    (hk : c.Known answered) : c'.Known (answered ++ c.answeredBy da) := by
  -- an epoch that was just fetched and has transactions was answered in this call
  have hfetched : ∀ event, c.Fetches →
      retrieveForcedIncludedTxs c.retriever da c.checkpoint.daHeight = .ok event →
      c.checkpoint.txIndex < (sizeFiltered maxBytes event.txs).length →
      (c.retriever, c.checkpoint.daHeight) ∈ answered ++ c.answeredBy da := by
    intro event hf hr hlt
    rcases (fetched_cases hok hf hr).2 with ⟨_, hnil⟩ | ⟨_, hmem⟩
    · rw [hnil] at hlt
      exact absurd hlt (Nat.not_lt_zero _)
    · exact List.mem_append_right _ hmem
  intro hne
  cases h with
  | idle => exact List.mem_append_left _ (hk hne)
  | cleared hf => exact absurd List.drop_nil hne
  | interrupted event hf hr => exact hfetched event hf hr (List.length_lt_of_drop_ne_nil hne)
  | served consumed hf hrem hc =>
    rcases advance_cases c.daHeight consumed c with ⟨_, hnil⟩ | ⟨hcp, hr, _⟩
    · exact absurd hnil hne
    · rw [hcp, hr]
      exact List.mem_append_left _ (hk (remaining_ne_nil hf hrem))
  | fetched event consumed hf hr hc =>
    rcases advance_cases event.endDaHeight consumed
      { c with cached := sizeFiltered maxBytes event.txs } with ⟨_, hnil⟩ | ⟨hcp, hret, hlt⟩
    · exact absurd hnil hne
    · rw [hcp, hret]
      exact hfetched event hf hr hlt

/-- Cached transactions go with a checkpoint that is set. -/
def Primed (c : Cursor Tx) : Prop := c.cached ≠ [] → 0 < c.checkpoint.daHeight

omit [Transaction Tx] in
theorem Primed.advance (hp : c.Primed) (d : Nat)
    (consumed : List (Tx × FilterStatus)) : (c.advance d consumed).Primed := by
  unfold Cursor.advance
  dsimp only
  split
  · exact fun _ => Nat.succ_pos d
  · exact hp

theorem call_primed
    (h : Call da maxBytes c c') (hpos : c.Fetches → 0 < c.checkpoint.daHeight)
    (hp : c.Primed) : c'.Primed := by
  cases h with
  | idle => exact hp
  | cleared hf => exact fun hne => absurd rfl hne
  | interrupted event hf hr => exact fun _ => hpos hf
  | served consumed hf hrem hc => exact hp.advance _ _
  | fetched event consumed hf hr hc =>
    have hp' : Primed { c with cached := sizeFiltered maxBytes event.txs } := fun _ => hpos hf
    exact hp'.advance _ _

end Cursor

/-! ## Runs of the single sequencer -/

/-- A process together with the epochs that were answered in some call so far. -/
structure Watched (σ : Type) where
  live : Live σ
  answered : List Epoch

namespace Sequencer

def answeredIn (l : Live (Sequencer Tx)) : Op Tx → List Epoch
  | .getNextBatch env view req =>
    if l.up ∧ l.state.id = req.id then (initCheckpoint view l.state).cursor.answeredBy env.da
    else []
  | _ => []

def watch (cfg : SequencerConfig) (w : Watched (Sequencer Tx)) (op : Op Tx) :
    Watched (Sequencer Tx) :=
  ⟨step cfg w.live op, w.answered ++ answeredIn w.live op⟩

/-- The condition on each operation of a run: it is about calls only. -/
def OpOk (w : Watched (Sequencer Tx)) : Op Tx → Prop
  | .getNextBatch env view _ =>
    w.live.up = true → (initCheckpoint view w.live.state).cursor.CallOk env.da
  | _ => True

def EpochInv (answered : List Epoch) (s : Sequencer Tx) : Prop :=
  s.cursor.Known answered ∧ s.cursor.Primed

variable {answered : List Epoch} {s : Sequencer Tx}

omit [Transaction Tx] in
theorem EpochInv.mono (h : EpochInv answered s)
    (more : List Epoch) : EpochInv (answered ++ more) s :=
  ⟨fun hne => List.mem_append_left _ (h.1 hne), h.2⟩

omit [Transaction Tx] in
/-- The checkpoint init path runs only without cached transactions. -/
theorem EpochInv.initCheckpoint
    (h : EpochInv answered s) (view : ChainView Tx) :
    EpochInv answered (initCheckpoint view s) := by
  unfold Sequencer.initCheckpoint
  split
  · next hc =>
    have hnil : s.cachedForcedInclusionTxs = [] := by
      by_contra hne
      have hpos : 0 < s.checkpoint.daHeight := h.2 hne
      omega
    refine ⟨fun hne => absurd ?_ hne, fun _ => hc.1⟩
    show s.cachedForcedInclusionTxs.drop 0 = []
    rw [hnil]
    rfl
  · exact h

theorem EpochInv.getNextBatch
    (h : EpochInv answered s) (env : BatchEnv Tx) (view : ChainView Tx)
    (req : GetNextBatchRequest) (hok : (Sequencer.initCheckpoint view s).cursor.CallOk env.da) :
    EpochInv (answered ++ if s.id = req.id then
        (Sequencer.initCheckpoint view s).cursor.answeredBy env.da else [])
      (getNextBatch env view req s).2 := by
  have hinit := h.initCheckpoint view
  by_cases hid : s.id = req.id
  · rw [if_pos hid]
    have hcall := getNextBatch_call env view hid
    refine ⟨Cursor.call_known hcall hok hinit.1, Cursor.call_primed hcall ?_ hinit.2⟩
    exact fun hf => checkpoint_pos_of_initCheckpoint view s hf.1
  · rw [if_neg hid, getNextBatch_invalidId hid]
    exact h.mono _

theorem epochInv_step (cfg : SequencerConfig) (w : Watched (Sequencer Tx)) (op : Op Tx)
    (h : w.live.Holds (EpochInv w.answered) fun _ => True) (hok : OpOk w op) :
    (watch cfg w op).live.Holds (EpochInv (watch cfg w op).answered) fun _ => True := by
  cases op with
  | start env view =>
    have hmono : w.live.Holds (EpochInv (w.answered ++ [])) fun _ => True := by
      rw [List.append_nil]
      exact h
    refine hmono.boot fun _ => ?_
    refine wp_mono (newSequencer_spec cfg env view w.live.state) ?_ (fun _ _ _ => trivial)
      (fun _ _ => trivial)
    rintro _ s ⟨q, rfl⟩
    exact ⟨fun hne => absurd List.drop_nil hne, fun hne => absurd rfl hne⟩
  | crash => exact ⟨fun hf => absurd hf (by simp [watch, step, Live.halt]), fun _ => trivial⟩
  | submit put req =>
    refine Live.call_holds (fun _ => trivial) fun hup => wp_of_state ?_ fun _ _ => trivial
    rcases submitBatchTxs_state put req w.live.state with hs | hs
    · rw [hs]
      exact (h.1 hup).mono _
    · rw [hs]
      exact (h.1 hup).mono _
  | getNextBatch env view req =>
    refine Live.call_holds (fun _ => trivial) fun hup => wp_of_state ?_ fun _ _ => trivial
    have hnext := (h.1 hup).getNextBatch env view req (hok hup)
    simpa only [watch, answeredIn, hup, true_and] using hnext
  | ack put commit =>
    refine Live.call_holds (fun _ => trivial) fun hup => wp_of_state ?_ fun _ _ => trivial
    exact (h.1 hup).mono _
  | setDAHeight height =>
    show (w.live.call (modify (setDAHeight height) : Proc (Sequencer Tx) Err Unit)).Holds
      (EpochInv (w.answered ++ [])) fun _ => True
    refine Live.call_holds (fun _ => trivial) fun hup => ?_
    exact (h.1 hup).mono _

end Sequencer

/-! ## Runs of the based sequencer -/

namespace BasedSequencer

def answeredIn (l : Live (BasedSequencer Tx)) : Op Tx → List Epoch
  | .getNextBatch env _ => if l.up then l.state.cursor.answeredBy env.da else []
  | _ => []

def watch (genesis : Genesis) (ns : Bool) (w : Watched (BasedSequencer Tx)) (op : Op Tx) :
    Watched (BasedSequencer Tx) :=
  ⟨step genesis ns w.live op, w.answered ++ answeredIn w.live op⟩

def OpOk (w : Watched (BasedSequencer Tx)) : Op Tx → Prop
  | .getNextBatch env _ => w.live.up = true → w.live.state.cursor.CallOk env.da
  | _ => True

omit [Transaction Tx] in
theorem newBasedSequencer_cached (genesis : Genesis) (ns : Bool) (load : Outcome)
    (view : ChainView Tx) (b : BasedSequencer Tx) :
    wp (newBasedSequencer genesis ns load view) (fun _ b => b.currentBatchTxs = [])
      (fun _ _ => True) (fun _ => True) b := by
  unfold newBasedSequencer
  rw [wp_bind, wp_modify, wp_io]
  exact ⟨fun _ => rfl, fun _ => trivial, fun _ => trivial⟩

theorem known_step (genesis : Genesis) (ns : Bool) (w : Watched (BasedSequencer Tx)) (op : Op Tx)
    (h : w.live.Holds (fun b => b.cursor.Known w.answered) fun _ => True) (hok : OpOk w op) :
    (watch genesis ns w op).live.Holds
      (fun b => b.cursor.Known (watch genesis ns w op).answered) fun _ => True := by
  cases op with
  | start load view =>
    have hmono : w.live.Holds (fun b => b.cursor.Known (w.answered ++ [])) fun _ => True := by
      rw [List.append_nil]
      exact h
    refine hmono.boot fun _ => ?_
    refine wp_mono (newBasedSequencer_cached genesis ns load view w.live.state) ?_
      (fun _ _ _ => trivial) (fun _ _ => trivial)
    intro _ b hb hne
    refine absurd ?_ hne
    show b.currentBatchTxs.drop b.checkpoint.txIndex = []
    rw [hb]
    exact List.drop_nil
  | crash => exact ⟨fun hf => absurd hf (by simp [watch, step, Live.halt]), fun _ => trivial⟩
  | getNextBatch env req =>
    refine Live.call_holds (fun _ => trivial) fun hup => wp_of_state ?_ fun _ _ => trivial
    have hnext := Cursor.call_known (getNextBatch_call env req w.live.state) (hok hup) (h.1 hup)
    simpa only [watch, answeredIn, hup, if_true] using hnext
  | setDAHeight height =>
    show (w.live.call (modify (setDAHeight height) : Proc (BasedSequencer Tx) Err Unit)).Holds
      (fun b => b.cursor.Known (w.answered ++ [])) fun _ => True
    refine Live.call_holds (fun _ => trivial) fun hup => ?_
    exact fun hne => List.mem_append_left _ (h.1 hup hne)

end BasedSequencer

/-! ## Both sequencers -/

/-- The move of the checkpoint from `c` to `c'` in a call with the answers `da`: it passes epochs
of `answered` only, and an epoch that is not answered is left for the next call. -/
def Cursor.Retries (da : DAAnswers Tx) (answered : List Epoch) (c c' : Cursor Tx) : Prop :=
  (∀ E, c.retriever.IsEpochEnd E → c.checkpoint.daHeight ≤ E → E < c'.checkpoint.daHeight →
    (c.retriever, E) ∈ answered) ∧
  (c.Fetches → c.retriever.IsEpochEnd c.checkpoint.daHeight →
    ¬ c.retriever.EpochAnswered da c.checkpoint.daHeight → c'.checkpoint = c.checkpoint)

/--
**Epochs are retried.**

In a run of either sequencer in which every call meets `CallOk`, each call passes an epoch only
after a call in which every height of the epoch was answered, and leaves the checkpoint alone when
some height was not.
-/
theorem epochs_retried :
    (∀ (cfg : SequencerConfig) (s0 : Sequencer Tx) (ops : List (Sequencer.Op Tx))
        (env : BatchEnv Tx) (view : ChainView Tx) (req : GetNextBatchRequest),
      Run.Meets (Sequencer.watch cfg) Sequencer.OpOk ⟨⟨false, s0⟩, []⟩
        (ops ++ [.getNextBatch env view req]) →
      let w := Run.exec (Sequencer.watch cfg) ⟨⟨false, s0⟩, []⟩ ops
      let w' := Sequencer.watch cfg w (.getNextBatch env view req)
      w.live.up = true → w.live.state.id = req.id →
      Cursor.Retries env.da w'.answered (Sequencer.initCheckpoint view w.live.state).cursor
        w'.live.state.cursor) ∧
    (∀ (genesis : Genesis) (ns : Bool) (b0 : BasedSequencer Tx)
        (ops : List (BasedSequencer.Op Tx)) (env : BatchEnv Tx) (req : GetNextBatchRequest),
      Run.Meets (BasedSequencer.watch genesis ns) BasedSequencer.OpOk ⟨⟨false, b0⟩, []⟩
        (ops ++ [.getNextBatch env req]) →
      let w := Run.exec (BasedSequencer.watch genesis ns) ⟨⟨false, b0⟩, []⟩ ops
      let w' := BasedSequencer.watch genesis ns w (.getNextBatch env req)
      w.live.up = true →
      Cursor.Retries env.da w'.answered w.live.state.cursor w'.live.state.cursor) := by
  constructor
  · intro cfg s0 ops env view req hmeets w w' hup hid
    obtain ⟨hrun, hok⟩ := (Run.meets_concat ops _ _).mp hmeets
    have hinv := Run.invariant
      (fun w : Watched (Sequencer Tx) => w.live.Holds (Sequencer.EpochInv w.answered) fun _ => True)
      (Sequencer.epochInv_step cfg) ops ⟨⟨false, s0⟩, []⟩
      ⟨fun hf => absurd hf (by simp), fun _ => trivial⟩ hrun
    have hinit := (hinv.1 hup).initCheckpoint view
    have hstate : w'.live.state = (Sequencer.getNextBatch env view req w.live.state).2 :=
      Live.call_up hup
    have hans : w'.answered =
        w.answered ++ (Sequencer.initCheckpoint view w.live.state).cursor.answeredBy env.da := by
      show w.answered ++ (if w.live.up ∧ w.live.state.id = req.id then _ else []) = _
      rw [if_pos ⟨hup, hid⟩]
    rw [hstate, hans]
    have hcall := Sequencer.getNextBatch_call env view hid
    exact ⟨fun E hend hle hlt => Cursor.call_moves hcall (hok hup) hinit.1 hend hle hlt,
      fun hf hend hna => Cursor.call_keeps hcall (hok hup) hf hend hna⟩
  · intro genesis ns b0 ops env req hmeets w w' hup
    obtain ⟨hrun, hok⟩ := (Run.meets_concat ops _ _).mp hmeets
    have hinv := Run.invariant
      (fun w : Watched (BasedSequencer Tx) =>
        w.live.Holds (fun b => b.cursor.Known w.answered) fun _ => True)
      (BasedSequencer.known_step genesis ns) ops ⟨⟨false, b0⟩, []⟩
      ⟨fun hf => absurd hf (by simp), fun _ => trivial⟩ hrun
    have hstate : w'.live.state = (BasedSequencer.getNextBatch env req w.live.state).2 :=
      Live.call_up hup
    have hans : w'.answered = w.answered ++ w.live.state.cursor.answeredBy env.da := by
      show w.answered ++ (if w.live.up then _ else []) = _
      rw [if_pos hup]
    have hcall := BasedSequencer.getNextBatch_call env req w.live.state
    rw [hstate, hans]
    exact ⟨fun E hend hle hlt => Cursor.call_moves hcall (hok hup) (hinv.1 hup) hend hle hlt,
      fun hf hend hna => Cursor.call_keeps hcall (hok hup) hf hend hna⟩

/-! ## One failed height -/

namespace EpochRetryRun

def genesis : Genesis := ⟨"chain", 0, 1, [1], 10, 2, Nat.one_pos, Nat.two_pos⟩

def cfg : SequencerConfig := ⟨genesis, "chain", 0, true⟩

/-- The first epoch is 10 to 11. Height 10 is answered with `code`. -/
def env (code : StatusCode) : BatchEnv RawTx where
  da :=
    { getCachedBlock := fun _ => none
      retrieve := fun h => if h = 10 then ⟨code, "", 1000000000, [⟨1, 5⟩]⟩
        else ⟨.success, "", 2000000000, [⟨2, 6⟩]⟩ }
  latestDAHeight := some 11
  executor := .acceptAll
  now := 9000000000
  rollbackDelete := .ok
  save := .ok

def view : ChainView RawTx := ⟨0, none, none, none, none⟩

def req : GetNextBatchRequest := ⟨"chain", 100⟩

def startEnv : Sequencer.StartEnv :=
  ⟨⟨.ok, fun _ => .ok, fun _ => .ok, fun _ => .ok⟩, .ok, fun _ => .ok, .ok⟩

def blank : Watched (Sequencer RawTx) := ⟨⟨false, .blank cfg ⟨.empty, [], []⟩ none⟩, []⟩

def ops (code : StatusCode) : List (Sequencer.Op RawTx) :=
  [.start startEnv view, .getNextBatch (env code) view req]

/-- The single sequencer at the end of the first epoch, before and after the call there. -/
def before (code : StatusCode) : Watched (Sequencer RawTx) :=
  Run.exec (Sequencer.watch cfg) blank (ops code)

def after (code : StatusCode) : Watched (Sequencer RawTx) :=
  Sequencer.watch cfg (before code) (.getNextBatch (env code) view req)

def blankBased : Watched (BasedSequencer RawTx) :=
  ⟨⟨false, ⟨⟨true, 10, 2⟩, 0, none, ⟨0, 0, []⟩, [], 0, 0⟩⟩, []⟩

def opsBased (code : StatusCode) : List (BasedSequencer.Op RawTx) :=
  [.start .ok view, .getNextBatch (env code) req]

def beforeBased (code : StatusCode) : Watched (BasedSequencer RawTx) :=
  Run.exec (BasedSequencer.watch genesis true) blankBased (opsBased code)

def afterBased (code : StatusCode) : Watched (BasedSequencer RawTx) :=
  BasedSequencer.watch genesis true (beforeBased code) (.getNextBatch (env code) req)

end EpochRetryRun

open EpochRetryRun in
/-- Height 10 fails once: both sequencers pass the epoch 10 to 11, which was never answered. -/
theorem failed_epoch_skipped :
    ((before .error).live.state.checkpoint.daHeight = 11 ∧
      (after .error).live.state.checkpoint.daHeight = 12 ∧
      ¬ Cursor.Retries (env .error).da (after .error).answered
        (Sequencer.initCheckpoint view (before .error).live.state).cursor
        (after .error).live.state.cursor) ∧
    ((beforeBased .error).live.state.checkpoint.daHeight = 11 ∧
      (afterBased .error).live.state.checkpoint.daHeight = 12 ∧
      ¬ Cursor.Retries (env .error).da (afterBased .error).answered
        (beforeBased .error).live.state.cursor (afterBased .error).live.state.cursor) := by
  refine ⟨⟨by decide, by decide, ?_⟩, ⟨by decide, by decide, ?_⟩⟩
  · intro h
    have hmem := h.1 11 (by decide) (by decide) (by decide)
    exact absurd hmem (by decide)
  · intro h
    have hmem := h.1 11 (by decide) (by decide) (by decide)
    exact absurd hmem (by decide)

open EpochRetryRun in
/-- Height 10 is answered: the call at the end of the epoch passes it, in a run that meets the
condition. -/
theorem epochs_retried_answered :
    (after .success).live.state.checkpoint.daHeight = 12 ∧
      Cursor.Retries (env .success).da (after .success).answered
        (Sequencer.initCheckpoint view (before .success).live.state).cursor
        (after .success).live.state.cursor := by
  refine ⟨by decide, ?_⟩
  refine epochs_retried.1 cfg blank.live.state (ops .success) (env .success) view req ?_
    (by decide) (by decide)
  refine ⟨trivial, fun _ => ⟨?_, ?_⟩, fun _ => ⟨?_, ?_⟩, trivial⟩
  · intro _ hend
    exact absurd hend (by decide)
  · intro hf
    exact absurd (by decide) hf
  · intro _ _
    exact .inr (by decide)
  · intro hf
    exact absurd (by decide) hf

end EvNode
