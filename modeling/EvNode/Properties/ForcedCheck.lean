import EvNode.Properties.Retriever
import EvNode.Syncing.ForcedInclusion

/-!
# What one verification does

`checkEpoch_cases` says everything one turn of the loop of `VerifyForcedInclusionTxs` can do.
`verify_cases` is the rule for the loop: what every successful turn keeps holds at the epoch at
which the loop stops, either because its grace boundary is not below the DA height or because its
turn returned an error.
-/

namespace EvNode

open Crash Proc

variable {Tx : Type}

namespace Genesis

/-- `e` is the last height of an epoch. -/
def IsEpochEnd (genesis : Genesis) (e : Nat) : Prop :=
  ∃ k, e + 1 = genesis.daStartHeight + (k + 1) * genesis.daEpochForcedInclusion

def retriever (genesis : Genesis) (ns : Bool) : ForcedInclusionRetriever :=
  ⟨ns, genesis.daStartHeight, genesis.daEpochForcedInclusion⟩

variable {genesis : Genesis} {e : Nat}

theorem IsEpochEnd.next (h : genesis.IsEpochEnd e) :
    genesis.IsEpochEnd (e + genesis.daEpochForcedInclusion) := by
  obtain ⟨k, hk⟩ := h
  refine ⟨k + 1, ?_⟩
  rw [Nat.succ_mul (k + 1)]
  omega

theorem isEpochEnd_first (genesis : Genesis) :
    genesis.IsEpochEnd (genesis.daStartHeight + genesis.daEpochForcedInclusion - 1) := by
  have hpos := genesis.daEpochForcedInclusion_pos
  refine ⟨0, ?_⟩
  rw [Nat.zero_add, Nat.one_mul]
  omega

theorem IsEpochEnd.first_le (h : genesis.IsEpochEnd e) :
    genesis.daStartHeight + genesis.daEpochForcedInclusion - 1 ≤ e := by
  obtain ⟨k, hk⟩ := h
  rw [Nat.succ_mul] at hk
  omega

theorem IsEpochEnd.add_le_of_lt {e' : Nat} (h : genesis.IsEpochEnd e) (h' : genesis.IsEpochEnd e')
    (hlt : e < e') : e + genesis.daEpochForcedInclusion ≤ e' := by
  obtain ⟨k, hk⟩ := h
  obtain ⟨k', hk'⟩ := h'
  have hkk : k + 1 < k' + 1 := by
    refine Nat.lt_of_mul_lt_mul_right (a := genesis.daEpochForcedInclusion) ?_
    omega
  have hmul : (k + 1 + 1) * genesis.daEpochForcedInclusion ≤
      (k' + 1) * genesis.daEpochForcedInclusion := Nat.mul_le_mul_right _ hkk
  rw [Nat.succ_mul (k + 1)] at hmul
  omega

/-- The epoch ends of the syncer are those of its retriever. -/
theorem IsEpochEnd.retriever (h : genesis.IsEpochEnd e) (ns : Bool) :
    (genesis.retriever ns).IsEpochEnd e := by
  have hpos := genesis.daEpochForcedInclusion_pos
  have hle := h.first_le
  obtain ⟨k, hk⟩ := h
  have hstart : genesis.daStartHeight ≤ e := by omega
  refine ⟨hstart, ?_⟩
  have hnum : (e - genesis.daStartHeight) / genesis.daEpochForcedInclusion = k := by
    rw [Nat.succ_mul] at hk
    refine Nat.div_eq_of_lt_le ?_ ?_
    · omega
    · rw [Nat.succ_mul]
      omega
  show e = epochEnd e genesis.daStartHeight genesis.daEpochForcedInclusion
  unfold epochEnd calculateEpochBoundaries calculateEpochNumber
  simp only [Nat.not_lt.mpr hstart, if_false, Nat.pos_iff_ne_zero.mp hpos, hnum]
  omega

/-- The heights of an epoch are the ones up to its end. -/
theorem IsEpochEnd.of_mem_heights (h : genesis.IsEpochEnd e) {ns : Bool} {x : Nat}
    (hx : x ∈ (genesis.retriever ns).heights e) : genesis.daStartHeight ≤ x ∧ x ≤ e := by
  have hpos := genesis.daEpochForcedInclusion_pos
  obtain ⟨hstart, hend⟩ := h.retriever ns
  have hx : x ∈ List.range' (epochStart e genesis.daStartHeight genesis.daEpochForcedInclusion)
      (epochEnd e genesis.daStartHeight genesis.daEpochForcedInclusion + 1 -
        epochStart e genesis.daStartHeight genesis.daEpochForcedInclusion) := hx
  rw [List.mem_range'_1] at hx
  have hfirst : genesis.daStartHeight ≤
      epochStart e genesis.daStartHeight genesis.daEpochForcedInclusion := by
    unfold epochStart calculateEpochBoundaries
    have hle : ¬ e < genesis.daStartHeight := Nat.not_lt.mpr hstart
    simp only [Nat.pos_iff_ne_zero.mp hpos, hle, if_false]
    exact Nat.le_add_right _ _
  have hend : e = epochEnd e genesis.daStartHeight genesis.daEpochForcedInclusion := hend
  omega

end Genesis

variable [Transaction Tx]

/-- What the DA layer answers for a height is what that height holds. -/
def DAAnswers.Truthful (da : DAAnswers Tx) (content : Nat → List Tx) : Prop :=
  ∀ h, da.Answered h → da.txsAt h = content h

/-- The forced transactions of the epoch that ends at `e`. -/
def Genesis.forcedTxs (genesis : Genesis) (content : Nat → List Tx) (e : Nat) : List Tx :=
  ((genesis.retriever true).heights e).flatMap content

/-- A retrieval from a truthful DA layer returns the forced transactions of the epoch, or none. -/
theorem DAAnswers.Truthful.retrieved {da : DAAnswers Tx} {content : Nat → List Tx}
    (h : da.Truthful content) {genesis : Genesis} {ns : Bool} {e : Nat}
    {event : ForcedInclusionEvent Tx}
    (hr : retrieveForcedIncludedTxs (genesis.retriever ns) da e = .ok event) :
    event.txs = [] ∨ event.txs = genesis.forcedTxs content e := by
  have hc := retrieve_cases (genesis.retriever ns) da e
  rw [hr] at hc
  cases hc with
  | notEnd _ _ _ | failed _ _ _ _ _ => exact .inl rfl
  | complete ts hns hend hans =>
    right
    show ((genesis.retriever ns).heights e).flatMap da.txsAt = _
    exact List.flatMap_congr fun x hx => h x (hans x hx)

/-- When every height of the epoch is answered, the retrieval returns its forced transactions. -/
theorem DAAnswers.Truthful.retrieve_answered {da : DAAnswers Tx} {content : Nat → List Tx}
    (h : da.Truthful content) {genesis : Genesis} {e : Nat} (he : genesis.IsEpochEnd e)
    (hans : (genesis.retriever true).EpochAnswered da e) :
    ∃ event, retrieveForcedIncludedTxs (genesis.retriever true) da e = .ok event ∧
      event.txs = genesis.forcedTxs content e := by
  have hend := he.retriever true
  have hc := retrieve_cases (genesis.retriever true) da e
  cases hr : retrieveForcedIncludedTxs (genesis.retriever true) da e with
  | error err =>
    rw [hr] at hc
    cases hc with
    | notConfigured hns => cases hns
    | beforeStart _ hlt => exact absurd hend.1 (Nat.not_le.mpr hlt)
    | future _ _ hf =>
      obtain ⟨x, hx, hfx⟩ := hf
      exact absurd hfx (hans x hx).not_fromFuture
  | ok event =>
    refine ⟨event, rfl, ?_⟩
    rw [hr] at hc
    cases hc with
    | notEnd _ _ hne => exact absurd hend hne
    | failed _ _ _ _ hnot => exact absurd hans hnot
    | complete ts _ _ _ => exact List.flatMap_congr fun x hx => h x (hans x hx)

namespace ForcedInclusion

def looked (lookups : List (Lookup Tx)) (s : ForcedInclusion Tx) : ForcedInclusion Tx :=
  { s with lookups := s.lookups ++ lookups }

inductive CheckCase (r : ForcedInclusionRetriever) (env : VerifyEnv Tx) (maxGas epochEnd : Nat)
    (s : ForcedInclusion Tx) : Exit Err Nat × ForcedInclusion Tx → Prop
  | notConfigured (hns : r.hasForcedInclusionNamespace = false) :
    CheckCase r env maxGas epochEnd s (.error .forceInclusionNotConfigured, s)
  | unretrieved (e : Err) (hns : r.hasForcedInclusionNamespace = true)
      (hr : retrieveForcedIncludedTxs r env.da epochEnd = .error e) :
    CheckCase r env maxGas epochEnd s
      (.error (.wrap "failed to retrieve forced inclusion txs for epoch" e), s)
  | empty (event : ForcedInclusionEvent Tx)
      (hr : retrieveForcedIncludedTxs r env.da epochEnd = .ok event) (htxs : event.txs = []) :
    CheckCase r env maxGas epochEnd s (.ok 0, s.epochChecked epochEnd)
  | unfiltered (event : ForcedInclusionEvent Tx)
      (hr : retrieveForcedIncludedTxs r env.da epochEnd = .ok event) (htxs : event.txs ≠ [])
      (hf : env.executor.filterTxs event.txs defaultMaxBlobSize maxGas true = none) :
    CheckCase r env maxGas epochEnd s
      (.error (.text "failed to filter forced inclusion txs"), s)
  | checked (event : ForcedInclusionEvent Tx) (statuses : List FilterStatus)
      (hr : retrieveForcedIncludedTxs r env.da epochEnd = .ok event) (htxs : event.txs ≠ [])
      (hf : env.executor.filterTxs event.txs defaultMaxBlobSize maxGas true = some statuses) :
    CheckCase r env maxGas epochEnd s
      (.ok ((s.epochLookups epochEnd event.txs statuses).countP fun l => !l.seen),
        (s.looked (s.epochLookups epochEnd event.txs statuses)).epochChecked epochEnd)

theorem checkEpoch_cases (r : ForcedInclusionRetriever) (env : VerifyEnv Tx)
    (maxGas epochEnd : Nat) (s : ForcedInclusion Tx) :
    CheckCase r env maxGas epochEnd s (checkEpoch r env maxGas epochEnd s) := by
  unfold checkEpoch
  have hc := retrieve_cases r env.da epochEnd
  cases hr : retrieveForcedIncludedTxs r env.da epochEnd with
  | error e =>
    rw [hr] at hc
    cases hc with
    | notConfigured hns => exact .notConfigured hns
    | beforeStart hns _ | future hns _ _ => exact .unretrieved _ hns hr
  | ok event =>
    dsimp only
    by_cases htxs : event.txs = []
    · rw [if_pos htxs]
      exact .empty event hr htxs
    · rw [if_neg htxs]
      cases hf : env.executor.filterTxs event.txs defaultMaxBlobSize maxGas true with
      | none => exact .unfiltered event hr htxs hf
      | some statuses => exact .checked event statuses hr htxs hf

theorem CheckCase.state_of_error {r : ForcedInclusionRetriever} {env : VerifyEnv Tx}
    {maxGas epochEnd : Nat} {s s' : ForcedInclusion Tx} {e : Err}
    (h : CheckCase r env maxGas epochEnd s (.error e, s')) : s' = s := by
  cases h <;> rfl

/-! ## The loop -/

section Loop

variable {genesis : Genesis} {r : ForcedInclusionRetriever} {env : VerifyEnv Tx}
  {maxGas daHeight : Nat}

/-- What every turn that counts keeps: `I epochEnd count s` before the turn for `epochEnd`. -/
def TurnKeeps (genesis : Genesis) (r : ForcedInclusionRetriever) (env : VerifyEnv Tx)
    (maxGas daHeight : Nat) (I : Nat → Nat → ForcedInclusion Tx → Prop) : Prop :=
  ∀ epochEnd count s missing s', I epochEnd count s → s.graceBoundary genesis epochEnd < daHeight →
    CheckCase r env maxGas epochEnd s (.ok missing, s') →
      I (epochEnd + genesis.daEpochForcedInclusion) (count + missing) s'

/-- Where the loop stops. -/
inductive LoopEnd (genesis : Genesis) (r : ForcedInclusionRetriever) (env : VerifyEnv Tx)
    (maxGas daHeight : Nat) (I : Nat → Nat → ForcedInclusion Tx → Prop) :
    Exit Err Nat × ForcedInclusion Tx → Prop
  | done (epochEnd count : Nat) (s : ForcedInclusion Tx) (h : I epochEnd count s)
      (hstop : daHeight ≤ s.graceBoundary genesis epochEnd) :
    LoopEnd genesis r env maxGas daHeight I (.ok count, s)
  | failed (epochEnd count : Nat) (s : ForcedInclusion Tx) (e : Err) (h : I epochEnd count s)
      (hgo : s.graceBoundary genesis epochEnd < daHeight)
      (hc : CheckCase r env maxGas epochEnd s (.error e, s)) :
    LoopEnd genesis r env maxGas daHeight I (.error e, s)

omit [Transaction Tx] in
/-- The grace window has one to four epochs. -/
theorem gracePeriodForEpoch_bounds (s : ForcedInclusion Tx) (epochStart epochEnd : Nat) :
    baseGracePeriodEpochs ≤ s.gracePeriodForEpoch epochStart epochEnd ∧
      s.gracePeriodForEpoch epochStart epochEnd ≤ maxGracePeriodEpochs := by
  unfold gracePeriodForEpoch
  split
  · decide
  · exact ⟨Nat.le_min.mpr ⟨Nat.le_add_right _ _, by decide⟩, Nat.min_le_right _ _⟩

omit [Transaction Tx] in
theorem add_le_graceBoundary (genesis : Genesis) (s : ForcedInclusion Tx) (epochEnd : Nat) :
    epochEnd + genesis.daEpochForcedInclusion ≤ s.graceBoundary genesis epochEnd := by
  have h := Nat.mul_le_mul_right genesis.daEpochForcedInclusion
    (s.gracePeriodForEpoch_bounds (epochEnd - (genesis.daEpochForcedInclusion - 1)) epochEnd).1
  rw [baseGracePeriodEpochs, Nat.one_mul] at h
  exact Nat.add_le_add_left h epochEnd

omit [Transaction Tx] in
theorem graceBoundary_le (genesis : Genesis) (s : ForcedInclusion Tx) (epochEnd : Nat) :
    s.graceBoundary genesis epochEnd ≤
      epochEnd + maxGracePeriodEpochs * genesis.daEpochForcedInclusion :=
  Nat.add_le_add_left (Nat.mul_le_mul_right _ (s.gracePeriodForEpoch_bounds _ _).2) epochEnd

/-- **The loop.** With fuel for every height up to `daHeight` it stops as the source's loop
does. -/
theorem checkEpochs_end {I : Nat → Nat → ForcedInclusion Tx → Prop}
    (hturn : TurnKeeps genesis r env maxGas daHeight I) :
    ∀ (fuel epochEnd count : Nat) (s : ForcedInclusion Tx), daHeight ≤ epochEnd + fuel →
      I epochEnd count s →
        LoopEnd genesis r env maxGas daHeight I
          (checkEpochs genesis r env maxGas daHeight fuel epochEnd count s) := by
  intro fuel
  have hpos := genesis.daEpochForcedInclusion_pos
  induction fuel with
  | zero =>
    intro epochEnd count s hfuel h
    exact .done epochEnd count s h (Nat.le_trans hfuel (Nat.le_add_right _ _))
  | succ fuel ih =>
    intro epochEnd count s hfuel h
    unfold checkEpochs
    rw [get_bind_run]
    by_cases hstop : daHeight ≤ s.graceBoundary genesis epochEnd
    · rw [if_pos hstop]
      exact .done epochEnd count s h hstop
    · rw [if_neg hstop]
      have hgo : s.graceBoundary genesis epochEnd < daHeight := Nat.lt_of_not_le hstop
      have hc := checkEpoch_cases r env maxGas epochEnd s
      rcases hr : checkEpoch r env maxGas epochEnd s with ⟨v, s1⟩
      rw [hr] at hc
      cases v with
      | ok missing =>
        rw [bind_run_ok hr]
        exact ih _ _ _ (by omega) (hturn _ _ _ _ _ h hgo hc)
      | error e =>
        rw [bind_run_error hr]
        obtain rfl := hc.state_of_error
        exact .failed epochEnd count s1 e h hgo hc
      | crash => cases hc

end Loop

/-! ## The whole verification -/

/-- The error that accuses the sequencer of leaving out `count` transactions. -/
def accusation (count : Nat) : Err :=
  .join .maliciousProposer (.text ("sequencer is malicious: " ++ toString count ++
    " forced inclusion transaction(s) past grace boundary not included"))

theorem is_accusation (count : Nat) : (accusation count).is .maliciousProposer = true := by
  simp [accusation, Err.is]

/-- How `VerifyForcedInclusionTxs` ends, when every turn of its loop keeps `I`. -/
inductive VerifyCase (genesis : Genesis) (r : ForcedInclusionRetriever) (env : VerifyEnv Tx)
    (lastDAHeight daHeight : Nat) (I : Nat → Nat → Nat → ForcedInclusion Tx → Prop)
    (recorded : ForcedInclusion Tx) : Exit Err Unit × ForcedInclusion Tx → Prop
  | early (h : daHeight < genesis.daStartHeight ∨ daHeight < lastDAHeight) :
    VerifyCase genesis r env lastDAHeight daHeight I recorded (.ok (), recorded)
  | noInfo (hgas : env.executor.maxGas = none) :
    VerifyCase genesis r env lastDAHeight daHeight I recorded
      (.error (.text "failed to get execution info"), recorded)
  | notConfigured (maxGas epochEnd count : Nat) (s : ForcedInclusion Tx)
      (hns : r.hasForcedInclusionNamespace = false) (h : I maxGas epochEnd count s) :
    VerifyCase genesis r env lastDAHeight daHeight I recorded (.ok (), s)
  | failed (maxGas epochEnd count : Nat) (s : ForcedInclusion Tx) (e : Err)
      (hgas : env.executor.maxGas = some maxGas)
      (hlast : lastDAHeight ≤ daHeight) (h : I maxGas epochEnd count s)
      (hgo : s.graceBoundary genesis epochEnd < daHeight)
      (hc : CheckCase r env maxGas epochEnd s (.error e, s))
      (he : e.is .maliciousProposer = false) (hns : r.hasForcedInclusionNamespace = true) :
    VerifyCase genesis r env lastDAHeight daHeight I recorded (.error e, s)
  | passed (maxGas epochEnd : Nat) (s : ForcedInclusion Tx)
      (hgas : env.executor.maxGas = some maxGas)
      (hlast : lastDAHeight ≤ daHeight) (h : I maxGas epochEnd 0 s)
      (hstop : daHeight ≤ s.graceBoundary genesis epochEnd) :
    VerifyCase genesis r env lastDAHeight daHeight I recorded (.ok (), s)
  | accused (maxGas epochEnd count : Nat) (s : ForcedInclusion Tx)
      (hgas : env.executor.maxGas = some maxGas)
      (hlast : lastDAHeight ≤ daHeight) (h : I maxGas epochEnd count s) (hcount : 0 < count)
      (hstop : daHeight ≤ s.graceBoundary genesis epochEnd) :
    VerifyCase genesis r env lastDAHeight daHeight I recorded (.error (accusation count), s)

theorem CheckCase.not_malicious {r : ForcedInclusionRetriever} {env : VerifyEnv Tx}
    {maxGas epochEnd : Nat} {s s' : ForcedInclusion Tx} {e : Err}
    (h : CheckCase r env maxGas epochEnd s (.error e, s')) :
    e.is .maliciousProposer = false := by
  cases h with
  | notConfigured _ | unfiltered _ _ _ _ => rfl
  | unretrieved e _ hr =>
    have hc := retrieve_cases r env.da epochEnd
    rw [hr] at hc
    cases hc <;> rfl

/-- **One verification.** -/
theorem verify_cases {genesis : Genesis} {r : ForcedInclusionRetriever} {env : VerifyEnv Tx}
    {lastDAHeight daHeight : Nat} {txs : List Tx} {s : ForcedInclusion Tx}
    {I : Nat → Nat → Nat → ForcedInclusion Tx → Prop}
    (hturn : ∀ maxGas, env.executor.maxGas = some maxGas →
      TurnKeeps genesis r env maxGas daHeight (I maxGas))
    (hinit : ∀ maxGas, I maxGas ((s.recordBlock daHeight txs).startEpochEnd genesis) 0
      (s.recordBlock daHeight txs)) :
    VerifyCase genesis r env lastDAHeight daHeight I (s.recordBlock daHeight txs)
      (verifyForcedInclusionTxs genesis (some r) env lastDAHeight daHeight txs s) := by
  unfold verifyForcedInclusionTxs
  dsimp only
  rw [modify_bind_run]
  by_cases hearly : daHeight < genesis.daStartHeight ∨ daHeight < lastDAHeight
  · rw [if_pos hearly]
    exact .early hearly
  · rw [if_neg hearly]
    have hlast : lastDAHeight ≤ daHeight := by omega
    cases hgas : env.executor.maxGas with
    | none => exact .noInfo hgas
    | some maxGas =>
      dsimp only
      rw [get_bind_run]
      have hloop := checkEpochs_end (hturn maxGas hgas)
        (daHeight - (s.recordBlock daHeight txs).startEpochEnd genesis)
        ((s.recordBlock daHeight txs).startEpochEnd genesis) 0 (s.recordBlock daHeight txs)
        (by omega) (hinit maxGas)
      generalize hrun : checkEpochs genesis r env maxGas daHeight
        (daHeight - (s.recordBlock daHeight txs).startEpochEnd genesis)
        ((s.recordBlock daHeight txs).startEpochEnd genesis) 0 = p at hloop ⊢
      rcases hp : p (s.recordBlock daHeight txs) with ⟨v, s'⟩
      rw [hp] at hloop
      cases hloop with
      | done epochEnd count _ h hstop =>
        rw [bind_run_ok (attempt_run_ok hp)]
        dsimp only
        by_cases hcount : 0 < count
        · rw [if_pos hcount]
          exact .accused maxGas epochEnd count s' hgas hlast h hcount hstop
        · rw [if_neg hcount]
          obtain rfl : count = 0 := by omega
          exact .passed maxGas epochEnd s' hgas hlast h hstop
      | failed epochEnd count _ e h hgo hc =>
        rw [bind_run_ok (attempt_run_error hp)]
        dsimp only
        have he := hc.not_malicious
        cases hc with
        | notConfigured hns =>
          rw [if_pos rfl]
          exact .notConfigured maxGas epochEnd count s' hns h
        | unretrieved e hns hr =>
          rw [if_neg (by simp)]
          exact .failed maxGas epochEnd count s' _ hgas hlast h hgo (.unretrieved e hns hr) he hns
        | unfiltered event hr htxs hf =>
          rw [if_neg (by simp)]
          refine .failed maxGas epochEnd count s' _ hgas hlast h hgo
            (.unfiltered event hr htxs hf) he ?_
          have hc := retrieve_cases r env.da epochEnd
          rw [hr] at hc
          cases hc with
          | notEnd hns _ _ | failed _ hns _ _ _ | complete _ hns _ _ => exact hns

theorem verify_not_crash (genesis : Genesis) (fi : Option ForcedInclusionRetriever)
    (env : VerifyEnv Tx) (lastDAHeight daHeight : Nat) (txs : List Tx)
    (s s' : ForcedInclusion Tx) :
    verifyForcedInclusionTxs genesis fi env lastDAHeight daHeight txs s ≠ (.crash, s') := by
  cases fi with
  | none => exact fun h => by cases h
  | some r =>
    intro hcrash
    have hc : VerifyCase genesis r env lastDAHeight daHeight (fun _ _ _ _ => True)
        (s.recordBlock daHeight txs)
        (verifyForcedInclusionTxs genesis (some r) env lastDAHeight daHeight txs s) :=
      verify_cases (fun _ _ => fun _ _ _ _ _ _ _ _ => trivial) (fun _ => trivial)
    rw [hcrash] at hc
    cases hc

end ForcedInclusion

end EvNode
