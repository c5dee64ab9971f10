import EvNode.Da.Retriever

/-!
# What one retrieval returns

`retrieve_cases` says everything a call of `retrieveForcedIncludedTxs` can return and when. The
cases at an epoch end depend on the heights that are not cached: some height is from the future,
every height is answered, or neither.
-/

namespace EvNode

variable {Tx : Type}

/-- The block the DA layer gives for `h` when it is not cached. -/
def DAAnswers.syncBlock (da : DAAnswers Tx) (h : Nat) : Option (BlockData Tx) :=
  match (da.retrieve h).code with
  | .success => some ⟨(da.retrieve h).timestamp, (da.retrieve h).data⟩
  | .notFound => some ⟨(da.retrieve h).timestamp, []⟩
  | _ => none

/-- The block at `h`, cached or fetched. -/
def DAAnswers.blockAt (da : DAAnswers Tx) (h : Nat) : Option (BlockData Tx) :=
  (da.getCachedBlock h).or (da.syncBlock h)

/-- `h` is cached, or the DA layer answers it with success or not-found. -/
def DAAnswers.Answered (da : DAAnswers Tx) (h : Nat) : Prop := (da.blockAt h).isSome = true

instance (da : DAAnswers Tx) (h : Nat) : Decidable (da.Answered h) :=
  inferInstanceAs (Decidable ((da.blockAt h).isSome = true))

/-- `h` is not cached and the DA layer has not reached it. -/
def DAAnswers.FromFuture (da : DAAnswers Tx) (h : Nat) : Prop :=
  da.getCachedBlock h = none ∧ (da.retrieve h).code = .heightFromFuture

namespace ForcedInclusionRetriever

/-- The heights of the epoch of `daHeight`. -/
def heights (r : ForcedInclusionRetriever) (daHeight : Nat) : List Nat :=
  epochHeights daHeight r.daStartHeight r.daEpochSize

/-- Whether `daHeight` is the last height of its epoch. -/
def IsEpochEnd (r : ForcedInclusionRetriever) (daHeight : Nat) : Prop :=
  r.daStartHeight ≤ daHeight ∧ daHeight = epochEnd daHeight r.daStartHeight r.daEpochSize

/-- Every height of the epoch is answered. -/
def EpochAnswered (r : ForcedInclusionRetriever) (da : DAAnswers Tx) (daHeight : Nat) : Prop :=
  ∀ h ∈ r.heights daHeight, da.Answered h

/-- Some height of the epoch is from the future. -/
def EpochFromFuture (r : ForcedInclusionRetriever) (da : DAAnswers Tx) (daHeight : Nat) : Prop :=
  ∃ h ∈ r.heights daHeight, da.FromFuture h

instance (r : ForcedInclusionRetriever) (h : Nat) : Decidable (r.IsEpochEnd h) :=
  inferInstanceAs (Decidable (_ ∧ _))

instance (r : ForcedInclusionRetriever) (da : DAAnswers Tx) (h : Nat) :
    Decidable (r.EpochAnswered da h) :=
  inferInstanceAs (Decidable (∀ x ∈ r.heights h, da.Answered x))

end ForcedInclusionRetriever

variable [Transaction Tx]

/-- The non-empty blobs at `h`. -/
def DAAnswers.txsAt (da : DAAnswers Tx) (h : Nat) : List Tx :=
  match da.blockAt h with
  | none => []
  | some block => block.blobs.filter fun blob => 0 < size blob

/-- The non-empty blobs of the epoch, in height order. -/
def ForcedInclusionRetriever.epochTxs (r : ForcedInclusionRetriever) (da : DAAnswers Tx)
    (daHeight : Nat) : List Tx :=
  (r.heights daHeight).flatMap da.txsAt

/-! ## Fetching the missing heights -/

variable {da : DAAnswers Tx} {l : List Nat}

omit [Transaction Tx] in
theorem syncFetch_error
    (h : ∃ x ∈ l, (da.retrieve x).code = .heightFromFuture) :
    syncFetch da l = .error (.wrap "height not yet available" .heightFromFuture) := by
  induction l with
  | nil =>
    obtain ⟨x, hx, _⟩ := h
    cases hx
  | cons a rest ih =>
    unfold syncFetch
    by_cases ha : (da.retrieve a).code = .heightFromFuture
    · simp only [ha, if_true]
    · obtain ⟨x, hx, hcode⟩ := h
      rcases List.mem_cons.mp hx with rfl | hx
      · exact absurd hcode ha
      · simp only [ha, if_false, ih ⟨x, hx, hcode⟩]

omit [Transaction Tx] in
/-- Without a height from the future, each height is fetched as it is answered, and there are
errors exactly when some height is not answered. -/
theorem syncFetch_ok
    (h : ∀ x ∈ l, (da.retrieve x).code ≠ .heightFromFuture) :
    ∃ blocks errs, syncFetch da l = .ok (blocks, errs) ∧
      (∀ x, blocks.lookup x = if x ∈ l then da.syncBlock x else none) ∧
      (errs = [] ↔ ∀ x ∈ l, (da.syncBlock x).isSome = true) := by
  induction l with
  | nil => exact ⟨[], [], rfl, fun _ => rfl, by simp⟩
  | cons a rest ih =>
    obtain ⟨blocks, errs, hok, hlook, herrs⟩ := ih fun x hx => h x (List.mem_cons_of_mem _ hx)
    have ha : (da.retrieve a).code ≠ .heightFromFuture := h a List.mem_cons_self
    unfold syncFetch
    simp only [ha, if_false, hok]
    by_cases hnf : (da.retrieve a).code = .notFound
    · have hsync : da.syncBlock a = some ⟨(da.retrieve a).timestamp, []⟩ := by
        unfold DAAnswers.syncBlock
        rw [hnf]
      refine ⟨_, errs, by rw [if_pos hnf], ?_, ?_⟩
      · intro x
        by_cases hx : x = a
        · subst hx
          simp [hsync]
        · have hbeq : (x == a) = false := by simpa using hx
          simp only [List.lookup_cons, hbeq, hlook, List.mem_cons, hx, false_or]
      · rw [herrs]
        simp [hsync]
    · by_cases hs : (da.retrieve a).code = .success
      · have hsync : da.syncBlock a = some ⟨(da.retrieve a).timestamp, (da.retrieve a).data⟩ := by
          unfold DAAnswers.syncBlock
          rw [hs]
        refine ⟨_, errs, by rw [if_neg hnf, if_neg (not_not_intro hs)], ?_, ?_⟩
        · intro x
          by_cases hx : x = a
          · subst hx
            simp [hsync]
          · have hbeq : (x == a) = false := by simpa using hx
            simp only [List.lookup_cons, hbeq, hlook, List.mem_cons, hx, false_or]
        · rw [herrs]
          simp [hsync]
      · have hsync : da.syncBlock a = none := by
          unfold DAAnswers.syncBlock
          split
          · next hc => exact absurd hc hs
          · next hc => exact absurd hc hnf
          · rfl
        refine ⟨blocks, _, by rw [if_neg hnf, if_pos hs], ?_, ?_⟩
        · intro x
          by_cases hx : x = a
          · subst hx
            rw [hlook]
            by_cases hmem : x ∈ rest <;> simp [hmem, hsync]
          · simp only [hlook, List.mem_cons, hx, false_or]
        · constructor
          · intro he
            exact absurd he (List.cons_ne_nil _ _)
          · intro hall
            have hsome := hall a List.mem_cons_self
            rw [hsync] at hsome
            cases hsome

/-! ## Adding the blocks -/

theorem foldl_addBlock {synced : List (Nat × BlockData Tx)}
    (h : ∀ x ∈ l, (da.getCachedBlock x).or (synced.lookup x) = da.blockAt x) :
    ∀ event : ForcedInclusionEvent Tx, ∃ ts, l.foldl (addBlock da synced) event =
      { event with txs := event.txs ++ l.flatMap da.txsAt, timestamp := ts } := by
  induction l with
  | nil =>
    intro event
    refine ⟨event.timestamp, ?_⟩
    simp
  | cons a rest ih =>
    intro event
    have ha := h a List.mem_cons_self
    obtain ⟨ts, hts⟩ := ih (fun x hx => h x (List.mem_cons_of_mem _ hx)) (addBlock da synced event a)
    refine ⟨ts, ?_⟩
    rw [List.foldl_cons, hts]
    unfold addBlock
    rw [ha]
    unfold DAAnswers.txsAt
    cases hb : da.blockAt a with
    | none | some block => simp [hb]

/-! ## One retrieval -/

/-- Everything a retrieval at `daHeight` can return, with the condition for each case. -/
inductive RetrieveCase (r : ForcedInclusionRetriever) (da : DAAnswers Tx) (daHeight : Nat) :
    Except Err (ForcedInclusionEvent Tx) → Prop
  | notConfigured (hns : r.hasForcedInclusionNamespace = false) :
    RetrieveCase r da daHeight (.error .forceInclusionNotConfigured)
  | beforeStart (hns : r.hasForcedInclusionNamespace = true) (hlt : daHeight < r.daStartHeight) :
    RetrieveCase r da daHeight (.error (.text "DA height is before the configured start height"))
  | notEnd (hns : r.hasForcedInclusionNamespace = true) (hle : r.daStartHeight ≤ daHeight)
      (hne : ¬ r.IsEpochEnd daHeight) :
    RetrieveCase r da daHeight (.ok ⟨zeroTime, daHeight, daHeight, []⟩)
  | future (hns : r.hasForcedInclusionNamespace = true) (hend : r.IsEpochEnd daHeight)
      (hf : r.EpochFromFuture da daHeight) :
    RetrieveCase r da daHeight (.error (.wrap "height not yet available" .heightFromFuture))
  | failed (ts : Time) (hns : r.hasForcedInclusionNamespace = true)
      (hend : r.IsEpochEnd daHeight) (hf : ¬ r.EpochFromFuture da daHeight)
      (hc : ¬ r.EpochAnswered da daHeight) :
    RetrieveCase r da daHeight (.ok ⟨ts, daHeight, daHeight, []⟩)
  | complete (ts : Time) (hns : r.hasForcedInclusionNamespace = true)
      (hend : r.IsEpochEnd daHeight) (hc : r.EpochAnswered da daHeight) :
    RetrieveCase r da daHeight
      (.ok ⟨ts, epochStart daHeight r.daStartHeight r.daEpochSize, daHeight,
        r.epochTxs da daHeight⟩)

omit [Transaction Tx] in
theorem DAAnswers.Answered.not_fromFuture {h : Nat} (ha : da.Answered h) :
    ¬ da.FromFuture h := by
  rintro ⟨hc, hcode⟩
  unfold DAAnswers.Answered DAAnswers.blockAt DAAnswers.syncBlock at ha
  rw [hc, hcode] at ha
  cases ha

theorem retrieve_cases (r : ForcedInclusionRetriever) (da : DAAnswers Tx) (daHeight : Nat) :
    RetrieveCase r da daHeight (retrieveForcedIncludedTxs r da daHeight) := by
  unfold retrieveForcedIncludedTxs
  cases hns : r.hasForcedInclusionNamespace with
  | false => exact .notConfigured hns
  | true =>
    simp only [Bool.not_true, Bool.false_eq_true, if_false]
    by_cases hlt : daHeight < r.daStartHeight
    · rw [if_pos hlt]
      exact .beforeStart hns hlt
    · have hle : r.daStartHeight ≤ daHeight := by omega
      rw [if_neg hlt]
      by_cases hne : daHeight ≠ epochEnd daHeight r.daStartHeight r.daEpochSize
      · rw [if_pos hne]
        exact .notEnd hns hle fun hend => hne hend.2
      · have hend : r.IsEpochEnd daHeight := ⟨hle, not_not.mp hne⟩
        rw [if_neg hne, ← hend.2]
        have hheights : epochHeights daHeight r.daStartHeight r.daEpochSize = r.heights daHeight := rfl
        rw [hheights]
        by_cases hf : r.EpochFromFuture da daHeight
        · have herr : ∃ x ∈ (r.heights daHeight).filter fun h => (da.getCachedBlock h).isNone,
              (da.retrieve x).code = .heightFromFuture := by
            obtain ⟨x, hx, hnone, hcode⟩ := hf
            exact ⟨x, List.mem_filter.mpr ⟨hx, by rw [hnone]; rfl⟩, hcode⟩
          rw [syncFetch_error herr]
          exact .future hns hend hf
        · have hnof : ∀ x ∈ (r.heights daHeight).filter fun h => (da.getCachedBlock h).isNone,
              (da.retrieve x).code ≠ .heightFromFuture := by
            intro x hx hcode
            obtain ⟨hmem, hnone⟩ := List.mem_filter.mp hx
            exact hf ⟨x, hmem, Option.isNone_iff_eq_none.mp hnone, hcode⟩
          obtain ⟨synced, errs, hok, hlook, herrs⟩ := syncFetch_ok hnof
          -- every height of the epoch finds its block, in the cache or among the fetched ones
          have hblock : ∀ x ∈ r.heights daHeight,
              (da.getCachedBlock x).or (synced.lookup x) = da.blockAt x := by
            intro x hx
            unfold DAAnswers.blockAt
            cases hc : da.getCachedBlock x with
            | some b => rfl
            | none =>
              rw [hlook, if_pos (List.mem_filter.mpr ⟨hx, by rw [hc]; rfl⟩)]
          have hans : errs = [] ↔ r.EpochAnswered da daHeight := by
            rw [herrs]
            constructor
            · intro hall x hx
              unfold DAAnswers.Answered DAAnswers.blockAt
              cases hc : da.getCachedBlock x with
              | some b => rfl
              | none => exact hall x (List.mem_filter.mpr ⟨hx, by rw [hc]; rfl⟩)
            · intro hall x hx
              obtain ⟨hmem, hnone⟩ := List.mem_filter.mp hx
              have hx' := hall x hmem
              unfold DAAnswers.Answered DAAnswers.blockAt at hx'
              rw [Option.isNone_iff_eq_none.mp hnone] at hx'
              exact hx'
          simp only [hok]
          obtain ⟨ts, hfold⟩ := foldl_addBlock hblock
            ⟨zeroTime, epochStart daHeight r.daStartHeight r.daEpochSize, daHeight, []⟩
          by_cases he : errs = []
          · rw [if_neg (not_not_intro he), hfold]
            exact .complete ts hns hend (hans.mp he)
          · rw [if_pos he]
            exact .failed _ hns hend hf fun hc => he (hans.mpr hc)

end EvNode
