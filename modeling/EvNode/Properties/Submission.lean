import EvNode.Lib.Frontier
import EvNode.Lib.Run
import EvNode.Submitting.DaSubmitter

/-!
# What is submitted to DA

A cursor starts at 0, whatever the first height of the chain is. When the chain starts above 1,
the heights in between do not exist, `getPending` fails on the first of them, and nothing is ever
submitted.
-/

namespace EvNode

open Crash Proc Frontier

variable {Tx T σ : Type}

/-! ## Fetching the pending items -/

variable {f : Nat → Except Err T} {items : List T} {pb : PendingBase}

theorem mapM_ok_forall₂ :
    ∀ {l : List Nat} {items : List T}, l.mapM f = .ok items →
      List.Forall₂ (fun x y => f x = .ok y) l items := by
  intro l
  induction l with
  | nil =>
    intro items hm
    cases hm
    exact .nil
  | cons x l ih =>
    intro items hm
    rw [List.mapM_cons] at hm
    cases hx : f x with
    | error e =>
      rw [hx] at hm
      cases hm
    | ok y =>
      cases hl : l.mapM f with
      | error e =>
        rw [hx, hl] at hm
        cases hm
      | ok ys =>
        rw [hx, hl] at hm
        cases hm
        exact .cons hx (ih hl)

theorem mapM_ok_map {g : T → Nat} (h : ∀ x y, f x = .ok y → g y = x)
    {l : List Nat} (hm : l.mapM f = .ok items) : items.map g = l := by
  have hall := mapM_ok_forall₂ hm
  clear hm
  induction hall with
  | nil => rfl
  | cons hxy _ ih => rw [List.map_cons, h _ _ hxy, ih]

theorem mapM_ok_of_forall {l : List Nat}
    (h : ∀ x ∈ l, ∃ y, f x = .ok y) : ∃ items, l.mapM f = .ok items := by
  induction l with
  | nil => exact ⟨[], rfl⟩
  | cons x l ih =>
    obtain ⟨y, hy⟩ := h x List.mem_cons_self
    obtain ⟨ys, hys⟩ := ih fun z hz => h z (List.mem_cons_of_mem _ hz)
    exact ⟨y :: ys, by rw [List.mapM_cons, hy, hys]; rfl⟩

/-- The pending items are fetched at the heights behind the cursor, without a gap. -/
theorem PendingBase.getPending_ok {fetch : Nat → Except Err T} {storeHeight : Nat} (h : pb.getPending fetch storeHeight = .ok items) :
    ∃ n, (List.range' (pb.lastHeight + 1) n).mapM fetch = .ok items ∧
      pb.lastHeight + n ≤ storeHeight := by
  unfold getPending at h
  split at h
  · next heq =>
    cases h
    exact ⟨0, rfl, by omega⟩
  · split at h
    · cases h
    · refine ⟨_, h, ?_⟩
      split <;> omega

/-- When every height behind the cursor can be fetched, all of them are returned that fit into the
cache. -/
theorem PendingBase.getPending_complete {fetch : Nat → Except Err T} {g : T → Nat}
    (hfetch : ∀ x y, fetch x = .ok y → g y = x) {storeHeight : Nat}
    (hle : pb.lastHeight ≤ storeHeight)
    (hall : ∀ h, pb.lastHeight < h → h ≤ storeHeight → ∃ y, fetch h = .ok y) :
    ∃ items, pb.getPending fetch storeHeight = .ok items ∧
      items.map g = List.range' (pb.lastHeight + 1)
        (min defaultPendingCacheSize (storeHeight - pb.lastHeight)) := by
  unfold getPending
  by_cases heq : pb.lastHeight = storeHeight
  · rw [if_pos heq]
    exact ⟨[], rfl, by simp [heq]⟩
  rw [if_neg heq, if_neg (by omega)]
  have hcount : (if defaultPendingCacheSize < storeHeight - pb.lastHeight
      then pb.lastHeight + defaultPendingCacheSize else storeHeight) - pb.lastHeight =
      min defaultPendingCacheSize (storeHeight - pb.lastHeight) := by
    split <;> omega
  dsimp only
  rw [hcount]
  obtain ⟨items, hitems⟩ := mapM_ok_of_forall (f := fetch)
    (l := List.range' (pb.lastHeight + 1)
      (min defaultPendingCacheSize (storeHeight - pb.lastHeight))) fun x hx => by
        rw [List.mem_range'_1] at hx
        exact hall x (by omega) (by omega)
  exact ⟨items, hitems, mapM_ok_map hfetch hitems⟩

/-! ## One round -/

/-- What taking a prefix and confirming a prefix keep, the retry loop keeps. -/
theorem submitLoop_keeps {postSubmit : List T → σ → σ} {env : SubmitEnv T}
    {P : List T → σ → Prop} (htake : ∀ items s k, P items s → P (items.take k) s)
    (hpost : ∀ items s k, P items s → P (items.drop k) (postSubmit (items.take k) s)) :
    ∀ left attempt items s, P items s →
      ∃ items', P items' (submitLoop postSubmit env left attempt items s).2 := by
  intro left
  induction left with
  | zero => intro attempt items s h; exact ⟨items, h⟩
  | succ left ih =>
    intro attempt items s h
    unfold submitLoop
    by_cases hcancel : env.cancelled attempt = true
    · rw [if_pos hcancel]
      exact ⟨items, h⟩
    rw [if_neg hcancel]
    cases env.answer attempt with
    | success count =>
      by_cases hcount : items.length < count
      · simp only [if_pos hcount]
        exact ⟨items, h⟩
      · simp only [if_neg hcount, modify_bind_run]
        have h' := hpost items s count h
        by_cases hall : count = items.length
        · rw [if_pos hall]
          exact ⟨_, h'⟩
        · rw [if_neg hall]
          exact ih _ _ _ h'
    | tooBig =>
      by_cases hone : items.length = 1
      · simp only [if_pos hone]
        exact ⟨items, h⟩
      · simp only [if_neg hone]
        exact ih _ _ _ (htake _ _ _ h)
    | notIncludedInBlock | alreadyInMempool => exact ih _ _ _ h
    | contextCanceled => exact ⟨items, h⟩
    | other => exact ih _ _ _ h

theorem limitBatchBySize_ok {size : T → Nat} {maxBytes : Nat} {batch : List T}
    (h : limitBatchBySize size maxBytes items = .ok batch) : ∃ k, batch = items.take k := by
  unfold limitBatchBySize at h
  split at h
  · cases h
  · split at h
    · cases h
    · cases h
      exact ⟨_, rfl⟩

theorem submitToDA_keeps (postSubmit : List T → σ → σ) (env : SubmitEnv T)
    {P : List T → σ → Prop} (htake : ∀ items s k, P items s → P (items.take k) s)
    (hpost : ∀ items s k, P items s → P (items.drop k) (postSubmit (items.take k) s)) {s : σ} (h : P items s) :
    ∃ items', P items' (submitToDA postSubmit env items s).2 := by
  unfold submitToDA
  by_cases hnone : items.length = 0
  · rw [if_pos hnone]
    exact submitLoop_keeps htake hpost _ _ _ _ h
  rw [if_neg hnone]
  cases hlimit : limitBatchBySize env.size env.maxBlobBytes items with
  | error e => exact ⟨items, h⟩
  | ok batch =>
    obtain ⟨k, rfl⟩ := limitBatchBySize_ok hlimit
    exact submitLoop_keeps htake hpost _ _ _ _ (htake _ _ _ h)

theorem PendingBase.postSubmit_lastHeight {req : Nat → Prop} {hs : List Nat}
    (h : Next req pb.lastHeight hs) (written : Bool) :
    (pb.postSubmit hs written).lastHeight = advance pb.lastHeight hs := by
  unfold postSubmit
  cases hlast : hs.getLast? with
  | none =>
    rw [List.getLast?_eq_none_iff] at hlast
    simp [hlast]
  | some last =>
    have hadvance : advance pb.lastHeight hs = last := by
      simp [advance, List.getLastD_eq_getLast?, hlast]
    have hlt := (h.bounds.2 last (List.mem_of_getLast? hlast)).1
    simp [setLastSubmittedHeight, hlt, hadvance]

/-! ## The system -/

/-- Whether the block at a height has transactions. -/
def Store.nonEmptyAt (s : Store Tx) (h : Nat) : Bool :=
  match s.blocks.get? h with
  | none => false
  | some b => decide (b.data.txs.length ≠ 0)

/-- The blocks are those of the heights from the first on. -/
structure Store.Chain (initialHeight : Nat) (s : Store Tx) : Prop where
  range : ∀ h, (s.blocks.get? h).isSome = true ↔ initialHeight ≤ h ∧ h ≤ s.height
  heights : ∀ h b, s.blocks.get? h = some b → b.header.header.height = h ∧ b.data.height = h
  first : initialHeight ≤ s.height + 1
  pos : 0 < initialHeight

namespace Store.Chain

variable {initialHeight : Nat} {s : Store Tx}

theorem fetchSignedHeader_height (h : s.Chain initialHeight) (x : Nat) (y : SignedHeader)
    (hf : fetchSignedHeader s x = .ok y) : y.header.height = x := by
  unfold fetchSignedHeader at hf
  cases hb : s.blocks.get? x with
  | none => simp [hb] at hf
  | some b =>
    simp only [hb] at hf
    split at hf
    · cases hf
    · cases hf
      exact (h.heights x b hb).1

theorem fetchData_block {x : Nat} {y : Data Tx} (hf : fetchData s x = .ok y) :
    ∃ b, s.blocks.get? x = some b ∧ b.data = y := by
  unfold fetchData at hf
  cases hb : s.blocks.get? x with
  | none => simp [hb] at hf
  | some b =>
    simp only [hb] at hf
    split at hf
    · cases hf
    · cases hf
      exact ⟨b, rfl, rfl⟩

theorem fetchData_height (h : s.Chain initialHeight) (x : Nat) (y : Data Tx)
    (hf : fetchData s x = .ok y) : y.height = x := by
  obtain ⟨b, hb, rfl⟩ := fetchData_block hf
  exact (h.heights x b hb).2

theorem fetchSignedHeader_ok (h : s.Chain initialHeight) {x : Nat} (hx : initialHeight ≤ x)
    (hle : x ≤ s.height) : ∃ y, fetchSignedHeader s x = .ok y := by
  obtain ⟨b, hb⟩ := Option.isSome_iff_exists.mp ((h.range x).mpr ⟨hx, hle⟩)
  have hpos := h.pos
  have hheight := (h.heights x b hb).1
  refine ⟨b.header, ?_⟩
  simp only [fetchSignedHeader, hb]
  rw [if_neg (by omega)]

theorem grow (h : s.Chain initialHeight) {header : SignedHeader} {data : Data Tx}
    (hh : header.header.height = s.height + 1) (hd : data.height = s.height + 1) :
    ((s.saveBlockData header data header.signature).setHeight header.header.height).Chain
      initialHeight where
  range k := by
    have hfirst := h.first
    have hr := h.range k
    simp only [saveBlockData, setHeight, hh]
    rw [if_neg (by omega)]
    simp only [OrdMap.get?_put]
    split
    · simp
      omega
    · rw [hr]
      omega
  heights k b hb := by
    simp only [saveBlockData, setHeight, hh] at hb
    rw [if_neg (by omega)] at hb
    simp only [OrdMap.get?_put] at hb
    split at hb
    · next heq =>
      cases hb
      exact ⟨hh.trans heq.symm, hd.trans heq.symm⟩
    · exact h.heights k b hb
  first := by
    have hfirst := h.first
    simp only [saveBlockData, setHeight, hh]
    rw [if_neg (by omega)]
    dsimp only
    omega
  pos := h.pos

end Store.Chain

namespace Submission

variable {initialHeight : Nat} {s : Submission Tx}

/-- Both cursors stand behind what is confirmed, and the given headers and data come next. -/
structure Waits (initialHeight : Nat) (headers data : List Nat) (s : Submission Tx) : Prop where
  chain : s.store.Chain initialHeight
  headers : Waiting (fun h => (s.store.blocks.get? h).isSome = true) s.store.height
    s.headers.lastHeight s.confirmedHeaders headers
  data : Waiting (fun h => s.store.nonEmptyAt h = true) s.store.height
    s.data.lastHeight s.confirmedData data

/-- Nothing is skipped, whatever comes next. -/
def Covered (initialHeight : Nat) (s : Submission Tx) : Prop := s.Waits initialHeight [] []

theorem Waits.covered {headers data : List Nat} (h : s.Waits initialHeight headers data) :
    s.Covered initialHeight :=
  ⟨h.chain, .take (h.headers : Waiting _ _ _ _ ([] ++ headers)),
    .take (h.data : Waiting _ _ _ _ ([] ++ data))⟩

theorem Covered.initial (h : 0 < initialHeight) :
    (Submission.initial initialHeight : Submission Tx).Covered initialHeight where
  chain := ⟨fun h => by simp [Submission.initial, Store.empty]; omega,
    fun h b hb => by simp [Submission.initial, Store.empty] at hb,
    by simp only [Submission.initial]; omega, h⟩
  headers := ⟨⟨fun h _ hreq => by simp [Submission.initial, Store.empty] at hreq, .nil, nofun⟩,
    Nat.zero_le _, trivial, nofun⟩
  data := ⟨⟨fun h _ hreq => by
      simp [Submission.initial, Store.empty, Store.nonEmptyAt] at hreq, .nil, nofun⟩,
    Nat.zero_le _, trivial, nofun⟩

theorem map_split (g : T → Nat) (items : List T) (k : Nat) :
    items.map g = (items.take k).map g ++ (items.drop k).map g := by
  rw [← List.map_append, List.take_append_drop]

theorem headersSubmitted_waits (written : Bool) (items : List SignedHeader) (s : Submission Tx)
    (k : Nat) (h : s.Waits initialHeight (items.map fun h => h.header.height) []) :
    (headersSubmitted written (items.take k) s).Waits initialHeight
      ((items.drop k).map fun h => h.header.height) [] := by
  have hw := h.headers
  rw [map_split _ items k] at hw
  refine ⟨h.chain, ?_, h.data⟩
  simp only [headersSubmitted, PendingBase.postSubmit_lastHeight hw.take.next written]
  exact hw.move

theorem dataSubmitted_waits (written : Bool) (items : List (Data Tx)) (s : Submission Tx) (k : Nat)
    (h : s.Waits initialHeight [] (items.map Data.height)) :
    (dataSubmitted written (items.take k) s).Waits initialHeight []
      ((items.drop k).map Data.height) := by
  have hw := h.data
  rw [map_split _ items k] at hw
  refine ⟨h.chain, h.headers, ?_⟩
  simp only [dataSubmitted, PendingBase.postSubmit_lastHeight hw.take.next written]
  exact hw.move

/-- The headers `GetPendingHeaders` returns come next. -/
theorem Covered.pendingHeaders (h : s.Covered initialHeight) {items : List SignedHeader}
    (hp : getPendingHeaders s.store s.headers = .ok items) :
    s.Waits initialHeight (items.map fun h => h.header.height) [] := by
  obtain ⟨n, hm, hn⟩ := PendingBase.getPending_ok hp
  have hmap := mapM_ok_map h.chain.fetchSignedHeader_height hm
  refine ⟨h.chain, ⟨h.headers.complete, h.headers.le, ?_, fun x hx => ?_⟩, h.data⟩
  · rw [hmap]
    exact next_range' _ _ _
  · rw [hmap, List.mem_range'_1] at hx
    omega

variable {st : Store Tx}

/-- What one height gives: the data there, kept exactly when it is not empty. -/
theorem nonEmptyAt_of_fetch {x : Nat} {d : Data Tx}
    (h : fetchData st x = .ok d) : st.nonEmptyAt x = decide (d.txs.length ≠ 0) := by
  obtain ⟨b, hb, rfl⟩ := Store.Chain.fetchData_block h
  simp only [Store.nonEmptyAt, hb]

/-- Without the empty ones, fetched data are those at the heights that are not empty. -/
theorem filter_heights (hchain : st.Chain initialHeight) {l : List Nat}
    {fetched : List (Data Tx)} (hm : l.mapM (fetchData st) = .ok fetched) :
    (fetched.filter fun d => d.txs.length ≠ 0).map Data.height = l.filter st.nonEmptyAt := by
  have hall := mapM_ok_forall₂ hm
  clear hm
  induction hall with
  | nil => rfl
  | @cons x d l fetched hxd _ ih =>
    rw [List.filter_cons, List.filter_cons, nonEmptyAt_of_fetch hxd]
    split
    · rw [List.map_cons, ih, hchain.fetchData_height x d hxd]
    · exact ih

/-- The data `GetPendingData` returns comes next. The second filter, in `SubmitData`, finds nothing
to leave out. -/
theorem Covered.pendingData (h : s.Covered initialHeight) {items : List (Data Tx)}
    (hp : getPendingData s.store s.data = .ok items) :
    s.Waits initialHeight [] ((items.filter fun d => d.txs.length ≠ 0).map Data.height) := by
  unfold getPendingData at hp
  cases hget : s.data.getPending (fetchData s.store) s.store.height with
  | error e => simp [hget] at hp
  | ok fetched =>
    simp only [hget, Except.ok.injEq] at hp
    obtain ⟨n, hm, hn⟩ := PendingBase.getPending_ok hget
    rw [← hp, List.filter_filter]
    simp only [Bool.and_self]
    rw [filter_heights h.chain hm]
    refine ⟨h.chain, h.headers, h.data.complete, h.data.le, ?_, fun x hx => ?_⟩
    · exact next_filter_range' _ n _ _ (Nat.le_refl _) fun k h1 h2 => by omega
    · have hmem := List.mem_range'_1.mp (List.mem_of_mem_filter hx)
      have hle := h.data.le
      omega

/-! ## Steps and runs -/

theorem headerRound_covered (env : SubmitEnv SignedHeader) (h : s.Covered initialHeight) :
    (headerRound env s).2.Covered initialHeight := by
  unfold headerRound
  rw [get_bind_run]
  cases hp : getPendingHeaders s.store s.headers with
  | error e => exact h
  | ok items =>
    show (submitHeaders env items s).2.Covered initialHeight
    unfold submitHeaders
    by_cases hnone : items.length = 0
    · rw [if_pos hnone]
      exact h
    rw [if_neg hnone]
    cases hmarshal : env.marshal with
    | false =>
      rw [bind_run_error (require_run_false rfl _ s)]
      exact h
    | true =>
      rw [bind_run_ok (require_run_true rfl _ s)]
      obtain ⟨items', hw⟩ := submitToDA_keeps _ env
        (P := fun items s => Waits initialHeight (items.map fun h => h.header.height) [] s)
        (fun items s k hw => ⟨hw.chain, (map_split _ items k ▸ hw.headers).take, hw.data⟩)
        (headersSubmitted_waits env.written) (h.pendingHeaders hp)
      exact hw.covered

theorem submitData_cases (env : SubmitEnv (Data Tx)) (items : List (Data Tx))
    (s : Submission Tx) :
    (submitData env items s).2 = s ∨ (submitData env items s).2 =
      (submitToDA (dataSubmitted env.written) env
        (items.filter fun d => d.txs.length ≠ 0) s).2 := by
  unfold submitData
  by_cases hnone : items.length = 0
  · rw [if_pos hnone]
    exact .inl rfl
  rw [if_neg hnone]
  cases hmarshal : env.marshal with
  | false =>
    rw [bind_run_error (require_run_false rfl _ s)]
    exact .inl rfl
  | true =>
    rw [bind_run_ok (require_run_true rfl _ s)]
    by_cases hempty : (items.filter fun d => d.txs.length ≠ 0).length = 0
    · rw [if_pos hempty]
      exact .inl rfl
    · rw [if_neg hempty]
      exact .inr rfl

/-- A round either submits the pending data or changes nothing. -/
theorem dataRound_cases (env : SubmitEnv (Data Tx)) (s : Submission Tx) :
    (dataRound env s).2 = s ∨
      ∃ items, getPendingData s.store s.data = .ok items ∧
        (dataRound env s).2 = (submitToDA (dataSubmitted env.written) env
          (items.filter fun d => d.txs.length ≠ 0) s).2 := by
  unfold dataRound
  rw [get_bind_run]
  cases hp : getPendingData s.store s.data with
  | error e => exact .inl rfl
  | ok items =>
    rcases submitData_cases env items s with heq | heq
    · exact .inl heq
    · exact .inr ⟨items, rfl, heq⟩

theorem dataRound_covered (env : SubmitEnv (Data Tx)) (h : s.Covered initialHeight) :
    (dataRound env s).2.Covered initialHeight := by
  rcases dataRound_cases env s with heq | ⟨items, hp, heq⟩
  · rw [heq]
    exact h
  · rw [heq]
    obtain ⟨items', hw⟩ := submitToDA_keeps _ env
      (P := fun items s => Waits initialHeight [] (items.map Data.height) s)
      (fun items s k hw => ⟨hw.chain, hw.headers, (map_split _ items k ▸ hw.data).take⟩)
      (dataSubmitted_waits env.written) (h.pendingData hp)
    exact hw.covered

theorem advanceLoop_waiting (written : Bool) {done : List Nat} :
    ∀ (n : Nat) (pb : PendingBase), pb.lastHeight + n ≤ st.height →
      Waiting (fun h => st.nonEmptyAt h = true) st.height pb.lastHeight done [] →
      Waiting (fun h => st.nonEmptyAt h = true) st.height
        (advanceLoop st written (List.range' (pb.lastHeight + 1) n) pb).lastHeight done [] := by
  intro n
  induction n with
  | zero => intro pb _ h; exact h
  | succ n ih =>
    intro pb hn h
    rw [List.range'_succ]
    unfold advanceLoop
    cases hf : fetchData st (pb.lastHeight + 1) with
    | error e => exact h
    | ok d =>
      dsimp only
      split
      · exact h
      · next hempty =>
        have hset : (pb.setLastSubmittedHeight (pb.lastHeight + 1) written).lastHeight =
            pb.lastHeight + 1 := by
          simp [PendingBase.setLastSubmittedHeight]
        have hgap : st.nonEmptyAt (pb.lastHeight + 1) ≠ true := by
          rw [nonEmptyAt_of_fetch hf]
          simp only [ne_eq, decide_eq_true_eq]
          omega
        have hnext := ih (pb.setLastSubmittedHeight (pb.lastHeight + 1) written)
        rw [hset] at hnext
        refine hnext (by omega) ⟨h.complete.skip (Nat.le_succ _) fun k h1 h2 => ?_, by omega,
          trivial, nofun⟩
        obtain rfl : k = pb.lastHeight + 1 := by omega
        exact hgap

theorem advancePastEmptyData_covered (written : Bool) (h : s.Covered initialHeight) :
    ({ s with data := advancePastEmptyData s.store written s.data } : Submission Tx).Covered
      initialHeight := by
  have hle : s.data.lastHeight + (s.store.height - s.data.lastHeight) ≤ s.store.height := by
    have := h.data.le
    omega
  exact ⟨h.chain, h.headers, advanceLoop_waiting written _ _ hle h.data⟩

theorem grow_covered (header : SignedHeader) (data : Data Tx) (h : s.Covered initialHeight) :
    (s.grow header data).Covered initialHeight := by
  unfold grow
  split
  · next hheight =>
    obtain ⟨hh, hd⟩ := hheight
    have hstore : (s.store.saveBlockData header data header.signature).setHeight
        header.header.height = { s.store with
          height := s.store.height + 1
          blocks := s.store.blocks.put (s.store.height + 1) ⟨header, data, header.signature⟩ } := by
      simp only [Store.saveBlockData, Store.setHeight, hh]
      rw [if_neg (by omega)]
    have hold : ∀ k ≤ s.store.height,
        (s.store.blocks.put (s.store.height + 1) ⟨header, data, header.signature⟩).get? k =
          s.store.blocks.get? k := fun k hk => OrdMap.get?_put_ne _ _ (by omega)
    refine ⟨h.chain.grow hh hd, ?_, ?_⟩
    · dsimp only
      rw [hstore]
      refine ⟨h.headers.complete.congr fun k hk hreq => ?_, ?_, trivial, nofun⟩
      · rwa [hold k (Nat.le_trans hk h.headers.le)] at hreq
      · exact Nat.le_succ_of_le h.headers.le
    · dsimp only
      rw [hstore]
      refine ⟨h.data.complete.congr fun k hk hreq => ?_, ?_, trivial, nofun⟩
      · simp only [Store.nonEmptyAt] at hreq ⊢
        rwa [hold k (Nat.le_trans hk h.data.le)] at hreq
      · exact Nat.le_succ_of_le h.data.le
  · exact h

theorem step_covered (op : Op Tx) (h : s.Covered initialHeight) :
    (s.step op).Covered initialHeight := by
  cases op with
  | grow header data => exact grow_covered header data h
  | submitHeaders env => exact headerRound_covered env h
  | submitData env => exact dataRound_covered env h
  | advancePastEmptyData written => exact advancePastEmptyData_covered written h

theorem run_covered (hpos : 0 < initialHeight) (ops : List (Op Tx)) :
    (Run.exec step (initial initialHeight) ops).Covered initialHeight :=
  Run.invariant_all (Covered initialHeight) (fun _ op h => step_covered op h) ops _ (.initial hpos)

/-! ## A chain that starts above 1 -/

/-- Height 1 is the first to be fetched, and it does not exist. -/
theorem Covered.getPendingHeaders_error (h : s.Covered initialHeight) (hinit : 1 < initialHeight)
    (hcursor : s.headers.lastHeight = 0) :
    getPendingHeaders s.store s.headers = .error (.text "datastore: key not found") := by
  have hfirst := h.chain.first
  have hnone : s.store.blocks.get? 1 = none := by
    rw [← Option.not_isSome_iff_eq_none, h.chain.range]
    omega
  have hfetch : fetchSignedHeader s.store 1 = .error (.text "datastore: key not found") := by
    simp [fetchSignedHeader, hnone]
  unfold getPendingHeaders PendingBase.getPending
  rw [hcursor, if_neg (by omega), if_neg (by omega)]
  dsimp only
  obtain ⟨n, hn⟩ : ∃ n, (if defaultPendingCacheSize < s.store.height - 0
      then 0 + defaultPendingCacheSize else s.store.height) - 0 = n + 1 := by
    refine ⟨(if defaultPendingCacheSize < s.store.height - 0
      then 0 + defaultPendingCacheSize else s.store.height) - 0 - 1, ?_⟩
    unfold defaultPendingCacheSize
    split <;> omega
  rw [hn, List.range'_succ, List.mapM_cons, hfetch]
  rfl

/-- No header was ever submitted. -/
def Stuck (s : Submission Tx) : Prop := s.headers.lastHeight = 0 ∧ s.confirmedHeaders = []

theorem dataRound_stuck (env : SubmitEnv (Data Tx)) (h : s.Stuck) : (dataRound env s).2.Stuck := by
  rcases dataRound_cases env s with heq | ⟨items, _, heq⟩
  · rw [heq]
    exact h
  · rw [heq]
    obtain ⟨_, hs⟩ := submitToDA_keeps (dataSubmitted env.written) env
      (P := fun _ s => Stuck s) (fun _ _ _ h => h) (fun _ _ _ h => h) h
    exact hs

theorem step_stuck (op : Op Tx) (hinit : 1 < initialHeight)
    (h : s.Covered initialHeight ∧ s.Stuck) :
    (s.step op).Covered initialHeight ∧ (s.step op).Stuck := by
  refine ⟨step_covered op h.1, ?_⟩
  cases op with
  | grow header data =>
    show (s.grow header data).Stuck
    unfold grow
    split <;> exact h.2
  | submitHeaders env =>
    show (headerRound env s).2.Stuck
    unfold headerRound
    rw [get_bind_run, h.1.getPendingHeaders_error hinit h.2.1]
    exact h.2
  | submitData env => exact dataRound_stuck env h.2
  | advancePastEmptyData written => exact h.2

theorem run_stuck (hinit : 1 < initialHeight) (ops : List (Op Tx)) :
    (Run.exec step (initial initialHeight) ops).Covered initialHeight ∧
      (Run.exec step (initial initialHeight) ops).Stuck :=
  Run.invariant_all (fun s => Covered initialHeight s ∧ Stuck s)
    (fun _ op h => step_stuck op hinit h) ops _ ⟨.initial (by omega), rfl, rfl⟩

/-! ## The result -/

/-- Whatever the DA layer answers, the cursors pass nothing that is not confirmed, and the confirmed
heights go up. On a chain that starts at 1 the pending headers are exactly those behind the cursor,
as many as fit into the cache. -/
theorem submission_skips_nothing (initialHeight : Nat) (hpos : 0 < initialHeight)
    (ops : List (Op Tx)) :
    let s := Run.exec step (initial initialHeight) ops;
    (∀ h ≤ s.headers.lastHeight, (s.store.blocks.get? h).isSome = true →
        h ∈ s.confirmedHeaders) ∧
      (∀ h ≤ s.data.lastHeight, ∀ b, s.store.blocks.get? h = some b → b.data.txs ≠ [] →
        h ∈ s.confirmedData) ∧
      s.confirmedHeaders.Pairwise (· < ·) ∧ s.confirmedData.Pairwise (· < ·) ∧
      (initialHeight = 1 → ∃ headers, getPendingHeaders s.store s.headers = .ok headers ∧
        (headers.map fun h => h.header.height) = List.range' (s.headers.lastHeight + 1)
          (min defaultPendingCacheSize (s.store.height - s.headers.lastHeight))) := by
  intro s
  have h : s.Covered initialHeight := run_covered hpos ops
  refine ⟨h.headers.complete.covered, fun k hk b hb hne => ?_, h.headers.complete.sorted,
    h.data.complete.sorted, fun hone => ?_⟩
  · refine h.data.complete.covered k hk ?_
    simp only [Store.nonEmptyAt, hb, decide_eq_true_eq]
    exact fun hlen => hne (List.eq_nil_of_length_eq_zero hlen)
  · exact PendingBase.getPending_complete h.chain.fetchSignedHeader_height h.headers.le
      fun x hx hle => h.chain.fetchSignedHeader_ok (by omega) hle

end Submission

namespace SubmissionRun

open Submission

def header (height : Nat) : SignedHeader :=
  ⟨⟨height, 0, "chain", ⟨0, 0⟩, [], [], [], [], []⟩, [], [], []⟩

def data (height : Nat) (txs : List RawTx) : Data RawTx := ⟨"chain", height, 0, [], txs⟩

/-- Every submission confirms one item. -/
def env (T : Type) : SubmitEnv T :=
  ⟨true, fun _ => 1, 10, 1, fun _ => false, fun _ => .success 1, true⟩

def ops : List (Op RawTx) :=
  [.grow (header 1) (data 1 [⟨1, 1⟩]), .grow (header 2) (data 2 []),
    .submitHeaders (env _), .submitData (env _), .advancePastEmptyData true]

end SubmissionRun

open SubmissionRun in
theorem submission_skips_nothing_two :
    let s := Run.exec Submission.step (Submission.initial 1) ops;
    s.headers.lastHeight = 1 ∧ s.data.lastHeight = 2 ∧ 1 ∈ s.confirmedHeaders ∧
      ∃ headers, getPendingHeaders s.store s.headers = .ok headers ∧
        (headers.map fun h => h.header.height) = [2] := by
  have hrun := Submission.submission_skips_nothing 1 (by decide) ops
  exact ⟨by decide, by decide, hrun.1 1 (by decide) (by decide), hrun.2.2.2.2 rfl⟩

open SubmissionRun in
/-- A chain whose first block has height 2: its header is there, but `GetPendingHeaders` fails and no
header is ever submitted, whatever happens later. -/
theorem pending_headers_fail :
    let s0 := Submission.step (.initial 2) (.grow (header 2) (data 2 []));
    (s0.store.blocks.get? 2).isSome = true ∧
      ∀ later : List (Submission.Op RawTx), let s := Run.exec Submission.step s0 later;
        getPendingHeaders s.store s.headers = .error (.text "datastore: key not found") ∧
          s.headers.lastHeight = 0 ∧ s.confirmedHeaders = [] := by
  refine ⟨by decide, fun later => ?_⟩
  obtain ⟨hcovered, hstuck⟩ :=
    Submission.run_stuck (by decide : 1 < 2) (.grow (header 2) (data 2 []) :: later)
  exact ⟨hcovered.getPendingHeaders_error (by decide) hstuck.1, hstuck⟩

end EvNode
