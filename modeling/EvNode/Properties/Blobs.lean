import EvNode.Properties.CacheMap
import EvNode.Syncing.DaRetriever

/-!
# What the DA retriever makes of blobs

One blob has six outcomes (`BlobCase`). After the blobs of a call, every header that has its data
leaves as an event (`mem_matchHeaders`), and only those (`matchHeaders_get?`).

`Holds H D`: what waits satisfies `H` and `D`, if every blob that is accepted does. Every event then
has such a header, and such data or data made for an empty block.
-/

namespace EvNode

namespace DARetriever

variable {Tx : Type} {cfg : DARetrieverConfig Tx} {env : BlobEnv Tx} {daHeight : Nat}

/-! ## One blob -/

def strictened (isValidEnvelope : Bool) (r : DARetriever Tx) : DARetriever Tx :=
  { r with strictMode := r.strictMode || isValidEnvelope }

def markHeader (cfg : DARetrieverConfig Tx) (header : SignedHeader) (daHeight : Nat)
    (m : CacheManager Tx) : CacheManager Tx :=
  m.setHeaderDAIncluded (cfg.hashes.headerHash header.header) daHeight header.header.height

def markData (cfg : DARetrieverConfig Tx) (data : Data Tx) (daHeight : Nat)
    (m : CacheManager Tx) : CacheManager Tx :=
  m.setDataDAIncluded (cfg.hashes.daCommitment data.txs) daHeight data.height

inductive BlobCase (cfg : DARetrieverConfig Tx) (env : BlobEnv Tx) (daHeight : Nat)
    (r : Retrieval Tx) (bz : Bytes) : Retrieval Tx → Prop
  | ignored (hempty : bz.length = 0 ∨
      acceptHeader cfg env r.retriever.strictMode bz = none ∧ acceptData cfg bz = none) :
      BlobCase cfg env daHeight r bz r
  | headerWaits {header : SignedHeader} {isValidEnvelope : Bool} (hbz : bz.length ≠ 0)
      (haccept : acceptHeader cfg env r.retriever.strictMode bz = some (header, isValidEnvelope))
      (hnone : r.retriever.pendingHeaders.get? header.header.height = none) :
      BlobCase cfg env daHeight r bz
        ⟨{ r.retriever.strictened isValidEnvelope with
            pendingHeaders := r.retriever.pendingHeaders.put header.header.height header },
          markHeader cfg header daHeight r.cache⟩
  | headerReplaces {header existing : SignedHeader} {isValidEnvelope : Bool} (hbz : bz.length ≠ 0)
      (haccept : acceptHeader cfg env r.retriever.strictMode bz = some (header, isValidEnvelope))
      (hsome : r.retriever.pendingHeaders.get? header.header.height = some existing)
      (hreplace : shouldReplacePendingHeader env existing header = true) :
      BlobCase cfg env daHeight r bz
        ⟨{ r.retriever.strictened isValidEnvelope with
            pendingHeaders := r.retriever.pendingHeaders.put header.header.height header },
          (markHeader cfg header daHeight r.cache).removeHeaderDAIncluded
            (cfg.hashes.headerHash existing.header)⟩
  | headerDropped {header existing : SignedHeader} {isValidEnvelope : Bool} (hbz : bz.length ≠ 0)
      (haccept : acceptHeader cfg env r.retriever.strictMode bz = some (header, isValidEnvelope))
      (hsome : r.retriever.pendingHeaders.get? header.header.height = some existing)
      (hkeep : shouldReplacePendingHeader env existing header = false) :
      BlobCase cfg env daHeight r bz
        ⟨r.retriever.strictened isValidEnvelope,
          (markHeader cfg header daHeight r.cache).removeHeaderDAIncluded
            (cfg.hashes.headerHash header.header)⟩
  | dataWaits {data : Data Tx} (hbz : bz.length ≠ 0)
      (hheader : acceptHeader cfg env r.retriever.strictMode bz = none)
      (haccept : acceptData cfg bz = some data)
      (hnone : r.retriever.pendingData.get? data.height = none) :
      BlobCase cfg env daHeight r bz
        ⟨{ r.retriever with pendingData := r.retriever.pendingData.put data.height data },
          markData cfg data daHeight r.cache⟩
  | dataDropped {data existing : Data Tx} (hbz : bz.length ≠ 0)
      (hheader : acceptHeader cfg env r.retriever.strictMode bz = none)
      (haccept : acceptData cfg bz = some data)
      (hsome : r.retriever.pendingData.get? data.height = some existing) :
      BlobCase cfg env daHeight r bz ⟨r.retriever, markData cfg data daHeight r.cache⟩

theorem processBlob_cases (cfg : DARetrieverConfig Tx) (env : BlobEnv Tx) (daHeight : Nat)
    (r : Retrieval Tx) (bz : Bytes) :
    BlobCase cfg env daHeight r bz (processBlob cfg env daHeight r bz) := by
  unfold processBlob
  by_cases hbz : bz.length = 0
  · rw [if_pos hbz]
    exact .ignored (.inl hbz)
  · rw [if_neg hbz]
    unfold tryDecodeHeader
    cases haccept : acceptHeader cfg env r.retriever.strictMode bz with
    | some x =>
      obtain ⟨header, isValidEnvelope⟩ := x
      dsimp only
      unfold addHeader
      dsimp only
      cases hpending : r.retriever.pendingHeaders.get? header.header.height with
      | none => exact .headerWaits hbz haccept hpending
      | some existing =>
        dsimp only
        cases hreplace : shouldReplacePendingHeader env existing header with
        | true => exact .headerReplaces hbz haccept hpending hreplace
        | false => exact .headerDropped hbz haccept hpending hreplace
    | none =>
      dsimp only
      unfold tryDecodeData
      cases hdata : acceptData cfg bz with
      | none => exact .ignored (.inr ⟨haccept, hdata⟩)
      | some data =>
        dsimp only
        unfold addData
        dsimp only
        cases hpending : r.retriever.pendingData.get? data.height with
        | none => exact .dataWaits hbz haccept hdata hpending
        | some existing => exact .dataDropped hbz haccept hdata hpending

/-! ## Matching -/

theorem mem_range {r : DARetriever Tx} {e : Nat × SignedHeader} :
    e ∈ env.range r.pendingHeaders.entries ↔ r.pendingHeaders.get? e.1 = some e.2 := by
  rw [(env.range_perm _).mem_iff]
  exact OrdMap.mem_entries

variable {event : DAHeightEvent Tx} {bz : Bytes}

/-- The events are the headers that have their data. -/
theorem mem_matchHeaders {r : DARetriever Tx} :
    event ∈ (matchHeaders cfg env daHeight r).1 ↔
      ∃ h header data, r.pendingHeaders.get? h = some header ∧
        dataFor cfg r.pendingData h header = some data ∧ event = ⟨header, data, daHeight, .da⟩ := by
  unfold matchHeaders
  simp only [List.mem_filterMap, mem_range, Option.map_eq_some_iff]
  constructor
  · rintro ⟨⟨h, header⟩, hget, data, hdata, rfl⟩
    exact ⟨h, header, data, hget, hdata, rfl⟩
  · rintro ⟨h, header, data, hget, hdata, rfl⟩
    exact ⟨(h, header), hget, data, hdata, rfl⟩

@[simp] theorem matchHeaders_pendingData (r : DARetriever Tx) :
    (matchHeaders cfg env daHeight r).2.pendingData = r.pendingData := rfl

@[simp] theorem matchHeaders_processed (r : DARetriever Tx) :
    (matchHeaders cfg env daHeight r).2.processed = r.processed := rfl

/-- A header waits on exactly if its data is missing. -/
theorem matchHeaders_get? (daHeight : Nat) (r : DARetriever Tx) (h : Nat) :
    (matchHeaders cfg env daHeight r).2.pendingHeaders.get? h =
      (r.pendingHeaders.get? h).filter fun header => (dataFor cfg r.pendingData h header).isNone := by
  unfold matchHeaders
  dsimp only
  rw [OrdMap.get?_foldl_delete]
  cases hget : r.pendingHeaders.get? h with
  | none => simp
  | some header =>
    have hmem : (h ∈ ((env.range r.pendingHeaders.entries).filter fun e =>
        (dataFor cfg r.pendingData e.1 e.2).isSome).map Prod.fst) ↔
        (dataFor cfg r.pendingData h header).isSome := by
      simp only [List.mem_map, List.mem_filter, mem_range]
      constructor
      · rintro ⟨⟨h', header'⟩, ⟨hget', hsome⟩, rfl⟩
        dsimp only at hget' hsome hget
        rw [hget] at hget'
        cases hget'
        exact hsome
      · intro hsome
        exact ⟨(h, header), ⟨hget, hsome⟩, rfl⟩
    by_cases hsome : (dataFor cfg r.pendingData h header).isSome
    · rw [if_pos (hmem.mpr hsome)]
      simp [Option.filter, Option.isNone_iff_eq_none, Option.isSome_iff_ne_none.mp hsome]
    · rw [if_neg (fun hm => hsome (hmem.mp hm))]
      simp only [Bool.not_eq_true, Option.isSome_eq_false_iff] at hsome
      simp [Option.filter, hsome]

theorem dataFor_eq_some {pendingData : OrdMap Nat (Data Tx)} {h : Nat} {header : SignedHeader}
    {data : Data Tx} : dataFor cfg pendingData h header = some data ↔
      pendingData.get? h = some data ∨ pendingData.get? h = none ∧
        isEmptyDataExpected cfg header = true ∧ data = createEmptyDataForHeader header := by
  unfold dataFor
  cases pendingData.get? h with
  | some data' => simp
  | none =>
    dsimp only
    cases isEmptyDataExpected cfg header with
    | false => simp
    | true => simp [eq_comm]

/-! ## Calls -/

/-- What is done to the retriever: a call, or the data of a block that was handled is dropped. -/
inductive Op (Tx : Type) where
  | processBlobs (env : BlobEnv Tx) (blobs : List Bytes) (daHeight : Nat)
  | removePendingData (height : Nat)

def step (cfg : DARetrieverConfig Tx) (r : Retrieval Tx) :
    Op Tx → List (DAHeightEvent Tx) × Retrieval Tx
  | .processBlobs env blobs daHeight => processBlobs cfg env blobs daHeight r
  | .removePendingData height => ([], { r with retriever := r.retriever.removePendingData height })

/-- The retriever as a call starts to read its blobs. -/
def logBlobs (blobs : List Bytes) (daHeight : Nat) (r : Retrieval Tx) : Retrieval Tx :=
  { r with
    retriever := { r.retriever with
      processed := r.retriever.processed ++ blobs.map fun bz => (daHeight, bz) } }

def decodeBlobs (cfg : DARetrieverConfig Tx) (env : BlobEnv Tx) (blobs : List Bytes)
    (daHeight : Nat) (r : Retrieval Tx) : Retrieval Tx :=
  Run.exec (processBlob cfg env daHeight) (logBlobs blobs daHeight r) blobs

theorem processBlobs_eq (blobs : List Bytes) (r : Retrieval Tx) :
    processBlobs cfg env blobs daHeight r =
      ((matchHeaders cfg env daHeight (decodeBlobs cfg env blobs daHeight r).retriever).1,
        { decodeBlobs cfg env blobs daHeight r with
          retriever := (matchHeaders cfg env daHeight
            (decodeBlobs cfg env blobs daHeight r).retriever).2 }) := rfl

theorem processBlobs_get? (daHeight : Nat) (blobs : List Bytes) (r : Retrieval Tx) (h : Nat) :
    (processBlobs cfg env blobs daHeight r).2.retriever.pendingHeaders.get? h =
      ((decodeBlobs cfg env blobs daHeight r).retriever.pendingHeaders.get? h).filter fun header =>
        (dataFor cfg (decodeBlobs cfg env blobs daHeight r).retriever.pendingData h header).isNone := by
  rw [processBlobs_eq]
  exact matchHeaders_get? daHeight ..

/-! ## What reading leaves alone -/

/-- Blobs change marks only: the events that wait and the headers that were seen stay, and data that
waits stays. -/
structure ReadFrom (r r' : Retrieval Tx) : Prop where
  pendingEvents : r'.cache.pendingEvents = r.cache.pendingEvents
  seen : r'.cache.headerCache.hashes = r.cache.headerCache.hashes
  pendingData : ∀ {h}, (r.retriever.pendingData.get? h).isSome →
    (r'.retriever.pendingData.get? h).isSome

theorem readFrom_processBlob (r : Retrieval Tx) (bz : Bytes) :
    ReadFrom r (processBlob cfg env daHeight r bz) := by
  have hcase := processBlob_cases cfg env daHeight r bz
  generalize processBlob cfg env daHeight r bz = r' at hcase
  cases hcase with
  | ignored => exact ⟨rfl, rfl, id⟩
  | headerWaits | headerReplaces | headerDropped => exact ⟨rfl, Cache.setDAIncluded_hashes .., id⟩
  | dataWaits =>
    refine ⟨rfl, rfl, fun {h} hsome => ?_⟩
    dsimp only
    rw [OrdMap.get?_put]
    split
    · rfl
    · exact hsome
  | dataDropped => exact ⟨rfl, rfl, id⟩

theorem readFrom_decodeBlobs (blobs : List Bytes) (r : Retrieval Tx) :
    ReadFrom r (decodeBlobs cfg env blobs daHeight r) := by
  have hrun : ∀ (blobs : List Bytes) (r : Retrieval Tx),
      ReadFrom r (Run.exec (processBlob cfg env daHeight) r blobs) := by
    intro blobs
    induction blobs with
    | nil => exact fun _ => ⟨rfl, rfl, id⟩
    | cons bz blobs ih =>
      intro r
      have h : ReadFrom r (processBlob cfg env daHeight r bz) := readFrom_processBlob r bz
      have h' := ih (processBlob cfg env daHeight r bz)
      exact ⟨h'.pendingEvents.trans h.pendingEvents, h'.seen.trans h.seen,
        fun hsome => h'.pendingData (h.pendingData hsome)⟩
  have h := hrun blobs (logBlobs blobs daHeight r)
  exact ⟨h.pendingEvents, h.seen, h.pendingData⟩

theorem processBlobs_processed (daHeight : Nat) (blobs : List Bytes) (r : Retrieval Tx) :
    (processBlobs cfg env blobs daHeight r).2.retriever.processed =
      r.retriever.processed ++ blobs.map fun bz => (daHeight, bz) := by
  have hblob : ∀ (r : Retrieval Tx) bz,
      (processBlob cfg env daHeight r bz).retriever.processed = r.retriever.processed := by
    intro r bz
    have hcase := processBlob_cases cfg env daHeight r bz
    generalize processBlob cfg env daHeight r bz = r' at hcase
    cases hcase <;> rfl
  have hrun : ∀ (blobs : List Bytes) (r : Retrieval Tx),
      (Run.exec (processBlob cfg env daHeight) r blobs).retriever.processed =
        r.retriever.processed := by
    intro blobs
    induction blobs with
    | nil => exact fun _ => rfl
    | cons bz blobs ih => exact fun r => (ih _).trans (hblob r bz)
  exact hrun blobs (logBlobs blobs daHeight r)

/-! ## What waits -/

/-- A blob is accepted only as a header with `H` or as data with `D`. -/
structure Carries (cfg : DARetrieverConfig Tx) (H : SignedHeader → Prop) (D : Data Tx → Prop)
    (env : BlobEnv Tx) (bz : Bytes) : Prop where
  header : ∀ {strictMode header isValidEnvelope},
    acceptHeader cfg env strictMode bz = some (header, isValidEnvelope) → H header
  data : ∀ {data}, acceptData cfg bz = some data → D data

theorem carries_iff {H : SignedHeader → Prop} {D : Data Tx → Prop} :
    Carries cfg H D env bz ↔
      (∀ strictMode, ∀ x ∈ acceptHeader cfg env strictMode bz, H x.1) ∧
        ∀ data ∈ acceptData cfg bz, D data := by
  constructor
  · intro h
    exact ⟨fun _ _ hx => h.header hx, fun _ hd => h.data hd⟩
  · rintro ⟨hheader, hdata⟩
    exact ⟨fun hx => hheader _ _ hx, fun hd => hdata _ hd⟩

theorem decodeHeader_of_accept {strictMode : Bool} {x : SignedHeader × Bool}
    (h : acceptHeader cfg env strictMode bz = some x) : decodeHeader cfg strictMode bz = some x := by
  unfold acceptHeader at h
  split at h
  · cases h
  · next header isValidEnvelope hdecode =>
    split at h
    · cases h
    · split at h
      · cases h
      · split at h
        · rw [hdecode]
          exact h
        · cases h

instance {H : SignedHeader → Prop} {D : Data Tx → Prop} [DecidablePred H] [DecidablePred D]
    {bz : Bytes} : Decidable (Carries cfg H D env bz) :=
  decidable_of_iff _ carries_iff.symm

/-- What waits, waits at its height and satisfies `H` or `D`. -/
structure Holds (H : SignedHeader → Prop) (D : Data Tx → Prop) (r : DARetriever Tx) : Prop where
  header : ∀ {h header}, r.pendingHeaders.get? h = some header → header.header.height = h ∧ H header
  data : ∀ {h data}, r.pendingData.get? h = some data → data.height = h ∧ D data

variable {H : SignedHeader → Prop} {D : Data Tx → Prop} {r : Retrieval Tx}

theorem holds_newDARetriever : Holds H D (newDARetriever : DARetriever Tx) := by
  constructor <;> intro h x hget <;> cases hget

theorem Holds.mono {H' : SignedHeader → Prop} {D' : Data Tx → Prop} {r : DARetriever Tx}
    (h : Holds H D r) (hH : ∀ {header}, H header → H' header) (hD : ∀ {data}, D data → D' data) :
    Holds H' D' r :=
  ⟨fun hget => ⟨(h.header hget).1, hH (h.header hget).2⟩,
    fun hget => ⟨(h.data hget).1, hD (h.data hget).2⟩⟩

theorem Holds.putHeader {r : DARetriever Tx} (h : Holds H D r) {header : SignedHeader}
    (hheader : H header) (isValidEnvelope : Bool) :
    Holds H D { r.strictened isValidEnvelope with
      pendingHeaders := r.pendingHeaders.put header.header.height header } := by
  constructor
  · intro h' header' hget
    dsimp only at hget
    rw [OrdMap.get?_put] at hget
    split at hget
    · cases hget
      exact ⟨by omega, hheader⟩
    · exact h.header hget
  · exact h.data

theorem Holds.putData {r : DARetriever Tx} (h : Holds H D r) {data : Data Tx} (hdata : D data) :
    Holds H D { r with pendingData := r.pendingData.put data.height data } := by
  constructor
  · exact h.header
  · intro h' data' hget
    dsimp only at hget
    rw [OrdMap.get?_put] at hget
    split at hget
    · cases hget
      exact ⟨by omega, hdata⟩
    · exact h.data hget

theorem Holds.processBlob (h : Holds H D r.retriever) (hbz : Carries cfg H D env bz) :
    Holds H D (processBlob cfg env daHeight r bz).retriever := by
  have hcase := processBlob_cases cfg env daHeight r bz
  generalize DARetriever.processBlob cfg env daHeight r bz = r' at hcase
  cases hcase with
  | ignored => exact h
  | headerWaits _ haccept _ | headerReplaces _ haccept _ _ =>
    exact h.putHeader (hbz.header haccept) _
  | headerDropped => exact ⟨h.header, h.data⟩
  | dataWaits _ _ haccept _ => exact h.putData (hbz.data haccept)
  | dataDropped => exact h

theorem Holds.decodeBlobs (h : Holds H D r.retriever) {blobs : List Bytes}
    (hblobs : ∀ bz ∈ blobs, Carries cfg H D env bz) :
    Holds H D (decodeBlobs cfg env blobs daHeight r).retriever :=
  Run.invariant (fun r : Retrieval Tx => Holds H D r.retriever) (fun _ _ h hbz => h.processBlob hbz) blobs _
    ⟨h.header, h.data⟩ (Run.meets_of_forall hblobs _)

theorem decodeBlobs_get?_of_ne {height : Nat} {blobs : List Bytes}
    (hblobs : ∀ bz ∈ blobs, Carries cfg (fun header => header.header.height ≠ height)
      (fun data => data.height ≠ height) env bz) (r : Retrieval Tx) :
    (DARetriever.decodeBlobs cfg env blobs daHeight r).retriever.pendingHeaders.get? height =
        r.retriever.pendingHeaders.get? height ∧
      (DARetriever.decodeBlobs cfg env blobs daHeight r).retriever.pendingData.get? height =
        r.retriever.pendingData.get? height := by
  refine Run.invariant (fun r' : Retrieval Tx =>
    r'.retriever.pendingHeaders.get? height = r.retriever.pendingHeaders.get? height ∧
      r'.retriever.pendingData.get? height = r.retriever.pendingData.get? height) ?_ blobs _
    ⟨rfl, rfl⟩ (Run.meets_of_forall hblobs _)
  rintro r' bz ⟨hheader, hdata⟩ hbz
  have hcase := processBlob_cases cfg env daHeight r' bz
  generalize DARetriever.processBlob cfg env daHeight r' bz = r'' at hcase
  cases hcase with
  | ignored | headerDropped | dataDropped => exact ⟨hheader, hdata⟩
  | headerWaits _ haccept _ | headerReplaces _ haccept _ _ =>
    exact ⟨(OrdMap.get?_put_ne _ _ (Ne.symm (hbz.header haccept))).trans hheader, hdata⟩
  | dataWaits _ _ haccept _ =>
    exact ⟨hheader, (OrdMap.get?_put_ne _ _ (Ne.symm (hbz.data haccept))).trans hdata⟩

theorem Holds.matchHeaders {r : DARetriever Tx} (h : Holds H D r) (cfg : DARetrieverConfig Tx)
    (env : BlobEnv Tx) (daHeight : Nat) : Holds H D (matchHeaders cfg env daHeight r).2 := by
  constructor
  · intro h' header hget
    rw [matchHeaders_get?] at hget
    exact h.header (Option.filter_eq_some_iff.mp hget).1
  · exact h.data

/-- The event has a header with `H`, and data with `D` or the data of an empty block. -/
structure EventOf (cfg : DARetrieverConfig Tx) (H : SignedHeader → Prop) (D : Data Tx → Prop)
    (event : DAHeightEvent Tx) : Prop where
  header : H event.header
  data : D event.data ∧ event.data.height = event.header.header.height ∨
    isEmptyDataExpected cfg event.header = true ∧
      event.data = createEmptyDataForHeader event.header
  source : event.source = .da

theorem Holds.events {r : DARetriever Tx} (h : Holds H D r)
    (hmem : event ∈ (DARetriever.matchHeaders cfg env daHeight r).1) : EventOf cfg H D event := by
  obtain ⟨h', header, data, hget, hdata, rfl⟩ := mem_matchHeaders.mp hmem
  obtain ⟨hheight, hheader⟩ := h.header hget
  refine ⟨hheader, ?_, rfl⟩
  rcases dataFor_eq_some.mp hdata with hget' | ⟨_, hempty, rfl⟩
  · obtain ⟨hheight', hdata⟩ := h.data hget'
    exact .inl ⟨hdata, hheight'.trans hheight.symm⟩
  · exact .inr ⟨hempty, rfl⟩

/-- Every blob of the call is accepted only as a header with `H` or as data with `D`. -/
def OpCarries (cfg : DARetrieverConfig Tx) (H : SignedHeader → Prop) (D : Data Tx → Prop) :
    Op Tx → Prop
  | .processBlobs env blobs _ => ∀ bz ∈ blobs, Carries cfg H D env bz
  | .removePendingData _ => True

theorem Holds.removePendingData {r : DARetriever Tx} (h : Holds H D r) (height : Nat) :
    Holds H D (r.removePendingData height) := by
  refine ⟨h.header, fun {h' data} hget => h.data (?_ : r.pendingData.get? h' = _)⟩
  have hget' : (r.pendingData.delete height).get? h' = some data := hget
  rw [OrdMap.get?_delete] at hget'
  split at hget'
  · cases hget'
  · exact hget'

theorem Holds.step (h : Holds H D r.retriever) {op : Op Tx} (hop : OpCarries cfg H D op) :
    Holds H D (step cfg r op).2.retriever := by
  cases op with
  | processBlobs env blobs daHeight => exact (h.decodeBlobs hop).matchHeaders cfg env daHeight
  | removePendingData height => exact h.removePendingData height

theorem Holds.step_events (h : Holds H D r.retriever) {op : Op Tx} (hop : OpCarries cfg H D op) (hmem : event ∈ (DARetriever.step cfg r op).1) :
    EventOf cfg H D event := by
  cases op with
  | processBlobs env blobs daHeight => exact (h.decodeBlobs hop).events hmem
  | removePendingData height => cases hmem

end DARetriever

end EvNode
