import EvNode.Properties.Blobs

/-!
# The proposer's block among foreign blobs

`pendingHeaders` and `pendingData` keep the first entry of a height. A header of another proposer is
turned away when the proposer of its height is known, but the address in it need not be that of the
key that signed it, and data is accepted under any key.

So data of any key, or a header that only names the proposer, takes the place of the proposer's own if
it is read first (`foreign_blobs_suppress`).
-/

namespace EvNode

namespace DARetriever

variable {Tx : Type}

/-- A block as its proposer publishes it: the header in a signed envelope, and the data, unless the
block is empty, in a blob that is no header. -/
structure ProposedBlock (cfg : DARetrieverConfig Tx) where
  header : SignedHeader
  data : Data Tx
  headerBlob : Bytes
  dataBlob : Bytes
  headerBlob_ne : headerBlob.length ≠ 0
  decodes : ∀ strictMode, decodeHeader cfg strictMode headerBlob = some (header, true)
  empty : isEmptyDataExpected cfg header = true → data = createEmptyDataForHeader header
  height : data.height = header.header.height
  published : isEmptyDataExpected cfg header = false → dataBlob.length ≠ 0 ∧
    (∀ strictMode, decodeHeader cfg strictMode dataBlob = none) ∧ acceptData cfg dataBlob = some data

namespace ProposedBlock

variable {cfg : DARetrieverConfig Tx} (b : ProposedBlock cfg)

/-- A header of the block's height is the block's. -/
def OwnHeader (header : SignedHeader) : Prop :=
  header.header.height = b.header.header.height → header = b.header

/-- Data of the block's height is the block's, and the block is not empty. -/
def OwnData (data : Data Tx) : Prop :=
  data.height = b.header.header.height →
    data = b.data ∧ isEmptyDataExpected cfg b.header = false

instance : DecidablePred b.OwnHeader := fun header => inferInstanceAs (Decidable
  (header.header.height = b.header.header.height → header = b.header))

instance [DecidableEq Tx] : DecidablePred b.OwnData := fun data => inferInstanceAs (Decidable
  (data.height = b.header.header.height →
    data = b.data ∧ isEmptyDataExpected cfg b.header = false))

/-- The state expects the proposer at the block's height, and no other blob is accepted for it. -/
def Undisturbed : Op Tx → Prop
  | .processBlobs env blobs _ =>
    env.expectedProposer b.header.header.height = some b.header.header.proposerAddress ∧
      ∀ bz ∈ blobs, Carries cfg b.OwnHeader b.OwnData env bz
  | .removePendingData height => height ≠ b.header.header.height

/-- The header is read while its time is not in the future. -/
def HeaderIn : Op Tx → Prop
  | .processBlobs env blobs _ =>
    b.headerBlob ∈ blobs ∧ b.header.header.validateBasic env.now = .ok ()
  | .removePendingData _ => False

def DataIn : Op Tx → Prop
  | .processBlobs _ blobs _ => b.dataBlob ∈ blobs
  | .removePendingData _ => False

def HeaderWaits (r : DARetriever Tx) : Prop :=
  r.pendingHeaders.get? b.header.header.height = some b.header

/-- The data waits, or is not needed. -/
def DataWaits (r : DARetriever Tx) : Prop :=
  isEmptyDataExpected cfg b.header = true ∨
    r.pendingData.get? b.header.header.height = some b.data

variable {b} {env : BlobEnv Tx} {daHeight : Nat} {r : Retrieval Tx}

theorem assertExpectedProposer_of_eq
    (hproposer : env.expectedProposer b.header.header.height = some b.header.header.proposerAddress) :
    assertExpectedProposer env b.header = true := by
  unfold assertExpectedProposer
  rw [hproposer]
  simp

theorem acceptHeader_headerBlob (hproposer : assertExpectedProposer env b.header = true)
    (htime : b.header.header.validateBasic env.now = .ok ()) (strictMode : Bool) :
    acceptHeader cfg env strictMode b.headerBlob = some (b.header, true) := by
  unfold acceptHeader
  rw [b.decodes]
  dsimp only
  rw [if_neg (by simp), htime]
  dsimp only
  rw [if_pos hproposer]

theorem acceptHeader_dataBlob (env : BlobEnv Tx) (hnonempty : isEmptyDataExpected cfg b.header = false)
    (strictMode : Bool) : acceptHeader cfg env strictMode b.dataBlob = none := by
  unfold acceptHeader
  rw [(b.published hnonempty).2.1]

/-! ## The blobs of one call -/

theorem HeaderWaits.processBlob (h : b.HeaderWaits r.retriever) {bz : Bytes}
    (hbz : Carries cfg b.OwnHeader b.OwnData env bz) :
    b.HeaderWaits (processBlob cfg env daHeight r bz).retriever := by
  have hput : ∀ header : SignedHeader, b.OwnHeader header →
      (r.retriever.pendingHeaders.put header.header.height header).get? b.header.header.height =
        some b.header := by
    intro header hown
    by_cases hheight : header.header.height = b.header.header.height
    · rw [hown hheight]
      exact OrdMap.get?_put_self ..
    · rw [OrdMap.get?_put_ne _ _ (Ne.symm hheight)]
      exact h
  have hcase := processBlob_cases cfg env daHeight r bz
  generalize DARetriever.processBlob cfg env daHeight r bz = r' at hcase
  cases hcase with
  | headerWaits _ haccept _ | headerReplaces _ haccept _ _ => exact hput _ (hbz.header haccept)
  | _ => exact h

theorem DataWaits.processBlob (h : b.DataWaits r.retriever) {bz : Bytes}
    (hbz : Carries cfg b.OwnHeader b.OwnData env bz) :
    b.DataWaits (processBlob cfg env daHeight r bz).retriever := by
  refine h.imp_right fun hget => ?_
  have hcase := processBlob_cases cfg env daHeight r bz
  generalize DARetriever.processBlob cfg env daHeight r bz = r' at hcase
  cases hcase with
  | @dataWaits data _ _ haccept _ =>
    dsimp only
    by_cases hheight : data.height = b.header.header.height
    · rw [(hbz.data haccept hheight).1, b.height]
      exact OrdMap.get?_put_self ..
    · rw [OrdMap.get?_put_ne _ _ (Ne.symm hheight)]
      exact hget
  | _ => exact hget

/-- Read first or later, the header waits: an earlier entry is the block's own. -/
theorem headerWaits_of_read (hold : Holds b.OwnHeader b.OwnData r.retriever)
    (hproposer : assertExpectedProposer env b.header = true)
    (htime : b.header.header.validateBasic env.now = .ok ()) :
    b.HeaderWaits (DARetriever.processBlob cfg env daHeight r b.headerBlob).retriever := by
  have haccept := acceptHeader_headerBlob hproposer htime r.retriever.strictMode
  have hcase := processBlob_cases cfg env daHeight r b.headerBlob
  generalize DARetriever.processBlob cfg env daHeight r b.headerBlob = r' at hcase
  cases hcase with
  | ignored hempty =>
    rcases hempty with hempty | ⟨hnone, _⟩
    · exact absurd hempty b.headerBlob_ne
    · rw [haccept] at hnone
      cases hnone
  | headerWaits _ haccept' _ | headerReplaces _ haccept' _ _ =>
    rw [haccept] at haccept'
    cases haccept'
    exact OrdMap.get?_put_self ..
  | headerDropped _ haccept' hsome _ =>
    rw [haccept] at haccept'
    cases haccept'
    obtain ⟨hheight, hown⟩ := hold.header hsome
    rw [hown hheight] at hsome
    exact hsome
  | dataWaits _ hnone _ _ | dataDropped _ hnone _ _ =>
    rw [haccept] at hnone
    cases hnone

theorem dataWaits_of_read (hold : Holds b.OwnHeader b.OwnData r.retriever) :
    b.DataWaits (DARetriever.processBlob cfg env daHeight r b.dataBlob).retriever := by
  cases hempty : isEmptyDataExpected cfg b.header with
  | true => exact .inl hempty
  | false =>
    obtain ⟨hne, _, haccept⟩ := b.published hempty
    have hheader := acceptHeader_dataBlob env hempty r.retriever.strictMode
    right
    have hcase := processBlob_cases cfg env daHeight r b.dataBlob
    generalize DARetriever.processBlob cfg env daHeight r b.dataBlob = r' at hcase
    cases hcase with
    | ignored hignored =>
      rcases hignored with hlen | ⟨_, hnone⟩
      · exact absurd hlen hne
      · rw [haccept] at hnone
        cases hnone
    | headerWaits _ haccept' _ | headerReplaces _ haccept' _ _ | headerDropped _ haccept' _ _ =>
      rw [hheader] at haccept'
      cases haccept'
    | dataWaits _ _ haccept' _ =>
      rw [haccept] at haccept'
      cases haccept'
      rw [← b.height]
      exact OrdMap.get?_put_self ..
    | dataDropped _ _ haccept' hsome =>
      rw [haccept] at haccept'
      cases haccept'
      obtain ⟨hheight, hown⟩ := hold.data hsome
      rw [b.height] at hsome hheight
      rw [(hown hheight).1] at hsome
      exact hsome

/-- What one blob brings and later blobs keep is there after the call. -/
theorem waits_after {P : DARetriever Tx → Prop} {blobs : List Bytes}
    (hblobs : ∀ bz ∈ blobs, Carries cfg b.OwnHeader b.OwnData env bz)
    (hkeep : ∀ (r : Retrieval Tx) bz, Carries cfg b.OwnHeader b.OwnData env bz → P r.retriever →
      P (DARetriever.processBlob cfg env daHeight r bz).retriever)
    (hold : Holds b.OwnHeader b.OwnData r.retriever)
    (hread : P r.retriever ∨ ∃ bz ∈ blobs, ∀ r : Retrieval Tx,
      Holds b.OwnHeader b.OwnData r.retriever →
        P (DARetriever.processBlob cfg env daHeight r bz).retriever) :
    P (Run.exec (DARetriever.processBlob cfg env daHeight) r blobs).retriever := by
  induction blobs generalizing r with
  | nil =>
    rcases hread with h | ⟨_, hmem, _⟩
    · exact h
    · cases hmem
  | cons bz blobs ih =>
    have hbz := hblobs bz List.mem_cons_self
    refine ih (fun bz' hmem => hblobs bz' (List.mem_cons_of_mem _ hmem)) (hold.processBlob hbz) ?_
    rcases hread with h | ⟨bz', hmem, hsets⟩
    · exact .inl (hkeep r bz hbz h)
    · rcases List.mem_cons.mp hmem with rfl | hmem
      · exact .inl (hsets r hold)
      · exact .inr ⟨bz', hmem, hsets⟩

/-! ## Calls -/

/-- A header that waits with its data leaves as an event. -/
theorem event_of_waits {r : DARetriever Tx} (hold : Holds b.OwnHeader b.OwnData r)
    (hheader : b.HeaderWaits r) (hdata : b.DataWaits r) :
    ⟨b.header, b.data, daHeight, .da⟩ ∈ (matchHeaders cfg env daHeight r).1 := by
  refine mem_matchHeaders.mpr ⟨_, _, _, hheader, dataFor_eq_some.mpr ?_, rfl⟩
  rcases hdata with hempty | hget
  · cases hget : r.pendingData.get? b.header.header.height with
    | none => exact .inr ⟨rfl, hempty, b.empty hempty⟩
    | some data =>
      obtain ⟨hheight, hown⟩ := hold.data hget
      exact absurd (hempty.symm.trans (hown hheight).2) (by simp)
  · exact .inl hget

/-- After a call not both sides wait. -/
theorem missing_matchHeaders (b : ProposedBlock cfg) (env : BlobEnv Tx) (daHeight : Nat)
    (r : DARetriever Tx) :
    ¬ (b.HeaderWaits (matchHeaders cfg env daHeight r).2 ∧
      b.DataWaits (matchHeaders cfg env daHeight r).2) := by
  rintro ⟨hheader, hdata⟩
  obtain ⟨-, hnone⟩ := Option.filter_eq_some_iff.mp ((matchHeaders_get? daHeight r _).symm.trans hheader)
  have hdata : b.DataWaits r := hdata
  have hsome : ∃ data, dataFor cfg r.pendingData b.header.header.height b.header = some data := by
    rcases hdata with hempty | hget
    · cases hget : r.pendingData.get? b.header.header.height with
      | none => exact ⟨_, dataFor_eq_some.mpr (.inr ⟨hget, hempty, rfl⟩)⟩
      | some data => exact ⟨data, dataFor_eq_some.mpr (.inl hget)⟩
    · exact ⟨_, dataFor_eq_some.mpr (.inl hget)⟩
  obtain ⟨data, hsome⟩ := hsome
  rw [hsome] at hnone
  cases hnone

/-- One call: the event is there, or what waited or was read waits now, and not both sides do. -/
theorem processBlobs_waits {blobs : List Bytes} (hproposer : assertExpectedProposer env b.header = true)
    (hblobs : ∀ bz ∈ blobs, Carries cfg b.OwnHeader b.OwnData env bz)
    (hold : Holds b.OwnHeader b.OwnData r.retriever) :
    (∃ event ∈ (processBlobs cfg env blobs daHeight r).1,
        event.header = b.header ∧ event.data = b.data) ∨
      (b.HeaderWaits r.retriever ∨ b.HeaderIn (.processBlobs env blobs daHeight) →
          b.HeaderWaits (processBlobs cfg env blobs daHeight r).2.retriever) ∧
        (b.DataWaits r.retriever ∨ b.DataIn (.processBlobs env blobs daHeight) →
          b.DataWaits (processBlobs cfg env blobs daHeight r).2.retriever) ∧
        ¬ (b.HeaderWaits (processBlobs cfg env blobs daHeight r).2.retriever ∧
          b.DataWaits (processBlobs cfg env blobs daHeight r).2.retriever) := by
  have hold' : Holds b.OwnHeader b.OwnData (decodeBlobs cfg env blobs daHeight r).retriever :=
    hold.decodeBlobs hblobs
  -- what waits once all blobs are read
  have hheader : b.HeaderWaits r.retriever ∨ b.HeaderIn (.processBlobs env blobs daHeight) →
      b.HeaderWaits (decodeBlobs cfg env blobs daHeight r).retriever := fun h =>
    waits_after hblobs (fun _ _ hbz hw => hw.processBlob hbz) ⟨hold.header, hold.data⟩
      (h.imp id fun ⟨hmem, htime⟩ =>
        ⟨b.headerBlob, hmem, fun _ hold => headerWaits_of_read hold hproposer htime⟩)
  have hdata : b.DataWaits r.retriever ∨ b.DataIn (.processBlobs env blobs daHeight) →
      b.DataWaits (decodeBlobs cfg env blobs daHeight r).retriever := fun h =>
    waits_after hblobs (fun _ _ hbz hw => hw.processBlob hbz) ⟨hold.header, hold.data⟩
      (h.imp id fun hmem => ⟨b.dataBlob, hmem, fun _ hold => dataWaits_of_read hold⟩)
  by_cases hboth : b.HeaderWaits (decodeBlobs cfg env blobs daHeight r).retriever ∧
      b.DataWaits (decodeBlobs cfg env blobs daHeight r).retriever
  · exact .inl ⟨_, event_of_waits hold' hboth.1 hboth.2, rfl, rfl⟩
  · refine .inr ⟨fun h => ?_, hdata, missing_matchHeaders b env daHeight _⟩
    have hwaits := hheader h
    have hnone : dataFor cfg (decodeBlobs cfg env blobs daHeight r).retriever.pendingData
        b.header.header.height b.header = none := by
      refine Option.eq_none_iff_forall_ne_some.mpr fun data hsome => hboth ⟨hwaits, ?_⟩
      rcases dataFor_eq_some.mp hsome with hget | ⟨_, hempty, _⟩
      · obtain ⟨hheight, hown⟩ := hold'.data hget
        exact .inr (by rw [hget, (hown hheight).1])
      · exact .inl hempty
    refine (processBlobs_get? daHeight blobs r _).trans ?_
    rw [hwaits]
    simp [Option.filter, hnone]

theorem removePendingData_dataWaits {r : DARetriever Tx} {height : Nat}
    (hne : height ≠ b.header.header.height) : b.DataWaits (r.removePendingData height) ↔ b.DataWaits r := by
  have hget : (r.pendingData.delete height).get? b.header.header.height =
      r.pendingData.get? b.header.header.height := by
    rw [OrdMap.get?_delete, if_neg (Ne.symm hne)]
  unfold DataWaits removePendingData
  rw [hget]

/-- One step: the event is there, or what waited still waits, and not both sides do. -/
theorem step_waits {op : Op Tx} (hop : b.Undisturbed op)
    (hold : Holds b.OwnHeader b.OwnData r.retriever)
    (hmissing : ¬ (b.HeaderWaits r.retriever ∧ b.DataWaits r.retriever)) :
    (∃ event ∈ (step cfg r op).1, event.header = b.header ∧ event.data = b.data) ∨
      (b.HeaderWaits r.retriever ∨ b.HeaderIn op → b.HeaderWaits (step cfg r op).2.retriever) ∧
        (b.DataWaits r.retriever ∨ b.DataIn op → b.DataWaits (step cfg r op).2.retriever) ∧
        ¬ (b.HeaderWaits (step cfg r op).2.retriever ∧ b.DataWaits (step cfg r op).2.retriever) := by
  cases op with
  | removePendingData height =>
    have hdata : b.DataWaits (r.retriever.removePendingData height) ↔ b.DataWaits r.retriever :=
      removePendingData_dataWaits hop
    refine .inr ⟨fun h => h.resolve_right id, fun h => hdata.mpr (h.resolve_right id), ?_⟩
    exact fun ⟨hheader, hd⟩ => hmissing ⟨hheader, hdata.mp hd⟩
  | processBlobs env blobs daHeight =>
    exact processBlobs_waits (assertExpectedProposer_of_eq hop.1) hop.2 hold

theorem Undisturbed.carries {op : Op Tx} (hop : b.Undisturbed op) :
    OpCarries cfg b.OwnHeader b.OwnData op := by
  cases op with
  | processBlobs => exact hop.2
  | removePendingData => trivial

/-- The induction over the calls: what does not wait yet is still to be read. -/
theorem found_of_waits (ops : List (Op Tx)) (hops : ∀ op ∈ ops, b.Undisturbed op)
    (hold : Holds b.OwnHeader b.OwnData r.retriever)
    (hmissing : ¬ (b.HeaderWaits r.retriever ∧ b.DataWaits r.retriever))
    (hheader : b.HeaderWaits r.retriever ∨ ∃ op ∈ ops, b.HeaderIn op)
    (hdata : b.DataWaits r.retriever ∨ ∃ op ∈ ops, b.DataIn op) :
    ∃ event ∈ (Run.outputs (step cfg) r ops).flatten,
      event.header = b.header ∧ event.data = b.data := by
  induction ops generalizing r with
  | nil =>
    exact absurd ⟨hheader.resolve_right (by simp), hdata.resolve_right (by simp)⟩ hmissing
  | cons op ops ih =>
    have hop := hops op List.mem_cons_self
    have hlater : ∀ {P : Op Tx → Prop}, (∃ op' ∈ op :: ops, P op') → P op ∨ ∃ op' ∈ ops, P op' :=
      fun h => by simpa using h
    rcases step_waits hop hold hmissing with ⟨event, hmem, heq⟩ | ⟨hkeepHeader, hkeepData, hmissing'⟩
    · exact ⟨event, List.mem_append_left _ hmem, heq⟩
    · obtain ⟨event, hmem, heq⟩ := ih (fun op' h => hops op' (List.mem_cons_of_mem _ h))
        (hold.step hop.carries) hmissing'
        (by rcases hheader with h | h
            · exact .inl (hkeepHeader (.inl h))
            · exact (hlater h).imp_left fun h => hkeepHeader (.inr h))
        (by rcases hdata with h | h
            · exact .inl (hkeepData (.inl h))
            · exact (hlater h).imp_left fun h => hkeepData (.inr h))
      exact ⟨event, List.mem_append_right _ hmem, heq⟩

end ProposedBlock

/-- **The proposer's block is found.** Among any calls that read its header and, unless it is empty,
its data, one returns the event with both, if no other blob is accepted for its height. -/
theorem proposed_block_found (cfg : DARetrieverConfig Tx) (b : ProposedBlock cfg)
    (r : Retrieval Tx) (hold : Holds b.OwnHeader b.OwnData r.retriever)
    (hstart : r.retriever.pendingHeaders.get? b.header.header.height = none)
    (ops : List (Op Tx)) (hops : ∀ op ∈ ops, b.Undisturbed op)
    (hheader : ∃ op ∈ ops, b.HeaderIn op)
    (hdata : isEmptyDataExpected cfg b.header = false → ∃ op ∈ ops, b.DataIn op) :
    ∃ event ∈ (Run.outputs (step cfg) r ops).flatten,
      event.header = b.header ∧ event.data = b.data := by
  refine ProposedBlock.found_of_waits ops hops hold (fun ⟨hwaits, _⟩ => ?_) (.inr hheader) ?_
  · rw [ProposedBlock.HeaderWaits, hstart] at hwaits
    cases hwaits
  · cases hempty : isEmptyDataExpected cfg b.header with
    | true => exact .inl (.inl hempty)
    | false => exact .inr (hdata hempty)

namespace SuppressionRun

def tx : RawTx := ⟨3, 5⟩

def header : SignedHeader := (Header.block [7] 1 [tx] []).signedBy [7]

/-- The header and data of block 1, whose proposer is `[7]`, and blobs of the key `[8]`: data for block
1, a header for it that names the proposer, one that does not, and a header for block 2. -/
def cfg : DARetrieverConfig RawTx :=
  .symbolic [([1], header), ([4], (Header.block [7] 1 [⟨6, 5⟩] []).signedBy [8]),
      ([5], (Header.block [8] 1 [⟨6, 5⟩] []).signedBy [8]),
      ([6], (Header.block [8] 2 [⟨6, 5⟩] []).signedBy [8])]
    [([2], (Data.block 1 [tx]).signedBy [7]), ([3], (Data.block 1 [⟨6, 5⟩]).signedBy [8])]

def env : BlobEnv RawTx := .plain fun height => if height = 1 then some [7] else none

theorem blob_ne : ([1] : Bytes).length ≠ 0 := by decide

def block : ProposedBlock cfg where
  header := header
  data := Data.block 1 [tx]
  headerBlob := [1]
  dataBlob := [2]
  headerBlob_ne := blob_ne
  decodes := by decide
  empty := by decide
  height := rfl
  published := fun _ => ⟨by decide, by decide, by decide⟩

def events (blobs : List (List Bytes)) : List (DAHeightEvent RawTx) :=
  (Run.outputs (step cfg) ⟨newDARetriever, .empty⟩
    (blobs.map fun b => .processBlobs env b 10)).flatten

end SuppressionRun

open SuppressionRun in
/-- Blobs of another key come first: a header that does not name the proposer, and one for the next
block. -/
theorem proposed_block_found_amongForeign :
    ∃ event ∈ events [[[5], [6]], [[5], [1]], [[2]]],
      event.header = block.header ∧ event.data = block.data := by
  refine proposed_block_found cfg block _ holds_newDARetriever rfl _ ?_ ?_ ?_
  · intro op hop
    obtain ⟨blobs, hmem, rfl⟩ := List.mem_map.mp hop
    have hown : ∀ blobs ∈ [[[5], [6]], [[5], [1]], [[2]]], ∀ bz ∈ blobs,
        Carries cfg block.OwnHeader block.OwnData env bz := by decide
    exact ⟨rfl, hown blobs hmem⟩
  · exact ⟨_, List.mem_cons_of_mem _ List.mem_cons_self, List.mem_cons_of_mem _ List.mem_cons_self,
      rfl⟩
  · intro _
    exact ⟨_, List.mem_cons_of_mem _ (List.mem_cons_of_mem _ List.mem_cons_self),
      List.mem_cons_self⟩

open SuppressionRun in
/-- **The proposer's block is suppressed** by data of another key, or by a header that another key
signed and that names the proposer, if either is read first. Alone, the block is found. -/
theorem foreign_blobs_suppress :
    (events [[[1], [2]]]).map (fun e => (e.header, e.data)) = [(block.header, block.data)] ∧
      (∀ event ∈ events [[[3]], [[1]], [[2]]],
        ¬ (event.header = block.header ∧ event.data = block.data)) ∧
      ∀ event ∈ events [[[4]], [[1]], [[2]]],
        ¬ (event.header = block.header ∧ event.data = block.data) := by
  decide

end DARetriever

end EvNode
