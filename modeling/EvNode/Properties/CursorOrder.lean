import EvNode.Lib.Run
import EvNode.Properties.Cursor
import EvNode.Properties.NewSequencer

/-!
# The order in which forced transactions are consumed

A run of the single sequencer with the calls that set its DA height: the executor at a restart,
with the DA height of the last committed state, and the submitter, with the genesis DA height. The
forced transactions consumed should be the epochs one after another.

A call that serves cached transactions computes the next checkpoint from the DA height that was
set last, not from the epoch it serves. `InPlace` asks that the two agree.
-/

namespace EvNode

open Crash Proc

variable {Tx : Type} [Transaction Tx]

/-! ## The DA content -/

/-- The content of the DA layer and how it is cut into epochs. -/
structure EpochContent (Tx : Type) where
  retriever : ForcedInclusionRetriever
  maxBytes : Nat
  blobs : Nat → List Tx

namespace EpochContent

/-- The size-filtered list of the epoch that ends at `h`; inside an epoch there is none. -/
def epoch (k : EpochContent Tx) (h : Nat) : List Tx :=
  if k.retriever.IsEpochEnd h then
    sizeFiltered k.maxBytes ((k.retriever.heights h).flatMap k.blobs)
  else []

/-- The epochs before height `h`, one after another from the start height, and the first
`txIndex` transactions of the epoch at `h`. -/
def upTo (k : EpochContent Tx) (h txIndex : Nat) : List Tx :=
  (List.range' k.retriever.daStartHeight (h - k.retriever.daStartHeight)).flatMap k.epoch ++
    (k.epoch h).take txIndex

/-- The retriever answers faithfully: at an epoch end with the blobs of the epoch in height order,
or with a height from the future. -/
def Faithful (k : EpochContent Tx) (da : DAAnswers Tx) : Prop :=
  ∀ h, k.retriever.IsEpochEnd h → k.retriever.EpochFromFuture da h ∨
    (k.retriever.EpochAnswered da h ∧
      k.retriever.epochTxs da h = (k.retriever.heights h).flatMap k.blobs)

/-- A DA layer that answers every height up to its head is faithful to its own content. -/
theorem faithful_ofBlocks (r : ForcedInclusionRetriever) (maxBytes head : Nat)
    (blocks : List (Nat × BlockData Tx)) :
    (⟨r, maxBytes, (DAAnswers.ofBlocks head blocks).txsAt⟩ : EpochContent Tx).Faithful
      (.ofBlocks head blocks) := by
  intro h _
  by_cases hall : ∀ x ∈ r.heights h, x ≤ head
  · refine .inr ⟨fun x hx => ?_, rfl⟩
    have hx : ¬ head < x := Nat.not_lt.mpr (hall x hx)
    unfold DAAnswers.Answered DAAnswers.blockAt DAAnswers.syncBlock DAAnswers.ofBlocks
    simp only [if_neg hx]
    cases blocks.lookup x <;> rfl
  · left
    simp only [not_forall, Nat.not_le] at hall
    obtain ⟨x, hx, hlt⟩ := hall
    refine ⟨x, hx, rfl, ?_⟩
    show (if head < x then _ else _ : ResultRetrieve Tx).code = _
    rw [if_pos hlt]

variable {h : Nat}

theorem Faithful.event {k : EpochContent Tx} {da : DAAnswers Tx} (hk : k.Faithful da)
    {event : ForcedInclusionEvent Tx}
    (hr : retrieveForcedIncludedTxs k.retriever da h = .ok event) :
    event.endDaHeight = h ∧ k.retriever.daStartHeight ≤ h ∧
      sizeFiltered k.maxBytes event.txs = k.epoch h := by
  have hc := retrieve_cases k.retriever da h
  rw [hr] at hc
  cases hc with
  | notEnd hns hle hne =>
    refine ⟨rfl, hle, ?_⟩
    unfold epoch
    rw [if_neg hne]
    rfl
  | failed ts hns hend hf hna =>
    rcases hk h hend with hfut | ⟨hans, _⟩
    · exact absurd hfut hf
    · exact absurd hans hna
  | complete ts hns hend hans =>
    refine ⟨rfl, hend.1, ?_⟩
    have htxs : k.retriever.epochTxs da h = (k.retriever.heights h).flatMap k.blobs := by
      rcases hk h hend with ⟨x, hx, hfut⟩ | ⟨_, htxs⟩
      · exact absurd hfut (hans x hx).not_fromFuture
      · exact htxs
    unfold epoch
    rw [if_pos hend, htxs]

theorem upTo_append (k : EpochContent Tx) (h i : Nat) (l : List Tx)
    (hl : l = ((k.epoch h).drop i).take l.length) :
    k.upTo h i ++ l = k.upTo h (i + l.length) := by
  unfold upTo
  rw [List.append_assoc, List.take_add]
  conv_lhs => rw [hl]

theorem upTo_next (k : EpochContent Tx) {i : Nat} (hle : k.retriever.daStartHeight ≤ h)
    (hi : (k.epoch h).length ≤ i) : k.upTo h i = k.upTo (h + 1) 0 := by
  unfold upTo
  have hsub : h + 1 - k.retriever.daStartHeight = h - k.retriever.daStartHeight + 1 := by omega
  rw [hsub, List.range'_concat, List.flatMap_append, List.take_of_length_le hi, List.take_zero,
    List.append_nil]
  simp only [List.flatMap_cons, List.flatMap_nil, List.append_nil, Nat.one_mul]
  rw [Nat.add_sub_cancel' hle]

theorem upTo_start (k : EpochContent Tx) (hle : h ≤ k.retriever.daStartHeight) :
    k.upTo h 0 = [] := by
  unfold upTo
  rw [Nat.sub_eq_zero_of_le hle]
  rfl

theorem start_le_of_mem_epoch {k : EpochContent Tx} (hne : k.epoch h ≠ []) :
    k.retriever.daStartHeight ≤ h := by
  unfold epoch at hne
  by_cases hend : k.retriever.IsEpochEnd h
  · exact hend.1
  · rw [if_neg hend] at hne
    exact absurd rfl hne

/-- The checkpoint stands where its history says, and never behind the last transaction of an
epoch. -/
structure InOrder (k : EpochContent Tx) (cp : Checkpoint Tx) : Prop where
  order : cp.passed.map Prod.fst = k.upTo cp.daHeight cp.txIndex
  index : cp.txIndex = 0 ∨ cp.txIndex < (k.epoch cp.daHeight).length
  statuses : ∀ x ∈ cp.passed, x.2 ≠ .postpone

/-- The checkpoint stays in its epoch, or moves to the height after it with every transaction of
the epoch consumed. -/
def Moves (k : EpochContent Tx) (cp cp' : Checkpoint Tx) : Prop :=
  cp'.daHeight = cp.daHeight ∨
    (cp'.daHeight = cp.daHeight + 1 ∧ cp'.txIndex = 0 ∧
      cp'.passed.map Prod.fst = k.upTo (cp.daHeight + 1) 0)

end EpochContent

/-! ## One call -/

namespace Cursor

/-- A call that serves cached transactions finds the DA height at the checkpoint. -/
def InPlace (c : Cursor Tx) : Prop :=
  ¬ c.Fetches → c.remaining ≠ [] → c.daHeight = c.checkpoint.daHeight

/-- The cache is empty or holds the epoch of the checkpoint. -/
def Caches (k : EpochContent Tx) (c : Cursor Tx) : Prop :=
  c.cached = [] ∨ c.cached = k.epoch c.checkpoint.daHeight

variable {k : EpochContent Tx} {c c' : Cursor Tx}

omit [Transaction Tx] in
theorem passed_advance (d : Nat) (consumed : List (Tx × FilterStatus)) (c : Cursor Tx) :
    (c.advance d consumed).checkpoint.passed = c.checkpoint.passed ++ consumed := by
  unfold advance
  dsimp only
  split <;> rfl

variable {da : DAAnswers Tx} {maxBytes : Nat}

theorem call_passed (h : Call da maxBytes c c') :
    ∃ consumed, c'.checkpoint.passed = c.checkpoint.passed ++ consumed := by
  cases h with
  | idle | cleared _ | interrupted _ _ _ => exact ⟨[], (List.append_nil _).symm⟩
  | served consumed _ _ _ | fetched event consumed _ _ _ => exact ⟨consumed, passed_advance ..⟩

theorem call_retriever (h : Call da maxBytes c c') :
    c'.retriever = c.retriever := by
  have hadv : ∀ (c : Cursor Tx) d consumed, (c.advance d consumed).retriever = c.retriever := by
    intro c d consumed
    unfold advance
    dsimp only
    split <;> rfl
  cases h with
  | idle | cleared _ | interrupted _ _ _ => rfl
  | served _ _ _ _ | fetched _ _ _ _ _ => exact hadv ..

theorem call_unset (h : Call da maxBytes c c')
    (hzero : c.daHeight = 0) (hnil : c.cached = []) : c' = c := by
  cases h with
  | idle => rfl
  | cleared hf | interrupted _ hf _ | fetched _ _ hf _ _ => exact absurd hf.1 (by omega)
  | served _ _ hrem _ =>
    unfold remaining at hrem
    rw [hzero, hnil, List.drop_nil] at hrem
    simp at hrem

theorem advance_inOrder (hin : k.InOrder c.checkpoint)
    (hcached : c.cached = k.epoch c.checkpoint.daHeight)
    (hstart : k.retriever.daStartHeight ≤ c.checkpoint.daHeight)
    {consumed : List (Tx × FilterStatus)} (hc : IsConsumed c.remaining consumed) :
    k.InOrder (c.advance c.checkpoint.daHeight consumed).checkpoint ∧
      (c.advance c.checkpoint.daHeight consumed).Caches k ∧
      k.Moves c.checkpoint (c.advance c.checkpoint.daHeight consumed).checkpoint := by
  have horder : (c.checkpoint.passed ++ consumed).map Prod.fst =
      k.upTo c.checkpoint.daHeight (c.checkpoint.txIndex + consumed.length) := by
    have hl : consumed.map Prod.fst = ((k.epoch c.checkpoint.daHeight).drop
        c.checkpoint.txIndex).take (consumed.map Prod.fst).length := by
      rw [List.length_map, ← hcached]
      exact hc.1
    have happ := k.upTo_append c.checkpoint.daHeight c.checkpoint.txIndex _ hl
    rw [List.map_append, hin.order, happ, List.length_map]
  have hstatuses : ∀ x ∈ c.checkpoint.passed ++ consumed, x.2 ≠ .postpone := by
    intro x hx
    rcases List.mem_append.mp hx with hx | hx
    · exact hin.statuses x hx
    · exact hc.2 x hx
  unfold advance
  dsimp only
  by_cases hlen : c.cached.length ≤ c.checkpoint.txIndex + consumed.length
  · rw [if_pos hlen]
    have hnext := k.upTo_next hstart (hcached ▸ hlen)
    rw [hnext] at horder
    exact ⟨⟨horder, .inl rfl, hstatuses⟩, .inl rfl, .inr ⟨rfl, rfl, horder⟩⟩
  · rw [if_neg hlen]
    refine ⟨⟨horder, .inr ?_, hstatuses⟩, .inr hcached, .inl rfl⟩
    show c.checkpoint.txIndex + consumed.length < (k.epoch c.checkpoint.daHeight).length
    rw [← hcached]
    omega

/-- **One call consumes in order.** -/
theorem call_inOrder (h : Call da k.maxBytes c c')
    (hret : c.Fetches → c.retriever = k.retriever) (hk : k.Faithful da) (hplace : c.InPlace)
    (hin : k.InOrder c.checkpoint) (hcaches : c.Caches k) :
    k.InOrder c'.checkpoint ∧ c'.Caches k ∧ k.Moves c.checkpoint c'.checkpoint := by
  cases h with
  | idle => exact ⟨hin, hcaches, .inl rfl⟩
  | cleared _ => exact ⟨hin, .inl rfl, .inl rfl⟩
  | interrupted event hf hr =>
    rw [hret hf] at hr
    exact ⟨hin, .inr (hk.event hr).2.2, .inl rfl⟩
  | served consumed hf hrem hc =>
    have hne := remaining_ne_nil hf hrem
    have hcached : c.cached = k.epoch c.checkpoint.daHeight := by
      rcases hcaches with hnil | hcached
      · refine absurd ?_ hne
        unfold remaining
        rw [hnil]
        exact List.drop_nil
      · exact hcached
    have hstart : k.retriever.daStartHeight ≤ c.checkpoint.daHeight := by
      refine EpochContent.start_le_of_mem_epoch fun hnil => hne ?_
      unfold remaining
      rw [hcached, hnil]
      exact List.drop_nil
    rw [hplace hf hne]
    exact advance_inOrder hin hcached hstart hc
  | fetched event consumed hf hr hc =>
    rw [hret hf] at hr
    obtain ⟨hend, hstart, hepoch⟩ := hk.event hr
    rw [hend]
    have hin' : k.InOrder
      ({ c with cached := sizeFiltered k.maxBytes event.txs } : Cursor Tx).checkpoint := hin
    exact advance_inOrder hin' hepoch hstart hc

end Cursor

/-! ## What a call saves -/

namespace Sequencer

/-- What a call whose save succeeds leaves: a checkpoint that is saved, or nothing moved. -/
structure Saves (s s' : Sequencer Tx) : Prop where
  id_eq : s'.id = s.id
  genesis_eq : s'.genesis = s.genesis
  daStartHeight_eq : s'.daStartHeight = s.daStartHeight
  store : (s'.checkpointStore = some s'.checkpoint ∧
      (0 < s.daHeight ∨ s.cachedForcedInclusionTxs ≠ [])) ∨
    (s'.checkpointStore = s.checkpointStore ∧ s'.checkpoint = s.checkpoint ∧
      s'.daHeight = s.daHeight)

theorem saves_saved {env : BatchEnv Tx} {view : ChainView Tx} {maxBytes d : Nat}
    {s s1 : Sequencer Tx} (hf : fetchIfConsumed env view maxBytes s = (.ok d, s1)) :
    Saves s (s1.saved env maxBytes d) := by
  obtain ⟨_, _, _, heq⟩ := advanced_eq env maxBytes d s1
  obtain ⟨_, hstore⟩ := saved_eq env maxBytes d s1
  obtain ⟨_, _, _, _, hs1⟩ := fetchIfConsumed_eq hf
  refine ⟨by rw [hstore, heq, hs1], by rw [hstore, heq, hs1], by rw [hstore, heq, hs1], ?_⟩
  unfold saved
  by_cases hadv : Advances d s1
  · rw [if_pos hadv]
    refine .inl ⟨rfl, ?_⟩
    rcases fetchIfConsumed_pos hf with hpos | ⟨rfl, rfl⟩
    · exact .inl hpos
    · rcases hadv with hpos | hrem
      · exact .inl hpos
      · right
        intro hnil
        unfold remainingForcedTxs at hrem
        rw [hnil] at hrem
        exact hrem List.drop_nil
  · rw [if_neg hadv]
    unfold advanced
    rw [if_neg hadv, hs1]
    exact .inr ⟨rfl, rfl, rfl⟩

theorem getNextBatch_saves {env : BatchEnv Tx} (hsave : env.save = .ok) (view : ChainView Tx)
    {req : GetNextBatchRequest} {s : Sequencer Tx} (hid : s.id = req.id) :
    Saves (initCheckpoint view s) (getNextBatch env view req s).2 := by
  have hc := getNextBatch_cases env view req s
  generalize getNextBatch env view req s = r at hc
  cases hc with
  | invalidId hid' => exact absurd hid hid'
  | fetchFailed e s1 _ hf | drainCrash d s1 _ hf _ =>
    obtain ⟨_, _, _, _, rfl⟩ := fetchIfConsumed_eq hf
    exact ⟨rfl, rfl, rfl, .inr ⟨rfl, rfl, rfl⟩⟩
  | saveFailed d s1 _ hf _ hfail => exact absurd (hsave.symm.trans hfail) (by simp)
  | saveCrash d s1 _ hf _ hcrash => exact absurd (hsave.symm.trans hcrash) (by simp)
  | noBatch d s1 _ hf _ _ | batch d s1 _ hf _ _ => exact saves_saved hf

end Sequencer

/-! ## Runs -/

/-- The single sequencer with what the executor and the submitter hold for it. -/
structure CursorRun (Tx : Type) where
  live : Live (Sequencer Tx)
  /-- The genesis DA height in the store metadata. -/
  genesisDAHeight : Option Nat
  /-- The DA height of the last committed state. -/
  committedDAHeight : Nat
  /-- History: the forced transactions consumed by the calls so far. -/
  consumed : List (Tx × FilterStatus)

namespace CursorRun

inductive Step (Tx : Type) where
  | getNextBatch (env : BatchEnv Tx) (view : ChainView Tx)
  /-- The executor commits a block. -/
  | commit
  /-- The process dies and starts again, up to the `SetDAHeight` of `initializeState`. -/
  | restart (env : Sequencer.StartEnv) (view : ChainView Tx)
  /-- `setNodeHeightToDAHeight` of the submitter for the first block. -/
  | genesisInclusion

/-- What stays the same over a run: the configuration, `MaxBytes`, the DA height that included the
first block, and the blobs on the DA layer. -/
structure Fixed (Tx : Type) where
  cfg : SequencerConfig
  maxBytes : Nat
  genesisDAIncludedHeight : Nat
  blobs : Nat → List Tx

def Fixed.startHeight (f : Fixed Tx) : Nat :=
  if f.cfg.genesis.daStartHeight ≠ 0 then f.cfg.genesis.daStartHeight
  else f.genesisDAIncludedHeight

def Fixed.content (f : Fixed Tx) : EpochContent Tx where
  retriever := ⟨f.cfg.hasForcedInclusionNamespace, f.startHeight,
    f.cfg.genesis.daEpochForcedInclusion⟩
  maxBytes := f.maxBytes
  blobs := f.blobs

def Fixed.req (f : Fixed Tx) : GetNextBatchRequest := ⟨f.cfg.id, f.maxBytes⟩

/-- The node starts on an empty checkpoint store. -/
def init (f : Fixed Tx) (s0 : Sequencer Tx) : CursorRun Tx :=
  ⟨⟨false, { s0 with checkpointStore := none }⟩, none, f.cfg.genesis.daStartHeight, []⟩

/-- The chain as a call sees it, with the metadata of the run. -/
def viewOf (w : CursorRun Tx) (view : ChainView Tx) : ChainView Tx :=
  { view with genesisDAHeight := w.genesisDAHeight }

def step (f : Fixed Tx) (w : CursorRun Tx) : Step Tx → CursorRun Tx
  | .getNextBatch env view =>
    let live := w.live.call (Sequencer.getNextBatch env (w.viewOf view) f.req)
    { w with
      live := live
      consumed := w.consumed ++
        live.state.checkpoint.passed.drop w.live.state.checkpoint.passed.length }
  | .commit => if w.live.up then { w with committedDAHeight := w.live.state.daHeight } else w
  | .restart env view =>
    let live := w.live.halt.boot (Sequencer.newSequencer f.cfg env (w.viewOf view))
    { w with live := live.call (modify (Sequencer.setDAHeight w.committedDAHeight) :
        Proc (Sequencer Tx) Err Unit) }
  | .genesisInclusion =>
    { w with
      genesisDAHeight := some f.genesisDAIncludedHeight
      live := w.live.call (modify (Sequencer.setDAHeight f.genesisDAIncludedHeight) :
        Proc (Sequencer Tx) Err Unit) }

/-- What is assumed of each call: the retriever answers faithfully and the checkpoint is saved. -/
def Assumed (f : Fixed Tx) : Step Tx → Prop
  | .getNextBatch env _ => f.content.Faithful env.da ∧ env.save = .ok
  | _ => True

/-- The condition on each call: it serves cached transactions at the height of the checkpoint. -/
def InPlace (w : CursorRun Tx) : Step Tx → Prop
  | .getNextBatch _ view => w.live.up = true →
    (Sequencer.initCheckpoint (w.viewOf view) w.live.state).cursor.InPlace
  | _ => True

/-! ### The invariant -/

/-- Without a DA start height in the genesis, the DA height is unknown or the one of the
submitter. -/
def Fresh (f : Fixed Tx) (w : CursorRun Tx) (h : Nat) : Prop :=
  f.cfg.genesis.daStartHeight = 0 →
    h = 0 ∨ (h = f.genesisDAIncludedHeight ∧ w.genesisDAHeight = some f.genesisDAIncludedHeight)

/-- The metadata are there when the genesis has no DA start height. -/
def HasMetadata (f : Fixed Tx) (w : CursorRun Tx) : Prop :=
  f.cfg.genesis.daStartHeight = 0 → w.genesisDAHeight = some f.genesisDAIncludedHeight

/-- What survives a restart. -/
structure Durable (f : Fixed Tx) (w : CursorRun Tx) : Prop where
  metadata : w.genesisDAHeight = none ∨ w.genesisDAHeight = some f.genesisDAIncludedHeight
  unsaved : w.live.state.checkpointStore = none →
    w.consumed = [] ∧ Fresh f w w.committedDAHeight
  saved : ∀ cp, w.live.state.checkpointStore = some cp →
    cp.passed = w.consumed ∧ f.content.InOrder cp ∧ 0 < cp.daHeight ∧ HasMetadata f w

/-- What a running sequencer `s` satisfies. -/
structure Memory (f : Fixed Tx) (w : CursorRun Tx) (s : Sequencer Tx) : Prop where
  id_eq : s.id = f.cfg.id
  genesis_eq : s.genesis = f.cfg.genesis
  log : s.checkpoint.passed = w.consumed
  order : f.content.InOrder s.checkpoint
  caches : s.cursor.Caches f.content
  store : s.checkpointStore = some s.checkpoint ∨ (s.checkpointStore = none ∧
    s.checkpoint.txIndex = 0 ∧ (s.checkpoint.daHeight = 0 ∨ s.checkpoint.daHeight = f.startHeight) ∧
    Fresh f w s.daHeight)
  unset : s.checkpoint.daHeight = 0 → f.cfg.genesis.daStartHeight = 0 ∧
    s.cachedForcedInclusionTxs = [] ∧ s.checkpointStore = none ∧
    (s.daStartHeight = 0 ∨ s.daStartHeight = f.genesisDAIncludedHeight) ∧
    s.fiRetriever.hasForcedInclusionNamespace = f.cfg.hasForcedInclusionNamespace
  retriever : 0 < s.checkpoint.daHeight → s.fiRetriever = f.content.retriever ∧ HasMetadata f w

def Inv (f : Fixed Tx) (w : CursorRun Tx) : Prop :=
  Durable f w ∧ (w.live.up = true → Memory f w w.live.state)

variable {f : Fixed Tx} {w : CursorRun Tx} {s : Sequencer Tx}

theorem Memory.consumed_eq_nil (h : Memory f w s) (hnone : s.checkpointStore = none) :
    w.consumed = [] := by
  rcases h.store with hs | ⟨_, hidx, hheight, _⟩
  · rw [hnone] at hs
    cases hs
  · have hle : s.checkpoint.daHeight ≤ f.content.retriever.daStartHeight := by
      show s.checkpoint.daHeight ≤ f.startHeight
      omega
    have horder := h.order.order
    rw [hidx, f.content.upTo_start hle, h.log] at horder
    exact List.map_eq_nil_iff.mp horder

theorem Memory.durable (h : Memory f w w.live.state)
    (hmeta : w.genesisDAHeight = none ∨ w.genesisDAHeight = some f.genesisDAIncludedHeight)
    (hcommitted : w.live.state.checkpointStore = none → Fresh f w w.committedDAHeight) :
    Durable f w := by
  refine ⟨hmeta, fun hnone => ⟨h.consumed_eq_nil hnone, hcommitted hnone⟩, ?_⟩
  intro cp hcp
  rcases h.store with hs | ⟨hnone, _⟩
  · have heq : w.live.state.checkpoint = cp := Option.some.inj (hs.symm.trans hcp)
    have hpos : 0 < w.live.state.checkpoint.daHeight := by
      by_contra hzero
      have hnone := (h.unset (by omega)).2.2.1
      rw [hnone] at hcp
      cases hcp
    rw [← heq]
    exact ⟨h.log, h.order, hpos, (h.retriever hpos).2⟩
  · rw [hnone] at hcp
    cases hcp

theorem Memory.initCheckpoint (h : Memory f w s) (view : ChainView Tx) :
    Memory f w (Sequencer.initCheckpoint (w.viewOf view) s) := by
  unfold Sequencer.initCheckpoint
  by_cases hc : 0 < s.daHeight ∧ s.checkpoint.daHeight = 0
  · rw [if_pos hc]
    obtain ⟨hpos, hzero⟩ := hc
    obtain ⟨hgenesis, hnil, hnone, hstart, hns⟩ := h.unset hzero
    have hfresh : s.daHeight = f.genesisDAIncludedHeight ∧
        w.genesisDAHeight = some f.genesisDAIncludedHeight := by
      rcases h.store with hs | ⟨_, _, _, hfresh⟩
      · rw [hnone] at hs
        cases hs
      · rcases hfresh hgenesis with h0 | hfresh
        · omega
        · exact hfresh
    have hheight : f.startHeight = f.genesisDAIncludedHeight := by
      unfold Fixed.startHeight
      rw [if_neg (by omega)]
    have hinit : s.getInitialDAStartHeight (w.viewOf view) = f.startHeight := by
      unfold Sequencer.getInitialDAStartHeight
      rw [hheight]
      split
      · next hne => exact hstart.resolve_left hne
      · show w.genesisDAHeight.getD 0 = f.genesisDAIncludedHeight
        rw [hfresh.2]
        rfl
    have hpassed : s.checkpoint.passed = [] := h.log.trans (h.consumed_eq_nil hnone)
    refine ⟨h.id_eq, h.genesis_eq, h.log, ⟨?_, .inl rfl, h.order.statuses⟩, .inl hnil,
      .inr ⟨hnone, rfl, .inr (hfresh.1.trans hheight.symm), fun _ => .inr hfresh⟩, ?_, ?_⟩
    · show s.checkpoint.passed.map Prod.fst = f.content.upTo s.daHeight 0
      rw [hpassed, f.content.upTo_start (Nat.le_of_eq (hfresh.1.trans hheight.symm))]
      rfl
    · intro h0
      exact absurd (show s.daHeight = 0 from h0) (by omega)
    · intro _
      refine ⟨?_, fun _ => hfresh.2⟩
      show (⟨s.fiRetriever.hasForcedInclusionNamespace, s.getInitialDAStartHeight (w.viewOf view),
        s.genesis.daEpochForcedInclusion⟩ : ForcedInclusionRetriever) = f.content.retriever
      rw [hns, hinit, h.genesis_eq]
      rfl
  · rw [if_neg hc]
    exact h

/-- **A call consumes in order**, and the checkpoint leaves an epoch for the height after it. -/
theorem Memory.getNextBatch (h : Memory f w s) {env : BatchEnv Tx} {view : ChainView Tx}
    (hk : f.content.Faithful env.da) (hsave : env.save = .ok)
    (hplace : (Sequencer.initCheckpoint (w.viewOf view) s).cursor.InPlace) (live : Live (Sequencer Tx)) :
    let s' := (Sequencer.getNextBatch env (w.viewOf view) f.req s).2
    Memory f { w with
        live := live
        consumed := w.consumed ++ s'.checkpoint.passed.drop s.checkpoint.passed.length } s' ∧
      f.content.Moves (Sequencer.initCheckpoint (w.viewOf view) s).checkpoint s'.checkpoint := by
  intro s'
  have h0 := h.initCheckpoint view
  have hid : s.id = f.req.id := h.id_eq
  have hcall := Sequencer.getNextBatch_call env (w.viewOf view) hid
  have hsaves := Sequencer.getNextBatch_saves hsave (w.viewOf view) hid
  have hpos : (Sequencer.initCheckpoint (w.viewOf view) s).cursor.Fetches →
      0 < (Sequencer.initCheckpoint (w.viewOf view) s).checkpoint.daHeight := fun hf =>
    Sequencer.checkpoint_pos_of_initCheckpoint (w.viewOf view) s hf.1
  obtain ⟨horder, hcaches, hmoves⟩ := Cursor.call_inOrder hcall
    (fun hf => (h0.retriever (hpos hf)).1) hk hplace h0.order h0.caches
  obtain ⟨consumed, hpassed⟩ := Cursor.call_passed hcall
  have hpassed' : s'.checkpoint.passed = s.checkpoint.passed ++ consumed :=
    hpassed.trans (congrArg (· ++ consumed) (Sequencer.initCheckpoint_passed (w.viewOf view) s))
  -- a call on an unset checkpoint does nothing
  have hunset : (Sequencer.initCheckpoint (w.viewOf view) s).checkpoint.daHeight = 0 →
      (Sequencer.initCheckpoint (w.viewOf view) s).daHeight = 0 ∧
        s'.cursor = (Sequencer.initCheckpoint (w.viewOf view) s).cursor := by
    intro hzero
    have hda : (Sequencer.initCheckpoint (w.viewOf view) s).daHeight = 0 := by
      by_contra hne
      have hp := Sequencer.checkpoint_pos_of_initCheckpoint (w.viewOf view) s (by omega)
      omega
    exact ⟨hda, Cursor.call_unset hcall hda (h0.unset hzero).2.1⟩
  refine ⟨⟨hsaves.id_eq.trans h0.id_eq, hsaves.genesis_eq.trans h0.genesis_eq, ?_, horder, hcaches,
    ?_, ?_, ?_⟩, hmoves⟩
  · show s'.checkpoint.passed = w.consumed ++ s'.checkpoint.passed.drop s.checkpoint.passed.length
    rw [hpassed', List.drop_left, h.log]
  · rcases hsaves.store with ⟨hs, _⟩ | ⟨hs, hcp, hheight⟩
    · exact .inl hs
    · rcases h0.store with h1 | ⟨h1, h2, h3, h4⟩
      · left
        rw [hs, hcp]
        exact h1
      · right
        rw [hs, hcp, hheight]
        exact ⟨h1, h2, h3, h4⟩
  · intro hzero
    have hzero0 : (Sequencer.initCheckpoint (w.viewOf view) s).checkpoint.daHeight = 0 := by
      rcases hmoves with heq | ⟨heq, _⟩
      · exact heq.symm.trans hzero
      · exact absurd (heq.symm.trans hzero) (by omega)
    obtain ⟨hda, heq⟩ := hunset hzero0
    obtain ⟨hgenesis, hnil, hnone, hstart, hns⟩ := h0.unset hzero0
    have hcached : s'.cachedForcedInclusionTxs = [] := (congrArg Cursor.cached heq).trans hnil
    have hret : s'.fiRetriever = (Sequencer.initCheckpoint (w.viewOf view) s).fiRetriever :=
      congrArg Cursor.retriever heq
    refine ⟨hgenesis, hcached, ?_, hsaves.daStartHeight_eq ▸ hstart, hret ▸ hns⟩
    rcases hsaves.store with ⟨_, hp | hne⟩ | ⟨hs, _⟩
    · omega
    · exact absurd hnil hne
    · exact hs.trans hnone
  · intro hp
    have hp0 : 0 < (Sequencer.initCheckpoint (w.viewOf view) s).checkpoint.daHeight := by
      by_contra hzero
      have hcp : s'.checkpoint = (Sequencer.initCheckpoint (w.viewOf view) s).checkpoint :=
        congrArg Cursor.checkpoint (hunset (by omega)).2
      rw [hcp] at hp
      exact hzero hp
    exact ⟨(Cursor.call_retriever hcall).trans (h0.retriever hp0).1, (h0.retriever hp0).2⟩

theorem Durable.started (h : Durable f w) (view : ChainView Tx) (db : Wal Tx) (q : BatchQueue Tx) :
    Memory f w (Sequencer.setDAHeight w.committedDAHeight (Sequencer.started f.cfg (w.viewOf view) db
      w.live.state.checkpointStore q)) := by
  have hinit : ∀ s : Sequencer Tx, s.daStartHeight = f.cfg.genesis.daStartHeight →
      HasMetadata f w → s.getInitialDAStartHeight (w.viewOf view) = f.startHeight := by
    intro s hs hmeta
    unfold Sequencer.getInitialDAStartHeight Fixed.startHeight
    rw [hs]
    split
    · rfl
    · next hzero =>
      show w.genesisDAHeight.getD 0 = f.genesisDAIncludedHeight
      rw [hmeta (by omega)]
      rfl
  cases hstore : w.live.state.checkpointStore with
  | none =>
    obtain ⟨hconsumed, hfresh⟩ := h.unsaved hstore
    have hle : f.cfg.genesis.daStartHeight = 0 ∨ f.cfg.genesis.daStartHeight = f.startHeight := by
      unfold Fixed.startHeight
      split
      · exact .inr rfl
      · next hzero => exact .inl (by omega)
    refine ⟨rfl, rfl, hconsumed.symm, ⟨?_, .inl rfl, fun x hx => absurd hx List.not_mem_nil⟩,
      .inl rfl, .inr ⟨rfl, rfl, hle, hfresh⟩, ?_, ?_⟩
    · have hle' : f.cfg.genesis.daStartHeight ≤ f.content.retriever.daStartHeight := by
        show f.cfg.genesis.daStartHeight ≤ f.startHeight
        omega
      exact (f.content.upTo_start hle').symm
    · intro hzero
      have hzero' : f.cfg.genesis.daStartHeight = 0 := hzero
      refine ⟨hzero', rfl, rfl, ?_, rfl⟩
      show (if f.cfg.genesis.daStartHeight ≠ 0 then _ else w.genesisDAHeight.getD 0) = 0 ∨
        (if f.cfg.genesis.daStartHeight ≠ 0 then _ else w.genesisDAHeight.getD 0) = _
      rw [if_neg (by omega)]
      rcases h.metadata with hm | hm
      · rw [hm]
        exact .inl rfl
      · rw [hm]
        exact .inr rfl
    · intro hpos
      have hne : f.cfg.genesis.daStartHeight ≠ 0 := Nat.ne_of_gt hpos
      have hmeta : HasMetadata f w := fun hzero => absurd hzero hne
      refine ⟨?_, hmeta⟩
      show (⟨_, Sequencer.getInitialDAStartHeight (w.viewOf view) _, _⟩ :
        ForcedInclusionRetriever) = _
      rw [hinit _ rfl hmeta]
      rfl
  | some cp =>
    obtain ⟨hpassed, horder, hpos, hmeta⟩ := h.saved cp hstore
    refine ⟨rfl, rfl, hpassed, horder, .inl rfl, .inl rfl, ?_, ?_⟩
    · intro hzero
      have hzero' : cp.daHeight = 0 := hzero
      omega
    · intro _
      refine ⟨?_, hmeta⟩
      show (⟨_, Sequencer.getInitialDAStartHeight (w.viewOf view) _, _⟩ :
        ForcedInclusionRetriever) = _
      rw [hinit _ rfl hmeta]
      rfl

theorem Durable.of_store (h : Durable f w) {live : Live (Sequencer Tx)}
    (hstore : live.state.checkpointStore = w.live.state.checkpointStore) :
    Durable f { w with live := live } :=
  ⟨h.metadata, fun hnone => h.unsaved (hstore.symm.trans hnone),
    fun cp hcp => h.saved cp (hstore.symm.trans hcp)⟩

/-- **Every step keeps the order.** -/
theorem inv_step (f : Fixed Tx) (w : CursorRun Tx) (op : Step Tx) (h : Inv f w)
    (hok : Assumed f op ∧ InPlace w op) : Inv f (step f w op) := by
  obtain ⟨hd, hm⟩ := h
  cases op with
  | getNextBatch env view =>
    obtain ⟨⟨hk, hsave⟩, hplace⟩ := hok
    cases hup : w.live.up with
    | false =>
      have hlive : w.live.call (Sequencer.getNextBatch env (w.viewOf view) f.req) = w.live := by
        unfold Live.call
        rw [hup]
        rfl
      have hsame : step f w (.getNextBatch env view) = w := by
        unfold step
        simp only [hlive, List.drop_length, List.append_nil]
      rw [hsame]
      exact ⟨hd, hm⟩
    | true =>
      have hstate : (step f w (.getNextBatch env view)).live.state =
          (Sequencer.getNextBatch env (w.viewOf view) f.req w.live.state).2 := Live.call_up hup
      have hnext : Memory f (step f w (.getNextBatch env view))
          (step f w (.getNextBatch env view)).live.state := by
        have hcall := ((hm hup).getNextBatch hk hsave (hplace hup)
          (w.live.call (Sequencer.getNextBatch env (w.viewOf view) f.req))).1
        rw [← hstate] at hcall
        exact hcall
      refine ⟨hnext.durable hd.metadata ?_, fun _ => hnext⟩
      intro hnone
      have hsaves := Sequencer.getNextBatch_saves hsave (w.viewOf view)
        (show w.live.state.id = f.req.id from (hm hup).id_eq)
      rw [hstate] at hnone
      rcases hsaves.store with ⟨hs, _⟩ | ⟨hs, _⟩
      · exact absurd (hs.symm.trans hnone) (by simp)
      · rw [Sequencer.initCheckpoint_store] at hs
        exact (hd.unsaved (hs.symm.trans hnone)).2
  | commit =>
    unfold step
    cases hup : w.live.up with
    | false =>
      rw [if_neg Bool.false_ne_true]
      exact ⟨hd, hm⟩
    | true =>
      rw [if_pos rfl]
      have h := hm hup
      have h' : Memory f { w with committedDAHeight := w.live.state.daHeight } w.live.state :=
        ⟨h.id_eq, h.genesis_eq, h.log, h.order, h.caches, h.store, h.unset, h.retriever⟩
      refine ⟨h'.durable hd.metadata ?_, fun _ => h'⟩
      intro hnone
      rcases h.store with hs | ⟨_, _, _, hfresh⟩
      · exact absurd (hs.symm.trans hnone) (by simp)
      · exact hfresh
  | restart env view =>
    have hboot : (w.live.halt.boot (Sequencer.newSequencer f.cfg env (w.viewOf view))).Holds
        (fun s => ∃ q, s = Sequencer.started f.cfg (w.viewOf view) w.live.state.queue.db
          w.live.state.checkpointStore q)
        (fun s => s.checkpointStore = w.live.state.checkpointStore) := by
      refine Live.Holds.boot ⟨fun hf => absurd hf (by simp [Live.halt]), fun _ => rfl⟩ fun _ => ?_
      exact Sequencer.newSequencer_spec f.cfg env (w.viewOf view) w.live.state
    have hcall : ((w.live.halt.boot (Sequencer.newSequencer f.cfg env (w.viewOf view))).call
        (modify (Sequencer.setDAHeight w.committedDAHeight) : Proc (Sequencer Tx) Err Unit)).Holds
        (fun s => Memory f w s ∧ s.checkpointStore = w.live.state.checkpointStore)
        (fun s => s.checkpointStore = w.live.state.checkpointStore) := by
      refine Live.call_holds hboot.2 fun hup => ?_
      obtain ⟨q, hq⟩ := hboot.1 hup
      rw [wp_modify, hq]
      exact ⟨hd.started view _ q, rfl⟩
    refine ⟨hd.of_store ?_, fun hup => ?_⟩
    · exact hcall.of_both fun _ h => h.2
    · obtain ⟨h, _⟩ := hcall.1 hup
      exact ⟨h.id_eq, h.genesis_eq, h.log, h.order, h.caches, h.store, h.unset, h.retriever⟩
  | genesisInclusion =>
    have hmeta : HasMetadata f (step f w .genesisInclusion) := fun _ => rfl
    have hmono : ∀ h, Fresh f w h → Fresh f (step f w .genesisInclusion) h := by
      intro h hfresh hzero
      rcases hfresh hzero with h0 | ⟨hg, _⟩
      · exact .inl h0
      · exact .inr ⟨hg, rfl⟩
    have hcall : (w.live.call (modify (Sequencer.setDAHeight f.genesisDAIncludedHeight) :
        Proc (Sequencer Tx) Err Unit)).Holds
        (fun s => Memory f (step f w .genesisInclusion) s ∧
          s.checkpointStore = w.live.state.checkpointStore)
        (fun s => s.checkpointStore = w.live.state.checkpointStore) := by
      refine Live.call_holds (fun _ => rfl) fun hup => ?_
      have h := hm hup
      rw [wp_modify]
      refine ⟨⟨h.id_eq, h.genesis_eq, h.log, h.order, h.caches, ?_, h.unset,
        fun hpos => ⟨(h.retriever hpos).1, hmeta⟩⟩, rfl⟩
      rcases h.store with hs | ⟨h1, h2, h3, _⟩
      · exact .inl hs
      · exact .inr ⟨h1, h2, h3, fun _ => .inr ⟨rfl, rfl⟩⟩
    have hstore : (step f w .genesisInclusion).live.state.checkpointStore =
        w.live.state.checkpointStore := hcall.of_both fun _ h => h.2
    refine ⟨⟨.inr rfl, ?_, ?_⟩, fun hup => (hcall.1 hup).1⟩
    · intro hnone
      obtain ⟨hconsumed, hfresh⟩ := hd.unsaved (hstore.symm.trans hnone)
      exact ⟨hconsumed, hmono _ hfresh⟩
    · intro cp hcp
      obtain ⟨hpassed, horder, hpos, _⟩ := hd.saved cp (hstore.symm.trans hcp)
      exact ⟨hpassed, horder, hpos, hmeta⟩

theorem inv_init (f : Fixed Tx) (s0 : Sequencer Tx) : Inv f (init f s0) := by
  refine ⟨⟨.inl rfl, fun _ => ⟨rfl, fun hzero => .inl hzero⟩, ?_⟩, ?_⟩
  · intro cp hcp
    cases hcp
  · intro hup
    cases hup

end CursorRun

open CursorRun in
/--
**Forced transactions are consumed in order.**

In a run in which every call meets `InPlace`, the forced transactions consumed are the epochs from
the start height on, one after another, up to the checkpoint; none of them was postponed. The
checkpoint, in memory or saved, is never behind the last transaction of an epoch: with it, it
moves to the height after the epoch.
-/
theorem consumed_in_order (f : Fixed Tx) (s0 : Sequencer Tx) (ops : List (Step Tx))
    (hmeets : Run.Meets (step f) (fun w op => Assumed f op ∧ InPlace w op) (init f s0) ops) :
    let w := Run.exec (step f) (init f s0) ops
    let UpTo := fun cp : Checkpoint Tx =>
      w.consumed.map Prod.fst = f.content.upTo cp.daHeight cp.txIndex ∧
        (cp.txIndex = 0 ∨ cp.txIndex < (f.content.epoch cp.daHeight).length)
    (w.live.up = true → UpTo w.live.state.checkpoint) ∧
      (∀ cp, w.live.state.checkpointStore = some cp → UpTo cp) ∧
      (w.live.state.checkpointStore = none → w.consumed = []) ∧
      (∀ x ∈ w.consumed, x.2 ≠ .postpone) ∧
      ∀ env view, w.live.up = true → Assumed f (.getNextBatch env view) →
        InPlace w (.getNextBatch env view) →
        f.content.Moves (Sequencer.initCheckpoint (w.viewOf view) w.live.state).checkpoint
          (step f w (.getNextBatch env view)).live.state.checkpoint := by
  intro w UpTo
  obtain ⟨hd, hm⟩ : Inv f w := Run.invariant (Inv f) (inv_step f) ops _ (inv_init f s0) hmeets
  refine ⟨fun hup => ?_, fun cp hcp => ?_, fun hnone => (hd.unsaved hnone).1, ?_, ?_⟩
  · have h := hm hup
    refine ⟨?_, h.order.index⟩
    rw [← h.log]
    exact h.order.order
  · obtain ⟨hpassed, horder, _, _⟩ := hd.saved cp hcp
    refine ⟨?_, horder.index⟩
    rw [← hpassed]
    exact horder.order
  · cases hstore : w.live.state.checkpointStore with
    | none =>
      rw [(hd.unsaved hstore).1]
      exact fun x hx => absurd hx List.not_mem_nil
    | some cp =>
      obtain ⟨hpassed, horder, _, _⟩ := hd.saved cp hstore
      rw [← hpassed]
      exact horder.statuses
  · intro env view hup hassumed hplace
    have hstate : (step f w (.getNextBatch env view)).live.state =
        (Sequencer.getNextBatch env (w.viewOf view) f.req w.live.state).2 := Live.call_up hup
    rw [hstate]
    exact ((hm hup).getNextBatch hassumed.1 hassumed.2 (hplace hup) w.live).2

/-! ## A height set in the middle of an epoch -/

namespace CursorOrderRun

/-- Every DA height from 10 on is an epoch. The heights 10 to 12 have two transactions each. -/
def blocks : List (Nat × BlockData RawTx) :=
  [(10, ⟨1000000000, [⟨1, 5⟩, ⟨2, 5⟩]⟩), (11, ⟨2000000000, [⟨3, 5⟩, ⟨4, 5⟩]⟩),
    (12, ⟨3000000000, [⟨5, 5⟩, ⟨6, 5⟩]⟩)]

def da : DAAnswers RawTx := .ofBlocks 12 blocks

/-- The first block of the chain was included at the DA height 12. -/
def fixed : CursorRun.Fixed RawTx where
  cfg := ⟨⟨"chain", 0, 1, [1], 10, 1, Nat.one_pos, Nat.one_pos⟩, "chain", 0, true⟩
  maxBytes := 100
  genesisDAIncludedHeight := 12
  blobs := da.txsAt

/-- A block has room for `room` transactions. -/
def env (room : Nat) : BatchEnv RawTx where
  da := da
  latestDAHeight := none
  executor := .acceptFirst room
  now := 9000000000
  rollbackDelete := .ok
  save := .ok

def view : ChainView RawTx := ⟨0, none, none, none, none⟩

def startEnv : Sequencer.StartEnv :=
  ⟨⟨.ok, fun _ => .ok, fun _ => .ok, fun _ => .ok⟩, .ok, fun _ => .ok, .ok⟩

def s0 : Sequencer RawTx := .blank fixed.cfg ⟨.empty, [], []⟩ none

def call (room : Nat) : CursorRun.Step RawTx := .getNextBatch (env room) view

def run (ops : List (CursorRun.Step RawTx)) : CursorRun RawTx :=
  Run.exec (CursorRun.step fixed) (CursorRun.init fixed s0) ops

theorem assumed_call (room : Nat) : CursorRun.Assumed fixed (call room) :=
  ⟨EpochContent.faithful_ofBlocks _ _ _ _, rfl⟩

/-- The submitter sets the height after half of the first epoch. -/
def skipping : List (CursorRun.Step RawTx) :=
  [.restart startEnv view, call 1, .genesisInclusion, call 1]

/-- The first epoch is consumed, but no block is committed before the restart. -/
def replaying : List (CursorRun.Step RawTx) :=
  [.restart startEnv view, call 2, .restart startEnv view, call 1, call 1, call 1]

/-- The restart finds a committed block. -/
def resuming : List (CursorRun.Step RawTx) :=
  [.restart startEnv view, call 2, .commit, .restart startEnv view, call 1, call 1]

end CursorOrderRun

open CursorOrderRun CursorRun in
/-- The checkpoint goes from half of epoch 10 to height 13, and epochs 11 and 12 are skipped. After
a restart to an older height, the checkpoint goes from the end of epoch 11 back to its start, and
its first transaction is consumed twice. -/
theorem submitter_skips_epochs :
    ((∀ op ∈ skipping, Assumed fixed op) ∧
      (run skipping).live.state.checkpoint.daHeight = 13 ∧
      (run skipping).consumed.map (·.1.digest) = [1, 2] ∧
      (fixed.content.upTo 13 0).map (·.digest) = [1, 2, 3, 4, 5, 6]) ∧
    ((∀ op ∈ replaying, Assumed fixed op) ∧
      (run replaying).live.state.checkpoint.daHeight = 11 ∧
      (run replaying).consumed.map (·.1.digest) = [1, 2, 3, 4, 3]) := by
  refine ⟨⟨?_, by decide⟩, ⟨?_, by decide⟩⟩
  · simp only [skipping, List.forall_mem_cons]
    exact ⟨trivial, assumed_call 1, trivial, assumed_call 1, by simp⟩
  · simp only [replaying, List.forall_mem_cons]
    exact ⟨trivial, assumed_call 2, trivial, assumed_call 1, assumed_call 1, assumed_call 1,
      by simp⟩

open CursorOrderRun CursorRun in
/-- With a committed block the restart resumes at the checkpoint. -/
theorem consumed_in_order_resuming :
    (run resuming).consumed.map (·.1.digest) = [1, 2, 3, 4] ∧
      (run resuming).consumed.map Prod.fst = fixed.content.upTo 12 0 := by
  refine ⟨by decide, ?_⟩
  have hplace : ∀ c : Cursor RawTx, c.Fetches ∨ c.daHeight = c.checkpoint.daHeight → c.InPlace := by
    intro c hc hnf _
    exact hc.resolve_left hnf
  have hmeets : Run.Meets (step fixed) (fun w op => Assumed fixed op ∧ InPlace w op)
      (init fixed s0) resuming :=
    ⟨⟨trivial, trivial⟩, ⟨assumed_call 2, fun _ => hplace _ (by decide)⟩, ⟨trivial, trivial⟩,
      ⟨trivial, trivial⟩, ⟨assumed_call 1, fun _ => hplace _ (by decide)⟩,
      ⟨assumed_call 1, fun _ => hplace _ (by decide)⟩, trivial⟩
  have h := (consumed_in_order fixed s0 resuming hmeets).1 (by decide)
  have hcp : (run resuming).live.state.checkpoint.daHeight = 12 ∧
      (run resuming).live.state.checkpoint.txIndex = 0 := by decide
  have horder : (run resuming).consumed.map Prod.fst = fixed.content.upTo
      (run resuming).live.state.checkpoint.daHeight
      (run resuming).live.state.checkpoint.txIndex := h.1
  rw [hcp.1, hcp.2] at horder
  exact horder

end EvNode
