import EvNode.Properties.HeadReached

/-!
# What a node keeps of blocks on DA

A block lies on DA in two blobs, at any two DA heights. The syncer writes the height at which it
completed the block to `state.DAHeight`, and of the blocks it has not committed yet it writes nothing.

* `PlacedBlock` — a block of the proposer with the DA heights of its blobs
* `DAChain` — the blocks of a chain, placed on DA
* `OnDisk`, `Running` — what holds of the store and of the process in every run that reads DA only: an
  event of the chain was completed at the DA height of one of the block's own blobs, so the DA height
  of the state is that of a committed block
-/

namespace EvNode

open Crash Proc DARetriever

variable {Tx : Type}

/-- A block of the proposer, and the DA heights of its header and of its data. No other blob on DA is
accepted for its height. -/
structure PlacedBlock (cfg : DANodeConfig Tx) (content : DAContent) extends
    ProposedBlock cfg.retriever where
  headerDA : Nat
  dataDA : Nat
  header_mem : headerBlob ∈ content.blobs headerDA
  data_mem : isEmptyDataExpected cfg.retriever header = false → dataBlob ∈ content.blobs dataDA
  own : ∀ d, ∀ bz ∈ content.blobs d, ∀ env, Carries cfg.retriever
    (fun x => x.header.height = header.header.height → x = header ∧ d = headerDA)
    (fun x => x.height = header.header.height →
      x = data ∧ isEmptyDataExpected cfg.retriever header = false ∧ d = dataDA) env bz

/-- The operations of a node that receives blocks only from DA. -/
def DANode.Op.FromDA (content : DAContent) : DANode.Op Tx → Prop
  | .scan _ blobs daHeight => ∀ bz ∈ blobs, bz ∈ content.blobs daHeight
  | .syncer (.pipeEvent _ _) | .syncer (.processHeight _ _ _) | .syncer (.recoverFromRaft _ _) => False
  | .syncer _ => True

instance (content : DAContent) (op : DANode.Op Tx) : Decidable (op.FromDA content) := by
  induction op using DANode.Op.casesOn with
  | scan => exact inferInstanceAs (Decidable (∀ _ ∈ _, _))
  | syncer op =>
    induction op using Syncer.Op.casesOn <;> dsimp only [DANode.Op.FromDA] <;> infer_instance

namespace PlacedBlock

variable {cfg : DANodeConfig Tx} {content : DAContent} (p : PlacedBlock cfg content)

def number : Nat := p.header.header.height

/-- The DA height at which the block is complete. -/
def done : Nat :=
  if isEmptyDataExpected cfg.retriever p.header then p.headerDA else max p.headerDA p.dataDA

/-- The event is the block's, and was completed when the block was. -/
structure IsEvent (event : DAHeightEvent Tx) : Prop where
  header : event.header = p.header
  txs : event.data.txs = p.data.txs
  daHeight : event.daHeight ≤ p.done

/-- What waits of the block is its own, and every event of its height is the block's. -/
structure Traced (n : DANode Tx) : Prop where
  holds : Holds p.OwnHeader p.OwnData n.part
  missing : ¬ (p.HeaderWaits n.part ∧ p.DataWaits n.part)
  queued : ∀ {event}, n.syncer.Queued event → event.header.header.height = p.number → p.IsEvent event

variable {p} {n n' : DANode Tx}

theorem headerDA_le_done : p.headerDA ≤ p.done := by
  unfold done
  split
  · exact Nat.le_refl _
  · exact Nat.le_max_left ..

theorem dataDA_le_done (hnonempty : isEmptyDataExpected cfg.retriever p.header = false) :
    p.dataDA ≤ p.done := by
  unfold done
  rw [hnonempty]
  exact Nat.le_max_right ..

theorem alone : p.Alone content := by
  intro d bz hbz env
  have hown := p.own d bz hbz env
  constructor
  · exact fun haccept hheight => (hown.header haccept hheight).1
  · exact fun haccept hheight => ⟨(hown.data haccept hheight).1, (hown.data haccept hheight).2.1⟩

theorem IsEvent.congr {x event : DAHeightEvent Tx} (h : p.IsEvent event)
    (hsame : Hooked.SameEvent x event) : p.IsEvent x where
  header := hsame.header.trans h.header
  txs := hsame.txs.trans h.txs
  daHeight := hsame.daHeight.symm ▸ h.daHeight

/-! ## Blobs -/

/-- Above the DA height at which the block is complete, blobs leave what waits at its height. -/
theorem carries_of_done_lt {d : Nat} (hd : p.done < d) {bz : Bytes} (hbz : bz ∈ content.blobs d)
    (env : BlobEnv Tx) : Carries cfg.retriever (fun x => x.header.height ≠ p.number)
      (fun x => x.height ≠ p.number) env bz := by
  have hown := p.own d bz hbz env
  constructor
  · intro strictMode header isValidEnvelope haccept hheight
    obtain ⟨-, rfl⟩ := hown.header haccept hheight
    exact absurd hd (Nat.not_lt.mpr headerDA_le_done)
  · intro data haccept hheight
    obtain ⟨-, hnonempty, rfl⟩ := hown.data haccept hheight
    exact absurd hd (Nat.not_lt.mpr (dataDA_le_done hnonempty))

/-- A block that a scan completes is completed by one of its own blobs. -/
theorem Traced.event_of_mem (h : p.Traced n) {env : ScanEnv} {blobs : List Bytes} {daHeight : Nat}
    (hblobs : ∀ bz ∈ blobs, bz ∈ content.blobs daHeight) {event : DAHeightEvent Tx}
    (hmem : event ∈ (DANode.matched cfg env blobs daHeight n).1)
    (hheight : event.header.header.height = p.number) :
    event.header = p.header ∧ event.data = p.data ∧ event.daHeight ≤ p.done := by
  have hcarries : ∀ bz ∈ blobs, Carries cfg.retriever p.OwnHeader p.OwnData
      (DANode.blobEnv env n.syncer) bz := fun bz hbz => p.alone daHeight bz (hblobs bz hbz) _
  have hread : Holds p.OwnHeader p.OwnData (DANode.read cfg env blobs daHeight n).retriever :=
    Holds.decodeBlobs (r := ⟨n.part, n.syncer.cache⟩) h.holds hcarries
  obtain ⟨hheader, hdata⟩ := ProposedBlock.event_of_height hread hmem hheight
  refine ⟨hheader, hdata, ?_⟩
  obtain ⟨k, header, data, hget, hfor, rfl⟩ := mem_matchHeaders.mp hmem
  dsimp only at hheight hheader hdata ⊢
  obtain rfl : k = p.number := (hread.header hget).1.symm.trans hheight
  by_contra hd
  -- then header and data waited before the scan
  obtain ⟨hheaders, hdatas⟩ : (DANode.read cfg env blobs daHeight n).retriever.pendingHeaders.get?
        p.number = n.part.pendingHeaders.get? p.number ∧
      (DANode.read cfg env blobs daHeight n).retriever.pendingData.get? p.number =
        n.part.pendingData.get? p.number :=
    decodeBlobs_get?_of_ne
      (fun bz hbz => carries_of_done_lt (Nat.not_le.mp hd) (hblobs bz hbz) _) _
  refine h.missing ⟨?_, ?_⟩
  · exact hheaders.symm.trans (hheader ▸ hget)
  · rcases dataFor_eq_some.mp hfor with hget' | ⟨-, hempty, -⟩
    · exact .inr (hdatas.symm.trans (hdata ▸ hget'))
    · exact .inl (hheader ▸ hempty)

/-! ## Steps -/

theorem traced_fresh {env : Syncer.StartEnv} {s : Syncer Tx} (hpart : n.part = newDARetriever)
    (hfresh : Syncer.Fresh cfg.toSyncerConfig env s n.syncer) : p.Traced n where
  holds := hpart ▸ holds_newDARetriever
  missing := by
    rintro ⟨hheader, -⟩
    rw [hpart] at hheader
    cases hheader
  queued := by
    rintro event (hmem | ⟨h, hget⟩)
    · rw [hfresh.heightInCh] at hmem
      cases hmem
    · rw [hfresh.cache] at hget
      cases hget

theorem Traced.scan (h : p.Traced n) {env : ScanEnv} {blobs : List Bytes} {daHeight : Nat}
    {s' : Syncer Tx} (hblobs : ∀ bz ∈ blobs, bz ∈ content.blobs daHeight)
    (hs' : Syncer.Requeued (· ∈ (DANode.matched cfg env blobs daHeight n).1)
      { n.syncer with cache := (DANode.read cfg env blobs daHeight n).cache } s') :
    p.Traced ⟨s', (DANode.matched cfg env blobs daHeight n).2⟩ where
  holds := by
    have hread : Holds p.OwnHeader p.OwnData (DANode.read cfg env blobs daHeight n).retriever :=
      Holds.decodeBlobs (r := ⟨n.part, n.syncer.cache⟩) h.holds
        fun bz hbz => p.alone daHeight bz (hblobs bz hbz) _
    exact hread.matchHeaders cfg.retriever (DANode.blobEnv env n.syncer) daHeight
  missing := ProposedBlock.missing_matchHeaders _ (DANode.blobEnv env n.syncer) daHeight _
  queued := by
    have hpending : (DANode.read cfg env blobs daHeight n).cache.pendingEvents =
        n.syncer.cache.pendingEvents := (readFrom_decodeBlobs ..).pendingEvents
    intro event hq hheight
    rcases hs'.queued hq with hq | hmem
    · refine h.queued (hq.imp_right fun ⟨k, hk⟩ => ⟨k, ?_⟩) hheight
      rw [← hpending]
      exact hk
    · obtain ⟨hheader, hdata, hdone⟩ := h.event_of_mem hblobs hmem hheight
      exact ⟨hheader, by rw [hdata], hdone⟩

theorem dataWaits_of_removePendingData {r : DARetriever Tx} {height : Nat}
    (h : p.DataWaits (r.removePendingData height)) : p.DataWaits r := by
  refine h.imp_right fun hget => ?_
  have hget : (r.pendingData.delete height).get? p.header.header.height = some p.data := hget
  rw [OrdMap.get?_delete] at hget
  split at hget
  · cases hget
  · exact hget

theorem Traced.moves [Transaction Tx] (h : p.Traced n) {op : DANode.Op Tx} (hop : op.FromDA content)
    (hmoves : DANode.Moves cfg n op n') : p.Traced n' := by
  cases hmoves with
  | scanned hs' => exact h.scan hop hs'
  | @syncer op n' hmoves =>
    have hqueued : ∀ {event}, n'.syncer.Queued event →
        event.header.header.height = p.number → p.IsEvent event := by
      intro event hq hheight
      rcases Hooked.queued_of_moves _ _ hmoves hq with hoffer | ⟨old, hold, hsame⟩
      · cases op with
        | pipeEvent | processHeight | recoverFromRaft => exact hop.elim
        | _ => exact hoffer.elim
      · exact (h.queued hold (hsame.header ▸ hheight)).congr hsame
    rcases DANode.part_of_moves hmoves with hpart | ⟨event, -, -, hpart⟩
    · exact ⟨hpart ▸ h.holds, hpart ▸ h.missing, hqueued⟩
    · refine ⟨hpart ▸ h.holds.removePendingData _, fun ⟨hheader, hdata⟩ => ?_, hqueued⟩
      rw [hpart] at hheader hdata
      exact h.missing ⟨hheader, dataWaits_of_removePendingData hdata⟩

end PlacedBlock

/-! ## A chain on DA -/

/-- A chain from the initial height to `last`, whose blocks are on DA. -/
structure DAChain (cfg : DANodeConfig Tx) (content : DAContent) where
  last : Nat
  block : Nat → PlacedBlock cfg content
  number : ∀ k, cfg.genesis.initialHeight ≤ k → k ≤ last → (block k).number = k

namespace DAChain

variable {cfg : DANodeConfig Tx} {content : DAContent} (chain : DAChain cfg content)

def Covers (k : Nat) : Prop := cfg.genesis.initialHeight ≤ k ∧ k ≤ chain.last

/-- The DA height is at most the start height, or at most one at which a block up to `h` is complete. -/
def Reached (h d : Nat) : Prop :=
  d ≤ cfg.genesis.daStartHeight ∨ ∃ i, chain.Covers i ∧ i ≤ h ∧ d ≤ (chain.block i).done

def Committed (s : Store Tx) (k : Nat) : Prop :=
  ∃ data, s.getBlockData k = some ((chain.block k).header, data) ∧
    data.txs = (chain.block k).data.txs

structure OnDisk (s : Store Tx) : Prop where
  wf : s.WF cfg.genesis
  start_le : cfg.genesis.initialHeight - 1 ≤ s.lastHeight cfg.genesis
  keyed : ∀ {h b}, s.blocks.get? h = some b → b.header.header.height = h
  states : ∀ {h state}, s.states.get? h = some state → h < chain.last → chain.Reached h state.daHeight
  blocks : ∀ {k}, chain.Covers k → k ≤ s.height → chain.Committed s k

structure Loaded (s : Syncer Tx) : Prop extends chain.OnDisk s.store where
  stored : s.store.getState.isSome = true
  height : s.lastState.lastBlockHeight = s.store.height
  state : s.store.height < chain.last → chain.Reached s.store.height s.lastState.daHeight

structure Running (n : DANode Tx) : Prop extends chain.Loaded n.syncer where
  traced : ∀ {k}, chain.Covers k → (chain.block k).Traced n

variable {chain} {s s' : Store Tx} {h d k : Nat}

theorem Covers.number (hk : chain.Covers k) : (chain.block k).number = k := chain.number k hk.1 hk.2

theorem Reached.mono {h' : Nat} (hd : chain.Reached h d) (hle : h ≤ h') : chain.Reached h' d :=
  hd.imp_right fun ⟨i, hi, hih, hdone⟩ => ⟨i, hi, Nat.le_trans hih hle, hdone⟩

/-! ## The store -/

theorem onDisk_empty : chain.OnDisk (.empty : Store Tx) where
  wf := ⟨nofun, fun _ => Nat.zero_le _, nofun⟩
  start_le := Nat.le_refl _
  keyed := nofun
  states := nofun
  blocks := by
    intro k hk hle
    have hpos := cfg.genesis.initialHeight_pos
    have hge := hk.1
    have hzero : k ≤ 0 := hle
    omega

theorem OnDisk.le_height (hs : chain.OnDisk s) (hk : chain.Covers k)
    (hle : k ≤ s.lastHeight cfg.genesis) : k ≤ s.height := by
  cases hstate : s.getState with
  | some state =>
    rw [← hs.wf.lastHeight_eq (by rw [hstate]; rfl)]
    exact hle
  | none =>
    have hpos := cfg.genesis.initialHeight_pos
    have hge := hk.1
    unfold Store.lastHeight at hle
    rw [hstate] at hle
    dsimp only at hle
    omega

theorem OnDisk.putState (hs : chain.OnDisk s) {state : State} (hwf : s'.WF cfg.genesis)
    (hlast : s'.lastHeight cfg.genesis = s.lastHeight cfg.genesis) (hblocks : s'.blocks = s.blocks)
    (hstates : s'.states = s.states.put state.lastBlockHeight state)
    (hstate : state.lastBlockHeight < chain.last →
      chain.Reached state.lastBlockHeight state.daHeight) : chain.OnDisk s' where
  wf := hwf
  start_le := hlast ▸ hs.start_le
  keyed := hblocks ▸ hs.keyed
  states := by
    intro k state' hget hlt
    rw [hstates, OrdMap.get?_put] at hget
    split at hget
    · next heq =>
      cases hget
      rw [heq] at hlt ⊢
      exact hstate hlt
    · exact hs.states hget hlt
  blocks := by
    intro k hk hle
    have hle : k ≤ s.lastHeight cfg.genesis := hlast ▸ Nat.le_trans hle hwf.height_le
    obtain ⟨data, hget, htxs⟩ := hs.blocks hk (hs.le_height hk hle)
    refine ⟨data, ?_, htxs⟩
    unfold Store.getBlockData
    rw [hblocks]
    exact hget

theorem OnDisk.writeBack (hs : chain.OnDisk s) {state : State}
    (hlast : state.lastBlockHeight = s.lastHeight cfg.genesis)
    (hstate : state.lastBlockHeight < chain.last →
      chain.Reached state.lastBlockHeight state.daHeight) :
    chain.OnDisk ((s.setHeight state.lastBlockHeight).updateState state) := by
  obtain ⟨hwf, hheight, -⟩ := hs.wf.writeBack hlast
  refine hs.putState hwf hheight (Store.setHeight_blocks ..) ?_ hstate
  show (s.setHeight state.lastBlockHeight).states.put _ _ = _
  rw [Store.setHeight_states]

/-- A replay goes on from the state before the block. -/
theorem OnDisk.keptByReplay (chain : DAChain cfg content) (height : Nat) :
    Store.KeptByReplay cfg.genesis cfg.hashes fun s : Store Tx =>
      chain.OnDisk s ∧ s.getState.isSome = true ∧ s.height = height := by
  rintro s k b prev stateRoot nextProposer ⟨hs, hsome, hheight⟩ hb hprev -
  have hreplayed : Store.Replayed s (s.updateState
      (prev.nextState cfg.hashes b.header.header stateRoot nextProposer)) :=
    (Store.replayed_refl hs.wf.statesKeyed).updateState ⟨k, b, hb, rfl, rfl⟩
  obtain ⟨hwf, hlast, hsome'⟩ := hreplayed.wf hs.wf hsome
  refine ⟨hs.putState hwf hlast rfl rfl fun hlt => ?_, hsome', hheight⟩
  have hlt : b.header.header.height < chain.last := hlt
  show chain.Reached b.header.header.height prev.daHeight
  rw [hs.keyed hb] at hlt ⊢
  unfold Store.replayPrevState at hprev
  split at hprev
  · cases hprev
    exact .inl (Nat.zero_le _)
  · exact (hs.states hprev (Nat.lt_of_le_of_lt (Nat.sub_le ..) hlt)).mono (Nat.sub_le ..)

/-! ## Start -/

/-- The DA height is at most the start height, or below one at which a committed block is complete. -/
def Below (chain : DAChain cfg content) (h d : Nat) : Prop :=
  d ≤ cfg.genesis.daStartHeight ∨ ∃ i, chain.Covers i ∧ i ≤ h ∧ d < (chain.block i).done

/-- The syncer has not been overtaken by P2P, and its start height is that of genesis. -/
def OnlyDA (cfg : DANodeConfig Tx) (env : Syncer.StartEnv) (s : Store Tx) : Prop :=
  cfg.daStartHeight = 0 ∧ ∀ h ∈ env.headerStoreHeight, h ≤ s.height

theorem wp_loadState (env : Syncer.StartEnv) {s : Syncer Tx} (hs : chain.OnDisk s.store) :
    wp (Syncer.loadState cfg.toSyncerConfig env)
      (fun state s' => s' = s ∧ state.lastBlockHeight = s.store.lastHeight cfg.genesis ∧
        (state.lastBlockHeight < chain.last → chain.Reached state.lastBlockHeight state.daHeight))
      (fun _ s' => s' = s) (fun s' => s' = s) s := by
  unfold Syncer.loadState
  rw [wp_bind, wp_get]
  cases hget : s.store.getState with
  | some state =>
    have hlast : state.lastBlockHeight = s.store.lastHeight cfg.genesis :=
      (Store.lastHeight_of_getState hget).symm
    have hreached : state.lastBlockHeight < chain.last →
        chain.Reached state.lastBlockHeight state.daHeight := by
      have hkey : state.lastBlockHeight = s.store.height := hs.wf.statesKeyed _ _ hget
      rw [hkey]
      exact hs.states hget
    refine ⟨rfl, ?_⟩
    split
    · exact ⟨hlast, hreached⟩
    · exact ⟨hlast, hreached⟩
  | none =>
    have hlast : s.store.lastHeight cfg.genesis = cfg.genesis.initialHeight - 1 := by
      unfold Store.lastHeight
      rw [hget]
    dsimp only
    rw [wp_bind, wp_io]
    exact ⟨fun _ => ⟨rfl, hlast.symm, fun _ => .inl (Nat.le_refl _)⟩, fun _ => rfl, fun _ => rfl⟩

/-- The DA height from which a start reads again. -/
theorem below_initialDARetrieverHeight {env : Syncer.StartEnv} {state : State} (cacheDAHeight : Nat)
    (honly : OnlyDA cfg env s) (hheight : s.height ≤ state.lastBlockHeight)
    (hreached : chain.Reached h state.daHeight) :
    chain.Below h (Syncer.initialDARetrieverHeight cfg.toSyncerConfig env state cacheDAHeight) := by
  obtain ⟨hstart, hp2p⟩ := honly
  have hheaders : Syncer.initialDARetrieverHeight cfg.toSyncerConfig env state cacheDAHeight =
      if cfg.genesis.daStartHeight < state.daHeight
        then max cfg.genesis.daStartHeight (state.daHeight - 1) else cfg.genesis.daStartHeight := by
    unfold Syncer.initialDARetrieverHeight
    rw [hstart]
    cases hstore : env.headerStoreHeight with
    | none => rfl
    | some height =>
      have hle : ¬ state.lastBlockHeight < height :=
        Nat.not_lt.mpr (Nat.le_trans (hp2p height hstore) hheight)
      simp [hle]
  rw [hheaders]
  rcases hreached with hle | ⟨i, hi, hih, hdone⟩
  · rw [if_neg (Nat.not_lt.mpr hle)]
    exact .inl (Nat.le_refl _)
  · split
    · by_cases hlow : state.daHeight - 1 ≤ cfg.genesis.daStartHeight
      · exact .inl (Nat.max_le.mpr ⟨Nat.le_refl _, hlow⟩)
      · exact .inr ⟨i, hi, hih, by omega⟩
    · exact .inl (Nat.le_refl _)

theorem wp_start (env : Syncer.StartEnv) {s : Syncer Tx} (hs : chain.OnDisk s.store) :
    wp (Syncer.start cfg.toSyncerConfig env)
      (fun _ s' => chain.Loaded s' ∧ (OnlyDA cfg env s.store → s'.store.height < chain.last →
        chain.Below s'.store.height s'.daRetrieverHeight))
      (fun _ s' => chain.OnDisk s'.store) (fun s' => chain.OnDisk s'.store) s := by
  unfold Syncer.start Syncer.initializeState
  rw [wp_bind, wp_modify, wp_bind, wp_bind]
  refine wp_mono (wp_loadState env hs) ?_ ?_ ?_
  · rintro state _ ⟨rfl, hlast, hreached⟩
    rw [wp_bind, wp_require]
    refine ⟨fun _ => ?_, fun _ => hs⟩
    rw [wp_bind, Syncer.onStore, wp_zoom, wp_io]
    refine ⟨fun _ => ?_, fun _ => hs, fun _ => hs⟩
    have hback := hs.writeBack hlast hreached
    obtain ⟨hwf, hlast', hget, -⟩ := hs.wf.writeBack hlast
    have hsome : ((s.store.setHeight state.lastBlockHeight).updateState state).getState.isSome =
        true := by
      rw [hget]
      rfl
    have hheight : ((s.store.setHeight state.lastBlockHeight).updateState state).height =
        state.lastBlockHeight := by
      rw [← hwf.lastHeight_eq hsome, hlast']
      exact hlast.symm
    rw [wp_bind, wp_modify, wp_mapError, Syncer.onStore, wp_zoom]
    refine wp_mono (Store.wp_syncToHeight (OnDisk.keptByReplay chain state.lastBlockHeight)
      env.replay _ ⟨hback, hsome, hheight⟩) ?_ ?_ ?_
    · rintro _ store ⟨hstore, hsome, hheight⟩
      have hloaded : store.height < chain.last → chain.Reached store.height state.daHeight := by
        rw [hheight]
        exact hreached
      refine ⟨⟨hstore, hsome, hheight.symm, hloaded⟩, fun honly hlt => ?_⟩
      refine below_initialDARetrieverHeight _ honly ?_ (hloaded hlt)
      rw [hlast]
      exact hs.wf.height_le
    · exact fun _ _ hstore => hstore.1
    · exact fun _ hstore => hstore.1
  · rintro _ _ rfl
    exact hs
  · rintro _ rfl
    exact hs

/-! ## A running process -/

section Running

variable {t t' : Syncer Tx}

theorem Loaded.congr (ht : chain.Loaded t) (hstore : t'.store = t.store)
    (hstate : t'.lastState = t.lastState) : chain.Loaded t' where
  toOnDisk := hstore ▸ ht.toOnDisk
  stored := hstore ▸ ht.stored
  height := by
    rw [hstore, hstate]
    exact ht.height
  state := by
    rw [hstore, hstate]
    exact ht.state

theorem Loaded.initialHeight_le (ht : chain.Loaded t) :
    cfg.genesis.initialHeight ≤ t.store.height + 1 := by
  have hle := ht.start_le
  rw [ht.wf.lastHeight_eq ht.stored] at hle
  omega

theorem nextState_daHeight (env : SyncEnv Tx) (event : DAHeightEvent Tx) (state : State) :
    (Syncer.nextState cfg.toSyncerConfig env event state).daHeight = state.daHeight ∨
      (Syncer.nextState cfg.toSyncerConfig env event state).daHeight = event.daHeight := by
  unfold Syncer.nextState Syncer.withDAHeight
  split
  · exact .inr rfl
  · exact .inl rfl

variable [Transaction Tx]

theorem Loaded.commit (ht : chain.Loaded t) {env : SyncEnv Tx} {event : DAHeightEvent Tx} {count : Nat}
    (hnext : event.header.header.height = t.store.height + 1)
    (hevent : chain.Covers (t.store.height + 1) →
      (chain.block (t.store.height + 1)).IsEvent event) :
    chain.Loaded (Syncer.afterCommit cfg.toSyncerConfig env event t.lastState count t) := by
  obtain ⟨state, hstate⟩ : ∃ state,
    state = Syncer.nextState cfg.toSyncerConfig env event t.lastState := ⟨_, rfl⟩
  have hkey : state.lastBlockHeight = event.header.header.height :=
    hstate ▸ Syncer.nextState_lastBlockHeight ..
  have hreached : t.store.height + 1 < chain.last →
      chain.Reached (t.store.height + 1) state.daHeight := by
    intro hlt
    have hcovers : chain.Covers (t.store.height + 1) := ⟨ht.initialHeight_le, hlt.le⟩
    rcases hstate ▸ nextState_daHeight env event t.lastState with hold | hnew
    · rw [hold]
      exact (ht.state (Nat.lt_of_succ_lt hlt)).mono (Nat.le_succ _)
    · rw [hnew]
      exact .inr ⟨_, hcovers, Nat.le_refl _, (hevent hcovers).daHeight⟩
  have hstore : (Syncer.afterCommit cfg.toSyncerConfig env event t.lastState count t).store =
      Node.commitBatch event.header event.data event.header.signature state t.store := by
    rw [hstate]
    rfl
  have hlast : (Syncer.afterCommit cfg.toSyncerConfig env event t.lastState count t).lastState =
      state := hstate.symm
  have hheight : (Syncer.afterCommit cfg.toSyncerConfig env event t.lastState count t).store.height =
      t.store.height + 1 :=
    (Syncer.afterCommit_height (by rw [hnext]; exact Nat.lt_succ_self _)).trans hnext
  have hblock : ∀ k, (Syncer.afterCommit cfg.toSyncerConfig env event t.lastState count
      t).store.getBlockData k = if k = t.store.height + 1 then some (event.header, event.data)
        else t.store.getBlockData k := hnext ▸ Syncer.afterCommit_getBlockData
  generalize Syncer.afterCommit cfg.toSyncerConfig env event t.lastState count t = t' at *
  obtain ⟨hwf, hlast', hget, -⟩ := ht.wf.commitBatch
    (hnext.trans (congrArg (· + 1) (ht.wf.lastHeight_eq ht.stored).symm)) event.data
    event.header.signature hkey
  rw [← hstore] at hwf hlast' hget
  refine ⟨⟨hwf, ?_, ?_, ?_, ?_⟩, by rw [hget]; rfl, ?_, ?_⟩
  · rw [hlast']
    exact Nat.le_succ_of_le ht.start_le
  · intro h b hb
    rw [hstore, Store.commitBatch_blocks, OrdMap.get?_put] at hb
    split at hb
    · next heq =>
      cases hb
      exact heq.symm
    · exact ht.keyed hb
  · intro h state' hget' hlt
    rw [hstore, Store.commitBatch_states, OrdMap.get?_put, hkey, hnext] at hget'
    split at hget'
    · next heq =>
      cases hget'
      rw [heq] at hlt ⊢
      exact hreached hlt
    · exact ht.states hget' hlt
  · intro k hk hle
    unfold Committed
    rw [hblock]
    split
    · next heq =>
      subst heq
      have hev := hevent hk
      exact ⟨event.data, by rw [hev.header], hev.txs⟩
    · next hne => exact ht.blocks hk (by omega)
  · rw [hlast, hkey, hheight, hnext]
  · rw [hlast, hheight]
    exact hreached

omit [Transaction Tx] in
theorem Loaded.rejected (ht : chain.Loaded t) (h : Syncer.Rejected t t') : chain.Loaded t' :=
  ht.congr h.store h.lastState

variable {n n' : DANode Tx} {op : DANode.Op Tx}

theorem Running.loaded_of_moves (hn : chain.Running n) {op : Syncer.Op Tx}
    (hop : (DANode.Op.syncer op).FromDA content)
    (hmoves : Hooked.Moves hooks cfg.toSyncerConfig n op n') : chain.Loaded n'.syncer := by
  have hloaded := hn.toLoaded
  cases hmoves with
  | idle => exact hloaded
  | requeued hs => exact hloaded.congr hs.buffered.store hs.buffered.lastState
  | headerMarked | dataMarked | deleted => exact hloaded.congr rfl rfl
  | raft => exact hop.elim
  | @handled env event rest r n' hch hcase =>
    have hrest : chain.Loaded { n.syncer with heightInCh := rest } := hloaded.congr rfl rfl
    cases hcase with
    | skipped | unread => exact hrest
    | waits => exact hrest.congr rfl rfl
    | failed event' r s1 hnext hseen hev hr htry r' s' hr' hs' =>
      have hs1 := hrest.rejected (htry.rejected hr)
      exact hs1.congr hs'.requeued.buffered.store hs'.requeued.buffered.lastState
    | committed event' count hcan hnext hseen hev hv hm =>
      have hsame := Hooked.sameEvent_withLastDataHash _ hev
      have hheight : event.header.header.height = n.syncer.store.height + 1 := hnext
      refine hrest.commit (by rw [hsame.header]; exact hnext) fun hcovers => ?_
      refine ((hn.traced hcovers).queued (.inl (hch ▸ List.mem_cons_self)) ?_).congr hsame
      rw [hcovers.number]
      exact hheight

theorem Running.moves (hn : chain.Running n) (hop : op.FromDA content)
    (hmoves : DANode.Moves cfg n op n') : chain.Running n' := by
  refine ⟨?_, fun hk => (hn.traced hk).moves hop hmoves⟩
  cases hmoves with
  | syncer hmoves => exact hn.loaded_of_moves hop hmoves
  | scanned hs => exact hn.toLoaded.congr hs.buffered.store hs.buffered.lastState

/-- A start that succeeds: the process is new, and reads DA from below the blocks it lacks. -/
structure Started (chain : DAChain cfg content) (env : Syncer.StartEnv) (n n' : DANode Tx) : Prop where
  running : chain.Running n'
  part : n'.part = newDARetriever
  fresh : Syncer.Fresh cfg.toSyncerConfig env n.syncer n'.syncer
  below : OnlyDA cfg env n.syncer.store → n'.syncer.store.height < chain.last →
    chain.Below n'.syncer.store.height n'.syncer.daRetrieverHeight

omit [Transaction Tx] in
theorem wp_hooked_start (env : Syncer.StartEnv) (hs : chain.OnDisk n.syncer.store) :
    wp (Hooked.start hooks cfg.toSyncerConfig env) (fun _ => chain.Started env n)
      (fun _ n' => chain.OnDisk n'.syncer.store) (fun n' => chain.OnDisk n'.syncer.store) n := by
  unfold Hooked.start Hooked.modifyPart Hooked.onSyncer
  rw [wp_bind, wp_modify, wp_zoom]
  have hfresh := wp_of_state (D := fun _ => True) (Syncer.start_fresh cfg.toSyncerConfig env n.syncer)
    fun _ _ => trivial
  refine wp_mono (wp_and (wp_start env hs) hfresh) ?_ ?_ ?_
  · rintro _ s' ⟨⟨hloaded, hbelow⟩, hnew⟩
    exact ⟨⟨hloaded, fun _ => PlacedBlock.traced_fresh rfl hnew⟩, rfl, hnew, hbelow⟩
  · exact fun _ _ h => h.1
  · exact fun _ h => h.1

def Holds (chain : DAChain cfg content) (l : Live (DANode Tx)) : Prop :=
  l.Holds chain.Running fun n => chain.OnDisk n.syncer.store

/-- **One step.** -/
theorem Holds.step {l : Live (DANode Tx)} (hl : chain.Holds l) (hop : op.FromDA content) :
    chain.Holds (DANode.step cfg l op) := by
  cases hup : l.up with
  | true =>
    have hrunning := (hl.1 hup).moves hop (DANode.step_moves hup op)
    exact ⟨fun _ => hrunning, fun _ => hrunning.toOnDisk⟩
  | false =>
    have hcall : ∀ {α : Type} (p : Proc (DANode Tx) Err α), chain.Holds (l.call p) := by
      intro α p
      rw [Live.call_down hup]
      exact hl
    cases op with
    | scan env blobs daHeight => exact hcall _
    | syncer op =>
      cases op with
      | start env =>
        refine Live.Holds.boot hl fun hs => wp_mono (wp_hooked_start env hs) ?_ ?_ ?_
        · exact fun _ _ h => h.running
        · exact fun _ _ h => h
        · exact fun _ h => h
      | crash => exact Live.Holds.halt hl fun _ h => h.toOnDisk
      | pipeEvent | processHeight | recoverFromRaft => exact hop.elim
      | _ => exact hcall _

/-- **Every run of a node that reads DA only.** -/
theorem holds_exec (ops : List (DANode.Op Tx)) (hops : ∀ op ∈ ops, op.FromDA content)
    {l : Live (DANode Tx)} (hl : chain.Holds l) : chain.Holds (Run.exec (DANode.step cfg) l ops) :=
  Run.invariant chain.Holds (fun _ _ h hop => h.step hop) ops l hl (Run.meets_of_forall hops _)

end Running

end DAChain

end EvNode
