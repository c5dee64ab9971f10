import EvNode.Properties.StoreIndex
import EvNode.Store.StoreAdapter
import EvNode.Types.Encoding

/-!
# Lookup by hash

The index of the block store is over the digests of the stored bytes, those of the signed header.
Under its digest every stored block is found, and under no other hash (`lookup_by_hash`). The pending
caches are indexed by `Hash()`. So an item is found by its hash as long as it is pending, and
not any more once only the store holds it: `Header.Hash` is over the header without its signature and
`Data.Hash` is over the data (`stored_block_unindexed`).
-/

namespace EvNode

variable {Tx α : Type}

/-! ## The pending cache -/

namespace PendingCache

variable {e : Entity α} {A : α → Prop} {c c' : PendingCache α}

/-- Hashes of items at different heights are different. -/
def DistinctHashes (e : Entity α) (A : α → Prop) : Prop :=
  ∀ x y, A x → A y → e.hash x = e.hash y → e.height x = e.height y

/-- Every item is found under its hash, is held under its height, and is one of `A`. -/
structure Indexed (e : Entity α) (A : α → Prop) (c : PendingCache α) : Prop where
  complete : HashIndex.Complete (fun x : P2PItem α => e.hash x.item) c.items.get? c.byHash
  items : ∀ h x, c.items.get? h = some x → A x.item ∧ e.height x.item = h

theorem indexed_newPendingCache : Indexed e A newPendingCache := by
  constructor
  · intro h x hx
    cases hx
  · intro h x hx
    cases hx

theorem Indexed.congr (hc : Indexed e A c) (hitems : c'.items = c.items)
    (hhash : c'.byHash = c.byHash) : Indexed e A c' := by
  constructor
  · rw [hitems, hhash]
    exact hc.complete
  · rw [hitems]
    exact hc.items

theorem Indexed.removed {R : Nat → Prop} (hc : Indexed e A c)
    (hr : HashIndex.Removed (fun x : P2PItem α => e.hash x.item) R c.items.get? c'.items.get?
      c.byHash c'.byHash) : Indexed e A c' :=
  ⟨hc.complete.removed hr, fun h x hx => hc.items h x (hr.of_some hx).2⟩

theorem Indexed.add (hc : Indexed e A c) (hdistinct : DistinctHashes e A) {x : P2PItem α}
    (hx : A x.item) : Indexed e A (c.add e x) := by
  have hget : (c.add e x).items.get? =
      Function.update c.items.get? (e.height x.item) (some x) := by
    funext h
    rw [Function.update_apply]
    exact OrdMap.get?_put ..
  constructor
  · rw [hget]
    refine hc.complete.put fun h y hy heq => ?_
    obtain ⟨hy', rfl⟩ := hc.items h y hy
    exact hdistinct y.item x.item hy' hx heq
  · intro h y hy
    rw [hget, Function.update_apply] at hy
    split at hy
    · next heq =>
      cases hy
      exact ⟨hx, heq.symm⟩
    · exact hc.items h y hy

theorem Indexed.delete (hc : Indexed e A c) (height : Nat) : Indexed e A (c.delete e height) := by
  unfold PendingCache.delete
  split
  · exact hc.congr rfl rfl
  · next x hx =>
    refine hc.removed (R := fun h => h = height) ⟨?_, ?_, ?_, ?_⟩
    · intro h hh
      exact (OrdMap.get?_delete ..).trans (if_neg hh)
    · intro h hh
      exact (OrdMap.get?_delete ..).trans (if_pos hh)
    · intro k hk
      exact Function.update_of_ne (hk height x rfl hx).symm ..
    · rintro h y rfl hy
      rw [hx] at hy
      cases hy
      exact Function.update_self ..

theorem Indexed.pruneIf (hc : Indexed e A c) (pred : Nat → Bool) :
    Indexed e A (c.pruneIf e pred) := by
  have hmem : ∀ h, h ∈ (c.items.entries.filter fun entry => pred entry.1).map Prod.fst ↔
      pred h = true ∧ (c.items.get? h).isSome := by
    intro h
    simp only [List.mem_map, List.mem_filter]
    constructor
    · rintro ⟨⟨h, x⟩, ⟨hx, hpred⟩, rfl⟩
      exact ⟨hpred, Option.isSome_of_eq_some (OrdMap.mem_entries.mp hx)⟩
    · rintro ⟨hpred, hsome⟩
      obtain ⟨x, hx⟩ := Option.isSome_iff_exists.mp hsome
      exact ⟨(h, x), ⟨OrdMap.mem_entries.mpr hx, hpred⟩, rfl⟩
  have hget : ∀ h, (c.pruneIf e pred).items.get? h =
      if pred h = true ∧ (c.items.get? h).isSome then none else c.items.get? h := by
    intro h
    have hfold := OrdMap.get?_foldl_delete Prod.fst h
      (c.items.entries.filter fun entry => pred entry.1) c.items
    simp only [hmem] at hfold
    exact hfold
  refine hc.removed (R := fun h => pred h = true) ⟨?_, ?_, ?_, ?_⟩
  · intro h hh
    rw [hget, if_neg fun hboth => hh hboth.1]
  · intro h hh
    rw [hget]
    cases hx : c.items.get? h with
    | none => simp
    | some x => simp [hh]
  · intro k hk
    refine (HashIndex.foldl_erase _ k _ c.byHash).trans (if_neg fun hpruned => ?_)
    obtain ⟨⟨h, x⟩, hentry, rfl⟩ := List.mem_map.mp hpruned
    obtain ⟨hentry, hpred⟩ := List.mem_filter.mp hentry
    exact hk h x hpred (OrdMap.mem_entries.mp hentry) rfl
  · intro h x hh hx
    refine (HashIndex.foldl_erase _ _ _ c.byHash).trans (if_pos (List.mem_map.mpr ?_))
    exact ⟨(h, x), List.mem_filter.mpr ⟨OrdMap.mem_entries.mpr hx, hh⟩, rfl⟩

end PendingCache

/-! ## An adapter -/

namespace ItemAdapter

open PendingCache (DistinctHashes)

variable {g : StoreGetter Tx α} {e : Entity α} {blobHash : SignedHeader → Bytes} {A : α → Prop}
variable {s : DefaultStore Tx} {a : ItemAdapter α}

/-- The item a call hands to the adapter. -/
def handed : Op α → Option α
  | .append x => some x.item
  | .init x => some x.item
  | _ => none

theorem item_applyDAHint (x : P2PItem α) : (applyDAHint g e s x a).1.item = x.item := by
  unfold applyDAHint
  dsimp only
  split
  · rfl
  · split
    · split <;> rfl
    · rfl

theorem pending_applyDAHint (x : P2PItem α) :
    (applyDAHint g e s x a).2.pending.items = a.pending.items ∧
      (applyDAHint g e s x a).2.pending.byHash = a.pending.byHash := by
  unfold applyDAHint
  dsimp only
  split
  · exact ⟨rfl, rfl⟩
  · split
    · split <;> exact ⟨rfl, rfl⟩
    · exact ⟨rfl, rfl⟩

theorem indexed_prunePersisted (ha : a.pending.Indexed e A) :
    (prunePersisted e s a).pending.Indexed e A := by
  unfold prunePersisted
  split
  · exact ha
  · dsimp only
    exact ha.pruneIf _

theorem indexed_waitForSpace (ha : a.pending.Indexed e A) :
    (waitForSpace e s a).2.pending.Indexed e A := by
  unfold waitForSpace
  split
  · exact ha
  · exact indexed_prunePersisted ha

theorem indexed_append (ha : a.pending.Indexed e A) (hdistinct : DistinctHashes e A)
    {x : P2PItem α} (hx : A x.item) : (append g e blobHash x s a).2.pending.Indexed e A := by
  unfold append
  dsimp only
  split
  · exact ha
  · have hspace := indexed_waitForSpace (s := s) ha
    split
    · next a' heq =>
      rw [heq] at hspace
      exact hspace
    · next a' heq =>
      rw [heq] at hspace
      exact hspace.add hdistinct hx

theorem indexed_deleteRange (ha : a.pending.Indexed e A) (start stop : Nat) :
    (deleteRange e start stop a).pending.Indexed e A :=
  Run.invariant_all (fun c : PendingCache α => c.Indexed e A)
    (fun _ height hc => hc.delete height) _ _ ha

theorem indexed_step (ha : a.pending.Indexed e A) (hdistinct : DistinctHashes e A) {op : Op α}
    (hop : ∀ x, handed op = some x → A x) :
    (step g e blobHash s a op).2.pending.Indexed e A := by
  cases op with
  | append x => exact indexed_append ha hdistinct (hop x.item rfl)
  | init x =>
    simp only [step, ItemAdapter.init]
    split
    · exact ha
    · exact ha.add hdistinct (hop x.item rfl)
  | get hash =>
    simp only [step, ItemAdapter.get]
    split
    · exact ha.congr (pending_applyDAHint _).1 (pending_applyDAHint _).2
    · exact ha
  | getByHeight height =>
    simp only [step, ItemAdapter.getByHeight]
    split
    · exact ha.congr (pending_applyDAHint _).1 (pending_applyDAHint _).2
    · exact ha
  | deleteRange start stop => exact indexed_deleteRange ha start stop
  | start =>
    simp only [step, startStore]
    split <;> exact ha

theorem store_step (g : StoreGetter Tx α) (e : Entity α) (blobHash : SignedHeader → Bytes)
    (s : DefaultStore Tx) (a : ItemAdapter α) (op : Op α) :
    (step g e blobHash s a op).1.blocks = s.blocks ∧
      (step g e blobHash s a op).1.index = s.index := by
  cases op with
  | append x =>
    simp only [step, append]
    split
    · exact ⟨rfl, rfl⟩
    · split
      · exact ⟨rfl, rfl⟩
      · split <;> exact ⟨rfl, rfl⟩
  | _ => exact ⟨rfl, rfl⟩

/-- A pending item is there, and it is what is found unless the store answers first. -/
theorem found_pending (ha : a.pending.Indexed e A) {h : Nat} {x : P2PItem α}
    (hx : a.pending.items.get? h = some x) :
    has g e s (e.hash x.item) a = true ∧
      (g.getItemByHash (e.hash x.item) s = none →
        (get g e s (e.hash x.item) a).1.map P2PItem.item = some x.item) := by
  have hentry : a.pending.byHash (e.hash x.item) = some h := ha.complete h x hx
  constructor
  · simp [has, PendingCache.hasByHash, hentry]
  · intro hnone
    have hgetter : g.getByHash e (e.hash x.item) s = none := by
      simp [StoreGetter.getByHash, hnone]
    have hpending : a.pending.getByHash (e.hash x.item) = some x := by
      simp [PendingCache.getByHash, hentry, hx]
    simp only [get, hgetter, hpending, Option.orElse_none, Option.map_some, item_applyDAHint]

theorem found_stored {hash : Bytes} {x : α} (hx : g.getItemByHash hash s = some x) :
    has g e s hash a = true ∧ (get g e s hash a).1.map P2PItem.item = some x := by
  have hgetter : g.getByHash e hash s = some (g.hinted (e.height x) x s) := by
    simp [StoreGetter.getByHash, hx]
  constructor
  · simp [has, hgetter]
  · simp only [get, hgetter, Option.orElse_some, Option.map_some, item_applyDAHint]
    rfl

end ItemAdapter

/-! ## Runs -/

namespace P2PStores

open DefaultStore (DistinctDigests IndexSound)
open PendingCache (DistinctHashes)

variable {blobHash : SignedHeader → Bytes} {hs : Hashes Tx}

/-- The header an operation saves. -/
def saved : Op Tx → Option SignedHeader
  | .save header _ _ _ => some header
  | _ => none

/-- The header an operation hands to its adapter. -/
def handedHeader : Op Tx → Option SignedHeader
  | .headers op => ItemAdapter.handed op
  | _ => none

def handedData : Op Tx → Option (Data Tx)
  | .data op => ItemAdapter.handed op
  | _ => none

/-- A height that holds a block is not saved again with another header. -/
def KeepsHeaders (blobHash : SignedHeader → Bytes) (n : P2PStores Tx) : Op Tx → Prop
  | .save header _ _ _ =>
    ∀ b ∈ n.store.blocks.get? header.header.height, blobHash b.header = blobHash header
  | _ => True

instance (n : P2PStores Tx) (op : Op Tx) : Decidable (KeepsHeaders blobHash n op) := by
  cases op <;> dsimp only [KeepsHeaders] <;> infer_instance

/-- The indexes of the store and of the two pending caches. -/
structure Lookups (blobHash : SignedHeader → Bytes) (hs : Hashes Tx) (H A : SignedHeader → Prop)
    (B : Data Tx → Prop) (n : P2PStores Tx) : Prop where
  sound : n.store.IndexSound blobHash
  store : n.store.Indexed blobHash H
  headers : n.headers.pending.Indexed (.header hs) A
  data : n.data.pending.Indexed (.data hs) B

variable {H A : SignedHeader → Prop} {B : Data Tx → Prop} {n : P2PStores Tx}

/-- The height that a save may move is not part of the index. -/
theorem save_eq (blobHash : SignedHeader → Bytes) (header : SignedHeader) (data : Data Tx) (signature : Bytes) (moves : Bool)
    (s : DefaultStore Tx) :
    (save blobHash header data signature moves s).blocks =
        (s.applyOp blobHash (.putBlock header data signature)).blocks ∧
      (save blobHash header data signature moves s).index =
        (s.applyOp blobHash (.putBlock header data signature)).index := by
  unfold save DefaultStore.setHeight
  cases moves
  · exact ⟨rfl, rfl⟩
  · simp only [if_true]
    split <;> exact ⟨rfl, rfl⟩

theorem lookups_start : Lookups blobHash hs H A B (start .empty) :=
  ⟨DefaultStore.indexSound_empty, DefaultStore.indexed_empty,
    PendingCache.indexed_newPendingCache, PendingCache.indexed_newPendingCache⟩

theorem Lookups.step (hn : Lookups blobHash hs H A B n) (hdigests : DistinctDigests blobHash H)
    (hheaders : DistinctHashes (.header hs) A) (hdata : DistinctHashes (.data hs) B) {op : Op Tx}
    (hkeeps : KeepsHeaders blobHash n op) (hsaved : ∀ x, saved op = some x → H x)
    (hheader : ∀ x, handedHeader op = some x → A x) (hitem : ∀ x, handedData op = some x → B x) :
    Lookups blobHash hs H A B (n.step blobHash hs op) := by
  cases op with
  | save header data signature moves =>
    obtain ⟨hblocks, hindex⟩ := save_eq blobHash header data signature moves n.store
    refine ⟨?_, ?_, hn.headers, hn.data⟩
    · exact (hn.sound.putBlock data signature hkeeps).congr hblocks hindex
    · exact (hn.store.putBlock hdigests data signature (hsaved header rfl)).congr hblocks hindex
  | rollback height aggregator =>
    simp only [P2PStores.step]
    split
    · next s hok =>
      have hremoved := (DefaultStore.rollback_ok blobHash hok).removed
      exact ⟨hn.sound.removed hremoved, hn.store.removed hremoved, hn.headers, hn.data⟩
    · exact hn
  | pruneBlocks height =>
    exact ⟨hn.sound.pruneBlocks height, hn.store.pruneBlocks height, hn.headers, hn.data⟩
  | headers op =>
    obtain ⟨hblocks, hindex⟩ := ItemAdapter.store_step .header (.header hs) blobHash n.store
      n.headers op
    exact ⟨hn.sound.congr hblocks hindex, hn.store.congr hblocks hindex,
      ItemAdapter.indexed_step hn.headers hheaders hheader, hn.data⟩
  | data op =>
    obtain ⟨hblocks, hindex⟩ := ItemAdapter.store_step .data (.data hs) blobHash n.store
      n.data op
    exact ⟨hn.sound.congr hblocks hindex, hn.store.congr hblocks hindex, hn.headers,
      ItemAdapter.indexed_step hn.data hdata hitem⟩
  | restart =>
    exact ⟨hn.sound, hn.store, PendingCache.indexed_newPendingCache,
      PendingCache.indexed_newPendingCache⟩

def Unstored (blobHash : SignedHeader → Bytes) (n : P2PStores Tx) (hash : Bytes) : Prop :=
  ∀ h b, n.store.blocks.get? h = some b → blobHash b.header ≠ hash

theorem Lookups.index_none (hn : Lookups blobHash hs H A B n) {hash : Bytes}
    (h : Unstored blobHash n hash) : n.store.index hash = none := by
  rw [Option.eq_none_iff_forall_not_mem]
  intro height hentry
  obtain ⟨b, hb, hhash⟩ := hn.sound hash height hentry
  exact h height b hb hhash

theorem Lookups.getBlockByHash (hn : Lookups blobHash hs H A B n) {h : Nat} {b : Block Tx}
    (hb : n.store.blocks.get? h = some b) :
    n.store.getBlockByHash (blobHash b.header) = some (b.header, b.data) ∧
      n.store.getSignatureByHash (blobHash b.header) = some b.signature := by
  have hentry := hn.store.complete h b hb
  constructor
  · simp [DefaultStore.getBlockByHash, DefaultStore.getHeightByHash, hentry, Store.getBlockData, hb]
  · simp [DefaultStore.getSignatureByHash, DefaultStore.getHeightByHash, hentry,
      DefaultStore.getSignature, hb]

/-- What is found under which hash. -/
structure Found (blobHash : SignedHeader → Bytes) (hs : Hashes Tx) (n : P2PStores Tx) : Prop where
  block : ∀ h b hash, n.store.blocks.get? h = some b → blobHash b.header = hash →
    n.store.getBlockByHash hash = some (b.header, b.data) ∧
      n.store.getSignatureByHash hash = some b.signature
  removed : ∀ hash, Unstored blobHash n hash →
    n.store.getBlockByHash hash = none ∧ n.store.getSignatureByHash hash = none
  header_pending : ∀ h x hash, n.headers.pending.items.get? h = some x →
    hs.headerHash x.item.header = hash →
      n.hasHeader hs hash = true ∧ (Unstored blobHash n hash → n.getHeader hs hash = some x.item)
  header_stored : ∀ h b hash, n.store.blocks.get? h = some b → blobHash b.header = hash →
    n.hasHeader hs hash = true ∧ n.getHeader hs hash = some b.header
  data_pending : ∀ h x hash, n.data.pending.items.get? h = some x → hs.dataHash x.item = hash →
    n.hasData hs hash = true ∧ (Unstored blobHash n hash → n.getData hs hash = some x.item)
  data_stored : ∀ h b hash, n.store.blocks.get? h = some b → blobHash b.header = hash →
    n.hasData hs hash = true ∧ n.getData hs hash = some b.data

theorem Lookups.found (hn : Lookups blobHash hs H A B n) : Found blobHash hs n := by
  have hremoved : ∀ hash, Unstored blobHash n hash →
      n.store.getBlockByHash hash = none ∧ n.store.getSignatureByHash hash = none := by
    intro hash hun
    have hnone := hn.index_none hun
    simp [DefaultStore.getBlockByHash, DefaultStore.getSignatureByHash,
      DefaultStore.getHeightByHash, hnone]
  refine ⟨?_, hremoved, ?_, ?_, ?_, ?_⟩
  · rintro h b _ hb rfl
    exact hn.getBlockByHash hb
  · rintro h x _ hx rfl
    obtain ⟨hhas, hget⟩ := ItemAdapter.found_pending (g := .header) (s := n.store) hn.headers hx
    refine ⟨hhas, fun hun => hget ?_⟩
    exact Option.map_eq_none_iff.mpr (hremoved _ hun).1
  · rintro h b _ hb rfl
    refine ItemAdapter.found_stored (g := .header) ?_
    exact Option.map_eq_some_iff.mpr ⟨_, (hn.getBlockByHash hb).1, rfl⟩
  · rintro h x _ hx rfl
    obtain ⟨hhas, hget⟩ := ItemAdapter.found_pending (g := .data) (s := n.store) hn.data hx
    refine ⟨hhas, fun hun => hget ?_⟩
    exact Option.map_eq_none_iff.mpr (hremoved _ hun).1
  · rintro h b _ hb rfl
    refine ItemAdapter.found_stored (g := .data) ?_
    exact Option.map_eq_some_iff.mpr ⟨_, (hn.getBlockByHash hb).1, rfl⟩

/--
**Lookup by hash.**

After every run of saves, rollbacks, prunes, restarts and calls of the adapters, a stored block is
found under a hash that is the digest of its stored bytes, nothing is found in the store under any
other hash, and an item is found under its own hash while it is pending.
-/
theorem lookup_by_hash (blobHash : SignedHeader → Bytes) (hs : Hashes Tx) (ops : List (Op Tx))
    (hkeeps : Run.Meets (step blobHash hs) (KeepsHeaders blobHash) (start .empty) ops)
    (hdigests : DistinctDigests blobHash fun x => ∃ op ∈ ops, saved op = some x)
    (hheaders : DistinctHashes (.header hs) fun x => ∃ op ∈ ops, handedHeader op = some x)
    (hdata : DistinctHashes (.data hs) fun x => ∃ op ∈ ops, handedData op = some x) :
    Found blobHash hs (Run.exec (step blobHash hs) (start .empty) ops) := by
  have hcond := hkeeps.and (Run.meets_of_forall (fun op (hop : op ∈ ops) => hop) _)
  refine Lookups.found (Run.invariant (Lookups blobHash hs (fun x => ∃ op ∈ ops, saved op = some x)
    (fun x => ∃ op ∈ ops, handedHeader op = some x) (fun x => ∃ op ∈ ops, handedData op = some x))
    ?_ ops (start .empty) lookups_start hcond)
  rintro n op hn ⟨hkeep, hmem⟩
  exact hn.step hdigests hheaders hdata hkeep (fun x hx => ⟨op, hmem, hx⟩)
    (fun x hx => ⟨op, hmem, hx⟩) (fun x hx => ⟨op, hmem, hx⟩)

namespace LookupRun

/-- A digest by height, and another one for the headers without their signature. -/
def digest (sh : SignedHeader) : Bytes := [1, UInt8.ofNat sh.header.height]

def hashes : Hashes RawTx where
  headerHash header := [2, UInt8.ofNat header.height]
  dataHash data := [3, UInt8.ofNat data.height]
  daCommitment _ := []
  dataHashForEmptyTxs := []

def header (height : Nat) : SignedHeader :=
  ⟨⟨height, 0, "chain", ⟨0, 0⟩, [], [], [], [], [7]⟩, [1], [], [7]⟩

def data (height : Nat) : Data RawTx := ⟨"chain", height, 0, [], []⟩

/-- Two blocks come over P2P, one of them is stored. -/
def received : List (Op RawTx) :=
  [.headers (.append ⟨header 1, 0⟩), .headers (.append ⟨header 2, 0⟩), .data (.append ⟨data 1, 0⟩),
    .save (header 1) (data 1) [1] true]

theorem saved_received (x : SignedHeader) (hx : ∃ op ∈ received, saved op = some x) :
    x = header 1 := by
  obtain ⟨op, hop, heq⟩ := hx
  simp only [received, List.mem_cons, List.not_mem_nil, or_false] at hop
  rcases hop with rfl | rfl | rfl | rfl <;> cases heq
  rfl

theorem handedHeader_received (x : SignedHeader)
    (hx : ∃ op ∈ received, handedHeader op = some x) : x = header 1 ∨ x = header 2 := by
  obtain ⟨op, hop, heq⟩ := hx
  simp only [received, List.mem_cons, List.not_mem_nil, or_false] at hop
  rcases hop with rfl | rfl | rfl | rfl <;> cases heq
  · exact .inl rfl
  · exact .inr rfl

theorem handedData_received (x : Data RawTx) (hx : ∃ op ∈ received, handedData op = some x) :
    x = data 1 := by
  obtain ⟨op, hop, heq⟩ := hx
  simp only [received, List.mem_cons, List.not_mem_nil, or_false] at hop
  rcases hop with rfl | rfl | rfl | rfl <;> cases heq
  rfl

end LookupRun

open LookupRun in
theorem lookup_by_hash_received :
    (Run.exec (step digest hashes) (start .empty) received).store.height = 1 ∧
      Found digest hashes (Run.exec (step digest hashes) (start .empty) received) := by
  refine ⟨by decide +kernel, lookup_by_hash digest hashes received (by decide +kernel) ?_ ?_ ?_⟩
  · intro x y hx hy _
    rw [saved_received x hx, saved_received y hy]
  · intro x y hx hy heq
    rcases handedHeader_received x hx with rfl | rfl <;>
      rcases handedHeader_received y hy with rfl | rfl <;> revert heq <;> decide
  · intro x y hx hy _
    rw [handedData_received x hx, handedData_received y hy]

namespace LookupRun

/-- The digests of the source: over the signed header for the index, over the header for
`Header.Hash`, and over the data with the leaf prefix for `Data.Hash`. -/
def signedDigest (sha256 : Bytes → Bytes) (marshalHeader : Header → Bytes) (sh : SignedHeader) :
    Bytes := sha256 (sh.marshalBinary marshalHeader)

def plainHashes (sha256 : Bytes → Bytes) (marshalHeader : Header → Bytes)
    (marshalData : Data RawTx → Bytes) : Hashes RawTx where
  headerHash header := sha256 (marshalHeader header)
  dataHash data := sha256 (0 :: marshalData data)
  daCommitment _ := []
  dataHashForEmptyTxs := []

/-- A block comes over P2P and is stored, and the process starts again. -/
def persisted (header : SignedHeader) (data : Data RawTx) (signature : Bytes) : List (Op RawTx) :=
  [.headers (.append ⟨header, 0⟩), .data (.append ⟨data, 0⟩), .save header data signature true,
    .restart]

/-- A digest that tells signatures apart. -/
def bySignature (sh : SignedHeader) : Bytes := sh.signature

/-- One height is saved with two headers. -/
def resaved : List (Op RawTx) :=
  [.save { header 1 with signature := [1] } (data 1) [1] true,
    .save { header 1 with signature := [2] } (data 1) [2] true]

end LookupRun

open LookupRun in
/-- With a hash function without collisions no stored block is found under its `Hash()`, by the store
or by the adapters. And a header that was replaced still leads to the block at its height. -/
theorem stored_block_unindexed :
    (∀ (sha256 : Bytes → Bytes) (marshalHeader : Header → Bytes)
      (marshalData : Data RawTx → Bytes) (header : SignedHeader) (data : Data RawTx)
      (signature : Bytes) (n : P2PStores RawTx), Function.Injective sha256 →
      n = Run.exec (step (signedDigest sha256 marshalHeader)
        (plainHashes sha256 marshalHeader marshalData)) (start .empty)
        (persisted header data signature) →
      n.store.blocks.get? header.header.height = some ⟨header, data, signature⟩ ∧
      n.store.getBlockByHash (sha256 (marshalHeader header.header)) = none ∧
      n.store.getSignatureByHash (sha256 (marshalHeader header.header)) = none ∧
      n.hasHeader (plainHashes sha256 marshalHeader marshalData)
        (sha256 (marshalHeader header.header)) = false ∧
      n.hasData (plainHashes sha256 marshalHeader marshalData) (sha256 (0 :: marshalData data)) =
        false) ∧
    ((Run.exec (step bySignature hashes) (start .empty) resaved).store.getBlockByHash [1]).map
      (fun b => b.1.signature) = some [2] := by
  refine ⟨?_, by decide +kernel⟩
  intro sha256 marshalHeader marshalData header data signature n hinj hn
  have hstart : n = start
      (save (signedDigest sha256 marshalHeader) header data signature true .empty) := hn
  subst hstart
  clear hn
  obtain ⟨hblocks, hindex⟩ := save_eq (signedDigest sha256 marshalHeader) header data signature true
    (.empty : DefaultStore RawTx)
  -- the store knows one digest only
  have hnone : ∀ bytes, bytes ≠ header.marshalBinary marshalHeader →
      (save (signedDigest sha256 marshalHeader) header data signature true
        (.empty : DefaultStore RawTx)).index (sha256 bytes) = none := by
    intro bytes hne
    rw [hindex]
    exact Function.update_of_ne (fun heq => hne (hinj heq)) ..
  have hheader : marshalHeader header.header ≠ header.marshalBinary marshalHeader := by
    intro heq
    have hlt := header.length_lt_marshalBinary marshalHeader
    rw [← heq] at hlt
    exact lt_irrefl _ hlt
  have hdata : 0 :: marshalData data ≠ header.marshalBinary marshalHeader := by
    intro heq
    have hhead := header.head_marshalBinary marshalHeader
    rw [← heq] at hhead
    simp at hhead
  refine ⟨?_, ?_, ?_, ?_, ?_⟩
  · show (save (signedDigest sha256 marshalHeader) header data signature true
      (.empty : DefaultStore RawTx)).blocks.get? header.header.height = _
    rw [hblocks]
    exact OrdMap.get?_put_self ..
  · simp [start, DefaultStore.getBlockByHash, DefaultStore.getHeightByHash, hnone _ hheader]
  · simp [start, DefaultStore.getSignatureByHash, DefaultStore.getHeightByHash, hnone _ hheader]
  · simp [hasHeader, start, ItemAdapter.has, ItemAdapter.newStoreAdapter,
      PendingCache.newPendingCache, PendingCache.hasByHash, StoreGetter.getByHash,
      StoreGetter.header, DefaultStore.getBlockByHash, DefaultStore.getHeightByHash,
      hnone _ hheader]
  · simp [hasData, start, ItemAdapter.has, ItemAdapter.newStoreAdapter,
      PendingCache.newPendingCache, PendingCache.hasByHash, StoreGetter.getByHash,
      StoreGetter.data, DefaultStore.getBlockByHash, DefaultStore.getHeightByHash, hnone _ hdata]

end P2PStores

end EvNode
