import EvNode.Store.DefaultStore

/-!
# The store adapters of the P2P services

`pkg/store/store_adapter.go` and `types/p2p_envelope.go`. An adapter answers from the block store
first and from its pending cache second. The pending cache holds what came over P2P until the block
is stored. Blocking in `GetByHeight` and the waiters of `heightSub` are left out; a call that waits for space
is one that happens later.
-/

namespace EvNode

variable {Tx α : Type}

/-- `P2PSignedHeader` and `P2PData`: an item with the DA height its sender knows, 0 for none. -/
structure P2PItem (α : Type) where
  item : α
  daHeightHint : Nat
  deriving DecidableEq, Repr

/-- What the adapters ask of an item. -/
structure Entity (α : Type) where
  height : α → Nat
  hash : α → Bytes

def Entity.header (hs : Hashes Tx) : Entity SignedHeader :=
  ⟨fun sh => sh.header.height, fun sh => hs.headerHash sh.header⟩

def Entity.data (hs : Hashes Tx) : Entity (Data Tx) := ⟨Data.height, hs.dataHash⟩

/-! ## The pending cache -/

structure PendingCache (α : Type) where
  items : OrdMap Nat (P2PItem α)
  byHash : Bytes → Option Nat
  daHints : OrdMap Nat Nat
  maxHeight : Nat

namespace PendingCache

def newPendingCache : PendingCache α := ⟨.empty, fun _ => none, .empty, 0⟩

def get (height : Nat) (c : PendingCache α) : Option (P2PItem α) := c.items.get? height

def getByHash (hash : Bytes) (c : PendingCache α) : Option (P2PItem α) :=
  (c.byHash hash).bind c.items.get?

def has (height : Nat) (c : PendingCache α) : Bool := (c.items.get? height).isSome

def hasByHash (hash : Bytes) (c : PendingCache α) : Bool := (c.byHash hash).isSome

def getDAHint (height : Nat) (c : PendingCache α) : Option Nat := c.daHints.get? height

def setDAHint (height hint : Nat) (c : PendingCache α) : PendingCache α :=
  { c with daHints := c.daHints.put height hint }

/-- `recalcMaxHeight`. -/
def maxHeightOf (items : OrdMap Nat (P2PItem α)) : Nat :=
  items.entries.foldl (fun m e => max m e.1) 0

section
variable (e : Entity α)

def add (item : P2PItem α) (c : PendingCache α) : PendingCache α :=
  let height := e.height item.item
  { items := c.items.put height item
    byHash := Function.update c.byHash (e.hash item.item) (some height)
    daHints := if 0 < item.daHeightHint then c.daHints.put height item.daHeightHint else c.daHints
    maxHeight := max c.maxHeight height }

def delete (height : Nat) (c : PendingCache α) : PendingCache α :=
  match c.items.get? height with
  | none => { c with daHints := c.daHints.delete height }
  | some item =>
    let items := c.items.delete height
    { items := items
      byHash := Function.update c.byHash (e.hash item.item) none
      daHints := c.daHints.delete height
      maxHeight := if height = c.maxHeight then maxHeightOf items else c.maxHeight }

/-- The items that `pred` holds of go, each with its hash; the maximum is computed once at the
end. -/
def pruneIf (pred : Nat → Bool) (c : PendingCache α) : PendingCache α :=
  let pruned := c.items.entries.filter fun entry => pred entry.1
  let items := pruned.foldl (fun m entry => m.delete entry.1) c.items
  { items := items
    byHash := pruned.foldl (fun m entry => Function.update m (e.hash entry.2.item) none) c.byHash
    daHints := pruned.foldl (fun m entry => m.delete entry.1) c.daHints
    maxHeight :=
      if pruned.any fun entry => entry.1 = c.maxHeight then maxHeightOf items else c.maxHeight }

end

end PendingCache

/-! ## Getters -/

/-- `StoreGetter`. The height of the store is the same for both kinds. -/
structure StoreGetter (Tx α : Type) where
  getItem : Nat → DefaultStore Tx → Option α
  getItemByHash : Bytes → DefaultStore Tx → Option α
  /-- The key of the DA hints. -/
  hintKey : Nat → Bytes

namespace StoreGetter

variable (g : StoreGetter Tx α)

def getDAHint (height : Nat) (s : DefaultStore Tx) : Option Nat :=
  match s.getMetadata (g.hintKey height) with
  | some (.height daHint) => some daHint
  | _ => none

/-- An item with the hint that is stored for it. -/
def hinted (height : Nat) (item : α) (s : DefaultStore Tx) : P2PItem α :=
  ⟨item, (g.getDAHint height s).getD 0⟩

def getByHeight (height : Nat) (s : DefaultStore Tx) : Option (P2PItem α) :=
  (g.getItem height s).map fun item => g.hinted height item s

def getByHash (e : Entity α) (hash : Bytes) (s : DefaultStore Tx) : Option (P2PItem α) :=
  (g.getItemByHash hash s).map fun item => g.hinted (e.height item) item s

def hasAt (height : Nat) (s : DefaultStore Tx) : Bool := (g.getItem height s).isSome

def setDAHint (blobHash : SignedHeader → Bytes) (height daHint : Nat) (s : DefaultStore Tx) :
    DefaultStore Tx := s.setMetadata blobHash (g.hintKey height) (.height daHint)

/-- `HeaderStoreGetter`. -/
def header : StoreGetter Tx SignedHeader where
  getItem height s := s.getHeader height
  getItemByHash hash s := (s.getBlockByHash hash).map Prod.fst
  hintKey := heightToDAHeightHeaderKey

/-- `DataStoreGetter`. -/
def data : StoreGetter Tx (Data Tx) where
  getItem height s := (s.getBlockData height).map Prod.snd
  getItemByHash hash s := (s.getBlockByHash hash).map Prod.snd
  hintKey := heightToDAHeightDataKey

end StoreGetter

/-! ## Adapters -/

/-- `StoreAdapter`, over a store that is passed along. -/
structure ItemAdapter (α : Type) where
  pending : PendingCache α
  heightSub : Nat
  initialized : Bool

namespace ItemAdapter

/-- `maxPendingCacheSize` -/
def maxPendingCacheSize : Nat := 10000

def newStoreAdapter (s : DefaultStore Tx) : ItemAdapter α :=
  ⟨.newPendingCache, s.height, decide (0 < s.height)⟩

section
variable (g : StoreGetter Tx α) (e : Entity α)

/-- The hint of the pending cache comes first, then the stored one, which is kept in memory. -/
def applyDAHint (s : DefaultStore Tx) (item : P2PItem α) (a : ItemAdapter α) :
    P2PItem α × ItemAdapter α :=
  let height := e.height item.item
  match a.pending.getDAHint height with
  | some hint => (⟨item.item, hint⟩, a)
  | none =>
    match g.getDAHint height s with
    | some diskHint =>
      if 0 < diskHint then
        (⟨item.item, diskHint⟩, { a with pending := a.pending.setDAHint height diskHint })
      else (item, a)
    | none => (item, a)

/-- `Get`. -/
def get (s : DefaultStore Tx) (hash : Bytes) (a : ItemAdapter α) :
    Option (P2PItem α) × ItemAdapter α :=
  match (g.getByHash e hash s).orElse fun _ => a.pending.getByHash hash with
  | some item =>
    let (item, a) := applyDAHint g e s item a
    (some item, a)
  | none => (none, a)

/-- `getByHeightNoWait`. -/
def getByHeight (s : DefaultStore Tx) (height : Nat) (a : ItemAdapter α) :
    Option (P2PItem α) × ItemAdapter α :=
  match (g.getByHeight height s).orElse fun _ => a.pending.get height with
  | some item =>
    let (item, a) := applyDAHint g e s item a
    (some item, a)
  | none => (none, a)

def has (s : DefaultStore Tx) (hash : Bytes) (a : ItemAdapter α) : Bool :=
  (g.getByHash e hash s).isSome || a.pending.hasByHash hash

def hasAt (s : DefaultStore Tx) (height : Nat) (a : ItemAdapter α) : Bool :=
  g.hasAt height s || a.pending.has height

/-- Items at or below the store height are taken for persisted. -/
def prunePersisted (s : DefaultStore Tx) (a : ItemAdapter α) : ItemAdapter α :=
  if s.height = 0 then a
  else { a with pending := a.pending.pruneIf e fun height => decide (height ≤ s.height) }

/-- `waitForSpace`, without the waiting: a full cache is pruned once, and the call fails if it stays
full. -/
def waitForSpace (s : DefaultStore Tx) (a : ItemAdapter α) : Bool × ItemAdapter α :=
  if a.pending.items.entries.length < maxPendingCacheSize then (true, a)
  else
    let a := prunePersisted e s a
    (decide (a.pending.items.entries.length < maxPendingCacheSize), a)

variable (blobHash : SignedHeader → Bytes)

/-- `Append` of one item. The hint goes to the store. -/
def append (item : P2PItem α) (s : DefaultStore Tx) (a : ItemAdapter α) :
    DefaultStore Tx × ItemAdapter α :=
  let height := e.height item.item
  if g.hasAt height s then (s, a)
  else
    match waitForSpace e s a with
    | (false, a) => (s, a)
    | (true, a) =>
      (if 0 < item.daHeightHint then g.setDAHint blobHash height item.daHeightHint s else s,
        { a with
          pending := a.pending.add e item
          heightSub := max a.heightSub height })

/-- `Init`. -/
def init (item : P2PItem α) (a : ItemAdapter α) : ItemAdapter α :=
  if a.initialized then a
  else
    { pending := a.pending.add e item
      heightSub := e.height item.item
      initialized := true }

/-- `DeleteRange`, of the heights from `start` up to but without `stop`. -/
def deleteRange (start stop : Nat) (a : ItemAdapter α) : ItemAdapter α :=
  { a with
    pending := (List.range' start (stop - start)).foldl (fun c height => c.delete e height) a.pending
    -- `from - 1` of `uint64`
    heightSub :=
      if start ≤ a.heightSub then (if start = 0 then 2 ^ 64 - 1 else start - 1) else a.heightSub }

/-- `Start`: the height is read from the store again. -/
def startStore (s : DefaultStore Tx) (a : ItemAdapter α) : ItemAdapter α :=
  if 0 < s.height then { a with heightSub := s.height, initialized := true } else a

/-- The calls an adapter gets. -/
inductive Op (α : Type) where
  | append (item : P2PItem α)
  | init (item : P2PItem α)
  | get (hash : Bytes)
  | getByHeight (height : Nat)
  | deleteRange (start stop : Nat)
  | start

def step (s : DefaultStore Tx) (a : ItemAdapter α) : Op α → DefaultStore Tx × ItemAdapter α
  | .append item => append g e blobHash item s a
  | .init item => (s, init e item a)
  | .get hash => (s, (get g e s hash a).2)
  | .getByHeight height => (s, (getByHeight g e s height a).2)
  | .deleteRange start stop => (s, deleteRange e start stop a)
  | .start => (s, startStore s a)

end

end ItemAdapter

/-! ## The block store with both adapters -/

structure P2PStores (Tx : Type) where
  store : DefaultStore Tx
  headers : ItemAdapter SignedHeader
  data : ItemAdapter (Data Tx)

namespace P2PStores

def start (s : DefaultStore Tx) : P2PStores Tx := ⟨s, .newStoreAdapter s, .newStoreAdapter s⟩

/-- A block is saved, with or without moving the height of the store, removed by a rollback or a
prune, an adapter is called, or the process starts again. -/
inductive Op (Tx : Type) where
  | save (header : SignedHeader) (data : Data Tx) (signature : Bytes) (moves : Bool)
  | rollback (height : Nat) (aggregator : Bool)
  | pruneBlocks (height : Nat)
  | headers (op : ItemAdapter.Op SignedHeader)
  | data (op : ItemAdapter.Op (Data Tx))
  | restart

section
variable (blobHash : SignedHeader → Bytes) (hs : Hashes Tx)

/-- The batch with `SaveBlockData`. -/
def save (header : SignedHeader) (data : Data Tx) (signature : Bytes) (moves : Bool)
    (s : DefaultStore Tx) : DefaultStore Tx :=
  s.commit blobHash (.putBlock header data signature ::
    if moves then s.setHeight header.header.height else [])

def step (n : P2PStores Tx) : Op Tx → P2PStores Tx
  | .save header data signature moves =>
    { n with store := save blobHash header data signature moves n.store }
  | .rollback height aggregator =>
    match n.store.rollback blobHash height aggregator with
    | .ok s => { n with store := s }
    | .error _ => n
  | .pruneBlocks height => { n with store := n.store.pruneBlocks blobHash height }
  | .headers op =>
    let (s, a) := ItemAdapter.step .header (.header hs) blobHash n.store n.headers op
    { n with store := s, headers := a }
  | .data op =>
    let (s, a) := ItemAdapter.step .data (.data hs) blobHash n.store n.data op
    { n with store := s, data := a }
  | .restart => start n.store

/-- `Get` and `Has` of the two adapters. -/
def getHeader (n : P2PStores Tx) (hash : Bytes) : Option SignedHeader :=
  (ItemAdapter.get .header (.header hs) n.store hash n.headers).1.map P2PItem.item

def hasHeader (n : P2PStores Tx) (hash : Bytes) : Bool :=
  ItemAdapter.has .header (.header hs) n.store hash n.headers

def getData (n : P2PStores Tx) (hash : Bytes) : Option (Data Tx) :=
  (ItemAdapter.get .data (.data hs) n.store hash n.data).1.map P2PItem.item

def hasData (n : P2PStores Tx) (hash : Bytes) : Bool :=
  ItemAdapter.has .data (.data hs) n.store hash n.data

end

end P2PStores

end EvNode
