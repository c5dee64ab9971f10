import EvNode.Properties.LookupByHash

/-!
# The items of the pending cache

`add` puts the new hash of a height beside the old one. As long as no height gets a second item of
another hash, the index has exactly the hashes of the items held (`pending_items_exact`); the hash of
an item that was replaced stays, and leads to the new item (`replaced_item_indexed`).
-/

namespace EvNode.PendingCache

variable {α : Type} {e : Entity α} {c : PendingCache α}

inductive Op (α : Type) where
  | add (item : P2PItem α)
  | delete (height : Nat)
  | pruneIf (pred : Nat → Bool)

def step (e : Entity α) (c : PendingCache α) : Op α → PendingCache α
  | .add item => c.add e item
  | .delete height => c.delete e height
  | .pruneIf pred => c.pruneIf e pred

/-- An added item and one that is held have the same hash exactly if they have the same height. -/
def Agrees (e : Entity α) (c : PendingCache α) : Op α → Prop
  | .add item => ∀ h x, c.items.get? h = some x →
      (h = e.height item.item ↔ e.hash x.item = e.hash item.item)
  | _ => True

structure Exact (e : Entity α) (c : PendingCache α) : Prop where
  index : ∀ hash h, c.byHash hash = some h ↔ ∃ x, c.items.get? h = some x ∧ e.hash x.item = hash
  hints : ∀ h, c.items.get? h = none → c.daHints.get? h = none
  le_max : ∀ h x, c.items.get? h = some x → h ≤ c.maxHeight
  max_held : c.maxHeight = 0 ∨ (c.items.get? c.maxHeight).isSome

theorem foldl_max (l : List (Nat × P2PItem α)) (m : Nat) :
    (∀ x ∈ l, x.1 ≤ l.foldl (fun m x => max m x.1) m) ∧ m ≤ l.foldl (fun m x => max m x.1) m ∧
      (l.foldl (fun m x => max m x.1) m = m ∨
        ∃ x ∈ l, x.1 = l.foldl (fun m x => max m x.1) m) := by
  induction l generalizing m with
  | nil => simp
  | cons y l ih =>
    obtain ⟨hall, hle, hfrom⟩ := ih (max m y.1)
    simp only [List.foldl_cons, List.forall_mem_cons, List.exists_mem_cons_iff]
    refine ⟨⟨by omega, hall⟩, by omega, ?_⟩
    rcases hfrom with heq | hmem
    · omega
    · exact .inr (.inr hmem)

theorem maxHeightOf_spec (items : OrdMap Nat (P2PItem α)) :
    (∀ h x, items.get? h = some x → h ≤ maxHeightOf items) ∧
      (maxHeightOf items = 0 ∨ (items.get? (maxHeightOf items)).isSome) := by
  obtain ⟨hall, _, hfrom⟩ := foldl_max items.entries 0
  refine ⟨fun h x hx => hall (h, x) (OrdMap.mem_entries.mpr hx), hfrom.imp_right ?_⟩
  rintro ⟨x, hmem, heq⟩
  unfold maxHeightOf
  rw [← heq, OrdMap.mem_entries.mp hmem]
  rfl

theorem exact_newPendingCache : Exact e newPendingCache :=
  ⟨by simp [newPendingCache], fun _ _ => rfl, nofun, .inl rfl⟩

theorem Exact.add (hc : Exact e c) {item : P2PItem α} (hagrees : Agrees e c (.add item)) :
    Exact e (c.add e item) := by
  obtain ⟨hindex, hhints, hle, hheld⟩ := hc
  simp only [Agrees] at hagrees
  constructor
  · intro hash h
    simp only [PendingCache.add, OrdMap.get?_put, Function.update_apply]
    grind
  · intro h
    simp only [PendingCache.add, OrdMap.get?_put]
    grind [OrdMap.get?_put]
  · intro h x
    simp only [PendingCache.add, OrdMap.get?_put]
    grind
  · simp only [PendingCache.add, OrdMap.get?_put]
    grind

theorem Exact.delete (hc : Exact e c) (height : Nat) : Exact e (c.delete e height) := by
  have hmax := maxHeightOf_spec (c.items.delete height)
  obtain ⟨hindex, hhints, hle, hheld⟩ := hc
  unfold PendingCache.delete
  split
  · exact ⟨hindex, by grind [OrdMap.get?_delete], hle, hheld⟩
  · next item hitem =>
    have hself := (hindex _ height).mpr ⟨item, hitem, rfl⟩
    constructor <;> simp only [OrdMap.get?_delete, Function.update_apply] at hmax ⊢ <;> grind

theorem Exact.pruneIf (hc : Exact e c) (pred : Nat → Bool) : Exact e (c.pruneIf e pred) := by
  obtain ⟨hindex, hhints, hle, hheld⟩ := hc
  unfold PendingCache.pruneIf
  dsimp only
  generalize hpruned : c.items.entries.filter (fun entry => pred entry.1) = pruned
  have hmem : ∀ x, x ∈ pruned ↔ c.items.get? x.1 = some x.2 ∧ pred x.1 = true := by
    intro x
    rw [← hpruned, List.mem_filter, OrdMap.mem_entries]
  have hkeys : ∀ h, h ∈ pruned.map Prod.fst ↔ (c.items.get? h).isSome = true ∧ pred h = true := by
    intro h
    simp [hmem, Option.isSome_iff_exists]
  have hitems := fun h => OrdMap.get?_foldl_delete Prod.fst h pruned c.items
  have hhint := fun h => OrdMap.get?_foldl_delete Prod.fst h pruned c.daHints
  have hhash := fun hash => HashIndex.foldl_erase (fun entry : Nat × P2PItem α => e.hash entry.2.item)
    hash pruned c.byHash
  have hmax := maxHeightOf_spec (pruned.foldl (fun m entry => m.delete entry.1) c.items)
  simp only [hkeys] at hitems hhint
  constructor
  · intro hash h
    have hin : hash ∈ pruned.map (fun entry => e.hash entry.2.item) ↔
        ∃ k, c.byHash hash = some k ∧ pred k = true := by
      simp only [List.mem_map, hmem, hindex, Prod.exists]
      grind
    dsimp only
    rw [hitems, hhash]
    clear hmax hhint hhash hitems
    grind
  · grind
  · grind
  · grind

theorem exact_step (c : PendingCache α) (op : Op α) (hc : Exact e c) (hop : Agrees e c op) :
    Exact e (step e c op) := by
  cases op with
  | add item => exact hc.add hop
  | delete height => exact hc.delete height
  | pruneIf pred => exact hc.pruneIf pred

/--
**The pending cache is consistent**, if no height gets a second item of another hash.

The index has exactly the hashes of the items held, with their heights; `getByHash` returns an item of
that hash and `hasByHash` holds exactly for the hashes of held items; a height without an item has no
hint; and `maxHeight` is the largest height held.
-/
theorem pending_items_exact (e : Entity α) (ops : List (Op α))
    (hmeets : Run.Meets (step e) (Agrees e) newPendingCache ops) :
    let c := Run.exec (step e) newPendingCache ops;
    (∀ hash h, c.byHash hash = some h ↔ ∃ x, c.get h = some x ∧ e.hash x.item = hash) ∧
      (∀ hash x, c.getByHash hash = some x → e.hash x.item = hash) ∧
      (∀ hash, c.hasByHash hash = true ↔ ∃ h x, c.get h = some x ∧ e.hash x.item = hash) ∧
      (∀ h, c.get h = none → c.getDAHint h = none) ∧
      (∀ h x, c.get h = some x → h ≤ c.maxHeight) ∧
      (c.maxHeight = 0 ∨ ∃ x, c.get c.maxHeight = some x) := by
  intro c
  have hc : Exact e c :=
    Run.invariant (Exact e) (fun c op => exact_step c op) ops _ exact_newPendingCache hmeets
  refine ⟨hc.index, fun hash x hx => ?_, fun hash => ?_, hc.hints, hc.le_max, ?_⟩
  · obtain ⟨h, hentry, hitem⟩ := Option.bind_eq_some_iff.mp hx
    obtain ⟨y, hy, hhash⟩ := (hc.index hash h).mp hentry
    rw [Option.some.inj (hitem.symm.trans hy)]
    exact hhash
  · simp only [hasByHash, Option.isSome_iff_exists, hc.index]
    rfl
  · exact hc.max_held.imp_right Option.isSome_iff_exists.mp

namespace Items

/-- Items with their heights and hashes. -/
def entity : Entity (Nat × Bytes) := ⟨Prod.fst, Prod.snd⟩

def item (height : Nat) (hash : Bytes) (hint : Nat) : P2PItem (Nat × Bytes) := ⟨(height, hash), hint⟩

def ops : List (Op (Nat × Bytes)) :=
  [.add (item 1 [1] 5), .add (item 2 [2] 0), .add (item 1 [1] 0), .delete 2,
    .pruneIf fun h => decide (h ≤ 1), .add (item 1 [3] 0)]

end Items

open Items in
theorem pending_items_exact_pruned :
    let c := Run.exec (step entity) newPendingCache ops;
    c.maxHeight = 1 ∧ c.hasByHash [1] = false ∧
      ∀ hash h, c.byHash hash = some h ↔ ∃ x, c.get h = some x ∧ entity.hash x.item = hash := by
  have hmeets : Run.Meets (step entity) (Agrees entity) newPendingCache ops := by
    refine ⟨nofun, fun h x hx => ?_, fun h x hx => ?_, trivial, trivial, nofun, trivial⟩ <;>
      simp [step, PendingCache.add, newPendingCache, OrdMap.get?_put, item, entity] at hx ⊢ <;>
      grind
  exact ⟨by decide, by decide, (pending_items_exact entity ops hmeets).1⟩

open Items in
/-- A second item of height 1 leaves the hash of the first in the index, which then leads to the
second. -/
theorem replaced_item_indexed :
    let c := Run.exec (step entity) newPendingCache [.add (item 1 [1] 0), .add (item 1 [2] 0)];
    c.hasByHash [1] = true ∧ c.getByHash [1] = some (item 1 [2] 0) ∧
      ∀ h x, c.get h = some x → entity.hash x.item ≠ [1] := by
  refine ⟨by decide, by decide, fun h x hx => ?_⟩
  simp [step, PendingCache.add, PendingCache.get, newPendingCache, OrdMap.get?_put, item, entity] at hx ⊢
  grind

end EvNode.PendingCache
