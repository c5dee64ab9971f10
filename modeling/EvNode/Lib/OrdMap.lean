import Mathlib

/-!
# Ordered key-value stores

A finite map whose entries are listed in increasing key order, as a scan of a key-value store
lists them. The order is part of the type, so a store that is out of order or holds a key twice
cannot be built.
-/

/-- A finite map, its entries in strictly increasing key order. -/
structure OrdMap (κ ν : Type) [LinearOrder κ] where
  entries : List (κ × ν)
  sorted : entries.Pairwise (fun a b => a.1 < b.1)

namespace OrdMap

variable {κ ν : Type} [LinearOrder κ]

@[ext] theorem ext {m m' : OrdMap κ ν} (h : m.entries = m'.entries) : m = m' := by
  cases m
  cases m'
  simp only at h
  subst h
  rfl

instance [DecidableEq ν] : DecidableEq (OrdMap κ ν) := fun m m' =>
  decidable_of_iff (m.entries = m'.entries) ⟨ext, fun h => h ▸ rfl⟩

def empty : OrdMap κ ν := ⟨[], List.Pairwise.nil⟩

instance : Inhabited (OrdMap κ ν) := ⟨empty⟩

def get? (m : OrdMap κ ν) (k : κ) : Option ν :=
  (m.entries.find? fun e => decide (e.1 = k)).map Prod.snd

/-- Put an entry at its place in an ordered list, over the old entry of that key. -/
def insertEntry (k : κ) (v : ν) : List (κ × ν) → List (κ × ν)
  | [] => [(k, v)]
  | e :: l =>
    if k < e.1 then (k, v) :: e :: l
    else if k = e.1 then (k, v) :: l
    else e :: insertEntry k v l

theorem mem_insertEntry {k : κ} {v : ν} {e : κ × ν} :
    ∀ {l : List (κ × ν)}, e ∈ insertEntry k v l → e = (k, v) ∨ e ∈ l
  | [], h => by simpa [insertEntry] using h
  | x :: l, h => by
    unfold insertEntry at h
    split at h
    · simpa using h
    · split at h
      · rcases List.mem_cons.mp h with he | he
        · exact Or.inl he
        · exact Or.inr (List.mem_cons_of_mem _ he)
      · rcases List.mem_cons.mp h with he | he
        · exact Or.inr (he ▸ List.mem_cons_self)
        · rcases mem_insertEntry he with hk | hl
          · exact Or.inl hk
          · exact Or.inr (List.mem_cons_of_mem _ hl)

theorem insertEntry_sorted {k : κ} {v : ν} : ∀ {l : List (κ × ν)},
    l.Pairwise (fun a b => a.1 < b.1) →
      (insertEntry k v l).Pairwise (fun a b => a.1 < b.1)
  | [], _ => List.pairwise_singleton _ _
  | x :: l, h => by
    obtain ⟨hx, hl⟩ := List.pairwise_cons.mp h
    unfold insertEntry
    split
    · next hlt =>
      refine List.pairwise_cons.mpr ⟨fun b hb => ?_, h⟩
      rcases List.mem_cons.mp hb with rfl | hb
      · exact hlt
      · exact lt_trans hlt (hx b hb)
    · next hge =>
      split
      · next heq => exact List.pairwise_cons.mpr ⟨fun b hb => heq ▸ hx b hb, hl⟩
      · next hne =>
        refine List.pairwise_cons.mpr ⟨fun b hb => ?_, insertEntry_sorted hl⟩
        rcases mem_insertEntry hb with rfl | hb
        · exact lt_of_le_of_ne (not_lt.mp hge) (Ne.symm hne)
        · exact hx b hb

def put (m : OrdMap κ ν) (k : κ) (v : ν) : OrdMap κ ν :=
  ⟨insertEntry k v m.entries, insertEntry_sorted m.sorted⟩

def delete (m : OrdMap κ ν) (k : κ) : OrdMap κ ν :=
  ⟨m.entries.filter fun e => decide (e.1 ≠ k), m.sorted.sublist List.filter_sublist⟩

/-! ## Reading back -/

@[simp] theorem get?_empty (k : κ) : (empty : OrdMap κ ν).get? k = none := rfl

theorem mem_entries {m : OrdMap κ ν} {k : κ} {v : ν} :
    (k, v) ∈ m.entries ↔ m.get? k = some v := by
  obtain ⟨l, hl⟩ := m
  induction l with
  | nil => simp [get?]
  | cons e l ih =>
    obtain ⟨he, hs⟩ := List.pairwise_cons.mp hl
    have ih' := ih hs
    simp only [get?] at ih' ⊢
    by_cases hk : e.1 = k
    · have hnone : ∀ w, (k, w) ∉ l := fun w hw => by
        have := he _ hw
        rw [hk] at this
        exact lt_irrefl _ this
      simp only [List.mem_cons, List.find?_cons, hk, decide_true, Option.map_some,
        Option.some.injEq, hnone, or_false]
      constructor
      · intro h; rw [← h]
      · intro h; exact Prod.ext hk.symm h.symm
    · have hne : (k, v) ≠ e := fun h => hk (by rw [← h])
      simp only [List.mem_cons, hne, false_or, List.find?_cons, hk, decide_false]
      exact ih'

@[simp] theorem get?_put_self (m : OrdMap κ ν) (k : κ) (v : ν) : (m.put k v).get? k = some v := by
  rw [← mem_entries]
  show (k, v) ∈ insertEntry k v m.entries
  induction m.entries with
  | nil => simp [insertEntry]
  | cons e l ih =>
    unfold insertEntry
    split
    · simp
    · split
      · simp
      · exact List.mem_cons_of_mem _ ih

theorem get?_put_ne (m : OrdMap κ ν) {k k' : κ} (v : ν) (h : k' ≠ k) :
    (m.put k v).get? k' = m.get? k' := by
  have key : ∀ w, (k', w) ∈ insertEntry k v m.entries ↔ (k', w) ∈ m.entries := by
    intro w
    induction m.entries with
    | nil => simp [insertEntry, h]
    | cons e l ih =>
      unfold insertEntry
      split
      · simp [h]
      · split
        · next heq =>
          have hne : (k', w) ≠ e := fun he => h (by rw [heq, ← he])
          simp [h, hne]
        · simp only [List.mem_cons, ih]
  refine Option.ext fun w => ?_
  exact (mem_entries (m := m.put k v)).symm.trans ((key w).trans mem_entries)

theorem get?_put (m : OrdMap κ ν) (k k' : κ) (v : ν) :
    (m.put k v).get? k' = if k' = k then some v else m.get? k' := by
  split
  · next h => rw [h, get?_put_self]
  · next h => exact get?_put_ne m v h

theorem get?_delete (m : OrdMap κ ν) (k k' : κ) :
    (m.delete k).get? k' = if k' = k then none else m.get? k' := by
  refine Option.ext fun w => ?_
  rw [← mem_entries (m := m.delete k)]
  show (k', w) ∈ m.entries.filter (fun e => decide (e.1 ≠ k)) ↔ _
  rw [List.mem_filter, mem_entries]
  by_cases h : k' = k <;> simp [h]

theorem get?_foldl_delete {α : Type} (f : α → κ) (k : κ) :
    ∀ (l : List α) (m : OrdMap κ ν),
      (l.foldl (fun m i => m.delete (f i)) m).get? k = if k ∈ l.map f then none else m.get? k
  | [], m => by simp
  | i :: l, m => by
    rw [List.foldl_cons, get?_foldl_delete f k l, get?_delete]
    by_cases hk : k = f i <;> by_cases hl : k ∈ l.map f <;> simp [hk, hl]

/-! ## Writing at a known place -/

theorem insertEntry_append {k : κ} {v : ν} (r : List (κ × ν)) : ∀ {l : List (κ × ν)},
    (∀ e ∈ l, e.1 < k) → insertEntry k v (l ++ r) = l ++ insertEntry k v r
  | [], _ => rfl
  | e :: l, h => by
    have hlt := h e List.mem_cons_self
    have hrest := insertEntry_append (v := v) r fun e' he' => h e' (List.mem_cons_of_mem _ he')
    rw [List.cons_append, insertEntry, if_neg (not_lt.mpr (le_of_lt hlt)), if_neg (ne_of_gt hlt), hrest]
    rfl

/-- A key above all others is put at the end. -/
theorem entries_put_last {m : OrdMap κ ν} {k : κ} (v : ν) (h : ∀ e ∈ m.entries, e.1 < k) :
    (m.put k v).entries = m.entries ++ [(k, v)] := by
  have happ := insertEntry_append (v := v) [] h
  rwa [List.append_nil] at happ

/-- A key below all others is put in front. -/
theorem entries_put_first {m : OrdMap κ ν} {k : κ} (v : ν) (h : ∀ e ∈ m.entries, k < e.1) :
    (m.put k v).entries = (k, v) :: m.entries := by
  show insertEntry k v m.entries = _
  cases hm : m.entries with
  | nil => rfl
  | cons e l =>
    have hlt := h e (hm ▸ List.mem_cons_self)
    rw [insertEntry, if_pos hlt]

theorem lt_of_entries {m : OrdMap κ ν} {k : κ} {v : ν} {l r : List (κ × ν)}
    (h : m.entries = l ++ (k, v) :: r) : (∀ e ∈ l, e.1 < k) ∧ ∀ e ∈ r, k < e.1 := by
  have hs := m.sorted
  rw [h, List.pairwise_append] at hs
  obtain ⟨_, hright, hcross⟩ := hs
  exact ⟨fun e he => hcross e he _ List.mem_cons_self, (List.pairwise_cons.mp hright).1⟩

/-- Writing over an entry leaves it at its place. -/
theorem entries_put_over {m : OrdMap κ ν} {k : κ} {v : ν} {l r : List (κ × ν)}
    (h : m.entries = l ++ (k, v) :: r) (v' : ν) : (m.put k v').entries = l ++ (k, v') :: r := by
  show insertEntry k v' m.entries = _
  rw [h, insertEntry_append _ (lt_of_entries h).1, insertEntry, if_neg (lt_irrefl _), if_pos rfl]

theorem put_of_get? {m : OrdMap κ ν} {k : κ} {v : ν} (h : m.get? k = some v) : m.put k v = m := by
  obtain ⟨l, r, hm⟩ := List.append_of_mem (mem_entries.mpr h)
  exact ext ((entries_put_over hm v).trans hm.symm)

theorem entries_delete {m : OrdMap κ ν} {k : κ} {v : ν} {l r : List (κ × ν)}
    (h : m.entries = l ++ (k, v) :: r) : (m.delete k).entries = l ++ r := by
  obtain ⟨hl, hr⟩ := lt_of_entries h
  show m.entries.filter _ = _
  rw [h, List.filter_append, List.filter_cons_of_neg (by simp),
    List.filter_eq_self.mpr fun e he => by simpa using ne_of_lt (hl e he),
    List.filter_eq_self.mpr fun e he => by simpa using ne_of_gt (hr e he)]

/-- Deleting a whole section. -/
theorem entries_foldl_delete {α : Type} (f : α → κ × ν) {l r : List (κ × ν)} :
    ∀ {items : List α} {m : OrdMap κ ν}, m.entries = l ++ (items.map f ++ r) →
      (items.foldl (fun m i => m.delete (f i).1) m).entries = l ++ r
  | [], _, h => h
  | i :: items, m, h => by
    rw [List.foldl_cons]
    exact entries_foldl_delete f (entries_delete (v := (f i).2) h)

end OrdMap
