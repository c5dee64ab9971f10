import Mathlib

/-!
# Indexes by hash

Items are kept under their own keys, and an index leads from the hash of an item to its key. Every
entry of the index leads to an item with that hash (`Sound`), and every item has its entry
(`Complete`). Both survive the removal of items together with their entries, and so does putting an
item, if the hash is not that of an item elsewhere.
-/

namespace HashIndex

variable {κ ι β : Type*} (hash : β → κ)

/-- An entry leads to an item with that hash. -/
def Sound (items : ι → Option β) (index : κ → Option ι) : Prop :=
  ∀ k i, index k = some i → ∃ b, items i = some b ∧ hash b = k

/-- An item is found under its hash. -/
def Complete (items : ι → Option β) (index : κ → Option ι) : Prop :=
  ∀ i b, items i = some b → index (hash b) = some i

/-- The items under the keys `R` are removed, each with its entry. -/
structure Removed (R : ι → Prop) (items items' : ι → Option β) (index index' : κ → Option ι) :
    Prop where
  kept : ∀ i, ¬R i → items' i = items i
  gone : ∀ i, R i → items' i = none
  index_kept : ∀ k, (∀ i b, R i → items i = some b → hash b ≠ k) → index' k = index k
  index_gone : ∀ i b, R i → items i = some b → index' (hash b) = none

variable {hash} {items items' : ι → Option β} {index index' : κ → Option ι} {R : ι → Prop}

theorem Removed.of_some (hr : Removed hash R items items' index index') {i : ι} {b : β}
    (hb : items' i = some b) : ¬R i ∧ items i = some b := by
  by_cases hi : R i
  · rw [hr.gone i hi] at hb
    cases hb
  · exact ⟨hi, (hr.kept i hi).symm.trans hb⟩

theorem Sound.removed (hs : Sound hash items index)
    (hr : Removed hash R items items' index index') : Sound hash items' index' := by
  intro k i hentry
  -- no removed item has this hash, since its entry would be gone
  have hne : ∀ j b, R j → items j = some b → hash b ≠ k := by
    rintro j b hj hb rfl
    rw [hr.index_gone j b hj hb] at hentry
    cases hentry
  rw [hr.index_kept k hne] at hentry
  obtain ⟨b, hb, hhash⟩ := hs k i hentry
  have hkept : ¬R i := fun hi => hne i b hi hb hhash
  exact ⟨b, (hr.kept i hkept).trans hb, hhash⟩

theorem Complete.removed (hc : Complete hash items index)
    (hr : Removed hash R items items' index index') : Complete hash items' index' := by
  intro i b hb
  obtain ⟨hkept, hb⟩ := hr.of_some hb
  have hentry := hc i b hb
  rw [hr.index_kept]
  · exact hentry
  · -- two items with one hash would share their entry
    rintro j b' hj hb' heq
    have hentry' := hc j b' hb'
    rw [heq, hentry] at hentry'
    cases hentry'
    exact hkept hj

section
variable [DecidableEq κ] [DecidableEq ι]

/-- Putting an item where there is none, or over one with the same hash. -/
theorem Sound.put (hs : Sound hash items index) {i : ι} {b : β}
    (hold : ∀ b', items i = some b' → hash b' = hash b) :
    Sound hash (Function.update items i (some b))
      (Function.update index (hash b) (some i)) := by
  intro k j hentry
  rw [Function.update_apply] at hentry
  split at hentry
  · next heq =>
    cases hentry
    exact ⟨b, Function.update_self .., heq.symm⟩
  · next hne =>
    obtain ⟨b', hb', hhash⟩ := hs k j hentry
    have hother : j ≠ i := by
      rintro rfl
      exact hne (hhash.symm.trans (hold b' hb'))
    exact ⟨b', (Function.update_of_ne hother ..).trans hb', hhash⟩

/-- The hash must not be that of an item elsewhere. -/
theorem Complete.put (hc : Complete hash items index) {i : ι} {b : β}
    (hnew : ∀ j b', items j = some b' → hash b' = hash b → j = i) :
    Complete hash (Function.update items i (some b))
      (Function.update index (hash b) (some i)) := by
  intro j b' hb'
  rw [Function.update_apply] at hb'
  split at hb'
  · next heq =>
    cases hb'
    rw [heq]
    exact Function.update_self ..
  · next hne =>
    rw [Function.update_of_ne fun heq => hne (hnew j b' hb' heq)]
    exact hc j b' hb'

end

/-- Entries that are deleted one after the other. -/
theorem foldl_erase [DecidableEq κ] {γ : Type*} (f : γ → κ) (k : κ) :
    ∀ (l : List γ) (index : κ → Option ι),
      (l.foldl (fun m x => Function.update m (f x) none) index) k =
        if k ∈ l.map f then none else index k
  | [], index => by simp
  | x :: l, index => by
    rw [List.foldl_cons, foldl_erase f k l, Function.update_apply]
    by_cases hk : k = f x <;> by_cases hl : k ∈ l.map f <;> simp [hk, hl]

/-- The same items with a sound and complete index have the same index. -/
theorem index_eq (hs : Sound hash items index) (hc : Complete hash items index)
    (hs' : Sound hash items index') (hc' : Complete hash items index') : index' = index := by
  refine funext fun k => Option.ext fun i => ⟨fun hentry => ?_, fun hentry => ?_⟩
  · obtain ⟨b, hb, rfl⟩ := hs' k i hentry
    exact hc i b hb
  · obtain ⟨b, hb, rfl⟩ := hs k i hentry
    exact hc' i b hb

end HashIndex
