import Mathlib

/-!
# Writes to a key-value store

A store is a map `κ → Option ν`, and a write gives one key a value or deletes it. Writes to
different keys commute, so a batch with one write per key may be applied in any order
(`applyAll_perm`), and writes can be coalesced to the last one of each key (`applyAll_coalesce`).
-/

namespace KeyValue

variable {κ κ' ν : Type}

/-- A write of one key: a new value, or none to delete it. -/
structure Write (κ ν : Type) where
  key : κ
  value : Option ν
  deriving DecidableEq, Repr

/-- The same write under another name of the key. -/
def Write.rename (f : κ → κ') (w : Write κ ν) : Write κ' ν := ⟨f w.key, w.value⟩

def keys (ws : List (Write κ ν)) : List κ := ws.map Write.key

@[simp] theorem keys_nil : keys ([] : List (Write κ ν)) = [] := rfl

@[simp] theorem keys_cons (w : Write κ ν) (ws : List (Write κ ν)) :
    keys (w :: ws) = w.key :: keys ws := rfl

@[simp] theorem keys_append (ws ws' : List (Write κ ν)) : keys (ws ++ ws') = keys ws ++ keys ws' :=
  List.map_append

@[simp] theorem keys_rename (f : κ → κ') (ws : List (Write κ ν)) :
    keys (ws.map (Write.rename f)) = (keys ws).map f := by
  simp [keys, Write.rename]

variable [DecidableEq κ] [DecidableEq κ']

def apply (m : κ → Option ν) (w : Write κ ν) : κ → Option ν := Function.update m w.key w.value

/-- Writes one after the other. -/
def applyAll (m : κ → Option ν) (ws : List (Write κ ν)) : κ → Option ν := ws.foldl apply m

@[simp] theorem applyAll_nil (m : κ → Option ν) : applyAll m [] = m := rfl

@[simp] theorem applyAll_cons (m : κ → Option ν) (w : Write κ ν) (ws : List (Write κ ν)) :
    applyAll m (w :: ws) = applyAll (apply m w) ws := rfl

theorem applyAll_append (m : κ → Option ν) (ws ws' : List (Write κ ν)) :
    applyAll m (ws ++ ws') = applyAll (applyAll m ws) ws' := List.foldl_append

/-! ## Reading one key -/

theorem apply_self (m : κ → Option ν) (w : Write κ ν) : apply m w w.key = w.value :=
  Function.update_self ..

theorem apply_of_ne {m : κ → Option ν} {w : Write κ ν} {k : κ} (h : k ≠ w.key) :
    apply m w k = m k := Function.update_of_ne h ..

/-- A deletion brings no key back. -/
theorem apply_delete_none {m : κ → Option ν} {k : κ} (h : m k = none) (k' : κ) :
    apply m ⟨k', none⟩ k = none := by
  by_cases hk : k = k'
  · rw [hk]
    exact apply_self m ⟨k', none⟩
  · exact (apply_of_ne hk).trans h

/-- Writes to other keys are not seen. -/
theorem applyAll_of_notMem {k : κ} : ∀ {ws : List (Write κ ν)} {m : κ → Option ν},
    k ∉ keys ws → applyAll m ws k = m k
  | [], _, _ => rfl
  | w :: ws, m, h => by
    rw [keys_cons, List.mem_cons, not_or] at h
    rw [applyAll_cons, applyAll_of_notMem h.2, apply_of_ne h.1]

/-- Where a key is written, what stood there before is not seen. -/
theorem applyAll_of_mem {k : κ} : ∀ {ws : List (Write κ ν)} (m m' : κ → Option ν),
    k ∈ keys ws → applyAll m ws k = applyAll m' ws k
  | w :: ws, m, m', h => by
    rw [applyAll_cons, applyAll_cons]
    by_cases hws : k ∈ keys ws
    · exact applyAll_of_mem _ _ hws
    · have hk : k = w.key := by
        rw [keys_cons, List.mem_cons] at h
        exact h.resolve_right hws
      rw [applyAll_of_notMem hws, applyAll_of_notMem hws, hk, apply_self, apply_self]

/-- What a key holds after some writes depends only on what it held before. -/
theorem applyAll_congr {ws : List (Write κ ν)} {m m' : κ → Option ν} {k : κ} (h : m k = m' k) :
    applyAll m ws k = applyAll m' ws k := by
  by_cases hk : k ∈ keys ws
  · exact applyAll_of_mem m m' hk
  · rw [applyAll_of_notMem hk, applyAll_of_notMem hk, h]

theorem applyAll_of_nodup {w : Write κ ν} : ∀ {ws : List (Write κ ν)} {m : κ → Option ν},
    (keys ws).Nodup → w ∈ ws → applyAll m ws w.key = w.value
  | x :: ws, m, hnd, hw => by
    rw [keys_cons, List.nodup_cons] at hnd
    rw [applyAll_cons]
    rcases List.mem_cons.mp hw with rfl | hw
    · rw [applyAll_of_notMem hnd.1, apply_self]
    · exact applyAll_of_nodup hnd.2 hw

/-! ## Order -/

/-- **With one write per key the order does not matter.** -/
theorem applyAll_perm {ws ws' : List (Write κ ν)} (hnd : (keys ws).Nodup) (hp : ws.Perm ws')
    (m : κ → Option ν) : applyAll m ws = applyAll m ws' := by
  have hkeys : (keys ws).Perm (keys ws') := hp.map Write.key
  funext k
  by_cases hk : k ∈ keys ws
  · obtain ⟨w, hw, rfl⟩ := List.mem_map.mp hk
    rw [applyAll_of_nodup hnd hw, applyAll_of_nodup (hkeys.nodup_iff.mp hnd) (hp.mem_iff.mp hw)]
  · rw [applyAll_of_notMem hk, applyAll_of_notMem fun h => hk (hkeys.mem_iff.mpr h)]

/-- Writes to disjoint keys commute. -/
theorem applyAll_comm {ws ws' : List (Write κ ν)} (h : ∀ k ∈ keys ws, k ∉ keys ws')
    (m : κ → Option ν) : applyAll (applyAll m ws) ws' = applyAll (applyAll m ws') ws := by
  funext k
  by_cases hk : k ∈ keys ws
  · rw [applyAll_of_notMem (h k hk)]
    exact applyAll_of_mem _ _ hk
  · rw [applyAll_of_notMem hk]
    exact applyAll_congr (applyAll_of_notMem hk)

/-! ## Coalescing -/

/-- The last write of each key. -/
def coalesce : List (Write κ ν) → List (Write κ ν)
  | [] => []
  | w :: ws => if w.key ∈ keys ws then coalesce ws else w :: coalesce ws

theorem mem_keys_coalesce {k : κ} : ∀ {ws : List (Write κ ν)}, k ∈ keys (coalesce ws) ↔ k ∈ keys ws
  | [] => Iff.rfl
  | w :: ws => by
    have ih : k ∈ keys (coalesce ws) ↔ k ∈ keys ws := mem_keys_coalesce
    rw [coalesce]
    split
    · next hw =>
      rw [ih, keys_cons, List.mem_cons]
      exact ⟨.inr, fun h => h.elim (fun hk => hk ▸ hw) id⟩
    · rw [keys_cons, keys_cons, List.mem_cons, List.mem_cons, ih]

theorem nodup_keys_coalesce : ∀ (ws : List (Write κ ν)), (keys (coalesce ws)).Nodup
  | [] => List.nodup_nil
  | w :: ws => by
    rw [coalesce]
    split
    · exact nodup_keys_coalesce ws
    · next hw =>
      rw [keys_cons, List.nodup_cons, mem_keys_coalesce]
      exact ⟨hw, nodup_keys_coalesce ws⟩

/-- **Only the last write of a key counts.** -/
theorem applyAll_coalesce : ∀ (ws : List (Write κ ν)) (m : κ → Option ν),
    applyAll m (coalesce ws) = applyAll m ws
  | [], _ => rfl
  | w :: ws, m => by
    rw [coalesce]
    split
    · next hw =>
      rw [applyAll_coalesce ws, applyAll_cons]
      funext k
      by_cases hk : k = w.key
      · exact applyAll_of_mem _ _ (hk ▸ hw)
      · exact applyAll_congr (apply_of_ne hk).symm
    · rw [applyAll_cons, applyAll_cons, applyAll_coalesce ws]

/-- Coalescing does not depend on the names of the keys, as long as different keys keep different
names. -/
theorem coalesce_rename {f : κ → κ'} : ∀ {ws : List (Write κ ν)},
    Set.InjOn f { k | k ∈ keys ws } →
      coalesce (ws.map (Write.rename f)) = (coalesce ws).map (Write.rename f)
  | [], _ => rfl
  | w :: ws, hf => by
    have hsub : Set.InjOn f { k | k ∈ keys ws } := by
      refine hf.mono fun k hk => ?_
      exact List.mem_cons_of_mem _ hk
    have hmem : f w.key ∈ (keys ws).map f ↔ w.key ∈ keys ws := by
      rw [List.mem_map]
      constructor
      · rintro ⟨k, hk, heq⟩
        have hkw : k = w.key := hf (List.mem_cons_of_mem _ hk) List.mem_cons_self heq
        exact hkw ▸ hk
      · intro hk
        exact ⟨w.key, hk, rfl⟩
    have hkey : (w.rename f).key = f w.key := rfl
    rw [List.map_cons, coalesce, coalesce, keys_rename, hkey, coalesce_rename hsub]
    by_cases hw : w.key ∈ keys ws
    · rw [if_pos hw, if_pos (hmem.mpr hw)]
    · rw [if_neg hw, if_neg fun h => hw (hmem.mp h), List.map_cons]

end KeyValue
