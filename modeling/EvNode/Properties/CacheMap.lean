import EvNode.Lib.Run
import EvNode.Syncing.Cache

/-!
# The cache as a map from height to DA height

The cache joins two maps by a hash: heights to hashes and hashes to DA heights. `recordAt` reads both
at one height, and `included` is what a call for that height is meant to do to it.

`inclusion_by_height`: the cache refines one such record per height, as long as

* a hash stands for one height at a time,
* a height that is included is marked as seen under the hash it is included by,
* a snapshot is restored over heights that are not included under a hash.
-/

namespace EvNode

namespace Cache

/-- The key recorded for a height, and its DA height. -/
def recordAt (c : Cache) (h : Nat) : Option (CacheKey × Nat) :=
  (c.hashByHeight.get? h).bind fun key => (c.daIncluded key).map fun daHeight => (key, daHeight)

/-- What an entry of a snapshot is meant to do to the record of the height `h`. -/
def restoredAt (h finalizedHeight : Nat) (r : Option (CacheKey × Nat)) (e : Nat × Nat) :
    Option (CacheKey × Nat) :=
  if e.1 = h ∧ finalizedHeight < e.1 then some (.placeholder h, e.2) else r

/-- What a call is meant to do to the record of the height `h`. -/
def included (h : Nat) (r : Option (CacheKey × Nat)) : Op → Option (CacheKey × Nat)
  | .setSeen _ _ => r
  | .setDAIncluded hash daHeight blockHeight =>
    if blockHeight = h then some (.hash hash, daHeight) else r
  | .removeDAIncluded hash => if r.any fun x => x.1 = .hash hash then none else r
  | .deleteAllForHeight height => if height = h then none else r
  | .restoreFromStore snapshot finalizedHeight => snapshot.foldl (restoredAt h finalizedHeight) r

/-- The hash stands for no other height. -/
def OnlyAt (c : Cache) (hash : Bytes) (height : Nat) : Prop :=
  ∀ h, c.hashByHeight.get? h = some (.hash hash) → h = height

def Unshared (c : Cache) : Op → Prop
  | .setSeen hash height =>
    c.OnlyAt hash height ∧ ∀ x, c.recordAt height = some x → x.1 = .hash hash
  | .setDAIncluded hash _ blockHeight => c.OnlyAt hash blockHeight
  | .restoreFromStore snapshot finalizedHeight =>
    ∀ e ∈ snapshot, finalizedHeight < e.1 → ∀ x, c.recordAt e.1 = some x → x.1 = .placeholder e.1
  | _ => True

instance (c : Cache) (hash : Bytes) (height : Nat) : Decidable (c.OnlyAt hash height) :=
  decidable_of_iff (∀ e ∈ c.hashByHeight.entries, e.2 = .hash hash → e.1 = height)
    ⟨fun h k hk => h (k, _) (OrdMap.mem_entries.mpr hk) rfl, fun h e he hk =>
      h e.1 (OrdMap.mem_entries.mp (hk ▸ he))⟩

instance (c : Cache) (op : Op) : Decidable (c.Unshared op) := by
  cases op <;> dsimp only [Unshared] <;> infer_instance

/-- No key stands for two heights, and every included key stands for one. -/
structure Indexed (c : Cache) : Prop where
  one : ∀ {h h' key}, c.hashByHeight.get? h = some key → c.hashByHeight.get? h' = some key → h = h'
  placeholder : ∀ {h p}, c.hashByHeight.get? h = some (.placeholder p) → p = h
  indexed : ∀ {key daHeight}, c.daIncluded key = some daHeight →
    ∃ h, c.hashByHeight.get? h = some key

theorem getDAIncludedByHeight_eq (c : Cache) (h : Nat) :
    c.getDAIncludedByHeight h = (c.recordAt h).map Prod.snd := by
  unfold getDAIncludedByHeight recordAt
  cases c.hashByHeight.get? h with
  | none => rfl
  | some key => cases hd : c.daIncluded key <;> simp [hd]

variable {h daHeight height finalizedHeight : Nat} {c' : Cache} {hash : Bytes}

theorem recordAt_eq_some {c : Cache} {key : CacheKey} :
    c.recordAt h = some (key, daHeight) ↔
      c.hashByHeight.get? h = some key ∧ c.daIncluded key = some daHeight := by
  unfold recordAt
  simp only [Option.bind_eq_some_iff, Option.map_eq_some_iff, Prod.mk.injEq]
  constructor
  · rintro ⟨k, hk, d, hd, rfl, rfl⟩
    exact ⟨hk, hd⟩
  · rintro ⟨hk, hd⟩
    exact ⟨key, hk, daHeight, hd, rfl, rfl⟩

theorem recordAt_congr {c : Cache} (hkey : c'.hashByHeight.get? h = c.hashByHeight.get? h)
    (hda : ∀ key, c.hashByHeight.get? h = some key → c'.daIncluded key = c.daIncluded key) :
    c'.recordAt h = c.recordAt h := by
  unfold recordAt
  rw [hkey]
  cases hk : c.hashByHeight.get? h with
  | none => rfl
  | some key => simp [hda key hk]

@[simp] theorem setMaxDAHeight_hashByHeight (c : Cache) (d : Nat) :
    (c.setMaxDAHeight d).hashByHeight = c.hashByHeight := by
  unfold setMaxDAHeight
  split <;> rfl

@[simp] theorem setMaxDAHeight_daIncluded (c : Cache) (d : Nat) :
    (c.setMaxDAHeight d).daIncluded = c.daIncluded := by
  unfold setMaxDAHeight
  split <;> rfl

@[simp] theorem setMaxDAHeight_hashes (c : Cache) (d : Nat) :
    (c.setMaxDAHeight d).hashes = c.hashes := by
  unfold setMaxDAHeight
  split <;> rfl

theorem isSeen_restored (snapshot : List (Nat × Nat)) (finalizedHeight : Nat) (hash : Bytes) :
    (restored snapshot finalizedHeight).isSeen hash = false := by
  have hkeeps : ∀ c : Cache,
      (snapshot.foldl (restoreEntry finalizedHeight) c).hashes = c.hashes := by
    induction snapshot with
    | nil => exact fun _ => rfl
    | cons e snapshot ih =>
      intro c
      rw [List.foldl_cons, ih]
      unfold restoreEntry
      split <;> simp
  unfold isSeen restored
  rw [hkeeps]
  rfl

@[simp] theorem setDAIncluded_hashes (c : Cache) (hash : Bytes) (daHeight blockHeight : Nat) :
    (c.setDAIncluded hash daHeight blockHeight).hashes = c.hashes :=
  setMaxDAHeight_hashes ..

theorem isSeen_of_deleteAllForHeight {c : Cache}
    (h : (c.deleteAllForHeight height).isSeen hash = true) : c.isSeen hash = true := by
  unfold deleteAllForHeight at h
  split at h
  · exact h
  · next key _ =>
    unfold isSeen at h ⊢
    dsimp only at h
    by_cases hkey : CacheKey.hash hash = key
    · rw [hkey, Function.update_self] at h
      cases h
    · rw [Function.update_of_ne hkey] at h
      exact h

/-! ## One call -/

variable {c : Cache}

theorem recordAt_setSeen (hi : c.Indexed)
    (hu : c.Unshared (.setSeen hash height)) (h : Nat) :
    (c.setSeen hash height).recordAt h = c.recordAt h := by
  obtain ⟨honly, hsame⟩ := hu
  by_cases hh : h = height
  · subst hh
    cases hr : c.recordAt h with
    | some x =>
      obtain ⟨key, daHeight⟩ := x
      obtain rfl := hsame _ hr
      obtain ⟨_, hd⟩ := recordAt_eq_some.mp hr
      exact recordAt_eq_some.mpr ⟨OrdMap.get?_put_self .., hd⟩
    | none =>
      -- a mark of this hash would be indexed, and then here
      have hnone : c.daIncluded (.hash hash) = none := by
        cases hd : c.daIncluded (.hash hash) with
        | none => rfl
        | some daHeight =>
          obtain ⟨h', hk⟩ := hi.indexed hd
          obtain rfl := honly h' hk
          rw [recordAt_eq_some.mpr ⟨hk, hd⟩] at hr
          cases hr
      unfold recordAt setSeen
      simp [hnone]
  · refine recordAt_congr ?_ fun _ _ => rfl
    exact OrdMap.get?_put_ne _ _ hh

theorem setDAIncluded_hashByHeight (c : Cache) (hash : Bytes) (daHeight blockHeight : Nat) :
    (c.setDAIncluded hash daHeight blockHeight).hashByHeight =
      c.hashByHeight.put blockHeight (.hash hash) :=
  setMaxDAHeight_hashByHeight _ _

theorem setDAIncluded_daIncluded (c : Cache) (hash : Bytes) (daHeight blockHeight : Nat)
    (key : CacheKey) :
    (c.setDAIncluded hash daHeight blockHeight).daIncluded key =
      if key = .hash hash then some daHeight
      else if c.hashByHeight.get? blockHeight = some key then none else c.daIncluded key := by
  unfold setDAIncluded
  rw [setMaxDAHeight_daIncluded]
  by_cases hkey : key = .hash hash
  · simp [hkey]
  · simp only [Function.update_of_ne hkey, if_neg hkey]
    cases hprev : c.hashByHeight.get? blockHeight with
    | none => simp
    | some prev =>
      dsimp only
      by_cases hp : prev = .hash hash
      · have hne : ¬ CacheKey.hash hash = key := fun he => hkey he.symm
        simp [hp, hne]
      · by_cases hk : prev = key
        · simp [hk, hkey]
        · have hk' : ¬ key = prev := fun he => hk he.symm
          simp [hp, hk, Function.update_of_ne hk']

theorem recordAt_setDAIncluded {blockHeight : Nat} (hi : c.Indexed)
    (honly : c.OnlyAt hash blockHeight) (h : Nat) :
    (c.setDAIncluded hash daHeight blockHeight).recordAt h =
      if blockHeight = h then some (.hash hash, daHeight) else c.recordAt h := by
  by_cases hh : blockHeight = h
  · rw [if_pos hh, recordAt_eq_some, setDAIncluded_hashByHeight, setDAIncluded_daIncluded, ← hh]
    simp
  · rw [if_neg hh]
    refine recordAt_congr ?_ fun key hkey => ?_
    · rw [setDAIncluded_hashByHeight, OrdMap.get?_put_ne _ _ fun he => hh he.symm]
    · have hne : key ≠ .hash hash := by
        rintro rfl
        exact hh (honly h hkey).symm
      have hprev : c.hashByHeight.get? blockHeight ≠ some key := fun hp => hh (hi.one hp hkey)
      rw [setDAIncluded_daIncluded, if_neg hne, if_neg hprev]

theorem recordAt_removeDAIncluded (c : Cache) (hash : Bytes) (h : Nat) :
    (c.removeDAIncluded hash).recordAt h =
      if (c.recordAt h).any (fun x => x.1 = .hash hash) then none else c.recordAt h := by
  unfold removeDAIncluded recordAt
  cases hkey : c.hashByHeight.get? h with
  | none => rfl
  | some key =>
    by_cases hk : key = .hash hash
    · cases hd : c.daIncluded (.hash hash) <;> simp [hk, hd]
    · cases hd : c.daIncluded key <;> simp [hd, hk]

theorem recordAt_deleteAllForHeight (hi : c.Indexed) (height h : Nat) :
    (c.deleteAllForHeight height).recordAt h = if height = h then none else c.recordAt h := by
  unfold deleteAllForHeight
  cases hkey : c.hashByHeight.get? height with
  | none =>
    by_cases hh : height = h
    · rw [if_pos hh]
      simp [recordAt, ← hh, hkey]
    · rw [if_neg hh]
  | some key =>
    by_cases hh : height = h
    · rw [if_pos hh]
      simp [recordAt, hh, OrdMap.get?_delete]
    · rw [if_neg hh]
      have hh' : ¬ h = height := fun he => hh he.symm
      refine recordAt_congr ?_ fun key' hkey' => ?_
      · simp [OrdMap.get?_delete, hh']
      · have hne : key' ≠ key := by
          rintro rfl
          exact hh (hi.one hkey hkey')
        exact Function.update_of_ne hne _ _

/-- An entry that is restored over a height that is not included under a hash. -/
theorem recordAt_restoreEntry {e : Nat × Nat} (hi : c.Indexed)
    (h : Nat) : (c.restoreEntry finalizedHeight e).recordAt h =
      restoredAt h finalizedHeight (c.recordAt h) e := by
  unfold restoreEntry restoredAt
  dsimp only
  by_cases hfin : e.1 ≤ finalizedHeight
  · rw [if_pos hfin, if_neg fun hh => absurd hh.2 (Nat.not_lt.mpr hfin)]
    exact recordAt_congr (by simp) (by simp)
  · rw [if_neg hfin]
    by_cases hh : e.1 = h
    · rw [if_pos ⟨hh, Nat.not_le.mp hfin⟩, recordAt_eq_some]
      simp [hh]
    · rw [if_neg fun h' => hh h'.1]
      refine recordAt_congr ?_ fun key hkey => ?_
      · simp [OrdMap.get?_put_ne _ _ fun he => hh he.symm]
      · have hne : key ≠ .placeholder e.1 := by
          rintro rfl
          exact hh (hi.placeholder hkey)
        simp [Function.update_of_ne hne]

/-! ## The index -/

/-- A key is put at `height`. Every mark is that of the key, or its key stands for another height. -/
theorem Indexed.put (hi : c.Indexed) (key : CacheKey)
    (hindex : c'.hashByHeight = c.hashByHeight.put height key)
    (honly : ∀ h, c.hashByHeight.get? h = some key → h = height)
    (hplace : ∀ p, key = .placeholder p → p = height)
    (hmarks : ∀ k daHeight, c'.daIncluded k = some daHeight →
      k = key ∨ (∃ d, c.daIncluded k = some d) ∧ c.hashByHeight.get? height ≠ some k) :
    c'.Indexed := by
  have hget : ∀ h, c'.hashByHeight.get? h = if h = height then some key
      else c.hashByHeight.get? h := by
    intro h
    rw [hindex, OrdMap.get?_put]
  constructor
  · intro h h' k hk hk'
    rw [hget] at hk hk'
    by_cases hh : h = height <;> by_cases hh' : h' = height
    · rw [hh, hh']
    · rw [if_pos hh] at hk
      rw [if_neg hh', ← hk] at hk'
      exact absurd (honly h' hk') hh'
    · rw [if_pos hh'] at hk'
      rw [if_neg hh, ← hk'] at hk
      exact absurd (honly h hk) hh
    · rw [if_neg hh] at hk
      rw [if_neg hh'] at hk'
      exact hi.one hk hk'
  · intro h p hk
    rw [hget] at hk
    split at hk
    · next hh =>
      rw [hh]
      exact hplace p (Option.some.inj hk)
    · exact hi.placeholder hk
  · intro k daHeight hd
    rcases hmarks k daHeight hd with rfl | ⟨⟨d, hd⟩, hne⟩
    · exact ⟨height, by simp [hget]⟩
    · obtain ⟨h, hk⟩ := hi.indexed hd
      refine ⟨h, ?_⟩
      have hh : h ≠ height := by
        rintro rfl
        exact hne hk
      rw [hget, if_neg hh, hk]

theorem Indexed.congr (hi : c.Indexed) (hindex : c'.hashByHeight = c.hashByHeight)
    (hmarks : c'.daIncluded = c.daIncluded) : c'.Indexed := by
  constructor
  · rw [hindex]
    exact hi.one
  · rw [hindex]
    exact hi.placeholder
  · rw [hindex, hmarks]
    exact hi.indexed

theorem Indexed.setSeen (hi : c.Indexed)
    (hu : c.Unshared (.setSeen hash height)) : (c.setSeen hash height).Indexed := by
  refine hi.put (.hash hash) rfl hu.1 nofun fun k daHeight hd => ?_
  have hd : c.daIncluded k = some daHeight := hd
  by_cases hk : c.hashByHeight.get? height = some k
  · exact .inl (hu.2 _ (recordAt_eq_some.mpr ⟨hk, hd⟩))
  · exact .inr ⟨⟨daHeight, hd⟩, hk⟩

theorem Indexed.setDAIncluded {blockHeight : Nat} (hi : c.Indexed)
    (honly : c.OnlyAt hash blockHeight) : (c.setDAIncluded hash daHeight blockHeight).Indexed := by
  refine hi.put _ (setDAIncluded_hashByHeight ..) honly nofun fun k d hd => ?_
  rw [setDAIncluded_daIncluded] at hd
  split at hd
  · next hk => exact .inl hk
  · split at hd
    · cases hd
    · next hne => exact .inr ⟨⟨d, hd⟩, hne⟩

theorem Indexed.removeDAIncluded (hi : c.Indexed) (hash : Bytes) :
    (c.removeDAIncluded hash).Indexed := by
  refine ⟨hi.one, hi.placeholder, fun {key daHeight} hd => ?_⟩
  have hd : Function.update c.daIncluded (.hash hash) none key = some daHeight := hd
  by_cases hk : key = .hash hash
  · simp [hk] at hd
  · rw [Function.update_of_ne hk] at hd
    exact hi.indexed hd

theorem Indexed.deleteAllForHeight (hi : c.Indexed) (height : Nat) :
    (c.deleteAllForHeight height).Indexed := by
  unfold Cache.deleteAllForHeight
  cases hkey : c.hashByHeight.get? height with
  | none => exact hi
  | some key =>
    have hget : ∀ {h k}, (c.hashByHeight.delete height).get? h = some k →
        c.hashByHeight.get? h = some k := by
      intro h k hk
      rw [OrdMap.get?_delete] at hk
      split at hk
      · cases hk
      · exact hk
    refine ⟨fun hk hk' => hi.one (hget hk) (hget hk'), fun hk => hi.placeholder (hget hk),
      fun {k daHeight} hd => ?_⟩
    have hd : Function.update c.daIncluded key none k = some daHeight := hd
    have hne : k ≠ key := by
      rintro rfl
      simp at hd
    rw [Function.update_of_ne hne] at hd
    obtain ⟨h, hk⟩ := hi.indexed hd
    have hh : h ≠ height := by
      rintro rfl
      exact hne (Option.some.inj (hk.symm.trans hkey))
    exact ⟨h, by simp [OrdMap.get?_delete, hh, hk]⟩

theorem Indexed.restoreEntry {e : Nat × Nat} (hi : c.Indexed)
    (hu : finalizedHeight < e.1 → ∀ x, c.recordAt e.1 = some x → x.1 = .placeholder e.1) :
    (c.restoreEntry finalizedHeight e).Indexed := by
  unfold Cache.restoreEntry
  dsimp only
  by_cases hfin : e.1 ≤ finalizedHeight
  · rw [if_pos hfin]
    exact hi.congr (setMaxDAHeight_hashByHeight c e.2) (setMaxDAHeight_daIncluded c e.2)
  · rw [if_neg hfin]
    refine hi.put (.placeholder e.1) (by simp) (fun h hk => (hi.placeholder hk).symm) ?_ ?_
    · rintro p ⟨⟩
      rfl
    · intro k daHeight hd
      simp only [setMaxDAHeight_daIncluded] at hd
      by_cases hk : k = .placeholder e.1
      · exact .inl hk
      · rw [Function.update_of_ne hk] at hd
        refine .inr ⟨⟨daHeight, hd⟩, fun hkey => hk ?_⟩
        exact hu (Nat.not_le.mp hfin) _ (recordAt_eq_some.mpr ⟨hkey, hd⟩)

theorem restoreFromStore_spec (snapshot : List (Nat × Nat)) (hi : c.Indexed)
    (hu : c.Unshared (.restoreFromStore snapshot finalizedHeight)) :
    (c.restoreFromStore snapshot finalizedHeight).Indexed ∧
      ∀ h, (c.restoreFromStore snapshot finalizedHeight).recordAt h =
        snapshot.foldl (restoredAt h finalizedHeight) (c.recordAt h) := by
  unfold restoreFromStore
  induction snapshot generalizing c with
  | nil => exact ⟨hi, fun _ => rfl⟩
  | cons e snapshot ih =>
    have hi' := hi.restoreEntry (hu e List.mem_cons_self)
    have hu' : (c.restoreEntry finalizedHeight e).Unshared
        (.restoreFromStore snapshot finalizedHeight) := by
      intro e' he' hfin x hx
      rw [recordAt_restoreEntry hi, restoredAt] at hx
      split at hx
      · cases hx
        rfl
      · exact hu e' (List.mem_cons_of_mem e he') hfin x hx
    obtain ⟨hindexed, hrecord⟩ := ih hi' hu'
    refine ⟨hindexed, fun h => ?_⟩
    rw [List.foldl_cons, List.foldl_cons, hrecord, recordAt_restoreEntry hi]

/-- **One call.** -/
theorem step_spec (hi : c.Indexed) {op : Op} (hu : c.Unshared op) :
    (c.step op).Indexed ∧ ∀ h, (c.step op).recordAt h = included h (c.recordAt h) op := by
  cases op with
  | setSeen hash height => exact ⟨hi.setSeen hu, recordAt_setSeen hi hu⟩
  | setDAIncluded hash daHeight blockHeight =>
    exact ⟨hi.setDAIncluded hu, recordAt_setDAIncluded hi hu⟩
  | removeDAIncluded hash => exact ⟨hi.removeDAIncluded hash, recordAt_removeDAIncluded c hash⟩
  | deleteAllForHeight height =>
    exact ⟨hi.deleteAllForHeight height, recordAt_deleteAllForHeight hi height⟩
  | restoreFromStore snapshot finalizedHeight => exact restoreFromStore_spec snapshot hi hu

/-! ## One hash per height

If the hashes recorded are those of `hashOf`, marking a height under its own hash evicts nothing. -/

theorem isSome_setDAIncluded (hashOf : Nat → Bytes)
    (hhash : hash = hashOf height)
    (hrecorded : ∀ {h key}, c.hashByHeight.get? h = some key → key = .hash (hashOf h))
    (daHeight : Nat) (hsome : (c.getDAIncludedByHeight h).isSome) :
    ((c.setDAIncluded hash daHeight height).getDAIncludedByHeight h).isSome := by
  unfold getDAIncludedByHeight
  rw [setDAIncluded_hashByHeight, OrdMap.get?_put]
  by_cases hh : h = height
  · rw [if_pos hh, Option.bind_some, setDAIncluded_daIncluded, if_pos rfl]
    rfl
  · rw [if_neg hh]
    unfold getDAIncludedByHeight at hsome
    cases hkey : c.hashByHeight.get? h with
    | none =>
      rw [hkey] at hsome
      cases hsome
    | some key =>
      rw [hkey, Option.bind_some] at hsome
      rw [Option.bind_some, setDAIncluded_daIncluded]
      split
      · rfl
      · next hne =>
        -- what is evicted at `height` is its own hash
        rw [if_neg fun hget => hne ((hrecorded hget).trans (by rw [hhash]))]
        exact hsome

theorem recorded_setDAIncluded (hashOf : Nat → Bytes)
    (hhash : hash = hashOf height)
    (hrecorded : ∀ {h key}, c.hashByHeight.get? h = some key → key = .hash (hashOf h)) {key : CacheKey}
    (hget : (c.setDAIncluded hash daHeight height).hashByHeight.get? h = some key) :
    key = .hash (hashOf h) := by
  rw [setDAIncluded_hashByHeight, OrdMap.get?_put] at hget
  split at hget
  · next hh =>
    cases hget
    rw [hh, hhash]
  · exact hrecorded hget

/-! ## Runs -/

theorem indexed_empty : empty.Indexed := ⟨nofun, nofun, nofun⟩

/-- From an indexed cache, each record is what the calls for its height make of it. -/
theorem recordAt_exec (ops : List Op) (hi : c.Indexed) (hrun : Run.Meets step Unshared c ops)
    (h : Nat) : (Run.exec step c ops).recordAt h = ops.foldl (included h) (c.recordAt h) := by
  induction ops generalizing c with
  | nil => rfl
  | cons op ops ih =>
    obtain ⟨hi', hrecord⟩ := step_spec hi hrun.1
    rw [Run.exec_cons, ih hi' hrun.2, List.foldl_cons, hrecord]

/--
**The cache refines a map from height to DA height.**

For every sequence of calls on a new cache in which hashes are not shared (`Unshared`), the answer for
a height is that of the last inclusion set or restored for it, unless its hash was removed or the
height deleted since: it is computed from the calls alone, height by height.
-/
theorem inclusion_by_height (ops : List Op) (hrun : Run.Meets step Unshared empty ops) (h : Nat) :
    (Run.exec step empty ops).getDAIncludedByHeight h =
      (ops.foldl (included h) none).map Prod.snd := by
  rw [getDAIncludedByHeight_eq, recordAt_exec ops indexed_empty hrun]
  rfl

/-- Heights 4 and 5 are restored and 6 is read from DA. Then 4 is deleted, the mark of 6 is removed,
and 6 is read again. -/
theorem inclusion_by_height_reread :
    let ops : List Op := [.restoreFromStore [(2, 20), (4, 21), (5, 22)] 3, .setDAIncluded [6] 30 6,
      .setSeen [6] 6, .deleteAllForHeight 4, .removeDAIncluded [6], .setDAIncluded [6] 31 6]
    (Run.exec step empty ops).getDAIncludedByHeight 6 = some 31 ∧
      ∀ h, (Run.exec step empty ops).getDAIncludedByHeight h =
        (ops.foldl (included h) none).map Prod.snd := by
  intro ops
  exact ⟨by decide, inclusion_by_height ops (by decide)⟩

/-- Blocks 1 and 2 have the same data hash: deleting block 1 takes the mark of block 2 with it. And
marking a height as seen hides a restored mark, or that of another hash. -/
theorem inclusion_shared :
    (Run.exec step empty [.setDAIncluded [7] 10 1, .setDAIncluded [7] 11 2,
        .deleteAllForHeight 1]).getDAIncludedByHeight 2 = none ∧
      (Run.exec step empty [.setDAIncluded [7] 10 1, .setDAIncluded [7] 11 2]
        ).getDAIncludedByHeight 1 = some 11 ∧
      (Run.exec step empty [.restoreFromStore [(1, 10)] 0, .setSeen [7] 1]
        ).getDAIncludedByHeight 1 = none := by
  decide

end Cache

end EvNode
