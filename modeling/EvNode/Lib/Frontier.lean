import Mathlib

/-!
# A cursor over required positions

Some positions are required. Work on them is done in order, and a cursor stands behind what is done.
`Next req c hs` says that `hs` are required positions after the cursor `c`, in order and with none
left out in between. `Complete` is the invariant: every required position up to the cursor is done,
and the positions were done in increasing order.
-/

namespace Frontier

variable {req : Nat → Prop} {c : Nat} {hs ts : List Nat}

/-- No required position between the cursor and the first of the list, nor between two of them. -/
def Next (req : Nat → Prop) : Nat → List Nat → Prop
  | _, [] => True
  | c, h :: hs => c < h ∧ (∀ k, c < k → k < h → ¬ req k) ∧ Next req h hs

/-- The cursor behind a list of positions. -/
def advance (c : Nat) (hs : List Nat) : Nat := hs.getLastD c

@[simp] theorem advance_nil (c : Nat) : advance c [] = c := rfl

@[simp] theorem advance_cons (c h : Nat) (hs : List Nat) : advance c (h :: hs) = advance h hs := by
  cases hs <;> rfl

theorem Next.append (h : Next req c (hs ++ ts)) : Next req c hs ∧ Next req (advance c hs) ts := by
  induction hs generalizing c with
  | nil => exact ⟨trivial, h⟩
  | cons x hs ih =>
    obtain ⟨hlt, hgap, hrest⟩ := h
    obtain ⟨hnext, hts⟩ := ih hrest
    exact ⟨⟨hlt, hgap, hnext⟩, by rwa [advance_cons]⟩

/-- The next positions lie between the cursor and where it moves. -/
theorem Next.bounds (h : Next req c hs) : c ≤ advance c hs ∧ ∀ x ∈ hs, c < x ∧ x ≤ advance c hs := by
  induction hs generalizing c with
  | nil => simp
  | cons x hs ih =>
    obtain ⟨hlt, _, hrest⟩ := h
    obtain ⟨hle, hall⟩ := ih hrest
    rw [advance_cons]
    refine ⟨by omega, fun y hy => ?_⟩
    rcases List.mem_cons.mp hy with rfl | hy
    · exact ⟨hlt, hle⟩
    · have := hall y hy
      exact ⟨by omega, this.2⟩

theorem Next.pairwise (h : Next req c hs) : hs.Pairwise (· < ·) := by
  induction hs generalizing c with
  | nil => exact .nil
  | cons x hs ih =>
    obtain ⟨_, _, hrest⟩ := h
    exact .cons (fun y hy => (hrest.bounds.2 y hy).1) (ih hrest)

/-- Nothing required is passed over. -/
theorem Next.mem (h : Next req c hs) {k : Nat} (hc : c < k) (hk : k ≤ advance c hs)
    (hreq : req k) : k ∈ hs := by
  induction hs generalizing c with
  | nil =>
    rw [advance_nil] at hk
    omega
  | cons x hs ih =>
    obtain ⟨hlt, hgap, hrest⟩ := h
    rw [advance_cons] at hk
    rcases Nat.lt_trichotomy k x with hkx | rfl | hxk
    · exact absurd hreq (hgap k hc hkx)
    · exact List.mem_cons_self
    · exact List.mem_cons_of_mem _ (ih hrest hxk hk)

/-- The required positions of a range follow the position before it. -/
theorem next_filter_range' (p : Nat → Bool) (n : Nat) :
    ∀ c e, c ≤ e → (∀ k, c < k → k ≤ e → p k = false) →
      Next (fun k => p k = true) c ((List.range' (e + 1) n).filter p) := by
  induction n with
  | zero => intro c e _ _; trivial
  | succ n ih =>
    intro c e hce hgap
    rw [List.range'_succ, List.filter_cons]
    cases hp : p (e + 1) with
    | true =>
      rw [if_pos rfl]
      refine ⟨by omega, fun k hck hke hk => ?_, ih (e + 1) (e + 1) (Nat.le_refl _) fun k h1 h2 => ?_⟩
      · exact absurd hk (by simp [hgap k hck (by omega)])
      · omega
    | false =>
      rw [if_neg (by simp)]
      refine ih c (e + 1) (by omega) fun k h1 h2 => ?_
      rcases Nat.lt_or_ge e k with hlt | hge
      · obtain rfl : k = e + 1 := by omega
        exact hp
      · exact hgap k h1 hge

/-- Consecutive positions leave nothing out. -/
theorem next_range' (req : Nat → Prop) (c n : Nat) : Next req c (List.range' (c + 1) n) := by
  induction n generalizing c with
  | zero => trivial
  | succ n ih => exact ⟨by omega, fun k h1 h2 => by omega, ih (c + 1)⟩

/-- Up to the cursor everything required is done, in order. -/
structure Complete (req : Nat → Prop) (cursor : Nat) (done : List Nat) : Prop where
  covered : ∀ h ≤ cursor, req h → h ∈ done
  sorted : done.Pairwise (· < ·)
  below : ∀ h ∈ done, h ≤ cursor

variable {done : List Nat}

theorem Complete.advance (h : Complete req c done) (hnext : Next req c hs) :
    Complete req (advance c hs) (done ++ hs) where
  covered k hk hreq := by
    rcases Nat.lt_or_ge c k with hlt | hge
    · exact List.mem_append_right _ (hnext.mem hlt hk hreq)
    · exact List.mem_append_left _ (h.covered k hge hreq)
  sorted := by
    rw [List.pairwise_append]
    exact ⟨h.sorted, hnext.pairwise, fun x hx y hy =>
      Nat.lt_of_le_of_lt (h.below x hx) (hnext.bounds.2 y hy).1⟩
  below k hk := by
    rcases List.mem_append.mp hk with hk | hk
    · exact Nat.le_trans (h.below k hk) hnext.bounds.1
    · exact (hnext.bounds.2 k hk).2

theorem Complete.skip {c' : Nat} (h : Complete req c done) (hle : c ≤ c')
    (hgap : ∀ k, c < k → k ≤ c' → ¬ req k) : Complete req c' done where
  covered k hk hreq := by
    rcases Nat.lt_or_ge c k with hlt | hge
    · exact absurd hreq (hgap k hlt hk)
    · exact h.covered k hge hreq
  sorted := h.sorted
  below k hk := Nat.le_trans (h.below k hk) hle

/-- Only the positions up to the cursor count. -/
theorem Complete.congr {req' : Nat → Prop} (h : Complete req c done)
    (heq : ∀ k ≤ c, req' k → req k) : Complete req' c done :=
  ⟨fun k hk hreq => h.covered k hk (heq k hk hreq), h.sorted, h.below⟩

/-- Work in progress: up to the cursor everything is done, and the positions `hs` come next. All of
it lies within a bound. -/
structure Waiting (req : Nat → Prop) (bound cursor : Nat) (done hs : List Nat) : Prop where
  complete : Complete req cursor done
  le : cursor ≤ bound
  next : Next req cursor hs
  bounded : ∀ h ∈ hs, h ≤ bound

theorem advance_le {m : Nat} (hc : c ≤ m) (h : ∀ x ∈ hs, x ≤ m) : advance c hs ≤ m := by
  induction hs generalizing c with
  | nil => exact hc
  | cons x hs ih =>
    rw [advance_cons]
    exact ih (h x List.mem_cons_self) fun y hy => h y (List.mem_cons_of_mem _ hy)

namespace Waiting

variable {bound : Nat}

theorem take (h : Waiting req bound c done (hs ++ ts)) : Waiting req bound c done hs where
  complete := h.complete
  le := h.le
  next := h.next.append.1
  bounded x hx := h.bounded x (List.mem_append_left _ hx)

theorem move (h : Waiting req bound c done (hs ++ ts)) :
    Waiting req bound (Frontier.advance c hs) (done ++ hs) ts where
  complete := h.complete.advance h.next.append.1
  le := advance_le h.le fun x hx => h.bounded x (List.mem_append_left _ hx)
  next := h.next.append.2
  bounded x hx := h.bounded x (List.mem_append_right _ hx)

end Waiting

end Frontier
