import Mathlib

/-!
# Runs of a machine

A machine takes one input after another. `Meets cond` says that every step of a run satisfies a
condition on the state before the step and on its input. An invariant that each such step keeps
holds at the end of every such run (`invariant`), and two machines related by a simulation give
the same outputs (`lockstep`).
-/

namespace Run

variable {σ τ ι ω : Type}

/-- The state after the inputs `l`. -/
def exec (step : σ → ι → σ) (s : σ) (l : List ι) : σ := l.foldl step s

@[simp] theorem exec_nil (step : σ → ι → σ) (s : σ) : exec step s [] = s := rfl

@[simp] theorem exec_cons (step : σ → ι → σ) (s : σ) (i : ι) (l : List ι) :
    exec step s (i :: l) = exec step (step s i) l := rfl

theorem exec_concat (step : σ → ι → σ) (s : σ) (l : List ι) (i : ι) :
    exec step s (l ++ [i]) = step (exec step s l) i := by
  unfold exec
  rw [List.foldl_append, List.foldl_cons, List.foldl_nil]

theorem exec_append (step : σ → ι → σ) (s : σ) (l₁ l₂ : List ι) :
    exec step s (l₁ ++ l₂) = exec step (exec step s l₁) l₂ := List.foldl_append

/-- Every step of the run satisfies `cond`. -/
def Meets (step : σ → ι → σ) (cond : σ → ι → Prop) : σ → List ι → Prop
  | _, [] => True
  | s, i :: l => cond s i ∧ Meets step cond (step s i) l

instance decidableMeets {step : σ → ι → σ} {cond : σ → ι → Prop} [∀ s i, Decidable (cond s i)] :
    ∀ s l, Decidable (Meets step cond s l)
  | _, [] => .isTrue trivial
  | s, i :: l => @instDecidableAnd _ _ _ (decidableMeets (step s i) l)

theorem meets_of_forall {step : σ → ι → σ} {cond : ι → Prop} {l : List ι} (h : ∀ i ∈ l, cond i)
    (s : σ) : Meets step (fun _ => cond) s l := by
  induction l generalizing s with
  | nil => exact trivial
  | cons i l ih =>
    exact ⟨h i List.mem_cons_self, ih (fun j hj => h j (List.mem_cons_of_mem i hj)) _⟩

theorem meets_append {step : σ → ι → σ} {cond : σ → ι → Prop} (l₁ l₂ : List ι) (s : σ) :
    Meets step cond s (l₁ ++ l₂) ↔ Meets step cond s l₁ ∧ Meets step cond (exec step s l₁) l₂ := by
  induction l₁ generalizing s with
  | nil => simp [Meets]
  | cons i l₁ ih =>
    simp only [List.cons_append, Meets, exec_cons, ih]
    exact and_assoc.symm

theorem meets_concat {step : σ → ι → σ} {cond : σ → ι → Prop} (l : List ι) (i : ι) (s : σ) :
    Meets step cond s (l ++ [i]) ↔ Meets step cond s l ∧ cond (exec step s l) i := by
  rw [meets_append]
  simp [Meets]

theorem Meets.and {step : σ → ι → σ} {cond cond' : σ → ι → Prop} {l : List ι} {s : σ}
    (h : Meets step cond s l) (h' : Meets step cond' s l) :
    Meets step (fun s i => cond s i ∧ cond' s i) s l := by
  induction l generalizing s with
  | nil => exact trivial
  | cons i l ih => exact ⟨⟨h.1, h'.1⟩, ih h.2 h'.2⟩

theorem meets_forall {κ : Sort*} {step : σ → ι → σ} {cond : κ → σ → ι → Prop} {l : List ι} {s : σ}
    (h : ∀ x, Meets step (cond x) s l) : Meets step (fun s i => ∀ x, cond x s i) s l := by
  induction l generalizing s with
  | nil => exact trivial
  | cons i l ih => exact ⟨fun x => (h x).1, ih fun x => (h x).2⟩

/-- **What each step keeps, a whole run keeps.** -/
theorem invariant {step : σ → ι → σ} {cond : σ → ι → Prop} (Inv : σ → Prop)
    (hstep : ∀ s i, Inv s → cond s i → Inv (step s i)) :
    ∀ (l : List ι) (s : σ), Inv s → Meets step cond s l → Inv (exec step s l) := by
  intro l
  induction l with
  | nil => intro s hs _; exact hs
  | cons i l ih =>
    intro s hs hm
    exact ih (step s i) (hstep s i hs hm.1) hm.2

/-- What one step of a run brings about and the later ones keep holds at its end. -/
theorem invariant_from {step : σ → ι → σ} {cond : σ → ι → Prop} {brings : ι → Prop}
    (Inv Goal : σ → Prop) (hstep : ∀ s i, Inv s → cond s i → Inv (step s i))
    (hbrings : ∀ s i, Inv s → cond s i → brings i → Goal (step s i))
    (hkeeps : ∀ s i, Inv s → cond s i → Goal s → Goal (step s i)) :
    ∀ (l : List ι) (s : σ), Inv s → Meets step cond s l → (∃ i ∈ l, brings i) →
      Goal (exec step s l) := by
  intro l
  induction l with
  | nil => rintro s - - ⟨i, hi, -⟩; cases hi
  | cons i l ih =>
    rintro s hs hm ⟨j, hj, hbring⟩
    rcases List.mem_cons.mp hj with rfl | hj
    · refine (invariant (fun s => Inv s ∧ Goal s) ?_ l _ ?_ hm.2).2
      · exact fun s i hs hc => ⟨hstep s i hs.1 hc, hkeeps s i hs.1 hc hs.2⟩
      · exact ⟨hstep s j hs hm.1, hbrings s j hs hm.1 hbring⟩
    · exact ih _ (hstep s i hs hm.1) hm.2 ⟨j, hj, hbring⟩

theorem invariant_all {step : σ → ι → σ} (Inv : σ → Prop)
    (hstep : ∀ s i, Inv s → Inv (step s i)) (l : List ι) (s : σ) (h : Inv s) :
    Inv (exec step s l) := by
  induction l generalizing s with
  | nil => exact h
  | cons i l ih => exact ih (step s i) (hstep s i h)

/-- Two machines that are given the same inputs: what holds between their states goes on to hold. -/
theorem simulation {step : σ → ι → σ} {step' : τ → ι → τ} {cond : σ → ι → Prop}
    (R : σ → τ → Prop) (hstep : ∀ s t i, R s t → cond s i → R (step s i) (step' t i)) :
    ∀ (l : List ι) (s : σ) (t : τ), R s t → Meets step cond s l →
      R (exec step s l) (exec step' t l) := by
  intro l
  induction l with
  | nil => intro s t hR _; exact hR
  | cons i l ih =>
    intro s t hR hm
    exact ih (step s i) (step' t i) (hstep s t i hR hm.1) hm.2

/-- An invariant that depends on the number of steps, for runs that are short enough. -/
theorem invariant_counted {step : σ → ι → σ} {cond : σ → ι → Prop} {bound : Nat}
    (Inv : Nat → σ → Prop)
    (hstep : ∀ n s i, n + 1 < bound → Inv n s → cond s i → Inv (n + 1) (step s i)) :
    ∀ (l : List ι) (n : Nat) (s : σ), n + l.length < bound → Inv n s → Meets step cond s l →
      Inv (n + l.length) (exec step s l) := by
  intro l
  induction l with
  | nil => intro n s _ hs _; exact hs
  | cons i l ih =>
    intro n s hlen hs hm
    rw [List.length_cons] at hlen
    have hrun := ih (n + 1) (step s i) (by omega) (hstep n s i (by omega) hs hm.1) hm.2
    rw [List.length_cons, Nat.add_comm l.length, ← Nat.add_assoc]
    exact hrun

/-- What each step keeps unless something happens in it holds at the end of a run, unless it
happened in the run. -/
theorem happens_or_invariant {step : σ → ι → σ} {cond happens : σ → ι → Prop} (Inv : σ → Prop)
    (hstep : ∀ s i, Inv s → cond s i → happens s i ∨ Inv (step s i)) :
    ∀ (l : List ι) (s : σ), Inv s → Meets step cond s l →
      (∃ l₁ i l₂, l = l₁ ++ i :: l₂ ∧ happens (exec step s l₁) i) ∨ Inv (exec step s l) := by
  intro l
  induction l with
  | nil => intro s hs _; exact .inr hs
  | cons i l ih =>
    intro s hs hm
    rcases hstep s i hs hm.1 with hnow | hs'
    · exact .inl ⟨[], i, l, rfl, hnow⟩
    · rcases ih (step s i) hs' hm.2 with ⟨l₁, j, l₂, rfl, hlater⟩ | hend
      · exact .inl ⟨i :: l₁, j, l₂, rfl, hlater⟩
      · exact .inr hend

/-- The outputs of a machine that answers each input. -/
def outputs (step : σ → ι → ω × σ) : σ → List ι → List ω
  | _, [] => []
  | s, i :: l => (step s i).1 :: outputs step (step s i).2 l

/-- The state after the inputs `l`, for a machine that answers each input. -/
def final (step : σ → ι → ω × σ) : σ → List ι → σ
  | s, [] => s
  | s, i :: l => final step (step s i).2 l

/--
**Lock-step simulation.**

Two machines whose states are related answer the same as long as every step meets `cond`, and
their final states are related again.
-/
theorem lockstep {step : σ → ι → ω × σ} {step' : τ → ι → ω × τ} (R : σ → τ → Prop)
    {cond : σ → ι → Prop}
    (hstep : ∀ s t i, R s t → cond s i →
      (step s i).1 = (step' t i).1 ∧ R (step s i).2 (step' t i).2) :
    ∀ (l : List ι) (s : σ) (t : τ), R s t → Meets (fun s i => (step s i).2) cond s l →
      outputs step s l = outputs step' t l ∧ R (final step s l) (final step' t l) := by
  intro l
  induction l with
  | nil => intro s t hR _; exact ⟨rfl, hR⟩
  | cons i l ih =>
    intro s t hR hm
    obtain ⟨ho, hR'⟩ := hstep s t i hR hm.1
    obtain ⟨hos, hRs⟩ := ih _ _ hR' hm.2
    refine ⟨?_, hRs⟩
    simp only [outputs, ho, hos]

end Run
