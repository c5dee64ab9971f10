import Mathlib

/-!
# A counter whose values are claimed by workers

Workers share a counter. A worker claims the value of the counter by incrementing it, works on the
value, and then either finishes it or sets the counter back to it. `Covered` says what the counter is
for: every value below it is finished or claimed.

Setting the counter back keeps this only when it does not set it forward.
-/

namespace Claims

variable {κ : Type} [DecidableEq κ]

structure State (κ : Type) where
  counter : Nat
  claimed : κ → Option Nat
  finished : Set Nat

inductive Step (s : State κ) : State κ → Prop
  | claim (k : κ) (hk : s.claimed k = none) :
    Step s { s with
      counter := s.counter + 1
      claimed := Function.update s.claimed k (some s.counter) }
  | finish (k : κ) (v : Nat) (hk : s.claimed k = some v) :
    Step s { s with
      claimed := Function.update s.claimed k none
      finished := insert v s.finished }
  | setBack (k : κ) (v : Nat) (hk : s.claimed k = some v) (hv : v ≤ s.counter) :
    Step s { s with
      counter := v
      claimed := Function.update s.claimed k none }

/-- Every value from `start` to the counter is finished or claimed. -/
def State.Covered (start : Nat) (s : State κ) : Prop :=
  ∀ v, start ≤ v → v < s.counter → v ∈ s.finished ∨ ∃ k, s.claimed k = some v

variable {s s' : State κ} {start : Nat}

/-- A claim other than that of `k` stays. -/
theorem claimed_of_ne {k : κ} {v w : Nat} (hk : s.claimed k = some v) (hne : w ≠ v)
    (h : ∃ j, s.claimed j = some w) (r : Option Nat) :
    ∃ j, Function.update s.claimed k r j = some w := by
  obtain ⟨j, hj⟩ := h
  have hjk : j ≠ k := by
    rintro rfl
    exact hne (Option.some.inj (hj.symm.trans hk))
  exact ⟨j, by rw [Function.update_of_ne hjk, hj]⟩

theorem Step.covered (h : Step s s') (hs : s.Covered start) : s'.Covered start := by
  intro w hstart hlt
  cases h with
  | claim k hk =>
    by_cases hw : w = s.counter
    · exact .inr ⟨k, by simp [hw]⟩
    · have hlt : w < s.counter + 1 := hlt
      refine (hs w hstart (by omega)).imp_right ?_
      rintro ⟨j, hj⟩
      have hjk : j ≠ k := by
        rintro rfl
        rw [hk] at hj
        cases hj
      exact ⟨j, by simp [Function.update_of_ne hjk, hj]⟩
  | finish k v hk =>
    by_cases hw : w = v
    · exact .inl (.inl hw)
    · rcases hs w hstart hlt with hfin | hcl
      · exact .inl (.inr hfin)
      · exact .inr (claimed_of_ne hk hw hcl none)
  | setBack k v hk hv =>
    have hlt : w < v := hlt
    refine (hs w hstart (by omega)).imp_right fun hcl => ?_
    exact claimed_of_ne hk (by omega) hcl none

end Claims
