import EvNode.Lib.Crash

/-!
# What a procedure leaves alone

`Keeps view p`: however `p` ends, also by a crash, `view` shows the same before and after it. The
rules follow the structure of `p`.
-/

namespace Crash.Proc

variable {σ τ ρ ε α β : Type}

def Keeps (view : σ → ρ) (p : Proc σ ε α) : Prop := ∀ s, view (p s).2 = view s

variable {view : σ → ρ} {p : Proc σ ε α}

theorem keeps_pure (a : α) : Keeps view (Pure.pure a : Proc σ ε α) := fun _ => rfl

theorem keeps_throw (e : ε) : Keeps view (throw e : Proc σ ε α) := fun _ => rfl

theorem keeps_get {f : σ → Proc σ ε α} (h : ∀ s, Keeps view (f s)) : Keeps view (get >>= f) :=
  fun s => h s s

theorem keeps_modify {f : σ → σ} (h : ∀ s, view (f s) = view s) :
    Keeps view (modify f : Proc σ ε Unit) := h

theorem keeps_require (b : Bool) (e : ε) : Keeps view (require b e : Proc σ ε Unit) := by
  intro s
  unfold require
  cases b <;> rfl

theorem keeps_io {f : σ → σ} (o : Outcome) (e : ε)
    (h : ∀ s, view (f s) = view s) : Keeps view (io o e f : Proc σ ε Unit) := by
  intro s
  cases o with
  | ok => exact h s
  | fail | crash => rfl

theorem Keeps.bind {f : α → Proc σ ε β} (h : Keeps view p) (hf : ∀ a, Keeps view (f a)) :
    Keeps view (p >>= f) := by
  intro s
  have hs := h s
  rcases hp : p s with ⟨r, s'⟩
  rw [hp] at hs
  cases r with
  | ok a =>
    rw [bind_run_ok hp, hf a s']
    exact hs
  | error e =>
    rw [bind_run_error hp]
    exact hs
  | crash =>
    rw [bind_run_crash hp]
    exact hs

theorem Keeps.attempt (h : Keeps view p) : Keeps view (attempt p) := by
  intro s
  have hs := h s
  unfold Proc.attempt
  rcases hp : p s with ⟨r, s'⟩
  rw [hp] at hs
  cases r <;> exact hs

theorem Keeps.mapError (h : Keeps view p) (f : ε → ε) : Keeps view (mapError f p) := by
  intro s
  have hs := h s
  unfold Proc.mapError
  rcases hp : p s with ⟨r, s'⟩
  rw [hp] at hs
  cases r <;> exact hs

theorem Keeps.zoom {part : σ → τ} {put : τ → σ → σ} {view : τ → ρ} {q : Proc τ ε α}
    (h : Keeps view q) (hput : ∀ t s, part (put t s) = t) :
    Keeps (fun s => view (part s)) (zoom part put q) := by
  intro s
  have hs := h (part s)
  unfold Proc.zoom
  rcases hq : q (part s) with ⟨r, t⟩
  rw [hq] at hs
  dsimp only
  rw [hput]
  exact hs

end Crash.Proc
