import EvNode.Lib.Crash

/-!
# Histories

A procedure can be run on states that record what happened. `Erases view p q` says that `p`, without
its records, is `q`. What the records of `p` show is then true of the runs of `q`.
-/

namespace Crash

variable {σ τ ε α β : Type}

namespace Proc

/-- `p` ends as `q` does, in a state that `view` maps to the state `q` ends in. -/
def Erases (view : σ → τ) (p : Proc σ ε α) (q : Proc τ ε α) : Prop :=
  ∀ s, q (view s) = ((p s).1, view (p s).2)

variable {view : σ → τ} {p : Proc σ ε α} {q : Proc τ ε α}

theorem erases_pure (a : α) : Erases view (Pure.pure a : Proc σ ε α) (Pure.pure a : Proc τ ε α) :=
  fun _ => rfl

theorem Erases.bind {f : α → Proc σ ε β} {g : α → Proc τ ε β} (h : Erases view p q)
    (hf : ∀ a, Erases view (f a) (g a)) : Erases view (p >>= f) (q >>= g) := by
  intro s
  have hs := h s
  rcases hp : p s with ⟨r, s'⟩
  rw [hp] at hs
  cases r with
  | ok a =>
    rw [bind_run_ok hp, bind_run_ok hs]
    exact hf a s'
  | error e => rw [bind_run_error hp, bind_run_error hs]
  | crash => rw [bind_run_crash hp, bind_run_crash hs]

theorem erases_get {f : σ → Proc σ ε α} {g : τ → Proc τ ε α}
    (h : ∀ s, Erases view (f s) (g (view s))) : Erases view (get >>= f) (get >>= g) :=
  fun s => h s s

theorem erases_get_left {f : σ → Proc σ ε α} (h : ∀ s, Erases view (f s) q) :
    Erases view (get >>= f) q :=
  fun s => h s s

/-- A record is made before `p`. -/
theorem Erases.after_record {f : σ → σ} (h : Erases view p q) (hf : ∀ s, view (f s) = view s) :
    Erases view (modify f >>= fun _ => p) q := by
  intro s
  rw [modify_bind_run, ← hf s]
  exact h (f s)

/-- A record is made when `p` returns. -/
theorem Erases.record {f : α → σ → σ} (h : Erases view p q) (hf : ∀ a s, view (f a s) = view s) :
    Erases view (do let a ← p; modify (f a); Pure.pure a) q := by
  intro s
  have hs := h s
  rcases hp : p s with ⟨r, s'⟩
  rw [hp] at hs
  rw [hs]
  cases r with
  | ok a =>
    rw [bind_run_ok hp, modify_bind_run]
    exact Prod.ext rfl (hf a s').symm
  | error e => rw [bind_run_error hp]
  | crash => rw [bind_run_crash hp]

theorem erases_zoom {put : τ → σ → σ} (hput : ∀ t s, view (put t s) = t) (q : Proc τ ε α) :
    Erases view (zoom view put q) q := by
  intro s
  unfold zoom
  rcases q (view s) with ⟨r, t⟩
  exact Prod.ext rfl (hput t s).symm

theorem erases_modify {f : σ → σ} {g : τ → τ} (h : ∀ s, g (view s) = view (f s)) :
    Erases view (modify f : Proc σ ε Unit) (modify g) :=
  fun s => Prod.ext rfl (h s)

theorem erases_throw (e : ε) : Erases view (throw e : Proc σ ε α) (throw e : Proc τ ε α) :=
  fun _ => rfl

theorem erases_require (b : Bool) (e : ε) :
    Erases view (require b e : Proc σ ε Unit) (require b e) := by
  intro s
  cases b <;> rfl

theorem erases_io {f : σ → σ} {g : τ → τ} (o : Outcome) (e : ε)
    (h : ∀ s, g (view s) = view (f s)) : Erases view (io o e f : Proc σ ε Unit) (io o e g) := by
  intro s
  cases o with
  | ok => exact Prod.ext rfl (h s)
  | fail | crash => rfl

/-- Both run `q` on a part that `view` leaves alone. -/
theorem erases_part {ρ : Type} {part : σ → ρ} {part' : τ → ρ} {put : ρ → σ → σ} {put' : ρ → τ → τ}
    (hpart : ∀ s, part' (view s) = part s) (hput : ∀ t s, put' t (view s) = view (put t s))
    (q : Proc ρ ε α) : Erases view (zoom part put q) (zoom part' put' q) := by
  intro s
  unfold zoom
  rw [hpart]
  exact Prod.ext rfl (hput _ s)

theorem Erases.mapError (h : Erases view p q) (f : ε → ε) :
    Erases view (mapError f p) (mapError f q) := by
  intro s
  have hs := h s
  unfold Proc.mapError
  rcases hp : p s with ⟨r, s'⟩
  rw [hp] at hs
  rw [hs]
  cases r <;> rfl

theorem Erases.attempt (h : Erases view p q) : Erases view (attempt p) (attempt q) := by
  intro s
  have hs := h s
  unfold Proc.attempt
  rcases hp : p s with ⟨r, s'⟩
  rw [hp] at hs
  rw [hs]
  cases r <;> rfl

end Proc

namespace Live

/-- The process without its records. -/
def map (view : σ → τ) (l : Live σ) : Live τ := ⟨l.up, view l.state⟩

variable {view : σ → τ} {p : Proc σ ε α} {q : Proc τ ε α}

theorem map_call (h : Proc.Erases view p q) (l : Live σ) :
    (l.map view).call q = (l.call p).map view := by
  have hs := h l.state
  unfold call map
  cases hup : l.up with
  | false => rw [if_neg Bool.false_ne_true, if_neg Bool.false_ne_true, hup]
  | true =>
    rw [if_pos rfl, if_pos rfl]
    rcases hp : p l.state with ⟨r, s⟩
    rw [hp] at hs
    dsimp only at hs ⊢
    rw [hs]
    cases r <;> rfl

theorem map_boot (h : Proc.Erases view p q) (l : Live σ) :
    (l.map view).boot q = (l.boot p).map view := by
  have hs := h l.state
  unfold boot map
  cases hup : l.up with
  | true => rw [if_pos rfl, if_pos rfl, hup]
  | false =>
    rw [if_neg Bool.false_ne_true, if_neg Bool.false_ne_true]
    rcases hp : p l.state with ⟨r, s⟩
    rw [hp] at hs
    dsimp only at hs ⊢
    rw [hs]
    cases r <;> rfl

theorem map_halt (view : σ → τ) (l : Live σ) : (l.map view).halt = l.halt.map view := rfl

end Live

end Crash
