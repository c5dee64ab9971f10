import Mathlib

/-!
# Procedures that fail or crash

A procedure runs over a state, part of which survives a crash of the process. It ends in one of
three ways: it returns a value, it returns an error, or the process dies on the way. In the last
two cases every write made before that point stays in the state.

* `Proc` — the procedures, as a monad
* `io` — one durable write, whose outcome the environment chooses
* `wp` — what holds after a run, with one postcondition for each way to end
* `Live` — a process that is up or down, over a state of which the memory part is stale when down

The rules `wp_*` execute a procedure symbolically. `wp_mono` weakens all three postconditions.
-/

namespace Crash

/-- What the environment lets one external action do. -/
inductive Outcome where
  | ok
  | fail
  | crash
  deriving DecidableEq, Repr

/-- The three ways a procedure ends. -/
inductive Exit (ε α : Type) where
  | ok (a : α)
  | error (e : ε)
  | crash
  deriving DecidableEq, Repr

def Proc (σ ε α : Type) : Type := σ → Exit ε α × σ

namespace Proc

variable {σ τ ε α β : Type}

protected def pure (a : α) : Proc σ ε α := fun s => (.ok a, s)

protected def bind (p : Proc σ ε α) (f : α → Proc σ ε β) : Proc σ ε β := fun s =>
  match p s with
  | (.ok a, s') => f a s'
  | (.error e, s') => (.error e, s')
  | (.crash, s') => (.crash, s')

instance : Monad (Proc σ ε) where
  pure := Proc.pure
  bind := Proc.bind

def get : Proc σ ε σ := fun s => (.ok s, s)

def modify (f : σ → σ) : Proc σ ε Unit := fun s => (.ok (), f s)

def throw (e : ε) : Proc σ ε α := fun s => (.error e, s)

/-- Go on when `b` holds, else return the error. -/
def require (b : Bool) (e : ε) : Proc σ ε Unit := fun s =>
  if b then (.ok (), s) else (.error e, s)

/-- One external action. Its effect `f` happens exactly when the outcome is `ok`. -/
def io (o : Outcome) (e : ε) (f : σ → σ) : Proc σ ε Unit := fun s =>
  match o with
  | .ok => (.ok (), f s)
  | .fail => (.error e, s)
  | .crash => (.crash, s)

/-- Run `p` and hand its error to the caller as a value. A crash cannot be caught. -/
def attempt (p : Proc σ ε α) : Proc σ ε (Except ε α) := fun s =>
  match p s with
  | (.ok a, s') => (.ok (.ok a), s')
  | (.error e, s') => (.ok (.error e), s')
  | (.crash, s') => (.crash, s')

def mapError (f : ε → ε) (p : Proc σ ε α) : Proc σ ε α := fun s =>
  match p s with
  | (.ok a, s') => (.ok a, s')
  | (.error e, s') => (.error (f e), s')
  | (.crash, s') => (.crash, s')

/-- Run a procedure on a part of the state. -/
def zoom (view : σ → τ) (put : τ → σ → σ) (p : Proc τ ε α) : Proc σ ε α := fun s =>
  ((p (view s)).1, put (p (view s)).2 s)

/-! ## Running a sequence -/

@[simp] theorem pure_bind_run (a : α) (f : α → Proc σ ε β) (s : σ) :
    ((Pure.pure a : Proc σ ε α) >>= f) s = f a s := rfl

@[simp] theorem get_bind_run (f : σ → Proc σ ε β) (s : σ) :
    ((get : Proc σ ε σ) >>= f) s = f s s := rfl

@[simp] theorem modify_bind_run (g : σ → σ) (f : Unit → Proc σ ε β) (s : σ) :
    ((modify g : Proc σ ε Unit) >>= f) s = f () (g s) := rfl

theorem bind_run_congr {p q : Proc σ ε α} (f : α → Proc σ ε β) {s : σ} (h : p s = q s) :
    (p >>= f) s = (q >>= f) s := by
  show Proc.bind p f s = Proc.bind q f s
  unfold Proc.bind
  rw [h]

theorem bind_run_ok {p : Proc σ ε α} {f : α → Proc σ ε β} {s s' : σ} {a : α}
    (h : p s = (.ok a, s')) : (p >>= f) s = f a s' := by
  show Proc.bind p f s = _
  unfold Proc.bind
  rw [h]

theorem bind_run_error {p : Proc σ ε α} {f : α → Proc σ ε β} {s s' : σ} {e : ε}
    (h : p s = (.error e, s')) : (p >>= f) s = (.error e, s') := by
  show Proc.bind p f s = _
  unfold Proc.bind
  rw [h]

theorem bind_run_crash {p : Proc σ ε α} {f : α → Proc σ ε β} {s s' : σ}
    (h : p s = (.crash, s')) : (p >>= f) s = (.crash, s') := by
  show Proc.bind p f s = _
  unfold Proc.bind
  rw [h]

/-- A procedure that returns no value ends the sequence. -/
theorem bind_run_stop {p : Proc σ ε α} (f : α → Proc σ ε β) {r : Exit ε α} {s s' : σ}
    (h : p s = (r, s')) (hr : ∀ a, r ≠ .ok a) :
    ∃ r' : Exit ε β, (∀ b, r' ≠ .ok b) ∧ (p >>= f) s = (r', s') := by
  cases r with
  | ok a => exact absurd rfl (hr a)
  | error e => exact ⟨.error e, nofun, bind_run_error h⟩
  | crash => exact ⟨.crash, nofun, bind_run_crash h⟩

theorem require_run_true {b : Bool} (h : b = true) (e : ε) (s : σ) :
    (require b e : Proc σ ε Unit) s = (.ok (), s) := by
  unfold require
  rw [if_pos h]

theorem require_run_false {b : Bool} (h : b = false) (e : ε) (s : σ) :
    (require b e : Proc σ ε Unit) s = (.error e, s) := by
  unfold require
  rw [if_neg (by simp [h])]

theorem attempt_run_congr {p q : Proc σ ε α} {s : σ} (h : p s = q s) :
    attempt p s = attempt q s := by
  unfold attempt
  rw [h]

theorem attempt_run_ok {p : Proc σ ε α} {s s' : σ} {a : α} (h : p s = (.ok a, s')) :
    attempt p s = (.ok (.ok a), s') := by
  unfold attempt
  rw [h]

theorem attempt_run_error {p : Proc σ ε α} {s s' : σ} {e : ε} (h : p s = (.error e, s')) :
    attempt p s = (.ok (.error e), s') := by
  unfold attempt
  rw [h]

theorem attempt_run_crash {p : Proc σ ε α} {s s' : σ} (h : p s = (.crash, s')) :
    attempt p s = (.crash, s') := by
  unfold attempt
  rw [h]

theorem mapError_run_ok {g : ε → ε} {p : Proc σ ε α} {s s' : σ} {a : α} (h : p s = (.ok a, s')) :
    mapError g p s = (.ok a, s') := by
  unfold mapError
  rw [h]

theorem mapError_run_error {g : ε → ε} {p : Proc σ ε α} {s s' : σ} {e : ε}
    (h : p s = (.error e, s')) : mapError g p s = (.error (g e), s') := by
  unfold mapError
  rw [h]

theorem mapError_run_stop (g : ε → ε) {p : Proc σ ε α} {r : Exit ε α} {s s' : σ}
    (h : p s = (r, s')) (hr : ∀ a, r ≠ .ok a) :
    ∃ r' : Exit ε α, (∀ a, r' ≠ .ok a) ∧ mapError g p s = (r', s') := by
  unfold mapError
  rw [h]
  cases r with
  | ok a => exact absurd rfl (hr a)
  | error e => exact ⟨.error (g e), nofun, rfl⟩
  | crash => exact ⟨.crash, nofun, rfl⟩

theorem mapError_run_crash {g : ε → ε} {p : Proc σ ε α} {s s' : σ} (h : p s = (.crash, s')) :
    mapError g p s = (.crash, s') := by
  unfold mapError
  rw [h]

/-! ## Weakest preconditions -/

/-- `p` run from `s` ends in `Q` with its value, in `E` with its error, or in `C` by a crash. -/
def wp (p : Proc σ ε α) (Q : α → σ → Prop) (E : ε → σ → Prop) (C : σ → Prop) (s : σ) : Prop :=
  match p s with
  | (.ok a, s') => Q a s'
  | (.error e, s') => E e s'
  | (.crash, s') => C s'

variable {Q Q' : α → σ → Prop} {E E' : ε → σ → Prop} {C C' : σ → Prop} {s : σ}

theorem wp_mono {p : Proc σ ε α} (h : wp p Q E C s) (hQ : ∀ a s', Q a s' → Q' a s')
    (hE : ∀ e s', E e s' → E' e s') (hC : ∀ s', C s' → C' s') : wp p Q' E' C' s := by
  unfold wp at h ⊢
  rcases hp : p s with ⟨r, s'⟩
  rw [hp] at h
  cases r with
  | ok a => exact hQ a s' h
  | error e => exact hE e s' h
  | crash => exact hC s' h

theorem wp_imp {p : Proc σ ε α} (h : wp p Q E C s) (hQ : ∀ a s', Q a s' → Q' a s') :
    wp p Q' E C s :=
  wp_mono h hQ (fun _ _ h => h) (fun _ h => h)

theorem wp_ok {p : Proc σ ε α} (h : wp p Q E C s) {a : α} {s' : σ} (hr : p s = (.ok a, s')) :
    Q a s' := by
  unfold wp at h
  rw [hr] at h
  exact h

theorem wp_error {p : Proc σ ε α} (h : wp p Q E C s) {e : ε} {s' : σ}
    (hr : p s = (.error e, s')) : E e s' := by
  unfold wp at h
  rw [hr] at h
  exact h

theorem wp_crash {p : Proc σ ε α} (h : wp p Q E C s) {s' : σ} (hr : p s = (.crash, s')) :
    C s' := by
  unfold wp at h
  rw [hr] at h
  exact h

theorem wp_of_ok {p : Proc σ ε α} {a : α} {s' : σ} (hr : p s = (.ok a, s')) (h : Q a s') :
    wp p Q E C s := by
  unfold wp
  rw [hr]
  exact h

theorem wp_of_error {p : Proc σ ε α} {e : ε} {s' : σ} (hr : p s = (.error e, s')) (h : E e s') :
    wp p Q E C s := by
  unfold wp
  rw [hr]
  exact h

theorem wp_of_crash {p : Proc σ ε α} {s' : σ} (hr : p s = (.crash, s')) (h : C s') :
    wp p Q E C s := by
  unfold wp
  rw [hr]
  exact h

theorem wp_and {p : Proc σ ε α} (h : wp p Q E C s) (h' : wp p Q' E' C' s) :
    wp p (fun a s' => Q a s' ∧ Q' a s') (fun e s' => E e s' ∧ E' e s')
      (fun s' => C s' ∧ C' s') s := by
  unfold wp at h h' ⊢
  rcases hp : p s with ⟨r, s'⟩
  rw [hp] at h h'
  cases r <;> exact ⟨h, h'⟩

/-- A property of the state that holds however the run ends. -/
theorem wp_of_state {p : Proc σ ε α} {I D : σ → Prop} (h : I (p s).2) (hD : ∀ s, I s → D s) :
    wp p (fun _ => I) (fun _ => I) D s := by
  unfold wp
  rcases hp : p s with ⟨r, s'⟩
  rw [hp] at h
  cases r with
  | ok a | error e => exact h
  | crash => exact hD s' h

theorem state_of_wp {p : Proc σ ε α} {I : σ → Prop} (h : wp p (fun _ => I) (fun _ => I) I s) :
    I (p s).2 := by
  unfold wp at h
  rcases hp : p s with ⟨r, s'⟩
  rw [hp] at h
  cases r <;> exact h

/-- A property of the state after a run that does not crash, and one after every run. -/
theorem wp_of_ends {p : Proc σ ε α} {I D : σ → Prop}
    (h : ∀ r s', p s = (r, s') → (r ≠ .crash → I s') ∧ D s') :
    wp p (fun _ => I) (fun _ => I) D s := by
  unfold wp
  rcases hp : p s with ⟨r, s'⟩
  obtain ⟨hI, hD⟩ := h r s' hp
  cases r with
  | ok a | error e => exact hI (by simp)
  | crash => exact hD

@[simp] theorem wp_pure (a : α) : wp (Pure.pure a : Proc σ ε α) Q E C s ↔ Q a s := Iff.rfl

@[simp] theorem wp_bind (p : Proc σ ε α) (f : α → Proc σ ε β) {R : β → σ → Prop} :
    wp (p >>= f) R E C s ↔ wp p (fun a s' => wp (f a) R E C s') E C s := by
  show wp (Proc.bind p f) R E C s ↔ _
  unfold wp Proc.bind
  rcases hp : p s with ⟨r, s'⟩
  cases r <;> exact Iff.rfl

@[simp] theorem wp_get {Q : σ → σ → Prop} : wp (get : Proc σ ε σ) Q E C s ↔ Q s s := Iff.rfl

@[simp] theorem wp_modify (f : σ → σ) {Q : Unit → σ → Prop} :
    wp (modify f : Proc σ ε Unit) Q E C s ↔ Q () (f s) := Iff.rfl

@[simp] theorem wp_throw (e : ε) : wp (throw e : Proc σ ε α) Q E C s ↔ E e s := Iff.rfl

@[simp] theorem wp_require (b : Bool) (e : ε) {Q : Unit → σ → Prop} :
    wp (require b e : Proc σ ε Unit) Q E C s ↔ (b = true → Q () s) ∧ (b = false → E e s) := by
  cases b <;> simp [wp, require]

@[simp] theorem wp_io (o : Outcome) (e : ε) (f : σ → σ) {Q : Unit → σ → Prop} :
    wp (io o e f : Proc σ ε Unit) Q E C s ↔
      (o = .ok → Q () (f s)) ∧ (o = .fail → E e s) ∧ (o = .crash → C s) := by
  cases o <;> simp [wp, io]

@[simp] theorem wp_attempt (p : Proc σ ε α) {Q : Except ε α → σ → Prop} :
    wp (attempt p) Q E C s ↔
      wp p (fun a s' => Q (.ok a) s') (fun e s' => Q (.error e) s') C s := by
  unfold wp attempt
  rcases hp : p s with ⟨r, s'⟩
  cases r <;> exact Iff.rfl

@[simp] theorem wp_mapError (f : ε → ε) (p : Proc σ ε α) :
    wp (mapError f p) Q E C s ↔ wp p Q (fun e s' => E (f e) s') C s := by
  unfold wp mapError
  rcases hp : p s with ⟨r, s'⟩
  cases r <;> exact Iff.rfl

theorem wp_zoom (view : σ → τ) (put : τ → σ → σ) (p : Proc τ ε α) :
    wp (zoom view put p) Q E C s ↔
      wp p (fun a t => Q a (put t s)) (fun e t => E e (put t s)) (fun t => C (put t s))
        (view s) := by
  unfold wp zoom
  rcases hp : p (view s) with ⟨r, t⟩
  cases r <;> simp

end Proc

/-! ## Processes -/

/-- A process. When it is down, only the durable part of the state means anything. -/
structure Live (σ : Type) where
  up : Bool
  state : σ

namespace Live

variable {σ ε α : Type}

/-- Call a procedure of a running process. A crash takes the process down. -/
def call (p : Proc σ ε α) (l : Live σ) : Live σ :=
  if l.up then
    match p l.state with
    | (.ok _, s) => ⟨true, s⟩
    | (.error _, s) => ⟨true, s⟩
    | (.crash, s) => ⟨false, s⟩
  else l

/-- Start a process that is down. It is up when the start succeeds. -/
def boot (p : Proc σ ε α) (l : Live σ) : Live σ :=
  if l.up then l
  else
    match p l.state with
    | (.ok _, s) => ⟨true, s⟩
    | (.error _, s) => ⟨false, s⟩
    | (.crash, s) => ⟨false, s⟩

def halt (l : Live σ) : Live σ := ⟨false, l.state⟩

theorem call_up {p : Proc σ ε α} {l : Live σ} (h : l.up = true) :
    (l.call p).state = (p l.state).2 := by
  unfold call
  rw [if_pos h]
  rcases p l.state with ⟨r, s⟩
  cases r <;> rfl

theorem call_down {p : Proc σ ε α} {l : Live σ} (h : l.up = false) : l.call p = l := by
  unfold call
  rw [if_neg (by simp [h])]

theorem call_state {P : σ → Prop} {p : Proc σ ε α} {l : Live σ} (h : P l.state)
    (hp : l.up = true → P (p l.state).2) : P (l.call p).state := by
  cases hup : l.up with
  | true => exact call_up hup ▸ hp hup
  | false => exact (call_down hup).symm ▸ h

theorem boot_up {p : Proc σ ε α} {l : Live σ} (h : l.up = true) : l.boot p = l := by
  unfold boot
  rw [if_pos h]

theorem boot_down_state {p : Proc σ ε α} {l : Live σ} (h : l.up = false) :
    (l.boot p).state = (p l.state).2 := by
  unfold boot
  rw [if_neg (by simp [h])]
  rcases p l.state with ⟨_ | _ | _, s⟩ <;> rfl

theorem boot_ok {p : Proc σ ε α} {l : Live σ} (hdown : l.up = false) (hup : (l.boot p).up = true) :
    ∃ a s, p l.state = (.ok a, s) ∧ l.boot p = ⟨true, s⟩ := by
  unfold boot at hup ⊢
  rw [if_neg (by simp [hdown])] at hup ⊢
  rcases hr : p l.state with ⟨r, s⟩
  rw [hr] at hup
  cases r with
  | ok a => exact ⟨a, s, rfl, rfl⟩
  | error e | crash => cases hup

theorem up_of_call {p : Proc σ ε α} {l : Live σ} (h : (l.call p).up = true) : l.up = true := by
  unfold call at h
  cases hup : l.up with
  | true => rfl
  | false =>
    rw [if_neg (by simp [hup]), hup] at h
    exact h

/-- `I` holds of a running process and `D` of the durable part when it is down. -/
def Holds (I D : σ → Prop) (l : Live σ) : Prop :=
  (l.up = true → I l.state) ∧ (l.up = false → D l.state)

variable {I D : σ → Prop} {l : Live σ}

theorem call_holds {p : Proc σ ε α} (hdown : l.up = false → D l.state)
    (hp : l.up = true → p.wp (fun _ => I) (fun _ => I) D l.state) : (l.call p).Holds I D := by
  unfold Live.call
  cases hup : l.up with
  | false =>
    rw [if_neg Bool.false_ne_true]
    exact ⟨fun hf => absurd hf (by simp [hup]), hdown⟩
  | true =>
    have hw := hp hup
    unfold Proc.wp at hw
    rw [if_pos rfl]
    rcases hr : p l.state with ⟨r, s⟩
    rw [hr] at hw
    cases r with
    | ok a | error e => exact ⟨fun _ => hw, fun hf => absurd hf (by simp)⟩
    | crash => exact ⟨fun hf => absurd hf (by simp), fun _ => hw⟩

theorem Holds.call {p : Proc σ ε α} (h : l.Holds I D)
    (hp : I l.state → p.wp (fun _ => I) (fun _ => I) D l.state) : (l.call p).Holds I D :=
  call_holds h.2 fun hup => hp (h.1 hup)

theorem Holds.boot {p : Proc σ ε α} (h : l.Holds I D)
    (hp : D l.state → p.wp (fun _ => I) (fun _ => D) D l.state) : (l.boot p).Holds I D := by
  unfold Live.boot
  cases hup : l.up with
  | true =>
    rw [if_pos rfl]
    exact h
  | false =>
    have hw := hp (h.2 hup)
    unfold Proc.wp at hw
    rw [if_neg Bool.false_ne_true]
    rcases hr : p l.state with ⟨r, s⟩
    rw [hr] at hw
    cases r with
    | ok a => exact ⟨fun _ => hw, fun hf => absurd hf (by simp)⟩
    | error e | crash => exact ⟨fun hf => absurd hf (by simp), fun _ => hw⟩

theorem Holds.of_both (h : l.Holds I D) (hID : ∀ s, I s → D s) : D l.state := by
  cases hup : l.up with
  | true => exact hID _ (h.1 hup)
  | false => exact h.2 hup

theorem Holds.halt (h : l.Holds I D) (hID : ∀ s, I s → D s) : l.halt.Holds I D :=
  ⟨fun hf => absurd hf (by simp [Live.halt]), fun _ => h.of_both hID⟩

/-- A call with which the process ends. -/
theorem Holds.call_halt {p : Proc σ ε α} (h : l.Holds I D) (hID : ∀ s, I s → D s)
    (hp : l.up = true → D (p l.state).2) : (l.call p).halt.Holds I D :=
  ⟨fun hf => absurd hf (by simp [Live.halt]), fun _ => call_state (h.of_both hID) hp⟩

end Live

end Crash
