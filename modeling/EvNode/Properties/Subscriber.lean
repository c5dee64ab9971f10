import EvNode.Da.Subscriber
import EvNode.Lib.Claims
import EvNode.Lib.Run

/-!
# When the subscriber skips a DA height

The two processes of the subscriber claim DA heights through `localDAHeight`. Each of them rolls
back by a plain store of the height it claimed. When both hold a claim and both fail, the first
store sets the counter below the second, and the second one sets it forward over a height that
nobody has handled.

As long as this does not happen, the subscriber refines the shared counter of `Lib.Claims`.
-/

namespace EvNode

/-- The two processes. -/
inductive Subscriber.Worker where
  | follow
  | catchup
  deriving DecidableEq

/-- The height that the catch-up loop has claimed: its handler call runs, or has failed and is not
rolled back yet. -/
def CatchupAt.claim : CatchupAt → Option Nat
  | .handling localHeight _ => some localHeight
  | .failed localHeight _ _ => some localHeight
  | _ => none

/-- The height that the subscription has claimed. -/
def FollowAt.claim : FollowAt → Option Nat
  | .handling height true => some height
  | .failed height => some height
  | _ => none

namespace Subscriber

def claim (s : Subscriber) : Worker → Option Nat
  | .follow => s.follow.claim
  | .catchup => s.catchup.claim

/-- The subscriber as a counter with claims. -/
def claims (s : Subscriber) : Claims.State Worker where
  counter := s.localDAHeight
  claimed := s.claim
  finished := { h | h ∈ s.handled }

/-- A rollback does not set `localDAHeight` forward. -/
def RollsBack (s : Subscriber) : Op → Prop
  | .followRollback => s.followRollback.localDAHeight ≤ s.localDAHeight
  | .catchupRollback => s.catchupRollback.localDAHeight ≤ s.localDAHeight
  | _ => True

instance (s : Subscriber) (op : Op) : Decidable (s.RollsBack op) := by
  cases op <;> dsimp only [RollsBack] <;> infer_instance

/-! ## Refinement -/

variable {s s' : Subscriber} {k : Worker} {v : Nat}

/-- Process `k` has the claim `r` now, and the other process keeps its own. -/
structure ClaimMoved (k : Worker) (r : Option Nat) (s s' : Subscriber) : Prop where
  self : s'.claim k = r
  other : ∀ j, j ≠ k → s'.claim j = s.claim j

theorem ClaimMoved.claim_eq {r : Option Nat} (h : ClaimMoved k r s s') :
    s'.claim = Function.update s.claim k r := by
  funext j
  by_cases hj : j = k
  · rw [hj, Function.update_self, h.self]
  · rw [Function.update_of_ne hj, h.other j hj]

theorem claims_eq (hlocal : s'.localDAHeight = s.localDAHeight)
    (hfollow : s'.follow.claim = s.follow.claim) (hcatchup : s'.catchup.claim = s.catchup.claim)
    (hhandled : s'.handled = s.handled) : s'.claims = s.claims := by
  have hclaim : s'.claim = s.claim := by
    funext j
    cases j with
    | follow => exact hfollow
    | catchup => exact hcatchup
  unfold claims
  rw [hlocal, hclaim, hhandled]

theorem claims_step_claim (hk : s.claim k = none) (hlocal : s'.localDAHeight = s.localDAHeight + 1)
    (hmoved : ClaimMoved k (some s.localDAHeight) s s') (hhandled : s'.handled = s.handled) :
    Claims.Step s.claims s'.claims := by
  have heq : s'.claims = { s.claims with
      counter := s.localDAHeight + 1
      claimed := Function.update s.claim k (some s.localDAHeight) } := by
    unfold claims
    rw [hlocal, hmoved.claim_eq, hhandled]
  rw [heq]
  exact .claim k hk

theorem claims_step_finish (hk : s.claim k = some v) (hlocal : s'.localDAHeight = s.localDAHeight)
    (hmoved : ClaimMoved k none s s') (hhandled : s'.handled = v :: s.handled) :
    Claims.Step s.claims s'.claims := by
  have heq : s'.claims = { s.claims with
      claimed := Function.update s.claim k none
      finished := insert v { h | h ∈ s.handled } } := by
    unfold claims
    rw [hlocal, hmoved.claim_eq, hhandled]
    congr 1
    ext h
    simp
  rw [heq]
  exact .finish k v hk

theorem claims_step_setBack (hk : s.claim k = some v) (hlocal : s'.localDAHeight = v)
    (hback : s'.localDAHeight ≤ s.localDAHeight) (hmoved : ClaimMoved k none s s')
    (hhandled : s'.handled = s.handled) : Claims.Step s.claims s'.claims := by
  have heq : s'.claims = { s.claims with
      counter := v
      claimed := Function.update s.claim k none } := by
    unfold claims
    rw [hlocal, hmoved.claim_eq, hhandled]
  rw [heq]
  exact .setBack k v hk (hlocal ▸ hback)

/-- A step of the follow process leaves the claim of the catch-up loop. -/
theorem moved_follow {r : Option Nat} (hself : s'.follow.claim = r)
    (hcatchup : s'.catchup = s.catchup) : ClaimMoved .follow r s s' := by
  refine ⟨hself, fun j hj => ?_⟩
  cases j with
  | follow => exact absurd rfl hj
  | catchup => simp [claim, hcatchup]

theorem moved_catchup {r : Option Nat} (hself : s'.catchup.claim = r)
    (hfollow : s'.follow = s.follow) : ClaimMoved .catchup r s s' := by
  refine ⟨hself, fun j hj => ?_⟩
  cases j with
  | follow => simp [claim, hfollow]
  | catchup => exact absurd rfl hj

/-- What a step can do to the counter and the claims. -/
def Refines (s s' : Subscriber) : Prop := s'.claims = s.claims ∨ Claims.Step s.claims s'.claims

theorem claims_updateHighest (height : Nat) (s : Subscriber) :
    (s.updateHighest height).claims = s.claims := by
  unfold updateHighest
  split <;> rfl

theorem refines_poll (height : Nat) (s : Subscriber) : s.Refines (s.poll height) := by
  unfold poll
  split
  · exact .inl rfl
  · exact .inl (claims_updateHighest height _)

theorem refines_receive (height : Nat) (s : Subscriber) : s.Refines (s.receive height) := by
  unfold receive
  cases hf : s.follow with
  | waiting =>
    left
    rw [claims_updateHighest]
    exact claims_eq rfl (by rw [hf]; rfl) rfl rfl
  | _ => exact .inl rfl

theorem refines_followLoad (s : Subscriber) : s.Refines s.followLoad := by
  unfold followLoad
  cases hf : s.follow with
  | received height => exact .inl (claims_eq rfl (by rw [hf]; rfl) rfl rfl)
  | _ => exact .inl rfl

theorem refines_followSwap (s : Subscriber) : s.Refines s.followSwap := by
  unfold followSwap
  cases hf : s.follow with
  | loaded height localHeight =>
    dsimp only
    split
    · next h =>
      obtain ⟨rfl, hlocal⟩ := h
      refine .inr (claims_step_claim (k := .follow) ?_ (by rw [hlocal]) (moved_follow ?_ rfl) rfl)
      · simp [claim, hf, FollowAt.claim]
      · simp [FollowAt.claim, hlocal]
    · exact .inl (claims_eq rfl (by rw [hf]; rfl) rfl rfl)
  | _ => exact .inl rfl

theorem refines_followReturn (err : Option Err) (s : Subscriber) :
    s.Refines (s.followReturn err) := by
  unfold followReturn
  cases hf : s.follow with
  | handling height isInline =>
    cases isInline with
    | false => exact .inl (claims_eq rfl (by rw [hf]; rfl) rfl rfl)
    | true =>
      cases err with
      | none =>
        refine .inr (claims_step_finish (k := .follow) (v := height) ?_ rfl (moved_follow rfl rfl) rfl)
        simp [claim, hf, FollowAt.claim]
      | some e => exact .inl (claims_eq rfl (by rw [hf]; rfl) rfl rfl)
  | _ => exact .inl rfl

theorem refines_followHead (s : Subscriber) : s.Refines s.followHead := by
  unfold followHead
  cases hf : s.follow with
  | succeeded height => exact .inl (claims_eq rfl (by rw [hf]; rfl) rfl rfl)
  | _ => exact .inl rfl

theorem refines_followRollback (h : s.RollsBack .followRollback) : s.Refines s.followRollback := by
  unfold RollsBack at h
  unfold followRollback at h ⊢
  cases hf : s.follow with
  | failed height =>
    rw [hf] at h
    refine .inr (claims_step_setBack (k := .follow) (v := height) ?_ rfl h (moved_follow rfl rfl) rfl)
    simp [claim, hf, FollowAt.claim]
  | _ => exact .inl rfl

theorem refines_wake (s : Subscriber) : s.Refines s.wake := by
  unfold wake
  cases hc : s.catchup with
  | waiting =>
    dsimp only
    split
    · exact .inl (claims_eq rfl rfl (by rw [hc]; rfl) rfl)
    · exact .inl rfl
  | _ => exact .inl rfl

theorem refines_catchupLoad (cancelled : Bool) (s : Subscriber) :
    s.Refines (s.catchupLoad cancelled) := by
  unfold catchupLoad
  cases hc : s.catchup with
  | top =>
    dsimp only
    split <;> exact .inl (claims_eq rfl rfl (by rw [hc]; rfl) rfl)
  | _ => exact .inl rfl

theorem refines_catchupLoadHighest (s : Subscriber) : s.Refines s.catchupLoadHighest := by
  unfold catchupLoadHighest
  cases hc : s.catchup with
  | loaded localHeight =>
    dsimp only
    split <;> exact .inl (claims_eq rfl rfl (by rw [hc]; rfl) rfl)
  | _ => exact .inl rfl

theorem refines_catchupSwap (s : Subscriber) : s.Refines s.catchupSwap := by
  unfold catchupSwap
  cases hc : s.catchup with
  | behind localHeight highest =>
    dsimp only
    split
    · next hlocal =>
      refine .inr (claims_step_claim (k := .catchup) ?_ (by rw [hlocal]) (moved_catchup ?_ rfl) rfl)
      · simp [claim, hc, CatchupAt.claim]
      · simp [CatchupAt.claim, hlocal]
    · exact .inl (claims_eq rfl rfl (by rw [hc]; rfl) rfl)
  | _ => exact .inl rfl

theorem refines_catchupReturn (err : Option Err) (s : Subscriber) :
    s.Refines (s.catchupReturn err) := by
  unfold catchupReturn
  cases hc : s.catchup with
  | handling localHeight highest =>
    cases err with
    | none =>
      refine .inr (claims_step_finish (k := .catchup) (v := localHeight) ?_ rfl
        (moved_catchup rfl rfl) rfl)
      simp [claim, hc, CatchupAt.claim]
    | some e => exact .inl (claims_eq rfl rfl (by rw [hc]; rfl) rfl)
  | _ => exact .inl rfl

theorem refines_catchupRollback (h : s.RollsBack .catchupRollback) :
    s.Refines s.catchupRollback := by
  unfold RollsBack at h
  unfold catchupRollback at h ⊢
  cases hc : s.catchup with
  | failed localHeight highest e =>
    rw [hc] at h
    dsimp only at h ⊢
    have hclaim : s.claim .catchup = some localHeight := by simp [claim, hc, CatchupAt.claim]
    split at h
    · next hhead =>
      rw [if_pos hhead]
      exact .inr (claims_step_setBack hclaim rfl h (moved_catchup rfl rfl) rfl)
    · next hhead =>
      rw [if_neg hhead]
      exact .inr (claims_step_setBack hclaim rfl h (moved_catchup rfl rfl) rfl)
  | _ => exact .inl rfl

theorem refines_catchupResume (cancelled : Bool) (s : Subscriber) :
    s.Refines (s.catchupResume cancelled) := by
  unfold catchupResume
  cases hc : s.catchup with
  | backingOff =>
    refine .inl (claims_eq rfl rfl ?_ rfl)
    rw [hc]
    cases cancelled <;> rfl
  | _ => exact .inl rfl

/-- **Every step refines the counter with claims.** -/
theorem refines_step (s : Subscriber) (op : Op) (h : s.RollsBack op) : s.Refines (s.step op) := by
  cases op with
  | poll height => exact refines_poll height s
  | receive height => exact refines_receive height s
  | followLoad => exact refines_followLoad s
  | followSwap => exact refines_followSwap s
  | followReturn err => exact refines_followReturn err s
  | followHead => exact refines_followHead s
  | followRollback => exact refines_followRollback h
  | wake => exact refines_wake s
  | catchupLoad cancelled => exact refines_catchupLoad cancelled s
  | catchupLoadHighest => exact refines_catchupLoadHighest s
  | catchupSwap => exact refines_catchupSwap s
  | catchupReturn err => exact refines_catchupReturn err s
  | catchupRollback => exact refines_catchupRollback h
  | catchupResume cancelled => exact refines_catchupResume cancelled s

theorem Refines.covered {start : Nat} (h : s.Refines s') (hs : s.claims.Covered start) :
    s'.claims.Covered start := by
  rcases h with heq | hstep
  · rwa [heq]
  · exact hstep.covered hs

/--
**No DA height is skipped.**

In every interleaving of the two processes, with handler calls that fail in any pattern, as long as
no rollback sets `localDAHeight` forward: each DA height from the start to `localDAHeight` has been
handled, or is claimed by a handler call that is not settled yet.
-/
theorem no_height_skipped (startHeight : Nat) (ops : List Op)
    (hrun : Run.Meets step RollsBack (newSubscriber startHeight) ops) :
    ∀ h, startHeight ≤ h → h < (Run.exec step (newSubscriber startHeight) ops).localDAHeight →
      h ∈ (Run.exec step (newSubscriber startHeight) ops).handled ∨
        ∃ k, (Run.exec step (newSubscriber startHeight) ops).claim k = some h := by
  have h0 : (newSubscriber startHeight).claims.Covered startHeight := by
    intro v hge hlt
    exact absurd hge (Nat.not_le.mpr hlt)
  exact Run.invariant (fun s => s.claims.Covered startHeight)
    (fun s op hs hop => (refines_step s op hop).covered hs) ops _ h0 hrun

end Subscriber

/-! ## Concrete runs -/

namespace SkippedRun

open Subscriber

/-- The catch-up loop claims DA height 10, and the subscription claims 11. -/
def claimed : List Op :=
  [.wake, .catchupLoad false, .catchupLoadHighest, .catchupSwap, .receive 11, .followLoad,
    .followSwap]

/-- Both calls fail: the catch-up loop stores 10, then the subscription stores 11. -/
def bothFail : List Op :=
  claimed ++ [.catchupReturn (some (.text "e")), .catchupRollback,
    .followReturn (some (.text "e")), .followRollback]

end SkippedRun

open SkippedRun in
/-- Height 10 is below `localDAHeight`, has not been handled, and both processes are past it. -/
theorem height_skipped :
    let s := Run.exec Subscriber.step (.newSubscriber 10) bothFail
    s.localDAHeight = 11 ∧ s.handled = [] ∧ s.catchup = .backingOff ∧ s.follow = .waiting := by
  decide

open SkippedRun in
/-- When only the catch-up loop fails, 10 is claimed again. -/
theorem no_height_skipped_retried :
    let s := Run.exec Subscriber.step (.newSubscriber 10) (claimed ++
      [.catchupReturn (some (.text "e")), .catchupRollback, .followReturn none,
        .catchupResume false, .catchupLoad false, .catchupLoadHighest, .catchupSwap])
    s.localDAHeight = 11 ∧ ∀ h, 10 ≤ h → h < s.localDAHeight →
      h ∈ s.handled ∨ ∃ k, s.claim k = some h := by
  intro s
  refine ⟨by decide, Subscriber.no_height_skipped 10 _ ?_⟩
  simp only [claimed, List.cons_append, List.nil_append, Run.Meets, Subscriber.RollsBack]
  decide

end EvNode
