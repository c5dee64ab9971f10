import Mathlib

/-!
# Lineages

A block together with everything below it, down to a root. Two blocks are the same exactly when they
and all their ancestors are, as it is with blocks that name their parents by a collision free hash.

`at?` finds the ancestor at a height. `All` says something of every block above the root.
-/

inductive Lineage (γ β : Type) where
  | root (g : γ)
  | next (parent : Lineage γ β) (b : β)
  deriving DecidableEq, Repr

namespace Lineage

variable {γ β : Type}

def height : Lineage γ β → Nat
  | .root _ => 0
  | .next parent _ => parent.height + 1

/-- The ancestor at a height, which may be the block itself. -/
def at? (n : Nat) : Lineage γ β → Option (Lineage γ β)
  | .root g => if n = 0 then some (.root g) else none
  | .next parent b => if n = parent.height + 1 then some (.next parent b) else at? n parent

/-- `P` holds of every block above the root, given its height. -/
def All (P : Nat → β → Prop) : Lineage γ β → Prop
  | .root _ => True
  | .next parent b => P (parent.height + 1) b ∧ All P parent

theorem at?_self : ∀ l : Lineage γ β, l.at? l.height = some l
  | .root _ => rfl
  | .next _ _ => if_pos rfl

theorem height_of_at? {n : Nat} : ∀ {l a : Lineage γ β}, l.at? n = some a → a.height = n
  | .root _, a, h => by
    unfold at? at h
    split at h
    · next hn =>
      cases h
      exact hn.symm
    · cases h
  | .next parent b, a, h => by
    unfold at? at h
    split at h
    · next hn =>
      cases h
      exact hn.symm
    · exact height_of_at? h

theorem le_of_at? {n : Nat} : ∀ {l a : Lineage γ β}, l.at? n = some a → n ≤ l.height
  | .root _, a, h => by
    unfold at? at h
    split at h
    · next hn => exact Nat.le_of_eq hn
    · cases h
  | .next parent b, a, h => by
    unfold at? at h
    split at h
    · next hn => exact Nat.le_of_eq hn
    · exact Nat.le_succ_of_le (le_of_at? h)

/-- There is an ancestor at every height up to the own one. -/
theorem exists_at? {n : Nat} : ∀ {l : Lineage γ β}, n ≤ l.height → ∃ a, l.at? n = some a
  | .root g, h => ⟨.root g, if_pos (Nat.le_zero.mp h)⟩
  | .next parent b, h => by
    by_cases hn : n = parent.height + 1
    · exact ⟨_, if_pos hn⟩
    · have hle : n ≤ parent.height := Nat.lt_succ_iff.mp (Nat.lt_of_le_of_ne h hn)
      obtain ⟨a, ha⟩ := exists_at? hle
      exact ⟨a, (if_neg hn).trans ha⟩

/-- Below an ancestor is its parent. -/
theorem at?_parent : ∀ {l parent : Lineage γ β} {b : β},
    l.at? (parent.height + 1) = some (.next parent b) → l.at? parent.height = some parent
  | .root _, parent, b, h => by
    unfold at? at h
    split at h <;> cases h
  | .next parent' b', parent, b, h => by
    unfold at? at h ⊢
    split at h
    · cases h
      rw [if_neg (Nat.ne_of_lt (Nat.lt_succ_self _))]
      exact at?_self _
    · have hle := le_of_at? h
      rw [if_neg (by omega)]
      exact at?_parent h

theorem All.at? {P : Nat → β → Prop} {n : Nat} : ∀ {l a : Lineage γ β}, l.All P →
    l.at? n = some a → a.All P
  | .root _, a, _, h => by
    unfold Lineage.at? at h
    split at h
    · cases h
      trivial
    · cases h
  | .next parent b, a, hall, h => by
    unfold Lineage.at? at h
    split at h
    · cases h
      exact hall
    · exact hall.2.at? h

theorem all_true : ∀ l : Lineage γ β, l.All fun _ _ => True
  | .root _ => trivial
  | .next parent _ => ⟨trivial, all_true parent⟩

end Lineage
