import Mathlib

/-!
# Slices with a head index

A queue kept as a buffer and the index of its first live element. Elements are added at the end,
taken at the head by moving the index, and put back in front, in the dead slots below the head
when there are enough of them. `toList` is what the slice holds; every operation is described by
what it does to `toList`.
-/

structure HeadSlice (α : Type) where
  buf : List α
  head : Nat
  head_le : head ≤ buf.length
  deriving DecidableEq

namespace HeadSlice

variable {α : Type}

def empty : HeadSlice α := ⟨[], 0, Nat.le_refl 0⟩

/-- The live elements, first one first. -/
def toList (s : HeadSlice α) : List α := s.buf.drop s.head

def length (s : HeadSlice α) : Nat := s.buf.length - s.head

def push (s : HeadSlice α) (a : α) : HeadSlice α where
  buf := s.buf ++ [a]
  head := s.head
  head_le := by
    have h := s.head_le
    simp only [List.length_append]
    omega

/-- Put `a` in front: into the dead slot below the head, or by a copy when there is none. -/
def prepend (s : HeadSlice α) (a : α) : HeadSlice α :=
  if 0 < s.head then
    { buf := s.buf.set (s.head - 1) a
      head := s.head - 1
      head_le := by
        have h := s.head_le
        rw [List.length_set]
        omega }
  else ⟨a :: s.buf, 0, Nat.zero_le _⟩

/-- Put `l` in front: slot by slot from its last element, or by one copy. -/
def prependAll (s : HeadSlice α) (l : List α) : HeadSlice α :=
  if l.length ≤ s.head then l.foldr (fun a s => s.prepend a) s
  else ⟨l ++ s.toList, 0, Nat.zero_le _⟩

/-- Move the head over `n` live elements and clear their slots. -/
def advance (s : HeadSlice α) (zero : α) (n : Nat) : HeadSlice α where
  buf := s.buf.take s.head ++ List.replicate (min n s.length) zero ++ s.toList.drop n
  head := s.head + min n s.length
  head_le := by
    have h := s.head_le
    simp only [List.length_append, List.length_take, List.length_replicate]
    omega

/-- Drop the dead slots when they are many. -/
def compact (s : HeadSlice α) : HeadSlice α :=
  if s.buf.length / 2 < s.head ∧ 100 < s.head then ⟨s.toList, 0, Nat.zero_le _⟩ else s

/-- Replace the live elements and keep the dead slots. -/
def replace (s : HeadSlice α) (l : List α) : HeadSlice α where
  buf := s.buf.take s.head ++ l
  head := s.head
  head_le := by
    have h := s.head_le
    simp only [List.length_append, List.length_take]
    omega

@[simp] theorem toList_empty : (empty : HeadSlice α).toList = [] := rfl

theorem length_eq (s : HeadSlice α) : s.length = s.toList.length := by
  unfold length toList
  rw [List.length_drop]

@[simp] theorem toList_push (s : HeadSlice α) (a : α) : (s.push a).toList = s.toList ++ [a] :=
  List.drop_append_of_le_length s.head_le

@[simp] theorem toList_prepend (s : HeadSlice α) (a : α) : (s.prepend a).toList = a :: s.toList := by
  have hle := s.head_le
  unfold prepend
  split
  next h =>
    have hlt : s.head - 1 < (s.buf.set (s.head - 1) a).length := by
      rw [List.length_set]
      omega
    show (s.buf.set (s.head - 1) a).drop (s.head - 1) = a :: s.buf.drop s.head
    rw [List.drop_eq_getElem_cons hlt, List.getElem_set_self, List.drop_set_of_lt (by omega)]
    congr 2
    omega
  next h =>
    have h0 : s.head = 0 := by omega
    show a :: s.buf = a :: s.buf.drop s.head
    rw [h0, List.drop_zero]

@[simp] theorem toList_prependAll (s : HeadSlice α) (l : List α) :
    (s.prependAll l).toList = l ++ s.toList := by
  unfold prependAll
  split
  · clear * -
    induction l with
    | nil => rfl
    | cons a l ih => rw [List.foldr_cons, toList_prepend, ih, List.cons_append]
  · rfl

@[simp] theorem toList_advance (s : HeadSlice α) (zero : α) (n : Nat) :
    (s.advance zero n).toList = s.toList.drop n := by
  have hle := s.head_le
  have hlen : (s.buf.take s.head ++ List.replicate (min n s.length) zero).length
      = s.head + min n s.length := by
    simp only [List.length_append, List.length_take, List.length_replicate]
    omega
  exact List.drop_left' hlen

@[simp] theorem toList_compact (s : HeadSlice α) : s.compact.toList = s.toList := by
  unfold compact
  split <;> rfl

@[simp] theorem toList_replace (s : HeadSlice α) (l : List α) : (s.replace l).toList = l := by
  have hlen : (s.buf.take s.head).length = s.head := by
    rw [List.length_take]
    exact Nat.min_eq_left s.head_le
  exact List.drop_left' hlen

end HeadSlice
