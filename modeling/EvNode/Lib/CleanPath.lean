import Mathlib

/-!
# Clean paths

The normal form of a rooted slash-separated path: empty elements and `.` are dropped, and `..`
removes the element before it, or nothing at the root. A clean path is the list of its elements,
none of which holds a slash, so that two clean paths are the same text exactly when they are the
same list.

The last element of a path is kept as it is when it holds no slash and is neither `.` nor `..`
(`join_of_notMem`). One that holds a slash falls apart into shorter elements
(`length_lt_of_mem_join`).
-/

namespace CleanPath

/-- `/` -/
def slash : UInt8 := 47

/-- `.` -/
def dot : UInt8 := 46

/-- One more element behind a clean path. -/
def push (path : List (List UInt8)) (e : List UInt8) : List (List UInt8) :=
  if e = [] ∨ e = [dot] then path
  else if e = [dot, dot] then path.dropLast
  else path ++ [e]

/-- The elements that `text` adds to a clean path, one after the other. -/
def join (path : List (List UInt8)) (text : List UInt8) : List (List UInt8) :=
  (text.splitOn slash).foldl push path

/-- The clean form of the rooted path `/text`. -/
def clean (text : List UInt8) : List (List UInt8) := join [] text

/-! ## Elements without a slash -/

theorem ne_slash_of_notMem {text : List UInt8} (h : slash ∉ text) :
    ∀ b ∈ text, (b == slash) = false := by
  intro b hb
  rw [beq_eq_false_iff_ne]
  rintro rfl
  exact h hb

theorem splitOn_of_notMem {text : List UInt8} (h : slash ∉ text) : text.splitOn slash = [text] :=
  List.splitOnP_eq_singleton (ne_slash_of_notMem h)

theorem join_slash {e : List UInt8} (h : slash ∉ e) (path : List (List UInt8)) (rest : List UInt8) :
    join path (e ++ slash :: rest) = join (push path e) rest := by
  have hsplit : (e ++ slash :: rest).splitOn slash = e :: rest.splitOn slash :=
    List.splitOnP_append_cons_of_forall_mem (ne_slash_of_notMem h) slash (by simp) rest
  rw [join, hsplit]
  rfl

theorem push_of_length {e : List UInt8} (h : 2 < e.length) (path : List (List UInt8)) :
    push path e = path ++ [e] := by
  have hdots : ¬(e = [] ∨ e = [dot]) := by
    rintro (rfl | rfl) <;> simp at h
  have hup : e ≠ [dot, dot] := by
    rintro rfl
    simp at h
  rw [push, if_neg hdots, if_neg hup]

theorem push_of_dot {e : List UInt8} (hne : e ≠ []) (hdot : dot ∉ e) (path : List (List UInt8)) :
    push path e = path ++ [e] := by
  have hdots : ¬(e = [] ∨ e = [dot]) := by
    rintro (rfl | rfl)
    · exact hne rfl
    · simp at hdot
  have hup : e ≠ [dot, dot] := by
    rintro rfl
    simp at hdot
  rw [push, if_neg hdots, if_neg hup]

/-- A long element without a slash is kept as it is. -/
theorem join_of_notMem {e : List UInt8} (hslash : slash ∉ e) (hlen : 2 < e.length)
    (path : List (List UInt8)) : join path e = path ++ [e] := by
  rw [join, splitOn_of_notMem hslash]
  exact push_of_length hlen path

/-! ## Elements with a slash -/

/-- Splitting loses one byte for each slash. -/
theorem length_add_count_le {e : List UInt8} : ∀ {text : List UInt8}, e ∈ text.splitOn slash →
    e.length + text.count slash ≤ text.length
  | [], h => by
    rw [List.splitOn_nil, List.mem_singleton] at h
    simp [h]
  | b :: text, h => by
    unfold List.splitOn at h
    rw [List.splitOnP_cons_eq_if_modifyHead] at h
    split at h
    · next hb =>
      rw [List.count_cons, if_pos hb, List.length_cons]
      rcases List.mem_cons.mp h with rfl | h
      · have hle := List.count_le_length (a := slash) (l := text)
        simp only [List.length_nil]
        omega
      · have ih : e.length + text.count slash ≤ text.length := length_add_count_le h
        omega
    · next hb =>
      rw [List.count_cons, if_neg hb, List.length_cons]
      cases hs : text.splitOnP (· == slash) with
      | nil => exact absurd hs (List.splitOnP_ne_nil _ _)
      | cons e' es =>
        rw [hs, List.modifyHead_cons] at h
        have hmem : ∀ x ∈ e' :: es, x.length + text.count slash ≤ text.length := by
          intro x hx
          have hsplit : x ∈ text.splitOnP (· == slash) := hs ▸ hx
          exact length_add_count_le (hsplit : x ∈ text.splitOn slash)
        rcases List.mem_cons.mp h with rfl | h
        · have ih := hmem e' List.mem_cons_self
          rw [List.length_cons]
          omega
        · have ih := hmem e (List.mem_cons_of_mem _ h)
          omega

/-- A text with a slash falls apart into shorter elements. -/
theorem length_lt_of_slash {text e : List UInt8} (hslash : slash ∈ text)
    (h : e ∈ text.splitOn slash) : e.length < text.length := by
  have hcount := List.count_pos_iff.mpr hslash
  have hle := length_add_count_le h
  omega

theorem mem_drop_push {path : List (List UInt8)} {e x : List UInt8} {n : Nat}
    (h : x ∈ (push path e).drop n) : x ∈ path.drop n ∨ x = e := by
  unfold push at h
  split at h
  · exact .inl h
  · split at h
    · refine .inl (List.mem_of_mem_take (i := path.length - 1 - n) ?_)
      rwa [List.dropLast_eq_take, List.drop_take] at h
    · rw [List.drop_append, List.mem_append] at h
      rcases h with h | h
      · exact .inl h
      · exact .inr (List.mem_singleton.mp (List.mem_of_mem_drop h))

/-- Behind the first `n` elements, a path only gets what is pushed. -/
theorem mem_drop_foldl_push {x : List UInt8} {n : Nat} :
    ∀ {es path : List (List UInt8)}, x ∈ (es.foldl push path).drop n → x ∈ path.drop n ∨ x ∈ es
  | [], _, h => .inl h
  | e :: es, path, h => by
    have ih : x ∈ (push path e).drop n ∨ x ∈ es := mem_drop_foldl_push h
    rcases ih with h | h
    · rcases mem_drop_push h with h | rfl
      · exact .inl h
      · exact .inr List.mem_cons_self
    · exact .inr (List.mem_cons_of_mem _ h)

/-- **A text with a slash never looks like one without.** Behind the path it is joined to, all
elements are shorter than the text. -/
theorem length_lt_of_mem_join {path : List (List UInt8)} {text x : List UInt8} {n : Nat}
    (hn : path.length ≤ n) (hslash : slash ∈ text) (h : x ∈ (join path text).drop n) :
    x.length < text.length := by
  rcases mem_drop_foldl_push h with h | h
  · rw [List.drop_eq_nil_of_le hn] at h
    cases h
  · exact length_lt_of_slash hslash h

end CleanPath
