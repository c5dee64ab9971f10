import EvNode.Sequencer.Common

/-!
# The filter of the EVM executor

`FilterTxs` of `execution/evm/execution.go`. It walks over the transactions with running totals of
bytes and gas. A transaction that can never be in a block is removed; the first one that does not
fit any more, and every one after it, is postponed.

`gasOf` stands for `UnmarshalBinary` followed by `Gas`, with `none` for bytes that do not decode.
-/

namespace EvNode.Evm

variable {Tx : Type} [Transaction Tx]

/-- The running totals, which are `uint64`. -/
structure Totals where
  cumulativeGas : Nat
  cumulativeBytes : Nat
  limitReached : Bool

/-- Addition of `uint64`. -/
def add64 (a b : Nat) : Nat := (a + b) % 2 ^ 64

/-- The gas of a transaction that can be in a block, `none` for one that is removed. Without forced
transactions nothing is decoded and the gas counts as 0. -/
def admitted (gasOf : Tx → Option Nat) (maxBytes maxGas : Nat)
    (hasForceIncludedTransaction : Bool) (tx : Tx) : Option Nat :=
  if size tx = 0 then none
  else
    match if hasForceIncludedTransaction then gasOf tx else some 0 with
    | none => none
    | some txGas =>
      if 0 < maxGas ∧ maxGas < txGas then none
      else if 0 < maxBytes ∧ maxBytes < size tx then none
      else some txGas

/-- One turn of the loop. -/
def filterTx (gasOf : Tx → Option Nat) (maxBytes maxGas : Nat)
    (hasForceIncludedTransaction : Bool) (t : Totals) (tx : Tx) : FilterStatus × Totals :=
  match admitted gasOf maxBytes maxGas hasForceIncludedTransaction tx with
  | none => (.remove, t)
  | some txGas =>
    if t.limitReached then (.postpone, t)
    else if 0 < maxBytes ∧ maxBytes < add64 t.cumulativeBytes (size tx) then
      (.postpone, { t with limitReached := true })
    else if hasForceIncludedTransaction ∧ 0 < maxGas ∧ maxGas < add64 t.cumulativeGas txGas then
      (.postpone, { t with limitReached := true })
    else
      (.ok, ⟨add64 t.cumulativeGas txGas, add64 t.cumulativeBytes (size tx), t.limitReached⟩)

/-- The loop, from the totals `t` on. -/
def filterLoop (gasOf : Tx → Option Nat) (maxBytes maxGas : Nat)
    (hasForceIncludedTransaction : Bool) : Totals → List Tx → List FilterStatus
  | _, [] => []
  | t, tx :: txs =>
    let r := filterTx gasOf maxBytes maxGas hasForceIncludedTransaction t tx
    r.1 :: filterLoop gasOf maxBytes maxGas hasForceIncludedTransaction r.2 txs

def filterTxs (gasOf : Tx → Option Nat) (txs : List Tx) (maxBytes maxGas : Nat)
    (hasForceIncludedTransaction : Bool) : List FilterStatus :=
  filterLoop gasOf maxBytes maxGas hasForceIncludedTransaction ⟨0, 0, false⟩ txs

theorem filterLoop_length (gasOf : Tx → Option Nat) (maxBytes maxGas : Nat) (force : Bool)
    (txs : List Tx) :
    ∀ t, (filterLoop gasOf maxBytes maxGas force t txs).length = txs.length := by
  induction txs with
  | nil => intro t; rfl
  | cons tx txs ih => intro t; simp [filterLoop, ih]

/-- The EVM executor, whose `FilterTxs` never fails. -/
def executor (gasOf : Tx → Option Nat) (maxGas : Option Nat) : ExecutionAnswers Tx where
  maxGas := maxGas
  filterTxs txs maxBytes gas force := some (filterTxs gasOf txs maxBytes gas force)
  filterTxs_length := by
    intro txs maxBytes gas force statuses h
    rw [← Option.some.inj h]
    exact filterLoop_length gasOf maxBytes gas force txs _

/-! ## When nothing is postponed -/

/-- The bytes of the transactions that are not removed. -/
def admittedBytes (gasOf : Tx → Option Nat) (maxBytes maxGas : Nat) (txs : List Tx) : Nat :=
  ((txs.filter fun tx => (admitted gasOf maxBytes maxGas true tx).isSome).map size).sum

/-- Their gas. -/
def admittedGas (gasOf : Tx → Option Nat) (maxBytes maxGas : Nat) (txs : List Tx) : Nat :=
  (txs.filterMap (admitted gasOf maxBytes maxGas true)).sum

/-- The transactions that are not removed fit into one block. -/
def Fits (gasOf : Tx → Option Nat) (maxBytes maxGas : Nat) (txs : List Tx) : Prop :=
  (0 < maxBytes → admittedBytes gasOf maxBytes maxGas txs ≤ maxBytes) ∧
    (0 < maxGas → admittedGas gasOf maxBytes maxGas txs ≤ maxGas)

theorem add64_le (a b : Nat) : add64 a b ≤ a + b := Nat.mod_le _ _

/-- The loop postpones nothing while the totals and what is left stay within the limits. -/
theorem filterLoop_not_postponed (gasOf : Tx → Option Nat) (maxBytes maxGas : Nat) (txs : List Tx) :
    ∀ t : Totals, t.limitReached = false →
      (0 < maxBytes → t.cumulativeBytes + admittedBytes gasOf maxBytes maxGas txs ≤ maxBytes) →
      (0 < maxGas → t.cumulativeGas + admittedGas gasOf maxBytes maxGas txs ≤ maxGas) →
        FilterStatus.postpone ∉ filterLoop gasOf maxBytes maxGas true t txs := by
  induction txs with
  | nil =>
    intro t _ _ _
    simp [filterLoop]
  | cons tx txs ih =>
    intro t hlimit hbytes hgas
    unfold filterLoop
    cases hadm : admitted gasOf maxBytes maxGas true tx with
    | none =>
      simp only [admittedBytes, admittedGas, List.filter_cons, List.filterMap_cons, hadm,
        Option.isSome_none, Bool.false_eq_true, if_false] at hbytes hgas
      simp only [filterTx, hadm, List.mem_cons, reduceCtorEq, false_or]
      exact ih t hlimit hbytes hgas
    | some txGas =>
      simp only [admittedBytes, admittedGas, List.filter_cons, List.filterMap_cons, hadm,
        Option.isSome_some, if_true, List.map_cons, List.sum_cons] at hbytes hgas
      have hb := add64_le t.cumulativeBytes (size tx)
      have hg := add64_le t.cumulativeGas txGas
      have hnb : ¬ (0 < maxBytes ∧ maxBytes < add64 t.cumulativeBytes (size tx)) := by
        rintro ⟨hpos, hlt⟩
        have := hbytes hpos
        omega
      have hng : ¬ (True ∧ 0 < maxGas ∧ maxGas < add64 t.cumulativeGas txGas) := by
        rintro ⟨_, hpos, hlt⟩
        have := hgas hpos
        omega
      have hone : filterTx gasOf maxBytes maxGas true t tx = (.ok,
          ⟨add64 t.cumulativeGas txGas, add64 t.cumulativeBytes (size tx), t.limitReached⟩) := by
        unfold filterTx
        simp only [hadm]
        rw [if_neg (by simp [hlimit]), if_neg hnb, if_neg hng]
      simp only [hone, List.mem_cons, reduceCtorEq, false_or]
      refine ih _ hlimit (fun hpos => ?_) fun hpos => ?_
      · have := hbytes hpos
        simp only [admittedBytes]
        omega
      · have := hgas hpos
        simp only [admittedGas]
        omega

/-- Transactions that fit are found valid or removed. -/
theorem Fits.ok_of_ne_remove {gasOf : Tx → Option Nat} {maxBytes maxGas : Nat} {txs : List Tx}
    (h : Fits gasOf maxBytes maxGas txs) {p : Tx × FilterStatus}
    (hp : p ∈ txs.zip (filterTxs gasOf txs maxBytes maxGas true)) (hne : p.2 ≠ .remove) :
    p.2 = .ok := by
  have hmem : p.2 ∈ filterTxs gasOf txs maxBytes maxGas true := (List.of_mem_zip hp).2
  have hnot : p.2 ≠ .postpone := by
    intro heq
    rw [heq] at hmem
    refine filterLoop_not_postponed gasOf maxBytes maxGas txs ⟨0, 0, false⟩ rfl ?_ ?_ hmem
    · simpa using h.1
    · simpa using h.2
  cases hs : p.2 with
  | ok => rfl
  | remove => exact absurd hs hne
  | postpone => exact absurd hs hnot

end EvNode.Evm
