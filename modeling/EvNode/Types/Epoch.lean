import Mathlib

/-!
# DA epochs

`types/epoch.go`. Epoch `n ≥ 1` covers the DA heights
`daStartHeight + (n - 1) * daEpochSize` to `daStartHeight + n * daEpochSize - 1`.
-/

namespace EvNode

def calculateEpochNumber (daHeight daStartHeight daEpochSize : Nat) : Nat :=
  if daHeight < daStartHeight then 0
  else if daEpochSize = 0 then 1
  else (daHeight - daStartHeight) / daEpochSize + 1

/-- First height, last height and number of the epoch that holds `daHeight`. -/
def calculateEpochBoundaries (daHeight daStartHeight daEpochSize : Nat) : Nat × Nat × Nat :=
  let epochNum := calculateEpochNumber daHeight daStartHeight daEpochSize
  if daEpochSize = 0 then (daStartHeight, daStartHeight, epochNum)
  else if daHeight < daStartHeight then (daStartHeight, daStartHeight + daEpochSize - 1, epochNum)
  else (daStartHeight + (epochNum - 1) * daEpochSize,
    daStartHeight + epochNum * daEpochSize - 1, epochNum)

/-- The last height of the epoch that holds `daHeight`. -/
def epochEnd (daHeight daStartHeight daEpochSize : Nat) : Nat :=
  (calculateEpochBoundaries daHeight daStartHeight daEpochSize).2.1

/-- The first height of the epoch that holds `daHeight`. -/
def epochStart (daHeight daStartHeight daEpochSize : Nat) : Nat :=
  (calculateEpochBoundaries daHeight daStartHeight daEpochSize).1

/-- The heights `epochStart` to `epochEnd`, in order. -/
def epochHeights (daHeight daStartHeight daEpochSize : Nat) : List Nat :=
  List.range' (epochStart daHeight daStartHeight daEpochSize)
    (epochEnd daHeight daStartHeight daEpochSize + 1
      - epochStart daHeight daStartHeight daEpochSize)

end EvNode
