import EvNode.Syncing.Syncer

/-!
# The replicated block state

`FSM.Apply` of `pkg/raft/node.go` and `assertValid` of `pkg/raft/types.go`. The state that raft
replicates is the last block that was proposed and accepted. Log entries are decoded here, and what
the state says about DA submissions is left out.
-/

namespace EvNode

variable {Tx : Type}

namespace Raft

/-- `RaftBlockState`. -/
structure BlockState (Tx : Type) extends Syncer.RaftBlockState Tx where
  timestamp : Time

/-- The state of the machine. It starts with an empty one. -/
abbrev FSM (Tx : Type) := Option (BlockState Tx)

def FSM.height : FSM Tx → Nat
  | none => 0
  | some s => s.height

def FSM.hash : FSM Tx → Bytes
  | none => []
  | some s => s.hash

def FSM.timestamp : FSM Tx → Time
  | none => 0
  | some s => s.timestamp

/-- Height and timestamp increase. Gaps are not looked at. -/
def assertValid (s : FSM Tx) (next : BlockState Tx) : Except Err Unit :=
  if next.height ≤ FSM.height s then .error (.text "invalid height")
  else if next.timestamp ≤ FSM.timestamp s then .error (.text "invalid timestamp")
  else .ok ()

/-- `Apply`: the response, and the new state. -/
def apply (s : FSM Tx) (next : BlockState Tx) : Except Err Unit × FSM Tx :=
  match assertValid s next with
  | .error e => (.error e, s)
  | .ok () => (.ok (), some next)

theorem apply_of_lt {s : FSM Tx} {next : BlockState Tx} (hheight : FSM.height s < next.height)
    (htime : FSM.timestamp s < next.timestamp) : apply s next = (.ok (), some next) := by
  have hvalid : assertValid s next = .ok () := by
    unfold assertValid
    rw [if_neg (Nat.not_le_of_lt hheight), if_neg (Int.not_le_of_gt htime)]
  unfold apply
  rw [hvalid]

theorem apply_of_le {s : FSM Tx} {next : BlockState Tx} (hheight : next.height ≤ FSM.height s) :
    apply s next = (.error (.text "invalid height"), s) := by
  have hinvalid : assertValid s next = .error (.text "invalid height") := by
    unfold assertValid
    rw [if_pos hheight]
  unfold apply
  rw [hinvalid]

end Raft

end EvNode
