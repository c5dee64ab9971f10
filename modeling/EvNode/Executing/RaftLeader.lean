import EvNode.Lib.History
import EvNode.Raft.Fsm

/-!
# A raft leader

Block production of a node that is the raft leader, with the replicated state machine beside it.
`Broadcast` looks at the error of the apply future only. The response of the state machine, which may
have refused the block, is not read.

The states that the machine has had and the proposals that were acknowledged are recorded.
`erases_produceBlock` says that the node, without all this, is the one of `Node.step`.
-/

namespace EvNode

open Crash Proc

variable {Tx : Type}

structure RaftLeader (Tx : Type) where
  node : Node Tx
  fsm : Raft.FSM Tx
  /-- The states that the machine has had. -/
  held : List (Raft.BlockState Tx)
  /-- The blocks for which `Broadcast` returned nil, each with the state of the machine then. -/
  acked : List (Raft.BlockState Tx × Raft.FSM Tx)

namespace RaftLeader

def onNode {α : Type} (p : Proc (Node Tx) Err α) : Proc (RaftLeader Tx) Err α :=
  zoom RaftLeader.node (fun n w => { w with node := n }) p

/-- The state that `ProduceBlock` proposes for a block. -/
def blockState (cfg : NodeConfig Tx) (header : SignedHeader) (data : Data Tx) :
    Raft.BlockState Tx where
  height := header.header.height
  hash := cfg.hashes.headerHash header.header
  header := header
  data := data
  timestamp := header.header.time

/-- The log entry reaches the machine. -/
def applyLog (state : Raft.BlockState Tx) (w : RaftLeader Tx) : RaftLeader Tx :=
  match Raft.apply w.fsm state with
  | (.ok (), fsm) => { w with fsm := fsm, held := w.held ++ [state] }
  | (.error _, fsm) => { w with fsm := fsm }

@[simp] theorem applyLog_node (state : Raft.BlockState Tx) (w : RaftLeader Tx) :
    (applyLog state w).node = w.node := by
  unfold applyLog
  split <;> rfl

/-- `Broadcast`. An entry can reach the machine although the future returns an error: then `applied` is
set. -/
def broadcast (cfg : NodeConfig Tx) (env : ProduceEnv Tx) (applied : Bool)
    (state : Raft.BlockState Tx) : Proc (RaftLeader Tx) Err Unit :=
  if cfg.raftNode then do
    modify fun w => if applied || env.broadcast = .ok then applyLog state w else w
    io env.broadcast (.text "failed to propose block to raft") fun w =>
      { w with acked := w.acked ++ [(state, w.fsm)] }
  else pure ()

section ProduceBlock

variable [Transaction Tx]

/-- What follows a successful broadcast is what the node does. -/
def commitBlock (cfg : NodeConfig Tx) (env : ProduceEnv Tx) (applied : Bool) (header : SignedHeader)
    (data : Data Tx) (newState : State) : Proc (RaftLeader Tx) Err Unit := do
  broadcast cfg env applied (blockState cfg { header with signature := env.signature } data)
  onNode (Node.commitBlock cfg { env with broadcast := .ok } header data newState)

def finishBlock (cfg : NodeConfig Tx) (env : ProduceEnv Tx) (applied : Bool) :
    Option (SignedHeader × Data Tx) → Proc (RaftLeader Tx) Err Unit
  | none => pure ()
  | some (header, data) => do
    let newState ← onNode (Node.applyAndSign cfg env header)
    commitBlock cfg env applied header data newState

def produceBlock (cfg : NodeConfig Tx) (env : ProduceEnv Tx) (applied : Bool) :
    Proc (RaftLeader Tx) Err Unit := do
  require (!cfg.raftNode || env.quorum) (.text "raft cluster does not have quorum")
  onNode (Node.retryAck env)
  let skip ← onNode (Node.pendingLimitReached cfg env)
  if skip then pure ()
  else do
    let block ← onNode (Node.nextBlock cfg env)
    finishBlock cfg env applied block

/-- An operation of the node, and for a `ProduceBlock` whether its log entry reaches the machine in any
case. -/
def step (cfg : NodeConfig Tx) (l : Live (RaftLeader Tx)) (op : Node.Op Tx × Bool) :
    Live (RaftLeader Tx) :=
  match op.1 with
  | .start env => l.boot (onNode (Node.start cfg env))
  | .crash => l.halt
  | .stop deleteHeader deleteData => (l.call (onNode (Node.stop deleteHeader deleteData))).halt
  | .submit put batch =>
    l.call (onNode (Node.onSeq (Sequencer.submitBatchTxs put ⟨cfg.genesis.chainID, batch⟩)))
  | .produce env => l.call (produceBlock cfg env op.2)
  | .genesisInclusion write height => l.call (onNode (Node.genesisInclusion write height))

/-! ## The node alone -/

omit [Transaction Tx] in
theorem erases_onNode {α : Type} (p : Proc (Node Tx) Err α) : Erases node (onNode p) p :=
  erases_zoom (fun _ _ => rfl) p

omit [Transaction Tx] in
theorem erases_broadcast (cfg : NodeConfig Tx) (env : ProduceEnv Tx) (applied : Bool)
    (state : Raft.BlockState Tx) :
    Erases node (broadcast cfg env applied state) (Node.broadcast cfg env) := by
  unfold broadcast Node.broadcast
  split
  · refine Erases.after_record ?_ fun w => ?_
    · exact erases_io _ _ fun _ => rfl
    · split
      · exact applyLog_node state w
      · rfl
  · exact erases_pure ()

theorem erases_commitBlock (cfg : NodeConfig Tx) (env : ProduceEnv Tx) (applied : Bool)
    (header : SignedHeader) (data : Data Tx) (newState : State) :
    Erases node (commitBlock cfg env applied header data newState)
      (Node.commitBlock cfg env header data newState) := by
  refine Erases.bind (erases_broadcast cfg env applied _) fun _ => ?_
  -- the broadcast that is asked of the node again succeeds and does nothing
  intro w
  have hnothing : Node.broadcast cfg { env with broadcast := .ok } w.node = (.ok (), w.node) := by
    unfold Node.broadcast
    split <;> rfl
  have hrest := erases_onNode (Node.commitBlock cfg { env with broadcast := .ok } header data
    newState) w
  unfold Node.commitBlock at hrest
  rw [bind_run_ok hnothing] at hrest
  exact hrest

theorem erases_produceBlock (cfg : NodeConfig Tx) (env : ProduceEnv Tx) (applied : Bool) :
    Erases node (produceBlock cfg env applied) (Node.produceBlock cfg env) := by
  refine (erases_require _ _).bind fun _ => ?_
  refine (erases_onNode _).bind fun _ => ?_
  refine (erases_onNode _).bind fun skip => ?_
  cases skip with
  | true => exact erases_pure ()
  | false =>
    refine (erases_onNode _).bind fun block => ?_
    cases block with
    | none => exact erases_pure ()
    | some block =>
      exact (erases_onNode _).bind fun newState =>
        erases_commitBlock cfg env applied block.1 block.2 newState

/-- **The node of a raft leader takes the steps of `Node.step`.** -/
theorem map_step (cfg : NodeConfig Tx) (l : Live (RaftLeader Tx)) (op : Node.Op Tx × Bool) :
    Node.step cfg (l.map node) op.1 = (step cfg l op).map node := by
  obtain ⟨op, applied⟩ := op
  cases op with
  | start env => exact Live.map_boot (erases_onNode _) l
  | crash => rfl
  | stop deleteHeader deleteData =>
    show Live.halt (Live.call _ _) = _
    rw [Live.map_call (erases_onNode _)]
    rfl
  | submit put batch => exact Live.map_call (erases_onNode _) l
  | produce env => exact Live.map_call (erases_produceBlock cfg env applied) l
  | genesisInclusion write height => exact Live.map_call (erases_onNode _) l

end ProduceBlock

end RaftLeader

end EvNode
