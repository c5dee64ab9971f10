import EvNode.Properties.PrunedStore
import EvNode.Properties.Submission
import EvNode.Submitting.CursorNode

/-!
# The submission cursors and the height of the chain

Submission rounds move a cursor to the heights of stored blocks, so it stays at or below the store
height. `Rollback` moves the height back without the cursors, and the raft preprocessor installs
those of the leader whatever the own height is. If neither happens across a cursor, no cursor is ever
ahead (`cursors_behind`). Otherwise the number of pending headers wraps around, and the blocks that
are produced up to the cursor are never submitted (`cursor_ahead`).
-/

namespace EvNode

open Crash Proc

variable {Tx : Type}

/-! ## One cursor -/

namespace PendingBase

variable {pb : PendingBase} {bound : Nat}

/-- The cursor is not ahead of `bound`, in memory and in the store. -/
structure Within (bound : Nat) (pb : PendingBase) : Prop where
  lastHeight : pb.lastHeight ≤ bound
  stored : ∀ h, pb.stored = some h → h ≤ pb.lastHeight

theorem Within.mono {bound' : Nat} (h : pb.Within bound) (hle : bound ≤ bound') :
    pb.Within bound' := ⟨le_trans h.lastHeight hle, h.stored⟩

theorem within_new : (newPendingBase none).Within bound := ⟨Nat.zero_le _, nofun⟩

theorem Within.restart (h : pb.Within bound) : (newPendingBase pb.stored).Within bound := by
  cases hstored : pb.stored with
  | none => exact within_new
  | some k =>
    refine ⟨le_trans (h.stored k hstored) h.lastHeight, ?_⟩
    rintro _ ⟨⟩
    exact le_refl _

theorem Within.setLastSubmittedHeight (h : pb.Within bound) {height : Nat} (hle : height ≤ bound)
    (written : Bool) : (pb.setLastSubmittedHeight height written).Within bound := by
  unfold PendingBase.setLastSubmittedHeight
  split
  · next hlt =>
    refine ⟨hle, fun k hk => ?_⟩
    cases written with
    | true =>
      simp only [if_true, Option.some.injEq] at hk
      exact le_of_eq hk.symm
    | false => exact le_trans (h.stored k hk) (le_of_lt hlt)
  · exact h

theorem Within.postSubmit (h : pb.Within bound) {heights : List Nat}
    (hle : ∀ x ∈ heights, x ≤ bound) (written : Bool) :
    (pb.postSubmit heights written).Within bound := by
  unfold PendingBase.postSubmit
  split
  · exact h
  · next last hlast => exact h.setLastSubmittedHeight (hle last (List.mem_of_getLast? hlast)) written

/-- Without a cursor ahead there is no wrap around. -/
theorem Within.numPending (h : pb.Within bound) :
    pb.numPending bound = bound - pb.lastHeight := if_pos h.lastHeight

end PendingBase

/-! ## Rounds -/

namespace Submission

variable {s : Submission Tx}

def Heights (s : Store Tx) : Prop :=
  ∀ h b, s.blocks.get? h = some b → b.header.header.height = h ∧ b.data.height = h

/-- Both cursors are at or below the store height. -/
structure Behind (s : Submission Tx) : Prop where
  headers : s.headers.Within s.store.height
  data : s.data.Within s.store.height

theorem fetchSignedHeader_height {st : Store Tx} (hst : Heights st) {x : Nat} {y : SignedHeader}
    (hf : fetchSignedHeader st x = .ok y) : y.header.height = x := by
  unfold fetchSignedHeader at hf
  split at hf
  · cases hf
  · next b hb =>
    split at hf
    · cases hf
    · cases hf
      exact (hst x b hb).1

theorem fetchData_height {st : Store Tx} (hst : Heights st) {x : Nat} {y : Data Tx}
    (hf : fetchData st x = .ok y) : y.height = x := by
  obtain ⟨b, hb, rfl⟩ := Store.Chain.fetchData_block hf
  exact (hst x b hb).2

theorem getPending_heights {T : Type} {fetch : Nat → Except Err T} {g : T → Nat}
    (hfetch : ∀ x y, fetch x = .ok y → g y = x) {height : Nat} {pb : PendingBase} {items : List T}
    (h : pb.getPending fetch height = .ok items) : ∀ item ∈ items, g item ≤ height := by
  obtain ⟨k, hm, hk⟩ := PendingBase.getPending_ok h
  have hmap := mapM_ok_map hfetch hm
  intro item hitem
  have hmem : g item ∈ items.map g := List.mem_map_of_mem hitem
  rw [hmap, List.mem_range'_1] at hmem
  omega

theorem submitToDA_behind {T : Type} {postSubmit : List T → Submission Tx → Submission Tx}
    {g : T → Nat} {st : Store Tx} (env : SubmitEnv T)
    (hpost : ∀ items s, s.store = st → s.Behind → (∀ item ∈ items, g item ≤ st.height) →
      (postSubmit items s).store = st ∧ (postSubmit items s).Behind)
    {items : List T} (hitems : ∀ item ∈ items, g item ≤ st.height) (hstore : s.store = st)
    (hs : s.Behind) :
    (submitToDA postSubmit env items s).2.store = st ∧
      (submitToDA postSubmit env items s).2.Behind := by
  have hkeeps := submitToDA_keeps postSubmit env
    (P := fun items s => s.store = st ∧ s.Behind ∧ ∀ item ∈ items, g item ≤ st.height)
    (fun items s k ⟨hstore, hs, hitems⟩ =>
      ⟨hstore, hs, fun item hitem => hitems item (List.mem_of_mem_take hitem)⟩)
    (fun items s k ⟨hstore, hs, hitems⟩ => by
      obtain ⟨hstore', hs'⟩ := hpost (items.take k) s hstore hs
        fun item hitem => hitems item (List.mem_of_mem_take hitem)
      exact ⟨hstore', hs', fun item hitem => hitems item (List.mem_of_mem_drop hitem)⟩)
    ⟨hstore, hs, hitems⟩
  obtain ⟨_, hstore', hs', _⟩ := hkeeps
  exact ⟨hstore', hs'⟩

theorem headerRound_behind (hheights : Heights s.store) (hs : s.Behind)
    (env : SubmitEnv SignedHeader) :
    (headerRound env s).2.store = s.store ∧ (headerRound env s).2.Behind := by
  unfold headerRound
  rw [get_bind_run]
  cases hp : getPendingHeaders s.store s.headers with
  | error e => exact ⟨rfl, hs⟩
  | ok items =>
    have hitems := getPending_heights (fun _ _ => fetchSignedHeader_height hheights) hp
    show (submitHeaders env items s).2.store = s.store ∧ (submitHeaders env items s).2.Behind
    unfold submitHeaders
    split
    · exact ⟨rfl, hs⟩
    · cases hmarshal : env.marshal with
      | false =>
        rw [bind_run_error (require_run_false rfl _ s)]
        exact ⟨rfl, hs⟩
      | true =>
        rw [bind_run_ok (require_run_true rfl _ s)]
        refine submitToDA_behind env ?_ hitems rfl hs
        intro items s' hstore hs' hle
        refine ⟨hstore, ?_, hs'.data⟩
        refine hs'.headers.postSubmit (fun x hx => ?_) env.written
        obtain ⟨item, hitem, rfl⟩ := List.mem_map.mp hx
        rw [hstore]
        exact hle item hitem

theorem dataRound_behind (hheights : Heights s.store) (hs : s.Behind) (env : SubmitEnv (Data Tx)) :
    (dataRound env s).2.store = s.store ∧ (dataRound env s).2.Behind := by
  rcases dataRound_cases env s with heq | ⟨items, hp, heq⟩
  · rw [heq]
    exact ⟨rfl, hs⟩
  · rw [heq]
    have hitems : ∀ item ∈ items, item.height ≤ s.store.height := by
      unfold getPendingData at hp
      split at hp
      · cases hp
      · next fetched hfetched =>
        cases hp
        intro item hitem
        exact getPending_heights (fun _ _ => fetchData_height hheights) hfetched item
          (List.mem_filter.mp hitem).1
    refine submitToDA_behind env ?_ (fun item hitem => hitems item (List.mem_filter.mp hitem).1)
      rfl hs
    intro items s' hstore hs' hle
    refine ⟨hstore, hs'.headers, ?_⟩
    refine hs'.data.postSubmit (fun x hx => ?_) env.written
    obtain ⟨item, hitem, rfl⟩ := List.mem_map.mp hx
    rw [hstore]
    exact hle item hitem

theorem advanceLoop_within {st : Store Tx} {bound : Nat} (written : Bool) :
    ∀ (heights : List Nat) (pb : PendingBase), (∀ x ∈ heights, x ≤ bound) → pb.Within bound →
      (advanceLoop st written heights pb).Within bound := by
  intro heights
  induction heights with
  | nil => intro pb _ h; exact h
  | cons x heights ih =>
    intro pb hle h
    unfold advanceLoop
    split
    · exact h
    · split
      · exact h
      · exact ih _ (fun y hy => hle y (List.mem_cons_of_mem _ hy))
          (h.setLastSubmittedHeight (hle x List.mem_cons_self) written)

theorem advancePastEmptyData_within {st : Store Tx} {pb : PendingBase} (written : Bool)
    (h : pb.Within st.height) : (advancePastEmptyData st written pb).Within st.height := by
  refine advanceLoop_within written _ _ (fun x hx => ?_) h
  rw [List.mem_range'_1] at hx
  have := h.lastHeight
  omega

end Submission

/-! ## Runs -/

namespace CursorNode

variable {blobHash : SignedHeader → Bytes} {n : CursorNode Tx}

/-- No rollback goes below a cursor, and no cursor of a leader is taken over that is above the own
chain. -/
def Respects (n : CursorNode Tx) : Op Tx → Prop
  | .raftState headerHeight dataHeight _ =>
    headerHeight ≤ n.store.height ∧ dataHeight ≤ n.store.height
  | .rollback height _ => n.headers.lastHeight ≤ height ∧ n.data.lastHeight ≤ height
  | _ => True

instance (n : CursorNode Tx) (op : Op Tx) : Decidable (n.Respects op) := by
  cases op <;> dsimp only [Respects] <;> infer_instance

/-- Both cursors are at or below the store height, and blocks are where they belong. -/
structure Behind (n : CursorNode Tx) : Prop where
  heights : Submission.Heights n.store.toStore
  headers : n.headers.Within n.store.height
  data : n.data.Within n.store.height

theorem Behind.submission (hn : n.Behind) : n.submission.Behind := ⟨hn.headers, hn.data⟩

theorem Behind.withSubmission (hn : n.Behind) {s : Submission Tx}
    (h : s.store = n.submission.store ∧ s.Behind) : (n.withSubmission s).Behind := by
  obtain ⟨hstore, hs⟩ := h
  have hheight : s.store.height = n.store.height := congrArg Store.height hstore
  exact ⟨hn.heights, hheight ▸ hs.headers, hheight ▸ hs.data⟩

theorem Behind.commit (hn : n.Behind) (header : SignedHeader) (data : Data Tx) (signature : Bytes)
    (state : State) : (n.commit blobHash header data signature state).Behind := by
  unfold CursorNode.commit
  split
  · next hnext =>
    obtain ⟨hheader, hdata⟩ := hnext
    have hheight : (n.store.commitBlock blobHash header data signature state).height =
        n.store.height + 1 := PruningNode.height_commitBlock hheader
    have hle : n.store.height ≤
        (n.store.commitBlock blobHash header data signature state).height := by omega
    refine ⟨?_, hn.headers.mono hle, hn.data.mono hle⟩
    intro h b hb
    rw [PruningNode.get?_blocks_commitBlock hheader] at hb
    split at hb
    · next heq =>
      cases hb
      exact ⟨hheader.trans heq.symm, hdata.trans heq.symm⟩
    · exact hn.heights h b hb
  · exact hn

theorem Behind.rollback (hn : n.Behind) {height : Nat} {s : DefaultStore Tx}
    (hr : DefaultStore.RolledBack blobHash height n.store s)
    (hheaders : n.headers.lastHeight ≤ height) (hdata : n.data.lastHeight ≤ height) :
    ({ n with store := s } : CursorNode Tx).Behind := by
  have hheight : s.height = height := hr.height_eq
  refine ⟨?_, ⟨hheight ▸ hheaders, hn.headers.stored⟩, ⟨hheight ▸ hdata, hn.data.stored⟩⟩
  intro h b hb
  by_cases hh : height < h ∧ h ≤ n.store.height
  · rw [hr.blocks_removed h hh.1 hh.2] at hb
    cases hb
  · rw [hr.blocks_kept h (by omega)] at hb
    exact hn.heights h b hb

theorem Behind.step (hn : n.Behind) {op : Op Tx} (hop : n.Respects op) :
    (n.step blobHash op).Behind := by
  cases op with
  | commit header data signature state => exact hn.commit header data signature state
  | submitHeaders env =>
    exact hn.withSubmission (Submission.headerRound_behind hn.heights hn.submission env)
  | submitData env =>
    exact hn.withSubmission (Submission.dataRound_behind hn.heights hn.submission env)
  | advancePastEmptyData written =>
    exact ⟨hn.heights, hn.headers, Submission.advancePastEmptyData_within written hn.data⟩
  | raftState headerHeight dataHeight written =>
    exact ⟨hn.heights, hn.headers.setLastSubmittedHeight hop.1 written,
      hn.data.setLastSubmittedHeight hop.2 written⟩
  | rollback height aggregator =>
    simp only [CursorNode.step]
    split
    · next s hok => exact hn.rollback (DefaultStore.rollback_ok blobHash hok) hop.1 hop.2
    · exact hn
  | restart => exact ⟨hn.heights, hn.headers.restart, hn.data.restart⟩

theorem behind_initial (initialHeight : Nat) : (initial initialHeight : CursorNode Tx).Behind := by
  refine ⟨?_, PendingBase.within_new, PendingBase.within_new⟩
  intro h b hb
  cases hb

/--
**The cursors are never ahead of the chain.**

In every run in which no rollback and no raft state crosses a cursor, both cursors are at most the
store height, the numbers of pending items are the plain differences, and a block that is committed
is above both cursors.
-/
theorem cursors_behind (blobHash : SignedHeader → Bytes) (initialHeight : Nat) (ops : List (Op Tx))
    (hops : Run.Meets (step blobHash) Respects (initial initialHeight) ops) (n : CursorNode Tx)
    (hn : n = Run.exec (step blobHash) (initial initialHeight) ops) :
    n.headers.lastHeight ≤ n.store.height ∧ n.data.lastHeight ≤ n.store.height ∧
    n.headers.numPending n.store.height = n.store.height - n.headers.lastHeight ∧
    n.data.numPending n.store.height = n.store.height - n.data.lastHeight ∧
    ∀ header data signature state, n.commit blobHash header data signature state ≠ n →
      n.headers.lastHeight < header.header.height ∧ n.data.lastHeight < header.header.height := by
  have hbehind : n.Behind := hn ▸ Run.invariant Behind (fun _ _ hs hop => hs.step hop) ops _
    (behind_initial initialHeight) hops
  have hheaders := hbehind.headers.lastHeight
  have hdata := hbehind.data.lastHeight
  refine ⟨hheaders, hdata, hbehind.headers.numPending, hbehind.data.numPending, ?_⟩
  intro header data signature state hchanged
  -- only the next block changes the node
  by_cases hnext : header.header.height = n.store.height + 1 ∧ data.height = n.store.height + 1
  · omega
  · exact absurd (if_neg hnext) hchanged

namespace CursorRun

def digest (sh : SignedHeader) : Bytes := [UInt8.ofNat sh.header.height]

def state (height : Nat) : State :=
  ⟨⟨0, 0⟩, "chain", 1, height, 0, [], 0, [], [7]⟩

/-- The next block, with one transaction. -/
def block (height : Nat) : Op RawTx :=
  .commit ⟨⟨height, 0, "chain", ⟨0, 0⟩, [], [], [], [], [7]⟩, [1], [], [7]⟩
    ⟨"chain", height, 0, [], [⟨1, 1⟩]⟩ [1] (state height)

/-- Both headers are confirmed at once. -/
def env : SubmitEnv SignedHeader :=
  ⟨true, fun _ => 1, 10, 1, fun _ => false, fun _ => .success 2, true⟩

/-- Two blocks, whose headers are submitted, and a raft state of the same leader. -/
def submitted : List (Op RawTx) :=
  [block 1, block 2, .submitHeaders env, .raftState 1 2 true, .restart]

/-- The second block is rolled back after its header was submitted, and the node starts again. -/
def rolledBack : List (Op RawTx) :=
  [block 1, block 2, .submitHeaders env, .rollback 1 true, .restart]

def after (ops : List (Op RawTx)) : CursorNode RawTx := Run.exec (step digest) (initial 1) ops

end CursorRun

open CursorRun in
theorem cursors_behind_submitted :
    (after submitted).headers.lastHeight = 2 ∧ (after submitted).data.lastHeight = 2 ∧
      (after submitted).headers.lastHeight ≤ (after submitted).store.height :=
  ⟨by decide, by decide, (cursors_behind digest 1 submitted (by decide) _ rfl).1⟩

open CursorRun in
/-- After the rollback the cursor is ahead, the number of pending headers wraps around, and the
second block that is produced then is never pending. A raft state puts the cursor ahead of an empty
chain. -/
theorem cursor_ahead :
    (after rolledBack).store.height = 1 ∧ (after rolledBack).headers.lastHeight = 2 ∧
    (after rolledBack).headers.numPending (after rolledBack).store.height = 2 ^ 64 - 1 ∧
    (after (rolledBack ++ [block 2])).store.height = 2 ∧
    (getPendingHeaders (after (rolledBack ++ [block 2])).store.toStore
      (after (rolledBack ++ [block 2])).headers).toOption = some [] ∧
    (after [.raftState 5 5 true]).store.height = 0 ∧
    (after [.raftState 5 5 true]).headers.lastHeight = 5 := by
  refine ⟨?_, ?_, ?_, ?_, ?_, ?_, ?_⟩ <;> decide

end CursorNode

end EvNode
