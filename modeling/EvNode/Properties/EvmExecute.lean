import EvNode.Evm.Engine
import EvNode.Properties.ExecMeta

/-!
# What a successful execution leaves in the execution layer

`Sound P` says that every block the execution layer serves, holds as a payload or can be told to move
to is built from payloads that satisfy `P`, and that a started record leads to a payload of its own
height and time. Every operation keeps it, with `P` the payloads that were asked for.

A successful `ExecuteTxs` therefore ends with a block of the requested height and second that some
call asked for (`executeTxs_spec`). It is the block of this call when no earlier call at the height,
in the same second, had other transactions (`execute_builds`). Otherwise the block of the earlier
call is returned (`execute_reuses_other`).
-/

namespace EvNode

open Crash Proc EVMStore

namespace ExecutionLayer

variable {el : ExecutionLayer} {b c : ELBlock} {keepsHead : Bool}

def Canonical (b : ELBlock) (el : ExecutionLayer) : Prop := el.headerByNumber b.height = some b

theorem canonical_of_headerByNumber {height : Nat} (h : el.headerByNumber height = some b) :
    el.Canonical b := by
  unfold Canonical
  rw [Lineage.height_of_at? h]
  exact h

/-- The head moves to the block, or it stays above it. -/
theorem setCanonical_cases (keepsHead : Bool) (b : ELBlock) (el : ExecutionLayer) :
    (el.setCanonical keepsHead b = el ∧ el.Canonical b) ∨
      el.setCanonical keepsHead b = { el with head := b } := by
  unfold setCanonical
  split
  · next h => exact .inl ⟨rfl, h.2⟩
  · exact .inr rfl

theorem canonical_setCanonical : (el.setCanonical keepsHead b).Canonical b := by
  rcases setCanonical_cases keepsHead b el with ⟨heq, h⟩ | heq
  · rw [heq]
    exact h
  · rw [heq]
    exact Lineage.at?_self b

@[simp] theorem payloads_setCanonical : (el.setCanonical keepsHead b).payloads = el.payloads := by
  rcases setCanonical_cases keepsHead b el with ⟨heq, -⟩ | heq <;> rw [heq]

theorem payloads_build {id id' : Bytes} (haccepts : el.accepts id c = true)
    (h : el.payloads id' = some b) : (el.build id c).payloads id' = some b := by
  unfold accepts at haccepts
  unfold build
  simp only [decide_eq_true_eq] at haccepts ⊢
  by_cases heq : id' = id
  · subst heq
    rw [Function.update_self]
    rcases haccepts.2.2 with hnone | hsome
    · rw [hnone] at h
      cases h
    · exact hsome.symm.trans h
  · rw [Function.update_of_ne heq]
    exact h

theorem payloads_of_getPayload {id : Bytes} (h : el.getPayload id = some b) :
    el.payloads id = some b := by
  unfold getPayload at h
  split at h
  · exact h
  · cases h

end ExecutionLayer

namespace EngineNode

open ExecutionLayer

variable {cfg : EngineConfig} {P : Nat → Payload → Prop} {n : EngineNode} {b : ELBlock}

/-- The payload a started record of a height leads to. -/
def Leads (n : EngineNode) (height : UInt64) (execMeta : ExecMeta) : Prop :=
  ∃ b, n.el.payloads execMeta.payloadID = some b ∧ b.height = height.toNat ∧
    b.timestamp = execMeta.timestamp

structure Sound (P : Nat → Payload → Prop) (n : EngineNode) : Prop where
  head : n.el.head.All P
  label : n.currentHeadBlockHash.All P
  payloads : ∀ id b, n.el.payloads id = some b → b.All P
  started : ∀ height execMeta, SlashFree height → height ≠ 0 →
    n.store.getExecMeta height = .ok (some execMeta) → execMeta.stage = .started →
    n.Leads height execMeta

namespace Sound

theorem start : (EngineNode.start cfg).Sound P := by
  constructor
  · exact trivial
  · exact trivial
  · intro id b h
    cases h
  · intro height execMeta _ _ h
    cases h

theorem congr (h : n.Sound P) {n' : EngineNode} (hel : n'.el = n.el) (hstore : n'.store = n.store)
    (hlabel : n'.currentHeadBlockHash.All P) : n'.Sound P := by
  constructor
  · rw [hel]
    exact h.head
  · exact hlabel
  · rw [hel]
    exact h.payloads
  · unfold Leads
    rw [hel, hstore]
    exact h.started

theorem canonical (h : n.Sound P) {height : Nat} (hb : n.el.headerByNumber height = some b) :
    b.All P := h.head.at? hb

theorem setCanonical (h : n.Sound P) (keepsHead : Bool) (hb : b.All P) :
    { n with el := n.el.setCanonical keepsHead b }.Sound P := by
  constructor
  · rcases setCanonical_cases keepsHead b n.el with ⟨heq, -⟩ | heq
    · simpa only [heq] using h.head
    · simpa only [heq] using hb
  · exact h.label
  · simpa only [payloads_setCanonical] using h.payloads
  · simpa only [Leads, payloads_setCanonical] using h.started

theorem build (h : n.Sound P) {id : Bytes} (haccepts : n.el.accepts id b = true) (hb : b.All P) :
    { n with el := n.el.build id b }.Sound P := by
  constructor
  · exact h.head
  · exact h.label
  · intro id' b' hid
    simp only [ExecutionLayer.build] at hid
    by_cases heq : id' = id
    · rw [heq, Function.update_self] at hid
      cases hid
      exact hb
    · rw [Function.update_of_ne heq] at hid
      exact h.payloads id' b' hid
  · intro height execMeta hfree hne hget hstage
    obtain ⟨b', hb', hheight⟩ := h.started height execMeta hfree hne hget hstage
    exact ⟨b', payloads_build haccepts hb', hheight⟩

theorem saveExecMeta (h : n.Sound P) {execMeta : ExecMeta}
    (hleads : execMeta.height ≠ 0 → execMeta.stage = .started → n.Leads execMeta.height execMeta) :
    { n with store := n.store.saveExecMeta execMeta }.Sound P := by
  constructor
  · exact h.head
  · exact h.label
  · exact h.payloads
  · intro height execMeta' hfree hne hget hstage
    rw [getExecMeta_saveExecMeta hfree] at hget
    by_cases heq : height = execMeta.height
    · rw [if_pos heq] at hget
      cases hget
      subst heq
      exact hleads hne hstage
    · rw [if_neg heq] at hget
      exact h.started height execMeta' hfree hne hget hstage

theorem pruneExec (h : n.Sound P) (height : UInt64) :
    { n with store := n.store.pruneExec height }.Sound P := by
  constructor
  · exact h.head
  · exact h.label
  · exact h.payloads
  · intro height' execMeta hfree hne hget hstage
    exact h.started height' execMeta hfree hne (getExecMeta_of_pruneExec hget) hstage

theorem newClient (h : n.Sound P) : (newEngineExecutionClient cfg n).Sound P :=
  h.congr rfl rfl trivial

theorem restartEL (h : n.Sound P) (height : Nat) :
    { n with el := n.el.restart height }.Sound P := by
  constructor
  · show ((n.el.headerByNumber height).getD n.el.head).All P
    cases hb : n.el.headerByNumber height with
    | none => exact h.head
    | some b => exact h.canonical hb
  · exact h.label
  · exact h.payloads
  · exact h.started

end Sound

/-! ## Calls to the execution layer -/

variable {o : RpcOutcome} {E : Err → EngineNode → Prop} {C : EngineNode → Prop}

/-- A call that is applied or not, whatever the answer. -/
theorem wp_rpc {e : Err} {f : ExecutionLayer → ExecutionLayer}
    {Q : Unit → EngineNode → Prop}
    (hok : o = .ok → Q () { n with el := f n.el })
    (herr : E e n ∧ E e { n with el := f n.el }) (hcrash : C n ∧ C { n with el := f n.el }) :
    wp (rpc o e f) Q E C n := by
  cases o with
  | ok => exact hok rfl
  | refused => exact herr.1
  | lost => exact herr.2
  | crash => exact hcrash.1
  | crashAfter => exact hcrash.2

theorem wp_getBlockInfo {o : LookupOutcome} {height : Nat} {Q : ELBlock → EngineNode → Prop}
    (hok : ∀ b, n.el.headerByNumber height = some b → Q b n)
    (herr : (o = .ok → n.el.headerByNumber height = none) → ∀ e, E e n) (hcrash : C n) :
    wp (getBlockInfo o height) Q E C n := by
  unfold wp getBlockInfo
  cases o with
  | crash => exact hcrash
  | fail | pruned => exact herr (by simp) _
  | ok =>
    cases hb : n.el.headerByNumber height with
    | none => exact herr (fun _ => hb) _
    | some b => exact hok b hb

theorem wp_fetchPayload {o : Outcome} {id : Bytes} {Q : ELBlock → EngineNode → Prop}
    (hok : ∀ b, n.el.payloads id = some b → Q b n) (herr : ∀ e, E e n) (hcrash : C n) :
    wp (fetchPayload o id) Q E C n := by
  simp only [fetchPayload, wp_bind, wp_io, wp_get]
  refine ⟨fun _ => ?_, fun _ => herr _, fun _ => hcrash⟩
  cases hb : n.el.getPayload id with
  | none => exact herr _
  | some b => exact hok b (payloads_of_getPayload hb)

/-- The lookup of a lagging block changes nothing. It finds what the cache or the chain has. -/
theorem wp_laggingBlock {o : LookupOutcome} {headHeight lag : Nat}
    {Q : Option ELBlock → EngineNode → Prop}
    (hfound : ∀ b, lag < headHeight → n.blockHashCache.get? (headHeight - lag) = some b ∨
      n.el.headerByNumber (headHeight - lag) = some b → Q (some b) n)
    (hnone : (lag < headHeight → o = .ok → n.el.headerByNumber (headHeight - lag) = none) → Q none n)
    (hcrash : C n) : wp (laggingBlock o headHeight lag) Q E C n := by
  unfold laggingBlock
  split
  · next hlag =>
    simp only [cachedBlock, wp_bind, wp_get]
    split
    · next b hb => exact hfound b hlag (.inl hb)
    · simp only [wp_bind, wp_attempt]
      exact wp_getBlockInfo (fun b hb => hfound b hlag (.inr hb)) (fun hnot _ => hnone fun _ => hnot)
        hcrash
  · next hlag => exact hnone fun hlt => absurd hlt hlag

theorem wp_laggingBlock_any {o : LookupOutcome} {headHeight lag : Nat}
    {Q : Option ELBlock → EngineNode → Prop}
    (hok : ∀ found, Q found n) (hcrash : C n) : wp (laggingBlock o headHeight lag) Q E C n :=
  wp_laggingBlock (fun _ _ _ => hok _) (fun _ => hok _) hcrash

theorem wp_doForkchoiceUpdate (h : n.Sound P) {keepsHead : Bool}
    {args : Forkchoice} (hb : args.head.All P) :
    wp (doForkchoiceUpdate o keepsHead args)
      (fun _ n' => n'.Sound P ∧ n'.el.Canonical args.head)
      (fun _ n' => n'.Sound P ∧ (n.el.Canonical args.head → n'.el.Canonical args.head))
      (Sound P) n := by
  simp only [doForkchoiceUpdate, wp_bind, wp_modify]
  have hsent : { n with sent := n.sent ++ [args] }.Sound P := h.congr rfl rfl h.label
  have hmoved := hsent.setCanonical keepsHead hb
  exact wp_rpc (fun _ => ⟨hmoved, canonical_setCanonical⟩)
    ⟨⟨hsent, fun hc => hc⟩, ⟨hmoved, fun _ => canonical_setCanonical⟩⟩ ⟨hsent, hmoved⟩

/-- A block of the chain stays on it, also when the update fails. -/
theorem wp_setHead (h : n.Sound P) {keepsHead : Bool} (hb : n.el.Canonical b) :
    wp (setHead o keepsHead b) (fun _ n' => n'.Sound P ∧ n'.el.Canonical b)
      (fun _ n' => n'.Sound P ∧ n'.el.Canonical b) (Sound P) n := by
  have hall : b.All P := h.canonical hb
  have hlabel : { n with currentHeadBlockHash := b }.Sound P := h.congr rfl rfl hall
  simp only [setHead, wp_bind, wp_modify, wp_get]
  refine wp_mono (wp_doForkchoiceUpdate hlabel hall) ?_ ?_ ?_
  · intro _ n' h'
    exact h'
  · intro _ n' h'
    exact ⟨h'.1, h'.2 hb⟩
  · intro n' h'
    exact h'

theorem wp_saveExecMeta {o : Outcome} {execMeta : ExecMeta} {Q : Unit → EngineNode → Prop}
    (hsaved : Q () { n with store := n.store.saveExecMeta execMeta }) (hkept : Q () n)
    (hcrash : C n) : wp (EngineNode.saveExecMeta o execMeta) Q E C n := by
  simp only [EngineNode.saveExecMeta, wp_bind, wp_attempt, wp_io, wp_pure]
  exact ⟨fun _ => hsaved, fun _ => hkept, fun _ => hcrash⟩

theorem wp_rollback (h : n.Sound P) {lookup : LookupOutcome} {keepsHead : Bool}
    {targetHeight : Nat} :
    wp (rollback lookup o keepsHead targetHeight) (fun _ => Sound P) (fun _ => Sound P)
      (Sound P) n := by
  simp only [rollback, wp_bind, wp_mapError, wp_modify]
  refine wp_getBlockInfo ?_ (fun _ _ => h) h
  intro b hb
  have hall := h.canonical hb
  have hlabels : { n with
      currentHeadBlockHash := b
      currentHeadHeight := targetHeight
      currentSafeBlockHash := b
      currentFinalizedBlockHash := b }.Sound P := h.congr rfl rfl hall
  refine wp_mono (wp_doForkchoiceUpdate hlabels hall) ?_ ?_ ?_
  · intro _ n' h'
    exact h'.1
  · intro _ n' h'
    exact h'.1
  · intro n' h'
    exact h'

/-! ## Executing a block -/

/-- A block of the height and second is on the chain, and the root is its state root. -/
def Executed (cfg : EngineConfig) (height : UInt64) (seconds : Int) (stateRoot : Bytes)
    (n : EngineNode) : Prop :=
  ∃ b, n.el.Canonical b ∧ b.height = height.toNat ∧ b.timestamp = seconds ∧
    stateRoot = cfg.stateRoot b

section Execute

variable {env : ExecuteEnv} {txs : List Bytes} {height : UInt64} {seconds : Int}
  {prevStateRoot : Bytes}

theorem wp_advanceHead (h : n.Sound P) (hb : b.All P) {headHeight : Nat} :
    wp (advanceHead env b headHeight) (fun _ n' => n'.Sound P ∧ n'.el.Canonical b)
      (fun _ => Sound P) (Sound P) n := by
  simp only [advanceHead, wp_bind, wp_modify, wp_get]
  refine wp_laggingBlock_any (fun safe => ?_) h
  refine wp_laggingBlock_any (fun finalized => ?_) h
  have hlabels : { n with
      currentHeadBlockHash := b
      currentHeadHeight := headHeight
      currentSafeBlockHash := safe.getD n.currentSafeBlockHash
      currentFinalizedBlockHash := finalized.getD n.currentFinalizedBlockHash }.Sound P :=
    h.congr rfl rfl hb
  refine wp_mono (wp_doForkchoiceUpdate hlabels hb) ?_ ?_ ?_
  · intro _ n' h'
    exact h'
  · intro _ n' h'
    exact h'.1
  · intro n' h'
    exact h'

theorem wp_processPayload (h : n.Sound P) {id : Bytes} (hid : n.el.payloads id = some b) :
    wp (processPayload cfg env id txs)
      (fun root n' => n'.Sound P ∧ n'.el.Canonical b ∧ root = cfg.stateRoot b)
      (fun _ => Sound P) (Sound P) n := by
  simp only [processPayload, wp_bind, wp_mapError, wp_io, wp_modify]
  refine wp_fetchPayload ?_ (fun _ => h) h
  intro b' hb'
  obtain rfl : b = b' := Option.some.inj (hid.symm.trans hb')
  refine ⟨fun _ => ?_, fun _ => h, fun _ => h⟩
  have hcached : (cacheBlockHash b.height b n).Sound P := h.congr rfl rfl h.label
  refine wp_imp (wp_advanceHead hcached (h.payloads id b hid)) ?_
  rintro _ n' ⟨hn', hcanonical⟩
  -- the record is of a promoted block, so it asks nothing of the payloads
  exact wp_saveExecMeta ⟨hn'.saveExecMeta (by simp), hcanonical, rfl⟩ ⟨hn', hcanonical, rfl⟩ hn'

theorem height_sub_one (hne : height ≠ 0) : (height - 1).toNat + 1 = height.toNat := by
  have hpos : 0 < height.toNat := by
    refine Nat.pos_of_ne_zero fun hzero => hne ?_
    exact UInt64.toNat.inj hzero
  have hle : (1 : UInt64) ≤ height := UInt64.le_iff_toNat_le.mpr hpos
  rw [UInt64.toNat_sub_of_le _ _ hle]
  show height.toNat - 1 + 1 = height.toNat
  omega

theorem wp_startPayload (h : n.Sound P) {args : Forkchoice} (hhead : args.head.All P)
    (hb : b.All P) :
    wp (startPayload env args b)
      (fun _ n' => n'.Sound P ∧ n'.el.payloads env.payloadID = some b) (fun _ => Sound P)
      (Sound P) n := by
  simp only [startPayload, wp_bind, wp_modify, wp_get]
  have hsent : { n with sent := n.sent ++ [args] }.Sound P := h.congr rfl rfl h.label
  have hmoved := hsent.setCanonical env.keepsHead hhead
  split
  · next haccepts =>
    have haccepts' : (n.el.setCanonical env.keepsHead args.head).accepts env.payloadID b = true := by
      simpa only [accepts, payloads_setCanonical] using haccepts
    have hbuilt := hmoved.build haccepts' hb
    exact wp_rpc (fun _ => ⟨hbuilt, Function.update_self ..⟩) ⟨hsent, hbuilt⟩ ⟨hsent, hbuilt⟩
  · simp only [wp_bind, wp_throw]
    exact wp_rpc (fun _ => hmoved) ⟨hsent, hmoved⟩ ⟨hsent, hmoved⟩

theorem wp_buildBlock (h : n.Sound P)
    (hP : P ((height - 1).toNat + 1) ⟨seconds, filterTransactions txs⟩) :
    wp (buildBlock cfg env txs height seconds prevStateRoot)
      (fun root n' => n'.Sound P ∧ (height ≠ 0 → n'.Executed cfg height seconds root))
      (fun _ => Sound P) (Sound P) n := by
  simp only [buildBlock, wp_bind, wp_mapError, wp_require, wp_modify, wp_get]
  refine wp_getBlockInfo ?_ (fun _ _ => h) h
  intro prev hprev
  refine ⟨fun _ => ?_, fun _ => h⟩
  have hheight : prev.height = (height - 1).toNat := Lineage.height_of_at? hprev
  have hcached : (cacheBlockHash (height - 1).toNat prev n).Sound P := h.congr rfl rfl h.label
  have hprevAll := h.canonical hprev
  have hall : Lineage.All P (.next prev ⟨seconds, filterTransactions txs⟩) :=
    ⟨hheight ▸ hP, hprevAll⟩
  refine wp_imp (wp_startPayload hcached hprevAll hall) ?_
  rintro _ n₁ ⟨h₁, hid⟩
  have hown : height ≠ 0 → prev.height + 1 = height.toNat := by
    intro hne
    rw [hheight, height_sub_one hne]
  have hprocess : ∀ n₂ : EngineNode, n₂.Sound P → n₂.el = n₁.el →
      wp (processPayload cfg env env.payloadID txs)
        (fun root n' => n'.Sound P ∧ (height ≠ 0 → n'.Executed cfg height seconds root))
        (fun _ => Sound P) (Sound P) n₂ := by
    intro n₂ h₂ hel
    refine wp_imp (wp_processPayload h₂ (hel ▸ hid)) ?_
    rintro root n' ⟨hn', hcanonical, hroot⟩
    exact ⟨hn', fun hne => ⟨_, hcanonical, hown hne, rfl, hroot⟩⟩
  refine wp_saveExecMeta (hprocess _ (h₁.saveExecMeta ?_) rfl) (hprocess n₁ h₁ rfl) h₁
  intro hne _
  exact ⟨_, hid, hown hne, rfl⟩

/-- What is known about the answer of the idempotency check. -/
def Reconciled.Holds (cfg : EngineConfig) (height : UInt64) (seconds : Int) (n : EngineNode) :
    Reconciled → Prop
  | .executed stateRoot => n.Executed cfg height seconds stateRoot
  | .inProgress payloadID => ∃ b, n.el.payloads payloadID = some b ∧
      (SlashFree height → height ≠ 0 → b.height = height.toNat ∧ b.timestamp = seconds)
  | .notFound => True

/-- A block found at the height stays there while the head is set to it. -/
theorem executed_of_canonical {b' : ELBlock} {n' : EngineNode}
    (hb : n.el.headerByNumber height.toNat = some b') (htime : b'.timestamp = seconds)
    (h' : n'.el.Canonical b') : n'.Executed cfg height seconds (cfg.stateRoot b') :=
  ⟨b', h', Lineage.height_of_at? hb, htime, rfl⟩

theorem wp_reusePromoted (h : n.Sound P) {execMeta : ExecMeta} :
    wp (reusePromoted cfg env height seconds execMeta)
      (fun found n' => n'.Sound P ∧
        (∀ root ∈ found, n'.Executed cfg height seconds root) ∧
        (execMeta.stage = .started → found = none ∧ n' = n))
      (fun _ => Sound P) (Sound P) n := by
  unfold reusePromoted
  split
  · next hmeta =>
    have hstage : execMeta.stage ≠ .started := by
      rw [hmeta.1]
      decide
    have hnone : n.Sound P ∧ (∀ root ∈ (none : Option Bytes), n.Executed cfg height seconds root) ∧
        (execMeta.stage = .started → (none : Option Bytes) = none ∧ n = n) :=
      ⟨h, by simp, fun hs => absurd hs hstage⟩
    simp only [wp_bind, wp_attempt]
    refine wp_getBlockInfo ?_ (fun _ _ => hnone) h
    intro b hb
    split
    · next htime =>
      have hdone : ∀ n' : EngineNode, n'.Sound P ∧ n'.el.Canonical b → n'.Sound P ∧
          (∀ root ∈ some (cfg.stateRoot b), n'.Executed cfg height seconds root) ∧
          (execMeta.stage = .started → some (cfg.stateRoot b) = none ∧ n' = n) := by
        rintro n' ⟨hn', hcanonical⟩
        refine ⟨hn', ?_, fun hs => absurd hs hstage⟩
        rintro root ⟨⟩
        exact executed_of_canonical hb htime hcanonical
      simp only [wp_bind, wp_attempt]
      exact wp_mono (wp_setHead h (canonical_of_headerByNumber hb)) (fun _ n' h' => hdone n' h')
        (fun _ n' h' => hdone n' h') (fun _ h' => h')
    · exact hnone
  · exact ⟨h, by simp, fun _ => ⟨rfl, rfl⟩⟩

theorem wp_reuseExisting (h : n.Sound P) :
    wp (reuseExisting cfg env txs height seconds)
      (fun r n' => n'.Sound P ∧ r.Holds cfg height seconds n') (fun _ => Sound P) (Sound P) n := by
  simp only [reuseExisting, wp_bind, wp_attempt]
  refine wp_getBlockInfo ?_ (fun _ _ => ⟨h, trivial⟩) h
  intro b hb
  split
  · next htime =>
    have hdone : ∀ n' : EngineNode, n'.Sound P ∧ n'.el.Canonical b →
        wp (EngineNode.saveExecMeta env.saveExisting ⟨height, [], [], cfg.blockHash b,
            cfg.stateRoot b, hashTxs cfg txs, seconds, .promoted, env.now⟩)
          (fun _ n' => n'.Sound P ∧
            (Reconciled.executed (cfg.stateRoot b)).Holds cfg height seconds n')
          (fun _ => Sound P) (Sound P) n' := by
      rintro n' ⟨hn', hcanonical⟩
      exact wp_saveExecMeta
        ⟨hn'.saveExecMeta (by simp), executed_of_canonical hb htime hcanonical⟩
        ⟨hn', executed_of_canonical hb htime hcanonical⟩ hn'
    simp only [wp_bind, wp_attempt, wp_pure]
    exact wp_mono (wp_setHead h (canonical_of_headerByNumber hb)) (fun _ n' h' => hdone n' h')
      (fun _ n' h' => hdone n' h') (fun _ h' => h')
  · split
    · simp only [wp_bind, wp_mapError, wp_pure]
      exact wp_imp (wp_rollback h) (fun _ _ h' => ⟨h', trivial⟩)
    · exact ⟨h, trivial⟩

theorem wp_reuseStarted (h : n.Sound P) {execMeta : ExecMeta}
    {E : Err → EngineNode → Prop} {C : EngineNode → Prop}
    (hget : n.store.getExecMeta height = .ok (some execMeta)) (hcrash : C n) :
    wp (reuseStarted cfg env txs seconds execMeta)
      (fun found n' => n' = n ∧
        ∀ id ∈ found, (Reconciled.inProgress id).Holds cfg height seconds n) E C n := by
  unfold reuseStarted
  split
  · next hmeta =>
    obtain ⟨hstage, -, htime, -⟩ := hmeta
    simp only [wp_bind, wp_attempt]
    refine wp_fetchPayload ?_ (fun _ => ⟨rfl, by simp⟩) hcrash
    intro b hb
    refine ⟨rfl, ?_⟩
    rintro id ⟨⟩
    refine ⟨b, hb, fun hfree hne => ?_⟩
    obtain ⟨b', hb', hheight, htime'⟩ := h.started height execMeta hfree hne hget hstage
    obtain rfl : b = b' := Option.some.inj (hb.symm.trans hb')
    exact ⟨hheight, htime'.trans htime⟩
  · exact ⟨rfl, by simp⟩

theorem wp_reconcile (h : n.Sound P) :
    wp (reconcileExecutionAtHeight cfg env txs height seconds)
      (fun r n' => n'.Sound P ∧ r.Holds cfg height seconds n') (fun _ => Sound P) (Sound P) n := by
  simp only [reconcileExecutionAtHeight, wp_bind, wp_get]
  split
  · next execMeta hget =>
    simp only [wp_bind]
    refine wp_imp (wp_reusePromoted h) ?_
    rintro found n₁ ⟨h₁, hexecuted, hstarted⟩
    cases found with
    | some root => exact ⟨h₁, hexecuted root rfl⟩
    | none =>
      simp only [wp_bind]
      by_cases hstage : execMeta.stage = .started
      · obtain ⟨-, rfl⟩ := hstarted hstage
        refine wp_imp (wp_reuseStarted h₁ hget h₁) ?_
        rintro found n₂ ⟨rfl, hpayload⟩
        cases found with
        | some id => exact ⟨h₁, hpayload id rfl⟩
        | none => exact wp_reuseExisting h₁
      · -- a record of another stage is not looked at
        rw [reuseStarted, if_neg (fun hs => hstage hs.1)]
        exact wp_reuseExisting h₁
  · exact wp_reuseExisting h

theorem wp_executionResult {root : Bytes} {Q : EvmResult → EngineNode → Prop}
    {E : Err → EngineNode → Prop} {C : EngineNode → Prop}
    (hok : ∀ next, Q ⟨root, next⟩ n) (herr : ∀ e, E e n) (hcrash : C n) :
    wp (executionResultAfterBlock env root height) Q E C n := by
  have hquery : ∀ {reply : ProposerReply} {k : UInt64} {Q' : Option Bytes → EngineNode → Prop},
      (∀ r, Q' r n) → wp (nextProposerAtBlock reply k) Q' E C n := by
    intro reply k Q' hQ
    cases reply with
    | proposer hash | methodNotFound => exact hQ _
    | fail => exact herr _
    | crash => exact hcrash
  simp only [executionResultAfterBlock, nextProposerChangeAfterBlock, wp_bind]
  split
  · exact hok _
  · simp only [wp_bind]
    refine hquery fun before => ?_
    cases before with
    | none => exact hok _
    | some before =>
      simp only [wp_bind]
      refine hquery fun after => ?_
      cases after with
      | none => exact hok _
      | some after =>
        dsimp only
        split <;> exact hok _

/-- A call that succeeds ends with a block of its height and second on the chain. -/
theorem executeTxs_spec (h : n.Sound P) {time : Time}
    (hP : P ((height - 1).toNat + 1) ⟨unix time, filterTransactions txs⟩) :
    wp (executeTxs cfg env txs height time prevStateRoot)
      (fun r n' => n'.Sound P ∧
        (SlashFree height → height ≠ 0 → n'.Executed cfg height (unix time) r.updatedStateRoot))
      (fun _ => Sound P) (Sound P) n := by
  have hend : ∀ (root : Bytes) (n' : EngineNode), n'.Sound P →
      (SlashFree height → height ≠ 0 → n'.Executed cfg height (unix time) root) →
      wp (executionResultAfterBlock env root height)
        (fun r n' => n'.Sound P ∧ (SlashFree height → height ≠ 0 →
          n'.Executed cfg height (unix time) r.updatedStateRoot))
        (fun _ => Sound P) (Sound P) n' := by
    intro root n' hn' hexecuted
    exact wp_executionResult (fun _ => ⟨hn', hexecuted⟩) (fun _ => hn') hn'
  have hbuild : ∀ n₁ : EngineNode, n₁.Sound P →
      wp (buildBlock cfg env txs height (unix time) prevStateRoot)
        (fun root n' => wp (executionResultAfterBlock env root height)
          (fun r n' => n'.Sound P ∧ (SlashFree height → height ≠ 0 →
            n'.Executed cfg height (unix time) r.updatedStateRoot))
          (fun _ => Sound P) (Sound P) n')
        (fun _ => Sound P) (Sound P) n₁ := by
    intro n₁ h₁
    refine wp_imp (wp_buildBlock h₁ hP) ?_
    rintro root n' ⟨hn', hexecuted⟩
    exact hend root n' hn' fun _ => hexecuted
  simp only [executeTxs, wp_bind, wp_attempt]
  refine wp_mono (wp_reconcile h) ?_ (fun _ n₁ h₁ => hbuild n₁ h₁) (fun _ h' => h')
  rintro r n₁ ⟨h₁, hr⟩
  cases r with
  | executed root => exact hend root n₁ h₁ fun _ _ => hr
  | notFound => exact (wp_bind _ _).mpr (hbuild n₁ h₁)
  | inProgress id =>
    obtain ⟨b, hid, hb⟩ := hr
    refine (wp_bind _ _).mpr
      (wp_imp (wp_processPayload h₁ hid) ?_)
    rintro root n' ⟨hn', hcanonical, hroot⟩
    refine hend root n' hn' fun hfree hne => ?_
    obtain ⟨hheight, htime⟩ := hb hfree hne
    exact ⟨b, hcanonical, hheight, htime, hroot⟩

end Execute

theorem wp_setFinal (h : n.Sound P) {env : FinalEnv} {height : UInt64} :
    wp (setFinal env height) (fun _ => Sound P) (fun _ => Sound P) (Sound P) n := by
  simp only [setFinal, wp_bind, wp_attempt]
  refine wp_getBlockInfo ?_ ?_ h
  · intro b hb
    simp only [setFinalHash, wp_bind, wp_modify, wp_get]
    have hlabels : { n with currentFinalizedBlockHash := b, currentSafeBlockHash := b }.Sound P :=
      h.congr rfl rfl h.label
    exact wp_mono (wp_doForkchoiceUpdate hlabels h.label) (fun _ _ h' => h'.1) (fun _ _ h' => h'.1)
      (fun _ h' => h')
  · intro _ e
    split
    · simp [h]
    · exact h

/-! ## Runs -/

/-- Some call of the run asks for a payload at a height. -/
def Requested (ops : List Op) (height : Nat) (payload : Payload) : Prop :=
  ∃ env txs h time prevStateRoot, Op.executeTxs env txs h time prevStateRoot ∈ ops ∧
    (h - 1).toNat + 1 = height ∧ payload = ⟨unix time, filterTransactions txs⟩

theorem Sound.after {α : Type} {p : Action α} {done : EngineNode → EngineNode}
    (h : wp p (fun _ => Sound P) (fun _ => Sound P) (Sound P) n)
    (hdone : ∀ n', n'.Sound P → (done n').Sound P) : (EngineNode.after cfg p done n).Sound P := by
  unfold wp at h
  unfold EngineNode.after
  rcases hp : p n with ⟨r, n'⟩
  rw [hp] at h
  cases r with
  | ok a => exact hdone n' h
  | error e => exact h
  | crash => exact h.newClient

/-- What the call asks for satisfies `P`. -/
def Op.Within (P : Nat → Payload → Prop) : Op → Prop
  | .executeTxs _ txs height time _ =>
    P ((height - 1).toNat + 1) ⟨unix time, filterTransactions txs⟩
  | _ => True

theorem Sound.step {op : Op} (h : n.Sound P) (hop : op.Within P) : (n.step cfg op).Sound P := by
  cases op with
  | executeTxs env txs height time prevStateRoot =>
    exact Sound.after (wp_imp (executeTxs_spec h hop) (fun _ _ h' => h'.1)) fun n' h' => h'.congr rfl rfl h'.label
  | setFinal env height => exact Sound.after (wp_setFinal h) fun _ h' => h'
  | rollback lookup o keepsHead height => exact Sound.after (wp_rollback h) fun _ h' => h'
  | pruneExec height => exact h.pruneExec height
  | restart => exact h.newClient
  | restartEL height => exact h.restartEL height

variable {ops : List Op}

theorem within_requested {op : Op} (hop : op ∈ ops) : op.Within (Requested ops) := by
  cases op with
  | executeTxs env txs height time prevStateRoot =>
    exact ⟨env, txs, height, time, prevStateRoot, hop, rfl, rfl⟩
  | _ => trivial

/-- A run keeps to what was asked for, by its calls and possibly others. -/
theorem sound_exec (cfg : EngineConfig) {all : List Op} (hall : ∀ op ∈ ops, op ∈ all) :
    (Run.exec (step cfg) (EngineNode.start cfg) ops).Sound (Requested all) := by
  refine Run.invariant (Sound (Requested all)) ?_ ops _ Sound.start (Run.meets_of_forall hall _)
  intro n op h hop
  exact h.step (within_requested hop)

/-- An earlier call asks for the same block, unless it is at another height or in another second. -/
def Op.Agrees (txs : List Bytes) (height : UInt64) (time : Time) : Op → Prop
  | .executeTxs _ txs' height' time' _ => height' = height → unix time' = unix time →
      filterTransactions txs' = filterTransactions txs
  | _ => True

instance (txs : List Bytes) (height : UInt64) (time : Time) (op : Op) :
    Decidable (op.Agrees txs height time) := by
  cases op <;> dsimp only [Op.Agrees] <;> infer_instance

/-- A payload asked for at the height and in the second of a call is the one of the call. -/
theorem Requested.eq_of_agrees {txs : List Bytes} {height : UInt64} {time : Time}
    {payload : Payload} (hne : height ≠ 0) (hagrees : ∀ op ∈ ops, op.Agrees txs height time)
    (h : Requested ops height.toNat payload) (htime : payload.timestamp = unix time) :
    payload = ⟨unix time, filterTransactions txs⟩ := by
  obtain ⟨env, txs', height', time', prevStateRoot, hop, hheight, rfl⟩ := h
  have hpred : (height' - 1).toNat = (height - 1).toNat := by
    have hsub := height_sub_one hne
    omega
  have heq : height' = height := by
    have hadd := congrArg (· + 1) (UInt64.toNat.inj hpred)
    simpa using hadd
  simp only at htime
  rw [htime, hagrees _ hop heq htime]

/--
**A successful execution leaves the block that was asked for.**

After any run, a call that succeeds leaves at its height a block of its second, built from its
non-empty transactions on the block one below, and returns the state root of that block. The call is
at a height above 0 without a slash among its bytes, and no earlier call at the height in the same
second had other non-empty transactions.
-/
theorem execute_builds (cfg : EngineConfig) (ops : List Op) (env : ExecuteEnv) (txs : List Bytes)
    (height : UInt64) (time : Time) (prevStateRoot : Bytes) (r : EvmResult) (n : EngineNode)
    (hpos : 0 < height) (hfree : SlashFree height)
    (hagrees : ∀ op ∈ ops, op.Agrees txs height time)
    (hrun : executeTxs cfg env txs height time prevStateRoot
      (Run.exec (step cfg) (EngineNode.start cfg) ops) = (.ok r, n)) :
    ∃ parent : ELBlock,
      n.el.headerByNumber height.toNat =
        some (.next parent ⟨unix time, filterTransactions txs⟩) ∧
      n.el.headerByNumber (height.toNat - 1) = some parent ∧
      r.updatedStateRoot = cfg.stateRoot (.next parent ⟨unix time, filterTransactions txs⟩) := by
  have hne : height ≠ 0 := by
    rintro rfl
    exact absurd hpos (by decide)
  -- the call itself is one of those that ask for payloads
  let all := ops ++ [Op.executeTxs env txs height time prevStateRoot]
  have hall : ∀ op ∈ all, op.Agrees txs height time := by
    intro op hop
    rcases List.mem_append.mp hop with hop | hop
    · exact hagrees op hop
    · rw [List.mem_singleton.mp hop]
      exact fun _ _ => rfl
  have hsound := sound_exec cfg fun op (hop : op ∈ ops) => show op ∈ all from List.mem_append_left _ hop
  have hown : (Op.executeTxs env txs height time prevStateRoot).Within (Requested all) :=
    within_requested (by simp [all])
  obtain ⟨hn, hexecuted⟩ := wp_ok (executeTxs_spec hsound hown) hrun
  obtain ⟨b, hcanonical, hheight, htime, hroot⟩ := hexecuted hfree hne
  have hbuilt : b.All (Requested all) := hn.canonical hcanonical
  cases b with
  | root t =>
    have hzero : height.toNat = 0 := hheight.symm
    have hsub := height_sub_one hne
    omega
  | next parent payload =>
    have hlevel : parent.height + 1 = height.toNat := hheight
    have hpayload := Requested.eq_of_agrees hne hall (hlevel ▸ hbuilt.1) htime
    subst hpayload
    refine ⟨parent, ?_, ?_, hroot⟩
    · rw [← hheight]
      exact hcanonical
    · rw [← hlevel]
      exact Lineage.at?_parent hcanonical

namespace ExecuteRun

/-- A state root that shows the transactions of the block. -/
def config : EngineConfig where
  genesisTime := 0
  blockHash := fun b => [UInt8.ofNat b.height]
  stateRoot := fun b => match b with
    | .root _ => [0]
    | .next _ payload => payload.txs.flatten
  sha256 := fun bytes => bytes

/-- Every call succeeds, and the payload gets the id. -/
def smooth (id : UInt8) : ExecuteEnv where
  keepsHead := true
  now := 0
  promotedLookup := .ok
  promotedSetHead := .ok
  resumePayload := .ok
  existingLookup := .ok
  existingSetHead := .ok
  saveExisting := .ok
  rollbackLookup := .ok
  rollback := .ok
  prevLookup := .ok
  build := .ok
  payloadID := [0, 0, 0, 0, 0, 0, 0, id]
  saveStarted := .ok
  getPayload := .ok
  newPayload := .ok
  safeLookup := .ok
  finalizedLookup := .ok
  promote := .ok
  savePromoted := .ok
  proposerBefore := .methodNotFound
  proposerAfter := .methodNotFound

def second (s : Int) : Time := s * 1000000000

/-- A first block, and a second one whose payload was issued before the process died. -/
def interrupted : List Op :=
  [.executeTxs (smooth 1) [[1], []] 1 (second 10) [],
    .executeTxs { smooth 2 with getPayload := .crash } [[2], [3]] 2 (second 11) [1]]

/-- One execution at height 1. -/
def executedOnce : List Op := [.executeTxs (smooth 1) [[1]] 1 (second 10) []]

/-- What the call at height 1 in second 10 leaves and returns, after a run. -/
def retried (ops : List Op) (txs : List Bytes) : Option (Option ELBlock × Bytes) :=
  match executeTxs config (smooth 2) txs 1 (second 10) []
      (Run.exec (step config) (EngineNode.start config) ops) with
  | (.ok r, n) => some (n.el.headerByNumber 1, r.updatedStateRoot)
  | _ => none

end ExecuteRun

open ExecuteRun in
/-- The interrupted payload is resumed after the crash. -/
theorem execute_builds_resumed :
    ∃ r n, executeTxs config (smooth 3) [[2], [], [3]] 2 (second 11) [1]
        (Run.exec (step config) (EngineNode.start config) interrupted) = (.ok r, n) ∧
      ∃ parent : ELBlock,
        n.el.headerByNumber 2 = some (.next parent ⟨unix (second 11), filterTransactions [[2], [], [3]]⟩) ∧
        n.el.headerByNumber 1 = some parent ∧
        r.updatedStateRoot =
          config.stateRoot (.next parent ⟨unix (second 11), filterTransactions [[2], [], [3]]⟩) :=
  ⟨_, _, rfl, execute_builds config interrupted (smooth 3) [[2], [], [3]] 2 (second 11) [1] _ _
    (by decide) (by decide) (by decide) rfl⟩

open ExecuteRun in
/-- A retry in the same second with another transaction gets the block and the root of the first
attempt. -/
theorem execute_reuses_other :
    retried executedOnce [[2]] = some (some (.next (.root 0) ⟨10, [[1]]⟩), [1]) := by
  decide +kernel

end EngineNode

end EvNode
