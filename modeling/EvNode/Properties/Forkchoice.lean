import EvNode.Properties.EvmExecute

/-!
# The labels of the forkchoice states

The client writes the head, safe and finalized hashes from two places: executing a block sets safe
and finalized a fixed lag below the head, and `SetFinal` sets both to the block it names. `Labels e`
is what holds of them after `e` blocks as long as neither overtakes the other, and `Steady` is the
condition under which it is kept: `SetFinal` names a block at least two below the last executed one
and not below the finalized one, and a failed lookup of the safe block does not leave the safe label
behind the finalized one.

Then every forkchoice state is ordered and finality never goes back (`forkchoice_ordered`). Without
the condition a single `SetFinal` of the head is undone by the next block (`finality_regresses`).
-/

namespace EvNode

open Crash Proc EVMStore

def Forkchoice.Ordered (fc : Forkchoice) : Prop :=
  fc.finalized.height ≤ fc.safe.height ∧ fc.safe.height ≤ fc.head.height

instance : DecidablePred Forkchoice.Ordered := fun fc =>
  inferInstanceAs (Decidable (fc.finalized.height ≤ fc.safe.height ∧
    fc.safe.height ≤ fc.head.height))

namespace EngineNode

open ExecutionLayer

variable {cfg : EngineConfig} {n : EngineNode} {b : ELBlock} {e : Nat}

/-- The labels after `e` executed blocks. -/
structure Labels (e : Nat) (n : EngineNode) : Prop where
  ordered : ∀ fc ∈ n.sent, fc.Ordered
  monotone : n.sent.Pairwise fun fc fc' => fc.finalized.height ≤ fc'.finalized.height
  sent_le : ∀ fc ∈ n.sent, fc.finalized.height ≤ n.currentFinalizedBlockHash.height
  finalized_le : n.currentFinalizedBlockHash.height ≤ n.currentSafeBlockHash.height
  safe_le : n.currentSafeBlockHash.height ≤ e
  lag : n.currentFinalizedBlockHash.height + 2 ≤ e ∨ n.currentFinalizedBlockHash.height = 0
  le_head : e ≤ n.currentHeadBlockHash.height
  le_el : e ≤ n.el.head.height
  cache : ∀ k b, n.blockHashCache.get? k = some b → b.height = k
  executed : n.executed = e

/-- The next block is the head, for the client and for the execution layer. -/
def Reached (e : Nat) (n : EngineNode) : Prop :=
  n.Labels e ∧ e < n.currentHeadBlockHash.height ∧ e < n.el.head.height

/-- Started records lead to payloads of their own height, whatever was asked for. -/
abbrev Tracked (n : EngineNode) : Prop := n.Sound fun _ _ => True

namespace Labels

theorem start : (EngineNode.start cfg).Labels 0 := by
  constructor
  case lag => exact .inr rfl
  case cache =>
    intro k b h
    cases h
  case monotone => exact List.Pairwise.nil
  case ordered =>
    intro fc h
    cases h
  case sent_le =>
    intro fc h
    cases h
  case executed => exact rfl
  all_goals exact Nat.le_refl 0

theorem succ (h : n.Reached e) : { n with executed := e + 1 }.Labels (e + 1) where
  ordered := h.1.ordered
  monotone := h.1.monotone
  sent_le := h.1.sent_le
  finalized_le := h.1.finalized_le
  safe_le := Nat.le_succ_of_le h.1.safe_le
  lag := h.1.lag.imp Nat.le_succ_of_le fun hzero => hzero
  le_head := h.2.1
  le_el := h.2.2
  cache := h.1.cache
  executed := rfl

theorem congr (h : n.Labels e) {n' : EngineNode} (hsent : n'.sent = n.sent)
    (hhead : n'.currentHeadBlockHash = n.currentHeadBlockHash)
    (hsafe : n'.currentSafeBlockHash = n.currentSafeBlockHash)
    (hfinalized : n'.currentFinalizedBlockHash = n.currentFinalizedBlockHash)
    (hcache : n'.blockHashCache = n.blockHashCache) (hel : n'.el.head = n.el.head)
    (hexecuted : n'.executed = n.executed) : n'.Labels e := by
  constructor
  · rw [hsent]
    exact h.ordered
  · rw [hsent]
    exact h.monotone
  · rw [hsent, hfinalized]
    exact h.sent_le
  · rw [hfinalized, hsafe]
    exact h.finalized_le
  · rw [hsafe]
    exact h.safe_le
  · rw [hfinalized]
    exact h.lag
  · rw [hhead]
    exact h.le_head
  · rw [hel]
    exact h.le_el
  · rw [hcache]
    exact h.cache
  · rw [hexecuted]
    exact h.executed

theorem send (h : n.Labels e) {head : ELBlock} (hhead : e ≤ head.height) :
    { n with sent := n.sent ++
        [Forkchoice.mk head n.currentSafeBlockHash n.currentFinalizedBlockHash] }.Labels e := by
  constructor
  · intro fc hfc
    rcases List.mem_append.mp hfc with hfc | hfc
    · exact h.ordered fc hfc
    · rw [List.mem_singleton.mp hfc]
      exact ⟨h.finalized_le, Nat.le_trans h.safe_le hhead⟩
  · refine List.pairwise_append.mpr ⟨h.monotone, List.pairwise_singleton _ _, ?_⟩
    intro fc hfc fc' hfc'
    rw [List.mem_singleton.mp hfc']
    exact h.sent_le fc hfc
  · intro fc hfc
    rcases List.mem_append.mp hfc with hfc | hfc
    · exact h.sent_le fc hfc
    · rw [List.mem_singleton.mp hfc]
  · exact h.finalized_le
  · exact h.safe_le
  · exact h.lag
  · exact h.le_head
  · exact h.le_el
  · exact h.cache
  · exact h.executed

theorem setCanonical (h : n.Labels e) (keepsHead : Bool) (hb : e ≤ b.height) :
    { n with el := n.el.setCanonical keepsHead b }.Labels e := by
  rcases setCanonical_cases keepsHead b n.el with ⟨heq, -⟩ | heq
  · rw [heq]
    exact h
  · rw [heq]
    exact { h with le_el := hb }

theorem setHead (h : n.Labels e) (hb : e ≤ b.height) :
    { n with currentHeadBlockHash := b }.Labels e := { h with le_head := hb }

theorem cacheBlockHash (h : n.Labels e) (b : ELBlock) :
    (EngineNode.cacheBlockHash b.height b n).Labels e := by
  refine { h with cache := ?_ }
  intro k b' hget
  have hput : ∀ k b', (n.blockHashCache.put b.height b).get? k = some b' → b'.height = k := by
    intro k b' hk
    rw [OrdMap.get?_put] at hk
    split at hk
    · next heq =>
      cases hk
      exact heq.symm
    · exact h.cache k b' hk
  simp only [EngineNode.cacheBlockHash] at hget
  split at hget
  · rw [OrdMap.get?_foldl_delete] at hget
    split at hget
    · cases hget
    · exact hput k b' hget
  · exact hput k b' hget

end Labels

/-! ## Executing a block -/

theorem wp_doForkchoiceUpdate_labels (h : n.Labels e) {o : RpcOutcome} {keepsHead : Bool}
    {head : ELBlock} (hhead : e ≤ head.height) :
    wp (doForkchoiceUpdate o keepsHead
        ⟨head, n.currentSafeBlockHash, n.currentFinalizedBlockHash⟩)
      (fun _ n' => n'.Labels e ∧ n'.currentHeadBlockHash = n.currentHeadBlockHash)
      (fun _ n' => n'.Labels e ∧ n'.currentHeadBlockHash = n.currentHeadBlockHash)
      (fun _ => True) n := by
  simp only [doForkchoiceUpdate, wp_bind, wp_modify]
  have hsent := h.send hhead
  have hmoved := hsent.setCanonical keepsHead hhead
  exact wp_rpc (fun _ => ⟨hmoved, rfl⟩) ⟨⟨hsent, rfl⟩, ⟨hmoved, rfl⟩⟩ ⟨trivial, trivial⟩

theorem lt_of_canonical (hcanonical : n.el.Canonical b) (hb : b.height = e + 1) :
    e < n.el.head.height := by
  have hle := Lineage.le_of_at? hcanonical
  omega

theorem Labels.reached (h : n.Labels e) (hlabel : n.currentHeadBlockHash = b)
    (hcanonical : n.el.Canonical b) (hb : b.height = e + 1) : n.Reached e := by
  refine ⟨h, ?_, lt_of_canonical hcanonical hb⟩
  rw [hlabel, hb]
  exact Nat.lt_succ_self e

/-- The head is set to the next block, which the chain has. -/
theorem wp_setHead_labels (h : n.Labels e) (hs : n.Tracked) {o : RpcOutcome} {keepsHead : Bool}
    (hcanonical : n.el.Canonical b) (hb : b.height = e + 1) :
    wp (setHead o keepsHead b) (fun _ => Reached e) (fun _ => Reached e) (fun _ => True) n := by
  have hle : e ≤ b.height := by omega
  have hlabels : wp (setHead o keepsHead b)
      (fun _ n' => n'.Labels e ∧ n'.currentHeadBlockHash = b)
      (fun _ n' => n'.Labels e ∧ n'.currentHeadBlockHash = b) (fun _ => True) n := by
    simp only [setHead, wp_bind, wp_modify, wp_get]
    exact wp_doForkchoiceUpdate_labels (h.setHead hle) hle
  refine wp_mono (wp_and hlabels (wp_setHead hs hcanonical)) ?_ ?_ (fun _ _ => trivial)
  · rintro _ n' ⟨⟨hn', hlabel⟩, -, hc⟩
    exact hn'.reached hlabel hc hb
  · rintro _ n' ⟨⟨hn', hlabel⟩, -, hc⟩
    exact hn'.reached hlabel hc hb

section Execute

variable {env : ExecuteEnv} {txs : List Bytes} {height : UInt64} {seconds : Int}
  {prevStateRoot : Bytes}

/-- The safe block is found, or the safe label is where the finalized one is going to be. -/
def SafeKept (env : ExecuteEnv) (e : Nat) (n : EngineNode) : Prop :=
  env.safeLookup = .ok ∨ e ≤ n.currentSafeBlockHash.height + 2

/-- The head moves to the next block, with safe and finalized at their lags where they are found. -/
theorem Labels.advance (h : n.Labels e) (hb : b.height = e + 1) {safe finalized : Option ELBlock}
    (hsafe : ∀ s ∈ safe, s.height + 1 = e) (hfinalized : ∀ f ∈ finalized, f.height + 2 = e)
    (hkept : safe = none → finalized ≠ none → e ≤ n.currentSafeBlockHash.height + 2) :
    { n with
      currentHeadBlockHash := b
      currentHeadHeight := e + 1
      currentSafeBlockHash := safe.getD n.currentSafeBlockHash
      currentFinalizedBlockHash := finalized.getD n.currentFinalizedBlockHash }.Labels e := by
  have hlag := h.lag
  have hle := h.safe_le
  have hfs := h.finalized_le
  -- the finalized label does not go back: it was at least as far behind
  have hgrows : n.currentFinalizedBlockHash.height ≤
      (finalized.getD n.currentFinalizedBlockHash).height := by
    cases finalized with
    | none => exact Nat.le_refl _
    | some f =>
      have hf := hfinalized f rfl
      simp only [Option.getD_some]
      omega
  constructor
  · exact h.ordered
  · exact h.monotone
  · intro fc hfc
    exact Nat.le_trans (h.sent_le fc hfc) hgrows
  · cases finalized with
    | none =>
      cases safe with
      | none => exact hfs
      | some s =>
        have hs := hsafe s rfl
        simp only [Option.getD_some, Option.getD_none]
        omega
    | some f =>
      have hf := hfinalized f rfl
      cases safe with
      | none =>
        have hk := hkept rfl (by simp)
        simp only [Option.getD_some, Option.getD_none]
        omega
      | some s =>
        have hs := hsafe s rfl
        simp only [Option.getD_some]
        omega
  · cases safe with
    | none => exact hle
    | some s =>
      have hs := hsafe s rfl
      simp only [Option.getD_some]
      omega
  · cases finalized with
    | none => exact hlag
    | some f => exact .inl (Nat.le_of_eq (hfinalized f rfl))
  · simp only [hb]
    exact Nat.le_succ e
  · exact h.le_el
  · exact h.cache
  · exact h.executed

theorem Labels.height_of_found (h : n.Labels e) {k : Nat}
    (hfound : n.blockHashCache.get? k = some b ∨ n.el.headerByNumber k = some b) : b.height = k := by
  rcases hfound with hcache | hchain
  · exact h.cache k b hcache
  · exact Lineage.height_of_at? hchain

theorem wp_advanceHead_labels (h : n.Labels e) (hb : b.height = e + 1) (hkept : SafeKept env e n) :
    wp (advanceHead env b b.height) (fun _ n' => n'.Labels e ∧ n'.currentHeadBlockHash = b)
      (fun _ => Labels e) (fun _ => True) n := by
  rw [hb]
  simp only [advanceHead, wp_bind, wp_modify, wp_get]
  have hend : ∀ safe finalized : Option ELBlock, (∀ s ∈ safe, s.height + 1 = e) →
      (∀ f ∈ finalized, f.height + 2 = e) →
      (safe = none → finalized ≠ none → e ≤ n.currentSafeBlockHash.height + 2) →
      wp (doForkchoiceUpdate env.promote env.keepsHead
          ⟨b, safe.getD n.currentSafeBlockHash, finalized.getD n.currentFinalizedBlockHash⟩)
        (fun _ n' => n'.Labels e ∧ n'.currentHeadBlockHash = b) (fun _ => Labels e) (fun _ => True)
        { n with
          currentHeadBlockHash := b
          currentHeadHeight := e + 1
          currentSafeBlockHash := safe.getD n.currentSafeBlockHash
          currentFinalizedBlockHash := finalized.getD n.currentFinalizedBlockHash } := by
    intro safe finalized hsafe hfinalized hgap
    have hadvanced := h.advance hb hsafe hfinalized hgap
    refine wp_mono (wp_doForkchoiceUpdate_labels hadvanced (by omega)) ?_ ?_ (fun _ _ => trivial)
    · intro _ n' h'
      exact h'
    · intro _ n' h'
      exact h'.1
  have hfin : ∀ safe : Option ELBlock, (∀ s ∈ safe, s.height + 1 = e) →
      (safe = none → 2 < e → e ≤ n.currentSafeBlockHash.height + 2) →
      wp (laggingBlock env.finalizedLookup (e + 1) finalizedBlockLag)
        (fun finalized n' => wp (doForkchoiceUpdate env.promote env.keepsHead
            ⟨b, safe.getD n'.currentSafeBlockHash, finalized.getD n'.currentFinalizedBlockHash⟩)
          (fun _ n' => n'.Labels e ∧ n'.currentHeadBlockHash = b) (fun _ => Labels e)
          (fun _ => True)
          { n' with
            currentHeadBlockHash := b
            currentHeadHeight := e + 1
            currentSafeBlockHash := safe.getD n'.currentSafeBlockHash
            currentFinalizedBlockHash := finalized.getD n'.currentFinalizedBlockHash })
        (fun _ => Labels e) (fun _ => True) n := by
    intro safe hsafe hgap
    refine wp_laggingBlock ?_ ?_ trivial
    · intro f hlt hfound
      have hheight := h.height_of_found hfound
      unfold finalizedBlockLag at hlt hheight
      refine hend safe (some f) hsafe ?_ fun hnone _ => hgap hnone (by omega)
      rintro f' ⟨⟩
      omega
    · intro _
      exact hend safe none hsafe (by simp) (by simp)
  refine wp_laggingBlock ?_ ?_ trivial
  · intro s hlt hfound
    have hheight := h.height_of_found hfound
    unfold safeBlockLag at hlt hheight
    refine hfin (some s) ?_ (by simp)
    rintro s' ⟨⟩
    omega
  · intro hnone
    refine hfin none (by simp) fun _ hlt => ?_
    rcases hkept with hok | hle
    · -- the execution layer has the block, so that a lookup that works finds it
      have hel := h.le_el
      obtain ⟨s, hs⟩ := Lineage.exists_at? (l := n.el.head) (n := e + 1 - safeBlockLag)
        (by unfold safeBlockLag; omega)
      have habsent := hnone (by unfold safeBlockLag; omega) hok
      rw [headerByNumber, hs] at habsent
      cases habsent
    · exact hle

theorem wp_processPayload_labels (h : n.Labels e) (hs : n.Tracked) {id : Bytes}
    (hid : n.el.payloads id = some b) (hb : b.height = e + 1) (hkept : SafeKept env e n) :
    wp (processPayload cfg env id txs) (fun _ => Reached e) (fun _ => Labels e) (fun _ => True) n := by
  have hlabels : wp (processPayload cfg env id txs)
      (fun _ n' => n'.Labels e ∧ n'.currentHeadBlockHash = b) (fun _ => Labels e)
      (fun _ => True) n := by
    simp only [processPayload, wp_bind, wp_mapError, wp_io, wp_modify]
    refine wp_fetchPayload ?_ (fun _ => h) trivial
    intro b' hb'
    obtain rfl : b = b' := Option.some.inj (hid.symm.trans hb')
    refine ⟨fun _ => ?_, fun _ => h, fun _ => trivial⟩
    have hcached := h.cacheBlockHash b
    refine wp_imp (wp_advanceHead_labels hcached hb hkept) ?_
    rintro _ n' ⟨hn', hlabel⟩
    exact wp_saveExecMeta ⟨hn'.congr rfl rfl rfl rfl rfl rfl rfl, hlabel⟩ ⟨hn', hlabel⟩ trivial
  refine wp_mono (wp_and hlabels (wp_processPayload hs hid)) ?_ (fun _ _ h' => h'.1)
    (fun _ _ => trivial)
  rintro _ n' ⟨⟨hn', hlabel⟩, -, hc, -⟩
  exact hn'.reached hlabel hc hb

/-- The message that asks for a payload names the last executed block as the head. -/
theorem wp_startPayload_labels (h : n.Labels e) {prev : ELBlock} (hprev : prev.height = e) :
    wp (startPayload env ⟨prev, n.currentSafeBlockHash, n.currentFinalizedBlockHash⟩ b)
      (fun _ n' => n'.Labels e ∧ n'.currentSafeBlockHash = n.currentSafeBlockHash)
      (fun _ => Labels e) (fun _ => True) n := by
  simp only [startPayload, wp_bind, wp_modify, wp_get]
  have hsent := h.send (Nat.le_of_eq hprev.symm)
  have hmoved := hsent.setCanonical env.keepsHead (Nat.le_of_eq hprev.symm)
  split
  · have hbuilt : { n with
        sent := n.sent ++ [Forkchoice.mk prev n.currentSafeBlockHash n.currentFinalizedBlockHash]
        el := (n.el.setCanonical env.keepsHead prev).build env.payloadID b }.Labels e :=
      hmoved.congr rfl rfl rfl rfl rfl rfl rfl
    exact wp_rpc (fun _ => ⟨hbuilt, rfl⟩) ⟨hsent, hbuilt⟩ ⟨trivial, trivial⟩
  · simp only [wp_bind, wp_throw]
    exact wp_rpc (fun _ => hmoved) ⟨hsent, hmoved⟩ ⟨trivial, trivial⟩

theorem wp_buildBlock_labels (h : n.Labels e) (hs : n.Tracked) (hheight : height.toNat = e + 1)
    (hkept : SafeKept env e n) :
    wp (buildBlock cfg env txs height seconds prevStateRoot) (fun _ => Reached e) (fun _ => Labels e)
      (fun _ => True) n := by
  simp only [buildBlock, wp_bind, wp_mapError, wp_require, wp_modify, wp_get]
  refine wp_getBlockInfo ?_ (fun _ _ => h) trivial
  intro prev hprev
  refine ⟨fun _ => ?_, fun _ => h⟩
  have hne : height ≠ 0 := by
    rintro rfl
    simp at hheight
  have hsub := height_sub_one hne
  have hlevel : prev.height = (height - 1).toNat := Lineage.height_of_at? hprev
  have hprevHeight : prev.height = e := by omega
  rw [← hlevel]
  have hcached := h.cacheBlockHash prev
  have hcachedSound : (cacheBlockHash prev.height prev n).Tracked := hs.congr rfl rfl hs.label
  refine wp_mono (wp_and (wp_startPayload_labels hcached hprevHeight)
    (wp_startPayload hcachedSound (Lineage.all_true _) (Lineage.all_true _))) ?_
    (fun _ _ h' => h'.1) (fun _ _ => trivial)
  rintro _ n₁ ⟨⟨h₁, hsafe⟩, hs₁, hid⟩
  have hb : Lineage.height (.next prev ⟨seconds, filterTransactions txs⟩ : ELBlock) = e + 1 :=
    congrArg (· + 1) hprevHeight
  have hkept₁ : SafeKept env e n₁ := hkept.imp_right fun hle => hsafe ▸ hle
  have hprocess : ∀ n₂ : EngineNode, n₂.Labels e → n₂.Tracked → n₂.el = n₁.el →
      n₂.currentSafeBlockHash = n₁.currentSafeBlockHash →
      wp (processPayload cfg env env.payloadID txs) (fun _ => Reached e) (fun _ => Labels e)
        (fun _ => True) n₂ := by
    intro n₂ h₂ hs₂ hel hlabel
    refine wp_processPayload_labels h₂ hs₂ (hel ▸ hid) hb ?_
    exact hkept₁.imp_right fun hle => hlabel ▸ hle
  refine wp_saveExecMeta (hprocess _ (h₁.congr rfl rfl rfl rfl rfl rfl rfl) (hs₁.saveExecMeta ?_) rfl rfl)
    (hprocess n₁ h₁ hs₁ rfl rfl) trivial
  intro _ _
  exact ⟨_, hid, hb.trans hheight.symm, rfl⟩

/-- The answer of the idempotency check, when nothing is rolled back. -/
def Reconciled.Reached (e : Nat) (n n' : EngineNode) : Reconciled → Prop
  | .executed _ => n'.Reached e
  | .inProgress _ => n' = n
  | .notFound => n' = n

theorem wp_reuseExisting_labels (h : n.Labels e) (hs : n.Tracked) (hheight : height.toNat = e + 1)
    (htime : ∀ b ∈ n.el.headerByNumber height.toNat, b.timestamp = seconds) :
    wp (reuseExisting cfg env txs height seconds) (fun r n' => r.Reached e n n')
      (fun _ n' => n' = n) (fun _ => True) n := by
  simp only [reuseExisting, wp_bind, wp_attempt]
  refine wp_getBlockInfo ?_ (fun _ _ => rfl) trivial
  intro b hb
  split
  · have hlevel : b.height = e + 1 := (Lineage.height_of_at? hb).trans hheight
    simp only [wp_bind, wp_attempt, wp_pure]
    have hsave : ∀ n' : EngineNode, n'.Reached e → wp (EngineNode.saveExecMeta env.saveExisting
        ⟨height, [], [], cfg.blockHash b, cfg.stateRoot b, hashTxs cfg txs, seconds, .promoted,
          env.now⟩) (fun _ n' => n'.Reached e) (fun _ n' => n' = n) (fun _ => True) n' := by
      intro n' hn'
      exact wp_saveExecMeta ⟨hn'.1.congr rfl rfl rfl rfl rfl rfl rfl, hn'.2⟩ hn' trivial
    exact wp_mono (wp_setHead_labels h hs (canonical_of_headerByNumber hb) hlevel)
      (fun _ n' h' => hsave n' h') (fun _ n' h' => hsave n' h') (fun _ h' => h')
  · next hother => exact absurd (htime b hb) hother

theorem wp_reusePromoted_labels (h : n.Labels e) (hs : n.Tracked) (hheight : height.toNat = e + 1)
    {execMeta : ExecMeta} :
    wp (reusePromoted cfg env height seconds execMeta)
      (fun found n' => (found = none → n' = n) ∧ (found ≠ none → n'.Reached e))
      (fun _ n' => n' = n) (fun _ => True) n := by
  unfold reusePromoted
  split
  · simp only [wp_bind, wp_attempt]
    refine wp_getBlockInfo ?_ (fun _ _ => by simp) trivial
    intro b hb
    split
    · have hlevel : b.height = e + 1 := (Lineage.height_of_at? hb).trans hheight
      simp only [wp_bind, wp_attempt, wp_pure]
      exact wp_mono (wp_setHead_labels h hs (canonical_of_headerByNumber hb) hlevel)
        (fun _ n' h' => ⟨by simp, fun _ => h'⟩) (fun _ n' h' => ⟨by simp, fun _ => h'⟩)
        (fun _ h' => h')
    · simp
  · simp

theorem wp_reconcile_labels (h : n.Labels e) (hs : n.Tracked) (hheight : height.toNat = e + 1)
    (htime : ∀ b ∈ n.el.headerByNumber height.toNat, b.timestamp = seconds) :
    wp (reconcileExecutionAtHeight cfg env txs height seconds) (fun r n' => r.Reached e n n')
      (fun _ n' => n' = n) (fun _ => True) n := by
  have hexisting : wp (reuseExisting cfg env txs height seconds) (fun r n' => r.Reached e n n')
      (fun _ n' => n' = n) (fun _ => True) n := wp_reuseExisting_labels h hs hheight htime
  simp only [reconcileExecutionAtHeight, wp_bind, wp_get]
  split
  · next execMeta hget =>
    simp only [wp_bind]
    refine wp_imp (wp_reusePromoted_labels h hs hheight) ?_
    rintro found n₁ ⟨hnone, hsome⟩
    cases found with
    | some root => exact hsome (by simp)
    | none =>
      obtain rfl := hnone rfl
      simp only [wp_bind]
      refine wp_imp (wp_reuseStarted hs hget trivial) ?_
      rintro found n₂ ⟨rfl, -⟩
      cases found with
      | some id => exact rfl
      | none => exact hexisting
  · exact hexisting

/-- A call for the next height ends with the labels in order, and with the next block as the head
when it succeeds. -/
theorem wp_executeTxs_labels (h : n.Labels e) (hs : n.Tracked) {time : Time}
    (hheight : height.toNat = e + 1) (hfree : SlashFree height)
    (htime : ∀ b ∈ n.el.headerByNumber height.toNat, b.timestamp = unix time)
    (hkept : SafeKept env e n) :
    wp (executeTxs cfg env txs height time prevStateRoot) (fun _ => Reached e) (fun _ => Labels e)
      (fun _ => True) n := by
  have hne : height ≠ 0 := by
    rintro rfl
    simp at hheight
  have hend : ∀ (root : Bytes) (n' : EngineNode), n'.Reached e →
      wp (executionResultAfterBlock env root height) (fun _ => Reached e) (fun _ => Labels e)
        (fun _ => True) n' := by
    intro root n' hn'
    exact wp_executionResult (fun _ => hn') (fun _ => hn'.1) trivial
  have hbuild : wp (buildBlock cfg env txs height (unix time) prevStateRoot)
      (fun root n' => wp (executionResultAfterBlock env root height) (fun _ => Reached e)
        (fun _ => Labels e) (fun _ => True) n')
      (fun _ => Labels e) (fun _ => True) n :=
    wp_imp (wp_buildBlock_labels h hs hheight hkept) hend
  simp only [executeTxs, wp_bind, wp_attempt]
  refine wp_mono (wp_and (wp_reconcile_labels h hs hheight htime) (wp_reconcile hs)) ?_ ?_
    (fun _ _ => trivial)
  · rintro r n₁ ⟨hreached, -, hholds⟩
    cases r with
    | executed root => exact hend root n₁ hreached
    | notFound =>
      obtain rfl : n₁ = n := hreached
      exact (wp_bind _ _).mpr hbuild
    | inProgress id =>
      obtain rfl : n₁ = n := hreached
      obtain ⟨b, hid, hb⟩ := hholds
      have hlevel : b.height = e + 1 := (hb hfree hne).1.trans hheight
      exact (wp_bind _ _).mpr (wp_imp (wp_processPayload_labels h hs hid hlevel hkept) hend)
  · rintro _ n₁ ⟨rfl, -⟩
    exact hbuild

end Execute

/-! ## SetFinal -/

/-- Safe and finalized are set to a block between the finalized one and two below the last. -/
theorem Labels.setFinal (h : n.Labels e) (hle : n.currentFinalizedBlockHash.height ≤ b.height)
    (hlag : b.height + 2 ≤ e ∨ b.height = 0) :
    { n with currentFinalizedBlockHash := b, currentSafeBlockHash := b }.Labels e where
  ordered := h.ordered
  monotone := h.monotone
  sent_le := fun fc hfc => Nat.le_trans (h.sent_le fc hfc) hle
  finalized_le := Nat.le_refl _
  safe_le := by
    simp only
    omega
  lag := hlag
  le_head := h.le_head
  le_el := h.le_el
  cache := h.cache
  executed := h.executed

theorem wp_setFinal_labels (h : n.Labels e) {env : FinalEnv} {height : UInt64}
    (hle : n.currentFinalizedBlockHash.height ≤ height.toNat)
    (hlag : height.toNat + 2 ≤ e ∨ height.toNat = 0) :
    wp (setFinal env height) (fun _ => Labels e) (fun _ => Labels e) (fun _ => True) n := by
  simp only [setFinal, wp_bind, wp_attempt]
  refine wp_getBlockInfo ?_ ?_ trivial
  · intro b hb
    have hheight : b.height = height.toNat := Lineage.height_of_at? hb
    simp only [setFinalHash, wp_bind, wp_modify, wp_get]
    have hset := h.setFinal (hheight ▸ hle) (hheight ▸ hlag)
    exact wp_mono (wp_doForkchoiceUpdate_labels hset hset.le_head) (fun _ _ h' => h'.1)
      (fun _ _ h' => h'.1) (fun _ h' => h')
  · intro _ err
    split
    · simp [h]
    · exact h

/-! ## Runs -/

/--
The operations under which the labels stay in order.

`ExecuteTxs` goes on at the next height, which has no slash among its bytes, and finds no block of
another second there. `SetFinal` names a block from the finalized one up to two below the last
executed one. The process does not die.
-/
def Steady (cfg : EngineConfig) (n : EngineNode) : Op → Prop
  | .executeTxs env txs height time prevStateRoot =>
    height.toNat = n.executed + 1 ∧ SlashFree height ∧
      (∀ b ∈ n.el.headerByNumber height.toNat, b.timestamp = unix time) ∧
      SafeKept env n.executed n ∧
      (executeTxs cfg env txs height time prevStateRoot n).1 ≠ .crash
  | .setFinal env height =>
    n.currentFinalizedBlockHash.height ≤ height.toNat ∧
      (height.toNat + 2 ≤ n.executed ∨ height.toNat = 0) ∧ (setFinal env height n).1 ≠ .crash
  | .pruneExec _ => True
  | .rollback .. => False
  | .restart => False
  | .restartEL _ => False

instance (env : ExecuteEnv) (e : Nat) (n : EngineNode) : Decidable (SafeKept env e n) :=
  inferInstanceAs (Decidable (env.safeLookup = .ok ∨ e ≤ n.currentSafeBlockHash.height + 2))

instance (cfg : EngineConfig) (n : EngineNode) (op : Op) : Decidable (Steady cfg n op) := by
  induction op using Op.casesOn <;> dsimp only [Steady] <;> infer_instance

/-- A call that does not die ends in what its two postconditions say. -/
theorem after_of_wp {α : Type} {p : Action α} {done : EngineNode → EngineNode}
    {Q E I : EngineNode → Prop} (h : wp p (fun _ => Q) (fun _ => E) (fun _ => True) n)
    (hlive : (p n).1 ≠ .crash) (hok : ∀ n', Q n' → I (done n')) (herr : ∀ n', E n' → I n') :
    I (after cfg p done n) := by
  unfold wp at h
  unfold after
  rcases hp : p n with ⟨r, n'⟩
  rw [hp] at h hlive
  cases r with
  | ok a => exact hok n' h
  | error err => exact herr n' h
  | crash => exact absurd rfl hlive

theorem Labels.step {op : Op} (h : n.Labels n.executed) (hs : n.Tracked) (hop : Steady cfg n op) :
    (n.step cfg op).Labels (n.step cfg op).executed := by
  cases op with
  | executeTxs env txs height time prevStateRoot =>
    obtain ⟨hheight, hfree, htime, hkept, hlive⟩ := hop
    refine after_of_wp (I := fun n' => n'.Labels n'.executed)
      (wp_executeTxs_labels h hs hheight hfree htime hkept) hlive ?_ ?_
    · intro n' hn'
      rw [hheight]
      exact Labels.succ hn'
    · intro n' hn'
      exact hn'.executed.symm ▸ hn'
  | setFinal env height =>
    obtain ⟨hle, hlag, hlive⟩ := hop
    refine after_of_wp (I := fun n' => n'.Labels n'.executed) (wp_setFinal_labels h hle hlag) hlive
      ?_ ?_
    · intro n' hn'
      exact hn'.executed.symm ▸ hn'
    · intro n' hn'
      exact hn'.executed.symm ▸ hn'
  | pruneExec height => exact h.congr rfl rfl rfl rfl rfl rfl rfl
  | rollback lookup o keepsHead height | restart | restartEL height => exact hop.elim

theorem Tracked.step (h : n.Tracked) (op : Op) : (n.step cfg op).Tracked := by
  refine Sound.step h ?_
  cases op <;> trivial

/--
**The labels are ordered and finality does not regress.**

In a run of steady operations, every forkchoice state that is sent has its finalized block at or
below its safe block and that at or below its head, and the finalized heights never decrease from
one to the next.
-/
theorem forkchoice_ordered (cfg : EngineConfig) (ops : List Op)
    (hsteady : Run.Meets (step cfg) (Steady cfg) (EngineNode.start cfg) ops) :
    (∀ fc ∈ (Run.exec (step cfg) (EngineNode.start cfg) ops).sent, fc.Ordered) ∧
    (Run.exec (step cfg) (EngineNode.start cfg) ops).sent.Pairwise fun fc fc' =>
      fc.finalized.height ≤ fc'.finalized.height := by
  have hrun := Run.invariant (fun n : EngineNode => n.Labels n.executed ∧ n.Tracked)
    (fun n op h hop => ⟨h.1.step h.2 hop, h.2.step op⟩) ops _ ⟨Labels.start, Sound.start⟩ hsteady
  exact ⟨hrun.1.ordered, hrun.1.monotone⟩

namespace ForkchoiceRun

open ExecuteRun

/-- The next block, with all lookups working. -/
def next (height : UInt64) : Op :=
  .executeTxs (smooth (UInt8.ofNat height.toNat)) [[1]] height (second height.toNat) []

def final (height : UInt64) : Op := .setFinal ⟨true, .ok, .ok, .ok⟩ height

/-- Six blocks, with the inclusion of the first ones reported behind the head, a failed lookup of a
finalized block, and a call that is repeated. -/
def behind : List Op :=
  [next 1, next 2, next 3, final 1, next 4,
    .executeTxs { smooth 5 with finalizedLookup := .fail, promote := .lost } [[1]] 5 (second 5) [],
    next 5, final 3, next 6]

/-- Five blocks, of which the last is reported as included, and one more. -/
def included : List Op := [next 1, next 2, next 3, next 4, next 5, final 5, next 6]

end ForkchoiceRun

open ForkchoiceRun ExecuteRun in
theorem forkchoice_ordered_behind :
    Run.Meets (step config) (Steady config) (EngineNode.start config) behind ∧
    (∀ fc ∈ (Run.exec (step config) (EngineNode.start config) behind).sent, fc.Ordered) ∧
    (Run.exec (step config) (EngineNode.start config) behind).sent.Pairwise fun fc fc' =>
      fc.finalized.height ≤ fc'.finalized.height := by
  have hsteady : Run.Meets (step config) (Steady config) (EngineNode.start config) behind := by
    decide +kernel
  exact ⟨hsteady, forkchoice_ordered config behind hsteady⟩

open ForkchoiceRun ExecuteRun in
/-- The block after a `SetFinal` of the head takes the finalized label from 5 back to 3. -/
theorem finality_regresses :
    ((Run.exec (step config) (EngineNode.start config) included).sent.map
      fun fc => fc.finalized.height) = [0, 0, 0, 0, 0, 0, 0, 1, 1, 2, 5, 5, 3] := by
  decide +kernel

end EngineNode

end EvNode
