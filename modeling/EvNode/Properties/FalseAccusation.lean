import EvNode.Properties.Tracking

/-!
# When an honest chain is accused

A forced transaction counts as included when its hash is in `seenBlockTxs`. That set is fed by
blocks from DA only, and checking an epoch removes from it every hash listed up to the end of the
epoch, whether or not a later epoch needs it.
-/

namespace EvNode

open Crash Proc

variable {Tx : Type} [Transaction Tx]

namespace ForcedInclusion

/-- Every forced transaction of an unchecked epoch whose grace boundary is below `daHeight` is in a
block that was recorded from DA, or in the block being verified, and in none that was recorded
below the first height of the epoch. -/
def IncludedOnDA (genesis : Genesis) (content : Nat → List Tx) (daHeight : Nat) (txs : List Tx)
    (s : ForcedInclusion Tx) : Prop :=
  ∀ e, genesis.IsEpochEnd e → s.startEpochEnd genesis ≤ e →
    (s.recordBlock daHeight txs).graceBoundary genesis e < daHeight →
      ∀ t ∈ genesis.forcedTxs content e,
        (∃ b ∈ s.verified ++ [(daHeight, txs)], Transaction.hash t ∈ blockHashes b) ∧
          ∀ b ∈ s.verified ++ [(daHeight, txs)], b.1 + genesis.daEpochForcedInclusion ≤ e →
            Transaction.hash t ∉ blockHashes b

variable {genesis : Genesis} {s : ForcedInclusion Tx} {env : VerifyEnv Tx}
  {content : Nat → List Tx} {daHeight : Nat} {txs : List Tx}

/-- A transaction that is included on DA is found when the loop looks it up. -/
theorem seen_of_included {start epochEnd : Nat} {recorded : ForcedInclusion Tx} {t : Tx}
    (htr : s.Tracked genesis) (hat : LoopAt genesis start recorded epochEnd s)
    (hin : ∃ b ∈ recorded.verified, Transaction.hash t ∈ blockHashes b)
    (hout : ∀ b ∈ recorded.verified, b.1 + genesis.daEpochForcedInclusion ≤ epochEnd →
      Transaction.hash t ∉ blockHashes b) : Transaction.hash t ∈ s.seenBlockTxs := by
  obtain ⟨b, hb, ht⟩ := hin
  rw [← hat.verified_eq] at hb hout
  rcases htr.kept b hb _ ht with hs | ⟨hpos, b', hb', hle, ht'⟩
  · exact hs
  · have hlast := hat.last hpos
    exact absurd ht' (hout b' hb' (by omega))

/-- A turn of the loop in which every transaction is found counts nothing. -/
theorem countP_epochLookups {epochEnd : Nat} {l : List Tx} {statuses : List FilterStatus}
    (h : ∀ t ∈ l, Transaction.hash t ∈ s.seenBlockTxs) :
    (s.epochLookups epochEnd l statuses).countP (fun x => !x.seen) = 0 := by
  rw [List.countP_eq_zero]
  intro x hx
  obtain ⟨y, hy, rfl⟩ := List.mem_map.mp hx
  have hy : y ∈ l.zip statuses := (List.mem_filter.mp hy).1
  have := h y.1 (List.of_mem_zip hy).1
  simp [this]

/-- **One verification does not accuse.** -/
theorem verify_not_malicious (h : s.Tracked genesis) (ns : Bool)
    (htrue : env.da.Truthful content) (hinc : s.IncludedOnDA genesis content daHeight txs)
    (lastDAHeight : Nat) {e : Err}
    (hr : (verifyForcedInclusionTxs genesis (some (genesis.retriever ns)) env lastDAHeight daHeight
      txs s).1 = .error e) : e.is .maliciousProposer = false := by
  have hrec := h.recordBlock daHeight txs
  have hc : VerifyCase genesis (genesis.retriever ns) env lastDAHeight daHeight
      (fun _ epochEnd count s' => s'.Tracked genesis ∧ count = 0 ∧
        LoopAt genesis (s.startEpochEnd genesis) (s.recordBlock daHeight txs) epochEnd s')
      (s.recordBlock daHeight txs)
      (verifyForcedInclusionTxs genesis (some (genesis.retriever ns)) env lastDAHeight daHeight txs
        s) := by
    refine verify_cases (fun maxGas _ => ?_) (fun _ => ⟨hrec, rfl, .init hrec.aligned⟩)
    rintro epochEnd count s1 missing s2 ⟨htr, rfl, hat⟩ hgo hcheck
    refine ⟨htr.turn hat.isEnd hcheck, ?_, hat.turn hcheck⟩
    rw [hat.graceBoundary_eq] at hgo
    cases hcheck with
    | empty _ _ _ => rfl
    | checked event statuses hr htxs _ =>
      rw [Nat.zero_add]
      refine countP_epochLookups fun t ht => ?_
      rcases htrue.retrieved hr with hnil | hforced
      · exact absurd hnil htxs
      · rw [hforced] at ht
        obtain ⟨hin, hout⟩ := hinc epochEnd hat.isEnd hat.start_le hgo t ht
        exact seen_of_included htr hat hin hout
  generalize verifyForcedInclusionTxs genesis (some (genesis.retriever ns)) env lastDAHeight
    daHeight txs s = p at hc hr
  cases hc with
  | early _ => cases hr
  | noInfo _ =>
    cases hr
    rfl
  | notConfigured _ _ _ _ _ _ => cases hr
  | failed _ _ _ _ e' _ _ _ _ _ he _ =>
    cases hr
    exact he
  | passed _ _ _ _ _ _ _ => cases hr
  | accused _ _ count _ _ _ h hcount _ =>
    obtain ⟨_, rfl, _⟩ := h
    exact absurd hcount (Nat.lt_irrefl 0)

end ForcedInclusion

namespace Syncer

variable {scheme : SignatureScheme Tx} {sh : SignedHeader} {e : Err} {data : Data Tx}

omit [Transaction Tx] in
theorem tryPayloads_not_malicious
    {l : List (Except Err Bytes)}
    (hl : ∀ e, Except.error e ∈ l → e.is .maliciousProposer = false) :
    ∀ tried, sh.tryPayloads scheme tried l = .error e → e.is .maliciousProposer = false := by
  induction l with
  | nil =>
    intro tried h
    cases h
    rfl
  | cons p rest ih =>
    intro tried h
    have ih := ih fun e he => hl e (List.mem_cons_of_mem _ he)
    cases p with
    | error e' =>
      cases h
      exact hl e List.mem_cons_self
    | ok payload =>
      unfold SignedHeader.tryPayloads at h
      split at h
      · exact ih tried h
      · split at h
        · cases h
          rfl
        · cases h
        · exact ih _ h

omit [Transaction Tx] in
theorem payloads_not_malicious :
    ∀ e, Except.error e ∈ sh.payloads scheme data → e.is .maliciousProposer = false := by
  intro e he
  unfold SignedHeader.payloads at he
  rcases List.mem_append.mp he with he | he
  · split at he
    · cases he
    · rw [List.mem_singleton] at he
      split at he
      · cases he
        rfl
      · cases he
  · rcases List.mem_cons.mp he with he | he
    · dsimp only at he
      split at he
      · cases he
        rfl
      · cases he
    · rw [List.mem_singleton] at he
      dsimp only at he
      split at he
      · cases he
        rfl
      · cases he

omit [Transaction Tx] in
theorem validateBasicWithData_not_malicious {now : Time}
    (h : sh.validateBasicWithData scheme now data = .error e) :
    e.is .maliciousProposer = false := by
  have hbasic : ∀ e, sh.header.validateBasic now = .error e → e.is .maliciousProposer = false := by
    intro e he
    unfold Header.validateBasic at he
    repeat' split at he
    all_goals cases he
    all_goals rfl
  have hsigner : ∀ e, sh.validateSignerIdentity scheme = .error e →
      e.is .maliciousProposer = false := by
    intro e he
    unfold SignedHeader.validateSignerIdentity at he
    repeat' split at he
    all_goals cases he
    all_goals rfl
  unfold SignedHeader.validateBasicWithData at h
  cases hb : sh.header.validateBasic now with
  | error e' =>
    rw [hb] at h
    cases h
    exact hbasic e hb
  | ok _ =>
    rw [hb] at h
    by_cases hsig : sh.signature.length = 0
    · rw [if_pos hsig] at h
      cases h
      rfl
    · rw [if_neg hsig] at h
      cases hs : sh.validateSignerIdentity scheme with
      | error e' =>
        rw [hs] at h
        cases h
        exact hsigner e hs
      | ok _ =>
        rw [hs] at h
        by_cases hp : sh.header.proposerAddress ≠ sh.signerAddress
        · rw [if_pos hp] at h
          cases h
          rfl
        · rw [if_neg hp] at h
          exact tryPayloads_not_malicious payloads_not_malicious _ h

omit [Transaction Tx] in
theorem validateBlock_not_malicious {cfg : SyncerConfig Tx} {now : Time} {state : State} {header : SignedHeader} {count count' : Nat}
    (h : validateBlock cfg now state data header count = (.error e, count')) :
    e.is .maliciousProposer = false := by
  unfold validateBlock at h
  split at h
  · next e' he =>
    cases h
    simp [Err.is, validateBasicWithData_not_malicious he]
  · split at h
    · next e' he =>
      cases h
      unfold State.assertExpectedProposer at he
      split at he
      · cases he
        rfl
      · cases he
    · split at h
      · next e' c he =>
        have hseq : e'.is .maliciousProposer = false := by
          unfold State.assertValidSequence at he
          repeat' split at he
          all_goals first
            | (cases he; rfl)
            | cases he
        split at h <;> cases h <;> simp [Err.is, hseq]
      · split at h
        · next e' he =>
          cases h
          unfold validate at he
          repeat' split at he
          all_goals first
            | (cases he; rfl)
            | cases he
        · cases h

/-- The error of a block is an accusation only when its verification accuses. -/
theorem TrySyncCase.not_malicious {cfg : SyncerConfig Tx} {env : SyncEnv Tx}
    {event : DAHeightEvent Tx} {state : State} {s s' : Syncer Tx}
    (hv : ∀ e, (verification cfg env event s).1 = .error e → e.is .maliciousProposer = false)
    (h : TrySyncCase cfg env event state s (.error e, s')) : e.is .maliciousProposer = false := by
  cases h with
  | cancelled _ => rfl
  | invalid e' count hval =>
    have he := validateBlock_not_malicious hval
    split
    · exact he
    · simp [Err.is, he]
  | malicious _ _ _ _ hm he => exact absurd he (by simp [hv _ hm])
  | unapplied _ _ _ _ => rfl
  | uncommitted _ _ _ _ _ hr =>
    rcases hr with hr | hr
    · cases hr
      rfl
    · cases hr

/--
**An honest chain is not accused.**

In every run of a syncing node, with blocks from any source in any order, a block whose
verification finds every forced transaction included on DA is not refused as malicious.
-/
theorem honest_chain_not_accused (cfg : SyncerConfig Tx) (s0 : Syncer Tx) (ops : List (Op Tx))
    (content : Nat → List Tx) (env : SyncEnv Tx) (event : DAHeightEvent Tx)
    (hup : (Run.exec (step cfg) ⟨false, s0⟩ ops).up = true)
    (htrue : env.verify.da.Truthful content)
    (hinc : (Run.exec (step cfg) ⟨false, s0⟩ ops).state.forced.IncludedOnDA cfg.genesis content
      event.daHeight event.data.txs) :
    (∀ lastDAHeight e, (ForcedInclusion.verifyForcedInclusionTxs cfg.genesis cfg.fiRetriever
        env.verify lastDAHeight event.daHeight event.data.txs
        (Run.exec (step cfg) ⟨false, s0⟩ ops).state.forced).1 = .error e →
          e.is .maliciousProposer = false) ∧
      ∀ e s', trySyncNextBlock cfg env event (Run.exec (step cfg) ⟨false, s0⟩ ops).state =
        (.error e, s') → e.is .maliciousProposer = false := by
  have htr := tracked_reachable cfg s0 ops hup
  generalize (Run.exec (step cfg) ⟨false, s0⟩ ops).state = s at hinc htr ⊢
  have hver : ∀ lastDAHeight e, (ForcedInclusion.verifyForcedInclusionTxs cfg.genesis
      cfg.fiRetriever env.verify lastDAHeight event.daHeight event.data.txs s.forced).1 =
        .error e → e.is .maliciousProposer = false := by
    intro lastDAHeight e hr
    unfold SyncerConfig.fiRetriever at hr
    cases hda : cfg.daClient with
    | none =>
      rw [hda] at hr
      cases hr
    | some ns =>
      rw [hda] at hr
      exact ForcedInclusion.verify_not_malicious htr ns htrue hinc lastDAHeight hr
  refine ⟨hver, fun e s' hr => ?_⟩
  have hc := trySync_cases cfg env event s.lastState s
  rw [show trySyncNextBlockWithState cfg env event s.lastState s = (.error e, s') from hr] at hc
  refine hc.not_malicious fun e he => ?_
  unfold verification at he
  split at he
  · exact hver _ e he
  · cases he

end Syncer

/-! ## Concrete runs -/

namespace HonestRun

def genesis : Genesis := ⟨"c", 1000000000, 1, [7], 1, 2, Nat.one_pos, Nat.two_pos⟩

abbrev cfg : SyncerConfig RawTx := .plain genesis

def tx : RawTx := ⟨5, 10⟩

/-- DA height `h` holds the forced transaction, the others nothing. -/
def env (h : Nat) : SyncEnv RawTx :=
  .plain (.ofBlocks 20 [(h, ⟨0, [tx]⟩)]) { ExecutionAnswers.acceptAll with maxGas := some 0 }

def arrive (h : Nat) (event : DAHeightEvent RawTx) : List (Syncer.Op RawTx) :=
  match event.source with
  | .p2p => [.processHeight event.header.header.height event.header event.data, .processNext (env h)]
  | _ => [.pipeEvent false event, .processNext (env h)]

def after (h : Nat) (events : List (DAHeightEvent RawTx)) : Syncer RawTx :=
  (Run.exec (Syncer.step cfg) ⟨false, .plain cfg⟩
    (.start .plain :: events.flatMap (arrive h))).state

end HonestRun

open HonestRun in
/-- Block 1 contains the forced transaction, and block 2 is refused.

In the first run block 1 arrives from P2P. In the second it arrives from DA, before the epoch of the
forced transaction, and its record is dropped with the epoch before. -/
theorem honest_chain_accused :
    (let s := after 1 [.plain genesis 1 [tx] 0 .p2p];
      (s.store.getBlockData 1).map (fun b => b.2.txs) = some [tx] ∧
        (Syncer.trySyncNextBlock cfg (env 1) (.plain genesis 2 [] 5 .da) s).1 =
          .error (ForcedInclusion.accusation 1)) ∧
      (let s := after 3 [.plain genesis 1 [tx] 2 .da, .plain genesis 2 [] 5 .da];
      (s.store.getBlockData 1).map (fun b => b.2.txs) = some [tx] ∧
        (Syncer.trySyncNextBlock cfg (env 3) (.plain genesis 3 [] 7 .da) s).1 =
          .error (ForcedInclusion.accusation 1)) := by
  decide

open HonestRun in
/-- Read from DA within the epoch of the forced transaction, block 1 counts. -/
theorem honest_chain_not_accused_read :
    (after 1 [.plain genesis 1 [tx] 3 .da]).forced.verified = [(3, [tx])] ∧
      ∀ e s', Syncer.trySyncNextBlock cfg (env 1) (.plain genesis 2 [] 5 .da)
        (after 1 [.plain genesis 1 [tx] 3 .da]) = (.error e, s') →
          e.is .maliciousProposer = false := by
  refine ⟨by decide, (Syncer.honest_chain_not_accused cfg (.plain cfg) _ (env 1).verify.da.txsAt
    (env 1) (.plain genesis 2 [] 5 .da) (by decide) (fun _ _ => rfl) ?_).2⟩
  intro e he _ hgrace t ht
  -- the only epoch with a grace boundary below 5 is the first
  have hle : e + 2 < 5 :=
    Nat.lt_of_le_of_lt (ForcedInclusion.add_le_graceBoundary genesis _ e) hgrace
  have hge : 1 + 2 - 1 ≤ e := he.first_le
  obtain rfl : e = 2 := by omega
  have htxs : genesis.forcedTxs (env 1).verify.da.txsAt 2 = [tx] := by decide
  obtain rfl : t = tx := List.mem_singleton.mp (htxs ▸ ht)
  decide

end EvNode
