import EvNode.Properties.Tracking

/-!
# The forced-inclusion maps against the verified blocks

Above the last checked epoch end the maps of the syncer should hold what the verified blocks hold:
every hash of a block is seen, and the bytes at a DA height are those of all its blocks. This is so
as long as no DA height has two blocks with transactions and no transaction is in blocks at two DA
heights (`bookkeeping_exact`). `recordBlock` overwrites the bytes at a height, and `pruneHeight`
drops a hash also when a block above the limit holds it (`bookkeeping_inexact`).
-/

namespace EvNode

open Crash Proc

variable {Tx : Type}

/-- One call of `VerifyForcedInclusionTxs`, with the answers it gets. -/
structure VerifyCall (Tx : Type) where
  env : VerifyEnv Tx
  lastDAHeight : Nat
  daHeight : Nat
  txs : List Tx

def VerifyCall.block (c : VerifyCall Tx) : Nat × List Tx := (c.daHeight, c.txs)

namespace ForcedInclusion

variable [Transaction Tx]

/-- The tracking fields after one call, also when it returns an error. -/
def verifyCall (genesis : Genesis) (r : ForcedInclusionRetriever) (s : ForcedInclusion Tx)
    (c : VerifyCall Tx) : ForcedInclusion Tx :=
  (verifyForcedInclusionTxs genesis (some r) c.env c.lastDAHeight c.daHeight c.txs s).2

def blockBytes (b : Nat × List Tx) : Nat := (b.2.map size).sum

/-- The bytes of all the blocks at the DA height `h`. -/
def bytesAt (blocks : List (Nat × List Tx)) (h : Nat) : Nat :=
  ((blocks.filter fun b => b.1 = h).map blockBytes).sum

/-- Of two blocks at one DA height the first has no bytes, and two blocks at different DA heights
share no transaction. -/
def Separate (blocks : List (Nat × List Tx)) : Prop :=
  blocks.Pairwise fun b b' =>
    (b.1 = b'.1 → blockBytes b = 0) ∧ (b.1 ≠ b'.1 → ∀ x ∈ blockHashes b, x ∉ blockHashes b')

instance (blocks : List (Nat × List Tx)) : Decidable (Separate blocks) :=
  inferInstanceAs (Decidable (List.Pairwise _ _))

theorem bytesAt_eq_zero {blocks : List (Nat × List Tx)} {h : Nat}
    (hz : ∀ b ∈ blocks, b.1 = h → blockBytes b = 0) : bytesAt blocks h = 0 := by
  refine List.sum_eq_zero_iff_forall_eq_nat.mpr fun n hn => ?_
  obtain ⟨b, hb, rfl⟩ := List.mem_map.mp hn
  obtain ⟨hb, hh⟩ := List.mem_filter.mp hb
  exact hz b hb (by simpa using hh)

/-- Blocks at different DA heights share no hash, whichever comes first. -/
theorem Separate.height_eq {blocks : List (Nat × List Tx)} (h : Separate blocks)
    {b b' : Nat × List Tx} (hb : b ∈ blocks) (hb' : b' ∈ blocks) {x : Nat} (hx : x ∈ blockHashes b)
    (hx' : x ∈ blockHashes b') : b.1 = b'.1 := by
  have hpair : blocks.Pairwise fun c c' => x ∈ blockHashes c → x ∈ blockHashes c' → c.1 = c'.1 := by
    refine h.imp fun {c c'} hcc hc hc' => ?_
    by_contra hne
    exact hcc.2 hne x hc hc'
  exact hpair.forall_of_forall_of_flip (R := fun c c' => x ∈ blockHashes c → x ∈ blockHashes c' →
    c.1 = c'.1) (fun _ _ _ _ => rfl) (hpair.imp fun {c c'} hcc hc hc' => (hcc hc' hc).symm)
    hb hb' hx hx'

/-- After the blocks: they are tracked, and above the last checked epoch end the bytes are theirs. -/
structure Exact (genesis : Genesis) (blocks : List (Nat × List Tx)) (s : ForcedInclusion Tx) :
    Prop where
  tracked : s.Tracked genesis
  verified : s.verified = blocks
  bytes : ∀ h, s.lastCheckedEpochEnd < h → s.daBlockBytes h = bytesAt blocks h

variable {genesis : Genesis} {blocks : List (Nat × List Tx)} {s : ForcedInclusion Tx}

theorem Exact.recordBlock (h : s.Exact genesis blocks) {daHeight : Nat} {txs : List Tx}
    (hsep : Separate (blocks ++ [(daHeight, txs)])) :
    (s.recordBlock daHeight txs).Exact genesis (blocks ++ [(daHeight, txs)]) where
  tracked := h.tracked.recordBlock daHeight txs
  verified := by
    rw [← h.verified]
    rfl
  bytes k hlt := by
    show Function.update s.daBlockBytes daHeight (txs.map size).sum k = _
    have happend : bytesAt (blocks ++ [(daHeight, txs)]) k =
        bytesAt blocks k + bytesAt [(daHeight, txs)] k := by simp [bytesAt]
    rw [happend]
    by_cases hk : k = daHeight
    · -- the blocks recorded before at this height have no bytes
      subst hk
      have hbefore : bytesAt blocks k = 0 := by
        refine bytesAt_eq_zero fun b hb hbk => ?_
        exact ((List.pairwise_append.mp hsep).2.2 b hb _ List.mem_cons_self).1 hbk
      rw [hbefore, Function.update_self]
      simp [bytesAt, blockBytes]
    · have hnew : bytesAt [(daHeight, txs)] k = 0 := by
        refine bytesAt_eq_zero fun b hb hbk => ?_
        rw [List.mem_singleton.mp hb] at hbk
        exact absurd hbk.symm hk
      rw [hnew, Function.update_of_ne hk]
      exact h.bytes k hlt

theorem Exact.epochChecked (h : s.Exact genesis blocks) {e : Nat} (he : genesis.IsEpochEnd e) :
    (s.epochChecked e).Exact genesis blocks := by
  refine ⟨h.tracked.epochChecked he, (epochChecked_verified s e).trans h.verified, fun k hk => ?_⟩
  rcases Nat.lt_or_ge s.lastCheckedEpochEnd e with hlt | hge
  · obtain ⟨hp, hlast⟩ := epochChecked_of_lt hlt
    rw [hlast] at hk
    rw [hp.bytes k (by omega)]
    exact h.bytes k (by omega)
  · rw [epochChecked_of_le hge] at hk ⊢
    exact h.bytes k hk

/-- **One call.** -/
theorem Exact.verifyCall (h : s.Exact genesis blocks) (r : ForcedInclusionRetriever)
    (c : VerifyCall Tx) (hsep : Separate (blocks ++ [c.block])) :
    (verifyCall genesis r s c).Exact genesis (blocks ++ [c.block]) :=
  verify_invariant (fun h => h.tracked.aligned)
    (fun l h => ⟨h.tracked.looked l, h.verified, h.bytes⟩) (fun he h => h.epochChecked he)
    (h.recordBlock hsep) r c.env c.lastDAHeight

/-- A run of calls, with the blocks verified so far. -/
theorem Exact.exec (r : ForcedInclusionRetriever) (calls : List (VerifyCall Tx)) :
    ∀ {blocks} {s : ForcedInclusion Tx}, s.Exact genesis blocks →
      Separate (blocks ++ calls.map VerifyCall.block) →
      (Run.exec (ForcedInclusion.verifyCall genesis r) s calls).Exact genesis
        (blocks ++ calls.map VerifyCall.block) := by
  induction calls with
  | nil =>
    intro blocks s h _
    rw [List.map_nil, List.append_nil]
    exact h
  | cons c calls ih =>
    intro blocks s h hsep
    rw [List.map_cons, List.append_cons] at hsep ⊢
    rw [Run.exec_cons]
    exact ih (h.verifyCall r c (List.pairwise_append.mp hsep).1) hsep

end ForcedInclusion

/--
**The bookkeeping is exact**, for blocks that are separate: after every call the maps hold all hashes
and bytes of the verified blocks above the last checked epoch end.
-/
theorem bookkeeping_exact [Transaction Tx] (genesis : Genesis) (r : ForcedInclusionRetriever)
    (daHeight : Nat) (calls : List (VerifyCall Tx))
    (hsep : ForcedInclusion.Separate (calls.map VerifyCall.block)) :
    let s := Run.exec (ForcedInclusion.verifyCall genesis r)
      (.initial (Syncer.initialCheckedEpochEnd genesis daHeight)) calls
    (∀ c ∈ calls, s.lastCheckedEpochEnd < c.daHeight →
        ∀ t ∈ c.txs, Transaction.hash t ∈ s.seenBlockTxs) ∧
      ∀ h, s.lastCheckedEpochEnd < h →
        s.daBlockBytes h = ForcedInclusion.bytesAt (calls.map VerifyCall.block) h := by
  have hstart : ForcedInclusion.Exact genesis [] (.initial
      (Syncer.initialCheckedEpochEnd genesis daHeight) : ForcedInclusion Tx) :=
    ⟨.initial ((Syncer.initialCheckedEpochEnd_spec genesis daHeight).imp_right And.left), rfl,
      fun _ _ => rfl⟩
  have hex := hstart.exec r calls hsep
  rw [List.nil_append] at hex
  refine ⟨fun c hc hlt t ht => ?_, hex.bytes⟩
  have hmem : c.block ∈ calls.map VerifyCall.block := List.mem_map_of_mem hc
  have hx : Transaction.hash t ∈ ForcedInclusion.blockHashes c.block := List.mem_map_of_mem ht
  rcases hex.tracked.kept c.block (hex.verified ▸ hmem) _ hx with hseen | ⟨-, b, hb, hle, hb'⟩
  · exact hseen
  · -- a hash is dropped only with a block below the limit
    have hheight : c.daHeight = b.1 := hsep.height_eq hmem (hex.verified ▸ hb) hx hb'
    omega

namespace Bookkeeping

/-- Epochs of one DA height, from DA height 1 on. -/
def genesis : Genesis := ⟨"c", 0, 1, [7], 1, 1, Nat.one_pos, Nat.one_pos⟩

/-- A call at `daHeight`, with no forced transactions on DA. -/
def call (daHeight : Nat) (txs : List RawTx) : VerifyCall RawTx :=
  ⟨⟨.ofBlocks 20 [], { ExecutionAnswers.acceptAll with maxGas := some 0 }⟩, 0, daHeight, txs⟩

def after (calls : List (VerifyCall RawTx)) : ForcedInclusion RawTx :=
  Run.exec (ForcedInclusion.verifyCall genesis (genesis.retriever true))
    (.initial (Syncer.initialCheckedEpochEnd genesis 0)) calls

def apart : List (VerifyCall RawTx) := [call 1 [⟨5, 10⟩], call 3 [⟨6, 20⟩]]

end Bookkeeping

open Bookkeeping in
theorem bookkeeping_exact_pruned : (after apart).lastCheckedEpochEnd = 1 ∧
    6 ∈ (after apart).seenBlockTxs ∧ (after apart).daBlockBytes 3 = 20 := by
  obtain ⟨hseen, hbytes⟩ := bookkeeping_exact genesis (genesis.retriever true) 0 apart (by decide)
  refine ⟨by decide, ?_, hbytes 3 (by decide)⟩
  exact hseen (call 3 [⟨6, 20⟩]) (List.mem_cons_of_mem _ List.mem_cons_self) (by decide) ⟨6, 20⟩
    List.mem_cons_self

open Bookkeeping in
/-- With two blocks at DA height 1 the bytes of the first are lost. When a transaction is in blocks at
the DA heights 1 and 3, the check of epoch 1 forgets it. -/
theorem bookkeeping_inexact :
    ((after [call 1 [⟨5, 10⟩], call 1 [⟨6, 20⟩]]).lastCheckedEpochEnd = 0 ∧
      (after [call 1 [⟨5, 10⟩], call 1 [⟨6, 20⟩]]).daBlockBytes 1 = 20) ∧
    (after [call 1 [⟨5, 10⟩], call 3 [⟨5, 10⟩]]).lastCheckedEpochEnd = 1 ∧
      5 ∉ (after [call 1 [⟨5, 10⟩], call 3 [⟨5, 10⟩]]).seenBlockTxs := by
  decide

end EvNode
