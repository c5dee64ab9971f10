import EvNode.Syncing.Syncer

/-!
# What a valid block satisfies

One lemma per check of `ValidateBlock`, and one for the counter of headers that do not link.
-/

namespace EvNode

variable {Tx : Type}

namespace State

/-- A header that passes `assertValidSequence`. Without a last header hash only the chain is
checked. -/
theorem assertValidSequence_ok {s : State} {header : SignedHeader} {n m : Nat}
    (h : s.assertValidSequence header n = (.ok (), m)) :
    header.header.chainID = s.chainID ∧
      (s.lastHeaderHash = [] ∧ m = n ∨
        s.lastBlockTime ≤ header.header.time ∧ header.header.appHash = s.appHash ∧
          (header.header.lastHeaderHash = s.lastHeaderHash ∧ m = n ∨ n ≠ 1 ∧ m = 1)) := by
  unfold assertValidSequence at h
  split at h
  · cases h
  · next hchain =>
    refine ⟨not_not.mp hchain, ?_⟩
    split at h
    · next hempty =>
      cases h
      exact .inl ⟨List.eq_nil_of_length_eq_zero hempty, rfl⟩
    · split at h
      · cases h
      · split at h
        · cases h
        · next htime =>
          split at h
          · cases h
          · next hlink =>
            dsimp only at h
            split at h
            · cases h
            · next happ =>
              refine .inr ⟨Int.not_lt.mp htime, not_not.mp happ, ?_⟩
              split at h
              · next hne =>
                cases h
                exact .inr ⟨fun hn => hlink ⟨hne, hn⟩, rfl⟩
              · next heq =>
                cases h
                exact .inl ⟨not_not.mp heq, rfl⟩

/-- The counter goes up by at most one, once. -/
theorem assertValidSequence_count (s : State) (header : SignedHeader) {n : Nat} (hn : n ≤ 1) :
    n ≤ (s.assertValidSequence header n).2 ∧ (s.assertValidSequence header n).2 ≤ 1 := by
  unfold assertValidSequence
  dsimp only
  split_ifs <;> exact ⟨by omega, by omega⟩

end State

theorem SignedHeader.tryPayloads_ok {scheme : SignatureScheme Tx} {sh : SignedHeader} :
    ∀ {l : List (Except Err Bytes)} {tried : List Bytes}, sh.tryPayloads scheme tried l = .ok () →
      ∃ payload, .ok payload ∈ l ∧
        scheme.verify sh.signerPubKey payload sh.signature = some true
  | [], _, h | .error _ :: _, _, h => nomatch h
  | .ok payload :: rest, tried, h => by
    unfold tryPayloads at h
    split at h
    · obtain ⟨p, hp, hv⟩ := tryPayloads_ok h
      exact ⟨p, List.mem_cons_of_mem _ hp, hv⟩
    · split at h
      · cases h
      · next hv => exact ⟨payload, List.mem_cons_self, hv⟩
      · obtain ⟨p, hp, hv⟩ := tryPayloads_ok h
        exact ⟨p, List.mem_cons_of_mem _ hp, hv⟩

/-- The key with which the header is signed has the proposer's address. -/
theorem SignedHeader.validateBasicWithData_ok {scheme : SignatureScheme Tx} {now : Time}
    {sh : SignedHeader} {data : Data Tx} (h : sh.validateBasicWithData scheme now data = .ok ()) :
    sh.header.proposerAddress ≠ [] ∧ scheme.keyAddress sh.signerPubKey = sh.signerAddress ∧
      sh.header.proposerAddress = sh.signerAddress ∧
      ∃ payload, .ok payload ∈ sh.payloads scheme data ∧
        scheme.verify sh.signerPubKey payload sh.signature = some true := by
  unfold validateBasicWithData at h
  cases hbasic : sh.header.validateBasic now with
  | error e =>
    rw [hbasic] at h
    cases h
  | ok _ =>
    have hproposer : sh.header.proposerAddress ≠ [] := by
      intro hnil
      unfold Header.validateBasic at hbasic
      rw [hnil] at hbasic
      cases hbasic
    rw [hbasic] at h
    change (if sh.signature.length = 0 then _ else _ >>= fun _ => _) = _ at h
    split at h
    · cases h
    · cases hsigner : sh.validateSignerIdentity scheme with
      | error e =>
        rw [hsigner] at h
        cases h
      | ok _ =>
        rw [hsigner] at h
        change (if sh.header.proposerAddress ≠ sh.signerAddress then _ else _) = _ at h
        split at h
        · cases h
        · next hsame =>
          refine ⟨hproposer, ?_, not_not.mp hsame, tryPayloads_ok h⟩
          unfold validateSignerIdentity at hsigner
          split at hsigner
          · cases hsigner
          · split at hsigner
            · cases hsigner
            · next hkey => exact not_not.mp hkey

namespace Syncer

theorem validateBlock_ok {cfg : SyncerConfig Tx} {now : Time} {state : State} {data : Data Tx}
    {header : SignedHeader} {n m : Nat}
    (h : validateBlock cfg now state data header n = (.ok (), m)) :
    header.validateBasicWithData cfg.scheme now data = .ok () ∧
      state.assertExpectedProposer header = .ok () ∧
      state.assertValidSequence header n = (.ok (), m) ∧
      validate cfg.hashes header data = .ok () := by
  unfold validateBlock at h
  split at h
  · cases h
  · next hbasic =>
    split at h
    · cases h
    · next hproposer =>
      split at h
      · split at h <;> cases h
      · next hseq =>
        split at h
        · cases h
        · next hdata =>
          cases h
          exact ⟨hbasic, hproposer, hseq, hdata⟩

theorem validateBlock_count (cfg : SyncerConfig Tx) (now : Time) (state : State) (data : Data Tx)
    (header : SignedHeader) {n : Nat} (hn : n ≤ 1) :
    n ≤ (validateBlock cfg now state data header n).2 ∧
      (validateBlock cfg now state data header n).2 ≤ 1 := by
  have hcount := state.assertValidSequence_count header hn
  unfold validateBlock
  split
  · exact ⟨Nat.le_refl n, hn⟩
  · split
    · exact ⟨Nat.le_refl n, hn⟩
    · split
      · next hseq =>
        rw [hseq] at hcount
        split <;> exact hcount
      · next hseq =>
        rw [hseq] at hcount
        split <;> exact hcount

end Syncer

theorem validate_ok {hs : Hashes Tx} {header : SignedHeader} {data : Data Tx}
    (h : validate hs header data = .ok ()) :
    (header.header.chainID = data.chainID ∧ header.header.height = data.height ∧
        header.header.time = data.time) ∧
      hs.daCommitment data.txs = header.header.dataHash := by
  unfold validate at h
  split at h
  · cases h
  · next hmeta =>
    push Not at hmeta
    split at h
    · cases h
    · next hhash => exact ⟨hmeta, not_not.mp hhash⟩

end EvNode
