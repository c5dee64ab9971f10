import EvNode.Lib.HashIndex
import EvNode.Properties.StoreBatch

/-!
# The hash index of the store

Every entry of the index leads to a block with that digest (`IndexSound`), and every block has its
entry (`IndexComplete`). Removing blocks with their entries keeps both, and so does saving a block at
a height that holds none. The second needs that the digest is new.
-/

namespace EvNode

namespace DefaultStore

variable {Tx : Type} (blobHash : SignedHeader → Bytes)

/-- An entry leads to a block with that digest. -/
def IndexSound (s : DefaultStore Tx) : Prop :=
  ∀ hash h, s.index hash = some h → ∃ b, s.blocks.get? h = some b ∧ blobHash b.header = hash

/-- A block is found under its digest. -/
def IndexComplete (s : DefaultStore Tx) : Prop :=
  ∀ h b, s.blocks.get? h = some b → s.index (blobHash b.header) = some h

/-- The blocks at the heights `R` are removed, each with its entry. -/
def Removed (R : Nat → Prop) (s s' : DefaultStore Tx) : Prop :=
  HashIndex.Removed (fun b => blobHash b.header) R s.blocks.get? s'.blocks.get? s.index s'.index

variable {blobHash}
variable {s s' : DefaultStore Tx}

theorem getHeader_of_block {h : Nat} {b : Block Tx} (hb : s.blocks.get? h = some b) :
    s.getHeader h = some b.header := by
  simp [getHeader, hb]

theorem RolledBack.removed {height : Nat} (h : RolledBack blobHash height s s') :
    Removed blobHash (fun x => height < x ∧ x ≤ s.height) s s' := by
  refine ⟨fun x hx => h.blocks_kept x (by omega), fun x hx => h.blocks_removed x hx.1 hx.2, ?_, ?_⟩
  · intro hash hne
    refine h.index_kept hash fun x header hlo hhi hget => ?_
    obtain ⟨b, hb, rfl⟩ := Option.map_eq_some_iff.mp hget
    exact hne x b ⟨hlo, hhi⟩ hb
  · intro x b hx hb
    exact h.index_removed x b.header hx.1 hx.2 (getHeader_of_block hb)

theorem PrunedBlocks.removed {lastPruned height : Nat}
    (h : PrunedBlocks blobHash lastPruned height s s') :
    Removed blobHash (fun x => lastPruned < x ∧ x ≤ height) s s' := by
  refine ⟨fun x hx => h.blocks_kept x (by omega), fun x hx => h.blocks_removed x hx.1 hx.2, ?_, ?_⟩
  · intro hash hne
    refine h.index_kept hash fun x header hlo hhi hget => ?_
    obtain ⟨b, hb, rfl⟩ := Option.map_eq_some_iff.mp hget
    exact hne x b ⟨hlo, hhi⟩ hb
  · intro x b hx hb
    exact h.index_removed x b.header hx.1 hx.2 (getHeader_of_block hb)

variable {R : Nat → Prop} {header : SignedHeader}

theorem IndexSound.removed (hs : s.IndexSound blobHash)
    (hr : Removed blobHash R s s') : s'.IndexSound blobHash :=
  HashIndex.Sound.removed hs hr

theorem IndexComplete.removed (hs : s.IndexComplete blobHash)
    (hr : Removed blobHash R s s') : s'.IndexComplete blobHash :=
  HashIndex.Complete.removed hs hr

theorem get?_saveBlockData (header : SignedHeader) (data : Data Tx) (signature : Bytes) :
    (s.applyOp blobHash (.putBlock header data signature)).blocks.get? =
      Function.update s.blocks.get? header.header.height (some ⟨header, data, signature⟩) := by
  funext h
  rw [Function.update_apply]
  exact OrdMap.get?_put ..

/-- Saving a block at a height without one, or over one with the same digest. -/
theorem IndexSound.putBlock (data : Data Tx) (signature : Bytes)
    (hs : s.IndexSound blobHash)
    (hold : ∀ b, s.blocks.get? header.header.height = some b → blobHash b.header = blobHash header) :
    (s.applyOp blobHash (.putBlock header data signature)).IndexSound blobHash := by
  have hput := HashIndex.Sound.put (b := ⟨header, data, signature⟩) hs hold
  rw [← get?_saveBlockData] at hput
  exact hput

/-- The digest must not be that of a block at another height. -/
theorem IndexComplete.putBlock (data : Data Tx) (signature : Bytes)
    (hs : s.IndexComplete blobHash)
    (hnew : ∀ h b, s.blocks.get? h = some b → blobHash b.header = blobHash header →
      h = header.header.height) :
    (s.applyOp blobHash (.putBlock header data signature)).IndexComplete blobHash := by
  have hput := HashIndex.Complete.put (b := ⟨header, data, signature⟩) hs hnew
  rw [← get?_saveBlockData] at hput
  exact hput

theorem IndexSound.congr (hs : s.IndexSound blobHash) (hblocks : s'.blocks = s.blocks)
    (hindex : s'.index = s.index) : s'.IndexSound blobHash := by
  intro hash h hentry
  rw [hindex] at hentry
  rw [hblocks]
  exact hs hash h hentry

theorem IndexComplete.congr (hs : s.IndexComplete blobHash) (hblocks : s'.blocks = s.blocks)
    (hindex : s'.index = s.index) : s'.IndexComplete blobHash := by
  intro h b hb
  rw [hblocks] at hb
  rw [hindex]
  exact hs h b hb

/-- Two stores with the same blocks and a sound and complete index have the same index. -/
theorem index_eq (hsound : s.IndexSound blobHash) (hcomplete : s.IndexComplete blobHash)
    (hsound' : s'.IndexSound blobHash) (hcomplete' : s'.IndexComplete blobHash)
    (hblocks : ∀ h, s'.blocks.get? h = s.blocks.get? h) (hash : Bytes) :
    s'.index hash = s.index hash := by
  have heq : s'.blocks.get? = s.blocks.get? := funext hblocks
  unfold IndexSound at hsound'
  unfold IndexComplete at hcomplete'
  rw [heq] at hsound' hcomplete'
  exact congrFun (HashIndex.index_eq hsound hcomplete hsound' hcomplete') hash

theorem indexSound_empty : (empty : DefaultStore Tx).IndexSound blobHash := by
  intro hash h hentry
  cases hentry

theorem indexComplete_empty : (empty : DefaultStore Tx).IndexComplete blobHash := by
  intro h b hb
  cases hb

/-! ## Stores with a complete index -/

/-- Every block is found under its digest, has the height it is stored at, and is one of `H`. -/
structure Indexed (blobHash : SignedHeader → Bytes) (H : SignedHeader → Prop)
    (s : DefaultStore Tx) : Prop where
  complete : s.IndexComplete blobHash
  blocks : ∀ h b, s.blocks.get? h = some b → H b.header ∧ b.header.header.height = h

/-- Digests of headers at different heights are different. -/
def DistinctDigests (blobHash : SignedHeader → Bytes) (H : SignedHeader → Prop) : Prop :=
  ∀ header header', H header → H header' → blobHash header = blobHash header' →
    header.header.height = header'.header.height

variable {H : SignedHeader → Prop}

theorem indexed_empty : (empty : DefaultStore Tx).Indexed blobHash H :=
  ⟨indexComplete_empty, fun h b hb => by cases hb⟩

theorem Indexed.removed (hs : s.Indexed blobHash H)
    (hr : Removed blobHash R s s') : s'.Indexed blobHash H := by
  refine ⟨hs.complete.removed hr, fun h b hb => hs.blocks h b ?_⟩
  by_cases hh : R h
  · rw [hr.gone h hh] at hb
    cases hb
  · rwa [hr.kept h hh] at hb

theorem Indexed.congr (hs : s.Indexed blobHash H) (hblocks : s'.blocks = s.blocks)
    (hindex : s'.index = s.index) : s'.Indexed blobHash H :=
  ⟨hs.complete.congr hblocks hindex, hblocks ▸ hs.blocks⟩

theorem Indexed.putBlock (hs : s.Indexed blobHash H) (hdistinct : DistinctDigests blobHash H) (data : Data Tx) (signature : Bytes) (hmem : H header) :
    (s.applyOp blobHash (.putBlock header data signature)).Indexed blobHash H := by
  constructor
  · refine hs.complete.putBlock data signature fun h b hb heq => ?_
    obtain ⟨hb', rfl⟩ := hs.blocks h b hb
    exact hdistinct b.header header hb' hmem heq
  · intro h b hb
    simp only [applyOp, Store.saveBlockData, OrdMap.get?_put] at hb
    split at hb
    · next heq =>
      cases hb
      exact ⟨hmem, heq.symm⟩
    · exact hs.blocks h b hb

theorem Indexed.pruneBlocks (hs : s.Indexed blobHash H) (height : Nat) :
    (s.pruneBlocks blobHash height).Indexed blobHash H := by
  by_cases hskip : height ≤ s.getLastPrunedHeight lastPrunedBlockHeightKey
  · rw [pruneBlocks_of_le blobHash hskip]
    exact hs
  · exact hs.removed (pruneBlocks_effect blobHash (not_le.mp hskip)).removed

theorem IndexSound.pruneBlocks (hs : s.IndexSound blobHash) (height : Nat) :
    (s.pruneBlocks blobHash height).IndexSound blobHash := by
  by_cases hskip : height ≤ s.getLastPrunedHeight lastPrunedBlockHeightKey
  · rw [pruneBlocks_of_le blobHash hskip]
    exact hs
  · exact hs.removed (pruneBlocks_effect blobHash (not_le.mp hskip)).removed

end DefaultStore

end EvNode
