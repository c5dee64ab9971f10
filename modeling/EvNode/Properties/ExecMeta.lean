import EvNode.Evm.ExecStore
import EvNode.Lib.Run

/-!
# Execution metadata per height

`ExecRecords` is what the metadata store is for: one record per height, and the height up to which
records were pruned. The store keeps to it at every height whose bytes hold no slash
(`getExecMeta_eq`), whatever is saved and pruned at other heights. A height with a slash among its
bytes has a key that other heights can share: `12078` and `12079` end in `/.` and `//`, and both are
cleaned to the same path (`getExecMeta_shared`).
-/

namespace EvNode

structure ExecRecords where
  records : UInt64 → Option ExecMeta
  lastPruned : UInt64

namespace ExecRecords

def empty : ExecRecords := ⟨fun _ => none, 0⟩

/-- A saved record replaces the one of its height. A prune beyond the last one removes the records
in between. -/
def step (r : ExecRecords) : EVMStore.Op → ExecRecords
  | .saveExecMeta execMeta =>
    { r with records := Function.update r.records execMeta.height (some execMeta) }
  | .pruneExec height =>
    if height ≤ r.lastPruned then r
    else ⟨fun h => if r.lastPruned < h ∧ h ≤ height then none else r.records h, height⟩

end ExecRecords

namespace EVMStore

open CleanPath

/-- The call returns: a prune is not of the largest height. -/
def Op.Returns : Op → Prop
  | .saveExecMeta _ => True
  | .pruneExec height => height.toNat + 1 ≠ 2 ^ 64

instance : DecidablePred Op.Returns := fun op =>
  match op with
  | .saveExecMeta _ => inferInstanceAs (Decidable True)
  | .pruneExec height => inferInstanceAs (Decidable (height.toNat + 1 ≠ 2 ^ 64))

def SlashFree (height : UInt64) : Prop := slash ∉ heightBytes height

instance : DecidablePred SlashFree := fun height =>
  inferInstanceAs (Decidable (slash ∉ heightBytes height))

/-! ## Keys -/

theorem length_heightBytes (height : UInt64) : (heightBytes height).length = 8 := rfl

theorem eq_of_bytes {a b : Nat} : ∀ (n : Nat), a / 256 ^ n = b / 256 ^ n →
    (∀ i < n, a / 256 ^ i % 256 = b / 256 ^ i % 256) → a = b
  | 0, hrest, _ => by simpa using hrest
  | n + 1, hrest, hbytes => by
    refine eq_of_bytes n ?_ fun i hi => hbytes i (Nat.lt_succ_of_lt hi)
    have hbyte := hbytes n (Nat.lt_succ_self n)
    rw [Nat.pow_succ, ← Nat.div_div_eq_div_mul, ← Nat.div_div_eq_div_mul] at hrest
    omega

theorem heightBytes_injective : Function.Injective heightBytes := by
  intro a b h
  have hzero : ∀ x : UInt64, x.toNat / 256 ^ 8 = 0 := fun x => Nat.div_eq_of_lt x.toNat_lt
  refine UInt64.toNat.inj (eq_of_bytes 8 ((hzero a).trans (hzero b).symm) fun i hi => ?_)
  have hbyte := List.map_inj_left.mp h i (by simp only [List.mem_cons, List.not_mem_nil, or_false]; omega)
  rwa [UInt8.ofNat_eq_iff_mod_eq_toNat, UInt8.toNat_ofNat'] at hbyte

theorem execMetaKey_eq (height : UInt64) :
    execMetaKey height = join [ascii "evm", ascii "execmeta"] (heightBytes height) := by
  have htext : evmStorePrefix ++ ascii "execmeta/" ++ heightBytes height =
      ascii "evm" ++ slash :: (ascii "execmeta" ++ slash :: heightBytes height) := rfl
  have hevm : push [] (ascii "evm") = [ascii "evm"] := by decide
  have hmeta : push [ascii "evm"] (ascii "execmeta") = [ascii "evm", ascii "execmeta"] := by decide
  rw [execMetaKey, newKey, clean, htext, join_slash (by decide), hevm, join_slash (by decide), hmeta]

variable {height : UInt64} {r : ExecRecords} {s : EVMStore}

theorem execMetaKey_slashFree (h : SlashFree height) :
    execMetaKey height = [ascii "evm", ascii "execmeta", heightBytes height] := by
  have hlen : 2 < (heightBytes height).length := by
    rw [length_heightBytes]
    decide
  rw [execMetaKey_eq, join_of_notMem h hlen]
  rfl

/-- A height without a slash shares its key with no other height. -/
theorem eq_of_execMetaKey_eq {height' : UInt64} (h : SlashFree height)
    (heq : execMetaKey height' = execMetaKey height) : height' = height := by
  rw [execMetaKey_slashFree h] at heq
  by_cases h' : SlashFree height'
  · rw [execMetaKey_slashFree h'] at heq
    simp only [List.cons.injEq, and_true, true_and] at heq
    exact heightBytes_injective heq
  · -- the third element of the other key is shorter than eight bytes
    have hmem : heightBytes height ∈ (execMetaKey height').drop 2 := by
      rw [heq]
      exact List.mem_singleton.mpr rfl
    rw [execMetaKey_eq] at hmem
    have hlt := length_lt_of_mem_join (Nat.le_refl 2) (not_not.mp h') hmem
    rw [length_heightBytes, length_heightBytes] at hlt
    exact absurd hlt (Nat.lt_irrefl 8)

theorem execMetaKey_ne_lastPruned (height : UInt64) : execMetaKey height ≠ lastPrunedExecMetaKey := by
  intro heq
  have hmem : ascii "last-pruned-execmeta-height" ∈ (execMetaKey height).drop 1 := by
    rw [heq]
    decide
  rw [execMetaKey_eq] at hmem
  rcases mem_drop_foldl_push hmem with hmem | hmem
  · exact absurd hmem (by decide)
  · have hle := length_add_count_le hmem
    rw [length_heightBytes] at hle
    have hlen : (ascii "last-pruned-execmeta-height").length = 27 := by decide
    omega

/-! ## The store keeps the records -/

/-- The store holds the records of the heights without a slash, and the last pruned height. -/
structure Holds (r : ExecRecords) (s : EVMStore) : Prop where
  records : ∀ h, SlashFree h → s.db (execMetaKey h) = (r.records h).map .record
  lastPruned : s.lastPruned = r.lastPruned

theorem Holds.getExecMeta (hs : Holds r s)
    (h : SlashFree height) : s.getExecMeta height = .ok (r.records height) := by
  rw [EVMStore.getExecMeta, hs.records height h]
  cases r.records height <;> rfl

theorem mem_heightsAfter {start stop h : UInt64} :
    h ∈ heightsAfter start stop ↔ start < h ∧ h ≤ stop := by
  have hh := h.toNat_lt
  have hstop := stop.toNat_lt
  rw [heightsAfter, List.mem_map, UInt64.lt_iff_toNat_lt, UInt64.le_iff_toNat_le]
  constructor
  · rintro ⟨n, hn, rfl⟩
    rw [List.mem_range'_1] at hn
    have hlt : n < UInt64.size := by
      show n < 2 ^ 64
      omega
    rw [UInt64.toNat_ofNat_of_lt' hlt]
    omega
  · rintro ⟨hlo, hhi⟩
    refine ⟨h.toNat, ?_, UInt64.ofNat_toNat⟩
    rw [List.mem_range'_1]
    omega

/-- What deleting the records of some heights leaves under a key. -/
theorem foldl_delete (key : Key) : ∀ (hs : List UInt64) (db : Key → Option ExecEntry),
    hs.foldl (fun db h => Function.update db (execMetaKey h) none) db key =
      if key ∈ hs.map execMetaKey then none else db key
  | [], db => by simp
  | h :: hs, db => by
    rw [List.foldl_cons, foldl_delete key hs, List.map_cons]
    by_cases hmem : key ∈ hs.map execMetaKey
    · rw [if_pos hmem, if_pos (List.mem_cons_of_mem _ hmem)]
    · rw [if_neg hmem]
      by_cases hkey : key = execMetaKey h
      · rw [hkey, Function.update_self, if_pos List.mem_cons_self]
      · rw [Function.update_of_ne hkey, if_neg (by simp [hkey] at hmem ⊢; exact hmem)]

theorem mem_map_execMetaKey {hs : List UInt64} (h : SlashFree height) :
    execMetaKey height ∈ hs.map execMetaKey ↔ height ∈ hs := by
  rw [List.mem_map]
  constructor
  · rintro ⟨h', hmem, heq⟩
    exact eq_of_execMetaKey_eq h heq ▸ hmem
  · intro hmem
    exact ⟨height, hmem, rfl⟩

theorem Holds.saveExecMeta (hs : Holds r s)
    (execMeta : ExecMeta) :
    Holds (r.step (.saveExecMeta execMeta)) (s.saveExecMeta execMeta) := by
  constructor
  · intro h hfree
    simp only [EVMStore.saveExecMeta, ExecRecords.step]
    by_cases heq : h = execMeta.height
    · rw [heq, Function.update_self, Function.update_self]
      rfl
    · have hkey : execMetaKey h ≠ execMetaKey execMeta.height := by
        intro hkey
        exact heq (eq_of_execMetaKey_eq hfree hkey.symm).symm
      rw [Function.update_of_ne hkey, Function.update_of_ne heq, hs.records h hfree]
  · have hmarker := Ne.symm (execMetaKey_ne_lastPruned execMeta.height)
    have hlast := hs.lastPruned
    simp only [EVMStore.lastPruned, EVMStore.saveExecMeta, ExecRecords.step] at hlast ⊢
    rw [Function.update_of_ne hmarker, hlast]

theorem Holds.pruneExec (hs : Holds r s)
    (hret : (Op.pruneExec height).Returns) :
    Holds (r.step (.pruneExec height)) (s.pruneExec height) := by
  simp only [EVMStore.pruneExec, ExecRecords.step, hs.lastPruned]
  split
  · exact hs
  · rw [if_neg hret]
    constructor
    · intro h hfree
      simp only
      rw [Function.update_of_ne (execMetaKey_ne_lastPruned h), foldl_delete]
      simp only [mem_map_execMetaKey hfree, mem_heightsAfter, hs.records h hfree]
      split <;> rfl
    · simp only [EVMStore.lastPruned, Function.update_self]

/-- A height without a slash sees the records saved for it, and no others. -/
theorem getExecMeta_saveExecMeta (h : SlashFree height) (execMeta : ExecMeta)
    (s : EVMStore) : (s.saveExecMeta execMeta).getExecMeta height =
      if height = execMeta.height then .ok (some execMeta) else s.getExecMeta height := by
  simp only [EVMStore.getExecMeta, EVMStore.saveExecMeta]
  by_cases heq : height = execMeta.height
  · rw [if_pos heq, heq, Function.update_self]
  · have hkey : execMetaKey height ≠ execMetaKey execMeta.height := by
      intro hkey
      exact heq (eq_of_execMetaKey_eq h hkey.symm).symm
    rw [if_neg heq, Function.update_of_ne hkey]

theorem getExecMeta_of_pruneExec {upTo : UInt64} {execMeta : ExecMeta}
    (h : (s.pruneExec upTo).getExecMeta height = .ok (some execMeta)) :
    s.getExecMeta height = .ok (some execMeta) := by
  unfold EVMStore.pruneExec at h
  split at h
  · exact h
  · split at h
    · exact h
    · unfold EVMStore.getExecMeta at h ⊢
      simp only at h
      rw [Function.update_of_ne (execMetaKey_ne_lastPruned height), foldl_delete] at h
      by_cases hmem : execMetaKey height ∈ (heightsAfter s.lastPruned upTo).map execMetaKey
      · simp [hmem] at h
      · rwa [if_neg hmem] at h

theorem Holds.step (hs : Holds r s) {op : Op}
    (hret : op.Returns) : Holds (r.step op) (s.step op) := by
  cases op with
  | saveExecMeta execMeta => exact hs.saveExecMeta execMeta
  | pruneExec height => exact hs.pruneExec hret

theorem Holds.exec {ops : List Op} (hret : ∀ op ∈ ops, op.Returns) (hs : Holds r s) :
    Holds (Run.exec ExecRecords.step r ops) (Run.exec EVMStore.step s ops) := by
  induction ops generalizing r s with
  | nil => exact hs
  | cons op ops ih =>
    exact ih (fun o ho => hret o (List.mem_cons_of_mem _ ho)) (hs.step (hret op List.mem_cons_self))

theorem Holds.empty : Holds ExecRecords.empty EVMStore.empty := ⟨fun _ _ => rfl, rfl⟩

/--
**A height without a slash has its own record.**

Whatever is saved and pruned at this and at other heights, `GetExecMeta` returns the last record
saved for the height, unless a later prune covered it.
-/
theorem getExecMeta_eq (ops : List Op) (height : UInt64) (hret : ∀ op ∈ ops, op.Returns)
    (hfree : SlashFree height) :
    (Run.exec step EVMStore.empty ops).getExecMeta height =
      .ok ((Run.exec ExecRecords.step ExecRecords.empty ops).records height) :=
  (Holds.empty.exec hret).getExecMeta hfree

namespace KeyRun

def record (height : UInt64) (blockHash : Bytes) : ExecMeta :=
  ⟨height, [], [], blockHash, [], [], 0, .promoted, 0⟩

/-- Two neighbours, a prune below them, and a new record for the first. -/
def rewritten : List Op :=
  [.saveExecMeta (record 5 [1]), .saveExecMeta (record 6 [2]), .pruneExec 4,
    .saveExecMeta (record 5 [3]), .saveExecMeta (record 47 [4])]

/-- The blocks at 12078 and 12079, one after the other. -/
def shared : List Op := [.saveExecMeta (record 12078 [1]), .saveExecMeta (record 12079 [2])]

end KeyRun

open KeyRun in
theorem getExecMeta_eq_rewritten :
    (Run.exec step EVMStore.empty rewritten).getExecMeta 5 =
      .ok ((Run.exec ExecRecords.step ExecRecords.empty rewritten).records 5) ∧
    (Run.exec ExecRecords.step ExecRecords.empty rewritten).records 5 = some (record 5 [3]) :=
  ⟨getExecMeta_eq rewritten 5 (by decide) (by decide), by decide⟩

open KeyRun in
/-- The record of 12079 is returned for 12078, and pruning up to 12078 removes it. -/
theorem getExecMeta_shared :
    (Run.exec step EVMStore.empty shared).getExecMeta 12078 = .ok (some (record 12079 [2])) ∧
    (Run.exec ExecRecords.step ExecRecords.empty shared).records 12078 = some (record 12078 [1]) := by
  decide

end EVMStore

end EvNode
