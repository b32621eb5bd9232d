import CmtTcp.MemoryPool

/-!
# What the bins count

The counters `nums` of the bins of `cmt_memory_pool.c`, against the chains of free chunks. `block_alloc`
counts nineteen new chunks and links six, and `cmt_pfree` puts a chunk on a chain and does not count it.

`binsMatch_iff`: from empty bins the counters are right exactly as long as nothing is put on a chain, that is
as long as the bins are empty.
-/

namespace CmtTcp

open Lib (Seg Region Laid Run Guarded)

/-! ### Counters and chains -/

/-- No bin counts a chunk or lists one. -/
def MemPool.BinsEmpty (pool : MemPool) : Prop :=
  ∀ i < totalBins, pool.smallbins i = { nums := 0, free := none }

/-- Every bin counts the chunks of its chain. The chunks are as large as their bin says, in memory that the
pool owns and apart from each other, and none is on two chains. -/
def BinsMatch (w : MemWorld) : Prop :=
  ∃ free : List (ℕ × Addr),
    (∀ i < totalBins, Seg w.pool.chunkNext (w.pool.smallbins i).free (chain free i) none ∧
      (w.pool.smallbins i).nums.toNat = (chain free i).length) ∧
    Laid w.owned (free.map cell) ∧ (free.map Prod.snd).Nodup

/-- There is a bin for the size. -/
def Binned (size : U64) : Prop :=
  roundUp size 8 ≠ 0 ∧ smallbinsIdx (roundUp size 8) < totalBins

/-- A call for a size that there is a bin for, or a write to the blocks in use. -/
def BinCall (_ : MemWorld) : MemCall → Prop
  | .palloc size _ => Binned size
  | .pfree b => Binned b.size
  | .write _ _ => True

/-- The call puts chunks on a chain: the last block is larger than the block that is asked for, or a block
is given back. -/
def FillsBin (w : MemWorld) : MemCall → Prop
  | .palloc size _ => roundUp size 8 < w.pool.lastSize.setWidth 64
  | .pfree _ => True
  | .write _ _ => False

/-! ### What a call does to the bins -/

section Calls

variable {pool pool' : MemPool} {size nums : U64} {malloc p : Option Addr} {w w' : MemWorld} {i : ℕ}
  {l : List Addr}

theorem binsMatch_of_empty (h : w.pool.BinsEmpty) : BinsMatch w := by
  refine ⟨[], fun i hi => ?_, ⟨.nil, nofun⟩, List.nodup_nil⟩
  rw [h i hi]
  exact ⟨rfl, rfl⟩

/-- A bin whose chain is longer or shorter than it counts. -/
theorem not_binsMatch (hi : i < totalBins) (hseg : Seg w.pool.chunkNext (w.pool.smallbins i).free l none)
    (hne : (w.pool.smallbins i).nums.toNat ≠ l.length) : ¬BinsMatch w := by
  rintro ⟨free, hbins, -⟩
  obtain ⟨hchain, hnums⟩ := hbins i hi
  rw [hchain.unique hseg] at hnums
  exact hne hnums

/-- The rounded size of a block with a bin. -/
theorem Binned.toNat (h : Binned size) : 0 < (roundUp size 8).toNat ∧ (roundUp size 8).toNat ≤ 48 := by
  obtain ⟨hpos, hbin⟩ := h
  have hmul := smallbinsIdx_mul size
  have hne : (roundUp size 8).toNat ≠ 0 := fun h0 => hpos (BitVec.eq_of_toNat_eq h0)
  unfold totalBins at hbin
  omega

/-- What `block_alloc` takes from a last block that is larger than the block asked for. -/
theorem lt_blockTotal (h : Binned size) (hlast : roundUp size 8 < pool.lastSize.setWidth 64) :
    roundUp size 8 < blockTotal pool (roundUp size 8) numberOfAddedNode := by
  obtain ⟨hpos, hle⟩ := h.toNat
  have hlt := pool.lastSize.isLt
  have hwidth : (pool.lastSize.setWidth 64).toNat = pool.lastSize.toNat :=
    BitVec.toNat_setWidth_of_le (by decide)
  generalize roundUp size 8 = s at hpos hle hlast ⊢
  rw [BitVec.lt_def, hwidth] at hlast
  rw [BitVec.lt_def]
  unfold blockTotal
  dsimp only
  split
  · -- rounding up a multiple of the size, or what the mask makes of it, takes back less than was added
    have hmask := Lib.le_add_toNat_and_not (pool.lastSize.setWidth 64 + s - 1) (s - 1)
    have hsum : (pool.lastSize.setWidth 64 + s - 1).toNat = pool.lastSize.toNat + s.toNat - 1 := by
      bv_omega
    have hone : (s - 1).toNat = s.toNat - 1 := by bv_omega
    unfold roundUp
    omega
  · have hmul : (s * numberOfAddedNode).toNat = s.toNat * 20 :=
      (BitVec.toNat_mul s numberOfAddedNode).trans (Nat.mod_eq_of_lt (by change s.toNat * 20 < _; omega))
    omega

theorem linked_length (c len n : ℕ) : (linked c len n).length = n + 1 := by
  induction n generalizing c with
  | zero => rfl
  | succ n ih => exact congrArg Nat.succ (ih (c + len))

/-- `block_alloc` makes a chain of six chunks and counts nineteen. -/
theorem not_binsMatch_blockAlloc (h : Binned size) (hlast : roundUp size 8 < pool.lastSize.setWidth 64)
    (hw : w.pool = (blockAlloc pool (roundUp size 8) numberOfAddedNode).1) : ¬BinsMatch w := by
  obtain ⟨hpos, -⟩ := h.toNat
  have hchain : Seg w.pool.chunkNext (w.pool.smallbins (smallbinsIdx (roundUp size 8))).free
      (linked (pool.lastData + (roundUp size 8).toNat) (roundUp size 8).toNat 5) none := by
    rw [hw]
    unfold blockAlloc
    dsimp only
    rw [if_pos (lt_blockTotal h hlast)]
    change Seg _ (Function.update pool.smallbins _ _ _).free _ none
    rw [Function.update_self]
    exact linkChunks_seg hpos
  have hnums : (w.pool.smallbins (smallbinsIdx (roundUp size 8))).nums = 19 := by
    rw [hw]
    unfold blockAlloc
    dsimp only
    rw [if_pos (lt_blockTotal h hlast)]
    change (Function.update pool.smallbins _ _ _).nums = 19
    rw [Function.update_self]
    rfl
  refine not_binsMatch h.2 hchain ?_
  rw [hnums, linked_length]
  decide

/-- A chunk that comes back is not counted. -/
theorem not_binsMatch_pfree {b : MemBlock} {released : List Addr} (h : w.pool.BinsEmpty) (hb : Binned b.size)
    (hret : cmtPfree w.pool b.addr b.size = .ok (pool', released)) (hw : w'.pool = pool') :
    ¬BinsMatch w' := by
  unfold cmtPfree at hret
  dsimp only at hret
  rw [if_neg (not_large_of_bin hb.2), if_neg (Nat.not_le.mpr hb.2), h _ hb.2] at hret
  have hpool := (Prod.mk.inj (Except.ok.inj hret)).1
  rintro ⟨free, hbins, -⟩
  obtain ⟨hseg, hnums⟩ := hbins _ hb.2
  rw [hw, ← hpool] at hseg hnums
  change Seg _ (Function.update w.pool.smallbins _ _ _).free _ none at hseg
  change (Function.update w.pool.smallbins _ _ _).nums.toNat = _ at hnums
  rw [Function.update_self] at hseg hnums
  -- the chain is empty, as the counter says, but starts with the chunk
  have hnil : chain free (smallbinsIdx (roundUp b.size 8)) = [] := List.eq_nil_of_length_eq_zero hnums.symm
  rw [hnil] at hseg
  cases hseg

/-- The large chunks come before the bins: what is cut off them leaves the bins alone. -/
theorem allocFromLarge_bins {r : MemPool × Addr} (h : allocFromLarge pool size = .ok (some r)) :
    r.1.smallbins = pool.smallbins := by
  unfold allocFromLarge at h
  split at h
  · cases h
  dsimp only at h
  split at h
  · cases h
    rfl
  · cases h

theorem findBin_empty (h : pool.BinsEmpty) : findBin pool size = none := by
  unfold findBin
  rw [List.find?_eq_none]
  intro i hi hnums
  have hlt : i < totalBins := by
    obtain ⟨hlow, hhigh⟩ := List.mem_range'_1.mp hi
    omega
  rw [h i hlt] at hnums
  exact absurd hnums (by decide)

/-- A call that the last block is too small for, with empty bins, is served from a large chunk. -/
theorem palloc_fromLarge (h : pool.BinsEmpty) (hsize : Binned size)
    (hlast : ¬roundUp size 8 < pool.lastSize.setWidth 64)
    (hret : cmtPalloc pool size malloc = .ok (pool', p)) :
    ∃ r, allocFromLarge pool (roundUp size 8) = .ok (some r) ∧ pool' = r.1 := by
  unfold cmtPalloc cmtSmallAlloc refill at hret
  dsimp only at hret
  rw [if_neg (not_large_of_bin hsize.2), if_neg (Nat.not_le.mpr hsize.2), h _ hsize.2,
    if_neg (by decide), if_neg hlast] at hret
  split at hret
  · unfold allocFromOtherBins at hret
    rw [findBin_empty h] at hret
    cases hr : allocFromLarge pool (roundUp size 8) with
    | error e =>
      rw [hr] at hret
      cases hret
    | ok r =>
      rw [hr] at hret
      cases r with
      | none => cases hret
      | some r =>
        cases hret
        exact ⟨r, rfl, rfl⟩
  · cases hret

theorem binsEmpty_palloc (h : pool.BinsEmpty) (hsize : Binned size)
    (hlast : ¬roundUp size 8 < pool.lastSize.setWidth 64)
    (hret : cmtPalloc pool size malloc = .ok (pool', p)) : pool'.BinsEmpty := by
  obtain ⟨r, hr, rfl⟩ := palloc_fromLarge h hsize hlast hret
  intro i hi
  rw [allocFromLarge_bins hr]
  exact h i hi

/-- Without large chunks, every call that returns puts chunks on a chain. -/
theorem fillsBin_of_palloc (h : w.pool.BinsEmpty) (hlarge : w.pool.largeCtb = none) (hsize : Binned size)
    (hret : cmtPalloc w.pool size malloc = .ok (pool', p)) : FillsBin w (.palloc size malloc) := by
  by_contra hlast
  obtain ⟨r, hr, -⟩ := palloc_fromLarge h hsize hlast hret
  unfold allocFromLarge at hr
  rw [hlarge] at hr
  cases hr

/-- A call that the last block is large enough for, with empty bins, is served by `block_alloc`. -/
theorem palloc_blockAlloc (h : pool.BinsEmpty) (hsize : Binned size)
    (hlast : roundUp size 8 < pool.lastSize.setWidth 64)
    (hret : cmtPalloc pool size malloc = .ok (pool', p)) :
    pool' = (blockAlloc pool (roundUp size 8) numberOfAddedNode).1 := by
  have hnums : (pool.smallbins (smallbinsIdx (roundUp size 8))).nums = 0 := by rw [h _ hsize.2]
  rw [cmtPalloc_small hsize.2 (cmtSmallAlloc_refill hsize.2 hnums (refill_block hlast))] at hret
  exact (Prod.mk.inj (Except.ok.inj hret)).1.symm

theorem memStep_det {w u u' : MemWorld} {l : MemCall} (h : MemStep w l u) (h' : MemStep w l u') : u = u' := by
  cases h with
  | palloc _ hret =>
    cases h' with
    | palloc _ hret' =>
      obtain ⟨rfl, rfl⟩ := Prod.mk.inj (Except.ok.inj (hret.symm.trans hret'))
      rfl
  | pfree _ hret =>
    cases h' with
    | pfree _ hret' =>
      obtain ⟨rfl, rfl⟩ := Prod.mk.inj (Except.ok.inj (hret.symm.trans hret'))
      rfl
  | write _ _ =>
    cases h' with
    | write _ _ => rfl

end Calls

/-! ### All runs -/

/-- **Counters and chains of the bins.** In a run from empty bins, with calls for sizes that there is a bin
for, the bins match their chains after every call exactly when no block is given back, and no block is
allocated while the last block is larger. -/
theorem binsMatch_iff {w₀ w : MemWorld} {ls : List MemCall} (hempty : w₀.pool.BinsEmpty)
    (hrun : Run (Guarded BinCall MemStep) w₀ ls w) :
    Run.Along (Guarded BinCall MemStep) w₀ ls (fun _ _ u => BinsMatch u) ↔
      ¬Run.Occurs (Guarded BinCall MemStep) w₀ ls FillsBin := by
  refine hrun.along_iff (fun t l u u' h h' => memStep_det h.2 h'.2) (J := fun w => w.pool.BinsEmpty) hempty
    ?_ ?_
  -- a call that puts nothing on a chain leaves the bins empty
  · rintro t l u hJ ⟨hcall, hstep⟩ hfill
    have hJ' : u.pool.BinsEmpty := by
      cases hstep with
      | palloc _ hret => exact binsEmpty_palloc hJ hcall hfill hret
      | pfree _ _ => exact absurd trivial hfill
      | write _ _ => exact hJ
    exact ⟨hJ', binsMatch_of_empty hJ'⟩
  -- one that does leaves a counter that is wrong
  · rintro t l u hJ ⟨hcall, hstep⟩ hfill
    cases hstep with
    | palloc _ hret => exact not_binsMatch_blockAlloc hcall hfill (palloc_blockAlloc hJ hcall hfill hret)
    | pfree _ hret => exact not_binsMatch_pfree hJ hcall hret rfl
    | write _ _ => exact absurd hfill not_false

theorem binsEmpty_created (size : U64) (data : Addr) (chunkNext : Addr → Option Addr)
    (large : Addr → LargeChunk) : (createdPool size data chunkNext large).pool.BinsEmpty :=
  fun _ _ => rfl

/-- A pool with nothing left of its area, and a large chunk at `65536` that was given back. -/
def oneLarge : MemWorld where
  pool :=
    { remained := 4096
      largeCtb := some 65536
      lastSize := 0
      lastData := 12288
      nonMainArena := []
      smallbins := fun _ => { nums := 0, free := none }
      chunkNext := fun _ => none
      large := fun _ => ⟨1024, none⟩ }
  live := []
  owned := [⟨8192, 4096⟩, ⟨65536, 1024⟩]

/-- A block is cut from the large chunk: the bins stay empty. -/
theorem binsMatch_oneLarge :
    (oneLarge.afterPalloc 8).live = [⟨65536, 8⟩] ∧
      Run.Along (Guarded BinCall MemStep) oneLarge [.palloc 8 none] (fun _ _ u => BinsMatch u) := by
  have hrun : Run (Guarded BinCall MemStep) oneLarge [.palloc 8 none] (oneLarge.afterPalloc 8) :=
    Run.single ⟨show Binned 8 from ⟨by decide, by decide⟩, .afterPalloc ⟨_, rfl⟩⟩
  refine ⟨by decide, (binsMatch_iff (fun _ _ => rfl) hrun).mpr fun hfill => ?_⟩
  have hcall : FillsBin oneLarge (.palloc 8 none) := Run.occurs_single_iff.mp hfill
  exact absurd (show roundUp 8 8 < oneLarge.pool.lastSize.setWidth 64 from hcall) (by decide)

/-- After the first allocation from a pool, a bin counts nineteen chunks and lists six. -/
theorem binsMatch_fails :
    Run (Guarded BinCall MemStep) defaultPool [.palloc 8 none] onePalloc ∧ BinsMatch defaultPool ∧
      ¬BinsMatch onePalloc := by
  have hempty : defaultPool.pool.BinsEmpty := binsEmpty_created 0 8192 (fun _ => none) fun _ => ⟨0, none⟩
  have hpool : onePalloc.pool = (blockAlloc defaultPool.pool (roundUp 8 8) numberOfAddedNode).1 := rfl
  have hbin : Binned 8 := ⟨by decide, by decide⟩
  exact ⟨Run.single ⟨hbin, .afterPalloc ⟨_, rfl⟩⟩, binsMatch_of_empty hempty,
    not_binsMatch_blockAlloc hbin (by decide) hpool⟩

end CmtTcp
