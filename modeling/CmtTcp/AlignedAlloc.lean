import CmtTcp.MemoryPool
import CmtTcp.Lib.ByteMemory

/-!
# Aligned blocks

`cmt_pmemalign` and `cmt_pmemfree` of `cmt_memory_pool.c`. A larger block is taken from the pool, the pointer
into it is cut down to the alignment, and the eight bytes below the pointer remember where the block starts.

The pointer is moved up by `align - 1 + size`, where eight bytes more than `align - 1` would make the room that
is needed. So there is room for the back pointer only where `size` and `align` are nine together
(`pmemalign_within_iff`); and `align = 0`, which the callers pass for "no alignment", is a mask of zero, with the
pointer `NULL`.
-/

namespace CmtTcp

open Lib (Region loadBytes storeBytes)

/-! ### The two functions -/

/-- `offset` -/
def alignOffset (align size : U64) : U64 := align - 1 + size

/-- `total_size` and `totalsize` -/
def alignTotal (align size : U64) : U64 := alignOffset align size + size

/-- `p2`, for the block at `p1` -/
def alignedPtr (align size p1 : U64) : U64 := (p1 + alignOffset align size) &&& ~~~(align - 1)

/-- `p2[-1] = p1` -/
def storeBack (mem : U64 → U8) (p2 p1 : U64) : U64 → U8 := storeBytes mem (p2 - 8) (n := 8) p1

/-- `cmt_pmemalign`, with the memory it writes the back pointer to; `malloc` is what `malloc` returns if it is
called. -/
def cmtPmemalign (pool : MemPool) (mem : U64 → U8) (align size : U64) (malloc : Option Addr) :
    Except PallocFault (MemPool × (U64 → U8) × Option U64) := do
  let (pool, p1) ← cmtPalloc pool (alignTotal align size) malloc
  match p1 with
  | none => .ok (pool, mem, none)
  | some p1 =>
    let p1 := BitVec.ofNat 64 p1
    let p2 := alignedPtr align size p1
    .ok (pool, storeBack mem p2 p1, some p2)

/-- `cmt_pmemfree` -/
def cmtPmemfree (pool : MemPool) (mem : U64 → U8) (p align size : U64) :
    Except PallocFault (MemPool × List Addr) :=
  let p1 : U64 := loadBytes mem (p - 8) 8
  cmtPfree pool p1.toNat (alignTotal align size)

/-! ### What an aligned block is -/

/-- The bytes of the user. -/
def userBytes (p2 size : U64) : Region := ⟨p2.toNat, size.toNat⟩

/-- The eight bytes below the pointer. -/
def backSlot (p2 : U64) : Region := ⟨(p2 - 8).toNat, 8⟩

/-- The pointer `p2` is an aligned one into the block, and is undone by `cmt_pmemfree` whatever the user has
written by then. -/
structure AlignedWithin (align size : U64) (p1 : Addr) (block : Region) (mem : U64 → U8) (p2 : U64) :
    Prop where
  aligned : 0 < align.toNat → align.toNat ∣ p2.toNat
  slot : (backSlot p2).Within block
  user : (userBytes p2 size).Within block
  undone : ∀ (pool : MemPool) (after : U64 → U8),
    (∀ x : U64, x.toNat ∈ block.span → x.toNat ∉ (userBytes p2 size).span → after x = mem x) →
    cmtPmemfree pool after p2 align size = cmtPfree pool p1 (alignTotal align size)

/-- The alignment is not zero, there is room for the back pointer, and the total has not wrapped. -/
def AlignRoom (align size : U64) : Prop :=
  align ≠ 0 ∧ 9 ≤ size.toNat + align.toNat ∧ align.toNat - 1 + 2 * size.toNat < 2 ^ 64

/-! ### Where the pointer lies -/

section Pointer

variable {align size x p1 : U64} {k len : ℕ}

theorem toNat_sub_one (hk : align.toNat = 2 ^ k) : (align - 1).toNat = 2 ^ k - 1 := by
  have hpos : 1 ≤ align.toNat := hk ▸ Nat.one_le_two_pow
  rw [← hk]
  bv_omega

theorem alignedPtr_toNat (hk : align.toNat = 2 ^ k) :
    (alignedPtr align size p1).toNat =
      (p1 + alignOffset align size).toNat - (p1 + alignOffset align size).toNat % align.toNat := by
  rw [hk]
  exact Lib.toNat_and_not (toNat_sub_one hk)

theorem dvd_alignedPtr (size p1 : U64) (hk : align.toNat = 2 ^ k) :
    align.toNat ∣ (alignedPtr align size p1).toNat := by
  rw [alignedPtr_toNat hk]
  exact Nat.dvd_sub_mod _

theorem alignedPtr_zero : alignedPtr 0 size p1 = 0 := by
  unfold alignedPtr
  have hmask : ~~~((0 : U64) - 1) = 0#64 := by decide
  rw [hmask]
  exact BitVec.and_zero

/-- Nothing wraps: the pointer lies between the first place behind `size` bytes and the last. -/
theorem alignedPtr_between (size p1 : U64) (hk : align.toNat = 2 ^ k)
    (hfit : p1.toNat + (align.toNat - 1 + size.toNat) < 2 ^ 64) :
    p1.toNat + size.toNat ≤ (alignedPtr align size p1).toNat ∧
      (alignedPtr align size p1).toNat ≤ p1.toNat + (align.toNat - 1 + size.toNat) := by
  have hpos : 0 < align.toNat := hk ▸ Nat.two_pow_pos k
  have hsum : (p1 + alignOffset align size).toNat = p1.toNat + (align.toNat - 1 + size.toNat) := by
    unfold alignOffset
    bv_omega
  have hmod := Nat.mod_lt (p1 + alignOffset align size).toNat hpos
  rw [alignedPtr_toNat hk]
  omega

end Pointer

/-! ### When it is within its block -/

section Within

variable {align size : U64} {p1 k len : ℕ}

/-- The total, with what has wrapped. -/
theorem alignTotal_wraps (size : U64) (hne : align ≠ 0) :
    ∃ j, align.toNat - 1 + 2 * size.toNat = (alignTotal align size).toNat + j * 2 ^ 64 ∧ j ≤ 2 := by
  have hpos : align.toNat ≠ 0 := fun h => hne (BitVec.eq_of_toNat_eq h)
  refine ⟨(align.toNat - 1 + 2 * size.toNat) / 2 ^ 64, ?_, ?_⟩
  · have hmod : (alignTotal align size).toNat = (align.toNat - 1 + 2 * size.toNat) % 2 ^ 64 := by
      unfold alignTotal alignOffset
      bv_omega
    rw [hmod]
    exact (Nat.mod_add_div' _ _).symm
  · omega

theorem toNat_ofNat_block (hfit : p1 + len ≤ 2 ^ 64) (hpos : 0 < len) :
    (BitVec.ofNat 64 p1).toNat = p1 := by
  rw [BitVec.toNat_ofNat]
  exact Nat.mod_eq_of_lt (by omega)

/-- The word behind the pointer is the back pointer as long as only the user's bytes are written. -/
theorem pmemfree_undoes {mem : U64 → U8} {p2 : U64} (hp1 : p1 < 2 ^ 64)
    (hslot : (backSlot p2).Within ⟨p1, len⟩) (h8 : 8 ≤ p2.toNat) (pool : MemPool) (after : U64 → U8)
    (hafter : ∀ x : U64, x.toNat ∈ (⟨p1, len⟩ : Region).span → x.toNat ∉ (userBytes p2 size).span →
      after x = storeBack mem p2 (BitVec.ofNat 64 p1) x) :
    cmtPmemfree pool after p2 align size = cmtPfree pool p1 (alignTotal align size) := by
  have hload : loadBytes after (p2 - 8) 8 = BitVec.ofNat 64 p1 := by
    calc
      loadBytes after (p2 - 8) 8 = loadBytes (storeBack mem p2 (BitVec.ofNat 64 p1)) (p2 - 8) 8 := by
        apply Lib.loadBytes_congr
        intro i hi
        have hx : (p2 - 8 + BitVec.ofNat 64 i).toNat = p2.toNat - 8 + i := by bv_omega
        have hsub : (p2 - 8).toNat = p2.toNat - 8 := by bv_omega
        apply hafter
        · apply hslot
          rw [Region.mem_span, hx]
          show (p2 - 8).toNat ≤ _ ∧ _ < (p2 - 8).toNat + 8
          omega
        · rw [Region.mem_span, hx]
          show ¬(p2.toNat ≤ _ ∧ _)
          omega
      _ = BitVec.ofNat 64 p1 := Lib.loadBytes_storeBytes _ (by decide)
  show cmtPfree pool (loadBytes after (p2 - 8) 8).toNat (alignTotal align size) = _
  rw [hload, BitVec.toNat_ofNat, Nat.mod_eq_of_lt hp1]

/-- An alignment of eight or more is not passed by a block that is aligned to eight. -/
theorem slot_room {p2 : U64} (hk : align.toNat = 2 ^ k) (h8 : p1 % 8 = 0)
    (hdvd : align.toNat ∣ p2.toNat) (hroom : 9 ≤ size.toNat + align.toNat) (hsize : 1 ≤ size.toNat)
    (hlow : p1 + size.toNat ≤ p2.toNat) : p1 + 8 ≤ p2.toNat := by
  by_cases hlt : k < 3
  · -- the block is a multiple of the small alignment, so the pointer is the least multiple it can be
    have hp1 : align.toNat ∣ p1 := by
      rw [hk]
      exact (Nat.pow_dvd_pow 2 (by omega : k ≤ 3)).trans (Nat.dvd_of_mod_eq_zero h8)
    obtain ⟨q, hq⟩ := (Nat.dvd_sub hdvd hp1)
    obtain rfl | rfl | rfl : k = 0 ∨ k = 1 ∨ k = 2 := by omega
    all_goals
      rw [hk] at hq hroom
      omega
  · have h8dvd : 8 ∣ p2.toNat :=
      ((Nat.pow_dvd_pow 2 (by omega : 3 ≤ k)).trans (hk ▸ dvd_rfl)).trans hdvd
    omega

theorem alignedWithin_of_room {mem : U64 → U8} (hk : align.toNat = 2 ^ k) (hsize : 1 ≤ size.toNat)
    (h8 : p1 % 8 = 0) (hlen : (alignTotal align size).toNat ≤ len) (hfit : p1 + len ≤ 2 ^ 64)
    (hroom : AlignRoom align size) :
    AlignedWithin align size p1 ⟨p1, len⟩
      (storeBack mem (alignedPtr align size (BitVec.ofNat 64 p1)) (BitVec.ofNat 64 p1))
      (alignedPtr align size (BitVec.ofNat 64 p1)) := by
  obtain ⟨hne, hnine, hwrap⟩ := hroom
  obtain ⟨j, htotal, -⟩ := alignTotal_wraps size hne
  have hapos : 0 < align.toNat := hk ▸ Nat.two_pow_pos k
  have hp1 := toNat_ofNat_block hfit (by omega)
  have hdvd := dvd_alignedPtr size (BitVec.ofNat 64 p1) hk
  obtain ⟨hlow, hhigh⟩ := alignedPtr_between size (BitVec.ofNat 64 p1) hk (by omega)
  rw [hp1] at hlow hhigh
  generalize alignedPtr align size (BitVec.ofNat 64 p1) = p2 at hdvd hlow hhigh ⊢
  have hroom8 := slot_room hk h8 hdvd hnine hsize hlow
  have hsub : (p2 - 8).toNat = p2.toNat - 8 := by bv_omega
  have hslot : (backSlot p2).Within ⟨p1, len⟩ := by
    apply Region.within_of_le
    · show p1 ≤ (p2 - 8).toNat
      omega
    · show (p2 - 8).toNat + 8 ≤ p1 + len
      omega
  have huser : (userBytes p2 size).Within ⟨p1, len⟩ := by
    apply Region.within_of_le
    · show p1 ≤ p2.toNat
      omega
    · show p2.toNat + size.toNat ≤ p1 + len
      omega
  exact ⟨fun _ => hdvd, hslot, huser, pmemfree_undoes (by omega) hslot (by omega)⟩

theorem room_of_alignedWithin {mem : U64 → U8} (halign : align = 0 ∨ align.toNat = 2 ^ k)
    (hsize : 1 ≤ size.toNat) (hnull : 0 < p1)
    (hlen : (alignTotal align size).toNat ≤ len) (hless : len < (alignTotal align size).toNat + 8)
    (hfit : p1 + len ≤ 2 ^ 64)
    (h : AlignedWithin align size p1 ⟨p1, len⟩ mem (alignedPtr align size (BitVec.ofNat 64 p1))) :
    AlignRoom align size := by
  obtain ⟨huserLow, huserHigh⟩ := (Region.within_iff (show 0 < size.toNat from hsize)).mp h.user
  obtain ⟨hslotLow, hslotHigh⟩ := (Region.within_iff (show 0 < 8 by decide)).mp h.slot
  have hne : align ≠ 0 := by
    rintro rfl
    rw [alignedPtr_zero] at huserLow
    exact absurd huserLow (Nat.not_le.mpr hnull)
  have hk := halign.resolve_left hne
  have hapos : 0 < align.toNat := hk ▸ Nat.two_pow_pos k
  have hdvd := h.aligned hapos
  obtain ⟨j, htotal, hj⟩ := alignTotal_wraps size hne
  change p1 ≤ (alignedPtr align size (BitVec.ofNat 64 p1)).toNat at huserLow
  change (alignedPtr align size (BitVec.ofNat 64 p1)).toNat + size.toNat ≤ p1 + len at huserHigh
  change p1 ≤ (alignedPtr align size (BitVec.ofNat 64 p1) - 8).toNat at hslotLow
  change (alignedPtr align size (BitVec.ofNat 64 p1) - 8).toNat + 8 ≤ p1 + len at hslotHigh
  have hp1 := toNat_ofNat_block hfit (by omega)
  have hbetween := alignedPtr_between size (BitVec.ofNat 64 p1) hk
  rw [hp1] at hbetween
  clear h
  generalize alignedPtr align size (BitVec.ofNat 64 p1) = p2 at *
  have height : p1 + 8 ≤ p2.toNat := by bv_omega
  have hle : align.toNat ≤ p2.toNat := Nat.le_of_dvd (by omega) hdvd
  have hpow : align.toNat ≤ 2 ^ 63 := by
    rw [hk]
    apply Nat.pow_le_pow_right (by decide)
    have hlt : 2 ^ k < 2 ^ 64 := hk ▸ align.isLt
    have := (Nat.pow_lt_pow_iff_right (by decide)).mp hlt
    omega
  -- a total that has wrapped is smaller than what the user asked for
  have hwrap : j = 0 := by
    have := size.isLt
    omega
  subst hwrap
  refine ⟨hne, ?_, by omega⟩
  obtain ⟨-, hhigh⟩ := hbetween (by omega)
  omega

end Within

/-- For the block that `cmt_palloc` returns, of the total that was asked for or of that total rounded up,
`cmt_pmemalign` returns a pointer, and it is an aligned one into the block exactly where there is room. -/
theorem pmemalign_within_iff {pool pool' : MemPool} {align size : U64} {malloc : Option Addr}
    {p1 : ℕ} (mem : U64 → U8) (len : ℕ) (halign : align = 0 ∨ ∃ k, align.toNat = 2 ^ k)
    (hsize : 1 ≤ size.toNat)
    (hret : cmtPalloc pool (alignTotal align size) malloc = .ok (pool', some p1)) (hnull : 0 < p1)
    (h8 : p1 % 8 = 0) (hlen : (alignTotal align size).toNat ≤ len)
    (hless : len < (alignTotal align size).toNat + 8) (hfit : p1 + len ≤ 2 ^ 64) :
    ∃ mem' p2, cmtPmemalign pool mem align size malloc = .ok (pool', mem', some p2) ∧
      (AlignedWithin align size p1 ⟨p1, len⟩ mem' p2 ↔ AlignRoom align size) := by
  refine ⟨storeBack mem (alignedPtr align size (BitVec.ofNat 64 p1)) (BitVec.ofNat 64 p1),
    alignedPtr align size (BitVec.ofNat 64 p1), ?_, ?_⟩
  · unfold cmtPmemalign
    rw [hret]
    rfl
  · constructor
    · obtain hzero | ⟨k, hk⟩ := halign
      · exact room_of_alignedWithin (k := 0) (Or.inl hzero) hsize hnull hlen hless hfit
      · exact room_of_alignedWithin (Or.inr hk) hsize hnull hlen hless hfit
    · intro hroom
      obtain ⟨k, hk⟩ := halign.resolve_left hroom.1
      exact alignedWithin_of_room hk hsize h8 hlen hfit hroom

/-- 300 bytes aligned to 64, in a block of 663 bytes at 4096. -/
theorem pmemalign_within_large :
    ∃ mem p2, cmtPmemalign defaultPool.pool (fun _ => 0) 64 300 (some 4096) =
        .ok (defaultPool.pool, mem, some p2) ∧
      AlignedWithin 64 300 4096 ⟨4096, 663⟩ mem p2 := by
  have halloc : cmtPalloc defaultPool.pool (alignTotal 64 300) (some 4096) =
      .ok (defaultPool.pool, some 4096) := rfl
  obtain ⟨mem, p2, hret, hiff⟩ := pmemalign_within_iff (fun _ => 0) 663 (Or.inr ⟨6, rfl⟩)
    (by decide) halloc (by decide) (by decide) (by decide) (by decide) (by decide)
  exact ⟨mem, p2, hret, hiff.mpr ⟨by decide, by decide, by decide⟩⟩

/-- Four bytes aligned to four: the block of eleven bytes at 8192 gets its back pointer at 8188. And without an
alignment the pointer is `NULL`. -/
theorem pmemalign_no_room :
    (∃ pool mem, cmtPalloc defaultPool.pool (alignTotal 4 4) none = .ok (pool, some 8192) ∧
      cmtPmemalign defaultPool.pool (fun _ => 0) 4 4 none = .ok (pool, mem, some 8196) ∧
      ¬AlignedWithin 4 4 8192 ⟨8192, 11⟩ mem 8196) ∧
    ∃ pool mem, cmtPalloc defaultPool.pool (alignTotal 0 24) none = .ok (pool, some 8192) ∧
      cmtPmemalign defaultPool.pool (fun _ => 0) 0 24 none = .ok (pool, mem, some 0) ∧
      ¬AlignedWithin 0 24 8192 ⟨8192, 47⟩ mem 0 := by
  refine ⟨⟨_, _, rfl, rfl, ?_⟩, _, _, rfl, rfl, ?_⟩
  · intro h
    obtain ⟨hlow, -⟩ := (Region.within_iff (show 0 < 8 by decide)).mp h.slot
    exact absurd hlow (by decide)
  · intro h
    obtain ⟨hlow, -⟩ := (Region.within_iff (show 0 < 24 by decide)).mp h.user
    exact absurd hlow (by decide)

end CmtTcp
