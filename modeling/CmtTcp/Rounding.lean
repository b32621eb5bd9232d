import Mathlib.Order.Bounds.Basic
import CmtTcp.MemoryPool
import CmtTcp.RingCopy

/-!
# Rounding to a power of two

`ROUND_2_UP` of `global.h` takes a `size_t` and hands it to `fls`, whose argument is an `int`. Up to `2 ^ 32` it
is the least power of two that is not below its argument; from there on the upper half of the argument is gone
and the result stays at `2 ^ 32` or below (`round2Up_le`).

`cmt_create_pool` passes sizes of any width, so a pool of more than `2 ^ 32` bytes gets an area that is too
small. The count of `cmt_ring_create` has 32 bits, and its test is exact for each of them.
-/

namespace CmtTcp

/-! ### The highest bit -/

section HighestBit

theorem lt_two_pow_fls (y : U32) : y.toNat < 2 ^ fls y := by
  unfold fls
  split
  · next h => simp [h]
  · exact Nat.lt_log2_self

theorem two_pow_le_of_fls {y : U32} {k : ℕ} (h : fls y = k + 1) : 2 ^ k ≤ y.toNat := by
  unfold fls at h
  split at h
  · omega
  · next hy =>
    obtain rfl : Nat.log2 y.toNat = k := by omega
    apply Nat.log2_self_le
    intro hzero
    exact hy (BitVec.eq_of_toNat_eq hzero)

theorem fls_le (y : U32) : fls y ≤ 32 := by
  cases h : fls y with
  | zero => omega
  | succ k =>
    have hlt := (two_pow_le_of_fls h).trans_lt y.isLt
    have := (Nat.pow_lt_pow_iff_right (by decide)).mp hlt
    omega

theorem round2Up_toNat (x : U64) : (round2Up x).toNat = 2 ^ fls ((x - 1).setWidth 32) := by
  have hfls := fls_le ((x - 1).setWidth 32)
  have hlt : 2 ^ fls ((x - 1).setWidth 32) < 2 ^ 64 := Nat.pow_lt_pow_right (by decide) (by omega)
  rw [round2Up, BitVec.toNat_shiftLeft, Nat.shiftLeft_eq]
  simp only [BitVec.toNat_ofNat, Nat.reducePow, Nat.reduceMod, Nat.one_mul]
  exact Nat.mod_eq_of_lt hlt

/-- Nothing is rounded beyond what `fls` sees of it. -/
theorem round2Up_le (x : U64) : (round2Up x).toNat ≤ 2 ^ 32 := by
  rw [round2Up_toNat]
  exact Nat.pow_le_pow_right (by decide) (fls_le _)

end HighestBit

/-! ### The least power of two -/

/-- The powers of two that `x` fits in. -/
def PowersAbove (x : ℕ) : Set ℕ := {p | (∃ k, p = 2 ^ k) ∧ x ≤ p}

section Least

variable {x : U64}

theorem sub_one_setWidth (hpos : 1 ≤ x.toNat) (hle : x.toNat ≤ 2 ^ 32) :
    ((x - 1).setWidth 32).toNat = x.toNat - 1 := by
  have hsub : (x - 1).toNat = x.toNat - 1 := by bv_omega
  rw [BitVec.toNat_setWidth, hsub]
  exact Nat.mod_eq_of_lt (by omega)

theorem round2Up_isLeast (hpos : 1 ≤ x.toNat) (hle : x.toNat ≤ 2 ^ 32) :
    IsLeast (PowersAbove x.toNat) (round2Up x).toNat := by
  have hsub := sub_one_setWidth hpos hle
  rw [round2Up_toNat]
  refine ⟨⟨⟨_, rfl⟩, ?_⟩, ?_⟩
  · have := lt_two_pow_fls ((x - 1).setWidth 32)
    omega
  · rintro p ⟨⟨k, rfl⟩, hk⟩
    apply Nat.pow_le_pow_right (by decide)
    -- a smaller power would not hold what the highest bit of `x - 1` is worth
    cases hfls : fls ((x - 1).setWidth 32) with
    | zero => exact Nat.zero_le k
    | succ j =>
      have hj := two_pow_le_of_fls hfls
      have hjk : 2 ^ j < 2 ^ k := by omega
      exact (Nat.pow_lt_pow_iff_right (by decide)).mp hjk

theorem round2Up_isLeast_iff (hpos : 1 ≤ x.toNat) :
    IsLeast (PowersAbove x.toNat) (round2Up x).toNat ↔ x.toNat ≤ 2 ^ 32 := by
  constructor
  · intro h
    exact h.1.2.trans (round2Up_le x)
  · exact round2Up_isLeast hpos

end Least

/-! ### The area of a pool -/

/-- The pool reserves at least the bytes it was made for. -/
def MemWorld.Reserves (w : MemWorld) (size : U64) : Prop := ∃ o ∈ w.owned, size.toNat ≤ o.len

section Reserve

variable {size : U64}

theorem reserves_created_iff (size : U64) (data : Addr) (chunkNext : Addr → Option Addr)
    (large : Addr → LargeChunk) :
    (createdPool size data chunkNext large).Reserves size ↔ size.toNat ≤ 2 ^ 32 := by
  let asked := if size < cmtDefaultPoolSize then cmtDefaultPoolSize else size
  have hasked : (size.toNat < 4096 ∧ asked.toNat = 4096) ∨ (4096 ≤ size.toNat ∧ asked = size) := by
    by_cases h : size < cmtDefaultPoolSize
    · left
      exact ⟨h, congrArg BitVec.toNat (if_pos h)⟩
    · right
      exact ⟨Nat.le_of_not_lt h, if_neg h⟩
  have howned : (createdPool size data chunkNext large).Reserves size ↔
      size.toNat ≤ (round2Up asked).toNat := by
    simp [MemWorld.Reserves, createdPool, asked]
  rw [howned]
  constructor
  · intro h
    exact h.trans (round2Up_le asked)
  · intro h
    have hle : asked.toNat ≤ (round2Up asked).toNat :=
      (round2Up_isLeast (by grind) (by grind)).1.2
    grind

end Reserve

/-! ### The slots of a ring -/

section Slots

variable {α : Type*} {count : U32}

theorem toNat_setWidth_count (count : U32) : (count.setWidth 64).toNat = count.toNat := by
  rw [BitVec.toNat_setWidth]
  exact Nat.mod_eq_of_lt (by omega)

theorem round2Up_count_iff (hpos : 1 ≤ count.toNat) :
    count.setWidth 64 = round2Up (count.setWidth 64) ↔ ∃ k, count.toNat = 2 ^ k := by
  have hwide := toNat_setWidth_count count
  have hleast := round2Up_isLeast (x := count.setWidth 64) (by omega) (by omega)
  rw [hwide] at hleast
  constructor
  · intro h
    obtain ⟨k, hk⟩ := hleast.1.1
    rw [← h, hwide] at hk
    exact ⟨k, hk⟩
  · intro h
    apply BitVec.eq_of_toNat_eq
    rw [hwide]
    have hself : IsLeast (PowersAbove count.toNat) count.toNat := ⟨⟨h, le_rfl⟩, fun p hp => hp.2⟩
    exact hself.unique hleast

/-- The mask takes every index into the ring. -/
def RingMask (count mask : U32) : Prop := ∀ i : U32, (i &&& mask).toNat = i.toNat % count.toNat

theorem ringMask_of_pow {k : ℕ} (h : count.toNat = 2 ^ k) : RingMask count (count - 1) := by
  have hk : k < 32 := (Nat.pow_lt_pow_iff_right (by decide)).mp (h ▸ count.isLt)
  obtain rfl : count = BitVec.ofNat 32 (2 ^ k) := by
    apply BitVec.eq_of_toNat_eq
    rw [toNat_size hk, h]
  intro i
  rw [toNat_and_mask hk, toNat_size hk]

/-- A ring is made for the count, with an index mask on either side. -/
def RingAccepted (mem : ℕ → α) (count sp sc : U32) : Prop :=
  ∃ r, cmtRingCreate (some mem) count sp sc = .ok r ∧ RingMask count r.prod.mask ∧
    RingMask count r.cons.mask

theorem ringRefused_of (mem : ℕ → α) (sp sc : U32) (hpos : 1 ≤ count.toNat)
    (h : ¬∃ k, count.toNat = 2 ^ k) : cmtRingCreate (some mem) count sp sc = .error .EINVAL := by
  apply if_pos
  intro hround
  exact h ((round2Up_count_iff hpos).mp hround)

theorem ringAccepted_of (mem : ℕ → α) (sp sc : U32) (hpos : 1 ≤ count.toNat)
    (h : ∃ k, count.toNat = 2 ^ k) : RingAccepted mem count sp sc := by
  have hround := (round2Up_count_iff hpos).mpr h
  obtain ⟨k, hk⟩ := h
  exact ⟨_, if_neg (not_not_intro hround), ringMask_of_pow hk, ringMask_of_pow hk⟩

/-- A count is accepted or refused, as it is a power of two or not. -/
theorem ringAccepted_iff (mem : ℕ → α) (sp sc : U32) (hpos : 1 ≤ count.toNat) :
    (RingAccepted mem count sp sc ↔ ∃ k, count.toNat = 2 ^ k) ∧
      (cmtRingCreate (some mem) count sp sc = .error .EINVAL ↔ ¬∃ k, count.toNat = 2 ^ k) := by
  by_cases hpow : ∃ k, count.toNat = 2 ^ k
  · have hacc := ringAccepted_of mem sp sc hpos hpow
    refine ⟨iff_of_true hacc hpow, iff_of_false ?_ (not_not_intro hpow)⟩
    obtain ⟨r, hr, -⟩ := hacc
    rw [hr]
    exact nofun
  · have herr := ringRefused_of mem sp sc hpos hpow
    refine ⟨iff_of_false ?_ hpow, iff_of_true herr hpow⟩
    rintro ⟨r, hr, -⟩
    rw [herr] at hr
    cases hr

end Slots

/-! ### Every size -/

/-- `ROUND_2_UP` is exact up to `2 ^ 32` and for no argument beyond; so `cmt_create_pool` reserves what it is
asked for up to `2 ^ 32` bytes and never beyond; and `cmt_ring_create` takes exactly the powers of two. -/
theorem round2Up_right_iff {α : Type*} (x size : U64) (count sp sc : U32) (mem : ℕ → α) (data : Addr)
    (chunkNext : Addr → Option Addr) (large : Addr → LargeChunk) (hx : 1 ≤ x.toNat)
    (hcount : 1 ≤ count.toNat) :
    (IsLeast (PowersAbove x.toNat) (round2Up x).toNat ↔ x.toNat ≤ 2 ^ 32) ∧
      ((createdPool size data chunkNext large).Reserves size ↔ size.toNat ≤ 2 ^ 32) ∧
      (RingAccepted mem count sp sc ↔ ∃ k, count.toNat = 2 ^ k) ∧
      (cmtRingCreate (some mem) count sp sc = .error .EINVAL ↔ ¬∃ k, count.toNat = 2 ^ k) :=
  ⟨round2Up_isLeast_iff hx, reserves_created_iff size data chunkNext large,
    ringAccepted_iff mem sp sc hcount⟩

/-- Five rounds to the least power of two, a pool of five bytes has them, and a ring of eight slots is
accepted. -/
theorem round2Up_right_small :
    IsLeast (PowersAbove 5) (round2Up 5).toNat ∧
      (createdPool 5 4096 (fun _ => none) fun _ => ⟨0, none⟩).Reserves 5 ∧
      RingAccepted (fun _ => 0) 8 1 1 := by
  obtain ⟨hround, hpool, hring, -⟩ := round2Up_right_iff 5 5 8 1 1 (fun _ => 0) 4096 (fun _ => none)
    (fun _ => ⟨0, none⟩) (by decide) (by decide)
  exact ⟨hround.mpr (by decide), hpool.mpr (by decide), hring.mpr ⟨3, rfl⟩⟩

/-- `2 ^ 32 + 1` is rounded to one, and that is the area of a pool of so many bytes. -/
theorem round2Up_wraps :
    ¬IsLeast (PowersAbove (2 ^ 32 + 1)) (round2Up 0x100000001).toNat ∧
      ¬(createdPool 0x100000001 4096 (fun _ => none) fun _ => ⟨0, none⟩).Reserves 0x100000001 := by
  have hone : (round2Up 0x100000001).toNat = 1 := by decide
  constructor
  · intro h
    rw [hone] at h
    exact absurd h.1.2 (by decide)
  · rintro ⟨o, ho, hle⟩
    obtain rfl : o = ⟨4096, (round2Up 0x100000001).toNat⟩ := List.mem_singleton.mp ho
    rw [hone] at hle
    exact absurd hle (by decide)

end CmtTcp
