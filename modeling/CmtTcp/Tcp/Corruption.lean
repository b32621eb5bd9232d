import CmtTcp.Tcp.Checksum
import CmtTcp.Tcp.SendSequence
import Mathlib.Algebra.BigOperators.Group.Finset.Basic
import Mathlib.Algebra.BigOperators.Intervals
import Mathlib.Tactic.IntervalCases

/-!
# Changed segments

Which changes on the way the checksum test of `cmt_tcp_process` notices. The sum adds the octets from the
addresses in the IP header to the end of the segment, those in the second place of a word `256` times
(`checksumTotal_eq`). A change of 16 bits in a row, wherever they start, changes it by a power of two times
the difference of the two bit strings, so it goes unnoticed only when it turns 16 zeros into ones or
16 ones into zeros (`check_burst_iff`, `burst_dropped`).
-/

namespace CmtTcp

open Lib
open Finset (range)

/-! ### The sum, octet by octet -/

/-- What an octet counts, for a little endian machine that loads words. -/
def weight (j : ℕ) : ℕ := if j % 2 = 0 then 1 else 256

/-- The octets behind the ones the test covers start here. -/
def Packet.covered (m : Packet) : ℕ := 20 + (BitVec.ofInt 16 m.tcpLen).toNat

theorem weight_add_two (j : ℕ) : weight (j + 2) = weight j := by
  unfold weight
  rw [Nat.add_mod_right]

theorem loadedTotal_eq_sum (buf : Packet) (w n : ℕ) :
    loadedTotal (octetWords (segmentOctets buf w n)) =
      ∑ j ∈ range n, weight j * (buf (w + j)).toNat := by
  induction n using Nat.strong_induction_on generalizing w with
  | _ n ih =>
    match n with
    | 0 => rfl
    | 1 =>
      rw [segmentOctets_succ, Finset.sum_range_one]
      change (htons (buf w ++ (0 : U8))).toNat + 0 = 1 * (buf (w + 0)).toNat
      rw [htons_append, toNat_octets]
      simp
    | n + 2 =>
      -- the first word, and the rest two octets further on
      rw [loadedTotal_segmentOctets, ih n (by omega) (w + 2), Finset.sum_range_succ',
        Finset.sum_range_succ']
      have hrest : ∀ j, weight (j + 1 + 1) * (buf (w + (j + 1 + 1))).toNat =
          weight j * (buf (w + 2 + j)).toNat := by
        intro j
        rw [weight_add_two, show w + (j + 1 + 1) = w + 2 + j by omega]
      simp only [hrest]
      have hload : (load16 buf w).toNat = 256 * (buf (w + 1)).toNat + (buf w).toNat :=
        toNat_octets _ _
      have h0 : weight 0 = 1 := rfl
      have h1 : weight (0 + 1) = 256 := rfl
      have hw0 : buf (w + 0) = buf w := rfl
      have hw1 : buf (w + (0 + 1)) = buf (w + 1) := rfl
      rw [hload, h0, h1, hw0, hw1]
      omega

/-- The halves of the addresses are words of the IP header, in front of the segment. -/
theorem checksumTotal_eq (m : Packet) (len : U16) :
    checksumTotal m.tcph len m.saddr m.daddr =
      (∑ j ∈ range (len.toNat + 8), weight j * (m (12 + j)).toNat) + (htons len).toNat + 1536 := by
  have hlow : ∀ i, ((load32 m i).extractLsb' 0 16 : U16) = load16 m i := by
    intro i
    rw [load32_eq]
    exact BitVec.extractLsb'_append_eq_right
  have hhigh : ∀ i i', i' = i + 2 → ((load32 m i).extractLsb' 16 16 : U16) = load16 m i' := by
    rintro i _ rfl
    rw [load32_eq]
    exact BitVec.extractLsb'_append_eq_left
  have hseg : segmentOctets m.tcph 0 len.toNat = segmentOctets m 20 len.toNat := by
    unfold segmentOctets
    rw [List.range'_eq_map_range, List.range'_eq_map_range, List.map_map, List.map_map]
    refine List.map_congr_left fun j _ => ?_
    change m (20 + (0 + j)) = m (20 + j)
    rw [Nat.zero_add]
  -- the four words of the addresses
  have hword : ∀ w w' n n', w' = w + 2 → n' = n + 2 →
      loadedTotal (octetWords (segmentOctets m w n')) =
        (load16 m w).toNat + loadedTotal (octetWords (segmentOctets m w' n)) := by
    rintro w _ n _ rfl rfl
    exact loadedTotal_segmentOctets m w n
  have h12 := hword 12 14 (len.toNat + 6) (len.toNat + 8) rfl rfl
  have h14 := hword 14 16 (len.toNat + 4) (len.toNat + 6) rfl rfl
  have h16 := hword 16 18 (len.toNat + 2) (len.toNat + 4) rfl rfl
  have h18 := hword 18 20 len.toNat (len.toNat + 2) rfl rfl
  have hproto : (htons 6).toNat = 1536 := by decide
  unfold checksumTotal
  rw [octetWords_pseudoHeader, hseg, hproto, ← loadedTotal_eq_sum, Packet.saddr, Packet.daddr, hlow,
    hlow, hhigh 12 14 rfl, hhigh 16 18 rfl, h12, h14, h16, h18]
  omega

/-! ### A change of 16 bits in a row -/

/-- The 16 bits from bit `r` of octet `i` on, the highest bit of an octet being the first. -/
def Packet.window (m : Packet) (i r : ℕ) : U16 :=
  (m i ++ m (i + 1) ++ m (i + 2) : BitVec 24).extractLsb' (8 - r) 16

/-- The packets differ at most in the 16 bits from bit `r` of octet `i` on. -/
structure Burst (m m' : Packet) (i r : ℕ) : Prop where
  lt : r < 8
  other : ∀ j, j < i ∨ i + 2 < j → m' j = m j
  front : (m' i).toNat / 2 ^ (8 - r) = (m i).toNat / 2 ^ (8 - r)
  back : (m' (i + 2)).toNat % 2 ^ (8 - r) = (m (i + 2)).toNat % 2 ^ (8 - r)

/-- The bits turn from zeros to ones, or from ones to zeros, all of them. -/
def Turned (x y : U16) : Prop := x = 0 ∧ y = 0xffff ∨ x = 0xffff ∧ y = 0

instance (x y : U16) : Decidable (Turned x y) := inferInstanceAs (Decidable (_ ∨ _))

section Change

variable {m m' : Packet} {i r : ℕ}

theorem toNat_window (m : Packet) (i r : ℕ) :
    (m.window i r).toNat =
      (65536 * (m i).toNat + 256 * (m (i + 1)).toNat + (m (i + 2)).toNat) / 2 ^ (8 - r) % 2 ^ 16 := by
  have happend : ∀ {w : ℕ} (x : BitVec w) (y : U8), (x ++ y).toNat = 256 * x.toNat + y.toNat := by
    intro w x y
    rw [BitVec.toNat_append, Nat.shiftLeft_eq, ← Nat.mul_comm, ← Nat.two_pow_add_eq_or_of_lt y.isLt]
  have hval : (m i ++ m (i + 1) ++ m (i + 2) : BitVec 24).toNat =
      65536 * (m i).toNat + 256 * (m (i + 1)).toNat + (m (i + 2)).toNat := by
    rw [happend, happend]
    omega
  unfold Packet.window
  rw [BitVec.extractLsb'_toNat, hval, Nat.shiftRight_eq_div_pow]

/-- The three octets change by the change of the window, at its place. -/
theorem Burst.octets (h : Burst m m' i r) :
    65536 * ((m' i).toNat - (m i).toNat : ℤ) + 256 * ((m' (i + 1)).toNat - (m (i + 1)).toNat) +
      ((m' (i + 2)).toNat - (m (i + 2)).toNat) =
        2 ^ (8 - r) * ((m'.window i r).toNat - (m.window i r).toNat) := by
  obtain ⟨hr, -, hfront, hback⟩ := h
  have ha := (m i).isLt
  have hb := (m (i + 1)).isLt
  have hc := (m (i + 2)).isLt
  have ha' := (m' i).isLt
  have hb' := (m' (i + 1)).isLt
  have hc' := (m' (i + 2)).isLt
  rw [toNat_window, toNat_window]
  interval_cases r <;> norm_num at hfront hback ⊢ <;> omega

/-- The fields in front of the addresses are as they were. -/
theorem Burst.lengths (h : Burst m m' i r) (hi : 12 ≤ i) :
    m'.ihl = m.ihl ∧ m'.tcpLen = m.tcpLen := by
  have hfront : ∀ j, j < 12 → m' j = m j := fun j hj => h.other j (.inl (by omega))
  have hihl : m'.ihl = m.ihl := by
    unfold Packet.ihl
    rw [hfront 0 (by omega)]
  refine ⟨hihl, ?_⟩
  unfold Packet.tcpLen Packet.totLen load16
  rw [hihl, hfront 2 (by omega), hfront (2 + 1) (by omega)]

/-- The sum changes by three octets at most. -/
theorem Burst.sum_sub {o n : ℕ} (h : Burst m m' (12 + o) r)
    (hcov : ∀ j, m' j ≠ m j → j < 12 + n) :
    ((∑ j ∈ range n, weight j * (m' (12 + j)).toNat : ℕ) : ℤ) -
        (∑ j ∈ range n, weight j * (m (12 + j)).toNat : ℕ) =
      weight o * ((m' (12 + o)).toNat - (m (12 + o)).toNat : ℤ) +
        weight (o + 1) * ((m' (12 + o + 1)).toNat - (m (12 + o + 1)).toNat : ℤ) +
        weight o * ((m' (12 + o + 2)).toNat - (m (12 + o + 2)).toNat : ℤ) := by
  let f : ℕ → ℤ := fun j => weight j * ((m' (12 + j)).toNat - (m (12 + j)).toNat : ℤ)
  have hzero : ∀ j, m' (12 + j) = m (12 + j) → f j = 0 := by
    intro j hj
    change (weight j : ℤ) * _ = 0
    rw [hj, sub_self, mul_zero]
  have hsub : ((∑ j ∈ range n, weight j * (m' (12 + j)).toNat : ℕ) : ℤ) -
      (∑ j ∈ range n, weight j * (m (12 + j)).toNat : ℕ) = ∑ j ∈ range n, f j := by
    push_cast
    rw [← Finset.sum_sub_distrib]
    exact Finset.sum_congr rfl fun j _ => (mul_sub _ _ _).symm
  -- octets outside of the sum, and outside of the window, are the same
  have hwindow : ∑ j ∈ range n, f j = ∑ j ∈ Finset.Ico o (o + 3), f j := by
    calc ∑ j ∈ range n, f j
        = ∑ j ∈ range n ∪ Finset.Ico o (o + 3), f j := by
          refine Finset.sum_subset Finset.subset_union_left fun j _ hj => hzero j ?_
          by_contra hne
          exact hj (Finset.mem_range.mpr (by have := hcov (12 + j) hne; omega))
      _ = ∑ j ∈ Finset.Ico o (o + 3), f j := by
          refine (Finset.sum_subset Finset.subset_union_right fun j _ hj => hzero j ?_).symm
          refine h.other (12 + j) ?_
          rw [Finset.mem_Ico] at hj
          omega
  have hthree : ∑ j ∈ Finset.Ico o (o + 3), f j = f o + f (o + 1) + f (o + 2) := by
    rw [Finset.sum_Ico_eq_sum_range, Nat.add_sub_cancel_left, Finset.sum_range_succ,
      Finset.sum_range_succ, Finset.sum_range_one, Nat.add_zero]
  have hlast : f (o + 2) =
      weight o * ((m' (12 + o + 2)).toNat - (m (12 + o + 2)).toNat : ℤ) := by
    rw [← weight_add_two o]
    rfl
  rw [hsub, hwindow, hthree, hlast]
  rfl

/-- The sum notices the change exactly when the window does, counted modulo `65535`. -/
theorem Burst.dvd_iff {o n : ℕ} (h : Burst m m' (12 + o) r)
    (hcov : ∀ j, m' j ≠ m j → j < 12 + n) :
    (65535 : ℤ) ∣ ((∑ j ∈ range n, weight j * (m' (12 + j)).toNat : ℕ) : ℤ) -
        (∑ j ∈ range n, weight j * (m (12 + j)).toNat : ℕ) ↔
      m'.window (12 + o) r = m.window (12 + o) r ∨
        Turned (m.window (12 + o) r) (m'.window (12 + o) r) := by
  have hoct := h.octets
  have hturned : ∀ x y : U16, Turned x y ↔
      x.toNat = 0 ∧ y.toNat = 2 ^ 16 - 1 ∨ x.toNat = 2 ^ 16 - 1 ∧ y.toNat = 0 := by
    intro x y
    unfold Turned
    bv_omega
  rw [h.sum_sub hcov, hturned]
  -- the weights differ by the parity of the place
  rcases Nat.mod_two_eq_zero_or_one o with ho | ho
  · have hw0 : weight o = 1 := if_pos ho
    have hw1 : weight (o + 1) = 256 := if_neg (by omega)
    rw [← OnesComplement.dvd_two_pow_mul_sub_iff (by decide) (8 - r), hw0, hw1, ← hoct]
    omega
  · have hw0 : weight o = 256 := if_neg (by omega)
    have hw1 : weight (o + 1) = 1 := if_pos (by omega)
    rw [← OnesComplement.dvd_two_pow_mul_sub_iff (by decide) (8 + (8 - r)), pow_add, mul_assoc,
      ← hoct, hw0, hw1]
    omega

/-- The test passes exactly when the sum is a multiple of `65535`. -/
theorem check_eq_zero_iff (m : Packet) :
    m.check = 0 ↔ 65535 ∣
      checksumTotal m.tcph (BitVec.ofInt 16 m.tcpLen) m.saddr m.daddr := by
  have hwrap := foldSum_toNat (checksumSum m.tcph (BitVec.ofInt 16 m.tcpLen) m.saddr m.daddr)
  rw [toNat_checksumSum, ← calculateChecksum_fold] at hwrap
  change (~~~m.check).toNat = _ at hwrap
  have hpos : checksumTotal m.tcph (BitVec.ofInt 16 m.tcpLen) m.saddr m.daddr ≠ 0 := by
    rw [checksumTotal_eq]
    omega
  have htop := @OnesComplement.wrap_eq_top 16
    (checksumTotal m.tcph (BitVec.ofInt 16 m.tcpLen) m.saddr m.daddr) (by decide)
  rw [← hwrap] at htop
  have hzero : m.check = 0 ↔ (~~~m.check).toNat = 2 ^ 16 - 1 := by bv_omega
  rw [hzero, htop]
  exact and_iff_right hpos

/-- **Which changes pass the test.** A packet passes the checksum test, and 16 bits in a row of what the test
covers, from the addresses to the end of the segment, are changed. The changed packet passes if and only if
the bits are what they were, or all of them were zeros and are ones, or the other way round. -/
theorem check_burst_iff (h : Burst m m' i r) (hi : 12 ≤ i)
    (hcov : ∀ j, m' j ≠ m j → j < m.covered) (hcheck : m.check = 0) :
    m'.check = 0 ↔ m'.window i r = m.window i r ∨ Turned (m.window i r) (m'.window i r) := by
  obtain ⟨o, rfl⟩ := Nat.exists_eq_add_of_le hi
  have hlen := (h.lengths hi).2
  have hcov' : ∀ j, m' j ≠ m j → j < 12 + ((BitVec.ofInt 16 m.tcpLen).toNat + 8) := by
    intro j hj
    have hlt := hcov j hj
    unfold Packet.covered at hlt
    omega
  rw [check_eq_zero_iff, checksumTotal_eq] at hcheck
  rw [check_eq_zero_iff, checksumTotal_eq, hlen, ← h.dvd_iff hcov']
  omega

end Change

/-- **A changed segment is dropped.** When the packet that was sent passes the checksum test, `cmt_tcp_process`
returns on the changed one without having looked at anything else, unless the change is none, or turns
16 zeros into ones or 16 ones into zeros. -/
theorem burst_dropped {ρ : Type} (P : Parts ρ) (w : World ρ) (a : Arrival ρ) (m m' : Packet) (i r : ℕ)
    (hm : m.Accepted) (h : Burst m m' i r) (hi : 12 ≤ i)
    (hcov : ∀ j, m' j ≠ m j → j < m.covered) :
    (m'.check = 0 ↔ m'.window i r = m.window i r ∨ Turned (m.window i r) (m'.window i r)) ∧
      (m'.window i r ≠ m.window i r → ¬Turned (m.window i r) (m'.window i r) →
        processPacket P w a m' = .ok (w, -1)) := by
  have hiff := check_burst_iff h hi hcov hm.check
  refine ⟨hiff, fun hne hturned => ?_⟩
  have hcheck : (segmentAt m').check ≠ 0 := fun hzero => (hiff.mp hzero).elim hne hturned
  have hihl : ¬20 ≠ (segmentAt m').ihl.toNat * 4 := by
    change ¬20 ≠ m'.ihl.toNat * 4
    rw [(h.lengths hi).1, hm.ihl]
    decide
  unfold processPacket process
  rw [if_neg hihl, if_pos hcheck]

/-- A SYN whose sequence number is changed from `7` to `8`. -/
theorem burst_dropped_syn :
    processPacket inOrderParts halfSent.toWorld (bareSegment false 110)
      (Function.update (synPacket 0x50 0x4b 0x50) 27 8) = .ok (halfSent.toWorld, -1) := by
  have hother : ∀ j, j ≠ 27 → Function.update (synPacket 0x50 0x4b 0x50) 27 8 j =
      synPacket 0x50 0x4b 0x50 j := fun j hj => Function.update_of_ne hj _ _
  refine (burst_dropped inOrderParts _ _ (synPacket 0x50 0x4b 0x50) _ 26 0
    ⟨rfl, by decide +kernel⟩ ⟨by decide, fun j hj => hother j (by omega), ?_, ?_⟩ (by decide)
    fun j hj => ?_).2 (by decide +kernel) (by decide +kernel)
  · rw [hother 26 (by decide)]
  · rw [hother (26 + 2) (by decide)]
  · have hj27 : j = 27 := by
      by_contra hne
      exact hj (hother j hne)
    rw [hj27]
    decide +kernel

end CmtTcp
