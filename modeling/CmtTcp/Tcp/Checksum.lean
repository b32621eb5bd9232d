import CmtTcp.Lib.OnesComplement
import CmtTcp.Tcp.Frame

/-!
# The checksum of a segment

`cmt_tcp_calculate_checksum` adds up the words of a segment as a little endian machine loads them, and
folds the sum at the end. The Internet checksum is the complement of a ones' complement sum of the words
in network order, over the pseudo header and the segment.

* `toNat_checksumSum`: the 32-bit sum is exact, whatever the length;
* `calculateChecksum_eq`: the result is the Internet checksum, as it lies in memory;
* `checksum_stored`: with the result in its `check` field, a segment passes the test of `cmt_tcp_process`.
-/

namespace CmtTcp

open Lib

/-! ### The Internet checksum -/

/-- The 16-bit words of octets in network order; an odd last octet is padded with a zero octet. -/
def octetWords : List U8 → List U16
  | [] => []
  | [a] => [a ++ (0 : U8)]
  | a :: b :: rest => (a ++ b) :: octetWords rest

/-- The Internet checksum of octets. -/
def internetChecksum (octets : List U8) : U16 := ~~~OnesComplement.sum (octetWords octets)

/-- The octets of a 32-bit word in memory, on a little endian machine. -/
def wordOctets (x : U32) : List U8 :=
  [x.extractLsb' 0 8, x.extractLsb' 8 8, x.extractLsb' 16 8, x.extractLsb' 24 8]

/-- The pseudo header of a TCP segment: the addresses, which are in network order already, the protocol and
the length. -/
def pseudoHeader (saddr daddr : U32) (len : U16) : List U8 :=
  wordOctets saddr ++ wordOctets daddr ++ [0, 6, len.extractLsb' 8 8, len.extractLsb' 0 8]

/-- The `len` octets of `buf` from `w` on. -/
def segmentOctets (buf : Packet) (w len : ℕ) : List U8 := (List.range' w len).map buf

/-! ### The sum of `cmt_tcp_calculate_checksum` -/

/-- `sum` in `cmt_tcp_calculate_checksum`, before its carries are added in. -/
def checksumSum (buf : Packet) (len : U16) (saddr daddr : U32) : U32 :=
  sumWords buf len.toNat 0 0 + ((saddr &&& (0xffff : U32)) + (saddr >>> 16)) +
    ((daddr &&& (0xffff : U32)) + (daddr >>> 16)) + (htons len).setWidth 32 + (htons 6).setWidth 32

theorem calculateChecksum_fold (buf : Packet) (len : U16) (saddr daddr : U32) :
    cmtTcpCalculateChecksum buf len saddr daddr = foldSum (checksumSum buf len saddr daddr) := rfl

/-- What words in network order add up to for a little endian machine. -/
def loadedTotal (ws : List U16) : ℕ := (ws.map fun x => (htons x).toNat).sum

section Octets

variable {a b : U8} {x : U32}

@[simp] theorem loadedTotal_cons (y : U16) (ws : List U16) :
    loadedTotal (y :: ws) = (htons y).toNat + loadedTotal ws := rfl

/-- The octets of a word change places. -/
theorem htons_append (a b : U8) : htons (a ++ b) = b ++ a := by
  unfold htons
  rw [BitVec.extractLsb'_append_eq_right, BitVec.extractLsb'_append_eq_left]

/-- The value of two octets. -/
theorem toNat_octets (a b : U8) : (a ++ b : U16).toNat = 256 * a.toNat + b.toNat := by
  rw [BitVec.toNat_append, Nat.shiftLeft_eq, ← Nat.mul_comm, ← Nat.two_pow_add_eq_or_of_lt b.isLt]

theorem octets_append_self (y : U16) : y.extractLsb' 8 8 ++ y.extractLsb' 0 8 = y := by
  rw [BitVec.extractLsb'_append_extractLsb'_eq_extractLsb' (by rfl)]
  exact BitVec.extractLsb'_eq_self

/-- A change of byte order multiplies by `256`, with the carries around. -/
theorem toNat_htons (y : U16) :
    (htons y).toNat = OnesComplement.wrap 16 (256 * y.toNat) := by
  have hy : y.toNat = 256 * (y.extractLsb' 8 8).toNat + (y.extractLsb' 0 8).toNat := by
    rw [← toNat_octets, octets_append_self]
  have hsw : (htons y).toNat = 256 * (y.extractLsb' 0 8).toNat + (y.extractLsb' 8 8).toNat :=
    toNat_octets _ _
  have hhi := (y.extractLsb' 8 8).isLt
  have hlo := (y.extractLsb' 0 8).isLt
  rw [hsw, hy]
  unfold OnesComplement.wrap
  split <;> omega

end Octets

section Sum

variable {buf : Packet} {len : U16} {saddr daddr sum : U32}

theorem segmentOctets_succ (buf : Packet) (w n : ℕ) :
    segmentOctets buf w (n + 1) = buf w :: segmentOctets buf (w + 1) n := by
  unfold segmentOctets
  rw [List.range'_succ, List.map_cons]

/-- The byte behind an odd end is read and masked away. -/
theorem load16_masked (buf : Packet) (w : ℕ) :
    load16 buf w &&& htons 0xff00 = htons (buf w ++ (0 : U8)) := by
  have hmask : htons 0xff00 = (0 : U8) ++ (0xff : U8) := by decide
  rw [htons_append, hmask]
  unfold load16
  rw [BitVec.and_append]
  exact congrArg₂ _ BitVec.and_zero BitVec.and_allOnes

/-- The word in front adds what a little endian machine loads there. -/
theorem loadedTotal_segmentOctets (buf : Packet) (w n : ℕ) :
    loadedTotal (octetWords (segmentOctets buf w (n + 2))) =
      (load16 buf w).toNat + loadedTotal (octetWords (segmentOctets buf (w + 2) n)) := by
  rw [segmentOctets_succ, segmentOctets_succ, octetWords, loadedTotal_cons, htons_append]
  rfl

/-- Whatever the length, the words of a segment leave room in the 32 bits. -/
theorem loadedTotal_segment_le (buf : Packet) (w n : ℕ) :
    loadedTotal (octetWords (segmentOctets buf w n)) ≤ 65535 * ((n + 1) / 2) := by
  have hword : ∀ y : U16, (htons y).toNat ≤ 65535 := fun y => Nat.le_of_lt_succ (htons y).isLt
  induction n using Nat.strong_induction_on generalizing w with
  | _ n ih =>
    match n with
    | 0 => exact Nat.zero_le _
    | 1 => exact hword _
    | n + 2 =>
      have h := ih n (by omega) (w + 2)
      have hlt := (load16 buf w).isLt
      rw [loadedTotal_segmentOctets]
      omega

/-- The loop adds up the words of the segment. -/
theorem toNat_sumWords (buf : Packet) (n w : ℕ) (sum : U32)
    (h : sum.toNat + loadedTotal (octetWords (segmentOctets buf w n)) < 2 ^ 32) :
    (sumWords buf n w sum).toNat =
      sum.toNat + loadedTotal (octetWords (segmentOctets buf w n)) := by
  have hadd : ∀ (x : U32) (y : U16), x.toNat + y.toNat < 2 ^ 32 →
      (x + y.setWidth 32).toNat = x.toNat + y.toNat := by
    intro x y hlt
    rw [BitVec.toNat_add, BitVec.toNat_setWidth_of_le (by decide), Nat.mod_eq_of_lt hlt]
  -- two bytes go with each round
  induction n using Nat.strong_induction_on generalizing w sum with
  | _ n ih =>
    match n with
    | 0 => rfl
    | 1 =>
      unfold sumWords
      rw [load16_masked]
      exact hadd sum _ h
    | n + 2 =>
      rw [loadedTotal_segmentOctets] at h ⊢
      have hword := hadd sum (load16 buf w) (by omega)
      unfold sumWords
      rw [ih n (by omega) (w + 2) _ (by omega), hword, Nat.add_assoc]

/-- What `cmt_tcp_calculate_checksum` is to add up. -/
def checksumTotal (buf : Packet) (len : U16) (saddr daddr : U32) : ℕ :=
  loadedTotal (octetWords (pseudoHeader saddr daddr len ++ segmentOctets buf 0 len.toNat))

/-- An address counts as its two halves. -/
theorem halves_toNat (x : U32) :
    ((x &&& (0xffff : U32)) + (x >>> 16)).toNat =
      (x.extractLsb' 0 16).toNat + (x.extractLsb' 16 16).toNat := by
  have hx : x = x.extractLsb' 16 16 ++ x.extractLsb' 0 16 := by
    rw [BitVec.extractLsb'_append_extractLsb'_eq_extractLsb' (by rfl)]
    exact BitVec.extractLsb'_eq_self.symm
  have hlo := (x.extractLsb' 0 16).isLt
  have hhi := (x.extractLsb' 16 16).isLt
  have hand : x &&& (0xffff : U32) = (x.extractLsb' 0 16).setWidth 32 := by
    conv_lhs => rw [hx]
    exact append_and_low _ _
  have hshift : x >>> 16 = (x.extractLsb' 16 16).setWidth 32 := by
    conv_lhs => rw [hx]
    exact append_shift_high _ _
  rw [hand, hshift, BitVec.toNat_add, BitVec.toNat_setWidth_of_le (by decide),
    BitVec.toNat_setWidth_of_le (by decide), Nat.mod_eq_of_lt (by omega)]

theorem octetWords_pseudoHeader (saddr daddr : U32) (len : U16) (octets : List U8) :
    loadedTotal (octetWords (pseudoHeader saddr daddr len ++ octets)) =
      (saddr.extractLsb' 0 16).toNat + (saddr.extractLsb' 16 16).toNat +
        ((daddr.extractLsb' 0 16).toNat + (daddr.extractLsb' 16 16).toNat) +
        (htons 6).toNat + (htons len).toNat + loadedTotal (octetWords octets) := by
  have hlow : ∀ x : U32, (x.extractLsb' 8 8 ++ x.extractLsb' 0 8 : U16) = x.extractLsb' 0 16 :=
    fun x => BitVec.extractLsb'_append_extractLsb'_eq_extractLsb' (by rfl)
  have hhigh : ∀ x : U32, (x.extractLsb' 24 8 ++ x.extractLsb' 16 8 : U16) = x.extractLsb' 16 16 :=
    fun x => BitVec.extractLsb'_append_extractLsb'_eq_extractLsb' (by rfl)
  have hproto : (0 : U8) ++ (6 : U8) = (6 : U16) := by decide
  unfold pseudoHeader wordOctets
  simp only [List.cons_append, List.nil_append, octetWords, loadedTotal_cons]
  rw [hproto, octets_append_self]
  simp only [htons_append, hlow, hhigh]
  omega

/-- **The sum is exact.** The 32-bit accumulator ends with the sum of all words, so no addition on the way
overflowed. -/
theorem toNat_checksumSum (buf : Packet) (len : U16) (saddr daddr : U32) :
    (checksumSum buf len saddr daddr).toNat = checksumTotal buf len saddr daddr := by
  have hseg := loadedTotal_segment_le buf 0 len.toNat
  have hlen := len.isLt
  have hhalf : ∀ (x : U32) (i : ℕ), (x.extractLsb' i 16).toNat < 65536 := fun x i =>
    (x.extractLsb' i 16).isLt
  have hs₀ := hhalf saddr 0
  have hs₁ := hhalf saddr 16
  have hd₀ := hhalf daddr 0
  have hd₁ := hhalf daddr 16
  have hl := (htons len).isLt
  have hp : (htons 6).toNat = 1536 := by decide
  have hloop := toNat_sumWords buf len.toNat 0 0
    (by rw [show (0 : U32).toNat = 0 from rfl]; omega)
  rw [show (0 : U32).toNat = 0 from rfl, Nat.zero_add] at hloop
  unfold checksumSum checksumTotal
  rw [octetWords_pseudoHeader, BitVec.toNat_add, BitVec.toNat_add, BitVec.toNat_add,
    BitVec.toNat_add, hloop, halves_toNat, halves_toNat, BitVec.toNat_setWidth_of_le (by decide),
    BitVec.toNat_setWidth_of_le (by decide)]
  omega

/-! ### The two folds -/

/-- The first fold of `cmt_tcp_calculate_checksum`. -/
def foldOnce (sum : U32) : U32 := (sum >>> 16) + (sum &&& 0xffff)

theorem toNat_foldOnce (sum : U32) : (foldOnce sum).toNat = OnesComplement.fold 16 sum.toNat := by
  have hlow : (sum &&& 0xffff).toNat = sum.toNat % 2 ^ 16 := by
    rw [BitVec.toNat_and]
    exact Nat.and_two_pow_sub_one_eq_mod _ 16
  have hsum := sum.isLt
  unfold foldOnce OnesComplement.fold
  rw [BitVec.toNat_add, BitVec.toNat_ushiftRight, Nat.shiftRight_eq_div_pow, hlow]
  omega

/-- After the first fold the carry of the second one fits in the lower half: none is lost when the upper
half is cut off. -/
theorem foldOnce_carry (sum : U32) :
    ((foldOnce sum).setWidth 16).toNat + (foldOnce sum >>> 16).toNat < 2 ^ 16 := by
  have h := (@OnesComplement.fold_lt 16 sum.toNat sum.isLt).2
  rw [BitVec.toNat_setWidth, BitVec.toNat_ushiftRight, Nat.shiftRight_eq_div_pow, toNat_foldOnce]
  omega

/-- The folds leave the word that the carries make of the sum, and it is turned over. -/
theorem foldSum_toNat (sum : U32) :
    (~~~foldSum sum).toNat = OnesComplement.wrap 16 sum.toNat := by
  have hcarry := foldOnce_carry sum
  rw [BitVec.toNat_setWidth, BitVec.toNat_ushiftRight, Nat.shiftRight_eq_div_pow] at hcarry
  have hdef : foldSum sum = (~~~(foldOnce sum + (foldOnce sum >>> 16))).setWidth 16 := rfl
  have hnot : ~~~foldSum sum = (foldOnce sum + (foldOnce sum >>> 16)).setWidth 16 := by
    rw [hdef, BitVec.setWidth_not (by decide), BitVec.not_not]
  rw [hnot, ← OnesComplement.fold_fold (show sum.toNat < 2 ^ (2 * 16) from sum.isLt),
    ← toNat_foldOnce, BitVec.toNat_setWidth, BitVec.toNat_add, BitVec.toNat_ushiftRight,
    Nat.shiftRight_eq_div_pow]
  unfold OnesComplement.fold
  omega

/-! ### The result -/

/-- A little endian machine that adds up words in network order gets the sum with its octets swapped. -/
theorem htons_sum (ws : List U16) :
    (htons (OnesComplement.sum ws)).toNat = OnesComplement.wrap 16 (loadedTotal ws) := by
  have h := congrArg BitVec.toNat
    (OnesComplement.sum_map (show 0 < 16 by decide) (f := htons) toNat_htons ws)
  rw [← h, OnesComplement.toNat_sum (by decide), List.map_map]
  rfl

/-- A change of byte order commutes with the complement. -/
theorem htons_not (y : U16) : htons (~~~y) = ~~~htons y := by
  have hsplit : htons (~~~(y.extractLsb' 8 8 ++ y.extractLsb' 0 8)) =
      ~~~htons (y.extractLsb' 8 8 ++ y.extractLsb' 0 8) := by
    rw [BitVec.not_append, htons_append, htons_append, BitVec.not_append]
  rwa [octets_append_self] at hsplit

/-- **The result is the Internet checksum** of pseudo header and segment, in network order as it lies in
memory. -/
theorem calculateChecksum_eq (buf : Packet) (len : U16) (saddr daddr : U32) :
    cmtTcpCalculateChecksum buf len saddr daddr =
      htons (internetChecksum (pseudoHeader saddr daddr len ++ segmentOctets buf 0 len.toNat)) := by
  have h : ~~~cmtTcpCalculateChecksum buf len saddr daddr = htons (OnesComplement.sum
      (octetWords (pseudoHeader saddr daddr len ++ segmentOctets buf 0 len.toNat))) := by
    refine BitVec.eq_of_toNat_eq ?_
    rw [calculateChecksum_fold, foldSum_toNat, toNat_checksumSum, htons_sum]
    rfl
  unfold internetChecksum
  rw [htons_not, ← h, BitVec.not_not]

/-! ### Storing it -/

/-- Store two bytes on a little endian machine. -/
def store16 (m : Packet) (i : ℕ) (v : U16) : Packet :=
  Function.update (Function.update m i (v.extractLsb' 0 8)) (i + 1) (v.extractLsb' 8 8)

theorem store16_low (m : Packet) (i : ℕ) (v : U16) : store16 m i v i = v.extractLsb' 0 8 := by
  unfold store16
  rw [Function.update_of_ne (by omega), Function.update_self]

theorem store16_high (m : Packet) (i : ℕ) (v : U16) : store16 m i v (i + 1) = v.extractLsb' 8 8 :=
  Function.update_self _ _ _

theorem store16_of_ne {m : Packet} {i j : ℕ} {v : U16} (h₀ : j ≠ i) (h₁ : j ≠ i + 1) :
    store16 m i v j = m j := by
  unfold store16
  rw [Function.update_of_ne h₁, Function.update_of_ne h₀]

theorem segmentOctets_store16_outside {m : Packet} {i w n : ℕ} {v : U16}
    (h : w + n ≤ i ∨ i + 1 < w) : segmentOctets (store16 m i v) w n = segmentOctets m w n := by
  refine List.map_congr_left fun j hj => ?_
  obtain ⟨hlo, hhi⟩ := List.mem_range'_1.mp hj
  exact store16_of_ne (by omega) (by omega)

/-- A word that was zero adds what is stored there. -/
theorem loadedTotal_store16 {m : Packet} {k w n : ℕ} {v : U16} (hk : 2 * k + 1 < n)
    (hzero : load16 m (w + 2 * k) = 0) :
    loadedTotal (octetWords (segmentOctets (store16 m (w + 2 * k) v) w n)) =
      loadedTotal (octetWords (segmentOctets m w n)) + v.toNat := by
  -- the induction is on the words in front of the one that is stored
  induction k generalizing w n with
  | zero =>
    obtain ⟨n, rfl⟩ : ∃ n', n = n' + 2 := ⟨n - 2, by omega⟩
    have hload : load16 (store16 m w v) w = v := by
      unfold load16
      rw [store16_low, store16_high, octets_append_self]
    rw [Nat.mul_zero, Nat.add_zero] at hzero ⊢
    rw [loadedTotal_segmentOctets, loadedTotal_segmentOctets, hload, hzero,
      segmentOctets_store16_outside (.inr (by omega))]
    have h0 : (0 : U16).toNat = 0 := rfl
    omega
  | succ k ih =>
    obtain ⟨n, rfl⟩ : ∃ n', n = n' + 2 := ⟨n - 2, by omega⟩
    have hload : load16 (store16 m (w + 2 * (k + 1)) v) w = load16 m w := by
      unfold load16
      rw [store16_of_ne (by omega) (by omega), store16_of_ne (by omega) (by omega)]
    have hpos : w + 2 * (k + 1) = w + 2 + 2 * k := by omega
    have hrest := @ih (w + 2) n (by omega) (by rwa [← hpos])
    rw [loadedTotal_segmentOctets, loadedTotal_segmentOctets, hload, hpos, hrest]
    omega

/-- **Self-verification.** A segment with its own checksum in the `check` field, which was zero, has the
checksum `0`. -/
theorem checksum_stored {buf : Packet} {len : U16} (hlen : 20 ≤ len.toNat)
    (hcheck : load16 buf 16 = 0) (saddr daddr : U32) :
    cmtTcpCalculateChecksum (store16 buf 16 (cmtTcpCalculateChecksum buf len saddr daddr)) len
      saddr daddr = 0 := by
  generalize hsum : cmtTcpCalculateChecksum buf len saddr daddr = check
  have htotal : checksumTotal (store16 buf 16 check) len saddr daddr =
      checksumTotal buf len saddr daddr + check.toNat := by
    unfold checksumTotal
    rw [octetWords_pseudoHeader, octetWords_pseudoHeader]
    have h := @loadedTotal_store16 buf 8 0 len.toNat check (by omega) hcheck
    rw [show 0 + 2 * 8 = 16 from rfl] at h
    omega
  -- the check is the complement of the word that the carries make of the old total
  have hval : check.toNat =
      2 ^ 16 - 1 - OnesComplement.wrap 16 (checksumTotal buf len saddr daddr) := by
    have hnot := foldSum_toNat (checksumSum buf len saddr daddr)
    rw [← calculateChecksum_fold, hsum, toNat_checksumSum, BitVec.toNat_not] at hnot
    have hlt := check.isLt
    omega
  have hnew := foldSum_toNat (checksumSum (store16 buf 16 check) len saddr daddr)
  rw [toNat_checksumSum, htotal, hval, OnesComplement.wrap_add_compl (by decide),
    ← calculateChecksum_fold, BitVec.toNat_not] at hnew
  refine BitVec.eq_of_toNat_eq ?_
  have h0 : (0 : U16).toNat = 0 := rfl
  have hlt := (cmtTcpCalculateChecksum (store16 buf 16 check) len saddr daddr).isLt
  omega

theorem Packet.tcph_store16 (m : Packet) (v : U16) :
    (store16 m 36 v).tcph = store16 m.tcph 16 v := by
  funext i
  have hshift : (store16 m 36 v).tcph i = store16 m 36 v (20 + i) := rfl
  rw [hshift]
  by_cases h₀ : i = 16
  · rw [h₀, store16_low, store16_low]
  by_cases h₁ : i = 17
  · rw [h₁, store16_high m 36, store16_high m.tcph 16]
  · rw [store16_of_ne (by omega) (by omega), store16_of_ne h₀ h₁]
    rfl

/-- The same for a packet: with its checksum stored it passes the test of `cmt_tcp_process`. -/
theorem Packet.check_stored {m : Packet} (hihl : m.ihl.toNat = 5) (hlen : 40 ≤ m.totLen.toNat)
    (hcheck : load16 m.tcph 16 = 0) : (store16 m 36 m.check).check = 0 := by
  have hne : ∀ i, i < 36 → store16 m 36 m.check i = m i :=
    fun i hi => store16_of_ne (by omega) (by omega)
  have hload : ∀ i, i + 3 < 36 → load32 (store16 m 36 m.check) i = load32 m i := by
    intro i hi
    unfold load32
    rw [hne i (by omega), hne (i + 1) (by omega), hne (i + 2) (by omega), hne (i + 3) (by omega)]
  have hfields : (store16 m 36 m.check).tcpLen = m.tcpLen := by
    unfold Packet.tcpLen Packet.totLen Packet.ihl load16
    rw [hne 0 (by omega), hne 2 (by omega), hne (2 + 1) (by omega)]
  have htcpLen : 20 ≤ (BitVec.ofInt 16 m.tcpLen).toNat := by
    have htot := m.totLen.isLt
    unfold Packet.tcpLen
    rw [hihl, BitVec.toNat_ofInt]
    omega
  have hstored := checksum_stored htcpLen hcheck m.saddr m.daddr
  have hsaddr : (store16 m 36 m.check).saddr = m.saddr := hload 12 (by decide)
  have hdaddr : (store16 m 36 m.check).daddr = m.daddr := hload 16 (by decide)
  calc (store16 m 36 m.check).check
      = cmtTcpCalculateChecksum (store16 m 36 m.check).tcph
          (BitVec.ofInt 16 (store16 m 36 m.check).tcpLen) (store16 m 36 m.check).saddr
          (store16 m 36 m.check).daddr := rfl
    _ = cmtTcpCalculateChecksum (store16 m.tcph 16 m.check) (BitVec.ofInt 16 m.tcpLen) m.saddr
          m.daddr := by rw [hfields, hsaddr, hdaddr, tcph_store16]
    _ = 0 := hstored

/-- **The checksum of a segment.** For every segment of up to 65535 bytes and all addresses: the 32-bit sum
is the sum of all words of pseudo header and padded segment; the second fold loses no carry; the result is
their Internet checksum, as it lies in memory; and with the result stored in a `check` field that was zero,
a segment of a header at least has the checksum `0`. -/
theorem calculateChecksum_internet (buf : Packet) (len : U16) (saddr daddr : U32) :
    (checksumSum buf len saddr daddr).toNat = checksumTotal buf len saddr daddr ∧
      ((foldOnce (checksumSum buf len saddr daddr)).setWidth 16).toNat +
        (foldOnce (checksumSum buf len saddr daddr) >>> 16).toNat < 2 ^ 16 ∧
      cmtTcpCalculateChecksum buf len saddr daddr =
        htons (internetChecksum (pseudoHeader saddr daddr len ++ segmentOctets buf 0 len.toNat)) ∧
      (20 ≤ len.toNat → load16 buf 16 = 0 →
        cmtTcpCalculateChecksum (store16 buf 16 (cmtTcpCalculateChecksum buf len saddr daddr)) len
          saddr daddr = 0) :=
  ⟨toNat_checksumSum buf len saddr daddr, foldOnce_carry _,
    calculateChecksum_eq buf len saddr daddr,
    fun hlen hcheck => checksum_stored hlen hcheck saddr daddr⟩

/-- The header of a SYN, with the checksum that its sender puts in. -/
theorem calculateChecksum_plain_syn :
    cmtTcpCalculateChecksum (store16 (synPacket 0x50 0 0).tcph 16
      (cmtTcpCalculateChecksum (synPacket 0x50 0 0).tcph 20 0x0200000a 0x0100000a)) 20 0x0200000a
      0x0100000a = 0 :=
  (calculateChecksum_internet (synPacket 0x50 0 0).tcph 20 0x0200000a 0x0100000a).2.2.2
    (by decide) (by decide +kernel)

end Sum

end CmtTcp
