import CmtTcp.Tcp.Process

/-!
# Received frames

The bytes of a packet in memory, from its IP header on, and what `cmt_tcp_process` reads of them before it
looks for a stream: the header fields, the checksum, and where options and payload lie.

* `cmtTcpCalculateChecksum`, `segmentAt`: the checksum and the segment of a packet;
* `checksum_adjustable`: with another source address any packet at all passes the checksum;
* `segment_inside_iff`: with a given data offset and total length, header, options and payload of all
  packets that pass it lie inside the packet exactly when these two agree; where they do not, no contents
  keep a packet from passing.
-/

namespace CmtTcp

/-! ### The bytes of a packet -/

/-- Memory, from the first byte of the IP header on. -/
abbrev Packet := ℕ → U8

/-- Load two bytes on a little endian machine. -/
def load16 (m : Packet) (i : ℕ) : U16 := m (i + 1) ++ m i

/-- Load four bytes on a little endian machine. -/
def load32 (m : Packet) (i : ℕ) : U32 := m (i + 3) ++ m (i + 2) ++ m (i + 1) ++ m i

namespace Packet

/-- `iph->ihl` -/
def ihl (m : Packet) : BitVec 4 := (m 0).extractLsb' 0 4

/-- `ntohs(iph->tot_len)` -/
def totLen (m : Packet) : U16 := htons (load16 m 2)

/-- `iph->saddr` -/
def saddr (m : Packet) : U32 := load32 m 12

/-- `iph->daddr` -/
def daddr (m : Packet) : U32 := load32 m 16

/-- The TCP header: `cmt_tcp_process` takes the IP header to be `sizeof(struct iphdr)` long. -/
def tcph (m : Packet) : Packet := fun i => m (20 + i)

/-- `tcph->doff` -/
def doff (m : Packet) : BitVec 4 := (m.tcph 12).extractLsb' 4 4

/-- `tcp_len` -/
def tcpLen (m : Packet) : ℤ := (m.totLen.toNat : ℤ) - m.ihl.toNat * 4

end Packet

/-! ### The checksum -/

/-- The loop of `cmt_tcp_calculate_checksum`, and the byte it leaves. -/
def sumWords (buf : Packet) : (nleft w : ℕ) → (sum : U32) → U32
  | 0, _, sum => sum
  -- of an odd last byte the word is masked, and the byte behind it is read too
  | 1, w, sum => sum + (load16 buf w &&& htons 0xff00).setWidth 32
  | nleft + 2, w, sum => sumWords buf nleft (w + 2) (sum + (load16 buf w).setWidth 32)

/-- The end of `cmt_tcp_calculate_checksum`: the carries are added in, and the bits turned over. -/
def foldSum (sum : U32) : U16 :=
  let sum := (sum >>> 16) + (sum &&& 0xffff)
  let sum := sum + (sum >>> 16)
  (~~~sum).setWidth 16

/-- `cmt_tcp_calculate_checksum` -/
def cmtTcpCalculateChecksum (buf : Packet) (len : U16) (saddr daddr : U32) : U16 :=
  let sum := sumWords buf len.toNat 0 0
  let sum : U32 := sum + ((saddr &&& (0xffff : U32)) + (saddr >>> 16))
  let sum : U32 := sum + ((daddr &&& (0xffff : U32)) + (daddr >>> 16))
  let sum := sum + (htons len).setWidth 32
  -- `PROTO_TCP`
  let sum := sum + (htons 6).setWidth 32
  foldSum sum

/-- `check` in `cmt_tcp_process` -/
def Packet.check (m : Packet) : U16 :=
  cmtTcpCalculateChecksum m.tcph (BitVec.ofInt 16 m.tcpLen) m.saddr m.daddr

/-! ### The segment -/

/-- The segment that `cmt_tcp_process` reads from a packet. -/
def segmentAt (m : Packet) : Segment where
  ihl := m.ihl
  totLen := m.totLen
  saddr := htonl m.saddr
  daddr := htonl m.daddr
  source := htons (load16 m.tcph 0)
  dest := htons (load16 m.tcph 2)
  seq := htonl (load32 m.tcph 4)
  ackSeq := htonl (load32 m.tcph 8)
  doff := m.doff
  fin := (m.tcph 13).getLsbD 0
  syn := (m.tcph 13).getLsbD 1
  rst := (m.tcph 13).getLsbD 2
  ack := (m.tcph 13).getLsbD 4
  window := htons (load16 m.tcph 14)
  check := m.check
  opt := fun i => m.tcph (tcpHeaderLen + i)
  payload := (List.range (m.tcpLen - m.doff.toNat * 4).toNat).map fun i =>
    m.tcph (m.doff.toNat * 4 + i)

variable {ρ : Type}

/-- `cmt_tcp_process` on a packet; the rest of what it depends on is as in `a`. -/
def processPacket (P : Parts ρ) (w : World ρ) (a : Arrival ρ) (m : Packet) :
    Except Abort (World ρ × ℤ) :=
  process P w { a with seg := segmentAt m }

/-- A handler gets to see only packets with an IP header of 20 bytes that pass the checksum. -/
theorem processPacket_ok {P : Parts ρ} {w w' : World ρ} {a : Arrival ρ} {m : Packet} {ret : ℤ}
    (h : processPacket P w a m = .ok (w', ret)) (hne : w' ≠ w) : m.ihl.toNat = 5 ∧ m.check = 0 := by
  unfold processPacket process at h
  split at h
  · cases h
  · next hihl =>
    -- the first test of `cmt_tcp_process`
    have hihl' : m.ihl.toNat = 5 := by
      have h20 : ¬20 ≠ m.ihl.toNat * 4 := hihl
      omega
    split at h
    · exact absurd (congrArg Prod.fst (Except.ok.inj h)).symm hne
    · next hcheck => exact ⟨hihl', not_not.mp hcheck⟩

/-- What the code takes for header, options and payload lies inside the packet. -/
structure Packet.SegmentInside (m : Packet) : Prop where
  header : (20 : ℤ) ≤ m.doff.toNat * 4 ∧ (m.doff.toNat * 4 : ℤ) ≤ m.totLen.toNat - 20
  payloadlen : 0 ≤ (segmentAt m).payloadlen
  options : ∀ i < (segmentAt m).optlen, 20 + (tcpHeaderLen + i) < m.totLen.toNat
  payload : ∀ i < (segmentAt m).payload.length, 20 + (m.doff.toNat * 4 + i) < m.totLen.toNat

/-! ### What the checksum excludes -/

/-- The packet with `lo` in the first half of its source address. -/
def Packet.withSource (m : Packet) (lo : U16) : Packet :=
  Function.update (Function.update m 12 (lo.extractLsb' 0 8)) 13 (lo.extractLsb' 8 8)

section Checksum

variable {m : Packet} {sum : U32} {lo : U16}

theorem Packet.withSource_of_ne {i : ℕ} (h₁ : i ≠ 12) (h₂ : i ≠ 13) : m.withSource lo i = m i := by
  unfold withSource
  rw [Function.update_of_ne h₂, Function.update_of_ne h₁]

/-- The loop adds up at most one word for every two bytes. -/
theorem sumWords_le (buf : Packet) (nleft w : ℕ) (sum : U32) :
    (sumWords buf nleft w sum).toNat ≤ sum.toNat + 65535 * ((nleft + 1) / 2) := by
  have hadd : ∀ (x : U32) (y : U16), (x + y.setWidth 32).toNat ≤ x.toNat + 65535 := by
    intro x y
    have hy : (y.setWidth 32).toNat = y.toNat := BitVec.toNat_setWidth_of_le (by decide)
    have hlt : y.toNat < 65536 := y.isLt
    rw [BitVec.toNat_add, hy]
    exact (Nat.mod_le _ _).trans (by omega)
  -- two bytes go with each round, so the induction is on all smaller lengths
  induction nleft using Nat.strong_induction_on generalizing w sum with
  | _ nleft ih =>
    match nleft with
    | 0 => exact Nat.le_add_right _ _
    | 1 => exact hadd sum _
    | nleft + 2 =>
      calc (sumWords buf (nleft + 2) w sum).toNat
          ≤ (sum + (load16 buf w).setWidth 32).toNat + 65535 * ((nleft + 1) / 2) :=
            ih nleft (by omega) _ _
        _ ≤ sum.toNat + 65535 + 65535 * ((nleft + 1) / 2) := Nat.add_le_add_right (hadd _ _) _
        _ = sum.toNat + 65535 * ((nleft + 2 + 1) / 2) := by omega

/-- A sum that is a positive multiple of `65535` folds to the checksum `0`. -/
theorem foldSum_eq_zero {k : ℕ} (hpos : 1 ≤ k) (hk : k ≤ 65536) (hsum : sum.toNat = 65535 * k) :
    foldSum sum = 0 := by
  have hlow : (sum &&& 0xffff).toNat = 65536 - k := by
    calc (sum &&& 0xffff).toNat = sum.toNat % 2 ^ 16 := by
          rw [BitVec.toNat_and]
          exact Nat.and_two_pow_sub_one_eq_mod _ 16
      _ = 65536 - k := by omega
  have hhigh : (sum >>> 16).toNat = k - 1 := by
    rw [BitVec.toNat_ushiftRight, Nat.shiftRight_eq_div_pow]
    omega
  -- the halves of such a sum add up to `0xffff`, whatever `k` is
  have hfold : (sum >>> 16) + (sum &&& 0xffff) = 0xffff := by
    refine BitVec.eq_of_toNat_eq ?_
    rw [BitVec.toNat_add, hhigh, hlow]
    show _ = 65535
    omega
  unfold foldSum
  rw [hfold]
  rfl

/-- Every partial sum can be filled up to a multiple of `65535`. -/
theorem exists_filling (hsum : sum.toNat ≤ 65535 * 65535) :
    ∃ lo : U16, foldSum (sum + lo.setWidth 32) = 0 := by
  have hlt := Nat.mod_lt sum.toNat (show 0 < 65535 by decide)
  have hdiv : 65535 * (sum.toNat / 65535) + sum.toNat % 65535 = sum.toNat := Nat.div_add_mod _ _
  have hquot : sum.toNat / 65535 ≤ 65535 := Nat.div_le_of_le_mul hsum
  -- what is missing to the next multiple fits in a half word
  refine ⟨BitVec.ofNat 16 (65535 - sum.toNat % 65535),
    @foldSum_eq_zero _ (sum.toNat / 65535 + 1) (Nat.succ_pos _) (Nat.succ_le_succ hquot) ?_⟩
  have hlo : ((BitVec.ofNat 16 (65535 - sum.toNat % 65535)).setWidth 32 : U32).toNat =
      65535 - sum.toNat % 65535 := by
    rw [BitVec.toNat_setWidth_of_le (by decide), BitVec.toNat_ofNat]
    exact Nat.mod_eq_of_lt (by omega)
  rw [BitVec.toNat_add, hlo, Nat.mod_eq_of_lt (by omega)]
  omega

theorem append_and_low (hi lo : U16) : (hi ++ lo : U32) &&& 0xffff = lo.setWidth 32 := by
  refine BitVec.eq_of_toNat_eq ?_
  rw [BitVec.toNat_and, BitVec.toNat_append, BitVec.toNat_setWidth_of_le (by decide)]
  refine (Nat.and_two_pow_sub_one_eq_mod (hi.toNat <<< 16 ||| lo.toNat) 16).trans ?_
  -- the high half is a multiple of `2 ^ 16`
  rw [Nat.or_mod_two_pow, Nat.shiftLeft_eq, Nat.mul_mod_left, Nat.zero_or, Nat.mod_eq_of_lt lo.isLt]

theorem append_shift_high (hi lo : U16) : (hi ++ lo : U32) >>> 16 = hi.setWidth 32 := by
  refine BitVec.eq_of_toNat_eq ?_
  rw [BitVec.toNat_ushiftRight, BitVec.toNat_append, BitVec.toNat_setWidth_of_le (by decide),
    Nat.shiftRight_or_distrib, Nat.shiftLeft_shiftRight, Nat.shiftRight_eq_div_pow,
    Nat.div_eq_of_lt lo.isLt, Nat.or_zero]

/-- Four bytes are two halves. -/
theorem load32_eq (m : Packet) (i : ℕ) : load32 m i = load16 m (i + 2) ++ load16 m i :=
  BitVec.append_assoc

theorem load16_withSource (m : Packet) (lo : U16) : load16 (m.withSource lo) 12 = lo := by
  have h₁₂ : m.withSource lo 12 = lo.extractLsb' 0 8 := by
    unfold Packet.withSource
    rw [Function.update_of_ne (by decide), Function.update_self]
  have h₁₃ : m.withSource lo 13 = lo.extractLsb' 8 8 := Function.update_self _ _ _
  calc load16 (m.withSource lo) 12 = lo.extractLsb' 8 8 ++ lo.extractLsb' 0 8 := by
        rw [← h₁₂, ← h₁₃]
        rfl
    _ = lo.extractLsb' 0 16 := BitVec.extractLsb'_append_extractLsb'_eq_extractLsb' (by rfl)
    _ = lo := BitVec.extractLsb'_eq_self

/-- The source address is all that changes. -/
theorem withSource_fields (m : Packet) (lo : U16) :
    (m.withSource lo).tcph = m.tcph ∧ (m.withSource lo).ihl = m.ihl ∧
      (m.withSource lo).totLen = m.totLen ∧ (m.withSource lo).daddr = m.daddr ∧
      (m.withSource lo).saddr = load16 m 14 ++ lo := by
  have hne : ∀ i, i ≠ 12 → i ≠ 13 → m.withSource lo i = m i :=
    fun i h₁ h₂ => Packet.withSource_of_ne h₁ h₂
  refine ⟨funext fun i => hne _ (by omega) (by omega), ?_, ?_, ?_, ?_⟩
  · unfold Packet.ihl
    rw [hne 0 (by decide) (by decide)]
  · unfold Packet.totLen load16
    rw [hne 2 (by decide) (by decide), hne (2 + 1) (by decide) (by decide)]
  · unfold Packet.daddr load32
    rw [hne 16 (by decide) (by decide), hne (16 + 1) (by decide) (by decide),
      hne (16 + 2) (by decide) (by decide), hne (16 + 3) (by decide) (by decide)]
  · unfold Packet.saddr
    rw [load32_eq, load16_withSource]
    show (load16 (m.withSource lo) 14 ++ lo : U32) = _
    unfold load16
    rw [hne 14 (by decide) (by decide), hne (14 + 1) (by decide) (by decide)]

/-- The checksum relates nothing to anything: whatever a packet holds, with another source address it
passes. -/
theorem checksum_adjustable (m : Packet) : ∃ lo, (m.withSource lo).check = 0 := by
  -- the sum of everything else
  let len : U16 := BitVec.ofInt 16 m.tcpLen
  let rest : U32 := sumWords m.tcph len.toNat 0 0 + (load16 m 14).setWidth 32 +
    (m.daddr &&& 0xffff) + (m.daddr >>> 16) + (htons len).setWidth 32 + (htons 6).setWidth 32
  have hhalf : ∀ x : U16, (x.setWidth 32 : U32).toNat ≤ 65535 := by
    intro x
    rw [BitVec.toNat_setWidth_of_le (by decide)]
    have hlt := x.isLt
    omega
  have hadd : ∀ {x y : U32} {a b : ℕ}, x.toNat ≤ a → y.toNat ≤ b → (x + y).toNat ≤ a + b := by
    intro x y a b hx hy
    rw [BitVec.toNat_add]
    exact (Nat.mod_le _ _).trans (Nat.add_le_add hx hy)
  have hlow : m.daddr &&& 0xffff = (load16 m 16).setWidth 32 := by
    unfold Packet.daddr
    rw [load32_eq, append_and_low]
  have hhigh : m.daddr >>> 16 = (load16 m 18).setWidth 32 := by
    unfold Packet.daddr
    rw [load32_eq, append_shift_high]
  have hrest : rest.toNat ≤ 65535 * 65535 := by
    have hbound := hadd (hadd (hadd (hadd (hadd (sumWords_le m.tcph len.toNat 0 0)
      (hhalf (load16 m 14))) (hhalf (load16 m 16))) (hhalf (load16 m 18))) (hhalf (htons len)))
      (hhalf (htons 6))
    rw [← hlow, ← hhigh] at hbound
    have hzero : (0 : U32).toNat = 0 := rfl
    have hlen := len.isLt
    exact hbound.trans (by omega)
  obtain ⟨lo, hlo⟩ := exists_filling hrest
  have hmove : ∀ s hi lo d₁ d₂ l p : U32,
      s + (lo + hi) + (d₁ + d₂) + l + p = s + hi + d₁ + d₂ + l + p + lo := by
    intro s hi lo d₁ d₂ l p
    ac_rfl
  refine ⟨lo, ?_⟩
  obtain ⟨htcph, hihl, htot, hd, hs⟩ := withSource_fields m lo
  calc (m.withSource lo).check
      = cmtTcpCalculateChecksum m.tcph len (load16 m 14 ++ lo) m.daddr := by
        unfold Packet.check Packet.tcpLen
        rw [htcph, hihl, htot, hd, hs]
        rfl
    _ = foldSum (rest + lo.setWidth 32) := by
        unfold cmtTcpCalculateChecksum
        dsimp only
        rw [append_and_low, append_shift_high]
        exact congrArg foldSum (hmove _ _ _ _ _ _ _)
    _ = 0 := hlo

end Checksum

/-! ### The bounds -/

/-- The packet has an IP header of 20 bytes and passes the checksum test. -/
structure Packet.Accepted (m : Packet) : Prop where
  ihl : m.ihl.toNat = 5
  check : m.check = 0

/-- For one packet with an IP header of 20 bytes, the lengths decide. -/
theorem Packet.segmentInside_iff {m : Packet} (hihl : m.ihl.toNat = 5) :
    m.SegmentInside ↔ 5 ≤ m.doff.toNat ∧ 20 + 4 * m.doff.toNat ≤ m.totLen.toNat := by
  have hpay : (segmentAt m).payloadlen = (m.totLen.toNat : ℤ) - 20 - m.doff.toNat * 4 := by
    show (m.totLen.toNat : ℤ) - m.ihl.toNat * 4 - m.doff.toNat * 4 = _
    rw [hihl]
    rfl
  constructor
  · intro hin
    have hheader := hin.header
    omega
  · rintro ⟨hdoff, hlen⟩
    refine ⟨by omega, ?_, fun i hi => ?_, fun i hi => ?_⟩
    · rw [hpay]
      omega
    · have hopt : (segmentAt m).optlen = m.doff.toNat * 4 - 20 := rfl
      have hheader : tcpHeaderLen = 20 := rfl
      omega
    · have hlength : (segmentAt m).payload.length = (m.tcpLen - m.doff.toNat * 4).toNat := by
        show (List.map _ (List.range _)).length = _
        rw [List.length_map, List.length_range]
      have htcp : m.tcpLen = (m.totLen.toNat : ℤ) - 20 := by
        unfold Packet.tcpLen
        rw [hihl]
        rfl
      omega

/-- A packet with an IP header of 20 bytes, this total length and this data offset, and zeros otherwise. -/
def barePacket (doff : BitVec 4) (totLen : U16) : Packet := fun i =>
  if i = 0 then 0x45
  else if i = 2 then totLen.extractLsb' 8 8
  else if i = 3 then totLen.extractLsb' 0 8
  else if i = 32 then doff ++ (0 : BitVec 4)
  else 0

theorem barePacket_fields (doff : BitVec 4) (totLen : U16) :
    (barePacket doff totLen).ihl.toNat = 5 ∧ (barePacket doff totLen).doff = doff ∧
      (barePacket doff totLen).totLen = totLen :=
  ⟨by simp [Packet.ihl, barePacket], BitVec.extractLsb'_append_eq_left, htons_htons totLen⟩

/-- Any packet with an IP header of 20 bytes passes the checksum test from some source address, and its
length fields are what they were. -/
theorem exists_accepted {m : Packet} (hihl : m.ihl.toNat = 5) :
    ∃ lo, (m.withSource lo).Accepted ∧ (m.withSource lo).doff = m.doff ∧
      (m.withSource lo).totLen = m.totLen := by
  obtain ⟨lo, hcheck⟩ := checksum_adjustable m
  obtain ⟨htcph, hihl', htot, -, -⟩ := withSource_fields m lo
  refine ⟨lo, ⟨?_, hcheck⟩, ?_, htot⟩
  · rw [hihl']
    exact hihl
  · unfold Packet.doff
    rw [htcph]

/-- **The bounds of a segment.** Header, options and payload lie inside the packet for every packet with
this data offset and total length that passes the checksum test, if and only if the data offset is 5 at
least and the total length has room for the IP header and the TCP header of that size. Where it has not,
every packet there is, whatever it holds, passes from some source address and lies outside. -/
theorem segment_inside_iff (doff : BitVec 4) (totLen : U16) :
    ((∀ m : Packet, m.Accepted → m.doff = doff → m.totLen = totLen → m.SegmentInside) ↔
        5 ≤ doff.toNat ∧ 20 + 4 * doff.toNat ≤ totLen.toNat) ∧
      (¬(5 ≤ doff.toNat ∧ 20 + 4 * doff.toNat ≤ totLen.toNat) →
        ∀ m : Packet, m.ihl.toNat = 5 → m.doff = doff → m.totLen = totLen →
          ∃ lo, (m.withSource lo).Accepted ∧ ¬(m.withSource lo).SegmentInside) := by
  -- the test drops none of the packets that are too short
  have hbad (hnot : ¬(5 ≤ doff.toNat ∧ 20 + 4 * doff.toNat ≤ totLen.toNat)) (m : Packet)
      (hihl : m.ihl.toNat = 5) (hdoff : m.doff = doff) (hlen : m.totLen = totLen) :
      ∃ lo, (m.withSource lo).Accepted ∧ (m.withSource lo).doff = doff ∧
        (m.withSource lo).totLen = totLen ∧ ¬(m.withSource lo).SegmentInside := by
    obtain ⟨lo, haccepted, hdoff', hlen'⟩ := exists_accepted hihl
    refine ⟨lo, haccepted, hdoff'.trans hdoff, hlen'.trans hlen, ?_⟩
    rw [Packet.segmentInside_iff haccepted.ihl, hdoff', hdoff, hlen', hlen]
    exact hnot
  refine ⟨⟨fun hall => by_contra fun hnot => ?_, fun hfit m h hdoff hlen => ?_⟩, fun hnot m hihl hd ht => ?_⟩
  · obtain ⟨hihl, hdoff, hlen⟩ := barePacket_fields doff totLen
    obtain ⟨lo, haccepted, hdoff', hlen', hout⟩ := hbad hnot _ hihl hdoff hlen
    exact hout (hall _ haccepted hdoff' hlen')
  · rw [Packet.segmentInside_iff h.ihl, hdoff, hlen]
    exact hfit
  · obtain ⟨lo, haccepted, -, -, hout⟩ := hbad hnot m hihl hd ht
    exact ⟨lo, haccepted, hout⟩

/-- A segment with a TIMESTAMP option behind two NOPs and the payload `hi!`: 55 bytes in all. -/
def dataPacket : Packet := fun i =>
  [0x45, 0, 0, 55, 0, 0, 0x40, 0, 64, 6, 0, 0, 10, 0, 0, 2, 10, 0, 0, 1,
    0x30, 0x39, 0, 80, 0, 0, 0, 8, 0, 0, 0, 9, 0x80, 0x10, 0x20, 0, 0x88, 0xab, 0, 0,
    1, 1, 8, 10, 0, 0, 0, 5, 0, 0, 0, 4, 0x68, 0x69, 0x21].getD i 0

/-- A SYN from `10.0.0.2`, 40 bytes in all, with `offset` in the byte of the data offset and a checksum. -/
def synPacket (offset check₁ check₂ : U8) : Packet := fun i =>
  [0x45, 0, 0, 40, 0, 0, 0x40, 0, 64, 6, 0, 0, 10, 0, 0, 2, 10, 0, 0, 1,
    0x30, 0x39, 0, 80, 0, 0, 0, 7, 0, 0, 0, 0, offset, 2, 0x20, 0, check₁, check₂, 0, 0].getD i 0

/-- It passes the test and its twelve bytes of options and three of payload lie inside. -/
theorem segment_inside_iff_data :
    dataPacket.Accepted ∧ (segmentAt dataPacket).optlen = 12 ∧
      (segmentAt dataPacket).payload = [0x68, 0x69, 0x21] ∧ dataPacket.SegmentInside := by
  have haccepted : dataPacket.Accepted := ⟨rfl, by decide +kernel⟩
  refine ⟨haccepted, rfl, by decide +kernel, ?_⟩
  exact (segment_inside_iff 8 55).1.mpr ⟨by decide, by decide⟩ _ haccepted (by decide +kernel) (by decide +kernel)

/-- A packet that claims a TCP header of 60 bytes and ends after 20 of them. -/
theorem long_header_accepted :
    ∃ m : Packet, m.Accepted ∧ (segmentAt m).payloadlen = -40 ∧ ¬m.SegmentInside := by
  have hneg : (segmentAt (synPacket 0xf0 0xab 0x4f)).payloadlen = -40 := by decide +kernel
  refine ⟨synPacket 0xf0 0xab 0x4f, ⟨rfl, by decide +kernel⟩, hneg, fun hin => ?_⟩
  have hpos := hin.payloadlen
  rw [hneg] at hpos
  exact absurd hpos (by decide)

end CmtTcp
