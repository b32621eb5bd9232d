import CmtTcp.Tcp.Checksum

/-!
# Echo requests

`icmp.c`, with the way of a packet through `process_IPv4_packet` of `ip.c` up to it. Packets are the bytes
from the IP header on, as in `CmtTcp.Tcp.Frame`, and the callers' `ICMPChecksum` is `ICMP_check_sum`.

* `icmp_checksum_iff`: the last byte of an odd message goes to the lower half of `odd_byte`, whose upper
  half is what the stack happened to hold; the checksum is the Internet checksum, and a reply passes the
  test of its receiver, exactly when the message is even or both halves are zero;
* `echo_reply_inside_iff`: the length of the data to send back is a difference that nobody compares with
  zero; the reply stays inside the packet exactly when the header fields leave room for an ICMP header.
-/

namespace CmtTcp

open Lib

/-! ### The checksum -/

/-- The loop of `ICMP_check_sum` and the byte it leaves, which goes to the lower half of `odd_byte`. -/
def icmpSum (icmph : Packet) (oddByte : U16) : (len w : ℕ) → (sum : U32) → U32
  | 0, _, sum => sum
  | 1, w, sum => sum + (oddByte.extractLsb' 8 8 ++ icmph w).setWidth 32
  | len + 2, w, sum => icmpSum icmph oddByte len (w + 2) (sum + (load16 icmph w).setWidth 32)

/-- `ICMP_check_sum`, `none` where its assertion fails; `oddByte` is what the stack holds for `odd_byte`. -/
def icmpCheckSum (icmph : Packet) (len : ℤ) (oddByte : U16) : Option U16 :=
  if len < 0 then none else some (foldSum (icmpSum icmph oddByte len.toNat 0 0))

/-- The fields and the data of an ICMP message that `ICMP_output` is called with. -/
structure IcmpFields where
  icmpType : U8
  icmpCode : U8
  icmpId : U16
  icmpSeq : U16
  icmpd : Packet
  len : U16

/-- The message of `ICMP_output` in the memory `buf`, with a checksum of zero. -/
def icmpMessage (buf : Packet) (f : IcmpFields) : Packet :=
  let icmph := Function.update (Function.update buf 0 f.icmpType) 1 f.icmpCode
  let icmph := store16 icmph 2 0
  let icmph := store16 icmph 4 (htons f.icmpId)
  let icmph := store16 icmph 6 (htons f.icmpSeq)
  fun i => if 8 ≤ i ∧ i < 8 + f.len.toNat then f.icmpd (i - 8) else icmph i

/-- `ICMP_output`; `iph` is what `IP_output_standalone` yields. -/
def icmpOutput (iph : Option Packet) (f : IcmpFields) (oddByte : U16) : Option Packet :=
  iph.bind fun buf =>
    let icmph := icmpMessage buf f
    (icmpCheckSum icmph (8 + f.len.toNat : ℤ) oddByte).map (store16 icmph 2)

/-- The upper half of the storage of `odd_byte`. -/
def oddHigh (oddByte : U16) : U8 := oddByte.extractLsb' 8 8

section Checksum

variable {icmph buf : Packet} {oddByte : U16} {n : ℕ}

/-- What the storage of `odd_byte` adds to the sum of a message of `n` bytes. -/
def oddExtra (oddByte : U16) (n : ℕ) : ℕ := n % 2 * (256 * (oddHigh oddByte).toNat)

theorem oddExtra_lt (oddByte : U16) (n : ℕ) : oddExtra oddByte n < 65535 := by
  have hhigh := (oddHigh oddByte).isLt
  unfold oddExtra
  rcases Nat.mod_two_eq_zero_or_one n with h | h
  · rw [h]
    omega
  · rw [h]
    omega

theorem oddExtra_eq_zero : oddExtra oddByte n = 0 ↔ n % 2 = 0 ∨ oddHigh oddByte = 0 := by
  have hzero : (oddHigh oddByte).toNat = 0 ↔ oddHigh oddByte = 0 :=
    ⟨fun h => BitVec.eq_of_toNat_eq h, fun h => by rw [h]; rfl⟩
  rw [← hzero]
  unfold oddExtra
  rw [Nat.mul_eq_zero, Nat.mul_eq_zero]
  omega

theorem toNat_icmpSum (icmph : Packet) (oddByte : U16) (n w : ℕ) (sum : U32)
    (h : sum.toNat + loadedTotal (octetWords (segmentOctets icmph w n)) + oddExtra oddByte n < 2 ^ 32) :
    (icmpSum icmph oddByte n w sum).toNat =
      sum.toNat + loadedTotal (octetWords (segmentOctets icmph w n)) + oddExtra oddByte n := by
  have hadd : ∀ (x : U32) (y : U16), x.toNat + y.toNat < 2 ^ 32 →
      (x + y.setWidth 32).toNat = x.toNat + y.toNat := by
    intro x y hlt
    rw [BitVec.toNat_add, BitVec.toNat_setWidth_of_le (by decide), Nat.mod_eq_of_lt hlt]
  -- two bytes go with each round
  induction n using Nat.strong_induction_on generalizing w sum with
  | _ n ih =>
    match n with
    | 0 => rw [oddExtra, Nat.zero_mod, Nat.zero_mul]; rfl
    | 1 =>
      have hlast : loadedTotal (octetWords (segmentOctets icmph w 1)) = (icmph w).toNat := by
        change (htons (icmph w ++ (0 : U8))).toNat + 0 = _
        rw [htons_append, toNat_octets]
        exact Nat.zero_add _
      have hextra : oddExtra oddByte 1 = 256 * (oddHigh oddByte).toNat := Nat.one_mul _
      have hword : (oddByte.extractLsb' 8 8 ++ icmph w : U16).toNat =
          (icmph w).toNat + oddExtra oddByte 1 := by
        rw [toNat_octets, hextra, Nat.add_comm]
        rfl
      unfold icmpSum
      rw [hlast] at h ⊢
      rw [hadd _ _ (by omega), hword, Nat.add_assoc]
    | n + 2 =>
      have hextra : oddExtra oddByte (n + 2) = oddExtra oddByte n := by
        unfold oddExtra
        rw [Nat.add_mod_right]
      rw [loadedTotal_segmentOctets, hextra] at h ⊢
      have hword := hadd sum (load16 icmph w) (by omega)
      unfold icmpSum
      rw [ih n (by omega) (w + 2) _ (by omega), hword]
      omega

/-- The checksum, up to its complement, is the word that the carries make of the sum. -/
theorem icmpCheckSum_eq (icmph : Packet) (oddByte : U16) (hn : n ≤ 65535) :
    ∃ c, icmpCheckSum icmph n oddByte = some c ∧
      (~~~c).toNat = OnesComplement.wrap 16
        (loadedTotal (octetWords (segmentOctets icmph 0 n)) + oddExtra oddByte n) := by
  have hwords := loadedTotal_segment_le icmph 0 n
  have hextra := oddExtra_lt oddByte n
  have hzero : (0 : U32).toNat = 0 := rfl
  have hsum := toNat_icmpSum icmph oddByte n 0 0 (by omega)
  rw [hzero, Nat.zero_add] at hsum
  have hnonneg : ¬(n : ℤ) < 0 := Int.not_lt.mpr (Int.natCast_nonneg n)
  refine ⟨_, if_neg hnonneg, ?_⟩
  rw [foldSum_toNat, Int.toNat_natCast, hsum]

theorem icmpCheckSum_internet_iff (icmph : Packet) (oddByte : U16) (hn : n ≤ 65535) :
    icmpCheckSum icmph n oddByte = some (htons (internetChecksum (segmentOctets icmph 0 n))) ↔
      oddExtra oddByte n = 0 := by
  obtain ⟨c, hc, hval⟩ := icmpCheckSum_eq icmph oddByte hn
  rw [hc, Option.some_inj, ← OnesComplement.wrap_add_eq_wrap (w := 16)
    (a := loadedTotal (octetWords (segmentOctets icmph 0 n))) (oddExtra_lt oddByte n), ← hval, ← htons_sum]
  unfold internetChecksum
  rw [htons_not]
  constructor
  · rintro rfl
    rw [BitVec.not_not]
  · intro h
    rw [← BitVec.eq_of_toNat_eq h, BitVec.not_not]

/-- A message with its own checksum in a field that was zero passes the test where the storage of
`odd_byte` adds nothing. -/
theorem icmpCheckSum_stored_iff {c : U16} (oddByte : U16) (hn : n ≤ 65535) (hn' : 4 ≤ n)
    (hzero : load16 icmph 2 = 0)
    (hc : (~~~c).toNat = OnesComplement.wrap 16 (loadedTotal (octetWords (segmentOctets icmph 0 n)))) :
    icmpCheckSum (store16 icmph 2 c) n oddByte = some 0 ↔ oddExtra oddByte n = 0 := by
  obtain ⟨c', hc', hval⟩ := icmpCheckSum_eq (store16 icmph 2 c) oddByte hn
  have htotal := @loadedTotal_store16 icmph 1 0 n c (by omega) hzero
  have hcomp : c.toNat = 2 ^ 16 - 1 -
      OnesComplement.wrap 16 (loadedTotal (octetWords (segmentOctets icmph 0 n))) := by
    have hlt := c.isLt
    rw [← hc, BitVec.toNat_not]
    omega
  have hnot : c' = 0 ↔ (~~~c').toNat = 2 ^ 16 - 1 := by
    have hlt := c'.isLt
    rw [BitVec.toNat_not]
    constructor
    · rintro rfl
      rfl
    · intro h
      refine BitVec.eq_of_toNat_eq ?_
      change _ = 0
      omega
  rw [hc', Option.some_inj, hnot, hval, htotal, hcomp]
  -- without what the storage adds, the sum wraps to all ones
  have hones := @OnesComplement.wrap_add_compl 16 (by decide)
    (loadedTotal (octetWords (segmentOctets icmph 0 n)))
  rw [← @OnesComplement.wrap_add_eq_wrap 16 _ _ (oddExtra_lt oddByte n), hones]

theorem icmpMessage_check (buf : Packet) (f : IcmpFields) : load16 (icmpMessage buf f) 2 = 0 := by
  have hbyte (i : ℕ) (hi : i = 2 ∨ i = 3) : icmpMessage buf f i = 0 := by
    unfold icmpMessage
    -- the data and the two words behind it leave the field alone
    rw [if_neg (by omega), store16_of_ne (by omega) (by omega), store16_of_ne (by omega) (by omega)]
    rcases hi with rfl | rfl
    · exact store16_low _ _ _
    · exact store16_high _ _ _
  unfold load16
  rw [hbyte 3 (.inr rfl), hbyte 2 (.inl rfl)]
  rfl

/-- What is asked of the checksum of a message, and of the message that `ICMP_output` builds: `sent` and
`received` are what the stacks of sender and receiver hold for `odd_byte`. -/
structure IcmpChecksumRight (icmph buf : Packet) (f : IcmpFields) (sent received : U16) : Prop where
  internet : icmpCheckSum icmph (8 + f.len.toNat : ℕ) sent =
    some (htons (internetChecksum (segmentOctets icmph 0 (8 + f.len.toNat))))
  same : icmpCheckSum icmph (8 + f.len.toNat : ℕ) received =
    icmpCheckSum icmph (8 + f.len.toNat : ℕ) sent
  verifies : ∃ reply, icmpOutput (some buf) f sent = some reply ∧
    icmpCheckSum reply (8 + f.len.toNat : ℕ) received = some 0

/-- **When the checksum of ICMP messages is right.** For every message of 8 to 65535 bytes, every message of
that length built by `ICMP_output`, and whatever the stacks hold: if and only if the length is even, or
the upper halves of both `odd_byte`s happen to be zero. -/
theorem icmp_checksum_iff (icmph buf : Packet) (f : IcmpFields) (sent received : U16)
    (hlen : 8 + f.len.toNat ≤ 65535) :
    IcmpChecksumRight icmph buf f sent received ↔
      (8 + f.len.toNat) % 2 = 0 ∨ oddHigh sent = 0 ∧ oddHigh received = 0 := by
  have hboth : ((8 + f.len.toNat) % 2 = 0 ∨ oddHigh sent = 0 ∧ oddHigh received = 0) ↔
      oddExtra sent (8 + f.len.toNat) = 0 ∧ oddExtra received (8 + f.len.toNat) = 0 := by
    rw [oddExtra_eq_zero, oddExtra_eq_zero]
    exact or_and_left
  obtain ⟨c, hc, hval⟩ := icmpCheckSum_eq (icmpMessage buf f) sent hlen
  have hout : icmpOutput (some buf) f sent = some (store16 (icmpMessage buf f) 2 c) := by
    have hcast : (8 + f.len.toNat : ℤ) = ((8 + f.len.toNat : ℕ) : ℤ) := by omega
    unfold icmpOutput
    rw [Option.bind_some, hcast]
    dsimp only
    rw [hc]
    rfl
  have hstored (h : oddExtra sent (8 + f.len.toNat) = 0) :
      icmpCheckSum (store16 (icmpMessage buf f) 2 c) (8 + f.len.toNat : ℕ) received = some 0 ↔
        oddExtra received (8 + f.len.toNat) = 0 := by
    rw [h, Nat.add_zero] at hval
    exact icmpCheckSum_stored_iff received hlen (by omega) (icmpMessage_check buf f) hval
  rw [hboth]
  constructor
  · intro h
    -- the message shows the sender's stack, the reply then the receiver's
    have hsent := (icmpCheckSum_internet_iff icmph sent hlen).mp h.internet
    obtain ⟨reply, hreply, hverifies⟩ := h.verifies
    obtain rfl := Option.some.inj (hout.symm.trans hreply)
    exact ⟨hsent, (hstored hsent).mp hverifies⟩
  · rintro ⟨hsent, hreceived⟩
    have hinternet := (icmpCheckSum_internet_iff icmph sent hlen).mpr hsent
    refine ⟨hinternet, ?_, _, hout, (hstored hsent).mpr hreceived⟩
    rw [hinternet]
    exact (icmpCheckSum_internet_iff icmph received hlen).mpr hreceived

end Checksum

/-- A request with one byte of data. -/
def oneBytePing : IcmpFields where
  icmpType := 8
  icmpCode := 0
  icmpId := 1
  icmpSeq := 1
  icmpd := fun _ => 0x61
  len := 1

/-- The same on clean stacks is right. -/
theorem icmp_checksum_iff_clean :
    IcmpChecksumRight (fun _ => 0x61) (fun _ => 0) oneBytePing 0x00ff 0x00ff :=
  (icmp_checksum_iff _ _ oneBytePing _ _ (by decide)).mpr (.inr ⟨by decide, by decide⟩)

/-- One byte of data, and a stack that is not clean where the reply is read. -/
theorem icmp_checksum_wrong :
    ¬IcmpChecksumRight (fun _ => 0x61) (fun _ => 0) oneBytePing 0 0x0100 := by
  intro h
  have hsame := h.same
  revert hsame
  decide +kernel

/-! ### From the IP header to the reply -/

namespace Packet

/-- `iph->version` -/
def version (m : Packet) : BitVec 4 := (m 0).extractLsb' 4 4

/-- `iph->protocol` -/
def protocol (m : Packet) : U8 := m 9

/-- `IP_NEXT_PTR(iph)`, from the start of the packet. -/
def nextOffset (m : Packet) : ℕ := m.ihl.toNat * 4

/-- The ICMP header. -/
def icmph (m : Packet) : Packet := fun i => m (m.nextOffset + i)

end Packet

/-- What `process_IPv4_packet` and `process_ICMP_packet` depend on beside the packet. -/
structure IpEnv where
  /-- The answer of `dev_ioctl` to `PKT_RX_IP_CSUM`, `-1` where there is none. -/
  rc : ℤ
  ipFastCsum : Packet → BitVec 4 → U16
  promiscuousMode : Bool
  /-- `config.eths[ifidx].ip_addr` -/
  ifAddr : U32
  /-- `config.eths[i].ip_addr` -/
  ethAddrs : List U32

/-- What `process_IPv4_packet` does with a packet. -/
inductive IpVerdict where
  | tooShort
  | badChecksum
  | notMine
  | badVersion
  | processTcp (ipLen : ℕ)
  | processIcmp (ipLen : ℕ)
  | otherProtocol
deriving DecidableEq, Repr

/-- `process_IPv4_packet` -/
def processIPv4Packet (e : IpEnv) (iph : Packet) : IpVerdict :=
  let ipLen := iph.totLen.toNat
  -- `sizeof(struct iphdr)`
  if ipLen < 20 then .tooShort
  else if e.rc = -1 ∧ e.ipFastCsum iph iph.ihl ≠ 0 then .badChecksum
  else if ¬e.promiscuousMode ∧ iph.daddr ≠ e.ifAddr then .notMine
  else if iph.version ≠ 4 then .badVersion
  -- `IPPROTO_TCP`, `IPPROTO_ICMP`
  else if iph.protocol = 6 then .processTcp ipLen
  else if iph.protocol = 1 then .processIcmp ipLen
  else .otherProtocol

/-- The call of `ICMP_output` for a reply; `data` is the offset of `icmpd` in the packet. -/
structure EchoReply where
  saddr : U32
  daddr : U32
  icmpId : U16
  icmpSeq : U16
  data : ℕ
  len : U16
deriving DecidableEq, Repr

/-- What `process_ICMP_packet` does with a packet. -/
inductive IcmpVerdict where
  | notMine
  /-- The assertion of `ICMP_check_sum` fails. -/
  | assertFails
  | badChecksum
  | reply (r : EchoReply)
  /-- A line in the log. -/
  | traced
deriving DecidableEq, Repr

/-- `process_ICMP_echo_request` -/
def processIcmpEchoRequest (iph : Packet) (len : ℤ) (oddByte : U16) : IcmpVerdict :=
  match icmpCheckSum iph.icmph (len - iph.nextOffset) oddByte with
  | none => .assertFails
  | some c =>
    if c ≠ 0 then .badChecksum
    else
      .reply
        { saddr := iph.daddr
          daddr := iph.saddr
          icmpId := htons (load16 iph.icmph 4)
          icmpSeq := htons (load16 iph.icmph 6)
          data := iph.nextOffset + 8
          -- `sizeof(struct icmphdr)`, and the cast to 16 bits
          len := BitVec.ofInt 16 (len - iph.nextOffset - 8) }

/-- `process_ICMP_packet` -/
def processIcmpPacket (e : IpEnv) (iph : Packet) (len : ℤ) (oddByte : U16) : IcmpVerdict :=
  if iph.daddr ∉ e.ethAddrs then .notMine
  -- `ICMP_ECHO`
  else if iph.icmph 0 = 8 then processIcmpEchoRequest iph len oddByte
  else .traced

/-- The assertion holds, and what is copied to a reply lies in the `ipLen` bytes of the packet. -/
def IcmpVerdict.Inside (ipLen : ℕ) : IcmpVerdict → Prop
  | .assertFails => False
  | .reply r => r.data + r.len.toNat ≤ ipLen
  | _ => True

/-- The packet leaves room for what `process_ICMP_echo_request` reads: for no less than nothing, and for an
ICMP header if its checksum verifies. -/
def EchoFits (iph : Packet) (ipLen : ℕ) (oddByte : U16) : Prop :=
  iph.nextOffset ≤ ipLen ∧
    (icmpCheckSum iph.icmph (ipLen - iph.nextOffset : ℤ) oddByte = some 0 → iph.nextOffset + 8 ≤ ipLen)

section Reply

variable {e : IpEnv} {iph : Packet} {ipLen : ℕ} {oddByte : U16}

/-- Only packets of at least the size of an IP header are handed on, with their total length. -/
theorem processIPv4Packet_icmp (h : processIPv4Packet e iph = .processIcmp ipLen) :
    20 ≤ ipLen ∧ ipLen < 2 ^ 16 := by
  have hlt := iph.totLen.isLt
  unfold processIPv4Packet at h
  dsimp only at h
  split at h
  · cases h
  · next hlen =>
    -- one branch hands on to ICMP
    have heq : ipLen = iph.totLen.toNat := by
      split at h
      · cases h
      split at h
      · cases h
      split at h
      · cases h
      split at h
      · cases h
      split at h
      · exact (IpVerdict.processIcmp.inj h).symm
      · cases h
    omega

/-- The length of a reply: cut to 16 bits, a negative one is of nearly 64 KB. -/
theorem reply_inside_iff {off : ℕ} (hlt : ipLen < 2 ^ 16) (hoff : off ≤ ipLen) :
    off + 8 + (BitVec.ofInt 16 ((ipLen : ℤ) - off - 8)).toNat ≤ ipLen ↔ off + 8 ≤ ipLen := by
  rw [BitVec.toNat_ofInt]
  constructor
  · intro h
    -- read without sign, a negative length is `2^16 - 8` at least
    omega
  · intro h
    omega

theorem echo_inside_iff (hlt : ipLen < 2 ^ 16) :
    (processIcmpEchoRequest iph ipLen oddByte).Inside ipLen ↔ EchoFits iph ipLen oddByte := by
  unfold processIcmpEchoRequest EchoFits
  by_cases hoff : iph.nextOffset ≤ ipLen
  · rw [and_iff_right hoff]
    -- the assertion holds, and there is a checksum
    have hnonneg : ¬(ipLen : ℤ) - iph.nextOffset < 0 := by omega
    have hsum : icmpCheckSum iph.icmph (ipLen - iph.nextOffset) oddByte = some _ := if_neg hnonneg
    rw [hsum]
    dsimp only
    split
    · next hne => exact iff_of_true trivial fun heq => absurd (Option.some.inj heq) hne
    · next hzero =>
      rw [not_not.mp hzero, forall_prop_of_true rfl]
      exact reply_inside_iff hlt hoff
  · have hneg : (ipLen : ℤ) - iph.nextOffset < 0 := by omega
    have hnone : icmpCheckSum iph.icmph (ipLen - iph.nextOffset) oddByte = none := if_pos hneg
    rw [hnone]
    exact iff_of_false id fun h => hoff h.1

end Reply

/-- **When an echo reply stays inside the packet.** For every packet that `process_IPv4_packet` hands on: no
assertion fails and nothing but bytes of the packet is sent back, if and only if an echo request to
one of the own addresses leaves room for what is read. -/
theorem echo_reply_inside_iff (e : IpEnv) (iph : Packet) (ipLen : ℕ) (oddByte : U16)
    (h : processIPv4Packet e iph = .processIcmp ipLen) :
    (processIcmpPacket e iph ipLen oddByte).Inside ipLen ↔
      (iph.daddr ∈ e.ethAddrs → iph.icmph 0 = 8 → EchoFits iph ipLen oddByte) := by
  have hlt := (processIPv4Packet_icmp h).2
  unfold processIcmpPacket
  split
  · next hmine => exact iff_of_true trivial fun hmem => absurd hmem hmine
  · next hmine =>
    rw [forall_prop_of_true (not_not.mp hmine)]
    split
    · next htype =>
      rw [forall_prop_of_true htype]
      exact echo_inside_iff hlt
    · next htype => exact iff_of_true trivial fun heq => absurd heq htype

/-- A host whose network card checks the IP checksums. -/
def pingedHost : IpEnv where
  rc := 0
  ipFastCsum := fun _ _ => 0
  promiscuousMode := false
  ifAddr := 0x0100000a
  ethAddrs := [0x0100000a]

/-- An echo request to that host, its IP header of `4 * ihl` bytes followed by `08 00`, a checksum and
zeroes. -/
def pingPacket (ihl : BitVec 4) (totLen check : U16) : Packet :=
  store16
    (fun i =>
      if i = 0 then 4#4 ++ ihl
      else if i = 2 then totLen.extractLsb' 8 8
      else if i = 3 then totLen.extractLsb' 0 8
      else if i = 9 then 1
      else if i = 16 then 10
      else if i = 19 then 1
      else if i = ihl.toNat * 4 then 8
      else 0)
    (ihl.toNat * 4 + 2) (htons check)

/-- A request without data is answered. -/
theorem echo_reply_inside_iff_empty :
    (processIcmpPacket pingedHost (pingPacket 5 28 0xf7ff) (28 : ℕ) 0).Inside 28 := by
  refine (echo_reply_inside_iff pingedHost (pingPacket 5 28 0xf7ff) 28 0 (by decide)).mpr fun _ _ => ?_
  exact ⟨by decide, fun _ => by decide⟩

/-- Four bytes with a checksum that verifies are answered with 65532 bytes from behind the packet, and a
header length beyond the end of the packet fails the assertion. -/
theorem echo_reply_leaks :
    (processIPv4Packet pingedHost (pingPacket 5 24 0xf7ff) = .processIcmp 24 ∧
      ¬(processIcmpPacket pingedHost (pingPacket 5 24 0xf7ff) (24 : ℕ) 0).Inside 24) ∧
    (processIPv4Packet pingedHost (pingPacket 15 20 0) = .processIcmp 20 ∧
      ¬(processIcmpPacket pingedHost (pingPacket 15 20 0) (20 : ℕ) 0).Inside 20) := by
  refine ⟨⟨by decide, ?_⟩, by decide, ?_⟩
  · have hreply : processIcmpPacket pingedHost (pingPacket 5 24 0xf7ff) (24 : ℕ) 0 =
        .reply ⟨0x0100000a, 0, 0, 0, 28, 0xfffc⟩ := by decide
    rw [hreply]
    exact show ¬28 + (0xfffc : U16).toNat ≤ 24 by decide
  · have hfails : processIcmpPacket pingedHost (pingPacket 15 20 0) (20 : ℕ) 0 = .assertFails := by decide
    rw [hfails]
    exact id

end CmtTcp
