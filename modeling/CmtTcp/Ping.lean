import CmtTcp.Ethernet

/-!
# Echo requests from end to end

What becomes of a call of `request_ICMP` in another host that runs the stack: the bytes of the request pass
the tests of its receiver, and the reply carries the same identifier, sequence number and data back.

* `Carries`: a frame is an ICMP message with these fields;
* `icmpOutput_carries`: what `ICMP_output` sends carries what it was called with;
* `ping_round_trip`: a request that arrives is answered by a reply that carries the same.
-/

namespace CmtTcp

open Lib

/-! ### Fields and loads -/

section Loads

variable {m m' : Packet} {i : ℕ}

theorem byte_eq_get (m : Packet) (i : ℕ) : m i = (⟨i⟩ : Field 8).get m := by
  refine BitVec.eq_of_toNat_eq ?_
  change _ = ((m i).toNat + 256 * 0) % 2 ^ 8
  have hlt := (m i).isLt
  omega

theorem load16_eq_get (m : Packet) (i : ℕ) : load16 m i = (⟨i⟩ : Field 16).get m := by
  refine BitVec.eq_of_toNat_eq ?_
  unfold load16
  rw [toNat_octets]
  change _ = ((m i).toNat + 256 * ((m (i + 1)).toNat + 256 * 0)) % 2 ^ 16
  have hlo := (m i).isLt
  have hhi := (m (i + 1)).isLt
  omega

theorem load32_eq_get (m : Packet) (i : ℕ) : load32 m i = (⟨i⟩ : Field 32).get m := by
  refine BitVec.eq_of_toNat_eq ?_
  rw [load32_eq, BitVec.toNat_append, Nat.shiftLeft_eq, ← Nat.mul_comm,
    ← Nat.two_pow_add_eq_or_of_lt (load16 m i).isLt, load16_eq_get, load16_eq_get]
  have h₀ := (m i).isLt
  have h₁ := (m (i + 1)).isLt
  have h₂ := (m (i + 2)).isLt
  have h₃ := (m (i + 3)).isLt
  change 2 ^ 16 * (((m (i + 2)).toNat + 256 * ((m (i + 3)).toNat + 256 * 0)) % 2 ^ 16) +
    ((m i).toNat + 256 * ((m (i + 1)).toNat + 256 * 0)) % 2 ^ 16 =
    ((m i).toNat + 256 * ((m (i + 1)).toNat + 256 * ((m (i + 2)).toNat +
      256 * ((m (i + 3)).toNat + 256 * 0)))) % 2 ^ 32
  omega

theorem load16_store16 (m : Packet) (i : ℕ) (v : U16) : load16 (store16 m i v) i = v := by
  unfold load16
  rw [store16_low, store16_high]
  exact octets_append_self v

theorem load16_store16_of_ne {v : U16} {j : ℕ} (h : j + 1 < i ∨ i + 1 < j) :
    load16 (store16 m i v) j = load16 m j := by
  unfold load16
  rw [store16_of_ne (by omega) (by omega), store16_of_ne (by omega) (by omega)]

/-- A store of two bytes in the payload is one in the frame. -/
theorem payload_set (frame : Packet) (i : ℕ) (v : U16) :
    Eth.payload ((⟨14 + i⟩ : Field 16).set frame v) = store16 (Eth.payload frame) i v := by
  funext j
  change (⟨14 + i⟩ : Field 16).set frame v (14 + j) = _
  by_cases h₀ : j = i
  · subst h₀
    rw [store16_low]
    refine BitVec.eq_of_toNat_eq ?_
    have hbyte : (⟨14 + j⟩ : Field 16).set frame v (14 + j) = _ :=
      if_pos ⟨Nat.le_refl _, Nat.lt_add_of_pos_right (by decide)⟩
    rw [hbyte, Nat.sub_self]
    simp
  by_cases h₁ : j = i + 1
  · subst h₁
    rw [store16_high]
    have hbyte : (⟨14 + i⟩ : Field 16).set frame v (14 + (i + 1)) = _ :=
      if_pos ⟨by change 14 + i ≤ _; omega, by change _ < 14 + i + 2; omega⟩
    have hone : 14 + (i + 1) - (14 + i) = 1 := by omega
    rw [hbyte, hone]
    refine BitVec.eq_of_toNat_eq ?_
    simp [Nat.shiftRight_eq_div_pow]
  · rw [store16_of_ne h₀ h₁]
    refine Field.set_of_outside ?_
    change 14 + j < 14 + i ∨ 14 + i + 2 ≤ 14 + j
    omega

end Loads

/-! ### The IP header -/

/-- What is asked of `ip_fast_csum`: it looks at the bytes of the header, and a header with its own checksum
in the field, which was zero, has the checksum `0`. -/
structure IpCsum (ipFastCsum : Packet → BitVec 4 → U16) : Prop where
  congr : ∀ (m m' : Packet) (ihl : BitVec 4), (∀ i < 4 * ihl.toNat, m i = m' i) →
    ipFastCsum m ihl = ipFastCsum m' ihl
  verifies : ∀ (m : Packet) (ihl : BitVec 4), 5 ≤ ihl.toNat → load16 m 10 = 0 →
    ipFastCsum (store16 m 10 (ipFastCsum m ihl)) ihl = 0

/-- The sum of the words of a header, folded: a definition of `ip_fast_csum`. -/
def headerCsum (m : Packet) (ihl : BitVec 4) : U16 := foldSum (icmpSum m 0 (4 * ihl.toNat) 0 0)

theorem icmpSum_congr {m m' : Packet} {oddByte : U16} {n w : ℕ} {sum : U32}
    (h : ∀ i, w ≤ i → i < w + n → m i = m' i) : icmpSum m oddByte n w sum = icmpSum m' oddByte n w sum := by
  induction n using Nat.strong_induction_on generalizing w sum with
  | _ n ih =>
    match n with
    | 0 => rfl
    | 1 =>
      unfold icmpSum
      rw [h w (Nat.le_refl _) (Nat.lt_succ_self _)]
    | n + 2 =>
      have hword : load16 m w = load16 m' w := by
        unfold load16
        rw [h w (by omega) (by omega), h (w + 1) (by omega) (by omega)]
      unfold icmpSum
      rw [hword, ih n (by omega) fun i hlo hhi => h i (by omega) (by omega)]

/-- It does what is asked. -/
theorem headerCsum_ipCsum : IpCsum headerCsum where
  congr := by
    intro m m' ihl hsame
    unfold headerCsum
    rw [icmpSum_congr fun i _ hi => hsame i (by omega)]
  verifies := by
    intro m ihl hihl hzero
    have hle := ihl.isLt
    have hextra : oddExtra 0 (4 * ihl.toNat) = 0 := oddExtra_eq_zero.mpr (.inr rfl)
    have hsum : ∀ m : Packet, (~~~headerCsum m ihl).toNat = OnesComplement.wrap 16
        (loadedTotal (octetWords (segmentOctets m 0 (4 * ihl.toNat)))) := by
      intro m
      obtain ⟨c, hc, hval⟩ := icmpCheckSum_eq m 0 (show 4 * ihl.toNat ≤ 65535 by omega)
      have heq : some (headerCsum m ihl) = some c := hc
      rw [Option.some.inj heq, hval, hextra, Nat.add_zero]
    have hval := hsum m
    have htotal := @loadedTotal_store16 m 5 0 (4 * ihl.toNat) (headerCsum m ihl) (by omega) hzero
    have hnew := hsum (store16 m (0 + 2 * 5) (headerCsum m ihl))
    have hcomp : (headerCsum m ihl).toNat = 2 ^ 16 - 1 -
        OnesComplement.wrap 16 (loadedTotal (octetWords (segmentOctets m 0 (4 * ihl.toNat)))) := by
      have hlt := (headerCsum m ihl).isLt
      rw [BitVec.toNat_not] at hval
      omega
    rw [htotal, hcomp, OnesComplement.wrap_add_compl (by decide), BitVec.toNat_not] at hnew
    refine BitVec.eq_of_toNat_eq ?_
    have hlt := (headerCsum (store16 m (0 + 2 * 5) (headerCsum m ihl)) ihl).isLt
    change (headerCsum (store16 m (0 + 2 * 5) (headerCsum m ihl)) ihl).toNat = 0
    omega

/-- The payload of a frame is an IP packet of this protocol, with these addresses, and with `payloadlen`
bytes behind its header. -/
structure IpPacket (frame : Packet) (protocol : U8) (saddr daddr : U32) (payloadlen : U16) : Prop where
  ihl : (Eth.payload frame).ihl = 5
  version : (Eth.payload frame).version = 4
  totLen : (Eth.payload frame).totLen = 20 + payloadlen
  protocol : (Eth.payload frame).protocol = protocol
  saddr : (Eth.payload frame).saddr = saddr
  daddr : (Eth.payload frame).daddr = daddr

section IpHeader

variable {env : NetEnv} {frame frame' eth : Packet} {protocol : U8} {ipId : U16} {saddr daddr : U32}
  {payloadlen : U16}

/-- The header is in the first 34 bytes. -/
theorem IpPacket.congr (h : IpPacket frame protocol saddr daddr payloadlen)
    (hsame : ∀ i < 34, frame' i = frame i) : IpPacket frame' protocol saddr daddr payloadlen := by
  have hbyte : ∀ i < 20, Eth.payload frame' i = Eth.payload frame i := fun i hi => hsame (14 + i) (by omega)
  have h16 : ∀ i < 19, load16 (Eth.payload frame') i = load16 (Eth.payload frame) i := by
    intro i hi
    unfold load16
    rw [hbyte i (by omega), hbyte (i + 1) (by omega)]
  have h32 : ∀ i < 17, load32 (Eth.payload frame') i = load32 (Eth.payload frame) i := by
    intro i hi
    rw [load32_eq, load32_eq, h16 i (by omega), h16 (i + 2) (by omega)]
  refine ⟨?_, ?_, ?_, ?_, ?_, ?_⟩
  · exact (congrArg (BitVec.extractLsb' 0 4) (hbyte 0 (by decide))).trans h.ihl
  · exact (congrArg (BitVec.extractLsb' 4 4) (hbyte 0 (by decide))).trans h.version
  · exact (congrArg htons (h16 2 (by decide))).trans h.totLen
  · exact (hbyte 9 (by decide)).trans h.protocol
  · exact (h32 12 (by decide)).trans h.saddr
  · exact (h32 16 (by decide)).trans h.daddr

theorem ipHeader_packet : IpPacket (Eth.ipHeader env protocol ipId saddr daddr payloadlen eth) protocol
    saddr daddr payloadlen := by
  have hfirst : Eth.payload (Eth.ipHeader env protocol ipId saddr daddr payloadlen eth) 0 = 0x45 := by
    refine (byte_eq_get _ 14).trans ?_
    change Iphdr.ihlVersion.get _ = _
    unfold Eth.ipHeader
    split <;> simp (disch := decide) only [Field.get_set_of_apart, Field.get_set]
  refine ⟨?_, ?_, ?_, ?_, ?_, ?_⟩
  · exact (congrArg (BitVec.extractLsb' 0 4) hfirst).trans (by decide)
  · exact (congrArg (BitVec.extractLsb' 4 4) hfirst).trans (by decide)
  · refine (congrArg htons (load16_eq_get _ 16)).trans ?_
    change htons (Iphdr.totLen.get _) = _
    unfold Eth.ipHeader
    split <;> simp (disch := decide) only [Field.get_set_of_apart, Field.get_set, htons_htons]
  · refine (byte_eq_get _ 23).trans ?_
    change Iphdr.protocol.get _ = _
    unfold Eth.ipHeader
    split <;> simp (disch := decide) only [Field.get_set_of_apart, Field.get_set]
  · refine (load32_eq_get _ 26).trans ?_
    change Iphdr.saddr.get _ = _
    unfold Eth.ipHeader
    split <;> simp (disch := decide) only [Field.get_set_of_apart, Field.get_set]
  · refine (load32_eq_get _ 30).trans ?_
    change Iphdr.daddr.get _ = _
    unfold Eth.ipHeader
    split <;> simp (disch := decide) only [Field.get_set_of_apart, Field.get_set]

/-- A header whose checksum was computed in software verifies. -/
theorem ipHeader_csum (hcsum : IpCsum env.ipFastCsum) (hrc : env.txRc = -1) :
    env.ipFastCsum (Eth.payload (Eth.ipHeader env protocol ipId saddr daddr payloadlen eth)) 5 = 0 := by
  unfold Eth.ipHeader
  rw [if_pos hrc]
  generalize hiph : Iphdr.check.set _ 0 = iph
  have hzero : load16 (Eth.payload iph) 10 = 0 := by
    refine (load16_eq_get _ 24).trans ?_
    change Iphdr.check.get _ = _
    rw [← hiph, Field.get_set (by decide)]
  have hstore : Eth.payload (Iphdr.check.set iph (env.ipFastCsum (Eth.payload iph) 5)) = _ :=
    payload_set iph 10 _
  rw [hstore]
  exact hcsum.verifies _ 5 (by decide) hzero

end IpHeader

/-! ### ICMP messages -/

/-- The frame is an ICMP message with these fields, the identifier and the sequence number as they lie in
memory. -/
structure Carries (frame : Packet) (icmpType : U8) (saddr daddr : U32) (icmpId icmpSeq : U16)
    (icmpd : Packet) (len : U16) : Prop where
  proto : htons (Eth.hProto.get frame) = Eth.pIp
  ip : IpPacket frame 1 saddr daddr (8 + len)
  icmpType : (Eth.payload frame).icmph 0 = icmpType
  icmpCode : (Eth.payload frame).icmph 1 = 0
  icmpId : load16 (Eth.payload frame).icmph 4 = icmpId
  icmpSeq : load16 (Eth.payload frame).icmph 6 = icmpSeq
  icmpd : ∀ i < len.toNat, (Eth.payload frame).icmph (8 + i) = icmpd i

section Messages

variable {cfg : NetConfig} {env : NetEnv} {s s' : ArpState} {saddr daddr : U32} {icmpId icmpSeq : U16}
  {icmpd buf msg frame : Packet} {len : U16} {f : IcmpFields} {fuel : ℕ} {ifidx : ℤ}

/-- The message that `ICMP_output` builds. -/
theorem icmpOutput_message (h : CmtTcp.icmpOutput (some buf) f (env.oddByte true) = some msg)
    (hlen : 8 + f.len.toNat ≤ 65535) :
    msg 0 = f.icmpType ∧ msg 1 = f.icmpCode ∧ load16 msg 4 = htons f.icmpId ∧
      load16 msg 6 = htons f.icmpSeq ∧ (∀ i < f.len.toNat, msg (8 + i) = f.icmpd i) ∧
      ∀ received, oddExtra (env.oddByte true) (8 + f.len.toNat) = 0 →
        oddExtra received (8 + f.len.toNat) = 0 →
        icmpCheckSum msg (8 + f.len.toNat : ℕ) received = some 0 := by
  obtain ⟨c, hc, hval⟩ := icmpCheckSum_eq (icmpMessage buf f) (env.oddByte true) hlen
  have hmsg : store16 (icmpMessage buf f) 2 c = msg := by
    unfold CmtTcp.icmpOutput at h
    rw [Option.bind_some, show (8 + f.len.toNat : ℤ) = ((8 + f.len.toNat : ℕ) : ℤ) by omega] at h
    dsimp only at h
    rw [hc] at h
    exact Option.some.inj h
  subst hmsg
  have hfields : ∀ i, i ≠ 2 → i ≠ 3 → store16 (icmpMessage buf f) 2 c i = icmpMessage buf f i :=
    fun i h₀ h₁ => store16_of_ne h₀ h₁
  -- the eight bytes of the header, the checksum being 0
  obtain ⟨head, hdef⟩ : ∃ head : Packet, head = store16 (store16 (store16
      (Function.update (Function.update buf 0 f.icmpType) 1 f.icmpCode) 2 0) 4 (htons f.icmpId)) 6
      (htons f.icmpSeq) := ⟨_, rfl⟩
  have hhead : ∀ i < 8, icmpMessage buf f i = head i := by
    intro i hi
    rw [hdef]
    exact if_neg (by omega)
  have hload : ∀ i < 7, load16 (icmpMessage buf f) i = load16 head i := by
    intro i hi
    unfold load16
    rw [hhead i (by omega), hhead (i + 1) (by omega)]
  refine ⟨?_, ?_, ?_, ?_, fun i hi => ?_, fun received hsent hreceived => ?_⟩
  · rw [hfields 0 (by decide) (by decide), hhead 0 (by decide), hdef]
    simp [store16, Function.update]
  · rw [hfields 1 (by decide) (by decide), hhead 1 (by decide), hdef]
    simp [store16, Function.update]
  · rw [load16_store16_of_ne (by decide), hload 4 (by decide), hdef, load16_store16_of_ne (by decide),
      load16_store16]
  · rw [load16_store16_of_ne (by decide), hload 6 (by decide), hdef, load16_store16]
  · rw [hfields _ (by omega) (by omega)]
    have hdata : icmpMessage buf f (8 + i) = f.icmpd (8 + i - 8) := if_pos ⟨by omega, by omega⟩
    rw [hdata, Nat.add_sub_cancel_left]
  · rw [hsent, Nat.add_zero] at hval
    exact (icmpCheckSum_stored_iff received hlen (by omega) (icmpMessage_check buf f) hval).mpr hreceived

theorem toNat_totLen (hlen : 28 + len.toNat < 2 ^ 16) : (20 + (8 + len) : U16).toNat = 28 + len.toNat := by
  rw [BitVec.toNat_add, BitVec.toNat_add, Nat.add_mod_mod]
  change (20 + (8 + len.toNat)) % 2 ^ 16 = _
  omega

/-- **What `ICMP_output` sends** carries what it was called with, and both checksums verify where the stack
leaves nothing in the way. -/
theorem icmpOutput_carries (hcode : f.icmpCode = 0) (hlen : 28 + f.len.toNat < 2 ^ 16)
    (h : Eth.icmpOutput cfg env s saddr daddr f fuel = .ok (s', some frame)) :
    Carries frame f.icmpType saddr daddr (htons f.icmpId) (htons f.icmpSeq) f.icmpd f.len ∧
      (env.txRc = -1 → IpCsum env.ipFastCsum → env.ipFastCsum (Eth.payload frame) 5 = 0) ∧
      ∀ received, oddExtra (env.oddByte true) (8 + f.len.toNat) = 0 →
        oddExtra received (8 + f.len.toNat) = 0 →
        icmpCheckSum (Eth.payload frame).icmph (8 + f.len.toNat : ℕ) received = some 0 := by
  obtain ⟨nif, isExternal, haddr, -, -, hheaded⟩ := (Eth.icmpOutput_frame h).2 frame rfl
  unfold Eth.icmpOutput at h
  cases hip : Eth.ipOutputStandalone cfg env s 1 0 saddr daddr (8 + f.len) fuel with
  | error e =>
    rw [hip] at h
    cases h
  | ok r =>
    rw [hip] at h
    obtain ⟨s₁, iph⟩ := r
    have hout := congrArg Prod.snd (Except.ok.inj h)
    obtain ⟨frame₀, rfl, hmap⟩ := Option.bind_eq_some_iff.mp hout
    obtain ⟨msg, hmsg, rfl⟩ := Option.map_eq_some_iff.mp hmap
    obtain ⟨_, _, _, eth, -, -, -, rfl⟩ := (Eth.ipOutputStandalone_frame hip).2 frame₀ rfl
    generalize hiph : Eth.ipHeader env 1 0 saddr daddr (8 + f.len) eth = iph at *
    -- the message is behind the first 34 bytes
    have hhead : ∀ i < 34, (if i < 34 then iph i else msg (i - 34)) = iph i := fun i hi => if_pos hi
    have hpacket : IpPacket (fun i => if i < 34 then iph i else msg (i - 34)) 1 saddr daddr (8 + f.len) := by
      refine IpPacket.congr ?_ hhead
      rw [← hiph]
      exact ipHeader_packet
    have hicmph : (Eth.payload fun i => if i < 34 then iph i else msg (i - 34)).icmph = msg := by
      funext i
      unfold Packet.icmph Packet.nextOffset
      rw [hpacket.ihl]
      have hpos : ¬14 + (5 * 4 + i) < 34 := by omega
      have hoff : 14 + (5 * 4 + i) - 34 = i := by omega
      refine (if_neg hpos).trans ?_
      change msg (14 + (5 * 4 + i) - 34) = msg i
      rw [hoff]
    obtain ⟨htype, hcode', hid, hseq, hdata, hsum⟩ := icmpOutput_message hmsg (by omega)
    refine ⟨⟨hheaded.proto, hpacket, ?_, ?_, ?_, ?_, ?_⟩, fun hrc hcsum => ?_, ?_⟩
    · rw [hicmph, htype]
    · rw [hicmph, hcode', hcode]
    · rw [hicmph, hid]
    · rw [hicmph, hseq]
    · rw [hicmph]
      exact hdata
    · have hsame : env.ipFastCsum (Eth.payload fun i => if i < 34 then iph i else msg (i - 34)) 5 =
          env.ipFastCsum (Eth.payload iph) 5 := by
        refine hcsum.congr _ _ 5 fun i hi => hhead (14 + i) ?_
        change i < 20 at hi
        omega
      rw [hsame, ← hiph]
      exact ipHeader_csum hcsum hrc
    · rw [hicmph]
      exact hsum

/-- The receiver takes an echo request to one of its addresses for what it is. -/
theorem processPacket_echo (s : ArpState) (fuel : ℕ) {req : Packet}
    (hreq : Carries req 8 saddr daddr icmpId icmpSeq icmpd len)
    (hlen : 28 + len.toNat < 2 ^ 16) (hip : env.rxRc = -1 → env.ipFastCsum (Eth.payload req) 5 = 0)
    (hif : env.promiscuousMode = true ∨ (cfg.eths ifidx).ipAddr = daddr) (hmine : daddr ∈ cfg.ethAddrs)
    (hsum : icmpCheckSum (Eth.payload req).icmph (8 + len.toNat : ℕ) (env.oddByte false) = some 0) :
    Eth.processPacket cfg env s ifidx req fuel = Eth.icmpOutput cfg env s daddr saddr
      { icmpType := 0, icmpCode := 0, icmpId := htons icmpId, icmpSeq := htons icmpSeq,
        icmpd := fun i => Eth.payload req (28 + i), len := len } fuel := by
  have htot : (Eth.payload req).totLen.toNat = 28 + len.toNat := by
    rw [hreq.ip.totLen, toNat_totLen hlen]
  have hoff : (Eth.payload req).nextOffset = 20 := by
    unfold Packet.nextOffset
    rw [hreq.ip.ihl]
    rfl
  unfold Eth.processPacket
  dsimp only
  rw [if_pos hreq.proto]
  unfold Eth.processIPv4Packet
  dsimp only
  -- `process_IPv4_packet` hands it to ICMP
  have hverdict : ∀ e : IpEnv, (e.rc = -1 → e.ipFastCsum (Eth.payload req) 5 = 0) →
      (e.promiscuousMode = true ∨ e.ifAddr = daddr) →
      CmtTcp.processIPv4Packet e (Eth.payload req) = .processIcmp (28 + len.toNat) := by
    intro e he hfor
    unfold CmtTcp.processIPv4Packet
    dsimp only
    rw [htot, hreq.ip.ihl, hreq.ip.daddr, hreq.ip.version, hreq.ip.protocol, if_neg (by omega),
      if_neg fun hbad => hbad.2 (he hbad.1), if_neg fun hbad => hfor.elim hbad.1 fun heq => hbad.2 heq.symm,
      if_neg (by decide), if_neg (by decide), if_pos rfl]
  rw [hverdict _ hip hif]
  dsimp only
  -- there it is an echo request, and its checksum is right
  have hicmp : ∀ e : IpEnv, e.ethAddrs = cfg.ethAddrs →
      processIcmpPacket e (Eth.payload req) (28 + len.toNat : ℕ) (env.oddByte false) =
        .reply ⟨daddr, saddr, htons icmpId, htons icmpSeq, 28, len⟩ := by
    intro e he
    have hrest : ((28 + len.toNat : ℕ) : ℤ) - (20 : ℕ) = (8 + len.toNat : ℕ) := by omega
    have hdata : BitVec.ofInt 16 (((8 + len.toNat : ℕ) : ℤ) - 8) = len := by
      have hcast : ((8 + len.toNat : ℕ) : ℤ) - 8 = (len.toNat : ℕ) := by omega
      rw [hcast, BitVec.ofInt_natCast, BitVec.ofNat_toNat, BitVec.setWidth_eq]
    unfold processIcmpPacket
    rw [he, hreq.ip.daddr, if_neg (not_not.mpr hmine), hreq.icmpType, if_pos rfl]
    unfold processIcmpEchoRequest
    rw [hoff, hrest, hsum]
    dsimp only
    rw [if_neg (not_not.mpr rfl), hreq.ip.daddr, hreq.ip.saddr, hreq.icmpId, hreq.icmpSeq, hdata]
  rw [hicmp _ rfl]

/-- The stack finds a route to `daddr`, the hardware address `haddr` for it, and a buffer. -/
structure CanReach (cfg : NetConfig) (env : NetEnv) (s : ArpState) (daddr : U32) (haddr : HwAddr)
    (nif : ℤ) (isExternal : U8) : Prop where
  route : getOutputInterface (cfg.gateway.map Gateway.nif) cfg.rtable daddr = some (nif, isExternal)
  found : getDestinationHwAddr s.t daddr isExternal = some haddr
  port : 0 ≤ nif
  eidx : 0 ≤ cfg.nifToEidx nif
  buffers : ∀ n, (env.getWptr (cfg.nifToEidx nif) n).isSome

theorem icmpOutput_isSome (saddr : U32) (fuel : ℕ) {haddr : HwAddr} {nif : ℤ} {isExternal : U8}
    (h : CanReach cfg env s daddr haddr nif isExternal) (hlen : 8 + f.len.toNat ≤ 65535) :
    ∃ frame, Eth.icmpOutput cfg env s saddr daddr f fuel = .ok (s, some frame) := by
  obtain ⟨eth, heth⟩ := Eth.ethernetOutput_isSome Eth.pIp haddr (8 + f.len + 20).toNat h.port h.eidx
    h.buffers
  -- the headers, in a buffer of the interface
  have hip : Eth.ipOutputStandalone cfg env s 1 0 saddr daddr (8 + f.len) fuel =
      .ok (s, some (Eth.ipHeader env 1 0 saddr daddr (8 + f.len) eth)) := by
    unfold Eth.ipOutputStandalone
    rw [h.route]
    dsimp only
    rw [h.found]
    dsimp only
    rw [heth]
    rfl
  generalize Eth.ipHeader env 1 0 saddr daddr (8 + f.len) eth = iph at hip
  -- the message behind them
  obtain ⟨msg, hmsg⟩ : ∃ msg, CmtTcp.icmpOutput (some fun i => iph (34 + i)) f (env.oddByte true) =
      some msg := by
    obtain ⟨c, hc, -⟩ := icmpCheckSum_eq (icmpMessage (fun i => iph (34 + i)) f) (env.oddByte true) hlen
    unfold CmtTcp.icmpOutput
    rw [Option.bind_some, show (8 + f.len.toNat : ℤ) = ((8 + f.len.toNat : ℕ) : ℤ) by omega]
    dsimp only
    rw [hc]
    exact ⟨_, rfl⟩
  refine ⟨fun i => if i < 34 then iph i else msg (i - 34), ?_⟩
  unfold Eth.icmpOutput
  rw [hip]
  change (Except.ok (s, (CmtTcp.icmpOutput (some fun i => iph (34 + i)) f (env.oddByte true)).map
    fun icmph i => if i < 34 then iph i else icmph (i - 34)) : Except Eth.NetFault _) = _
  rw [hmsg]
  rfl

end Messages

/-! ### The round trip -/

/-- What the stack holds for `odd_byte` does not show in the checksum of a message of `n` bytes. -/
def NetEnv.Clean (env : NetEnv) (n : ℕ) : Prop := n % 2 = 0 ∨ ∀ b, oddHigh (env.oddByte b) = 0

theorem NetEnv.Clean.oddExtra {env : NetEnv} {n : ℕ} (h : env.Clean n) (b : Bool) :
    CmtTcp.oddExtra (env.oddByte b) n = 0 :=
  oddExtra_eq_zero.mpr (h.imp_right fun hall => hall b)

/-- The network card of the receiver checks the headers, or the two stacks have the same `ip_fast_csum`. -/
def HeaderChecked (sender receiver : NetEnv) : Prop :=
  receiver.rxRc ≠ -1 ∨
    sender.txRc = -1 ∧ IpCsum sender.ipFastCsum ∧ receiver.ipFastCsum = sender.ipFastCsum

/-- A header of a frame whose sender computes checksums passes. -/
theorem HeaderChecked.passes {sender receiver : NetEnv} {frame : Packet}
    (h : HeaderChecked sender receiver)
    (hsum : sender.txRc = -1 → IpCsum sender.ipFastCsum → sender.ipFastCsum (Eth.payload frame) 5 = 0) :
    receiver.rxRc = -1 → receiver.ipFastCsum (Eth.payload frame) 5 = 0 := by
  intro hrc
  rcases h with h | ⟨htx, hcsum, hsame⟩
  · exact absurd hrc h
  · rw [hsame]
    exact hsum htx hcsum

/-- **The round trip of an echo request.** For every identifier, sequence number and up to 65507 bytes of
data: if the frame that `request_ICMP` sends gets to a host that has its destination address and can reach
its source address, the host answers with a frame to the hardware address that it finds, an echo reply with
the addresses exchanged and with the same identifier, sequence number and data, whose checksums verify; as
long as the length is even or nothing is left in `odd_byte`. -/
theorem ping_round_trip {cfg cfg' : NetConfig} {env env' : NetEnv} {s s₁ s' : ArpState}
    {saddr daddr : U32} {icmpId icmpSequence : U16} {icmpd req : Packet} {len : U16} {fuel : ℕ}
    {haddr : HwAddr} {nif ifidx : ℤ} {isExternal : U8} (hlen : 28 + len.toNat < 2 ^ 16)
    (hreq : Eth.requestIcmp cfg env s saddr daddr icmpId icmpSequence icmpd len fuel = .ok (s₁, some req))
    (hclean : env.Clean (8 + len.toNat)) (hclean' : env'.Clean (8 + len.toNat))
    (hheader : HeaderChecked env env')
    (hif : env'.promiscuousMode = true ∨ (cfg'.eths ifidx).ipAddr = daddr) (hmine : daddr ∈ cfg'.ethAddrs)
    (hreach : CanReach cfg' env' s' saddr haddr nif isExternal) (fuel' : ℕ) :
    ∃ rep, Eth.processPacket cfg' env' s' ifidx req fuel' = .ok (s', some rep) ∧
      Eth.hDest.get rep = haddr ∧ Carries rep 0 daddr saddr icmpId icmpSequence icmpd len ∧
      (env'.txRc = -1 → IpCsum env'.ipFastCsum → env'.ipFastCsum (Eth.payload rep) 5 = 0) ∧
      ∀ receiver : NetEnv, receiver.Clean (8 + len.toNat) →
        icmpCheckSum (Eth.payload rep).icmph (8 + len.toNat : ℕ) (receiver.oddByte false) = some 0 := by
  obtain ⟨hcarries, hip, hsum⟩ := icmpOutput_carries rfl hlen hreq
  dsimp only at hcarries hsum
  rw [htons_htons, htons_htons] at hcarries
  have hecho := processPacket_echo s' fuel' hcarries hlen (hheader.passes hip) hif hmine
    (hsum _ (hclean.oddExtra true) (hclean'.oddExtra false))
  obtain ⟨rep, hrep⟩ := icmpOutput_isSome daddr fuel'
    (f := ⟨0, 0, htons icmpId, htons icmpSequence, fun i => Eth.payload req (28 + i), len⟩) hreach
    (by dsimp only; omega)
  obtain ⟨hcarries', hip', hsum'⟩ := icmpOutput_carries rfl hlen hrep
  dsimp only at hcarries' hsum'
  rw [htons_htons, htons_htons] at hcarries'
  obtain ⟨nif', isExternal', haddr', hroute, hfound, hheaded⟩ := (Eth.icmpOutput_frame hrep).2 rep rfl
  -- the data of the reply is that of the request
  have hdata : ∀ i < len.toNat, (Eth.payload rep).icmph (8 + i) = icmpd i := by
    intro i hi
    have hicmph : (Eth.payload req).icmph (8 + i) = Eth.payload req (28 + i) := by
      unfold Packet.icmph Packet.nextOffset
      rw [hcarries.ip.ihl]
      exact congrArg (Eth.payload req) (by change 20 + (8 + i) = 28 + i; omega)
    rw [hcarries'.icmpd i hi, ← hicmph]
    exact hcarries.icmpd i hi
  refine ⟨rep, hecho.trans hrep, ?_, ⟨hcarries'.proto, hcarries'.ip, hcarries'.icmpType,
    hcarries'.icmpCode, hcarries'.icmpId, hcarries'.icmpSeq, hdata⟩, hip', fun receiver hc => ?_⟩
  · rw [hreach.route] at hroute
    obtain ⟨rfl, rfl⟩ := Prod.mk.inj (Option.some.inj hroute)
    rw [hreach.found] at hfound
    rw [hheaded.dest, Option.some.inj hfound]
  · exact hsum' _ (hclean'.oddExtra true) (hc.oddExtra false)

/-! ### Two hosts behind a gateway -/

/-- A host with the address `ip`, which sends all packets to its gateway. -/
def routedHost (ip : U32) : NetConfig where
  eths := fun _ => { ifindex := 0, haddr := ip.setWidth 48, ipAddr := ip }
  ethsNum := 1
  nifToEidx := fun _ => 0
  gateway := some ⟨0x0100000a, 0⟩
  rtable := [⟨0, 0, 0, 0⟩]

/-- The host has heard of the gateway. -/
def knowsGateway : ArpState where
  t := registerArpEntry (some 0x0100000a) (initArpTable fun _ => ⟨0, 0, 0, 0, 0, 0⟩) 0x0100000a 0x0a
  g := initArp (fun _ => none) 0 ⟨none, 0, 0, 0, 0⟩

/-- Checksums of headers are computed in software. -/
def softwareEnv : NetEnv where
  getWptr := fun _ _ => some fun _ => 0
  rxRc := -1
  txRc := -1
  ipFastCsum := headerCsum
  promiscuousMode := false
  oddByte := fun _ => 0
  curTs := 0
  obj := none

theorem routedHost_reaches (ip daddr : U32) :
    CanReach (routedHost ip) softwareEnv knowsGateway daddr 0x0a 0 1 where
  route := by
    have hmatch : daddr &&& (0 : U32) = 0 := BitVec.and_zero
    unfold getOutputInterface routedHost routeLoop
    dsimp only
    rw [if_pos hmatch]
    rfl
  found := rfl
  port := Int.le_refl 0
  eidx := Int.le_refl 0
  buffers := fun _ => rfl

/-- A ping with three bytes of data. -/
theorem ping_round_trip_routed :
    ∃ req rep, Eth.requestIcmp (routedHost 0x0200000a) softwareEnv knowsGateway 0x0200000a 0x0300000a 1 7
        (fun _ => 0x61) 3 0 = .ok (knowsGateway, some req) ∧
      Eth.processPacket (routedHost 0x0300000a) softwareEnv knowsGateway 0 req 0 =
        .ok (knowsGateway, some rep) ∧
      Carries rep 0 0x0300000a 0x0200000a 1 7 (fun _ => 0x61) 3 := by
  obtain ⟨req, hreq⟩ := icmpOutput_isSome 0x0200000a 0 (f := ⟨8, 0, htons 1, htons 7, fun _ => 0x61, 3⟩)
    (routedHost_reaches 0x0200000a 0x0300000a) (by decide)
  have hclean : softwareEnv.Clean 11 := .inr fun _ => show oddHigh 0 = 0 by decide
  have hif : softwareEnv.promiscuousMode = true ∨ ((routedHost 0x0300000a).eths 0).ipAddr = 0x0300000a :=
    .inr rfl
  obtain ⟨rep, hrep, -, hcarries, -⟩ := ping_round_trip (by decide) hreq hclean hclean
    (.inr ⟨rfl, headerCsum_ipCsum, rfl⟩) hif (by decide) (routedHost_reaches 0x0300000a 0x0200000a) 0
  exact ⟨req, rep, hreq, hrep, hcarries⟩

end CmtTcp
