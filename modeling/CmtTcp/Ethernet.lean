import CmtTcp.ArpTable
import CmtTcp.Icmp
import CmtTcp.Lib.Layout
import CmtTcp.Route

/-!
# Frames of the network layers

The bytes that `ethernet_output`, `ARP_output` and `IP_output_standalone` put into a buffer, and what
`process_packet`, `process_ARP_packet` and `process_IPv4_packet` read of such a frame. A frame is the memory
from its Ethernet header on.

* `requestArp_ok_iff`: a call of `request_ARP` that returns has not come to its broadcast;
* `arpOutput_frame`: a receiver reads of an ARP packet what its sender was called with;
* `ipOutputStandalone_frame`: the same of an IP header.
-/

namespace CmtTcp

open Lib (Field)

/-! ### The configuration -/

/-- `eth_table` -/
structure EthTable where
  ifindex : ℤ
  haddr : HwAddr
  ipAddr : U32

/-- `config.gateway` -/
structure Gateway where
  daddr : U32
  nif : ℤ

/-- `config`; the interfaces lie in the memory from `eths[0]` on. -/
structure NetConfig where
  eths : ℤ → EthTable
  ethsNum : ℕ
  nifToEidx : ℤ → ℤ
  gateway : Option Gateway
  rtable : List RouteEntry

/-- `config.eths[i].ip_addr` -/
def NetConfig.ethAddrs (cfg : NetConfig) : List U32 :=
  (List.range cfg.ethsNum).map fun i : ℕ => (cfg.eths i).ipAddr

/-- What a call depends on beside its arguments. -/
structure NetEnv where
  /-- `get_wptr`, by the interface and the size asked for -/
  getWptr : ℤ → ℕ → Option Packet
  /-- The answer of `dev_ioctl` to `PKT_RX_IP_CSUM`, `-1` where there is none. -/
  rxRc : ℤ
  /-- The answer of `dev_ioctl` to a packet that is sent, `-1` where there is none. -/
  txRc : ℤ
  ipFastCsum : Packet → BitVec 4 → U16
  promiscuousMode : Bool
  /-- What the stack holds for `odd_byte` where a checksum is tested, and where one is computed. -/
  oddByte : Bool → U16
  curTs : U32
  /-- What `cmt_pcalloc` yields for an `arp_queue_entry`. -/
  obj : Option Addr

/-! ### The layout of a frame -/

namespace Eth

def hDest : Field 48 := ⟨0⟩
def hSource : Field 48 := ⟨6⟩
def hProto : Field 16 := ⟨12⟩

/-- `ETH_P_IP` -/
def pIp : U16 := 0x0800

/-- `ETH_P_ARP` -/
def pArp : U16 := 0x0806

/-- What is behind the Ethernet header. -/
def payload (frame : Packet) : Packet := fun i => frame (14 + i)

end Eth

namespace Arphdr

def arHrd : Field 16 := ⟨14⟩
def arPro : Field 16 := ⟨16⟩
def arHln : Field 8 := ⟨18⟩
def arPln : Field 8 := ⟨19⟩
def arOp : Field 16 := ⟨20⟩
def arSha : Field 48 := ⟨22⟩
def arSip : Field 32 := ⟨28⟩
def arTha : Field 48 := ⟨32⟩
def arTip : Field 32 := ⟨38⟩
def pad : Field 144 := ⟨42⟩

/-- `arp_op_request` -/
def opRequest : U16 := 1

/-- `arp_op_reply` -/
def opReply : U16 := 2

end Arphdr

namespace Iphdr

/-- `ihl` and `version` -/
def ihlVersion : Field 8 := ⟨14⟩
def tos : Field 8 := ⟨15⟩
def totLen : Field 16 := ⟨16⟩
def id : Field 16 := ⟨18⟩
def fragOff : Field 16 := ⟨20⟩
def ttl : Field 8 := ⟨22⟩
def protocol : Field 8 := ⟨23⟩
def check : Field 16 := ⟨24⟩
def saddr : Field 32 := ⟨26⟩
def daddr : Field 32 := ⟨30⟩

end Iphdr

/-! ### Sending -/

namespace Eth

section Output

variable (cfg : NetConfig) (env : NetEnv)

/-- `ethernet_output` -/
def ethernetOutput (hProto : U16) (nif : ℤ) (dstHaddr : HwAddr) (iplen : ℕ) : Option Packet :=
  if nif < 0 then none
  else
    let eidx := cfg.nifToEidx nif
    if eidx < 0 then none
    else
      (env.getWptr eidx (iplen + 14)).map fun ethh =>
        let ethh := Eth.hSource.set ethh (cfg.eths eidx).haddr
        let ethh := Eth.hDest.set ethh dstHaddr
        Eth.hProto.set ethh (htons hProto)

/-- `ARP_output`; `none` where it returns `-1`. -/
def arpOutput (nif : ℤ) (opcode : U16) (dstIp : U32) (dstHaddr targetHaddr : Option HwAddr) :
    Option Packet :=
  match dstHaddr with
  | none => none
  | some dstHaddr =>
    -- `sizeof(struct arphdr)`
    (ethernetOutput cfg env Eth.pArp nif dstHaddr 46).map fun arph =>
      let arph := Arphdr.arHrd.set arph (htons 1)
      let arph := Arphdr.arPro.set arph (htons Eth.pIp)
      let arph := Arphdr.arHln.set arph 6
      let arph := Arphdr.arPln.set arph 4
      let arph := Arphdr.arOp.set arph (htons opcode)
      let edix := cfg.nifToEidx nif
      let arph := Arphdr.arSip.set arph (cfg.eths edix).ipAddr
      let arph := Arphdr.arTip.set arph dstIp
      let arph := Arphdr.arSha.set arph (cfg.eths edix).haddr
      let arph := Arphdr.arTha.set arph (targetHaddr.getD dstHaddr)
      Arphdr.pad.set arph 0

/-- The header of `IP_output_standalone`, in a frame. -/
def ipHeader (protocol : U8) (ipId : U16) (saddr daddr : U32) (payloadlen : U16) (frame : Packet) :
    Packet :=
  -- `IP_HEADER_LEN >> 2` and the version
  let iph := Iphdr.ihlVersion.set frame 0x45
  let iph := Iphdr.tos.set iph 0
  let iph := Iphdr.totLen.set iph (htons (20 + payloadlen))
  let iph := Iphdr.id.set iph (htons ipId)
  -- `IP_DF`
  let iph := Iphdr.fragOff.set iph (htons 0x4000)
  let iph := Iphdr.ttl.set iph 64
  let iph := Iphdr.protocol.set iph protocol
  let iph := Iphdr.saddr.set iph saddr
  let iph := Iphdr.daddr.set iph daddr
  let iph := Iphdr.check.set iph 0
  if env.txRc = -1 then Iphdr.check.set iph (env.ipFastCsum (Eth.payload iph) 5) else iph

/-- How a call fails to return. -/
inductive NetFault
  /-- `request_ARP` or `process_ARP_reply` does not return -/
  | arp (f : ArpFault)
  /-- the assertion of `get_output_interface` or of `ICMP_check_sum` fails -/
  | assertFails
  /-- `CONFIG.gateway` is asked for its address, and is `NULL` -/
  | noGateway
deriving DecidableEq

/-- `request_ARP`, with the broadcast behind its loops; they are cut off after `fuel` rounds. -/
def requestArp (s : ArpState) (ip : U32) (nif : ℤ) (fuel : ℕ) :
    Except NetFault (ArpState × Option Packet) :=
  match s.g.deref (some s.g.workingList) >>= fun head => pendingLoop s.g ip fuel head.arpLink with
  | .error f => .error (.arp f)
  | .ok true => .ok (s, none)
  | .ok false =>
    match env.obj with
    | none => .ok (s, none)
    | some ent =>
      let e : ArpQueueEntry :=
        { arpLink := none, ip := ip, nifOut := nif, tsOut := env.curTs, flag := 1 }
      match insertLoop ent fuel { s.g with heap := Function.update s.g.heap ent (some e) } with
      | .error f => .error (.arp f)
      | .ok g =>
        -- `haddr` is all ones and `taddr` all zeros
        .ok ({ s with g := g },
          arpOutput cfg env nif Arphdr.opRequest ip (some (BitVec.allOnes 48)) (some 0))

/-- `IP_output_standalone`, with the loops of `request_ARP` cut off after `fuel` rounds. A call of
`request_ARP` that returns has sent nothing (`requestArp_ok_iff`). -/
def ipOutputStandalone (s : ArpState) (protocol : U8) (ipId : U16) (saddr daddr : U32)
    (payloadlen : U16) (fuel : ℕ) : Except NetFault (ArpState × Option Packet) :=
  match getOutputInterface (cfg.gateway.map Gateway.nif) cfg.rtable daddr with
  | none => .error .assertFails
  | some (nif, isExternal) =>
    match getDestinationHwAddr s.t daddr isExternal with
    | none =>
      -- `CONFIG.gateway` is there if the route is external
      let ip := if isExternal ≠ 0 then (cfg.gateway.map Gateway.daddr).getD 0 else daddr
      match CmtTcp.requestArp s.g ip nif env.curTs env.obj fuel with
      | .error f => .error (.arp f)
      | .ok g => .ok ({ s with g := g }, none)
    | some haddr =>
      -- the sum is cut to the 16 bits of `iplen`
      .ok (s, (ethernetOutput cfg env Eth.pIp nif haddr (payloadlen + 20).toNat).map
        (ipHeader env protocol ipId saddr daddr payloadlen))

/-- `ICMP_output`: the message follows the IP header. -/
def icmpOutput (s : ArpState) (saddr daddr : U32) (f : IcmpFields) (fuel : ℕ) :
    Except NetFault (ArpState × Option Packet) := do
  -- `IPPROTO_ICMP`, and `sizeof(struct icmphdr) + len` cut to 16 bits
  let (s, iph) ← ipOutputStandalone cfg env s 1 0 saddr daddr (8 + f.len) fuel
  .ok (s, iph.bind fun frame =>
    (CmtTcp.icmpOutput (some fun i => frame (34 + i)) f (env.oddByte true)).map fun icmph i =>
      if i < 34 then frame i else icmph (i - 34))

/-- `request_ICMP` -/
def requestIcmp (s : ArpState) (saddr daddr : U32) (icmpId icmpSequence : U16) (icmpd : Packet)
    (len : U16) (fuel : ℕ) : Except NetFault (ArpState × Option Packet) :=
  icmpOutput cfg env s saddr daddr
    -- `ICMP_ECHO`
    { icmpType := 8, icmpCode := 0, icmpId := htons icmpId, icmpSeq := htons icmpSequence,
      icmpd := icmpd, len := len } fuel

/-! ### Receiving -/

/-- `process_ARP_packet` -/
def processArpPacket (s : ArpState) (ifidx : ℤ) (pktData : Packet) (fuel : ℕ) :
    Except NetFault (ArpState × Option Packet) :=
  if Arphdr.arTip.get pktData ∉ cfg.ethAddrs then .ok (s, none)
  else
    let sip := Arphdr.arSip.get pktData
    let sha := Arphdr.arSha.get pktData
    let gatewayDaddr := cfg.gateway.map Gateway.daddr
    let op := htons (Arphdr.arOp.get pktData)
    if op = Arphdr.opRequest then
      match processArpMsg gatewayDaddr s ⟨.request, sip, sha⟩ fuel with
      | .error f => .error (.arp f)
      | .ok s => .ok (s, arpOutput cfg env (cfg.eths ifidx).ifindex Arphdr.opReply sip (some sha) none)
    else if op = Arphdr.opReply then
      match processArpMsg gatewayDaddr s ⟨.reply, sip, sha⟩ fuel with
      | .error f => .error (.arp f)
      | .ok s => .ok (s, none)
    else .ok (s, none)

/-- `process_IPv4_packet`, up to TCP packets; they are answered by other functions. -/
def processIPv4Packet (s : ArpState) (ifidx : ℤ) (pktData : Packet) (fuel : ℕ) :
    Except NetFault (ArpState × Option Packet) :=
  let iph := Eth.payload pktData
  let e : IpEnv :=
    { rc := env.rxRc
      ipFastCsum := env.ipFastCsum
      promiscuousMode := env.promiscuousMode
      ifAddr := (cfg.eths ifidx).ipAddr
      ethAddrs := cfg.ethAddrs }
  match CmtTcp.processIPv4Packet e iph with
  | .processIcmp ipLen =>
    match processIcmpPacket e iph ipLen (env.oddByte false) with
    | .assertFails => .error .assertFails
    | .reply r =>
      icmpOutput cfg env s r.saddr r.daddr
        -- `ICMP_ECHOREPLY`
        { icmpType := 0, icmpCode := 0, icmpId := r.icmpId, icmpSeq := r.icmpSeq,
          icmpd := fun i => iph (r.data + i), len := r.len } fuel
    | _ => .ok (s, none)
  | _ => .ok (s, none)

/-- `process_packet` -/
def processPacket (s : ArpState) (ifidx : ℤ) (pktData : Packet) (fuel : ℕ) :
    Except NetFault (ArpState × Option Packet) :=
  let ipProto := htons (Eth.hProto.get pktData)
  if ipProto = Eth.pIp then processIPv4Packet cfg env s ifidx pktData fuel
  else if ipProto = Eth.pArp then processArpPacket cfg env s ifidx pktData fuel
  else .ok (s, none)

end Output

/-- A call of `request_ARP` that returns has sent nothing: it never gets to its broadcast. -/
theorem requestArp_ok_iff {cfg : NetConfig} {env : NetEnv} {s s' : ArpState} {ip : U32} {nif : ℤ} {fuel : ℕ}
    {out : Option Packet} :
    requestArp cfg env s ip nif fuel = .ok (s', out) ↔
      CmtTcp.requestArp s.g ip nif env.curTs env.obj fuel = .ok s'.g ∧ s'.t = s.t ∧ out = none := by
  have hsame : (.ok (s, none) : Except NetFault (ArpState × Option Packet)) = .ok (s', out) ↔
      (.ok s.g : Except ArpFault ArpManager) = .ok s'.g ∧ s'.t = s.t ∧ out = none := by
    constructor
    · intro h
      cases h
      exact ⟨rfl, rfl, rfl⟩
    · rintro ⟨hg, ht, rfl⟩
      cases s
      cases s'
      cases hg
      cases ht
      rfl
  unfold requestArp CmtTcp.requestArp
  rw [← bind_assoc]
  cases s.g.deref (some s.g.workingList) >>= fun head => pendingLoop s.g ip fuel head.arpLink with
  | error f => exact ⟨nofun, fun h => nomatch h.1⟩
  | ok pending =>
    cases pending with
    | true => exact hsame
    | false =>
      cases env.obj with
      | none => exact hsame
      | some ent =>
        dsimp only
        -- the loop that puts the entry on the list does not come to its end
        refine iff_of_false (fun h => ?_) fun h => insertLoop_ne_ok h.1
        split at h
        · cases h
        · next hloop => exact insertLoop_ne_ok hloop

/-! ### What is in a frame -/

section Frames

variable {cfg : NetConfig} {env : NetEnv} {frame : Packet} {nif : ℤ}
  {dest source : HwAddr} {proto : U16} {iplen : ℕ}

/-- What the Ethernet header of a frame says. -/
structure Headed (frame : Packet) (dest source : HwAddr) (proto : U16) : Prop where
  dest : hDest.get frame = dest
  source : hSource.get frame = source
  proto : htons (hProto.get frame) = proto

/-- The header is in the first 14 bytes. -/
theorem Headed.congr {frame' : Packet}
    (h : Headed frame dest source proto) (hsame : ∀ i < 14, frame' i = frame i) :
    Headed frame' dest source proto := by
  have hfield : ∀ {w : ℕ} (f : Field w), f.pos + w / 8 ≤ 14 → f.get frame' = f.get frame := by
    intro w f hf
    refine Field.get_congr fun j hj => hsame j ?_
    unfold Field.Outside at hj
    omega
  exact ⟨(hfield _ (by decide)).trans h.dest, (hfield _ (by decide)).trans h.source,
    (congrArg htons (hfield _ (by decide))).trans h.proto⟩

theorem ethernetOutput_frame (h : ethernetOutput cfg env proto nif dest iplen = some frame) :
    0 ≤ nif ∧ 0 ≤ cfg.nifToEidx nif ∧
      Headed frame dest (cfg.eths (cfg.nifToEidx nif)).haddr proto := by
  unfold ethernetOutput at h
  split at h
  · cases h
  dsimp only at h
  split at h
  · cases h
  obtain ⟨buf, -, rfl⟩ := Option.map_eq_some_iff.mp h
  refine ⟨by omega, by omega, ?_, ?_, ?_⟩
  · simp (disch := decide) only [Field.get_set_of_apart, Field.get_set]
  · simp (disch := decide) only [Field.get_set_of_apart, Field.get_set]
  · simp (disch := decide) only [Field.get_set, htons_htons]

theorem ethernetOutput_isSome (proto : U16) (dst : HwAddr) (iplen : ℕ) (hnif : 0 ≤ nif)
    (heidx : 0 ≤ cfg.nifToEidx nif) (hbuf : ∀ n, (env.getWptr (cfg.nifToEidx nif) n).isSome) :
    ∃ frame, ethernetOutput cfg env proto nif dst iplen = some frame := by
  obtain ⟨buf, hbuf⟩ := Option.isSome_iff_exists.mp (hbuf (iplen + 14))
  unfold ethernetOutput
  rw [if_neg (by omega)]
  dsimp only
  rw [if_neg (by omega), hbuf]
  exact ⟨_, rfl⟩

/-- **The round trip of an ARP packet.** A receiver reads what the sender was called with, and the two
addresses of the interface it was sent from. -/
theorem arpOutput_frame {opcode : U16} {dstIp : U32} {dstHaddr targetHaddr : Option HwAddr}
    (h : arpOutput cfg env nif opcode dstIp dstHaddr targetHaddr = some frame) :
    ∃ dst, dstHaddr = some dst ∧ 0 ≤ nif ∧ 0 ≤ cfg.nifToEidx nif ∧
      Headed frame dst (cfg.eths (cfg.nifToEidx nif)).haddr pArp ∧
      htons (Arphdr.arOp.get frame) = opcode ∧ Arphdr.arTip.get frame = dstIp ∧
      Arphdr.arTha.get frame = targetHaddr.getD dst ∧
      Arphdr.arSip.get frame = (cfg.eths (cfg.nifToEidx nif)).ipAddr ∧
      Arphdr.arSha.get frame = (cfg.eths (cfg.nifToEidx nif)).haddr := by
  unfold arpOutput at h
  split at h
  · cases h
  next dst =>
  obtain ⟨arph, hout, rfl⟩ := Option.map_eq_some_iff.mp h
  obtain ⟨hnif, heidx, hheaded⟩ := ethernetOutput_frame hout
  refine ⟨dst, rfl, hnif, heidx, hheaded.congr fun i hi => ?_, ?_, ?_, ?_, ?_, ?_⟩
  · -- the ARP packet lies behind the header
    have hout : ∀ {w : ℕ} (f : Field w) (m : Packet) (v : BitVec w), 14 ≤ f.pos → f.set m v i = m i :=
      fun f m v hf => Field.set_of_outside (.inl (by omega))
    iterate 10 rw [hout _ _ _ (by decide)]
  · simp (disch := decide) only [Field.get_set_of_apart, Field.get_set, htons_htons]
  · simp (disch := decide) only [Field.get_set_of_apart, Field.get_set]
  · simp (disch := decide) only [Field.get_set_of_apart, Field.get_set]
  · simp (disch := decide) only [Field.get_set_of_apart, Field.get_set]
  · simp (disch := decide) only [Field.get_set_of_apart, Field.get_set]

/-- What `IP_output_standalone` does to a frame behind the Ethernet header alone. -/
theorem ipHeader_of_lt {protocol : U8} {ipId : U16} {saddr daddr : U32} {payloadlen : U16} {i : ℕ}
    (hi : i < 14) : ipHeader env protocol ipId saddr daddr payloadlen frame i = frame i := by
  have hout : ∀ {w : ℕ} (f : Field w) (m : Packet) (v : BitVec w), 14 ≤ f.pos → f.set m v i = m i :=
    fun f m v hf => Field.set_of_outside (.inl (by omega))
  unfold ipHeader
  split
  · iterate 11 rw [hout _ _ _ (by decide)]
  · iterate 10 rw [hout _ _ _ (by decide)]

/-- A packet is sent to the address that was found for its route, from the interface of the route. -/
theorem ipOutputStandalone_frame {s s' : ArpState} {protocol : U8} {ipId : U16} {saddr daddr : U32}
    {payloadlen : U16} {fuel : ℕ} {out : Option Packet}
    (h : ipOutputStandalone cfg env s protocol ipId saddr daddr payloadlen fuel = .ok (s', out)) :
    s'.t = s.t ∧ ∀ frame, out = some frame → ∃ nif isExternal haddr eth,
      getOutputInterface (cfg.gateway.map Gateway.nif) cfg.rtable daddr = some (nif, isExternal) ∧
      getDestinationHwAddr s.t daddr isExternal = some haddr ∧
      ethernetOutput cfg env pIp nif haddr (payloadlen + 20).toNat = some eth ∧
      frame = ipHeader env protocol ipId saddr daddr payloadlen eth := by
  unfold ipOutputStandalone at h
  split at h
  · cases h
  next nif isExternal hroute =>
  split at h
  · dsimp only at h
    split at h
    · cases h
    · cases h
      exact ⟨rfl, fun _ hf => by cases hf⟩
  next haddr hfound =>
  cases h
  refine ⟨rfl, fun frame hf => ?_⟩
  obtain ⟨eth, heth, rfl⟩ := Option.map_eq_some_iff.mp hf
  exact ⟨nif, isExternal, haddr, eth, hroute, hfound, heth, rfl⟩

/-- The same of an ICMP message. -/
theorem icmpOutput_frame {s s' : ArpState} {saddr daddr : U32} {f : IcmpFields} {fuel : ℕ}
    {out : Option Packet} (h : icmpOutput cfg env s saddr daddr f fuel = .ok (s', out)) :
    s'.t = s.t ∧ ∀ frame, out = some frame → ∃ nif isExternal haddr,
      getOutputInterface (cfg.gateway.map Gateway.nif) cfg.rtable daddr = some (nif, isExternal) ∧
      getDestinationHwAddr s.t daddr isExternal = some haddr ∧
      Headed frame haddr (cfg.eths (cfg.nifToEidx nif)).haddr pIp := by
  unfold icmpOutput at h
  cases hip : ipOutputStandalone cfg env s 1 0 saddr daddr (8 + f.len) fuel with
  | error e =>
    rw [hip] at h
    cases h
  | ok r =>
    rw [hip] at h
    obtain ⟨s₁, iph⟩ := r
    obtain ⟨ht, hframe⟩ := ipOutputStandalone_frame hip
    cases h
    refine ⟨ht, fun frame hf => ?_⟩
    obtain ⟨frame₀, hiph, hmap⟩ := Option.bind_eq_some_iff.mp hf
    obtain ⟨icmph, -, rfl⟩ := Option.map_eq_some_iff.mp hmap
    obtain ⟨nif, isExternal, haddr, eth, hroute, hfound, heth, rfl⟩ := hframe frame₀ hiph
    refine ⟨nif, isExternal, haddr, hroute, hfound, (ethernetOutput_frame heth).2.2.congr fun i hi => ?_⟩
    rw [if_pos (by omega)]
    exact ipHeader_of_lt hi

end Frames

end Eth

end CmtTcp
