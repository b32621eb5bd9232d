import CmtTcp.Lan
import CmtTcp.Ping
import CmtTcp.Tcp.Process

/-!
# The packets of a stream

`IP_output`, which puts the IP header in front of a segment of a stream, on a local network. The interface
that a stream is sent from is cached in it; `create_tcp_stream` sets the cache to `0`, a valid interface, so
that the routing table is never asked.

* `ipOutput`: the function, as far as the header;
* `StreamLanStep`: its calls between the other steps of the network;
* `stream_packets`: what the packets of a stream say, where they go, and when there is one.
-/

namespace CmtTcp

open Lib

/-! ### `IP_output` -/

/-- What `IP_output` reads and writes of a stream and its `sndvar`; `nif_out` is an `int8_t`. -/
structure OutStream where
  saddr : U32
  daddr : U32
  isExternal : BitVec 1
  nifOut : U8
  ipId : U16
deriving DecidableEq, Repr

/-- That part of a stream, with what its object holds for `is_external`. -/
def Stream.toOut {ρ : Type} (s : Stream ρ) (isExternal : BitVec 1) : OutStream where
  saddr := s.saddr
  daddr := s.daddr
  isExternal := isExternal
  nifOut := s.snd.nifOut
  ipId := s.snd.ipId

/-- A new stream has an interface cached, and no packet was counted. -/
theorem createTcpStream_cached {ρ : Type} {a : Arrival ρ} {saddr daddr : U32} {sport dport : U16}
    {s : Stream ρ} (h : createTcpStream a saddr sport daddr dport = some s) :
    s.snd.nifOut = 0 ∧ s.snd.ipId = 0 := by
  unfold createTcpStream at h
  split at h
  · rw [← Option.some.inj h]
    exact ⟨rfl, rfl⟩
  · cases h

namespace Eth

variable (cfg : NetConfig) (env : NetEnv)

/-- The first lines of `IP_output`: the interface is looked up unless there is one in the stream. -/
def cacheInterface (o : OutStream) : Option OutStream :=
  if 0 ≤ o.nifOut.toInt then some o
  else
    (getOutputInterface (cfg.gateway.map Gateway.nif) cfg.rtable o.daddr).map fun r =>
      { o with nifOut := BitVec.ofInt 8 r.1, isExternal := r.2.setWidth 1 }

/-- The address `IP_output` has resolved. -/
def nextHop (o : OutStream) : Option U32 :=
  if o.isExternal ≠ 0 then cfg.gateway.map Gateway.daddr else some o.daddr

/-- `IP_output`, with the loops of `request_ARP` cut off after `fuel` rounds. -/
def ipOutput (s : ArpState) (o : OutStream) (tcplen : U16) (fuel : ℕ) :
    Except NetFault (ArpState × OutStream × Option Packet) :=
  match cacheInterface cfg o with
  | none => .error .assertFails
  | some o =>
    match getDestinationHwAddr s.t o.daddr (o.isExternal.setWidth 8) with
    | none =>
      match nextHop cfg o with
      | none => .error .noGateway
      | some ip =>
        match CmtTcp.requestArp s.g ip o.nifOut.toInt env.curTs env.obj fuel with
        | .error f => .error (.arp f)
        | .ok g => .ok ({ s with g := g }, o, none)
    | some haddr =>
      match ethernetOutput cfg env Eth.pIp o.nifOut.toInt haddr (tcplen + 20).toNat with
      | none => .ok (s, o, none)
      | some iph =>
        -- `IPPROTO_TCP`
        .ok (s, { o with ipId := o.ipId + 1 },
          some (ipHeader env 6 o.ipId o.saddr o.daddr tcplen iph))

/-- A call that returns, of a stream with an interface. -/
theorem ipOutput_cases {cfg : NetConfig} {env : NetEnv} {s s' : ArpState} {o o' : OutStream} {tcplen : U16}
    {fuel : ℕ} {out : Option Packet} (h : ipOutput cfg env s o tcplen fuel = .ok (s', o', out))
    (hnif : 0 ≤ o.nifOut.toInt) :
    s'.t = s.t ∧
      (out = none ∧ o' = o ∧
          (getDestinationHwAddr s.t o.daddr (o.isExternal.setWidth 8) = none ∨
            ∃ haddr, ethernetOutput cfg env pIp o.nifOut.toInt haddr (tcplen + 20).toNat = none) ∨
        ∃ haddr eth, getDestinationHwAddr s.t o.daddr (o.isExternal.setWidth 8) = some haddr ∧
          ethernetOutput cfg env pIp o.nifOut.toInt haddr (tcplen + 20).toNat = some eth ∧
          o' = { o with ipId := o.ipId + 1 } ∧
          out = some (ipHeader env 6 o.ipId o.saddr o.daddr tcplen eth)) := by
  -- the interface is cached, so no route is looked up
  have hcache : cacheInterface cfg o = some o := if_pos hnif
  unfold ipOutput at h
  rw [hcache] at h
  dsimp only at h
  split at h
  next hmiss =>
    split at h
    · cases h
    · split at h
      · cases h
      · cases h
        exact ⟨rfl, .inl ⟨rfl, rfl, .inl hmiss⟩⟩
  next haddr hfound =>
    split at h
    next hnone =>
      cases h
      exact ⟨rfl, .inl ⟨rfl, rfl, .inr ⟨haddr, hnone⟩⟩⟩
    next eth heth =>
      cases h
      exact ⟨rfl, .inr ⟨haddr, eth, hfound, heth, rfl, rfl⟩⟩

/-- A call whose address is found returns. -/
theorem ipOutput_ok {cfg : NetConfig} {s : ArpState} {o : OutStream} {haddr : HwAddr} (env : NetEnv)
    (tcplen : U16) (fuel : ℕ) (hnif : 0 ≤ o.nifOut.toInt)
    (hfound : getDestinationHwAddr s.t o.daddr (o.isExternal.setWidth 8) = some haddr) :
    ∃ o' out, ipOutput cfg env s o tcplen fuel = .ok (s, o', out) := by
  have hcache : cacheInterface cfg o = some o := if_pos hnif
  unfold ipOutput
  rw [hcache]
  dsimp only
  rw [hfound]
  dsimp only
  split
  · exact ⟨_, _, rfl⟩
  · exact ⟨_, _, rfl⟩

/-- There is a frame exactly if there are an interface and a buffer. -/
theorem ethernetOutput_isSome_iff {cfg : NetConfig} {env : NetEnv} {nif : ℤ} (hnif : 0 ≤ nif) (proto : U16)
    (dst : HwAddr) (iplen : ℕ) : (ethernetOutput cfg env proto nif dst iplen).isSome ↔
      0 ≤ cfg.nifToEidx nif ∧ (env.getWptr (cfg.nifToEidx nif) (iplen + 14)).isSome := by
  unfold ethernetOutput
  rw [if_neg (by omega)]
  dsimp only
  split
  next hneg => exact iff_of_false Bool.false_ne_true fun h => absurd h.1 (by omega)
  next hpos =>
    rw [Option.isSome_map]
    exact (and_iff_right (by omega)).symm

/-- When there is a packet: an address, an interface and a buffer are found. -/
theorem ipOutput_isSome_iff {cfg : NetConfig} {env : NetEnv} {s s' : ArpState} {o o' : OutStream}
    {tcplen : U16} {fuel : ℕ} {out : Option Packet} (h : ipOutput cfg env s o tcplen fuel = .ok (s', o', out))
    (hnif : 0 ≤ o.nifOut.toInt) :
    out.isSome ↔ (getDestinationHwAddr s.t o.daddr (o.isExternal.setWidth 8)).isSome ∧
      0 ≤ cfg.nifToEidx o.nifOut.toInt ∧
      (env.getWptr (cfg.nifToEidx o.nifOut.toInt) ((tcplen + 20).toNat + 14)).isSome := by
  rcases (ipOutput_cases h hnif).2 with ⟨rfl, -, hmiss | ⟨haddr, hnone⟩⟩ | ⟨haddr, eth, hfound, heth, -, rfl⟩
  · rw [hmiss]
    exact iff_of_false Bool.false_ne_true fun hand => Bool.false_ne_true hand.1
  · refine iff_of_false Bool.false_ne_true fun hand => ?_
    have hsome := (ethernetOutput_isSome_iff hnif pIp haddr (tcplen + 20).toNat).mpr hand.2
    rw [hnone] at hsome
    cases hsome
  · refine iff_of_true rfl ⟨by rw [hfound]; rfl, ?_⟩
    refine (ethernetOutput_isSome_iff hnif pIp haddr (tcplen + 20).toNat).mp ?_
    rw [heth]
    rfl

/-- The field `id`, as it is on the wire. -/
theorem ipHeader_id {env : NetEnv} {protocol : U8} {ipId : U16} {saddr daddr : U32} {payloadlen : U16}
    {frame : Packet} :
    Iphdr.id.get (ipHeader env protocol ipId saddr daddr payloadlen frame) = htons ipId := by
  unfold ipHeader
  split <;> simp (disch := decide) only [Field.get_set_of_apart, Field.get_set]

end Eth

/-! ### The receiver -/

/-- A packet with a TCP header to the address of the interface is handed to `cmt_tcp_process`, with all of
its segment. -/
theorem processIPv4Packet_tcp {e : IpEnv} {frame : Packet} {saddr daddr : U32} {tcplen : U16}
    (h : IpPacket frame 6 saddr daddr tcplen) (hlen : 20 + tcplen.toNat < 2 ^ 16)
    (hsum : e.rc = -1 → e.ipFastCsum (Eth.payload frame) 5 = 0)
    (hfor : e.promiscuousMode = true ∨ e.ifAddr = daddr) :
    CmtTcp.processIPv4Packet e (Eth.payload frame) = .processTcp (20 + tcplen.toNat) := by
  have htot : (Eth.payload frame).totLen.toNat = 20 + tcplen.toNat := by
    rw [h.totLen, BitVec.toNat_add]
    exact Nat.mod_eq_of_lt hlen
  unfold CmtTcp.processIPv4Packet
  dsimp only
  rw [htot, h.ihl, h.daddr, h.version, h.protocol, if_neg (by omega), if_neg fun hbad => hbad.2 (hsum hbad.1),
    if_neg fun hbad => hfor.elim hbad.1 fun heq => hbad.2 heq.symm, if_neg (by decide), if_pos rfl]

/-! ### Streams on a network -/

variable {ι κ : Type}

/-- What was put on the network for a stream: where the call of `IP_output` ran, the length of the segment,
and the frame with the segment in it. -/
structure StreamPacket where
  env : NetEnv
  tcplen : U16
  frame : Packet

/-- A network, what `IP_output` sees of the streams `κ` of its hosts, and the packets of each so far. -/
structure StreamLan (ι κ : Type) where
  lan : Lan ι
  out : κ → OutStream
  packets : κ → List StreamPacket

/-- Nothing has been sent for the streams. -/
def StreamLan.start (lan : Lan ι) (out : κ → OutStream) : StreamLan ι κ := ⟨lan, out, fun _ => []⟩

/-- The labels of the network, and calls of `IP_output` for a stream. -/
abbrev StreamLabel (ι κ : Type) : Type := LanLabel ι ⊕ κ × U16

/-- The frame with something behind its IP header. -/
def SameHeader (frame' frame : Packet) : Prop := ∀ i < 34, frame' i = frame i

theorem rel_sameHeader_some {out : Option Packet} {frame : Packet}
    (h : Option.Rel SameHeader out (some frame)) :
    ∃ frame', out = some frame' ∧ SameHeader frame' frame := by
  cases h with
  | some hfill => exact ⟨_, rfl, hfill⟩

/-- The stream after `n` packets: `ip_id` has counted them. -/
def OutStream.after (o : OutStream) (n : ℕ) : OutStream := { o with ipId := o.ipId + BitVec.ofNat 16 n }

theorem OutStream.after_succ (o : OutStream) (n : ℕ) :
    { o.after n with ipId := (o.after n).ipId + 1 } = o.after (n + 1) := by
  unfold OutStream.after
  rw [BitVec.ofNat_add, ← BitVec.add_assoc]
  rfl

/-- One step: of the network, or a call of `IP_output` for a stream of the host `home c`; the caller writes a
segment behind the header. -/
inductive StreamLanStep [DecidableEq ι] [DecidableEq κ] (cfg : ι → NetConfig) (haddrOf : U32 → HwAddr)
    (home : κ → ι) : StreamLan ι κ → StreamLabel ι κ → StreamLan ι κ → Prop
  | net {S : StreamLan ι κ} {l : LanLabel ι} {L : Lan ι} (h : LanStep cfg haddrOf S.lan l L) :
      StreamLanStep cfg haddrOf home S (.inl l) { S with lan := L }
  | output {S : StreamLan ι κ} {c : κ} {tcplen : U16} {env : NetEnv} {fuel : ℕ} {s : ArpState}
      {o : OutStream} {iph out : Option Packet}
      (h : Eth.ipOutput (cfg (home c)) env (S.lan.host (home c)) (S.out c) tcplen fuel = .ok (s, o, iph))
      (hfill : Option.Rel SameHeader out iph) :
      StreamLanStep cfg haddrOf home S (.inr (c, tcplen))
        { lan := S.lan.after (home c) s out
          out := Function.update S.out c o
          packets := Function.update S.packets c
            (S.packets c ++ (out.map (StreamPacket.mk env tcplen)).toList) }

/-- The tables have room. -/
def StreamLan.HasRoom (S : StreamLan ι κ) : StreamLabel ι κ → Prop :=
  Sum.elim (TableHasRoom S.lan) fun _ => True

section StreamNetwork

variable {cfg : ι → NetConfig} {haddrOf : U32 → HwAddr} {home : κ → ι} {o₀ : κ → OutStream}
  {S S' : StreamLan ι κ} {l : StreamLabel ι κ} {ls : List (StreamLabel ι κ)}

/-- What the packet number `n` of a stream says, whatever is behind its header. -/
structure StreamPacket.IsNth (cfg : NetConfig) (haddrOf : U32 → HwAddr) (o : OutStream) (n : ℕ)
    (p : StreamPacket) : Prop where
  external : o.isExternal = 1
  headed : ∃ gw, cfg.gateway = some gw ∧
    Eth.Headed p.frame (haddrOf gw.daddr) (cfg.eths (cfg.nifToEidx o.nifOut.toInt)).haddr Eth.pIp
  ip : IpPacket p.frame 6 o.saddr o.daddr p.tcplen
  id : htons (Iphdr.id.get p.frame) = o.ipId + BitVec.ofNat 16 n
  csum : p.env.txRc = -1 → IpCsum p.env.ipFastCsum → p.env.ipFastCsum (Eth.payload p.frame) 5 = 0

/-- What holds after the steps `ls`: the network is as it would be without the streams, and of a stream only
`ip_id` has changed, which counts its packets. -/
structure StreamLan.Inv (cfg : ι → NetConfig) (haddrOf : U32 → HwAddr) (home : κ → ι) (o₀ : κ → OutStream)
    (ls : List (StreamLabel ι κ)) (S : StreamLan ι κ) : Prop where
  lan : S.lan.Inv cfg haddrOf (ls.filterMap Sum.getLeft?)
  out : ∀ c, S.out c = (o₀ c).after (S.packets c).length
  nth : ∀ c n (p : StreamPacket), (S.packets c)[n]? = some p → p.IsNth (cfg (home c)) haddrOf (o₀ c) n

/-- The bit, read as a byte, asks for the gateway. -/
theorem setWidth_isExternal (b : BitVec 1) : b.setWidth 8 = 1 ↔ b = 1 := by
  revert b
  decide

/-- The header is in the first 34 bytes. -/
theorem StreamPacket.isNth_of_sameHeader {cfg : NetConfig} {env : NetEnv} {o : OutStream} {n : ℕ}
    {tcplen : U16} {frame eth : Packet} {gw : Gateway} (hext : o.isExternal = 1) (hgw : cfg.gateway = some gw)
    (hheaded : Eth.Headed eth (haddrOf gw.daddr) (cfg.eths (cfg.nifToEidx o.nifOut.toInt)).haddr Eth.pIp)
    (hfill : SameHeader frame
      (Eth.ipHeader env 6 (o.ipId + BitVec.ofNat 16 n) o.saddr o.daddr tcplen eth)) :
    (⟨env, tcplen, frame⟩ : StreamPacket).IsNth cfg haddrOf o n := by
  refine ⟨hext, ⟨gw, hgw, ?_⟩, ipHeader_packet.congr hfill, ?_, fun htx hcsum => ?_⟩
  · exact hheaded.congr fun i hi => (hfill i (by omega)).trans (Eth.ipHeader_of_lt hi)
  · have hid : Iphdr.id.get frame = Iphdr.id.get _ := Field.get_congr fun j hj => hfill j (by
      unfold Field.Outside at hj
      change ¬(j < 18 ∨ 18 + 16 / 8 ≤ j) at hj
      omega)
    dsimp only
    rw [hid, Eth.ipHeader_id, htons_htons]
  · refine (hcsum.congr (Eth.payload frame) _ 5 fun i hi => hfill (14 + i) ?_).trans
      (ipHeader_csum hcsum htx)
    change i < 20 at hi
    omega

variable [DecidableEq ι] [DecidableEq κ]

omit [DecidableEq κ] in
/-- A call that leaves the table of host `k` as it was. -/
theorem Lan.Inv.output {L : Lan ι} {lls : List (LanLabel ι)} {k : ι} {s : ArpState} {out : Option Packet}
    (h : L.Inv cfg haddrOf lls) (hcfg : ∀ k, (cfg k).Right haddrOf) (ht : s.t = (L.host k).t)
    (hsends : ∀ frame, out = some frame → Sends (cfg k) (L.host k).t frame) :
    (L.after k s out).Inv cfg haddrOf lls := by
  refine h.after hcfg (ht ▸ h.table k) (fun j => ?_) hsends
  rw [← h.heard j]
  by_cases hj : j = k
  · subst hj
    rw [Function.update_self, ht]
  · rw [Function.update_of_ne hj]

omit [DecidableEq ι] in
/-- One more packet of the stream `c`. -/
theorem StreamLan.Inv.snoc {ls' : List (StreamLabel ι κ)} {L : Lan ι} {c : κ} {p : StreamPacket}
    (h : S.Inv cfg haddrOf home o₀ ls) (hlan : L.Inv cfg haddrOf (ls'.filterMap Sum.getLeft?))
    (hp : p.IsNth (cfg (home c)) haddrOf (o₀ c) (S.packets c).length) :
    StreamLan.Inv cfg haddrOf home o₀ ls'
      { lan := L
        out := Function.update S.out c ((o₀ c).after ((S.packets c).length + 1))
        packets := Function.update S.packets c (S.packets c ++ [p]) } := by
  refine ⟨hlan, fun d => ?_, fun d n q hq => ?_⟩
  · dsimp only
    by_cases hd : d = c
    · subst hd
      rw [Function.update_self, Function.update_self, List.length_append, List.length_singleton]
    · rw [Function.update_of_ne hd, Function.update_of_ne hd]
      exact h.out d
  · dsimp only at hq
    by_cases hd : d = c
    · subst hd
      rw [Function.update_self] at hq
      rcases Nat.lt_or_ge n (S.packets d).length with hlt | hge
      · rw [List.getElem?_append_left hlt] at hq
        exact h.nth d n q hq
      · -- behind the packets so far there is the new one only
        rw [List.getElem?_append_right hge, List.getElem?_singleton] at hq
        split at hq
        next hzero =>
          obtain rfl := Option.some.inj hq
          obtain rfl : n = (S.packets d).length := by omega
          exact hp
        next => cases hq
    · rw [Function.update_of_ne hd] at hq
      exact h.nth d n q hq

/-- **One step.** -/
theorem StreamLanStep.inv (hcfg : ∀ k, (cfg k).Right haddrOf) (hnif : ∀ c, 0 ≤ (o₀ c).nifOut.toInt)
    (hstep : Guarded StreamLan.HasRoom (StreamLanStep cfg haddrOf home) S l S')
    (h : S.Inv cfg haddrOf home o₀ ls) : S'.Inv cfg haddrOf home o₀ (ls ++ [l]) := by
  obtain ⟨hroom, hstep⟩ := hstep
  cases hstep with
  | @net l L hnet =>
    refine ⟨?_, h.out, h.nth⟩
    rw [List.filterMap_append]
    exact LanStep.inv hcfg ⟨hroom, hnet⟩ h.lan
  | @output c tcplen env fuel s o iph out hcall hfill =>
    have hlabels : (ls ++ [.inr (c, tcplen)] : List (StreamLabel ι κ)).filterMap Sum.getLeft? =
        ls.filterMap Sum.getLeft? := by
      rw [List.filterMap_append]
      exact List.append_nil _
    have hout := h.out c
    have hport : 0 ≤ (S.out c).nifOut.toInt := by
      rw [hout]
      exact hnif c
    obtain ⟨ht, hcase⟩ := Eth.ipOutput_cases hcall hport
    rcases hcase with ⟨rfl, rfl, -⟩ | ⟨haddr, eth, hfound, heth, rfl, rfl⟩
    · -- nothing is sent
      cases hfill
      simp only [Option.map_none, Option.toList_none, List.append_nil, Function.update_eq_self]
      refine ⟨?_, h.out, h.nth⟩
      rw [hlabels]
      exact h.lan.output hcfg ht fun _ hf => by cases hf
    · -- one packet more, with the next number and for the gateway
      obtain ⟨frame, rfl, hfilled⟩ := rel_sameHeader_some hfill
      obtain ⟨hone, daddr, hdaddr, rfl⟩ := (h.lan.table (home c)).found hfound
      obtain ⟨gw, hgw, rfl⟩ := Option.map_eq_some_iff.mp hdaddr
      obtain ⟨-, -, hheaded⟩ := Eth.ethernetOutput_frame heth
      rw [hout] at hfilled hheaded hone
      have hnth : (⟨env, tcplen, frame⟩ : StreamPacket).IsNth (cfg (home c)) haddrOf (o₀ c)
          (S.packets c).length :=
        StreamPacket.isNth_of_sameHeader ((setWidth_isExternal _).mp hone) hgw hheaded hfilled
      rw [hout, OutStream.after_succ]
      refine h.snoc ?_ hnth
      rw [hlabels]
      refine h.lan.output hcfg ht fun frame' hf => ?_
      obtain rfl := Option.some.inj hf
      obtain ⟨gw', hgw', hheaded'⟩ := hnth.headed
      obtain rfl := Option.some.inj (hgw.symm.trans hgw')
      exact .ip hfound hheaded'

theorem StreamLan.inv_run {mem : ι → ℤ → ArpEntry} {g : ι → ArpManager} (hcfg : ∀ k, (cfg k).Right haddrOf)
    (hnif : ∀ c, 0 ≤ (o₀ c).nifOut.toInt)
    (hrun : Run (Guarded StreamLan.HasRoom (StreamLanStep cfg haddrOf home))
      (StreamLan.start (Lan.start mem g) o₀) ls S) : S.Inv cfg haddrOf home o₀ ls :=
  hrun.history_invariant (fun ls S => S.Inv cfg haddrOf home o₀ ls)
    ⟨Lan.inv_start mem g, fun c => by simp [StreamLan.start, OutStream.after],
      fun _ _ _ hp => by cases hp⟩
    fun _ _ _ _ h hstep => StreamLanStep.inv hcfg hnif hstep h

omit [DecidableEq ι] [DecidableEq κ] in
/-- A call of `IP_output` after the steps of a run. -/
theorem StreamLan.Inv.isSome_iff {c : κ} {env : NetEnv} {tcplen : U16} {fuel : ℕ} {s : ArpState}
    {o : OutStream} {out : Option Packet} (h : S.Inv cfg haddrOf home o₀ ls)
    (hnif : 0 ≤ (o₀ c).nifOut.toInt)
    (hcall : Eth.ipOutput (cfg (home c)) env (S.lan.host (home c)) (S.out c) tcplen fuel = .ok (s, o, out)) :
    out.isSome ↔ (o₀ c).isExternal = 1 ∧ HeardGateway cfg (home c) (ls.filterMap Sum.getLeft?) ∧
      0 ≤ (cfg (home c)).nifToEidx (o₀ c).nifOut.toInt ∧
      (env.getWptr ((cfg (home c)).nifToEidx (o₀ c).nifOut.toInt) ((tcplen + 20).toNat + 14)).isSome := by
  rw [h.out c] at hcall
  have htable := h.lan.table (home c)
  have hlookup : (getDestinationHwAddr (S.lan.host (home c)).t (o₀ c).daddr
      ((o₀ c).isExternal.setWidth 8)).isSome ↔
        (o₀ c).isExternal = 1 ∧ HeardGateway cfg (home c) (ls.filterMap Sum.getLeft?) := by
    rw [← h.lan.heard, ← htable.isSome_iff (o₀ c).daddr, ← setWidth_isExternal]
    constructor
    · intro hsome
      obtain ⟨haddr, hfound⟩ := Option.isSome_iff_exists.mp hsome
      have hone := (htable.found hfound).1
      rw [hone] at hsome
      exact ⟨hone, hsome⟩
    · rintro ⟨hone, hsome⟩
      rw [hone]
      exact hsome
  rw [← and_assoc, ← hlookup]
  exact Eth.ipOutput_isSome_iff (o := (o₀ c).after (S.packets c).length) hcall hnif

/-- **The packets of a stream.** In every run of a network whose hosts send segments of streams that
`create_tcp_stream` has made, between whatever hosts and stations do otherwise: the packets of a stream are numbered
by `ip_id` from `0` on without a gap, they leave by interface `0` for the gateway's hardware address whatever
the routing table holds, and a host with the address of the peer hands all of each segment to
`cmt_tcp_process`. A call of `IP_output` has a packet exactly if the bit `is_external`, which nobody has
set, is one, the host has heard of its gateway, and there are an interface and a buffer. -/
theorem stream_packets {ρ : Type} {mem : ι → ℤ → ArpEntry} {g : ι → ArpManager}
    (hcfg : ∀ k, (cfg k).Right haddrOf) (streams : κ → Stream ρ) (isExternal : κ → BitVec 1)
    (hnew : ∀ c, ∃ a saddr sport daddr dport,
      createTcpStream a saddr sport daddr dport = some (streams c))
    (hrun : Run (Guarded StreamLan.HasRoom (StreamLanStep cfg haddrOf home))
      (StreamLan.start (Lan.start mem g) fun c => (streams c).toOut (isExternal c)) ls S) (c : κ) :
    (∀ n (p : StreamPacket), (S.packets c)[n]? = some p →
      isExternal c = 1 ∧ htons (Iphdr.id.get p.frame) = BitVec.ofNat 16 n ∧
        (∃ gw, (cfg (home c)).gateway = some gw ∧ Eth.Headed p.frame (haddrOf gw.daddr)
          ((cfg (home c)).eths ((cfg (home c)).nifToEidx 0)).haddr Eth.pIp) ∧
        (Eth.payload p.frame).saddr = (streams c).saddr ∧
        ∀ e : IpEnv, (e.rc ≠ -1 ∨
            p.env.txRc = -1 ∧ IpCsum p.env.ipFastCsum ∧ e.ipFastCsum = p.env.ipFastCsum) →
          (e.promiscuousMode = true ∨ e.ifAddr = (streams c).daddr) → 20 + p.tcplen.toNat < 2 ^ 16 →
          CmtTcp.processIPv4Packet e (Eth.payload p.frame) = .processTcp (20 + p.tcplen.toNat)) ∧
      ∀ env tcplen fuel s o out,
        Eth.ipOutput (cfg (home c)) env (S.lan.host (home c)) (S.out c) tcplen fuel = .ok (s, o, out) →
        (out.isSome ↔ isExternal c = 1 ∧ HeardGateway cfg (home c) (ls.filterMap Sum.getLeft?) ∧
          0 ≤ (cfg (home c)).nifToEidx 0 ∧
          (env.getWptr ((cfg (home c)).nifToEidx 0) ((tcplen + 20).toNat + 14)).isSome) := by
  -- `create_tcp_stream` counts from 0, and caches interface 0
  have hzero : ∀ d, (streams d).snd.nifOut = 0 ∧ (streams d).snd.ipId = 0 := by
    intro d
    obtain ⟨a, saddr, sport, daddr, dport, hcreate⟩ := hnew d
    exact createTcpStream_cached hcreate
  have hport : ∀ d, (((streams d).toOut (isExternal d)).nifOut).toInt = 0 := by
    intro d
    change (streams d).snd.nifOut.toInt = 0
    rw [(hzero d).1]
    rfl
  have hinv := StreamLan.inv_run hcfg (fun d => (hport d).ge) hrun
  refine ⟨fun n p hp => ?_, fun env tcplen fuel s o out hcall => ?_⟩
  · obtain ⟨hext, hheaded, hip, hid, hcsum⟩ := hinv.nth c n p hp
    rw [hport c] at hheaded
    refine ⟨hext, ?_, hheaded, hip.saddr, fun e hsum hfor hlen =>
      processIPv4Packet_tcp hip hlen (fun hrc => ?_) hfor⟩
    · rw [hid]
      change (streams c).snd.ipId + _ = _
      rw [(hzero c).2]
      exact BitVec.zero_add _
    · rcases hsum with hsum | ⟨htx, hcong, hsame⟩
      · exact absurd hrc hsum
      · rw [hsame]
        exact hcsum htx hcong
  · have hiff := hinv.isSome_iff (hport c).ge hcall
    rw [hport c] at hiff
    exact hiff

/-- A run of the network is one with streams that send nothing. -/
theorem Run.withStreams {L L' : Lan ι} {lls : List (LanLabel ι)} (out : κ → OutStream)
    (h : Run (Guarded TableHasRoom (LanStep cfg haddrOf)) L lls L') :
    Run (Guarded StreamLan.HasRoom (StreamLanStep cfg haddrOf home)) (StreamLan.start L out)
      (lls.map .inl) (StreamLan.start L' out) := by
  induction h with
  | nil => exact .nil
  | @snoc lls L₁ l L₂ _ hlast ih =>
    rw [List.map_append]
    exact ih.snoc ⟨hlast.1, .net hlast.2⟩

end StreamNetwork

/-! ### A stream of one of two hosts -/

/-- What the pools hand out for a stream of `twoHosts false`. -/
def pooledObjects : Arrival Unit where
  seg := default
  ts := 0
  listener := none
  streamObj := some default
  sndObj := some default
  rcvObj := some default
  rand := 7
  recvGet := fun _ => none

/-- The routing table is empty; after an ARP packet of the gateway a segment of 20 bytes is sent. -/
theorem stream_packets_station :
    ∃ s, createTcpStream pooledObjects 0x0200000a 0x5000 0x0100000a 0xd204 = some s ∧
      ∃ ls S, Run (Guarded StreamLan.HasRoom (StreamLanStep twoHosts twoHostHaddr fun _ : Unit => false))
          (StreamLan.start quietLan fun _ => s.toOut 1) ls S ∧
        ∃ p, S.packets () = [p] ∧ htons (Iphdr.id.get p.frame) = 0 := by
  obtain ⟨s, hs⟩ : ∃ s, createTcpStream pooledObjects 0x0200000a 0x5000 0x0100000a 0xd204 = some s :=
    ⟨_, rfl⟩
  have hnew : ∀ _ : Unit, ∃ a saddr sport daddr dport,
      createTcpStream a saddr sport daddr dport = some s := fun _ => ⟨_, _, _, _, _, hs⟩
  have hnif : 0 ≤ (s.toOut 1).nifOut.toInt := by
    change 0 ≤ s.snd.nifOut.toInt
    rw [(createTcpStream_cached hs).1]
    decide
  obtain ⟨L, hrun⟩ := gatewayReply_run
  obtain ⟨hheard, hsip, -⟩ := gatewayReply_heard
  have hinv := Lan.inv_run twoHosts_right hrun
  have hgw : HeardGateway twoHosts false [.station gatewayReply, .deliver false 0 gatewayReply] :=
    ⟨⟨0x0100000a, 0⟩, 0, gatewayReply, rfl, by simp, hheard, hsip⟩
  have hrun₁ : Run (Guarded StreamLan.HasRoom (StreamLanStep twoHosts twoHostHaddr fun _ : Unit => false))
      (StreamLan.start quietLan fun _ => s.toOut 1) _ (StreamLan.start L fun _ => s.toOut 1) :=
    Run.withStreams (fun _ => s.toOut 1) hrun
  -- the call returns, and has a packet
  obtain ⟨haddr, hfound⟩ := Option.isSome_iff_exists.mp
    (((hinv.table false).isSome_iff (s.toOut 1).daddr).mpr ((hinv.heard false).mpr hgw))
  obtain ⟨o, out, hcall⟩ : ∃ o out, Eth.ipOutput (twoHosts false) ampleEnv (L.host false) (s.toOut 1) 20 0 =
      .ok (L.host false, o, out) := Eth.ipOutput_ok ampleEnv 20 0 hnif hfound
  obtain ⟨frame, rfl⟩ := Option.isSome_iff_exists.mp <|
    ((stream_packets twoHosts_right (fun _ => s) (fun _ => 1) hnew hrun₁ ()).2 ampleEnv 20 0
      (L.host false) o out hcall).mpr ⟨rfl, hgw, Int.le_refl 0, rfl⟩
  have hstep : Guarded StreamLan.HasRoom (StreamLanStep twoHosts twoHostHaddr fun _ : Unit => false)
      (StreamLan.start L fun _ => s.toOut 1) (.inr ((), 20)) _ :=
    ⟨trivial, .output hcall (.some fun _ _ => rfl)⟩
  have hrun₂ := hrun₁.snoc hstep
  exact ⟨s, hs, _, _, hrun₂, _, rfl,
    ((stream_packets twoHosts_right (fun _ => s) (fun _ => 1) hnew hrun₂ ()).1 0 _ rfl).2.1⟩

end CmtTcp
