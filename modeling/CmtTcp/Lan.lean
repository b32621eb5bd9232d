import CmtTcp.Ethernet
import CmtTcp.Lib.Run

/-!
# A local network

Hosts that run the stack, on one network with stations that do not. What is sent may get to any interface of
any host, once, more than once, late or never. A station may send what it likes, but its ARP packets name the
hardware address that their sender's address has.

* `HeardBy`: an ARP packet that a host answers or learns from;
* `lan_resolves`: all ARP packets and all tables name hardware addresses that are right; a host finds the
  address of its gateway from the first packet of it on, and no other address; and it sends IP packets
  nowhere else;
* `nobody_speaks_first`: as no call of `request_ARP` gets to its broadcast, hosts of this stack send nothing
  at all until a station sends an ARP packet that one of them hears.
-/

namespace CmtTcp

open Lib (Run Guarded)

variable {ι : Type}

/-- The state of the hosts, and what has been sent: by a host, or by a station. -/
structure Lan (ι : Type) where
  host : ι → ArpState
  sent : List (Option ι × Packet)

/-- What may happen. -/
inductive LanLabel (ι : Type)
  | request (k : ι) (ip : U32) (nif : ℤ)
  | ping (k : ι) (saddr daddr : U32) (icmpId icmpSequence : U16) (icmpd : Packet) (len : U16)
  | deliver (k : ι) (ifidx : ℤ) (pktData : Packet)
  | station (pktData : Packet)

namespace Lan

/-- Host `k` goes on with `s`, and may have sent a frame. -/
def after [DecidableEq ι] (S : Lan ι) (k : ι) (s : ArpState) (out : Option Packet) : Lan ι where
  host := Function.update S.host k s
  sent := S.sent ++ (out.map fun frame => (some k, frame)).toList

/-- The tables are as `init_ARP_table` leaves them, and nothing has been sent. -/
def start (mem : ι → ℤ → ArpEntry) (g : ι → ArpManager) : Lan ι where
  host := fun k => { t := initArpTable (mem k), g := g k }
  sent := []

end Lan

/-- The frame is an ARP packet that names the hardware address of its sender. -/
def Truthful (haddrOf : U32 → HwAddr) (pktData : Packet) : Prop :=
  htons (Eth.hProto.get pktData) = Eth.pArp →
    Arphdr.arSha.get pktData = haddrOf (Arphdr.arSip.get pktData)

/-- An ARP packet to one of the addresses of a host, with an operation that it knows. -/
structure HeardBy (cfg : NetConfig) (pktData : Packet) : Prop where
  proto : htons (Eth.hProto.get pktData) = Eth.pArp
  mine : Arphdr.arTip.get pktData ∈ cfg.ethAddrs
  op : htons (Arphdr.arOp.get pktData) = Arphdr.opRequest ∨
    htons (Arphdr.arOp.get pktData) = Arphdr.opReply

/-- One step: a call of `request_ARP` or `request_ICMP` in a host, the arrival of a frame, or a frame of a
station. -/
inductive LanStep [DecidableEq ι] (cfg : ι → NetConfig) (haddrOf : U32 → HwAddr) :
    Lan ι → LanLabel ι → Lan ι → Prop
  | request {S : Lan ι} {k : ι} {ip : U32} {nif : ℤ} {env : NetEnv} {fuel : ℕ} {s : ArpState}
      {out : Option Packet} (h : Eth.requestArp (cfg k) env (S.host k) ip nif fuel = .ok (s, out)) :
      LanStep cfg haddrOf S (.request k ip nif) (S.after k s out)
  | ping {S : Lan ι} {k : ι} {saddr daddr : U32} {icmpId icmpSequence : U16} {icmpd : Packet}
      {len : U16} {env : NetEnv} {fuel : ℕ} {s : ArpState} {out : Option Packet}
      (h : Eth.requestIcmp (cfg k) env (S.host k) saddr daddr icmpId icmpSequence icmpd len fuel =
        .ok (s, out)) :
      LanStep cfg haddrOf S (.ping k saddr daddr icmpId icmpSequence icmpd len) (S.after k s out)
  | deliver {S : Lan ι} {x : Option ι} {k : ι} {ifidx : ℤ} {pktData : Packet} {env : NetEnv}
      {fuel : ℕ} {s : ArpState} {out : Option Packet} (hsent : (x, pktData) ∈ S.sent)
      (h : Eth.processPacket (cfg k) env (S.host k) ifidx pktData fuel = .ok (s, out)) :
      LanStep cfg haddrOf S (.deliver k ifidx pktData) (S.after k s out)
  | station {S : Lan ι} {pktData : Packet} (htrue : Truthful haddrOf pktData) :
      LanStep cfg haddrOf S (.station pktData) { S with sent := S.sent ++ [(none, pktData)] }

/-- A frame arrives at a host whose table is not full. -/
def TableHasRoom (S : Lan ι) : LanLabel ι → Prop
  | .deliver k _ _ => (S.host k).t.entryNums.toNat < 1024
  | _ => True

/-- The interfaces of a host have their own hardware addresses, and are what the port numbers are
mapped to. -/
structure NetConfig.Right (cfg : NetConfig) (haddrOf : U32 → HwAddr) : Prop where
  haddr : ∀ i : ℕ, i < cfg.ethsNum → (cfg.eths i).haddr = haddrOf (cfg.eths i).ipAddr
  mapped : ∀ nif, cfg.nifToEidx nif < cfg.ethsNum

/-! ### One host -/

section Host

variable {cfg : NetConfig} {env : NetEnv} {haddrOf : U32 → HwAddr} {s s' : ArpState} {t : ArpTable}
  {ifidx : ℤ} {pktData frame : Packet} {fuel : ℕ} {out : Option Packet}

theorem processArpMsg_table {gatewayDaddr : Option U32} {m : ArpMsg}
    (h : processArpMsg gatewayDaddr s m fuel = .ok s') : s'.t = learnSender gatewayDaddr s.t m := by
  unfold processArpMsg at h
  dsimp only at h
  cases hop : m.arOp with
  | request =>
    rw [hop] at h
    cases h
    rfl
  | reply =>
    rw [hop] at h
    cases hreply : processArpReply s.g m.arSip fuel with
    | error f =>
      rw [hreply] at h
      cases h
    | ok g =>
      rw [hreply] at h
      cases h
      rfl

/-- What a host sends: IP packets to what it finds in its table, and ARP packets of its own. -/
inductive Sends (cfg : NetConfig) (t : ArpTable) (frame : Packet) : Prop
  | ip {daddr : U32} {isExternal : U8} {nif : ℤ} {haddr : HwAddr}
      (hfound : getDestinationHwAddr t daddr isExternal = some haddr)
      (hheaded : Eth.Headed frame haddr (cfg.eths (cfg.nifToEidx nif)).haddr Eth.pIp)
  | arp {nif : ℤ} {opcode : U16} {dstIp : U32} {dstHaddr targetHaddr : Option HwAddr} {env : NetEnv}
      (h : Eth.arpOutput cfg env nif opcode dstIp dstHaddr targetHaddr = some frame)

/-- An ARP packet that a host hears of teaches it the sender; no other frame does. -/
theorem processArpPacket_cases
    (h : Eth.processArpPacket cfg env s ifidx pktData fuel = .ok (s', out))
    (hproto : htons (Eth.hProto.get pktData) = Eth.pArp) :
    ((HeardBy cfg pktData ∧ ∃ op, s'.t = learnSender (cfg.gateway.map Gateway.daddr) s.t
        ⟨op, Arphdr.arSip.get pktData, Arphdr.arSha.get pktData⟩) ∨
      ¬HeardBy cfg pktData ∧ s'.t = s.t) ∧ ∀ frame, out = some frame → Sends cfg s.t frame := by
  unfold Eth.processArpPacket at h
  split at h
  next hmine =>
    -- not for this host
    cases h
    exact ⟨.inr ⟨fun hheard => hmine hheard.mine, rfl⟩, fun _ hf => by cases hf⟩
  next hmine =>
  dsimp only at h
  split at h
  next hop =>
    split at h
    · cases h
    next s₁ hmsg =>
      cases h
      refine ⟨.inl ⟨⟨hproto, not_not.mp hmine, .inl hop⟩, _, processArpMsg_table hmsg⟩, ?_⟩
      exact fun frame hf => .arp hf
  next hop =>
  split at h
  next hop' =>
    split at h
    · cases h
    next s₁ hmsg =>
      cases h
      exact ⟨.inl ⟨⟨hproto, not_not.mp hmine, .inr hop'⟩, _, processArpMsg_table hmsg⟩,
        fun _ hf => by cases hf⟩
  next hop' =>
    cases h
    exact ⟨.inr ⟨fun hheard => hheard.op.elim hop hop', rfl⟩, fun _ hf => by cases hf⟩

theorem icmpOutput_sends {saddr daddr : U32} {f : IcmpFields}
    (h : Eth.icmpOutput cfg env s saddr daddr f fuel = .ok (s', out)) :
    s'.t = s.t ∧ ∀ frame, out = some frame → Sends cfg s.t frame := by
  obtain ⟨ht, hframe⟩ := Eth.icmpOutput_frame h
  refine ⟨ht, fun frame hf => ?_⟩
  obtain ⟨nif, isExternal, haddr, -, hfound, hheaded⟩ := hframe frame hf
  exact .ip hfound hheaded

/-- An IP packet leaves the table alone. -/
theorem processIPv4Packet_cases
    (h : Eth.processIPv4Packet cfg env s ifidx pktData fuel = .ok (s', out)) :
    s'.t = s.t ∧ ∀ frame, out = some frame → Sends cfg s.t frame := by
  unfold Eth.processIPv4Packet at h
  dsimp only at h
  split at h
  · split at h
    · cases h
    · exact icmpOutput_sends h
    · cases h
      exact ⟨rfl, fun _ hf => by cases hf⟩
  · cases h
    exact ⟨rfl, fun _ hf => by cases hf⟩

/-- **What a frame does to a host.** -/
theorem processPacket_cases (h : Eth.processPacket cfg env s ifidx pktData fuel = .ok (s', out)) :
    ((HeardBy cfg pktData ∧ ∃ op, s'.t = learnSender (cfg.gateway.map Gateway.daddr) s.t
        ⟨op, Arphdr.arSip.get pktData, Arphdr.arSha.get pktData⟩) ∨
      ¬HeardBy cfg pktData ∧ s'.t = s.t) ∧ ∀ frame, out = some frame → Sends cfg s.t frame := by
  unfold Eth.processPacket at h
  dsimp only at h
  split at h
  next hip =>
    obtain ⟨ht, hsends⟩ := processIPv4Packet_cases h
    refine ⟨.inr ⟨fun hheard => ?_, ht⟩, hsends⟩
    exact absurd (hip.symm.trans hheard.proto) (by decide)
  next hip =>
  split at h
  next harp => exact processArpPacket_cases h harp
  next harp =>
    cases h
    exact ⟨.inr ⟨fun hheard => harp hheard.proto, rfl⟩, fun _ hf => by cases hf⟩

/-- A table that is right: it has learned right addresses only, and the gateway's entry is the gateway's. -/
structure ArpTable.Right (t : ArpTable) (haddrOf : U32 → HwAddr) (gatewayDaddr : Option U32) : Prop where
  entries : t.entries = 0
  room : t.entryNums.toNat ≤ 1024
  learned : ∀ i : ℕ, i < t.entryNums.toNat → (t.entry i).haddr = haddrOf (t.entry i).ip
  gateway : ∀ i, t.gateway = some i → ∃ n : ℕ, i = n ∧ n < t.entryNums.toNat ∧
    gatewayDaddr = some (t.entry n).ip

/-- A packet whose sender is told right leaves the table right. -/
theorem ArpTable.Right.learn {gatewayDaddr : Option U32} {m : ArpMsg} (h : t.Right haddrOf gatewayDaddr)
    (hroom : t.entryNums.toNat < 1024) (htrue : m.arSha = haddrOf m.arSip) :
    (learnSender gatewayDaddr t m).Right haddrOf gatewayDaddr ∧
      ((learnSender gatewayDaddr t m).gateway.isSome ↔ t.gateway.isSome ∨ gatewayDaddr = some m.arSip) := by
  have hlearn : learnSender gatewayDaddr t m = registerArpEntry gatewayDaddr t m.arSip m.arSha := by
    unfold learnSender
    rw [getDestinationHwAddr_empty h.entries]
  have hidx : t.entryNums.toInt = (t.entryNums.toNat : ℕ) := BitVec.toInt_eq_toNat_of_lt (by omega)
  have hnext : (t.entryNums + 1).toNat = t.entryNums.toNat + 1 := by
    rw [BitVec.toNat_add]
    exact Nat.mod_eq_of_lt (by change _ + 1 < _; omega)
  -- the mask is all ones, so the gateway is compared as it is
  have hmask : ∀ daddr : U32, daddr &&& (-1 : U32) = daddr := fun daddr => by
    rw [show (-1 : U32) = BitVec.allOnes 32 from rfl, BitVec.and_allOnes]
  have hany : (gatewayDaddr.any fun daddr => decide (daddr &&& (-1 : U32) = m.arSip)) = true ↔
      gatewayDaddr = some m.arSip := by
    cases gatewayDaddr with
    | none => simp
    | some d =>
      rw [Option.any_some, hmask, decide_eq_true_iff]
      exact Option.some_inj.symm
  rw [hlearn]
  unfold registerArpEntry
  dsimp only
  rw [hidx]
  refine ⟨⟨h.entries, by dsimp only; omega, fun i hi => ?_, fun i hi => ?_⟩, ?_⟩
  · dsimp only at hi ⊢
    by_cases hnew : (i : ℤ) = (t.entryNums.toNat : ℕ)
    · rw [hnew, Function.update_self]
      exact htrue
    · rw [Function.update_of_ne hnew]
      exact h.learned i (by omega)
  · dsimp only at hi ⊢
    split at hi
    next hgw =>
      cases hi
      refine ⟨t.entryNums.toNat, rfl, by omega, ?_⟩
      rw [Function.update_self]
      exact hany.mp hgw
    · obtain ⟨n, rfl, hn, hip⟩ := h.gateway i hi
      refine ⟨n, rfl, by omega, ?_⟩
      rw [Function.update_of_ne (by omega)]
      exact hip
  · split
    next hgw => exact iff_of_true rfl (.inr (hany.mp hgw))
    next hgw => exact (or_iff_left fun heq => hgw (hany.mpr heq)).symm

/-- What is found in such a table is the gateway. -/
theorem ArpTable.Right.found {gatewayDaddr : Option U32} {dip : U32} {isGateway : U8} {haddr : HwAddr}
    (h : t.Right haddrOf gatewayDaddr) (hfound : getDestinationHwAddr t dip isGateway = some haddr) :
    isGateway = 1 ∧ ∃ daddr, gatewayDaddr = some daddr ∧ haddr = haddrOf daddr := by
  unfold getDestinationHwAddr at hfound
  split at hfound
  next i hi =>
    split at hi
    next hone =>
      obtain ⟨n, rfl, hn, hip⟩ := h.gateway i hi
      refine ⟨hone, _, hip, ?_⟩
      rw [← h.learned n hn]
      exact (Option.some.inj hfound).symm
    · cases hi
  · have hnone := getDestinationHwAddr_empty h.entries dip
    unfold getDestinationHwAddr at hnone
    rw [if_neg (by decide)] at hnone
    exact absurd (hnone.symm.trans hfound) (by simp)

/-- The gateway is found exactly when there is one in the table. -/
theorem ArpTable.Right.isSome_iff {gatewayDaddr : Option U32} (h : t.Right haddrOf gatewayDaddr)
    (dip : U32) : (getDestinationHwAddr t dip 1).isSome ↔ t.gateway.isSome := by
  have hnone := getDestinationHwAddr_empty h.entries dip
  unfold getDestinationHwAddr at hnone ⊢
  rw [if_neg (by decide)] at hnone
  rw [if_pos rfl]
  cases t.gateway with
  | some i => exact iff_of_true rfl rfl
  | none =>
    dsimp only at hnone ⊢
    rw [hnone]
    exact Iff.rfl

/-- A frame of a host with a right table is truthful, and an IP packet goes to the gateway. -/
theorem Sends.right (h : Sends cfg t frame) (hcfg : cfg.Right haddrOf)
    (ht : t.Right haddrOf (cfg.gateway.map Gateway.daddr)) :
    Truthful haddrOf frame ∧ (htons (Eth.hProto.get frame) = Eth.pIp →
      ∃ gw, cfg.gateway = some gw ∧ Eth.hDest.get frame = haddrOf gw.daddr) := by
  cases h with
  | @ip daddr isExternal nif haddr hfound hheaded =>
    refine ⟨fun harp => ?_, fun _ => ?_⟩
    · exact absurd (hheaded.proto.symm.trans harp) (by decide)
    · obtain ⟨-, daddr, hgw, rfl⟩ := ht.found hfound
      obtain ⟨gw, hsome, rfl⟩ := Option.map_eq_some_iff.mp hgw
      exact ⟨gw, hsome, hheaded.dest⟩
  | @arp nif opcode dstIp dstHaddr targetHaddr env h =>
    obtain ⟨dst, -, hnif, heidx, hheaded, -, -, -, hsip, hsha⟩ := Eth.arpOutput_frame h
    refine ⟨fun _ => ?_, fun hip => ?_⟩
    · obtain ⟨i, hi⟩ := Int.eq_ofNat_of_zero_le heidx
      rw [hsip, hsha, hi]
      refine hcfg.haddr i ?_
      have hlt := hcfg.mapped nif
      omega
    · exact absurd (hheaded.proto.symm.trans hip) (by decide)

/-- A reply is learned from, if the loop of `process_ARP_reply` gets through. -/
theorem processPacket_reply {g : ArpManager} (env : NetEnv) (ifidx : ℤ)
    (hproto : htons (Eth.hProto.get pktData) = Eth.pArp)
    (hmine : Arphdr.arTip.get pktData ∈ cfg.ethAddrs)
    (hop : htons (Arphdr.arOp.get pktData) = Arphdr.opReply)
    (hg : processArpReply s.g (Arphdr.arSip.get pktData) fuel = .ok g) :
    Eth.processPacket cfg env s ifidx pktData fuel = .ok
      ({ t := (learnSender (cfg.gateway.map Gateway.daddr) s.t
          ⟨.reply, Arphdr.arSip.get pktData, Arphdr.arSha.get pktData⟩), g := g }, none) := by
  unfold Eth.processPacket
  dsimp only
  rw [hproto, if_neg (by decide), if_pos rfl]
  unfold Eth.processArpPacket
  rw [if_neg (not_not.mpr hmine)]
  dsimp only
  rw [hop, if_neg (by decide), if_pos rfl]
  unfold processArpMsg
  dsimp only
  rw [hg]
  rfl

/-- A table that nobody is found in, not even the gateway. -/
def ArpTable.Silent (t : ArpTable) : Prop := t.entries = 0 ∧ t.gateway = none

theorem ArpTable.Silent.not_found (h : t.Silent) (dip : U32) (isGateway : U8) :
    getDestinationHwAddr t dip isGateway = none := by
  have hnone := getDestinationHwAddr_empty h.1 dip
  unfold getDestinationHwAddr at hnone ⊢
  rw [if_neg (by decide)] at hnone
  rw [h.2, ite_self]
  exact hnone

theorem icmpOutput_silent {saddr daddr : U32} {f : IcmpFields} (ht : s.t.Silent)
    (h : Eth.icmpOutput cfg env s saddr daddr f fuel = .ok (s', out)) : s'.t = s.t ∧ out = none := by
  obtain ⟨hsame, hframe⟩ := Eth.icmpOutput_frame h
  refine ⟨hsame, Option.eq_none_iff_forall_ne_some.mpr fun frame hf => ?_⟩
  obtain ⟨-, isExternal, haddr, -, hfound, -⟩ := hframe frame hf
  rw [ht.not_found] at hfound
  cases hfound

/-- A frame that a host does not hear as an ARP packet is not answered as long as the host knows nobody. -/
theorem processPacket_silent (ht : s.t.Silent) (hnot : ¬HeardBy cfg pktData)
    (h : Eth.processPacket cfg env s ifidx pktData fuel = .ok (s', out)) : s'.t = s.t ∧ out = none := by
  refine ⟨((processPacket_cases h).1.resolve_left fun hheard => hnot hheard.1).2, ?_⟩
  unfold Eth.processPacket at h
  dsimp only at h
  split at h
  · unfold Eth.processIPv4Packet at h
    dsimp only at h
    split at h
    · split at h
      · cases h
      · exact (icmpOutput_silent ht h).2
      · cases h
        rfl
    · cases h
      rfl
  split at h
  next hproto =>
    unfold Eth.processArpPacket at h
    split at h
    · cases h
      rfl
    next hmine =>
      -- the operation is neither a request nor a reply
      dsimp only at h
      rw [if_neg fun hop => hnot ⟨hproto, not_not.mp hmine, .inl hop⟩,
        if_neg fun hop => hnot ⟨hproto, not_not.mp hmine, .inr hop⟩] at h
      cases h
      rfl
  · cases h
    rfl

end Host

/-! ### The network -/

section Network

variable {cfg : ι → NetConfig} {haddrOf : U32 → HwAddr} {S S' : Lan ι}
  {l : LanLabel ι} {ls : List (LanLabel ι)}

/-- Host `k` has heard of its gateway. -/
def HeardGateway (cfg : ι → NetConfig) (k : ι) (ls : List (LanLabel ι)) : Prop :=
  ∃ gw ifidx pktData, (cfg k).gateway = some gw ∧ LanLabel.deliver k ifidx pktData ∈ ls ∧
    HeardBy (cfg k) pktData ∧ Arphdr.arSip.get pktData = gw.daddr

/-- What holds of a network after the steps `ls`. -/
structure Lan.Inv (cfg : ι → NetConfig) (haddrOf : U32 → HwAddr) (ls : List (LanLabel ι)) (S : Lan ι) :
    Prop where
  truthful : ∀ x frame, (x, frame) ∈ S.sent → Truthful haddrOf frame
  table : ∀ k, (S.host k).t.Right haddrOf ((cfg k).gateway.map Gateway.daddr)
  heard : ∀ k, (S.host k).t.gateway.isSome ↔ HeardGateway cfg k ls
  toGateway : ∀ k frame, (some k, frame) ∈ S.sent → htons (Eth.hProto.get frame) = Eth.pIp →
    ∃ gw, (cfg k).gateway = some gw ∧ Eth.hDest.get frame = haddrOf gw.daddr

theorem Lan.inv_start (mem : ι → ℤ → ArpEntry) (g : ι → ArpManager) :
    (Lan.start mem g).Inv cfg haddrOf [] where
  truthful := fun _ _ h => by cases h
  table := fun _ => ⟨rfl, Nat.zero_le _, fun _ hi => absurd hi (Nat.not_lt_zero _), fun _ hi => by cases hi⟩
  heard := fun _ => iff_of_false Bool.false_ne_true fun ⟨_, _, _, _, hmem, _⟩ => by cases hmem
  toGateway := fun _ _ h => by cases h

/-- Only the arrival of a frame is heard. -/
theorem heardGateway_append {k : ι} :
    HeardGateway cfg k (ls ++ [l]) ↔ HeardGateway cfg k ls ∨ ∃ gw ifidx pktData,
      (cfg k).gateway = some gw ∧ l = .deliver k ifidx pktData ∧ HeardBy (cfg k) pktData ∧
        Arphdr.arSip.get pktData = gw.daddr := by
  constructor
  · rintro ⟨gw, ifidx, pktData, hgw, hmem, hrest⟩
    rcases List.mem_append.mp hmem with hmem | hmem
    · exact .inl ⟨gw, ifidx, pktData, hgw, hmem, hrest⟩
    · exact .inr ⟨gw, ifidx, pktData, hgw, (List.mem_singleton.mp hmem).symm, hrest⟩
  · rintro (⟨gw, ifidx, pktData, hgw, hmem, hrest⟩ | ⟨gw, ifidx, pktData, hgw, rfl, hrest⟩)
    · exact ⟨gw, ifidx, pktData, hgw, List.mem_append_left _ hmem, hrest⟩
    · exact ⟨gw, ifidx, pktData, hgw, List.mem_append_right _ (List.mem_singleton_self _), hrest⟩

variable [DecidableEq ι]

/-- Host `k` goes on with a right table, having sent what its table before had it send. -/
theorem Lan.Inv.after {k : ι} {s : ArpState} {out : Option Packet} {ls' : List (LanLabel ι)}
    (h : S.Inv cfg haddrOf ls) (hcfg : ∀ k, (cfg k).Right haddrOf)
    (ht : s.t.Right haddrOf ((cfg k).gateway.map Gateway.daddr))
    (hheard : ∀ j, (Function.update S.host k s j).t.gateway.isSome ↔ HeardGateway cfg j ls')
    (hout : ∀ frame, out = some frame → Sends (cfg k) (S.host k).t frame) :
    (S.after k s out).Inv cfg haddrOf ls' := by
  have hsent : ∀ x frame, (x, frame) ∈ (S.after k s out).sent →
      (x, frame) ∈ S.sent ∨ x = some k ∧ Sends (cfg k) (S.host k).t frame := by
    intro x frame hmem
    refine (List.mem_append.mp hmem).imp_right fun hnew => ?_
    obtain ⟨frame', hframe, heq⟩ := Option.map_eq_some_iff.mp (Option.mem_toList.mp hnew)
    cases heq
    exact ⟨rfl, hout frame hframe⟩
  refine ⟨fun x frame hmem => ?_, fun j => ?_, hheard, fun j frame hmem hip => ?_⟩
  · rcases hsent x frame hmem with hold | ⟨-, hsends⟩
    · exact h.truthful x frame hold
    · exact (hsends.right (hcfg k) (h.table k)).1
  · change (Function.update S.host k s j).t.Right _ _
    by_cases hj : j = k
    · subst hj
      rw [Function.update_self]
      exact ht
    · rw [Function.update_of_ne hj]
      exact h.table j
  · rcases hsent _ frame hmem with hold | ⟨hk, hsends⟩
    · exact h.toGateway j frame hold hip
    · obtain rfl := Option.some.inj hk
      exact (hsends.right (hcfg j) (h.table j)).2 hip

/-- A step in which host `k` hears of nobody. -/
theorem Lan.Inv.quiet {k : ι} {s : ArpState} (h : S.Inv cfg haddrOf ls)
    (ht : s.t = (S.host k).t)
    (hl : ∀ j ifidx pktData, l = .deliver j ifidx pktData → j = k ∧ ¬HeardBy (cfg k) pktData) (j : ι) :
    (Function.update S.host k s j).t.gateway.isSome ↔ HeardGateway cfg j (ls ++ [l]) := by
  have hold : (Function.update S.host k s j).t = (S.host j).t := by
    by_cases hj : j = k
    · subst hj
      rw [Function.update_self, ht]
    · rw [Function.update_of_ne hj]
  rw [hold, heardGateway_append, h.heard]
  refine (or_iff_left ?_).symm
  rintro ⟨gw, ifidx, pktData, -, rfl, hheard, -⟩
  obtain ⟨rfl, hnot⟩ := hl j ifidx pktData rfl
  exact hnot hheard

/-- **One step.** -/
theorem LanStep.inv (hcfg : ∀ k, (cfg k).Right haddrOf)
    (hstep : Guarded TableHasRoom (LanStep cfg haddrOf) S l S') (h : S.Inv cfg haddrOf ls) :
    S'.Inv cfg haddrOf (ls ++ [l]) := by
  obtain ⟨hroom, hstep⟩ := hstep
  cases hstep with
  | @request k ip nif env fuel s out hcall =>
    obtain ⟨-, ht, rfl⟩ := Eth.requestArp_ok_iff.mp hcall
    -- a call that returns has sent nothing
    exact h.after hcfg (ht ▸ h.table k) (h.quiet ht fun _ _ _ hl => by cases hl) fun _ hf => by cases hf
  | @ping k saddr daddr icmpId icmpSequence icmpd len env fuel s out hcall =>
    obtain ⟨ht, hsends⟩ := icmpOutput_sends hcall
    exact h.after hcfg (ht ▸ h.table k) (h.quiet ht fun _ _ _ hl => by cases hl) hsends
  | @deliver x k ifidx pktData env fuel s out hmem hcall =>
    obtain ⟨hcase, hsends⟩ := processPacket_cases hcall
    rcases hcase with ⟨hheard, op, ht⟩ | ⟨hnot, ht⟩
    · -- the sender is learned, and it told the truth
      obtain ⟨hright, hiff⟩ := (h.table k).learn
        (m := ⟨op, Arphdr.arSip.get pktData, Arphdr.arSha.get pktData⟩) hroom
        (h.truthful x pktData hmem hheard.proto)
      rw [← ht] at hright hiff
      refine h.after hcfg hright (fun j => ?_) hsends
      rw [heardGateway_append, ← h.heard]
      by_cases hj : j = k
      · subst hj
        rw [Function.update_self, hiff]
        refine or_congr_right ⟨fun hgw => ?_, ?_⟩
        · obtain ⟨gw, hsome, hdaddr⟩ := Option.map_eq_some_iff.mp hgw
          exact ⟨gw, ifidx, pktData, hsome, rfl, hheard, hdaddr.symm⟩
        · rintro ⟨gw, _, _, hsome, hl, -, hsip⟩
          cases hl
          rw [hsome]
          exact congrArg some hsip.symm
      · rw [Function.update_of_ne hj]
        refine (or_iff_left ?_).symm
        rintro ⟨_, _, _, -, hl, -, -⟩
        cases hl
        exact hj rfl
    · -- nothing was heard
      refine h.after hcfg (ht ▸ h.table k) (h.quiet ht fun _ _ _ hl => ?_) hsends
      cases hl
      exact ⟨rfl, hnot⟩
  | @station pktData htrue =>
    -- one true packet more, which nobody has heard yet
    refine ⟨fun x frame hmem => ?_, h.table, fun k => ?_, fun k frame hmem hip => ?_⟩
    · rcases List.mem_append.mp hmem with hold | hnew
      · exact h.truthful x frame hold
      · cases List.mem_singleton.mp hnew
        exact htrue
    · refine (h.heard k).trans (heardGateway_append.trans (or_iff_left ?_)).symm
      rintro ⟨_, _, _, -, hl, -, -⟩
      cases hl
    · rcases List.mem_append.mp hmem with hold | hnew
      · exact h.toGateway k frame hold hip
      · cases List.mem_singleton.mp hnew

theorem Lan.inv_run {mem : ι → ℤ → ArpEntry} {g : ι → ArpManager}
    (hcfg : ∀ k, (cfg k).Right haddrOf)
    (hrun : Run (Guarded TableHasRoom (LanStep cfg haddrOf)) (Lan.start mem g) ls S) :
    S.Inv cfg haddrOf ls :=
  hrun.history_invariant (fun ls S => S.Inv cfg haddrOf ls) (Lan.inv_start mem g)
    fun _ _ _ _ h hstep => LanStep.inv hcfg hstep h

/-- **Address resolution on a network.** In every run of any number of hosts and stations, however frames
are lost, repeated and delayed, as long as no table is full: every ARP packet names the hardware address of
its sender. A lookup that finds an address is one of the gateway, and the address is the gateway's; it finds
one exactly if the host has heard of its gateway. Every IP packet that a host sends goes to its gateway. -/
theorem lan_resolves (cfg : ι → NetConfig) (haddrOf : U32 → HwAddr) (mem : ι → ℤ → ArpEntry)
    (g : ι → ArpManager) (hcfg : ∀ k, (cfg k).Right haddrOf)
    (hrun : Run (Guarded TableHasRoom (LanStep cfg haddrOf)) (Lan.start mem g) ls S) :
    (∀ x frame, (x, frame) ∈ S.sent → Truthful haddrOf frame) ∧
      (∀ k dip isGateway haddr, getDestinationHwAddr (S.host k).t dip isGateway = some haddr →
        isGateway = 1 ∧ ∃ gw, (cfg k).gateway = some gw ∧ haddr = haddrOf gw.daddr) ∧
      (∀ k dip, (getDestinationHwAddr (S.host k).t dip 1).isSome ↔ HeardGateway cfg k ls) ∧
      ∀ k frame, (some k, frame) ∈ S.sent → htons (Eth.hProto.get frame) = Eth.pIp →
        ∃ gw, (cfg k).gateway = some gw ∧ Eth.hDest.get frame = haddrOf gw.daddr := by
  have hinv := Lan.inv_run hcfg hrun
  refine ⟨hinv.truthful, fun k dip isGateway haddr hfound => ?_, fun k dip => ?_, hinv.toGateway⟩
  · obtain ⟨hone, daddr, hgw, rfl⟩ := (hinv.table k).found hfound
    obtain ⟨gw, hsome, rfl⟩ := Option.map_eq_some_iff.mp hgw
    exact ⟨hone, gw, hsome, rfl⟩
  · exact ((hinv.table k).isSome_iff dip).trans (hinv.heard k)

/-! ### Silence -/

/-- No host knows anybody or has sent anything, and no host hears what was sent as an ARP packet. -/
structure Lan.Silent (cfg : ι → NetConfig) (S : Lan ι) : Prop where
  table : ∀ k, (S.host k).t.Silent
  sent : ∀ x frame, (x, frame) ∈ S.sent → x = none ∧ ∀ k, ¬HeardBy (cfg k) frame

theorem Lan.Silent.after {k : ι} {s : ArpState} (h : S.Silent cfg) (ht : s.t = (S.host k).t) :
    (S.after k s none).Silent cfg := by
  refine ⟨fun j => ?_, fun x frame hmem => h.sent x frame (by simpa [Lan.after] using hmem)⟩
  change (Function.update S.host k s j).t.Silent
  by_cases hj : j = k
  · subst hj
    rw [Function.update_self, ht]
    exact h.table j
  · rw [Function.update_of_ne hj]
    exact h.table j

/-- **One step.** -/
theorem LanStep.silent (hstep : LanStep cfg haddrOf S l S') (h : S.Silent cfg)
    (hl : ∀ pktData, l = .station pktData → ∀ k, ¬HeardBy (cfg k) pktData) : S'.Silent cfg := by
  cases hstep with
  | @request k ip nif env fuel s out hcall =>
    -- the broadcast stands behind a loop that does not end
    obtain ⟨-, ht, rfl⟩ := Eth.requestArp_ok_iff.mp hcall
    exact h.after ht
  | @ping k saddr daddr icmpId icmpSequence icmpd len env fuel s out hcall =>
    obtain ⟨ht, rfl⟩ := icmpOutput_silent (h.table k) hcall
    exact h.after ht
  | @deliver x k ifidx pktData env fuel s out hmem hcall =>
    obtain ⟨ht, rfl⟩ := processPacket_silent (h.table k) ((h.sent x pktData hmem).2 k) hcall
    exact h.after ht
  | @station pktData htrue =>
    refine ⟨h.table, fun x frame hmem => ?_⟩
    rcases List.mem_append.mp hmem with hold | hnew
    · exact h.sent x frame hold
    · cases List.mem_singleton.mp hnew
      exact ⟨rfl, hl pktData rfl⟩

/-- **Nobody speaks first.** In every run of any number of hosts and stations in which no station sends an
ARP packet that a host hears, no host ever sends a frame of any kind, and no lookup finds an address. -/
theorem nobody_speaks_first (cfg : ι → NetConfig) (haddrOf : U32 → HwAddr) (mem : ι → ℤ → ArpEntry)
    (g : ι → ArpManager) (hrun : Run (LanStep cfg haddrOf) (Lan.start mem g) ls S)
    (hquiet : ∀ pktData, LanLabel.station pktData ∈ ls → ∀ k, ¬HeardBy (cfg k) pktData) :
    (∀ k frame, (some k, frame) ∉ S.sent) ∧
      ∀ k dip isGateway, getDestinationHwAddr (S.host k).t dip isGateway = none := by
  have hsilent : S.Silent cfg := by
    refine hrun.history_invariant (fun ls S =>
      (∀ pktData, LanLabel.station pktData ∈ ls → ∀ k, ¬HeardBy (cfg k) pktData) → S.Silent cfg)
      (fun _ => ⟨fun _ => ⟨rfl, rfl⟩, fun _ _ hmem => by cases hmem⟩) ?_ hquiet
    intro ls T l U h hstep hquiet
    refine hstep.silent (h fun p hp => hquiet p (List.mem_append_left _ hp)) fun p hl => ?_
    exact hquiet p (List.mem_append_right _ (List.mem_singleton.mpr hl.symm))
  refine ⟨fun k frame hmem => ?_, fun k dip isGateway => (hsilent.table k).not_found dip isGateway⟩
  cases (hsilent.sent _ frame hmem).1

end Network

/-! ### Two hosts -/

/-- Every host has one interface, with a hardware address made of its IP address. -/
def twoHostHaddr (ip : U32) : HwAddr := ip.setWidth 48

/-- Host `true` is the gateway of host `false`. -/
def twoHosts (k : Bool) : NetConfig where
  eths := fun _ =>
    let ip := if k then 0x0100000a else 0x0200000a
    { ifindex := 0, haddr := twoHostHaddr ip, ipAddr := ip }
  ethsNum := 1
  nifToEidx := fun _ => 0
  gateway := if k then none else some ⟨0x0100000a, 0⟩
  rtable := []

/-- There is always a buffer. -/
def ampleEnv : NetEnv where
  getWptr := fun _ _ => some fun _ => 0
  rxRc := 0
  txRc := 0
  ipFastCsum := fun _ _ => 0
  promiscuousMode := false
  oddByte := fun _ => 0
  curTs := 0
  obj := none

/-- No request is in progress. -/
def noRequests : ArpManager := initArp (fun _ => none) 0 ⟨none, 0, 0, 0, 0⟩

def emptyEntries (_ : Bool) (_ : ℤ) : ArpEntry := ⟨0, 0, 0, 0, 0, 0⟩

theorem twoHosts_right (k : Bool) : (twoHosts k).Right twoHostHaddr :=
  ⟨fun _ _ => rfl, fun _ => Int.one_pos⟩

/-- The network before anything is sent. -/
def quietLan : Lan Bool := Lan.start emptyEntries fun _ => noRequests

/-- A reply of the gateway to host `false`, as a station may send it unasked. -/
def gatewayReply : Packet := fun i =>
  [0x0a, 0, 0, 2, 0, 0, 0x0a, 0, 0, 1, 0, 0, 8, 6, 0, 1, 8, 0, 6, 4, 0, 2,
    0x0a, 0, 0, 1, 0, 0, 0x0a, 0, 0, 1, 0x0a, 0, 0, 2, 0, 0, 0x0a, 0, 0, 2].getD i 0

theorem gatewayReply_heard :
    HeardBy (twoHosts false) gatewayReply ∧ Arphdr.arSip.get gatewayReply = 0x0100000a ∧
      Truthful twoHostHaddr gatewayReply := by
  refine ⟨⟨by decide, by decide, .inr (by decide)⟩, by decide, fun _ => by decide⟩

/-- The reply is sent and arrives. -/
theorem gatewayReply_run :
    ∃ S, Run (Guarded TableHasRoom (LanStep twoHosts twoHostHaddr)) quietLan
      [.station gatewayReply, .deliver false 0 gatewayReply] S := by
  obtain ⟨hheard, hsip, htrue⟩ := gatewayReply_heard
  have hloop : processArpReply noRequests (Arphdr.arSip.get gatewayReply) 1 = .ok noRequests := rfl
  have hlearned := processPacket_reply (s := quietLan.host false) ampleEnv 0 hheard.proto hheard.mine
    (by decide) hloop
  have hstation : Guarded TableHasRoom (LanStep twoHosts twoHostHaddr) quietLan (.station gatewayReply) _ :=
    ⟨trivial, .station htrue⟩
  exact ⟨_, (Run.single hstation).snoc ⟨show (0 : U32).toNat < 1024 by decide,
    .deliver (x := none) (List.mem_singleton_self _) hlearned⟩⟩

/-- After the reply of a station host `false` finds its gateway. -/
theorem lan_resolves_station :
    ∃ S, Run (Guarded TableHasRoom (LanStep twoHosts twoHostHaddr)) quietLan
        [.station gatewayReply, .deliver false 0 gatewayReply] S ∧
      (getDestinationHwAddr (S.host false).t 0 1).isSome ∧ getDestinationHwAddr (S.host true).t 0 1 = none := by
  obtain ⟨S, hrun⟩ := gatewayReply_run
  obtain ⟨hheard, hsip, -⟩ := gatewayReply_heard
  have hfound := (lan_resolves twoHosts twoHostHaddr emptyEntries (fun _ => noRequests) twoHosts_right hrun).2.2.1
  refine ⟨S, hrun, (hfound false 0).mpr ⟨⟨0x0100000a, 0⟩, 0, gatewayReply, rfl, by simp, hheard, hsip⟩, ?_⟩
  refine Option.not_isSome_iff_eq_none.mp fun hsome => ?_
  obtain ⟨gw, -, -, hgw, -⟩ := (hfound true 0).mp hsome
  cases hgw

/-- The two hosts with a route to their network. -/
def routedHosts (k : Bool) : NetConfig := { twoHosts k with rtable := [⟨0x00ffffff, 0x0000000a, 24, 0⟩] }

/-- Host `false` asks for its gateway and sends an echo request, both without memory for an entry of the
working list, and a frame arrives that is no ARP packet. -/
theorem nobody_speaks_first_two :
    ∃ S, Run (LanStep routedHosts twoHostHaddr) quietLan
        [.request false 0x0100000a 0, .ping false 0x0200000a 0x0100000a 1 1 (fun _ => 0) 8,
          .station fun _ => 0, .deliver false 0 fun _ => 0] S ∧
      ∀ k frame, (some k, frame) ∉ S.sent := by
  have hrequest : Eth.requestArp (routedHosts false) ampleEnv (quietLan.host false) 0x0100000a 0 1 =
      .ok (quietLan.host false, none) := rfl
  have hping : Eth.requestIcmp (routedHosts false) ampleEnv (quietLan.host false) 0x0200000a 0x0100000a 1 1
      (fun _ => 0) 8 1 = .ok (quietLan.host false, none) := rfl
  have hignored : Eth.processPacket (routedHosts false) ampleEnv (quietLan.host false) 0 (fun _ => 0) 1 =
      .ok (quietLan.host false, none) := rfl
  have hasked : LanStep routedHosts twoHostHaddr quietLan (.request false 0x0100000a 0) _ :=
    .request hrequest
  have hpinged := (Run.single hasked).snoc (.ping (k := false) hping)
  have hrun := (hpinged.snoc (.station fun harp => absurd harp (by decide))).snoc
    (.deliver (x := none) (k := false) (List.mem_singleton_self _) hignored)
  refine ⟨_, hrun, (nobody_speaks_first routedHosts twoHostHaddr emptyEntries (fun _ => noRequests) hrun ?_).1⟩
  intro pktData hmem k hheard
  have hzero : pktData = fun _ => 0 := by simpa using hmem
  subst hzero
  exact absurd hheard.proto (by decide)

end CmtTcp
