import CmtTcp.Tcp.Handlers

/-!
# The send sequence space of an established connection

`Ordered` says that the send buffer starts at `snd_una` and that `snd_nxt` lies between `snd_una` and
the end of the queued data. `cmt_tcp_handle_established` sets `snd_nxt` to the peer's `ack_seq` without comparing
it with the queued data in two places: for an unexpected SYN, and for the third duplicate of an
acknowledgement that lies behind `snd_una` (`Rewinds`). A call that returns keeps the relation exactly when
it does neither, or the acknowledgement lies inside the queued data (`established_ordered_iff`).
-/

namespace CmtTcp

open Lib (Outcome)

variable {ρ : Type}

/-! ### The relation -/

/-- `v` are `snd_nxt`, `snd_una` and the send buffer: the buffer starts at `snd_una`, and
`snd_una <= snd_nxt <= head_seq + len` around the circle. -/
def OrderedView (v : U32 × U32 × Option SendBuffer) : Prop :=
  ∃ buf, v.2.2 = some buf ∧ buf.headSeq = v.2.1 ∧ seqOff v.2.1 v.1 ≤ buf.len.toNat ∧
    buf.len.toNat < 2 ^ 31

/-- The send sequence relation of a stream. -/
def Stream.Ordered (s : Stream ρ) : Prop := OrderedView s.sendView

/-- The segment makes `cmt_tcp_handle_established` set `snd_nxt` to its acknowledgement number: by its
SYN, or as the third duplicate. -/
def Rewinds (s : Stream ρ) (buf : SendBuffer) (seg : Segment) : Prop :=
  seg.syn ∨ (seg.ack ∧ ¬tcpSeqGt seg.ackSeq (buf.headSeq + buf.len) ∧ thirdDup s seg)

theorem orderedView_some {nxt una : U32} {buf : SendBuffer} (hhead : buf.headSeq = una)
    (hlen : buf.len.toNat < 2 ^ 31) :
    OrderedView (nxt, una, some buf) ↔ seqOff una nxt ≤ buf.len.toNat := by
  constructor
  · rintro ⟨b, hb, -, hle, -⟩
    cases hb
    exact hle
  · intro hle
    exact ⟨buf, rfl, hhead, hle, hlen⟩

/-! ### An acknowledgement -/

section Acknowledgement

variable {s : Stream ρ} {buf : SendBuffer} {seg : Segment}

/-- Where an acknowledgement leaves `snd_nxt` when it is not the third duplicate: the further one of the
two, as long as it does not lie behind the queued data. -/
theorem nxtAfterAck_of_not_third (h3 : ¬thirdDup s seg) :
    nxtAfterAck s seg =
      if tcpSeqGt (ackSeqOf s seg.ackSeq) s.sndNxt then ackSeqOf s seg.ackSeq else s.sndNxt := by
  unfold nxtAfterAck
  dsimp only
  rw [if_neg h3]

theorem nxtAfterAck_of_third (h3 : thirdDup s seg) :
    nxtAfterAck s seg = ackSeqOf s seg.ackSeq := by
  unfold nxtAfterAck
  dsimp only
  rw [if_pos h3, ite_self]

/-- Where nothing leaves the buffer and the acknowledgement is not ahead of `snd_nxt`, only the third
duplicate moves `snd_nxt`. -/
theorem nxtAfterAck_ordered_iff (hhead : buf.headSeq = s.snd.sndUna)
    (hnxt : seqOff s.snd.sndUna s.sndNxt ≤ buf.len.toNat) (hlen : buf.len.toNat < 2 ^ 31)
    (hack : ackSeqOf s seg.ackSeq = seg.ackSeq)
    (hgt : ¬tcpSeqGt seg.ackSeq (buf.headSeq + buf.len))
    (hback : ¬tcpSeqGt seg.ackSeq s.sndNxt) :
    OrderedView (nxtAfterAck s seg, s.snd.sndUna, some buf) ↔
      (¬tcpSeqGt seg.ackSeq (buf.headSeq + buf.len) ∧ thirdDup s seg →
        seqOff s.snd.sndUna seg.ackSeq ≤ buf.len.toNat) := by
  rw [orderedView_some hhead hlen]
  by_cases h3 : thirdDup s seg
  · rw [nxtAfterAck_of_third h3, hack]
    exact ⟨fun h _ => h, fun h => h ⟨hgt, h3⟩⟩
  · rw [nxtAfterAck_of_not_third h3, hack, if_neg hback]
    exact iff_of_true hnxt fun h => absurd h.2 h3

/-- Where the acknowledged bytes leave the buffer, `snd_nxt` is still in what remains. -/
theorem seqOff_nxtAfterAck_le (hnxt : seqOff s.snd.sndUna s.sndNxt ≤ buf.len.toNat)
    (hlen : buf.len.toNat < 2 ^ 31) (hack : ackSeqOf s seg.ackSeq = seg.ackSeq)
    (hin : seqOff s.snd.sndUna seg.ackSeq ≤ buf.len.toNat) :
    seqOff seg.ackSeq (nxtAfterAck s seg) ≤
      buf.len.toNat - seqOff s.snd.sndUna seg.ackSeq := by
  unfold seqOff at *
  by_cases h3 : thirdDup s seg
  · rw [nxtAfterAck_of_third h3, hack]
    bv_omega
  · rw [nxtAfterAck_of_not_third h3, hack]
    by_cases hfwd : tcpSeqGt seg.ackSeq s.sndNxt
    · rw [if_pos hfwd]
      bv_omega
    · rw [if_neg hfwd]
      have hfwd' := mt tcpSeqGt_iff.mpr hfwd
      bv_omega

section Circle

variable {una nxt ack len : U32}

/-- An acknowledgement behind the queued data that acknowledges nothing new is not ahead of `snd_nxt`. -/
theorem not_ahead_of_old (hnxt : (nxt - una).toNat ≤ len.toNat) (hlen : len.toNat < 2 ^ 31)
    (hgt : ¬(0 < (ack - (una + len)).toNat ∧ (ack - (una + len)).toNat < 2 ^ 31))
    (hge : (una - ack).toNat < 2 ^ 31) : ¬(0 < (ack - nxt).toNat ∧ (ack - nxt).toNat < 2 ^ 31) := by
  bv_omega

/-- What is acknowledged is at least one byte, and at most half the circle. -/
theorem acked_of_not_old (hge : ¬(una - ack).toNat < 2 ^ 31) :
    0 < (ack - una).toNat ∧ (ack - una).toNat ≤ 2 ^ 31 := by
  constructor <;> bv_omega

/-- More than the queued data is acknowledged only half the circle away from an empty buffer. -/
theorem half_circle (hlen : len.toNat < 2 ^ 31)
    (hgt : ¬(0 < (ack - (una + len)).toNat ∧ (ack - (una + len)).toNat < 2 ^ 31))
    (hd : (ack - una).toNat ≤ 2 ^ 31) (hin : ¬(ack - una).toNat ≤ len.toNat) :
    len.toNat = 0 ∧ (ack - una).toNat = 2 ^ 31 := by
  constructor <;> bv_omega

theorem not_ahead_of_half (hnxt : (nxt - una).toNat ≤ 0) (hd : (ack - una).toNat = 2 ^ 31) :
    ¬(0 < (ack - nxt).toNat ∧ (ack - nxt).toNat < 2 ^ 31) := by
  bv_omega

end Circle

/-- An acknowledgement that `cmt_tcp_process_ack` does not refuse keeps the relation, unless it is the third
duplicate and lies outside the queued data. -/
theorem ackView_ordered_iff (hbuf : s.snd.sndbuf = some buf) (hhead : buf.headSeq = s.snd.sndUna)
    (hnxt : seqOff s.snd.sndUna s.sndNxt ≤ buf.len.toNat) (hlen : buf.len.toNat < 2 ^ 31)
    (hack : ackSeqOf s seg.ackSeq = seg.ackSeq) :
    OrderedView (ackView s buf seg) ↔
      (¬tcpSeqGt seg.ackSeq (buf.headSeq + buf.len) ∧ thirdDup s seg →
        seqOff s.snd.sndUna seg.ackSeq ≤ buf.len.toNat) := by
  unfold ackView
  rw [hack]
  dsimp only
  by_cases hgt : tcpSeqGt seg.ackSeq (buf.headSeq + buf.len)
  · -- ahead of the queued data: the call changes nothing
    rw [if_pos hgt]
    refine iff_of_true ⟨buf, hbuf, hhead, hnxt, hlen⟩ fun h => absurd hgt h.1
  rw [if_neg hgt]
  have hgt' := mt tcpSeqGt_iff.mpr hgt
  rw [hhead] at hgt'
  have hin' := @seqOff_nxtAfterAck_le _ s buf seg hnxt hlen hack
  have hold := @nxtAfterAck_ordered_iff _ s buf seg hhead hnxt hlen hack hgt
  rw [tcpSeqGt_iff] at hold
  unfold seqOff at *
  by_cases hge : tcpSeqGeq buf.headSeq seg.ackSeq
  · -- nothing new is acknowledged
    rw [if_pos hge]
    have hge' := tcpSeqGeq_iff.mp hge
    rw [hhead] at hge'
    exact hold (not_ahead_of_old hnxt hlen hgt' hge')
  rw [if_neg hge]
  have hge' := mt tcpSeqGeq_iff.mpr hge
  rw [hhead] at hge'
  have hd := acked_of_not_old hge'
  have hrm : ((seg.ackSeq - buf.headSeq).setWidth 64).toNat = (seg.ackSeq - s.snd.sndUna).toNat := by
    rw [hhead]
    bv_omega
  by_cases hin : (seg.ackSeq - s.snd.sndUna).toNat ≤ buf.len.toNat
  · -- the acknowledged bytes leave the buffer, and `snd_una` follows
    refine iff_of_true ?_ fun _ => hin
    obtain ⟨hh, hl, hr⟩ :=
      @sbRemove_of_le buf ((seg.ackSeq - buf.headSeq).setWidth 64) (by omega) (by omega)
    have hret : ¬((sbRemove buf ((seg.ackSeq - buf.headSeq).setWidth 64)).2.setWidth 32).toInt ≤ 0 := by
      rw [hr, BitVec.toInt_eq_toNat_cond]
      split <;> bv_omega
    rw [if_neg hret, orderedView_some]
    · rw [hl]
      refine Nat.le_trans (hin' hin) ?_
      bv_omega
    · rw [hh]
      bv_omega
    · rw [hl]
      bv_omega
  · -- half the circle away from an empty buffer: there is nothing to remove
    have hempty := half_circle hlen hgt' hd.2 hin
    rw [sbRemove_of_empty (by omega) hempty.1]
    have hret : ((-2 : U64).setWidth 32).toInt ≤ 0 := by decide
    dsimp only
    rw [if_pos hret]
    rw [hempty.1] at hnxt
    exact hold (not_ahead_of_half hnxt hempty.2)

end Acknowledgement

/-! ### The handler -/

section Established

variable {P : Parts ρ} {c c' : Conn ρ} {a : Arrival ρ} {buf : SendBuffer}

/-- The payload step does not change whether an acknowledgement is the third duplicate: a duplicate has no
payload. -/
theorem thirdDup_receivePayload {c₁ : Conn ρ} (h : receivePayload P c a = .ok c₁) :
    thirdDup c₁.stream a.seg = thirdDup c.stream a.seg := by
  by_cases hpos : a.seg.payloadlen > 0
  · have hfalse : ∀ s : Stream ρ, thirdDup s a.seg = false := by
      intro s
      have hne : (a.seg.payloadlen == 0) = false := by
        rw [beq_eq_false_iff_ne]
        omega
      unfold thirdDup isDup
      simp only [hne, Bool.and_false, Bool.false_and]
    rw [hfalse, hfalse]
  · rw [receivePayload_of_nonpos hpos] at h
    cases h
    rfl

theorem ackSeqOf_of_state {s : Stream ρ} (h : s.state = .established ∨ s.state = .closed)
    (ackSeq : U32) : ackSeqOf s ackSeq = ackSeq := by
  unfold ackSeqOf
  rcases h with h | h
  · simp [h]
  · simp [h]

/-- The acknowledgement step of `cmt_tcp_handle_established`. -/
theorem establishedAck_ordered_iff {c₁ : Conn ρ} (hst : c.stream.state = .established)
    (hbuf : c.stream.snd.sndbuf = some buf) (hord : c.stream.Ordered)
    (hpayload : receivePayload P c a = .ok c₁) (hr : establishedAck c₁ a = .ok c') :
    c'.stream.Ordered ↔
      (a.seg.ack ∧ ¬tcpSeqGt a.seg.ackSeq (buf.headSeq + buf.len) ∧ thirdDup c.stream a.seg →
        seqOff c.stream.snd.sndUna a.seg.ackSeq ≤ buf.len.toNat) := by
  obtain ⟨hpay, hview⟩ := (receivePayload_step P c a).of_ok hpayload
  have hthird := thirdDup_receivePayload hpayload
  have hstate : c₁.stream.state = .established ∨ c₁.stream.state = .closed := by
    rcases hpay.state with h | h
    · exact .inl (h.trans hst)
    · exact .inr h.1
  -- from here on only the send view of the stream counts
  unfold establishedAck at hr
  by_cases hack : a.seg.ack
  · rw [if_pos hack] at hr
    simp only [hack, true_and]
    obtain ⟨b, hb, hhead, hnxt, hlen⟩ := hord
    have hvw := hview
    simp only [Stream.sendView, Prod.mk.injEq] at hvw hb hhead hnxt
    obtain rfl : buf = b := Option.some.inj (hbuf.symm.trans hb)
    have hbuf₁ : c₁.stream.snd.sndbuf = some buf := hvw.2.2.trans hbuf
    unfold receiveAck at hr
    rw [if_pos (by rw [hbuf₁]; rfl)] at hr
    have hout := (processAck_outcome hbuf₁ a.seg a.ts).of_ok hr
    unfold Stream.Ordered
    rw [hout.2, ackView_ordered_iff hbuf₁ (by rw [hvw.2.1]; exact hhead)
      (by rw [hvw.1, hvw.2.1]; exact hnxt) hlen (ackSeqOf_of_state hstate _), hthird, hvw.2.1]
  · rw [if_neg hack] at hr
    cases hr
    refine iff_of_true ?_ fun h => absurd h.1 hack
    unfold Stream.Ordered
    rw [hview]
    exact hord

/-- The handling of a FIN does not touch the send sequence space. -/
theorem establishedFin_sendView (c : Conn ρ) (a : Arrival ρ) :
    (establishedFin c a).stream.sendView = c.stream.sendView := by
  unfold establishedFin
  split
  · split
    · exact (addtoControllist_scheduled _).sendView
    · exact (enqueueAcklist_scheduled c .now).sendView
  · rfl

/-- **Send sequence invariant.** From an established stream whose send sequence space is in order, a
call of `cmt_tcp_handle_established` that returns leaves it in order if and only if the segment does not
set `snd_nxt` to an acknowledgement number outside the queued data. -/
theorem established_ordered_iff (P : Parts ρ) (c c' : Conn ρ) (a : Arrival ρ) (buf : SendBuffer)
    (hst : c.stream.state = .established) (hbuf : c.stream.snd.sndbuf = some buf)
    (hord : c.stream.Ordered) (hr : handleEstablished P c a = .ok c') :
    c'.stream.Ordered ↔
      (Rewinds c.stream buf a.seg → seqOff c.stream.snd.sndUna a.seg.ackSeq ≤ buf.len.toNat) := by
  unfold handleEstablished at hr
  unfold Rewinds
  by_cases hsyn : a.seg.syn
  · -- a SYN: `snd_nxt` is the acknowledgement number, whatever it is
    rw [if_pos hsyn] at hr
    cases hr
    simp only [hsyn, true_or, true_imp_iff]
    unfold Stream.Ordered
    rw [(addtoControllist_scheduled _).sendView]
    obtain ⟨b, hb, hhead, -, hlen⟩ := hord
    simp only [Stream.sendView] at hb hhead
    obtain rfl : buf = b := Option.some.inj (hbuf.symm.trans hb)
    change OrderedView (a.seg.ackSeq, c.stream.snd.sndUna, c.stream.snd.sndbuf) ↔ _
    rw [hbuf]
    exact orderedView_some hhead hlen
  · rw [if_neg hsyn] at hr
    simp only [hsyn, Bool.false_eq_true, false_or]
    cases hpayload : receivePayload P c a with
    | error e =>
      rw [hpayload] at hr
      cases hr
    | ok c₁ =>
    rw [hpayload] at hr
    cases hmid : establishedAck c₁ a with
    | error e =>
      change (establishedAck c₁ a >>= fun c => .ok (establishedFin c a)) = .ok c' at hr
      rw [hmid] at hr
      cases hr
    | ok c₂ =>
      -- the FIN is handled last, and moves nothing on the sending side
      change (establishedAck c₁ a >>= fun c => .ok (establishedFin c a)) = .ok c' at hr
      rw [hmid] at hr
      cases hr
      rw [← establishedAck_ordered_iff hst hbuf hord hpayload hmid]
      unfold Stream.Ordered
      rw [establishedFin_sendView]

end Established

/-! ### An acknowledgement outside the queued data -/

/-- An established stream that sent ten of the twenty bytes it has queued. -/
def halfSent : Conn (U32 × U32) where
  tcp := default
  log := []
  stream :=
    { (default : Stream (U32 × U32)) with
      state := .established
      sndNxt := 110
      rcvNxt := 90
      snd :=
        { (default : SndVar) with
          mss := 1460, effMss := 1448, sndUna := 100, cwnd := 1460, peerWnd := 8192, rto := 500
          sndbuf := some
            { data := List.replicate 64 0, head := 0, headOff := 0, tailOff := 20, len := 20
              cumLen := 20, size := 64, headSeq := 100, initSeq := 100 } }
      rcv := { (default : RcvVar (U32 × U32)) with
        rcvWnd := 8192, sndWl1 := 90, sndWl2 := 90, lastAckSeq := 90, dupAcks := 2 } }

/-- A segment without payload for `halfSent`. -/
def bareSegment (syn : Bool) (ackSeq : U32) : Arrival (U32 × U32) where
  seg := { (default : Segment) with
    ihl := 5, doff := 5, totLen := 40, seq := 90, ackSeq := ackSeq, ack := true, syn := syn
    window := 8192 }
  ts := 0
  listener := none
  streamObj := none
  sndObj := none
  rcvObj := none
  rand := 0
  recvGet := fun _ => none

theorem halfSent_ordered : halfSent.stream.Ordered :=
  ⟨_, rfl, rfl, by decide, by decide⟩

/-- At an acknowledgement of the ten bytes that were sent. -/
theorem established_ordered_iff_halfSent :
    ∃ c', handleEstablished inOrderParts halfSent (bareSegment false 110) = .ok c' ∧
      ∃ buf, halfSent.stream.snd.sndbuf = some buf ∧
        (c'.stream.Ordered ↔
          (Rewinds halfSent.stream buf (bareSegment false 110).seg →
            seqOff halfSent.stream.snd.sndUna 110 ≤ buf.len.toNat)) := by
  refine ⟨_, rfl, _, rfl, ?_⟩
  exact established_ordered_iff inOrderParts halfSent _ (bareSegment false 110) _ rfl rfl
    halfSent_ordered rfl

/-- A SYN whose acknowledgement number lies far behind `snd_una` leaves `snd_nxt` there. -/
theorem established_disorders :
    ¬∀ (c c' : Conn (U32 × U32)) (a : Arrival (U32 × U32)), c.stream.state = .established →
      c.stream.Ordered → handleEstablished inOrderParts c a = .ok c' → c'.stream.Ordered := by
  intro h
  obtain ⟨buf, hbuf, -, hle, -⟩ :=
    h halfSent _ (bareSegment true 7) rfl halfSent_ordered rfl
  cases hbuf
  exact absurd hle (by decide)

/-- So does the third duplicate of an acknowledgement ten bytes behind `snd_una`. -/
example : ∃ c', handleEstablished inOrderParts halfSent (bareSegment false 90) = .ok c' ∧
    c'.stream.sndNxt = 90 ∧ c'.stream.snd.sndUna = 100 := ⟨_, rfl, rfl, rfl⟩

end CmtTcp
