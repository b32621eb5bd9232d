import CmtTcp.Tcp.Lists

/-!
# Processing an acknowledgement

`cmt_tcp_estimate_rtt` and `cmt_tcp_process_ack` of `tcp.c`, the latter cut at its stages: the window
update, the test for a duplicate, the two answers to duplicates, the advance of `snd_nxt`, and the
removal of what is acknowledged.

`processAck_outcome` says what a call leaves alone, how it can fail, and where it leaves `snd_nxt`,
`snd_una` and the send buffer (`ackView`).
-/

namespace CmtTcp

open Lib (Outcome)

variable {ρ : Type}

/-! ### Round-trip times -/

/-- The deviation of a sample `m` from the smoothed time, as `cmt_tcp_estimate_rtt` adds it to
`mdev`. -/
def rttDeviation (rcv : RcvVar ρ) (m : ℤ) : ℤ :=
  let m := m - (rcv.srtt >>> 3).toNat
  if m < 0 then
    let m := -m - (rcv.mdev >>> 2).toNat
    if m > 0 then m / 8 else m
  else m - (rcv.mdev >>> 2).toNat

/-- `cmt_tcp_estimate_rtt` -/
def estimateRtt (c : Conn ρ) (mrtt : U32) : Conn ρ :=
  let m : ℤ := if mrtt = 0 then 1 else mrtt.toNat
  let sndUna := c.stream.snd.sndUna
  let sndNxt := c.stream.sndNxt
  c.modRcv fun rcv =>
    if rcv.srtt ≠ 0 then
      let rcv :=
        { rcv with
          srtt := rcv.srtt + 3
          mdev := rcv.mdev + BitVec.ofInt 32 (rttDeviation rcv m) }
      let rcv :=
        if rcv.mdev > rcv.mdevMax then
          { rcv with
            mdevMax := rcv.mdev
            rttvar := if rcv.mdev > rcv.rttvar then rcv.mdev else rcv.rttvar }
        else rcv
      if tcpSeqGt sndUna rcv.rttSeq then
        { rcv with
          rttvar :=
            if rcv.mdevMax < rcv.rttvar then rcv.rttvar - (rcv.rttvar - rcv.mdevMax)
            else rcv.rttvar
          rttSeq := sndNxt
          mdevMax := 0 }
      else rcv
    else
      let mdev := BitVec.ofInt 32 (m * 2)
      { rcv with
        srtt := BitVec.ofInt 32 (m * 8)
        mdev := mdev
        mdevMax := mdev
        rttvar := mdev
        rttSeq := sndNxt }

/-! ### The stages of `cmt_tcp_process_ack` -/

/-- `ack_seq` without the FIN it may count. -/
def ackSeqOf (s : Stream ρ) (ackSeq : U32) : U32 :=
  if (s.state = .finWait1 ∨ s.state = .finWait2 ∨ s.state = .closing ∨ s.state = .closeWait ∨
      s.state = .lastAck) ∧ s.snd.isFinSent ∧ ackSeq = s.snd.fss + 1 then ackSeq - 1
  else ackSeq

/-- `cwindow` -/
def cwindow (s : Stream ρ) (seg : Segment) : U32 :=
  if seg.syn then seg.window.setWidth 32 else seg.window.setWidth 32 <<< s.snd.wscalePeer

/-- The window update. -/
def windowUpdate (seg : Segment) (ackSeq : U32) (s : Stream ρ) : Stream ρ :=
  if tcpSeqLt s.rcv.sndWl1 seg.seq ∨
      (s.rcv.sndWl1 = seg.seq ∧ tcpSeqLt s.rcv.sndWl2 ackSeq) ∨
      (s.rcv.sndWl2 = ackSeq ∧ cwindow s seg > s.snd.peerWnd) then
    { s with
      snd := { s.snd with peerWnd := cwindow s seg }
      rcv := { s.rcv with sndWl1 := seg.seq, sndWl2 := ackSeq } }
  else s

/-- `right_wnd_edge` -/
def rightWndEdge (s : Stream ρ) : U32 := s.snd.peerWnd + s.rcv.sndWl1

/-- `dup`, from the stream after the window update and `right_wnd_edge` from before it. -/
def isDup (s : Stream ρ) (ackSeq : U32) (payloadlen : ℤ) (edge : U32) : Bool :=
  tcpSeqLt ackSeq s.sndNxt && ackSeq == s.rcv.lastAckSeq && payloadlen == 0 &&
    s.rcv.sndWl2 + s.snd.peerWnd == edge

/-- The count of duplicates. As an `int`, `dup_acks + 1` is always larger than `dup_acks`. -/
def countDup (dup : Bool) (ackSeq : U32) (s : Stream ρ) : Stream ρ :=
  if dup then { s with rcv := { s.rcv with dupAcks := s.rcv.dupAcks + 1 } }
  else { s with rcv := { s.rcv with dupAcks := 0, lastAckSeq := ackSeq } }

/-- `ssthresh` after three duplicates. -/
def lossSsthresh (snd : SndVar) : U32 :=
  let half := (if snd.cwnd < snd.peerWnd then snd.cwnd else snd.peerWnd) / 2
  if half < 2 * snd.mss.setWidth 32 then 2 * snd.mss.setWidth 32 else half

/-- The answer to three duplicates. -/
def fastRetransmit (c : Conn ρ) (ackSeq : U32) : Except Abort (Conn ρ) :=
  let c :=
    if tcpSeqLt ackSeq c.stream.sndNxt then c.mod fun s => { s with sndNxt := ackSeq } else c
  addtoSendlist <| c.modSnd fun snd =>
    { snd with
      ssthresh := lossSsthresh snd
      cwnd := lossSsthresh snd + 3 * snd.mss.setWidth 32
      nrtx := if snd.nrtx < tcpMaxRtx then snd.nrtx + 1 else snd.nrtx }

/-- What is done about duplicates. -/
def answerDup (c : Conn ρ) (dup : Bool) (ackSeq : U32) : Except Abort (Conn ρ) :=
  if dup ∧ c.stream.rcv.dupAcks = 3 then fastRetransmit c ackSeq
  else if c.stream.rcv.dupAcks > 3 then
    .ok <| c.modSnd fun snd =>
      if snd.cwnd + snd.mss.setWidth 32 > snd.cwnd then
        { snd with cwnd := snd.cwnd + snd.mss.setWidth 32 }
      else snd
  else .ok c

/-- The advance of `snd_nxt` to an acknowledgement ahead of it. -/
def raiseSndNxt (c : Conn ρ) (buf : SendBuffer) (ackSeq : U32) : Conn ρ :=
  if tcpSeqGt ackSeq c.stream.sndNxt then
    let c := c.mod fun s => { s with sndNxt := ackSeq }
    if buf.len = 0 then removeSendlist c else c
  else c

/-- `packets` -/
def ackPackets (rmlen : U32) (effMss : U16) : U16 :=
  let packets := (rmlen / effMss.setWidth 32).setWidth 16
  if rmlen / effMss.setWidth 32 * effMss.setWidth 32 > rmlen then packets + 1 else packets

/-- The retransmission timeout from a new sample. -/
def updateRto (c : Conn ρ) (curTs : U32) : Except Abort (Conn ρ) :=
  if c.stream.sawTimestamp then
    let c := estimateRtt c (curTs - c.stream.rcv.tsLastackRcvd)
    let rto := (c.stream.rcv.srtt >>> 3) + c.stream.rcv.rttvar
    let c := c.modSnd fun snd => { snd with rto := rto }
    if c.stream.snd.rto > 0 then .ok c else .error .assertRto
  else .ok c

/-- The growth of the congestion window. -/
def growCwnd (c : Conn ρ) (packets : U16) : Except Abort (Conn ρ) :=
  let snd := c.stream.snd
  if c.stream.state.code ≥ TcpState.established.code then
    if snd.cwnd < snd.ssthresh ∧ snd.cwnd + snd.mss.setWidth 32 > snd.cwnd then
      .ok <| c.modSnd fun snd =>
        { snd with cwnd := snd.cwnd + snd.mss.setWidth 32 * packets.setWidth 32 }
    else .ok c
  else if snd.cwnd = 0 then .error .divZero
  else
    let newCwnd := snd.cwnd +
      packets.setWidth 32 * snd.mss.setWidth 32 * snd.mss.setWidth 32 / snd.cwnd
    .ok <| c.modSnd fun snd => if newCwnd > snd.cwnd then { snd with cwnd := newCwnd } else snd

/-- The end of `cmt_tcp_process_ack` once `sb_remove` left `buf` and returned `ret`. -/
def ackRemoved (c : Conn ρ) (buf : SendBuffer) (ret : U64) (ackSeq curTs : U32) :
    Except Abort (Conn ρ) :=
  let c := c.modSnd fun snd => { snd with sndbuf := some buf }
  if (ret.setWidth 32).toInt ≤ 0 then .ok c
  else
    updateRetransmissionTimer
      (c.modSnd fun snd => { snd with sndUna := ackSeq, sndWnd := buf.size - buf.len }) curTs

/-- The end of `cmt_tcp_process_ack`: the bytes in front of `ack_seq` are removed. -/
def ackRemove (c : Conn ρ) (buf : SendBuffer) (ackSeq curTs : U32) : Except Abort (Conn ρ) :=
  let rmlen := ackSeq - buf.headSeq
  if rmlen > 0 then
    if c.stream.snd.effMss = 0 then .error .divZero
    else do
      let packets := ackPackets rmlen c.stream.snd.effMss
      let c ← updateRto c curTs
      let c ← growCwnd c packets
      let removed := sbRemove buf (rmlen.setWidth 64)
      ackRemoved c removed.1 removed.2 ackSeq curTs
  else .ok c

/-- `cmt_tcp_process_ack` -/
def processAck (c : Conn ρ) (seg : Segment) (curTs : U32) : Except Abort (Conn ρ) :=
  match c.stream.snd.sndbuf with
  | none => .error .nullDeref
  | some buf =>
    let edge := rightWndEdge c.stream
    let ackSeq := ackSeqOf c.stream seg.ackSeq
    if tcpSeqGt ackSeq (buf.headSeq + buf.len) then .ok c
    else do
      let c := c.mod (windowUpdate seg ackSeq)
      let dup := isDup c.stream ackSeq seg.payloadlen edge
      let c ← answerDup (c.mod (countDup dup ackSeq)) dup ackSeq
      let c := raiseSndNxt c buf ackSeq
      if tcpSeqGeq buf.headSeq ackSeq then .ok c
      else ackRemove c buf ackSeq curTs

/-! ### What the stages leave alone -/

/-- What the send sequence space and the send buffer of a stream are. -/
def Stream.sendView (s : Stream ρ) : U32 × U32 × Option SendBuffer :=
  (s.sndNxt, s.snd.sndUna, s.snd.sndbuf)

theorem Conn.Scheduled.sendView {c c' : Conn ρ} (h : c.Scheduled c') :
    c'.stream.sendView = c.stream.sendView := by
  unfold Stream.sendView
  rw [h.sndNxt, h.sndUna, h.sndbuf]

/-- The stream without what the answer to duplicates and the growth of the window change: `snd_nxt`, the
window, the count of retransmissions and the mark of the send list. -/
def Stream.uncongested (s : Stream ρ) : Stream ρ :=
  { s with
    sndNxt := 0
    snd := { s.snd with ssthresh := 0, cwnd := 0, nrtx := 0, onSendList := false } }

/-- What does not look at these fields is the same. -/
theorem Stream.view_of_uncongested {α : Type} {s s' : Stream ρ} (view : Stream ρ → α)
    (hview : ∀ s, view s.uncongested = view s) (h : s'.uncongested = s.uncongested) :
    view s' = view s := by
  rw [← hview s', h, hview]

section Stages

variable {c : Conn ρ} {buf : SendBuffer} {seg : Segment} {ackSeq curTs : U32}

theorem answerDup_uncongested (c : Conn ρ) (dup : Bool) (ackSeq : U32) :
    Outcome (answerDup c dup ackSeq) (· = .assertZero) fun c' =>
      c'.stream.uncongested = c.stream.uncongested := by
  unfold answerDup
  refine Outcome.ite (fun _ => ?_) fun _ => Outcome.ite (fun _ => ?_) fun _ => rfl
  · unfold fastRetransmit
    refine (addtoSendlist_stream _).mono (fun _ he => he) fun c' h => ?_
    rw [h]
    split
    · rfl
    · rfl
  · rw [Outcome.ok_iff]
    unfold Conn.modSnd Conn.mod
    dsimp only
    split
    · rfl
    · rfl

theorem raiseSndNxt_uncongested (c : Conn ρ) (buf : SendBuffer) (ackSeq : U32) :
    (raiseSndNxt c buf ackSeq).stream.uncongested = c.stream.uncongested := by
  unfold raiseSndNxt removeSendlist
  dsimp only
  repeat' split
  all_goals rfl

theorem growCwnd_uncongested (c : Conn ρ) (packets : U16) :
    Outcome (growCwnd c packets) (· = .divZero) fun c' =>
      c'.stream.uncongested = c.stream.uncongested := by
  unfold growCwnd
  refine Outcome.ite (fun _ => Outcome.ite (fun _ => rfl) fun _ => rfl) fun _ =>
    Outcome.ite (fun _ => rfl) fun _ => ?_
  rw [Outcome.ok_iff]
  unfold Conn.modSnd Conn.mod
  dsimp only
  split
  · rfl
  · rfl

theorem windowUpdate_steady (c : Conn ρ) (seg : Segment) (ackSeq : U32) :
    c.Steady (c.mod (windowUpdate seg ackSeq)) ∧
      (windowUpdate seg ackSeq c.stream).sendView = c.stream.sendView ∧
      (windowUpdate seg ackSeq c.stream).rcv.dupAcks = c.stream.rcv.dupAcks := by
  unfold windowUpdate Conn.mod
  dsimp only
  split
  · exact ⟨⟨rfl, rfl⟩, rfl, rfl⟩
  · exact ⟨.refl c, rfl, rfl⟩

theorem countDup_steady (c : Conn ρ) (dup : Bool) (ackSeq : U32) :
    c.Steady (c.mod (countDup dup ackSeq)) ∧
      (countDup dup ackSeq c.stream).sendView = c.stream.sendView := by
  unfold countDup Conn.mod
  dsimp only
  split
  · exact ⟨⟨rfl, rfl⟩, rfl⟩
  · exact ⟨⟨rfl, rfl⟩, rfl⟩

theorem fastRetransmit_outcome (hbuf : c.stream.snd.sndbuf ≠ none) (ackSeq : U32) :
    Outcome (fastRetransmit c ackSeq) (fun _ => False) fun c' =>
      c.Steady c' ∧
      c'.stream.sendView =
        (if tcpSeqLt ackSeq c.stream.sndNxt then ackSeq else c.stream.sndNxt,
          c.stream.snd.sndUna, c.stream.snd.sndbuf) := by
  unfold fastRetransmit
  by_cases hlt : tcpSeqLt ackSeq c.stream.sndNxt
  · -- `snd_nxt` goes back to the acknowledgement
    simp only [if_pos hlt]
    refine (addtoSendlist_outcome _).mono (fun e he => hbuf he.2) fun c' h => ?_
    exact ⟨Conn.Steady.trans ⟨by rfl, by rfl⟩ h.steady, h.sendView⟩
  · simp only [if_neg hlt]
    refine (addtoSendlist_outcome _).mono (fun e he => hbuf he.2) fun c' h => ?_
    exact ⟨Conn.Steady.trans ⟨by rfl, by rfl⟩ h.steady, h.sendView⟩

/-- Only the third duplicate moves `snd_nxt`, and only back. -/
theorem answerDup_outcome (hbuf : c.stream.snd.sndbuf ≠ none) (dup : Bool) (ackSeq : U32) :
    Outcome (answerDup c dup ackSeq) (fun _ => False) fun c' =>
      c.Steady c' ∧
      c'.stream.sendView =
        (if (dup ∧ c.stream.rcv.dupAcks = 3) ∧ tcpSeqLt ackSeq c.stream.sndNxt then ackSeq
          else c.stream.sndNxt,
          c.stream.snd.sndUna, c.stream.snd.sndbuf) := by
  unfold answerDup
  refine Outcome.ite (fun h3 => ?_) fun h3 => Outcome.ite (fun _ => ?_) fun _ => ?_
  · refine (fastRetransmit_outcome hbuf ackSeq).mono (fun _ h => h) fun c' h => ⟨h.1, ?_⟩
    simp only [h.2, h3, and_self, true_and]
  · -- the window is inflated
    have hif : ∀ {x y : U32}, (if (dup ∧ c.stream.rcv.dupAcks = 3) ∧
        tcpSeqLt ackSeq c.stream.sndNxt then x else y) = y := fun {x y} =>
      if_neg fun h => h3 h.1
    rw [Outcome.ok_iff, hif]
    unfold Conn.modSnd Conn.mod
    dsimp only
    split
    · exact ⟨⟨rfl, rfl⟩, rfl⟩
    · exact ⟨.refl c, rfl⟩
  · rw [Outcome.ok_iff, if_neg fun h => h3 h.1]
    exact ⟨.refl c, rfl⟩

theorem raiseSndNxt_steady (c : Conn ρ) (buf : SendBuffer) (ackSeq : U32) :
    c.Steady (raiseSndNxt c buf ackSeq) ∧
      (raiseSndNxt c buf ackSeq).stream.sendView =
        (if tcpSeqGt ackSeq c.stream.sndNxt then ackSeq else c.stream.sndNxt,
          c.stream.snd.sndUna, c.stream.snd.sndbuf) := by
  unfold raiseSndNxt
  by_cases hgt : tcpSeqGt ackSeq c.stream.sndNxt
  · simp only [if_pos hgt]
    split
    · have h := removeSendlist_scheduled (c.mod fun s => { s with sndNxt := ackSeq })
      exact ⟨Conn.Steady.trans ⟨by rfl, by rfl⟩ h.steady, h.sendView⟩
    · exact ⟨⟨rfl, rfl⟩, rfl⟩
  · simp only [if_neg hgt]
    exact ⟨.refl c, rfl⟩

theorem estimateRtt_steady (c : Conn ρ) (mrtt : U32) :
    c.Steady (estimateRtt c mrtt) ∧ (estimateRtt c mrtt).stream.sendView = c.stream.sendView := by
  refine ⟨⟨?_, rfl⟩, rfl⟩
  -- the initial sequence number of the peer is the one receive variable of the session
  have hirs : (estimateRtt c mrtt).stream.rcv.irs = c.stream.rcv.irs := by
    unfold estimateRtt Conn.modRcv Conn.mod
    simp only [apply_ite RcvVar.irs, ite_self]
  change { c.stream.session with irs := (estimateRtt c mrtt).stream.rcv.irs } = c.stream.session
  rw [hirs]
  rfl

theorem updateRto_outcome (c : Conn ρ) (curTs : U32) :
    Outcome (updateRto c curTs) (· = .assertRto) fun c' =>
      c.Steady c' ∧ c'.stream.sendView = c.stream.sendView := by
  unfold updateRto
  -- without timestamps nothing is measured
  refine Outcome.ite (fun _ => ?_) fun _ => ⟨.refl c, rfl⟩
  refine Outcome.ite (fun _ => ?_) fun _ => rfl
  obtain ⟨hst, hv⟩ := estimateRtt_steady c (curTs - c.stream.rcv.tsLastackRcvd)
  exact ⟨hst.trans ⟨rfl, rfl⟩, hv⟩

theorem growCwnd_outcome (c : Conn ρ) (packets : U16) :
    Outcome (growCwnd c packets) (· = .divZero) fun c' =>
      c.Steady c' ∧ c'.stream.sendView = c.stream.sendView := by
  unfold growCwnd
  -- before `ESTABLISHED` the growth divides by `cwnd`
  refine Outcome.ite (fun _ => ?_) fun _ => Outcome.ite (fun _ => rfl) fun _ => ?_
  · exact Outcome.ite (fun _ => ⟨⟨rfl, rfl⟩, rfl⟩) fun _ => ⟨.refl c, rfl⟩
  · rw [Outcome.ok_iff]
    unfold Conn.modSnd Conn.mod
    dsimp only
    split
    · exact ⟨⟨rfl, rfl⟩, rfl⟩
    · exact ⟨.refl c, rfl⟩

theorem ackRemoved_outcome (c : Conn ρ) (buf : SendBuffer) (ret : U64) (ackSeq curTs : U32) :
    Outcome (ackRemoved c buf ret ackSeq curTs) (· = .assertRto) fun c' =>
      c.Steady c' ∧
      c'.stream.sendView =
        (c.stream.sndNxt, if (ret.setWidth 32).toInt ≤ 0 then c.stream.snd.sndUna else ackSeq,
          some buf) := by
  unfold ackRemoved
  by_cases hret : (ret.setWidth 32).toInt ≤ 0
  · -- `sb_remove` removed nothing: `snd_una` stays
    simp only [if_pos hret]
    exact ⟨⟨rfl, rfl⟩, rfl⟩
  · simp only [if_neg hret]
    refine (updateRetransmissionTimer_outcome _ curTs).mono (fun _ h => h) fun c' h => ?_
    exact ⟨Conn.Steady.trans ⟨by rfl, by rfl⟩ h.steady, h.sendView⟩

end Stages

/-! ### What a call leaves behind -/

/-- The acknowledgement is the third duplicate in a row. -/
def thirdDup (s : Stream ρ) (seg : Segment) : Bool :=
  let ackSeq := ackSeqOf s seg.ackSeq
  isDup (windowUpdate seg ackSeq s) ackSeq seg.payloadlen (rightWndEdge s) &&
    s.rcv.dupAcks + 1 == 3

/-- Where an acceptable acknowledgement leaves `snd_nxt`. -/
def nxtAfterAck (s : Stream ρ) (seg : Segment) : U32 :=
  let ackSeq := ackSeqOf s seg.ackSeq
  let nxt := if thirdDup s seg then ackSeq else s.sndNxt
  if tcpSeqGt ackSeq nxt then ackSeq else nxt

/-- Where an acknowledgement leaves the send sequence space and the send buffer. -/
def ackView (s : Stream ρ) (buf : SendBuffer) (seg : Segment) : U32 × U32 × Option SendBuffer :=
  let ackSeq := ackSeqOf s seg.ackSeq
  if tcpSeqGt ackSeq (buf.headSeq + buf.len) then s.sendView
  else if tcpSeqGeq buf.headSeq ackSeq then (nxtAfterAck s seg, s.snd.sndUna, some buf)
  else
    let removed := sbRemove buf ((ackSeq - buf.headSeq).setWidth 64)
    (nxtAfterAck s seg, if (removed.2.setWidth 32).toInt ≤ 0 then s.snd.sndUna else ackSeq,
      some removed.1)

theorem ackRemove_outcome {c : Conn ρ} {buf : SendBuffer} {ackSeq : U32}
    (hlt : ¬tcpSeqGeq buf.headSeq ackSeq) (curTs : U32) :
    Outcome (ackRemove c buf ackSeq curTs) (fun e => e = .divZero ∨ e = .assertRto) fun c' =>
      c.Steady c' ∧
      c'.stream.sendView =
        (let removed := sbRemove buf ((ackSeq - buf.headSeq).setWidth 64)
         (c.stream.sndNxt,
          if (removed.2.setWidth 32).toInt ≤ 0 then c.stream.snd.sndUna else ackSeq,
          some removed.1)) := by
  have hpos : ackSeq - buf.headSeq > 0 := by
    have hne : buf.headSeq ≠ ackSeq := by
      rintro rfl
      exact hlt (by simp [tcpSeqGeq])
    bv_omega
  unfold ackRemove
  rw [if_pos hpos]
  -- the estimate, the window, and then the send buffer; only the last one is seen in the view
  refine Outcome.ite (fun _ => .inl rfl) fun _ => ?_
  refine Outcome.bind ((updateRto_outcome c curTs).mono (fun _ => .inr) fun _ h => h) ?_
  intro c₁ h₁
  refine Outcome.bind ((growCwnd_outcome c₁ _).mono (fun _ => .inl) fun _ h => h) ?_
  intro c₂ h₂
  refine (ackRemoved_outcome c₂ _ _ ackSeq curTs).mono (fun _ => .inr) fun c' h => ?_
  refine ⟨h₁.1.trans (h₂.1.trans h.1), h.2.trans ?_⟩
  have hview := h₂.2.trans h₁.2
  simp only [Stream.sendView, Prod.mk.injEq] at hview
  rw [hview.1, hview.2.1]

/-- A call of `cmt_tcp_process_ack` keeps the session; it can only fail at a division or at an
assertion on `rto`. -/
theorem processAck_outcome {c : Conn ρ} {buf : SendBuffer} (hbuf : c.stream.snd.sndbuf = some buf)
    (seg : Segment) (curTs : U32) :
    Outcome (processAck c seg curTs) (fun e => e = .divZero ∨ e = .assertRto) fun c' =>
      c.Steady c' ∧ c'.stream.sendView = ackView c.stream buf seg := by
  unfold processAck ackView
  rw [hbuf]
  dsimp only
  generalize hack : ackSeqOf c.stream seg.ackSeq = ack
  by_cases hgt : tcpSeqGt ack (buf.headSeq + buf.len)
  · rw [if_pos hgt, if_pos hgt]
    exact ⟨.refl c, rfl⟩
  rw [if_neg hgt, if_neg hgt]
  -- the window update and the count of duplicates
  obtain ⟨hst₁, hv₁, hd₁⟩ := windowUpdate_steady c seg ack
  generalize hdup : isDup (c.mod (windowUpdate seg ack)).stream ack seg.payloadlen
    (rightWndEdge c.stream) = dup
  obtain ⟨hst₂, hv₂⟩ := countDup_steady (c.mod (windowUpdate seg ack)) dup ack
  have hview : (countDup dup ack (windowUpdate seg ack c.stream)).sendView = c.stream.sendView :=
    hv₂.trans hv₁
  simp only [Stream.sendView, Prod.mk.injEq] at hview
  have hthird : (dup = true ∧ (countDup dup ack (windowUpdate seg ack c.stream)).rcv.dupAcks = 3)
      ↔ thirdDup c.stream seg = true := by
    unfold thirdDup
    rw [hack]
    change isDup (windowUpdate seg ack c.stream) _ _ _ = _ at hdup
    dsimp only
    rw [hdup]
    cases dup with
    | false => simp
    | true => simp [countDup, hd₁]
  have hlt : thirdDup c.stream seg = true → tcpSeqLt ack c.stream.sndNxt = true := by
    intro h
    have hwu : (windowUpdate seg ack c.stream).sndNxt = c.stream.sndNxt := congrArg Prod.fst hv₁
    simp only [thirdDup, isDup, hack, hwu, Bool.and_eq_true] at h
    exact h.1.1.1.1
  refine Outcome.bind ((answerDup_outcome (c := (c.mod (windowUpdate seg ack)).mod
    (countDup dup ack)) ?_ dup ack).mono (fun _ h => h.elim) fun _ h => h) ?_
  · change (countDup dup ack (windowUpdate seg ack c.stream)).snd.sndbuf ≠ none
    rw [hview.2.2, hbuf]
    exact Option.some_ne_none buf
  intro c₃ ⟨hst₃, hv₃⟩
  obtain ⟨hst₄, hv₄⟩ := raiseSndNxt_steady c₃ buf ack
  have hst := hst₁.trans (hst₂.trans (hst₃.trans hst₄))
  -- the send sequence space after the advance of `snd_nxt`
  have hnxt : c₃.stream.sndNxt = if thirdDup c.stream seg then ack else c.stream.sndNxt := by
    have h := congrArg Prod.fst hv₃
    change c₃.stream.sndNxt = if (dup = true ∧
      (countDup dup ack (windowUpdate seg ack c.stream)).rcv.dupAcks = 3) ∧
      tcpSeqLt ack (countDup dup ack (windowUpdate seg ack c.stream)).sndNxt = true then ack
      else (countDup dup ack (windowUpdate seg ack c.stream)).sndNxt at h
    rw [h, hview.1]
    by_cases h3 : thirdDup c.stream seg = true
    · rw [if_pos ⟨hthird.mpr h3, hlt h3⟩, if_pos h3]
    · rw [if_neg fun h => h3 (hthird.mp h.1), if_neg h3]
  have hrest := congrArg Prod.snd hv₃
  simp only [Stream.sendView, Prod.mk.injEq] at hrest hv₄
  have hsnd : (raiseSndNxt c₃ buf ack).stream.sndNxt = nxtAfterAck c.stream seg := by
    unfold nxtAfterAck
    rw [hv₄.1, hnxt, hack]
  have huna : (raiseSndNxt c₃ buf ack).stream.snd.sndUna = c.stream.snd.sndUna :=
    hv₄.2.1.trans (hrest.1.trans hview.2.1)
  have hsb : (raiseSndNxt c₃ buf ack).stream.snd.sndbuf = some buf :=
    hv₄.2.2.trans (hrest.2.trans (hview.2.2.trans hbuf))
  by_cases hge : tcpSeqGeq buf.headSeq ack
  · rw [if_pos hge, if_pos hge]
    refine ⟨hst, ?_⟩
    unfold Stream.sendView
    rw [hsnd, huna, hsb]
  · rw [if_neg hge, if_neg hge]
    refine (ackRemove_outcome hge curTs).mono (fun _ h => h) fun c' h => ⟨hst.trans h.1, ?_⟩
    rw [h.2, hsnd, huna]

end CmtTcp
