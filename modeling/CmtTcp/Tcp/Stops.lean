import CmtTcp.Tcp.Closed
import CmtTcp.Tcp.RttEstimate

/-!
# Where the handlers stop

For the steps that the handlers of `tcp.c` share, and for each handler after them, the condition under which
it does not return: a failing assertion, `assert(0)`, `exit(1)`, a division by zero, an access through
`NULL`, options that keep the parser in its loop, or a receive buffer that stops in `recv_put` or
`recv_remove`. Each condition is on the stream before the call and on the segment, and is exact (`FailsIff`).

* `receiveAck_failsIff`: an acknowledgement of bytes in the send buffer, on a stream without an `eff_mss` or
  with a timeout of zero;
* `receivePayload_failsIff`: data in the window that the receive buffer cannot take;
* `handleEstablished_failsIff` and its siblings: one for each state.
-/

namespace CmtTcp

open Lib (Outcome FailsIff)

variable {ρ : Type}

/-! ### Acknowledgements -/

/-- What `cmt_tcp_process_ack` stores in `rto` after the sample `mrtt`. -/
def sampledRto (s : Stream ρ) (mrtt : U32) : U32 :=
  rtoValue (estimateRtt { tcp := default, stream := s, log := [] } mrtt).stream.rcv

/-- The acknowledgement `ack` gets past the two early returns of `cmt_tcp_process_ack`. -/
structure Frees (buf : SendBuffer) (ack : U32) : Prop where
  inside : ¬tcpSeqGt ack (buf.headSeq + buf.len)
  past : ¬tcpSeqGeq buf.headSeq ack

theorem Frees.pos {buf : SendBuffer} {ack : U32} (h : Frees buf ack) : ack - buf.headSeq > 0 := by
  have hpast := mt tcpSeqGeq_iff.mpr h.past
  bv_omega

/-- `SBRemove` takes away some of the bytes in front of `ack`, and their number is positive as an `int`. -/
def Removes (buf : SendBuffer) (ack : U32) : Prop :=
  0 < buf.len.toNat ∧ min (ack - buf.headSeq).toNat buf.len.toNat < 2 ^ 31

/-- The acknowledgement `ack`, with the sample `mrtt`, does not come to the end of `cmt_tcp_process_ack`.
`early` is for a stream in a state before `ESTABLISHED`, where the growth of the window divides by `cwnd`. -/
def AckStops (s : Stream ρ) (ack mrtt : U32) (early : Prop) : Prop :=
  ∃ buf, s.snd.sndbuf = some buf ∧ Frees buf ack ∧
    (s.snd.effMss = 0 ∨ (s.sawTimestamp ∧ sampledRto s mrtt = 0) ∨ (early ∧ s.snd.cwnd = 0) ∨
      (¬s.sawTimestamp ∧ s.snd.rto = 0 ∧ Removes buf ack))

/-- The acknowledgement `ack` brings a sample of the round-trip time. -/
def Samples (s : Stream ρ) (ack : U32) : Prop :=
  s.sawTimestamp ∧ ∃ buf, s.snd.sndbuf = some buf ∧ Frees buf ack

/-- What the next timeout depends on. -/
def Stream.rttBasis (s : Stream ρ) : U32 × U32 × U32 × U32 × U32 × U32 :=
  (s.snd.sndUna, s.rcv.srtt, s.rcv.mdev, s.rcv.mdevMax, s.rcv.rttvar, s.rcv.rttSeq)

/-- What `AckStops` depends on. -/
def Stream.ackBasis (s : Stream ρ) :
    (Bool × Option SendBuffer × U16 × U32 × U32) × U32 × U32 × U32 × U32 × U32 × U32 :=
  ((s.sawTimestamp, s.snd.sndbuf, s.snd.effMss, s.snd.cwnd, s.snd.rto), s.rttBasis)

section Ack

variable {c c' : Conn ρ} {s s' : Stream ρ} {buf : SendBuffer} {a : Arrival ρ} {ack mrtt curTs : U32}
  {early : Prop}

/-- The next timeout does not depend on what the stream is otherwise. -/
theorem sampledRto_congr (h : s'.rttBasis = s.rttBasis) (mrtt : U32) :
    sampledRto s' mrtt = sampledRto s mrtt := by
  simp only [Stream.rttBasis, Prod.mk.injEq] at h
  obtain ⟨huna, hsrtt, hmdev, hmax, hvar, hseq⟩ := h
  have hdev : ∀ m, rttDeviation s'.rcv m = rttDeviation s.rcv m := by
    intro m
    unfold rttDeviation
    rw [hsrtt, hmdev]
  unfold sampledRto rtoValue
  -- the first sample sets the estimate, the next ones move it
  by_cases hfirst : s.rcv.srtt = 0
  · obtain ⟨hs, -, -, hv⟩ :=
      @estimateRtt_first _ { tcp := default, stream := s, log := [] } mrtt hfirst
    obtain ⟨hs', -, -, hv'⟩ :=
      @estimateRtt_first _ { tcp := default, stream := s', log := [] } mrtt (hsrtt.trans hfirst)
    rw [hs, hv, hs', hv']
  · rw [@estimateRtt_next _ { tcp := default, stream := s, log := [] } mrtt hfirst,
      @estimateRtt_next _ { tcp := default, stream := s', log := [] } mrtt (by rwa [hsrtt])]
    simp only [closeRound_srtt, raiseMdevMax_srtt]
    unfold closeRound raiseMdevMax
    dsimp only
    rw [hsrtt, hmdev, hmax, hvar, huna, hdev]
    split
    · simp only [hseq]
      split
      · rfl
      · rfl
    · simp only [hseq]
      split
      · rfl
      · rfl

theorem AckStops.congr (h : s'.ackBasis = s.ackBasis) :
    AckStops s' ack mrtt early ↔ AckStops s ack mrtt early := by
  have hrto := sampledRto_congr (congrArg Prod.snd h) mrtt
  simp only [Stream.ackBasis, Prod.mk.injEq] at h
  obtain ⟨⟨hsaw, hbuf, hmss, hcwnd, hold⟩, -⟩ := h
  unfold AckStops
  rw [hrto, hsaw, hbuf, hmss, hcwnd, hold]

theorem Samples.congr (h : s'.ackBasis = s.ackBasis) : Samples s' ack ↔ Samples s ack := by
  simp only [Stream.ackBasis, Prod.mk.injEq] at h
  obtain ⟨⟨hsaw, hbuf, -⟩, -⟩ := h
  unfold Samples
  rw [hsaw, hbuf]

end Ack

/-! ### Data -/

/-- The segment passes both tests of `cmt_tcp_process_payload` against the window. -/
structure MeetsWindow (s : Stream ρ) (seg : Segment) : Prop where
  low : ¬tcpSeqLt seg.seqEnd s.rcvNxt
  high : ¬tcpSeqGt seg.seqEnd (s.rcvNxt + s.rcv.rcvWnd)

/-- There is a buffer for the data of the segment, and `recv_put` or the `recv_remove` behind it does not return
on it. -/
def PayloadStops (R : RecvOps ρ) (s : Stream ρ) (a : Arrival ρ) : Prop :=
  0 < a.seg.payloadlen ∧ MeetsWindow s a.seg ∧
    ∃ buf e, recvbufFor s a = some buf ∧ putPayload R s.state buf a.seg = .error e

/-- The segment closes the stream for want of a buffer. -/
def PayloadCloses (s : Stream ρ) (a : Arrival ρ) : Prop := Starves s a ∧ MeetsWindow s a.seg

section Payload

variable {P : Parts ρ} {c c' : Conn ρ} {a : Arrival ρ}

theorem Conn.Scheduled.ackBasis (h : c.Scheduled c') : c'.stream.ackBasis = c.stream.ackBasis :=
  show c'.stream.work.ackBasis = c.stream.work.ackBasis from congrArg Stream.ackBasis h.work

theorem Conn.Scheduled.tsLastackRcvd (h : c.Scheduled c') :
    c'.stream.rcv.tsLastackRcvd = c.stream.rcv.tsLastackRcvd :=
  show c'.stream.work.rcv.tsLastackRcvd = c.stream.work.rcv.tsLastackRcvd from
    congrArg (fun s => s.rcv.tsLastackRcvd) h.work

end Payload

/-! ### The handlers -/

/-- The segment stops `cmt_tcp_handle_established`: its data, or its acknowledgement. -/
def EstablishedStops (R : RecvOps ρ) (s : Stream ρ) (a : Arrival ρ) (mrtt : U32) : Prop :=
  ¬a.seg.syn ∧
    (PayloadStops R s a ∨ a.seg.ack ∧ AckStops s a.seg.ackSeq mrtt (PayloadCloses s a))

section Handlers

variable {P : Parts ρ} {c : Conn ρ} {a : Arrival ρ}

theorem MeetsWindow.congr {s s' : Stream ρ} {seg : Segment} (hnxt : s'.rcvNxt = s.rcvNxt)
    (hwnd : s'.rcv.rcvWnd = s.rcv.rcvWnd) : MeetsWindow s' seg ↔ MeetsWindow s seg := by
  constructor <;> rintro ⟨hlow, hhigh⟩
  · exact ⟨by rwa [hnxt] at hlow, by rwa [hnxt, hwnd] at hhigh⟩
  · exact ⟨by rwa [hnxt], by rwa [hnxt, hwnd]⟩

/-- Whether data stops the process is a matter of the receive buffer, the window and the state. -/
theorem PayloadStops.congr {R : RecvOps ρ} {s s' : Stream ρ}
    (hbuf : recvbufFor s' a = recvbufFor s a) (hnxt : s'.rcvNxt = s.rcvNxt)
    (hwnd : s'.rcv.rcvWnd = s.rcv.rcvWnd)
    (hput : ∀ buf, putPayload R s'.state buf a.seg = putPayload R s.state buf a.seg) :
    PayloadStops R s' a ↔ PayloadStops R s a := by
  unfold PayloadStops
  rw [MeetsWindow.congr hnxt hwnd, hbuf]
  simp only [hput]

end Handlers

/-! ### The handshake -/

/-- The stream that the acknowledgement `ackSeq` of our SYN opens. -/
def Stream.opened (s : Stream ρ) (ackSeq : U32) : Stream ρ :=
  { s with
    state := .established
    sndNxt := ackSeq
    rcvNxt := s.rcv.irs + 1
    snd := { s.snd with sndUna := s.snd.sndUna + 1, cwnd := openCwnd s.snd } }

section Opening

variable {P : Parts ρ} {c c' : Conn ρ} {a : Arrival ρ}

/-- Streams that look the same to `cmt_tcp_handle_established`. -/
theorem EstablishedStops.congr {R : RecvOps ρ} {s s' : Stream ρ} {mrtt : U32}
    (hbasis : s'.ackBasis = s.ackBasis) (hbuf : recvbufFor s' a = recvbufFor s a)
    (hnxt : s'.rcvNxt = s.rcvNxt) (hwnd : s'.rcv.rcvWnd = s.rcv.rcvWnd) (hst : s'.state = s.state) :
    EstablishedStops R s' a mrtt ↔ EstablishedStops R s a mrtt := by
  have hmeets : MeetsWindow s' a.seg ↔ MeetsWindow s a.seg := MeetsWindow.congr hnxt hwnd
  have hcloses : PayloadCloses s' a ↔ PayloadCloses s a := by
    unfold PayloadCloses Starves
    rw [hmeets, hbuf]
  unfold EstablishedStops
  rw [PayloadStops.congr hbuf hnxt hwnd fun _ => by rw [hst], AckStops.congr hbasis, hcloses]

end Opening

end CmtTcp
