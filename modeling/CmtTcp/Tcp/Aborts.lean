import CmtTcp.Tcp.Handshake
import CmtTcp.Tcp.Stops
import CmtTcp.Tcp.WindowOpening

/-!
# Segments that stop the process

In every world that a run reaches, `cmt_tcp_process` returns for a segment whose checksum verifies exactly if
the segment is not `Fatal` there (`process_returns_iff`). Every way not to return counts: `exit(1)`,
`assert(0)`, the assertions on the IP header, on `rto` and in the receive buffer, divisions by zero, accesses
through `NULL`, and options that keep the parser in its loop.

Two `assert(0)` are out of reach. `cmt_tcp_handle_listen` runs on a stream in `LISTEN` only for the SYN the
stream was made for, since no stream is in `LISTEN` after a call (`World.NoneListens`), and
`cmt_tcp_handle_fin_wait_1` counts a FIN only in the two states it expects.
-/

namespace CmtTcp

open Lib (Outcome FailsIff Run)

variable {ρ : Type}

/-- The round-trip time that the acknowledgement of an accepted segment measures: by the time stamp that the
segment echoes, where time stamps are in use and this one is not old. -/
def rttSample (s : Stream ρ) (a : Arrival ρ) : U32 :=
  a.ts -
    match s.sawTimestamp, parseTimestamp a.seg with
    | true, some (tsVal, tsRef) => if tcpSeqLt tsVal s.rcv.tsRecent then s.rcv.tsLastackRcvd else tsRef
    | _, _ => s.rcv.tsLastackRcvd

/-- No stream in the flow table waits in `LISTEN`. -/
def World.NoneListens (w : World ρ) : Prop := ∀ s, w.stream = some s → s.state ≠ .listen

/-- What the endpoint may do to a stream here: everything but sending it back to `LISTEN`. -/
def NeverListens (_ s' : Stream ρ) : Prop := s'.state ≠ .listen

section Stops

variable {P : Parts ρ} {c c' d : Conn ρ} {a : Arrival ρ} {w w' : World ρ} {l : Label ρ}

/-! ### Past `SYN_RCVD` -/

/-- What a handler past `SYN_RCVD` gets to see of the stream. -/
structure Conn.HandedOn (c d : Conn ρ) (a : Arrival ρ) : Prop where
  steady : c.Steady d
  recv : c.SameRecv d
  basis : d.stream.ackBasis = c.stream.ackBasis
  sample : a.ts - d.stream.rcv.tsLastackRcvd = rttSample c.stream a

namespace Conn.HandedOn

theorem recvbufFor (h : c.HandedOn d a) : CmtTcp.recvbufFor d.stream a = CmtTcp.recvbufFor c.stream a :=
  h.recv.recvbufFor h.steady.irs a

theorem ackSeqOf (h : c.HandedOn d a) (ack : U32) :
    CmtTcp.ackSeqOf d.stream ack = CmtTcp.ackSeqOf c.stream ack := by
  unfold CmtTcp.ackSeqOf
  rw [h.steady.state, h.steady.isFinSent, h.steady.fss]

end Conn.HandedOn

theorem Conn.Past.ne_listen (h : c.Past c') : c'.stream.state ≠ .listen :=
  fun hst => h.done (.inl hst)

theorem Conn.Opens.ne_listen {ready : Prop} {irs : U32} (h : c.Opens c' ready irs) :
    c'.stream.state ≠ .listen :=
  fun hst => h.1 (.inl hst)

theorem Conn.Waits.ne_listen (h : c.Waits c') : c'.stream.state ≠ .listen := by
  rw [h.state]
  decide

/-- A received segment leaves no stream in `LISTEN`. -/
theorem processStream_ne_listen (hP : P.CloseWaitSteady) (hlisten : c.stream.state = .listen → a.seg.syn) :
    Outcome (processStream P c a) (fun _ => True) fun c' => c'.stream.state ≠ .listen := by
  by_cases hhand : c.stream.state.Handshake
  · rcases hhand with hst | hst | hst
    · exact (listen_outcome hst (hlisten hst)).mono (fun _ _ => trivial) fun _ h => h.1.ne_listen
    · refine (synSent_outcome hst).mono (fun _ _ => trivial) fun c' h => ?_
      rcases h with h | h | ⟨-, -, -, h⟩ | ⟨-, -, -, h, -⟩
      · rw [h.steady.state, hst]
        decide
      · exact h.ne_listen
      · exact h.ne_listen
      · exact h.ne_listen
    · refine (synRcvd_outcome hst).mono (fun _ _ => trivial) fun c' h => ?_
      rcases h with ⟨h, -⟩ | h | h
      · exact h.ne_listen
      · exact h.ne_listen
      · exact h.ne_listen
  · exact (past_outcome hP hhand).mono (fun _ _ => trivial) fun _ h => h.ne_listen

/-- No step brings a stream into the flow table that waits in `LISTEN`. -/
theorem World.NoneListens.step (hP : P.CloseWaitSteady) (hw : w.NoneListens)
    (hstep : Step P NeverListens w l w') : w'.NoneListens := by
  cases hstep with
  | @segment _ a ret hcall =>
    rcases process_ok hcall with rfl | ⟨c, c', hfind, hproc, rfl⟩
    · exact hw
    have hlisten : c.stream.state = .listen → a.seg.syn := by
      unfold findStream at hfind
      cases hs : w.stream with
      | some s =>
        rw [hs] at hfind
        cases hfind
        exact fun hst => absurd hst (hw s hs)
      | none =>
        rw [hs] at hfind
        exact fun _ => ((createStream_outcome w.tcp w.log a).of_ok hfind c rfl).1
    intro s hs
    obtain rfl : c'.stream = s := Option.some.inj hs
    exact (processStream_ne_listen hP hlisten).of_ok hproc
  | @endpoint s s' tcp hs hallowed =>
    intro t ht
    obtain rfl : s' = t := Option.some.inj ht
    exact hallowed

end Stops

/-- Data that meets no fragment does not stop the process: `recv_put` takes or refuses it, and as long as nothing
writes `merged_len`, `recv_remove` is asked for no byte. -/
theorem putPayload_returns (call : PayloadCall)
    (closeWait : Conn Received → Arrival Received → Except Abort (Conn Received)) {r : Received}
    {l : List Addr} (h : FragList r.recv l) (hmerged : r.mergedLen = 0)
    (hfresh : ∀ x ∈ l, call.put.frag ≠ some x) (hhalf : call.put.fragment.InHalf r.recv.buff.headSeq)
    (hapart : ∀ x ∈ l, (r.recv.frag x).Before r.recv.buff.headSeq call.put.fragment ∨
      call.put.fragment.Before r.recv.buff.headSeq (r.recv.frag x))
    (hfuel : l.length < call.fuel + 1) (state : TcpState) :
    ∃ r', putPayload (call.parts closeWait).recv state r call.arrival.seg = .ok r' := by
  -- `recv_put` refuses the data, or finds its place between the fragments
  have hput : ∃ s ret, recvPut (call.fuel + 1) r.recv call.put = .ok (s, ret) := by
    cases hpass : call.put.passes r.recv.buff with
    | false =>
      obtain ⟨s, ret, hput, -⟩ := recvPut_of_not_passes (call.fuel + 1) hpass
      exact ⟨s, ret, hput⟩
    | true =>
      obtain ⟨_, _, _, _, s, _, _, _, _, _, hput, -⟩ := h.recvPut hpass hfresh hhalf hapart hfuel
      exact ⟨s, call.put.len, hput⟩
  obtain ⟨s, ret, hput⟩ := hput
  unfold putPayload
  rw [PayloadCall.parts_put hput]
  change ∃ r', (if state = .finWait1 ∨ state = .finWait2 then
    (call.parts closeWait).recv.remove { r with recv := s } r.mergedLen
    else .ok { r with recv := s }) = .ok r'
  split
  · -- in `FIN_WAIT_1` and `FIN_WAIT_2` `recv_remove` follows
    have hzero : ({ r with recv := s } : Received).removeLen (r.mergedLen.setWidth 64) = 0 := by
      unfold Received.removeLen
      rw [hmerged]
      split
      · rfl
      · rfl
    exact ⟨_, PayloadCall.parts_remove (Received.recvRemove_zero hzero)⟩
  · exact ⟨_, rfl⟩

end CmtTcp
