import CmtTcp.Tcp.Ack
import CmtTcp.Tcp.Options

/-!
# The handlers

The functions of `tcp.c` that a segment runs through once its stream is known: the acceptance test,
the payload, the reset, and one handler for each state. Packets the stack answers with
(`cmt_tcppkt_alone`) and events for the socket have empty bodies in the source and are left out.

`cmt_tcp_handle_close_wait` is called but not in the repository. It is a field of `Parts`, next to
the receive buffer.
-/

namespace CmtTcp

open Lib (Outcome)

variable {ρ : Type}

/-- What the model leaves open: the receive buffer and the handler for `CLOSE_WAIT`. -/
structure Parts (ρ : Type) where
  recv : RecvOps ρ
  handleCloseWait : Conn ρ → Arrival ρ → Except Abort (Conn ρ)

/-- The handler for `CLOSE_WAIT` processes acknowledgements and schedules control packets. -/
def Parts.CloseWaitSteady (P : Parts ρ) : Prop :=
  ∀ c a, Outcome (P.handleCloseWait c a) (fun _ => True) c.Steady

/-! ### Acceptance -/

/-- The timestamp test of `cmt_tcp_validseq`: `none` where it returns. -/
def validTimestamp (c : Conn ρ) (a : Arrival ρ) : Option (Conn ρ) :=
  if ¬a.seg.rst ∧ c.stream.sawTimestamp then
    match parseTimestamp a.seg with
    | none => none
    | some (tsVal, tsRef) =>
      if tcpSeqLt tsVal c.stream.rcv.tsRecent then some (enqueueAcklist c .now)
      else
        let c :=
          if tcpSeqGt tsVal c.stream.rcv.tsRecent then
            c.modRcv fun rcv => { rcv with tsLastTsUpd := a.ts }
          else c
        some (c.modRcv fun rcv => { rcv with tsRecent := tsVal, tsLastackRcvd := tsRef })
  else some c

/-- `cmt_tcp_validseq` -/
def validseq (c : Conn ρ) (a : Arrival ρ) : Conn ρ × Bool :=
  match validTimestamp c a with
  | none => (c, false)
  | some c =>
    let rcvNxt := c.stream.rcvNxt
    if tcpSeqBetween a.seg.seqEnd rcvNxt (rcvNxt + c.stream.rcv.rcvWnd) then (c, true)
    else if a.seg.rst then (c, false)
    else if c.stream.state = .established then
      if a.seg.seq + 1 = rcvNxt then (enqueueAcklist c .aggregate, false)
      else if tcpSeqLeq a.seg.seq rcvNxt then (enqueueAcklist c .aggregate, false)
      else (enqueueAcklist c .now, false)
    else
      let c := if c.stream.state = .timeWait then addToTimewaitList c a.ts else c
      (addtoControllist c, false)

/-! ### Payload and acknowledgement -/

/-- The receive buffer of the stream; a stream without one asks for one. -/
def recvbufFor (s : Stream ρ) (a : Arrival ρ) : Option ρ :=
  match s.rcv.rcvbuf with
  | none => a.recvGet (s.rcv.irs + 1)
  | some buf => some buf

/-- The buffer after `recv_put`, and in two states `recv_remove`, of `cmt_tcp_process_payload`. -/
def putPayload (R : RecvOps ρ) (state : TcpState) (buf : ρ) (seg : Segment) : Except RecvFault ρ := do
  let buf ← R.put buf seg.payload (BitVec.ofInt 32 seg.payloadlen) seg.seq
  if state = .finWait1 ∨ state = .finWait2 then R.remove buf (R.mergedLen buf) else .ok buf

/-- `cmt_tcp_process_payload` -/
def processPayload (P : Parts ρ) (c : Conn ρ) (a : Arrival ρ) : Except Abort (Conn ρ × ℤ) :=
  let s := c.stream
  if tcpSeqLt a.seg.seqEnd s.rcvNxt then .ok (c, 0)
  else if tcpSeqGt a.seg.seqEnd (s.rcvNxt + s.rcv.rcvWnd) then .ok (c, 0)
  else
    match recvbufFor s a with
    | none => .ok (c.close .closed .noMem, -1)
    | some buf =>
      match putPayload P.recv s.state buf a.seg with
      | .error e => .error (.recvBuffer e)
      | .ok buf =>
        .ok (c.mod fun t =>
          { t with
            rcvNxt := P.recv.headSeq buf + P.recv.mergedLen buf
            rcv := { s.rcv with
              rcvbuf := some buf
              rcvWnd := ((P.recv.size buf).setWidth 64 - P.recv.cumLen buf).setWidth 32 } }, 1)

/-- The payload step the handlers share: any value but `0` counts as success. -/
def receivePayload (P : Parts ρ) (c : Conn ρ) (a : Arrival ρ) : Except Abort (Conn ρ) :=
  if a.seg.payloadlen > 0 then do
    let r ← processPayload P c a
    .ok (enqueueAcklist r.1 (if r.2 ≠ 0 then .aggregate else .now))
  else .ok c

/-- The acknowledgement step the handlers share. -/
def receiveAck (c : Conn ρ) (a : Arrival ρ) : Except Abort (Conn ρ) :=
  if c.stream.snd.sndbuf.isSome then processAck c a.seg a.ts else .ok c

/-- `cmt_tcp_process_rst` -/
def processRst (c : Conn ρ) (ackSeq : U32) : Conn ρ × Bool :=
  let s := c.stream
  if s.state.code ≤ TcpState.synSent.code then (c, false)
  else if s.state = .synRcvd then
    (if ackSeq = s.sndNxt then (c.close .closed .reset).streamDestroy else c, true)
  else if s.state = .finWait1 ∨ s.state = .finWait2 ∨ s.state = .lastAck ∨ s.state = .closing ∨
      s.state = .timeWait then
    ((c.close .closed .activeClose).streamDestroy, true)
  else if ¬(s.snd.onCloseq ∨ s.snd.onCloseqInt ∨ s.snd.onResetq ∨ s.snd.onResetqInt) then
    (c.close .closeWait .reset, true)
  else (c, true)

/-! ### Opening -/

/-- `cwnd` at the end of a handshake -/
def openCwnd (snd : SndVar) : U32 :=
  if snd.cwnd = 1 then snd.mss.setWidth 32 * 2 else snd.mss.setWidth 32

/-- `cmt_tcp_active_open` -/
def activeOpen (c : Conn ρ) (a : Arrival ρ) : Except Abort (Conn ρ) := do
  let seg := a.seg
  let c := c.mod fun s =>
    { s with
      sndNxt := seg.ackSeq
      rcvNxt := seg.seq + 1
      snd := { s.snd with peerWnd := seg.window.setWidth 32 }
      rcv := { s.rcv with irs := seg.seq, sndWl1 := seg.seq - 1, lastAckSeq := seg.ackSeq } }
  let c ← parseOptions c a.ts seg
  let c := c.modSnd fun snd =>
    { snd with cwnd := openCwnd snd, ssthresh := snd.mss.setWidth 32 * 10 }
  updateRetransmissionTimer c a.ts

/-- `cmt_tcp_handle_listen` -/
def handleListen (c : Conn ρ) (a : Arrival ρ) : Except Abort (Conn ρ) :=
  if a.seg.syn then
    let c :=
      if c.stream.state = .listen then c.mod fun s => { s with rcvNxt := s.rcvNxt + 1 } else c
    .ok (addtoControllist (c.setState .synRcvd))
  else .error .assertZero

/-- The acknowledgement of a segment for `SYN_SENT` is out of place. -/
def synSentRefuses (s : Stream ρ) (seg : Segment) : Bool :=
  seg.ack && (tcpSeqLeq seg.ackSeq s.snd.iss || tcpSeqGt seg.ackSeq s.sndNxt)

/-- The end of the handshake in `cmt_tcp_handle_syn_sent`. -/
def synSentOpen (c : Conn ρ) (a : Arrival ρ) : Except Abort (Conn ρ) := do
  let c ← activeOpen c a
  let c := c.modSnd fun snd => { snd with nrtx := 0 }
  let c := c.mod fun s => { s with rcvNxt := s.rcv.irs + 1 }
  let c := (removeFromRtoList c).setState .established
  let c :=
    if c.stream.s then c
    else (c.mod fun s => { s with closeReason := .activeClose }).streamDestroy
  addToTimeoutList (addtoControllist c)

/-- `cmt_tcp_handle_syn_sent` -/
def handleSynSent (c : Conn ρ) (a : Arrival ρ) : Except Abort (Conn ρ) :=
  let seg := a.seg
  if synSentRefuses c.stream seg then .ok c
  else
    let c := if seg.ack then c.modSnd fun snd => { snd with sndUna := snd.sndUna + 1 } else c
    if seg.rst ∧ seg.ack then
      let c := c.close .closeWait .reset
      .ok (if c.stream.s then c else c.streamDestroy)
    else if seg.syn ∧ seg.ack then synSentOpen c a
    else
      -- whatever the segment is, the source takes it for the peer's SYN
      let c := c.setState .synRcvd
      .ok (addtoControllist (c.mod fun s => { s with sndNxt := s.snd.iss }))

/-- The end of the handshake in `cmt_tcp_handle_syn_rcvd`. -/
def synRcvdOpen (c : Conn ρ) (a : Arrival ρ) : Except Abort (Conn ρ) :=
  let c := c.mod fun s =>
    { s with
      sndNxt := a.seg.ackSeq
      rcvNxt := s.rcv.irs + 1
      snd := { s.snd with sndUna := s.snd.sndUna + 1, cwnd := openCwnd s.snd, nrtx := 0 } }
  let c := (removeFromRtoList c).setState .established
  match a.listener with
  | none => .error .nullDeref
  | some listener =>
    if listener.enqueueRet < 0 then
      let c := (c.mod fun s => { s with closeReason := .notAccepted }).setState .closed
      addToTimeoutList (addtoControllist c)
    else addToTimeoutList c

/-- The stream once the acknowledgement of our SYN is noted, before its timer is taken out. -/
def Conn.synRcvdAcked (c : Conn ρ) (a : Arrival ρ) : Conn ρ :=
  c.mod fun s =>
    { s with
      sndNxt := a.seg.ackSeq
      rcvNxt := s.rcv.irs + 1
      snd := { s.snd with sndUna := s.snd.sndUna + 1, cwnd := openCwnd s.snd, nrtx := 0 } }

/-- The end of the handshake, from the stream with its numbers on. -/
theorem synRcvdOpen_eq (c : Conn ρ) (a : Arrival ρ) :
    synRcvdOpen c a =
      match a.listener with
      | none => .error .nullDeref
      | some listener =>
        if listener.enqueueRet < 0 then
          addToTimeoutList (addtoControllist
            ((((removeFromRtoList (c.synRcvdAcked a)).setState .established).mod fun s =>
              { s with closeReason := .notAccepted }).setState .closed))
        else addToTimeoutList ((removeFromRtoList (c.synRcvdAcked a)).setState .established) :=
  rfl

/-- `cmt_tcp_handle_syn_rcvd` -/
def handleSynRcvd (c : Conn ρ) (a : Arrival ρ) : Except Abort (Conn ρ) :=
  if a.seg.ack then
    if a.seg.ackSeq ≠ c.stream.snd.iss + 1 then .error .exit
    else synRcvdOpen c a
  else .ok (addtoControllist (c.mod fun s => { s with sndNxt := s.snd.iss }))

/-! ### Data and closing -/

/-- The acknowledgement in `cmt_tcp_handle_established`. -/
def establishedAck (c : Conn ρ) (a : Arrival ρ) : Except Abort (Conn ρ) :=
  if a.seg.ack then receiveAck c a else .ok c

/-- The FIN of the peer in `cmt_tcp_handle_established`. -/
def establishedFin (c : Conn ρ) (a : Arrival ρ) : Conn ρ :=
  if a.seg.fin then
    if a.seg.seqEnd = c.stream.rcvNxt then
      addtoControllist ((c.setState .closeWait).takeFin a.seg)
    else enqueueAcklist c .now
  else c

/-- `cmt_tcp_handle_established` -/
def handleEstablished (P : Parts ρ) (c : Conn ρ) (a : Arrival ρ) : Except Abort (Conn ρ) :=
  if a.seg.syn then .ok (addtoControllist (c.mod fun s => { s with sndNxt := a.seg.ackSeq }))
  else do
    let c ← receivePayload P c a
    let c ← establishedAck c a
    .ok (establishedFin c a)

/-- `cmt_tcp_handle_last_ack` -/
def handleLastAck (c : Conn ρ) (a : Arrival ρ) : Except Abort (Conn ρ) :=
  let seg := a.seg
  if tcpSeqLt seg.seq c.stream.rcvNxt then .ok c
  else if seg.ack then do
    let c ← receiveAck c a
    if ¬c.stream.snd.isFinSent then .ok c
    else if seg.ackSeq = c.stream.snd.fss + 1 then do
      let c := c.modSnd fun snd => { snd with sndUna := snd.sndUna + 1 }
      let c ← updateRetransmissionTimer c a.ts
      .ok (c.close .closed .passiveClose).streamDestroy
    else .ok (addtoControllist c)
  else .ok (addtoControllist c)

/-- The acknowledgement of our FIN in `cmt_tcp_handle_fin_wait_1`. -/
def finAcked (c : Conn ρ) (seg : Segment) : Conn ρ :=
  if c.stream.snd.isFinSent ∧ seg.ackSeq = c.stream.snd.fss + 1 then
    let c := c.mod fun s =>
      { s with
        sndNxt := if tcpSeqGt seg.ackSeq s.sndNxt then seg.ackSeq else s.sndNxt
        snd := { s.snd with sndUna := seg.ackSeq, nrtx := 0 } }
    (removeFromRtoList c).setState .finWait2
  else c

/-- The FIN of the peer in `cmt_tcp_handle_fin_wait_1`. -/
def finWait1Fin (c : Conn ρ) (a : Arrival ρ) : Except Abort (Conn ρ) :=
  let c := c.takeFin a.seg
  if c.stream.state = .finWait1 then .ok (addtoControllist (c.setState .closing))
  else if c.stream.state = .finWait2 then
    .ok (addtoControllist (addToTimewaitList (c.setState .timeWait) a.ts))
  else .error .assertZero

/-- `cmt_tcp_handle_fin_wait_1` -/
def handleFinWait1 (P : Parts ρ) (c : Conn ρ) (a : Arrival ρ) : Except Abort (Conn ρ) :=
  let seg := a.seg
  if tcpSeqLt seg.seq c.stream.rcvNxt then .ok (addtoControllist c)
  else if seg.ack then do
    let c ← receiveAck c a
    let c ← receivePayload P (finAcked c seg) a
    if seg.fin ∧ seg.seqEnd = c.stream.rcvNxt then finWait1Fin c a else .ok c
  else .ok c

/-- `cmt_tcp_handle_fin_wait_2` -/
def handleFinWait2 (P : Parts ρ) (c : Conn ρ) (a : Arrival ρ) : Except Abort (Conn ρ) :=
  let seg := a.seg
  if seg.ack then do
    let c ← receiveAck c a
    let c ← receivePayload P c a
    if seg.fin ∧ seg.seqEnd = c.stream.rcvNxt then
      let c := (c.setState .timeWait).takeFin seg
      .ok (addtoControllist (addToTimewaitList c a.ts))
    else .ok c
  else .ok c

/-- `cmt_tcp_handle_closing` -/
def handleClosing (c : Conn ρ) (a : Arrival ρ) : Except Abort (Conn ρ) :=
  let seg := a.seg
  if seg.ack then do
    let c ← receiveAck c a
    if ¬c.stream.snd.isFinSent then .ok c
    else if seg.ackSeq ≠ c.stream.snd.fss + 1 then .ok c
    else do
      let c := c.mod fun s =>
        { s with sndNxt := seg.ackSeq, snd := { s.snd with sndUna := seg.ackSeq } }
      let c ← updateRetransmissionTimer c a.ts
      .ok (addToTimewaitList (c.setState .timeWait) a.ts)
  else .ok c

/-! ### What the shared steps leave alone -/

/-- `c'` is in the session of `c`, has its send sequence space and its retransmission timeout. -/
structure Conn.Same (c c' : Conn ρ) : Prop where
  steady : c.Steady c'
  sendView : c'.stream.sendView = c.stream.sendView
  rto : c'.stream.snd.rto = c.stream.snd.rto

theorem Conn.Same.refl (c : Conn ρ) : c.Same c := ⟨.refl c, rfl, rfl⟩

theorem Conn.Same.trans {c c' c'' : Conn ρ} (h : c.Same c') (h' : c'.Same c'') : c.Same c'' :=
  ⟨h.steady.trans h'.steady, h'.sendView.trans h.sendView, h'.rto.trans h.rto⟩

theorem Conn.Same.sndNxt {c c' : Conn ρ} (h : c.Same c') : c'.stream.sndNxt = c.stream.sndNxt :=
  congrArg Prod.fst h.sendView

theorem Conn.Same.sndUna {c c' : Conn ρ} (h : c.Same c') :
    c'.stream.snd.sndUna = c.stream.snd.sndUna :=
  congrArg (fun v => v.2.1) h.sendView

theorem Conn.Scheduled.same {c c' : Conn ρ} (h : c.Scheduled c') : c.Same c' :=
  ⟨h.steady, h.sendView, by rw [← Stream.work_rto, h.work, Stream.work_rto]⟩

section Shared

variable {P : Parts ρ} {c : Conn ρ} {a : Arrival ρ}

theorem validTimestamp_same {c' : Conn ρ} (h : validTimestamp c a = some c') : c.Same c' := by
  unfold validTimestamp at h
  split at h
  · -- the segment has a timestamp, is older than the last one, or is accepted
    split at h
    · cases h
    · next tsVal tsRef _ =>
      split at h
      · cases h
        exact (enqueueAcklist_scheduled c .now).same
      · cases h
        split
        · exact ⟨⟨rfl, rfl⟩, rfl, rfl⟩
        · exact ⟨⟨rfl, rfl⟩, rfl, rfl⟩
  · cases h
    exact .refl c

/-- Past the timestamp only acknowledgements, control packets and the timewait list are touched. -/
theorem validseq_scheduled (c : Conn ρ) (a : Arrival ρ) :
    (validseq c a).1 = c ∨ ∃ c₁, validTimestamp c a = some c₁ ∧ c₁.Scheduled (validseq c a).1 := by
  unfold validseq
  split
  · exact .inl rfl
  · next c₁ h =>
    refine .inr ⟨c₁, h, ?_⟩
    dsimp only
    -- a segment in the window, and a reset outside of it
    split
    · exact .refl c₁
    split
    · exact .refl c₁
    split
    · -- `ESTABLISHED`: an acknowledgement is due
      split
      · exact enqueueAcklist_scheduled c₁ .aggregate
      split
      · exact enqueueAcklist_scheduled c₁ .aggregate
      · exact enqueueAcklist_scheduled c₁ .now
    · -- elsewhere a control packet is, and in `TIME_WAIT` the wait starts over
      refine Conn.Scheduled.trans ?_ (addtoControllist_scheduled _)
      split
      · exact addToTimewaitList_scheduled c₁ a.ts
      · exact .refl c₁

/-- `cmt_tcp_validseq` keeps the session and the send sequence space, whether it accepts the segment
or not. -/
theorem validseq_same (c : Conn ρ) (a : Arrival ρ) : c.Same (validseq c a).1 := by
  rcases validseq_scheduled c a with heq | ⟨c₁, hts, hsched⟩
  · rw [heq]
    exact .refl c
  · exact (validTimestamp_same hts).trans hsched.same

/-- An acknowledgement keeps the session. -/
theorem receiveAck_outcome (c : Conn ρ) (a : Arrival ρ) :
    Outcome (receiveAck c a) (fun _ => True) c.Steady := by
  unfold receiveAck
  refine Outcome.ite (fun h => ?_) fun _ => .refl c
  obtain ⟨buf, hbuf⟩ := Option.isSome_iff_exists.mp h
  exact (processAck_outcome hbuf a.seg a.ts).mono (fun _ _ => trivial) fun _ hc => hc.1

/-- The three ways through the payload step: nothing is stored, there is no buffer and the stream is
closed, or the buffer says where `rcv_nxt` is. -/
theorem processPayload_cases (P : Parts ρ) (c : Conn ρ) (a : Arrival ρ) :
    Outcome (processPayload P c a) (fun e => ∃ f, e = .recvBuffer f) fun r =>
      r.1 = c ∨ r.1 = c.close .closed .noMem ∨
        ∃ nxt rcv, rcv.irs = c.stream.rcv.irs ∧
          r.1 = c.mod fun s => { s with rcvNxt := nxt, rcv := rcv } := by
  unfold processPayload
  refine Outcome.ite (fun _ => .inl rfl) fun _ => Outcome.ite (fun _ => .inl rfl) fun _ => ?_
  split
  · -- `recv_get` returned `NULL`
    exact .inr (.inl rfl)
  · next buf _ =>
    cases putPayload P.recv c.stream.state buf a.seg with
    | error e => exact ⟨e, rfl⟩
    | ok buf' =>
      refine .inr (.inr ⟨_, _, ?_, rfl⟩)
      rfl

/-- What the payload step does to the session. -/
inductive PayloadStep (c c' : Conn ρ) (seg : Segment) : Prop
  /-- at most `rcv_nxt` moved -/
  | stored (session : c'.stream.session = { c.stream.session with rcvNxt := c'.stream.rcvNxt })
      (log : c'.log = c.log)
  /-- there was no buffer for the payload -/
  | closed (s : Stream ρ) (hs : s.state = .closed) (pos : 0 < seg.payloadlen)
      (session : c'.stream.session =
        { c.stream.session with state := .closed, closeReason := .noMem })
      (log : c'.log = c.log ++ [.entered s])

theorem receivePayload_step (P : Parts ρ) (c : Conn ρ) (a : Arrival ρ) :
    Outcome (receivePayload P c a) (fun e => ∃ f, e = .recvBuffer f) fun c' =>
      PayloadStep c c' a.seg ∧ c'.stream.sendView = c.stream.sendView := by
  unfold receivePayload
  refine Outcome.ite (fun hpos => ?_) fun _ => ⟨.stored rfl rfl, rfl⟩
  refine Outcome.bind (processPayload_cases P c a) fun r hr => ?_
  -- the acknowledgement that follows is only scheduled
  have hsch := enqueueAcklist_scheduled r.1 (if r.2 ≠ 0 then .aggregate else .now)
  rw [Outcome.ok_iff]
  generalize enqueueAcklist r.1 (if r.2 ≠ 0 then .aggregate else .now) = c' at hsch
  have hses := hsch.steady.session
  rcases hr with hc | hc | ⟨nxt, rcv, hirs, hc⟩
  · rw [hc] at hsch hses
    exact ⟨.stored (by rw [hsch.steady.rcvNxt]; exact hses) hsch.log, hsch.sendView⟩
  · rw [hc] at hsch hses
    exact ⟨.closed _ (by rfl) hpos hses hsch.log, hsch.sendView⟩
  · rw [hc] at hsch hses
    refine ⟨.stored ?_ hsch.log, hsch.sendView⟩
    rw [hses, hsch.steady.rcvNxt]
    unfold Stream.session Conn.mod
    dsimp only
    rw [hirs]

/-- What the payload step does to the session, where the stops of the receive buffer need not be told apart. -/
theorem receivePayload_outcome (P : Parts ρ) (c : Conn ρ) (a : Arrival ρ) :
    Outcome (receivePayload P c a) (fun _ => True) fun c' => PayloadStep c c' a.seg :=
  (receivePayload_step P c a).mono (fun _ _ => trivial) fun _ h => h.1

theorem receivePayload_of_nonpos (h : ¬a.seg.payloadlen > 0) : receivePayload P c a = .ok c :=
  if_neg h

end Shared

section PayloadStep

variable {c c' : Conn ρ} {seg : Segment}

theorem PayloadStep.fss (h : PayloadStep c c' seg) : c'.stream.snd.fss = c.stream.snd.fss := by
  cases h with
  | stored hses _ => exact congrArg Session.fss hses
  | closed _ _ _ hses _ => exact congrArg Session.fss hses

theorem PayloadStep.isFinSent (h : PayloadStep c c' seg) :
    c'.stream.snd.isFinSent = c.stream.snd.isFinSent := by
  cases h with
  | stored hses _ => exact congrArg Session.isFinSent hses
  | closed _ _ _ hses _ => exact congrArg Session.isFinSent hses

theorem PayloadStep.fins_eq (h : PayloadStep c c' seg) : fins c'.log = fins c.log := by
  cases h with
  | stored _ hlog => rw [hlog]
  | closed s _ _ _ hlog => rw [hlog, fins_snoc]; exact List.append_nil _

theorem PayloadStep.opens_eq (h : PayloadStep c c' seg) : opens c'.log = opens c.log := by
  cases h with
  | stored _ hlog => rw [hlog]
  | closed s hs _ _ hlog => rw [hlog, opens_snoc, Event.opened, hs]; exact List.append_nil _

/-- The payload step keeps the state, or closes the stream and leaves `rcv_nxt` where it was. -/
theorem PayloadStep.state (h : PayloadStep c c' seg) :
    c'.stream.state = c.stream.state ∨
      (c'.stream.state = .closed ∧ 0 < seg.payloadlen ∧ c'.stream.rcvNxt = c.stream.rcvNxt) := by
  cases h with
  | stored hses _ => exact .inl (congrArg Session.state hses)
  | closed _ _ hpos hses _ =>
    exact .inr ⟨congrArg Session.state hses, hpos, congrArg Session.rcvNxt hses⟩

end PayloadStep

/-! ### A stack to run -/

/-- A receive buffer that takes data in order only: the first sequence number it holds, and how many
bytes. -/
def inOrderRecv : RecvOps (U32 × U32) where
  put b _ len seq := .ok (if seq = b.1 + b.2 then (b.1, b.2 + len) else b)
  remove b n := .ok (b.1 + n, b.2 - n)
  headSeq b := b.1
  mergedLen b := b.2
  size _ := 8192
  cumLen b := b.2.setWidth 64

/-- The stack with this buffer, and acknowledgements alone in `CLOSE_WAIT`. -/
def inOrderParts : Parts (U32 × U32) where
  recv := inOrderRecv
  handleCloseWait := receiveAck

end CmtTcp
