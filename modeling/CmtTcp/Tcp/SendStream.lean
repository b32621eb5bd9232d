import CmtTcp.SendBufferFifo
import CmtTcp.Tcp.AckRemoval
import CmtTcp.Tcp.Timers

/-!
# The sender's byte stream

The send buffer of a connection over whole runs. Segments come in and go through `cmt_tcp_process`, whatever
state the connection is in, retransmission timeouts are handled, and the endpoint stores bytes with
`SBPut` (`SendStep`). The run is one of a bounded store of bytes (`Lib.BoundedFifo`) in which a write
stores what fits, a timeout does nothing, and a segment takes away the bytes in front of an
acknowledgement that covers them, or nothing (`SenderStep`); `send_stream_refines` ties the two together.

* `Freed`: what one segment may do to a send buffer;
* `processStream_freed`: no handler does anything else;
* `SenderStep`: the store, with the segments that take bytes away.
-/

namespace CmtTcp

open Lib (BoundedFifo Outcome Run)

variable {ρ : Type}

/-! ### One segment -/

/-- What a segment may do to a send buffer: nothing, or remove what it acknowledges. Once the FIN is sent
its acknowledgement counts one more than the bytes. -/
inductive Freed (seg : Segment) : Option SendBuffer → Option SendBuffer → Prop
  | kept (b : Option SendBuffer) : Freed seg b b
  | acked {buf : SendBuffer} {ack : U32} (hflag : seg.ack = true)
      (hnum : ack = seg.ackSeq ∨ ack = seg.ackSeq - 1) (hin : Acknowledges buf ack) :
      Freed seg (some buf) (some (sbRemove buf ((ack - buf.headSeq).setWidth 64)).1)

/-- Without the ACK flag nothing is removed. -/
theorem Freed.eq_of_not_ack {seg : Segment} {b b' : Option SendBuffer} (h : Freed seg b b')
    (hflag : seg.ack = false) : b' = b := by
  cases h with
  | kept => rfl
  | acked hset => rw [hflag] at hset; cases hset

/-- The handler for `CLOSE_WAIT` runs the acknowledgement step at most once, and only schedules besides. -/
def Parts.CloseWaitFrees (P : Parts ρ) : Prop :=
  ∀ c a c', P.handleCloseWait c a = .ok c' →
    ∃ c₁, (c₁ = c ∨ a.seg.ack = true ∧ receiveAck c a = .ok c₁) ∧ c₁.Scheduled c'

section Handlers

variable {P : Parts ρ} {c c' : Conn ρ} {a : Arrival ρ} {seg : Segment} {b : Option SendBuffer}

/-- A connection with a send buffer that comes from `b` by the segment. -/
def Conn.FreedFrom (b : Option SendBuffer) (seg : Segment) (c : Conn ρ) : Prop :=
  Freed seg b c.stream.snd.sndbuf

theorem Conn.FreedFrom.start (c : Conn ρ) : c.FreedFrom c.stream.snd.sndbuf seg := .kept _

theorem Conn.FreedFrom.of_eq (h : c.FreedFrom b seg) (hb : c'.stream.snd.sndbuf = c.stream.snd.sndbuf) :
    c'.FreedFrom b seg := by
  unfold Conn.FreedFrom
  rw [hb]
  exact h

theorem Conn.FreedFrom.scheduled (h : c.FreedFrom b seg) (hs : c.Scheduled c') : c'.FreedFrom b seg :=
  h.of_eq hs.sndbuf

theorem Conn.FreedFrom.controllist (h : c.FreedFrom b seg) : (addtoControllist c).FreedFrom b seg :=
  h.scheduled (addtoControllist_scheduled c)

theorem Conn.FreedFrom.timeoutList (h : c.FreedFrom b seg) :
    Outcome (addToTimeoutList c) (fun _ => True) (Conn.FreedFrom b seg) := by
  refine (addToTimeoutList_outcome c).mono (fun _ _ => trivial) fun c' hc' => h.of_eq ?_
  rw [hc'.1]

theorem receivePayload_sndbuf (P : Parts ρ) (c : Conn ρ) (a : Arrival ρ) :
    Outcome (receivePayload P c a) (fun _ => True) fun c' =>
      c'.stream.snd.sndbuf = c.stream.snd.sndbuf :=
  (receivePayload_step P c a).mono (fun _ _ => trivial) fun _ h => congrArg (fun v => v.2.2) h.2

/-- The acknowledgement step frees what is acknowledged, or nothing. -/
theorem receiveAck_freed (hflag : a.seg.ack = true)
    (hlen : ∀ buf, c.stream.snd.sndbuf = some buf → buf.len.toNat < 2 ^ 31) :
    Outcome (receiveAck c a) (fun _ => True) (Conn.FreedFrom c.stream.snd.sndbuf a.seg) := by
  unfold receiveAck
  refine Outcome.ite (fun hsome => ?_) fun _ => .start c
  obtain ⟨buf, hbuf⟩ := Option.isSome_iff_exists.mp hsome
  refine (processAck_outcome hbuf a.seg a.ts).mono (fun _ _ => trivial) fun c' hc' => ?_
  have hview : c'.stream.snd.sndbuf = (ackView c.stream buf a.seg).2.2 :=
    congrArg (fun v => v.2.2) hc'.2
  have hnum : ackSeqOf c.stream a.seg.ackSeq = a.seg.ackSeq ∨
      ackSeqOf c.stream a.seg.ackSeq = a.seg.ackSeq - 1 := by
    unfold ackSeqOf
    split
    · exact .inr rfl
    · exact .inl rfl
  have hearly := @not_early_iff buf (ackSeqOf c.stream a.seg.ackSeq) (hlen buf hbuf)
  unfold Conn.FreedFrom
  rw [hview, hbuf]
  unfold ackView
  dsimp only
  generalize ackSeqOf c.stream a.seg.ackSeq = ack at hnum hearly ⊢
  split
  · change Freed a.seg (some buf) c.stream.snd.sndbuf
    rw [hbuf]
    exact .kept _
  next hgt =>
  split
  · exact .kept _
  next hge =>
  rcases hearly.mp ⟨hgt, hge⟩ with hin | ⟨hempty, hhalf⟩
  · exact .acked hflag hnum hin
  · -- an empty buffer, and half the circle between it and the acknowledgement
    have hpos : 0 < ((ack - buf.headSeq).setWidth 64).toNat := by
      rw [BitVec.toNat_setWidth_of_le (by decide)]
      unfold seqOff at hhalf
      omega
    rw [sbRemove_of_empty hpos hempty]
    exact .kept _

theorem handleListen_freed (h : c.FreedFrom b seg) :
    Outcome (handleListen c a) (fun _ => True) (Conn.FreedFrom b seg) := by
  unfold handleListen
  refine Outcome.ite (fun _ => Conn.FreedFrom.controllist ?_) fun _ => trivial
  split
  · exact h
  · exact h

theorem activeOpen_freed (h : c.FreedFrom b seg) :
    Outcome (activeOpen c a) (fun _ => True) (Conn.FreedFrom b seg) := by
  unfold activeOpen
  refine Outcome.bind ((parseOptions_outcome _ a.ts a.seg).mono (fun _ _ => trivial) fun _ h => h)
    fun c₁ h₁ => ?_
  have hopts : c₁.FreedFrom b seg := h.of_eq (by rw [h₁.1]; rfl)
  exact (updateRetransmissionTimer_outcome _ a.ts).mono (fun _ _ => trivial) fun c₂ h₂ =>
    hopts.of_eq h₂.sndbuf

theorem handleSynSent_freed (h : c.FreedFrom b seg) :
    Outcome (handleSynSent c a) (fun _ => True) (Conn.FreedFrom b seg) := by
  unfold handleSynSent
  refine Outcome.ite (fun _ => h) fun _ => ?_
  have hack : (if a.seg.ack then c.modSnd fun snd => { snd with sndUna := snd.sndUna + 1 }
      else c).FreedFrom b seg := by
    split
    · exact h
    · exact h
  dsimp only
  generalize (if a.seg.ack then c.modSnd fun snd => { snd with sndUna := snd.sndUna + 1 } else c) = c₁
    at hack ⊢
  refine Outcome.ite (fun _ => ?_) fun _ => Outcome.ite (fun _ => ?_) fun _ => ?_
  · rw [Outcome.ok_iff]
    split
    · exact hack
    · exact hack
  · unfold synSentOpen
    refine Outcome.bind (activeOpen_freed hack) fun c₂ h₂ => Conn.FreedFrom.timeoutList ?_
    have hrto : (removeFromRtoList ((c₂.modSnd fun snd => { snd with nrtx := 0 }).mod
        fun s => { s with rcvNxt := s.rcv.irs + 1 })).FreedFrom b seg :=
      h₂.of_eq (removeFromRtoList_scheduled _).sndbuf
    refine Conn.FreedFrom.controllist ?_
    split
    · exact hrto
    · exact hrto
  · exact Conn.FreedFrom.controllist hack

theorem handleSynRcvd_freed (h : c.FreedFrom b seg) :
    Outcome (handleSynRcvd c a) (fun _ => True) (Conn.FreedFrom b seg) := by
  unfold handleSynRcvd
  refine Outcome.ite (fun _ => Outcome.ite (fun _ => trivial) fun _ => ?_) fun _ =>
    Conn.FreedFrom.controllist h
  rw [synRcvdOpen_eq]
  have hrto : (removeFromRtoList (c.synRcvdAcked a)).FreedFrom b seg :=
    h.of_eq (removeFromRtoList_scheduled _).sndbuf
  split
  · exact trivial
  · exact Outcome.ite (fun _ => Conn.FreedFrom.timeoutList (Conn.FreedFrom.controllist hrto))
      fun _ => Conn.FreedFrom.timeoutList hrto

/-- The handlers that acknowledge do so on the buffer they get. -/
def Small (b : Option SendBuffer) : Prop := ∀ buf, b = some buf → buf.len.toNat < 2 ^ 31

/-- The acknowledgement step on a connection that still has the send buffer of the segment's start. -/
theorem receiveAck_freed_of (hb : c.stream.snd.sndbuf = b) (hsmall : Small b)
    (hflag : a.seg.ack = true) :
    Outcome (receiveAck c a) (fun _ => True) (Conn.FreedFrom b a.seg) := by
  subst hb
  exact receiveAck_freed hflag hsmall

theorem handleEstablished_freed (hb : c.stream.snd.sndbuf = b) (hsmall : Small b) :
    Outcome (handleEstablished P c a) (fun _ => True) (Conn.FreedFrom b a.seg) := by
  have h : c.FreedFrom b a.seg := hb ▸ .start c
  unfold handleEstablished
  refine Outcome.ite (fun _ => Conn.FreedFrom.controllist h) fun _ => ?_
  refine Outcome.bind (receivePayload_sndbuf P c a) fun c₀ hpay => ?_
  have hack : Outcome (establishedAck c₀ a) (fun _ => True) (Conn.FreedFrom b a.seg) := by
    unfold establishedAck
    exact Outcome.ite (fun hflag => receiveAck_freed_of (hpay.trans hb) hsmall hflag) fun _ => h.of_eq hpay
  refine Outcome.bind hack fun c₁ h₁ => ?_
  rw [Outcome.ok_iff]
  unfold establishedFin
  split
  · split
    · exact Conn.FreedFrom.controllist h₁
    · exact h₁.scheduled (enqueueAcklist_scheduled c₁ .now)
  · exact h₁

theorem handleSynRcvdData_freed (hb : c.stream.snd.sndbuf = b) (hsmall : Small b) :
    Outcome (handleSynRcvdData P c a) (fun _ => True) (Conn.FreedFrom b a.seg) := by
  have h : ∀ seg, c.FreedFrom b seg := fun _ => hb ▸ .start c
  -- the end of the handshake is the same for a segment that acknowledges nothing
  have hopen : Outcome (handleSynRcvd c a) (fun _ => True) fun c₁ => c₁.stream.snd.sndbuf = b :=
    (handleSynRcvd_freed (h { a.seg with ack := false })).mono (fun _ h => h) fun _ h =>
      Freed.eq_of_not_ack h rfl
  unfold handleSynRcvdData
  refine Outcome.ite (fun _ => handleListen_freed (h a.seg)) fun _ => Outcome.bind hopen fun c₁ h₁ => ?_
  exact Outcome.ite (fun _ => handleEstablished_freed h₁ hsmall) fun _ => h₁ ▸ .start c₁

theorem handleLastAck_freed (hb : c.stream.snd.sndbuf = b) (hsmall : Small b) :
    Outcome (handleLastAck c a) (fun _ => True) (Conn.FreedFrom b a.seg) := by
  have h : c.FreedFrom b a.seg := hb ▸ .start c
  unfold handleLastAck
  refine Outcome.ite (fun _ => h) fun _ => Outcome.ite (fun hflag => ?_) fun _ => h.controllist
  refine Outcome.bind (receiveAck_freed_of hb hsmall hflag) fun c₁ h₁ => ?_
  refine Outcome.ite (fun _ => h₁) fun _ => Outcome.ite (fun _ => ?_) fun _ => h₁.controllist
  refine Outcome.bind ((updateRetransmissionTimer_outcome _ a.ts).mono (fun _ _ => trivial)
    fun _ h => h) fun c₂ h₂ => ?_
  exact h₁.of_eq h₂.sndbuf

theorem handleFinWait1_freed (hb : c.stream.snd.sndbuf = b) (hsmall : Small b) :
    Outcome (handleFinWait1 P c a) (fun _ => True) (Conn.FreedFrom b a.seg) := by
  have h : c.FreedFrom b a.seg := hb ▸ .start c
  unfold handleFinWait1
  refine Outcome.ite (fun _ => h.controllist) fun _ => Outcome.ite (fun hflag => ?_) fun _ => h
  refine Outcome.bind (receiveAck_freed_of hb hsmall hflag) fun c₁ h₁ => ?_
  have hfin : (finAcked c₁ a.seg).FreedFrom b a.seg := by
    unfold finAcked
    split
    · exact h₁.of_eq (removeFromRtoList_scheduled _).sndbuf
    · exact h₁
  refine Outcome.bind (receivePayload_sndbuf P (finAcked c₁ a.seg) a) fun c₂ hbuf => ?_
  have hpay : c₂.FreedFrom b a.seg := hfin.of_eq hbuf
  refine Outcome.ite (fun _ => ?_) fun _ => hpay
  unfold finWait1Fin
  refine Outcome.ite (fun _ => ?_) fun _ => Outcome.ite (fun _ => ?_) fun _ => trivial
  · exact Conn.FreedFrom.controllist hpay
  · exact Conn.FreedFrom.controllist (hpay.of_eq (addToTimewaitList_scheduled _ a.ts).sndbuf)

theorem handleFinWait2_freed (hb : c.stream.snd.sndbuf = b) (hsmall : Small b) :
    Outcome (handleFinWait2 P c a) (fun _ => True) (Conn.FreedFrom b a.seg) := by
  unfold handleFinWait2
  refine Outcome.ite (fun hflag => ?_) fun _ => hb ▸ .start c
  refine Outcome.bind (receiveAck_freed_of hb hsmall hflag) fun c₁ h₁ => ?_
  refine Outcome.bind (receivePayload_sndbuf P c₁ a) fun c₂ hbuf => ?_
  have hpay : c₂.FreedFrom b a.seg := h₁.of_eq hbuf
  refine Outcome.ite (fun _ => ?_) fun _ => hpay
  exact Conn.FreedFrom.controllist (hpay.of_eq (addToTimewaitList_scheduled _ a.ts).sndbuf)

theorem handleClosing_freed (hb : c.stream.snd.sndbuf = b) (hsmall : Small b) :
    Outcome (handleClosing c a) (fun _ => True) (Conn.FreedFrom b a.seg) := by
  unfold handleClosing
  refine Outcome.ite (fun hflag => ?_) fun _ => hb ▸ .start c
  refine Outcome.bind (receiveAck_freed_of hb hsmall hflag) fun c₁ h₁ => ?_
  refine Outcome.ite (fun _ => h₁) fun _ => Outcome.ite (fun _ => h₁) fun _ => ?_
  refine Outcome.bind ((updateRetransmissionTimer_outcome _ a.ts).mono (fun _ _ => trivial)
    fun _ h => h) fun c₂ h₂ => ?_
  have hwait : c₂.FreedFrom b a.seg := h₁.of_eq h₂.sndbuf
  exact hwait.of_eq (addToTimewaitList_scheduled _ a.ts).sndbuf

theorem handleTimeWait_freed (h : c.FreedFrom b seg) :
    Outcome (handleTimeWait c a) (fun _ => True) (Conn.FreedFrom b seg) := by
  unfold handleTimeWait
  refine Outcome.ite (fun _ => ?_) fun _ => h.controllist
  refine Outcome.bind ((removeFromTimewaitList_outcome c).mono (fun _ _ => trivial) fun _ h => h)
    fun c₁ h₁ => ?_
  exact Conn.FreedFrom.controllist
    ((h.scheduled h₁).scheduled (addToTimewaitList_scheduled c₁ a.ts))

theorem dispatch_freed (hP : P.CloseWaitFrees) (hb : c.stream.snd.sndbuf = b) (hsmall : Small b) :
    Outcome (dispatch P c a) (fun _ => True) (Conn.FreedFrom b a.seg) := by
  have h : c.FreedFrom b a.seg := hb ▸ .start c
  unfold dispatch
  split
  · exact handleListen_freed h
  · exact handleSynSent_freed h
  · exact handleSynRcvdData_freed hb hsmall
  · exact handleEstablished_freed hb hsmall
  · -- the handler that is not in the repository
    cases hr : P.handleCloseWait c a with
    | error e => exact trivial
    | ok c' =>
      obtain ⟨c₁, hc₁, hsched⟩ := hP c a c' hr
      refine Conn.FreedFrom.scheduled ?_ hsched
      rcases hc₁ with rfl | ⟨hflag, hack⟩
      · exact h
      · exact (receiveAck_freed_of hb hsmall hflag).of_ok hack
  · exact handleLastAck_freed hb hsmall
  · exact handleFinWait1_freed hb hsmall
  · exact handleFinWait2_freed hb hsmall
  · exact handleClosing_freed hb hsmall
  · exact handleTimeWait_freed h
  · exact h

theorem processRst_freed (h : c.FreedFrom b seg) (ackSeq : U32) :
    (processRst c ackSeq).1.FreedFrom b seg := by
  unfold processRst
  dsimp only
  repeat' split
  all_goals exact h

/-- **One segment** leaves the send buffer, or removes what it acknowledges. -/
theorem processStream_freed (hP : P.CloseWaitFrees) (hsmall : Small c.stream.snd.sndbuf) :
    Outcome (processStream P c a) (fun _ => True) fun c' =>
      Freed a.seg c.stream.snd.sndbuf c'.stream.snd.sndbuf := by
  have hkeep : ∀ c' : Conn ρ, c.Same c' → c'.stream.snd.sndbuf = c.stream.snd.sndbuf := fun c' h =>
    congrArg (fun v => v.2.2) h.sendView
  refine processStream_outcome (fun c' h _ => ?_) (fun c' h _ _ => ?_) fun c' h _ => ?_
  · exact Conn.FreedFrom.of_eq (.start c) (hkeep c' h)
  · exact processRst_freed (Conn.FreedFrom.of_eq (.start c) (hkeep c' h)) _
  · exact dispatch_freed hP (hkeep c' h) hsmall

end Handlers

/-! ### A timeout -/

/-- What is sent again is only scheduled. -/
theorem rtoResend_sndbuf (c : Conn ρ) :
    Outcome (rtoResend c) (fun _ => True) fun r =>
      r.1.stream.snd.sndbuf = c.stream.snd.sndbuf := by
  have hsend : ∀ d : Conn ρ, Outcome (addtoSendlist d) (fun _ => True) fun d' =>
      d'.stream.snd.sndbuf = d.stream.snd.sndbuf := fun d =>
    (addtoSendlist_outcome d).mono (fun _ _ => trivial) fun _ h => h.sndbuf
  unfold rtoResend
  refine Outcome.ite (fun _ => Outcome.bind (hsend _) fun _ h => h) fun _ =>
    Outcome.ite (fun _ => Outcome.ite (fun _ => ?_) fun _ => ?_) fun _ => ?_
  · refine Outcome.bind (hsend _) fun d' h => h.trans ?_
    change (if _ then removeControllist _ else _ : Conn ρ).stream.snd.sndbuf = _
    split
    · rw [(removeControllist_eq _).1]
      rfl
    · rfl
  · exact (addtoControllist_scheduled _).sndbuf
  · exact (addtoControllist_scheduled _).sndbuf

/-- A timeout leaves the send buffer, whatever it schedules. -/
theorem handleRto_sndbuf (c : Conn ρ) (socket : Bool) :
    Outcome (handleRto c socket) (fun _ => True) fun r =>
      r.1.stream.snd.sndbuf = c.stream.snd.sndbuf := by
  have hdestroy : ∀ d : Conn ρ,
      (if socket then d else d.streamDestroy).stream.snd.sndbuf = d.stream.snd.sndbuf := by
    intro d
    split
    · rfl
    · rfl
  unfold handleRto
  refine Outcome.ite (fun _ => ?_) fun _ => Outcome.ite (fun _ => ?_) fun _ => ?_
  · unfold rtoRetry
    extract_lets c₁ c₂ c₃ c₄
    have hbuf : c₄.stream.snd.sndbuf = c.stream.snd.sndbuf := by rfl
    clear_value c₄
    have hagain : Outcome (rtoResend c₄) (fun _ => True) fun r =>
        r.1.stream.snd.sndbuf = c.stream.snd.sndbuf :=
      (rtoResend_sndbuf c₄).mono (fun _ h => h) fun _ h => h.trans hbuf
    refine Outcome.ite (fun _ => Outcome.ite (fun _ => ?_) fun _ => hagain) fun _ =>
      Outcome.ite (fun _ => hagain) fun _ => trivial
    exact (hdestroy _).trans hbuf
  · rfl
  · exact hdestroy _

/-! ### Runs -/

/-- What happens to a connection that sends. -/
inductive SendLabel (ρ : Type)
  | segment (a : Arrival ρ)
  | write (data : ByteSpan)
  | timeout (socket : Bool)

/-- The bytes the endpoint asked to be sent, one piece for each write. -/
def SendLabel.written : SendLabel ρ → Option (List U8)
  | .write data => some data.bytes
  | _ => none

/-- One step of a connection: a segment is received, bytes are stored in the send buffer, or its
retransmission timer ran out. -/
inductive SendStep (P : Parts ρ) : Conn ρ → SendLabel ρ → Conn ρ → Prop
  | segment {c c' : Conn ρ} {a : Arrival ρ} (h : processStream P c a = .ok c') :
      SendStep P c (.segment a) c'
  | write {c : Conn ρ} {buf buf' : SendBuffer} {data : ByteSpan} {ret : U64}
      (hbuf : c.stream.snd.sndbuf = some buf) (h : sbPut buf data = some (buf', ret)) :
      SendStep P c (.write data) (c.modSnd fun snd => { snd with sndbuf := some buf' })
  | timeout {c c' : Conn ρ} {socket : Bool} {ret : ℤ} (h : handleRto c socket = .ok (c', ret)) :
      SendStep P c (.timeout socket) c'

/-- The acknowledgement of the first `n` bytes of a stream that starts at `iss`. -/
def AcksUpTo (iss : U32) (n : ℕ) (seg : Segment) : Prop :=
  seg.ack = true ∧
    (seg.ackSeq = iss + BitVec.ofNat 32 n ∨ seg.ackSeq = iss + BitVec.ofNat 32 n + 1)

/-- One step of the store that a sender is meant to be. -/
inductive SenderStep (iss : U32) {cap : ℕ} :
    BoundedFifo U8 cap → SendLabel ρ → BoundedFifo U8 cap → Prop
  | write {q : BoundedFifo U8 cap} {data : ByteSpan} :
      SenderStep iss q (.write data) (q.put data.bytes)
  | acked {q : BoundedFifo U8 cap} {a : Arrival ρ} {n : ℕ} (hpos : 0 < n)
      (hle : n ≤ q.contents.length) (hacks : AcksUpTo iss (q.removed + n) a.seg) :
      SenderStep iss q (.segment a) (q.remove n)
  | kept {q : BoundedFifo U8 cap} {a : Arrival ρ} : SenderStep iss q (.segment a) q
  | timeout {q : BoundedFifo U8 cap} {socket : Bool} : SenderStep iss q (.timeout socket) q

section Store

variable {iss : U32} {cap : ℕ} {q₀ q : BoundedFifo U8 cap} {ls : List (SendLabel ρ)}

/-- What a run of the store accepts: of each write the bytes that fit, in the order of the writes. -/
theorem SenderStep.run_accepted (h : Run (SenderStep iss) q₀ ls q) :
    ∃ taken : List (List U8), q.accepted = q₀.accepted ++ taken.flatten ∧
      List.Forall₂ (· <+: ·) taken (ls.filterMap SendLabel.written) := by
  induction h with
  | nil => exact ⟨[], (List.append_nil _).symm, .nil⟩
  | @snoc ls q l q' _ hstep ih =>
    obtain ⟨taken, hacc, hprefix⟩ := ih
    rw [List.filterMap_append]
    cases hstep with
    | write =>
      refine ⟨taken ++ [_], ?_, List.rel_append hprefix (.cons (List.take_prefix q.room _) .nil)⟩
      rw [BoundedFifo.accepted_put, hacc, List.flatten_append, List.flatten_singleton,
        List.append_assoc]
    | acked => exact ⟨taken, hacc, (List.append_nil _).symm ▸ hprefix⟩
    | kept => exact ⟨taken, hacc, (List.append_nil _).symm ▸ hprefix⟩
    | timeout => exact ⟨taken, hacc, (List.append_nil _).symm ▸ hprefix⟩

/-- What a run of the store removes has been acknowledged, by a segment of the run. -/
theorem SenderStep.run_removed (h : Run (SenderStep iss) q₀ ls q) {i : ℕ} (hi : q₀.removed ≤ i)
    (hgone : i < q.removed) :
    ∃ (a : Arrival ρ) (n : ℕ), .segment a ∈ ls ∧ i < n ∧ n ≤ q.removed ∧ AcksUpTo iss n a.seg := by
  induction h with
  | nil => exact absurd hgone (Nat.not_lt.mpr hi)
  | @snoc ls q l q' _ hstep ih =>
    -- a byte that was gone before the last step, and one that the last step removes
    have hbefore : i < q.removed → ∃ (a : Arrival ρ) (n : ℕ), .segment a ∈ ls ++ [l] ∧ i < n ∧
        n ≤ q.removed ∧ AcksUpTo iss n a.seg := by
      intro hlt
      obtain ⟨a, n, hmem, hn⟩ := ih hlt
      exact ⟨a, n, List.mem_append_left _ hmem, hn⟩
    cases hstep with
    | write => exact hbefore hgone
    | kept => exact hbefore hgone
    | timeout => exact hbefore hgone
    | @acked a n hpos hle hacks =>
      rw [BoundedFifo.removed_remove, Nat.min_eq_left hle] at hgone ⊢
      rcases Nat.lt_or_ge i q.removed with hlt | hge
      · obtain ⟨a', n', hmem, hlt', hle', hacks'⟩ := hbefore hlt
        exact ⟨a', n', hmem, hlt', by omega, hacks'⟩
      · exact ⟨a, _, List.mem_append_right _ (List.mem_singleton_self _), hgone, Nat.le_refl _,
          hacks⟩

end Store

section Runs

variable {P : Parts ρ} {iss : U32} {cap : ℕ} {c c' c₀ : Conn ρ} {q q₀ : BoundedFifo U8 cap}
  {l : SendLabel ρ} {ls : List (SendLabel ρ)} {buf : SendBuffer}

/-- The send buffer of the connection is the store `q`. -/
def Conn.Sends (iss : U32) (c : Conn ρ) (q : BoundedFifo U8 cap) : Prop :=
  ∃ buf, c.stream.snd.sndbuf = some buf ∧ SbLaw iss buf q

/-- What the send buffer loses to an acknowledgement, the store loses. -/
theorem SbLaw.freed {seg : Segment} {b' : Option SendBuffer} (h : SbLaw iss buf q)
    (hfreed : Freed seg (some buf) b') :
    b' = some buf ∨ ∃ buf' n, b' = some buf' ∧ SbLaw iss buf' (q.remove n) ∧ 0 < n ∧
      n ≤ q.contents.length ∧ AcksUpTo iss (q.removed + n) seg := by
  cases hfreed with
  | kept => exact .inl rfl
  | @acked _ ack hflag hnum hin =>
    obtain ⟨buf', hexec, hlaw⟩ := h.exec (.remove ((ack - buf.headSeq).setWidth 64))
    obtain rfl : _ = buf' := Option.some.inj hexec
    have hn : ((ack - buf.headSeq).setWidth 64).toNat = seqOff buf.headSeq ack :=
      BitVec.toNat_setWidth_of_le (by decide)
    have hlaw' : SbLaw iss _ (q.remove ((ack - buf.headSeq).setWidth 64).toNat) := hlaw
    rw [hn] at hlaw'
    refine .inr ⟨_, _, rfl, hlaw', hin.1, by rw [← h.len_eq]; exact hin.2, hflag, ?_⟩
    -- `ack` is `head_seq` and as many bytes more
    have hack : iss + BitVec.ofNat 32 (q.removed + seqOff buf.headSeq ack) = ack := by
      have hoff : BitVec.ofNat 32 (seqOff buf.headSeq ack) = ack - buf.headSeq := by
        unfold seqOff
        rw [BitVec.ofNat_toNat, BitVec.setWidth_eq]
      rw [BitVec.ofNat_add, ← BitVec.add_assoc, ← h.headSeq_eq, hoff]
      bv_omega
    rw [hack]
    rcases hnum with rfl | rfl
    · exact .inl rfl
    · exact .inr (by bv_omega)

/-- One step of the connection is one step of the store. -/
theorem SendStep.refines (hP : P.CloseWaitFrees) (hcap : cap < 2 ^ 31) (h : c.Sends iss q)
    (hstep : SendStep P c l c') : ∃ q', SenderStep iss q l q' ∧ c'.Sends iss q' := by
  obtain ⟨buf, hbuf, hlaw⟩ := h
  cases hstep with
  | segment hr =>
    have hsmall : Small c.stream.snd.sndbuf := by
      intro buf' hbuf'
      obtain rfl : buf = buf' := Option.some.inj (hbuf.symm.trans hbuf')
      have hle := hlaw.wellFormed.len_le
      rw [← hlaw.cap_eq] at hle
      omega
    have hfreed := (processStream_freed hP hsmall).of_ok hr
    rw [hbuf] at hfreed
    rcases hlaw.freed hfreed with hkept | ⟨buf', n, hbuf', hlaw', hpos, hle, hacks⟩
    · exact ⟨q, .kept, buf, hkept, hlaw⟩
    · exact ⟨_, .acked hpos hle hacks, buf', hbuf', hlaw'⟩
  | @write buf₁ buf' data _ hbuf₁ hput =>
    obtain rfl : buf = buf₁ := Option.some.inj (hbuf.symm.trans hbuf₁)
    obtain ⟨buf'', hexec, hlaw'⟩ := hlaw.exec (.put data)
    have hput' : (sbPut buf data).map Prod.fst = some buf'' := hexec
    rw [hput] at hput'
    obtain rfl : buf' = buf'' := Option.some.inj hput'
    exact ⟨_, .write, buf', rfl, hlaw'⟩
  | timeout hr =>
    exact ⟨q, .timeout, buf, ((handleRto_sndbuf c _).of_ok hr).trans hbuf, hlaw⟩

/-- **The sender's byte stream.** Over every run of received segments, writes and retransmission timeouts, the
send buffer of a connection is a bounded store of bytes. What the store has accepted is what was written,
piece by piece as far as there was room; and no byte has left it that a segment of the run did not
acknowledge. -/
theorem send_stream_refines (hP : P.CloseWaitFrees) (hcap : cap < 2 ^ 31) (h₀ : c₀.Sends iss q₀)
    (hrun : Run (SendStep P) c₀ ls c) :
    ∃ q : BoundedFifo U8 cap, Run (SenderStep iss) q₀ ls q ∧ c.Sends iss q ∧
      (∃ taken : List (List U8), q.accepted = q₀.accepted ++ taken.flatten ∧
        List.Forall₂ (· <+: ·) taken (ls.filterMap SendLabel.written)) ∧
      ∀ i, q₀.removed ≤ i → i < q.removed → ∃ (a : Arrival ρ) (n : ℕ), .segment a ∈ ls ∧ i < n ∧
        n ≤ q.removed ∧ AcksUpTo iss n a.seg := by
  have hsim : ∃ q : BoundedFifo U8 cap, Run (SenderStep iss) q₀ ls q ∧ c.Sends iss q := by
    refine hrun.history_invariant (fun ls c => ∃ q, Run (SenderStep iss) q₀ ls q ∧ c.Sends iss q)
      ⟨q₀, .nil, h₀⟩ ?_
    rintro ls t l u ⟨q, hq, hsends⟩ hstep
    obtain ⟨q', hq', hsends'⟩ := hstep.refines hP hcap hsends
    exact ⟨q', hq.snoc hq', hsends'⟩
  obtain ⟨q, hq, hsends⟩ := hsim
  exact ⟨q, hq, hsends, SenderStep.run_accepted hq, fun i => SenderStep.run_removed hq⟩

/-- The stack with the acknowledgement step of `ESTABLISHED` in `CLOSE_WAIT`. -/
def ackingParts : Parts (U32 × U32) := { inOrderParts with handleCloseWait := establishedAck }

theorem ackingParts_frees : ackingParts.CloseWaitFrees := by
  intro c a c' hr
  change (if a.seg.ack = true then receiveAck c a else .ok c) = .ok c' at hr
  split at hr
  next hflag => exact ⟨c', .inr ⟨hflag, hr⟩, .refl c'⟩
  · cases hr
    exact ⟨c, .inl rfl, .refl c⟩

/-- The store of the twenty bytes that `halfSent` has queued. -/
def halfSentStore : BoundedFifo U8 64 := ⟨List.replicate 20 0, 0, by decide, by decide⟩

theorem halfSent_sends : halfSent.Sends 100 halfSentStore :=
  ⟨_, rfl, ⟨rfl, rfl, rfl, by decide⟩, rfl, rfl, rfl, rfl, rfl⟩

/-- Ten of twenty bytes are acknowledged, three more are written, and a timeout sends the rest again. -/
theorem send_stream_refines_halfSent :
    ∃ (c : Conn (U32 × U32)) (q : BoundedFifo U8 64) (more : List U8),
      Run (SendStep ackingParts) halfSent
        [.segment (bareSegment false 110), .write ⟨[1, 2, 3], by decide⟩, .timeout true] c ∧
      c.Sends 100 q ∧ q.accepted = List.replicate 20 0 ++ more ∧ more <+: [1, 2, 3] := by
  have hrun : Run (SendStep ackingParts) halfSent
      [.segment (bareSegment false 110), .write ⟨[1, 2, 3], by decide⟩, .timeout true] _ :=
    .snoc (.snoc (.snoc .nil (.segment rfl)) (.write rfl rfl)) (.timeout rfl)
  obtain ⟨q, -, hsends, ⟨taken, hacc, hprefix⟩, -⟩ :=
    send_stream_refines ackingParts_frees (by decide) halfSent_sends hrun
  obtain ⟨more, _, hmore, hnil, rfl⟩ := List.forall₂_cons_right_iff.mp hprefix
  obtain rfl := List.forall₂_nil_right_iff.mp hnil
  rw [List.flatten_singleton] at hacc
  exact ⟨_, q, more, hrun, hsends, hacc, hmore⟩

end Runs

end CmtTcp
