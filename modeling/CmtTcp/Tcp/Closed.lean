import CmtTcp.Tcp.Close
import CmtTcp.Tcp.Handshake
import CmtTcp.Tcp.Timers

/-!
# `CLOSED` is final

A stream that is `CLOSED` is closed by one of its own handlers, by a reset, by a timer, or because there
is no buffer for its payload. All of these are the last thing done to the stream but one:
`cmt_tcp_process_payload` closes a stream without a receive buffer, and its callers go on with the FIN of
the same segment. `Reopens` says which segments take a closed stream to `CLOSE_WAIT` or `TIME_WAIT` that
way.

* `Conn.Sealed`: a stream that was closed since the log began is closed;
* `processStream_sealed`: a segment that does not reopen its stream keeps it so;
* `closed_is_final`: along runs without such segments, a stream that was `CLOSED` at some moment is
  `CLOSED` ever after.
-/

namespace CmtTcp

open Lib (Outcome Run Guarded)

variable {ρ : Type}

/-! ### The receive buffer is left alone -/

/-- The receive buffer of a stream, and the window it grants. -/
def Stream.recvView (s : Stream ρ) : Option ρ × U32 := (s.rcv.rcvbuf, s.rcv.rcvWnd)

/-- From `c` to `c'` receive buffer and window are the same. -/
def Conn.SameRecv (c c' : Conn ρ) : Prop := c'.stream.recvView = c.stream.recvView

section SameRecv

variable {c c' c'' : Conn ρ} {a : Arrival ρ}

theorem Conn.SameRecv.refl (c : Conn ρ) : c.SameRecv c := rfl

theorem Conn.SameRecv.trans (h : c.SameRecv c') (h' : c'.SameRecv c'') : c.SameRecv c'' :=
  Eq.trans h' h

theorem Conn.Scheduled.sameRecv (h : c.Scheduled c') : c.SameRecv c' :=
  show c'.stream.work.recvView = c.stream.work.recvView from congrArg Stream.recvView h.work

theorem Conn.SameRecv.recvbufFor (h : c.SameRecv c')
    (hirs : c'.stream.rcv.irs = c.stream.rcv.irs) (a : Arrival ρ) :
    recvbufFor c'.stream a = recvbufFor c.stream a := by
  have hbuf : c'.stream.rcv.rcvbuf = c.stream.rcv.rcvbuf := congrArg Prod.fst h
  unfold CmtTcp.recvbufFor
  rw [hbuf, hirs]

theorem Conn.SameRecv.rcvWnd (h : c.SameRecv c') :
    c'.stream.rcv.rcvWnd = c.stream.rcv.rcvWnd :=
  congrArg Prod.snd h

theorem validTimestamp_sameRecv (h : validTimestamp c a = some c') : c.SameRecv c' := by
  unfold validTimestamp at h
  split at h
  · split at h
    · cases h
    · split at h
      · cases h
        exact (enqueueAcklist_scheduled c .now).sameRecv
      · cases h
        split
        · exact rfl
        · exact rfl
  · cases h
    exact .refl c

theorem validseq_sameRecv (c : Conn ρ) (a : Arrival ρ) : c.SameRecv (validseq c a).1 := by
  rcases validseq_scheduled c a with heq | ⟨c₁, hts, hsched⟩
  · rw [heq]
    exact .refl c
  · exact (validTimestamp_sameRecv hts).trans hsched.sameRecv

theorem noteArrival_sameRecv (c : Conn ρ) (a : Arrival ρ) : c.SameRecv (noteArrival c a) := by
  unfold Conn.SameRecv
  rw [noteArrival_stream]
  rfl

theorem updateRto_sameRecv (c : Conn ρ) (curTs : U32) :
    Outcome (updateRto c curTs) (fun _ => True) c.SameRecv := by
  unfold updateRto
  refine Outcome.ite (fun _ => ?_) fun _ => .refl c
  -- the estimate changes the times of the receive variables only
  have hrtt : c.SameRecv (estimateRtt c (curTs - c.stream.rcv.tsLastackRcvd)) := by
    unfold estimateRtt Conn.SameRecv Conn.modRcv Conn.mod Stream.recvView
    simp only [apply_ite RcvVar.rcvbuf, apply_ite RcvVar.rcvWnd, ite_self]
  exact Outcome.ite (fun _ => hrtt.trans rfl) fun _ => trivial

theorem ackRemove_sameRecv (c : Conn ρ) (buf : SendBuffer) (ackSeq curTs : U32) :
    Outcome (ackRemove c buf ackSeq curTs) (fun _ => True) c.SameRecv := by
  unfold ackRemove
  refine Outcome.ite (fun _ => Outcome.ite (fun _ => trivial) fun _ => ?_) fun _ => .refl c
  refine Outcome.bind (updateRto_sameRecv c curTs) fun c₁ h₁ => ?_
  refine Outcome.bind ((growCwnd_uncongested c₁ _).mono (fun _ _ => trivial) fun _ h => h) ?_
  intro c₂ hgrow
  have h₂ : c₁.SameRecv c₂ := Stream.view_of_uncongested Stream.recvView (fun _ => rfl) hgrow
  unfold ackRemoved
  refine Outcome.ite (fun _ => h₁.trans h₂) fun _ => ?_
  refine (updateRetransmissionTimer_outcome _ curTs).mono (fun _ _ => trivial) fun c' h => ?_
  exact (h₁.trans h₂).trans (Conn.SameRecv.trans rfl h.sameRecv)

/-- An acknowledgement is about the send side. -/
theorem receiveAck_sameRecv (c : Conn ρ) (a : Arrival ρ) :
    Outcome (receiveAck c a) (fun _ => True) c.SameRecv := by
  unfold receiveAck
  refine Outcome.ite (fun _ => ?_) fun _ => .refl c
  unfold processAck
  split
  · exact trivial
  · next buf _ =>
    refine Outcome.ite (fun _ => .refl c) fun _ => ?_
    have hupdate : ∀ dup ackSeq,
        c.SameRecv ((c.mod (windowUpdate a.seg ackSeq)).mod (countDup dup ackSeq)) := by
      intro dup ackSeq
      unfold windowUpdate countDup Conn.SameRecv Conn.mod
      dsimp only
      repeat' split
      all_goals exact rfl
    refine Outcome.bind ((answerDup_uncongested _ _ _).mono (fun _ _ => trivial) fun _ h => h) ?_
    intro c₁ h₁
    have hraise := (hupdate _ _).trans (Stream.view_of_uncongested Stream.recvView (fun _ => rfl)
      ((raiseSndNxt_uncongested c₁ buf (ackSeqOf c.stream a.seg.ackSeq)).trans h₁))
    refine Outcome.ite (fun _ => hraise) fun _ => ?_
    exact (ackRemove_sameRecv _ _ _ _).mono (fun _ _ => trivial) fun _ h => hraise.trans h

end SameRecv

/-! ### Streams that were closed -/

/-- According to the log, the stream was `CLOSED`. -/
def EnteredClosed (log : List (Event ρ)) : Prop :=
  ∃ s, Event.entered s ∈ log ∧ s.state = .closed

/-- The event says that `CLOSED` was entered. -/
def Event.isClosed : Event ρ → Bool
  | .entered s => s.state = .closed
  | _ => false

theorem enteredClosed_iff {log : List (Event ρ)} : EnteredClosed log ↔ log.any Event.isClosed := by
  rw [List.any_eq_true]
  constructor
  · rintro ⟨s, hmem, hclosed⟩
    exact ⟨_, hmem, decide_eq_true hclosed⟩
  · rintro ⟨e, hmem, he⟩
    cases e with
    | entered s => exact ⟨s, hmem, of_decide_eq_true he⟩
    | _ => cases he

/-- The stream is closed, if it ever was since the log began. -/
def Conn.Sealed (c : Conn ρ) : Prop := EnteredClosed c.log → c.stream.state = .closed

section Sealed

variable {c c' : Conn ρ} {e : Event ρ} {st : TcpState}

/-- An event that enters `CLOSED` is the only kind that counts. -/
theorem EnteredClosed.of_snoc {log : List (Event ρ)} (h : EnteredClosed (log ++ [e])) :
    EnteredClosed log ∨ ∃ s, e = .entered s ∧ s.state = .closed := by
  obtain ⟨s, hmem, hs⟩ := h
  rcases List.mem_append.mp hmem with hmem | hmem
  · exact .inl ⟨s, hmem, hs⟩
  · exact .inr ⟨s, (List.mem_singleton.mp hmem).symm, hs⟩

theorem Conn.Sealed.of_closed (h : c.stream.state = .closed) : c.Sealed := fun _ => h

theorem Conn.Sealed.of_no_log (h : c.log = []) : c.Sealed := by
  rintro ⟨s, hmem, -⟩
  rw [h] at hmem
  cases hmem

/-- Nothing is recorded, and the state stays. -/
theorem Conn.Sealed.keep (h : c.Sealed) (hst : c'.stream.state = c.stream.state)
    (hlog : c'.log = c.log) : c'.Sealed := by
  intro hc
  rw [hlog] at hc
  rw [hst]
  exact h hc

theorem Conn.Sealed.steady (h : c.Sealed) (hs : c.Steady c') : c'.Sealed := h.keep hs.state hs.log

/-- A stream that is not closed may change its state. -/
theorem Conn.Sealed.setState (h : c.Sealed) (hne : c.stream.state ≠ .closed) (st : TcpState) :
    (c.setState st).Sealed := by
  intro hc
  rcases hc.of_snoc with hc | ⟨s, hs, hclosed⟩
  · exact absurd (h hc) hne
  · obtain rfl := Event.entered.inj hs
    exact hclosed

theorem Conn.Sealed.takeFin (h : c.Sealed) (seg : Segment) : (c.takeFin seg).Sealed := by
  intro hc
  rcases hc.of_snoc with hc | ⟨s, hs, -⟩
  · exact h hc
  · cases hs

theorem Conn.Sealed.streamDestroy (h : c.Sealed) : c.streamDestroy.Sealed := by
  intro hc
  rcases hc.of_snoc with hc | ⟨s, hs, -⟩
  · exact h hc
  · cases hs

/-- A stream that is closed stays sealed, whatever the reason is. -/
theorem Conn.sealed_close (c : Conn ρ) (why : CloseReason) : (c.close .closed why).Sealed :=
  .of_closed rfl

theorem Conn.Sealed.close (h : c.Sealed) (hne : c.stream.state ≠ .closed) (st : TcpState)
    (why : CloseReason) : (c.close st why).Sealed :=
  (h.setState hne st).keep rfl rfl

end Sealed

/-! ### The payload -/

section Payload

variable {P : Parts ρ} {c : Conn ρ} {a : Arrival ρ}

/-- The segment has data, and there is no buffer for it. -/
def Starves (s : Stream ρ) (a : Arrival ρ) : Prop :=
  0 < a.seg.payloadlen ∧ recvbufFor s a = none

/-- The payload step closes a stream for one reason only. -/
theorem processPayload_closes (P : Parts ρ) (a : Arrival ρ) (hne : c.stream.state ≠ .closed) :
    Outcome (processPayload P c a) (fun _ => True) fun r => r.1.stream.state = .closed →
      recvbufFor c.stream a = none ∧
        ¬tcpSeqGt a.seg.seqEnd (c.stream.rcvNxt + c.stream.rcv.rcvWnd) := by
  unfold processPayload
  refine Outcome.ite (fun _ h => absurd h hne) fun _ => Outcome.ite (fun _ h => absurd h hne) fun hgt => ?_
  -- both window tests are passed; only the missing buffer closes the stream
  cases hbuf : recvbufFor c.stream a with
  | none => exact fun _ => ⟨rfl, hgt⟩
  | some buf =>
    cases hput : putPayload P.recv c.stream.state buf a.seg with
    | error e => simp only [hput, Outcome.error_iff]
    | ok buf' =>
      simp only [hput, Outcome.ok_iff]
      exact fun h => absurd h hne

theorem receivePayload_closes (P : Parts ρ) (a : Arrival ρ) (hne : c.stream.state ≠ .closed) :
    Outcome (receivePayload P c a) (fun _ => True) fun c' => c'.stream.state = .closed →
      Starves c.stream a ∧ ¬tcpSeqGt a.seg.seqEnd (c.stream.rcvNxt + c.stream.rcv.rcvWnd) := by
  unfold receivePayload
  refine Outcome.ite (fun hpos => ?_) fun _ h => absurd h hne
  refine Outcome.bind (processPayload_closes P a hne) fun r hr h => ?_
  rw [(enqueueAcklist_scheduled _ _).steady.state] at h
  obtain ⟨hbuf, hgt⟩ := hr h
  exact ⟨⟨hpos, hbuf⟩, hgt⟩

theorem Conn.Sealed.payload {c' : Conn ρ} (h : c.Sealed) (hstep : PayloadStep c c' a.seg) : c'.Sealed := by
  cases hstep with
  | stored hses hlog => exact h.keep (congrArg Session.state hses) hlog
  | closed _ _ _ hses _ => exact .of_closed (congrArg Session.state hses)

end Payload

/-! ### The handlers -/

section SealedHandlers

variable {P : Parts ρ} {c c' : Conn ρ} {a : Arrival ρ}

/-- The result of a computation that returns is sealed. -/
def StaysSealed (r : Except Abort (Conn ρ)) : Prop := Outcome r (fun _ => True) Conn.Sealed

theorem StaysSealed.of_steady {E : Abort → Prop} {r : Except Abort (Conn ρ)} (h : c.Sealed)
    (hr : Outcome r E c.Steady) : StaysSealed r :=
  hr.mono (fun _ _ => trivial) fun _ hs => h.steady hs

/-- A sealed result that is put on the timeout list. -/
theorem StaysSealed.timeoutList (h : c.Sealed) : StaysSealed (addToTimeoutList c) :=
  (addToTimeoutList_outcome c).mono (fun _ _ => trivial) fun c' hc =>
    h.keep (by rw [hc.1]) hc.2

theorem Conn.Sealed.controllist (h : c.Sealed) : (addtoControllist c).Sealed :=
  h.steady (addtoControllist_scheduled c).steady

theorem Conn.Sealed.acklist (h : c.Sealed) (opt : AckOpt) : (enqueueAcklist c opt).Sealed :=
  h.steady (enqueueAcklist_scheduled c opt).steady

theorem handleListen_sealed (h : c.Sealed) (hne : c.stream.state ≠ .closed) :
    StaysSealed (handleListen c a) := by
  unfold handleListen
  refine Outcome.ite (fun _ => ?_) fun _ => trivial
  dsimp only
  split
  · have h' : (c.mod fun s => { s with rcvNxt := s.rcvNxt + 1 }).Sealed := h.keep rfl rfl
    exact (h'.setState hne .synRcvd).controllist
  · exact (h.setState hne .synRcvd).controllist

theorem synSentOpen_sealed (h : c.Sealed) (hne : c.stream.state ≠ .closed) :
    StaysSealed (synSentOpen c a) := by
  unfold synSentOpen
  refine Outcome.bind ((activeOpen_outcome c a).mono (fun _ _ => trivial) fun _ h => h) ?_
  rintro c₁ ⟨hses, -, -, hlog⟩
  have hst : c₁.stream.state = c.stream.state := congrArg Session.state hses
  -- up to here options and times were noted, and no state was entered
  have h₁ : c₁.Sealed := h.keep hst hlog
  dsimp only
  have hout := removeFromRtoList_scheduled ((c₁.modSnd fun snd => { snd with nrtx := 0 }).mod
    fun s => { s with rcvNxt := s.rcv.irs + 1 })
  have h₂ : (removeFromRtoList ((c₁.modSnd fun snd => { snd with nrtx := 0 }).mod
      fun s => { s with rcvNxt := s.rcv.irs + 1 })).Sealed :=
    h₁.keep (hout.steady.state.trans (by rfl)) (hout.steady.log.trans (by rfl))
  have hopen := h₂.setState (by rw [hout.steady.state]; exact hst ▸ hne) .established
  refine StaysSealed.timeoutList (Conn.Sealed.controllist ?_)
  split
  · exact hopen
  · exact Conn.Sealed.streamDestroy (hopen.keep rfl rfl)

theorem handleSynSent_sealed (h : c.Sealed) (hne : c.stream.state ≠ .closed) :
    StaysSealed (handleSynSent c a) := by
  unfold handleSynSent
  refine Outcome.ite (fun _ => h) fun _ => ?_
  have hack : (if a.seg.ack then
      c.modSnd fun snd => { snd with sndUna := snd.sndUna + 1 } else c).Sealed ∧
      (if a.seg.ack then
        c.modSnd fun snd => { snd with sndUna := snd.sndUna + 1 } else c).stream.state ≠
        .closed := by
    split
    · exact ⟨h.keep rfl rfl, hne⟩
    · exact ⟨h, hne⟩
  dsimp only
  generalize (if a.seg.ack then
    c.modSnd fun snd => { snd with sndUna := snd.sndUna + 1 } else c) = c₁ at hack
  refine Outcome.ite (fun _ => ?_) fun _ => Outcome.ite (fun _ => ?_) fun _ => ?_
  · -- a reset
    rw [Outcome.ok_iff]
    have hreset := hack.1.close hack.2 .closeWait .reset
    split
    · exact hreset
    · exact hreset.streamDestroy
  · exact synSentOpen_sealed hack.1 hack.2
  · exact Conn.Sealed.controllist ((hack.1.setState hack.2 .synRcvd).keep rfl rfl)

/-- A handshake that completes leaves the stream open, or refuses it. -/
theorem synRcvdOpen_sealed (h : c.Sealed) (hne : c.stream.state ≠ .closed) :
    StaysSealed (synRcvdOpen c a) := by
  rw [synRcvdOpen_eq]
  have hout := removeFromRtoList_scheduled (c.synRcvdAcked a)
  generalize removeFromRtoList (c.synRcvdAcked a) = c₁ at hout ⊢
  have h₁ : c₁.Sealed :=
    h.keep (hout.steady.state.trans (by rfl)) (hout.steady.log.trans (by rfl))
  have hopen := h₁.setState (by rw [hout.steady.state]; exact hne) .established
  split
  · exact trivial
  · refine Outcome.ite (fun _ => StaysSealed.timeoutList ?_) fun _ => StaysSealed.timeoutList hopen
    -- the accept queue is full
    exact Conn.Sealed.controllist (.of_closed rfl)

theorem establishedAck_outcome (c : Conn ρ) (a : Arrival ρ) :
    Outcome (establishedAck c a) (fun _ => True) c.Steady := by
  unfold establishedAck
  exact Outcome.ite (fun _ => receiveAck_outcome c a) fun _ => .refl c

/-- Where the payload does not close the stream in front of its FIN, `cmt_tcp_handle_established` keeps it
sealed. -/
theorem handleEstablished_sealed (h : c.Sealed) (hne : c.stream.state ≠ .closed)
    (hfin : a.seg.fin → ¬a.seg.syn → Starves c.stream a →
      ¬tcpSeqGt a.seg.seqEnd (c.stream.rcvNxt + c.stream.rcv.rcvWnd) →
        a.seg.seqEnd ≠ c.stream.rcvNxt) :
    StaysSealed (handleEstablished P c a) := by
  unfold handleEstablished
  refine Outcome.ite (fun _ => Conn.Sealed.controllist (h.keep rfl rfl)) fun hsyn => ?_
  refine Outcome.bind_of_ok ((receivePayload_step P c a).mono (fun _ _ => trivial) fun _ h => h) ?_
  rintro c₀ hok₀ ⟨hpay, -⟩
  refine Outcome.bind ((establishedAck_outcome _ a).mono (fun _ _ => trivial) fun _ h => h) ?_
  intro c₁ h₁
  -- payload and acknowledgement keep it sealed; the FIN behind them is what may reopen it
  have hsealed := (h.payload hpay).steady h₁
  rw [Outcome.ok_iff]
  unfold establishedFin
  split
  · next hf =>
    split
    · next hend =>
      refine Conn.Sealed.controllist (Conn.Sealed.takeFin (hsealed.setState ?_ .closeWait) a.seg)
      -- a stream that the payload closed does not end here
      intro hclosed
      rw [h₁.state] at hclosed
      obtain ⟨hstarves, hgt⟩ := (receivePayload_closes P a hne).of_ok hok₀ hclosed
      refine hfin hf hsyn hstarves hgt ?_
      rw [hend, h₁.rcvNxt]
      rcases hpay.state with hkeep | ⟨-, -, hnxt⟩
      · exact absurd (hkeep.symm.trans hclosed) hne
      · exact hnxt
    · exact hsealed.acklist .now
  · exact hsealed

theorem handleLastAck_sealed (h : c.Sealed) : StaysSealed (handleLastAck c a) := by
  refine (handleLastAck_outcome c a).mono (fun _ _ => trivial) fun c' hc => ?_
  rcases hc with hs | ⟨-, hclosed, -⟩
  · exact h.steady hs
  · exact .of_closed hclosed

theorem finAcked_sealed (h : c.Sealed) (hne : c.stream.state ≠ .closed) (seg : Segment) :
    (finAcked c seg).Sealed ∧ (finAcked c seg).stream.state ≠ .closed ∧
      (finAcked c seg).stream.rcvNxt = c.stream.rcvNxt := by
  unfold finAcked
  split
  · have hout := removeFromRtoList_scheduled (c.mod fun s =>
      { s with
        sndNxt := if tcpSeqGt seg.ackSeq s.sndNxt then seg.ackSeq else s.sndNxt
        snd := { s.snd with sndUna := seg.ackSeq, nrtx := 0 } })
    have h' := h.steady (Conn.Steady.trans ⟨by rfl, by rfl⟩ hout.steady)
    refine ⟨h'.setState ?_ .finWait2, nofun, hout.steady.rcvNxt⟩
    rw [hout.steady.state]
    exact hne
  · exact ⟨h, hne, rfl⟩

/-- In `FIN_WAIT_1` the segment is known to start in the window, so data in it comes in front of its
FIN. -/
theorem handleFinWait1_sealed (h : c.Sealed) (hne : c.stream.state ≠ .closed) :
    StaysSealed (handleFinWait1 P c a) := by
  unfold handleFinWait1
  refine Outcome.ite (fun _ => h.controllist) fun hge => Outcome.ite (fun _ => ?_) fun _ => h
  refine Outcome.bind ((receiveAck_outcome c a).mono (fun _ _ => trivial) fun _ h => h) ?_
  intro c₁ h₁
  obtain ⟨h₂, hne₂, hnxt₂⟩ :=
    finAcked_sealed (h.steady h₁) (by rw [h₁.state]; exact hne) a.seg
  generalize finAcked c₁ a.seg = c₂ at h₂ hne₂ hnxt₂
  refine Outcome.bind ((receivePayload_step P c₂ a).mono (fun _ _ => trivial) fun _ h => h) ?_
  rintro c₃ ⟨hpay, -⟩
  have h₃ := h₂.payload hpay
  refine Outcome.ite (fun hf => ?_) fun _ => h₃
  -- data that closed the stream ends behind `rcv_nxt`, so the FIN is not next
  have hopen : c₃.stream.state ≠ .closed := by
    intro hclosed
    rcases hpay.state with hkeep | ⟨-, hpos, hnxt₃⟩
    · exact hne₂ (hkeep.symm.trans hclosed)
    · refine seqEnd_ne_of_not_lt hge hpos ?_
      rw [hf.2, hnxt₃, hnxt₂, h₁.rcvNxt]
  unfold finWait1Fin
  have htake := h₃.takeFin a.seg
  refine Outcome.ite (fun _ => ?_) fun _ => Outcome.ite (fun _ => ?_) fun _ => trivial
  · exact (htake.setState hopen .closing).controllist
  · exact ((htake.setState hopen .timeWait).steady
      (addToTimewaitList_scheduled _ a.ts).steady).controllist

/-- Where the payload does not close the stream in front of its FIN, `cmt_tcp_handle_fin_wait_2` keeps it
sealed. -/
theorem handleFinWait2_sealed (h : c.Sealed) (hne : c.stream.state ≠ .closed)
    (hfin : a.seg.fin → a.seg.ack → Starves c.stream a → a.seg.seqEnd ≠ c.stream.rcvNxt) :
    StaysSealed (handleFinWait2 P c a) := by
  unfold handleFinWait2
  refine Outcome.ite (fun hack => ?_) fun _ => h
  refine Outcome.bind_of_ok ((receiveAck_outcome c a).mono (fun _ _ => trivial) fun _ h => h) ?_
  intro c₁ hok h₁
  -- the acknowledgement leaves the receive buffer alone
  have hrecv := (receiveAck_sameRecv c a).of_ok hok
  have hne₁ : c₁.stream.state ≠ .closed := by rw [h₁.state]; exact hne
  refine Outcome.bind_of_ok ((receivePayload_step P c₁ a).mono (fun _ _ => trivial) fun _ h => h) ?_
  rintro c₂ hok₂ ⟨hpay, -⟩
  have h₂ := (h.steady h₁).payload hpay
  have hcloses := (receivePayload_closes P a hne₁).of_ok hok₂
  refine Outcome.ite (fun hf => ?_) fun _ => h₂
  -- a payload that closed the stream has starved, and then the FIN is not next
  have hopen : c₂.stream.state ≠ .closed := by
    intro hclosed
    obtain ⟨⟨hpos, hbuf⟩, -⟩ := hcloses hclosed
    rw [hrecv.recvbufFor h₁.irs] at hbuf
    refine hfin hf.1 hack ⟨hpos, hbuf⟩ ?_
    rcases hpay.state with hkeep | ⟨-, -, hnxt⟩
    · exact absurd (hkeep.symm.trans hclosed) hne₁
    · rw [hf.2, hnxt, h₁.rcvNxt]
  exact (((h₂.setState hopen .timeWait).takeFin a.seg).steady
    (addToTimewaitList_scheduled _ a.ts).steady).controllist

theorem handleClosing_sealed (h : c.Sealed) (hne : c.stream.state ≠ .closed) :
    StaysSealed (handleClosing c a) := by
  unfold handleClosing
  refine Outcome.ite (fun _ => ?_) fun _ => h
  refine Outcome.bind ((receiveAck_outcome c a).mono (fun _ _ => trivial) fun _ h => h) ?_
  intro c₁ h₁
  have hsealed := h.steady h₁
  refine Outcome.ite (fun _ => hsealed) fun _ => Outcome.ite (fun _ => hsealed) fun _ => ?_
  refine Outcome.bind ((updateRetransmissionTimer_outcome _ a.ts).mono (fun _ _ => trivial)
    fun _ h => h) fun c₂ h₂ => ?_
  -- the timer is all that changes before `TIME_WAIT` is entered
  have hst₂ : c₁.Steady c₂ := Conn.Steady.trans ⟨by rfl, by rfl⟩ h₂.steady
  have hne₂ : c₂.stream.state ≠ .closed := by
    rw [hst₂.state, h₁.state]
    exact hne
  exact ((hsealed.steady hst₂).setState hne₂ .timeWait).steady
    (addToTimewaitList_scheduled _ a.ts).steady

/-- What is known when the handshake of a stream in `SYN_RCVD` completes. -/
theorem synRcvdOpen_established (hok : synRcvdOpen c a = .ok c')
    (hst : c'.stream.state = .established) :
    (∃ l, a.listener = some l ∧ ¬l.enqueueRet < 0) ∧ c'.stream.rcvNxt = c.stream.rcv.irs + 1 ∧
      c'.stream.rcv.irs = c.stream.rcv.irs ∧ c.SameRecv c' := by
  rw [synRcvdOpen_eq] at hok
  have hout := removeFromRtoList_scheduled (c.synRcvdAcked a)
  generalize removeFromRtoList (c.synRcvdAcked a) = c₁ at hout hok
  split at hok
  · cases hok
  · next l hl =>
    split at hok
    · -- a refused stream is closed
      have hs := ((addToTimeoutList_outcome _).of_ok hok).1
      rw [hs] at hst
      have hclosed := (addtoControllist_scheduled (((c₁.setState .established).mod fun s =>
        { s with closeReason := .notAccepted }).setState .closed)).steady.state
      exact absurd (hst.symm.trans hclosed) nofun
    · next hret =>
      have hs := ((addToTimeoutList_outcome _).of_ok hok).1
      refine ⟨⟨l, hl, hret⟩, ?_, ?_, ?_⟩
      · rw [hs]
        exact hout.steady.rcvNxt
      · rw [hs]
        exact hout.steady.irs
      · unfold Conn.SameRecv
        rw [hs]
        exact hout.sameRecv

end SealedHandlers

/-! ### A call of `cmt_tcp_process` -/

/-- The segment finds no buffer for its data and ends where the stream expects the next byte, in a state
whose handler looks at the FIN behind it. -/
inductive Reopens (c : Conn ρ) (a : Arrival ρ) : Prop
  | synRcvd (hst : c.stream.state = .synRcvd) (hrst : ¬a.seg.rst) (hsyn : ¬a.seg.syn)
      (hack : a.seg.ack ∧ a.seg.ackSeq = c.stream.snd.iss + 1)
      (hlistener : ∃ l, a.listener = some l ∧ ¬l.enqueueRet < 0) (hfin : a.seg.fin)
      (hstarves : Starves c.stream a) (hend : a.seg.seqEnd = c.stream.rcv.irs + 1)
      (hwnd : ¬tcpSeqGt a.seg.seqEnd (c.stream.rcv.irs + 1 + c.stream.rcv.rcvWnd))
  | established (hst : c.stream.state = .established) (hrst : ¬a.seg.rst) (hsyn : ¬a.seg.syn)
      (haccept : (validseq c a).2) (hfin : a.seg.fin) (hstarves : Starves c.stream a)
      (hend : a.seg.seqEnd = c.stream.rcvNxt)
  | finWait2 (hst : c.stream.state = .finWait2) (hrst : ¬a.seg.rst) (hack : a.seg.ack)
      (haccept : (validseq c a).2) (hfin : a.seg.fin) (hstarves : Starves c.stream a)
      (hend : a.seg.seqEnd = c.stream.rcvNxt)

/-- `c'` is the stream of `c` when a handler gets it: in the same session and with the same receive
buffer, and past `SYN_RCVD` the segment was accepted. -/
structure Conn.Handed (c c' : Conn ρ) (a : Arrival ρ) : Prop where
  same : c.Same c'
  recv : c.SameRecv c'
  accepted : c.stream.state.code > TcpState.synRcvd.code → (validseq c a).2

section SealedCalls

variable {P : Parts ρ} {c c' : Conn ρ} {a : Arrival ρ}

theorem Conn.Handed.starves_iff (h : c.Handed c' a) :
    Starves c'.stream a ↔ Starves c.stream a := by
  unfold Starves
  rw [h.recv.recvbufFor h.same.steady.irs]

theorem handleSynRcvdData_sealed (h : c'.Sealed) (hc : c.Handed c' a)
    (hst : c.stream.state = .synRcvd) (hrst : ¬a.seg.rst) (hno : ¬Reopens c a) :
    StaysSealed (handleSynRcvdData P c' a) := by
  have hst' : c'.stream.state = .synRcvd := hc.same.steady.state.trans hst
  have hne : c'.stream.state ≠ .closed := by rw [hst']; decide
  unfold handleSynRcvdData
  refine Outcome.ite (fun _ => handleListen_sealed h hne) fun _ => ?_
  unfold handleSynRcvd
  by_cases hack : a.seg.ack
  · rw [if_pos hack]
    by_cases hseq : a.seg.ackSeq ≠ c'.stream.snd.iss + 1
    · rw [if_pos hseq]
      exact trivial
    rw [if_neg hseq]
    refine Outcome.bind_of_ok (synRcvdOpen_sealed h hne) fun c₁ hok h₁ => ?_
    refine Outcome.ite (fun hopen => ?_) fun _ => h₁
    obtain ⟨hlistener, hnxt, hirs, hrecv⟩ := synRcvdOpen_established hok hopen.2
    have hne₁ : c₁.stream.state ≠ .closed := by rw [hopen.2]; decide
    refine handleEstablished_sealed h₁ hne₁ fun hfin hsyn hstarves hgt hend => hno ?_
    -- the stream has its numbers and its buffer from before the handshake completed
    rw [hnxt, hc.same.steady.irs] at hend hgt
    rw [hrecv.rcvWnd, hc.recv.rcvWnd] at hgt
    refine .synRcvd hst hrst hsyn ⟨hack, ?_⟩ hlistener hfin ?_ hend hgt
    · rw [← hc.same.steady.iss]
      exact not_not.mp hseq
    · rw [← hc.starves_iff]
      exact ⟨hstarves.1, (hrecv.recvbufFor hirs a).symm.trans hstarves.2⟩
  · -- without an acknowledgement the stream stays where it is
    rw [if_neg hack]
    have hctl : (addtoControllist (c'.mod fun s => { s with sndNxt := s.snd.iss })).Sealed :=
      Conn.Sealed.controllist (h.keep rfl rfl)
    refine Outcome.ite (fun hopen => ?_) fun _ => hctl
    rw [(addtoControllist_scheduled _).steady.state] at hopen
    exact absurd (hst'.symm.trans hopen.2) nofun

/-- The `switch`. -/
theorem dispatch_sealed (hP : P.CloseWaitSteady) (h : c'.Sealed) (hc : c.Handed c' a)
    (hrst : a.seg.rst → c.stream.state.code ≤ TcpState.synSent.code) (hno : ¬Reopens c a) :
    StaysSealed (dispatch P c' a) := by
  have hst := hc.same.steady.state
  have hnxt := hc.same.steady.rcvNxt
  -- two of the handlers need the condition: those that look at a FIN behind data
  unfold dispatch
  split
  · next hst' => exact handleListen_sealed h (by rw [hst']; decide)
  · next hst' => exact handleSynSent_sealed h (by rw [hst']; decide)
  · next hst' =>
    rw [hst'] at hst
    exact handleSynRcvdData_sealed h hc hst.symm (fun hr => absurd (hrst hr) (by rw [← hst]; decide)) hno
  · next hst' =>
    rw [hst'] at hst
    refine handleEstablished_sealed h (by rw [hst']; decide) fun hfin hsyn hstarves _ hend => hno ?_
    rw [hnxt] at hend
    exact .established hst.symm (fun hr => absurd (hrst hr) (by rw [← hst]; decide)) hsyn
      (hc.accepted (by rw [← hst]; decide)) hfin (hc.starves_iff.mp hstarves) hend
  · exact StaysSealed.of_steady h (hP c' a)
  · exact handleLastAck_sealed h
  · next hst' => exact handleFinWait1_sealed h (by rw [hst']; decide)
  · next hst' =>
    rw [hst'] at hst
    refine handleFinWait2_sealed h (by rw [hst']; decide) fun hfin hack hstarves hend => hno ?_
    rw [hnxt] at hend
    exact .finWait2 hst.symm (fun hr => absurd (hrst hr) (by rw [← hst]; decide)) hack
      (hc.accepted (by rw [← hst]; decide)) hfin (hc.starves_iff.mp hstarves) hend
  · next hst' => exact handleClosing_sealed h (by rw [hst']; decide)
  · exact StaysSealed.of_steady h (handleTimeWait_outcome c' a)
  · exact h

theorem processRst_sealed (h : c.Sealed) (hcode : c.stream.state.code > TcpState.synSent.code)
    (ackSeq : U32) : (processRst c ackSeq).1.Sealed := by
  have hne : c.stream.state ≠ .closed := by
    intro hst
    rw [hst] at hcode
    exact absurd hcode (by decide)
  unfold processRst
  dsimp only
  rw [if_neg (by omega)]
  split
  · split
    · exact (c.sealed_close .reset).streamDestroy
    · exact h
  split
  · exact (c.sealed_close .activeClose).streamDestroy
  split
  · exact h.close hne .closeWait .reset
  · exact h

/-- An accepted segment is dispatched, or it is a reset. -/
theorem processAccepted_sealed (hP : P.CloseWaitSteady) (h : c'.Sealed) (hc : c.Handed c' a)
    (hno : ¬Reopens c a) : StaysSealed (processAccepted P c' a) := by
  have hnote := noteArrival_same c' a
  have hrecv := hc.recv.trans (noteArrival_sameRecv c' a)
  have hst := hc.same.steady.state
  unfold processAccepted
  refine Outcome.ite (fun hr => ?_) fun hr => ?_
  · have hsame : c'.Same ((noteArrival c' a).mod fun s => { s with haveReset := true }) :=
      hnote.trans ⟨⟨rfl, rfl⟩, rfl, rfl⟩
    have hsealed := h.steady hsame.steady
    -- a reset that is dispatched after all comes before `SYN_RCVD`
    refine Outcome.ite (fun hcode => processRst_sealed hsealed hcode.1 _) fun hcode => ?_
    refine dispatch_sealed hP hsealed ⟨hc.same.trans hsame, hrecv.trans rfl, hc.accepted⟩ (fun _ => ?_)
      hno
    by_contra hgt
    rw [← (hc.same.trans hsame).steady.state] at hgt
    exact hcode ⟨by omega, processRst_ends (by omega) _⟩
  · exact dispatch_sealed hP (h.steady hnote.steady) ⟨hc.same.trans hnote, hrecv, hc.accepted⟩
      (fun hr' => absurd hr' hr) hno

/-- **One segment.** A segment that does not reopen its stream leaves it closed if it was closed at any
moment. -/
theorem processStream_sealed (hP : P.CloseWaitSteady) (h : c.Sealed) (hno : ¬Reopens c a) :
    StaysSealed (processStream P c a) := by
  have hsame := validseq_same c a
  unfold processStream
  refine Outcome.ite (fun _ => Outcome.ite (fun haccept => ?_) fun _ => h.steady hsame.steady)
    fun hcode => ?_
  · exact processAccepted_sealed hP (h.steady hsame.steady)
      ⟨hsame, validseq_sameRecv c a, fun _ => haccept⟩ hno
  · exact processAccepted_sealed hP h ⟨.refl c, .refl c, fun hgt => absurd hgt hcode⟩ hno

/-- A stream that is closed before the segment is closed after it. -/
theorem processStream_of_closed (hst : c.stream.state = .closed) :
    Outcome (processStream P c a) (fun _ => False) fun c' => c'.stream.state = .closed := by
  -- nothing is refused and no reset is looked at, since `CLOSED` comes first in the order of states
  refine processStream_outcome (fun c' _ hcode => ?_) (fun c' _ _ hcode => ?_) fun c' h _ => ?_
  · rw [hst] at hcode
    exact absurd hcode (by decide)
  · rw [hst] at hcode
    exact absurd hcode (by decide)
  · have hst' := h.steady.state.trans hst
    unfold dispatch
    rw [hst']
    exact hst'

end SealedCalls

/-! ### Runs -/

/-- The stack after `cmt_tcp_process` on the object at `x`, which it changes in place. -/
def Stack.store (S : Stack ρ) (x : Addr) (w : World ρ) : Stack ρ :=
  { S with
    tcp := w.tcp
    stream := match w.stream with
      | some s => Function.update S.stream x (some s)
      | none => S.stream }

/-- What may happen to the streams of a stack; `x` is where the stream is. -/
inductive ClosedLabel (ρ : Type)
  | segment (x : Addr) (a : Arrival ρ)
  | created (x : Addr) (a : Arrival ρ)
  | rto (x : Addr)
  | timewait (curTs : U32) (thresh : ℤ)
  | timeout (curTs : U32) (thresh : ℤ)

/-- One step: a call of `cmt_tcp_process` that finds a stream, or none, a call of `handle_rto` on any
stream at any time, or a scan of the timewait list or of the timeout list. A new stream is an object that
is in no use. -/
inductive ClosedStep (P : Parts ρ) (tcpTimeout : ℤ) : Stack ρ → ClosedLabel ρ → Stack ρ → Prop
  | segment {S : Stack ρ} {x : Addr} {s : Stream ρ} {a : Arrival ρ} {w : World ρ} {ret : ℤ}
      (hs : S.stream x = some s) (h : process P (S.conn s).toWorld a = .ok (w, ret)) :
      ClosedStep P tcpTimeout S (.segment x a) (S.store x w)
  | created {S : Stack ρ} {x : Addr} {a : Arrival ρ} {w : World ρ} {ret : ℤ}
      (hfree : S.stream x = none)
      (h : process P { tcp := S.tcp, stream := none, log := [] } a = .ok (w, ret)) :
      ClosedStep P tcpTimeout S (.created x a) (S.store x w)
  | rto {S : Stack ρ} {x : Addr} {s : Stream ρ} {c : Conn ρ} {ret : ℤ}
      (hs : S.stream x = some s) (h : handleRto (S.conn s) (S.socket x) = .ok (c, ret)) :
      ClosedStep P tcpTimeout S (.rto x) (S.store x c.toWorld)
  | timewait {S S' : Stack ρ} {curTs : U32} {thresh cnt : ℤ}
      (h : checkTimewaitExpire S curTs thresh = .ok (S', cnt)) :
      ClosedStep P tcpTimeout S (.timewait curTs thresh) S'
  | timeout {S S' : Stack ρ} {curTs : U32} {thresh cnt : ℤ}
      (h : checkConnectionTimeout tcpTimeout S curTs thresh = .ok (S', cnt)) :
      ClosedStep P tcpTimeout S (.timeout curTs thresh) S'

/-- The stream at `x` is `CLOSED`. -/
def Stack.IsClosed (S : Stack ρ) (x : Addr) : Prop :=
  ∃ s, S.stream x = some s ∧ s.state = .closed

/-- The stream at `x` is `CLOSED` before a step, or at some moment of a call of `cmt_tcp_process`. -/
inductive ClosedDuring (P : Parts ρ) (S : Stack ρ) (x : Addr) : ClosedLabel ρ → Prop
  | before (l : ClosedLabel ρ) (h : S.IsClosed x) : ClosedDuring P S x l
  | segment {s : Stream ρ} {a : Arrival ρ} {w : World ρ} {ret : ℤ} (hs : S.stream x = some s)
      (h : process P (S.conn s).toWorld a = .ok (w, ret)) (hclosed : EnteredClosed w.log) :
      ClosedDuring P S x (.segment x a)
  | created {a : Arrival ρ} {w : World ρ} {ret : ℤ}
      (h : process P { tcp := S.tcp, stream := none, log := [] } a = .ok (w, ret))
      (hclosed : EnteredClosed w.log) : ClosedDuring P S x (.created x a)

/-- A segment whose header and checksum are fine does not reopen its stream. -/
def NothingReopens (S : Stack ρ) : ClosedLabel ρ → Prop
  | .segment x a => a.seg.ihl.toNat = 5 → a.seg.check = 0 →
      ∀ s, S.stream x = some s → ¬Reopens (S.conn s) a
  | _ => True

section Runs

variable {P : Parts ρ} {S S' : Stack ρ} {tcpTimeout : ℤ} {x y : Addr} {s : Stream ρ}
  {w : World ρ} {c : Conn ρ} {a : Arrival ρ} {ret : ℤ} {l : ClosedLabel ρ}

theorem Stack.isClosed_store (hw : w.stream = some s) :
    (S.store x w).IsClosed x ↔ s.state = .closed := by
  unfold Stack.IsClosed Stack.store
  dsimp only
  rw [hw]
  dsimp only
  rw [Function.update_self]
  constructor
  · rintro ⟨t, ht, hclosed⟩
    obtain rfl := Option.some.inj ht
    exact hclosed
  · exact fun h => ⟨s, rfl, h⟩

theorem Stack.isClosed_store_of_ne (hne : y ≠ x) : (S.store x w).IsClosed y ↔ S.IsClosed y := by
  unfold Stack.IsClosed Stack.store
  dsimp only
  cases w.stream with
  | none => exact Iff.rfl
  | some s =>
    dsimp only
    rw [Function.update_of_ne hne]

/-- A call that returns worked on the stream it was given. -/
theorem process_found (h : process P c.toWorld a = .ok (w, ret)) :
    w = c.toWorld ∨ (a.seg.ihl.toNat = 5 ∧ a.seg.check = 0 ∧
      ∃ c', processStream P c a = .ok c' ∧ w = c'.toWorld) := by
  rcases process_ok h with rfl | ⟨c₁, c', hfind, hproc, rfl⟩
  · exact .inl rfl
  · cases hfind
    unfold process at h
    split at h
    · cases h
    · next hihl =>
      split at h
      · next hcheck =>
        exact .inl (congrArg Prod.fst (Except.ok.inj h)).symm
      · next hcheck => exact .inr ⟨by omega, not_not.mp hcheck, c', hproc, rfl⟩

/-- A stream that is created for a segment is sealed. -/
theorem createStream_sealed (tcp : TcpManager) (a : Arrival ρ) :
    Outcome (createStream tcp [] a) (fun _ => True) fun r => ∀ c, r = some c → c.Sealed := by
  unfold createStream
  refine Outcome.ite (fun _ => Outcome.ite (fun _ => ?_) fun _ c h => by cases h)
    fun _ c h => by cases h
  unfold passiveOpen
  cases hs : createTcpStream a a.seg.daddr a.seg.dest a.seg.saddr a.seg.source with
  | none => exact fun c h => by cases h
  | some s =>
    dsimp only
    generalize hc₁ : (if (a.recvGet ((passiveInit s a.seg).rcv.irs + 1)).isNone then _ else _) = c₁
    have h₁ : c₁.Sealed := by
      rw [← hc₁]
      split
      · exact .of_closed rfl
      · -- the new stream is in `LISTEN`
        rintro ⟨t, hmem, hclosed⟩
        obtain rfl := Event.entered.inj (List.mem_singleton.mp hmem)
        rw [(createTcpStream_new hs).1] at hclosed
        cases hclosed
    refine Outcome.bind ((parseOptions_outcome c₁ a.ts a.seg).mono (fun _ _ => trivial) fun _ h => h)
      fun c₂ h₂ c h => ?_
    cases h
    exact h₁.keep (congrArg Session.state h₂.1.session) h₂.2

/-- A stream that is just created waits in `LISTEN` or is closed. -/
theorem createStream_no_reopen {tcp : TcpManager}
    (h : createStream tcp [] a = .ok (some c)) : ¬Reopens c a := by
  have hst := ((createStream_outcome tcp [] a).of_ok h c rfl).2.1
  intro hr
  cases hr with
  | synRcvd h _ _ _ _ _ _ _ _ => rw [h] at hst; exact absurd hst (by decide)
  | established h _ _ _ _ _ _ => rw [h] at hst; exact absurd hst (by decide)
  | finWait2 h _ _ _ _ _ _ => rw [h] at hst; exact absurd hst (by decide)

/-- `handle_rto` leaves a closed stream closed. -/
theorem handleRto_of_closed (hst : c.stream.state = .closed) (socket : Bool) :
    Outcome (handleRto c socket) (fun _ => True) fun r => r.1.stream.state = .closed := by
  unfold handleRto
  refine Outcome.ite (fun _ => ?_) fun _ => Outcome.ite (fun _ => ?_) fun _ => ?_
  · -- a closed stream has nothing to send again
    unfold rtoRetry
    extract_lets c₁ c₂ c₃ c₄
    have hmod : ∀ (c : Conn ρ) (f : SndVar → SndVar), (c.modSnd f).stream.state = c.stream.state :=
      fun _ _ => rfl
    have hst₂ : c₂.stream.state = .closed := (hmod _ _).trans ((hmod _ _).trans hst)
    have hst₃ : c₃.stream.state = .closed := hst₂
    have hst₄ : c₄.stream.state = .closed := (hmod _ _).trans hst₃
    -- in none of the states in which something is sent again, so it comes to the assertion
    rw [if_neg (by rw [hst₄]; decide), if_neg (by rw [hst₄]; decide)]
    exact trivial
  · rw [Outcome.ok_iff]
    exact (rfl : (c.close .closed .connFail).stream.state = .closed)
  · rw [Outcome.ok_iff]
    dsimp only
    split
    · exact rfl
    · exact rfl

/-- To put a closed stream into the stack opens none. -/
theorem Stack.IsClosed.put (h : S.IsClosed x) (hc : c.stream.state = .closed) :
    (S.put c).IsClosed x := by
  obtain ⟨s, hs, hclosed⟩ := h
  by_cases hx : x = c.stream.addr
  · subst hx
    exact ⟨c.stream, Function.update_self _ _ _, hc⟩
  · exact ⟨s, (Stack.put_stream_of_ne hx).trans hs, hclosed⟩

/-- The address a scan stands at may be of a stream or not. -/
theorem Stack.deref_any (S : Stack ρ) (a : Addr) :
    Outcome (S.deref a) (fun _ => True) fun _ => True := by
  unfold Stack.deref
  split
  · exact trivial
  · exact trivial

theorem timewaitLoop_isClosed (curTs : U32) (thresh : ℤ) (l : List Addr) (cnt : ℤ) (S : Stack ρ)
    (h : S.IsClosed x) :
    Outcome (timewaitLoop curTs thresh l cnt S) (fun _ => True) fun r => r.1.IsClosed x := by
  induction l generalizing cnt S with
  | nil => exact h
  | cons walk next ih =>
    unfold timewaitLoop
    refine Outcome.ite (fun _ => h) fun _ => ?_
    refine Outcome.bind (Stack.deref_any S walk) fun s _ => ?_
    refine Outcome.ite (fun _ => Outcome.ite (fun _ => ?_) fun _ => h) fun _ => ih _ S h
    refine Outcome.ite (fun _ => ?_) fun _ => ih _ S h
    exact ih _ _ (h.put rfl)

theorem timeoutLoop_isClosed (curTs : U32) (thresh : ℤ) (l : List Addr) (cnt : ℤ) (S : Stack ρ)
    (h : S.IsClosed x) :
    Outcome (timeoutLoop tcpTimeout curTs thresh l cnt S) (fun _ => True)
      fun r => r.1.IsClosed x := by
  induction l generalizing cnt S with
  | nil => exact h
  | cons walk next ih =>
    unfold timeoutLoop
    refine Outcome.ite (fun _ => h) fun _ => ?_
    refine Outcome.bind (Stack.deref_any S walk) fun s _ => Outcome.ite (fun _ => ih _ _ (h.put ?_)) fun _ => h
    unfold closeIdle
    dsimp only
    split
    · exact rfl
    · exact rfl

/-- A segment for a stream that is closed before the call, or at some moment of it. -/
theorem segment_isClosed (hP : P.CloseWaitSteady) (hs : S.stream x = some s)
    (h : process P (S.conn s).toWorld a = .ok (w, ret))
    (hguard : NothingReopens S (.segment x a)) (hat : s.state = .closed ∨ EnteredClosed w.log) :
    (S.store x w).IsClosed x := by
  rcases process_found h with rfl | ⟨hihl, hcheck, c', hproc, rfl⟩
  · -- the segment was dropped, and nothing was entered
    rw [Stack.isClosed_store rfl]
    rcases hat with hclosed | ⟨u, hmem, -⟩
    · exact hclosed
    · cases hmem
  · rw [Stack.isClosed_store rfl]
    rcases hat with hclosed | hclosed
    · exact (processStream_of_closed hclosed).of_ok hproc
    · exact (processStream_sealed hP (.of_no_log rfl) (hguard hihl hcheck s hs)).of_ok hproc hclosed

/-- A segment that creates its stream and closes it. -/
theorem created_isClosed (hP : P.CloseWaitSteady)
    (h : process P { tcp := S.tcp, stream := none, log := [] } a = .ok (w, ret))
    (hclosed : EnteredClosed w.log) : (S.store x w).IsClosed x := by
  rcases process_ok h with rfl | ⟨c₁, c', hfind, hproc, rfl⟩
  · obtain ⟨u, hmem, -⟩ := hclosed
    cases hmem
  · rw [Stack.isClosed_store rfl]
    have hsealed := (createStream_sealed S.tcp a).of_ok hfind c₁ rfl
    exact (processStream_sealed hP hsealed (createStream_no_reopen hfind)).of_ok hproc hclosed

/-- **One step.** A stream that is closed at any moment of the step is closed after it. -/
theorem ClosedStep.isClosed (hP : P.CloseWaitSteady)
    (hstep : Guarded NothingReopens (ClosedStep P tcpTimeout) S l S')
    (hat : ClosedDuring P S x l) : S'.IsClosed x := by
  obtain ⟨hguard, hstep⟩ := hstep
  cases hstep with
  | @segment y s a w ret hs h =>
    by_cases hx : x = y
    · subst hx
      refine segment_isClosed hP hs h hguard ?_
      cases hat with
      | before _ hclosed =>
        obtain ⟨t, ht, hclosed⟩ := hclosed
        obtain rfl := Option.some.inj (hs.symm.trans ht)
        exact .inl hclosed
      | @segment t _ w' ret' ht h' hclosed =>
        obtain rfl := Option.some.inj (hs.symm.trans ht)
        rw [h] at h'
        cases h'
        exact .inr hclosed
    · -- another stream is served
      rw [Stack.isClosed_store_of_ne hx]
      cases hat with
      | before _ hclosed => exact hclosed
      | segment _ _ _ => exact absurd rfl hx
  | @created y a w ret hfree h =>
    by_cases hx : x = y
    · subst hx
      cases hat with
      | before _ hclosed =>
        -- the object was in no use before
        obtain ⟨t, ht, -⟩ := hclosed
        rw [hfree] at ht
        cases ht
      | created h' hclosed =>
        rw [h] at h'
        cases h'
        exact created_isClosed hP h hclosed
    · rw [Stack.isClosed_store_of_ne hx]
      cases hat with
      | before _ hclosed => exact hclosed
      | created _ _ => exact absurd rfl hx
  | @rto y s c ret hs h =>
    cases hat with
    | before _ hclosed =>
      by_cases hx : x = y
      · subst hx
        rw [Stack.isClosed_store rfl]
        obtain ⟨t, ht, hclosed⟩ := hclosed
        obtain rfl := Option.some.inj (hs.symm.trans ht)
        exact (handleRto_of_closed hclosed _).of_ok h
      · rwa [Stack.isClosed_store_of_ne hx]
  | timewait h =>
    cases hat with
    | before _ hclosed => exact (timewaitLoop_isClosed _ _ _ 0 S hclosed).of_ok h
  | timeout h =>
    cases hat with
    | before _ hclosed => exact (timeoutLoop_isClosed _ _ _ 0 S hclosed).of_ok h

end Runs

/-- **`CLOSED` is final.** Where no segment reopens its stream, a stream that is `CLOSED` at some moment
during a step is `CLOSED` after it, and after every run that follows. -/
theorem closed_is_final (P : Parts ρ) (hP : P.CloseWaitSteady) (tcpTimeout : ℤ)
    (S S' S'' : Stack ρ) (l : ClosedLabel ρ) (ls : List (ClosedLabel ρ)) (x : Addr)
    (hstep : Guarded NothingReopens (ClosedStep P tcpTimeout) S l S')
    (hat : ClosedDuring P S x l ∨ S'.IsClosed x)
    (hrun : Run (Guarded NothingReopens (ClosedStep P tcpTimeout)) S' ls S'') :
    S'.IsClosed x ∧ S''.IsClosed x := by
  have hclosed : S'.IsClosed x := hat.elim (ClosedStep.isClosed hP hstep) id
  have hlater : S''.IsClosed x := hrun.invariant (·.IsClosed x) hclosed
    fun _ l _ h hs => ClosedStep.isClosed hP hs (.before l h)
  exact ⟨hclosed, hlater⟩

/-- A stack with one stream at address `0`. -/
def stackOf (s : Stream (U32 × U32)) : Stack (U32 × U32) where
  tcp := default
  stream := fun x => if x = 0 then some s else none
  socket := fun _ => false

/-- An active open that was sent too often. -/
def tiredStream : Stream (U32 × U32) :=
  { activeStream with snd := { activeStream.snd with nrtx := 16 } }

/-- The stack after the timer gave up on it. -/
def tiredStack : Stack (U32 × U32) :=
  (stackOf tiredStream).store 0
    (((stackOf tiredStream).conn tiredStream).close .closed .connFail).streamDestroy.toWorld

/-- The SYN+ACK of the peer comes after the timer gave up. -/
theorem closed_is_final_late_synack :
    ∃ S : Stack (U32 × U32),
      Run (Guarded NothingReopens (ClosedStep inOrderParts 30)) tiredStack
        [.segment 0 (openSegment true true 7 101)] S ∧ tiredStack.IsClosed 0 ∧ S.IsClosed 0 := by
  have hrto : Guarded NothingReopens (ClosedStep inOrderParts 30) (stackOf tiredStream) (.rto 0)
      tiredStack := ⟨trivial, .rto rfl rfl⟩
  have hclosed : tiredStack.IsClosed 0 := ⟨_, rfl, rfl⟩
  have hguard : NothingReopens tiredStack (.segment 0 (openSegment true true 7 101)) := by
    intro _ _ s hs hr
    have hst : s.state = .closed := by
      obtain ⟨t, ht, hclosed⟩ := hclosed
      exact Option.some.inj (hs.symm.trans ht) ▸ hclosed
    cases hr with
    | synRcvd h _ _ _ _ _ _ _ _ => cases hst.symm.trans h
    | established h _ _ _ _ _ _ => cases hst.symm.trans h
    | finWait2 h _ _ _ _ _ _ => cases hst.symm.trans h
  have hrun : Run (Guarded NothingReopens (ClosedStep inOrderParts 30)) tiredStack
      [.segment 0 (openSegment true true 7 101)] _ := Run.single ⟨hguard, .segment rfl rfl⟩
  exact ⟨_, hrun, closed_is_final inOrderParts inOrderParts_steady 30 _ _ _ _ _ 0 hrto
    (.inr hclosed) hrun⟩

/-- One byte of old data with a FIN behind it, and no receive buffer. -/
def starvedFin : Arrival (U32 × U32) :=
  { openSegment false true 7 101 with
    seg := { (openSegment false true 7 101).seg with totLen := 41, fin := true }
    recvGet := fun _ => none }

/-- After an active open a starved FIN closes the stream, and then leaves it in `CLOSE_WAIT`. -/
theorem starved_fin_reopens :
    ∃ S S', Run (ClosedStep inOrderParts 30) (stackOf activeStream)
        [.segment 0 (openSegment true true 7 101)] S ∧
      ClosedStep inOrderParts 30 S (.segment 0 starvedFin) S' ∧
      ClosedDuring inOrderParts S 0 (.segment 0 starvedFin) ∧ ¬S'.IsClosed 0 := by
  refine ⟨_, _, Run.single (.segment rfl rfl), .segment rfl rfl, .segment rfl rfl ?_, ?_⟩
  · exact enteredClosed_iff.mpr rfl
  · rintro ⟨s, hs, hclosed⟩
    obtain rfl := Option.some.inj hs
    cases hclosed

end CmtTcp
