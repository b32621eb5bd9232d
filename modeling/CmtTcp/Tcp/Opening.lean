import CmtTcp.Tcp.Close

/-!
# Opening a connection

What a received segment does while a connection is opened, and that it opens nothing afterwards.

`OpenedAt` says what a stream that just became `ESTABLISHED` should look like. `listen_outcome`,
`synSent_outcome` and `synRcvd_outcome` say for each state of the handshake where a segment leads;
`past_outcome` covers the states after it.
-/

namespace CmtTcp

open Lib (Outcome)

variable {ρ : Type}

/-! ### After the handshake -/

/-- The states before `ESTABLISHED`, `CLOSED` aside. -/
def TcpState.Handshake (st : TcpState) : Prop := st = .listen ∨ st = .synSent ∨ st = .synRcvd

instance : DecidablePred TcpState.Handshake := fun st =>
  inferInstanceAs (Decidable (st = .listen ∨ st = .synSent ∨ st = .synRcvd))

/-- The handshake is over in `c'`, and `ESTABLISHED` was not entered since `c`. -/
structure Conn.Past (c c' : Conn ρ) : Prop where
  done : ¬c'.stream.state.Handshake
  opens_eq : opens c'.log = opens c.log

section Past

variable {P : Parts ρ} {c c' c'' : Conn ρ} {a : Arrival ρ}

theorem Conn.Past.of_steady (hdone : ¬c.stream.state.Handshake) (h : c.Steady c') : c.Past c' where
  done := by rwa [h.state]
  opens_eq := by rw [h.log]

theorem Conn.Past.after (h : c.Steady c') (h' : c'.Past c'') : c.Past c'' where
  done := h'.done
  opens_eq := by rw [h'.opens_eq, h.log]

theorem handleEstablished_past (hst : c.stream.state = .established) :
    Outcome (handleEstablished P c a) (fun _ => True) c.Past := by
  have hdone : ¬c.stream.state.Handshake := by rw [hst]; decide
  unfold handleEstablished
  refine Outcome.ite (fun _ => ?_) fun _ => ?_
  · refine .of_steady hdone (Conn.Steady.trans ?_ (addtoControllist_scheduled _).steady)
    exact ⟨rfl, rfl⟩
  · refine Outcome.bind (receivePayload_outcome P c a) fun c₁ hpay => ?_
    -- for want of a buffer the payload step closes the stream, which starts no handshake either
    have hdone₁ : ¬c₁.stream.state.Handshake := by
      rcases hpay.state with h | h
      · rwa [h]
      · rw [h.1]; decide
    have hack : Outcome (establishedAck c₁ a) (fun _ => True) c₁.Steady :=
      Outcome.ite (fun _ => receiveAck_outcome c₁ a) fun _ => .refl c₁
    refine Outcome.bind hack fun c₂ h₂ => ?_
    have hmove : CloseMove c c₂ a.seg false false :=
      (CloseMove.of_payload hpay).trans (.of_steady h₂)
    rw [Outcome.ok_iff]
    unfold establishedFin
    split
    · next hfin =>
      split
      · next hend =>
        -- the FIN of the peer leads to `CLOSE_WAIT`
        have hset := CloseMove.setState c₂ a.seg (by decide : TcpState.closeWait ≠ .established)
        have htake : CloseMove (c₂.setState .closeWait) ((c₂.setState .closeWait).takeFin a.seg) a.seg
            false true := .takeFin hfin hend
        have hctl := addtoControllist_scheduled ((c₂.setState .closeWait).takeFin a.seg)
        refine ⟨?_, ((hmove.trans (hset.trans htake)).scheduled hctl).opens_eq⟩
        rw [hctl.steady.state]
        exact (by decide : ¬TcpState.closeWait.Handshake)
      · have hnow := enqueueAcklist_scheduled c₂ .now
        refine ⟨?_, (hmove.scheduled hnow).opens_eq⟩
        rwa [hnow.steady.state, h₂.state]
    · exact ⟨by rwa [h₂.state], hmove.opens_eq⟩

/-- A reset in `ESTABLISHED` or `CLOSE_WAIT`. -/
theorem processRst_past (hst : c.stream.state = .established ∨ c.stream.state = .closeWait)
    (ackSeq : U32) : c.Past (processRst c ackSeq).1 := by
  have hpast : ¬c.stream.state.code ≤ TcpState.synSent.code ∧ c.stream.state ≠ .synRcvd ∧
      ¬(c.stream.state = .finWait1 ∨ c.stream.state = .finWait2 ∨ c.stream.state = .lastAck ∨
        c.stream.state = .closing ∨ c.stream.state = .timeWait) ∧
      ¬c.stream.state.Handshake := by
    rcases hst with h | h <;> rw [h] <;> decide
  unfold processRst
  dsimp only
  rw [if_neg hpast.1, if_neg hpast.2.1, if_neg hpast.2.2.1]
  split
  · refine ⟨(by decide : ¬TcpState.closeWait.Handshake), ?_⟩
    exact (CloseMove.setState c (default : Segment)
      (by decide : TcpState.closeWait ≠ .established)).opens_eq
  · exact .of_steady hpast.2.2.2 (.refl c)

/-- Once the handshake is over, a received segment neither starts it again nor enters `ESTABLISHED`. -/
theorem past_outcome (hP : P.CloseWaitSteady) (hdone : ¬c.stream.state.Handshake) :
    Outcome (processStream P c a) (fun _ => True) c.Past := by
  have hclosing : ∀ {p : Bool × Bool}, closePhase c.stream.state = some p →
      Outcome (processStream P c a) (fun _ => True) c.Past := by
    intro p hp
    refine (closing_outcome hp).mono (fun _ _ => trivial) fun c' h => ?_
    obtain ⟨acked, took, hmove, -, hst⟩ := h
    refine ⟨?_, hmove.opens_eq⟩
    rcases hst with hst | hst
    · rw [hst]; decide
    · rcases closePhase_cases hst with ⟨h, -⟩ | ⟨h, -⟩ | ⟨h, -⟩ | ⟨h, -⟩ <;> rw [h] <;> decide
  have hopen : c.stream.state = .established ∨ c.stream.state = .closeWait →
      Outcome (processStream P c a) (fun _ => True) c.Past := by
    intro hst
    refine processStream_outcome (fun c' h _ => .of_steady hdone h.steady) (fun c' h _ _ => ?_)
      fun c' h _ => ?_
    · exact .after h.steady (processRst_past (by rwa [h.steady.state]) _)
    · unfold dispatch
      have hst' := h.steady.state
      rcases hst with hst | hst
      · rw [hst', hst]
        exact (handleEstablished_past (hst'.trans hst)).mono (fun _ _ => trivial) fun _ hc =>
          .after h.steady hc
      · rw [hst', hst]
        exact (hP c' a).mono (fun _ _ => trivial) fun _ hc => .of_steady hdone (h.steady.trans hc)
  -- each state has its own handler; the phases of an active close share `closing_outcome`
  cases hst : c.stream.state with
  | closed =>
    exact (closed_outcome hst).mono (fun _ he => he.elim) fun _ hc => .of_steady hdone hc
  | listen => exact absurd (.inl hst) hdone
  | synSent => exact absurd (.inr (.inl hst)) hdone
  | synRcvd => exact absurd (.inr (.inr hst)) hdone
  | established => exact hopen (.inl hst)
  | closeWait => exact hopen (.inr hst)
  | lastAck =>
    refine (lastAck_outcome hst).mono (fun _ _ => trivial) fun c' h => ?_
    rcases h with h | ⟨hclosed, hmove, -⟩
    · exact .of_steady hdone h
    · exact ⟨by rw [hclosed]; decide, hmove.opens_eq⟩
  | finWait1 => exact hclosing (by rw [hst]; rfl)
  | closing => exact hclosing (by rw [hst]; rfl)
  | finWait2 => exact hclosing (by rw [hst]; rfl)
  | timeWait => exact hclosing (by rw [hst]; rfl)

end Past

/-! ### The handlers of the handshake -/

/-- A stream at the moment it enters `ESTABLISHED`: `irs` is the peer's, and both sequence spaces start one
past the initial numbers. -/
structure OpenedAt (irs : U32) (s : Stream ρ) : Prop where
  irs_eq : s.rcv.irs = irs
  rcvNxt : s.rcvNxt = s.rcv.irs + 1
  sndUna : s.snd.sndUna = s.snd.iss + 1
  sndNxt : s.sndNxt = s.snd.iss + 1

/-- `ESTABLISHED` was entered once since `c`, and the handshake is over. If `c` was as `ready` says, the
stream entered it as it should. -/
def Conn.Opens (c c' : Conn ρ) (ready : Prop) (irs : U32) : Prop :=
  ¬c'.stream.state.Handshake ∧
    ∃ s, opens c'.log = opens c.log ++ [s] ∧ (ready → OpenedAt irs s)

section OpenHandlers

variable {P : Parts ρ} {c c' : Conn ρ} {a : Arrival ρ}

/-- Scheduling and the assignment to `state` leave the numbers in place. -/
theorem Conn.Scheduled.openedAt {irs : U32} (hs : c.Scheduled c') (h : OpenedAt irs c.stream) :
    OpenedAt irs { c'.stream with state := .established } where
  irs_eq := hs.steady.irs.trans h.irs_eq
  rcvNxt := by
    change c'.stream.rcvNxt = c'.stream.rcv.irs + 1
    rw [hs.steady.rcvNxt, hs.steady.irs]
    exact h.rcvNxt
  sndUna := by
    change c'.stream.snd.sndUna = c'.stream.snd.iss + 1
    rw [hs.sndUna, hs.steady.iss]
    exact h.sndUna
  sndNxt := by
    change c'.stream.sndNxt = c'.stream.snd.iss + 1
    rw [hs.sndNxt, hs.steady.iss]
    exact h.sndNxt

theorem opens_setState_established (c : Conn ρ) :
    opens (c.setState .established).log =
      opens c.log ++ [{ c.stream with state := .established }] :=
  opens_snoc _ _

theorem opens_setState_of_ne (c : Conn ρ) {st : TcpState} (h : st ≠ .established) :
    opens (c.setState st).log = opens c.log :=
  (CloseMove.setState c (default : Segment) h).opens_eq

theorem opens_streamDestroy (c : Conn ρ) : opens c.streamDestroy.log = opens c.log :=
  (opens_snoc _ _).trans (List.append_nil _)

/-- `add_to_timeout_list` at the end of a handshake. -/
theorem timeout_opens {c₁ : Conn ρ} {ready : Prop} {irs : U32} (h : c.Opens c₁ ready irs) :
    Outcome (addToTimeoutList c₁) (fun _ => True)
      fun c' => c.Opens c' ready irs ∧ c'.stream.state = c₁.stream.state := by
  refine (addToTimeoutList_outcome c₁).mono (fun _ _ => trivial) fun c' hc => ?_
  have hst : c'.stream.state = c₁.stream.state := by rw [hc.1]
  obtain ⟨hdone, s, hopens, hs⟩ := h
  exact ⟨⟨by rwa [hst], s, by rw [hc.2, hopens], hs⟩, hst⟩

theorem activeOpen_outcome (c : Conn ρ) (a : Arrival ρ) :
    Outcome (activeOpen c a) (fun _ => True) fun c' =>
      c'.stream.session =
        { c.stream.session with rcvNxt := a.seg.seq + 1, irs := a.seg.seq } ∧
      c'.stream.snd.sndUna = c.stream.snd.sndUna ∧ c'.stream.sndNxt = a.seg.ackSeq ∧
      c'.log = c.log := by
  unfold activeOpen
  dsimp only
  refine Outcome.bind ((parseOptions_outcome _ a.ts a.seg).mono (fun _ _ => trivial) fun _ h => h)
    fun c₁ h₁ => ?_
  refine (updateRetransmissionTimer_outcome _ a.ts).mono (fun _ _ => trivial) fun c₂ h₂ => ?_
  -- the options and the timer touch none of the numbers
  refine ⟨?_, ?_, ?_, h₂.log.trans h₁.2⟩
  · rw [h₂.steady.session]
    exact h₁.1.session
  · rw [h₂.sndUna]
    exact h₁.1.sndUna
  · rw [h₂.sndNxt]
    exact h₁.1.sndNxt

/-- An active open goes through when the options end and the retransmission timeout is set. -/
theorem activeOpen_ok_iff :
    (∃ c', activeOpen c a = .ok c') ↔ optionsEnd a.seg ∧ c.stream.snd.rto > 0 := by
  unfold activeOpen
  dsimp only
  generalize hc₀ : (c.mod fun s =>
    { s with
      sndNxt := a.seg.ackSeq
      rcvNxt := a.seg.seq + 1
      snd := { s.snd with peerWnd := a.seg.window.setWidth 32 }
      rcv := { s.rcv with
        irs := a.seg.seq, sndWl1 := a.seg.seq - 1, lastAckSeq := a.seg.ackSeq } }) = c₀
  have hrto₀ : c₀.stream.snd.rto = c.stream.snd.rto := by rw [← hc₀]; rfl
  rw [← @parseOptions_ok_iff _ c₀ a.ts a.seg]
  -- the two ways to fail come one after the other
  cases hp : parseOptions c₀ a.ts a.seg with
  | error e =>
    refine iff_of_false ?_ ?_
    · rintro ⟨c', h⟩
      cases h
    · rintro ⟨⟨c', h⟩, -⟩
      cases h
  | ok c₁ =>
    have hrto₁ : c₁.stream.snd.rto = c.stream.snd.rto :=
      ((parseOptions_outcome c₀ a.ts a.seg).of_ok hp).1.rto.trans hrto₀
    have hend : (∃ c', (Except.ok c₁ : Except Abort (Conn ρ)) = .ok c') := ⟨c₁, rfl⟩
    simp only [hend, true_and]
    change (∃ c', updateRetransmissionTimer (c₁.modSnd fun snd =>
      { snd with cwnd := openCwnd snd, ssthresh := snd.mss.setWidth 32 * 10 }) a.ts = .ok c') ↔ _
    rw [← hrto₁]
    exact updateRetransmissionTimer_ok_iff

/-- The SYN+ACK of the peer in `SYN_SENT`. -/
theorem synSentOpen_outcome (c : Conn ρ) (a : Arrival ρ) :
    Outcome (synSentOpen c a) (fun _ => True) fun c' => c.Opens c'
      (a.seg.ackSeq = c.stream.snd.iss + 1 ∧ c.stream.snd.sndUna = c.stream.snd.iss + 1)
      a.seg.seq := by
  unfold synSentOpen
  refine Outcome.bind (activeOpen_outcome c a) fun c₁ h₁ => ?_
  obtain ⟨hses, huna₁, hnxt₁, hlog₁⟩ := h₁
  have hirs₁ : c₁.stream.rcv.irs = a.seg.seq := congrArg Session.irs hses
  have hiss₁ : c₁.stream.snd.iss = c.stream.snd.iss := congrArg Session.iss hses
  dsimp only
  -- the stream right before the assignment to `state`
  have hout := removeFromRtoList_scheduled ((c₁.modSnd fun snd => { snd with nrtx := 0 }).mod
    fun s => { s with rcvNxt := s.rcv.irs + 1 })
  generalize removeFromRtoList ((c₁.modSnd fun snd => { snd with nrtx := 0 }).mod
    fun s => { s with rcvNxt := s.rcv.irs + 1 }) = c₂ at hout
  have hopened : a.seg.ackSeq = c.stream.snd.iss + 1 ∧
      c.stream.snd.sndUna = c.stream.snd.iss + 1 →
      OpenedAt a.seg.seq { c₂.stream with state := .established } := by
    rintro ⟨hack, huna⟩
    rw [← hiss₁] at hack huna
    refine hout.openedAt ⟨hirs₁, rfl, ?_, ?_⟩
    · exact huna₁.trans huna
    · exact hnxt₁.trans hack
  have hopens : opens (c₂.setState .established).log =
      opens c.log ++ [{ c₂.stream with state := .established }] := by
    rw [opens_setState_established, hout.log]
    change opens c₁.log ++ _ = _
    rw [hlog₁]
  generalize hc₃ : c₂.setState .established = c₃ at hopens
  have hdone : ¬c₃.stream.state.Handshake := by rw [← hc₃]; exact (by decide : ¬TcpState.established.Handshake)
  -- a stream without a socket is destroyed here, and goes on
  by_cases hsock : c₃.stream.s
  · rw [if_pos hsock]
    have hctl := addtoControllist_scheduled c₃
    refine (timeout_opens ⟨?_, _, ?_, hopened⟩).mono (fun _ _ => trivial) fun _ h => h.1
    · rwa [hctl.steady.state]
    · rw [hctl.log, hopens]
  · rw [if_neg hsock]
    have hctl := addtoControllist_scheduled
      (c₃.mod fun s => { s with closeReason := .activeClose }).streamDestroy
    refine (timeout_opens ⟨?_, _, ?_, hopened⟩).mono (fun _ _ => trivial) fun _ h => h.1
    · rw [hctl.steady.state]
      exact hdone
    · rw [hctl.log, opens_streamDestroy]
      exact hopens

/-- The acknowledgement of our SYN in `SYN_RCVD`. -/
theorem synRcvdOpen_outcome (hack : a.seg.ackSeq = c.stream.snd.iss + 1) :
    Outcome (synRcvdOpen c a) (fun _ => True)
      fun c' => c.Opens c' (c.stream.snd.sndUna = c.stream.snd.iss) c.stream.rcv.irs ∧
        (c'.stream.state = .established ∨ c'.stream.state = .closed) := by
  rw [synRcvdOpen_eq]
  have hout := removeFromRtoList_scheduled (c.synRcvdAcked a)
  generalize removeFromRtoList (c.synRcvdAcked a) = c₂ at hout ⊢
  have hopened : c.stream.snd.sndUna = c.stream.snd.iss →
      OpenedAt c.stream.rcv.irs { c₂.stream with state := .established } := by
    intro huna
    refine hout.openedAt ⟨rfl, rfl, ?_, hack⟩
    change c.stream.snd.sndUna + 1 = c.stream.snd.iss + 1
    rw [huna]
  have hopens : opens (c₂.setState .established).log =
      opens c.log ++ [{ c₂.stream with state := .established }] := by
    rw [opens_setState_established, hout.log]
    rfl
  have hst : (c₂.setState .established).stream.state = .established := rfl
  generalize c₂.setState .established = c₃ at hopens hst
  cases a.listener with
  | none => exact trivial
  | some listener =>
    dsimp only
    refine Outcome.ite (fun _ => ?_) fun _ => ?_
    · -- the accept queue is full
      have hctl := addtoControllist_scheduled
        ((c₃.mod fun s => { s with closeReason := .notAccepted }).setState .closed)
      have hclosed := hctl.steady.state
      refine (timeout_opens ⟨?_, _, ?_, hopened⟩).mono (fun _ _ => trivial) fun _ h =>
        ⟨h.1, .inr (h.2.trans hclosed)⟩
      · rw [hclosed]
        exact (by decide : ¬TcpState.closed.Handshake)
      · rw [hctl.log, opens_setState_of_ne _ (by decide)]
        exact hopens
    · refine (timeout_opens ⟨by rw [hst]; decide, _, hopens, hopened⟩).mono
        (fun _ _ => trivial) fun _ h => ⟨h.1, .inl (h.2.trans hst)⟩

/-- `cmt_tcp_handle_listen` for a SYN moves to `SYN_RCVD` and changes neither initial number. -/
theorem handleListen_outcome (hsyn : a.seg.syn) :
    Outcome (handleListen c a) (fun _ => False) fun c' =>
      c'.stream.state = .synRcvd ∧ c'.stream.rcv.irs = c.stream.rcv.irs ∧
      c'.stream.snd.iss = c.stream.snd.iss ∧ c'.stream.snd.sndUna = c.stream.snd.sndUna ∧
      opens c'.log = opens c.log := by
  unfold handleListen
  rw [if_pos hsyn, Outcome.ok_iff]
  -- `rcv_nxt` is advanced in `LISTEN` only, not for a SYN that comes again
  by_cases hst : c.stream.state = .listen
  · rw [if_pos hst]
    have hctl := addtoControllist_scheduled
      ((c.mod fun s => { s with rcvNxt := s.rcvNxt + 1 }).setState .synRcvd)
    refine ⟨hctl.steady.state, hctl.steady.irs, hctl.steady.iss, hctl.sndUna, ?_⟩
    rw [hctl.log, opens_setState_of_ne _ (by decide)]
    rfl
  · rw [if_neg hst]
    have hctl := addtoControllist_scheduled (c.setState .synRcvd)
    refine ⟨hctl.steady.state, hctl.steady.irs, hctl.steady.iss, hctl.sndUna, ?_⟩
    rw [hctl.log, opens_setState_of_ne _ (by decide)]

/-- The stream waits in `SYN_RCVD`, with the initial numbers it had. -/
structure Conn.Waits (c c' : Conn ρ) : Prop where
  state : c'.stream.state = .synRcvd
  irs : c'.stream.rcv.irs = c.stream.rcv.irs
  iss : c'.stream.snd.iss = c.stream.snd.iss
  opens_eq : opens c'.log = opens c.log

/-- A segment in `SYN_RCVD`, but for resets. -/
theorem handleSynRcvdData_outcome (hst : c.stream.state = .synRcvd) :
    Outcome (handleSynRcvdData P c a) (fun _ => True) fun c' =>
      (c.Waits c' ∧ c'.stream.snd.sndUna = c.stream.snd.sndUna) ∨
        c.Opens c' (c.stream.snd.sndUna = c.stream.snd.iss) c.stream.rcv.irs := by
  unfold handleSynRcvdData
  refine Outcome.ite (fun hdup => ?_) fun _ => ?_
  · -- the SYN of the peer once more
    refine (handleListen_outcome hdup.1).mono (fun _ he => he.elim) fun c' h => ?_
    exact .inl ⟨⟨h.1, h.2.1, h.2.2.1, h.2.2.2.2⟩, h.2.2.2.1⟩
  · have hack : Outcome (handleSynRcvd c a) (fun _ => True) fun c' =>
        (c.Waits c' ∧ c'.stream.snd.sndUna = c.stream.snd.sndUna) ∨
          (c.Opens c' (c.stream.snd.sndUna = c.stream.snd.iss) c.stream.rcv.irs ∧
            (c'.stream.state = .established ∨ c'.stream.state = .closed)) := by
      unfold handleSynRcvd
      refine Outcome.ite (fun _ => Outcome.ite (fun _ => trivial) fun heq => ?_) fun _ => ?_
      · exact (synRcvdOpen_outcome (not_not.mp heq)).mono (fun _ _ => trivial) fun c' h => .inr h
      · have hctl := addtoControllist_scheduled (c.mod fun s => { s with sndNxt := s.snd.iss })
        -- without an acknowledgement our SYN is sent again
        refine .inl ⟨⟨hctl.steady.state.trans hst, hctl.steady.irs, hctl.steady.iss, ?_⟩, hctl.sndUna⟩
        rw [hctl.log]
        rfl
    refine Outcome.bind hack fun c₁ h₁ => Outcome.ite (fun hdata => ?_) fun _ => ?_
    · -- data with the acknowledgement is handled at once
      refine (handleEstablished_past hdata.2).mono (fun _ _ => trivial) fun c' h => ?_
      rcases h₁ with ⟨hw, -⟩ | ⟨⟨-, s, hs, hopened⟩, -⟩
      · rw [hw.state] at hdata
        cases hdata.2
      · exact .inr ⟨h.done, s, h.opens_eq.trans hs, hopened⟩
    · rcases h₁ with hw | ho
      · exact .inl hw
      · exact .inr ho.1

/-- A segment in `SYN_SENT`: it is ignored, it resets the connection, it opens it, or the stream goes over
to `SYN_RCVD` as if the segment were the SYN of the peer. -/
theorem handleSynSent_outcome (c : Conn ρ) (a : Arrival ρ) :
    Outcome (handleSynSent c a) (fun _ => True) fun c' =>
      c' = c ∨ c.Past c' ∨
        (a.seg.syn ∧ a.seg.ack ∧ ¬synSentRefuses c.stream a.seg ∧
          c.Opens c' (a.seg.ackSeq = c.stream.snd.iss + 1 ∧ c.stream.snd.sndUna = c.stream.snd.iss)
            a.seg.seq) ∨
        (¬synSentRefuses c.stream a.seg ∧ ¬(a.seg.rst ∧ a.seg.ack) ∧ ¬(a.seg.syn ∧ a.seg.ack) ∧
          c.Waits c' ∧ (¬a.seg.ack → c'.stream.snd.sndUna = c.stream.snd.sndUna)) := by
  unfold handleSynSent
  dsimp only
  refine Outcome.ite (fun _ => .inl rfl) fun href => ?_
  -- `snd_una` has counted our SYN if there was an acknowledgement
  generalize hc₁ : (if a.seg.ack then c.modSnd fun snd => { snd with sndUna := snd.sndUna + 1 }
    else c) = c₁
  have hsteady : c.Steady c₁ := by
    rw [← hc₁]
    split
    · exact ⟨rfl, rfl⟩
    · exact .refl c
  refine Outcome.ite (fun hrst => ?_) fun hnrst => Outcome.ite (fun hsa => ?_) fun hnsa => ?_
  · -- the peer refuses the connection
    have hclosed : ¬TcpState.closeWait.Handshake := by decide
    have hopens : opens (c₁.close .closeWait .reset).log = opens c.log :=
      (opens_setState_of_ne c₁ (by decide)).trans (by rw [hsteady.log])
    refine .inr (.inl ?_)
    split
    · exact ⟨hclosed, hopens⟩
    · exact ⟨hclosed, (opens_streamDestroy _).trans hopens⟩
  · -- the SYN+ACK of a regular open
    refine (synSentOpen_outcome c₁ a).mono (fun _ _ => trivial) fun c' h => ?_
    obtain ⟨hdone, s, hs, hopened⟩ := h
    refine .inr (.inr (.inl ⟨hsa.1, hsa.2, href, hdone, s, ?_, fun hready => hopened ?_⟩))
    · rw [hs, hsteady.log]
    · rw [hsteady.iss]
      refine ⟨hready.1, ?_⟩
      rw [← hready.2, ← hc₁, if_pos hsa.2]
      rfl
  · have hctl := addtoControllist_scheduled
      ((c₁.setState .synRcvd).mod fun s => { s with sndNxt := s.snd.iss })
    refine .inr (.inr (.inr ⟨href, hnrst, hnsa, ⟨hctl.steady.state, ?_, ?_, ?_⟩, fun hack => ?_⟩))
    · exact hctl.steady.irs.trans hsteady.irs
    · exact hctl.steady.iss.trans hsteady.iss
    · rw [hctl.log]
      exact (opens_setState_of_ne c₁ (by decide)).trans (by rw [hsteady.log])
    · rw [hctl.sndUna, ← hc₁, if_neg hack]
      rfl

end OpenHandlers

/-! ### A call of `cmt_tcp_process` during the handshake -/

section OpenCalls

variable {P : Parts ρ} {c c₁ c' : Conn ρ} {a : Arrival ρ}

theorem Conn.Waits.of_steady (hst : c.stream.state = .synRcvd) (h : c.Steady c') : c.Waits c' :=
  ⟨h.state.trans hst, h.irs, h.iss, by rw [h.log]⟩

theorem Conn.Waits.after (h : c.Steady c₁) (h' : c₁.Waits c') : c.Waits c' :=
  ⟨h'.state, h'.irs.trans h.irs, h'.iss.trans h.iss, h'.opens_eq.trans (by rw [h.log])⟩

theorem Conn.Opens.after {ready ready' : Prop} {irs : U32} (h : c.Steady c₁)
    (h' : c₁.Opens c' ready irs) (hr : ready' → ready) : c.Opens c' ready' irs := by
  obtain ⟨hdone, s, hs, hopened⟩ := h'
  exact ⟨hdone, s, by rw [hs, h.log], fun hready => hopened (hr hready)⟩

theorem synRefuses_same (h : c.Same c₁) (seg : Segment) :
    synSentRefuses c₁.stream seg = synSentRefuses c.stream seg := by
  unfold synSentRefuses
  rw [h.steady.iss, h.sndNxt]

/-- A received segment in `SYN_RCVD`. -/
theorem synRcvd_outcome (hst : c.stream.state = .synRcvd) :
    Outcome (processStream P c a) (fun _ => True) fun c' =>
      (c.Waits c' ∧ c'.stream.snd.sndUna = c.stream.snd.sndUna) ∨ c.Past c' ∨
        c.Opens c' (c.stream.snd.sndUna = c.stream.snd.iss) c.stream.rcv.irs := by
  refine processStream_outcome (fun c₁ _ hcode => ?_) (fun c₁ h _ _ => ?_) fun c₁ h _ => ?_
  · rw [hst] at hcode
    exact absurd hcode (by decide)
  · have hst₁ := h.steady.state.trans hst
    -- a reset is believed if it acknowledges `snd_nxt`, and ends the processing in any case
    have hsr : processRst c₁ a.seg.ackSeq =
        (if a.seg.ackSeq = c₁.stream.sndNxt then (c₁.close .closed .reset).streamDestroy else c₁,
          true) := by
      unfold processRst
      dsimp only
      rw [hst₁, if_neg (by decide), if_pos rfl]
    rw [hsr]
    dsimp only
    split
    · refine .inr (.inl (.after h.steady ⟨(by decide : ¬TcpState.closed.Handshake), ?_⟩))
      exact (opens_streamDestroy _).trans (opens_setState_of_ne c₁ (by decide))
    · exact .inl ⟨.of_steady hst h.steady, h.sndUna⟩
  · unfold dispatch
    rw [h.steady.state, hst]
    refine (handleSynRcvdData_outcome (h.steady.state.trans hst)).mono (fun _ _ => trivial)
      fun c' hc => ?_
    rcases hc with ⟨hw, huna⟩ | ho
    · exact .inl ⟨.after h.steady hw, huna.trans h.sndUna⟩
    · rw [h.steady.irs] at ho
      refine .inr (.inr (ho.after h.steady fun hready => ?_))
      rw [h.sndUna, h.steady.iss]
      exact hready

/-- A received segment in `SYN_SENT`. -/
theorem synSent_outcome (hst : c.stream.state = .synSent) :
    Outcome (processStream P c a) (fun _ => True) fun c' =>
      c.Same c' ∨ c.Past c' ∨
        (a.seg.syn ∧ a.seg.ack ∧ ¬synSentRefuses c.stream a.seg ∧
          c.Opens c' (a.seg.ackSeq = c.stream.snd.iss + 1 ∧ c.stream.snd.sndUna = c.stream.snd.iss)
            a.seg.seq) ∨
        (¬synSentRefuses c.stream a.seg ∧ ¬(a.seg.rst ∧ a.seg.ack) ∧ ¬(a.seg.syn ∧ a.seg.ack) ∧
          c.Waits c' ∧ (¬a.seg.ack → c'.stream.snd.sndUna = c.stream.snd.sndUna)) := by
  refine processStream_outcome (fun c₁ _ hcode => ?_) (fun c₁ _ _ hcode => ?_) fun c₁ h _ => ?_
  -- neither the sequence number nor a reset is looked at before the handler
  · rw [hst] at hcode
    exact absurd hcode (by decide)
  · rw [hst] at hcode
    exact absurd hcode (by decide)
  · unfold dispatch
    rw [h.steady.state, hst]
    refine (handleSynSent_outcome c₁ a).mono (fun _ _ => trivial) fun c' hc => ?_
    rw [synRefuses_same h] at hc
    rcases hc with rfl | hp | ⟨hsyn, hack, href, ho⟩ | ⟨href, hra, hsa, hw, huna⟩
    · exact .inl h
    · exact .inr (.inl (.after h.steady hp))
    · refine .inr (.inr (.inl ⟨hsyn, hack, href, ho.after h.steady fun hready => ?_⟩))
      rw [h.sndUna, h.steady.iss]
      exact hready
    · exact .inr (.inr (.inr ⟨href, hra, hsa, .after h.steady hw, fun hna =>
        (huna hna).trans h.sndUna⟩))

/-- The SYN that a stream was made for takes it from `LISTEN` to `SYN_RCVD`. -/
theorem listen_outcome (hst : c.stream.state = .listen) (hsyn : a.seg.syn) :
    Outcome (processStream P c a) (fun _ => False) fun c' =>
      c.Waits c' ∧ c'.stream.snd.sndUna = c.stream.snd.sndUna := by
  refine processStream_outcome (fun c₁ _ hcode => ?_) (fun c₁ _ _ hcode => ?_) fun c₁ h _ => ?_
  · rw [hst] at hcode
    exact absurd hcode (by decide)
  · rw [hst] at hcode
    exact absurd hcode (by decide)
  · unfold dispatch
    rw [h.steady.state, hst]
    refine (handleListen_outcome hsyn).mono (fun _ he => he) fun c' hc => ?_
    have hw : c₁.Waits c' := ⟨hc.1, hc.2.1, hc.2.2.1, hc.2.2.2.2⟩
    exact ⟨.after h.steady hw, hc.2.2.2.1.trans h.sndUna⟩

/-- What `cmt_create_stream` makes for a SYN: a stream in `LISTEN` with the number of the SYN, or one that
is closed at once for want of memory. -/
theorem createStream_outcome (tcp : TcpManager) (log : List (Event ρ)) (a : Arrival ρ) :
    Outcome (createStream tcp log a) (· = .endless) fun r => ∀ c, r = some c →
      a.seg.syn ∧ (c.stream.state = .listen ∨ c.stream.state = .closed) ∧
        c.stream.rcv.irs = a.seg.seq ∧ c.stream.snd.sndUna = c.stream.snd.iss ∧
        opens c.log = opens log := by
  unfold createStream
  refine Outcome.ite (fun hsyn => Outcome.ite (fun _ => ?_) fun _ c h => by cases h)
    fun _ c h => by cases h
  unfold passiveOpen
  cases hs : createTcpStream a a.seg.daddr a.seg.dest a.seg.saddr a.seg.source with
  | none => exact fun c h => by cases h
  | some s =>
    have hnew := createTcpStream_new hs
    have hlog : opens (log ++ [.entered s]) = opens log := by
      rw [opens_snoc, Event.opened, hnew.1]
      exact List.append_nil _
    dsimp only
    generalize hc₁ : (if (a.recvGet ((passiveInit s a.seg).rcv.irs + 1)).isNone then _ else _) = c₁
    -- without a receive buffer the new stream is closed, and handed out all the same
    have hopened : (c₁.stream.state = .listen ∨ c₁.stream.state = .closed) ∧
        c₁.stream.rcv.irs = a.seg.seq ∧ c₁.stream.snd.sndUna = c₁.stream.snd.iss ∧
        opens c₁.log = opens log := by
      rw [← hc₁]
      split
      · exact ⟨.inr rfl, rfl, hnew.2, (opens_setState_of_ne _ (by decide)).trans hlog⟩
      · exact ⟨.inl hnew.1, rfl, hnew.2, hlog⟩
    refine Outcome.bind (parseOptions_outcome c₁ a.ts a.seg) fun c₂ h₂ c h => ?_
    cases h
    have hses := h₂.1.session
    refine ⟨hsyn.1, ?_, ?_, ?_, ?_⟩
    · have hst : c₂.stream.state = c₁.stream.state := congrArg Session.state hses
      rw [hst]
      exact hopened.1
    · exact (congrArg Session.irs hses).trans hopened.2.1
    · have hiss : c₂.stream.snd.iss = c₁.stream.snd.iss := congrArg Session.iss hses
      rw [h₂.1.sndUna, hiss]
      exact hopened.2.2.1
    · rw [h₂.2]
      exact hopened.2.2.2

end OpenCalls

end CmtTcp
