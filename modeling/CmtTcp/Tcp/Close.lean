import CmtTcp.Tcp.Process

/-!
# The closing handshake

An endpoint that closes first waits for two things: the acknowledgement of its FIN, and the FIN of the
peer. `closePhase` reads off a state which of the two it has seen. A received segment can bring either,
both or none (`CloseResult`), and none of them twice: `handleFinWait1_outcome`, `handleFinWait2_outcome` and
`handleClosing_outcome` for the handlers, `closing_outcome` for a call of `cmt_tcp_process`.

Over a run, `TIME_WAIT` therefore means that both were seen, and the FIN of the peer exactly once
(`CloseInv`, `close_handshake`). `handleLastAck_outcome` is the other side.
-/

namespace CmtTcp

open Lib (Outcome Run)

variable {ρ : Type}

/-! ### The two events -/

/-- Whether our FIN is acknowledged, and whether the FIN of the peer is counted, in the states of an
active close. -/
def closePhase : TcpState → Option (Bool × Bool)
  | .finWait1 => some (false, false)
  | .closing => some (false, true)
  | .finWait2 => some (true, false)
  | .timeWait => some (true, true)
  | _ => none

theorem closePhase_cases {st : TcpState} {p : Bool × Bool} (h : closePhase st = some p) :
    (st = .finWait1 ∧ p = (false, false)) ∨ (st = .closing ∧ p = (false, true)) ∨
      (st = .finWait2 ∧ p = (true, false)) ∨ (st = .timeWait ∧ p = (true, true)) := by
  cases st <;> cases h <;> simp

/-- The segment acknowledges the FIN the stream has sent. -/
def AcksFin (s : Stream ρ) (seg : Segment) : Prop :=
  seg.ack ∧ s.snd.isFinSent ∧ seg.ackSeq = s.snd.fss + 1

/-- From `c` to `c'` the two events happened as `acked` and `took` say, and what they are about is
unchanged. -/
structure CloseMove (c c' : Conn ρ) (seg : Segment) (acked took : Bool) : Prop where
  fss : c'.stream.snd.fss = c.stream.snd.fss
  isFinSent : c'.stream.snd.isFinSent = c.stream.snd.isFinSent
  opens_eq : opens c'.log = opens c.log
  fins_eq : fins c'.log = fins c.log ++ if took then [(seg, seg.seqEnd, seg.seqEnd + 1)] else []
  acks : acked → AcksFin c.stream seg
  fin : took → seg.fin

/-- What a segment does to a stream whose phase is `p`. -/
def CloseResult (c c' : Conn ρ) (seg : Segment) (p : Bool × Bool) : Prop :=
  ∃ acked took, CloseMove c c' seg acked took ∧ (took → p.2 = false) ∧
    (c'.stream.state = .closed ∨ closePhase c'.stream.state = some (p.1 || acked, p.2 || took))

section Moves

variable {c c₁ c' : Conn ρ} {seg : Segment} {acked acked' took : Bool} {p : Bool × Bool}

theorem CloseMove.of_steady (h : c.Steady c') : CloseMove c c' seg false false where
  fss := h.fss
  isFinSent := h.isFinSent
  opens_eq := by rw [h.log]
  fins_eq := by rw [h.log]; exact (List.append_nil _).symm
  acks := fun h => by cases h
  fin := fun h => by cases h

theorem CloseMove.of_payload (h : PayloadStep c c' seg) : CloseMove c c' seg false false where
  fss := h.fss
  isFinSent := h.isFinSent
  opens_eq := h.opens_eq
  fins_eq := h.fins_eq.trans (List.append_nil _).symm
  acks := fun h => by cases h
  fin := fun h => by cases h

/-- The FIN of the peer is counted last. -/
theorem CloseMove.trans (h : CloseMove c c₁ seg acked false)
    (h' : CloseMove c₁ c' seg acked' took) : CloseMove c c' seg (acked || acked') took where
  fss := h'.fss.trans h.fss
  isFinSent := h'.isFinSent.trans h.isFinSent
  opens_eq := h'.opens_eq.trans h.opens_eq
  fins_eq := by
    have hnone : fins c₁.log = fins c.log := h.fins_eq.trans (List.append_nil _)
    rw [h'.fins_eq, hnone]
  acks := by
    intro hor
    -- the acknowledgement came in one of the two moves; the number of the FIN is the same in both
    rcases Bool.or_eq_true_iff.mp hor with ha | ha
    · exact h.acks ha
    · obtain ⟨hack, hsent, hseq⟩ := h'.acks ha
      rw [h.isFinSent] at hsent
      rw [h.fss] at hseq
      exact ⟨hack, hsent, hseq⟩
  fin := h'.fin

theorem CloseMove.scheduled (h : CloseMove c c₁ seg acked took) (hs : c₁.Scheduled c') :
    CloseMove c c' seg acked took where
  fss := hs.steady.fss.trans h.fss
  isFinSent := hs.steady.isFinSent.trans h.isFinSent
  opens_eq := by rw [hs.log, h.opens_eq]
  fins_eq := by rw [hs.log, h.fins_eq]
  acks := h.acks
  fin := h.fin

/-- Assigning a state other than `ESTABLISHED`. -/
theorem CloseMove.setState (c : Conn ρ) (seg : Segment) {st : TcpState} (hst : st ≠ .established) :
    CloseMove c (c.setState st) seg false false where
  fss := rfl
  isFinSent := rfl
  opens_eq := by
    change opens (c.log ++ [.entered { c.stream with state := st }]) = opens c.log
    rw [opens_snoc, Event.opened]
    simp only [hst, if_false, Option.toList_none, List.append_nil]
  fins_eq := fins_snoc _ _
  acks := fun h => by cases h
  fin := fun h => by cases h

/-- Closing for whatever reason is an assignment of the state. -/
theorem CloseMove.close (c : Conn ρ) (seg : Segment) (why : CloseReason) :
    CloseMove c (c.close .closed why) seg false false :=
  have h := CloseMove.setState c seg (by decide : TcpState.closed ≠ .established)
  { fss := h.fss
    isFinSent := h.isFinSent
    opens_eq := h.opens_eq
    fins_eq := h.fins_eq
    acks := h.acks
    fin := h.fin }

theorem CloseMove.streamDestroy (h : CloseMove c c₁ seg acked took) :
    CloseMove c c₁.streamDestroy seg acked took where
  fss := h.fss
  isFinSent := h.isFinSent
  opens_eq := (opens_snoc _ _).trans ((List.append_nil _).trans h.opens_eq)
  fins_eq := (fins_snoc _ _).trans ((List.append_nil _).trans h.fins_eq)
  acks := h.acks
  fin := h.fin

/-- Counting the FIN of a segment that ends at `rcv_nxt`. -/
theorem CloseMove.takeFin (hfin : seg.fin) (hend : seg.seqEnd = c.stream.rcvNxt) :
    CloseMove c (c.takeFin seg) seg false true where
  fss := rfl
  isFinSent := rfl
  opens_eq := (opens_snoc _ _).trans (List.append_nil _)
  fins_eq := by
    change fins (c.log ++ [.finTaken seg c.stream.rcvNxt (c.stream.rcvNxt + 1)]) = _
    rw [fins_snoc, hend]
    rfl
  acks := fun h => by cases h
  fin := fun _ => hfin

theorem CloseResult.of_steady (h : c.Steady c') (hp : closePhase c.stream.state = some p) :
    CloseResult c c' seg p :=
  ⟨false, false, .of_steady h, fun h => (by cases h), .inr (by
    rw [h.state, hp, Bool.or_false, Bool.or_false])⟩

theorem CloseResult.after (h : c.Steady c₁) (h' : CloseResult c₁ c' seg p) :
    CloseResult c c' seg p := by
  obtain ⟨acked, took, hmove, htook, hst⟩ := h'
  exact ⟨acked, took, (CloseMove.of_steady h).trans hmove, htook, hst⟩

end Moves

/-! ### The handlers -/

section CloseHandlers

variable {P : Parts ρ} {c : Conn ρ} {a : Arrival ρ}

/-- A segment in front of `rcv_nxt` that has data does not end at `rcv_nxt`. -/
theorem seqEnd_ne_of_not_lt {seg : Segment} {nxt : U32} (hge : ¬tcpSeqLt seg.seq nxt)
    (hpos : 0 < seg.payloadlen) : seg.seqEnd ≠ nxt := by
  have hge' := mt tcpSeqLt_iff.mpr hge
  obtain ⟨n, hn⟩ := Int.eq_ofNat_of_zero_le hpos.le
  -- the payload is shorter than half the circle
  have hsmall : n < 2 ^ 16 := by
    have htot := seg.totLen.isLt
    unfold Segment.payloadlen at hn
    omega
  have hoff : BitVec.ofInt 32 seg.payloadlen = BitVec.ofNat 32 n := by
    rw [hn]
    exact BitVec.ofInt_ofNat 32 n
  unfold Segment.seqEnd
  rw [hoff]
  intro heq
  bv_omega

theorem finAcked_move (hack : a.seg.ack) (c : Conn ρ) :
    ∃ acked, CloseMove c (finAcked c a.seg) a.seg acked false ∧
      (finAcked c a.seg).stream.state = (if acked then .finWait2 else c.stream.state) ∧
      (finAcked c a.seg).stream.rcvNxt = c.stream.rcvNxt := by
  unfold finAcked
  by_cases h : c.stream.snd.isFinSent ∧ a.seg.ackSeq = c.stream.snd.fss + 1
  · -- our FIN is acknowledged, and its timer taken out
    rw [if_pos h]
    refine ⟨true, ?_, rfl, ?_⟩
    · have hout := removeFromRtoList_scheduled (c.mod fun s =>
        { s with
          sndNxt := if tcpSeqGt a.seg.ackSeq s.sndNxt then a.seg.ackSeq else s.sndNxt
          snd := { s.snd with sndUna := a.seg.ackSeq, nrtx := 0 } })
      have hst : c.Steady (removeFromRtoList (c.mod fun s =>
        { s with
          sndNxt := if tcpSeqGt a.seg.ackSeq s.sndNxt then a.seg.ackSeq else s.sndNxt
          snd := { s.snd with sndUna := a.seg.ackSeq, nrtx := 0 } })) :=
        Conn.Steady.trans ⟨by rfl, by rfl⟩ hout.steady
      have hmove := (CloseMove.of_steady hst).trans
        (CloseMove.setState _ a.seg (by decide : TcpState.finWait2 ≠ .established))
      exact { hmove with acks := fun _ => ⟨hack, h⟩ }
    · exact (removeFromRtoList_scheduled _).steady.rcvNxt
  · rw [if_neg h]
    exact ⟨false, .of_steady (.refl c), rfl, rfl⟩

/-- The FIN of the peer in `FIN_WAIT_1` or, once our own FIN is acknowledged, in `FIN_WAIT_2`. -/
theorem finWait1Fin_outcome {acked : Bool}
    (hst : c.stream.state = if acked then .finWait2 else .finWait1) (hfin : a.seg.fin)
    (hend : a.seg.seqEnd = c.stream.rcvNxt) :
    Outcome (finWait1Fin c a) (fun _ => False) fun c' =>
      CloseMove c c' a.seg false true ∧ closePhase c'.stream.state = some (acked, true) := by
  have htake : CloseMove c (c.takeFin a.seg) a.seg false true := .takeFin hfin hend
  have hkeep : (c.takeFin a.seg).stream.state = c.stream.state := rfl
  -- the FIN is counted before the state changes
  have hthen : ∀ {st : TcpState}, st ≠ .established →
      CloseMove c ((c.takeFin a.seg).setState st) a.seg false true := by
    intro st hne
    have hset := CloseMove.setState (c.takeFin a.seg) a.seg hne
    exact
      { fss := hset.fss.trans htake.fss
        isFinSent := hset.isFinSent.trans htake.isFinSent
        opens_eq := hset.opens_eq.trans htake.opens_eq
        fins_eq := hset.fins_eq.trans ((List.append_nil _).trans htake.fins_eq)
        acks := fun h => by cases h
        fin := fun _ => hfin }
  unfold finWait1Fin
  dsimp only
  rw [hkeep, hst]
  cases acked with
  | false =>
    have hctl := addtoControllist_scheduled ((c.takeFin a.seg).setState .closing)
    refine ⟨(hthen (by decide)).scheduled hctl, ?_⟩
    rw [hctl.steady.state]
    rfl
  | true =>
    have hsch := (addToTimewaitList_scheduled ((c.takeFin a.seg).setState .timeWait) a.ts).trans
      (addtoControllist_scheduled _)
    refine ⟨(hthen (by decide)).scheduled hsch, ?_⟩
    rw [hsch.steady.state]
    rfl

/-- `FIN_WAIT_1`: a segment can bring the acknowledgement, the FIN, both or none. -/
theorem handleFinWait1_outcome (hst : c.stream.state = .finWait1) :
    Outcome (handleFinWait1 P c a) (fun _ => True)
      fun c' => CloseResult c c' a.seg (false, false) := by
  have hphase : closePhase c.stream.state = some (false, false) := by rw [hst]; rfl
  unfold handleFinWait1
  dsimp only
  refine Outcome.ite (fun _ => ?_) fun hge => Outcome.ite (fun hack => ?_) fun _ => ?_
  · exact .of_steady (addtoControllist_scheduled c).steady hphase
  · refine Outcome.bind (receiveAck_outcome c a) fun c₁ h₁ => ?_
    obtain ⟨acked, hmove, hst₂, hnxt₂⟩ := finAcked_move hack c₁
    generalize finAcked c₁ a.seg = c₂ at hmove hst₂ hnxt₂
    refine Outcome.bind (receivePayload_outcome P c₂ a) fun c₃ hpay => ?_
    have hmove₃ : CloseMove c c₃ a.seg acked false := by
      have h := ((CloseMove.of_steady h₁).trans hmove).trans (.of_payload hpay)
      rwa [Bool.or_false] at h
    rw [h₁.state, hst] at hst₂
    -- the payload step leaves the state alone, or closes the stream
    rcases hpay.state with hkeep | ⟨hclosed, hpos, hnxt₃⟩
    · rw [hst₂] at hkeep
      refine Outcome.ite (fun hf => ?_) fun _ => ?_
      · refine (finWait1Fin_outcome hkeep hf.1 hf.2).mono (fun _ h => h.elim) fun c' h => ?_
        have htotal := hmove₃.trans h.1
        rw [Bool.or_false] at htotal
        exact ⟨acked, true, htotal, fun _ => rfl, .inr h.2⟩
      · refine ⟨acked, false, hmove₃, fun h => (by cases h), .inr ?_⟩
        rw [hkeep]
        cases acked with
        | false => rfl
        | true => rfl
    · -- the stream was closed for want of a buffer
      refine Outcome.ite (fun hf => ?_) fun _ => ?_
      · refine absurd ?_ (seqEnd_ne_of_not_lt hge hpos)
        rw [hf.2, hnxt₃, hnxt₂, h₁.rcvNxt]
      · exact ⟨acked, false, hmove₃, fun h => (by cases h), .inl hclosed⟩
  · exact .of_steady (.refl c) hphase

/-- `FIN_WAIT_2`: a segment can bring the FIN. -/
theorem handleFinWait2_outcome (hst : c.stream.state = .finWait2) :
    Outcome (handleFinWait2 P c a) (fun _ => True)
      fun c' => CloseResult c c' a.seg (true, false) := by
  unfold handleFinWait2
  dsimp only
  refine Outcome.ite (fun _ => ?_) fun _ => .of_steady (.refl c) (by rw [hst]; rfl)
  refine Outcome.bind (receiveAck_outcome c a) fun c₁ h₁ => ?_
  refine Outcome.bind (receivePayload_outcome P c₁ a) fun c₂ hpay => ?_
  have hmove : CloseMove c c₂ a.seg false false :=
    (CloseMove.of_steady h₁).trans (.of_payload hpay)
  refine Outcome.ite (fun hf => ?_) fun _ => ?_
  · -- here the source changes the state first and counts the FIN afterwards
    have hset := CloseMove.setState c₂ a.seg (by decide : TcpState.timeWait ≠ .established)
    have htake : CloseMove (c₂.setState .timeWait) ((c₂.setState .timeWait).takeFin a.seg) a.seg
        false true := .takeFin hf.1 hf.2
    have hsch := (addToTimewaitList_scheduled ((c₂.setState .timeWait).takeFin a.seg) a.ts).trans
      (addtoControllist_scheduled _)
    refine ⟨false, true, ((hmove.trans hset).trans htake).scheduled hsch, fun _ => rfl, .inr ?_⟩
    rw [hsch.steady.state]
    rfl
  · refine ⟨false, false, hmove, fun h => (by cases h), ?_⟩
    rcases hpay.state with h | h
    · exact .inr (by rw [h, h₁.state, hst]; rfl)
    · exact .inl h.1

/-- `CLOSING`: a segment can bring the acknowledgement. -/
theorem handleClosing_outcome (hst : c.stream.state = .closing) :
    Outcome (handleClosing c a) (fun _ => True)
      fun c' => CloseResult c c' a.seg (false, true) := by
  have hphase : closePhase c.stream.state = some (false, true) := by rw [hst]; rfl
  unfold handleClosing
  dsimp only
  refine Outcome.ite (fun hack => ?_) fun _ => .of_steady (.refl c) hphase
  refine Outcome.bind (receiveAck_outcome c a) fun c₁ h₁ => ?_
  refine Outcome.ite (fun _ => .of_steady h₁ hphase) fun hsent =>
    Outcome.ite (fun _ => .of_steady h₁ hphase) fun hseq => ?_
  rw [Bool.not_eq_true, Bool.not_eq_false] at hsent
  refine Outcome.bind ((updateRetransmissionTimer_outcome _ a.ts).mono
    (fun _ _ => trivial) fun _ h => h) fun c₂ h₂ => ?_
  have hst₂ : c.Steady c₂ := h₁.trans (Conn.Steady.trans ⟨by rfl, by rfl⟩ h₂.steady)
  -- the acknowledgement of our FIN was all that was missing
  have hset := CloseMove.setState c₂ a.seg (by decide : TcpState.timeWait ≠ .established)
  have hsch := addToTimewaitList_scheduled (c₂.setState .timeWait) a.ts
  have hmove := ((CloseMove.of_steady hst₂).trans hset).scheduled hsch
  refine ⟨true, false, { hmove with acks := fun _ => ⟨hack, ?_, ?_⟩ }, fun h => (by cases h), .inr ?_⟩
  · rw [← h₁.isFinSent]
    exact hsent
  · rw [← h₁.fss]
    exact not_not.mp hseq
  · rw [hsch.steady.state]
    rfl

/-- `TIME_WAIT`: the segment is acknowledged, and the wait starts over. -/
theorem handleTimeWait_outcome (c : Conn ρ) (a : Arrival ρ) :
    Outcome (handleTimeWait c a) (fun _ => False) c.Steady := by
  unfold handleTimeWait
  refine Outcome.ite (fun hon => ?_) fun _ => (addtoControllist_scheduled c).steady
  refine Outcome.bind ((removeFromTimewaitList_outcome c).mono (fun e he => ?_) fun _ h => h)
    fun c₁ h₁ => ?_
  · -- the stream is on the list, so it can be taken off
    exact absurd hon (by rw [he.2]; exact Bool.false_ne_true)
  · exact ((h₁.trans (addToTimewaitList_scheduled c₁ a.ts)).trans
      (addtoControllist_scheduled _)).steady

/-- `LAST_ACK`: the stream is closed by the acknowledgement of its FIN. -/
theorem handleLastAck_outcome (c : Conn ρ) (a : Arrival ρ) :
    Outcome (handleLastAck c a) (fun _ => True) fun c' =>
      c.Steady c' ∨
        (AcksFin c.stream a.seg ∧ c'.stream.state = .closed ∧
          c'.stream.closeReason = .passiveClose ∧ CloseMove c c' a.seg false false) := by
  unfold handleLastAck
  dsimp only
  refine Outcome.ite (fun _ => .inl (.refl c)) fun _ => Outcome.ite (fun hack => ?_) fun _ => ?_
  · refine Outcome.bind (receiveAck_outcome c a) fun c₁ h₁ => ?_
    -- an acknowledgement closes the stream only if the FIN was sent and this is its number
    refine Outcome.ite (fun _ => .inl h₁) fun hsent => Outcome.ite (fun hseq => ?_) fun _ => ?_
    · rw [Bool.not_eq_true, Bool.not_eq_false] at hsent
      refine Outcome.bind ((updateRetransmissionTimer_outcome _ a.ts).mono
        (fun _ _ => trivial) fun _ h => h) fun c₂ h₂ => ?_
      have hst₂ : c.Steady c₂ := h₁.trans (Conn.Steady.trans ⟨by rfl, by rfl⟩ h₂.steady)
      have hmove := (CloseMove.of_steady hst₂).trans (.close c₂ a.seg .passiveClose)
      refine .inr ⟨⟨hack, ?_, ?_⟩, rfl, rfl, hmove.streamDestroy⟩
      · rw [← h₁.isFinSent]
        exact hsent
      · rw [← h₁.fss]
        exact hseq
    · exact .inl (h₁.trans (addtoControllist_scheduled c₁).steady)
  · exact .inl (addtoControllist_scheduled c).steady

end CloseHandlers

/-! ### A call of `cmt_tcp_process` -/

section CloseCalls

variable {P : Parts ρ} {c : Conn ρ} {a : Arrival ρ}

/-- A reset closes a stream that is closing. -/
theorem processRst_of_closing (h : (closePhase c.stream.state).isSome ∨ c.stream.state = .lastAck)
    (ackSeq : U32) :
    (processRst c ackSeq).1 = (c.close .closed .activeClose).streamDestroy := by
  have hfive : c.stream.state = .finWait1 ∨ c.stream.state = .finWait2 ∨
      c.stream.state = .lastAck ∨ c.stream.state = .closing ∨ c.stream.state = .timeWait := by
    rcases h with h | h
    · obtain ⟨p, hp⟩ := Option.isSome_iff_exists.mp h
      rcases closePhase_cases hp with ⟨h, -⟩ | ⟨h, -⟩ | ⟨h, -⟩ | ⟨h, -⟩ <;> simp [h]
    · simp [h]
  have hpast : ¬c.stream.state.code ≤ TcpState.synSent.code ∧ c.stream.state ≠ .synRcvd := by
    rcases hfive with h | h | h | h | h <;> rw [h] <;> decide
  unfold processRst
  dsimp only
  rw [if_neg hpast.1, if_neg hpast.2, if_pos hfive]

/-- A received segment in the states of an active close. -/
theorem closing_outcome {p : Bool × Bool} (hp : closePhase c.stream.state = some p) :
    Outcome (processStream P c a) (fun _ => True) fun c' => CloseResult c c' a.seg p := by
  refine processStream_outcome (fun c' h _ => .of_steady h.steady hp) (fun c' h _ _ => ?_)
    fun c' h _ => ?_
  · -- a reset in these states closes the stream
    rw [processRst_of_closing (.inl (by rw [h.steady.state, hp]; rfl))]
    have hmove := (CloseMove.close c' a.seg .activeClose).streamDestroy
    exact .after h.steady ⟨false, false, hmove, fun h => (by cases h), .inl rfl⟩
  · have hst := h.steady.state
    -- the state decides the handler, and the handler knows its phase
    have hafter : ∀ {r : Except Abort (Conn ρ)},
        Outcome r (fun _ => True) (fun c'' => CloseResult c' c'' a.seg p) →
        Outcome r (fun _ => True) (fun c'' => CloseResult c c'' a.seg p) :=
      fun hr => hr.mono (fun _ _ => trivial) fun _ hc => hc.after h.steady
    refine hafter ?_
    unfold dispatch
    rcases closePhase_cases hp with ⟨hcs, rfl⟩ | ⟨hcs, rfl⟩ | ⟨hcs, rfl⟩ | ⟨hcs, rfl⟩
    · rw [hst, hcs]
      exact handleFinWait1_outcome (hst.trans hcs)
    · rw [hst, hcs]
      exact handleClosing_outcome (hst.trans hcs)
    · rw [hst, hcs]
      exact handleFinWait2_outcome (hst.trans hcs)
    · rw [hst, hcs]
      exact (handleTimeWait_outcome c' a).mono (fun _ he => he.elim) fun _ hc =>
        .of_steady hc (hst ▸ hp)

/-- A received segment in `LAST_ACK`. -/
theorem lastAck_outcome (hst : c.stream.state = .lastAck) :
    Outcome (processStream P c a) (fun _ => True) fun c' =>
      c.Steady c' ∨
        (c'.stream.state = .closed ∧ CloseMove c c' a.seg false false ∧
          (c'.stream.closeReason = .passiveClose → AcksFin c.stream a.seg)) := by
  refine processStream_outcome (fun c' h _ => .inl h.steady) (fun c' h _ _ => ?_) fun c' h _ => ?_
  · rw [processRst_of_closing (.inr (h.steady.state.trans hst))]
    have hmove := (CloseMove.close c' a.seg .activeClose).streamDestroy
    refine .inr ⟨rfl, (CloseMove.of_steady h.steady).trans hmove, ?_⟩
    intro hwhy
    cases hwhy
  · unfold dispatch
    rw [h.steady.state, hst]
    refine (handleLastAck_outcome c' a).mono (fun _ _ => trivial) fun c'' hc => ?_
    rcases hc with hc | ⟨⟨hack, hsent, hseq⟩, hclosed, -, hmove⟩
    · exact .inl (h.steady.trans hc)
    · refine .inr ⟨hclosed, (CloseMove.of_steady h.steady).trans hmove, fun _ => ⟨hack, ?_, ?_⟩⟩
      · rw [← h.steady.isFinSent]
        exact hsent
      · rw [← h.steady.fss]
        exact hseq

/-- A closed stream stays as it is. -/
theorem closed_outcome (hst : c.stream.state = .closed) :
    Outcome (processStream P c a) (fun _ => False) c.Steady := by
  refine processStream_outcome (fun c' h _ => h.steady) (fun c' h _ hcode => ?_) fun c' h _ => ?_
  · rw [hst] at hcode
    exact absurd hcode (by decide)
  · unfold dispatch
    rw [h.steady.state, hst]
    exact h.steady

end CloseCalls

/-! ### Runs -/

/-- Between two segments the endpoint keeps the state, and the number of a FIN it has sent. -/
def KeepsFin (s s' : Stream ρ) : Prop :=
  s'.state = s.state ∧ (s.snd.isFinSent → s'.snd.isFinSent ∧ s'.snd.fss = s.snd.fss)

/-- Along the run, while the FIN was marked as sent with the number `fss`, a segment acknowledged it. -/
def FinAckSeen (P : Parts ρ) (w₀ : World ρ) (ls : List (Label ρ)) (fss : U32) : Prop :=
  Run.Occurs (Step P KeepsFin) w₀ ls fun w l =>
    ∃ a s, l = .segment a ∧ w.stream = some s ∧ AcksFin s a.seg ∧ s.snd.fss = fss

/-- Along the run the FIN of the peer was counted exactly once: of a segment with FIN, when `rcv_nxt` was
at its end, and `rcv_nxt` moved on by one. -/
def FinTakenOnce (ls : List (Label ρ)) (log : List (Event ρ)) : Prop :=
  ∃ a, .segment a ∈ ls ∧ a.seg.fin ∧ fins log = [(a.seg, a.seg.seqEnd, a.seg.seqEnd + 1)]

/-- What holds along a run of a closing stream: its phase says what was seen. -/
structure PhaseSeen (P : Parts ρ) (w₀ : World ρ) (ls : List (Label ρ)) (s : Stream ρ)
    (log : List (Event ρ)) (p : Bool × Bool) : Prop where
  acked : p.1 → s.snd.isFinSent ∧ FinAckSeen P w₀ ls s.snd.fss
  taken : p.2 → FinTakenOnce ls log
  untaken : p.2 = false → fins log = []

/-- The stream is in `LAST_ACK`, closed, or closing with its phase seen. -/
def CloseInv (P : Parts ρ) (w₀ : World ρ) (ls : List (Label ρ)) (w : World ρ) : Prop :=
  ∃ s, w.stream = some s ∧
    (s.state = .lastAck ∨ s.state = .closed ∨
      ∃ p, closePhase s.state = some p ∧ PhaseSeen P w₀ ls s w.log p)

section CloseRuns

variable {P : Parts ρ} {w₀ w w' : World ρ} {ls : List (Label ρ)} {s s' : Stream ρ}
  {log log' : List (Event ρ)} {p : Bool × Bool} {l : Label ρ}

/-- What was seen stays seen while the stream keeps its FIN and no further FIN is counted. -/
theorem PhaseSeen.snoc (h : PhaseSeen P w₀ ls s log p) (l : Label ρ)
    (hsent : s.snd.isFinSent → s'.snd.isFinSent ∧ s'.snd.fss = s.snd.fss) (hfins : fins log' = fins log) :
    PhaseSeen P w₀ (ls ++ [l]) s' log' p where
  acked := by
    intro h1
    obtain ⟨hs, hseen⟩ := h.acked h1
    obtain ⟨hs', hfss⟩ := hsent hs
    exact ⟨hs', by rw [hfss]; exact Run.Occurs.snoc hseen l⟩
  taken := by
    intro h2
    obtain ⟨a, hmem, hfin, hlog⟩ := h.taken h2
    exact ⟨a, List.mem_append_left _ hmem, hfin, hfins.trans hlog⟩
  untaken := fun h2 => hfins.trans (h.untaken h2)

/-- A segment adds what it brings to what was seen. -/
theorem PhaseSeen.segment {c c' : Conn ρ} {a : Arrival ρ} {acked took : Bool}
    (hrun : Run (Step P KeepsFin) w₀ ls w) (hw : w.stream = some c.stream)
    (h : PhaseSeen P w₀ ls c.stream c.log p) (hmove : CloseMove c c' a.seg acked took)
    (htook : took → p.2 = false) :
    PhaseSeen P w₀ (ls ++ [.segment a]) c'.stream c'.log (p.1 || acked, p.2 || took) where
  acked := by
    intro hor
    rcases Bool.or_eq_true_iff.mp hor with h1 | h1
    · obtain ⟨hs, hseen⟩ := h.acked h1
      refine ⟨hmove.isFinSent.trans hs, ?_⟩
      rw [hmove.fss]
      exact Run.Occurs.snoc hseen _
    · have hacks := hmove.acks h1
      refine ⟨hmove.isFinSent.trans hacks.2.1, ?_⟩
      rw [hmove.fss]
      exact Run.occurs_last hrun ⟨a, c.stream, rfl, hw, hacks, rfl⟩
  taken := by
    intro hor
    by_cases ht : took = true
    · -- the first FIN, and the only one
      have hnone := h.untaken (htook ht)
      refine ⟨a, List.mem_append_right _ (List.mem_singleton_self _), hmove.fin ht, ?_⟩
      rw [hmove.fins_eq, hnone, if_pos ht]
      rfl
    · have h2 : p.2 = true := by
        rcases Bool.or_eq_true_iff.mp hor with h2 | h2
        · exact h2
        · exact absurd h2 ht
      obtain ⟨b, hmem, hfin, hlog⟩ := h.taken h2
      refine ⟨b, List.mem_append_left _ hmem, hfin, ?_⟩
      rw [hmove.fins_eq, hlog, if_neg ht]
      rfl
  untaken := by
    intro hor
    obtain ⟨h2, ht⟩ := Bool.or_eq_false_iff.mp hor
    rw [hmove.fins_eq, h.untaken h2, if_neg (by rw [ht]; exact Bool.false_ne_true)]
    rfl

/-- Every step keeps the invariant. -/
theorem CloseInv.step (hrun : Run (Step P KeepsFin) w₀ ls w) (h : CloseInv P w₀ ls w)
    (hstep : Step P KeepsFin w l w') : CloseInv P w₀ (ls ++ [l]) w' := by
  obtain ⟨s, hs, hcase⟩ := h
  cases hstep with
  | @endpoint s₁ s' tcp hs₁ hkeep =>
    -- the endpoint keeps the state and its FIN, and counts no FIN of the peer
    obtain rfl : s = s₁ := Option.some.inj (hs.symm.trans hs₁)
    refine ⟨s', rfl, ?_⟩
    rw [hkeep.1]
    rcases hcase with h | h | ⟨p, hp, hseen⟩
    · exact .inl h
    · exact .inr (.inl h)
    · exact .inr (.inr ⟨p, hp, hseen.snoc _ hkeep.2 rfl⟩)
  | @segment _ a ret hcall =>
    rcases process_ok hcall with rfl | ⟨c, c', hfind, hproc, rfl⟩
    · -- the segment did not reach the stream
      refine ⟨s, hs, ?_⟩
      rcases hcase with h | h | ⟨p, hp, hseen⟩
      · exact .inl h
      · exact .inr (.inl h)
      · exact .inr (.inr ⟨p, hp, hseen.snoc _ (fun hsent => ⟨hsent, rfl⟩) rfl⟩)
    · unfold findStream at hfind
      rw [hs] at hfind
      cases hfind
      refine ⟨c'.stream, rfl, ?_⟩
      rcases hcase with h | h | ⟨p, hp, hseen⟩
      · rcases (lastAck_outcome h).of_ok hproc with hc | hc
        · exact .inl (hc.state.trans h)
        · exact .inr (.inl hc.1)
      · exact .inr (.inl (((closed_outcome h).of_ok hproc).state.trans h))
      · obtain ⟨acked, took, hmove, htook, hst⟩ := (closing_outcome hp).of_ok hproc
        rcases hst with hst | hst
        · exact .inr (.inl hst)
        · exact .inr (.inr ⟨_, hst, hseen.segment hrun hs hmove htook⟩)

theorem closeInv_of_run (h₀ : w₀.stream = some s) (hst : s.state = .finWait1 ∨ s.state = .lastAck)
    (hlog : w₀.log = []) (hrun : Run (Step P KeepsFin) w₀ ls w) : CloseInv P w₀ ls w := by
  induction hrun with
  | nil =>
    refine ⟨s, h₀, ?_⟩
    rcases hst with hst | hst
    · refine .inr (.inr ⟨(false, false), by rw [hst]; rfl, ?_⟩)
      exact
        { acked := fun h => by cases h
          taken := fun h => by cases h
          untaken := fun _ => by rw [hlog]; rfl }
    · exact .inl hst
  | snoc hpre hlast ih => exact ih.step hpre hlast

/-- **Close handshake.** In every run of received segments from `FIN_WAIT_1` or `LAST_ACK`: in
`TIME_WAIT` our FIN has been acknowledged and the FIN of the peer has been counted exactly once; and
`LAST_ACK` turns into `CLOSED` for `TCP_PASSIVE_CLOSE` only by a segment that acknowledges our FIN. -/
theorem close_handshake (P : Parts ρ) (w₀ w : World ρ) (ls : List (Label ρ)) (s₀ s : Stream ρ)
    (h₀ : w₀.stream = some s₀) (hst : s₀.state = .finWait1 ∨ s₀.state = .lastAck)
    (hlog : w₀.log = []) (hrun : Run (Step P KeepsFin) w₀ ls w) (hs : w.stream = some s) :
    (s.state = .timeWait → FinAckSeen P w₀ ls s.snd.fss ∧ FinTakenOnce ls w.log) ∧
      ∀ a w' s', s.state = .lastAck → Step P KeepsFin w (.segment a) w' → w'.stream = some s' →
        s'.state = .closed → s'.closeReason = .passiveClose → AcksFin s a.seg := by
  constructor
  · intro htw
    obtain ⟨s₁, hs₁, hcase⟩ := closeInv_of_run h₀ hst hlog hrun
    obtain rfl : s = s₁ := Option.some.inj (hs.symm.trans hs₁)
    -- `TIME_WAIT` is the phase in which both were seen
    rw [htw] at hcase
    rcases hcase with h | h | ⟨p, hp, hseen⟩
    · cases h
    · cases h
    · cases hp
      exact ⟨(hseen.acked rfl).2, hseen.taken rfl⟩
  · intro a w' s' hlast hstep hs' hclosed hwhy
    cases hstep with
    | segment hcall =>
      rcases process_ok hcall with rfl | ⟨c, c', hfind, hproc, rfl⟩
      · -- a segment that is not accepted closes nothing
        obtain rfl : s = s' := Option.some.inj (hs.symm.trans hs')
        rw [hlast] at hclosed
        cases hclosed
      · unfold findStream at hfind
        rw [hs] at hfind
        cases hfind
        obtain rfl : c'.stream = s' := Option.some.inj hs'
        rcases (lastAck_outcome hlast).of_ok hproc with hc | hc
        · rw [hc.state] at hclosed
          change s.state = .closed at hclosed
          rw [hlast] at hclosed
          cases hclosed
        · exact hc.2.2 hwhy

end CloseRuns

/-- A connection whose endpoint sent its FIN with the number `200`. -/
def finSentWorld : World (U32 × U32) where
  tcp := default
  log := []
  stream := some
    { (default : Stream (U32 × U32)) with
      state := .finWait1
      sndNxt := 201
      rcvNxt := 500
      snd := { (default : SndVar) with sndUna := 200, fss := 200, isFinSent := true, rto := 500 }
      rcv := { (default : RcvVar (U32 × U32)) with rcvWnd := 8192 } }

/-- The acknowledgement of this FIN, with the FIN of the peer. -/
def finAckSegment : Arrival (U32 × U32) where
  seg := { (default : Segment) with
    ihl := 5, doff := 5, totLen := 40, seq := 500, ackSeq := 201, ack := true, fin := true
    window := 8192 }
  ts := 0
  listener := none
  streamObj := none
  sndObj := none
  rcvObj := none
  rand := 0
  recvGet := fun _ => none

/-- Both events in one segment lead from `FIN_WAIT_1` to `TIME_WAIT`. -/
theorem close_handshake_finAck :
    ∃ w s, Run (Step inOrderParts KeepsFin) finSentWorld [.segment finAckSegment] w ∧
      w.stream = some s ∧ s.state = .timeWait ∧
      FinAckSeen inOrderParts finSentWorld [.segment finAckSegment] s.snd.fss ∧
      FinTakenOnce [.segment finAckSegment] w.log := by
  have hrun : Run (Step inOrderParts KeepsFin) finSentWorld [.segment finAckSegment] _ :=
    Run.single (.segment rfl)
  refine ⟨_, _, hrun, rfl, rfl, ?_⟩
  exact (close_handshake inOrderParts finSentWorld _ _ _ _ rfl (.inl rfl) rfl hrun rfl).1 rfl

end CmtTcp
