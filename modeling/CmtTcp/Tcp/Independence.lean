import CmtTcp.Tcp.Process
import CmtTcp.FlowTable
import CmtTcp.Lib.Alike

/-!
# What a stream does not depend on

The functions of `tcp.c` get the manager next to the stream, and link the stream on its lists. What they do
to the stream does not depend on what else is linked there: `processStream_alike`. The bucket of the
retransmission store that a stream is put in does depend on it, through `rto_now_ts`; but the functions
ask only whether the stream is in the store.

Nor do they look at the four-tuple of the stream, and so they keep it: `Conn.Like` lets it differ.
-/

namespace CmtTcp

open Lib (Alike)

variable {ρ : Type}

/-- The four-tuple of a stream. -/
def Stream.flow (s : Stream ρ) : Flow := ⟨s.saddr, s.daddr, s.sport, s.dport⟩

/-- The stream with another four-tuple, and in another bucket of the retransmission store. -/
def Stream.moved (s : Stream ρ) (i : ℤ) (q : Flow) : Stream ρ :=
  { s with
    onRtoIdx := i
    saddr := q.saddr
    daddr := q.daddr
    sport := q.sport
    dport := q.dport }

/-- The stream of `c'` is the stream of `c`, with the four-tuple `q`; both are in the retransmission store,
or neither is. -/
def Conn.Like (q : Flow) (c c' : Conn ρ) : Prop :=
  ∃ i, c'.stream = c.stream.moved i q ∧ (i < 0 ↔ c.stream.onRtoIdx < 0)

variable {q : Flow}

namespace Conn.Like

variable {c c' : Conn ρ}

theorem refl (c : Conn ρ) : c.Like c.stream.flow c := ⟨c.stream.onRtoIdx, rfl, Iff.rfl⟩

/-- A statement about two such connections is one about two managers, two logs and two buckets. -/
@[elab_as_elim]
theorem elim {motive : Conn ρ → Conn ρ → Prop} (h : c.Like q c')
    (hm : ∀ tcp tcp' s log log' i, (i < 0 ↔ s.onRtoIdx < 0) →
      motive ⟨tcp, s, log⟩
        ⟨tcp', { s with
          onRtoIdx := i, saddr := q.saddr, daddr := q.daddr, sport := q.sport, dport := q.dport }, log'⟩) :
    motive c c' := by
  obtain ⟨tcp, s, log⟩ := c
  obtain ⟨tcp', s', log'⟩ := c'
  obtain ⟨i, hs, hi⟩ := h
  dsimp only at hs
  rw [hs]
  exact hm tcp tcp' s log log' i hi

theorem of_eq (i : ℤ) (h : c'.stream = c.stream.moved i q) (hi : i < 0 ↔ c.stream.onRtoIdx < 0) :
    c.Like q c' :=
  ⟨i, h, hi⟩

/-- What is read off the stream without looking at what may differ. -/
theorem read {α : Type} (h : c.Like q c') (view : Stream ρ → α)
    (hview : ∀ s i q, view (s.moved i q) = view s) : view c'.stream = view c.stream := by
  obtain ⟨i, hs, -⟩ := h
  rw [hs]
  exact hview c.stream i q

/-- What a function changes of the stream without looking at what may differ. -/
theorem mod {f : Stream ρ → Stream ρ} (h : c.Like q c')
    (hf : ∀ s i q, f (s.moved i q) = (f s).moved i q) : (c.mod f).Like q (c'.mod f) := by
  obtain ⟨i, hs, hi⟩ := h
  have hidx : (f c.stream).onRtoIdx = c.stream.onRtoIdx := by
    have h := congrArg Stream.onRtoIdx (hf c.stream c.stream.onRtoIdx c.stream.flow)
    exact h
  refine of_eq i ?_ ?_
  · change f c'.stream = _
    rw [hs]
    exact hf c.stream i q
  · change i < 0 ↔ (f c.stream).onRtoIdx < 0
    rw [hidx]
    exact hi

theorem emit (h : c.Like q c') (e e' : Event ρ) : Like q (c.emit e) (c'.emit e') := h

theorem modSnd {f : SndVar → SndVar} (h : c.Like q c') : Like q (c.modSnd f) (c'.modSnd f) :=
  h.mod fun _ _ _ => rfl

theorem modRcv {f : RcvVar ρ → RcvVar ρ} (h : c.Like q c') : Like q (c.modRcv f) (c'.modRcv f) :=
  h.mod fun _ _ _ => rfl

theorem setState (h : c.Like q c') (st : TcpState) : Like q (c.setState st) (c'.setState st) :=
  Like.emit (h.mod (f := fun s => { s with state := st }) fun _ _ _ => rfl) _ _

theorem close (h : c.Like q c') (st : TcpState) (why : CloseReason) :
    Like q (c.close st why) (c'.close st why) :=
  (h.setState st).mod fun _ _ _ => rfl

theorem takeFin (h : c.Like q c') (seg : Segment) : Like q (c.takeFin seg) (c'.takeFin seg) :=
  Like.emit (h.mod (f := fun s => { s with rcvNxt := s.rcvNxt + 1 }) fun _ _ _ => rfl) _ _

theorem streamDestroy (h : c.Like q c') : Like q c.streamDestroy c'.streamDestroy := h

/-- A stream without a socket is destroyed. -/
theorem unattached (h : c.Like q c') :
    Like q (if c.stream.s then c else c.streamDestroy) (if c'.stream.s then c' else c'.streamDestroy) := by
  refine h.elim fun tcp tcp' s log log' i hi => ?_
  dsimp only
  split
  · exact .of_eq i rfl hi
  · exact .of_eq i rfl hi

end Conn.Like

/-! ### Lists and timers -/

section Lists

variable {c c' : Conn ρ}

theorem addto_alike {on : SndVar → Bool} {mark : SndVar → SndVar} {link : Sender → Addr → Sender}
    (h : c.Like q c') : (addto on mark link c).Like q (addto on mark link c') := by
  refine h.elim fun tcp tcp' s log log' i hi => ?_
  unfold addto
  dsimp only
  split
  · exact .of_eq i rfl hi
  · exact .of_eq i rfl hi

theorem addtoAcklist_alike (h : c.Like q c') : (addtoAcklist c).Like q (addtoAcklist c') :=
  addto_alike h

theorem addtoControllist_alike (h : c.Like q c') :
    (addtoControllist c).Like q (addtoControllist c') :=
  addto_alike h

theorem addtoSendlist_alike (h : c.Like q c') :
    Alike (Conn.Like q) (addtoSendlist c) (addtoSendlist c') := by
  refine h.elim fun tcp tcp' s log log' i hi => ?_
  unfold addtoSendlist
  exact Alike.ite Iff.rfl (fun _ => rfl) fun _ => addto_alike (.of_eq i rfl hi)

theorem removeSendlist_alike (h : c.Like q c') : (removeSendlist c).Like q (removeSendlist c') := by
  refine h.elim fun tcp tcp' s log log' i hi => ?_
  unfold removeSendlist
  dsimp only
  split
  · exact .of_eq i rfl hi
  · exact .of_eq i rfl hi

theorem enqueueAcklist_alike (h : c.Like q c') (opt : AckOpt) :
    (enqueueAcklist c opt).Like q (enqueueAcklist c' opt) := by
  refine h.elim fun tcp tcp' s log log' i hi => ?_
  refine addtoAcklist_alike ?_
  cases opt with
  | now => exact .of_eq i rfl hi
  | aggregate =>
    dsimp only
    split
    · exact .of_eq i rfl hi
    · exact .of_eq i rfl hi
  | wack => exact .of_eq i rfl hi

/-- Only the bucket depends on the store. -/
theorem addToRtoList_eq (c : Conn ρ) : ∃ i ≥ (0 : ℤ),
    (addToRtoList c).stream =
      { c.stream with onRtoIdx := if c.stream.onRtoIdx < 0 then i else c.stream.onRtoIdx } := by
  unfold addToRtoList
  by_cases hcnt : c.tcp.rtoListCnt = 0
  · simp only [if_pos hcnt]
    by_cases hidx : c.stream.onRtoIdx < 0
    · simp only [if_pos hidx]
      exact ⟨_, Int.natCast_nonneg _, rfl⟩
    · simp only [if_neg hidx]
      exact ⟨0, le_rfl, trivial⟩
  · simp only [if_neg hcnt]
    by_cases hidx : c.stream.onRtoIdx < 0
    · simp only [if_pos hidx]
      exact ⟨_, Int.natCast_nonneg _, rfl⟩
    · simp only [if_neg hidx]
      exact ⟨0, le_rfl, trivial⟩

theorem addToRtoList_alike (h : c.Like q c') : (addToRtoList c).Like q (addToRtoList c') := by
  obtain ⟨j, hj, heq⟩ := addToRtoList_eq c
  obtain ⟨j', hj', heq'⟩ := addToRtoList_eq c'
  obtain ⟨i, hs, hi⟩ := h
  rw [hs] at heq'
  refine .of_eq (if i < 0 then j' else i) ?_ ?_
  · rw [heq', heq]
    rfl
  · rw [heq]
    dsimp only
    by_cases hneg : i < 0
    · rw [if_pos hneg, if_pos (hi.mp hneg)]
      omega
    · rw [if_neg hneg, if_neg (mt hi.mpr hneg)]
      exact hi

theorem removeFromRtoList_alike (h : c.Like q c') :
    (removeFromRtoList c).Like q (removeFromRtoList c') := by
  refine h.elim fun tcp tcp' s log log' i hi => ?_
  unfold removeFromRtoList
  dsimp only
  by_cases hs : s.onRtoIdx < 0
  · rw [if_pos hs, if_pos (hi.mpr hs)]
    exact .of_eq i rfl hi
  · rw [if_neg hs, if_neg (mt hi.mp hs)]
    exact .refl _

/-- Both take the stream out of the store, or neither has it there. -/
theorem removeFromRtoList_ite_alike (h : c.Like q c') :
    (if c.stream.onRtoIdx ≥ 0 then removeFromRtoList c else c).Like q
      (if c'.stream.onRtoIdx ≥ 0 then removeFromRtoList c' else c') := by
  have hlike := h
  obtain ⟨i, hs, hi⟩ := h
  have hidx : c'.stream.onRtoIdx = i := by
    rw [hs]
    rfl
  by_cases hc : c.stream.onRtoIdx ≥ 0
  · rw [if_pos hc, if_pos (by omega)]
    exact removeFromRtoList_alike hlike
  · rw [if_neg hc, if_neg (by omega)]
    exact hlike

theorem updateRetransmissionTimer_alike (h : c.Like q c') (curTs : U32) :
    Alike (Conn.Like q) (updateRetransmissionTimer c curTs) (updateRetransmissionTimer c' curTs) := by
  have hview : ∀ {d d' : Conn ρ}, d.Like q d' →
      d'.stream.snd = d.stream.snd ∧ d'.stream.sndNxt = d.stream.sndNxt := by
    intro d d' hd
    obtain ⟨i, hs, -⟩ := hd
    rw [hs]
    exact ⟨rfl, rfl⟩
  unfold updateRetransmissionTimer
  refine Alike.ite (by rw [(hview h).1]) (fun _ => ?_) fun _ => rfl
  have hout := removeFromRtoList_ite_alike (Conn.Like.modSnd (f := fun snd => { snd with nrtx := 0 }) h)
  refine Alike.ite (by rw [(hview hout).1, (hview hout).2]) (fun _ => ?_) fun _ => hout
  exact addToRtoList_alike hout.modSnd

theorem removeFromTimewaitList_alike (h : c.Like q c') :
    Alike (Conn.Like q) (removeFromTimewaitList c) (removeFromTimewaitList c') := by
  refine h.elim fun tcp tcp' s log log' i hi => ?_
  unfold removeFromTimewaitList
  exact Alike.ite Iff.rfl (fun _ => Conn.Like.of_eq i rfl hi) fun _ => rfl

theorem addToTimewaitList_alike (h : c.Like q c') (curTs : U32) :
    (addToTimewaitList c curTs).Like q (addToTimewaitList c' curTs) := by
  have hts := Conn.Like.modRcv (f := fun rcv => { rcv with tsTwExpire := curTs + cmtTcpTimewait }) h
  unfold addToTimewaitList
  dsimp only
  generalize c.modRcv (fun rcv => { rcv with tsTwExpire := curTs + cmtTcpTimewait }) = d at hts ⊢
  generalize c'.modRcv (fun rcv => { rcv with tsTwExpire := curTs + cmtTcpTimewait }) = d' at hts ⊢
  have hflag : d'.stream.onTimewaitList = d.stream.onTimewaitList :=
    hts.read (fun s => s.onTimewaitList) fun _ _ _ => rfl
  by_cases hon : d.stream.onTimewaitList = true
  · rw [if_pos hon, if_pos (hflag.trans hon)]
    exact hts
  · have hon' : ¬d'.stream.onTimewaitList = true := by rwa [hflag]
    rw [if_neg hon, if_neg hon']
    exact Conn.Like.mod (f := fun s => { s with onTimewaitList := true })
      (removeFromRtoList_ite_alike hts) fun _ _ _ => rfl

theorem addToTimeoutList_alike (h : c.Like q c') :
    Alike (Conn.Like q) (addToTimeoutList c) (addToTimeoutList c') := by
  refine h.elim fun tcp tcp' s log log' i hi => ?_
  unfold addToTimeoutList
  exact Alike.ite Iff.rfl (fun _ => rfl) fun _ => Conn.Like.of_eq i rfl hi

theorem updateTimeoutList_alike (h : c.Like q c') :
    (updateTimeoutList c).Like q (updateTimeoutList c') := by
  unfold Conn.Like
  rw [(updateTimeoutList_eq c).1, (updateTimeoutList_eq c').1]
  exact h

end Lists

/-! ### Acknowledgements and options -/

section Ack

variable {c c' : Conn ρ}

theorem fastRetransmit_alike (h : c.Like q c') (ackSeq : U32) :
    Alike (Conn.Like q) (fastRetransmit c ackSeq) (fastRetransmit c' ackSeq) := by
  refine h.elim fun tcp tcp' s log log' i hi => ?_
  refine addtoSendlist_alike (Conn.Like.modSnd ?_)
  dsimp only
  split
  · exact .of_eq i rfl hi
  · exact .of_eq i rfl hi

theorem answerDup_alike (h : c.Like q c') (dup : Bool) (ackSeq : U32) :
    Alike (Conn.Like q) (answerDup c dup ackSeq) (answerDup c' dup ackSeq) := by
  refine h.elim fun tcp tcp' s log log' i hi => ?_
  unfold answerDup
  refine Alike.ite Iff.rfl (fun _ => fastRetransmit_alike (.of_eq i rfl hi) ackSeq) fun _ => ?_
  exact Alike.ite Iff.rfl (fun _ => Conn.Like.modSnd (.of_eq i rfl hi)) fun _ => Conn.Like.of_eq i rfl hi

theorem raiseSndNxt_alike (h : c.Like q c') (buf : SendBuffer) (ackSeq : U32) :
    (raiseSndNxt c buf ackSeq).Like q (raiseSndNxt c' buf ackSeq) := by
  refine h.elim fun tcp tcp' s log log' i hi => ?_
  unfold raiseSndNxt
  dsimp only
  split
  · split
    · exact removeSendlist_alike (.of_eq i rfl hi)
    · exact .of_eq i rfl hi
  · exact .of_eq i rfl hi

theorem updateRto_alike (h : c.Like q c') (curTs : U32) :
    Alike (Conn.Like q) (updateRto c curTs) (updateRto c' curTs) := by
  refine h.elim fun tcp tcp' s log log' i hi => ?_
  unfold updateRto
  refine Alike.ite Iff.rfl (fun _ => ?_) fun _ => Conn.Like.of_eq i rfl hi
  exact Alike.ite Iff.rfl (fun _ => Conn.Like.of_eq i rfl hi) fun _ => rfl

theorem growCwnd_alike (h : c.Like q c') (packets : U16) :
    Alike (Conn.Like q) (growCwnd c packets) (growCwnd c' packets) := by
  refine h.elim fun tcp tcp' s log log' i hi => ?_
  unfold growCwnd
  refine Alike.ite Iff.rfl (fun _ => ?_) fun _ => Alike.ite Iff.rfl (fun _ => rfl) fun _ => ?_
  · exact Alike.ite Iff.rfl (fun _ => Conn.Like.of_eq i rfl hi) fun _ => Conn.Like.of_eq i rfl hi
  · exact Conn.Like.modSnd (.of_eq i rfl hi)

theorem ackRemoved_alike (h : c.Like q c') (buf : SendBuffer) (ret : U64) (ackSeq curTs : U32) :
    Alike (Conn.Like q) (ackRemoved c buf ret ackSeq curTs) (ackRemoved c' buf ret ackSeq curTs) := by
  unfold ackRemoved
  refine Alike.ite Iff.rfl (fun _ => h.modSnd) fun _ => ?_
  exact updateRetransmissionTimer_alike h.modSnd.modSnd curTs

theorem ackRemove_alike (h : c.Like q c') (buf : SendBuffer) (ackSeq curTs : U32) :
    Alike (Conn.Like q) (ackRemove c buf ackSeq curTs) (ackRemove c' buf ackSeq curTs) := by
  refine h.elim fun tcp tcp' s log log' i hi => ?_
  unfold ackRemove
  refine Alike.ite Iff.rfl (fun _ => ?_) fun _ => Conn.Like.of_eq i rfl hi
  refine Alike.ite Iff.rfl (fun _ => rfl) fun _ => ?_
  -- the estimate, the window, and then the send buffer
  refine Alike.bind (updateRto_alike (.of_eq i rfl hi) curTs) fun d d' hd => ?_
  refine Alike.bind (growCwnd_alike hd _) fun e e' he => ?_
  exact ackRemoved_alike he _ _ ackSeq curTs

theorem windowUpdate_moved (seg : Segment) (ackSeq : U32) (s : Stream ρ) (i : ℤ) (q : Flow) :
    windowUpdate seg ackSeq (s.moved i q) = (windowUpdate seg ackSeq s).moved i q := by
  have hcw : cwindow (s.moved i q) seg = cwindow s seg := rfl
  unfold windowUpdate
  rw [hcw]
  unfold Stream.moved
  dsimp only
  split
  · rfl
  · rfl

theorem countDup_moved (dup : Bool) (ackSeq : U32) (s : Stream ρ) (i : ℤ) (q : Flow) :
    countDup dup ackSeq (s.moved i q) = (countDup dup ackSeq s).moved i q := by
  cases dup with
  | false => rfl
  | true => rfl

theorem processAck_alike (h : c.Like q c') (seg : Segment) (curTs : U32) :
    Alike (Conn.Like q) (processAck c seg curTs) (processAck c' seg curTs) := by
  have hbuf : c'.stream.snd.sndbuf = c.stream.snd.sndbuf :=
    h.read (fun s => s.snd.sndbuf) fun _ _ _ => rfl
  have hedge : rightWndEdge c'.stream = rightWndEdge c.stream :=
    h.read rightWndEdge fun _ _ _ => rfl
  have hack : ackSeqOf c'.stream seg.ackSeq = ackSeqOf c.stream seg.ackSeq :=
    h.read (fun s => ackSeqOf s seg.ackSeq) fun _ _ _ => rfl
  unfold processAck
  rw [hbuf, hedge, hack]
  generalize ackSeqOf c.stream seg.ackSeq = ack
  cases c.stream.snd.sndbuf with
  | none => exact rfl
  | some buf =>
    refine Alike.ite Iff.rfl (fun _ => h) fun _ => ?_
    -- the window update, the count of duplicates and their answer
    have hwin := h.mod (windowUpdate_moved seg ack)
    have hdup : isDup (c'.mod (windowUpdate seg ack)).stream ack seg.payloadlen (rightWndEdge c.stream) =
        isDup (c.mod (windowUpdate seg ack)).stream ack seg.payloadlen (rightWndEdge c.stream) :=
      hwin.read (fun s => isDup s ack seg.payloadlen (rightWndEdge c.stream)) fun _ _ _ => rfl
    dsimp only
    rw [hdup]
    have hcount := hwin.mod (countDup_moved (isDup (c.mod (windowUpdate seg ack)).stream ack
      seg.payloadlen (rightWndEdge c.stream)) ack)
    refine Alike.bind (answerDup_alike hcount _ ack) fun d d' hd => ?_
    have hraise := raiseSndNxt_alike hd buf ack
    exact Alike.ite Iff.rfl (fun _ => hraise) fun _ => ackRemove_alike hraise buf ack curTs

/-- What `cmt_tcp_parse_options` stores does not depend on the bucket. -/
theorem parseOptionsLoop_moved {opt : ℕ → U8} {len : ℕ} {curTs : U32} (fuel j : ℕ)
    (s : Stream ρ) (i : ℤ) (q : Flow) :
    parseOptionsLoop opt len curTs fuel j (s.moved i q) =
      (parseOptionsLoop opt len curTs fuel j s).map fun t => t.moved i q := by
  induction fuel generalizing j s with
  | zero => rfl
  | succ fuel ih =>
    by_cases hstop : OptionsStop opt len j
    · rw [parseOptionsLoop_stop hstop, parseOptionsLoop_stop hstop]
      rfl
    · have heff : optionEffect opt curTs j (s.moved i q) =
          (optionEffect opt curTs j s).moved i q := by
        unfold optionEffect
        repeat' split
        all_goals rfl
      rw [parseOptionsLoop_next hstop, parseOptionsLoop_next hstop, heff]
      exact ih _ _

theorem parseOptions_alike (h : c.Like q c') (curTs : U32) (seg : Segment) :
    Alike (Conn.Like q) (parseOptions c curTs seg) (parseOptions c' curTs seg) := by
  obtain ⟨i, hs, hi⟩ := h
  unfold parseOptions
  rw [hs, parseOptionsLoop_moved]
  cases hloop : parseOptionsLoop seg.opt seg.optlen curTs (seg.optlen + 1) 0 c.stream with
  | none => exact rfl
  | some t =>
    have hidx : t.onRtoIdx = c.stream.onRtoIdx := by
      rw [parseOptionsLoop_negotiated hloop]
    rw [← hidx] at hi
    exact Conn.Like.of_eq i rfl hi

end Ack

/-! ### The handlers -/

section Handlers

variable {P : Parts ρ} {c c' : Conn ρ}

/-- What the two tests of a segment say, and what they leave. -/
def Conn.LikeTest (q : Flow) (r r' : Conn ρ × Bool) : Prop := r.1.Like q r'.1 ∧ r'.2 = r.2

theorem validTimestamp_alike (h : c.Like q c') (a : Arrival ρ) :
    (validTimestamp c a = none ∧ validTimestamp c' a = none) ∨
      ∃ d d', validTimestamp c a = some d ∧ validTimestamp c' a = some d' ∧ d.Like q d' := by
  refine h.elim fun tcp tcp' s log log' i hi => ?_
  unfold validTimestamp
  dsimp only
  split
  · split
    · exact .inl ⟨rfl, rfl⟩
    · next tsVal tsRef _ =>
      refine .inr ?_
      split
      · exact ⟨_, _, rfl, rfl, enqueueAcklist_alike (.of_eq i rfl hi) .now⟩
      · refine ⟨_, _, rfl, rfl, Conn.Like.modRcv ?_⟩
        split
        · exact .of_eq i rfl hi
        · exact .of_eq i rfl hi
  · exact .inr ⟨_, _, rfl, rfl, .of_eq i rfl hi⟩

theorem validseq_alike (h : c.Like q c') (a : Arrival ρ) :
    Conn.LikeTest q (validseq c a) (validseq c' a) := by
  unfold validseq
  rcases validTimestamp_alike h a with ⟨hts, hts'⟩ | ⟨d, d', hts, hts', hd⟩
  · rw [hts, hts']
    exact ⟨h, rfl⟩
  rw [hts, hts']
  refine hd.elim fun tcp tcp' s log log' i hi => ?_
  dsimp only
  split
  · exact ⟨.of_eq i rfl hi, rfl⟩
  split
  · exact ⟨.of_eq i rfl hi, rfl⟩
  split
  · split
    · exact ⟨enqueueAcklist_alike (.of_eq i rfl hi) .aggregate, rfl⟩
    split
    · exact ⟨enqueueAcklist_alike (.of_eq i rfl hi) .aggregate, rfl⟩
    · exact ⟨enqueueAcklist_alike (.of_eq i rfl hi) .now, rfl⟩
  · refine ⟨addtoControllist_alike ?_, rfl⟩
    split
    · exact addToTimewaitList_alike (.of_eq i rfl hi) a.ts
    · exact .of_eq i rfl hi

theorem processPayload_alike (h : c.Like q c') (a : Arrival ρ) :
    Alike (fun r r' => r.1.Like q r'.1 ∧ r'.2 = r.2) (processPayload P c a) (processPayload P c' a) := by
  have hbuf : recvbufFor c'.stream a = recvbufFor c.stream a :=
    h.read (fun s => recvbufFor s a) fun _ _ _ => rfl
  revert hbuf
  refine h.elim fun tcp tcp' s log log' i hi hbuf => ?_
  unfold processPayload
  dsimp only at hbuf ⊢
  rw [hbuf]
  refine Alike.ite Iff.rfl (fun _ => ⟨.of_eq i rfl hi, rfl⟩) fun _ => ?_
  refine Alike.ite Iff.rfl (fun _ => ⟨.of_eq i rfl hi, rfl⟩) fun _ => ?_
  split
  · exact ⟨.of_eq i rfl hi, rfl⟩
  · next buf _ =>
    -- the buffer stops in both runs, or in neither
    cases putPayload P.recv s.state buf a.seg with
    | error e => exact rfl
    | ok buf' => exact ⟨.of_eq i rfl hi, rfl⟩

theorem receivePayload_alike (h : c.Like q c') (a : Arrival ρ) :
    Alike (Conn.Like q) (receivePayload P c a) (receivePayload P c' a) := by
  unfold receivePayload
  refine Alike.ite Iff.rfl (fun _ => ?_) fun _ => h
  refine Alike.bind (processPayload_alike h a) fun r r' ⟨hpay, hret⟩ => ?_
  rw [hret]
  exact enqueueAcklist_alike hpay _

theorem receiveAck_alike (h : c.Like q c') (a : Arrival ρ) :
    Alike (Conn.Like q) (receiveAck c a) (receiveAck c' a) := by
  refine h.elim fun tcp tcp' s log log' i hi => ?_
  unfold receiveAck
  exact Alike.ite Iff.rfl (fun _ => processAck_alike (.of_eq i rfl hi) a.seg a.ts) fun _ =>
    Conn.Like.of_eq i rfl hi

theorem processRst_alike (h : c.Like q c') (ackSeq : U32) :
    Conn.LikeTest q (processRst c ackSeq) (processRst c' ackSeq) := by
  refine h.elim fun tcp tcp' s log log' i hi => ?_
  unfold processRst
  dsimp only
  split
  · exact ⟨.of_eq i rfl hi, rfl⟩
  split
  · refine ⟨?_, rfl⟩
    dsimp only
    split
    · exact .of_eq i rfl hi
    · exact .of_eq i rfl hi
  split
  · exact ⟨.of_eq i rfl hi, rfl⟩
  split
  · exact ⟨.of_eq i rfl hi, rfl⟩
  · exact ⟨.of_eq i rfl hi, rfl⟩

theorem activeOpen_alike (h : c.Like q c') (a : Arrival ρ) :
    Alike (Conn.Like q) (activeOpen c a) (activeOpen c' a) := by
  refine h.elim fun tcp tcp' s log log' i hi => ?_
  unfold activeOpen
  refine Alike.bind (parseOptions_alike (.of_eq i rfl hi) a.ts a.seg) fun d d' hd => ?_
  exact updateRetransmissionTimer_alike hd.modSnd a.ts

theorem handleListen_alike (h : c.Like q c') (a : Arrival ρ) :
    Alike (Conn.Like q) (handleListen c a) (handleListen c' a) := by
  refine h.elim fun tcp tcp' s log log' i hi => ?_
  unfold handleListen
  refine Alike.ite Iff.rfl (fun _ => ?_) fun _ => rfl
  refine addtoControllist_alike (Conn.Like.setState ?_ .synRcvd)
  dsimp only
  split
  · exact .of_eq i rfl hi
  · exact .of_eq i rfl hi

theorem synSentOpen_alike (h : c.Like q c') (a : Arrival ρ) :
    Alike (Conn.Like q) (synSentOpen c a) (synSentOpen c' a) := by
  unfold synSentOpen
  refine Alike.bind (activeOpen_alike h a) fun d d' hd => ?_
  have hopen := Conn.Like.setState (removeFromRtoList_alike (Conn.Like.mod
    (f := fun s => { s with rcvNxt := s.rcv.irs + 1 })
    (Conn.Like.modSnd (f := fun snd => { snd with nrtx := 0 }) hd) fun _ _ _ => rfl)) .established
  refine addToTimeoutList_alike (addtoControllist_alike ?_)
  refine hopen.elim fun tcp tcp' s log log' i hi => ?_
  dsimp only
  split
  · exact .of_eq i rfl hi
  · exact .of_eq i rfl hi

theorem handleSynSent_alike (h : c.Like q c') (a : Arrival ρ) :
    Alike (Conn.Like q) (handleSynSent c a) (handleSynSent c' a) := by
  have href : synSentRefuses c'.stream a.seg = synSentRefuses c.stream a.seg :=
    h.read (fun s => synSentRefuses s a.seg) fun _ _ _ => rfl
  -- the acknowledgement of our SYN
  have hack : Conn.Like q
      (if a.seg.ack then c.modSnd fun snd => { snd with sndUna := snd.sndUna + 1 } else c)
      (if a.seg.ack then c'.modSnd fun snd => { snd with sndUna := snd.sndUna + 1 } else c') := by
    split
    · exact h.modSnd
    · exact h
  unfold handleSynSent
  refine Alike.ite (by rw [href]) (fun _ => h) fun _ => ?_
  refine Alike.ite Iff.rfl (fun _ => ?_) fun _ => Alike.ite Iff.rfl (fun _ => ?_) fun _ => ?_
  · exact (hack.close .closeWait .reset).unattached
  · exact synSentOpen_alike hack a
  · exact addtoControllist_alike ((hack.setState .synRcvd).mod
      (f := fun s => { s with sndNxt := s.snd.iss }) fun _ _ _ => rfl)

theorem synRcvdOpen_alike (h : c.Like q c') (a : Arrival ρ) :
    Alike (Conn.Like q) (synRcvdOpen c a) (synRcvdOpen c' a) := by
  have hacked : (c.synRcvdAcked a).Like q (c'.synRcvdAcked a) :=
    h.elim fun _ _ _ _ _ i hi => .of_eq i rfl hi
  have hopen := (removeFromRtoList_alike hacked).setState .established
  rw [synRcvdOpen_eq, synRcvdOpen_eq]
  cases a.listener with
  | none => exact rfl
  | some listener =>
    refine Alike.ite Iff.rfl (fun _ => ?_) fun _ => addToTimeoutList_alike hopen
    exact addToTimeoutList_alike (addtoControllist_alike
      ((hopen.mod (f := fun s => { s with closeReason := .notAccepted })
        fun _ _ _ => rfl).setState .closed))

theorem handleSynRcvd_alike (h : c.Like q c') (a : Arrival ρ) :
    Alike (Conn.Like q) (handleSynRcvd c a) (handleSynRcvd c' a) := by
  refine h.elim fun tcp tcp' s log log' i hi => ?_
  unfold handleSynRcvd
  refine Alike.ite Iff.rfl (fun _ => ?_) fun _ => addtoControllist_alike (.of_eq i rfl hi)
  exact Alike.ite Iff.rfl (fun _ => rfl) fun _ => synRcvdOpen_alike (.of_eq i rfl hi) a

theorem establishedAck_alike (h : c.Like q c') (a : Arrival ρ) :
    Alike (Conn.Like q) (establishedAck c a) (establishedAck c' a) := by
  unfold establishedAck
  exact Alike.ite Iff.rfl (fun _ => receiveAck_alike h a) fun _ => h

theorem establishedFin_alike (h : c.Like q c') (a : Arrival ρ) :
    (establishedFin c a).Like q (establishedFin c' a) := by
  refine h.elim fun tcp tcp' s log log' i hi => ?_
  unfold establishedFin
  dsimp only
  split
  · split
    · exact addtoControllist_alike (.of_eq i rfl hi)
    · exact enqueueAcklist_alike (.of_eq i rfl hi) .now
  · exact .of_eq i rfl hi

theorem handleEstablished_alike (h : c.Like q c') (a : Arrival ρ) :
    Alike (Conn.Like q) (handleEstablished P c a) (handleEstablished P c' a) := by
  unfold handleEstablished
  refine Alike.ite Iff.rfl (fun _ => ?_) fun _ => ?_
  · exact addtoControllist_alike (h.mod (f := fun s => { s with sndNxt := a.seg.ackSeq }) fun _ _ _ => rfl)
  · refine Alike.bind (receivePayload_alike h a) fun e e' he => ?_
    refine Alike.bind (establishedAck_alike he a) fun d d' hd => ?_
    exact establishedFin_alike hd a

theorem handleLastAck_alike (h : c.Like q c') (a : Arrival ρ) :
    Alike (Conn.Like q) (handleLastAck c a) (handleLastAck c' a) := by
  refine h.elim fun tcp tcp' s log log' i hi => ?_
  unfold handleLastAck
  refine Alike.ite Iff.rfl (fun _ => Conn.Like.of_eq i rfl hi) fun _ => ?_
  refine Alike.ite Iff.rfl (fun _ => ?_) fun _ => addtoControllist_alike (.of_eq i rfl hi)
  refine Alike.bind (receiveAck_alike (.of_eq i rfl hi) a) fun d d' hd => ?_
  refine hd.elim fun tcp tcp' s log log' i hi => ?_
  refine Alike.ite Iff.rfl (fun _ => Conn.Like.of_eq i rfl hi) fun _ => ?_
  refine Alike.ite Iff.rfl (fun _ => ?_) fun _ => addtoControllist_alike (.of_eq i rfl hi)
  refine Alike.bind (updateRetransmissionTimer_alike (.of_eq i rfl hi) a.ts) fun e e' he => ?_
  exact (he.close .closed .passiveClose).streamDestroy

theorem finAcked_alike (h : c.Like q c') (seg : Segment) : (finAcked c seg).Like q (finAcked c' seg) := by
  refine h.elim fun tcp tcp' s log log' i hi => ?_
  unfold finAcked
  dsimp only
  split
  · exact (removeFromRtoList_alike (.of_eq i rfl hi)).setState .finWait2
  · exact .of_eq i rfl hi

theorem finWait1Fin_alike (h : c.Like q c') (a : Arrival ρ) :
    Alike (Conn.Like q) (finWait1Fin c a) (finWait1Fin c' a) := by
  have hfin := h.takeFin a.seg
  have hstate : (c'.takeFin a.seg).stream.state = (c.takeFin a.seg).stream.state :=
    hfin.read (fun s => s.state) fun _ _ _ => rfl
  unfold finWait1Fin
  dsimp only
  rw [hstate]
  refine Alike.ite Iff.rfl (fun _ => addtoControllist_alike (hfin.setState .closing)) fun _ => ?_
  refine Alike.ite Iff.rfl (fun _ => ?_) fun _ => rfl
  exact addtoControllist_alike (addToTimewaitList_alike (hfin.setState .timeWait) a.ts)

theorem handleFinWait1_alike (h : c.Like q c') (a : Arrival ρ) :
    Alike (Conn.Like q) (handleFinWait1 P c a) (handleFinWait1 P c' a) := by
  refine h.elim fun tcp tcp' s log log' i hi => ?_
  unfold handleFinWait1
  refine Alike.ite Iff.rfl (fun _ => addtoControllist_alike (.of_eq i rfl hi)) fun _ => ?_
  refine Alike.ite Iff.rfl (fun _ => ?_) fun _ => Conn.Like.of_eq i rfl hi
  refine Alike.bind (receiveAck_alike (.of_eq i rfl hi) a) fun d d' hd => ?_
  refine Alike.bind (receivePayload_alike (finAcked_alike hd a.seg) a) fun e e' hpay => ?_
  have hnxt := hpay.read (fun s => s.rcvNxt) fun _ _ _ => rfl
  refine Alike.ite ?_ (fun _ => finWait1Fin_alike hpay a) fun _ => hpay
  rw [hnxt]

theorem handleFinWait2_alike (h : c.Like q c') (a : Arrival ρ) :
    Alike (Conn.Like q) (handleFinWait2 P c a) (handleFinWait2 P c' a) := by
  unfold handleFinWait2
  refine Alike.ite Iff.rfl (fun _ => ?_) fun _ => h
  refine Alike.bind (receiveAck_alike h a) fun d d' hd => ?_
  refine Alike.bind (receivePayload_alike hd a) fun e e' hpay => ?_
  have hnxt := hpay.read (fun s => s.rcvNxt) fun _ _ _ => rfl
  refine Alike.ite ?_ (fun _ => ?_) fun _ => hpay
  · rw [hnxt]
  · exact addtoControllist_alike
      (addToTimewaitList_alike ((hpay.setState .timeWait).takeFin a.seg) a.ts)

theorem handleClosing_alike (h : c.Like q c') (a : Arrival ρ) :
    Alike (Conn.Like q) (handleClosing c a) (handleClosing c' a) := by
  unfold handleClosing
  refine Alike.ite Iff.rfl (fun _ => ?_) fun _ => h
  refine Alike.bind (receiveAck_alike h a) fun d d' hd => ?_
  refine hd.elim fun tcp tcp' s log log' i hi => ?_
  refine Alike.ite Iff.rfl (fun _ => Conn.Like.of_eq i rfl hi) fun _ => ?_
  refine Alike.ite Iff.rfl (fun _ => Conn.Like.of_eq i rfl hi) fun _ => ?_
  refine Alike.bind (updateRetransmissionTimer_alike (.of_eq i rfl hi) a.ts) fun e e' he => ?_
  exact addToTimewaitList_alike (he.setState .timeWait) a.ts

theorem handleTimeWait_alike (h : c.Like q c') (a : Arrival ρ) :
    Alike (Conn.Like q) (handleTimeWait c a) (handleTimeWait c' a) := by
  refine h.elim fun tcp tcp' s log log' i hi => ?_
  unfold handleTimeWait
  refine Alike.ite Iff.rfl (fun _ => ?_) fun _ => addtoControllist_alike (.of_eq i rfl hi)
  refine Alike.bind (removeFromTimewaitList_alike (.of_eq i rfl hi)) fun d d' hd => ?_
  exact addtoControllist_alike (addToTimewaitList_alike hd a.ts)

theorem handleSynRcvdData_alike (h : c.Like q c') (a : Arrival ρ) :
    Alike (Conn.Like q) (handleSynRcvdData P c a) (handleSynRcvdData P c' a) := by
  refine h.elim fun tcp tcp' s log log' i hi => ?_
  unfold handleSynRcvdData
  refine Alike.ite Iff.rfl (fun _ => handleListen_alike (.of_eq i rfl hi) a) fun _ => ?_
  refine Alike.bind (handleSynRcvd_alike (.of_eq i rfl hi) a) fun d d' hd => ?_
  refine hd.elim fun tcp tcp' s log log' i hi => ?_
  exact Alike.ite Iff.rfl (fun _ => handleEstablished_alike (.of_eq i rfl hi) a) fun _ =>
    Conn.Like.of_eq i rfl hi

end Handlers

/-! ### A segment -/

/-- The handler for `CLOSE_WAIT`, too, does to the stream what depends on the stream alone. -/
def Parts.CloseWaitAlike (P : Parts ρ) : Prop :=
  ∀ q c c' a, c.Like q c' → Alike (Conn.Like q) (P.handleCloseWait c a) (P.handleCloseWait c' a)

section Segment

variable {P : Parts ρ} {c c' : Conn ρ}

theorem dispatch_alike (hP : P.CloseWaitAlike) (h : c.Like q c') (a : Arrival ρ) :
    Alike (Conn.Like q) (dispatch P c a) (dispatch P c' a) := by
  have hstate : c'.stream.state = c.stream.state := h.read (fun s => s.state) fun _ _ _ => rfl
  unfold dispatch
  rw [hstate]
  cases c.stream.state with
  | listen => exact handleListen_alike h a
  | synSent => exact handleSynSent_alike h a
  | synRcvd => exact handleSynRcvdData_alike h a
  | established => exact handleEstablished_alike h a
  | closeWait => exact hP q c c' a h
  | lastAck => exact handleLastAck_alike h a
  | finWait1 => exact handleFinWait1_alike h a
  | finWait2 => exact handleFinWait2_alike h a
  | closing => exact handleClosing_alike h a
  | timeWait => exact handleTimeWait_alike h a
  | closed => exact h

theorem noteArrival_alike (h : c.Like q c') (a : Arrival ρ) :
    (noteArrival c a).Like q (noteArrival c' a) :=
  updateTimeoutList_alike (h.mod (f := fun s =>
    { s with snd := { s.snd with peerWnd := cwindow s a.seg }, lastActiveTs := a.ts }) fun _ _ _ => rfl)

theorem processAccepted_alike (hP : P.CloseWaitAlike) (h : c.Like q c') (a : Arrival ρ) :
    Alike (Conn.Like q) (processAccepted P c a) (processAccepted P c' a) := by
  have hnote := noteArrival_alike h a
  unfold processAccepted
  refine Alike.ite Iff.rfl (fun _ => ?_) fun _ => dispatch_alike hP hnote a
  have hreset := hnote.mod (f := fun s => { s with haveReset := true }) fun _ _ _ => rfl
  obtain ⟨hrst, hret⟩ := processRst_alike hreset a.seg.ackSeq
  have hstate := hreset.read (fun s => s.state) fun _ _ _ => rfl
  dsimp only at hstate ⊢
  refine Alike.ite ?_ (fun _ => hrst) fun _ => dispatch_alike hP hreset a
  rw [hret, hstate]

/-- **What a segment does to its stream depends on the stream and the segment.** -/
theorem processStream_alike (hP : P.CloseWaitAlike) (h : c.Like q c') (a : Arrival ρ) :
    Alike (Conn.Like q) (processStream P c a) (processStream P c' a) := by
  have hstate : c'.stream.state = c.stream.state := h.read (fun s => s.state) fun _ _ _ => rfl
  obtain ⟨hval, hret⟩ := validseq_alike h a
  unfold processStream
  rw [hstate]
  refine Alike.ite Iff.rfl (fun _ => ?_) fun _ => processAccepted_alike hP h a
  dsimp only
  rw [hret]
  exact Alike.ite Iff.rfl (fun _ => processAccepted_alike hP hval a) fun _ => hval

end Segment

theorem inOrderParts_closeWaitAlike : inOrderParts.CloseWaitAlike :=
  fun _ _ _ a h => receiveAck_alike h a

end CmtTcp
