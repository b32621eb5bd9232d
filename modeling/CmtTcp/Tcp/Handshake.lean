import CmtTcp.Tcp.Opening

/-!
# The opening handshake

In every run of received segments, from no stream at all or from an actively opened one, a stream that
becomes `ESTABLISHED` is `Opened`: a SYN of the peer was received, `irs` is its number, and both sequence
spaces start one past the initial numbers (`handshake_safe`). `HandshakeInv` carries this through the states
of the handshake.

The run has to keep to `RegularSyn`. In `SYN_SENT`, `cmt_tcp_handle_syn_sent` sends the stream on to
`SYN_RCVD` for every segment it does not recognise, whether it has a SYN or not, counts an acknowledgement
in `snd_una` that `cmt_tcp_handle_syn_rcvd` counts again, and never records the number of a bare SYN. Two
acknowledgements without SYN establish a connection (`acks_alone_establish`).
-/

namespace CmtTcp

open Lib (Outcome Run Guarded)

variable {ρ : Type}

/-- Along the run a SYN with the number `irs` was received. -/
def SynSeen (ls : List (Label ρ)) (irs : U32) : Prop :=
  ∃ a, .segment a ∈ ls ∧ a.seg.syn ∧ a.seg.seq = irs

/-- What a stream that becomes `ESTABLISHED` at the end of `ls` should look like. -/
structure Opened (ls : List (Label ρ)) (s : Stream ρ) : Prop where
  syn : SynSeen ls s.rcv.irs
  rcvNxt : s.rcvNxt = s.rcv.irs + 1
  sndUna : s.snd.sndUna = s.snd.iss + 1
  sndNxt : s.sndNxt = s.snd.iss + 1

/-- In `SYN_SENT`, a segment that is neither refused nor a reset has a SYN, and an ACK as well, unless its
number is the `irs` the stream holds already. -/
def RegularSyn (w : World ρ) : Label ρ → Prop
  | .segment a =>
    ∀ s, w.stream = some s → s.state = .synSent → a.seg.check = 0 → ¬synSentRefuses s a.seg →
      ¬(a.seg.rst ∧ a.seg.ack) → a.seg.syn ∧ (a.seg.ack ∨ a.seg.seq = s.rcv.irs)
  | .endpoint _ _ => True

/-- What holds along a run of received segments: every entry into `ESTABLISHED` was as it should be, and
a stream on its way there has the numbers it needs. -/
structure HandshakeInv (ls : List (Label ρ)) (w : World ρ) : Prop where
  opened : ∀ s ∈ opens w.log, Opened ls s
  listen : ∀ s, w.stream = some s → s.state ≠ .listen
  synSent : ∀ s, w.stream = some s → s.state = .synSent →
    s.snd.sndUna = s.snd.iss ∧ s.sndNxt = s.snd.iss + 1
  synRcvd : ∀ s, w.stream = some s → s.state = .synRcvd →
    SynSeen ls s.rcv.irs ∧ s.snd.sndUna = s.snd.iss

section Inv

variable {P : Parts ρ} {w w' : World ρ} {ls : List (Label ρ)} {l : Label ρ} {s : Stream ρ}
  {c c' : Conn ρ} {a : Arrival ρ} {irs : U32}

theorem SynSeen.snoc (h : SynSeen ls irs) (l : Label ρ) : SynSeen (ls ++ [l]) irs := by
  obtain ⟨a, hmem, hsyn, hseq⟩ := h
  exact ⟨a, List.mem_append_left _ hmem, hsyn, hseq⟩

theorem synSeen_last (hsyn : a.seg.syn) (ls : List (Label ρ)) :
    SynSeen (ls ++ [.segment a]) a.seg.seq :=
  ⟨a, List.mem_append_right _ (List.mem_singleton_self _), hsyn, rfl⟩

theorem Opened.snoc (h : Opened ls s) (l : Label ρ) : Opened (ls ++ [l]) s :=
  ⟨h.syn.snoc l, h.rcvNxt, h.sndUna, h.sndNxt⟩

theorem HandshakeInv.snoc (h : HandshakeInv ls w) (l : Label ρ) : HandshakeInv (ls ++ [l]) w where
  opened := fun s hs => (h.opened s hs).snoc l
  listen := h.listen
  synSent := h.synSent
  synRcvd := fun s hs hst => ⟨(h.synRcvd s hs hst).1.snoc l, (h.synRcvd s hs hst).2⟩

/-- The invariant of a world that a connection leaves behind. -/
theorem HandshakeInv.of_conn (hopened : ∀ s ∈ opens c'.log, Opened ls s)
    (hlisten : c'.stream.state ≠ .listen)
    (hsent : c'.stream.state = .synSent →
      c'.stream.snd.sndUna = c'.stream.snd.iss ∧ c'.stream.sndNxt = c'.stream.snd.iss + 1)
    (hrcvd : c'.stream.state = .synRcvd →
      SynSeen ls c'.stream.rcv.irs ∧ c'.stream.snd.sndUna = c'.stream.snd.iss) :
    HandshakeInv ls c'.toWorld where
  opened := hopened
  listen := by
    intro s hs
    obtain rfl : c'.stream = s := Option.some.inj hs
    exact hlisten
  synSent := by
    intro s hs
    obtain rfl : c'.stream = s := Option.some.inj hs
    exact hsent
  synRcvd := by
    intro s hs
    obtain rfl : c'.stream = s := Option.some.inj hs
    exact hrcvd

/-- The handshake is over. -/
theorem HandshakeInv.of_done (hopened : ∀ s ∈ opens c'.log, Opened ls s)
    (hdone : ¬c'.stream.state.Handshake) : HandshakeInv ls c'.toWorld := by
  refine .of_conn hopened (fun hst => ?_) (fun hst => ?_) fun hst => ?_
  · exact hdone (.inl hst)
  · exact absurd (.inr (.inl hst)) hdone
  · exact absurd (.inr (.inr hst)) hdone

theorem HandshakeInv.of_past (hopened : ∀ s ∈ opens c.log, Opened ls s) (h : c.Past c') :
    HandshakeInv ls c'.toWorld :=
  .of_done (by rw [h.opens_eq]; exact hopened) h.done

/-- The stream waits in `SYN_RCVD` for the acknowledgement of our SYN. -/
theorem HandshakeInv.of_waits (hopened : ∀ s ∈ opens c.log, Opened ls s) (h : c.Waits c')
    (hsyn : SynSeen ls c.stream.rcv.irs) (huna : c'.stream.snd.sndUna = c.stream.snd.iss) :
    HandshakeInv ls c'.toWorld := by
  have hst := h.state
  refine .of_conn ?_ (by rw [hst]; decide) (fun hsent => ?_) fun _ => ⟨?_, huna.trans h.iss.symm⟩
  · rw [h.opens_eq]
    exact hopened
  · rw [hst] at hsent
    cases hsent
  · rw [h.irs]
    exact hsyn

/-- The stream enters `ESTABLISHED`. -/
theorem HandshakeInv.of_opens {ready : Prop} (hopened : ∀ s ∈ opens c.log, Opened ls s)
    (h : c.Opens c' ready irs) (hready : ready) (hsyn : SynSeen ls irs) :
    HandshakeInv ls c'.toWorld := by
  obtain ⟨hdone, s, hs, hat⟩ := h
  refine .of_done (fun t ht => ?_) hdone
  rw [hs] at ht
  rcases List.mem_append.mp ht with ht | ht
  · exact hopened t ht
  · obtain rfl : t = s := List.mem_singleton.mp ht
    have hat' := hat hready
    exact ⟨by rw [hat'.irs_eq]; exact hsyn, hat'.rcvNxt, hat'.sndUna, hat'.sndNxt⟩

/-- An acknowledgement that is not refused in `SYN_SENT` acknowledges our SYN. -/
theorem ackSeq_of_not_refused {seg : Segment} (hnxt : s.sndNxt = s.snd.iss + 1) (hack : seg.ack)
    (href : ¬synSentRefuses s seg) : seg.ackSeq = s.snd.iss + 1 := by
  unfold synSentRefuses at href
  simp only [hack, Bool.true_and, Bool.or_eq_true, not_or] at href
  have hlow := mt tcpSeqLeq_iff.mpr href.1
  have hhigh := mt tcpSeqGt_iff.mpr href.2
  rw [hnxt] at hhigh
  -- above `iss` and at most `iss + 1`
  bv_omega

/-- A new stream. -/
theorem handshakeInv_created (h : HandshakeInv ls w) (hfind : createStream w.tcp w.log a = .ok (some c))
    (hproc : processStream P c a = .ok c') : HandshakeInv (ls ++ [.segment a]) c'.toWorld := by
  obtain ⟨hsyn, hst, hirs, huna, hopens⟩ :=
    (createStream_outcome w.tcp w.log a).of_ok hfind c rfl
  have hopened : ∀ s ∈ opens c.log, Opened (ls ++ [.segment a]) s := by
    rw [hopens]
    exact fun s hs => (h.opened s hs).snoc _
  rcases hst with hst | hst
  · -- the SYN takes the new stream to `SYN_RCVD` in the same call
    obtain ⟨hw, huna'⟩ := (listen_outcome hst hsyn).of_ok hproc
    refine .of_waits hopened hw ?_ (huna'.trans huna)
    rw [hirs]
    exact synSeen_last hsyn ls
  · -- there was no receive buffer
    have hsteady := (closed_outcome hst).of_ok hproc
    exact .of_past hopened (.of_steady (by rw [hst]; decide) hsteady)

/-- A segment for the stream in the flow table. -/
theorem handshakeInv_found (hP : P.CloseWaitSteady) (h : HandshakeInv ls w)
    (hw : w.stream = some c.stream) (hlog : c.log = w.log)
    (hreg : c.stream.state = .synSent → ¬synSentRefuses c.stream a.seg →
      ¬(a.seg.rst ∧ a.seg.ack) → a.seg.syn ∧ (a.seg.ack ∨ a.seg.seq = c.stream.rcv.irs))
    (hproc : processStream P c a = .ok c') : HandshakeInv (ls ++ [.segment a]) c'.toWorld := by
  have hopened : ∀ s ∈ opens c.log, Opened (ls ++ [.segment a]) s := by
    rw [hlog]
    exact fun s hs => (h.opened s hs).snoc _
  by_cases hdone : c.stream.state.Handshake
  · rcases hdone with hst | hst | hst
    · exact absurd hst (h.listen _ hw)
    · obtain ⟨huna, hnxt⟩ := h.synSent _ hw hst
      rcases (synSent_outcome hst).of_ok hproc with hs | hp | ⟨hsyn, hack, href, ho⟩ | hsr
      · -- the segment was ignored
        have hst' := hs.steady.state.trans hst
        refine .of_conn ?_ (by rw [hst']; decide) (fun _ => ?_) fun hrcvd => ?_
        · rw [hs.steady.log]
          exact hopened
        · rw [hs.sndUna, hs.sndNxt, hs.steady.iss]
          exact ⟨huna, hnxt⟩
        · rw [hst'] at hrcvd
          cases hrcvd
      · exact .of_past hopened hp
      · exact .of_opens hopened ho ⟨ackSeq_of_not_refused hnxt hack href, huna⟩
          (synSeen_last hsyn ls)
      · -- what the segment may be here is what `RegularSyn` says: a bare SYN with the `irs` held
        obtain ⟨href, hra, hsa, hwaits, hkeep⟩ := hsr
        obtain ⟨hsyn, hor⟩ := hreg hst href hra
        have hna : ¬a.seg.ack := fun hack => hsa ⟨hsyn, hack⟩
        have hseq : a.seg.seq = c.stream.rcv.irs := hor.resolve_left hna
        refine .of_waits hopened hwaits ?_ ((hkeep hna).trans huna)
        rw [← hseq]
        exact synSeen_last hsyn ls
    · obtain ⟨hsyn, huna⟩ := h.synRcvd _ hw hst
      rcases (synRcvd_outcome hst).of_ok hproc with ⟨hwaits, hkeep⟩ | hp | ho
      · exact .of_waits hopened hwaits (hsyn.snoc _) (hkeep.trans huna)
      · exact .of_past hopened hp
      · exact .of_opens hopened ho huna (hsyn.snoc _)
  · exact .of_past hopened ((past_outcome hP hdone).of_ok hproc)

/-- Every received segment that keeps to `RegularSyn` keeps the invariant. -/
theorem HandshakeInv.step (hP : P.CloseWaitSteady) (h : HandshakeInv ls w)
    (hstep : Guarded RegularSyn (Step P fun _ _ => False) w l w') : HandshakeInv (ls ++ [l]) w' := by
  obtain ⟨hreg, hstep⟩ := hstep
  cases hstep with
  | endpoint _ hfalse => exact hfalse.elim
  | @segment _ a ret hcall =>
    rcases process_checked hcall with rfl | hcheck
    · exact h.snoc _
    rcases process_ok hcall with rfl | ⟨c, c', hfind, hproc, rfl⟩
    · exact h.snoc _
    · unfold findStream at hfind
      cases hs : w.stream with
      | none =>
        rw [hs] at hfind
        exact handshakeInv_created h hfind hproc
      | some s =>
        rw [hs] at hfind
        cases hfind
        have hs' := hreg s hs
        exact handshakeInv_found (c := { tcp := w.tcp, stream := s, log := w.log }) hP h hs rfl
          (fun hst => hs' hst hcheck) hproc

end Inv

/-! ### Runs -/

theorem handshakeInv_start {w₀ : World ρ} (hlog : w₀.log = [])
    (h₀ : w₀.stream = none ∨ ∃ s, w₀.stream = some s ∧ ActivelyOpened s) : HandshakeInv [] w₀ where
  opened := by
    intro s hs
    rw [hlog] at hs
    cases hs
  listen := by
    intro s hs hst
    rw [(activelyOpened_of_start h₀ hs).fresh.1] at hst
    cases hst
  synSent := fun s hs _ => (activelyOpened_of_start h₀ hs).fresh.2
  synRcvd := by
    intro s hs hst
    rw [(activelyOpened_of_start h₀ hs).fresh.1] at hst
    cases hst

/-- **Handshake safety.** In every run of received segments that keeps to `RegularSyn`, whether it starts
without a stream or with an actively opened one, whatever enters `ESTABLISHED` does so with the SYN of
the peer received and recorded, and with both sequence spaces one past their initial numbers. -/
theorem handshake_safe (P : Parts ρ) (hP : P.CloseWaitSteady) (w₀ w : World ρ) (ls : List (Label ρ))
    (h₀ : w₀.stream = none ∨ ∃ s, w₀.stream = some s ∧ ActivelyOpened s) (hlog : w₀.log = [])
    (hrun : Run (Guarded RegularSyn (Step P fun _ _ => False)) w₀ ls w) :
    ∀ s ∈ opens w.log, Opened ls s :=
  (hrun.history_invariant HandshakeInv (handshakeInv_start hlog h₀)
    fun _ _ _ _ hinv hstep => hinv.step hP hstep).opened

/-! ### Two connections -/

/-- A segment without payload, on a listener that accepts; the pools hand out cleared objects, and the
initial sequence number drawn is `100`. -/
def openSegment (syn ack : Bool) (seq ackSeq : U32) : Arrival (U32 × U32) where
  seg := { (default : Segment) with
    ihl := 5, doff := 5, totLen := 40, daddr := 1, dest := 80, seq := seq, ackSeq := ackSeq
    syn := syn, ack := ack, window := 8192 }
  ts := 0
  listener := some { sinPort := 80, sinAddr := 1, enqueueRet := 0 }
  streamObj := some default
  sndObj := some default
  rcvObj := some default
  rand := 100
  recvGet := fun n => some (n, 0)

/-- Nothing is in the flow table. -/
def emptyWorld : World (U32 × U32) where
  tcp := default
  stream := none
  log := []

theorem inOrderParts_steady : inOrderParts.CloseWaitSteady := receiveAck_outcome

/-- A passive open, from the SYN to the acknowledgement. -/
theorem handshake_safe_passive :
    ∃ w ls, Run (Guarded RegularSyn (Step inOrderParts fun _ _ => False)) emptyWorld ls w ∧
      (opens w.log).length = 1 ∧ ∀ s ∈ opens w.log, Opened ls s := by
  have hsyn : Run (Guarded RegularSyn (Step inOrderParts fun _ _ => False)) emptyWorld
      [.segment (openSegment true false 7 0)] _ :=
    Run.single ⟨(fun s hs => by cases hs), .segment rfl⟩
  have hack : Run (Guarded RegularSyn (Step inOrderParts fun _ _ => False)) emptyWorld
      [.segment (openSegment true false 7 0), .segment (openSegment false true 8 101)] _ :=
    hsyn.snoc ⟨(fun s hs hst => by rw [← Option.some.inj hs] at hst; cases hst), .segment rfl⟩
  refine ⟨_, _, hack, rfl, ?_⟩
  exact handshake_safe inOrderParts inOrderParts_steady emptyWorld _ _ (.inl rfl) rfl hack

/-- The stream of an active open. -/
def activeStream : Stream (U32 × U32) :=
  match createTcpStream (openSegment false false 0 0) 1 80 2 81 with
  | some s => { s with state := .synSent, sndNxt := s.snd.iss + 1 }
  | none => default

theorem activeStream_opened : ActivelyOpened activeStream :=
  ⟨openSegment false false 0 0, 1, 80, 2, 81, _, rfl, rfl⟩

/-- Two acknowledgements without SYN take an active open to `ESTABLISHED`, with `snd_una` past
`snd_nxt`. -/
theorem acks_alone_establish :
    ¬∀ (w₀ w : World (U32 × U32)) (ls : List (Label (U32 × U32))),
      (w₀.stream = none ∨ ∃ s, w₀.stream = some s ∧ ActivelyOpened s) → w₀.log = [] →
      Run (Step inOrderParts fun _ _ => False) w₀ ls w → ∀ s ∈ opens w.log, Opened ls s := by
  intro h
  have hrun : Run (Step inOrderParts fun _ _ => False)
      { tcp := default, stream := some activeStream, log := [] }
      [.segment (openSegment false true 8 101), .segment (openSegment false true 8 101)] _ :=
    (Run.single (.segment rfl)).snoc (.segment rfl)
  have hopened := h _ _ _ (.inr ⟨activeStream, rfl, activeStream_opened⟩) rfl hrun _
    (List.mem_singleton_self _)
  exact absurd hopened.sndUna (by decide)

end CmtTcp
