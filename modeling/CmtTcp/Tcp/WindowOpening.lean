import CmtTcp.Tcp.RecvWindow
import CmtTcp.Tcp.Closed

/-!
# The window of a stream that opens

In every run of received segments, whatever enters `ESTABLISHED` is as `AtOpening` says: neither the
handlers of the handshake nor the options touch the window or the receive buffer, and both ways into
`ESTABLISHED` set `rcv_nxt` to one past `irs` (`opened_atOpening`).
-/

namespace CmtTcp

open Lib (Outcome Run Guarded)

theorem state_of_mem_opens {ρ : Type} {log : List (Event ρ)} {s : Stream ρ} (h : s ∈ opens log) :
    s.state = .established := by
  obtain ⟨e, -, he⟩ := List.mem_filterMap.mp h
  cases e with
  | entered t =>
    have he' : (if t.state = .established then some t else none) = some s := he
    by_cases hst : t.state = .established
    · rw [if_pos hst] at he'
      rwa [← Option.some.inj he']
    · rw [if_neg hst] at he'
      cases he'
  | finTaken _ _ _ => cases he
  | destroyed => cases he

/-- The stream has the initial window, and nothing has been put into its buffer; in `SYN_SENT`, where
`irs` is not known yet, it has none. -/
structure Stream.Unread (s : Stream Received) : Prop where
  rcvWnd : s.rcv.rcvWnd = tcpInitialWindow
  rcvbuf : ∀ r, s.rcv.rcvbuf = some r → r.New (s.rcv.irs + 1)
  synSent : s.state = .synSent → s.rcv.rcvbuf = none

/-- Every entry into `ESTABLISHED` so far was as it should be, and a stream on its way there is unread. -/
structure Conn.OpensUnread (c : Conn Received) : Prop where
  opened : ∀ s ∈ opens c.log, AtOpening s
  unread : c.stream.state.Handshake → c.stream.Unread

section Handlers

variable {P : Parts Received} {c c' : Conn Received} {a : Arrival Received}

theorem Stream.Unread.congr {s s' : Stream Received} (h : s.Unread)
    (hrecv : s'.recvView = s.recvView) (hirs : s'.rcv.irs = s.rcv.irs)
    (hst : s'.state = .synSent → s.state = .synSent) : s'.Unread := by
  have hbuf : s'.rcv.rcvbuf = s.rcv.rcvbuf := congrArg Prod.fst hrecv
  have hwnd : s'.rcv.rcvWnd = s.rcv.rcvWnd := congrArg Prod.snd hrecv
  refine ⟨hwnd.trans h.rcvWnd, ?_, fun hs => hbuf.trans (h.synSent (hst hs))⟩
  rw [hbuf, hirs]
  exact h.rcvbuf

/-- What changes neither session nor buffer. -/
theorem Conn.OpensUnread.steady (h : c.OpensUnread) (hs : c.Steady c') (hrecv : c.SameRecv c') :
    c'.OpensUnread where
  opened := by
    rw [hs.log]
    exact h.opened
  unread := by
    intro hst
    rw [hs.state] at hst
    exact (h.unread hst).congr hrecv hs.irs fun hs' => by rwa [hs.state] at hs'

theorem Conn.OpensUnread.scheduled (h : c.OpensUnread) (hs : c.Scheduled c') : c'.OpensUnread :=
  h.steady hs.steady hs.sameRecv

/-- The handshake is over. -/
theorem Conn.OpensUnread.past (h : c.OpensUnread) (hp : c.Past c') : c'.OpensUnread where
  opened := by
    rw [hp.opens_eq]
    exact h.opened
  unread := fun hst => absurd hst hp.done

/-- The stream waits in `SYN_RCVD`. -/
theorem Conn.OpensUnread.waits (h : c.OpensUnread) (hun : c.stream.Unread) (hrecv : c.SameRecv c')
    (hw : c.Waits c') : c'.OpensUnread where
  opened := by
    rw [hw.opens_eq]
    exact h.opened
  unread := by
    refine fun _ => hun.congr hrecv hw.irs fun hst => ?_
    rw [hw.state] at hst
    cases hst

/-- An unread stream enters `ESTABLISHED`. -/
theorem Conn.OpensUnread.established (h : c.OpensUnread) (hwnd : c.stream.rcv.rcvWnd = tcpInitialWindow)
    (hbuf : ∀ r, c.stream.rcv.rcvbuf = some r → r.New (c.stream.rcv.irs + 1))
    (hnxt : c.stream.rcvNxt = c.stream.rcv.irs + 1) : (c.setState .established).OpensUnread where
  opened := by
    intro s hs
    rw [opens_setState_established] at hs
    rcases List.mem_append.mp hs with hs | hs
    · exact h.opened s hs
    · obtain rfl := List.mem_singleton.mp hs
      exact ⟨hnxt, hwnd, hbuf⟩
  unread := fun hst => absurd hst (by decide : ¬TcpState.established.Handshake)

/-- The end of a handshake: `add_to_timeout_list` on an open stream, or on one that was refused. -/
theorem addToTimeoutList_opensUnread (h : c.OpensUnread) :
    Outcome (addToTimeoutList c) (fun _ => True) Conn.OpensUnread := by
  -- only the place on the timeout list changes
  refine (addToTimeoutList_outcome c).mono (fun _ _ => trivial) fun c' hc => ?_
  refine ⟨by rw [hc.2]; exact h.opened, ?_⟩
  rw [hc.1]
  exact fun hst => (h.unread hst).congr rfl rfl id

theorem activeOpen_sameRecv (c : Conn Received) (a : Arrival Received) :
    Outcome (activeOpen c a) (fun _ => True) c.SameRecv := by
  unfold activeOpen
  dsimp only
  refine Outcome.bind ((parseOptions_outcome _ a.ts a.seg).mono (fun _ _ => trivial) fun _ h => h)
    fun c₁ h₁ => ?_
  have hopt : c.SameRecv c₁ := by
    unfold Conn.SameRecv Stream.recvView
    rw [h₁.1]
    rfl
  refine (updateRetransmissionTimer_outcome _ a.ts).mono (fun _ _ => trivial) fun c₂ h₂ => ?_
  exact (hopt.trans rfl).trans h₂.sameRecv

/-- The SYN of the peer in `LISTEN`, or once more in `SYN_RCVD`. -/
theorem handleListen_opensUnread (h : c.OpensUnread) (hun : c.stream.Unread) :
    Outcome (handleListen c a) (fun _ => True) Conn.OpensUnread := by
  by_cases hsyn : a.seg.syn
  · have hout := @handleListen_outcome _ c a hsyn
    have hrecv : Outcome (handleListen c a) (fun _ => True) c.SameRecv := by
      unfold handleListen
      rw [if_pos hsyn, Outcome.ok_iff]
      refine Conn.SameRecv.trans ?_ (addtoControllist_scheduled _).sameRecv
      split
      · exact rfl
      · exact rfl
    cases hr : handleListen c a with
    | error _ => exact trivial
    | ok c' =>
      obtain ⟨hst, hirs, hiss, -, hopens⟩ := hout.of_ok hr
      exact h.waits hun (hrecv.of_ok hr) ⟨hst, hirs, hiss, hopens⟩
  · unfold handleListen
    rw [if_neg hsyn]
    exact trivial

/-- The SYN+ACK of the peer. -/
theorem synSentOpen_opensUnread (h : c.OpensUnread) (hun : c.stream.Unread)
    (hnone : c.stream.rcv.rcvbuf = none) :
    Outcome (synSentOpen c a) (fun _ => True) Conn.OpensUnread := by
  unfold synSentOpen
  refine Outcome.bind_of_ok (activeOpen_sameRecv c a) fun c₁ hok hrecv => ?_
  obtain ⟨-, -, -, hlog⟩ := (activeOpen_outcome c a).of_ok hok
  dsimp only
  have hout := removeFromRtoList_scheduled ((c₁.modSnd fun snd => { snd with nrtx := 0 }).mod
    fun s => { s with rcvNxt := s.rcv.irs + 1 })
  generalize removeFromRtoList ((c₁.modSnd fun snd => { snd with nrtx := 0 }).mod
    fun s => { s with rcvNxt := s.rcv.irs + 1 }) = c₂ at hout
  have hrecv₂ : c₂.stream.recvView = c.stream.recvView := (hrecv.trans rfl).trans hout.sameRecv
  have hbuf : c₂.stream.rcv.rcvbuf = none := (congrArg Prod.fst hrecv₂).trans hnone
  -- `rcv_nxt` was set just before, and taking the stream off the retransmission list leaves it alone
  have hnxt : c₂.stream.rcvNxt = c₂.stream.rcv.irs + 1 := by
    rw [hout.steady.rcvNxt, hout.steady.irs]
    rfl
  -- only the log counts before the stream is established
  have hbase : Conn.OpensUnread { c₂ with stream := { c₂.stream with state := .closed } } := by
    refine ⟨?_, fun hst => absurd hst (by decide : ¬TcpState.closed.Handshake)⟩
    show ∀ s ∈ opens c₂.log, AtOpening s
    rw [hout.log]
    show ∀ s ∈ opens c₁.log, AtOpening s
    rw [hlog]
    exact h.opened
  have hest : (c₂.setState .established).OpensUnread := by
    refine hbase.established ((congrArg Prod.snd hrecv₂).trans hun.rcvWnd) (fun r hr => ?_) hnxt
    exact absurd (hbuf.symm.trans hr) nofun
  refine addToTimeoutList_opensUnread (Conn.OpensUnread.scheduled ?_ (addtoControllist_scheduled _))
  split
  · exact hest
  · refine hest.past ⟨(by decide : ¬TcpState.established.Handshake), ?_⟩
    exact opens_streamDestroy _

/-- The acknowledgement of our SYN. -/
theorem synRcvdOpen_opensUnread (h : c.OpensUnread) (hun : c.stream.Unread) :
    Outcome (synRcvdOpen c a) (fun _ => True) Conn.OpensUnread := by
  rw [synRcvdOpen_eq]
  have hout := removeFromRtoList_scheduled (c.synRcvdAcked a)
  generalize removeFromRtoList (c.synRcvdAcked a) = c₂ at hout ⊢
  have hun₂ : c₂.stream.Unread := by
    refine hun.congr hout.sameRecv hout.steady.irs fun hst => ?_
    rwa [hout.steady.state] at hst
  have hnxt : c₂.stream.rcvNxt = c₂.stream.rcv.irs + 1 := by
    rw [hout.steady.rcvNxt, hout.steady.irs]
    rfl
  have hest : (c₂.setState .established).OpensUnread := by
    refine Conn.OpensUnread.established ⟨?_, fun _ => hun₂⟩ hun₂.rcvWnd hun₂.rcvbuf hnxt
    rw [hout.log]
    exact h.opened
  split
  · exact trivial
  · refine Outcome.ite (fun _ => ?_) fun _ => addToTimeoutList_opensUnread hest
    -- the handshake of a stream that nobody accepts is undone
    refine addToTimeoutList_opensUnread (Conn.OpensUnread.scheduled (hest.past ?_)
      (addtoControllist_scheduled _))
    exact ⟨(by decide : ¬TcpState.closed.Handshake), opens_setState_of_ne _ (by decide)⟩

theorem handleSynSent_opensUnread (h : c.OpensUnread) (hst : c.stream.state = .synSent) :
    Outcome (handleSynSent c a) (fun _ => True) Conn.OpensUnread := by
  -- the stream has no buffer yet, so its `irs` may still change
  have hun : c.stream.Unread := h.unread (.inr (.inl hst))
  unfold handleSynSent
  dsimp only
  refine Outcome.ite (fun _ => h) fun _ => ?_
  -- `snd_una` has counted our SYN if there was an acknowledgement
  generalize hc₁ : (if a.seg.ack then c.modSnd fun snd => { snd with sndUna := snd.sndUna + 1 }
    else c) = c₁
  have hsteady : c.Steady c₁ ∧ c.SameRecv c₁ := by
    rw [← hc₁]
    split
    · exact ⟨⟨rfl, rfl⟩, rfl⟩
    · exact ⟨.refl c, .refl c⟩
  have h₁ := h.steady hsteady.1 hsteady.2
  have hst₁ : c₁.stream.state = .synSent := hsteady.1.state.trans hst
  have hun₁ : c₁.stream.Unread := h₁.unread (.inr (.inl hst₁))
  refine Outcome.ite (fun _ => ?_) fun _ => Outcome.ite (fun _ => ?_) fun _ => ?_
  · -- the peer refuses the connection
    have hopens : opens (c₁.close .closeWait .reset).log = opens c₁.log :=
      opens_setState_of_ne c₁ (by decide)
    split
    · exact h₁.past ⟨(by decide : ¬TcpState.closeWait.Handshake), hopens⟩
    · exact h₁.past ⟨(by decide : ¬TcpState.closeWait.Handshake),
        (opens_streamDestroy _).trans hopens⟩
  · exact synSentOpen_opensUnread h₁ hun₁ (hun₁.synSent hst₁)
  · have hctl := addtoControllist_scheduled
      ((c₁.setState .synRcvd).mod fun s => { s with sndNxt := s.snd.iss })
    refine h₁.waits hun₁ (Conn.SameRecv.trans rfl hctl.sameRecv)
      ⟨hctl.steady.state, hctl.steady.irs, hctl.steady.iss, ?_⟩
    rw [hctl.log]
    exact opens_setState_of_ne c₁ (by decide)

theorem handleSynRcvdData_opensUnread (h : c.OpensUnread) (hst : c.stream.state = .synRcvd) :
    Outcome (handleSynRcvdData P c a) (fun _ => True) Conn.OpensUnread := by
  have hun : c.stream.Unread := h.unread (.inr (.inr hst))
  unfold handleSynRcvdData
  refine Outcome.ite (fun _ => handleListen_opensUnread h hun) fun _ => ?_
  have hack : Outcome (handleSynRcvd c a) (fun _ => True) Conn.OpensUnread := by
    unfold handleSynRcvd
    refine Outcome.ite (fun _ => Outcome.ite (fun _ => trivial) fun _ =>
      synRcvdOpen_opensUnread h hun) fun _ => ?_
    have hagain : (c.mod fun s => { s with sndNxt := s.snd.iss }).OpensUnread :=
      h.steady ⟨rfl, rfl⟩ rfl
    exact hagain.scheduled (addtoControllist_scheduled _)
  refine Outcome.bind hack fun c₁ h₁ => Outcome.ite (fun hdata => ?_) fun _ => h₁
  -- data with the acknowledgement is handled at once
  exact (handleEstablished_past hdata.2).mono (fun _ _ => trivial) fun _ hp => h₁.past hp

end Handlers

/-! ### A call of `cmt_tcp_process` -/

section Calls

variable {P : Parts Received} {c : Conn Received} {a : Arrival Received} {w w' : World Received}

theorem dispatch_opensUnread (h : c.OpensUnread) (hdone : c.stream.state.Handshake) :
    Outcome (dispatch P c a) (fun _ => True) Conn.OpensUnread := by
  have hun := h.unread hdone
  unfold dispatch
  rcases hdone with hst | hst | hst
  · rw [hst]
    exact handleListen_opensUnread h hun
  · rw [hst]
    exact handleSynSent_opensUnread h hst
  · rw [hst]
    exact handleSynRcvdData_opensUnread h hst

/-- A reset during the handshake. -/
theorem processRst_opensUnread (h : c.OpensUnread) (hdone : c.stream.state.Handshake) (ackSeq : U32) :
    (processRst c ackSeq).1.OpensUnread := by
  unfold processRst
  dsimp only
  split
  · exact h
  split
  · split
    · refine h.past ⟨(by decide : ¬TcpState.closed.Handshake), ?_⟩
      exact (opens_streamDestroy _).trans (opens_setState_of_ne c (by decide))
    · exact h
  · next hcode hne =>
    -- past `SYN_SENT` only `SYN_RCVD` belongs to the handshake
    rcases hdone with hst | hst | hst
    · exact absurd (by rw [hst]; decide) hcode
    · exact absurd (by rw [hst]) hcode
    · exact absurd hst hne

theorem processStream_opensUnread (hP : P.CloseWaitSteady) (h : c.OpensUnread) :
    Outcome (processStream P c a) (fun _ => True) Conn.OpensUnread := by
  by_cases hdone : c.stream.state.Handshake
  · have hcode : ¬c.stream.state.code > TcpState.synRcvd.code := by
      rcases hdone with hst | hst | hst <;> rw [hst] <;> decide
    unfold processStream
    rw [if_neg hcode]
    unfold processAccepted
    -- nothing is refused before the handlers during a handshake
    have hnote := h.steady (noteArrival_same c a).steady (noteArrival_sameRecv c a)
    have hdone' : (noteArrival c a).stream.state.Handshake := by
      rwa [(noteArrival_same c a).steady.state]
    generalize noteArrival c a = c₁ at hnote hdone'
    have hreset : (c₁.mod fun s => { s with haveReset := true }).OpensUnread :=
      hnote.steady ⟨rfl, rfl⟩ rfl
    refine Outcome.ite (fun _ => Outcome.ite (fun _ => ?_) fun _ => ?_) fun _ => ?_
    · exact processRst_opensUnread hreset hdone' _
    · exact dispatch_opensUnread hreset hdone'
    · exact dispatch_opensUnread hnote hdone'
  · exact (past_outcome hP hdone).mono (fun _ _ => trivial) fun _ hp => h.past hp

/-- `create_tcp_stream` sets the initial window. -/
theorem createTcpStream_rcvWnd {saddr daddr : U32} {sport dport : U16} {s : Stream Received}
    (h : createTcpStream a saddr sport daddr dport = some s) :
    s.rcv.rcvWnd = tcpInitialWindow := by
  unfold createTcpStream at h
  split at h
  · cases h
    rfl
  · cases h

/-- A passively opened stream has a new buffer, or it is closed at once. -/
theorem createStream_opensUnread {tcp : TcpManager} {log : List (Event Received)}
    (hget : ∀ seq r, a.recvGet seq = some r → r.New seq) (hlog : ∀ s ∈ opens log, AtOpening s) :
    Outcome (createStream tcp log a) (fun _ => True) fun r => ∀ c, r = some c → c.OpensUnread := by
  have hout := createStream_outcome tcp log a
  cases hr : createStream tcp log a with
  | error _ => exact trivial
  | ok r =>
    intro c hc
    obtain ⟨-, hst, -, -, hopens⟩ := hout.of_ok hr c hc
    refine ⟨by rw [hopens]; exact hlog, fun hdone => ?_⟩
    have hlisten : c.stream.state = .listen := hst.resolve_right fun hcl => by
      rw [hcl] at hdone
      exact absurd hdone (by decide)
    -- `createStream` returns at most one stream
    obtain rfl := hc
    -- the stream as `cmt_tcp_passive_open` made it
    unfold createStream at hr
    split at hr
    · split at hr
      · unfold passiveOpen at hr
        cases hs : createTcpStream a a.seg.daddr a.seg.dest a.seg.saddr a.seg.source with
        | none =>
          rw [hs] at hr
          cases hr
        | some s =>
          rw [hs] at hr
          dsimp only at hr
          generalize hc₁ : (if (a.recvGet ((passiveInit s a.seg).rcv.irs + 1)).isNone then _ else _) =
            c₁ at hr
          have hwnd : (passiveInit s a.seg).rcv.rcvWnd = tcpInitialWindow :=
            createTcpStream_rcvWnd (s := s) hs
          have hview : c₁.stream.rcv.rcvWnd = tcpInitialWindow ∧
              c₁.stream.rcv.rcvbuf = a.recvGet (c₁.stream.rcv.irs + 1) := by
            rw [← hc₁]
            split
            · exact ⟨hwnd, rfl⟩
            · exact ⟨hwnd, rfl⟩
          cases hopt : parseOptions c₁ a.ts a.seg with
          | error _ =>
            rw [hopt] at hr
            cases hr
          | ok c₂ =>
            rw [hopt] at hr
            obtain rfl := Option.some.inj (Except.ok.inj hr)
            have hneg := ((parseOptions_outcome c₁ a.ts a.seg).of_ok hopt).1
            rw [hneg] at hlisten ⊢
            refine ⟨hview.1, ?_, fun hsent => ?_⟩
            · show ∀ r, c₁.stream.rcv.rcvbuf = some r → r.New (c₁.stream.rcv.irs + 1)
              rw [hview.2]
              exact fun r hr => hget _ r hr
            · exact absurd (hlisten.symm.trans hsent) (by decide)
      · cases hr
    · cases hr

end Calls

/-! ### Runs -/

section Runs

variable {P : Parts Received} {w w' : World Received} {l : Label Received}

/-- What holds along a run of received segments. -/
structure OpeningInv (w : World Received) : Prop where
  opened : ∀ s ∈ opens w.log, AtOpening s
  unread : ∀ s, w.stream = some s → s.state.Handshake → s.Unread

/-- `recv_get` hands out nothing or a new buffer. -/
def GetsNew (_ : World Received) : Label Received → Prop
  | .segment a => ∀ seq r, a.recvGet seq = some r → r.New seq
  | .endpoint _ _ => True

theorem Conn.OpensUnread.toWorld {c : Conn Received} (h : c.OpensUnread) : OpeningInv c.toWorld where
  opened := h.opened
  unread := by
    intro s hs
    obtain rfl : c.stream = s := Option.some.inj hs
    exact h.unread

theorem OpeningInv.step (hP : P.CloseWaitSteady) (h : OpeningInv w)
    (hstep : Guarded GetsNew (Step P fun _ _ => False) w l w') : OpeningInv w' := by
  obtain ⟨hget, hstep⟩ := hstep
  cases hstep with
  | endpoint _ hfalse => exact hfalse.elim
  | @segment _ a ret hcall =>
    rcases process_ok hcall with rfl | ⟨c, c', hfind, hproc, rfl⟩
    · exact h
    · refine Conn.OpensUnread.toWorld ((processStream_opensUnread hP ?_).of_ok hproc)
      -- the segment is for a stream that it creates, or for the one that is there
      unfold findStream at hfind
      cases hs : w.stream with
      | none =>
        rw [hs] at hfind
        exact (createStream_opensUnread hget h.opened).of_ok hfind c rfl
      | some s =>
        rw [hs] at hfind
        cases hfind
        exact ⟨h.opened, h.unread s hs⟩

/-- **How streams open.** In every run of received segments, whether it starts without a stream or with an
actively opened one that has no buffer yet, whatever enters `ESTABLISHED` is as `AtOpening` says. -/
theorem opened_atOpening (hP : P.CloseWaitSteady) {w₀ : World Received} {ls : List (Label Received)}
    (h₀ : w₀.stream = none ∨
      ∃ s, w₀.stream = some s ∧ ActivelyOpened s ∧ s.rcv.rcvbuf = none)
    (hlog : w₀.log = []) (hrun : Run (Guarded GetsNew (Step P fun _ _ => False)) w₀ ls w) :
    ∀ s ∈ opens w.log, AtOpening s := by
  -- at the start nothing has entered any state
  refine (hrun.invariant OpeningInv ⟨?_, fun s hs _ => ?_⟩ fun _ _ _ h hstep => h.step hP hstep).opened
  · rw [hlog]
    exact fun s hs => by cases hs
  · rcases h₀ with h₀ | ⟨s', h₀, ⟨a, _, _, _, _, s₀, hcreate, rfl⟩, hnone⟩
    · rw [h₀] at hs
      cases hs
    · obtain rfl := Option.some.inj (h₀.symm.trans hs)
      have hwnd : s₀.rcv.rcvWnd = tcpInitialWindow := createTcpStream_rcvWnd hcreate
      refine ⟨hwnd, fun r hr => ?_, fun _ => hnone⟩
      exact absurd (hnone.symm.trans hr) nofun

/-- **The receive window is kept until it is used.** Take a stream that a run of received segments brought to
`ESTABLISHED`. Along a sequence of segments with data and of reads, the right edge of its window never
moves back, `rcv_wnd` does not underflow and no segment inside the window is refused, exactly when no
segment of the sequence gets to the buffer. -/
theorem window_kept_iff (hP : P.CloseWaitSteady) {w₀ : World Received}
    {opening : List (Label Received)}
    (h₀ : w₀.stream = none ∨
      ∃ s, w₀.stream = some s ∧ ActivelyOpened s ∧ s.rcv.rcvbuf = none)
    (hlog : w₀.log = []) (hopening : Run (Guarded GetsNew (Step P fun _ _ => False)) w₀ opening w)
    (closeWait : Conn Received → Arrival Received → Except Abort (Conn Received))
    {c c' : Conn Received} {ls : List WindowCall} (hopened : c.stream ∈ opens w.log)
    (hrun : Run (WindowStep closeWait) c ls c') :
    Run.Along (WindowStep closeWait) c ls KeepsWindow ↔
      ¬Run.Occurs (WindowStep closeWait) c ls ReachesBuffer := by
  exact windowStep_along_iff closeWait (opened_atOpening hP h₀ hlog hopening _ hopened)
    (state_of_mem_opens hopened) hrun

end Runs

/-! ### A passive open -/

/-- A segment of a handshake without payload, on a listener that accepts; the pools hand out cleared
objects. -/
def handshakeArrival (syn ack : Bool) (seq ackSeq : U32) : Arrival Received where
  seg := { (default : Segment) with
    ihl := 5, doff := 5, totLen := 40, daddr := 1, dest := 80, seq := seq, ackSeq := ackSeq
    syn := syn, ack := ack, window := 8192 }
  ts := 0
  listener := some { sinPort := 80, sinAddr := 1, enqueueRet := 0 }
  streamObj := some default
  sndObj := some default
  rcvObj := some default
  rand := 100
  recvGet := fun initSeq => some (newBuffer initSeq)

/-- Nothing is in the flow table. -/
def noStream : World Received where
  tcp := default
  stream := none
  log := []

/-- The buffer as the calls see it, with a handler for `CLOSE_WAIT` that looks at acknowledgements. -/
def byteParts : Parts Received := (byteAt 8).parts receiveAck

/-- The SYN of a peer with the initial number `7`, and the acknowledgement of ours. -/
def passiveOpening : List (Label Received) :=
  [.segment (handshakeArrival true false 7 0), .segment (handshakeArrival false true 8 101)]

/-- The passive open of the peer takes a stream to `ESTABLISHED`. -/
theorem passiveOpening_run :
    ∃ w s, Run (Guarded GetsNew (Step byteParts fun _ _ => False)) noStream passiveOpening w ∧
      opens w.log = [s] ∧ s.rcv.rcvbuf = some (newBuffer 8) ∧ s.rcvNxt = 8 ∧
      s.rcv.rcvWnd = tcpInitialWindow ∧ s.state = .established := by
  have hget : ∀ w syn ack seq ackSeq,
      GetsNew w (.segment (handshakeArrival syn ack seq ackSeq)) :=
    fun _ _ _ _ _ _ _ h => newBuffer_new h rfl
  have hsyn : Run (Guarded GetsNew (Step byteParts fun _ _ => False)) noStream
      [.segment (handshakeArrival true false 7 0)] _ :=
    Run.single ⟨hget _ _ _ _ _, .segment rfl⟩
  exact ⟨_, _, hsyn.snoc ⟨hget _ _ _ _ _, .segment rfl⟩, rfl, rfl, rfl, rfl, rfl⟩

/-- The first byte of that peer gets to the buffer. -/
theorem firstByte_reaches {s : Stream Received} (hbuf : s.rcv.rcvbuf = some (newBuffer 8))
    (hnxt : s.rcvNxt = 8) (hwnd : s.rcv.rcvWnd = tcpInitialWindow) :
    (byteAt 8).Reaches s (newBuffer 8) := by
  refine ⟨?_, ?_, ?_⟩
  · rw [hnxt]
    decide
  · rw [hnxt, hwnd]
    decide
  · unfold recvbufFor
    rw [hbuf]

/-- A peer connects and sends its first byte: the byte is stored, and the right edge of the window goes from
`14608` back to `8199`. A byte at `9008`, inside the initial window as well, is refused: the buffer is not
that large. -/
theorem first_byte_moves_window_back :
    ∃ w s c', Run (Guarded GetsNew (Step byteParts fun _ _ => False)) noStream passiveOpening w ∧
      s ∈ opens w.log ∧
      Run (WindowStep receiveAck) { tcp := w.tcp, stream := s, log := w.log }
        [.payload (byteAt 8)] c' ∧
      s.rcvNxt + s.rcv.rcvWnd = 14608 ∧ c'.rightEdge = 8199 ∧
      tcpSeqLt c'.rightEdge (s.rcvNxt + s.rcv.rcvWnd) ∧
      (byteAt 9008).Inside s ∧
      ∃ t, recvPut 1 (newBuffer 8).recv (byteAt 9008).put = .ok (t, -2) := by
  obtain ⟨w, s, hrun, hs, hbuf, hnxt, hwnd, hst⟩ := passiveOpening_run
  have hput : recvPut 1 (newBuffer 8).recv (byteAt 8).put = .ok (_, 1) := rfl
  obtain ⟨c', hok, hedge⟩ := processPayload_of_reaches receiveAck
    (c := { tcp := w.tcp, stream := s, log := w.log }) (firstByte_reaches hbuf hnxt hwnd) hput
    (by rw [hst]; decide)
  have hold : s.rcvNxt + s.rcv.rcvWnd = 14608 := by
    rw [hnxt, hwnd]
    decide
  refine ⟨w, s, c', hrun, by rw [hs]; exact List.mem_singleton_self s,
    Run.single (byteAt_step hok), hold, hedge.trans (by decide), ?_, ?_, _, rfl⟩
  · rw [hedge, hold]
    decide
  · unfold PayloadCall.Inside
    rw [hnxt, hwnd]
    exact (by decide : (9000 : ℤ) + 1 ≤ 14600)

/-- A byte past the window leaves it alone, the first byte in it does not. -/
theorem window_kept_outside :
    ∃ w s, Run (Guarded GetsNew (Step byteParts fun _ _ => False)) noStream passiveOpening w ∧
      s ∈ opens w.log ∧
      Run.Along (WindowStep receiveAck) { tcp := w.tcp, stream := s, log := w.log }
        [.payload (byteAt 20000)] KeepsWindow ∧
      ¬Run.Along (WindowStep receiveAck) { tcp := w.tcp, stream := s, log := w.log }
        [.payload (byteAt 8)] KeepsWindow := by
  obtain ⟨w, s, hrun, hs, hbuf, hnxt, hwnd, hst⟩ := passiveOpening_run
  have hmem : s ∈ opens w.log := by
    rw [hs]
    exact List.mem_singleton_self s
  obtain ⟨c₁, _, hpast⟩ := byteAt_returns receiveAck
    (c := { tcp := w.tcp, stream := s, log := w.log }) 20000 hbuf hst
  obtain ⟨c₂, _, hfirst⟩ := byteAt_returns receiveAck
    (c := { tcp := w.tcp, stream := s, log := w.log }) 8 hbuf hst
  refine ⟨w, s, hrun, hmem, ?_, ?_⟩
  · rw [window_kept_iff (P := byteParts) receiveAck_outcome (.inl rfl) rfl hrun receiveAck hmem
      (Run.single (byteAt_step hpast)), Run.occurs_single_iff]
    rintro ⟨r, hr⟩
    refine hr.high ?_
    show tcpSeqGt (byteAt 20000).arrival.seg.seqEnd (s.rcvNxt + s.rcv.rcvWnd)
    rw [hnxt, hwnd]
    decide
  · rw [window_kept_iff (P := byteParts) receiveAck_outcome (.inl rfl) rfl hrun receiveAck hmem
      (Run.single (byteAt_step hfirst)), Run.occurs_single_iff, not_not]
    exact ⟨newBuffer 8, firstByte_reaches hbuf hnxt hwnd⟩

end CmtTcp
