import CmtTcp.Lib.LastCall
import CmtTcp.Tcp.Opening

/-!
# Destroying a stream

`stream_destroy` is called while a segment is processed, and has no body yet. Here it is a parameter: the
functions of `tcp.c` that call it, and the functions up to `cmt_tcp_process` that call these, are written down
once more for any `destroy`, and are the ones of the modules on the handlers and on processing a segment
when `destroy` does nothing (`processWith_streamDestroy`).

`leavesDestroyed_iff` says for which segments the stream is left alone once it is destroyed. It is not for the
SYN+ACK that opens a stream without a socket: the stream is queued again.
-/

namespace CmtTcp

open Lib (Outcome CallsLast)

variable {ρ : Type}

/-! ### The code, for any `stream_destroy` -/

section With

variable (destroy : Conn ρ → Conn ρ)

/-- `cmt_tcp_process_rst` -/
def processRstWith (c : Conn ρ) (ackSeq : U32) : Conn ρ × Bool :=
  let s := c.stream
  if s.state.code ≤ TcpState.synSent.code then (c, false)
  else if s.state = .synRcvd then
    (if ackSeq = s.sndNxt then destroy (c.close .closed .reset) else c, true)
  else if s.state = .finWait1 ∨ s.state = .finWait2 ∨ s.state = .lastAck ∨ s.state = .closing ∨
      s.state = .timeWait then
    (destroy (c.close .closed .activeClose), true)
  else if ¬(s.snd.onCloseq ∨ s.snd.onCloseqInt ∨ s.snd.onResetq ∨ s.snd.onResetqInt) then
    (c.close .closeWait .reset, true)
  else (c, true)

/-- The end of the handshake in `cmt_tcp_handle_syn_sent`. -/
def synSentOpenWith (c : Conn ρ) (a : Arrival ρ) : Except Abort (Conn ρ) := do
  let c ← activeOpen c a
  let c := c.modSnd fun snd => { snd with nrtx := 0 }
  let c := c.mod fun s => { s with rcvNxt := s.rcv.irs + 1 }
  let c := (removeFromRtoList c).setState .established
  let c :=
    if c.stream.s then c
    else destroy (c.mod fun s => { s with closeReason := .activeClose })
  -- the stream is queued whether it was destroyed or not
  addToTimeoutList (addtoControllist c)

/-- `cmt_tcp_handle_syn_sent` -/
def handleSynSentWith (c : Conn ρ) (a : Arrival ρ) : Except Abort (Conn ρ) :=
  let seg := a.seg
  if synSentRefuses c.stream seg then .ok c
  else
    let c := if seg.ack then c.modSnd fun snd => { snd with sndUna := snd.sndUna + 1 } else c
    if seg.rst ∧ seg.ack then
      let c := c.close .closeWait .reset
      .ok (if c.stream.s then c else destroy c)
    else if seg.syn ∧ seg.ack then synSentOpenWith destroy c a
    else
      let c := c.setState .synRcvd
      .ok (addtoControllist (c.mod fun s => { s with sndNxt := s.snd.iss }))

/-- `cmt_tcp_handle_last_ack` -/
def handleLastAckWith (c : Conn ρ) (a : Arrival ρ) : Except Abort (Conn ρ) :=
  let seg := a.seg
  if tcpSeqLt seg.seq c.stream.rcvNxt then .ok c
  else if seg.ack then do
    let c ← receiveAck c a
    if ¬c.stream.snd.isFinSent then .ok c
    else if seg.ackSeq = c.stream.snd.fss + 1 then do
      let c := c.modSnd fun snd => { snd with sndUna := snd.sndUna + 1 }
      let c ← updateRetransmissionTimer c a.ts
      .ok (destroy (c.close .closed .passiveClose))
    else .ok (addtoControllist c)
  else .ok (addtoControllist c)

/-- The `switch` of `cmt_tcp_process`. -/
def dispatchWith (P : Parts ρ) (c : Conn ρ) (a : Arrival ρ) : Except Abort (Conn ρ) :=
  match c.stream.state with
  | .listen => handleListen c a
  | .synSent => handleSynSentWith destroy c a
  | .synRcvd => handleSynRcvdData P c a
  | .established => handleEstablished P c a
  | .closeWait => P.handleCloseWait c a
  | .lastAck => handleLastAckWith destroy c a
  | .finWait1 => handleFinWait1 P c a
  | .finWait2 => handleFinWait2 P c a
  | .closing => handleClosing c a
  | .timeWait => handleTimeWait c a
  | .closed => .ok c

/-- `cmt_tcp_process` for a segment that is accepted. -/
def processAcceptedWith (P : Parts ρ) (c : Conn ρ) (a : Arrival ρ) : Except Abort (Conn ρ) :=
  let c := noteArrival c a
  if a.seg.rst then
    let c := c.mod fun s => { s with haveReset := true }
    if c.stream.state.code > TcpState.synSent.code ∧ (processRstWith destroy c a.seg.ackSeq).2 then
      .ok (processRstWith destroy c a.seg.ackSeq).1
    else dispatchWith destroy P c a
  else dispatchWith destroy P c a

/-- `cmt_tcp_process` once it has the stream. -/
def processStreamWith (P : Parts ρ) (c : Conn ρ) (a : Arrival ρ) : Except Abort (Conn ρ) :=
  if c.stream.state.code > TcpState.synRcvd.code then
    let r := validseq c a
    if r.2 then processAcceptedWith destroy P r.1 a else .ok r.1
  else processAcceptedWith destroy P c a

/-- `cmt_tcp_process` after the search for a stream. -/
def processFoundWith (P : Parts ρ) (w : World ρ) (a : Arrival ρ) :
    Option (Conn ρ) → Except Abort (World ρ × ℤ)
  | none => .ok (w, -2)
  | some c => do
    let c ← processStreamWith destroy P c a
    .ok (c.toWorld, 1)

/-- `cmt_tcp_process` -/
def processWith (P : Parts ρ) (w : World ρ) (a : Arrival ρ) : Except Abort (World ρ × ℤ) :=
  if 20 ≠ a.seg.ihl.toNat * 4 then .error .assertHeader
  else if a.seg.check ≠ 0 then .ok (w, -1)
  else findStream w a >>= processFoundWith destroy P w a

end With

/-- With the empty body that `stream_destroy` has, the functions are those of the handlers. -/
theorem processWith_streamDestroy (P : Parts ρ) (w : World ρ) (a : Arrival ρ) :
    processWith Conn.streamDestroy P w a = process P w a :=
  rfl

/-! ### What is asked of it -/

/-- The stream at `a` is on a list of the manager. -/
def TcpManager.OnList (tcp : TcpManager) (a : Addr) : Prop :=
  a ∈ tcp.sender.controlList ∨ a ∈ tcp.sender.sendList ∨ a ∈ tcp.sender.ackList ∨
    (∃ i, a ∈ tcp.rtoStore.rtoList i) ∨ a ∈ tcp.timewaitList ∨ a ∈ tcp.timeoutList

/-- What `stream_destroy` is for: the stream is taken off every list, and none of its marks is left. -/
def Conn.unlink (c : Conn ρ) : Conn ρ :=
  let s := c.stream
  let off := fun l : List Addr => l.filter fun a => a ≠ s.addr
  { tcp :=
      { sender :=
          { controlList := off c.tcp.sender.controlList
            sendList := off c.tcp.sender.sendList
            ackList := off c.tcp.sender.ackList
            controlListCnt := c.tcp.sender.controlListCnt - if s.snd.onControlList then 1 else 0
            sendListCnt := c.tcp.sender.sendListCnt - if s.snd.onSendList then 1 else 0
            ackListCnt := c.tcp.sender.ackListCnt - if s.snd.onAckList then 1 else 0 }
        rtoStore := { c.tcp.rtoStore with rtoList := fun i => off (c.tcp.rtoStore.rtoList i) }
        timewaitList := off c.tcp.timewaitList
        timeoutList := off c.tcp.timeoutList
        rtoListCnt := c.tcp.rtoListCnt - if s.onRtoIdx < 0 then 0 else 1
        timewaitListCnt := c.tcp.timewaitListCnt - if s.onTimewaitList then 1 else 0
        timeoutListCnt := c.tcp.timeoutListCnt - if s.onTimeoutList then 1 else 0 }
    stream :=
      { s with
        onTimewaitList := false
        onRtoIdx := -1
        onTimeoutList := false
        snd := { s.snd with onControlList := false, onSendList := false, onAckList := false } }
    log := c.log ++ [.destroyed] }

/-- Either `stream_destroy` is not called, or whatever it does is the last thing that happens to the stream;
and a stream that it takes off every list is on none when `cmt_tcp_process` returns. -/
def LeavesDestroyed (P : Parts ρ) (w : World ρ) (a : Arrival ρ) : Prop :=
  (∀ destroy destroy', processWith destroy P w a = processWith destroy' P w a) ∨
    ∃ c : Conn ρ, (∀ destroy, processWith destroy P w a = .ok ((destroy c).toWorld, 1)) ∧
      ∀ w' ret s, processWith Conn.unlink P w a = .ok (w', ret) → w'.stream = some s →
        ¬w'.tcp.OnList s.addr

/-- The segment is a SYN+ACK that opens the stream, and no socket is attached to it. -/
structure Stream.OpensUnattached (s : Stream ρ) (seg : Segment) : Prop where
  state : s.state = .synSent
  noSocket : s.s = false
  syn : seg.syn = true
  ack : seg.ack = true
  noRst : seg.rst = false
  taken : synSentRefuses s seg = false
  options : optionsEnd seg = true
  rto : s.snd.rto > 0

/-- The stream of the segment is in the flow table, and the segment has the right header and checksum and opens
the stream without a socket. -/
def OpensUnattached (w : World ρ) (a : Arrival ρ) : Prop :=
  ∃ s, w.stream = some s ∧ a.seg.ihl.toNat * 4 = 20 ∧ a.seg.check = 0 ∧ s.OpensUnattached a.seg

/-! ### The handlers -/

section Handlers

variable {P : Parts ρ} {c c' : Conn ρ} {a : Arrival ρ} {w : World ρ}

theorem not_onList_unlink (c : Conn ρ) : ¬c.unlink.tcp.OnList c.unlink.stream.addr := by
  have hoff : ∀ l : List Addr, c.stream.addr ∉ l.filter fun a => a ≠ c.stream.addr := by
    intro l hmem
    exact of_decide_eq_true (List.mem_filter.mp hmem).2 rfl
  rintro (h | h | h | ⟨i, h⟩ | h | h)
  all_goals exact hoff _ h

/-- Scheduling does not attach a socket. -/
theorem Conn.Scheduled.attached (h : c.Scheduled c') : c'.stream.s = c.stream.s := by
  have hwork : c'.stream.work.s = c.stream.work.s := by rw [h.work]
  exact hwork

theorem activeOpen_attached (c : Conn ρ) (a : Arrival ρ) :
    Outcome (activeOpen c a) (fun _ => True) fun c' => c'.stream.s = c.stream.s := by
  unfold activeOpen
  refine Outcome.bind ((parseOptions_outcome _ a.ts a.seg).mono (fun _ _ => trivial) fun _ h => h)
    fun c₁ h₁ => ?_
  refine (updateRetransmissionTimer_outcome _ a.ts).mono (fun _ _ => trivial) fun c₂ h₂ => ?_
  refine h₂.attached.trans ?_
  change c₁.stream.s = _
  rw [h₁.1]
  rfl

theorem processRstWith_callsLast (c : Conn ρ) (ackSeq : U32) :
    CallsLast id fun destroy => (.ok (processRstWith destroy c ackSeq).1 : Except Abort (Conn ρ)) := by
  unfold processRstWith
  dsimp only
  by_cases hearly : c.stream.state.code ≤ TcpState.synSent.code
  · simp only [if_pos hearly]
    exact .const _
  simp only [if_neg hearly]
  by_cases hrcvd : c.stream.state = .synRcvd
  · simp only [if_pos hrcvd]
    by_cases hack : ackSeq = c.stream.sndNxt
    · simp only [if_pos hack]
      exact .last _
    · simp only [if_neg hack]
      exact .const _
  simp only [if_neg hrcvd]
  by_cases hclosing : c.stream.state = .finWait1 ∨ c.stream.state = .finWait2 ∨
      c.stream.state = .lastAck ∨ c.stream.state = .closing ∨ c.stream.state = .timeWait
  · simp only [if_pos hclosing]
    exact .last _
  · simp only [if_neg hclosing]
    exact .const _

/-- Whether a reset ends the processing of the segment does not depend on `stream_destroy`. -/
theorem processRstWith_snd (destroy : Conn ρ → Conn ρ) (c : Conn ρ) (ackSeq : U32) :
    (processRstWith destroy c ackSeq).2 = (processRst c ackSeq).2 := by
  unfold processRstWith processRst
  dsimp only
  split
  · rfl
  split
  · rfl
  split
  · rfl
  split
  · rfl
  · rfl

theorem handleLastAckWith_callsLast (c : Conn ρ) (a : Arrival ρ) :
    CallsLast id fun destroy => handleLastAckWith destroy c a := by
  unfold handleLastAckWith
  dsimp only
  refine .ite (fun _ => .const _) fun _ => .ite (fun _ => .bind fun c₁ _ => ?_) fun _ => .const _
  refine .ite (fun _ => .const _) fun _ => .ite (fun _ => .bind fun c₂ _ => ?_) fun _ => .const _
  exact .last _

/-- In `SYN_SENT` the stream is left alone, if it is not opened without a socket. -/
theorem handleSynSentWith_callsLast (hst : c.stream.state = .synSent)
    (h : ¬c.stream.OpensUnattached a.seg) :
    CallsLast id fun destroy => handleSynSentWith destroy c a := by
  unfold handleSynSentWith
  dsimp only
  refine .ite (fun _ => .const _) fun htaken => ?_
  generalize hc₁ : (if a.seg.ack = true then c.modSnd fun snd => { snd with sndUna := snd.sndUna + 1 }
    else c) = c₁
  have hs : c₁.stream.s = c.stream.s := by
    rw [← hc₁]
    split
    · rfl
    · rfl
  have hrto : c₁.stream.snd.rto = c.stream.snd.rto := by
    rw [← hc₁]
    split
    · rfl
    · rfl
  refine .ite (fun _ => ?_) fun hrst => .ite (fun hsyn => ?_) fun _ => .const _
  · by_cases hsock : (c₁.close .closeWait .reset).stream.s = true
    · simp only [if_pos hsock]
      exact .const _
    · simp only [if_neg hsock]
      exact .last _
  · unfold synSentOpenWith
    refine .bind fun c₂ hopen => ?_
    dsimp only
    obtain ⟨hend, hpos⟩ := activeOpen_ok_iff.mp ⟨c₂, hopen⟩
    -- a stream that comes this far has a socket
    have hsock : c₂.stream.s = true := by
      rw [(activeOpen_attached c₁ a).of_ok hopen, hs]
      by_contra hnone
      refine h ⟨hst, Bool.eq_false_of_not_eq_true hnone, hsyn.1, hsyn.2, ?_, ?_, hend, ?_⟩
      · exact Bool.eq_false_of_not_eq_true fun hr => hrst ⟨hr, hsyn.2⟩
      · exact Bool.eq_false_of_not_eq_true htaken
      · rwa [← hrto]
    have hsock' := (removeFromRtoList_scheduled ((c₂.modSnd fun snd => { snd with nrtx := 0 }).mod
      fun s => { s with rcvNxt := s.rcv.irs + 1 })).attached.trans hsock
    generalize removeFromRtoList ((c₂.modSnd fun snd => { snd with nrtx := 0 }).mod
      fun s => { s with rcvNxt := s.rcv.irs + 1 }) = c₃ at hsock'
    have hsock'' : (c₃.setState .established).stream.s = true := hsock'
    simp only [if_pos hsock'']
    exact .const _

theorem dispatchWith_callsLast (P : Parts ρ) (h : ¬c.stream.OpensUnattached a.seg) :
    CallsLast id fun destroy => dispatchWith destroy P c a := by
  unfold dispatchWith
  cases hst : c.stream.state with
  | synSent => exact handleSynSentWith_callsLast hst h
  | lastAck => exact handleLastAckWith_callsLast c a
  | closed => exact .const _
  | listen => exact .const _
  | synRcvd => exact .const _
  | established => exact .const _
  | closeWait => exact .const _
  | finWait1 => exact .const _
  | closing => exact .const _
  | finWait2 => exact .const _
  | timeWait => exact .const _

theorem noteArrival_opensUnattached :
    (noteArrival c a).stream.OpensUnattached a.seg ↔ c.stream.OpensUnattached a.seg := by
  rw [noteArrival_stream]
  constructor
  · intro h
    exact ⟨h.state, h.noSocket, h.syn, h.ack, h.noRst, h.taken, h.options, h.rto⟩
  · intro h
    exact ⟨h.state, h.noSocket, h.syn, h.ack, h.noRst, h.taken, h.options, h.rto⟩

theorem processAcceptedWith_callsLast (P : Parts ρ) (h : ¬c.stream.OpensUnattached a.seg) :
    CallsLast id fun destroy => processAcceptedWith destroy P c a := by
  unfold processAcceptedWith
  simp only [processRstWith_snd]
  refine .ite (fun hrst => ?_) fun _ => dispatchWith_callsLast P (mt noteArrival_opensUnattached.mp h)
  refine .ite (fun _ => processRstWith_callsLast _ _) fun _ => dispatchWith_callsLast P fun h' => ?_
  exact absurd hrst (Bool.eq_false_iff.mp h'.noRst)

theorem processStreamWith_callsLast (P : Parts ρ) (h : ¬c.stream.OpensUnattached a.seg) :
    CallsLast id fun destroy => processStreamWith destroy P c a := by
  unfold processStreamWith
  refine .ite (fun hgt => ?_) fun _ => processAcceptedWith_callsLast P h
  refine .ite (fun _ => processAcceptedWith_callsLast P fun h' => ?_) fun _ => .const _
  -- a stream that is tested for its sequence numbers is past `SYN_SENT`
  rw [← (validseq_same c a).steady.state, h'.state] at hgt
  exact absurd hgt (by decide)

/-! ### A stream without a socket -/

/-- The end of the handshake without a socket: what `stream_destroy` leaves is queued. -/
theorem synSentOpenWith_unattached (hsock : c.stream.s = false) (hopen : activeOpen c a = .ok c') :
    ∃ c₀ : Conn ρ, ∀ destroy : Conn ρ → Conn ρ,
      synSentOpenWith destroy c a = addToTimeoutList (addtoControllist (destroy c₀)) := by
  have hsock₁ : c'.stream.s = false := ((activeOpen_attached c a).of_ok hopen).trans hsock
  have hsock₂ := (removeFromRtoList_scheduled ((c'.modSnd fun snd => { snd with nrtx := 0 }).mod
    fun s => { s with rcvNxt := s.rcv.irs + 1 })).attached.trans hsock₁
  unfold synSentOpenWith
  rw [hopen]
  generalize hc₂ : removeFromRtoList ((c'.modSnd fun snd => { snd with nrtx := 0 }).mod
    fun s => { s with rcvNxt := s.rcv.irs + 1 }) = c₂ at hsock₂
  have hsock₃ : ¬(c₂.setState .established).stream.s = true := Bool.eq_false_iff.mp hsock₂
  refine ⟨(c₂.setState .established).mod fun s => { s with closeReason := .activeClose },
    fun destroy => ?_⟩
  change addToTimeoutList (addtoControllist
    (if ((removeFromRtoList _).setState .established).stream.s then _ else destroy _)) = _
  rw [hc₂, if_neg hsock₃]

/-- The SYN+ACK that opens a stream without a socket gets to the end of the handshake. -/
theorem processStreamWith_unattached (P : Parts ρ) (h : c.stream.OpensUnattached a.seg) :
    ∃ c₀ : Conn ρ, ∀ destroy : Conn ρ → Conn ρ,
      processStreamWith destroy P c a = addToTimeoutList (addtoControllist (destroy c₀)) := by
  have hcode : ¬c.stream.state.code > TcpState.synRcvd.code := by
    rw [h.state]
    decide
  have hnoted := noteArrival_opensUnattached.mpr h
  generalize hc₁ : noteArrival c a = c₁ at hnoted
  -- the acknowledgement of our SYN is noted
  generalize hc₂ : c₁.modSnd (fun snd => { snd with sndUna := snd.sndUna + 1 }) = c₂
  have hsock : c₂.stream.s = false := by
    rw [← hc₂]
    exact hnoted.noSocket
  have hrto : c₂.stream.snd.rto > 0 := by
    rw [← hc₂]
    exact hnoted.rto
  obtain ⟨c₃, hopen⟩ := activeOpen_ok_iff.mpr ⟨hnoted.options, hrto⟩
  obtain ⟨c₀, hc₀⟩ := synSentOpenWith_unattached hsock hopen
  refine ⟨c₀, fun destroy => ?_⟩
  have hsyn : handleSynSentWith destroy c₁ a = synSentOpenWith destroy c₂ a := by
    unfold handleSynSentWith
    dsimp only
    rw [if_neg (Bool.eq_false_iff.mp hnoted.taken), if_pos h.ack, hc₂,
      if_neg fun hr => absurd hr.1 (Bool.eq_false_iff.mp h.noRst), if_pos ⟨h.syn, h.ack⟩]
  unfold processStreamWith processAcceptedWith dispatchWith
  rw [if_neg hcode]
  dsimp only
  rw [if_neg (Bool.eq_false_iff.mp h.noRst), hc₁, hnoted.state]
  exact hsyn.trans (hc₀ destroy)

end Handlers

/-! ### The call -/

section Call

variable {P : Parts ρ} {w : World ρ} {a : Arrival ρ}

/-- What `cmt_tcp_process` makes of the connection at the end. -/
def returned (c : Conn ρ) : World ρ × ℤ := (c.toWorld, 1)

theorem processWith_callsLast (h : ¬OpensUnattached w a) :
    CallsLast returned fun destroy => processWith destroy P w a := by
  unfold processWith
  refine .ite (fun _ => .const _) fun hihl => .ite (fun _ => .const _) fun hcheck => .bind fun r hr => ?_
  cases r with
  | none => exact .const _
  | some c =>
    refine (processStreamWith_callsLast P fun h' => ?_).map returned
    unfold findStream at hr
    cases hw : w.stream with
    | some s =>
      rw [hw] at hr
      cases hr
      exact h ⟨s, hw, (not_not.mp hihl).symm, not_not.mp hcheck, h'⟩
    | none =>
      -- a new stream is not in `SYN_SENT`
      rw [hw] at hr
      obtain ⟨-, hst, -⟩ := (createStream_outcome w.tcp w.log a).of_ok hr c rfl
      rw [h'.state] at hst
      exact absurd hst (by decide)

theorem not_processWith_callsLast (h : OpensUnattached w a) :
    ¬CallsLast returned fun destroy => processWith destroy P w a := by
  obtain ⟨s, hs, hihl, hcheck, hopens⟩ := h
  obtain ⟨c₀, hc₀⟩ := processStreamWith_unattached
    (c := { tcp := w.tcp, stream := s, log := w.log }) P hopens
  have hcall : ∀ destroy : Conn ρ → Conn ρ, processWith destroy P w a =
      addToTimeoutList (addtoControllist (destroy c₀)) >>= fun c => .ok (returned c) := by
    intro destroy
    unfold processWith findStream
    rw [if_neg (not_not.mpr hihl.symm), if_neg (not_not.mpr hcheck), hs]
    exact congrArg (fun r => r >>= fun c => .ok (returned c)) (hc₀ destroy)
  -- what `stream_destroy` leaves decides whether the timeout list takes the stream
  have htimeout : ∀ on,
      (addtoControllist (c₀.mod fun s => { s with onTimeoutList := on })).stream.onTimeoutList = on :=
    fun on => (addtoControllist_scheduled _).steady.onTimeoutList
  have herror : processWith (fun c => c.mod fun s => { s with onTimeoutList := true }) P w a =
      .error .assertZero := by
    rw [hcall]
    unfold addToTimeoutList
    rw [if_pos (htimeout true)]
    rfl
  have hok : ∃ r, processWith (fun c => c.mod fun s => { s with onTimeoutList := false }) P w a = .ok r := by
    rw [hcall]
    unfold addToTimeoutList
    rw [if_neg (Bool.eq_false_iff.mp (htimeout false))]
    exact ⟨_, rfl⟩
  obtain ⟨r, hr⟩ := hok
  exact Lib.not_callsLast herror hr

theorem leavesDestroyed_iff_callsLast :
    LeavesDestroyed P w a ↔ CallsLast returned fun destroy => processWith destroy P w a := by
  unfold LeavesDestroyed CallsLast
  refine or_congr Iff.rfl ⟨?_, ?_⟩
  · rintro ⟨c, hlast, -⟩
    exact ⟨c, hlast⟩
  · rintro ⟨c, hlast⟩
    refine ⟨c, hlast, fun w' ret s hret hs => ?_⟩
    obtain ⟨rfl, -⟩ := Prod.mk.inj (Except.ok.inj ((hlast Conn.unlink).symm.trans hret))
    obtain rfl := Option.some.inj hs
    exact not_onList_unlink c

end Call

/-- **A destroyed stream is left alone** by `cmt_tcp_process`, for every stream and every segment, but for a
SYN+ACK that opens a stream without a socket. -/
theorem leavesDestroyed_iff (P : Parts ρ) (w : World ρ) (a : Arrival ρ) :
    LeavesDestroyed P w a ↔ ¬OpensUnattached w a := by
  rw [leavesDestroyed_iff_callsLast]
  exact ⟨fun h hopens => not_processWith_callsLast hopens h, processWith_callsLast⟩

/-- A stream in `SYN_SENT` to which no socket is attached. -/
def unattachedWorld : World (U32 × U32) where
  tcp := default
  stream := some
    { (default : Stream (U32 × U32)) with
      addr := 4096
      state := .synSent
      sndNxt := 101
      snd := { (default : SndVar) with iss := 100, sndUna := 100, rto := tcpInitialRto } }
  log := []

/-- The SYN+ACK for it, without options. -/
def unattachedSynAck : Arrival (U32 × U32) where
  seg := { (default : Segment) with
    ihl := 5, doff := 5, totLen := 40, seq := 90, ackSeq := 101, syn := true, ack := true }
  ts := 0
  listener := none
  streamObj := none
  sndObj := none
  rcvObj := none
  rand := 0
  recvGet := fun _ => none

/-- The stream is destroyed, and is on the control list and the timeout list when the call returns. -/
theorem leavesDestroyed_queued_again :
    ¬LeavesDestroyed inOrderParts unattachedWorld unattachedSynAck ∧
      ∃ w' s, processWith Conn.unlink inOrderParts unattachedWorld unattachedSynAck = .ok (w', 1) ∧
        w'.stream = some s ∧ s.addr ∈ w'.tcp.sender.controlList ∧ s.addr ∈ w'.tcp.timeoutList := by
  have hopens : OpensUnattached unattachedWorld unattachedSynAck :=
    ⟨_, rfl, rfl, rfl, rfl, rfl, rfl, rfl, rfl, by decide, by decide, by decide⟩
  refine ⟨fun h => ?_, _, _, rfl, rfl, by decide, by decide⟩
  exact not_processWith_callsLast hopens (leavesDestroyed_iff_callsLast.mp h)

end CmtTcp
