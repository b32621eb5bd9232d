import CmtTcp.Tcp.State
import CmtTcp.Lib.Outcome

/-!
# Transmission lists and timers

The functions of `tcp.c` that put a stream on the lists of the sender, and the functions of `timer.c`
that `cmt_tcp_process` reaches. Each of them leaves the stream as it was but for what is scheduled:
`addtoAcklist_scheduled` and its siblings.
-/

namespace CmtTcp

open Lib (Outcome)

variable {ρ : Type} {c : Conn ρ}

/-! ### The lists of the sender -/

/-- What the three `cmt_tcp_addto_*` do: unless the stream is marked as being on the list, mark it,
link it at the end and count it. -/
def addto (on : SndVar → Bool) (mark : SndVar → SndVar) (link : Sender → Addr → Sender)
    (c : Conn ρ) : Conn ρ :=
  if on c.stream.snd then c
  else
    let c := c.modSnd mark
    { c with tcp := { c.tcp with sender := link c.tcp.sender c.stream.addr } }

/-- `cmt_tcp_addto_acklist` -/
def addtoAcklist (c : Conn ρ) : Conn ρ :=
  addto (fun snd => snd.onAckList) (fun snd => { snd with onAckList := true })
    (fun sender a =>
      { sender with ackList := sender.ackList ++ [a], ackListCnt := sender.ackListCnt + 1 }) c

/-- `cmt_tcp_addto_controllist` -/
def addtoControllist (c : Conn ρ) : Conn ρ :=
  addto (fun snd => snd.onControlList) (fun snd => { snd with onControlList := true })
    (fun sender a =>
      { sender with
        controlList := sender.controlList ++ [a]
        controlListCnt := sender.controlListCnt + 1 }) c

/-- `cmt_tcp_addto_sendlist`, which a stream without a send buffer must not reach -/
def addtoSendlist (c : Conn ρ) : Except Abort (Conn ρ) :=
  if c.stream.snd.sndbuf.isNone then .error .assertZero
  else .ok <|
    addto (fun snd => snd.onSendList) (fun snd => { snd with onSendList := true })
      (fun sender a =>
        { sender with sendList := sender.sendList ++ [a], sendListCnt := sender.sendListCnt + 1 }) c

/-- `cmt_tcp_remove_sendlist` -/
def removeSendlist (c : Conn ρ) : Conn ρ :=
  if c.stream.snd.onSendList then
    let c := c.modSnd fun snd => { snd with onSendList := false }
    let sender := c.tcp.sender
    { c with tcp := { c.tcp with
        sender := { sender with
          sendList := sender.sendList.erase c.stream.addr
          sendListCnt := sender.sendListCnt - 1 } } }
  else c

/-- `cmt_tcp_remove_controllist` -/
def removeControllist (c : Conn ρ) : Conn ρ :=
  if c.stream.snd.onControlList then
    let c := c.modSnd fun snd => { snd with onControlList := false }
    let sender := c.tcp.sender
    { c with tcp := { c.tcp with
        sender := { sender with
          controlList := sender.controlList.erase c.stream.addr
          controlListCnt := sender.controlListCnt - 1 } } }
  else c

/-- `enum ack_opt` -/
inductive AckOpt
  | now
  | aggregate
  | wack
deriving DecidableEq, Repr

/-- `cmt_tcp_enqueue_acklist`; its `sndvar>ack_cnt++` is read as `sndvar->ack_cnt++`. -/
def enqueueAcklist (c : Conn ρ) (opt : AckOpt) : Conn ρ :=
  let c :=
    match opt with
    | .now => c.modSnd fun snd => { snd with ackCnt := snd.ackCnt + 1 }
    | .aggregate =>
      if c.stream.snd.ackCnt = 0 then c.modSnd fun snd => { snd with ackCnt := 1 } else c
    | .wack => c.modSnd fun snd => { snd with isWack := true }
  addtoAcklist c

theorem addto_scheduled {on : SndVar → Bool} {mark : SndVar → SndVar}
    {link : Sender → Addr → Sender} (c : Conn ρ) (hmark : (c.modSnd mark).stream.work = c.stream.work) :
    c.Scheduled (addto on mark link c) := by
  unfold addto
  split
  · exact .refl c
  · exact ⟨hmark, rfl⟩

theorem addtoAcklist_scheduled (c : Conn ρ) : c.Scheduled (addtoAcklist c) :=
  addto_scheduled c rfl

theorem addtoControllist_scheduled (c : Conn ρ) : c.Scheduled (addtoControllist c) :=
  addto_scheduled c rfl

theorem addtoSendlist_outcome (c : Conn ρ) :
    Outcome (addtoSendlist c) (fun e => e = .assertZero ∧ c.stream.snd.sndbuf = none)
      c.Scheduled := by
  unfold addtoSendlist
  refine Outcome.ite (fun h => ⟨rfl, Option.isNone_iff_eq_none.mp h⟩) fun _ => ?_
  exact addto_scheduled c rfl

/-- The stream with its flag for the send list set. -/
theorem Stream.flag_send {s : Stream ρ} (h : s.snd.onSendList = true) :
    s = { s with snd := { s.snd with onSendList := true } } := by
  rw [← h]

/-- What `cmt_tcp_addto_sendlist` leaves of a stream with a send buffer, and of the send list. -/
theorem addtoSendlist_ok (hbuf : c.stream.snd.sndbuf ≠ none) :
    ∃ c', addtoSendlist c = .ok c' ∧
      c'.stream = { c.stream with snd := { c.stream.snd with onSendList := true } } ∧
      c'.tcp.sender.controlList = c.tcp.sender.controlList ∧
      c'.tcp.sender.sendList =
        if c.stream.snd.onSendList then c.tcp.sender.sendList
        else c.tcp.sender.sendList ++ [c.stream.addr] := by
  have hsome : ¬c.stream.snd.sndbuf.isNone = true := mt Option.isNone_iff_eq_none.mp hbuf
  unfold addtoSendlist addto
  rw [if_neg hsome]
  refine ⟨_, rfl, ?_⟩
  by_cases hon : c.stream.snd.onSendList = true
  · simp only [if_pos hon]
    exact ⟨Stream.flag_send hon, trivial, trivial⟩
  · simp only [if_neg hon]
    exact ⟨rfl, rfl, rfl⟩

/-- Of a stream, `cmt_tcp_addto_sendlist` changes the mark only. -/
theorem addtoSendlist_stream (c : Conn ρ) :
    Outcome (addtoSendlist c) (· = .assertZero) fun c' =>
      c'.stream = { c.stream with snd := { c.stream.snd with onSendList := true } } := by
  by_cases hbuf : c.stream.snd.sndbuf = none
  · unfold addtoSendlist
    rw [hbuf]
    exact rfl
  · obtain ⟨c', hadd, hstream, -⟩ := addtoSendlist_ok hbuf
    rw [hadd]
    exact hstream

/-- What `cmt_tcp_addto_controllist` leaves of a stream, and of the control list. -/
theorem addtoControllist_eq (c : Conn ρ) :
    (addtoControllist c).stream =
        { c.stream with snd := { c.stream.snd with onControlList := true } } ∧
      (addtoControllist c).tcp.sender.sendList = c.tcp.sender.sendList ∧
      (addtoControllist c).tcp.sender.controlList =
        if c.stream.snd.onControlList then c.tcp.sender.controlList
        else c.tcp.sender.controlList ++ [c.stream.addr] := by
  unfold addtoControllist addto
  by_cases hon : c.stream.snd.onControlList = true
  · simp only [if_pos hon]
    exact ⟨by rw [← hon], trivial, trivial⟩
  · simp only [if_neg hon]
    exact ⟨rfl, rfl, rfl⟩

/-- What `cmt_tcp_remove_controllist` leaves of a stream, and of the control list. -/
theorem removeControllist_eq (c : Conn ρ) :
    (removeControllist c).stream =
        { c.stream with snd := { c.stream.snd with onControlList := false } } ∧
      (removeControllist c).tcp.sender.sendList = c.tcp.sender.sendList ∧
      (removeControllist c).tcp.sender.controlList =
        if c.stream.snd.onControlList then c.tcp.sender.controlList.erase c.stream.addr
        else c.tcp.sender.controlList := by
  unfold removeControllist
  by_cases hon : c.stream.snd.onControlList = true
  · simp only [if_pos hon]
    exact ⟨rfl, rfl, rfl⟩
  · simp only [if_neg hon]
    exact ⟨by rw [← Bool.eq_false_of_not_eq_true hon], trivial, trivial⟩

theorem removeSendlist_scheduled (c : Conn ρ) : c.Scheduled (removeSendlist c) := by
  unfold removeSendlist
  split
  · exact ⟨rfl, rfl⟩
  · exact .refl c

theorem enqueueAcklist_scheduled (c : Conn ρ) (opt : AckOpt) :
    c.Scheduled (enqueueAcklist c opt) := by
  refine Conn.Scheduled.trans ?_ (addtoAcklist_scheduled _)
  cases opt with
  | now => exact ⟨rfl, rfl⟩
  | aggregate =>
    dsimp only
    split
    · exact ⟨rfl, rfl⟩
    · exact .refl c
  | wack => exact ⟨rfl, rfl⟩

/-! ### The retransmission timer -/

/-- `add_to_rto_list` -/
def addToRtoList (c : Conn ρ) : Conn ρ :=
  -- an empty store starts over at the deadline of the stream
  let c :=
    if c.tcp.rtoListCnt = 0 then
      { c with tcp := { c.tcp with
          rtoStore := { c.tcp.rtoStore with rtoNowIdx := 0, rtoNowTs := c.stream.snd.tsRto } } }
    else c
  if c.stream.onRtoIdx < 0 then
    let diff := (c.stream.snd.tsRto - c.tcp.rtoStore.rtoNowTs).toInt
    let offset := if diff < rtoHash then c.stream.snd.tsRto.toNat % rtoHash else rtoHash
    let c := c.mod fun s => { s with onRtoIdx := offset }
    let store := c.tcp.rtoStore
    { c with tcp := { c.tcp with
        rtoStore := { store with
          rtoList := Function.update store.rtoList offset
            (store.rtoList offset ++ [c.stream.addr]) }
        rtoListCnt := c.tcp.rtoListCnt + 1 } }
  else c

/-- `remove_from_rto_list` -/
def removeFromRtoList (c : Conn ρ) : Conn ρ :=
  if c.stream.onRtoIdx < 0 then c
  else
    let idx := c.stream.onRtoIdx.toNat
    let store := c.tcp.rtoStore
    let c := c.mod fun s => { s with onRtoIdx := -1 }
    { c with tcp := { c.tcp with
        rtoStore := { store with
          rtoList := Function.update store.rtoList idx
            ((store.rtoList idx).erase c.stream.addr) }
        rtoListCnt := c.tcp.rtoListCnt - 1 } }

/-- `update_retransmission_timer` -/
def updateRetransmissionTimer (c : Conn ρ) (curTs : U32) : Except Abort (Conn ρ) :=
  if c.stream.snd.rto > 0 then
    let c := c.modSnd fun snd => { snd with nrtx := 0 }
    let c := if c.stream.onRtoIdx ≥ 0 then removeFromRtoList c else c
    if tcpSeqGt c.stream.sndNxt c.stream.snd.sndUna then
      .ok (addToRtoList (c.modSnd fun snd => { snd with tsRto := curTs + snd.rto }))
    else .ok c
  else .error .assertRto

theorem addToRtoList_scheduled (c : Conn ρ) : c.Scheduled (addToRtoList c) := by
  unfold addToRtoList
  by_cases hcnt : c.tcp.rtoListCnt = 0
  · simp only [if_pos hcnt]
    split
    · exact ⟨rfl, rfl⟩
    · exact ⟨rfl, rfl⟩
  · simp only [if_neg hcnt]
    split
    · exact ⟨rfl, rfl⟩
    · exact .refl c

theorem removeFromRtoList_scheduled (c : Conn ρ) : c.Scheduled (removeFromRtoList c) := by
  unfold removeFromRtoList
  split
  · exact .refl c
  · exact ⟨rfl, rfl⟩

theorem updateRetransmissionTimer_outcome (c : Conn ρ) (curTs : U32) :
    Outcome (updateRetransmissionTimer c curTs) (· = .assertRto) c.Scheduled := by
  unfold updateRetransmissionTimer
  refine Outcome.ite (fun _ => ?_) fun _ => rfl
  -- the stream is taken out of the store before it is put in again
  have hout : c.Scheduled
      (if (c.modSnd fun snd => { snd with nrtx := 0 }).stream.onRtoIdx ≥ 0 then
        removeFromRtoList (c.modSnd fun snd => { snd with nrtx := 0 })
      else c.modSnd fun snd => { snd with nrtx := 0 }) := by
    have hnrtx : c.Scheduled (c.modSnd fun snd => { snd with nrtx := 0 }) := ⟨rfl, rfl⟩
    split
    · exact hnrtx.trans (removeFromRtoList_scheduled _)
    · exact hnrtx
  refine Outcome.ite (fun _ => ?_) fun _ => hout
  exact hout.trans (Conn.Scheduled.trans ⟨by rfl, by rfl⟩ (addToRtoList_scheduled _))

theorem updateRetransmissionTimer_ok_iff {curTs : U32} :
    (∃ c', updateRetransmissionTimer c curTs = .ok c') ↔ c.stream.snd.rto > 0 := by
  -- the one assertion is on `rto`
  unfold updateRetransmissionTimer
  by_cases hpos : c.stream.snd.rto > 0
  · refine iff_of_true ?_ hpos
    rw [if_pos hpos]
    dsimp only
    repeat' split
    all_goals exact ⟨_, rfl⟩
  · refine iff_of_false ?_ hpos
    rw [if_neg hpos]
    rintro ⟨c', h⟩
    cases h

/-! ### The timewait list and the timeout list -/

/-- `remove_from_timewait_list` -/
def removeFromTimewaitList (c : Conn ρ) : Except Abort (Conn ρ) :=
  if c.stream.onTimewaitList then
    let c := c.mod fun s => { s with onTimewaitList := false }
    .ok { c with tcp := { c.tcp with
      timewaitList := c.tcp.timewaitList.erase c.stream.addr
      timewaitListCnt := c.tcp.timewaitListCnt - 1 } }
  else .error .assertZero

/-- `add_to_timewait_list` -/
def addToTimewaitList (c : Conn ρ) (curTs : U32) : Conn ρ :=
  let c := c.modRcv fun rcv => { rcv with tsTwExpire := curTs + cmtTcpTimewait }
  if c.stream.onTimewaitList then
    -- the list stays sorted by expiry
    { c with tcp := { c.tcp with
        timewaitList := c.tcp.timewaitList.erase c.stream.addr ++ [c.stream.addr] } }
  else
    let c := if c.stream.onRtoIdx ≥ 0 then removeFromRtoList c else c
    let c := c.mod fun s => { s with onTimewaitList := true }
    { c with tcp := { c.tcp with
        timewaitList := c.tcp.timewaitList ++ [c.stream.addr]
        timewaitListCnt := c.tcp.timewaitListCnt + 1 } }

/-- `add_to_timeout_list` -/
def addToTimeoutList (c : Conn ρ) : Except Abort (Conn ρ) :=
  if c.stream.onTimeoutList then .error .assertZero
  else
    let c := c.mod fun s => { s with onTimeoutList := true }
    .ok { c with tcp := { c.tcp with
      timeoutList := c.tcp.timeoutList ++ [c.stream.addr]
      timeoutListCnt := c.tcp.timeoutListCnt + 1 } }

/-- `remove_from_timeout_list` -/
def removeFromTimeoutList (c : Conn ρ) : Conn ρ :=
  if c.stream.onTimeoutList then
    let c := c.mod fun s => { s with onTimeoutList := false }
    { c with tcp := { c.tcp with
      timeoutList := c.tcp.timeoutList.erase c.stream.addr
      timeoutListCnt := c.tcp.timeoutListCnt - 1 } }
  else c

/-- `update_timeout_list` -/
def updateTimeoutList (c : Conn ρ) : Conn ρ :=
  if c.stream.onTimeoutList then
    { c with tcp := { c.tcp with
        timeoutList := c.tcp.timeoutList.erase c.stream.addr ++ [c.stream.addr] } }
  else c

theorem removeFromTimewaitList_outcome (c : Conn ρ) :
    Outcome (removeFromTimewaitList c)
      (fun e => e = .assertZero ∧ c.stream.onTimewaitList = false) c.Scheduled := by
  unfold removeFromTimewaitList
  refine Outcome.ite (fun _ => ⟨rfl, rfl⟩) fun h => ⟨rfl, ?_⟩
  simpa only [Bool.not_eq_true] using h

theorem addToTimewaitList_scheduled (c : Conn ρ) (curTs : U32) :
    c.Scheduled (addToTimewaitList c curTs) := by
  unfold addToTimewaitList
  have hts : c.Scheduled
      (c.modRcv fun rcv => { rcv with tsTwExpire := curTs + cmtTcpTimewait }) := ⟨rfl, rfl⟩
  dsimp only
  split
  · exact hts.trans ⟨rfl, rfl⟩
  · split
    · exact hts.trans ((removeFromRtoList_scheduled _).trans ⟨rfl, rfl⟩)
    · exact hts.trans ⟨rfl, rfl⟩

/-- `add_to_timeout_list` succeeds once, and then the stream is on the list. -/
theorem addToTimeoutList_outcome (c : Conn ρ) :
    Outcome (addToTimeoutList c) (fun e => e = .assertZero ∧ c.stream.onTimeoutList = true)
      fun c' => c'.stream = { c.stream with onTimeoutList := true } ∧ c'.log = c.log := by
  unfold addToTimeoutList
  exact Outcome.ite (fun h => ⟨rfl, h⟩) fun _ => ⟨rfl, rfl⟩

/-- `update_timeout_list` does not touch the stream. -/
theorem updateTimeoutList_eq (c : Conn ρ) :
    (updateTimeoutList c).stream = c.stream ∧ (updateTimeoutList c).log = c.log := by
  unfold updateTimeoutList
  split
  · exact ⟨rfl, rfl⟩
  · exact ⟨rfl, rfl⟩

end CmtTcp
