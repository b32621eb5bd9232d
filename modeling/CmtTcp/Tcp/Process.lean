import CmtTcp.Tcp.Handlers
import CmtTcp.Lib.Run

/-!
# Processing a segment

`create_tcp_stream` of `tcp_stream.c`, and `cmt_tcp_passive_open`, `cmt_create_stream` and
`cmt_tcp_process` of `tcp.c`. A `World` holds what the flow table has under one four-tuple; segments
are those of that connection.

A run takes received segments one after the other. Between them the endpoint may change the stream
itself, in the way the results that use it say (`Step`).
-/

namespace CmtTcp

open Lib (Outcome Run)

variable {ρ : Type}

/-! ### Creation -/

/-- `cmt_tcp_filter_synpkt`, for the listener on the port -/
def filterSynpkt (listener : Option Listener) (ip : U32) (port : U16) : Bool :=
  match listener with
  | none => false
  | some l =>
    if l.sinPort = port then
      if l.sinAddr ≠ 0 then (if ip = l.sinAddr then true else false)
      else false
    else false

/-- `create_tcp_stream`, with what the pools hand out. The fields it does not set are left as the
objects hold them. -/
def createTcpStream (a : Arrival ρ) (saddr : U32) (sport : U16) (daddr : U32) (dport : U16) :
    Option (Stream ρ) :=
  match a.streamObj, a.sndObj, a.rcvObj with
  | some stream, some snd, some rcv =>
    let iss := a.rand % tcpMaxSeq
    some
      { stream with
        saddr := saddr
        sport := sport
        daddr := daddr
        dport := dport
        state := .listen
        onRtoIdx := -1
        sndNxt := iss
        rcvNxt := 0
        snd := { snd with
          ipId := 0
          mss := tcpDefaultMss
          wscaleMine := tcpDefaultWscale
          wscalePeer := 0
          nifOut := 0
          iss := iss
          sndUna := iss
          sndWnd := cmtSendBufferSize
          rto := tcpInitialRto }
        rcv := { rcv with irs := 0, rcvWnd := tcpInitialWindow, sndWl1 := 0 - 1 } }
  | _, _, _ => none

/-- What `cmt_tcp_passive_open` stores in a new stream before it asks for a receive buffer. -/
def passiveInit (s : Stream ρ) (seg : Segment) : Stream ρ :=
  { s with
    rcvNxt := seg.seq
    snd := { s.snd with peerWnd := seg.window.setWidth 32, cwnd := 1 }
    rcv := { s.rcv with irs := seg.seq } }

/-- `cmt_tcp_passive_open` -/
def passiveOpen (tcp : TcpManager) (log : List (Event ρ)) (a : Arrival ρ) :
    Except Abort (Option (Conn ρ)) :=
  match createTcpStream a a.seg.daddr a.seg.dest a.seg.saddr a.seg.source with
  | none => .ok none
  | some s => do
    let c : Conn ρ := { tcp := tcp, stream := passiveInit s a.seg, log := log ++ [.entered s] }
    let buf := a.recvGet (c.stream.rcv.irs + 1)
    let c := c.modRcv fun rcv => { rcv with rcvbuf := buf }
    let c := if buf.isNone then c.close .closed .noMem else c
    let c ← parseOptions c a.ts a.seg
    .ok (some c)

/-- `cmt_create_stream` -/
def createStream (tcp : TcpManager) (log : List (Event ρ)) (a : Arrival ρ) :
    Except Abort (Option (Conn ρ)) :=
  if a.seg.syn ∧ ¬a.seg.ack then
    if filterSynpkt a.listener a.seg.daddr a.seg.dest then passiveOpen tcp log a else .ok none
  else .ok none

/-! ### `cmt_tcp_process` -/

/-- The part of `cmt_tcp_process` that every accepted segment goes through first. -/
def noteArrival (c : Conn ρ) (a : Arrival ρ) : Conn ρ :=
  updateTimeoutList <| c.mod fun s =>
    { s with
      snd := { s.snd with peerWnd := cwindow s a.seg }
      lastActiveTs := a.ts }

/-- `TIME_WAIT` in `cmt_tcp_process` -/
def handleTimeWait (c : Conn ρ) (a : Arrival ρ) : Except Abort (Conn ρ) :=
  if c.stream.onTimewaitList then do
    let c ← removeFromTimewaitList c
    .ok (addtoControllist (addToTimewaitList c a.ts))
  else .ok (addtoControllist c)

/-- `SYN_RCVD` in `cmt_tcp_process` -/
def handleSynRcvdData (P : Parts ρ) (c : Conn ρ) (a : Arrival ρ) : Except Abort (Conn ρ) :=
  if a.seg.syn ∧ a.seg.seq = c.stream.rcv.irs then handleListen c a
  else do
    let c ← handleSynRcvd c a
    if a.seg.payloadlen > 0 ∧ c.stream.state = .established then handleEstablished P c a
    else .ok c

/-- The `switch` of `cmt_tcp_process`. -/
def dispatch (P : Parts ρ) (c : Conn ρ) (a : Arrival ρ) : Except Abort (Conn ρ) :=
  match c.stream.state with
  | .listen => handleListen c a
  | .synSent => handleSynSent c a
  | .synRcvd => handleSynRcvdData P c a
  | .established => handleEstablished P c a
  | .closeWait => P.handleCloseWait c a
  | .lastAck => handleLastAck c a
  | .finWait1 => handleFinWait1 P c a
  | .finWait2 => handleFinWait2 P c a
  | .closing => handleClosing c a
  | .timeWait => handleTimeWait c a
  | .closed => .ok c

/-- `cmt_tcp_process` for a segment that is accepted. -/
def processAccepted (P : Parts ρ) (c : Conn ρ) (a : Arrival ρ) : Except Abort (Conn ρ) :=
  let c := noteArrival c a
  if a.seg.rst then
    let c := c.mod fun s => { s with haveReset := true }
    if c.stream.state.code > TcpState.synSent.code ∧ (processRst c a.seg.ackSeq).2 then
      .ok (processRst c a.seg.ackSeq).1
    else dispatch P c a
  else dispatch P c a

/-- `cmt_tcp_process` once it has the stream. -/
def processStream (P : Parts ρ) (c : Conn ρ) (a : Arrival ρ) : Except Abort (Conn ρ) :=
  if c.stream.state.code > TcpState.synRcvd.code then
    let r := validseq c a
    if r.2 then processAccepted P r.1 a else .ok r.1
  else processAccepted P c a

/-- The manager, what the flow table holds for the connection, and the log of the run. -/
structure World (ρ : Type) where
  tcp : TcpManager
  stream : Option (Stream ρ)
  log : List (Event ρ)

/-- The world a connection leaves behind. -/
def Conn.toWorld (c : Conn ρ) : World ρ := { tcp := c.tcp, stream := some c.stream, log := c.log }

/-- The stream of a segment: the one in the flow table, or a new one. -/
def findStream (w : World ρ) (a : Arrival ρ) : Except Abort (Option (Conn ρ)) :=
  match w.stream with
  | some s => .ok (some { tcp := w.tcp, stream := s, log := w.log })
  | none => createStream w.tcp w.log a

/-- `cmt_tcp_process` after the search for a stream. -/
def processFound (P : Parts ρ) (w : World ρ) (a : Arrival ρ) :
    Option (Conn ρ) → Except Abort (World ρ × ℤ)
  | none => .ok (w, -2)
  | some c => do
    let c ← processStream P c a
    .ok (c.toWorld, 1)

/-- `cmt_tcp_process` -/
def process (P : Parts ρ) (w : World ρ) (a : Arrival ρ) : Except Abort (World ρ × ℤ) :=
  -- `sizeof(struct iphdr) == (iph->ihl << 2)`
  if 20 ≠ a.seg.ihl.toNat * 4 then .error .assertHeader
  else if a.seg.check ≠ 0 then .ok (w, -1)
  else findStream w a >>= processFound P w a

/-! ### Runs -/

/-- What happens between two looks at a connection: a segment is received, or the endpoint changes
the stream on its own account. -/
inductive Label (ρ : Type)
  | segment (a : Arrival ρ)
  | endpoint (tcp : TcpManager) (s : Stream ρ)

/-- One step, where `allowed` says what the endpoint may do to its stream. -/
inductive Step (P : Parts ρ) (allowed : Stream ρ → Stream ρ → Prop) :
    World ρ → Label ρ → World ρ → Prop
  | segment {w w' : World ρ} {a : Arrival ρ} {ret : ℤ} (h : process P w a = .ok (w', ret)) :
      Step P allowed w (.segment a) w'
  | endpoint {w : World ρ} {s s' : Stream ρ} {tcp : TcpManager} (hs : w.stream = some s)
      (h : allowed s s') :
      Step P allowed w (.endpoint tcp s') { w with tcp := tcp, stream := some s' }

/-- A stream that `create_tcp_stream` made and an active open brought to `SYN_SENT`. -/
def ActivelyOpened (s : Stream ρ) : Prop :=
  ∃ a saddr sport daddr dport s₀, createTcpStream a saddr sport daddr dport = some s₀ ∧
    s = { s₀ with state := .synSent, sndNxt := s₀.snd.iss + 1 }

/-! ### Where a stream starts -/

section Start

variable {a : Arrival ρ} {saddr daddr : U32} {sport dport : U16} {s : Stream ρ} {w : World ρ}

theorem createTcpStream_new (h : createTcpStream a saddr sport daddr dport = some s) :
    s.state = .listen ∧ s.snd.sndUna = s.snd.iss := by
  unfold createTcpStream at h
  split at h
  · cases h
    exact ⟨rfl, rfl⟩
  · cases h

/-- An actively opened stream waits for the acknowledgement of its SYN. -/
theorem ActivelyOpened.fresh (h : ActivelyOpened s) :
    s.state = .synSent ∧ s.snd.sndUna = s.snd.iss ∧ s.sndNxt = s.snd.iss + 1 := by
  obtain ⟨a, _, _, _, _, s₀, hcreate, rfl⟩ := h
  exact ⟨rfl, (createTcpStream_new hcreate).2, rfl⟩

/-- The stream a run starts with, if there is one. -/
theorem activelyOpened_of_start
    (h₀ : w.stream = none ∨ ∃ s, w.stream = some s ∧ ActivelyOpened s) (hs : w.stream = some s) :
    ActivelyOpened s := by
  rcases h₀ with h₀ | ⟨s', h₀, hopen⟩
  · rw [h₀] at hs
    cases hs
  · obtain rfl : s' = s := Option.some.inj (h₀.symm.trans hs)
    exact hopen

end Start

/-! ### How a call comes about -/

section Calls

variable {P : Parts ρ} {c : Conn ρ} {a : Arrival ρ}

/-- What a segment leaves of its stream before it is dispatched. -/
theorem noteArrival_stream (c : Conn ρ) (a : Arrival ρ) :
    (noteArrival c a).stream =
      { c.stream with
        snd := { c.stream.snd with peerWnd := cwindow c.stream a.seg }
        lastActiveTs := a.ts } :=
  (updateTimeoutList_eq _).1

theorem noteArrival_same (c : Conn ρ) (a : Arrival ρ) : c.Same (noteArrival c a) := by
  have hs := noteArrival_stream c a
  refine ⟨⟨?_, (updateTimeoutList_eq _).2⟩, ?_, ?_⟩
  · rw [hs]
    rfl
  · rw [hs]
    rfl
  · rw [hs]

/-- Past `SYN_SENT`, `cmt_tcp_process_rst` ends the processing of the segment. -/
theorem processRst_ends (h : c.stream.state.code > TcpState.synSent.code) (ackSeq : U32) :
    (processRst c ackSeq).2 = true := by
  unfold processRst
  dsimp only
  rw [if_neg (by omega)]
  split
  · rfl
  split
  · rfl
  split
  · rfl
  · rfl

/-- The rule for an accepted segment: it is a reset, or it is dispatched on the state. -/
theorem processAccepted_outcome {E : Abort → Prop} {Q : Conn ρ → Prop}
    (hrst : ∀ c', c.Same c' → a.seg.rst → c.stream.state.code > TcpState.synSent.code →
      Q (processRst c' a.seg.ackSeq).1)
    (hdispatch : ∀ c', c.Same c' → (a.seg.rst → c.stream.state.code ≤ TcpState.synSent.code) →
      Outcome (dispatch P c' a) E Q) :
    Outcome (processAccepted P c a) E Q := by
  have hnote := noteArrival_same c a
  unfold processAccepted
  refine Outcome.ite (fun hr => ?_) fun hr => hdispatch _ hnote fun h => absurd h hr
  -- `have_reset` is set before the state is looked at
  have hsame : c.Same ((noteArrival c a).mod fun s => { s with haveReset := true }) :=
    hnote.trans ⟨⟨rfl, rfl⟩, rfl, rfl⟩
  refine Outcome.ite (fun h => ?_) fun h => hdispatch _ hsame fun _ => ?_
  · exact hrst _ hsame hr (by rw [← hsame.steady.state]; exact h.1)
  · by_contra hgt
    refine h ⟨?_, processRst_ends ?_ _⟩
    all_goals
      rw [hsame.steady.state]
      omega

/-- The rule for a segment whose stream is known: it is refused, or accepted. -/
theorem processStream_outcome {E : Abort → Prop} {Q : Conn ρ → Prop}
    (hrefuse : ∀ c', c.Same c' → c.stream.state.code > TcpState.synRcvd.code → Q c')
    (hrst : ∀ c', c.Same c' → a.seg.rst → c.stream.state.code > TcpState.synSent.code →
      Q (processRst c' a.seg.ackSeq).1)
    (hdispatch : ∀ c', c.Same c' → (a.seg.rst → c.stream.state.code ≤ TcpState.synSent.code) →
      Outcome (dispatch P c' a) E Q) :
    Outcome (processStream P c a) E Q := by
  unfold processStream
  refine Outcome.ite (fun hgt => ?_) fun _ => processAccepted_outcome hrst hdispatch
  have hsame := validseq_same c a
  refine Outcome.ite (fun _ => ?_) fun _ => hrefuse _ hsame hgt
  refine processAccepted_outcome (fun c' h hr hcode => ?_) fun c' h hcode => ?_
  · exact hrst c' (hsame.trans h) hr (by rwa [hsame.steady.state] at hcode)
  · exact hdispatch c' (hsame.trans h) (by rwa [hsame.steady.state] at hcode)

/-- A segment with a wrong checksum is dropped. -/
theorem process_checked {w w' : World ρ} {ret : ℤ} (h : process P w a = .ok (w', ret)) :
    w' = w ∨ a.seg.check = 0 := by
  unfold process at h
  split at h
  · cases h
  split at h
  · cases h
    exact .inl rfl
  · next hc => exact .inr (not_not.mp hc)

/-- A call that returns leaves the world alone, or runs the segment through its stream. -/
theorem process_ok {w w' : World ρ} {ret : ℤ} (h : process P w a = .ok (w', ret)) :
    w' = w ∨ ∃ c c', findStream w a = .ok (some c) ∧ processStream P c a = .ok c' ∧
      w' = c'.toWorld := by
  unfold process at h
  split at h
  · cases h
  split at h
  · cases h
    exact .inl rfl
  -- the header and the checksum are fine
  cases hf : findStream w a with
  | error e =>
    rw [hf] at h
    cases h
  | ok r =>
    rw [hf] at h
    change processFound P w a r = .ok (w', ret) at h
    cases r with
    | none =>
      cases h
      exact .inl rfl
    | some c =>
      refine .inr ⟨c, ?_⟩
      unfold processFound at h
      dsimp only at h
      cases hp : processStream P c a with
      | error e =>
        rw [hp] at h
        cases h
      | ok c' =>
        rw [hp] at h
        cases h
        exact ⟨c', rfl, rfl, rfl⟩

end Calls

end CmtTcp
