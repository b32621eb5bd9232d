import CmtTcp.RecvBuffer
import CmtTcp.SendBuffer

/-!
# Streams, segments and the per-core manager

The records of `tcp.h` and `cmtTCP.h` that `tcp.c`, `tcp_stream.c` and `timer.c` work on. The names of
the states with `NTY_` and `CMT_`, the fields `snd` and `sndvar`, `rcv`, `rcvvar` and `recvvar`,
`rcvbuf` and `recvbuf`, `rto_list` and `rto_store` are each one thing.

A stream is identified with its address: the links of a stream on the lists of the manager are that
address. The receive buffer is a type `ρ` with the operations `RecvOps`, so that nothing below
depends on how it reassembles.

A `Conn` is what the functions of `tcp.c` see of one connection: the manager, the stream, and a log
of the events of the run. The log is not in the source: an event is recorded where the source
assigns `state` (where it also writes its trace message), where it counts the peer's FIN, and where
it calls `stream_destroy`.
-/

namespace CmtTcp

variable {ρ : Type}

/-! ### Constants of `tcp.h` and `timer.h` -/

def tcpHeaderLen : ℕ := 20
def tcpDefaultMss : U16 := 1460
def tcpDefaultWscale : U8 := 7
def tcpInitialWindow : U32 := 14600
def tcpMaxSeq : U32 := 4294967295
def cmtSendBufferSize : U32 := 8192
def cmtTcpTimewait : U32 := 0
def tcpMaxRtx : U8 := 16
/-- `MSEC_TO_USEC(500) / TIME_TICK` -/
def tcpInitialRto : U32 := 500
def rtoHash : ℕ := 3000
def tcpoptTimestampsLen : U16 := 10

/-- `cmt_tcp_state_t` -/
inductive TcpState
  | closed
  | listen
  | synSent
  | synRcvd
  | established
  | closeWait
  | finWait1
  | closing
  | lastAck
  | finWait2
  | timeWait
deriving DecidableEq, Repr, Inhabited

/-- The number of a state, which the source compares with `<`, `>`, `<=` and `>=`. -/
def TcpState.code : TcpState → ℕ
  | closed => 0
  | listen => 1
  | synSent => 2
  | synRcvd => 3
  | established => 4
  | closeWait => 5
  | finWait1 => 6
  | closing => 7
  | lastAck => 8
  | finWait2 => 9
  | timeWait => 10

/-- `enum tcp_close_reason` -/
inductive CloseReason
  | notClosed
  | activeClose
  | passiveClose
  | connFail
  | connLost
  | reset
  | noMem
  | notAccepted
  | timeout
deriving DecidableEq, Repr, Inhabited

/-- `cmt_tcp_send_t`: the one-bit fields and the flags are `Bool`s. -/
structure SndVar where
  ipId : U16
  mss : U16
  effMss : U16
  wscaleMine : U8
  wscalePeer : U8
  nifOut : U8
  sndUna : U32
  sndWnd : U32
  peerWnd : U32
  iss : U32
  fss : U32
  nrtx : U8
  maxNrtx : U8
  rto : U32
  tsRto : U32
  cwnd : U32
  ssthresh : U32
  isWack : Bool
  ackCnt : U8
  onControlList : Bool
  onSendList : Bool
  onAckList : Bool
  onCloseq : Bool
  onResetq : Bool
  onCloseqInt : Bool
  onResetqInt : Bool
  isFinSent : Bool
  sndbuf : Option SendBuffer
deriving DecidableEq, Repr, Inhabited

/-- `cmt_tcp_recv_t` -/
structure RcvVar (ρ : Type) where
  rcvWnd : U32
  irs : U32
  sndWl1 : U32
  sndWl2 : U32
  dupAcks : U8
  lastAckSeq : U32
  tsRecent : U32
  tsLastackRcvd : U32
  tsLastTsUpd : U32
  tsTwExpire : U32
  srtt : U32
  mdev : U32
  mdevMax : U32
  rttvar : U32
  rttSeq : U32
  rcvbuf : Option ρ
deriving DecidableEq, Repr, Inhabited

/-- `cmt_tcp_stream_t`; `s` says whether a socket is attached. -/
structure Stream (ρ : Type) where
  /-- where the object lies -/
  addr : Addr
  s : Bool
  saddr : U32
  daddr : U32
  sport : U16
  dport : U16
  state : TcpState
  closeReason : CloseReason
  onTimewaitList : Bool
  onRtoIdx : ℤ
  onTimeoutList : Bool
  sawTimestamp : Bool
  sackPermit : Bool
  controlListWaiting : Bool
  haveReset : Bool
  lastActiveTs : U32
  sndNxt : U32
  rcvNxt : U32
  snd : SndVar
  rcv : RcvVar ρ
deriving DecidableEq, Repr, Inhabited

/-! ### The manager -/

/-- `cmt_sender_t` -/
structure Sender where
  controlList : List Addr
  sendList : List Addr
  ackList : List Addr
  controlListCnt : U32
  sendListCnt : U32
  ackListCnt : U32
deriving DecidableEq, Repr, Inhabited

/-- `cmt_rto_hashstore_t`, with its `RTO_HASH + 1` buckets. -/
structure RtoHashstore where
  rtoNowIdx : U32
  rtoNowTs : U32
  rtoList : ℕ → List Addr
deriving Inhabited

/-- The lists of `cmttcp_manager_per_cpu_t`. -/
structure TcpManager where
  sender : Sender
  rtoStore : RtoHashstore
  timewaitList : List Addr
  timeoutList : List Addr
  rtoListCnt : ℤ
  timewaitListCnt : ℤ
  timeoutListCnt : ℤ
deriving Inhabited

/-! ### Segments -/

/-- A received IPv4/TCP segment, its header fields in host order. -/
structure Segment where
  ihl : BitVec 4
  totLen : U16
  saddr : U32
  daddr : U32
  source : U16
  dest : U16
  seq : U32
  ackSeq : U32
  doff : BitVec 4
  fin : Bool
  syn : Bool
  rst : Bool
  ack : Bool
  window : U16
  /-- what `cmt_tcp_calculate_checksum` yields for the segment -/
  check : U16
  /-- the bytes in memory behind the fixed TCP header -/
  opt : ℕ → U8
  payload : List U8
deriving Inhabited

namespace Segment

/-- `payloadlen`: an `int`, which nothing keeps from being negative. -/
def payloadlen (seg : Segment) : ℤ :=
  (seg.totLen.toNat : ℤ) - seg.ihl.toNat * 4 - seg.doff.toNat * 4

/-- `(tcph->doff << 2) - TCP_HEADER_LEN`: how many bytes of `opt` are options. -/
def optlen (seg : Segment) : ℕ := seg.doff.toNat * 4 - tcpHeaderLen

/-- `seq + payloadlen` -/
def seqEnd (seg : Segment) : U32 := seg.seq + BitVec.ofInt 32 seg.payloadlen

end Segment

/-- What `listen_ht_search` finds: the socket address of the listener, and what `stream_enqueue` on
its accept queue returns. -/
structure Listener where
  sinPort : U16
  sinAddr : U32
  enqueueRet : ℤ
deriving DecidableEq, Repr, Inhabited

/-- A received segment with everything else the call depends on: the clock, the listener on the
segment's port, what the pools hand out (`NULL`, or an object with whatever it holds), and the
number `rand_r` draws. -/
structure Arrival (ρ : Type) where
  seg : Segment
  ts : U32
  listener : Option Listener
  streamObj : Option (Stream ρ)
  sndObj : Option SndVar
  rcvObj : Option (RcvVar ρ)
  rand : U32
  /-- `recv_get`, by the initial sequence number asked for -/
  recvGet : U32 → Option ρ

/-- The receive buffer, as `tcp.c` uses it. -/
structure RecvOps (ρ : Type) where
  /-- `recv_put`, which may not return; what it returns is only traced -/
  put : ρ → List U8 → U32 → U32 → Except RecvFault ρ
  /-- `recv_remove`, which may not return -/
  remove : ρ → U32 → Except RecvFault ρ
  headSeq : ρ → U32
  mergedLen : ρ → U32
  size : ρ → U32
  cumLen : ρ → U64

/-! ### One connection -/

/-- What the log of a run records. -/
inductive Event (ρ : Type)
  /-- `state` was assigned; the stream right after it -/
  | entered (s : Stream ρ)
  /-- the FIN of a segment was counted; `rcv_nxt` before and after -/
  | finTaken (seg : Segment) (before after : U32)
  /-- `stream_destroy` was called -/
  | destroyed

/-- The stream that an event reports as entering `ESTABLISHED`. -/
def Event.opened : Event ρ → Option (Stream ρ)
  | entered s => if s.state = .established then some s else none
  | _ => none

/-- The FIN that an event reports as counted, with `rcv_nxt` before and after. -/
def Event.taken : Event ρ → Option (Segment × U32 × U32)
  | finTaken seg before after => some (seg, before, after)
  | _ => none

/-- The times `ESTABLISHED` was entered. -/
def opens (log : List (Event ρ)) : List (Stream ρ) := log.filterMap Event.opened

/-- The FINs that were counted. -/
def fins (log : List (Event ρ)) : List (Segment × U32 × U32) := log.filterMap Event.taken

@[simp] theorem opens_snoc (log : List (Event ρ)) (e : Event ρ) :
    opens (log ++ [e]) = opens log ++ e.opened.toList := by
  unfold opens
  rw [List.filterMap_append]
  cases h : e.opened <;> simp [h]

@[simp] theorem fins_snoc (log : List (Event ρ)) (e : Event ρ) :
    fins (log ++ [e]) = fins log ++ e.taken.toList := by
  unfold fins
  rw [List.filterMap_append]
  cases h : e.taken <;> simp [h]

/-- The ways for `cmt_tcp_process` not to return. -/
inductive Abort
  /-- `exit(1)` -/
  | exit
  /-- `assert(0)` -/
  | assertZero
  /-- the assertion on the length of the IP header -/
  | assertHeader
  /-- the assertions on `rto` -/
  | assertRto
  /-- a division by zero -/
  | divZero
  /-- an access through `NULL` -/
  | nullDeref
  /-- a loop that does not end -/
  | endless
  /-- `recv_put` or `recv_remove` does not return -/
  | recvBuffer (e : RecvFault)
deriving DecidableEq, Repr

/-- The manager, the stream and the log. -/
structure Conn (ρ : Type) where
  tcp : TcpManager
  stream : Stream ρ
  log : List (Event ρ)

namespace Conn

/-- Change the stream. -/
def mod (c : Conn ρ) (f : Stream ρ → Stream ρ) : Conn ρ := { c with stream := f c.stream }

/-- Change the send variables of the stream. -/
def modSnd (c : Conn ρ) (f : SndVar → SndVar) : Conn ρ :=
  c.mod fun s => { s with snd := f s.snd }

/-- Change the receive variables of the stream. -/
def modRcv (c : Conn ρ) (f : RcvVar ρ → RcvVar ρ) : Conn ρ :=
  c.mod fun s => { s with rcv := f s.rcv }

/-- Record an event. -/
def emit (c : Conn ρ) (e : Event ρ) : Conn ρ := { c with log := c.log ++ [e] }

/-- `cur_stream->state = st` -/
def setState (c : Conn ρ) (st : TcpState) : Conn ρ :=
  let c := c.mod fun s => { s with state := st }
  c.emit (.entered c.stream)

/-- `cur_stream->state = CLOSED; cur_stream->close_reason = why` -/
def close (c : Conn ρ) (st : TcpState) (why : CloseReason) : Conn ρ :=
  (c.setState st).mod fun s => { s with closeReason := why }

/-- `cur_stream->rcv_nxt++` for the FIN of `seg` -/
def takeFin (c : Conn ρ) (seg : Segment) : Conn ρ :=
  let c' := c.mod fun s => { s with rcvNxt := s.rcvNxt + 1 }
  c'.emit (.finTaken seg c.stream.rcvNxt c'.stream.rcvNxt)

/-- `stream_destroy`, whose body is empty. -/
def streamDestroy (c : Conn ρ) : Conn ρ := c.emit .destroyed

end Conn

/-! ### What a step leaves alone -/

/-- The stream without the fields that only say when something is to be sent: the marks of the
lists it is on, and the timers. -/
def Stream.work (s : Stream ρ) : Stream ρ :=
  { s with
    onTimewaitList := false
    onRtoIdx := 0
    snd := { s.snd with
      nrtx := 0, tsRto := 0, isWack := false, ackCnt := 0
      onControlList := false, onSendList := false, onAckList := false }
    rcv := { s.rcv with tsTwExpire := 0 } }

/-- `c'` differs from `c` at most in what is scheduled. -/
structure Conn.Scheduled (c c' : Conn ρ) : Prop where
  work : c'.stream.work = c.stream.work
  log : c'.log = c.log

/-- The part of a stream that the phases of a connection are about. -/
structure Session where
  state : TcpState
  closeReason : CloseReason
  rcvNxt : U32
  irs : U32
  iss : U32
  fss : U32
  isFinSent : Bool
  onTimeoutList : Bool
deriving DecidableEq, Repr

/-- The session a stream is in. -/
def Stream.session (s : Stream ρ) : Session :=
  { state := s.state
    closeReason := s.closeReason
    rcvNxt := s.rcvNxt
    irs := s.rcv.irs
    iss := s.snd.iss
    fss := s.snd.fss
    isFinSent := s.snd.isFinSent
    onTimeoutList := s.onTimeoutList }

@[simp] theorem Stream.work_session (s : Stream ρ) : s.work.session = s.session := rfl

@[simp] theorem Stream.work_sndNxt (s : Stream ρ) : s.work.sndNxt = s.sndNxt := rfl

@[simp] theorem Stream.work_sndUna (s : Stream ρ) : s.work.snd.sndUna = s.snd.sndUna := rfl

@[simp] theorem Stream.work_rto (s : Stream ρ) : s.work.snd.rto = s.snd.rto := rfl

@[simp] theorem Stream.work_sndbuf (s : Stream ρ) : s.work.snd.sndbuf = s.snd.sndbuf := rfl

/-- `c'` is in the same session as `c`, and nothing was recorded between them. -/
structure Conn.Steady (c c' : Conn ρ) : Prop where
  session : c'.stream.session = c.stream.session
  log : c'.log = c.log

namespace Conn

variable {c c' c'' : Conn ρ}

theorem Scheduled.refl (c : Conn ρ) : Scheduled c c := ⟨rfl, rfl⟩

theorem Scheduled.trans (h : Scheduled c c') (h' : Scheduled c' c'') : Scheduled c c'' :=
  ⟨h'.work.trans h.work, h'.log.trans h.log⟩

theorem Steady.refl (c : Conn ρ) : Steady c c := ⟨rfl, rfl⟩

theorem Steady.trans (h : Steady c c') (h' : Steady c' c'') : Steady c c'' :=
  ⟨h'.session.trans h.session, h'.log.trans h.log⟩

/-- Scheduling leaves the session as it is. -/
theorem Scheduled.steady (h : Scheduled c c') : Steady c c' :=
  ⟨by rw [← Stream.work_session, h.work, Stream.work_session], h.log⟩

theorem Scheduled.sndNxt (h : Scheduled c c') : c'.stream.sndNxt = c.stream.sndNxt := by
  rw [← Stream.work_sndNxt, h.work, Stream.work_sndNxt]

theorem Scheduled.sndUna (h : Scheduled c c') :
    c'.stream.snd.sndUna = c.stream.snd.sndUna := by
  rw [← Stream.work_sndUna, h.work, Stream.work_sndUna]

theorem Scheduled.sndbuf (h : Scheduled c c') :
    c'.stream.snd.sndbuf = c.stream.snd.sndbuf := by
  rw [← Stream.work_sndbuf, h.work, Stream.work_sndbuf]

theorem Steady.state (h : Steady c c') : c'.stream.state = c.stream.state :=
  congrArg Session.state h.session

theorem Steady.rcvNxt (h : Steady c c') : c'.stream.rcvNxt = c.stream.rcvNxt :=
  congrArg Session.rcvNxt h.session

theorem Steady.irs (h : Steady c c') : c'.stream.rcv.irs = c.stream.rcv.irs :=
  congrArg Session.irs h.session

theorem Steady.iss (h : Steady c c') : c'.stream.snd.iss = c.stream.snd.iss :=
  congrArg Session.iss h.session

theorem Steady.fss (h : Steady c c') : c'.stream.snd.fss = c.stream.snd.fss :=
  congrArg Session.fss h.session

theorem Steady.isFinSent (h : Steady c c') : c'.stream.snd.isFinSent = c.stream.snd.isFinSent :=
  congrArg Session.isFinSent h.session

theorem Steady.onTimeoutList (h : Steady c c') :
    c'.stream.onTimeoutList = c.stream.onTimeoutList :=
  congrArg Session.onTimeoutList h.session

end Conn

end CmtTcp
