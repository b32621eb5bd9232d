import CmtTcp.Tcp.Process

/-!
# Timers

The rest of `timer.c`: what is done when a retransmission timer runs out (`handle_rto`), and the scans
`check_rtm_timeout`, `check_timewait_expire` and `check_connection_timeout` with
`rearrange_rto_store`. They look at all streams of the manager, which a `Stack` holds by address.

A scan reads the link of an entry before it takes the entry off, so it goes along the list as it was
when the scan began. `timewait_list` and `timeout_list` are declared as pointers to heads, `timer_link` and
`timeout_link` as pointers to nodes; `timer.c` passes `&tcp->timewait_list` and the like throughout, and the
lists are read as it uses them, heads and nodes inside the records.
-/

namespace CmtTcp

open Lib (Outcome)

variable {ρ : Type}

def tcpMaxSynRetry : U8 := 7
def tcpMaxBackoff : U8 := 7

/-! ### The streams of a manager -/

/-- The manager and its streams. -/
structure Stack (ρ : Type) where
  tcp : TcpManager
  stream : Addr → Option (Stream ρ)
  /-- the field `socket` of a stream is not `NULL` -/
  socket : Addr → Bool

/-- What the functions on one stream see of the stack. -/
def Stack.conn (S : Stack ρ) (s : Stream ρ) : Conn ρ := { tcp := S.tcp, stream := s, log := [] }

/-- The stack after a function on one stream. -/
def Stack.put (S : Stack ρ) (c : Conn ρ) : Stack ρ :=
  { S with tcp := c.tcp, stream := Function.update S.stream c.stream.addr (some c.stream) }

/-- The object that a link points to. -/
def Stack.deref (S : Stack ρ) (a : Addr) : Except Abort (Stream ρ) :=
  match S.stream a with
  | some s => .ok s
  | none => .error .nullDeref

/-- A link to a stream can be followed. -/
theorem Stack.deref_outcome {S : Stack ρ} {a : Addr} {s : Stream ρ} {E : Abort → Prop}
    (hs : S.stream a = some s) : Outcome (S.deref a) E (· = s) := by
  unfold Stack.deref
  rw [hs]
  exact rfl

/-- The streams after a function on one of them. -/
theorem Stack.stream_put {S : Stack ρ} {c : Conn ρ} {a : Addr} {s : Stream ρ}
    (h : (S.put c).stream a = some s) :
    (a = c.stream.addr ∧ s = c.stream) ∨ (a ≠ c.stream.addr ∧ S.stream a = some s) := by
  change Function.update S.stream c.stream.addr (some c.stream) a = some s at h
  by_cases ha : a = c.stream.addr
  · rw [ha, Function.update_self] at h
    exact .inl ⟨ha, (Option.some.inj h).symm⟩
  · rw [Function.update_of_ne ha] at h
    exact .inr ⟨ha, h⟩

theorem Stack.put_stream_of_ne {S : Stack ρ} {c : Conn ρ} {a : Addr} (ha : a ≠ c.stream.addr) :
    (S.put c).stream a = S.stream a :=
  Function.update_of_ne ha _ _

/-! ### `handle_rto` -/

/-- The timeout after one more retransmission. -/
def backoffRto (s : Stream ρ) : U32 :=
  if s.state.code ≥ TcpState.established.code then
    let backoff := if s.snd.nrtx < tcpMaxBackoff then s.snd.nrtx else tcpMaxBackoff
    let rto := ((s.rcv.srtt >>> 3) + s.rcv.rttvar) <<< backoff.toNat
    if rto ≤ 0 then s.snd.rto else rto
  else if s.state.code ≥ TcpState.synSent.code then
    if s.snd.nrtx < tcpMaxBackoff then s.snd.rto <<< 1 else s.snd.rto
  else s.snd.rto

/-- The end of `handle_rto`: the stream is put on the list it sends from. -/
def rtoResend (c : Conn ρ) : Except Abort (Conn ρ × ℤ) := do
  let c := c.mod fun s => { s with sndNxt := s.snd.sndUna }
  let state := c.stream.state
  if state = .established ∨ state = .closeWait then
    let c ← addtoSendlist c
    .ok (c, 0)
  else if state = .finWait1 ∨ state = .closing ∨ state = .lastAck then
    if tcpSeqLt c.stream.sndNxt c.stream.snd.fss then
      let c := if c.stream.snd.onControlList then removeControllist c else c
      let c ← addtoSendlist (c.mod fun s => { s with controlListWaiting := true })
      .ok (c, 0)
    else .ok (addtoControllist c, 0)
  else .ok (addtoControllist c, 0)

/-- `handle_rto` for a stream that has retransmissions left. -/
def rtoRetry (c : Conn ρ) (socket : Bool) : Except Abort (Conn ρ × ℤ) :=
  let c := c.modSnd fun snd => { snd with nrtx := snd.nrtx + 1 }
  let c := c.modSnd fun snd =>
    { snd with maxNrtx := if snd.nrtx > snd.maxNrtx then snd.nrtx else snd.maxNrtx }
  let c := c.mod fun s => { s with snd := { s.snd with rto := backoffRto s } }
  let c := c.modSnd fun snd =>
    { snd with ssthresh := lossSsthresh snd, cwnd := snd.mss.setWidth 32 }
  if c.stream.state = .synSent then
    if c.stream.snd.nrtx > tcpMaxSynRetry then
      let c := c.close .closed .connFail
      .ok (if socket then c else c.streamDestroy, -1)
    else rtoResend c
  else if c.stream.state = .synRcvd ∨ c.stream.state = .established ∨ c.stream.state = .closeWait ∨
      c.stream.state = .lastAck ∨ c.stream.state = .finWait1 ∨ c.stream.state = .closing then
    rtoResend c
  else .error .assertZero

/-- `handle_rto`, where `socket` says whether the field of this name is set. -/
def handleRto (c : Conn ρ) (socket : Bool) : Except Abort (Conn ρ × ℤ) :=
  if c.stream.snd.nrtx < tcpMaxRtx then rtoRetry c socket
  else if c.stream.state.code < TcpState.established.code then
    .ok ((c.close .closed .connFail).streamDestroy, -1)
  else
    let c := c.close .closed .connLost
    .ok (if socket then c else c.streamDestroy, -1)

/-! ### The retransmission store -/

/-- Take a stream off bucket `i` of the store. -/
def unlinkRto (tcp : TcpManager) (i : ℕ) (a : Addr) : TcpManager :=
  let store := tcp.rtoStore
  { tcp with rtoStore := { store with
      rtoList := Function.update store.rtoList i ((store.rtoList i).erase a) } }

/-- Put a stream at the end of bucket `i` of the store. -/
def linkRto (tcp : TcpManager) (i : ℕ) (a : Addr) : TcpManager :=
  let store := tcp.rtoStore
  { tcp with rtoStore := { store with
      rtoList := Function.update store.rtoList i (store.rtoList i ++ [a]) } }

/-- An entry of the last bucket in `rearrange_rto_store`. The sum of `diff` and `rto_now_idx` is
unsigned. -/
def rearrangeEntry (S : Stack ρ) (s : Stream ρ) : Stack ρ :=
  let diff := (S.tcp.rtoStore.rtoNowTs - s.snd.tsRto).toInt
  if diff < rtoHash then
    let offset := ((BitVec.ofInt 32 diff + S.tcp.rtoStore.rtoNowIdx) % BitVec.ofNat 32 rtoHash).toNat
    { S with
      tcp := linkRto (unlinkRto S.tcp rtoHash s.addr) offset s.addr
      stream := Function.update S.stream s.addr (some { s with onRtoIdx := offset }) }
  else S

/-- The walk of `rearrange_rto_store`. -/
def rearrangeLoop : List Addr → Stack ρ → Except Abort (Stack ρ)
  | [], S => .ok S
  | walk :: next, S => do
    let s ← S.deref walk
    rearrangeLoop next (rearrangeEntry S s)

/-- `rearrange_rto_store` -/
def rearrangeRtoStore (S : Stack ρ) : Except Abort (Stack ρ) :=
  rearrangeLoop (S.tcp.rtoStore.rtoList rtoHash) S

/-- An entry of the current bucket in `check_rtm_timeout`: it is taken off and its timeout handled. -/
def rtmEntry (S : Stack ρ) (s : Stream ρ) : Except Abort (Stack ρ) :=
  if s.onRtoIdx ≥ 0 then do
    let tcp := unlinkRto S.tcp S.tcp.rtoStore.rtoNowIdx.toNat s.addr
    let c : Conn ρ :=
      { tcp := { tcp with rtoListCnt := tcp.rtoListCnt - 1 }
        stream := { s with onRtoIdx := -1 }
        log := [] }
    let r ← handleRto c (S.socket s.addr)
    .ok (S.put r.1)
  else .ok S

/-- The walk of `check_rtm_timeout` along a bucket, and `cnt`. -/
def rtmBucket (thresh : ℤ) : List Addr → ℤ → Stack ρ → Except Abort (Stack ρ × ℤ)
  | [], cnt, S => .ok (S, cnt)
  | walk :: next, cnt, S =>
    let cnt := cnt + 1
    if cnt > thresh then .ok (S, cnt)
    else do
      let s ← S.deref walk
      let S ← rtmEntry S s
      rtmBucket thresh next cnt S

/-- The scan moves on to the next bucket and the next tick. -/
def advanceRto (tcp : TcpManager) : TcpManager :=
  let store := tcp.rtoStore
  { tcp with rtoStore := { store with
      rtoNowIdx := (store.rtoNowIdx + 1) % BitVec.ofNat 32 rtoHash
      rtoNowTs := store.rtoNowTs + 1 } }

/-- The move of `check_rtm_timeout` to the next bucket. -/
def rtmAdvance (S : Stack ρ) : Except Abort (Stack ρ) :=
  let S := { S with tcp := advanceRto S.tcp }
  if S.tcp.rtoStore.rtoNowIdx % 1000 = 0 then rearrangeRtoStore S else .ok S

/-- The `while` loop of `check_rtm_timeout`, for at most so many turns. -/
def rtmLoop (curTs : U32) (thresh : ℤ) : ℕ → ℤ → Stack ρ → Except Abort (Stack ρ)
  | 0, _, _ => .error .endless
  | turns + 1, cnt, S =>
    if (curTs - S.tcp.rtoStore.rtoNowTs).toInt < 0 then .ok S
    else do
      let r ← rtmBucket thresh (S.tcp.rtoStore.rtoList S.tcp.rtoStore.rtoNowIdx.toNat) cnt S
      if r.2 < thresh then .ok r.1
      else do
        let S ← rtmAdvance r.1
        rtmLoop curTs thresh turns r.2 S

/-- `check_rtm_timeout`. A turn that does not end the loop moves `rto_now_ts` on by one, so there are
no more of them than ticks up to `cur_ts`, and two. -/
def checkRtmTimeout (S : Stack ρ) (curTs : U32) (thresh : ℤ) : Except Abort (Stack ρ) :=
  if S.tcp.rtoListCnt = 0 then .ok S
  else rtmLoop curTs thresh ((curTs - S.tcp.rtoStore.rtoNowTs).toNat + 2) 0 S

/-! ### The ageing lists -/

/-- `TIME_WAIT` is over: the stream is taken off the list and closed. -/
def expireTimewait (c : Conn ρ) : Conn ρ :=
  let c := { c with tcp := { c.tcp with timewaitList := c.tcp.timewaitList.erase c.stream.addr } }
  let c := c.mod fun s => { s with onTimewaitList := false }
  let c := { c with tcp := { c.tcp with timewaitListCnt := c.tcp.timewaitListCnt - 1 } }
  (c.close .closed .activeClose).streamDestroy

/-- The walk of `check_timewait_expire`, and `cnt`. -/
def timewaitLoop (curTs : U32) (thresh : ℤ) :
    List Addr → ℤ → Stack ρ → Except Abort (Stack ρ × ℤ)
  | [], cnt, S => .ok (S, cnt)
  | walk :: next, cnt, S =>
    let cnt := cnt + 1
    if cnt > thresh then .ok (S, cnt)
    else do
      let s ← S.deref walk
      if s.onTimewaitList then
        if (curTs - s.rcv.tsTwExpire).toInt ≥ 0 then
          if ¬s.snd.onControlList then
            timewaitLoop curTs thresh next cnt (S.put (expireTimewait (S.conn s)))
          else timewaitLoop curTs thresh next cnt S
        else .ok (S, cnt)
      else timewaitLoop curTs thresh next cnt S

/-- `check_timewait_expire`; its `cnt` at the end comes with the stack. -/
def checkTimewaitExpire (S : Stack ρ) (curTs : U32) (thresh : ℤ) : Except Abort (Stack ρ × ℤ) :=
  timewaitLoop curTs thresh S.tcp.timewaitList 0 S

/-- A stream has been idle for too long: it is taken off the list and closed. -/
def closeIdle (c : Conn ρ) (socket : Bool) : Conn ρ :=
  let c := c.mod fun s => { s with onTimeoutList := false }
  let c := { c with tcp := { c.tcp with
    timeoutList := c.tcp.timeoutList.erase c.stream.addr
    timeoutListCnt := c.tcp.timeoutListCnt - 1 } }
  let c := c.close .closed .timeout
  if socket then c else c.streamDestroy

/-- The walk of `check_connection_timeout`, and `cnt`. -/
def timeoutLoop (tcpTimeout : ℤ) (curTs : U32) (thresh : ℤ) :
    List Addr → ℤ → Stack ρ → Except Abort (Stack ρ × ℤ)
  | [], cnt, S => .ok (S, cnt)
  | walk :: next, cnt, S =>
    let cnt := cnt + 1
    if cnt > thresh then .ok (S, cnt)
    else do
      let s ← S.deref walk
      if (curTs - s.lastActiveTs).toInt ≥ tcpTimeout * 1000 then
        timeoutLoop tcpTimeout curTs thresh next cnt (S.put (closeIdle (S.conn s) (S.socket walk)))
      else .ok (S, cnt)

/-- `check_connection_timeout`; its `cnt` at the end comes with the stack. The source uses
`NTY_TCP_TIMEOUT` without defining it. -/
def checkConnectionTimeout (tcpTimeout : ℤ) (S : Stack ρ) (curTs : U32) (thresh : ℤ) :
    Except Abort (Stack ρ × ℤ) :=
  timeoutLoop tcpTimeout curTs thresh S.tcp.timeoutList 0 S

end CmtTcp
