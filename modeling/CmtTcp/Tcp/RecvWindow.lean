import CmtTcp.RecvRemove
import CmtTcp.Tcp.Process
import CmtTcp.Lib.Run

/-!
# The receive window

`cmt_tcp_process_payload` over the buffer that `recv_put` and `recv_remove` work on, in sequences of
received data and of reads by the application.

A stream opens with the window `TCP_INITIAL_WINDOW`, and from its first stored segment on grants what is
left of `CMT_RECV_BUFFER_SIZE`, which is less. So the first segment that gets to `recv_put`, whatever
becomes of it there, moves the right edge of the window back (`reaching_moves_back`). Up to that moment
nothing moves at all.

* `recvPut_new`: a call of `recv_put` on a buffer that holds nothing yet;
* `missing_step`: what does not get to the buffer changes nothing that the window depends on;
* `windowStep_along_iff`: the window is kept along a sequence exactly when no segment gets to the buffer.
-/

namespace CmtTcp

open Lib (Run)

/-! ### The buffer of a stream -/

/-- `CMT_RECV_BUFFER_SIZE` -/
def cmtRecvBufferSize : U32 := 8192

/-- The buffer `recv_get` hands out for the sequence number `initSeq`. -/
structure Received.New (r : Received) (initSeq : U32) : Prop where
  buff : r.recv.buff =
    { cumLen := 0
      lastLen := 0
      chunkSize := cmtRecvBufferSize
      headSeq := initSeq
      initSeq := initSeq
      fctx := none }
  mergedLen : r.mergedLen = 0

/-! ### Calls -/

/-- A call of `cmt_tcp_process_payload`: the segment, where its data lies, what the pools hand out to
`recv_put`, and how many rounds its loops may take after the first. -/
structure PayloadCall where
  arrival : Arrival Received
  data : Addr
  dataPtr : Option Addr
  frag : Option Addr
  fuel : ℕ

namespace PayloadCall

/-- The call of `recv_put`. -/
def put (call : PayloadCall) : PutCall where
  data := call.data
  len := BitVec.ofInt 32 call.arrival.seg.payloadlen
  curSeq := call.arrival.seg.seq
  dataPtr := call.dataPtr
  frag := call.frag

/-- The buffer as the call sees it. -/
def parts (call : PayloadCall)
    (closeWait : Conn Received → Arrival Received → Except Abort (Conn Received)) :
    Parts Received where
  recv :=
    { put := fun r _ len seq =>
        match recvPut (call.fuel + 1) r.recv { call.put with len := len, curSeq := seq } with
        | .ok (s, _) => .ok { r with recv := s }
        | .error e => .error e
      remove := fun r len =>
        match recvRemove r (len.setWidth 64) with
        | .ok (r', _) => .ok r'
        | .error e => .error e
      headSeq := fun r => r.recv.buff.headSeq
      mergedLen := Received.mergedLen
      -- the field `size` is `chunk_size` in the header
      size := fun r => r.recv.buff.chunkSize
      cumLen := fun r => r.recv.buff.cumLen }
  handleCloseWait := closeWait

section Parts

variable {call : PayloadCall} {closeWait : Conn Received → Arrival Received → Except Abort (Conn Received)}
  {r r' : Received} {s : RecvState} {ret len : U32} {n : U64}

theorem parts_put (h : recvPut (call.fuel + 1) r.recv call.put = .ok (s, ret)) :
    (call.parts closeWait).recv.put r call.arrival.seg.payload
      (BitVec.ofInt 32 call.arrival.seg.payloadlen) call.arrival.seg.seq = .ok { r with recv := s } := by
  show (match recvPut (call.fuel + 1) r.recv call.put with
    | .ok (s, _) => (.ok { r with recv := s } : Except RecvFault Received)
    | .error e => .error e) = _
  rw [h]

theorem parts_remove (h : recvRemove r (len.setWidth 64) = .ok (r', n)) :
    (call.parts closeWait).recv.remove r len = .ok r' := by
  show (match recvRemove r (len.setWidth 64) with
    | .ok (r', _) => (.ok r' : Except RecvFault Received)
    | .error e => .error e) = _
  rw [h]

end Parts

/-- The segment passes both tests against the window, and there is a buffer `r` to put it in. -/
structure Reaches (call : PayloadCall) (s : Stream Received) (r : Received) : Prop where
  low : ¬tcpSeqLt call.arrival.seg.seqEnd s.rcvNxt
  high : ¬tcpSeqGt call.arrival.seg.seqEnd (s.rcvNxt + s.rcv.rcvWnd)
  buf : recvbufFor s call.arrival = some r

/-- The segment lies wholly inside the window. -/
def Inside (call : PayloadCall) (s : Stream Received) : Prop :=
  (seqOff s.rcvNxt call.arrival.seg.seq : ℤ) + call.arrival.seg.payloadlen ≤ s.rcv.rcvWnd.toNat

end PayloadCall

/-- What happens to the buffer of a stream: a segment with data is handled, or the application reads. -/
inductive WindowCall
  | payload (call : PayloadCall)
  | remove (len : U64)

/-- A step of a sequence of calls. The segments carry data, `recv_get` hands out nothing or a new buffer,
and the calls return. -/
inductive WindowStep
    (closeWait : Conn Received → Arrival Received → Except Abort (Conn Received))
    (c : Conn Received) : WindowCall → Conn Received → Prop
  | payload (call : PayloadCall) (hdata : 0 < call.arrival.seg.payloadlen)
      (hget : ∀ seq r, call.arrival.recvGet seq = some r → r.New seq)
      (c' : Conn Received) (ret : ℤ)
      (hret : processPayload (call.parts closeWait) c call.arrival = .ok (c', ret)) :
      WindowStep closeWait c (.payload call) c'
  | remove (len : U64) (r r' : Received) (n : U64) (hbuf : c.stream.rcv.rcvbuf = some r)
      (hret : recvRemove r len = .ok (r', n)) :
      WindowStep closeWait c (.remove len) (c.modRcv fun rcv => { rcv with rcvbuf := some r' })

/-! ### The law -/

/-- A stream that has just been opened: its window is the initial one, and its buffer, if it has one
already, is new. -/
structure AtOpening (s : Stream Received) : Prop where
  rcvNxt : s.rcvNxt = s.rcv.irs + 1
  rcvWnd : s.rcv.rcvWnd = tcpInitialWindow
  rcvbuf : ∀ r, s.rcv.rcvbuf = some r → r.New (s.rcv.irs + 1)

/-- The right edge of the window. -/
def Conn.rightEdge (c : Conn Received) : U32 := c.stream.rcvNxt + c.stream.rcv.rcvWnd

/-- The window does not shrink and promises what the buffer holds: the right edge stays or moves on,
`size - cum_len` does not underflow, and a segment inside the window is put into the buffer. -/
structure KeepsWindow (c : Conn Received) (l : WindowCall) (c' : Conn Received) : Prop where
  edge : ¬tcpSeqLt c'.rightEdge c.rightEdge
  fits : ∀ r, c'.stream.rcv.rcvbuf = some r →
    r.recv.buff.cumLen ≤ r.recv.buff.chunkSize.setWidth 64
  accepts : ∀ call r, l = .payload call → recvbufFor c.stream call.arrival = some r →
    call.Inside c.stream → call.dataPtr.isSome → call.frag.isSome →
    call.Reaches c.stream r ∧
      ∃ s, recvPut (call.fuel + 1) r.recv call.put = .ok (s, call.put.len)

/-- The call is for a segment that gets to `recv_put`. -/
def ReachesBuffer (c : Conn Received) : WindowCall → Prop
  | .payload call => ∃ r, call.Reaches c.stream r
  | .remove _ => False

/-! ### `recv_put` on an empty buffer -/

section New

variable {s : RecvState} {c : PutCall}

/-- What is stored in an empty buffer is its only fragment. -/
theorem recvStore_new {frag : Addr} {endOff : U32} (fuel : ℕ) (hempty : s.buff.fctx = none)
    (hlen : (s.frag frag).len = c.len) :
    ∃ s', recvStore (fuel + 1) s c frag endOff = .ok (s', c.len) ∧
      s'.buff.headSeq = s.buff.headSeq ∧ s'.buff.chunkSize = s.buff.chunkSize ∧
      s'.buff.cumLen = c.len.setWidth 64 := by
  have hlast : (putLastLen s endOff).buff.fctx = none ∧
      (putLastLen s endOff).buff.headSeq = s.buff.headSeq ∧
      (putLastLen s endOff).buff.chunkSize = s.buff.chunkSize ∧
      (putLastLen s endOff).frag = s.frag := by
    unfold putLastLen
    split
    · exact ⟨hempty, rfl, rfl, rfl⟩
    · exact ⟨hempty, rfl, rfl, rfl⟩
  unfold recvStore
  dsimp only
  -- `last_len` does not matter from here on
  generalize putLastLen s endOff = s₁ at hlast ⊢
  obtain ⟨hnone, hhead, hchunk, hfrag⟩ := hlast
  -- the loop has nothing to walk along
  have hloop : putLoop (c.curSeq + c.len) (fuel + 1)
      { s := s₁, frag := frag, iter := s₁.buff.fctx, prev := none, pprev := none, merged := false } =
      .ok { s := s₁, frag := frag, iter := s₁.buff.fctx, prev := none, pprev := none,
            merged := false } := by
    rw [hnone]
    rfl
  have hlink : putLink c.curSeq
      { s := s₁, frag := frag, iter := s₁.buff.fctx, prev := none, pprev := none, merged := false } =
      .ok (s₁.setFctx (some frag)) := by
    unfold putLink
    dsimp only
    rw [hnone]
    rfl
  rw [hloop]
  change ∃ s', (putLink c.curSeq _ >>= _) = _ ∧ _
  rw [hlink]
  refine ⟨_, rfl, hhead, hchunk, ?_⟩
  show (s₁.frag frag).len.setWidth 64 = c.len.setWidth 64
  rw [hfrag, hlen]

/-- A call of `recv_put` on a buffer without data: it may store its segment, nothing else. -/
theorem recvPut_new (fuel : ℕ) (c : PutCall) (hempty : s.buff.fctx = none)
    (hzero : s.buff.cumLen = 0) :
    ∃ s' ret, recvPut (fuel + 1) s c = .ok (s', ret) ∧ s'.buff.headSeq = s.buff.headSeq ∧
      s'.buff.chunkSize = s.buff.chunkSize ∧
      (s'.buff.cumLen = 0 ∨ s'.buff.cumLen = c.len.setWidth 64) := by
  cases hpass : c.passes s.buff with
  | false =>
    -- refused, or without memory: the buffer stays empty
    obtain ⟨s', ret, hput, -, hbuff, -⟩ := recvPut_of_not_passes (fuel + 1) hpass
    exact ⟨s', ret, hput, by rw [hbuff], by rw [hbuff], .inl (by rw [hbuff, hzero])⟩
  | true =>
    obtain ⟨dp, d, frag, -, hstore⟩ := recvPut_of_passes (fuel + 1) hpass
    have hlen : (((s.setDptr dp d).setFrag frag c.fragment).frag frag).len = c.len := by
      show ((Function.update s.frag frag c.fragment : Addr → Fragment) frag).len = c.len
      rw [Function.update_self]
      rfl
    obtain ⟨s', hput, hhead, hchunk, hcum⟩ :=
      recvStore_new (s := (s.setDptr dp d).setFrag frag c.fragment) fuel hempty hlen
    exact ⟨s', c.len, hstore.trans hput, hhead, hchunk, .inr hcum⟩

end New

/-! ### One step -/

section Step

variable {closeWait : Conn Received → Arrival Received → Except Abort (Conn Received)}
  {c c' : Conn Received} {l : WindowCall} {call : PayloadCall} {r : Received}

/-- The labels determine the steps. -/
theorem WindowStep.det {u u' : Conn Received} (h : WindowStep closeWait c l u)
    (h' : WindowStep closeWait c l u') : u = u' := by
  cases h with
  | payload call _ _ _ _ hret =>
    cases h' with
    | payload _ _ _ _ _ hret' => exact (Prod.mk.inj (Except.ok.inj (hret.symm.trans hret'))).1
  | remove len r r₁ n hbuf hret =>
    cases h' with
    | remove _ r' r₂ n' hbuf' hret' =>
      obtain rfl := Option.some.inj (hbuf.symm.trans hbuf')
      obtain ⟨rfl, -⟩ := Prod.mk.inj (Except.ok.inj (hret.symm.trans hret'))
      rfl

/-- Reading from a new buffer reads nothing. -/
theorem recvRemove_new {initSeq : U32} {len n : U64} {r' : Received} (hnew : r.New initSeq)
    (h : recvRemove r len = .ok (r', n)) : r' = r := by
  unfold recvRemove at h
  rw [hnew.buff, hnew.mergedLen] at h
  dsimp only at h
  generalize (if (0 : U64) < (len.setWidth 32).signExtend 64 then (0 : U32).setWidth 64 else len) = m
    at h
  -- a length that is not zero would go on to the first fragment, and there is none
  by_cases hm : m = 0
  · rw [if_pos hm] at h
    exact (Prod.mk.inj (Except.ok.inj h)).1.symm
  · rw [if_neg hm] at h
    cases h

/-- A segment inside the initial window passes both tests. -/
theorem PayloadCall.Inside.passes (hwnd : c.stream.rcv.rcvWnd = tcpInitialWindow)
    (hdata : 0 < call.arrival.seg.payloadlen) (h : call.Inside c.stream) :
    ¬tcpSeqLt call.arrival.seg.seqEnd c.stream.rcvNxt ∧
      ¬tcpSeqGt call.arrival.seg.seqEnd (c.stream.rcvNxt + c.stream.rcv.rcvWnd) := by
  unfold PayloadCall.Inside seqOff at h
  unfold Segment.seqEnd
  rw [hwnd] at h ⊢
  rw [tcpSeqLt_iff, tcpSeqGt_iff]
  generalize c.stream.rcvNxt = nxt at h ⊢
  generalize call.arrival.seg.seq = seq at h ⊢
  generalize call.arrival.seg.payloadlen = n at h hdata ⊢
  obtain ⟨k, rfl⟩ := Int.eq_ofNat_of_zero_le hdata.le
  have hk : k ≤ 14600 := by
    have : (tcpInitialWindow.toNat : ℤ) = 14600 := rfl
    omega
  have hn : (BitVec.ofInt 32 (k : ℤ)).toNat = k := by
    rw [BitVec.ofInt_natCast, BitVec.toNat_ofNat]
    omega
  generalize BitVec.ofInt 32 (k : ℤ) = m at hn ⊢
  have hsum : (seq - nxt).toNat + m.toNat ≤ 14600 := by
    have : (tcpInitialWindow.toNat : ℤ) = 14600 := rfl
    omega
  unfold tcpInitialWindow
  -- neither end of the segment is further than `14600` from `rcv_nxt`, so the comparisons do not wrap
  constructor
  · bv_omega
  · bv_omega

/-- An opened stream, established or closed for want of a buffer. -/
structure Conn.Untouched (c : Conn Received) : Prop where
  opening : AtOpening c.stream
  state : c.stream.state = .established ∨ c.stream.state = .closed

/-- The buffer a segment is put into is new, be it there already or handed out for the segment. -/
theorem Conn.Untouched.new_buf (hc : c.Untouched)
    (hget : ∀ seq r, call.arrival.recvGet seq = some r → r.New seq)
    (h : recvbufFor c.stream call.arrival = some r) : r.New (c.stream.rcv.irs + 1) := by
  unfold recvbufFor at h
  cases hbuf : c.stream.rcv.rcvbuf with
  | none =>
    rw [hbuf] at h
    exact hget _ r h
  | some r' =>
    rw [hbuf] at h
    obtain rfl := Option.some.inj h
    exact hc.opening.rcvbuf r' hbuf

theorem Received.New.fits {initSeq : U32} (h : r.New initSeq) :
    r.recv.buff.cumLen ≤ r.recv.buff.chunkSize.setWidth 64 := by
  rw [h.buff]
  exact (by decide : (0 : U64) ≤ cmtRecvBufferSize.setWidth 64)

/-- A step that leaves window and buffer as they are, and does not get to the buffer, keeps the window. -/
theorem KeepsWindow.of_same (hc : c.Untouched) (hnxt : c'.stream.rcvNxt = c.stream.rcvNxt)
    (hrcv : c'.stream.rcv = c.stream.rcv)
    (hacc : ∀ call r, l = .payload call → recvbufFor c.stream call.arrival = some r →
      call.Inside c.stream → call.Reaches c.stream r)
    (hno : ¬ReachesBuffer c l) : KeepsWindow c l c' where
  -- the edge is where it was
  edge := by
    unfold Conn.rightEdge
    rw [hnxt, hrcv, tcpSeqLt_iff, BitVec.sub_self]
    decide
  fits := by
    rw [hrcv]
    exact fun r hbuf => (hc.opening.rcvbuf r hbuf).fits
  accepts := by
    rintro call r rfl hbuf hin - -
    exact absurd ⟨r, hacc call r rfl hbuf hin⟩ hno

/-- What does not get to the buffer changes nothing that the window depends on. -/
theorem missing_step (hc : c.Untouched) (hstep : WindowStep closeWait c l c')
    (hno : ¬ReachesBuffer c l) : c'.Untouched ∧ KeepsWindow c l c' := by
  cases hstep with
  | payload call hdata hget _ ret hret =>
    have hacc : ∀ call' r, WindowCall.payload call = .payload call' →
        recvbufFor c.stream call'.arrival = some r → call'.Inside c.stream →
        call'.Reaches c.stream r := by
      rintro call' r ⟨rfl⟩ hbuf hin
      obtain ⟨hlow, hhigh⟩ := hin.passes hc.opening.rcvWnd hdata
      exact ⟨hlow, hhigh, hbuf⟩
    unfold processPayload at hret
    dsimp only at hret
    split at hret
    · cases hret
      exact ⟨hc, .of_same hc rfl rfl hacc hno⟩
    next hlow =>
    split at hret
    · cases hret
      exact ⟨hc, .of_same hc rfl rfl hacc hno⟩
    next hhigh =>
    split at hret
    · -- without a buffer the stream is closed
      cases hret
      exact ⟨⟨⟨hc.opening.rcvNxt, hc.opening.rcvWnd, hc.opening.rcvbuf⟩, .inr rfl⟩,
        .of_same hc rfl rfl hacc hno⟩
    · next r hbuf => exact absurd ⟨r, hlow, hhigh, hbuf⟩ hno
  | remove len r r' n hbuf hret =>
    obtain rfl := recvRemove_new (hc.opening.rcvbuf r hbuf) hret
    have hsame : (c.modRcv fun rcv => { rcv with rcvbuf := some r' }) = c := by
      show { c with stream := { c.stream with rcv := { c.stream.rcv with rcvbuf := some r' } } } = c
      rw [← hbuf]
    rw [hsame]
    refine ⟨hc, .of_same hc rfl rfl (fun call r h => ?_) hno⟩
    cases h

/-- A segment gets to the buffer, and the right edge after it. -/
theorem processPayload_of_reaches
    (closeWait : Conn Received → Arrival Received → Except Abort (Conn Received))
    {s : RecvState} {ret : U32} (hr : call.Reaches c.stream r)
    (hput : recvPut (call.fuel + 1) r.recv call.put = .ok (s, ret))
    (hne : ¬(c.stream.state = .finWait1 ∨ c.stream.state = .finWait2)) :
    ∃ c', processPayload (call.parts closeWait) c call.arrival = .ok (c', 1) ∧
      c'.rightEdge = s.buff.headSeq + r.mergedLen +
        (s.buff.chunkSize.setWidth 64 - s.buff.cumLen).setWidth 32 := by
  have hstored : putPayload (call.parts closeWait).recv c.stream.state r call.arrival.seg =
      .ok { r with recv := s } := by
    unfold putPayload
    rw [PayloadCall.parts_put hput]
    exact if_neg hne
  unfold processPayload
  dsimp only
  rw [if_neg hr.low, if_neg hr.high, hr.buf]
  dsimp only
  rw [hstored]
  exact ⟨_, rfl, rfl⟩

/-- The segment that gets to the buffer first moves the right edge of the window back. -/
theorem reaching_moves_back (hc : c.Untouched) (hstep : WindowStep closeWait c l c')
    (hreach : ReachesBuffer c l) : tcpSeqLt c'.rightEdge c.rightEdge := by
  cases hstep with
  | remove _ _ _ _ _ _ => exact hreach.elim
  | payload call hdata hget _ _ hret =>
    obtain ⟨r, hr⟩ := hreach
    have hnew := hc.new_buf hget hr.buf
    obtain ⟨s, _, hput, hhead, hchunk, hcum⟩ :=
      recvPut_new call.fuel call.put (by rw [hnew.buff]) (by rw [hnew.buff])
    rw [hnew.buff] at hhead hchunk
    have hne : ¬(c.stream.state = .finWait1 ∨ c.stream.state = .finWait2) := by
      rcases hc.state with h | h <;> rw [h] <;> decide
    obtain ⟨c₁, hok, hedge⟩ := processPayload_of_reaches closeWait hr hput hne
    obtain ⟨rfl, -⟩ := Prod.mk.inj (Except.ok.inj (hok.symm.trans hret))
    rw [hedge]
    unfold Conn.rightEdge
    rw [hhead, hchunk, hnew.mergedLen, hc.opening.rcvNxt, hc.opening.rcvWnd, tcpSeqLt_iff]
    -- a segment has less than `2 ^ 16` bytes
    have hlen : call.put.len.toNat < 2 ^ 16 := by
      have htot := call.arrival.seg.totLen.isLt
      obtain ⟨k, hk⟩ := Int.eq_ofNat_of_zero_le hdata.le
      have hle : k < 2 ^ 16 := by
        unfold Segment.payloadlen at hk
        omega
      show (BitVec.ofInt 32 call.arrival.seg.payloadlen).toNat < 2 ^ 16
      rw [hk, BitVec.ofInt_natCast, BitVec.toNat_ofNat]
      exact (Nat.mod_le _ _).trans_lt hle
    have hcum' : s.buff.cumLen.toNat < 2 ^ 16 := by
      rcases hcum with h | h <;> rw [h]
      · decide
      · rw [BitVec.toNat_setWidth]
        omega
    -- the new edge is `8192 - cum_len` past the head, the old one was `14600` past it
    unfold cmtRecvBufferSize tcpInitialWindow
    generalize s.buff.cumLen = cum at hcum' ⊢
    generalize c.stream.rcv.irs = irs
    bv_omega

end Step

/-! ### Sequences of calls -/

/-- The window is kept along a sequence of segments with data and of reads exactly when no segment of the
sequence gets to the buffer. -/
theorem windowStep_along_iff
    (closeWait : Conn Received → Arrival Received → Except Abort (Conn Received))
    {c c' : Conn Received} {ls : List WindowCall} (hopen : AtOpening c.stream)
    (hst : c.stream.state = .established) (hrun : Run (WindowStep closeWait) c ls c') :
    Run.Along (WindowStep closeWait) c ls KeepsWindow ↔
      ¬Run.Occurs (WindowStep closeWait) c ls ReachesBuffer := by
  -- untouched up to the first segment that gets through, and that one moves the edge back
  refine Run.along_iff (J := Conn.Untouched) (fun t l u u' h h' => h.det h') ⟨hopen, .inl hst⟩
    (fun t l u ht hstep hno => missing_step ht hstep hno) (fun t l u ht hstep hreach hkeep => ?_) hrun
  exact hkeep.edge (reaching_moves_back ht hstep hreach)

/-- A buffer for `recv_get` to hand out. -/
def newBuffer (initSeq : U32) : Received where
  recv :=
    { buff :=
        { cumLen := 0, lastLen := 0, chunkSize := cmtRecvBufferSize, headSeq := initSeq,
          initSeq := initSeq, fctx := none }
      frag := fun _ => ⟨none, 0, 0, none⟩
      dptr := fun _ => ⟨0, 0, 0, none⟩ }
  mergedLen := 0

/-- One byte with the number `seq`. -/
def byteAt (seq : U32) : PayloadCall where
  arrival :=
    { seg := { (default : Segment) with totLen := 41, ihl := 5, doff := 5, seq := seq }
      ts := 0
      listener := none
      streamObj := none
      sndObj := none
      rcvObj := none
      rand := 0
      recvGet := fun initSeq => some (newBuffer initSeq) }
  data := 0
  dataPtr := some 10
  frag := some 20
  fuel := 0

theorem newBuffer_new {initSeq seq : U32} {r : Received} (h : some (newBuffer initSeq) = some r)
    (hseq : initSeq = seq) : r.New seq := by
  obtain rfl := Option.some.inj h
  exact ⟨by rw [← hseq]; rfl, rfl⟩

/-- A byte for an established stream with a new buffer: the call returns, wherever the byte lies. -/
theorem byteAt_returns (closeWait) {c : Conn Received} {initSeq : U32} (seq : U32)
    (hbuf : c.stream.rcv.rcvbuf = some (newBuffer initSeq)) (hst : c.stream.state = .established) :
    ∃ c' ret, processPayload ((byteAt seq).parts closeWait) c (byteAt seq).arrival = .ok (c', ret) := by
  by_cases hreach : (byteAt seq).Reaches c.stream (newBuffer initSeq)
  · obtain ⟨s, _, hput, -⟩ := recvPut_new 0 (byteAt seq).put (s := (newBuffer initSeq).recv) rfl rfl
    obtain ⟨c', hok, -⟩ := processPayload_of_reaches closeWait hreach hput (by rw [hst]; decide)
    exact ⟨c', 1, hok⟩
  · -- there is a buffer, so the byte is below the window or above it
    have hfor : recvbufFor c.stream (byteAt seq).arrival = some (newBuffer initSeq) := by
      unfold recvbufFor
      rw [hbuf]
    refine ⟨c, 0, ?_⟩
    unfold processPayload
    dsimp only
    split
    · rfl
    next hlow =>
    split
    · rfl
    next hhigh => exact absurd ⟨hlow, hhigh, hfor⟩ hreach

/-- The step of a byte. -/
theorem byteAt_step {closeWait} {c c' : Conn Received} {seq : U32} {ret : ℤ}
    (hret : processPayload ((byteAt seq).parts closeWait) c (byteAt seq).arrival = .ok (c', ret)) :
    WindowStep closeWait c (.payload (byteAt seq)) c' := by
  have hdata : 0 < (byteAt seq).arrival.seg.payloadlen := (by decide : (0 : ℤ) < 41 - 5 * 4 - 5 * 4)
  exact .payload _ hdata (fun seq r h => newBuffer_new h rfl) c' ret hret

end CmtTcp
