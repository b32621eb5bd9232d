import CmtTcp.StreamQueue
import CmtTcp.Tcp.Phases

/-!
# From the handshake to the application

A server: the stack's thread takes segments and runs its timers, and the application's thread calls
`stream_dequeue` on the accept queue of the listener. When the acknowledgement of a SYN/ACK arrives,
`cmt_tcp_handle_syn_rcvd` is in `stream_enqueue` for a while, and the other thread goes on meanwhile.

`connections_accepted`: in every interleaving the application gets the streams whose handshake was
completed while there was room, each once and in the order in which they completed it. The others are
closed, and nothing else becomes of a stream that a SYN has created and nobody has closed.
-/

namespace CmtTcp

open Lib (Outcome Run)

variable {ρ : Type}

/-! ### The server -/

/-- The segment makes `cmt_tcp_process` call `stream_enqueue` for its stream. -/
structure Enqueues (s : Stream ρ) (a : Arrival ρ) : Prop where
  ihl : a.seg.ihl.toNat = 5
  check : a.seg.check = 0
  state : s.state = .synRcvd
  rst : ¬a.seg.rst
  syn : ¬(a.seg.syn ∧ a.seg.seq = s.rcv.irs)
  ack : a.seg.ack
  ackSeq : a.seg.ackSeq = s.snd.iss + 1
  listener : a.listener.isSome

/-- The segment with what `stream_enqueue` returns. -/
def Arrival.withEnqueue (a : Arrival ρ) (ret : ℤ) : Arrival ρ :=
  { a with listener := a.listener.map fun l => { l with enqueueRet := ret } }

@[simp] theorem Arrival.withEnqueue_seg (a : Arrival ρ) (ret : ℤ) :
    (a.withEnqueue ret).seg = a.seg := rfl

/-- The stream that a thread inside `stream_enqueue` was called with. -/
def EnqPc.stream {α : Type*} : EnqPc α → Option α
  | .idle => none
  | .readHead stream => some stream
  | .readTail stream _ _ => some stream
  | .write stream _ => some stream
  | .store stream _ => some stream

/-- What `stream_enqueue` returns: `0` when it stores the stream in its last step, else `-1`. -/
def EnqPc.ret {α : Type*} : EnqPc α → ℤ
  | .store _ _ => 0
  | _ => -1

/-- The stack and the accept queue of its listener. -/
structure Server (ρ : Type) where
  stack : Stack ρ
  acceptq : QueueSys Addr
  /-- the segment that is handled while its stream is in `stream_enqueue` -/
  calling : Option (Addr × Arrival ρ)
  /-- not in the code: the streams that `stream_enqueue` has returned for, in order, and whether there
  was room -/
  opened : List (Addr × Bool)

/-- A step of the server. -/
inductive ServerLabel (ρ : Type)
  | stack (l : ClosedLabel ρ)
  | enqCall (x : Addr) (a : Arrival ρ)
  | enqNext
  | enqReturn
  | deqCall
  | deqNext

/-- The step does not come to `stream_enqueue`. -/
def NothingEnqueued (S : Stack ρ) : ClosedLabel ρ → Prop
  | .segment x a => ∀ s, S.stream x = some s → ¬Enqueues s a
  | _ => True

/-- The step relation. Behind `stream_enqueue` the handler touches nothing that the application sees, so
that its last step and the rest of the handler are one. -/
inductive ServerStep (P : Parts ρ) (tcpTimeout : ℤ) : Server ρ → ServerLabel ρ → Server ρ → Prop
  | stack {v : Server ρ} {l : ClosedLabel ρ} {S' : Stack ρ} (hidle : v.calling = none)
      (hno : NothingEnqueued v.stack l) (h : ClosedStep P tcpTimeout v.stack l S') :
      ServerStep P tcpTimeout v (.stack l) { v with stack := S' }
  | enqCall {v : Server ρ} {x : Addr} {s : Stream ρ} {a : Arrival ρ} {q : QueueSys Addr}
      (hidle : v.calling = none) (hs : v.stack.stream x = some s) (henq : Enqueues s a)
      (h : QueueStep v.acceptq (.enqCall x) q) :
      ServerStep P tcpTimeout v (.enqCall x a) { v with acceptq := q, calling := some (x, a) }
  | enqNext {v : Server ρ} {q : QueueSys Addr} (h : QueueStep v.acceptq .enqNext q)
      (hinside : q.enq.stream.isSome) :
      ServerStep P tcpTimeout v .enqNext { v with acceptq := q }
  | enqReturn {v : Server ρ} {x : Addr} {a : Arrival ρ} {q : QueueSys Addr} {S' : Stack ρ}
      (hcall : v.calling = some (x, a)) (h : QueueStep v.acceptq .enqNext q)
      (hout : q.enq.stream = none)
      (hproc : ClosedStep P tcpTimeout v.stack (.segment x (a.withEnqueue v.acceptq.enq.ret)) S') :
      ServerStep P tcpTimeout v .enqReturn
        { stack := S', acceptq := q, calling := none,
          opened := v.opened ++ [(x, decide (0 ≤ v.acceptq.enq.ret))] }
  | deqCall {v : Server ρ} {q : QueueSys Addr} (h : QueueStep v.acceptq .deqCall q) :
      ServerStep P tcpTimeout v .deqCall { v with acceptq := q }
  | deqNext {v : Server ρ} {q : QueueSys Addr} (h : QueueStep v.acceptq .deqNext q) :
      ServerStep P tcpTimeout v .deqNext { v with acceptq := q }

/-- A listener with a new accept queue, on a stack without streams. -/
def Server.start (capacity : ℕ) (junk : ℕ → Option Addr) (tcp : TcpManager) (socket : Addr → Bool) :
    Server ρ where
  stack := { tcp := tcp, stream := fun _ => none, socket := socket }
  acceptq := QueueSys.initial capacity junk
  calling := none
  opened := []

/-- How the streams get to the application, when the queue has room for `capacity` of them. -/
structure Server.Serves (capacity : ℕ) (v : Server ρ) : Prop where
  /-- the application gets the streams in the order in which they were stored -/
  handed : v.acceptq.dequeued <+: v.acceptq.stored
  /-- stored are those with room, in the order in which they completed the handshake -/
  stored : v.acceptq.stored = (v.opened.filter (·.2)).map Prod.fst
  once : (v.opened.map Prod.fst).Nodup
  /-- a stream without room found `capacity` others in the queue -/
  full : v.acceptq.refused = List.replicate (v.opened.countP (!·.2)) capacity
  /-- `NULL` says that the queue was empty -/
  empty : ∀ held ∈ v.acceptq.nulls, held = 0
  asserts : v.acceptq.deq ≠ .aborted
  /-- what is stored is past the handshake, what is not is closed -/
  past : ∀ x room, (x, room) ∈ v.opened → ∃ s, v.stack.stream x = some s ∧
    if room then TcpState.established.phase ≤ s.state.phase else s.state = .closed
  /-- a stream that is in the handshake no longer has come to the queue, or was closed -/
  all : ∀ x s, v.stack.stream x = some s →
    s.state = .synRcvd ∨ s.state = .closed ∨ ∃ room, (x, room) ∈ v.opened

/-! ### What a step of the stack does to a state -/

namespace TcpState

/-- What a step that does not come to `stream_enqueue` can do to a state: nothing, a SYN is answered, the
stream is closed, or it goes on behind the handshake. -/
def Keeps (st st' : TcpState) : Prop :=
  st' = st ∨ (st = .listen ∧ st' = .synRcvd) ∨ st' = .closed ∨
    (st ≠ .closed ∧ established.phase ≤ st.phase ∧ established.phase ≤ st'.phase)

variable {st st' st'' : TcpState}

theorem Keeps.refl (st : TcpState) : st.Keeps st := .inl rfl

theorem Keeps.of_eq (h : st' = st) : st.Keeps st' := .inl h

theorem Keeps.closed (h : st' = .closed) : st.Keeps st' := .inr (.inr (.inl h))

/-- Behind the handshake there is no way back. -/
theorem Keeps.phase (h : st.Keeps st') (hphase : established.phase ≤ st.phase) :
    established.phase ≤ st'.phase := by
  rcases h with rfl | ⟨rfl, -⟩ | rfl | ⟨-, -, h⟩
  · exact hphase
  · exact absurd hphase (by decide)
  · decide
  · exact h

/-- Behind the handshake every path is such a step. -/
theorem Reaches.keeps (h : st.Reaches st') (hopen : st ≠ .closed)
    (hphase : established.phase ≤ st.phase) : st.Keeps st' := by
  refine .inr (.inr (.inr ⟨hopen, hphase, ?_⟩))
  rcases h.phase with rfl | hlt
  · exact hphase
  · exact hphase.trans hlt.le

end TcpState

section Keeps

variable {P : Parts ρ} {c c' : Conn ρ} {a : Arrival ρ} {tcpTimeout : ℤ} {S S' : Stack ρ}

/-- `ESTABLISHED` is left for `CLOSE_WAIT` or `CLOSED`, whatever the payload did. -/
theorem handleEstablished_keeps (hst : c.stream.state = .established) :
    Outcome (handleEstablished P c a) (fun _ => True) fun c' =>
      TcpState.established.Keeps c'.stream.state := by
  have hwait : TcpState.established.Keeps .closeWait := .inr (.inr (.inr ⟨nofun, le_rfl, by decide⟩))
  unfold handleEstablished
  refine Outcome.ite (fun _ => ?_) fun _ => ?_
  · exact .of_eq ((addtoControllist_state _).trans hst)
  refine Outcome.bind (receivePayload_state P c a) fun c₀ h₀ => ?_
  refine Outcome.bind ((establishedAck_outcome _ a).mono (fun _ _ => trivial) fun _ h => h) ?_
  intro c₁ h₁
  have hpay : TcpState.established.Keeps c₁.stream.state := by
    rw [h₁.state]
    rcases h₀ with h | ⟨h, -⟩
    · exact .of_eq (h.trans hst)
    · exact .closed h
  rw [Outcome.ok_iff]
  unfold establishedFin
  split
  · split
    · rw [addtoControllist_state]
      exact hwait
    · rw [(enqueueAcklist_scheduled c₁ .now).steady.state]
      exact hpay
  · exact hpay

theorem handleFinWait2_keeps (hst : c.stream.state = .finWait2) :
    Outcome (handleFinWait2 P c a) (fun _ => True) fun c' =>
      TcpState.finWait2.Keeps c'.stream.state := by
  unfold handleFinWait2
  refine Outcome.ite (fun _ => ?_) fun _ => .of_eq hst
  refine Outcome.bind ((receiveAck_outcome c a).mono (fun _ _ => trivial) fun _ h => h) ?_
  intro c₁ h₁
  refine Outcome.bind (receivePayload_state P c₁ a) fun c₂ h₂ => Outcome.ite (fun _ => ?_) fun _ => ?_
  · rw [Outcome.ok_iff, addtoControllist_state, (addToTimewaitList_scheduled _ a.ts).steady.state]
    exact TcpState.Edge.finReceived.reaches.keeps nofun (by decide)
  · rw [Outcome.ok_iff]
    rcases h₂ with h | ⟨h, -⟩
    · exact .of_eq (h.trans (h₁.state.trans hst))
    · exact .closed h

/-- A SYN is answered. -/
theorem handleListen_state (c : Conn ρ) (a : Arrival ρ) :
    Outcome (handleListen c a) (fun _ => True) fun c' => c'.stream.state = .synRcvd := by
  unfold handleListen
  refine Outcome.ite (fun _ => ?_) fun _ => trivial
  exact addtoControllist_state _

/-- In `SYN_RCVD` a segment that does not come to `stream_enqueue` leaves the stream there. -/
theorem handleSynRcvdData_waits (hst : c.stream.state = .synRcvd) (hihl : a.seg.ihl.toNat = 5)
    (hcheck : a.seg.check = 0) (hrst : ¬a.seg.rst) (hno : ¬Enqueues c.stream a) :
    Outcome (handleSynRcvdData P c a) (fun _ => True) fun c' => c'.stream.state = .synRcvd := by
  unfold handleSynRcvdData
  refine Outcome.ite (fun _ => handleListen_state c a) fun hsyn => ?_
  have hrcvd : Outcome (handleSynRcvd c a) (fun _ => True) fun c' => c'.stream.state = .synRcvd := by
    unfold handleSynRcvd
    refine Outcome.ite (fun hack => Outcome.ite (fun _ => trivial) fun hseq => ?_) fun _ => ?_
    · rw [synRcvdOpen_eq]
      cases hl : a.listener with
      | none => exact trivial
      | some l =>
        exact absurd ⟨hihl, hcheck, hst, hrst, hsyn, hack, not_not.mp hseq, by rw [hl]; rfl⟩ hno
    · exact (addtoControllist_state _).trans hst
  refine Outcome.bind hrcvd fun c₁ h₁ => Outcome.ite (fun hopen => ?_) fun _ => h₁
  exact absurd (h₁.symm.trans hopen.2) nofun

theorem dispatch_keeps (hP : P.CloseWaitSteady) (hihl : a.seg.ihl.toNat = 5)
    (hcheck : a.seg.check = 0) (hsent : c.stream.state ≠ .synSent)
    (hrst : a.seg.rst → c.stream.state.code ≤ TcpState.synSent.code)
    (hno : ¬Enqueues c.stream a) :
    Outcome (dispatch P c a) (fun _ => True) fun c' => c.stream.state.Keeps c'.stream.state := by
  have hadv : ∀ {st : TcpState} {r : Except Abort (Conn ρ)}, Advances st r → st ≠ .closed →
      TcpState.established.phase ≤ st.phase →
      Outcome r (fun _ => True) fun c' => st.Keeps c'.stream.state :=
    fun h hopen hphase => Outcome.mono h (fun _ h => h) fun _ h => h.keeps hopen hphase
  unfold dispatch
  cases hst : c.stream.state with
  | listen =>
    exact (handleListen_state c a).mono (fun _ h => h) fun _ h => .inr (.inl ⟨rfl, h⟩)
  | synSent => exact absurd hst hsent
  | synRcvd =>
    have hnot : ¬a.seg.rst := fun h => absurd (hrst h) (by rw [hst]; decide)
    exact (handleSynRcvdData_waits hst hihl hcheck hnot hno).mono (fun _ h => h) fun _ h => .of_eq h
  | established => exact handleEstablished_keeps hst
  | closeWait =>
    refine (hP c a).mono (fun _ _ => trivial) fun _ h => .of_eq (h.state.trans hst)
  | lastAck => exact hadv (handleLastAck_advances hst) nofun (by decide)
  | finWait1 => exact hadv (handleFinWait1_advances hst) nofun (by decide)
  | finWait2 => exact handleFinWait2_keeps hst
  | closing => exact hadv (handleClosing_advances hst) nofun (by decide)
  | timeWait =>
    exact (handleTimeWait_outcome c a).mono (fun _ _ => trivial) fun _ h => .of_eq (h.state.trans hst)
  | closed => exact .of_eq hst

/-- A reset closes the stream, or the stream is past the handshake and stays so. -/
theorem processRst_keeps (hcode : c.stream.state.code > TcpState.synSent.code) (ackSeq : U32) :
    c.stream.state.Keeps (processRst c ackSeq).1.stream.state := by
  have hreach := processRst_state hcode ackSeq
  cases hst : c.stream.state with
  | listen => rw [hst] at hcode; exact absurd hcode (by decide)
  | synSent => rw [hst] at hcode; exact absurd hcode (by decide)
  | closed => rw [hst] at hcode; exact absurd hcode (by decide)
  | synRcvd =>
    unfold processRst
    dsimp only
    rw [if_neg (by omega), if_pos hst]
    dsimp only
    split
    · exact .closed rfl
    · exact .of_eq hst
  | _ =>
    rw [hst] at hreach
    exact hreach.keeps nofun (by decide)

/-- **A segment** that does not come to `stream_enqueue`. -/
theorem processStream_keeps (hP : P.CloseWaitSteady) (hihl : a.seg.ihl.toNat = 5)
    (hcheck : a.seg.check = 0) (hsent : c.stream.state ≠ .synSent) (hno : ¬Enqueues c.stream a) :
    Outcome (processStream P c a) (fun _ => True) fun c' =>
      c.stream.state.Keeps c'.stream.state := by
  refine processStream_outcome (fun c' h _ => .of_eq h.steady.state) (fun c' h _ hcode => ?_)
    fun c' h hrst => ?_
  · rw [← h.steady.state]
    exact processRst_keeps (by rwa [h.steady.state]) _
  · rw [← h.steady.state] at hsent hrst ⊢
    refine dispatch_keeps hP hihl hcheck hsent hrst fun henq => hno ?_
    have hiss : c'.stream.snd.iss = c.stream.snd.iss := congrArg Session.iss h.steady.session
    have hirs : c'.stream.rcv.irs = c.stream.rcv.irs := congrArg Session.irs h.steady.session
    exact { henq with
      state := h.steady.state.symm.trans henq.state
      syn := hirs ▸ henq.syn
      ackSeq := hiss ▸ henq.ackSeq }

/-- **The segment that completes the handshake** leaves the stream past it, or closed when
`stream_enqueue` has no room. -/
theorem processStream_enqueues (henq : Enqueues c.stream a) (ret : ℤ) :
    Outcome (processStream P c (a.withEnqueue ret)) (fun _ => True) fun c' =>
      if 0 ≤ ret then TcpState.established.phase ≤ c'.stream.state.phase
      else c'.stream.state = .closed := by
  have hcode : c.stream.state.code = TcpState.synRcvd.code := by rw [henq.state]
  refine processStream_outcome (fun c' h hgt => ?_) (fun c' h hr _ => absurd hr henq.rst)
    fun c' h _ => ?_
  · exact absurd hgt (by rw [hcode]; decide)
  have hst : c'.stream.state = .synRcvd := h.steady.state.trans henq.state
  have hiss : c'.stream.snd.iss = c.stream.snd.iss := congrArg Session.iss h.steady.session
  have hirs : c'.stream.rcv.irs = c.stream.rcv.irs := congrArg Session.irs h.steady.session
  unfold dispatch
  rw [hst]
  obtain ⟨l, hl⟩ := Option.isSome_iff_exists.mp henq.listener
  have hlisten : (a.withEnqueue ret).listener = some { l with enqueueRet := ret } := by
    change a.listener.map _ = _
    rw [hl]
    rfl
  -- the answer of `stream_enqueue` opens the stream or closes it
  have hopen : Outcome (handleSynRcvd c' (a.withEnqueue ret)) (fun _ => True) fun d =>
      d.stream.state = if 0 ≤ ret then .established else .closed := by
    unfold handleSynRcvd
    rw [Arrival.withEnqueue_seg, if_pos henq.ack, if_neg (not_not.mpr (hiss ▸ henq.ackSeq)),
      synRcvdOpen_eq, hlisten]
    refine Outcome.ite (fun hneg => ?_) fun hpos => ?_
    · refine (addToTimeoutList_outcome _).mono (fun _ _ => trivial) fun d hd => ?_
      rw [hd.1, if_neg (Int.not_le.mpr hneg)]
      exact addtoControllist_state _
    · refine (addToTimeoutList_outcome _).mono (fun _ _ => trivial) fun d hd => ?_
      rw [hd.1, if_pos (Int.not_lt.mp hpos)]
      rfl
  unfold handleSynRcvdData
  refine Outcome.ite (fun hsyn => ?_) fun _ => Outcome.bind hopen fun d hd => ?_
  · exact absurd ⟨hsyn.1, hsyn.2.trans hirs⟩ henq.syn
  · refine Outcome.ite (fun hdata => ?_) fun _ => ?_
    · -- the segment brings data of the stream as well
      have hpos : 0 ≤ ret := by
        by_contra hneg
        rw [if_neg hneg, hdata.2] at hd
        cases hd
      refine (handleEstablished_keeps hdata.2).mono (fun _ h => h) fun e he => ?_
      rw [if_pos hpos]
      exact he.phase le_rfl
    · rw [Outcome.ok_iff, hd]
      split
      · exact le_rfl
      · rfl

/-- A stream that a SYN has just created is closed for want of a buffer, or its SYN is answered. -/
theorem processStream_new (hst : c.stream.state = .listen ∨ c.stream.state = .closed) :
    Outcome (processStream P c a) (fun _ => True) fun c' =>
      c'.stream.state = .synRcvd ∨ c'.stream.state = .closed := by
  rcases hst with hst | hst
  · have hcode : c.stream.state.code = TcpState.listen.code := by rw [hst]
    refine processStream_outcome (fun c' _ hgt => ?_) (fun c' _ _ hgt => ?_) fun c' h _ => ?_
    · exact absurd hgt (by rw [hcode]; decide)
    · exact absurd hgt (by rw [hcode]; decide)
    · unfold dispatch
      rw [h.steady.state.trans hst]
      exact (handleListen_state c' a).mono (fun _ h => h) fun _ h => .inl h
  · exact (processStream_of_closed hst).mono (fun _ h => h.elim) fun _ h => .inr h

/-- What the step of a stack does to the streams, when it does not come to `stream_enqueue`. -/
structure Stack.Keeps (S S' : Stack ρ) : Prop where
  stays : ∀ y s, S.stream y = some s → ∃ s', S'.stream y = some s' ∧ s.state.Keeps s'.state
  new : ∀ y s', S.stream y = none → S'.stream y = some s' →
    s'.state = .synRcvd ∨ s'.state = .closed

theorem Stack.Keeps.refl (S : Stack ρ) : S.Keeps S where
  stays _ s hs := ⟨s, hs, .refl _⟩
  new _ _ hnone hs' := absurd (hnone.symm.trans hs') nofun

/-- A stream is changed by a step, or created. -/
theorem Stack.keeps_store {x : Addr} {w : World ρ} {s : Stream ρ} (hw : w.stream = some s)
    (hstays : ∀ s₀, S.stream x = some s₀ → s₀.state.Keeps s.state)
    (hnew : S.stream x = none → s.state = .synRcvd ∨ s.state = .closed) :
    S.Keeps (S.store x w) := by
  have hself : (S.store x w).stream x = some s := by
    unfold Stack.store
    rw [hw]
    exact Function.update_self _ _ _
  constructor
  · intro y s₀ hs₀
    by_cases hy : y = x
    · subst hy
      exact ⟨s, hself, hstays s₀ hs₀⟩
    · exact ⟨s₀, (Stack.store_stream_of_ne hy).trans hs₀, .refl _⟩
  · intro y s' hnone hs'
    by_cases hy : y = x
    · subst hy
      obtain rfl := Option.some.inj (hself.symm.trans hs')
      exact hnew hnone
    · exact absurd (hnone.symm.trans ((Stack.store_stream_of_ne hy).symm.trans hs')) nofun

/-- The scans put closed streams into the stack. -/
theorem Stack.Keeps.put {S₀ : Stack ρ} (h : S₀.Keeps S) (hc : c.stream.state = .closed) :
    S₀.Keeps (S.put c) := by
  constructor
  · intro y s hs
    obtain ⟨s', hs', hkeep⟩ := h.stays y s hs
    by_cases hy : y = c.stream.addr
    · subst hy
      exact ⟨c.stream, Function.update_self _ _ _, .closed hc⟩
    · exact ⟨s', (Stack.put_stream_of_ne hy).trans hs', hkeep⟩
  · intro y s' hnone hs'
    by_cases hy : y = c.stream.addr
    · subst hy
      have hself : (S.put c).stream c.stream.addr = some c.stream := Function.update_self _ _ _
      obtain rfl := Option.some.inj (hself.symm.trans hs')
      exact .inr hc
    · exact h.new y s' hnone ((Stack.put_stream_of_ne hy).symm.trans hs')

/-- **A step of the stack** that does not come to `stream_enqueue`. -/
theorem ClosedStep.keeps (hP : P.CloseWaitSteady) {l : ClosedLabel ρ}
    (hsent : ∀ y s, S.stream y = some s → s.state ≠ .synSent) (hno : NothingEnqueued S l)
    (h : ClosedStep P tcpTimeout S l S') : S.Keeps S' := by
  cases h with
  | @segment x s a w ret hs hcall =>
    rcases process_found hcall with rfl | ⟨hihl, hcheck, c', hproc, rfl⟩
    · refine Stack.keeps_store rfl (fun s₀ hs₀ => ?_) fun hnone => absurd (hnone.symm.trans hs) nofun
      exact .of_eq (congrArg Stream.state (Option.some.inj (hs.symm.trans hs₀)))
    · refine Stack.keeps_store rfl (fun s₀ hs₀ => ?_) fun hnone => absurd (hnone.symm.trans hs) nofun
      obtain rfl := Option.some.inj (hs.symm.trans hs₀)
      exact (processStream_keeps hP hihl hcheck (hsent x s hs) (hno s hs)).of_ok hproc
  | @created x a w ret hfree hcall =>
    rcases process_ok hcall with rfl | ⟨c, c', hfind, hproc, rfl⟩
    · exact .refl S
    · have hst := ((createStream_outcome S.tcp [] a).of_ok hfind c rfl).2.1
      refine Stack.keeps_store rfl (fun s₀ hs₀ => absurd (hfree.symm.trans hs₀) nofun) fun _ => ?_
      exact (processStream_new hst).of_ok hproc
  | @rto x s c ret hs hcall =>
    refine Stack.keeps_store rfl (fun s₀ hs₀ => ?_) fun hnone => absurd (hnone.symm.trans hs) nofun
    obtain rfl := Option.some.inj (hs.symm.trans hs₀)
    exact ((handleRto_state _ _).of_ok hcall).elim .of_eq .closed
  | timewait hcall =>
    exact (timewaitLoop_closes (Q := S.Keeps) (fun _ _ h => h.put) _ _ _ 0 S (.refl S)).of_ok hcall
  | timeout hcall =>
    exact (timeoutLoop_closes (Q := S.Keeps) (fun _ _ h => h.put) _ _ _ 0 S (.refl S)).of_ok hcall

/-- **The step that completes the handshake.** -/
theorem ClosedStep.enqueues {x : Addr} {s : Stream ρ} {a : Arrival ρ} {ret : ℤ}
    (hs : S.stream x = some s) (henq : Enqueues s a)
    (h : ClosedStep P tcpTimeout S (.segment x (a.withEnqueue ret)) S') :
    (∃ s', S'.stream x = some s' ∧
      if 0 ≤ ret then TcpState.established.phase ≤ s'.state.phase else s'.state = .closed) ∧
      ∀ y, y ≠ x → S'.stream y = S.stream y := by
  cases h with
  | @segment _ s₀ _ w ret' hs₀ hcall =>
    obtain rfl := Option.some.inj (hs.symm.trans hs₀)
    have hproc : ∃ c', processStream P (S.conn s) (a.withEnqueue ret) = .ok c' ∧ w = c'.toWorld := by
      unfold process at hcall
      rw [Arrival.withEnqueue_seg, if_neg (show ¬20 ≠ a.seg.ihl.toNat * 4 by rw [henq.ihl]; decide),
        if_neg (show ¬a.seg.check ≠ 0 from not_not.mpr henq.check)] at hcall
      change (processStream P (S.conn s) (a.withEnqueue ret) >>= fun c => .ok (c.toWorld, 1)) = _ at hcall
      cases hp : processStream P (S.conn s) (a.withEnqueue ret) with
      | error e => rw [hp] at hcall; cases hcall
      | ok c' =>
        rw [hp] at hcall
        cases hcall
        exact ⟨c', rfl, rfl⟩
    obtain ⟨c', hproc, rfl⟩ := hproc
    refine ⟨⟨c'.stream, Function.update_self _ _ _, ?_⟩, fun y hy => Function.update_of_ne hy _ _⟩
    exact (processStream_enqueues (c := S.conn s) henq ret).of_ok hproc

end Keeps

/-! ### What a step of the queue does to its history -/

section Queue

variable {α : Type*} {q q' : QueueSys α}

/-- `stream_enqueue` goes on inside, or returns for its stream. -/
theorem QueueSys.enqNext_cases {x : α} (hx : q.enq.stream = some x) (h : q.enqNext = some q') :
    (q'.enq.stream = some x ∧ q'.stored = q.stored ∧ q'.refused = q.refused) ∨
      (q'.enq.stream = none ∧ q.enq.ret = 0 ∧ q'.stored = q.stored ++ [x] ∧
        q'.refused = q.refused) ∨
      (q'.enq.stream = none ∧ q.enq.ret = -1 ∧ q'.stored = q.stored ∧
        ∃ held, q'.refused = q.refused ++ [held]) := by
  unfold QueueSys.enqNext at h
  cases henq : q.enq with
  | idle => rw [henq] at hx; cases hx
  | readHead stream =>
    rw [henq] at hx h
    cases hx
    cases h
    exact .inl ⟨rfl, rfl, rfl⟩
  | readTail stream hd seen =>
    rw [henq] at hx h
    cases hx
    dsimp only at h
    split at h
    · cases h
      exact .inl ⟨rfl, rfl, rfl⟩
    · -- no room
      cases h
      exact .inr (.inr ⟨rfl, rfl, rfl, seen, rfl⟩)
  | write stream t =>
    rw [henq] at hx h
    cases hx
    cases h
    exact .inl ⟨rfl, rfl, rfl⟩
  | store stream t =>
    rw [henq] at hx h
    cases hx
    cases h
    exact .inr (.inl ⟨rfl, rfl, rfl, rfl⟩)

/-- The thread that takes streams out leaves the other one alone. -/
theorem QueueSys.deqNext_frame (h : q.deqNext = some q') :
    q'.enq = q.enq ∧ q'.stored = q.stored ∧ q'.refused = q.refused := by
  unfold QueueSys.deqNext at h
  split at h
  · cases h
  · cases h
    exact ⟨rfl, rfl, rfl⟩
  · split at h
    · cases h
      exact ⟨rfl, rfl, rfl⟩
    · cases h
      exact ⟨rfl, rfl, rfl⟩
  · cases h
    exact ⟨rfl, rfl, rfl⟩
  · dsimp only at h
    split at h
    · cases h
      exact ⟨rfl, rfl, rfl⟩
    · cases h
      exact ⟨rfl, rfl, rfl⟩
  · cases h

end Queue

/-! ### The invariant -/

/-- What holds of a server between any two steps. -/
structure Server.Inv (capacity : ℕ) (v : Server ρ) : Prop where
  queue : QueueInv v.acceptq
  capacity : v.acceptq.sq.capacity = capacity
  /-- the thread in `stream_enqueue` is the one that handles the segment -/
  calling : v.acceptq.enq.stream = v.calling.map Prod.fst
  enqueues : ∀ x a, v.calling = some (x, a) → ∃ s, v.stack.stream x = some s ∧ Enqueues s a
  stored : v.acceptq.stored = (v.opened.filter (·.2)).map Prod.fst
  refused : v.acceptq.refused.length = v.opened.countP (!·.2)
  once : (v.opened.map Prod.fst).Nodup
  past : ∀ x room, (x, room) ∈ v.opened → ∃ s, v.stack.stream x = some s ∧
    if room then TcpState.established.phase ≤ s.state.phase else s.state = .closed
  all : ∀ x s, v.stack.stream x = some s →
    s.state = .synRcvd ∨ s.state = .closed ∨ ∃ room, (x, room) ∈ v.opened

section Server

variable {P : Parts ρ} {tcpTimeout : ℤ} {capacity : ℕ} {v v' : Server ρ} {q : QueueSys Addr}
  {l : ServerLabel ρ}

theorem Server.Inv.serves (h : v.Inv capacity) : v.Serves capacity where
  handed := h.queue.dequeued_prefix
  stored := h.stored
  once := h.once
  full := List.eq_replicate_iff.mpr
    ⟨h.refused, fun held hheld => (h.queue.refused_full held hheld).trans h.capacity⟩
  empty := h.queue.nulls_empty
  asserts := by
    intro habort
    have hok := h.queue.deq_ok
    rw [habort] at hok
    exact hok
  past := h.past
  all := h.all

/-- A stream that has come to the queue is in the handshake no longer. -/
theorem Server.Inv.not_synRcvd (h : v.Inv capacity) {x : Addr} {room : Bool} {s : Stream ρ}
    (hx : (x, room) ∈ v.opened) (hs : v.stack.stream x = some s) : s.state ≠ .synRcvd := by
  obtain ⟨s', hs', hpast⟩ := h.past x room hx
  obtain rfl := Option.some.inj (hs.symm.trans hs')
  intro hst
  rw [hst] at hpast
  split at hpast
  · exact absurd hpast (by decide)
  · cases hpast

/-- No stream is in `SYN_SENT`, since nothing is opened actively. -/
theorem Server.Inv.not_synSent (h : v.Inv capacity) {x : Addr} {s : Stream ρ}
    (hs : v.stack.stream x = some s) : s.state ≠ .synSent := by
  intro hst
  rcases h.all x s hs with hrcvd | hclosed | ⟨room, hx⟩
  · exact absurd (hst.symm.trans hrcvd) nofun
  · exact absurd (hst.symm.trans hclosed) nofun
  · obtain ⟨s', hs', hpast⟩ := h.past x room hx
    obtain rfl := Option.some.inj (hs.symm.trans hs')
    rw [hst] at hpast
    split at hpast
    · exact absurd hpast (by decide)
    · cases hpast

/-- A step of the queue that changes neither the call of `stream_enqueue` nor what was stored. -/
theorem Server.Inv.queueStep (h : v.Inv capacity) {ql : QueueLabel Addr}
    (hstep : QueueStep v.acceptq ql q) (henq : q.enq.stream = v.acceptq.enq.stream)
    (hstored : q.stored = v.acceptq.stored) (hrefused : q.refused = v.acceptq.refused) :
    ({ v with acceptq := q } : Server ρ).Inv capacity :=
  { h with
    queue := h.queue.step hstep
    capacity := hstep.capacity_eq.trans h.capacity
    calling := henq.trans h.calling
    stored := hstored.trans h.stored
    refused := (congrArg List.length hrefused).trans h.refused }

/-- A step of the stack that does not come to `stream_enqueue`. -/
theorem Server.Inv.stackStep (h : v.Inv capacity) {S' : Stack ρ} (hidle : v.calling = none)
    (hkeep : v.stack.Keeps S') : ({ v with stack := S' } : Server ρ).Inv capacity := by
  refine { h with enqueues := ?_, past := ?_, all := ?_ }
  · intro x a hcall
    exact absurd (hidle.symm.trans hcall) nofun
  · intro x room hx
    obtain ⟨s, hs, hpast⟩ := h.past x room hx
    obtain ⟨s', hs', hkeeps⟩ := hkeep.stays x s hs
    refine ⟨s', hs', ?_⟩
    cases room with
    | true => exact hkeeps.phase hpast
    | false =>
      -- a closed stream stays closed
      have hclosed : s.state = .closed := hpast
      rw [hclosed] at hkeeps
      rcases hkeeps with h' | ⟨h', -⟩ | h' | ⟨h', -⟩
      · exact h'
      · cases h'
      · exact h'
      · exact absurd rfl h'
  · intro x s' hs'
    cases hs : v.stack.stream x with
    | none => exact (hkeep.new x s' hs hs').imp id .inl
    | some s =>
      obtain ⟨s'', hs'', hkeeps⟩ := hkeep.stays x s hs
      obtain rfl := Option.some.inj (hs'.symm.trans hs'')
      rcases h.all x s hs with hst | hst | hx
      · -- from `SYN_RCVD` there is no way past the handshake
        rw [hst] at hkeeps
        rcases hkeeps with h' | ⟨h', -⟩ | h' | ⟨-, h', -⟩
        · exact .inl h'
        · cases h'
        · exact .inr (.inl h')
        · exact absurd h' (by decide)
      · rw [hst] at hkeeps
        rcases hkeeps with h' | ⟨h', -⟩ | h' | ⟨h', -⟩
        · exact .inr (.inl h')
        · cases h'
        · exact .inr (.inl h')
        · exact absurd rfl h'
      · exact .inr (.inr hx)

/-- `stream_enqueue` returns, and the handler goes on. -/
theorem Server.Inv.return (h : v.Inv capacity) {x : Addr} {a : Arrival ρ} {S' : Stack ρ}
    (hcall : v.calling = some (x, a)) (hstep : QueueStep v.acceptq .enqNext q)
    (hout : q.enq.stream = none)
    (hproc : ClosedStep P tcpTimeout v.stack (.segment x (a.withEnqueue v.acceptq.enq.ret)) S') :
    ({ stack := S', acceptq := q, calling := none,
       opened := v.opened ++ [(x, decide (0 ≤ v.acceptq.enq.ret))] } : Server ρ).Inv capacity := by
  obtain ⟨s, hs, henq⟩ := h.enqueues x a hcall
  obtain ⟨⟨s', hs', hpast⟩, hother⟩ := hproc.enqueues hs henq
  have hx : v.acceptq.enq.stream = some x := by
    rw [h.calling, hcall]
    rfl
  -- the stream is in `SYN_RCVD`, so this is its first time
  have hfresh : x ∉ v.opened.map Prod.fst := by
    intro hmem
    obtain ⟨p, hp, hpx⟩ := List.mem_map.mp hmem
    have hentry : (x, p.2) ∈ v.opened := by
      rw [← hpx]
      exact hp
    exact h.not_synRcvd hentry hs henq.state
  -- the queue has one stream more, or has refused one more
  have hqueue : q.stored = ((v.opened ++ [(x, decide (0 ≤ v.acceptq.enq.ret))]).filter (·.2)).map
        Prod.fst ∧
      q.refused.length = (v.opened ++ [(x, decide (0 ≤ v.acceptq.enq.ret))]).countP (!·.2) := by
    cases hstep with
    | enqNext hnext =>
      rw [List.filter_append, List.map_append, List.countP_append, ← h.stored, ← h.refused]
      rcases QueueSys.enqNext_cases hx hnext with ⟨hin, -⟩ | ⟨-, hret, hst, href⟩ | ⟨-, hret, hst, held, href⟩
      · exact absurd (hout.symm.trans hin) nofun
      · rw [hret, hst, href]
        exact ⟨rfl, rfl⟩
      · rw [hret, hst, href]
        exact ⟨(List.append_nil _).symm, List.length_append⟩
  refine ⟨h.queue.step hstep, hstep.capacity_eq.trans h.capacity, hout, ?_, hqueue.1, hqueue.2,
    ?_, ?_, ?_⟩
  · intro _ _ hnone
    cases hnone
  · rw [List.map_append]
    exact List.nodup_append_comm.mp (List.nodup_cons.mpr ⟨hfresh, h.once⟩)
  · intro y room hy
    rcases List.mem_append.mp hy with hy | hy
    · have hne : y ≠ x := by
        intro heq
        exact hfresh (heq ▸ List.mem_map_of_mem hy)
      rw [hother y hne]
      exact h.past y room hy
    · obtain ⟨rfl, rfl⟩ := Prod.mk.inj (List.mem_singleton.mp hy)
      refine ⟨s', hs', ?_⟩
      by_cases hret : 0 ≤ v.acceptq.enq.ret
      · rw [if_pos (decide_eq_true hret)]
        rwa [if_pos hret] at hpast
      · rw [if_neg (by rw [decide_eq_true_iff]; exact hret)]
        rwa [if_neg hret] at hpast
  · intro y t ht
    by_cases hy : y = x
    · subst hy
      exact .inr (.inr ⟨_, List.mem_append_right _ (List.mem_singleton_self _)⟩)
    · rcases h.all y t ((hother y hy).symm.trans ht) with hst | hst | ⟨room, hmem⟩
      · exact .inl hst
      · exact .inr (.inl hst)
      · exact .inr (.inr ⟨room, List.mem_append_left _ hmem⟩)

/-- Every step keeps the invariant. -/
theorem ServerStep.inv (hP : P.CloseWaitSteady) (h : v.Inv capacity)
    (hstep : ServerStep P tcpTimeout v l v') : v'.Inv capacity := by
  cases hstep with
  | stack hidle hno hstep => exact h.stackStep hidle (hstep.keeps hP (fun _ _ => h.not_synSent) hno)
  | @enqCall x s a q hidle hs henq hstep =>
    cases hstep with
    | enqCall _ hq =>
      refine { h with
        queue := h.queue.step (.enqCall x hq)
        calling := rfl
        enqueues := ?_ }
      intro y b hcall
      obtain ⟨rfl, rfl⟩ := Prod.mk.inj (Option.some.inj hcall)
      exact ⟨s, hs, henq⟩
  | enqNext hstep hinside =>
    cases hstep with
    | enqNext hnext =>
      cases hx : v.acceptq.enq.stream with
      | none =>
        have hidle : v.acceptq.enq = .idle := by
          cases henq : v.acceptq.enq with
          | idle => rfl
          | _ => rw [henq] at hx; cases hx
        -- a call that is not under way has no next step
        unfold QueueSys.enqNext at hnext
        rw [hidle] at hnext
        cases hnext
      | some x =>
        -- the steps that return belong to `enqReturn`
        rcases QueueSys.enqNext_cases hx hnext with ⟨hin, hst, href⟩ | ⟨hout, -⟩ | ⟨hout, -⟩
        · exact h.queueStep (.enqNext hnext) (hin.trans hx.symm) hst href
        · rw [hout] at hinside; cases hinside
        · rw [hout] at hinside; cases hinside
  | enqReturn hcall hstep hout hproc => exact h.return hcall hstep hout hproc
  | deqCall hstep =>
    cases hstep with
    | deqCall hq => exact h.queueStep (.deqCall hq) rfl rfl rfl
  | deqNext hstep =>
    cases hstep with
    | deqNext hnext =>
      obtain ⟨henq, hst, href⟩ := QueueSys.deqNext_frame hnext
      exact h.queueStep (.deqNext hnext) (congrArg EnqPc.stream henq) hst href

theorem Server.start_inv (capacity : ℕ) (junk : ℕ → Option Addr) (tcp : TcpManager)
    (socket : Addr → Bool) : (Server.start capacity junk tcp socket : Server ρ).Inv capacity where
  queue := .initial capacity junk
  capacity := rfl
  calling := rfl
  enqueues _ _ hnone := by cases hnone
  stored := rfl
  refused := rfl
  once := List.nodup_nil
  past _ _ hx := absurd hx List.not_mem_nil
  all _ _ hnone := by cases hnone

/-- **From the handshake to the application.** In every interleaving of segments, timers and calls of
`stream_dequeue`, a listener serves its application: the streams whose handshake was completed while there
was room are handed out, each once and in this order, and every other stream waits for the end of its
handshake or was closed. -/
theorem connections_accepted (hP : P.CloseWaitSteady) {junk : ℕ → Option Addr} {tcp : TcpManager}
    {socket : Addr → Bool} {ls : List (ServerLabel ρ)}
    (hrun : Run (ServerStep P tcpTimeout) (.start capacity junk tcp socket) ls v) :
    v.Serves capacity :=
  (hrun.invariant (Server.Inv capacity) (Server.start_inv capacity junk tcp socket)
    fun _ _ _ h hstep => ServerStep.inv hP h hstep).serves

end Server

/-- A client connects, and the application takes the stream out of a queue for one. -/
theorem connections_accepted_one :
    ∃ v, Run (ServerStep inOrderParts 30) (.start 1 (fun _ => none) default fun _ => false)
        [.stack (.created 0 (openSegment true false 7 0)), .enqCall 0 (openSegment false true 8 101),
          .enqNext, .enqNext, .enqNext, .enqReturn, .deqCall, .deqNext, .deqNext, .deqNext,
          .deqNext] v ∧
      v.opened = [(0, true)] ∧ v.acceptq.dequeued = [0] ∧ v.Serves 1 := by
  have start : Run (ServerStep inOrderParts 30)
      (.start 1 (fun _ => none) default fun _ => false) [] _ := .nil
  have syn := start.snoc (.stack (l := .created 0 (openSegment true false 7 0)) rfl trivial
    (.created rfl rfl))
  have called := syn.snoc (.enqCall (x := 0) (a := openSegment false true 8 101) rfl rfl
    ⟨rfl, rfl, rfl, nofun, nofun, rfl, rfl, rfl⟩ (.enqCall 0 rfl))
  have stored := ((called.snoc (.enqNext (.enqNext rfl) rfl)).snoc (.enqNext (.enqNext rfl) rfl)).snoc
    (.enqNext (.enqNext rfl) rfl)
  have opened := stored.snoc (.enqReturn rfl (.enqNext rfl) rfl (.segment rfl rfl))
  have deq := ((((opened.snoc (.deqCall (.deqCall rfl))).snoc (.deqNext (.deqNext rfl))).snoc
    (.deqNext (.deqNext rfl))).snoc (.deqNext (.deqNext rfl))).snoc (.deqNext (.deqNext rfl))
  exact ⟨_, deq, rfl, rfl, connections_accepted inOrderParts_steady deq⟩

end CmtTcp
