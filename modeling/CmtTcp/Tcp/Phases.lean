import CmtTcp.Tcp.Closed
import Mathlib.Logic.Relation

/-!
# The phases of a connection

The state diagram of the stack (`TcpState.Edge`), and what it says of whole runs: where no segment reopens
its stream, segments and timers take every stream along the edges of the diagram, so that a stream never
goes back to a state it has left (`phases_advance`).

The diagram is not quite that of the protocol. A reset in `SYN_SENT`, `ESTABLISHED` or `CLOSE_WAIT` leads
to `CLOSE_WAIT`, a segment in `SYN_SENT` that is none of the expected ones to `SYN_RCVD`, and a stream that
is closed while it waits is `CLOSED` at once.
-/

namespace CmtTcp

open Lib (Outcome Run Guarded)

variable {ρ : Type}

/-! ### The diagram -/

namespace TcpState

/-- The state diagram. -/
inductive Edge : TcpState → TcpState → Prop
  | synReceived : Edge listen synRcvd
  | simultaneous : Edge synSent synRcvd
  | opened : Edge synSent established
  | refused : Edge synSent closeWait
  | synAgain : Edge synRcvd synRcvd
  | accepted : Edge synRcvd established
  | peerCloses : Edge established closeWait
  | resetAgain : Edge closeWait closeWait
  | finAcked : Edge finWait1 finWait2
  | bothClose : Edge finWait1 closing
  | finReceived : Edge finWait2 timeWait
  | finAckedLast : Edge closing timeWait
  | ended (s : TcpState) : Edge s closed

/-- How far a connection in a state has come. -/
def phase : TcpState → ℕ
  | listen => 0
  | synSent => 0
  | synRcvd => 1
  | established => 2
  | closeWait => 3
  | finWait1 => 3
  | finWait2 => 4
  | closing => 4
  | lastAck => 4
  | timeWait => 5
  | closed => 6

/-- A path in the diagram. -/
def Reaches : TcpState → TcpState → Prop := Relation.ReflTransGen Edge

variable {s t u : TcpState}

theorem Edge.phase (h : Edge s t) : s = t ∨ s.phase < t.phase := by
  cases h with
  | ended s =>
    cases s with
    | closed => exact .inl rfl
    | _ => exact .inr (by decide)
  | synAgain => exact .inl rfl
  | resetAgain => exact .inl rfl
  | _ => exact .inr (by decide)

theorem Reaches.refl (s : TcpState) : s.Reaches s := Relation.ReflTransGen.refl

theorem Reaches.of_eq (h : t = s) : s.Reaches t := h ▸ .refl s

theorem Edge.reaches (h : Edge s t) : s.Reaches t := Relation.ReflTransGen.single h

theorem Reaches.trans (h : s.Reaches t) (h' : t.Reaches u) : s.Reaches u :=
  Relation.ReflTransGen.trans h h'

/-- Along a path the phase only grows, or the state is the same. -/
theorem Reaches.phase (h : s.Reaches t) : s = t ∨ s.phase < t.phase := by
  induction h with
  | refl => exact .inl rfl
  | tail _ hedge ih =>
    rcases ih with rfl | hlt
    · exact hedge.phase
    · rcases hedge.phase with rfl | hlt'
      · exact .inr hlt
      · exact .inr (hlt.trans hlt')

end TcpState

/-! ### The handlers -/

/-- A call that returns takes a stream from the state `st` along the diagram. -/
def Advances (st : TcpState) (r : Except Abort (Conn ρ)) : Prop :=
  Outcome r (fun _ => True) fun c' => st.Reaches c'.stream.state

/-- The same, if it did not close the stream in passing. -/
def AdvancesOrStrays (st : TcpState) (r : Except Abort (Conn ρ)) : Prop :=
  Outcome r (fun _ => True) fun c' => c'.Sealed → st.Reaches c'.stream.state

section Handlers

variable {P : Parts ρ} {c c' : Conn ρ} {a : Arrival ρ} {st : TcpState} {r : Except Abort (Conn ρ)}

theorem Advances.of_steady {E : Abort → Prop} (hr : Outcome r E c.Steady) :
    Advances c.stream.state r :=
  hr.mono (fun _ _ => trivial) fun _ h => .of_eq h.state

theorem Advances.orStrays (h : Advances st r) : AdvancesOrStrays st r :=
  Outcome.mono h (fun _ h => h) fun _ h _ => h

/-- A result that is put on the timeout list. -/
theorem Advances.timeoutList (h : st.Reaches c'.stream.state) : Advances st (addToTimeoutList c') := by
  refine (addToTimeoutList_outcome c').mono (fun _ _ => trivial) fun d hd => ?_
  rw [hd.1]
  exact h

theorem addtoControllist_state (c : Conn ρ) : (addtoControllist c).stream.state = c.stream.state :=
  (addtoControllist_scheduled c).steady.state

theorem handleListen_advances (hst : st.Edge .synRcvd) : Advances st (handleListen c a) := by
  unfold handleListen
  refine Outcome.ite (fun _ => ?_) fun _ => trivial
  rw [Outcome.ok_iff, addtoControllist_state]
  exact hst.reaches

theorem synSentOpen_advances : Advances .synSent (synSentOpen c a) := by
  unfold synSentOpen
  refine Outcome.bind ((activeOpen_outcome c a).mono (fun _ _ => trivial) fun _ h => h) ?_
  intro c₁ _
  refine Advances.timeoutList ?_
  rw [addtoControllist_state]
  split
  · exact TcpState.Edge.opened.reaches
  · exact TcpState.Edge.opened.reaches

theorem handleSynSent_advances (hst : c.stream.state = .synSent) :
    Advances .synSent (handleSynSent c a) := by
  unfold handleSynSent
  refine Outcome.ite (fun _ => .of_eq hst) fun _ => Outcome.ite (fun _ => ?_) fun _ =>
    Outcome.ite (fun _ => synSentOpen_advances) fun _ => ?_
  · -- the reset may come with the acknowledgement of our SYN
    rw [Outcome.ok_iff]
    generalize (if a.seg.ack then _ else c) = c₁
    split
    · exact TcpState.Edge.refused.reaches
    · exact TcpState.Edge.refused.reaches
  · rw [Outcome.ok_iff, addtoControllist_state]
    exact TcpState.Edge.simultaneous.reaches

theorem synRcvdOpen_advances : Advances .synRcvd (synRcvdOpen c a) := by
  rw [synRcvdOpen_eq]
  split
  · exact trivial
  · refine Outcome.ite (fun _ => Advances.timeoutList ?_) fun _ => Advances.timeoutList ?_
    · rw [addtoControllist_state]
      exact (TcpState.Edge.ended _).reaches
    · exact TcpState.Edge.accepted.reaches

/-- The payload step keeps the state, or closes the stream and says so. -/
theorem receivePayload_state (P : Parts ρ) (c : Conn ρ) (a : Arrival ρ) :
    Outcome (receivePayload P c a) (fun _ => True) fun c' =>
      c'.stream.state = c.stream.state ∨ c'.stream.state = .closed ∧ EnteredClosed c'.log := by
  refine (receivePayload_outcome P c a).mono (fun _ _ => trivial) fun c' hstep => ?_
  cases hstep with
  | stored hses _ => exact .inl (congrArg Session.state hses)
  | closed s hs _ hses hlog =>
    refine .inr ⟨congrArg Session.state hses, s, ?_, hs⟩
    rw [hlog]
    exact List.mem_append_right _ (List.mem_singleton_self _)

/-- What was entered stays in the log. -/
theorem EnteredClosed.append {log : List (Event ρ)} (h : EnteredClosed log) (es : List (Event ρ)) :
    EnteredClosed (log ++ es) := by
  obtain ⟨s, hmem, hs⟩ := h
  exact ⟨s, List.mem_append_left _ hmem, hs⟩

/-- The FIN in `ESTABLISHED`: a stream that the payload closed strays to `CLOSE_WAIT`. -/
theorem handleEstablished_advances (hst : c.stream.state = .established) :
    AdvancesOrStrays .established (handleEstablished P c a) := by
  unfold handleEstablished
  refine Outcome.ite (fun _ _ => ?_) fun _ => ?_
  · exact .of_eq ((addtoControllist_state _).trans hst)
  refine Outcome.bind (receivePayload_state P c a) fun c₀ hpay => ?_
  refine Outcome.bind ((establishedAck_outcome _ a).mono (fun _ _ => trivial) fun _ h => h) ?_
  intro c₁ h₁
  rw [← h₁.state, ← h₁.log, hst] at hpay
  rw [Outcome.ok_iff]
  unfold establishedFin
  split
  · split
    · intro hsealed
      rcases hpay with hkeep | ⟨hclosed, hlog⟩
      · rw [addtoControllist_state]
        exact TcpState.Edge.peerCloses.reaches
      · -- the log has `CLOSED`, and the stream is in `CLOSE_WAIT`
        have hstate := hsealed (by
          rw [(addtoControllist_scheduled _).log]
          exact (hlog.append _).append _)
        rw [addtoControllist_state] at hstate
        cases hstate
    · intro _
      rw [(enqueueAcklist_scheduled c₁ .now).steady.state]
      rcases hpay with hkeep | ⟨hclosed, -⟩
      · exact .of_eq hkeep
      · rw [hclosed]
        exact (TcpState.Edge.ended _).reaches
  · intro _
    rcases hpay with hkeep | ⟨hclosed, -⟩
    · exact .of_eq hkeep
    · rw [hclosed]
      exact (TcpState.Edge.ended _).reaches

theorem handleSynRcvdData_advances (hst : c.stream.state = .synRcvd) :
    AdvancesOrStrays .synRcvd (handleSynRcvdData P c a) := by
  unfold handleSynRcvdData
  refine Outcome.ite (fun _ => (handleListen_advances .synAgain).orStrays) fun _ => ?_
  have hrcvd : Advances .synRcvd (handleSynRcvd c a) := by
    unfold handleSynRcvd
    refine Outcome.ite (fun _ => Outcome.ite (fun _ => trivial) fun _ => synRcvdOpen_advances) fun _ => ?_
    exact .of_eq ((addtoControllist_state _).trans hst)
  refine Outcome.bind hrcvd fun c₁ h₁ => Outcome.ite (fun hopen => ?_) fun _ _ => h₁
  refine (handleEstablished_advances hopen.2).mono (fun _ h => h) fun c₂ h₂ hsealed => ?_
  exact TcpState.Edge.accepted.reaches.trans (h₂ hsealed)

theorem finAcked_state (c : Conn ρ) (seg : Segment) :
    (finAcked c seg).stream.state = c.stream.state ∨ (finAcked c seg).stream.state = .finWait2 := by
  unfold finAcked
  split
  · exact .inr rfl
  · exact .inl rfl

theorem handleFinWait1_advances (hst : c.stream.state = .finWait1) :
    Advances .finWait1 (handleFinWait1 P c a) := by
  unfold handleFinWait1
  refine Outcome.ite (fun _ => ?_) fun _ => Outcome.ite (fun _ => ?_) fun _ => .of_eq hst
  · exact .of_eq ((addtoControllist_state _).trans hst)
  refine Outcome.bind ((receiveAck_outcome c a).mono (fun _ _ => trivial) fun _ h => h) ?_
  intro c₁ h₁
  have hacked : TcpState.finWait1.Reaches (finAcked c₁ a.seg).stream.state := by
    rcases finAcked_state c₁ a.seg with h | h
    · rw [h, h₁.state]
      exact .of_eq hst
    · rw [h]
      exact TcpState.Edge.finAcked.reaches
  refine Outcome.bind (receivePayload_state P (finAcked c₁ a.seg) a) fun c₂ h₂ => ?_
  have hpay : TcpState.finWait1.Reaches c₂.stream.state := by
    rcases h₂ with h | ⟨h, -⟩
    · rw [h]
      exact hacked
    · rw [h]
      exact (TcpState.Edge.ended _).reaches
  refine Outcome.ite (fun _ => ?_) fun _ => hpay
  unfold finWait1Fin
  refine Outcome.ite (fun hw => ?_) fun _ => Outcome.ite (fun hw => ?_) fun _ => trivial
  · rw [Outcome.ok_iff, addtoControllist_state]
    exact TcpState.Edge.bothClose.reaches
  · rw [Outcome.ok_iff, addtoControllist_state, (addToTimewaitList_scheduled _ a.ts).steady.state]
    exact TcpState.Edge.finAcked.reaches.trans TcpState.Edge.finReceived.reaches

theorem handleFinWait2_advances (hst : c.stream.state = .finWait2) :
    AdvancesOrStrays .finWait2 (handleFinWait2 P c a) := by
  unfold handleFinWait2
  refine Outcome.ite (fun _ => ?_) fun _ _ => .of_eq hst
  refine Outcome.bind ((receiveAck_outcome c a).mono (fun _ _ => trivial) fun _ h => h) ?_
  intro c₁ h₁
  refine Outcome.bind (receivePayload_state P c₁ a) fun c₂ hpay => ?_
  rw [h₁.state, hst] at hpay
  refine Outcome.ite (fun _ _ => ?_) fun _ _ => ?_
  · rw [addtoControllist_state, (addToTimewaitList_scheduled _ a.ts).steady.state]
    exact TcpState.Edge.finReceived.reaches
  · rcases hpay with h | ⟨h, -⟩
    · exact .of_eq h
    · rw [h]
      exact (TcpState.Edge.ended _).reaches

theorem handleClosing_advances (hst : c.stream.state = .closing) :
    Advances .closing (handleClosing c a) := by
  unfold handleClosing
  refine Outcome.ite (fun _ => ?_) fun _ => .of_eq hst
  refine Outcome.bind ((receiveAck_outcome c a).mono (fun _ _ => trivial) fun _ h => h) ?_
  intro c₁ h₁
  have hst₁ := h₁.state.trans hst
  refine Outcome.ite (fun _ => .of_eq hst₁) fun _ => Outcome.ite (fun _ => .of_eq hst₁) fun _ => ?_
  refine Outcome.bind ((updateRetransmissionTimer_outcome _ a.ts).mono (fun _ _ => trivial)
    fun _ h => h) fun c₂ _ => ?_
  rw [Outcome.ok_iff, (addToTimewaitList_scheduled _ a.ts).steady.state]
  exact TcpState.Edge.finAckedLast.reaches

theorem handleLastAck_advances (hst : c.stream.state = .lastAck) :
    Advances .lastAck (handleLastAck c a) := by
  refine (handleLastAck_outcome c a).mono (fun _ _ => trivial) fun c' h => ?_
  rcases h with h | ⟨-, hclosed, -⟩
  · exact .of_eq (h.state.trans hst)
  · rw [hclosed]
    exact (TcpState.Edge.ended _).reaches

/-- A reset ends a connection, or takes it to `CLOSE_WAIT`. -/
theorem processRst_state (hcode : c.stream.state.code > TcpState.synSent.code) (ackSeq : U32) :
    c.stream.state.Reaches (processRst c ackSeq).1.stream.state := by
  unfold processRst
  dsimp only
  rw [if_neg (by omega)]
  split
  · split
    · exact (TcpState.Edge.ended _).reaches
    · exact .refl _
  next hrcvd =>
  split
  · exact (TcpState.Edge.ended _).reaches
  next hwait =>
  -- what is left is `ESTABLISHED` and `CLOSE_WAIT`
  split
  · cases hst : c.stream.state with
    | established => exact TcpState.Edge.peerCloses.reaches
    | closeWait => exact TcpState.Edge.resetAgain.reaches
    | synRcvd => exact absurd hst hrcvd
    | listen => rw [hst] at hcode; exact absurd hcode (by decide)
    | synSent => rw [hst] at hcode; exact absurd hcode (by decide)
    | closed => rw [hst] at hcode; exact absurd hcode (by decide)
    | _ => exact absurd (by simp [hst]) hwait
  · exact .refl _

theorem dispatch_advances (hP : P.CloseWaitSteady) (c : Conn ρ) (a : Arrival ρ) :
    AdvancesOrStrays c.stream.state (dispatch P c a) := by
  unfold dispatch
  cases hst : c.stream.state with
  | listen => exact (handleListen_advances .synReceived).orStrays
  | synSent => exact (handleSynSent_advances hst).orStrays
  | synRcvd => exact handleSynRcvdData_advances hst
  | established => exact handleEstablished_advances hst
  | closeWait =>
    have hsteady := (Advances.of_steady (hP c a)).orStrays
    rw [hst] at hsteady
    exact hsteady
  | lastAck => exact (handleLastAck_advances hst).orStrays
  | finWait1 => exact (handleFinWait1_advances hst).orStrays
  | finWait2 => exact handleFinWait2_advances hst
  | closing => exact (handleClosing_advances hst).orStrays
  | timeWait =>
    have hsteady := (Advances.of_steady (handleTimeWait_outcome c a)).orStrays
    rw [hst] at hsteady
    exact hsteady
  | closed => exact fun _ => .of_eq hst

/-- **One segment** takes its stream along the diagram, unless it closes it in passing. -/
theorem processStream_advances (hP : P.CloseWaitSteady) (c : Conn ρ) (a : Arrival ρ) :
    AdvancesOrStrays c.stream.state (processStream P c a) := by
  refine processStream_outcome (fun c' h _ _ => .of_eq h.steady.state) (fun c' h _ hcode _ => ?_)
    fun c' h _ => ?_
  · rw [← h.steady.state]
    exact processRst_state (by rwa [h.steady.state]) _
  · rw [← h.steady.state]
    exact dispatch_advances hP c' a

end Handlers

/-! ### Runs -/

section Runs

variable {P : Parts ρ} {S S' : Stack ρ} {tcpTimeout : ℤ} {x : Addr} {s : Stream ρ} {w : World ρ}
  {c : Conn ρ} {a : Arrival ρ} {ret : ℤ} {l : ClosedLabel ρ} {st : TcpState}

/-- There is a stream at `x`, and its state is one that `st` leads to. -/
def Stack.Past (S : Stack ρ) (x : Addr) (st : TcpState) : Prop :=
  ∃ s, S.stream x = some s ∧ st.Reaches s.state

/-- What is sent again is only scheduled. -/
theorem rtoResend_state (c : Conn ρ) :
    Outcome (rtoResend c) (fun _ => True) fun r => r.1.stream.state = c.stream.state := by
  have hsend : ∀ d : Conn ρ, Outcome (addtoSendlist d) (fun _ => True) fun c' =>
      c'.stream.state = d.stream.state := fun d =>
    (addtoSendlist_outcome d).mono (fun _ _ => trivial) fun _ h => h.steady.state
  unfold rtoResend
  refine Outcome.ite (fun _ => Outcome.bind (hsend _) fun _ h => h) fun _ =>
    Outcome.ite (fun _ => Outcome.ite (fun _ => ?_) fun _ => ?_) fun _ => ?_
  · refine Outcome.bind (hsend _) fun c' h => h.trans ?_
    change (if _ then removeControllist _ else _ : Conn ρ).stream.state = _
    split
    · rw [(removeControllist_eq _).1]
      rfl
    · rfl
  · exact addtoControllist_state _
  · exact addtoControllist_state _

/-- A timeout closes the stream, or leaves its state. -/
theorem handleRto_state (c : Conn ρ) (socket : Bool) :
    Outcome (handleRto c socket) (fun _ => True) fun r =>
      r.1.stream.state = c.stream.state ∨ r.1.stream.state = .closed := by
  unfold handleRto
  refine Outcome.ite (fun _ => ?_) fun _ => Outcome.ite (fun _ => .inr rfl) fun _ => ?_
  · unfold rtoRetry
    extract_lets c₁ c₂ c₃ c₄
    have hmod : ∀ (c : Conn ρ) (f : SndVar → SndVar), (c.modSnd f).stream.state = c.stream.state :=
      fun _ _ => rfl
    have hst₂ : c₂.stream.state = c.stream.state := (hmod _ _).trans (hmod _ _)
    have hst₃ : c₃.stream.state = c.stream.state := hst₂
    have hst : c₄.stream.state = c.stream.state := (hmod _ _).trans hst₃
    clear_value c₄
    have hagain : Outcome (rtoResend c₄) (fun _ => True) fun r =>
        r.1.stream.state = c.stream.state ∨ r.1.stream.state = .closed :=
      (rtoResend_state c₄).mono (fun _ h => h) fun _ h => .inl (h.trans hst)
    refine Outcome.ite (fun _ => Outcome.ite (fun _ => ?_) fun _ => hagain) fun _ =>
      Outcome.ite (fun _ => hagain) fun _ => trivial
    rw [Outcome.ok_iff]
    dsimp only
    split
    · exact .inr rfl
    · exact .inr rfl
  · rw [Outcome.ok_iff]
    dsimp only
    split
    · exact .inr rfl
    · exact .inr rfl

/-- The scan of `TIME_WAIT` only ever puts closed streams into the stack. -/
theorem timewaitLoop_closes {Q : Stack ρ → Prop}
    (hput : ∀ S c, Q S → c.stream.state = .closed → Q (S.put c)) (curTs : U32) (thresh : ℤ)
    (l : List Addr) (cnt : ℤ) (S : Stack ρ) (h : Q S) :
    Outcome (timewaitLoop curTs thresh l cnt S) (fun _ => True) fun r => Q r.1 := by
  induction l generalizing cnt S with
  | nil => exact h
  | cons walk next ih =>
    unfold timewaitLoop
    refine Outcome.ite (fun _ => h) fun _ => ?_
    refine Outcome.bind (Stack.deref_any S walk) fun s _ => ?_
    refine Outcome.ite (fun _ => Outcome.ite (fun _ => ?_) fun _ => h) fun _ => ih _ S h
    exact Outcome.ite (fun _ => ih _ _ (hput _ _ h rfl)) fun _ => ih _ S h

/-- So does the scan for idle connections. -/
theorem timeoutLoop_closes {Q : Stack ρ → Prop}
    (hput : ∀ S c, Q S → c.stream.state = .closed → Q (S.put c)) (curTs : U32) (thresh : ℤ)
    (l : List Addr) (cnt : ℤ) (S : Stack ρ) (h : Q S) :
    Outcome (timeoutLoop tcpTimeout curTs thresh l cnt S) (fun _ => True) fun r => Q r.1 := by
  induction l generalizing cnt S with
  | nil => exact h
  | cons walk next ih =>
    unfold timeoutLoop
    refine Outcome.ite (fun _ => h) fun _ => ?_
    refine Outcome.bind (Stack.deref_any S walk) fun s _ => Outcome.ite (fun _ => ?_) fun _ => h
    refine ih _ _ (hput _ _ h ?_)
    unfold closeIdle
    dsimp only
    split
    · exact rfl
    · exact rfl

/-- What is put into the stack closed is past everything. -/
theorem Stack.Past.put (h : S.Past x st) (hc : c.stream.state = .closed) : (S.put c).Past x st := by
  obtain ⟨s, hs, hreach⟩ := h
  by_cases hx : x = c.stream.addr
  · subst hx
    refine ⟨c.stream, Function.update_self _ _ _, ?_⟩
    rw [hc]
    exact (TcpState.Edge.ended _).reaches
  · exact ⟨s, (Stack.put_stream_of_ne hx).trans hs, hreach⟩

theorem Stack.past_store (hw : w.stream = some s) (h : st.Reaches s.state) : (S.store x w).Past x st := by
  refine ⟨s, ?_, h⟩
  unfold Stack.store
  rw [hw]
  exact Function.update_self _ _ _

/-- What is stored at one address leaves the others. -/
theorem Stack.store_stream_of_ne {y : Addr} (hne : x ≠ y) : (S.store y w).stream x = S.stream x := by
  unfold Stack.store
  cases w.stream with
  | none => rfl
  | some t => exact Function.update_of_ne hne _ _

theorem Stack.Past.store_of_ne {y : Addr} (h : S.Past x st) (hne : x ≠ y) : (S.store y w).Past x st := by
  obtain ⟨s, hs, hreach⟩ := h
  exact ⟨s, (Stack.store_stream_of_ne hne).trans hs, hreach⟩

/-- **One step** of the stack takes every stream along the diagram. -/
theorem ClosedStep.past (hP : P.CloseWaitSteady)
    (hstep : Guarded NothingReopens (ClosedStep P tcpTimeout) S l S') (h : S.Past x st) : S'.Past x st := by
  obtain ⟨hguard, hstep⟩ := hstep
  cases hstep with
  | @segment y s a w ret hs hcall =>
    by_cases hx : x = y
    · subst hx
      obtain ⟨t, ht, hreach⟩ := h
      obtain rfl := Option.some.inj (hs.symm.trans ht)
      rcases process_found hcall with rfl | ⟨hihl, hcheck, c', hproc, rfl⟩
      · exact Stack.past_store rfl hreach
      · have hsealed := (processStream_sealed hP (.of_no_log rfl) (hguard hihl hcheck s hs)).of_ok hproc
        exact Stack.past_store rfl (hreach.trans ((processStream_advances hP _ a).of_ok hproc hsealed))
    · exact h.store_of_ne hx
  | @created y a w ret hfree hcall =>
    refine h.store_of_ne ?_
    rintro rfl
    obtain ⟨t, ht, -⟩ := h
    rw [hfree] at ht
    cases ht
  | @rto y s c ret hs hcall =>
    by_cases hx : x = y
    · subst hx
      obtain ⟨t, ht, hreach⟩ := h
      obtain rfl := Option.some.inj (hs.symm.trans ht)
      rcases (handleRto_state _ _).of_ok hcall with hkeep | hclosed
      · refine Stack.past_store rfl (hreach.trans (.of_eq hkeep))
      · refine Stack.past_store rfl (hreach.trans ?_)
        rw [hclosed]
        exact (TcpState.Edge.ended _).reaches
    · exact h.store_of_ne hx
  | timewait hcall =>
    exact (timewaitLoop_closes (Q := (·.Past x st)) (fun _ _ h => h.put) _ _ _ 0 S h).of_ok hcall
  | timeout hcall =>
    exact (timeoutLoop_closes (Q := (·.Past x st)) (fun _ _ h => h.put) _ _ _ 0 S h).of_ok hcall

/-- **The phases of a connection.** Where no segment reopens its stream, every run of segments and timers
takes every stream along the state diagram, from the state it is in: it stays there, or gets to a later
phase, and never back. -/
theorem phases_advance (hP : P.CloseWaitSteady) {ls : List (ClosedLabel ρ)}
    (hrun : Run (Guarded NothingReopens (ClosedStep P tcpTimeout)) S ls S') (hs : S.stream x = some s) :
    ∃ s', S'.stream x = some s' ∧ s.state.Reaches s'.state ∧
      (s'.state = s.state ∨ s.state.phase < s'.state.phase) := by
  have hpast : S'.Past x s.state := by
    refine hrun.invariant (·.Past x s.state) ⟨s, hs, .refl _⟩ fun _ l _ h hstep => ?_
    exact ClosedStep.past hP hstep h
  obtain ⟨s', hs', hreach⟩ := hpast
  exact ⟨s', hs', hreach, hreach.phase.imp Eq.symm id⟩

end Runs

/-- A reset of the peer. -/
def openReset : Arrival (U32 × U32) :=
  { openSegment false false 8 0 with seg := { (openSegment false false 8 0).seg with rst := true } }

/-- A segment with a reset reopens nothing. -/
theorem not_reopens_of_rst {c : Conn ρ} {a : Arrival ρ} (hrst : a.seg.rst) : ¬Reopens c a := by
  intro h
  cases h with
  | synRcvd _ h _ _ _ _ _ _ _ => exact h hrst
  | established _ h _ _ _ _ _ => exact h hrst
  | finWait2 _ h _ _ _ _ _ => exact h hrst

/-- An active open is answered, and reset. -/
theorem phases_advance_reset :
    ∃ S s', Run (Guarded NothingReopens (ClosedStep inOrderParts 30)) (stackOf activeStream)
        [.segment 0 (openSegment true true 7 101), .segment 0 openReset] S ∧ S.stream 0 = some s' ∧
      TcpState.synSent.Reaches s'.state ∧
      (s'.state = .synSent ∨ TcpState.synSent.phase < s'.state.phase) := by
  have hfresh : NothingReopens (stackOf activeStream) (.segment 0 (openSegment true true 7 101)) := by
    intro _ _ s hs h
    obtain rfl := Option.some.inj hs
    cases h with
    | synRcvd hst _ _ _ _ _ _ _ _ => cases hst
    | established hst _ _ _ _ _ _ => cases hst
    | finWait2 hst _ _ _ _ _ _ => cases hst
  have hopen : Run (Guarded NothingReopens (ClosedStep inOrderParts 30)) (stackOf activeStream)
      [.segment 0 (openSegment true true 7 101)] _ := Run.single ⟨hfresh, .segment rfl rfl⟩
  have hrun : Run (Guarded NothingReopens (ClosedStep inOrderParts 30)) (stackOf activeStream)
      [.segment 0 (openSegment true true 7 101), .segment 0 openReset] _ :=
    hopen.snoc ⟨fun _ _ _ _ => not_reopens_of_rst rfl, .segment rfl rfl⟩
  obtain ⟨s', hs', hreach, hphase⟩ := phases_advance inOrderParts_steady hrun
    (s := activeStream) (x := 0) rfl
  exact ⟨_, s', hrun, hs', hreach, hphase⟩

end CmtTcp
