import CmtTcp.Tcp.TimerScans
import CmtTcp.Tcp.Handshake
import CmtTcp.Tcp.WindowGrowth

/-!
# Segment sizes

`cmt_tcp_process_ack` divides by `eff_mss`, which should be positive and not above `mss`. The two are set where
the options of the peer are parsed: `cmt_tcp_parse_options` stores the value of an MSS option as `mss`, and
twelve bytes less as `eff_mss`, whatever the value is; `create_tcp_stream` sets `mss` only, so that without an MSS
option `eff_mss` is what the object from the pool had. Nothing else changes them.

* `parseOptions_sizes`: what parsing leaves, for every string of options;
* `processAck_sizes`: an acknowledgement divides by `eff_mss` and keeps the sizes;
* `segment_size_safe`: in a run whose handshakes all are `SafeOpening`, the sizes of a stream that is past its
  handshake are `SafeSizes`.
-/

namespace CmtTcp

open Lib (Outcome Run Guarded)

variable {ρ : Type}

/-! ### Sizes -/

/-- `mss` and `eff_mss` -/
def Stream.sizes (s : Stream ρ) : U16 × U16 := (s.snd.mss, s.snd.effMss)

/-- `eff_mss` can be divided by, and is not above `mss`. -/
def SafeSizes (n : U16 × U16) : Prop := 0 < n.2.toNat ∧ n.2.toNat ≤ n.1.toNat

instance SafeSizes.decidable (n : U16 × U16) : Decidable (SafeSizes n) :=
  inferInstanceAs (Decidable (_ ∧ _))

instance OptionsStop.decidable (opt : ℕ → U8) (len i : ℕ) : Decidable (OptionsStop opt len i) :=
  inferInstanceAs (Decidable (_ ∨ _ ∨ _ ∧ _))

/-- The value of the last MSS option that the loop of `cmt_tcp_parse_options` comes to from offset `i` on. -/
def lastMssLoop (opt : ℕ → U8) (len : ℕ) : ℕ → ℕ → Option U16 → Option U16
  | 0, _, mss => mss
  | fuel + 1, i, mss =>
    if OptionsStop opt len i then mss
    else lastMssLoop opt len fuel (optionNext opt i)
      (if opt i = tcpOptMss then some (opt (i + 2) ++ opt (i + 3)) else mss)

/-- The MSS that a segment announces. -/
def lastMss (seg : Segment) : Option U16 := lastMssLoop seg.opt seg.optlen (seg.optlen + 1) 0 none

/-- The sizes of a stream after an MSS option, or without one. -/
def sizesAfter (n : U16 × U16) : Option U16 → U16 × U16
  | some mss => (mss, mss - (tcpoptTimestampsLen + 2))
  | none => n

/-- The options of the segment leave safe sizes, on a stream that had the sizes `n`: the MSS they announce is
above 12, or there is none and the stream had safe sizes before. -/
def SafeOptions (n : U16 × U16) (seg : Segment) : Prop :=
  match lastMss seg with
  | some mss => 12 < mss.toNat
  | none => SafeSizes n

section Options

variable {opt : ℕ → U8} {len fuel i : ℕ} {curTs : U32} {s t : Stream ρ} {n : U16 × U16}
  {mss : Option U16}

theorem parseOptionsLoop_sizes (hs : s.sizes = sizesAfter n mss)
    (h : parseOptionsLoop opt len curTs fuel i s = some t) :
    t.sizes = sizesAfter n (lastMssLoop opt len fuel i mss) := by
  induction fuel generalizing i s mss with
  | zero => cases h
  | succ fuel ih =>
    unfold lastMssLoop
    by_cases hstop : OptionsStop opt len i
    · rw [parseOptionsLoop_stop hstop] at h
      cases h
      rwa [if_pos hstop]
    · rw [parseOptionsLoop_next hstop] at h
      rw [if_neg hstop]
      refine ih ?_ h
      -- only an MSS option stores a size
      unfold optionEffect
      split
      · rfl
      · repeat' split
        all_goals exact hs

theorem safeSizes_iff (n : U16 × U16) (seg : Segment) :
    SafeSizes (sizesAfter n (lastMss seg)) ↔ SafeOptions n seg := by
  unfold SafeOptions
  cases lastMss seg with
  | none => exact Iff.rfl
  | some mss =>
    have hsub : (mss - 12).toNat = if mss.toNat < 12 then mss.toNat + 65524 else mss.toNat - 12 := by
      have := mss.isLt
      split
      · bv_omega
      · bv_omega
    change 0 < (mss - 12).toNat ∧ (mss - 12).toNat ≤ mss.toNat ↔ 12 < mss.toNat
    rw [hsub]
    split
    · omega
    · omega

instance SafeOptions.decidable (n : U16 × U16) (seg : Segment) : Decidable (SafeOptions n seg) :=
  decidable_of_iff _ (safeSizes_iff n seg)

/-- The sizes are safe after parsing exactly when the options are. -/
theorem parseOptions_sizes (c : Conn ρ) (curTs : U32) (seg : Segment) :
    Outcome (parseOptions c curTs seg) (· = .endless) fun c' =>
      SafeSizes c'.stream.sizes ↔ SafeOptions c.stream.sizes seg := by
  unfold parseOptions
  split
  · rfl
  · next s hs =>
    have hsizes : s.sizes = sizesAfter c.stream.sizes (lastMss seg) := parseOptionsLoop_sizes rfl hs
    change SafeSizes s.sizes ↔ _
    rw [hsizes]
    exact safeSizes_iff _ seg

end Options

/-! ### Acknowledgements -/

theorem Conn.Scheduled.sizes {c c' : Conn ρ} (h : c.Scheduled c') : c'.stream.sizes = c.stream.sizes := by
  change c'.stream.work.sizes = c.stream.work.sizes
  rw [h.work]

section Acks

variable {c c' : Conn ρ}

/-- A failure that is no division by `eff_mss`: in `ESTABLISHED` and later states, with safe sizes, no division
by zero at all. -/
def DividesSafely (s : Stream ρ) (e : Abort) : Prop :=
  SafeSizes s.sizes → TcpState.established.code ≤ s.state.code → e ≠ .divZero

theorem DividesSafely.assertRto {s : Stream ρ} {e : Abort} (he : e = .assertRto) : DividesSafely s e := by
  intro _ _
  rw [he]
  decide

theorem windowUpdate_sizes (seg : Segment) (ack : U32) (s : Stream ρ) :
    (windowUpdate seg ack s).sizes = s.sizes := by
  unfold windowUpdate
  split <;> rfl

theorem countDup_sizes (dup : Bool) (ack : U32) (s : Stream ρ) :
    (countDup dup ack s).sizes = s.sizes := by
  unfold countDup
  split <;> rfl

/-- Up to `SYN_RCVD`, the growth of the window divides by `cwnd`. -/
theorem growCwnd_sizes (c : Conn ρ) (packets : U16) :
    Outcome (growCwnd c packets) (fun _ => ¬TcpState.established.code ≤ c.stream.state.code) fun c' =>
      c'.stream.sizes = c.stream.sizes := by
  unfold growCwnd
  refine Outcome.ite (fun _ => Outcome.ite (fun _ => rfl) fun _ => rfl) fun hstate =>
    Outcome.ite (fun _ => hstate) fun _ => ?_
  rw [Outcome.ok_iff]
  unfold Conn.modSnd Conn.mod
  dsimp only
  split <;> rfl

theorem ackRemoved_sizes (c : Conn ρ) (buf : SendBuffer) (ret : U64) (ack curTs : U32) :
    Outcome (ackRemoved c buf ret ack curTs) (· = .assertRto) fun c' =>
      c'.stream.sizes = c.stream.sizes := by
  unfold ackRemoved
  refine Outcome.ite (fun _ => rfl) fun _ => ?_
  exact (updateRetransmissionTimer_outcome _ curTs).mono (fun _ h => h) fun c' h => h.sizes

theorem ackRemove_sizes (c : Conn ρ) (buf : SendBuffer) (ack curTs : U32) :
    Outcome (ackRemove c buf ack curTs) (DividesSafely c.stream) fun c' =>
      c'.stream.sizes = c.stream.sizes := by
  unfold ackRemove
  refine Outcome.ite (fun _ => Outcome.ite (fun hzero => ?_) fun _ => ?_) fun _ => rfl
  · -- the division by `eff_mss`
    intro hsafe _
    have hpos := hsafe.1
    rw [show c.stream.sizes.2 = 0 from hzero] at hpos
    exact absurd hpos (by decide)
  refine Outcome.bind ((updateRto_growth c curTs).mono (fun _ => DividesSafely.assertRto) fun _ h => h)
    fun c₁ h₁ => ?_
  simp only [Stream.growth, Prod.mk.injEq] at h₁
  obtain ⟨hstate, -, -, hmss, heff⟩ := h₁
  refine Outcome.bind ((growCwnd_sizes c₁ _).mono (fun _ he _ hest => ?_) fun _ h => h) fun c₂ h₂ => ?_
  · rw [hstate] at he
    exact absurd hest he
  · refine (ackRemoved_sizes c₂ _ _ ack curTs).mono (fun _ => DividesSafely.assertRto) fun c' h => ?_
    rw [h, h₂]
    exact Prod.ext hmss heff

/-- An acknowledgement keeps the sizes, and safe sizes keep it from dividing by zero. -/
theorem processAck_sizes (c : Conn ρ) (seg : Segment) (curTs : U32) :
    Outcome (processAck c seg curTs) (DividesSafely c.stream) fun c' =>
      c'.stream.sizes = c.stream.sizes := by
  unfold processAck
  split
  · intro _ _
    decide
  · next buf hbuf =>
    dsimp only
    generalize ackSeqOf c.stream seg.ackSeq = ack
    refine Outcome.ite (fun _ => rfl) fun _ => ?_
    refine Outcome.bind ((answerDup_uncongested _ _ ack).mono (fun e he _ _ => ?_) fun _ h => h) ?_
    · rw [he]
      decide
    intro c₁ h₁
    have h₂ := (raiseSndNxt_uncongested c₁ buf ack).trans h₁
    have hsizes : (raiseSndNxt c₁ buf ack).stream.sizes = c.stream.sizes :=
      (Stream.view_of_uncongested Stream.sizes (fun _ => rfl) h₂).trans
        ((countDup_sizes _ ack _).trans (windowUpdate_sizes seg ack c.stream))
    have hstate : (raiseSndNxt c₁ buf ack).stream.state = c.stream.state :=
      (Stream.view_of_uncongested Stream.state (fun _ => rfl) h₂).trans
        (((countDup_steady _ _ ack).1.state).trans ((windowUpdate_steady c seg ack).1.state))
    refine Outcome.ite (fun _ => hsizes) fun _ => ?_
    refine (ackRemove_sizes _ buf ack curTs).mono (fun e he => ?_) fun c' h => h.trans hsizes
    unfold DividesSafely at he ⊢
    rwa [hsizes, hstate] at he

/-- `c'` has the sizes of `c`. -/
def Conn.SameSizes (c c' : Conn ρ) : Prop := c'.stream.sizes = c.stream.sizes

theorem receiveAck_sizes (c : Conn ρ) (a : Arrival ρ) :
    Outcome (receiveAck c a) (fun _ => True) c.SameSizes := by
  unfold receiveAck
  refine Outcome.ite (fun _ => ?_) fun _ => rfl
  exact (processAck_sizes c a.seg a.ts).mono (fun _ _ => trivial) fun _ h => h

theorem AckControl.sizes (h : AckControl c c') : c.SameSizes c' := by
  induction h with
  | refl => rfl
  | ack _ hack ih => exact ((processAck_sizes _ _ _).of_ok hack).trans ih
  | control _ ih => exact (addtoControllist_scheduled _).sizes.trans ih

end Acks

/-! ### The handlers -/

section Handlers

variable {P : Parts ρ} {c c' c'' : Conn ρ} {a : Arrival ρ}

theorem Conn.SameSizes.trans (h : c.SameSizes c') (h' : c'.SameSizes c'') : c.SameSizes c'' :=
  Eq.trans h' h

/-- What a fallible step does to the sizes, after others that keep them. -/
theorem Conn.SameSizes.after {r : Except Abort (Conn ρ)} (h : c.SameSizes c')
    (hr : Outcome r (fun _ => True) c'.SameSizes) : Outcome r (fun _ => True) c.SameSizes :=
  hr.mono (fun _ h => h) fun _ hc => h.trans hc

theorem Conn.SameSizes.controllist (h : c.SameSizes c') : c.SameSizes (addtoControllist c') :=
  h.trans (addtoControllist_scheduled c').sizes

theorem updateRetransmissionTimer_sizes (c : Conn ρ) (curTs : U32) :
    Outcome (updateRetransmissionTimer c curTs) (fun _ => True) c.SameSizes :=
  (updateRetransmissionTimer_outcome c curTs).mono (fun _ _ => trivial) fun _ h => h.sizes

theorem addToTimeoutList_sizes (c : Conn ρ) :
    Outcome (addToTimeoutList c) (fun _ => True) c.SameSizes := by
  unfold addToTimeoutList
  exact Outcome.ite (fun _ => trivial) fun _ => rfl

theorem receivePayload_sizes (P : Parts ρ) (c : Conn ρ) (a : Arrival ρ) :
    Outcome (receivePayload P c a) (fun _ => True) c.SameSizes := by
  unfold receivePayload
  refine Outcome.ite (fun _ => ?_) fun _ => rfl
  refine Outcome.bind ((processPayload_cases P c a).mono (fun _ _ => trivial) fun _ h => h) fun r hr => ?_
  refine Conn.SameSizes.trans ?_ (enqueueAcklist_scheduled _ _).sizes
  rcases hr with h | h | ⟨nxt, rcv, -, h⟩
  · rw [h]
    rfl
  · rw [h]
    rfl
  · rw [h]
    rfl

theorem handleListen_sizes (c : Conn ρ) (a : Arrival ρ) :
    Outcome (handleListen c a) (fun _ => True) c.SameSizes := by
  unfold handleListen
  refine Outcome.ite (fun _ => ?_) fun _ => trivial
  refine Conn.SameSizes.controllist ?_
  split <;> rfl

theorem handleEstablished_sizes (P : Parts ρ) (c : Conn ρ) (a : Arrival ρ) :
    Outcome (handleEstablished P c a) (fun _ => True) c.SameSizes := by
  unfold handleEstablished
  refine Outcome.ite (fun _ => Conn.SameSizes.controllist rfl) fun _ => ?_
  refine Outcome.bind (receivePayload_sizes P c a) fun c₀ hpay => ?_
  have hack : Outcome (establishedAck c₀ a) (fun _ => True) c.SameSizes := by
    unfold establishedAck
    exact Outcome.ite (fun _ => hpay.after (receiveAck_sizes _ a)) fun _ => hpay
  refine Outcome.bind hack fun c₁ h₁ => h₁.trans ?_
  unfold establishedFin
  split
  · split
    · exact Conn.SameSizes.controllist rfl
    · exact (enqueueAcklist_scheduled _ _).sizes
  · rfl

theorem synRcvdOpen_sizes (c : Conn ρ) (a : Arrival ρ) :
    Outcome (synRcvdOpen c a) (fun _ => True) c.SameSizes := by
  have hout : c.SameSizes (removeFromRtoList (c.synRcvdAcked a)) :=
    (removeFromRtoList_scheduled _).sizes
  rw [synRcvdOpen_eq]
  generalize removeFromRtoList (c.synRcvdAcked a) = c₁ at hout
  split
  · exact trivial
  · refine hout.after (Outcome.ite (fun _ => ?_) fun _ => ?_)
    · refine Conn.SameSizes.after ?_ (addToTimeoutList_sizes _)
      exact Conn.SameSizes.controllist rfl
    · exact Conn.SameSizes.after rfl (addToTimeoutList_sizes _)

theorem handleSynRcvdData_sizes (P : Parts ρ) (c : Conn ρ) (a : Arrival ρ) :
    Outcome (handleSynRcvdData P c a) (fun _ => True) c.SameSizes := by
  have hrcvd : Outcome (handleSynRcvd c a) (fun _ => True) c.SameSizes := by
    unfold handleSynRcvd
    refine Outcome.ite (fun _ => Outcome.ite (fun _ => trivial) fun _ => synRcvdOpen_sizes c a)
      fun _ => ?_
    exact Conn.SameSizes.controllist rfl
  unfold handleSynRcvdData
  refine Outcome.ite (fun _ => handleListen_sizes c a) fun _ => Outcome.bind hrcvd fun c₁ h₁ => ?_
  exact Outcome.ite (fun _ => h₁.after (handleEstablished_sizes P c₁ a)) fun _ => h₁

theorem handleLastAck_sizes (c : Conn ρ) (a : Arrival ρ) :
    Outcome (handleLastAck c a) (fun _ => True) c.SameSizes := by
  unfold handleLastAck
  refine Outcome.ite (fun _ => rfl) fun _ => Outcome.ite (fun _ => ?_) fun _ =>
    Conn.SameSizes.controllist rfl
  refine Outcome.bind (receiveAck_sizes c a) fun c₁ h₁ => ?_
  refine Outcome.ite (fun _ => h₁) fun _ => Outcome.ite (fun _ => ?_) fun _ => h₁.controllist
  refine Outcome.bind (h₁.after ?_) fun c₂ h₂ => ?_
  · exact updateRetransmissionTimer_sizes _ a.ts
  · exact h₂

theorem handleFinWait1_sizes (P : Parts ρ) (c : Conn ρ) (a : Arrival ρ) :
    Outcome (handleFinWait1 P c a) (fun _ => True) c.SameSizes := by
  unfold handleFinWait1
  refine Outcome.ite (fun _ => Conn.SameSizes.controllist rfl) fun _ =>
    Outcome.ite (fun _ => ?_) fun _ => rfl
  refine Outcome.bind (receiveAck_sizes c a) fun c₁ h₁ => ?_
  have hfin : c₁.SameSizes (finAcked c₁ a.seg) := by
    unfold finAcked
    split
    · exact (removeFromRtoList_scheduled _).sizes
    · rfl
  refine Outcome.bind ((h₁.trans hfin).after (receivePayload_sizes P _ a)) fun c₂ hpay => ?_
  refine Outcome.ite (fun _ => ?_) fun _ => hpay
  unfold finWait1Fin
  refine hpay.after (Outcome.ite (fun _ => ?_) fun _ => Outcome.ite (fun _ => ?_) fun _ => trivial)
  · exact Conn.SameSizes.controllist rfl
  · exact Conn.SameSizes.controllist (addToTimewaitList_scheduled _ a.ts).sizes

theorem handleFinWait2_sizes (P : Parts ρ) (c : Conn ρ) (a : Arrival ρ) :
    Outcome (handleFinWait2 P c a) (fun _ => True) c.SameSizes := by
  unfold handleFinWait2
  refine Outcome.ite (fun _ => ?_) fun _ => rfl
  refine Outcome.bind (receiveAck_sizes c a) fun c₁ h₁ => ?_
  refine Outcome.bind (h₁.after (receivePayload_sizes P c₁ a)) fun c₂ hpay => ?_
  refine Outcome.ite (fun _ => hpay.trans ?_) fun _ => hpay
  exact Conn.SameSizes.controllist (addToTimewaitList_scheduled _ a.ts).sizes

theorem handleClosing_sizes (c : Conn ρ) (a : Arrival ρ) :
    Outcome (handleClosing c a) (fun _ => True) c.SameSizes := by
  unfold handleClosing
  refine Outcome.ite (fun _ => ?_) fun _ => rfl
  refine Outcome.bind (receiveAck_sizes c a) fun c₁ h₁ => ?_
  refine Outcome.ite (fun _ => h₁) fun _ => Outcome.ite (fun _ => h₁) fun _ => ?_
  refine Outcome.bind (h₁.after ?_) fun c₂ h₂ => h₂.trans ?_
  · exact updateRetransmissionTimer_sizes _ a.ts
  · exact (addToTimewaitList_scheduled _ a.ts).sizes

theorem handleTimeWait_sizes (c : Conn ρ) (a : Arrival ρ) :
    Outcome (handleTimeWait c a) (fun _ => True) c.SameSizes := by
  unfold handleTimeWait
  refine Outcome.ite (fun _ => ?_) fun _ => Conn.SameSizes.controllist rfl
  refine Outcome.bind ((removeFromTimewaitList_outcome c).mono (fun _ _ => trivial) fun _ h => h)
    fun c₁ h₁ => ?_
  exact Conn.SameSizes.controllist (h₁.trans (addToTimewaitList_scheduled _ a.ts)).sizes

/-- Past `SYN_SENT`, a segment keeps the sizes. -/
theorem dispatch_sizes (hP : P.CloseWaitAcks) (hstate : c.stream.state ≠ .synSent) :
    Outcome (dispatch P c a) (fun _ => True) c.SameSizes := by
  unfold dispatch
  split
  · exact handleListen_sizes c a
  · next hst => exact absurd hst hstate
  · exact handleSynRcvdData_sizes P c a
  · exact handleEstablished_sizes P c a
  · cases hr : P.handleCloseWait c a with
    | error e => exact trivial
    | ok c' => exact (hP c a c' hr).sizes
  · exact handleLastAck_sizes c a
  · exact handleFinWait1_sizes P c a
  · exact handleFinWait2_sizes P c a
  · exact handleClosing_sizes c a
  · exact handleTimeWait_sizes c a
  · exact rfl

end Handlers

/-! ### The handshake -/

/-- In `SYN_SENT`, a segment that is not refused takes the stream on with safe sizes: a SYN+ACK by its
options, and any other segment when the stream has safe sizes already. -/
def SafeSynSent (s : Stream ρ) (seg : Segment) : Prop :=
  ¬synSentRefuses s seg →
    if seg.syn ∧ seg.ack ∧ ¬seg.rst then SafeOptions s.sizes seg else SafeSizes s.sizes

/-- A segment that opens a connection leaves safe sizes. -/
def SafeOpening (w : World ρ) : Label ρ → Prop
  | .segment a => a.seg.check = 0 →
    match w.stream with
    | some s => s.state = .synSent → SafeSynSent s a.seg
    | none => a.seg.syn → ¬a.seg.ack → filterSynpkt a.listener a.seg.daddr a.seg.dest →
      ∀ snd, a.sndObj = some snd → SafeOptions (tcpDefaultMss, snd.effMss) a.seg
  | .endpoint _ _ => True

section Opening

variable {P : Parts ρ} {c c' : Conn ρ} {a : Arrival ρ}

theorem activeOpen_sizes (c : Conn ρ) (a : Arrival ρ) :
    Outcome (activeOpen c a) (fun _ => True) fun c' =>
      SafeSizes c'.stream.sizes ↔ SafeOptions c.stream.sizes a.seg := by
  unfold activeOpen
  refine Outcome.bind ((parseOptions_sizes _ a.ts a.seg).mono (fun _ _ => trivial) fun _ h => h)
    fun c₁ h₁ => ?_
  refine (updateRetransmissionTimer_sizes _ a.ts).mono (fun _ h => h) fun c' h => ?_
  rw [h]
  exact h₁

theorem synSentOpen_sizes (c : Conn ρ) (a : Arrival ρ) :
    Outcome (synSentOpen c a) (fun _ => True) fun c' =>
      SafeSizes c'.stream.sizes ↔ SafeOptions c.stream.sizes a.seg := by
  unfold synSentOpen
  refine Outcome.bind (activeOpen_sizes c a) fun c₁ h₁ => ?_
  have hout : c₁.SameSizes (removeFromRtoList ((c₁.modSnd fun snd => { snd with nrtx := 0 }).mod
      fun s => { s with rcvNxt := s.rcv.irs + 1 })) := (removeFromRtoList_scheduled _).sizes
  dsimp only
  refine (addToTimeoutList_sizes _).mono (fun _ h => h) fun c' h => ?_
  have hkept : c₁.SameSizes c' := by
    refine hout.trans (Conn.SameSizes.trans (Conn.SameSizes.controllist ?_) h)
    split <;> rfl
  rw [hkept]
  exact h₁

/-- A segment in `SYN_SENT` is refused, or takes the stream on. -/
theorem handleSynSent_sizes (h : SafeSynSent c.stream a.seg) :
    Outcome (handleSynSent c a) (fun _ => True) fun c' => c' = c ∨ SafeSizes c'.stream.sizes := by
  unfold handleSynSent
  dsimp only
  refine Outcome.ite (fun _ => .inl rfl) fun href => ?_
  have hsafe := h href
  generalize hc₁ : (if a.seg.ack then c.modSnd fun snd => { snd with sndUna := snd.sndUna + 1 }
    else c) = c₁
  have hsizes : c₁.stream.sizes = c.stream.sizes := by
    rw [← hc₁]
    split <;> rfl
  rw [← hsizes] at hsafe
  refine Outcome.ite (fun hrst => ?_) fun hnrst => Outcome.ite (fun hsa => ?_) fun hnsa => ?_
  · rw [if_neg fun hopen => hopen.2.2 hrst.1] at hsafe
    refine .inr ?_
    split <;> exact hsafe
  · rw [if_pos ⟨hsa.1, hsa.2, fun hrst => hnrst ⟨hrst, hsa.2⟩⟩] at hsafe
    exact (synSentOpen_sizes c₁ a).mono (fun _ h => h) fun c' h => .inr (h.mpr hsafe)
  · rw [if_neg fun hopen => hnsa ⟨hopen.1, hopen.2.1⟩] at hsafe
    refine .inr ?_
    have hctl := addtoControllist_scheduled
      ((c₁.setState .synRcvd).mod fun s => { s with sndNxt := s.snd.iss })
    rw [hctl.sizes]
    exact hsafe

/-- A new stream. -/
theorem createStream_sizes (tcp : TcpManager) (log : List (Event ρ)) (a : Arrival ρ) :
    Outcome (createStream tcp log a) (fun _ => True) fun r => ∀ c, r = some c →
      a.seg.syn ∧ ¬a.seg.ack ∧ filterSynpkt a.listener a.seg.daddr a.seg.dest ∧
        ∃ snd, a.sndObj = some snd ∧
          (SafeSizes c.stream.sizes ↔ SafeOptions (tcpDefaultMss, snd.effMss) a.seg) := by
  unfold createStream
  refine Outcome.ite (fun hsyn => Outcome.ite (fun hfilter => ?_) fun _ c h => by cases h)
    fun _ c h => by cases h
  unfold passiveOpen
  cases hs : createTcpStream a a.seg.daddr a.seg.dest a.seg.saddr a.seg.source with
  | none => exact fun c h => by cases h
  | some s =>
    obtain ⟨snd, hsnd, hsizes⟩ : ∃ snd, a.sndObj = some snd ∧ s.sizes = (tcpDefaultMss, snd.effMss) := by
      unfold createTcpStream at hs
      split at hs
      · next hobj _ =>
        cases hs
        exact ⟨_, hobj, rfl⟩
      · cases hs
    dsimp only
    generalize hc₁ : (if (a.recvGet ((passiveInit s a.seg).rcv.irs + 1)).isNone then _ else _) = c₁
    have hsizes₁ : c₁.stream.sizes = (tcpDefaultMss, snd.effMss) := by
      rw [← hsizes, ← hc₁]
      split <;> rfl
    refine Outcome.bind ((parseOptions_sizes c₁ a.ts a.seg).mono (fun _ _ => trivial) fun _ h => h)
      fun c₂ h₂ c h => ?_
    cases h
    rw [hsizes₁] at h₂
    exact ⟨hsyn.1, hsyn.2, hfilter, snd, hsnd, h₂⟩

end Opening

/-! ### A call of `cmt_tcp_process` -/

section Calls

variable {P : Parts ρ} {c : Conn ρ} {a : Arrival ρ}

theorem noteArrival_sizes (c : Conn ρ) (a : Arrival ρ) : c.SameSizes (noteArrival c a) := by
  unfold Conn.SameSizes
  rw [noteArrival_stream]
  rfl

theorem processRst_sizes (c : Conn ρ) (ackSeq : U32) : c.SameSizes (processRst c ackSeq).1 := by
  unfold processRst
  dsimp only
  repeat' split
  all_goals rfl

theorem validseq_sizes (c : Conn ρ) (a : Arrival ρ) : c.SameSizes (validseq c a).1 := by
  rcases validseq_scheduled c a with heq | ⟨c₁, hts, hsched⟩
  · rw [heq]
    rfl
  · refine Conn.SameSizes.trans ?_ hsched.sizes
    unfold validTimestamp at hts
    repeat' split at hts
    all_goals cases hts
    · exact (enqueueAcklist_scheduled c .now).sizes
    · rfl
    · rfl
    · rfl

theorem processAccepted_sizes (hP : P.CloseWaitAcks) (hstate : c.stream.state ≠ .synSent) :
    Outcome (processAccepted P c a) (fun _ => True) c.SameSizes := by
  have hnote := noteArrival_sizes c a
  rw [← (noteArrival_same c a).steady.state] at hstate
  unfold processAccepted
  refine hnote.after (Outcome.ite (fun _ => Outcome.ite (fun _ => ?_) fun _ => ?_) fun _ => ?_)
  · exact processRst_sizes _ _
  · exact dispatch_sizes (c := (noteArrival c a).mod _) hP hstate
  · exact dispatch_sizes hP hstate

/-- Past `SYN_SENT`, a segment keeps the sizes. -/
theorem processStream_sizes (hP : P.CloseWaitAcks) (hstate : c.stream.state ≠ .synSent) :
    Outcome (processStream P c a) (fun _ => True) c.SameSizes := by
  unfold processStream
  refine Outcome.ite (fun _ => ?_) fun _ => processAccepted_sizes hP hstate
  have hvalid := validseq_sizes c a
  refine Outcome.ite (fun _ => hvalid.after (processAccepted_sizes hP ?_)) fun _ => hvalid
  rwa [(validseq_same c a).steady.state]

/-- A segment in `SYN_SENT`. -/
theorem processStream_synSent (hstate : c.stream.state = .synSent) (h : SafeSynSent c.stream a.seg) :
    Outcome (processStream P c a) (fun _ => True) fun c' =>
      c'.stream.state = .synSent ∨ SafeSizes c'.stream.sizes := by
  have hnote := noteArrival_same c a
  have hsizes := noteArrival_sizes c a
  -- neither the note of the arrival nor the mark of a reset matters to the handler
  have hdispatch : ∀ c₁ : Conn ρ, c.Same c₁ → c.SameSizes c₁ →
      Outcome (dispatch P c₁ a) (fun _ => True) fun c' =>
        c'.stream.state = .synSent ∨ SafeSizes c'.stream.sizes := by
    intro c₁ hsame hsame'
    have hstate₁ : c₁.stream.state = .synSent := hsame.steady.state.trans hstate
    have hsafe : SafeSynSent c₁.stream a.seg := by
      unfold SafeSynSent at h ⊢
      rwa [synRefuses_same hsame, hsame']
    unfold dispatch
    rw [hstate₁]
    refine (handleSynSent_sizes hsafe).mono (fun _ h => h) fun c' h => ?_
    rcases h with rfl | h
    · exact .inl hstate₁
    · exact .inr h
  unfold processStream
  rw [if_neg (by rw [hstate]; decide)]
  unfold processAccepted
  refine Outcome.ite (fun _ => Outcome.ite (fun hrst => ?_) fun _ => ?_) fun _ => ?_
  · have hstate' : (noteArrival c a).stream.state = .synSent := hnote.steady.state.trans hstate
    refine absurd hrst.1 ?_
    change ¬(noteArrival c a).stream.state.code > _
    rw [hstate']
    decide
  · exact hdispatch _ (hnote.trans ⟨⟨rfl, rfl⟩, rfl, rfl⟩) hsizes
  · exact hdispatch _ hnote hsizes

end Calls

/-! ### Runs -/

/-- The endpoint sets neither size, takes a stream out of `SYN_SENT` by closing it only, and none out of
`CLOSED`. -/
def KeepsSizes (allowed : Stream ρ → Stream ρ → Prop) : Prop :=
  ∀ s s', allowed s s' → s'.sizes = s.sizes ∧
    (s'.state = s.state ∨ s'.state = .closed ∨ s.state ≠ .synSent ∧ s.state ≠ .closed)

/-- Past its handshake a stream has safe sizes. -/
def SizesInv (w : World ρ) : Prop :=
  ∀ s, w.stream = some s → s.state ≠ .synSent → s.state ≠ .closed → SafeSizes s.sizes

section Runs

variable {P : Parts ρ} {allowed : Stream ρ → Stream ρ → Prop} {w w' : World ρ} {l : Label ρ}

theorem SizesInv.step (hP : P.CloseWaitAcks) (hallowed : KeepsSizes allowed) (h : SizesInv w)
    (hstep : Guarded SafeOpening (Step P allowed) w l w') : SizesInv w' := by
  obtain ⟨hguard, hstep⟩ := hstep
  cases hstep with
  | @endpoint s s' tcp hs hmove =>
    intro t ht hsent hclosed
    cases ht
    -- the endpoint keeps the sizes; where it moves, it closes or was past the handshake
    obtain ⟨hsizes, hstate⟩ := hallowed s s' hmove
    rw [hsizes]
    rcases hstate with hstate | hstate | hstate
    · rw [hstate] at hsent hclosed
      exact h s hs hsent hclosed
    · exact absurd hstate hclosed
    · exact h s hs hstate.1 hstate.2
  | @segment _ a ret hcall =>
    rcases process_checked hcall with rfl | hcheck
    · exact h
    rcases process_ok hcall with rfl | ⟨c, c', hfind, hproc, rfl⟩
    · exact h
    have hsafe := hguard hcheck
    intro t ht hsent hclosed
    cases ht
    unfold findStream at hfind
    cases hs : w.stream with
    | none =>
      -- a new stream has the sizes that the opening leaves
      rw [hs] at hfind hsafe
      obtain ⟨hsyn, hack, hfilter, snd, hsnd, hsizes⟩ := (createStream_sizes _ _ a).of_ok hfind c rfl
      obtain ⟨-, hnew, -⟩ := (createStream_outcome _ _ a).of_ok hfind c rfl
      have hstate : c.stream.state ≠ .synSent := by
        rcases hnew with hnew | hnew
        · simp [hnew]
        · simp [hnew]
      rw [(processStream_sizes hP hstate).of_ok hproc, hsizes]
      exact hsafe hsyn hack hfilter snd hsnd
    | some s =>
      rw [hs] at hfind hsafe
      cases hfind
      by_cases hstate : s.state = .synSent
      · -- the handshake is done now, or `SYN_SENT` is still the state
        exact ((processStream_synSent (c := ⟨w.tcp, s, w.log⟩) hstate (hsafe hstate)).of_ok
          hproc).resolve_left hsent
      · have hkept := (processStream_sizes (c := ⟨w.tcp, s, w.log⟩) hP hstate).of_ok hproc
        rw [hkept]
        refine h s hs hstate fun hgone => hclosed ?_
        exact ((closed_outcome (c := ⟨w.tcp, s, w.log⟩) hgone).of_ok hproc).state.trans hgone

/-- **Segment sizes are safe.** In every run, from no stream or from an actively opened one, whose handshakes all
leave safe sizes, a stream past its handshake has `0 < eff_mss ≤ mss`, and no acknowledgement that it may
process in `ESTABLISHED` or later divides by zero. -/
theorem segment_size_safe (P : Parts ρ) (hP : P.CloseWaitAcks)
    (allowed : Stream ρ → Stream ρ → Prop) (hallowed : KeepsSizes allowed) (w₀ w : World ρ)
    (ls : List (Label ρ)) (h₀ : w₀.stream = none ∨ ∃ s, w₀.stream = some s ∧ ActivelyOpened s)
    (hrun : Run (Guarded SafeOpening (Step P allowed)) w₀ ls w) (s : Stream ρ) (hs : w.stream = some s)
    (hsent : s.state ≠ .synSent) (hclosed : s.state ≠ .closed) :
    (0 < s.snd.effMss.toNat ∧ s.snd.effMss.toNat ≤ s.snd.mss.toNat) ∧
      ∀ (c : Conn ρ) (seg : Segment) (curTs : U32), c.stream.sizes = s.sizes →
        TcpState.established.code ≤ c.stream.state.code → processAck c seg curTs ≠ .error .divZero := by
  have hstart : SizesInv w₀ := fun t ht hsent' _ => absurd (activelyOpened_of_start h₀ ht).fresh.1 hsent'
  have hinv := hrun.invariant SizesInv hstart fun _ _ _ h hstep => h.step hP hallowed hstep
  have hsafe := hinv s hs hsent hclosed
  refine ⟨hsafe, fun c seg curTs hsizes hest hdiv => ?_⟩
  exact (processAck_sizes c seg curTs).of_error hdiv (by rwa [hsizes]) hest rfl

end Runs

/-! ### Two handshakes -/

/-- A SYN with an MSS option. -/
def mssSegment (mss : U16) : Arrival (U32 × U32) :=
  let a := openSegment true false 7 0
  let mssBytes : List U8 := [tcpOptMss, 4, (mss >>> 8).setWidth 8, mss.setWidth 8]
  { a with seg := { a.seg with doff := 6, totLen := 44, opt := fun i => mssBytes.getD i 0 } }

/-- The peer announces an MSS of 1460. -/
theorem segment_size_safe_announced :
    ∃ w s, Run (Guarded SafeOpening (Step inOrderParts fun _ _ => False)) emptyWorld
        [.segment (mssSegment 1460)] w ∧ w.stream = some s ∧ s.sizes = (1460, 1448) ∧
      (0 < s.snd.effMss.toNat ∧ s.snd.effMss.toNat ≤ s.snd.mss.toNat) := by
  have hrun : Run (Guarded SafeOpening (Step inOrderParts fun _ _ => False)) emptyWorld
      [.segment (mssSegment 1460)] _ :=
    Run.single ⟨fun _ _ _ _ snd hsnd => (by cases hsnd; decide), .segment rfl⟩
  refine ⟨_, _, hrun, rfl, rfl, ?_⟩
  exact (segment_size_safe inOrderParts inOrderParts_acks _ (fun _ _ h => h.elim) emptyWorld _ _ (.inl rfl)
    hrun _ rfl nofun nofun).1

/-- The peer announces an MSS of 12, which leaves nothing to divide by. -/
theorem mss_leaves_zero :
    ¬∀ (w₀ w : World (U32 × U32)) (ls : List (Label (U32 × U32))),
      (w₀.stream = none ∨ ∃ s, w₀.stream = some s ∧ ActivelyOpened s) →
      Run (Step inOrderParts fun _ _ => False) w₀ ls w →
      ∀ s, w.stream = some s → s.state ≠ .synSent → s.state ≠ .closed →
        (0 < s.snd.effMss.toNat ∧ s.snd.effMss.toNat ≤ s.snd.mss.toNat) ∧
          ∀ (c : Conn (U32 × U32)) (seg : Segment) (curTs : U32), c.stream.sizes = s.sizes →
            TcpState.established.code ≤ c.stream.state.code → processAck c seg curTs ≠ .error .divZero := by
  intro h
  have hrun : Run (Step inOrderParts fun _ _ => False) emptyWorld [.segment (mssSegment 12)] _ :=
    Run.single (.segment rfl)
  exact absurd (h emptyWorld _ _ (.inl rfl) hrun _ rfl nofun nofun).1.1 (by decide)

end CmtTcp
