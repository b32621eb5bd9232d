import CmtTcp.Tcp.SendSequence

/-!
# What an acknowledgement frees

`cmt_tcp_process_ack` removes the bytes in front of the acknowledgement from the send buffer, moves `snd_una` there
and sets `snd_wnd` to the room of the buffer. `ackView` says what a call leaves in the buffer and in
`snd_una`; this file adds `snd_wnd` (`processAck_sndWnd`) and reads both over all positions of the
acknowledgement around the circle.

* `Acknowledges`: the acknowledgement lies in the queued data, behind its first byte;
* `processAck_frees`: then exactly the bytes in front of it go, and otherwise none.
-/

namespace CmtTcp

open Lib (Outcome)

variable {ρ : Type}

/-! ### The send window -/

section Window

variable {c : Conn ρ} {buf : SendBuffer} {ackSeq curTs : U32}

theorem Conn.Scheduled.sndWnd {c' : Conn ρ} (h : c.Scheduled c') :
    c'.stream.snd.sndWnd = c.stream.snd.sndWnd := by
  change c'.stream.work.snd.sndWnd = c.stream.work.snd.sndWnd
  rw [h.work]

theorem windowUpdate_sndWnd (seg : Segment) (ackSeq : U32) (s : Stream ρ) :
    (windowUpdate seg ackSeq s).snd.sndWnd = s.snd.sndWnd := by
  unfold windowUpdate
  split <;> rfl

theorem countDup_sndWnd (dup : Bool) (ackSeq : U32) (s : Stream ρ) :
    (countDup dup ackSeq s).snd.sndWnd = s.snd.sndWnd := by
  unfold countDup
  split <;> rfl

theorem updateRto_sndWnd (c : Conn ρ) (curTs : U32) :
    Outcome (updateRto c curTs) (fun _ => True) fun c' =>
      c'.stream.snd.sndWnd = c.stream.snd.sndWnd := by
  unfold updateRto
  refine Outcome.ite (fun _ => ?_) fun _ => rfl
  exact Outcome.ite (fun _ => rfl) fun _ => trivial

theorem ackRemoved_sndWnd (c : Conn ρ) (buf : SendBuffer) (ret : U64) (ackSeq curTs : U32) :
    Outcome (ackRemoved c buf ret ackSeq curTs) (fun _ => True) fun c' =>
      c'.stream.snd.sndWnd =
        if (ret.setWidth 32).toInt ≤ 0 then c.stream.snd.sndWnd else buf.size - buf.len := by
  unfold ackRemoved
  by_cases hret : (ret.setWidth 32).toInt ≤ 0
  · simp only [if_pos hret]
    rfl
  · simp only [if_neg hret]
    exact (updateRetransmissionTimer_outcome _ curTs).mono (fun _ _ => trivial) fun c' h => h.sndWnd

/-- Where an acknowledgement leaves `snd_wnd`. -/
def ackWnd (s : Stream ρ) (buf : SendBuffer) (seg : Segment) : U32 :=
  let ackSeq := ackSeqOf s seg.ackSeq
  if tcpSeqGt ackSeq (buf.headSeq + buf.len) ∨ tcpSeqGeq buf.headSeq ackSeq then s.snd.sndWnd
  else
    let removed := sbRemove buf ((ackSeq - buf.headSeq).setWidth 64)
    if (removed.2.setWidth 32).toInt ≤ 0 then s.snd.sndWnd else removed.1.size - removed.1.len

theorem processAck_sndWnd (hbuf : c.stream.snd.sndbuf = some buf) (seg : Segment) (curTs : U32) :
    Outcome (processAck c seg curTs) (fun _ => True) fun c' =>
      c'.stream.snd.sndWnd = ackWnd c.stream buf seg := by
  unfold processAck ackWnd
  rw [hbuf]
  dsimp only
  generalize ackSeqOf c.stream seg.ackSeq = ack
  refine Outcome.ite (fun hgt => (if_pos (.inl hgt)).symm) fun hgt => ?_
  -- up to the removal no stage touches the window
  refine Outcome.bind ((answerDup_uncongested _ _ ack).mono (fun _ _ => trivial) fun _ h => h) ?_
  intro c₁ h₁
  have h₂ : (raiseSndNxt c₁ buf ack).stream.snd.sndWnd = c.stream.snd.sndWnd :=
    (Stream.view_of_uncongested (fun s => s.snd.sndWnd) (fun _ => rfl)
      ((raiseSndNxt_uncongested c₁ buf ack).trans h₁)).trans
        ((countDup_sndWnd _ ack _).trans (windowUpdate_sndWnd seg ack c.stream))
  refine Outcome.ite (fun hge => h₂.trans (if_pos (.inr hge)).symm) fun hge => ?_
  rw [if_neg (not_or.mpr ⟨hgt, hge⟩), ← h₂]
  unfold ackRemove
  refine Outcome.ite (fun _ => Outcome.ite (fun _ => trivial) fun _ => ?_) fun hzero => ?_
  · refine Outcome.bind (updateRto_sndWnd _ curTs) fun c₃ h₃ => ?_
    refine Outcome.bind ((growCwnd_uncongested c₃ _).mono (fun _ _ => trivial) fun _ h => h) ?_
    intro c₄ h₄
    have hwnd : c₄.stream.snd.sndWnd = c₃.stream.snd.sndWnd :=
      Stream.view_of_uncongested (fun s => s.snd.sndWnd) (fun _ => rfl) h₄
    refine (ackRemoved_sndWnd c₄ _ _ ack curTs).mono (fun _ h => h) fun c' h => ?_
    rw [h, hwnd, h₃]
  · -- an acknowledgement in front of the buffer is not removed up to
    refine absurd ?_ hge
    rw [tcpSeqGeq_iff]
    bv_omega

end Window

/-! ### The removal -/

/-- An acknowledgement `ack` of data in the buffer: it lies in `(head_seq, head_seq + len]`. -/
def Acknowledges (buf : SendBuffer) (ack : U32) : Prop :=
  0 < seqOff buf.headSeq ack ∧ seqOff buf.headSeq ack ≤ buf.len.toNat

instance Acknowledges.decidable (buf : SendBuffer) (ack : U32) : Decidable (Acknowledges buf ack) :=
  inferInstanceAs (Decidable (_ ∧ _))

section Removal

variable {s : Stream ρ} {buf : SendBuffer} {seg : Segment} {ack : U32}

/-- The two early returns of `cmt_tcp_process_ack` let through what lies in the buffer, and beyond that one
place only: half the circle away from an empty buffer. -/
theorem not_early_iff (hlen : buf.len.toNat < 2 ^ 31) :
    ¬tcpSeqGt ack (buf.headSeq + buf.len) ∧ ¬tcpSeqGeq buf.headSeq ack ↔
      Acknowledges buf ack ∨ buf.len.toNat = 0 ∧ seqOff buf.headSeq ack = 2 ^ 31 := by
  rw [tcpSeqGt_iff, tcpSeqGeq_iff]
  unfold Acknowledges seqOff
  constructor <;> intro h <;> bv_omega

/-- `SBRemove` of what is acknowledged. -/
theorem Acknowledges.sbRemove (h : Acknowledges buf ack) (hwf : buf.WellFormed)
    (hlen : buf.len.toNat < 2 ^ 31) :
    let removed := sbRemove buf ((ack - buf.headSeq).setWidth 64)
    ¬(removed.2.setWidth 32).toInt ≤ 0 ∧ removed.1.WellFormed ∧
      removed.1.live = buf.live.drop (seqOff buf.headSeq ack) ∧ removed.1.headSeq = ack ∧
      removed.1.size = buf.size := by
  obtain ⟨hpos, hle⟩ := h
  unfold seqOff at hpos hle
  have hrm : ((ack - buf.headSeq).setWidth 64).toNat = (ack - buf.headSeq).toNat :=
    BitVec.toNat_setWidth_of_le (by decide)
  obtain ⟨hwf', hlive, -, -, -, -, hsize, -⟩ := sbRemove_spec hwf ((ack - buf.headSeq).setWidth 64)
  obtain ⟨hhead, -, hret⟩ :=
    @sbRemove_of_le buf ((ack - buf.headSeq).setWidth 64) (by omega) (by omega)
  rw [hrm, Nat.min_eq_left hle] at hlive
  refine ⟨?_, hwf', hlive, ?_, hsize⟩
  · rw [hret, BitVec.toInt_eq_toNat_cond]
    split <;> bv_omega
  · rw [hhead]
    bv_omega

/-- **An acknowledgement frees what it acknowledges.** Whatever call of `cmt_tcp_process_ack` returns: if the
acknowledgement, without the FIN it may count, lies in the queued data, exactly the bytes in front of it
leave the buffer, `head_seq` and `snd_una` go there and `snd_wnd` is the room of the buffer; if it does not,
buffer, `snd_una` and `snd_wnd` stay as they are. -/
theorem processAck_frees (c c' : Conn ρ) (buf : SendBuffer) (seg : Segment) (curTs : U32)
    (hbuf : c.stream.snd.sndbuf = some buf) (hwf : buf.WellFormed) (hlen : buf.len.toNat < 2 ^ 31)
    (hr : processAck c seg curTs = .ok c') :
    let ack := ackSeqOf c.stream seg.ackSeq
    if Acknowledges buf ack then
      ∃ buf', c'.stream.snd.sndbuf = some buf' ∧ buf'.WellFormed ∧
        buf'.live = buf.live.drop (seqOff buf.headSeq ack) ∧ buf'.headSeq = ack ∧
        c'.stream.snd.sndUna = ack ∧ buf'.size = buf.size ∧
        c'.stream.snd.sndWnd = buf'.size - buf'.len
    else
      c'.stream.snd.sndbuf = some buf ∧ c'.stream.snd.sndUna = c.stream.snd.sndUna ∧
        c'.stream.snd.sndWnd = c.stream.snd.sndWnd := by
  have hview := ((processAck_outcome hbuf seg curTs).of_ok hr).2
  have hwnd := (processAck_sndWnd hbuf seg curTs).of_ok hr
  have hearly := @not_early_iff buf (ackSeqOf c.stream seg.ackSeq) hlen
  unfold ackView at hview
  unfold ackWnd at hwnd
  dsimp only at hview hwnd ⊢
  generalize ackSeqOf c.stream seg.ackSeq = ack at hview hwnd hearly ⊢
  split
  · next hin =>
    -- neither early return is taken
    obtain ⟨hgt, hge⟩ := hearly.mpr (.inl hin)
    obtain ⟨hret, hwf', hlive, hhead, hsize⟩ := hin.sbRemove hwf hlen
    rw [if_neg hgt, if_neg hge, if_neg hret] at hview
    rw [if_neg (not_or.mpr ⟨hgt, hge⟩), if_neg hret] at hwnd
    simp only [Stream.sendView, Prod.mk.injEq] at hview
    exact ⟨_, hview.2.2, hwf', hlive, hhead, hview.2.1, hsize, hwnd⟩
  · next hout =>
    by_cases hgt : tcpSeqGt ack (buf.headSeq + buf.len)
    · rw [if_pos hgt] at hview
      rw [if_pos (.inl hgt)] at hwnd
      simp only [Stream.sendView, Prod.mk.injEq] at hview
      exact ⟨hview.2.2.trans hbuf, hview.2.1, hwnd⟩
    by_cases hge : tcpSeqGeq buf.headSeq ack
    · rw [if_neg hgt, if_pos hge] at hview
      rw [if_pos (.inr hge)] at hwnd
      simp only [Stream.sendView, Prod.mk.injEq] at hview
      exact ⟨hview.2.2, hview.2.1, hwnd⟩
    -- the one place beyond the buffer: `SBRemove` finds nothing and returns `-2`
    obtain ⟨hempty, hhalf⟩ := (hearly.mp ⟨hgt, hge⟩).resolve_left hout
    have hpos : 0 < ((ack - buf.headSeq).setWidth 64).toNat := by
      rw [BitVec.toNat_setWidth_of_le (by decide)]
      unfold seqOff at hhalf
      omega
    have hneg : ((-2 : U64).setWidth 32).toInt ≤ 0 := by decide
    rw [if_neg hgt, if_neg hge, sbRemove_of_empty hpos hempty] at hview
    rw [if_neg (not_or.mpr ⟨hgt, hge⟩), sbRemove_of_empty hpos hempty] at hwnd
    dsimp only at hview hwnd
    rw [if_pos hneg] at hview hwnd
    simp only [Stream.sendView, Prod.mk.injEq] at hview
    exact ⟨hview.2.2, hview.2.1, hwnd⟩

/-- Ten of twenty queued bytes are acknowledged. -/
theorem processAck_frees_halfSent :
    ∃ c' buf', processAck halfSent (bareSegment false 110).seg 0 = .ok c' ∧
      c'.stream.snd.sndbuf = some buf' ∧ buf'.headSeq = 110 ∧ c'.stream.snd.sndUna = 110 ∧
      c'.stream.snd.sndWnd = buf'.size - buf'.len := by
  have h := processAck_frees halfSent _ _ (bareSegment false 110).seg 0 rfl
    ⟨rfl, rfl, rfl, by decide⟩ (by decide) rfl
  dsimp only at h
  rw [if_pos (by decide)] at h
  obtain ⟨buf', hbuf', -, -, hhead, huna, -, hwnd⟩ := h
  exact ⟨_, buf', rfl, hbuf', hhead, huna, hwnd⟩

end Removal

end CmtTcp
