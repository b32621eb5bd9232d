import CmtTcp.Tcp.AckRemoval
import Mathlib.Algebra.Order.Floor.Div

/-!
# The growth of the congestion window

An acknowledgement that frees `rmlen` bytes acknowledges `rmlen / eff_mss` packets, rounded up, and the
congestion window should grow by `mss` for each of them while it is below `ssthresh`, and by
`mss * mss / cwnd` above (`windowAfter`).

`cmt_tcp_process_ack` does this for full packets below `ssthresh` only. The comparison that should round up
is never true; and the `else` of congestion avoidance belongs to the test of the state, so in `ESTABLISHED` and
later states the window does not grow above `ssthresh` at all. `processAck_grows_iff` says when the window still
comes out right.
-/

namespace CmtTcp

open Lib (Outcome)

variable {ρ : Type}

/-! ### The window -/

/-- The congestion window after an acknowledgement of so many packets. -/
def windowAfter (snd : SndVar) (packets : ℕ) : ℕ :=
  let cwnd := snd.cwnd.toNat
  let mss := snd.mss.toNat
  if snd.cwnd < snd.ssthresh then cwnd + mss * packets
  else max cwnd (cwnd + packets * mss * mss / cwnd)

/-- `cmt_tcp_process_ack` does not return before it comes to the bytes to remove. -/
def ReachesRemoval (buf : SendBuffer) (ack : U32) : Prop :=
  ¬tcpSeqGt ack (buf.headSeq + buf.len) ∧ ¬tcpSeqGeq buf.headSeq ack

instance ReachesRemoval.decidable (buf : SendBuffer) (ack : U32) : Decidable (ReachesRemoval buf ack) :=
  inferInstanceAs (Decidable (_ ∧ _))

/-- In particular, for an acknowledgement that frees bytes. -/
theorem Acknowledges.reachesRemoval {buf : SendBuffer} {ack : U32} (h : Acknowledges buf ack)
    (hlen : buf.len.toNat < 2 ^ 31) : ReachesRemoval buf ack :=
  (not_early_iff hlen).mpr (.inl h)

/-- What the growth of the window depends on. -/
def Stream.growth (s : Stream ρ) : TcpState × U32 × U32 × U16 × U16 :=
  (s.state, s.snd.cwnd, s.snd.ssthresh, s.snd.mss, s.snd.effMss)

section Growth

variable {c : Conn ρ} {buf : SendBuffer} {seg : Segment} {ack curTs rmlen : U32} {effMss : U16}

/-! ### Packets -/

/-- The quotient is cut to sixteen bits and never rounded up. -/
theorem toNat_ackPackets (rmlen : U32) (effMss : U16) :
    (ackPackets rmlen effMss).toNat = rmlen.toNat / effMss.toNat % 2 ^ 16 := by
  have heff : (effMss.setWidth 32).toNat = effMss.toNat := BitVec.toNat_setWidth_of_le (by decide)
  have hle : ¬rmlen / effMss.setWidth 32 * effMss.setWidth 32 > rmlen := by
    have hmul := Nat.div_mul_le_self rmlen.toNat effMss.toNat
    have hlt := rmlen.isLt
    rw [gt_iff_lt, BitVec.lt_def, BitVec.toNat_mul, BitVec.toNat_udiv, heff,
      Nat.mod_eq_of_lt (hmul.trans_lt hlt)]
    exact not_lt.mpr hmul
  unfold ackPackets
  rw [if_neg hle, BitVec.toNat_setWidth, BitVec.toNat_udiv, heff]

theorem div_eq_ceilDiv_iff {n e : ℕ} (he : 0 < e) : n / e % 2 ^ 16 = n ⌈/⌉ e ↔ e ∣ n ∧ n / e < 2 ^ 16 := by
  have hceil : n / e ≤ n ⌈/⌉ e := Nat.floorDiv_eq_div n e ▸ floorDiv_le_ceilDiv
  have hdvd : n ⌈/⌉ e ≤ n / e ↔ e ∣ n := by
    rw [ceilDiv_le_iff_le_mul he, Nat.dvd_iff_div_mul_eq, mul_comm]
    have := Nat.div_mul_le_self n e
    omega
  have hmod := Nat.mod_le (n / e) (2 ^ 16)
  constructor
  · intro heq
    refine ⟨hdvd.mp (heq ▸ hmod), ?_⟩
    have := Nat.mod_lt (n / e) (show 2 ^ 16 > 0 by decide)
    omega
  · rintro ⟨hfull, hlt⟩
    rw [Nat.mod_eq_of_lt hlt]
    exact le_antisymm hceil (hdvd.mpr hfull)

/-! ### The stages -/

theorem windowUpdate_growth (seg : Segment) (ack : U32) (s : Stream ρ) :
    (windowUpdate seg ack s).growth = s.growth := by
  unfold windowUpdate
  split <;> rfl

theorem raiseSndNxt_growth (c : Conn ρ) (buf : SendBuffer) (ack : U32) :
    (raiseSndNxt c buf ack).stream.growth = c.stream.growth := by
  unfold raiseSndNxt removeSendlist
  dsimp only
  repeat' split
  all_goals rfl

theorem updateRto_growth (c : Conn ρ) (curTs : U32) :
    Outcome (updateRto c curTs) (· = .assertRto) fun c' => c'.stream.growth = c.stream.growth := by
  unfold updateRto
  refine Outcome.ite (fun _ => ?_) fun _ => rfl
  exact Outcome.ite (fun _ => rfl) fun _ => rfl

theorem ackRemoved_cwnd (c : Conn ρ) (buf : SendBuffer) (ret : U64) (ack curTs : U32) :
    Outcome (ackRemoved c buf ret ack curTs) (· = .assertRto) fun c' =>
      c'.stream.snd.cwnd = c.stream.snd.cwnd := by
  unfold ackRemoved
  refine Outcome.ite (fun _ => rfl) fun _ => ?_
  refine (updateRetransmissionTimer_outcome _ curTs).mono (fun _ h => h) fun c' h => ?_
  change c'.stream.work.snd.cwnd = c.stream.work.snd.cwnd
  rw [h.work]
  rfl

/-- The window that `cmt_tcp_process_ack` leaves in `ESTABLISHED` and later states. -/
theorem growCwnd_established (hstate : TcpState.established.code ≤ c.stream.state.code) (packets : U16) :
    Outcome (growCwnd c packets) (fun _ => False) fun c' =>
      c'.stream.snd.cwnd =
        if c.stream.snd.cwnd < c.stream.snd.ssthresh ∧
            c.stream.snd.cwnd + c.stream.snd.mss.setWidth 32 > c.stream.snd.cwnd then
          c.stream.snd.cwnd + c.stream.snd.mss.setWidth 32 * packets.setWidth 32
        else c.stream.snd.cwnd := by
  unfold growCwnd
  rw [if_pos hstate]
  refine Outcome.ite (fun h => ?_) fun h => ?_
  · rw [if_pos h]
    rfl
  · rw [if_neg h]
    rfl

/-- The stages in front of the removal, for an acknowledgement that is no duplicate. -/
theorem answerDup_first (c : Conn ρ) (ack : U32) :
    answerDup (c.mod (countDup false ack)) false ack = .ok (c.mod (countDup false ack)) := by
  unfold answerDup
  rw [if_neg (by simp)]
  exact if_neg (show ¬(0 : U8) > 3 by decide)

theorem ackRemove_grows (hstate : TcpState.established.code ≤ c.stream.state.code)
    (hrm : ack - buf.headSeq > 0) (heff : c.stream.snd.effMss ≠ 0) (curTs : U32) :
    Outcome (ackRemove c buf ack curTs) (· = .assertRto) fun c' =>
      c'.stream.snd.cwnd =
        if c.stream.snd.cwnd < c.stream.snd.ssthresh ∧
            c.stream.snd.cwnd + c.stream.snd.mss.setWidth 32 > c.stream.snd.cwnd then
          c.stream.snd.cwnd + c.stream.snd.mss.setWidth 32 *
            (ackPackets (ack - buf.headSeq) c.stream.snd.effMss).setWidth 32
        else c.stream.snd.cwnd := by
  unfold ackRemove
  dsimp only
  rw [if_pos hrm, if_neg heff]
  refine Outcome.bind (updateRto_growth c curTs) fun c₁ h₁ => ?_
  simp only [Stream.growth, Prod.mk.injEq] at h₁
  obtain ⟨hstate₁, hcwnd, hssthresh, hmss, -⟩ := h₁
  rw [← hstate₁] at hstate
  rw [← hcwnd, ← hssthresh, ← hmss]
  refine Outcome.bind ((growCwnd_established hstate _).mono (fun _ => False.elim) fun _ h => h)
    fun c₂ h₂ => ?_
  rw [← h₂]
  exact ackRemoved_cwnd c₂ _ _ ack curTs

/-- When the packets of an acknowledgement come out right. -/
def GrowsRight (snd : SndVar) (rmlen : ℕ) : Prop :=
  let effMss := snd.effMss.toNat
  let mss := snd.mss.toNat
  if snd.cwnd < snd.ssthresh then effMss ∣ rmlen ∧ rmlen / effMss < 2 ^ 16
  else rmlen ⌈/⌉ effMss * mss * mss < snd.cwnd.toNat

instance GrowsRight.decidable (snd : SndVar) (rmlen : ℕ) : Decidable (GrowsRight snd rmlen) := by
  unfold GrowsRight
  infer_instance

theorem growsRight_iff {snd : SndVar} {cwnd : U32} (hcwnd : 0 < snd.cwnd.toNat) (hmss : 0 < snd.mss.toNat)
    (heff : 0 < snd.effMss.toNat) (hrm : 0 < rmlen.toNat)
    (hover : snd.cwnd < snd.ssthresh →
      snd.cwnd.toNat + snd.mss.toNat * (rmlen.toNat ⌈/⌉ snd.effMss.toNat) < 2 ^ 32)
    (hgrown : cwnd =
      if snd.cwnd < snd.ssthresh ∧ snd.cwnd + snd.mss.setWidth 32 > snd.cwnd then
        snd.cwnd + snd.mss.setWidth 32 * (ackPackets rmlen snd.effMss).setWidth 32
      else snd.cwnd) :
    cwnd.toNat = windowAfter snd (rmlen.toNat ⌈/⌉ snd.effMss.toNat) ↔ GrowsRight snd rmlen.toNat := by
  have hsetWidth : ∀ x : U16, (x.setWidth 32).toNat = x.toNat :=
    fun x => BitVec.toNat_setWidth_of_le (by decide)
  unfold windowAfter GrowsRight
  dsimp only
  by_cases hslow : snd.cwnd < snd.ssthresh
  · -- slow start
    have hfits := hover hslow
    have hone : 1 ≤ rmlen.toNat ⌈/⌉ snd.effMss.toNat := by
      by_contra hzero
      have hle := (ceilDiv_le_iff_le_mul heff).mp (Nat.lt_one_iff.mp (not_le.mp hzero)).le
      omega
    have hle : (ackPackets rmlen snd.effMss).toNat ≤ rmlen.toNat ⌈/⌉ snd.effMss.toNat := by
      rw [toNat_ackPackets]
      exact (Nat.mod_le _ _).trans (Nat.floorDiv_eq_div _ _ ▸ floorDiv_le_ceilDiv)
    have hmul := Nat.mul_le_mul_left snd.mss.toNat hle
    have hmul_one := Nat.mul_le_mul_left snd.mss.toNat hone
    have hroom : snd.cwnd + snd.mss.setWidth 32 > snd.cwnd := by
      rw [gt_iff_lt, BitVec.lt_def, BitVec.toNat_add, hsetWidth]
      omega
    have hcwnd' : cwnd.toNat = snd.cwnd.toNat + snd.mss.toNat * (ackPackets rmlen snd.effMss).toNat := by
      rw [hgrown, if_pos ⟨hslow, hroom⟩, BitVec.toNat_add, BitVec.toNat_mul, hsetWidth, hsetWidth]
      rw [Nat.mod_eq_of_lt (by omega), Nat.mod_eq_of_lt (by omega)]
    rw [if_pos hslow, if_pos hslow, hcwnd', Nat.add_left_cancel_iff, Nat.mul_right_inj hmss.ne',
      toNat_ackPackets]
    exact div_eq_ceilDiv_iff heff
  · -- congestion avoidance: the window stays
    rw [if_neg hslow, if_neg hslow, hgrown, if_neg fun h => hslow h.1]
    rw [max_eq_right (Nat.le_add_right _ _), Nat.left_eq_add, Nat.div_eq_zero_iff]
    omega

/-- **The congestion window grows.** In `ESTABLISHED` and later states, an acknowledgement that is no duplicate
and frees bytes leaves the congestion window that it should if and only if the window is below `ssthresh`
and the bytes are full packets, less than `2 ^ 16`, or it is not below and the growth would be zero. -/
theorem processAck_grows_iff (c : Conn ρ) (buf : SendBuffer) (seg : Segment) (curTs : U32)
    (hbuf : c.stream.snd.sndbuf = some buf)
    (hstate : TcpState.established.code ≤ c.stream.state.code)
    (hcwnd : 0 < c.stream.snd.cwnd.toNat) (hmss : 0 < c.stream.snd.mss.toNat)
    (heff : 0 < c.stream.snd.effMss.toNat)
    (hreach : ReachesRemoval buf (ackSeqOf c.stream seg.ackSeq))
    (hdup : isDup (windowUpdate seg (ackSeqOf c.stream seg.ackSeq) c.stream)
      (ackSeqOf c.stream seg.ackSeq) seg.payloadlen (rightWndEdge c.stream) = false)
    (hover : c.stream.snd.cwnd < c.stream.snd.ssthresh →
      c.stream.snd.cwnd.toNat + c.stream.snd.mss.toNat *
        (seqOff buf.headSeq (ackSeqOf c.stream seg.ackSeq) ⌈/⌉ c.stream.snd.effMss.toNat) < 2 ^ 32) :
    let rmlen := seqOff buf.headSeq (ackSeqOf c.stream seg.ackSeq)
    Outcome (processAck c seg curTs) (· = .assertRto) fun c' =>
      c'.stream.snd.cwnd.toNat =
          windowAfter c.stream.snd (rmlen ⌈/⌉ c.stream.snd.effMss.toNat) ↔
        GrowsRight c.stream.snd rmlen := by
  obtain ⟨hgt, hge⟩ := hreach
  unfold processAck
  rw [hbuf]
  dsimp only
  generalize ackSeqOf c.stream seg.ackSeq = ack at *
  -- the acknowledgement lies behind the head
  have hrm : 0 < (ack - buf.headSeq).toNat := by
    rw [tcpSeqGeq_iff] at hge
    bv_omega
  -- what comes before the removal leaves alone what the growth is computed from
  have hgrowth : (raiseSndNxt ((c.mod (windowUpdate seg ack)).mod (countDup false ack)) buf ack).stream.growth =
      c.stream.growth :=
    (raiseSndNxt_growth _ buf ack).trans (windowUpdate_growth seg ack c.stream)
  have hfirst : isDup (c.mod (windowUpdate seg ack)).stream ack seg.payloadlen (rightWndEdge c.stream) =
      false := hdup
  rw [if_neg hgt, hfirst, answerDup_first]
  change Outcome (if _ then _ else _) _ _
  rw [if_neg hge]
  simp only [Stream.growth, Prod.mk.injEq] at hgrowth
  obtain ⟨hstate', hcwnd', hssthresh, hmss', heff'⟩ := hgrowth
  have hne : c.stream.snd.effMss ≠ 0 := by
    intro hzero
    rw [hzero] at heff
    exact absurd heff (by decide)
  refine (ackRemove_grows (hstate' ▸ hstate) hrm (heff' ▸ hne) curTs).mono (fun _ h => h)
    fun c' hgrown => ?_
  rw [hcwnd', hssthresh, hmss', heff'] at hgrown
  exact growsRight_iff hcwnd hmss heff hrm hover hgrown

/-- `halfSent` in slow start, with packets of ten bytes: the ten bytes that it has sent are acknowledged. -/
theorem processAck_grows_iff_packet :
    ∃ c', processAck (halfSent.modSnd fun snd => { snd with effMss := 10, ssthresh := 65535 })
        (bareSegment false 110).seg 0 = .ok c' ∧ c'.stream.snd.cwnd = 2920 := by
  refine ⟨_, rfl, ?_⟩
  have h := (processAck_grows_iff
    (halfSent.modSnd fun snd => { snd with effMss := 10, ssthresh := 65535 })
    _ (bareSegment false 110).seg 0 rfl (by decide) (by decide) (by decide) (by decide) (by decide) rfl
    (by decide)).of_ok rfl
  exact BitVec.eq_of_toNat_eq (h.mpr (by decide))

/-- `halfSent` itself is in congestion avoidance, and its window of one `mss` stays as it is. -/
theorem processAck_frozen :
    ¬∀ (c c' : Conn (U32 × U32)) (buf : SendBuffer) (seg : Segment) (curTs : U32),
      c.stream.snd.sndbuf = some buf → TcpState.established.code ≤ c.stream.state.code →
      0 < c.stream.snd.cwnd.toNat → 0 < c.stream.snd.mss.toNat → 0 < c.stream.snd.effMss.toNat →
      ReachesRemoval buf (ackSeqOf c.stream seg.ackSeq) →
      isDup (windowUpdate seg (ackSeqOf c.stream seg.ackSeq) c.stream)
        (ackSeqOf c.stream seg.ackSeq) seg.payloadlen (rightWndEdge c.stream) = false →
      windowAfter c.stream.snd (seqOff buf.headSeq (ackSeqOf c.stream seg.ackSeq) ⌈/⌉
        c.stream.snd.effMss.toNat) < 2 ^ 32 →
      seqOff buf.headSeq (ackSeqOf c.stream seg.ackSeq) ⌈/⌉ c.stream.snd.effMss.toNat *
        c.stream.snd.mss.toNat * c.stream.snd.mss.toNat < 2 ^ 32 →
      processAck c seg curTs = .ok c' →
      c'.stream.snd.cwnd.toNat = windowAfter c.stream.snd
        (seqOff buf.headSeq (ackSeqOf c.stream seg.ackSeq) ⌈/⌉ c.stream.snd.effMss.toNat) := by
  intro h
  have hgrown := h halfSent _ _ (bareSegment false 110).seg 0 rfl (by decide) (by decide) (by decide)
    (by decide) (by decide) rfl (by decide) (by decide) rfl
  exact absurd hgrown (by decide)

end Growth

end CmtTcp
