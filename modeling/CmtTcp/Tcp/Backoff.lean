import Mathlib.Data.Nat.Prime.Basic
import CmtTcp.Tcp.RttEstimate
import CmtTcp.Tcp.TimeoutResend

/-!
# The backoff of the retransmission timeout

From `ESTABLISHED` on, `handle_rto` takes the timeout of a stream that has been sent again `nrtx` times as
`((srtt >> 3) + rttvar) << MIN(nrtx, TCP_MAX_BACKOFF)`, in 32 bits; a result of 0 leaves the timeout
before it. A run is a list of timeouts without an acknowledgement between them, each with the flag
`socket` of the call.

* `rtoAfter`: the timeout after so many retransmissions, as a function on numbers;
* `backoff_monotone_iff`: in a run the timeout never drops exactly when the last backoff fits in 32 bits, or
  the estimate is a power of two, of which a shift loses everything or nothing.
-/

namespace CmtTcp

open Lib (Run)

variable {ρ : Type}

/-! ### In numbers -/

/-- The timeout after `k` retransmissions, if it had all the bits it needs. -/
def backedOff (b k : ℕ) : ℕ := b * 2 ^ min k tcpMaxBackoff.toNat

/-- The timeout after `k` retransmissions, as the shift leaves it. -/
def rtoAfter (b : ℕ) : ℕ → ℕ
  | 0 => b
  | k + 1 =>
    if backedOff b (k + 1) % 2 ^ 32 = 0 then rtoAfter b k else backedOff b (k + 1) % 2 ^ 32

section Numbers

variable {b k n : ℕ}

theorem backedOff_of_le (h : k ≤ 7) : backedOff b k = b * 2 ^ k :=
  congrArg (fun e => b * 2 ^ e) (min_eq_left h)

theorem backedOff_mono (h : k ≤ n) : backedOff b k ≤ backedOff b n :=
  Nat.mul_le_mul_left b (Nat.pow_le_pow_right Nat.two_pos (min_le_min_right _ h))

theorem backedOff_pos (hb : 0 < b) : 0 < backedOff b k := Nat.mul_pos hb (Nat.two_pow_pos _)

/-- What can be represented is what the shift leaves. -/
theorem rtoAfter_of_lt (hb : 0 < b) (h : backedOff b k < 2 ^ 32) : rtoAfter b k = backedOff b k := by
  cases k with
  | zero => rw [backedOff_of_le (Nat.zero_le 7), Nat.pow_zero, Nat.mul_one, rtoAfter]
  | succ k =>
    rw [rtoAfter, Nat.mod_eq_of_lt h]
    exact if_neg (backedOff_pos hb).ne'

/-- The timeout does not drop where the shift loses nothing, or leaves nothing. -/
theorem rtoAfter_le_succ (hb : 0 < b)
    (h : backedOff b (k + 1) < 2 ^ 32 ∨ backedOff b (k + 1) % 2 ^ 32 = 0) :
    rtoAfter b k ≤ rtoAfter b (k + 1) := by
  rcases h with hlt | hzero
  · have hle := @backedOff_mono b k (k + 1) (Nat.le_succ k)
    rw [rtoAfter_of_lt hb hlt, rtoAfter_of_lt hb (hle.trans_lt hlt)]
    exact hle
  · rw [rtoAfter, if_pos hzero]

/-- A power of two is shifted out as a whole. -/
theorem backedOff_two_pow (j k : ℕ) :
    backedOff (2 ^ j) k < 2 ^ 32 ∨ backedOff (2 ^ j) k % 2 ^ 32 = 0 := by
  unfold backedOff
  rw [← Nat.pow_add]
  rcases Nat.lt_or_ge (j + min k tcpMaxBackoff.toNat) 32 with hlt | hge
  · exact .inl (Nat.pow_lt_pow_right Nat.one_lt_two hlt)
  · exact .inr (Nat.mod_eq_zero_of_dvd (Nat.pow_dvd_pow 2 hge))

/-- At the first shift that loses a bit the timeout drops, unless nothing is left of it. -/
theorem lt_or_two_pow_of_mono (hb : 0 < b) (hlt : b < 2 ^ 32)
    (hmono : ∀ k < n, rtoAfter b k ≤ rtoAfter b (k + 1)) (hk : k ≤ n) (h7 : k ≤ 7) :
    backedOff b k < 2 ^ 32 ∨ ∃ j, b = 2 ^ j := by
  induction k with
  | zero => exact .inl (by rwa [backedOff_of_le (Nat.zero_le 7), Nat.pow_zero, Nat.mul_one])
  | succ k ih =>
    refine (ih (by omega) (by omega)).elim (fun hrepr => ?_) .inr
    by_contra hno
    obtain ⟨hover, hpow⟩ := not_or.mp hno
    have hdouble : backedOff b (k + 1) = 2 * backedOff b k := by
      rw [backedOff_of_le h7, backedOff_of_le (by omega), Nat.pow_succ, Nat.mul_comm 2, Nat.mul_assoc]
    have hstep := hmono k (by omega)
    rw [rtoAfter_of_lt hb hrepr, rtoAfter] at hstep
    split at hstep
    · -- nothing is left: `b` divides a power of two
      next hzero =>
      have heq : backedOff b (k + 1) = 2 ^ 32 := by omega
      rw [backedOff_of_le h7] at heq
      obtain ⟨j, -, hj⟩ := (Nat.dvd_prime_pow Nat.prime_two).mp (Dvd.intro _ heq)
      exact hpow ⟨j, hj⟩
    · omega

theorem rtoAfter_mono_iff (hb : 0 < b) (hlt : b < 2 ^ 32) :
    (∀ k < n, rtoAfter b k ≤ rtoAfter b (k + 1)) ↔
      backedOff b n < 2 ^ 32 ∨ ∃ j, b = 2 ^ j := by
  constructor
  · intro hmono
    have hmin : backedOff b (min n 7) = backedOff b n := by
      unfold backedOff
      change b * 2 ^ min (min n 7) 7 = b * 2 ^ min n 7
      rw [min_assoc, min_self]
    rw [← hmin]
    exact lt_or_two_pow_of_mono hb hlt hmono (min_le_left n 7) (min_le_right n 7)
  · rintro (hrepr | ⟨j, rfl⟩) k hk
    · exact rtoAfter_le_succ hb (.inl ((backedOff_mono hk).trans_lt hrepr))
    · exact rtoAfter_le_succ hb (backedOff_two_pow j (k + 1))

end Numbers

/-! ### In a run -/

/-- Between `c` and `c'` nothing is acknowledged: nothing is measured, and the count stands. -/
structure Conn.Unanswered (c c' : Conn ρ) : Prop where
  state : TcpState.established.code ≤ c.stream.state.code →
    TcpState.established.code ≤ c'.stream.state.code
  nrtx : c'.stream.snd.nrtx = c.stream.snd.nrtx
  rto : c'.stream.snd.rto = c.stream.snd.rto
  srtt : c'.stream.rcv.srtt = c.stream.rcv.srtt
  rttvar : c'.stream.rcv.rttvar = c.stream.rcv.rttvar

/-- The next timeout that `handle_rto` returns 0 for. -/
def TimeoutStep (c : Conn ρ) (socket : Bool) (c' : Conn ρ) : Prop :=
  ∃ c₀, c.Unanswered c₀ ∧ handleRto c₀ socket = .ok (c', 0)

/-- After `k` timeouts, from an estimate of `b`. -/
structure TimedOut (b k : ℕ) (c : Conn ρ) : Prop where
  state : TcpState.established.code ≤ c.stream.state.code
  nrtx : c.stream.snd.nrtx.toNat = k
  rto : c.stream.snd.rto.toNat = rtoAfter b k
  estimate : (rtoValue c.stream.rcv).toNat = b

/-- At every timeout of the run, the `k`-th from `b`, the timeout does not drop, and it is
`b * 2 ^ min k TCP_MAX_BACKOFF` where that can be represented. -/
def BackoffMonotone (b : ℕ) (c : Conn ρ) (sockets : List Bool) : Prop :=
  ∀ pre socket post t u, sockets = pre ++ socket :: post → Run TimeoutStep c pre t →
    TimeoutStep t socket u →
      t.stream.snd.rto ≤ u.stream.snd.rto ∧
        (backedOff b (pre.length + 1) < 2 ^ 32 →
          u.stream.snd.rto.toNat = backedOff b (pre.length + 1))

section Runs

variable {b k : ℕ} {c : Conn ρ}

theorem Conn.Unanswered.refl (c : Conn ρ) : c.Unanswered c := ⟨id, rfl, rfl, rfl, rfl⟩

theorem TimedOut.unanswered {c' : Conn ρ} (h : TimedOut b k c) (hun : c.Unanswered c') :
    TimedOut b k c' where
  state := hun.state h.state
  nrtx := by rw [hun.nrtx, h.nrtx]
  rto := by rw [hun.rto, h.rto]
  estimate := by
    rw [← h.estimate]
    unfold rtoValue
    rw [hun.srtt, hun.rttvar]

/-- The shift of `handle_rto` in numbers. -/
theorem TimedOut.toNat_nextRto (h : TimedOut b k c) (hk : k < 16) :
    (nextRto c.stream).toNat = rtoAfter b (k + 1) := by
  have hnrtx := h.nrtx
  have hnext : (c.stream.snd.nrtx + 1).toNat = k + 1 := by bv_omega
  have hshift : (if c.stream.snd.nrtx + 1 < tcpMaxBackoff then c.stream.snd.nrtx + 1
      else tcpMaxBackoff).toNat = min (k + 1) tcpMaxBackoff.toNat := by
    rw [← hnext]
    split
    · next hlt => rw [min_eq_left (BitVec.lt_def.mp hlt).le]
    · next hge => rw [min_eq_right (Nat.not_lt.mp (mt BitVec.lt_def.mpr hge))]
  have hrto : (rtoValue c.stream.rcv <<< min (k + 1) tcpMaxBackoff.toNat).toNat =
      backedOff b (k + 1) % 2 ^ 32 := by
    rw [BitVec.toNat_shiftLeft, Nat.shiftLeft_eq, h.estimate]
    rfl
  unfold nextRto backoffRto
  rw [if_pos h.state]
  dsimp only
  rw [hshift, rtoAfter, ← h.rto, ← hrto]
  by_cases hzero : (rtoValue c.stream.rcv <<< min (k + 1) tcpMaxBackoff.toNat).toNat = 0
  · rw [if_pos hzero]
    exact congrArg BitVec.toNat (if_pos (BitVec.le_def.mpr hzero.le))
  · rw [if_neg hzero]
    refine congrArg BitVec.toNat (if_neg fun hle => hzero ?_)
    exact Nat.le_zero.mp (BitVec.le_def.mp hle)

theorem TimedOut.step {c' : Conn ρ} {socket : Bool} (h : TimedOut b k c)
    (hstep : TimeoutStep c socket c') : TimedOut b (k + 1) c' := by
  obtain ⟨c₀, hun, hret⟩ := hstep
  obtain ⟨hless, hview⟩ := handleRto_zero hret
  have h₀ := h.unanswered hun
  have hk : k < 16 := by
    rw [← h₀.nrtx]
    exact BitVec.lt_def.mp hless
  have hstate : c'.stream.state = c₀.stream.state := (congrArg Stream.state hview :)
  have hsnd := congrArg Stream.snd hview
  have hnrtx : c'.stream.snd.nrtx = c₀.stream.snd.nrtx + 1 := (congrArg SndVar.nrtx hsnd :)
  have hrto : c'.stream.snd.rto = nextRto c₀.stream := (congrArg SndVar.rto hsnd :)
  have hrcv : c'.stream.rcv = c₀.stream.rcv := (congrArg Stream.rcv hview :)
  have hcount := h₀.nrtx
  refine ⟨by rw [hstate]; exact h₀.state, ?_, ?_, by rw [hrcv]; exact h₀.estimate⟩
  · rw [hnrtx]
    bv_omega
  · rw [hrto]
    exact h₀.toNat_nextRto hk

/-- Where a run of timeouts leads. -/
theorem TimedOut.run {d : Conn ρ} {sockets : List Bool} (h : TimedOut b 0 c)
    (hrun : Run TimeoutStep c sockets d) : TimedOut b sockets.length d := by
  refine hrun.history_invariant (fun sockets => TimedOut b sockets.length) h ?_
  intro sockets t socket u ht hstep
  rw [List.length_append, List.length_singleton]
  exact ht.step hstep

/-- **Backoff.** In a run of timeouts from a stream with `nrtx` 0 and `rto` as estimated, the timeout never
drops if and only if the last backoff fits in 32 bits or the estimate is a power of two. -/
theorem backoff_monotone_iff {d : Conn ρ} {sockets : List Bool}
    (hstate : TcpState.established.code ≤ c.stream.state.code) (hnrtx : c.stream.snd.nrtx = 0)
    (hrto : c.stream.snd.rto = rtoValue c.stream.rcv) (hpos : 0 < c.stream.snd.rto)
    (hrun : Run TimeoutStep c sockets d) :
    BackoffMonotone (rtoValue c.stream.rcv).toNat c sockets ↔
      backedOff (rtoValue c.stream.rcv).toNat sockets.length < 2 ^ 32 ∨
        ∃ j, (rtoValue c.stream.rcv).toNat = 2 ^ j := by
  have hb : 0 < (rtoValue c.stream.rcv).toNat := by
    rw [← hrto]
    exact BitVec.lt_def.mp hpos
  have hstart : TimedOut (rtoValue c.stream.rcv).toNat 0 c :=
    ⟨hstate, by rw [hnrtx]; rfl, by rw [hrto, rtoAfter], rfl⟩
  rw [← rtoAfter_mono_iff hb (rtoValue c.stream.rcv).isLt]
  constructor
  · intro hmono k hk
    -- the run is cut at its timeout `k + 1`
    have hcut : sockets = sockets.take k ++ sockets.get ⟨k, hk⟩ :: sockets.drop (k + 1) := by
      rw [List.get_eq_getElem, List.getElem_cons_drop, List.take_append_drop]
    have hlen : (sockets.take k).length = k := List.length_take_of_le hk.le
    rw [hcut] at hrun
    obtain ⟨t, hpre, hrest⟩ := Run.append_iff.mp hrun
    obtain ⟨u, hstep, -⟩ := (@Run.append_iff _ _ TimeoutStep t d [_] _).mp hrest
    have ht := hstart.run hpre
    have hu := ht.step (Run.single_iff.mp hstep)
    rw [hlen] at ht hu
    rw [← ht.rto, ← hu.rto]
    exact (hmono _ _ _ t u hcut hpre (Run.single_iff.mp hstep)).1
  · rintro hmono pre socket post t u rfl hpre hstep
    have ht := hstart.run hpre
    have hu := ht.step hstep
    constructor
    · rw [BitVec.le_def, ht.rto, hu.rto]
      exact hmono pre.length (by simp)
    · intro hrepr
      rw [hu.rto, rtoAfter_of_lt hb hrepr]

/-- An established stream whose peer has fallen silent. -/
def timingOut (rttvar : U32) : Conn Unit where
  tcp := default
  log := []
  stream :=
    { (default : Stream Unit) with
      state := .established
      snd := { (default : SndVar) with mss := 1460, rto := rttvar, sndbuf := some twentyBytes }
      rcv := { (default : RcvVar Unit) with rttvar := rttvar } }

/-- An established stream with a retransmission left can time out, and sends again. -/
theorem exists_timeoutStep (hlisted : c.Listed) (hstate : c.stream.state = .established)
    (hbuf : c.stream.snd.sndbuf ≠ none) (hleft : c.stream.snd.nrtx < tcpMaxRtx) (socket : Bool) :
    ∃ c', TimeoutStep c socket c' ∧ Resends (c.mod countTimeout) c' := by
  have hcounted : (c.mod countTimeout).Listed := ⟨hlisted.send, hlisted.control⟩
  obtain ⟨c', hresend, hresends⟩ := rtoResend_resends hcounted hbuf
  refine ⟨c', ⟨c, .refl c, ?_⟩, hresends⟩
  refine (if_pos hleft).trans ((rtoRetry_eq c socket).trans ?_)
  rw [hstate, if_neg (by decide), if_pos (by decide)]
  exact hresend

theorem timingOut_step (rttvar : U32) : ∃ c', TimeoutStep (timingOut rttvar) true c' ∧
    Resends ((timingOut rttvar).mod countTimeout) c' :=
  exists_timeoutStep ⟨rfl, rfl⟩ rfl (Option.some_ne_none _) (show (0 : U8) < tcpMaxRtx by decide) true

/-- Two timeouts from an estimate of 300. -/
theorem backoff_monotone_two : BackoffMonotone 300 (timingOut 300) [true, true] := by
  obtain ⟨c₁, hfirst, hresends⟩ := timingOut_step 300
  have hstate : c₁.stream.state = .established := (congrArg Stream.state hresends.stream :)
  have hsnd := congrArg Stream.snd hresends.stream
  have hbuf : c₁.stream.snd.sndbuf = some twentyBytes := (congrArg SndVar.sndbuf hsnd :)
  have hnrtx : c₁.stream.snd.nrtx = 1 := (congrArg SndVar.nrtx hsnd :)
  obtain ⟨c₂, hsecond, -⟩ := exists_timeoutStep hresends.listed hstate
    (by rw [hbuf]; exact Option.some_ne_none _) (by rw [hnrtx]; decide) true
  exact (backoff_monotone_iff (by decide) rfl rfl (by decide) ((Run.single hfirst).snoc hsecond)).mpr
    (.inl (by decide))

/-- From an estimate of `3 * 2 ^ 30`: the first timeout shifts the upper bit out. -/
theorem backoff_drops :
    ¬∀ (c d : Conn Unit) (sockets : List Bool),
      TcpState.established.code ≤ c.stream.state.code → c.stream.snd.nrtx = 0 →
      c.stream.snd.rto = rtoValue c.stream.rcv → 0 < c.stream.snd.rto →
      Run TimeoutStep c sockets d →
        BackoffMonotone (rtoValue c.stream.rcv).toNat c sockets := by
  intro h
  obtain ⟨c', hstep, -⟩ := timingOut_step 3221225472
  have hstart : TimedOut 3221225472 0 (timingOut 3221225472) := ⟨by decide, rfl, rfl, rfl⟩
  have hdrop := (h (timingOut 3221225472) c' [true] (by decide) rfl rfl (by decide)
    (.single hstep) [] true [] (timingOut 3221225472) c' rfl .nil hstep).1
  rw [BitVec.le_def, (hstart.step hstep).rto] at hdrop
  exact absurd hdrop (by decide)

end Runs

end CmtTcp
