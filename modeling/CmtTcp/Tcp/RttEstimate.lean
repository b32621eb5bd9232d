import CmtTcp.Lib.Run
import CmtTcp.Tcp.Ack

/-!
# The round-trip estimate

`cmt_tcp_estimate_rtt` keeps eight times the smoothed round-trip time in `srtt`, and the mean deviation in
`mdev`, `mdev_max` and `rttvar`, all of them in 32 bits. `cmt_tcp_process_ack` takes `rto` from `srtt` and
`rttvar`, and asserts that it is positive.

A run is a list of samples. What happens to the connection between two of them is left open, as long as
it does not write the variables of the estimate and keeps a positive `rto` positive (`Conn.KeepsRtt`).

* `rto_never_zero`: the timeout is positive after every sample of a run in which no sum of the estimate is
  exactly `2 ^ 32`;
* `run_fits_of_small`: so it is in every run of samples below `2 ^ 29`;
* `smoothed_within_iff`: `srtt` moves by 3 with every sample, so it stays within them only as long as
  there are few.
-/

namespace CmtTcp

open Lib (Outcome Run Guarded)

variable {ρ : Type}

/-! ### Samples -/

/-- `m` at the beginning of `cmt_tcp_estimate_rtt`: a sample of 0 counts as 1. -/
def sampleTicks (mrtt : U32) : ℤ := if mrtt = 0 then 1 else mrtt.toNat

/-- What `cmt_tcp_process_ack` stores in `rto`. -/
def rtoValue (rcv : RcvVar ρ) : U32 := (rcv.srtt >>> 3) + rcv.rttvar

/-- A sample in `cmt_tcp_process_ack`, up to its assertion. -/
def sampleRto (c : Conn ρ) (mrtt : U32) : Conn ρ :=
  let c := estimateRtt c mrtt
  c.modSnd fun snd => { snd with rto := rtoValue c.stream.rcv }

/-- Nothing is measured between `c` and `c'`. -/
structure Conn.KeepsRtt (c c' : Conn ρ) : Prop where
  srtt : c'.stream.rcv.srtt = c.stream.rcv.srtt
  mdev : c'.stream.rcv.mdev = c.stream.rcv.mdev
  mdevMax : c'.stream.rcv.mdevMax = c.stream.rcv.mdevMax
  rttvar : c'.stream.rcv.rttvar = c.stream.rcv.rttvar
  rto : 0 < c.stream.snd.rto → 0 < c'.stream.snd.rto

/-- The next sample. -/
def SampleStep (c : Conn ρ) (mrtt : U32) (c' : Conn ρ) : Prop :=
  ∃ c₀, c.KeepsRtt c₀ ∧ c' = sampleRto c₀ mrtt

theorem Conn.KeepsRtt.refl (c : Conn ρ) : c.KeepsRtt c := ⟨rfl, rfl, rfl, rfl, id⟩

theorem updateRto_eq (c : Conn ρ) (curTs : U32) :
    updateRto c curTs =
      if c.stream.sawTimestamp then
        let c := sampleRto c (curTs - c.stream.rcv.tsLastackRcvd)
        if c.stream.snd.rto > 0 then .ok c else .error .assertRto
      else .ok c :=
  rfl

section Estimate

variable {c : Conn ρ} {mrtt : U32}

theorem sampleTicks_pos (mrtt : U32) : 1 ≤ sampleTicks mrtt ∧ sampleTicks mrtt < 2 ^ 32 := by
  unfold sampleTicks
  split
  · exact ⟨by decide, by decide⟩
  · next h => constructor <;> bv_omega

/-- The first sample. -/
theorem estimateRtt_first (h : c.stream.rcv.srtt = 0) :
    (estimateRtt c mrtt).stream.rcv.srtt = BitVec.ofInt 32 (sampleTicks mrtt * 8) ∧
      (estimateRtt c mrtt).stream.rcv.mdev = BitVec.ofInt 32 (sampleTicks mrtt * 2) ∧
      (estimateRtt c mrtt).stream.rcv.mdevMax = BitVec.ofInt 32 (sampleTicks mrtt * 2) ∧
      (estimateRtt c mrtt).stream.rcv.rttvar = BitVec.ofInt 32 (sampleTicks mrtt * 2) := by
  unfold estimateRtt Conn.modRcv Conn.mod
  dsimp only
  rw [if_neg (not_not.mpr h)]
  exact ⟨rfl, rfl, rfl, rfl⟩

/-- `mdev_max` and `rttvar` follow `mdev` up. -/
def raiseMdevMax (rcv : RcvVar ρ) : RcvVar ρ :=
  if rcv.mdev > rcv.mdevMax then
    { rcv with
      mdevMax := rcv.mdev
      rttvar := if rcv.mdev > rcv.rttvar then rcv.mdev else rcv.rttvar }
  else rcv

/-- Once a round trip `rttvar` comes down to `mdev_max`. -/
def closeRound (sndUna sndNxt : U32) (rcv : RcvVar ρ) : RcvVar ρ :=
  if tcpSeqGt sndUna rcv.rttSeq then
    { rcv with
      rttvar :=
        if rcv.mdevMax < rcv.rttvar then rcv.rttvar - (rcv.rttvar - rcv.mdevMax) else rcv.rttvar
      rttSeq := sndNxt
      mdevMax := 0 }
  else rcv

/-- Every other sample, in its three stages. -/
theorem estimateRtt_next (h : c.stream.rcv.srtt ≠ 0) :
    (estimateRtt c mrtt).stream.rcv =
      closeRound c.stream.snd.sndUna c.stream.sndNxt (raiseMdevMax
        { c.stream.rcv with
          srtt := c.stream.rcv.srtt + 3
          mdev := c.stream.rcv.mdev +
            BitVec.ofInt 32 (rttDeviation c.stream.rcv (sampleTicks mrtt)) }) :=
  if_pos h

@[simp] theorem raiseMdevMax_srtt (rcv : RcvVar ρ) : (raiseMdevMax rcv).srtt = rcv.srtt := by
  unfold raiseMdevMax
  split <;> rfl

@[simp] theorem raiseMdevMax_mdev (rcv : RcvVar ρ) : (raiseMdevMax rcv).mdev = rcv.mdev := by
  unfold raiseMdevMax
  split <;> rfl

@[simp] theorem closeRound_srtt (sndUna sndNxt : U32) (rcv : RcvVar ρ) :
    (closeRound sndUna sndNxt rcv).srtt = rcv.srtt := by
  unfold closeRound
  split <;> rfl

@[simp] theorem closeRound_mdev (sndUna sndNxt : U32) (rcv : RcvVar ρ) :
    (closeRound sndUna sndNxt rcv).mdev = rcv.mdev := by
  unfold closeRound
  split <;> rfl

theorem raiseMdevMax_cases (rcv : RcvVar ρ) :
    rcv.mdev ≤ (raiseMdevMax rcv).mdevMax ∧
      ((raiseMdevMax rcv).mdevMax = rcv.mdevMax ∨ (raiseMdevMax rcv).mdevMax = rcv.mdev) ∧
      ((raiseMdevMax rcv).rttvar = rcv.rttvar ∨ (raiseMdevMax rcv).rttvar = rcv.mdev) := by
  unfold raiseMdevMax
  split
  · refine ⟨BitVec.le_refl _, .inr rfl, ?_⟩
    dsimp only
    split
    · exact .inr rfl
    · exact .inl rfl
  · next hle => exact ⟨BitVec.not_lt.mp hle, .inl rfl, .inl rfl⟩

theorem closeRound_cases (sndUna sndNxt : U32) (rcv : RcvVar ρ) :
    ((closeRound sndUna sndNxt rcv).mdevMax = rcv.mdevMax ∨
        (closeRound sndUna sndNxt rcv).mdevMax = 0) ∧
      ((closeRound sndUna sndNxt rcv).rttvar = rcv.rttvar ∨
        (closeRound sndUna sndNxt rcv).rttvar = rcv.mdevMax) := by
  unfold closeRound
  split
  · refine ⟨.inr rfl, ?_⟩
    dsimp only
    split
    · exact .inr (by bv_omega)
    · exact .inl rfl
  · exact ⟨.inl rfl, .inl rfl⟩

/-- What the variables can be after it. The deviation in `rttvar` is the old one, the new `mdev`, or a
`mdev_max` that is not below it. -/
theorem estimateRtt_next_cases (h : c.stream.rcv.srtt ≠ 0) {mdev : U32}
    (hmdev : c.stream.rcv.mdev +
      BitVec.ofInt 32 (rttDeviation c.stream.rcv (sampleTicks mrtt)) = mdev) :
    (estimateRtt c mrtt).stream.rcv.srtt = c.stream.rcv.srtt + 3 ∧
      (estimateRtt c mrtt).stream.rcv.mdev = mdev ∧
      ((estimateRtt c mrtt).stream.rcv.mdevMax = c.stream.rcv.mdevMax ∨
        (estimateRtt c mrtt).stream.rcv.mdevMax = mdev ∨
        (estimateRtt c mrtt).stream.rcv.mdevMax = 0) ∧
      ((estimateRtt c mrtt).stream.rcv.rttvar = c.stream.rcv.rttvar ∨
        (estimateRtt c mrtt).stream.rcv.rttvar = mdev ∨
        ((estimateRtt c mrtt).stream.rcv.rttvar = c.stream.rcv.mdevMax ∧
          mdev ≤ c.stream.rcv.mdevMax)) := by
  rw [estimateRtt_next h, hmdev]
  -- the receive variables with the new `srtt` and `mdev`
  generalize hrcv : RcvVar.mk _ _ _ _ _ _ _ _ _ _ _ _ _ _ _ _ = rcv
  have hsrtt : rcv.srtt = c.stream.rcv.srtt + 3 := by rw [← hrcv]
  have hmdev' : rcv.mdev = mdev := by rw [← hrcv]
  have hmax : rcv.mdevMax = c.stream.rcv.mdevMax := by rw [← hrcv]
  have hvar : rcv.rttvar = c.stream.rcv.rttvar := by rw [← hrcv]
  obtain ⟨hle, hmax', hvar'⟩ := raiseMdevMax_cases rcv
  obtain ⟨hmax'', hvar''⟩ :=
    closeRound_cases c.stream.snd.sndUna c.stream.sndNxt (raiseMdevMax rcv)
  rw [closeRound_srtt, raiseMdevMax_srtt, closeRound_mdev, raiseMdevMax_mdev]
  rw [hmdev', hmax] at hmax'
  rw [hmdev', hvar] at hvar'
  rw [hmdev'] at hle
  refine ⟨hsrtt, hmdev', ?_, ?_⟩
  · rcases hmax'' with heq | heq
    · rw [heq]
      exact hmax'.imp id .inl
    · exact .inr (.inr heq)
  · rcases hvar'' with heq | heq
    · rw [heq]
      exact hvar'.imp id .inl
    · rw [heq]
      rcases hmax' with hold | hnew
      · exact .inr (.inr ⟨hold, hold ▸ hle⟩)
      · exact .inr (.inl hnew)

/-! ### The deviation -/

theorem word_pos_iff {x : U32} : 0 < x ↔ 0 < x.toNat := BitVec.lt_def

theorem toNat_eighth (x : U32) : (x >>> 3).toNat = x.toNat / 8 := by
  rw [BitVec.toNat_ushiftRight, Nat.shiftRight_eq_div_pow]

theorem toNat_quarter (x : U32) : (x >>> 2).toNat = x.toNat / 4 := by
  rw [BitVec.toNat_ushiftRight, Nat.shiftRight_eq_div_pow]

theorem rttDeviation_eq (rcv : RcvVar ρ) (m : ℤ) :
    rttDeviation rcv m =
      let diff := m - (rcv.srtt.toNat / 8 : ℕ)
      let quarter : ℕ := rcv.mdev.toNat / 4
      if diff < 0 then if -diff - quarter > 0 then (-diff - quarter) / 8 else -diff - quarter
      else diff - quarter := by
  unfold rttDeviation
  rw [toNat_eighth, toNat_quarter]

/-- From samples below `2 ^ 29`, `mdev` never gets above `2 ^ 31`. -/
theorem rttDeviation_small (rcv : RcvVar ρ) {m : ℤ} (hm : 0 ≤ m) (hlt : m < 2 ^ 29)
    (hmdev : rcv.mdev.toNat ≤ 2 ^ 31) :
    rcv.mdev.toNat + rttDeviation rcv m ≤ 2 ^ 31 := by
  have hsrtt := rcv.srtt.isLt
  rw [rttDeviation_eq]
  dsimp only
  split
  · split <;> omega
  · omega

theorem toNat_mdev (rcv : RcvVar ρ) (m : ℤ) :
    ((rcv.mdev + BitVec.ofInt 32 (rttDeviation rcv m)).toNat : ℤ) =
      (rcv.mdev.toNat + rttDeviation rcv m) % 2 ^ 32 := by
  rw [BitVec.toNat_add, BitVec.toNat_ofInt]
  omega

/-- `mdev` after a sample that is not below the smoothed time. -/
def grownMdev (rcv : RcvVar ρ) (mrtt : U32) : ℤ :=
  rcv.mdev.toNat - (rcv.mdev.toNat / 4 : ℕ) + (sampleTicks mrtt - (rcv.srtt.toNat / 8 : ℕ))

/-- A sample below the smoothed time leaves three quarters of `mdev`, and adds too little to leave 32
bits. -/
theorem mdev_cases (rcv : RcvVar ρ) (mrtt : U32) :
    (rcv.mdev.toNat - (rcv.mdev.toNat / 4 : ℕ) ≤ grownMdev rcv mrtt ∧
        rcv.mdev.toNat + rttDeviation rcv (sampleTicks mrtt) = grownMdev rcv mrtt) ∨
      (rcv.mdev.toNat - (rcv.mdev.toNat / 4 : ℕ) ≤
          rcv.mdev.toNat + rttDeviation rcv (sampleTicks mrtt) ∧
        rcv.mdev.toNat + rttDeviation rcv (sampleTicks mrtt) < 7 * 2 ^ 29) := by
  obtain ⟨hm, -⟩ := sampleTicks_pos mrtt
  have hsrtt := rcv.srtt.isLt
  have hmdev := rcv.mdev.isLt
  unfold grownMdev
  rw [rttDeviation_eq]
  dsimp only
  split
  · refine .inr ?_
    split <;> omega
  · refine .inl ?_
    omega

/-! ### When the timeout is positive -/

/-- With this sample, none of the sums of the estimate is `2 ^ 32`, which is 0 in 32 bits. -/
structure SampleFits (rcv : RcvVar ρ) (mrtt : U32) : Prop where
  first : rcv.srtt = 0 → mrtt ≠ 2147483648
  mdev : rcv.srtt ≠ 0 → grownMdev rcv mrtt ≠ 2 ^ 32
  rto : rcv.srtt ≠ 0 → ∀ var : ℤ,
    var = rcv.rttvar.toNat ∨ var = rcv.mdevMax.toNat ∨ var = grownMdev rcv mrtt →
      ((rcv.srtt + 3).toNat / 8 : ℕ) + var ≠ 2 ^ 32

/-- Once there was a sample, the deviations are positive. -/
structure RttPositive (rcv : RcvVar ρ) : Prop where
  mdev : rcv.srtt ≠ 0 → 0 < rcv.mdev
  rttvar : rcv.srtt ≠ 0 → 0 < rcv.rttvar

/-- The new `mdev` is not 0, and does not make the timeout 0. -/
theorem SampleFits.mdev_pos {rcv : RcvVar ρ} (h : SampleFits rcv mrtt) (hsrtt : rcv.srtt ≠ 0)
    (hmdev : 0 < rcv.mdev) :
    0 < rcv.mdev + BitVec.ofInt 32 (rttDeviation rcv (sampleTicks mrtt)) ∧
      (rcv.srtt + 3).toNat / 8 +
        (rcv.mdev + BitVec.ofInt 32 (rttDeviation rcv (sampleTicks mrtt))).toNat ≠ 2 ^ 32 := by
  have hgrown := h.mdev hsrtt
  have hrto := h.rto hsrtt (grownMdev rcv mrtt) (.inr (.inr rfl))
  have hnat := toNat_mdev rcv (sampleTicks mrtt)
  have hnext := (rcv.srtt + 3).isLt
  have hmax := rcv.mdev.isLt
  have hticks := (sampleTicks_pos mrtt).2
  rw [word_pos_iff] at hmdev ⊢
  rcases mdev_cases rcv mrtt with ⟨hle, heq⟩ | ⟨hle, hlt⟩
  · rw [heq] at hnat
    have hmore : grownMdev rcv mrtt < 7 * 2 ^ 30 := by
      unfold grownMdev
      omega
    omega
  · omega

theorem rtoValue_pos {rcv : RcvVar ρ}
    (h : rcv.srtt.toNat / 8 + rcv.rttvar.toNat ≠ 2 ^ 32) (hpos : 0 < rcv.rttvar) :
    0 < rtoValue rcv := by
  have hsrtt := rcv.srtt.isLt
  have hvar := rcv.rttvar.isLt
  rw [word_pos_iff] at hpos ⊢
  unfold rtoValue
  rw [BitVec.toNat_add, toNat_eighth]
  omega

/-- An eighth of `8 * t` and twice `t`, both in 32 bits, do not add up to `2 ^ 32`. -/
theorem first_sum_ne (t : ℤ) :
    (t * 8 % 2 ^ 32).toNat / 8 + (t * 2 % 2 ^ 32).toNat ≠ 2 ^ 32 := by
  -- 29 bits of `t` are in both of them, the next two in the second one only
  have height : (t * 8 % 2 ^ 32).toNat / 8 = (t % 2 ^ 29).toNat := by omega
  have htwo : (t * 2 % 2 ^ 32).toNat =
      2 * (t % 2 ^ 29).toNat + 2 ^ 30 * (t / 2 ^ 29 % 4).toNat := by omega
  rw [height, htwo]
  have hlow : (t % 2 ^ 29).toNat < 2 ^ 29 := by omega
  have hhigh : (t / 2 ^ 29 % 4).toNat = 0 ∨ (t / 2 ^ 29 % 4).toNat = 1 ∨
      (t / 2 ^ 29 % 4).toNat = 2 ∨ (t / 2 ^ 29 % 4).toNat = 3 := by omega
  generalize (t % 2 ^ 29).toNat = low at hlow ⊢
  rcases hhigh with h | h | h | h
  all_goals
    rw [h]
    omega

/-- The first sample. -/
theorem estimateRtt_first_pos (hsrtt : c.stream.rcv.srtt = 0) (hfit : SampleFits c.stream.rcv mrtt) :
    RttPositive (estimateRtt c mrtt).stream.rcv ∧ 0 < rtoValue (estimateRtt c mrtt).stream.rcv := by
  obtain ⟨hsrtt', hmdev, -, hrttvar⟩ := @estimateRtt_first ρ c mrtt hsrtt
  obtain ⟨hm, hlt⟩ := sampleTicks_pos mrtt
  -- twice the sample is not 0 in 32 bits
  have hne : sampleTicks mrtt ≠ 2 ^ 31 := by
    have hfirst := hfit.first hsrtt
    unfold sampleTicks
    split
    · omega
    · bv_omega
  have hpos : 0 < BitVec.ofInt 32 (sampleTicks mrtt * 2) := by
    rw [word_pos_iff, BitVec.toNat_ofInt]
    omega
  have hvar : 0 < (estimateRtt c mrtt).stream.rcv.rttvar := by rwa [hrttvar]
  refine ⟨⟨fun _ => by rwa [hmdev], fun _ => hvar⟩, rtoValue_pos ?_ hvar⟩
  rw [hsrtt', hrttvar, BitVec.toNat_ofInt, BitVec.toNat_ofInt]
  exact first_sum_ne _

/-- Every other sample. -/
theorem estimateRtt_next_pos (hsrtt : c.stream.rcv.srtt ≠ 0) (hI : RttPositive c.stream.rcv)
    (hfit : SampleFits c.stream.rcv mrtt) :
    RttPositive (estimateRtt c mrtt).stream.rcv ∧ 0 < rtoValue (estimateRtt c mrtt).stream.rcv := by
  obtain ⟨hpos, hsum⟩ := hfit.mdev_pos hsrtt (hI.mdev hsrtt)
  have hrto := hfit.rto hsrtt
  have hold := hI.rttvar hsrtt
  obtain ⟨hsrtt', hmdev, -, hvar⟩ := estimateRtt_next_cases hsrtt rfl
  have hlast : 0 < (estimateRtt c mrtt).stream.rcv.rttvar ∧
      (c.stream.rcv.srtt + 3).toNat / 8 + (estimateRtt c mrtt).stream.rcv.rttvar.toNat ≠ 2 ^ 32 := by
    rcases hvar with heq | heq | ⟨heq, hle⟩
    · rw [heq]
      exact ⟨hold, fun h => hrto _ (.inl rfl) (by omega)⟩
    · rw [heq]
      exact ⟨hpos, hsum⟩
    · rw [heq]
      exact ⟨by bv_omega, fun h => hrto _ (.inr (.inl rfl)) (by omega)⟩
  refine ⟨⟨fun _ => by rwa [hmdev], fun _ => hlast.1⟩, rtoValue_pos ?_ hlast.1⟩
  rw [hsrtt']
  exact hlast.2

theorem estimateRtt_pos (hI : RttPositive c.stream.rcv) (hfit : SampleFits c.stream.rcv mrtt) :
    RttPositive (estimateRtt c mrtt).stream.rcv ∧ 0 < rtoValue (estimateRtt c mrtt).stream.rcv := by
  by_cases hsrtt : c.stream.rcv.srtt = 0
  · exact estimateRtt_first_pos hsrtt hfit
  · exact estimateRtt_next_pos hsrtt hI hfit

/-! ### Runs -/

/-- What a run keeps: the timeout is positive, and so are the deviations. -/
structure RtoPositive (c : Conn ρ) : Prop where
  rtt : RttPositive c.stream.rcv
  rto : 0 < c.stream.snd.rto

theorem RtoPositive.keepsRtt {c' : Conn ρ} (h : RtoPositive c) (hk : c.KeepsRtt c') :
    RtoPositive c' :=
  ⟨⟨by rw [hk.srtt, hk.mdev]; exact h.rtt.mdev, by rw [hk.srtt, hk.rttvar]; exact h.rtt.rttvar⟩,
    hk.rto h.rto⟩

theorem grownMdev_keepsRtt {c' : Conn ρ} (hk : c.KeepsRtt c') (mrtt : U32) :
    grownMdev c'.stream.rcv mrtt = grownMdev c.stream.rcv mrtt := by
  unfold grownMdev
  rw [hk.srtt, hk.mdev]

theorem SampleFits.keepsRtt {c' : Conn ρ} (h : SampleFits c.stream.rcv mrtt) (hk : c.KeepsRtt c') :
    SampleFits c'.stream.rcv mrtt where
  first := by
    rw [hk.srtt]
    exact h.first
  mdev := by
    rw [hk.srtt, grownMdev_keepsRtt hk]
    exact h.mdev
  rto := by
    rw [hk.srtt, hk.rttvar, hk.mdevMax, grownMdev_keepsRtt hk]
    exact h.rto

theorem sampleRto_positive (h : RtoPositive c) (hfit : SampleFits c.stream.rcv mrtt) :
    RtoPositive (sampleRto c mrtt) := by
  obtain ⟨hrtt, hrto⟩ := estimateRtt_pos h.rtt hfit
  exact ⟨hrtt, hrto⟩

/-- What a run of fitting samples keeps. -/
theorem run_rtoPositive {d : Conn ρ} {samples : List U32} (h : RtoPositive c)
    (hrun : Run (Guarded (fun c mrtt => SampleFits c.stream.rcv mrtt) SampleStep) c samples d) :
    RtoPositive d := by
  refine hrun.invariant RtoPositive h ?_
  rintro t mrtt u ht ⟨hfit, c₀, hk, rfl⟩
  exact sampleRto_positive (ht.keepsRtt hk) (hfit.keepsRtt hk)

/-! ### The assertions on `rto` -/

/-- What the assertions on `rto` depend on. -/
def Stream.rttView (s : Stream ρ) : U32 × U32 × U32 × U32 × U32 × Bool × U32 :=
  (s.rcv.srtt, s.rcv.mdev, s.rcv.mdevMax, s.rcv.rttvar, s.rcv.tsLastackRcvd, s.sawTimestamp,
    s.snd.rto)

/-- An acknowledgement with the clock at `curTs` brings no sample, or one that fits. -/
def AckFits (s : Stream ρ) (curTs : U32) : Prop :=
  s.sawTimestamp = true → SampleFits s.rcv (curTs - s.rcv.tsLastackRcvd)

/-- Where nothing in view has changed. -/
theorem rttView_positive {c' : Conn ρ} {curTs : U32} (h : c'.stream.rttView = c.stream.rttView)
    (hpos : RtoPositive c) (hfit : AckFits c.stream curTs) :
    RtoPositive c' ∧ AckFits c'.stream curTs := by
  simp only [Stream.rttView, Prod.mk.injEq] at h
  obtain ⟨hsrtt, hmdev, hmax, hvar, hts, hsaw, hrto⟩ := h
  have hk : c.KeepsRtt c' := ⟨hsrtt, hmdev, hmax, hvar, fun hp => by rwa [hrto]⟩
  refine ⟨hpos.keepsRtt hk, fun htrue => ?_⟩
  rw [hts]
  exact (hfit (hsaw ▸ htrue)).keepsRtt hk

theorem countDup_rttView (dup : Bool) (seg : Segment) (ackSeq : U32) (s : Stream ρ) :
    (countDup dup ackSeq (windowUpdate seg ackSeq s)).rttView = s.rttView := by
  unfold countDup windowUpdate
  split <;> split <;> rfl

/-- The first assertion. -/
theorem updateRto_positive {curTs : U32} (hpos : RtoPositive c) (hfit : AckFits c.stream curTs) :
    Outcome (updateRto c curTs) (· ≠ .assertRto) fun c' => 0 < c'.stream.snd.rto := by
  rw [updateRto_eq]
  refine Outcome.ite (fun hsaw => ?_) fun _ => hpos.rto
  have hrto := (sampleRto_positive hpos (hfit hsaw)).rto
  exact Outcome.ite (fun _ => hrto) fun hno => absurd hrto hno

/-- The second assertion. -/
theorem updateRetransmissionTimer_positive (hrto : 0 < c.stream.snd.rto) (curTs : U32) :
    Outcome (updateRetransmissionTimer c curTs) (· ≠ .assertRto) fun _ => True := by
  obtain ⟨c', hc'⟩ := (@updateRetransmissionTimer_ok_iff ρ c curTs).mpr hrto
  rw [hc']
  exact trivial

theorem ackRemoved_positive (hrto : 0 < c.stream.snd.rto) (buf : SendBuffer) (ret : U64)
    (ackSeq curTs : U32) :
    Outcome (ackRemoved c buf ret ackSeq curTs) (· ≠ .assertRto) fun _ => True := by
  unfold ackRemoved
  refine Outcome.ite (fun _ => trivial) fun _ => ?_
  exact updateRetransmissionTimer_positive (by exact hrto) curTs

/-- While the samples fit, no assertion on `rto` fails. -/
theorem processAck_positive (seg : Segment) {curTs : U32} (hpos : RtoPositive c)
    (hfit : AckFits c.stream curTs) :
    Outcome (processAck c seg curTs) (· ≠ .assertRto) fun _ => True := by
  have hnull : Abort.nullDeref ≠ .assertRto := by decide
  have hassert : ∀ e, e = Abort.assertZero → e ≠ .assertRto := by
    rintro _ rfl
    decide
  have hdiv : ∀ e, e = Abort.divZero → e ≠ .assertRto := by
    rintro _ rfl
    decide
  unfold processAck
  split
  · exact hnull
  · next buf _ =>
    refine Outcome.ite (fun _ => trivial) fun _ => ?_
    refine Outcome.bind ((answerDup_uncongested _ _ _).mono hassert fun _ h => h) fun c₁ h₁ => ?_
    refine Outcome.ite (fun _ => trivial) fun _ => ?_
    -- up to here nothing in view has changed
    have hview := (Stream.view_of_uncongested Stream.rttView (fun _ => rfl)
      ((raiseSndNxt_uncongested c₁ buf (ackSeqOf c.stream seg.ackSeq)).trans h₁)).trans
        (countDup_rttView _ seg _ c.stream)
    obtain ⟨hpos', hfit'⟩ := rttView_positive hview hpos hfit
    unfold ackRemove
    refine Outcome.ite (fun _ => Outcome.ite (fun _ => hdiv _ rfl) fun _ => ?_) fun _ => trivial
    refine Outcome.bind (updateRto_positive hpos' hfit') fun c₂ h₂ => ?_
    refine Outcome.bind ((growCwnd_uncongested c₂ _).mono hdiv fun _ h => h) fun c₃ h₃ => ?_
    have hrto : c₃.stream.snd.rto = c₂.stream.snd.rto :=
      Stream.view_of_uncongested (fun s => s.snd.rto) (fun _ => rfl) h₃
    exact ackRemoved_positive (by rwa [hrto]) _ _ _ _

/-- **The timeout is never zero** in a run from a new stream whose samples all fit: after each of them
`cmt_tcp_process_ack` has a positive value to store, and its assertions on `rto` hold. -/
theorem rto_never_zero {d : Conn ρ} {samples : List U32} (hsrtt : c.stream.rcv.srtt = 0)
    (hrto : c.stream.snd.rto = tcpInitialRto)
    (hrun : Run (Guarded (fun c mrtt => SampleFits c.stream.rcv mrtt) SampleStep) c samples d) :
    (samples ≠ [] → 0 < rtoValue d.stream.rcv) ∧
      ∀ (c₀ : Conn ρ) (seg : Segment) (curTs : U32), d.KeepsRtt c₀ → AckFits c₀.stream curTs →
        processAck c₀ seg curTs ≠ .error .assertRto := by
  have hnew : RtoPositive c :=
    ⟨⟨fun hne => absurd hsrtt hne, fun hne => absurd hsrtt hne⟩, by rw [hrto]; decide⟩
  have hd := run_rtoPositive hnew hrun
  constructor
  · intro hne
    cases hrun with
    | nil => exact absurd rfl hne
    | snoc hrun' hlast =>
      obtain ⟨hfit, c₀, hk, rfl⟩ := hlast
      have ht := (run_rtoPositive hnew hrun').keepsRtt hk
      exact (estimateRtt_pos ht.rtt (hfit.keepsRtt hk)).2
  · intro c₀ seg curTs hk hfit herr
    exact (processAck_positive seg (hd.keepsRtt hk) hfit).of_error herr rfl

/-- A stream as it starts. -/
def newStream : Conn Unit where
  tcp := default
  stream := { (default : Stream Unit) with snd := { (default : SndVar) with rto := tcpInitialRto } }
  log := []

/-- A first sample of 100, and a second one of 140. -/
theorem rto_never_zero_two :
    0 < rtoValue (sampleRto (sampleRto newStream 100) 140).stream.rcv := by
  have hfirst : SampleFits newStream.stream.rcv 100 :=
    ⟨fun _ => by decide, fun h => absurd rfl h, fun h => absurd rfl h⟩
  have hsecond : SampleFits (sampleRto newStream 100).stream.rcv 140 := by
    refine ⟨fun h => absurd h (by decide), fun _ => by decide, fun _ var hvar => ?_⟩
    rcases hvar with rfl | rfl | rfl
    · decide
    · decide
    · decide
  have hrun : Run (Guarded (fun c mrtt => SampleFits c.stream.rcv mrtt) SampleStep) newStream [100, 140]
      (sampleRto (sampleRto newStream 100) 140) :=
    (Run.single ⟨hfirst, newStream, .refl newStream, rfl⟩).snoc
      ⟨hsecond, sampleRto newStream 100, .refl _, rfl⟩
  exact (rto_never_zero rfl rfl hrun).1 (List.cons_ne_nil _ _)

/-- A first sample of `2 ^ 31`: eight times it and twice it are both 0 in 32 bits. -/
theorem rto_zero :
    ¬∀ (c d : Conn Unit) (samples : List U32), c.stream.rcv.srtt = 0 →
      c.stream.snd.rto = tcpInitialRto → Run SampleStep c samples d →
      (samples ≠ [] → 0 < rtoValue d.stream.rcv) ∧
        ∀ (c₀ : Conn Unit) (seg : Segment) (curTs : U32), d.KeepsRtt c₀ →
          processAck c₀ seg curTs ≠ .error .assertRto := by
  intro h
  have hpos := (h newStream (sampleRto newStream 2147483648) [2147483648] rfl rfl
    (.single ⟨newStream, .refl newStream, rfl⟩)).1 (List.cons_ne_nil _ _)
  have hzero : rtoValue (sampleRto newStream 2147483648).stream.rcv = 0 := by decide
  rw [hzero] at hpos
  exact absurd hpos (by decide)

/-! ### Samples below `2 ^ 29` -/

/-- The deviations are at most `2 ^ 31`. -/
structure SmallDeviations (rcv : RcvVar ρ) : Prop where
  mdev : rcv.srtt ≠ 0 → rcv.mdev.toNat ≤ 2 ^ 31
  mdevMax : rcv.srtt ≠ 0 → rcv.mdevMax.toNat ≤ 2 ^ 31
  rttvar : rcv.srtt ≠ 0 → rcv.rttvar.toNat ≤ 2 ^ 31

theorem sampleTicks_small (hlt : mrtt.toNat < 2 ^ 29) : sampleTicks mrtt < 2 ^ 29 := by
  unfold sampleTicks
  split <;> omega

theorem SmallDeviations.fits {rcv : RcvVar ρ} (h : SmallDeviations rcv)
    (hlt : mrtt.toNat < 2 ^ 29) : SampleFits rcv mrtt := by
  have hticks := sampleTicks_small hlt
  have hsrtt := (rcv.srtt + 3).isLt
  have hgrown : rcv.srtt ≠ 0 → grownMdev rcv mrtt ≤ 2 ^ 31 := by
    intro hne
    have hmdev := h.mdev hne
    unfold grownMdev
    omega
  refine ⟨fun _ heq => ?_, fun hne => ?_, fun hne var hvar => ?_⟩
  · rw [heq] at hlt
    exact absurd hlt (by decide)
  · have := hgrown hne
    omega
  · have hg := hgrown hne
    have hm := h.mdevMax hne
    have hv := h.rttvar hne
    rcases hvar with rfl | rfl | rfl <;> omega

theorem estimateRtt_small (h : SmallDeviations c.stream.rcv) (hlt : mrtt.toNat < 2 ^ 29) :
    SmallDeviations (estimateRtt c mrtt).stream.rcv := by
  have hticks := sampleTicks_small hlt
  obtain ⟨hm, -⟩ := sampleTicks_pos mrtt
  by_cases hsrtt : c.stream.rcv.srtt = 0
  · obtain ⟨-, hmdev, hmax, hvar⟩ := @estimateRtt_first ρ c mrtt hsrtt
    have hle : (BitVec.ofInt 32 (sampleTicks mrtt * 2)).toNat ≤ 2 ^ 31 := by
      rw [BitVec.toNat_ofInt]
      omega
    exact ⟨fun _ => by rwa [hmdev], fun _ => by rwa [hmax], fun _ => by rwa [hvar]⟩
  · -- the new `mdev` is not above `2 ^ 31`, and 0 is not either
    generalize hnew : c.stream.rcv.mdev +
      BitVec.ofInt 32 (rttDeviation c.stream.rcv (sampleTicks mrtt)) = mdev
    have hle : mdev.toNat ≤ 2 ^ 31 := by
      have hnat := toNat_mdev c.stream.rcv (sampleTicks mrtt)
      have hsmall := rttDeviation_small c.stream.rcv (by omega) hticks (h.mdev hsrtt)
      have hcases := mdev_cases c.stream.rcv mrtt
      rw [hnew] at hnat
      omega
    obtain ⟨-, hmdev, hmax, hvar⟩ := estimateRtt_next_cases hsrtt hnew
    refine ⟨fun _ => by rwa [hmdev], fun _ => ?_, fun _ => ?_⟩
    · rcases hmax with heq | heq | heq
      · rw [heq]
        exact h.mdevMax hsrtt
      · rwa [heq]
      · rw [heq]
        exact Nat.zero_le _
    · rcases hvar with heq | heq | ⟨heq, -⟩
      · rw [heq]
        exact h.rttvar hsrtt
      · rwa [heq]
      · rw [heq]
        exact h.mdevMax hsrtt

theorem SmallDeviations.keepsRtt {c' : Conn ρ} (h : SmallDeviations c.stream.rcv)
    (hk : c.KeepsRtt c') : SmallDeviations c'.stream.rcv :=
  ⟨by rw [hk.srtt, hk.mdev]; exact h.mdev, by rw [hk.srtt, hk.mdevMax]; exact h.mdevMax,
    by rw [hk.srtt, hk.rttvar]; exact h.rttvar⟩

/-- Samples below `2 ^ 29` fit, however many there are. -/
theorem run_fits_of_small {d : Conn ρ} {samples : List U32} (hsrtt : c.stream.rcv.srtt = 0)
    (hrun : Run SampleStep c samples d) (hsmall : ∀ mrtt ∈ samples, mrtt.toNat < 2 ^ 29) :
    Run (Guarded (fun c mrtt => SampleFits c.stream.rcv mrtt) SampleStep) c samples d ∧
      SmallDeviations d.stream.rcv := by
  induction hrun with
  | nil =>
    exact ⟨.nil, fun hne => absurd hsrtt hne, fun hne => absurd hsrtt hne,
      fun hne => absurd hsrtt hne⟩
  | snoc _ hlast ih =>
    obtain ⟨hrun', ht⟩ := ih fun mrtt hmem => hsmall mrtt (List.mem_append_left _ hmem)
    have hlt := hsmall _ (List.mem_append_right _ (List.mem_singleton_self _))
    refine ⟨hrun'.snoc ⟨ht.fits hlt, hlast⟩, ?_⟩
    obtain ⟨c₀, hk, rfl⟩ := hlast
    exact estimateRtt_small (ht.keepsRtt hk) hlt

/-! ### The smoothed time -/

/-- `srtt` is at least 1, and an eighth of it at most `M`. -/
def SmoothedWithin (M : ℕ) (rcv : RcvVar ρ) : Prop := 1 ≤ rcv.srtt.toNat ∧ rcv.srtt.toNat ≤ 8 * M

/-- A connection can take any samples. -/
theorem exists_run (c : Conn ρ) (samples : List U32) : ∃ d, Run SampleStep c samples d := by
  induction samples using List.reverseRecOn with
  | nil => exact ⟨c, .nil⟩
  | append_singleton samples mrtt ih =>
    obtain ⟨d, hrun⟩ := ih
    exact ⟨_, hrun.snoc ⟨d, .refl d, rfl⟩⟩

/-- Every sample after the first one adds 3, whatever it is. -/
theorem run_srtt {d : Conn ρ} {rest : List U32} (hsrtt : c.stream.rcv.srtt = 0)
    (hrun : Run SampleStep c (mrtt :: rest) d)
    (hlt : 8 * max mrtt.toNat 1 + 3 * rest.length < 2 ^ 32) :
    d.stream.rcv.srtt.toNat = 8 * max mrtt.toNat 1 + 3 * rest.length := by
  induction rest using List.reverseRecOn generalizing d with
  | nil =>
    obtain ⟨u, hnil, c₀, hk, rfl⟩ := (@Run.snoc_iff _ _ SampleStep c d [] mrtt).mp hrun
    obtain rfl := Run.nil_iff.mp hnil
    change (estimateRtt c₀ mrtt).stream.rcv.srtt.toNat = _
    rw [(estimateRtt_first (hk.srtt.trans hsrtt)).1, BitVec.toNat_ofInt]
    unfold sampleTicks
    rw [List.length_nil] at hlt ⊢
    split
    · next hzero =>
      rw [hzero]
      rfl
    · bv_omega
  | append_singleton rest m ih =>
    rw [List.length_append, List.length_singleton] at hlt ⊢
    rw [← List.cons_append] at hrun
    obtain ⟨u, hrun', c₀, hk, rfl⟩ := Run.snoc_iff.mp hrun
    have hu := ih hrun' (by omega)
    have hne : c₀.stream.rcv.srtt ≠ 0 := by
      rw [hk.srtt]
      bv_omega
    change (estimateRtt c₀ m).stream.rcv.srtt.toNat = _
    rw [(estimateRtt_next_cases hne rfl).1, hk.srtt, BitVec.toNat_add, hu]
    change (_ + 3) % 2 ^ 32 = _
    omega

/-- **The smoothed time stays within the samples** if and only if the samples after the first one, 3 for
each of them, do not carry it beyond their bound. -/
theorem smoothed_within_iff {M : ℕ} {rest : List U32} (hM : 1 ≤ M) (hM' : M < 2 ^ 28)
    (hsrtt : c.stream.rcv.srtt = 0) (hall : ∀ m ∈ mrtt :: rest, m.toNat ≤ M) :
    (∀ samples d, samples ≠ [] → samples <+: mrtt :: rest → Run SampleStep c samples d →
        SmoothedWithin M d.stream.rcv) ↔
      8 * max mrtt.toNat 1 + 3 * rest.length ≤ 8 * M := by
  have hfirst : mrtt.toNat ≤ M := hall mrtt (List.mem_cons_self)
  constructor
  · intro h
    by_contra hover
    -- the first call that carries `srtt` beyond the bound
    let k := (8 * M - 8 * max mrtt.toNat 1) / 3 + 1
    have hk : k ≤ rest.length := by omega
    obtain ⟨d, hrun⟩ := exists_run c (mrtt :: rest.take k)
    have hlen : (rest.take k).length = k := List.length_take_of_le hk
    have hd := run_srtt hsrtt hrun (by omega)
    have hle := (h _ d (List.cons_ne_nil _ _)
      ((List.cons_prefix_cons.mpr ⟨rfl, List.take_prefix k rest⟩)) hrun).2
    omega
  · rintro hbound samples d hne hpre hrun
    cases samples with
    | nil => exact absurd rfl hne
    | cons m pre =>
      obtain rfl : m = mrtt := (List.cons_prefix_cons.mp hpre).1
      have hlen : pre.length ≤ rest.length := (List.cons_prefix_cons.mp hpre).2.length_le
      have hd := run_srtt hsrtt hrun (by omega)
      unfold SmoothedWithin
      omega

/-- A first sample of 40 below a bound of 100. -/
theorem smoothed_within_hundred :
    ∃ d, Run SampleStep newStream [40, 100, 0, 7] d ∧ SmoothedWithin 100 d.stream.rcv := by
  obtain ⟨d, hrun⟩ := exists_run newStream [40, 100, 0, 7]
  have hall : ∀ m ∈ ([40, 100, 0, 7] : List U32), m.toNat ≤ 100 := by simp
  exact ⟨d, hrun, (smoothed_within_iff (by decide) (by decide) rfl hall).mpr (by decide) _ d
    (List.cons_ne_nil _ _) List.prefix_rfl hrun⟩

/-- Two samples of 1 make `srtt` 11. -/
theorem smoothed_drifts :
    ¬∀ (M : ℕ) (c d : Conn Unit) (samples : List U32), 1 ≤ M → M < 2 ^ 28 →
      c.stream.rcv.srtt = 0 → (∀ m ∈ samples, m.toNat ≤ M) → samples ≠ [] →
      Run SampleStep c samples d → SmoothedWithin M d.stream.rcv := by
  intro h
  obtain ⟨d, hrun⟩ := exists_run newStream [1, 1]
  have hd := run_srtt rfl hrun (by decide)
  have hle := (h 1 newStream d [1, 1] (by decide) (by decide) rfl (by simp)
    (List.cons_ne_nil _ _) hrun).2
  rw [hd] at hle
  exact absurd hle (by decide)

end Estimate

end CmtTcp
