import CmtTcp.Tcp.Phases
import CmtTcp.Tcp.TimeoutResend

/-!
# A peer that has fallen silent

A connection with something outstanding whose peer sends nothing more, among all the other connections of
the stack. `handle_rto` gives it `TCP_MAX_RTX` retransmissions, or `TCP_MAX_SYN_RETRY` of its SYN, and
closes it at the timeout after the last of them.

`silent_peer_given_up`: whatever else the stack does meanwhile, up to then every timeout leaves the stream
in its state, with everything from `snd_una` on to be sent again, and after that it is closed. Only the
scan for idle connections closes it earlier.
-/

namespace CmtTcp

open Lib (Outcome Run)

variable {ρ : Type}

/-! ### One timeout -/

/-- How often what a stream has outstanding in this state is sent again. -/
def rtxLimit (st : TcpState) : ℕ :=
  if st = .synSent then tcpMaxSynRetry.toNat else tcpMaxRtx.toNat

/-- What is outstanding is sent again, from a list of the sender. -/
structure Stream.Resending (s s' : Stream ρ) : Prop where
  state : s'.state = s.state
  sndUna : s'.snd.sndUna = s.snd.sndUna
  sndNxt : s'.sndNxt = s'.snd.sndUna
  queued : s'.snd.onSendList = true ∨ s'.snd.onControlList = true

section Timeout

variable {c : Conn ρ} {socket : Bool}

/-- The end of `handle_rto` puts the stream on a list. -/
theorem rtoResend_resending (c : Conn ρ) :
    Outcome (rtoResend c) (fun _ => True) fun r =>
      r.2 = 0 ∧ c.stream.Resending r.1.stream ∧ r.1.stream.snd.nrtx = c.stream.snd.nrtx := by
  have hsend : ∀ d : Conn ρ, d.stream.unlisted = { c.stream with sndNxt := c.stream.snd.sndUna }.unlisted →
      Outcome (addtoSendlist d >>= fun c' => .ok (c', 0)) (fun _ => True) fun r : Conn ρ × ℤ =>
        r.2 = 0 ∧ c.stream.Resending r.1.stream ∧ r.1.stream.snd.nrtx = c.stream.snd.nrtx := by
    intro d hd
    refine Outcome.bind ((addtoSendlist_stream d).mono (fun _ _ => trivial) fun _ h => h) fun c' h => ?_
    have hsnd := congrArg Stream.snd hd
    have hstate : d.stream.state = c.stream.state := (congrArg Stream.state hd :)
    have huna : d.stream.snd.sndUna = c.stream.snd.sndUna := (congrArg SndVar.sndUna hsnd :)
    have hnxt : d.stream.sndNxt = c.stream.snd.sndUna := (congrArg Stream.sndNxt hd :)
    have hnrtx : d.stream.snd.nrtx = c.stream.snd.nrtx := (congrArg SndVar.nrtx hsnd :)
    rw [Outcome.ok_iff, h]
    exact ⟨rfl, ⟨hstate, huna, hnxt.trans huna.symm, .inl rfl⟩, hnrtx⟩
  have hcontrol : (addtoControllist (c.mod fun s => { s with sndNxt := s.snd.sndUna })).stream =
      { c.stream with
        sndNxt := c.stream.snd.sndUna
        snd := { c.stream.snd with onControlList := true } } := (addtoControllist_eq _).1
  unfold rtoResend
  refine Outcome.ite (fun _ => hsend _ rfl) fun _ =>
    Outcome.ite (fun _ => Outcome.ite (fun _ => hsend _ ?_) fun _ => ?_) fun _ => ?_
  · -- the FIN is taken from the control list, and the data in front of it is sent first
    split
    · exact removeControllist_unlisted _
    · rfl
  · rw [Outcome.ok_iff, hcontrol]
    exact ⟨rfl, ⟨rfl, rfl, rfl, .inr rfl⟩, rfl⟩
  · rw [Outcome.ok_iff, hcontrol]
    exact ⟨rfl, ⟨rfl, rfl, rfl, .inr rfl⟩, rfl⟩

/-- **One timeout** below the limit is answered; at the limit it closes the stream. -/
theorem handleRto_limit (c : Conn ρ) (socket : Bool) :
    Outcome (handleRto c socket) (fun _ => True) fun r =>
      (c.stream.snd.nrtx.toNat < rtxLimit c.stream.state ∧ r.2 = 0 ∧
          c.stream.Resending r.1.stream ∧
          r.1.stream.snd.nrtx.toNat = c.stream.snd.nrtx.toNat + 1) ∨
        (rtxLimit c.stream.state ≤ c.stream.snd.nrtx.toNat ∧ r.2 = -1 ∧
          r.1.stream.state = .closed) := by
  have hresend : c.stream.snd.nrtx < tcpMaxRtx →
      Outcome (rtoResend (c.mod countTimeout)) (fun _ => True) fun r =>
        r.2 = 0 ∧ c.stream.Resending r.1.stream ∧
          r.1.stream.snd.nrtx.toNat = c.stream.snd.nrtx.toNat + 1 := by
    intro hless
    refine (rtoResend_resending _).mono (fun _ h => h) fun r ⟨hret, hagain, hnrtx⟩ => ?_
    refine ⟨hret, ⟨hagain.state, hagain.sndUna, hagain.sndNxt, hagain.queued⟩, ?_⟩
    rw [hnrtx]
    exact countTimeout_nrtx hless
  have hsynRetry : tcpMaxSynRetry.toNat = 7 := rfl
  have hmaxRtx : tcpMaxRtx.toNat = 16 := rfl
  unfold handleRto rtxLimit
  refine Outcome.ite (fun hless => ?_) fun hless => ?_
  · rw [rtoRetry_eq]
    refine Outcome.ite (fun hsyn => ?_) fun hsyn => Outcome.ite (fun _ => ?_) fun _ => trivial
    · rw [if_pos hsyn]
      refine Outcome.ite (fun hmany => ?_) fun hmany => ?_
      · rw [Outcome.ok_iff, stream_ite_streamDestroy]
        exact .inr ⟨by bv_omega, rfl, rfl⟩
      · exact (hresend hless).mono (fun _ h => h) fun _ h => .inl ⟨by bv_omega, h⟩
    · rw [if_neg hsyn]
      exact (hresend hless).mono (fun _ h => h) fun _ h => .inl ⟨BitVec.lt_def.mp hless, h⟩
  · have hmany : (if c.stream.state = .synSent then tcpMaxSynRetry.toNat else tcpMaxRtx.toNat) ≤
        c.stream.snd.nrtx.toNat := by
      split
      · bv_omega
      · bv_omega
    refine Outcome.ite (fun _ => ?_) fun _ => ?_
    · exact .inr ⟨hmany, rfl, rfl⟩
    · rw [Outcome.ok_iff, stream_ite_streamDestroy]
      exact .inr ⟨hmany, rfl, rfl⟩

end Timeout

/-! ### A stream among others -/

/-- The step is a timeout of the stream at `x`. -/
def ClosedLabel.isTimeoutOf (x : Addr) : ClosedLabel ρ → Bool
  | .rto y => y = x
  | _ => false

/-- The step looks for streams that are old enough to be closed. -/
def ClosedLabel.isScan : ClosedLabel ρ → Bool
  | .timewait _ _ | .timeout _ _ => true
  | _ => false

/-- What has become of the stream `s` at `x` after the steps `ls`, in none of which its peer was heard of. -/
inductive GivenUp (x : Addr) (s : Stream ρ) (ls : List (ClosedLabel ρ)) (s' : Stream ρ) : Prop
  /-- every timeout was answered, and the last of them is the last thing that happened to the stream -/
  | trying (state : s'.state = s.state) (sndUna : s'.snd.sndUna = s.snd.sndUna)
      (nrtx : s'.snd.nrtx.toNat = ls.countP (·.isTimeoutOf x))
      (limit : ls.countP (·.isTimeoutOf x) ≤ rtxLimit s.state)
      (resending : 0 < ls.countP (·.isTimeoutOf x) → s.Resending s')
  /-- the limit was passed, or the stream was idle for too long -/
  | closed (state : s'.state = .closed)
      (limit : rtxLimit s.state < ls.countP (·.isTimeoutOf x) ∨ ls.any (·.isScan))

section Runs

variable {P : Parts ρ} {S S' : Stack ρ} {tcpTimeout : ℤ} {x : Addr} {s : Stream ρ}
  {ls : List (ClosedLabel ρ)} {l : ClosedLabel ρ}

/-- Later steps do not open a closed stream, and do not take anything from the count. -/
theorem GivenUp.later {s₁ s₂ : Stream ρ} (h : GivenUp x s ls s₁) (hno : l.isTimeoutOf x = false)
    (hsame : s₂ = s₁) : GivenUp x s (ls ++ [l]) s₂ := by
  subst hsame
  have hcount : (ls ++ [l]).countP (·.isTimeoutOf x) = ls.countP (·.isTimeoutOf x) := by
    rw [List.countP_append, List.countP_singleton, hno]
    rfl
  cases h with
  | trying state sndUna nrtx limit resending =>
    exact .trying state sndUna (by rw [hcount]; exact nrtx) (by rw [hcount]; exact limit)
      (by rw [hcount]; exact resending)
  | closed state limit =>
    refine .closed state (limit.imp (fun h => by rw [hcount]; exact h) fun h => ?_)
    rw [List.any_append, h, Bool.true_or]

/-- A timeout of the stream. -/
theorem GivenUp.timeout {s₁ : Stream ρ} {c : Conn ρ} {c' : Conn ρ} {socket : Bool} {ret : ℤ}
    (h : GivenUp x s ls s₁) (hl : l.isTimeoutOf x = true) (hc : c.stream = s₁)
    (hret : handleRto c socket = .ok (c', ret)) : GivenUp x s (ls ++ [l]) c'.stream := by
  have hcount : (ls ++ [l]).countP (·.isTimeoutOf x) = ls.countP (·.isTimeoutOf x) + 1 := by
    rw [List.countP_append, List.countP_singleton, hl]
    rfl
  have hlimit := (handleRto_limit c socket).of_ok hret
  rw [hc] at hlimit
  cases h with
  | trying state sndUna nrtx limit resending =>
    rw [state, nrtx] at hlimit
    rcases hlimit with ⟨hless, -, hagain, hnrtx⟩ | ⟨hmany, -, hclosed⟩
    · refine .trying (hagain.state.trans state) (hagain.sndUna.trans sndUna) (by rw [hcount]; exact hnrtx)
        (by rw [hcount]; exact hless) fun _ => ?_
      exact ⟨hagain.state.trans state, hagain.sndUna.trans sndUna, hagain.sndNxt, hagain.queued⟩
    · exact .closed hclosed (.inl (by rw [hcount]; exact Nat.lt_succ_of_le hmany))
  | closed state limit =>
    refine .closed ?_ (limit.imp (fun h => by rw [hcount]; omega) fun h => ?_)
    · rcases (handleRto_state c socket).of_ok hret with hkeep | hclosed
      · rw [hkeep, hc, state]
      · exact hclosed
    · rw [List.any_append, h, Bool.true_or]

/-- **One step** of the stack in which the peer of the stream at `x` is not heard of. -/
theorem ClosedStep.givenUp {s₁ : Stream ρ} (hs : S.stream x = some s₁) (h : GivenUp x s ls s₁)
    (hsilent : ∀ a, l ≠ .segment x a) (hstep : ClosedStep P tcpTimeout S l S') :
    ∃ s₂, S'.stream x = some s₂ ∧ GivenUp x s (ls ++ [l]) s₂ := by
  -- a scan leaves the stream alone, or closes it
  have hscan : ∀ {S₂ : Stack ρ}, l.isScan = true → l.isTimeoutOf x = false →
      (S₂.stream x = some s₁ ∨ ∃ t, S₂.stream x = some t ∧ t.state = .closed) →
      ∃ s₂, S₂.stream x = some s₂ ∧ GivenUp x s (ls ++ [l]) s₂ := by
    rintro S₂ hl hno (hkeep | ⟨t, ht, hclosed⟩)
    · exact ⟨s₁, hkeep, h.later hno rfl⟩
    · refine ⟨t, ht, .closed hclosed (.inr ?_)⟩
      rw [List.any_append, List.any_cons, hl, Bool.true_or, Bool.or_true]
  have hput : ∀ (S₂ : Stack ρ) (c : Conn ρ),
      (S₂.stream x = some s₁ ∨ ∃ t, S₂.stream x = some t ∧ t.state = .closed) →
      c.stream.state = .closed →
      ((S₂.put c).stream x = some s₁ ∨ ∃ t, (S₂.put c).stream x = some t ∧ t.state = .closed) := by
    intro S₂ c h₂ hc
    by_cases hx : x = c.stream.addr
    · subst hx
      exact .inr ⟨c.stream, Function.update_self _ _ _, hc⟩
    · rw [Stack.put_stream_of_ne hx]
      exact h₂
  cases hstep with
  | @segment y t a w ret ht hcall =>
    have hne : x ≠ y := by
      rintro rfl
      exact hsilent a rfl
    exact ⟨s₁, (Stack.store_stream_of_ne hne).trans hs, h.later rfl rfl⟩
  | @created y a w ret hfree hcall =>
    have hne : x ≠ y := by
      rintro rfl
      exact absurd (hs.symm.trans hfree) nofun
    exact ⟨s₁, (Stack.store_stream_of_ne hne).trans hs, h.later rfl rfl⟩
  | @rto y t c ret ht hcall =>
    by_cases hx : x = y
    · subst hx
      obtain rfl := Option.some.inj (hs.symm.trans ht)
      refine ⟨c.stream, Function.update_self _ _ _, h.timeout (decide_eq_true rfl) rfl hcall⟩
    · exact ⟨s₁, (Stack.store_stream_of_ne hx).trans hs, h.later (decide_eq_false (Ne.symm hx)) rfl⟩
  | timewait hcall =>
    exact hscan rfl rfl ((timewaitLoop_closes hput _ _ _ 0 S (.inl hs)).of_ok hcall)
  | timeout hcall =>
    exact hscan rfl rfl ((timeoutLoop_closes hput _ _ _ 0 S (.inl hs)).of_ok hcall)

/-- **A silent peer is given up.** In every run of the stack in which no segment of its peer arrives, a
stream that has something outstanding and was not sent again yet is in its state after as many timeouts as
the limit, with everything from `snd_una` on to be sent again; after one more it is closed. It is closed
earlier only by a scan for old streams. -/
theorem silent_peer_given_up (hs : S.stream x = some s) (hnrtx : s.snd.nrtx = 0)
    (hsilent : ∀ a, ClosedLabel.segment x a ∉ ls) (hrun : Run (ClosedStep P tcpTimeout) S ls S') :
    ∃ s', S'.stream x = some s' ∧ GivenUp x s ls s' := by
  induction hrun with
  | nil =>
    refine ⟨s, hs, .trying rfl rfl ?_ (Nat.zero_le _) fun h => absurd h (Nat.lt_irrefl 0)⟩
    rw [hnrtx]
    rfl
  | snoc _ hlast ih =>
    obtain ⟨s₁, hs₁, h⟩ := ih fun a hmem => hsilent a (List.mem_append_left _ hmem)
    refine hlast.givenUp hs₁ h fun a hl => ?_
    exact hsilent a (List.mem_append_right _ (List.mem_singleton.mpr hl.symm))

end Runs

/-- The SYN of an active open is sent again seven times; the eighth timeout closes the stream. -/
theorem silent_peer_given_up_syn :
    ∃ S s', Run (ClosedStep inOrderParts 30) (stackOf activeStream)
        [.rto 0, .rto 0, .rto 0, .rto 0, .rto 0, .rto 0, .rto 0, .rto 0] S ∧
      S.stream 0 = some s' ∧ s'.state = .closed ∧
      GivenUp 0 activeStream
        [.rto 0, .rto 0, .rto 0, .rto 0, .rto 0, .rto 0, .rto 0, .rto 0] s' := by
  have start : Run (ClosedStep inOrderParts 30) (stackOf activeStream) [] _ := .nil
  have four := (((start.snoc (.rto (x := 0) rfl rfl)).snoc (.rto (x := 0) rfl rfl)).snoc
    (.rto (x := 0) rfl rfl)).snoc (.rto (x := 0) rfl rfl)
  have eight := (((four.snoc (.rto (x := 0) rfl rfl)).snoc (.rto (x := 0) rfl rfl)).snoc
    (.rto (x := 0) rfl rfl)).snoc (.rto (x := 0) rfl rfl)
  obtain ⟨s', hs', h⟩ := silent_peer_given_up (x := 0) (s := activeStream) rfl rfl
    (fun a hmem => by simp at hmem) eight
  refine ⟨_, s', eight, hs', ?_, h⟩
  cases h with
  | trying _ _ _ hlimit _ => exact absurd hlimit (by decide)
  | closed hclosed _ => exact hclosed

end CmtTcp
