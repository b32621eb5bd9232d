import CmtTcp.Tcp.State
import CmtTcp.Lib.Outcome

/-!
# TCP options

`cmt_tcp_parse_options` and `cmt_tcp_parse_timestamp` of `tcp.c`. The options are read from memory
behind the fixed header; nothing keeps a read from going past them.

The loop of `cmt_tcp_parse_options` stands still at an unknown option of length `0`, so its
recursion is on a number of iterations, and `none` says that they did not end it. As many iterations as
there are option bytes, and one more, decide the matter (`parseOptionsLoop_enough`).
-/

namespace CmtTcp

open Lib (Outcome)

variable {ρ : Type}

/-! ### `enum tcp_option` -/

def tcpOptEnd : U8 := 0
def tcpOptNop : U8 := 1
def tcpOptMss : U8 := 2
def tcpOptWscale : U8 := 3
def tcpOptSackPermit : U8 := 4
def tcpOptTimestamp : U8 := 8

/-- `ntohl` of the word at offset `i` -/
def optWord (opt : ℕ → U8) (i : ℕ) : U32 := opt i ++ opt (i + 1) ++ opt (i + 2) ++ opt (i + 3)

/-- The loop of `cmt_tcp_parse_options` from offset `i` on, for at most `fuel` iterations. -/
def parseOptionsLoop (opt : ℕ → U8) (len : ℕ) (curTs : U32) :
    ℕ → ℕ → Stream ρ → Option (Stream ρ)
  | 0, _, _ => none
  | fuel + 1, i, s =>
    if i < len then
      if opt i = tcpOptEnd then some s
      else if opt i = tcpOptNop then parseOptionsLoop opt len curTs fuel (i + 1) s
      else
        let optlen := (opt (i + 1)).toNat
        if i + 2 + optlen - 2 > len then some s
        else if opt i = tcpOptMss then
          let mss : U16 := opt (i + 2) ++ opt (i + 3)
          parseOptionsLoop opt len curTs fuel (i + 4)
            { s with snd := { s.snd with mss := mss, effMss := mss - (tcpoptTimestampsLen + 2) } }
        else if opt i = tcpOptWscale then
          parseOptionsLoop opt len curTs fuel (i + 3)
            { s with snd := { s.snd with wscalePeer := opt (i + 2) } }
        else if opt i = tcpOptSackPermit then
          parseOptionsLoop opt len curTs fuel (i + 2) { s with sackPermit := true }
        else if opt i = tcpOptTimestamp then
          parseOptionsLoop opt len curTs fuel (i + 10)
            { s with
              sawTimestamp := true
              rcv := { s.rcv with tsRecent := optWord opt (i + 2), tsLastTsUpd := curTs } }
        else parseOptionsLoop opt len curTs fuel (i + 2 + optlen - 2) s
    else some s

/-- `cmt_tcp_parse_options` -/
def parseOptions (c : Conn ρ) (curTs : U32) (seg : Segment) : Except Abort (Conn ρ) :=
  match parseOptionsLoop seg.opt seg.optlen curTs (seg.optlen + 1) 0 c.stream with
  | none => .error .endless
  | some s => .ok { c with stream := s }

/-- The loop of `cmt_tcp_parse_timestamp`. Its head advances `i` once more, also past a `NOP`. -/
def parseTimestampLoop (opt : ℕ → U8) (len : ℕ) : ℕ → ℕ → Option (U32 × U32)
  | 0, _ => none
  | fuel + 1, i =>
    if i < len then
      if opt i = tcpOptEnd then none
      else if opt i = tcpOptNop then parseTimestampLoop opt len fuel (i + 2)
      else
        let optlen := (opt (i + 1)).toNat
        if i + 2 + optlen - 2 > len then none
        else if opt i = tcpOptTimestamp then some (optWord opt (i + 2), optWord opt (i + 6))
        else parseTimestampLoop opt len fuel (i + 2 + optlen - 2 + 1)
    else none

/-- `cmt_tcp_parse_timestamp`: `ts_val` and `ts_ref`, or `none` where it returns `0`. Every iteration
moves forward, so there are at most as many as there are option bytes. -/
def parseTimestamp (seg : Segment) : Option (U32 × U32) :=
  parseTimestampLoop seg.opt seg.optlen seg.optlen 0

/-! ### One iteration -/

/-- The loop of `cmt_tcp_parse_options` ends at offset `i`: the area is used up, the option is `END`,
or it is longer than what is left. -/
def OptionsStop (opt : ℕ → U8) (len i : ℕ) : Prop :=
  len ≤ i ∨ opt i = tcpOptEnd ∨ opt i ≠ tcpOptNop ∧ len < i + (opt (i + 1)).toNat

/-- Where an iteration at offset `i` leads. -/
def optionNext (opt : ℕ → U8) (i : ℕ) : ℕ :=
  if opt i = tcpOptNop then i + 1
  else if opt i = tcpOptMss then i + 4
  else if opt i = tcpOptWscale then i + 3
  else if opt i = tcpOptSackPermit then i + 2
  else if opt i = tcpOptTimestamp then i + 10
  else i + (opt (i + 1)).toNat

/-- What an iteration at offset `i` stores. -/
def optionEffect (opt : ℕ → U8) (curTs : U32) (i : ℕ) (s : Stream ρ) : Stream ρ :=
  if opt i = tcpOptMss then
    let mss : U16 := opt (i + 2) ++ opt (i + 3)
    { s with snd := { s.snd with mss := mss, effMss := mss - (tcpoptTimestampsLen + 2) } }
  else if opt i = tcpOptWscale then { s with snd := { s.snd with wscalePeer := opt (i + 2) } }
  else if opt i = tcpOptSackPermit then { s with sackPermit := true }
  else if opt i = tcpOptTimestamp then
    { s with
      sawTimestamp := true
      rcv := { s.rcv with tsRecent := optWord opt (i + 2), tsLastTsUpd := curTs } }
  else s

section Iteration

variable {opt : ℕ → U8} {len fuel i : ℕ} {curTs : U32} {s : Stream ρ}

theorem parseOptionsLoop_stop (h : OptionsStop opt len i) :
    parseOptionsLoop opt len curTs (fuel + 1) i s = some s := by
  unfold parseOptionsLoop
  dsimp only
  by_cases hi : i < len
  · rw [if_pos hi]
    by_cases hend : opt i = tcpOptEnd
    · exact if_pos hend
    -- only the length test is left to end the loop
    obtain ⟨hnop, hlong⟩ : opt i ≠ tcpOptNop ∧ len < i + (opt (i + 1)).toNat := by
      rcases h with h | h | h
      · omega
      · exact absurd h hend
      · exact h
    rw [if_neg hend, if_neg hnop, if_pos (by omega)]
  · exact if_neg hi

theorem parseOptionsLoop_next (h : ¬OptionsStop opt len i) :
    parseOptionsLoop opt len curTs (fuel + 1) i s =
      parseOptionsLoop opt len curTs fuel (optionNext opt i) (optionEffect opt curTs i s) := by
  obtain ⟨hi, hend, hfit⟩ : i < len ∧ opt i ≠ tcpOptEnd ∧
      (opt i ≠ tcpOptNop → ¬i + 2 + (opt (i + 1)).toNat - 2 > len) := by
    unfold OptionsStop at h
    push Not at h
    refine ⟨h.1, h.2.1, fun hnop => ?_⟩
    have hle := h.2.2 hnop
    omega
  conv_lhs => unfold parseOptionsLoop
  unfold optionNext optionEffect
  dsimp only
  rw [if_pos hi, if_neg hend]
  by_cases hnop : opt i = tcpOptNop
  · -- `NOP` is none of the options that store something
    rw [if_pos hnop, if_pos hnop, hnop]
    rfl
  rw [if_neg hnop, if_neg hnop, if_neg (hfit hnop)]
  by_cases hmss : opt i = tcpOptMss
  · rw [if_pos hmss, if_pos hmss, if_pos hmss]
  rw [if_neg hmss, if_neg hmss, if_neg hmss]
  by_cases hws : opt i = tcpOptWscale
  · rw [if_pos hws, if_pos hws, if_pos hws]
  rw [if_neg hws, if_neg hws, if_neg hws]
  by_cases hsack : opt i = tcpOptSackPermit
  · rw [if_pos hsack, if_pos hsack, if_pos hsack]
  rw [if_neg hsack, if_neg hsack, if_neg hsack]
  by_cases hts : opt i = tcpOptTimestamp
  · rw [if_pos hts, if_pos hts, if_pos hts]
  rw [if_neg hts, if_neg hts, if_neg hts]
  congr 1
  omega

/-- An iteration never goes back. -/
theorem le_optionNext (opt : ℕ → U8) (i : ℕ) : i ≤ optionNext opt i := by
  unfold optionNext
  repeat' split
  all_goals omega

end Iteration

/-! ### When the loop ends -/

/-- When the loop ends at all, it ends within as many iterations as bytes are left, and one more:
an iteration moves forward, or the next one is the same again. -/
theorem parseOptionsLoop_enough {opt : ℕ → U8} {len fuel i n : ℕ} {curTs : U32} {s t : Stream ρ}
    (h : parseOptionsLoop opt len curTs fuel i s = some t) (hn : len + 1 ≤ i + n) (hpos : 0 < n) :
    parseOptionsLoop opt len curTs n i s = some t := by
  -- the induction is on the iterations that ended the loop; `n` is what is allowed instead
  induction fuel generalizing i n s with
  | zero => cases h
  | succ fuel ih =>
    obtain ⟨m, rfl⟩ : ∃ m, n = m + 1 := ⟨n - 1, by omega⟩
    by_cases hstop : OptionsStop opt len i
    · rwa [parseOptionsLoop_stop hstop] at h ⊢
    have hi : i < len := Nat.not_le.mp fun hle => hstop (.inl hle)
    rw [parseOptionsLoop_next hstop] at h
    by_cases hsame : optionNext opt i = i
    · -- the next iteration starts where this one did, with fewer left to end the loop
      rw [hsame] at h
      have hstuck := ih h hn hpos
      have heff : optionEffect opt curTs i (optionEffect opt curTs i s) =
          optionEffect opt curTs i s := by
        unfold optionEffect
        repeat' split
        all_goals rfl
      rw [parseOptionsLoop_next hstop, heff] at hstuck
      rwa [parseOptionsLoop_next hstop]
    · have hle := le_optionNext opt i
      rw [parseOptionsLoop_next hstop]
      exact ih h (by omega) (by omega)

/-- Whether the loop ends depends on the options alone. -/
theorem parseOptionsLoop_isSome {ρ' : Type} {opt : ℕ → U8} {len fuel i : ℕ} {curTs curTs' : U32}
    (s : Stream ρ) (s' : Stream ρ') :
    (parseOptionsLoop opt len curTs fuel i s).isSome =
      (parseOptionsLoop opt len curTs' fuel i s').isSome := by
  induction fuel generalizing i s s' with
  | zero => rfl
  | succ fuel ih =>
    by_cases hstop : OptionsStop opt len i
    · rw [parseOptionsLoop_stop hstop, parseOptionsLoop_stop hstop]
      rfl
    · -- where an iteration leads does not depend on the stream
      rw [parseOptionsLoop_next hstop, parseOptionsLoop_next hstop]
      exact ih _ _

/-- The options of the segment do not keep `cmt_tcp_parse_options` from ending. -/
def optionsEnd (seg : Segment) : Bool :=
  (parseOptionsLoop seg.opt seg.optlen 0 (seg.optlen + 1) 0 (default : Stream Unit)).isSome

theorem parseOptions_ok_iff {c : Conn ρ} {curTs : U32} {seg : Segment} :
    (∃ c', parseOptions c curTs seg = .ok c') ↔ optionsEnd seg := by
  unfold optionsEnd
  rw [@parseOptionsLoop_isSome _ _ _ _ _ _ 0 curTs default c.stream]
  unfold parseOptions
  split
  · next h => simp [h]
  · next s h => simp [h]

/-! ### What parsing leaves alone -/

/-- `t` is `s` with other values for what options negotiate. -/
def Stream.Negotiated (s t : Stream ρ) : Prop :=
  t = { s with
    sawTimestamp := t.sawTimestamp
    sackPermit := t.sackPermit
    snd := { s.snd with
      mss := t.snd.mss, effMss := t.snd.effMss, wscalePeer := t.snd.wscalePeer }
    rcv := { s.rcv with tsRecent := t.rcv.tsRecent, tsLastTsUpd := t.rcv.tsLastTsUpd } }

theorem Stream.Negotiated.trans {s t u : Stream ρ} (h : s.Negotiated t) (h' : t.Negotiated u) :
    s.Negotiated u := by
  unfold Stream.Negotiated at *
  rw [h', h]

theorem optionEffect_negotiated (opt : ℕ → U8) (curTs : U32) (i : ℕ) (s : Stream ρ) :
    s.Negotiated (optionEffect opt curTs i s) := by
  unfold optionEffect
  repeat' split
  all_goals exact rfl

theorem parseOptionsLoop_negotiated {opt : ℕ → U8} {len fuel i : ℕ} {curTs : U32} {s t : Stream ρ}
    (h : parseOptionsLoop opt len curTs fuel i s = some t) : s.Negotiated t := by
  induction fuel generalizing i s with
  | zero => cases h
  | succ fuel ih =>
    by_cases hstop : OptionsStop opt len i
    · rw [parseOptionsLoop_stop hstop] at h
      cases h
      exact rfl
    · rw [parseOptionsLoop_next hstop] at h
      exact (optionEffect_negotiated opt curTs i s).trans (ih h)

theorem parseOptions_outcome (c : Conn ρ) (curTs : U32) (seg : Segment) :
    Outcome (parseOptions c curTs seg) (· = .endless)
      fun c' => c.stream.Negotiated c'.stream ∧ c'.log = c.log := by
  unfold parseOptions
  split
  · exact rfl
  · next s hs => exact ⟨parseOptionsLoop_negotiated hs, rfl⟩

theorem Stream.Negotiated.session {s t : Stream ρ} (h : s.Negotiated t) :
    t.session = s.session := by
  rw [h]
  rfl

theorem Stream.Negotiated.rto {s t : Stream ρ} (h : s.Negotiated t) : t.snd.rto = s.snd.rto := by
  rw [h]

theorem Stream.Negotiated.sndUna {s t : Stream ρ} (h : s.Negotiated t) :
    t.snd.sndUna = s.snd.sndUna := by
  rw [h]

theorem Stream.Negotiated.sndNxt {s t : Stream ρ} (h : s.Negotiated t) : t.sndNxt = s.sndNxt := by
  rw [h]

end CmtTcp
