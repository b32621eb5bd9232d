import CmtTcp.Tcp.OptionGrammar

/-!
# Where option parsing reads

`cmt_tcp_parse_options` and `cmt_tcp_parse_timestamp` over an option area of arbitrary bytes. The
area is a memory that holds its `len` bytes and no other, so that a read past them shows.

Both loops test the declared length of an option against the area, after they have read the length
byte and before they read operands whose number the kind decides. So a kind without a length byte,
and an option whose declared length fits where its operands do not, lead outside.

* `OptionWalk`: what the two loops share. At each offset an iteration faults, ends the loop, or goes
  on at a further offset.
* `optionReads_inside_iff`: all reads lie in the area exactly when every option that a loop comes to
  has the bytes that the loop reads of its kind.
-/

namespace CmtTcp

variable {ρ : Type}

/-! ### The loop of `cmt_tcp_parse_timestamp`, read by read -/

/-- The loop of `cmt_tcp_parse_timestamp` over the bytes that `mem` holds, with every read of an
option byte in its place. -/
def parseTimestampWithin (mem : ℕ → Option U8) (len : ℕ) :
    ℕ → ℕ → Except OptionFault (Option (U32 × U32))
  | 0, _ => .error .endless
  | fuel + 1, i =>
    if i < len then do
      let opt ← readOpt mem i
      if opt = tcpOptEnd then .ok none
      -- the loop head moves on once more, past the byte behind a `NOP`
      else if opt = tcpOptNop then parseTimestampWithin mem len fuel (i + 2)
      else do
        let optlen ← readOpt mem (i + 1)
        if i + 2 + optlen.toNat - 2 > len then .ok none
        else if opt = tcpOptTimestamp then do
          let b₀ ← readOpt mem (i + 2)
          let b₁ ← readOpt mem (i + 3)
          let b₂ ← readOpt mem (i + 4)
          let b₃ ← readOpt mem (i + 5)
          let b₄ ← readOpt mem (i + 6)
          let b₅ ← readOpt mem (i + 7)
          let b₆ ← readOpt mem (i + 8)
          let b₇ ← readOpt mem (i + 9)
          .ok (some (b₀ ++ b₁ ++ b₂ ++ b₃, b₄ ++ b₅ ++ b₆ ++ b₇))
        -- `i += optlen - 2`, and the loop head moves on once more
        else parseTimestampWithin mem len fuel (i + 2 + optlen.toNat - 2 + 1)
    else .ok none

/-- What the loop yields over a partial memory, it yields over every memory with these bytes. -/
theorem parseTimestampWithin_sound {mem : ℕ → Option U8} {opt : ℕ → U8} {len fuel i : ℕ}
    {r : Option (U32 × U32)} (hmem : ∀ i b, mem i = some b → opt i = b)
    (h : parseTimestampWithin mem len fuel i = .ok r) :
    parseTimestampLoop opt len fuel i = r := by
  -- the tests are the same in both loops; what differs is where the byte comes from
  induction fuel generalizing i with
  | zero => cases h
  | succ fuel ih =>
    unfold parseTimestampWithin at h
    unfold parseTimestampLoop
    dsimp only at h ⊢
    by_cases hi : i < len
    · rw [if_pos hi] at h ⊢
      replace h := readOpt_bind_ok hmem h
      by_cases hend : opt i = tcpOptEnd
      · rw [if_pos hend] at h ⊢
        cases h
        rfl
      rw [if_neg hend] at h ⊢
      by_cases hnop : opt i = tcpOptNop
      · rw [if_pos hnop] at h ⊢
        exact ih h
      rw [if_neg hnop] at h ⊢
      replace h := readOpt_bind_ok hmem h
      by_cases hlong : i + 2 + (opt (i + 1)).toNat - 2 > len
      · rw [if_pos hlong] at h ⊢
        cases h
        rfl
      rw [if_neg hlong] at h ⊢
      by_cases hts : opt i = tcpOptTimestamp
      · rw [if_pos hts] at h ⊢
        -- eight bytes are read, one after the other
        replace h := readOpt_bind_ok hmem (readOpt_bind_ok hmem h)
        replace h := readOpt_bind_ok hmem (readOpt_bind_ok hmem h)
        replace h := readOpt_bind_ok hmem (readOpt_bind_ok hmem h)
        replace h := readOpt_bind_ok hmem (readOpt_bind_ok hmem h)
        cases h
        rfl
      rw [if_neg hts] at h ⊢
      exact ih h
    · rw [if_neg hi] at h ⊢
      cases h
      rfl

/-! ### What the two loops share -/

/-- A loop over option bytes as its iterations see it: at an offset where the bytes are missing it
faults, where it stops it returns, and elsewhere it goes on at another offset. -/
structure OptionWalk (σ α : Type) where
  run : ℕ → ℕ → σ → Except OptionFault α
  /-- the bytes that an iteration at this offset reads are there -/
  Fits : ℕ → Prop
  Stop : ℕ → Prop
  next : ℕ → ℕ
  effect : ℕ → σ → σ
  run_zero : ∀ i s, run 0 i s = .error .endless
  run_fault : ∀ fuel i s, ¬Fits i → ∃ j, run (fuel + 1) i s = .error (.outside j)
  run_stop : ∀ fuel i s, Fits i → Stop i → ∃ r, run (fuel + 1) i s = .ok r
  run_next : ∀ fuel i s, Fits i → ¬Stop i → run (fuel + 1) i s = run fuel (next i) (effect i s)

namespace OptionWalk

variable {σ α : Type} (w : OptionWalk σ α)

/-- The offsets at which iterations start. -/
inductive Starts : ℕ → Prop
  | first : Starts 0
  | next {i : ℕ} (h : Starts i) (hgo : ¬w.Stop i) : Starts (w.next i)

/-- No read of the loop, started at offset `i`, is outside. -/
def InsideFrom (i : ℕ) (s : σ) : Prop := ∀ fuel j, w.run fuel i s ≠ .error (.outside j)

variable {w} {i : ℕ} {s : σ}

theorem InsideFrom.fits (h : w.InsideFrom i s) : w.Fits i := by
  -- an iteration without its bytes faults at once
  by_contra hfits
  obtain ⟨j, hj⟩ := w.run_fault 0 i s hfits
  exact h 1 j hj

theorem InsideFrom.next (h : w.InsideFrom i s) (hgo : ¬w.Stop i) :
    w.InsideFrom (w.next i) (w.effect i s) := by
  intro fuel j
  rw [← w.run_next fuel i s h.fits hgo]
  exact h (fuel + 1) j

/-- A loop whose reads are inside started at every offset that it comes to. -/
theorem Starts.insideFrom (hstart : w.Starts i) (h : w.InsideFrom 0 s) :
    ∃ s', w.InsideFrom i s' := by
  -- the induction is along the offsets the loop comes to; each hands its state on
  induction hstart with
  | first => exact ⟨s, h⟩
  | next _ hgo ih =>
    obtain ⟨s', hs'⟩ := ih
    exact ⟨_, hs'.next hgo⟩

/-- From an offset on the way, reads are inside when all offsets on the way have their bytes. -/
theorem Starts.insideFrom_of_fits (hfits : ∀ i, w.Starts i → w.Fits i) (hstart : w.Starts i) :
    w.InsideFrom i s := by
  intro fuel
  induction fuel generalizing i s with
  | zero =>
    intro j h
    rw [w.run_zero] at h
    cases h
  | succ fuel ih =>
    intro j h
    by_cases hstop : w.Stop i
    · obtain ⟨r, hr⟩ := w.run_stop fuel i s (hfits i hstart) hstop
      rw [hr] at h
      cases h
    · rw [w.run_next fuel i s (hfits i hstart) hstop] at h
      exact ih (.next hstart hstop) j h

/-- All reads are inside exactly when every offset that the loop comes to has its bytes. -/
theorem insideFrom_iff : w.InsideFrom 0 s ↔ ∀ i, w.Starts i → w.Fits i := by
  constructor
  · intro h i hstart
    obtain ⟨s', hs'⟩ := hstart.insideFrom h
    exact hs'.fits
  · exact fun hfits => Starts.first.insideFrom_of_fits hfits

end OptionWalk

/-! ### The bytes of an option -/

/-- The option area as memory: the bytes `bs` and nothing behind them. -/
def optionArea (bs : List U8) (i : ℕ) : Option U8 := bs[i]?

/-- The byte at offset `i`, `0` behind the area. -/
def optionByte (bs : List U8) (i : ℕ) : U8 := bs.getD i 0

/-- How many bytes `cmt_tcp_parse_options` reads of an option of this kind, with kind and length. -/
def optionReads (kind : U8) : ℕ :=
  if kind = tcpOptMss then 4
  else if kind = tcpOptWscale then 3
  else if kind = tcpOptTimestamp then 6
  else 2

/-- How many bytes `cmt_tcp_parse_timestamp` reads of an option of this kind. -/
def timestampReads (kind : U8) : ℕ := if kind = tcpOptTimestamp then 10 else 2

/-- Of the option at offset `i` there is the length byte, unless it is `END` or `NOP`, and the
operands, unless the declared length is longer than the area. -/
def OptionFits (reads : U8 → ℕ) (bs : List U8) (i : ℕ) : Prop :=
  i < bs.length → optionByte bs i ≠ tcpOptEnd → optionByte bs i ≠ tcpOptNop →
    i + 2 ≤ bs.length ∧
      (i + (optionByte bs (i + 1)).toNat ≤ bs.length → i + reads (optionByte bs i) ≤ bs.length)

section Area

variable {bs : List U8} {i fuel : ℕ} {curTs : U32} {s : Stream ρ}

theorem readOpt_inside (h : i < bs.length) : readOpt (optionArea bs) i = .ok (optionByte bs i) := by
  apply readOpt_of_some
  unfold optionArea optionByte
  rw [List.getD_eq_getElem?_getD, List.getElem?_eq_getElem h, Option.getD_some]

theorem readOpt_outside (h : bs.length ≤ i) :
    readOpt (optionArea bs) i = .error (.outside i) := by
  unfold readOpt optionArea
  rw [List.getElem?_eq_none h]

/-- Two reads of which the first is outside, or the second is. -/
theorem readOpt_bind_outside {α : Type} {f : U8 → Except OptionFault α}
    (h : bs.length ≤ i ∨ ∃ j, f (optionByte bs i) = .error (.outside j)) :
    ∃ j, readOpt (optionArea bs) i >>= f = .error (.outside j) := by
  by_cases hi : i < bs.length
  · rw [readOpt_inside hi]
    exact h.resolve_left (by omega)
  · rw [readOpt_outside (by omega)]
    exact ⟨i, rfl⟩

/-- An iteration of `cmt_tcp_parse_options` at an option whose bytes are not all there. -/
theorem parseOptionsWithin_fault (h : ¬OptionFits optionReads bs i) :
    ∃ j, parseOptionsWithin (optionArea bs) bs.length curTs (fuel + 1) i s =
      .error (.outside j) := by
  unfold OptionFits at h
  push Not at h
  obtain ⟨hi, hend, hnop, hmiss⟩ := h
  unfold parseOptionsWithin
  rw [if_pos hi, readOpt_inside hi]
  change ∃ j, (if optionByte bs i = tcpOptEnd then _ else _) = _
  rw [if_neg hend, if_neg hnop]
  refine readOpt_bind_outside (or_iff_not_imp_left.mpr fun hlen => ?_)
  -- the length byte is there, so an operand is not
  obtain ⟨hfit, hshort⟩ := hmiss (by omega)
  rw [if_neg (by omega)]
  unfold optionReads at hshort
  by_cases hmss : optionByte bs i = tcpOptMss
  · rw [if_pos hmss] at hshort ⊢
    refine readOpt_bind_outside (or_iff_not_imp_left.mpr fun _ => ?_)
    exact readOpt_bind_outside (.inl (by omega))
  rw [if_neg hmss] at hshort ⊢
  by_cases hws : optionByte bs i = tcpOptWscale
  · rw [if_pos hws] at hshort ⊢
    exact readOpt_bind_outside (.inl (by omega))
  rw [if_neg hws] at hshort ⊢
  by_cases hts : optionByte bs i = tcpOptTimestamp
  -- four bytes of the time stamp are read, and the last one at least is missing
  · rw [if_pos hts] at hshort
    rw [if_neg (by rw [hts]; decide), if_pos hts]
    refine readOpt_bind_outside (or_iff_not_imp_left.mpr fun _ => ?_)
    refine readOpt_bind_outside (or_iff_not_imp_left.mpr fun _ => ?_)
    refine readOpt_bind_outside (or_iff_not_imp_left.mpr fun _ => ?_)
    exact readOpt_bind_outside (.inl (by omega))
  · -- any other option has no operand that is read
    rw [if_neg hts] at hshort
    omega

/-- An iteration that ends the loop, its bytes being there. -/
theorem parseOptionsWithin_stop (h : OptionFits optionReads bs i)
    (hstop : OptionsStop (optionByte bs) bs.length i) :
    parseOptionsWithin (optionArea bs) bs.length curTs (fuel + 1) i s = .ok s := by
  unfold parseOptionsWithin
  by_cases hi : i < bs.length
  · rw [if_pos hi, readOpt_inside hi]
    change (if optionByte bs i = tcpOptEnd then _ else _) = _
    by_cases hend : optionByte bs i = tcpOptEnd
    · exact if_pos hend
    obtain ⟨hnop, hlong⟩ := hstop.resolve_left (by omega) |>.resolve_left hend
    rw [if_neg hend, if_neg hnop, readOpt_inside (by have := (h hi hend hnop).1; omega)]
    exact if_pos (by omega)
  · exact if_neg hi

/-- An iteration that goes on, its bytes being there. -/
theorem parseOptionsWithin_next (h : OptionFits optionReads bs i)
    (hgo : ¬OptionsStop (optionByte bs) bs.length i) :
    parseOptionsWithin (optionArea bs) bs.length curTs (fuel + 1) i s =
      parseOptionsWithin (optionArea bs) bs.length curTs fuel (optionNext (optionByte bs) i)
        (optionEffect (optionByte bs) curTs i s) := by
  unfold OptionsStop at hgo
  push Not at hgo
  obtain ⟨hi, hend, hfit⟩ := hgo
  conv_lhs => unfold parseOptionsWithin
  unfold optionNext optionEffect
  rw [if_pos hi, readOpt_inside hi]
  change (if optionByte bs i = tcpOptEnd then _ else _) = _
  rw [if_neg hend]
  by_cases hnop : optionByte bs i = tcpOptNop
  · rw [if_pos hnop, if_pos hnop, hnop]
    rfl
  obtain ⟨hlen, hops⟩ := h hi hend hnop
  replace hops := hops (hfit hnop)
  rw [if_neg hnop, if_neg hnop, readOpt_inside (by omega)]
  change (if i + 2 + (optionByte bs (i + 1)).toNat - 2 > bs.length then _ else _) = _
  rw [if_neg (by have := hfit hnop; omega)]
  -- each kind reads its operands, which the area holds
  unfold optionReads at hops
  by_cases hmss : optionByte bs i = tcpOptMss
  · rw [if_pos hmss] at hops
    rw [if_pos hmss, if_pos hmss, if_pos hmss, readOpt_inside (by omega), readOpt_inside (by omega)]
    rfl
  rw [if_neg hmss] at hops
  rw [if_neg hmss, if_neg hmss, if_neg hmss]
  by_cases hws : optionByte bs i = tcpOptWscale
  · rw [if_pos hws] at hops
    rw [if_pos hws, if_pos hws, if_pos hws, readOpt_inside (by omega)]
    rfl
  rw [if_neg hws] at hops
  rw [if_neg hws, if_neg hws, if_neg hws]
  by_cases hsack : optionByte bs i = tcpOptSackPermit
  · rw [if_pos hsack, if_pos hsack, if_pos hsack]
  rw [if_neg hsack, if_neg hsack, if_neg hsack]
  by_cases hts : optionByte bs i = tcpOptTimestamp
  · rw [if_pos hts] at hops
    rw [if_pos hts, if_pos hts, if_pos hts, readOpt_inside (by omega), readOpt_inside (by omega),
      readOpt_inside (by omega), readOpt_inside (by omega)]
    rfl
  rw [if_neg hts, if_neg hts, if_neg hts]
  congr 1
  omega

/-- The loop of `cmt_tcp_parse_timestamp` ends at offset `i`. -/
def TimestampStop (opt : ℕ → U8) (len i : ℕ) : Prop :=
  OptionsStop opt len i ∨ opt i = tcpOptTimestamp

/-- Where an iteration of `cmt_tcp_parse_timestamp` at offset `i` leads. -/
def timestampNext (opt : ℕ → U8) (i : ℕ) : ℕ :=
  if opt i = tcpOptNop then i + 2 else i + (opt (i + 1)).toNat + 1

/-- An iteration of `cmt_tcp_parse_timestamp` at an option whose bytes are not all there. -/
theorem parseTimestampWithin_fault (h : ¬OptionFits timestampReads bs i) :
    ∃ j, parseTimestampWithin (optionArea bs) bs.length (fuel + 1) i = .error (.outside j) := by
  unfold OptionFits at h
  push Not at h
  obtain ⟨hi, hend, hnop, hmiss⟩ := h
  unfold parseTimestampWithin
  rw [if_pos hi, readOpt_inside hi]
  change ∃ j, (if optionByte bs i = tcpOptEnd then _ else _) = _
  rw [if_neg hend, if_neg hnop]
  -- the length byte may be the one that is missing
  refine readOpt_bind_outside (or_iff_not_imp_left.mpr fun hlen => ?_)
  obtain ⟨hfit, hshort⟩ := hmiss (by omega)
  rw [if_neg (by omega)]
  unfold timestampReads at hshort
  by_cases hts : optionByte bs i = tcpOptTimestamp
  · -- of the eight bytes that follow, the last one at least is missing
    rw [if_pos hts] at hshort ⊢
    refine readOpt_bind_outside (or_iff_not_imp_left.mpr fun _ => ?_)
    refine readOpt_bind_outside (or_iff_not_imp_left.mpr fun _ => ?_)
    refine readOpt_bind_outside (or_iff_not_imp_left.mpr fun _ => ?_)
    refine readOpt_bind_outside (or_iff_not_imp_left.mpr fun _ => ?_)
    refine readOpt_bind_outside (or_iff_not_imp_left.mpr fun _ => ?_)
    refine readOpt_bind_outside (or_iff_not_imp_left.mpr fun _ => ?_)
    refine readOpt_bind_outside (or_iff_not_imp_left.mpr fun _ => ?_)
    exact readOpt_bind_outside (.inl (by omega))
  · rw [if_neg hts] at hshort
    omega

theorem parseTimestampWithin_stop (h : OptionFits timestampReads bs i)
    (hstop : TimestampStop (optionByte bs) bs.length i) :
    ∃ r, parseTimestampWithin (optionArea bs) bs.length (fuel + 1) i = .ok r := by
  unfold parseTimestampWithin
  by_cases hi : i < bs.length
  · rw [if_pos hi, readOpt_inside hi]
    change ∃ r, (if optionByte bs i = tcpOptEnd then _ else _) = _
    by_cases hend : optionByte bs i = tcpOptEnd
    · exact ⟨none, if_pos hend⟩
    -- the loop goes on behind a `NOP`, so this is an option with a length
    have hnop : optionByte bs i ≠ tcpOptNop := by
      rcases hstop with hstop | hts
      · exact (hstop.resolve_left (by omega) |>.resolve_left hend).1
      · rw [hts]
        decide
    obtain ⟨hlen, hops⟩ := h hi hend hnop
    rw [if_neg hend, if_neg hnop, readOpt_inside (by omega)]
    change ∃ r, (if i + 2 + (optionByte bs (i + 1)).toNat - 2 > bs.length then _ else _) = _
    by_cases hlong : i + 2 + (optionByte bs (i + 1)).toNat - 2 > bs.length
    · exact ⟨none, if_pos hlong⟩
    replace hops := hops (by omega)
    have hts : optionByte bs i = tcpOptTimestamp := by
      rcases hstop with hstop | hts
      · have := (hstop.resolve_left (by omega) |>.resolve_left hend).2
        omega
      · exact hts
    unfold timestampReads at hops
    rw [if_pos hts] at hops
    rw [if_neg hlong, if_pos hts]
    rw [readOpt_inside (by omega), readOpt_inside (by omega), readOpt_inside (by omega),
      readOpt_inside (by omega), readOpt_inside (by omega), readOpt_inside (by omega),
      readOpt_inside (by omega), readOpt_inside (by omega)]
    exact ⟨_, rfl⟩
  · exact ⟨none, if_neg hi⟩

theorem parseTimestampWithin_next (h : OptionFits timestampReads bs i)
    (hgo : ¬TimestampStop (optionByte bs) bs.length i) :
    parseTimestampWithin (optionArea bs) bs.length (fuel + 1) i =
      parseTimestampWithin (optionArea bs) bs.length fuel (timestampNext (optionByte bs) i) := by
  unfold TimestampStop OptionsStop at hgo
  push Not at hgo
  obtain ⟨⟨hi, hend, hfit⟩, hts⟩ := hgo
  conv_lhs => unfold parseTimestampWithin
  unfold timestampNext
  rw [if_pos hi, readOpt_inside hi]
  change (if optionByte bs i = tcpOptEnd then _ else _) = _
  rw [if_neg hend]
  by_cases hnop : optionByte bs i = tcpOptNop
  · rw [if_pos hnop, if_pos hnop]
  have hlen := (h hi hend hnop).1
  have hlong := hfit hnop
  rw [if_neg hnop, if_neg hnop, readOpt_inside (by omega)]
  change (if i + 2 + (optionByte bs (i + 1)).toNat - 2 > bs.length then _ else _) = _
  -- no operand is read, since the loop would have ended at a time stamp
  rw [if_neg (by omega), if_neg hts]
  congr 1
  omega

/-! ### Reads inside the area -/

/-- `cmt_tcp_parse_options` over the bytes `bs`. -/
def optionsWalk (ρ : Type) (bs : List U8) (curTs : U32) : OptionWalk (Stream ρ) (Stream ρ) where
  run := parseOptionsWithin (optionArea bs) bs.length curTs
  Fits := OptionFits optionReads bs
  Stop := OptionsStop (optionByte bs) bs.length
  next := optionNext (optionByte bs)
  effect := optionEffect (optionByte bs) curTs
  run_zero _ _ := rfl
  run_fault _ _ _ h := parseOptionsWithin_fault h
  run_stop _ _ s h hstop := ⟨s, parseOptionsWithin_stop h hstop⟩
  run_next _ _ _ h hgo := parseOptionsWithin_next h hgo

/-- `cmt_tcp_parse_timestamp` over the bytes `bs`; the loop keeps nothing but the offset. -/
def timestampWalk (bs : List U8) : OptionWalk Unit (Option (U32 × U32)) where
  run fuel i _ := parseTimestampWithin (optionArea bs) bs.length fuel i
  Fits := OptionFits timestampReads bs
  Stop := TimestampStop (optionByte bs) bs.length
  next := timestampNext (optionByte bs)
  effect _ s := s
  run_zero _ _ := rfl
  run_fault _ _ _ h := parseTimestampWithin_fault h
  run_stop _ _ _ h hstop := parseTimestampWithin_stop h hstop
  run_next _ _ _ h hgo := parseTimestampWithin_next h hgo

/-- The offsets at which `cmt_tcp_parse_timestamp` finds an option. -/
inductive TimestampStarts (opt : ℕ → U8) (len : ℕ) : ℕ → Prop
  | first : TimestampStarts opt len 0
  | next {i : ℕ} (h : TimestampStarts opt len i) (hgo : ¬TimestampStop opt len i) :
      TimestampStarts opt len (timestampNext opt i)

theorem optionsWalk_starts_iff :
    (optionsWalk ρ bs curTs).Starts i ↔ OptionStarts (optionByte bs) bs.length i := by
  constructor <;> intro h
  · induction h with
    | first => exact .first
    | next _ hgo ih => exact .next ih hgo
  · induction h with
    | first => exact .first
    | next _ hgo ih => exact @OptionWalk.Starts.next _ _ (optionsWalk ρ bs curTs) _ ih hgo

theorem timestampWalk_starts_iff :
    (timestampWalk bs).Starts i ↔ TimestampStarts (optionByte bs) bs.length i := by
  constructor <;> intro h
  · induction h with
    | first => exact .first
    | next _ hgo ih => exact .next ih hgo
  · induction h with
    | first => exact .first
    | next _ hgo ih => exact @OptionWalk.Starts.next _ _ (timestampWalk bs) _ ih hgo

/-- No iteration of either loop over the option bytes `bs` reads a byte outside of them. -/
def OptionReadsInside (bs : List U8) (curTs : U32) (s : Stream ρ) : Prop :=
  ∀ fuel j,
    parseOptionsWithin (optionArea bs) bs.length curTs fuel 0 s ≠ .error (.outside j) ∧
      parseTimestampWithin (optionArea bs) bs.length fuel 0 ≠ .error (.outside j)

/-- **Reads of option bytes.** Whatever the bytes are, all reads of the two loops lie in the area
exactly when each loop finds, at every option it comes to, the bytes that it reads there. -/
theorem optionReads_inside_iff (bs : List U8) (curTs : U32) (s : Stream ρ) :
    OptionReadsInside bs curTs s ↔
      (∀ i, OptionStarts (optionByte bs) bs.length i → OptionFits optionReads bs i) ∧
        ∀ i, TimestampStarts (optionByte bs) bs.length i → OptionFits timestampReads bs i := by
  have hoptions := @OptionWalk.insideFrom_iff _ _ (optionsWalk ρ bs curTs) s
  have htimestamp := @OptionWalk.insideFrom_iff _ _ (timestampWalk bs) ()
  simp only [optionsWalk_starts_iff] at hoptions
  simp only [timestampWalk_starts_iff] at htimestamp
  rw [show (∀ i, OptionStarts (optionByte bs) bs.length i → OptionFits optionReads bs i) ↔ _ from
      hoptions.symm,
    show (∀ i, TimestampStarts (optionByte bs) bs.length i → OptionFits timestampReads bs i) ↔ _ from
      htimestamp.symm]
  exact ⟨fun h => ⟨fun fuel j => (h fuel j).1, fun fuel j => (h fuel j).2⟩,
    fun h fuel j => ⟨h.1 fuel j, h.2 fuel j⟩⟩

/-- The area of a header of 24 bytes that ends with the kind of an option: the length byte is read
behind it. -/
theorem optionReads_truncated :
    ¬OptionReadsInside [tcpOptNop, tcpOptNop, tcpOptNop, tcpOptMss] 0 (default : Stream Unit) :=
  fun h => (h 4 4).1 rfl

end Area

end CmtTcp
