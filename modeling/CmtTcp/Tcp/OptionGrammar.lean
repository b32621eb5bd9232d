import CmtTcp.Tcp.Options

/-!
# What the options of a segment mean

`cmt_tcp_parse_options` against the option strings of TCP.

* `parseOptions_ends_iff`: the loop ends unless it comes to an unknown option of length `0`, where it
  stands still;
* `parseOptions_wellFormed`: on a well-formed option string the loop ends, has read the options and
  `END` and nothing else, and leaves the stream as the options say, one after the other.

Reads are made visible in `parseOptionsWithin`, the same loop over a memory that only holds some of
the bytes. It fails where it reads another one (`parseOptionsWithin_sound` relates the two).
-/

namespace CmtTcp

variable {ρ : Type}

/-! ### Where the loop stands still -/

section Ends

variable {opt : ℕ → U8} {len fuel i : ℕ} {curTs : U32} {s t : Stream ρ}

/-- The offsets at which the loop finds an option: the first one, and wherever an option that does
not end the loop leads. -/
inductive OptionStarts (opt : ℕ → U8) (len : ℕ) : ℕ → Prop
  | first : OptionStarts opt len 0
  | next {i : ℕ} (h : OptionStarts opt len i) (hgo : ¬OptionsStop opt len i) :
      OptionStarts opt len (optionNext opt i)

/-- The kinds that the loop has a branch for. -/
def knownOptions : List U8 :=
  [tcpOptEnd, tcpOptNop, tcpOptMss, tcpOptWscale, tcpOptSackPermit, tcpOptTimestamp]

/-- There is an option of unknown kind at offset `i`, and its length byte is `0`. -/
def ZeroOption (opt : ℕ → U8) (i : ℕ) : Prop := opt i ∉ knownOptions ∧ opt (i + 1) = 0

/-- The options that the loop does not get past. -/
theorem optionNext_eq_self_iff (hend : opt i ≠ tcpOptEnd) :
    optionNext opt i = i ↔ ZeroOption opt i := by
  unfold optionNext ZeroOption knownOptions
  simp only [List.mem_cons, List.not_mem_nil, or_false, not_or]
  constructor
  · intro h
    -- a known option leads further on, so the kind is none of them
    split at h; · omega
    split at h; · omega
    split at h; · omega
    split at h; · omega
    split at h; · omega
    next hnop hmss hws hsack hts =>
      refine ⟨⟨hend, hnop, hmss, hws, hsack, hts⟩, ?_⟩
      apply BitVec.eq_of_toNat_eq
      change (opt (i + 1)).toNat = 0
      omega
  · rintro ⟨⟨_, hnop, hmss, hws, hsack, hts⟩, hzero⟩
    rw [if_neg hnop, if_neg hmss, if_neg hws, if_neg hsack, if_neg hts, hzero]
    rfl

theorem ZeroOption.not_stop (h : ZeroOption opt i) (hi : i < len) : ¬OptionsStop opt len i := by
  rintro (hle | hend | ⟨-, hlong⟩)
  · omega
  · exact h.1 (by rw [hend]; exact List.mem_cons_self)
  · rw [h.2] at hlong
    exact absurd hlong (by simpa using hi.le)

/-- At such an option every iteration is followed by the same one. -/
theorem ZeroOption.parseOptionsLoop_eq_none (h : ZeroOption opt i) (hi : i < len) (fuel : ℕ) :
    parseOptionsLoop opt len curTs fuel i s = none := by
  have hend : opt i ≠ tcpOptEnd := fun hend => h.1 (by rw [hend]; exact List.mem_cons_self)
  induction fuel generalizing s with
  | zero => rfl
  | succ fuel ih =>
    rw [parseOptionsLoop_next (h.not_stop hi), (optionNext_eq_self_iff hend).mpr h]
    exact ih

/-- When the loop ends, it ends from every offset it passes. -/
theorem OptionStarts.ends (h : OptionStarts opt len i)
    (hends : parseOptionsLoop opt len curTs fuel 0 s = some t) :
    ∃ n s' t', parseOptionsLoop (ρ := ρ) opt len curTs n i s' = some t' := by
  induction h with
  | first => exact ⟨fuel, s, t, hends⟩
  | next _ hgo ih =>
    obtain ⟨n, s', t', hn⟩ := ih
    cases n with
    | zero => cases hn
    | succ n =>
      rw [parseOptionsLoop_next hgo] at hn
      exact ⟨n, _, t', hn⟩

/-- From an offset on the way, when no option on the way has length `0`, the loop ends. -/
theorem OptionStarts.parseOptionsLoop_ends
    (hgood : ∀ i, OptionStarts opt len i → i < len → ¬ZeroOption opt i)
    (h : OptionStarts opt len i) (s : Stream ρ) :
    ∃ n t, parseOptionsLoop opt len curTs n i s = some t := by
  -- every iteration leaves fewer bytes to go
  induction hm : len - i using Nat.strong_induction_on generalizing i s with
  | _ m ih =>
    by_cases hstop : OptionsStop opt len i
    · exact ⟨1, s, parseOptionsLoop_stop hstop⟩
    have hi : i < len := Nat.not_le.mp fun hle => hstop (.inl hle)
    have hend : opt i ≠ tcpOptEnd := fun hend => hstop (.inr (.inl hend))
    have hmove : optionNext opt i ≠ i := fun hsame =>
      hgood i h hi ((optionNext_eq_self_iff hend).mp hsame)
    have hle := le_optionNext opt i
    obtain ⟨n, t, hn⟩ := ih (len - optionNext opt i) (by omega) (.next h hstop)
      (optionEffect opt curTs i s) rfl
    refine ⟨n + 1, t, ?_⟩
    rw [parseOptionsLoop_next hstop]
    exact hn

/-- **When parsing ends.** Whatever the bytes are, the loop ends exactly when none of the options it
comes to is of unknown kind with length `0`. -/
theorem parseOptions_ends_iff (opt : ℕ → U8) (len : ℕ) (curTs : U32) (s : Stream ρ) :
    (∃ fuel t, parseOptionsLoop opt len curTs fuel 0 s = some t) ↔
      ∀ i, OptionStarts opt len i → i < len → ¬ZeroOption opt i := by
  constructor
  · rintro ⟨fuel, t, hends⟩ i hstart hi hzero
    obtain ⟨n, s', t', hn⟩ := hstart.ends hends
    rw [hzero.parseOptionsLoop_eq_none hi] at hn
    cases hn
  · intro hgood
    exact OptionStarts.first.parseOptionsLoop_ends hgood s

/-- Four option bytes that start with an unknown option of length `0` are never parsed. -/
theorem parseOptions_hangs :
    ¬∃ fuel t, parseOptionsLoop (fun i => if i = 0 then 5 else 0) 4 0 fuel 0
      (default : Stream Unit) = some t := by
  rintro ⟨fuel, t, h⟩
  have hzero : ZeroOption (fun i => if i = 0 then 5 else 0) 0 := ⟨by decide, rfl⟩
  rw [hzero.parseOptionsLoop_eq_none (by omega)] at h
  cases h

end Ends

/-! ### Reads -/

/-- Why parsing over a partial memory gives no stream. -/
inductive OptionFault
  /-- the byte at this offset was read and is not there -/
  | outside (i : ℕ)
  /-- the iterations did not end the loop -/
  | endless
deriving DecidableEq, Repr

/-- `*(tcpopt + i)` -/
def readOpt (mem : ℕ → Option U8) (i : ℕ) : Except OptionFault U8 :=
  match mem i with
  | some b => .ok b
  | none => .error (.outside i)

/-- The loop of `cmt_tcp_parse_options` over the bytes that `mem` holds, with every read of an option
byte in its place. -/
def parseOptionsWithin (mem : ℕ → Option U8) (len : ℕ) (curTs : U32) :
    ℕ → ℕ → Stream ρ → Except OptionFault (Stream ρ)
  | 0, _, _ => .error .endless
  | fuel + 1, i, s =>
    if i < len then do
      let opt ← readOpt mem i
      if opt = tcpOptEnd then .ok s
      else if opt = tcpOptNop then parseOptionsWithin mem len curTs fuel (i + 1) s
      else do
        let optlen ← readOpt mem (i + 1)
        if i + 2 + optlen.toNat - 2 > len then .ok s
        else if opt = tcpOptMss then do
          let hi ← readOpt mem (i + 2)
          let lo ← readOpt mem (i + 3)
          let mss : U16 := hi ++ lo
          parseOptionsWithin mem len curTs fuel (i + 4)
            { s with snd := { s.snd with mss := mss, effMss := mss - (tcpoptTimestampsLen + 2) } }
        else if opt = tcpOptWscale then do
          let scale ← readOpt mem (i + 2)
          parseOptionsWithin mem len curTs fuel (i + 3)
            { s with snd := { s.snd with wscalePeer := scale } }
        else if opt = tcpOptSackPermit then
          parseOptionsWithin mem len curTs fuel (i + 2) { s with sackPermit := true }
        else if opt = tcpOptTimestamp then do
          let b₀ ← readOpt mem (i + 2)
          let b₁ ← readOpt mem (i + 3)
          let b₂ ← readOpt mem (i + 4)
          let b₃ ← readOpt mem (i + 5)
          parseOptionsWithin mem len curTs fuel (i + 10)
            { s with
              sawTimestamp := true
              rcv := { s.rcv with tsRecent := b₀ ++ b₁ ++ b₂ ++ b₃, tsLastTsUpd := curTs } }
        else parseOptionsWithin mem len curTs fuel (i + 2 + optlen.toNat - 2) s
    else .ok s

/-- `mem` holds the bytes `bs` from offset `i` on. -/
def HoldsAt (mem : ℕ → Option U8) : ℕ → List U8 → Prop
  | _, [] => True
  | i, b :: bs => mem i = some b ∧ HoldsAt mem (i + 1) bs

section Reads

variable {mem : ℕ → Option U8} {opt : ℕ → U8} {len fuel i : ℕ} {curTs : U32} {s t : Stream ρ}
  {b : U8} {bs bs' : List U8}

@[simp] theorem readOpt_of_some (h : mem i = some b) : readOpt mem i = .ok b := by
  unfold readOpt
  rw [h]

@[simp] theorem holdsAt_cons :
    HoldsAt mem i (b :: bs) ↔ mem i = some b ∧ HoldsAt mem (i + 1) bs := Iff.rfl

theorem HoldsAt.append_iff :
    HoldsAt mem i (bs ++ bs') ↔ HoldsAt mem i bs ∧ HoldsAt mem (i + bs.length) bs' := by
  induction bs generalizing i with
  | nil => simp [HoldsAt]
  | cons b bs ih =>
    rw [List.cons_append, holdsAt_cons, holdsAt_cons, ih, List.length_cons, and_assoc]
    rw [show i + 1 + bs.length = i + (bs.length + 1) by omega]

/-- A list of bytes holds itself. -/
theorem holdsAt_getElem? (pre bs : List U8) : HoldsAt (fun i => (pre ++ bs)[i]?) pre.length bs := by
  induction bs generalizing pre with
  | nil => trivial
  | cons b bs ih =>
    refine ⟨by simp, ?_⟩
    have h := ih (pre ++ [b])
    rwa [List.append_assoc, List.length_append] at h

/-- A computation that reads a byte and returns found the byte there. -/
theorem readOpt_bind_ok {α : Type} {f : U8 → Except OptionFault α} {r : α}
    (hmem : ∀ i b, mem i = some b → opt i = b) (h : readOpt mem i >>= f = .ok r) :
    f (opt i) = .ok r := by
  unfold readOpt at h
  split at h
  · next b hb =>
    rw [hmem i b hb]
    exact h
  · cases h

/-- What parsing over a partial memory yields, it yields over every memory with these bytes in it. -/
theorem parseOptionsWithin_sound (hmem : ∀ i b, mem i = some b → opt i = b)
    (h : parseOptionsWithin mem len curTs fuel i s = .ok t) :
    parseOptionsLoop opt len curTs fuel i s = some t := by
  induction fuel generalizing i s with
  | zero => cases h
  | succ fuel ih =>
    unfold parseOptionsWithin at h
    unfold parseOptionsLoop
    dsimp only at h ⊢
    by_cases hi : i < len
    · rw [if_pos hi] at h ⊢
      replace h := readOpt_bind_ok hmem h
      by_cases hend : opt i = tcpOptEnd
      · rw [if_pos hend] at h ⊢
        cases h
        rfl
      rw [if_neg hend] at h ⊢
      by_cases hnop : opt i = tcpOptNop
      · rw [if_pos hnop] at h ⊢
        exact ih h
      rw [if_neg hnop] at h ⊢
      replace h := readOpt_bind_ok hmem h
      by_cases hlong : i + 2 + (opt (i + 1)).toNat - 2 > len
      · rw [if_pos hlong] at h ⊢
        cases h
        rfl
      rw [if_neg hlong] at h ⊢
      -- past the length test each kind reads its own bytes and goes on
      by_cases hmss : opt i = tcpOptMss
      · rw [if_pos hmss] at h ⊢
        exact ih (readOpt_bind_ok hmem (readOpt_bind_ok hmem h))
      rw [if_neg hmss] at h ⊢
      by_cases hws : opt i = tcpOptWscale
      · rw [if_pos hws] at h ⊢
        exact ih (readOpt_bind_ok hmem h)
      rw [if_neg hws] at h ⊢
      by_cases hsack : opt i = tcpOptSackPermit
      · rw [if_pos hsack] at h ⊢
        exact ih h
      rw [if_neg hsack] at h ⊢
      by_cases hts : opt i = tcpOptTimestamp
      · rw [if_pos hts] at h ⊢
        replace h := readOpt_bind_ok hmem (readOpt_bind_ok hmem h)
        exact ih (readOpt_bind_ok hmem (readOpt_bind_ok hmem h))
      rw [if_neg hts] at h ⊢
      exact ih h
    · rw [if_neg hi] at h ⊢
      cases h
      rfl

end Reads

/-! ### Well-formed option strings -/

/-- `htonl`, as the bytes of the network order -/
def bigEndian (x : U32) : List U8 :=
  [x.extractLsb' 24 8, x.extractLsb' 16 8, x.extractLsb' 8 8, x.extractLsb' 0 8]

/-- One option, `END` aside. -/
inductive TcpOption
  | nop
  | mss (hi lo : U8)
  | wscale (shift : U8)
  | sackPermit
  | timestamp (val ref : U32)
  | other (kind : U8) (body : List U8) (hkind : kind ∉ knownOptions) (hlen : body.length + 2 < 256)

/-- The bytes of an option: its kind, its length with these two bytes, its operands. -/
def TcpOption.bytes : TcpOption → List U8
  | nop => [tcpOptNop]
  | mss hi lo => [tcpOptMss, 4, hi, lo]
  | wscale shift => [tcpOptWscale, 3, shift]
  | sackPermit => [tcpOptSackPermit, 2]
  | timestamp val ref => tcpOptTimestamp :: 10 :: (bigEndian val ++ bigEndian ref)
  | other kind body _ _ => kind :: BitVec.ofNat 8 (body.length + 2) :: body

/-- What an option says about the connection. -/
def TcpOption.apply (curTs : U32) (s : Stream ρ) : TcpOption → Stream ρ
  | nop => s
  | mss hi lo =>
    let size : U16 := 256 * hi.setWidth 16 + lo.setWidth 16
    { s with snd := { s.snd with mss := size, effMss := size - 12 } }
  | wscale shift => { s with snd := { s.snd with wscalePeer := shift } }
  | sackPermit => { s with sackPermit := true }
  | timestamp val _ =>
    { s with
      sawTimestamp := true
      rcv := { s.rcv with tsRecent := val, tsLastTsUpd := curTs } }
  | other _ _ _ _ => s

/-- A well-formed option string: options, and perhaps `END` with anything behind it. -/
structure OptionString where
  options : List TcpOption
  trailer : Option (List U8)

namespace OptionString

/-- The options and `END`. -/
def upToEnd (o : OptionString) : List U8 :=
  match o.trailer with
  | none => o.options.flatMap TcpOption.bytes
  | some _ => o.options.flatMap TcpOption.bytes ++ [tcpOptEnd]

/-- The whole string. -/
def bytes (o : OptionString) : List U8 := o.upToEnd ++ o.trailer.getD []

end OptionString

section WellFormed

variable {mem : ℕ → Option U8} {len fuel i : ℕ} {curTs : U32} {s : Stream ρ}

theorem append_bytes (hi lo : U8) :
    (hi ++ lo : U16) = 256 * hi.setWidth 16 + lo.setWidth 16 := by
  apply BitVec.eq_of_toNat_eq
  rw [BitVec.toNat_append, ← Nat.shiftLeft_add_eq_or_of_lt lo.isLt, Nat.shiftLeft_eq]
  bv_omega

/-- Where the memory holds an option, one iteration consumes its bytes and applies it. -/
theorem parseOptionsWithin_option (o : TcpOption) (hmem : HoldsAt mem i o.bytes)
    (hfit : i + o.bytes.length ≤ len) :
    parseOptionsWithin mem len curTs (fuel + 1) i s =
      parseOptionsWithin mem len curTs fuel (i + o.bytes.length) (o.apply curTs s) := by
  have hlt : i < len := by
    have hpos : 0 < o.bytes.length := by
      cases o with
      | _ => exact Nat.succ_pos _
    omega
  conv_lhs => unfold parseOptionsWithin
  rw [if_pos hlt]
  cases o with
  | nop =>
    obtain ⟨hkind, -⟩ := hmem
    rw [readOpt_of_some hkind]
    rfl
  | mss hi lo =>
    obtain ⟨hkind, hlen, hhi, hlo, -⟩ := hmem
    rw [readOpt_of_some hkind, readOpt_of_some hlen, readOpt_of_some hhi, readOpt_of_some hlo]
    change (if i + 2 + 4 - 2 > len then _ else parseOptionsWithin mem len curTs fuel (i + 4)
      { s with snd := { s.snd with
          mss := hi ++ lo, effMss := (hi ++ lo) - (tcpoptTimestampsLen + 2) } }) = _
    refine (if_neg (Nat.not_lt.mpr hfit)).trans ?_
    rw [append_bytes]
    rfl
  | wscale shift =>
    obtain ⟨hkind, hlen, hshift, -⟩ := hmem
    rw [readOpt_of_some hkind, readOpt_of_some hlen, readOpt_of_some hshift]
    exact if_neg (Nat.not_lt.mpr hfit)
  | sackPermit =>
    obtain ⟨hkind, hlen, -⟩ := hmem
    rw [readOpt_of_some hkind, readOpt_of_some hlen]
    exact if_neg (Nat.not_lt.mpr hfit)
  | timestamp val ref =>
    obtain ⟨hkind, hlen, h₀, h₁, h₂, h₃, -⟩ := hmem
    rw [readOpt_of_some hkind, readOpt_of_some hlen, readOpt_of_some h₀, readOpt_of_some h₁,
      readOpt_of_some h₂, readOpt_of_some h₃]
    change (if i + 2 + 10 - 2 > len then _ else parseOptionsWithin mem len curTs fuel (i + 10)
      { s with
        sawTimestamp := true
        rcv := { s.rcv with tsRecent := _, tsLastTsUpd := curTs } }) = _
    refine (if_neg (Nat.not_lt.mpr hfit)).trans ?_
    rw [append_four_bytes]
    rfl
  | other kind body hkind hlen =>
    obtain ⟨hk, hl, -⟩ := hmem
    -- the length byte is the length, as it is less than 256
    have hbyte : (BitVec.ofNat 8 (body.length + 2)).toNat = body.length + 2 :=
      Nat.mod_eq_of_lt hlen
    change i + (body.length + 2) ≤ len at hfit
    unfold knownOptions at hkind
    simp only [List.mem_cons, List.not_mem_nil, or_false, not_or] at hkind
    obtain ⟨hend, hnop, hmss, hws, hsack, hts⟩ := hkind
    rw [readOpt_of_some hk, readOpt_of_some hl]
    change (if kind = tcpOptEnd then _ else if kind = tcpOptNop then _ else
      if i + 2 + (BitVec.ofNat 8 (body.length + 2)).toNat - 2 > len then _
      else if kind = tcpOptMss then _ else if kind = tcpOptWscale then _
      else if kind = tcpOptSackPermit then _ else if kind = tcpOptTimestamp then _ else _) = _
    rw [if_neg hend, if_neg hnop, hbyte, if_neg (by omega), if_neg hmss, if_neg hws, if_neg hsack,
      if_neg hts, show i + 2 + (body.length + 2) - 2 = i + (body.length + 2) by omega]
    rfl

/-- The loop over options, from where the first one starts. -/
theorem parseOptionsWithin_options (os : List TcpOption)
    (hmem : HoldsAt mem i (os.flatMap TcpOption.bytes))
    (hfit : i + (os.flatMap TcpOption.bytes).length ≤ len) :
    parseOptionsWithin mem len curTs (fuel + os.length) i s =
      parseOptionsWithin mem len curTs fuel (i + (os.flatMap TcpOption.bytes).length)
        (os.foldl (TcpOption.apply curTs) s) := by
  induction os generalizing i s with
  | nil => rfl
  | cons o os ih =>
    rw [List.flatMap_cons, HoldsAt.append_iff] at hmem
    rw [List.flatMap_cons, List.length_append] at hfit ⊢
    rw [List.length_cons, ← Nat.add_assoc, parseOptionsWithin_option o hmem.1 (by omega),
      ih hmem.2 (by omega), Nat.add_assoc]
    rfl

/-- An option takes a byte at least. -/
theorem length_le_flatMap_bytes (os : List TcpOption) :
    os.length ≤ (os.flatMap TcpOption.bytes).length := by
  induction os with
  | nil => exact Nat.le_refl _
  | cons o os ih =>
    have hpos : 0 < o.bytes.length := by
      cases o with
      | _ => exact Nat.succ_pos _
    rw [List.flatMap_cons, List.length_append, List.length_cons]
    omega

/-- The options and `END` are all that is read. -/
theorem parseOptionsWithin_upToEnd (o : OptionString) (curTs : U32) (s : Stream ρ) :
    parseOptionsWithin (fun i => o.upToEnd[i]?) o.bytes.length curTs (o.bytes.length + 1) 0 s =
      .ok (o.options.foldl (TcpOption.apply curTs) s) := by
  obtain ⟨os, trailer⟩ := o
  have hcount := length_le_flatMap_bytes os
  generalize hbs : os.flatMap TcpOption.bytes = bs at hcount
  -- the loop goes over the options first
  have hoptions : ∀ (tail : List U8) (len : ℕ), bs.length ≤ len →
      parseOptionsWithin (fun i => (bs ++ tail)[i]?) len curTs (len + 1) 0 s =
        parseOptionsWithin (fun i => (bs ++ tail)[i]?) len curTs (len - os.length + 1) bs.length
          (os.foldl (TcpOption.apply curTs) s) := by
    intro tail len hlen
    have hmem : HoldsAt (fun i => (bs ++ tail)[i]?) 0 (bs ++ tail) := holdsAt_getElem? [] _
    have h := @parseOptionsWithin_options ρ _ len (len - os.length + 1) 0 curTs s os
      (by rw [hbs]; exact (HoldsAt.append_iff.mp hmem).1) (by rw [hbs]; omega)
    rw [hbs, Nat.zero_add] at h
    rw [← h]
    congr 1
    omega
  unfold OptionString.bytes OptionString.upToEnd
  dsimp only
  rw [hbs]
  cases trailer with
  | none =>
    have h := hoptions [] bs.length (Nat.le_refl _)
    rw [List.append_nil] at h
    rw [Option.getD_none, List.append_nil, h]
    exact if_neg (Nat.lt_irrefl _)
  | some rest =>
    rw [Option.getD_some, hoptions _ _ (by simp)]
    -- the byte behind the options is `END`
    have hend : (bs ++ [tcpOptEnd])[bs.length]? = some tcpOptEnd := by simp
    have hlt : bs.length < (bs ++ [tcpOptEnd] ++ rest).length := by simp
    unfold parseOptionsWithin
    rw [if_pos hlt, readOpt_of_some hend]
    rfl

/-- **Parsing well-formed options.** The loop over a well-formed string ends with the stream that the
options before `END` make of it, one after the other. It does so in a memory that holds the options
and `END` only, and in every memory in which the string lies. -/
theorem parseOptions_wellFormed (o : OptionString) (curTs : U32) (s : Stream ρ) :
    parseOptionsWithin (fun i => o.upToEnd[i]?) o.bytes.length curTs (o.bytes.length + 1) 0 s =
        .ok (o.options.foldl (TcpOption.apply curTs) s) ∧
      ∀ opt : ℕ → U8, (∀ i b, o.bytes[i]? = some b → opt i = b) →
        parseOptionsLoop opt o.bytes.length curTs (o.bytes.length + 1) 0 s =
          some (o.options.foldl (TcpOption.apply curTs) s) := by
  have hread := parseOptionsWithin_upToEnd o curTs s
  refine ⟨hread, fun opt hopt => parseOptionsWithin_sound (fun i b hb => hopt i b ?_) hread⟩
  -- what lies before `END` lies in the string
  rw [OptionString.bytes, List.getElem?_append_left (List.getElem?_eq_some_iff.mp hb).1]
  exact hb

end WellFormed

end CmtTcp
