import CmtTcp.Tcp.OptionEncoder
import CmtTcp.Tcp.OptionReads

/-!
# The two option parsers on time stamps

`cmt_tcp_parse_options` takes one option after the other. The loop of `cmt_tcp_parse_timestamp` moves on once
more at its head, so it skips the byte behind every option it passes: a `NOP` there is padding and does not
matter, anything else and the loop takes the middle of an option for the start of one.

* `timestamps_agree_inPhase`: the two parsers agree on a well-formed string where every option in front of
  its first time stamp that the loop comes to is padded with a `NOP`, or is the last;
* `inPhase_iff`: these are the strings on which the loop comes to options only.
-/

namespace CmtTcp

variable {ρ : Type}

/-! ### The skipping walk -/

/-- At offset `i` lies an option of the kind of time stamps that is not too long, with the two words
of `p`. -/
def TimestampAt (opt : ℕ → U8) (len i : ℕ) (p : U32 × U32) : Prop :=
  (i < len ∧ opt i = tcpOptTimestamp ∧ i + (opt (i + 1)).toNat ≤ len) ∧
    p = (optWord opt (i + 2), optWord opt (i + 6))

section Walk

variable {opt : ℕ → U8} {len fuel i : ℕ} {p : U32 × U32}

theorem TimestampAt.parse (h : TimestampAt opt len i p) :
    parseTimestampLoop opt len (fuel + 1) i = some p := by
  obtain ⟨⟨hi, hkind, hfit⟩, rfl⟩ := h
  have hend : opt i ≠ tcpOptEnd := by rw [hkind]; decide
  have hnop : opt i ≠ tcpOptNop := by rw [hkind]; decide
  unfold parseTimestampLoop
  rw [if_pos hi, if_neg hend, if_neg hnop]
  exact (if_neg (by omega)).trans (if_pos hkind)

theorem parseTimestampLoop_next (h : ¬TimestampStop opt len i) :
    parseTimestampLoop opt len (fuel + 1) i = parseTimestampLoop opt len fuel (timestampNext opt i) := by
  unfold TimestampStop OptionsStop at h
  push Not at h
  obtain ⟨⟨hi, hend, hfit⟩, hts⟩ := h
  conv_lhs => unfold parseTimestampLoop
  unfold timestampNext
  rw [if_pos hi, if_neg hend]
  by_cases hnop : opt i = tcpOptNop
  · rw [if_pos hnop, if_pos hnop]
  · have hle := hfit hnop
    rw [if_neg hnop, if_neg hnop]
    refine (if_neg (by omega)).trans ((if_neg hts).trans ?_)
    congr 1
    omega

end Walk

/-! ### Agreement -/

/-- The words of a time stamp. -/
def TcpOption.stamp : TcpOption → Option (U32 × U32)
  | timestamp val ref => some (val, ref)
  | _ => none

/-- The words of the first time stamp among options. -/
def firstTimestamp (os : List TcpOption) : Option (U32 × U32) := os.findSome? TcpOption.stamp

/-- Over the string `o`, which lies in the memory `opt`, the parsers agree on time stamps. -/
structure TimestampsAgree (ρ : Type) (o : OptionString) (opt : ℕ → U8) : Prop where
  /-- `cmt_tcp_parse_timestamp` returns `1` exactly when there is a time stamp before `END` -/
  found : parseTimestampLoop opt o.bytes.length o.bytes.length 0 ≠ none ↔
    ∃ val ref, TcpOption.timestamp val ref ∈ o.options
  /-- which is when `cmt_tcp_parse_options` sets `saw_timestamp` -/
  sets : ∀ (s : Stream ρ) (now : U32), s.sawTimestamp = false →
    ∃ t, parseOptionsLoop opt o.bytes.length now (o.bytes.length + 1) 0 s = some t ∧
      (t.sawTimestamp = true ↔ parseTimestampLoop opt o.bytes.length o.bytes.length 0 ≠ none)
  /-- and then yields the words of the first one -/
  words : ∀ p, parseTimestampLoop opt o.bytes.length o.bytes.length 0 = some p →
    firstTimestamp o.options = some p

section Agree

variable {o : OptionString} {opt : ℕ → U8} {os : List TcpOption}

theorem firstTimestamp_ne_none_iff :
    firstTimestamp os ≠ none ↔ ∃ val ref, TcpOption.timestamp val ref ∈ os := by
  unfold firstTimestamp
  rw [Ne, List.findSome?_eq_none_iff]
  push Not
  constructor
  · rintro ⟨o, ho, hne⟩
    cases o with
    | timestamp val ref => exact ⟨val, ref, ho⟩
    | _ => exact absurd rfl hne
  · rintro ⟨val, ref, h⟩
    exact ⟨_, h, Option.some_ne_none _⟩

/-- A time stamp among the options is what makes `saw_timestamp` set. -/
theorem foldl_apply_sawTimestamp (os : List TcpOption) (now : U32) (s : Stream ρ) :
    (os.foldl (TcpOption.apply now) s).sawTimestamp = true ↔
      s.sawTimestamp = true ∨ firstTimestamp os ≠ none := by
  unfold firstTimestamp
  induction os generalizing s with
  | nil => simp
  | cons o os ih =>
    rw [List.foldl_cons, ih, List.findSome?_cons]
    cases o with
    | timestamp val ref => simp [TcpOption.apply, TcpOption.stamp]
    | _ => exact Iff.rfl

/-- The parsers agree exactly when the loop finds the first time stamp. -/
theorem timestampsAgree_iff_eq (hopt : ∀ i b, o.bytes[i]? = some b → opt i = b) :
    TimestampsAgree ρ o opt ↔
      parseTimestampLoop opt o.bytes.length o.bytes.length 0 = firstTimestamp o.options := by
  constructor
  · intro h
    cases hloop : parseTimestampLoop opt o.bytes.length o.bytes.length 0 with
    | some p => exact (h.words p hloop).symm
    | none =>
      have hnone : ¬firstTimestamp o.options ≠ none := fun hne =>
        h.found.mpr (firstTimestamp_ne_none_iff.mp hne) hloop
      exact (not_not.mp hnone).symm
  · intro heq
    refine ⟨?_, fun s now hs => ?_, fun p hp => heq ▸ hp⟩
    · rw [heq, firstTimestamp_ne_none_iff]
    · refine ⟨_, (parseOptions_wellFormed o now s).2 opt hopt, ?_⟩
      rw [foldl_apply_sawTimestamp, heq, hs]
      simp

end Agree

/-! ### Padding -/

/-- There are bytes behind `END`. -/
def OptionString.hasRest (o : OptionString) : Bool := !(o.trailer.getD []).isEmpty

/-- In front of the first time stamp every option that the loop comes to is followed by a `NOP`, or is the
last; `rest` says whether there are bytes behind an `END`, which is no better to skip than an option. -/
def InPhase (rest : Bool) : List TcpOption → Prop
  | [] => True
  | [o] => o.stamp ≠ none ∨ rest = false
  | o :: o' :: os => o.stamp ≠ none ∨ o' = .nop ∧ InPhase rest os

/-- At offset `i` an option starts or the options end, or the area has ended before. -/
def OptionString.OnOption (o : OptionString) (i : ℕ) : Prop :=
  (∃ os, os <+: o.options ∧ i = (os.flatMap TcpOption.bytes).length) ∨ o.bytes.length ≤ i

section Padding

variable {opt : ℕ → U8} {len i n : ℕ} {o : TcpOption} {p : U32 × U32}

theorem HoldsAt.mono {mem mem' : ℕ → Option U8} {bs : List U8} (h : HoldsAt mem i bs)
    (hmem : ∀ j b, mem j = some b → mem' j = some b) : HoldsAt mem' i bs := by
  induction bs generalizing i with
  | nil => trivial
  | cons b bs ih => exact ⟨hmem i b h.1, ih h.2⟩

/-- At an option that is no time stamp the walk goes on, one byte behind its end. -/
theorem TcpOption.walk_next (hmem : HoldsAt (fun j => some (opt j)) i o.bytes)
    (hfit : i + o.bytes.length ≤ len) (hstamp : o.stamp = none) :
    ¬TimestampStop opt len i ∧ timestampNext opt i = i + o.bytes.length + 1 := by
  -- but for `NOP`, all that counts is a kind of its own and the length
  have hkind : ∀ kind, opt i = kind → kind ≠ tcpOptEnd → kind ≠ tcpOptNop →
      kind ≠ tcpOptTimestamp → (opt (i + 1)).toNat = o.bytes.length → 0 < o.bytes.length →
      ¬TimestampStop opt len i ∧ timestampNext opt i = i + o.bytes.length + 1 := by
    rintro _ rfl hend hnop hts hlen hpos
    refine ⟨?_, ?_⟩
    · rintro ((hle | h | ⟨-, hlong⟩) | h)
      · omega
      · exact hend h
      · omega
      · exact hts h
    · unfold timestampNext
      rw [if_neg hnop, hlen]
  have hbyte : ∀ {j : ℕ} {b : U8}, some (opt j) = some b → opt j = b := fun h => Option.some.inj h
  cases o with
  | timestamp val ref => cases hstamp
  | nop =>
    have hnop := hbyte hmem.1
    refine ⟨?_, if_pos hnop⟩
    change i + 1 ≤ len at hfit
    rintro ((hle | h | ⟨h, -⟩) | h)
    · omega
    · exact absurd (hnop.symm.trans h) (by decide)
    · exact h hnop
    · exact absurd (hnop.symm.trans h) (by decide)
  | mss hi lo =>
    exact hkind _ (hbyte hmem.1) (by decide) (by decide) (by decide)
      (by rw [hbyte hmem.2.1]; rfl) (Nat.succ_pos _)
  | wscale shift =>
    exact hkind _ (hbyte hmem.1) (by decide) (by decide) (by decide)
      (by rw [hbyte hmem.2.1]; rfl) (Nat.succ_pos _)
  | sackPermit =>
    exact hkind _ (hbyte hmem.1) (by decide) (by decide) (by decide)
      (by rw [hbyte hmem.2.1]; rfl) (Nat.succ_pos _)
  | other kind body hk hlen =>
    unfold knownOptions at hk
    simp only [List.mem_cons, List.not_mem_nil, or_false, not_or] at hk
    obtain ⟨hend, hnop, -, -, -, hts⟩ := hk
    refine hkind _ (hbyte hmem.1) hend hnop hts ?_ (Nat.succ_pos _)
    rw [hbyte hmem.2.1]
    exact Nat.mod_eq_of_lt hlen

/-- A time stamp is found where it lies. -/
theorem TcpOption.walk_found (hmem : HoldsAt (fun j => some (opt j)) i o.bytes)
    (hfit : i + o.bytes.length ≤ len) (hstamp : o.stamp = some p) : TimestampAt opt len i p := by
  cases o with
  | timestamp val ref =>
    obtain ⟨hkind, hlen, h₀, h₁, h₂, h₃, h₄, h₅, h₆, h₇, -⟩ := hmem
    simp only [Option.some.injEq] at hkind hlen h₀ h₁ h₂ h₃ h₄ h₅ h₆ h₇
    have hval : optWord opt (i + 2) = val := by
      unfold optWord
      rw [h₀, h₁, h₂, h₃]
      exact append_four_bytes val
    have href : optWord opt (i + 6) = ref := by
      unfold optWord
      rw [h₄, h₅, h₆, h₇]
      exact append_four_bytes ref
    change i + 10 ≤ len at hfit
    refine ⟨⟨by omega, hkind, ?_⟩, ?_⟩
    · rw [hlen]
      exact hfit
    · rw [hval, href]
      exact (Option.some.inj hstamp).symm
  | _ => cases hstamp

/-- What lies at offset `k`, behind the options: nothing any more, or `END`, and behind that the rest. -/
structure OptionsEnd (rest : Bool) (opt : ℕ → U8) (len k : ℕ) : Prop where
  le : k ≤ len
  kind : k < len → opt k = tcpOptEnd
  rest : rest = true ↔ k + 1 < len

theorem firstTimestamp_cons_of_none {os : List TcpOption} (h : o.stamp = none) :
    firstTimestamp (o :: os) = firstTimestamp os := by
  unfold firstTimestamp
  rw [List.findSome?_cons, h]

theorem firstTimestamp_cons_of_some {os : List TcpOption} (h : o.stamp = some p) :
    firstTimestamp (o :: os) = some p := by
  unfold firstTimestamp
  rw [List.findSome?_cons, h]

/-- The first option is a time stamp that is found, or the walk passes it. -/
theorem parseTimestampLoop_cons {rest : Bool} {os : List TcpOption}
    (hmem : HoldsAt (fun j => some (opt j)) i ((o :: os).flatMap TcpOption.bytes))
    (hend : OptionsEnd rest opt len (i + ((o :: os).flatMap TcpOption.bytes).length))
    (hn : len ≤ i + n) :
    (o.stamp ≠ none ∧ parseTimestampLoop opt len n i = firstTimestamp (o :: os)) ∨
      o.stamp = none ∧ ∃ n', n = n' + 1 ∧
        parseTimestampLoop opt len n i = parseTimestampLoop opt len n' (i + o.bytes.length + 1) := by
  rw [List.flatMap_cons] at hmem hend
  rw [List.length_append] at hend
  have hpos : 0 < o.bytes.length := by
    cases o with
    | _ => exact Nat.succ_pos _
  have hfit : i + o.bytes.length ≤ len := by
    have hle := hend.le
    omega
  obtain ⟨n', rfl⟩ : ∃ n', n = n' + 1 := ⟨n - 1, by omega⟩
  have hhere := (HoldsAt.append_iff.mp hmem).1
  cases hstamp : o.stamp with
  | some p =>
    refine .inl ⟨Option.some_ne_none p, ?_⟩
    rw [firstTimestamp_cons_of_some hstamp]
    exact (TcpOption.walk_found hhere hfit hstamp).parse
  | none =>
    obtain ⟨hgo, hnext⟩ := TcpOption.walk_next hhere hfit hstamp
    exact .inr ⟨rfl, n', rfl, by rw [parseTimestampLoop_next hgo, hnext]⟩

theorem parseTimestampLoop_of_le (h : len ≤ i) : parseTimestampLoop opt len n i = none := by
  cases n with
  | zero => rfl
  | succ n => exact if_neg (by omega)

/-- Padded options are taken one after the other, up to the first time stamp. -/
theorem InPhase.parse {rest : Bool} {os : List TcpOption} (h : InPhase rest os)
    (hmem : HoldsAt (fun j => some (opt j)) i (os.flatMap TcpOption.bytes))
    (hend : OptionsEnd rest opt len (i + (os.flatMap TcpOption.bytes).length))
    (hn : len ≤ i + n) : parseTimestampLoop opt len n i = firstTimestamp os := by
  -- an option and its padding go with each round
  induction os using InPhase.induct generalizing i n with
  | case1 =>
    rcases Nat.lt_or_ge i len with hi | hle
    · obtain ⟨n', rfl⟩ : ∃ n', n = n' + 1 := ⟨n - 1, by omega⟩
      exact (if_pos hi).trans (if_pos (hend.kind hi))
    · exact parseTimestampLoop_of_le hle
  | case2 o =>
    rcases parseTimestampLoop_cons hmem hend hn with ⟨-, hfound⟩ | ⟨hstamp, n', -, hpass⟩
    · exact hfound
    · -- nothing follows but perhaps `END`, so the loop leaves the area
      have hrest := mt hend.rest.mpr (ne_true_of_eq_false (h.resolve_left fun hne => hne hstamp))
      rw [List.flatMap_cons, List.flatMap_nil, List.append_nil] at hrest
      rw [hpass, parseTimestampLoop_of_le (by omega), firstTimestamp_cons_of_none hstamp]
      rfl
  | case3 o o' os ih =>
    rcases parseTimestampLoop_cons hmem hend hn with ⟨-, hfound⟩ | ⟨hstamp, n', rfl, hpass⟩
    · exact hfound
    · obtain ⟨rfl, hrest⟩ := h.resolve_left fun hne => hne hstamp
      have hbytes : (o :: .nop :: os).flatMap TcpOption.bytes =
          (o.bytes ++ [tcpOptNop]) ++ os.flatMap TcpOption.bytes := by
        rw [List.flatMap_cons, List.flatMap_cons, List.append_assoc]
        rfl
      have hlen : (o.bytes ++ [tcpOptNop]).length = o.bytes.length + 1 := List.length_append
      rw [hbytes] at hmem hend
      rw [List.length_append, hlen, ← Nat.add_assoc, ← Nat.add_assoc] at hend
      have hmem' := (HoldsAt.append_iff.mp hmem).2
      rw [hlen, ← Nat.add_assoc] at hmem'
      rw [hpass, firstTimestamp_cons_of_none hstamp, firstTimestamp_cons_of_none rfl]
      exact ih hrest hmem' hend (by omega)

theorem optionByte_of_some {bs : List U8} {b : U8} (h : bs[i]? = some b) : optionByte bs i = b := by
  unfold optionByte
  rw [List.getD_eq_getElem?_getD, h, Option.getD_some]

/-- The options of a string from any of them on, as they lie in memory. -/
theorem OptionString.layout {o : OptionString} (hopt : ∀ i b, o.bytes[i]? = some b → opt i = b)
    {os₁ os₂ : List TcpOption} (hsplit : o.options = os₁ ++ os₂) :
    HoldsAt (fun j => some (opt j)) (os₁.flatMap TcpOption.bytes).length (os₂.flatMap TcpOption.bytes) ∧
      OptionsEnd o.hasRest opt o.bytes.length
        ((os₁.flatMap TcpOption.bytes).length + (os₂.flatMap TcpOption.bytes).length) := by
  have hmem : HoldsAt (fun j => some (opt j)) 0 o.bytes :=
    (holdsAt_getElem? [] o.bytes).mono fun i b hb => congrArg some (hopt i b hb)
  obtain ⟨os, trailer⟩ := o
  obtain rfl : os = os₁ ++ os₂ := hsplit
  -- what lies behind `os₁`
  have hpart : ∀ {i : ℕ}, HoldsAt (fun j => some (opt j)) i ((os₁ ++ os₂).flatMap TcpOption.bytes) →
      HoldsAt (fun j => some (opt j)) (i + (os₁.flatMap TcpOption.bytes).length)
        (os₂.flatMap TcpOption.bytes) := by
    intro i h
    rw [List.flatMap_append] at h
    exact (HoldsAt.append_iff.mp h).2
  rw [← List.length_append, ← List.flatMap_append]
  cases trailer with
  | none =>
    have hlen : (OptionString.mk (os₁ ++ os₂) none).bytes.length =
        ((os₁ ++ os₂).flatMap TcpOption.bytes).length :=
      congrArg List.length (List.append_nil _)
    have hhere := hpart (HoldsAt.append_iff.mp hmem).1
    rw [Nat.zero_add] at hhere
    exact ⟨hhere, hlen.ge, fun hlt => by omega, iff_of_false Bool.false_ne_true (by omega)⟩
  | some rest =>
    have hlen : (OptionString.mk (os₁ ++ os₂) (some rest)).bytes.length =
        ((os₁ ++ os₂).flatMap TcpOption.bytes).length + 1 + rest.length := by
      unfold OptionString.bytes OptionString.upToEnd
      rw [List.length_append, List.length_append]
      rfl
    obtain ⟨hos, hend, -⟩ := HoldsAt.append_iff.mp (HoldsAt.append_iff.mp hmem).1
    have hhere := hpart hos
    rw [Nat.zero_add] at hend hhere
    refine ⟨hhere, by omega, fun _ => Option.some.inj hend, ?_⟩
    rw [hlen]
    cases rest with
    | nil => exact iff_of_false Bool.false_ne_true (by simp)
    | cons b rest =>
      rw [List.length_cons]
      exact iff_of_true rfl (by omega)

/-- **Padded strings.** For every well-formed string, in whatever memory it lies: where every option in
front of the first time stamp that the loop comes to is padded with a `NOP`, or is the last, the parsers
agree. -/
theorem timestamps_agree_inPhase (o : OptionString) (opt : ℕ → U8)
    (hopt : ∀ i b, o.bytes[i]? = some b → opt i = b) (h : InPhase o.hasRest o.options) :
    TimestampsAgree ρ o opt := by
  obtain ⟨hmem, hend⟩ := OptionString.layout hopt (List.nil_append o.options).symm
  exact (timestampsAgree_iff_eq hopt).mpr (h.parse hmem hend (Nat.le_add_left _ _))

/-- At an option that is no time stamp the loop goes on; it does not get past a time stamp. -/
theorem OptionString.walk_split {o : OptionString} (hopt : ∀ i b, o.bytes[i]? = some b → opt i = b)
    {os₁ os₂ : List TcpOption} {x : TcpOption} (hsplit : o.options = os₁ ++ x :: os₂) :
    (x.stamp ≠ none → TimestampStop opt o.bytes.length (os₁.flatMap TcpOption.bytes).length) ∧
      (x.stamp = none → ¬TimestampStop opt o.bytes.length (os₁.flatMap TcpOption.bytes).length ∧
        timestampNext opt (os₁.flatMap TcpOption.bytes).length =
          ((os₁ ++ [x]).flatMap TcpOption.bytes).length + 1) := by
  obtain ⟨hmem, hend⟩ := OptionString.layout hopt hsplit
  rw [List.flatMap_cons] at hmem hend
  have hle := hend.le
  rw [List.length_append] at hle
  have hfit : (os₁.flatMap TcpOption.bytes).length + x.bytes.length ≤ o.bytes.length := by omega
  have hhere := (HoldsAt.append_iff.mp hmem).1
  constructor
  · intro hstamp
    obtain ⟨p, hp⟩ := Option.ne_none_iff_exists'.mp hstamp
    exact .inr (TcpOption.walk_found hhere hfit hp).1.2.1
  · intro hstamp
    obtain ⟨hgo, hnext⟩ := TcpOption.walk_next hhere hfit hstamp
    refine ⟨hgo, hnext.trans ?_⟩
    rw [List.flatMap_append, List.length_append, List.flatMap_cons, List.flatMap_nil, List.append_nil]

theorem TcpOption.bytes_two_le {x : TcpOption} (h : x ≠ .nop) : 2 ≤ x.bytes.length := by
  cases x with
  | nop => exact absurd rfl h
  | _ => exact Nat.le_add_left 2 _

/-- The loop starts at options only when the string is in phase. -/
theorem OptionString.inPhase_of_walk {o : OptionString} (hopt : ∀ i b, o.bytes[i]? = some b → opt i = b)
    (hall : ∀ i, TimestampStarts opt o.bytes.length i → o.OnOption i) {os₁ os₂ : List TcpOption}
    (hsplit : o.options = os₁ ++ os₂)
    (hstart : TimestampStarts opt o.bytes.length (os₁.flatMap TcpOption.bytes).length) :
    InPhase o.hasRest os₂ := by
  induction os₂ using InPhase.induct generalizing os₁ with
  | case1 => trivial
  | case2 x =>
    by_contra hnot
    obtain ⟨hstamp, hrest⟩ := not_or.mp hnot
    obtain ⟨hgo, hnext⟩ := (OptionString.walk_split hopt hsplit).2 (not_not.mp hstamp)
    have hend := (OptionString.layout hopt (hsplit.trans (List.append_nil _).symm)).2
    have hlt := hend.rest.mp (Bool.not_eq_false _ ▸ hrest)
    rw [List.flatMap_nil, List.length_nil, Nat.add_zero] at hlt
    -- the next offset is behind `END`, and the area goes on there
    rcases hall _ (.next hstart hgo) with ⟨os, ⟨os', hos⟩, hoff⟩ | hle
    · rw [hnext, ← hsplit, ← hos, List.flatMap_append, List.length_append] at hoff
      omega
    · rw [hnext] at hle
      omega
  | case3 x y os ih =>
    by_contra hnot
    obtain ⟨hstamp, hnop⟩ := not_or.mp hnot
    obtain ⟨hgo, hnext⟩ := (OptionString.walk_split hopt hsplit).2 (not_not.mp hstamp)
    have hoff := hall _ (.next hstart hgo)
    rw [hnext] at hoff
    have hsplit₁ : o.options = (os₁ ++ [x]) ++ y :: os := by rw [hsplit, List.append_assoc]; rfl
    have hsplit₂ : o.options = (os₁ ++ [x, y]) ++ os := by rw [hsplit, List.append_assoc]; rfl
    have hlen : ((os₁ ++ [x, y]).flatMap TcpOption.bytes).length =
        ((os₁ ++ [x]).flatMap TcpOption.bytes).length + y.bytes.length := by
      simp [Nat.add_assoc]
    by_cases hy : y = .nop
    · subst hy
      refine hnop ⟨rfl, ih hsplit₂ ?_⟩
      rw [hlen, show TcpOption.nop.bytes.length = 1 from rfl, ← hnext]
      exact .next hstart hgo
    · -- one byte behind the option is the second one of the next
      have htwo := TcpOption.bytes_two_le hy
      rcases hoff with ⟨os', hprefix, hoff⟩ | hle
      · rcases le_total os'.length (os₁ ++ [x]).length with hshort | hlong
        · have hpre := List.prefix_of_prefix_length_le hprefix ⟨_, hsplit₁.symm⟩ hshort
          obtain ⟨l, hl⟩ := hpre
          rw [← hl, List.flatMap_append, List.length_append] at hoff
          omega
        · obtain ⟨l, rfl⟩ := List.prefix_of_prefix_length_le ⟨_, hsplit₁.symm⟩ hprefix hlong
          obtain ⟨l', hl'⟩ := hprefix
          rw [hsplit₁, List.append_assoc, List.append_cancel_left_eq] at hl'
          rw [@List.flatMap_append _ _ (os₁ ++ [x]) l, List.length_append] at hoff
          cases l with
          | nil =>
            rw [List.flatMap_nil, List.length_nil] at hoff
            omega
          | cons z l =>
            obtain ⟨rfl, -⟩ := List.cons.inj hl'
            rw [List.flatMap_cons, List.length_append] at hoff
            omega
      · have hend := (OptionString.layout hopt hsplit₂).2.le
        omega

/-- **What being in phase means.** The loop comes to options only, and to the end of them. -/
theorem inPhase_iff (o : OptionString) (opt : ℕ → U8)
    (hopt : ∀ i b, o.bytes[i]? = some b → opt i = b) :
    InPhase o.hasRest o.options ↔ ∀ i, TimestampStarts opt o.bytes.length i → o.OnOption i := by
  constructor
  · -- from each option that the loop comes to, the rest is in phase
    intro h i hstart
    have hinv : (∃ os₁ os₂, o.options = os₁ ++ os₂ ∧ i = (os₁.flatMap TcpOption.bytes).length ∧
        InPhase o.hasRest os₂) ∨ o.bytes.length ≤ i := by
      induction hstart with
      | first => exact .inl ⟨[], o.options, rfl, rfl, h⟩
      | @next i _ hgo ih =>
        obtain ⟨os₁, os₂, hsplit, rfl, hphase⟩ := ih.resolve_right fun hle => hgo (.inl (.inl hle))
        have hend := (OptionString.layout hopt hsplit).2
        match os₂, hphase with
        -- behind the last option the loop stops, at `END` or at the end of the string
        | [], _ =>
          rcases Nat.lt_or_ge (os₁.flatMap TcpOption.bytes).length o.bytes.length with hlt | hle
          · exact absurd (.inl (.inr (.inl (hend.kind hlt)))) hgo
          · exact absurd (.inl (.inl hle)) hgo
        -- past the last one, the increment leads out of the string
        | [x], hphase =>
          obtain ⟨hstop, hpass⟩ := OptionString.walk_split hopt hsplit
          have hstamp : x.stamp = none := not_not.mp fun hne => hgo (hstop hne)
          have hrest := mt hend.rest.mpr
            (ne_true_of_eq_false (hphase.resolve_left fun hne => hne hstamp))
          rw [(hpass hstamp).2, List.flatMap_append, List.length_append]
          exact .inr (by omega)
        -- past an option the increment skips the NOP
        | x :: y :: os, hphase =>
          obtain ⟨hstop, hpass⟩ := OptionString.walk_split hopt hsplit
          have hstamp : x.stamp = none := not_not.mp fun hne => hgo (hstop hne)
          obtain ⟨rfl, hphase'⟩ := hphase.resolve_left fun hne => hne hstamp
          refine .inl ⟨os₁ ++ [x, .nop], os, by rw [hsplit, List.append_assoc]; rfl, ?_, hphase'⟩
          rw [(hpass hstamp).2]
          simp [TcpOption.bytes, Nat.add_assoc]
    rcases hinv with ⟨os₁, os₂, hsplit, hi, -⟩ | hle
    · exact .inl ⟨os₁, ⟨os₂, hsplit.symm⟩, hi⟩
    · exact .inr hle
  · exact fun hall => OptionString.inPhase_of_walk hopt hall (List.nil_append o.options).symm .first

/-- Segments without SYN are padded as the walk needs it. -/
theorem sentOptions_inPhase {s : Stream ρ} {curTs : U32} {flags : U8}
    (hsyn : flags &&& cmtTcphdrSyn = 0) : InPhase false (sentOptions s curTs flags) := by
  unfold sentOptions
  rw [if_neg (not_not.mpr hsyn)]
  exact .inr ⟨rfl, .inl (Option.some_ne_none _)⟩

/-- The options of a segment with data, `END` and padding behind it. -/
def dataOptions : OptionString := ⟨[.nop, .nop, .mss 5 180, .nop, .timestamp 7 9, .nop], some [0, 0]⟩

/-- Their time stamp is found behind an `MSS` that is padded. -/
theorem timestamps_agree_inPhase_data : TimestampsAgree Unit dataOptions (optionByte dataOptions.bytes) :=
  timestamps_agree_inPhase dataOptions _ (fun _ _ => optionByte_of_some)
    (.inr ⟨rfl, .inr ⟨rfl, .inl (Option.some_ne_none _)⟩⟩)

/-- The options of a SYN, with `1460` for `mss`, `7` for the window scale and `7` for the time. -/
def synOptions : OptionString where
  options := sentOptions { (default : Stream Unit) with
    snd := { (default : SndVar) with mss := 1460, wscaleMine := 7 } } 7 cmtTcphdrSyn
  trailer := none

/-- The walk goes from `MSS` to the second `NOP`, and from there into the time stamp. -/
theorem timestamps_disagree_syn :
    (∀ i b, synOptions.bytes[i]? = some b → optionByte synOptions.bytes i = b) ∧
      ¬TimestampsAgree Unit synOptions (optionByte synOptions.bytes) := by
  refine ⟨fun _ _ => optionByte_of_some, fun hagree => ?_⟩
  have heq := (timestampsAgree_iff_eq fun _ _ => optionByte_of_some).mp hagree
  have hnone : parseTimestampLoop (optionByte synOptions.bytes) synOptions.bytes.length
      synOptions.bytes.length 0 = none := by decide +kernel
  have hsome : firstTimestamp synOptions.options = some (7, 0) := rfl
  rw [hnone, hsome] at heq
  cases heq

end Padding

end CmtTcp
