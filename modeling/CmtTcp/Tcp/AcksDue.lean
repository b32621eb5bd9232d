import CmtTcp.Tcp.SendLists

/-!
# Acknowledgements that are due

`cmt_tcp_enqueue_acklist` again and again, with no ACK sent in between: each `ACK_OPT_NOW` counts one more,
`ACK_OPT_AGGREGATE` one only if there is none yet, and the stream is put on the ack list.

The count has eight bits and nothing bounds it. `acksDue` is what it ought to be; the ACKs are kept exactly as
long as that fits (`acksKept_iff`), and the 256th makes the count zero.
-/

namespace CmtTcp

variable {ρ : Type}

/-! ### Calls in a row -/

/-- The calls, one after the other. -/
def enqueueAcks (c : Conn ρ) (opts : List AckOpt) : Conn ρ := opts.foldl enqueueAcklist c

/-- The number of ACKs that are due: one for each `ACK_OPT_NOW`, and one for the `ACK_OPT_AGGREGATE` that finds
none. -/
def acksDue (cnt : ℕ) (opts : List AckOpt) : ℕ :=
  cnt + opts.count .now +
    if cnt = 0 ∧ (opts.filter (· ≠ .wack)).head? = some .aggregate then 1 else 0

/-- An ACK that is due is not forgotten. -/
structure AcksKept (c : Conn ρ) (opts : List AckOpt) : Prop where
  due : 1 ≤ (enqueueAcks c opts).stream.snd.ackCnt.toNat
  listed : c.stream.addr ∈ (enqueueAcks c opts).tcp.sender.ackList
  grows : ∀ pre opt, pre ++ [opt] <+: opts →
    (enqueueAcks c pre).stream.snd.ackCnt ≤ (enqueueAcks c (pre ++ [opt])).stream.snd.ackCnt

/-! ### One call -/

/-- What a call does to a count that has no end. -/
def countAck (cnt : ℕ) : AckOpt → ℕ
  | .now => cnt + 1
  | .aggregate => if cnt = 0 then 1 else cnt
  | .wack => cnt

section Step

variable {c : Conn ρ} {opt : AckOpt} {opts : List AckOpt} {cnt : ℕ}

theorem addtoAcklist_snd (c : Conn ρ) :
    (addtoAcklist c).stream.snd.ackCnt = c.stream.snd.ackCnt ∧
      (addtoAcklist c).stream.addr = c.stream.addr := by
  unfold addtoAcklist addto
  split
  · exact ⟨rfl, rfl⟩
  · exact ⟨rfl, rfl⟩

theorem ackCnt_enqueueAcklist (c : Conn ρ) (opt : AckOpt) :
    (enqueueAcklist c opt).stream.snd.ackCnt.toNat =
      countAck c.stream.snd.ackCnt.toNat opt % 2 ^ 8 := by
  unfold enqueueAcklist
  rw [(addtoAcklist_snd _).1]
  cases opt with
  | now => exact BitVec.toNat_add _ _
  | wack => exact (Nat.mod_eq_of_lt (BitVec.isLt _)).symm
  | aggregate =>
    simp only [countAck]
    by_cases h : c.stream.snd.ackCnt = 0
    · rw [if_pos h, h]
      rfl
    · have hne : c.stream.snd.ackCnt.toNat ≠ 0 := fun h0 => h (BitVec.eq_of_toNat_eq h0)
      rw [if_neg h, if_neg hne]
      exact (Nat.mod_eq_of_lt (BitVec.isLt _)).symm

theorem countAck_bounds (cnt : ℕ) (opt : AckOpt) :
    cnt ≤ countAck cnt opt ∧ countAck cnt opt ≤ cnt + 1 := by
  cases opt with
  | now => exact ⟨Nat.le_succ cnt, le_rfl⟩
  | wack => exact ⟨le_rfl, Nat.le_succ cnt⟩
  | aggregate =>
    simp only [countAck]
    split <;> omega

theorem countAck_pos (cnt : ℕ) (h : opt ≠ .wack) : 1 ≤ countAck cnt opt := by
  cases opt with
  | now => exact Nat.le_add_left 1 cnt
  | wack => exact absurd rfl h
  | aggregate =>
    simp only [countAck]
    split <;> omega

/-- The count grows in a call unless it starts again at zero. -/
theorem ackCnt_le_iff (c : Conn ρ) (opt : AckOpt) :
    c.stream.snd.ackCnt ≤ (enqueueAcklist c opt).stream.snd.ackCnt ↔
      countAck c.stream.snd.ackCnt.toNat opt ≤ 255 := by
  have hstep := ackCnt_enqueueAcklist c opt
  have hbounds := countAck_bounds c.stream.snd.ackCnt.toNat opt
  have hlt := c.stream.snd.ackCnt.isLt
  rw [BitVec.le_def, hstep]
  omega

/-- The flag for the ack list says that the stream is on it. -/
def AckFlagged (c : Conn ρ) : Prop := c.stream.snd.onAckList = true → c.stream.addr ∈ c.tcp.sender.ackList

theorem addtoAcklist_mem (h : AckFlagged c) : c.stream.addr ∈ (addtoAcklist c).tcp.sender.ackList := by
  unfold addtoAcklist addto
  split
  · next hon => exact h hon
  · exact List.mem_append_right _ (List.mem_singleton_self _)

theorem enqueueAcklist_mem (h : AckFlagged c) (opt : AckOpt) :
    (enqueueAcklist c opt).stream.addr = c.stream.addr ∧
      c.stream.addr ∈ (enqueueAcklist c opt).tcp.sender.ackList := by
  unfold enqueueAcklist
  rw [(addtoAcklist_snd _).2]
  cases opt with
  | now => exact ⟨rfl, addtoAcklist_mem h⟩
  | wack => exact ⟨rfl, addtoAcklist_mem h⟩
  | aggregate =>
    dsimp only
    split
    · exact ⟨rfl, addtoAcklist_mem h⟩
    · exact ⟨rfl, addtoAcklist_mem h⟩

end Step

/-! ### A run of calls -/

section Run

variable {c : Conn ρ} {opt : AckOpt} {opts : List AckOpt} {cnt : ℕ}

theorem foldl_countAck (cnt : ℕ) (opts : List AckOpt) : opts.foldl countAck cnt = acksDue cnt opts := by
  induction opts generalizing cnt with
  | nil => simp [acksDue]
  | cons opt opts ih =>
    rw [List.foldl_cons, ih]
    cases opt with
    | now =>
      simp [acksDue, countAck]
      omega
    | wack => simp [acksDue, countAck]
    | aggregate =>
      by_cases h : cnt = 0
      · simp [acksDue, countAck, h]
        omega
      · simp [acksDue, countAck, h]

theorem le_foldl_countAck (cnt : ℕ) (opts : List AckOpt) : cnt ≤ opts.foldl countAck cnt := by
  induction opts generalizing cnt with
  | nil => exact le_rfl
  | cons opt opts ih => exact (countAck_bounds cnt opt).1.trans (ih _)

/-- From the first call on that is not for the window, an ACK is due. -/
theorem pos_foldl_countAck (h : .now ∈ opts ∨ .aggregate ∈ opts) : 1 ≤ opts.foldl countAck cnt := by
  induction opts generalizing cnt with
  | nil => exact absurd h (by simp)
  | cons opt opts ih =>
    have hrest := le_foldl_countAck (countAck cnt opt) opts
    by_cases hopt : opt = .wack
    · subst hopt
      exact ih (by simpa using h)
    · exact (countAck_pos cnt hopt).trans hrest

/-- As long as what is due fits, it is what is counted. -/
theorem ackCnt_enqueueAcks (h : opts.foldl countAck c.stream.snd.ackCnt.toNat ≤ 255) :
    (enqueueAcks c opts).stream.snd.ackCnt.toNat = opts.foldl countAck c.stream.snd.ackCnt.toNat := by
  induction opts generalizing c with
  | nil => rfl
  | cons opt opts ih =>
    have hstep := ackCnt_enqueueAcklist c opt
    have hle := (le_foldl_countAck (countAck c.stream.snd.ackCnt.toNat opt) opts).trans h
    rw [Nat.mod_eq_of_lt (by omega)] at hstep
    have hrest := @ih (enqueueAcklist c opt) (by rw [hstep]; exact h)
    rw [hstep] at hrest
    exact hrest

theorem prefix_cons_iff {pre : List AckOpt} {opt first : AckOpt} :
    pre ++ [opt] <+: first :: opts ↔
      (pre = [] ∧ opt = first) ∨ ∃ rest, pre = first :: rest ∧ rest ++ [opt] <+: opts := by
  cases pre with
  | nil => simp [List.cons_prefix_cons, eq_comm]
  | cons a rest =>
    simp [List.cons_prefix_cons, eq_comm]

/-- The count never decreases exactly as long as what is due fits in it. -/
theorem grows_iff :
    (∀ pre opt, pre ++ [opt] <+: opts → (enqueueAcks c pre).stream.snd.ackCnt ≤
      (enqueueAcks c (pre ++ [opt])).stream.snd.ackCnt) ↔
      opts.foldl countAck c.stream.snd.ackCnt.toNat ≤ 255 := by
  induction opts generalizing c with
  | nil =>
    refine iff_of_true ?_ (Nat.le_of_lt_succ c.stream.snd.ackCnt.isLt)
    intro pre opt h
    exact absurd h (by simp)
  | cons first opts ih =>
    have hfirst := ackCnt_le_iff c first
    have hstep := ackCnt_enqueueAcklist c first
    have hle := le_foldl_countAck (countAck c.stream.snd.ackCnt.toNat first) opts
    constructor
    · intro h
      have hfits := hfirst.mp (h [] first (prefix_cons_iff.mpr (.inl ⟨rfl, rfl⟩)))
      rw [Nat.mod_eq_of_lt (by omega)] at hstep
      have hrest := (@ih (enqueueAcklist c first)).mp fun pre opt hpre =>
        h (first :: pre) opt (prefix_cons_iff.mpr (.inr ⟨pre, rfl, hpre⟩))
      rwa [hstep] at hrest
    · intro h pre opt hpre
      have hfits : countAck c.stream.snd.ackCnt.toNat first ≤ 255 := hle.trans h
      rw [Nat.mod_eq_of_lt (by omega)] at hstep
      rcases prefix_cons_iff.mp hpre with ⟨rfl, rfl⟩ | ⟨rest, rfl, hrest⟩
      · exact hfirst.mpr hfits
      · have hall := (@ih (enqueueAcklist c first)).mpr (by rw [hstep]; exact h)
        exact hall rest opt hrest

/-- After any call the stream is on the ack list. -/
theorem mem_enqueueAcks (hflag : AckFlagged c) (hne : opts ≠ []) :
    c.stream.addr ∈ (enqueueAcks c opts).tcp.sender.ackList := by
  induction opts generalizing c with
  | nil => exact absurd rfl hne
  | cons opt opts ih =>
    obtain ⟨haddr, hmem⟩ := enqueueAcklist_mem hflag opt
    by_cases hnil : opts = []
    · subst hnil
      exact hmem
    · have hrest := @ih (enqueueAcklist c opt) (fun _ => haddr ▸ hmem) hnil
      rwa [haddr] at hrest

end Run

/-- What the links say of a stream, its flag says too. -/
theorem Represents.ackFlagged {streams : Finset Addr} {s : Transmission} {c : Conn ρ}
    (h : Represents streams s c) : AckFlagged c := by
  intro hon
  have hmark : s.on .ack c.stream.addr = true := (h.on .ack).trans hon
  exact (h.lists.on .ack _ h.mem).mp hmark

/-- The ACKs of a run of calls are kept exactly if what is due after it fits in eight bits. -/
theorem acksKept_iff (c : Conn ρ) (opts : List AckOpt) (hdue : .now ∈ opts ∨ .aggregate ∈ opts)
    (hflag : AckFlagged c) :
    AcksKept c opts ↔ acksDue c.stream.snd.ackCnt.toNat opts ≤ 255 := by
  rw [← foldl_countAck]
  constructor
  · intro h
    exact grows_iff.mp h.grows
  · intro h
    refine ⟨?_, ?_, grows_iff.mpr h⟩
    · rw [ackCnt_enqueueAcks h]
      exact pos_foldl_countAck hdue
    · apply mem_enqueueAcks hflag
      rintro rfl
      exact absurd hdue (by simp)

/-- An ACK at once and one that is aggregated. -/
theorem acksKept_two : AcksKept (⟨default, default, []⟩ : Conn Unit) [.now, .aggregate] :=
  (acksKept_iff _ _ (.inl List.mem_cons_self) fun h => absurd h Bool.false_ne_true).mpr (by decide)

/-- 256 ACKs that are due at once are none. -/
theorem acksKept_wraps :
    ¬AcksKept (⟨default, default, []⟩ : Conn Unit) (List.replicate 256 .now) := by
  intro h
  have hfits := grows_iff.mp h.grows
  rw [foldl_countAck, acksDue, List.count_replicate_self] at hfits
  exact absurd ((Nat.le_add_left 256 _).trans ((Nat.le_add_right _ _).trans hfits)) (by decide)

end CmtTcp
