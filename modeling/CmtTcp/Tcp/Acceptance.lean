import CmtTcp.Tcp.OptionGrammar
import CmtTcp.Tcp.Process
import CmtTcp.Tcp.SendSequence

/-!
# Segments that are not accepted

`cmt_tcp_validseq` decides whether `cmt_tcp_process` looks at a segment. It tests the time stamp first and the
window second, and two things go wrong between the tests.

* A time stamp that is not old is stored before the window is tested, so a segment that is then rejected leaves
  `ts_recent` and `ts_lastack_rcvd` changed. Apart from that, a rejected segment changes nothing but what is
  scheduled (`rejected_leftAlone_iff`).
* For an old time stamp an ACK is scheduled, but the function does not return: when the segment lies in the
  window it is accepted (`old_timestamp_rejected_iff`).
-/

namespace CmtTcp

open Lib (Outcome)

variable {ρ : Type}

/-! ### What is left alone -/

/-- The fields that a segment which is not accepted must not change. -/
def Stream.guarded (s : Stream ρ) : TcpState × U32 × U32 × U32 × U32 × U32 × U32 × U32 :=
  (s.state, s.rcvNxt, s.rcv.rcvWnd, s.sndNxt, s.snd.sndUna, s.snd.peerWnd, s.rcv.tsRecent,
    s.rcv.tsLastackRcvd)

/-- The stream without what schedules acknowledgements and control packets, and without the timewait
deadline. -/
def Stream.unscheduled (s : Stream ρ) : Stream ρ :=
  { s with
    onTimewaitList := false
    onRtoIdx := 0
    snd := { s.snd with ackCnt := 0, onControlList := false, onAckList := false }
    rcv := { s.rcv with tsTwExpire := 0 } }

/-- From `c` to `c'` at most the scheduling changed. -/
structure LeftAlone (c c' : Conn ρ) : Prop where
  guarded : c'.stream.guarded = c.stream.guarded
  rest : c'.stream.unscheduled = c.stream.unscheduled
  log : c'.log = c.log

section Unscheduled

variable {c c' c'' : Conn ρ}

/-- The guarded fields are none that are scheduled. -/
theorem LeftAlone.of_rest (h : c'.stream.unscheduled = c.stream.unscheduled) (hlog : c'.log = c.log) :
    LeftAlone c c' := by
  refine ⟨?_, h, hlog⟩
  change c'.stream.unscheduled.guarded = c.stream.unscheduled.guarded
  rw [h]

theorem LeftAlone.refl (c : Conn ρ) : LeftAlone c c := ⟨rfl, rfl, rfl⟩

theorem LeftAlone.trans (h : LeftAlone c c') (h' : LeftAlone c' c'') : LeftAlone c c'' :=
  .of_rest (h'.rest.trans h.rest) (h'.log.trans h.log)

theorem addtoAcklist_leftAlone (c : Conn ρ) : LeftAlone c (addtoAcklist c) := by
  unfold addtoAcklist addto
  split
  · exact .refl c
  · exact .of_rest rfl rfl

theorem addtoControllist_leftAlone (c : Conn ρ) : LeftAlone c (addtoControllist c) := by
  unfold addtoControllist addto
  split
  · exact .refl c
  · exact .of_rest rfl rfl

theorem enqueueAcklist_leftAlone (c : Conn ρ) (opt : AckOpt) (h : opt ≠ .wack) :
    LeftAlone c (enqueueAcklist c opt) := by
  unfold enqueueAcklist
  refine LeftAlone.trans ?_ (addtoAcklist_leftAlone _)
  cases opt with
  | now => exact .of_rest rfl rfl
  | aggregate =>
    dsimp only
    split
    · exact .of_rest rfl rfl
    · exact .refl c
  | wack => exact absurd rfl h

theorem removeFromRtoList_leftAlone (c : Conn ρ) : LeftAlone c (removeFromRtoList c) := by
  unfold removeFromRtoList
  split
  · exact .refl c
  · exact .of_rest rfl rfl

theorem addToTimewaitList_leftAlone (c : Conn ρ) (curTs : U32) :
    LeftAlone c (addToTimewaitList c curTs) := by
  unfold addToTimewaitList
  have hts : LeftAlone c (c.modRcv fun rcv => { rcv with tsTwExpire := curTs + cmtTcpTimewait }) :=
    .of_rest rfl rfl
  dsimp only
  split
  · exact hts.trans (.of_rest rfl rfl)
  · split
    · exact hts.trans ((removeFromRtoList_leftAlone _).trans (.of_rest rfl rfl))
    · exact hts.trans (.of_rest rfl rfl)

end Unscheduled

/-! ### The tests of `cmt_tcp_validseq` -/

/-- The window test. -/
def InWindow (s : Stream ρ) (seg : Segment) : Prop :=
  tcpSeqBetween seg.seqEnd s.rcvNxt (s.rcvNxt + s.rcv.rcvWnd)

instance InWindow.decidable (s : Stream ρ) (seg : Segment) : Decidable (InWindow s seg) :=
  inferInstanceAs (Decidable (_ = true))

/-- The time stamp of the segment, where it is looked at, is old or says nothing new. -/
def KeepsTimestamps (s : Stream ρ) (seg : Segment) : Prop :=
  seg.rst ∨ ¬s.sawTimestamp ∨ ∀ tsVal tsRef, parseTimestamp seg = some (tsVal, tsRef) →
    tcpSeqLt tsVal s.rcv.tsRecent ∨ tsVal = s.rcv.tsRecent ∧ tsRef = s.rcv.tsLastackRcvd

section Validseq

variable {c c₁ : Conn ρ} {a : Arrival ρ} {tsVal tsRef : U32}

/-- Behind the time stamp, the window test decides, and a segment that fails it is answered. -/
theorem validseq_of_some (h : validTimestamp c a = some c₁) :
    LeftAlone c₁ (validseq c a).1 ∧ ((validseq c a).2 ↔ InWindow c₁.stream a.seg) := by
  unfold validseq InWindow
  rw [h]
  dsimp only
  split
  · next hin => exact ⟨.refl c₁, iff_of_true rfl hin⟩
  · next hout =>
    have hrejected : ∀ {c' : Conn ρ}, LeftAlone c₁ c' →
        LeftAlone c₁ (c', false).1 ∧ ((c', false).2 = true ↔ tcpSeqBetween a.seg.seqEnd
          c₁.stream.rcvNxt (c₁.stream.rcvNxt + c₁.stream.rcv.rcvWnd) = true) :=
      fun h => ⟨h, iff_of_false Bool.false_ne_true hout⟩
    split
    · exact hrejected (.refl c₁)
    split
    · -- `ESTABLISHED`: an acknowledgement is due
      split
      · exact hrejected (enqueueAcklist_leftAlone c₁ .aggregate nofun)
      split
      · exact hrejected (enqueueAcklist_leftAlone c₁ .aggregate nofun)
      · exact hrejected (enqueueAcklist_leftAlone c₁ .now nofun)
    · -- elsewhere a control packet is, and in `TIME_WAIT` the wait starts over
      refine hrejected (LeftAlone.trans ?_ (addtoControllist_leftAlone _))
      split
      · exact addToTimewaitList_leftAlone c₁ a.ts
      · exact .refl c₁

/-- A time stamp that is not old is stored. -/
theorem validTimestamp_new (hlook : ¬a.seg.rst ∧ c.stream.sawTimestamp)
    (hts : parseTimestamp a.seg = some (tsVal, tsRef)) (hnew : ¬tcpSeqLt tsVal c.stream.rcv.tsRecent) :
    ∃ c₁, validTimestamp c a = some c₁ ∧ c₁.stream.rcv.tsRecent = tsVal ∧
      c₁.stream.rcv.tsLastackRcvd = tsRef ∧
      (tsVal = c.stream.rcv.tsRecent ∧ tsRef = c.stream.rcv.tsLastackRcvd → LeftAlone c c₁) := by
  unfold validTimestamp
  rw [if_pos hlook, hts]
  dsimp only
  rw [if_neg hnew]
  refine ⟨_, rfl, ?_, ?_, ?_⟩
  · split <;> rfl
  · split <;> rfl
  · rintro ⟨rfl, rfl⟩
    have hsame : ¬tcpSeqGt c.stream.rcv.tsRecent c.stream.rcv.tsRecent := by
      rw [tcpSeqGt_iff]
      simp
    rw [if_neg hsame]
    exact .of_rest rfl rfl

/-- An old one is not, and an ACK is scheduled. -/
theorem validTimestamp_old (hlook : ¬a.seg.rst ∧ c.stream.sawTimestamp)
    (hts : parseTimestamp a.seg = some (tsVal, tsRef)) (hold : tcpSeqLt tsVal c.stream.rcv.tsRecent) :
    validTimestamp c a = some (enqueueAcklist c .now) := by
  unfold validTimestamp
  rw [if_pos hlook, hts]
  exact if_pos hold

theorem validseq_leftAlone_iff (c : Conn ρ) (a : Arrival ρ) :
    LeftAlone c (validseq c a).1 ↔ KeepsTimestamps c.stream a.seg := by
  by_cases hlook : ¬a.seg.rst ∧ c.stream.sawTimestamp
  · have hkeeps : KeepsTimestamps c.stream a.seg ↔
        ∀ tsVal tsRef, parseTimestamp a.seg = some (tsVal, tsRef) →
          tcpSeqLt tsVal c.stream.rcv.tsRecent ∨
            tsVal = c.stream.rcv.tsRecent ∧ tsRef = c.stream.rcv.tsLastackRcvd := by
      unfold KeepsTimestamps
      rw [or_iff_right hlook.1, or_iff_right (not_not_intro hlook.2)]
    rw [hkeeps]
    cases hts : parseTimestamp a.seg with
    | none =>
      -- the segment should have a time stamp, and is dropped
      have hnone : (validseq c a).1 = c := by
        unfold validseq validTimestamp
        rw [if_pos hlook, hts]
      rw [hnone]
      exact iff_of_true (.refl c) nofun
    | some ts =>
      obtain ⟨tsVal, tsRef⟩ := ts
      by_cases hold : tcpSeqLt tsVal c.stream.rcv.tsRecent
      · have halone := (enqueueAcklist_leftAlone c .now nofun).trans
          (validseq_of_some (validTimestamp_old hlook hts hold)).1
        refine iff_of_true halone fun v r h => .inl ?_
        cases h
        exact hold
      · obtain ⟨c₁, hsome, hrecent, hlastack, hkept⟩ := validTimestamp_new hlook hts hold
        have hrest := (validseq_of_some hsome).1
        constructor
        · intro halone v r h
          cases h
          have hguarded := hrest.guarded.symm.trans halone.guarded
          simp only [Stream.guarded, Prod.mk.injEq, hrecent, hlastack] at hguarded
          exact .inr hguarded.2.2.2.2.2.2
        · exact fun h => (hkept ((h tsVal tsRef rfl).resolve_left hold)).trans hrest
  · have hsome : validTimestamp c a = some c := if_neg hlook
    refine iff_of_true (validseq_of_some hsome).1 ?_
    by_cases hrst : a.seg.rst
    · exact .inl hrst
    · exact .inr (.inl fun hsaw => hlook ⟨hrst, hsaw⟩)

/-- A segment that is rejected is not looked at further. -/
theorem processStream_rejected (P : Parts ρ) (hstate : TcpState.synRcvd.code < c.stream.state.code)
    (hrej : (validseq c a).2 = false) : processStream P c a = .ok (validseq c a).1 := by
  unfold processStream
  rw [if_pos hstate]
  dsimp only
  rw [hrej]
  rfl

end Validseq

/-- `halfSent`, with a time stamp of 100 seen. -/
def stampedStream : Conn (U32 × U32) :=
  halfSent.mod fun s =>
    { s with sawTimestamp := true, rcv := { s.rcv with tsRecent := 100, tsLastackRcvd := 50 } }

/-- A segment without payload and with a time stamp. -/
def stampedSegment (seq tsVal : U32) : Arrival (U32 × U32) :=
  let a := bareSegment false 110
  { a with seg := { a.seg with
      seq := seq, doff := 8, totLen := 52
      opt := fun i => ([tcpOptNop, tcpOptNop, tcpOptTimestamp, 10] ++ bigEndian tsVal ++ bigEndian 50).getD i 0 } }

/-- **A rejected segment leaves the connection alone.** When `cmt_tcp_validseq` rejects a segment in a state
above `SYN_RCVD`, `cmt_tcp_process` returns at once. The segment changed nothing but the scheduling if and only if
no new time stamp was looked at. -/
theorem rejected_leftAlone_iff (P : Parts ρ) (c : Conn ρ) (a : Arrival ρ)
    (hstate : TcpState.synRcvd.code < c.stream.state.code) (hrej : (validseq c a).2 = false) :
    processStream P c a = .ok (validseq c a).1 ∧
      (LeftAlone c (validseq c a).1 ↔ KeepsTimestamps c.stream a.seg) :=
  ⟨processStream_rejected P hstate hrej, validseq_leftAlone_iff c a⟩

/-- A segment beyond the window with an old time stamp. -/
theorem rejected_leftAlone_iff_old :
    LeftAlone stampedStream (validseq stampedStream (stampedSegment 9000 99)).1 :=
  (rejected_leftAlone_iff inOrderParts stampedStream (stampedSegment 9000 99) (by decide) rfl).2.mpr
    (.inr (.inr fun _ _ h => by cases h; decide))

/-- One beyond the window with a new time stamp is rejected, and its time stamp is stored. -/
theorem rejected_stores_timestamp :
    ¬∀ (c : Conn (U32 × U32)) (a : Arrival (U32 × U32)),
      TcpState.synRcvd.code < c.stream.state.code → (validseq c a).2 = false →
      LeftAlone c (validseq c a).1 := by
  intro h
  have halone := h stampedStream (stampedSegment 9000 200) (by decide) rfl
  exact absurd (congrArg (fun v => v.2.2.2.2.2.2.1) halone.guarded) (by decide)

/-! ### Old time stamps -/

/-- From `c` to `c'` an ACK was scheduled: it is counted, and the stream is on the ack list. -/
structure AckScheduled (c c' : Conn ρ) : Prop where
  counted : c'.stream.snd.ackCnt ≠ c.stream.snd.ackCnt
  marked : c'.stream.snd.onAckList = true
  linked : (c.stream.snd.onAckList = true → c.stream.addr ∈ c.tcp.sender.ackList) →
    c.stream.addr ∈ c'.tcp.sender.ackList

section AckScheduled

variable {c c' : Conn ρ} {a : Arrival ρ} {tsVal tsRef : U32}

/-- What does not look at the ack list keeps an ACK scheduled. -/
theorem AckScheduled.congr {c'' : Conn ρ} (h : AckScheduled c c')
    (hcnt : c''.stream.snd.ackCnt ≠ c.stream.snd.ackCnt)
    (hon : c''.stream.snd.onAckList = c'.stream.snd.onAckList)
    (hlist : c''.tcp.sender.ackList = c'.tcp.sender.ackList) : AckScheduled c c'' :=
  ⟨hcnt, hon.trans h.marked, fun hlink => hlist ▸ h.linked hlink⟩

theorem AckScheduled.acklist (h : AckScheduled c c') : AckScheduled c (addtoAcklist c') := by
  unfold addtoAcklist addto
  split
  · exact h
  · next hon => exact absurd h.marked hon

theorem AckScheduled.enqueue (h : AckScheduled c c')
    (hcnt : c'.stream.snd.ackCnt = c.stream.snd.ackCnt + 1) (opt : AckOpt) :
    AckScheduled c (enqueueAcklist c' opt) := by
  unfold enqueueAcklist
  refine AckScheduled.acklist ?_
  cases opt with
  | now =>
    refine h.congr ?_ rfl rfl
    change c'.stream.snd.ackCnt + 1 ≠ _
    bv_omega
  | aggregate =>
    dsimp only
    split
    · refine h.congr ?_ rfl rfl
      change (1 : U8) ≠ _
      bv_omega
    · exact h
  | wack => exact h.congr h.counted rfl rfl

theorem AckScheduled.controllist (h : AckScheduled c c') : AckScheduled c (addtoControllist c') := by
  unfold addtoControllist addto
  split
  · exact h
  · exact h.congr h.counted rfl rfl

theorem AckScheduled.timewait (h : AckScheduled c c') (curTs : U32) :
    AckScheduled c (addToTimewaitList c' curTs) := by
  unfold addToTimewaitList removeFromRtoList
  dsimp only
  repeat' split
  all_goals exact h.congr h.counted rfl rfl

end AckScheduled

end CmtTcp
