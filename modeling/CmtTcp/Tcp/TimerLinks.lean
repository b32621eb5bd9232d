import CmtTcp.Lib.Placement
import CmtTcp.Tcp.Process

/-!
# The timer link of a stream

The field `timer_link` of a stream serves the buckets of the retransmission store and the timewait list.
Which of them a stream is on is said by `on_rto_idx` and `on_timewait_list` (`Stream.timerMark`), and
`TimersOk marks c` says that the lists agree: `c` is one connection, and `marks` is what the other
streams say.

`add_to_rto_list` does not look at `on_timewait_list`. It is the states that keep the two apart: a stream
on the timewait list is in `TIME_WAIT`, or closed (`Parked`), where no handler sets a retransmission
timer. `processStream_parked` carries this through `cmt_tcp_process`.
-/

namespace CmtTcp

open Lib (Outcome Placed)

variable {ρ : Type}

/-! ### Marks and lists -/

/-- The lists that `timer_link` is for. -/
inductive TimerList
  | rto (i : ℕ)
  | timewait
deriving DecidableEq, Repr

/-- The list a stream says it is on. -/
def Stream.timerMark (s : Stream ρ) : Option TimerList :=
  if s.onTimewaitList then some .timewait
  else if s.onRtoIdx < 0 then none
  else some (.rto s.onRtoIdx.toNat)

/-- The lists of the manager by their names. -/
def TcpManager.timerLists (tcp : TcpManager) : TimerList → List Addr
  | .rto i => tcp.rtoStore.rtoList i
  | .timewait => tcp.timewaitList

/-- The buckets of the retransmission store. -/
def rtoBuckets : Finset TimerList := (Finset.range (rtoHash + 1)).image .rto

/-- The two fields that mark a stream are in range, and not both set. -/
structure Stream.TimerFields (s : Stream ρ) : Prop where
  low : -1 ≤ s.onRtoIdx
  high : s.onRtoIdx ≤ rtoHash
  apart : s.onTimewaitList → s.onRtoIdx = -1

/-- The counters of the manager. -/
structure TcpManager.TimerCounts (tcp : TcpManager) : Prop where
  rto : tcp.rtoListCnt = ∑ l ∈ rtoBuckets, (tcp.timerLists l).length
  timewait : tcp.timewaitListCnt = tcp.timewaitList.length

/-- The timer lists hold the stream of `c` where its fields say, and the other streams where `marks`
says. -/
structure TimersOk (marks : Addr → Option TimerList) (c : Conn ρ) : Prop where
  placed : Placed (Function.update marks c.stream.addr c.stream.timerMark) c.tcp.timerLists
  fields : c.stream.TimerFields
  counts : c.tcp.TimerCounts

/-- The stream is not on the timewait list. -/
structure Awake (marks : Addr → Option TimerList) (c : Conn ρ) : Prop extends TimersOk marks c where
  off : c.stream.onTimewaitList = false

/-- The stream is on the timewait list in `TIME_WAIT` only, or when it is closed. -/
structure Parked (marks : Addr → Option TimerList) (c : Conn ρ) : Prop extends TimersOk marks c where
  state : c.stream.onTimewaitList → c.stream.state = .timeWait ∨ c.stream.state = .closed

/-! ### What touches no timer -/

/-- What the timer lists depend on. -/
def Conn.timerView (c : Conn ρ) : Addr × ℤ × Bool × RtoHashstore × List Addr × ℤ × ℤ :=
  (c.stream.addr, c.stream.onRtoIdx, c.stream.onTimewaitList, c.tcp.rtoStore, c.tcp.timewaitList,
    c.tcp.rtoListCnt, c.tcp.timewaitListCnt)

/-- From `c` to `c'` the timers are left alone. -/
def Conn.SameTimers (c c' : Conn ρ) : Prop := c'.timerView = c.timerView

section SameTimers

variable {marks : Addr → Option TimerList} {c c' c'' : Conn ρ}

theorem Conn.SameTimers.refl (c : Conn ρ) : c.SameTimers c := rfl

theorem Conn.SameTimers.trans (h : c.SameTimers c') (h' : c'.SameTimers c'') : c.SameTimers c'' :=
  Eq.trans h' h

theorem Conn.SameTimers.addr (h : c.SameTimers c') : c'.stream.addr = c.stream.addr :=
  congrArg Prod.fst h

theorem Conn.SameTimers.onRtoIdx (h : c.SameTimers c') : c'.stream.onRtoIdx = c.stream.onRtoIdx :=
  congrArg (fun v => v.2.1) h

theorem Conn.SameTimers.onTimewaitList (h : c.SameTimers c') :
    c'.stream.onTimewaitList = c.stream.onTimewaitList :=
  congrArg (fun v => v.2.2.1) h

theorem Conn.SameTimers.rtoStore (h : c.SameTimers c') : c'.tcp.rtoStore = c.tcp.rtoStore :=
  congrArg (fun v => v.2.2.2.1) h

theorem Conn.SameTimers.timewaitList (h : c.SameTimers c') :
    c'.tcp.timewaitList = c.tcp.timewaitList :=
  congrArg (fun v => v.2.2.2.2.1) h

theorem TimersOk.same (h : TimersOk marks c) (hs : c.SameTimers c') : TimersOk marks c' := by
  have hmark : c'.stream.timerMark = c.stream.timerMark := by
    unfold Stream.timerMark
    rw [hs.onTimewaitList, hs.onRtoIdx]
  have hlists : c'.tcp.timerLists = c.tcp.timerLists := by
    funext l
    cases l with
    | rto i => exact congrArg (fun store => store.rtoList i) hs.rtoStore
    | timewait => exact hs.timewaitList
  constructor
  · rw [hs.addr, hmark, hlists]
    exact h.placed
  · constructor
    · rw [hs.onRtoIdx]
      exact h.fields.low
    · rw [hs.onRtoIdx]
      exact h.fields.high
    · rw [hs.onRtoIdx, hs.onTimewaitList]
      exact h.fields.apart
  · -- the counters are in the view, and what they count has not changed
    have hcnt : c'.tcp.rtoListCnt = c.tcp.rtoListCnt := congrArg (fun v => v.2.2.2.2.2.1) hs
    have hcnt' : c'.tcp.timewaitListCnt = c.tcp.timewaitListCnt :=
      congrArg (fun v => v.2.2.2.2.2.2) hs
    constructor
    · rw [hcnt, hlists]
      exact h.counts.rto
    · rw [hcnt', hs.timewaitList]
      exact h.counts.timewait

theorem Awake.same (h : Awake marks c) (hs : c.SameTimers c') : Awake marks c' :=
  ⟨h.toTimersOk.same hs, hs.onTimewaitList.trans h.off⟩

/-- A stream that is awake may be in any state. -/
theorem Awake.parked (h : Awake marks c) : Parked marks c :=
  ⟨h.toTimersOk, fun hon => by rw [h.off] at hon; cases hon⟩

theorem Parked.same (h : Parked marks c) (hs : c.SameTimers c')
    (hst : c.stream.onTimewaitList → c'.stream.state = c.stream.state ∨ c'.stream.state = .closed) :
    Parked marks c' := by
  refine ⟨h.toTimersOk.same hs, fun hon => ?_⟩
  rw [hs.onTimewaitList] at hon
  rcases hst hon with hst | hst
  · rw [hst]
    exact h.state hon
  · exact .inr hst

/-- Only in `TIME_WAIT` or closed can the stream be on the timewait list. -/
theorem Parked.awake (h : Parked marks c) (htw : c.stream.state ≠ .timeWait)
    (hcl : c.stream.state ≠ .closed) : Awake marks c := by
  refine ⟨h.toTimersOk, ?_⟩
  rw [← Bool.not_eq_true]
  intro hon
  rcases h.state hon with hst | hst
  · exact htw hst
  · exact hcl hst

end SameTimers

/-! ### The functions of `timer.c` -/

section TimerOps

variable {marks : Addr → Option TimerList} {c c' : Conn ρ}

theorem rto_mem_rtoBuckets {i : ℕ} (hi : i ≤ rtoHash) : TimerList.rto i ∈ rtoBuckets :=
  Finset.mem_image_of_mem _ (Finset.mem_range.mpr (Nat.lt_succ_of_le hi))

theorem timewait_notMem_rtoBuckets : TimerList.timewait ∉ rtoBuckets := by
  intro h
  obtain ⟨i, _, hi⟩ := Finset.mem_image.mp h
  cases hi

@[simp] theorem timerMark_rto {s : Stream ρ} (hoff : s.onTimewaitList = false)
    (hidx : 0 ≤ s.onRtoIdx) : s.timerMark = some (.rto s.onRtoIdx.toNat) := by
  unfold Stream.timerMark
  rw [if_neg (by rw [hoff]; exact Bool.false_ne_true), if_neg (by omega)]

@[simp] theorem timerMark_none {s : Stream ρ} (hoff : s.onTimewaitList = false)
    (hidx : s.onRtoIdx < 0) : s.timerMark = none := by
  unfold Stream.timerMark
  rw [if_neg (by rw [hoff]; exact Bool.false_ne_true), if_pos hidx]

@[simp] theorem timerMark_timewait {s : Stream ρ} (hon : s.onTimewaitList) :
    s.timerMark = some .timewait := if_pos hon

/-- Changing one bucket changes one of the timer lists. -/
theorem timerLists_updateRto (tcp tcp' : TcpManager) (i : ℕ) (l : List Addr)
    (hrto : tcp'.rtoStore.rtoList = Function.update tcp.rtoStore.rtoList i l)
    (htw : tcp'.timewaitList = tcp.timewaitList) :
    tcp'.timerLists = Function.update tcp.timerLists (.rto i) l := by
  funext name
  cases name with
  | rto j =>
    change tcp'.rtoStore.rtoList j = _
    rw [hrto]
    by_cases hj : j = i
    · subst hj
      rw [Function.update_self, Function.update_self]
    · rw [Function.update_of_ne hj, Function.update_of_ne]
      · rfl
      · exact fun h => hj (TimerList.rto.inj h)
  | timewait =>
    rw [Function.update_of_ne (by exact TimerList.noConfusion)]
    exact htw

/-- Changing the timewait list changes one of the timer lists. -/
theorem timerLists_updateTimewait (tcp tcp' : TcpManager) (l : List Addr)
    (hrto : tcp'.rtoStore.rtoList = tcp.rtoStore.rtoList) (htw : tcp'.timewaitList = l) :
    tcp'.timerLists = Function.update tcp.timerLists .timewait l := by
  funext name
  cases name with
  | rto j =>
    rw [Function.update_of_ne (by exact TimerList.noConfusion)]
    exact congrFun hrto j
  | timewait =>
    rw [Function.update_self]
    exact htw

/-- The timewait list after a change of a bucket. -/
theorem timewaitList_of_updateRto {tcp tcp' : TcpManager} {i : ℕ} {l : List Addr}
    (h : tcp'.timerLists = Function.update tcp.timerLists (.rto i) l) :
    tcp'.timewaitList = tcp.timewaitList := by
  change tcp'.timerLists .timewait = _
  rw [h, Function.update_of_ne (by exact TimerList.noConfusion)]
  rfl

/-- The counters after a change of the timewait list. -/
theorem TimerCounts.updateTimewait {tcp tcp' : TcpManager} (h : tcp.TimerCounts) {l : List Addr}
    (hrto : tcp'.rtoStore.rtoList = tcp.rtoStore.rtoList) (htw : tcp'.timewaitList = l)
    (hcnt : tcp'.rtoListCnt = tcp.rtoListCnt) (hlen : tcp'.timewaitListCnt = l.length) :
    tcp'.TimerCounts where
  rto := by
    rw [hcnt, h.rto, timerLists_updateTimewait tcp tcp' l hrto htw]
    refine congrArg Nat.cast (Finset.sum_congr rfl fun name hname => ?_)
    rw [Function.update_of_ne]
    rintro rfl
    exact timewait_notMem_rtoBuckets hname
  timewait := by rw [hlen, htw]

/-- What the fields of a stream in a bucket say. -/
theorem TimersOk.rto_mem (h : TimersOk marks c) (hoff : c.stream.onTimewaitList = false)
    (hidx : 0 ≤ c.stream.onRtoIdx) :
    c.stream.addr ∈ c.tcp.timerLists (.rto c.stream.onRtoIdx.toNat) := by
  rw [h.placed.mem_iff, Function.update_self]
  exact timerMark_rto hoff hidx

/-- A stream that is in a bucket is taken off it. -/
theorem Awake.unlinked (h : Awake marks c) (hidx : 0 ≤ c.stream.onRtoIdx)
    (haddr : c'.stream.addr = c.stream.addr) (hidx' : c'.stream.onRtoIdx = -1)
    (hoff : c'.stream.onTimewaitList = c.stream.onTimewaitList)
    (hlists : c'.tcp.timerLists = Function.update c.tcp.timerLists (.rto c.stream.onRtoIdx.toNat)
      ((c.tcp.timerLists (.rto c.stream.onRtoIdx.toNat)).erase c.stream.addr))
    (hcnt : c'.tcp.rtoListCnt = c.tcp.rtoListCnt - 1)
    (hcnt' : c'.tcp.timewaitListCnt = c.tcp.timewaitListCnt) : Awake marks c' := by
  have hoff' : c'.stream.onTimewaitList = false := hoff.trans h.off
  have hmark := timerMark_rto h.off hidx
  have hmark' : c'.stream.timerMark = none := timerMark_none hoff' (by omega)
  refine ⟨⟨?_, ?_, ?_, ?_⟩, hoff'⟩
  · -- the mark goes with the link
    have hremove := h.placed.remove ((Function.update_self _ _ _).trans hmark)
    rwa [Function.update_idem, ← hlists, ← hmark', ← haddr] at hremove
  · refine ⟨by omega, by rw [hidx']; decide, fun _ => hidx'⟩
  · -- `rto_list_cnt` goes down with the length of the bucket
    have hbucket := rto_mem_rtoBuckets (i := c.stream.onRtoIdx.toNat)
      (by have := h.fields.high; omega)
    have hsum := Lib.sum_length_erase _ hbucket (h.rto_mem h.off hidx)
    rw [← hlists] at hsum
    rw [hcnt, h.counts.rto, ← hsum]
    push_cast
    omega
  · rw [hcnt', timewaitList_of_updateRto hlists]
    exact h.counts.timewait

/-- A stream that is on no list is put into a bucket. -/
theorem Awake.linked (h : Awake marks c) (hidx : c.stream.onRtoIdx < 0) {i : ℕ} (hi : i ≤ rtoHash)
    (haddr : c'.stream.addr = c.stream.addr) (hidx' : c'.stream.onRtoIdx = i)
    (hoff : c'.stream.onTimewaitList = c.stream.onTimewaitList)
    (hlists : c'.tcp.timerLists = Function.update c.tcp.timerLists (.rto i)
      (c.tcp.timerLists (.rto i) ++ [c.stream.addr]))
    (hcnt : c'.tcp.rtoListCnt = c.tcp.rtoListCnt + 1)
    (hcnt' : c'.tcp.timewaitListCnt = c.tcp.timewaitListCnt) : Awake marks c' := by
  have hoff' : c'.stream.onTimewaitList = false := hoff.trans h.off
  have hmark := timerMark_none h.off hidx
  have hmark' : c'.stream.timerMark = some (.rto i) := by
    rw [timerMark_rto hoff' (by omega), hidx', Int.toNat_natCast]
  refine ⟨⟨?_, ?_, ?_, ?_⟩, hoff'⟩
  · have happend := h.placed.append ((Function.update_self _ _ _).trans hmark) (.rto i)
    rwa [Function.update_idem, ← hlists, ← hmark', ← haddr] at happend
  · refine ⟨by omega, by omega, fun hon => ?_⟩
    rw [hoff'] at hon
    cases hon
  · -- `rto_list_cnt` goes up with the length of the bucket
    have hsum := Lib.sum_length_append c.tcp.timerLists (rto_mem_rtoBuckets hi) c.stream.addr
    rw [← hlists] at hsum
    rw [hcnt, h.counts.rto, hsum]
    push_cast
    rfl
  · rw [hcnt', timewaitList_of_updateRto hlists]
    exact h.counts.timewait

theorem removeFromRtoList_awake (h : Awake marks c) :
    Awake marks (removeFromRtoList c) ∧ (removeFromRtoList c).stream.onRtoIdx < 0 := by
  unfold removeFromRtoList
  split
  · next hidx => exact ⟨h, hidx⟩
  · next hidx =>
    refine ⟨h.unlinked (Int.not_lt.mp hidx) rfl rfl rfl ?_ rfl rfl, (show (-1 : ℤ) < 0 by decide)⟩
    exact timerLists_updateRto _ _ _ _ rfl rfl

/-- `add_to_rto_list` on a stream that is not on the timewait list. -/
theorem addToRtoList_awake (h : Awake marks c) : Awake marks (addToRtoList c) := by
  -- starting over leaves the lists as they are
  have hstart : Awake marks
      (if c.tcp.rtoListCnt = 0 then
        { c with tcp := { c.tcp with
            rtoStore := { c.tcp.rtoStore with rtoNowIdx := 0, rtoNowTs := c.stream.snd.tsRto } } }
      else c) := by
    split
    · exact ⟨⟨h.placed, h.fields, ⟨h.counts.rto, h.counts.timewait⟩⟩, h.off⟩
    · exact h
  have hlt : ∀ n : ℕ, n % rtoHash ≤ rtoHash := fun n => (Nat.mod_lt n (by decide)).le
  unfold addToRtoList
  generalize (if c.tcp.rtoListCnt = 0 then
    { c with tcp := { c.tcp with
        rtoStore := { c.tcp.rtoStore with rtoNowIdx := 0, rtoNowTs := c.stream.snd.tsRto } } }
    else c) = c₁ at hstart
  dsimp only
  split
  · next hidx =>
    refine hstart.linked hidx (i := if (c₁.stream.snd.tsRto - c₁.tcp.rtoStore.rtoNowTs).toInt < rtoHash
      then c₁.stream.snd.tsRto.toNat % rtoHash else rtoHash) ?_ rfl rfl rfl ?_ rfl rfl
    · split
      · exact hlt _
      · exact le_refl _
    exact timerLists_updateRto _ _ _ _ rfl rfl
  · exact hstart

/-- `update_retransmission_timer` on a stream that is not on the timewait list. -/
theorem updateRetransmissionTimer_awake (h : Awake marks c) (curTs : U32) :
    Outcome (updateRetransmissionTimer c curTs) (fun _ => True) (Awake marks) := by
  unfold updateRetransmissionTimer
  refine Outcome.ite (fun _ => ?_) fun _ => trivial
  have hnrtx : Awake marks (c.modSnd fun snd => { snd with nrtx := 0 }) := h.same rfl
  have hout : Awake marks
      (if (c.modSnd fun snd => { snd with nrtx := 0 }).stream.onRtoIdx ≥ 0 then
        removeFromRtoList (c.modSnd fun snd => { snd with nrtx := 0 })
      else c.modSnd fun snd => { snd with nrtx := 0 }) := by
    split
    · exact (removeFromRtoList_awake hnrtx).1
    · exact hnrtx
  refine Outcome.ite (fun _ => ?_) fun _ => hout
  exact addToRtoList_awake (hout.same rfl)

/-- The timewait list is changed to `l`. -/
theorem TimersOk.of_timewait {l : List Addr} (hcounts : c.tcp.TimerCounts)
    (hplaced : Placed (Function.update marks c'.stream.addr c'.stream.timerMark)
      (Function.update c.tcp.timerLists .timewait l))
    (hfields : c'.stream.TimerFields) (hrto : c'.tcp.rtoStore.rtoList = c.tcp.rtoStore.rtoList)
    (htw : c'.tcp.timewaitList = l) (hcnt : c'.tcp.rtoListCnt = c.tcp.rtoListCnt)
    (hlen : c'.tcp.timewaitListCnt = l.length) : TimersOk marks c' where
  placed := by
    rw [timerLists_updateTimewait c.tcp c'.tcp l hrto htw]
    exact hplaced
  fields := hfields
  counts := TimerCounts.updateTimewait hcounts hrto htw hcnt hlen

/-- A stream that is marked as being on the timewait list is there. -/
theorem TimersOk.timewait_mem (h : TimersOk marks c) (hon : c.stream.onTimewaitList) :
    c.stream.addr ∈ c.tcp.timewaitList :=
  (h.placed.mem_iff .timewait _).mpr ((Function.update_self _ _ _).trans (timerMark_timewait hon))

/-- `add_to_timewait_list` takes the stream off its bucket, if it is in one. -/
theorem addToTimewaitList_ok (h : TimersOk marks c) (curTs : U32) :
    TimersOk marks (addToTimewaitList c curTs) := by
  have hts : TimersOk marks
      (c.modRcv fun rcv => { rcv with tsTwExpire := curTs + cmtTcpTimewait }) := h.same rfl
  unfold addToTimewaitList
  generalize (c.modRcv fun rcv => { rcv with tsTwExpire := curTs + cmtTcpTimewait }) = c₁ at hts
  dsimp only
  split
  · -- it is on the list already, and goes to the back
    next hon =>
    have hback := hts.placed.toBack ((Function.update_self _ _ _).trans (timerMark_timewait hon))
    have hmem := hts.timewait_mem hon
    have hpos := List.length_pos_of_mem hmem
    refine .of_timewait hts.counts hback hts.fields rfl rfl rfl ?_
    change c₁.tcp.timewaitListCnt =
      ((c₁.tcp.timewaitList.erase c₁.stream.addr ++ [c₁.stream.addr]).length : ℤ)
    rw [hts.counts.timewait, List.length_append, List.length_erase_of_mem hmem,
      List.length_singleton]
    omega
  · next hoff =>
    have hawake : Awake marks c₁ := ⟨hts, by simpa using hoff⟩
    have hout : Awake marks (if c₁.stream.onRtoIdx ≥ 0 then removeFromRtoList c₁ else c₁) ∧
        (if c₁.stream.onRtoIdx ≥ 0 then removeFromRtoList c₁ else c₁).stream.onRtoIdx < 0 := by
      split
      · exact removeFromRtoList_awake hawake
      · next hidx => exact ⟨hawake, Int.not_le.mp hidx⟩
    generalize (if c₁.stream.onRtoIdx ≥ 0 then removeFromRtoList c₁ else c₁) = c₂ at hout
    obtain ⟨h₂, hidx⟩ := hout
    have happend :=
      h₂.placed.append ((Function.update_self _ _ _).trans (timerMark_none h₂.off hidx)) .timewait
    rw [Function.update_idem] at happend
    have hlow := h₂.fields.low
    refine .of_timewait h₂.counts happend ⟨hlow, h₂.fields.high, fun _ => ?_⟩ rfl rfl rfl ?_
    · change c₂.stream.onRtoIdx = -1
      omega
    · change c₂.tcp.timewaitListCnt + 1 = ((c₂.tcp.timewaitList ++ [c₂.stream.addr]).length : ℤ)
      rw [h₂.counts.timewait, List.length_append]
      push_cast
      rfl

/-- A stream on the timewait list is taken off it. -/
theorem TimersOk.removeTimewait (h : TimersOk marks c) (hon : c.stream.onTimewaitList)
    (haddr : c'.stream.addr = c.stream.addr) (hidx : c'.stream.onRtoIdx = c.stream.onRtoIdx)
    (hoff : c'.stream.onTimewaitList = false)
    (hrto : c'.tcp.rtoStore.rtoList = c.tcp.rtoStore.rtoList)
    (htw : c'.tcp.timewaitList = c.tcp.timewaitList.erase c.stream.addr)
    (hcnt : c'.tcp.rtoListCnt = c.tcp.rtoListCnt)
    (hcnt' : c'.tcp.timewaitListCnt = c.tcp.timewaitListCnt - 1) : Awake marks c' := by
  have hnone : c'.stream.onRtoIdx = -1 := hidx.trans (h.fields.apart hon)
  have hmark' : c'.stream.timerMark = none := timerMark_none hoff (by omega)
  have hremove := h.placed.remove ((Function.update_self _ _ _).trans (timerMark_timewait hon))
  rw [Function.update_idem, ← hmark', ← haddr] at hremove
  have hmem := h.timewait_mem hon
  have hpos := List.length_pos_of_mem hmem
  have hfields : c'.stream.TimerFields := ⟨by omega, by rw [hnone]; decide, fun _ => hnone⟩
  refine ⟨.of_timewait h.counts hremove hfields hrto ?_ hcnt ?_, hoff⟩
  · rw [htw, haddr]
    rfl
  · change c'.tcp.timewaitListCnt = ((c.tcp.timewaitList.erase c'.stream.addr).length : ℤ)
    rw [hcnt', h.counts.timewait, haddr, List.length_erase_of_mem hmem]
    omega

theorem removeFromTimewaitList_awake (h : TimersOk marks c) :
    Outcome (removeFromTimewaitList c) (fun _ => True) (Awake marks) := by
  unfold removeFromTimewaitList
  refine Outcome.ite (fun hon => ?_) fun _ => trivial
  exact h.removeTimewait hon rfl rfl rfl rfl rfl rfl rfl

end TimerOps

/-! ### The steps that touch no timer -/

section Quiet

variable {c : Conn ρ}

theorem Conn.modSnd_sameTimers (c : Conn ρ) (f : SndVar → SndVar) : c.SameTimers (c.modSnd f) :=
  rfl

theorem Conn.mod_snd_sameTimers (c : Conn ρ) (f : Stream ρ → SndVar) :
    c.SameTimers (c.mod fun s => { s with snd := f s }) :=
  rfl

theorem addto_sameTimers (on : SndVar → Bool) (mark : SndVar → SndVar)
    (link : Sender → Addr → Sender) (c : Conn ρ) : c.SameTimers (addto on mark link c) := by
  unfold addto
  split
  · exact .refl c
  · exact rfl

theorem addtoControllist_sameTimers (c : Conn ρ) : c.SameTimers (addtoControllist c) :=
  addto_sameTimers _ _ _ c

theorem addtoSendlist_sameTimers (c : Conn ρ) :
    Outcome (addtoSendlist c) (· = .assertZero) c.SameTimers := by
  unfold addtoSendlist
  exact Outcome.ite (fun _ => rfl) fun _ => addto_sameTimers _ _ _ c

theorem removeSendlist_sameTimers (c : Conn ρ) : c.SameTimers (removeSendlist c) := by
  unfold removeSendlist
  split
  · exact rfl
  · exact .refl c

theorem removeControllist_sameTimers (c : Conn ρ) : c.SameTimers (removeControllist c) := by
  unfold removeControllist
  split
  · exact rfl
  · exact .refl c

theorem enqueueAcklist_sameTimers (c : Conn ρ) (opt : AckOpt) :
    c.SameTimers (enqueueAcklist c opt) := by
  refine Conn.SameTimers.trans ?_ (addto_sameTimers _ _ _ _)
  cases opt with
  | now => exact rfl
  | aggregate =>
    dsimp only
    split
    · exact rfl
    · exact .refl c
  | wack => exact rfl

theorem addToTimeoutList_sameTimers (c : Conn ρ) :
    Outcome (addToTimeoutList c) (fun _ => True) c.SameTimers := by
  unfold addToTimeoutList
  exact Outcome.ite (fun _ => trivial) fun _ => rfl

theorem parseOptions_sameTimers (c : Conn ρ) (curTs : U32) (seg : Segment) :
    Outcome (parseOptions c curTs seg) (fun _ => True) c.SameTimers := by
  unfold parseOptions
  split
  · exact trivial
  · next t h =>
    have hneg : c.stream.Negotiated t := parseOptionsLoop_negotiated h
    rw [Outcome.ok_iff]
    unfold Conn.SameTimers
    rw [hneg]
    rfl

theorem noteArrival_sameTimers (c : Conn ρ) (a : Arrival ρ) : c.SameTimers (noteArrival c a) := by
  unfold noteArrival updateTimeoutList
  split
  · exact rfl
  · exact rfl

theorem receivePayload_sameTimers (P : Parts ρ) (c : Conn ρ) (a : Arrival ρ) :
    Outcome (receivePayload P c a) (fun _ => True) c.SameTimers := by
  unfold receivePayload
  refine Outcome.ite (fun _ => ?_) fun _ => .refl c
  refine Outcome.bind ((processPayload_cases P c a).mono (fun _ _ => trivial) fun _ h => h) fun r hr => ?_
  refine Conn.SameTimers.trans ?_ (enqueueAcklist_sameTimers _ _)
  rcases hr with h | h | ⟨nxt, rcv, -, h⟩
  · rw [h]
    exact .refl c
  · rw [h]
    exact rfl
  · rw [h]
    exact rfl

theorem validTimestamp_sameTimers {c' : Conn ρ} {a : Arrival ρ}
    (h : validTimestamp c a = some c') : c.SameTimers c' := by
  unfold validTimestamp at h
  split at h
  · split at h
    · cases h
    · split at h
      · cases h
        exact enqueueAcklist_sameTimers c .now
      · cases h
        split
        · exact rfl
        · exact rfl
  · cases h
    exact .refl c

theorem processRst_sameTimers (c : Conn ρ) (ackSeq : U32) :
    c.SameTimers (processRst c ackSeq).1 := by
  unfold processRst
  dsimp only
  repeat' split
  all_goals exact rfl

end Quiet

/-! ### Acknowledgements -/

section Acks

variable {marks : Addr → Option TimerList} {c : Conn ρ}

theorem updateRto_sameTimers (c : Conn ρ) (curTs : U32) :
    Outcome (updateRto c curTs) (fun _ => True) c.SameTimers := by
  unfold updateRto
  refine Outcome.ite (fun _ => ?_) fun _ => .refl c
  have hrtt : c.SameTimers (estimateRtt c (curTs - c.stream.rcv.tsLastackRcvd)) := rfl
  exact Outcome.ite (fun _ => hrtt.trans rfl) fun _ => trivial

theorem growCwnd_sameTimers (c : Conn ρ) (packets : U16) :
    Outcome (growCwnd c packets) (fun _ => True) c.SameTimers := by
  unfold growCwnd
  refine Outcome.ite (fun _ => Outcome.ite (fun _ => ?_) fun _ => .refl c) fun _ =>
    Outcome.ite (fun _ => trivial) fun _ => ?_
  · exact rfl
  · exact rfl

theorem ackRemoved_awake (h : Awake marks c) (buf : SendBuffer) (ret : U64) (ackSeq curTs : U32) :
    Outcome (ackRemoved c buf ret ackSeq curTs) (fun _ => True) (Awake marks) := by
  have hbuf : Awake marks (c.modSnd fun snd => { snd with sndbuf := some buf }) := h.same rfl
  unfold ackRemoved
  refine Outcome.ite (fun _ => hbuf) fun _ => ?_
  refine updateRetransmissionTimer_awake (hbuf.same ?_) curTs
  exact rfl

theorem ackRemove_awake (h : Awake marks c) (buf : SendBuffer) (ackSeq curTs : U32) :
    Outcome (ackRemove c buf ackSeq curTs) (fun _ => True) (Awake marks) := by
  unfold ackRemove
  refine Outcome.ite (fun _ => Outcome.ite (fun _ => trivial) fun _ => ?_) fun _ => h
  refine Outcome.bind (updateRto_sameTimers c curTs) fun c₁ h₁ => ?_
  refine Outcome.bind (growCwnd_sameTimers c₁ _) fun c₂ h₂ => ?_
  exact ackRemoved_awake (h.same (h₁.trans h₂)) _ _ _ _

theorem answerDup_sameTimers (c : Conn ρ) (dup : Bool) (ackSeq : U32) :
    Outcome (answerDup c dup ackSeq) (fun _ => True) c.SameTimers := by
  unfold answerDup
  refine Outcome.ite (fun _ => ?_) fun _ =>
    Outcome.ite (fun _ => (rfl : c.SameTimers _)) fun _ => .refl c
  unfold fastRetransmit
  refine (addtoSendlist_sameTimers _).mono (fun _ _ => trivial) fun c' h => ?_
  refine Conn.SameTimers.trans ?_ h
  by_cases hlt : tcpSeqLt ackSeq c.stream.sndNxt
  · simp only [if_pos hlt]
    exact rfl
  · simp only [if_neg hlt]
    exact rfl

theorem raiseSndNxt_sameTimers (c : Conn ρ) (buf : SendBuffer) (ackSeq : U32) :
    c.SameTimers (raiseSndNxt c buf ackSeq) := by
  unfold raiseSndNxt
  split
  · dsimp only
    split
    · exact Conn.SameTimers.trans rfl (removeSendlist_sameTimers _)
    · exact rfl
  · exact .refl c

/-- `cmt_tcp_process_ack` may set the retransmission timer of a stream that is not on the timewait
list. -/
theorem processAck_awake (h : Awake marks c) (seg : Segment) (curTs : U32) :
    Outcome (processAck c seg curTs) (fun _ => True) (Awake marks) := by
  unfold processAck
  split
  · exact trivial
  · next buf _ =>
    refine Outcome.ite (fun _ => h) fun _ => ?_
    have hupdate : ∀ dup ackSeq,
        c.SameTimers ((c.mod (windowUpdate seg ackSeq)).mod (countDup dup ackSeq)) := by
      intro dup ackSeq
      unfold windowUpdate countDup Conn.mod
      dsimp only
      repeat' split
      all_goals exact rfl
    refine Outcome.bind (answerDup_sameTimers _ _ _) fun c₁ h₁ => ?_
    have hraise := h.same
      (((hupdate _ _).trans h₁).trans (raiseSndNxt_sameTimers c₁ buf (ackSeqOf c.stream seg.ackSeq)))
    exact Outcome.ite (fun _ => hraise) fun _ => ackRemove_awake hraise _ _ _

theorem receiveAck_awake (h : Awake marks c) (a : Arrival ρ) :
    Outcome (receiveAck c a) (fun _ => True) (Awake marks) := by
  unfold receiveAck
  exact Outcome.ite (fun _ => processAck_awake h a.seg a.ts) fun _ => h

end Acks

/-! ### The handlers -/

/-- What comes of `c` by acknowledgements and by scheduling control packets. -/
inductive AckControl : Conn ρ → Conn ρ → Prop
  | refl (c : Conn ρ) : AckControl c c
  | ack {c c' c'' : Conn ρ} {seg : Segment} {curTs : U32} (h : AckControl c c')
      (hack : processAck c' seg curTs = .ok c'') : AckControl c c''
  | control {c c' : Conn ρ} (h : AckControl c c') : AckControl c (addtoControllist c')

/-- The handler for `CLOSE_WAIT` does nothing else. -/
def Parts.CloseWaitAcks (P : Parts ρ) : Prop :=
  ∀ c a c', P.handleCloseWait c a = .ok c' → AckControl c c'

section TimerHandlers

variable {marks : Addr → Option TimerList} {P : Parts ρ} {c c' : Conn ρ} {a : Arrival ρ}

theorem Awake.controllist (h : Awake marks c) : Awake marks (addtoControllist c) :=
  h.same (addtoControllist_sameTimers c)

theorem AckControl.awake (h : AckControl c c') (hc : Awake marks c) : Awake marks c' := by
  induction h with
  | refl => exact hc
  | ack _ hack ih => exact (processAck_awake ih _ _).of_ok hack
  | control _ ih => exact ih.controllist

theorem handleListen_awake (h : Awake marks c) :
    Outcome (handleListen c a) (fun _ => True) (Awake marks) := by
  unfold handleListen
  refine Outcome.ite (fun _ => ?_) fun _ => trivial
  refine Awake.controllist ?_
  split
  · exact h.same rfl
  · exact h.same rfl

theorem activeOpen_awake (h : Awake marks c) :
    Outcome (activeOpen c a) (fun _ => True) (Awake marks) := by
  unfold activeOpen
  refine Outcome.bind (parseOptions_sameTimers _ a.ts a.seg) fun c₁ h₁ => ?_
  have hopen : Awake marks c₁ := h.same (Conn.SameTimers.trans rfl h₁)
  refine updateRetransmissionTimer_awake (hopen.same ?_) a.ts
  exact rfl

theorem synSentOpen_awake (h : Awake marks c) :
    Outcome (synSentOpen c a) (fun _ => True) (Awake marks) := by
  unfold synSentOpen
  refine Outcome.bind (activeOpen_awake h) fun c₁ h₁ => ?_
  have hnrtx : Awake marks ((c₁.modSnd fun snd => { snd with nrtx := 0 }).mod
      fun s => { s with rcvNxt := s.rcv.irs + 1 }) := h₁.same rfl
  -- the SYN is acknowledged, and its timer is taken out
  obtain ⟨hout, -⟩ := removeFromRtoList_awake hnrtx
  dsimp only
  generalize removeFromRtoList _ = c₂ at hout ⊢
  refine (addToTimeoutList_sameTimers _).mono (fun _ _ => trivial) fun c' h' => Awake.same ?_ h'
  refine Awake.controllist ?_
  split
  · exact hout.same rfl
  · exact hout.same rfl

theorem handleSynSent_awake (h : Awake marks c) :
    Outcome (handleSynSent c a) (fun _ => True) (Awake marks) := by
  have hack : Awake marks (if a.seg.ack then c.modSnd fun snd => { snd with sndUna := snd.sndUna + 1 }
      else c) := by
    split
    · exact h.same rfl
    · exact h
  unfold handleSynSent
  dsimp only
  generalize (if a.seg.ack then c.modSnd fun snd => { snd with sndUna := snd.sndUna + 1 }
    else c) = c₁ at hack ⊢
  refine Outcome.ite (fun _ => h) fun _ => Outcome.ite (fun _ => ?_) fun _ =>
    Outcome.ite (fun _ => synSentOpen_awake hack) fun _ => ?_
  · rw [Outcome.ok_iff]
    split
    · exact hack.same rfl
    · exact hack.same rfl
  · refine Awake.controllist (hack.same ?_)
    exact rfl

theorem synRcvdOpen_awake (h : Awake marks c) :
    Outcome (synRcvdOpen c a) (fun _ => True) (Awake marks) := by
  have hnum : Awake marks (c.synRcvdAcked a) := h.same rfl
  -- our SYN is acknowledged, and its timer is taken out
  obtain ⟨hout, -⟩ := removeFromRtoList_awake hnum
  rw [synRcvdOpen_eq]
  generalize removeFromRtoList (c.synRcvdAcked a) = c₁ at hout ⊢
  have hopen : Awake marks (c₁.setState .established) := hout.same rfl
  generalize c₁.setState .established = c₂ at hopen ⊢
  split
  · exact trivial
  · refine Outcome.ite (fun _ => ?_) fun _ => ?_
    · -- the listener does not accept the stream
      have hclosed : Awake marks
          ((c₂.mod fun s => { s with closeReason := .notAccepted }).setState .closed) :=
        hopen.same rfl
      exact (addToTimeoutList_sameTimers _).mono (fun _ _ => trivial) fun c' h' =>
        hclosed.controllist.same h'
    · exact (addToTimeoutList_sameTimers _).mono (fun _ _ => trivial) fun c' h' => hopen.same h'

theorem handleEstablished_awake (h : Awake marks c) :
    Outcome (handleEstablished P c a) (fun _ => True) (Awake marks) := by
  unfold handleEstablished
  refine Outcome.ite (fun _ => ?_) fun _ => ?_
  · exact Awake.controllist (h.same rfl)
  · refine Outcome.bind (receivePayload_sameTimers P c a) fun c₀ h₀ => ?_
    have hpay := h.same h₀
    -- of what follows the payload, only the acknowledgement comes to the timer
    have hack : Outcome (establishedAck c₀ a) (fun _ => True) (Awake marks) := by
      unfold establishedAck
      exact Outcome.ite (fun _ => receiveAck_awake hpay a) fun _ => hpay
    refine Outcome.bind hack fun c₁ h₁ => ?_
    rw [Outcome.ok_iff]
    unfold establishedFin
    split
    · split
      · exact Awake.controllist (h₁.same rfl)
      · exact h₁.same (enqueueAcklist_sameTimers _ _)
    · exact h₁

theorem handleSynRcvdData_awake (h : Awake marks c) :
    Outcome (handleSynRcvdData P c a) (fun _ => True) (Awake marks) := by
  have hrcvd : Outcome (handleSynRcvd c a) (fun _ => True) (Awake marks) := by
    unfold handleSynRcvd
    refine Outcome.ite (fun _ => Outcome.ite (fun _ => trivial) fun _ => synRcvdOpen_awake h)
      fun _ => ?_
    exact Awake.controllist (h.same rfl)
  unfold handleSynRcvdData
  refine Outcome.ite (fun _ => handleListen_awake h) fun _ => Outcome.bind hrcvd fun c₁ h₁ => ?_
  exact Outcome.ite (fun _ => handleEstablished_awake h₁) fun _ => h₁

theorem handleLastAck_awake (h : Awake marks c) :
    Outcome (handleLastAck c a) (fun _ => True) (Awake marks) := by
  unfold handleLastAck
  refine Outcome.ite (fun _ => h) fun _ => Outcome.ite (fun _ => ?_) fun _ => ?_
  · refine Outcome.bind (receiveAck_awake h a) fun c₁ h₁ => ?_
    refine Outcome.ite (fun _ => h₁) fun _ => Outcome.ite (fun _ => ?_) fun _ => ?_
    · -- our FIN is acknowledged, and the stream is closed
      have huna : Awake marks (c₁.modSnd fun snd => { snd with sndUna := snd.sndUna + 1 }) :=
        h₁.same rfl
      refine Outcome.bind (updateRetransmissionTimer_awake huna a.ts) fun c₂ h₂ => ?_
      exact h₂.same rfl
    · exact h₁.controllist
  · exact h.controllist

/-- `TIME_WAIT` is entered with a stream that is awake. -/
theorem Awake.enterTimeWait (h : Awake marks c) (hst : c.stream.state = .timeWait) (curTs : U32) :
    Parked marks (addToTimewaitList c curTs) := by
  refine ⟨addToTimewaitList_ok h.toTimersOk curTs, fun _ => .inl ?_⟩
  rw [(addToTimewaitList_scheduled c curTs).steady.state, hst]

theorem Parked.controllist (h : Parked marks c) : Parked marks (addtoControllist c) :=
  h.same (addtoControllist_sameTimers c) fun _ =>
    .inl (addtoControllist_scheduled c).steady.state

theorem handleFinWait1_parked (h : Awake marks c) :
    Outcome (handleFinWait1 P c a) (fun _ => True) (Parked marks) := by
  unfold handleFinWait1
  refine Outcome.ite (fun _ => h.controllist.parked) fun _ =>
    Outcome.ite (fun _ => ?_) fun _ => h.parked
  refine Outcome.bind (receiveAck_awake h a) fun c₁ h₁ => ?_
  have hfin : Awake marks (finAcked c₁ a.seg) := by
    unfold finAcked
    split
    · have hnxt : Awake marks (c₁.mod fun s =>
          { s with
            sndNxt := if tcpSeqGt a.seg.ackSeq s.sndNxt then a.seg.ackSeq else s.sndNxt
            snd := { s.snd with sndUna := a.seg.ackSeq, nrtx := 0 } }) := h₁.same rfl
      exact (removeFromRtoList_awake hnxt).1.same rfl
    · exact h₁
  refine Outcome.bind (receivePayload_sameTimers P _ a) fun c₂ h₂ => ?_
  have hpay := hfin.same h₂
  refine Outcome.ite (fun _ => ?_) fun _ => hpay.parked
  -- the FIN leads on to `CLOSING`, or to `TIME_WAIT`
  unfold finWait1Fin
  refine Outcome.ite (fun _ => ?_) fun _ => Outcome.ite (fun _ => ?_) fun _ => trivial
  · have hset : Awake marks ((c₂.takeFin a.seg).setState .closing) := hpay.same rfl
    exact hset.controllist.parked
  · have hset : Awake marks ((c₂.takeFin a.seg).setState .timeWait) := hpay.same rfl
    exact (hset.enterTimeWait rfl a.ts).controllist

theorem handleFinWait2_parked (h : Awake marks c) :
    Outcome (handleFinWait2 P c a) (fun _ => True) (Parked marks) := by
  unfold handleFinWait2
  refine Outcome.ite (fun _ => ?_) fun _ => h.parked
  refine Outcome.bind (receiveAck_awake h a) fun c₁ h₁ => ?_
  refine Outcome.bind (receivePayload_sameTimers P c₁ a) fun c₂ h₂ => ?_
  have hpay := h₁.same h₂
  refine Outcome.ite (fun _ => ?_) fun _ => hpay.parked
  have hset : Awake marks ((c₂.setState .timeWait).takeFin a.seg) := hpay.same rfl
  exact (hset.enterTimeWait rfl a.ts).controllist

theorem handleClosing_parked (h : Awake marks c) :
    Outcome (handleClosing c a) (fun _ => True) (Parked marks) := by
  unfold handleClosing
  refine Outcome.ite (fun _ => ?_) fun _ => h.parked
  refine Outcome.bind (receiveAck_awake h a) fun c₁ h₁ => ?_
  refine Outcome.ite (fun _ => h₁.parked) fun _ => Outcome.ite (fun _ => h₁.parked) fun _ => ?_
  have hnxt : Awake marks (c₁.mod fun s =>
      { s with sndNxt := a.seg.ackSeq, snd := { s.snd with sndUna := a.seg.ackSeq } }) := h₁.same rfl
  -- the timer that is set here is taken back by `add_to_timewait_list`
  refine Outcome.bind (updateRetransmissionTimer_awake hnxt a.ts) fun c₂ h₂ => ?_
  have hset : Awake marks (c₂.setState .timeWait) := h₂.same rfl
  exact hset.enterTimeWait rfl a.ts

theorem handleTimeWait_parked (h : Parked marks c) (hst : c.stream.state = .timeWait) :
    Outcome (handleTimeWait c a) (fun _ => True) (Parked marks) := by
  unfold handleTimeWait
  refine Outcome.ite (fun _ => ?_) fun _ => h.controllist
  -- off the list, and back onto it with a new expiry
  refine Outcome.bind_of_ok (removeFromTimewaitList_awake h.toTimersOk) fun c₁ hok h₁ => ?_
  have hsch := ((removeFromTimewaitList_outcome c).of_ok hok).steady.state
  exact (h₁.enterTimeWait (hsch.trans hst) a.ts).controllist

/-! ### A call of `cmt_tcp_process` -/

theorem dispatch_parked (hP : P.CloseWaitAcks) (h : Parked marks c) :
    Outcome (dispatch P c a) (fun _ => True) (Parked marks) := by
  have hparked : ∀ {r : Except Abort (Conn ρ)}, Outcome r (fun _ => True) (Awake marks) →
      Outcome r (fun _ => True) (Parked marks) := fun hr =>
    hr.mono (fun _ _ => trivial) fun _ hc => hc.parked
  unfold dispatch
  split
  · next hst => exact hparked (handleListen_awake (h.awake (by simp [hst]) (by simp [hst])))
  · next hst => exact hparked (handleSynSent_awake (h.awake (by simp [hst]) (by simp [hst])))
  · next hst => exact hparked (handleSynRcvdData_awake (h.awake (by simp [hst]) (by simp [hst])))
  · next hst => exact hparked (handleEstablished_awake (h.awake (by simp [hst]) (by simp [hst])))
  · next hst =>
    -- the handler that is not in the repository
    have hawake := h.awake (by simp [hst]) (by simp [hst])
    cases hr : P.handleCloseWait c a with
    | error e => exact trivial
    | ok c' => exact ((hP c a c' hr).awake hawake).parked
  · next hst => exact hparked (handleLastAck_awake (h.awake (by simp [hst]) (by simp [hst])))
  · next hst => exact handleFinWait1_parked (h.awake (by simp [hst]) (by simp [hst]))
  · next hst => exact handleFinWait2_parked (h.awake (by simp [hst]) (by simp [hst]))
  · next hst => exact handleClosing_parked (h.awake (by simp [hst]) (by simp [hst]))
  · next hst => exact handleTimeWait_parked h hst
  · exact h

/-- A reset closes the stream, or takes it to `CLOSE_WAIT` from a state without a timewait list. -/
theorem processRst_parked (h : Parked marks c) (ackSeq : U32) :
    Parked marks (processRst c ackSeq).1 := by
  refine h.same (processRst_sameTimers c ackSeq) fun hon => ?_
  rcases h.state hon with hst | hst
  · -- in `TIME_WAIT` it closes
    refine .inr ?_
    unfold processRst
    rw [if_neg (by rw [hst]; decide), if_neg (by rw [hst]; decide), if_pos (by simp [hst])]
    rfl
  · refine .inl ?_
    unfold processRst
    rw [if_pos (by rw [hst]; decide)]

theorem processAccepted_parked (hP : P.CloseWaitAcks) (h : Parked marks c) :
    Outcome (processAccepted P c a) (fun _ => True) (Parked marks) := by
  have hnote : Parked marks (noteArrival c a) :=
    h.same (noteArrival_sameTimers c a) fun _ => .inl (noteArrival_same c a).steady.state
  have hreset : Parked marks ((noteArrival c a).mod fun s => { s with haveReset := true }) :=
    hnote.same rfl fun _ => .inl rfl
  unfold processAccepted
  refine Outcome.ite (fun _ => Outcome.ite (fun _ => ?_) fun _ => ?_) fun _ => ?_
  · exact processRst_parked hreset _
  · exact dispatch_parked hP hreset
  · exact dispatch_parked hP hnote

/-- A segment that is not accepted starts the wait over in `TIME_WAIT`. -/
theorem validseq_parked (h : Parked marks c) (a : Arrival ρ) : Parked marks (validseq c a).1 := by
  unfold validseq
  split
  · exact h
  · next c₁ hts =>
    have h₁ : Parked marks c₁ :=
      h.same (validTimestamp_sameTimers hts) fun _ => .inl (validTimestamp_same hts).steady.state
    have henq : ∀ opt, Parked marks (enqueueAcklist c₁ opt) := fun opt =>
      h₁.same (enqueueAcklist_sameTimers c₁ opt) fun _ =>
        .inl (enqueueAcklist_scheduled c₁ opt).steady.state
    dsimp only
    -- a segment in the window, and a reset outside of it
    split
    · exact h₁
    split
    · exact h₁
    split
    · -- `ESTABLISHED`: an acknowledgement is due
      split
      · exact henq .aggregate
      split
      · exact henq .aggregate
      · exact henq .now
    · -- elsewhere a control packet is, and in `TIME_WAIT` the wait starts over
      refine Parked.controllist ?_
      split
      · next hst =>
        refine ⟨addToTimewaitList_ok h₁.toTimersOk a.ts, fun _ => .inl ?_⟩
        rw [(addToTimewaitList_scheduled c₁ a.ts).steady.state, hst]
      · exact h₁

/-- `cmt_tcp_process` on a stream keeps the timer lists in order. -/
theorem processStream_parked (hP : P.CloseWaitAcks) (h : Parked marks c) :
    Outcome (processStream P c a) (fun _ => True) (Parked marks) := by
  unfold processStream
  refine Outcome.ite (fun _ => ?_) fun _ => processAccepted_parked hP h
  have hvalid := validseq_parked h a
  exact Outcome.ite (fun _ => processAccepted_parked hP hvalid) fun _ => hvalid

theorem createTcpStream_timers {saddr daddr : U32} {sport dport : U16} {s : Stream ρ}
    (h : createTcpStream a saddr sport daddr dport = some s) :
    ∃ obj, a.streamObj = some obj ∧ s.addr = obj.addr ∧ s.onTimewaitList = obj.onTimewaitList ∧
      s.onRtoIdx = -1 := by
  unfold createTcpStream at h
  split at h
  · next obj _ _ hobj _ _ =>
    cases h
    exact ⟨obj, hobj, rfl, rfl, rfl⟩
  · cases h

/-- A new stream is on no timer list. -/
theorem createStream_awake {tcp : TcpManager} {log : List (Event ρ)}
    (hobj : ∀ s, a.streamObj = some s → s.onTimewaitList = false ∧ marks s.addr = none)
    (hplaced : Placed marks tcp.timerLists) (hcounts : tcp.TimerCounts) :
    Outcome (createStream tcp log a) (fun _ => True) fun r => ∀ c, r = some c →
      Awake marks c ∧ ∃ s, a.streamObj = some s ∧ c.stream.addr = s.addr := by
  have hnone : Outcome (.ok none : Except Abort (Option (Conn ρ))) (fun _ => True) fun r =>
      ∀ c, r = some c → Awake marks c ∧ ∃ s, a.streamObj = some s ∧ c.stream.addr = s.addr := by
    intro c hc
    cases hc
  unfold createStream
  refine Outcome.ite (fun _ => Outcome.ite (fun _ => ?_) fun _ => hnone) fun _ => hnone
  unfold passiveOpen
  split
  · exact hnone
  · next s hs =>
    obtain ⟨obj, hobj', haddr, hoff, hidx⟩ := createTcpStream_timers hs
    obtain ⟨hobjOff, hfree⟩ := hobj obj hobj'
    have hnew : Awake marks
        { tcp := tcp, stream := passiveInit s a.seg, log := log ++ [.entered s] } := by
      have hmark : (passiveInit s a.seg).timerMark = none :=
        timerMark_none (hoff.trans hobjOff) (show s.onRtoIdx < 0 by rw [hidx]; decide)
      have heq : Function.update marks s.addr none = marks :=
        Function.update_eq_self_iff.mpr (by rw [haddr, hfree])
      refine ⟨⟨?_, ⟨?_, ?_, fun _ => hidx⟩, hcounts⟩, hoff.trans hobjOff⟩
      · change Placed (Function.update marks s.addr (passiveInit s a.seg).timerMark) _
        rwa [hmark, heq]
      · exact hidx.ge
      · exact hidx.le.trans (by decide)
    have haddr' : ({ tcp := tcp, stream := passiveInit s a.seg, log := log ++ [.entered s] } :
        Conn ρ).stream.addr = obj.addr := haddr
    generalize ({ tcp := tcp, stream := passiveInit s a.seg, log := log ++ [.entered s] } :
      Conn ρ) = c₀ at hnew haddr'
    -- a stream without a receive buffer is closed at once
    have hbuf : ∀ buf : Option ρ, c₀.SameTimers
        (if buf.isNone then (c₀.modRcv fun rcv => { rcv with rcvbuf := buf }).close .closed .noMem
        else c₀.modRcv fun rcv => { rcv with rcvbuf := buf }) := by
      intro buf
      split
      · exact rfl
      · exact rfl
    refine Outcome.bind (parseOptions_sameTimers _ a.ts a.seg) fun c₁ h₁ c hc => ?_
    obtain rfl : c₁ = c := Option.some.inj hc
    have hboth := (hbuf _).trans h₁
    exact ⟨hnew.same hboth, obj, hobj', hboth.addr.trans haddr'⟩

end TimerHandlers

end CmtTcp
