import CmtTcp.Tcp.Close
import CmtTcp.Tcp.TimerLinks
import CmtTcp.Tcp.Timers

/-!
# One list for the timer link

Over all streams of a manager: the buckets of the retransmission store and the timewait list hold each
stream at most once, where its fields say, and the counters count them (`TimerLaw`). This holds in every
run of received segments and of the scans `check_rtm_timeout` and `check_timewait_expire`
(`timer_links_apart`), for any `CLOSE_WAIT` handler that keeps to acknowledgements and control packets.

A scan walks along a list that it changes: what is left of the list is still marked as being on it,
because an entry only touches its own stream.
-/

namespace CmtTcp

open Lib (Outcome Run Placed)

variable {ρ : Type}

/-! ### The streams of a stack -/

/-- The lists the streams say they are on. -/
def Stack.marks (S : Stack ρ) (a : Addr) : Option TimerList := (S.stream a).bind Stream.timerMark

/-- The timer lists hold the streams where their fields say. -/
structure Stack.TimersInv (S : Stack ρ) : Prop where
  addr : ∀ a s, S.stream a = some s → s.addr = a
  placed : Placed S.marks S.tcp.timerLists
  fields : ∀ a s, S.stream a = some s → s.TimerFields
  state : ∀ a s, S.stream a = some s → s.onTimewaitList → s.state = .timeWait ∨ s.state = .closed
  counts : S.tcp.TimerCounts

section Streams

variable {S : Stack ρ} {a : Addr} {s : Stream ρ} {c : Conn ρ}

theorem Stack.marks_of_stream (hs : S.stream a = some s) : S.marks a = s.timerMark := by
  unfold Stack.marks
  rw [hs]
  rfl

theorem Stack.marks_put (S : Stack ρ) (c : Conn ρ) :
    (S.put c).marks = Function.update S.marks c.stream.addr c.stream.timerMark :=
  Function.comp_update (Option.bind · Stream.timerMark) S.stream c.stream.addr (some c.stream)

/-- What a function on one stream gets. -/
theorem Stack.TimersInv.conn (h : S.TimersInv) (hs : S.stream a = some s) :
    Parked S.marks (S.conn s) := by
  have hself : Function.update S.marks s.addr s.timerMark = S.marks := by
    rw [Function.update_eq_self_iff, h.addr a s hs, marks_of_stream hs]
  refine ⟨⟨?_, h.fields a s hs, h.counts⟩, h.state a s hs⟩
  change Placed (Function.update S.marks s.addr s.timerMark) _
  rw [hself]
  exact h.placed

/-- What it has to give back. -/
theorem Stack.TimersInv.put (h : S.TimersInv) (hc : Parked S.marks c) : (S.put c).TimersInv := by
  constructor
  · intro b t ht
    rcases Stack.stream_put ht with ⟨rfl, rfl⟩ | ⟨-, ht⟩
    · rfl
    · exact h.addr b t ht
  · rw [S.marks_put]
    exact hc.placed
  · intro b t ht
    rcases Stack.stream_put ht with ⟨rfl, rfl⟩ | ⟨-, ht⟩
    · exact hc.fields
    · exact h.fields b t ht
  · intro b t ht
    rcases Stack.stream_put ht with ⟨rfl, rfl⟩ | ⟨-, ht⟩
    · exact hc.state
    · exact h.state b t ht
  · exact hc.counts

theorem timerMark_eq_rto {i : ℕ} (h : s.timerMark = some (.rto i)) :
    s.onTimewaitList = false ∧ s.onRtoIdx = i := by
  unfold Stream.timerMark at h
  split at h
  · cases h
  · next hoff =>
    split at h
    · cases h
    · next hidx =>
      have hi := TimerList.rto.inj (Option.some.inj h)
      exact ⟨by simpa using hoff, by omega⟩

theorem timerMark_eq_timewait (h : s.timerMark = some .timewait) : s.onTimewaitList = true := by
  unfold Stream.timerMark at h
  split at h
  · next hon => exact hon
  · split at h
    · cases h
    · cases h

/-- What a scan has still to meet stays marked, when only the stream in front changes. -/
theorem Stack.marks_behind {S' : Stack ρ} {l : TimerList} {next : List Addr} (hnodup : (a :: next).Nodup)
    (hothers : ∀ b, b ≠ a → S'.marks b = S.marks b) (hl : ∀ b ∈ a :: next, S.marks b = some l) :
    ∀ b ∈ next, S'.marks b = some l := by
  intro b hb
  have hne : b ≠ a := fun heq => (List.nodup_cons.mp hnodup).1 (heq ▸ hb)
  rw [hothers b hne]
  exact hl b (List.mem_cons_of_mem _ hb)

/-- A stream that is marked is there. -/
theorem Stack.stream_of_marks {l : TimerList} (h : S.marks a = some l) :
    ∃ s, S.stream a = some s ∧ s.timerMark = some l :=
  Option.bind_eq_some_iff.mp h

end Streams

/-! ### `check_rtm_timeout` -/

/-- From `S` to `S'` the scan stood still, and no stream but the one at `a` changed. -/
structure Stack.Stood (S : Stack ρ) (a : Addr) (S' : Stack ρ) : Prop where
  idx : S'.tcp.rtoStore.rtoNowIdx = S.tcp.rtoStore.rtoNowIdx
  ts : S'.tcp.rtoStore.rtoNowTs = S.tcp.rtoStore.rtoNowTs
  others : ∀ b, b ≠ a → S'.stream b = S.stream b

section Rtm

variable {S : Stack ρ} {a : Addr} {s : Stream ρ}

theorem rtoResend_sameTimers (c : Conn ρ) :
    Outcome (rtoResend c) (· = .assertZero) fun r => c.SameTimers r.1 := by
  have hnxt : c.SameTimers (c.mod fun s => { s with sndNxt := s.snd.sndUna }) := rfl
  unfold rtoResend
  generalize (c.mod fun s => { s with sndNxt := s.snd.sndUna }) = c₁ at hnxt
  have hctl : c.SameTimers (addtoControllist c₁) := hnxt.trans (addtoControllist_sameTimers c₁)
  refine Outcome.ite (fun _ => ?_) fun _ => Outcome.ite (fun _ => ?_) fun _ => hctl
  · exact Outcome.bind (addtoSendlist_sameTimers c₁) fun c' h => hnxt.trans h
  · refine Outcome.ite (fun _ => ?_) fun _ => hctl
    have hout : c.SameTimers
        (if c₁.stream.snd.onControlList then removeControllist c₁ else c₁) := by
      split
      · exact hnxt.trans (removeControllist_sameTimers c₁)
      · exact hnxt
    refine Outcome.bind (addtoSendlist_sameTimers _) fun c' h => Conn.SameTimers.trans ?_ h
    exact hout.trans rfl

theorem rtoRetry_sameTimers (c : Conn ρ) (socket : Bool) :
    Outcome (rtoRetry c socket) (· = .assertZero) fun r => c.SameTimers r.1 := by
  unfold rtoRetry
  extract_lets c₁ c₂ c₃ c₄
  -- the counts of retransmissions, the timeout and the window are send variables
  have hset : c.SameTimers c₄ :=
    ((c.modSnd_sameTimers _).trans (c₁.modSnd_sameTimers _)).trans
      ((c₂.mod_snd_sameTimers _).trans (c₃.modSnd_sameTimers _))
  clear_value c₄
  refine Outcome.ite (fun _ => Outcome.ite (fun _ => ?_) fun _ => ?_) fun _ =>
    Outcome.ite (fun _ => ?_) fun _ => rfl
  · rw [Outcome.ok_iff]
    dsimp only
    split
    · exact hset.trans rfl
    · exact hset.trans rfl
  · exact (rtoResend_sameTimers c₄).mono (fun _ he => he) fun _ h => hset.trans h
  · exact (rtoResend_sameTimers c₄).mono (fun _ he => he) fun _ h => hset.trans h

/-- `handle_rto` sends, or closes; it touches no timer. -/
theorem handleRto_sameTimers (c : Conn ρ) (socket : Bool) :
    Outcome (handleRto c socket) (· = .assertZero) fun r => c.SameTimers r.1 := by
  unfold handleRto
  refine Outcome.ite (fun _ => rtoRetry_sameTimers c socket) fun _ =>
    Outcome.ite (fun _ => (rfl : c.SameTimers _)) fun _ => ?_
  rw [Outcome.ok_iff]
  dsimp only
  split
  · exact rfl
  · exact rfl

/-- An entry of the current bucket. -/
theorem rtmEntry_inv (h : S.TimersInv) (hs : S.stream a = some s)
    (hmark : S.marks a = some (.rto S.tcp.rtoStore.rtoNowIdx.toNat)) :
    Outcome (rtmEntry S s) (· = .assertZero) fun S' => S'.TimersInv ∧ S.Stood a S' := by
  rw [Stack.marks_of_stream hs] at hmark
  obtain ⟨hoff, hidx⟩ := timerMark_eq_rto hmark
  have haddr := h.addr a s hs
  have hawake : Awake S.marks (S.conn s) := ⟨(h.conn hs).toTimersOk, hoff⟩
  unfold rtmEntry
  refine Outcome.ite (fun hpos => ?_) fun hneg => ?_
  · -- the bucket of the scan is the bucket of the stream
    have hout : Awake S.marks
        { tcp := { unlinkRto S.tcp S.tcp.rtoStore.rtoNowIdx.toNat s.addr with
            rtoListCnt := (unlinkRto S.tcp S.tcp.rtoStore.rtoNowIdx.toNat s.addr).rtoListCnt - 1 }
          stream := { s with onRtoIdx := -1 }
          log := [] } := by
      have hnat : S.tcp.rtoStore.rtoNowIdx.toNat = s.onRtoIdx.toNat := by omega
      rw [hnat]
      refine hawake.unlinked hpos rfl rfl rfl ?_ rfl rfl
      exact timerLists_updateRto _ _ _ _ rfl rfl
    refine Outcome.bind (handleRto_sameTimers _ (S.socket s.addr)) fun r hr => ?_
    refine ⟨h.put (hout.same hr).parked, ?_⟩
    have hnow := congrArg RtoHashstore.rtoNowIdx hr.rtoStore
    have hts := congrArg RtoHashstore.rtoNowTs hr.rtoStore
    refine ⟨hnow, hts, fun b hb => ?_⟩
    refine Function.update_of_ne ?_ _ _
    rw [hr.addr]
    exact haddr.symm ▸ hb
  · exact absurd (by omega) hneg

/-- The marks of the other streams stay. -/
theorem Stack.Stood.marks {S' : Stack ρ} (h : S.Stood a S') {b : Addr} (hb : b ≠ a) :
    S'.marks b = S.marks b := by
  unfold Stack.marks
  rw [h.others b hb]

theorem rtmBucket_inv (thresh : ℤ) (l : List Addr) (cnt : ℤ) (S : Stack ρ) (h : S.TimersInv)
    (hnodup : l.Nodup) (hl : ∀ a ∈ l, S.marks a = some (.rto S.tcp.rtoStore.rtoNowIdx.toNat)) :
    Outcome (rtmBucket thresh l cnt S) (· = .assertZero) fun r =>
      r.1.TimersInv ∧ r.1.tcp.rtoStore.rtoNowTs = S.tcp.rtoStore.rtoNowTs := by
  induction l generalizing cnt S with
  | nil => exact ⟨h, rfl⟩
  | cons walk next ih =>
    unfold rtmBucket
    refine Outcome.ite (fun _ => ⟨h, rfl⟩) fun _ => ?_
    have hmark := hl walk List.mem_cons_self
    obtain ⟨s, hs, -⟩ := Stack.stream_of_marks hmark
    refine Outcome.bind (Stack.deref_outcome hs) ?_
    rintro s rfl
    refine Outcome.bind (rtmEntry_inv h hs hmark) fun S' h' => ?_
    -- the rest of the bucket is still in it
    have hrest : ∀ b ∈ next, S'.marks b = some (.rto S'.tcp.rtoStore.rtoNowIdx.toNat) := by
      rw [h'.2.idx]
      exact Stack.marks_behind hnodup (fun _ => h'.2.marks) hl
    refine (ih _ S' h'.1 (List.nodup_cons.mp hnodup).2 hrest).mono (fun _ he => he) fun r hr => ?_
    exact ⟨hr.1, hr.2.trans h'.2.ts⟩

/-- An entry of the last bucket: it stays there, or moves to the bucket of its deadline. -/
theorem rearrangeEntry_inv (h : S.TimersInv) (hs : S.stream a = some s)
    (hmark : S.marks a = some (.rto rtoHash)) :
    (rearrangeEntry S s).TimersInv ∧ S.Stood a (rearrangeEntry S s) := by
  rw [Stack.marks_of_stream hs] at hmark
  obtain ⟨hoff, hidx⟩ := timerMark_eq_rto hmark
  have haddr := h.addr a s hs
  have hawake : Awake S.marks (S.conn s) := ⟨(h.conn hs).toTimersOk, hoff⟩
  unfold rearrangeEntry
  dsimp only
  split
  · generalize hoffset : ((BitVec.ofInt 32 (S.tcp.rtoStore.rtoNowTs - s.snd.tsRto).toInt +
      S.tcp.rtoStore.rtoNowIdx) % BitVec.ofNat 32 rtoHash).toNat = offset
    have hlt : offset ≤ rtoHash := by
      rw [← hoffset, BitVec.toNat_umod]
      exact (Nat.mod_lt _ (by decide)).le
    -- off the last bucket, and then onto the other one
    have hout : Awake S.marks
        { tcp := { unlinkRto S.tcp rtoHash s.addr with rtoListCnt := S.tcp.rtoListCnt - 1 }
          stream := { s with onRtoIdx := -1 }
          log := [] } := by
      have hnat : rtoHash = s.onRtoIdx.toNat := by omega
      rw [hnat]
      refine hawake.unlinked (by change 0 ≤ s.onRtoIdx; omega) rfl rfl rfl ?_ rfl rfl
      exact timerLists_updateRto _ _ _ _ rfl rfl
    have hin : Awake S.marks
        { tcp := linkRto (unlinkRto S.tcp rtoHash s.addr) offset s.addr
          stream := { s with onRtoIdx := offset }
          log := [] } := by
      refine hout.linked (show (-1 : ℤ) < 0 by decide) hlt rfl rfl rfl ?_ ?_ rfl
      · exact timerLists_updateRto _ _ _ _ rfl rfl
      · exact (Int.sub_add_cancel _ _).symm
    refine ⟨h.put hin.parked, rfl, rfl, fun b hb => ?_⟩
    exact Function.update_of_ne (haddr.symm ▸ hb) _ _
  · exact ⟨h, rfl, rfl, fun _ _ => rfl⟩

theorem rearrangeLoop_inv (l : List Addr) (S : Stack ρ) (h : S.TimersInv) (hnodup : l.Nodup)
    (hl : ∀ a ∈ l, S.marks a = some (.rto rtoHash)) :
    Outcome (rearrangeLoop l S) (· = .assertZero) fun S' =>
      S'.TimersInv ∧ S'.tcp.rtoStore.rtoNowTs = S.tcp.rtoStore.rtoNowTs := by
  induction l generalizing S with
  | nil => exact ⟨h, rfl⟩
  | cons walk next ih =>
    unfold rearrangeLoop
    have hmark := hl walk List.mem_cons_self
    obtain ⟨s, hs, -⟩ := Stack.stream_of_marks hmark
    refine Outcome.bind (Stack.deref_outcome hs) ?_
    rintro s rfl
    obtain ⟨hinv, hstood⟩ := rearrangeEntry_inv h hs hmark
    have hrest := Stack.marks_behind hnodup (fun _ => hstood.marks) hl
    refine (ih _ hinv (List.nodup_cons.mp hnodup).2 hrest).mono (fun _ he => he) fun S' hS => ?_
    exact ⟨hS.1, hS.2.trans hstood.ts⟩

/-- The streams that a list holds are marked with it. -/
theorem Stack.TimersInv.marked (h : S.TimersInv) (l : TimerList) :
    ∀ a ∈ S.tcp.timerLists l, S.marks a = some l := fun a => (h.placed.mem_iff l a).mp

theorem rtmAdvance_inv (h : S.TimersInv) :
    Outcome (rtmAdvance S) (· = .assertZero) fun S' =>
      S'.TimersInv ∧ S'.tcp.rtoStore.rtoNowTs = S.tcp.rtoStore.rtoNowTs + 1 := by
  have hmove : Stack.TimersInv { S with tcp := advanceRto S.tcp } :=
    ⟨h.addr, h.placed, h.fields, h.state, ⟨h.counts.rto, h.counts.timewait⟩⟩
  unfold rtmAdvance
  refine Outcome.ite (fun _ => ?_) fun _ => ⟨hmove, rfl⟩
  exact rearrangeLoop_inv _ _ hmove (hmove.placed.nodup (.rto rtoHash)) (hmove.marked (.rto rtoHash))

/-- The loop of `check_rtm_timeout` has turns enough: it comes to the bucket of `cur_ts` and one more. -/
theorem rtmLoop_inv (curTs : U32) (thresh : ℤ) (turns : ℕ) (cnt : ℤ) (S : Stack ρ)
    (h : S.TimersInv)
    (hturns : ((curTs - S.tcp.rtoStore.rtoNowTs).toInt < 0 ∧ 0 < turns) ∨
      (curTs - S.tcp.rtoStore.rtoNowTs).toNat + 2 ≤ turns) :
    Outcome (rtmLoop curTs thresh turns cnt S) (· = .assertZero) Stack.TimersInv := by
  induction turns generalizing cnt S with
  | zero => omega
  | succ turns ih =>
    unfold rtmLoop
    refine Outcome.ite (fun _ => h) fun hge => ?_
    have hbucket := rtmBucket_inv thresh _ cnt S h
      (h.placed.nodup (.rto S.tcp.rtoStore.rtoNowIdx.toNat)) (h.marked _)
    refine Outcome.bind hbucket fun r hr => ?_
    refine Outcome.ite (fun _ => hr.1) fun _ => ?_
    refine Outcome.bind (rtmAdvance_inv hr.1) fun S' hS => ih _ S' hS.1 ?_
    have hleft := hturns.resolve_left fun hneg => hge hneg.1
    rw [hS.2, hr.2, ← BitVec.sub_sub]
    -- one tick less is left
    by_cases hzero : curTs - S.tcp.rtoStore.rtoNowTs = 0
    · refine .inl ⟨?_, by omega⟩
      rw [hzero]
      decide
    · refine .inr ?_
      have hpred : (curTs - S.tcp.rtoStore.rtoNowTs - 1).toNat + 1 =
          (curTs - S.tcp.rtoStore.rtoNowTs).toNat := by bv_omega
      omega

/-- `check_rtm_timeout` keeps the timer lists in order, and ends, if not at an `assert(0)`. -/
theorem checkRtmTimeout_inv (h : S.TimersInv) (curTs : U32) (thresh : ℤ) :
    Outcome (checkRtmTimeout S curTs thresh) (· = .assertZero) Stack.TimersInv := by
  unfold checkRtmTimeout
  refine Outcome.ite (fun _ => h) fun _ => ?_
  exact rtmLoop_inv curTs thresh _ 0 S h (.inr le_rfl)

end Rtm

/-! ### `check_timewait_expire` -/

section Timewait

variable {S : Stack ρ} {a : Addr} {s : Stream ρ}

theorem expireTimewait_inv (h : S.TimersInv) (hs : S.stream a = some s) (hon : s.onTimewaitList) :
    (S.put (expireTimewait (S.conn s))).TimersInv := by
  have hout : Awake S.marks
      { tcp := { S.tcp with
          timewaitList := S.tcp.timewaitList.erase s.addr
          timewaitListCnt := S.tcp.timewaitListCnt - 1 }
        stream := { s with onTimewaitList := false }
        log := [] } :=
    (h.conn hs).toTimersOk.removeTimewait hon rfl rfl rfl rfl rfl rfl rfl
  have hexpire : Awake S.marks (expireTimewait (S.conn s)) := hout.same rfl
  exact h.put hexpire.parked

theorem timewaitLoop_inv (curTs : U32) (thresh : ℤ) (l : List Addr) (cnt : ℤ) (S : Stack ρ)
    (h : S.TimersInv) (hnodup : l.Nodup) (hl : ∀ a ∈ l, S.marks a = some .timewait) :
    Outcome (timewaitLoop curTs thresh l cnt S) (fun _ => False) fun r => r.1.TimersInv := by
  induction l generalizing cnt S with
  | nil => exact h
  | cons walk next ih =>
    unfold timewaitLoop
    refine Outcome.ite (fun _ => h) fun _ => ?_
    have hmark := hl walk List.mem_cons_self
    obtain ⟨s, hs, hmark'⟩ := Stack.stream_of_marks hmark
    refine Outcome.bind (Stack.deref_outcome hs) ?_
    rintro s rfl
    have hnext := (List.nodup_cons.mp hnodup).2
    have hskip := ih (cnt + 1) S h hnext fun b hb => hl b (List.mem_cons_of_mem _ hb)
    refine Outcome.ite (fun hon => ?_) fun _ => hskip
    refine Outcome.ite (fun _ => Outcome.ite (fun _ => ?_) fun _ => hskip) fun _ => h
    -- the streams behind the one that expired are still on the list
    refine ih (cnt + 1) _ (expireTimewait_inv h hs hon) hnext (Stack.marks_behind hnodup ?_ hl)
    intro b hb
    rw [Stack.marks_put]
    exact Function.update_of_ne (by rwa [← h.addr walk s hs] at hb) _ _

/-- `check_timewait_expire` keeps the timer lists in order, and nothing stops it. -/
theorem checkTimewaitExpire_inv (h : S.TimersInv) (curTs : U32) (thresh : ℤ) :
    Outcome (checkTimewaitExpire S curTs thresh) (fun _ => False) fun r => r.1.TimersInv :=
  timewaitLoop_inv curTs thresh _ 0 S h (h.placed.nodup .timewait) (h.marked .timewait)

end Timewait

/-! ### Runs -/

/-- What a run takes: a segment, for a stream or for none, and the two scans. -/
inductive TimerLabel (ρ : Type)
  | segment (stream : Option Addr) (a : Arrival ρ)
  | rtm (curTs : U32) (thresh : ℤ)
  | timewait (curTs : U32) (thresh : ℤ)

/-- What `cmt_tcp_process` sees of the stack. -/
def Stack.world (S : Stack ρ) (stream : Option (Stream ρ)) : World ρ :=
  { tcp := S.tcp, stream := stream, log := [] }

/-- The stack after `cmt_tcp_process`. -/
def Stack.after (S : Stack ρ) (w : World ρ) : Stack ρ :=
  { S with
    tcp := w.tcp
    stream := match w.stream with
      | some s => Function.update S.stream s.addr (some s)
      | none => S.stream }

/-- One step of a manager. A new stream is an object that is in no use, and whose
`on_timewait_list` is `0`; what its `socket` is plays no part. -/
inductive TimerStep (P : Parts ρ) : Stack ρ → TimerLabel ρ → Stack ρ → Prop
  | found {S : Stack ρ} {x : Addr} {s : Stream ρ} {a : Arrival ρ} {w : World ρ} {ret : ℤ}
      (hs : S.stream x = some s) (h : process P (S.world (some s)) a = .ok (w, ret)) :
      TimerStep P S (.segment (some x) a) (S.after w)
  | created {S : Stack ρ} {a : Arrival ρ} {w : World ρ} {ret : ℤ}
      (hobj : ∀ obj, a.streamObj = some obj →
        obj.onTimewaitList = false ∧ S.stream obj.addr = none)
      (h : process P (S.world none) a = .ok (w, ret)) :
      TimerStep P S (.segment none a) (S.after w)
  | rtm {S S' : Stack ρ} {curTs : U32} {thresh : ℤ} (h : checkRtmTimeout S curTs thresh = .ok S') :
      TimerStep P S (.rtm curTs thresh) S'
  | timewait {S S' : Stack ρ} {curTs : U32} {thresh cnt : ℤ}
      (h : checkTimewaitExpire S curTs thresh = .ok (S', cnt)) :
      TimerStep P S (.timewait curTs thresh) S'

/-- No stream is on a timer list. -/
structure Stack.NoTimers (S : Stack ρ) : Prop where
  addr : ∀ a s, S.stream a = some s → s.addr = a
  buckets : ∀ i, S.tcp.rtoStore.rtoList i = []
  timewait : S.tcp.timewaitList = []
  fields : ∀ a s, S.stream a = some s → s.onRtoIdx = -1 ∧ s.onTimewaitList = false
  counts : S.tcp.rtoListCnt = 0 ∧ S.tcp.timewaitListCnt = 0

/-- What the timer lists are in every state of a run. -/
structure TimerLaw (S : Stack ρ) : Prop where
  /-- a stream is linked at most once -/
  once : ∀ a, ∑ i ∈ Finset.range (rtoHash + 1), (S.tcp.rtoStore.rtoList i).count a +
    S.tcp.timewaitList.count a ≤ 1
  /-- what is linked is a stream -/
  linked : ∀ a, (a ∈ S.tcp.timewaitList ∨ ∃ i, a ∈ S.tcp.rtoStore.rtoList i) →
    (S.stream a).isSome
  /-- `on_rto_idx` is the bucket of the stream, or `-1` -/
  onRtoIdx : ∀ a s, S.stream a = some s →
    (s.onRtoIdx = -1 ∨ ∃ i : ℕ, i ≤ rtoHash ∧ s.onRtoIdx = i) ∧
      ∀ i : ℕ, a ∈ S.tcp.rtoStore.rtoList i ↔ s.onRtoIdx = i
  onTimewaitList : ∀ a s, S.stream a = some s →
    (s.onTimewaitList = true ↔ a ∈ S.tcp.timewaitList)
  rtoListCnt : S.tcp.rtoListCnt =
    ((Finset.range (rtoHash + 1)).biUnion fun i => (S.tcp.rtoStore.rtoList i).toFinset).card
  timewaitListCnt : S.tcp.timewaitListCnt = S.tcp.timewaitList.toFinset.card

section Runs

variable {P : Parts ρ} {S S' : Stack ρ} {l : TimerLabel ρ}

theorem Stack.NoTimers.inv (h : S.NoTimers) : S.TimersInv := by
  have hmarks : ∀ a, S.marks a = none := by
    intro a
    unfold Stack.marks
    cases hs : S.stream a with
    | none => rfl
    | some s =>
      obtain ⟨hidx, hoff⟩ := h.fields a s hs
      exact timerMark_none hoff (by omega)
  have hlists : ∀ l, S.tcp.timerLists l = [] := by
    intro l
    cases l with
    | rto i => exact h.buckets i
    | timewait => exact h.timewait
  refine ⟨h.addr, .empty hmarks hlists, fun a s hs => ?_, fun a s hs hon => ?_, ⟨?_, ?_⟩⟩
  · obtain ⟨hidx, -⟩ := h.fields a s hs
    exact ⟨by omega, by rw [hidx]; decide, fun _ => hidx⟩
  · rw [(h.fields a s hs).2] at hon
    cases hon
  · rw [h.counts.1]
    simp [hlists]
  · rw [h.counts.2, h.timewait]
    rfl

/-- A call of `cmt_tcp_process` on a stream of the stack. -/
theorem Stack.TimersInv.found (hP : P.CloseWaitAcks) (h : S.TimersInv) {x : Addr} {s : Stream ρ}
    {a : Arrival ρ} {w : World ρ} {ret : ℤ} (hs : S.stream x = some s)
    (hcall : process P (S.world (some s)) a = .ok (w, ret)) : (S.after w).TimersInv := by
  have hconn := h.conn hs
  rcases process_ok hcall with rfl | ⟨c, c', hfind, hproc, rfl⟩
  · exact h.put hconn
  · cases hfind
    exact h.put ((processStream_parked hP hconn).of_ok hproc)

/-- A call of `cmt_tcp_process` that finds no stream. -/
theorem Stack.TimersInv.created (hP : P.CloseWaitAcks) (h : S.TimersInv) {a : Arrival ρ}
    {w : World ρ} {ret : ℤ}
    (hobj : ∀ obj, a.streamObj = some obj → obj.onTimewaitList = false ∧ S.stream obj.addr = none)
    (hcall : process P (S.world none) a = .ok (w, ret)) : (S.after w).TimersInv := by
  rcases process_ok hcall with rfl | ⟨c, c', hfind, hproc, rfl⟩
  · exact h
  · have hobj' : ∀ obj, a.streamObj = some obj →
        obj.onTimewaitList = false ∧ S.marks obj.addr = none := by
      intro obj hobj''
      refine ⟨(hobj obj hobj'').1, ?_⟩
      unfold Stack.marks
      rw [(hobj obj hobj'').2]
      rfl
    have hnew := (createStream_awake hobj' h.placed h.counts).of_ok hfind c rfl
    exact h.put ((processStream_parked hP hnew.1.parked).of_ok hproc)

/-- Every step keeps the timer lists in order. -/
theorem Stack.TimersInv.step (hP : P.CloseWaitAcks) (h : S.TimersInv) (hstep : TimerStep P S l S') :
    S'.TimersInv := by
  cases hstep with
  | found hs hcall => exact h.found hP hs hcall
  | created hobj hcall => exact h.created hP hobj hcall
  | rtm hcall => exact (checkRtmTimeout_inv h _ _).of_ok hcall
  | timewait hcall => exact (checkTimewaitExpire_inv h _ _).of_ok hcall

/-- A stream is in the bucket that it names. -/
theorem Stack.TimersInv.mem_bucket_iff (h : S.TimersInv) {a : Addr} {s : Stream ρ}
    (hs : S.stream a = some s) (i : ℕ) : a ∈ S.tcp.rtoStore.rtoList i ↔ s.onRtoIdx = i := by
  change a ∈ S.tcp.timerLists (.rto i) ↔ _
  rw [h.placed.mem_iff, Stack.marks_of_stream hs]
  refine ⟨fun hm => (timerMark_eq_rto hm).2, fun hidx => ?_⟩
  -- a stream with an index is not on the timewait list
  have hoff : s.onTimewaitList = false := by
    rw [← Bool.not_eq_true]
    intro hon
    have := (h.fields a s hs).apart hon
    omega
  rw [timerMark_rto hoff (by omega), hidx, Int.toNat_natCast]

theorem Stack.TimersInv.mem_timewait_iff (h : S.TimersInv) {a : Addr} {s : Stream ρ}
    (hs : S.stream a = some s) : s.onTimewaitList = true ↔ a ∈ S.tcp.timewaitList := by
  change _ ↔ a ∈ S.tcp.timerLists .timewait
  rw [h.placed.mem_iff, Stack.marks_of_stream hs]
  exact ⟨timerMark_timewait, timerMark_eq_timewait⟩

/-- In all the lists together a stream is linked at most once. -/
theorem Stack.TimersInv.once (h : S.TimersInv) (a : Addr) :
    ∑ i ∈ Finset.range (rtoHash + 1), (S.tcp.rtoStore.rtoList i).count a +
      S.tcp.timewaitList.count a ≤ 1 := by
  have hrto : Set.InjOn TimerList.rto (Finset.range (rtoHash + 1) : Set ℕ) :=
    fun _ _ _ _ heq => TimerList.rto.inj heq
  have hsum := h.placed.sum_count_le (insert .timewait rtoBuckets) a
  rw [Finset.sum_insert timewait_notMem_rtoBuckets, add_comm] at hsum
  unfold rtoBuckets at hsum
  rw [Finset.sum_image hrto] at hsum
  exact hsum

theorem Stack.TimersInv.law (h : S.TimersInv) : TimerLaw S := by
  refine ⟨h.once, fun a ha => ?_, fun a s hs => ⟨?_, h.mem_bucket_iff hs⟩,
    fun a s hs => h.mem_timewait_iff hs, ?_, ?_⟩
  · have hmark : ∃ l, S.marks a = some l := by
      rcases ha with ha | ⟨i, ha⟩
      · exact ⟨_, h.marked .timewait a ha⟩
      · exact ⟨_, h.marked (.rto i) a ha⟩
    obtain ⟨l, hl⟩ := hmark
    obtain ⟨s, hs, -⟩ := Stack.stream_of_marks hl
    rw [hs]
    rfl
  · have hlow := (h.fields a s hs).low
    have hhigh := (h.fields a s hs).high
    by_cases hidx : s.onRtoIdx = -1
    · exact .inl hidx
    · exact .inr ⟨s.onRtoIdx.toNat, by omega, by omega⟩
  · have hcard := h.placed.card_biUnion rtoBuckets
    rw [h.counts.rto, ← hcard]
    unfold rtoBuckets
    rw [Finset.image_biUnion]
    rfl
  · rw [h.counts.timewait]
    exact congrArg Nat.cast (List.toFinset_card_of_nodup (h.placed.nodup .timewait)).symm

end Runs

/-- **One list for the timer link.** In every state of every run that starts with no stream on a timer
list, each stream is linked at most once in the buckets of the retransmission store and the timewait
list together, its fields say where, and the counters say how many are linked. -/
theorem timer_links_apart (P : Parts ρ) (hP : P.CloseWaitAcks) (S₀ S : Stack ρ)
    (ls : List (TimerLabel ρ)) (h₀ : S₀.NoTimers) (hrun : Run (TimerStep P) S₀ ls S) : TimerLaw S :=
  Stack.TimersInv.law
    (hrun.invariant Stack.TimersInv h₀.inv fun _ _ _ hinv hstep => hinv.step hP hstep)

theorem inOrderParts_acks : inOrderParts.CloseWaitAcks := by
  intro c a c' h
  change receiveAck c a = .ok c' at h
  unfold receiveAck at h
  split at h
  · exact .ack (.refl c) h
  · cases h
    exact .refl c

/-- A stream in `FIN_WAIT_1` with its FIN sent, on no timer list. -/
def closingStream : Stream (U32 × U32) :=
  { (default : Stream (U32 × U32)) with
    addr := 0
    state := .finWait1
    onTimewaitList := false
    onRtoIdx := -1
    sndNxt := 201
    rcvNxt := 500
    snd := { (default : SndVar) with sndUna := 200, fss := 200, isFinSent := true, rto := 500 }
    rcv := { (default : RcvVar (U32 × U32)) with rcvWnd := 8192 } }

/-- The stack of this stream. -/
def closingStack : Stack (U32 × U32) where
  tcp := { (default : TcpManager) with
    rtoStore := { rtoNowIdx := 0, rtoNowTs := 0, rtoList := fun _ => [] }
    timewaitList := []
    rtoListCnt := 0
    timewaitListCnt := 0 }
  stream := fun a => if a = 0 then some closingStream else none
  socket := fun _ => false

theorem closingStack_noTimers : closingStack.NoTimers := by
  have hstream : ∀ a s, closingStack.stream a = some s → a = 0 ∧ closingStream = s := by
    intro a s hs
    change (if a = 0 then some closingStream else none) = some s at hs
    split at hs
    · next ha => exact ⟨ha, Option.some.inj hs⟩
    · cases hs
  refine ⟨fun a s hs => ?_, fun _ => rfl, rfl, fun a s hs => ?_, rfl, rfl⟩
  · obtain ⟨rfl, rfl⟩ := hstream a s hs
    rfl
  · obtain ⟨rfl, rfl⟩ := hstream a s hs
    exact ⟨rfl, rfl⟩

/-- The stream enters `TIME_WAIT`, and a scan finds it on the timewait list. -/
theorem timer_links_apart_timeWait :
    ∃ S, Run (TimerStep inOrderParts) closingStack
        [.segment (some 0) finAckSegment, .timewait 5 10] S ∧ S.tcp.timewaitList = [0] ∧
      TimerLaw S := by
  have hrun : Run (TimerStep inOrderParts) closingStack
      [.segment (some 0) finAckSegment, .timewait 5 10] _ :=
    (Run.single (.found rfl rfl)).snoc (.timewait rfl)
  refine ⟨_, hrun, rfl, ?_⟩
  exact timer_links_apart inOrderParts inOrderParts_acks closingStack _ _ closingStack_noTimers hrun

end CmtTcp
