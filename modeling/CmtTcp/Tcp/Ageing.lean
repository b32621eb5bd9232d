import CmtTcp.Lib.AgeList
import CmtTcp.Lib.Run
import CmtTcp.Tcp.Timers

/-!
# The ageing lists

`check_timewait_expire` and `check_connection_timeout` go along a list from its front and stop at the
first stream that is too young. Nothing in them checks that those behind it are younger still: that is
because whatever puts a stream on a list, or changes its time, puts it at the back
(`AgeQueue.Sorted`). The two lists are two cases of one queue, `timewaitQueue` and `timeoutQueue`.

Times are 32-bit ticks, compared as signed differences. Over a run they go forward from `t₀`, by less
than `2 ^ 31` in all (`Later`); then a signed difference is the difference of the ages
(`toInt_sub_of_later`). `ageing_scans_complete` is what follows for the scans.
-/

namespace CmtTcp

open Lib (Outcome Run Aged)

variable {ρ : Type}

/-! ### Two queues -/

/-- A list of streams in the order of time: the mark of the streams on it, the time each was put there
last, the list and its counter. -/
structure AgeQueue (ρ : Type) where
  on : Stream ρ → Bool
  stamp : Stream ρ → U32
  list : TcpManager → List Addr
  cnt : TcpManager → ℤ

/-- `timewait_list` -/
def timewaitQueue : AgeQueue ρ where
  on := fun s => s.onTimewaitList
  stamp := fun s => s.rcv.tsTwExpire - cmtTcpTimewait
  list := fun tcp => tcp.timewaitList
  cnt := fun tcp => tcp.timewaitListCnt

/-- `timeout_list` -/
def timeoutQueue : AgeQueue ρ where
  on := fun s => s.onTimeoutList
  stamp := fun s => s.lastActiveTs
  list := fun tcp => tcp.timeoutList
  cnt := fun tcp => tcp.timeoutListCnt

/-- The streams that are marked as being on the list. -/
def AgeQueue.holds (q : AgeQueue ρ) (S : Stack ρ) (a : Addr) : Prop :=
  ∃ s, S.stream a = some s ∧ q.on s

/-- The time of a stream, counted from `t₀`. -/
def AgeQueue.age (q : AgeQueue ρ) (t₀ : U32) (S : Stack ρ) (a : Addr) : ℕ :=
  match S.stream a with
  | some s => (q.stamp s - t₀).toNat
  | none => 0

/-- The list holds the marked streams in the order of their times, and is counted. -/
structure AgeQueue.Sorted (q : AgeQueue ρ) (t₀ now : U32) (S : Stack ρ) : Prop where
  aged : Aged (q.holds S) (q.age t₀ S) (now - t₀).toNat (q.list S.tcp)
  cnt : q.cnt S.tcp = (q.list S.tcp).length

/-- Both lists are sorted. -/
structure Stack.AgeInv (t₀ now : U32) (S : Stack ρ) : Prop where
  addr : ∀ a s, S.stream a = some s → s.addr = a
  timewait : timewaitQueue.Sorted t₀ now S
  timeout : timeoutQueue.Sorted t₀ now S

/-- `t` is not before `now`, and within `2 ^ 31` ticks of `t₀`. -/
def Later (t₀ now t : U32) : Prop := (now - t₀).toNat ≤ (t - t₀).toNat ∧ (t - t₀).toNat < 2 ^ 31

section Queue

variable {q : AgeQueue ρ} {t₀ now t : U32} {S : Stack ρ} {s : Stream ρ} {c : Conn ρ}

theorem AgeQueue.holds_put (q : AgeQueue ρ) (S : Stack ρ) (c : Conn ρ) :
    q.holds (S.put c) = Function.update (q.holds S) c.stream.addr (q.on c.stream = true) := by
  have hself : (∃ s, some c.stream = some s ∧ q.on s = true) = (q.on c.stream = true) := by simp
  rw [← hself]
  exact Function.comp_update (fun o => ∃ s, o = some s ∧ q.on s = true) S.stream c.stream.addr
    (some c.stream)

theorem AgeQueue.age_put (q : AgeQueue ρ) (t₀ : U32) (S : Stack ρ) (c : Conn ρ) :
    q.age t₀ (S.put c) =
      Function.update (q.age t₀ S) c.stream.addr (q.stamp c.stream - t₀).toNat := by
  let read : Option (Stream ρ) → ℕ := fun o =>
    match o with
    | some s => (q.stamp s - t₀).toNat
    | none => 0
  exact Function.comp_update read S.stream c.stream.addr (some c.stream)

theorem AgeQueue.holds_iff {a : Addr} (hs : S.stream a = some s) : q.holds S a ↔ q.on s = true := by
  unfold AgeQueue.holds
  rw [hs]
  exact ⟨fun ⟨t, ht, hon⟩ => (Option.some.inj ht) ▸ hon, fun hon => ⟨s, rfl, hon⟩⟩

theorem AgeQueue.age_of_stream {a : Addr} (hs : S.stream a = some s) :
    q.age t₀ S a = (q.stamp s - t₀).toNat := by
  unfold AgeQueue.age
  rw [hs]

theorem AgeQueue.Sorted.later (h : q.Sorted t₀ now S) (ht : Later t₀ now t) : q.Sorted t₀ t S :=
  ⟨h.aged.later ht.1, h.cnt⟩

/-- A stream that keeps its mark and its time. -/
theorem AgeQueue.Sorted.keep (h : q.Sorted t₀ now S) (hs : S.stream c.stream.addr = some s)
    (hon : q.on c.stream = q.on s) (hstamp : q.stamp c.stream = q.stamp s)
    (hlist : q.list c.tcp = q.list S.tcp) (hcnt : q.cnt c.tcp = q.cnt S.tcp) :
    q.Sorted t₀ now (S.put c) := by
  have hholds : q.holds (S.put c) = q.holds S := by
    rw [q.holds_put, Function.update_eq_self_iff, hon]
    exact (propext (AgeQueue.holds_iff hs)).symm
  have hage : q.age t₀ (S.put c) = q.age t₀ S := by
    rw [q.age_put, Function.update_eq_self_iff, hstamp]
    exact (AgeQueue.age_of_stream hs).symm
  constructor
  · rw [hholds, hage]
    exact hlist ▸ h.aged
  · exact hcnt.trans (h.cnt.trans (congrArg (fun l => (l.length : ℤ)) hlist.symm))

/-- A stream off the list, whatever its time becomes. -/
theorem AgeQueue.Sorted.off (h : q.Sorted t₀ now S) (hs : S.stream c.stream.addr = some s)
    (hoff : q.on s = false) (hoff' : q.on c.stream = false)
    (hlist : q.list c.tcp = q.list S.tcp) (hcnt : q.cnt c.tcp = q.cnt S.tcp) :
    q.Sorted t₀ now (S.put c) := by
  have hnot : ¬q.holds S c.stream.addr := by
    rw [AgeQueue.holds_iff hs, hoff]
    exact Bool.false_ne_true
  have hholds : q.holds (S.put c) = q.holds S := by
    rw [q.holds_put, Function.update_eq_self_iff, hoff']
    exact propext ⟨fun h => absurd h Bool.false_ne_true, fun h => absurd h hnot⟩
  constructor
  · rw [hholds, q.age_put]
    exact hlist ▸ h.aged.other hnot _
  · exact hcnt.trans (h.cnt.trans (congrArg (fun l => (l.length : ℤ)) hlist.symm))

/-- A stream is put on the list. -/
theorem AgeQueue.Sorted.push (h : q.Sorted t₀ now S) (hs : S.stream c.stream.addr = some s)
    (hoff : q.on s = false) (hon : q.on c.stream = true) (hstamp : q.stamp c.stream = now)
    (hlist : q.list c.tcp = q.list S.tcp ++ [c.stream.addr])
    (hcnt : q.cnt c.tcp = q.cnt S.tcp + 1) : q.Sorted t₀ now (S.put c) := by
  have hnot : ¬q.holds S c.stream.addr := by
    rw [AgeQueue.holds_iff hs, hoff]
    exact Bool.false_ne_true
  constructor
  · rw [q.holds_put, q.age_put, hstamp, eq_true hon]
    exact hlist ▸ h.aged.push hnot
  · change q.cnt c.tcp = ((q.list c.tcp).length : ℤ)
    rw [hcnt, h.cnt, hlist, List.length_append]
    push_cast
    rfl

/-- A stream is sent to the back of the list. -/
theorem AgeQueue.Sorted.toBack (h : q.Sorted t₀ now S) (hs : S.stream c.stream.addr = some s)
    (hon : q.on s = true) (hon' : q.on c.stream = true) (hstamp : q.stamp c.stream = now)
    (hlist : q.list c.tcp = (q.list S.tcp).erase c.stream.addr ++ [c.stream.addr])
    (hcnt : q.cnt c.tcp = q.cnt S.tcp) : q.Sorted t₀ now (S.put c) := by
  have hholds : q.holds S c.stream.addr := (AgeQueue.holds_iff hs).mpr hon
  have hmem := (h.aged.mem_iff _).mpr hholds
  have hsame : q.holds (S.put c) = q.holds S := by
    rw [q.holds_put, Function.update_eq_self_iff, eq_true hon', eq_true hholds]
  constructor
  · rw [hsame, q.age_put, hstamp]
    exact hlist ▸ h.aged.toBack hholds
  · change q.cnt c.tcp = ((q.list c.tcp).length : ℤ)
    have hpos := List.length_pos_of_mem hmem
    rw [hcnt, h.cnt, hlist, List.length_append, List.length_erase_of_mem hmem, List.length_singleton]
    omega

/-- A stream is taken off the list. -/
theorem AgeQueue.Sorted.erase (h : q.Sorted t₀ now S) (hs : S.stream c.stream.addr = some s)
    (hon : q.on s = true) (hoff : q.on c.stream = false)
    (hlist : q.list c.tcp = (q.list S.tcp).erase c.stream.addr)
    (hcnt : q.cnt c.tcp = q.cnt S.tcp - 1) : q.Sorted t₀ now (S.put c) := by
  have hmem := (h.aged.mem_iff _).mpr ((AgeQueue.holds_iff hs).mpr hon)
  have hfalse : (q.on c.stream = true) = False := by
    rw [hoff]
    exact eq_false Bool.false_ne_true
  constructor
  · rw [q.holds_put, q.age_put, hfalse]
    exact hlist ▸ h.aged.erase _ _
  · change q.cnt c.tcp = ((q.list c.tcp).length : ℤ)
    have hpos := List.length_pos_of_mem hmem
    rw [hcnt, h.cnt, hlist, List.length_erase_of_mem hmem]
    omega

end Queue

/-! ### The functions of `timer.c` -/

section AgeOps

variable {t₀ now t : U32} {S : Stack ρ} {s : Stream ρ} {c : Conn ρ} {x : Addr}

theorem Stack.AgeInv.put (h : S.AgeInv t₀ now) (htw : timewaitQueue.Sorted t₀ t (S.put c))
    (hto : timeoutQueue.Sorted t₀ t (S.put c)) : (S.put c).AgeInv t₀ t := by
  refine ⟨fun a s hs => ?_, htw, hto⟩
  rcases Stack.stream_put hs with ⟨rfl, rfl⟩ | ⟨-, hs⟩
  · rfl
  · exact h.addr a s hs

theorem Stack.AgeInv.stream_addr (h : S.AgeInv t₀ now) (hs : S.stream x = some s) :
    S.stream s.addr = some s := by
  rw [h.addr x s hs, hs]

theorem Stack.AgeInv.later (h : S.AgeInv t₀ now) (ht : Later t₀ now t) : S.AgeInv t₀ t :=
  ⟨h.addr, h.timewait.later ht, h.timeout.later ht⟩

/-- What the two lists depend on. -/
def Conn.ageView (c : Conn ρ) :
    (Addr × Bool × U32 × Bool × U32) × List Addr × ℤ × List Addr × ℤ :=
  ((c.stream.addr, c.stream.onTimewaitList, c.stream.rcv.tsTwExpire, c.stream.onTimeoutList,
    c.stream.lastActiveTs), c.tcp.timewaitList, c.tcp.timewaitListCnt, c.tcp.timeoutList,
    c.tcp.timeoutListCnt)

theorem removeFromRtoList_ageView (c : Conn ρ) : (removeFromRtoList c).ageView = c.ageView := by
  unfold removeFromRtoList
  split
  · exact rfl
  · exact rfl

theorem addToTimewaitList_age (h : S.AgeInv t₀ t) (hs : S.stream x = some s) :
    (S.put (addToTimewaitList (S.conn s) t)).AgeInv t₀ t := by
  have hs' := h.stream_addr hs
  have hstamp : t + cmtTcpTimewait - cmtTcpTimewait = t := BitVec.add_sub_cancel _ _
  by_cases hon : s.onTimewaitList = true
  · -- on the list already: it goes to the end
    have heq : addToTimewaitList (S.conn s) t =
        { tcp := { S.tcp with timewaitList := S.tcp.timewaitList.erase s.addr ++ [s.addr] }
          stream := { s with rcv := { s.rcv with tsTwExpire := t + cmtTcpTimewait } }
          log := [] } := by
      unfold addToTimewaitList
      exact if_pos hon
    rw [heq]
    exact h.put (h.timewait.toBack hs' hon hon hstamp rfl rfl) (h.timeout.keep hs' rfl rfl rfl rfl)
  · -- at most the retransmission store is touched before
    have hout : ∃ c : Conn ρ, c.ageView = (((S.conn s).modRcv fun rcv =>
          { rcv with tsTwExpire := t + cmtTcpTimewait })).ageView ∧
        addToTimewaitList (S.conn s) t =
          { tcp := { c.tcp with
              timewaitList := c.tcp.timewaitList ++ [c.stream.addr]
              timewaitListCnt := c.tcp.timewaitListCnt + 1 }
            stream := { c.stream with onTimewaitList := true }
            log := c.log } := by
      refine ⟨if s.onRtoIdx ≥ 0 then removeFromRtoList ((S.conn s).modRcv fun rcv =>
          { rcv with tsTwExpire := t + cmtTcpTimewait })
        else (S.conn s).modRcv fun rcv => { rcv with tsTwExpire := t + cmtTcpTimewait }, ?_, ?_⟩
      · split
        · exact removeFromRtoList_ageView _
        · rfl
      · unfold addToTimewaitList
        exact if_neg hon
    obtain ⟨c, hview, heq⟩ := hout
    simp only [Conn.ageView, Prod.mk.injEq] at hview
    obtain ⟨⟨haddr, -, hexp, hto, hact⟩, htwl, htwc, htol, htoc⟩ := hview
    have hc : S.stream c.stream.addr = some s := by
      rw [haddr]
      exact hs'
    rw [heq]
    refine h.put (h.timewait.push hc (Bool.not_eq_true _ ▸ hon) rfl ?_ ?_ ?_)
      (h.timeout.keep hc hto hact htol htoc)
    · change c.stream.rcv.tsTwExpire - cmtTcpTimewait = t
      rw [hexp]
      exact hstamp
    · exact congrArg (· ++ [c.stream.addr]) htwl
    · exact congrArg (· + 1) htwc

theorem removeFromTimewaitList_age (h : S.AgeInv t₀ now) (hs : S.stream x = some s) :
    Outcome (removeFromTimewaitList (S.conn s)) (fun _ => True)
      fun c => (S.put c).AgeInv t₀ now := by
  have hs' := h.stream_addr hs
  unfold removeFromTimewaitList
  refine Outcome.ite (fun hon => ?_) fun _ => trivial
  exact h.put (h.timewait.erase hs' hon rfl rfl rfl) (h.timeout.keep hs' rfl rfl rfl rfl)

/-- The stream with its last activity set to `t`. -/
def Conn.active (c : Conn ρ) (t : U32) : Conn ρ := c.mod fun s => { s with lastActiveTs := t }

theorem addToTimeoutList_age (h : S.AgeInv t₀ t) (hs : S.stream x = some s) :
    Outcome (addToTimeoutList ((S.conn s).active t)) (fun _ => True)
      fun c => (S.put c).AgeInv t₀ t := by
  have hs' := h.stream_addr hs
  unfold addToTimeoutList
  refine Outcome.ite (fun _ => trivial) fun hoff => ?_
  refine h.put (h.timewait.keep hs' rfl rfl rfl rfl) ?_
  exact h.timeout.push hs' (Bool.not_eq_true _ ▸ hoff) rfl rfl rfl rfl

theorem removeFromTimeoutList_age (h : S.AgeInv t₀ now) (hs : S.stream x = some s) :
    (S.put (removeFromTimeoutList (S.conn s))).AgeInv t₀ now := by
  have hs' := h.stream_addr hs
  unfold removeFromTimeoutList
  split
  · next hon =>
    exact h.put (h.timewait.keep hs' rfl rfl rfl rfl) (h.timeout.erase hs' hon rfl rfl rfl)
  · exact h.put (h.timewait.keep hs' rfl rfl rfl rfl) (h.timeout.keep hs' rfl rfl rfl rfl)

theorem updateTimeoutList_age (h : S.AgeInv t₀ t) (hs : S.stream x = some s) :
    (S.put (updateTimeoutList ((S.conn s).active t))).AgeInv t₀ t := by
  have hs' := h.stream_addr hs
  unfold updateTimeoutList
  split
  · next hon =>
    refine h.put (h.timewait.keep hs' rfl rfl rfl rfl) ?_
    exact h.timeout.toBack hs' hon hon rfl rfl rfl
  · next hoff =>
    refine h.put (h.timewait.keep hs' rfl rfl rfl rfl) ?_
    have hoff' : s.onTimeoutList = false := Bool.not_eq_true _ ▸ hoff
    exact h.timeout.off hs' hoff' hoff' rfl rfl

end AgeOps

/-! ### The scans -/

section Scans

variable {t₀ t : U32} {S : Stack ρ} {s : Stream ρ} {x : Addr}

/-- Within half the circle, a signed difference is the difference of the ages. -/
theorem toInt_sub_of_later {u : U32} (hle : (u - t₀).toNat ≤ (t - t₀).toNat)
    (hspan : (t - t₀).toNat < 2 ^ 31) :
    (t - u).toInt = ((t - t₀).toNat : ℤ) - (u - t₀).toNat := by
  have hdiff : (t - u).toNat = (t - t₀).toNat - (u - t₀).toNat := by bv_omega
  rw [BitVec.toInt_eq_toNat_of_lt (by omega), hdiff]
  omega

/-- The same for a time that is `d` ticks ahead. -/
theorem toInt_sub_ahead {u d : U32} (hle : (u - d - t₀).toNat ≤ (t - t₀).toNat)
    (hspan : (t - t₀).toNat < 2 ^ 31) (hd : d.toNat < 2 ^ 31) :
    (t - u).toInt = ((t - t₀).toNat : ℤ) - (u - d - t₀).toNat - d.toNat := by
  rw [BitVec.toInt_eq_toNat_cond]
  by_cases hdue : (u - d - t₀).toNat + d.toNat ≤ (t - t₀).toNat
  · have hdiff : (t - u).toNat = (t - t₀).toNat - (u - d - t₀).toNat - d.toNat := by bv_omega
    rw [hdiff, if_pos (by omega)]
    omega
  · -- not yet: the difference is negative
    have hdiff : (t - u).toNat = 2 ^ 32 + (t - t₀).toNat - (u - d - t₀).toNat - d.toNat := by bv_omega
    rw [hdiff, if_neg (by omega)]
    push_cast
    omega

/-- The expiry of a stream on the timewait list. -/
theorem timewait_due (h : S.AgeInv t₀ t) (hspan : (t - t₀).toNat < 2 ^ 31)
    (hs : S.stream x = some s) (hx : x ∈ S.tcp.timewaitList) :
    (t - s.rcv.tsTwExpire).toInt =
      ((t - t₀).toNat : ℤ) - timewaitQueue.age t₀ S x - cmtTcpTimewait.toNat := by
  have hpast := h.timewait.aged.past x hx
  rw [AgeQueue.age_of_stream hs] at hpast ⊢
  exact toInt_sub_ahead hpast hspan (by decide)

/-- The idle time of a stream on the timeout list. -/
theorem timeout_due (h : S.AgeInv t₀ t) (hspan : (t - t₀).toNat < 2 ^ 31)
    (hs : S.stream x = some s) (hx : x ∈ S.tcp.timeoutList) :
    (t - s.lastActiveTs).toInt = ((t - t₀).toNat : ℤ) - timeoutQueue.age t₀ S x := by
  have hpast := h.timeout.aged.past x hx
  rw [AgeQueue.age_of_stream hs] at hpast ⊢
  exact toInt_sub_of_later hpast hspan

/-- The streams on a list are there. -/
theorem AgeQueue.Sorted.stream_of_mem {q : AgeQueue ρ} {now : U32} (h : q.Sorted t₀ now S)
    (hx : x ∈ q.list S.tcp) : ∃ s, S.stream x = some s ∧ q.on s = true :=
  (h.aged.mem_iff x).mp hx

/-- The stream at `a` is on the control list. -/
def Stack.onControl (S : Stack ρ) (a : Addr) : Bool := (S.stream a).any (·.snd.onControlList)

theorem Stack.onControl_of_stream (S : Stack ρ) (hs : S.stream x = some s) :
    S.onControl x = s.snd.onControlList := by
  unfold Stack.onControl
  rw [hs]
  rfl

/-- What `check_timewait_expire` does when it goes along the list from behind the entries in `kept`, for at
most `thresh` entries: it handles those in `handled`, and comes no further than to `rest`. -/
structure ExpireScan (t : U32) (thresh : ℤ) (kept handled rest : List Addr) (S S' : Stack ρ) : Prop where
  walked : S.tcp.timewaitList = kept ++ (handled ++ rest)
  limit : handled.length ≤ thresh.toNat
  expired : ∀ a ∈ handled, ∀ s, S.stream a = some s → 0 ≤ (t - s.rcv.tsTwExpire).toInt
  /-- of those it handled, the ones on the control list stay on the list -/
  left : S'.tcp.timewaitList = kept ++ (handled.filter S.onControl ++ rest)
  /-- a call that stopped before `thresh` entries, or at the end of the list, leaves an expired stream
  only if it is on the control list -/
  complete : rest = [] ∨ handled.length < thresh → ∀ a ∈ S'.tcp.timewaitList, ∀ s,
    S'.stream a = some s → 0 ≤ (t - s.rcv.tsTwExpire).toInt → s.snd.onControlList
  /-- a stream that has not expired is left alone -/
  sound : ∀ a s, S.stream a = some s →
    ¬(s.onTimewaitList ∧ 0 ≤ (t - s.rcv.tsTwExpire).toInt) → S'.stream a = some s

/-- What `check_connection_timeout` does when it goes along the list from the front, for at most `thresh`
entries. -/
structure IdleScan (tcpTimeout : ℤ) (t : U32) (thresh : ℤ) (handled rest : List Addr)
    (S S' : Stack ρ) : Prop where
  walked : S.tcp.timeoutList = handled ++ rest
  limit : handled.length ≤ thresh.toNat
  expired : ∀ a ∈ handled, ∀ s, S.stream a = some s → tcpTimeout * 1000 ≤ (t - s.lastActiveTs).toInt
  /-- all that it handled are off the list -/
  left : S'.tcp.timeoutList = rest
  /-- a call that stopped before `thresh` entries leaves no stream that is idle for the timeout -/
  complete : rest = [] ∨ handled.length < thresh → ∀ a ∈ S'.tcp.timeoutList, ∀ s,
    S'.stream a = some s → (t - s.lastActiveTs).toInt < tcpTimeout * 1000
  /-- a stream that is not idle for so long is left alone -/
  sound : ∀ a s, S.stream a = some s →
    ¬(s.onTimeoutList ∧ tcpTimeout * 1000 ≤ (t - s.lastActiveTs).toInt) → S'.stream a = some s

/-- An expired stream is taken off the timewait list. -/
theorem expireTimewait_age (h : S.AgeInv t₀ t) (hs : S.stream s.addr = some s)
    (hon : s.onTimewaitList = true) : (S.put (expireTimewait (S.conn s))).AgeInv t₀ t :=
  h.put (h.timewait.erase hs hon rfl rfl rfl) (h.timeout.keep hs rfl rfl rfl rfl)

theorem closeIdle_ageView (socket : Bool) : (closeIdle (S.conn s) socket).ageView =
    ((s.addr, s.onTimewaitList, s.rcv.tsTwExpire, false, s.lastActiveTs), S.tcp.timewaitList,
      S.tcp.timewaitListCnt, S.tcp.timeoutList.erase s.addr, S.tcp.timeoutListCnt - 1) := by
  unfold closeIdle
  cases socket with
  | false => rfl
  | true => rfl

/-- An idle stream is taken off the timeout list. -/
theorem closeIdle_age (h : S.AgeInv t₀ t) (hs : S.stream s.addr = some s)
    (hon : s.onTimeoutList = true) (socket : Bool) :
    (S.put (closeIdle (S.conn s) socket)).AgeInv t₀ t ∧
      (closeIdle (S.conn s) socket).stream.addr = s.addr ∧
      (closeIdle (S.conn s) socket).tcp.timeoutList = S.tcp.timeoutList.erase s.addr := by
  have hview := @closeIdle_ageView _ S s socket
  generalize closeIdle (S.conn s) socket = c at hview
  simp only [Conn.ageView, Prod.mk.injEq] at hview
  obtain ⟨⟨haddr, htw, hexp, hto, -⟩, htwl, htwc, htol, htoc⟩ := hview
  have hc : S.stream c.stream.addr = some s := by rw [haddr, hs]
  refine ⟨h.put (h.timewait.keep hc htw ?_ htwl htwc) (h.timeout.erase hc hon hto ?_ htoc), haddr, htol⟩
  · exact congrArg (· - cmtTcpTimewait) hexp
  · rw [haddr]
    exact htol

/-- What a scan leaves alone after it closed the stream at `x`, which was due, it leaves alone. -/
theorem leaves_alone {due : Stream ρ → Prop} {S' S'' : Stack ρ} (hs : S.stream x = some s) (hdue : due s)
    (hothers : ∀ a, a ≠ x → S'.stream a = S.stream a)
    (hrest : ∀ a u, S'.stream a = some u → ¬due u → S''.stream a = some u) :
    ∀ a u, S.stream a = some u → ¬due u → S''.stream a = some u := by
  intro a u hu hnot
  have hne : a ≠ x := by
    rintro rfl
    obtain rfl : u = s := Option.some.inj (hu.symm.trans hs)
    exact hnot hdue
  exact hrest a u ((hothers a hne).trans hu) hnot

/-- A stream is no older than those in front of it. -/
theorem AgeQueue.Sorted.behind {q : AgeQueue ρ} {now : U32} {kept next : List Addr}
    (h : q.Sorted t₀ now S) (hlist : q.list S.tcp = kept ++ x :: next) :
    ∀ a ∈ x :: next, q.age t₀ S x ≤ q.age t₀ S a := by
  have haged := h.aged
  rw [hlist] at haged
  exact haged.head_le

/-- Streams that are where they were are on the control list if they were. -/
theorem Stack.filter_onControl {S' : Stack ρ} {l : List Addr} (hx : x ∉ l)
    (hothers : ∀ a, a ≠ x → S'.stream a = S.stream a) : l.filter S'.onControl = l.filter S.onControl :=
  List.filter_congr fun a ha =>
    congrArg (Option.any (·.snd.onControlList)) (hothers a fun heq => hx (heq ▸ ha))

/-- What holds of the stream that is handled first, and of those handled later as they were then, held of all
of them before. -/
theorem handled_cons {P : Stream ρ → Prop} {S' : Stack ρ} {walk : Addr} {handled : List Addr}
    (hs : S.stream walk = some s) (hwalk : P s) (hothers : ∀ a ∈ handled, S'.stream a = S.stream a)
    (h : ∀ a ∈ handled, ∀ u, S'.stream a = some u → P u) :
    ∀ a ∈ walk :: handled, ∀ u, S.stream a = some u → P u := by
  intro a ha u hu
  rcases List.mem_cons.mp ha with rfl | ha
  · rwa [← Option.some.inj (hs.symm.trans hu)]
  · exact h a ha u ((hothers a ha).trans hu)

/-- The stream at `x` is closed, and the scan goes on behind it. -/
theorem ExpireScan.closed {S₁ S' : Stack ρ} {cnt thresh : ℤ} {kept next handled rest : List Addr}
    (hs : S.stream x = some s) (hon : s.onTimewaitList = true)
    (hdue : 0 ≤ (t - s.rcv.tsTwExpire).toInt) (hctl : ¬s.snd.onControlList)
    (hlist : S.tcp.timewaitList = kept ++ x :: next) (hrest : S₁.tcp.timewaitList = kept ++ next)
    (hbehind : x ∉ next) (hothers : ∀ a, a ≠ x → S₁.stream a = S.stream a) (hthresh : ¬cnt + 1 > thresh)
    (h : ExpireScan t (thresh - (cnt + 1)) kept handled rest S₁ S') :
    ExpireScan t (thresh - cnt) kept (x :: handled) rest S S' := by
  have hnext : next = handled ++ rest := List.append_cancel_left (hrest.symm.trans h.walked)
  have hgone : x ∉ handled := fun hmem => hbehind (hnext ▸ List.mem_append_left _ hmem)
  refine ⟨by rw [hlist, hnext, List.cons_append], ?_, ?_, ?_, fun hstop => ?_,
    leaves_alone hs ⟨hon, hdue⟩ hothers h.sound⟩
  · have hlimit := h.limit
    rw [List.length_cons]
    omega
  · exact handled_cons hs hdue (fun a ha => hothers a fun heq => hgone (heq ▸ ha)) h.expired
  · rw [h.left, Stack.filter_onControl hgone hothers, List.filter_cons_of_neg]
    rwa [S.onControl_of_stream hs]
  · refine h.complete (hstop.imp id fun hlt => ?_)
    rw [List.length_cons] at hlt
    push_cast at hlt
    omega

/-- The stream at `x` is kept, and the scan goes on behind it. -/
theorem ExpireScan.kept {S' : Stack ρ} {cnt thresh : ℤ} {kept handled rest : List Addr}
    (hs : S.stream x = some s) (hdue : 0 ≤ (t - s.rcv.tsTwExpire).toInt) (hctl : s.snd.onControlList)
    (hthresh : ¬cnt + 1 > thresh) (h : ExpireScan t (thresh - (cnt + 1)) (kept ++ [x]) handled rest S S') :
    ExpireScan t (thresh - cnt) kept (x :: handled) rest S S' := by
  refine ⟨?_, ?_, ?_, ?_, fun hstop => ?_, h.sound⟩
  · rw [h.walked, List.append_assoc, List.singleton_append, List.cons_append]
  · have hlimit := h.limit
    rw [List.length_cons]
    omega
  · exact handled_cons hs hdue (fun _ _ => rfl) h.expired
  · have hstays : S.onControl x = true := (S.onControl_of_stream hs).trans hctl
    rw [h.left, List.filter_cons_of_pos hstays, List.append_assoc, List.singleton_append, List.cons_append]
  · refine h.complete (hstop.imp id fun hlt => ?_)
    rw [List.length_cons] at hlt
    push_cast at hlt
    omega

/-- The stream at `x`, the first one of the list, is closed, and the scan goes on behind it. -/
theorem IdleScan.closed {S₁ S' : Stack ρ} {tcpTimeout cnt thresh : ℤ} {next handled rest : List Addr}
    (hs : S.stream x = some s) (hon : s.onTimeoutList = true)
    (hdue : tcpTimeout * 1000 ≤ (t - s.lastActiveTs).toInt) (hlist : S.tcp.timeoutList = x :: next)
    (hrest : S₁.tcp.timeoutList = next) (hbehind : x ∉ next)
    (hothers : ∀ a, a ≠ x → S₁.stream a = S.stream a) (hthresh : ¬cnt + 1 > thresh)
    (h : IdleScan tcpTimeout t (thresh - (cnt + 1)) handled rest S₁ S') :
    IdleScan tcpTimeout t (thresh - cnt) (x :: handled) rest S S' := by
  have hnext : next = handled ++ rest := hrest.symm.trans h.walked
  have hgone : x ∉ handled := fun hmem => hbehind (hnext ▸ List.mem_append_left _ hmem)
  refine ⟨by rw [hlist, hnext, List.cons_append], ?_, ?_, h.left, fun hstop => ?_,
    leaves_alone hs ⟨hon, hdue⟩ hothers h.sound⟩
  · have hlimit := h.limit
    rw [List.length_cons]
    omega
  · exact handled_cons hs hdue (fun a ha => hothers a fun heq => hgone (heq ▸ ha)) h.expired
  · refine h.complete (hstop.imp id fun hlt => ?_)
    rw [List.length_cons] at hlt
    push_cast at hlt
    omega

/-- The scan stands at `l`; the streams in `kept` had expired, but are on the control list. -/
theorem timewaitLoop_spec (hspan : (t - t₀).toNat < 2 ^ 31) (thresh : ℤ) (l kept : List Addr) (cnt : ℤ)
    (S : Stack ρ) (h : S.AgeInv t₀ t) (hlist : S.tcp.timewaitList = kept ++ l)
    (hkept : ∀ a ∈ kept, ∀ s, S.stream a = some s → s.snd.onControlList) :
    Outcome (timewaitLoop t thresh l cnt S) (fun _ => False) fun r =>
      r.1.AgeInv t₀ t ∧
        ∃ handled rest, ExpireScan t (thresh - cnt) kept handled rest S r.1 := by
  induction l generalizing kept cnt S with
  | nil =>
    refine ⟨h, [], [], hlist, Nat.zero_le _, nofun, hlist, fun _ a ha s hs _ => ?_, fun a s hs _ => hs⟩
    rw [hlist, List.append_nil] at ha
    exact hkept a ha s hs
  | cons walk next ih =>
    unfold timewaitLoop
    refine Outcome.ite (fun hthresh => ?_) fun hthresh => ?_
    · -- the limit is reached: nothing is said of what is left
      refine ⟨h, [], walk :: next, hlist, Nat.zero_le _, nofun, hlist, fun hstop => ?_, fun a s hs _ => hs⟩
      rcases hstop with hnil | hlt
      · cases hnil
      · rw [List.length_nil] at hlt
        omega
    have hwalk : walk ∈ S.tcp.timewaitList := by
      rw [hlist]
      exact List.mem_append_right _ List.mem_cons_self
    have hnodup : (kept ++ walk :: next).Nodup := hlist ▸ h.timewait.aged.nodup
    have hbehind : walk ∉ next := (List.nodup_cons.mp (List.nodup_append.mp hnodup).2.1).1
    obtain ⟨s, hs, hon⟩ := h.timewait.stream_of_mem hwalk
    have haddr := h.addr walk s hs
    refine Outcome.bind (Stack.deref_outcome hs) ?_
    rintro s rfl
    refine Outcome.ite (fun _ => ?_) fun hoff => absurd hon hoff
    refine Outcome.ite (fun hdue => Outcome.ite (fun hctl => ?_) fun hctl => ?_) fun hyoung => ?_
    · -- closed, and off the list
      have hnot : walk ∉ kept := fun hmem =>
        (List.nodup_append.mp hnodup).2.2 walk hmem walk List.mem_cons_self rfl
      have hput := expireTimewait_age h (h.stream_addr hs) hon
      have hothers : ∀ a, a ≠ walk →
          (S.put (expireTimewait (S.conn s))).stream a = S.stream a :=
        fun a ha => Stack.put_stream_of_ne (haddr.symm ▸ ha)
      have hrest : (S.put (expireTimewait (S.conn s))).tcp.timewaitList = kept ++ next := by
        change S.tcp.timewaitList.erase s.addr = _
        rw [hlist, haddr, List.erase_append_right _ hnot, List.erase_cons_head]
      refine (ih kept (cnt + 1) _ hput hrest fun a ha u hu => ?_).mono (fun _ he => he) fun r hr => ?_
      · rw [hothers a fun heq => hnot (heq ▸ ha)] at hu
        exact hkept a ha u hu
      obtain ⟨hinv, handled, rest, hscan⟩ := hr
      exact ⟨hinv, walk :: handled, rest,
        hscan.closed hs hon hdue hctl hlist hrest hbehind hothers hthresh⟩
    · -- kept, because it is on the control list
      refine (ih (kept ++ [walk]) (cnt + 1) S h (by rw [hlist, List.append_assoc]; rfl) ?_).mono
        (fun _ he => he) fun r hr => ?_
      · intro a ha u hu
        rcases List.mem_append.mp ha with ha | ha
        · exact hkept a ha u hu
        · obtain rfl := List.mem_singleton.mp ha
          obtain rfl : u = s := Option.some.inj (hu.symm.trans hs)
          exact not_not.mp hctl
      obtain ⟨hinv, handled, rest, hscan⟩ := hr
      exact ⟨hinv, walk :: handled, rest, hscan.kept hs hdue (not_not.mp hctl) hthresh⟩
    · -- too young, and so are those behind it
      refine ⟨h, [], walk :: next, hlist, Nat.zero_le _, nofun, hlist, fun _ a ha u hu hdue => ?_,
        fun a s hs _ => hs⟩
      have ha' := ha
      rw [hlist] at ha'
      rcases List.mem_append.mp ha' with hkeep | hrest
      · exact hkept a hkeep u hu
      · have hle := h.timewait.behind hlist a hrest
        rw [timewait_due h hspan hs hwalk] at hyoung
        rw [timewait_due h hspan hu ha] at hdue
        omega

/-- The scan stands at the front of the list. -/
theorem timeoutLoop_spec (hspan : (t - t₀).toNat < 2 ^ 31) (tcpTimeout thresh : ℤ) (l : List Addr)
    (cnt : ℤ) (S : Stack ρ) (h : S.AgeInv t₀ t) (hlist : S.tcp.timeoutList = l) :
    Outcome (timeoutLoop tcpTimeout t thresh l cnt S) (fun _ => False) fun r =>
      r.1.AgeInv t₀ t ∧
        ∃ handled rest, IdleScan tcpTimeout t (thresh - cnt) handled rest S r.1 := by
  induction l generalizing cnt S with
  | nil =>
    refine ⟨h, [], [], hlist, Nat.zero_le _, nofun, hlist, fun _ a ha => ?_, fun a s hs _ => hs⟩
    rw [hlist] at ha
    cases ha
  | cons walk next ih =>
    unfold timeoutLoop
    refine Outcome.ite (fun hthresh => ?_) fun hthresh => ?_
    · -- the limit is reached: nothing is said of what is left
      refine ⟨h, [], walk :: next, hlist, Nat.zero_le _, nofun, hlist, fun hstop => ?_, fun a s hs _ => hs⟩
      rcases hstop with hnil | hlt
      · cases hnil
      · rw [List.length_nil] at hlt
        omega
    have hwalk : walk ∈ S.tcp.timeoutList := by
      rw [hlist]
      exact List.mem_cons_self
    obtain ⟨s, hs, hon⟩ := h.timeout.stream_of_mem hwalk
    have haddr := h.addr walk s hs
    refine Outcome.bind (Stack.deref_outcome hs) ?_
    rintro s rfl
    refine Outcome.ite (fun hdue => ?_) fun hyoung => ?_
    · -- closed, and off the list
      have hclosed := closeIdle_age h (h.stream_addr hs) hon (S.socket walk)
      generalize closeIdle (S.conn s) (S.socket walk) = c at hclosed
      obtain ⟨hput, hc, hlist'⟩ := hclosed
      have hothers : ∀ a, a ≠ walk → (S.put c).stream a = S.stream a :=
        fun a ha => Stack.put_stream_of_ne (by rwa [hc, haddr])
      have hrest : (S.put c).tcp.timeoutList = next := by
        change c.tcp.timeoutList = next
        rw [hlist', hlist, haddr, List.erase_cons_head]
      refine (ih (cnt + 1) _ hput hrest).mono (fun _ he => he) fun r hr => ?_
      obtain ⟨hinv, handled, rest, hscan⟩ := hr
      have hnodup : (walk :: next).Nodup := hlist ▸ h.timeout.aged.nodup
      exact ⟨hinv, walk :: handled, rest, hscan.closed hs hon hdue hlist hrest
        (List.nodup_cons.mp hnodup).1 hothers hthresh⟩
    · -- not idle for long enough, and so are those behind it
      refine ⟨h, [], walk :: next, hlist, Nat.zero_le _, nofun, hlist, fun _ a ha u hu => ?_,
        fun a s hs _ => hs⟩
      have hle := @AgeQueue.Sorted.behind _ _ _ _ _ _ [] next h.timeout hlist a (hlist ▸ ha)
      rw [timeout_due h hspan hs hwalk] at hyoung
      rw [timeout_due h hspan hu ha]
      omega

end Scans

/-! ### Runs -/

/-- The calls of a run; those that look at the clock say what it shows. -/
inductive AgeLabel
  | addToTimewaitList (x : Addr) (t : U32)
  | removeFromTimewaitList (x : Addr)
  /-- `last_active_ts = t`, then `add_to_timeout_list` -/
  | addToTimeoutList (x : Addr) (t : U32)
  | removeFromTimeoutList (x : Addr)
  /-- `last_active_ts = t`, then `update_timeout_list` -/
  | updateTimeoutList (x : Addr) (t : U32)
  | checkTimewaitExpire (t : U32) (thresh : ℤ)
  | checkConnectionTimeout (t : U32) (thresh : ℤ)

/-- One call on the stream at `x`, or one scan. Beside the stack stands the last time argument. -/
inductive AgeStep (tcpTimeout : ℤ) (t₀ : U32) :
    Stack ρ × U32 → AgeLabel → Stack ρ × U32 → Prop
  | addToTimewaitList {S : Stack ρ} {now t : U32} {x : Addr} {s : Stream ρ}
      (hs : S.stream x = some s) (ht : Later t₀ now t) :
      AgeStep tcpTimeout t₀ (S, now) (.addToTimewaitList x t)
        (S.put (addToTimewaitList (S.conn s) t), t)
  | removeFromTimewaitList {S : Stack ρ} {now : U32} {x : Addr} {s : Stream ρ} {c : Conn ρ}
      (hs : S.stream x = some s) (h : removeFromTimewaitList (S.conn s) = .ok c) :
      AgeStep tcpTimeout t₀ (S, now) (.removeFromTimewaitList x) (S.put c, now)
  | addToTimeoutList {S : Stack ρ} {now t : U32} {x : Addr} {s : Stream ρ} {c : Conn ρ}
      (hs : S.stream x = some s) (ht : Later t₀ now t)
      (h : addToTimeoutList ((S.conn s).active t) = .ok c) :
      AgeStep tcpTimeout t₀ (S, now) (.addToTimeoutList x t) (S.put c, t)
  | removeFromTimeoutList {S : Stack ρ} {now : U32} {x : Addr} {s : Stream ρ}
      (hs : S.stream x = some s) :
      AgeStep tcpTimeout t₀ (S, now) (.removeFromTimeoutList x)
        (S.put (removeFromTimeoutList (S.conn s)), now)
  | updateTimeoutList {S : Stack ρ} {now t : U32} {x : Addr} {s : Stream ρ}
      (hs : S.stream x = some s) (ht : Later t₀ now t) :
      AgeStep tcpTimeout t₀ (S, now) (.updateTimeoutList x t)
        (S.put (updateTimeoutList ((S.conn s).active t)), t)
  | checkTimewaitExpire {S S' : Stack ρ} {now t : U32} {thresh cnt : ℤ} (ht : Later t₀ now t)
      (h : checkTimewaitExpire S t thresh = .ok (S', cnt)) :
      AgeStep tcpTimeout t₀ (S, now) (.checkTimewaitExpire t thresh) (S', t)
  | checkConnectionTimeout {S S' : Stack ρ} {now t : U32} {thresh cnt : ℤ} (ht : Later t₀ now t)
      (h : checkConnectionTimeout tcpTimeout S t thresh = .ok (S', cnt)) :
      AgeStep tcpTimeout t₀ (S, now) (.checkConnectionTimeout t thresh) (S', t)

/-- No stream is on an ageing list. -/
structure Stack.NoneAges (S : Stack ρ) : Prop where
  addr : ∀ a s, S.stream a = some s → s.addr = a
  lists : S.tcp.timewaitList = [] ∧ S.tcp.timeoutList = []
  marks : ∀ a s, S.stream a = some s → s.onTimewaitList = false ∧ s.onTimeoutList = false
  counts : S.tcp.timewaitListCnt = 0 ∧ S.tcp.timeoutListCnt = 0

/-- What the ageing lists and the scans are in every state of a run. -/
structure AgeLaw (tcpTimeout : ℤ) (t₀ now : U32) (S : Stack ρ) : Prop where
  timewaitSorted : S.tcp.timewaitList.Pairwise fun a b => ∀ s s', S.stream a = some s →
    S.stream b = some s' → 0 ≤ (s'.rcv.tsTwExpire - s.rcv.tsTwExpire).toInt
  timeoutSorted : S.tcp.timeoutList.Pairwise fun a b => ∀ s s', S.stream a = some s →
    S.stream b = some s' → 0 ≤ (s'.lastActiveTs - s.lastActiveTs).toInt
  timewaitCnt : S.tcp.timewaitListCnt = S.tcp.timewaitList.length
  timeoutCnt : S.tcp.timeoutListCnt = S.tcp.timeoutList.length
  /-- a call of `check_timewait_expire` returns, and misses nothing -/
  expire : ∀ t thresh, Later t₀ now t → ∃ S' cnt handled rest,
    checkTimewaitExpire S t thresh = .ok (S', cnt) ∧ ExpireScan t thresh [] handled rest S S'
  /-- a call of `check_connection_timeout` returns, and misses nothing -/
  idle : ∀ t thresh, Later t₀ now t → ∃ S' cnt handled rest,
    checkConnectionTimeout tcpTimeout S t thresh = .ok (S', cnt) ∧
      IdleScan tcpTimeout t thresh handled rest S S'

section AgeRuns

variable {tcpTimeout : ℤ} {t₀ now t : U32} {S : Stack ρ} {w w' : Stack ρ × U32} {l : AgeLabel}

/-- `check_timewait_expire` in a state of a run. -/
theorem checkTimewaitExpire_spec (h : S.AgeInv t₀ now) (ht : Later t₀ now t) (thresh : ℤ) :
    Outcome (checkTimewaitExpire S t thresh) (fun _ => False) fun r =>
      r.1.AgeInv t₀ t ∧ ∃ handled rest, ExpireScan t thresh [] handled rest S r.1 := by
  have hloop := timewaitLoop_spec ht.2 thresh _ [] 0 S (h.later ht) rfl fun a ha => by cases ha
  rwa [sub_zero] at hloop

/-- `check_connection_timeout` in a state of a run. -/
theorem checkConnectionTimeout_spec (h : S.AgeInv t₀ now) (ht : Later t₀ now t) (thresh : ℤ) :
    Outcome (checkConnectionTimeout tcpTimeout S t thresh) (fun _ => False) fun r =>
      r.1.AgeInv t₀ t ∧ ∃ handled rest, IdleScan tcpTimeout t thresh handled rest S r.1 := by
  have hloop := timeoutLoop_spec ht.2 tcpTimeout thresh _ 0 S (h.later ht) rfl
  rwa [sub_zero] at hloop

/-- Every call keeps the lists sorted, and the span of time within half the circle. -/
theorem AgeStep.keeps (h : w.1.AgeInv t₀ w.2 ∧ (w.2 - t₀).toNat < 2 ^ 31)
    (hstep : AgeStep tcpTimeout t₀ w l w') : w'.1.AgeInv t₀ w'.2 ∧ (w'.2 - t₀).toNat < 2 ^ 31 := by
  obtain ⟨hinv, hspan⟩ := h
  cases hstep with
  | addToTimewaitList hs ht => exact ⟨addToTimewaitList_age (hinv.later ht) hs, ht.2⟩
  | removeFromTimewaitList hs hcall =>
    exact ⟨(removeFromTimewaitList_age hinv hs).of_ok hcall, hspan⟩
  | addToTimeoutList hs ht hcall =>
    exact ⟨(addToTimeoutList_age (hinv.later ht) hs).of_ok hcall, ht.2⟩
  | removeFromTimeoutList hs => exact ⟨removeFromTimeoutList_age hinv hs, hspan⟩
  | updateTimeoutList hs ht => exact ⟨updateTimeoutList_age (hinv.later ht) hs, ht.2⟩
  | checkTimewaitExpire ht hcall =>
    exact ⟨((checkTimewaitExpire_spec hinv ht _).of_ok hcall).1, ht.2⟩
  | checkConnectionTimeout ht hcall =>
    exact ⟨((checkConnectionTimeout_spec hinv ht _).of_ok hcall).1, ht.2⟩

/-- An empty list is sorted. -/
theorem AgeQueue.sorted_of_empty (q : AgeQueue ρ) (hlist : q.list S.tcp = [])
    (hmarks : ∀ a s, S.stream a = some s → q.on s = false) (hcnt : q.cnt S.tcp = 0) :
    q.Sorted t₀ now S := by
  refine ⟨⟨?_, fun a => ?_, ?_, fun a ha => ?_⟩, ?_⟩
  · rw [hlist]
    exact List.nodup_nil
  · rw [hlist]
    refine iff_of_false List.not_mem_nil ?_
    rintro ⟨s, hs, hon⟩
    rw [hmarks a s hs] at hon
    cases hon
  · rw [hlist]
    exact List.Pairwise.nil
  · rw [hlist] at ha
    cases ha
  · rw [hcnt, hlist]
    rfl

theorem Stack.NoneAges.inv (h : S.NoneAges) : S.AgeInv t₀ now where
  addr := h.addr
  timewait := timewaitQueue.sorted_of_empty h.lists.1 (fun a s hs => (h.marks a s hs).1) h.counts.1
  timeout := timeoutQueue.sorted_of_empty h.lists.2 (fun a s hs => (h.marks a s hs).2) h.counts.2

/-- In the order of their ages, two streams are in the order of their signed times. -/
theorem AgeQueue.Sorted.pairwise {q : AgeQueue ρ} (h : q.Sorted t₀ now S)
    (hspan : (now - t₀).toNat < 2 ^ 31) :
    (q.list S.tcp).Pairwise fun a b => ∀ s s', S.stream a = some s → S.stream b = some s' →
      0 ≤ (q.stamp s' - q.stamp s).toInt := by
  refine h.aged.sorted.imp_of_mem fun {a b} ha hb hle s s' hs hs' => ?_
  have hpast := h.aged.past b hb
  rw [AgeQueue.age_of_stream hs, AgeQueue.age_of_stream hs'] at hle
  rw [AgeQueue.age_of_stream hs'] at hpast
  rw [toInt_sub_of_later hle (by omega)]
  omega

theorem Stack.AgeInv.law (h : S.AgeInv t₀ now) (hspan : (now - t₀).toNat < 2 ^ 31) :
    AgeLaw tcpTimeout t₀ now S where
  timewaitSorted := by
    refine (h.timewait.pairwise hspan).imp fun {a b} hab s s' hs hs' => ?_
    -- the wait is the same for all, so the expiries are in the order of the entries
    have heq : s'.rcv.tsTwExpire - s.rcv.tsTwExpire =
        (s'.rcv.tsTwExpire - cmtTcpTimewait) - (s.rcv.tsTwExpire - cmtTcpTimewait) := by bv_omega
    rw [heq]
    exact hab s s' hs hs'
  timeoutSorted := h.timeout.pairwise hspan
  timewaitCnt := h.timewait.cnt
  timeoutCnt := h.timeout.cnt
  expire := by
    intro t thresh ht
    have hscan := checkTimewaitExpire_spec h ht thresh
    cases hr : checkTimewaitExpire S t thresh with
    | error e => exact (hscan.of_error hr).elim
    | ok r =>
      obtain ⟨-, handled, rest, hdone⟩ := hscan.of_ok hr
      exact ⟨r.1, r.2, handled, rest, rfl, hdone⟩
  idle := by
    intro t thresh ht
    have hscan := @checkConnectionTimeout_spec _ tcpTimeout _ _ _ _ h ht thresh
    cases hr : checkConnectionTimeout tcpTimeout S t thresh with
    | error e => exact (hscan.of_error hr).elim
    | ok r =>
      obtain ⟨-, handled, rest, hdone⟩ := hscan.of_ok hr
      exact ⟨r.1, r.2, handled, rest, rfl, hdone⟩

end AgeRuns

/-- **The ageing scans miss nothing.** In every state of every run of the list functions and the scans that
starts with empty lists, and whose time arguments go forward by less than `2 ^ 31` ticks from `t₀`: both
lists are sorted and counted, and a scan goes along its list from the front for at most `thresh` entries;
where it stops before that, it leaves no expired stream, but on the control list. It touches no other. -/
theorem ageing_scans_complete (tcpTimeout : ℤ) (t₀ now : U32) (S₀ S : Stack ρ) (ls : List AgeLabel)
    (h₀ : S₀.NoneAges) (hrun : Run (AgeStep tcpTimeout t₀) (S₀, t₀) ls (S, now)) :
    AgeLaw tcpTimeout t₀ now S := by
  have hstart : (t₀ - t₀).toNat < 2 ^ 31 := by
    rw [BitVec.sub_self]
    decide
  obtain ⟨hinv, hspan⟩ := hrun.invariant
    (fun w : Stack ρ × U32 => w.1.AgeInv t₀ w.2 ∧ (w.2 - t₀).toNat < 2 ^ 31)
    ⟨h₀.inv, hstart⟩ fun _ _ _ hw hstep => hstep.keeps hw
  exact hinv.law hspan

/-- Two streams, on no ageing list; the one at 0 is on the control list. -/
def twoStreams : Stack Unit where
  tcp := { (default : TcpManager) with
    timewaitList := [], timeoutList := [], timewaitListCnt := 0, timeoutListCnt := 0 }
  stream := fun a =>
    if a < 2 then
      some { (default : Stream Unit) with
        addr := a, onTimewaitList := false, onTimeoutList := false
        snd := { (default : SndVar) with onControlList := a == 0 } }
    else none
  socket := fun _ => false

theorem twoStreams_noneAges : twoStreams.NoneAges := by
  have hstream : ∀ a s, twoStreams.stream a = some s →
      { (default : Stream Unit) with
        addr := a, onTimewaitList := false, onTimeoutList := false
        snd := { (default : SndVar) with onControlList := a == 0 } } = s := by
    intro a s hs
    change (if a < 2 then _ else none) = some s at hs
    split at hs
    · exact Option.some.inj hs
    · cases hs
  refine ⟨fun a s hs => ?_, ⟨rfl, rfl⟩, fun a s hs => ?_, rfl, rfl⟩
  · rw [← hstream a s hs]
  · rw [← hstream a s hs]
    exact ⟨rfl, rfl⟩

/-- Of two streams whose wait is over, the one on the control list stays; and so does the one that was
active last when the other one has been idle for too long. -/
theorem ageing_scans_complete_two :
    ∃ S, Run (AgeStep 2 5) (twoStreams, 5)
        [.addToTimeoutList 0 5, .addToTimeoutList 1 6, .updateTimeoutList 0 8,
          .addToTimewaitList 0 10, .addToTimewaitList 1 1000, .checkTimewaitExpire 1500 10,
          .checkConnectionTimeout 2007 10] (S, 2007) ∧
      S.tcp.timewaitList = [0] ∧ S.tcp.timeoutList = [0] ∧ AgeLaw 2 5 2007 S := by
  have hrun : Run (AgeStep 2 5) (twoStreams, 5)
      [.addToTimeoutList 0 5, .addToTimeoutList 1 6, .updateTimeoutList 0 8,
        .addToTimewaitList 0 10, .addToTimewaitList 1 1000, .checkTimewaitExpire 1500 10,
        .checkConnectionTimeout 2007 10] (_, 2007) :=
    ((((((Run.single (.addToTimeoutList rfl ⟨by decide, by decide⟩ rfl)).snoc
      (.addToTimeoutList rfl ⟨by decide, by decide⟩ rfl)).snoc
      (.updateTimeoutList rfl ⟨by decide, by decide⟩)).snoc
      (.addToTimewaitList rfl ⟨by decide, by decide⟩)).snoc
      (.addToTimewaitList rfl ⟨by decide, by decide⟩)).snoc
      (.checkTimewaitExpire ⟨by decide, by decide⟩ rfl)).snoc
      (.checkConnectionTimeout ⟨by decide, by decide⟩ rfl)
  refine ⟨_, hrun, rfl, rfl, ?_⟩
  exact ageing_scans_complete 2 5 2007 twoStreams _ _ twoStreams_noneAges hrun

end CmtTcp
