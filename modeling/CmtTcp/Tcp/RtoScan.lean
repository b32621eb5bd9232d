import CmtTcp.Lib.Traced
import CmtTcp.Tcp.RtoOverflow
import CmtTcp.Tcp.TimerScans

/-!
# The scan of the retransmission store

`check_rtm_timeout` once more, with what `Tcp/Timers.lean` takes for granted or leaves out: the loops follow
the links of the buckets while they take entries off them, `handle_rto` calls `destroy_tcp_stream`, which is
not in the repository, and the trace says for which streams `handle_rto` was called (`scanRtmTimeout`).
`scanRtmTimeout_result` is the connection between the two.

* `scanRtmTimeout_bounded`: the scan ends, does the work it is allowed to do and no more, and advances the store at
  most to the tick behind `cur_ts`;
* `scanRtmTimeout_iff`: when it fires what is due. After a bucket with fewer streams than `thresh` the
  function stops, and after one with as many or more it goes on, so it never comes to the buckets behind the
  first one while it may still fire.
-/

namespace CmtTcp

open Lib (Outcome Placed Traced walkLinks walkList)

variable {ρ : Type}

/-! ### The scan -/

/-- The event of a call of `destroy_tcp_stream`. -/
def Event.isDestroyed : Event ρ → Bool
  | .destroyed => true
  | _ => false

/-- The stack after `handle_rto` on one stream, where `destroy` is what `destroy_tcp_stream` does. -/
def Stack.afterRto (destroy : Stack ρ → Addr → Stack ρ) (S : Stack ρ) (c : Conn ρ) : Stack ρ :=
  if c.log.any Event.isDestroyed then destroy (S.put c) c.stream.addr else S.put c

/-- The object that a link points to. It lies where the link points. -/
def Stack.follow (S : Stack ρ) (a : Addr) : Except Abort (Stream ρ) :=
  match S.stream a with
  | some s => .ok { s with addr := a }
  | none => .error .nullDeref

/-- What `handle_rto` gets of a stream in the current bucket. -/
def Stack.unlinked (S : Stack ρ) (s : Stream ρ) : Conn ρ :=
  let tcp := unlinkRto S.tcp S.tcp.rtoStore.rtoNowIdx.toNat s.addr
  { tcp := { tcp with rtoListCnt := tcp.rtoListCnt - 1 }
    stream := { s with onRtoIdx := -1 }
    log := [] }

section Scan

variable (destroy : Stack ρ → Addr → Stack ρ)

/-- An entry of the current bucket; a call of `handle_rto` leaves the stream in the trace. -/
def rtmFire (S : Stack ρ) (s : Stream ρ) : Traced Addr Abort (Stack ρ) :=
  if s.onRtoIdx ≥ 0 then
    { trace := [s.addr]
      result := do
        let r ← handleRto (S.unlinked s) (S.socket s.addr)
        .ok (S.afterRto destroy r.1) }
  else pure S

/-- One iteration along the current bucket: the stack and `cnt`, and whether to stop. -/
def rtmVisit (thresh : ℤ) (walk : Addr) (p : Stack ρ × ℤ) :
    Traced Addr Abort ((Stack ρ × ℤ) × Bool) :=
  let cnt := p.2 + 1
  if cnt > thresh then pure ((p.1, cnt), true)
  else do
    let s ← Traced.lift (p.1.follow walk)
    let S ← rtmFire destroy p.1 s
    pure ((S, cnt), false)

/-- The walk of `check_rtm_timeout` along the current bucket. -/
def scanBucket (thresh : ℤ) (p : Stack ρ × ℤ) : Traced Addr Abort (Stack ρ × ℤ) :=
  let idx := p.1.tcp.rtoStore.rtoNowIdx.toNat
  let rtoList := p.1.tcp.rtoStore.rtoList idx
  walkLinks (fun p => p.1.tcp.rtoStore.rtoList idx) (rtmVisit destroy thresh) .endless
    rtoList.length rtoList.head? p

/-- One iteration along the last bucket. -/
def rearrangeVisit (walk : Addr) (S : Stack ρ) : Traced Addr Abort (Stack ρ × Bool) := do
  let s ← Traced.lift (S.follow walk)
  pure (rearrangeEntry S s, false)

/-- `rearrange_rto_store` -/
def scanRearrange (S : Stack ρ) : Traced Addr Abort (Stack ρ) :=
  let rtoList := S.tcp.rtoStore.rtoList rtoHash
  walkLinks (fun S => S.tcp.rtoStore.rtoList rtoHash) rearrangeVisit .endless
    rtoList.length rtoList.head? S

/-- The move to the next bucket. -/
def scanAdvance (S : Stack ρ) : Traced Addr Abort (Stack ρ) :=
  let S := { S with tcp := advanceRto S.tcp }
  if S.tcp.rtoStore.rtoNowIdx % 1000 = 0 then scanRearrange S else pure S

/-- The `while` loop of `check_rtm_timeout`, for at most so many turns. -/
def scanLoop (curTs : U32) (thresh : ℤ) : ℕ → Stack ρ × ℤ → Traced Addr Abort (Stack ρ)
  | 0, _ => Traced.lift (.error .endless)
  | turns + 1, p =>
    if (curTs - p.1.tcp.rtoStore.rtoNowTs).toInt < 0 then pure p.1
    else do
      let r ← scanBucket destroy thresh p
      if r.2 < thresh then pure r.1
      else do
        let S ← scanAdvance r.1
        scanLoop curTs thresh turns (S, r.2)

/-- `check_rtm_timeout` -/
def scanRtmTimeout (S : Stack ρ) (curTs : U32) (thresh : ℤ) : Traced Addr Abort (Stack ρ) :=
  if S.tcp.rtoListCnt = 0 then pure S
  else scanLoop destroy curTs thresh ((curTs - S.tcp.rtoStore.rtoNowTs).toNat + 2) (S, 0)

end Scan

/-! ### Links -/

/-- The buckets are finite: each ends, and a stream, which has one link, is at most once on one of
them. -/
def RtoHashstore.Finite (store : RtoHashstore) : Prop := ∃ mark, Placed mark store.rtoList

/-- `destroy_tcp_stream` leaves the store alone. -/
def LeavesStore (destroy : Stack ρ → Addr → Stack ρ) : Prop :=
  ∀ S a, (destroy S a).tcp.rtoStore = S.tcp.rtoStore

section Links

variable {destroy : Stack ρ → Addr → Stack ρ} {S : Stack ρ} {s : Stream ρ} {a : Addr} {i : ℕ}
  {tcp : TcpManager}

theorem Stack.follow_outcome (S : Stack ρ) (a : Addr) :
    Outcome (S.follow a) (· = .nullDeref) fun s => s.addr = a := by
  unfold Stack.follow
  split
  · exact rfl
  · exact rfl

/-- Taking an entry off a bucket leaves the buckets finite. -/
theorem RtoHashstore.Finite.unlink (h : tcp.rtoStore.Finite) (i : ℕ) (a : Addr) :
    (unlinkRto tcp i a).rtoStore.Finite := by
  obtain ⟨mark, hplaced⟩ := h
  by_cases ha : a ∈ tcp.rtoStore.rtoList i
  · exact ⟨_, hplaced.remove ((hplaced.mem_iff i a).mp ha)⟩
  · refine ⟨mark, ?_⟩
    change Placed mark (Function.update _ i ((tcp.rtoStore.rtoList i).erase a))
    rwa [List.erase_of_not_mem ha, Function.update_eq_self]

/-- So does moving one. -/
theorem RtoHashstore.Finite.move (h : tcp.rtoStore.Finite) (ha : a ∈ tcp.rtoStore.rtoList i) (j : ℕ) :
    (linkRto (unlinkRto tcp i a) j a).rtoStore.Finite := by
  obtain ⟨mark, hplaced⟩ := h
  exact ⟨_, (hplaced.remove ((hplaced.mem_iff i a).mp ha)).append (Function.update_self _ _ _) j⟩

/-- The last bucket, after an entry of it moved to the wheel. -/
theorem rtoList_move {j : ℕ} (hj : j < rtoHash) :
    (linkRto (unlinkRto tcp rtoHash a) j a).rtoStore.rtoList rtoHash =
      (tcp.rtoStore.rtoList rtoHash).erase a :=
  (Function.update_of_ne hj.ne' _ _).trans (Function.update_self rtoHash _ tcp.rtoStore.rtoList)

/-- `handle_rto` touches no timer, and `destroy_tcp_stream` leaves the store alone. -/
theorem afterRto_store (hdestroy : LeavesStore destroy) {c : Conn ρ} {r : Conn ρ × ℤ}
    (h : c.SameTimers r.1) : (S.afterRto destroy r.1).tcp.rtoStore = c.tcp.rtoStore := by
  unfold Stack.afterRto
  split
  · exact (hdestroy _ _).trans h.rtoStore
  · exact h.rtoStore

/-- What `check_rtm_timeout` does to the store at an entry of the current bucket: it takes off the entry, or
nothing. -/
theorem rtmFire_store (hdestroy : LeavesStore destroy) (S : Stack ρ) (s : Stream ρ) :
    (rtmFire destroy S s).Meets (fun l e => l.length ≤ 1 ∧ e ≠ .endless) fun l S' =>
      l.length ≤ 1 ∧
        (S'.tcp.rtoStore = S.tcp.rtoStore ∨
          S'.tcp.rtoStore = (unlinkRto S.tcp S.tcp.rtoStore.rtoNowIdx.toNat s.addr).rtoStore) := by
  unfold rtmFire
  split
  · refine Outcome.bind ((handleRto_sameTimers (S.unlinked s) _).mono (fun e he => ?_)
      fun _ h => h) fun r hr => ?_
    · rw [he]
      exact ⟨le_rfl, by decide⟩
    · exact ⟨le_rfl, .inr (afterRto_store hdestroy hr)⟩
  · exact ⟨Nat.zero_le 1, .inl rfl⟩

/-- An iteration along the current bucket that goes on. -/
theorem rtmVisit_store (hdestroy : LeavesStore destroy) (thresh : ℤ) (walk : Addr) (p : Stack ρ × ℤ) :
    (rtmVisit destroy thresh walk p).Meets
      (fun l e => e ≠ .endless ∧ p.2 + 1 ≤ thresh ∧ l.length ≤ 1)
      fun l r => r.1.2 = p.2 + 1 ∧ (r.2 = true → l = [] ∧ r.1.1 = p.1) ∧
        (r.2 = false → p.2 + 1 ≤ thresh ∧ l.length ≤ 1 ∧
          (r.1.1.tcp.rtoStore = p.1.tcp.rtoStore ∨
            r.1.1.tcp.rtoStore =
              (unlinkRto p.1.tcp p.1.tcp.rtoStore.rtoNowIdx.toNat walk).rtoStore)) := by
  unfold rtmVisit
  dsimp only
  by_cases hstop : p.2 + 1 > thresh
  · rw [if_pos hstop]
    exact ⟨rfl, fun _ => ⟨rfl, rfl⟩, fun h => by cases h⟩
  · rw [if_neg hstop]
    refine Traced.Meets.bind_lift ((p.1.follow_outcome walk).mono (fun e he => ?_) fun s hs => ?_)
    · rw [he]
      exact ⟨by decide, by omega, Nat.zero_le 1⟩
    · refine Traced.Meets.map ((rtmFire_store hdestroy p.1 s).mono (fun l e he => ?_) fun l S' hS => ?_)
      · exact ⟨he.2, by omega, he.1⟩
      · rw [← hs]
        exact ⟨rfl, fun h => (by cases h), fun _ => ⟨by omega, hS.1, hS.2⟩⟩

/-- The walk along the current bucket goes along the bucket as it was at its start. -/
theorem scanBucket_eq (hdestroy : LeavesStore destroy) (thresh : ℤ) {p : Stack ρ × ℤ}
    (hfin : p.1.tcp.rtoStore.Finite) :
    scanBucket destroy thresh p =
      walkList (rtmVisit destroy thresh)
        (p.1.tcp.rtoStore.rtoList p.1.tcp.rtoStore.rtoNowIdx.toNat) p := by
  obtain ⟨mark, hplaced⟩ := hfin
  refine Lib.walkLinks_eq
    (I := fun q : Stack ρ × ℤ => q.1.tcp.rtoStore.rtoNowIdx = p.1.tcp.rtoStore.rtoNowIdx)
    (fun a q q' hq hvisit => ?_) rfl (List.nil_append _).symm (hplaced.nodup _)
  obtain ⟨-, -, hstore⟩ := (rtmVisit_store hdestroy thresh a q).of_ok hvisit
  rcases (hstore rfl).2.2 with hstore | hstore
  · dsimp only at hstore ⊢
    rw [hstore]
    exact ⟨hq, .inl rfl⟩
  · dsimp only at hstore ⊢
    rw [hstore, hq]
    exact ⟨hq, .inr (Function.update_self _ _ _)⟩

/-- An iteration along the last bucket: the entry stays, or moves to a bucket of the wheel. -/
theorem rearrangeVisit_store (walk : Addr) (S : Stack ρ) :
    (rearrangeVisit walk S).Meets (fun l e => l = [] ∧ e ≠ .endless) fun l r =>
      l = [] ∧ r.2 = false ∧ (r.1.tcp.rtoStore = S.tcp.rtoStore ∨
        ∃ j, j < rtoHash ∧
          r.1.tcp.rtoStore = (linkRto (unlinkRto S.tcp rtoHash walk) j walk).rtoStore) := by
  unfold rearrangeVisit
  refine Traced.Meets.bind_lift ((S.follow_outcome walk).mono (fun e he => ?_) fun s hs => ?_)
  · rw [he]
    exact ⟨rfl, by decide⟩
  · refine ⟨rfl, rfl, ?_⟩
    by_cases hmove : (S.tcp.rtoStore.rtoNowTs - s.snd.tsRto).toInt < rtoHash
    · rw [rearrangeEntry_moves hmove, hs]
      exact .inr ⟨_, rearrangedIdx_lt hmove, rfl⟩
    · exact .inl (congrArg (fun S : Stack ρ => S.tcp.rtoStore) (if_neg hmove : rearrangeEntry S s = S))

theorem scanRearrange_eq (hfin : S.tcp.rtoStore.Finite) :
    scanRearrange S = walkList rearrangeVisit (S.tcp.rtoStore.rtoList rtoHash) S := by
  obtain ⟨mark, hplaced⟩ := hfin
  refine Lib.walkLinks_eq (I := fun _ : Stack ρ => True) (fun a T T' _ hvisit => ⟨trivial, ?_⟩) trivial
    (List.nil_append _).symm (hplaced.nodup _)
  obtain ⟨-, -, hstore | ⟨j, hj, hstore⟩⟩ := (rearrangeVisit_store a T).of_ok hvisit
  · exact .inl (congrArg (RtoHashstore.rtoList · rtoHash) hstore)
  · exact .inr ((congrArg (RtoHashstore.rtoList · rtoHash) hstore).trans (rtoList_move hj))

end Links

/-! ### Bounded work -/

/-- From a count `cnt` of entries to a count `cnt'`, `l` were fired: with them there are still no more of
them than entries, and no more than `thresh`. -/
def WithinThresh (thresh cnt : ℤ) (l : List Addr) (cnt' : ℤ) : Prop :=
  ∀ k : ℤ, k ≤ cnt → k ≤ thresh → k + l.length ≤ cnt' ∧ k + l.length ≤ thresh

theorem WithinThresh.append {thresh cnt cnt' cnt'' : ℤ} {l l' : List Addr}
    (h : WithinThresh thresh cnt l cnt') (h' : WithinThresh thresh cnt' l' cnt'') :
    WithinThresh thresh cnt (l ++ l') cnt'' := by
  intro k hk hthresh
  obtain ⟨hcnt, hle⟩ := h k hk hthresh
  obtain ⟨hcnt', hle'⟩ := h' _ hcnt hle
  rw [List.length_append]
  push_cast
  omega

/-- What a stop in the middle of a scan leaves: it was not for want of iterations, and the budget was
kept. -/
def StopsWithin (thresh cnt : ℤ) (l : List Addr) (e : Abort) : Prop :=
  e ≠ .endless ∧ ∃ cnt', WithinThresh thresh cnt l cnt'

section Bounded

variable {destroy : Stack ρ → Addr → Stack ρ} {thresh : ℤ}

theorem WithinThresh.append_stop {cnt cnt' : ℤ} {l l' : List Addr} {e : Abort}
    (h : WithinThresh thresh cnt l cnt') (h' : StopsWithin thresh cnt' l' e) :
    StopsWithin thresh cnt (l ++ l') e := by
  obtain ⟨he, cnt'', hbudget⟩ := h'
  exact ⟨he, cnt'', h.append hbudget⟩

theorem withinThresh_nil {cnt cnt' : ℤ} (h : cnt ≤ cnt') : WithinThresh thresh cnt [] cnt' := by
  intro k hk hthresh
  simp only [List.length_nil]
  omega

/-- The clock of the store. -/
def RtoHashstore.clock (store : RtoHashstore) : U32 × U32 := (store.rtoNowIdx, store.rtoNowTs)

/-- The walk along a bucket. -/
theorem rtmWalk_bounded (hdestroy : LeavesStore destroy) (l : List Addr) (p : Stack ρ × ℤ)
    (hfin : p.1.tcp.rtoStore.Finite) :
    (walkList (rtmVisit destroy thresh) l p).Meets (StopsWithin thresh p.2) fun fired q =>
      q.1.tcp.rtoStore.Finite ∧ q.1.tcp.rtoStore.clock = p.1.tcp.rtoStore.clock ∧
        WithinThresh thresh p.2 fired q.2 := by
  induction l generalizing p with
  | nil => exact ⟨hfin, rfl, withinThresh_nil le_rfl⟩
  | cons walk l ih =>
    have hone : ∀ {fired : List Addr}, p.2 + 1 ≤ thresh → fired.length ≤ 1 →
        WithinThresh thresh p.2 fired (p.2 + 1) := by
      intro fired hle hlen k hk _
      omega
    unfold walkList
    refine Traced.Meets.bind ((rtmVisit_store hdestroy thresh walk p).mono (fun fired e he => ?_)
      fun fired r hr => ?_)
    · exact ⟨he.1, _, hone he.2.1 he.2.2⟩
    · obtain ⟨⟨S', cnt'⟩, stop⟩ := r
      obtain ⟨rfl, hstop, hgo⟩ := hr
      cases stop with
      | true =>
        -- the budget is used up
        obtain ⟨rfl, hS⟩ := hstop rfl
        dsimp only at hS
        subst hS
        exact ⟨hfin, rfl, withinThresh_nil (show p.2 ≤ p.2 + 1 by omega)⟩
      | false =>
        obtain ⟨hle, hlen, hstore⟩ := hgo rfl
        have hbudget := hone hle hlen
        have hfin' : S'.tcp.rtoStore.Finite ∧ S'.tcp.rtoStore.clock = p.1.tcp.rtoStore.clock := by
          rcases hstore with hstore | hstore
          · dsimp only at hstore
            rw [hstore]
            exact ⟨hfin, rfl⟩
          · dsimp only at hstore
            rw [hstore]
            exact ⟨hfin.unlink _ _, rfl⟩
        refine (ih (S', p.2 + 1) hfin'.1).mono (fun _ _ he => hbudget.append_stop he) fun _ q hq => ?_
        exact ⟨hq.1, hq.2.1.trans hfin'.2, hbudget.append hq.2.2⟩

/-- The walk along the last bucket. -/
theorem rearrangeWalk_bounded (l : List Addr) (S : Stack ρ) (hfin : S.tcp.rtoStore.Finite)
    (hnodup : l.Nodup) (hl : ∀ a ∈ l, a ∈ S.tcp.rtoStore.rtoList rtoHash) :
    (walkList rearrangeVisit l S).Meets (fun fired e => fired = [] ∧ e ≠ .endless) fun fired S' =>
      fired = [] ∧ S'.tcp.rtoStore.Finite ∧ S'.tcp.rtoStore.clock = S.tcp.rtoStore.clock := by
  induction l generalizing S with
  | nil => exact ⟨rfl, hfin, rfl⟩
  | cons walk l ih =>
    obtain ⟨hwalk, hnext⟩ := List.nodup_cons.mp hnodup
    unfold walkList
    refine Traced.Meets.bind ((rearrangeVisit_store walk S).mono (fun _ _ he => he) fun fired r hr => ?_)
    obtain ⟨S', stop⟩ := r
    obtain ⟨rfl, rfl, hstore⟩ := hr
    -- what is left of the bucket is still in it
    have hkept : S'.tcp.rtoStore.Finite ∧ S'.tcp.rtoStore.clock = S.tcp.rtoStore.clock ∧
        ∀ a ∈ l, a ∈ S'.tcp.rtoStore.rtoList rtoHash := by
      rcases hstore with hstore | ⟨j, hj, hstore⟩
      · dsimp only at hstore
        rw [hstore]
        exact ⟨hfin, rfl, fun a ha => hl a (List.mem_cons_of_mem _ ha)⟩
      · dsimp only at hstore
        rw [hstore]
        refine ⟨hfin.move (hl walk List.mem_cons_self) j, rfl, fun a ha => ?_⟩
        have hne : a ≠ walk := fun heq => hwalk (heq ▸ ha)
        rw [rtoList_move hj, List.mem_erase_of_ne hne]
        exact hl a (List.mem_cons_of_mem _ ha)
    refine (ih S' hkept.1 hnext hkept.2.2).mono (fun _ _ he => he) fun fired S'' h => ?_
    exact ⟨h.1, h.2.1, h.2.2.trans hkept.2.1⟩

theorem scanRearrange_bounded {S : Stack ρ} (hfin : S.tcp.rtoStore.Finite) :
    (scanRearrange S).Meets (fun fired e => fired = [] ∧ e ≠ .endless) fun fired S' =>
      fired = [] ∧ S'.tcp.rtoStore.Finite ∧ S'.tcp.rtoStore.clock = S.tcp.rtoStore.clock := by
  rw [scanRearrange_eq hfin]
  exact rearrangeWalk_bounded _ S hfin (hfin.choose_spec.nodup rtoHash) fun _ ha => ha

theorem scanAdvance_bounded {S : Stack ρ} (hfin : S.tcp.rtoStore.Finite) :
    (scanAdvance S).Meets (fun fired e => fired = [] ∧ e ≠ .endless) fun fired S' =>
      fired = [] ∧ S'.tcp.rtoStore.Finite ∧ S'.tcp.rtoStore.rtoNowIdx.toNat < rtoHash ∧
        S'.tcp.rtoStore.rtoNowTs = S.tcp.rtoStore.rtoNowTs + 1 := by
  have hidx : (advanceRto S.tcp).rtoStore.rtoNowIdx.toNat < rtoHash := by
    change ((S.tcp.rtoStore.rtoNowIdx + 1) % BitVec.ofNat 32 rtoHash).toNat < rtoHash
    rw [BitVec.toNat_umod]
    exact Nat.mod_lt _ (by decide)
  unfold scanAdvance
  dsimp only
  split
  · refine (scanRearrange_bounded (S := { S with tcp := advanceRto S.tcp }) hfin).mono
      (fun _ _ he => he) fun fired S' h => ?_
    have hclock := Prod.mk.inj h.2.2
    exact ⟨h.1, h.2.1, by rw [hclock.1]; exact hidx, hclock.2⟩
  · exact ⟨rfl, hfin, hidx, rfl⟩

/-- The ticks the loop may take at the most: to the tick behind `cur_ts`, or none when that is past. -/
def ticksLeft (store : RtoHashstore) (curTs : U32) : ℤ :=
  if (curTs - store.rtoNowTs).toInt < 0 then 0 else (curTs - store.rtoNowTs).toInt + 1

/-- From a turn that goes on, one tick less is left. -/
theorem ticksLeft_advance {store store' : RtoHashstore} {curTs : U32}
    (hge : ¬(curTs - store.rtoNowTs).toInt < 0) (hts : store'.rtoNowTs = store.rtoNowTs + 1) :
    ticksLeft store' curTs + 1 = ticksLeft store curTs := by
  unfold ticksLeft
  rw [hts, ← BitVec.sub_sub]
  generalize curTs - store.rtoNowTs = d at hge ⊢
  have hnat := BitVec.toInt_eq_toNat_cond d
  have hpred := BitVec.toInt_eq_toNat_cond (d - 1)
  have hsub : (d - 1).toNat = if d.toNat = 0 then 2 ^ 32 - 1 else d.toNat - 1 := by
    split
    · bv_omega
    · bv_omega
  rw [hpred, hsub, if_neg hge]
  split at hnat
  · split
    · omega
    · omega
  · omega

/-- The `while` loop: it ends, in as many turns as ticks are left and one more. -/
theorem scanLoop_bounded (hdestroy : LeavesStore destroy) (curTs : U32) (turns : ℕ) (p : Stack ρ × ℤ)
    (hfin : p.1.tcp.rtoStore.Finite) (hidx : p.1.tcp.rtoStore.rtoNowIdx.toNat < rtoHash)
    (hturns : ticksLeft p.1.tcp.rtoStore curTs < turns) :
    (scanLoop destroy curTs thresh turns p).Meets (StopsWithin thresh p.2) fun fired S' =>
      (∃ cnt', WithinThresh thresh p.2 fired cnt') ∧ S'.tcp.rtoStore.rtoNowIdx.toNat < rtoHash ∧
        ∃ n : ℕ, n ≤ ticksLeft p.1.tcp.rtoStore curTs ∧
          S'.tcp.rtoStore.rtoNowTs = p.1.tcp.rtoStore.rtoNowTs + BitVec.ofNat 32 n := by
  have hpos : ∀ store, 0 ≤ ticksLeft store curTs := by
    intro store
    unfold ticksLeft
    split
    · exact le_rfl
    · omega
  induction turns generalizing p with
  | zero =>
    have := hpos p.1.tcp.rtoStore
    omega
  | succ turns ih =>
    unfold scanLoop
    by_cases hneg : (curTs - p.1.tcp.rtoStore.rtoNowTs).toInt < 0
    · rw [if_pos hneg]
      refine ⟨⟨_, withinThresh_nil le_rfl⟩, hidx, 0, hpos _, ?_⟩
      simp
    rw [if_neg hneg]
    -- one bucket, which leaves the clock alone
    have hbucket := @rtmWalk_bounded ρ destroy thresh hdestroy
      (p.1.tcp.rtoStore.rtoList p.1.tcp.rtoStore.rtoNowIdx.toNat) p hfin
    rw [← scanBucket_eq hdestroy thresh hfin] at hbucket
    refine Traced.Meets.bind (hbucket.mono (fun _ _ he => he) fun fired r hr => ?_)
    obtain ⟨hfin', hclock, hbudget⟩ := hr
    obtain ⟨hclock, hts⟩ := Prod.mk.inj hclock
    by_cases hless : r.2 < thresh
    · rw [if_pos hless]
      refine ⟨⟨_, hbudget.append (withinThresh_nil le_rfl)⟩, by rwa [hclock], 0, hpos _, ?_⟩
      rw [hts]
      simp
    rw [if_neg hless]
    refine Traced.Meets.bind ((scanAdvance_bounded hfin').mono (fun fired' e he => ?_)
      fun fired' S' hS => ?_)
    · obtain ⟨rfl, he⟩ := he
      exact ⟨he, _, hbudget.append (withinThresh_nil le_rfl)⟩
    · obtain ⟨rfl, hfin'', hidx', hnow⟩ := hS
      -- a tick later there is one tick less to go, for which the turns still suffice
      have hticks := ticksLeft_advance hneg (hnow.trans (by rw [hts]))
      refine (ih (S', r.2) hfin'' hidx' (by dsimp only; omega)).mono (fun _ _ he => ?_) fun fired'' S'' h => ?_
      · exact hbudget.append_stop he
      · obtain ⟨⟨cnt', hcnt⟩, hidx'', n, hn, hts'⟩ := h
        refine ⟨⟨cnt', hbudget.append hcnt⟩, hidx'', n + 1, ?_, ?_⟩
        · dsimp only at hn
          push_cast
          omega
        · rw [hts']
          dsimp only
          rw [hnow, hts, BitVec.add_assoc, BitVec.ofNat_add, BitVec.add_comm (BitVec.ofNat 32 n)]
          rfl

theorem ticksLeft_lt_turns (store : RtoHashstore) (curTs : U32) :
    ticksLeft store curTs < ((curTs - store.rtoNowTs).toNat + 2 : ℕ) := by
  have hnat := BitVec.toInt_eq_toNat_cond (curTs - store.rtoNowTs)
  unfold ticksLeft
  split at hnat
  · split
    · omega
    · omega
  · split
    · omega
    · omega

end Bounded

/-- **Bounded work.** Whatever streams the buckets hold, and whatever `destroy_tcp_stream` does but to the
store, `check_rtm_timeout` and `rearrange_rto_store` end. The former calls `handle_rto` for at most
`thresh` streams, keeps `rto_now_idx` on the wheel and advances `rto_now_ts` at most to the tick behind
`cur_ts`, and not at all when that is past. -/
theorem scanRtmTimeout_bounded (destroy : Stack ρ → Addr → Stack ρ) (hdestroy : LeavesStore destroy)
    (S : Stack ρ) (curTs : U32) (thresh : ℤ) (hthresh : 0 ≤ thresh) (hfin : S.tcp.rtoStore.Finite)
    (hidx : S.tcp.rtoStore.rtoNowIdx.toNat < rtoHash) :
    (scanRtmTimeout destroy S curTs thresh).result ≠ .error .endless ∧
      (scanRtmTimeout destroy S curTs thresh).trace.length ≤ thresh ∧
      (∀ S', (scanRtmTimeout destroy S curTs thresh).result = .ok S' →
        S'.tcp.rtoStore.rtoNowIdx.toNat < rtoHash ∧
          ∃ n : ℕ, n ≤ ticksLeft S.tcp.rtoStore curTs ∧
            S'.tcp.rtoStore.rtoNowTs = S.tcp.rtoStore.rtoNowTs + BitVec.ofNat 32 n) ∧
      ∀ T : Stack ρ, T.tcp.rtoStore.Finite → (scanRearrange T).result ≠ .error .endless := by
  have hrearrange : ∀ T : Stack ρ, T.tcp.rtoStore.Finite →
      (scanRearrange T).result ≠ .error .endless :=
    fun T hT he => ((scanRearrange_bounded hT).of_error he).2 rfl
  unfold scanRtmTimeout
  by_cases hcnt : S.tcp.rtoListCnt = 0
  · rw [if_pos hcnt]
    refine ⟨nofun, hthresh, fun S' h => ?_, hrearrange⟩
    -- nobody waits, so the clock stays where it is
    obtain rfl : S = S' := Except.ok.inj h
    refine ⟨hidx, 0, ?_, (BitVec.add_zero _).symm⟩
    unfold ticksLeft
    split
    · exact le_rfl
    · push_cast
      omega
  · rw [if_neg hcnt]
    have hloop := @scanLoop_bounded ρ destroy thresh hdestroy curTs _ (S, 0) hfin hidx
      (ticksLeft_lt_turns _ curTs)
    have hfew : ∀ {fired : List Addr} {cnt'}, WithinThresh thresh 0 fired cnt' →
        (fired.length : ℤ) ≤ thresh := by
      intro fired cnt' h
      have := (h 0 le_rfl hthresh).2
      omega
    refine ⟨fun he => (hloop.of_error he).1 rfl, ?_, fun S' h => (hloop.of_ok h).2, hrearrange⟩
    -- the budget also bounds a run that fails an assertion
    cases hr : (scanLoop destroy curTs thresh _ (S, 0)).result with
    | ok S' =>
      obtain ⟨cnt', h⟩ := (hloop.of_ok hr).1
      exact hfew h
    | error e =>
      obtain ⟨-, cnt', h⟩ := hloop.of_error hr
      exact hfew h

/-- A stream that waits for its deadline, which is now. -/
theorem scanRtmTimeout_bounded_one :
    (scanRtmTimeout (fun S _ => S) (oneIn 1000 5000) 5000 10).result ≠ .error .endless ∧
      (scanRtmTimeout (fun S _ => S) (oneIn 1000 5000) 5000 10).trace.length ≤ (10 : ℤ) ∧
      (∀ S', (scanRtmTimeout (fun S _ => S) (oneIn 1000 5000) 5000 10).result = .ok S' →
        S'.tcp.rtoStore.rtoNowIdx.toNat < rtoHash ∧
          ∃ n : ℕ, n ≤ ticksLeft (oneIn 1000 5000).tcp.rtoStore 5000 ∧
            S'.tcp.rtoStore.rtoNowTs = (oneIn 1000 5000).tcp.rtoStore.rtoNowTs + BitVec.ofNat 32 n) ∧
      ∀ T : Stack Unit, T.tcp.rtoStore.Finite → (scanRearrange T).result ≠ .error .endless :=
  scanRtmTimeout_bounded (fun S _ => S) (fun _ _ => rfl) (oneIn 1000 5000) 5000 10 (by decide)
    ⟨_, (oneIn_inv (by decide) 5000).placed⟩ (by decide)

/-! ### The scan of the stack model -/

/-- The streams lie at their addresses. -/
def Stack.Addressed (S : Stack ρ) : Prop := ∀ a s, S.stream a = some s → s.addr = a

section Result

variable {S : Stack ρ} {thresh : ℤ}

theorem Stack.Addressed.put (h : S.Addressed) (c : Conn ρ) : (S.put c).Addressed := by
  intro a s hs
  rcases Stack.stream_put hs with ⟨rfl, rfl⟩ | ⟨-, hs⟩
  · rfl
  · exact h a s hs

theorem Stack.Addressed.follow (h : S.Addressed) (a : Addr) : S.follow a = S.deref a := by
  unfold Stack.follow Stack.deref
  cases hs : S.stream a with
  | none => rfl
  | some s =>
    obtain rfl := h a s hs
    rfl

theorem rtmFire_result (S : Stack ρ) (s : Stream ρ) :
    (rtmFire (fun S _ => S) S s).result = rtmEntry S s := by
  have hafter : ∀ c : Conn ρ, S.afterRto (fun S _ => S) c = S.put c := fun c => ite_self _
  unfold rtmFire rtmEntry
  simp only [hafter]
  split
  · rfl
  · rfl

theorem rtmEntry_addressed (h : S.Addressed) (s : Stream ρ) :
    Outcome (rtmEntry S s) (fun _ => True) Stack.Addressed := by
  unfold rtmEntry
  split
  · refine Outcome.bind ((handleRto_sameTimers (S.unlinked s) _).mono (fun _ _ => trivial)
      fun _ h => h) fun r _ => ?_
    exact h.put r.1
  · exact h

theorem rtmWalk_result (l : List Addr) (cnt : ℤ) (S : Stack ρ) (h : S.Addressed) :
    (walkList (rtmVisit (fun S _ => S) thresh) l (S, cnt)).result = rtmBucket thresh l cnt S ∧
      Outcome (rtmBucket thresh l cnt S) (fun _ => True) fun r => r.1.Addressed := by
  induction l generalizing cnt S with
  | nil => exact ⟨rfl, h⟩
  | cons walk l ih =>
    unfold walkList rtmBucket
    dsimp only
    rw [Traced.result_bind]
    unfold rtmVisit
    dsimp only
    by_cases hstop : cnt + 1 > thresh
    · rw [if_pos hstop, if_pos hstop]
      exact ⟨rfl, h⟩
    rw [if_neg hstop, if_neg hstop, Traced.result_bind, h.follow]
    change ((S.deref walk >>= _) >>= _) = _ ∧ _
    cases S.deref walk with
    | error e => exact ⟨rfl, trivial⟩
    | ok s =>
      change ((rtmFire _ S s >>= _).result >>= _) = (rtmEntry S s >>= _) ∧ Outcome (rtmEntry S s >>= _) _ _
      rw [Traced.result_bind, rtmFire_result]
      have haddr := rtmEntry_addressed h s
      cases hentry : rtmEntry S s with
      | error e => exact ⟨rfl, trivial⟩
      | ok S' =>
        rw [hentry] at haddr
        exact ih (cnt + 1) S' haddr

theorem rearrangeEntry_addressed (h : S.Addressed) (s : Stream ρ) : (rearrangeEntry S s).Addressed := by
  by_cases hmove : (S.tcp.rtoStore.rtoNowTs - s.snd.tsRto).toInt < rtoHash
  · rw [rearrangeEntry_moves hmove]
    exact h.put _
  · have hstay : rearrangeEntry S s = S := if_neg hmove
    rwa [hstay]

theorem rearrangeWalk_result (l : List Addr) (S : Stack ρ) (h : S.Addressed) :
    (walkList rearrangeVisit l S).result = rearrangeLoop l S ∧
      Outcome (rearrangeLoop l S) (fun _ => True) Stack.Addressed := by
  induction l generalizing S with
  | nil => exact ⟨rfl, h⟩
  | cons walk l ih =>
    unfold walkList rearrangeLoop
    unfold rearrangeVisit
    rw [Traced.result_bind, Traced.result_bind, h.follow]
    change ((S.deref walk >>= _) >>= _) = _ ∧ _
    cases S.deref walk with
    | error e => exact ⟨rfl, trivial⟩
    | ok s => exact ih (rearrangeEntry S s) (rearrangeEntry_addressed h s)

theorem scanAdvance_result (h : S.Addressed) (hfin : S.tcp.rtoStore.Finite) :
    (scanAdvance S).result = rtmAdvance S ∧
      Outcome (rtmAdvance S) (fun _ => True) Stack.Addressed := by
  unfold scanAdvance rtmAdvance
  dsimp only
  split
  · rw [scanRearrange_eq (S := { S with tcp := advanceRto S.tcp }) hfin]
    exact rearrangeWalk_result _ _ h
  · exact ⟨rfl, h⟩

theorem scanLoop_result (curTs : U32) (turns : ℕ) (cnt : ℤ) (S : Stack ρ) (h : S.Addressed)
    (hfin : S.tcp.rtoStore.Finite) :
    (scanLoop (fun S _ => S) curTs thresh turns (S, cnt)).result = rtmLoop curTs thresh turns cnt S := by
  have hdestroy : LeavesStore (ρ := ρ) fun S _ => S := fun _ _ => rfl
  induction turns generalizing cnt S with
  | zero => rfl
  | succ turns ih =>
    unfold scanLoop rtmLoop
    dsimp only
    split
    · rfl
    have hbounded := @rtmWalk_bounded ρ _ thresh hdestroy
      (S.tcp.rtoStore.rtoList S.tcp.rtoStore.rtoNowIdx.toNat) (S, cnt) hfin
    obtain ⟨hresult, haddr⟩ := @rtmWalk_result ρ thresh
      (S.tcp.rtoStore.rtoList S.tcp.rtoStore.rtoNowIdx.toNat) cnt S h
    rw [scanBucket_eq hdestroy thresh (p := (S, cnt)) hfin, Traced.result_bind, hresult]
    cases hbucket : rtmBucket thresh (S.tcp.rtoStore.rtoList S.tcp.rtoStore.rtoNowIdx.toNat) cnt S with
    | error e => rfl
    | ok r =>
      rw [hbucket] at hresult haddr
      -- the lists of the store stay finite, so the next turn's walk is the one along its list again
      have hfin' := (hbounded.of_ok hresult).1
      obtain ⟨S₁, cnt'⟩ := r
      change (if cnt' < thresh then pure S₁ else _ : Traced _ _ _).result = if cnt' < thresh then _ else _
      split
      · rfl
      have hadvanced := scanAdvance_bounded hfin'
      obtain ⟨hresult', haddr'⟩ := scanAdvance_result (S := S₁) haddr hfin'
      rw [Traced.result_bind, hresult']
      cases hadvance : rtmAdvance S₁ with
      | error e => rfl
      | ok S₂ =>
        rw [hadvance] at hresult' haddr'
        exact ih cnt' S₂ haddr' (hadvanced.of_ok hresult').2.1

/-- With a `destroy_tcp_stream` that does nothing this is the scan of the stack model. -/
theorem scanRtmTimeout_result (S : Stack ρ) (curTs : U32) (thresh : ℤ) (h : S.Addressed)
    (hfin : S.tcp.rtoStore.Finite) :
    (scanRtmTimeout (fun S _ => S) S curTs thresh).result = checkRtmTimeout S curTs thresh := by
  unfold scanRtmTimeout checkRtmTimeout
  split
  · rfl
  · exact scanLoop_result curTs _ 0 S h hfin

end Result

/-! ### What is fired -/

/-- `destroy_tcp_stream` leaves the other streams alone. -/
def LeavesOthers (destroy : Stack ρ → Addr → Stack ρ) : Prop :=
  ∀ S a b, b ≠ a → (destroy S a).stream b = S.stream b

/-- Every stream of the store is in the place for its deadline. -/
def Stack.WellPlaced (S : Stack ρ) : Prop :=
  ∀ a s, S.stream a = some s → 0 ≤ s.onRtoIdx → s.onRtoIdx = S.tcp.rtoStore.placeOf s.snd.tsRto

/-- The stream at `a` waits in the store for a deadline at `curTs` or before. -/
def Stack.Due (S : Stack ρ) (curTs : U32) (a : Addr) (s : Stream ρ) : Prop :=
  S.stream a = some s ∧ 0 ≤ s.onRtoIdx ∧
    S.tcp.rtoStore.ticks s.snd.tsRto ≤ S.tcp.rtoStore.ticks curTs

/-- A scan from `S` to `S'` that called `handle_rto` for `fired` did its task. -/
structure Fires (S : Stack ρ) (curTs : U32) (thresh : ℤ) (fired : List Addr) (S' : Stack ρ) : Prop where
  once : fired.Nodup
  due : ∀ a ∈ fired, ∃ s, S.Due curTs a s
  all : fired.length < thresh → ∀ a s, S.Due curTs a s → a ∈ fired
  /-- what was not fired for want of budget is ahead of the scan, in the place for its deadline -/
  kept : thresh ≤ fired.length → ∀ a s, S.Due curTs a s → a ∉ fired →
    S'.tcp.rtoStore.ticks s.snd.tsRto < rtoHash ∧
      a ∈ S'.tcp.rtoStore.rtoList (S'.tcp.rtoStore.placeOf s.snd.tsRto)

section Fired

variable {destroy : Stack ρ → Addr → Stack ρ} {thresh : ℤ} {S : Stack ρ} {curTs : U32}

/-- An entry that is fired changes its own stream only. -/
theorem rtmFire_others (hothers : LeavesOthers destroy) (S : Stack ρ) {s : Stream ρ}
    (hidx : 0 ≤ s.onRtoIdx) :
    (rtmFire destroy S s).Meets (fun _ _ => True) fun l S' =>
      l = [s.addr] ∧ ∀ b, b ≠ s.addr → S'.stream b = S.stream b := by
  unfold rtmFire
  rw [if_pos hidx]
  refine Outcome.bind ((handleRto_sameTimers (S.unlinked s) _).mono (fun _ _ => trivial)
    fun _ h => h) fun r hr => ?_
  refine ⟨rfl, fun b hb => ?_⟩
  have hne : b ≠ r.1.stream.addr := by
    rw [hr.addr]
    exact hb
  unfold Stack.afterRto
  split
  · rw [hothers _ _ b hne, Stack.put_stream_of_ne hne]
  · exact Stack.put_stream_of_ne hne

/-- The walk along a bucket of marked streams fires the first of them, as many as the budget has left. -/
theorem rtmWalk_fires (hothers : LeavesOthers destroy) (l : List Addr) (p : Stack ρ × ℤ)
    (hnodup : l.Nodup) (hl : ∀ a ∈ l, ∃ s, p.1.stream a = some s ∧ 0 ≤ s.onRtoIdx) :
    (walkList (rtmVisit destroy thresh) l p).Meets (fun _ _ => True) fun fired q =>
      fired = l.take (thresh - p.2).toNat ∧ (q.2 < thresh ↔ p.2 + l.length < thresh) := by
  induction l generalizing p with
  | nil =>
    refine ⟨List.take_nil.symm, ?_⟩
    rw [List.length_nil, Nat.cast_zero, add_zero]
  | cons walk l ih =>
    obtain ⟨hwalk, hnext⟩ := List.nodup_cons.mp hnodup
    obtain ⟨s, hs, hidx⟩ := hl walk List.mem_cons_self
    unfold walkList
    refine Traced.Meets.bind ?_
    unfold rtmVisit
    dsimp only
    by_cases hstop : p.2 + 1 > thresh
    · -- the budget is used up, and the loop stops here
      rw [if_pos hstop]
      have hzero : (thresh - p.2).toNat = 0 := by omega
      refine ⟨by rw [hzero]; rfl, iff_of_false ?_ ?_⟩
      · dsimp only
        omega
      · rw [List.length_cons]
        push_cast
        omega
    rw [if_neg hstop]
    have hfollow : p.1.follow walk = .ok { s with addr := walk } := by
      unfold Stack.follow
      rw [hs]
    refine Traced.Meets.bind_lift ?_
    rw [hfollow, Outcome.ok_iff]
    refine Traced.Meets.map ((rtmFire_others hothers p.1 (s := { s with addr := walk }) hidx).mono
      (fun _ _ _ => trivial) fun fired S' hS => ?_)
    obtain ⟨rfl, hsame⟩ := hS
    -- the streams behind are others, and as they were
    have hrest : ∀ a ∈ l, ∃ s, S'.stream a = some s ∧ 0 ≤ s.onRtoIdx := by
      intro a ha
      have hne : a ≠ walk := fun heq => hwalk (heq ▸ ha)
      rw [hsame a hne]
      exact hl a (List.mem_cons_of_mem _ ha)
    refine (ih (S', p.2 + 1) hnext hrest).mono (fun _ _ _ => trivial) fun fired q hq => ?_
    obtain ⟨rfl, hcnt⟩ := hq
    have hsucc : (thresh - p.2).toNat = (thresh - (p.2 + 1)).toNat + 1 := by omega
    refine ⟨by rw [hsucc]; rfl, hcnt.trans ?_⟩
    rw [List.length_cons]
    push_cast
    constructor
    · intro hlt
      omega
    · intro hlt
      omega

/-- With the budget used up, a walk along a bucket stops at the first entry. -/
theorem rtmWalk_idle (l : List Addr) (p : Stack ρ × ℤ) (h : thresh ≤ p.2) :
    (walkList (rtmVisit destroy thresh) l p).Meets (fun _ _ => False) fun fired q =>
      fired = [] ∧ thresh ≤ q.2 := by
  cases l with
  | nil => exact ⟨rfl, h⟩
  | cons walk l =>
    unfold walkList
    refine Traced.Meets.bind ?_
    unfold rtmVisit
    dsimp only
    rw [if_pos (by omega)]
    exact ⟨rfl, by dsimp only; omega⟩

/-- A tick later, the tick behind `cur_ts` is the last one still: the loop goes on, or has come there. -/
theorem lastTick_advance {now : U32} (hge : ¬(curTs - now).toInt < 0) :
    (if (curTs - (now + 1)).toInt < 0 then now + 1 else curTs + 1) = curTs + 1 := by
  split
  · next hlt =>
    have hzero : curTs - now = 0 := by
      by_contra hne
      rw [← BitVec.sub_sub] at hlt
      generalize curTs - now = d at *
      have hnat := BitVec.toInt_eq_toNat_cond d
      have hpred := BitVec.toInt_eq_toNat_cond (d - 1)
      have hsub : (d - 1).toNat = d.toNat - 1 := by bv_omega
      have hpos : d.toNat ≠ 0 := fun hz => hne (BitVec.eq_of_toNat_eq hz)
      omega
    rw [← sub_eq_zero.mp hzero]
  · rfl

/-- With the budget used up, the loop runs on to the tick behind `cur_ts`. -/
theorem scanLoop_idle (hdestroy : LeavesStore destroy) (curTs : U32) (turns : ℕ) (p : Stack ρ × ℤ)
    (hfin : p.1.tcp.rtoStore.Finite) (h : thresh ≤ p.2) :
    (scanLoop destroy curTs thresh turns p).Meets (fun _ _ => True) fun fired S' =>
      fired = [] ∧ S'.tcp.rtoStore.rtoNowTs =
        if (curTs - p.1.tcp.rtoStore.rtoNowTs).toInt < 0 then p.1.tcp.rtoStore.rtoNowTs
        else curTs + 1 := by
  induction turns generalizing p with
  | zero => exact trivial
  | succ turns ih =>
    unfold scanLoop
    by_cases hneg : (curTs - p.1.tcp.rtoStore.rtoNowTs).toInt < 0
    · rw [if_pos hneg, if_pos hneg]
      exact ⟨rfl, rfl⟩
    rw [if_neg hneg, if_neg hneg]
    have hbounded := @rtmWalk_bounded ρ destroy thresh hdestroy
      (p.1.tcp.rtoStore.rtoList p.1.tcp.rtoStore.rtoNowIdx.toNat) p hfin
    have hidle := @rtmWalk_idle ρ destroy thresh
      (p.1.tcp.rtoStore.rtoList p.1.tcp.rtoStore.rtoNowIdx.toNat) p h
    rw [← scanBucket_eq hdestroy thresh hfin] at hbounded hidle
    refine Traced.Meets.bind ((hbounded.and hidle).mono (fun _ _ he => he.2.elim) fun fired q hq => ?_)
    obtain ⟨⟨hfin', hclock, -⟩, rfl, hfull⟩ := hq
    have hts := (Prod.mk.inj hclock).2
    -- the budget stays used up, so the loop goes on to the next tick
    rw [if_neg (by omega)]
    refine Traced.Meets.bind ((scanAdvance_bounded hfin').mono (fun _ _ _ => trivial)
      fun fired' S' hS => ?_)
    obtain ⟨rfl, hfin'', -, hnow⟩ := hS
    refine (ih (S', q.2) hfin'' hfull).mono (fun _ _ _ => trivial) fun fired'' S'' h'' => ?_
    obtain ⟨rfl, hlast⟩ := h''
    refine ⟨rfl, hlast.trans ?_⟩
    dsimp only
    rw [hnow, hts, lastTick_advance hneg]

/-- What a bucket holds is a stream that is marked. -/
theorem Stack.RtoInv.marked (h : S.RtoInv) {i : ℕ} {a : Addr} (ha : a ∈ S.tcp.rtoStore.rtoList i) :
    ∃ s, S.stream a = some s ∧ 0 ≤ s.onRtoIdx := by
  obtain ⟨s, hs, hmark⟩ := Option.bind_eq_some_iff.mp ((h.placed.mem_iff _ _).mp ha)
  unfold Stream.rtoMark at hmark
  split at hmark
  · cases hmark
  · exact ⟨s, hs, by omega⟩

/-- The loop from its first turn: it fires the first streams of the current bucket, and when that held
`thresh` of them it runs on to the tick behind `cur_ts`. -/
theorem scanLoop_fires (hdestroy : LeavesStore destroy) (hothers : LeavesOthers destroy) (h : S.RtoInv)
    (hcur : ¬(curTs - S.tcp.rtoStore.rtoNowTs).toInt < 0) (turns : ℕ) :
    (scanLoop destroy curTs thresh (turns + 1) (S, 0)).Meets (fun _ _ => True) fun fired S' =>
      fired = (S.tcp.rtoStore.rtoList S.tcp.rtoStore.rtoNowIdx.toNat).take thresh.toNat ∧
        (thresh ≤ (S.tcp.rtoStore.rtoList S.tcp.rtoStore.rtoNowIdx.toNat).length →
          S'.tcp.rtoStore.rtoNowTs = curTs + 1) := by
  have hmarked := fun a (ha : a ∈ S.tcp.rtoStore.rtoList S.tcp.rtoStore.rtoNowIdx.toNat) => h.marked ha
  generalize hbucket : S.tcp.rtoStore.rtoList S.tcp.rtoStore.rtoNowIdx.toNat = l at *
  have hfin : S.tcp.rtoStore.Finite := ⟨_, h.placed⟩
  have hbounded := @rtmWalk_bounded ρ destroy thresh hdestroy l (S, 0) hfin
  have hfires := @rtmWalk_fires ρ destroy thresh hothers l (S, 0)
    (hbucket ▸ h.placed.nodup _) hmarked
  -- the first turn walks along the bucket as it is now
  have hwalk : scanBucket destroy thresh (S, 0) = walkList (rtmVisit destroy thresh) l (S, 0) :=
    (scanBucket_eq hdestroy thresh hfin).trans (congrArg (walkList _ · _) hbucket)
  rw [← hwalk] at hbounded hfires
  unfold scanLoop
  rw [if_neg hcur]
  refine Traced.Meets.bind ((hbounded.and hfires).mono (fun _ _ _ => trivial) fun fired q hq => ?_)
  obtain ⟨⟨hfin', hclock, -⟩, rfl, hcnt⟩ := hq
  have hts := (Prod.mk.inj hclock).2
  dsimp only at hcnt hts
  rw [sub_zero, zero_add] at *
  by_cases hless : q.2 < thresh
  · -- the bucket held fewer than `thresh`
    rw [if_pos hless]
    refine ⟨List.append_nil _, fun hle => ?_⟩
    have := hcnt.mp hless
    omega
  rw [if_neg hless]
  refine Traced.Meets.bind ((scanAdvance_bounded hfin').mono (fun _ _ _ => trivial)
    fun fired' S₁ hS => ?_)
  obtain ⟨rfl, hfin₁, -, hnow⟩ := hS
  refine (scanLoop_idle hdestroy curTs turns (S₁, q.2) hfin₁ (not_lt.mp hless)).mono
    (fun _ _ _ => trivial) fun fired'' S' hS' => ?_
  obtain ⟨rfl, hlast⟩ := hS'
  refine ⟨by rw [List.append_nil, List.append_nil], fun _ => hlast.trans ?_⟩
  dsimp only
  rw [hnow, hts, lastTick_advance hcur]

/-- What is in the current bucket, for a stream that is in the place for its deadline. -/
theorem mem_current_iff (h : S.RtoInv) (hidx : S.tcp.rtoStore.rtoNowIdx.toNat < rtoHash)
    {a : Addr} {s : Stream ρ} (hs : S.stream a = some s)
    (hplace : s.onRtoIdx = S.tcp.rtoStore.placeOf s.snd.tsRto) :
    a ∈ S.tcp.rtoStore.rtoList S.tcp.rtoStore.rtoNowIdx.toNat ↔
      S.tcp.rtoStore.ticks s.snd.tsRto = 0 := by
  rw [h.mem_iff hs, hplace, Nat.cast_inj]
  unfold RtoHashstore.placeOf
  generalize S.tcp.rtoStore.ticks s.snd.tsRto = d
  generalize S.tcp.rtoStore.rtoNowIdx.toNat = idx at *
  unfold rtoHash at *
  split
  · omega
  · omega

/-- From the tick behind `cur_ts`, what was due is a turn of the clock away. -/
theorem ticks_passed {store store' : RtoHashstore} {ts : U32} (hts : store'.rtoNowTs = curTs + 1)
    (hcur : store.ticks curTs < rtoHash) (hdue : store.ticks ts ≤ store.ticks curTs) :
    ¬store'.ticks ts < rtoHash := by
  unfold RtoHashstore.ticks rtoHash at *
  rw [hts]
  bv_omega

end Fired

/-- **Everything due fires.** For streams that are in the place for their deadlines and a `cur_ts` less than a
turn of the wheel ahead, a call of `check_rtm_timeout` that returns did its task if and only if no stream has its
deadline after `rto_now_ts` and up to `cur_ts`, and `thresh` is enough for the streams of the current bucket. -/
theorem scanRtmTimeout_iff (destroy : Stack ρ → Addr → Stack ρ) (hdestroy : LeavesStore destroy)
    (hothers : LeavesOthers destroy) (S : Stack ρ) (curTs : U32) (thresh : ℤ) (h : S.RtoInv)
    (hplace : S.WellPlaced) (hcur : S.tcp.rtoStore.ticks curTs < rtoHash) (S' : Stack ρ)
    (hr : (scanRtmTimeout destroy S curTs thresh).result = .ok S') :
    Fires S curTs thresh (scanRtmTimeout destroy S curTs thresh).trace S' ↔
      (S.tcp.rtoStore.rtoList S.tcp.rtoStore.rtoNowIdx.toNat).length ≤ thresh.toNat ∧
        ∀ a s, S.stream a = some s → 0 ≤ s.onRtoIdx →
          S.tcp.rtoStore.ticks s.snd.tsRto = 0 ∨
            S.tcp.rtoStore.ticks curTs < S.tcp.rtoStore.ticks s.snd.tsRto := by
  unfold scanRtmTimeout at hr ⊢
  by_cases hcnt : S.tcp.rtoListCnt = 0
  · -- nothing waits
    rw [if_pos hcnt] at hr ⊢
    have hnone : ∀ a s, S.stream a = some s → ¬0 ≤ s.onRtoIdx := by
      intro a s hs hmark
      have hhigh := h.high a s hs
      have hmem := (h.mem_iff hs (i := s.onRtoIdx.toNat)).mpr (by omega)
      exact h.cnt_ne (by omega) hmem hcnt
    have hempty : S.tcp.rtoStore.rtoList S.tcp.rtoStore.rtoNowIdx.toNat = [] := by
      refine List.eq_nil_iff_forall_not_mem.mpr fun a ha => ?_
      obtain ⟨s, hs, hmark⟩ := h.marked ha
      exact hnone a s hs hmark
    rw [hempty]
    refine iff_of_true ⟨List.nodup_nil, nofun, fun _ a s hdue => ?_, fun _ a s hdue => ?_⟩
      ⟨Nat.zero_le _, fun a s hs hmark => absurd hmark (hnone a s hs)⟩
    · exact absurd hdue.2.1 (hnone a s hdue.1)
    · exact absurd hdue.2.1 (hnone a s hdue.1)
  rw [if_neg hcnt] at hr ⊢
  have hsign : ¬(curTs - S.tcp.rtoStore.rtoNowTs).toInt < 0 := by
    unfold RtoHashstore.ticks rtoHash at hcur
    rw [BitVec.toInt_eq_toNat_of_lt (by omega)]
    omega
  obtain ⟨htrace, hpassed⟩ := (scanLoop_fires hdestroy hothers h hsign _).of_ok hr
  rw [htrace]
  clear hr htrace
  have hmem := fun a s hs hmark => mem_current_iff h (h.idx hcnt) hs (hplace a s hs hmark)
  have hmarked := fun a (ha : a ∈ S.tcp.rtoStore.rtoList S.tcp.rtoStore.rtoNowIdx.toNat) => h.marked ha
  have hnodup := h.placed.nodup S.tcp.rtoStore.rtoNowIdx.toNat
  generalize S.tcp.rtoStore.rtoList S.tcp.rtoStore.rtoNowIdx.toNat = l at *
  have hlen : (l.take thresh.toNat).length = min thresh.toNat l.length := List.length_take
  constructor
  · intro hfires
    -- a due stream that is not fired is passed by
    have hfired : ∀ a s, S.Due curTs a s → a ∈ l.take thresh.toNat := by
      intro a s hdue
      by_contra hnot
      by_cases hless : (l.take thresh.toNat).length < thresh
      · exact hnot (hfires.all hless a s hdue)
      · have hsoon := (hfires.kept (not_lt.mp hless) a s hdue hnot).1
        exact ticks_passed (hpassed (by omega)) hcur hdue.2.2 hsoon
    refine ⟨?_, fun a s hs hmark => ?_⟩
    · have hsub : l ⊆ l.take thresh.toNat := by
        intro a ha
        obtain ⟨s, hs, hmark⟩ := hmarked a ha
        refine hfired a s ⟨hs, hmark, ?_⟩
        rw [(hmem a s hs hmark).mp ha]
        exact Nat.zero_le _
      have := (hnodup.subperm hsub).length_le
      omega
    · by_contra hnot
      rw [not_or, not_lt] at hnot
      have ha := List.mem_of_mem_take (hfired a s ⟨hs, hmark, hnot.2⟩)
      exact hnot.1 ((hmem a s hs hmark).mp ha)
  · rintro ⟨hle, hlater⟩
    have htake : l.take thresh.toNat = l := List.take_of_length_le hle
    rw [htake]
    have hfired : ∀ a s, S.Due curTs a s → a ∈ l := by
      rintro a s ⟨hs, hmark, hdue⟩
      refine (hmem a s hs hmark).mpr ((hlater a s hs hmark).resolve_right ?_)
      omega
    refine ⟨hnodup, fun a ha => ?_, fun _ => hfired, fun _ a s hdue hnot => absurd (hfired a s hdue) hnot⟩
    obtain ⟨s, hs, hmark⟩ := hmarked a ha
    refine ⟨s, hs, hmark, ?_⟩
    rw [(hmem a s hs hmark).mp ha]
    exact Nat.zero_le _

/-- Its only stream is where it should be, when it is put into the bucket for its deadline. -/
theorem oneIn_wellPlaced {i : ℕ} {tsRto : U32} (h : i = (oneIn i tsRto).tcp.rtoStore.placeOf tsRto) :
    (oneIn i tsRto).WellPlaced := by
  intro a s hs hmark
  obtain ⟨hidx, hts⟩ := oneIn_stream hs hmark
  rw [hidx, hts]
  exact congrArg Nat.cast h

/-- A stream whose deadline is now. -/
theorem scanRtmTimeout_iff_now :
    ∃ S', (scanRtmTimeout (fun S _ => S) (oneIn 1000 5000) 5000 10).result = .ok S' ∧
      Fires (oneIn 1000 5000) 5000 10
        (scanRtmTimeout (fun S _ => S) (oneIn 1000 5000) 5000 10).trace S' := by
  refine ⟨_, rfl, (scanRtmTimeout_iff (fun S _ => S) (fun _ _ => rfl) (fun _ _ _ _ => rfl)
    (oneIn 1000 5000) 5000 10 (oneIn_inv (by decide) 5000) (oneIn_wellPlaced rfl) (by decide) _ rfl).mpr
    ⟨by decide, fun a s hs hmark => .inl ?_⟩⟩
  rw [(oneIn_stream hs hmark).2]
  rfl

/-- A stream whose deadline is the next tick. At that tick nothing is fired: the bucket that the scan stands
at is empty, and it stops there. -/
theorem scanRtmTimeout_stops :
    ¬∀ (S S' : Stack Unit) (curTs : U32) (thresh : ℤ), S.RtoInv → S.WellPlaced →
      S.tcp.rtoStore.ticks curTs < rtoHash →
      (scanRtmTimeout (fun S _ => S) S curTs thresh).result = .ok S' →
      Fires S curTs thresh (scanRtmTimeout (fun S _ => S) S curTs thresh).trace S' := by
  intro h
  have hfires := h (oneIn 1001 5001) (oneIn 1001 5001) 5001 10 (oneIn_inv (by decide) 5001)
    (oneIn_wellPlaced rfl) (by decide) rfl
  have hfired := hfires.all (by decide) 0 _ ⟨rfl, by decide, by decide⟩
  exact absurd hfired (by decide)

end CmtTcp
