import CmtTcp.Lib.Placement
import CmtTcp.Lib.Run
import CmtTcp.Tcp.Timers

/-!
# The retransmission wheel

The first `RTO_HASH` buckets of the retransmission store are a wheel: the scan stands at bucket `rto_now_idx`
at the tick `rto_now_ts`, and both move on together. A stream should be met at its deadline, so one with
`d` ticks to go belongs `d` buckets ahead (`InPlace`).

`add_to_rto_list` puts it into bucket `ts_rto % RTO_HASH` instead; the formula for the place ahead stands
next to it in a comment. Since an empty store starts over with `rto_now_idx = 0` at the deadline of the
stream, the two agree there only for multiples of `RTO_HASH`. `rtoWheel_iff` says exactly which sequences
of calls keep all streams in place, and `rtoWheel_misplaces` is the shortest that does not.
-/

namespace CmtTcp

open Lib (Placed)

variable {ρ : Type}

/-! ### Calls -/

/-- A function on the stream at `x`, if there is one. -/
def Stack.onStream (S : Stack ρ) (x : Addr) (f : Conn ρ → Conn ρ) : Stack ρ :=
  match S.stream x with
  | some s => S.put (f (S.conn s))
  | none => S

/-- The calls on the store. -/
inductive RtoOp
  /-- the deadline of a stream is set, which is done while it is out of the store -/
  | setTsRto (x : Addr) (ts : U32)
  | add (x : Addr)
  | remove (x : Addr)
  /-- the scan moves on by one step -/
  | advance
deriving DecidableEq, Repr

/-- What a call does. -/
def Stack.exec (S : Stack ρ) : RtoOp → Stack ρ
  | .setTsRto x ts => S.onStream x fun c =>
    if c.stream.onRtoIdx < 0 then c.modSnd fun snd => { snd with tsRto := ts } else c
  | .add x => S.onStream x addToRtoList
  | .remove x => S.onStream x removeFromRtoList
  | .advance => { S with tcp := advanceRto S.tcp }

/-! ### Places -/

/-- A deadline that is `d` ticks ahead, less than a turn of the wheel, is `d` buckets ahead: the scan
stands at its bucket exactly at the deadline. -/
def InPlace (store : RtoHashstore) (i : ℕ) (tsRto : U32) : Prop :=
  let d := (tsRto - store.rtoNowTs).toNat
  d < rtoHash → i = (store.rtoNowIdx.toNat + d) % rtoHash ∧ (i = store.rtoNowIdx.toNat ↔ d = 0)

/-- Every stream on the wheel is in place. -/
def Stack.OnTime (S : Stack ρ) : Prop :=
  ∀ i a s, i < rtoHash → a ∈ S.tcp.rtoStore.rtoList i → S.stream a = some s →
    InPlace S.tcp.rtoStore i s.snd.tsRto

/-- The store into which `add_to_rto_list` puts a stream: an empty one starts over. -/
def startRto (tcp : TcpManager) (tsRto : U32) : RtoHashstore :=
  if tcp.rtoListCnt = 0 then { tcp.rtoStore with rtoNowIdx := 0, rtoNowTs := tsRto }
  else tcp.rtoStore

/-- The bucket it puts the stream into. -/
def rtoOffset (store : RtoHashstore) (tsRto : U32) : ℕ :=
  if (tsRto - store.rtoNowTs).toInt < rtoHash then tsRto.toNat % rtoHash else rtoHash

/-- The call leaves the streams in place. For `add_to_rto_list`, the bucket by the absolute deadline is the
bucket by the ticks to go. For a step of the scan, a stream on the wheel that comes back within a turn,
as the clock wraps, is in the bucket that the scan leaves. -/
def RtoOp.Fits (S : Stack ρ) : RtoOp → Prop
  | .add x => ∀ s, S.stream x = some s → s.onRtoIdx < 0 →
    let store := startRto S.tcp s.snd.tsRto
    let d := (s.snd.tsRto - store.rtoNowTs).toNat
    d < rtoHash → s.snd.tsRto.toNat % rtoHash = (store.rtoNowIdx.toNat + d) % rtoHash
  | .advance => ∀ i a s, i < rtoHash → a ∈ S.tcp.rtoStore.rtoList i → S.stream a = some s →
    (s.snd.tsRto - S.tcp.rtoStore.rtoNowTs).toNat = rtoHash → i = S.tcp.rtoStore.rtoNowIdx.toNat
  | .setTsRto _ _ => True
  | .remove _ => True

/-! ### Where the streams are -/

/-- The bucket a stream says it is in. -/
def Stream.rtoMark (s : Stream ρ) : Option ℕ :=
  if s.onRtoIdx < 0 then none else some s.onRtoIdx.toNat

/-- The buckets the streams say they are in. -/
def Stack.rtoMarks (S : Stack ρ) (a : Addr) : Option ℕ := (S.stream a).bind Stream.rtoMark

/-- The store holds the streams where they say they are, and counts them; one that holds streams stands
at a bucket of the wheel. -/
structure Stack.RtoInv (S : Stack ρ) : Prop where
  addr : ∀ a s, S.stream a = some s → s.addr = a
  placed : Placed S.rtoMarks S.tcp.rtoStore.rtoList
  high : ∀ a s, S.stream a = some s → s.onRtoIdx ≤ rtoHash
  cnt : S.tcp.rtoListCnt =
    ∑ i ∈ Finset.range (rtoHash + 1), (S.tcp.rtoStore.rtoList i).length
  idx : S.tcp.rtoListCnt ≠ 0 → S.tcp.rtoStore.rtoNowIdx.toNat < rtoHash

section Wheel

variable {S : Stack ρ} {x a : Addr} {s : Stream ρ} {c : Conn ρ} {store : RtoHashstore} {i : ℕ}
  {ts : U32}

/-- By the formula for the bucket, the scan is there at the deadline. -/
theorem inPlace_of_mod (hidx : store.rtoNowIdx.toNat < rtoHash)
    (h : (ts - store.rtoNowTs).toNat < rtoHash →
      i = (store.rtoNowIdx.toNat + (ts - store.rtoNowTs).toNat) % rtoHash) :
    InPlace store i ts := by
  intro hd
  have hi := h hd
  refine ⟨hi, ?_⟩
  unfold rtoHash at *
  omega

/-- A step of the scan. -/
theorem inPlace_advance {tcp : TcpManager} (hidx : tcp.rtoStore.rtoNowIdx.toNat < rtoHash)
    (hi : i < rtoHash) (h : InPlace tcp.rtoStore i ts) :
    InPlace (advanceRto tcp).rtoStore i ts ↔
      ((ts - tcp.rtoStore.rtoNowTs).toNat = rtoHash → i = tcp.rtoStore.rtoNowIdx.toNat) := by
  have hnext : (advanceRto tcp).rtoStore.rtoNowIdx.toNat =
      (tcp.rtoStore.rtoNowIdx.toNat + 1) % rtoHash := by
    change ((tcp.rtoStore.rtoNowIdx + 1) % BitVec.ofNat 32 rtoHash).toNat = _
    rw [BitVec.toNat_umod, BitVec.toNat_add, show (1 : U32).toNat = 1 from rfl,
      show (BitVec.ofNat 32 rtoHash).toNat = rtoHash from rfl,
      Nat.mod_eq_of_lt (lt_of_le_of_lt (Nat.succ_le_of_lt hidx) (by decide))]
  have hlt : (advanceRto tcp).rtoStore.rtoNowIdx.toNat < rtoHash := by
    rw [hnext]
    exact Nat.mod_lt _ (by decide)
  -- one tick less, or the whole circle
  have hticks : (ts - (advanceRto tcp).rtoStore.rtoNowTs).toNat =
      if (ts - tcp.rtoStore.rtoNowTs).toNat = 0 then 2 ^ 32 - 1
      else (ts - tcp.rtoStore.rtoNowTs).toNat - 1 := by
    change (ts - (tcp.rtoStore.rtoNowTs + 1)).toNat = _
    split
    · bv_omega
    · bv_omega
  have hd := (ts - tcp.rtoStore.rtoNowTs).isLt
  unfold InPlace at h
  constructor
  · intro hplace hturn
    have hlast := (hplace (by rw [hticks, hturn]; decide)).1
    rw [hnext, hticks, hturn, if_neg (by decide)] at hlast
    unfold rtoHash at *
    omega
  · intro hturn
    refine inPlace_of_mod hlt ?_
    rw [hnext, hticks]
    unfold rtoHash at *
    split
    · omega
    · intro hsoon
      by_cases hback : (ts - tcp.rtoStore.rtoNowTs).toNat = 3000
      · have := hturn hback
        omega
      · have := (h (by omega)).1
        omega

/-- The bucket `add_to_rto_list` chooses is in place exactly when the two formulas agree. -/
theorem inPlace_offset_iff (hidx : store.rtoNowIdx.toNat < rtoHash) (ts : U32) :
    (rtoOffset store ts < rtoHash → InPlace store (rtoOffset store ts) ts) ↔
      ((ts - store.rtoNowTs).toNat < rtoHash →
        ts.toNat % rtoHash = (store.rtoNowIdx.toNat + (ts - store.rtoNowTs).toNat) % rtoHash) := by
  by_cases hd : (ts - store.rtoNowTs).toNat < rtoHash
  · have hdiff : (ts - store.rtoNowTs).toInt < rtoHash := by
      rw [BitVec.toInt_eq_toNat_of_lt (by unfold rtoHash at hd; omega)]
      exact Int.ofNat_lt.mpr hd
    have hoffset : rtoOffset store ts = ts.toNat % rtoHash := if_pos hdiff
    rw [hoffset]
    constructor
    · exact fun h _ => (h (Nat.mod_lt _ (by decide)) hd).1
    · exact fun h _ => inPlace_of_mod hidx h
  · -- nothing is said about deadlines further away
    exact iff_of_true (fun _ hsoon => absurd hsoon hd) fun hsoon => absurd hsoon hd

theorem rtoOffset_le (store : RtoHashstore) (ts : U32) : rtoOffset store ts ≤ rtoHash := by
  unfold rtoOffset
  split
  · exact (Nat.mod_lt _ (by decide)).le
  · exact le_refl _

/-! ### The calls -/

/-- A stream that is put back as it was. -/
theorem Stack.put_conn (hs : S.stream s.addr = some s) : S.put (S.conn s) = S := by
  unfold Stack.put Stack.conn
  dsimp only
  rw [← hs, Function.update_eq_self]

theorem Stack.onStream_some (hs : S.stream x = some s) (f : Conn ρ → Conn ρ) :
    S.onStream x f = S.put (f (S.conn s)) := by
  unfold Stack.onStream
  rw [hs]

theorem Stack.onStream_none (hs : S.stream x = none) (f : Conn ρ → Conn ρ) :
    S.onStream x f = S := by
  unfold Stack.onStream
  rw [hs]

theorem Stack.rtoMarks_put (S : Stack ρ) (c : Conn ρ) :
    (S.put c).rtoMarks = Function.update S.rtoMarks c.stream.addr c.stream.rtoMark :=
  Function.comp_update (Option.bind · Stream.rtoMark) S.stream c.stream.addr (some c.stream)

theorem Stack.rtoMarks_of_stream (hs : S.stream a = some s) : S.rtoMarks a = s.rtoMark := by
  unfold Stack.rtoMarks
  rw [hs]
  rfl

theorem rtoMark_none (h : s.onRtoIdx < 0) : s.rtoMark = none := if_pos h

theorem rtoMark_some (h : s.onRtoIdx = i) : s.rtoMark = some i := by
  unfold Stream.rtoMark
  rw [if_neg (by omega), h, Int.toNat_natCast]

/-- A changed stream with its store. -/
theorem Stack.RtoInv.put (h : S.RtoInv)
    (hplaced : Placed (Function.update S.rtoMarks c.stream.addr c.stream.rtoMark)
      c.tcp.rtoStore.rtoList)
    (hhigh : c.stream.onRtoIdx ≤ rtoHash)
    (hcnt : c.tcp.rtoListCnt =
      ∑ i ∈ Finset.range (rtoHash + 1), (c.tcp.rtoStore.rtoList i).length)
    (hidx : c.tcp.rtoListCnt ≠ 0 → c.tcp.rtoStore.rtoNowIdx.toNat < rtoHash) :
    (S.put c).RtoInv := by
  refine ⟨fun b t ht => ?_, ?_, fun b t ht => ?_, hcnt, hidx⟩
  · rcases Stack.stream_put ht with ⟨rfl, rfl⟩ | ⟨-, ht⟩
    · rfl
    · exact h.addr b t ht
  · rw [S.rtoMarks_put]
    exact hplaced
  · rcases Stack.stream_put ht with ⟨rfl, rfl⟩ | ⟨-, ht⟩
    · exact hhigh
    · exact h.high b t ht

/-- The streams are in place when the changed one is, and the others are. -/
theorem Stack.onTime_put :
    (S.put c).OnTime ↔
      (∀ i, i < rtoHash → c.stream.addr ∈ c.tcp.rtoStore.rtoList i →
        InPlace c.tcp.rtoStore i c.stream.snd.tsRto) ∧
      ∀ i b t, b ≠ c.stream.addr → i < rtoHash → b ∈ c.tcp.rtoStore.rtoList i →
        S.stream b = some t → InPlace c.tcp.rtoStore i t.snd.tsRto := by
  constructor
  · intro h
    refine ⟨fun i hi hmem => h i _ _ hi hmem (Function.update_self _ _ _), ?_⟩
    intro i b t hb hi hmem ht
    exact h i b t hi hmem ((Stack.put_stream_of_ne hb).trans ht)
  · rintro ⟨hself, hothers⟩ i b t hi hmem ht
    rcases Stack.stream_put ht with ⟨rfl, rfl⟩ | ⟨hb, ht⟩
    · exact hself i hi hmem
    · exact hothers i b t hb hi hmem ht

/-- The bucket of a stream is the one it names. -/
theorem Stack.RtoInv.mem_iff (h : S.RtoInv) (hs : S.stream a = some s) :
    a ∈ S.tcp.rtoStore.rtoList i ↔ s.onRtoIdx = i := by
  rw [h.placed.mem_iff, Stack.rtoMarks_of_stream hs]
  refine ⟨fun hm => ?_, rtoMark_some⟩
  unfold Stream.rtoMark at hm
  split at hm
  · cases hm
  · have := Option.some.inj hm
    omega

/-- A store that counts nothing holds nothing. -/
theorem Stack.RtoInv.empty (h : S.RtoInv) (hcnt : S.tcp.rtoListCnt = 0) (hi : i ≤ rtoHash) :
    S.tcp.rtoStore.rtoList i = [] := by
  have hsum := h.cnt.symm.trans hcnt
  rw [Int.natCast_eq_zero, Finset.sum_eq_zero_iff] at hsum
  exact List.eq_nil_of_length_eq_zero (hsum i (Finset.mem_range.mpr (Nat.lt_add_one_of_le hi)))

/-- A store that holds a stream stands at a bucket of the wheel. -/
theorem Stack.RtoInv.cnt_ne (h : S.RtoInv) (hi : i ≤ rtoHash)
    (ha : a ∈ S.tcp.rtoStore.rtoList i) : S.tcp.rtoListCnt ≠ 0 := by
  intro hcnt
  rw [h.empty hcnt hi] at ha
  cases ha

/-- What has to be shown of a call. -/
def RtoOp.Right (S : Stack ρ) (op : RtoOp) : Prop :=
  (S.exec op).RtoInv ∧ (S.OnTime → ((S.exec op).OnTime ↔ op.Fits S))

/-- A call that changes nothing. -/
theorem RtoOp.Right.of_eq {op : RtoOp} (h : S.RtoInv) (heq : S.exec op = S) (hfits : op.Fits S) :
    op.Right S := by
  unfold RtoOp.Right
  rw [heq]
  exact ⟨h, fun hon => iff_of_true hon hfits⟩

theorem setTsRto_right (h : S.RtoInv) (x : Addr) (ts : U32) : (RtoOp.setTsRto x ts).Right S := by
  cases hs : S.stream x with
  | none =>
    refine .of_eq h ?_ trivial
    unfold Stack.exec
    exact Stack.onStream_none hs _
  | some s =>
    have hs' : S.stream s.addr = some s := (h.addr x s hs).symm ▸ hs
    have heq := Stack.onStream_some hs fun c =>
      if c.stream.onRtoIdx < 0 then c.modSnd fun snd => { snd with tsRto := ts } else c
    change S.exec (.setTsRto x ts) = _ at heq
    by_cases hidx : s.onRtoIdx < 0
    · rw [if_pos (show (S.conn s).stream.onRtoIdx < 0 from hidx)] at heq
      unfold RtoOp.Right
      rw [heq]
      have hmark : Function.update S.rtoMarks s.addr s.rtoMark = S.rtoMarks := by
        rw [Function.update_eq_self_iff, Stack.rtoMarks_of_stream hs']
      refine ⟨h.put (hmark.symm ▸ h.placed) (h.high x s hs) h.cnt h.idx, fun hon => ?_⟩
      refine iff_of_true (Stack.onTime_put.mpr ⟨fun i _ hmem => ?_, fun i b t _ => hon i b t⟩) trivial
      -- the stream is in no bucket, so its new deadline is not looked at
      have := (h.mem_iff hs').mp hmem
      omega
    · rw [if_neg (show ¬(S.conn s).stream.onRtoIdx < 0 from hidx), Stack.put_conn hs'] at heq
      exact .of_eq h heq trivial

/-- What `add_to_rto_list` does to a stream that is out of the store. -/
theorem addToRtoList_out (hidx : s.onRtoIdx < 0) :
    addToRtoList (S.conn s) =
      (let store := startRto S.tcp s.snd.tsRto
       let offset := rtoOffset store s.snd.tsRto
       { tcp := { S.tcp with
           rtoStore := { store with
             rtoList := Function.update store.rtoList offset (store.rtoList offset ++ [s.addr]) }
           rtoListCnt := S.tcp.rtoListCnt + 1 }
         stream := { s with onRtoIdx := offset }
         log := [] }) := by
  unfold addToRtoList startRto
  by_cases hcnt : S.tcp.rtoListCnt = 0
  · rw [if_pos hcnt, if_pos (show (S.conn s).tcp.rtoListCnt = 0 from hcnt)]
    exact if_pos hidx
  · rw [if_neg hcnt, if_neg (show ¬(S.conn s).tcp.rtoListCnt = 0 from hcnt)]
    exact if_pos hidx

theorem startRto_rtoList (tcp : TcpManager) (ts : U32) :
    (startRto tcp ts).rtoList = tcp.rtoStore.rtoList := by
  unfold startRto
  split
  · rfl
  · rfl

theorem startRto_idx (h : S.RtoInv) (ts : U32) : (startRto S.tcp ts).rtoNowIdx.toNat < rtoHash := by
  unfold startRto
  split
  · exact (show (0 : U32).toNat < rtoHash by decide)
  · next hcnt => exact h.idx hcnt

/-- A store that holds streams does not start over. -/
theorem startRto_of_mem (h : S.RtoInv) (hi : i ≤ rtoHash) (ha : a ∈ S.tcp.rtoStore.rtoList i) (ts : U32) :
    startRto S.tcp ts = S.tcp.rtoStore :=
  if_neg (h.cnt_ne hi ha)

/-- `add_to_rto_list` on a stream that is out of the store fits when the stream comes in place. -/
theorem add_fits_iff (h : S.RtoInv) (hs : S.stream x = some s) (hidx : s.onRtoIdx < 0) :
    (RtoOp.add x).Fits S ↔
      (rtoOffset (startRto S.tcp s.snd.tsRto) s.snd.tsRto < rtoHash →
        InPlace (startRto S.tcp s.snd.tsRto) (rtoOffset (startRto S.tcp s.snd.tsRto) s.snd.tsRto)
          s.snd.tsRto) := by
  rw [inPlace_offset_iff (startRto_idx h _)]
  constructor
  · exact fun hfits => hfits s hs hidx
  · intro hmod t ht _
    obtain rfl : s = t := Option.some.inj (hs.symm.trans ht)
    exact hmod

/-- A stream in the store stays where it is. -/
theorem addToRtoList_in (h : S.RtoInv) (hs : S.stream s.addr = some s) (hidx : ¬s.onRtoIdx < 0) :
    addToRtoList (S.conn s) = S.conn s := by
  have hcnt : S.tcp.rtoListCnt ≠ 0 := by
    have hhigh := h.high s.addr s hs
    exact h.cnt_ne (i := s.onRtoIdx.toNat) (by omega) ((h.mem_iff hs).mpr (by omega))
  unfold addToRtoList
  rw [if_neg (show ¬(S.conn s).tcp.rtoListCnt = 0 from hcnt)]
  exact if_neg hidx

/-- A stream that was out of the store is put into a bucket. The streams are in place when it is, and
the others are. -/
theorem onTime_append (h : S.RtoInv) (hmark : S.rtoMarks c.stream.addr = none)
    (hlist : c.tcp.rtoStore.rtoList =
      Function.update S.tcp.rtoStore.rtoList i (S.tcp.rtoStore.rtoList i ++ [c.stream.addr]))
    (hothers : ∀ j b t, j < rtoHash → b ∈ S.tcp.rtoStore.rtoList j → S.stream b = some t →
      InPlace c.tcp.rtoStore j t.snd.tsRto) :
    (S.put c).OnTime ↔ (i < rtoHash → InPlace c.tcp.rtoStore i c.stream.snd.tsRto) := by
  rw [Stack.onTime_put, hlist]
  constructor
  · intro hput hlt
    refine hput.1 i hlt ?_
    rw [Function.update_self]
    exact List.mem_append_right _ (List.mem_singleton_self _)
  · intro hplace
    refine ⟨fun j hj hmem => ?_, fun j b t hb hj hmem ht => ?_⟩
    · by_cases hji : j = i
      · subst hji
        exact hplace hj
      · -- it was in no other bucket before
        rw [Function.update_of_ne hji, h.placed.mem_iff, hmark] at hmem
        cases hmem
    · refine hothers j b t hj ?_ ht
      by_cases hji : j = i
      · subst hji
        rw [Function.update_self, List.mem_append, List.mem_singleton] at hmem
        exact hmem.resolve_right hb
      · rwa [Function.update_of_ne hji] at hmem

theorem add_right (h : S.RtoInv) (x : Addr) : (RtoOp.add x).Right S := by
  cases hs : S.stream x with
  | none =>
    refine .of_eq h (Stack.onStream_none hs _) fun s hs' => ?_
    rw [hs] at hs'
    cases hs'
  | some s =>
    have hs' : S.stream s.addr = some s := (h.addr x s hs).symm ▸ hs
    have heq := Stack.onStream_some hs addToRtoList
    change S.exec (.add x) = _ at heq
    by_cases hidx : s.onRtoIdx < 0
    · -- out of the store: what matters is the place that it gets
      rw [addToRtoList_out hidx] at heq
      have hmark := rtoMark_none hidx
      rw [← Stack.rtoMarks_of_stream hs'] at hmark
      have hle := rtoOffset_le (startRto S.tcp s.snd.tsRto) s.snd.tsRto
      unfold RtoOp.Right
      rw [heq, add_fits_iff h hs hidx]
      dsimp only
      rw [startRto_rtoList]
      refine ⟨h.put (h.placed.append hmark _) (Int.ofNat_le.mpr hle) ?_ fun _ => startRto_idx h _,
        fun hon => onTime_append h hmark rfl fun j b t hj hmem ht => ?_⟩
      · have hsum := Lib.sum_length_append S.tcp.rtoStore.rtoList
          (Finset.mem_range.mpr (Nat.lt_add_one_of_le hle)) s.addr
        dsimp only
        rw [hsum, h.cnt]
        push_cast
        rfl
      · have hin := hon j b t hj hmem ht
        rw [← startRto_of_mem h hj.le hmem s.snd.tsRto] at hin
        exact hin
    · -- in the store: nothing happens
      rw [addToRtoList_in h hs' hidx, Stack.put_conn hs'] at heq
      refine .of_eq h heq fun t ht hneg => ?_
      obtain rfl : s = t := Option.some.inj (hs.symm.trans ht)
      exact absurd hneg hidx

/-- What `remove_from_rto_list` does to a stream in bucket `i`. -/
theorem removeFromRtoList_in (hidx : s.onRtoIdx = i) :
    removeFromRtoList (S.conn s) =
      { tcp := { S.tcp with
          rtoStore := { S.tcp.rtoStore with
            rtoList := Function.update S.tcp.rtoStore.rtoList i
              ((S.tcp.rtoStore.rtoList i).erase s.addr) }
          rtoListCnt := S.tcp.rtoListCnt - 1 }
        stream := { s with onRtoIdx := -1 }
        log := [] } := by
  have hnat : i = s.onRtoIdx.toNat := by omega
  rw [hnat]
  exact if_neg (show ¬s.onRtoIdx < 0 by omega)

theorem remove_right (h : S.RtoInv) (x : Addr) : (RtoOp.remove x).Right S := by
  cases hs : S.stream x with
  | none => exact .of_eq h (Stack.onStream_none hs _) trivial
  | some s =>
    have hs' : S.stream s.addr = some s := (h.addr x s hs).symm ▸ hs
    have heq := Stack.onStream_some hs removeFromRtoList
    change S.exec (.remove x) = _ at heq
    by_cases hidx : s.onRtoIdx < 0
    · -- in no bucket: nothing happens
      have hconn : removeFromRtoList (S.conn s) = S.conn s := if_pos hidx
      rw [hconn, Stack.put_conn hs'] at heq
      exact .of_eq h heq trivial
    · -- out of its bucket, and the others stay where they are
      obtain ⟨i, hi⟩ := Int.eq_ofNat_of_zero_le (Int.not_lt.mp hidx)
      have hmem := (h.mem_iff hs').mpr hi
      have hle : i ≤ rtoHash := by
        have := h.high x s hs
        omega
      have hremove := h.placed.remove ((h.placed.mem_iff i s.addr).mp hmem)
      unfold RtoOp.Right
      rw [heq, removeFromRtoList_in hi]
      refine ⟨h.put hremove (show (-1 : ℤ) ≤ rtoHash by decide) ?_ fun _ => h.idx (h.cnt_ne hle hmem),
        fun hon => ?_⟩
      · have hsum := Lib.sum_length_erase _ (Finset.mem_range.mpr (Nat.lt_add_one_of_le hle)) hmem
        dsimp only
        rw [h.cnt, ← hsum]
        push_cast
        omega
      · -- what is left on the wheel was there before
        refine iff_of_true (Stack.onTime_put.mpr ⟨fun j _ hj => ?_, fun j b t hb hj hmem' ht => ?_⟩) trivial
        · rw [hremove.mem_iff, Function.update_self] at hj
          cases hj
        · refine hon j b t hj ?_ ht
          dsimp only at hmem'
          by_cases hji : j = i
          · subst hji
            rw [Function.update_self] at hmem'
            exact List.mem_of_mem_erase hmem'
          · rwa [Function.update_of_ne hji] at hmem'

theorem advance_right (h : S.RtoInv) : RtoOp.advance.Right S := by
  have hlt : (advanceRto S.tcp).rtoStore.rtoNowIdx.toNat < rtoHash := by
    change ((S.tcp.rtoStore.rtoNowIdx + 1) % BitVec.ofNat 32 rtoHash).toNat < rtoHash
    rw [BitVec.toNat_umod]
    exact Nat.mod_lt _ (by decide)
  refine ⟨⟨h.addr, h.placed, h.high, h.cnt, fun _ => hlt⟩, fun hon => ?_⟩
  have hstep : ∀ {i a s}, i < rtoHash → a ∈ S.tcp.rtoStore.rtoList i → S.stream a = some s →
      (InPlace (advanceRto S.tcp).rtoStore i s.snd.tsRto ↔
        ((s.snd.tsRto - S.tcp.rtoStore.rtoNowTs).toNat = rtoHash →
          i = S.tcp.rtoStore.rtoNowIdx.toNat)) :=
    fun hi hmem hs => inPlace_advance (h.idx (h.cnt_ne hi.le hmem)) hi (hon _ _ _ hi hmem hs)
  constructor
  · exact fun hput i a s hi hmem hs => (hstep hi hmem hs).mp (hput i a s hi hmem hs)
  · exact fun hfits i a s hi hmem hs => (hstep hi hmem hs).mpr (hfits i a s hi hmem hs)

theorem RtoOp.right (h : S.RtoInv) (op : RtoOp) : op.Right S := by
  cases op with
  | setTsRto x ts => exact setTsRto_right h x ts
  | add x => exact add_right h x
  | remove x => exact remove_right h x
  | advance => exact advance_right h

end Wheel

/-! ### Sequences of calls -/

/-- The store is empty. -/
structure Stack.NoneRetransmits (S : Stack ρ) : Prop where
  addr : ∀ a s, S.stream a = some s → s.addr = a
  buckets : ∀ i, S.tcp.rtoStore.rtoList i = []
  marks : ∀ a s, S.stream a = some s → s.onRtoIdx = -1
  cnt : S.tcp.rtoListCnt = 0

theorem Stack.NoneRetransmits.inv {S : Stack ρ} (h : S.NoneRetransmits) : S.RtoInv := by
  have hmarks : ∀ a, S.rtoMarks a = none := by
    intro a
    unfold Stack.rtoMarks
    cases hs : S.stream a with
    | none => rfl
    | some s => exact rtoMark_none (by rw [h.marks a s hs]; decide)
  refine ⟨h.addr, .empty hmarks h.buckets, fun a s hs => ?_, ?_, fun hcnt => absurd h.cnt hcnt⟩
  · rw [h.marks a s hs]
    decide
  · simp [h.cnt, h.buckets]

/-- **Retransmission wheel placement.** In a sequence of calls on an empty store, all streams on the wheel
are in place at every point, and so are met by the scan exactly at their deadlines, if and only if every
call fits. -/
theorem rtoWheel_iff (S : Stack ρ) (ops : List RtoOp) (h : S.NoneRetransmits) :
    (∀ pre, pre <+: ops → (pre.foldl Stack.exec S).OnTime) ↔
      ∀ pre op, pre ++ [op] <+: ops → op.Fits (pre.foldl Stack.exec S) := by
  have hstart : S.OnTime := by
    intro i a s _ hmem
    rw [h.buckets] at hmem
    cases hmem
  exact Lib.foldl_throughout_iff Stack.RtoInv Stack.OnTime (fun S op => op.Fits S)
    (fun S op hinv => (RtoOp.right hinv op).1) (fun S op hinv hon => (RtoOp.right hinv op).2 hon)
    h.inv hstart ops

/-- One stream, out of an empty store. -/
def oneStream : Stack Unit where
  tcp := { (default : TcpManager) with
    rtoStore := { rtoNowIdx := 0, rtoNowTs := 0, rtoList := fun _ => [] }
    rtoListCnt := 0 }
  stream := fun a =>
    if a = 0 then some { (default : Stream Unit) with addr := 0, onRtoIdx := -1 } else none
  socket := fun _ => false

theorem oneStream_noneRetransmits : oneStream.NoneRetransmits := by
  have hstream : ∀ a s, oneStream.stream a = some s →
      a = 0 ∧ { (default : Stream Unit) with addr := 0, onRtoIdx := -1 } = s := by
    intro a s hs
    change (if a = 0 then _ else none) = some s at hs
    split at hs
    · next ha => exact ⟨ha, Option.some.inj hs⟩
    · cases hs
  refine ⟨fun a s hs => ?_, fun _ => rfl, fun a s hs => ?_, rfl⟩
  · obtain ⟨rfl, rfl⟩ := hstream a s hs
    rfl
  · obtain ⟨rfl, rfl⟩ := hstream a s hs
    rfl

/-- Two streams, out of an empty store. -/
def twoTimed : Stack Unit where
  tcp := oneStream.tcp
  stream := fun a =>
    if a < 2 then some { (default : Stream Unit) with addr := a, onRtoIdx := -1 } else none
  socket := fun _ => false

theorem twoTimed_noneRetransmits : twoTimed.NoneRetransmits := by
  have hstream : ∀ a s, twoTimed.stream a = some s →
      { (default : Stream Unit) with addr := a, onRtoIdx := -1 } = s := by
    intro a s hs
    change (if a < 2 then _ else none) = some s at hs
    split at hs
    · exact Option.some.inj hs
    · cases hs
  refine ⟨fun a s hs => ?_, fun _ => rfl, fun a s hs => ?_, rfl⟩
  · obtain rfl := hstream a s hs
    rfl
  · obtain rfl := hstream a s hs
    rfl

/-- Two streams go onto the wheel, the first with a deadline that is a multiple of `RTO_HASH`, and the scan
takes a step. -/
def wheelCalls : List RtoOp := [.setTsRto 0 6000, .add 0, .setTsRto 1 6002, .add 1, .advance]

/-- Both are in place throughout, the second one two buckets on. -/
theorem rtoWheel_iff_two :
    (∀ pre : List RtoOp, pre <+: wheelCalls → (pre.foldl Stack.exec twoTimed).OnTime) ∧
      (wheelCalls.foldl Stack.exec twoTimed).tcp.rtoStore.rtoList 0 = [0] ∧
      (wheelCalls.foldl Stack.exec twoTimed).tcp.rtoStore.rtoList 2 = [1] := by
  refine ⟨(rtoWheel_iff twoTimed wheelCalls twoTimed_noneRetransmits).mpr ?_, rfl, rfl⟩
  -- the first stream starts the wheel at bucket `0`, the second one is two ticks behind it
  have hfits : ∀ {S : Stack Unit} {x : Addr} {ts : U32} {store : RtoHashstore},
      (S.stream x).map (fun s => s.snd.tsRto) = some ts → startRto S.tcp ts = store →
      ts.toNat % rtoHash = (store.rtoNowIdx.toNat + (ts - store.rtoNowTs).toNat) % rtoHash →
      (RtoOp.add x).Fits S := by
    intro S x ts store hmap hstart hmod s hs _
    rw [hs] at hmap
    obtain rfl := Option.some.inj hmap
    rw [hstart]
    exact fun _ => hmod
  simp only [wheelCalls, Lib.forall_prefix_cons_iff]
  refine ⟨trivial, hfits rfl rfl (by decide), trivial, hfits rfl rfl (by decide), ?_, Lib.forall_prefix_nil⟩
  -- neither deadline is a turn of the wheel away
  rintro i (_ | _ | a) s - - hs hback
  · obtain rfl := Option.some.inj hs
    exact absurd hback (by decide)
  · obtain rfl := Option.some.inj hs
    exact absurd hback (by decide)
  · exact nomatch (show none = some s from hs)

/-- A stream whose deadline is at tick `1` goes into bucket `1` of the empty store, which stands at bucket
`0` at this tick. -/
theorem rtoWheel_misplaces :
    oneStream.NoneRetransmits ∧
      ¬∀ pre : List RtoOp, pre <+: [.setTsRto 0 1, .add 0] →
        (pre.foldl Stack.exec oneStream).OnTime := by
  refine ⟨oneStream_noneRetransmits, fun h => ?_⟩
  have hlast := h _ (List.prefix_refl _)
  have hplace := hlast 1 0 _ (by decide) List.mem_cons_self rfl
  exact absurd (hplace (by decide)).1 (by decide)

end CmtTcp
