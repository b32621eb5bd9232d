import CmtTcp.Tcp.RtoWheel

/-!
# The last bucket of the retransmission store

Deadlines that are a turn of the wheel or more ahead wait in bucket `RTO_HASH`, until
`rearrange_rto_store` finds that they have come near enough to go to their place on the wheel (`placeOf`).

The function takes the difference to `rto_now_ts` the other way round. So it takes streams out of the
bucket whatever time they have left, and puts a stream with `d` ticks to go `d` buckets behind the scan and not
ahead of it. `rearrange_iff` says for which deadlines this makes no difference.
-/

namespace CmtTcp

open Lib (Outcome Placed)

variable {ρ : Type}

/-! ### Places -/

/-- The ticks from `rto_now_ts` to a deadline. -/
def RtoHashstore.ticks (store : RtoHashstore) (tsRto : U32) : ℕ := (tsRto - store.rtoNowTs).toNat

/-- The bucket for a deadline: less than a turn ahead it is as many buckets ahead, and otherwise the
last one. -/
def RtoHashstore.placeOf (store : RtoHashstore) (tsRto : U32) : ℕ :=
  if store.ticks tsRto < rtoHash then (store.rtoNowIdx.toNat + store.ticks tsRto) % rtoHash
  else rtoHash

/-- The bucket that `rearrange_rto_store` chooses. -/
def RtoHashstore.rearrangedIdx (store : RtoHashstore) (tsRto : U32) : ℕ :=
  if (store.rtoNowTs - tsRto).toInt < rtoHash then
    ((store.rtoNowTs - tsRto + store.rtoNowIdx) % BitVec.ofNat 32 rtoHash).toNat
  else rtoHash

/-- From `S` to `S'` every stream of the last bucket came to the place for its deadline, and nothing else
happened: no stream was lost or linked twice. -/
structure Rearranged (S S' : Stack ρ) : Prop where
  /-- the buckets hold the streams where they say they are, each once -/
  placed : Placed S'.rtoMarks S'.tcp.rtoStore.rtoList
  overflow : ∀ a s, S.stream a = some s → a ∈ S.tcp.rtoStore.rtoList rtoHash →
    S'.stream a = some { s with onRtoIdx := S.tcp.rtoStore.placeOf s.snd.tsRto }
  others : ∀ a, a ∉ S.tcp.rtoStore.rtoList rtoHash → S'.stream a = S.stream a
  clock : S'.tcp.rtoStore.rtoNowIdx = S.tcp.rtoStore.rtoNowIdx ∧
    S'.tcp.rtoStore.rtoNowTs = S.tcp.rtoStore.rtoNowTs ∧ S'.tcp.rtoListCnt = S.tcp.rtoListCnt

/-- For a scan that stands at bucket `idx`, a deadline that is `d` ticks ahead is as many buckets ahead as it is
behind; or it is so far ahead that the difference the other way round is a turn or more, too. -/
def KeepsDeadline (idx d : ℕ) : Prop :=
  d ≤ idx ∧ (d = 0 ∨ d = 1500) ∨ idx < d ∧ (d = 1148 ∨ d = 2648) ∨
    2 ^ 31 < d ∧ d ≤ 2 ^ 32 - rtoHash

instance KeepsDeadline.decidable (idx d : ℕ) : Decidable (KeepsDeadline idx d) := by
  unfold KeepsDeadline
  infer_instance

section Places

variable {store : RtoHashstore} {ts : U32}

/-- The difference the other way round. -/
theorem RtoHashstore.toNat_back (store : RtoHashstore) (ts : U32) :
    (store.rtoNowTs - ts).toNat = (2 ^ 32 - store.ticks ts) % 2 ^ 32 := by
  unfold RtoHashstore.ticks
  bv_omega

theorem RtoHashstore.back_lt_iff (store : RtoHashstore) (ts : U32) :
    (store.rtoNowTs - ts).toInt < rtoHash ↔
      store.ticks ts ≤ 2 ^ 31 ∨ 2 ^ 32 - rtoHash < store.ticks ts := by
  have hback := store.toNat_back ts
  have hlt : store.ticks ts < 2 ^ 32 := (ts - store.rtoNowTs).isLt
  rw [BitVec.toInt_eq_toNat_cond, hback]
  unfold rtoHash
  split
  · omega
  · omega

/-- Less than a turn ahead, the bucket is as many buckets behind the scan. Below bucket `0` it goes on at
bucket `2 ^ 32 % RTO_HASH`, which is `2296`. -/
theorem RtoHashstore.rearrangedIdx_near (hidx : store.rtoNowIdx.toNat < rtoHash)
    (hd : store.ticks ts < rtoHash) :
    store.rearrangedIdx ts =
      if store.ticks ts ≤ store.rtoNowIdx.toNat then store.rtoNowIdx.toNat - store.ticks ts
      else (store.rtoNowIdx.toNat + 3000 + 2296 - store.ticks ts) % 3000 := by
  have hmove : (store.rtoNowTs - ts).toInt < rtoHash :=
    (store.back_lt_iff ts).mpr (.inl (hd.le.trans (by decide)))
  have hsum : (store.rtoNowTs - ts + store.rtoNowIdx).toNat =
      if store.ticks ts ≤ store.rtoNowIdx.toNat then store.rtoNowIdx.toNat - store.ticks ts
      else 2 ^ 32 + store.rtoNowIdx.toNat - store.ticks ts := by
    rw [BitVec.toNat_add, store.toNat_back ts]
    unfold rtoHash at *
    split
    · omega
    · omega
  unfold RtoHashstore.rearrangedIdx
  rw [if_pos hmove, BitVec.toNat_umod, hsum]
  change (if store.ticks ts ≤ store.rtoNowIdx.toNat then _ else _) % 3000 = _
  unfold rtoHash at *
  split
  · exact Nat.mod_eq_of_lt (by omega)
  · omega

/-- The two buckets are the same exactly for these deadlines. -/
theorem RtoHashstore.rearrangedIdx_eq_iff (hidx : store.rtoNowIdx.toNat < rtoHash) :
    store.rearrangedIdx ts = store.placeOf ts ↔
      KeepsDeadline store.rtoNowIdx.toNat (store.ticks ts) := by
  have hback := store.back_lt_iff ts
  have hlt : store.ticks ts < 2 ^ 32 := (ts - store.rtoNowTs).isLt
  unfold KeepsDeadline RtoHashstore.placeOf
  by_cases hnear : store.ticks ts < rtoHash
  · rw [if_pos hnear, RtoHashstore.rearrangedIdx_near hidx hnear]
    generalize store.ticks ts = d at *
    generalize store.rtoNowIdx.toNat = idx at *
    unfold rtoHash at *
    split
    · omega
    · omega
  · -- the place is the last bucket, so the stream has to stay there
    rw [if_neg hnear]
    have hstay : store.rearrangedIdx ts = rtoHash ↔ ¬(store.rtoNowTs - ts).toInt < rtoHash := by
      unfold RtoHashstore.rearrangedIdx
      split
      · next hmove =>
        rw [BitVec.toNat_umod]
        exact iff_of_false (Nat.mod_lt _ (by decide)).ne (not_not_intro hmove)
      · next hmove => exact iff_of_true rfl hmove
    rw [hstay, hback]
    unfold rtoHash at *
    omega

end Places

/-! ### The walk -/

section Walk

variable {S S' : Stack ρ} {a : Addr} {s : Stream ρ}

/-- From `S` to `S'` the streams of `l` went to the buckets that the function chooses for them, and no other
stream changed. -/
structure Walked (S : Stack ρ) (l : List Addr) (S' : Stack ρ) : Prop where
  inv : S'.RtoInv
  moved : ∀ a s, a ∈ l → S.stream a = some s →
    S'.stream a = some { s with onRtoIdx := S.tcp.rtoStore.rearrangedIdx s.snd.tsRto }
  others : ∀ a, a ∉ l → S'.stream a = S.stream a
  clock : S'.tcp.rtoStore.rtoNowIdx = S.tcp.rtoStore.rtoNowIdx ∧
    S'.tcp.rtoStore.rtoNowTs = S.tcp.rtoStore.rtoNowTs ∧ S'.tcp.rtoListCnt = S.tcp.rtoListCnt

theorem rearrangedIdx_lt {store : RtoHashstore} {ts : U32}
    (hmove : (store.rtoNowTs - ts).toInt < rtoHash) : store.rearrangedIdx ts < rtoHash := by
  unfold RtoHashstore.rearrangedIdx
  rw [if_pos hmove, BitVec.toNat_umod]
  exact Nat.mod_lt _ (by decide)

/-- An entry that moves. -/
theorem rearrangeEntry_moves (hmove : (S.tcp.rtoStore.rtoNowTs - s.snd.tsRto).toInt < rtoHash) :
    rearrangeEntry S s =
      S.put
        { tcp := linkRto (unlinkRto S.tcp rtoHash s.addr)
            (S.tcp.rtoStore.rearrangedIdx s.snd.tsRto) s.addr
          stream := { s with onRtoIdx := S.tcp.rtoStore.rearrangedIdx s.snd.tsRto }
          log := [] } := by
  unfold rearrangeEntry RtoHashstore.rearrangedIdx
  dsimp only
  rw [if_pos hmove, if_pos hmove, BitVec.ofInt_toInt]
  rfl

theorem rearrangeEntry_walked (h : S.RtoInv) (hs : S.stream a = some s)
    (hmem : a ∈ S.tcp.rtoStore.rtoList rtoHash) : Walked S [a] (rearrangeEntry S s) := by
  obtain rfl := h.addr a s hs
  have hidx := (h.mem_iff hs).mp hmem
  by_cases hmove : (S.tcp.rtoStore.rtoNowTs - s.snd.tsRto).toInt < rtoHash
  · have hlt := rearrangedIdx_lt hmove
    rw [rearrangeEntry_moves hmove]
    generalize hoffset : S.tcp.rtoStore.rearrangedIdx s.snd.tsRto = offset at hlt ⊢
    -- off the last bucket, and then onto the other one
    have hplaced := (h.placed.remove ((h.placed.mem_iff _ _).mp hmem)).append
      (Function.update_self s.addr none S.rtoMarks) offset
    rw [Function.update_idem, ← rtoMark_some (s := { s with onRtoIdx := offset }) rfl] at hplaced
    refine ⟨h.put hplaced (Int.ofNat_le.mpr hlt.le) ?_ fun _ => h.idx (h.cnt_ne le_rfl hmem),
      fun b t hb ht => ?_, fun b hb => ?_, rfl, rfl, rfl⟩
    · have herase := Lib.sum_length_erase S.tcp.rtoStore.rtoList
        (Finset.mem_range.mpr (Nat.lt_succ_self rtoHash)) hmem
      have happend := Lib.sum_length_append (Function.update S.tcp.rtoStore.rtoList rtoHash
        ((S.tcp.rtoStore.rtoList rtoHash).erase s.addr))
        (Finset.mem_range.mpr (Nat.lt_succ_of_lt hlt)) s.addr
      change S.tcp.rtoListCnt = _
      rw [h.cnt]
      exact congrArg Nat.cast (herase.symm.trans happend.symm)
    · obtain rfl := List.mem_singleton.mp hb
      obtain rfl : s = t := Option.some.inj (hs.symm.trans ht)
      rw [hoffset]
      exact Function.update_self _ _ _
    · exact Stack.put_stream_of_ne (mt List.mem_singleton.mpr hb)
  · have hstay : S.tcp.rtoStore.rearrangedIdx s.snd.tsRto = rtoHash := if_neg hmove
    have heq : rearrangeEntry S s = S := if_neg hmove
    rw [heq]
    refine ⟨h, fun b t hb ht => ?_, fun _ _ => rfl, rfl, rfl, rfl⟩
    obtain rfl := List.mem_singleton.mp hb
    obtain rfl : s = t := Option.some.inj (hs.symm.trans ht)
    rw [hstay, hs, ← hidx]

/-- The walk along the last bucket. -/
theorem rearrangeLoop_walked (l : List Addr) (S : Stack ρ) (h : S.RtoInv) (hnodup : l.Nodup)
    (hl : ∀ a ∈ l, a ∈ S.tcp.rtoStore.rtoList rtoHash) :
    ∃ S', rearrangeLoop l S = .ok S' ∧ Walked S l S' := by
  induction l generalizing S with
  | nil => exact ⟨S, rfl, h, fun _ _ hb => absurd hb List.not_mem_nil, fun _ _ => rfl, rfl, rfl, rfl⟩
  | cons walk next ih =>
    obtain ⟨hwalk, hnext⟩ := List.nodup_cons.mp hnodup
    have hmem := hl walk List.mem_cons_self
    obtain ⟨s, hs, -⟩ := Option.bind_eq_some_iff.mp ((h.placed.mem_iff _ _).mp hmem)
    have hentry := rearrangeEntry_walked h hs hmem
    -- what is left of the bucket is still in it
    have hrest : ∀ b ∈ next, b ∈ (rearrangeEntry S s).tcp.rtoStore.rtoList rtoHash := by
      intro b hb
      have hne : b ∉ [walk] := fun hb' => hwalk (List.mem_singleton.mp hb' ▸ hb)
      have hb' := (h.placed.mem_iff _ _).mp (hl b (List.mem_cons_of_mem _ hb))
      rw [hentry.inv.placed.mem_iff]
      unfold Stack.rtoMarks at hb' ⊢
      rwa [hentry.others b hne]
    obtain ⟨S', hloop, hS'⟩ := ih (rearrangeEntry S s) hentry.inv hnext hrest
    have hidx : ∀ ts, (rearrangeEntry S s).tcp.rtoStore.rearrangedIdx ts =
        S.tcp.rtoStore.rearrangedIdx ts := by
      intro ts
      unfold RtoHashstore.rearrangedIdx
      rw [hentry.clock.1, hentry.clock.2.1]
    refine ⟨S', ?_, hS'.inv, fun b t hb ht => ?_, fun b hb => ?_, hS'.clock.1.trans hentry.clock.1,
      hS'.clock.2.1.trans hentry.clock.2.1, hS'.clock.2.2.trans hentry.clock.2.2⟩
    · unfold rearrangeLoop Stack.deref
      rw [hs]
      exact hloop
    · rcases List.mem_cons.mp hb with rfl | hb
      · rw [hS'.others b hwalk, hentry.moved b t (List.mem_singleton_self b) ht]
      · have hne : b ∉ [walk] := fun hb' => hwalk (List.mem_singleton.mp hb' ▸ hb)
        rw [hS'.moved b t hb ((hentry.others b hne).trans ht), hidx]
    · rw [List.mem_cons, not_or] at hb
      rw [hS'.others b hb.2, hentry.others b (mt List.mem_singleton.mp hb.1)]

end Walk

/-- **Rearranging keeps deadlines.** On a store that holds the streams where they say they are,
`rearrange_rto_store` brings every stream of the last bucket to the place for its deadline if and only if
the other bucket that it chooses is that place for each of them. -/
theorem rearrange_iff (S : Stack ρ) (h : S.RtoInv) :
    (∃ S', rearrangeRtoStore S = .ok S' ∧ Rearranged S S') ↔
      ∀ a s, S.stream a = some s → a ∈ S.tcp.rtoStore.rtoList rtoHash →
        KeepsDeadline S.tcp.rtoStore.rtoNowIdx.toNat (S.tcp.rtoStore.ticks s.snd.tsRto) := by
  obtain ⟨S₁, hloop, hwalked⟩ := rearrangeLoop_walked _ S h (h.placed.nodup rtoHash) fun _ ha => ha
  have hiff : ∀ a (s : Stream ρ), a ∈ S.tcp.rtoStore.rtoList rtoHash →
      (S.tcp.rtoStore.rearrangedIdx s.snd.tsRto = S.tcp.rtoStore.placeOf s.snd.tsRto ↔
        KeepsDeadline S.tcp.rtoStore.rtoNowIdx.toNat (S.tcp.rtoStore.ticks s.snd.tsRto)) :=
    fun a s ha => RtoHashstore.rearrangedIdx_eq_iff (h.idx (h.cnt_ne le_rfl ha))
  constructor
  · rintro ⟨S', hS', hright⟩ a s hs ha
    obtain rfl : S₁ = S' := Except.ok.inj (hloop.symm.trans hS')
    have heq := (hwalked.moved a s ha hs).symm.trans (hright.overflow a s hs ha)
    have hidx := congrArg Stream.onRtoIdx (Option.some.inj heq)
    exact (hiff a s ha).mp (Int.ofNat.inj hidx)
  · intro hkeeps
    refine ⟨S₁, hloop, hwalked.inv.placed, fun a s hs ha => ?_, hwalked.others, hwalked.clock⟩
    rw [hwalked.moved a s ha hs, (hiff a s ha).mpr (hkeeps a s hs ha)]

/-- One stream, with its handshake under way, in bucket `i` of a store that stands at bucket `1000` at tick
`5000`. -/
def oneIn (i : ℕ) (tsRto : U32) : Stack Unit :=
  oneStream.put
    { tcp := { (default : TcpManager) with
        rtoStore := { rtoNowIdx := 1000, rtoNowTs := 5000,
                      rtoList := Function.update (fun _ => []) i [0] }
        rtoListCnt := 1 }
      stream := { (default : Stream Unit) with
        addr := 0, state := .synRcvd, onRtoIdx := i
        snd := { (default : SndVar) with tsRto := tsRto } }
      log := [] }

theorem oneIn_inv {i : ℕ} (hi : i ≤ rtoHash) (tsRto : U32) : (oneIn i tsRto).RtoInv := by
  have hempty := oneStream_noneRetransmits.inv
  have hsum := Lib.sum_length_append oneStream.tcp.rtoStore.rtoList
    (Finset.mem_range.mpr (Nat.lt_succ_of_le hi)) 0
  have hmark := rtoMark_some (s := (oneIn i tsRto).stream 0 |>.get rfl) rfl
  refine hempty.put (hmark ▸ hempty.placed.append rfl i) (Int.ofNat_le.mpr hi) ?_ fun _ =>
    (show (1000 : U32).toNat < rtoHash by decide)
  refine Eq.trans ?_ (congrArg Nat.cast hsum.symm)
  rw [Nat.cast_add, ← hempty.cnt]
  rfl

/-- It is the only stream of the store. -/
theorem oneIn_stream {i : ℕ} {tsRto : U32} {a : Addr} {s : Stream Unit}
    (hs : (oneIn i tsRto).stream a = some s) (hmark : 0 ≤ s.onRtoIdx) :
    s.onRtoIdx = i ∧ s.snd.tsRto = tsRto := by
  rcases Stack.stream_put hs with ⟨-, rfl⟩ | ⟨-, hs⟩
  · exact ⟨rfl, rfl⟩
  · have := oneStream_noneRetransmits.marks a s hs
    omega

/-- A stream whose deadline is now. -/
theorem rearrange_iff_now :
    ∃ S', rearrangeRtoStore (oneIn rtoHash 5000) = .ok S' ∧ Rearranged (oneIn rtoHash 5000) S' := by
  have hinv := oneIn_inv (i := rtoHash) le_rfl 5000
  refine (rearrange_iff (oneIn rtoHash 5000) hinv).mpr fun a s hs ha => ?_
  have hmark : 0 ≤ s.onRtoIdx := ((hinv.mem_iff hs).mp ha).symm ▸ Int.natCast_nonneg _
  rw [(oneIn_stream hs hmark).2]
  decide

/-- A stream with a hundred ticks to go is moved into the bucket a hundred behind the scan. -/
theorem rearrange_misplaces :
    ¬∀ S : Stack Unit, S.RtoInv → ∃ S', rearrangeRtoStore S = .ok S' ∧ Rearranged S S' := by
  intro h
  obtain ⟨S', hS', hright⟩ := h (oneIn rtoHash 5100) (oneIn_inv le_rfl 5100)
  cases hS'
  have heq := hright.overflow 0 _ rfl List.mem_cons_self
  have hidx := congrArg Stream.onRtoIdx (Option.some.inj heq)
  exact absurd hidx (by decide)

end CmtTcp
