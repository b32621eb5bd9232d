import CmtTcp.Lib.Drain
import CmtTcp.RingMp

/-!
# Many producers: who waits for whom

A producer publishes when `prod.tail` gets to the start of its reservation, so it waits for those that
reserved before it. The reservations lie behind one another from `prod.tail` to `prod.head` (`MpTiled`),
and the one that starts at `prod.tail` can always go on.

A producer that reserved nothing starts where the next one does. When the other publishes first,
`prod.tail` has passed the place the first waits for, and it waits until the indices come round.
`mpRing_completes_iff`: the calls under way can all return exactly when there is no such producer.
-/

namespace CmtTcp

open Lib (Guarded Run)
open Relation (ReflTransGen)

variable {τ α : Type*} [DecidableEq τ]

/-! ### The reservations side by side -/

/-- The position behind a reservation. -/
def Reservation.stop (res : Reservation) : ℕ := res.start + res.n.toNat

/-- The reservations lie behind one another, without a gap between `prod.tail` and `prod.head`. -/
structure MpTiled (s : MpSys τ α) : Prop where
  finite : {t | s.prods t ≠ .idle}.Finite
  apart : ∀ t u res res', t ≠ u → (s.prods t).reservation = some res →
    (s.prods u).reservation = some res' → res.stop ≤ res'.start ∨ res'.stop ≤ res.start
  covered : ∀ i, s.pos.prodTail ≤ i → i < s.pos.prodHead →
    ∃ t res, (s.prods t).reservation = some res ∧ res.Covers i

section Tiles

variable {base mask : ℕ} {s s' : MpSys τ α} {t : τ}

omit [DecidableEq τ] in
theorem MpTiled.initial (r : Ring α) (v : U32) : MpTiled (MpSys.initial r v : MpSys τ α) where
  finite := by simp [MpSys.initial]
  apart := nofun
  covered := fun i hi hlt => absurd hi (Nat.not_le.mpr hlt)

/-- At most one thread more is under way after one of them made a step. -/
theorem finite_setProd (h : {u | s.prods u ≠ .idle}.Finite) (t : τ) (pc : ProdPc α) :
    {u | (s.setProd t pc).prods u ≠ .idle}.Finite := by
  refine (h.insert t).subset fun u hu => ?_
  by_cases hut : u = t
  · exact .inl hut
  · change Function.update s.prods t pc u ≠ .idle at hu
    rw [Function.update_of_ne hut] at hu
    exact .inr hu

omit [DecidableEq τ] in
/-- Where nothing is reserved and nothing is published, the tiles stay. -/
theorem MpTiled.congr (h : MpTiled s) (hfin : {u | s'.prods u ≠ .idle}.Finite)
    (hres : ∀ u, (s'.prods u).reservation = (s.prods u).reservation)
    (hhead : s'.pos.prodHead = s.pos.prodHead) (htail : s'.pos.prodTail = s.pos.prodTail) :
    MpTiled s' where
  finite := hfin
  apart := by
    intro t u res res' htu ht hu
    rw [hres] at ht hu
    exact h.apart t u res res' htu ht hu
  covered := by
    intro i hi hlt
    rw [htail] at hi
    rw [hhead] at hlt
    obtain ⟨t, res, ht, hcov⟩ := h.covered i hi hlt
    exact ⟨t, res, (hres t).trans ht, hcov⟩

/-- A step of a thread that leaves its reservation as it is. -/
theorem MpTiled.setProd (h : MpTiled s) {pc : ProdPc α}
    (hpc : pc.reservation = (s.prods t).reservation) : MpTiled (s.setProd t pc) := by
  refine h.congr (finite_setProd h.finite t pc) (fun u => ?_) rfl rfl
  change (Function.update s.prods t pc u).reservation = _
  by_cases hut : u = t
  · subst hut
    rw [Function.update_self, hpc]
  · rw [Function.update_of_ne hut]

/-- The compare-and-set puts a tile behind the others. -/
theorem MpTiled.reserve (h : MpTiled s) (hinv : MpInv base mask s) {obj : ℕ → α} {max : U32}
    {res : Reservation} (hpc : s.prods t = .cas obj max res) (hstart : res.start = s.pos.prodHead) :
    MpTiled
      { s.setProd t (.copy obj res) with
        r := { s.r with prod := { s.r.prod with head := res.prodNext } }
        pos := { s.pos with prodHead := s.pos.prodHead + res.n.toNat } } where
  finite := finite_setProd h.finite t _
  apart := by
    -- the others end at the old `prod.head` at the latest
    have hend : ∀ u res', (s.prods u).reservation = some res' → res'.stop ≤ res.start := by
      intro u res' hu
      rw [hstart]
      exact (hinv.reservation_ok hu).le_prodHead
    intro u w res₁ res₂ huw hu hw
    change (Function.update s.prods t _ u).reservation = _ at hu
    change (Function.update s.prods t _ w).reservation = _ at hw
    by_cases hut : u = t
    · subst hut
      rw [Function.update_self] at hu
      rw [Function.update_of_ne huw.symm] at hw
      obtain rfl := Option.some.inj hu
      exact .inr (hend w res₂ hw)
    · rw [Function.update_of_ne hut] at hu
      by_cases hwt : w = t
      · subst hwt
        rw [Function.update_self] at hw
        obtain rfl := Option.some.inj hw
        exact .inl (hend u res₁ hu)
      · rw [Function.update_of_ne hwt] at hw
        exact h.apart u w res₁ res₂ huw hu hw
  covered := by
    intro i hi hlt
    by_cases hold : i < s.pos.prodHead
    · obtain ⟨u, res', hu, hcov⟩ := h.covered i hi hold
      -- the thread that reserves held nothing
      have hut : u ≠ t := by
        rintro rfl
        rw [hpc] at hu
        cases hu
      refine ⟨u, res', ?_, hcov⟩
      change (Function.update s.prods t _ u).reservation = _
      rwa [Function.update_of_ne hut]
    · refine ⟨t, res, ?_, by omega, by rw [hstart]; exact hlt⟩
      change (Function.update s.prods t _ t).reservation = _
      rw [Function.update_self]
      rfl

/-- The store of `prod.tail` takes the first tile away. -/
theorem MpTiled.publish (h : MpTiled s) {res : Reservation} (hpc : s.prods t = .store res)
    (hstart : s.pos.prodTail = res.start) :
    MpTiled
      { s.setProd t .idle with
        r := { s.r with prod := { s.r.prod with tail := res.prodNext } }
        pos := { s.pos with prodTail := res.start + res.n.toNat } } := by
  -- the other producers keep their reservations
  have hother : ∀ u res', ((s.setProd t .idle).prods u).reservation = some res' →
      u ≠ t ∧ (s.prods u).reservation = some res' := by
    intro u res' hu
    change (Function.update s.prods t .idle u).reservation = _ at hu
    by_cases hut : u = t
    · subst hut
      rw [Function.update_self] at hu
      cases hu
    · rw [Function.update_of_ne hut] at hu
      exact ⟨hut, hu⟩
  refine ⟨finite_setProd h.finite t _, ?_, ?_⟩
  · intro u w res₁ res₂ huw hu hw
    exact h.apart u w res₁ res₂ huw (hother u res₁ hu).2 (hother w res₂ hw).2
  · intro i hi hlt
    change res.start + res.n.toNat ≤ i at hi
    obtain ⟨u, res', hu, hcov⟩ := h.covered i (by omega) hlt
    -- the tile that was published ends before `i`
    have hut : u ≠ t := by
      rintro rfl
      rw [hpc] at hu
      obtain rfl := Option.some.inj hu
      exact absurd hcov.2 (Nat.not_lt.mpr hi)
    refine ⟨u, res', ?_, hcov⟩
    change (Function.update s.prods t .idle u).reservation = _
    rwa [Function.update_of_ne hut]

omit [DecidableEq τ] in
/-- The consumer leaves the producers alone. -/
theorem consNext_prods (hs : s.consNext = some s') : s'.prods = s.prods := by
  unfold MpSys.consNext at hs
  split at hs
  · cases hs
  · cases hs; rfl
  · split at hs <;> cases hs <;> rfl
  all_goals cases hs; rfl

omit [DecidableEq τ] in
/-- A compare-and-set that succeeds reserves from `prod.head` on: the word has not come round. -/
theorem MpInv.cas_start (h : MpInv base mask s) (hlt : s.pos.prodHead < base + 2 ^ 32)
    {obj : ℕ → α} {max : U32} {res : Reservation} (hpc : s.prods t = .cas obj max res)
    (hword : s.r.prod.head = res.prodHead) : res.start = s.pos.prodHead := by
  have hok := h.prods_ok t
  rw [hpc] at hok
  obtain ⟨hph, -, hbase, hle, -⟩ := hok
  have htail := h.base_le_prodTail.trans h.prodTail_le
  apply eq_of_word_eq base _ hbase (by omega) htail hlt
  rw [← hph, ← hword, h.prodHead_eq]

/-- Every step but the excluded store keeps the tiles. -/
theorem MpTiled.step (h : MpTiled s) (hinv : MpInv base mask s)
    (hlt : s.pos.prodHead < base + 2 ^ 32) {l : MpLabel τ α}
    (hs : Guarded MpGuard MpStep s l s') : MpTiled s' := by
  obtain ⟨hguard, hs⟩ := hs
  cases hs with
  | prodCall t obj n hidle => exact h.setProd (by rw [hidle]; rfl)
  | consCall obj n hidle => exact h.congr h.finite (fun _ => rfl) rfl rfl
  | consNext hs =>
    have hprods := consNext_prods hs
    obtain ⟨hhead, htail⟩ := consNext_pos hs
    exact h.congr (by rw [hprods]; exact h.finite) (fun u => by rw [hprods]) hhead htail
  | prodNext t hs =>
    unfold MpSys.prodNext at hs
    cases hpc : s.prods t with
    | idle => rw [hpc] at hs; cases hs
    | readHead obj max =>
      rw [hpc] at hs
      obtain rfl := Option.some.inj hs
      exact h.setProd (by rw [hpc]; rfl)
    | readTail obj max prodHead start =>
      rw [hpc] at hs
      obtain rfl := Option.some.inj hs
      exact h.setProd (by rw [hpc]; rfl)
    | cas obj max res =>
      rw [hpc] at hs
      dsimp only at hs
      split at hs
      · next hword =>
        obtain rfl := Option.some.inj hs
        exact h.reserve hinv hpc (hinv.cas_start hlt hpc hword)
      · obtain rfl := Option.some.inj hs
        exact h.setProd (by rw [hpc]; rfl)
    | copy obj res =>
      rw [hpc] at hs
      obtain rfl := Option.some.inj hs
      -- what is in the slots does not matter here
      have hset : MpTiled (s.setProd t (.test res)) := h.setProd (by rw [hpc]; rfl)
      exact hset.congr hset.finite (fun _ => rfl) rfl rfl
    | test res =>
      rw [hpc] at hs
      dsimp only at hs
      split at hs
      · obtain rfl := Option.some.inj hs
        exact h
      · obtain rfl := Option.some.inj hs
        exact h.setProd (by rw [hpc]; rfl)
    | store res =>
      rw [hpc] at hs
      obtain rfl := Option.some.inj hs
      exact h.publish hpc (hinv.prodTail_eq_start hlt hguard hpc)

end Tiles

/-! ### A producer on its own -/

/-- A step of a producer that the guard allows. -/
def ProdStep (s s' : MpSys τ α) : Prop :=
  ∃ t, Guarded MpGuard MpStep s (.prodNext t) s'

/-- What holds of a system with room for the objects of the calls under way. -/
structure MpRoom (base mask : ℕ) (s : MpSys τ α) : Prop where
  inv : MpInv base mask s
  tiled : MpTiled s
  room : s.pos.consTail + mask < base + 2 ^ 32

/-- The producers' steps lead from `s` to `s'`, where thread `t` has returned and the others are where they
were. -/
structure Returns (s : MpSys τ α) (t : τ) (s' : MpSys τ α) : Prop where
  steps : ReflTransGen ProdStep s s'
  prods : s'.prods = Function.update s.prods t .idle

section Alone

variable {base mask : ℕ} {s s' : MpSys τ α} {t : τ} {obj : ℕ → α} {max : U32} {res : Reservation}

omit [DecidableEq τ] in
theorem MpRoom.bound (h : MpRoom base mask s) : s.pos.prodHead < base + 2 ^ 32 :=
  h.inv.prodHead_le.trans_lt h.room

/-- The producers give no slot back. -/
theorem prodNext_consTail (hs : s.prodNext t = some s') : s'.pos.consTail = s.pos.consTail := by
  unfold MpSys.prodNext at hs
  split at hs
  · cases hs
  · cases hs; rfl
  · cases hs; rfl
  · split at hs <;> cases hs <;> rfl
  · cases hs; rfl
  · split at hs <;> cases hs <;> rfl
  · cases hs; rfl

theorem MpRoom.step (h : MpRoom base mask s) (hmask : mask < 2 ^ 32) (hs : ProdStep s s') :
    MpRoom base mask s' := by
  obtain ⟨t, hs⟩ := hs
  have htail : s'.pos.consTail = s.pos.consTail := by
    obtain ⟨-, ⟨⟩⟩ := hs
    exact prodNext_consTail ‹_›
  refine ⟨h.inv.step hmask h.bound hs, h.tiled.step h.inv h.bound hs, ?_⟩
  rw [htail]
  exact h.room

theorem MpRoom.steps (h : MpRoom base mask s) (hmask : mask < 2 ^ 32)
    (hs : ReflTransGen ProdStep s s') : MpRoom base mask s' := by
  induction hs with
  | refl => exact h
  | tail _ hlast ih => exact ih.step hmask hlast

/-- A step that is not a store of `prod.tail`. -/
theorem ProdStep.of_next (hs : s.prodNext t = some s') (hstore : ∀ res, s.prods t ≠ .store res) :
    ProdStep s s' :=
  ⟨t, fun res hpc => absurd hpc (hstore res), .prodNext t hs⟩

/-- One more step in front, of the same thread. -/
theorem Returns.head {s₁ : MpSys τ α} (hs : s.prodNext t = some s₁)
    (hstore : ∀ res, s.prods t ≠ .store res) {pc : ProdPc α}
    (hprods : s₁.prods = Function.update s.prods t pc) (h : Returns s₁ t s') : Returns s t s' where
  steps := .head (.of_next hs hstore) h.steps
  prods := by rw [h.prods, hprods, Function.update_idem]

/-- The producer that `prod.tail` has come to stores it. -/
theorem store_returns (hpc : s.prods t = .store res) (hword : s.r.prod.tail = res.prodHead) :
    ∃ s', Returns s t s' ∧ s'.pos = { s.pos with prodTail := res.stop } := by
  have hnext : s.prodNext t = some
      { s.setProd t .idle with
        r := { s.r with prod := { s.r.prod with tail := res.prodNext } }
        pos := { s.pos with prodTail := res.start + res.n.toNat } } := by
    unfold MpSys.prodNext
    rw [hpc]
  have hguard : MpGuard s (.prodNext t) := by
    intro res' hres' _
    rw [hpc] at hres'
    cases hres'
    exact hword
  exact ⟨_, ⟨.single ⟨t, hguard, .prodNext t hnext⟩, rfl⟩, rfl⟩

theorem test_returns (hpc : s.prods t = .test res) (hword : s.r.prod.tail = res.prodHead) :
    ∃ s', Returns s t s' ∧ s'.pos = { s.pos with prodTail := res.stop } := by
  have hnext : s.prodNext t = some (s.setProd t (.store res)) := by
    unfold MpSys.prodNext
    rw [hpc]
    exact if_neg (not_not.mpr hword)
  have hstore : (s.setProd t (.store res)).prods t = .store res := Function.update_self ..
  obtain ⟨s', hret, hpos⟩ := store_returns hstore hword
  exact ⟨s', hret.head hnext (by rw [hpc]; exact nofun) rfl, hpos⟩

theorem copy_returns (hpc : s.prods t = .copy obj res) (hword : s.r.prod.tail = res.prodHead) :
    ∃ s', Returns s t s' ∧ s'.pos = { s.pos with prodTail := res.stop } := by
  have hnext : s.prodNext t = some
      { s.setProd t (.test res) with r := enqueueElms64 s.r res.prodHead obj res.n } := by
    unfold MpSys.prodNext
    rw [hpc]
  have htest : ({ s.setProd t (.test res) with
      r := enqueueElms64 s.r res.prodHead obj res.n } : MpSys τ α).prods t = .test res :=
    Function.update_self ..
  -- the copy does not touch `prod.tail`
  obtain ⟨s', hret, hpos⟩ := test_returns htest (by rw [enqueueElms64_prod]; exact hword)
  exact ⟨s', hret.head hnext (by rw [hpc]; exact nofun) rfl, hpos⟩

/-- The producer whose reservation starts at `prod.tail` publishes it and returns. -/
theorem MpInv.reserved_returns (h : MpInv base mask s) (hres : (s.prods t).reservation = some res)
    (hstart : s.pos.prodTail = res.start) :
    ∃ s', Returns s t s' ∧ s'.pos = { s.pos with prodTail := res.stop } := by
  have hword : s.r.prod.tail = res.prodHead := by
    rw [h.prodTail_eq, (h.reservation_ok hres).prodHead_eq, hstart]
  cases hpc : s.prods t <;> rw [hpc] at hres <;> cases hres
  · exact copy_returns hpc hword
  · exact test_returns hpc hword
  · exact store_returns hpc hword

/-- Where `prod.tail` is `prod.head`, a producer whose compare-and-set succeeds runs to its end. -/
theorem cas_returns (hpc : s.prods t = .cas obj max res) (hword : s.r.prod.head = res.prodHead)
    (htail : s.r.prod.tail = s.r.prod.head) : ∃ s', Returns s t s' := by
  have hnext : s.prodNext t = some
      { s.setProd t (.copy obj res) with
        r := { s.r with prod := { s.r.prod with head := res.prodNext } }
        pos := { s.pos with prodHead := s.pos.prodHead + res.n.toNat } } := by
    unfold MpSys.prodNext
    rw [hpc]
    exact if_pos hword
  have hcopy : ({ s.setProd t (.copy obj res) with
      r := { s.r with prod := { s.r.prod with head := res.prodNext } }
      pos := { s.pos with prodHead := s.pos.prodHead + res.n.toNat } } : MpSys τ α).prods t =
        .copy obj res := Function.update_self ..
  obtain ⟨s', hret, -⟩ := copy_returns hcopy (htail.trans hword)
  exact ⟨s', hret.head hnext (by rw [hpc]; exact nofun) rfl⟩

/-- From the start of the loop: nobody else moves `prod.head`. -/
theorem readHead_returns (hpc : s.prods t = .readHead obj max)
    (htail : s.r.prod.tail = s.r.prod.head) : ∃ s', Returns s t s' := by
  have hread : s.prodNext t =
      some (s.setProd t (.readTail obj max s.r.prod.head s.pos.prodHead)) := by
    unfold MpSys.prodNext
    rw [hpc]
  generalize hs₁ : s.setProd t (.readTail obj max s.r.prod.head s.pos.prodHead) = s₁ at hread
  have hpc₁ : s₁.prods t = .readTail obj max s.r.prod.head s.pos.prodHead := by
    rw [← hs₁]
    exact Function.update_self ..
  have hr₁ : s₁.r = s.r := by rw [← hs₁]; rfl
  let n := mpEntries s₁.r.prod.mask s₁.r.cons.tail s.r.prod.head max
  have hcount : s₁.prodNext t = some (s₁.setProd t (.cas obj max
      { prodHead := s.r.prod.head, n, prodNext := s.r.prod.head + n, start := s.pos.prodHead })) := by
    unfold MpSys.prodNext
    rw [hpc₁]
  obtain ⟨s', hret⟩ := @cas_returns _ _ _
    (s₁.setProd t (.cas obj max
      { prodHead := s.r.prod.head, n, prodNext := s.r.prod.head + n, start := s.pos.prodHead }))
    t obj max _ (Function.update_self ..) (congrArg (fun r => r.prod.head) hr₁)
    (by change s₁.r.prod.tail = s₁.r.prod.head; rw [hr₁]; exact htail)
  have hret₁ := hret.head hcount (by rw [hpc₁]; exact nofun) rfl
  exact ⟨s', hret₁.head hread (by rw [hpc]; exact nofun) (by rw [← hs₁]; rfl)⟩

/-- Where nothing is reserved, every producer can run to its end, also one that has read an old
`prod.head`: its compare-and-set fails, and it starts over. -/
theorem unreserved_returns (hidle : s.prods t ≠ .idle) (hres : (s.prods t).reservation = none)
    (htail : s.r.prod.tail = s.r.prod.head) : ∃ s', Returns s t s' := by
  -- from the compare-and-set on, in `s` or one step later
  have hcas : ∀ s₁ : MpSys τ α, s₁.r = s.r → ∀ obj max res, s₁.prods t = .cas obj max res →
      ∃ s', Returns s₁ t s' := by
    intro s₁ hr obj max res hpc
    by_cases hword : s₁.r.prod.head = res.prodHead
    · exact cas_returns hpc hword (by rw [hr]; exact htail)
    · -- another producer was first: the loop starts over, and now reads the head as it is
      have hnext : s₁.prodNext t = some (s₁.setProd t (.readHead obj max)) := by
        unfold MpSys.prodNext
        rw [hpc]
        exact if_neg hword
      have hhead : (s₁.setProd t (.readHead obj max)).prods t = .readHead obj max :=
        Function.update_self ..
      obtain ⟨s', hret⟩ := readHead_returns hhead
        (by change s₁.r.prod.tail = s₁.r.prod.head; rw [hr]; exact htail)
      exact ⟨s', hret.head hnext (by rw [hpc]; exact nofun) rfl⟩
  cases hpc : s.prods t with
  | idle => exact absurd hpc hidle
  | readHead obj max => exact readHead_returns hpc htail
  | readTail obj max prodHead start =>
    have hnext : s.prodNext t = some (s.setProd t (.cas obj max
        { prodHead, n := mpEntries s.r.prod.mask s.r.cons.tail prodHead max,
          prodNext := prodHead + mpEntries s.r.prod.mask s.r.cons.tail prodHead max, start })) := by
      unfold MpSys.prodNext
      rw [hpc]
    obtain ⟨s', hret⟩ := hcas (s.setProd t _) rfl obj max _ (Function.update_self ..)
    exact ⟨s', hret.head hnext (by rw [hpc]; exact nofun) rfl⟩
  | cas obj max res => exact hcas s rfl obj max res hpc
  -- behind the compare-and-set there is a reservation
  | copy obj res => rw [hpc] at hres; cases hres
  | test res => rw [hpc] at hres; cases hres
  | store res => rw [hpc] at hres; cases hres

end Alone

/-! ### All of them -/

/-- A step inside a call. -/
def MpLabel.Inner : MpLabel τ α → Prop
  | .prodNext _ | .consNext => True
  | .prodCall .. | .consCall .. => False

/-- The producers that hold a reservation. -/
def MpSys.reserved (s : MpSys τ α) : Set τ := {t | (s.prods t).reservation ≠ none}

/-- The producers whose call is under way. -/
def MpSys.underWay (s : MpSys τ α) : Set τ := {t | s.prods t ≠ .idle}

/-- No call is under way. -/
def MpSys.AtRest (s : MpSys τ α) : Prop := (∀ t, s.prods t = .idle) ∧ s.cons = .idle

/-- No reservation starts behind `prod.tail`. -/
def MpSys.NobodyPassed (s : MpSys τ α) : Prop :=
  ∀ t res, (s.prods t).reservation = some res → s.pos.prodTail ≤ res.start

/-- Steps inside the calls, which the guard allows, lead to a state in which all calls have returned,
before `prod.head` gets to `limit`. -/
def MpSys.Completes (limit : ℕ) (s : MpSys τ α) : Prop :=
  ∃ ls s', (∀ l ∈ ls, l.Inner) ∧ Run (Guarded MpGuard MpStep) s ls s' ∧ s'.AtRest ∧
    s'.pos.prodHead < limit

section All

variable {base mask : ℕ} {s s' : MpSys τ α} {t : τ} {res : Reservation}

/-- A step inside a call that the guard allows. -/
def InnerStep (s s' : MpSys τ α) : Prop := ∃ l : MpLabel τ α, l.Inner ∧ Guarded MpGuard MpStep s l s'

theorem exists_run_of_innerSteps (hs : ReflTransGen InnerStep s s') :
    ∃ ls, (∀ l ∈ ls, l.Inner) ∧ Run (Guarded MpGuard MpStep) s ls s' := by
  induction hs with
  | refl => exact ⟨[], nofun, .nil⟩
  | tail _ hlast ih =>
    obtain ⟨ls, hinner, hrun⟩ := ih
    obtain ⟨l, hl, hstep⟩ := hlast
    refine ⟨ls ++ [l], fun m hm => ?_, hrun.snoc hstep⟩
    rcases List.mem_append.mp hm with hm | hm
    · exact hinner m hm
    · rw [List.mem_singleton.mp hm]
      exact hl

theorem innerSteps_of_prodSteps (hs : ReflTransGen ProdStep s s') : ReflTransGen InnerStep s s' :=
  hs.lift id fun _ _ ⟨t, hstep⟩ => ⟨.prodNext t, trivial, hstep⟩

/-- Thread `t` is no longer under way. -/
theorem Returns.underWay_ssubset (h : Returns s t s') (ht : t ∈ s.underWay) :
    s'.underWay ⊂ s.underWay := by
  refine ⟨fun u hu => ?_, fun hsub => ?_⟩
  · by_cases hut : u = t
    · exact hut ▸ ht
    · change s'.prods u ≠ .idle at hu
      rwa [h.prods, Function.update_of_ne hut] at hu
  · have hidle : s'.prods t ≠ .idle := hsub ht
    rw [h.prods, Function.update_self] at hidle
    exact hidle rfl

/-- The reservations that are left. -/
theorem Returns.reservation (h : Returns s t s') {u : τ} (hu : (s'.prods u).reservation = some res) :
    u ≠ t ∧ (s.prods u).reservation = some res := by
  rw [h.prods] at hu
  by_cases hut : u = t
  · subst hut
    rw [Function.update_self] at hu
    cases hu
  · rw [Function.update_of_ne hut] at hu
    exact ⟨hut, hu⟩

theorem Returns.reserved_ssubset (h : Returns s t s') (ht : t ∈ s.reserved) :
    s'.reserved ⊂ s.reserved := by
  refine ⟨fun u hu => ?_, fun hsub => ?_⟩
  · obtain ⟨res, hu⟩ := Option.ne_none_iff_exists'.mp hu
    exact Option.ne_none_iff_exists'.mpr ⟨res, (h.reservation hu).2⟩
  · have hnot : (s'.prods t).reservation ≠ none := hsub ht
    rw [h.prods, Function.update_self] at hnot
    exact hnot rfl

omit [DecidableEq τ] in
/-- **Who can go on.** When somebody holds a reservation and nobody was passed, the reservation of
somebody starts at `prod.tail`, and none is left behind when it is published. -/
theorem MpRoom.exists_front (h : MpRoom base mask s) (hnobody : s.NobodyPassed)
    (hres : (s.prods t).reservation = some res) :
    ∃ u res', (s.prods u).reservation = some res' ∧ s.pos.prodTail = res'.start ∧
      ∀ w res₁, w ≠ u → (s.prods w).reservation = some res₁ → res'.stop ≤ res₁.start := by
  by_cases hempty : ∃ u res', (s.prods u).reservation = some res' ∧ s.pos.prodTail = res'.start ∧
      res'.n = 0
  · -- one of those that reserved nothing, if there are any: `prod.tail` stays
    obtain ⟨u, res', hu, hstart, hn⟩ := hempty
    refine ⟨u, res', hu, hstart, fun w res₁ _ hw => ?_⟩
    unfold Reservation.stop
    rw [hn, ← hstart]
    exact hnobody w res₁ hw
  · -- else `prod.tail` is a position somebody holds
    have hle := hnobody t res hres
    have hend := (h.inv.reservation_ok hres).le_prodHead
    have hlt : s.pos.prodTail < s.pos.prodHead := by
      by_contra hge
      refine hempty ⟨t, res, hres, by omega, BitVec.eq_of_toNat_eq ?_⟩
      change res.n.toNat = 0
      omega
    obtain ⟨u, res', hu, hfrom, hto⟩ := h.tiled.covered s.pos.prodTail le_rfl hlt
    have hstart : s.pos.prodTail = res'.start := le_antisymm (hnobody u res' hu) hfrom
    refine ⟨u, res', hu, hstart, fun w res₁ hwu hw => ?_⟩
    rcases h.tiled.apart u w res' res₁ hwu.symm hu hw with hbehind | hbefore
    · exact hbehind
    · -- what ends at `prod.tail` is empty, and there is none such
      have hw' := hnobody w res₁ hw
      unfold Reservation.stop at hbefore
      refine absurd ⟨w, res₁, hw, by omega, BitVec.eq_of_toNat_eq ?_⟩ hempty
      change res₁.n.toNat = 0
      omega

/-- Somebody publishes a reservation. -/
theorem MpRoom.publish_one (h : MpRoom base mask s) (hmask : mask < 2 ^ 32)
    (hnobody : s.NobodyPassed) (hsome : s.reserved.Nonempty) :
    ∃ s', ReflTransGen ProdStep s s' ∧ (MpRoom base mask s' ∧ s'.NobodyPassed) ∧
      s'.reserved ⊂ s.reserved := by
  obtain ⟨t, ht⟩ := hsome
  obtain ⟨res, hres⟩ := Option.ne_none_iff_exists'.mp ht
  obtain ⟨u, res', hu, hstart, hrest⟩ := h.exists_front hnobody hres
  obtain ⟨s', hret, hpos⟩ := h.inv.reserved_returns hu hstart
  refine ⟨s', hret.steps, ⟨h.steps hmask hret.steps, fun w res₁ hw => ?_⟩, ?_⟩
  · obtain ⟨hwu, hw⟩ := hret.reservation hw
    rw [hpos]
    exact hrest w res₁ hwu hw
  · exact hret.reserved_ssubset (Option.ne_none_iff_exists'.mpr ⟨res', hu⟩)

/-- The reservations are published one after the other. -/
theorem MpRoom.publish_all (h : MpRoom base mask s) (hmask : mask < 2 ^ 32)
    (hnobody : s.NobodyPassed) :
    ∃ s', ReflTransGen ProdStep s s' ∧ MpRoom base mask s' ∧ s'.reserved = ∅ := by
  have hfin : ∀ s : MpSys τ α, MpRoom base mask s ∧ s.NobodyPassed → s.reserved.Finite := by
    refine fun s hs => hs.1.tiled.finite.subset fun t ht hidle => ht ?_
    rw [hidle]
    rfl
  obtain ⟨s', hsteps, ⟨hroom, -⟩, hnone⟩ := Lib.exists_drained hfin
    (fun s hs => hs.1.publish_one hmask hs.2) ⟨h, hnobody⟩
  exact ⟨s', hsteps, hroom, hnone⟩

omit [DecidableEq τ] in
/-- Where nothing is reserved, `prod.tail` is `prod.head`. -/
theorem MpTiled.tail_eq_head (h : MpTiled s) (hinv : MpInv base mask s) (hnone : s.reserved = ∅) :
    s.pos.prodTail = s.pos.prodHead := by
  refine le_antisymm hinv.prodTail_le (Nat.not_lt.mp fun hlt => ?_)
  obtain ⟨t, res, ht, -⟩ := h.covered s.pos.prodTail le_rfl hlt
  refine Set.eq_empty_iff_forall_notMem.mp hnone t ?_
  exact Option.ne_none_iff_exists'.mpr ⟨res, ht⟩

/-- Where nothing is reserved, somebody returns. -/
theorem MpRoom.return_one (h : MpRoom base mask s) (hmask : mask < 2 ^ 32) (hnone : s.reserved = ∅)
    (hsome : s.underWay.Nonempty) :
    ∃ s', ReflTransGen ProdStep s s' ∧ (MpRoom base mask s' ∧ s'.reserved = ∅) ∧
      s'.underWay ⊂ s.underWay := by
  obtain ⟨t, ht⟩ := hsome
  have hno := Set.eq_empty_iff_forall_notMem.mp hnone
  have htail : s.r.prod.tail = s.r.prod.head := by
    rw [h.inv.prodTail_eq, h.inv.prodHead_eq, h.tiled.tail_eq_head h.inv hnone]
  obtain ⟨s', hret⟩ := unreserved_returns ht (not_not.mp (hno t)) htail
  refine ⟨s', hret.steps, ⟨h.steps hmask hret.steps, ?_⟩, hret.underWay_ssubset ht⟩
  refine Set.eq_empty_iff_forall_notMem.mpr fun u hu => hno u ?_
  obtain ⟨res, hu⟩ := Option.ne_none_iff_exists'.mp hu
  exact Option.ne_none_iff_exists'.mpr ⟨res, (hret.reservation hu).2⟩

/-- The producers return one after the other. -/
theorem MpRoom.return_all (h : MpRoom base mask s) (hmask : mask < 2 ^ 32)
    (hnone : s.reserved = ∅) :
    ∃ s', ReflTransGen ProdStep s s' ∧ MpRoom base mask s' ∧ ∀ t, s'.prods t = .idle := by
  have hfin : ∀ s : MpSys τ α, MpRoom base mask s ∧ s.reserved = ∅ → s.underWay.Finite :=
    fun s hs => hs.1.tiled.finite
  obtain ⟨s', hsteps, ⟨hroom, -⟩, hidle⟩ := Lib.exists_drained hfin
    (fun s hs => hs.1.return_one hmask hs.2) ⟨h, hnone⟩
  exact ⟨s', hsteps, hroom, fun t => not_not.mp (Set.eq_empty_iff_forall_notMem.mp hidle t)⟩

/-- Steps lead from `s` to `s'`, where the consumer has returned and the producers are where they were. -/
structure ConsReturns (s s' : MpSys τ α) : Prop where
  steps : ReflTransGen InnerStep s s'
  cons : s'.cons = .idle
  prods : s'.prods = s.prods
  prodHead : s'.pos.prodHead = s.pos.prodHead

/-- How many steps the consumer is away from its return, at most. -/
def ConsPc.left : ConsPc α → ℕ
  | .idle => 0
  | .storeTail .. => 1
  | .storeHead .. => 2
  | .copy .. => 3
  | .readTail .. => 4
  | .readHead .. => 5

omit [DecidableEq τ] in
/-- The consumer can always go on, and comes nearer to its return. -/
theorem consNext_left (hpc : s.cons ≠ .idle) :
    ∃ s', s.consNext = some s' ∧ s'.cons.left < s.cons.left := by
  unfold MpSys.consNext
  cases h : s.cons with
  | idle => exact absurd h hpc
  | readTail obj n consHead =>
    dsimp only
    split
    · exact ⟨_, rfl, Nat.zero_lt_succ 3⟩
    · exact ⟨_, rfl, Nat.lt_succ_self 3⟩
  | readHead obj n => exact ⟨_, rfl, Nat.lt_succ_self 4⟩
  | copy obj n consHead consNext => exact ⟨_, rfl, Nat.lt_succ_self 2⟩
  | storeHead obj n consNext => exact ⟨_, rfl, Nat.lt_succ_self 1⟩
  | storeTail obj consNext => exact ⟨_, rfl, Nat.lt_succ_self 0⟩

/-- The consumer waits for nobody. -/
theorem consumer_returns (s : MpSys τ α) : ∃ s', ConsReturns s s' := by
  induction hn : s.cons.left using Nat.strong_induction_on generalizing s with
  | _ n ih =>
    by_cases hpc : s.cons = .idle
    · exact ⟨s, .refl, hpc, rfl, rfl⟩
    obtain ⟨s₁, hs, hlt⟩ := consNext_left hpc
    obtain ⟨s', h⟩ := ih _ (hn ▸ hlt) s₁ rfl
    refine ⟨s', .head ⟨.consNext, trivial, trivial, .consNext hs⟩ h.steps, h.cons, ?_, ?_⟩
    · rw [h.prods, consNext_prods hs]
    · rw [h.prodHead, (consNext_pos hs).1]

/-- Everybody returns, when nobody was passed. -/
theorem MpRoom.completes (h : MpRoom base mask s) (hmask : mask < 2 ^ 32)
    (hnobody : s.NobodyPassed) : s.Completes (base + 2 ^ 32) := by
  obtain ⟨s₁, hsteps₁, hroom₁, hnone⟩ := h.publish_all hmask hnobody
  obtain ⟨s₂, hsteps₂, hroom₂, hidle⟩ := hroom₁.return_all hmask hnone
  obtain ⟨s₃, hcons⟩ := consumer_returns s₂
  obtain ⟨ls, hinner, hrun⟩ := exists_run_of_innerSteps
    ((innerSteps_of_prodSteps (hsteps₁.trans hsteps₂)).trans hcons.steps)
  refine ⟨ls, s₃, hinner, hrun, ⟨?_, hcons.cons⟩, ?_⟩
  · rw [hcons.prods]
    exact hidle
  · rw [hcons.prodHead]
    exact hroom₂.bound

/-! ### A producer that was passed -/

/-- It stays where it is. -/
theorem passed_step (hinv : MpInv base mask s) (hlt : s.pos.prodHead < base + 2 ^ 32)
    {l : MpLabel τ α} (hs : Guarded MpGuard MpStep s l s')
    (hres : (s.prods t).reservation = some res) (hpassed : res.start < s.pos.prodTail) :
    (s'.prods t).reservation = some res ∧ res.start < s'.pos.prodTail := by
  refine ⟨?_, hpassed.trans_le (hinv.step_mono hlt hs)⟩
  obtain ⟨hguard, hs⟩ := hs
  -- a step of another thread
  have hother : ∀ u pc, u ≠ t → ((s.setProd u pc).prods t).reservation = some res := by
    intro u pc hut
    change (Function.update s.prods u pc t).reservation = _
    rwa [Function.update_of_ne hut.symm]
  cases hs with
  | prodCall u obj n hidle =>
    refine hother u _ ?_
    rintro rfl
    rw [hidle] at hres
    cases hres
  | consCall obj n hidle => exact hres
  | consNext hs => rwa [consNext_prods hs]
  | prodNext u hs =>
    by_cases hut : u = t
    · subst hut
      have hself : ∀ pc : ProdPc α, pc.reservation = some res →
          ((s.setProd u pc).prods u).reservation = some res := by
        intro pc hpc
        change (Function.update s.prods u pc u).reservation = _
        rwa [Function.update_self]
      have hstart := hinv.reservation_ok hres
      unfold MpSys.prodNext at hs
      cases hpc : s.prods u <;> rw [hpc] at hs hres <;> cases hres
      · cases hs
        exact hself _ rfl
      · -- `prod.tail` is not where it waits for it
        dsimp only at hs
        split at hs
        · cases hs
          rw [hpc]
          rfl
        · next hword =>
          cases hs
          exact hself _ rfl
      · have htail := hinv.prodTail_eq_start hlt hguard hpc
        omega
    · unfold MpSys.prodNext at hs
      split at hs
      · cases hs
      · cases hs; exact hother u _ hut
      · cases hs; exact hother u _ hut
      · split at hs <;> cases hs <;> exact hother u _ hut
      · cases hs; exact hother u _ hut
      · split at hs
        · cases hs; exact hres
        · cases hs; exact hother u _ hut
      · cases hs; exact hother u _ hut

/-- No run brings it back. -/
theorem passed_run (hinv : MpInv base mask s) (hmask : mask < 2 ^ 32) {ls : List (MpLabel τ α)}
    (hrun : Run (Guarded MpGuard MpStep) s ls s') (hlt : s'.pos.prodHead < base + 2 ^ 32)
    (hres : (s.prods t).reservation = some res) (hpassed : res.start < s.pos.prodTail) :
    (s'.prods t).reservation = some res ∧ res.start < s'.pos.prodTail := by
  induction hrun with
  | nil => exact ⟨hres, hpassed⟩
  | snoc hrun hlast ih =>
    have hbound := hlast.2.prodHead_mono.trans_lt hlt
    obtain ⟨hres', hpassed'⟩ := ih hbound
    exact passed_step (hinv.run hmask hrun hbound).1 hbound hlast hres' hpassed'

end All

/-! ### Runs -/

section Runs

variable {k : ℕ} {r : Ring α} {v : U32} {s : MpSys τ α} {ls : List (MpLabel τ α)}

/-- The tiles in every run of fewer than `2^32` objects whose steps the guard allows. -/
theorem MpTiled.run {base mask : ℕ} {s s' : MpSys τ α} (h : MpTiled s) (hinv : MpInv base mask s)
    (hmask : mask < 2 ^ 32) (hrun : Run (Guarded MpGuard MpStep) s ls s')
    (hlt : s'.pos.prodHead < base + 2 ^ 32) : MpTiled s' := by
  induction hrun with
  | nil => exact h
  | snoc hrun hlast ih =>
    have hbound := hlast.2.prodHead_mono.trans_lt hlt
    exact (ih hbound).step (hinv.run hmask hrun hbound).1 hbound hlast

/-- **When the calls under way can return.** On a ring of `2^k` slots, take any state that a run of fewer
than `2^32` objects whose steps meet the guard leads to, with room to count the objects of the calls under
way. Steps inside the calls lead to a state in which all of them have returned if and only if `prod.tail`
has passed no reservation of a producer under way. One that was passed had reserved nothing, and waits in
every continuation. -/
theorem mpRing_completes_iff (k : ℕ) (hk : 1 ≤ k ∧ k < 32) (mem : ℕ → α) (sp sc : U32) (r : Ring α)
    (hr : cmtRingCreate (some mem) (BitVec.ofNat 32 (2 ^ k)) sp sc = .ok r) (v : U32)
    (ls : List (MpLabel τ α)) (s : MpSys τ α)
    (hrun : Run (Guarded MpGuard MpStep) (MpSys.initial r v) ls s)
    (htotal : s.pos.prodHead < v.toNat + 2 ^ 32)
    (hroom : s.pos.consTail + (2 ^ k - 1) < v.toNat + 2 ^ 32) :
    (s.Completes (v.toNat + 2 ^ 32) ↔ s.NobodyPassed) ∧
      ∀ t res, (s.prods t).reservation = some res → res.start < s.pos.prodTail →
        res.n = 0 ∧ ∀ (ms : List (MpLabel τ α)) (s' : MpSys τ α), Run (Guarded MpGuard MpStep) s ms s' →
          s'.pos.prodHead < v.toNat + 2 ^ 32 → (s'.prods t).reservation = some res := by
  have hlt : 2 ^ k < 2 ^ 32 := Nat.pow_lt_pow_right (by decide) hk.2
  have hmask : r.prod.mask = BitVec.ofNat 32 (2 ^ k - 1) := by
    apply BitVec.eq_of_toNat_eq
    rw [(cmtRingCreate_mask hr).1, toNat_mask hk.2, BitVec.toNat_ofNat, Nat.mod_eq_of_lt (by omega)]
  have hstart : MpInv v.toNat (2 ^ k - 1) (MpSys.initial r v : MpSys τ α) := MpInv.initial hmask
  have hinv := (hstart.run (by omega) hrun htotal).1
  refine ⟨⟨?_, ?_⟩, fun t res hres hpassed => ⟨?_, fun ms s' hms hbound => ?_⟩⟩
  · rintro ⟨ms, s', -, hms, ⟨hidle, -⟩, hbound⟩ t res hres
    -- a producer that was passed never returns
    by_contra hpassed
    have hstuck := (passed_run hinv (by omega) hms hbound hres (Nat.not_le.mp hpassed)).1
    rw [hidle t] at hstuck
    cases hstuck
  · intro hnobody
    have htiled := (MpTiled.initial r v).run hstart (by omega) hrun htotal
    exact (MpRoom.mk hinv htiled hroom).completes (by omega) hnobody
  · -- nobody publishes a position that somebody else has reserved
    by_contra hn
    exact absurd ((hinv.reservation_ok hres).prodTail_le hn) (Nat.not_le.mpr hpassed)
  · exact (passed_run hinv (by omega) hms hbound hres hpassed).1

/-- In a ring of two slots, a producer that holds a slot can return. A producer that asked for nothing
cannot when the other one published first, and is under way for good. -/
theorem mpRing_completes_iff_twoSlots :
    (∃ s : MpSys Bool ℕ,
      Run (Guarded MpGuard MpStep) (MpSys.initial twoSlots 0)
        [.prodCall true id 1, .prodNext true, .prodNext true, .prodNext true] s ∧
        s.r.prod.head = 1 ∧ s.Completes (2 ^ 32)) ∧
    ∃ s : MpSys Bool ℕ,
      Run (Guarded MpGuard MpStep) (MpSys.initial twoSlots 0)
        [.prodCall false id 0, .prodNext false, .prodNext false, .prodNext false,
          .prodCall true id 1, .prodNext true, .prodNext true, .prodNext true, .prodNext true,
          .prodNext true, .prodNext true] s ∧
        s.r.prod.tail = 1 ∧ ¬s.Completes (2 ^ 32) ∧
        ∀ (ms : List (MpLabel Bool ℕ)) (s' : MpSys Bool ℕ), Run (Guarded MpGuard MpStep) s ms s' →
          s'.pos.prodHead < 2 ^ 32 → s'.prods false ≠ .idle := by
  have hr : cmtRingCreate (some fun _ => 0) (BitVec.ofNat 32 (2 ^ 1)) 1 1 = .ok twoSlots := rfl
  have start : Run (Guarded MpGuard MpStep) (MpSys.initial twoSlots 0 : MpSys Bool ℕ) [] _ := .nil
  have reserve := (((start.snoc ⟨by trivial, .prodCall true id 1 rfl⟩).snoc
    ⟨(by intro _ h; cases h), .prodNext true rfl⟩).snoc
    ⟨(by intro _ h; cases h), .prodNext true rfl⟩).snoc
    ⟨(by intro _ h; cases h), .prodNext true rfl⟩
  have nothing := (((start.snoc ⟨by trivial, .prodCall false id 0 rfl⟩).snoc
    ⟨(by intro _ h; cases h), .prodNext false rfl⟩).snoc
    ⟨(by intro _ h; cases h), .prodNext false rfl⟩).snoc
    ⟨(by intro _ h; cases h), .prodNext false rfl⟩
  -- thread `true` starts at the same place and publishes a slot
  have filled := ((((nothing.snoc ⟨by trivial, .prodCall true id 1 rfl⟩).snoc
    ⟨(by intro _ h; cases h), .prodNext true rfl⟩).snoc
    ⟨(by intro _ h; cases h), .prodNext true rfl⟩).snoc
    ⟨(by intro _ h; cases h), .prodNext true rfl⟩).snoc
    ⟨(by intro _ h; cases h), .prodNext true rfl⟩
  have passed := (filled.snoc ⟨(by intro _ h; cases h), .prodNext true rfl⟩).snoc
    ⟨(by intro _ h hn; cases h; cases hn), .prodNext true rfl⟩
  constructor
  · refine ⟨_, reserve, rfl,
      (mpRing_completes_iff 1 (by decide) _ 1 1 _ hr 0 _ _ reserve (by decide) (by decide)).1.mpr ?_⟩
    exact fun t res _ => Nat.zero_le res.start
  · have hall := mpRing_completes_iff 1 (by decide) _ 1 1 _ hr 0 _ _ passed (by decide) (by decide)
    refine ⟨_, passed, rfl, fun h => ?_, fun ms s' hms hbound hidle => ?_⟩
    · exact absurd (hall.1.mp h false _ rfl) (by decide)
    · have hwaits := (hall.2 false _ rfl (by decide)).2 ms s' hms (by simpa using hbound)
      rw [hidle] at hwaits
      cases hwaits

end Runs

end CmtTcp
