import CmtTcp.RingCalls
import CmtTcp.RingMpProgress

/-!
# Many producers: a queue of objects

What goes through the ring while any number of producers and one consumer work on it. The order of the
objects is that of the reservations: a producer's objects get their place when its compare-and-set
succeeds. `MpHist` keeps beside the system the objects accepted so far in this order, and those the
consumer has taken.

`mpRing_fifo`: while no producer copies over the end of the ring and none stores a `prod.tail` that has
moved since its test, the accepted objects are those taken, then those in the slots from `cons.head` to
`prod.tail`, then those that are not published yet, and nothing is written behind the ring.
-/

namespace CmtTcp

open Lib (Guarded Run)

variable {τ α : Type*} [DecidableEq τ]

/-! ### Copies -/

section Copies

variable {r : Ring α} {k : ℕ} {n : U32}

/-- The ring with all its indices at `w`, and no call under way. -/
def Ring.restAt (r : Ring α) (w : U32) : Ring α where
  prod := { r.prod with head := w, tail := w }
  cons := { r.cons with head := w, tail := w }
  ring := r.ring

theorem Ring.HasSize.restAt (hr : r.HasSize k) (w : U32) : (r.restAt w).Quiescent k where
  lt := hr.lt
  prodSize := hr.prodSize
  prodMask := hr.prodMask
  consSize := hr.consSize
  consMask := hr.consMask
  prodHead_eq := rfl
  consHead_eq := rfl
  stored_le := by simp [Ring.stored, Ring.restAt]

/-- Copying out depends on where it starts, not on where the indices are. -/
theorem Ring.HasSize.dequeueElms64_apply (hr : r.HasSize k) (hn : n.toNat ≤ 2 ^ k) (w : U32)
    (obj : ℕ → α) {j : ℕ} (hj : j < n.toNat) :
    dequeueElms64 r w obj n j = r.ring ((w.toNat + j) % 2 ^ k) := by
  have hrest := (hr.restAt w).dequeueElms64_eq hn obj j
  rw [if_pos hj, (hr.restAt w).slot_eq] at hrest
  exact hrest

/-- So does copying in, which goes on behind the end of the ring. -/
theorem Ring.HasSize.enqueueElms64_apply (hr : r.HasSize k) (hn : n.toNat < 2 ^ k) (w : U32)
    (obj : ℕ → α) (a : ℕ) :
    (enqueueElms64 r w obj n).ring a =
      if w.toNat % 2 ^ k ≤ a ∧ a < w.toNat % 2 ^ k + n.toNat then obj (a - w.toNat % 2 ^ k)
      else r.ring a := by
  have hrest := (hr.restAt w).enqueueElms64_eq hn w obj a
  have hslot : (r.restAt w).slot (r.restAt w).stored = w.toNat % 2 ^ k := by
    rw [(hr.restAt w).slot_eq]
    simp [Ring.stored, Ring.restAt]
  rw [hslot] at hrest
  refine Eq.trans ?_ hrest
  unfold enqueueElms64
  dsimp only [Ring.restAt]
  split <;> rfl

end Copies

/-! ### The objects -/

/-- The system, the objects in the order of their reservations, and those the consumer took. -/
structure MpHist (τ α : Type*) where
  sys : MpSys τ α
  accepted : List α
  taken : List α

/-- The objects that a step reserves places for. -/
def MpSys.reserves (s : MpSys τ α) : MpLabel τ α → List α
  | .prodNext t =>
    match s.prods t with
    | .cas obj _ res => if s.r.prod.head = res.prodHead then objects obj res.n else []
    | _ => []
  | _ => []

/-- The objects that a step takes out: the consumer moves `cons.head` behind those it has copied to
the caller's table. -/
def MpSys.takes (s : MpSys τ α) : MpLabel τ α → List α
  | .consNext =>
    match s.cons with
    | .storeHead obj n _ => objects obj n
    | _ => []
  | _ => []

/-- A step of the system, and what it accepts and takes. -/
structure MpHistStep (h : MpHist τ α) (l : MpLabel τ α) (h' : MpHist τ α) : Prop where
  sys : MpStep h.sys l h'.sys
  accepted : h'.accepted = h.accepted ++ h.sys.reserves l
  taken : h'.taken = h.taken ++ h.sys.takes l

/-- A ring of which no thread has heard yet. -/
def MpHist.initial (r : Ring α) (v : U32) : MpHist τ α where
  sys := .initial r v
  accepted := []
  taken := []

/-- The step is not a copy over the end of the ring. -/
def MpFits (s : MpSys τ α) : MpLabel τ α → Prop
  | .prodNext t =>
    ∀ obj res, s.prods t = .copy obj res →
      (res.prodHead &&& s.r.prod.mask).toNat + res.n.toNat ≤ s.r.prod.size.toNat
  | _ => True

/-- The steps of `mpRing_fifo`. -/
def MpHist.Guard (h : MpHist τ α) (l : MpLabel τ α) : Prop := MpGuard h.sys l ∧ MpFits h.sys l

/-- The objects in the slots from `cons.head` to `prod.tail`. -/
def Ring.published (r : Ring α) : List α :=
  (List.range (r.prod.tail - r.cons.head).toNat).map fun j =>
    r.ring ((r.cons.head + BitVec.ofNat 32 j) &&& r.cons.mask).toNat

/-! ### The invariant -/

/-- Where the objects are: those at the positions before `cons.head` are taken, those up to `prod.tail` and
those of a reservation that is copied are in their slots, and the others are in the tables of their
producers. -/
structure MpHist.Inv (base k : ℕ) (ring₀ : ℕ → α) (h : MpHist τ α) : Prop where
  size : h.sys.r.HasSize k
  length : base + h.accepted.length = h.sys.pos.prodHead
  taken : h.taken = h.accepted.take (h.sys.pos.consHead - base)
  /-- Published objects that the consumer has not given up. -/
  published : ∀ i, h.sys.pos.consTail ≤ i → i < h.sys.pos.prodTail →
    h.accepted[i - base]? = some (h.sys.r.ring (i % 2 ^ k))
  copied : ∀ t res, (h.sys.prods t = .test res ∨ h.sys.prods t = .store res) →
    ∀ i, res.Covers i → h.accepted[i - base]? = some (h.sys.r.ring (i % 2 ^ k))
  uncopied : ∀ t obj res, h.sys.prods t = .copy obj res →
    ∀ i, res.Covers i → h.accepted[i - base]? = some (obj (i - res.start))
  copyFrom : ∀ obj n head next, h.sys.cons = .copy obj n head next →
    head = BitVec.ofNat 32 h.sys.pos.consHead
  /-- What the consumer has copied out. -/
  copiedOut : ∀ obj n next, h.sys.cons = .storeHead obj n next →
    objects obj n = (h.accepted.drop (h.sys.pos.consHead - base)).take n.toNat
  outside : ∀ a, 2 ^ k ≤ a → h.sys.r.ring a = ring₀ a

section Steps

variable {base k : ℕ} {ring₀ : ℕ → α} {h h' : MpHist τ α} {t : τ}

theorem length_objects (obj : ℕ → α) (n : U32) : (objects obj n).length = n.toNat := by
  simp [objects]

theorem getElem?_objects (obj : ℕ → α) {n : U32} {j : ℕ} (hj : j < n.toNat) :
    (objects obj n)[j]? = some (obj j) := by
  simp [objects, hj]

/-- An object keeps its place when others are accepted. -/
theorem getElem?_accepted {l m : List α} {i : ℕ} {x : α} (hi : l[i]? = some x) :
    (l ++ m)[i]? = some x := by
  rw [List.getElem?_append_left (List.getElem?_eq_some_iff.mp hi).1, hi]

/-- The slot of a position, from its word. -/
theorem toNat_ofNat_mod {k : ℕ} (hk : k < 32) (i : ℕ) :
    (BitVec.ofNat 32 i).toNat % 2 ^ k = i % 2 ^ k := by
  rw [BitVec.toNat_ofNat, Nat.mod_mod_of_dvd _ (Nat.pow_dvd_pow 2 hk.le)]

/-- A reservation that holds a position is not empty. -/
theorem Reservation.Covers.ne_zero {res : Reservation} {i : ℕ} (hi : res.Covers i) : res.n ≠ 0 := by
  intro hn
  obtain ⟨hfrom, hto⟩ := hi
  rw [hn] at hto
  exact absurd hto (Nat.not_lt.mpr hfrom)

omit [DecidableEq τ] in
/-- The positions that may hold an object have slots of their own. -/
theorem MpInv.eq_of_slot_eq {s : MpSys τ α} (hinv : MpInv base (2 ^ k - 1) s) {i j : ℕ}
    (hi : s.pos.consTail ≤ i) (hi' : i < s.pos.prodHead) (hj : s.pos.consTail ≤ j)
    (hj' : j < s.pos.prodHead) (hslot : i % 2 ^ k = j % 2 ^ k) : i = j := by
  have hpos := Nat.two_pow_pos k
  have hle := hinv.prodHead_le
  exact Lib.eq_of_mod_eq_of_window hslot hi (by omega) hj (by omega)

/-- A step of thread `t` that moves no index, copies nothing and accepts nothing. -/
theorem MpHist.Inv.setProd (hI : h.Inv base k ring₀) {pc : ProdPc α}
    (hcopied : ∀ res, pc = .test res ∨ pc = .store res →
      h.sys.prods t = .test res ∨ h.sys.prods t = .store res)
    (hcopy : ∀ obj res, pc ≠ .copy obj res) :
    MpHist.Inv base k ring₀ { h with sys := h.sys.setProd t pc } :=
  { hI with
    copied := by
      intro u res hu
      change Function.update h.sys.prods t pc u = _ ∨ Function.update h.sys.prods t pc u = _ at hu
      by_cases hut : u = t
      · subst hut
        rw [Function.update_self] at hu
        exact hI.copied u res (hcopied res hu)
      · rw [Function.update_of_ne hut] at hu
        exact hI.copied u res hu
    uncopied := by
      intro u obj res hu
      change Function.update h.sys.prods t pc u = _ at hu
      by_cases hut : u = t
      · subst hut
        rw [Function.update_self] at hu
        exact absurd hu (hcopy obj res)
      · rw [Function.update_of_ne hut] at hu
        exact hI.uncopied u obj res hu }

/-- The compare-and-set gives the objects of the producer their places. -/
theorem MpHist.Inv.reserve (hI : h.Inv base k ring₀) (hinv : MpInv base (2 ^ k - 1) h.sys)
    {obj : ℕ → α} {max : U32} {res : Reservation} (hpc : h.sys.prods t = .cas obj max res)
    (hstart : res.start = h.sys.pos.prodHead) :
    MpHist.Inv base k ring₀
      { sys := { h.sys.setProd t (.copy obj res) with
          r := { h.sys.r with prod := { h.sys.r.prod with head := res.prodNext } }
          pos := { h.sys.pos with prodHead := h.sys.pos.prodHead + res.n.toNat } }
        accepted := h.accepted ++ objects obj res.n
        taken := h.taken } := by
  have hlen := hI.length
  have hcons := hinv.consHead_le
  have htail := hinv.prodTail_le
  refine { hI with
    size := ⟨hI.size.pos, hI.size.lt, hI.size.prodSize, hI.size.prodMask, hI.size.consSize,
      hI.size.consMask⟩
    length := ?length, taken := ?taken
    published := fun i hi hlt => getElem?_accepted (hI.published i hi hlt)
    copied := ?copied, uncopied := ?uncopied, copiedOut := ?copiedOut }
  case length =>
    rw [List.length_append, length_objects]
    change _ = h.sys.pos.prodHead + res.n.toNat
    omega
  case taken =>
    change h.taken = _
    rw [hI.taken, List.take_append_of_le_length]
    change h.sys.pos.consHead - base ≤ _
    omega
  case copied =>
    intro u res' hu i hi
    change Function.update h.sys.prods t _ u = _ ∨ Function.update h.sys.prods t _ u = _ at hu
    by_cases hut : u = t
    · subst hut
      rw [Function.update_self] at hu
      rcases hu with hu | hu <;> cases hu
    · rw [Function.update_of_ne hut] at hu
      exact getElem?_accepted (hI.copied u res' hu i hi)
  case uncopied =>
    intro u obj' res' hu i hi
    change Function.update h.sys.prods t _ u = _ at hu
    by_cases hut : u = t
    · subst hut
      rw [Function.update_self] at hu
      cases hu
      obtain ⟨hfrom, hto⟩ := hi
      -- the places behind all that was accepted before
      have hidx : i - base - h.accepted.length = i - res.start := by omega
      change (h.accepted ++ objects obj res.n)[i - base]? = _
      rw [List.getElem?_append_right (by omega), hidx, getElem?_objects obj (by omega)]
    · rw [Function.update_of_ne hut] at hu
      exact getElem?_accepted (hI.uncopied u obj' res' hu i hi)
  case copiedOut =>
    intro obj' n next hcons'
    have hok := hinv.cons_ok
    change h.sys.cons = _ at hcons'
    rw [hcons'] at hok
    rw [hI.copiedOut obj' n next hcons']
    change _ = ((h.accepted ++ objects obj res.n).drop (h.sys.pos.consHead - base)).take n.toNat
    have hle := hok.2.1
    have hbase := hinv.base_le.trans hinv.consTail_le
    rw [List.drop_append_of_le_length (by omega), List.take_append_of_le_length]
    rw [List.length_drop]
    omega

/-- A producer copies its objects to the slots of its reservation. -/
theorem MpHist.Inv.copy (hI : h.Inv base k ring₀) (hinv : MpInv base (2 ^ k - 1) h.sys)
    {obj : ℕ → α} {res : Reservation} (hpc : h.sys.prods t = .copy obj res)
    (hfits : MpFits h.sys (.prodNext t)) :
    MpHist.Inv base k ring₀
      { h with
        sys := { h.sys.setProd t (.test res) with
          r := enqueueElms64 h.sys.r res.prodHead obj res.n } } := by
  have hpow := Nat.two_pow_pos k
  have hres : (h.sys.prods t).reservation = some res := by rw [hpc]; rfl
  have hok := hinv.reservation_ok hres
  have hend := hok.le_prodHead
  have hhead := hinv.prodHead_le
  have hcons := hinv.consTail_le.trans hinv.consHead_le
  have hidx : (res.prodHead &&& h.sys.r.prod.mask).toNat = res.start % 2 ^ k := by
    rw [hI.size.prodMask, toNat_and_mask hI.size.lt, hok.prodHead_eq, toNat_ofNat_mod hI.size.lt]
  have hfit : res.start % 2 ^ k + res.n.toNat ≤ 2 ^ k := by
    rw [← hidx, ← toNat_size hI.size.lt, ← hI.size.prodSize]
    exact hfits obj res hpc
  have hlt : res.n.toNat < 2 ^ k := by
    by_cases hn : res.n = 0
    · rw [hn]
      exact hpow
    · have := hok.prodTail_le hn
      omega
  have hring : ∀ a, (enqueueElms64 h.sys.r res.prodHead obj res.n).ring a =
      if res.start % 2 ^ k ≤ a ∧ a < res.start % 2 ^ k + res.n.toNat
      then obj (a - res.start % 2 ^ k) else h.sys.r.ring a := by
    intro a
    rw [hI.size.enqueueElms64_apply hlt, hok.prodHead_eq, toNat_ofNat_mod hI.size.lt]
  -- the slots of the reservation take its objects
  have hself : ∀ i, res.Covers i →
      (enqueueElms64 h.sys.r res.prodHead obj res.n).ring (i % 2 ^ k) = obj (i - res.start) := by
    rintro i ⟨hfrom, hto⟩
    have hslot : i % 2 ^ k = res.start % 2 ^ k + (i - res.start) := by
      have hsplit : i = res.start + (i - res.start) := by omega
      rw [hsplit, ← Nat.mod_add_mod, Nat.mod_eq_of_lt (by omega)]
      omega
    rw [hring, if_pos (by omega), hslot, Nat.add_sub_cancel_left]
  -- the slots of the other positions stay
  have hother : ∀ i, h.sys.pos.consTail ≤ i → i < h.sys.pos.prodHead → ¬res.Covers i →
      (enqueueElms64 h.sys.r res.prodHead obj res.n).ring (i % 2 ^ k) = h.sys.r.ring (i % 2 ^ k) := by
    intro i hi hi' hnot
    rw [hring, if_neg]
    rintro ⟨hfrom, hto⟩
    have hn : res.n ≠ 0 := by
      rintro hn
      rw [hn] at hto
      exact absurd hto (Nat.not_lt.mpr hfrom)
    have htail := hok.prodTail_le hn
    -- the slot is that of a position of the reservation
    have hslot : (res.start + (i % 2 ^ k - res.start % 2 ^ k)) % 2 ^ k = i % 2 ^ k := by
      have hsum : res.start % 2 ^ k + (i % 2 ^ k - res.start % 2 ^ k) = i % 2 ^ k := by omega
      rw [← Nat.mod_add_mod, hsum, Nat.mod_mod]
    have heq := hinv.eq_of_slot_eq hi hi' (by omega) (by omega) hslot.symm
    exact hnot ⟨by omega, by omega⟩
  refine { hI with
    size := ?size, published := ?published, copied := ?copied, uncopied := ?uncopied
    outside := ?outside }
  case size =>
    refine ⟨hI.size.pos, hI.size.lt, ?_, ?_, ?_, ?_⟩
    · rw [enqueueElms64_prod]; exact hI.size.prodSize
    · rw [enqueueElms64_prod]; exact hI.size.prodMask
    · rw [enqueueElms64_cons]; exact hI.size.consSize
    · rw [enqueueElms64_cons]; exact hI.size.consMask
  case published =>
    intro i hi hi'
    rw [hI.published i hi hi']
    refine congrArg some (hother i hi (hi'.trans_le hinv.prodTail_le) fun hcov => ?_).symm
    exact absurd (hok.prodTail_le hcov.ne_zero) (Nat.not_le.mpr (hcov.1.trans_lt hi'))
  case copied =>
    intro u res' hu i hi
    change Function.update h.sys.prods t _ u = _ ∨ Function.update h.sys.prods t _ u = _ at hu
    by_cases hut : u = t
    · subst hut
      rw [Function.update_self] at hu
      have heq : res' = res := by
        rcases hu with hu | hu <;> cases hu
        rfl
      subst heq
      rw [hI.uncopied u obj res' hpc i hi, hself i hi]
    · rw [Function.update_of_ne hut] at hu
      have hres' : (h.sys.prods u).reservation = some res' := by
        rcases hu with hu | hu <;> rw [hu] <;> rfl
      have htail := (hinv.reservation_ok hres').prodTail_le hi.ne_zero
      have hend' := (hinv.reservation_ok hres').le_prodHead
      rw [hI.copied u res' hu i hi]
      refine congrArg some (hother i ?_ ?_ fun hcov => ?_).symm
      · exact hcons.trans (htail.trans hi.1)
      · exact hi.2.trans_le hend'
      · exact hinv.disjoint u t res' res hut hres' hres i ⟨hi, hcov⟩
  case uncopied =>
    intro u obj' res' hu
    change Function.update h.sys.prods t _ u = _ at hu
    by_cases hut : u = t
    · subst hut
      rw [Function.update_self] at hu
      cases hu
    · rw [Function.update_of_ne hut] at hu
      exact hI.uncopied u obj' res' hu
  case outside =>
    intro a ha
    change (enqueueElms64 h.sys.r res.prodHead obj res.n).ring a = _
    rw [hring, if_neg (by omega), hI.outside a ha]

/-- `prod.tail` is stored over a reservation whose objects are in their slots. -/
theorem MpHist.Inv.store (hI : h.Inv base k ring₀) {res : Reservation}
    (hpc : h.sys.prods t = .store res) (hstart : h.sys.pos.prodTail = res.start) :
    MpHist.Inv base k ring₀
      { h with
        sys := { h.sys.setProd t .idle with
          r := { h.sys.r with prod := { h.sys.r.prod with tail := res.prodNext } }
          pos := { h.sys.pos with prodTail := res.start + res.n.toNat } } } := by
  have hidle : MpHist.Inv base k ring₀ { h with sys := h.sys.setProd t .idle } := by
    refine hI.setProd ?_ nofun
    rintro res' (hres' | hres') <;> cases hres'
  refine { hidle with
    size := ⟨hI.size.pos, hI.size.lt, hI.size.prodSize, hI.size.prodMask, hI.size.consSize,
      hI.size.consMask⟩
    published := ?_ }
  intro i hi hlt
  by_cases hold : i < h.sys.pos.prodTail
  · exact hI.published i hi hold
  · exact hI.copied t res (.inr hpc) i ⟨by omega, hlt⟩

/-- A step inside `_cmt_ring_mp_do_enqueue`. -/
theorem MpHist.Inv.prodNext (hI : h.Inv base k ring₀) (hinv : MpInv base (2 ^ k - 1) h.sys)
    (hlt : h.sys.pos.prodHead < base + 2 ^ 32) (hguard : h.Guard (.prodNext t)) {s' : MpSys τ α}
    (hs : h.sys.prodNext t = some s') :
    MpHist.Inv base k ring₀
      { sys := s', accepted := h.accepted ++ h.sys.reserves (.prodNext t), taken := h.taken } := by
  -- only the compare-and-set reserves
  have hnone : ∀ pc : ProdPc α, h.sys.prods t = pc → (∀ obj max res, pc ≠ .cas obj max res) →
      h.sys.reserves (.prodNext t) = [] := by
    intro pc hpc hcas
    unfold MpSys.reserves
    dsimp only
    rw [hpc]
    cases pc <;> first | rfl | exact absurd rfl (hcas _ _ _)
  unfold MpSys.prodNext at hs
  cases hpc : h.sys.prods t with
  | idle => rw [hpc] at hs; cases hs
  | readHead obj max =>
    rw [hpc] at hs
    obtain rfl := Option.some.inj hs
    rw [hnone _ hpc nofun, List.append_nil]
    refine hI.setProd ?_ nofun
    rintro res (hres | hres) <;> cases hres
  | readTail obj max prodHead start =>
    rw [hpc] at hs
    obtain rfl := Option.some.inj hs
    rw [hnone _ hpc nofun, List.append_nil]
    refine hI.setProd ?_ nofun
    rintro res (hres | hres) <;> cases hres
  | cas obj max res =>
    rw [hpc] at hs
    dsimp only at hs
    have hres : h.sys.reserves (.prodNext t) =
        if h.sys.r.prod.head = res.prodHead then objects obj res.n else [] := by
      unfold MpSys.reserves
      dsimp only
      rw [hpc]
    split at hs
    · next hword =>
      obtain rfl := Option.some.inj hs
      rw [hres, if_pos hword]
      exact hI.reserve hinv hpc (hinv.cas_start hlt hpc hword)
    · next hword =>
      obtain rfl := Option.some.inj hs
      rw [hres, if_neg hword, List.append_nil]
      refine hI.setProd ?_ nofun
      rintro res (hres | hres) <;> cases hres
  | copy obj res =>
    rw [hpc] at hs
    obtain rfl := Option.some.inj hs
    rw [hnone _ hpc nofun, List.append_nil]
    exact hI.copy hinv hpc hguard.2
  | test res =>
    rw [hnone _ hpc nofun, List.append_nil]
    rw [hpc] at hs
    dsimp only at hs
    split at hs
    · obtain rfl := Option.some.inj hs
      exact hI
    · obtain rfl := Option.some.inj hs
      refine hI.setProd ?_ nofun
      rintro res' (hres' | hres') <;> cases hres'
      exact .inl hpc
  | store res =>
    rw [hpc] at hs
    obtain rfl := Option.some.inj hs
    rw [hnone _ hpc nofun, List.append_nil]
    exact hI.store hpc (hinv.prodTail_eq_start hlt hguard.1 hpc)

omit [DecidableEq τ] in
/-- A step inside `_cmt_ring_sc_do_dequeue`. -/
theorem MpHist.Inv.consNext (hI : h.Inv base k ring₀) (hinv : MpInv base (2 ^ k - 1) h.sys)
    {s' : MpSys τ α} (hs : h.sys.consNext = some s') :
    MpHist.Inv base k ring₀
      { sys := s', accepted := h.accepted, taken := h.taken ++ h.sys.takes .consNext } := by
  have hok := hinv.cons_ok
  have hpow := Nat.two_pow_pos k
  have htail := hinv.prodTail_le
  have hroom := hinv.prodHead_le
  have hbase := hinv.base_le.trans hinv.consTail_le
  unfold MpSys.consNext at hs
  unfold MpSys.takes
  dsimp only
  cases hpc : h.sys.cons with
  | idle => rw [hpc] at hs; cases hs
  | readHead obj n =>
    rw [hpc] at hs
    obtain rfl := Option.some.inj hs
    rw [List.append_nil]
    exact { hI with copyFrom := nofun, copiedOut := nofun }
  | readTail obj n consHead =>
    rw [hpc] at hs hok
    obtain ⟨-, rfl⟩ := hok
    dsimp only at hs
    rw [List.append_nil]
    split at hs
    · obtain rfl := Option.some.inj hs
      exact { hI with copyFrom := nofun, copiedOut := nofun }
    · obtain rfl := Option.some.inj hs
      refine { hI with copyFrom := ?_, copiedOut := nofun }
      intro obj' n' head next heq
      cases heq
      rfl
  | copy obj n consHead consNext =>
    rw [hpc] at hs hok
    obtain ⟨hcons, hle, -⟩ := hok
    obtain rfl := Option.some.inj hs
    obtain rfl := hI.copyFrom obj n consHead consNext hpc
    rw [List.append_nil]
    refine { hI with copyFrom := nofun, copiedOut := ?_ }
    intro obj' n' next heq
    cases heq
    apply List.ext_getElem?
    intro j
    by_cases hj : j < n.toNat
    · -- the slots it reads hold published objects
      have hslot := hI.published (h.sys.pos.consHead + j) (by omega) (by omega)
      have hidx : h.sys.pos.consHead + j - base = h.sys.pos.consHead - base + j := by omega
      rw [hidx] at hslot
      rw [getElem?_objects _ hj, List.getElem?_take_of_lt hj, List.getElem?_drop, hslot,
        hI.size.dequeueElms64_apply (by omega) _ _ hj, ← Nat.mod_add_mod,
        toNat_ofNat_mod hI.size.lt, Nat.mod_add_mod]
    · rw [List.getElem?_eq_none (by rw [length_objects]; omega),
        List.getElem?_eq_none (by rw [List.length_take]; omega)]
  | storeHead obj n consNext =>
    rw [hpc] at hs hok
    obtain ⟨hcons, hle, -⟩ := hok
    obtain rfl := Option.some.inj hs
    refine { hI with
      size := ⟨hI.size.pos, hI.size.lt, hI.size.prodSize, hI.size.prodMask, hI.size.consSize,
        hI.size.consMask⟩
      taken := ?_, copyFrom := nofun, copiedOut := nofun }
    change h.taken ++ objects obj n = h.accepted.take (h.sys.pos.consHead + n.toNat - base)
    -- what was copied out is the next part of what was accepted
    have hsum : h.sys.pos.consHead + n.toNat - base = h.sys.pos.consHead - base + n.toNat := by omega
    rw [hI.taken, hI.copiedOut obj n consNext hpc, hsum, List.take_add]
  | storeTail obj consNext =>
    rw [hpc] at hs
    obtain rfl := Option.some.inj hs
    rw [List.append_nil]
    refine { hI with
      size := ⟨hI.size.pos, hI.size.lt, hI.size.prodSize, hI.size.prodMask, hI.size.consSize,
        hI.size.consMask⟩
      published := ?_, copyFrom := nofun, copiedOut := nofun }
    -- the new `cons.tail` is not in front of the old one, so this asks for less
    intro i hi
    exact hI.published i (hinv.consTail_le.trans hi)

/-- Every step keeps the invariant. -/
theorem MpHist.Inv.step (hI : h.Inv base k ring₀) (hinv : MpInv base (2 ^ k - 1) h.sys)
    (hlt : h.sys.pos.prodHead < base + 2 ^ 32) {l : MpLabel τ α}
    (hs : Guarded MpHist.Guard MpHistStep h l h') : h'.Inv base k ring₀ := by
  obtain ⟨hguard, hstep, haccepted, htaken⟩ := hs
  obtain ⟨s', accepted, taken⟩ := h'
  dsimp only at hstep haccepted htaken
  subst haccepted htaken
  cases hstep with
  | prodCall t obj n hidle =>
    change MpHist.Inv base k ring₀
      { sys := _, accepted := h.accepted ++ [], taken := h.taken ++ [] }
    rw [List.append_nil, List.append_nil]
    refine hI.setProd ?_ nofun
    rintro res (hres | hres) <;> cases hres
  | consCall obj n hidle =>
    change MpHist.Inv base k ring₀
      { sys := _, accepted := h.accepted ++ [], taken := h.taken ++ [] }
    rw [List.append_nil, List.append_nil]
    -- the call has copied nothing yet
    refine { hI with copyFrom := ?_, copiedOut := ?_ }
    · intro obj' n' head next heq
      change (if n = 0 then _ else _) = _ at heq
      split at heq <;> cases heq
    · intro obj' n' next heq
      change (if n = 0 then _ else _) = _ at heq
      split at heq <;> cases heq
  | prodNext t hs =>
    change MpHist.Inv base k ring₀ { sys := _, accepted := _, taken := h.taken ++ [] }
    rw [List.append_nil]
    exact hI.prodNext hinv hlt hguard hs
  | consNext hs =>
    change MpHist.Inv base k ring₀ { sys := _, accepted := h.accepted ++ [], taken := _ }
    rw [List.append_nil]
    exact hI.consNext hinv hs

end Steps

/-! ### Runs -/

section Runs

variable {base k : ℕ} {ring₀ : ℕ → α} {h h' : MpHist τ α} {ls : List (MpLabel τ α)}

/-- The invariants of the indices, of the tiles and of the objects, in every run of fewer than `2^32`
objects. -/
theorem MpHist.Inv.run (hI : h.Inv base k ring₀) (hinv : MpInv base (2 ^ k - 1) h.sys)
    (htiled : MpTiled h.sys) (hmask : 2 ^ k - 1 < 2 ^ 32)
    (hrun : Run (Guarded MpHist.Guard MpHistStep) h ls h')
    (hlt : h'.sys.pos.prodHead < base + 2 ^ 32) :
    h'.Inv base k ring₀ ∧ MpInv base (2 ^ k - 1) h'.sys ∧ MpTiled h'.sys := by
  induction hrun with
  | nil => exact ⟨hI, hinv, htiled⟩
  | snoc hrun hlast ih =>
    have hsys := hlast.2.sys
    have hbound := hsys.prodHead_mono.trans_lt hlt
    obtain ⟨hI, hinv, htiled⟩ := ih hbound
    exact ⟨hI.step hinv hbound hlast, hinv.step hmask hbound ⟨hlast.1.1, hsys⟩,
      htiled.step hinv hbound ⟨hlast.1.1, hsys⟩⟩

omit [DecidableEq τ] in
theorem MpHist.Inv.initial {r : Ring α} (hr : r.HasSize k) (v : U32) :
    (MpHist.initial r v : MpHist τ α).Inv v.toNat k r.ring where
  size := ⟨hr.pos, hr.lt, hr.prodSize, hr.prodMask, hr.consSize, hr.consMask⟩
  length := rfl
  taken := List.take_nil.symm
  published := fun i hi hlt => absurd hi (Nat.not_le.mpr hlt)
  copied := by
    rintro t res (hres | hres) <;> cases hres
  uncopied := nofun
  copyFrom := nofun
  copiedOut := nofun
  outside := fun _ _ => rfl

omit [DecidableEq τ] in
/-- What the slots hold is what was accepted and not taken, up to `prod.tail`. -/
theorem MpHist.Inv.published_eq (hI : h.Inv base k ring₀)
    (hinv : MpInv base (2 ^ k - 1) h.sys) :
    h.sys.r.published = (h.accepted.drop (h.sys.pos.consHead - base)).take
      (h.sys.pos.prodTail - h.sys.pos.consHead) := by
  have hpow := Nat.two_pow_pos k
  have hsmall := two_pow_le hI.size.lt
  have hbase := hinv.base_le.trans hinv.consTail_le
  have hcons := hinv.consTail_le
  have hle := hinv.consHead_le
  have htail := hinv.prodTail_le
  have hroom := hinv.prodHead_le
  have hlen := hI.length
  have hcount : (h.sys.r.prod.tail - h.sys.r.cons.head).toNat =
      h.sys.pos.prodTail - h.sys.pos.consHead := by
    rw [hinv.prodTail_eq, hinv.consHead_eq]
    exact Lib.toNat_ofNat_sub_ofNat hle (by omega)
  unfold Ring.published
  rw [hcount]
  apply List.ext_getElem?
  intro j
  by_cases hj : j < h.sys.pos.prodTail - h.sys.pos.consHead
  · -- the slot holds what was accepted at its position
    have hslot := hI.published (h.sys.pos.consHead + j) (by omega) (by omega)
    have hidx : h.sys.pos.consHead + j - base = h.sys.pos.consHead - base + j := by omega
    rw [hidx] at hslot
    have hword : ((h.sys.r.cons.head + BitVec.ofNat 32 j) &&& h.sys.r.cons.mask).toNat =
        (h.sys.pos.consHead + j) % 2 ^ k := by
      rw [hI.size.consMask, toNat_and_mask hI.size.lt, hinv.consHead_eq, ← BitVec.ofNat_add,
        toNat_ofNat_mod hI.size.lt]
    rw [List.getElem?_take_of_lt hj, List.getElem?_drop, hslot, List.getElem?_map,
      List.getElem?_range hj, Option.map_some, hword]
  · -- past `prod.tail` both have ended
    rw [List.getElem?_eq_none (by simp; omega), List.getElem?_eq_none (by simp; omega)]

/-- What the ring is to its callers: the accepted objects are those taken, those in the slots, and those of
reservations that are not published; where no producer is under way, nothing is missing. -/
structure MpHist.Fifo (size : ℕ) (ring₀ : ℕ → α) (h : MpHist τ α) : Prop where
  objects : ∃ rest, h.accepted = h.taken ++ h.sys.r.published ++ rest ∧
    rest.length = (h.sys.r.prod.head - h.sys.r.prod.tail).toNat ∧
    ((∀ t, h.sys.prods t = .idle) → rest = [])
  bounded : h.sys.r.published.length ≤ size - 1
  /-- Nothing is written behind the ring. -/
  outside : ∀ a, size ≤ a → h.sys.r.ring a = ring₀ a

omit [DecidableEq τ] in
theorem MpHist.Inv.fifo (hI : h.Inv base k ring₀) (hinv : MpInv base (2 ^ k - 1) h.sys)
    (htiled : MpTiled h.sys) : h.Fifo (2 ^ k) ring₀ := by
  have hpow := Nat.two_pow_pos k
  have hsmall := two_pow_le hI.size.lt
  have hbase := hinv.base_le.trans hinv.consTail_le
  have hcons := hinv.consTail_le
  have hle := hinv.consHead_le
  have htail := hinv.prodTail_le
  have hroom := hinv.prodHead_le
  have hlen := hI.length
  refine ⟨⟨h.accepted.drop (h.sys.pos.prodTail - base), ?_, ?_, ?_⟩, ?_, hI.outside⟩
  · have hsplit : h.sys.pos.prodTail - base =
        h.sys.pos.consHead - base + (h.sys.pos.prodTail - h.sys.pos.consHead) := by omega
    rw [hI.taken, hI.published_eq hinv, ← List.take_add, ← hsplit, List.take_append_drop]
  · rw [List.length_drop, hinv.prodHead_eq, hinv.prodTail_eq,
      Lib.toNat_ofNat_sub_ofNat htail (by omega)]
    omega
  · intro hidle
    have hnone : h.sys.reserved = ∅ := by
      refine Set.eq_empty_iff_forall_notMem.mpr fun t ht => ht ?_
      rw [hidle t]
      rfl
    have heq := htiled.tail_eq_head hinv hnone
    exact List.drop_of_length_le (by omega)
  · rw [hI.published_eq hinv, List.length_take]
    omega

/-- **The ring is a queue for its producers and its consumer.** On a ring of `2^k` slots, at whatever its
indices start, in every run of fewer than `2^32` objects in which no producer copies over the end of the
ring and none stores a `prod.tail` that has moved since its test: the objects the consumer took are the
first of those accepted, each once and in the order of the reservations, the slots hold the next ones, and
nothing is written behind the ring. -/
theorem mpRing_fifo (k : ℕ) (hk : 1 ≤ k ∧ k < 32) (mem : ℕ → α) (sp sc : U32) (r : Ring α)
    (hr : cmtRingCreate (some mem) (BitVec.ofNat 32 (2 ^ k)) sp sc = .ok r) (v : U32)
    (ls : List (MpLabel τ α)) (h : MpHist τ α)
    (hrun : Run (Guarded MpHist.Guard MpHistStep) (MpHist.initial r v) ls h)
    (htotal : h.sys.pos.prodHead < v.toNat + 2 ^ 32) : h.Fifo (2 ^ k) mem := by
  have hlt : 2 ^ k < 2 ^ 32 := Nat.pow_lt_pow_right (by decide) hk.2
  have hsize : r.HasSize k ∧ r.ring = mem := by
    unfold cmtRingCreate at hr
    split at hr <;> cases hr
    exact ⟨⟨hk.1, hk.2, rfl, rfl, rfl, rfl⟩, rfl⟩
  have hmask : r.prod.mask = BitVec.ofNat 32 (2 ^ k - 1) := by
    apply BitVec.eq_of_toNat_eq
    rw [(cmtRingCreate_mask hr).1, toNat_mask hk.2, BitVec.toNat_ofNat, Nat.mod_eq_of_lt (by omega)]
  obtain ⟨hI, hinv, htiled⟩ := (MpHist.Inv.initial hsize.1 v).run (MpInv.initial hmask)
    (.initial r v) (by omega) hrun htotal
  rw [← hsize.2]
  exact hI.fifo hinv htiled

/-- Two producers put `7` and `8` into a ring of four slots. -/
theorem mpRing_fifo_fourSlots :
    ∃ h : MpHist Bool ℕ,
      Run (Guarded MpHist.Guard MpHistStep) (MpHist.initial fourSlots 0)
        (twoProducers (fun _ => 7) fun _ => 8) h ∧
        h.accepted = [7, 8] ∧ h.Fifo 4 fun _ => 0 := by
  have hr : cmtRingCreate (some fun _ => 0) (BitVec.ofNat 32 (2 ^ 2)) 1 1 = .ok fourSlots := rfl
  have step : ∀ {h : MpHist Bool ℕ} {l : MpLabel Bool ℕ} {s' : MpSys Bool ℕ} {ls},
      Run (Guarded MpHist.Guard MpHistStep) (MpHist.initial fourSlots 0) ls h → h.Guard l →
      MpStep h.sys l s' → Run (Guarded MpHist.Guard MpHistStep) (MpHist.initial fourSlots 0)
        (ls ++ [l]) ⟨s', h.accepted ++ h.sys.reserves l, h.taken ++ h.sys.takes l⟩ :=
    fun hrun hguard hstep => hrun.snoc ⟨hguard, hstep, rfl, rfl⟩
  have start : Run (Guarded MpHist.Guard MpHistStep)
    (MpHist.initial fourSlots 0 : MpHist Bool ℕ) [] _ := .nil
  have called₁ := step start (by exact ⟨trivial, trivial⟩) (.prodCall true (fun _ => 7) 1 rfl)
  have head₁ := step called₁ (by exact ⟨nofun, nofun⟩) (.prodNext true rfl)
  have tail₁ := step head₁ (by exact ⟨nofun, nofun⟩) (.prodNext true rfl)
  have called₂ := step tail₁ (by exact ⟨trivial, trivial⟩) (.prodCall false (fun _ => 8) 1 rfl)
  have head₂ := step called₂ (by exact ⟨nofun, nofun⟩) (.prodNext false rfl)
  have tail₂ := step head₂ (by exact ⟨nofun, nofun⟩) (.prodNext false rfl)
  have won₁ := step tail₂ (by exact ⟨nofun, nofun⟩) (.prodNext true rfl)
  have lost := step won₁ (by exact ⟨nofun, nofun⟩) (.prodNext false rfl)
  have head₃ := step lost (by exact ⟨nofun, nofun⟩) (.prodNext false rfl)
  have tail₃ := step head₃ (by exact ⟨nofun, nofun⟩) (.prodNext false rfl)
  have won₂ := step tail₃ (by exact ⟨nofun, nofun⟩) (.prodNext false rfl)
  have copied₂ := step won₂ (by exact ⟨nofun, by rintro _ _ ⟨⟩; decide⟩) (.prodNext false rfl)
  have waiting := step copied₂ (by exact ⟨nofun, nofun⟩) (.prodNext false rfl)
  have copied₁ := step waiting (by exact ⟨nofun, by rintro _ _ ⟨⟩; decide⟩) (.prodNext true rfl)
  have tested₁ := step copied₁ (by exact ⟨nofun, nofun⟩) (.prodNext true rfl)
  have stored₁ := step tested₁ (by exact ⟨by rintro _ ⟨⟩ ⟨⟩, nofun⟩) (.prodNext true rfl)
  have tested₂ := step stored₁ (by exact ⟨nofun, nofun⟩) (.prodNext false rfl)
  have run := step tested₂ (by exact ⟨by rintro _ ⟨⟩ ⟨⟩, nofun⟩) (.prodNext false rfl)
  exact ⟨_, run, rfl, mpRing_fifo 2 (by decide) _ 1 1 _ hr 0 _ _ run (by decide)⟩

end Runs

end CmtTcp
