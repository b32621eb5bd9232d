import CmtTcp.Ring
import CmtTcp.Lib.Run

/-!
# Many producers, one consumer

Any number of threads in `_cmt_ring_mp_do_enqueue` and one in `_cmt_ring_sc_do_dequeue`, interleaved at
the single reads and stores of the four indices, the compare-and-set of `prod.head` and the copies.

The indices are free-running 32-bit words. `RingPos` says beside them how far each index has really
come: it is not in the code, and no step looks at it. A producer owns the positions it reserved
from the compare-and-set to the store of `prod.tail`.

A producer that reserves nothing still goes through the publication: it waits until `prod.tail` is
its `prod_head`, and then stores it again. Another producer that starts at the same place may
publish in between, and the store takes `prod.tail` back (`prodTail_moves_backward`).
`mpRing_safe` is the safety of every run in which this does not happen.
-/

namespace CmtTcp

variable {τ α : Type*} [DecidableEq τ]

/-- How far the four indices have come. -/
structure RingPos where
  prodHead : ℕ
  prodTail : ℕ
  consHead : ℕ
  consTail : ℕ
deriving DecidableEq, Repr

/-- The local variables of a producer whose compare-and-set succeeded. `start` is not in the code:
the position of `prod_head`. -/
structure Reservation where
  prodHead : U32
  n : U32
  prodNext : U32
  start : ℕ
deriving DecidableEq, Repr

/-- Where a thread is in `_cmt_ring_mp_do_enqueue`. -/
inductive ProdPc (α : Type*) where
  | idle
  /-- `prod_head = r->prod.head` is next -/
  | readHead (obj : ℕ → α) (max : U32)
  /-- `cons_tail = r->cons.tail` is next, and the computation of `n` and `prod_next` -/
  | readTail (obj : ℕ → α) (max : U32) (prodHead : U32) (start : ℕ)
  /-- the compare-and-set of `prod.head` is next -/
  | cas (obj : ℕ → α) (max : U32) (res : Reservation)
  /-- `enqueue_ptrs` is next -/
  | copy (obj : ℕ → α) (res : Reservation)
  /-- the test `r->prod.tail != prod_head` is next -/
  | test (res : Reservation)
  /-- `r->prod.tail = prod_next` is next -/
  | store (res : Reservation)

/-- Where the consumer is in `_cmt_ring_sc_do_dequeue`. -/
inductive ConsPc (α : Type*) where
  | idle
  /-- `cons_head = r->cons.head` is next -/
  | readHead (obj : ℕ → α) (n : U32)
  /-- `prod_tail = r->prod.tail` is next, and the test for enough entries -/
  | readTail (obj : ℕ → α) (n : U32) (consHead : U32)
  /-- `dequeue_ptrs` is next -/
  | copy (obj : ℕ → α) (n : U32) (consHead consNext : U32)
  /-- the store of `cons.head` is next -/
  | storeHead (obj : ℕ → α) (n consNext : U32)
  /-- the store of `cons.tail` is next -/
  | storeTail (obj : ℕ → α) (consNext : U32)

/-- The ring, its positions and the threads. -/
structure MpSys (τ α : Type*) where
  r : Ring α
  pos : RingPos
  prods : τ → ProdPc α
  cons : ConsPc α

/-- The `n` of `_cmt_ring_mp_do_enqueue`: as many objects as asked for, or as the ring has room for. -/
def mpEntries (mask consTail prodHead max : U32) : U32 :=
  let freeEntries := mask + consTail - prodHead
  if max > freeEntries then freeEntries else max

namespace MpSys

/-- Thread `t` goes on at `pc`. -/
def setProd (s : MpSys τ α) (t : τ) (pc : ProdPc α) : MpSys τ α :=
  { s with prods := Function.update s.prods t pc }

/-- The next step of thread `t` inside `_cmt_ring_mp_do_enqueue`. -/
def prodNext (s : MpSys τ α) (t : τ) : Option (MpSys τ α) :=
  match s.prods t with
  | .idle => none
  | .readHead obj max => some (s.setProd t (.readTail obj max s.r.prod.head s.pos.prodHead))
  | .readTail obj max prodHead start =>
    let n := mpEntries s.r.prod.mask s.r.cons.tail prodHead max
    some (s.setProd t (.cas obj max { prodHead, n, prodNext := prodHead + n, start }))
  | .cas obj max res =>
    if s.r.prod.head = res.prodHead then
      some
        { s.setProd t (.copy obj res) with
          r := { s.r with prod := { s.r.prod with head := res.prodNext } }
          pos := { s.pos with prodHead := s.pos.prodHead + res.n.toNat } }
    else some (s.setProd t (.readHead obj max))
  | .copy obj res =>
    some { s.setProd t (.test res) with r := enqueueElms64 s.r res.prodHead obj res.n }
  | .test res =>
    -- `cmt_pause` and another turn, or out of the loop
    if s.r.prod.tail ≠ res.prodHead then some s else some (s.setProd t (.store res))
  | .store res =>
    some
      { s.setProd t .idle with
        r := { s.r with prod := { s.r.prod with tail := res.prodNext } }
        pos := { s.pos with prodTail := res.start + res.n.toNat } }

/-- The next step of the consumer inside `_cmt_ring_sc_do_dequeue`. -/
def consNext (s : MpSys τ α) : Option (MpSys τ α) :=
  match s.cons with
  | .idle => none
  | .readHead obj n => some { s with cons := .readTail obj n s.r.cons.head }
  | .readTail obj n consHead =>
    if n > s.r.prod.tail - consHead then some { s with cons := .idle }
    else some { s with cons := .copy obj n consHead (consHead + n) }
  | .copy obj n consHead consNext =>
    some { s with cons := .storeHead (dequeueElms64 s.r consHead obj n) n consNext }
  | .storeHead obj n consNext =>
    some
      { s with
        r := { s.r with cons := { s.r.cons with head := consNext } }
        pos := { s.pos with consHead := s.pos.consHead + n.toNat }
        cons := .storeTail obj consNext }
  | .storeTail _ consNext =>
    -- the table goes back to the caller with `n`
    some
      { s with
        r := { s.r with cons := { s.r.cons with tail := consNext } }
        pos := { s.pos with consTail := s.pos.consHead }
        cons := .idle }

/-- A ring of which no thread has heard yet, with its four indices at `v`. -/
def initial (r : Ring α) (v : U32) : MpSys τ α where
  r := r.startAt v
  pos := { prodHead := v.toNat, prodTail := v.toNat, consHead := v.toNat, consTail := v.toNat }
  prods := fun _ => .idle
  cons := .idle

end MpSys

/-- A thread calls its function or goes on inside it. -/
inductive MpLabel (τ α : Type*) where
  | prodCall (t : τ) (obj : ℕ → α) (n : U32)
  | prodNext (t : τ)
  | consCall (obj : ℕ → α) (n : U32)
  | consNext

/-- The step relation. A dequeue of no object returns at once. -/
inductive MpStep : MpSys τ α → MpLabel τ α → MpSys τ α → Prop
  | prodCall {s : MpSys τ α} (t : τ) (obj : ℕ → α) (n : U32) (h : s.prods t = .idle) :
      MpStep s (.prodCall t obj n) (s.setProd t (.readHead obj n))
  | prodNext {s s' : MpSys τ α} (t : τ) (h : s.prodNext t = some s') :
      MpStep s (.prodNext t) s'
  | consCall {s : MpSys τ α} (obj : ℕ → α) (n : U32) (h : s.cons = .idle) :
      MpStep s (.consCall obj n)
        { s with cons := if n = 0 then .idle else .readHead obj n }
  | consNext {s s' : MpSys τ α} (h : s.consNext = some s') : MpStep s .consNext s'

/-- The step is not the store of a `prod.tail` that has moved since the test, made by a producer that
reserved nothing. -/
def MpGuard (s : MpSys τ α) : MpLabel τ α → Prop
  | .prodNext t =>
    ∀ res, s.prods t = .store res → res.n = 0 → s.r.prod.tail = res.prodHead
  | _ => True

/-! ### Safety -/

/-- Position `i` is one of the reserved ones. -/
def Reservation.Covers (res : Reservation) (i : ℕ) : Prop :=
  res.start ≤ i ∧ i < res.start + res.n.toNat

/-- The reservation a producer holds, from the compare-and-set to its store of `prod.tail`. -/
def ProdPc.reservation : ProdPc α → Option Reservation
  | .copy _ res | .test res | .store res => some res
  | _ => none

/-- What the multi-producer protocol promises of a ring of `size` slots. -/
structure MpSafe (size : ℕ) (s : MpSys τ α) : Prop where
  /-- Different producers reserve different positions. -/
  disjoint : ∀ t u res res', t ≠ u → (s.prods t).reservation = some res →
    (s.prods u).reservation = some res' → ∀ i, ¬ (res.Covers i ∧ res'.Covers i)
  /-- `prod.tail` has not passed a position that is still to be copied. -/
  uncopied : ∀ t obj res, s.prods t = .copy obj res → ∀ i, res.Covers i → s.pos.prodTail ≤ i
  consHead_le : s.pos.consHead ≤ s.pos.prodTail
  prodTail_le : s.pos.prodTail ≤ s.pos.prodHead
  prodHead_le : s.pos.prodHead ≤ s.pos.consTail + (size - 1)
  /-- The indices and the reserved ranges are at these positions. -/
  prodHead_eq : s.r.prod.head = BitVec.ofNat 32 s.pos.prodHead
  prodTail_eq : s.r.prod.tail = BitVec.ofNat 32 s.pos.prodTail
  consHead_eq : s.r.cons.head = BitVec.ofNat 32 s.pos.consHead
  consTail_eq : s.r.cons.tail = BitVec.ofNat 32 s.pos.consTail
  reserved_eq : ∀ t res, (s.prods t).reservation = some res →
    res.prodHead = BitVec.ofNat 32 res.start ∧
      res.prodNext = BitVec.ofNat 32 (res.start + res.n.toNat)

/-! ### The invariant -/

/-- A reservation and the positions of the indices. -/
structure Reservation.Ok (base : ℕ) (pos : RingPos) (res : Reservation) : Prop where
  prodHead_eq : res.prodHead = BitVec.ofNat 32 res.start
  prodNext_eq : res.prodNext = BitVec.ofNat 32 (res.start + res.n.toNat)
  base_le : base ≤ res.start
  le_prodHead : res.start + res.n.toNat ≤ pos.prodHead
  /-- Nobody else publishes a position of it. -/
  prodTail_le : res.n ≠ 0 → pos.prodTail ≤ res.start

/-- What a producer knows at each point. -/
def ProdOk (base mask : ℕ) (pos : RingPos) : ProdPc α → Prop
  | .idle | .readHead _ _ => True
  | .readTail _ _ prodHead start =>
    prodHead = BitVec.ofNat 32 start ∧ base ≤ start ∧ start ≤ pos.prodHead
  | .cas _ _ res =>
    res.prodHead = BitVec.ofNat 32 res.start ∧
      res.prodNext = BitVec.ofNat 32 (res.start + res.n.toNat) ∧
      base ≤ res.start ∧ res.start ≤ pos.prodHead ∧
      -- if `prod.head` has not moved since it was read, there is room for `n` objects
      (res.start = pos.prodHead → res.start + res.n.toNat ≤ pos.consTail + mask)
  | .copy _ res | .test res => res.Ok base pos
  | .store res => res.Ok base pos ∧ (res.n ≠ 0 → pos.prodTail = res.start)

/-- What the consumer knows at each point. -/
def ConsOk (pos : RingPos) : ConsPc α → Prop
  | .idle | .readHead _ _ => pos.consTail = pos.consHead
  | .readTail _ _ consHead =>
    pos.consTail = pos.consHead ∧ consHead = BitVec.ofNat 32 pos.consHead
  | .copy _ n _ consNext | .storeHead _ n consNext =>
    pos.consTail = pos.consHead ∧ pos.consHead + n.toNat ≤ pos.prodTail ∧
      consNext = BitVec.ofNat 32 (pos.consHead + n.toNat)
  | .storeTail _ consNext => consNext = BitVec.ofNat 32 pos.consHead

/-- The invariant of the protocol on a ring of `mask + 1` slots whose indices started at `base`. -/
structure MpInv (base mask : ℕ) (s : MpSys τ α) : Prop where
  mask_eq : s.r.prod.mask = BitVec.ofNat 32 mask
  prodHead_eq : s.r.prod.head = BitVec.ofNat 32 s.pos.prodHead
  prodTail_eq : s.r.prod.tail = BitVec.ofNat 32 s.pos.prodTail
  consHead_eq : s.r.cons.head = BitVec.ofNat 32 s.pos.consHead
  consTail_eq : s.r.cons.tail = BitVec.ofNat 32 s.pos.consTail
  base_le : base ≤ s.pos.consTail
  consTail_le : s.pos.consTail ≤ s.pos.consHead
  consHead_le : s.pos.consHead ≤ s.pos.prodTail
  prodTail_le : s.pos.prodTail ≤ s.pos.prodHead
  prodHead_le : s.pos.prodHead ≤ s.pos.consTail + mask
  prods_ok : ∀ t, ProdOk base mask s.pos (s.prods t)
  disjoint : ∀ t u res res', t ≠ u → (s.prods t).reservation = some res →
    (s.prods u).reservation = some res' → ∀ i, ¬ (res.Covers i ∧ res'.Covers i)
  cons_ok : ConsOk s.pos s.cons

section Positions

variable {base mask : ℕ} {pos pos' : RingPos}

/-- A reservation stays right while `prod.tail` stays and `prod.head` moves on. -/
theorem Reservation.Ok.mono {res : Reservation} (h : res.Ok base pos)
    (hhead : pos.prodHead ≤ pos'.prodHead) (htail : pos'.prodTail = pos.prodTail) :
    res.Ok base pos' :=
  { h with
    le_prodHead := h.le_prodHead.trans hhead
    prodTail_le := by
      intro hn
      rw [htail]
      exact h.prodTail_le hn }

/-- What a producer knows survives the steps of the others that leave `prod.tail` alone. -/
theorem ProdOk.mono {pc : ProdPc α} (h : ProdOk base mask pos pc)
    (hhead : pos.prodHead ≤ pos'.prodHead) (hcons : pos.consTail ≤ pos'.consTail)
    (htail : pos'.prodTail = pos.prodTail) : ProdOk base mask pos' pc := by
  cases pc with
  | idle => trivial
  | readHead obj max => trivial
  | readTail obj max prodHead start => exact ⟨h.1, h.2.1, h.2.2.trans hhead⟩
  | cas obj max res =>
    obtain ⟨h1, h2, h3, h4, h5⟩ := h
    refine ⟨h1, h2, h3, h4.trans hhead, ?_⟩
    intro heq
    -- `prod.head` is back where it was read only if it never moved
    have hsame : res.start = pos.prodHead := by omega
    have := h5 hsame
    omega
  | copy obj res => exact Reservation.Ok.mono h hhead htail
  | test res => exact Reservation.Ok.mono h hhead htail
  | store res =>
    refine ⟨h.1.mono hhead htail, ?_⟩
    rw [htail]
    exact h.2

/-- What the consumer knows survives the steps of the producers: `prod.tail` moves on. -/
theorem ConsOk.mono {pc : ConsPc α} (h : ConsOk pos pc) (hhead : pos'.consHead = pos.consHead)
    (hcons : pos'.consTail = pos.consTail) (htail : pos.prodTail ≤ pos'.prodTail) :
    ConsOk pos' pc := by
  cases pc <;> simp only [ConsOk, hhead, hcons] at h ⊢
  case copy => exact ⟨h.1, h.2.1.trans htail, h.2.2⟩
  case storeHead => exact ⟨h.1, h.2.1.trans htail, h.2.2⟩
  all_goals exact h

/-- The number of objects a producer settles on fits behind the `prod.head` it read. -/
theorem toNat_mpEntries_le {head tail : ℕ} (max : U32) (hle : tail ≤ head)
    (hroom : head ≤ tail + mask) (hmask : mask < 2 ^ 32) :
    head + (mpEntries (BitVec.ofNat 32 mask) (BitVec.ofNat 32 tail) (BitVec.ofNat 32 head)
      max).toNat ≤ tail + mask := by
  have hfree : (BitVec.ofNat 32 mask + BitVec.ofNat 32 tail - BitVec.ofNat 32 head).toNat =
      mask + tail - head := by
    rw [← BitVec.ofNat_add]
    exact Lib.toNat_ofNat_sub_ofNat (by omega) (by omega)
  unfold mpEntries
  dsimp only
  split
  · rw [hfree]
    omega
  · next hgt =>
    have : max.toNat ≤ mask + tail - head := by
      rw [← hfree]
      exact BitVec.not_lt.mp hgt
    omega

end Positions

section Steps

variable {base mask : ℕ} {s s' : MpSys τ α}

/-- The producers after a step of thread `t`. -/
theorem MpInv.prods_ok_setProd (h : MpInv base mask s) {pos' : RingPos} {t : τ} {pc : ProdPc α}
    (hhead : s.pos.prodHead ≤ pos'.prodHead) (hcons : s.pos.consTail ≤ pos'.consTail)
    (htail : pos'.prodTail = s.pos.prodTail) (hpc : ProdOk base mask pos' pc) (u : τ) :
    ProdOk base mask pos' ((s.setProd t pc).prods u) := by
  by_cases hu : u = t
  · subst hu
    change ProdOk base mask pos' (Function.update s.prods u pc u)
    rwa [Function.update_self]
  · change ProdOk base mask pos' (Function.update s.prods t pc u)
    rw [Function.update_of_ne hu]
    exact (h.prods_ok u).mono hhead hcons htail

/-- The reservations after a step of thread `t` that brings no position another one holds. -/
theorem MpInv.disjoint_setProd (h : MpInv base mask s) {t : τ} {pc : ProdPc α}
    (hpc : ∀ res, pc.reservation = some res → ∀ u, u ≠ t → ∀ res',
      (s.prods u).reservation = some res' → ∀ i, ¬ (res.Covers i ∧ res'.Covers i)) :
    ∀ u v res res', u ≠ v → ((s.setProd t pc).prods u).reservation = some res →
      ((s.setProd t pc).prods v).reservation = some res' → ∀ i, ¬ (res.Covers i ∧ res'.Covers i) := by
  intro u v res res' huv hu hv i
  change (Function.update s.prods t pc u).reservation = _ at hu
  change (Function.update s.prods t pc v).reservation = _ at hv
  -- one of the two is thread `t`, or neither is
  by_cases hut : u = t
  · subst hut
    rw [Function.update_self] at hu
    rw [Function.update_of_ne huv.symm] at hv
    exact hpc res hu v huv.symm res' hv i
  · rw [Function.update_of_ne hut] at hu
    by_cases hvt : v = t
    · subst hvt
      rw [Function.update_self] at hv
      intro hi
      exact hpc res' hv u hut res hu i hi.symm
    · rw [Function.update_of_ne hvt] at hv
      exact h.disjoint u v res res' huv hu hv i

/-- A step of thread `t` that moves no index and reserves nothing new. -/
theorem MpInv.setProd (h : MpInv base mask s) {t : τ} {pc : ProdPc α}
    (hpc : ProdOk base mask s.pos pc)
    (hres : pc.reservation = none ∨ pc.reservation = (s.prods t).reservation) :
    MpInv base mask (s.setProd t pc) :=
  { h with
    prods_ok := h.prods_ok_setProd le_rfl le_rfl rfl hpc
    disjoint := by
      apply h.disjoint_setProd
      intro res hpcres u hu res' hu'
      rcases hres with hnone | hsame
      · rw [hnone] at hpcres
        cases hpcres
      · rw [hsame] at hpcres
        exact h.disjoint t u res res' hu.symm hpcres hu' }

omit [DecidableEq τ] in
theorem MpInv.base_le_prodTail (h : MpInv base mask s) : base ≤ s.pos.prodTail :=
  h.base_le.trans (h.consTail_le.trans h.consHead_le)

/-- Two positions of the run whose words are equal are equal. -/
theorem eq_of_word_eq (base : ℕ) {i j : ℕ} (hword : BitVec.ofNat 32 i = BitVec.ofNat 32 j) (hi : base ≤ i)
    (hi' : i < base + 2 ^ 32) (hj : base ≤ j) (hj' : j < base + 2 ^ 32) : i = j := by
  rcases Nat.le_total i j with hij | hji
  · exact Lib.eq_of_ofNat_eq hword hij (by omega)
  · exact (Lib.eq_of_ofNat_eq hword.symm hji (by omega)).symm

/-- `cons_tail` is read: the producer settles on `n`. -/
theorem MpInv.prodReadTail (h : MpInv base mask s) (hmask : mask < 2 ^ 32) {t : τ} {obj : ℕ → α}
    {max prodHead : U32} {start : ℕ} (hpc : s.prods t = .readTail obj max prodHead start) :
    let n := mpEntries s.r.prod.mask s.r.cons.tail prodHead max
    MpInv base mask
      (s.setProd t (.cas obj max { prodHead, n, prodNext := prodHead + n, start })) := by
  have hok := h.prods_ok t
  rw [hpc] at hok
  obtain ⟨rfl, hbase, hle⟩ := hok
  -- no index moves: only what the producer knows has to be checked
  refine h.setProd ⟨rfl, ?_, hbase, hle, ?_⟩ (.inl rfl)
  · rw [BitVec.ofNat_add]
    simp
  · -- the positions in between are those of the ring at this moment
    intro hhead
    rw [h.mask_eq, h.consTail_eq]
    change start = s.pos.prodHead at hhead
    subst hhead
    exact toNat_mpEntries_le max (h.consTail_le.trans (h.consHead_le.trans h.prodTail_le))
      h.prodHead_le hmask

/-- The compare-and-set succeeds: the producer owns the positions from the old `prod.head` on. -/
theorem MpInv.prodCas (h : MpInv base mask s) {t : τ} {obj : ℕ → α} {max : U32} {res : Reservation}
    (hlt : s.pos.prodHead < base + 2 ^ 32) (hpc : s.prods t = .cas obj max res)
    (hword : s.r.prod.head = res.prodHead) :
    MpInv base mask
      { s.setProd t (.copy obj res) with
        r := { s.r with prod := { s.r.prod with head := res.prodNext } }
        pos := { s.pos with prodHead := s.pos.prodHead + res.n.toNat } } := by
  have hok := h.prods_ok t
  rw [hpc] at hok
  obtain ⟨hph, hpn, hbase, hle, hroom⟩ := hok
  have htail := h.base_le_prodTail.trans h.prodTail_le
  -- fewer than `2^32` objects: the word has not come round to the same value
  have hstart : res.start = s.pos.prodHead := by
    apply eq_of_word_eq base _ hbase (by omega) htail hlt
    rw [← hph, ← hword, h.prodHead_eq]
  refine { h with
    prodHead_eq := ?_, prodTail_le := ?_, prodHead_le := ?_, prods_ok := ?_, disjoint := ?_
    cons_ok := h.cons_ok }
  · change res.prodNext = BitVec.ofNat 32 (s.pos.prodHead + res.n.toNat)
    rw [hpn, hstart]
  · exact h.prodTail_le.trans (Nat.le_add_right _ _)
  · rw [← hstart]
    exact hroom hstart
  · refine h.prods_ok_setProd (Nat.le_add_right _ _) le_rfl rfl ⟨hph, hpn, hbase, ?_, ?_⟩
    · change res.start + _ ≤ s.pos.prodHead + _
      rw [hstart]
    · intro _
      change s.pos.prodTail ≤ res.start
      rw [hstart]
      exact h.prodTail_le
  · apply h.disjoint_setProd
    intro res₀ hres₀ u hu res' hres' i
    obtain rfl : res = res₀ := Option.some.inj hres₀
    -- every other reservation ends where this one starts
    have hend : res'.start + res'.n.toNat ≤ s.pos.prodHead := by
      have hu' := h.prods_ok u
      cases hpcu : s.prods u <;> rw [hpcu] at hu' hres' <;> cases hres'
      · exact hu'.le_prodHead
      · exact hu'.le_prodHead
      · exact hu'.1.le_prodHead
    rintro ⟨⟨h1, -⟩, -, h2⟩
    omega

omit [DecidableEq τ] in
/-- The reservation a thread holds is right. -/
theorem MpInv.reservation_ok (h : MpInv base mask s) {t : τ} {res : Reservation}
    (hres : (s.prods t).reservation = some res) : res.Ok base s.pos := by
  have hok := h.prods_ok t
  cases hpc : s.prods t <;> rw [hpc] at hok hres <;> cases hres
  · exact hok
  · exact hok
  · exact hok.1

omit [DecidableEq τ] in
/-- A producer that the guard lets store `prod.tail` finds it at the start of its reservation. -/
theorem MpInv.prodTail_eq_start (h : MpInv base mask s) (hlt : s.pos.prodHead < base + 2 ^ 32)
    {t : τ} {res : Reservation} (hguard : MpGuard s (.prodNext t)) (hpc : s.prods t = .store res) :
    s.pos.prodTail = res.start := by
  have hok := h.prods_ok t
  rw [hpc] at hok
  by_cases hn : res.n = 0
  · -- nothing is reserved: the guard says that `prod.tail` is still where the test found it
    have hword := hguard res hpc hn
    rw [h.prodTail_eq, hok.1.prodHead_eq] at hword
    have hbase := h.base_le_prodTail
    have htail := h.prodTail_le
    have hle := hok.1.le_prodHead
    exact eq_of_word_eq base hword hbase (by omega) hok.1.base_le (by omega)
  · exact hok.2 hn

/-- `prod.tail` is stored: it moves to the end of a reservation that starts where it was, and no
other producer has positions there. -/
theorem MpInv.prodStore (h : MpInv base mask s) {t : τ} {res : Reservation}
    (hpc : s.prods t = .store res) (hstart : s.pos.prodTail = res.start) :
    MpInv base mask
      { s.setProd t .idle with
        r := { s.r with prod := { s.r.prod with tail := res.prodNext } }
        pos := { s.pos with prodTail := res.start + res.n.toNat } } := by
  have hres : (s.prods t).reservation = some res := by rw [hpc]; rfl
  have hok := h.reservation_ok hres
  refine { h with
    prodTail_eq := hok.prodNext_eq, consHead_le := ?_, prodTail_le := hok.le_prodHead
    prods_ok := ?_, disjoint := ?_, cons_ok := ?_ }
  · change s.pos.consHead ≤ res.start + _
    rw [← hstart]
    exact h.consHead_le.trans (Nat.le_add_right _ _)
  · intro u
    change ProdOk _ _ _ (Function.update s.prods t .idle u)
    by_cases hu : u = t
    · subst hu
      rw [Function.update_self]
      trivial
    · rw [Function.update_of_ne hu]
      -- a reservation that is not empty starts behind this one, which it does not meet
      have hbehind : ∀ res', (s.prods u).reservation = some res' → res'.n ≠ 0 →
          res.start + res.n.toNat ≤ res'.start := by
        intro res' hres' hn
        have hle := (h.reservation_ok hres').prodTail_le hn
        by_contra hlt
        refine h.disjoint t u res res' (Ne.symm hu) hres hres' res'.start ⟨⟨by omega, by omega⟩, ?_⟩
        exact ⟨le_rfl, by bv_omega⟩
      have hu' := h.prods_ok u
      cases hpcu : s.prods u with
      | idle => trivial
      | readHead obj max => trivial
      | readTail obj max prodHead start => rw [hpcu] at hu'; exact hu'
      | cas obj max res' => rw [hpcu] at hu'; exact hu'
      | copy obj res' =>
        rw [hpcu] at hu' hbehind
        exact { hu' with prodTail_le := hbehind res' rfl }
      | test res' =>
        rw [hpcu] at hu' hbehind
        exact { hu' with prodTail_le := hbehind res' rfl }
      | store res' =>
        rw [hpcu] at hu' hbehind
        refine ⟨{ hu'.1 with prodTail_le := hbehind res' rfl }, ?_⟩
        intro hn
        -- both start at `prod.tail`
        have h1 := hbehind res' rfl hn
        have h2 := hu'.2 hn
        change res.start + res.n.toNat = res'.start
        omega
  · apply h.disjoint_setProd
    intro res' hres'
    cases hres'
  · refine h.cons_ok.mono rfl rfl ?_
    change s.pos.prodTail ≤ res.start + res.n.toNat
    omega

/-- Every step inside `_cmt_ring_mp_do_enqueue` keeps the invariant, unless it is the store the
guard excludes. -/
theorem MpInv.prodNext (h : MpInv base mask s) (hmask : mask < 2 ^ 32)
    (hlt : s.pos.prodHead < base + 2 ^ 32) {t : τ} (hguard : MpGuard s (.prodNext t))
    (hs : s.prodNext t = some s') : MpInv base mask s' := by
  have hbase := h.base_le_prodTail
  have htail := h.prodTail_le
  unfold MpSys.prodNext at hs
  cases hpc : s.prods t with
  | idle => rw [hpc] at hs; cases hs
  | readHead obj max =>
    rw [hpc] at hs
    obtain rfl := Option.some.inj hs
    -- `prod.head` is read
    exact h.setProd ⟨h.prodHead_eq, hbase.trans htail, le_rfl⟩ (.inl rfl)
  | readTail obj max prodHead start =>
    rw [hpc] at hs
    obtain rfl := Option.some.inj hs
    exact h.prodReadTail hmask hpc
  | cas obj max res =>
    rw [hpc] at hs
    dsimp only at hs
    split at hs
    · next hword =>
      obtain rfl := Option.some.inj hs
      exact h.prodCas hlt hpc hword
    · obtain rfl := Option.some.inj hs
      -- the compare-and-set fails, and the loop starts over
      exact h.setProd trivial (.inl rfl)
  | copy obj res =>
    rw [hpc] at hs
    obtain rfl := Option.some.inj hs
    have hok := h.prods_ok t
    rw [hpc] at hok
    -- the copy moves no index
    have hset : MpInv base mask (s.setProd t (.test res)) := h.setProd hok (.inr (by rw [hpc]; rfl))
    exact { hset with
      mask_eq := by rw [enqueueElms64_prod]; exact hset.mask_eq
      prodHead_eq := by rw [enqueueElms64_prod]; exact hset.prodHead_eq
      prodTail_eq := by rw [enqueueElms64_prod]; exact hset.prodTail_eq
      consHead_eq := by rw [enqueueElms64_cons]; exact hset.consHead_eq
      consTail_eq := by rw [enqueueElms64_cons]; exact hset.consTail_eq }
  | test res =>
    rw [hpc] at hs
    dsimp only at hs
    split at hs
    · obtain rfl := Option.some.inj hs
      exact h
    · next hword =>
      obtain rfl := Option.some.inj hs
      have hok := h.prods_ok t
      rw [hpc] at hok
      -- the test passed: equal words are equal positions
      refine h.setProd ⟨hok, fun _ => ?_⟩ (.inr (by rw [hpc]; rfl))
      have hword' := not_not.mp hword
      rw [h.prodTail_eq, Reservation.Ok.prodHead_eq hok] at hword'
      have hle := Reservation.Ok.le_prodHead hok
      exact eq_of_word_eq base hword' hbase (by omega) (Reservation.Ok.base_le hok) (by omega)
  | store res =>
    rw [hpc] at hs
    obtain rfl := Option.some.inj hs
    exact h.prodStore hpc (h.prodTail_eq_start hlt hguard hpc)

omit [DecidableEq τ] in
/-- Every step inside `_cmt_ring_sc_do_dequeue` keeps the invariant. -/
theorem MpInv.consNext (h : MpInv base mask s) (hmask : mask < 2 ^ 32)
    (hs : s.consNext = some s') : MpInv base mask s' := by
  have hok := h.cons_ok
  unfold MpSys.consNext at hs
  cases hpc : s.cons with
  | idle => rw [hpc] at hs; cases hs
  | readHead obj n =>
    rw [hpc] at hs hok
    obtain rfl := Option.some.inj hs
    exact { h with cons_ok := ⟨hok, h.consHead_eq⟩ }
  | readTail obj n consHead =>
    rw [hpc] at hs hok
    obtain ⟨htail, rfl⟩ := hok
    dsimp only at hs
    split at hs
    · obtain rfl := Option.some.inj hs
      -- too few objects: the call gives up
      exact { h with cons_ok := htail }
    · next hn =>
      obtain rfl := Option.some.inj hs
      have hle1 := h.consHead_le
      have hle2 := h.prodTail_le
      have hle3 := h.prodHead_le
      -- the difference of the words is that of the positions
      have hentries : (s.r.prod.tail - BitVec.ofNat 32 s.pos.consHead).toNat =
          s.pos.prodTail - s.pos.consHead := by
        rw [h.prodTail_eq]
        exact Lib.toNat_ofNat_sub_ofNat hle1 (by omega)
      have hn' : n.toNat ≤ s.pos.prodTail - s.pos.consHead := by
        rw [← hentries]
        exact BitVec.not_lt.mp hn
      have hsum : s.pos.consHead + n.toNat ≤ s.pos.prodTail := by omega
      refine { h with cons_ok := ⟨htail, hsum, ?_⟩ }
      rw [BitVec.ofNat_add]
      simp
  | copy obj n consHead consNext =>
    rw [hpc] at hs hok
    obtain rfl := Option.some.inj hs
    exact { h with cons_ok := hok }
  | storeHead obj n consNext =>
    rw [hpc] at hs hok
    obtain ⟨htail, hle, hnext⟩ := hok
    obtain rfl := Option.some.inj hs
    -- `cons.head` moves first; the slots are given up by the next store
    refine { h with
      consHead_eq := hnext, consTail_le := ?_, consHead_le := hle, prods_ok := ?_
      cons_ok := hnext }
    · exact h.consTail_le.trans (Nat.le_add_right _ _)
    · intro t
      exact (h.prods_ok t).mono le_rfl le_rfl rfl
  | storeTail obj consNext =>
    rw [hpc] at hs hok
    obtain rfl := Option.some.inj hs
    refine { h with
      consTail_eq := hok, base_le := h.base_le.trans h.consTail_le, consTail_le := le_rfl
      prodHead_le := ?_, prods_ok := ?_, cons_ok := rfl }
    · exact h.prodHead_le.trans (Nat.add_le_add_right h.consTail_le mask)
    · intro t
      exact (h.prods_ok t).mono le_rfl h.consTail_le rfl

/-- Every step but the excluded store keeps the invariant. -/
theorem MpInv.step (h : MpInv base mask s) (hmask : mask < 2 ^ 32)
    (hlt : s.pos.prodHead < base + 2 ^ 32) {l : MpLabel τ α} (hs : Lib.Guarded MpGuard MpStep s l s') :
    MpInv base mask s' := by
  obtain ⟨hguard, hs⟩ := hs
  cases hs with
  | prodCall t obj n hidle => exact h.setProd trivial (.inl rfl)
  | prodNext t hs => exact h.prodNext hmask hlt hguard hs
  | consCall obj n hidle =>
    have hok := h.cons_ok
    rw [hidle] at hok
    refine { h with cons_ok := ?_ }
    change ConsOk s.pos (if n = 0 then .idle else .readHead obj n)
    split
    · exact hok
    · exact hok
  | consNext hs => exact h.consNext hmask hs

omit [DecidableEq τ] in
/-- The consumer moves its own positions only. -/
theorem consNext_pos (hs : s.consNext = some s') :
    s'.pos.prodHead = s.pos.prodHead ∧ s'.pos.prodTail = s.pos.prodTail := by
  unfold MpSys.consNext at hs
  split at hs
  · cases hs
  · cases hs; exact ⟨rfl, rfl⟩
  · split at hs <;> cases hs <;> exact ⟨rfl, rfl⟩
  all_goals cases hs; exact ⟨rfl, rfl⟩

/-- `prod.tail` only moves on where the invariant holds. -/
theorem MpInv.step_mono (h : MpInv base mask s) (hlt : s.pos.prodHead < base + 2 ^ 32)
    {l : MpLabel τ α} (hs : Lib.Guarded MpGuard MpStep s l s') :
    s.pos.prodTail ≤ s'.pos.prodTail := by
  obtain ⟨hguard, hs⟩ := hs
  cases hs with
  | prodCall t obj n hidle => exact le_rfl
  | consCall obj n hidle => exact le_rfl
  | consNext hs => exact (consNext_pos hs).2.ge
  | prodNext t hs =>
    unfold MpSys.prodNext at hs
    cases hpc : s.prods t with
    | store res =>
      -- the only store to `prod.tail`
      rw [hpc] at hs
      cases hs
      change s.pos.prodTail ≤ res.start + res.n.toNat
      rw [h.prodTail_eq_start hlt hguard hpc]
      exact Nat.le_add_right _ _
    | idle => rw [hpc] at hs; cases hs
    | cas obj max res =>
      rw [hpc] at hs
      dsimp only at hs
      split at hs <;> cases hs <;> exact le_rfl
    | test res =>
      rw [hpc] at hs
      dsimp only at hs
      split at hs <;> cases hs <;> exact le_rfl
    | _ => rw [hpc] at hs; cases hs; exact le_rfl

/-- `prod.head` never moves backward. -/
theorem MpStep.prodHead_mono {l : MpLabel τ α} (hs : MpStep s l s') :
    s.pos.prodHead ≤ s'.pos.prodHead := by
  cases hs with
  | prodCall t obj n hidle => exact le_rfl
  | consCall obj n hidle => exact le_rfl
  | consNext hs => exact (consNext_pos hs).1.ge
  | prodNext t hs =>
    unfold MpSys.prodNext at hs
    split at hs
    · cases hs
    · cases hs; exact le_rfl
    · cases hs; exact le_rfl
    · -- only the compare-and-set moves it
      split at hs <;> cases hs
      · exact Nat.le_add_right _ _
      · exact le_rfl
    · cases hs; exact le_rfl
    · split at hs <;> cases hs <;> exact le_rfl
    · cases hs; exact le_rfl

end Steps

/-! ### Runs -/

section Run

variable {k : ℕ} {r : Ring α} {v : U32} {s : MpSys τ α} {ls : List (MpLabel τ α)}

omit [DecidableEq τ] in
theorem MpInv.initial (hmask : r.prod.mask = BitVec.ofNat 32 (2 ^ k - 1)) :
    MpInv v.toNat (2 ^ k - 1) (MpSys.initial r v : MpSys τ α) where
  mask_eq := hmask
  prodHead_eq := by simp [MpSys.initial, Ring.startAt]
  prodTail_eq := by simp [MpSys.initial, Ring.startAt]
  consHead_eq := by simp [MpSys.initial, Ring.startAt]
  consTail_eq := by simp [MpSys.initial, Ring.startAt]
  base_le := le_rfl
  consTail_le := le_rfl
  consHead_le := le_rfl
  prodTail_le := le_rfl
  prodHead_le := Nat.le_add_right _ _
  prods_ok := fun _ => trivial
  disjoint := fun _ _ _ _ _ h => by cases h
  cons_ok := rfl

/-- The invariant holds in every run of fewer than `2^32` objects whose steps the guard allows. -/
theorem MpInv.run {base mask : ℕ} {s s' : MpSys τ α} (h : MpInv base mask s)
    (hmask : mask < 2 ^ 32) (hrun : Lib.Run (Lib.Guarded MpGuard MpStep) s ls s')
    (hlt : s'.pos.prodHead < base + 2 ^ 32) :
    MpInv base mask s' ∧ s.pos.prodTail ≤ s'.pos.prodTail := by
  refine hrun.invariant
    (fun t => t.pos.prodHead < base + 2 ^ 32 → MpInv base mask t ∧ s.pos.prodTail ≤ t.pos.prodTail)
    (fun _ => ⟨h, le_rfl⟩) ?_ hlt
  intro t l u ih hs hlt'
  -- the bound at the end bounds every state before it
  have hlt : t.pos.prodHead < base + 2 ^ 32 := hs.2.prodHead_mono.trans_lt hlt'
  obtain ⟨hinv, hle⟩ := ih hlt
  exact ⟨hinv.step hmask hlt hs, hle.trans (hinv.step_mono hlt hs)⟩

omit [DecidableEq τ] in
theorem MpInv.safe {base : ℕ} (h : MpInv base (2 ^ k - 1) s) : MpSafe (2 ^ k) s where
  disjoint := h.disjoint
  uncopied := by
    intro t obj res hpc i hi
    have hok := h.prods_ok t
    rw [hpc] at hok
    -- a position is covered, so the reservation is not empty
    have hn : res.n ≠ 0 := by
      intro hn
      obtain ⟨h1, h2⟩ := hi
      rw [hn] at h2
      exact absurd h2 (Nat.not_lt.mpr h1)
    exact (Reservation.Ok.prodTail_le hok hn).trans hi.1
  consHead_le := h.consHead_le
  prodTail_le := h.prodTail_le
  prodHead_le := h.prodHead_le
  prodHead_eq := h.prodHead_eq
  prodTail_eq := h.prodTail_eq
  consHead_eq := h.consHead_eq
  consTail_eq := h.consTail_eq
  reserved_eq := fun _ _ hres => ⟨(h.reservation_ok hres).prodHead_eq, (h.reservation_ok hres).prodNext_eq⟩

end Run

/-- **The multi-producer protocol is safe while no producer stores a `prod.tail` that has moved
since its test.** On a ring of `2^k` slots, at whatever its indices start, in every run of fewer than
`2^32` objects whose steps all meet the guard: the reserved ranges are disjoint, `prod.tail` passes
no position still to be copied and never moves backward, and the indices stay in order. -/
theorem mpRing_safe (k : ℕ) (hk : 1 ≤ k ∧ k < 32) (mem : ℕ → α) (sp sc : U32) (r : Ring α)
    (hr : cmtRingCreate (some mem) (BitVec.ofNat 32 (2 ^ k)) sp sc = .ok r) (v : U32)
    (ls : List (MpLabel τ α)) (s : MpSys τ α)
    (hrun : Lib.Run (Lib.Guarded MpGuard MpStep) (MpSys.initial r v) ls s)
    (htotal : s.pos.prodHead < v.toNat + 2 ^ 32) :
    MpSafe (2 ^ k) s ∧
      ∀ ls' s', Lib.Run (Lib.Guarded MpGuard MpStep) s ls' s' →
        s'.pos.prodHead < v.toNat + 2 ^ 32 → s.pos.prodTail ≤ s'.pos.prodTail := by
  have hlt : 2 ^ k < 2 ^ 32 := Nat.pow_lt_pow_right (by decide) hk.2
  have hmask : r.prod.mask = BitVec.ofNat 32 (2 ^ k - 1) := by
    apply BitVec.eq_of_toNat_eq
    rw [(cmtRingCreate_mask hr).1, toNat_mask hk.2, BitVec.toNat_ofNat, Nat.mod_eq_of_lt (by omega)]
  have hinv := ((MpInv.initial (v := v) hmask).run (by omega) hrun htotal).1
  exact ⟨hinv.safe, fun ls' s' hrun' hlt' => (hinv.run (by omega) hrun' hlt').2⟩

/-- A ring of four slots. -/
def fourSlots : Ring ℕ where
  prod := { spEnqueue := 1, size := 4, mask := 3, head := 0, tail := 0 }
  cons := { scDequeue := 1, size := 4, mask := 3, head := 0, tail := 0 }
  ring := fun _ => 0

/-- Two producers of one object each, side by side: both read the same `prod.head`, thread `false` loses
its compare-and-set and comes round again, and it waits until thread `true` has published. -/
def twoProducers (obj₁ obj₂ : ℕ → ℕ) : List (MpLabel Bool ℕ) :=
  [.prodCall true obj₁ 1, .prodNext true, .prodNext true,
    .prodCall false obj₂ 1, .prodNext false, .prodNext false,
    .prodNext true, .prodNext false, .prodNext false, .prodNext false, .prodNext false, .prodNext false,
    .prodNext false, .prodNext true, .prodNext true, .prodNext true, .prodNext false, .prodNext false]

/-- Two producers put an object each into a ring of four slots. -/
theorem mpRing_safe_fourSlots :
    ∃ s : MpSys Bool ℕ,
      Lib.Run (Lib.Guarded MpGuard MpStep) (MpSys.initial fourSlots 0) (twoProducers id id) s ∧
        s.r.prod.tail = 2 ∧ MpSafe 4 s := by
  have start : Lib.Run (Lib.Guarded MpGuard MpStep) (MpSys.initial fourSlots 0 : MpSys Bool ℕ) [] _ :=
    .nil
  have read₁ := ((start.snoc ⟨by trivial, .prodCall true id 1 rfl⟩).snoc
    ⟨(by intro _ h; cases h), .prodNext true rfl⟩).snoc ⟨(by intro _ h; cases h), .prodNext true rfl⟩
  have read₂ := ((read₁.snoc ⟨by trivial, .prodCall false id 1 rfl⟩).snoc
    ⟨(by intro _ h; cases h), .prodNext false rfl⟩).snoc ⟨(by intro _ h; cases h), .prodNext false rfl⟩
  have won := read₂.snoc ⟨(by intro _ h; cases h), .prodNext true rfl⟩
  have lost := won.snoc ⟨(by intro _ h; cases h), .prodNext false rfl⟩
  have reserved := ((lost.snoc ⟨(by intro _ h; cases h), .prodNext false rfl⟩).snoc
    ⟨(by intro _ h; cases h), .prodNext false rfl⟩).snoc ⟨(by intro _ h; cases h), .prodNext false rfl⟩
  have waiting := (reserved.snoc ⟨(by intro _ h; cases h), .prodNext false rfl⟩).snoc
    ⟨(by intro _ h; cases h), .prodNext false rfl⟩
  have first := ((waiting.snoc ⟨(by intro _ h; cases h), .prodNext true rfl⟩).snoc
    ⟨(by intro _ h; cases h), .prodNext true rfl⟩).snoc
    ⟨(by intro _ h hn; cases h; cases hn), .prodNext true rfl⟩
  have run := (first.snoc ⟨(by intro _ h; cases h), .prodNext false rfl⟩).snoc
    ⟨(by intro _ h hn; cases h; cases hn), .prodNext false rfl⟩
  have hr : cmtRingCreate (some fun _ => 0) (BitVec.ofNat 32 (2 ^ 2)) 1 1 = .ok fourSlots := rfl
  exact ⟨_, run, rfl, (mpRing_safe 2 (by decide) _ 1 1 _ hr 0 _ _ run (by decide)).1⟩

/-- Thread `false` asks for nothing and passes the test, thread `true` reserves, fills and publishes
a slot, and the store of thread `false` takes `prod.tail` back over it. -/
theorem prodTail_moves_backward :
    ∃ s s' : MpSys Bool ℕ,
      Lib.Run MpStep (MpSys.initial twoSlots 0)
        [.prodCall false id 0, .prodNext false, .prodNext false, .prodNext false, .prodNext false,
          .prodNext false, .prodCall true id 1, .prodNext true, .prodNext true, .prodNext true,
          .prodNext true, .prodNext true, .prodNext true] s ∧
        MpStep s (.prodNext false) s' ∧ s'.pos.prodHead < 2 ^ 32 ∧
        s.r.prod.tail = 1 ∧ s'.r.prod.tail = 0 ∧ ¬ s.pos.prodTail ≤ s'.pos.prodTail := by
  have start : Lib.Run MpStep (MpSys.initial twoSlots 0 : MpSys Bool ℕ) [] _ := .nil
  have reserved := (((start.snoc (.prodCall false id 0 rfl)).snoc (.prodNext false rfl)).snoc
    (.prodNext false rfl)).snoc (.prodNext false rfl)
  have waiting := (reserved.snoc (.prodNext false rfl)).snoc (.prodNext false rfl)
  -- thread `false` is about to store the `prod.tail` it has just seen
  have filled := ((((waiting.snoc (.prodCall true id 1 rfl)).snoc (.prodNext true rfl)).snoc
    (.prodNext true rfl)).snoc (.prodNext true rfl)).snoc (.prodNext true rfl)
  have run := (filled.snoc (.prodNext true rfl)).snoc (.prodNext true rfl)
  exact ⟨_, _, run, .prodNext false rfl, by decide, rfl, rfl, by decide⟩

end CmtTcp
