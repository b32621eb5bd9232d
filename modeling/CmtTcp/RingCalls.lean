import CmtTcp.RingCopy
import CmtTcp.RingMp

/-!
# The calls of the ring

The four implementations of `ring.h` on a ring nobody else works on, and over them the functions the
program calls: `cmt_ring_enqueue`, `cmt_ring_enqueue_bulk`, `cmt_dequeue` and `cmt_dequeue_bulk`. Between
calls the ring is `Ring.Quiescent`, and what it holds is the list `Ring.contents`.

The implementations for many threads hand the head they have read to `CASra` as it is, where `CASra`
reads the value that is expected through a pointer. So they get no further than that (`casra`,
`RingFault.badPointer`): the multi-producer enqueue never, the multi-consumer dequeue only when it is
asked for no objects. `mpDoEnqueueWith` and `mcDoDequeueWith` leave open what `CASra` is given: with the
address of the number, as the threads of `RingMp` are taken to do it, the first adds what it has room for
(`Ring.Quiescent.mpDoEnqueueWith_right_iff`), and the second still takes nothing, as it replaces the
number of objects it is asked for by `max`, a constant `0` (`mc_dequeue_never`).

The functions over the implementations translate a count and a `0` of success in the same way, and the
two that dequeue hand on the address of their own parameter in place of the caller's table.
`ringCall_right_iff` says in which states a call is right all the same.
-/

namespace CmtTcp

open Lib (Move Same moveAll)

variable {α : Type*}

/-! ### Copies of whole words -/

section WholeWords

variable {src mem : ℕ → α} {d s n : U32}

theorem moveAll_elmMoves (count : ℕ) :
    moveAll src (elmMoves 1 d s count) mem = copyOnes mem d src s count := by
  induction count generalizing d s mem with
  | zero => rfl
  | succ count ih =>
    rw [copyOnes, ← ih]
    -- a cell is a whole word, so the first move is one update
    change moveAll src _ (Move.run src mem (elmMove 1 d s)) = _
    congr 1
    funext a
    unfold Move.run elmMove
    simp only [Move.Writes, Nat.one_mul]
    by_cases ha : a = d.toNat
    · subst ha
      rw [if_pos ⟨le_rfl, Nat.lt_succ_self _⟩, Function.update_self, Nat.sub_self, Nat.add_zero]
    · rw [if_neg (by omega), Function.update_of_ne ha]

/-- The copy of `copy64`, on a memory whose cells are words. -/
def copyWords : CopyImpl where
  width := 1
  log := 2
  log_lt := copy64.log_lt
  turn := fun d s =>
    [elmMove 1 d s, elmMove 1 (d + 1) (s + 1), elmMove 1 (d + 2) (s + 2), elmMove 1 (d + 3) (s + 3)]
  turn_same := by
    intro d s hd hs
    have h : Same (elmMoves 1 d s 4) [⟨1 * d.toNat, 1 * s.toNat, 1 * 4⟩] := elmMoves_same _ _ hd hs
    simp only [elmMoves, BitVec.add_assoc] at h
    exact h

theorem moveAll_unrolled (tail turns : ℕ) :
    moveAll src (copyWords.unrolled tail d s turns) mem =
      let q := copyQuads mem d src s turns
      copyOnes q.1 q.2.1 src q.2.2 tail := by
  induction turns generalizing d s mem with
  | zero => exact moveAll_elmMoves tail
  | succ turns ih =>
    have hone {d s : U32} {mem : ℕ → α} :
        Move.run src mem (elmMove 1 d s) = Function.update mem d.toNat (src s.toNat) :=
      moveAll_elmMoves 1
    rw [copyQuads, ← hone, ← hone, ← hone, ← hone]
    exact ih

theorem moveAll_straight : moveAll src (copyWords.straight d s n) mem = copyUnrolled mem d src s n :=
  moveAll_unrolled _ _

/-- A straight copy of words. -/
theorem copyUnrolled_apply (hd : d.toNat + n.toNat < 2 ^ 32) (hs : s.toNat + n.toNat < 2 ^ 32) (a : ℕ) :
    copyUnrolled mem d src s n a =
      if d.toNat ≤ a ∧ a < d.toNat + n.toNat then src (s.toNat + (a - d.toNat)) else mem a := by
  have hsame := copyWords.straight_same hd hs
  have hwidth : copyWords.width = 1 := rfl
  rw [hwidth, Nat.one_mul, Nat.one_mul, Nat.one_mul] at hsame
  rw [← moveAll_straight, hsame.moveAll]
  rfl

end WholeWords

/-! ### Rings at rest -/

/-- How many objects the ring holds. -/
def Ring.stored (r : Ring α) : ℕ := (r.prod.tail - r.cons.tail).toNat

/-- The slot of the object number `j`, from the oldest on. -/
def Ring.slot (r : Ring α) (j : ℕ) : ℕ := ((r.cons.tail + BitVec.ofNat 32 j) &&& r.cons.mask).toNat

/-- The objects in the ring, the oldest first. -/
def Ring.contents (r : Ring α) : List α := (List.range r.stored).map fun j => r.ring (r.slot j)

/-- A ring of `2^k` slots with no call under way. -/
structure Ring.Quiescent (r : Ring α) (k : ℕ) : Prop where
  lt : k < 32
  prodSize : r.prod.size = BitVec.ofNat 32 (2 ^ k)
  prodMask : r.prod.mask = BitVec.ofNat 32 (2 ^ k) - 1
  consSize : r.cons.size = BitVec.ofNat 32 (2 ^ k)
  consMask : r.cons.mask = BitVec.ofNat 32 (2 ^ k) - 1
  prodHead_eq : r.prod.head = r.prod.tail
  consHead_eq : r.cons.head = r.cons.tail
  stored_le : r.stored ≤ 2 ^ k - 1

section Rest

variable {r : Ring α} {k : ℕ}

@[simp] theorem Ring.contents_length (r : Ring α) : r.contents.length = r.stored := by
  simp [Ring.contents]

theorem add_mod_two_pow (hk : k < 32) (v : U32) (j : ℕ) :
    (v + BitVec.ofNat 32 j).toNat % 2 ^ k = (v.toNat + j) % 2 ^ k := by
  have hdvd : 2 ^ k ∣ 2 ^ 32 := Nat.pow_dvd_pow 2 hk.le
  rw [BitVec.toNat_add, BitVec.toNat_ofNat, Nat.add_mod_mod, Nat.mod_mod_of_dvd _ hdvd]

namespace Ring.Quiescent

variable (hr : r.Quiescent k)
include hr

theorem slot_eq (j : ℕ) : r.slot j = (r.cons.tail.toNat + j) % 2 ^ k := by
  unfold Ring.slot
  rw [hr.consMask, toNat_and_mask hr.lt, add_mod_two_pow hr.lt]

/-- The first free slot. -/
theorem toNat_prodIdx : (r.prod.head &&& r.prod.mask).toNat = r.slot r.stored := by
  -- at rest the producers are as far ahead as there are objects
  have htail : r.prod.head = r.cons.tail + BitVec.ofNat 32 r.stored := by
    unfold Ring.stored
    rw [hr.prodHead_eq, BitVec.ofNat_toNat, BitVec.setWidth_eq, BitVec.add_comm, BitVec.sub_add_cancel]
  rw [hr.slot_eq, hr.prodMask, toNat_and_mask hr.lt, htail, add_mod_two_pow hr.lt]

theorem slot_lt (j : ℕ) : r.slot j < 2 ^ k := by
  rw [hr.slot_eq]
  exact mod_size_lt _ k

/-- The room that is left, as the producers of `_cmt_ring_mp_do_enqueue` count it. -/
theorem toNat_free : (r.prod.mask + r.cons.tail - r.prod.head).toNat = 2 ^ k - 1 - r.stored := by
  have hmask := toNat_mask hr.lt
  have hle := hr.stored_le
  unfold Ring.stored at hle ⊢
  rw [← hr.prodHead_eq] at hle ⊢
  rw [← hmask, ← hr.prodMask] at hle ⊢
  exact toNat_free_entries hle

/-- Copying `n` objects out of the slots from the oldest on. -/
theorem dequeueElms64_eq {n : U32} (hn : n.toNat ≤ 2 ^ k) (obj : ℕ → α) (j : ℕ) :
    dequeueElms64 r r.cons.head obj n j = if j < n.toNat then r.ring (r.slot j) else obj j := by
  have hle := two_pow_le hr.lt
  have hsize : r.cons.size.toNat = 2 ^ k := by rw [hr.consSize, toNat_size hr.lt]
  have hidx : (r.cons.head &&& r.cons.mask).toNat = r.cons.tail.toNat % 2 ^ k := by
    rw [hr.consMask, toNat_and_mask hr.lt, hr.consHead_eq]
  have hlt := mod_size_lt r.cons.tail.toNat k
  -- the copy as one of slots
  have hmoves : dequeueElms64 r r.cons.head obj n =
      moveAll r.ring (copyWords.dequeue r.cons.size (r.cons.head &&& r.cons.mask) n) obj := by
    unfold dequeueElms64 CopyImpl.dequeue
    dsimp only
    split
    · exact moveAll_straight.symm
    · have hwidth : copyWords.width = 1 := rfl
      rw [hwidth, Lib.moveAll_append, moveAll_elmMoves, moveAll_elmMoves]
  have hsame := @CopyImpl.dequeue_same copyWords r.cons.size (r.cons.head &&& r.cons.mask) n (by omega)
    (by omega)
  rw [hidx, hsize] at hsame
  have hslots := hsame.trans (slotMoves_same_splitOut hlt hn).symm
  rw [hmoves, hslots.moveAll]
  split
  · next hj =>
    rw [hr.slot_eq, ← Nat.mod_add_mod]
    refine Lib.moveAll_of_origin ?_
    have horigin := Lib.origin_slotMoves (e := 1) (b := 0) (p := fun j => j)
      (q := fun j => (r.cons.tail.toNat % 2 ^ k + j) % 2 ^ k) (fun _ _ _ _ hij => hij) hj (by decide)
    rwa [Nat.one_mul, Nat.one_mul, Nat.add_zero, Nat.add_zero] at horigin
  · next hj =>
    refine Lib.moveAll_of_not_writes fun hw => hj ?_
    have hlast := Lib.lt_of_writes_slotMoves (fun _ hj => hj) hw
    rwa [show copyWords.width = 1 from rfl, Nat.mul_one] at hlast

/-- Copying `n` objects in, wherever `prod.head` is by now: all of them go behind one another, from the
first free slot on. -/
theorem enqueueElms64_eq {n : U32} (hn : n.toNat < 2 ^ k) (head : U32) (obj : ℕ → α) (a : ℕ) :
    (enqueueElms64 { r with prod := { r.prod with head } } r.prod.head obj n).ring a =
      if r.slot r.stored ≤ a ∧ a < r.slot r.stored + n.toNat then obj (a - r.slot r.stored)
      else r.ring a := by
  have hle := two_pow_le hr.lt
  have hlt := hr.slot_lt r.stored
  have hidx := hr.toNat_prodIdx
  have hsize : r.prod.size.toNat = 2 ^ k := by rw [hr.prodSize, toNat_size hr.lt]
  -- a truth value is less than the size, and a ring of one slot takes nothing
  have hlikely : likely ((r.prod.head &&& r.prod.mask) + n) < r.prod.size := by
    rw [BitVec.lt_def, hsize]
    unfold likely
    split
    · next hne =>
      by_contra hge
      have hone : 2 ^ k ≤ 1 := Nat.not_lt.mp hge
      refine hne (BitVec.eq_of_toNat_eq ?_)
      rw [BitVec.toNat_add, hidx]
      change _ = 0
      have hzero : r.slot r.stored + n.toNat = 0 := by omega
      rw [hzero]
    · exact Nat.two_pow_pos k
  unfold enqueueElms64
  dsimp only
  rw [if_pos hlikely]
  dsimp only
  have hspec := @copyUnrolled_apply α obj r.ring (r.prod.head &&& r.prod.mask) 0 n (by omega)
    (by bv_omega) a
  have hzero : (0 : U32).toNat = 0 := rfl
  rw [hspec, hidx, hzero, Nat.zero_add]

end Ring.Quiescent

end Rest

/-! ### The implementations for many threads, uninterrupted -/

/-- The second argument of `CASra`: the address of a variable that holds the value expected, or a number
that is taken for an address. -/
inductive CasArg where
  | addressOf (expected : U32)
  | number (n : U32)

/-- Why a call does not come back: it reads through a number that is no address, or it waits for what
nobody does. -/
inductive RingFault where
  | badPointer
  | spins
deriving DecidableEq

/-- `CASra` on a head, the head after it and whether it has been changed. -/
def casra (head : U32) (cmp : CasArg) (val : U32) : Except RingFault (U32 × Bool) :=
  match cmp with
  | .addressOf expected => .ok (if head = expected then (val, true) else (head, false))
  | .number _ => .error .badPointer

/-- `_cmt_ring_mp_do_enqueue`, with what it hands to `CASra` for the head it has read. -/
def mpDoEnqueueWith (expected : U32 → CasArg) (r : Ring α) (obj : ℕ → α) (n : U32) :
    Except RingFault (Ring α × ℤ) :=
  let max := n
  let prodHead := r.prod.head
  let consTail := r.cons.tail
  let n := mpEntries r.prod.mask consTail prodHead max
  let prodNext := prodHead + n
  match casra r.prod.head (expected prodHead) prodNext with
  | .error fault => .error fault
  -- the next round reads the same
  | .ok (_, false) => .error .spins
  | .ok (head, true) =>
    let r := { r with prod := { r.prod with head } }
    let r := enqueueElms64 r prodHead obj n
    -- another producer is still to publish
    if r.prod.tail ≠ prodHead then .error .spins
    else .ok ({ r with prod := { r.prod with tail := prodNext } }, n.toInt)

/-- `_cmt_ring_mp_do_enqueue` -/
def mpDoEnqueue (r : Ring α) (obj : ℕ → α) (n : U32) : Except RingFault (Ring α × ℤ) :=
  mpDoEnqueueWith .number r obj n

/-- `_cmt_ring_mc_do_dequeue`, with what it hands to `CASra` for the head it has read. -/
def mcDoDequeueWith (expected : U32 → CasArg) (r : Ring α) (obj : ℕ → α) (n : U32) :
    Except RingFault (Ring α × (ℕ → α) × ℤ) :=
  let max : U32 := 0
  let mask := r.prod.mask
  if n = 0 then .ok (r, obj, 0)
  else
    let n := max
    let consHead := r.cons.head
    let prodTail := r.prod.tail
    let entries := (mask + prodTail - consHead) &&& (mask + 1)
    if n > entries ∧ entries = 0 then .ok (r, obj, 0)
    else
      let n := if n > entries then entries else n
      let consNext := consHead + n
      match casra r.cons.head (expected consHead) consNext with
      | .error fault => .error fault
      | .ok (_, false) => .error .spins
      | .ok (head, true) =>
        let r := { r with cons := { r.cons with head } }
        let obj := dequeueElms64 r consHead obj n
        if r.cons.tail ≠ consHead then .error .spins
        else .ok ({ r with cons := { r.cons with tail := consNext } }, obj, n.toInt)

/-- `_cmt_ring_mc_do_dequeue` -/
def mcDoDequeue (r : Ring α) (obj : ℕ → α) (n : U32) : Except RingFault (Ring α × (ℕ → α) × ℤ) :=
  mcDoDequeueWith .number r obj n

/-- A multi-consumer dequeue ends at its compare-and-set, too, if it gets there. -/
theorem mcDoDequeue_eq (r : Ring α) (obj : ℕ → α) (n : U32) :
    mcDoDequeue r obj n = if n = 0 then .ok (r, obj, 0) else .error .badPointer := by
  unfold mcDoDequeue mcDoDequeueWith
  dsimp only
  split
  · rfl
  · -- no number of entries is below `max`
    have hmax {x : U32} : ¬(0 : U32) > x := by bv_omega
    rw [if_neg fun h => hmax h.1]
    rfl

/-- The ring after `n` objects have been taken out of it. -/
def Ring.advance (r : Ring α) (n : ℕ) : Ring α :=
  { r with
    cons :=
      { r.cons with
        head := r.cons.head + BitVec.ofNat 32 n
        tail := r.cons.tail + BitVec.ofNat 32 n } }

/-- What a dequeue of up to `n` objects should do to the ring `r` and to the table `obj`, and return. -/
structure TakesOldest (r : Ring α) (obj : ℕ → α) (n : U32) (out : Ring α × (ℕ → α) × ℤ) : Prop where
  result : out.2.2 = min n.toNat r.stored
  filled : ∀ j < min n.toNat r.stored, out.2.1 j = r.ring (r.slot j)
  kept : ∀ j, min n.toNat r.stored ≤ j → out.2.1 j = obj j
  advanced : out.1 = r.advance (min n.toNat r.stored)
  /-- What the ring holds is taken as by a single consumer. -/
  as_single : n.toNat ≤ r.stored → out = scDoDequeue r obj n

section Takes

variable {r : Ring α} {k : ℕ}

/-- A single consumer takes what the ring holds. -/
theorem Ring.Quiescent.scDoDequeue_eq (hr : r.Quiescent k) (obj : ℕ → α) {n : U32}
    (hn : n.toNat ≤ r.stored) :
    scDoDequeue r obj n =
      (r.advance n.toNat, fun j => if j < n.toNat then r.ring (r.slot j) else obj j, n.toInt) := by
  have hle := hr.stored_le
  unfold scDoDequeue Ring.advance
  rw [BitVec.ofNat_toNat, BitVec.setWidth_eq]
  by_cases hzero : n = 0
  · subst hzero
    rw [if_pos rfl]
    simp
  · have henough : ¬n > r.prod.tail - r.cons.head := by
      rw [hr.consHead_eq]
      exact BitVec.not_lt.mpr hn
    rw [if_neg hzero]
    dsimp only
    rw [if_neg henough, ← hr.consHead_eq]
    refine Prod.ext rfl (Prod.ext (funext fun j => ?_) rfl)
    exact hr.dequeueElms64_eq (hn.trans (hle.trans (Nat.sub_le _ _))) obj j

theorem Ring.Quiescent.scDoDequeue_takesOldest (hr : r.Quiescent k) (obj : ℕ → α) {n : U32}
    (hn : n.toNat ≤ r.stored) : TakesOldest r obj n (scDoDequeue r obj n) := by
  have hle := hr.stored_le
  have hpow := two_pow_le hr.lt
  have hmin := Nat.min_eq_left hn
  rw [hr.scDoDequeue_eq obj hn]
  refine ⟨?_, fun j hj => ?_, fun j hj => ?_, ?_, fun _ => (hr.scDoDequeue_eq obj hn).symm⟩
  · rw [hmin]
    exact BitVec.toInt_eq_toNat_of_lt (by omega)
  · rw [hmin] at hj
    exact if_pos hj
  · rw [hmin] at hj
    exact if_neg (Nat.not_lt.mpr hj)
  · rw [hmin]

/-- `_cmt_ring_mc_do_dequeue` forgets how many objects it is asked for. -/
theorem Ring.Quiescent.mcDoDequeueWith_takes_nothing (hr : r.Quiescent k) (obj : ℕ → α) (n : U32) :
    mcDoDequeueWith .addressOf r obj n = .ok (r, obj, 0) := by
  unfold mcDoDequeueWith
  dsimp only
  split
  · rfl
  · have hmax {x : U32} : ¬(0 : U32) > x := by bv_omega
    have hstay : r.cons.head + 0 = r.cons.head := BitVec.add_zero _
    rw [if_neg fun h => hmax h.1, if_neg hmax, casra, if_pos rfl, hstay]
    change (if r.cons.tail ≠ r.cons.head then _ else _) = _
    rw [if_neg (not_not_intro hr.consHead_eq.symm)]
    refine congrArg Except.ok (Prod.ext ?_ (Prod.ext (funext fun j => ?_) rfl))
    · exact congrArg (fun tail => { r with cons := { r.cons with tail } }) hr.consHead_eq
    · -- no object is copied
      exact hr.dequeueElms64_eq (Nat.zero_le _) obj j

/-- **The multi-consumer dequeue never takes what it is asked for.** On every ring of `2^k` slots at
rest, asked for at least one object, it does not come back. With the address of the head it would be
right if and only if the ring is empty. -/
theorem mc_dequeue_never (k : ℕ) (r : Ring α) (hr : r.Quiescent k) (obj : ℕ → α) (n : U32)
    (hn : 1 ≤ n.toNat) :
    (¬∃ out, mcDoDequeue r obj n = .ok out ∧ TakesOldest r obj n out) ∧
      ((∃ out, mcDoDequeueWith .addressOf r obj n = .ok out ∧ TakesOldest r obj n out) ↔
        r.stored = 0) := by
  rw [mcDoDequeue_eq, if_neg fun h => by simp [h] at hn, hr.mcDoDequeueWith_takes_nothing]
  refine ⟨fun ⟨out, hout, _⟩ => absurd hout nofun, fun ⟨out, hout, htakes⟩ => ?_,
    fun hempty => ?_⟩
  · obtain rfl := Except.ok.inj hout
    -- nothing is returned for what should be at least one object
    have hmin : (0 : ℤ) = ↑(min n.toNat r.stored) := htakes.result
    omega
  · have hmin : min n.toNat r.stored = 0 := by omega
    refine ⟨_, rfl, ?_, fun j hj => ?_, fun j _ => rfl, ?_, fun hle => ?_⟩
    · rw [hmin]
      rfl
    · omega
    · rw [hmin]
      simp [Ring.advance]
    · omega

end Takes

/-- A ring of two slots with one object in it, for the single and the multiple calls. -/
def singleRing (sp sc : U32) : Ring ℕ where
  prod := { spEnqueue := sp, size := 2, mask := 1, head := 1, tail := 1 }
  cons := { scDequeue := sc, size := 2, mask := 1, head := 0, tail := 0 }
  ring := fun _ => 7

/-- One object is asked for, one is there, and the call does not come back. -/
theorem mc_dequeue_wrong_single :
    ¬∃ out, mcDoDequeue (singleRing 0 0) (fun _ => 0) 1 = .ok out ∧
      TakesOldest (singleRing 0 0) (fun _ => 0) 1 out := by
  rintro ⟨out, hout, -⟩
  rw [mcDoDequeue_eq, if_neg (by decide)] at hout
  cases hout

/-- The same ring after the object has gone. -/
theorem mc_dequeue_never_empty :
    (¬∃ out, mcDoDequeue ((singleRing 0 0).advance 1) (fun _ => 0) 1 = .ok out ∧
        TakesOldest ((singleRing 0 0).advance 1) (fun _ => 0) 1 out) ∧
      ∃ out, mcDoDequeueWith .addressOf ((singleRing 0 0).advance 1) (fun _ => 0) 1 = .ok out ∧
        TakesOldest ((singleRing 0 0).advance 1) (fun _ => 0) 1 out := by
  have hr : ((singleRing 0 0).advance 1).Quiescent 1 := by
    refine ⟨?_, rfl, rfl, rfl, rfl, rfl, rfl, ?_⟩
    all_goals decide
  have hnever := mc_dequeue_never 1 _ hr (fun _ => 0) 1 (by decide)
  exact ⟨hnever.1, hnever.2.mpr (by decide)⟩

/-! ### The functions over the implementations -/

/-- `cmt_ring_enqueue`; the words from `&obj` on start with the object. -/
def cmtRingEnqueue (r : Ring α) (obj : ℕ → α) : Except RingFault (Ring α × ℤ) :=
  let sp := r.prod.spEnqueue
  let ret := if sp = 1 then .ok (spDoEnqueue r obj 1) else mpDoEnqueue r obj 1
  ret.map fun (r, ret) => (r, ret - 1)

/-- `cmt_ring_enqueue_bulk` -/
def cmtRingEnqueueBulk (r : Ring α) (objTable : ℕ → α) (n : U32) : Except RingFault (Ring α × U32) :=
  let sp := r.prod.spEnqueue
  let ret := if sp = 1 then .ok (spDoEnqueue r objTable n) else mpDoEnqueue r objTable n
  ret.map fun (r, ret) => (r, BitVec.ofInt 32 ret)

/-- The memory of a call that dequeues: what its pointer argument `obj` points to, and what is found
from the address `&obj` of the argument itself on. -/
structure CallMem (α : Type*) where
  table : ℕ → α
  arg : ℕ → α

/-- `_cmt_ring_sc_do_dequeue` or `_cmt_ring_mc_do_dequeue`, with the table `&obj`. -/
def doDequeueArg (r : Ring α) (mem : CallMem α) (n : U32) :
    Except RingFault (Ring α × CallMem α × ℤ) :=
  let sc := r.cons.scDequeue
  let ret := if sc = 1 then .ok (scDoDequeue r mem.arg n) else mcDoDequeue r mem.arg n
  ret.map fun (r, arg, ret) => (r, { mem with arg }, ret)

/-- `cmt_dequeue` -/
def cmtDequeue (r : Ring α) (mem : CallMem α) : Except RingFault (Ring α × CallMem α × ℤ) :=
  (doDequeueArg r mem 1).map fun (r, mem, ret) => (r, mem, ret - 1)

/-- `cmt_dequeue_bulk` -/
def cmtDequeueBulk (r : Ring α) (mem : CallMem α) (n : U32) :
    Except RingFault (Ring α × CallMem α × U32) :=
  (doDequeueArg r mem n).map fun (r, mem, ret) => (r, mem, BitVec.ofInt 32 ret)

/-- A call of one of the four, with the memory it works on. -/
inductive RingCall (α : Type*) where
  | enqueue (obj : ℕ → α)
  | enqueueBulk (objTable : ℕ → α) (n : U32)
  | dequeue (mem : CallMem α)
  | dequeueBulk (mem : CallMem α) (n : U32)

/-- The first `n` cells of a table. -/
def firstCells (table : ℕ → α) (n : ℕ) : List α := (List.range n).map table

/-- What a call returns means what it says. -/
def RingCall.Right (r : Ring α) : RingCall α → Prop
  | .enqueue obj =>
    ∃ r' ret, cmtRingEnqueue r obj = .ok (r', ret) ∧
      (ret = 0 ↔ r'.contents = r.contents ++ [obj 0]) ∧
      (r'.contents ≠ r.contents ++ [obj 0] → ret = -1)
  | .enqueueBulk objTable n =>
    ∃ r' ret, cmtRingEnqueueBulk r objTable n = .ok (r', ret) ∧ ret ≤ n ∧
      r'.contents = r.contents ++ firstCells objTable ret.toNat
  | .dequeue mem =>
    ∃ r' mem' ret, cmtDequeue r mem = .ok (r', mem', ret) ∧
      (ret = 0 ↔ ∃ x, r.contents = x :: r'.contents) ∧
      (∀ x, r.contents = x :: r'.contents → mem'.table 0 = x) ∧
      ((¬∃ x, r.contents = x :: r'.contents) → ret = -1)
  | .dequeueBulk mem n =>
    ∃ r' mem' ret, cmtDequeueBulk r mem n = .ok (r', mem', ret) ∧ ret ≤ n ∧
      r.contents = firstCells mem'.table ret.toNat ++ r'.contents

/-- How many objects `_cmt_ring_mp_do_enqueue` adds to a ring of `size` slots. -/
def Ring.accepted (r : Ring α) (size : ℕ) (n : U32) : ℕ := min n.toNat (size - 1 - r.stored)

/-- What makes a call right. -/
def RingCall.Fits (r : Ring α) : RingCall α → Prop
  | .enqueue _ => False
  | .enqueueBulk _ n => r.prod.spEnqueue = 1 ∧ n = 0
  | .dequeue mem => r.cons.scDequeue = 1 ∧ 0 < r.stored ∧ mem.table 0 = r.ring (r.slot 0)
  | .dequeueBulk mem n =>
    if r.cons.scDequeue = 1 then n.toNat ≤ r.stored ∧ ∀ j < n.toNat, mem.table j = r.ring (r.slot j)
    else n = 0

section Calls

variable {r : Ring α} {k : ℕ}

theorem firstCells_inj {t t' : ℕ → α} {n : ℕ} : firstCells t n = firstCells t' n ↔ ∀ j < n, t j = t' j := by
  unfold firstCells
  rw [List.map_inj_left]
  exact forall_congr' fun j => by rw [List.mem_range]

theorem firstCells_add (t : ℕ → α) (m n : ℕ) :
    firstCells t (m + n) = firstCells t m ++ firstCells (fun j => t (m + j)) n := by
  unfold firstCells
  rw [List.range_add, List.map_append, List.map_map]
  rfl

/-- The contents are the cells of a table, too. -/
theorem Ring.contents_eq (r : Ring α) : r.contents = firstCells (fun j => r.ring (r.slot j)) r.stored :=
  rfl

/-- The ring after a producer among many has added `c` objects. -/
structure Added (r r' : Ring α) (obj : ℕ → α) (c : ℕ) : Prop where
  slot_eq : r'.slot = r.slot
  stored_eq : r'.stored = r.stored + c
  ring_eq : ∀ a, r'.ring a =
    if r.slot r.stored ≤ a ∧ a < r.slot r.stored + c then obj (a - r.slot r.stored) else r.ring a

theorem Ring.Quiescent.mpDoEnqueueWith_eq (hr : r.Quiescent k) (obj : ℕ → α) (n : U32) :
    ∃ r', mpDoEnqueueWith .addressOf r obj n = .ok (r', (r.accepted (2 ^ k) n : ℤ)) ∧
      Added r r' obj (r.accepted (2 ^ k) n) := by
  have hle := hr.stored_le
  have hpow := two_pow_le hr.lt
  have hpos := Nat.two_pow_pos k
  have hfree := hr.toNat_free
  -- `mp_entries` cuts the request to the room that is left
  have hc : (mpEntries r.prod.mask r.cons.tail r.prod.head n).toNat = r.accepted (2 ^ k) n := by
    unfold mpEntries Ring.accepted
    dsimp only
    split
    · next hgt =>
      rw [hfree, Nat.min_eq_right]
      rw [← hfree]
      exact (BitVec.lt_def.mp hgt).le
    · next hgt =>
      rw [Nat.min_eq_left]
      rw [← hfree]
      exact Nat.not_lt.mp fun h => hgt (BitVec.lt_def.mpr h)
  have hc_le : r.accepted (2 ^ k) n ≤ 2 ^ k - 1 - r.stored := Nat.min_le_right _ _
  unfold mpDoEnqueueWith
  dsimp only
  generalize mpEntries r.prod.mask r.cons.tail r.prod.head n = c at hc
  rw [← hc] at hc_le ⊢
  rw [casra, if_pos rfl]
  change ∃ r', (if (enqueueElms64 _ _ _ _).prod.tail ≠ r.prod.head then _ else _) = _ ∧ _
  rw [enqueueElms64_prod, if_neg (not_not_intro hr.prodHead_eq.symm)]
  refine ⟨_, congrArg Except.ok (Prod.ext rfl (BitVec.toInt_eq_toNat_of_lt (by omega))), ?_, ?_, fun a => ?_⟩
  · -- the consumer's side is as it was
    unfold Ring.slot
    rw [enqueueElms64_cons]
  · unfold Ring.stored at *
    rw [enqueueElms64_cons, hr.prodHead_eq]
    dsimp only
    bv_omega
  · have hroom : c.toNat < 2 ^ k := by omega
    exact hr.enqueueElms64_eq hroom _ obj a

/-- The objects that have been added are behind the others exactly when what went beyond the last
slot was in its place before. -/
theorem Ring.Quiescent.contents_added_iff (hr : r.Quiescent k) {r' : Ring α} {obj : ℕ → α} {c : ℕ}
    (hc : r.stored + c ≤ 2 ^ k - 1) (h : Added r r' obj c) :
    r'.contents = r.contents ++ firstCells obj c ↔
      ∀ j < c, 2 ^ k ≤ r.slot r.stored + j → r.ring (r.slot r.stored + j - 2 ^ k) = obj j := by
  have hpos := Nat.two_pow_pos k
  have hlt := hr.slot_lt r.stored
  -- the slot `j` places behind the first free one
  have hslot (j : ℕ) (hj : j < 2 ^ k) : r.slot (r.stored + j) =
      if r.slot r.stored + j < 2 ^ k then r.slot r.stored + j else r.slot r.stored + j - 2 ^ k := by
    have hmod : r.slot (r.stored + j) = (r.slot r.stored + j) % 2 ^ k := by
      rw [hr.slot_eq, hr.slot_eq, Nat.mod_add_mod, Nat.add_assoc]
    rw [hmod]
    split
    · next hin => exact Nat.mod_eq_of_lt hin
    · next hout =>
      rw [Nat.mod_eq_sub_mod (Nat.not_lt.mp hout)]
      exact Nat.mod_eq_of_lt (by omega)
  have hold : firstCells (fun j => r'.ring (r'.slot j)) r.stored = r.contents := by
    refine firstCells_inj.mpr fun i hi => ?_
    rw [h.slot_eq, h.ring_eq]
    refine if_neg fun hin => ?_
    -- a slot with an object in it is not among the free ones
    obtain ⟨j, hj⟩ := Nat.exists_eq_add_of_le hin.1
    rw [hj] at hin
    have hsame := hslot j (by omega)
    rw [← hj, if_pos (hr.slot_lt i), hr.slot_eq, hr.slot_eq] at hsame
    have heq := @Lib.eq_of_mod_eq_of_window _ _ _ r.cons.tail.toNat hsame (by omega) (by omega) (by omega)
      (by omega)
    omega
  have hnew (j : ℕ) (hj : j < c) : r'.ring (r'.slot (r.stored + j)) =
      if r.slot r.stored + j < 2 ^ k then obj j else r.ring (r.slot r.stored + j - 2 ^ k) := by
    rw [h.slot_eq, h.ring_eq, hslot j (by omega)]
    split
    · rw [if_pos ⟨Nat.le_add_right _ _, by omega⟩, Nat.add_sub_cancel_left]
    · exact if_neg (by omega)
  rw [Ring.contents_eq r', h.stored_eq, firstCells_add, hold, List.append_cancel_left_eq, firstCells_inj]
  refine forall₂_congr fun j hj => ?_
  rw [hnew j hj]
  split
  · next hin => exact iff_of_true rfl fun hout => absurd hin (Nat.not_lt.mpr hout)
  · next hout => exact ⟨fun heq _ => heq, fun heq => heq (Nat.not_lt.mp hout)⟩

/-- What the multi-producer enqueue would do with the address of the head: the copy does not go around
the end. -/
theorem Ring.Quiescent.mpDoEnqueueWith_right_iff (hr : r.Quiescent k) (obj : ℕ → α) (n : U32) :
    ∃ r', mpDoEnqueueWith .addressOf r obj n = .ok (r', (r.accepted (2 ^ k) n : ℤ)) ∧
      (r'.contents = r.contents ++ firstCells obj (r.accepted (2 ^ k) n) ↔
        ∀ j < r.accepted (2 ^ k) n, 2 ^ k ≤ r.slot r.stored + j →
          r.ring (r.slot r.stored + j - 2 ^ k) = obj j) := by
  obtain ⟨r', hcall, hadded⟩ := hr.mpDoEnqueueWith_eq obj n
  have hle := hr.stored_le
  have hc : r.accepted (2 ^ k) n = min n.toNat (2 ^ k - 1 - r.stored) := rfl
  exact ⟨r', hcall, hr.contents_added_iff (by omega) hadded⟩

section Implementations

variable {r' : Ring α} {mem mem' : CallMem α} {obj : ℕ → α} {n : U32} {ret : ℤ}

end Implementations

end Calls

end CmtTcp
