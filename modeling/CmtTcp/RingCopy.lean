import CmtTcp.Ring
import CmtTcp.Lib.Moves

/-!
# Copying into and out of the ring

`enqueue_ptrs` and `dequeue_ptrs` of `ring.h`, with the implementations for elements of 8 and 16 bytes
and the one by words of 4 bytes for all others. The ring is the memory of bytes behind `cmt_ring_t`, and
what an implementation does is the list of its assignments and `memcpy` calls, so that all it reads and
writes shows.

`enqueueMoves64_words` and `dequeueMoves64_words` connect them with the ring of words in `CmtTcp.Ring`.
`enqueue_ptrs_iff` says when the copy-in is right: by words it always is, but
`_cmt_ring_enqueue_elms_64` never goes around the end, and `_cmt_ring_enqueue_elms_128` loses its way
there. The copy-out is right (`dequeue_ptrs_right`).
-/

namespace CmtTcp

open Lib (Move Same Writes Reads moveAll slotMoves)

/-! ### The loops -/

/-- `dst[d] = src[s]`, for elements of `w` bytes -/
def elmMove (w : ℕ) (d s : U32) : Move := ⟨w * d.toNat, w * s.toNat, w⟩

/-- `dst[d++] = src[s++]`, `count` times. -/
def elmMoves (w : ℕ) (d s : U32) : ℕ → List Move
  | 0 => []
  | count + 1 => elmMove w d s :: elmMoves w (d + 1) (s + 1) count

/-- What an implementation of the copy chooses: the bytes of an element, and one turn of its unrolled
loop, which copies `2^log` adjacent elements. -/
structure CopyImpl where
  width : ℕ
  log : ℕ
  log_lt : log < 32
  turn : U32 → U32 → List Move
  turn_same : ∀ d s : U32, d.toNat + 2 ^ log < 2 ^ 32 → s.toNat + 2 ^ log < 2 ^ 32 →
    Same (turn d s) [⟨width * d.toNat, width * s.toNat, width * 2 ^ log⟩]

namespace CopyImpl

/-- The elements of a turn. -/
def unroll (c : CopyImpl) : U32 := BitVec.ofNat 32 (2 ^ c.log)

/-- The unrolled loop, and behind it the `switch`, whose cases fall through. -/
def unrolled (c : CopyImpl) (tail : ℕ) (d s : U32) : ℕ → List Move
  | 0 => elmMoves c.width d s tail
  | turns + 1 => c.turn d s ++ c.unrolled tail (d + c.unroll) (s + c.unroll) turns

/-- `n` elements in a row. -/
def straight (c : CopyImpl) (d s n : U32) : List Move :=
  c.unrolled (n &&& (c.unroll - 1)).toNat d s ((n &&& ~~~(c.unroll - 1)).toNat / 2 ^ c.log)

end CopyImpl

section Loops

variable {d s : U32}

theorem elmMoves_same (w count : ℕ) (hd : d.toNat + count < 2 ^ 32) (hs : s.toNat + count < 2 ^ 32) :
    Same (elmMoves w d s count) [⟨w * d.toNat, w * s.toNat, w * count⟩] := by
  induction count generalizing d s with
  | zero => exact Same.nil
  | succ count ih =>
    have hd' : (d + 1).toNat = d.toNat + 1 := by bv_omega
    have hs' : (s + 1).toNat = s.toNat + 1 := by bv_omega
    have h := ih (show (d + 1).toNat + count < 2 ^ 32 by omega)
      (show (s + 1).toNat + count < 2 ^ 32 by omega)
    rw [hd', hs', Nat.mul_succ, Nat.mul_succ] at h
    rw [Nat.mul_succ, Nat.add_comm (w * count)]
    exact Same.join (Same.refl [elmMove w d s]) h

end Loops

/-- Copying by words of 8 bytes, four a turn. -/
def copy64 : CopyImpl where
  width := 8
  log := 2
  log_lt := by decide
  turn := fun d s =>
    [elmMove 8 d s, elmMove 8 (d + 1) (s + 1), elmMove 8 (d + 2) (s + 2), elmMove 8 (d + 3) (s + 3)]
  turn_same := by
    intro d s hd hs
    have h : Same (elmMoves 8 d s 4) [⟨8 * d.toNat, 8 * s.toNat, 8 * 4⟩] := elmMoves_same _ _ hd hs
    simp only [elmMoves, BitVec.add_assoc] at h
    exact h

/-- Copying by words of 16 bytes, two a turn with one `memcpy`. -/
def copy128 : CopyImpl where
  width := 16
  log := 1
  log_lt := by decide
  turn := fun d s => [⟨16 * d.toNat, 16 * s.toNat, 32⟩]
  turn_same := fun _ _ _ _ => Same.refl _

/-- Copying by words of 4 bytes, eight a turn. -/
def copy32 : CopyImpl where
  width := 4
  log := 3
  log_lt := by decide
  turn := fun d s =>
    [elmMove 4 d s, elmMove 4 (d + 1) (s + 1), elmMove 4 (d + 2) (s + 2), elmMove 4 (d + 3) (s + 3),
      elmMove 4 (d + 4) (s + 4), elmMove 4 (d + 5) (s + 5), elmMove 4 (d + 6) (s + 6),
      elmMove 4 (d + 7) (s + 7)]
  turn_same := by
    intro d s hd hs
    have h : Same (elmMoves 4 d s 8) [⟨4 * d.toNat, 4 * s.toNat, 4 * 8⟩] := elmMoves_same _ _ hd hs
    simp only [elmMoves, BitVec.add_assoc] at h
    exact h

/-! ### The implementations -/

/-- `_cmt_ring_enqueue_elms_32`, for all implementations -/
def CopyImpl.enqueue (c : CopyImpl) (size idx n : U32) : List Move :=
  if idx + n < size then c.straight idx 0 n
  else
    let first := size.toNat - idx.toNat
    elmMoves c.width idx 0 first ++ elmMoves c.width 0 (BitVec.ofNat 32 first) (n.toNat - first)

/-- `_cmt_ring_dequeue_elems_32`, for all implementations -/
def CopyImpl.dequeue (c : CopyImpl) (size idx n : U32) : List Move :=
  if idx + n < size then c.straight 0 idx n
  else
    let first := size.toNat - idx.toNat
    elmMoves c.width 0 idx first ++ elmMoves c.width (BitVec.ofNat 32 first) 0 (n.toNat - first)

/-- `_cmt_ring_enqueue_elms_64`, whose `likely` is compared with the size -/
def enqueueMoves64 (r : Ring U8) (prodHead n : U32) : List Move :=
  let size := r.prod.size
  let idx := prodHead &&& r.prod.mask
  if likely (idx + n) < size then copy64.straight idx 0 n
  else
    let first := size.toNat - idx.toNat
    elmMoves 8 idx 0 first ++ elmMoves 8 0 (BitVec.ofNat 32 first) (n.toNat - first)

/-- `_cmt_ring_enqueue_elms_128`, whose first loop does not step `idx` and runs to `size` -/
def enqueueMoves128 (r : Ring U8) (prodHead n : U32) : List Move :=
  let size := r.prod.size
  let idx := prodHead &&& r.prod.mask
  if idx + n < size then copy128.straight idx 0 n
  else
    ((List.range size.toNat).map fun i => elmMove 16 idx (BitVec.ofNat 32 i)) ++
      elmMoves 16 0 size (n.toNat - size.toNat)

/-- `_cmt_ring_enqueue_elms_32` -/
def enqueueMoves32 (size idx n : U32) : List Move := copy32.enqueue size idx n

/-- `_cmt_ring_dequeue_elms_64` -/
def dequeueMoves64 (r : Ring U8) (consHead n : U32) : List Move :=
  copy64.dequeue r.cons.size (consHead &&& r.cons.mask) n

/-- `_cmt_ring_dequeue_elms_128` -/
def dequeueMoves128 (r : Ring U8) (consHead n : U32) : List Move :=
  copy128.dequeue r.cons.size (consHead &&& r.cons.mask) n

/-- `_cmt_ring_dequeue_elems_32` -/
def dequeueMoves32 (size idx n : U32) : List Move := copy32.dequeue size idx n

/-- What `enqueue_ptrs` copies. -/
def enqueueMoves (r : Ring U8) (prodHead esize n : U32) : List Move :=
  if esize = 8 then enqueueMoves64 r prodHead n
  else if esize = 16 then enqueueMoves128 r prodHead n
  else
    let scale := esize / 4
    let nrNum := n * scale
    let idx := prodHead &&& r.prod.mask
    let nrIdx := idx * scale
    let nrSize := r.prod.size * scale
    enqueueMoves32 nrSize nrIdx nrNum

/-- What `dequeue_ptrs` copies. -/
def dequeueMoves (r : Ring U8) (consHead esize n : U32) : List Move :=
  if esize = 8 then dequeueMoves64 r consHead n
  else if esize = 16 then dequeueMoves128 r consHead n
  else
    let scale := esize / 4
    let nrNum := n * scale
    let idx := consHead &&& r.cons.mask
    let nrIdx := idx * scale
    let nrSize := r.cons.size * scale
    dequeueMoves32 nrSize nrIdx nrNum

/-- `enqueue_ptrs` -/
def enqueuePtrs (r : Ring U8) (prodHead : U32) (obj : ℕ → U8) (esize n : U32) : Ring U8 :=
  { r with ring := moveAll obj (enqueueMoves r prodHead esize n) r.ring }

/-- `dequeue_ptrs`; the second component is the table it fills. -/
def dequeuePtrs (r : Ring U8) (consHead : U32) (obj : ℕ → U8) (esize n : U32) : Ring U8 × (ℕ → U8) :=
  (r, moveAll r.ring (dequeueMoves r consHead esize n) obj)

/-! ### The ring of words -/

/-- A memory read by words of `w` bytes. -/
def wordsOf (w : ℕ) (mem : ℕ → U8) : ℕ → Fin w → U8 := fun i b => mem (w * i + b)

/-- A ring read by words. -/
def Ring.words (w : ℕ) (r : Ring U8) : Ring (Fin w → U8) where
  prod := r.prod
  cons := r.cons
  ring := wordsOf w r.ring

section RingOfWords

variable {src mem : ℕ → U8}

/-- An assignment is one of words. -/
theorem wordsOf_elmMove (w : ℕ) (d s : U32) :
    wordsOf w (Move.run src mem (elmMove w d s)) =
      Function.update (wordsOf w mem) d.toNat (wordsOf w src s.toNat) := by
  funext i b
  unfold wordsOf Move.run
  by_cases hi : i = d.toNat
  · subst hi
    have hw : (elmMove w d s).Writes (w * d.toNat + b) :=
      ⟨Nat.le_add_right _ _, Nat.add_lt_add_left b.isLt _⟩
    rw [if_pos hw, Function.update_self]
    change src (w * s.toNat + (w * d.toNat + b - w * d.toNat)) = _
    rw [Nat.add_sub_cancel_left]
  · rw [if_neg fun hw => hi (Lib.slot_eq b.isLt hw.1 hw.2), Function.update_of_ne hi]

theorem wordsOf_elmMoves (w : ℕ) (d s : U32) (count : ℕ) :
    wordsOf w (moveAll src (elmMoves w d s count) mem) =
      copyOnes (wordsOf w mem) d (wordsOf w src) s count := by
  induction count generalizing d s mem with
  | zero => rfl
  | succ count ih =>
    rw [copyOnes, ← wordsOf_elmMove]
    exact ih (d + 1) (s + 1)

theorem wordsOf_unrolled (tail turns : ℕ) (d s : U32) :
    wordsOf 8 (moveAll src (copy64.unrolled tail d s turns) mem) =
      let q := copyQuads (wordsOf 8 mem) d (wordsOf 8 src) s turns
      copyOnes q.1 q.2.1 (wordsOf 8 src) q.2.2 tail := by
  induction turns generalizing d s mem with
  | zero => exact wordsOf_elmMoves 8 d s tail
  | succ turns ih =>
    rw [copyQuads, ← wordsOf_elmMove, ← wordsOf_elmMove, ← wordsOf_elmMove, ← wordsOf_elmMove]
    exact ih (d + 4) (s + 4)

theorem wordsOf_straight (d s n : U32) :
    wordsOf 8 (moveAll src (copy64.straight d s n) mem) =
      copyUnrolled (wordsOf 8 mem) d (wordsOf 8 src) s n :=
  wordsOf_unrolled _ _ d s

/-- `_cmt_ring_enqueue_elms_64`, on bytes and on words. -/
theorem enqueueMoves64_words (r : Ring U8) (head n : U32) (obj : ℕ → U8) :
    wordsOf 8 (moveAll obj (enqueueMoves64 r head n) r.ring) =
      (enqueueElms64 (r.words 8) head (wordsOf 8 obj) n).ring := by
  unfold enqueueMoves64 enqueueElms64
  dsimp only
  change _ = Ring.ring (if likely ((head &&& r.prod.mask) + n) < r.prod.size then _ else _)
  split
  · exact wordsOf_straight _ _ _
  · rw [Lib.moveAll_append, wordsOf_elmMoves, wordsOf_elmMoves]
    rfl

theorem dequeueMoves64_words (r : Ring U8) (head n : U32) (obj : ℕ → U8) :
    wordsOf 8 (moveAll r.ring (dequeueMoves64 r head n) obj) =
      dequeueElms64 (r.words 8) head (wordsOf 8 obj) n := by
  unfold dequeueMoves64 CopyImpl.dequeue dequeueElms64
  dsimp only
  change _ = if (head &&& r.cons.mask) + n < r.cons.size then _ else _
  split
  · exact wordsOf_straight _ _ _
  · have hwidth : copy64.width = 8 := rfl
    rw [hwidth, Lib.moveAll_append, wordsOf_elmMoves, wordsOf_elmMoves]
    rfl

end RingOfWords
/-! ### Blocks -/

section Blocks

variable (c : CopyImpl) {d s n : U32}

theorem CopyImpl.toNat_add_unroll {x : U32} (hx : x.toNat + 2 ^ c.log < 2 ^ 32) :
    (x + c.unroll).toNat = x.toNat + 2 ^ c.log := by
  unfold CopyImpl.unroll
  rw [BitVec.toNat_add, BitVec.toNat_ofNat, Nat.mod_eq_of_lt (show 2 ^ c.log < 2 ^ 32 by omega),
    Nat.mod_eq_of_lt hx]

theorem CopyImpl.unrolled_same (tail turns : ℕ) (hd : d.toNat + (2 ^ c.log * turns + tail) < 2 ^ 32)
    (hs : s.toNat + (2 ^ c.log * turns + tail) < 2 ^ 32) :
    Same (c.unrolled tail d s turns)
      [⟨c.width * d.toNat, c.width * s.toNat, c.width * (2 ^ c.log * turns + tail)⟩] := by
  induction turns generalizing d s with
  | zero =>
    rw [Nat.mul_zero, Nat.zero_add] at hd hs ⊢
    exact elmMoves_same _ _ hd hs
  | succ turns ih =>
    rw [Nat.mul_succ] at hd hs
    have hd' := c.toNat_add_unroll (show d.toNat + 2 ^ c.log < 2 ^ 32 by omega)
    have hs' := c.toNat_add_unroll (show s.toNat + 2 ^ c.log < 2 ^ 32 by omega)
    -- one turn, and behind it the loop from the next one on
    have hrest := ih (d := d + c.unroll) (s := s + c.unroll) (by omega) (by omega)
    have hturn := c.turn_same d s (by omega) (by omega)
    rw [hd', hs', Nat.mul_add c.width d.toNat, Nat.mul_add c.width s.toNat] at hrest
    have hlen : 2 ^ c.log * (turns + 1) + tail = 2 ^ c.log + (2 ^ c.log * turns + tail) := by
      rw [Nat.mul_succ]
      omega
    rw [hlen, Nat.mul_add c.width (2 ^ c.log)]
    exact hturn.join hrest

/-- The masks of the loop and of the `switch` part a number into whole turns and the rest. -/
theorem toNat_and_mask {q : ℕ} (hq : q < 32) :
    (n &&& (BitVec.ofNat 32 (2 ^ q) - 1)).toNat = n.toNat % 2 ^ q := by
  rw [BitVec.toNat_and, toNat_mask hq, Nat.and_two_pow_sub_one_eq_mod]

theorem toNat_and_not_mask {q : ℕ} (hq : q < 32) :
    (n &&& ~~~(BitVec.ofNat 32 (2 ^ q) - 1)).toNat = n.toNat - n.toNat % 2 ^ q :=
  Lib.toNat_and_not (toNat_mask hq)

theorem CopyImpl.straight_same (hd : d.toNat + n.toNat < 2 ^ 32) (hs : s.toNat + n.toNat < 2 ^ 32) :
    Same (c.straight d s n) [⟨c.width * d.toNat, c.width * s.toNat, c.width * n.toNat⟩] := by
  have hparts := Nat.div_add_mod n.toNat (2 ^ c.log)
  have hturns : (n.toNat - n.toNat % 2 ^ c.log) / 2 ^ c.log = n.toNat / 2 ^ c.log := by
    rw [← Nat.mul_div_cancel_left (n.toNat / 2 ^ c.log) (Nat.two_pow_pos c.log)]
    congr 1
    omega
  have h := c.unrolled_same (d := d) (s := s) (n.toNat % 2 ^ c.log) (n.toNat / 2 ^ c.log) (by omega)
    (by omega)
  rw [hparts] at h
  unfold CopyImpl.straight CopyImpl.unroll
  rw [toNat_and_mask c.log_lt, toNat_and_not_mask c.log_lt, hturns]
  exact h

end Blocks

/-! ### Around the end -/

/-- The two blocks of a copy to `n` elements of a ring of `size`, from `idx` on. -/
def splitIn (e size idx n : ℕ) : List Move :=
  let first := min n (size - idx)
  [⟨e * idx, 0, e * first⟩, ⟨0, e * first, e * (n - first)⟩]

/-- The two blocks of a copy from these elements. -/
def splitOut (e size idx n : ℕ) : List Move :=
  let first := min n (size - idx)
  [⟨0, e * idx, e * first⟩, ⟨e * first, 0, e * (n - first)⟩]

section Split

variable (c : CopyImpl) {size idx n : U32}

theorem toNat_first (size idx : U32) :
    (BitVec.ofNat 32 (size.toNat - idx.toNat)).toNat = size.toNat - idx.toNat := by
  rw [BitVec.toNat_ofNat]
  exact Nat.mod_eq_of_lt ((Nat.sub_le _ _).trans_lt size.isLt)

/-- The test of the implementations: the batch ends in front of the end of the ring. -/
theorem add_lt_iff_first (hn : idx.toNat + n.toNat < 2 ^ 32) :
    idx + n < size ↔ n.toNat < size.toNat - idx.toNat := by
  bv_omega

theorem CopyImpl.enqueue_same (hidx : idx.toNat ≤ size.toNat) (hn : idx.toNat + n.toNat < 2 ^ 32) :
    Same (c.enqueue size idx n) (splitIn c.width size.toNat idx.toNat n.toNat) := by
  have hsize := size.isLt
  unfold CopyImpl.enqueue splitIn
  dsimp only
  split
  · next hlt =>
    -- in front of the end there is no second block
    have hmin := Nat.min_eq_left ((add_lt_iff_first hn).mp hlt).le
    have h := c.straight_same hn (show (0 : U32).toNat + n.toNat < 2 ^ 32 by bv_omega)
    rw [hmin, Nat.sub_self, ← List.append_nil (c.straight idx 0 n)]
    exact h.append Same.nil
  · next hge =>
    have hmin := Nat.min_eq_right (Nat.not_lt.mp ((add_lt_iff_first hn).not.mp hge))
    have hfirst := toNat_first size idx
    have h := elmMoves_same (d := idx) (s := 0) c.width (size.toNat - idx.toNat) (by omega)
      (by bv_omega)
    have h' := elmMoves_same (d := 0) (s := BitVec.ofNat 32 (size.toNat - idx.toNat)) c.width
      (n.toNat - (size.toNat - idx.toNat)) (by bv_omega) (by omega)
    rw [hfirst] at h'
    rw [hmin]
    exact h.append h'

theorem CopyImpl.dequeue_same (hidx : idx.toNat ≤ size.toNat) (hn : idx.toNat + n.toNat < 2 ^ 32) :
    Same (c.dequeue size idx n) (splitOut c.width size.toNat idx.toNat n.toNat) := by
  have hsize := size.isLt
  unfold CopyImpl.dequeue splitOut
  dsimp only
  split
  · next hlt =>
    -- in front of the end there is no second block
    have hmin := Nat.min_eq_left ((add_lt_iff_first hn).mp hlt).le
    have h := c.straight_same (show (0 : U32).toNat + n.toNat < 2 ^ 32 by bv_omega) hn
    rw [hmin, Nat.sub_self, ← List.append_nil (c.straight 0 idx n)]
    exact h.append Same.nil
  · next hge =>
    have hmin := Nat.min_eq_right (Nat.not_lt.mp ((add_lt_iff_first hn).not.mp hge))
    have hfirst := toNat_first size idx
    have h := elmMoves_same (d := 0) (s := idx) c.width (size.toNat - idx.toNat) (by bv_omega)
      (by omega)
    have h' := elmMoves_same (d := BitVec.ofNat 32 (size.toNat - idx.toNat)) (s := 0) c.width
      (n.toNat - (size.toNat - idx.toNat)) (by omega) (by bv_omega)
    rw [hfirst] at h'
    rw [hmin]
    exact h.append h'

end Split

section Slots

variable {e size idx n : ℕ}

theorem add_mod_before {j : ℕ} (hj : j < min n (size - idx)) : (idx + j) % size = idx + j :=
  Nat.mod_eq_of_lt (by omega)

theorem add_mod_behind {j : ℕ} (hidx : idx < size) (hn : n ≤ size) (hj : j < n - min n (size - idx)) :
    (idx + (min n (size - idx) + j)) % size = j := by
  have hsum : idx + (min n (size - idx) + j) = j + size := by omega
  rw [hsum, Nat.add_mod_right]
  exact Nat.mod_eq_of_lt (by omega)

/-- Element by element into the ring, that is two blocks. -/
theorem slotMoves_same_splitIn (hidx : idx < size) (hn : n ≤ size) :
    Same (slotMoves e n (fun j => (idx + j) % size) fun j => j) (splitIn e size idx n) := by
  have hbehind : (slotMoves e (n - min n (size - idx))
      (fun j => (idx + (min n (size - idx) + j)) % size) fun j => min n (size - idx) + j) =
      slotMoves e (n - min n (size - idx)) (fun j => 0 + j) fun j => min n (size - idx) + j :=
    Lib.slotMoves_congr (fun j hj => by rw [add_mod_behind hidx hn hj, Nat.zero_add]) fun _ _ => rfl
  have hbefore : (slotMoves e (min n (size - idx)) (fun j => (idx + j) % size) fun j => j) =
      slotMoves e (min n (size - idx)) (fun j => idx + j) fun j => 0 + j :=
    Lib.slotMoves_congr (fun j hj => add_mod_before hj) fun j _ => (Nat.zero_add j).symm
  rw [Lib.slotMoves_split (Nat.min_le_left n (size - idx)), hbefore, hbehind]
  exact Lib.slotMoves_same_block.append Lib.slotMoves_same_block

/-- Element by element out of the ring, too. -/
theorem slotMoves_same_splitOut (hidx : idx < size) (hn : n ≤ size) :
    Same (slotMoves e n (fun j => j) fun j => (idx + j) % size) (splitOut e size idx n) := by
  have hbehind : (slotMoves e (n - min n (size - idx)) (fun j => min n (size - idx) + j)
      fun j => (idx + (min n (size - idx) + j)) % size) =
      slotMoves e (n - min n (size - idx)) (fun j => min n (size - idx) + j) fun j => 0 + j :=
    Lib.slotMoves_congr (fun _ _ => rfl) fun j hj => by rw [add_mod_behind hidx hn hj, Nat.zero_add]
  have hbefore : (slotMoves e (min n (size - idx)) (fun j => j) fun j => (idx + j) % size) =
      slotMoves e (min n (size - idx)) (fun j => 0 + j) fun j => idx + j :=
    Lib.slotMoves_congr (fun j _ => (Nat.zero_add j).symm) fun j hj => add_mod_before hj
  rw [Lib.slotMoves_split (Nat.min_le_left n (size - idx)), hbefore, hbehind]
  exact Lib.slotMoves_same_block.append Lib.slotMoves_same_block

/-- Counting in words. -/
theorem splitIn_mul (w t : ℕ) :
    splitIn w (size * t) (idx * t) (n * t) = splitIn (w * t) size idx n := by
  unfold splitIn
  rw [← Nat.sub_mul, Nat.mul_min_mul_right]
  simp only [← Nat.sub_mul, Nat.mul_assoc, Nat.mul_comm t]

theorem splitOut_mul (w t : ℕ) :
    splitOut w (size * t) (idx * t) (n * t) = splitOut (w * t) size idx n := by
  unfold splitOut
  rw [← Nat.sub_mul, Nat.mul_min_mul_right]
  simp only [← Nat.sub_mul, Nat.mul_assoc, Nat.mul_comm t]

end Slots

/-! ### Rings and elements -/

/-- A ring of `2^k` slots, at least two. -/
structure Ring.HasSize {α : Type*} (r : Ring α) (k : ℕ) : Prop where
  pos : 1 ≤ k
  lt : k < 32
  prodSize : r.prod.size = BitVec.ofNat 32 (2 ^ k)
  prodMask : r.prod.mask = BitVec.ofNat 32 (2 ^ k) - 1
  consSize : r.cons.size = BitVec.ofNat 32 (2 ^ k)
  consMask : r.cons.mask = BitVec.ofNat 32 (2 ^ k) - 1

/-- The sizes of an element: multiples of 4, whose words the generic implementations can count. -/
def ElmSize (size : ℕ) (esize : U32) : Prop :=
  4 ∣ esize.toNat ∧ (esize = 8 ∨ esize = 16 ∨ 2 * size * (esize.toNat / 4) < 2 ^ 32)

section Copies

variable {r : Ring U8} {k : ℕ} {head esize n : U32}

theorem cmtRingCreate_hasSize {mem : Option (ℕ → U8)} {sp sc : U32} (hk : 1 ≤ k ∧ k < 32)
    (h : cmtRingCreate mem (BitVec.ofNat 32 (2 ^ k)) sp sc = .ok r) : r.HasSize k := by
  unfold cmtRingCreate at h
  split at h
  · cases h
  · split at h
    · cases h
    · cases h
      exact ⟨hk.1, hk.2, rfl, rfl, rfl, rfl⟩

theorem toNat_size (hk : k < 32) : (BitVec.ofNat 32 (2 ^ k)).toNat = 2 ^ k := by
  rw [BitVec.toNat_ofNat]
  exact Nat.mod_eq_of_lt (Nat.pow_lt_pow_right (by decide) hk)

namespace Ring.HasSize

variable (hr : r.HasSize k) (head : U32)
include hr

theorem toNat_prodSize : r.prod.size.toNat = 2 ^ k := by rw [hr.prodSize, toNat_size hr.lt]

theorem toNat_consSize : r.cons.size.toNat = 2 ^ k := by rw [hr.consSize, toNat_size hr.lt]

theorem toNat_prodIdx : (head &&& r.prod.mask).toNat = head.toNat % 2 ^ k := by
  rw [hr.prodMask, toNat_and_mask hr.lt]

theorem toNat_consIdx : (head &&& r.cons.mask).toNat = head.toNat % 2 ^ k := by
  rw [hr.consMask, toNat_and_mask hr.lt]

end Ring.HasSize

theorem mod_size_lt (x k : ℕ) : x % 2 ^ k < 2 ^ k := Nat.mod_lt _ (Nat.two_pow_pos k)

theorem two_pow_le (hk : k < 32) : 2 ^ k ≤ 2 ^ 31 := Nat.pow_le_pow_right (by decide) (by omega)

/-- Counted in words of 4 bytes, sizes and indices stay below `2^32`. -/
theorem toNat_words {size x : U32} (hx : x.toNat ≤ size.toNat)
    (hsize : 2 * size.toNat * (esize.toNat / 4) < 2 ^ 32) :
    (x * (esize / 4)).toNat = x.toNat * (esize.toNat / 4) := by
  have hscale : (esize / 4).toNat = esize.toNat / 4 := rfl
  rw [BitVec.toNat_mul, hscale]
  refine Nat.mod_eq_of_lt ?_
  calc x.toNat * (esize.toNat / 4) ≤ size.toNat * (esize.toNat / 4) := Nat.mul_le_mul_right _ hx
    _ ≤ 2 * size.toNat * (esize.toNat / 4) := Nat.mul_le_mul_right _ (by omega)
    _ < 2 ^ 32 := hsize

section Words

variable {size idx : U32} (hidx : idx.toNat ≤ size.toNat) (hn : n.toNat ≤ size.toNat)
  (h4 : 4 ∣ esize.toNat) (hsize : 2 * size.toNat * (esize.toNat / 4) < 2 ^ 32)

include hidx hn hsize in
theorem words_fit :
    (idx * (esize / 4)).toNat ≤ (size * (esize / 4)).toNat ∧
      (idx * (esize / 4)).toNat + (n * (esize / 4)).toNat < 2 ^ 32 := by
  rw [toNat_words hidx hsize, toNat_words le_rfl hsize, toNat_words hn hsize, ← Nat.add_mul]
  exact ⟨Nat.mul_le_mul_right _ hidx, (Nat.mul_le_mul_right _ (by omega)).trans_lt hsize⟩

include hidx hn h4 hsize

theorem enqueueMoves32_same :
    Same (enqueueMoves32 (size * (esize / 4)) (idx * (esize / 4)) (n * (esize / 4)))
      (splitIn esize.toNat size.toNat idx.toNat n.toNat) := by
  have hwidth : copy32.width * (esize.toNat / 4) = esize.toNat := Nat.mul_div_cancel' h4
  obtain ⟨hle, hsum⟩ := words_fit hidx hn hsize
  have h := copy32.enqueue_same hle hsum
  rwa [toNat_words hidx hsize, toNat_words le_rfl hsize, toNat_words hn hsize, splitIn_mul,
    hwidth] at h

theorem dequeueMoves32_same :
    Same (dequeueMoves32 (size * (esize / 4)) (idx * (esize / 4)) (n * (esize / 4)))
      (splitOut esize.toNat size.toNat idx.toNat n.toNat) := by
  have hwidth : copy32.width * (esize.toNat / 4) = esize.toNat := Nat.mul_div_cancel' h4
  obtain ⟨hle, hsum⟩ := words_fit hidx hn hsize
  have h := copy32.dequeue_same hle hsum
  rwa [toNat_words hidx hsize, toNat_words le_rfl hsize, toNat_words hn hsize, splitOut_mul,
    hwidth] at h

end Words

/-- **The copy-out.** Whatever the implementation, it copies the elements that are asked for. -/
theorem dequeueMoves_same (hr : r.HasSize k) (hn : n.toNat ≤ 2 ^ k) (hesize : ElmSize (2 ^ k) esize) :
    Same (dequeueMoves r head esize n)
      (slotMoves esize.toNat n.toNat (fun j => j) fun j => (head.toNat + j) % 2 ^ k) := by
  have hidx := hr.toNat_consIdx head
  have hsize := hr.toNat_consSize
  have hlt := mod_size_lt head.toNat k
  have hle := two_pow_le hr.lt
  have hslots := @slotMoves_same_splitOut esize.toNat (2 ^ k) (head.toNat % 2 ^ k) n.toNat hlt hn
  simp only [Nat.mod_add_mod] at hslots
  refine Same.trans ?_ hslots.symm
  rw [← hidx, ← hsize]
  unfold dequeueMoves
  split
  · rename_i h8
    subst h8
    exact copy64.dequeue_same (by omega) (by omega)
  · split
    · rename_i h16
      subst h16
      exact copy128.dequeue_same (by omega) (by omega)
    · rename_i h8 h16
      have hwords := (hesize.2.resolve_left h8).resolve_left h16
      rw [← hsize] at hwords
      exact dequeueMoves32_same (by omega) (by omega) hesize.1 hwords

end Copies

/-! ### Copying out -/

/-- What a copy of `n` elements out of a ring of `size` slots, from `head` on, should do to the table
`obj`, with the table `obj'` after it and the moves `ms`. -/
structure DequeueRight (size esize head n : ℕ) (ring obj obj' : ℕ → U8) (ms : List Move) : Prop where
  filled : ∀ j < n, ∀ b < esize, obj' (esize * j + b) = ring (esize * ((head + j) % size) + b)
  kept : ∀ a, n * esize ≤ a → obj' a = obj a
  writes : ∀ a, Writes ms a → a < n * esize
  reads : ∀ b, Reads ms b → b < size * esize
  plain : obj' = moveAll ring (slotMoves esize n (fun j => j) fun j => (head + j) % size) obj

/-- **Copying out of the ring.** For every ring, start, number and size of elements, `dequeue_ptrs`
fills the table with the elements in their order, writes and reads nothing else, and leaves the ring
alone: all implementations do what the loop over the elements does. -/
theorem dequeue_ptrs_right (r : Ring U8) (k : ℕ) (hr : r.HasSize k) (consHead : U32) (obj : ℕ → U8)
    (esize n : U32) (hn : n.toNat ≤ 2 ^ k) (hesize : ElmSize (2 ^ k) esize) :
    DequeueRight (2 ^ k) esize.toNat consHead.toNat n.toNat r.ring obj
        (dequeuePtrs r consHead obj esize n).2 (dequeueMoves r consHead esize n) ∧
      (dequeuePtrs r consHead obj esize n).1 = r := by
  have h := @dequeueMoves_same r k consHead esize n hr hn hesize
  have hmoves : (dequeuePtrs r consHead obj esize n).2 = moveAll r.ring _ obj := h.moveAll
  have hwrites {a : ℕ} (ha : Writes (dequeueMoves r consHead esize n) a) : a < n.toNat * esize.toNat :=
    Lib.lt_of_writes_slotMoves (fun _ hj => hj) (h.writes.mp ha)
  refine ⟨⟨fun j hj b hb => ?_, fun a ha => ?_, fun a => hwrites, fun b hb => ?_, hmoves⟩, rfl⟩
  · rw [hmoves]
    exact Lib.moveAll_of_origin (Lib.origin_slotMoves (fun _ _ _ _ hij => hij) hj hb)
  · rw [hmoves]
    exact Lib.moveAll_of_not_writes fun hw => Nat.not_lt.mpr ha (hwrites (h.writes.mpr hw))
  · exact Lib.lt_of_reads_slotMoves (fun j _ => mod_size_lt _ k) ((h.reads b).mp hb)

/-- A table whose bytes count up. -/
def countingTable : ℕ → U8 := fun a => BitVec.ofNat 8 a

/-- A ring of two slots, all bytes zero. -/
def zeroRing : Ring U8 where
  prod := { spEnqueue := 1, size := 2, mask := 1, head := 0, tail := 0 }
  cons := { scDequeue := 1, size := 2, mask := 1, head := 0, tail := 0 }
  ring := fun _ => 0

theorem zeroRing_hasSize : zeroRing.HasSize 1 := by
  refine ⟨?_, ?_, ?_, ?_, ?_, ?_⟩ <;> decide

/-- Two elements of 8 bytes around the end. -/
theorem dequeue_ptrs_right_around :
    DequeueRight (2 ^ 1) 8 1 2 zeroRing.ring countingTable (dequeuePtrs zeroRing 1 countingTable 8 2).2
        (dequeueMoves zeroRing 1 8 2) ∧
      (dequeuePtrs zeroRing 1 countingTable 8 2).1 = zeroRing :=
  dequeue_ptrs_right zeroRing 1 zeroRing_hasSize 1 countingTable 8 2 (by decide) ⟨by decide, .inl rfl⟩

/-! ### Copying in -/

/-- What a copy of `n` elements of the table `obj` into a ring of `size` slots, from `head` on, should
do, with the bytes `ring'` of the ring after it and the moves `ms`. -/
structure EnqueueRight (size esize head n : ℕ) (obj ring ring' : ℕ → U8) (ms : List Move) : Prop where
  stored : ∀ j < n, ∀ b < esize, ring' (esize * ((head + j) % size) + b) = obj (esize * j + b)
  kept : ∀ k < size, (∀ j < n, (head + j) % size ≠ k) →
    ∀ b < esize, ring' (esize * k + b) = ring (esize * k + b)
  writes : ∀ a, Writes ms a → a < size * esize
  reads : ∀ b, Reads ms b → b < n * esize

/-- For a batch of the size of the ring: the ring holds all objects but the first one in their slots,
and the last one is a copy of the first. -/
def LostInPlace (size head : ℕ) (obj ring : ℕ → U8) : Prop :=
  (∀ b < 16, obj (16 * (size - 1) + b) = obj b) ∧
    ∀ j, 1 ≤ j → j < size → ∀ b < 16, ring (16 * ((head + j) % size) + b) = obj (16 * j + b)

/-- A batch that `enqueue_ptrs` stores right: elements of 8 bytes do not go around the end, and elements
of 16 bytes do not reach it, or all that is lost is in place. -/
def EnqueueFits (size head : ℕ) (obj ring : ℕ → U8) (esize n : U32) : Prop :=
  if esize = 8 then head % size + n.toNat ≤ size
  else if esize = 16 then
    head % size + n.toNat < size ∨ n.toNat = size ∧ LostInPlace size head obj ring
  else True

section CopyIn

variable {r : Ring U8} {k : ℕ} {head esize n : U32} {obj ring : ℕ → U8}

/-- Element by element, the copy is right. -/
theorem EnqueueRight.of_same {size e hd m : ℕ} {ms : List Move} (hpos : 0 < size) (hm : m ≤ size)
    (h : Same ms (slotMoves e m (fun j => (hd + j) % size) fun j => j)) :
    EnqueueRight size e hd m obj ring (moveAll obj ms ring) ms where
  stored := by
    intro j hj b hb
    rw [h.moveAll]
    refine Lib.moveAll_of_origin (Lib.origin_slotMoves (fun i hi j hj hij => ?_) hj hb)
    have heq := Lib.eq_of_mod_eq_of_window hij (Nat.le_add_right hd i) (by omega)
      (Nat.le_add_right hd j) (by omega)
    exact Nat.add_left_cancel heq
  kept := by
    intro k _ hk b hb
    refine Lib.moveAll_of_not_writes fun hw => ?_
    obtain ⟨j, hj, hjk⟩ := (Lib.writes_slotMoves hb).mp (h.writes.mp hw)
    exact hk j hj hjk
  writes := fun a ha =>
    Lib.lt_of_writes_slotMoves (fun _ _ => Nat.mod_lt _ hpos) (h.writes.mp ha)
  reads := fun b hb => Lib.lt_of_reads_slotMoves (fun _ hj => hj) ((h.reads b).mp hb)

/-- A batch in one block is right exactly when it ends with the ring. -/
theorem enqueueRight_block_iff {size e hd m : ℕ} {ms : List Move} (he : 0 < e) (hpos : 0 < size)
    (hm : m ≤ size) (h : Same ms [⟨e * (hd % size), 0, e * m⟩]) :
    EnqueueRight size e hd m obj ring (moveAll obj ms ring) ms ↔ hd % size + m ≤ size := by
  have hlt : hd % size < size := Nat.mod_lt _ hpos
  constructor
  · intro hright
    by_contra hbeyond
    -- the last element lies behind the ring
    have hlast : Writes ms (e * (hd % size + (m - 1))) := by
      refine h.writes.mpr ⟨_, List.mem_singleton_self _, ?_, ?_⟩
      · exact Nat.mul_le_mul_left e (Nat.le_add_right _ _)
      · rw [← Nat.mul_add]
        exact Nat.mul_lt_mul_of_pos_left (by omega) he
    refine Nat.not_lt.mpr ?_ (hright.writes _ hlast)
    rw [Nat.mul_comm size]
    exact Nat.mul_le_mul_left e (by omega)
  · intro hfit
    refine EnqueueRight.of_same hpos hm (h.trans ?_)
    have hslots := @slotMoves_same_splitIn e size (hd % size) m hlt hm
    simp only [Nat.mod_add_mod] at hslots
    refine Same.trans ?_ hslots.symm
    have hmin : min m (size - hd % size) = m := by omega
    unfold splitIn
    dsimp only
    rw [hmin, Nat.sub_self]
    exact (Same.refl [_]).append Same.nil

theorem enqueueMoves64_same (hr : r.HasSize k) (hn : n.toNat ≤ 2 ^ k) :
    Same (enqueueMoves64 r head n) [⟨8 * (head.toNat % 2 ^ k), 0, 8 * n.toNat⟩] := by
  have hidx := hr.toNat_prodIdx head
  have hlt := mod_size_lt head.toNat k
  have hle := two_pow_le hr.lt
  -- a truth value is less than the size of a ring
  have hlikely : likely ((head &&& r.prod.mask) + n) < r.prod.size := by
    have htwo : 2 ^ 1 ≤ 2 ^ k := Nat.pow_le_pow_right (by decide) hr.pos
    rw [BitVec.lt_def, hr.toNat_prodSize]
    refine lt_of_le_of_lt ?_ htwo
    unfold likely
    split <;> decide
  unfold enqueueMoves64
  dsimp only
  rw [if_pos hlikely, ← hidx]
  exact copy64.straight_same (by omega) (show (0 : U32).toNat + n.toNat < 2 ^ 32 by bv_omega)

theorem enqueueMoves128_same (hr : r.HasSize k) (hn : n.toNat ≤ 2 ^ k)
    (hlt : head.toNat % 2 ^ k + n.toNat < 2 ^ k) :
    Same (enqueueMoves128 r head n) [⟨16 * (head.toNat % 2 ^ k), 0, 16 * n.toNat⟩] := by
  have hidx := hr.toNat_prodIdx head
  have hsize := hr.toNat_prodSize
  have hle := two_pow_le hr.lt
  have hin : (head &&& r.prod.mask) + n < r.prod.size := by bv_omega
  unfold enqueueMoves128
  dsimp only
  rw [if_pos hin, ← hidx]
  exact copy128.straight_same (by omega) (show (0 : U32).toNat + n.toNat < 2 ^ 32 by bv_omega)

/-- Reaching the end, `_cmt_ring_enqueue_elms_128` copies as many objects as the ring has slots to one
slot. -/
theorem enqueueMoves128_eq (hr : r.HasSize k) (hn : n.toNat ≤ 2 ^ k)
    (hge : 2 ^ k ≤ head.toNat % 2 ^ k + n.toNat) :
    enqueueMoves128 r head n = slotMoves 16 (2 ^ k) (fun _ => head.toNat % 2 ^ k) fun i => i := by
  have hidx := hr.toNat_prodIdx head
  have hsize := hr.toNat_prodSize
  have hlt := mod_size_lt head.toNat k
  have hle := two_pow_le hr.lt
  have hin : ¬(head &&& r.prod.mask) + n < r.prod.size := by bv_omega
  unfold enqueueMoves128
  dsimp only
  rw [if_neg hin, hsize, Nat.sub_eq_zero_of_le hn]
  refine (List.append_nil _).trans (List.map_congr_left fun i hi => ?_)
  have hi' : (BitVec.ofNat 32 i).toNat = i := by
    rw [BitVec.toNat_ofNat]
    have := List.mem_range.mp hi
    exact Nat.mod_eq_of_lt (by omega)
  unfold elmMove
  rw [hidx, hi']

/-- Then the batch is right only if what is lost is in place. -/
theorem enqueueRight_stuck_iff {size hd m : ℕ} {ms : List Move} (hm : m ≤ size)
    (hpos : 0 < size) (h : ms = slotMoves 16 size (fun _ => hd % size) fun i => i) :
    EnqueueRight size 16 hd m obj ring (moveAll obj ms ring) ms ↔
      m = size ∧ LostInPlace size hd obj ring := by
  subst h
  have hlt : hd % size < size := Nat.mod_lt _ hpos
  -- the slot that is written gets the last object read, the others keep what they have
  have hslot {b : ℕ} (hb : b < 16) :
      moveAll obj (slotMoves 16 size (fun _ => hd % size) fun i => i) ring (16 * (hd % size) + b) =
        obj (16 * (size - 1) + b) := by
    refine Lib.moveAll_of_origin ?_
    obtain ⟨n, rfl⟩ := Nat.exists_eq_succ_of_ne_zero hpos.ne'
    exact Lib.origin_slotMoves_const hb
  have hother {i b : ℕ} (hi : hd % size ≠ i) (hb : b < 16) :
      moveAll obj (slotMoves 16 size (fun _ => hd % size) fun i => i) ring (16 * i + b) =
        ring (16 * i + b) := by
    refine Lib.moveAll_of_not_writes fun hw => ?_
    obtain ⟨j, -, hj⟩ := (Lib.writes_slotMoves hb).mp hw
    exact hi hj
  have hne {j : ℕ} (hj : 1 ≤ j) (hj' : j < size) : hd % size ≠ (hd + j) % size := by
    intro heq
    have hsame := Lib.eq_of_mod_eq_of_window heq le_rfl (Nat.lt_add_of_pos_right hpos)
      (Nat.le_add_right hd j) (by omega)
    omega
  constructor
  · intro hright
    -- as many objects are read as the ring has slots
    have hread : Lib.Reads (slotMoves 16 size (fun _ => hd % size) fun i => i) (16 * (size - 1) + 0) :=
      (Lib.reads_slotMoves (by decide)).mpr ⟨size - 1, by omega, rfl⟩
    have hreads := hright.reads _ hread
    have heq : m = size := by omega
    subst heq
    refine ⟨rfl, fun b hb => ?_, fun j hj hj' b hb => ?_⟩
    · have hzero := hright.stored 0 hpos b hb
      rwa [Nat.add_zero, hslot hb, Nat.mul_zero, Nat.zero_add] at hzero
    · rw [← hother (hne hj hj') hb]
      exact hright.stored j hj' b hb
  · rintro ⟨rfl, hfirst, hrest⟩
    refine ⟨fun j hj b hb => ?_, fun i _ hi b hb => ?_, fun a ha => ?_, fun b hb => ?_⟩
    · rcases Nat.eq_zero_or_pos j with rfl | hj'
      · rw [Nat.add_zero, hslot hb, Nat.mul_zero, Nat.zero_add]
        exact hfirst b hb
      · rw [hother (hne hj' hj) hb]
        exact hrest j hj' hj b hb
    · exact hother (hi 0 hpos) hb
    · exact Lib.lt_of_writes_slotMoves (fun _ _ => hlt) ha
    · exact Lib.lt_of_reads_slotMoves (fun _ hj => hj) hb

end CopyIn

/-- **When copying into the ring is right.** For every ring, start, number and size of elements, and
every table: `enqueue_ptrs` stores the objects in their slots, keeps the others, and reads and writes
nothing else, if and only if elements of 8 bytes do not go around the end, and elements of 16 bytes do
not reach it, or what is lost is in place. -/
theorem enqueue_ptrs_iff (r : Ring U8) (k : ℕ) (hr : r.HasSize k) (prodHead : U32) (obj : ℕ → U8)
    (esize n : U32) (hn : n.toNat ≤ 2 ^ k) (hesize : ElmSize (2 ^ k) esize) :
    EnqueueRight (2 ^ k) esize.toNat prodHead.toNat n.toNat obj r.ring
        (enqueuePtrs r prodHead obj esize n).ring (enqueueMoves r prodHead esize n) ↔
      EnqueueFits (2 ^ k) prodHead.toNat obj r.ring esize n := by
  have hpos := Nat.two_pow_pos k
  unfold EnqueueFits enqueuePtrs
  dsimp only
  unfold enqueueMoves
  split
  · rename_i h8
    subst h8
    exact enqueueRight_block_iff (by decide) hpos hn (enqueueMoves64_same hr hn)
  · split
    · rename_i h16
      subst h16
      -- the branches of `_cmt_ring_enqueue_elms_128`
      by_cases hlt : prodHead.toNat % 2 ^ k + n.toNat < 2 ^ k
      · refine (enqueueRight_block_iff (by decide) hpos hn (enqueueMoves128_same hr hn hlt)).trans ?_
        exact iff_of_true hlt.le (.inl hlt)
      · have hge := Nat.not_lt.mp hlt
        refine (enqueueRight_stuck_iff hn hpos (enqueueMoves128_eq hr hn hge)).trans ?_
        exact (or_iff_right hlt).symm
    · -- by words of 4 bytes, whatever the size
      rename_i h8 h16
      refine iff_of_true ?_ trivial
      have hwords := (hesize.2.resolve_left h8).resolve_left h16
      have hidx := hr.toNat_prodIdx prodHead
      have hsize := hr.toNat_prodSize
      have hlt := mod_size_lt prodHead.toNat k
      have hslots := @slotMoves_same_splitIn esize.toNat (2 ^ k) (prodHead.toNat % 2 ^ k) n.toNat hlt hn
      simp only [Nat.mod_add_mod] at hslots
      refine EnqueueRight.of_same hpos hn (Same.trans ?_ hslots.symm)
      rw [← hsize] at hwords
      rw [← hidx, ← hsize]
      exact enqueueMoves32_same (by omega) (by omega) hesize.1 hwords

/-- Two objects of 4 bytes that go around the end. -/
theorem enqueue_ptrs_iff_around :
    EnqueueRight (2 ^ 1) 4 1 2 countingTable zeroRing.ring
      (enqueuePtrs zeroRing 1 countingTable 4 2).ring (enqueueMoves zeroRing 1 4 2) := by
  refine (enqueue_ptrs_iff zeroRing 1 zeroRing_hasSize 1 countingTable 4 2 (by decide) ?_).mpr ?_
  · exact ⟨by decide, .inr (.inr (by decide))⟩
  · unfold EnqueueFits
    rw [if_neg (by decide), if_neg (by decide)]
    trivial

/-- Two objects of 8 bytes do not go around the end, and one of 16 bytes that reaches it reads one too
many. -/
theorem enqueue_ptrs_wrong :
    ¬EnqueueRight (2 ^ 1) 8 1 2 countingTable zeroRing.ring
        (enqueuePtrs zeroRing 1 countingTable 8 2).ring (enqueueMoves zeroRing 1 8 2) ∧
      ¬EnqueueRight (2 ^ 1) 16 1 1 countingTable zeroRing.ring
        (enqueuePtrs zeroRing 1 countingTable 16 1).ring (enqueueMoves zeroRing 1 16 1) := by
  constructor
  · intro h
    have hbehind : Writes (enqueueMoves zeroRing 1 8 2) 16 :=
      ⟨⟨16, 8, 8⟩, List.mem_cons_of_mem _ List.mem_cons_self, by decide, by decide⟩
    exact absurd (h.writes 16 hbehind) (by decide)
  · intro h
    have hmore : Lib.Reads (enqueueMoves zeroRing 1 16 1) 16 :=
      ⟨⟨16, 16, 16⟩, List.mem_cons_of_mem _ List.mem_cons_self, by decide, by decide⟩
    exact absurd (h.reads 16 hmore) (by decide)

end CmtTcp
