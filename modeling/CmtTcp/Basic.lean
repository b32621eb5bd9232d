import Mathlib.Data.BitVec

/-!
# Machine words and sequence numbers

The fixed-width words of the program, the rounding of `global.h`, byte order, and the two families of
sequence-number comparisons: the `TCP_SEQ_*` macros of `tcp.h`, which look at the sign of the
difference, and `GetMinSeq`, `GetMaxSeq` of `tcp_buffer.c`, which compare the numbers first and their
distance afterwards.

Both are read off the distance `seqOff base x` of `x` from a common base, counted upwards around
the circle of 32-bit numbers.
-/

namespace CmtTcp

abbrev U8 := BitVec 8
abbrev U16 := BitVec 16
abbrev U32 := BitVec 32
abbrev U64 := BitVec 64

/-- The address of an object handed out by a pool; `NULL` is `none` of `Option Addr`. -/
abbrev Addr := ℕ

/-! ### The bit operations of `global.h` -/

/-- `fls`: the `bsrl` it is written with, and `0` for `0`. -/
def fls (x : U32) : ℕ := if x = 0 then 0 else Nat.log2 x.toNat + 1

/-- `ROUND_2_UP(x)`; the argument of `fls` is an `int`. -/
def round2Up (x : U64) : U64 := 1#64 <<< fls ((x - 1).setWidth 32)

/-! ### Byte order -/

/-- `htonl` and `ntohl` on a little endian machine -/
def htonl (x : U32) : U32 :=
  x.extractLsb' 0 8 ++ x.extractLsb' 8 8 ++ x.extractLsb' 16 8 ++ x.extractLsb' 24 8

/-- `htons` and `ntohs` on a little endian machine -/
def htons (x : U16) : U16 := x.extractLsb' 0 8 ++ x.extractLsb' 8 8

/-- A word is its four bytes. -/
theorem append_four_bytes (x : U32) :
    (x.extractLsb' 24 8 ++ x.extractLsb' 16 8 ++ x.extractLsb' 8 8 ++ x.extractLsb' 0 8 : U32)
      = x := by
  calc
    _ = (x.extractLsb' 16 16 ++ x.extractLsb' 8 8 ++ x.extractLsb' 0 8 : U32) := by
      rw [BitVec.extractLsb'_append_extractLsb'_eq_extractLsb' (by rfl)]
    _ = (x.extractLsb' 8 24 ++ x.extractLsb' 0 8 : U32) := by
      rw [BitVec.extractLsb'_append_extractLsb'_eq_extractLsb' (by rfl)]
    _ = x.extractLsb' 0 32 := by
      rw [BitVec.extractLsb'_append_extractLsb'_eq_extractLsb' (by rfl)]
    _ = x := BitVec.extractLsb'_eq_self

/-- The bytes of `htonl x`, from the lowest. -/
theorem htonl_octets (x : U32) :
    (htonl x).extractLsb' 0 8 = x.extractLsb' 24 8 ∧ (htonl x).extractLsb' 8 8 = x.extractLsb' 16 8 ∧
      (htonl x).extractLsb' 16 8 = x.extractLsb' 8 8 ∧ (htonl x).extractLsb' 24 8 = x.extractLsb' 0 8 := by
  refine ⟨BitVec.extractLsb'_append_eq_right, ?_, ?_, ?_⟩
  · exact (BitVec.extractLsb'_append_eq_of_le (by decide)).trans BitVec.extractLsb'_append_eq_right
  · exact (BitVec.extractLsb'_append_eq_of_le (by decide)).trans
      ((BitVec.extractLsb'_append_eq_of_le (by decide)).trans BitVec.extractLsb'_append_eq_right)
  · exact (BitVec.extractLsb'_append_eq_of_le (by decide)).trans
      ((BitVec.extractLsb'_append_eq_of_le (by decide)).trans BitVec.extractLsb'_append_eq_left)

@[simp] theorem htonl_htonl (x : U32) : htonl (htonl x) = x := by
  obtain ⟨h₀, h₁, h₂, h₃⟩ := htonl_octets x
  calc
    htonl (htonl x) =
        x.extractLsb' 24 8 ++ x.extractLsb' 16 8 ++ x.extractLsb' 8 8 ++ x.extractLsb' 0 8 := by
      rw [← h₀, ← h₁, ← h₂, ← h₃]
      rfl
    _ = x := append_four_bytes x

@[simp] theorem htons_htons (x : U16) : htons (htons x) = x := by
  unfold htons
  rw [BitVec.extractLsb'_append_eq_right, BitVec.extractLsb'_append_eq_left,
    BitVec.extractLsb'_append_extractLsb'_eq_extractLsb' (by rfl)]
  exact BitVec.extractLsb'_eq_self

theorem htonl_injective : Function.Injective htonl :=
  Function.Involutive.injective htonl_htonl

theorem htons_injective : Function.Injective htons :=
  Function.Involutive.injective htons_htons

/-! ### The macros of `tcp.h` -/

/-- `TCP_SEQ_LT(a,b)` -/
def tcpSeqLt (a b : U32) : Bool := (a - b).toInt < 0

/-- `TCP_SEQ_LEQ(a,b)` -/
def tcpSeqLeq (a b : U32) : Bool := (a - b).toInt ≤ 0

/-- `TCP_SEQ_GT(a,b)` -/
def tcpSeqGt (a b : U32) : Bool := 0 < (a - b).toInt

/-- `TCP_SEQ_GEQ(a,b)` -/
def tcpSeqGeq (a b : U32) : Bool := 0 ≤ (a - b).toInt

/-- `TCP_SEQ_BETWEEN(a,b,c)` -/
def tcpSeqBetween (a b c : U32) : Bool := tcpSeqGeq a b && tcpSeqLeq a c

/-! ### The comparisons of `tcp_buffer.c` -/

/-- `MAXSEQ` -/
def maxSeq : U32 := 0xFFFFFFFF

/-- `GetMinSeq` -/
def getMinSeq (a b : U32) : U32 :=
  if a = b then a
  else if a < b then (if b - a ≤ maxSeq / 2 then a else b)
  else (if a - b ≤ maxSeq / 2 then b else a)

/-- `GetMaxSeq` -/
def getMaxSeq (a b : U32) : U32 :=
  if a = b then a
  else if a < b then (if b - a ≤ maxSeq / 2 then b else a)
  else (if a - b ≤ maxSeq / 2 then a else b)

/-- How far `x` lies above `base` on the circle of sequence numbers. -/
def seqOff (base x : U32) : ℕ := (x - base).toNat

/-! ### Distances -/

section SeqOff

variable {base a b x : U32}

@[simp] theorem seqOff_self (base : U32) : seqOff base base = 0 := by simp [seqOff]

theorem seqOff_injective (h : seqOff base a = seqOff base b) : a = b := by
  unfold seqOff at h
  bv_omega

theorem seqOff_eq_zero : seqOff base x = 0 ↔ x = base := by
  unfold seqOff
  constructor <;> intro h <;> bv_omega

end SeqOff

/-! ### Comparisons inside half a circle -/

section Compare

variable {a b : U32}

theorem tcpSeqGt_iff : tcpSeqGt a b = true ↔ 0 < (a - b).toNat ∧ (a - b).toNat < 2 ^ 31 := by
  simp only [tcpSeqGt, decide_eq_true_eq, BitVec.toInt_eq_toNat_cond]
  split <;> omega

theorem tcpSeqLt_iff : tcpSeqLt a b = true ↔ 2 ^ 31 ≤ (a - b).toNat := by
  simp only [tcpSeqLt, decide_eq_true_eq, BitVec.toInt_eq_toNat_cond]
  split <;> omega

theorem tcpSeqGeq_iff : tcpSeqGeq a b = true ↔ (a - b).toNat < 2 ^ 31 := by
  simp only [tcpSeqGeq, decide_eq_true_eq, BitVec.toInt_eq_toNat_cond]
  split <;> omega

theorem tcpSeqLeq_iff : tcpSeqLeq a b = true ↔ (a - b).toNat = 0 ∨ 2 ^ 31 ≤ (a - b).toNat := by
  simp only [tcpSeqLeq, decide_eq_true_eq, BitVec.toInt_eq_toNat_cond]
  split <;> omega

theorem maxSeq_half : maxSeq / 2 = 0x7FFFFFFF := by decide

theorem getMinSeq_of_sub_lt (h : (b - a).toNat < 2 ^ 31) : getMinSeq a b = a := by
  unfold getMinSeq
  split
  · rfl
  split
  · rw [if_pos (by rw [maxSeq_half]; bv_omega)]
  · rw [if_neg (by rw [maxSeq_half]; bv_omega)]

theorem getMaxSeq_of_sub_lt (h : (b - a).toNat < 2 ^ 31) : getMaxSeq a b = b := by
  unfold getMaxSeq
  split
  · next hab => exact hab
  split
  · rw [if_pos (by rw [maxSeq_half]; bv_omega)]
  · rw [if_neg (by rw [maxSeq_half]; bv_omega)]

theorem getMinSeq_of_sub_lt' (h : (a - b).toNat < 2 ^ 31) : getMinSeq a b = b := by
  unfold getMinSeq
  split
  · next hab => exact hab
  split
  · rw [if_neg (by rw [maxSeq_half]; bv_omega)]
  · rw [if_pos (by rw [maxSeq_half]; bv_omega)]

theorem getMaxSeq_of_sub_lt' (h : (a - b).toNat < 2 ^ 31) : getMaxSeq a b = a := by
  unfold getMaxSeq
  split
  · rfl
  split
  · rw [if_neg (by rw [maxSeq_half]; bv_omega)]
  · rw [if_pos (by rw [maxSeq_half]; bv_omega)]

end Compare

end CmtTcp
