import Mathlib.Data.Nat.ModEq
import Mathlib.Data.BitVec

/-!
# Indices of a circular array

A position of an unbounded stream is kept in a circular array at its remainder, or counted by a
machine word that wraps. Two positions less than a whole turn apart are the same as soon as their
remainders are (`eq_of_mod_eq`, `eq_of_ofNat_eq`), and a difference of wrapped counters is the
difference of the counters (`toNat_ofNat_sub_ofNat`). The mask of a size that is a power of two parts a word
into its remainder and the rest (`toNat_and_not`).
-/

namespace Lib

variable {n a b i j : ℕ}

/-- Positions less than a turn apart are equal when their remainders are. -/
theorem eq_of_mod_eq (h : a % n = b % n) (hab : a ≤ b) (hlt : b < a + n) : a = b := by
  have hdvd : n ∣ b - a := (Nat.modEq_iff_dvd' hab).mp h
  have hzero : b - a = 0 := Nat.eq_zero_of_dvd_of_lt hdvd (by omega)
  omega

/-- Two positions in one window of length `n` occupy the same slot only if they are equal. -/
theorem eq_of_mod_eq_of_window {lo : ℕ} (h : i % n = j % n) (hi : lo ≤ i) (hi' : i < lo + n)
    (hj : lo ≤ j) (hj' : j < lo + n) : i = j := by
  rcases Nat.le_total i j with hij | hij
  · exact eq_of_mod_eq h hij (by omega)
  · exact (eq_of_mod_eq h.symm hij (by omega)).symm

/-- Stepping a remainder: the last slot is followed by the first. -/
theorem succ_mod_eq_ite (n i : ℕ) :
    (i + 1) % (n + 1) = if i % (n + 1) = n then 0 else i % (n + 1) + 1 := by
  have hlt : i % (n + 1) < n + 1 := Nat.mod_lt _ (Nat.succ_pos n)
  rw [Nat.add_mod]
  split
  · next h =>
    rw [h]
    rcases Nat.eq_zero_or_pos n with rfl | hn
    · rfl
    · rw [Nat.mod_eq_of_lt (show 1 < n + 1 by omega), Nat.mod_self]
  · next h =>
    rcases Nat.eq_zero_or_pos n with rfl | hn
    · omega
    · rw [Nat.mod_eq_of_lt (show 1 < n + 1 by omega), Nat.mod_eq_of_lt (by omega)]

/-- The bit of a size is clear in every number below it. -/
theorem and_two_pow_eq_zero {k : ℕ} (h : a < 2 ^ k) : a &&& 2 ^ k = 0 := by
  apply Nat.eq_of_testBit_eq
  intro i
  rw [Nat.testBit_and, Nat.testBit_two_pow, Nat.zero_testBit]
  by_cases hi : k = i
  · subst hi
    rw [Nat.testBit_lt_two_pow h, Bool.false_and]
  · rw [decide_eq_false hi, Bool.and_false]

/-! ### Counters in machine words -/

section Word

variable {w k : ℕ} {x m : BitVec w}

/-- A word is what a mask keeps of it and what the mask clears. -/
theorem and_add_and_not (x m : BitVec w) : (x &&& m) + (x &&& ~~~m) = x := by
  have hdisj : (x &&& m) &&& (x &&& ~~~m) = 0#w := by
    rw [BitVec.and_assoc, ← BitVec.and_assoc m, BitVec.and_comm m, BitVec.and_assoc x m,
      BitVec.and_not_self]
    change x &&& (x &&& 0#w) = 0#w
    rw [BitVec.and_zero, BitVec.and_zero]
  rw [BitVec.add_eq_or_of_and_eq_zero _ _ hdisj, ← BitVec.and_or_distrib_left, BitVec.or_not_self,
    BitVec.and_allOnes]

/-- Clearing the bits of a mask takes away no more than the mask. -/
theorem le_add_toNat_and_not (x m : BitVec w) : x.toNat ≤ m.toNat + (x &&& ~~~m).toNat := by
  have hle : (x &&& m).toNat ≤ m.toNat := by
    rw [BitVec.toNat_and]
    exact Nat.and_le_right
  calc
    x.toNat = ((x &&& m) + (x &&& ~~~m)).toNat := by rw [and_add_and_not]
    _ ≤ (x &&& m).toNat + (x &&& ~~~m).toNat := by
      rw [BitVec.toNat_add]
      exact Nat.mod_le _ _
    _ ≤ m.toNat + (x &&& ~~~m).toNat := Nat.add_le_add_right hle _

/-- Clearing the low bits leaves the multiple below. -/
theorem toNat_and_not (hm : m.toNat = 2 ^ k - 1) :
    (x &&& ~~~m).toNat = x.toNat - x.toNat % 2 ^ k := by
  have hlow : (x &&& m).toNat = x.toNat % 2 ^ k := by
    rw [BitVec.toNat_and, hm, Nat.and_two_pow_sub_one_eq_mod]
  have hle : x &&& m ≤ x := by
    rw [BitVec.le_def, hlow]
    exact Nat.mod_le x.toNat (2 ^ k)
  have hrest : x &&& ~~~m = x - (x &&& m) := by
    apply BitVec.eq_sub_iff_add_eq.mpr
    rw [BitVec.add_comm, and_add_and_not]
  rw [hrest, BitVec.toNat_sub_of_le hle, hlow]

/-- The difference of two wrapped counters less than a turn apart. -/
theorem toNat_ofNat_sub_ofNat (hab : a ≤ b) (hlt : b - a < 2 ^ w) :
    (BitVec.ofNat w b - BitVec.ofNat w a).toNat = b - a := by
  have h : BitVec.ofNat w b = BitVec.ofNat w a + BitVec.ofNat w (b - a) := by
    rw [← BitVec.ofNat_add, Nat.add_sub_cancel' hab]
  rw [h, BitVec.add_comm, BitVec.add_sub_cancel, BitVec.toNat_ofNat, Nat.mod_eq_of_lt hlt]

/-- Wrapped counters less than a turn apart are equal only if the counters are. -/
theorem eq_of_ofNat_eq (h : BitVec.ofNat w a = BitVec.ofNat w b) (hab : a ≤ b)
    (hlt : b - a < 2 ^ w) : a = b := by
  have hsub := toNat_ofNat_sub_ofNat hab hlt
  rw [h, BitVec.sub_self, BitVec.toNat_zero] at hsub
  omega

end Word

end Lib
