import Mathlib.Data.BitVec
import Mathlib.Data.Nat.ModEq
import Mathlib.Algebra.BigOperators.Group.List.Basic
import Mathlib.Data.Nat.Prime.Basic
import Mathlib.RingTheory.Coprime.Lemmas

/-!
# Ones' complement sums

Addition of `w`-bit words with an end-around carry, as Internet checksums are made of. A carry out of the
top counts `1`, so a word stands for its value modulo `2 ^ w - 1`; zero has two representations, and a
sum is all zeros only if every word of it is.

* `wrap w n`: the word that carries leave of the number `n`;
* `toNat_sum`: a sum is the wrapped sum of the values, in whatever order the carries are added in;
* `fold_fold`: two rounds of adding the carries in are enough for `2 * w` bits;
* `sum_map`: what multiplies values, such as a change of byte order, commutes with sums;
* `wrap_add_compl`: a sum and its complement make all ones;
* `dvd_two_pow_mul_sub_iff`: which changes of a word a sum does not notice.
-/

namespace Lib.OnesComplement

variable {w a b n c : ℕ}

/-! ### Numbers with their carries added in -/

/-- The word that `n` leaves when carries go around. -/
def wrap (w n : ℕ) : ℕ := if n = 0 then 0 else (n - 1) % (2 ^ w - 1) + 1

/-- One round of adding the carries in. -/
def fold (w n : ℕ) : ℕ := n / 2 ^ w + n % 2 ^ w

theorem modulus_pos (hw : 0 < w) : 0 < 2 ^ w - 1 :=
  Nat.sub_pos_of_lt (Nat.one_lt_two_pow (Nat.pos_iff_ne_zero.mp hw))

theorem wrap_le (hw : 0 < w) (n : ℕ) : wrap w n ≤ 2 ^ w - 1 := by
  unfold wrap
  split
  · exact Nat.zero_le _
  · exact Nat.mod_lt _ (modulus_pos hw)

theorem wrap_of_le (h : n ≤ 2 ^ w - 1) : wrap w n = n := by
  unfold wrap
  split
  · next hn => exact hn.symm
  · rw [Nat.mod_eq_of_lt (by omega)]
    omega

theorem wrap_eq_zero : wrap w n = 0 ↔ n = 0 := by
  unfold wrap
  split <;> omega

theorem wrap_modEq (w n : ℕ) : wrap w n ≡ n [MOD 2 ^ w - 1] := by
  unfold wrap
  split
  · next hn => rw [hn]
  · have h := (Nat.mod_modEq (n - 1) (2 ^ w - 1)).add_right 1
    rwa [show n - 1 + 1 = n by omega] at h

/-- Numbers wrap to one word exactly when they are congruent and vanish together. -/
theorem wrap_eq_wrap :
    wrap w a = wrap w b ↔ (a = 0 ↔ b = 0) ∧ a ≡ b [MOD 2 ^ w - 1] := by
  constructor
  · intro h
    have hzero : a = 0 ↔ b = 0 := by rw [← @wrap_eq_zero w a, h, wrap_eq_zero]
    exact ⟨hzero, (wrap_modEq w a).symm.trans (h ▸ wrap_modEq w b)⟩
  · rintro ⟨hzero, hmod⟩
    by_cases ha : a = 0
    · rw [ha, hzero.mp ha]
    have hb : b ≠ 0 := fun hb => ha (hzero.mpr hb)
    have hpred : a - 1 ≡ b - 1 [MOD 2 ^ w - 1] := by
      refine Nat.ModEq.add_right_cancel' 1 ?_
      rwa [show a - 1 + 1 = a by omega, show b - 1 + 1 = b by omega]
    unfold wrap
    rw [if_neg ha, if_neg hb, hpred]

theorem wrap_add_wrap (a b : ℕ) : wrap w (a + wrap w b) = wrap w (a + b) := by
  refine (wrap_eq_wrap).mpr ⟨?_, (wrap_modEq w b).add_left a⟩
  rw [Nat.add_eq_zero_iff, Nat.add_eq_zero_iff, wrap_eq_zero]

theorem wrap_mul_wrap (c a : ℕ) : wrap w (c * wrap w a) = wrap w (c * a) := by
  refine (wrap_eq_wrap).mpr ⟨?_, (wrap_modEq w a).mul_left c⟩
  rw [Nat.mul_eq_zero, Nat.mul_eq_zero, wrap_eq_zero]

/-- Less than the modulus more shows, unless it is nothing. -/
theorem wrap_add_eq_wrap (hb : b < 2 ^ w - 1) : wrap w (a + b) = wrap w a ↔ b = 0 := by
  constructor
  · intro h
    have hmod : a + b ≡ a + 0 [MOD 2 ^ w - 1] := (wrap_eq_wrap.mp h).2
    have hdvd := (Nat.modEq_zero_iff_dvd).mp (Nat.ModEq.add_left_cancel' a hmod)
    exact Nat.eq_zero_of_dvd_of_lt hdvd hb
  · rintro rfl
    rw [Nat.add_zero]

/-- A sum and the complement of its word wrap to all ones. -/
theorem wrap_add_compl (hw : 0 < w) (n : ℕ) :
    wrap w (n + (2 ^ w - 1 - wrap w n)) = 2 ^ w - 1 := by
  have hle := wrap_le hw n
  calc wrap w (n + (2 ^ w - 1 - wrap w n))
      = wrap w (2 ^ w - 1 - wrap w n + wrap w n) := by rw [wrap_add_wrap, Nat.add_comm]
    _ = wrap w (2 ^ w - 1) := by rw [Nat.sub_add_cancel hle]
    _ = 2 ^ w - 1 := wrap_of_le (Nat.le_refl _)

theorem wrap_fold (n : ℕ) : wrap w (fold w n) = wrap w n := by
  have hdiv : 2 ^ w * (n / 2 ^ w) + n % 2 ^ w = n := Nat.div_add_mod n (2 ^ w)
  have hsub : 2 ^ w - 1 + 1 = 2 ^ w := Nat.sub_add_cancel Nat.one_le_two_pow
  -- a carry is worth a multiple of the modulus more than what it is added in as
  have hsum : n = fold w n + (2 ^ w - 1) * (n / 2 ^ w) := by
    calc n = (2 ^ w - 1 + 1) * (n / 2 ^ w) + n % 2 ^ w := by rw [hsub, hdiv]
      _ = fold w n + (2 ^ w - 1) * (n / 2 ^ w) := by
        unfold fold
        rw [Nat.add_mul, Nat.one_mul]
        omega
  refine (wrap_eq_wrap).mpr ⟨?_, ?_⟩
  · constructor
    · intro h
      have hq : n / 2 ^ w = 0 := (Nat.add_eq_zero_iff.mp h).1
      rw [hsum, h, hq, Nat.mul_zero]
    · rintro rfl
      unfold fold
      rw [Nat.zero_div, Nat.zero_mod]
  · have h := (Nat.ModEq.refl (n := 2 ^ w - 1) (fold w n)).add
      (Nat.modEq_zero_iff_dvd.mpr (Nat.dvd_mul_right (2 ^ w - 1) (n / 2 ^ w)))
    rw [← hsum, Nat.add_zero] at h
    exact h.symm

/-- One round leaves at most one carry of `2 * w` bits, and then room for it. -/
theorem fold_lt (h : n < 2 ^ (2 * w)) :
    fold w n / 2 ^ w ≤ 1 ∧ fold w n / 2 ^ w + fold w n % 2 ^ w < 2 ^ w := by
  have hone : 1 ≤ 2 ^ w := Nat.one_le_two_pow
  have hq : n / 2 ^ w < 2 ^ w := by
    refine Nat.div_lt_of_lt_mul ?_
    rwa [← pow_add, ← two_mul]
  have hr : n % 2 ^ w < 2 ^ w := Nat.mod_lt _ hone
  have hfold : fold w n = n / 2 ^ w + n % 2 ^ w := rfl
  rcases Nat.lt_or_ge (fold w n) (2 ^ w) with hlt | hge
  · rw [Nat.div_eq_of_lt hlt, Nat.mod_eq_of_lt hlt]
    omega
  · have hdiv : fold w n / 2 ^ w = 1 := Nat.div_eq_of_lt_le (by omega) (by omega)
    have hmod := Nat.div_add_mod (fold w n) (2 ^ w)
    rw [hdiv, Nat.mul_one] at hmod
    omega

/-- Two rounds are enough for `2 * w` bits. -/
theorem fold_fold (h : n < 2 ^ (2 * w)) : fold w (fold w n) = wrap w n := by
  have hlt : fold w (fold w n) < 2 ^ w := (fold_lt h).2
  rw [← wrap_fold n, ← wrap_fold (fold w n), wrap_of_le (Nat.le_sub_one_of_lt hlt)]

/-! ### Words -/

/-- Addition with an end-around carry. -/
def add (x y : BitVec w) : BitVec w :=
  if x.toNat + y.toNat < 2 ^ w then x + y else x + y + 1

/-- The ones' complement sum of a list of words. -/
def sum (ws : List (BitVec w)) : BitVec w := ws.foldr add 0

theorem toNat_add (hw : 0 < w) (x y : BitVec w) :
    (add x y).toNat = wrap w (x.toNat + y.toNat) := by
  have hx := x.isLt
  have hy := y.isLt
  have hpos := modulus_pos hw
  unfold add
  split
  · next h => rw [BitVec.toNat_add, Nat.mod_eq_of_lt h, wrap_of_le (by omega)]
  · next h =>
    have hone : (1 : BitVec w).toNat = 1 := BitVec.toNat_one hw
    have hsub : (x.toNat + y.toNat) % 2 ^ w = x.toNat + y.toNat - 2 ^ w := by
      rw [Nat.mod_eq_sub_mod (by omega), Nat.mod_eq_of_lt (by omega)]
    have hwrap : wrap w (x.toNat + y.toNat) = x.toNat + y.toNat - 2 ^ w + 1 := by
      unfold wrap
      rw [if_neg (by omega), Nat.mod_eq_sub_mod (by omega), Nat.mod_eq_of_lt (by omega)]
      omega
    rw [BitVec.toNat_add, BitVec.toNat_add, hone, hsub, hwrap, Nat.mod_eq_of_lt (by omega)]

/-- A sum is the wrapped sum of the values. -/
theorem toNat_sum (hw : 0 < w) (ws : List (BitVec w)) :
    (sum ws).toNat = wrap w (ws.map BitVec.toNat).sum := by
  induction ws with
  | nil => rfl
  | cons x ws ih =>
    calc (sum (x :: ws)).toNat = wrap w (x.toNat + (sum ws).toNat) := toNat_add hw x (sum ws)
      _ = wrap w (x.toNat + (ws.map BitVec.toNat).sum) := by rw [ih, wrap_add_wrap]
      _ = wrap w ((x :: ws).map BitVec.toNat).sum := by rw [List.map_cons, List.sum_cons]

/-- What multiplies the value of a word commutes with sums. -/
theorem sum_map (hw : 0 < w) {f : BitVec w → BitVec w}
    (hf : ∀ x, (f x).toNat = wrap w (c * x.toNat)) (ws : List (BitVec w)) :
    sum (ws.map f) = f (sum ws) := by
  refine BitVec.eq_of_toNat_eq ?_
  rw [hf, toNat_sum hw ws, wrap_mul_wrap]
  induction ws with
  | nil => rw [List.map_nil, List.map_nil, List.sum_nil, Nat.mul_zero]; rfl
  | cons x ws ih =>
    calc (sum ((x :: ws).map f)).toNat
        = wrap w ((f x).toNat + (sum (ws.map f)).toNat) := toNat_add hw _ _
      _ = wrap w (c * x.toNat + c * (ws.map BitVec.toNat).sum) := by
          rw [ih, hf, wrap_add_wrap, Nat.add_comm, wrap_add_wrap, Nat.add_comm]
      _ = wrap w (c * ((x :: ws).map BitVec.toNat).sum) := by
          rw [List.map_cons, List.sum_cons, Nat.mul_add]

/-! ### Changed words -/

/-- All ones stand for the multiples of the modulus, but for nothing. -/
theorem wrap_eq_top (hw : 0 < w) : wrap w n = 2 ^ w - 1 ↔ n ≠ 0 ∧ 2 ^ w - 1 ∣ n := by
  have hpos := modulus_pos hw
  have hself : 2 ^ w - 1 ≡ 0 [MOD 2 ^ w - 1] := Nat.modEq_zero_iff_dvd.mpr (Nat.dvd_refl _)
  have hwrap : wrap w (2 ^ w - 1) = 2 ^ w - 1 := wrap_of_le (Nat.le_refl _)
  rw [← Nat.modEq_zero_iff_dvd]
  constructor
  · intro h
    obtain ⟨hzero, hmod⟩ := wrap_eq_wrap.mp (h.trans hwrap.symm)
    exact ⟨fun hn => absurd (hzero.mp hn) (by omega), hmod.trans hself⟩
  · rintro ⟨hn, hmod⟩
    refine Eq.trans (wrap_eq_wrap.mpr ?_) hwrap
    exact ⟨iff_of_false hn (by omega), hmod.trans hself.symm⟩

/-- **What a change of one word does to a sum.** Wherever the word stands, its change goes unnoticed
exactly when there is none, or when all zeros become all ones or all ones all zeros. -/
theorem dvd_two_pow_mul_sub_iff (hw : 0 < w) (e : ℕ) (x y : BitVec w) :
    ((2 ^ w - 1 : ℕ) : ℤ) ∣ 2 ^ e * ((y.toNat : ℤ) - x.toNat) ↔
      y = x ∨ x.toNat = 0 ∧ y.toNat = 2 ^ w - 1 ∨ x.toNat = 2 ^ w - 1 ∧ y.toNat = 0 := by
  have hpos := modulus_pos hw
  have hx := x.isLt
  have hy := y.isLt
  -- a power of two is a unit
  have hcop : IsCoprime ((2 ^ w - 1 : ℕ) : ℤ) (2 ^ e) := by
    have hodd : (2 ^ w - 1).Coprime 2 := by
      rw [Nat.coprime_two_right, Nat.odd_iff]
      have heven : 2 ∣ 2 ^ w := dvd_pow_self 2 (Nat.pos_iff_ne_zero.mp hw)
      omega
    exact_mod_cast Nat.isCoprime_iff_coprime.mpr (hodd.pow_right e)
  constructor
  · intro hdvd
    have hdiff := hcop.dvd_of_dvd_mul_left hdvd
    rcases lt_trichotomy x.toNat y.toNat with hlt | heq | hgt
    · have hle := Int.le_of_dvd (by omega) hdiff
      exact .inr (.inl (by omega))
    · exact .inl (BitVec.eq_of_toNat_eq heq.symm)
    · have hle := Int.le_of_dvd (by omega) ((Int.dvd_neg).mpr hdiff)
      exact .inr (.inr (by omega))
  · rintro (rfl | ⟨hx0, hy1⟩ | ⟨hx1, hy0⟩)
    · rw [sub_self, mul_zero]
      exact dvd_zero _
    · rw [hx0, hy1, Nat.cast_zero, sub_zero]
      exact dvd_mul_left _ _
    · rw [hx1, hy0, Nat.cast_zero, zero_sub]
      exact (dvd_neg.mpr (dvd_refl _)).mul_left _

end Lib.OnesComplement
