import Mathlib.Data.BitVec
import Mathlib.Tactic.Ring

/-!
# Fields of a packed structure

A buffer gives a byte for each offset. A field of `w` bits lies at an offset, with its lowest byte first.

* `Field.get_set`: what was put into a field is there;
* `Field.get_set_of_apart`: the other fields are as before.
-/

namespace Lib

/-- A field of a packed structure, by the offset of its first byte. -/
structure Field (w : ℕ) where
  pos : ℕ

/-- The number that `n` bytes from `pos` on stand for. -/
def numberAt (m : ℕ → BitVec 8) (pos : ℕ) : (n : ℕ) → ℕ
  | 0 => 0
  | n + 1 => (m pos).toNat + 256 * numberAt m (pos + 1) n

/-- The digits of a number to the base 256 stand for it. -/
theorem numberAt_digits {m : ℕ → BitVec 8} {pos n x : ℕ}
    (h : ∀ k < n, (m (pos + k)).toNat = x / 256 ^ k % 256) : numberAt m pos n = x % 256 ^ n := by
  induction n generalizing pos x with
  | zero => exact (Nat.mod_one x).symm
  | succ n ih =>
    have hfirst : (m pos).toNat = x % 256 := by
      have h₀ := h 0 n.succ_pos
      rwa [Nat.add_zero, Nat.pow_zero, Nat.div_one] at h₀
    have hrest : numberAt m (pos + 1) n = x / 256 % 256 ^ n := by
      refine ih fun k hk => ?_
      have hnext := h (k + 1) (Nat.succ_lt_succ hk)
      rwa [Nat.add_comm k 1, ← Nat.add_assoc, Nat.add_comm 1 k, pow_succ', ← Nat.div_div_eq_div_mul]
        at hnext
    calc numberAt m pos (n + 1) = (m pos).toNat + 256 * numberAt m (pos + 1) n := rfl
      _ = x % 256 + 256 * (x / 256 % 256 ^ n) := by rw [hfirst, hrest]
      _ = x % (256 * 256 ^ n) := (Nat.mod_mul).symm
      _ = x % 256 ^ (n + 1) := by rw [pow_succ']

/-- The number depends on the bytes of it alone. -/
theorem numberAt_congr {m m' : ℕ → BitVec 8} {pos n : ℕ}
    (h : ∀ j, pos ≤ j → j < pos + n → m j = m' j) : numberAt m pos n = numberAt m' pos n := by
  induction n generalizing pos with
  | zero => rfl
  | succ n ih =>
    unfold numberAt
    rw [h pos (Nat.le_refl _) (by omega), ih fun j hlo hhi => h j (by omega) (by omega)]

namespace Field

variable {w w' : ℕ} {f : Field w} {g : Field w'} {m m' : ℕ → BitVec 8} {v : BitVec w}
  {v' : BitVec w'} {j : ℕ}

/-- Read a field. -/
def get (f : Field w) (m : ℕ → BitVec 8) : BitVec w := BitVec.ofNat w (numberAt m f.pos (w / 8))

/-- Write a field. -/
def set (f : Field w) (m : ℕ → BitVec 8) (v : BitVec w) : ℕ → BitVec 8 := fun j =>
  if f.pos ≤ j ∧ j < f.pos + w / 8 then BitVec.ofNat 8 (v.toNat / 256 ^ (j - f.pos)) else m j

/-- The byte does not belong to the field. -/
def Outside (f : Field w) (j : ℕ) : Prop := j < f.pos ∨ f.pos + w / 8 ≤ j

instance : DecidablePred f.Outside := fun _ => inferInstanceAs (Decidable (_ ∨ _))

/-- Two fields have no byte in common. -/
def Apart (f : Field w) (g : Field w') : Prop := f.pos + w / 8 ≤ g.pos ∨ g.pos + w' / 8 ≤ f.pos

instance : Decidable (f.Apart g) := inferInstanceAs (Decidable (_ ∨ _))

theorem set_of_outside (h : f.Outside j) : f.set m v j = m j := by
  refine if_neg fun hin => ?_
  unfold Outside at h
  omega

theorem get_congr (h : ∀ j, ¬f.Outside j → m j = m' j) : f.get m = f.get m' := by
  refine congrArg (BitVec.ofNat w) (numberAt_congr fun j hlo hhi => h j ?_)
  unfold Outside
  omega

/-- What was written is read. -/
theorem get_set (hw : w % 8 = 0) : f.get (f.set m v) = v := by
  have hdigits : ∀ k < w / 8, (f.set m v (f.pos + k)).toNat = v.toNat / 256 ^ k % 256 := by
    intro k hk
    have hbyte : f.set m v (f.pos + k) = _ := if_pos ⟨by omega, by omega⟩
    rw [hbyte, Nat.add_sub_cancel_left, BitVec.toNat_ofNat]
  have hwidth : (256 : ℕ) ^ (w / 8) = 2 ^ w := by
    rw [show (256 : ℕ) = 2 ^ 8 from rfl, ← pow_mul, Nat.mul_div_cancel' (Nat.dvd_of_mod_eq_zero hw)]
  refine BitVec.eq_of_toNat_eq ?_
  unfold get
  rw [BitVec.toNat_ofNat, numberAt_digits hdigits, hwidth, Nat.mod_mod, Nat.mod_eq_of_lt v.isLt]

/-- A field apart from the one that was written is as before. -/
theorem get_set_of_apart (h : f.Apart g) : f.get (g.set m v') = f.get m := by
  refine get_congr fun j hj => set_of_outside ?_
  unfold Outside at hj ⊢
  unfold Apart at h
  omega

end Field

end Lib
