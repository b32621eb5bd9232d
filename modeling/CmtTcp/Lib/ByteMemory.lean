import Mathlib.Data.BitVec

/-!
# Words in a memory of bytes

A memory gives a byte for each address of `w` bits; addresses wrap. A word of `n` bytes is kept with its lowest
byte first.

* `loadBytes_storeBytes`: what was stored is loaded;
* `loadBytes_congr`: a load looks at the bytes of its word and at no others.
-/

namespace Lib

variable {w n : ℕ} {mem mem' : BitVec w → BitVec 8} {a : BitVec w}

/-- The word of `n` bytes at the address. -/
def loadBytes (mem : BitVec w → BitVec 8) (a : BitVec w) : (n : ℕ) → BitVec (8 * n)
  | 0 => 0#0
  | n + 1 => loadBytes mem (a + 1) n ++ mem a

/-- The memory with the word at the address. -/
def storeBytes (mem : BitVec w → BitVec 8) (a : BitVec w) (v : BitVec (8 * n)) (x : BitVec w) :
    BitVec 8 :=
  if (x - a).toNat < n then v.extractLsb' (8 * (x - a).toNat) 8 else mem x

/-- The bits of a word are those of its bytes. -/
theorem getLsbD_loadBytes {k : ℕ} (hk : k < 8 * n) :
    (loadBytes mem a n).getLsbD k = (mem (a + BitVec.ofNat w (k / 8))).getLsbD (k % 8) := by
  induction n generalizing a k with
  | zero => exact absurd hk (Nat.not_lt_zero _)
  | succ n ih =>
    have happend : (loadBytes mem a (n + 1)).getLsbD k =
        if k < 8 then (mem a).getLsbD k else (loadBytes mem (a + 1) n).getLsbD (k - 8) :=
      (BitVec.getLsbD_append).trans (by by_cases h : k < 8 <;> simp [h])
    rw [happend]
    by_cases hlow : k < 8
    · rw [if_pos hlow, Nat.div_eq_of_lt hlow, Nat.mod_eq_of_lt hlow, BitVec.add_zero]
    · have hnext : a + 1 + BitVec.ofNat w ((k - 8) / 8) = a + BitVec.ofNat w (k / 8) := by
        obtain ⟨j, rfl⟩ := Nat.exists_eq_add_of_le (Nat.le_of_not_lt hlow)
        rw [Nat.add_sub_cancel_left, Nat.add_div_left _ (by decide), BitVec.add_assoc]
        congr 1
        rw [Nat.add_comm, BitVec.ofNat_add]
        rfl
      rw [if_neg hlow, ih (by omega), hnext]
      congr 1
      omega

theorem loadBytes_congr (h : ∀ i < n, mem (a + BitVec.ofNat w i) = mem' (a + BitVec.ofNat w i)) :
    loadBytes mem a n = loadBytes mem' a n := by
  refine BitVec.eq_of_getLsbD_eq fun k hk => ?_
  rw [getLsbD_loadBytes hk, getLsbD_loadBytes hk, h (k / 8) (by omega)]

theorem loadBytes_storeBytes (v : BitVec (8 * n)) (hn : n ≤ 2 ^ w) :
    loadBytes (storeBytes mem a v) a n = v := by
  refine BitVec.eq_of_getLsbD_eq fun k hk => ?_
  have hoff : (a + BitVec.ofNat w (k / 8) - a).toNat = k / 8 := by
    rw [BitVec.add_comm, BitVec.add_sub_cancel, BitVec.toNat_ofNat]
    exact Nat.mod_eq_of_lt (by omega)
  rw [getLsbD_loadBytes hk, storeBytes, hoff, if_pos (by omega), BitVec.getLsbD_extractLsb']
  have hbyte : k % 8 < 8 := Nat.mod_lt k (by decide)
  simp only [hbyte, decide_true, Bool.true_and, Nat.div_add_mod]

end Lib
