import Mathlib.Data.Nat.Find
import Mathlib.Data.List.Range

/-!
# The first index of an interval

`FirstIn p lo hi k` says that `k` is the first index of `[lo, hi)` with the property `p`, and `NoneIn`
that there is none. A search may go block by block: the first index of the first block that has one is
the first of all (`FirstIn.block`).
-/

namespace Lib

variable {p : ℕ → Prop} {lo mid hi k : ℕ}

/-- No index in `[lo, hi)` has the property. -/
def NoneIn (p : ℕ → Prop) (lo hi : ℕ) : Prop := ∀ i, lo ≤ i → i < hi → ¬p i

/-- The first index in `[lo, hi)` that has the property. -/
structure FirstIn (p : ℕ → Prop) (lo hi k : ℕ) : Prop where
  ge : lo ≤ k
  lt : k < hi
  holds : p k
  least : NoneIn p lo k

theorem NoneIn.append (h : NoneIn p lo mid) (h' : NoneIn p mid hi) : NoneIn p lo hi := by
  intro i hlo hhi
  rcases Nat.lt_or_ge i mid with hmid | hmid
  · exact h i hlo hmid
  · exact h' i hmid hhi

theorem NoneIn.mono {lo' hi' : ℕ} (h : NoneIn p lo hi) (hlo : lo ≤ lo') (hhi : hi' ≤ hi) :
    NoneIn p lo' hi' := fun i hi₁ hi₂ => h i (hlo.trans hi₁) (hi₂.trans_le hhi)

theorem NoneIn.congr {q : ℕ → Prop} (h : NoneIn p lo hi) (hpq : ∀ i, lo ≤ i → i < hi → (p i ↔ q i)) :
    NoneIn q lo hi := fun i hlo hhi hq => h i hlo hhi ((hpq i hlo hhi).mpr hq)

namespace FirstIn

theorem unique {k' : ℕ} (h : FirstIn p lo hi k) (h' : FirstIn p lo hi k') : k = k' := by
  rcases Nat.lt_trichotomy k k' with hlt | heq | hlt
  · exact absurd h.holds (h'.least k h.ge hlt)
  · exact heq
  · exact absurd h'.holds (h.least k' h'.ge hlt)

theorem not_noneIn (h : FirstIn p lo hi k) : ¬NoneIn p lo hi := fun hnone =>
  hnone k h.ge h.lt h.holds

/-- Where some index has the property, one of them is the first. -/
theorem exists_of_not_noneIn (h : ¬NoneIn p lo hi) : ∃ k, FirstIn p lo hi k := by
  classical
  unfold NoneIn at h
  push Not at h
  have hex : ∃ i, lo ≤ i ∧ i < hi ∧ p i := h
  obtain ⟨hge, hlt, hp⟩ := Nat.find_spec hex
  refine ⟨Nat.find hex, hge, hlt, hp, fun i hlo hi' hpi => ?_⟩
  exact Nat.find_min hex hi' ⟨hlo, hi'.trans hlt, hpi⟩

/-- What comes in front of the interval has no such index. -/
theorem extend (h : NoneIn p lo mid) (h' : FirstIn p mid hi k) (hmid : lo ≤ mid) : FirstIn p lo hi k :=
  ⟨hmid.trans h'.ge, h'.lt, h'.holds, h.append h'.least⟩

theorem mono {hi' : ℕ} (h : FirstIn p lo hi k) (hhi : hi ≤ hi') : FirstIn p lo hi' k :=
  ⟨h.ge, h.lt.trans_le hhi, h.holds, h.least⟩

theorem shift {a n : ℕ} (h : FirstIn (fun j => p (a + j)) 0 n k) : FirstIn p a (a + n) (a + k) where
  ge := Nat.le_add_right a k
  lt := Nat.add_lt_add_left h.lt a
  holds := h.holds
  least := by
    intro i hlo hi' hp
    obtain ⟨j, rfl⟩ := Nat.exists_eq_add_of_le hlo
    exact h.least j (Nat.zero_le j) (Nat.add_lt_add_iff_left.mp hi') hp

end FirstIn

/-! ### Blocks -/

section Blocks

variable {m a b i j : ℕ}

/-- No index of the blocks from `a` to `b` has the property when no block has one. -/
theorem noneIn_blocks (hm : 0 < m) :
    NoneIn p (m * a) (m * b) ↔ NoneIn (fun i => ∃ j, j < m ∧ p (m * i + j)) a b := by
  constructor
  · rintro h i hlo hhi ⟨j, hj, hp⟩
    refine h (m * i + j) ?_ ?_ hp
    · exact (Nat.mul_le_mul_left m hlo).trans (Nat.le_add_right _ _)
    · calc m * i + j < m * i + m := Nat.add_lt_add_left hj _
        _ = m * (i + 1) := rfl
        _ ≤ m * b := Nat.mul_le_mul_left m hhi
  · intro h k hlo hhi hp
    refine h (k / m) ?_ ?_ ⟨k % m, Nat.mod_lt k hm, ?_⟩
    · exact (Nat.le_div_iff_mul_le hm).mpr (by rwa [Nat.mul_comm])
    · exact (Nat.div_lt_iff_lt_mul hm).mpr (by rwa [Nat.mul_comm])
    · rwa [Nat.div_add_mod]

/-- The first index of the first block that has one. -/
theorem FirstIn.block (hm : 0 < m) (h : FirstIn (fun i => ∃ j, j < m ∧ p (m * i + j)) a b i)
    (h' : FirstIn (fun j => p (m * i + j)) 0 m j) : FirstIn p (m * a) (m * b) (m * i + j) := by
  refine FirstIn.extend ((noneIn_blocks hm).mpr h.least) ?_ (Nat.mul_le_mul_left m h.ge)
  exact h'.shift.mono (Nat.mul_le_mul_left m h.lt)

end Blocks

/-! ### Searching -/

section Search

variable [DecidablePred p]

theorem find?_eq_some_iff (hle : lo ≤ hi) :
    (List.range' lo (hi - lo)).find? (fun i => decide (p i)) = some k ↔ FirstIn p lo hi k := by
  rw [List.find?_range'_eq_some, List.mem_range'_1, Nat.add_sub_cancel' hle]
  simp only [decide_eq_true_eq, Bool.not_eq_eq_eq_not, Bool.not_true, decide_eq_false_iff_not]
  constructor
  · rintro ⟨hp, ⟨hge, hlt⟩, hleast⟩
    exact ⟨hge, hlt, hp, hleast⟩
  · rintro ⟨hge, hlt, hp, hleast⟩
    exact ⟨hp, ⟨hge, hlt⟩, hleast⟩

theorem find?_eq_none_iff (hle : lo ≤ hi) :
    (List.range' lo (hi - lo)).find? (fun i => decide (p i)) = none ↔ NoneIn p lo hi := by
  rw [List.find?_range'_eq_none, Nat.add_sub_cancel' hle]
  simp only [Bool.not_eq_eq_eq_not, Bool.not_true, decide_eq_false_iff_not]
  exact Iff.rfl

end Search

end Lib
