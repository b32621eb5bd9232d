import Mathlib.Data.List.Basic

/-!
# Sets of numbers as lists of separated intervals

A list of intervals, each a start and a length, is *gapped* when its intervals are not empty,
ascend, and neither overlap nor touch. It is then the only gapped list that covers the numbers it
covers (`Gapped.eq_of_covers`), so a gapped list is a canonical form of a finite set.

`IsRun S n` says that the numbers of `S` run without a hole from zero up to `n`; on a gapped list
the first interval decides it (`Gapped.isRun_cons`, `Gapped.isRun_zero`).
-/

namespace Lib

/-- Number `i` lies in the interval `a`. -/
def InInterval (a : ℕ × ℕ) (i : ℕ) : Prop := a.1 ≤ i ∧ i < a.1 + a.2

/-- Number `i` lies in one of the intervals. -/
def Covers (l : List (ℕ × ℕ)) (i : ℕ) : Prop := ∃ a ∈ l, InInterval a i

/-- The intervals are not empty, ascend, and leave a gap between each other. -/
structure Gapped (l : List (ℕ × ℕ)) : Prop where
  pos : ∀ a ∈ l, 0 < a.2
  gap : l.Pairwise fun a b => a.1 + a.2 < b.1

/-- The numbers of `S` run from zero up to `n` and stop there. -/
def IsRun (S : ℕ → Prop) (n : ℕ) : Prop := (∀ i < n, S i) ∧ ¬ S n

section Gapped

variable {l l' l₁ l₂ : List (ℕ × ℕ)} {a b : ℕ × ℕ} {i m n : ℕ} {S : ℕ → Prop}

theorem gapped_nil : Gapped [] where
  pos := fun _ h => by cases h
  gap := .nil

@[simp] theorem covers_nil : Covers [] i ↔ False := by simp [Covers]

@[simp] theorem covers_cons : Covers (a :: l) i ↔ InInterval a i ∨ Covers l i := by
  simp [Covers]

theorem Gapped.tail (h : Gapped (a :: l)) : Gapped l where
  pos := fun b hb => h.pos b (List.mem_cons_of_mem a hb)
  gap := h.gap.of_cons

/-- Everything behind the first interval lies past a hole. -/
theorem Gapped.lt_of_covers (h : Gapped (a :: l)) (hi : Covers l i) : a.1 + a.2 < i := by
  obtain ⟨b, hb, hbi, -⟩ := hi
  exact Nat.lt_of_lt_of_le (List.rel_of_pairwise_cons h.gap hb) hbi

theorem Gapped.not_covers_end (h : Gapped (a :: l)) : ¬ Covers (a :: l) (a.1 + a.2) := by
  rw [covers_cons]
  rintro (⟨-, hlt⟩ | hcov)
  · exact Nat.lt_irrefl _ hlt
  · exact Nat.lt_irrefl _ (h.lt_of_covers hcov)

/-- The first interval starts at the least number that is covered. -/
theorem Gapped.start_le (h : Gapped (a :: l)) (hi : Covers (a :: l) i) : a.1 ≤ i := by
  rcases covers_cons.mp hi with hin | hcov
  · exact hin.1
  · have := h.lt_of_covers hcov
    omega

theorem Gapped.covers_start (h : Gapped (a :: l)) : Covers (a :: l) a.1 :=
  ⟨a, List.mem_cons_self, Nat.le_refl _, Nat.lt_add_of_pos_right (h.pos a List.mem_cons_self)⟩

/-- The tail covers what lies past the end of the first interval. -/
theorem Gapped.covers_tail_iff (h : Gapped (a :: l)) :
    Covers l i ↔ Covers (a :: l) i ∧ a.1 + a.2 < i := by
  constructor
  · intro hi
    exact ⟨covers_cons.mpr (.inr hi), h.lt_of_covers hi⟩
  · rintro ⟨hi, hlt⟩
    rcases covers_cons.mp hi with hin | hcov
    · have := hin.2
      omega
    · exact hcov

/-- The first intervals of two gapped lists that cover the same numbers end together. -/
theorem Gapped.end_le (h : Gapped (a :: l)) (hstart : a.1 = b.1)
    (hcov : ∀ i, Covers (b :: l') i → Covers (a :: l) i) : b.1 + b.2 ≤ a.1 + a.2 := by
  by_contra hlt
  -- the end of `a` lies inside `b`, but no interval of `a :: l` covers it
  refine h.not_covers_end (hcov _ (covers_cons.mpr (.inl ⟨?_, ?_⟩)))
  · omega
  · omega

/-- **A gapped list is determined by what it covers.** -/
theorem Gapped.eq_of_covers (h : Gapped l) (h' : Gapped l') (hcov : ∀ i, Covers l i ↔ Covers l' i) :
    l = l' := by
  induction l generalizing l' with
  | nil =>
    cases l' with
    | nil => rfl
    | cons b l' => exact absurd ((hcov b.1).mpr h'.covers_start) (by simp)
  | cons a l ih =>
    cases l' with
    | nil => exact absurd ((hcov a.1).mp h.covers_start) (by simp)
    | cons b l' =>
      -- each of the first intervals starts and ends within the other one
      have hstart : a.1 = b.1 :=
        Nat.le_antisymm (h.start_le ((hcov _).mpr h'.covers_start))
          (h'.start_le ((hcov _).mp h.covers_start))
      have hend : a.1 + a.2 = b.1 + b.2 :=
        Nat.le_antisymm (h'.end_le hstart.symm fun i => (hcov i).mp)
          (h.end_le hstart fun i => (hcov i).mpr)
      obtain rfl : a = b := by
        ext
        · exact hstart
        · omega
      rw [ih h.tail h'.tail fun i => by rw [h.covers_tail_iff, h'.covers_tail_iff, hcov]]

/-- An interval that leaves a gap to everything in a gapped list has its place in it. -/
theorem Gapped.insert (h : Gapped (l₁ ++ l₂)) (hpos : 0 < a.2)
    (hbefore : ∀ b ∈ l₁, b.1 + b.2 < a.1) (hbehind : ∀ b ∈ l₂, a.1 + a.2 < b.1) :
    Gapped (l₁ ++ a :: l₂) where
  pos := by
    intro b hb
    rcases List.mem_append.mp hb with hb | hb
    · exact h.pos b (List.mem_append_left _ hb)
    rcases List.mem_cons.mp hb with rfl | hb
    · exact hpos
    · exact h.pos b (List.mem_append_right _ hb)
  gap := by
    obtain ⟨h₁, h₂, h₁₂⟩ := List.pairwise_append.mp h.gap
    refine List.pairwise_append.mpr ⟨h₁, List.pairwise_cons.mpr ⟨hbehind, h₂⟩, ?_⟩
    intro b hb c hc
    rcases List.mem_cons.mp hc with rfl | hc
    · exact hbefore b hb
    · exact h₁₂ b hb c hc

/-! ### The run from zero -/

/-- A run has one length. -/
theorem IsRun.unique (h : IsRun S m) (h' : IsRun S n) : m = n := by
  rcases Nat.lt_trichotomy m n with hlt | heq | hgt
  · exact absurd (h'.1 m hlt) h.2
  · exact heq
  · exact absurd (h.1 n hgt) h'.2

theorem Gapped.isRun_cons (h : Gapped (a :: l)) (hzero : a.1 = 0) :
    IsRun (Covers (a :: l)) a.2 := by
  refine ⟨fun i hi => covers_cons.mpr (.inl ⟨by omega, by omega⟩), ?_⟩
  have hend := h.not_covers_end
  rwa [hzero, Nat.zero_add] at hend

theorem Gapped.isRun_zero (h : Gapped (a :: l)) (hpos : 0 < a.1) : IsRun (Covers (a :: l)) 0 := by
  refine ⟨fun i hi => absurd hi (Nat.not_lt_zero i), ?_⟩
  intro hcov
  have := h.start_le hcov
  omega

end Gapped

end Lib
