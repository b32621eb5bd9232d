import Mathlib.Data.List.Basic
import Mathlib.Data.List.Perm.Basic
import Mathlib.Order.Interval.Set.LinearOrder

/-!
# Regions of memory

What an allocator works on: regions that are given, and the parts they are divided into. `Laid owned parts`
says that the parts do not overlap and that each of them lies in one of the regions `owned`. An allocator
keeps this through the operations it is made of:

* `Laid.perm`, `Laid.sublist`: parts are reordered, or lost;
* `Laid.carve`: a part is divided into smaller ones;
* `Laid.grow`: a fresh region is obtained and handed out whole.
-/

namespace Lib

/-- The addresses from `start` on, `len` of them. -/
structure Region where
  start : ℕ
  len : ℕ
deriving DecidableEq, Repr

namespace Region

variable {r s t : Region} {x : ℕ}

def span (r : Region) : Set ℕ := Set.Ico r.start (r.start + r.len)

/-- The two regions have no address in common. -/
def Apart (r s : Region) : Prop := r.span ∩ s.span = ∅

/-- The region lies inside the other one. -/
def Within (r s : Region) : Prop := r.span ⊆ s.span

theorem mem_span : x ∈ r.span ↔ r.start ≤ x ∧ x < r.start + r.len := Set.mem_Ico

theorem start_mem (h : 0 < r.len) : r.start ∈ r.span :=
  mem_span.mpr ⟨le_rfl, Nat.lt_add_of_pos_right h⟩

theorem Apart.symm (h : r.Apart s) : s.Apart r := (Set.inter_comm s.span r.span).trans h

theorem Apart.mono {r' s' : Region} (h : r.Apart s) (hr : r'.Within r) (hs : s'.Within s) :
    r'.Apart s' :=
  Set.subset_eq_empty (Set.inter_subset_inter hr hs) h

theorem Apart.not_mem (h : r.Apart s) (hx : x ∈ r.span) : x ∉ s.span :=
  fun hs => Set.eq_empty_iff_forall_notMem.mp h x ⟨hx, hs⟩

theorem apart_of_le (h : r.start + r.len ≤ s.start) : r.Apart s := by
  refine Set.eq_empty_iff_forall_notMem.mpr ?_
  rintro x ⟨hr, hs⟩
  exact absurd (h.trans (mem_span.mp hs).1) (Nat.not_le.mpr (mem_span.mp hr).2)

theorem within_of_le (hlow : s.start ≤ r.start) (hhigh : r.start + r.len ≤ s.start + s.len) :
    r.Within s :=
  Set.Ico_subset_Ico hlow hhigh

theorem within_iff (h : 0 < r.len) :
    r.Within s ↔ s.start ≤ r.start ∧ r.start + r.len ≤ s.start + s.len :=
  Set.Ico_subset_Ico_iff (Nat.lt_add_of_pos_right h)

theorem Within.refl (r : Region) : r.Within r := Set.Subset.rfl

theorem Within.trans (h : r.Within s) (h' : s.Within t) : r.Within t := Set.Subset.trans h h'

/-- `n` cells of `size` bytes in a row. -/
def row (start size : ℕ) : ℕ → List Region
  | 0 => []
  | n + 1 => ⟨start, size⟩ :: row (start + size) size n

theorem row_within {start size n : ℕ} :
    ∀ r ∈ row start size n, start ≤ r.start ∧ r.start + r.len ≤ start + n * size := by
  induction n generalizing start with
  | zero => exact nofun
  | succ n ih =>
    have hmul : (n + 1) * size = n * size + size := Nat.succ_mul n size
    intro r hr
    rcases List.mem_cons.mp hr with rfl | hr
    · exact ⟨le_rfl, by show start + size ≤ _; omega⟩
    · have := ih r hr
      exact ⟨by omega, by omega⟩

/-- A row is given by where its cells start. -/
theorem row_eq_map {start size n : ℕ} :
    row start size n = ((row start size n).map Region.start).map fun a => ⟨a, size⟩ := by
  induction n generalizing start with
  | zero => rfl
  | succ n ih =>
    show (⟨start, size⟩ : Region) :: row (start + size) size n = _
    conv_lhs => rw [ih]
    rfl

theorem row_apart {start size n : ℕ} : (row start size n).Pairwise Apart := by
  induction n generalizing start with
  | zero => exact .nil
  | succ n ih =>
    refine List.pairwise_cons.mpr ⟨fun r hr => ?_, ih⟩
    exact apart_of_le (row_within r hr).1

end Region

open Region

/-- The parts do not overlap, and each of them lies in one of the regions `owned`. -/
structure Laid (owned parts : List Region) : Prop where
  apart : parts.Pairwise Apart
  inside : ∀ r ∈ parts, ∃ o ∈ owned, r.Within o

namespace Laid

variable {owned parts parts' subs : List Region} {r : Region}

theorem perm (h : Laid owned parts) (hp : parts.Perm parts') : Laid owned parts' where
  apart := (hp.pairwise_iff Apart.symm).mp h.apart
  inside := fun r hr => h.inside r (hp.mem_iff.mpr hr)

/-- Parts are lost. -/
theorem sublist (h : Laid owned parts) (hs : parts'.Sublist parts) : Laid owned parts' where
  apart := h.apart.sublist hs
  inside := fun r hr => h.inside r (hs.subset hr)

/-- A part is divided. -/
theorem carve (h : Laid owned (r :: parts)) (hsubs : subs.Pairwise Apart)
    (hin : ∀ s ∈ subs, s.Within r) : Laid owned (subs ++ parts) where
  apart := by
    obtain ⟨hr, hparts⟩ := List.pairwise_cons.mp h.apart
    refine List.pairwise_append.mpr ⟨hsubs, hparts, fun s hs t ht => ?_⟩
    exact (hr t ht).mono (hin s hs) (.refl t)
  inside := by
    intro s hs
    rcases List.mem_append.mp hs with hs | hs
    · obtain ⟨o, ho, hro⟩ := h.inside r List.mem_cons_self
      exact ⟨o, ho, (hin s hs).trans hro⟩
    · exact h.inside s (List.mem_cons_of_mem r hs)

/-- A fresh region is obtained, and handed out whole. -/
theorem grow (h : Laid owned parts) (hfresh : ∀ o ∈ owned, r.Apart o) :
    Laid (r :: owned) (r :: parts) where
  apart := by
    refine List.pairwise_cons.mpr ⟨fun s hs => ?_, h.apart⟩
    obtain ⟨o, ho, hso⟩ := h.inside s hs
    exact (hfresh o ho).mono (.refl r) hso
  inside := by
    intro s hs
    rcases List.mem_cons.mp hs with rfl | hs
    · exact ⟨s, List.mem_cons_self, .refl s⟩
    · obtain ⟨o, ho, hso⟩ := h.inside s hs
      exact ⟨o, List.mem_cons_of_mem r ho, hso⟩

/-- A part and any of the others. -/
theorem apart_of_mem (h : Laid owned (r :: parts)) {s : Region} (hs : s ∈ parts) : r.Apart s :=
  (List.pairwise_cons.mp h.apart).1 s hs

end Laid

/-- An element of the list in the middle comes to the front. -/
theorem perm_cons_middle {α : Type*} {l₁ l₂ l₂' l₃ : List α} {a : α} (h : l₂.Perm (a :: l₂')) :
    (l₁ ++ l₂ ++ l₃).Perm (a :: (l₁ ++ l₂' ++ l₃)) := by
  calc
    l₁ ++ l₂ ++ l₃ = l₁ ++ (l₂ ++ l₃) := List.append_assoc l₁ l₂ l₃
    List.Perm _ (l₁ ++ (a :: l₂' ++ l₃)) := (h.append_right l₃).append_left l₁
    List.Perm _ (a :: (l₁ ++ (l₂' ++ l₃))) := List.perm_middle
    _ = a :: (l₁ ++ l₂' ++ l₃) := by rw [List.append_assoc]

end Lib
