import Mathlib.Algebra.BigOperators.Group.Finset.Piecewise
import Mathlib.Algebra.BigOperators.Group.Finset.Basic
import Mathlib.Algebra.Order.BigOperators.Group.Finset
import Mathlib.Data.List.Nodup
import Mathlib.Data.List.Count

/-!
# Objects on lists

A family of lists, and for every object a mark that names the list it is on, if any. `Placed mark lists`
says that the lists hold what the marks say, so an object is on at most one of them, and there once
(`Placed.sum_count_le`).

* `Placed.empty`: empty lists and no marks;
* `Placed.remove`, `Placed.append`, `Placed.toBack`: taking an object off its list, putting an unmarked one
  at the end of a list, and sending an object to the end of the list it is on;
* `sum_length_erase`, `sum_length_append`: what this does to the number of objects on the lists.
-/

namespace Lib

variable {α ι : Type*} [DecidableEq α] [DecidableEq ι]

/-- The lists hold the objects that are marked with their index, each once. -/
structure Placed (mark : α → Option ι) (lists : ι → List α) : Prop where
  nodup : ∀ i, (lists i).Nodup
  mem_iff : ∀ i a, a ∈ lists i ↔ mark a = some i

namespace Placed

variable {mark : α → Option ι} {lists : ι → List α} {a : α} {i : ι}

omit [DecidableEq α] [DecidableEq ι] in
/-- No object is on a list. -/
theorem empty (hmark : ∀ a, mark a = none) (hlists : ∀ i, lists i = []) : Placed mark lists where
  nodup := by
    intro i
    rw [hlists]
    exact List.nodup_nil
  mem_iff := by
    intro i a
    rw [hlists, hmark]
    exact iff_of_false List.not_mem_nil (Option.some_ne_none i ∘ Eq.symm)

/-- An object is taken off the list it is on. -/
theorem remove (h : Placed mark lists) (ha : mark a = some i) :
    Placed (Function.update mark a none) (Function.update lists i ((lists i).erase a)) where
  nodup := by
    intro j
    by_cases hj : j = i
    · subst hj
      rw [Function.update_self]
      exact (h.nodup j).erase a
    · rw [Function.update_of_ne hj]
      exact h.nodup j
  mem_iff := by
    intro j b
    by_cases hb : b = a
    · -- the object itself is on no list any more
      subst hb
      rw [Function.update_self]
      refine iff_of_false (fun hmem => ?_) (by simp)
      by_cases hj : j = i
      · subst hj
        rw [Function.update_self] at hmem
        exact (h.nodup j).not_mem_erase hmem
      · rw [Function.update_of_ne hj, h.mem_iff, ha] at hmem
        exact hj (Option.some.inj hmem).symm
    · rw [Function.update_of_ne hb, ← h.mem_iff]
      by_cases hj : j = i
      · subst hj
        rw [Function.update_self, List.mem_erase_of_ne hb]
      · rw [Function.update_of_ne hj]

/-- An object that is on no list is put at the end of one. -/
theorem append (h : Placed mark lists) (ha : mark a = none) (i : ι) :
    Placed (Function.update mark a (some i)) (Function.update lists i (lists i ++ [a])) where
  nodup := by
    intro j
    by_cases hj : j = i
    · subst hj
      rw [Function.update_self]
      refine (h.nodup j).append (List.nodup_singleton a) ?_
      rw [List.disjoint_singleton, h.mem_iff, ha]
      exact Option.some_ne_none j ∘ Eq.symm
    · rw [Function.update_of_ne hj]
      exact h.nodup j
  mem_iff := by
    intro j b
    by_cases hj : j = i
    · subst hj
      rw [Function.update_self, List.mem_append, List.mem_singleton, h.mem_iff]
      by_cases hb : b = a
      · -- the object itself is marked with this list now
        subst hb
        simp
      · rw [Function.update_of_ne hb]
        simp [hb]
    · rw [Function.update_of_ne hj, h.mem_iff]
      by_cases hb : b = a
      · subst hb
        rw [Function.update_self, ha]
        simp [Ne.symm hj]
      · rw [Function.update_of_ne hb]

/-- An object is sent to the end of the list it is on. -/
theorem toBack (h : Placed mark lists) (ha : mark a = some i) :
    Placed mark (Function.update lists i ((lists i).erase a ++ [a])) := by
  have hback := (h.remove ha).append (Function.update_self a none mark) i
  rwa [Function.update_idem, Function.update_idem, Function.update_self,
    Function.update_eq_self_iff.mpr ha.symm] at hback

/-- An object is on the list it is marked with, once, and on no other. -/
theorem count_eq (h : Placed mark lists) (i : ι) (a : α) :
    (lists i).count a = if mark a = some i then 1 else 0 := by
  by_cases ha : mark a = some i
  · rw [if_pos ha]
    exact List.count_eq_one_of_mem (h.nodup i) ((h.mem_iff i a).mpr ha)
  · rw [if_neg ha]
    exact List.count_eq_zero_of_not_mem (mt (h.mem_iff i a).mp ha)

/-- An object is linked at most once in all the lists. -/
theorem sum_count_le (h : Placed mark lists) (s : Finset ι) (a : α) :
    ∑ i ∈ s, (lists i).count a ≤ 1 := by
  simp only [h.count_eq]
  cases ha : mark a with
  | none => simp
  | some i =>
    simp only [Option.some.injEq, Finset.sum_ite_eq]
    split <;> omega

omit [DecidableEq ι] in
/-- The lengths of the lists add up to the number of the objects on them. -/
theorem card_biUnion (h : Placed mark lists) (s : Finset ι) :
    (s.biUnion fun i => (lists i).toFinset).card = ∑ i ∈ s, (lists i).length := by
  rw [Finset.card_biUnion]
  · exact Finset.sum_congr rfl fun i _ => List.toFinset_card_of_nodup (h.nodup i)
  · -- an object on two lists has both marks
    intro i _ j _ hne
    refine Finset.disjoint_left.mpr fun a hi hj => ?_
    rw [List.mem_toFinset, h.mem_iff] at hi hj
    exact hne (Option.some.inj (hi.symm.trans hj))

end Placed

/-! ### How many objects there are -/

section Length

variable {s : Finset ι} {a : α} {i : ι}

omit [DecidableEq α] in
theorem sum_length_update (lists : ι → List α) (hi : i ∈ s) (l : List α) :
    (∑ j ∈ s, (Function.update lists i l j).length) + (lists i).length =
      ∑ j ∈ s, (lists j).length + l.length := by
  have hrest : ∀ j ∈ s \ {i}, (Function.update lists i l j).length = (lists j).length := by
    intro j hj
    rw [Function.update_of_ne]
    simpa using (Finset.mem_sdiff.mp hj).2
  rw [← Finset.sum_sdiff (Finset.singleton_subset_iff.mpr hi),
    ← Finset.sum_sdiff (Finset.singleton_subset_iff.mpr hi), Finset.sum_congr rfl hrest]
  simp only [Finset.sum_singleton, Function.update_self]
  omega

theorem sum_length_erase (lists : ι → List α) (hi : i ∈ s) (ha : a ∈ lists i) :
    (∑ j ∈ s, (Function.update lists i ((lists i).erase a) j).length) + 1 =
      ∑ j ∈ s, (lists j).length := by
  have hsum := sum_length_update lists hi ((lists i).erase a)
  have hpos := List.length_pos_of_mem ha
  rw [List.length_erase_of_mem ha] at hsum
  omega

omit [DecidableEq α] in
theorem sum_length_append (lists : ι → List α) (hi : i ∈ s) (a : α) :
    ∑ j ∈ s, (Function.update lists i (lists i ++ [a]) j).length =
      ∑ j ∈ s, (lists j).length + 1 := by
  have hsum := sum_length_update lists hi (lists i ++ [a])
  rw [List.length_append, List.length_singleton] at hsum
  omega

end Length

end Lib
