import Mathlib.Data.List.Nodup
import Mathlib.Data.List.Pairwise
import Mathlib.Logic.Function.Basic
import Mathlib.Order.Basic

/-!
# Lists in the order of time

A list of objects that are put at its back with the time of the day as their stamp. As time goes on, the
list is sorted by the stamps (`Aged`), so that a scan from the front may stop at the first object that is
too young: those behind it are no older (`Aged.head_le`).

* `Aged.push`, `Aged.erase`, `Aged.toBack`: the operations that keep such a list;
* `Aged.other`: the stamp of an object that is not on the list may change;
* `Aged.later`: time goes on.
-/

namespace Lib

variable {α : Type*} [DecidableEq α]

/-- `l` holds the objects in `on`, once each and sorted by `stamp`, and no stamp is later than `now`. -/
structure Aged (on : α → Prop) (stamp : α → ℕ) (now : ℕ) (l : List α) : Prop where
  nodup : l.Nodup
  mem_iff : ∀ a, a ∈ l ↔ on a
  sorted : l.Pairwise fun a b => stamp a ≤ stamp b
  past : ∀ a ∈ l, stamp a ≤ now

namespace Aged

variable {on : α → Prop} {stamp : α → ℕ} {now now' : ℕ} {l : List α} {a : α}

/-- The stamps of the objects on the list stay when another one changes. -/
theorem update_of_mem {b : α} {k : ℕ} (hb : b ∈ l) (ha : a ∉ l) :
    Function.update stamp a k b = stamp b :=
  Function.update_of_ne (ne_of_mem_of_not_mem hb ha) _ _

omit [DecidableEq α] in
theorem later (h : Aged on stamp now l) (hle : now ≤ now') : Aged on stamp now' l :=
  ⟨h.nodup, h.mem_iff, h.sorted, fun a ha => Nat.le_trans (h.past a ha) hle⟩

/-- A sorted list stays sorted when objects that are not on it get other stamps. -/
theorem pairwise_update {k : ℕ} (h : l.Pairwise fun a b => stamp a ≤ stamp b) (ha : a ∉ l) :
    l.Pairwise fun b c => Function.update stamp a k b ≤ Function.update stamp a k c := by
  refine h.imp_of_mem fun {b c} hb hc hle => ?_
  rw [update_of_mem hb ha, update_of_mem hc ha]
  exact hle

/-- An object that is not on the list gets another stamp. -/
theorem other (h : Aged on stamp now l) (ha : ¬on a) (k : ℕ) :
    Aged on (Function.update stamp a k) now l := by
  have hmem : a ∉ l := mt (h.mem_iff a).mp ha
  refine ⟨h.nodup, h.mem_iff, pairwise_update h.sorted hmem, fun b hb => ?_⟩
  rw [update_of_mem hb hmem]
  exact h.past b hb

theorem erase (h : Aged on stamp now l) (a : α) (k : ℕ) :
    Aged (Function.update on a False) (Function.update stamp a k) now (l.erase a) := by
  have hmem : a ∉ l.erase a := h.nodup.not_mem_erase
  refine ⟨h.nodup.erase a, fun b => ?_, ?_, fun b hb => ?_⟩
  · by_cases hb : b = a
    · subst hb
      rw [Function.update_self]
      exact iff_of_false hmem id
    · rw [Function.update_of_ne hb, List.mem_erase_of_ne hb]
      exact h.mem_iff b
  · exact pairwise_update (h.sorted.sublist List.erase_sublist) hmem
  · rw [update_of_mem hb hmem]
    exact h.past b (List.mem_of_mem_erase hb)

/-- An object gets the present time and goes to the back. -/
theorem push (h : Aged on stamp now l) (ha : ¬on a) :
    Aged (Function.update on a True) (Function.update stamp a now) now (l ++ [a]) := by
  have hmem : a ∉ l := mt (h.mem_iff a).mp ha
  refine ⟨?_, fun b => ?_, ?_, fun b hb => ?_⟩
  · exact h.nodup.append (List.nodup_singleton a) (List.disjoint_singleton.mpr hmem)
  · rw [List.mem_append, List.mem_singleton, h.mem_iff]
    by_cases hb : b = a
    · subst hb
      simp
    · rw [Function.update_of_ne hb]
      exact or_iff_left hb
  · -- no stamp on the list is later than the present
    refine List.pairwise_append.mpr ⟨pairwise_update h.sorted hmem, List.pairwise_singleton _ _, ?_⟩
    intro b hb c hc
    rw [List.mem_singleton.mp hc, Function.update_self, update_of_mem hb hmem]
    exact h.past b hb
  · rcases List.mem_append.mp hb with hb | hb
    · rw [update_of_mem hb hmem]
      exact h.past b hb
    · obtain rfl := List.mem_singleton.mp hb
      exact Nat.le_of_eq (Function.update_self _ _ _)

/-- An object on the list gets the present time and goes to the back. -/
theorem toBack (h : Aged on stamp now l) (ha : on a) :
    Aged on (Function.update stamp a now) now (l.erase a ++ [a]) := by
  have hback := (h.erase a 0).push (a := a) (by rw [Function.update_self]; exact id)
  have hon : Function.update on a True = on := Function.update_eq_self_iff.mpr (eq_true ha).symm
  rwa [Function.update_idem, Function.update_idem, hon] at hback

omit [DecidableEq α] in
/-- Behind an object on the list there are none with an earlier stamp. -/
theorem head_le {kept rest : List α} (h : Aged on stamp now (kept ++ a :: rest)) :
    ∀ b ∈ a :: rest, stamp a ≤ stamp b := by
  intro b hb
  rcases List.mem_cons.mp hb with rfl | hb
  · exact Nat.le_refl _
  · exact List.rel_of_pairwise_cons (List.pairwise_append.mp h.sorted).2.1 hb

end Aged

end Lib
