import Mathlib.Data.List.Nodup
import Mathlib.Data.List.Pairwise
import Mathlib.Order.Basic

/-!
# Lists in the order of insertion

Objects are added and removed, over and over. `insertedAt a ops` is the time at which `a` was first added
since it was last removed, the time being the number of operations before.

`InOrder ops l` says that the list `l` holds the objects that are in, by this time. It is kept by putting
an object that is not on the list at its end, by leaving one where it is that is on it, and by erasing
(`InOrder.step`).
-/

namespace Lib

variable {α : Type*} [DecidableEq α]

/-- An operation on a set of objects. -/
inductive SetOp (α : Type*)
  | add (a : α)
  | remove (a : α)

/-- The operation on a list: an object that is not on it is put at the end. -/
def SetOp.onList (l : List α) : SetOp α → List α
  | add a => if a ∈ l then l else l ++ [a]
  | remove a => l.erase a

/-- When `a` was first added since it was last removed, if it is in; the latest operation comes first. -/
def insertedAt (a : α) : List (SetOp α) → Option ℕ
  | [] => none
  | .add b :: ops => if b = a then some ((insertedAt a ops).getD ops.length) else insertedAt a ops
  | .remove b :: ops => if b = a then none else insertedAt a ops

/-- `l` lists the objects that are in, in the order of their insertion. -/
structure InOrder (ops : List (SetOp α)) (l : List α) : Prop where
  mem_iff : ∀ a, a ∈ l ↔ ∃ t, insertedAt a ops = some t
  sorted : l.Pairwise fun a b => ∀ t u,
    insertedAt a ops = some t → insertedAt b ops = some u → t < u

section InOrder

variable {ops : List (SetOp α)} {l : List α} {a b : α} {t : ℕ}

theorem SetOp.onList_add (l : List α) (a : α) :
    (SetOp.add a).onList l = if a ∈ l then l else l ++ [a] := rfl

theorem SetOp.onList_remove (l : List α) (a : α) : (SetOp.remove a).onList l = l.erase a := rfl

/-- The time of an insertion is in the past. -/
theorem insertedAt_lt (h : insertedAt a ops = some t) : t < ops.length := by
  induction ops generalizing t with
  | nil => cases h
  | cons op ops ih =>
    rw [List.length_cons]
    cases op with
    | add b =>
      unfold insertedAt at h
      split at h
      · obtain rfl := Option.some.inj h
        cases hin : insertedAt a ops with
        | none => exact Nat.lt_succ_self _
        | some u => exact Nat.lt_succ_of_lt (ih hin)
      · exact Nat.lt_succ_of_lt (ih h)
    | remove b =>
      unfold insertedAt at h
      split at h
      · cases h
      · exact Nat.lt_succ_of_lt (ih h)

/-- An operation on another object leaves the time alone. -/
theorem insertedAt_add_of_ne (h : b ≠ a) : insertedAt a (.add b :: ops) = insertedAt a ops :=
  if_neg h

theorem insertedAt_remove_of_ne (h : b ≠ a) :
    insertedAt a (.remove b :: ops) = insertedAt a ops :=
  if_neg h

/-- To add an object that is in changes no time. -/
theorem insertedAt_add_of_some (h : insertedAt b ops = some t) (a : α) :
    insertedAt a (.add b :: ops) = insertedAt a ops := by
  by_cases hba : b = a
  · subst hba
    rw [h]
    change (if b = b then _ else _) = _
    rw [if_pos rfl, h, Option.getD_some]
  · exact insertedAt_add_of_ne hba

theorem insertedAt_add_self (h : insertedAt a ops = none) :
    insertedAt a (.add a :: ops) = some ops.length := by
  change (if a = a then _ else _) = _
  rw [if_pos rfl, h, Option.getD_none]

theorem insertedAt_remove_self : insertedAt a (.remove a :: ops) = none :=
  if_pos rfl

namespace InOrder

/-- No object is on the list twice. -/
theorem nodup (h : InOrder ops l) : l.Nodup := by
  refine h.sorted.imp_of_mem fun {a b} ha _ hlt hab => ?_
  subst hab
  obtain ⟨t, ht⟩ := (h.mem_iff a).mp ha
  exact Nat.lt_irrefl t (hlt t t ht ht)

theorem nil : InOrder [] ([] : List α) where
  mem_iff _ := iff_of_false List.not_mem_nil nofun
  sorted := .nil

/-- An object that is not on the list is put at its end. -/
theorem add (h : InOrder ops l) (ha : a ∉ l) : InOrder (.add a :: ops) (l ++ [a]) := by
  have hout : insertedAt a ops = none :=
    Option.eq_none_iff_forall_ne_some.mpr fun t ht => ha ((h.mem_iff a).mpr ⟨t, ht⟩)
  have hsame : ∀ b ∈ l, insertedAt b (.add a :: ops) = insertedAt b ops := by
    intro b hb
    exact insertedAt_add_of_ne (ne_of_mem_of_not_mem hb ha).symm
  refine ⟨fun b => ?_, List.pairwise_append.mpr ⟨?_, List.pairwise_singleton _ _, ?_⟩⟩
  · rw [List.mem_append, List.mem_singleton]
    by_cases hb : b = a
    · subst hb
      exact iff_of_true (.inr rfl) ⟨_, insertedAt_add_self hout⟩
    · rw [insertedAt_add_of_ne (Ne.symm hb), h.mem_iff]
      exact or_iff_left hb
  · refine h.sorted.imp_of_mem fun {b c} hb hc hlt => ?_
    rw [hsame b hb, hsame c hc]
    exact hlt
  · -- what is on the list was inserted before now
    intro b hb c hc t u ht hu
    obtain rfl := List.mem_singleton.mp hc
    rw [insertedAt_add_self hout] at hu
    obtain rfl := Option.some.inj hu
    rw [hsame b hb] at ht
    exact insertedAt_lt ht

/-- To add an object that is on the list changes nothing. -/
theorem addAgain (h : InOrder ops l) (ha : a ∈ l) : InOrder (.add a :: ops) l := by
  obtain ⟨t, ht⟩ := (h.mem_iff a).mp ha
  refine ⟨fun b => ?_, ?_⟩
  · rw [insertedAt_add_of_some ht]
    exact h.mem_iff b
  · simp only [insertedAt_add_of_some ht]
    exact h.sorted

/-- An object is erased, on the list or not. -/
theorem remove (h : InOrder ops l) (a : α) : InOrder (.remove a :: ops) (l.erase a) := by
  refine ⟨fun b => ?_, ?_⟩
  · by_cases hb : b = a
    · subst hb
      rw [insertedAt_remove_self]
      exact iff_of_false h.nodup.not_mem_erase nofun
    · rw [List.mem_erase_of_ne hb, insertedAt_remove_of_ne (Ne.symm hb), h.mem_iff]
  · refine (h.sorted.sublist List.erase_sublist).imp_of_mem fun {b c} hb hc hlt => ?_
    have hne : ∀ d ∈ l.erase a, a ≠ d := by
      rintro d hd rfl
      exact h.nodup.not_mem_erase hd
    rw [insertedAt_remove_of_ne (hne b hb), insertedAt_remove_of_ne (hne c hc)]
    exact hlt

/-- Every operation keeps the list in order. -/
theorem step (h : InOrder ops l) (op : SetOp α) : InOrder (op :: ops) (op.onList l) := by
  cases op with
  | add a =>
    rw [SetOp.onList_add]
    split
    · next ha => exact h.addAgain ha
    · next ha => exact h.add ha
  | remove a => exact h.remove a

end InOrder

end InOrder

end Lib
