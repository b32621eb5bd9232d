import Mathlib.Order.Lattice
import Mathlib.Data.List.Perm.Basic

/-!
# Folding an operation that picks one of its arguments

An operation that returns the one of its arguments whose key comes first, on a set where it is known to do so,
need not be a minimum elsewhere, nor associative. Folded over a list that stays in the set it finds the element
whose key comes first, whatever the order of the list (`Picks.foldl`, `Picks.foldr`, `FirstBy.perm`).
-/

namespace Lib

variable {α κ : Type*} [LinearOrder κ] {key : α → κ} {op : α → α → α} {s : Set α} {l l' : List α} {x y : α}

/-- `x` is an element of the list, and no key comes before its own. -/
structure FirstBy (key : α → κ) (l : List α) (x : α) : Prop where
  mem : x ∈ l
  le : ∀ y ∈ l, key x ≤ key y

/-- On the set, the operation returns an argument whose key does not come after the other's. -/
def Picks (key : α → κ) (op : α → α → α) (s : Set α) : Prop :=
  ∀ a ∈ s, ∀ b ∈ s, (op a b = a ∧ key a ≤ key b) ∨ (op a b = b ∧ key b ≤ key a)

theorem FirstBy.perm (h : FirstBy key l x) (hp : l.Perm l') : FirstBy key l' x :=
  ⟨hp.mem_iff.mp h.mem, fun y hy => h.le y (hp.mem_iff.mpr hy)⟩

/-- The first of a list stands for the list. -/
theorem FirstBy.append (h : FirstBy key l y) (h' : FirstBy key (y :: l') x) : FirstBy key (l ++ l') x where
  mem := by
    rcases List.mem_cons.mp h'.mem with rfl | hx
    · exact List.mem_append_left l' h.mem
    · exact List.mem_append_right l hx
  le := by
    intro z hz
    rcases List.mem_append.mp hz with hz | hz
    · exact (h'.le y List.mem_cons_self).trans (h.le z hz)
    · exact h'.le z (List.mem_cons_of_mem y hz)

namespace Picks

variable (h : Picks key op s)
include h

theorem firstBy (hx : x ∈ s) (hy : y ∈ s) : FirstBy key [x, y] (op x y) := by
  obtain ⟨hop, hle⟩ | ⟨hop, hle⟩ := h x hx y hy <;> rw [hop]
  · exact ⟨List.mem_cons_self, by simpa using hle⟩
  · exact ⟨List.mem_cons_of_mem x List.mem_cons_self, by simpa using hle⟩

theorem mem (hx : x ∈ s) (hy : y ∈ s) : op x y ∈ s := by
  obtain ⟨hop, -⟩ | ⟨hop, -⟩ := h x hx y hy <;> rw [hop]
  · exact hx
  · exact hy

theorem foldl (hx : x ∈ s) (hl : ∀ y ∈ l, y ∈ s) : FirstBy key (x :: l) (l.foldl op x) := by
  induction l generalizing x with
  | nil => exact ⟨List.mem_cons_self, by simp⟩
  | cons y l ih =>
    have hy := hl y List.mem_cons_self
    have hrest := ih (h.mem hx hy) fun z hz => hl z (List.mem_cons_of_mem y hz)
    exact (h.firstBy hx hy).append hrest

theorem foldr (hx : x ∈ s) (hl : ∀ y ∈ l, y ∈ s) : FirstBy key (x :: l) (l.foldr op x) := by
  induction l with
  | nil => exact ⟨List.mem_cons_self, by simp⟩
  | cons y l ih =>
    have hrest := ih fun z hz => hl z (List.mem_cons_of_mem y hz)
    have hmem : l.foldr op x ∈ s := by
      rcases List.mem_cons.mp hrest.mem with heq | hin
      · rwa [heq]
      · exact hl _ (List.mem_cons_of_mem y hin)
    have hlast := (h.firstBy (hl y List.mem_cons_self) hmem).perm (List.Perm.swap _ _ [])
    exact (hrest.append hlast).perm (List.perm_append_singleton y l |>.cons x)

end Picks

end Lib
