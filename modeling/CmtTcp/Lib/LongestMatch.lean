import Mathlib.Order.Lattice
import Mathlib.Data.List.Basic

/-!
# The longest match of a table

A table is searched for the entries that match; of these one of greatest length is to be found, wherever
in the table it stands. `keepLongest` is the loop that keeps the longest match it has come across and takes
the next one only if it is longer: of the entries longer than it starts with, it finds one of the longest
(`keepLongest_of_exists`).
-/

namespace Lib

variable {α κ : Type*} [LinearOrder κ] {p q : α → Prop} {len : α → κ} {l l' : List α} {x y : α}

/-- `x` matches, and no match of the table is longer. -/
structure LongestMatch (p : α → Prop) (len : α → κ) (l : List α) (x : α) : Prop where
  mem : x ∈ l
  hit : p x
  longest : ∀ y ∈ l, p y → len y ≤ len x

namespace LongestMatch

/-- The order of the table does not matter. -/
theorem congr_mem (h : LongestMatch p len l x) (hmem : ∀ y, y ∈ l ↔ y ∈ l') : LongestMatch p len l' x :=
  ⟨(hmem x).mp h.mem, h.hit, fun y hy => h.longest y ((hmem y).mpr hy)⟩

/-- Matches that are shorter than another one do not count. -/
theorem of_shorter (h : LongestMatch q len l x) (hq : ∀ y, q y → p y)
    (hp : ∀ y ∈ l, p y → ¬q y → len y ≤ len x) : LongestMatch p len l x := by
  refine ⟨h.mem, hq x h.hit, fun y hy hpy => ?_⟩
  by_cases hqy : q y
  · exact h.longest y hy hqy
  · exact hp y hy hpy hqy

end LongestMatch

/-- The loop: `best` is the longest match so far, and `lo` the length that another one has to exceed. -/
def keepLongest (p : α → Prop) [DecidablePred p] (len : α → κ) : Option α → κ → List α → Option α
  | best, _, [] => best
  | best, lo, x :: l =>
    if p x ∧ lo < len x then keepLongest p len (some x) (len x) l else keepLongest p len best lo l

section Loop

variable [DecidablePred p] {best : Option α} {lo : κ}

/-- Without a longer match the loop ends with what it had. -/
theorem keepLongest_of_forall (h : ∀ x ∈ l, p x → len x ≤ lo) : keepLongest p len best lo l = best := by
  induction l with
  | nil => rfl
  | cons x l ih =>
    unfold keepLongest
    rw [if_neg fun hx => absurd hx.2 (not_lt.mpr (h x List.mem_cons_self hx.1))]
    exact ih fun y hy => h y (List.mem_cons_of_mem x hy)

/-- With a longer match it ends with one of the longest. -/
theorem keepLongest_of_exists (h : ∃ x ∈ l, p x ∧ lo < len x) :
    ∃ x, keepLongest p len best lo l = some x ∧ LongestMatch p len l x := by
  induction l generalizing best lo with
  | nil =>
    obtain ⟨x, hx, -⟩ := h
    cases hx
  | cons y l ih =>
    unfold keepLongest
    by_cases hy : p y ∧ lo < len y
    · rw [if_pos hy]
      by_cases hlonger : ∃ x ∈ l, p x ∧ len y < len x
      · obtain ⟨x, hx, hbest⟩ := ih hlonger
        obtain ⟨z, hz, hpz, hyz⟩ := hlonger
        refine ⟨x, hx, List.mem_cons_of_mem y hbest.mem, hbest.hit, fun w hw hpw => ?_⟩
        rcases List.mem_cons.mp hw with rfl | hw
        · exact hyz.le.trans (hbest.longest z hz hpz)
        · exact hbest.longest w hw hpw
      · -- nothing behind `y` is longer
        push Not at hlonger
        refine ⟨y, keepLongest_of_forall hlonger, List.mem_cons_self, hy.1, fun w hw hpw => ?_⟩
        rcases List.mem_cons.mp hw with rfl | hw
        · exact le_rfl
        · exact hlonger w hw hpw
    · rw [if_neg hy]
      obtain ⟨x, hx, hpx, hlo⟩ := h
      have hmem : x ∈ l := (List.mem_cons.mp hx).resolve_left fun heq => hy (heq ▸ ⟨hpx, hlo⟩)
      obtain ⟨z, hz, hbest⟩ := @ih best lo ⟨x, hmem, hpx, hlo⟩
      refine ⟨z, hz, List.mem_cons_of_mem y hbest.mem, hbest.hit, fun w hw hpw => ?_⟩
      rcases List.mem_cons.mp hw with rfl | hw
      · -- an entry that is passed is no longer than the one that was found
        have hle : len w ≤ lo := not_lt.mp fun hlt => hy ⟨hpw, hlt⟩
        exact hle.trans (hlo.le.trans (hbest.longest x hmem hpx))
      · exact hbest.longest w hw hpw

end Loop

end Lib
