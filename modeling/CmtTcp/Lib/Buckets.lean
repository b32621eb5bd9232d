import CmtTcp.Lib.ListSeg
import Mathlib.Data.List.Perm.Subperm

/-!
# Hash tables of linked lists

A table has a list for each bucket, linked through the entries themselves. `Chains first next bucket present`
says that the list of every bucket holds those of the entries `present` that belong there.

* `Chains.push`: linking an entry in at the front of its bucket;
* `Seg.search`: what a search loop along a linked list returns;
* `Chains.search`: what it returns when it goes along a bucket.
-/

namespace Lib

variable {κ ι ε : Type*}

/-- The list of each bucket holds the entries `present` of that bucket. -/
def Chains (first : ι → Option κ) (next : κ → Option κ) (bucket : κ → ι) (present : List κ) : Prop :=
  ∀ i, ∃ l, Seg next (first i) l none ∧ ∀ a, a ∈ l ↔ a ∈ present ∧ bucket a = i

section Chains

variable {first : ι → Option κ} {next : κ → Option κ} {bucket : κ → ι} {present l : List κ} {a : κ}
  {i : ι} {test : κ → Bool} {loop : ℕ → Option κ → ε} {found : Option κ → ε} {n : ℕ} {p : Option κ}

/-- An empty table. -/
theorem Chains.nil : Chains (fun _ : ι => none) next bucket [] :=
  fun _ => ⟨[], rfl, fun a => by simp⟩

/-- Only the buckets of the entries count. -/
theorem Chains.congr {bucket' : κ → ι} (h : Chains first next bucket present)
    (heq : ∀ a ∈ present, bucket' a = bucket a) : Chains first next bucket' present := by
  intro i
  obtain ⟨l, hseg, hmem⟩ := h i
  refine ⟨l, hseg, fun a => (hmem a).trans (and_congr_right fun ha => ?_)⟩
  rw [heq a ha]

/-- Linking a new entry in at the front of its bucket. -/
theorem Chains.push [DecidableEq ι] [DecidableEq κ] (h : Chains first next bucket present)
    (ha : a ∉ present) :
    Chains (Function.update first (bucket a) (some a))
      (Function.update next a (first (bucket a))) bucket (a :: present) := by
  intro i
  obtain ⟨l, hseg, hmem⟩ := h i
  have hal : a ∉ l := fun hl => ha ((hmem a).mp hl).1
  by_cases hi : bucket a = i
  · subst hi
    refine ⟨a :: l, ?_, fun b => ?_⟩
    · rw [Function.update_self]
      exact hseg.push hal
    · rw [List.mem_cons, List.mem_cons, hmem, or_and_right]
      refine or_congr (iff_self_and.mpr ?_) Iff.rfl
      rintro rfl
      rfl
  · rw [Function.update_of_ne (Ne.symm hi)]
    refine ⟨l, hseg.congr fun b hb => ?_, fun b => ?_⟩
    · exact Function.update_of_ne (ne_of_mem_of_not_mem hb hal) _ _
    · rw [List.mem_cons, hmem, or_and_right]
      refine (or_iff_right ?_).symm
      rintro ⟨rfl, hb⟩
      exact hi hb

/-- A loop that stops at the end of a list or at the first entry that passes a test, and otherwise goes on
with the link of the entry, returns the first entry of the list that passes. -/
theorem Seg.search (h : Seg next p l none) (hn : l.length < n)
    (hend : ∀ n, loop (n + 1) none = found none)
    (hstep : ∀ n a, loop (n + 1) (some a) = if test a then found (some a) else loop n (next a)) :
    loop n p = found (l.find? test) := by
  induction l generalizing p n with
  | nil =>
    obtain ⟨n, rfl⟩ : ∃ k, n = k + 1 := ⟨n - 1, by omega⟩
    obtain rfl : p = none := h
    exact hend n
  | cons a l ih =>
    obtain ⟨n, rfl⟩ : ∃ k, n = k + 1 := ⟨n - 1, by omega⟩
    obtain ⟨rfl, hrest⟩ := h
    rw [List.length_cons] at hn
    rw [hstep]
    by_cases ha : test a
    · rw [if_pos ha, List.find?_cons_of_pos ha]
    · rw [if_neg ha, List.find?_cons_of_neg ha]
      exact ih hrest (by omega)

/-- When one entry at most passes a test, it is what a search finds. -/
theorem find?_eq_some_iff_of_unique (huniq : ∀ a ∈ l, ∀ b ∈ l, test a → test b → a = b) :
    l.find? test = some a ↔ a ∈ l ∧ test a := by
  constructor
  · intro h
    exact ⟨List.mem_of_find?_eq_some h, List.find?_some h⟩
  · rintro ⟨ha, htest⟩
    obtain ⟨b, hb⟩ : ∃ b, l.find? test = some b := by
      apply Option.isSome_iff_exists.mp
      rw [List.find?_isSome]
      exact ⟨a, ha, htest⟩
    rw [hb, huniq b (List.mem_of_find?_eq_some hb) a ha (List.find?_some hb) htest]

/-- The search in a bucket that every entry that passes belongs to, when there is one at most. -/
theorem Chains.search (h : Chains first next bucket present) (hn : present.length < n)
    (hbucket : ∀ a ∈ present, test a → bucket a = i)
    (huniq : ∀ a ∈ present, ∀ b ∈ present, test a → test b → a = b)
    (hend : ∀ n, loop (n + 1) none = found none)
    (hstep : ∀ n a, loop (n + 1) (some a) = if test a then found (some a) else loop n (next a)) :
    loop n (first i) = found (present.find? test) := by
  obtain ⟨l, hseg, hmem⟩ := h i
  have hlen : l.length ≤ present.length :=
    (hseg.nodup.subperm fun a ha => ((hmem a).mp ha).1).length_le
  rw [hseg.search (by omega) hend hstep]
  congr 1
  apply Option.ext
  intro a
  have huniq' : ∀ a ∈ l, ∀ b ∈ l, test a → test b → a = b := by
    intro a ha b hb
    exact huniq a ((hmem a).mp ha).1 b ((hmem b).mp hb).1
  rw [find?_eq_some_iff_of_unique huniq, find?_eq_some_iff_of_unique huniq', hmem]
  constructor
  · rintro ⟨⟨ha, -⟩, htest⟩
    exact ⟨ha, htest⟩
  · rintro ⟨ha, htest⟩
    exact ⟨⟨ha, hbucket a ha htest⟩, htest⟩

end Chains

end Lib
