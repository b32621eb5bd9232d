import Mathlib.Data.List.Basic
import Mathlib.Data.Set.Insert
import Mathlib.Logic.Function.Basic

/-!
# Singly linked lists

`Seg next p l q` reads a linked list out of the field `next`: from the pointer `p`, following
`next` visits the addresses `l` in this order and arrives at `q`. A whole list is a segment that
arrives at `none`.

* `seg_append`: segments compose;
* `Seg.congr`: a segment depends on `next` at its own addresses only;
* `Seg.push`: linking an address in at the front;
* `Seg.insert_after`, `Seg.remove_after`: linking an address in behind another one, and out again;
* `Closed.mem_of_seg`: a list does not leave a set of addresses that no link leads out of.
-/

namespace Lib

variable {κ : Type*}

/-- Following `next` from `p` visits `l` and arrives at `q`. -/
def Seg (next : κ → Option κ) : Option κ → List κ → Option κ → Prop
  | p, [], q => p = q
  | p, a :: l, q => p = some a ∧ Seg next (next a) l q

section Seg

variable {next next' : κ → Option κ} {p q : Option κ} {a b : κ} {l l₁ l₂ : List κ}

@[simp] theorem seg_nil : Seg next p [] q ↔ p = q := Iff.rfl

@[simp] theorem seg_cons : Seg next p (a :: l) q ↔ p = some a ∧ Seg next (next a) l q := Iff.rfl

/-- Segments compose at the pointer where the first one arrives. -/
theorem seg_append : Seg next p (l₁ ++ l₂) q ↔ ∃ r, Seg next p l₁ r ∧ Seg next r l₂ q := by
  induction l₁ generalizing p with
  | nil =>
    constructor
    · intro h
      exact ⟨p, rfl, h⟩
    · rintro ⟨r, rfl, h⟩
      exact h
  | cons a l₁ ih =>
    rw [List.cons_append, seg_cons, ih]
    constructor
    · rintro ⟨hp, r, h₁, h₂⟩
      exact ⟨r, ⟨hp, h₁⟩, h₂⟩
    · rintro ⟨r, ⟨hp, h₁⟩, h₂⟩
      exact ⟨hp, r, h₁, h₂⟩

/-- A segment looks at `next` only where it passes. -/
theorem Seg.congr (h : Seg next p l q) (hnext : ∀ a ∈ l, next' a = next a) : Seg next' p l q := by
  induction l generalizing p with
  | nil => exact h
  | cons a l ih =>
    obtain ⟨hp, hrest⟩ := h
    refine ⟨hp, ih ?_ fun b hb => hnext b (List.mem_cons_of_mem a hb)⟩
    rwa [hnext a List.mem_cons_self]

/-- The addresses of a list are determined by where it starts. -/
theorem Seg.unique (h : Seg next p l₁ none) (h' : Seg next p l₂ none) : l₁ = l₂ := by
  induction l₁ generalizing p l₂ with
  | nil =>
    obtain rfl : p = none := h
    cases l₂ with
    | nil => rfl
    | cons b l₂ => cases h'.1
  | cons a l₁ ih =>
    obtain ⟨rfl, hrest⟩ := h
    cases l₂ with
    | nil => cases h'
    | cons b l₂ =>
      obtain ⟨hab, hrest'⟩ := h'
      obtain rfl := Option.some.inj hab
      rw [ih hrest hrest']

/-- A list that comes to an end has no address twice. -/
theorem Seg.nodup (h : Seg next p l none) : l.Nodup := by
  induction l generalizing p with
  | nil => exact List.nodup_nil
  | cons a l ih =>
    refine List.nodup_cons.mpr ⟨fun ha => ?_, ih h.2⟩
    obtain ⟨l₁, l₂, rfl⟩ := List.append_of_mem ha
    -- the part from the second `a` on would be the whole list
    obtain ⟨r, -, rfl, hrest⟩ := seg_append.mp h.2
    have heq := congrArg List.length (h.2.unique hrest)
    rw [List.length_append, List.length_cons] at heq
    omega

/-- An address of a list without repetitions links to another one of the list. -/
theorem Seg.next_mem (h : Seg next p l none) (hnodup : l.Nodup) (ha : a ∈ l)
    (hb : next a = some b) : b ∈ l ∧ b ≠ a := by
  obtain ⟨l₁, l₂, rfl⟩ := List.append_of_mem ha
  obtain ⟨r, -, rfl, hrest⟩ := seg_append.mp h
  rw [hb] at hrest
  cases l₂ with
  | nil => cases hrest
  | cons c l₂ =>
    obtain rfl := Option.some.inj hrest.1
    refine ⟨by simp, ?_⟩
    rintro rfl
    exact (List.nodup_cons.mp (List.nodup_append.mp hnodup).2.1).1 List.mem_cons_self

/-- Linking `a` in at the front. -/
theorem Seg.push [DecidableEq κ] (h : Seg next p l q) (ha : a ∉ l) :
    Seg (Function.update next a p) (some a) (a :: l) q := by
  refine ⟨rfl, ?_⟩
  rw [Function.update_self]
  exact h.congr fun b hb => Function.update_of_ne (ne_of_mem_of_not_mem hb ha) _ _

/-- Linking `a` in behind `b`. -/
theorem Seg.insert_after (h : Seg next p (l₁ ++ b :: l₂) q) (ha : next' a = next b)
    (hb : next' b = some a) (hsame : ∀ c ∈ l₁ ++ l₂, next' c = next c) :
    Seg next' p (l₁ ++ b :: a :: l₂) q := by
  obtain ⟨r, h₁, rfl, h₂⟩ := seg_append.mp h
  refine seg_append.mpr ⟨some b, h₁.congr fun c hc => hsame c (List.mem_append_left _ hc), rfl, ?_⟩
  refine ⟨hb, ?_⟩
  rw [ha]
  exact h₂.congr fun c hc => hsame c (List.mem_append_right _ hc)

/-- Linking the address behind `b` out. -/
theorem Seg.remove_after (h : Seg next p (l₁ ++ b :: a :: l₂) q) (hb : next' b = next a)
    (hsame : ∀ c ∈ l₁ ++ l₂, next' c = next c) : Seg next' p (l₁ ++ b :: l₂) q := by
  obtain ⟨r, h₁, rfl, -, h₂⟩ := seg_append.mp h
  refine seg_append.mpr ⟨some b, h₁.congr fun c hc => hsame c (List.mem_append_left _ hc), rfl, ?_⟩
  rw [hb]
  exact h₂.congr fun c hc => hsame c (List.mem_append_right _ hc)

end Seg

/-! ### Closed sets of addresses -/

/-- No link leads out of `S`. -/
def Closed (next : κ → Option κ) (S : Set κ) : Prop := ∀ a ∈ S, ∀ b ∈ next a, b ∈ S

section Closed

variable {next next' : κ → Option κ} {S : Set κ} {p q : Option κ} {a : κ} {l : List κ}

/-- A segment that starts in a closed set stays in it. -/
theorem Closed.mem_of_seg (h : Closed next S) (hp : ∀ a ∈ p, a ∈ S) (hl : Seg next p l q)
    (ha : a ∈ l) : a ∈ S := by
  induction l generalizing p with
  | nil => cases ha
  | cons b l ih =>
    obtain ⟨rfl, hl⟩ := hl
    have hb : b ∈ S := hp b rfl
    cases ha with
    | head => exact hb
    | tail _ ha => exact ih (h b hb) hl ha

/-- A link may be set to an address of the set. -/
theorem Closed.update [DecidableEq κ] (h : Closed next S) (hp : ∀ b ∈ p, b ∈ S) (a : κ) :
    Closed (Function.update next a p) S := by
  intro c hc b hb
  by_cases hca : c = a
  · subst hca
    rw [Function.update_self] at hb
    exact hp b hb
  · rw [Function.update_of_ne hca] at hb
    exact h c hc b hb

theorem Closed.congr (h : Closed next S) (hnext : ∀ a ∈ S, next' a = next a) : Closed next' S := by
  intro a ha b hb
  rw [hnext a ha] at hb
  exact h a ha b hb

/-- An address that links to nothing may join. -/
theorem Closed.insert (h : Closed next S) (ha : next a = none) : Closed next (insert a S) := by
  intro c hc b hb
  rcases Set.mem_insert_iff.mp hc with rfl | hc
  · rw [ha] at hb
    cases hb
  · exact Set.mem_insert_of_mem _ (h c hc b hb)

end Closed

end Lib
