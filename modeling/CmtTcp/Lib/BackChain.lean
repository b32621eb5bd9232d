import Mathlib.Data.List.Nodup
import Mathlib.Logic.Function.Basic

/-!
# Chains with back-links

Doubly linked lists in which an element points back at the link that points to it: a link lies in a
`Place`, which is the head of a list or an element, and `back` of an element is a place. A head also
records the place of the last link.

`Queue m h xs` says that the list on head `h` is `xs` and that all these fields are right.

* `Inserted.queue`, `Removed.queue`: changing the fields around a place puts an element in there, or
  takes one out;
* `Unchanged.queue`: what such a change leaves alone, other lists among them;
* `Queue.walk`: following the links visits the elements of the list.
-/

namespace Lib

variable {η κ : Type*}

/-- Where a link lies. -/
inductive Place (η κ : Type*)
  | head (h : η)
  | next (a : κ)
deriving DecidableEq

/-- The fields of the heads and of the elements. -/
structure Links (η κ : Type*) where
  link : Place η κ → Option κ
  back : κ → Place η κ
  last : η → Place η κ

/-- The place that is reached from `p` past the elements `l`. -/
def Place.past (p : Place η κ) : List κ → Place η κ
  | [] => p
  | a :: l => (Place.next a).past l

/-- The places whose links lead past `l`, the one that is reached not among them. -/
def Place.path (p : Place η κ) : List κ → List (Place η κ)
  | [] => []
  | a :: l => p :: (Place.next a).path l

/-- From `p` the links lead past `l`, and the back-links say so. -/
def Chain (m : Links η κ) : Place η κ → List κ → Prop
  | _, [] => True
  | p, a :: l => m.link p = some a ∧ m.back a = p ∧ Chain m (.next a) l

/-- The list on `h` is `xs`. -/
structure Queue (m : Links η κ) (h : η) (xs : List κ) : Prop where
  chain : Chain m (.head h) xs
  last : m.last h = (Place.head h).past xs
  ended : m.link ((Place.head h).past xs) = none
  nodup : xs.Nodup

/-! ### Chains -/

section Chain

variable {m m' : Links η κ} {p q : Place η κ} {h : η} {a b : κ} {l l₁ l₂ : List κ}

theorem Place.past_append : p.past (l₁ ++ l₂) = (p.past l₁).past l₂ := by
  induction l₁ generalizing p with
  | nil => rfl
  | cons a l₁ ih => exact ih

/-- The place past a list is the one past its last part. -/
theorem Place.past_append_cons (p : Place η κ) (l₁ : List κ) (a : κ) (l₂ : List κ) :
    p.past (l₁ ++ a :: l₂) = (Place.next a).past l₂ := by
  rw [Place.past_append]
  rfl

theorem chain_append : Chain m p (l₁ ++ l₂) ↔ Chain m p l₁ ∧ Chain m (p.past l₁) l₂ := by
  induction l₁ generalizing p with
  | nil => exact (and_iff_right trivial).symm
  | cons a l₁ ih =>
    change _ ∧ _ ∧ Chain m (.next a) (l₁ ++ l₂) ↔ (_ ∧ _ ∧ Chain m (.next a) l₁) ∧ _
    rw [ih, and_assoc, and_assoc]
    rfl

/-- The places of a chain and the one it reaches are its start and its elements. -/
theorem Place.path_past (p : Place η κ) (l : List κ) :
    p.path l ++ [p.past l] = p :: l.map .next := by
  induction l generalizing p with
  | nil => rfl
  | cons a l ih => exact congrArg (p :: ·) (ih _)

theorem Place.mem_path (hq : q ∈ p.path l) : q = p ∨ ∃ a ∈ l, q = .next a := by
  have hmem : q ∈ p :: l.map .next := by
    rw [← Place.path_past]
    exact List.mem_append_left _ hq
  rcases List.mem_cons.mp hmem with rfl | hmem
  · exact .inl rfl
  · obtain ⟨a, ha, rfl⟩ := List.mem_map.mp hmem
    exact .inr ⟨a, ha, rfl⟩

theorem Place.past_eq (p : Place η κ) (l : List κ) : p.past l = p ∨ ∃ a ∈ l, p.past l = .next a := by
  have hmem : p.past l ∈ p :: l.map .next := by
    rw [← Place.path_past]
    exact List.mem_append_right _ List.mem_cons_self
  rcases List.mem_cons.mp hmem with h | hmem
  · exact .inl h
  · obtain ⟨a, ha, h⟩ := List.mem_map.mp hmem
    exact .inr ⟨a, ha, h.symm⟩

/-- The links on the way are not the one that is reached. -/
theorem Place.past_not_mem_path (hnodup : l.Nodup) (hp : ∀ a ∈ l, p ≠ .next a) :
    p.past l ∉ p.path l := by
  have hmap : (l.map (@Place.next η κ)).Nodup :=
    hnodup.map fun a b hab => Place.next.inj hab
  have hall : (p.path l ++ [p.past l]).Nodup := by
    rw [Place.path_past]
    refine List.nodup_cons.mpr ⟨?_, hmap⟩
    intro hmem
    obtain ⟨a, ha, h⟩ := List.mem_map.mp hmem
    exact hp a ha h.symm
  intro hmem
  exact (List.nodup_append.mp hall).2.2 _ hmem _ List.mem_cons_self rfl

/-- A chain looks at the links on its way and at the back-links of its elements. -/
theorem Chain.congr (hc : Chain m p l) (hlink : ∀ q ∈ p.path l, m'.link q = m.link q)
    (hback : ∀ a ∈ l, m'.back a = m.back a) : Chain m' p l := by
  induction l generalizing p with
  | nil => trivial
  | cons a l ih =>
    obtain ⟨hl, hb, hrest⟩ := hc
    refine ⟨?_, ?_, ih hrest (fun q hq => hlink q (List.mem_cons_of_mem _ hq))
      fun b hb => hback b (List.mem_cons_of_mem _ hb)⟩
    · rw [hlink p List.mem_cons_self, hl]
    · rw [hback a List.mem_cons_self, hb]

/-- What the link behind an initial part of a list points to. -/
theorem Queue.link_past (hq : Queue m h (l₁ ++ l₂)) :
    m.link ((Place.head h).past l₁) = l₂.head? := by
  cases l₂ with
  | nil =>
    have hend := hq.ended
    rwa [List.append_nil] at hend
  | cons a l₂ => exact (chain_append.mp hq.chain).2.1

/-- What the link of an element points to. -/
theorem Queue.link_next (hq : Queue m h (l₁ ++ a :: l₂)) : m.link (.next a) = l₂.head? := by
  have hq' : Queue m h ((l₁ ++ [a]) ++ l₂) := by rwa [List.append_assoc]
  have hlink := hq'.link_past
  rwa [Place.past_append] at hlink

/-- Where an element stands. -/
theorem Queue.split (hq : Queue m h l) (hmem : a ∈ l) : ∃ l₁ l₂, l = l₁ ++ a :: l₂ ∧ a ∉ l₁ := by
  obtain ⟨l₁, l₂, rfl⟩ := List.append_of_mem hmem
  refine ⟨l₁, l₂, rfl, fun hmem => ?_⟩
  exact (List.nodup_append.mp hq.nodup).2.2 a hmem a List.mem_cons_self rfl

/-- The back-link of an element is the place past what is before it. -/
theorem Queue.back_eq (hq : Queue m h (l₁ ++ a :: l₂)) : m.back a = (Place.head h).past l₁ :=
  (chain_append.mp hq.chain).2.2.1

end Chain

/-! ### Changes -/

/-- `m'` is `m` after `e` was put in at place `p` of the list on `h`. -/
structure Inserted (m m' : Links η κ) (h : η) (p : Place η κ) (e : κ) : Prop where
  link_new : m'.link (.next e) = m.link p
  link_at : m'.link p = some e
  link_other : ∀ q, q ≠ p → q ≠ .next e → m'.link q = m.link q
  back_new : m'.back e = p
  back_next : ∀ a, m.link p = some a → m'.back a = .next e
  back_other : ∀ a, a ≠ e → m.link p ≠ some a → m'.back a = m.back a
  last_end : m.link p = none → m'.last h = .next e
  last_same : m.link p ≠ none → m'.last h = m.last h
  last_other : ∀ h', h' ≠ h → m'.last h' = m.last h'

/-- `m'` is `m` after `e`, which the link at `p` points to, was taken out of the list on `h`. -/
structure Removed (m m' : Links η κ) (h : η) (p : Place η κ) (e : κ) : Prop where
  link_at : m'.link p = m.link (.next e)
  link_other : ∀ q, q ≠ p → m'.link q = m.link q
  back_next : ∀ a, m.link (.next e) = some a → m'.back a = p
  back_other : ∀ a, m.link (.next e) ≠ some a → m'.back a = m.back a
  last_end : m.link (.next e) = none → m'.last h = p
  last_same : m.link (.next e) ≠ none → m'.last h = m.last h
  last_other : ∀ h', h' ≠ h → m'.last h' = m.last h'

/-- Between `m` and `m'` only the head `h` and the elements `xs` change. -/
structure Unchanged (m m' : Links η κ) (h : η) (xs : List κ) : Prop where
  link : ∀ a, a ∉ xs → m'.link (.next a) = m.link (.next a)
  back : ∀ a, a ∉ xs → m'.back a = m.back a
  first : ∀ h', h' ≠ h → m'.link (.head h') = m.link (.head h')
  last : ∀ h', h' ≠ h → m'.last h' = m.last h'

section Changes

variable {m m' : Links η κ} {h h' : η} {e : κ} {l₁ l₂ xs ys : List κ}

/-- The place past an initial part of a list is not that of a later element. -/
theorem Queue.past_ne (hq : Queue m h (l₁ ++ l₂)) {a : κ} (ha : a ∈ l₂) :
    (Place.head h).past l₁ ≠ .next a := by
  intro heq
  rcases Place.past_eq (.head h) l₁ with hp | ⟨b, hb, hp⟩
  · rw [hp] at heq
    cases heq
  · rw [hp] at heq
    obtain rfl := Place.next.inj heq
    exact (List.nodup_append.mp hq.nodup).2.2 b hb b ha rfl

/-- The places up to the one past an initial part are not that of an element outside of it. -/
theorem Place.head_path_ne {a : κ} {l : List κ} {q : Place η κ} (ha : a ∉ l)
    (hq : q ∈ (Place.head h).path l) : q ≠ .next a := by
  rintro rfl
  rcases Place.mem_path hq with hq | ⟨b, hb, hq⟩
  · cases hq
  · exact ha (Place.next.inj hq ▸ hb)

/-- The first part of a list stays a chain when only the link past it changes. -/
theorem Queue.chain_left (hq : Queue m h (l₁ ++ l₂))
    (hlink : ∀ q ∈ (Place.head h).path l₁, q ≠ (Place.head h).past l₁ → m'.link q = m.link q)
    (hback : ∀ a ∈ l₁, m'.back a = m.back a) : Chain m' (.head h) l₁ := by
  refine (chain_append.mp hq.chain).1.congr (fun q hmem => hlink q hmem ?_) hback
  rintro rfl
  exact Place.past_not_mem_path (List.nodup_append.mp hq.nodup).1 (fun a _ heq => by cases heq) hmem

/-- Putting an element in. -/
theorem Inserted.queue (hins : Inserted m m' h ((Place.head h).past l₁) e)
    (hq : Queue m h (l₁ ++ l₂)) (he : e ∉ l₁ ++ l₂) : Queue m' h (l₁ ++ e :: l₂) := by
  obtain ⟨he₁, he₂⟩ := not_or.mp fun hmem => he (List.mem_append.mpr hmem)
  have hnext := hq.link_past
  -- before the place nothing changes
  have hleft : Chain m' (.head h) l₁ := by
    apply hq.chain_left
    · intro q hmem hne
      exact hins.link_other q hne (Place.head_path_ne he₁ hmem)
    · intro a ha
      apply hins.back_other a (fun hae => he₁ (hae ▸ ha))
      rw [hnext]
      intro hhead
      have ha₂ : a ∈ l₂ := List.mem_of_mem_head? hhead
      exact (List.nodup_append.mp hq.nodup).2.2 a ha a ha₂ rfl
  have hnodup : (l₁ ++ e :: l₂).Nodup := by
    rw [List.nodup_middle]
    exact List.nodup_cons.mpr ⟨he, hq.nodup⟩
  cases l₂ with
  | nil =>
    refine ⟨chain_append.mpr ⟨hleft, hins.link_at, hins.back_new, trivial⟩, ?_, ?_, hnodup⟩
    · rw [hins.last_end hnext, Place.past_append]
      rfl
    · rw [Place.past_append]
      change m'.link (.next e) = none
      rw [hins.link_new, hnext]
      rfl
  | cons a l₂ =>
    have hrest := (chain_append.mp hq.chain).2.2.2
    obtain ⟨-, hnodup₂, hdisj⟩ := List.nodup_append.mp hq.nodup
    -- behind the place only the back-link of the next element changes
    have hlink : ∀ q, q = .next a ∨ (∃ b ∈ l₂, q = .next b) → m'.link q = m.link q := by
      rintro q (rfl | ⟨b, hb, rfl⟩)
      · apply hins.link_other
        · exact (hq.past_ne List.mem_cons_self).symm
        · rintro heq
          exact he₂ (Place.next.inj heq ▸ List.mem_cons_self)
      · apply hins.link_other
        · exact (hq.past_ne (List.mem_cons_of_mem a hb)).symm
        · rintro heq
          exact he₂ (Place.next.inj heq ▸ List.mem_cons_of_mem a hb)
    have hright : Chain m' (.next a) l₂ := by
      refine hrest.congr (fun q hmem => hlink q (Place.mem_path hmem)) fun b hb => ?_
      apply hins.back_other b (fun hbe => he₂ (hbe ▸ List.mem_cons_of_mem a hb))
      rw [hnext]
      intro hhead
      exact (List.nodup_cons.mp hnodup₂).1 (Option.some.inj hhead ▸ hb)
    refine ⟨chain_append.mpr ⟨hleft, hins.link_at, hins.back_new, ?_, hins.back_next a hnext, hright⟩,
      ?_, ?_, hnodup⟩
    · rw [hins.link_new, hnext]
      rfl
    · rw [hins.last_same (by rw [hnext]; exact Option.some_ne_none a), hq.last,
        Place.past_append_cons, Place.past_append_cons]
      rfl
    · have hend := hq.ended
      rw [Place.past_append_cons] at hend ⊢
      change m'.link ((Place.next a).past l₂) = none
      rw [hlink _ (Place.past_eq (.next a) l₂), hend]

/-- Taking an element out. -/
theorem Removed.queue (hrem : Removed m m' h ((Place.head h).past l₁) e)
    (hq : Queue m h (l₁ ++ e :: l₂)) : Queue m' h (l₁ ++ l₂) := by
  have hnext := hq.link_next
  obtain ⟨hnodup₁, hnodup₂, hdisj⟩ := List.nodup_append.mp hq.nodup
  have hnodup : (l₁ ++ l₂).Nodup := by
    have h := hq.nodup
    rw [List.nodup_middle] at h
    exact (List.nodup_cons.mp h).2
  have hleft : Chain m' (.head h) l₁ := by
    apply hq.chain_left
    · intro q _ hne
      exact hrem.link_other q hne
    · intro a ha
      apply hrem.back_other
      rw [hnext]
      intro hhead
      exact hdisj a ha a (List.mem_cons_of_mem e (List.mem_of_mem_head? hhead)) rfl
  cases l₂ with
  | nil =>
    rw [List.append_nil] at hnodup ⊢
    exact ⟨hleft, hrem.last_end hnext, by rw [hrem.link_at, hnext]; rfl, hnodup⟩
  | cons a l₂ =>
    have hrest := (chain_append.mp hq.chain).2.2.2.2.2
    -- the links behind the element stay
    have hlink : ∀ q, q = .next a ∨ (∃ b ∈ l₂, q = .next b) → m'.link q = m.link q := by
      rintro q (rfl | ⟨b, hb, rfl⟩)
      · exact hrem.link_other _
          (hq.past_ne (List.mem_cons_of_mem e List.mem_cons_self)).symm
      · exact hrem.link_other _
          (hq.past_ne (List.mem_cons_of_mem e (List.mem_cons_of_mem a hb))).symm
    have hright : Chain m' (.next a) l₂ := by
      refine hrest.congr (fun q hmem => hlink q (Place.mem_path hmem)) fun b hb => ?_
      apply hrem.back_other
      rw [hnext]
      intro hhead
      have hab : a ∉ l₂ := (List.nodup_cons.mp (List.nodup_cons.mp hnodup₂).2).1
      exact hab (Option.some.inj hhead ▸ hb)
    refine ⟨chain_append.mpr ⟨hleft, ?_, hrem.back_next a hnext, hright⟩, ?_, ?_, hnodup⟩
    · rw [hrem.link_at, hnext]
      rfl
    · rw [hrem.last_same (by rw [hnext]; exact Option.some_ne_none a), hq.last,
        Place.past_append_cons, Place.past_append_cons]
      rfl
    · have hend := hq.ended
      rw [Place.past_append_cons] at hend ⊢
      change m.link ((Place.next a).past l₂) = none at hend
      rw [hlink _ (Place.past_eq (.next a) l₂), hend]

/-- A place in a list is not that of an element outside of it, nor another head. -/
theorem Queue.past_outside (l : List κ) {q : Place η κ}
    (hq : (∃ a, a ∉ l ∧ q = .next a) ∨ ∃ h', h' ≠ h ∧ q = .head h') : q ≠ (Place.head h).past l := by
  rintro rfl
  rcases Place.past_eq (.head h) l with hp | ⟨b, hb, hp⟩
  · rw [hp] at hq
    rcases hq with ⟨a, -, hq⟩ | ⟨h', hne, hq⟩
    · cases hq
    · exact hne (Place.head.inj hq).symm
  · rw [hp] at hq
    rcases hq with ⟨a, ha, hq⟩ | ⟨h', -, hq⟩
    · exact ha (Place.next.inj hq ▸ hb)
    · cases hq

theorem Inserted.unchanged (hins : Inserted m m' h ((Place.head h).past l₁) e)
    (hq : Queue m h (l₁ ++ l₂)) : Unchanged m m' h (l₁ ++ e :: l₂) := by
  have hnot : ∀ a, a ∉ l₁ ++ e :: l₂ → a ∉ l₁ ∧ a ≠ e ∧ a ∉ l₂ := by
    intro a ha
    simp only [List.mem_append, List.mem_cons, not_or] at ha
    exact ha
  refine ⟨?link, ?back, ?first, hins.last_other⟩
  case link =>
    intro a ha
    obtain ⟨ha₁, hae, -⟩ := hnot a ha
    exact hins.link_other _ (Queue.past_outside l₁ (.inl ⟨a, ha₁, rfl⟩))
      fun heq => hae (Place.next.inj heq)
  case back =>
    intro a ha
    obtain ⟨-, hae, ha₂⟩ := hnot a ha
    apply hins.back_other a hae
    rw [hq.link_past]
    exact fun hhead => ha₂ (List.mem_of_mem_head? hhead)
  case first =>
    intro h' hne
    exact hins.link_other _ (Queue.past_outside l₁ (.inr ⟨h', hne, rfl⟩)) nofun

theorem Removed.unchanged (hrem : Removed m m' h ((Place.head h).past l₁) e)
    (hq : Queue m h (l₁ ++ e :: l₂)) : Unchanged m m' h (l₁ ++ l₂) := by
  have hnext := hq.link_next
  refine ⟨?link, ?back, ?first, hrem.last_other⟩
  case link =>
    intro a ha
    have ha₁ : a ∉ l₁ := fun hmem => ha (List.mem_append_left _ hmem)
    exact hrem.link_other _ (Queue.past_outside l₁ (.inl ⟨a, ha₁, rfl⟩))
  case back =>
    intro a ha
    apply hrem.back_other
    rw [hnext]
    exact fun hhead => ha (List.mem_append_right _ (List.mem_of_mem_head? hhead))
  case first =>
    intro h' hne
    exact hrem.link_other _ (Queue.past_outside l₁ (.inr ⟨h', hne, rfl⟩))

/-- A list on another head, with other elements, is as it was. -/
theorem Unchanged.queue (hun : Unchanged m m' h xs) (hne : h' ≠ h) (hdisj : ∀ a ∈ ys, a ∉ xs)
    (hq : Queue m h' ys) : Queue m' h' ys := by
  have hlink : ∀ q, q = .head h' ∨ (∃ a ∈ ys, q = .next a) → m'.link q = m.link q := by
    rintro q (rfl | ⟨a, ha, rfl⟩)
    · exact hun.first h' hne
    · exact hun.link a (hdisj a ha)
  refine ⟨?_, ?_, ?_, hq.nodup⟩
  · exact hq.chain.congr (fun q hmem => hlink q (Place.mem_path hmem))
      fun a ha => hun.back a (hdisj a ha)
  · rw [hun.last h' hne, hq.last]
  · rw [hlink _ (Place.past_eq (.head h') ys), hq.ended]

end Changes

/-! ### Traversal -/

/-- Follow the links from a place for at most `n` of them: the elements that are met, or `none` when
there is still one to follow. -/
def walk (m : Links η κ) : ℕ → Place η κ → Option (List κ)
  | 0, _ => none
  | n + 1, p =>
    match m.link p with
    | none => some []
    | some a => (walk m n (.next a)).map (a :: ·)

theorem Chain.walk {m : Links η κ} {p : Place η κ} {l : List κ} {n : ℕ} (hc : Chain m p l)
    (hend : m.link (p.past l) = none) (hn : l.length < n) : walk m n p = some l := by
  induction l generalizing p n with
  | nil =>
    obtain ⟨n, rfl⟩ : ∃ k, n = k + 1 := ⟨n - 1, by omega⟩
    change m.link p = none at hend
    unfold Lib.walk
    rw [hend]
  | cons a l ih =>
    obtain ⟨n, rfl⟩ : ∃ k, n = k + 1 := ⟨n - 1, by omega⟩
    obtain ⟨hlink, -, hrest⟩ := hc
    rw [List.length_cons] at hn
    unfold Lib.walk
    rw [hlink]
    dsimp only
    rw [ih hrest hend (by omega)]
    rfl

/-- Following the links of a list visits its elements, and ends. -/
theorem Queue.walk {m : Links η κ} {h : η} {xs : List κ} {n : ℕ} (hq : Queue m h xs)
    (hn : xs.length < n) : walk m n (.head h) = some xs :=
  hq.chain.walk hq.ended hn

end Lib
