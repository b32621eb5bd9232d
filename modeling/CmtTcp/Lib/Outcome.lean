import Mathlib.Init

/-!
# Outcomes of a fallible computation

`Outcome r E Q`: the computation `r` either returns a value that satisfies `Q`, or stops with an
error that satisfies `E`. One such statement about a function says what it returns and how it can
fail; the rules below put the statements about the parts together along `>>=` and `if`.

`FailsIff r S`: the computation fails exactly if `S` holds. Here too the condition of the whole is put
together from those of the parts.
-/

namespace Lib

variable {ε : Type*} {α β : Type}

/-- `r` returns a value in `Q` or fails with an error in `E`. -/
def Outcome (r : Except ε α) (E : ε → Prop) (Q : α → Prop) : Prop :=
  match r with
  | .ok a => Q a
  | .error e => E e

namespace Outcome

variable {r : Except ε α} {f : α → Except ε β} {E E' : ε → Prop} {Q Q' : α → Prop} {R : β → Prop}
  {a : α} {e : ε}

@[simp] theorem ok_iff : Outcome (.ok a : Except ε α) E Q ↔ Q a := Iff.rfl

@[simp] theorem error_iff : Outcome (.error e : Except ε α) E Q ↔ E e := Iff.rfl

/-- What an outcome says about a computation that returned. -/
theorem of_ok (h : Outcome r E Q) (hr : r = .ok a) : Q a := by
  rwa [hr] at h

/-- What an outcome says about a computation that failed. -/
theorem of_error (h : Outcome r E Q) (hr : r = .error e) : E e := by
  rwa [hr] at h

theorem mono (h : Outcome r E Q) (hE : ∀ e, E e → E' e) (hQ : ∀ a, Q a → Q' a) :
    Outcome r E' Q' := by
  cases r with
  | ok a => exact hQ a h
  | error e => exact hE e h

/-- The rule for one computation after another. -/
theorem bind (h : Outcome r E Q) (hf : ∀ a, Q a → Outcome (f a) E R) : Outcome (r >>= f) E R := by
  cases r with
  | ok a => exact hf a h
  | error e => exact h

/-- The same rule, when the rest depends on what the first computation returned. -/
theorem bind_of_ok (h : Outcome r E Q) (hf : ∀ a, r = .ok a → Q a → Outcome (f a) E R) :
    Outcome (r >>= f) E R := by
  cases r with
  | ok a => exact hf a rfl h
  | error e => exact h

/-- The rule for a choice. -/
theorem ite {p : Prop} [Decidable p] {r' : Except ε α} (h : p → Outcome r E Q)
    (h' : ¬p → Outcome r' E Q) : Outcome (if p then r else r') E Q := by
  by_cases hp : p
  · rw [if_pos hp]
    exact h hp
  · rw [if_neg hp]
    exact h' hp

end Outcome

/-- `r` fails exactly if `S` holds. -/
def FailsIff (r : Except ε α) (S : Prop) : Prop := Outcome r (fun _ => S) fun _ => ¬S

namespace FailsIff

variable {r : Except ε α} {f : α → Except ε β} {S T : Prop} {a : α} {e : ε}

theorem ok (h : ¬S) : FailsIff (.ok a : Except ε α) S := h

theorem error (h : S) : FailsIff (.error e : Except ε α) S := h

/-- The computation returns exactly if its condition fails. -/
theorem returns_iff (h : FailsIff r S) : (∃ a, r = .ok a) ↔ ¬S := by
  cases r with
  | ok a => exact iff_of_true ⟨a, rfl⟩ h
  | error e => exact iff_of_false (fun ⟨_, hr⟩ => nomatch hr) fun hno => hno h

theorem of_returns_iff (h : (∃ a, r = .ok a) ↔ ¬S) : FailsIff r S := by
  cases r with
  | ok a => exact h.mp ⟨a, rfl⟩
  | error e => exact Classical.not_not.mp fun hS => nomatch h.mpr hS

theorem of_ok (h : FailsIff r S) (hr : r = .ok a) : ¬S := h.returns_iff.mp ⟨a, hr⟩

/-- One computation after another fails where the first does, or else the second. -/
theorem bind (h : FailsIff r S) (hf : ∀ a, r = .ok a → FailsIff (f a) T) :
    FailsIff (r >>= f) (S ∨ T) := by
  cases r with
  | ok a => exact Outcome.mono (hf a rfl) (fun _ => .inr) fun _ hT => not_or.mpr ⟨h, hT⟩
  | error e => exact .inl h

/-- What is done with the result does not fail. -/
theorem map {g : α → β} (h : FailsIff r S) : FailsIff (r >>= fun a => .ok (g a)) S := by
  cases r with
  | ok a => exact h
  | error e => exact h

/-- A computation, and another one after it that does not fail. -/
theorem before (h : FailsIff r S) (hf : ∀ a, r = .ok a → ∃ b, f a = .ok b) : FailsIff (r >>= f) S := by
  cases r with
  | ok a =>
    obtain ⟨b, hb⟩ := hf a rfl
    exact of_returns_iff (iff_of_true ⟨b, hb⟩ h)
  | error e => exact h

/-- A computation that does not fail, and another one after it. -/
theorem after (h : ∃ a, r = .ok a) (hf : ∀ a, r = .ok a → FailsIff (f a) T) : FailsIff (r >>= f) T := by
  obtain ⟨a, rfl⟩ := h
  exact hf a rfl

/-- The rule for a choice: the condition of each branch under what leads to it. -/
theorem ite {p : Prop} [Decidable p] {r' : Except ε α} (h : p → FailsIff r S)
    (h' : ¬p → FailsIff r' S) : FailsIff (if p then r else r') S :=
  Outcome.ite h h'

end FailsIff

end Lib
