import Mathlib.Init

/-!
# Last calls

A computation `f` that is given a function `g` calls it last when it does not call it at all, or when its
value is what `ret` makes of one value of `g`: nothing is done afterwards that depends on anything else. `g` is
any function, so the two cases say what `f` does with it, and not what some `g` hides.

* `CallsLast.const`, `CallsLast.last`: the two ways to end;
* `CallsLast.bind`, `CallsLast.ite`: what comes before does not matter;
* `CallsLast.map`: what becomes of the value is a part of `ret`;
* `not_callsLast`: a computation that may still fail after the call.
-/

namespace Lib

variable {ε : Type*} {α β γ δ : Type}

/-- Whatever `g` is, `f g` does not depend on it, or it returns what `ret` makes of one value of `g`. -/
def CallsLast (ret : β → γ) (f : (α → β) → Except ε γ) : Prop :=
  (∀ g g', f g = f g') ∨ ∃ a, ∀ g, f g = .ok (ret (g a))

namespace CallsLast

variable {ret : β → γ} {f : (α → β) → Except ε γ}

/-- The function is not called. -/
theorem const (r : Except ε γ) : CallsLast ret fun _ : α → β => r :=
  .inl fun _ _ => rfl

/-- The call is all that is left to do. -/
theorem last (a : α) : CallsLast ret fun g : α → β => (.ok (ret (g a)) : Except ε γ) :=
  .inr ⟨a, fun _ => rfl⟩

/-- The rule for what comes before the call. -/
theorem bind {r : Except ε δ} {f : δ → (α → β) → Except ε γ}
    (h : ∀ d, r = .ok d → CallsLast ret (f d)) : CallsLast ret fun g => r >>= fun d => f d g := by
  cases r with
  | error e => exact const _
  | ok d => exact h d rfl

/-- The rule for a choice. -/
theorem ite {p : Prop} [Decidable p] {f' : (α → β) → Except ε γ} (h : p → CallsLast ret f)
    (h' : ¬p → CallsLast ret f') : CallsLast ret fun g => if p then f g else f' g := by
  by_cases hp : p
  · simp only [if_pos hp]
    exact h hp
  · simp only [if_neg hp]
    exact h' hp

/-- The rule for what is made of the value. -/
theorem map (h : CallsLast ret f) (after : γ → δ) :
    CallsLast (fun b => after (ret b)) fun g => f g >>= fun c => .ok (after c) := by
  rcases h with h | ⟨a, h⟩
  · exact .inl fun g g' => congrArg (fun r => r >>= fun c => .ok (after c)) (h g g')
  · exact .inr ⟨a, fun g => congrArg (fun r => r >>= fun c => .ok (after c)) (h g)⟩

end CallsLast

/-- A computation that fails for one function, and returns for another one, goes on after the call. -/
theorem not_callsLast {ret : β → γ} {f : (α → β) → Except ε γ} {g g' : α → β} {e : ε} {c : γ}
    (h : f g = .error e) (h' : f g' = .ok c) : ¬CallsLast ret f := by
  rintro (hsame | ⟨a, hlast⟩)
  · cases h.symm.trans ((hsame g g').trans h')
  · cases h.symm.trans (hlast g)

end Lib
