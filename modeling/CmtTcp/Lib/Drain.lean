import Mathlib.Data.Set.Card
import Mathlib.Logic.Relation
import Mathlib.Order.CompletePartialOrder

/-!
# Emptying a finite set of pending items

A system in which some items are pending. When from every state with a pending item the steps lead to one
in which fewer items are pending, they lead to one in which none is (`exists_drained`).
-/

namespace Lib

open Relation (ReflTransGen)

variable {σ ι : Type*} {step : σ → σ → Prop}

/-- **Emptying.** From a state of `P` in which finitely many items are pending, the steps lead to a state
of `P` in which none is. -/
theorem exists_drained {P : σ → Prop} {pending : σ → Set ι}
    (hfin : ∀ s, P s → (pending s).Finite)
    (hless : ∀ s, P s → (pending s).Nonempty →
      ∃ s', ReflTransGen step s s' ∧ P s' ∧ pending s' ⊂ pending s) {s : σ} (hs : P s) :
    ∃ s', ReflTransGen step s s' ∧ P s' ∧ pending s' = ∅ := by
  -- the induction is on how many items are pending
  induction hn : (pending s).ncard using Nat.strong_induction_on generalizing s with
  | _ n ih =>
    rcases (pending s).eq_empty_or_nonempty with hnone | hsome
    · exact ⟨s, .refl, hs, hnone⟩
    obtain ⟨s₁, hsteps₁, hs₁, hsub⟩ := hless s hs hsome
    have hlt : (pending s₁).ncard < n := hn ▸ Set.ncard_lt_ncard hsub (hfin s hs)
    obtain ⟨s₂, hsteps₂, hs₂, hnone⟩ := ih _ hlt hs₁ rfl
    exact ⟨s₂, hsteps₁.trans hsteps₂, hs₂, hnone⟩

end Lib
