import CmtTcp.Lib.Outcome
import CmtTcp.Lib.Run

/-!
# Two computations side by side

`Alike R r r'`: two fallible computations both return, and what they return is related by `R`, or both stop
with the same error. The rules put such statements about the parts of two computations together along
`>>=` and `if`.

`Run.alongside`: two systems, of which the second takes only some of the labels of the first.
-/

namespace Lib

/-- Both return, values in `R`, or both stop with the same error. -/
def Alike {ε : Type*} {α β : Type} (R : α → β → Prop) : Except ε α → Except ε β → Prop
  | .ok a, .ok b => R a b
  | .error e, .error e' => e = e'
  | _, _ => False

namespace Alike

variable {ε : Type*} {α β α' β' : Type} {R : α → β → Prop} {S : α' → β' → Prop} {r : Except ε α}
  {r' : Except ε β} {f : α → Except ε α'} {f' : β → Except ε β'} {a : α} {b : β} {e : ε}

@[simp] theorem ok_iff : Alike R (.ok a : Except ε α) (.ok b) ↔ R a b := Iff.rfl

@[simp] theorem error_iff {e' : ε} : Alike R (.error e : Except ε α) (.error e') ↔ e = e' := Iff.rfl

/-- What the second returns when the first does. -/
theorem of_ok (h : Alike R r r') (hr : r = .ok a) : ∃ b, r' = .ok b ∧ R a b := by
  subst hr
  cases r' with
  | ok b => exact ⟨b, rfl, h⟩
  | error e => exact h.elim

/-- When the first stops, the second does, with the same error. -/
theorem of_error (h : Alike R r r') (hr : r = .error e) : r' = .error e := by
  subst hr
  cases r' with
  | ok b => exact h.elim
  | error e' => exact congrArg Except.error (Eq.symm h)

/-- What is known of the first alone. -/
theorem and_left {E : ε → Prop} {Q : α → Prop} (h : Alike R r r') (hQ : Outcome r E Q) :
    Alike (fun a b => R a b ∧ Q a) r r' := by
  cases r with
  | ok a =>
    obtain ⟨b, rfl, hab⟩ := h.of_ok rfl
    exact ⟨hab, hQ⟩
  | error e =>
    rw [h.of_error rfl]
    exact rfl

theorem mono {R' : α → β → Prop} (h : Alike R r r') (hR : ∀ a b, R a b → R' a b) : Alike R' r r' := by
  cases r with
  | ok a =>
    obtain ⟨b, rfl, hab⟩ := h.of_ok rfl
    exact hR a b hab
  | error e =>
    rw [h.of_error rfl]
    exact rfl

/-- A computation beside itself. -/
theorem diag {R : α → α → Prop} (h : Alike R r r) : Outcome r (fun _ => True) fun a => R a a := by
  cases r with
  | ok a => exact h
  | error e => exact trivial

/-- The rule for one computation after another. -/
theorem bind (h : Alike R r r') (hf : ∀ a b, R a b → Alike S (f a) (f' b)) :
    Alike S (r >>= f) (r' >>= f') := by
  cases r with
  | ok a =>
    obtain ⟨b, rfl, hab⟩ := h.of_ok rfl
    exact hf a b hab
  | error e =>
    rw [h.of_error rfl]
    exact rfl

/-- The rule for a choice that both make alike. -/
theorem ite {p p' : Prop} [Decidable p] [Decidable p'] {q : Except ε α} {q' : Except ε β}
    (hp : p ↔ p') (h : p → Alike R r r') (h' : ¬p → Alike R q q') :
    Alike R (if p then r else q) (if p' then r' else q') := by
  by_cases hc : p
  · rw [if_pos hc, if_pos (hp.mp hc)]
    exact h hc
  · rw [if_neg hc, if_neg (mt hp.mpr hc)]
    exact h' hc

end Alike

/-- **Side by side.** Of the labels of a run, those that are `mine` are taken by a second system too. When
each of them keeps the two related, and the other labels leave the first one related to the same state of
the second, the second system has a run over the labels that are `mine`. How the two are related may
depend on the labels so far. -/
theorem Run.alongside {σ τ ℓ : Type*} {step : σ → ℓ → σ → Prop} {step' : τ → ℓ → τ → Prop}
    (R : List ℓ → σ → τ → Prop) (mine : ℓ → Prop) [DecidablePred mine] {s s' : σ} {t : τ} {ls : List ℓ}
    (h : R [] s t)
    (hmine : ∀ ms s t l s', ms ++ [l] <+: ls → R ms s t → step s l s' → mine l →
      ∃ t', step' t l t' ∧ R (ms ++ [l]) s' t')
    (hother : ∀ ms s t l s', ms ++ [l] <+: ls → R ms s t → step s l s' → ¬mine l → R (ms ++ [l]) s' t)
    (hrun : Run step s ls s') : ∃ t', Run step' t (ls.filter (mine ·)) t' ∧ R ls s' t' := by
  induction hrun with
  | nil => exact ⟨t, .nil, h⟩
  | @snoc ls u l v _ hlast ih =>
    have hpre : ∀ ms m, ms ++ [m] <+: ls → ms ++ [m] <+: ls ++ [l] := fun ms m hms =>
      hms.trans (List.prefix_append ls [l])
    obtain ⟨t', hrun', hR⟩ := ih (fun ms s t m s' hms => hmine ms s t m s' (hpre ms m hms))
      fun ms s t m s' hms => hother ms s t m s' (hpre ms m hms)
    by_cases hl : mine l
    · obtain ⟨t'', hstep', hR'⟩ := hmine ls u t' l v List.prefix_rfl hR hlast hl
      refine ⟨t'', ?_, hR'⟩
      rw [List.filter_append, List.filter_cons_of_pos (by simpa using hl), List.filter_nil]
      exact hrun'.snoc hstep'
    · refine ⟨t', ?_, hother ls u t' l v List.prefix_rfl hR hlast hl⟩
      rw [List.filter_append, List.filter_cons_of_neg (by simpa using hl), List.filter_nil]
      rwa [List.append_nil]

end Lib
