import CmtTcp.Lib.Outcome
import Mathlib.Data.List.Nodup

/-!
# Computations that leave a trace

A `Traced` computation returns a value or fails, like one in `Except`, and in either case it leaves the list of
the events it went through.

* `Traced.Meets`, with `Meets.bind`: what holds of the trace and the result, put together along `>>=`;
* `walkLinks`: a loop that follows the links of a list while its body changes the list. It reads the link behind an
  entry before the body runs;
* `walkLinks_eq`: when the body takes at most its own entry off the list, the loop goes along the list as it
  was at the start, and its iterations are as many as entries at the most.
-/

namespace Lib

variable {τ ε α β σ : Type}

/-- The events of a computation, and what it returned. -/
structure Traced (τ ε α : Type) where
  trace : List τ
  result : Except ε α

namespace Traced

/-- A computation without events. -/
def lift (r : Except ε α) : Traced τ ε α := { trace := [], result := r }

/-- One computation after another. -/
def seq (x : Traced τ ε α) (f : α → Traced τ ε β) : Traced τ ε β :=
  match x.result with
  | .ok a => { trace := x.trace ++ (f a).trace, result := (f a).result }
  | .error e => { trace := x.trace, result := .error e }

instance instMonadTraced : Monad (Traced τ ε) where
  pure a := lift (.ok a)
  bind := seq

/-- The trace and the error satisfy `E`, or the trace and the value satisfy `Q`. -/
def Meets (x : Traced τ ε α) (E : List τ → ε → Prop) (Q : List τ → α → Prop) : Prop :=
  Outcome x.result (E x.trace) (Q x.trace)

section Rules

variable {x : Traced τ ε α} {f g : α → Traced τ ε β} {E E' : List τ → ε → Prop}
  {Q Q' : List τ → α → Prop} {R : List τ → β → Prop}

theorem bind_ok {a : α} (h : x.result = .ok a) :
    x >>= f = { trace := x.trace ++ (f a).trace, result := (f a).result } := by
  change seq x f = _
  unfold seq
  rw [h]

theorem bind_error {e : ε} (h : x.result = .error e) :
    x >>= f = { trace := x.trace, result := .error e } := by
  change seq x f = _
  unfold seq
  rw [h]

/-- The results are those of the computations without their traces. -/
theorem result_bind : (x >>= f).result = x.result >>= fun a => (f a).result := by
  cases h : x.result with
  | ok a => rw [bind_ok h]; rfl
  | error e => rw [bind_error h]; rfl

/-- Only what is returned matters for what comes after. -/
theorem bind_congr (h : ∀ a, x.result = .ok a → f a = g a) : x >>= f = x >>= g := by
  cases hx : x.result with
  | ok a => rw [bind_ok hx, bind_ok hx, h a hx]
  | error e => rw [bind_error hx, bind_error hx]

@[simp] theorem meets_pure {a : α} : (pure a : Traced τ ε α).Meets E Q ↔ Q [] a := Iff.rfl

theorem Meets.mono (h : x.Meets E Q) (hE : ∀ l e, E l e → E' l e) (hQ : ∀ l a, Q l a → Q' l a) :
    x.Meets E' Q' :=
  Outcome.mono h (fun e => hE x.trace e) fun a => hQ x.trace a

theorem Meets.and (h : x.Meets E Q) (h' : x.Meets E' Q') :
    x.Meets (fun l e => E l e ∧ E' l e) fun l a => Q l a ∧ Q' l a := by
  unfold Meets at *
  cases hx : x.result with
  | ok a =>
    rw [hx] at h h'
    exact ⟨h, h'⟩
  | error e =>
    rw [hx] at h h'
    exact ⟨h, h'⟩

/-- The rule for one computation after another. -/
theorem Meets.bind
    (h : x.Meets E fun l a =>
      (f a).Meets (fun l' e => E (l ++ l') e) fun l' b => R (l ++ l') b) :
    (x >>= f).Meets E R := by
  unfold Meets at h
  cases hx : x.result with
  | ok a =>
    rw [bind_ok hx]
    rw [hx] at h
    exact h
  | error e =>
    rw [bind_error hx]
    rw [hx] at h
    exact h

/-- The rule when the first computation has no events. -/
theorem Meets.bind_lift {r : Except ε α} (h : Outcome r (E []) fun a => (f a).Meets E R) :
    (lift r >>= f).Meets E R := by
  refine Meets.bind (Outcome.mono h (fun _ he => he) fun a ha => ?_)
  exact ha.mono (fun _ _ he => he) fun _ _ hb => hb

/-- The rule when the second computation is a value. -/
theorem Meets.map {g : α → β} (h : x.Meets E fun l a => R l (g a)) :
    (x >>= fun a => pure (g a)).Meets E R := by
  refine Meets.bind (h.mono (fun _ _ he => he) fun l a ha => ?_)
  rw [meets_pure, List.append_nil]
  exact ha

/-- What `Meets` says about a computation that returned. -/
theorem Meets.of_ok (h : x.Meets E Q) {a : α} (hx : x.result = .ok a) : Q x.trace a :=
  Outcome.of_ok h hx

/-- What `Meets` says about a computation that failed. -/
theorem Meets.of_error (h : x.Meets E Q) {e : ε} (hx : x.result = .error e) : E x.trace e :=
  Outcome.of_error h hx

end Rules

end Traced

/-! ### Following links -/

section Walk

variable [DecidableEq α]

/-- The entry behind `a`. -/
def nextOf (l : List α) (a : α) : Option α := l[l.idxOf a + 1]?

/-- Follow the links from an entry on, for at most so many entries. The body says whether to stop. -/
def walkLinks (links : σ → List α) (visit : α → σ → Traced τ ε (σ × Bool)) (stuck : ε) :
    ℕ → Option α → σ → Traced τ ε σ
  | _, none, s => pure s
  | 0, some _, _ => Traced.lift (.error stuck)
  | n + 1, some a, s => do
    let next := nextOf (links s) a
    let r ← visit a s
    if r.2 then pure r.1 else walkLinks links visit stuck n next r.1

/-- Go along a list. -/
def walkList (visit : α → σ → Traced τ ε (σ × Bool)) : List α → σ → Traced τ ε σ
  | [], s => pure s
  | a :: l, s => do
    let r ← visit a s
    if r.2 then pure r.1 else walkList visit l r.1

omit [DecidableEq α] in
/-- An entry of a list without repetition is not in front of itself. -/
theorem notMem_front {pre l : List α} {a : α} (h : (pre ++ a :: l).Nodup) : a ∉ pre := fun ha =>
  (List.nodup_cons.mp (List.nodup_middle.mp h)).1 (List.mem_append_left _ ha)

theorem nextOf_append {pre l : List α} {a : α} (h : (pre ++ a :: l).Nodup) :
    nextOf (pre ++ a :: l) a = l.head? := by
  unfold nextOf
  rw [List.idxOf_append_of_notMem (notMem_front h), List.idxOf_cons_self, Nat.add_zero,
    List.getElem?_append_right (Nat.le_succ _), show pre.length + 1 - pre.length = 1 by omega,
    List.getElem?_cons_succ, List.head?_eq_getElem?]

/-- **Following links.** A loop whose body keeps `I` and takes at most its own entry off the list goes
along the list as it was at the start. -/
theorem walkLinks_eq {links : σ → List α} {visit : α → σ → Traced τ ε (σ × Bool)} {stuck : ε}
    {I : σ → Prop}
    (hvisit : ∀ a s s', I s → (visit a s).result = .ok (s', false) →
      I s' ∧ (links s' = links s ∨ links s' = (links s).erase a))
    {pre l : List α} {s : σ} (hI : I s) (hlinks : links s = pre ++ l) (hnodup : (links s).Nodup) :
    walkLinks links visit stuck l.length l.head? s = walkList visit l s := by
  induction l generalizing pre s with
  | nil => rfl
  | cons a l ih =>
    rw [hlinks] at hnodup
    have hnext : nextOf (links s) a = l.head? := by rw [hlinks, nextOf_append hnodup]
    unfold walkList
    change (visit a s >>= fun r => if r.2 then pure r.1
      else walkLinks links visit stuck l.length (nextOf (links s) a) r.1) = _
    rw [hnext]
    refine Traced.bind_congr fun r hr => ?_
    obtain ⟨s', stop⟩ := r
    cases stop with
    | true => rfl
    | false =>
      -- the entry stays in front of what is left, or is gone
      have hpre := notMem_front hnodup
      obtain ⟨hI', hsame | herase⟩ := hvisit a s s' hI hr
      · have hfront : links s' = (pre ++ [a]) ++ l := by
          rw [hsame, hlinks, List.append_assoc]
          rfl
        refine ih hI' hfront ?_
        rwa [hsame, hlinks]
      · have hleft : links s' = pre ++ l := by
          rw [herase, hlinks, List.erase_append_right _ hpre, List.erase_cons_head]
        refine ih hI' hleft ?_
        rw [herase, hlinks]
        exact hnodup.erase a

end Walk

end Lib
