import Mathlib.Data.List.Basic
import Mathlib.Data.List.Induction

/-!
# Finite runs of a labelled transition relation

`Run step s ls t` says that the labels `ls`, taken one after the other, lead from `s` to `t`.
A run is extended at its end, so the induction on it hands back the run up to the last step,
and an invariant may speak about the labels seen so far.

* `Run.invariant` and `Run.history_invariant`: what every step preserves, every run preserves;
* `Occurs`: somewhere along the run a label was taken in a state such that;
* `Guarded`: the runs whose steps all meet a condition on the state before the step;
* `Run.guarded`, `Run.not_occurs_of_guarded`: that is, no label that does not meet it occurs;
* `Run.along_iff`: every step of a run is good exactly when no bad label occurs along it;
* `run_of_foldlM`: what a step function computes is a run;
* `foldlM_simulates`: a step function that keeps in step with a total specification has a run for
  every list of labels;
* `foldlM_ok_of_history`: a fallible step function that succeeds wherever an invariant of the
  history holds;
* `foldl_throughout_iff`: a property of all states of a run as a condition on its labels, which
  `forall_prefix_cons_iff` takes apart.
-/

namespace Lib

variable {σ ℓ : Type*}

/-- `Run step s ls t`: the labels `ls` lead from `s` to `t`. -/
inductive Run (step : σ → ℓ → σ → Prop) (s : σ) : List ℓ → σ → Prop
  | nil : Run step s [] s
  | snoc {ls : List ℓ} {t : σ} {l : ℓ} {u : σ} :
      Run step s ls t → step t l u → Run step s (ls ++ [l]) u

/-- The steps of `step` that meet `guard` in the state before them. -/
def Guarded (guard : σ → ℓ → Prop) (step : σ → ℓ → σ → Prop) : σ → ℓ → σ → Prop :=
  fun s l t => guard s l ∧ step s l t

namespace Run

variable {step : σ → ℓ → σ → Prop} {s t : σ} {ls : List ℓ}

/-- An invariant that may speak about the labels seen so far. -/
theorem history_invariant (I : List ℓ → σ → Prop) (h0 : I [] s)
    (hstep : ∀ ls t l u, I ls t → step t l u → I (ls ++ [l]) u) (h : Run step s ls t) :
    I ls t := by
  induction h with
  | nil => exact h0
  | snoc _ hlast ih => exact hstep _ _ _ _ ih hlast

/-- What holds initially and is preserved by every step holds at the end of every run. -/
theorem invariant (I : σ → Prop) (h0 : I s) (hstep : ∀ t l u, I t → step t l u → I u)
    (h : Run step s ls t) : I t :=
  h.history_invariant (fun _ t => I t) h0 (fun _ t l u ht hs => hstep t l u ht hs)

/-- Along a run from `s` over `ls`, a label was taken in a state with which it satisfies `φ`. -/
def Occurs (step : σ → ℓ → σ → Prop) (s : σ) (ls : List ℓ) (φ : σ → ℓ → Prop) : Prop :=
  ∃ pre l post t, ls = pre ++ l :: post ∧ Run step s pre t ∧ φ t l

/-- What occurred stays so when the run goes on. -/
theorem Occurs.snoc {φ : σ → ℓ → Prop} (h : Occurs step s ls φ) (l : ℓ) :
    Occurs step s (ls ++ [l]) φ := by
  obtain ⟨pre, m, post, t, rfl, hrun, hφ⟩ := h
  exact ⟨pre, m, post ++ [l], t, by simp, hrun, hφ⟩

/-- The last label of a run. -/
theorem occurs_last {φ : σ → ℓ → Prop} {l : ℓ} (h : Run step s ls t) (hφ : φ t l) :
    Occurs step s (ls ++ [l]) φ :=
  ⟨ls, l, [], t, rfl, h, hφ⟩

/-- A run of fewer steps is one of more. -/
theorem mono {step' : σ → ℓ → σ → Prop} (h : Run step s ls t) (hstep : ∀ t l u, step t l u → step' t l u) :
    Run step' s ls t := by
  induction h with
  | nil => exact .nil
  | snoc _ hlast ih => exact ih.snoc (hstep _ _ _ hlast)

theorem single {l : ℓ} (h : step s l t) : Run step s [l] t :=
  Run.snoc .nil h

theorem nil_iff : Run step s [] t ↔ t = s := by
  constructor
  · generalize hls : ([] : List ℓ) = ls
    rintro (_ | ⟨_, _⟩)
    · rfl
    · exact absurd hls.symm (List.append_ne_nil_of_right_ne_nil _ (List.cons_ne_nil _ _))
  · rintro rfl
    exact .nil

theorem snoc_iff {l : ℓ} : Run step s (ls ++ [l]) t ↔ ∃ u, Run step s ls u ∧ step u l t := by
  constructor
  · generalize hls : ls ++ [l] = ls'
    rintro (_ | ⟨hrun, hlast⟩)
    · exact absurd hls (List.append_ne_nil_of_right_ne_nil _ (List.cons_ne_nil _ _))
    · obtain ⟨rfl, hl⟩ := List.append_inj' hls rfl
      obtain rfl := List.singleton_inj.mp hl
      exact ⟨_, hrun, hlast⟩
  · rintro ⟨u, hrun, hlast⟩
    exact hrun.snoc hlast

theorem single_iff {l : ℓ} : Run step s [l] t ↔ step s l t := by
  refine (@snoc_iff _ _ step s t [] l).trans ⟨?_, fun h => ⟨s, .nil, h⟩⟩
  rintro ⟨u, hrun, hlast⟩
  rwa [nil_iff.mp hrun] at hlast

/-- A run can be cut anywhere. -/
theorem append_iff {ms : List ℓ} :
    Run step s (ls ++ ms) t ↔ ∃ u, Run step s ls u ∧ Run step u ms t := by
  induction ms using List.reverseRecOn generalizing t with
  | nil =>
    rw [List.append_nil]
    refine ⟨fun h => ⟨t, h, .nil⟩, ?_⟩
    rintro ⟨u, hrun, hnil⟩
    rwa [nil_iff.mp hnil]
  | append_singleton ms l ih =>
    rw [← List.append_assoc, snoc_iff]
    constructor
    · rintro ⟨v, hrun, hlast⟩
      obtain ⟨u, hls, hms⟩ := ih.mp hrun
      exact ⟨u, hls, hms.snoc hlast⟩
    · rintro ⟨u, hls, hms⟩
      obtain ⟨v, hrun, hlast⟩ := snoc_iff.mp hms
      exact ⟨v, ih.mpr ⟨u, hls, hrun⟩, hlast⟩

/-- Where the labels determine the steps, they determine the run. -/
theorem det {u : σ} (hdet : ∀ t l u u', step t l u → step t l u' → u = u')
    (h : Run step s ls t) (h' : Run step s ls u) : t = u := by
  induction h generalizing u with
  | nil => exact (nil_iff.mp h').symm
  | snoc _ hlast ih =>
    obtain ⟨v, hrun', hlast'⟩ := snoc_iff.mp h'
    obtain rfl := ih hrun'
    exact hdet _ _ _ _ hlast hlast'

theorem not_occurs_nil {φ : σ → ℓ → Prop} : ¬Occurs step s [] φ := by
  rintro ⟨pre, l, post, t, hls, -⟩
  exact absurd hls.symm (List.append_ne_nil_of_right_ne_nil _ (List.cons_ne_nil _ _))

theorem occurs_snoc_iff {φ : σ → ℓ → Prop} {l : ℓ} :
    Occurs step s (ls ++ [l]) φ ↔ Occurs step s ls φ ∨ ∃ t, Run step s ls t ∧ φ t l := by
  constructor
  · rintro ⟨pre, m, post, t, hls, hrun, hφ⟩
    rcases List.eq_nil_or_concat post with rfl | ⟨post', m', rfl⟩
    · obtain ⟨rfl, hl⟩ := List.append_inj' hls rfl
      obtain rfl := List.singleton_inj.mp hl
      exact .inr ⟨t, hrun, hφ⟩
    · rw [List.concat_eq_append, ← List.cons_append, ← List.append_assoc] at hls
      obtain ⟨rfl, -⟩ := List.append_inj' hls rfl
      exact .inl ⟨pre, m, post', t, rfl, hrun, hφ⟩
  · rintro (h | ⟨t, hrun, hφ⟩)
    · exact h.snoc l
    · exact occurs_last hrun hφ

theorem occurs_single_iff {φ : σ → ℓ → Prop} {l : ℓ} : Occurs step s [l] φ ↔ φ s l := by
  refine (@occurs_snoc_iff _ _ step s [] φ l).trans ⟨fun h => ?_, fun hφ => .inr ⟨s, .nil, hφ⟩⟩
  obtain ⟨t, hrun, hφ⟩ := h.resolve_left not_occurs_nil
  rwa [nil_iff.mp hrun] at hφ

/-- A run along which no bad label occurs has only steps that are not bad. -/
theorem guarded {bad : σ → ℓ → Prop} (h : Run step s ls t) (hno : ¬Occurs step s ls bad) :
    Run (Guarded (fun t l => ¬bad t l) step) s ls t := by
  induction h with
  | nil => exact .nil
  | snoc hrun hlast ih =>
    rw [occurs_snoc_iff, not_or] at hno
    exact (ih hno.1).snoc ⟨fun hbad => hno.2 ⟨_, hrun, hbad⟩, hlast⟩

/-- And the other way round, where the labels determine the steps. -/
theorem not_occurs_of_guarded {bad : σ → ℓ → Prop}
    (hdet : ∀ t l u u', step t l u → step t l u' → u = u')
    (h : Run (Guarded (fun t l => ¬bad t l) step) s ls t) : ¬Occurs step s ls bad := by
  induction h with
  | nil => exact not_occurs_nil
  | snoc hrun hlast ih =>
    rw [occurs_snoc_iff, not_or]
    refine ⟨ih, ?_⟩
    rintro ⟨t', hrun', hbad⟩
    obtain rfl := hrun'.det hdet (hrun.mono fun _ _ _ hstep => hstep.2)
    exact hlast.1 hbad

/-- Every step along the labels `ls` from `s` is as `Good` says. -/
def Along (step : σ → ℓ → σ → Prop) (s : σ) (ls : List ℓ) (Good : σ → ℓ → σ → Prop) : Prop :=
  ∀ pre l post t u, ls = pre ++ l :: post → Run step s pre t → step t l u → Good t l u

theorem along_snoc_iff {Good : σ → ℓ → σ → Prop} {l : ℓ} :
    Along step s (ls ++ [l]) Good ↔
      Along step s ls Good ∧ ∀ t u, Run step s ls t → step t l u → Good t l u := by
  constructor
  · intro h
    refine ⟨fun pre m post t u hls => ?_, fun t u => h ls l [] t u rfl⟩
    exact h pre m (post ++ [l]) t u (by rw [hls]; simp)
  · rintro ⟨h, hlast⟩ pre m post t u hls hrun hstep
    rcases List.eq_nil_or_concat post with rfl | ⟨post', m', rfl⟩
    · obtain ⟨rfl, hl⟩ := List.append_inj' hls rfl
      obtain rfl := List.singleton_inj.mp hl
      exact hlast t u hrun hstep
    · rw [List.concat_eq_append, ← List.cons_append, ← List.append_assoc] at hls
      obtain ⟨rfl, -⟩ := List.append_inj' hls rfl
      exact h pre m post' t u rfl hrun hstep

/-- **Good up to the first bad label.** From states in `J`, a good step is one whose label is not `bad`,
and keeps `J`. Then every step of a run is good exactly when no label along it is bad. -/
theorem along_iff (hdet : ∀ t l u u', step t l u → step t l u' → u = u') {J : σ → Prop}
    {bad : σ → ℓ → Prop} {Good : σ → ℓ → σ → Prop} (h0 : J s)
    (hgood : ∀ t l u, J t → step t l u → ¬bad t l → J u ∧ Good t l u)
    (hbad : ∀ t l u, J t → step t l u → bad t l → ¬Good t l u) (h : Run step s ls t) :
    Along step s ls Good ↔ ¬Occurs step s ls bad := by
  suffices hJ : (Along step s ls Good ↔ ¬Occurs step s ls bad) ∧
      (¬Occurs step s ls bad → J t) from hJ.1
  induction h with
  | nil =>
    refine ⟨iff_of_true ?_ not_occurs_nil, fun _ => h0⟩
    intro pre l post t u hls
    exact absurd hls.symm (List.append_ne_nil_of_right_ne_nil _ (List.cons_ne_nil _ _))
  | @snoc ls t l u hrun hlast ih =>
    -- the run leads to `t` and nowhere else
    have hlabel : (∃ t', Run step s ls t' ∧ bad t' l) ↔ bad t l := by
      constructor
      · rintro ⟨t', hrun', hb⟩
        rwa [hrun.det hdet hrun']
      · exact fun hb => ⟨t, hrun, hb⟩
    have hstep : (∀ t' u', Run step s ls t' → step t' l u' → Good t' l u') ↔ Good t l u := by
      constructor
      · exact fun hall => hall t u hrun hlast
      · intro hg t' u' hrun' hlast'
        obtain rfl := hrun.det hdet hrun'
        rwa [hdet _ _ _ _ hlast' hlast]
    rw [along_snoc_iff, occurs_snoc_iff, hstep, hlabel, not_or, ih.1]
    constructor
    · refine and_congr_right fun hno => ⟨fun hg hb => ?_, fun hb => ?_⟩
      · exact hbad t l u (ih.2 hno) hlast hb hg
      · exact (hgood t l u (ih.2 hno) hlast hb).2
    · exact fun hno => (hgood t l u (ih.2 hno.1) hlast hno.2).1

end Run

/-! ### Step functions -/

section Fold

variable {f : σ → ℓ → Option σ}

/-- What a step function computes is a run of its graph. -/
theorem run_of_foldlM {s t : σ} {ls : List ℓ} (h : ls.foldlM f s = some t) :
    Run (fun s l t => f s l = some t) s ls t := by
  induction ls using List.reverseRecOn generalizing t with
  | nil =>
    obtain rfl := Option.some.inj h
    exact .nil
  | append_singleton ls l ih =>
    rw [List.foldlM_append] at h
    cases hls : ls.foldlM f s with
    | none =>
      rw [hls] at h
      cases h
    | some u =>
      rw [hls] at h
      refine (ih hls).snoc ?_
      rw [← h]
      show f u l = (f u l >>= fun t => [].foldlM f t)
      cases f u l <;> rfl

/-- **Simulation of a total specification.** When every step from related states is defined and
ends in related states, every list of labels runs, and ends in related states. -/
theorem foldlM_simulates {τ : Type*} (R : σ → τ → Prop) {g : τ → ℓ → τ}
    (hstep : ∀ s t l, R s t → ∃ s', f s l = some s' ∧ R s' (g t l)) {s : σ} {t : τ}
    (h : R s t) (ls : List ℓ) : ∃ s', ls.foldlM f s = some s' ∧ R s' (ls.foldl g t) := by
  induction ls generalizing s t with
  | nil => exact ⟨s, rfl, h⟩
  | cons l ls ih =>
    obtain ⟨v, hv, hR⟩ := hstep s t l h
    obtain ⟨s', hs', hR'⟩ := ih hR
    refine ⟨s', ?_, hR'⟩
    rw [List.foldlM_cons, hv]
    exact hs'

/-- A fallible step function that succeeds wherever a history invariant holds, for every label of a
list in its turn, succeeds on the list and keeps the invariant. -/
theorem foldlM_ok_of_history {ε : Type*} {f : σ → ℓ → Except ε σ} (I : List ℓ → σ → Prop) {s : σ}
    (h0 : I [] s) (ls : List ℓ)
    (hstep : ∀ done l rest t, ls = done ++ l :: rest → I done t →
      ∃ u, f t l = .ok u ∧ I (done ++ [l]) u) :
    ∃ t, ls.foldlM f s = .ok t ∧ I ls t := by
  -- the labels done so far move from the list to the history
  suffices h : ∀ rest done t, ls = done ++ rest → I done t →
      ∃ u, rest.foldlM f t = .ok u ∧ I (done ++ rest) u by
    obtain ⟨t, ht, hI⟩ := h ls [] s rfl h0
    exact ⟨t, ht, hI⟩
  intro rest
  induction rest with
  | nil =>
    intro done t _ hI
    refine ⟨t, rfl, ?_⟩
    rwa [List.append_nil]
  | cons l rest ih =>
    intro done t hls hI
    obtain ⟨u, hu, hIu⟩ := hstep done l rest t hls hI
    obtain ⟨v, hv, hIv⟩ := ih (done ++ [l]) u (by rw [hls, List.append_assoc]; rfl) hIu
    refine ⟨v, ?_, by rwa [List.append_assoc] at hIv⟩
    rw [List.foldlM_cons, hu]
    exact hv

/-- For a total step function, an invariant `J` it keeps, and a property `I` that a step keeps exactly when
its label meets `guard`: `I` holds at every point of a run exactly when every label of the run meets
`guard` in its turn. -/
theorem foldl_throughout_iff {f : σ → ℓ → σ} (J I : σ → Prop) (guard : σ → ℓ → Prop)
    (hJ : ∀ s l, J s → J (f s l)) (hI : ∀ s l, J s → I s → (I (f s l) ↔ guard s l)) {s : σ}
    (h : J s) (h0 : I s) (ls : List ℓ) :
    (∀ pre, pre <+: ls → I (pre.foldl f s)) ↔
      ∀ pre l, pre ++ [l] <+: ls → guard (pre.foldl f s) l := by
  -- `J` holds at every point, whatever the labels
  have hJs : ∀ pre : List ℓ, J (pre.foldl f s) := by
    intro pre
    induction pre using List.reverseRecOn with
    | nil => exact h
    | append_singleton pre l ih =>
      rw [List.foldl_append]
      exact hJ _ l ih
  constructor
  · intro hall pre l hpre
    have hnext := hall _ hpre
    rw [List.foldl_append] at hnext
    exact (hI _ l (hJs pre) (hall pre ((List.prefix_append pre [l]).trans hpre))).mp hnext
  · intro hall pre
    induction pre using List.reverseRecOn with
    | nil => exact fun _ => h0
    | append_singleton pre l ih =>
      intro hpre
      rw [List.foldl_append]
      have hbefore := ih ((List.prefix_append pre [l]).trans hpre)
      exact (hI _ l (hJs pre) hbefore).mpr (hall pre l hpre)

/-- A guard on every label of a run, label by label. -/
theorem forall_prefix_cons_iff {f : σ → ℓ → σ} {guard : σ → ℓ → Prop} {s : σ} {l : ℓ} {ls : List ℓ} :
    (∀ pre m, pre ++ [m] <+: l :: ls → guard (pre.foldl f s) m) ↔
      guard s l ∧ ∀ pre m, pre ++ [m] <+: ls → guard (pre.foldl f (f s l)) m := by
  constructor
  · intro h
    exact ⟨h [] l ⟨ls, rfl⟩, fun pre m hpre => h (l :: pre) m (List.cons_prefix_cons.mpr ⟨rfl, hpre⟩)⟩
  · rintro ⟨hl, h⟩ pre m hpre
    cases pre with
    | nil =>
      obtain ⟨rfl, -⟩ := List.cons_prefix_cons.mp hpre
      exact hl
    | cons k pre =>
      obtain ⟨rfl, hrest⟩ := List.cons_prefix_cons.mp hpre
      exact h pre m hrest

theorem forall_prefix_nil {f : σ → ℓ → σ} {guard : σ → ℓ → Prop} {s : σ} (pre : List ℓ) (m : ℓ)
    (h : pre ++ [m] <+: []) : guard (pre.foldl f s) m := by
  cases pre <;> cases List.prefix_nil.mp h

end Fold

end Lib
