import CmtTcp.Basic
import CmtTcp.Lib.LongestMatch

/-!
# The routing table

`get_output_interface` of `ip.c`: a search of `CONFIG.rtable` that keeps the longest match it has come
across, but leaves its loop behind the first entry that matches. So the first match decides
(`getOutputInterface_first`), and it is the longest one only by its place in the table
(`route_longest_iff`).
-/

namespace CmtTcp

open Lib (LongestMatch)

/-- An entry of `CONFIG.rtable` -/
structure RouteEntry where
  mask : U32
  masked : U32
  prefixLen : ℤ
  nif : ℤ
deriving DecidableEq, Repr

/-- The test of the loop: the destination is in the network of the entry. -/
def RouteEntry.Matches (daddr : U32) (e : RouteEntry) : Prop := daddr &&& e.mask = e.masked

instance RouteEntry.Matches.decidable (daddr : U32) : DecidablePred (RouteEntry.Matches daddr) := fun _ =>
  inferInstanceAs (Decidable (_ = _))

/-- The loop of `get_output_interface`, with `nif` and `*is_external`; `gateway` is `CONFIG.gateway->nif`,
if there is a gateway. -/
def routeLoop (gateway : Option ℤ) (daddr : U32) : List RouteEntry → ℤ → ℤ → U8 → ℤ × U8
  | [], nif, _, isExternal => (nif, isExternal)
  | e :: rtable, nif, prefixLen, isExternal =>
    if daddr &&& e.mask = e.masked then
      -- the `break` stands behind both branches
      if e.prefixLen > prefixLen then (e.nif, isExternal)
      else
        match gateway with
        | some gatewayNif => (gatewayNif, 1)
        | none => (nif, isExternal)
    else routeLoop gateway daddr rtable nif prefixLen isExternal

/-- `get_output_interface`, with what it leaves in `*is_external`; `none` where it runs into `assert(0)`. -/
def getOutputInterface (gateway : Option ℤ) (rtable : List RouteEntry) (daddr : U32) : Option (ℤ × U8) :=
  let r := routeLoop gateway daddr rtable (-1) 0 0
  if r.1 < 0 then none else some r

section Route

variable {gateway : Option ℤ} {rtable : List RouteEntry} {daddr : U32}

/-- The loop does not look behind the first match. -/
theorem routeLoop_first {f : RouteEntry} (hfind : rtable.find? (fun e => decide (e.Matches daddr)) = some f)
    (hf : 1 ≤ f.prefixLen) (nif : ℤ) (isExternal : U8) :
    routeLoop gateway daddr rtable nif 0 isExternal = (f.nif, isExternal) := by
  induction rtable with
  | nil => cases hfind
  | cons e rtable ih =>
    unfold routeLoop
    by_cases he : daddr &&& e.mask = e.masked
    · have hhit := List.find?_cons_of_pos (p := fun e => decide (e.Matches daddr)) (l := rtable)
        (decide_eq_true he)
      obtain rfl := Option.some.inj (hhit.symm.trans hfind)
      -- the running prefix is still zero
      rw [if_pos he, if_pos (by omega)]
    · have hmiss := List.find?_cons_of_neg (p := fun e => decide (e.Matches daddr)) (l := rtable)
        (show ¬decide (e.Matches daddr) = true from fun h => he (of_decide_eq_true h))
      rw [if_neg he]
      exact ih (hmiss.symm.trans hfind)

theorem getOutputInterface_first {f : RouteEntry}
    (hfind : rtable.find? (fun e => decide (e.Matches daddr)) = some f) (hf : 1 ≤ f.prefixLen) :
    getOutputInterface gateway rtable daddr = if f.nif < 0 then none else some (f.nif, 0) := by
  unfold getOutputInterface
  rw [routeLoop_first hfind hf]

/-- The search yields the interface of one of the longest matches, and says that it is no external one. -/
def RoutedLongest (gateway : Option ℤ) (rtable : List RouteEntry) (daddr : U32) : Prop :=
  ∃ e, LongestMatch (RouteEntry.Matches daddr) RouteEntry.prefixLen rtable e ∧
    getOutputInterface gateway rtable daddr = some (e.nif, 0)

theorem exists_first (hmatch : ∃ e ∈ rtable, e.Matches daddr) :
    ∃ f, rtable.find? (fun e => decide (e.Matches daddr)) = some f := by
  obtain ⟨e, he, hmatches⟩ := hmatch
  exact Option.isSome_iff_exists.mp (List.find?_isSome.mpr ⟨e, he, decide_eq_true hmatches⟩)

theorem routedLongest_iff_first {f : RouteEntry}
    (hfind : rtable.find? (fun e => decide (e.Matches daddr)) = some f) (hf : 1 ≤ f.prefixLen) :
    RoutedLongest gateway rtable daddr ↔
      0 ≤ f.nif ∧ ∃ e, LongestMatch (RouteEntry.Matches daddr) RouteEntry.prefixLen rtable e ∧
        e.nif = f.nif := by
  unfold RoutedLongest
  rw [getOutputInterface_first hfind hf]
  split
  · next hneg =>
    refine iff_of_false ?_ fun h => absurd h.1 (not_le.mpr hneg)
    rintro ⟨e, -, hget⟩
    cases hget
  · next hnif =>
    rw [and_iff_right (not_lt.mp hnif)]
    refine exists_congr fun e => and_congr_right fun _ => ?_
    rw [Option.some_inj, Prod.mk.injEq, and_iff_left rfl]
    exact eq_comm

/-- In every order of its entries a table is searched rightly exactly when each match has an interface, that
of one of the longest matches: each match may come first. -/
theorem route_any_order_iff (hlen : ∀ e ∈ rtable, 1 ≤ e.prefixLen)
    (hmatch : ∃ e ∈ rtable, e.Matches daddr) :
    (∀ rtable', rtable'.Perm rtable → RoutedLongest gateway rtable' daddr) ↔
      ∀ f ∈ rtable, f.Matches daddr →
        0 ≤ f.nif ∧ ∃ e, LongestMatch (RouteEntry.Matches daddr) RouteEntry.prefixLen rtable e ∧
          e.nif = f.nif := by
  constructor
  · intro h f hf hmatches
    have hperm : (f :: rtable.erase f).Perm rtable := (List.perm_cons_erase hf).symm
    -- the order in which `f` comes first
    have hfirst := List.find?_cons_of_pos (p := fun e => decide (e.Matches daddr)) (l := rtable.erase f)
      (decide_eq_true hmatches)
    obtain ⟨hnif, e, hbest, heq⟩ := (routedLongest_iff_first hfirst (hlen f hf)).mp (h _ hperm)
    exact ⟨hnif, e, hbest.congr_mem fun _ => hperm.mem_iff, heq⟩
  · intro h rtable' hperm
    obtain ⟨e, he, hmatches⟩ := hmatch
    obtain ⟨f, hfind⟩ := exists_first ⟨e, hperm.mem_iff.mpr he, hmatches⟩
    have hf := hperm.mem_iff.mp (List.mem_of_find?_eq_some hfind)
    have hhit : decide (f.Matches daddr) = true :=
      List.find?_some (p := fun e : RouteEntry => decide (e.Matches daddr)) hfind
    obtain ⟨hnif, e, hbest, heq⟩ := h f hf (of_decide_eq_true hhit)
    refine (routedLongest_iff_first hfind (hlen f hf)).mpr ⟨hnif, e, ?_, heq⟩
    exact hbest.congr_mem fun _ => hperm.mem_iff.symm

/-- **When routing is longest-prefix matching.** For every table of prefixes of at least one bit and every
destination with a match: if and only if the first match has an interface, and it is the interface
of one of the longest matches. -/
theorem route_longest_iff (gateway : Option ℤ) (rtable : List RouteEntry) (daddr : U32)
    (hlen : ∀ e ∈ rtable, 1 ≤ e.prefixLen) (hmatch : ∃ e ∈ rtable, e.Matches daddr) :
    RoutedLongest gateway rtable daddr ↔
      ∃ f e, rtable.find? (fun e => decide (e.Matches daddr)) = some f ∧ 0 ≤ f.nif ∧
        LongestMatch (RouteEntry.Matches daddr) RouteEntry.prefixLen rtable e ∧ e.nif = f.nif := by
  obtain ⟨f, hfind⟩ := exists_first hmatch
  rw [routedLongest_iff_first hfind (hlen f (List.mem_of_find?_eq_some hfind))]
  constructor
  · rintro ⟨hnif, e, hbest, heq⟩
    exact ⟨f, e, hfind, hnif, hbest, heq⟩
  · rintro ⟨f', e, hfind', hnif, hbest, heq⟩
    obtain rfl := Option.some.inj (hfind.symm.trans hfind')
    exact ⟨hnif, e, hbest, heq⟩

end Route

/-- `10.0.0.0/8` on interface `1`. -/
def wideRoute : RouteEntry where
  mask := 0x000000ff
  masked := 0x0000000a
  prefixLen := 8
  nif := 1

/-- `10.1.0.0/16` on interface `2`. -/
def narrowRoute : RouteEntry where
  mask := 0x0000ffff
  masked := 0x0000010a
  prefixLen := 16
  nif := 2

/-- The longer prefix in front. -/
theorem route_longest_iff_ordered : RoutedLongest none [narrowRoute, wideRoute] 0x0302010a := by
  refine (route_longest_iff none [narrowRoute, wideRoute] 0x0302010a (by decide)
    ⟨narrowRoute, List.mem_cons_self, by decide⟩).mpr ?_
  refine ⟨narrowRoute, narrowRoute, by decide, by decide, ⟨List.mem_cons_self, by decide, ?_⟩, rfl⟩
  decide

/-- The shorter prefix in front. -/
theorem route_shortest : ¬RoutedLongest none [wideRoute, narrowRoute] 0x0302010a := by
  rintro ⟨e, hbest, hget⟩
  have hwide : getOutputInterface none [wideRoute, narrowRoute] 0x0302010a = some (1, 0) := by decide
  rw [hwide] at hget
  have hnif : (1 : ℤ) = e.nif := congrArg Prod.fst (Option.some.inj hget)
  have hlen : (16 : ℤ) ≤ e.prefixLen :=
    hbest.longest narrowRoute (List.mem_cons_of_mem _ List.mem_cons_self) (by decide)
  -- only the wide route has this interface
  rcases List.mem_pair.mp hbest.mem with rfl | rfl
  · exact absurd hlen (by decide)
  · exact absurd hnif (by decide)

end CmtTcp
