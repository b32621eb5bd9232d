import CmtTcp.RecvBuffer
import CmtTcp.Lib.Run

/-!
# Reassembly

The fragment list of a receive buffer as a set of received bytes, counted from `head_seq`: the
fragments are the intervals of a `Lib.Gapped` list.

While no segment meets a fragment, `recv_put` inserts it at its place (`FragList.recvStore`), and the
list after a run of calls covers exactly the bytes of the accepted segments
(`recvPut_reassembles`). A segment that meets a fragment goes through `merge_fragments`, which writes
the union into the fragment that is not on the list and leaves the other one as it was
(`recvPut_loses_merged`).

The length `recv_put` records is the length of the first fragment, wherever it starts
(`cumLen_isRun_iff`).
-/

namespace CmtTcp

open Lib (Seg Gapped Covers InInterval IsRun)
open scoped List

/-- The range of a fragment, counted from `head_seq`. -/
def Fragment.range (headSeq : U32) (f : Fragment) : ℕ × ℕ := (seqOff headSeq f.seq, f.len.toNat)

/-! ### Comparisons inside the window -/

section Compare

variable {headSeq : U32} {f g : Fragment}

/-- `f` ends in front of `g`, with a gap between them. -/
def Fragment.Before (headSeq : U32) (f g : Fragment) : Prop :=
  (f.range headSeq).1 + (f.range headSeq).2 < (g.range headSeq).1

/-- The range of `f` ends less than half a circle above `head_seq`. -/
def Fragment.InHalf (headSeq : U32) (f : Fragment) : Prop :=
  (f.range headSeq).1 + (f.range headSeq).2 < 2 ^ 31

theorem canMerge_of_before (h : f.Before headSeq g) (hg : g.InHalf headSeq) :
    canMerge f g = false ∧ canMerge g f = false := by
  have hmin : getMinSeq (f.seq + f.len + 1) g.seq = f.seq + f.len + 1 := by
    apply getMinSeq_of_sub_lt
    simp only [Fragment.Before, Fragment.InHalf, Fragment.range, seqOff] at h hg
    bv_omega
  unfold canMerge
  exact ⟨if_pos (.inl hmin), if_pos (.inr hmin)⟩

theorem getMaxSeq_end_of_before (h : f.Before headSeq g) (hg : g.InHalf headSeq) :
    getMaxSeq (f.seq + f.len) g.seq = g.seq := by
  apply getMaxSeq_of_sub_lt
  simp only [Fragment.Before, Fragment.InHalf, Fragment.range, seqOff] at h hg
  bv_omega

theorem getMaxSeq_end_of_behind (h : g.Before headSeq f) (hf : f.InHalf headSeq) :
    getMaxSeq (f.seq + f.len) g.seq ≠ g.seq := by
  simp only [Fragment.Before, Fragment.InHalf, Fragment.range, seqOff] at h hf
  rw [getMaxSeq_of_sub_lt' (by bv_omega)]
  intro heq
  bv_omega

theorem getMinSeq_start_of_before (h : f.Before headSeq g) (hg : g.InHalf headSeq) :
    getMinSeq f.seq g.seq = f.seq := by
  apply getMinSeq_of_sub_lt
  simp only [Fragment.Before, Fragment.InHalf, Fragment.range, seqOff] at h hg
  bv_omega

theorem getMinSeq_start_of_behind (h : g.Before headSeq f) (hf : f.InHalf headSeq) :
    getMinSeq f.seq g.seq ≠ f.seq ∧ getMinSeq f.seq (g.seq + g.len) = g.seq + g.len := by
  simp only [Fragment.Before, Fragment.InHalf, Fragment.range, seqOff] at h hf
  constructor
  · rw [getMinSeq_of_sub_lt' (by bv_omega)]
    intro heq
    bv_omega
  · apply getMinSeq_of_sub_lt'
    bv_omega

end Compare

/-! ### The fragment list -/

/-- The ranges of the fragments at the addresses `l`. -/
def RecvState.ranges (s : RecvState) (l : List Addr) : List (ℕ × ℕ) :=
  l.map fun a => (s.frag a).range s.buff.headSeq

/-- The list of the receive buffer has its fragments at the addresses `l`, in order, with gaps
between them. -/
structure FragList (s : RecvState) (l : List Addr) : Prop where
  seg : Seg s.next s.buff.fctx l none
  gapped : Gapped (s.ranges l)
  inHalf : ∀ a ∈ l, (s.frag a).InHalf s.buff.headSeq

section Loop

variable {s : RecvState} {frag : Addr} {l l₁ l₂ : List Addr}

/-- The loop passes the fragments in front of the new one and stops at the first one behind it. It
merges nothing. -/
theorem putLoop_of_apart (hfrag : (s.frag frag).InHalf s.buff.headSeq)
    (hhalf : ∀ a ∈ l, (s.frag a).InHalf s.buff.headSeq)
    (hsorted : l.Pairwise fun a b => (s.frag a).Before s.buff.headSeq (s.frag b))
    (hapart : ∀ a ∈ l, (s.frag a).Before s.buff.headSeq (s.frag frag) ∨
      (s.frag frag).Before s.buff.headSeq (s.frag a))
    {p : Option Addr} (hseg : Seg s.next p l none) (prev pprev : Option Addr) {fuel : ℕ}
    (hfuel : l.length < fuel) :
    ∃ l₁ l₂ iter pprev', l = l₁ ++ l₂ ∧
      (∀ a ∈ l₁, (s.frag a).Before s.buff.headSeq (s.frag frag)) ∧
      (∀ a ∈ l₂, (s.frag frag).Before s.buff.headSeq (s.frag a)) ∧
      Seg s.next p l₁ iter ∧ Seg s.next iter l₂ none ∧
      putLoop ((s.frag frag).seq + (s.frag frag).len) fuel
        { s, frag, iter := p, prev, pprev, merged := false } =
        .ok { s, frag, iter, prev := l₁.getLast?.or prev, pprev := pprev', merged := false } := by
  -- the fragments the loop has passed are in `prev`; the induction is on those still ahead
  induction l generalizing p prev pprev fuel with
  | nil =>
    obtain rfl : p = none := hseg
    obtain ⟨fuel, rfl⟩ := Nat.exists_eq_succ_of_ne_zero (Nat.ne_of_gt hfuel)
    exact ⟨[], [], none, pprev, rfl, by simp, by simp, rfl, rfl, rfl⟩
  | cons a l ih =>
    obtain ⟨rfl, hrest⟩ := hseg
    obtain ⟨fuel, rfl⟩ := Nat.exists_eq_succ_of_ne_zero (Nat.ne_of_gt (Nat.zero_lt_of_lt hfuel))
    have hmem : a ∈ a :: l := List.mem_cons_self
    rcases hapart a hmem with hbefore | hbehind
    · -- `a` is in front of the new fragment: the loop goes on
      obtain ⟨l₁, l₂, iter, pprev', rfl, h₁, h₂, hseg₁, hseg₂, hrun⟩ :=
        ih (fun b hb => hhalf b (List.mem_cons_of_mem a hb)) hsorted.of_cons
          (fun b hb => hapart b (List.mem_cons_of_mem a hb)) hrest (some a) prev
          (Nat.lt_of_succ_lt_succ hfuel)
      have hmerge := (canMerge_of_before hbefore hfrag).2
      have hmax := getMaxSeq_end_of_behind hbefore hfrag
      have hprev : (a :: l₁).getLast?.or prev = l₁.getLast?.or (some a) := by
        rw [List.getLast?_cons]
        cases l₁.getLast? <;> rfl
      refine ⟨a :: l₁, l₂, iter, pprev', rfl, ?_, h₂, ⟨rfl, hseg₁⟩, hseg₂, ?_⟩
      · intro b hb
        rcases List.mem_cons.mp hb with rfl | hb
        · exact hbefore
        · exact h₁ b hb
      · rw [hprev, ← hrun]
        simp only [putLoop, hmerge, hmax, Bool.false_eq_true, or_self, if_false]
    · -- `a` and all that follow are behind it: the loop stops
      have hhalfa := hhalf a hmem
      have hmerge := (canMerge_of_before hbehind hhalfa).1
      have hmax := getMaxSeq_end_of_before hbehind hhalfa
      refine ⟨[], a :: l, some a, pprev, rfl, by simp, ?_, rfl, ⟨rfl, hrest⟩, ?_⟩
      · intro b hb
        rcases List.mem_cons.mp hb with rfl | hb
        · exact hbehind
        · have hab := List.rel_of_pairwise_cons hsorted hb
          simp only [Fragment.Before] at hbehind hab ⊢
          omega
      · simp only [putLoop, hmerge, hmax, Bool.false_eq_true, or_true, if_true, if_false]
        rfl

end Loop

/-! ### Linking a fragment in -/

/-- The same buffer up to links: no fragment has another range. -/
structure SameRanges (s s' : RecvState) : Prop where
  headSeq_eq : s'.buff.headSeq = s.buff.headSeq
  chunkSize_eq : s'.buff.chunkSize = s.buff.chunkSize
  seq_eq : ∀ a, (s'.frag a).seq = (s.frag a).seq
  len_eq : ∀ a, (s'.frag a).len = (s.frag a).len

section Link

variable {s s' s'' : RecvState} {frag : Addr} {l l₁ l₂ : List Addr}

theorem SameRanges.trans (h : SameRanges s s') (h' : SameRanges s' s'') : SameRanges s s'' where
  headSeq_eq := h'.headSeq_eq.trans h.headSeq_eq
  chunkSize_eq := h'.chunkSize_eq.trans h.chunkSize_eq
  seq_eq := fun a => (h'.seq_eq a).trans (h.seq_eq a)
  len_eq := fun a => (h'.len_eq a).trans (h.len_eq a)

theorem SameRanges.range_eq (h : SameRanges s s') (a : Addr) :
    (s'.frag a).range s'.buff.headSeq = (s.frag a).range s.buff.headSeq := by
  unfold Fragment.range
  rw [h.headSeq_eq, h.seq_eq, h.len_eq]

theorem SameRanges.ranges_eq (h : SameRanges s s') (l : List Addr) : s'.ranges l = s.ranges l :=
  List.map_congr_left fun a _ => h.range_eq a

theorem SameRanges.setFctx (s : RecvState) (p : Option Addr) : SameRanges s (s.setFctx p) :=
  ⟨rfl, rfl, fun _ => rfl, fun _ => rfl⟩

theorem SameRanges.setNext (s : RecvState) (a : Addr) (p : Option Addr) :
    SameRanges s (s.setFrag a { s.frag a with next := p }) where
  headSeq_eq := rfl
  chunkSize_eq := rfl
  seq_eq := by
    intro b
    by_cases hb : b = a
    · subst hb
      simp [RecvState.setFrag]
    · simp [RecvState.setFrag, Function.update_of_ne hb]
  len_eq := by
    intro b
    by_cases hb : b = a
    · subst hb
      simp [RecvState.setFrag]
    · simp [RecvState.setFrag, Function.update_of_ne hb]

theorem RecvState.next_setFrag (s : RecvState) (a : Addr) (f : Fragment) :
    (s.setFrag a f).next = Function.update s.next a f.next := by
  funext b
  unfold RecvState.next RecvState.setFrag
  exact Function.apply_update (fun _ => Fragment.next) s.frag a f b

theorem RecvState.next_setFrag_self (s : RecvState) (a : Addr) (f : Fragment) :
    (s.setFrag a f).next a = f.next := by
  simp [RecvState.next, RecvState.setFrag]

theorem RecvState.next_setFrag_of_ne (s : RecvState) {a b : Addr} (h : b ≠ a) (f : Fragment) :
    (s.setFrag a f).next b = s.next b := by
  simp [RecvState.next, RecvState.setFrag, Function.update_of_ne h]

/-- A list is there as long as its buffer and its own fragments are. -/
theorem FragList.congr (h : FragList s l) (hbuff : s'.buff = s.buff)
    (hfrag : ∀ a ∈ l, s'.frag a = s.frag a) : FragList s' l where
  seg := by
    rw [hbuff]
    refine h.seg.congr fun a ha => ?_
    rw [RecvState.next, hfrag a ha]
    rfl
  gapped := by
    have hranges : s'.ranges l = s.ranges l :=
      List.map_congr_left fun a ha => by rw [hfrag a ha, hbuff]
    rw [hranges]
    exact h.gapped
  inHalf := by
    intro a ha
    rw [hfrag a ha, hbuff]
    exact h.inHalf a ha

theorem FragList.sorted (h : FragList s l) :
    l.Pairwise fun a b => (s.frag a).Before s.buff.headSeq (s.frag b) := by
  have hgap := h.gapped.gap
  rwa [RecvState.ranges, List.pairwise_map] at hgap

theorem FragList.nodup (h : FragList s l) : l.Nodup := by
  refine h.sorted.imp ?_
  rintro a b hab rfl
  simp only [Fragment.Before] at hab
  omega

/-- A fragment that was not merged is linked in between the fragments in front of it and those
behind it. -/
theorem putLink_spec (hlist : FragList s (l₁ ++ l₂)) (hfresh : frag ∉ l₁ ++ l₂)
    (hnext : s.next frag = none) (hhalf : (s.frag frag).InHalf s.buff.headSeq)
    (h₁ : ∀ a ∈ l₁, (s.frag a).Before s.buff.headSeq (s.frag frag))
    (h₂ : ∀ a ∈ l₂, (s.frag frag).Before s.buff.headSeq (s.frag a)) {iter : Option Addr}
    (hseg₁ : Seg s.next s.buff.fctx l₁ iter) (hseg₂ : Seg s.next iter l₂ none)
    (pprev : Option Addr) :
    ∃ s', putLink (s.frag frag).seq
        { s, frag, iter, prev := l₁.getLast?, pprev, merged := false } = .ok s' ∧
      SameRanges s s' ∧ Seg s'.next s'.buff.fctx (l₁ ++ frag :: l₂) none := by
  have hnodup := hlist.nodup
  rcases List.eq_nil_or_concat l₁ with rfl | ⟨l₀, b, rfl⟩
  · -- nothing is in front of it
    have hiter : s.buff.fctx = iter := hseg₁
    cases l₂ with
    | nil =>
      -- the list is empty: the fragment becomes its head
      have hnone : s.buff.fctx = none := hiter.trans hseg₂
      refine ⟨s.setFctx (some frag), ?_, .setFctx _ _, rfl, hnext⟩
      simp only [putLink, hnone, Bool.false_eq_true, if_false]
    | cons b l₂ =>
      -- the fragment goes in front of the head
      obtain ⟨hb, hrest⟩ := hseg₂
      have hmin := getMinSeq_start_of_before (h₂ b List.mem_cons_self)
        (hlist.inHalf b List.mem_cons_self)
      refine ⟨_, ?_, (SameRanges.setNext s frag (some b)).trans
        (.setFctx _ (some frag)), rfl, ?_⟩
      · simp only [putLink, hiter, hb, hmin, Bool.false_eq_true, if_false, if_true]
      · change Seg (s.setFrag frag _).next ((s.setFrag frag _).next frag) _ _
        rw [RecvState.next_setFrag_self]
        have hrest' : Seg s.next (some b) (b :: l₂) none := ⟨rfl, hrest⟩
        refine hrest'.congr fun a ha => s.next_setFrag_of_ne ?_ _
        rintro rfl
        exact hfresh ha
  · -- `b` is the last one in front of it
    rw [List.concat_eq_append] at hlist hfresh hseg₁ h₁ hnodup ⊢
    rw [List.getLast?_concat]
    obtain ⟨r, hseg₀, rfl, hiter⟩ := Lib.seg_append.mp hseg₁
    have hiter : s.next b = iter := hiter
    have hfirst : ∃ first ∈ l₀ ++ [b], s.buff.fctx = some first := by
      cases l₀ with
      | nil => exact ⟨b, by simp, hseg₀⟩
      | cons a l₀ => exact ⟨a, by simp, hseg₀.1⟩
    obtain ⟨first, hmem, hfctx⟩ := hfirst
    have hmin := (getMinSeq_start_of_behind (h₁ first hmem) hhalf).1
    -- the assertion of the source holds: `b` ends before the fragment starts
    have hassert := (getMinSeq_start_of_behind (h₁ b (by simp)) hhalf).2
    have hbf : b ≠ frag := by
      rintro rfl
      exact hfresh (by simp)
    refine ⟨_, ?_, (SameRanges.setNext s b (some frag)).trans
      (SameRanges.setNext _ frag iter), ?_⟩
    · simp only [putLink, hfctx, hmin, hassert, Bool.false_eq_true, if_false,
        if_true]
    · rw [List.append_assoc, List.singleton_append]
      have hseg : Seg s.next s.buff.fctx (l₀ ++ b :: l₂) none := by
        rw [← List.singleton_append, ← List.append_assoc]
        exact hlist.seg
      have hb : b ∉ l₀ ++ l₂ := by
        rw [List.append_assoc, List.singleton_append, List.nodup_middle] at hnodup
        exact (List.nodup_cons.mp hnodup).1
      refine hseg.insert_after ?_ ?_ ?_
      · rw [hiter]
        exact RecvState.next_setFrag_self _ _ _
      · rw [RecvState.next_setFrag_of_ne _ hbf]
        exact RecvState.next_setFrag_self _ _ _
      · intro a ha
        have hab : a ≠ b := by
          rintro rfl
          exact hb ha
        have haf : a ≠ frag := by
          rintro rfl
          refine hfresh ?_
          rcases List.mem_append.mp ha with h | h
          · exact List.mem_append_left _ (List.mem_append_left _ h)
          · exact List.mem_append_right _ h
        rw [RecvState.next_setFrag_of_ne _ haf, RecvState.next_setFrag_of_ne _ hab]

/-- The list with a fragment linked in at its place. -/
theorem FragList.insert (h : FragList s (l₁ ++ l₂))
    (hseg : Seg s'.next s'.buff.fctx (l₁ ++ frag :: l₂) none) (hsame : SameRanges s s')
    (hhalf : (s.frag frag).InHalf s.buff.headSeq) (hpos : 0 < (s.frag frag).len.toNat)
    (h₁ : ∀ a ∈ l₁, (s.frag a).Before s.buff.headSeq (s.frag frag))
    (h₂ : ∀ a ∈ l₂, (s.frag frag).Before s.buff.headSeq (s.frag a)) :
    FragList s' (l₁ ++ frag :: l₂) where
  seg := hseg
  gapped := by
    have hgapped := h.gapped
    rw [RecvState.ranges, List.map_append] at hgapped
    rw [hsame.ranges_eq, RecvState.ranges, List.map_append, List.map_cons]
    refine hgapped.insert hpos ?_ ?_
    · intro b hb
      obtain ⟨a, ha, rfl⟩ := List.mem_map.mp hb
      exact h₁ a ha
    · intro b hb
      obtain ⟨a, ha, rfl⟩ := List.mem_map.mp hb
      exact h₂ a ha
  inHalf := by
    intro a ha
    unfold Fragment.InHalf
    rw [hsame.range_eq]
    rcases List.mem_append.mp ha with ha | ha
    · exact h.inHalf a (List.mem_append_left _ ha)
    rcases List.mem_cons.mp ha with rfl | ha
    · exact hhalf
    · exact h.inHalf a (List.mem_append_right _ ha)

end Link

section Store

variable {s : RecvState} {c : PutCall} {frag : Addr} {l : List Addr} {fuel : ℕ}

/-- **A segment that meets no fragment.** `recv_put` puts it into the list at its place and records
the length of the first fragment. -/
theorem FragList.recvStore (h : FragList s l) (hfresh : frag ∉ l) (hseq : (s.frag frag).seq = c.curSeq)
    (hlen : (s.frag frag).len = c.len) (hnext : s.next frag = none) (hpos : 0 < c.len.toNat)
    (hhalf : (s.frag frag).InHalf s.buff.headSeq)
    (hapart : ∀ a ∈ l, (s.frag a).Before s.buff.headSeq (s.frag frag) ∨
      (s.frag frag).Before s.buff.headSeq (s.frag a))
    (endOff : U32) (hfuel : l.length < fuel) :
    ∃ l₁ l₂ s', l = l₁ ++ l₂ ∧ CmtTcp.recvStore fuel s c frag endOff = .ok (s', c.len) ∧
      SameRanges s s' ∧ FragList s' (l₁ ++ frag :: l₂) ∧
      ∀ first ∈ (l₁ ++ frag :: l₂).head?,
        s'.buff.cumLen = (s'.frag first).len.setWidth 64 := by
  -- the update of `last_len` is not seen by the list
  obtain ⟨s₀, hs₀⟩ : ∃ s₀, s₀ = putLastLen s endOff := ⟨_, rfl⟩
  have hsame₀ : SameRanges s s₀ ∧ s₀.buff.fctx = s.buff.fctx ∧ s₀.frag = s.frag := by
    rw [hs₀, putLastLen]
    split
    · exact ⟨⟨rfl, rfl, fun _ => rfl, fun _ => rfl⟩, rfl, rfl⟩
    · exact ⟨⟨rfl, rfl, fun _ => rfl, fun _ => rfl⟩, rfl, rfl⟩
  obtain ⟨hsame₀, hfctx₀, hfrag₀⟩ := hsame₀
  have hhead₀ := hsame₀.headSeq_eq
  have hnexts : s₀.next = s.next := by
    unfold RecvState.next
    rw [hfrag₀]
  have hlist₀ : FragList s₀ l := by
    refine ⟨?_, ?_, ?_⟩
    · rw [hnexts, hfctx₀]
      exact h.seg
    · rw [hsame₀.ranges_eq]
      exact h.gapped
    · rw [hfrag₀, hhead₀]
      exact h.inHalf
  rw [← hfrag₀, ← hhead₀] at hapart hhalf
  rw [← hfrag₀] at hseq hlen
  rw [← hnexts] at hnext
  -- the loop finds the place, and the link puts the fragment there
  obtain ⟨l₁, l₂, iter, pprev, rfl, h₁, h₂, hseg₁, hseg₂, hloop⟩ :=
    putLoop_of_apart hhalf hlist₀.inHalf hlist₀.sorted hapart hlist₀.seg none none hfuel
  rw [Option.or_none] at hloop
  obtain ⟨s', hlink, hsame, hseg⟩ :=
    putLink_spec hlist₀ hfresh hnext hhalf h₁ h₂ hseg₁ hseg₂ pprev
  have hsame' := hsame₀.trans hsame
  rw [hseq, hlen] at hloop
  rw [hseq] at hlink
  have hlist' : FragList s' (l₁ ++ frag :: l₂) :=
    hlist₀.insert hseg hsame hhalf (by rw [hlen]; exact hpos) h₁ h₂
  -- the first fragment is there
  obtain ⟨first, rest, hfirst⟩ := List.exists_cons_of_ne_nil
    (show l₁ ++ frag :: l₂ ≠ [] by simp)
  have hfctx : s'.buff.fctx = some first := by
    rw [hfirst] at hseg
    exact hseg.1
  refine ⟨l₁, l₂, { s' with buff := { s'.buff with cumLen := (s'.frag first).len.setWidth 64 } }, rfl,
    ?_, ⟨hsame'.headSeq_eq, hsame'.chunkSize_eq, hsame'.seq_eq, hsame'.len_eq⟩,
    ⟨hlist'.seg, hlist'.gapped, hlist'.inHalf⟩, ?_⟩
  · unfold CmtTcp.recvStore
    rw [← hs₀]
    simp only [hloop, hlink, hfctx, bind, Except.bind]
  · intro a ha
    rw [hfirst] at ha
    obtain rfl : first = a := Option.some.inj ha
    rfl

end Store

/-! ### Runs of `recv_put` -/

/-- The segment of a call passes every test of `recv_put`, so that it is stored. -/
def PutCall.passes (buff : RecvBuffer) (c : PutCall) : Bool :=
  c.len ≠ 0 && c.dataPtr.isSome && c.frag.isSome &&
    getMinSeq buff.headSeq c.curSeq = buff.headSeq && !buff.chunkSize.slt (putEndOff buff c)

/-- The fragment a call makes of its segment. -/
def PutCall.fragment (c : PutCall) : Fragment where
  next := none
  seq := c.curSeq
  len := c.len
  dataList := c.dataPtr

/-- The receive buffer and the segments it has accepted. -/
structure RecvHist where
  s : RecvState
  accepted : List (U32 × U32)

/-- One call; a positive result is the number of bytes it accepted. -/
def RecvHist.exec (fuel : ℕ) (h : RecvHist) (c : PutCall) : Except RecvFault RecvHist := do
  let (s, ret) ← recvPut fuel h.s c
  .ok
    { s := s
      accepted := if 0 < ret.toInt then h.accepted ++ [(c.curSeq, c.len)] else h.accepted }

/-- The range of an accepted segment, counted from `head_seq`. -/
def segRange (headSeq : U32) (seg : U32 × U32) : ℕ × ℕ := (seqOff headSeq seg.1, seg.2.toNat)

/-- A run of calls that merges nothing. -/
structure PutRun (buff : RecvBuffer) (calls : List PutCall) : Prop where
  /-- The pool hands out a fragment once: `recv_put` gives none back. -/
  fresh : (calls.filterMap PutCall.frag).Nodup
  /-- `end_off` does not overflow. -/
  inHalf : ∀ c ∈ calls, c.passes buff → c.fragment.InHalf buff.headSeq
  /-- The segments that are stored neither overlap nor touch each other. -/
  apart : calls.Pairwise fun c d => c.passes buff → d.passes buff →
    c.fragment.Before buff.headSeq d.fragment ∨ d.fragment.Before buff.headSeq c.fragment

section Calls

variable {buff : RecvBuffer} {s : RecvState} {c : PutCall}

/-- A call that does not pass the tests accepts nothing, and touches no object but the ones it was
handed. -/
theorem recvPut_of_not_passes (fuel : ℕ) (h : c.passes s.buff = false) :
    ∃ s' ret, recvPut fuel s c = .ok (s', ret) ∧ ¬ 0 < BitVec.toInt ret ∧ s'.buff = s.buff ∧
      ∀ a, c.frag ≠ some a → s'.frag a = s.frag a := by
  unfold recvPut
  -- one case for each `return` in front of the list
  split
  · exact ⟨s, 0, rfl, by decide, rfl, fun _ _ => rfl⟩
  · next hlen =>
    have hlen' : c.len ≠ 0 := by bv_omega
    cases hdp : c.dataPtr with
    | none => exact ⟨s, -1, rfl, by decide, rfl, fun _ _ => rfl⟩
    | some dp =>
      cases hfrag : c.frag with
      | none => exact ⟨_, -1, rfl, by decide, rfl, fun _ _ => rfl⟩
      | some frag =>
        have hother : ∀ a, (some frag : Option Addr) ≠ some a → ∀ f,
            Function.update s.frag frag f a = s.frag a := by
          intro a hne f
          refine Function.update_of_ne ?_ _ _
          rintro rfl
          exact hne rfl
        dsimp only
        split
        · exact ⟨_, 0, rfl, by decide, rfl, fun a ha => hother a ha _⟩
        · next hmin =>
          split
          · exact ⟨_, -2, rfl, by decide, rfl, fun a ha => hother a ha _⟩
          · next hchunk =>
            -- every test was passed
            have hmin' : getMinSeq s.buff.headSeq c.curSeq = s.buff.headSeq := not_not.mp hmin
            have hchunk' : s.buff.chunkSize.slt (putEndOff s.buff c) = false :=
              Bool.eq_false_iff.mpr hchunk
            exact absurd (by simpa [PutCall.passes, hdp, hfrag, hmin', hchunk'] using h) hlen'

/-- A call that passes the tests makes its fragment and stores it. -/
theorem recvPut_of_passes (fuel : ℕ) (h : c.passes s.buff = true) :
    ∃ dp d frag, c.frag = some frag ∧
      recvPut fuel s c =
        recvStore fuel ((s.setDptr dp d).setFrag frag c.fragment) c frag (putEndOff s.buff c) := by
  simp only [PutCall.passes, Bool.and_eq_true, decide_eq_true_eq, Bool.not_eq_true',
    Option.isSome_iff_exists] at h
  obtain ⟨⟨⟨⟨hlen, dp, hdp⟩, frag, hfrag⟩, hmin⟩, hchunk⟩ := h
  refine ⟨dp, { s.dptr dp with seq := c.curSeq, len := c.len, data := c.data }, frag, hfrag, ?_⟩
  unfold recvPut
  rw [if_neg (by bv_omega), hdp, hfrag]
  unfold PutCall.fragment
  rw [hdp]
  refine (if_neg (not_not.mpr hmin)).trans (if_neg ?_)
  rw [RecvState.setFrag_buff, RecvState.setDptr_buff, hchunk]
  exact Bool.false_ne_true

theorem PutCall.len_pos (hc : c.passes buff = true) : 0 < c.len.toNat := by
  have hlen : c.len ≠ 0 := by
    simp only [PutCall.passes, Bool.and_eq_true, decide_eq_true_eq] at hc
    exact hc.1.1.1.1
  bv_omega

/-- **A call for a segment that meets no fragment.** The segment is accepted; in front of the insertion, its
fragment is written to an object that is not on the list. -/
theorem FragList.recvPut {l : List Addr} {fuel : ℕ} (h : FragList s l) (hc : c.passes s.buff = true)
    (hfresh : ∀ a ∈ l, c.frag ≠ some a) (hhalf : c.fragment.InHalf s.buff.headSeq)
    (hapart : ∀ a ∈ l, (s.frag a).Before s.buff.headSeq c.fragment ∨
      c.fragment.Before s.buff.headSeq (s.frag a))
    (hfuel : l.length < fuel) :
    ∃ frag l₁ l₂ s₀ s', c.frag = some frag ∧ l = l₁ ++ l₂ ∧ s₀.buff = s.buff ∧
      s₀.frag frag = c.fragment ∧ (∀ a ∈ l, s₀.frag a = s.frag a) ∧
      CmtTcp.recvPut fuel s c = .ok (s', c.len) ∧ SameRanges s₀ s' ∧ FragList s' (l₁ ++ frag :: l₂) ∧
      ∀ first ∈ (l₁ ++ frag :: l₂).head?, s'.buff.cumLen = (s'.frag first).len.setWidth 64 := by
  obtain ⟨dp, d, frag, hfrag, hput⟩ := recvPut_of_passes fuel hc
  have hpos := PutCall.len_pos hc
  have hnotin : frag ∉ l := fun ha => hfresh frag ha hfrag
  obtain ⟨s₀, hs₀⟩ : ∃ s₀, s₀ = (s.setDptr dp d).setFrag frag c.fragment := ⟨_, rfl⟩
  have hbuff₀ : s₀.buff = s.buff := by rw [hs₀]; rfl
  have hnew : s₀.frag frag = c.fragment := by
    rw [hs₀]
    exact Function.update_self ..
  have hsame₀ : ∀ a ∈ l, s₀.frag a = s.frag a := by
    rintro a ha
    rw [hs₀]
    refine Function.update_of_ne ?_ _ _
    rintro rfl
    exact hnotin ha
  have hlist₀ : FragList s₀ l := h.congr hbuff₀ hsame₀
  have hapart₀ : ∀ a ∈ l, (s₀.frag a).Before s₀.buff.headSeq (s₀.frag frag) ∨
      (s₀.frag frag).Before s₀.buff.headSeq (s₀.frag a) := by
    intro a ha
    rw [hsame₀ a ha, hnew, hbuff₀]
    exact hapart a ha
  obtain ⟨l₁, l₂, s', rfl, hstore, hsame, hlist', hcum⟩ :=
    hlist₀.recvStore (c := c) hnotin (by rw [hnew]; rfl) (by rw [hnew]; rfl)
      (by rw [RecvState.next, hnew]; rfl) hpos (by rw [hnew, hbuff₀]; exact hhalf) hapart₀
      (putEndOff s.buff c) hfuel
  rw [← hs₀, hstore] at hput
  exact ⟨frag, l₁, l₂, s₀, s', hfrag, rfl, hbuff₀, hnew, hsame₀, hput, hsame, hlist', hcum⟩

end Calls

/-- What a run that merges nothing leaves behind: the fragments are the accepted segments, and the
recorded length is that of the first fragment. -/
structure RecvInv (buff : RecvBuffer) (done : List PutCall) (h : RecvHist) (l : List Addr) :
    Prop where
  list : FragList h.s l
  used : ∀ a ∈ l, a ∈ done.filterMap PutCall.frag
  ranges : (h.s.ranges l).Perm (h.accepted.map (segRange buff.headSeq))
  accepted_eq : h.accepted = (done.filter (PutCall.passes buff)).map fun c => (c.curSeq, c.len)
  headSeq_eq : h.s.buff.headSeq = buff.headSeq
  chunkSize_eq : h.s.buff.chunkSize = buff.chunkSize
  cumLen_nil : l = [] → h.s.buff.cumLen = buff.cumLen
  cumLen_cons : ∀ a ∈ l.head?, h.s.buff.cumLen = (h.s.frag a).len.setWidth 64

section RunInv

variable {buff : RecvBuffer} {done rest : List PutCall} {h : RecvHist} {l : List Addr} {c : PutCall}

theorem RecvInv.passes_eq (hinv : RecvInv buff done h l) (c : PutCall) :
    c.passes h.s.buff = c.passes buff := by
  unfold PutCall.passes putEndOff
  rw [hinv.headSeq_eq, hinv.chunkSize_eq]

theorem RecvInv.length_le (hinv : RecvInv buff done h l) : l.length ≤ done.length := by
  have hperm := hinv.ranges.length_eq
  rw [hinv.accepted_eq] at hperm
  simp only [RecvState.ranges, List.length_map] at hperm
  rw [hperm]
  exact List.length_filter_le _ _

/-- A call that stores nothing. -/
theorem RecvInv.skip (hinv : RecvInv buff done h l) (hrun : PutRun buff (done ++ c :: rest))
    (hc : c.passes buff = false) (fuel : ℕ) :
    ∃ h', h.exec fuel c = .ok h' ∧ RecvInv buff (done ++ [c]) h' l := by
  obtain ⟨s', ret, hput, hret, hbuff, hfrag⟩ :=
    recvPut_of_not_passes fuel ((hinv.passes_eq c).trans hc)
  -- the objects of the call are not on the list
  have hsame : ∀ a ∈ l, s'.frag a = h.s.frag a := by
    intro a ha
    apply hfrag
    intro hca
    have hnodup := hrun.fresh
    rw [List.filterMap_append, List.filterMap_cons_some hca, List.nodup_middle] at hnodup
    exact (List.nodup_cons.mp hnodup).1 (List.mem_append_left _ (hinv.used a ha))
  refine ⟨{ s := s', accepted := h.accepted }, ?_, ?_⟩
  · simp only [RecvHist.exec, hput, bind, Except.bind, if_neg hret]
  · have hranges : s'.ranges l = h.s.ranges l :=
      List.map_congr_left fun a ha => by rw [hsame a ha, hbuff]
    refine { list := hinv.list.congr hbuff hsame, used := ?_, ranges := ?_, accepted_eq := ?_
             headSeq_eq := by rw [hbuff]; exact hinv.headSeq_eq
             chunkSize_eq := by rw [hbuff]; exact hinv.chunkSize_eq
             cumLen_nil := by rw [hbuff]; exact hinv.cumLen_nil
             cumLen_cons := ?_ }
    · intro a ha
      rw [List.filterMap_append]
      exact List.mem_append_left _ (hinv.used a ha)
    · rw [hranges]
      exact hinv.ranges
    · rw [List.filter_append, List.filter_singleton, hc, hinv.accepted_eq]
      simp
    · intro a ha
      rw [hbuff, hsame a (List.mem_of_mem_head? ha)]
      exact hinv.cumLen_cons a ha

/-- Every fragment on the list is that of a call that passed the tests. -/
theorem RecvInv.exists_call (hinv : RecvInv buff done h l) {a : Addr} (ha : a ∈ l) :
    ∃ d ∈ done, d.passes buff = true ∧
      (h.s.frag a).range h.s.buff.headSeq = d.fragment.range buff.headSeq := by
  have hmem : (h.s.frag a).range h.s.buff.headSeq ∈ h.s.ranges l := List.mem_map_of_mem ha
  obtain ⟨seg, hseg, hrange⟩ := List.mem_map.mp ((hinv.ranges.mem_iff).mp hmem)
  rw [hinv.accepted_eq] at hseg
  obtain ⟨d, hd, rfl⟩ := List.mem_map.mp hseg
  obtain ⟨hdone, hpass⟩ := List.mem_filter.mp hd
  exact ⟨d, hdone, hpass, hrange.symm⟩

/-- A call that stores its segment. -/
theorem RecvInv.store (hinv : RecvInv buff done h l) (hrun : PutRun buff (done ++ c :: rest))
    (hc : c.passes buff = true) {fuel : ℕ} (hfuel : done.length < fuel) :
    ∃ h' l', h.exec fuel c = .ok h' ∧ RecvInv buff (done ++ [c]) h' l' := by
  have hhead := hinv.headSeq_eq
  have hhalf := hrun.inHalf c (by simp) hc
  have hfresh : ∀ a ∈ l, c.frag ≠ some a := by
    intro a ha hfrag
    have hnodup := hrun.fresh
    rw [List.filterMap_append, List.filterMap_cons_some hfrag, List.nodup_middle] at hnodup
    exact (List.nodup_cons.mp hnodup).1 (List.mem_append_left _ (hinv.used a ha))
  have hapart : ∀ a ∈ l, (h.s.frag a).Before h.s.buff.headSeq c.fragment ∨
      c.fragment.Before h.s.buff.headSeq (h.s.frag a) := by
    intro a ha
    obtain ⟨d', hd', hpass, hrange⟩ := hinv.exists_call ha
    -- the fragment on the list is that of an earlier call, and the run keeps the two apart
    have hpair := (List.pairwise_append.mp hrun.apart).2.2 d' hd' c List.mem_cons_self hpass hc
    unfold Fragment.Before at hpair ⊢
    rw [hrange, hhead]
    exact hpair
  obtain ⟨frag, l₁, l₂, s₀, s', hfrag, rfl, hbuff₀, hnew, hsame₀, hput, hsame, hlist', hcum⟩ :=
    hinv.list.recvPut ((hinv.passes_eq c).trans hc) hfresh (by rw [hhead]; exact hhalf) hapart
      (Nat.lt_of_le_of_lt hinv.length_le hfuel)
  have hret : 0 < c.len.toInt := by
    have hpos := PutCall.len_pos hc
    simp only [Fragment.InHalf, Fragment.range, PutCall.fragment] at hhalf
    rw [BitVec.toInt_eq_toNat_of_lt (by omega)]
    omega
  refine ⟨{ s := s', accepted := h.accepted ++ [(c.curSeq, c.len)] }, l₁ ++ frag :: l₂, ?_, ?_⟩
  · simp only [RecvHist.exec, hput, bind, Except.bind, if_pos hret]
  · refine { list := hlist', used := ?_, ranges := ?_, accepted_eq := ?_
             headSeq_eq := by rw [hsame.headSeq_eq, hbuff₀]; exact hinv.headSeq_eq
             chunkSize_eq := by rw [hsame.chunkSize_eq, hbuff₀]; exact hinv.chunkSize_eq
             cumLen_nil := fun hnil => absurd hnil (by simp)
             cumLen_cons := hcum }
    · intro a ha
      rw [List.filterMap_append, List.filterMap_cons_some hfrag]
      rcases List.mem_append.mp ha with ha | ha
      · exact List.mem_append_left _ (hinv.used a (List.mem_append_left _ ha))
      rcases List.mem_cons.mp ha with rfl | ha
      · simp
      · exact List.mem_append_left _ (hinv.used a (List.mem_append_right _ ha))
    · -- the ranges are those there were, and the one of the call
      have hranges : s₀.ranges (l₁ ++ l₂) = h.s.ranges (l₁ ++ l₂) :=
        List.map_congr_left fun a ha => by rw [hsame₀ a ha, hbuff₀]
      have hrange : (s₀.frag frag).range s₀.buff.headSeq =
          segRange buff.headSeq (c.curSeq, c.len) := by
        rw [hnew, hbuff₀, hhead]
        rfl
      change s'.ranges _ ~ _
      calc s'.ranges (l₁ ++ frag :: l₂)
          = s₀.ranges (l₁ ++ frag :: l₂) := hsame.ranges_eq _
        _ = s₀.ranges l₁ ++ (s₀.frag frag).range s₀.buff.headSeq :: s₀.ranges l₂ := by
            simp only [RecvState.ranges, List.map_append, List.map_cons]
        _ ~ (s₀.frag frag).range s₀.buff.headSeq :: (s₀.ranges l₁ ++ s₀.ranges l₂) :=
            List.perm_middle
        _ = segRange buff.headSeq (c.curSeq, c.len) :: h.s.ranges (l₁ ++ l₂) := by
            rw [hrange, ← hranges]
            simp only [RecvState.ranges, List.map_append]
        _ ~ segRange buff.headSeq (c.curSeq, c.len) :: h.accepted.map (segRange buff.headSeq) :=
            hinv.ranges.cons _
        _ ~ (h.accepted ++ [(c.curSeq, c.len)]).map (segRange buff.headSeq) := by
            rw [List.map_append]
            exact (List.perm_append_singleton _ _).symm
    · rw [List.filter_append, List.filter_singleton, hc, hinv.accepted_eq]
      simp

/-- A receive buffer that holds nothing. -/
theorem RecvInv.initial (hempty : buff.fctx = none) (frag : Addr → Fragment)
    (dptr : Addr → DataPtr) :
    RecvInv buff [] { s := { buff, frag, dptr }, accepted := [] } [] where
  list := ⟨hempty, Lib.gapped_nil, fun _ h => by cases h⟩
  used := fun _ h => by cases h
  ranges := .refl _
  accepted_eq := rfl
  headSeq_eq := rfl
  chunkSize_eq := rfl
  cumLen_nil := fun _ => rfl
  cumLen_cons := fun _ h => by cases h

/-- Every call of a run that merges nothing returns, and the invariant holds at the end. -/
theorem RecvInv.run {calls : List PutCall} (hrun : PutRun buff calls) (hempty : buff.fctx = none)
    (frag : Addr → Fragment) (dptr : Addr → DataPtr) {fuel : ℕ} (hfuel : calls.length < fuel) :
    ∃ h l, calls.foldlM (RecvHist.exec fuel) { s := { buff, frag, dptr }, accepted := [] } = .ok h ∧
      RecvInv buff calls h l := by
  have hstep : ∀ done c rest h, calls = done ++ c :: rest → (∃ l, RecvInv buff done h l) →
      ∃ h', h.exec fuel c = .ok h' ∧ ∃ l, RecvInv buff (done ++ [c]) h' l := by
    rintro done c rest h rfl ⟨l, hinv⟩
    -- a call either stores its segment or changes nothing on the list
    cases hc : c.passes buff with
    | false =>
      obtain ⟨h', hexec, hinv'⟩ := hinv.skip hrun hc fuel
      exact ⟨h', hexec, l, hinv'⟩
    | true =>
      rw [List.length_append] at hfuel
      have hlen : done.length < fuel := Nat.lt_of_le_of_lt (Nat.le_add_right _ _) hfuel
      obtain ⟨h', l', hexec, hinv'⟩ := hinv.store hrun hc hlen
      exact ⟨h', hexec, l', hinv'⟩
  obtain ⟨h, hok, l, hinv⟩ := Lib.foldlM_ok_of_history
    (fun done h => ∃ l, RecvInv buff done h l) ⟨[], RecvInv.initial hempty frag dptr⟩ calls hstep
  exact ⟨h, l, hok, hinv⟩

end RunInv

/-! ### Reassembly is exact -/

/-- The segment of a call lies inside the buffer's window. -/
def PutCall.InWindow (buff : RecvBuffer) (c : PutCall) : Prop :=
  ((seqOff buff.headSeq c.curSeq + c.len.toNat : ℕ) : ℤ) ≤ buff.chunkSize.toInt

/-- There is something to store, and the pools have room for it. -/
def PutCall.stores (c : PutCall) : Bool := c.len ≠ 0 && c.dataPtr.isSome && c.frag.isSome

/-- Calls inside the window whose segments neither overlap nor touch. -/
structure WindowRun (buff : RecvBuffer) (calls : List PutCall) : Prop where
  fresh : (calls.filterMap PutCall.frag).Nodup
  inWindow : ∀ c ∈ calls, c.InWindow buff
  apart : calls.Pairwise fun c d => c.stores → d.stores →
    c.fragment.Before buff.headSeq d.fragment ∨ d.fragment.Before buff.headSeq c.fragment

/-- The fragment list at the addresses `l` is exactly what was received: its fragments ascend, none
can be merged with another, and together they cover the accepted segments. -/
structure Reassembled (buff : RecvBuffer) (h : RecvHist) (l : List Addr) : Prop where
  list : Seg h.s.next h.s.buff.fctx l none
  pos : ∀ a ∈ l, 0 < (h.s.frag a).len.toNat
  sorted : l.Pairwise fun a b => (h.s.frag a).Before buff.headSeq (h.s.frag b)
  apart : l.Pairwise fun a b =>
    canMerge (h.s.frag a) (h.s.frag b) = false ∧ canMerge (h.s.frag b) (h.s.frag a) = false
  covers_iff : ∀ i, Covers (l.map fun a => (h.s.frag a).range buff.headSeq) i ↔
    Covers (h.accepted.map (segRange buff.headSeq)) i

section Exact

variable {buff : RecvBuffer} {h h' : RecvHist} {l l' : List Addr} {calls : List PutCall}

/-- Inside the window only the pools and an empty segment keep a call from storing. -/
theorem PutCall.passes_eq_stores {c : PutCall} (hwin : c.InWindow buff) :
    c.passes buff = c.stores ∧ c.fragment.InHalf buff.headSeq := by
  unfold PutCall.InWindow at hwin
  have hhalf : seqOff buff.headSeq c.curSeq + c.len.toNat < 2 ^ 31 := by
    have := buff.chunkSize.toInt_lt
    omega
  have hend : (putEndOff buff c).toInt = seqOff buff.headSeq c.curSeq + c.len.toNat := by
    have htoNat : (putEndOff buff c).toNat = seqOff buff.headSeq c.curSeq + c.len.toNat := by
      unfold putEndOff seqOff at *
      bv_omega
    rw [BitVec.toInt_eq_toNat_of_lt (by omega), htoNat]
    rfl
  -- so the two guards of `recv_put` on sequence numbers do not fire
  have hmin : getMinSeq buff.headSeq c.curSeq = buff.headSeq := by
    apply getMinSeq_of_sub_lt
    unfold seqOff at hhalf
    omega
  have hchunk : buff.chunkSize.slt (putEndOff buff c) = false := by
    rw [BitVec.slt_eq_decide, decide_eq_false_iff_not, hend]
    push_cast at hwin
    omega
  refine ⟨?_, hhalf⟩
  simp [PutCall.passes, PutCall.stores, hmin, hchunk]

theorem WindowRun.putRun (hrun : WindowRun buff calls) : PutRun buff calls where
  fresh := hrun.fresh
  inHalf := fun c hc _ => (PutCall.passes_eq_stores (hrun.inWindow c hc)).2
  apart := by
    refine hrun.apart.imp_of_mem ?_
    intro c d hc hd hapart hcp hdp
    rw [(PutCall.passes_eq_stores (hrun.inWindow c hc)).1] at hcp
    rw [(PutCall.passes_eq_stores (hrun.inWindow d hd)).1] at hdp
    exact hapart hcp hdp

theorem covers_perm {r r' : List (ℕ × ℕ)} (hperm : r.Perm r') (i : ℕ) :
    Covers r i ↔ Covers r' i := by
  unfold Covers
  simp only [hperm.mem_iff]

theorem RecvInv.ranges_eq {done : List PutCall} (hinv : RecvInv buff done h l) :
    h.s.ranges l = l.map fun a => (h.s.frag a).range buff.headSeq := by
  unfold RecvState.ranges
  rw [hinv.headSeq_eq]

theorem RecvInv.reassembled {done : List PutCall} (hinv : RecvInv buff done h l) :
    Reassembled buff h l where
  list := hinv.list.seg
  pos := fun a ha => hinv.list.gapped.pos _ (List.mem_map_of_mem ha)
  sorted := by
    rw [← hinv.headSeq_eq]
    exact hinv.list.sorted
  apart := by
    refine hinv.list.sorted.imp_of_mem ?_
    intro a b _ hb hab
    exact canMerge_of_before hab (hinv.list.inHalf b hb)
  covers_iff := by
    intro i
    rw [← hinv.ranges_eq]
    exact covers_perm hinv.ranges i

theorem Reassembled.gapped (hr : Reassembled buff h l) :
    Gapped (l.map fun a => (h.s.frag a).range buff.headSeq) where
  pos := by
    intro b hb
    obtain ⟨a, ha, rfl⟩ := List.mem_map.mp hb
    exact hr.pos a ha
  gap := List.pairwise_map.mpr hr.sorted

/-- The fragments are determined by the accepted segments, in whatever order they came. -/
theorem Reassembled.eq_of_accepted (hr : Reassembled buff h l) (hr' : Reassembled buff h' l')
    (hsame : ∀ seg, seg ∈ h.accepted ↔ seg ∈ h'.accepted) :
    l.map (fun a => ((h.s.frag a).seq, (h.s.frag a).len)) =
      l'.map fun a => ((h'.s.frag a).seq, (h'.s.frag a).len) := by
  have hranges := hr.gapped.eq_of_covers hr'.gapped fun i => by
    rw [hr.covers_iff, hr'.covers_iff]
    simp only [Covers, List.mem_map, hsame]
  -- a range gives back the sequence number and the length
  have hinj : Function.Injective (segRange buff.headSeq) := by
    rintro ⟨seq, len⟩ ⟨seq', len'⟩ heq
    simp only [segRange, Prod.mk.injEq] at heq
    obtain ⟨hseq, hlen⟩ := heq
    rw [seqOff_injective hseq, BitVec.eq_of_toNat_eq hlen]
  apply List.map_injective_iff.mpr hinj
  rw [List.map_map, List.map_map]
  exact hranges

end Exact

/-- **When reassembly is exact and independent of the order of arrival.** Inside the window, in every
run of calls whose stored segments neither overlap nor touch: every call returns, every segment
there is room for is accepted, and the fragment list is exactly what was received. Any other run
of this kind that accepts the same segments ends with the same fragments. -/
theorem recvPut_reassembles (buff : RecvBuffer) (hempty : buff.fctx = none) (frag : Addr → Fragment)
    (dptr : Addr → DataPtr) (calls : List PutCall) (hrun : WindowRun buff calls) (fuel : ℕ)
    (hfuel : calls.length < fuel) :
    ∃ h l, calls.foldlM (RecvHist.exec fuel) { s := { buff, frag, dptr }, accepted := [] } = .ok h ∧
      h.accepted = (calls.filter PutCall.stores).map (fun c => (c.curSeq, c.len)) ∧
      Reassembled buff h l ∧
      ∀ frag' dptr' calls' fuel', WindowRun buff calls' → calls'.length < fuel' →
        ∃ h' l', calls'.foldlM (RecvHist.exec fuel')
            { s := { buff, frag := frag', dptr := dptr' }, accepted := [] } = .ok h' ∧
          Reassembled buff h' l' ∧
          ((∀ seg, seg ∈ h.accepted ↔ seg ∈ h'.accepted) →
            l.map (fun a => ((h.s.frag a).seq, (h.s.frag a).len)) =
              l'.map fun a => ((h'.s.frag a).seq, (h'.s.frag a).len)) := by
  obtain ⟨h, l, hok, hinv⟩ := RecvInv.run hrun.putRun hempty frag dptr hfuel
  refine ⟨h, l, hok, ?_, hinv.reassembled, ?_⟩
  · rw [hinv.accepted_eq, List.filter_congr fun c hc =>
      (PutCall.passes_eq_stores (hrun.inWindow c hc)).1]
  · intro frag' dptr' calls' fuel' hrun' hfuel'
    obtain ⟨h', l', hok', hinv'⟩ := RecvInv.run hrun'.putRun hempty frag' dptr' hfuel'
    exact ⟨h', l', hok', hinv'.reassembled, hinv.reassembled.eq_of_accepted hinv'.reassembled⟩

/-- A receive buffer of 100 bytes at sequence number `0xFFFFFFF8`. -/
def wrapBuffer : RecvBuffer where
  cumLen := 0
  lastLen := 0
  chunkSize := 100
  headSeq := 0xFFFFFFF8
  initSeq := 0xFFFFFFF8
  fctx := none

/-- A call for the segment `[curSeq, curSeq + len)` that is handed the objects at `a`. -/
def putAt (a : Addr) (curSeq len : U32) : PutCall where
  data := 0
  len := len
  curSeq := curSeq
  dataPtr := some a
  frag := some a

/-- Data pointers whose `next` still holds what it held in an earlier life. -/
def staleData (next : Option Addr) : Addr → DataPtr := fun _ =>
  { seq := 0, len := 0, data := 0, next := next }

/-- A segment behind the wrap, then one in front of it: the list is in order. -/
theorem recvPut_reassembles_wrap :
    ∃ h l, [putAt 1 2 5, putAt 2 0xFFFFFFF8 4].foldlM (RecvHist.exec 3)
        { s := { buff := wrapBuffer, frag := fun _ => (putAt 0 0 0).fragment,
                 dptr := staleData none }, accepted := [] } = .ok h ∧
      h.accepted = [(2, 5), (0xFFFFFFF8, 4)] ∧ Reassembled wrapBuffer h l := by
  have hrun : WindowRun wrapBuffer [putAt 1 2 5, putAt 2 0xFFFFFFF8 4] := by
    refine ⟨by decide, ?_, ?_⟩
    · intro c hc
      simp only [List.mem_cons, List.not_mem_nil, or_false] at hc
      rcases hc with rfl | rfl
      · unfold PutCall.InWindow
        decide
      · unfold PutCall.InWindow
        decide
    · refine List.pairwise_pair.mpr fun _ _ => .inr ?_
      unfold Fragment.Before
      decide
  obtain ⟨h, l, hok, hacc, hr, -⟩ :=
    recvPut_reassembles wrapBuffer rfl _ _ _ hrun 3 (by decide)
  exact ⟨h, l, hok, hacc, hr⟩

/-- A receive buffer of 100 bytes at sequence number `0`. -/
def zeroBuffer : RecvBuffer where
  cumLen := 0
  lastLen := 0
  chunkSize := 100
  headSeq := 0
  initSeq := 0
  fctx := none

/-- Bytes `0 .. 9` and then bytes `10 .. 19`. If `next` of the first data pointer happens to be
`NULL`, the second call dereferences it. If it happens to point to the right place, both segments
are accepted and the list holds the first one only. -/
theorem recvPut_loses_merged :
    [putAt 1 0 10, putAt 2 10 10].foldlM (RecvHist.exec 5)
        { s := { buff := zeroBuffer, frag := fun _ => (putAt 0 0 0).fragment,
                 dptr := staleData none }, accepted := [] } = .error .nullDeref ∧
      ∃ h, [putAt 1 0 10, putAt 2 10 10].foldlM (RecvHist.exec 5)
          { s := { buff := zeroBuffer, frag := fun _ => (putAt 0 0 0).fragment,
                   dptr := staleData (some 2) }, accepted := [] } = .ok h ∧
        h.accepted = [(0, 10), (10, 10)] ∧ ¬ ∃ l, Reassembled zeroBuffer h l := by
  refine ⟨rfl, _, rfl, rfl, ?_⟩
  rintro ⟨l, hr⟩
  have hlist := hr.list
  -- the list has one fragment, the one of the first call
  obtain rfl : l = [1] := Lib.Seg.unique hlist ⟨rfl, rfl⟩
  have hcov := (hr.covers_iff 15).mpr ⟨(10, 10), by decide, by unfold InInterval; decide⟩
  obtain ⟨a, ha, hin⟩ := hcov
  obtain rfl := List.mem_singleton.mp ha
  exact absurd hin.2 (by decide)

/-! ### The recorded length -/

section CumLen

variable {buff : RecvBuffer} {h : RecvHist} {l : List Addr} {calls done rest : List PutCall}

theorem PutRun.of_append (hrun : PutRun buff (done ++ rest)) : PutRun buff done where
  fresh := by
    have hfresh := hrun.fresh
    rw [List.filterMap_append] at hfresh
    exact hfresh.of_append_left
  inHalf := fun c hc => hrun.inHalf c (List.mem_append_left _ hc)
  apart := (List.pairwise_append.mp hrun.apart).1

/-- The first fragment tells how far the bytes run from `head_seq`. -/
theorem RecvInv.isRun_iff (hinv : RecvInv buff done h l) (hzero : buff.cumLen = 0) :
    IsRun (Covers (h.accepted.map (segRange buff.headSeq))) h.s.buff.cumLen.toNat ↔
      ∀ a ∈ l.head?, ((h.s.frag a).range buff.headSeq).1 = 0 := by
  have hcov : Covers (h.accepted.map (segRange buff.headSeq)) =
      Covers (l.map fun a => (h.s.frag a).range buff.headSeq) := by
    funext i
    exact propext (hinv.reassembled.covers_iff i).symm
  rw [hcov]
  cases l with
  | nil =>
    -- nothing is received, and nothing is recorded
    rw [hinv.cumLen_nil rfl, hzero]
    refine iff_of_true ⟨fun i hi => absurd hi (Nat.not_lt_zero i), by simp⟩ ?_
    intro a ha
    cases ha
  | cons a l =>
    have hgapped := hinv.reassembled.gapped
    have hcum : h.s.buff.cumLen.toNat = ((h.s.frag a).range buff.headSeq).2 := by
      rw [hinv.cumLen_cons a rfl, BitVec.toNat_setWidth_of_le (by decide)]
      rfl
    rw [hcum]
    constructor
    · intro hisRun b hb
      obtain rfl : a = b := Option.some.inj hb
      by_contra hne
      -- behind a gap the bytes do not run at all, but a fragment is not empty
      have hpos := hgapped.pos _ List.mem_cons_self
      have hzeroRun := hisRun.unique (hgapped.isRun_zero (Nat.pos_of_ne_zero hne))
      exact absurd hzeroRun (Nat.ne_of_gt hpos)
    · intro hstart
      exact hgapped.isRun_cons (hstart a rfl)

/-- Once the segment at `head_seq` is there, the list starts with it. -/
theorem RecvInv.head_of_accepted (hinv : RecvInv buff done h l) {len : U32}
    (hmem : (buff.headSeq, len) ∈ h.accepted) :
    ∀ a ∈ l.head?, ((h.s.frag a).range buff.headSeq).1 = 0 := by
  intro a ha
  obtain ⟨l', rfl⟩ : ∃ l', l = a :: l' := List.head?_eq_some_iff.mp ha
  have hrange : segRange buff.headSeq (buff.headSeq, len) ∈ h.s.ranges (a :: l') :=
    hinv.ranges.mem_iff.mpr (List.mem_map_of_mem hmem)
  -- byte `0` is covered, and the first fragment starts no later than any covered byte
  have hcov : Covers ((a :: l').map fun a => (h.s.frag a).range buff.headSeq) 0 := by
    rw [← hinv.ranges_eq]
    refine ⟨_, hrange, ?_⟩
    have hpos := hinv.list.gapped.pos _ hrange
    simp only [segRange, seqOff_self] at hpos ⊢
    exact ⟨le_rfl, by omega⟩
  exact Nat.le_zero.mp (hinv.reassembled.gapped.start_le hcov)

/-- The list is empty until a segment is stored. -/
theorem RecvInv.exists_accepted (hinv : RecvInv buff done h l) (hne : l ≠ []) :
    ∃ c, done.find? (PutCall.passes buff) = some c ∧ (c.curSeq, c.len) ∈ h.accepted := by
  obtain ⟨a, ha⟩ := List.exists_mem_of_ne_nil l hne
  obtain ⟨d, hd, hpass, -⟩ := hinv.exists_call ha
  obtain ⟨c, hc⟩ := Option.isSome_iff_exists.mp (List.find?_isSome.mpr ⟨d, hd, hpass⟩)
  refine ⟨c, hc, ?_⟩
  rw [hinv.accepted_eq]
  exact List.mem_map_of_mem
    (List.mem_filter.mpr ⟨List.mem_of_find?_eq_some hc, List.find?_some hc⟩)

/-- When the first segment stored is the only one, the list starts with it. -/
theorem RecvInv.head_of_single (hinv : RecvInv buff done h l) {c : PutCall}
    (hsingle : h.accepted = [(c.curSeq, c.len)])
    (hstart : ∀ a ∈ l.head?, ((h.s.frag a).range buff.headSeq).1 = 0) :
    c.curSeq = buff.headSeq := by
  have hperm := hinv.ranges
  rw [hsingle, List.map_singleton, List.perm_singleton, RecvState.ranges] at hperm
  cases l with
  | nil => cases hperm
  | cons a l =>
    have hrange : (h.s.frag a).range h.s.buff.headSeq = segRange buff.headSeq (c.curSeq, c.len) :=
      (List.cons.inj hperm).1
    have hzero := hstart a rfl
    rw [← hinv.headSeq_eq, hrange] at hzero
    exact seqOff_eq_zero.mp hzero

end CumLen

/-- **When the recorded length is the length of the run of received bytes.** In a run of calls that
merges nothing and overflows nothing, `cum_len` is after every call the number of received bytes that
follow each other from `head_seq` on, if and only if the first segment that is stored starts at
`head_seq`. -/
theorem cumLen_isRun_iff (buff : RecvBuffer) (hempty : buff.fctx = none) (hzero : buff.cumLen = 0)
    (frag : Addr → Fragment) (dptr : Addr → DataPtr) (calls : List PutCall)
    (hrun : PutRun buff calls) (fuel : ℕ) (hfuel : calls.length < fuel) :
    (∀ done rest, calls = done ++ rest →
      ∃ h, done.foldlM (RecvHist.exec fuel) { s := { buff, frag, dptr }, accepted := [] } = .ok h ∧
        IsRun (Covers (h.accepted.map (segRange buff.headSeq))) h.s.buff.cumLen.toNat) ↔
      ∀ c ∈ calls.find? (PutCall.passes buff), c.curSeq = buff.headSeq := by
  have hprefix : ∀ done rest, calls = done ++ rest →
      ∃ h l, done.foldlM (RecvHist.exec fuel) { s := { buff, frag, dptr }, accepted := [] } = .ok h ∧
        RecvInv buff done h l := by
    rintro done rest rfl
    rw [List.length_append] at hfuel
    exact RecvInv.run hrun.of_append hempty frag dptr (Nat.lt_of_le_of_lt (Nat.le_add_right _ _) hfuel)
  constructor
  · intro h c hc
    -- look at the state after the first segment that is stored
    obtain ⟨hpass, before, behind, hcalls, hbefore⟩ := List.find?_eq_some_iff_append.mp hc
    have hsplit : calls = (before ++ [c]) ++ behind := by rw [hcalls, List.append_assoc]; rfl
    obtain ⟨h₁, hok₁, hisRun⟩ := h _ _ hsplit
    obtain ⟨h₂, l, hok₂, hinv⟩ := hprefix _ _ hsplit
    obtain rfl : h₁ = h₂ := Except.ok.inj (hok₁.symm.trans hok₂)
    refine hinv.head_of_single ?_ ((hinv.isRun_iff hzero).mp hisRun)
    have hnone : before.filter (PutCall.passes buff) = [] := by
      refine List.filter_eq_nil_iff.mpr fun d hd => ?_
      simpa using hbefore d hd
    rw [hinv.accepted_eq, List.filter_append, hnone, List.filter_singleton, hpass]
    rfl
  · rintro hfirst done rest rfl
    -- the first stored segment stays in the list, and the list is sorted
    obtain ⟨h, l, hok, hinv⟩ := hprefix done rest rfl
    refine ⟨h, hok, (hinv.isRun_iff hzero).mpr ?_⟩
    intro a ha
    have hne : l ≠ [] := by
      rintro rfl
      cases ha
    obtain ⟨c, hc, hmem⟩ := hinv.exists_accepted hne
    have hseq := hfirst c (by rw [List.find?_append, hc]; rfl)
    rw [hseq] at hmem
    exact hinv.head_of_accepted hmem a ha

/-- The segment at `head_seq` arrives first, then one behind a gap. -/
theorem cumLen_isRun_gap :
    ∃ h, [putAt 1 0 10, putAt 2 20 10].foldlM (RecvHist.exec 3)
        { s := { buff := zeroBuffer, frag := fun _ => (putAt 0 0 0).fragment,
                 dptr := staleData none }, accepted := [] } = .ok h ∧
      IsRun (Covers (h.accepted.map (segRange 0))) h.s.buff.cumLen.toNat := by
  have hrun : PutRun zeroBuffer [putAt 1 0 10, putAt 2 20 10] := by
    refine ⟨by decide, ?_, ?_⟩
    · intro c hc _
      simp only [List.mem_cons, List.not_mem_nil, or_false] at hc
      unfold Fragment.InHalf
      rcases hc with rfl | rfl
      · decide
      · decide
    · refine List.pairwise_pair.mpr fun _ _ => .inl ?_
      unfold Fragment.Before
      decide
  refine (cumLen_isRun_iff zeroBuffer rfl rfl _ _ _ hrun 3 (by decide)).mpr ?_ _ [] rfl
  intro c hc
  obtain rfl : putAt 1 0 10 = c := Option.some.inj hc
  rfl

/-- The first segment lies behind a gap of five bytes; `recv_put` records its length. -/
theorem cumLen_past_gap :
    ∃ h, [putAt 1 5 10].foldlM (RecvHist.exec 2)
        { s := { buff := zeroBuffer, frag := fun _ => (putAt 0 0 0).fragment,
                 dptr := staleData none }, accepted := [] } = .ok h ∧
      h.accepted = [(5, 10)] ∧ h.s.buff.cumLen = 10 ∧
      ¬ Covers (h.accepted.map (segRange 0)) 0 := by
  refine ⟨_, rfl, rfl, rfl, ?_⟩
  rintro ⟨a, ha, hin, -⟩
  obtain rfl := List.mem_singleton.mp ha
  exact absurd hin (by decide)

end CmtTcp
