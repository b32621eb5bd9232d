import CmtTcp.PoolUse
import CmtTcp.Reassembly

/-!
# The receive buffer and its pools

`recv_put` takes a data pointer and a fragment from the pools of the receive manager before it looks at the
segment, and no refusal behind that gives them back.

* `RecvState.Owns`: the fragments of a buffer; whatever `recv_put` does, merging included, it links none
  but these and its own (`recvStore_owns`);
* `RecvPools.PutStep.of_refuses`: a refused segment changes nothing but the numbers of free objects, and says
  when these are as before;
* `refused_untouched_iff`: the same along every run.
-/

namespace CmtTcp

open Lib (Seg Closed Outcome Run Guarded)

/-! ### The fragments of a buffer -/

/-- The fragment list, and every list a link of `S` leads into, lies in `S`. -/
structure RecvState.Owns (s : RecvState) (S : Set Addr) : Prop where
  fctx : ∀ a ∈ s.buff.fctx, a ∈ S
  next : Closed s.next S

section Owns

variable {s s' : RecvState} {S : Set Addr} {a b : Addr} {f : Fragment} {p : Option Addr}

namespace RecvState.Owns

theorem setFrag (h : s.Owns S) (a : Addr) (hf : ∀ b ∈ f.next, b ∈ S) : (s.setFrag a f).Owns S where
  fctx := h.fctx
  next := by
    rw [RecvState.next_setFrag]
    exact h.next.update hf a

/-- A fragment of the list keeps its link, or takes over the link of another one. -/
theorem setFrag_of_mem (h : s.Owns S) (a : Addr) (hb : b ∈ S) (hf : f.next = s.next b) :
    (s.setFrag a f).Owns S := by
  refine h.setFrag a ?_
  rw [hf]
  exact h.next b hb

theorem setDptr (h : s.Owns S) (a : Addr) (d : DataPtr) : (s.setDptr a d).Owns S := ⟨h.fctx, h.next⟩

theorem setFctx (h : s.Owns S) (hp : ∀ a ∈ p, a ∈ S) : (s.setFctx p).Owns S := ⟨hp, h.next⟩

theorem swapFragment (h : s.Owns S) (ha : a ∈ S) (hb : b ∈ S) : (swapFragment s a b).Owns S := by
  -- the link of `a` as it was before the first of the two writes
  refine (h.setFrag_of_mem a hb rfl).setFrag b ?_
  exact h.next a ha

theorem mergeFragments (fuel : ℕ) (h : s.Owns S) (ha : a ∈ S) (hb : b ∈ S) :
    Outcome (mergeFragments fuel s a b) (fun _ => True) fun s' => s'.Owns S := by
  unfold CmtTcp.mergeFragments
  have hswap : (if (s.frag a).seq < (s.frag b).seq then CmtTcp.swapFragment s a b else s).Owns S := by
    split
    · exact h.swapFragment ha hb
    · exact h
  dsimp only
  generalize (if (s.frag a).seq < (s.frag b).seq then CmtTcp.swapFragment s a b else s) = s at hswap ⊢
  split
  · refine Outcome.bind (Q := fun _ => True) ?_ fun r _ => ?_
    · cases mergeWalk _ _ _ _ _ <;> trivial
    · -- the data pointers are no part of the list
      refine Outcome.ite (fun _ => ?_) fun _ => ?_
      · exact (hswap.setDptr _ _).setFrag_of_mem a ha rfl
      · split
        · trivial
        · exact (hswap.setDptr _ _).setFrag_of_mem a ha rfl
  · trivial

end RecvState.Owns

/-- The loop of `recv_put` has `S` for its fragments. -/
structure PutLoop.In (st : PutLoop) (S : Set Addr) : Prop where
  owns : st.s.Owns S
  frag : st.frag ∈ S
  iter : ∀ a ∈ st.iter, a ∈ S

theorem putUnlink_owns {st : PutLoop} (h : s.Owns S) (ha : a ∈ S) : (putUnlink st s a).s.Owns S := by
  have hlink : ∀ b ∈ some a, b ∈ S := by
    rintro _ ⟨⟩
    exact ha
  unfold putUnlink
  split
  · split
    · exact h.setFrag _ hlink
    · exact h.setFctx hlink
  · exact h

theorem putLoop_in (curEnd : U32) (fuel : ℕ) {st : PutLoop} (h : st.In S) :
    Outcome (putLoop curEnd fuel st) (fun _ => True) fun st' => st'.In S := by
  induction fuel generalizing st with
  | zero => trivial
  | succ fuel ih =>
    unfold putLoop
    split
    · exact h
    · next iter hiter =>
      have hmem : iter ∈ S := h.iter iter hiter
      split
      · -- the segment went into the fragment at `iter`, and goes on from there
        refine Outcome.bind (h.owns.mergeFragments fuel h.frag hmem) fun s' h' => ih ?_
        have hnext := @putUnlink_owns s' S iter st h' hmem
        exact ⟨hnext, hmem, hnext.next iter hmem⟩
      · split
        · exact h
        · exact ih ⟨h.owns, h.frag, h.owns.next iter hmem⟩

theorem putLink_owns (curSeq : U32) {st : PutLoop} (h : st.In S) :
    Outcome (putLink curSeq st) (fun _ => True) fun s' => s'.Owns S := by
  have hfrag : ∀ a ∈ some st.frag, a ∈ S := by
    rintro _ ⟨⟩
    exact h.frag
  unfold putLink
  split
  · exact h.owns
  · split
    · exact h.owns.setFctx hfrag
    · next first hfirst =>
      split
      · refine (h.owns.setFrag _ ?_).setFctx hfrag
        rintro _ ⟨⟩
        exact h.owns.fctx first hfirst
      · split
        · trivial
        · dsimp only
          split
          · exact (h.owns.setFrag _ hfrag).setFrag _ h.iter
          · trivial

/-- **The fragments of a buffer.** However a segment is stored, the list has no other fragments than
before and the new one. -/
theorem recvStore_owns (fuel : ℕ) {c : PutCall} {endOff : U32} (h : s.Owns S) (ha : a ∈ S) :
    Outcome (recvStore fuel s c a endOff) (fun _ => True) fun r => r.1.Owns S := by
  have hlast : (putLastLen s endOff).Owns S := by
    unfold putLastLen
    split
    · exact ⟨h.fctx, h.next⟩
    · exact h
  unfold recvStore
  dsimp only
  refine Outcome.bind (putLoop_in _ fuel ⟨hlast, ha, hlast.fctx⟩) fun st hst => ?_
  refine Outcome.bind (putLink_owns _ hst) fun s' h' => ?_
  split
  · exact ⟨h'.fctx, h'.next⟩
  · trivial

end Owns

/-! ### The code -/

/-- A receive buffer and the pools `dataptr_pool` and `frag_pool` of its receive manager. The link of a
pool lies in the first word of an object, which is not the pool's as long as the object is held. -/
structure RecvPools where
  s : RecvState
  dataptrs : ObjectUse
  frags : ObjectUse

/-- The arguments of `recv_put`, and the memory there is for either pool to grow. -/
structure PutRequest where
  data : Addr
  len : U32
  curSeq : U32
  dpNodes : List Node
  fragNodes : List Node

/-- Ways for `recv_put` not to return, its allocations included. -/
inductive RecvPoolsFault where
  | object (e : ObjectFault)
  | recv (e : RecvFault)

/-- The call with what the pools have handed out. -/
def PutRequest.call (c : PutRequest) (dp frag : Option Node) : PutCall where
  data := c.data
  len := c.len
  curSeq := c.curSeq
  dataPtr := dp.map Fin.val
  frag := frag.map Fin.val

namespace RecvPools

/-- `allocate_dataptr` -/
def allocateDataptr (w : WaterLevel) (p : RecvPools) (nodes : List Node) :
    Except RecvPoolsFault (ObjectUse × Option Node) :=
  (p.dataptrs.get w nodes).mapError .object

/-- `allocate_fragment_context` -/
def allocateFragmentContext (w : WaterLevel) (p : RecvPools) (nodes : List Node) :
    Except RecvPoolsFault (ObjectUse × Option Node) :=
  (p.frags.get w nodes).mapError .object

/-- `recv_put` behind its allocations -/
def putWith (p : RecvPools) (fuel : ℕ) (dataptrs frags : ObjectUse) (call : PutCall) :
    Except RecvPoolsFault (RecvPools × U32) := do
  let (s, ret) ← (CmtTcp.recvPut fuel p.s call).mapError .recv
  .ok ({ s := s, dataptrs := dataptrs, frags := frags }, ret)

/-- `recv_put` with its allocations. A fragment is asked for only when there is a data pointer. -/
def recvPut (fuel : ℕ) (w : WaterLevel) (p : RecvPools) (c : PutRequest) :
    Except RecvPoolsFault (RecvPools × U32) := do
  if c.len ≤ 0 then
    .ok (p, 0)
  else
    let (dataptrs, dp) ← p.allocateDataptr w c.dpNodes
    let (frags, frag) ←
      if dp.isSome then p.allocateFragmentContext w c.fragNodes else .ok (p.frags, none)
    p.putWith fuel dataptrs frags (c.call dp frag)

/-- A call that returns. The memory it gets is not in use. -/
structure PutStep (fuel : ℕ) (w : WaterLevel) (p : RecvPools) (c : PutRequest) (p' : RecvPools) : Prop where
  freshDp : p.dataptrs.Fresh c.dpNodes
  freshFrag : p.frags.Fresh c.fragNodes
  call : ∃ ret, p.recvPut fuel w c = .ok (p', ret)

/-! ### What is asked of a refusal -/

/-- A call that does not store its data. -/
inductive Refuses (p : RecvPools) (c : PutRequest) : Prop
  | empty (h : c.len = 0)
  | noDataPtr (h : p.dataptrs.Exhausted c.dpNodes)
  | noFrag (h : p.frags.Exhausted c.fragNodes)
  /-- the segment starts before `head_seq` -/
  | before (h : getMinSeq p.s.buff.headSeq c.curSeq ≠ p.s.buff.headSeq)
  /-- the segment ends beyond `chunk_size` -/
  | beyond (h : p.s.buff.chunkSize.slt (c.curSeq - p.s.buff.headSeq + c.len))

theorem refuses_iff {p : RecvPools} {c : PutRequest} :
    p.Refuses c ↔ c.len = 0 ∨ p.dataptrs.Exhausted c.dpNodes ∨ p.frags.Exhausted c.fragNodes ∨
      getMinSeq p.s.buff.headSeq c.curSeq ≠ p.s.buff.headSeq ∨
      p.s.buff.chunkSize.slt (c.curSeq - p.s.buff.headSeq + c.len) := by
  constructor
  · rintro (h | h | h | h | h)
    · exact .inl h
    · exact .inr (.inl h)
    · exact .inr (.inr (.inl h))
    · exact .inr (.inr (.inr (.inl h)))
    · exact .inr (.inr (.inr (.inr h)))
  · rintro (h | h | h | h | h)
    · exact .empty h
    · exact .noDataPtr h
    · exact .noFrag h
    · exact .before h
    · exact .beyond h

instance (p : RecvPools) (c : PutRequest) : Decidable (p.Refuses c) := decidable_of_iff _ refuses_iff.symm

/-- The receive buffer is the same, fragment by fragment, and so are the numbers of free objects. -/
structure Untouched (p p' : RecvPools) : Prop where
  buff : p'.s.buff = p.s.buff
  list : ∀ l q, Seg p.s.next p.s.buff.fctx l q →
    Seg p'.s.next p'.s.buff.fctx l q ∧ ∀ a ∈ l, p'.s.frag a = p.s.frag a
  dataptrs : p'.dataptrs.freeCount = p.dataptrs.freeCount
  frags : p'.frags.freeCount = p.frags.freeCount

/-- Either the call takes nothing, or every pool it takes from has a single element and gets another one
for it at once. -/
def Fits (w : WaterLevel) (p : RecvPools) (c : PutRequest) : Prop :=
  c.len = 0 ∨ p.dataptrs.Exhausted c.dpNodes ∨
    p.dataptrs.GrowsByOne w c.dpNodes ∧ (p.frags.Exhausted c.fragNodes ∨ p.frags.GrowsByOne w c.fragNodes)

/-- Both pools are sound, and the fragments of the buffer come out of theirs. -/
structure Sound (p : RecvPools) : Prop where
  dataptrs : ∃ l, p.dataptrs.Stocked l
  frags : ∃ l, p.frags.Stocked l
  owns : ∃ S, p.s.Owns S ∧ ∀ a ∈ S, ∃ node ∈ p.frags.held, node.val = a

end RecvPools

/-! ### One call -/

section Call

variable {fuel : ℕ} {w : WaterLevel} {p p' : RecvPools} {c : PutRequest}

namespace RecvPools

theorem PutStep.det {p'' : RecvPools} (h : PutStep fuel w p c p') (h' : PutStep fuel w p c p'') :
    p' = p'' := by
  obtain ⟨ret, hret⟩ := h.call
  obtain ⟨ret', hret'⟩ := h'.call
  rw [hret] at hret'
  exact (Prod.mk.inj (Except.ok.inj hret')).1

/-- Writing to an object that is not held leaves the fragment list alone. -/
theorem Sound.list_of_frame (hp : p.Sound) {s : RecvState} (hbuff : s.buff = p.s.buff)
    (hframe : ∀ node ∈ p.frags.held, s.frag node = p.s.frag node) :
    (∃ S, s.Owns S ∧ ∀ a ∈ S, ∃ node ∈ p.frags.held, node.val = a) ∧
      ∀ l q, Seg p.s.next p.s.buff.fctx l q →
        Seg s.next s.buff.fctx l q ∧ ∀ a ∈ l, s.frag a = p.s.frag a := by
  obtain ⟨S, hS, hheld⟩ := hp.owns
  have hsame : ∀ a ∈ S, s.frag a = p.s.frag a := by
    intro a ha
    obtain ⟨node, hnode, rfl⟩ := hheld a ha
    exact hframe node hnode
  have hnext : ∀ a ∈ S, s.next a = p.s.next a := fun a ha => congrArg Fragment.next (hsame a ha)
  refine ⟨⟨S, ⟨?_, hS.next.congr hnext⟩, hheld⟩, fun l q hl => ?_⟩
  · rw [hbuff]
    exact hS.fctx
  · have hmem : ∀ a ∈ l, a ∈ S := fun a ha => hS.next.mem_of_seg hS.fctx hl ha
    refine ⟨?_, fun a ha => hsame a (hmem a ha)⟩
    rw [hbuff]
    exact hl.congr fun a ha => hnext a (hmem a ha)

/-- The ways through a call. -/
inductive PutCases (fuel : ℕ) (w : WaterLevel) (p : RecvPools) (c : PutRequest) (p' : RecvPools) : Prop
  | skip (hlen : c.len = 0) (h : p' = p)
  | noDataPtr (hlen : c.len ≠ 0) (hdp : p.dataptrs.Exhausted c.dpNodes)
      (hdp' : p.dataptrs.Refused c.dpNodes p'.dataptrs) (hs : p'.s = p.s) (hfrag : p'.frags = p.frags)
  | noFrag {dp : Node} {ret : U32} (hlen : c.len ≠ 0) (hdp : ¬p.dataptrs.Exhausted c.dpNodes)
      (hdp' : p.dataptrs.Taken w c.dpNodes p'.dataptrs dp) (hfrag : p.frags.Exhausted c.fragNodes)
      (hfrag' : p.frags.Refused c.fragNodes p'.frags)
      (hput : CmtTcp.recvPut fuel p.s (c.call (some dp) none) = .ok (p'.s, ret))
  | put {dp frag : Node} {ret : U32} (hlen : c.len ≠ 0) (hdp : ¬p.dataptrs.Exhausted c.dpNodes)
      (hdp' : p.dataptrs.Taken w c.dpNodes p'.dataptrs dp) (hfrag : ¬p.frags.Exhausted c.fragNodes)
      (hfrag' : p.frags.Taken w c.fragNodes p'.frags frag)
      (hput : CmtTcp.recvPut fuel p.s (c.call (some dp) (some frag)) = .ok (p'.s, ret))

theorem Untouched.refl (p : RecvPools) : p.Untouched p :=
  ⟨rfl, fun _ _ hl => ⟨hl, fun _ _ => rfl⟩, rfl, rfl⟩

/-- The tests behind the allocations. -/
theorem call_passes_iff {dp frag : Node} (hlen : c.len ≠ 0) (hdp : ¬p.dataptrs.Exhausted c.dpNodes)
    (hfrag : ¬p.frags.Exhausted c.fragNodes) :
    (c.call (some dp) (some frag)).passes p.s.buff = false ↔ p.Refuses c := by
  have hpasses : (c.call (some dp) (some frag)).passes p.s.buff = false ↔
      getMinSeq p.s.buff.headSeq c.curSeq ≠ p.s.buff.headSeq ∨
        p.s.buff.chunkSize.slt (c.curSeq - p.s.buff.headSeq + c.len) := by
    change (decide (c.len ≠ 0) && true && true && decide (getMinSeq p.s.buff.headSeq c.curSeq = p.s.buff.headSeq)
      && !p.s.buff.chunkSize.slt (c.curSeq - p.s.buff.headSeq + c.len)) = false ↔ _
    rw [decide_eq_true hlen]
    simp [or_iff_not_imp_left]
  rw [hpasses]
  constructor
  · rintro (h | h)
    · exact .before h
    · exact .beyond h
  · rintro (h | h | h | h | h)
    · exact absurd h hlen
    · exact absurd h hdp
    · exact absurd h hfrag
    · exact .inl h
    · exact .inr h

/-- The end of a call that cannot store its data. -/
theorem putWith_of_not_passes (fuel : ℕ) (d f : ObjectUse) {call : PutCall}
    (h : call.passes p.s.buff = false) :
    ∃ p' ret, p.putWith fuel d f call = .ok (p', ret) ∧ p'.dataptrs = d ∧ p'.frags = f ∧
      CmtTcp.recvPut fuel p.s call = .ok (p'.s, ret) := by
  obtain ⟨s', ret, hput, -⟩ := recvPut_of_not_passes fuel h
  refine ⟨⟨s', d, f⟩, ret, ?_, rfl, rfl, hput⟩
  unfold putWith
  rw [hput]
  rfl

/-- **How far a call gets.** Only a call that stores its data can fail. -/
theorem recvPut_outcome (hp : p.Sound) (hfreshDp : p.dataptrs.Fresh c.dpNodes)
    (hfreshFrag : p.frags.Fresh c.fragNodes) :
    Outcome (p.recvPut fuel w c) (fun _ => ¬p.Refuses c) fun r => PutCases fuel w p c r.1 := by
  obtain ⟨⟨ld, hld⟩, ⟨lf, hlf⟩, -⟩ := hp
  unfold recvPut
  refine Outcome.ite (fun hlen => .skip (BitVec.le_zero_iff.mp hlen) rfl) fun hlen => ?_
  have hlen' : c.len ≠ 0 := fun hzero => hlen (BitVec.le_of_eq hzero)
  unfold allocateDataptr
  rcases ObjectUse.get_cases (w := w) hld hfreshDp with ⟨hdp, d, hd, hd'⟩ | ⟨hdp, d, dp, hd, hd'⟩
  · -- without a data pointer nothing is written, and no fragment asked for
    rw [hd]
    obtain ⟨p', ret, hput, rfl, hfrags, hs⟩ := @putWith_of_not_passes p fuel d p.frags (c.call none none)
      (by simp [PutCall.passes, PutRequest.call])
    change Outcome (p.putWith fuel p'.dataptrs p.frags (c.call none none)) _ _
    rw [hput]
    unfold CmtTcp.recvPut at hs
    rw [if_neg (show ¬(c.call none none).len ≤ 0 from hlen)] at hs
    exact .noDataPtr hlen' hdp hd' (Prod.mk.inj (Except.ok.inj hs)).1.symm hfrags
  · rw [hd]
    -- there is a data pointer, so a fragment is asked for
    change Outcome (p.allocateFragmentContext w c.fragNodes >>= fun r =>
      p.putWith fuel d r.1 (c.call (some dp) r.2)) _ _
    unfold allocateFragmentContext
    rcases ObjectUse.get_cases (w := w) hlf hfreshFrag with ⟨hfrag, f, hf, hf'⟩ | ⟨hfrag, f, frag, hf, hf'⟩
    · -- the data pointer has been filled in when the fragment is found missing
      rw [hf]
      obtain ⟨p', ret, hput, rfl, rfl, hs⟩ := @putWith_of_not_passes p fuel d f (c.call (some dp) none)
        (by simp [PutCall.passes, PutRequest.call])
      change Outcome (p.putWith fuel p'.dataptrs p'.frags (c.call (some dp) none)) _ _
      rw [hput]
      exact .noFrag hlen' hdp hd' hfrag hf' hs
    · -- both objects are there, and only now the segment is looked at
      rw [hf]
      change Outcome (p.putWith fuel d f (c.call (some dp) (some frag))) _ _
      cases hs : CmtTcp.recvPut fuel p.s (c.call (some dp) (some frag)) with
      | ok r =>
        unfold putWith
        rw [hs]
        exact .put hlen' hdp hd' hfrag hf' hs
      | error e =>
        unfold putWith
        rw [hs]
        intro hrefuses
        obtain ⟨s', ret, hok, -⟩ := recvPut_of_not_passes fuel ((call_passes_iff hlen' hdp hfrag).mpr hrefuses)
        cases hs.symm.trans hok

theorem PutStep.cases (hp : p.Sound) (h : PutStep fuel w p c p') : PutCases fuel w p c p' := by
  obtain ⟨ret, hret⟩ := h.call
  exact (recvPut_outcome hp h.freshDp h.freshFrag).of_ok hret

/-- A refused call returns. -/
theorem Refuses.returns (hp : p.Sound) (hfreshDp : p.dataptrs.Fresh c.dpNodes)
    (hfreshFrag : p.frags.Fresh c.fragNodes) (h : p.Refuses c) : ∃ p', PutStep fuel w p c p' := by
  cases hput : p.recvPut fuel w c with
  | error e => exact absurd h ((recvPut_outcome hp hfreshDp hfreshFrag).of_error hput)
  | ok r => exact ⟨r.1, hfreshDp, hfreshFrag, r.2, hput⟩

/-- A call that does not store its data writes to no fragment but the one it was handed. -/
theorem recvPut_frame {s s' : RecvState} {call : PutCall} {ret : U32} (h : call.passes s.buff = false)
    (hput : CmtTcp.recvPut fuel s call = .ok (s', ret)) :
    s'.buff = s.buff ∧ ∀ a, call.frag ≠ some a → s'.frag a = s.frag a := by
  obtain ⟨s'', ret', hput', -, hbuff, hframe⟩ := recvPut_of_not_passes fuel h
  obtain ⟨rfl, -⟩ := Prod.mk.inj (Except.ok.inj (hput'.symm.trans hput))
  exact ⟨hbuff, hframe⟩

/-- What a refused call leaves behind, when it has written to no fragment but the one it has taken. -/
theorem Sound.of_frame (hp : p.Sound) (hdp : ∃ l, p'.dataptrs.Stocked l) (hfrag : ∃ l, p'.frags.Stocked l)
    (hheld : ∀ node ∈ p.frags.held, node ∈ p'.frags.held) (hbuff : p'.s.buff = p.s.buff)
    (hframe : ∀ node ∈ p.frags.held, p'.s.frag node = p.s.frag node) :
    p'.Sound ∧ (p.Untouched p' ↔
      p'.dataptrs.freeCount = p.dataptrs.freeCount ∧ p'.frags.freeCount = p.frags.freeCount) := by
  obtain ⟨⟨S, hS, hSheld⟩, hlist⟩ := hp.list_of_frame hbuff hframe
  refine ⟨⟨hdp, hfrag, S, hS, fun a ha => ?_⟩, fun h => ⟨h.dataptrs, h.frags⟩, fun h => ?_⟩
  · obtain ⟨node, hnode, rfl⟩ := hSheld a ha
    exact ⟨node, hheld node hnode, rfl⟩
  · exact ⟨hbuff, hlist, h.1, h.2⟩

/-- **A refused segment.** -/
theorem PutStep.of_refuses (hp : p.Sound) (h : PutStep fuel w p c p') (hrefuses : p.Refuses c) :
    p'.Sound ∧ (p.Untouched p' ↔ p.Fits w c) := by
  cases h.cases hp with
  | skip hlen hsame =>
    subst hsame
    exact ⟨hp, iff_of_true (.refl p') (.inl hlen)⟩
  | noDataPtr hlen hdp hdp' hs hfrag =>
    obtain ⟨hsound, huntouched⟩ := hp.of_frame hdp'.stocked (hfrag ▸ hp.frags) (fun node hn => by rwa [hfrag])
      (by rw [hs]) fun _ _ => by rw [hs]
    refine ⟨hsound, iff_of_true (huntouched.mpr ⟨hdp'.freeCount, by rw [hfrag]⟩) (.inr (.inl hdp))⟩
  | @noFrag dp ret hlen hdp hdp' hfrag hfrag' hput =>
    have hnot : (c.call (some dp) none).passes p.s.buff = false := by simp [PutCall.passes, PutRequest.call]
    obtain ⟨hbuff, hframe⟩ := recvPut_frame hnot hput
    -- only the data pointer is lost
    obtain ⟨hsound, huntouched⟩ := hp.of_frame hdp'.stocked hfrag'.stocked
      (fun node hn => by rwa [hfrag'.held]) hbuff fun node _ => hframe node (Option.some_ne_none _).symm
    refine ⟨hsound, huntouched.trans ?_⟩
    rw [hdp'.freeCount, and_iff_left hfrag'.freeCount]
    exact ⟨fun hgrows => .inr (.inr ⟨hgrows, .inl hfrag⟩), fun hfits =>
      ((hfits.resolve_left hlen).resolve_left hdp).1⟩
  | @put dp frag ret hlen hdp hdp' hfrag hfrag' hput =>
    obtain ⟨hbuff, hframe⟩ := recvPut_frame ((call_passes_iff hlen hdp hfrag).mpr hrefuses) hput
    -- the fragment that was taken is none of the list
    have hne : ∀ node ∈ p.frags.held, (c.call (some dp) (some frag)).frag ≠ some node.val := by
      intro node hnode heq
      refine hfrag'.not_held ?_
      rwa [Fin.val_injective (Option.some.inj heq)]
    obtain ⟨hsound, huntouched⟩ := hp.of_frame hdp'.stocked hfrag'.stocked
      (fun node hn => by rw [hfrag'.held]; exact List.mem_cons_of_mem _ hn) hbuff
      fun node hnode => hframe node (hne node hnode)
    refine ⟨hsound, huntouched.trans ?_⟩
    rw [hdp'.freeCount, hfrag'.freeCount]
    exact ⟨fun hgrows => .inr (.inr ⟨hgrows.1, .inr hgrows.2⟩), fun hfits =>
      ((hfits.resolve_left hlen).resolve_left hdp).imp_right fun h => h.resolve_left hfrag⟩

/-- A segment that is stored. -/
theorem PutStep.of_not_refuses (hp : p.Sound) (h : PutStep fuel w p c p') (hrefuses : ¬p.Refuses c) :
    p'.Sound := by
  cases h.cases hp with
  | skip hlen => exact absurd (.empty hlen) hrefuses
  | noDataPtr _ hdp => exact absurd (.noDataPtr hdp) hrefuses
  | noFrag _ _ _ hfrag => exact absurd (.noFrag hfrag) hrefuses
  | @put dp frag ret hlen hdp hdp' hfrag hfrag' hput =>
    have hpasses : (c.call (some dp) (some frag)).passes p.s.buff = true := by
      rw [← Bool.not_eq_false, call_passes_iff hlen hdp hfrag]
      exact hrefuses
    obtain ⟨dp', d, frag', hfragEq, heq⟩ := recvPut_of_passes fuel hpasses
    obtain rfl : frag.val = frag' := Option.some.inj hfragEq
    obtain ⟨S, hS, hheld⟩ := hp.owns
    -- the new fragment links to nothing, and joins the others
    have hnext : ((p.s.setDptr dp' d).setFrag frag (c.call (some dp) (some frag)).fragment).next frag = none := by
      rw [RecvState.next_setFrag, Function.update_self]
      rfl
    have hnone : ∀ b ∈ (c.call (some dp) (some frag)).fragment.next, b ∈ S := fun b hb => by cases hb
    have hframe := (hS.setDptr dp' d).setFrag frag hnone
    have howns : ((p.s.setDptr dp' d).setFrag frag (c.call (some dp) (some frag)).fragment).Owns
        (insert frag.val S) :=
      ⟨fun a ha => Set.mem_insert_of_mem _ (hframe.fctx a ha), hframe.next.insert hnext⟩
    rw [heq] at hput
    refine ⟨hdp'.stocked, hfrag'.stocked, _,
      (recvStore_owns fuel howns (Set.mem_insert _ _)).of_ok hput, fun a ha => ?_⟩
    rw [hfrag'.held]
    rcases Set.mem_insert_iff.mp ha with rfl | ha
    · exact ⟨frag, List.mem_cons_self, rfl⟩
    · obtain ⟨node, hnode, rfl⟩ := hheld a ha
      exact ⟨node, List.mem_cons_of_mem _ hnode, rfl⟩

end RecvPools

end Call

/-! ### Sequences of calls -/

section Sequences

variable {fuel : ℕ} {w : WaterLevel} {p p' p'' : RecvPools} {c : PutRequest} {cs : List PutRequest}

namespace RecvPools

/-- An empty buffer owns nothing. -/
theorem Sound.of_empty {ld lf : List Node} (hempty : p.s.buff.fctx = none) (hdp : p.dataptrs.Stocked ld)
    (hfrag : p.frags.Stocked lf) : p.Sound := by
  refine ⟨⟨ld, hdp⟩, ⟨lf, hfrag⟩, ∅, ⟨fun a ha => ?_, fun a ha => ha.elim⟩, fun a ha => ha.elim⟩
  rw [hempty] at ha
  cases ha

theorem PutStep.sound (hp : p.Sound) (h : PutStep fuel w p c p') : p'.Sound := by
  by_cases hrefuses : p.Refuses c
  · exact (h.of_refuses hp hrefuses).1
  · exact h.of_not_refuses hp hrefuses

theorem Untouched.trans (h : p.Untouched p') (h' : p'.Untouched p'') : p.Untouched p'' where
  buff := h'.buff.trans h.buff
  list := by
    intro l q hl
    obtain ⟨hl', hsame⟩ := h.list l q hl
    obtain ⟨hl'', hsame'⟩ := h'.list l q hl'
    exact ⟨hl'', fun a ha => (hsame' a ha).trans (hsame a ha)⟩
  dataptrs := h'.dataptrs.trans h.dataptrs
  frags := h'.frags.trans h.frags

/-- A sequence of refused segments leaves buffer and pools as they were, if each of them fits. -/
theorem untouched_of_run (hp : p.Sound)
    (h : Run (Guarded (fun t c => t.Refuses c ∧ t.Fits w c) (PutStep fuel w)) p cs p') :
    p.Untouched p' := by
  refine (h.invariant (fun t => t.Sound ∧ p.Untouched t) ⟨hp, .refl p⟩ ?_).2
  rintro t c u ⟨ht, huntouched⟩ ⟨⟨hrefuses, hfits⟩, hstep⟩
  obtain ⟨hu, hiff⟩ := hstep.of_refuses ht hrefuses
  exact ⟨hu, huntouched.trans (hiff.mpr hfits)⟩

end RecvPools

/-- **Refused segments.** Along a sequence of calls, stored or refused, every refused segment leaves the
buffer and the numbers of free objects as they were exactly when each of them fits: it is empty, or there
is no data pointer for it, or what it takes is made up for by a pool that has a single element and grows. -/
theorem refused_untouched_iff (fuel : ℕ) (w : WaterLevel) (p p' : RecvPools) (cs : List PutRequest)
    (hp : p.Sound) (hrun : Run (RecvPools.PutStep fuel w) p cs p') :
    Run.Along (RecvPools.PutStep fuel w) p cs (fun t c u => t.Refuses c → t.Untouched u) ↔
      ¬Run.Occurs (RecvPools.PutStep fuel w) p cs fun t c => t.Refuses c ∧ ¬t.Fits w c := by
  refine Run.along_iff (fun t c u u' h h' => h.det h') hp ?_ ?_ hrun
  · intro t c u ht hstep hgood
    refine ⟨hstep.sound ht, fun hrefuses => ?_⟩
    exact (hstep.of_refuses ht hrefuses).2.mpr (not_not.mp fun hfits => hgood ⟨hrefuses, hfits⟩)
  · rintro t c u ht hstep ⟨hrefuses, hfits⟩ huntouched
    exact hfits ((hstep.of_refuses ht hrefuses).2.mp (huntouched hrefuses))

/-- An empty buffer that has been read up to 100, with two objects in either pool. -/
def pairPools : RecvPools where
  s :=
    { buff :=
        { cumLen := 0, lastLen := 0, chunkSize := 1000, headSeq := 100, initSeq := 0, fctx := none }
      frag := fun _ => { next := none, seq := 0, len := 0, dataList := none }
      dptr := fun _ => { seq := 0, len := 0, data := 0, next := none } }
  dataptrs := pairPool
  frags := pairPool

/-- Ten bytes at `curSeq`, and no memory for more objects. -/
def tenBytes (curSeq : U32) : PutRequest where
  data := 0
  len := 10
  curSeq := curSeq
  dpNodes := []
  fragNodes := []

theorem pairPools_sound : pairPools.Sound := .of_empty rfl pairPool_stocked pairPool_stocked

/-- Two segments are stored and use up the data pointers. A third one is refused for want of one, and so is a
call without data; neither changes anything. -/
theorem refused_untouched_stored :
    ∃ p₂ p', Run (RecvPools.PutStep 2 exactWaterLevel) pairPools [tenBytes 100, tenBytes 200] p₂ ∧
      p₂.Refuses (tenBytes 300) ∧
      Run (RecvPools.PutStep 2 exactWaterLevel) pairPools
        [tenBytes 100, tenBytes 200, tenBytes 300, { tenBytes 300 with len := 0 }] p' ∧
      Run.Along (RecvPools.PutStep 2 exactWaterLevel) pairPools
        [tenBytes 100, tenBytes 200, tenBytes 300, { tenBytes 300 with len := 0 }]
        fun t c u => t.Refuses c → t.Untouched u := by
  -- the first two calls are not refused, and the others fit
  have hone : Run (Guarded (fun t c => ¬(RecvPools.Refuses t c ∧ ¬t.Fits exactWaterLevel c))
      (RecvPools.PutStep 2 exactWaterLevel)) pairPools [tenBytes 100] _ :=
    .single ⟨fun h => absurd h.1 (by decide), fresh_nil _, fresh_nil _, _, rfl⟩
  have htwo := hone.snoc (l := tenBytes 200)
    ⟨fun h => absurd h.1 (by decide), fresh_nil _, fresh_nil _, _, rfl⟩
  have hthree := htwo.snoc (l := tenBytes 300)
    ⟨fun h => h.2 (.inr (.inl ⟨rfl, by decide⟩)), fresh_nil _, fresh_nil _, _, rfl⟩
  have hfour := hthree.snoc (l := { tenBytes 300 with len := 0 })
    ⟨fun h => h.2 (.inl rfl), fresh_nil _, fresh_nil _, _, rfl⟩
  have hrun := hfour.mono fun _ _ _ h => h.2
  refine ⟨_, _, htwo.mono fun _ _ _ h => h.2, by decide, hrun, ?_⟩
  refine (refused_untouched_iff 2 exactWaterLevel pairPools _ _ pairPools_sound hrun).mpr ?_
  exact Run.not_occurs_of_guarded (fun _ _ _ _ h h' => h.det h') hfour

/-- Two segments from before `head_seq` are refused, and both pools are empty. -/
theorem refused_exhaust_pools :
    ∃ p', pairPools.Sound ∧ pairPools.Refuses (tenBytes 50) ∧
      Run (RecvPools.PutStep 1 exactWaterLevel) pairPools [tenBytes 50, tenBytes 50] p' ∧
      p'.dataptrs.freeCount = 0 ∧ p'.frags.freeCount = 0 ∧
      ¬Run.Along (RecvPools.PutStep 1 exactWaterLevel) pairPools [tenBytes 50, tenBytes 50]
        (fun t c u => t.Refuses c → t.Untouched u) := by
  have hrefuses : pairPools.Refuses (tenBytes 50) := .before (by decide)
  have hstep : ∃ p', RecvPools.PutStep 1 exactWaterLevel pairPools (tenBytes 50) p' :=
    ⟨_, fresh_nil _, fresh_nil _, _, rfl⟩
  refine ⟨_, pairPools_sound, hrefuses, (Run.single ⟨fresh_nil _, fresh_nil _, _, rfl⟩).snoc
    ⟨fresh_nil _, fresh_nil _, _, rfl⟩, rfl, rfl, fun halong => ?_⟩
  obtain ⟨u, hu⟩ := hstep
  have huntouched := halong [] _ [tenBytes 50] _ u rfl .nil hu hrefuses
  obtain ⟨ret, hret⟩ := hu.call
  cases hret
  exact absurd huntouched.dataptrs (by decide)

end Sequences

end CmtTcp
