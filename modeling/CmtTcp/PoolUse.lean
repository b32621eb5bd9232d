import CmtTcp.ObjectPool

/-!
# Taking objects and giving them back

`cmt_object_get` and `cmt_object_free` on a pool together with what is held of it, and the number of free
objects, on which callers rely when they undo what they have done. A get that fails leaves the number
alone (`get_cases`). One that succeeds takes an object, and the number is as before only when a pool of a
single element has grown by another one at once. When the object is put back, the number is as before
unless the pool has grown.
-/

namespace CmtTcp

namespace ObjectUse

/-- `cmt_object_get`, the object being held from now on. -/
def get (w : WaterLevel) (u : ObjectUse) (nodes : List Node) :
    Except ObjectFault (ObjectUse × Option Node) := do
  let (p, r) ← cmtObjectGet w u.pool nodes
  .ok ({ pool := p, held := r.toList ++ u.held, owned := nodes ++ u.owned }, r)

/-- `cmt_object_free` -/
def free (u : ObjectUse) (node : Node) : ObjectUse :=
  { u with pool := cmtObjectFree u.pool node, held := u.held.erase node }

/-- The number of free objects. -/
def freeCount (u : ObjectUse) : U64 := u.pool.objInfo.freeCount

/-- No object is free, and there is not enough memory for more. -/
def Exhausted (u : ObjectUse) (nodes : List Node) : Prop :=
  u.freeCount = 0 ∧ nodes.length < (updateSize u.pool.objInfo).toNat

instance (u : ObjectUse) (nodes : List Node) : Decidable (u.Exhausted nodes) :=
  inferInstanceAs (Decidable (u.freeCount = 0 ∧ nodes.length < (updateSize u.pool.objInfo).toNat))

/-- The pool wants more objects, and gets the memory. -/
def Grows (w : WaterLevel) (u : ObjectUse) (nodes : List Node) : Prop :=
  ¬(w.enough u.pool.objInfo.elementCount u.freeCount ∨
    nodes.length < (updateSize u.pool.objInfo).toNat)

/-- The pool has a single element, wants another one and gets the memory. -/
def GrowsByOne (w : WaterLevel) (u : ObjectUse) (nodes : List Node) : Prop :=
  w.enough u.pool.objInfo.elementCount u.freeCount = false ∧ u.pool.objInfo.elementCount = 1 ∧ nodes ≠ []

end ObjectUse

/-! ### The counters -/

section Counters

variable {w : WaterLevel} {p p' : ObjectPool} {r : Option Node} {nodes : List Node}

theorem updateSize_eq_one {info : ObjectInfo} : updateSize info = 1 ↔ info.elementCount = 1 := by
  unfold updateSize
  split
  · next hge =>
    refine iff_of_false (by decide) fun hone => ?_
    rw [hone] at hge
    exact absurd hge (by decide)
  · exact Iff.rfl

/-- The counters after `resize`: they move only when all the memory was there. -/
theorem resize_info (h : resize w p nodes = .ok p') :
    p'.objInfo =
      if w.enough p.objInfo.elementCount p.objInfo.freeCount ∨
          nodes.length < (updateSize p.objInfo).toNat then p.objInfo
      else
        { p.objInfo with
          elementCount := p.objInfo.elementCount + updateSize p.objInfo
          freeCount := p.objInfo.freeCount + updateSize p.objInfo } := by
  unfold resize at h
  dsimp only at h
  split at h
  · next henough =>
    rw [if_pos (.inl henough), Except.ok.inj h]
  · next henough =>
    split at h
    · cases h
    · cases hr : resizeLoop (updateSize p.objInfo).toNat nodes p.objQueue p.next with
      | mk queue next =>
        rw [hr] at h
        cases queue with
        | none =>
          rw [if_pos (.inr (resizeLoop_fst_eq_none.mp (congrArg Prod.fst hr))), ← Except.ok.inj h]
        | some newNode =>
          have hall : ¬nodes.length < (updateSize p.objInfo).toNat := fun hlt => by
            have hnone := (@resizeLoop_fst_eq_none p.next nodes p.objQueue _).mpr hlt
            rw [hr] at hnone
            cases hnone
          rw [if_neg (not_or.mpr ⟨henough, hall⟩), ← Except.ok.inj h]

theorem popObject_info (h : popObject p = .ok (p', r)) :
    (r = none ↔ p.objInfo.freeCount = 0) ∧
      p'.objInfo.freeCount = if r = none then p.objInfo.freeCount else p.objInfo.freeCount - 1 := by
  unfold popObject at h
  split at h
  · next hzero =>
    obtain ⟨rfl, rfl⟩ := Prod.mk.inj (Except.ok.inj h)
    exact ⟨iff_of_true rfl (BitVec.le_zero_iff.mp hzero), (if_pos rfl).symm⟩
  · next hpos =>
    split at h
    · cases h
    · obtain ⟨rfl, rfl⟩ := Prod.mk.inj (Except.ok.inj h)
      refine ⟨iff_of_false (Option.some_ne_none _) fun hzero => hpos ?_, (if_neg (Option.some_ne_none _)).symm⟩
      rw [hzero]
      exact BitVec.le_refl _

end Counters

namespace ObjectUse

section Get

variable {w : WaterLevel} {u : ObjectUse} {l nodes : List Node}

/-- What becomes of a pool when an object is taken. -/
structure Taken (w : WaterLevel) (u : ObjectUse) (nodes : List Node) (u' : ObjectUse) (node : Node) : Prop where
  stocked : ∃ l, u'.Stocked l
  held : u'.held = node :: u.held
  owned : u'.owned = nodes ++ u.owned
  not_held : node ∉ u.held
  freeCount : u'.freeCount = u.freeCount ↔ u.GrowsByOne w nodes
  /-- the number when the object is put back at once -/
  restored : (u'.free node).freeCount = u.freeCount ↔ ¬u.Grows w nodes

/-- What becomes of a pool that has none. -/
structure Refused (u : ObjectUse) (nodes : List Node) (u' : ObjectUse) : Prop where
  stocked : ∃ l, u'.Stocked l
  held : u'.held = u.held
  owned : u'.owned = nodes ++ u.owned
  freeCount : u'.freeCount = u.freeCount

/-- A pool grows by one when all the memory for one object more was there. -/
theorem growsByOne_iff :
    u.GrowsByOne w nodes ↔ u.Grows w nodes ∧ updateSize u.pool.objInfo = 1 := by
  unfold GrowsByOne Grows
  rw [updateSize_eq_one, not_or, Bool.not_eq_true, and_assoc]
  refine and_congr_right fun _ => ?_
  rw [and_comm]
  refine and_congr_left fun hone => ?_
  rw [updateSize_eq_one.mpr hone, not_lt]
  exact (Nat.one_le_iff_ne_zero.trans List.length_eq_zero_iff.not).symm

theorem sub_one_eq_self_iff (a n : U64) : a + n - 1 = a ↔ n = 1 := by
  constructor
  · intro h
    bv_omega
  · rintro rfl
    exact BitVec.add_sub_cancel a 1

theorem Stocked.freeCount_eq_zero (h : u.Stocked l) (hqueue : u.pool.objQueue = none) : u.freeCount = 0 := by
  have hchain := h.chain
  rw [hqueue] at hchain
  have hl : l = [] := hchain.unique rfl
  refine BitVec.eq_of_toNat_eq (h.freeCount.trans ?_)
  rw [hl]
  rfl

theorem Stocked.not_mem_held {node : Node} {p : ObjectPool} {held owned : List Node}
    (h : Stocked ⟨p, node :: held, owned⟩ l) : node ∉ held :=
  (List.nodup_cons.mp (List.nodup_append.mp h.nodup).2.1).1

/-- Both parts of `cmt_object_get`. -/
theorem cmtObjectGet_ok {p p' : ObjectPool} {r : Option Node} (h : cmtObjectGet w p nodes = .ok (p', r)) :
    ∃ q, resize w p nodes = .ok q ∧ popObject q = .ok (p', r) := by
  unfold cmtObjectGet at h
  cases hq : resize w p nodes with
  | error e =>
    rw [hq] at h
    cases h
  | ok q =>
    rw [hq] at h
    exact ⟨q, rfl, h⟩

theorem freeCount_of_not_grows {q : ObjectPool} (h : resize w u.pool nodes = .ok q)
    (hgrows : ¬u.Grows w nodes) : q.objInfo.freeCount = u.freeCount := by
  have hinfo := (resize_info h).trans (if_pos (not_not.mp hgrows))
  exact congrArg ObjectInfo.freeCount hinfo

theorem freeCount_of_grows {q : ObjectPool} (h : resize w u.pool nodes = .ok q) (hgrows : u.Grows w nodes) :
    q.objInfo.freeCount = u.freeCount + updateSize u.pool.objInfo := by
  have hinfo := (resize_info h).trans (if_neg hgrows)
  exact congrArg ObjectInfo.freeCount hinfo

/-- One object less than after `resize` is as many as before exactly when one has come. -/
theorem freeCount_pop_iff {q : ObjectPool} (h : resize w u.pool nodes = .ok q) :
    q.objInfo.freeCount - 1 = u.freeCount ↔ u.GrowsByOne w nodes := by
  rw [growsByOne_iff]
  by_cases hgrows : u.Grows w nodes
  · rw [freeCount_of_grows h hgrows]
    exact (sub_one_eq_self_iff _ _).trans (and_iff_right hgrows).symm
  · rw [freeCount_of_not_grows h hgrows]
    refine iff_of_false (fun heq => ?_) fun hone => hgrows hone.1
    bv_omega

/-- As many as after `resize` are as many as before exactly when none has come. -/
theorem freeCount_resize_iff {q : ObjectPool} (hcount : u.pool.objInfo.elementCount ≠ 0)
    (h : resize w u.pool nodes = .ok q) : q.objInfo.freeCount = u.freeCount ↔ ¬u.Grows w nodes := by
  by_cases hgrows : u.Grows w nodes
  · rw [freeCount_of_grows h hgrows]
    refine iff_of_false (fun heq => updateSize_ne_zero hcount ?_) fun hnot => hnot hgrows
    exact BitVec.add_right_eq_self.mp heq
  · exact iff_of_true (freeCount_of_not_grows h hgrows) hgrows

/-- **What `cmt_object_get` does.** -/
theorem get_cases (h : u.Stocked l) (hfresh : u.Fresh nodes) :
    (u.Exhausted nodes ∧ ∃ u', u.get w nodes = .ok (u', none) ∧ u.Refused nodes u') ∨
      (¬u.Exhausted nodes ∧ ∃ u' node, u.get w nodes = .ok (u', some node) ∧ Taken w u nodes u' node) := by
  have hout := @get_stocked w u l nodes h hfresh
  cases hget : cmtObjectGet w u.pool nodes with
  | error e => exact (hout.of_error hget).elim
  | ok r =>
    obtain ⟨p', r⟩ := r
    obtain ⟨hstocked, hnone⟩ := hout.of_ok hget
    have hu : u.get w nodes =
        .ok ({ pool := p', held := r.toList ++ u.held, owned := nodes ++ u.owned }, r) := by
      unfold get
      rw [hget]
      rfl
    -- first `resize`, then the object at the head of the chain
    obtain ⟨q, hresize, hpop⟩ := cmtObjectGet_ok hget
    obtain ⟨hr, hcount⟩ := popObject_info hpop
    cases r with
    | none =>
      -- there was not enough memory, so the counters have not moved
      obtain ⟨hqueue, hlt⟩ := hnone rfl
      have hsame := freeCount_of_not_grows hresize (not_not_intro (.inr hlt))
      rw [if_pos rfl] at hcount
      exact .inl ⟨⟨h.freeCount_eq_zero hqueue, hlt⟩, _, hu, hstocked, rfl, rfl, hcount.trans hsame⟩
    | some node =>
      rw [if_neg (Option.some_ne_none _)] at hcount
      have hfree : q.objInfo.freeCount ≠ 0 := fun hzero => Option.some_ne_none _ (hr.mpr hzero)
      refine .inr ⟨fun hex => hfree ?_, _, node, hu, hstocked, rfl, rfl, ?_, ?_, ?_⟩
      · exact (freeCount_of_not_grows hresize (not_not_intro (.inr hex.2))).trans hex.1
      · obtain ⟨l', hl'⟩ := hstocked
        exact hl'.not_mem_held
      · change p'.objInfo.freeCount = u.freeCount ↔ _
        rw [hcount]
        exact freeCount_pop_iff hresize
      · change p'.objInfo.freeCount + 1 = u.freeCount ↔ _
        rw [hcount, BitVec.sub_add_cancel]
        exact freeCount_resize_iff h.elementCount_ne hresize

end Get

end ObjectUse

/-! ### A small pool -/

/-- There may be no memory. -/
theorem fresh_nil (u : ObjectUse) : u.Fresh [] := ⟨List.nodup_nil, fun _ h => by cases h⟩

/-- Two objects of 32 bytes. -/
def pairPool : ObjectUse where
  pool :=
    { objInfo := { elementSize := 32, elementCount := 2, freeCount := 2, align := 8 }
      objQueue := some 0
      next := fun node => if node = 0 then some 1 else none }
  held := []
  owned := [0, 1]

theorem pairPool_stocked : pairPool.Stocked [0, 1] where
  chain := ⟨rfl, rfl, rfl⟩
  freeCount := rfl
  elementCount := rfl
  elements := by decide
  nodup := by decide
  owned := fun _ h => h

end CmtTcp
