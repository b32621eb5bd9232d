import CmtTcp.Basic
import CmtTcp.Lib.ListSeg
import CmtTcp.Lib.Outcome
import CmtTcp.Lib.Run
import Mathlib.Data.Fintype.Card

/-!
# Object pools

`object_pool.c`: free objects are linked through their first word, a counter beside the chain says how
many there are. `cmt_object_get` asks the counter and not the chain, so the pool is sound as long as the
two agree. Creation sets the counter to the element size, in lines that stand behind a test on the new
pool object which is the wrong way round: with an object it gives up, without one it writes through `NULL`
(`create_never`). What follows is about the pool that these lines fill in, `fillIn`.

* `Stocked`: the invariant; counter and chain agree, and every element is in the chain or held;
* `get_stocked`, `free_stocked`, `write_stocked`: what the operations do to it;
* `objectPool_sound_iff`: every run of a pool filled in is sound exactly when it has an element and its
  element size is its element count.
-/

namespace CmtTcp

open Lib (Seg Outcome Run)

/-! ### The code -/

/-- A pointer other than `NULL`. -/
abbrev Node := Fin (2 ^ 64 - 1)

instance neZero_maxCount : NeZero (2 ^ 64 - 1) := ⟨by decide⟩

/-- `cmt_object_info` -/
structure ObjectInfo where
  elementSize : U64
  elementCount : U64
  freeCount : U64
  align : U64

/-- `cmt_object_pool`, with the field `next` of all nodes -/
structure ObjectPool where
  objInfo : ObjectInfo
  objQueue : Option Node
  next : Node → Option Node

/-- What a call can end in. -/
inductive ObjectFault
  /-- an access through `NULL` -/
  | nullDeref
  /-- a pointer that was never set -/
  | wild
  /-- an `int` beyond its range -/
  | signedOverflow
  deriving DecidableEq

/-- The comparison of `resize`, `element_count * WATER_LEVEL <= free_count` in floating point. -/
structure WaterLevel where
  enough : U64 → U64 → Bool
  /-- a pool without free objects does not have enough of them -/
  not_enough_zero : ∀ count, count ≠ 0 → enough count 0 = false

def defaultMinSize : U64 := 10

def peek : U64 := 1024 * 512

/-- The loop of `cmt_object_pool_create_s` from `i` on, `n` rounds before its end. Its test looks at
`obj_queue` and not at the new node. `nodes` is what `cmt_pmemalign` hands out before it returns `NULL`. -/
def createLoop : (i n : ℕ) → (nodes : List Node) → (tmp : Node) → (next : Node → Option Node) →
    Except ObjectFault (Node → Option Node)
  | _, 0, _, _, next => .ok next
  | _, _ + 1, [], _, _ => .error .nullDeref
  | i, n + 1, node :: nodes, tmp, next =>
    -- `tmp->next = node`, `tmp = tmp->next`, `tmp->next = NULL`
    let next := Function.update (Function.update next tmp (some node)) node none
    if i = 2 ^ 31 - 1 then .error .signedOverflow else createLoop (i + 1) n nodes node next

/-- `cmt_object_pool_create_s` from the first line on that writes to the pool object, which has been found
not to be `NULL`; `none` where it gives up. What it writes is the same wherever the object lies. -/
def fillIn (size elemen align : U64) (nodes : List Node) (next : Node → Option Node) :
    Except ObjectFault (Option ObjectPool) :=
  match nodes with
  | [] => .ok none
  | first :: nodes => do
    let next := Function.update next first none
    let next ← createLoop 1 (size.toNat - 1) nodes first next
    .ok (some
      { objInfo :=
          -- the counter of free objects gets the element size
          { align := align, elementCount := size, elementSize := elemen, freeCount := elemen }
        objQueue := some first
        next := next })

/-- `cmt_object_pool_create_s`, `none` where it gives up. `objP` is what `cmt_palloc` returns; the test on
it is the wrong way round. -/
def cmtObjectPoolCreateS (objP : Option Node) (size elemen align : U64) (nodes : List Node)
    (next : Node → Option Node) : Except ObjectFault (Option ObjectPool) :=
  if objP.isSome then .ok none
  else
    -- `obj_p->obj_info.align = align`
    match objP with
    | none => .error .nullDeref
    | some _ => fillIn size elemen align nodes next

/-- The loop of `resize`, `n` rounds before its end; no queue when `cmt_pmemalign` has failed. -/
def resizeLoop : (n : ℕ) → (nodes : List Node) → (head : Option Node) → (next : Node → Option Node) →
    Option (Option Node) × (Node → Option Node)
  | 0, _, head, next => (some head, next)
  | _ + 1, [], _, next => (none, next)
  | n + 1, node :: nodes, head, next =>
    resizeLoop n nodes (some node) (Function.update next node head)

/-- The number of objects that `resize` adds. -/
def updateSize (info : ObjectInfo) : U64 :=
  if info.elementCount ≥ peek then defaultMinSize else info.elementCount

/-- `resize` -/
def resize (w : WaterLevel) (p : ObjectPool) (nodes : List Node) : Except ObjectFault ObjectPool :=
  let info := p.objInfo
  if w.enough info.elementCount info.freeCount then .ok p
  -- no round of the loop, and `new_node` was never set
  else if updateSize info = 0 then .error .wild
  else
    match resizeLoop (updateSize info).toNat nodes p.objQueue p.next with
    -- the nodes got so far stay linked behind nothing, and the counters as they were
    | (none, next) => .ok { p with next := next }
    | (some newNode, next) =>
      .ok
        { objInfo := { info with
            elementCount := info.elementCount + updateSize info
            freeCount := info.freeCount + updateSize info }
          objQueue := newNode
          next := next }

/-- `cmt_object_get` behind its call of `resize` -/
def popObject (p : ObjectPool) : Except ObjectFault (ObjectPool × Option Node) :=
  if p.objInfo.freeCount ≤ 0 then .ok (p, none)
  else
    match p.objQueue with
    | none => .error .nullDeref
    | some node =>
      .ok
        ({ p with
            objQueue := p.next node
            objInfo := { p.objInfo with freeCount := p.objInfo.freeCount - 1 } }, some node)

/-- `cmt_object_get` -/
def cmtObjectGet (w : WaterLevel) (p : ObjectPool) (nodes : List Node) :
    Except ObjectFault (ObjectPool × Option Node) := do
  let p ← resize w p nodes
  popObject p

/-- `cmt_object_free` -/
def cmtObjectFree (p : ObjectPool) (node : Node) : ObjectPool :=
  { objInfo := { p.objInfo with freeCount := p.objInfo.freeCount + 1 }
    objQueue := some node
    next := Function.update p.next node p.objQueue }

/-! ### Runs -/

/-- A pool in use: the objects held, and every node `cmt_pmemalign` handed out for it. -/
structure ObjectUse where
  pool : ObjectPool
  held : List Node
  owned : List Node

inductive ObjectLabel
  | get (nodes : List Node)
  | free (node : Node)
  | write (node : Node) (v : Option Node)

/-- What `cmt_pmemalign` hands out is nothing the pool has already. -/
def ObjectUse.Fresh (u : ObjectUse) (nodes : List Node) : Prop :=
  nodes.Nodup ∧ ∀ node ∈ nodes, node ∉ u.owned

/-- One step. Objects that are held are freed, and written to as the holder likes. -/
inductive ObjectStep (w : WaterLevel) : ObjectUse → ObjectLabel → ObjectUse → Prop
  | get {u : ObjectUse} {nodes : List Node} {p : ObjectPool} {r : Option Node} (hfresh : u.Fresh nodes)
      (h : cmtObjectGet w u.pool nodes = .ok (p, r)) :
      ObjectStep w u (.get nodes)
        { pool := p, held := r.toList ++ u.held, owned := nodes ++ u.owned }
  | free {u : ObjectUse} {node : Node} (hheld : node ∈ u.held) :
      ObjectStep w u (.free node)
        { u with pool := cmtObjectFree u.pool node, held := u.held.erase node }
  | write {u : ObjectUse} {node : Node} {v : Option Node} (hheld : node ∈ u.held) :
      ObjectStep w u (.write node v)
        { u with pool := { u.pool with next := Function.update u.pool.next node v } }

/-- A pool that was just created, from `nodes`. -/
def ObjectPool.start (p : ObjectPool) (nodes : List Node) : ObjectUse :=
  { pool := p, held := [], owned := nodes }

/-- The counter is the length of the chain, the other elements are held, and none is held twice. -/
structure ObjectUse.Accounted (u : ObjectUse) : Prop where
  chain : ∃ l, Seg u.pool.next u.pool.objQueue l none ∧ u.pool.objInfo.freeCount.toNat = l.length
  held : (u.pool.objInfo.elementCount - u.pool.objInfo.freeCount).toNat = u.held.length
  once : u.held.Nodup

/-- `cmt_object_get` meets no bad pointer, and returns `NULL` only when the chain is empty and there was
not enough memory to let it grow. -/
def ObjectUse.GetSafe (w : WaterLevel) (u : ObjectUse) : Prop :=
  ∀ nodes, u.Fresh nodes → Outcome (cmtObjectGet w u.pool nodes) (fun _ => False) fun r =>
    r.2 = none → u.pool.objQueue = none ∧ nodes.length < (updateSize u.pool.objInfo).toNat

/-! ### The loops -/

section Loops

variable {next next' : Node → Option Node} {nodes l : List Node} {head : Option Node} {tmp b : Node}
  {i n : ℕ}

theorem resizeLoop_fst_eq_none :
    (resizeLoop n nodes head next).1 = none ↔ nodes.length < n := by
  induction n generalizing nodes head next with
  | zero => simp [resizeLoop]
  | succ n ih =>
    cases nodes with
    | nil => simp [resizeLoop]
    | cons node nodes =>
      rw [resizeLoop, ih, List.length_cons]
      omega

/-- The loop writes to the new nodes only. -/
theorem resizeLoop_frame (hb : b ∉ nodes) : (resizeLoop n nodes head next).2 b = next b := by
  induction n generalizing nodes head next with
  | zero => rfl
  | succ n ih =>
    cases nodes with
    | nil => rfl
    | cons node nodes =>
      rw [resizeLoop, ih (List.not_mem_of_not_mem_cons hb)]
      exact Function.update_of_ne (List.ne_of_not_mem_cons hb) _ _

/-- The new nodes come in front of the chain. -/
theorem resizeLoop_seg (h : Seg next head l none) (hnodup : (nodes ++ l).Nodup)
    {newNode : Option Node} (hr : (resizeLoop n nodes head next).1 = some newNode) :
    Seg (resizeLoop n nodes head next).2 newNode ((nodes.take n).reverse ++ l) none := by
  -- each round moves one new node in front; `l` is the chain so far
  induction n generalizing nodes head next l with
  | zero =>
    obtain rfl : head = newNode := Option.some.inj hr
    exact h
  | succ n ih =>
    cases nodes with
    | nil => cases hr
    | cons node nodes =>
      -- the node that is linked next is not in the chain yet
      have hperm : (nodes ++ node :: l).Nodup := List.nodup_middle.mpr hnodup
      have hnode : node ∉ l := (List.nodup_cons.mp (List.nodup_append.mp hperm).2.1).1
      have hseg := ih (h.push hnode) hperm hr
      rw [List.take_succ_cons, List.reverse_cons, List.append_assoc]
      exact hseg

/-- The new nodes come behind the last one. -/
theorem createLoop_seg (h : createLoop i n nodes tmp next = .ok next') (htmp : next tmp = none)
    (hnodup : (tmp :: nodes).Nodup) :
    n ≤ nodes.length ∧ Seg next' (some tmp) (tmp :: nodes.take n) none ∧
      ∀ b, b ∉ tmp :: nodes → next' b = next b := by
  induction n generalizing i nodes tmp next with
  | zero =>
    cases h
    exact ⟨Nat.zero_le _, ⟨rfl, htmp⟩, fun _ _ => rfl⟩
  | succ n ih =>
    cases nodes with
    | nil => cases h
    | cons node nodes =>
      unfold createLoop at h
      split at h
      · cases h
      · obtain ⟨hle, hseg, hframe⟩ := ih h (Function.update_self _ _ _) (List.nodup_cons.mp hnodup).2
        -- the rounds behind this one write to later nodes only
        have htmp' : next' tmp = some node := by
          rw [hframe tmp (List.nodup_cons.mp hnodup).1, Function.update_of_ne, Function.update_self]
          exact List.ne_of_not_mem_cons (List.nodup_cons.mp hnodup).1
        refine ⟨Nat.succ_le_succ hle, ⟨rfl, ?_⟩, ?_⟩
        · rw [htmp']
          exact hseg
        · intro b hb
          have hb' := List.not_mem_of_not_mem_cons hb
          rw [hframe b hb', Function.update_of_ne (List.ne_of_not_mem_cons hb'),
            Function.update_of_ne (List.ne_of_not_mem_cons hb)]

end Loops

/-! ### The invariant -/

/-- The pool keeps the objects `l`, and every element is one of these or held. -/
structure ObjectUse.Stocked (u : ObjectUse) (l : List Node) : Prop where
  chain : Seg u.pool.next u.pool.objQueue l none
  freeCount : u.pool.objInfo.freeCount.toNat = l.length
  elementCount : u.pool.objInfo.elementCount.toNat = l.length + u.held.length
  elements : 0 < l.length + u.held.length
  nodup : (l ++ u.held).Nodup
  owned : ∀ node ∈ l ++ u.held, node ∈ u.owned

section Stocked

variable {w : WaterLevel} {u u' : ObjectUse} {l nodes : List Node} {node : Node} {v : Option Node}

theorem ObjectUse.Stocked.accounted (h : u.Stocked l) : u.Accounted where
  chain := ⟨l, h.chain, h.freeCount⟩
  held := by
    have hle : u.pool.objInfo.freeCount ≤ u.pool.objInfo.elementCount := by
      rw [BitVec.le_def, h.freeCount, h.elementCount]
      exact Nat.le_add_right _ _
    rw [BitVec.toNat_sub_of_le hle, h.freeCount, h.elementCount]
    omega
  once := (List.nodup_append.mp h.nodup).2.1

theorem ObjectUse.Stocked.elementCount_ne (h : u.Stocked l) :
    u.pool.objInfo.elementCount ≠ 0 := by
  intro hzero
  have hcount := h.elementCount
  rw [hzero] at hcount
  exact h.elements.ne hcount

theorem updateSize_ne_zero {info : ObjectInfo} (h : info.elementCount ≠ 0) : updateSize info ≠ 0 := by
  unfold updateSize
  split
  · decide
  · exact h

/-- No more objects than pointers: the counters do not overflow. -/
theorem nodes_lt {l : List Node} (h : l.Nodup) : l.length < 2 ^ 64 := by
  have hle := h.length_le_card
  rw [Fintype.card_fin] at hle
  omega

/-- The pool after `resize` put `n` new nodes in front of its chain. -/
theorem ObjectUse.Stocked.grown {n : U64} {next : Node → Option Node} {queue : Option Node}
    (h : u.Stocked l) (hnodup : (nodes ++ (l ++ u.held)).Nodup)
    (howned : ∀ node ∈ l ++ u.held, node ∈ nodes ++ u.owned) (hlen : n.toNat ≤ nodes.length)
    (hseg : Seg next queue ((nodes.take n.toNat).reverse ++ l) none) :
    { u with
      pool :=
        { objInfo := { u.pool.objInfo with
            elementCount := u.pool.objInfo.elementCount + n
            freeCount := u.pool.objInfo.freeCount + n }
          objQueue := queue
          next := next }
      owned := nodes ++ u.owned : ObjectUse }.Stocked ((nodes.take n.toNat).reverse ++ l) := by
  have hperm : ((nodes.take n.toNat).reverse ++ l ++ u.held).Perm
      (nodes.take n.toNat ++ (l ++ u.held)) := by
    rw [List.append_assoc]
    exact (List.reverse_perm _).append_right _
  have hnodup' : ((nodes.take n.toNat).reverse ++ l ++ u.held).Nodup :=
    hperm.nodup_iff.mpr (hnodup.sublist ((List.take_sublist _ _).append_right _))
  have hlength : ((nodes.take n.toNat).reverse ++ l).length = l.length + n.toNat := by
    rw [List.length_append, List.length_reverse, List.length_take_of_le hlen, Nat.add_comm]
  -- there is room in the counters, because all these nodes are different
  have hlt : l.length + n.toNat + u.held.length < 2 ^ 64 := by
    rw [← hlength, ← List.length_append]
    exact nodes_lt hnodup'
  have hcount : (u.pool.objInfo.elementCount + n).toNat =
      l.length + n.toNat + u.held.length := by
    rw [BitVec.toNat_add, h.elementCount, Nat.mod_eq_of_lt (by omega)]
    omega
  exact {
    chain := hseg
    freeCount := by
      rw [BitVec.toNat_add, h.freeCount, hlength]
      exact Nat.mod_eq_of_lt (by omega)
    elementCount := by rw [hlength]; exact hcount
    elements := by
      have hpos := h.elements
      rw [hlength]
      show 0 < l.length + n.toNat + u.held.length
      omega
    nodup := hnodup'
    owned := by
      intro node hn
      rcases List.mem_append.mp (hperm.mem_iff.mp hn) with hn | hn
      · exact List.mem_append_left _ (List.mem_of_mem_take hn)
      · exact howned node hn }

/-- A pool that is stocked stays so when it grows. It has objects afterwards, unless it had none and there
was not enough memory. -/
theorem resize_stocked (h : u.Stocked l) (hfresh : u.Fresh nodes) :
    Outcome (resize w u.pool nodes) (fun _ => False) fun p =>
      ∃ l', { u with pool := p, owned := nodes ++ u.owned : ObjectUse }.Stocked l' ∧
        (l' = [] → l = [] ∧ nodes.length < (updateSize u.pool.objInfo).toNat) := by
  have howned : ∀ node ∈ l ++ u.held, node ∈ nodes ++ u.owned :=
    fun node hn => List.mem_append_right _ (h.owned node hn)
  have hnodup : (nodes ++ (l ++ u.held)).Nodup :=
    List.nodup_append'.mpr ⟨hfresh.1, h.nodup, fun node hn hl => hfresh.2 node hn (h.owned node hl)⟩
  unfold resize
  refine Outcome.ite (fun henough => ?_) fun _ => Outcome.ite
    (fun hzero => updateSize_ne_zero h.elementCount_ne hzero) fun _ => ?_
  · -- enough objects are left, so there are some
    refine ⟨l, { h with owned := howned }, ?_⟩
    rintro rfl
    have hzero : u.pool.objInfo.freeCount = 0 := BitVec.eq_of_toNat_eq h.freeCount
    rw [hzero, w.not_enough_zero _ h.elementCount_ne] at henough
    cases henough
  · have hnodup' : (nodes ++ l).Nodup := by
      rw [← List.append_assoc] at hnodup
      exact (List.nodup_append.mp hnodup).1
    cases hr : resizeLoop (updateSize u.pool.objInfo).toNat nodes u.pool.objQueue u.pool.next with
    | mk queue next =>
      cases queue with
      | none =>
        -- growth has failed half way, outside the chain
        have hlt := resizeLoop_fst_eq_none.mp (congrArg Prod.fst hr)
        refine ⟨l, { h with chain := h.chain.congr fun node hn => ?_, owned := howned },
          fun hnil => ⟨hnil, hlt⟩⟩
        have hframe := @resizeLoop_frame u.pool.next nodes u.pool.objQueue node
          (updateSize u.pool.objInfo).toNat fun hmem =>
            hfresh.2 node hmem (h.owned node (List.mem_append_left _ hn))
        rwa [hr] at hframe
      | some newNode =>
        -- growth has gone through, so there were nodes enough
        have hlen : (updateSize u.pool.objInfo).toNat ≤ nodes.length := by
          by_contra hlt
          have hnone := (@resizeLoop_fst_eq_none u.pool.next nodes u.pool.objQueue _).mpr
            (Nat.lt_of_not_le hlt)
          rw [hr] at hnone
          cases hnone
        have hseg := resizeLoop_seg h.chain hnodup' (congrArg Prod.fst hr)
        rw [hr] at hseg
        exact ⟨_, h.grown hnodup howned hlen hseg, fun hnil =>
          absurd (List.append_eq_nil_iff.mp hnil).1 (by
            rw [List.reverse_eq_nil_iff, List.take_eq_nil_iff]
            rintro (hzero | rfl)
            · exact updateSize_ne_zero h.elementCount_ne (BitVec.eq_of_toNat_eq hzero)
            · exact updateSize_ne_zero h.elementCount_ne
                (BitVec.eq_of_toNat_eq (Nat.le_zero.mp hlen)))⟩

/-- `cmt_object_get` on a stocked pool. -/
theorem get_stocked (h : u.Stocked l) (hfresh : u.Fresh nodes) :
    Outcome (cmtObjectGet w u.pool nodes) (fun _ => False) fun r =>
      (∃ l', { pool := r.1, held := r.2.toList ++ u.held, owned := nodes ++ u.owned :
        ObjectUse }.Stocked l') ∧
      (r.2 = none → u.pool.objQueue = none ∧ nodes.length < (updateSize u.pool.objInfo).toNat) := by
  unfold cmtObjectGet
  refine Outcome.bind (resize_stocked h hfresh) ?_
  rintro p ⟨l', h', hgrown⟩
  unfold popObject
  refine Outcome.ite (fun hzero => ?_) fun hpos => ?_
  · -- no object is left
    have hlen : l'.length = 0 := by
      rw [← h'.freeCount, BitVec.le_zero_iff.mp hzero]
      rfl
    obtain ⟨rfl, hlt⟩ := hgrown (List.eq_nil_of_length_eq_zero hlen)
    exact ⟨⟨l', h'⟩, fun _ => ⟨h.chain, hlt⟩⟩
  · cases l' with
    | nil => exact absurd (BitVec.le_of_eq (BitVec.eq_of_toNat_eq h'.freeCount)) hpos
    | cons node l' =>
      obtain ⟨hqueue, hseg⟩ := h'.chain
      rw [hqueue]
      refine ⟨⟨l', ?_⟩, fun hnone => by cases hnone⟩
      -- the first object of the chain goes over to those held
      have hperm : (l' ++ node :: u.held).Perm (node :: l' ++ u.held) := List.perm_middle
      have hfree : 1 ≤ p.objInfo.freeCount := by
        refine BitVec.le_def.mpr ?_
        rw [h'.freeCount]
        exact Nat.le_add_left _ _
      exact {
        chain := hseg
        freeCount := by
          show (p.objInfo.freeCount - 1).toNat = l'.length
          rw [BitVec.toNat_sub_of_le hfree, h'.freeCount]
          rfl
        elementCount := h'.elementCount.trans (by
          show (node :: l').length + u.held.length = l'.length + (node :: u.held).length
          rw [List.length_cons, List.length_cons]
          omega)
        elements := Nat.lt_of_lt_of_le Nat.one_pos (by
          show 1 ≤ l'.length + (node :: u.held).length
          rw [List.length_cons]
          omega)
        nodup := hperm.nodup_iff.mpr h'.nodup
        owned := fun n hn => h'.owned n (hperm.mem_iff.mp hn) }

/-- `cmt_object_free` of an object that is held -/
theorem free_stocked (h : u.Stocked l) (hheld : node ∈ u.held) :
    { u with pool := cmtObjectFree u.pool node, held := u.held.erase node : ObjectUse }.Stocked
      (node :: l) := by
  have hnodup := List.nodup_append.mp h.nodup
  have hnode : node ∉ l := fun hmem => hnodup.2.2 node hmem node hheld rfl
  have hperm : (node :: l ++ u.held.erase node).Perm (l ++ u.held) :=
    List.perm_middle.symm.trans ((List.perm_cons_erase hheld).symm.append_left l)
  have hlen : (u.held.erase node).length + 1 = u.held.length := by
    rw [List.length_erase_of_mem hheld]
    exact Nat.succ_pred_eq_of_pos (List.length_pos_of_mem hheld)
  -- the counter does not wrap: the object was held, and so is not in the chain
  have hroom : l.length + 1 < 2 ^ 64 := by
    have hlt := nodes_lt h.nodup
    rw [List.length_append] at hlt
    omega
  exact {
    chain := h.chain.push hnode
    freeCount := by
      show (u.pool.objInfo.freeCount + 1).toNat = l.length + 1
      rw [BitVec.toNat_add, h.freeCount]
      exact Nat.mod_eq_of_lt hroom
    elementCount := h.elementCount.trans (by
      show l.length + u.held.length = l.length + 1 + (u.held.erase node).length
      omega)
    elements := Nat.add_pos_left (Nat.succ_pos _) _
    nodup := hperm.nodup_iff.mpr h.nodup
    owned := fun n hn => h.owned n (hperm.mem_iff.mp hn) }

/-- What a holder writes into its object does not reach the chain. -/
theorem write_stocked (h : u.Stocked l) (hheld : node ∈ u.held) :
    { u with pool := { u.pool with next := Function.update u.pool.next node v } : ObjectUse }.Stocked
      l :=
  { h with
    chain := h.chain.congr fun b hb => Function.update_of_ne
      ((List.nodup_append.mp h.nodup).2.2 b hb node hheld) _ _ }

/-- **One step.** -/
theorem ObjectStep.stocked {lb : ObjectLabel} (hstep : ObjectStep w u lb u')
    (h : ∃ l, u.Stocked l) : ∃ l, u'.Stocked l := by
  obtain ⟨l, h⟩ := h
  cases hstep with
  | get hfresh hget => exact ((get_stocked h hfresh).of_ok hget).1
  | free hheld => exact ⟨_, free_stocked h hheld⟩
  | write hheld => exact ⟨_, write_stocked h hheld⟩

end Stocked

/-! ### The pool that was created -/

/-- `cmt_object_pool_create_s` does not return a pool. -/
theorem create_never (objP : Option Node) (size elemen align : U64) (nodes : List Node)
    (next : Node → Option Node) (p : ObjectPool) :
    cmtObjectPoolCreateS objP size elemen align nodes next ≠ .ok (some p) := by
  cases objP <;> exact nofun

section Created

variable {w : WaterLevel} {size elemen align : U64} {nodes : List Node}
  {next : Node → Option Node} {p : ObjectPool}

/-- The pool that is filled in: its chain has one node at least, and its counter is the element size. -/
theorem fillIn_chain (hnodup : nodes.Nodup) (h : fillIn size elemen align nodes next = .ok (some p)) :
    p.objInfo.elementCount = size ∧ p.objInfo.freeCount = elemen ∧
      ∃ l, l <+: nodes ∧ l.length = size.toNat - 1 + 1 ∧ Seg p.next p.objQueue l none := by
  unfold fillIn at h
  cases nodes with
  | nil => cases h
  | cons first nodes =>
    dsimp only at h
    cases hloop : createLoop 1 (size.toNat - 1) nodes first (Function.update next first none) with
    | error e =>
      rw [hloop] at h
      cases h
    | ok next' =>
      rw [hloop] at h
      cases h
      obtain ⟨hle, hseg, -⟩ := createLoop_seg hloop (Function.update_self _ _ _) hnodup
      refine ⟨rfl, rfl, first :: nodes.take (size.toNat - 1), ?_, ?_, hseg⟩
      · exact (List.prefix_cons_inj first).mpr (List.take_prefix _ _)
      · rw [List.length_cons, List.length_take_of_le hle]

/-- A new pool is sound from the start when the counter is right. -/
theorem start_stocked (hnodup : nodes.Nodup) (h : fillIn size elemen align nodes next = .ok (some p))
    (hsize : 1 ≤ size) (helemen : elemen = size) : ∃ l, (p.start nodes).Stocked l := by
  obtain ⟨hcount, hfree, l, hprefix, hlen, hseg⟩ := fillIn_chain hnodup h
  have hsize' : 1 ≤ size.toNat := BitVec.le_def.mp hsize
  have hlen' : l.length = size.toNat := by omega
  -- of a new pool nothing is held
  have hl : l ++ (p.start nodes).held = l := List.append_nil l
  exact ⟨l, {
    chain := hseg
    freeCount := by
      show p.objInfo.freeCount.toNat = l.length
      rw [hfree, helemen, hlen']
    elementCount := by
      show p.objInfo.elementCount.toNat = l.length
      rw [hcount, hlen']
    elements := by
      show 0 < l.length
      omega
    nodup := by
      rw [hl]
      exact hprefix.sublist.nodup hnodup
    owned := by
      rw [hl]
      exact fun node hn => hprefix.subset hn }⟩

end Created

/-- **The pool is sound exactly when its counter was set right.** `cmt_object_pool_create_s` never gets
to a pool. Of a pool that the lines behind its test fill in the accounts are right and `cmt_object_get` is
safe along every run if and only if the pool has an element and the element size is the number of
elements. -/
theorem objectPool_sound_iff (w : WaterLevel) (size elemen align : U64) (nodes : List Node)
    (next : Node → Option Node) (p : ObjectPool) (hnodup : nodes.Nodup)
    (h : fillIn size elemen align nodes next = .ok (some p)) :
    (∀ objP q, cmtObjectPoolCreateS objP size elemen align nodes next ≠ .ok (some q)) ∧
      ((∀ ls u, Run (ObjectStep w) (p.start nodes) ls u → u.Accounted ∧ u.GetSafe w) ↔
        1 ≤ size ∧ elemen = size) := by
  refine ⟨fun objP q => create_never objP size elemen align nodes next q, ?_⟩
  constructor
  · intro hall
    -- the new pool itself shows it
    obtain ⟨hcount, hfree, l, -, hlen, hseg⟩ := fillIn_chain hnodup h
    obtain ⟨⟨⟨l', hseg', hlen'⟩, hheld, -⟩, -⟩ := hall [] _ .nil
    have hl : l' = l := hseg'.unique hseg
    -- nothing is held, so the two counters are the same
    have hsub : (size - elemen).toNat = 0 := by
      rw [← hcount, ← hfree]
      exact hheld
    have heq : elemen = size := (BitVec.sub_eq_iff_eq_add.mp
      (BitVec.eq_of_toNat_eq (hsub.trans BitVec.toNat_zero.symm))).trans (BitVec.zero_add _) |>.symm
    refine ⟨BitVec.le_def.mpr ?_, heq⟩
    have hsize : size.toNat = size.toNat - 1 + 1 := by
      calc size.toNat = p.objInfo.freeCount.toNat := by rw [hfree, heq]
        _ = l'.length := hlen'
        _ = size.toNat - 1 + 1 := by rw [hl, hlen]
    show 1 ≤ size.toNat
    omega
  · rintro ⟨hsize, helemen⟩ ls u hrun
    obtain ⟨l, hu⟩ := hrun.invariant (fun u => ∃ l, u.Stocked l)
      (start_stocked hnodup h hsize helemen) fun _ _ _ hst hstep => hstep.stocked hst
    exact ⟨hu.accounted, fun nodes hfresh => (get_stocked hu hfresh).mono (fun _ hf => hf)
      fun _ hr => hr.2⟩

/-- The comparison with `WATER_LEVEL`, without rounding. -/
def exactWaterLevel : WaterLevel where
  enough := fun count free => 9 * count.toNat ≤ 10 * free.toNat
  not_enough_zero := by
    intro count hcount
    refine decide_eq_false fun hle => hcount (BitVec.eq_of_toNat_eq ?_)
    show count.toNat = 0
    have hzero : (0 : U64).toNat = 0 := rfl
    omega

/-- Eight elements of eight bytes, filled in. -/
theorem objectPool_sound_eight :
    ∃ p, fillIn 8 8 8 [0, 1, 2, 3, 4, 5, 6, 7] (fun _ => none) = .ok (some p) ∧
      ∀ ls u, Run (ObjectStep exactWaterLevel) (p.start [0, 1, 2, 3, 4, 5, 6, 7]) ls u →
        u.Accounted ∧ u.GetSafe exactWaterLevel :=
  ⟨_, rfl, (objectPool_sound_iff exactWaterLevel 8 8 8 [0, 1, 2, 3, 4, 5, 6, 7] _ _
    (by decide) rfl).2.mpr ⟨by decide, rfl⟩⟩

/-- Four elements of 64 bytes: with an object for the pool creation gives up, without one it writes through
`NULL`. Of the pool that the lines behind the test fill in the counter says 64, and the fifth
`cmt_object_get` goes through `NULL`. -/
theorem create_counts_bytes :
    cmtObjectPoolCreateS (some 9) 4 64 8 [0, 1, 2, 3] (fun _ => none) = .ok none ∧
      cmtObjectPoolCreateS none 4 64 8 [0, 1, 2, 3] (fun _ => none) = .error .nullDeref ∧
      ∃ p u, fillIn 4 64 8 [0, 1, 2, 3] (fun _ => none) = .ok (some p) ∧
        Run (ObjectStep exactWaterLevel) (p.start [0, 1, 2, 3])
          [.get [], .get [], .get [], .get []] u ∧
        ¬u.Accounted ∧ cmtObjectGet exactWaterLevel u.pool [] = .error .nullDeref := by
  have hfresh : ∀ u : ObjectUse, u.Fresh [] := fun u => ⟨List.nodup_nil, fun _ h => by cases h⟩
  refine ⟨rfl, rfl, _, _, rfl, (((Run.single (.get (hfresh _) rfl)).snoc (.get (hfresh _) rfl)).snoc
    (.get (hfresh _) rfl)).snoc (.get (hfresh _) rfl), ?_, rfl⟩
  rintro ⟨⟨l, hseg, hlen⟩, -, -⟩
  -- the chain is empty and the counter is not
  have hl : l = [] := hseg.unique rfl
  rw [hl] at hlen
  cases hlen

end CmtTcp
