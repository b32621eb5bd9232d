import CmtTcp.Basic
import CmtTcp.Lib.RingIndex

/-!
# The ring

`cmt_ring_t` of `ring.h` for elements of eight bytes, with `cmt_ring_create` of `ring.c` and the calls
of a single producer and a single consumer. The slots are the memory that starts behind the
structure, so a copy that leaves the ring shows as a write at an index from `size` on.

`_cmt_ring_sp_do_enqueue` masks the number of free entries with `mask + 1`, which is zero for every
number a ring can have (`free_entries_eq_zero`), so it refuses every request (`spDoEnqueue_refuses`).
`ring_spsc_iff` says which runs do not notice.
-/

namespace CmtTcp

variable {α : Type*}

/-- `struct prod` -/
structure RingProd where
  spEnqueue : U32
  size : U32
  mask : U32
  head : U32
  tail : U32
deriving DecidableEq, Repr

/-- `struct cons` -/
structure RingCons where
  scDequeue : U32
  size : U32
  mask : U32
  head : U32
  tail : U32
deriving DecidableEq, Repr

/-- `cmt_ring_t`; `ring` is the memory from `&r[1]` on. -/
structure Ring (α : Type*) where
  prod : RingProd
  cons : RingCons
  ring : ℕ → α

/-- The values `cmt_ring_create` leaves in `cmt_errno`. -/
inductive RingErrno where
  | EINVAL
  | ENONMEM
deriving DecidableEq, Repr

/-- `cmt_ring_create`: `mem` is what `cmt_pmemalign` yields. -/
def cmtRingCreate (mem : Option (ℕ → α)) (count sp sc : U32) : Except RingErrno (Ring α) :=
  if count.setWidth 64 ≠ round2Up (count.setWidth 64) then .error .EINVAL
  else
    match mem with
    | none => .error .ENONMEM
    | some ring =>
      .ok
        { prod := { spEnqueue := sp, size := count, mask := count - 1, head := 0, tail := 0 }
          cons := { scDequeue := sc, size := count, mask := count - 1, head := 0, tail := 0 }
          ring := ring }

/-! ### Copying -/

/-- `dst[d++] = src[s++]`, `count` times. -/
def copyOnes (dst : ℕ → α) (d : U32) (src : ℕ → α) (s : U32) : ℕ → (ℕ → α)
  | 0 => dst
  | count + 1 => copyOnes (Function.update dst d.toNat (src s.toNat)) (d + 1) src (s + 1) count

/-- The loop that copies four elements a turn, `turns` times, and the indices it ends with. -/
def copyQuads (dst : ℕ → α) (d : U32) (src : ℕ → α) (s : U32) : ℕ → (ℕ → α) × U32 × U32
  | 0 => (dst, d, s)
  | turns + 1 =>
    let dst := Function.update dst d.toNat (src s.toNat)
    let dst := Function.update dst (d + 1).toNat (src (s + 1).toNat)
    let dst := Function.update dst (d + 2).toNat (src (s + 2).toNat)
    let dst := Function.update dst (d + 3).toNat (src (s + 3).toNat)
    copyQuads dst (d + 4) src (s + 4) turns

/-- The unrolled loop followed by the `switch` on `n & 0x3`, whose cases fall through. -/
def copyUnrolled (dst : ℕ → α) (d : U32) (src : ℕ → α) (s n : U32) : ℕ → α :=
  let q := copyQuads dst d src s ((n &&& ~~~3).toNat / 4)
  copyOnes q.1 q.2.1 src q.2.2 (n &&& 3).toNat

/-- `likely(x)`, a truth value. -/
def likely (x : U32) : U32 := if x ≠ 0 then 1 else 0

/-- `_cmt_ring_enqueue_elms_64`. The parenthesis of its `likely` closes before the comparison. -/
def enqueueElms64 (r : Ring α) (prodHead : U32) (obj : ℕ → α) (n : U32) : Ring α :=
  let size := r.prod.size
  let idx := prodHead &&& r.prod.mask
  if likely (idx + n) < size then { r with ring := copyUnrolled r.ring idx obj 0 n }
  else
    let first := size.toNat - idx.toNat
    let ring := copyOnes r.ring idx obj 0 first
    { r with ring := copyOnes ring 0 obj (BitVec.ofNat 32 first) (n.toNat - first) }

/-- `_cmt_ring_dequeue_elms_64` -/
def dequeueElms64 (r : Ring α) (consHead : U32) (obj : ℕ → α) (n : U32) : ℕ → α :=
  let size := r.cons.size
  let idx := consHead &&& r.cons.mask
  if idx + n < size then copyUnrolled obj 0 r.ring idx n
  else
    let first := size.toNat - idx.toNat
    let obj := copyOnes obj 0 r.ring idx first
    copyOnes obj (BitVec.ofNat 32 first) r.ring 0 (n.toNat - first)

@[simp] theorem enqueueElms64_prod (r : Ring α) (prodHead : U32) (obj : ℕ → α) (n : U32) :
    (enqueueElms64 r prodHead obj n).prod = r.prod := by
  unfold enqueueElms64
  dsimp only
  split <;> rfl

@[simp] theorem enqueueElms64_cons (r : Ring α) (prodHead : U32) (obj : ℕ → α) (n : U32) :
    (enqueueElms64 r prodHead obj n).cons = r.cons := by
  unfold enqueueElms64
  dsimp only
  split <;> rfl

/-! ### The calls -/

/-- `_cmt_ring_sp_do_enqueue` -/
def spDoEnqueue (r : Ring α) (obj : ℕ → α) (n : U32) : Ring α × ℤ :=
  if n = 0 then (r, 0)
  else
    let prodHead := r.prod.head
    let consTail := r.cons.tail
    let freeEntries := (r.prod.mask + consTail - prodHead) &&& (r.prod.mask + 1)
    if n > freeEntries then (r, -1)
    else
      let prodNext := prodHead + n
      let r := enqueueElms64 r prodHead obj n
      ({ r with prod := { r.prod with head := prodNext, tail := prodNext } }, 0)

/-- `_cmt_ring_sc_do_dequeue`; the second component is the table it fills. -/
def scDoDequeue (r : Ring α) (obj : ℕ → α) (n : U32) : Ring α × (ℕ → α) × ℤ :=
  if n = 0 then (r, obj, 0)
  else
    let consHead := r.cons.head
    let prodTail := r.prod.tail
    let entries := prodTail - consHead
    if n > entries then (r, obj, -1)
    else
      let consNext := consHead + n
      let obj := dequeueElms64 r consHead obj n
      ({ r with cons := { r.cons with head := consNext, tail := consNext } }, obj, n.toInt)

/-- The ring with its four indices at `v`. -/
def Ring.startAt (r : Ring α) (v : U32) : Ring α :=
  { r with
    prod := { r.prod with head := v, tail := v }
    cons := { r.cons with head := v, tail := v } }

/-! ### What the mask does -/

section Mask

variable {k : ℕ}

theorem toNat_mask (hk : k < 32) : (BitVec.ofNat 32 (2 ^ k) - 1).toNat = 2 ^ k - 1 := by
  have hlt : 2 ^ k < 2 ^ 32 := Nat.pow_lt_pow_right (by decide) hk
  have hpos : 0 < 2 ^ k := Nat.two_pow_pos k
  bv_omega

/-- The free entries of a ring, counted without the second mask. -/
theorem toNat_free_entries {mask prodHead consTail : U32}
    (hused : (prodHead - consTail).toNat ≤ mask.toNat) :
    (mask + consTail - prodHead).toNat = mask.toNat - (prodHead - consTail).toNat := by
  bv_omega

/-- No number of free entries has the bit that `_cmt_ring_sp_do_enqueue` keeps. -/
theorem free_entries_eq_zero {prodHead consTail : U32} (hk : k < 32)
    (hused : (prodHead - consTail).toNat ≤ 2 ^ k - 1) :
    (BitVec.ofNat 32 (2 ^ k) - 1 + consTail - prodHead) &&& (BitVec.ofNat 32 (2 ^ k) - 1 + 1) =
      0#32 := by
  have hmask := toNat_mask hk
  rw [← hmask] at hused
  have hfree := toNat_free_entries hused
  have hlt : (BitVec.ofNat 32 (2 ^ k) - 1 + consTail - prodHead).toNat < 2 ^ k := by
    have hpos := Nat.two_pow_pos k
    omega
  have hsize : (BitVec.ofNat 32 (2 ^ k) - 1 + 1).toNat = 2 ^ k := by
    rw [BitVec.sub_add_cancel, BitVec.toNat_ofNat]
    exact Nat.mod_eq_of_lt (Nat.pow_lt_pow_right (by decide) hk)
  apply BitVec.eq_of_toNat_eq
  rw [BitVec.toNat_and, hsize, Lib.and_two_pow_eq_zero hlt]
  rfl

end Mask

/-- On a ring whose size is a power of two, `_cmt_ring_sp_do_enqueue` refuses every request. -/
theorem spDoEnqueue_refuses {k : ℕ} (hk : k < 32) (r : Ring α) (obj : ℕ → α) {n : U32} (hn : n ≠ 0)
    (hmask : r.prod.mask = BitVec.ofNat 32 (2 ^ k) - 1)
    (hused : (r.prod.head - r.cons.tail).toNat ≤ 2 ^ k - 1) :
    spDoEnqueue r obj n = (r, -1) := by
  have hfree := free_entries_eq_zero hk hused
  unfold spDoEnqueue
  rw [if_neg hn]
  dsimp only
  rw [hmask, hfree]
  -- `free_entries` is `0` after the second mask, and `n` is not
  exact if_pos (by bv_omega)

/-- `_cmt_ring_sc_do_dequeue` refuses what the ring does not hold. -/
theorem scDoDequeue_refuses (r : Ring α) (obj : ℕ → α) {n : U32}
    (hn : (r.prod.tail - r.cons.head).toNat < n.toNat) : scDoDequeue r obj n = (r, obj, -1) := by
  unfold scDoDequeue
  rw [if_neg (by rintro rfl; exact absurd hn (Nat.not_lt_zero _))]
  exact if_pos (by bv_omega)

/-! ### Runs of one producer and one consumer -/

/-- A call on the ring: an object table and a number of objects. -/
inductive RingOp (α : Type*) where
  | enqueue (obj : ℕ → α) (n : U32)
  | dequeue (obj : ℕ → α) (n : U32)

/-- The first `n` objects of a table. -/
def objects (obj : ℕ → α) (n : U32) : List α := (List.range n.toNat).map obj

/-- The ring and the objects that went through it. -/
structure RingHist (α : Type*) where
  r : Ring α
  enqueued : List α
  dequeued : List α

namespace RingHist

/-- How many objects the ring holds. -/
def stored (h : RingHist α) : ℕ := h.enqueued.length - h.dequeued.length

/-- The objects in the slots from `cons.tail` on. -/
def contents (h : RingHist α) : List α :=
  (List.range h.stored).map fun j =>
    h.r.ring ((h.r.cons.tail + BitVec.ofNat 32 j) &&& h.r.cons.mask).toNat

/-- One call. -/
def exec (h : RingHist α) : RingOp α → RingHist α
  | .enqueue obj n =>
    let c := spDoEnqueue h.r obj n
    { h with r := c.1, enqueued := if c.2 = -1 then h.enqueued else h.enqueued ++ objects obj n }
  | .dequeue obj n =>
    let c := scDoDequeue h.r obj n
    { h with
      r := c.1
      dequeued := if c.2.2 = -1 then h.dequeued else h.dequeued ++ objects c.2.1 n }

/-- What holds between calls on a ring of `size` slots that is a bounded FIFO. -/
structure Law (size : ℕ) (h : RingHist α) : Prop where
  fifo : h.enqueued = h.dequeued ++ h.contents
  consHead_eq : h.r.cons.head = h.r.cons.tail
  prodHead_eq : h.r.prod.head = h.r.prod.tail
  bounded : (h.r.prod.head - h.r.cons.tail).toNat ≤ size - 1

/-- What a call of at least one object does on such a ring: it succeeds exactly when there is room
for the objects, or when they are there, and changes nothing otherwise. -/
def CallLaw (size : ℕ) (h : RingHist α) : RingOp α → Prop
  | .enqueue obj n =>
    n ≠ 0 →
      ((spDoEnqueue h.r obj n).2 ≠ -1 ↔ n.toNat ≤ (size - 1) - h.stored) ∧
        ((spDoEnqueue h.r obj n).2 = -1 → (spDoEnqueue h.r obj n).1 = h.r)
  | .dequeue obj n =>
    n ≠ 0 →
      ((scDoDequeue h.r obj n).2.2 ≠ -1 ↔ n.toNat ≤ h.stored) ∧
        ((scDoDequeue h.r obj n).2.2 = -1 → scDoDequeue h.r obj n = (h.r, obj, -1))

/-- The law in every state of a run, and of every call of it. -/
def RunLaw (size : ℕ) (h : RingHist α) (ops : List (RingOp α)) : Prop :=
  ∀ done rest, ops = done ++ rest →
    (done.foldl exec h).Law size ∧ ∀ op ∈ rest.head?, (done.foldl exec h).CallLaw size op

/-- A ring nothing has gone through yet, with its four indices at `v`. -/
def start (r : Ring α) (v : U32) : RingHist α where
  r := r.startAt v
  enqueued := []
  dequeued := []

end RingHist

/-- A request that a ring of `size` slots refuses whatever it holds, or that asks for nothing. -/
def RingOp.Refusable (size : ℕ) : RingOp α → Prop
  | .enqueue _ n => n = 0 ∨ size ≤ n.toNat
  | .dequeue _ _ => True

section Run

variable {k : ℕ} {r : Ring α} {v : U32}

theorem cmtRingCreate_mask {mem : Option (ℕ → α)} {count sp sc : U32}
    (h : cmtRingCreate mem count sp sc = .ok r) :
    r.prod.mask = count - 1 ∧ r.cons.mask = count - 1 := by
  unfold cmtRingCreate at h
  split at h
  · cases h
  · split at h
    · cases h
    · cases h
      exact ⟨rfl, rfl⟩

theorem RingHist.start_law : (RingHist.start r v).Law (2 ^ k) where
  fifo := rfl
  consHead_eq := rfl
  prodHead_eq := rfl
  bounded := by simp [RingHist.start, Ring.startAt]

theorem RingHist.spDoEnqueue_start (hk : k < 32)
    (hmask : r.prod.mask = BitVec.ofNat 32 (2 ^ k) - 1) (obj : ℕ → α) {n : U32} (hn : n ≠ 0) :
    spDoEnqueue (RingHist.start r v).r obj n = ((RingHist.start r v).r, -1) :=
  spDoEnqueue_refuses hk _ obj hn hmask RingHist.start_law.bounded

theorem RingHist.scDoDequeue_start (obj : ℕ → α) {n : U32} (hn : n ≠ 0) :
    scDoDequeue (RingHist.start r v).r obj n = ((RingHist.start r v).r, obj, -1) := by
  apply scDoDequeue_refuses
  simp only [RingHist.start, Ring.startAt, BitVec.sub_self]
  bv_omega

/-- No call leaves a trace. -/
theorem RingHist.exec_start (hk : k < 32) (hmask : r.prod.mask = BitVec.ofNat 32 (2 ^ k) - 1)
    (op : RingOp α) : (RingHist.start r v).exec op = RingHist.start r v := by
  cases op with
  | enqueue obj n =>
    -- asking for nothing returns `0` and is not counted as a failure
    by_cases hn : n = 0
    · subst hn
      rfl
    · simp only [RingHist.exec, RingHist.spDoEnqueue_start hk hmask obj hn]
      rfl
  | dequeue obj n =>
    by_cases hn : n = 0
    · subst hn
      rfl
    · simp only [RingHist.exec, RingHist.scDoDequeue_start obj hn]
      rfl

theorem RingHist.run_start (hk : k < 32) (hmask : r.prod.mask = BitVec.ofNat 32 (2 ^ k) - 1)
    (ops : List (RingOp α)) : ops.foldl RingHist.exec (RingHist.start r v) = RingHist.start r v := by
  induction ops with
  | nil => rfl
  | cons op ops ih => rw [List.foldl_cons, RingHist.exec_start hk hmask, ih]

/-- A call obeys the law exactly when it is one the ring has to refuse. -/
theorem RingHist.callLaw_start_iff (hk : k < 32)
    (hmask : r.prod.mask = BitVec.ofNat 32 (2 ^ k) - 1) (op : RingOp α) :
    (RingHist.start r v).CallLaw (2 ^ k) op ↔ op.Refusable (2 ^ k) := by
  have hpos := Nat.two_pow_pos k
  cases op with
  | enqueue obj n =>
    change (n ≠ 0 → _) ↔ n = 0 ∨ 2 ^ k ≤ n.toNat
    by_cases hn : n = 0
    · exact ⟨fun _ => .inl hn, fun _ h => absurd hn h⟩
    · rw [RingHist.spDoEnqueue_start hk hmask obj hn]
      change (n ≠ 0 → (-1 ≠ -1 ↔ n.toNat ≤ 2 ^ k - 1 - 0) ∧ _) ↔ _
      constructor
      · intro h
        -- the call fails, so the law says that there was no room
        have hsize := (h hn).1
        right
        by_contra hlt
        exact hsize.mpr (by omega) rfl
      · rintro (h | h)
        · exact absurd h hn
        · refine fun _ => ⟨⟨fun hne => absurd rfl hne, fun hle => ?_⟩, fun _ => rfl⟩
          omega
  | dequeue obj n =>
    change (n ≠ 0 → _) ↔ True
    refine iff_true_intro fun hn => ?_
    rw [RingHist.scDoDequeue_start obj hn]
    refine ⟨⟨fun hne => absurd rfl hne, fun hle => ?_⟩, fun _ => rfl⟩
    -- an empty ring holds no object, so only `n = 0` could succeed
    have hzero : n.toNat = 0 := Nat.le_zero.mp hle
    exact absurd (BitVec.eq_of_toNat_eq hzero) hn

end Run

/-- **When the single-producer single-consumer ring is a bounded FIFO.** On a ring of `2^k` slots, at
whatever its four indices start: a run of calls obeys the law of a bounded FIFO if and only if
every enqueue in it asks for no object, or for more than the ring can ever hold. -/
theorem ring_spsc_iff (k : ℕ) (hk : 1 ≤ k ∧ k < 32) (mem : ℕ → α) (r : Ring α)
    (hr : cmtRingCreate (some mem) (BitVec.ofNat 32 (2 ^ k)) 1 1 = .ok r) (v : U32)
    (ops : List (RingOp α)) :
    (RingHist.start r v).RunLaw (2 ^ k) ops ↔ ∀ op ∈ ops, op.Refusable (2 ^ k) := by
  have hmask := (cmtRingCreate_mask hr).1
  unfold RingHist.RunLaw
  -- the ring stays at its start, so the law is about single calls there
  simp only [RingHist.run_start hk.2 hmask, RingHist.callLaw_start_iff hk.2 hmask]
  constructor
  · intro h op hop
    obtain ⟨done, rest, rfl⟩ := List.append_of_mem hop
    exact (h done (op :: rest) rfl).2 op rfl
  · rintro h done rest rfl
    refine ⟨RingHist.start_law, fun op hop => h op ?_⟩
    exact List.mem_append_right _ (List.mem_of_mem_head? hop)

/-- The ring of two slots that `cmt_ring_create` hands out. -/
def twoSlots : Ring ℕ where
  prod := { spEnqueue := 1, size := 2, mask := 1, head := 0, tail := 0 }
  cons := { scDequeue := 1, size := 2, mask := 1, head := 0, tail := 0 }
  ring := fun _ => 0

/-- Two slots, two objects too many and nothing to take out. -/
theorem ring_spsc_iff_twoSlots :
    cmtRingCreate (some fun _ => 0) 2 1 1 = .ok twoSlots ∧
      (RingHist.start twoSlots 7).RunLaw 2 [.enqueue id 3, .dequeue id 1] := by
  have hr : cmtRingCreate (some fun _ => 0) (BitVec.ofNat 32 (2 ^ 1)) 1 1 = .ok twoSlots := rfl
  refine ⟨hr, (ring_spsc_iff 1 (by decide) _ _ hr 7 [.enqueue id 3, .dequeue id 1]).mpr ?_⟩
  intro op hop
  simp only [List.mem_cons, List.not_mem_nil, or_false] at hop
  rcases hop with rfl | rfl
  · exact .inr (by decide)
  · trivial

/-- An empty ring of two slots has room for one object, and refuses it. -/
theorem twoSlots_refuses_one :
    cmtRingCreate (some fun _ => 0) 2 1 1 = .ok twoSlots ∧
      spDoEnqueue twoSlots id 1 = (twoSlots, -1) ∧
      ¬ (RingHist.start twoSlots 0).RunLaw 2 [.enqueue id 1] := by
  have hret : spDoEnqueue (RingHist.start twoSlots 0).r id 1 = (twoSlots, -1) := rfl
  refine ⟨rfl, hret, ?_⟩
  intro h
  have hcall := (h [] [.enqueue id 1] rfl).2 _ rfl (by decide)
  exact hcall.1.mpr (by decide) rfl

end CmtTcp
