import CmtTcp.Lib.Outcome
import CmtTcp.MemoryPool

/-!
# Resetting the memory pool

`cmt_reset_pool` of `cmt_memory_pool.c`. The pool is in use when `remained` and `size` differ; but no call of
`cmt_palloc` or `cmt_pfree` changes either of them, so `cmt_reset_pool` never returns `-1`. What it takes off
the size are the large blocks that were given back, which were never part of it.

* `resetPool_iff`: when a reset does what it is for, after any run of the pool;
* `resetPool_iff_of_safe`: the same for safe runs, in terms of the blocks that were given back.
-/

namespace CmtTcp

open Lib (Seg Region Laid Run Guarded Outcome)

/-! ### The code -/

/-- `cmt_pool_t` with the field `size` of its control block, and where the memory behind it starts. -/
structure ResetPool where
  size : U64
  area : Addr
  pool : MemPool

/-- The pool as `cmt_create_pool` sets it up. -/
def createdReset (size : U64) (data : Addr) (chunkNext : Addr → Option Addr)
    (large : Addr → LargeChunk) : ResetPool where
  size := round2Up (if size < cmtDefaultPoolSize then cmtDefaultPoolSize else size)
  area := data
  pool := (createdPool size data chunkNext large).pool

/-- The loop of `cmt_reset_pool` over the large chunks, for at most `n` turns: what it leaves of `ctb->size`,
and the chunks that it frees. -/
def resetLarge (large : Addr → LargeChunk) : ℕ → Option Addr → U64 → Option (U64 × List Addr)
  | 0, _, _ => none
  | _ + 1, none, size => some (size, [])
  | n + 1, some largeBins, size =>
    (resetLarge large n (large largeBins).next (size - (large largeBins).size.setWidth 64)).map fun r =>
      (r.1, largeBins :: r.2)

/-- What `cmt_reset_pool` stores behind the loop, which leaves `size`. The arenas are freed, but
`non_main_arena` keeps its value. -/
def ResetPool.setUp (pool : ResetPool) (size : U64) : ResetPool :=
  { pool with
    size := size
    pool := { pool.pool with
      remained := size
      largeCtb := none
      lastSize := size.setWidth 32
      lastData := pool.area
      smallbins := fun i =>
        if i < totalBins then { nums := 0, free := none } else pool.pool.smallbins i } }

/-- `cmt_reset_pool`: the pool, what it returns, and what it frees. The loop over the large chunks is given
`n` turns. -/
def cmtResetPool (n : ℕ) (pool : ResetPool) : Option (ResetPool × ℤ × List Addr) :=
  if pool.pool.remained ≠ pool.size then some (pool, -1, [])
  else
    (resetLarge pool.pool.large n pool.pool.largeCtb pool.size).map fun r =>
      (pool.setUp r.1, 0, r.2 ++ pool.pool.nonMainArena)

/-! ### What is asked of it -/

/-- The block came from a bin or from the last block. -/
def MemBlock.Small (b : MemBlock) : Prop := ¬maxMemSize < roundUp b.size 8

instance (b : MemBlock) : Decidable b.Small := inferInstanceAs (Decidable ¬maxMemSize < roundUp b.size 8)

/-- The pool is set up as the other one is. -/
structure ResetPool.SetUpAs (pool pool₀ : ResetPool) : Prop where
  size : pool.size = pool₀.size
  area : pool.area = pool₀.area
  remained : pool.pool.remained = pool₀.pool.remained
  largeCtb : pool.pool.largeCtb = pool₀.pool.largeCtb
  lastSize : pool.pool.lastSize = pool₀.pool.lastSize
  lastData : pool.pool.lastData = pool₀.pool.lastData
  nonMainArena : pool.pool.nonMainArena = pool₀.pool.nonMainArena
  smallbins : ∀ i < totalBins, pool.pool.smallbins i = pool₀.pool.smallbins i

/-- Nothing can be reached from the bins or from the list of large chunks. -/
def ResetPool.ListsNothing (pool : ResetPool) : Prop :=
  (∀ i < totalBins, (pool.pool.smallbins i).free = none) ∧ pool.pool.largeCtb = none

/-- The pool `pool₀` after a run that leads to `w`. -/
def ResetPool.after (pool₀ : ResetPool) (w : MemWorld) : ResetPool := { pool₀ with pool := w.pool }

/-- A reset is refused while a small block is in use, and otherwise sets the pool up as it was. -/
structure ResetRight (pool₀ : ResetPool) (w : MemWorld) : Prop where
  busy : (∃ b ∈ w.live, b.Small) → ∀ n, cmtResetPool n (pool₀.after w) = some (pool₀.after w, -1, [])
  idle : (∀ b ∈ w.live, ¬b.Small) → ∃ n pool freed, cmtResetPool n (pool₀.after w) = some (pool, 0, freed) ∧
    pool.SetUpAs pool₀ ∧ pool.ListsNothing

/-! ### The loop over the large chunks -/

/-- `next` of the large chunks. -/
def MemPool.largeNext (pool : MemPool) (a : Addr) : Option Addr := (pool.large a).next

/-- What the loop takes off the size for the chunks `l`. -/
def MemPool.largeSum (pool : MemPool) (l : List Addr) : U64 :=
  (l.map fun a => (pool.large a).size.setWidth 64).sum

section Loop

variable {pool : MemPool} {n : ℕ} {p : Option Addr} {l : List Addr} {size size' : U64}

theorem resetLarge_of_seg (h : Seg pool.largeNext p l none) (hn : l.length < n) :
    resetLarge pool.large n p size = some (size - pool.largeSum l, l) := by
  induction l generalizing p n size with
  | nil =>
    obtain ⟨n, rfl⟩ : ∃ k, n = k + 1 := ⟨n - 1, by omega⟩
    obtain rfl : p = none := h
    exact congrArg (fun s => some (s, [])) (sub_zero _).symm
  | cons a l ih =>
    obtain ⟨n, rfl⟩ : ∃ k, n = k + 1 := ⟨n - 1, by omega⟩
    obtain ⟨rfl, hrest⟩ := h
    rw [List.length_cons] at hn
    unfold resetLarge
    change Option.map _ (resetLarge pool.large n (pool.largeNext a) _) = _
    rw [ih hrest (by omega), Option.map_some, sub_sub]
    rfl

theorem seg_of_resetLarge (h : resetLarge pool.large n p size = some (size', l)) :
    Seg pool.largeNext p l none ∧ size' = size - pool.largeSum l := by
  induction n generalizing p l size with
  | zero => cases h
  | succ n ih =>
    cases p with
    | none =>
      cases h
      exact ⟨rfl, (sub_zero _).symm⟩
    | some a =>
      unfold resetLarge at h
      obtain ⟨r, hr, heq⟩ := Option.map_eq_some_iff.mp h
      obtain ⟨rfl, rfl⟩ := Prod.mk.inj heq
      obtain ⟨hseg, hsize⟩ := ih hr
      refine ⟨⟨rfl, hseg⟩, ?_⟩
      rw [hsize, sub_sub]
      rfl

end Loop

/-! ### What the calls leave alone -/

/-- The control block as far as no call of `cmt_palloc` or `cmt_pfree` changes it. -/
def MemPool.Fixed (pool pool' : MemPool) : Prop :=
  pool'.remained = pool.remained ∧ pool'.nonMainArena = pool.nonMainArena

section Fixed

variable {pool : MemPool} {size nums : U64} {malloc : Option Addr} {w w' : MemWorld} {c : MemCall}

theorem blockAlloc_fixed (pool : MemPool) (size nums : U64) : pool.Fixed (blockAlloc pool size nums).1 := by
  unfold blockAlloc
  dsimp only
  split
  · exact ⟨rfl, rfl⟩
  · exact ⟨rfl, rfl⟩

theorem refill_fixed (pool : MemPool) (size : U64) :
    Outcome (refill pool size) (fun _ => True) fun r => ∀ q, r = some q → pool.Fixed q.1 := by
  have hother : Outcome (allocFromOtherBins pool size) (fun _ => True)
      fun r => ∀ q, r = some q → pool.Fixed q.1 := by
    unfold allocFromOtherBins
    split
    · exact nofun
    split
    · exact trivial
    · rintro q ⟨⟩
      exact ⟨rfl, rfl⟩
  have hlarge : Outcome (allocFromLarge pool size) (fun _ => True)
      fun r => ∀ q, r = some q → pool.Fixed q.1 := by
    unfold allocFromLarge
    split
    · exact nofun
    refine Outcome.ite (fun _ => ?_) fun _ => trivial
    rintro q ⟨⟩
    exact ⟨rfl, rfl⟩
  unfold refill
  refine Outcome.ite (fun _ => ?_) fun _ => Outcome.ite (fun _ => ?_) fun _ => trivial
  · rintro q ⟨⟩
    exact blockAlloc_fixed pool size numberOfAddedNode
  · refine hother.bind fun r hr => ?_
    cases r with
    | some q => exact hr
    | none => exact hlarge

theorem cmtPalloc_fixed (pool : MemPool) (size : U64) (malloc : Option Addr) :
    Outcome (cmtPalloc pool size malloc) (fun _ => True) fun r => pool.Fixed r.1 := by
  have hsmall : ∀ size, Outcome (cmtSmallAlloc pool size) (fun _ => True) fun r => pool.Fixed r.1 := by
    intro size
    unfold cmtSmallAlloc
    refine Outcome.ite (fun _ => trivial) fun _ => Outcome.ite (fun _ => ?_) fun _ => ?_
    · split
      · exact trivial
      · exact ⟨rfl, rfl⟩
    · refine (refill_fixed pool size).bind fun r hr => ?_
      cases r with
      | some q => exact hr q rfl
      | none => exact trivial
  unfold cmtPalloc
  refine Outcome.ite (fun _ => ⟨rfl, rfl⟩) fun _ => ?_
  exact (hsmall _).bind fun r hr => hr

theorem cmtPfree_fixed (pool : MemPool) (a : Addr) (size : U64) :
    Outcome (cmtPfree pool a size) (fun _ => True) fun r => pool.Fixed r.1 := by
  unfold cmtPfree
  refine Outcome.ite (fun _ => ⟨rfl, rfl⟩) fun _ => Outcome.ite (fun _ => trivial) fun _ => ⟨rfl, rfl⟩

theorem memStep_fixed (h : MemStep w c w') : w.pool.Fixed w'.pool := by
  cases h with
  | palloc _ hret => exact (cmtPalloc_fixed w.pool _ _).of_ok hret
  | pfree _ hret => exact (cmtPfree_fixed w.pool _ _).of_ok hret
  | write _ _ => exact ⟨rfl, rfl⟩

/-- The pool is never seen in use, and has no arenas. -/
theorem run_fixed {w₀ : MemWorld} {ls : List MemCall} (h : Run MemStep w₀ ls w) : w₀.pool.Fixed w.pool := by
  refine h.invariant (fun w => w₀.pool.Fixed w.pool) ⟨rfl, rfl⟩ fun t l u ht hstep => ?_
  obtain ⟨hremained, harenas⟩ := memStep_fixed hstep
  exact ⟨hremained.trans ht.1, harenas.trans ht.2⟩

end Fixed

/-! ### The reset -/

/-- What a reset does when the calls have left `remained` and the arenas alone: it takes the sizes of the large
chunks off the size. -/
theorem resetRight_iff {size : U64} {data : Addr} {chunkNext : Addr → Option Addr}
    {large : Addr → LargeChunk} {w : MemWorld}
    (h : (createdPool size data chunkNext large).pool.Fixed w.pool) :
    ResetRight (createdReset size data chunkNext large) w ↔
      (∀ b ∈ w.live, ¬b.Small) ∧
        ∃ l, Seg w.pool.largeNext w.pool.largeCtb l none ∧ w.pool.largeSum l = 0 := by
  obtain ⟨hremained, harenas⟩ := h
  generalize hpool : createdReset size data chunkNext large = pool₀
  have hsize : ¬(pool₀.after w).pool.remained ≠ (pool₀.after w).size := by
    rw [← hpool]
    exact not_not.mpr hremained
  -- the pool never looks as if it were in use
  have hreset : ∀ n, cmtResetPool n (pool₀.after w) =
      (resetLarge w.pool.large n w.pool.largeCtb pool₀.size).map fun r =>
        ((pool₀.after w).setUp r.1, 0, r.2 ++ w.pool.nonMainArena) := fun n => if_neg hsize
  constructor
  · intro h
    have hidle : ∀ b ∈ w.live, ¬b.Small := by
      intro b hb hsmall
      have hbusy := h.busy ⟨b, hb, hsmall⟩ 0
      rw [hreset] at hbusy
      obtain ⟨r, -, heq⟩ := Option.map_eq_some_iff.mp hbusy
      have hret : (0 : ℤ) = -1 := congrArg (fun q => q.2.1) heq
      exact absurd hret (by decide)
    obtain ⟨n, pool, freed, hcall, hset, -⟩ := h.idle hidle
    rw [hreset] at hcall
    obtain ⟨r, hr, heq⟩ := Option.map_eq_some_iff.mp hcall
    obtain ⟨rfl, -⟩ := Prod.mk.inj heq
    obtain ⟨hseg, hleft⟩ := seg_of_resetLarge hr
    refine ⟨hidle, r.2, hseg, ?_⟩
    -- the size is what it was
    have hsame : pool₀.size - w.pool.largeSum r.2 = pool₀.size := hleft.symm.trans hset.size
    exact sub_eq_self.mp hsame
  · rintro ⟨hidle, l, hseg, hsum⟩
    refine ⟨fun ⟨b, hb, hsmall⟩ => absurd hsmall (hidle b hb), fun _ => ?_⟩
    refine ⟨l.length + 1, (pool₀.after w).setUp pool₀.size, l ++ w.pool.nonMainArena, ?_, ?_, ?_⟩
    · rw [hreset, resetLarge_of_seg hseg (Nat.lt_succ_self _), hsum, sub_zero]
      rfl
    · subst hpool
      refine ⟨rfl, rfl, rfl, rfl, rfl, rfl, harenas, fun i hi => ?_⟩
      exact if_pos hi
    · refine ⟨fun i hi => ?_, rfl⟩
      exact congrArg PoolBin.free (if_pos hi)

/-- The large block that a call gives back. -/
def MemCall.largeFree : MemCall → Option MemBlock
  | .palloc _ _ => none
  | .pfree b => if maxMemSize < roundUp b.size 8 then some b else none
  | .write _ _ => none

/-- The large blocks that the calls give back, the last one first. -/
def freedLarge (ls : List MemCall) : List MemBlock := (ls.filterMap MemCall.largeFree).reverse

/-- What `cmt_pfree` stores as the size of a large block, as `cmt_reset_pool` reads it. -/
def MemBlock.storedSize (b : MemBlock) : U64 := ((roundUp b.size 8).setWidth 32).setWidth 64

/-- The large chunks are the blocks `freed`, which are still as they were given back: nothing else lies where
they do. -/
structure LargeInv (w : MemWorld) (freed : List MemBlock) : Prop where
  inv : ∃ free, MemInv { w with live := freed ++ w.live } free
  large : ∀ b ∈ freed, ¬b.Small
  seg : Seg w.pool.largeNext w.pool.largeCtb (freed.map MemBlock.addr) none
  sizes : ∀ b ∈ freed, (w.pool.large b.addr).size = (roundUp b.size 8).setWidth 32

section Safe

variable {w w' : MemWorld} {freed : List MemBlock} {free : List (ℕ × Addr)} {l l' : List MemBlock}
  {b : MemBlock} {c : MemCall} {size : U64} {malloc p : Option Addr} {pool : MemPool}

/-- The order of the blocks in use does not matter. -/
theorem MemInv.perm (h : MemInv { w with live := l } free) (hp : l.Perm l') :
    MemInv { w with live := l' } free where
  laid := h.laid.perm (((hp.map MemBlock.extent).append_right _).append_right _)
  lists := h.lists
  positive := h.positive
  sized := fun b hb => h.sized b (hp.mem_iff.mpr hb)
  arenas := h.arenas

/-- A safe call of `cmt_palloc` does not touch the large chunks. -/
theorem palloc_safe_large (hsafe : PallocSafe w.pool size)
    (hret : cmtPalloc w.pool size malloc = .ok (pool, p)) :
    pool.large = w.pool.large ∧ pool.largeCtb = w.pool.largeCtb := by
  cases hsafe with
  | large hlarge =>
    unfold cmtPalloc at hret
    dsimp only at hret
    rw [if_pos hlarge] at hret
    obtain ⟨rfl, -⟩ := Prod.mk.inj (Except.ok.inj hret)
    exact ⟨rfl, rfl⟩
  | chunk hpos hbin hnums hfree =>
    obtain ⟨a, ha⟩ := Option.ne_none_iff_exists'.mp hfree
    rw [cmtPalloc_small hbin (cmtSmallAlloc_chunk hbin hnums ha)] at hret
    obtain ⟨rfl, -⟩ := Prod.mk.inj (Except.ok.inj hret)
    exact ⟨rfl, rfl⟩
  | block hpos hbin hnums hlast henough hthere =>
    rw [cmtPalloc_small hbin (cmtSmallAlloc_refill hbin hnums (refill_block hlast))] at hret
    obtain ⟨rfl, -⟩ := Prod.mk.inj (Except.ok.inj hret)
    unfold blockAlloc
    dsimp only
    split
    · exact ⟨rfl, rfl⟩
    · exact ⟨rfl, rfl⟩
  | split hpos hbin hnums hlast hremained hfound =>
    obtain ⟨i, hi, hfree⟩ := hfound
    obtain ⟨a, ha⟩ := Option.ne_none_iff_exists'.mp hfree
    rw [cmtPalloc_small hbin (cmtSmallAlloc_refill hbin hnums
      (refill_split hlast hremained hi ha rfl))] at hret
    obtain ⟨rfl, -⟩ := Prod.mk.inj (Except.ok.inj hret)
    exact ⟨rfl, rfl⟩

/-- A large block that was given back lies apart from the blocks in use. -/
theorem LargeInv.apart_live (h : LargeInv w freed) {b' : MemBlock} (hb : b ∈ freed) (hb' : b' ∈ w.live) :
    b.extent.Apart b'.extent := by
  obtain ⟨free, hinv⟩ := h.inv
  have hpair : ((freed ++ w.live).map MemBlock.extent).Pairwise Region.Apart :=
    hinv.laid.apart.sublist ((List.sublist_append_left _ _).trans (List.sublist_append_left _ _))
  rw [List.map_append] at hpair
  exact (List.pairwise_append.mp hpair).2.2 _ (List.mem_map_of_mem hb) _ (List.mem_map_of_mem hb')

/-- The fields at the front of a large block lie in it. -/
theorem chunk_within (h : ¬b.Small) : Region.Within ⟨b.addr, 16⟩ b.extent := by
  refine Region.within_of_le le_rfl (Nat.add_le_add_left ?_ b.addr)
  have hfields : 16 < maxMemSize.toNat := by decide
  exact le_of_lt (hfields.trans (not_not.mp h))

/-- The large chunks are on their list when they are as they were. -/
theorem LargeInv.congr (h : LargeInv w freed) (hinv : ∃ free, MemInv { w' with live := freed ++ w'.live } free)
    (hctb : w'.pool.largeCtb = w.pool.largeCtb)
    (hsame : ∀ b ∈ freed, w'.pool.large b.addr = w.pool.large b.addr) : LargeInv w' freed where
  inv := hinv
  large := h.large
  seg := by
    rw [hctb]
    refine h.seg.congr fun a ha => ?_
    obtain ⟨b, hb, rfl⟩ := List.mem_map.mp ha
    exact congrArg LargeChunk.next (hsame b hb)
  sizes := fun b hb => by rw [hsame b hb]; exact h.sizes b hb

/-- A large block comes to the front of the list. -/
theorem LargeInv.push (h : LargeInv w freed) (hb : b ∈ w.live) (hlarge : ¬b.Small)
    (hret : cmtPfree w.pool b.addr b.size = .ok (pool, [])) :
    LargeInv { pool := pool, live := w.live.erase b, owned := w.owned } (b :: freed) := by
  obtain ⟨free, hinv⟩ := h.inv
  have hfreed : ∀ b' ∈ freed, b'.addr ≠ b.addr := by
    intro b' hb' haddr
    have hpos : 0 < b'.extent.len := lt_of_le_of_lt (Nat.zero_le _) (not_not.mp (h.large b' hb'))
    have hpos' : 0 < b.extent.len := lt_of_le_of_lt (Nat.zero_le _) (not_not.mp hlarge)
    have hstart : b'.addr ∈ b.extent.span := by
      rw [haddr]
      exact Region.start_mem hpos'
    exact (h.apart_live hb' hb).not_mem (Region.start_mem hpos) hstart
  unfold cmtPfree at hret
  dsimp only at hret
  rw [if_pos (not_not.mp hlarge)] at hret
  obtain ⟨rfl, -⟩ := Prod.mk.inj (Except.ok.inj hret)
  have hself : Function.update w.pool.large b.addr
      { size := (roundUp b.size 8).setWidth 32, next := w.pool.largeCtb } b.addr = _ := Function.update_self ..
  have hother : ∀ b' ∈ freed, Function.update w.pool.large b.addr
      { size := (roundUp b.size 8).setWidth 32, next := w.pool.largeCtb } b'.addr = w.pool.large b'.addr :=
    fun b' hb' => Function.update_of_ne (hfreed b' hb') ..
  have hperm : (freed ++ w.live).Perm (b :: freed ++ w.live.erase b) :=
    ((List.perm_cons_erase hb).append_left freed).trans List.perm_middle
  have hinv' := hinv.perm hperm
  refine ⟨⟨free, hinv'.laid, hinv'.lists, hinv'.positive, hinv'.sized, hinv'.arenas⟩, ?_, ⟨rfl, ?_⟩, ?_⟩
  · exact List.forall_mem_cons.mpr ⟨hlarge, h.large⟩
  · change Seg _ (Function.update w.pool.large b.addr _ b.addr).next _ none
    rw [hself]
    refine h.seg.congr fun a ha => ?_
    obtain ⟨b', hb', rfl⟩ := List.mem_map.mp ha
    exact congrArg LargeChunk.next (hother b' hb')
  · refine List.forall_mem_cons.mpr ⟨congrArg LargeChunk.size hself, fun b' hb' => ?_⟩
    exact (congrArg LargeChunk.size (hother b' hb')).trans (h.sizes b' hb')

theorem freedLarge_snoc (ls : List MemCall) (c : MemCall) :
    freedLarge (ls ++ [c]) = freedLarge [c] ++ freedLarge ls := by
  unfold freedLarge
  rw [List.filterMap_append, List.reverse_append]

theorem freedLarge_pfree (b : MemBlock) :
    freedLarge [.pfree b] = if maxMemSize < roundUp b.size 8 then [b] else [] := by
  unfold freedLarge
  by_cases h : maxMemSize < roundUp b.size 8
  · have hb : (MemCall.pfree b).largeFree = some b := if_pos h
    rw [List.filterMap_cons_some hb, if_pos h]
    rfl
  · have hb : (MemCall.pfree b).largeFree = none := if_neg h
    rw [List.filterMap_cons_none hb, if_neg h]
    rfl

/-- Every safe step keeps track of the large blocks that are given back. -/
theorem LargeInv.step (h : LargeInv w freed) (hstep : Guarded SafeCall MemStep w c w') :
    LargeInv w' (freedLarge [c] ++ freed) := by
  obtain ⟨hsafe, hstep⟩ := hstep
  obtain ⟨free, hinv⟩ := h.inv
  cases hstep with
  | palloc hmalloc hret =>
    obtain ⟨pool, p, hok, l, hl⟩ := hinv.palloc hsafe hmalloc
    obtain ⟨rfl, rfl⟩ := Prod.mk.inj (Except.ok.inj (hok.symm.trans hret))
    obtain ⟨hlarge, hctb⟩ := palloc_safe_large hsafe hret
    refine h.congr ⟨l, ?_⟩ hctb fun b _ => congrFun hlarge b.addr
    exact MemInv.perm (w := w.allocated _ pool p) hl (List.perm_append_comm_assoc _ freed w.live)
  | @pfree b _ released hb hret =>
    rw [freedLarge_pfree]
    by_cases hlarge : maxMemSize < roundUp b.size 8
    · rw [if_pos hlarge]
      have hreleased : released = [] := by
        unfold cmtPfree at hret
        dsimp only at hret
        rw [if_pos hlarge] at hret
        exact (Prod.mk.inj (Except.ok.inj hret)).2.symm
      subst hreleased
      have howned : w.owned.filter (fun o => o.start ∉ ([] : List Addr)) = w.owned :=
        List.filter_eq_self.mpr fun _ _ => by simp
      rw [howned]
      exact h.push hb (not_not.mpr hlarge) hret
    · rw [if_neg hlarge]
      obtain ⟨pool, released', hok, l, hl⟩ := hinv.pfree (List.mem_append_right freed hb)
      obtain ⟨rfl, rfl⟩ := Prod.mk.inj (Except.ok.inj (hok.symm.trans hret))
      have hperm : ((freed ++ w.live).erase b).Perm (freed ++ w.live.erase b) := by
        have hcons := ((List.perm_cons_erase hb).append_left freed).trans List.perm_middle
        have herase := hcons.erase b
        rwa [List.erase_cons_head] at herase
      refine h.congr ⟨l, MemInv.perm
        (w := { pool := pool, live := w.live.erase b, owned := _ }) hl hperm⟩ ?_ fun b' _ => ?_
      all_goals
        unfold cmtPfree at hret
        dsimp only at hret
        rw [if_neg hlarge] at hret
        split at hret
        · cases hret
        · obtain ⟨rfl, -⟩ := Prod.mk.inj (Except.ok.inj hret)
          rfl
  | @write chunkNext large hchunk hlarge =>
    -- what users may write lies apart from the blocks that were given back
    have hstep' : Guarded SafeCall MemStep { w with live := freed ++ w.live } (.write chunkNext large)
        { pool := { w.pool with chunkNext := chunkNext, large := large }
          live := freed ++ w.live
          owned := w.owned } := by
      refine ⟨trivial, .write (fun a ha => ?_) fun a ha => ?_⟩
      · exact hchunk a fun b hb => ha b (List.mem_append_right freed hb)
      · exact hlarge a fun b hb => ha b (List.mem_append_right freed hb)
    refine h.congr (hinv.step hstep') rfl fun b hb => ?_
    refine hlarge b.addr fun b' hb' => ?_
    exact (h.apart_live hb hb').mono (chunk_within (h.large b hb))
      (hinv.sized b' (List.mem_append_right freed hb')).within

/-- In a safe run the large chunks are the large blocks that were given back. -/
theorem largeInv_of_run {asked : U64} {data : Addr} {chunkNext : Addr → Option Addr}
    {large : Addr → LargeChunk} {ls : List MemCall}
    (hrun : Run (Guarded SafeCall MemStep) (createdPool asked data chunkNext large) ls w) :
    LargeInv w (freedLarge ls) := by
  refine hrun.history_invariant (fun ls w => LargeInv w (freedLarge ls)) ?_ fun ls t c u ht hstep => ?_
  · exact ⟨⟨[], memInv_created asked data chunkNext large⟩, nofun, rfl, nofun⟩
  · rw [freedLarge_snoc]
    exact ht.step hstep

end Safe

/-- **Resetting a pool after a safe run.** A reset does what it is for exactly when no small block is in use,
and the sizes of the large blocks that were given back add up to zero. -/
theorem resetPool_iff_of_safe (size : U64) (data : Addr) (chunkNext : Addr → Option Addr)
    (large : Addr → LargeChunk) {ls : List MemCall} {w : MemWorld}
    (hrun : Run (Guarded SafeCall MemStep) (createdPool size data chunkNext large) ls w) :
    ResetRight (createdReset size data chunkNext large) w ↔
      (∀ b ∈ w.live, ¬b.Small) ∧ ((freedLarge ls).map MemBlock.storedSize).sum = 0 := by
  have h := largeInv_of_run hrun
  have hsum : w.pool.largeSum ((freedLarge ls).map MemBlock.addr) =
      ((freedLarge ls).map MemBlock.storedSize).sum := by
    unfold MemPool.largeSum
    rw [List.map_map]
    refine congrArg List.sum (List.map_congr_left fun b hb => ?_)
    exact congrArg (BitVec.setWidth 64) (h.sizes b hb)
  rw [resetRight_iff (run_fixed (hrun.mono fun _ _ _ hstep => hstep.2))]
  refine and_congr_right fun _ => ⟨?_, fun hzero => ⟨_, h.seg, hsum.trans hzero⟩⟩
  rintro ⟨l, hseg, hzero⟩
  rw [h.seg.unique hseg] at hsum
  exact hsum.symm.trans hzero

end CmtTcp
