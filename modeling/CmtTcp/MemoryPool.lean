import Mathlib.Data.BitVec
import CmtTcp.Basic
import CmtTcp.Lib.ListSeg
import CmtTcp.Lib.Regions
import CmtTcp.Lib.RingIndex
import CmtTcp.Lib.Run

/-!
# The memory pool

`cmt_palloc` and `cmt_pfree` of `cmt_memory_pool.c`: small blocks from seven bins of free chunks, which are
refilled from the last block of the pool or by splitting a chunk of another bin, and large blocks from
`malloc`.

There are seven bins, for sizes up to 48, but every size up to 512 is looked up in them; `block_alloc` counts
nineteen new chunks and links six; and it takes more than is left when the last block does not divide
evenly. `PallocSafe` says when a call keeps clear of these, and `palloc_safe` that in runs of such calls
every block is in memory the pool owns, and apart from the others.
-/

namespace CmtTcp

open Lib (Seg Region Laid Run Guarded)

/-! ### The pool -/

/-- `MAXMEMSIZE` -/
def maxMemSize : U64 := 512

/-- `TOTAL_BINS` -/
def totalBins : ℕ := 7

/-- `NUMBEROFADDEDNODE` -/
def numberOfAddedNode : U64 := 20

/-- `CMT_DEFAULT_POOL_SIZE` -/
def cmtDefaultPoolSize : U64 := 4096

/-- `ROUND_UP` -/
def roundUp (size align : U64) : U64 := (size + align - 1) &&& ~~~(align - 1)

/-- `SMALLBINS_IDX` -/
def smallbinsIdx (size : U64) : ℕ := (size >>> 3).toNat

/-- `GETSIZE` -/
def getSize (idx : ℕ) : U64 := BitVec.ofNat 64 idx <<< 3

/-- `cmt_pool_bin_t` -/
structure PoolBin where
  nums : U16
  free : Option Addr
deriving DecidableEq, Repr

/-- `large_chunk_t` -/
structure LargeChunk where
  size : U32
  next : Option Addr
deriving DecidableEq, Repr

/-- `cmt_pool_t`, with the objects `cmt_chunk_t` and `large_chunk_t` in the memory behind it. The arenas are
the list that `non_main_arena` starts. -/
structure MemPool where
  remained : U64
  largeCtb : Option Addr
  lastSize : U32
  lastData : Addr
  nonMainArena : List Addr
  smallbins : ℕ → PoolBin
  chunkNext : Addr → Option Addr
  large : Addr → LargeChunk

/-- Ways for `cmt_palloc` not to return. -/
inductive PallocFault
  /-- an index past `smallbins` -/
  | outOfBounds
  | nullDeref
  /-- a variable is used that was not set -/
  | uninit
  /-- a write to the frame of the caller -/
  | strayWrite
deriving DecidableEq, Repr

namespace MemPool

def setBin (pool : MemPool) (i : ℕ) (bin : PoolBin) : MemPool :=
  { pool with smallbins := Function.update pool.smallbins i bin }

def setNext (pool : MemPool) (chunk : Addr) (next : Option Addr) : MemPool :=
  { pool with chunkNext := Function.update pool.chunkNext chunk next }

def setLarge (pool : MemPool) (a : Addr) (chunk : LargeChunk) : MemPool :=
  { pool with large := Function.update pool.large a chunk }

end MemPool

/-! ### `cmt_palloc` -/

/-- The loop of `block_alloc`, with the assignment after it: `n` chunks are linked behind `chunk`. -/
def linkChunks (size : ℕ) : ℕ → (Addr → Option Addr) → Addr → Addr → Option Addr
  | 0, next, chunk => Function.update next chunk none
  | n + 1, next, chunk =>
    linkChunks size n (Function.update next chunk (some (chunk + size))) (chunk + size)

/-- `totalSize` in `block_alloc` -/
def blockTotal (pool : MemPool) (size nums : U64) : U64 :=
  let totalSize := size * nums
  if pool.lastSize.setWidth 64 < totalSize then roundUp (pool.lastSize.setWidth 64) size
  else totalSize

/-- `block_alloc` -/
def blockAlloc (pool : MemPool) (size nums : U64) : MemPool × Addr :=
  let totalSize := blockTotal pool size nums
  let p := pool.lastData
  let chunk := p + size.toNat
  let pool := { pool with
    lastData := pool.lastData + totalSize.toNat
    lastSize := pool.lastSize - totalSize.setWidth 32 }
  let pool := pool.setBin (smallbinsIdx size)
    -- the bin counts `nums - 1` chunks, however many are linked
    { nums := (nums - 1).setWidth 16, free := some chunk }
  (if size < totalSize then
      -- the loop runs to `TOTAL_BINS - 2`, whatever `nums` is
      { pool with chunkNext := linkChunks size.toNat (totalBins - 2) pool.chunkNext chunk }
    else pool, p)

/-- The bin the loop of `alloc_from_other_bins` stops at. -/
def findBin (pool : MemPool) (size : U64) : Option ℕ :=
  (List.range' (smallbinsIdx size) (totalBins - smallbinsIdx size)).find? fun i =>
    decide (0 < (pool.smallbins i).nums)

/-- `alloc_from_other_bins`; `none` where it returns `-1`. -/
def allocFromOtherBins (pool : MemPool) (size : U64) :
    Except PallocFault (Option (MemPool × Addr)) :=
  match findBin pool size with
  | none => .ok none
  | some i =>
    match (pool.smallbins i).free with
    | none => .error .nullDeref
    | some ptr =>
      let pool := pool.setBin i
        { nums := (pool.smallbins i).nums - 1, free := pool.chunkNext ptr }
      let remain := ptr + size.toNat
      let j := smallbinsIdx (getSize i - size)
      let pool := pool.setNext remain (pool.smallbins j).free
      -- the count of the bin that gets the rest stays as it is
      .ok (some (pool.setBin j { pool.smallbins j with free := some remain }, ptr))

/-- `alloc_from_large`; `none` where it returns `-1`. -/
def allocFromLarge (pool : MemPool) (size : U64) :
    Except PallocFault (Option (MemPool × Addr)) :=
  match pool.largeCtb with
  | none => .ok none
  | some p =>
    let remainSize := (pool.large p).size.setWidth 64 - size
    if maxMemSize < remainSize then
      let rest := p + size.toNat
      -- what `rest->size` holds is whatever the block was last used for
      let pool := pool.setLarge rest
        { size := (pool.large rest).size - size.setWidth 32, next := (pool.large p).next }
      -- `p` stays at the head of the list of large chunks
      .ok (some (pool.setLarge p { size := 0, next := none }, p))
    else
      -- `(char*)p + size`, where `p` is the address of the caller's variable
      .error .strayWrite

/-- `refill`; `none` where it returns a negative value. -/
def refill (pool : MemPool) (size : U64) : Except PallocFault (Option (MemPool × Addr)) :=
  if size < pool.lastSize.setWidth 64 then .ok (some (blockAlloc pool size numberOfAddedNode))
  else if size < pool.remained then do
    match ← allocFromOtherBins pool size with
    | some r => .ok (some r)
    | none => allocFromLarge pool size
  -- `ret` is tested, and no branch has set it
  else .error .uninit

/-- `cmt_small_alloc`, with `sblist` as `pool->smallbins`. When `refill` fails, `p` has not been set, and
`clear_block` and `create_non_main_arena` get it in place of the pool. -/
def cmtSmallAlloc (pool : MemPool) (size : U64) : Except PallocFault (MemPool × Addr) :=
  let index := smallbinsIdx size
  if totalBins ≤ index then .error .outOfBounds
  else
    let bin := pool.smallbins index
    if 0 < bin.nums then
      match bin.free with
      | none => .error .nullDeref
      | some fchunk =>
        let pool := pool.setBin index { nums := bin.nums - 1, free := pool.chunkNext fchunk }
        .ok (pool.setNext fchunk none, fchunk)
    else do
      match ← refill pool size with
      | some r => .ok r
      | none => .error .uninit

/-- `cmt_palloc`; `malloc` is what `malloc` returns if it is called. -/
def cmtPalloc (pool : MemPool) (size : U64) (malloc : Option Addr) :
    Except PallocFault (MemPool × Option Addr) :=
  let size := roundUp size 8
  if maxMemSize < size then .ok (pool, malloc)
  else do
    let (pool, p) ← cmtSmallAlloc pool size
    .ok (pool, some p)

/-! ### `cmt_pfree` -/

/-- `cmt_pfree`, with the arenas it releases. -/
def cmtPfree (pool : MemPool) (p : Addr) (size : U64) :
    Except PallocFault (MemPool × List Addr) :=
  let size := roundUp size 8
  if maxMemSize < size then
    let pool := pool.setLarge p { size := size.setWidth 32, next := pool.largeCtb }
    -- the arenas are released only where the block is small
    .ok ({ pool with largeCtb := some p }, [])
  else
    let index := smallbinsIdx size
    if totalBins ≤ index then .error .outOfBounds
    else
      let bin := pool.smallbins index
      -- `nums` does not count the chunk that comes back
      .ok ((pool.setNext p bin.free).setBin index { bin with free := some p }, pool.nonMainArena)

/-! ### Runs -/

/-- A block that was handed out, with the size that was asked for. -/
structure MemBlock where
  addr : Addr
  size : U64
deriving DecidableEq, Repr

/-- The bytes that were asked for. -/
def MemBlock.region (b : MemBlock) : Region := ⟨b.addr, b.size.toNat⟩

/-- The bytes that were taken. -/
def MemBlock.extent (b : MemBlock) : Region := ⟨b.addr, (roundUp b.size 8).toNat⟩

/-- The block is large, or there is a bin for it. -/
def MemBlock.Sized (b : MemBlock) : Prop :=
  roundUp b.size 8 ≠ 0 ∧
    (maxMemSize < roundUp b.size 8 ∨ smallbinsIdx (roundUp b.size 8) < totalBins)

/-- The pool, the blocks its users hold, and the memory it owns: its own area, its arenas and what `malloc`
returned for large blocks, as far as none of it has been released. -/
structure MemWorld where
  pool : MemPool
  live : List MemBlock
  owned : List Region

/-- A call of `cmt_palloc` or `cmt_pfree`, or a write to the blocks in use. -/
inductive MemCall
  | palloc (size : U64) (malloc : Option Addr)
  | pfree (b : MemBlock)
  | write (chunkNext : Addr → Option Addr) (large : Addr → LargeChunk)

/-- What `cmt_palloc` has handed out. -/
def MemWorld.allocated (w : MemWorld) (size : U64) (pool : MemPool) (p : Option Addr) : MemWorld where
  pool := pool
  live := p.toList.map (fun a => ⟨a, size⟩) ++ w.live
  owned :=
    if maxMemSize < roundUp size 8 then
      p.toList.map (fun a => ⟨a, (roundUp size 8).toNat⟩) ++ w.owned
    else w.owned

/-- A step. `malloc` returns memory that is not in use; a live block is given back with the size it was
asked for; and users write to their blocks only. -/
inductive MemStep (w : MemWorld) : MemCall → MemWorld → Prop
  | palloc {size : U64} {malloc p : Option Addr} {pool : MemPool}
      (hmalloc : ∀ a, malloc = some a → ∀ o ∈ w.owned,
        Region.Apart ⟨a, (roundUp size 8).toNat⟩ o)
      (hret : cmtPalloc w.pool size malloc = .ok (pool, p)) :
      MemStep w (.palloc size malloc) (w.allocated size pool p)
  | pfree {b : MemBlock} {pool : MemPool} {released : List Addr} (hb : b ∈ w.live)
      (hret : cmtPfree w.pool b.addr b.size = .ok (pool, released)) :
      MemStep w (.pfree b)
        { pool := pool
          live := w.live.erase b
          owned := w.owned.filter fun o => o.start ∉ released }
  | write {chunkNext : Addr → Option Addr} {large : Addr → LargeChunk}
      (hchunk : ∀ a, (∀ b ∈ w.live, Region.Apart ⟨a, 8⟩ b.region) →
        chunkNext a = w.pool.chunkNext a)
      (hlarge : ∀ a, (∀ b ∈ w.live, Region.Apart ⟨a, 16⟩ b.region) →
        large a = w.pool.large a) :
      MemStep w (.write chunkNext large)
        { w with pool := { w.pool with chunkNext := chunkNext, large := large } }

/-- Every live block has the bytes that were asked for, in memory the pool owns, and apart from those of
every other live block. -/
structure BlocksSound (w : MemWorld) : Prop where
  inside : ∀ b ∈ w.live, ∃ o ∈ w.owned, b.region.Within o
  apart : w.live.Pairwise fun b b' => b.region.Apart b'.region

/-- The pool that `cmt_create_pool` makes for `size` bytes, with its area at `data`. -/
def createdPool (size : U64) (data : Addr) (chunkNext : Addr → Option Addr)
    (large : Addr → LargeChunk) : MemWorld :=
  let size := round2Up (if size < cmtDefaultPoolSize then cmtDefaultPoolSize else size)
  { pool :=
      { remained := size
        largeCtb := none
        lastSize := size.setWidth 32
        lastData := data
        nonMainArena := []
        smallbins := fun _ => { nums := 0, free := none }
        chunkNext := chunkNext
        large := large }
    live := []
    owned := [⟨data, size.toNat⟩] }

/-! ### When a call is safe -/

/-- The call of `cmt_palloc` keeps clear of what goes wrong in it. -/
inductive PallocSafe (pool : MemPool) (size : U64) : Prop
  /-- `malloc` is asked -/
  | large (hlarge : maxMemSize < roundUp size 8)
  /-- there is a bin for the size, it counts a chunk, and it has one -/
  | chunk (hpos : roundUp size 8 ≠ 0) (hbin : smallbinsIdx (roundUp size 8) < totalBins)
      (hnums : 0 < (pool.smallbins (smallbinsIdx (roundUp size 8))).nums)
      (hfree : (pool.smallbins (smallbinsIdx (roundUp size 8))).free ≠ none)
  /-- the bin counts none, and what is taken from the last block is there, and is enough for the block and
  the six chunks that are linked -/
  | block (hpos : roundUp size 8 ≠ 0) (hbin : smallbinsIdx (roundUp size 8) < totalBins)
      (hnums : (pool.smallbins (smallbinsIdx (roundUp size 8))).nums = 0)
      (hlast : roundUp size 8 < pool.lastSize.setWidth 64)
      (henough : 7 * (roundUp size 8).toNat ≤
        (blockTotal pool (roundUp size 8) numberOfAddedNode).toNat)
      (hthere : (blockTotal pool (roundUp size 8) numberOfAddedNode).toNat ≤ pool.lastSize.toNat)
  /-- the last block is used up, and the first larger bin that counts a chunk has one -/
  | split (hpos : roundUp size 8 ≠ 0) (hbin : smallbinsIdx (roundUp size 8) < totalBins)
      (hnums : (pool.smallbins (smallbinsIdx (roundUp size 8))).nums = 0)
      (hlast : ¬roundUp size 8 < pool.lastSize.setWidth 64) (hremained : roundUp size 8 < pool.remained)
      (hfound : ∃ i, findBin pool (roundUp size 8) = some i ∧ (pool.smallbins i).free ≠ none)

/-- The calls of `cmt_palloc` are safe. -/
def SafeCall (w : MemWorld) : MemCall → Prop
  | .palloc size _ => PallocSafe w.pool size
  | .pfree _ => True
  | .write _ _ => True

/-- Safe calls of `cmt_palloc` and calls of `cmt_pfree` for blocks in use return. -/
structure CallsReturn (w : MemWorld) : Prop where
  palloc : ∀ size malloc,
    (∀ a, malloc = some a → ∀ o ∈ w.owned, Region.Apart ⟨a, (roundUp size 8).toNat⟩ o) →
    PallocSafe w.pool size → ∃ r, cmtPalloc w.pool size malloc = .ok r
  pfree : ∀ b ∈ w.live, ∃ r, cmtPfree w.pool b.addr b.size = .ok r

/-! ### Rounding -/

section Rounding

variable {size s : U64}

theorem roundUp_eight (size : U64) : (roundUp size 8).toNat = (size + 7).toNat / 8 * 8 := by
  have hsum : size + 8 - 1 = size + 7 := by bv_omega
  have hmask : ((8 : U64) - 1).toNat = 2 ^ 3 - 1 := by decide
  unfold roundUp
  rw [hsum, Lib.toNat_and_not hmask]
  omega

/-- A rounded size that is not zero has room for what was asked for. -/
theorem le_roundUp (hpos : roundUp size 8 ≠ 0) : size.toNat ≤ (roundUp size 8).toNat := by
  have h := roundUp_eight size
  -- the sum has not wrapped, or the rounded size would be zero
  have hne : (roundUp size 8).toNat ≠ 0 := fun h0 => hpos (BitVec.eq_of_toNat_eq h0)
  have hadd : (size + 7).toNat = (size.toNat + 7) % 2 ^ 64 := BitVec.toNat_add size 7
  have := size.isLt
  omega

theorem smallbinsIdx_mul (size : U64) :
    8 * smallbinsIdx (roundUp size 8) = (roundUp size 8).toNat := by
  have h := roundUp_eight size
  unfold smallbinsIdx
  rw [BitVec.toNat_ushiftRight, Nat.shiftRight_eq_div_pow]
  omega

end Rounding

/-! ### The free lists -/

/-- The free chunks of bin `i`, of all the free chunks with their bins. -/
def chain (free : List (ℕ × Addr)) (i : ℕ) : List Addr :=
  (free.filter fun e => e.1 = i).map Prod.snd

/-- Every bin starts a list of its free chunks. -/
def FreeLists (pool : MemPool) (free : List (ℕ × Addr)) : Prop :=
  ∀ i, Seg pool.chunkNext (pool.smallbins i).free (chain free i) none

section Chains

variable {pool pool' : MemPool} {free l₁ l₂ : List (ℕ × Addr)} {i j : ℕ} {a : Addr}

theorem chain_cons_self : chain ((i, a) :: free) i = a :: chain free i := by
  simp [chain]

theorem chain_cons_of_ne (h : i ≠ j) : chain ((i, a) :: free) j = chain free j := by
  simp [chain, h]

theorem chain_append : chain (l₁ ++ l₂) j = chain l₁ j ++ chain l₂ j := by
  simp [chain]

theorem mem_free_of_chain (h : a ∈ chain free i) : (i, a) ∈ free := by
  obtain ⟨⟨j, b⟩, hmem, rfl⟩ := List.mem_map.mp h
  obtain ⟨hfree, hj⟩ := List.mem_filter.mp hmem
  obtain rfl : j = i := of_decide_eq_true hj
  exact hfree

/-- The lists of the other bins, when the list of one bin is dropped. -/
theorem chain_filter_of_ne (h : i ≠ j) : chain (free.filter fun e => e.1 ≠ i) j = chain free j := by
  unfold chain
  rw [List.filter_filter]
  congr 1
  refine List.filter_congr fun e _ => ?_
  by_cases he : e.1 = j
  · simp [he, h.symm]
  · simp [he]

theorem chain_filter_self : chain (free.filter fun e => e.1 ≠ i) i = [] := by
  unfold chain
  rw [List.filter_filter, List.map_eq_nil_iff, List.filter_eq_nil_iff]
  intro e _
  simp

/-- The lists depend on where they start, and on the links of their chunks. -/
theorem FreeLists.congr (h : FreeLists pool free)
    (hstart : ∀ i, (pool'.smallbins i).free = (pool.smallbins i).free)
    (hnext : ∀ e ∈ free, pool'.chunkNext e.2 = pool.chunkNext e.2) : FreeLists pool' free := by
  intro i
  rw [hstart]
  exact (h i).congr fun a ha => hnext _ (mem_free_of_chain ha)

/-- The first chunk of a bin is taken. -/
theorem FreeLists.pop (h : FreeLists pool free) (hfirst : (pool.smallbins i).free = some a) (n : U16) :
    ∃ l₁ l₂, free = l₁ ++ (i, a) :: l₂ ∧
      FreeLists (pool.setBin i { nums := n, free := pool.chunkNext a }) (l₁ ++ l₂) := by
  -- the list of the bin is not empty, and its first entry is the first one of the bin in `free`
  have hseg := h i
  rw [hfirst] at hseg
  cases hchain : chain free i with
  | nil =>
    rw [hchain] at hseg
    cases hseg
  | cons b rest =>
    rw [hchain] at hseg
    obtain ⟨hab, hrest⟩ := hseg
    obtain rfl := Option.some.inj hab
    obtain ⟨e, l, hfilter, he, hl⟩ := List.map_eq_cons_iff.mp hchain
    obtain ⟨l₁, l₂, rfl, hl₁, hei, hl₂⟩ := List.filter_eq_cons_iff.mp hfilter
    obtain ⟨k, b⟩ := e
    obtain rfl : b = a := he
    obtain rfl : k = i := of_decide_eq_true hei
    refine ⟨l₁, l₂, rfl, fun j => ?_⟩
    -- no other chunk of the bin comes before it
    have hnil : chain l₁ k = [] := by
      unfold chain
      rw [List.map_eq_nil_iff, List.filter_eq_nil_iff]
      exact hl₁
    have hrest' : chain l₂ k = rest := by rw [← hl, ← hl₂]; rfl
    show Seg pool.chunkNext (Function.update pool.smallbins k _ j).free _ none
    rw [chain_append]
    by_cases hj : j = k
    · subst hj
      rw [Function.update_self, hnil, List.nil_append, hrest']
      exact hrest
    · rw [Function.update_of_ne hj, ← @chain_cons_of_ne l₂ k j b (Ne.symm hj), ← chain_append]
      exact h j

/-- A chunk is put in front of the list of a bin. -/
theorem FreeLists.push (h : FreeLists pool free) (ha : ∀ e ∈ free, e.2 ≠ a) (n : U16) :
    FreeLists ((pool.setNext a (pool.smallbins i).free).setBin i { nums := n, free := some a })
      ((i, a) :: free) := by
  intro j
  -- the new chunk is on no list yet, so writing its link spares them all
  have hnot : ∀ k, a ∉ chain free k := fun k hk => ha _ (mem_free_of_chain hk) rfl
  show Seg (Function.update pool.chunkNext a _) (Function.update pool.smallbins i _ j).free _ none
  by_cases hj : j = i
  · subst hj
    rw [Function.update_self, chain_cons_self]
    exact (h j).push (hnot j)
  · rw [Function.update_of_ne hj, chain_cons_of_ne (Ne.symm hj)]
    exact (h j).congr fun b hb => Function.update_of_ne (ne_of_mem_of_not_mem hb (hnot j)) _ _

/-- What is written outside the free chunks does not change the lists. -/
theorem FreeLists.setNext (h : FreeLists pool free) (ha : ∀ e ∈ free, e.2 ≠ a) (p : Option Addr) :
    FreeLists (pool.setNext a p) free :=
  h.congr (fun _ => rfl) fun e he => Function.update_of_ne (ha e he) _ _

end Chains

/-! ### Linking new chunks -/

section Link

variable {size n : ℕ} {next : Addr → Option Addr} {c x : Addr}

/-- The chunks that the loop of `block_alloc` links. -/
def linked (c : Addr) (size n : ℕ) : List Addr := (Region.row c size (n + 1)).map Region.start

theorem linkChunks_of_not_mem (h : x ∉ linked c size n) : linkChunks size n next c x = next x := by
  -- the induction is on the rounds of the loop, from any chunk on
  induction n generalizing next c with
  | zero => exact Function.update_of_ne (fun hx => h (by rw [hx]; exact List.mem_singleton_self c)) _ _
  | succ n ih =>
    have hx : x ≠ c ∧ x ∉ linked (c + size) size n := by
      constructor
      · rintro rfl
        exact h List.mem_cons_self
      · exact fun hx => h (List.mem_cons_of_mem c hx)
    unfold linkChunks
    rw [ih hx.2, Function.update_of_ne hx.1]

theorem le_of_mem_linked (h : x ∈ linked c size n) : c ≤ x := by
  obtain ⟨r, hr, rfl⟩ := List.mem_map.mp h
  exact (Region.row_within r hr).1

/-- They are a list, in the order of their addresses. -/
theorem linkChunks_seg (hsize : 0 < size) :
    Seg (linkChunks size n next c) (some c) (linked c size n) none := by
  induction n generalizing next c with
  | zero =>
    refine ⟨rfl, ?_⟩
    show Function.update next c none c = none
    rw [Function.update_self]
  | succ n ih =>
    refine ⟨rfl, ?_⟩
    -- later rounds leave the link of `c` alone: they are at higher addresses
    have hc : c ∉ linked (c + size) size n := by
      intro hc
      exact absurd (le_of_mem_linked hc) (Nat.not_le.mpr (Nat.lt_add_of_pos_right hsize))
    have hnext : linkChunks size (n + 1) next c c = some (c + size) := by
      unfold linkChunks
      rw [linkChunks_of_not_mem hc, Function.update_self]
    rw [hnext]
    exact ih

theorem chain_map_self (i : ℕ) (l : List Addr) : chain (l.map (Prod.mk i)) i = l := by
  unfold chain
  rw [List.filter_eq_self.mpr, List.map_map]
  · exact List.map_id l
  · intro e he
    obtain ⟨a, -, rfl⟩ := List.mem_map.mp he
    exact decide_eq_true rfl

theorem chain_map_of_ne {i j : ℕ} (h : i ≠ j) (l : List Addr) : chain (l.map (Prod.mk i)) j = [] := by
  unfold chain
  rw [List.map_eq_nil_iff, List.filter_eq_nil_iff]
  intro e he
  obtain ⟨a, -, rfl⟩ := List.mem_map.mp he
  exact fun hij => h (of_decide_eq_true hij)

/-- The list of a bin is replaced by new chunks that are linked. -/
theorem FreeLists.link {pool pool' : MemPool} {free : List (ℕ × Addr)} {i : ℕ}
    (h : FreeLists pool free) (hsize : 0 < size)
    (hc : ∀ x ∈ linked c size n, ∀ e ∈ free, e.2 ≠ x)
    (hnext : pool'.chunkNext = linkChunks size n pool.chunkNext c)
    (hself : (pool'.smallbins i).free = some c)
    (hother : ∀ j, j ≠ i → (pool'.smallbins j).free = (pool.smallbins j).free) :
    FreeLists pool' ((linked c size n).map (Prod.mk i) ++ free.filter fun e => e.1 ≠ i) := by
  intro j
  rw [chain_append, hnext]
  by_cases hj : j = i
  · subst hj
    rw [chain_map_self, chain_filter_self, List.append_nil, hself]
    exact linkChunks_seg hsize
  -- another bin keeps its list: its chunks are not among the new ones
  · rw [chain_map_of_ne (Ne.symm hj), chain_filter_of_ne (Ne.symm hj), List.nil_append, hother j hj]
    refine (h j).congr fun b hb => linkChunks_of_not_mem fun hmem => ?_
    exact hc b hmem _ (mem_free_of_chain hb) rfl

end Link

/-! ### The invariant -/

/-- A free chunk of bin `e.1`. -/
def cell (e : ℕ × Addr) : Region := ⟨e.2, 8 * e.1⟩

/-- What is left of the last block. -/
def MemPool.lastRegion (pool : MemPool) : Region := ⟨pool.lastData, pool.lastSize.toNat⟩

/-- The parts of the memory that are in use, free, or not given out yet. -/
def MemWorld.parts (w : MemWorld) (free : List (ℕ × Addr)) : List Region :=
  w.live.map MemBlock.extent ++ free.map cell ++ [w.pool.lastRegion]

/-- The parts do not overlap, and the bins list the free ones. -/
structure MemInv (w : MemWorld) (free : List (ℕ × Addr)) : Prop where
  laid : Laid w.owned (w.parts free)
  lists : FreeLists w.pool free
  positive : ∀ e ∈ free, 0 < e.1
  sized : ∀ b ∈ w.live, b.Sized
  arenas : w.pool.nonMainArena = []

section Inv

variable {w w' : MemWorld} {free l₁ l₂ : List (ℕ × Addr)} {b : MemBlock} {a : Addr} {i : ℕ}
  {size : U64} {r : Region}

theorem MemBlock.Sized.within (h : b.Sized) : b.region.Within b.extent :=
  Region.within_of_le le_rfl (Nat.add_le_add_left (le_roundUp h.1) b.addr)

theorem MemBlock.extent_eq_cell (b : MemBlock) :
    b.extent = cell (smallbinsIdx (roundUp b.size 8), b.addr) := by
  unfold MemBlock.extent cell
  rw [smallbinsIdx_mul]

theorem MemInv.sound (h : MemInv w free) : BlocksSound w where
  inside := by
    intro b hb
    have hmem : b.extent ∈ w.parts free :=
      List.mem_append_left _ (List.mem_append_left _ (List.mem_map_of_mem hb))
    obtain ⟨o, ho, hin⟩ := h.laid.inside _ hmem
    exact ⟨o, ho, (h.sized b hb).within.trans hin⟩
  apart := by
    -- what was asked for lies inside what was taken, so it is apart as well
    have hlive : (w.live.map MemBlock.extent).Pairwise Region.Apart :=
      h.laid.apart.sublist ((List.sublist_append_left _ _).trans (List.sublist_append_left _ _))
    rw [List.pairwise_map] at hlive
    refine hlive.imp_of_mem fun hb hb' hap => ?_
    exact hap.mono (h.sized _ hb).within (h.sized _ hb').within

/-- No free chunk starts where something else lies. -/
theorem not_start_of_apart (hpos : ∀ e ∈ free, 0 < e.1) (hap : ∀ e ∈ free, r.Apart (cell e))
    (ha : a ∈ r.span) : ∀ e ∈ free, e.2 ≠ a := by
  rintro e he rfl
  refine (hap e he).not_mem ha (Region.start_mem ?_)
  exact Nat.mul_pos (by decide) (hpos e he)

/-- The chunks that are linked, as chunks of bin `i`, are the cells of their row. -/
theorem map_cell_linked {c len n : ℕ} (hlen : 8 * i = len) :
    ((linked c len n).map (Prod.mk i)).map cell = Region.row c len (n + 1) := by
  subst hlen
  conv_rhs => rw [Region.row_eq_map]
  rw [List.map_map]
  rfl

/-- No free chunk is linked, where the row lies apart from them all. -/
theorem linked_ne_free {c len n : ℕ} (hlen : 0 < len) (hpos : ∀ e ∈ free, 0 < e.1)
    (hap : ∀ r ∈ Region.row c len (n + 1), ∀ e ∈ free, r.Apart (cell e)) :
    ∀ x ∈ linked c len n, ∀ e ∈ free, e.2 ≠ x := by
  intro x hx
  obtain ⟨r, hr, rfl⟩ := List.mem_map.mp hx
  refine not_start_of_apart hpos (hap r hr) (Region.start_mem ?_)
  rw [Region.row_eq_map] at hr
  obtain ⟨a, -, rfl⟩ := List.mem_map.mp hr
  exact hlen

/-- A free chunk comes to the front of the parts. -/
theorem parts_perm_cell (w : MemWorld) (l₁ l₂ : List (ℕ × Addr)) (e : ℕ × Addr) :
    (w.parts (l₁ ++ e :: l₂)).Perm (cell e :: w.parts (l₁ ++ l₂)) := by
  refine Lib.perm_cons_middle ?_
  exact List.perm_middle.map cell

/-- What is left of the last block comes to the front. -/
theorem parts_perm_last (w : MemWorld) (free : List (ℕ × Addr)) :
    (w.parts free).Perm
      (w.pool.lastRegion :: (w.live.map MemBlock.extent ++ free.map cell)) :=
  List.perm_append_comm

/-- A block comes to the front. -/
theorem parts_perm_live (hb : b ∈ w.live) :
    (w.parts free).Perm
      (b.extent :: ((w.live.erase b).map MemBlock.extent ++ free.map cell ++ [w.pool.lastRegion])) := by
  have hperm : (w.live.map MemBlock.extent).Perm
      (b.extent :: (w.live.erase b).map MemBlock.extent) :=
    (List.perm_cons_erase hb).map MemBlock.extent
  exact (hperm.append_right _).append_right _

/-- Taking the first chunk of a bin: it is a part of its own, and the rest is as it was. -/
theorem MemInv.pop (h : MemInv w free) (hfirst : (w.pool.smallbins i).free = some a) (n : U16) :
    ∃ l, Laid w.owned (cell (i, a) :: w.parts l) ∧
      FreeLists (w.pool.setBin i { nums := n, free := w.pool.chunkNext a }) l ∧
      (∀ e ∈ l, 0 < e.1) ∧ 0 < i := by
  obtain ⟨l₁, l₂, rfl, hlists⟩ := h.lists.pop hfirst n
  refine ⟨l₁ ++ l₂, h.laid.perm (parts_perm_cell w l₁ l₂ (i, a)), hlists, fun e he => ?_, ?_⟩
  · refine h.positive e ?_
    rcases List.mem_append.mp he with he | he
    · exact List.mem_append_left _ he
    · exact List.mem_append_right _ (List.mem_cons_of_mem _ he)
  · exact h.positive (i, a) (List.mem_append_right _ List.mem_cons_self)

/-- The free chunks among the parts. -/
theorem apart_cells (h : Laid w.owned (r :: w.parts free)) : ∀ e ∈ free, r.Apart (cell e) :=
  fun _ he => h.apart_of_mem (List.mem_append_left _ (List.mem_append_right _ (List.mem_map_of_mem he)))

end Inv

/-! ### Safe calls of `cmt_palloc` -/

section Calls

variable {pool : MemPool} {size : U64} {malloc : Option Addr} {a : Addr} {i : ℕ}

/-- A size with a bin of its own does not go to `malloc`. -/
theorem not_large_of_bin (h : smallbinsIdx size < totalBins) : ¬maxMemSize < size := by
  unfold smallbinsIdx totalBins at h
  unfold maxMemSize
  rw [BitVec.toNat_ushiftRight, Nat.shiftRight_eq_div_pow] at h
  bv_omega

theorem cmtPalloc_small (h : smallbinsIdx (roundUp size 8) < totalBins) {r : MemPool × Addr}
    (hr : cmtSmallAlloc pool (roundUp size 8) = .ok r) :
    cmtPalloc pool size malloc = .ok (r.1, some r.2) := by
  unfold cmtPalloc
  dsimp only
  rw [if_neg (not_large_of_bin h), hr]
  rfl

theorem cmtSmallAlloc_chunk (hbin : smallbinsIdx size < totalBins)
    (hnums : 0 < (pool.smallbins (smallbinsIdx size)).nums)
    (hfree : (pool.smallbins (smallbinsIdx size)).free = some a) :
    cmtSmallAlloc pool size =
      .ok ((pool.setBin (smallbinsIdx size)
        { nums := (pool.smallbins (smallbinsIdx size)).nums - 1, free := pool.chunkNext a }).setNext
          a none, a) := by
  unfold cmtSmallAlloc
  dsimp only
  rw [if_neg (Nat.not_le.mpr hbin), if_pos hnums, hfree]

theorem cmtSmallAlloc_refill (hbin : smallbinsIdx size < totalBins)
    (hnums : (pool.smallbins (smallbinsIdx size)).nums = 0) {r : MemPool × Addr}
    (hr : refill pool size = .ok (some r)) : cmtSmallAlloc pool size = .ok r := by
  unfold cmtSmallAlloc
  dsimp only
  rw [if_neg (Nat.not_le.mpr hbin), hnums, if_neg (by decide), hr]
  rfl

theorem refill_block (hlast : size < pool.lastSize.setWidth 64) :
    refill pool size = .ok (some (blockAlloc pool size numberOfAddedNode)) := by
  unfold refill
  rw [if_pos hlast]

/-- The chunk that `alloc_from_other_bins` takes from bin `i`. -/
def MemPool.taken (pool : MemPool) (i : ℕ) (a : Addr) : MemPool :=
  pool.setBin i { nums := (pool.smallbins i).nums - 1, free := pool.chunkNext a }

/-- What `block_alloc` leaves behind, when it takes more than the block. -/
theorem blockAlloc_spec {nums : U64} (hlt : size < blockTotal pool size nums)
    (hthere : (blockTotal pool size nums).toNat ≤ pool.lastSize.toNat) :
    (blockAlloc pool size nums).1.chunkNext =
        linkChunks size.toNat 5 pool.chunkNext (pool.lastData + size.toNat) ∧
      ((blockAlloc pool size nums).1.lastData = pool.lastData + (blockTotal pool size nums).toNat ∧
        (blockAlloc pool size nums).1.lastSize.toNat =
          pool.lastSize.toNat - (blockTotal pool size nums).toNat) ∧
      (((blockAlloc pool size nums).1.smallbins (smallbinsIdx size)).free =
          some (pool.lastData + size.toNat) ∧
        ∀ j, j ≠ smallbinsIdx size →
          ((blockAlloc pool size nums).1.smallbins j).free = (pool.smallbins j).free) ∧
      (blockAlloc pool size nums).1.nonMainArena = pool.nonMainArena := by
  unfold blockAlloc
  dsimp only
  rw [if_pos hlt]
  refine ⟨rfl, ⟨rfl, ?_⟩, ⟨?_, fun j hj => ?_⟩, rfl⟩
  · show (pool.lastSize - (blockTotal pool size nums).setWidth 32).toNat = _
    -- what is taken fits in 32 bits, as it is no more than what is left
    have hwidth : ((blockTotal pool size nums).setWidth 32).toNat =
        (blockTotal pool size nums).toNat := by
      rw [BitVec.toNat_setWidth]
      exact Nat.mod_eq_of_lt (hthere.trans_lt pool.lastSize.isLt)
    rw [BitVec.toNat_sub_of_le (BitVec.le_def.mpr (by rw [hwidth]; exact hthere)), hwidth]
  · show (Function.update pool.smallbins _ _ (smallbinsIdx size)).free = _
    rw [Function.update_self]
  · show (Function.update pool.smallbins _ _ j).free = _
    rw [Function.update_of_ne hj]

/-- A chunk of bin `i` is split: what is behind the block goes to the bin of its size. -/
theorem refill_split (hlast : ¬size < pool.lastSize.setWidth 64) (hremained : size < pool.remained)
    (hfound : findBin pool size = some i) (hfree : (pool.smallbins i).free = some a) {j : ℕ}
    (hj : smallbinsIdx (getSize i - size) = j) :
    refill pool size =
      .ok (some (((pool.taken i a).setNext (a + size.toNat)
        ((pool.taken i a).smallbins j).free).setBin j
          { nums := ((pool.taken i a).smallbins j).nums, free := some (a + size.toNat) }, a)) := by
  unfold refill allocFromOtherBins
  rw [if_neg hlast, if_pos hremained, hfound]
  dsimp only
  rw [hfree]
  dsimp only
  rw [hj]
  rfl

/-- The bin that is split is for larger chunks. -/
theorem findBin_spec (hnums : (pool.smallbins (smallbinsIdx size)).nums = 0)
    (h : findBin pool size = some i) : smallbinsIdx size < i ∧ i < totalBins := by
  unfold findBin at h
  have hpos : 0 < (pool.smallbins i).nums := by simpa using List.find?_some h
  obtain ⟨hlow, hhigh⟩ := List.mem_range'_1.mp (List.mem_of_find?_eq_some h)
  -- the search starts at the bin of the size, and that one counts no chunk
  refine ⟨lt_of_le_of_ne hlow ?_, by omega⟩
  rintro rfl
  rw [hnums] at hpos
  exact absurd hpos (by decide)

/-- What is behind the block belongs to the bin of the difference. -/
theorem split_idx (size : U64) {j : ℕ}
    (h : smallbinsIdx (roundUp size 8) + j + 1 < totalBins) :
    smallbinsIdx (getSize (smallbinsIdx (roundUp size 8) + j + 1) - roundUp size 8) = j + 1 := by
  have hs := smallbinsIdx_mul size
  generalize smallbinsIdx (roundUp size 8) = idx at h hs
  -- seven bins: the sizes are far from wrapping
  have hget : (getSize (idx + j + 1)).toNat = 8 * (idx + j + 1) := by
    unfold getSize
    unfold totalBins at h
    rw [BitVec.toNat_shiftLeft, BitVec.toNat_ofNat, Nat.shiftLeft_eq]
    omega
  have hsub : (getSize (idx + j + 1) - roundUp size 8).toNat = 8 * (j + 1) := by
    rw [BitVec.toNat_sub_of_le (BitVec.le_def.mpr (by omega)), hget, ← hs]
    omega
  unfold smallbinsIdx
  rw [BitVec.toNat_ushiftRight, Nat.shiftRight_eq_div_pow, hsub]
  omega

end Calls

/-! ### One step -/

section Step

variable {w w' : MemWorld} {free : List (ℕ × Addr)} {size : U64} {malloc : Option Addr}

/-- The block that a small call hands out. -/
theorem allocated_small (hbin : smallbinsIdx (roundUp size 8) < totalBins) (pool : MemPool) (a : Addr) :
    w.allocated size pool (some a) =
      { pool := pool, live := ⟨a, size⟩ :: w.live, owned := w.owned } := by
  unfold MemWorld.allocated
  rw [if_neg (not_large_of_bin hbin)]
  rfl

/-- The invariant after a call that took `a` for a small block, from the parts as the call left them. -/
theorem MemInv.of_taken {pool : MemPool} {a : Addr} {l : List (ℕ × Addr)} (h : MemInv w free)
    (hpos : roundUp size 8 ≠ 0) (hbin : smallbinsIdx (roundUp size 8) < totalBins)
    (hlaid : Laid w.owned (cell (smallbinsIdx (roundUp size 8), a) ::
      ({ w with pool := pool } : MemWorld).parts l))
    (hlists : FreeLists pool l) (hl : ∀ e ∈ l, 0 < e.1) (harenas : pool.nonMainArena = []) :
    MemInv { pool := pool, live := ⟨a, size⟩ :: w.live, owned := w.owned } l where
  laid := by
    rw [← MemBlock.extent_eq_cell ⟨a, size⟩] at hlaid
    exact hlaid
  lists := hlists
  positive := hl
  sized := by
    intro b hb
    rcases List.mem_cons.mp hb with rfl | hb
    · exact ⟨hpos, .inr hbin⟩
    · exact h.sized b hb
  arenas := harenas

/-- A chunk of the bin. -/
theorem MemInv.palloc_chunk (h : MemInv w free) {a : Addr} (hpos : roundUp size 8 ≠ 0)
    (hbin : smallbinsIdx (roundUp size 8) < totalBins)
    (hfree : (w.pool.smallbins (smallbinsIdx (roundUp size 8))).free = some a) (n : U16) :
    ∃ l, MemInv
      { pool := (w.pool.setBin (smallbinsIdx (roundUp size 8))
          { nums := n, free := w.pool.chunkNext a }).setNext a none
        live := ⟨a, size⟩ :: w.live
        owned := w.owned } l := by
  obtain ⟨l, hlaid, hlists, hl, hidx⟩ := h.pop hfree n
  refine ⟨l, h.of_taken hpos hbin hlaid (hlists.setNext ?_ none) hl h.arenas⟩
  -- the chunk is no longer free when its link is cleared
  refine not_start_of_apart hl (apart_cells hlaid) (Region.start_mem ?_)
  exact Nat.mul_pos (by decide) hidx

/-- A chunk of a larger bin. -/
theorem MemInv.palloc_split (h : MemInv w free) {a : Addr} {i j : ℕ} (hpos : roundUp size 8 ≠ 0)
    (hbin : smallbinsIdx (roundUp size 8) < totalBins)
    (hfree : (w.pool.smallbins i).free = some a) (hi : i = smallbinsIdx (roundUp size 8) + j)
    (hj : 0 < j) (n : U16) :
    ∃ l, MemInv
      { pool := ((w.pool.taken i a).setNext (a + (roundUp size 8).toNat)
          ((w.pool.taken i a).smallbins j).free).setBin j
            { nums := n, free := some (a + (roundUp size 8).toNat) }
        live := ⟨a, size⟩ :: w.live
        owned := w.owned } l := by
  obtain ⟨l, hlaid, hlists, hl, -⟩ := h.pop hfree ((w.pool.smallbins i).nums - 1)
  have hs := smallbinsIdx_mul size
  subst hi
  -- the chunk is divided into the block and what is behind it
  have hcarve : Laid w.owned (cell (smallbinsIdx (roundUp size 8), a) ::
      cell (j, a + (roundUp size 8).toNat) :: w.parts l) := by
    refine @Laid.carve _ _ [cell (smallbinsIdx (roundUp size 8), a),
      cell (j, a + (roundUp size 8).toNat)] _ hlaid
      (List.pairwise_pair.mpr (Region.apart_of_le ?_)) fun s hs' => ?_
    · show a + 8 * smallbinsIdx (roundUp size 8) ≤ a + (roundUp size 8).toNat
      rw [hs]
    · rcases List.mem_cons.mp hs' with rfl | hs'
      · refine Region.within_of_le le_rfl (Nat.add_le_add_left ?_ a)
        exact Nat.mul_le_mul_left 8 (Nat.le_add_right _ j)
      · obtain rfl := List.mem_singleton.mp hs'
        refine Region.within_of_le (Nat.le_add_right a _) ?_
        show a + (roundUp size 8).toNat + 8 * j ≤ a + 8 * (smallbinsIdx (roundUp size 8) + j)
        rw [← hs, Nat.mul_add, Nat.add_assoc]
  -- the rest of the chunk is nobody's, so its link can be written
  have hrest := apart_cells (hcarve.sublist (List.sublist_cons_self _ _))
  refine ⟨(j, a + (roundUp size 8).toNat) :: l, h.of_taken hpos hbin (hcarve.perm ?_)
    (FreeLists.push (i := j) hlists ?_ n) ?_ h.arenas⟩
  · exact (parts_perm_cell w [] l (j, a + (roundUp size 8).toNat)).symm.cons _
  · exact not_start_of_apart hl hrest (Region.start_mem (Nat.mul_pos (by decide) hj))
  · rintro e he
    rcases List.mem_cons.mp he with rfl | he
    · exact hj
    · exact hl e he

/-- What the last block is divided into: the block, the chunks that are linked, and what is left. -/
theorem MemInv.carve_last (h : MemInv w free) {s total : ℕ} (henough : 7 * s ≤ total)
    (hthere : total ≤ w.pool.lastSize.toNat) :
    Laid w.owned (Region.row w.pool.lastData s 7 ++
      [⟨w.pool.lastData + total, w.pool.lastSize.toNat - total⟩] ++
      (w.live.map MemBlock.extent ++ free.map cell)) := by
  -- seven cells fit in what is taken, and what is left begins where that ends
  refine (h.laid.perm (parts_perm_last w free)).carve (List.pairwise_append.mpr
    ⟨Region.row_apart, List.pairwise_singleton _ _, fun r hr t ht => ?_⟩) fun r hr => ?_
  · obtain rfl := List.mem_singleton.mp ht
    refine Region.apart_of_le ((Region.row_within r hr).2.trans ?_)
    exact Nat.add_le_add_left henough _
  · rcases List.mem_append.mp hr with hr | hr
    · obtain ⟨hlow, hhigh⟩ := Region.row_within r hr
      refine Region.within_of_le hlow (hhigh.trans ?_)
      exact Nat.add_le_add_left (henough.trans hthere) _
    · obtain rfl := List.mem_singleton.mp hr
      refine Region.within_of_le (Nat.le_add_right _ _) (le_of_eq ?_)
      show w.pool.lastData + total + (w.pool.lastSize.toNat - total) =
        w.pool.lastData + w.pool.lastSize.toNat
      rw [Nat.add_assoc, Nat.add_sub_cancel' hthere]

/-- `block_alloc`, when what it takes is there and is enough. -/
theorem MemInv.palloc_block (h : MemInv w free) (hpos : roundUp size 8 ≠ 0)
    (hbin : smallbinsIdx (roundUp size 8) < totalBins)
    (henough : 7 * (roundUp size 8).toNat ≤
      (blockTotal w.pool (roundUp size 8) numberOfAddedNode).toNat)
    (hthere : (blockTotal w.pool (roundUp size 8) numberOfAddedNode).toNat ≤
      w.pool.lastSize.toNat) :
    ∃ l, MemInv
      { pool := (blockAlloc w.pool (roundUp size 8) numberOfAddedNode).1
        live := ⟨w.pool.lastData, size⟩ :: w.live
        owned := w.owned } l := by
  have hcarve := h.carve_last henough hthere
  have hidx := smallbinsIdx_mul size
  have hs : 0 < (roundUp size 8).toNat :=
    Nat.pos_of_ne_zero fun h0 => hpos (BitVec.eq_of_toNat_eq h0)
  have hpos' : 0 < smallbinsIdx (roundUp size 8) := by omega
  have hlt : roundUp size 8 < blockTotal w.pool (roundUp size 8) numberOfAddedNode :=
    BitVec.lt_def.mpr (by omega)
  obtain ⟨hnext, hlast, hbins, harenas⟩ :=
    @blockAlloc_spec w.pool (roundUp size 8) numberOfAddedNode hlt hthere
  generalize (blockAlloc w.pool (roundUp size 8) numberOfAddedNode).1 = pool' at hnext hlast hbins harenas
  -- the new chunks are the cells of the row behind the block
  have hrow : ((linked (w.pool.lastData + (roundUp size 8).toNat) (roundUp size 8).toNat 5).map
      (Prod.mk (smallbinsIdx (roundUp size 8)))).map cell =
        Region.row (w.pool.lastData + (roundUp size 8).toNat) (roundUp size 8).toNat 6 :=
    map_cell_linked hidx
  have hblock : (⟨w.pool.lastData, (roundUp size 8).toNat⟩ : Region) =
      cell (smallbinsIdx (roundUp size 8), w.pool.lastData) := by
    unfold cell
    rw [hidx]
  have hfree : ∀ x ∈ linked (w.pool.lastData + (roundUp size 8).toNat) (roundUp size 8).toNat 5,
      ∀ e ∈ free, e.2 ≠ x := by
    refine linked_ne_free hs h.positive fun r hr e he => ?_
    refine (List.pairwise_append.mp hcarve.apart).2.2 r ?_ (cell e) ?_
    · exact List.mem_append_left _ (List.mem_cons_of_mem _ hr)
    · exact List.mem_append_right _ (List.mem_map_of_mem he)
  generalize hl : linked (w.pool.lastData + (roundUp size 8).toNat) (roundUp size 8).toNat 5 = new
    at hrow
  refine ⟨new.map (Prod.mk (smallbinsIdx (roundUp size 8))) ++
    free.filter (fun e => e.1 ≠ smallbinsIdx (roundUp size 8)),
    h.of_taken hpos hbin ?_ ?_ (fun e he => ?_) (harenas.trans h.arenas)⟩
  · -- the chunks that the bin had before are lost
    have hkept := hcarve.sublist (List.Sublist.append_left (List.Sublist.append_left
      ((List.filter_sublist (l := free)
        (p := fun e => e.1 ≠ smallbinsIdx (roundUp size 8))).map cell) _) _)
    refine hkept.perm ?_
    have hlastRegion : pool'.lastRegion =
        ⟨w.pool.lastData + (blockTotal w.pool (roundUp size 8) numberOfAddedNode).toNat,
          w.pool.lastSize.toNat -
            (blockTotal w.pool (roundUp size 8) numberOfAddedNode).toNat⟩ := by
      unfold MemPool.lastRegion
      rw [hlast.1, hlast.2]
    unfold MemWorld.parts
    rw [hlastRegion, ← hblock, List.map_append, hrow]
    -- the first of the seven cells is the block, the other six are the chunks
    show List.Perm ((_ :: Region.row _ _ 6 ++ _) ++ _) _
    rw [List.perm_iff_count]
    intro x
    simp only [List.count_append, List.count_cons, List.cons_append]
    omega
  · rw [← hl]
    exact h.lists.link hs hfree hnext hbins.1 hbins.2
  · rcases List.mem_append.mp he with he | he
    · obtain ⟨a, -, rfl⟩ := List.mem_map.mp he
      exact hpos'
    · exact h.positive e (List.mem_filter.mp he).1

/-- A large block, if `malloc` has one. -/
theorem MemInv.palloc_large (h : MemInv w free) (hlarge : maxMemSize < roundUp size 8)
    (hmalloc : ∀ a, malloc = some a → ∀ o ∈ w.owned,
      Region.Apart ⟨a, (roundUp size 8).toNat⟩ o) :
    MemInv (w.allocated size w.pool malloc) free := by
  have hpos : roundUp size 8 ≠ 0 := by
    rintro h0
    rw [h0] at hlarge
    exact absurd hlarge (by decide)
  unfold MemWorld.allocated
  rw [if_pos hlarge]
  cases malloc with
  -- `NULL` from `malloc`: no block, and nothing more is owned
  | none => exact h
  | some a =>
    refine ⟨?_, h.lists, h.positive, fun b hb => ?_, h.arenas⟩
    · exact h.laid.grow (hmalloc a rfl)
    · rcases List.mem_cons.mp hb with rfl | hb
      · exact ⟨hpos, .inl hlarge⟩
      · exact h.sized b hb

/-- A safe call of `cmt_palloc` returns, and keeps the invariant. -/
theorem MemInv.palloc (h : MemInv w free) (hsafe : PallocSafe w.pool size)
    (hmalloc : ∀ a, malloc = some a → ∀ o ∈ w.owned,
      Region.Apart ⟨a, (roundUp size 8).toNat⟩ o) :
    ∃ pool p, cmtPalloc w.pool size malloc = .ok (pool, p) ∧
      ∃ l, MemInv (w.allocated size pool p) l := by
  -- a small call that returns `r` hands out the block at `r.2`
  have hsmall : ∀ r, smallbinsIdx (roundUp size 8) < totalBins →
      cmtSmallAlloc w.pool (roundUp size 8) = .ok r →
      (∃ l, MemInv { pool := r.1, live := ⟨r.2, size⟩ :: w.live, owned := w.owned } l) →
      ∃ pool p, cmtPalloc w.pool size malloc = .ok (pool, p) ∧
        ∃ l, MemInv (w.allocated size pool p) l := by
    intro r hbin hr hinv
    refine ⟨r.1, some r.2, cmtPalloc_small hbin hr, ?_⟩
    rw [allocated_small hbin]
    exact hinv
  -- a case for each way of being safe, as `refill` distinguishes them
  cases hsafe with
  | large hlarge =>
    refine ⟨w.pool, malloc, ?_, free, h.palloc_large hlarge hmalloc⟩
    unfold cmtPalloc
    dsimp only
    rw [if_pos hlarge]
  | chunk hpos hbin hnums hfree =>
    obtain ⟨a, ha⟩ := Option.ne_none_iff_exists'.mp hfree
    exact hsmall _ hbin (cmtSmallAlloc_chunk hbin hnums ha) (h.palloc_chunk hpos hbin ha _)
  | block hpos hbin hnums hlast henough hthere =>
    exact hsmall _ hbin (cmtSmallAlloc_refill hbin hnums (refill_block hlast))
      (h.palloc_block hpos hbin henough hthere)
  | split hpos hbin hnums hlast hremained hfound =>
    obtain ⟨i, hi, hfree⟩ := hfound
    obtain ⟨a, ha⟩ := Option.ne_none_iff_exists'.mp hfree
    obtain ⟨hlow, hhigh⟩ := findBin_spec hnums hi
    obtain ⟨j, rfl⟩ := Nat.exists_eq_add_of_lt hlow
    refine hsmall _ hbin (cmtSmallAlloc_refill hbin hnums
      (refill_split hlast hremained hi ha (split_idx size hhigh))) ?_
    exact h.palloc_split hpos hbin ha rfl (Nat.succ_pos j) _

/-- `cmt_pfree` of a block in use returns, and keeps the invariant. -/
theorem MemInv.pfree (h : MemInv w free) {b : MemBlock} (hb : b ∈ w.live) :
    ∃ pool released, cmtPfree w.pool b.addr b.size = .ok (pool, released) ∧
      ∃ l, MemInv
        { pool := pool
          live := w.live.erase b
          owned := w.owned.filter fun o => o.start ∉ released } l := by
  have hlaid := h.laid.perm (@parts_perm_live w free b hb)
  have hsized : ∀ b' ∈ w.live.erase b, b'.Sized :=
    fun b' hb' => h.sized b' (List.mem_of_mem_erase hb')
  have howned : w.owned.filter (fun o => o.start ∉ ([] : List Addr)) = w.owned :=
    List.filter_eq_self.mpr fun _ _ => by simp
  unfold cmtPfree
  dsimp only
  by_cases hlarge : maxMemSize < roundUp b.size 8
  · -- the block is put on the list of large chunks, where nothing looks for small ones
    rw [if_pos hlarge]
    refine ⟨_, _, rfl, free, ?_, h.lists, h.positive, hsized, h.arenas⟩
    rw [howned]
    exact hlaid.sublist (List.sublist_cons_self _ _)
  · obtain ⟨hpos, hlarge' | hbin⟩ := h.sized b hb
    · exact absurd hlarge' hlarge
    rw [if_neg hlarge, if_neg (Nat.not_le.mpr hbin)]
    refine ⟨_, _, rfl, ?_⟩
    -- no arena was ever made, so none is released
    rw [h.arenas, howned]
    have hidx : 0 < smallbinsIdx (roundUp b.size 8) := by
      have hmul := smallbinsIdx_mul b.size
      refine Nat.pos_of_ne_zero fun h0 => hpos (BitVec.eq_of_toNat_eq ?_)
      rw [← hmul, h0]
      rfl
    rw [b.extent_eq_cell] at hlaid
    refine ⟨(smallbinsIdx (roundUp b.size 8), b.addr) :: free, ?_, h.lists.push ?_ _, ?_, hsized,
      h.arenas⟩
    · exact hlaid.perm (parts_perm_cell { w with live := w.live.erase b } [] free _).symm
    · refine not_start_of_apart h.positive (fun e he => hlaid.apart_of_mem ?_) (Region.start_mem ?_)
      · exact List.mem_append_left _ (List.mem_append_right _ (List.mem_map_of_mem he))
      · exact Nat.mul_pos (by decide) hidx
    · rintro e he
      rcases List.mem_cons.mp he with rfl | he
      · exact hidx
      · exact h.positive e he

/-- Every safe step keeps the invariant. -/
theorem MemInv.step {l : MemCall} (h : MemInv w free) (hstep : Guarded SafeCall MemStep w l w') :
    ∃ free', MemInv w' free' := by
  obtain ⟨hsafe, hstep⟩ := hstep
  cases hstep with
  | palloc hmalloc hret =>
    obtain ⟨pool, p, hok, hinv⟩ := h.palloc hsafe hmalloc
    obtain ⟨rfl, rfl⟩ := Prod.mk.inj (Except.ok.inj (hok.symm.trans hret))
    exact hinv
  | pfree hb hret =>
    obtain ⟨pool, released, hok, hinv⟩ := h.pfree hb
    obtain ⟨rfl, rfl⟩ := Prod.mk.inj (Except.ok.inj (hok.symm.trans hret))
    exact hinv
  | write hchunk hlarge =>
    refine ⟨free, h.laid, h.lists.congr (fun _ => rfl) fun e he => hchunk e.2 fun b hb => ?_,
      h.positive, h.sized, h.arenas⟩
    -- the link of a free chunk lies in its cell, and that apart from the blocks in use
    have hlaid := h.laid.perm (@parts_perm_live w free b hb)
    have hap : b.extent.Apart (cell e) := hlaid.apart_of_mem
      (List.mem_append_left _ (List.mem_append_right _ (List.mem_map_of_mem he)))
    refine hap.symm.mono (Region.within_of_le le_rfl (Nat.add_le_add_left ?_ e.2))
      (h.sized b hb).within
    show 8 ≤ 8 * e.1
    exact Nat.le_mul_of_pos_right 8 (h.positive e he)

end Step

/-! ### All runs -/

theorem memInv_created (size : U64) (data : Addr) (chunkNext : Addr → Option Addr)
    (large : Addr → LargeChunk) : MemInv (createdPool size data chunkNext large) [] where
  laid := by
    refine ⟨List.pairwise_singleton _ _, fun r hr => ?_⟩
    obtain rfl := List.mem_singleton.mp hr
    refine ⟨_, List.mem_singleton_self _, Region.within_of_le le_rfl (Nat.add_le_add_left ?_ data)⟩
    -- `last.size` has 32 bits of the size
    show ((round2Up (if size < cmtDefaultPoolSize then cmtDefaultPoolSize else size)).setWidth 32).toNat ≤
      (round2Up (if size < cmtDefaultPoolSize then cmtDefaultPoolSize else size)).toNat
    rw [BitVec.toNat_setWidth]
    exact Nat.mod_le _ _
  lists := fun _ => rfl
  positive := nofun
  sized := nofun
  arenas := rfl

/-- **Pool allocator safety.** In every run from a new pool whose calls of `cmt_palloc` are safe, every block
in use has the bytes that were asked for in memory the pool owns, apart from every other one; and the calls
return. -/
theorem palloc_safe (size : U64) (data : Addr) (chunkNext : Addr → Option Addr)
    (large : Addr → LargeChunk) {ls : List MemCall} {w : MemWorld}
    (hrun : Run (Guarded SafeCall MemStep) (createdPool size data chunkNext large) ls w) :
    BlocksSound w ∧ CallsReturn w := by
  obtain ⟨free, h⟩ := hrun.invariant (fun w => ∃ free, MemInv w free)
    ⟨[], memInv_created size data chunkNext large⟩ fun _ _ _ ⟨_, h⟩ hstep => h.step hstep
  refine ⟨h.sound, fun size malloc hmalloc hsafe => ?_, fun b hb => ?_⟩
  · obtain ⟨pool, p, hok, -⟩ := h.palloc hsafe hmalloc
    exact ⟨_, hok⟩
  · obtain ⟨pool, released, hok, -⟩ := h.pfree hb
    exact ⟨_, hok⟩

/-! ### What goes wrong -/

/-- The world after `cmt_palloc`, as it was before where the call does not return. -/
def MemWorld.afterPalloc (w : MemWorld) (size : U64) : MemWorld :=
  match cmtPalloc w.pool size none with
  | .ok (pool, p) => w.allocated size pool p
  | .error _ => w

/-- The world after `cmt_pfree`, as it was before where the call does not return. -/
def MemWorld.afterPfree (w : MemWorld) (b : MemBlock) : MemWorld :=
  match cmtPfree w.pool b.addr b.size with
  | .ok (pool, released) =>
    { pool := pool
      live := w.live.erase b
      owned := w.owned.filter fun o => o.start ∉ released }
  | .error _ => w

theorem MemStep.afterPalloc {w : MemWorld} {size : U64}
    (hok : ∃ r, cmtPalloc w.pool size none = .ok r) :
    MemStep w (.palloc size none) (w.afterPalloc size) := by
  obtain ⟨⟨pool, p⟩, hr⟩ := hok
  unfold MemWorld.afterPalloc
  rw [hr]
  exact .palloc nofun hr

theorem MemStep.afterPfree {w : MemWorld} {b : MemBlock} (hb : b ∈ w.live)
    (hok : ∃ r, cmtPfree w.pool b.addr b.size = .ok r) :
    MemStep w (.pfree b) (w.afterPfree b) := by
  obtain ⟨⟨pool, released⟩, hr⟩ := hok
  unfold MemWorld.afterPfree
  rw [hr]
  exact .pfree hb hr

/-- A pool of the default size, its area at `8192`. -/
def defaultPool : MemWorld := createdPool 0 8192 (fun _ => none) fun _ => ⟨0, none⟩

/-- The pool after `cmt_palloc(8)`. -/
def onePalloc : MemWorld := defaultPool.afterPalloc 8

/-- And after the block was given back. -/
def onePfree : MemWorld := onePalloc.afterPfree ⟨8192, 8⟩

/-- A small block, another one in its place after it was given back, and one more beside it. -/
theorem palloc_safe_reuse :
    Run (Guarded SafeCall MemStep) defaultPool
        [.palloc 8 none, .pfree ⟨8192, 8⟩, .palloc 5 none, .palloc 8 none]
        ((onePfree.afterPalloc 5).afterPalloc 8) ∧
      ((onePfree.afterPalloc 5).afterPalloc 8).live = [⟨8200, 8⟩, ⟨8192, 5⟩] ∧
      BlocksSound ((onePfree.afterPalloc 5).afterPalloc 8) ∧
      CallsReturn ((onePfree.afterPalloc 5).afterPalloc 8) := by
  have h₁ : Run (Guarded SafeCall MemStep) defaultPool [.palloc 8 none] onePalloc :=
    Run.single ⟨show PallocSafe _ 8 from
      .block (by decide) (by decide) rfl (by decide) (by decide) (by decide), .afterPalloc ⟨_, rfl⟩⟩
  have h₂ : Run (Guarded SafeCall MemStep) defaultPool [.palloc 8 none, .pfree ⟨8192, 8⟩] onePfree :=
    h₁.snoc ⟨trivial, .afterPfree (by decide) ⟨_, rfl⟩⟩
  have h₃ : Run (Guarded SafeCall MemStep) defaultPool
      [.palloc 8 none, .pfree ⟨8192, 8⟩, .palloc 5 none] (onePfree.afterPalloc 5) :=
    h₂.snoc ⟨show PallocSafe _ 5 from .chunk (by decide) (by decide) (by decide) (by decide),
      .afterPalloc ⟨_, rfl⟩⟩
  have h₄ : Run (Guarded SafeCall MemStep) defaultPool
      [.palloc 8 none, .pfree ⟨8192, 8⟩, .palloc 5 none, .palloc 8 none]
      ((onePfree.afterPalloc 5).afterPalloc 8) :=
    h₃.snoc ⟨show PallocSafe _ 8 from .chunk (by decide) (by decide) (by decide) (by decide),
      .afterPalloc ⟨_, rfl⟩⟩
  exact ⟨h₄, by decide, palloc_safe 0 8192 _ _ h₄⟩

/-- The pool after `n` calls of `cmt_palloc(8)`. -/
def pallocs : ℕ → MemWorld
  | 0 => defaultPool
  | n + 1 => (pallocs n).afterPalloc 8

/-- What goes wrong. `cmt_palloc(SIZE_MAX)` rounds the size up to zero, and returns a block. Of a size that
has a bin, seven blocks can be taken before the bin counts chunks that are not there. Other sizes are
looked up outside the bins. -/
theorem palloc_not_safe :
    (∃ w, Run MemStep defaultPool [.palloc 0xFFFFFFFFFFFFFFFF none] w ∧ ¬BlocksSound w) ∧
    (Run MemStep defaultPool (List.replicate 7 (.palloc 8 none)) (pallocs 7) ∧
      cmtPalloc (pallocs 7).pool 8 none = .error .nullDeref) ∧
    cmtPalloc defaultPool.pool 56 none = .error .outOfBounds := by
  have hstep : ∀ n, (∃ r, cmtPalloc (pallocs n).pool 8 none = .ok r) →
      MemStep (pallocs n) (.palloc 8 none) (pallocs (n + 1)) := fun _ => MemStep.afterPalloc
  refine ⟨⟨_, Run.single (.afterPalloc ⟨_, rfl⟩), fun h => ?_⟩, ⟨?_, rfl⟩, rfl⟩
  · obtain ⟨o, ho, hin⟩ := h.inside ⟨8192, 0xFFFFFFFFFFFFFFFF⟩ (by decide)
    obtain rfl : o = ⟨8192, 4096⟩ := List.mem_singleton.mp ho
    -- the area ends at `12288`
    have hmem : 12288 ∈ (⟨8192, 4096⟩ : Region).span := hin (Region.mem_span.mpr (by decide))
    exact absurd (Region.mem_span.mp hmem).2 (by decide)
  · have h₃ := ((Run.single (hstep 0 ⟨_, rfl⟩)).snoc (hstep 1 ⟨_, rfl⟩)).snoc (hstep 2 ⟨_, rfl⟩)
    have h₅ := (h₃.snoc (hstep 3 ⟨_, rfl⟩)).snoc (hstep 4 ⟨_, rfl⟩)
    exact (h₅.snoc (hstep 5 ⟨_, rfl⟩)).snoc (hstep 6 ⟨_, rfl⟩)

end CmtTcp
