import CmtTcp.Rss
import CmtTcp.Lib.Run
import Mathlib.Data.List.Nodup
import Mathlib.Data.List.Perm.Subperm

/-!
# Source address pools

`addr_pool.c`: the addresses and ports a stack may use as its own, each an entry of one array. An
entry is on the free list or on the used list, and the map finds it by its address and port.

* `addressPool_exclusive`: over every sequence of calls no address is in two hands, and each call does
  what it is for (`PoolLaw`);
* `addressPoolPerCore_sound`: the pools made for one core hand out what `fetch_address` would accept
  for that core, and no two of them share an address.

The entries are told apart by their index in the array, and the two lists are lists of these. `addr_link`,
`free_list` and `used_list` are declared as pointers, but every use (`tailq_first(&ap->free_list)`, the
cast of an entry to its node) is that of a node and of heads inside the records, and so they are read. The
lock, and the failures of `calloc` and of the lock's creation, are left out.
-/

namespace CmtTcp

open Lib (Run)

def minPort : ℕ := 1025
def maxPort : ℕ := 65535 + 1

/-- `INADDR_ANY` -/
def inaddrAny : U32 := 0

/-- `INPORT_ANY` -/
def inportAny : U16 := 0

/-- `struct sockaddr_in`, its fields in network order -/
structure SockaddrIn where
  sinFamily : U16
  sinPort : U16
  sinAddr : U32
deriving DecidableEq, Repr

/-- `addr_pool_t`. The array `pool` has `num_entry` entries, `mapper` has `num_addr` times `MAX_PORT`. -/
structure AddrPool where
  pool : ℕ → SockaddrIn
  mapper : ℕ → ℕ → Option ℕ
  /-- in host order -/
  addrBase : U32
  numAddr : ℤ
  numEntry : ℤ
  numFree : ℤ
  numUsed : ℤ
  freeList : List ℕ
  usedList : List ℕ

/-! ### Creation -/

/-- The pool `calloc` and `tailq_init` give. -/
def callocPool (addrBase : U32) (numAddr : ℤ) : AddrPool where
  pool _ := ⟨0, 0, 0⟩
  mapper _ _ := none
  addrBase := addrBase
  numAddr := numAddr
  numEntry := 0
  numFree := 0
  numUsed := 0
  freeList := []
  usedList := []

/-- What the constructors do for an address: fill entry `cnt`, map it, and put it on the free list. -/
def AddrPool.place (ap : AddrPool) (cnt i j : ℕ) (addr : U32) (port : U16) : AddrPool :=
  { ap with
    pool := Function.update ap.pool cnt { ap.pool cnt with sinAddr := addr, sinPort := port }
    mapper := Function.update ap.mapper i (Function.update (ap.mapper i) j (some cnt))
    freeList := ap.freeList ++ [cnt] }

/-- The loop over the ports in `create_address_pool`, with `n` ports to go; also `cnt`. -/
def createPorts (numEntry : ℤ) (i : ℕ) (addr : U32) : ℕ → ℕ → AddrPool × ℕ → AddrPool × ℕ
  | 0, _, b => b
  | n + 1, j, (ap, cnt) =>
    let ap := ap.place cnt i j addr (htons (BitVec.ofNat 16 j))
    let cnt := cnt + 1
    if (cnt : ℤ) ≥ numEntry then (ap, cnt) else createPorts numEntry i addr n (j + 1) (ap, cnt)

/-- The loop over the addresses in `create_address_pool`, with `n` addresses to go. -/
def createAddrs (numEntry : ℤ) : ℕ → ℕ → AddrPool × ℕ → AddrPool × ℕ
  | 0, _, b => b
  | n + 1, i, b =>
    let addrH := b.1.addrBase + BitVec.ofNat 32 i
    let addr := htonl addrH
    createAddrs numEntry n (i + 1) (createPorts numEntry i addr (maxPort - minPort) minPort b)

/-- The counters at the end of a constructor. -/
def AddrPool.count (b : AddrPool × ℕ) : AddrPool :=
  { b.1 with numEntry := b.2, numFree := b.2, numUsed := 0 }

/-- `create_address_pool` -/
def createAddressPool (addrBase : U32) (numAddr : ℤ) : AddrPool :=
  let numEntry := numAddr * (maxPort - minPort)
  AddrPool.count (createAddrs numEntry numAddr.toNat 0 (callocPool (htonl addrBase) numAddr, 0))

/-- What the per-core constructor is asked for. -/
structure CoreRequest where
  core : ℤ
  numQueues : U32
  /-- in network order -/
  daddr : U32
  /-- in network order -/
  dport : U16
  endianCheck : U8

/-- The core of a source address and port in host order, as the per-core constructor asks for it. -/
def CoreRequest.rssCore (q : CoreRequest) (saddrH : U32) (sportH : U16) : ℤ :=
  getRSSCPUCore (htonl q.daddr) saddrH (htons q.dport) sportH q.numQueues q.endianCheck

/-- The loop over the ports in `create_address_pool_per_core`. -/
def createPortsPerCore (q : CoreRequest) (numEntry : ℤ) (i : ℕ) (saddrH : U32) :
    ℕ → ℕ → AddrPool × ℕ → AddrPool × ℕ
  | 0, _, b => b
  | n + 1, j, (ap, cnt) =>
    if (cnt : ℤ) ≥ numEntry then (ap, cnt)
    else
      let sportH : U16 := BitVec.ofNat 16 j
      if q.rssCore saddrH sportH ≠ q.core then
        createPortsPerCore q numEntry i saddrH n (j + 1) (ap, cnt)
      else
        createPortsPerCore q numEntry i saddrH n (j + 1)
          (ap.place cnt i j (htonl saddrH) (htons sportH), cnt + 1)

/-- The loop over the addresses in `create_address_pool_per_core`. -/
def createAddrsPerCore (q : CoreRequest) (numEntry : ℤ) : ℕ → ℕ → AddrPool × ℕ → AddrPool × ℕ
  | 0, _, b => b
  | n + 1, i, b =>
    let saddrH := b.1.addrBase + BitVec.ofNat 32 i
    createAddrsPerCore q numEntry n (i + 1)
      (createPortsPerCore q numEntry i saddrH (maxPort - minPort) minPort b)

/-- `create_address_pool_per_core` -/
def createAddressPoolPerCore (q : CoreRequest) (saddrBase : U32) (numAddr : ℤ) : AddrPool :=
  let numEntry := (numAddr * (maxPort - minPort)).tdiv q.numQueues.toInt
  AddrPool.count
    (createAddrsPerCore q numEntry numAddr.toNat 0 (callocPool (htonl saddrBase) numAddr, 0))

/-! ### Fetching and freeing -/

/-- The core of an entry, as `fetch_address` asks for it. -/
def AddrPool.entryCore (ap : AddrPool) (numQueues : U32) (daddr : SockaddrIn) (endianCheck : U8)
    (k : ℕ) : ℤ :=
  getRSSCPUCore (htonl (ap.pool k).sinAddr) (htonl daddr.sinAddr) (htons (ap.pool k).sinPort)
    (htons daddr.sinPort) numQueues endianCheck

/-- The walk of `fetch_address` along the free list. -/
def fetchWalk (ap : AddrPool) (core : ℤ) (numQueues : U32) (daddr saddr : SockaddrIn)
    (endianCheck : U8) : List ℕ → Option ℕ
  | [] => none
  | walk :: next =>
    if saddr.sinAddr ≠ inaddrAny ∧ (ap.pool walk).sinAddr ≠ saddr.sinAddr then
      fetchWalk ap core numQueues daddr saddr endianCheck next
    else if saddr.sinPort ≠ inportAny ∧ (ap.pool walk).sinPort ≠ saddr.sinPort then
      fetchWalk ap core numQueues daddr saddr endianCheck next
    else if core = ap.entryCore numQueues daddr endianCheck walk then some walk
    else fetchWalk ap core numQueues daddr saddr endianCheck next

/-- Move an entry from the free list to the used list. -/
def AddrPool.take (ap : AddrPool) (walk : ℕ) : AddrPool :=
  { ap with
    freeList := ap.freeList.erase walk
    usedList := ap.usedList ++ [walk]
    numFree := ap.numFree - 1
    numUsed := ap.numUsed + 1 }

/-- Move an entry from the used list to the free list. -/
def AddrPool.give (ap : AddrPool) (walk : ℕ) : AddrPool :=
  { ap with
    usedList := ap.usedList.erase walk
    freeList := ap.freeList ++ [walk]
    numFree := ap.numFree + 1
    numUsed := ap.numUsed - 1 }

/-- The end of both fetches, for the entry that was found: the pool, `*saddr`, and what is returned. -/
def takeEntry (ap : AddrPool) (saddr : SockaddrIn) : Option ℕ → AddrPool × SockaddrIn × ℤ
  | none => (ap, saddr, -1)
  | some walk => (ap.take walk, ap.pool walk, 0)

/-- `fetch_address`, where `endianCheck` is what `FetchEndianType` returns. -/
def fetchAddress (ap : AddrPool) (core : ℤ) (numQueues : U32) (daddr saddr : SockaddrIn)
    (endianCheck : U8) : AddrPool × SockaddrIn × ℤ :=
  takeEntry ap saddr (fetchWalk ap core numQueues daddr saddr endianCheck ap.freeList)

/-- `fetch_address_per_core`, which looks neither at the core nor at the destination. -/
def fetchAddressPerCore (ap : AddrPool) (saddr : SockaddrIn) : AddrPool × SockaddrIn × ℤ :=
  takeEntry ap saddr ap.freeList.head?

/-- What `free_address` finds in the map. The pools the constructors return have one. -/
def mappedEntry (ap : AddrPool) (addr : SockaddrIn) : Option ℕ :=
  let addrH := htonl addr.sinAddr
  let portH := htons addr.sinPort
  let index := (addrH - ap.addrBase).toInt
  if index ≥ 0 ∧ index < ap.numAddr then ap.mapper (addrH - ap.addrBase).toNat portH.toNat else none

/-- `free_address` -/
def freeAddress (ap : AddrPool) (addr : SockaddrIn) : AddrPool × ℤ :=
  match mappedEntry ap addr with
  | none => (ap, -1)
  | some walk => (ap.give walk, 0)

/-! ### What the constructors build -/

/-- The entry for port `j` of the `i`th address from `base` on. -/
def entryAt (base : U32) (i j : ℕ) : SockaddrIn :=
  ⟨0, htons (BitVec.ofNat 16 j), htonl (base + BitVec.ofNat 32 i)⟩

/-- The map and the first `n` entries of the array say the same: entry `k` is mapped from somewhere,
and what is mapped to it is what it holds, for places of the range that satisfy `φ`. -/
structure AddrPool.Layout (φ : ℕ → ℕ → Prop) (ap : AddrPool) (n : ℕ) : Prop where
  entry : ∀ k < n, ∃ i j, ap.mapper i j = some k
  mapped : ∀ i j k, ap.mapper i j = some k → k < n ∧ (i : ℤ) < ap.numAddr ∧ minPort ≤ j ∧
    j < maxPort ∧ φ i j ∧ ap.pool k = entryAt ap.addrBase i j

theorem AddrPool.place_mapper (ap : AddrPool) (cnt i j : ℕ) (addr : U32) (port : U16) (i' j' : ℕ) :
    (ap.place cnt i j addr port).mapper i' j' =
      if i' = i ∧ j' = j then some cnt else ap.mapper i' j' := by
  unfold AddrPool.place
  dsimp only
  by_cases hi : i' = i
  · subst hi
    rw [Function.update_self]
    by_cases hj : j' = j
    · rw [hj, Function.update_self, if_pos ⟨rfl, rfl⟩]
    · rw [Function.update_of_ne hj, if_neg fun h => hj h.2]
  · rw [Function.update_of_ne hi, if_neg fun h => hi h.1]

theorem minPort_add : minPort + (maxPort - minPort) = maxPort := rfl

/-- The places that the constructor for `q` does not pass over. -/
def CoreRequest.Fits (q : CoreRequest) (base : U32) (i j : ℕ) : Prop :=
  q.rssCore (base + BitVec.ofNat 32 i) (BitVec.ofNat 16 j) = q.core

/-- The state of a constructor that has filled `cnt` entries and is about to look at port `j` of the
`i`th address. -/
structure Building (φ : ℕ → ℕ → Prop) (base : U32) (numAddr : ℤ) (b : AddrPool × ℕ) (i j : ℕ) :
    Prop where
  layout : b.1.Layout φ b.2
  fresh : ∀ i' j', i < i' ∨ i' = i ∧ j ≤ j' → b.1.mapper i' j' = none
  family : ∀ k, (b.1.pool k).sinFamily = 0
  free : b.1.freeList = List.range b.2
  used : b.1.usedList = []
  base : b.1.addrBase = base
  num : b.1.numAddr = numAddr

namespace Building

variable {φ : ℕ → ℕ → Prop} {base : U32} {numAddr : ℤ} {b : AddrPool × ℕ} {ap : AddrPool}
  {cnt i j : ℕ}

theorem start (φ : ℕ → ℕ → Prop) (base : U32) (numAddr : ℤ) (j : ℕ) :
    Building φ base numAddr (callocPool base numAddr, 0) 0 j where
  layout := ⟨fun k hk => absurd hk (Nat.not_lt_zero k), fun _ _ _ h => nomatch h⟩
  fresh _ _ _ := rfl
  family _ := rfl
  free := rfl
  used := rfl
  base := rfl
  num := rfl

/-- A place that is passed over stays empty. -/
theorem skip (h : Building φ base numAddr b i j) {i' j' : ℕ} (hle : i < i' ∨ i' = i ∧ j ≤ j') :
    Building φ base numAddr b i' j' where
  __ := h
  fresh := by
    intro i'' j'' hge
    apply h.fresh
    omega

/-- Filling an entry. -/
theorem place (h : Building φ base numAddr (ap, cnt) i j) (hi : (i : ℤ) < numAddr)
    (hmin : minPort ≤ j) (hmax : j < maxPort) (hφ : φ i j) :
    Building φ base numAddr
      (ap.place cnt i j (htonl (base + BitVec.ofNat 32 i)) (htons (BitVec.ofNat 16 j)), cnt + 1)
      i (j + 1) := by
  -- the array changes at `cnt` only
  have hnew : Function.update ap.pool cnt { ap.pool cnt with
      sinAddr := htonl (base + BitVec.ofNat 32 i), sinPort := htons (BitVec.ofNat 16 j) } cnt =
        entryAt base i j := by
    have hfamily : (ap.pool cnt).sinFamily = 0 := h.family cnt
    rw [Function.update_self]
    unfold entryAt
    dsimp only
    rw [hfamily]
  refine ⟨⟨?entry, ?mapped⟩, ?fresh, ?family, ?free, h.used, h.base, h.num⟩
  case entry =>
    intro k hk
    rcases Nat.lt_succ_iff_lt_or_eq.mp hk with hk | rfl
    · obtain ⟨i', j', hmap⟩ := h.layout.entry k hk
      refine ⟨i', j', ?_⟩
      rw [AddrPool.place_mapper, if_neg, hmap]
      -- the place of an old entry is not the fresh one
      rintro ⟨rfl, rfl⟩
      rw [h.fresh i' j' (.inr ⟨rfl, Nat.le_refl _⟩)] at hmap
      cases hmap
    · exact ⟨i, j, by rw [AddrPool.place_mapper, if_pos ⟨rfl, rfl⟩]⟩
  case mapped =>
    intro i' j' k hmap
    rw [AddrPool.place_mapper] at hmap
    split at hmap
    · next hij =>
      obtain ⟨rfl, rfl⟩ := hij
      cases hmap
      refine ⟨Nat.lt_succ_self _, by rwa [← h.num] at hi, hmin, hmax, hφ, ?_⟩
      change Function.update ap.pool cnt _ cnt = entryAt ap.addrBase i' j'
      rw [hnew, h.base]
    · obtain ⟨hk, hrest⟩ := h.layout.mapped i' j' k hmap
      refine ⟨Nat.lt_succ_of_lt hk, ?_⟩
      change (i' : ℤ) < ap.numAddr ∧ minPort ≤ j' ∧ j' < maxPort ∧ φ i' j' ∧
        Function.update ap.pool cnt _ k = entryAt ap.addrBase i' j'
      rwa [Function.update_of_ne (Nat.ne_of_lt hk)]
  case fresh =>
    intro i' j' hge
    rw [AddrPool.place_mapper, if_neg (by omega)]
    apply h.fresh
    omega
  case family =>
    intro k
    change (Function.update ap.pool cnt _ k).sinFamily = 0
    by_cases hk : k = cnt
    · rw [hk, hnew]
      rfl
    · rw [Function.update_of_ne hk]
      exact h.family k
  case free =>
    change ap.freeList ++ [cnt] = List.range (cnt + 1)
    rw [h.free, List.range_succ]

/-- The loop over the ports. -/
theorem createPorts (h : Building (fun _ _ => True) base numAddr b i j) (numEntry : ℤ)
    (hi : (i : ℤ) < numAddr) (hmin : minPort ≤ j) {n : ℕ} (hn : j + n = maxPort) :
    ∃ j', Building (fun _ _ => True) base numAddr
      (createPorts numEntry i (htonl (base + BitVec.ofNat 32 i)) n j b) i j' := by
  induction n generalizing b j with
  | zero => exact ⟨j, h⟩
  | succ n ih =>
    obtain ⟨ap, cnt⟩ := b
    have hplace := h.place hi hmin (by omega) trivial
    unfold CmtTcp.createPorts
    dsimp only
    split
    · exact ⟨j + 1, hplace⟩
    · exact ih hplace (by omega) (by omega)

/-- The loop over the addresses. -/
theorem createAddrs (h : Building (fun _ _ => True) base numAddr b i minPort) (numEntry : ℤ) {n : ℕ}
    (hn : i + n = numAddr.toNat) :
    ∃ i' j', Building (fun _ _ => True) base numAddr (createAddrs numEntry n i b) i' j' := by
  induction n generalizing b i with
  | zero => exact ⟨i, minPort, h⟩
  | succ n ih =>
    unfold CmtTcp.createAddrs
    dsimp only
    rw [h.base]
    obtain ⟨j', hports⟩ := h.createPorts numEntry (by omega) (Nat.le_refl _) minPort_add
    exact ih (hports.skip (.inl (Nat.lt_succ_self i))) (by omega)

/-- The loop over the ports for one core. -/
theorem createPortsPerCore {q : CoreRequest} (h : Building (q.Fits base) base numAddr b i j)
    (numEntry : ℤ) (hi : (i : ℤ) < numAddr) (hmin : minPort ≤ j) {n : ℕ} (hn : j + n = maxPort) :
    ∃ j', Building (q.Fits base) base numAddr
      (createPortsPerCore q numEntry i (base + BitVec.ofNat 32 i) n j b) i j' := by
  induction n generalizing b j with
  | zero => exact ⟨j, h⟩
  | succ n ih =>
    obtain ⟨ap, cnt⟩ := b
    unfold CmtTcp.createPortsPerCore
    dsimp only
    split
    · exact ⟨j, h⟩
    split
    · -- the port is served by another core
      exact ih (h.skip (.inr ⟨rfl, Nat.le_succ j⟩)) (by omega) (by omega)
    · next hcore =>
      exact ih (h.place hi hmin (by omega) (not_not.mp hcore)) (by omega) (by omega)

/-- The loop over the addresses for one core. -/
theorem createAddrsPerCore {q : CoreRequest} (h : Building (q.Fits base) base numAddr b i minPort)
    (numEntry : ℤ) {n : ℕ} (hn : i + n = numAddr.toNat) :
    ∃ i' j', Building (q.Fits base) base numAddr (createAddrsPerCore q numEntry n i b) i' j' := by
  induction n generalizing b i with
  | zero => exact ⟨i, minPort, h⟩
  | succ n ih =>
    unfold CmtTcp.createAddrsPerCore
    dsimp only
    rw [h.base]
    obtain ⟨j', hports⟩ := h.createPortsPerCore numEntry (by omega) (Nat.le_refl _) minPort_add
    exact ih (hports.skip (.inl (Nat.lt_succ_self i))) (by omega)

end Building

/-! ### The whole range -/

/-- The constructor has filled the entry of every place before port `j` of the `i`th address. -/
structure Filled (b : AddrPool × ℕ) (i j : ℕ) : Prop where
  cnt : b.2 = i * (maxPort - minPort) + (j - minPort)
  filled : ∀ i' j', minPort ≤ j' → j' < maxPort → i' < i ∨ i' = i ∧ j' < j →
    ∃ k, b.1.mapper i' j' = some k

namespace Filled

variable {b : AddrPool × ℕ} {ap : AddrPool} {cnt i j : ℕ}

theorem place (h : Filled (ap, cnt) i j) (hmin : minPort ≤ j) (addr : U32) (port : U16) :
    Filled (ap.place cnt i j addr port, cnt + 1) i (j + 1) where
  cnt := by
    have hcnt : cnt = _ := h.cnt
    change cnt + 1 = _
    omega
  filled := by
    intro i' j' hmin' hmax' hlt
    rw [AddrPool.place_mapper]
    split
    · exact ⟨cnt, rfl⟩
    · exact h.filled i' j' hmin' hmax' (by omega)

/-- The loop over the ports fills them all: the test on `num_entry` is met at the last place only. -/
theorem createPorts {numAddr : ℕ} (h : Filled b i j) (addr : U32) (hi : i < numAddr)
    (hmin : minPort ≤ j) {n : ℕ} (hn : j + n = maxPort) :
    Filled (createPorts (numAddr * (maxPort - minPort)) i addr n j b) i maxPort := by
  induction n generalizing b j with
  | zero =>
    obtain rfl : j = maxPort := hn
    exact h
  | succ n ih =>
    obtain ⟨ap, cnt⟩ := b
    have hplace := h.place hmin addr (htons (BitVec.ofNat 16 j))
    unfold CmtTcp.createPorts
    dsimp only
    split
    · next hge =>
      have hlast : j + 1 = maxPort := by
        have hcnt : cnt = i * (maxPort - minPort) + (j - minPort) := h.cnt
        unfold maxPort minPort at *
        push_cast at hge
        omega
      rwa [hlast] at hplace
    · exact ih hplace (by omega) (by omega)

/-- The loop over the addresses fills the whole range. -/
theorem createAddrs {numAddr : ℕ} (h : Filled b i minPort) {n : ℕ}
    (hn : i + n = numAddr) :
    Filled (createAddrs (numAddr * (maxPort - minPort)) n i b) numAddr minPort := by
  induction n generalizing b i with
  | zero =>
    obtain rfl : i = numAddr := hn
    exact h
  | succ n ih =>
    unfold CmtTcp.createAddrs
    apply ih _ (by omega)
    have hports := h.createPorts (htonl (b.1.addrBase + BitVec.ofNat 32 i))
      (show i < numAddr by omega) (Nat.le_refl _) minPort_add
    refine ⟨?_, fun i' j' hmin hmax hlt => hports.filled i' j' hmin hmax (by omega)⟩
    rw [hports.cnt]
    unfold maxPort minPort
    omega

end Filled

/-- A new pool: all its entries are free. -/
structure AddrPool.New (φ : ℕ → ℕ → Prop) (base : U32) (numAddr : ℤ) (ap : AddrPool) (n : ℕ) :
    Prop where
  layout : ap.Layout φ n
  base : ap.addrBase = base
  num : ap.numAddr = numAddr
  free : ap.freeList = List.range n
  used : ap.usedList = []
  numEntry : ap.numEntry = n
  numFree : ap.numFree = n
  numUsed : ap.numUsed = 0

theorem Building.new {φ : ℕ → ℕ → Prop} {base : U32} {numAddr : ℤ} {b : AddrPool × ℕ} {i j : ℕ}
    (h : Building φ base numAddr b i j) : (AddrPool.count b).New φ base numAddr b.2 where
  layout := ⟨h.layout.entry, h.layout.mapped⟩
  base := h.base
  num := h.num
  free := h.free
  used := h.used
  numEntry := rfl
  numFree := rfl
  numUsed := rfl

/-- `create_address_pool` makes an entry for every address and port of the range. -/
theorem createAddressPool_new (addrBase : U32) (numAddr : ℕ) :
    (createAddressPool addrBase numAddr).New (fun _ _ => True) (htonl addrBase) numAddr
        (numAddr * (maxPort - minPort)) ∧
      ∀ i j, i < numAddr → minPort ≤ j → j < maxPort →
        ∃ k, (createAddressPool addrBase numAddr).mapper i j = some k := by
  unfold createAddressPool
  dsimp only
  rw [Int.toNat_natCast]
  obtain ⟨i', j', hbuild⟩ := (Building.start (fun _ _ => True) (htonl addrBase) numAddr
    minPort).createAddrs (numAddr * (maxPort - minPort)) (Nat.zero_add _)
  have hfill : Filled (callocPool (htonl addrBase) numAddr, 0) 0 minPort :=
    ⟨rfl, fun i' j' hmin _ hlt => by omega⟩
  replace hfill := hfill.createAddrs (Nat.zero_add numAddr)
  rw [Int.toNat_natCast] at hbuild
  have hcnt := hfill.cnt
  rw [Nat.sub_self, Nat.add_zero] at hcnt
  constructor
  · rw [← hcnt]
    exact hbuild.new
  · intro i j hi hmin hmax
    exact hfill.filled i j hmin hmax (.inl hi)

/-- `create_address_pool_per_core` makes entries of its core only. -/
theorem createAddressPoolPerCore_new (q : CoreRequest) (saddrBase : U32) (numAddr : ℤ) :
    ∃ n, (createAddressPoolPerCore q saddrBase numAddr).New (q.Fits (htonl saddrBase))
      (htonl saddrBase) numAddr n := by
  obtain ⟨i', j', hbuild⟩ := (Building.start (q.Fits (htonl saddrBase)) (htonl saddrBase) numAddr
    minPort).createAddrsPerCore ((numAddr * (maxPort - minPort)).tdiv q.numQueues.toInt)
      (Nat.zero_add _)
  exact ⟨_, hbuild.new⟩

/-! ### Where an address lies in the pool -/

/-- What tells addresses apart: the address and the port. -/
def SockaddrIn.pair (a : SockaddrIn) : U32 × U16 := (a.sinAddr, a.sinPort)

section Layout

variable {φ : ℕ → ℕ → Prop} {ap : AddrPool} {n k k' i i' j j' : ℕ} {base : U32}

/-- The places of a range of at most `2^31` addresses hold different entries. -/
theorem entryAt_pair_injective (hi : i < 2 ^ 31) (hi' : i' < 2 ^ 31) (hj : j < maxPort)
    (hj' : j' < maxPort) (h : (entryAt base i j).pair = (entryAt base i' j').pair) :
    i = i' ∧ j = j' := by
  obtain ⟨haddr, hport⟩ := Prod.mk.inj h
  replace haddr := htonl_injective haddr
  replace hport := htons_injective hport
  constructor
  · bv_omega
  · change j < 65536 at hj
    change j' < 65536 at hj'
    bv_omega

/-- An entry is mapped from its place. -/
theorem AddrPool.Layout.place (h : ap.Layout φ n) (hk : k < n) :
    ∃ i j, ap.mapper i j = some k ∧ (i : ℤ) < ap.numAddr ∧ minPort ≤ j ∧ j < maxPort ∧ φ i j ∧
      ap.pool k = entryAt ap.addrBase i j := by
  obtain ⟨i, j, hmap⟩ := h.entry k hk
  exact ⟨i, j, hmap, (h.mapped i j k hmap).2⟩

/-- No two entries have the same address and port. -/
theorem AddrPool.Layout.pair_injective (h : ap.Layout φ n) (hnum : ap.numAddr ≤ 2 ^ 31)
    (hk : k < n) (hk' : k' < n) (heq : (ap.pool k).pair = (ap.pool k').pair) : k = k' := by
  obtain ⟨i, j, hmap, hi, -, hj, -, hpool⟩ := h.place hk
  obtain ⟨i', j', hmap', hi', -, hj', -, hpool'⟩ := h.place hk'
  rw [hpool, hpool'] at heq
  obtain ⟨rfl, rfl⟩ := entryAt_pair_injective (by omega) (by omega) hj hj' heq
  exact Option.some.inj (hmap.symm.trans hmap')

/-- `free_address` finds an entry by its address and port. -/
theorem AddrPool.Layout.mappedEntry (h : ap.Layout φ n) (hnum : ap.numAddr ≤ 2 ^ 31) (hk : k < n)
    {addr : SockaddrIn} (haddr : addr.pair = (ap.pool k).pair) : mappedEntry ap addr = some k := by
  obtain ⟨i, j, hmap, hi, -, hj, -, hpool⟩ := h.place hk
  rw [hpool] at haddr
  obtain ⟨hsin, hport⟩ := Prod.mk.inj haddr
  change addr.sinAddr = htonl (ap.addrBase + BitVec.ofNat 32 i) at hsin
  change addr.sinPort = htons (BitVec.ofNat 16 j) at hport
  -- the offset of the address is the row of the map, its port the column
  have hrow : htonl addr.sinAddr - ap.addrBase = BitVec.ofNat 32 i := by
    rw [hsin, htonl_htonl, BitVec.add_comm, BitVec.add_sub_cancel]
  have hnat : (BitVec.ofNat 32 i).toNat = i := Nat.mod_eq_of_lt (by omega)
  have hint : (BitVec.ofNat 32 i).toInt = i := by
    rw [BitVec.toInt_eq_toNat_of_lt (by omega), hnat]
  have hcol : (htons addr.sinPort).toNat = j := by
    rw [hport, htons_htons]
    exact Nat.mod_eq_of_lt hj
  unfold CmtTcp.mappedEntry
  dsimp only
  rw [hrow, hint, hnat, hcol, if_pos ⟨Int.natCast_nonneg i, hi⟩]
  exact hmap

end Layout

/-! ### What the calls do -/

/-- An entry that `fetch_address` may hand out: it has the address and the port the caller fixed, and
is served by the core. -/
def AddrPool.Qualifies (ap : AddrPool) (core : ℤ) (numQueues : U32) (daddr saddr : SockaddrIn)
    (endianCheck : U8) (k : ℕ) : Prop :=
  (saddr.sinAddr = inaddrAny ∨ (ap.pool k).sinAddr = saddr.sinAddr) ∧
    (saddr.sinPort = inportAny ∨ (ap.pool k).sinPort = saddr.sinPort) ∧
    ap.entryCore numQueues daddr endianCheck k = core

/-- The result of a fetch: an entry that qualifies is taken and its address stored, or none
qualifies, `-1` is returned and nothing changes. -/
def Fetched (ap : AddrPool) (qualifies : ℕ → Prop) (saddr : SockaddrIn)
    (r : AddrPool × SockaddrIn × ℤ) : Prop :=
  (∃ k ∈ ap.freeList, qualifies k ∧ r = (ap.take k, ap.pool k, 0)) ∨
    ((∀ k ∈ ap.freeList, ¬qualifies k) ∧ r = (ap, saddr, -1))

section Calls

variable (ap : AddrPool) (core : ℤ) (numQueues : U32) (daddr saddr : SockaddrIn) (endianCheck : U8)

theorem fetchWalk_cases (l : List ℕ) :
    (∃ k ∈ l, ap.Qualifies core numQueues daddr saddr endianCheck k ∧
        fetchWalk ap core numQueues daddr saddr endianCheck l = some k) ∨
      ((∀ k ∈ l, ¬ap.Qualifies core numQueues daddr saddr endianCheck k) ∧
        fetchWalk ap core numQueues daddr saddr endianCheck l = none) := by
  induction l with
  | nil => exact .inr ⟨fun k hk => absurd hk List.not_mem_nil, rfl⟩
  | cons walk next ih =>
    -- an entry that is passed over leaves it to the rest
    have hpass : ¬ap.Qualifies core numQueues daddr saddr endianCheck walk →
        fetchWalk ap core numQueues daddr saddr endianCheck (walk :: next) =
          fetchWalk ap core numQueues daddr saddr endianCheck next →
        (∃ k ∈ walk :: next, ap.Qualifies core numQueues daddr saddr endianCheck k ∧
            fetchWalk ap core numQueues daddr saddr endianCheck (walk :: next) = some k) ∨
          ((∀ k ∈ walk :: next, ¬ap.Qualifies core numQueues daddr saddr endianCheck k) ∧
            fetchWalk ap core numQueues daddr saddr endianCheck (walk :: next) = none) := by
      intro hwalk heq
      rw [heq]
      rcases ih with ⟨k, hk, hq, hfound⟩ | ⟨hnone, hfound⟩
      · exact .inl ⟨k, List.mem_cons_of_mem walk hk, hq, hfound⟩
      · exact .inr ⟨List.forall_mem_cons.mpr ⟨hwalk, hnone⟩, hfound⟩
    by_cases haddr : saddr.sinAddr ≠ inaddrAny ∧ (ap.pool walk).sinAddr ≠ saddr.sinAddr
    · exact hpass (fun hq => hq.1.elim haddr.1 haddr.2) (if_pos haddr)
    by_cases hport : saddr.sinPort ≠ inportAny ∧ (ap.pool walk).sinPort ≠ saddr.sinPort
    · exact hpass (fun hq => hq.2.1.elim hport.1 hport.2) ((if_neg haddr).trans (if_pos hport))
    by_cases hcore : core = ap.entryCore numQueues daddr endianCheck walk
    · have haddr' := (not_and_or.mp haddr).imp not_not.mp not_not.mp
      have hport' := (not_and_or.mp hport).imp not_not.mp not_not.mp
      refine .inl ⟨walk, List.mem_cons_self, ⟨haddr', hport', hcore.symm⟩, ?_⟩
      exact ((if_neg haddr).trans (if_neg hport)).trans (if_pos hcore)
    · exact hpass (fun hq => hcore hq.2.2.symm)
        (((if_neg haddr).trans (if_neg hport)).trans (if_neg hcore))

theorem fetchAddress_fetched :
    Fetched ap (ap.Qualifies core numQueues daddr saddr endianCheck) saddr
      (fetchAddress ap core numQueues daddr saddr endianCheck) := by
  unfold fetchAddress
  rcases fetchWalk_cases ap core numQueues daddr saddr endianCheck ap.freeList with
    ⟨k, hk, hq, hfound⟩ | ⟨hnone, hfound⟩
  · rw [hfound]
    exact .inl ⟨k, hk, hq, rfl⟩
  · rw [hfound]
    exact .inr ⟨hnone, rfl⟩

theorem fetchAddressPerCore_fetched :
    Fetched ap (fun _ => True) saddr (fetchAddressPerCore ap saddr) := by
  unfold fetchAddressPerCore
  cases hfree : ap.freeList with
  | nil =>
    refine .inr ⟨?_, rfl⟩
    intro k hk
    rw [hfree] at hk
    cases hk
  | cons k rest => exact .inl ⟨k, by rw [hfree]; exact List.mem_cons_self, trivial, rfl⟩

end Calls

/-! ### Runs -/

/-- A pool, and the addresses that are in use: fetched and not freed since. -/
structure Hands where
  pool : AddrPool
  held : List (U32 × U16)

/-- After a fetch. -/
def Hands.got (h : Hands) (r : AddrPool × SockaddrIn × ℤ) : Hands :=
  ⟨r.1, if r.2.2 = 0 then h.held ++ [r.2.1.pair] else h.held⟩

/-- The calls on a pool. -/
inductive PoolCall
  | fetch (core : ℤ) (numQueues : U32) (daddr saddr : SockaddrIn) (endianCheck : U8)
  | fetchPerCore (saddr : SockaddrIn)
  | free (addr : SockaddrIn)

/-- One call. Only an address in use is freed. -/
inductive PoolStep : Hands → PoolCall → Hands → Prop
  | fetch (h : Hands) (core : ℤ) (numQueues : U32) (daddr saddr : SockaddrIn) (endianCheck : U8) :
      PoolStep h (.fetch core numQueues daddr saddr endianCheck)
        (h.got (fetchAddress h.pool core numQueues daddr saddr endianCheck))
  | fetchPerCore (h : Hands) (saddr : SockaddrIn) :
      PoolStep h (.fetchPerCore saddr) (h.got (fetchAddressPerCore h.pool saddr))
  | free (h : Hands) (addr : SockaddrIn) (hheld : addr.pair ∈ h.held) :
      PoolStep h (.free addr) ⟨(freeAddress h.pool addr).1, h.held.erase addr.pair⟩

/-- The entries are split between the two lists, and the addresses in use are those of the used
list. -/
structure PoolInv (φ : ℕ → ℕ → Prop) (base : U32) (numAddr : ℤ) (n : ℕ) (h : Hands) : Prop where
  layout : h.pool.Layout φ n
  base : h.pool.addrBase = base
  num : h.pool.numAddr = numAddr
  numEntry : h.pool.numEntry = n
  lists : (h.pool.freeList ++ h.pool.usedList).Perm (List.range n)
  numFree : h.pool.numFree = h.pool.freeList.length
  numUsed : h.pool.numUsed = h.pool.usedList.length
  held : h.held.Perm (h.pool.usedList.map fun k => (h.pool.pool k).pair)

section Invariant

variable {φ : ℕ → ℕ → Prop} {base : U32} {numAddr : ℤ} {n k : ℕ} {h h' : Hands}
  {calls : List PoolCall}

theorem AddrPool.New.inv {ap : AddrPool} (hnew : ap.New φ base numAddr n) :
    PoolInv φ base numAddr n ⟨ap, []⟩ where
  layout := hnew.layout
  base := hnew.base
  num := hnew.num
  numEntry := hnew.numEntry
  lists := by
    change (ap.freeList ++ ap.usedList).Perm (List.range n)
    rw [hnew.free, hnew.used, List.append_nil]
  numFree := by
    change ap.numFree = ap.freeList.length
    rw [hnew.numFree, hnew.free, List.length_range]
  numUsed := by
    change ap.numUsed = ap.usedList.length
    rw [hnew.numUsed, hnew.used]
    rfl
  held := by
    change [].Perm (ap.usedList.map _)
    rw [hnew.used]
    exact .nil

namespace PoolInv

theorem lt_of_mem_free (hinv : PoolInv φ base numAddr n h) (hk : k ∈ h.pool.freeList) : k < n :=
  List.mem_range.mp (hinv.lists.subset (List.mem_append_left _ hk))

theorem lt_of_mem_used (hinv : PoolInv φ base numAddr n h) (hk : k ∈ h.pool.usedList) : k < n :=
  List.mem_range.mp (hinv.lists.subset (List.mem_append_right _ hk))

/-- The address of a free entry is taken. -/
theorem take (hinv : PoolInv φ base numAddr n h) (hk : k ∈ h.pool.freeList) :
    PoolInv φ base numAddr n ⟨h.pool.take k, h.held ++ [(h.pool.pool k).pair]⟩ where
  layout := ⟨hinv.layout.entry, hinv.layout.mapped⟩
  base := hinv.base
  num := hinv.num
  numEntry := hinv.numEntry
  lists := by
    -- the entry moves from one list to the other
    calc
      _ = h.pool.freeList.erase k ++ (h.pool.usedList ++ [k]) := rfl
      List.Perm _ (k :: h.pool.freeList.erase k ++ h.pool.usedList) := by
        rw [← List.append_assoc, List.cons_append]
        exact List.perm_append_singleton _ _
      List.Perm _ (h.pool.freeList ++ h.pool.usedList) :=
        (List.perm_cons_erase hk).symm.append_right _
      List.Perm _ (List.range n) := hinv.lists
  numFree := by
    have hpos := List.length_pos_of_mem hk
    change h.pool.numFree - 1 = (h.pool.freeList.erase k).length
    rw [hinv.numFree, List.length_erase_of_mem hk]
    omega
  numUsed := by
    change h.pool.numUsed + 1 = (h.pool.usedList ++ [k]).length
    rw [hinv.numUsed, List.length_append]
    rfl
  held := by
    change (h.held ++ _).Perm ((h.pool.usedList ++ [k]).map fun k => (h.pool.pool k).pair)
    rw [List.map_append]
    exact hinv.held.append_right _

/-- The address of a used entry is given back. -/
theorem give (hinv : PoolInv φ base numAddr n h) (hk : k ∈ h.pool.usedList) :
    PoolInv φ base numAddr n ⟨h.pool.give k, h.held.erase (h.pool.pool k).pair⟩ where
  layout := ⟨hinv.layout.entry, hinv.layout.mapped⟩
  base := hinv.base
  num := hinv.num
  numEntry := hinv.numEntry
  lists := by
    calc
      _ = h.pool.freeList ++ [k] ++ h.pool.usedList.erase k := rfl
      List.Perm _ (h.pool.freeList ++ h.pool.usedList) := by
        rw [List.append_assoc]
        exact (List.perm_cons_erase hk).symm.append_left _
      List.Perm _ (List.range n) := hinv.lists
  numFree := by
    change h.pool.numFree + 1 = (h.pool.freeList ++ [k]).length
    rw [hinv.numFree, List.length_append]
    rfl
  numUsed := by
    have hpos := List.length_pos_of_mem hk
    change h.pool.numUsed - 1 = (h.pool.usedList.erase k).length
    rw [hinv.numUsed, List.length_erase_of_mem hk]
    omega
  held := by
    change (h.held.erase _).Perm ((h.pool.usedList.erase k).map fun k => (h.pool.pool k).pair)
    -- the address given back is that of the entry, wherever it stands among the held ones
    have hperm := (hinv.held.trans ((List.perm_cons_erase hk).map _)).erase (h.pool.pool k).pair
    rwa [List.map_cons, List.erase_cons_head] at hperm

/-- What a fetch leaves behind. -/
theorem got (hinv : PoolInv φ base numAddr n h) {qualifies : ℕ → Prop} {saddr : SockaddrIn}
    {r : AddrPool × SockaddrIn × ℤ} (hr : Fetched h.pool qualifies saddr r) :
    PoolInv φ base numAddr n (h.got r) := by
  rcases hr with ⟨k, hk, -, rfl⟩ | ⟨-, rfl⟩
  · exact hinv.take hk
  · exact hinv

/-- An address in use is that of a used entry, which `free_address` finds. -/
theorem freeAddress (hinv : PoolInv φ base numAddr n h) (hnum : numAddr ≤ 2 ^ 31)
    {addr : SockaddrIn} (hheld : addr.pair ∈ h.held) :
    ∃ k ∈ h.pool.usedList, (h.pool.pool k).pair = addr.pair ∧
      freeAddress h.pool addr = (h.pool.give k, 0) := by
  obtain ⟨k, hk, hpair⟩ := List.mem_map.mp (hinv.held.subset hheld)
  refine ⟨k, hk, hpair, ?_⟩
  unfold CmtTcp.freeAddress
  rw [hinv.layout.mappedEntry (by rwa [hinv.num]) (hinv.lt_of_mem_used hk) hpair.symm]

theorem step (hinv : PoolInv φ base numAddr n h) (hnum : numAddr ≤ 2 ^ 31) {call : PoolCall}
    (hstep : PoolStep h call h') : PoolInv φ base numAddr n h' := by
  cases hstep with
  | fetch core numQueues daddr saddr endianCheck =>
    exact hinv.got (fetchAddress_fetched h.pool core numQueues daddr saddr endianCheck)
  | fetchPerCore saddr => exact hinv.got (fetchAddressPerCore_fetched h.pool saddr)
  | free addr hheld =>
    obtain ⟨k, hk, hpair, hfree⟩ := hinv.freeAddress hnum hheld
    rw [hfree, ← hpair]
    exact hinv.give hk

theorem run (hinv : PoolInv φ base numAddr n h) (hnum : numAddr ≤ 2 ^ 31)
    (hrun : Run PoolStep h calls h') : PoolInv φ base numAddr n h' :=
  hrun.invariant (PoolInv φ base numAddr n) hinv fun _ _ _ ht hs => ht.step hnum hs

/-- No address is in two hands. -/
theorem held_nodup (hinv : PoolInv φ base numAddr n h) (hnum : numAddr ≤ 2 ^ 31) :
    h.held.Nodup := by
  apply hinv.held.nodup_iff.mpr
  have hused : h.pool.usedList.Nodup :=
    (List.nodup_append.mp (hinv.lists.nodup_iff.mpr List.nodup_range)).2.1
  refine hused.map_on ?_
  intro k hk k' hk' heq
  exact hinv.layout.pair_injective (by rwa [hinv.num]) (hinv.lt_of_mem_used hk)
    (hinv.lt_of_mem_used hk') heq

end PoolInv

end Invariant

/-! ### The law of a pool -/

/-- What holds of a pool for `numAddr` addresses from `base` on, with the addresses `held` in use. -/
structure PoolLaw (base : U32) (numAddr : ℕ) (h : Hands) : Prop where
  /-- no address is in two hands -/
  exclusive : h.held.Nodup
  /-- what is in use is what the used list holds -/
  held : h.held.Perm (h.pool.usedList.map fun k => (h.pool.pool k).pair)
  /-- the lists share out the entries -/
  lists : (h.pool.freeList ++ h.pool.usedList).Perm (List.range h.pool.numEntry.toNat)
  numEntry : h.pool.numEntry = numAddr * (maxPort - minPort)
  numFree : h.pool.numFree = h.pool.freeList.length
  numUsed : h.pool.numUsed = h.pool.usedList.length
  /-- every entry is an address of the range with one of the ports -/
  entry : ∀ k : ℕ, k < h.pool.numEntry →
    ∃ i j, i < numAddr ∧ minPort ≤ j ∧ j < maxPort ∧ h.pool.pool k = entryAt base i j
  /-- and each of these is one entry -/
  complete : ∀ i j, i < numAddr → minPort ≤ j → j < maxPort →
    ∃! k : ℕ, k < h.pool.numEntry ∧ h.pool.pool k = entryAt base i j
  fetch : ∀ core numQueues daddr saddr endianCheck,
    Fetched h.pool (h.pool.Qualifies core numQueues daddr saddr endianCheck) saddr
      (fetchAddress h.pool core numQueues daddr saddr endianCheck)
  fetchPerCore : ∀ saddr, Fetched h.pool (fun _ => True) saddr (fetchAddressPerCore h.pool saddr)
  free : ∀ addr : SockaddrIn, addr.pair ∈ h.held → ∃ k ∈ h.pool.usedList,
    (h.pool.pool k).pair = addr.pair ∧ freeAddress h.pool addr = (h.pool.give k, 0)

/-- What the constructor filled stays filled. -/
theorem run_mapper {h h' : Hands} {calls : List PoolCall} (hrun : Run PoolStep h calls h') :
    h'.pool.mapper = h.pool.mapper := by
  refine hrun.invariant (fun t => t.pool.mapper = h.pool.mapper) rfl fun t call u ht hstep => ?_
  rw [← ht]
  cases hstep with
  | fetch core numQueues daddr saddr endianCheck =>
    unfold fetchAddress Hands.got
    cases fetchWalk t.pool core numQueues daddr saddr endianCheck t.pool.freeList with
    | none => rfl
    | some k => rfl
  | fetchPerCore saddr =>
    unfold fetchAddressPerCore Hands.got
    cases t.pool.freeList.head? with
    | none => rfl
    | some k => rfl
  | free addr _ =>
    unfold freeAddress
    split
    · rfl
    · rfl

/-- **Exclusive use.** Over every sequence of calls on a pool that `create_address_pool` made, in which
only addresses in use are freed, no address is in two hands, the two lists share out all addresses
and ports of the range, and every call does what it is for. -/
theorem addressPool_exclusive {addrBase : U32} {numAddr : ℕ} {calls : List PoolCall} {h : Hands}
    (hint : numAddr * (maxPort - minPort) < 2 ^ 31)
    (hrun : Run PoolStep ⟨createAddressPool addrBase numAddr, []⟩ calls h) :
    PoolLaw (htonl addrBase) numAddr h := by
  obtain ⟨hnew, hfilled⟩ := createAddressPool_new addrBase numAddr
  -- the places of the range are different addresses, as the entries can be counted in an `int`
  have hnum : (numAddr : ℤ) ≤ 2 ^ 31 := by
    unfold maxPort minPort at hint
    omega
  have hinv := hnew.inv.run hnum hrun
  have hentry : h.pool.numEntry.toNat = numAddr * (maxPort - minPort) := by
    rw [hinv.numEntry, Int.toNat_natCast]
  have hlt : ∀ k : ℕ, (k : ℤ) < h.pool.numEntry ↔ k < numAddr * (maxPort - minPort) := by
    intro k
    rw [hinv.numEntry, Int.ofNat_lt]
  refine
    { exclusive := hinv.held_nodup hnum
      held := hinv.held
      lists := by rw [hentry]; exact hinv.lists
      numEntry := hinv.numEntry
      numFree := hinv.numFree
      numUsed := hinv.numUsed
      entry := ?entry
      complete := ?complete
      fetch := fetchAddress_fetched h.pool
      fetchPerCore := fetchAddressPerCore_fetched h.pool
      free := fun addr => hinv.freeAddress hnum }
  case entry =>
    intro k hk
    obtain ⟨i, j, -, hi, hmin, hmax, -, hpool⟩ := hinv.layout.place ((hlt k).mp hk)
    rw [hinv.num, Int.ofNat_lt] at hi
    rw [hinv.base] at hpool
    exact ⟨i, j, hi, hmin, hmax, hpool⟩
  case complete =>
    intro i j hi hmin hmax
    -- the calls do not change the map that the constructor filled
    obtain ⟨k, hmap⟩ := hfilled i j hi hmin hmax
    rw [← run_mapper hrun] at hmap
    obtain ⟨hk, -, -, -, -, hpool⟩ := hinv.layout.mapped i j k hmap
    rw [hinv.base] at hpool
    refine ⟨k, ⟨(hlt k).mpr hk, hpool⟩, ?_⟩
    rintro k' ⟨hk', hpool'⟩
    apply hinv.layout.pair_injective (by rwa [hinv.num]) ((hlt k').mp hk') hk
    rw [hpool, hpool']

/-- The first two entries of a new pool are free. -/
theorem createAddressPool_free (addrBase : U32) {numAddr : ℕ} (hnum : 0 < numAddr) :
    ∃ rest, (createAddressPool addrBase numAddr).freeList = 0 :: 1 :: rest := by
  obtain ⟨hnew, -⟩ := createAddressPool_new addrBase numAddr
  have htwo : 2 ≤ numAddr * (maxPort - minPort) :=
    Nat.le_trans (by decide) (Nat.le_mul_of_pos_left (maxPort - minPort) hnum)
  obtain ⟨m, hm⟩ := Nat.exists_eq_add_of_le' htwo
  refine ⟨((List.range m).map Nat.succ).map Nat.succ, ?_⟩
  rw [hnew.free, hm, List.range_succ_eq_map, List.range_succ_eq_map]
  rfl

/-- With one queue, every entry is for core `0`. -/
theorem entryCore_one (ap : AddrPool) (daddr : SockaddrIn) (endianCheck : U8) (k : ℕ) :
    ap.entryCore 1 daddr endianCheck k = 0 := by
  have hrange := @getRSSCPUCore_range (htonl (ap.pool k).sinAddr) (htonl daddr.sinAddr)
    (htons (ap.pool k).sinPort) (htons daddr.sinPort) 1 endianCheck (by decide)
  have hone : (1 : U32).toInt = 1 := by decide
  unfold AddrPool.entryCore
  omega

/-- Two fetches, each its own way, and the first address given back: the other one stays in use. -/
theorem addressPool_exclusive_two :
    ∃ h h', Run PoolStep ⟨createAddressPool 0x0100000A (1 : ℕ), []⟩
        [.fetch 0 1 ⟨0, htons 80, 0x0200000A⟩ ⟨0, 0, 0⟩ 0, .fetchPerCore ⟨0, 0, 0⟩] h ∧
      h.held = [(h.pool.pool 0).pair, (h.pool.pool 1).pair] ∧ PoolLaw (htonl 0x0100000A) 1 h ∧
      PoolStep h (.free (h.pool.pool 0)) h' ∧
      h'.held = [(h'.pool.pool 1).pair] ∧ PoolLaw (htonl 0x0100000A) 1 h' := by
  have hint : 1 * (maxPort - minPort) < 2 ^ 31 := by
    unfold maxPort minPort
    omega
  have hlaw : ∀ {calls h}, Run PoolStep ⟨createAddressPool 0x0100000A (1 : ℕ), []⟩ calls h →
      PoolLaw (htonl 0x0100000A) 1 h := fun hrun => addressPool_exclusive hint hrun
  obtain ⟨rest, hfree⟩ := createAddressPool_free 0x0100000A Nat.one_pos
  generalize createAddressPool 0x0100000A (1 : ℕ) = ap at hlaw hfree ⊢
  -- the first fetch finds the first entry
  have hfetch : fetchAddress ap 0 1 ⟨0, htons 80, 0x0200000A⟩ ⟨0, 0, 0⟩ 0 = (ap.take 0, ap.pool 0, 0) := by
    unfold fetchAddress
    rw [hfree]
    unfold fetchWalk
    rw [if_neg fun h => h.1 rfl, if_neg fun h => h.1 rfl, if_pos (entryCore_one ..).symm]
    rfl
  have hone : PoolStep ⟨ap, []⟩ (.fetch 0 1 ⟨0, htons 80, 0x0200000A⟩ ⟨0, 0, 0⟩ 0)
      ⟨ap.take 0, [(ap.pool 0).pair]⟩ := by
    have hstep := PoolStep.fetch ⟨ap, []⟩ 0 1 ⟨0, htons 80, 0x0200000A⟩ ⟨0, 0, 0⟩ 0
    rwa [hfetch] at hstep
  -- and the second the next one
  have hper : fetchAddressPerCore (ap.take 0) ⟨0, 0, 0⟩ = ((ap.take 0).take 1, ap.pool 1, 0) := by
    have hfree₁ : (ap.take 0).freeList = 1 :: rest := by
      change ap.freeList.erase 0 = 1 :: rest
      rw [hfree]
      rfl
    unfold fetchAddressPerCore
    rw [hfree₁]
    rfl
  have htwo : PoolStep ⟨ap.take 0, [(ap.pool 0).pair]⟩ (.fetchPerCore ⟨0, 0, 0⟩)
      ⟨(ap.take 0).take 1, [(ap.pool 0).pair, (ap.pool 1).pair]⟩ := by
    have hstep := PoolStep.fetchPerCore ⟨ap.take 0, [(ap.pool 0).pair]⟩ ⟨0, 0, 0⟩
    rwa [hper] at hstep
  have hrun := (Run.single hone).snoc htwo
  have hback := PoolStep.free ⟨(ap.take 0).take 1, [(ap.pool 0).pair, (ap.pool 1).pair]⟩ (ap.pool 0)
    List.mem_cons_self
  obtain ⟨k, -, -, hgive⟩ := (hlaw hrun).free (ap.pool 0) List.mem_cons_self
  rw [hgive] at hback
  refine ⟨_, _, hrun, rfl, hlaw hrun, hback, ?_, hlaw (hrun.snoc hback)⟩
  exact List.erase_cons_head ..

/-! ### The pools of the cores -/

/-- The destination a request is for. -/
def CoreRequest.dest (q : CoreRequest) : SockaddrIn := ⟨0, q.dport, q.daddr⟩

/-- Where the constructor found its core, `fetch_address` finds it: it asks with source and destination
exchanged. -/
theorem CoreRequest.Fits.entryCore {q : CoreRequest} {ap : AddrPool} {i j k : ℕ} {base : U32}
    (h : q.Fits base i j) (hpool : ap.pool k = entryAt base i j) :
    ap.entryCore q.numQueues q.dest q.endianCheck k = q.core := by
  unfold AddrPool.entryCore
  rw [hpool, getRSSCPUCore_swap]
  unfold entryAt
  dsimp only
  rw [htonl_htonl, htons_htons]
  exact h

section PerCore

variable {φ : ℕ → ℕ → Prop} {q : CoreRequest} {saddrBase base : U32} {numAddr : ℤ} {n k : ℕ} {h : Hands}

theorem PoolInv.entryCore (hinv : PoolInv (q.Fits base) base numAddr n h) (hk : k < n) :
    h.pool.entryCore q.numQueues q.dest q.endianCheck k = q.core := by
  obtain ⟨i, j, -, -, -, -, hfits, hpool⟩ := hinv.layout.place hk
  rw [hinv.base] at hpool
  exact hfits.entryCore hpool

/-- What holds of the pool made for a core. -/
structure PerCoreLaw (q : CoreRequest) (saddrBase : U32) (numAddr : ℤ) : Prop where
  /-- every entry passes the test of `fetch_address` for the same core and destination -/
  entries : ∀ k : ℕ, k < (createAddressPoolPerCore q saddrBase numAddr).numEntry →
    (createAddressPoolPerCore q saddrBase numAddr).entryCore q.numQueues q.dest q.endianCheck k =
      q.core
  /-- over every sequence of calls, `fetch_address_per_core` hands out what `fetch_address` accepts -/
  fetch : ∀ calls h, Run PoolStep ⟨createAddressPoolPerCore q saddrBase numAddr, []⟩ calls h →
    ∀ saddr, (fetchAddressPerCore h.pool saddr).2.2 = 0 → ∃ k ∈ h.pool.freeList,
      (fetchAddressPerCore h.pool saddr).2.1 = h.pool.pool k ∧
        h.pool.Qualifies q.core q.numQueues q.dest ⟨0, inportAny, inaddrAny⟩ q.endianCheck k
  /-- the pool of another core has no address and port of it -/
  disjoint : ∀ core, core ≠ q.core → ∀ k k' : ℕ,
    k < (createAddressPoolPerCore q saddrBase numAddr).numEntry →
    k' < (createAddressPoolPerCore { q with core := core } saddrBase numAddr).numEntry →
    ((createAddressPoolPerCore q saddrBase numAddr).pool k).pair ≠
      ((createAddressPoolPerCore { q with core := core } saddrBase numAddr).pool k').pair

/-- **Pools for one core.** What the constructor put into the pool of a core is what `fetch_address`
would look for, and the pools of two cores have nothing in common. `num_addr` is an `int`. -/
theorem addressPoolPerCore_sound (q : CoreRequest) (saddrBase : U32) {numAddr : ℤ}
    (hint : numAddr < 2 ^ 31) : PerCoreLaw q saddrBase numAddr := by
  obtain ⟨n, hnew⟩ := createAddressPoolPerCore_new q saddrBase numAddr
  refine { entries := ?entries, fetch := ?fetch, disjoint := ?disjoint }
  case entries =>
    intro k hk
    rw [hnew.numEntry, Int.ofNat_lt] at hk
    exact hnew.inv.entryCore hk
  case fetch =>
    intro calls h hrun saddr hret
    have hinv := hnew.inv.run (by omega) hrun
    rcases fetchAddressPerCore_fetched h.pool saddr with ⟨k, hk, -, hr⟩ | ⟨-, hr⟩
    · refine ⟨k, hk, by rw [hr], .inl rfl, .inl rfl, ?_⟩
      exact hinv.entryCore (hinv.lt_of_mem_free hk)
    · rw [hr] at hret
      cases hret
  case disjoint =>
    intro core hne k k' hk hk' heq
    obtain ⟨n', hnew'⟩ := createAddressPoolPerCore_new { q with core := core } saddrBase numAddr
    rw [hnew.numEntry, Int.ofNat_lt] at hk
    rw [hnew'.numEntry, Int.ofNat_lt] at hk'
    -- the test depends on the address and port alone
    have hcore := hnew.inv.entryCore hk
    have hcore' := hnew'.inv.entryCore hk'
    obtain ⟨haddr, hport⟩ := Prod.mk.inj heq
    unfold AddrPool.entryCore at hcore hcore'
    change getRSSCPUCore _ _ _ _ q.numQueues q.endianCheck = core at hcore'
    apply hne
    rw [← hcore, ← hcore']
    dsimp only
    rw [haddr, hport]
    rfl

/-- The pool of core `2` of four. -/
theorem addressPoolPerCore_sound_two :
    PerCoreLaw ⟨2, 4, 0x0200000A, 0x5000, 1⟩ 0x0100000A 16 :=
  addressPoolPerCore_sound ⟨2, 4, 0x0200000A, 0x5000, 1⟩ 0x0100000A (by omega)

end PerCore

end CmtTcp
