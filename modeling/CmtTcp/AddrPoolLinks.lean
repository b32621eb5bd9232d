import CmtTcp.AddrPool
import CmtTcp.TailQueue

/-!
# Source address pools, link by link

The two lists of `addr_pool_t` with the links that `tailq_remove` and `tailq_insert_tail` work on, so that
`free_address` can be followed for any address, one that is not in use as well, and along both of its paths: by
the map, and along the used list.

The map finds an entry whichever list it is on. The walk compares the address with that of the first used entry
in every turn, since `walk_value` is not moved along with `walk`. So the paths agree where the map finds the
first used entry, or none (`freePaths_agree_iff`).

`Linked.step`: as long as what is freed is in use, the links follow the lists of `AddrPool`. As there, the
heads and the node `addr_link`, declared as pointers, are taken to lie in their records.
-/

namespace CmtTcp

open Lib (Place Links Queue Unchanged Run Guarded)

/-! ### The pool -/

/-- The heads of an `addr_pool_t`. -/
inductive PoolList
  | free
  | used
deriving DecidableEq, Repr

/-- `addr_pool_t` with its lists as they are linked. -/
structure LinkedPool where
  pool : ℕ → SockaddrIn
  mapper : ℕ → ℕ → Option ℕ
  /-- in host order -/
  addrBase : U32
  numAddr : ℤ
  numEntry : ℤ
  numFree : ℤ
  numUsed : ℤ
  links : Links PoolList ℕ

namespace LinkedPool

/-- The pool, with the lists given. -/
def listed (s : LinkedPool) (free used : List ℕ) : AddrPool where
  pool := s.pool
  mapper := s.mapper
  addrBase := s.addrBase
  numAddr := s.numAddr
  numEntry := s.numEntry
  numFree := s.numFree
  numUsed := s.numUsed
  freeList := free
  usedList := used

/-- What `free_address` and `fetch_address` look up in the pool has nothing to do with the lists. -/
abbrev entries (s : LinkedPool) : AddrPool := s.listed [] []

/-- Move an entry from the free list to the used list. -/
def take (s : LinkedPool) (walk : ℕ) : LinkedPool :=
  { s with
    links := tailqInsertTail (tailqRemove s.links .free walk) .used walk
    numFree := s.numFree - 1
    numUsed := s.numUsed + 1 }

/-- Move an entry from the used list to the free list. -/
def give (s : LinkedPool) (walk : ℕ) : LinkedPool :=
  { s with
    links := tailqInsertTail (tailqRemove s.links .used walk) .free walk
    numFree := s.numFree + 1
    numUsed := s.numUsed - 1 }

/-- The walk of `fetch_address`, for at most `n` turns. -/
def fetchWalk (s : LinkedPool) (core : ℤ) (numQueues : U32) (daddr saddr : SockaddrIn)
    (endianCheck : U8) : ℕ → Option ℕ → Option (Option ℕ)
  | 0, _ => none
  | _ + 1, none => some none
  | n + 1, some walk =>
    let next := tailqNext s.links walk
    if saddr.sinAddr ≠ inaddrAny ∧ (s.pool walk).sinAddr ≠ saddr.sinAddr then
      s.fetchWalk core numQueues daddr saddr endianCheck n next
    else if saddr.sinPort ≠ inportAny ∧ (s.pool walk).sinPort ≠ saddr.sinPort then
      s.fetchWalk core numQueues daddr saddr endianCheck n next
    else if core = s.entries.entryCore numQueues daddr endianCheck walk then some (some walk)
    else s.fetchWalk core numQueues daddr saddr endianCheck n next

/-- The end of both fetches, for the entry that was found. -/
def takeEntry (s : LinkedPool) (saddr : SockaddrIn) : Option ℕ → LinkedPool × SockaddrIn × ℤ
  | none => (s, saddr, -1)
  | some walk => (s.take walk, s.pool walk, 0)

/-- The end of `free_address`, for the entry that was found. -/
def giveEntry (s : LinkedPool) : Option ℕ → LinkedPool × ℤ
  | none => (s, -1)
  | some walk => (s.give walk, 0)

/-- `free_address` of a pool with a map -/
def freeByMap (s : LinkedPool) (addr : SockaddrIn) : LinkedPool × ℤ :=
  s.giveEntry (mappedEntry s.entries addr)

/-- The loop of `free_address` along the used list, for at most `n` turns. `walk_value` is what it was set to in
front of the loop. -/
def scanLoop (s : LinkedPool) (addr : SockaddrIn) (walkValue : ℕ) : ℕ → Option ℕ → Option (Option ℕ)
  | 0, _ => none
  | _ + 1, none => some none
  | n + 1, some walk =>
    let next := tailqNext s.links walk
    if addr.sinPort = (s.pool walkValue).sinPort ∧ addr.sinAddr = (s.pool walkValue).sinAddr then
      some (some walk)
    else s.scanLoop addr walkValue n next

/-- `free_address` of a pool without a map, for at most `n` turns. -/
def freeByScan (s : LinkedPool) (n : ℕ) (addr : SockaddrIn) : Option (LinkedPool × ℤ) :=
  match tailqFirst s.links .used with
  | none => some (s.giveEntry none)
  | some walkValue => (s.scanLoop addr walkValue n (some walkValue)).map s.giveEntry

end LinkedPool

/-- The links of entries that `calloc` returned. -/
def callocLinks : Links PoolList ℕ := ⟨fun _ => none, fun a => .next a, .head⟩

/-- The lists of a constructor: both are initialised, and the entries put on the free one. -/
def createdLinks (entries : List ℕ) : Links PoolList ℕ :=
  entries.foldl (fun m k => tailqInsertTail m .free k)
    (tailqInit (tailqInit callocLinks .free) .used)

/-- `create_address_pool`, with the links -/
def createLinkedPool (addrBase : U32) (numAddr : ℤ) : LinkedPool :=
  let ap := createAddressPool addrBase numAddr
  { pool := ap.pool
    mapper := ap.mapper
    addrBase := ap.addrBase
    numAddr := ap.numAddr
    numEntry := ap.numEntry
    numFree := ap.numFree
    numUsed := ap.numUsed
    links := createdLinks ap.freeList }

/-! ### Runs -/

/-- One call that returns. Any address may be freed. -/
inductive LinkedStep : LinkedPool → PoolCall → LinkedPool → Prop
  | fetch (s : LinkedPool) (core : ℤ) (numQueues : U32) (daddr saddr : SockaddrIn) (endianCheck : U8)
      {n : ℕ} {found : Option ℕ}
      (hwalk : s.fetchWalk core numQueues daddr saddr endianCheck n (tailqFirst s.links .free) =
        some found) :
      LinkedStep s (.fetch core numQueues daddr saddr endianCheck) (s.takeEntry saddr found).1
  | fetchPerCore (s : LinkedPool) (saddr : SockaddrIn) :
      LinkedStep s (.fetchPerCore saddr) (s.takeEntry saddr (tailqFirst s.links .free)).1
  | free (s : LinkedPool) (addr : SockaddrIn) : LinkedStep s (.free addr) (s.freeByMap addr).1

namespace LinkedPool

/-- The entry is met along the used list. -/
def OnUsed (s : LinkedPool) (k : ℕ) : Prop :=
  ∃ first, tailqFirst s.links .used = some first ∧
    Relation.ReflTransGen (fun a b => tailqNext s.links a = some b) first k

/-- The address is that of a used entry. -/
def InUse (s : LinkedPool) (addr : SockaddrIn) : Prop :=
  ∃ k, s.OnUsed k ∧ (s.pool k).pair = addr.pair

/-- The used list comes to an end. -/
def UsedEnds (s : LinkedPool) : Prop := ∃ n l, tailqForeach s.links n .used = some l

end LinkedPool

/-- The two paths of `free_address` agree for the address: the walk returns with the pool and the result that the
map gives; and an address that is not in use is refused, with nothing changed. -/
structure FreePathsAgree (s : LinkedPool) (addr : SockaddrIn) : Prop where
  same : ∃ n, s.freeByScan n addr = some (s.freeByMap addr)
  refused : ¬s.InUse addr → s.freeByMap addr = (s, -1)

/-- What the map finds is the first used entry, or it finds none, and the used list comes to an end. -/
def FreesFirst (s : LinkedPool) (addr : SockaddrIn) : Prop :=
  (∃ k, mappedEntry s.entries addr = some k ∧ tailqFirst s.links .used = some k) ∨
    (mappedEntry s.entries addr = none ∧ s.UsedEnds)

/-! ### What the links name -/

section Names

variable {η κ : Type} [DecidableEq η] [DecidableEq κ] {m : Links η κ} {h : η} {elm : κ} {P : κ → Prop}

/-- Every link of the heap names an element that satisfies `P`. -/
def LinksName (P : κ → Prop) (m : Links η κ) : Prop := ∀ p k, m.link p = some k → P k

theorem LinksName.setLink (hm : LinksName P m) {v : Option κ} (hv : ∀ k, v = some k → P k)
    (p : Place η κ) : LinksName P (setLink m p v) := by
  intro q k hq
  change Function.update m.link p v q = some k at hq
  by_cases hqp : q = p
  · subst hqp
    rw [Function.update_self] at hq
    exact hv k hq
  · rw [Function.update_of_ne hqp] at hq
    exact hm q k hq

theorem LinksName.clearLink (hm : LinksName P m) (p : Place η κ) : LinksName P (CmtTcp.setLink m p none) := by
  apply hm.setLink
  intro k hk
  cases hk

omit [DecidableEq η] in
theorem LinksName.setBack (hm : LinksName P m) (a : κ) (p : Place η κ) : LinksName P (setBack m a p) := hm

omit [DecidableEq κ] in
theorem LinksName.setLast (hm : LinksName P m) (h : η) (p : Place η κ) : LinksName P (setLast m h p) := hm

theorem LinksName.tailqInit (hm : LinksName P m) (h : η) : LinksName P (tailqInit m h) :=
  (hm.clearLink (.head h)).setLast h (.head h)

theorem LinksName.tailqInsertTail (hm : LinksName P m) (h : η) (helm : P elm) :
    LinksName P (tailqInsertTail m h elm) := by
  have hnew := (hm.clearLink (.next elm)).setBack elm (m.last h)
  refine (hnew.setLink ?_ (m.last h)).setLast h (.next elm)
  intro k hk
  rwa [← Option.some.inj hk]

theorem LinksName.tailqRemove (hm : LinksName P m) (h : η) (elm : κ) :
    LinksName P (tailqRemove m h elm) := by
  unfold CmtTcp.tailqRemove
  apply LinksName.setLink
  · cases m.link (.next elm) with
    | some next => exact hm.setBack _ _
    | none => exact hm.setLast _ _
  · -- what is linked in place of the element was linked behind it
    cases m.link (.next elm) with
    | some next => exact hm (.next elm)
    | none => exact hm (.next elm)

end Names

/-! ### What every call keeps -/

/-- The entries are where the map says, and the links name no others. -/
structure LinkedInv (numAddr : ℤ) (n : ℕ) (s : LinkedPool) : Prop where
  layout : s.entries.Layout (fun _ _ => True) n
  num : s.numAddr = numAddr
  names : LinksName (fun k => k < n) s.links

section Invariant

variable {numAddr : ℤ} {n k : ℕ} {s s' : LinkedPool} {addr : SockaddrIn} {call : PoolCall}

namespace LinkedInv

theorem take (hinv : LinkedInv numAddr n s) (hk : k < n) : LinkedInv numAddr n (s.take k) where
  layout := ⟨hinv.layout.entry, hinv.layout.mapped⟩
  num := hinv.num
  names := (hinv.names.tailqRemove .free k).tailqInsertTail .used hk

theorem give (hinv : LinkedInv numAddr n s) (hk : k < n) : LinkedInv numAddr n (s.give k) where
  layout := ⟨hinv.layout.entry, hinv.layout.mapped⟩
  num := hinv.num
  names := (hinv.names.tailqRemove .used k).tailqInsertTail .free hk

theorem takeEntry (hinv : LinkedInv numAddr n s) (saddr : SockaddrIn) {found : Option ℕ}
    (hfound : ∀ k, found = some k → k < n) : LinkedInv numAddr n (s.takeEntry saddr found).1 := by
  cases found with
  | none => exact hinv
  | some k => exact hinv.take (hfound k rfl)

/-- The walk finds an entry that a link names. -/
theorem fetchWalk_lt (hinv : LinkedInv numAddr n s) {core : ℤ} {numQueues : U32}
    {daddr saddr : SockaddrIn} {endianCheck : U8} {turns : ℕ} {walk : Option ℕ}
    (hwalk : ∀ k, walk = some k → k < n)
    (h : s.fetchWalk core numQueues daddr saddr endianCheck turns walk = some (some k)) : k < n := by
  induction turns generalizing walk with
  | zero => cases h
  | succ turns ih =>
    cases walk with
    | none => cases h
    | some a =>
      have hnext := ih (hinv.names (.next a))
      unfold LinkedPool.fetchWalk at h
      dsimp only at h
      split at h
      · exact hnext h
      split at h
      · exact hnext h
      split at h
      · obtain rfl : a = k := Option.some.inj (Option.some.inj h)
        exact hwalk a rfl
      · exact hnext h

theorem mapped_lt (hinv : LinkedInv numAddr n s) (h : mappedEntry s.entries addr = some k) : k < n := by
  unfold mappedEntry at h
  dsimp only at h
  split at h
  · exact (hinv.layout.mapped _ _ k h).1
  · cases h

theorem step (hinv : LinkedInv numAddr n s) (hstep : LinkedStep s call s') :
    LinkedInv numAddr n s' := by
  cases hstep with
  | fetch core numQueues daddr saddr endianCheck hwalk =>
    refine hinv.takeEntry saddr ?_
    rintro k rfl
    exact hinv.fetchWalk_lt (hinv.names (.head .free)) hwalk
  | fetchPerCore saddr => exact hinv.takeEntry saddr (hinv.names (.head .free))
  | free addr =>
    unfold LinkedPool.freeByMap
    cases hmap : mappedEntry s.entries addr with
    | none => exact hinv
    | some k => exact hinv.give (hinv.mapped_lt hmap)

theorem run (hinv : LinkedInv numAddr n s) {calls : List PoolCall}
    (hrun : Run LinkedStep s calls s') : LinkedInv numAddr n s' :=
  hrun.invariant (LinkedInv numAddr n) hinv fun _ _ _ ht hs => ht.step hs

end LinkedInv

theorem createdLinks_names (n : ℕ) : LinksName (fun k => k < n) (createdLinks (List.range n)) := by
  have hinit : LinksName (fun k => k < n) (tailqInit (tailqInit callocLinks .free) PoolList.used) :=
    LinksName.tailqInit (LinksName.tailqInit (fun p k hk => by cases hk) PoolList.free) PoolList.used
  have hfold : ∀ (l : List ℕ) (m : Links PoolList ℕ), (∀ k ∈ l, k < n) →
      LinksName (fun k => k < n) m →
      LinksName (fun k => k < n) (l.foldl (fun m k => tailqInsertTail m .free k) m) := by
    intro l
    induction l with
    | nil => exact fun m _ hm => hm
    | cons k l ih =>
      intro m hl hm
      have hk := hl k List.mem_cons_self
      exact ih _ (fun k' hk' => hl k' (List.mem_cons_of_mem k hk')) (hm.tailqInsertTail .free hk)
  exact hfold (List.range n) _ (fun k hk => List.mem_range.mp hk) hinit

theorem createLinkedPool_inv (addrBase : U32) (numAddr : ℕ) :
    LinkedInv numAddr (numAddr * (maxPort - minPort)) (createLinkedPool addrBase numAddr) := by
  obtain ⟨hnew, -⟩ := createAddressPool_new addrBase numAddr
  refine ⟨⟨hnew.layout.entry, hnew.layout.mapped⟩, hnew.num, ?_⟩
  change LinksName _ (createdLinks (createAddressPool addrBase numAddr).freeList)
  rw [hnew.free]
  exact createdLinks_names _

end Invariant

/-! ### The two paths -/

section Paths

variable {numAddr : ℤ} {n k first : ℕ} {s : LinkedPool} {addr : SockaddrIn}

/-- What the map finds has the address that was looked up. -/
theorem LinkedInv.mapped_pair (hinv : LinkedInv numAddr n s) (h : mappedEntry s.entries addr = some k) :
    (s.pool k).pair = addr.pair := by
  unfold mappedEntry at h
  dsimp only at h
  split at h
  · obtain ⟨-, -, -, -, -, hpool⟩ := hinv.layout.mapped _ _ k h
    change s.pool k = entryAt s.addrBase (htonl addr.sinAddr - s.addrBase).toNat
      (htons addr.sinPort).toNat at hpool
    rw [hpool]
    unfold entryAt SockaddrIn.pair
    rw [BitVec.ofNat_toNat, BitVec.ofNat_toNat, BitVec.setWidth_eq, BitVec.setWidth_eq, htons_htons,
      BitVec.add_comm, BitVec.sub_add_cancel, htonl_htonl]
  · cases h

/-- And an entry with the address is what the map finds. -/
theorem LinkedInv.mapped_of_pair (hinv : LinkedInv numAddr n s) (hnum : numAddr ≤ 2 ^ 31) (hk : k < n)
    (h : (s.pool k).pair = addr.pair) : mappedEntry s.entries addr = some k :=
  hinv.layout.mappedEntry (hinv.num.trans_le hnum) hk h.symm

theorem pair_eq_iff {a b : SockaddrIn} :
    a.sinPort = b.sinPort ∧ a.sinAddr = b.sinAddr ↔ b.pair = a.pair := by
  unfold SockaddrIn.pair
  rw [Prod.mk.injEq]
  constructor
  · rintro ⟨hport, haddr⟩
    exact ⟨haddr.symm, hport.symm⟩
  · rintro ⟨haddr, hport⟩
    exact ⟨hport.symm, haddr.symm⟩

/-- An address that is not that of the first used entry is looked for until the list ends, and not found. -/
theorem scanLoop_of_ne (h : (s.pool first).pair ≠ addr.pair) (turns : ℕ) (walk : Option ℕ) :
    s.scanLoop addr first turns walk = (tailqForeach.loop s.links turns walk).map fun _ => none := by
  induction turns generalizing walk with
  | zero => rfl
  | succ turns ih =>
    cases walk with
    | none => rfl
    | some a =>
      unfold LinkedPool.scanLoop tailqForeach.loop
      rw [if_neg (mt pair_eq_iff.mp h), ih, Option.map_map]
      rfl

theorem freeByScan_of_first (hfirst : tailqFirst s.links .used = some k)
    (h : (s.pool k).pair = addr.pair) (turns : ℕ) :
    s.freeByScan (turns + 1) addr = some (s.give k, 0) := by
  unfold LinkedPool.freeByScan
  rw [hfirst]
  dsimp only
  unfold LinkedPool.scanLoop
  rw [if_pos (pair_eq_iff.mpr h)]
  rfl

/-- Where the first used entry is not it, the walk returns if the list ends, and refuses. -/
theorem freeByScan_of_not_first
    (h : ∀ first, tailqFirst s.links .used = some first → (s.pool first).pair ≠ addr.pair) (turns : ℕ) :
    (s.freeByScan turns addr = some (s, -1) ∧ s.UsedEnds) ∨ s.freeByScan turns addr = none := by
  unfold LinkedPool.freeByScan
  cases hfirst : tailqFirst s.links .used with
  | none =>
    refine .inl ⟨rfl, 1, [], ?_⟩
    unfold tailqForeach
    rw [hfirst]
    rfl
  | some first =>
    dsimp only
    rw [scanLoop_of_ne (h first hfirst)]
    cases hloop : tailqForeach.loop s.links turns (some first) with
    | none => exact .inr rfl
    | some l =>
      refine .inl ⟨rfl, turns, l, ?_⟩
      unfold tailqForeach
      rw [hfirst, hloop]

theorem freeByScan_of_ends (h : s.UsedEnds)
    (hne : ∀ first, tailqFirst s.links .used = some first → (s.pool first).pair ≠ addr.pair) :
    ∃ turns, s.freeByScan turns addr = some (s, -1) := by
  obtain ⟨turns, l, hl⟩ := h
  refine ⟨turns, ?_⟩
  unfold LinkedPool.freeByScan
  unfold tailqForeach at hl
  cases hfirst : tailqFirst s.links .used with
  | none => rfl
  | some first =>
    rw [hfirst] at hl
    dsimp only
    rw [scanLoop_of_ne (hne first hfirst), hl]
    rfl

theorem pathsAgree_iff (hinv : LinkedInv numAddr n s) (hnum : numAddr ≤ 2 ^ 31) :
    FreePathsAgree s addr ↔ FreesFirst s addr := by
  have hfound : ∀ first, tailqFirst s.links .used = some first → (s.pool first).pair = addr.pair →
      mappedEntry s.entries addr = some first :=
    fun first hfirst hpair => hinv.mapped_of_pair hnum (hinv.names _ _ hfirst) hpair
  cases hmap : mappedEntry s.entries addr with
  | none =>
    have hne : ∀ first, tailqFirst s.links .used = some first → (s.pool first).pair ≠ addr.pair := by
      intro first hfirst hpair
      rw [hfound first hfirst hpair] at hmap
      cases hmap
    have hfree : s.freeByMap addr = (s, -1) := by
      unfold LinkedPool.freeByMap
      rw [hmap]
      rfl
    constructor
    · rintro ⟨⟨turns, hsame⟩, -⟩
      obtain ⟨-, hends⟩ | hnone := freeByScan_of_not_first hne turns
      · exact .inr ⟨hmap, hends⟩
      · rw [hnone] at hsame
        cases hsame
    · rintro (⟨k, hk, -⟩ | ⟨-, hends⟩)
      · rw [hk] at hmap
        cases hmap
      · refine ⟨?_, fun _ => hfree⟩
        rw [hfree]
        exact freeByScan_of_ends hends hne
  | some k =>
    have hpair := hinv.mapped_pair hmap
    have hfree : s.freeByMap addr = (s.give k, 0) := by
      unfold LinkedPool.freeByMap
      rw [hmap]
      rfl
    constructor
    · rintro ⟨⟨turns, hsame⟩, -⟩
      -- the walk gives an entry back, so the first one has the address, and the map finds that one
      by_contra hother
      have hne : ∀ first, tailqFirst s.links .used = some first → (s.pool first).pair ≠ addr.pair := by
        intro first hfirst hpair'
        obtain rfl := Option.some.inj ((hfound first hfirst hpair').symm.trans hmap)
        exact hother (.inl ⟨first, hmap, hfirst⟩)
      rw [hfree] at hsame
      obtain ⟨hrefused, -⟩ | hnone := freeByScan_of_not_first hne turns
      · rw [hrefused] at hsame
        have hret := congrArg Prod.snd (Option.some.inj hsame)
        exact absurd hret (show (-1 : ℤ) ≠ 0 by decide)
      · rw [hnone] at hsame
        cases hsame
    · rintro (⟨k', hk', hfirst⟩ | ⟨hnone, -⟩)
      · obtain rfl := Option.some.inj (hmap.symm.trans hk')
        refine ⟨⟨1, ?_⟩, ?_⟩
        · rw [hfree]
          exact freeByScan_of_first hfirst hpair 0
        · intro hunused
          exact absurd ⟨k, ⟨k, hfirst, .refl⟩, hpair⟩ hunused
      · rw [hmap] at hnone
        cases hnone

/-- While no entry is used, an entry that the map finds is given back on one path only. -/
theorem not_pathsAgree (hmap : mappedEntry s.entries addr = some k)
    (hfirst : tailqFirst s.links .used = none) : ¬FreePathsAgree s addr := by
  rintro ⟨⟨turns, hsame⟩, -⟩
  unfold LinkedPool.freeByScan LinkedPool.freeByMap at hsame
  rw [hfirst, hmap] at hsame
  have hret := congrArg Prod.snd (Option.some.inj hsame)
  exact absurd hret (show (-1 : ℤ) ≠ 0 by decide)

end Paths

/-! ### As long as only what is in use is freed -/

/-- The linked pool is the pool `ap`. -/
structure Linked (s : LinkedPool) (ap : AddrPool) : Prop where
  fields : s.listed ap.freeList ap.usedList = ap
  free : Queue s.links .free ap.freeList
  used : Queue s.links .used ap.usedList

/-- The calls of `free_address` are for addresses in use. -/
def FreesUsed (s : LinkedPool) : PoolCall → Prop
  | .fetch _ _ _ _ _ => True
  | .fetchPerCore _ => True
  | .free addr => s.InUse addr

section Move

variable {m : Links PoolList ℕ} {h h' : PoolList} {xs ys l : List ℕ} {k : ℕ}

/-- An entry moves to the end of the other list. -/
theorem queue_move (hne : h ≠ h') (hxs : Queue m h xs) (hys : Queue m h' ys)
    (hdisj : ∀ a ∈ ys, a ∉ xs) (hk : k ∈ xs) :
    Queue (tailqInsertTail (tailqRemove m h k) h' k) h (xs.erase k) ∧
      Queue (tailqInsertTail (tailqRemove m h k) h' k) h' (ys ++ [k]) := by
  obtain ⟨hremoved, hun⟩ := @TailqOp.step _ _ _ _ m h xs (fun _ => False) hxs (.remove k) hk
  have hkys : k ∉ ys := fun hmem => hdisj k hmem hk
  have hother := hun.queue hne.symm (fun a ha hmem => hdisj a ha (List.mem_of_mem_erase hmem)) hys
  obtain ⟨hinserted, hun'⟩ := @TailqOp.step _ _ _ _ (tailqRemove m h k) h' ys (fun _ => False) hother
    (.insertTail k) ⟨hkys, not_false⟩
  refine ⟨hun'.queue hne ?_ hremoved, hinserted⟩
  -- what is left of the list is neither on the other one nor the entry itself
  intro a ha hmem
  rcases List.mem_append.mp hmem with hmem | hmem
  · exact hdisj a hmem (List.mem_of_mem_erase ha)
  · obtain rfl := List.mem_singleton.mp hmem
    exact hxs.nodup.not_mem_erase ha

/-- Entries that are put on a list one after the other. -/
theorem queue_foldl (hne : h' ≠ h) (hxs : Queue m h xs) (hys : Queue m h' []) (hnodup : (xs ++ l).Nodup) :
    Queue (l.foldl (fun m k => tailqInsertTail m h k) m) h (xs ++ l) ∧
      Queue (l.foldl (fun m k => tailqInsertTail m h k) m) h' [] := by
  induction l generalizing m xs with
  | nil =>
    rw [List.append_nil]
    exact ⟨hxs, hys⟩
  | cons k l ih =>
    have hk : k ∉ xs := by
      intro hmem
      exact (List.nodup_append.mp hnodup).2.2 k hmem k List.mem_cons_self rfl
    obtain ⟨hinserted, hun⟩ := @TailqOp.step _ _ _ _ m h xs (fun _ => False) hxs (.insertTail k)
      ⟨hk, not_false⟩
    have happend : xs ++ [k] ++ l = xs ++ k :: l := by rw [List.append_assoc, List.singleton_append]
    rw [← happend] at hnodup ⊢
    exact ih hinserted (hun.queue hne (fun a ha => absurd ha List.not_mem_nil) hys) hnodup

end Move

theorem createLinkedPool_linked (addrBase : U32) (numAddr : ℕ) :
    Linked (createLinkedPool addrBase numAddr) (createAddressPool addrBase numAddr) := by
  obtain ⟨hnew, -⟩ := createAddressPool_new addrBase numAddr
  have hfree : Queue (tailqInit (tailqInit callocLinks .free) PoolList.used) .free [] :=
    (tailqInit_unchanged _ PoolList.used).queue nofun (fun a ha => absurd ha List.not_mem_nil)
      (tailqInit_queue callocLinks PoolList.free)
  have hne : PoolList.used ≠ PoolList.free := nofun
  have hnodup : ([] ++ (createAddressPool addrBase numAddr).freeList).Nodup := by
    rw [List.nil_append, hnew.free]
    exact List.nodup_range
  have hboth := queue_foldl hne hfree (tailqInit_queue _ PoolList.used) hnodup
  refine ⟨rfl, hboth.1, ?_⟩
  rw [hnew.used]
  exact hboth.2

section Refine

variable {numAddr : ℤ} {n k : ℕ} {base : U32} {s s' : LinkedPool} {h : Hands} {addr : SockaddrIn}
  {call : PoolCall}

namespace Linked

theorem entries_eq {ap : AddrPool} (hl : Linked s ap) :
    s.pool = ap.pool ∧ s.mapper = ap.mapper ∧ s.addrBase = ap.addrBase ∧ s.numAddr = ap.numAddr := by
  rw [← hl.fields]
  exact ⟨rfl, rfl, rfl, rfl⟩

theorem tailqFirst_free {ap : AddrPool} (hl : Linked s ap) :
    tailqFirst s.links .free = ap.freeList.head? :=
  @Queue.link_past _ _ s.links PoolList.free [] ap.freeList hl.free

theorem tailqFirst_used {ap : AddrPool} (hl : Linked s ap) :
    tailqFirst s.links .used = ap.usedList.head? :=
  @Queue.link_past _ _ s.links PoolList.used [] ap.usedList hl.used

theorem take {ap : AddrPool} (hl : Linked s ap) (hdisj : ∀ a ∈ ap.usedList, a ∉ ap.freeList)
    (hk : k ∈ ap.freeList) : Linked (s.take k) (ap.take k) := by
  have hne : PoolList.free ≠ PoolList.used := nofun
  obtain ⟨hfree, hused⟩ := queue_move hne hl.free hl.used hdisj hk
  refine ⟨?_, hfree, hused⟩
  rw [← hl.fields]
  rfl

theorem give {ap : AddrPool} (hl : Linked s ap) (hdisj : ∀ a ∈ ap.freeList, a ∉ ap.usedList)
    (hk : k ∈ ap.usedList) : Linked (s.give k) (ap.give k) := by
  have hne : PoolList.used ≠ PoolList.free := nofun
  obtain ⟨hused, hfree⟩ := queue_move hne hl.used hl.free hdisj hk
  refine ⟨?_, hfree, hused⟩
  rw [← hl.fields]
  rfl

/-- The walk along the links is the walk along the list. -/
theorem fetchWalk_eq {ap : AddrPool} (hl : Linked s ap) {core : ℤ} {numQueues : U32}
    {daddr saddr : SockaddrIn} {endianCheck : U8} {turns : ℕ} {walk : Option ℕ} {found : Option ℕ}
    {l : List ℕ} (hloop : ∃ l₁, ap.freeList = l₁ ++ l ∧ walk = l.head?)
    (hwalk : s.fetchWalk core numQueues daddr saddr endianCheck turns walk = some found) :
    CmtTcp.fetchWalk ap core numQueues daddr saddr endianCheck l = found := by
  induction turns generalizing walk l with
  | zero => cases hwalk
  | succ turns ih =>
    obtain ⟨l₁, hlist, rfl⟩ := hloop
    cases l with
    | nil => exact Option.some.inj hwalk
    | cons a l =>
      have hq := hl.free
      rw [hlist] at hq
      have hnext := fun hrest => @ih (tailqNext s.links a) l
        ⟨l₁ ++ [a], by rw [hlist, List.append_assoc]; rfl, hq.link_next⟩ hrest
      have hcore : s.entries.entryCore numQueues daddr endianCheck a =
          ap.entryCore numQueues daddr endianCheck a := by
        unfold AddrPool.entryCore
        rw [← hl.entries_eq.1]
        rfl
      change s.fetchWalk core numQueues daddr saddr endianCheck (turns + 1) (some a) = some found at hwalk
      unfold LinkedPool.fetchWalk at hwalk
      unfold CmtTcp.fetchWalk
      rw [hl.entries_eq.1, hcore] at hwalk
      dsimp only at hwalk
      -- the tests of the loop one by one: both walks go on, or both stop
      split at hwalk
      · next htest =>
        rw [if_pos htest]
        exact hnext hwalk
      next haddr =>
      rw [if_neg haddr]
      split at hwalk
      · next htest =>
        rw [if_pos htest]
        exact hnext hwalk
      next hport =>
      rw [if_neg hport]
      split at hwalk
      · next htest =>
        rw [if_pos htest]
        exact Option.some.inj hwalk
      · next htest =>
        rw [if_neg htest]
        exact hnext hwalk

theorem ends {ap : AddrPool} (hl : Linked s ap) : s.UsedEnds :=
  ⟨_, _, (tailqLaw_of_queue hl.used).foreach _ (Nat.lt_succ_self _)⟩

/-- What is met along the used list is on it. -/
theorem mem_of_onUsed {ap : AddrPool} (hl : Linked s ap) (hk : s.OnUsed k) : k ∈ ap.usedList := by
  obtain ⟨first, hfirst, hreach⟩ := hk
  induction hreach with
  | refl => exact List.mem_of_mem_head? (hl.tailqFirst_used.symm.trans hfirst)
  | tail _ hnext ih =>
    obtain ⟨l₁, l₂, heq, -⟩ := hl.used.split ih
    have hq := hl.used
    rw [heq] at hq ⊢
    have hmem := List.mem_of_mem_head? (hq.link_next.symm.trans hnext)
    exact List.mem_append_right l₁ (List.mem_cons_of_mem _ hmem)

/-- **The links follow the lists.** As long as only addresses in use are freed, every call on the links is a call
on the lists. -/
theorem step (hl : Linked s h.pool) (hinv : PoolInv (fun _ _ => True) base numAddr n h)
    (hnum : numAddr ≤ 2 ^ 31) (hstep : Guarded FreesUsed LinkedStep s call s') :
    ∃ h', PoolStep h call h' ∧ Linked s' h'.pool := by
  obtain ⟨hguard, hstep⟩ := hstep
  have hnodup := hinv.lists.nodup_iff.mpr List.nodup_range
  have hdisj : ∀ a ∈ h.pool.freeList, a ∉ h.pool.usedList :=
    fun a ha hmem => (List.nodup_append.mp hnodup).2.2 a ha a hmem rfl
  have htake : ∀ a ∈ h.pool.freeList, Linked (s.take a) (h.pool.take a) :=
    fun a ha => hl.take (fun b hb hmem => hdisj b hmem hb) ha
  cases hstep with
  | fetch core numQueues daddr saddr endianCheck hwalk =>
    refine ⟨_, .fetch h core numQueues daddr saddr endianCheck, ?_⟩
    -- both walks end at the same entry
    have hlist := hl.fetchWalk_eq (l := h.pool.freeList)
      ⟨[], rfl, hl.tailqFirst_free⟩ hwalk
    change Linked _ (fetchAddress h.pool core numQueues daddr saddr endianCheck).1
    unfold fetchAddress
    rw [hlist]
    obtain ⟨a, ha, -, hfound⟩ | ⟨-, hnone⟩ :=
      fetchWalk_cases h.pool core numQueues daddr saddr endianCheck h.pool.freeList
    · rw [hfound] at hlist
      rw [← hlist]
      exact htake a ha
    · rw [hnone] at hlist
      rw [← hlist]
      exact hl
  | fetchPerCore saddr =>
    refine ⟨_, .fetchPerCore h saddr, ?_⟩
    change Linked _ (fetchAddressPerCore h.pool saddr).1
    unfold fetchAddressPerCore
    rw [hl.tailqFirst_free]
    cases hfree : h.pool.freeList.head? with
    | none => exact hl
    | some a => exact htake a (List.mem_of_mem_head? hfree)
  | free addr =>
    obtain ⟨a, ha, hpair⟩ := hguard
    -- its address is held, so the map leads to the entry that is given back
    have hmem := hl.mem_of_onUsed ha
    have hheld : addr.pair ∈ h.held := by
      apply hinv.held.symm.subset
      refine List.mem_map.mpr ⟨a, hmem, ?_⟩
      rw [← hl.entries_eq.1]
      exact hpair
    refine ⟨_, .free h addr hheld, ?_⟩
    obtain ⟨b, hb, -, hfree⟩ := hinv.freeAddress hnum hheld
    have hmap : mappedEntry s.entries addr = mappedEntry h.pool addr := by
      rw [← hl.fields]
      rfl
    change Linked (s.giveEntry (mappedEntry s.entries addr)).1 (freeAddress h.pool addr).1
    rw [hmap]
    unfold freeAddress at hfree ⊢
    cases hentry : mappedEntry h.pool addr with
    | none => exact hl
    | some c =>
      rw [hentry] at hfree
      have hgave := congrArg (fun r => r.1.freeList) hfree
      obtain rfl : c = b := List.singleton_inj.mp (List.append_cancel_left hgave)
      exact hl.give hdisj hb

end Linked

end Refine

/-- The used list of a pool that frees what is in use comes to an end. -/
theorem usedEnds_of_frees {addrBase : U32} {numAddr : ℕ} {calls : List PoolCall} {s : LinkedPool}
    (hint : numAddr * (maxPort - minPort) < 2 ^ 31)
    (hrun : Run (Guarded FreesUsed LinkedStep) (createLinkedPool addrBase numAddr) calls s) :
    s.UsedEnds := by
  obtain ⟨hnew, -⟩ := createAddressPool_new addrBase numAddr
  have hnum : (numAddr : ℤ) ≤ 2 ^ 31 := by
    unfold maxPort minPort at hint
    omega
  obtain ⟨h, hl, -⟩ := hrun.invariant
    (fun s => ∃ h : Hands, Linked s h.pool ∧
      PoolInv (fun _ _ => True) (htonl addrBase) numAddr (numAddr * (maxPort - minPort)) h)
    ⟨⟨_, []⟩, createLinkedPool_linked addrBase numAddr, hnew.inv⟩ (by
      rintro t call u ⟨h, hl, hinv⟩ hstep
      obtain ⟨h', hpool, hl'⟩ := hl.step hinv hnum hstep
      exact ⟨h', hl', hinv.step hnum hpool⟩)
  exact hl.ends

/-- **The two paths.** In every pool that calls on a pool of `create_address_pool` lead to, and for every address, the
paths of `free_address` agree exactly if the map finds the first used entry, or none while the used list comes
to an end. -/
theorem freePaths_agree_iff {addrBase : U32} {numAddr : ℕ} {calls : List PoolCall} {s : LinkedPool}
    (hint : numAddr * (maxPort - minPort) < 2 ^ 31)
    (hrun : Run LinkedStep (createLinkedPool addrBase numAddr) calls s) (addr : SockaddrIn) :
    FreePathsAgree s addr ↔ FreesFirst s addr := by
  have hnum : (numAddr : ℤ) ≤ 2 ^ 31 := by
    unfold maxPort minPort at hint
    omega
  exact pathsAgree_iff ((createLinkedPool_inv addrBase numAddr).run hrun) hnum

/-- The paths agree for the address of the first used entry, and for that of no other. -/
theorem LinkedInv.freesFirst_iff {numAddr : ℤ} {n k first : ℕ} {s : LinkedPool}
    (hinv : LinkedInv numAddr n s) (hnum : numAddr ≤ 2 ^ 31)
    (hfirst : tailqFirst s.links .used = some first) (hk : k < n) : FreesFirst s (s.pool k) ↔ k = first := by
  have hmap : mappedEntry s.entries (s.pool k) = some k := hinv.mapped_of_pair hnum hk rfl
  unfold FreesFirst
  rw [hmap, hfirst]
  constructor
  · rintro (⟨k', hk', hfirst'⟩ | ⟨hnone, -⟩)
    · exact (Option.some.inj hk').trans (Option.some.inj hfirst').symm
    · cases hnone
  · rintro rfl
    exact .inl ⟨k, rfl, rfl⟩

/-- A fetch without an address takes the first free entry. -/
theorem Linked.fetchPerCore {s : LinkedPool} {ap : AddrPool} {k : ℕ} {l : List ℕ} (hl : Linked s ap)
    (hfree : ap.freeList = k :: l) (saddr : SockaddrIn) :
    LinkedStep s (.fetchPerCore saddr) (s.take k) := by
  have hstep := LinkedStep.fetchPerCore s saddr
  rwa [hl.tailqFirst_free, hfree] at hstep

/-- Two entries of a pool of one address are in use. The paths agree for the first of them; for the second they
do once the first is given back. -/
theorem freePaths_agree_first :
    ∃ s s', Run LinkedStep (createLinkedPool 0 (1 : ℕ))
        [.fetchPerCore ⟨0, 0, 0⟩, .fetchPerCore ⟨0, 0, 0⟩] s ∧
      LinkedStep s (.free (s.pool 0)) s' ∧
      FreePathsAgree s (s.pool 0) ∧ ¬FreePathsAgree s (s.pool 1) ∧ FreePathsAgree s' (s'.pool 1) := by
  have hint : 1 * (maxPort - minPort) < 2 ^ 31 := by
    unfold maxPort minPort
    omega
  have hnum : ((1 : ℕ) : ℤ) ≤ 2 ^ 31 := by omega
  obtain ⟨m, hcount⟩ : ∃ m, 1 * (maxPort - minPort) = m + 1 + 1 := ⟨64509, by decide⟩
  obtain ⟨hnew, -⟩ := createAddressPool_new 0 1
  obtain ⟨ap, rest, hl, hused, hfree, hnodup⟩ : ∃ ap rest, Linked (createLinkedPool 0 (1 : ℕ)) ap ∧
      ap.usedList = [] ∧ ap.freeList = 0 :: 1 :: rest ∧ ap.freeList.Nodup := by
    obtain ⟨rest, hfree⟩ := createAddressPool_free 0 Nat.one_pos
    refine ⟨_, rest, createLinkedPool_linked 0 1, hnew.used, hfree, ?_⟩
    rw [hnew.free]
    exact List.nodup_range
  rw [hfree] at hnodup
  obtain ⟨h0, hnodup⟩ := List.nodup_cons.mp hnodup
  have h1 := (List.nodup_cons.mp hnodup).1
  -- two entries go over to the used list, one after the other
  have hl₁ := hl.take (k := 0) (by rw [hused]; exact nofun) (by rw [hfree]; exact List.mem_cons_self)
  have hused₁ : (ap.take 0).usedList = [0] := by
    change ap.usedList ++ [0] = [0]
    rw [hused]
    rfl
  have hfree₁ : (ap.take 0).freeList = 1 :: rest := by
    change ap.freeList.erase 0 = 1 :: rest
    rw [hfree]
    rfl
  have hl₂ := hl₁.take (k := 1) (by rw [hused₁, hfree₁]; simpa using h0)
    (by rw [hfree₁]; exact List.mem_cons_self)
  have hused₂ : ((ap.take 0).take 1).usedList = [0, 1] := by
    change (ap.take 0).usedList ++ [1] = [0, 1]
    rw [hused₁]
    rfl
  have hfree₂ : ((ap.take 0).take 1).freeList = rest := by
    change (ap.take 0).freeList.erase 1 = rest
    rw [hfree₁]
    rfl
  have hdisj₂ : ∀ a ∈ rest, a ∉ [0, 1] := by
    rintro a ha hmem
    rcases List.mem_pair.mp hmem with rfl | rfl
    · exact h0 (List.mem_cons_of_mem 1 ha)
    · exact h1 ha
  have hrun := (Run.single (hl.fetchPerCore hfree ⟨0, 0, 0⟩)).snoc (hl₁.fetchPerCore hfree₁ ⟨0, 0, 0⟩)
  generalize ((createLinkedPool 0 (1 : ℕ)).take 0).take 1 = s at hl₂ hrun
  have hfirst : tailqFirst s.links .used = some 0 := by rw [hl₂.tailqFirst_used, hused₂]; rfl
  have hinv := (createLinkedPool_inv 0 1).run hrun
  have hmap : mappedEntry s.entries (s.pool 0) = some 0 :=
    hinv.mapped_of_pair hnum (by rw [hcount]; omega) rfl
  have hgive : (s.freeByMap (s.pool 0)).1 = s.give 0 := by
    unfold LinkedPool.freeByMap
    rw [hmap]
    rfl
  refine ⟨s, _, hrun, .free s (s.pool 0), ?_, ?_, ?_⟩
  · rw [freePaths_agree_iff hint hrun, hinv.freesFirst_iff hnum hfirst (by rw [hcount]; omega)]
  · rw [freePaths_agree_iff hint hrun, hinv.freesFirst_iff hnum hfirst (by rw [hcount]; omega)]
    exact Nat.one_ne_zero
  · -- the second entry comes first when the other one is back on the free list
    have hl₃ := hl₂.give (k := 0) (by rw [hused₂, hfree₂]; exact hdisj₂)
      (by rw [hused₂]; exact List.mem_cons_self)
    have hused₃ : (((ap.take 0).take 1).give 0).usedList = [1] := by
      change ((ap.take 0).take 1).usedList.erase 0 = [1]
      rw [hused₂]
      rfl
    have hrun' := hrun.snoc (.free s (s.pool 0))
    have hfirst' : tailqFirst (s.give 0).links .used = some 1 := by rw [hl₃.tailqFirst_used, hused₃]; rfl
    rw [freePaths_agree_iff hint hrun', hgive]
    rw [hgive] at hrun'
    exact (((createLinkedPool_inv 0 1).run hrun').freesFirst_iff hnum hfirst' (by rw [hcount]; omega)).mpr rfl

/-- The map of a new pool finds every port of the first address, and no entry is used. -/
theorem createLinkedPool_finds (addrBase : U32) {numAddr : ℕ} (hnum : 0 < numAddr) {port : U16}
    (hport : minPort ≤ port.toNat) :
    (∃ k, mappedEntry (createLinkedPool addrBase numAddr).entries ⟨0, htons port, addrBase⟩ = some k) ∧
      tailqFirst (createLinkedPool addrBase numAddr).links .used = none := by
  obtain ⟨hnew, hfilled⟩ := createAddressPool_new addrBase numAddr
  constructor
  · obtain ⟨k, hk⟩ := hfilled 0 port.toNat hnum hport port.isLt
    have hbase : (createLinkedPool addrBase numAddr).entries.addrBase = htonl addrBase := hnew.base
    have hrange : (createLinkedPool addrBase numAddr).entries.numAddr = numAddr := hnew.num
    refine ⟨k, ?_⟩
    unfold mappedEntry
    dsimp only
    rw [hbase, hrange, htons_htons, BitVec.sub_self, if_pos ⟨by decide, Int.ofNat_lt.mpr hnum⟩]
    exact hk
  · have hq := (createLinkedPool_linked addrBase numAddr).used
    rw [hnew.used] at hq
    exact hq.ended

/-- In a new pool no address is in use, and a port of it is freed through the map, but not by the walk. -/
theorem freePaths_free_port : ¬FreePathsAgree (createLinkedPool 0 (1 : ℕ)) ⟨0, htons 1025, 0⟩ := by
  obtain ⟨⟨k, hmap⟩, hfirst⟩ := createLinkedPool_finds 0 Nat.one_pos (show minPort ≤ (1025 : U16).toNat
    by decide)
  exact not_pathsAgree hmap hfirst

end CmtTcp
