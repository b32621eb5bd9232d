import CmtTcp.TailQueue
import CmtTcp.Basic
import Mathlib.Data.List.Dedup

/-!
# The hash table

`cmt_hashtable_t` of `tcp_stream_hash.h` with `ht_search`, `ht_insert` and `ht_remove`: a table of
tail queues on one heap of links, with the hash function and the comparison of its user. `walk` is
read as a pointer to a node, and `ht->table(idx)` as an element of the table.

Insertion is in front of a bucket, so that the table as a whole is a list of its nodes, the newest
first: a search finds the first one of the list that has the hash of the key and is equal to it, and
a removal takes it out (`hashTable_refines`). `ht_count` is an 8-bit count of the insertions, which
`ht_remove` leaves alone.
-/

namespace CmtTcp

open Lib (Place Links Queue Unchanged Chain)

variable {κ : Type} [DecidableEq κ]

/-! ### The functions of `tcp_stream_hash.c` -/

/-- `cmt_hashtable_t` -/
structure HashTable (κ : Type) where
  htCount : U8
  hash : κ → ℕ
  eq : κ → κ → Bool

/-- A table and the heap with its buckets and the nodes. -/
structure HashState (κ : Type) where
  ht : HashTable κ
  links : Links ℕ κ

/-- The loop that initialises the buckets when a table is created. -/
def initBuckets (m : Links ℕ κ) : ℕ → Links ℕ κ
  | 0 => m
  | bins + 1 => tailqInit (initBuckets m bins) bins

/-- The loop of `ht_search` and `ht_remove` along a bucket, for at most `n` turns: the node it stops
at. -/
def htWalk (s : HashState κ) (it : κ) : ℕ → Option κ → Option (Option κ)
  | 0, _ => none
  | _ + 1, none => some none
  | n + 1, some walk =>
    if s.ht.eq it walk then some (some walk) else htWalk s it n (tailqNext s.links walk)

/-- `ht_search` -/
def htSearch (n : ℕ) (s : HashState κ) (it : κ) : Option (Option κ) :=
  htWalk s it n (tailqFirst s.links (s.ht.hash it))

/-- `ht_insert`, which returns `0` -/
def htInsert (s : HashState κ) (it : κ) : HashState κ where
  ht := { s.ht with htCount := s.ht.htCount + 1 }
  links := tailqInsertHead s.links (s.ht.hash it) it

/-- `ht_remove` -/
def htRemove (n : ℕ) (s : HashState κ) (it : κ) : Option (HashState κ × Option κ) :=
  match htWalk s it n (tailqFirst s.links (s.ht.hash it)) with
  | none => none
  | some none => some (s, none)
  | some (some walk) =>
    some ({ s with links := tailqRemove s.links (s.ht.hash it) walk }, some walk)

/-- A call on the table. -/
inductive HashOp (κ : Type)
  | search (it : κ)
  | insert (it : κ)
  | remove (it : κ)

/-- The call, and the node it returns. -/
def HashOp.exec (n : ℕ) (s : HashState κ) : HashOp κ → Option (HashState κ × Option κ)
  | search it => (htSearch n s it).map (s, ·)
  | insert it => some (htInsert s it, none)
  | remove it => htRemove n s it

/-- The calls one after the other, and the nodes they return. -/
def HashState.run (n : ℕ) (s : HashState κ) :
    List (HashOp κ) → Option (HashState κ × List (Option κ))
  | [] => some (s, [])
  | op :: ops => do
    let (s, found) ← op.exec n s
    let (s, founds) ← s.run n ops
    some (s, found :: founds)

/-! ### The list behind the table -/

namespace HashTable

variable (ht : HashTable κ)

/-- Node `a` lies in the bucket of `it` and is equal to it. -/
def finds (it a : κ) : Bool := ht.hash a = ht.hash it && ht.eq it a

/-- The calls on the list of the nodes in the table, the newest first. -/
def onList (xs : List κ) : HashOp κ → List κ × Option κ
  | .search it => (xs, xs.find? (ht.finds it))
  | .insert it => (it :: xs, none)
  | .remove it => (xs.eraseP (ht.finds it), xs.find? (ht.finds it))

/-- The calls one after the other on the list. -/
def runList (xs : List κ) : List (HashOp κ) → List κ × List (Option κ)
  | [] => (xs, [])
  | op :: ops =>
    let (xs, found) := ht.onList xs op
    let (xs, founds) := runList xs ops
    (xs, found :: founds)

/-- Every key has its bucket in the table, and no node is inserted that is in the table already. -/
def Valid (bins : ℕ) (xs : List κ) : List (HashOp κ) → Prop
  | [] => True
  | op :: ops =>
    (match op with
      | .search it | .remove it => ht.hash it < bins
      | .insert it => ht.hash it < bins ∧ it ∉ xs) ∧
    Valid bins (ht.onList xs op).1 ops

end HashTable

/-- How many of the calls are insertions. -/
def insertions (ops : List (HashOp κ)) : ℕ :=
  ops.countP fun
    | .insert _ => true
    | _ => false

/-- The buckets hold the nodes `xs`. -/
structure HashState.Holds (bins : ℕ) (s : HashState κ) (xs : List κ) : Prop where
  nodup : xs.Nodup
  queue : ∀ i < bins, Queue s.links i (xs.filter fun a => s.ht.hash a = i)

section Steps

variable {s : HashState κ} {xs : List κ} {bins n : ℕ} {it : κ} {p : Place ℕ κ} {l : List κ}

omit [DecidableEq κ] in
/-- The loop stops at the first node that is equal to the key. -/
theorem htWalk_chain (hc : Chain s.links p l) (hend : s.links.link (p.past l) = none)
    (hn : l.length < n) :
    htWalk s it n (s.links.link p) = some (l.find? (s.ht.eq it)) := by
  induction l generalizing p n with
  | nil =>
    obtain ⟨n, rfl⟩ : ∃ k, n = k + 1 := ⟨n - 1, by omega⟩
    change s.links.link p = none at hend
    rw [hend]
    rfl
  | cons a l ih =>
    obtain ⟨n, rfl⟩ : ∃ k, n = k + 1 := ⟨n - 1, by omega⟩
    obtain ⟨hlink, -, hrest⟩ := hc
    rw [List.length_cons] at hn
    rw [hlink]
    unfold htWalk
    by_cases ha : s.ht.eq it a
    · rw [if_pos ha, List.find?_cons_of_pos ha]
    · rw [if_neg ha, List.find?_cons_of_neg ha]
      exact ih hrest hend (by omega)

omit [DecidableEq κ] in
/-- It finds in the bucket what a search of the whole list finds. -/
theorem HashState.Holds.walk (h : s.Holds bins xs) (hit : s.ht.hash it < bins)
    (hn : xs.length < n) :
    htWalk s it n (tailqFirst s.links (s.ht.hash it)) = some (xs.find? (s.ht.finds it)) := by
  have hq := h.queue _ hit
  have hlen : (xs.filter fun a => s.ht.hash a = s.ht.hash it).length < n :=
    (List.length_filter_le _ _).trans_lt hn
  have hwalk : htWalk s it n (s.links.link (.head (s.ht.hash it))) =
      some ((xs.filter fun a => s.ht.hash a = s.ht.hash it).find? (s.ht.eq it)) :=
    htWalk_chain hq.chain hq.ended hlen
  have hfinds : (fun a => decide (decide (s.ht.hash a = s.ht.hash it) = true ∧
      s.ht.eq it a = true)) = s.ht.finds it := by
    funext a
    simp [HashTable.finds]
  rw [List.find?_filter, hfinds] at hwalk
  exact hwalk

omit [DecidableEq κ] in
/-- An operation on one bucket leaves the nodes of the others where they are. -/
theorem HashState.Holds.change (h : s.Holds bins xs) {i : ℕ} {ys : List κ} {m' : Links ℕ κ}
    {ht' : HashTable κ} (hhash : ht'.hash = s.ht.hash) (hnodup : ys.Nodup)
    (hother : ∀ j, j ≠ i → (ys.filter fun a => s.ht.hash a = j) =
      xs.filter fun a => s.ht.hash a = j)
    (hq : Queue m' i (ys.filter fun a => s.ht.hash a = i))
    (hun : Unchanged s.links m' i (ys.filter fun a => s.ht.hash a = i)) :
    HashState.Holds bins ⟨ht', m'⟩ ys := by
  refine ⟨hnodup, fun j hj => ?_⟩
  change Queue m' j (ys.filter fun a => ht'.hash a = j)
  rw [hhash]
  by_cases hji : j = i
  · rw [hji]
    exact hq
  · rw [hother j hji]
    refine hun.queue hji (fun a ha hmem => ?_) (h.queue j hj)
    have hj' := of_decide_eq_true (List.mem_filter.mp ha).2
    have hi' := of_decide_eq_true (List.mem_filter.mp hmem).2
    exact hji (hj'.symm.trans hi')

/-- Insertion puts the node in front. -/
theorem HashState.Holds.insert (h : s.Holds bins xs) (hit : s.ht.hash it < bins)
    (hnew : it ∉ xs) : (htInsert s it).Holds bins (it :: xs) := by
  have hfront : ((it :: xs).filter fun a => s.ht.hash a = s.ht.hash it) =
      it :: xs.filter fun a => s.ht.hash a = s.ht.hash it :=
    List.filter_cons_of_pos (decide_eq_true rfl)
  have hnot : it ∉ xs.filter fun a => s.ht.hash a = s.ht.hash it :=
    fun hmem => hnew (List.mem_filter.mp hmem).1
  have hvalid : (TailqOp.insertHead it).Valid (fun _ => False)
      (xs.filter fun a => s.ht.hash a = s.ht.hash it) := ⟨hnot, not_false⟩
  obtain ⟨hq, hun⟩ := TailqOp.step (h.queue _ hit) (.insertHead it) hvalid
  refine h.change rfl (List.nodup_cons.mpr ⟨hnew, h.nodup⟩) (i := s.ht.hash it) ?_ ?_ ?_
  · intro j hj
    exact List.filter_cons_of_neg fun hit => hj (of_decide_eq_true hit).symm
  · rw [hfront]
    exact hq
  · rw [hfront]
    exact hun

omit [DecidableEq κ] in
/-- What is found by the key is in the bucket of the key. -/
theorem mem_bucket {a : κ} (hfound : xs.find? (s.ht.finds it) = some a) :
    a ∈ xs ∧ s.ht.hash a = s.ht.hash it := by
  have hfinds := List.find?_some hfound
  unfold HashTable.finds at hfinds
  rw [Bool.and_eq_true] at hfinds
  exact ⟨List.mem_of_find?_eq_some hfound, of_decide_eq_true hfinds.1⟩

/-- Taking the first one out is taking this node out. -/
theorem eraseP_of_find? {a : κ} {test : κ → Bool} (hfound : xs.find? test = some a) :
    xs.eraseP test = xs.erase a := by
  induction xs with
  | nil => rfl
  | cons b xs ih =>
    by_cases hb : test b
    · rw [List.find?_cons_of_pos hb] at hfound
      obtain rfl := Option.some.inj hfound
      rw [List.eraseP_cons_of_pos hb, List.erase_cons_head]
    · rw [List.find?_cons_of_neg hb] at hfound
      have hne : b ≠ a := by
        rintro rfl
        exact hb (List.find?_some hfound)
      rw [List.eraseP_cons_of_neg hb, List.erase_cons_tail (by simpa using hne), ih hfound]

/-- A bucket after a node was taken out of the list. -/
theorem filter_erase (hnodup : xs.Nodup) (a : κ) (test : κ → Bool) :
    (xs.erase a).filter test = (xs.filter test).erase a := by
  rw [hnodup.erase_eq_filter, (hnodup.filter test).erase_eq_filter, List.filter_filter,
    List.filter_filter]
  exact List.filter_congr fun b _ => Bool.and_comm _ _

/-- Removal takes the node out that a search finds. -/
theorem HashState.Holds.remove (h : s.Holds bins xs) (hit : s.ht.hash it < bins)
    (hn : xs.length < n) :
    ∃ s', htRemove n s it = some (s', xs.find? (s.ht.finds it)) ∧ s'.ht = s.ht ∧
      s'.Holds bins (xs.eraseP (s.ht.finds it)) := by
  have hwalk := h.walk hit hn
  unfold htRemove
  rw [hwalk]
  cases hfound : xs.find? (s.ht.finds it) with
  | none =>
    refine ⟨s, rfl, rfl, ?_⟩
    rwa [List.eraseP_of_forall_not fun a ha => List.find?_eq_none.mp hfound a ha]
  | some a =>
    obtain ⟨ha, hbucket⟩ := mem_bucket hfound
    have hvalid : (TailqOp.remove a).Valid (fun _ => False)
        (xs.filter fun b => s.ht.hash b = s.ht.hash it) :=
      List.mem_filter.mpr ⟨ha, decide_eq_true hbucket⟩
    obtain ⟨hq, hun⟩ := TailqOp.step (h.queue _ hit) (.remove a) hvalid
    refine ⟨_, rfl, rfl, ?_⟩
    rw [eraseP_of_find? hfound]
    refine h.change rfl (h.nodup.erase a) (i := s.ht.hash it) ?_ ?_ ?_
    · intro j hj
      rw [filter_erase h.nodup, List.erase_of_not_mem]
      exact fun hmem => hj ((of_decide_eq_true (List.mem_filter.mp hmem).2).symm.trans hbucket)
    · rw [filter_erase h.nodup]
      exact hq
    · rw [filter_erase h.nodup]
      exact hun

/-- The buckets of a fresh table are empty. -/
theorem initBuckets_queue (m : Links ℕ κ) (bins i : ℕ) (hi : i < bins) :
    Queue (initBuckets m bins) i [] := by
  induction bins with
  | zero => exact absurd hi (Nat.not_lt_zero i)
  | succ bins ih =>
    rcases Nat.lt_succ_iff_lt_or_eq.mp hi with hlt | rfl
    · exact (tailqInit_unchanged _ bins).queue (by omega) (fun _ _ => List.not_mem_nil) (ih hlt)
    · exact tailqInit_queue _ i

end Steps

/-! ### Runs -/

section Runs

variable {s : HashState κ} {xs : List κ} {bins n : ℕ}

/-- One call on the table is the call on the list. -/
theorem HashOp.exec_refines (h : s.Holds bins xs) (op : HashOp κ) {ops : List (HashOp κ)}
    (hvalid : s.ht.Valid bins xs (op :: ops)) (hn : xs.length < n) :
    ∃ s', op.exec n s = some (s', (s.ht.onList xs op).2) ∧
      s'.Holds bins (s.ht.onList xs op).1 ∧ s'.ht.hash = s.ht.hash ∧ s'.ht.eq = s.ht.eq ∧
      s'.ht.htCount = s.ht.htCount + BitVec.ofNat 8 (insertions [op]) := by
  have hcount : s.ht.htCount = s.ht.htCount + BitVec.ofNat 8 0 := (BitVec.add_zero _).symm
  cases op with
  | search it =>
    refine ⟨s, ?_, h, rfl, rfl, hcount⟩
    change (htSearch n s it).map (s, ·) = _
    unfold htSearch
    rw [h.walk hvalid.1 hn]
    rfl
  | insert it => exact ⟨_, rfl, h.insert hvalid.1.1 hvalid.1.2, rfl, rfl, rfl⟩
  | remove it =>
    obtain ⟨s', hrem, hht, hholds⟩ := h.remove hvalid.1 hn
    refine ⟨s', hrem, hholds, by rw [hht], by rw [hht], ?_⟩
    rw [hht]
    exact hcount

omit [DecidableEq κ] in
/-- Every call adds one node at most. -/
theorem HashTable.length_onList_le (ht : HashTable κ) (xs : List κ) (op : HashOp κ) :
    (ht.onList xs op).1.length ≤ xs.length + 1 := by
  cases op with
  | search it => exact Nat.le_succ _
  | insert it => exact Nat.le_refl _
  | remove it => exact (List.eraseP_sublist.length_le).trans (Nat.le_succ _)

section Functions

variable {ht ht' : HashTable κ} (hhash : ht'.hash = ht.hash) (heq : ht'.eq = ht.eq)
include hhash heq

omit [DecidableEq κ] in
/-- The calls on the list do not depend on the count. -/
theorem HashTable.onList_congr : ht'.onList = ht.onList := by
  have hfinds : ht'.finds = ht.finds := by
    funext it a
    unfold HashTable.finds
    rw [hhash, heq]
  funext xs op
  cases op with
  | search it => exact congrArg (fun test => (xs, xs.find? (test it))) hfinds
  | insert it => rfl
  | remove it => exact congrArg (fun test => (xs.eraseP (test it), xs.find? (test it))) hfinds

omit [DecidableEq κ] in
theorem HashTable.runList_congr (xs : List κ) (ops : List (HashOp κ)) :
    ht'.runList xs ops = ht.runList xs ops := by
  induction ops generalizing xs with
  | nil => rfl
  | cons op ops ih =>
    unfold HashTable.runList
    rw [HashTable.onList_congr hhash heq]
    simp only [ih]

omit [DecidableEq κ] in
theorem HashTable.valid_congr {bins : ℕ} (xs : List κ) (ops : List (HashOp κ)) :
    ht'.Valid bins xs ops ↔ ht.Valid bins xs ops := by
  induction ops generalizing xs with
  | nil => exact Iff.rfl
  | cons op ops ih =>
    unfold HashTable.Valid
    rw [HashTable.onList_congr hhash heq, ih, hhash]

end Functions

/-- The calls one after the other return what they return on the list. -/
theorem HashState.Holds.run (h : s.Holds bins xs) (ops : List (HashOp κ))
    (hvalid : s.ht.Valid bins xs ops) (hn : xs.length + ops.length < n) :
    ∃ s', s.run n ops = some (s', (s.ht.runList xs ops).2) ∧
      s'.Holds bins (s.ht.runList xs ops).1 ∧
      s'.ht.htCount = s.ht.htCount + BitVec.ofNat 8 (insertions ops) := by
  induction ops generalizing s xs with
  | nil => exact ⟨s, rfl, h, (BitVec.add_zero _).symm⟩
  | cons op ops ih =>
    rw [List.length_cons] at hn
    have hlen := s.ht.length_onList_le xs op
    obtain ⟨s₁, hexec, hholds, hhash, heq, hcount⟩ :=
      HashOp.exec_refines (n := n) h op hvalid (by omega)
    obtain ⟨s', hrun, hholds', hcount'⟩ :=
      ih hholds ((HashTable.valid_congr hhash heq _ _).mpr hvalid.2) (by omega)
    rw [HashTable.runList_congr hhash heq] at hrun hholds'
    refine ⟨s', ?_, hholds', ?_⟩
    · unfold HashState.run
      rw [hexec]
      change (s₁.run n ops >>= fun r => some (r.1, _ :: r.2)) = _
      rw [hrun]
      rfl
    · have hsplit : insertions (op :: ops) = insertions [op] + insertions ops := by
        rw [insertions, ← List.singleton_append, List.countP_append]
        rfl
      rw [hcount', hcount, hsplit, BitVec.ofNat_add, BitVec.add_assoc]

/-- Calls on a fresh table: they come to an end, what they return is what they return on the list of
the nodes in the table, of which each bucket holds its part in the order of the list, and the count
is the number of the insertions in 8 bits. -/
theorem hashTable_refines (hash : κ → ℕ) (eq : κ → κ → Bool) (m : Links ℕ κ)
    (ops : List (HashOp κ)) (hvalid : HashTable.Valid ⟨0, hash, eq⟩ bins [] ops)
    (hn : ops.length < n) :
    ∃ s', HashState.run n ⟨⟨0, hash, eq⟩, initBuckets m bins⟩ ops =
        some (s', (HashTable.runList ⟨0, hash, eq⟩ [] ops).2) ∧
      s'.Holds bins (HashTable.runList ⟨0, hash, eq⟩ [] ops).1 ∧
      s'.ht.htCount = BitVec.ofNat 8 (insertions ops) := by
  have hfresh : HashState.Holds bins ⟨⟨0, hash, eq⟩, initBuckets m bins⟩ [] :=
    ⟨List.nodup_nil, initBuckets_queue m bins⟩
  obtain ⟨s', hrun, hholds, hcount⟩ := hfresh.run ops hvalid (by rwa [List.length_nil, zero_add])
  exact ⟨s', hrun, hholds, hcount.trans (BitVec.zero_add _)⟩

/-- Two nodes that are equal to each other: the one that was inserted last hides the other until it
is removed, and the count keeps them both. -/
theorem hashTable_refines_hidden :
    ∃ s', HashState.run 6 ⟨⟨0, (· % 2), fun a b => a % 10 = b % 10⟩, initBuckets noLinks 2⟩
        [.insert 13, .insert 23, .search 3, .remove 3, .search 3] =
      some (s', [none, none, some 23, some 23, some 13]) ∧
      s'.Holds 2 [13] ∧ s'.ht.htCount = 2 :=
  hashTable_refines (· % 2) (fun a b => a % 10 = b % 10) noLinks
    [.insert 13, .insert 23, .search 3, .remove 3, .search 3]
    (by simp [HashTable.Valid, HashTable.onList]) (by decide)

end Runs

end CmtTcp
