import CmtTcp.Basic
import CmtTcp.Lib.Buckets

/-!
# The flow table

The hash table of `tcp_stream_hash.c` with `hash_flow` and `equal_flow`: one chain of streams for each
bucket, linked through the streams. `ht->tqh_first` is read as the field of the bucket, and `ht_next`
and `h_next` are one link.

`flowTable_iff`: which sequences of calls on the table go as they would on a finite map. Insertion and
search do, while there are fewer than `256` streams. A removal does so only when there is nothing to remove, and
the bucket is not empty.

`tqh_last` of a bucket is written but never read, and left out.
-/

namespace CmtTcp

open Lib (Seg Chains find?_eq_some_iff_of_unique)

/-! ### Keys -/

/-- The four-tuple of a stream, in network order. -/
structure Flow where
  saddr : U32
  daddr : U32
  sport : U16
  dport : U16
deriving DecidableEq, Repr, Inhabited

def numBinsFlows : ℕ := 131072

/-- The bytes of a flow from `saddr` on, as a little endian machine holds them. -/
def Flow.key (f : Flow) : List U8 :=
  [f.saddr.extractLsb' 0 8, f.saddr.extractLsb' 8 8, f.saddr.extractLsb' 16 8, f.saddr.extractLsb' 24 8,
   f.daddr.extractLsb' 0 8, f.daddr.extractLsb' 8 8, f.daddr.extractLsb' 16 8, f.daddr.extractLsb' 24 8,
   f.sport.extractLsb' 0 8, f.sport.extractLsb' 8 8, f.dport.extractLsb' 0 8, f.dport.extractLsb' 8 8]

/-- A turn of the loop of `hash_flow`; a `char` is signed. -/
def hashByte (hash : U32) (byte : U8) : U32 :=
  let hash := hash + byte.signExtend 32
  let hash := hash + (hash <<< 10)
  hash ^^^ (hash >>> 6)

/-- `hash_flow` -/
def hashFlow (f : Flow) : ℕ :=
  let hash := f.key.foldl hashByte 0
  let hash := hash + (hash <<< 3)
  let hash := hash ^^^ (hash >>> 11)
  let hash := hash + (hash <<< 15)
  (hash &&& BitVec.ofNat 32 (numBinsFlows - 1)).toNat

/-- `equal_flow` -/
def equalFlow (f₁ f₂ : Flow) : Bool :=
  f₁.saddr = f₂.saddr ∧ f₁.sport = f₂.sport ∧ f₁.daddr = f₂.daddr ∧ f₁.dport = f₂.dport

@[simp] theorem equalFlow_iff {f₁ f₂ : Flow} : equalFlow f₁ f₂ = true ↔ f₁ = f₂ := by
  unfold equalFlow
  rw [decide_eq_true_iff]
  constructor
  · rintro ⟨hsaddr, hsport, hdaddr, hdport⟩
    cases f₁
    cases f₂
    dsimp only at hsaddr hsport hdaddr hdport
    rw [hsaddr, hsport, hdaddr, hdport]
  · rintro rfl
    exact ⟨rfl, rfl, rfl, rfl⟩

/-! ### The table -/

/-- `cmt_tcp_hashtable_t` with the links of the streams in it, and the four-tuples of all streams. -/
structure FlowTable where
  /-- `ht_stream[idx].tqh_first` -/
  first : ℕ → Option Addr
  htNext : Addr → Option Addr
  htCount : U8
  flow : Addr → Flow

/-- The ways for a call not to return. -/
inductive HtStop
  /-- an access through `NULL` -/
  | nullDeref
  /-- a chain that the given number of turns does not get to the end of -/
  | endless
deriving DecidableEq, Repr

namespace FlowTable

/-- `create_stream_hashtable` -/
def create (flow : Addr → Flow) : FlowTable := ⟨fun _ => none, fun _ => none, 0, flow⟩

/-- `stream_ht_insert` -/
def insert (t : FlowTable) (it : Addr) : FlowTable :=
  let idx := hashFlow (t.flow it)
  { t with
    htNext := Function.update t.htNext it (t.first idx)
    first := Function.update t.first idx (some it)
    htCount := t.htCount + 1 }

/-- The loop of `stream_ht_search` from `walk` on. -/
def searchLoop (t : FlowTable) (it : Flow) : ℕ → Option Addr → Except HtStop (Option Addr)
  | 0, _ => .error .endless
  | _ + 1, none => .ok none
  | n + 1, some walk =>
    if equalFlow (t.flow walk) it then .ok (some walk) else searchLoop t it n (t.htNext walk)

/-- `stream_ht_search` for a stream with the four-tuple `it`, for at most `n` turns. -/
def search (t : FlowTable) (n : ℕ) (it : Flow) : Except HtStop (Option Addr) :=
  searchLoop t it n (t.first (hashFlow it))

/-- The loop of `stream_ht_remove` from `walk` on. What it unlinks is the stream behind the one it
returns. -/
def removeLoop (t : FlowTable) (it : Flow) : ℕ → Addr → Except HtStop (FlowTable × Option Addr)
  | 0, _ => .error .endless
  | n + 1, walk =>
    match t.htNext walk with
    | none => .ok (t, none)
    | some next =>
      if equalFlow (t.flow next) it then
        .ok ({ t with htNext := Function.update t.htNext walk (t.htNext next) }, some walk)
      else removeLoop t it n next

/-- `stream_ht_remove`. A first stream that matches is unlinked, and the loop goes on from it. -/
def remove (t : FlowTable) (n : ℕ) (it : Flow) : Except HtStop (FlowTable × Option Addr) :=
  let idx := hashFlow it
  match t.first idx with
  | none => .error .nullDeref
  | some walk =>
    let t :=
      if equalFlow (t.flow walk) it then
        { t with first := Function.update t.first idx (t.htNext walk) }
      else t
    removeLoop t it n walk

end FlowTable

/-! ### Calls, and what they mean for a finite map -/

/-- The calls on a table. -/
inductive HtOp
  | insert (it : Addr)
  | remove (it : Flow)
  | search (it : Flow)

/-- A call, where loops are given `n` turns; `stream_ht_insert` returns no stream. -/
def FlowTable.exec (t : FlowTable) (n : ℕ) : HtOp → Except HtStop (FlowTable × Option Addr)
  | .insert it => .ok (t.insert it, none)
  | .remove it => t.remove n it
  | .search it => (t.search n it).map fun r => (t, r)

namespace HtOp

variable (flow : Addr → Flow) (present : List Addr)

/-- The stream of a four-tuple, among the streams `present`. -/
def lookup (it : Flow) : Option Addr := present.find? fun a => flow a = it

/-- What a call does to the streams `present`, and what it returns. -/
def onMap : HtOp → List Addr × Option Addr
  | insert it => (it :: present, none)
  | remove it => (present.filter fun a => flow a ≠ it, lookup flow present it)
  | search it => (present, lookup flow present it)

/-- A stream is inserted when its four-tuple is not present. -/
def Valid : HtOp → Prop
  | insert it => ∀ a ∈ present, flow a ≠ flow it
  | remove _ => True
  | search _ => True

/-- The calls that the table does right: an insertion that the counter has room for, a removal that
finds a stream in the bucket but none with its four-tuple, and every search. -/
def Fine : HtOp → Prop
  | insert _ => present.length < 255
  | remove it => (∀ a ∈ present, flow a ≠ it) ∧ ∃ a ∈ present, hashFlow (flow a) = hashFlow it
  | search _ => True

/-- Every call of a sequence satisfies `φ` at its turn. -/
def Throughout (φ : List Addr → HtOp → Prop) : List Addr → List HtOp → Prop
  | _, [] => True
  | present, op :: ops => φ present op ∧ Throughout φ (op.onMap flow present).1 ops

end HtOp

/-- The table is the finite map with the streams `present`. -/
structure FlowTable.Represents (t : FlowTable) (present : List Addr) : Prop where
  search : ∀ n, present.length < n → ∀ it, t.search n it = .ok (HtOp.lookup t.flow present it)
  count : t.htCount.toNat = present.length

/-- Every call of a sequence returns what it returns on the finite map, and leaves the table that the
map then is. -/
def FlowTable.Agrees (t : FlowTable) (present : List Addr) : List HtOp → Prop
  | [] => True
  | op :: ops => ∃ t' : FlowTable,
      (∀ n, present.length < n → t.exec n op = .ok (t', (op.onMap t.flow present).2)) ∧
        t'.Represents (op.onMap t.flow present).1 ∧ t'.Agrees (op.onMap t.flow present).1 ops

/-! ### Chains -/

/-- The streams of each bucket are those that hash to it. -/
structure FlowTable.Chained (t : FlowTable) (present : List Addr) : Prop where
  chain : ∀ i, ∃ l, Seg t.htNext (t.first i) l none ∧ l.Nodup ∧
    ∀ a, a ∈ l ↔ a ∈ present ∧ hashFlow (t.flow a) = i
  nodup : present.Nodup
  keys : ∀ a ∈ present, ∀ b ∈ present, t.flow a = t.flow b → a = b
  count : t.htCount.toNat = present.length

namespace FlowTable

variable {t t' : FlowTable} {present l : List Addr} {it : Flow} {n : ℕ} {a walk : Addr}
  {p : Option Addr} {r : Option Addr}

theorem create_chained (flow : Addr → Flow) : (create flow).Chained [] where
  chain _ := ⟨[], rfl, List.nodup_nil, fun a => by simp⟩
  nodup := List.nodup_nil
  keys a ha := absurd ha List.not_mem_nil
  count := rfl

/-- The removal along a chain without the four-tuple. -/
theorem removeLoop_absent (hseg : Seg t.htNext (t.htNext walk) l none)
    (habsent : ∀ a ∈ l, t.flow a ≠ it) (hn : l.length < n) :
    removeLoop t it n walk = .ok (t, none) := by
  induction l generalizing walk n with
  | nil =>
    obtain ⟨n, rfl⟩ : ∃ k, n = k + 1 := ⟨n - 1, by omega⟩
    have hend : t.htNext walk = none := hseg
    unfold removeLoop
    rw [hend]
  | cons a l ih =>
    obtain ⟨n, rfl⟩ : ∃ k, n = k + 1 := ⟨n - 1, by omega⟩
    obtain ⟨hnext, hrest⟩ := hseg
    obtain ⟨ha, hl⟩ := List.forall_mem_cons.mp habsent
    rw [List.length_cons] at hn
    unfold removeLoop
    rw [hnext]
    dsimp only
    rw [if_neg fun h => ha (equalFlow_iff.mp h)]
    exact ih hrest hl (by omega)

/-- What the removal returns is a stream in front of one with the four-tuple. -/
theorem removeLoop_returns (h : removeLoop t it n walk = .ok (t', some a)) :
    ∃ next, t.htNext a = some next ∧ t.flow next = it := by
  induction n generalizing walk with
  | zero => cases h
  | succ n ih =>
    unfold removeLoop at h
    cases hnext : t.htNext walk with
    | none =>
      rw [hnext] at h
      cases h
    | some next =>
      rw [hnext] at h
      dsimp only at h
      by_cases heq : t.flow next = it
      · rw [if_pos (equalFlow_iff.mpr heq)] at h
        cases h
        exact ⟨next, hnext, heq⟩
      · rw [if_neg fun h => heq (equalFlow_iff.mp h)] at h
        exact ih h

/-! ### Calls on chains -/

theorem lookup_eq_some_iff {flow : Addr → Flow}
    (hkeys : ∀ a ∈ present, ∀ b ∈ present, flow a = flow b → a = b) :
    HtOp.lookup flow present it = some a ↔ a ∈ present ∧ flow a = it := by
  unfold HtOp.lookup
  rw [find?_eq_some_iff_of_unique, decide_eq_true_iff]
  intro a ha b hb hait hbit
  exact hkeys a ha b hb ((of_decide_eq_true hait).trans (of_decide_eq_true hbit).symm)

theorem lookup_eq_none_iff {flow : Addr → Flow} :
    HtOp.lookup flow present it = none ↔ ∀ a ∈ present, flow a ≠ it := by
  unfold HtOp.lookup
  simp

namespace Chained

/-- The chain of a bucket holds at most all streams. -/
theorem bucket (h : t.Chained present) (i : ℕ) : ∃ l, Seg t.htNext (t.first i) l none ∧ l.Nodup ∧
    (∀ a, a ∈ l ↔ a ∈ present ∧ hashFlow (t.flow a) = i) ∧ l.length ≤ present.length := by
  obtain ⟨l, hseg, hnodup, hmem⟩ := h.chain i
  refine ⟨l, hseg, hnodup, hmem, ?_⟩
  exact (hnodup.subperm fun a ha => ((hmem a).mp ha).1).length_le

theorem chains (h : t.Chained present) :
    Chains t.first t.htNext (fun a => hashFlow (t.flow a)) present := by
  intro i
  obtain ⟨l, hseg, -, hmem⟩ := h.chain i
  exact ⟨l, hseg, hmem⟩

/-- A table with right chains and a right counter is the map. -/
theorem represents (h : t.Chained present) : t.Represents present where
  search := by
    intro n hn it
    have htest : (fun a => equalFlow (t.flow a) it) = fun a => decide (t.flow a = it) := by
      funext a
      rw [Bool.eq_iff_iff, equalFlow_iff, decide_eq_true_iff]
    unfold HtOp.lookup
    rw [← htest]
    refine @Chains.search _ _ _ t.first t.htNext (fun a => hashFlow (t.flow a)) present (hashFlow it)
      (fun a => equalFlow (t.flow a) it) (t.searchLoop it) Except.ok n h.chains hn
      ?_ ?_ (fun _ => rfl) fun _ _ => rfl
    · intro a _ ha
      exact congrArg hashFlow (equalFlow_iff.mp ha)
    · intro a ha b hb hait hbit
      exact h.keys a ha b hb ((equalFlow_iff.mp hait).trans (equalFlow_iff.mp hbit).symm)
  count := h.count

theorem insert {it : Addr} (h : t.Chained present) (hnew : ∀ a ∈ present, t.flow a ≠ t.flow it)
    (hroom : present.length < 255) : (t.insert it).Chained (it :: present) where
  chain := by
    intro i
    obtain ⟨l, hseg, hmem⟩ := h.chains.push (fun hit => hnew it hit rfl) i
    exact ⟨l, hseg, hseg.nodup, hmem⟩
  nodup := List.nodup_cons.mpr ⟨fun hmem => hnew it hmem rfl, h.nodup⟩
  keys := by
    intro a ha b hb heq
    rcases List.mem_cons.mp ha with hai | hap
    · rcases List.mem_cons.mp hb with hbi | hbp
      · rw [hai, hbi]
      · exact absurd (heq.symm.trans (congrArg t.flow hai)) (hnew b hbp)
    · rcases List.mem_cons.mp hb with hbi | hbp
      · exact absurd (heq.trans (congrArg t.flow hbi)) (hnew a hap)
      · exact h.keys a hap b hbp heq
  count := by
    have hcount := h.count
    change (t.htCount + 1).toNat = (it :: present).length
    rw [List.length_cons]
    bv_omega

/-- A removal that finds the bucket occupied but not the four-tuple. -/
theorem remove_absent (h : t.Chained present) (habsent : ∀ a ∈ present, t.flow a ≠ it)
    (ha : a ∈ present) (hash : hashFlow (t.flow a) = hashFlow it) (hn : present.length < n) :
    t.remove n it = .ok (t, none) := by
  obtain ⟨l, hseg, -, hmem, hlen⟩ := h.bucket (hashFlow it)
  cases l with
  | nil => exact absurd ((hmem a).mpr ⟨ha, hash⟩) List.not_mem_nil
  | cons walk l =>
    obtain ⟨hfirst, hrest⟩ := hseg
    have hall : ∀ b ∈ walk :: l, t.flow b ≠ it := fun b hb => habsent b ((hmem b).mp hb).1
    obtain ⟨hwalk, hl⟩ := List.forall_mem_cons.mp hall
    rw [List.length_cons] at hlen
    unfold remove
    dsimp only
    rw [hfirst]
    dsimp only
    rw [if_neg fun heq => hwalk (equalFlow_iff.mp heq)]
    exact removeLoop_absent hrest hl (by omega)

/-- A removal never returns the stream that it is to remove. -/
theorem remove_ne (h : t.Chained present) (ha : a ∈ present) (hflow : t.flow a = it) :
    t.remove n it ≠ .ok (t', some a) := by
  intro hremove
  -- the loop runs on the links and the four-tuples as they were
  obtain ⟨next, hnext, heq⟩ : ∃ next, t.htNext a = some next ∧ t.flow next = it := by
    unfold remove at hremove
    dsimp only at hremove
    cases hfirst : t.first (hashFlow it) with
    | none =>
      rw [hfirst] at hremove
      cases hremove
    | some walk =>
      rw [hfirst] at hremove
      dsimp only at hremove
      split at hremove
      · exact (removeLoop_returns hremove :)
      · exact removeLoop_returns hremove
  obtain ⟨l, hseg, hnodup, hmem⟩ := h.chain (hashFlow it)
  obtain ⟨hl, hne⟩ := hseg.next_mem hnodup ((hmem a).mpr ⟨ha, by rw [hflow]⟩) hnext
  exact hne (h.keys next ((hmem next).mp hl).1 a ha (heq.trans hflow.symm))

/-- A removal from an empty bucket goes through `NULL`. -/
theorem remove_empty (h : t.Chained present)
    (hempty : ∀ a ∈ present, hashFlow (t.flow a) ≠ hashFlow it) :
    t.remove n it = .error .nullDeref := by
  obtain ⟨l, hseg, -, hmem⟩ := h.chain (hashFlow it)
  cases l with
  | nil =>
    have hfirst : t.first (hashFlow it) = none := hseg
    unfold remove
    dsimp only
    rw [hfirst]
  | cons a l =>
    obtain ⟨ha, hash⟩ := (hmem a).mp List.mem_cons_self
    exact absurd hash (hempty a ha)

end Chained

/-! ### Sequences of calls -/

/-- The call does on the table what it does on the map. -/
def AgreesOn (t : FlowTable) (present : List Addr) (op : HtOp) (t' : FlowTable) : Prop :=
  (∀ n, present.length < n → t.exec n op = .ok (t', (op.onMap t.flow present).2)) ∧
    t'.Represents (op.onMap t.flow present).1

/-- A call on the table that it does right. -/
theorem Chained.fine {op : HtOp} (h : t.Chained present) (hvalid : op.Valid t.flow present)
    (hfine : op.Fine t.flow present) :
    ∃ t', t.AgreesOn present op t' ∧ t'.flow = t.flow ∧ t'.Chained (op.onMap t.flow present).1 := by
  cases op with
  | insert it =>
    have h' := h.insert hvalid hfine
    exact ⟨t.insert it, ⟨fun _ _ => rfl, h'.represents⟩, rfl, h'⟩
  | remove it =>
    -- there is nothing to remove from the map, and the table returns `NULL` as it is
    obtain ⟨habsent, a, ha, hash⟩ := hfine
    have hsame : (HtOp.onMap t.flow present (.remove it)).1 = present :=
      List.filter_eq_self.mpr fun b hb => by simpa using habsent b hb
    have hnone : (HtOp.onMap t.flow present (.remove it)).2 = none :=
      lookup_eq_none_iff.mpr habsent
    refine ⟨t, ⟨fun n hn => ?_, ?_⟩, rfl, ?_⟩
    · rw [hnone]
      exact h.remove_absent habsent ha hash hn
    · rw [hsame]
      exact h.represents
    · rwa [hsame]
  | search it =>
    refine ⟨t, ⟨fun n hn => ?_, h.represents⟩, rfl, h⟩
    unfold exec
    dsimp only
    rw [h.represents.search n hn it]
    rfl

/-- A call on the table that it does not do right. -/
theorem Chained.not_fine {op : HtOp} (h : t.Chained present) (hagree : t.AgreesOn present op t') :
    op.Fine t.flow present := by
  obtain ⟨hexec, hrep⟩ := hagree
  have hcall := hexec (present.length + 1) (Nat.lt_succ_self _)
  cases op with
  | insert it =>
    -- the counter is a byte
    have hcount := hrep.count
    have hlt := t'.htCount.isLt
    change _ = (it :: present).length at hcount
    rw [List.length_cons] at hcount
    change present.length < 255
    omega
  | remove it =>
    change t.remove (present.length + 1) it = .ok (t', HtOp.lookup t.flow present it) at hcall
    constructor
    · intro a ha hflow
      rw [(lookup_eq_some_iff h.keys).mpr ⟨ha, hflow⟩] at hcall
      exact h.remove_ne ha hflow hcall
    · by_contra hempty
      push Not at hempty
      rw [h.remove_empty hempty] at hcall
      cases hcall
  | search it => trivial

/-- From a table with right chains on. -/
theorem Chained.agrees_iff (h : t.Chained present) (ops : List HtOp)
    (hvalid : HtOp.Throughout t.flow (HtOp.Valid t.flow) present ops) :
    t.Agrees present ops ↔ HtOp.Throughout t.flow (HtOp.Fine t.flow) present ops := by
  induction ops generalizing t present with
  | nil => exact Iff.rfl
  | cons op ops ih =>
    obtain ⟨hop, hops⟩ := hvalid
    constructor
    · rintro ⟨t', hexec, hrep, hrest⟩
      have hfine := h.not_fine ⟨hexec, hrep⟩
      refine ⟨hfine, ?_⟩
      -- a call has one outcome
      obtain ⟨u, hagree, hflow, h'⟩ := h.fine hop hfine
      have hu := hagree.1 (present.length + 1) (Nat.lt_succ_self _)
      rw [hexec (present.length + 1) (Nat.lt_succ_self _)] at hu
      obtain rfl : t' = u := congrArg Prod.fst (Except.ok.inj hu)
      have hiff := ih h' (by rwa [hflow])
      rw [hflow] at hiff
      exact hiff.mp hrest
    · rintro ⟨hfine, hrest⟩
      obtain ⟨t', hagree, hflow, h'⟩ := h.fine hop hfine
      have hiff := ih h' (by rwa [hflow])
      rw [hflow] at hiff
      exact ⟨t', hagree.1, hagree.2, hiff.mpr hrest⟩

end FlowTable

/-- **The table as a finite map.** A sequence of calls on an empty table, in which streams are inserted
when their four-tuple is not present, does what it does on a finite map from four-tuples to streams
exactly when every insertion is one of the first `255` and every removal is of a four-tuple that is
absent, from a bucket that is not empty. -/
theorem flowTable_iff (flow : Addr → Flow) (ops : List HtOp)
    (hvalid : HtOp.Throughout flow (HtOp.Valid flow) [] ops) :
    (FlowTable.create flow).Agrees [] ops ↔ HtOp.Throughout flow (HtOp.Fine flow) [] ops :=
  (FlowTable.create_chained flow).agrees_iff ops hvalid

/-- The streams of two clients of one server, whose ports hash to one bucket. -/
def clientFlow (a : Addr) : Flow where
  saddr := 0x0A00000A
  daddr := 0x0100000A
  sport := if a = 1 then 0x0461 else 0x0997
  dport := 0x5000

theorem clientFlow_bucket : hashFlow (clientFlow 1) = hashFlow (clientFlow 2) := by decide +kernel

/-- The second stream is removed before it is inserted, from the bucket of the first; then both are
inserted and found. -/
theorem flowTable_iff_bucket :
    (FlowTable.create clientFlow).Agrees []
      [.insert 1, .remove (clientFlow 2), .insert 2, .search (clientFlow 1), .search (clientFlow 2)] := by
  have hne : clientFlow 1 ≠ clientFlow 2 := by decide
  have hvalid : HtOp.Throughout clientFlow (HtOp.Valid clientFlow) []
      [.insert 1, .remove (clientFlow 2), .insert 2, .search (clientFlow 1),
        .search (clientFlow 2)] := by
    refine ⟨fun _ h => absurd h List.not_mem_nil, trivial, ?_, trivial, trivial, trivial⟩
    intro a ha
    obtain rfl := List.mem_singleton.mp ha
    exact hne
  have hroom : ∀ n : ℕ, n < 2 → n < 255 := fun n hn => hn.trans (by decide)
  refine (flowTable_iff clientFlow _ hvalid).mpr ⟨hroom 0 (by decide), ⟨?_, 1, ?_, clientFlow_bucket⟩,
    hroom 1 (by decide), trivial, trivial, trivial⟩
  · intro a ha
    obtain rfl := List.mem_singleton.mp ha
    exact hne
  · exact List.mem_singleton_self 1

/-- A stream is inserted and removed again: the removal returns `NULL`. -/
theorem flowTable_removes_nothing :
    ¬(FlowTable.create fun _ => default).Agrees [] [.insert 1, .remove default] := by
  rintro ⟨t, hinsert, -, u, hremove, -⟩
  have ht := hinsert 1 (by decide)
  have hu := hremove 2 (by decide)
  cases ht
  have hchained := @FlowTable.Chained.insert _ _ 1 (FlowTable.create_chained fun _ => default)
    (fun _ h => absurd h List.not_mem_nil) (by decide)
  exact hchained.remove_ne (a := 1) List.mem_cons_self rfl hu

end CmtTcp
