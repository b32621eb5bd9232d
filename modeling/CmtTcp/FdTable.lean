import CmtTcp.Basic
import CmtTcp.Lib.FirstIn
import CmtTcp.Lib.Run
import Mathlib.Tactic.IntervalCases

/-!
# The descriptor table

The bitmap of `socket.c` has a bit for each descriptor, clear while it is free. `cmt_socket_find_id`
looks for the first clear bit from byte `start` on: by words of eight bytes, then by the bytes that are
left, then by the bits of the byte it found.

The word loop tests byte `i` of the bitmap where it means word `i` of what is scanned, and the bit
search divides a signed byte. `find_id_right` says when the answer is right, and that in runs that keep
to this no descriptor is handed out twice.
-/

namespace CmtTcp

open Lib (FirstIn NoneIn Run Guarded)

/-! ### Bits -/

/-- The word at byte `i`, least significant byte first. -/
def wordAt (fds : ℕ → U8) (i : ℕ) : U64 :=
  fds (i + 7) ++ fds (i + 6) ++ fds (i + 5) ++ fds (i + 4) ++ fds (i + 3) ++ fds (i + 2) ++
    fds (i + 1) ++ fds i

/-- `log2_first_set`: the number of trailing zeros, for `0` undefined. -/
def log2FirstSet (x : U64) : Option ℕ := (List.range' 0 64).find? fun k => decide (x.getLsbD k = true)

/-- The `while` loop over the bits of a `char`. A `char` is signed, and `%` and `/` go towards zero. -/
def bitSearch : ℕ → ℤ → ℕ → ℕ
  | 0, _, j => j
  | fuel + 1, bytes, j =>
    if bytes.tmod 2 ≠ 0 then bitSearch fuel (bytes.tdiv 2) (j + 1) else j

/-- A `size_t` returned as an `int`. -/
def asInt (n : ℕ) : ℤ := (BitVec.ofNat 32 n).toInt

/-- `cmt_socket_find_id`, with `startfds` the words from `fds + start` on. A byte has eight bits, so the
`while` loop ends within eight turns. -/
def findId (fds : ℕ → U8) (start maxFds : ℕ) : Option ℤ :=
  let len := (maxFds - start) / 8
  match (List.range' 0 len).find? fun i => decide (fds i ≠ 0) with
  | some i =>
    (log2FirstSet (~~~wordAt fds (start + 8 * i))).map fun k => asInt (i * 8 * 8 + start * 8 + k)
  | none =>
    let i := len * 8 + start
    match (List.range' i (maxFds - i)).find? fun i => decide (fds i ≠ 0xFF) with
    | some i => some (asInt (i * 8 + bitSearch 8 (fds i).toInt 0))
    | none => some (-1)

/-- `byte`, which has bit `j` set -/
def bitOf (j : ℕ) : U8 := 1 <<< j

/-- `cmt_socket_use_id` -/
def useId (fds : ℕ → U8) (idx : ℕ) : (ℕ → U8) × U8 :=
  let i := idx / 8
  let j := idx % 8
  let fds := Function.update fds i (fds i ||| bitOf j)
  (fds, fds i)

/-- `cmt_socket_unuse_id` -/
def unuseId (fds : ℕ → U8) (idx : ℕ) : (ℕ → U8) × U8 :=
  let i := idx / 8
  let j := idx % 8
  let fds := Function.update fds i (fds i &&& ~~~bitOf j)
  (fds, fds i)

/-! ### What the search should find -/

/-- Descriptor `k` is free. -/
def FreeId (fds : ℕ → U8) (k : ℕ) : Prop := (fds (k / 8)).getLsbD (k % 8) = false

instance FreeId.decidable (fds : ℕ → U8) : DecidablePred (FreeId fds) := fun _ =>
  inferInstanceAs (Decidable (_ = false))

/-- The first free descriptor from byte `start` on, or `-1` where there is none. -/
def FindsFirst (fds : ℕ → U8) (start maxFds : ℕ) (ret : Option ℤ) : Prop :=
  (∃ k : ℕ, ret = some (k : ℤ) ∧ FirstIn (FreeId fds) (8 * start) (8 * maxFds) k) ∨
    ret = some (-1) ∧ NoneIn (FreeId fds) (8 * start) (8 * maxFds)

/-- Each byte from `lo` to `hi` is `0xFF`. -/
def FullBytes (fds : ℕ → U8) (lo hi : ℕ) : Prop := NoneIn (fun i => fds i ≠ 0xFF) lo hi

/-- The search finds its way: the first nonzero one of the bytes that the word loop tests has the number
of the first word that is not full; or they are all zero, all words are full, and the first byte behind
them that is not full is even or below `0x80`. -/
def FindsWay (fds : ℕ → U8) (start maxFds : ℕ) : Prop :=
  let len := (maxFds - start) / 8
  (∃ i, FirstIn (fun i => fds i ≠ 0) 0 len i ∧ FullBytes fds start (start + 8 * i) ∧
      ¬FullBytes fds (start + 8 * i) (start + 8 * i + 8)) ∨
    NoneIn (fun i => fds i ≠ 0) 0 len ∧ FullBytes fds start (start + 8 * len) ∧
      ∀ i, FirstIn (fun i => fds i ≠ 0xFF) (start + 8 * len) maxFds i →
        fds i < 0x80 ∨ (fds i).getLsbD 0 = false

/-- The first free descriptor is an `int`. -/
def FitsInt (fds : ℕ → U8) (start maxFds : ℕ) : Prop :=
  ∀ k, FirstIn (FreeId fds) (8 * start) (8 * maxFds) k → k < 2 ^ 31

section Search

variable {fds : ℕ → U8} {start maxFds lo hi i k : ℕ}

/-! ### Bytes and words -/

theorem byte_full_iff (b : U8) : b ≠ 0xFF ↔ ∃ j, j < 8 ∧ b.getLsbD j = false := by
  have hones : (0xFF : U8) = BitVec.allOnes 8 := rfl
  rw [ne_eq, ← not_iff_not, not_not, hones]
  push Not
  constructor
  · rintro rfl j hj
    rw [BitVec.getLsbD_allOnes, decide_eq_true hj]
    decide
  · intro h
    apply BitVec.eq_of_getLsbD_eq
    intro j hj
    rw [BitVec.getLsbD_allOnes, decide_eq_true hj]
    exact Bool.eq_true_of_not_eq_false (h j hj)

theorem getLsbD_wordAt (fds : ℕ → U8) (i : ℕ) (hk : k < 64) :
    (wordAt fds i).getLsbD k = (fds (i + k / 8)).getLsbD (k % 8) := by
  have hnext : ∀ {n : ℕ} (x : BitVec n) (y : U8) (q r : ℕ), r < 8 →
      (x ++ y).getLsbD (8 * (q + 1) + r) = x.getLsbD (8 * q + r) := by
    intro n x y q r hr
    rw [BitVec.getLsbD_append, if_neg (by omega)]
    congr 1
    omega
  have hfirst : ∀ {n : ℕ} (x : BitVec n) (y : U8) (r : ℕ), r < 8 →
      (x ++ y).getLsbD r = y.getLsbD r := by
    intro n x y r hr
    rw [BitVec.getLsbD_append, if_pos hr]
  have hr := Nat.mod_lt k (show 8 > 0 by decide)
  have hq : k / 8 < 8 := by omega
  conv_lhs => rw [← Nat.div_add_mod k 8]
  generalize k / 8 = q at hq
  generalize k % 8 = r at hr
  unfold wordAt
  -- one byte is taken off for each multiple of eight
  interval_cases q <;> (repeat rw [hnext _ _ _ r hr]) <;> rw [Nat.mul_zero, Nat.zero_add]
  all_goals exact hfirst _ _ r hr

/-- The bit search finds the first clear bit, except in an odd byte from `0x80` on, where it finds one
that is set. -/
theorem bitSearch_spec (b : U8) (hb : b ≠ 0xFF) :
    if b < 0x80 ∨ b.getLsbD 0 = false then
      FirstIn (fun j => b.getLsbD j = false) 0 8 (bitSearch 8 b.toInt 0)
    else bitSearch 8 b.toInt 0 < 8 ∧ b.getLsbD (bitSearch 8 b.toInt 0) = true := by
  -- all bytes
  have htable : ∀ b : Fin 256, (BitVec.ofFin b : U8) ≠ 0xFF →
      if (BitVec.ofFin b : U8) < 0x80 ∨ (BitVec.ofFin b : U8).getLsbD 0 = false then
        bitSearch 8 (BitVec.ofFin b : U8).toInt 0 < 8 ∧
          (BitVec.ofFin b : U8).getLsbD (bitSearch 8 (BitVec.ofFin b : U8).toInt 0) = false ∧
          ∀ j < bitSearch 8 (BitVec.ofFin b : U8).toInt 0, (BitVec.ofFin b : U8).getLsbD j = true
      else bitSearch 8 (BitVec.ofFin b : U8).toInt 0 < 8 ∧
        (BitVec.ofFin b : U8).getLsbD (bitSearch 8 (BitVec.ofFin b : U8).toInt 0) = true := by
    decide +kernel
  have h := htable b.toFin hb
  split at h
  · rename_i hway
    rw [if_pos hway]
    exact ⟨Nat.zero_le _, h.1, h.2.1, fun j _ hj hclear => by simp [h.2.2 j hj] at hclear⟩
  · rename_i hway
    rw [if_neg hway]
    exact h

theorem freeId_mul_add {j : ℕ} (hj : j < 8) : FreeId fds (8 * i + j) ↔ (fds i).getLsbD j = false := by
  unfold FreeId
  rw [Nat.mul_add_div (by decide), Nat.div_eq_of_lt hj, Nat.add_zero, Nat.mul_add_mod,
    Nat.mod_eq_of_lt hj]

theorem exists_freeId_iff : (∃ j, j < 8 ∧ FreeId fds (8 * i + j)) ↔ fds i ≠ 0xFF := by
  rw [byte_full_iff]
  exact exists_congr fun j => and_congr_right fun hj => freeId_mul_add hj

/-- Full bytes have no free descriptor. -/
theorem fullBytes_iff : FullBytes fds lo hi ↔ NoneIn (FreeId fds) (8 * lo) (8 * hi) := by
  rw [Lib.noneIn_blocks (by decide)]
  simp only [exists_freeId_iff]
  exact Iff.rfl

theorem word_not_iff (hk : k < 64) :
    (~~~wordAt fds i).getLsbD k = true ↔ FreeId fds (8 * i + k) := by
  rw [BitVec.getLsbD_not, decide_eq_true hk, Bool.true_and, getLsbD_wordAt fds i hk,
    Bool.not_eq_true']
  unfold FreeId
  rw [Nat.mul_add_div (by decide), Nat.mul_add_mod]

/-- `log2_first_set` of the inverted word finds its first free descriptor. -/
theorem log2FirstSet_eq_some (h : FirstIn (FreeId fds) (8 * i) (8 * (i + 8)) k) :
    log2FirstSet (~~~wordAt fds i) = some (k - 8 * i) := by
  have hge := h.ge
  have hlt := h.lt
  refine (Lib.find?_eq_some_iff (Nat.zero_le 64)).mpr ⟨Nat.zero_le _, by omega, ?_, ?_⟩
  · rw [word_not_iff (by omega), Nat.add_sub_cancel' hge]
    exact h.holds
  · intro j _ hj hset
    rw [word_not_iff (by omega)] at hset
    exact h.least _ (Nat.le_add_right _ _) (by omega) hset

/-- In a full word there is nothing to find. -/
theorem log2FirstSet_eq_none (h : FullBytes fds i (i + 8)) : log2FirstSet (~~~wordAt fds i) = none := by
  refine (Lib.find?_eq_none_iff (Nat.zero_le 64)).mpr fun j _ hj hset => ?_
  rw [word_not_iff hj] at hset
  exact fullBytes_iff.mp h _ (Nat.le_add_right _ _) (by omega) hset

/-! ### Descriptors as `int` -/

theorem asInt_eq (hk : k < 2 ^ 31) : asInt k = k := by
  unfold asInt
  rw [BitVec.toInt_ofNat']
  exact Int.bmod_eq_of_le (by omega) (by omega)

theorem eq_of_asInt_eq {m : ℕ} (hm : m < 2 ^ 32) (h : asInt m = (k : ℤ)) : m = k ∧ k < 2 ^ 31 := by
  unfold asInt at h
  rw [BitVec.toInt_ofNat', Int.bmod_def] at h
  split at h <;> omega

/-! ### The ways through the search -/

theorem findId_word (hi : FirstIn (fun i => fds i ≠ 0) 0 ((maxFds - start) / 8) i)
    (hk : FirstIn (FreeId fds) (8 * (start + 8 * i)) (8 * (start + 8 * i + 8)) k) :
    findId fds start maxFds = some (asInt k) := by
  have hfind := (Lib.find?_eq_some_iff (Nat.zero_le _)).mpr hi
  have hge := hk.ge
  rw [Nat.sub_zero] at hfind
  unfold findId
  simp only [hfind, log2FirstSet_eq_some hk, Option.map_some]
  congr 2
  omega

theorem findId_word_full (hi : FirstIn (fun i => fds i ≠ 0) 0 ((maxFds - start) / 8) i)
    (hfull : FullBytes fds (start + 8 * i) (start + 8 * i + 8)) : findId fds start maxFds = none := by
  have hfind := (Lib.find?_eq_some_iff (Nat.zero_le _)).mpr hi
  rw [Nat.sub_zero] at hfind
  unfold findId
  simp only [hfind, log2FirstSet_eq_none hfull, Option.map_none]

theorem findId_byte (hstart : start ≤ maxFds)
    (hzero : NoneIn (fun i => fds i ≠ 0) 0 ((maxFds - start) / 8))
    (hi : FirstIn (fun i => fds i ≠ 0xFF) (start + 8 * ((maxFds - start) / 8)) maxFds i) :
    findId fds start maxFds = some (asInt (8 * i + bitSearch 8 (fds i).toInt 0)) := by
  have hwords := (Lib.find?_eq_none_iff (Nat.zero_le _)).mpr hzero
  have hbytes := (Lib.find?_eq_some_iff (by omega)).mpr hi
  rw [Nat.sub_zero] at hwords
  rw [Nat.add_comm start, Nat.mul_comm 8] at hbytes
  unfold findId
  simp only [hwords, hbytes]
  rw [Nat.mul_comm i]

theorem findId_full (hstart : start ≤ maxFds)
    (hzero : NoneIn (fun i => fds i ≠ 0) 0 ((maxFds - start) / 8))
    (hfull : FullBytes fds (start + 8 * ((maxFds - start) / 8)) maxFds) :
    findId fds start maxFds = some (-1) := by
  have hwords := (Lib.find?_eq_none_iff (Nat.zero_le _)).mpr hzero
  have hbytes := (Lib.find?_eq_none_iff (by omega)).mpr hfull
  rw [Nat.sub_zero] at hwords
  rw [Nat.add_comm start, Nat.mul_comm 8] at hbytes
  unfold findId
  simp only [hwords, hbytes]

/-! ### When the search is right -/

/-- Finding its way, the search finds the first free descriptor, up to its size. -/
theorem FindsWay.findId_eq (hway : FindsWay fds start maxFds) (hstart : start ≤ maxFds)
    (hk : FirstIn (FreeId fds) (8 * start) (8 * maxFds) k) :
    findId fds start maxFds = some (asInt k) := by
  rcases hway with ⟨i, hi, hfull, hword⟩ | ⟨hzero, hfull, hbyte⟩
  · have hlt := hi.lt
    rw [fullBytes_iff] at hword hfull
    -- the words in front of the one that is found are full
    obtain ⟨m, hm⟩ := FirstIn.exists_of_not_noneIn hword
    have hfirst : FirstIn (FreeId fds) (8 * start) (8 * maxFds) m :=
      (FirstIn.extend hfull hm (by omega)).mono (by omega)
    rw [hk.unique hfirst]
    exact findId_word hi hm
  · -- the bytes that are left have a first one with a free descriptor
    have hrest : ¬FullBytes fds (start + 8 * ((maxFds - start) / 8)) maxFds := by
      rw [fullBytes_iff]
      intro hnone
      exact hk.not_noneIn ((fullBytes_iff.mp hfull).append hnone)
    obtain ⟨i, hi⟩ := FirstIn.exists_of_not_noneIn hrest
    have hbits := bitSearch_spec (fds i) hi.holds
    rw [if_pos (hbyte i hi)] at hbits
    have hfirst : FirstIn (FreeId fds) (8 * start) (8 * maxFds)
        (8 * i + bitSearch 8 (fds i).toInt 0) := by
      refine FirstIn.extend (fullBytes_iff.mp hfull) ?_ (by omega)
      refine FirstIn.block (by decide) ?_ ?_
      · simpa only [exists_freeId_iff] using hi
      · refine ⟨hbits.ge, hbits.lt, (freeId_mul_add hbits.lt).mpr hbits.holds, ?_⟩
        intro j hj hlt hfree
        exact hbits.least j hj hlt ((freeId_mul_add (hlt.trans hbits.lt)).mp hfree)
    rw [hk.unique hfirst]
    exact findId_byte hstart hzero hi

/-- Finding its way, the search fails where there is nothing to find. -/
theorem FindsWay.findId_eq_neg_one (hway : FindsWay fds start maxFds) (hstart : start ≤ maxFds)
    (hnone : NoneIn (FreeId fds) (8 * start) (8 * maxFds)) :
    findId fds start maxFds = some (-1) := by
  have hall : FullBytes fds start maxFds := fullBytes_iff.mpr hnone
  rcases hway with ⟨i, hi, -, hword⟩ | ⟨hzero, -, -⟩
  · have hlt := hi.lt
    exact absurd (hall.mono (by omega) (by omega)) hword
  · exact findId_full hstart hzero (hall.mono (by omega) le_rfl)

theorem findsFirst_of_way (hstart : start ≤ maxFds) (hway : FindsWay fds start maxFds)
    (hint : FitsInt fds start maxFds) : FindsFirst fds start maxFds (findId fds start maxFds) := by
  by_cases hnone : NoneIn (FreeId fds) (8 * start) (8 * maxFds)
  · exact .inr ⟨hway.findId_eq_neg_one hstart hnone, hnone⟩
  · obtain ⟨k, hk⟩ := FirstIn.exists_of_not_noneIn hnone
    refine .inl ⟨k, ?_, hk⟩
    rw [hway.findId_eq hstart hk, asInt_eq (hint k hk)]

/-- A search that stopped at `m`, below `2^32`, and is right stopped at the first free descriptor. -/
theorem FindsFirst.firstIn {m : ℕ} (h : FindsFirst fds start maxFds (some (asInt m)))
    (hm : m < 2 ^ 32) (hsome : ¬NoneIn (FreeId fds) (8 * start) (8 * maxFds)) :
    FirstIn (FreeId fds) (8 * start) (8 * maxFds) m ∧ m < 2 ^ 31 := by
  rcases h with ⟨k, hret, hk⟩ | ⟨-, hnone⟩
  · obtain ⟨rfl, hlt⟩ := eq_of_asInt_eq hm (Option.some.inj hret)
    exact ⟨hk, hlt⟩
  · exact absurd hnone hsome

/-- In a table whose descriptors have 32 bits, a search that is right found its way. -/
theorem way_of_findsFirst (hstart : start ≤ maxFds) (hmax : maxFds ≤ 2 ^ 29)
    (h : FindsFirst fds start maxFds (findId fds start maxFds)) :
    FindsWay fds start maxFds ∧ FitsInt fds start maxFds := by
  by_cases hzero : NoneIn (fun i => fds i ≠ 0) 0 ((maxFds - start) / 8)
  · by_cases hrest : FullBytes fds (start + 8 * ((maxFds - start) / 8)) maxFds
    · -- the search fails, so nothing is free
      rw [findId_full hstart hzero hrest] at h
      rcases h with ⟨k, hret, -⟩ | ⟨-, hnone⟩
      · cases hret
      · have hall : FullBytes fds start maxFds := fullBytes_iff.mpr hnone
        refine ⟨.inr ⟨hzero, hall.mono le_rfl (by omega), fun i hi => ?_⟩, fun k hk => ?_⟩
        · exact absurd hrest hi.not_noneIn
        · exact absurd hnone hk.not_noneIn
    · obtain ⟨i, hi⟩ := FirstIn.exists_of_not_noneIn hrest
      have hge := hi.ge
      have hlt := hi.lt
      rw [findId_byte hstart hzero hi] at h
      have hbits := bitSearch_spec (fds i) hi.holds
      have hbound : bitSearch 8 (fds i).toInt 0 < 8 := by
        split at hbits
        · exact hbits.lt
        · exact hbits.1
      have hsome : ¬NoneIn (FreeId fds) (8 * start) (8 * maxFds) := by
        rw [← fullBytes_iff]
        exact fun hall => hi.holds (not_not.mp (hall i (by omega) hlt))
      obtain ⟨hfirst, hint⟩ := h.firstIn (by omega) hsome
      refine ⟨.inr ⟨hzero, ?_, fun i' hi' => ?_⟩, fun k hk => ?_⟩
      · exact fullBytes_iff.mpr (hfirst.least.mono le_rfl (by omega))
      · -- in an odd byte from `0x80` on the search stops at a descriptor in use
        obtain rfl := hi'.unique hi
        by_contra hodd
        rw [if_neg hodd] at hbits
        have hclear := (freeId_mul_add hbound).mp hfirst.holds
        rw [hbits.2] at hclear
        cases hclear
      · rwa [hk.unique hfirst]
  · obtain ⟨i, hi⟩ := FirstIn.exists_of_not_noneIn hzero
    have hlt := hi.lt
    -- the word loop stops at word `i`
    by_cases hword : FullBytes fds (start + 8 * i) (start + 8 * i + 8)
    · -- `log2_first_set(0)`
      rw [findId_word_full hi hword] at h
      rcases h with ⟨k, hret, -⟩ | ⟨hret, -⟩
      · cases hret
      · cases hret
    · have hfree := hword
      rw [fullBytes_iff] at hfree
      obtain ⟨m, hm⟩ := FirstIn.exists_of_not_noneIn hfree
      have hge := hm.ge
      have hmlt := hm.lt
      rw [findId_word hi hm] at h
      have hsome : ¬NoneIn (FreeId fds) (8 * start) (8 * maxFds) :=
        fun hnone => hnone m (by omega) (by omega) hm.holds
      obtain ⟨hfirst, hint⟩ := h.firstIn (by omega) hsome
      refine ⟨.inl ⟨i, hi, ?_, hword⟩, fun k hk => ?_⟩
      · exact fullBytes_iff.mpr (hfirst.least.mono le_rfl (by omega))
      · rwa [hk.unique hfirst]

end Search

/-! ### Runs -/

/-- The bitmap of a table and the descriptors that were handed out and not given back. -/
structure FdSys where
  fds : ℕ → U8
  inUse : Set ℕ

/-- What a caller does to the table. -/
inductive FdLabel where
  | find (start : ℕ)
  | free (k : ℕ)

/-- The caller of `cmt_socket_find_id` marks what it gets. -/
def FdSys.take (S : FdSys) : ℤ → FdSys
  | .ofNat k => { fds := (useId S.fds k).1, inUse := insert k S.inUse }
  | .negSucc _ => S

/-- A caller gives back what is in use. The number of a byte is an `int`. -/
inductive FdStep (maxFds : ℕ) : FdSys → FdLabel → FdSys → Prop
  | find {S : FdSys} {start : ℕ} {ret : ℤ} :
      start ≤ maxFds → findId S.fds start maxFds = some ret → FdStep maxFds S (.find start) (S.take ret)
  | free {S : FdSys} {k : ℕ} :
      k ∈ S.inUse → k / 8 < 2 ^ 31 →
        FdStep maxFds S (.free k) { fds := (unuseId S.fds k).1, inUse := S.inUse \ {k} }

/-- The search that is asked for finds its way to an `int`. -/
def FindsInt (maxFds : ℕ) (S : FdSys) : FdLabel → Prop
  | .find start => FindsWay S.fds start maxFds ∧ FitsInt S.fds start maxFds
  | .free _ => True

/-- The descriptors of the table that are in use are those whose bits are set. -/
structure FdSys.Tracks (maxFds : ℕ) (S : FdSys) : Prop where
  lt : ∀ k ∈ S.inUse, k < 8 * maxFds
  mem_iff : ∀ k < 8 * maxFds, k ∈ S.inUse ↔ ¬FreeId S.fds k

/-- What a search hands out was not in use, and it fails only when all descriptors from byte `start` on
are. -/
def FdGood (maxFds : ℕ) (S : FdSys) (l : FdLabel) (S' : FdSys) : Prop :=
  match l with
  | .find start =>
    (∃ k, 8 * start ≤ k ∧ k < 8 * maxFds ∧ k ∉ S.inUse ∧ S'.inUse = insert k S.inUse) ∨
      S' = S ∧ ∀ k, 8 * start ≤ k → k < 8 * maxFds → k ∈ S.inUse
  | .free k => S'.inUse = S.inUse \ {k}

section Runs

variable {maxFds k : ℕ} {S S' : FdSys} {l : FdLabel}

theorem bitOf_getLsbD : ∀ i < 8, ∀ j < 8, (bitOf i).getLsbD j = decide (j = i) := by
  decide

theorem freeId_useId {fds : ℕ → U8} (k' : ℕ) : FreeId (useId fds k).1 k' ↔ k' ≠ k ∧ FreeId fds k' := by
  have hk := Nat.mod_lt k (show 8 > 0 by decide)
  have hk' := Nat.mod_lt k' (show 8 > 0 by decide)
  unfold FreeId useId
  dsimp only
  by_cases hbyte : k' / 8 = k / 8
  · rw [hbyte, Function.update_self, BitVec.getLsbD_or, bitOf_getLsbD _ hk _ hk', Bool.or_eq_false_iff,
      and_comm, decide_eq_false_iff_not]
    refine and_congr_left' (not_congr ⟨fun h => ?_, fun h => by rw [h]⟩)
    rw [← Nat.div_add_mod k' 8, ← Nat.div_add_mod k 8, hbyte, h]
  · rw [Function.update_of_ne hbyte]
    refine (and_iff_right ?_).symm
    rintro rfl
    exact hbyte rfl

theorem freeId_unuseId {fds : ℕ → U8} (k' : ℕ) :
    FreeId (unuseId fds k).1 k' ↔ k' = k ∨ FreeId fds k' := by
  have hk := Nat.mod_lt k (show 8 > 0 by decide)
  have hk' := Nat.mod_lt k' (show 8 > 0 by decide)
  unfold FreeId unuseId
  dsimp only
  by_cases hbyte : k' / 8 = k / 8
  · rw [hbyte, Function.update_self, BitVec.getLsbD_and, BitVec.getLsbD_not, decide_eq_true hk',
      bitOf_getLsbD _ hk _ hk', Bool.true_and, Bool.and_eq_false_iff, or_comm, Bool.not_eq_false',
      decide_eq_true_iff]
    refine or_congr_left ⟨fun h => ?_, fun h => by rw [h]⟩
    rw [← Nat.div_add_mod k' 8, ← Nat.div_add_mod k 8, hbyte, h]
  · rw [Function.update_of_ne hbyte]
    refine (or_iff_right ?_).symm
    rintro rfl
    exact hbyte rfl

/-- Marking the descriptor that was found. -/
theorem FdSys.Tracks.take (h : S.Tracks maxFds) (hk : k < 8 * maxFds) : (S.take k).Tracks maxFds where
  lt := by
    rintro k' (rfl | hmem)
    · exact hk
    · exact h.lt k' hmem
  mem_iff := by
    intro k' hk'
    change k' = k ∨ k' ∈ S.inUse ↔ ¬FreeId (useId S.fds k).1 k'
    rw [freeId_useId, not_and_or, not_not, h.mem_iff k' hk']

theorem FdSys.Tracks.free (h : S.Tracks maxFds) :
    FdSys.Tracks maxFds { fds := (unuseId S.fds k).1, inUse := S.inUse \ {k} } where
  lt := fun k' hk' => h.lt k' hk'.1
  mem_iff := by
    intro k' hk'
    change k' ∈ S.inUse ∧ k' ≠ k ↔ ¬FreeId (unuseId S.fds k).1 k'
    rw [freeId_unuseId, not_or, h.mem_iff k' hk', and_comm]

/-- **One step** that finds its way is good, and keeps the bits in step. -/
theorem FdStep.good (hstep : Guarded (FindsInt maxFds) (FdStep maxFds) S l S') (h : S.Tracks maxFds) :
    S'.Tracks maxFds ∧ FdGood maxFds S l S' := by
  obtain ⟨hguard, hstep⟩ := hstep
  cases hstep with
  | @find start ret hstart hret =>
    have hfirst := findsFirst_of_way hstart hguard.1 hguard.2
    rw [hret] at hfirst
    rcases hfirst with ⟨k, hk, hfirst⟩ | ⟨hnone, hall⟩
    · -- what is found is free, so by the invariant not in use
      obtain rfl := Option.some.inj hk
      refine ⟨h.take hfirst.lt, .inl ⟨k, hfirst.ge, hfirst.lt, fun hmem => ?_, rfl⟩⟩
      exact (h.mem_iff k hfirst.lt).mp hmem hfirst.holds
    · obtain rfl := Option.some.inj hnone
      refine ⟨h, .inr ⟨rfl, fun k hge hlt => ?_⟩⟩
      exact (h.mem_iff k hlt).mpr (hall k hge hlt)
  | free _ _ => exact ⟨h.free, rfl⟩

end Runs

/-- **When a descriptor is handed out once.** `cmt_socket_find_id` is right where it finds its way to an
`int`, and in a table of at most `2^29` bytes nowhere else. In every run from a table whose bits say
what is in use, all of whose searches do so, no descriptor is handed out that is in use, and a search
fails only when all from its start on are. -/
theorem find_id_right (maxFds : ℕ) (fds : ℕ → U8) (start : ℕ) (hstart : start ≤ maxFds) (S : FdSys)
    (hS : S.Tracks maxFds) (ls : List FdLabel) :
    (FindsWay fds start maxFds ∧ FitsInt fds start maxFds →
        FindsFirst fds start maxFds (findId fds start maxFds)) ∧
      (maxFds ≤ 2 ^ 29 → FindsFirst fds start maxFds (findId fds start maxFds) →
        FindsWay fds start maxFds ∧ FitsInt fds start maxFds) ∧
      Run.Along (Guarded (FindsInt maxFds) (FdStep maxFds)) S ls (FdGood maxFds) := by
  refine ⟨fun h => findsFirst_of_way hstart h.1 h.2, way_of_findsFirst hstart, ?_⟩
  intro pre l post t u _ hrun hstep
  have htracks : t.Tracks maxFds :=
    hrun.invariant (FdSys.Tracks maxFds) hS fun t l u ht hs => (FdStep.good hs ht).1
  exact (FdStep.good hstep htracks).2

/-- A table of ten bytes with the first three descriptors in use. -/
def tenByteTable : FdSys where
  fds := fun i => if i = 0 then 7 else 0
  inUse := {k | k < 3}

theorem tenByteTable_tracks : tenByteTable.Tracks 10 where
  lt := fun _ hk => Nat.lt_trans hk (by decide)
  mem_iff := by
    show ∀ k < 8 * 10, k < 3 ↔ ¬FreeId (fun i => if i = 0 then 7 else 0) k
    decide

/-- A search of ten bytes from the first one on finds its way when that byte is not zero, and the second
is not full. -/
theorem findsInt_tenBytes {S : FdSys} (hfirst : S.fds 0 ≠ 0) (hsecond : S.fds 1 ≠ 0xFF) :
    FindsInt 10 S (.find 0) := by
  have hnone : ∀ p : ℕ → Prop, NoneIn p 0 0 := fun _ _ _ hi => absurd hi (Nat.not_lt_zero _)
  refine ⟨.inl ⟨0, ⟨le_rfl, by decide, hfirst, hnone _⟩, hnone _, fun hfull => ?_⟩, fun k hk => ?_⟩
  · exact hfull 1 (by decide) (by decide) hsecond
  · exact hk.lt.trans (by decide)

/-- The table after `3` was handed out, and `1` was given back. -/
def tenByteFreed : FdSys where
  fds := (unuseId (tenByteTable.take 3).fds 1).1
  inUse := (tenByteTable.take 3).inUse \ {1}

/-- The next free descriptor is `3`; and `1`, once it was given back. -/
theorem find_id_right_tenBytes :
    FindsFirst tenByteTable.fds 0 10 (findId tenByteTable.fds 0 10) ∧
      (∃ u : FdSys, Run (Guarded (FindsInt 10) (FdStep 10)) tenByteTable [.find 0, .free 1, .find 0] u ∧
        u.inUse = insert 1 (insert 3 {k | k < 3} \ {1})) ∧
      Run.Along (Guarded (FindsInt 10) (FdStep 10)) tenByteTable [.find 0, .free 1, .find 0]
        (FdGood 10) := by
  have hfinds : FindsInt 10 tenByteTable (.find 0) := findsInt_tenBytes (by decide) (by decide)
  obtain ⟨hfirst, -, hruns⟩ := find_id_right 10 tenByteTable.fds 0 (by decide) tenByteTable
    tenByteTable_tracks [.find 0, .free 1, .find 0]
  have htake : Guarded (FindsInt 10) (FdStep 10) tenByteTable (.find 0) (tenByteTable.take 3) :=
    ⟨hfinds, .find (by decide) (by decide)⟩
  have hfree : Guarded (FindsInt 10) (FdStep 10) (tenByteTable.take 3) (.free 1) tenByteFreed :=
    ⟨trivial, .free (.inr (show 1 < 3 by decide)) (by decide)⟩
  have hagain : Guarded (FindsInt 10) (FdStep 10) tenByteFreed (.find 0) (tenByteFreed.take 1) :=
    ⟨findsInt_tenBytes (by decide) (by decide), .find (by decide) (by decide)⟩
  exact ⟨hfirst hfinds, ⟨_, ((Run.single htake).snoc hfree).snoc hagain, rfl⟩, hruns⟩

/-- In a table of eight bytes with nothing in use the search fails, and in a byte with all descriptors
but `1` in use it finds `2`. -/
theorem find_id_wrong :
    findId (fun _ => 0) 0 8 = some (-1) ∧ ¬FindsFirst (fun _ => 0) 0 8 (findId (fun _ => 0) 0 8) ∧
      findId (fun _ => 0xFD) 0 1 = some 2 ∧ ¬FreeId (fun _ => 0xFD) 2 := by
  have hfails : findId (fun _ => 0) 0 8 = some (-1) := by decide
  refine ⟨hfails, ?_, by decide, by decide⟩
  rw [hfails]
  rintro (⟨k, hret, -⟩ | ⟨-, hnone⟩)
  · cases hret
  · exact hnone 0 (by decide) (by decide) (by decide)

end CmtTcp
