import Mathlib.Data.List.Basic
import Mathlib.Data.Nat.Notation

/-!
# Copying between two memories

A `Move` copies a block of one memory to another one. What a list of moves leaves at an address comes
from one place of the source or was there before (`origin`, `moveAll_apply`). Two lists are the `Same`
copy when each address gets its content from the same place, and when they read the same places: a block
may be copied in one piece or in several (`Same.merge`), however a loop is unrolled.

`slotMoves` copies elements from slot to slot; where no two go to one slot, each arrives
(`origin_slotMoves`), and adjacent slots are one block (`slotMoves_same_block`).
-/

namespace Lib

variable {β : Type*}

/-- `len` cells from `src` of one memory go to `dst` of the other one. -/
structure Move where
  dst : ℕ
  src : ℕ
  len : ℕ

namespace Move

variable {m : Move} {a b : ℕ}

/-- The move writes the address `a`. -/
def Writes (m : Move) (a : ℕ) : Prop := m.dst ≤ a ∧ a < m.dst + m.len

instance Writes.decidable (m : Move) : DecidablePred m.Writes := fun _ =>
  inferInstanceAs (Decidable (_ ∧ _))

/-- The move reads the address `b` of the source. -/
def Reads (m : Move) (b : ℕ) : Prop := m.src ≤ b ∧ b < m.src + m.len

/-- The move, on the memory `mem`. -/
def run (src mem : ℕ → β) (m : Move) : ℕ → β := fun a =>
  if m.Writes a then src (m.src + (a - m.dst)) else mem a

/-- Where the content of `a` comes from, if the move writes it. -/
def origin (m : Move) (a : ℕ) : Option ℕ := if m.Writes a then some (m.src + (a - m.dst)) else none

theorem origin_eq_some (h : m.Writes a) : m.origin a = some (m.src + (a - m.dst)) := if_pos h

theorem origin_eq_none_iff : m.origin a = none ↔ ¬m.Writes a := by
  unfold origin
  rw [ite_eq_right_iff, imp_iff_not (Option.some_ne_none _)]

end Move

/-- One move after the other. -/
def moveAll (src : ℕ → β) (ms : List Move) (mem : ℕ → β) : ℕ → β := ms.foldl (Move.run src) mem

/-- Where the content of `a` comes from after the moves: the last one that writes it decides. -/
def origin : List Move → ℕ → Option ℕ
  | [], _ => none
  | m :: ms, a => (origin ms a).or (m.origin a)

/-- Some move writes the address `a`. -/
def Writes (ms : List Move) (a : ℕ) : Prop := ∃ m ∈ ms, m.Writes a

/-- Some move reads the address `b`. -/
def Reads (ms : List Move) (b : ℕ) : Prop := ∃ m ∈ ms, m.Reads b

variable {ms ms' ns ns' : List Move} {src mem : ℕ → β} {a b d s e l l' n : ℕ}

/-! ### Origins -/

theorem moveAll_apply : moveAll src ms mem a = ((origin ms a).map src).getD (mem a) := by
  unfold moveAll
  induction ms generalizing mem with
  | nil => rfl
  | cons m ms ih =>
    rw [List.foldl_cons, ih, origin]
    cases origin ms a with
    | some b => rfl
    | none =>
      rw [Option.none_or]
      unfold Move.run Move.origin
      split <;> rfl

theorem moveAll_append : moveAll src (ms ++ ns) mem = moveAll src ns (moveAll src ms mem) :=
  List.foldl_append

theorem moveAll_of_origin (h : origin ms a = some b) : moveAll src ms mem a = src b := by
  rw [moveAll_apply, h]
  rfl

theorem origin_append : origin (ms ++ ns) a = (origin ns a).or (origin ms a) := by
  induction ms with
  | nil => rw [List.nil_append, origin, Option.or_none]
  | cons m ms ih => rw [List.cons_append, origin, ih, origin, Option.or_assoc]

theorem origin_singleton {m : Move} : origin [m] a = m.origin a := by
  rw [origin, origin, Option.none_or]

theorem origin_eq_none_iff : origin ms a = none ↔ ¬Writes ms a := by
  unfold Writes
  induction ms with
  | nil => simp [origin]
  | cons m ms ih =>
    rw [origin, Option.or_eq_none_iff, ih, Move.origin_eq_none_iff, List.exists_mem_cons_iff, not_or,
      and_comm]

theorem moveAll_of_not_writes (h : ¬Writes ms a) : moveAll src ms mem a = mem a := by
  rw [moveAll_apply, origin_eq_none_iff.mpr h]
  rfl

/-- Where all moves that write an address agree on its origin. -/
theorem origin_eq_some_of_forall {m : Move} (hm : m ∈ ms) (hw : m.Writes a)
    (hall : ∀ m' ∈ ms, m'.Writes a → m' = m) : origin ms a = some (m.src + (a - m.dst)) := by
  induction ms with
  | nil => cases hm
  | cons m' ms ih =>
    rw [origin]
    by_cases hms : Writes ms a
    · obtain ⟨m'', hm'', hw''⟩ := hms
      obtain rfl := hall m'' (List.mem_cons_of_mem _ hm'') hw''
      rw [ih hm'' fun m' hm' => hall m' (List.mem_cons_of_mem _ hm')]
      rfl
    · rw [origin_eq_none_iff.mpr hms, Option.none_or]
      rcases List.mem_cons.mp hm with rfl | hmem
      · exact Move.origin_eq_some hw
      · exact absurd ⟨m, hmem, hw⟩ hms

/-! ### The same copy -/

/-- The two lists bring the same content to the same addresses, and read the same. -/
structure Same (ms ms' : List Move) : Prop where
  origin : ∀ a, origin ms a = origin ms' a
  reads : ∀ b, Reads ms b ↔ Reads ms' b

namespace Same

theorem refl (ms : List Move) : Same ms ms := ⟨fun _ => rfl, fun _ => Iff.rfl⟩

theorem symm (h : Same ms ms') : Same ms' ms := ⟨fun a => (h.origin a).symm, fun b => (h.reads b).symm⟩

theorem trans (h : Same ms ms') (h' : Same ms' ns) : Same ms ns :=
  ⟨fun a => (h.origin a).trans (h'.origin a), fun b => (h.reads b).trans (h'.reads b)⟩

theorem writes (h : Same ms ms') : Writes ms a ↔ Writes ms' a := by
  rw [← not_iff_not, ← origin_eq_none_iff, ← origin_eq_none_iff, h.origin a]

theorem moveAll (h : Same ms ms') : Lib.moveAll src ms mem = Lib.moveAll src ms' mem := by
  funext a
  rw [moveAll_apply, moveAll_apply, h.origin a]

theorem append (h : Same ms ms') (h' : Same ns ns') : Same (ms ++ ns) (ms' ++ ns') where
  origin := by
    intro a
    rw [origin_append, origin_append, h.origin a, h'.origin a]
  reads := by
    intro b
    unfold Reads
    simp only [List.mem_append, or_and_right, exists_or]
    exact or_congr (h.reads b) (h'.reads b)

/-- An empty block. -/
theorem nil : Same [] [⟨d, s, 0⟩] where
  origin := by
    intro a
    rw [origin_singleton]
    have hempty : ¬Move.Writes ⟨d, s, 0⟩ a := fun hw => Nat.not_lt.mpr hw.1 hw.2
    exact (Move.origin_eq_none_iff.mpr hempty).symm
  reads := by
    intro b
    unfold Reads Move.Reads
    simp only [List.not_mem_nil, false_and, exists_false, List.mem_singleton, exists_eq_left,
      false_iff]
    omega

/-- Two adjacent blocks are one. -/
theorem merge : Same [⟨d, s, l⟩, ⟨d + l, s + l, l'⟩] [⟨d, s, l + l'⟩] where
  origin := by
    intro a
    rw [origin_singleton, Lib.origin, origin_singleton]
    have hwrites {d' s' n : ℕ} : Move.Writes ⟨d', s', n⟩ a ↔ d' ≤ a ∧ a < d' + n := Iff.rfl
    by_cases hsecond : Move.Writes ⟨d + l, s + l, l'⟩ a
    · have hat := hwrites.mp hsecond
      rw [Move.origin_eq_some hsecond, Option.some_or, Move.origin_eq_some (hwrites.mpr (by omega))]
      dsimp only
      congr 1
      omega
    · have hnot := hwrites.not.mp hsecond
      rw [Move.origin_eq_none_iff.mpr hsecond, Option.none_or]
      by_cases hfirst : Move.Writes ⟨d, s, l⟩ a
      · have hat := hwrites.mp hfirst
        rw [Move.origin_eq_some hfirst, Move.origin_eq_some (hwrites.mpr (by omega))]
      · have hnot' := hwrites.not.mp hfirst
        rw [Move.origin_eq_none_iff.mpr hfirst, eq_comm, Move.origin_eq_none_iff, hwrites]
        omega
  reads := by
    intro b
    unfold Reads Move.Reads
    simp only [List.mem_cons, List.not_mem_nil, or_false, exists_eq_or_imp, exists_eq_left]
    omega

/-- A copy of one block, and behind it one of the next. -/
theorem join (h : Same ms [⟨d, s, l⟩]) (h' : Same ns [⟨d + l, s + l, l'⟩]) :
    Same (ms ++ ns) [⟨d, s, l + l'⟩] := (h.append h').trans merge

end Same

/-! ### Slots -/

/-- For each `j < n`, the `e` cells of slot `q j` go to slot `p j`. -/
def slotMoves (e n : ℕ) (p q : ℕ → ℕ) : List Move :=
  (List.range n).map fun j => ⟨e * p j, e * q j, e⟩

section Slots

variable {p p' q q' : ℕ → ℕ} {i j k m : ℕ}

theorem slotMoves_congr (hp : ∀ j < n, p j = p' j) (hq : ∀ j < n, q j = q' j) :
    slotMoves e n p q = slotMoves e n p' q' := by
  refine List.map_congr_left fun j hj => ?_
  rw [hp j (List.mem_range.mp hj), hq j (List.mem_range.mp hj)]

/-- The first `m` elements, and those behind them. -/
theorem slotMoves_split (h : m ≤ n) (p q : ℕ → ℕ) :
    slotMoves e n p q =
      slotMoves e m p q ++ slotMoves e (n - m) (fun j => p (m + j)) fun j => q (m + j) := by
  unfold slotMoves
  conv_lhs => rw [← Nat.add_sub_cancel' h, List.range_add]
  rw [List.map_append, List.map_map]
  rfl

/-- Adjacent slots are one block. -/
theorem slotMoves_same_block :
    Same (slotMoves e n (fun j => d + j) fun j => s + j) [⟨e * d, e * s, e * n⟩] := by
  unfold slotMoves
  simp only [Nat.mul_add]
  induction n with
  | zero => exact Same.nil
  | succ n ih =>
    rw [List.range_succ, List.map_append]
    exact ih.join (Same.refl _)

/-- A cell is in one slot. -/
theorem slot_eq (hb : b < e) (h : e * i ≤ e * k + b) (h' : e * k + b < e * i + e) : k = i := by
  have hi : (e * k + b) / e = i :=
    Nat.div_eq_of_lt_le (by rwa [Nat.mul_comm i]) (by rwa [Nat.succ_mul, Nat.mul_comm i])
  rw [← hi, Nat.mul_add_div (Nat.zero_lt_of_lt hb), Nat.div_eq_of_lt hb, Nat.add_zero]

theorem writes_slotMoves (hb : b < e) :
    Writes (slotMoves e n p q) (e * k + b) ↔ ∃ j < n, p j = k := by
  unfold Writes slotMoves
  simp only [List.mem_map, List.mem_range]
  constructor
  · rintro ⟨_, ⟨j, hj, rfl⟩, hge, hlt⟩
    exact ⟨j, hj, (slot_eq hb hge hlt).symm⟩
  · rintro ⟨j, hj, rfl⟩
    exact ⟨_, ⟨j, hj, rfl⟩, Nat.le_add_right _ _, Nat.add_lt_add_left hb _⟩

/-- Where no two elements go to one slot, each one arrives. -/
theorem origin_slotMoves (hinj : ∀ i < n, ∀ j < n, p i = p j → i = j) (hj : j < n) (hb : b < e) :
    origin (slotMoves e n p q) (e * p j + b) = some (e * q j + b) := by
  have hmem : (⟨e * p j, e * q j, e⟩ : Move) ∈ slotMoves e n p q :=
    List.mem_map.mpr ⟨j, List.mem_range.mpr hj, rfl⟩
  have hw : Move.Writes ⟨e * p j, e * q j, e⟩ (e * p j + b) :=
    ⟨Nat.le_add_right _ _, Nat.add_lt_add_left hb _⟩
  rw [origin_eq_some_of_forall hmem hw, Nat.add_sub_cancel_left]
  intro m hm hwrites
  obtain ⟨i, hi, rfl⟩ := List.mem_map.mp hm
  obtain rfl := hinj j hj i (List.mem_range.mp hi) (slot_eq hb hwrites.1 hwrites.2)
  rfl

/-- Where all elements go to one slot, the last one stays. -/
theorem origin_slotMoves_const (hb : b < e) :
    origin (slotMoves e (n + 1) (fun _ => k) q) (e * k + b) = some (e * q n + b) := by
  have hw : Move.Writes ⟨e * k, e * q n, e⟩ (e * k + b) :=
    ⟨Nat.le_add_right _ _, Nat.add_lt_add_left hb _⟩
  unfold slotMoves
  rw [List.range_succ, List.map_append, origin_append, List.map_singleton, origin_singleton,
    Move.origin_eq_some hw, Option.some_or, Nat.add_sub_cancel_left]

theorem reads_slotMoves (hb : b < e) :
    Reads (slotMoves e n p q) (e * k + b) ↔ ∃ j < n, q j = k := by
  unfold Reads slotMoves
  simp only [List.mem_map, List.mem_range]
  constructor
  · rintro ⟨_, ⟨j, hj, rfl⟩, hge, hlt⟩
    exact ⟨j, hj, (slot_eq hb hge hlt).symm⟩
  · rintro ⟨j, hj, rfl⟩
    exact ⟨_, ⟨j, hj, rfl⟩, Nat.le_add_right _ _, Nat.add_lt_add_left hb _⟩

theorem lt_of_writes_slotMoves {N : ℕ} (hp : ∀ j < n, p j < N) (h : Writes (slotMoves e n p q) a) :
    a < N * e := by
  obtain ⟨m, hm, -, hlt⟩ := h
  obtain ⟨j, hj, rfl⟩ := List.mem_map.mp hm
  calc a < e * p j + e := hlt
    _ = (p j + 1) * e := by rw [Nat.succ_mul, Nat.mul_comm]
    _ ≤ N * e := Nat.mul_le_mul_right e (hp j (List.mem_range.mp hj))

theorem lt_of_reads_slotMoves {N : ℕ} (hq : ∀ j < n, q j < N) (h : Reads (slotMoves e n p q) b) :
    b < N * e := by
  obtain ⟨m, hm, -, hlt⟩ := h
  obtain ⟨j, hj, rfl⟩ := List.mem_map.mp hm
  calc b < e * q j + e := hlt
    _ = (q j + 1) * e := by rw [Nat.succ_mul, Nat.mul_comm]
    _ ≤ N * e := Nat.mul_le_mul_right e (hq j (List.mem_range.mp hj))

end Slots

end Lib
