import CmtTcp.RecvBuffer
import CmtTcp.Lib.Picking

/-!
# The two orders of sequence numbers

The macros `TCP_SEQ_*` of `tcp.h` look at the sign of the difference of two numbers, `GetMinSeq` and `GetMaxSeq`
of `tcp_buffer.c` at the smaller of their two distances. They agree unless the numbers are exactly half a circle
apart (`getMinSeq_iff`, `getMaxSeq_iff`), and inside a window below half a circle both are the order of the
window, which is what a fold of `GetMinSeq` or `GetMaxSeq` over numbers of the window yields.

`CanMerge` compares the end of each fragment, plus one, with the start of the other, so it is right as long as
no end lies more than half a circle above the other's start, the one included.
-/

namespace CmtTcp

open Lib (FirstBy Picks)

/-! ### Two numbers -/

section Agree

variable {a b : U32}

theorem getMinSeq_eq_left_iff (hhalf : (b - a).toNat ≠ 2 ^ 31) :
    getMinSeq a b = a ↔ (b - a).toNat < 2 ^ 31 := by
  constructor
  · intro h
    by_contra hlt
    have hsub : (a - b).toNat < 2 ^ 31 := by bv_omega
    rw [getMinSeq_of_sub_lt' hsub] at h
    subst h
    exact hlt (by simp)
  · exact getMinSeq_of_sub_lt

theorem getMaxSeq_eq_left_iff (hhalf : (b - a).toNat ≠ 2 ^ 31) :
    getMaxSeq a b = a ↔ (a - b).toNat < 2 ^ 31 := by
  constructor
  · intro h
    by_contra hlt
    have hsub : (b - a).toNat < 2 ^ 31 := by bv_omega
    rw [getMaxSeq_of_sub_lt hsub] at h
    subst h
    exact hlt (by simp)
  · exact getMaxSeq_of_sub_lt'

theorem sub_ne_half (h : a - b ≠ 0x80000000) : (b - a).toNat ≠ 2 ^ 31 := by
  intro heq
  exact h (by bv_omega)

theorem getMinSeq_iff (h : a - b ≠ 0x80000000) : getMinSeq a b = a ↔ tcpSeqLeq a b = true := by
  have hhalf := sub_ne_half h
  rw [getMinSeq_eq_left_iff hhalf, tcpSeqLeq_iff]
  constructor <;> intro <;> bv_omega

theorem getMaxSeq_iff (h : a - b ≠ 0x80000000) : getMaxSeq a b = a ↔ tcpSeqGeq a b = true := by
  rw [getMaxSeq_eq_left_iff (sub_ne_half h), tcpSeqGeq_iff]

end Agree

/-! ### The numbers of a window -/

/-- The sequence numbers from `base` on, up to `len` above it. -/
def seqWindow (base : U32) (len : ℕ) : Set U32 := {x | seqOff base x ≤ len}

section Window

variable {base : U32} {len : ℕ}

theorem picks_getMinSeq (hlen : len < 2 ^ 31) :
    Picks (seqOff base) getMinSeq (seqWindow base len) := by
  intro a ha b hb
  change (a - base).toNat ≤ len at ha
  change (b - base).toNat ≤ len at hb
  rcases Nat.le_total (seqOff base a) (seqOff base b) with h | h
  · left
    refine ⟨getMinSeq_of_sub_lt ?_, h⟩
    change (a - base).toNat ≤ (b - base).toNat at h
    bv_omega
  · right
    refine ⟨getMinSeq_of_sub_lt' ?_, h⟩
    change (b - base).toNat ≤ (a - base).toNat at h
    bv_omega

/-- The last of the window is the first of the order that runs backwards. -/
theorem picks_getMaxSeq (hlen : len < 2 ^ 31) :
    Picks (fun x => OrderDual.toDual (seqOff base x)) getMaxSeq (seqWindow base len) := by
  intro a ha b hb
  change (a - base).toNat ≤ len at ha
  change (b - base).toNat ≤ len at hb
  rcases Nat.le_total (seqOff base b) (seqOff base a) with h | h
  · left
    refine ⟨getMaxSeq_of_sub_lt' ?_, h⟩
    change (b - base).toNat ≤ (a - base).toNat at h
    bv_omega
  · right
    refine ⟨getMaxSeq_of_sub_lt ?_, h⟩
    change (a - base).toNat ≤ (b - base).toNat at h
    bv_omega

end Window

/-- `x` is the first of the numbers, counted from `base`. -/
def IsFirst (base : U32) (l : List U32) (x : U32) : Prop :=
  x ∈ l ∧ ∀ y ∈ l, seqOff base x ≤ seqOff base y

/-- `x` is the last of the numbers, counted from `base`. -/
def IsLast (base : U32) (l : List U32) (x : U32) : Prop :=
  x ∈ l ∧ ∀ y ∈ l, seqOff base y ≤ seqOff base x

/-- The folds over the numbers, in the order in which `l` has them and in the reverse one. -/
def FoldsTo (base : U32) (l : List U32) : Prop :=
  ∀ x xs, (x :: xs).Perm l →
    IsFirst base l (xs.foldl getMinSeq x) ∧ IsFirst base l (xs.foldr getMinSeq x) ∧
      IsLast base l (xs.foldl getMaxSeq x) ∧ IsLast base l (xs.foldr getMaxSeq x)

theorem foldsTo_of_window {base : U32} {len : ℕ} {l : List U32} (hlen : len < 2 ^ 31)
    (hl : ∀ x ∈ l, x ∈ seqWindow base len) : FoldsTo base l := by
  intro x xs hperm
  have hx := hl x (hperm.mem_iff.mp List.mem_cons_self)
  have hxs : ∀ y ∈ xs, y ∈ seqWindow base len :=
    fun y hy => hl y (hperm.mem_iff.mp (List.mem_cons_of_mem x hy))
  have hminl := ((picks_getMinSeq hlen).foldl hx hxs).perm hperm
  have hminr := ((picks_getMinSeq hlen).foldr hx hxs).perm hperm
  have hmaxl := ((picks_getMaxSeq hlen).foldl hx hxs).perm hperm
  have hmaxr := ((picks_getMaxSeq hlen).foldr hx hxs).perm hperm
  exact ⟨⟨hminl.mem, hminl.le⟩, ⟨hminr.mem, hminr.le⟩, ⟨hmaxl.mem, hmaxl.le⟩, hmaxr.mem, hmaxr.le⟩

/-! ### Fragments around a base -/

namespace Fragment

/-- Where the fragment starts, counted from `base` in either direction. -/
def start (base : U32) (f : Fragment) : ℤ := (f.seq - base).toInt

/-- Where it ends. -/
def stop (base : U32) (f : Fragment) : ℤ := f.start base + f.len.toNat

/-- The fragment lies, ends included, within `2 ^ 30` of `base`. -/
def Near (base : U32) (f : Fragment) : Prop := -2 ^ 30 ≤ f.start base ∧ f.stop base ≤ 2 ^ 30

/-- The ranges of the fragments overlap or touch. -/
def Meets (base : U32) (f g : Fragment) : Prop :=
  f.start base ≤ g.stop base ∧ g.start base ≤ f.stop base

/-- The end of `f` lies less than half a circle, less one, above the start of `g`. -/
def WithinHalf (base : U32) (f g : Fragment) : Prop := f.stop base - g.start base < 2 ^ 31 - 1

end Fragment

section Fragments

variable {base : U32} {f g : Fragment}

theorem canMerge_comm (f g : Fragment) : canMerge f g = canMerge g f := by
  unfold canMerge
  simp only [or_comm]

/-- One half of the test: the number behind the end of `f` comes first exactly where there is a gap. -/
theorem getMinSeq_stop_iff (hf : f.Near base) (hg : g.Near base) (hhalf : f.WithinHalf base g) :
    getMinSeq (f.seq + f.len + 1) g.seq = f.seq + f.len + 1 ↔ f.stop base < g.start base := by
  simp only [Fragment.Near, Fragment.WithinHalf, Fragment.stop, Fragment.start,
    BitVec.toInt_eq_toNat_cond] at *
  have hoff : (g.seq - (f.seq + f.len + 1)).toNat =
      ((g.seq - base).toNat + (2 ^ 32 - (f.seq - base).toNat) + (2 ^ 32 - f.len.toNat) +
        (2 ^ 32 - 1)) % 2 ^ 32 := by
    bv_omega
  have hlen := f.len.isLt
  have hfs := (f.seq - base).isLt
  have hgs := (g.seq - base).isLt
  generalize (f.seq - base).toNat = x at *
  generalize (g.seq - base).toNat = y at *
  rw [getMinSeq_eq_left_iff] <;> rw [hoff]
  · split at hhalf <;> split at hhalf <;> omega
  · split at hhalf <;> split at hhalf <;> omega

theorem canMerge_iff (hf : f.Near base) (hg : g.Near base) (hfg : f.WithinHalf base g)
    (hgf : g.WithinHalf base f) : canMerge f g = true ↔ f.Meets base g := by
  have hleft := getMinSeq_stop_iff hf hg hfg
  have hright := getMinSeq_stop_iff hg hf hgf
  simp only [canMerge, hleft, hright, Fragment.Meets]
  by_cases h : f.stop base < g.start base ∨ g.stop base < f.start base
  · rw [if_pos h]
    refine iff_of_false nofun ?_
    omega
  · rw [if_neg h]
    refine iff_of_true rfl ?_
    omega

end Fragments

/-! ### The order is consistent -/

/-- The two orders agree away from half a circle; folds find the first and the last of a window; and `CanMerge` is
symmetric, and right as long as neither end reaches too far over the other start. -/
theorem seqOrder_consistent :
    (∀ a b : U32, a - b ≠ 0x80000000 →
      (getMinSeq a b = a ↔ tcpSeqLeq a b = true) ∧ (getMaxSeq a b = a ↔ tcpSeqGeq a b = true)) ∧
    (∀ (base : U32) (len : ℕ) (l : List U32), len < 2 ^ 31 → (∀ x ∈ l, x ∈ seqWindow base len) →
      FoldsTo base l) ∧
    ∀ (base : U32) (f g : Fragment), f.Near base → g.Near base →
      canMerge f g = canMerge g f ∧
        (f.WithinHalf base g → g.WithinHalf base f → (canMerge f g = true ↔ f.Meets base g)) := by
  refine ⟨fun a b h => ⟨getMinSeq_iff h, getMaxSeq_iff h⟩, ?_, ?_⟩
  · intro base len l hlen hl
    exact foldsTo_of_window hlen hl
  · intro base f g hf hg
    exact ⟨canMerge_comm f g, canMerge_iff hf hg⟩

/-- A fragment of `len` bytes and one of one byte start `2 ^ 30` below the base, both lie around it, and they overlap;
but `CanMerge` says no. -/
def Unmerged (len : U32) : Prop :=
  (⟨none, 0, len, none⟩ : Fragment).Near 0x40000000 ∧
    (⟨none, 0, 1, none⟩ : Fragment).Near 0x40000000 ∧
    (⟨none, 0, len, none⟩ : Fragment).Meets 0x40000000 ⟨none, 0, 1, none⟩ ∧
    canMerge ⟨none, 0, len, none⟩ ⟨none, 0, 1, none⟩ = false

/-- With the end of the longer fragment `2 ^ 30` above the base, or one below that. -/
theorem canMerge_window_ends : Unmerged 0x80000000 ∧ Unmerged 0x7FFFFFFF :=
  ⟨⟨⟨by decide, by decide⟩, ⟨by decide, by decide⟩, ⟨by decide, by decide⟩, by decide⟩,
    ⟨by decide, by decide⟩, ⟨by decide, by decide⟩, ⟨by decide, by decide⟩, by decide⟩

end CmtTcp
