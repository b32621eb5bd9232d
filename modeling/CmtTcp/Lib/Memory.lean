import Mathlib.Data.List.Basic

/-!
# Bounded copies in an array

An array is a list of cells. `copyIn dst off src n` copies the first `n` cells of `src` to
`dst[off ..]` and is undefined when the copy would read past `src` or write past `dst`, so a
program whose run is defined has stayed inside its arrays. `window l off n` is the part
`l[off .. off + n)`.

* `copyIn_eq_some_iff`: when a copy is defined, and what it yields;
* `window_append_copy`, `window_zero_copy`: a copy behind a window extends it, a copy to the
  front of the array moves it there.
-/

namespace Lib

variable {α : Type*}

/-- Copy `n` cells of `src` to `dst[off ..]`; undefined outside either array. -/
def copyIn (dst : List α) (off : ℕ) (src : List α) (n : ℕ) : Option (List α) :=
  if off + n ≤ dst.length ∧ n ≤ src.length then
    some (dst.take off ++ src.take n ++ dst.drop (off + n))
  else none

/-- The cells `l[off .. off + n)`. -/
def window (l : List α) (off n : ℕ) : List α := (l.drop off).take n

theorem copyIn_of_le {dst src : List α} {off n : ℕ} (hd : off + n ≤ dst.length)
    (hs : n ≤ src.length) :
    copyIn dst off src n = some (dst.take off ++ src.take n ++ dst.drop (off + n)) :=
  if_pos ⟨hd, hs⟩

theorem copyIn_eq_some_iff {dst src out : List α} {off n : ℕ} :
    copyIn dst off src n = some out ↔
      (off + n ≤ dst.length ∧ n ≤ src.length) ∧
        out = dst.take off ++ src.take n ++ dst.drop (off + n) := by
  unfold copyIn
  split
  · next h => simp only [Option.some.injEq, h, and_self, true_and]; exact eq_comm
  · next h => simp only [reduceCtorEq, h, false_and]

/-- A copy keeps the length of the array it writes to. -/
theorem length_of_copyIn {dst src out : List α} {off n : ℕ}
    (h : copyIn dst off src n = some out) : out.length = dst.length := by
  obtain ⟨⟨hd, hs⟩, rfl⟩ := copyIn_eq_some_iff.mp h
  simp only [List.length_append, List.length_take, List.length_drop]
  omega

theorem length_window {l : List α} {off n : ℕ} (h : off + n ≤ l.length) :
    (window l off n).length = n := by
  simp only [window, List.length_take, List.length_drop]
  omega

@[simp] theorem window_zero_len (l : List α) (off : ℕ) : window l off 0 = [] := by
  simp [window]

/-- Dropping from a window narrows it from the front. -/
theorem drop_window (l : List α) (off n k : ℕ) :
    (window l off n).drop k = window l (off + k) (n - k) := by
  rw [window, window, List.drop_take, List.drop_drop]

/-- A copy right behind the window `[off, off + len)` extends the window by the copied cells. -/
theorem window_append_copy {dst src out : List α} {off len n : ℕ}
    (h : copyIn dst (off + len) src n = some out) :
    window out off (len + n) = window dst off len ++ src.take n := by
  obtain ⟨⟨hd, hs⟩, rfl⟩ := copyIn_eq_some_iff.mp h
  have hfront : (dst.take (off + len)).drop off = window dst off len := by
    rw [window, List.drop_take]
    congr 1
    omega
  have hlen : (dst.take (off + len)).length = off + len := by
    rw [List.length_take]; omega
  have hwin : (window dst off len).length = len := length_window (by omega)
  rw [window, List.append_assoc, List.drop_append_of_le_length (by omega), hfront,
    List.take_append, hwin, List.take_of_length_le (by omega), Nat.add_sub_cancel_left,
    List.take_append_of_le_length (by rw [List.length_take]; omega), List.take_take, Nat.min_self]

/-- A copy of the window `[off, off + len)` to the front of the array moves it there. -/
theorem window_zero_copy {dst out : List α} {off len : ℕ}
    (h : copyIn dst 0 (dst.drop off) len = some out) :
    window out 0 len = window dst off len := by
  obtain ⟨⟨hd, hs⟩, rfl⟩ := copyIn_eq_some_iff.mp h
  have hlen : ((dst.drop off).take len).length = len := by
    rw [List.length_take, List.length_drop] at *; omega
  rw [window, window, List.take_zero, List.nil_append, List.drop_zero,
    List.take_append_of_le_length (by omega), List.take_take, Nat.min_self]

end Lib
