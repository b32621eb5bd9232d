import Mathlib.Data.List.Basic

/-!
# A bounded first-in first-out store with its history

`BoundedFifo α cap` keeps everything it ever accepted, in order, and how many elements were
removed again; its contents are what is left. So "nothing is lost, duplicated or reordered" is
not a property to prove of it but the way it is built: what was removed is a prefix of what was
accepted, and the contents are the rest.

* `put xs` accepts the longest prefix of `xs` that fits;
* `remove n` takes away the `n` oldest elements, or all there are.
-/

namespace Lib

/-- A store of at most `cap` elements, with the history of what went through it. -/
@[ext] structure BoundedFifo (α : Type*) (cap : ℕ) where
  /-- Everything accepted so far, oldest first. -/
  accepted : List α
  /-- How many of the accepted elements have been removed. -/
  removed : ℕ
  removed_le : removed ≤ accepted.length
  bounded : accepted.length ≤ removed + cap

namespace BoundedFifo

variable {α : Type*} {cap : ℕ}

/-- The store nothing has gone through yet. -/
def empty : BoundedFifo α cap where
  accepted := []
  removed := 0
  removed_le := Nat.le_refl 0
  bounded := Nat.zero_le _

/-- The elements in the store, oldest first. -/
def contents (q : BoundedFifo α cap) : List α := q.accepted.drop q.removed

/-- How many elements still fit. -/
def room (q : BoundedFifo α cap) : ℕ := cap - q.contents.length

@[simp] theorem contents_empty : (empty : BoundedFifo α cap).contents = [] := rfl

theorem length_contents (q : BoundedFifo α cap) :
    q.contents.length = q.accepted.length - q.removed := List.length_drop

theorem length_contents_le (q : BoundedFifo α cap) : q.contents.length ≤ cap := by
  rw [length_contents]
  have := q.bounded
  omega

theorem accepted_length (q : BoundedFifo α cap) :
    q.accepted.length = q.removed + q.contents.length := by
  rw [length_contents]
  have := q.removed_le
  omega

/-- Accept the longest prefix of `xs` that fits. -/
def put (q : BoundedFifo α cap) (xs : List α) : BoundedFifo α cap where
  accepted := q.accepted ++ xs.take q.room
  removed := q.removed
  removed_le := by rw [List.length_append]; exact Nat.le_add_right_of_le q.removed_le
  bounded := by
    have h1 := q.accepted_length
    have h2 := q.length_contents_le
    rw [List.length_append, List.length_take, room]
    omega

/-- Remove the `n` oldest elements, or all there are. -/
def remove (q : BoundedFifo α cap) (n : ℕ) : BoundedFifo α cap where
  accepted := q.accepted
  removed := q.removed + min n q.contents.length
  removed_le := by
    have := q.accepted_length
    omega
  bounded := Nat.le_trans q.bounded (by omega)

@[simp] theorem accepted_put (q : BoundedFifo α cap) (xs : List α) :
    (q.put xs).accepted = q.accepted ++ xs.take q.room := rfl

@[simp] theorem removed_put (q : BoundedFifo α cap) (xs : List α) :
    (q.put xs).removed = q.removed := rfl

@[simp] theorem accepted_remove (q : BoundedFifo α cap) (n : ℕ) :
    (q.remove n).accepted = q.accepted := rfl

@[simp] theorem removed_remove (q : BoundedFifo α cap) (n : ℕ) :
    (q.remove n).removed = q.removed + min n q.contents.length := rfl

@[simp] theorem contents_put (q : BoundedFifo α cap) (xs : List α) :
    (q.put xs).contents = q.contents ++ xs.take q.room :=
  List.drop_append_of_le_length q.removed_le

@[simp] theorem contents_remove (q : BoundedFifo α cap) (n : ℕ) :
    (q.remove n).contents = q.contents.drop (min n q.contents.length) := by
  change q.accepted.drop (q.removed + min n q.contents.length) = _
  rw [← List.drop_drop, contents]

end BoundedFifo

end Lib
