import CmtTcp.Basic
import CmtTcp.Lib.Run
import CmtTcp.Lib.RingIndex

/-!
# The accept queue

`cmt_stream_queue_t` of `tcp_buffer.h` under one thread that calls `stream_enqueue` and one that calls
`stream_dequeue`, interleaved at the single reads of `_head` and `_tail`, the access to the slot and
the final store. Each side works from copies of the two indices, which may be stale by the time
they are used.

`QueueInv` relates the two program counters to the history of the queue, the list of streams whose
`_tail` store has happened and the list of streams handed out: `_tail` and `_head` are the lengths of
the two lists modulo `_capacity + 1`, and the slots between them hold the streams still to be handed
out. `streamQueue_spsc` reads the correctness of the queue off it.
-/

namespace CmtTcp

variable {α : Type*}

/-- `cmt_stream_queue_t`; the slots hold whatever the allocator left in them until they are
written. -/
structure StreamQueue (α : Type*) where
  capacity : ℕ
  head : ℕ
  tail : ℕ
  q : ℕ → Option α

/-- `create_stream_queue` -/
def createStreamQueue (capacity : ℕ) (junk : ℕ → Option α) : StreamQueue α where
  capacity := capacity
  head := 0
  tail := 0
  q := junk

/-- `NextIndex(sq, i)` -/
def StreamQueue.nextIndex (sq : StreamQueue α) (i : ℕ) : ℕ :=
  if i = sq.capacity then 0 else i + 1

/-- Where the enqueueing thread is in `stream_enqueue`. -/
inductive EnqPc (α : Type*) where
  | idle
  /-- called with `stream`; `h = sq->_head` is next -/
  | readHead (stream : α)
  /-- `t = sq->_tail` is next. `seen` is not in the code: it is how many streams the queue held
  when `_head` was read. -/
  | readTail (stream : α) (h : ℕ) (seen : ℕ)
  /-- `sq->_q[t] = stream` is next -/
  | write (stream : α) (t : ℕ)
  /-- `sq->_tail = nt` is next -/
  | store (stream : α) (t : ℕ)

/-- Where the dequeueing thread is in `stream_dequeue`. -/
inductive DeqPc (α : Type*) where
  | idle
  /-- `h = sq->_head` is next -/
  | readHead
  /-- `t = sq->_tail` is next -/
  | readTail (h : ℕ)
  /-- `stream = sq->_q[h]` is next -/
  | read (h : ℕ)
  /-- `sq->_head = NextIndex(sq, h)` is next, then `assert(stream)` -/
  | store (h : ℕ) (stream : Option α)
  /-- `assert(stream)` has failed -/
  | aborted

/-- The queue, the two threads, and the history of the run. -/
structure QueueSys (α : Type*) where
  sq : StreamQueue α
  enq : EnqPc α
  deq : DeqPc α
  /-- the slots that were written and not read since -/
  unread : ℕ → Bool
  /-- the streams whose `_tail` store has happened, in order -/
  stored : List α
  /-- the streams `stream_dequeue` has handed out, in order -/
  dequeued : List α
  /-- for every `-1` of `stream_enqueue`: how many streams the queue held at its read of `_head` -/
  refused : List ℕ
  /-- for every `NULL` of `stream_dequeue`: how many streams the queue held at its read of
  `_tail` -/
  nulls : List ℕ

/-- How many streams the queue holds. -/
def QueueSys.count (s : QueueSys α) : ℕ := s.stored.length - s.dequeued.length

/-- The next step of the enqueueing thread inside `stream_enqueue`. -/
def QueueSys.enqNext (s : QueueSys α) : Option (QueueSys α) :=
  match s.enq with
  | .idle => none
  | .readHead stream => some { s with enq := .readTail stream s.sq.head s.count }
  | .readTail stream h seen =>
    if s.sq.nextIndex s.sq.tail ≠ h then some { s with enq := .write stream s.sq.tail }
    else some { s with enq := .idle, refused := s.refused ++ [seen] }
  | .write stream t =>
    some { s with
      sq := { s.sq with q := Function.update s.sq.q t (some stream) }
      unread := Function.update s.unread t true
      enq := .store stream t }
  | .store stream t =>
    some { s with
      sq := { s.sq with tail := s.sq.nextIndex t }
      stored := s.stored ++ [stream]
      enq := .idle }

/-- The next step of the dequeueing thread inside `stream_dequeue`. -/
def QueueSys.deqNext (s : QueueSys α) : Option (QueueSys α) :=
  match s.deq with
  | .idle => none
  | .readHead => some { s with deq := .readTail s.sq.head }
  | .readTail h =>
    if h ≠ s.sq.tail then some { s with deq := .read h }
    else some { s with deq := .idle, nulls := s.nulls ++ [s.count] }
  | .read h =>
    some { s with deq := .store h (s.sq.q h), unread := Function.update s.unread h false }
  | .store h stream =>
    let s := { s with sq := { s.sq with head := s.sq.nextIndex h } }
    match stream with
    | none => some { s with deq := .aborted }
    | some stream => some { s with deq := .idle, dequeued := s.dequeued ++ [stream] }
  | .aborted => none

/-- A step of the system: one of the threads calls its function or goes on inside it. -/
inductive QueueLabel (α : Type*) where
  | enqCall (stream : α)
  | enqNext
  | deqCall
  | deqNext

/-- The step relation. -/
inductive QueueStep : QueueSys α → QueueLabel α → QueueSys α → Prop
  | enqCall {s : QueueSys α} (stream : α) (h : s.enq = .idle) :
      QueueStep s (.enqCall stream) { s with enq := .readHead stream }
  | enqNext {s s' : QueueSys α} (h : s.enqNext = some s') : QueueStep s .enqNext s'
  | deqCall {s : QueueSys α} (h : s.deq = .idle) :
      QueueStep s .deqCall { s with deq := .readHead }
  | deqNext {s s' : QueueSys α} (h : s.deqNext = some s') : QueueStep s .deqNext s'

/-- A new queue and two threads that have not called it yet. -/
def QueueSys.initial (capacity : ℕ) (junk : ℕ → Option α) : QueueSys α where
  sq := createStreamQueue capacity junk
  enq := .idle
  deq := .idle
  unread := fun _ => false
  stored := []
  dequeued := []
  refused := []
  nulls := []

/-! ### The invariant -/

/-- The first position that has not been read: `stream_dequeue` reads the slot one step before it
gives it up. -/
def QueueSys.lo (s : QueueSys α) : ℕ :=
  match s.deq with
  | .store _ _ => s.dequeued.length + 1
  | _ => s.dequeued.length

/-- The first position that has not been written: `stream_enqueue` writes the slot one step before
it publishes it. -/
def QueueSys.hi (s : QueueSys α) : ℕ :=
  match s.enq with
  | .store _ _ => s.stored.length + 1
  | _ => s.stored.length

/-- What the enqueueing thread knows at each point. Its copy of `_head` is an old one, so the queue
holds no more now than it did when the copy was taken. -/
def EnqOk (s : QueueSys α) : EnqPc α → Prop
  | .idle | .readHead _ => True
  | .readTail _ h seen =>
    ∃ old, old ≤ s.dequeued.length ∧ s.stored.length ≤ old + s.sq.capacity ∧
      h = old % (s.sq.capacity + 1) ∧ seen = s.stored.length - old
  | .write _ t =>
    t = s.stored.length % (s.sq.capacity + 1) ∧
      s.stored.length < s.dequeued.length + s.sq.capacity
  | .store stream t =>
    t = s.stored.length % (s.sq.capacity + 1) ∧
      s.stored.length < s.dequeued.length + s.sq.capacity ∧ s.sq.q t = some stream

/-- What the dequeueing thread knows at each point. -/
def DeqOk (s : QueueSys α) : DeqPc α → Prop
  | .idle | .readHead => True
  | .readTail h => h = s.dequeued.length % (s.sq.capacity + 1)
  | .read h =>
    h = s.dequeued.length % (s.sq.capacity + 1) ∧ s.dequeued.length < s.stored.length
  | .store h stream =>
    h = s.dequeued.length % (s.sq.capacity + 1) ∧ s.dequeued.length < s.stored.length ∧
      stream = s.stored[s.dequeued.length]?
  | .aborted => False

/-- The invariant of the accept queue. -/
structure QueueInv (s : QueueSys α) : Prop where
  dequeued_prefix : s.dequeued <+: s.stored
  bounded : s.stored.length ≤ s.dequeued.length + s.sq.capacity
  head_eq : s.sq.head = s.dequeued.length % (s.sq.capacity + 1)
  tail_eq : s.sq.tail = s.stored.length % (s.sq.capacity + 1)
  /-- the slots from `_head` to `_tail` hold the streams that were stored there -/
  slots : ∀ i, s.dequeued.length ≤ i → i < s.stored.length →
    s.sq.q (i % (s.sq.capacity + 1)) = s.stored[i]?
  /-- the slots written and not read are those of the positions in between -/
  unread_iff : ∀ j, s.unread j = true ↔
    ∃ i, s.lo ≤ i ∧ i < s.hi ∧ i % (s.sq.capacity + 1) = j
  enq_ok : EnqOk s s.enq
  deq_ok : DeqOk s s.deq
  refused_full : ∀ k ∈ s.refused, k = s.sq.capacity
  nulls_empty : ∀ k ∈ s.nulls, k = 0

theorem QueueInv.initial (capacity : ℕ) (junk : ℕ → Option α) :
    QueueInv (QueueSys.initial capacity junk) where
  dequeued_prefix := List.prefix_refl _
  bounded := Nat.zero_le _
  head_eq := (Nat.zero_mod _).symm
  tail_eq := (Nat.zero_mod _).symm
  slots := fun i _ h => absurd h (Nat.not_lt_zero i)
  unread_iff := by
    intro j
    constructor
    · intro h
      cases h
    · rintro ⟨i, -, h, -⟩
      exact absurd h (Nat.not_lt_zero i)
  enq_ok := trivial
  deq_ok := trivial
  refused_full := fun _ h => by cases h
  nulls_empty := fun _ h => by cases h

section Steps

variable {s s' : QueueSys α}

theorem StreamQueue.nextIndex_mod (sq : StreamQueue α) (i : ℕ) :
    sq.nextIndex (i % (sq.capacity + 1)) = (i + 1) % (sq.capacity + 1) :=
  (Lib.succ_mod_eq_ite sq.capacity i).symm

theorem QueueInv.length_le (h : QueueInv s) : s.dequeued.length ≤ s.stored.length :=
  h.dequeued_prefix.length_le

theorem QueueSys.lo_le (h : QueueInv s) : s.lo ≤ s.stored.length := by
  have hle := h.length_le
  have hok := h.deq_ok
  unfold QueueSys.lo
  cases hpc : s.deq <;> try exact hle
  rw [hpc] at hok
  exact hok.2.1

/-- A step of the enqueueing thread that moves neither index nor slot. -/
theorem QueueInv.setEnq (h : QueueInv s) (pc : EnqPc α) (hpc : EnqOk s pc)
    (hhi : QueueSys.hi { s with enq := pc } = s.hi) : QueueInv { s with enq := pc } :=
  { h with
    enq_ok := hpc
    unread_iff := by
      intro j
      rw [hhi]
      exact h.unread_iff j }

/-- A step of the dequeueing thread that moves neither index nor slot. -/
theorem QueueInv.setDeq (h : QueueInv s) (pc : DeqPc α) (hpc : DeqOk s pc)
    (hlo : QueueSys.lo { s with deq := pc } = s.lo) : QueueInv { s with deq := pc } :=
  { h with
    deq_ok := hpc
    unread_iff := by
      intro j
      rw [hlo]
      exact h.unread_iff j }

/-! ### Steps of `stream_enqueue` -/

/-- A slot is free when `stream_enqueue` finds `nt != h`: `h` is an old `_head`, and `_head` has
only moved on since. -/
theorem QueueInv.enqReadTail (h : QueueInv s) {stream : α} {hd seen : ℕ}
    (hpc : s.enq = .readTail stream hd seen) (hne : s.sq.nextIndex s.sq.tail ≠ hd) :
    QueueInv { s with enq := .write stream s.sq.tail } := by
  have hok := h.enq_ok
  rw [hpc] at hok
  obtain ⟨old, hold, hcap, rfl, -⟩ := hok
  refine h.setEnq _ ⟨h.tail_eq, ?_⟩ (by simp [QueueSys.hi, hpc])
  rw [h.tail_eq, s.sq.nextIndex_mod] at hne
  -- a full queue would have its tail one slot behind the old `_head`
  by_contra hfull
  refine hne ?_
  rw [show s.stored.length + 1 = old + (s.sq.capacity + 1) by omega, Nat.add_mod_right]

/-- `stream_enqueue` gives up only on a queue that was full when it read `_head`. -/
theorem QueueInv.enqRefuse (h : QueueInv s) {stream : α} {hd seen : ℕ}
    (hpc : s.enq = .readTail stream hd seen) (heq : s.sq.nextIndex s.sq.tail = hd) :
    QueueInv { s with enq := .idle, refused := s.refused ++ [seen] } := by
  have hok := h.enq_ok
  rw [hpc] at hok
  obtain ⟨old, hold, hcap, rfl, rfl⟩ := hok
  rw [h.tail_eq, s.sq.nextIndex_mod] at heq
  have hle := h.length_le
  -- equal slots less than one turn apart are equal positions
  have hfull : s.stored.length = old + s.sq.capacity := by
    by_contra hroom
    have := Lib.eq_of_mod_eq heq.symm (by omega) (by omega)
    omega
  have hidle := h.setEnq .idle trivial (by simp [QueueSys.hi, hpc])
  refine { hidle with refused_full := ?_ }
  intro k hk
  rcases List.mem_append.mp hk with hk | hk
  · exact h.refused_full k hk
  · rw [List.mem_singleton.mp hk]
    change s.stored.length - old = s.sq.capacity
    omega

/-- The slot `stream_enqueue` writes is not one of those that hold a stream. -/
theorem QueueInv.enqWrite (h : QueueInv s) {stream : α} {t : ℕ} (hpc : s.enq = .write stream t) :
    QueueInv { s with
      sq := { s.sq with q := Function.update s.sq.q t (some stream) }
      unread := Function.update s.unread t true
      enq := .store stream t } := by
  have hok := h.enq_ok
  rw [hpc] at hok
  obtain ⟨rfl, hroom⟩ := hok
  refine { h with slots := ?_, unread_iff := ?_, enq_ok := ?_, deq_ok := h.deq_ok }
  · intro i (hi : s.dequeued.length ≤ i) (hi' : i < s.stored.length)
    -- the slot of a stored stream is another one: the positions are less than a turn apart
    have hne : i % (s.sq.capacity + 1) ≠ s.stored.length % (s.sq.capacity + 1) := by
      intro hmod
      have := Lib.eq_of_mod_eq hmod (by omega) (by omega)
      omega
    change Function.update s.sq.q _ (some stream) _ = _
    rw [Function.update_of_ne hne]
    exact h.slots i hi hi'
  · intro j
    have hlo : s.lo ≤ s.stored.length := QueueSys.lo_le h
    have hold := h.unread_iff j
    rw [show s.hi = s.stored.length by simp [QueueSys.hi, hpc]] at hold
    change Function.update s.unread _ true j = true ↔
      ∃ i, s.lo ≤ i ∧ i < s.stored.length + 1 ∧ i % (s.sq.capacity + 1) = j
    -- the slot written becomes unread, every other one keeps its mark
    by_cases hj : j = s.stored.length % (s.sq.capacity + 1)
    · subst hj
      rw [Function.update_self]
      exact ⟨fun _ => ⟨_, hlo, Nat.lt_succ_self _, rfl⟩, fun _ => rfl⟩
    · rw [Function.update_of_ne hj, hold]
      constructor
      · rintro ⟨i, h1, h2, h3⟩
        exact ⟨i, h1, Nat.lt_succ_of_lt h2, h3⟩
      · rintro ⟨i, h1, h2, h3⟩
        refine ⟨i, h1, Nat.lt_of_le_of_ne (Nat.le_of_lt_succ h2) ?_, h3⟩
        rintro rfl
        exact hj h3.symm
  · exact ⟨rfl, hroom, Function.update_self ..⟩

/-- The store of `_tail` publishes the stream that was written. -/
theorem QueueInv.enqStore (h : QueueInv s) {stream : α} {t : ℕ} (hpc : s.enq = .store stream t) :
    QueueInv { s with
      sq := { s.sq with tail := s.sq.nextIndex t }
      stored := s.stored ++ [stream]
      enq := .idle } := by
  have hok := h.enq_ok
  rw [hpc] at hok
  obtain ⟨rfl, hroom, hslot⟩ := hok
  have hlen : (s.stored ++ [stream]).length = s.stored.length + 1 := by simp
  have hget : ∀ i, i < s.stored.length → (s.stored ++ [stream])[i]? = s.stored[i]? :=
    fun i hi => List.getElem?_append_left hi
  refine { h with
    dequeued_prefix := h.dequeued_prefix.trans (List.prefix_append _ _)
    bounded := ?_, head_eq := h.head_eq, tail_eq := ?_, slots := ?_, unread_iff := ?_
    enq_ok := trivial, deq_ok := ?_ }
  · rw [hlen]
    exact hroom
  · rw [hlen]
    exact s.sq.nextIndex_mod _
  · intro i hi hi'
    rw [hlen] at hi'
    change s.sq.q _ = _
    -- the slot is an old one, or the one `enqWrite` filled
    rcases Nat.lt_or_ge i s.stored.length with hlt | hge
    · rw [h.slots i hi hlt, hget i hlt]
    · obtain rfl : i = s.stored.length := by omega
      rw [hslot, List.getElem?_concat_length]
  · intro j
    have hold := h.unread_iff j
    rw [show s.hi = s.stored.length + 1 by simp [QueueSys.hi, hpc]] at hold
    change s.unread j = true ↔
      ∃ i, s.lo ≤ i ∧ i < (s.stored ++ [stream]).length ∧ i % (s.sq.capacity + 1) = j
    rw [hlen]
    exact hold
  · -- what the other thread knows only gets weaker
    have hdok := h.deq_ok
    cases hd : s.deq with
    | idle => trivial
    | readHead => trivial
    | readTail hd' => rw [hd] at hdok; exact hdok
    | read hd' =>
      rw [hd] at hdok
      exact ⟨hdok.1, by rw [hlen]; exact Nat.lt_succ_of_lt hdok.2⟩
    | store hd' stream' =>
      rw [hd] at hdok
      obtain ⟨h1, h2, h3⟩ := hdok
      exact ⟨h1, by rw [hlen]; exact Nat.lt_succ_of_lt h2, by rw [hget _ h2]; exact h3⟩
    | aborted => rw [hd] at hdok; exact hdok

/-- Every step inside `stream_enqueue` keeps the invariant. -/
theorem QueueInv.enqNext (h : QueueInv s) (hs : s.enqNext = some s') : QueueInv s' := by
  unfold QueueSys.enqNext at hs
  cases hpc : s.enq with
  | idle => rw [hpc] at hs; cases hs
  | readHead stream =>
    rw [hpc] at hs
    obtain rfl := Option.some.inj hs
    refine h.setEnq _ ⟨_, le_rfl, h.bounded, h.head_eq, rfl⟩ (by simp [QueueSys.hi, hpc])
  | readTail stream hd seen =>
    -- the queue is full when the next tail is the head that was read before
    rw [hpc] at hs
    dsimp only at hs
    split at hs
    · next hne =>
      obtain rfl := Option.some.inj hs
      exact h.enqReadTail hpc hne
    · next heq =>
      obtain rfl := Option.some.inj hs
      exact h.enqRefuse hpc (not_not.mp heq)
  | write stream t =>
    rw [hpc] at hs
    obtain rfl := Option.some.inj hs
    exact h.enqWrite hpc
  | store stream t =>
    rw [hpc] at hs
    obtain rfl := Option.some.inj hs
    exact h.enqStore hpc

/-! ### Steps of `stream_dequeue` -/

/-- `stream_dequeue` goes on only when there is a stream at its `_head`. -/
theorem QueueInv.deqReadTail (h : QueueInv s) {hd : ℕ} (hpc : s.deq = .readTail hd)
    (hne : hd ≠ s.sq.tail) : QueueInv { s with deq := .read hd } := by
  have hok : hd = s.dequeued.length % (s.sq.capacity + 1) := by
    have hok := h.deq_ok
    rwa [hpc] at hok
  have hle := h.length_le
  refine h.setDeq _ ⟨hok, Nat.lt_of_le_of_ne hle ?_⟩ (by simp [QueueSys.lo, hpc])
  -- an empty queue has `_head = _tail`
  intro hlen
  exact hne (by rw [hok, h.tail_eq, hlen])

/-- `stream_dequeue` gives up only on an empty queue. -/
theorem QueueInv.deqNull (h : QueueInv s) {hd : ℕ} (hpc : s.deq = .readTail hd)
    (heq : hd = s.sq.tail) :
    QueueInv { s with deq := .idle, nulls := s.nulls ++ [s.count] } := by
  have hok : hd = s.dequeued.length % (s.sq.capacity + 1) := by
    have hok := h.deq_ok
    rwa [hpc] at hok
  have hbound := h.bounded
  have hempty : s.dequeued.length = s.stored.length :=
    Lib.eq_of_mod_eq (by rw [← hok, heq, h.tail_eq]) h.length_le (by omega)
  have hidle := h.setDeq .idle trivial (by simp [QueueSys.lo, hpc])
  refine { hidle with nulls_empty := ?_ }
  intro k hk
  rcases List.mem_append.mp hk with hk | hk
  · exact h.nulls_empty k hk
  · rw [List.mem_singleton.mp hk, QueueSys.count, hempty, Nat.sub_self]

/-- The slot `stream_dequeue` reads holds the stream that was stored there. -/
theorem QueueInv.deqRead (h : QueueInv s) {hd : ℕ} (hpc : s.deq = .read hd) :
    QueueInv { s with deq := .store hd (s.sq.q hd), unread := Function.update s.unread hd false } := by
  have hok := h.deq_ok
  rw [hpc] at hok
  obtain ⟨rfl, hlt⟩ := hok
  refine { h with unread_iff := ?_, enq_ok := h.enq_ok, deq_ok := ?_ }
  · intro j
    have hold := h.unread_iff j
    rw [show s.lo = s.dequeued.length by simp [QueueSys.lo, hpc]] at hold
    -- the slots in use are at most all of them
    have hhi : s.hi ≤ s.dequeued.length + (s.sq.capacity + 1) := by
      have hbound := h.bounded
      unfold QueueSys.hi
      split <;> omega
    have hhi' : s.dequeued.length < s.hi := by
      unfold QueueSys.hi
      split <;> omega
    change Function.update s.unread _ false j = true ↔
      ∃ i, s.dequeued.length + 1 ≤ i ∧ i < s.hi ∧ i % (s.sq.capacity + 1) = j
    by_cases hj : j = s.dequeued.length % (s.sq.capacity + 1)
    · -- the slot just read is not the slot of a later position
      subst hj
      rw [Function.update_self]
      constructor
      · intro hf
        cases hf
      · rintro ⟨i, h1, h2, h3⟩
        have := Lib.eq_of_mod_eq h3.symm (by omega) (by omega)
        omega
    · rw [Function.update_of_ne hj, hold]
      constructor
      · rintro ⟨i, h1, h2, h3⟩
        refine ⟨i, Nat.lt_of_le_of_ne h1 ?_, h2, h3⟩
        rintro rfl
        exact hj h3.symm
      · rintro ⟨i, h1, h2, h3⟩
        exact ⟨i, Nat.le_of_succ_le h1, h2, h3⟩
  · exact ⟨rfl, hlt, h.slots _ le_rfl hlt⟩

/-- The store of `_head` gives the slot up, and `assert(stream)` holds. -/
theorem QueueInv.deqStore (h : QueueInv s) {hd : ℕ} {stream : α}
    (hpc : s.deq = .store hd (some stream)) :
    QueueInv { s with
      sq := { s.sq with head := s.sq.nextIndex hd }
      deq := .idle
      dequeued := s.dequeued ++ [stream] } := by
  have hok := h.deq_ok
  rw [hpc] at hok
  obtain ⟨rfl, hlt, hget⟩ := hok
  have hlen : (s.dequeued ++ [stream]).length = s.dequeued.length + 1 := by simp
  refine { h with
    dequeued_prefix := ?_, bounded := ?_, head_eq := ?_, tail_eq := h.tail_eq, slots := ?_
    unread_iff := ?_, enq_ok := ?_, deq_ok := trivial }
  · -- the stream handed out is the next one of `stored`
    obtain ⟨rest, hrest⟩ := h.dequeued_prefix
    rw [← hrest, List.getElem?_append_right le_rfl, Nat.sub_self] at hget
    cases rest with
    | nil => cases hget
    | cons x xs =>
      obtain rfl : stream = x := Option.some.inj hget
      exact ⟨xs, by rw [← hrest, List.append_assoc]; rfl⟩
  · -- one fewer is in the queue
    have hbound := h.bounded
    rw [hlen]
    change s.stored.length ≤ s.dequeued.length + 1 + s.sq.capacity
    omega
  · rw [hlen]
    exact s.sq.nextIndex_mod _
  · intro i hi hi'
    rw [hlen] at hi
    exact h.slots i (Nat.le_of_succ_le hi) hi'
  · -- its slot has been read before
    intro j
    have hold := h.unread_iff j
    rw [show s.lo = s.dequeued.length + 1 by simp [QueueSys.lo, hpc]] at hold
    change s.unread j = true ↔
      ∃ i, (s.dequeued ++ [stream]).length ≤ i ∧ i < s.hi ∧ i % (s.sq.capacity + 1) = j
    rw [hlen]
    exact hold
  · -- more room than the enqueueing thread counted on
    have heok := h.enq_ok
    cases he : s.enq with
    | idle => trivial
    | readHead stream' => trivial
    | readTail stream' hd' seen =>
      rw [he] at heok
      obtain ⟨old, hold, hrest⟩ := heok
      exact ⟨old, by rw [hlen]; exact Nat.le_succ_of_le hold, hrest⟩
    | write stream' t =>
      rw [he] at heok
      refine ⟨heok.1, ?_⟩
      have := heok.2
      rw [hlen]
      change s.stored.length < s.dequeued.length + 1 + s.sq.capacity
      omega
    | store stream' t =>
      rw [he] at heok
      refine ⟨heok.1, ?_, heok.2.2⟩
      have := heok.2.1
      rw [hlen]
      change s.stored.length < s.dequeued.length + 1 + s.sq.capacity
      omega

/-- Every step inside `stream_dequeue` keeps the invariant. -/
theorem QueueInv.deqNext (h : QueueInv s) (hs : s.deqNext = some s') : QueueInv s' := by
  unfold QueueSys.deqNext at hs
  cases hpc : s.deq with
  | idle => rw [hpc] at hs; cases hs
  | readHead =>
    rw [hpc] at hs
    obtain rfl := Option.some.inj hs
    exact h.setDeq _ h.head_eq (by simp [QueueSys.lo, hpc])
  | readTail hd =>
    rw [hpc] at hs
    dsimp only at hs
    split at hs
    · next hne =>
      obtain rfl := Option.some.inj hs
      exact h.deqReadTail hpc hne
    · next heq =>
      obtain rfl := Option.some.inj hs
      exact h.deqNull hpc (not_not.mp heq)
  | read hd =>
    rw [hpc] at hs
    obtain rfl := Option.some.inj hs
    exact h.deqRead hpc
  | store hd stream =>
    cases stream with
    | none =>
      -- the slot held a stream, so the assertion does not fail
      have hok := h.deq_ok
      rw [hpc] at hok
      obtain ⟨-, hlt, hget⟩ := hok
      rw [List.getElem?_eq_getElem hlt] at hget
      cases hget
    | some stream =>
      rw [hpc] at hs
      obtain rfl := Option.some.inj hs
      exact h.deqStore hpc
  | aborted => rw [hpc] at hs; cases hs

end Steps

/-! ### Runs -/

/-- Every step keeps the invariant. -/
theorem QueueInv.step {s s' : QueueSys α} {l : QueueLabel α} (h : QueueInv s)
    (hs : QueueStep s l s') : QueueInv s' := by
  cases hs with
  | enqCall stream hidle => exact h.setEnq _ trivial (by simp [QueueSys.hi, hidle])
  | enqNext hs => exact h.enqNext hs
  | deqCall hidle => exact h.setDeq _ trivial (by simp [QueueSys.lo, hidle])
  | deqNext hs => exact h.deqNext hs

/-- The capacity is set once. -/
theorem QueueStep.capacity_eq {s s' : QueueSys α} {l : QueueLabel α} (hs : QueueStep s l s') :
    s'.sq.capacity = s.sq.capacity := by
  cases hs with
  | enqCall stream hidle => rfl
  | deqCall hidle => rfl
  | enqNext hs =>
    unfold QueueSys.enqNext at hs
    split at hs
    · cases hs
    · cases hs; rfl
    · split at hs <;> cases hs <;> rfl
    · cases hs; rfl
    · cases hs; rfl
  | deqNext hs =>
    unfold QueueSys.deqNext at hs
    split at hs
    · cases hs
    · cases hs; rfl
    · split at hs <;> cases hs <;> rfl
    · cases hs; rfl
    · dsimp only at hs
      split at hs <;> cases hs <;> rfl
    · cases hs

/-- The slot the enqueueing thread is about to write holds no stream still to be read. -/
theorem QueueInv.write_free {s : QueueSys α} (h : QueueInv s) {stream : α} {t : ℕ}
    (hpc : s.enq = .write stream t) : t ≤ s.sq.capacity ∧ s.unread t = false := by
  have hok := h.enq_ok
  rw [hpc] at hok
  obtain ⟨rfl, hroom⟩ := hok
  refine ⟨Nat.le_of_lt_succ (Nat.mod_lt _ (Nat.succ_pos _)), ?_⟩
  rw [Bool.eq_false_iff]
  intro hunread
  -- an unread position in this slot would be a whole turn behind
  obtain ⟨i, h1, h2, h3⟩ := (h.unread_iff _).mp hunread
  rw [show s.hi = s.stored.length by simp [QueueSys.hi, hpc]] at h2
  have hlo : s.dequeued.length ≤ s.lo := by
    unfold QueueSys.lo
    split <;> omega
  have := Lib.eq_of_mod_eq h3 (by omega) (by omega)
  omega

/-- The slot the dequeueing thread is about to read was written, and not read since. -/
theorem QueueInv.read_written {s : QueueSys α} (h : QueueInv s) {hd : ℕ} (hpc : s.deq = .read hd) :
    hd ≤ s.sq.capacity ∧ s.unread hd = true ∧ s.sq.q hd = s.stored[s.dequeued.length]? := by
  have hok := h.deq_ok
  rw [hpc] at hok
  obtain ⟨rfl, hlt⟩ := hok
  refine ⟨Nat.le_of_lt_succ (Nat.mod_lt _ (Nat.succ_pos _)), ?_, h.slots _ le_rfl hlt⟩
  refine (h.unread_iff _).mpr ⟨s.dequeued.length, ?_, ?_, rfl⟩
  · simp [QueueSys.lo, hpc]
  · unfold QueueSys.hi
    split <;> omega

/-- **The accept queue is a correct queue for one enqueueing and one dequeueing thread.** In every
state of every interleaving: the streams handed out are a prefix of the streams whose `_tail` store
has happened, a slot is written only after its stream was read and read only after it was written,
`stream_enqueue` gave up only when it had found `_capacity` streams, `stream_dequeue` only when it
had found none, and `assert(stream)` never fails. -/
theorem streamQueue_spsc (capacity : ℕ) (junk : ℕ → Option α) (ls : List (QueueLabel α))
    (s : QueueSys α) (hrun : Lib.Run QueueStep (QueueSys.initial capacity junk) ls s) :
    s.dequeued <+: s.stored ∧
      (∀ stream t, s.enq = .write stream t → t ≤ capacity ∧ s.unread t = false) ∧
      (∀ h, s.deq = .read h →
        h ≤ capacity ∧ s.unread h = true ∧ s.sq.q h = s.stored[s.dequeued.length]?) ∧
      (∀ held ∈ s.refused, held = capacity) ∧ (∀ held ∈ s.nulls, held = 0) ∧
      s.deq ≠ .aborted := by
  obtain ⟨hinv, rfl⟩ := hrun.invariant (fun s => QueueInv s ∧ s.sq.capacity = capacity)
    ⟨QueueInv.initial capacity junk, rfl⟩
    fun _ _ _ h hs => ⟨h.1.step hs, hs.capacity_eq.trans h.2⟩
  refine ⟨hinv.dequeued_prefix, fun _ _ => hinv.write_free, fun _ => hinv.read_written,
    hinv.refused_full, hinv.nulls_empty, ?_⟩
  intro habort
  have hok := hinv.deq_ok
  rw [habort] at hok
  exact hok

/-- Both threads run on a queue for one stream: the second `stream_enqueue` fills it, sees the old
`_head` and gives up, and `stream_dequeue` then hands out the first stream. -/
theorem streamQueue_spsc_two :
    ∃ s : QueueSys ℕ,
      Lib.Run QueueStep (QueueSys.initial 1 fun _ => none)
        [.enqCall 7, .enqNext, .enqNext, .enqNext, .enqNext, .enqCall 8, .enqNext,
          .deqCall, .deqNext, .deqNext, .deqNext, .deqNext, .enqNext] s ∧
        s.stored = [7] ∧ s.dequeued = [7] ∧ s.refused = [1] ∧ s.dequeued <+: s.stored := by
  have start : Lib.Run QueueStep (QueueSys.initial 1 fun _ => (none : Option ℕ)) [] _ := .nil
  have enq := start.snoc (.enqCall 7 rfl)
  have stored := (((enq.snoc (.enqNext rfl)).snoc (.enqNext rfl)).snoc (.enqNext rfl)).snoc
    (.enqNext rfl)
  have stale := (stored.snoc (.enqCall 8 rfl)).snoc (.enqNext rfl)
  have deq := ((((stale.snoc (.deqCall rfl)).snoc (.deqNext rfl)).snoc (.deqNext rfl)).snoc
    (.deqNext rfl)).snoc (.deqNext rfl)
  have run := deq.snoc (.enqNext rfl)
  exact ⟨_, run, rfl, rfl, rfl, (streamQueue_spsc 1 _ _ _ run).1⟩

end CmtTcp
