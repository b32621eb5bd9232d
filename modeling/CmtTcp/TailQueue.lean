import CmtTcp.Lib.BackChain
import CmtTcp.Lib.Run

/-!
# The tail queue

The tail queue of `queue.h`, on a heap of links: a link lies in the `tqh_first` of a head or in the
`le_next` of a node, and `le_prev`, which the operations also call `tqe_prev`, is the place of the link
that points to the node.

`tailq_refines`: over every sequence of operations on a head, traversal yields the list that the
operations make of a list, and the nodes and heads that are not concerned are left alone.
-/

namespace CmtTcp

open Lib (Place Links Queue Inserted Removed Unchanged Run)

variable {η κ : Type} [DecidableEq η] [DecidableEq κ]

/-! ### The operations of `queue.h` -/

/-- `*p = v`, for a link -/
def setLink (m : Links η κ) (p : Place η κ) (v : Option κ) : Links η κ :=
  { m with link := Function.update m.link p v }

/-- `a->tqe_prev = p` -/
def setBack (m : Links η κ) (a : κ) (p : Place η κ) : Links η κ :=
  { m with back := Function.update m.back a p }

/-- `head->tqh_last = p` -/
def setLast (m : Links η κ) (h : η) (p : Place η κ) : Links η κ :=
  { m with last := Function.update m.last h p }

/-- `tailq_first` -/
def tailqFirst (m : Links η κ) (h : η) : Option κ := m.link (.head h)

/-- `tailq_next` -/
def tailqNext (m : Links η κ) (node : κ) : Option κ := m.link (.next node)

/-- `tailq_foreach`: the nodes it visits, for at most `n` turns. -/
def tailqForeach (m : Links η κ) (n : ℕ) (h : η) : Option (List κ) :=
  loop n (tailqFirst m h)
where
  /-- The turns that are left when `var` is at a node or at the end. -/
  loop : ℕ → Option κ → Option (List κ)
    | 0, _ => none
    | _ + 1, none => some []
    | n + 1, some var => (loop n (tailqNext m var)).map (var :: ·)

/-- `tailq_init` -/
def tailqInit (m : Links η κ) (h : η) : Links η κ :=
  setLast (setLink m (.head h) none) h (.head h)

/-- What `tailq_insert_head` and `tailq_insert_after` do at the place `p` of a link. -/
def tailqInsertAt (m : Links η κ) (h : η) (p : Place η κ) (elm : κ) : Links η κ :=
  let m := setLink m (.next elm) (m.link p)
  let m :=
    match m.link (.next elm) with
    | some next => setBack m next (.next elm)
    | none => setLast m h (.next elm)
  setBack (setLink m p (some elm)) elm p

/-- `tailq_insert_head`; its last two statements are not part of the `else`. -/
def tailqInsertHead (m : Links η κ) (h : η) (elm : κ) : Links η κ :=
  tailqInsertAt m h (.head h) elm

/-- `tailq_insert_after` -/
def tailqInsertAfter (m : Links η κ) (h : η) (listelm elm : κ) : Links η κ :=
  tailqInsertAt m h (.next listelm) elm

/-- `tailq_insert_before` -/
def tailqInsertBefore (m : Links η κ) (listelm elm : κ) : Links η κ :=
  let m := setBack m elm (m.back listelm)
  let m := setLink m (.next elm) (some listelm)
  let m := setLink m (m.back listelm) (some elm)
  setBack m listelm (.next elm)

/-- `tailq_insert_tail` -/
def tailqInsertTail (m : Links η κ) (h : η) (elm : κ) : Links η κ :=
  let m := setLink m (.next elm) none
  let m := setBack m elm (m.last h)
  let m := setLink m (m.last h) (some elm)
  setLast m h (.next elm)

/-- `tailq_remove` -/
def tailqRemove (m : Links η κ) (h : η) (elm : κ) : Links η κ :=
  let m :=
    match m.link (.next elm) with
    | some next => setBack m next (m.back elm)
    | none => setLast m h (m.back elm)
  setLink m (m.back elm) (m.link (.next elm))

/-! ### What an operation changes -/

section Operations

variable {m : Links η κ} {h : η} {p : Place η κ} {elm listelm : κ} {l₁ l₂ xs : List κ}

theorem tailqInsertAt_inserted (hp : p ≠ .next elm) (hlink : m.link p ≠ some elm) :
    Inserted m (tailqInsertAt m h p elm) h p elm := by
  unfold tailqInsertAt setLink setBack setLast
  dsimp only
  rw [Function.update_self]
  cases hnext : m.link p with
  | none =>
    -- at the end of the list: the head learns the new last place
    refine ⟨?link_new, ?link_at, ?link_other, ?back_new, ?back_next, ?back_other, ?last_end,
      ?last_same, ?last_other⟩
    case link_new => simp [hp.symm, hnext]
    case link_at => simp
    case link_other =>
      intro q hq hqe
      simp [hq, hqe]
    case back_new => simp
    case back_next =>
      intro a ha
      rw [hnext] at ha
      cases ha
    case back_other =>
      intro a ha _
      simp [ha]
    case last_end => simp
    case last_same => exact fun hsome => absurd hnext hsome
    case last_other =>
      intro h' hne
      simp [hne]
  | some a =>
    -- in front of `a`: the head stays, and `a` learns the place that points to it now
    have ha : a ≠ elm := fun hae => hlink (hae ▸ hnext)
    refine ⟨?link_new, ?link_at, ?link_other, ?back_new, ?back_next, ?back_other, ?last_end,
      fun _ => rfl, fun _ _ => rfl⟩
    case link_new => simp [hp.symm, hnext]
    case link_at => simp
    case link_other =>
      intro q hq hqe
      simp [hq, hqe]
    case back_new => simp
    case back_next =>
      intro b hb
      rw [hnext] at hb
      obtain rfl := Option.some.inj hb
      simp [ha]
    case back_other =>
      intro b hb hab
      have hne : b ≠ a := fun hba => hab (by rw [hnext, hba])
      simp [hb, hne]
    case last_end =>
      intro hnone
      rw [hnext] at hnone
      cases hnone

/-- Where the head says that the list ends, `tailq_insert_tail` inserts at that place. -/
theorem tailqInsertTail_eq (hend : m.link (m.last h) = none) :
    tailqInsertTail m h elm = tailqInsertAt m h (m.last h) elm := by
  unfold tailqInsertTail tailqInsertAt setLink setBack setLast
  dsimp only
  rw [Function.update_self, hend]

/-- Where the back-link of `listelm` is right, `tailq_insert_before` inserts at the place it names. -/
theorem tailqInsertBefore_eq (hne : listelm ≠ elm) (hback : m.link (m.back listelm) = some listelm) :
    tailqInsertBefore m listelm elm = tailqInsertAt m h (m.back listelm) elm := by
  unfold tailqInsertBefore tailqInsertAt setLink setBack
  dsimp only
  rw [Function.update_self, hback, Function.update_of_ne hne]
  dsimp only
  -- the two back-links are set in the other order
  rw [Function.update_comm hne]

theorem tailqInsertTail_inserted (hq : Queue m h xs) (helm : elm ∉ xs) :
    Inserted m (tailqInsertTail m h elm) h ((Place.head h).past xs) elm := by
  have hend : m.link ((Place.head h).past xs) = none := hq.ended
  have hplace : (Place.head h).past xs ≠ .next elm :=
    (Queue.past_outside xs (.inl ⟨elm, helm, rfl⟩)).symm
  rw [tailqInsertTail_eq (by rw [hq.last, hend]), hq.last]
  refine tailqInsertAt_inserted hplace ?_
  rw [hend]
  exact Option.some_ne_none elm ∘ Eq.symm

theorem tailqInsertBefore_inserted (hq : Queue m h (l₁ ++ listelm :: l₂))
    (helm : elm ∉ l₁ ++ listelm :: l₂) :
    Inserted m (tailqInsertBefore m listelm elm) h ((Place.head h).past l₁) elm := by
  have helm₁ : elm ∉ l₁ := fun hmem => helm (List.mem_append_left _ hmem)
  have hne : listelm ≠ elm := fun heq => helm (by rw [heq]; simp)
  have hlink : m.link ((Place.head h).past l₁) = some listelm := hq.link_past
  have hplace : (Place.head h).past l₁ ≠ .next elm :=
    (Queue.past_outside l₁ (.inl ⟨elm, helm₁, rfl⟩)).symm
  rw [@tailqInsertBefore_eq _ _ _ _ m h _ _ hne (by rw [hq.back_eq, hlink]), hq.back_eq]
  refine tailqInsertAt_inserted hplace ?_
  rw [hlink]
  exact fun heq => hne (Option.some.inj heq)

theorem tailqRemove_removed (hq : Queue m h (l₁ ++ elm :: l₂)) :
    Removed m (tailqRemove m h elm) h ((Place.head h).past l₁) elm := by
  -- the list does not come back to `elm`
  have hself : ∀ a, m.link (.next elm) = some a → a ≠ elm := by
    rintro a ha rfl
    rw [hq.link_next] at ha
    have hnodup := (List.nodup_append.mp hq.nodup).2.1
    exact (List.nodup_cons.mp hnodup).1 (List.mem_of_mem_head? ha)
  unfold tailqRemove setLink setBack setLast
  dsimp only
  cases hnext : m.link (.next elm) with
  | none =>
    -- the last element: the head learns the new last place
    dsimp only
    rw [hq.back_eq]
    refine ⟨?link_at, ?link_other, ?back_next, fun _ _ => rfl, ?last_end, ?last_same, ?last_other⟩
    case link_at => simp [hnext]
    case link_other =>
      intro q hq
      simp [hq]
    case back_next =>
      intro a ha
      rw [hnext] at ha
      cases ha
    case last_end => simp
    case last_same => exact fun hsome => absurd hnext hsome
    case last_other =>
      intro h' hne
      simp [hne]
  | some a =>
    -- in front of `a`, which takes over the back-link
    have ha := hself a hnext
    dsimp only
    rw [Function.update_of_ne ha.symm, hq.back_eq]
    refine ⟨?link_at, ?link_other, ?back_next, ?back_other, ?last_end, fun _ => rfl, fun _ _ => rfl⟩
    case link_at => simp [hnext]
    case link_other =>
      intro q hq
      simp [hq]
    case back_next =>
      intro b hb
      rw [hnext] at hb
      obtain rfl := Option.some.inj hb
      simp
    case back_other =>
      intro b hb
      have hba : b ≠ a := fun heq => hb (by rw [hnext, heq])
      simp [hba]
    case last_end =>
      intro hnone
      rw [hnext] at hnone
      cases hnone

end Operations

/-! ### Sequences of operations -/

/-- An operation on a given head. -/
inductive TailqOp (κ : Type)
  | init
  | insertHead (elm : κ)
  | insertTail (elm : κ)
  | insertAfter (listelm elm : κ)
  | insertBefore (listelm elm : κ)
  | remove (elm : κ)

/-- Put `e` in behind `b`. -/
def insertBehind (b e : κ) : List κ → List κ
  | [] => []
  | a :: l => if a = b then a :: e :: l else a :: insertBehind b e l

/-- Put `e` in before `b`. -/
def insertInFront (b e : κ) : List κ → List κ
  | [] => []
  | a :: l => if a = b then e :: a :: l else a :: insertInFront b e l

namespace TailqOp

/-- The operation on the heap. -/
def onHeap (h : η) (m : Links η κ) : TailqOp κ → Links η κ
  | init => tailqInit m h
  | insertHead elm => tailqInsertHead m h elm
  | insertTail elm => tailqInsertTail m h elm
  | insertAfter listelm elm => tailqInsertAfter m h listelm elm
  | insertBefore listelm elm => tailqInsertBefore m listelm elm
  | remove elm => tailqRemove m h elm

/-- The operation on a list. -/
def onList (xs : List κ) : TailqOp κ → List κ
  | init => []
  | insertHead elm => elm :: xs
  | insertTail elm => xs ++ [elm]
  | insertAfter listelm elm => insertBehind listelm elm xs
  | insertBefore listelm elm => insertInFront listelm elm xs
  | remove elm => xs.erase elm

/-- An inserted node is linked neither here nor on another head, where the nodes `busy` are; an anchor
and a removed node are linked here. -/
def Valid (busy : κ → Prop) (xs : List κ) : TailqOp κ → Prop
  | init => True
  | insertHead elm => elm ∉ xs ∧ ¬busy elm
  | insertTail elm => elm ∉ xs ∧ ¬busy elm
  | insertAfter listelm elm => listelm ∈ xs ∧ elm ∉ xs ∧ ¬busy elm
  | insertBefore listelm elm => listelm ∈ xs ∧ elm ∉ xs ∧ ¬busy elm
  | remove elm => elm ∈ xs

end TailqOp

/-- An operation on the heap, and on the list that stands for it. -/
structure TailqStep (h : η) (busy : κ → Prop) (s : Links η κ × List κ) (op : TailqOp κ)
    (s' : Links η κ × List κ) : Prop where
  valid : op.Valid busy s.2
  heap : s'.1 = op.onHeap h s.1
  list : s'.2 = op.onList s.2

section Step

variable {m m' : Links η κ} {h : η} {elm listelm : κ} {l₁ l₂ xs : List κ} {busy : κ → Prop}

omit [DecidableEq η] in
theorem insertBehind_split (hb : listelm ∉ l₁) :
    insertBehind listelm elm (l₁ ++ listelm :: l₂) = l₁ ++ listelm :: elm :: l₂ := by
  induction l₁ with
  | nil => exact if_pos rfl
  | cons a l₁ ih =>
    obtain ⟨hne, hb⟩ := not_or.mp fun hmem => hb (List.mem_cons.mpr hmem)
    rw [List.cons_append, insertBehind, if_neg (Ne.symm hne), ih hb]
    rfl

omit [DecidableEq η] in
theorem insertInFront_split (hb : listelm ∉ l₁) :
    insertInFront listelm elm (l₁ ++ listelm :: l₂) = l₁ ++ elm :: listelm :: l₂ := by
  induction l₁ with
  | nil => exact if_pos rfl
  | cons a l₁ ih =>
    obtain ⟨hne, hb⟩ := not_or.mp fun hmem => hb (List.mem_cons.mpr hmem)
    rw [List.cons_append, insertInFront, if_neg (Ne.symm hne), ih hb]
    rfl

theorem tailqInit_queue (m : Links η κ) (h : η) : Queue (tailqInit m h) h [] where
  chain := trivial
  last := Function.update_self ..
  ended := Function.update_self ..
  nodup := List.nodup_nil

theorem tailqInit_unchanged (m : Links η κ) (h : η) : Unchanged m (tailqInit m h) h [] := by
  unfold tailqInit setLink setLast
  refine ⟨fun a _ => ?_, fun _ _ => rfl, fun h' hne => ?_, fun h' hne => ?_⟩
  · simp
  · simp [hne]
  · simp [hne]

omit [DecidableEq η] in
theorem mem_insertBehind {a b e : κ} {l : List κ} (ha : a ∈ insertBehind b e l) : a = e ∨ a ∈ l := by
  induction l with
  | nil => cases ha
  | cons c l ih =>
    unfold insertBehind at ha
    split at ha
    · simp only [List.mem_cons] at ha ⊢
      tauto
    · rcases List.mem_cons.mp ha with rfl | ha
      · exact .inr List.mem_cons_self
      · exact (ih ha).imp_right (List.mem_cons_of_mem c)

omit [DecidableEq η] in
theorem mem_insertInFront {a b e : κ} {l : List κ} (ha : a ∈ insertInFront b e l) :
    a = e ∨ a ∈ l := by
  induction l with
  | nil => cases ha
  | cons c l ih =>
    unfold insertInFront at ha
    split at ha
    · simp only [List.mem_cons] at ha ⊢
      tauto
    · rcases List.mem_cons.mp ha with rfl | ha
      · exact .inr List.mem_cons_self
      · exact (ih ha).imp_right (List.mem_cons_of_mem c)

omit [DecidableEq η] in
/-- The nodes of the list stay apart from those that are linked elsewhere. -/
theorem TailqOp.onList_free (hfree : ∀ a ∈ xs, ¬busy a) (op : TailqOp κ)
    (hvalid : op.Valid busy xs) : ∀ a ∈ op.onList xs, ¬busy a := by
  have hnew : ∀ a e, ¬busy e → a = e ∨ a ∈ xs → ¬busy a := by
    rintro a e he (rfl | ha)
    · exact he
    · exact hfree a ha
  intro a ha
  cases op with
  | init => cases ha
  | insertHead elm => exact hnew a elm hvalid.2 (List.mem_cons.mp ha)
  | insertTail elm =>
    apply hnew a elm hvalid.2
    rcases List.mem_append.mp ha with ha | ha
    · exact .inr ha
    · exact .inl (List.mem_singleton.mp ha)
  | insertAfter listelm elm => exact hnew a elm hvalid.2.2 (mem_insertBehind ha)
  | insertBefore listelm elm => exact hnew a elm hvalid.2.2 (mem_insertInFront ha)
  | remove elm => exact hfree a (List.mem_of_mem_erase ha)

/-- **One operation.** The heap follows the list, and nothing else changes. -/
theorem TailqOp.step (hq : Queue m h xs) (op : TailqOp κ) (hvalid : op.Valid busy xs) :
    Queue (op.onHeap h m) h (op.onList xs) ∧ Unchanged m (op.onHeap h m) h (op.onList xs) := by
  cases op with
  | init =>
    exact ⟨tailqInit_queue m h, tailqInit_unchanged m h⟩
  | insertHead elm =>
    have hins : Inserted m (tailqInsertHead m h elm) h ((Place.head h).past []) elm := by
      refine tailqInsertAt_inserted nofun fun hlink => hvalid.1 ?_
      exact List.mem_of_mem_head? ((@Queue.link_past _ _ m h [] xs hq).symm.trans hlink)
    exact ⟨@Inserted.queue _ _ m _ h elm [] xs hins hq hvalid.1, @Inserted.unchanged _ _ m _ h elm [] xs hins hq⟩
  | insertTail elm =>
    have hins := tailqInsertTail_inserted hq hvalid.1
    have hq' : Queue m h (xs ++ []) := by rwa [List.append_nil]
    exact ⟨hins.queue hq' (by rw [List.append_nil]; exact hvalid.1), hins.unchanged hq'⟩
  | insertAfter listelm elm =>
    obtain ⟨hmem, helm, -⟩ := hvalid
    obtain ⟨l₁, l₂, rfl, hnot⟩ := Queue.split hq hmem
    have hq' : Queue m h ((l₁ ++ [listelm]) ++ l₂) := by rwa [List.append_assoc]
    have helm' : elm ∉ (l₁ ++ [listelm]) ++ l₂ := by rwa [List.append_assoc]
    -- the place is the one past the anchor
    have hins : Inserted m (tailqInsertAfter m h listelm elm) h
        ((Place.head h).past (l₁ ++ [listelm])) elm := by
      rw [Place.past_append]
      refine tailqInsertAt_inserted (fun heq => ?_) fun hlink => ?_
      · exact helm (Place.next.inj heq ▸ by simp)
      · rw [hq.link_next] at hlink
        have hmem₂ := List.mem_of_mem_head? hlink
        exact helm (by simp [hmem₂])
    have hlist : onList (l₁ ++ listelm :: l₂) (insertAfter listelm elm) =
        (l₁ ++ [listelm]) ++ elm :: l₂ := by
      rw [List.append_assoc]
      exact insertBehind_split hnot
    rw [hlist]
    exact ⟨hins.queue hq' helm', hins.unchanged hq'⟩
  | insertBefore listelm elm =>
    obtain ⟨hmem, helm, -⟩ := hvalid
    obtain ⟨l₁, l₂, rfl, hnot⟩ := Queue.split hq hmem
    have hins := tailqInsertBefore_inserted hq helm
    have hlist : onList (l₁ ++ listelm :: l₂) (insertBefore listelm elm) =
        l₁ ++ elm :: listelm :: l₂ := insertInFront_split hnot
    rw [hlist]
    exact ⟨hins.queue hq helm, hins.unchanged hq⟩
  | remove elm =>
    obtain ⟨l₁, l₂, rfl, hnot⟩ := Queue.split hq hvalid
    have hrem := tailqRemove_removed hq
    have hlist : onList (l₁ ++ elm :: l₂) (remove elm) = l₁ ++ l₂ := by
      change (l₁ ++ elm :: l₂).erase elm = l₁ ++ l₂
      rw [List.erase_append_right _ hnot, List.erase_cons_head]
    rw [hlist]
    exact ⟨hrem.queue hq, hrem.unchanged hq⟩

/-- What a run on a fresh head preserves: the list is there, and so are the lists on other heads. -/
theorem tailq_run {ops : List (TailqOp κ)}
    (hrun : Run (TailqStep h busy) (tailqInit m h, []) ops (m', xs)) :
    Queue m' h xs ∧ ∀ h' ys, h' ≠ h → (∀ a ∈ ys, busy a) → Queue m h' ys → Queue m' h' ys := by
  -- a list on another head has none of the nodes of this one
  have hinv := hrun.invariant
    (fun s => Queue s.1 h s.2 ∧ (∀ a ∈ s.2, ¬busy a) ∧
      ∀ h' ys, h' ≠ h → (∀ a ∈ ys, busy a) → Queue m h' ys → Queue s.1 h' ys)
    ⟨tailqInit_queue m h, fun _ ha => absurd ha List.not_mem_nil, fun h' ys hne _ hq =>
      (tailqInit_unchanged m h).queue hne (fun _ _ => List.not_mem_nil) hq⟩ ?_
  · exact ⟨hinv.1, hinv.2.2⟩
  · rintro ⟨m₁, xs₁⟩ op ⟨m₂, xs₂⟩ ⟨hq, hfree, hother⟩ ⟨hvalid, rfl, rfl⟩
    obtain ⟨hq', hun⟩ := TailqOp.step hq op hvalid
    have hfree' := TailqOp.onList_free hfree op hvalid
    refine ⟨hq', hfree', fun h' ys hne hbusy hys => ?_⟩
    exact hun.queue hne (fun a ha hmem => hfree' a hmem (hbusy a ha)) (hother h' ys hne hbusy hys)

end Step

/-! ### The list behind the heap -/

/-- What the fields say when the list on `h` is `xs`. -/
structure TailqLaw (m : Links η κ) (h : η) (xs : List κ) : Prop where
  /-- traversal ends and visits the nodes of the list in order -/
  foreach : ∀ n, xs.length < n → tailqForeach m n h = some xs
  /-- the back-link of a node is the place of the link that points to it -/
  backLink : ∀ a ∈ xs, m.link (m.back a) = some a ∧
    (m.back a = .head h ∨ ∃ b ∈ xs, m.back a = .next b)
  /-- `tqh_last` is the place of the last link -/
  last : m.last h = (match xs.getLast? with | none => .head h | some a => .next a)

section Law

variable {m : Links η κ} {h : η} {xs : List κ}

omit [DecidableEq η] [DecidableEq κ] in
theorem tailqForeach_loop (m : Links η κ) (n : ℕ) (p : Place η κ) :
    tailqForeach.loop m n (m.link p) = Lib.walk m n p := by
  induction n generalizing p with
  | zero => rfl
  | succ n ih =>
    unfold Lib.walk
    cases m.link p with
    | none => rfl
    | some a => exact congrArg (Option.map (a :: ·)) (ih (.next a))

omit [DecidableEq η] [DecidableEq κ] in
theorem past_eq_getLast (p : Place η κ) (xs : List κ) :
    p.past xs = (match xs.getLast? with | none => p | some a => .next a) := by
  induction xs generalizing p with
  | nil => rfl
  | cons a xs ih =>
    change (Place.next a).past xs = _
    rw [ih, List.getLast?_cons]
    cases xs.getLast? with
    | none => rfl
    | some b => rfl

omit [DecidableEq η] [DecidableEq κ] in
theorem tailqLaw_of_queue (hq : Queue m h xs) : TailqLaw m h xs where
  foreach n hn := (tailqForeach_loop m n (.head h)).trans (hq.walk hn)
  backLink := by
    intro a ha
    obtain ⟨l₁, l₂, rfl, -⟩ := hq.split ha
    rw [hq.back_eq]
    refine ⟨hq.link_past, (Place.past_eq (.head h) l₁).imp_right ?_⟩
    rintro ⟨b, hb, hpast⟩
    exact ⟨b, List.mem_append_left _ hb, hpast⟩
  last := by rw [hq.last, past_eq_getLast]

/-- What is left of the fields `m` after operations on `h` that make the list `xs`, while the nodes
`busy` are linked on other heads. -/
structure TailqRefines (m m' : Links η κ) (h : η) (busy : κ → Prop) (xs : List κ) : Prop
    extends TailqLaw m' h xs where
  /-- lists on other heads are what they were -/
  other : ∀ h' ys, h' ≠ h → (∀ a ∈ ys, busy a) → Queue m h' ys → Queue m' h' ys
  /-- one operation more changes no node outside of its list and no other head -/
  frame : ∀ op m'' xs'', TailqStep h busy (m', xs) op (m'', xs'') → Unchanged m' m'' h xs''

/-- **Refinement.** After any sequence of operations on a head that was initialised, in which inserted
nodes are linked nowhere and anchors and removed nodes are linked here, the fields are those of the
list that the same operations make, and everything else is left alone. -/
theorem tailq_refines {m' : Links η κ} {busy : κ → Prop} {ops : List (TailqOp κ)}
    (hrun : Run (TailqStep h busy) (tailqInit m h, []) ops (m', xs)) :
    TailqRefines m m' h busy xs := by
  obtain ⟨hq, hother⟩ := tailq_run hrun
  refine ⟨tailqLaw_of_queue hq, hother, ?_⟩
  rintro op m'' xs'' ⟨hvalid, rfl, rfl⟩
  exact (TailqOp.step hq op hvalid).2

end Law

/-- A heap in which nothing is linked. -/
def noLinks : Links ℕ ℕ := ⟨fun _ => none, fun a => .next a, .head⟩

/-- Node `1` is put in at the head, node `2` behind it. -/
theorem tailq_refines_two :
    TailqRefines noLinks (tailqInsertAfter (tailqInsertHead (tailqInit noLinks 0) 0 1) 0 1 2) 0
      (fun _ => False) [1, 2] :=
  tailq_refines
    (.snoc
      (.snoc .nil (⟨⟨by decide, not_false⟩, rfl, rfl⟩ :
        TailqStep 0 (fun _ => False) _ (.insertHead 1) (_, [1])))
      (⟨⟨by decide, by decide, not_false⟩, rfl, rfl⟩ :
        TailqStep 0 (fun _ => False) _ (.insertAfter 1 2) (_, [1, 2])))

end CmtTcp
