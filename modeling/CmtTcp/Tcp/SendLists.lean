import CmtTcp.Lib.InsertionOrder
import CmtTcp.TailQueue
import CmtTcp.Tcp.Lists

/-!
# The lists of the sender, link by link

The three lists of `cmt_sender_t` with the heads and nodes that `tailq_insert_tail` and `tailq_remove` work
on. A stream has one node for each list, and a flag and a counter say the same thing in other words.

* `transmission_exact_iff`: whatever the order of calls, lists, flags, counters and the calls made agree,
  as long as no stream is taken off the end of the ack list;
* `Represents.addto`, `Represents.remove`: the functions of `Tcp.Lists`, which keep the addresses of the
  streams, compute the lists that are linked here.

Heads and nodes are fields that hold pointers, and five of the six functions hand these pointers on.
`cmt_tcp_remove_acklist` hands on the address of the field. A `tailq_head_t` at that address has the field
for its `tqh_first` and the eight bytes behind it, which are `control_list_cnt` and `send_list_cnt`, for its
`tqh_last`; `tailq_remove` writes there when the stream is the last one. Every head and every node has its
own storage, and `snd` and `sndvar` are one record.
-/

namespace CmtTcp

open Lib (Place Links Queue Unchanged SetOp insertedAt InOrder Run)

/-! ### The source -/

/-- The lists of `cmt_sender_t`. -/
inductive SenderList
  | ack
  | control
  | send
deriving DecidableEq, Repr

/-- The sender and what `sndvar` says of each stream: its nodes, its flags `on_ack_list`,
`on_control_list` and `on_send_list`, and whether `sndbuf` is set; and where the links lie in memory. -/
structure Transmission where
  links : Links SenderList (SenderList × Addr)
  address : Place SenderList (SenderList × Addr) → U64
  cnt : SenderList → U32
  on : SenderList → Addr → Bool
  sndbuf : Addr → Bool

namespace Transmission

/-- What the three `cmt_tcp_addto_*` do. -/
def addto (s : Transmission) (k : SenderList) (a : Addr) : Transmission :=
  if !s.on k a then
    { s with
      on := Function.update s.on k (Function.update (s.on k) a true)
      links := tailqInsertTail s.links k (k, a)
      cnt := Function.update s.cnt k (s.cnt k + 1) }
  else s

/-- What `cmt_tcp_remove_controllist` and `cmt_tcp_remove_sendlist` do. -/
def remove (s : Transmission) (k : SenderList) (a : Addr) : Transmission :=
  if s.on k a then
    { s with
      on := Function.update s.on k (Function.update (s.on k) a false)
      links := tailqRemove s.links k (k, a)
      cnt := Function.update s.cnt k (s.cnt k - 1) }
  else s

/-- `cmt_tcp_addto_acklist` -/
def addtoAcklist (s : Transmission) (a : Addr) : Transmission := s.addto .ack a

/-- `cmt_tcp_addto_controllist` -/
def addtoControllist (s : Transmission) (a : Addr) : Transmission := s.addto .control a

/-- `cmt_tcp_addto_sendlist`; without a send buffer it comes to `assert(0)`. -/
def addtoSendlist (s : Transmission) (a : Addr) : Option Transmission :=
  if !s.sndbuf a then none else some (s.addto .send a)

/-- The counters `control_list_cnt` and `send_list_cnt` after a pointer was written over them. -/
def overwritten (cnt : SenderList → U32) (p : U64) : SenderList → U32 :=
  Function.update (Function.update cnt .control (p.setWidth 32)) .send ((p >>> 32).setWidth 32)

/-- `cmt_tcp_remove_acklist`, which calls `tailq_remove` on `&sender->ack_list`. -/
def removeAcklist (s : Transmission) (a : Addr) : Transmission :=
  if s.on .ack a then
    let s := { s with on := Function.update s.on .ack (Function.update (s.on .ack) a false) }
    let s :=
      match tailqNext s.links (.ack, a) with
      | some next => { s with links := setBack s.links next (s.links.back (.ack, a)) }
      -- `head->tqh_last = elm->tqe_prev`, and `tqh_last` of the list stays as it is
      | none => { s with cnt := overwritten s.cnt (s.address (s.links.back (.ack, a))) }
    { s with
      links := setLink s.links (s.links.back (.ack, a)) (tailqNext s.links (.ack, a))
      cnt := Function.update s.cnt .ack (s.cnt .ack - 1) }
  else s

/-- `cmt_tcp_remove_controllist` -/
def removeControllist (s : Transmission) (a : Addr) : Transmission := s.remove .control a

/-- `cmt_tcp_remove_sendlist` -/
def removeSendlist (s : Transmission) (a : Addr) : Transmission := s.remove .send a

end Transmission

/-- A call of one of the six functions. -/
inductive SendCall
  | addtoAcklist (a : Addr)
  | addtoControllist (a : Addr)
  | addtoSendlist (a : Addr)
  | removeAcklist (a : Addr)
  | removeControllist (a : Addr)
  | removeSendlist (a : Addr)
deriving DecidableEq, Repr

namespace SendCall

/-- The stream of a call. -/
def stream : SendCall → Addr
  | addtoAcklist a | addtoControllist a | addtoSendlist a => a
  | removeAcklist a | removeControllist a | removeSendlist a => a

/-- The list of a call. -/
def list : SendCall → SenderList
  | addtoAcklist _ | removeAcklist _ => .ack
  | addtoControllist _ | removeControllist _ => .control
  | addtoSendlist _ | removeSendlist _ => .send

/-- What a call asks for. -/
def op : SendCall → SetOp Addr
  | addtoAcklist a | addtoControllist a | addtoSendlist a => .add a
  | removeAcklist a | removeControllist a | removeSendlist a => .remove a

/-- A stream that is taken off the ack list is not the last one. -/
def Fits (s : Transmission) : SendCall → Prop
  | removeAcklist a => s.on .ack a = true → tailqNext s.links (.ack, a) ≠ none
  | _ => True

/-- The call. -/
def run (s : Transmission) : SendCall → Option Transmission
  | addtoAcklist a => some (s.addtoAcklist a)
  | addtoControllist a => some (s.addtoControllist a)
  | addtoSendlist a => s.addtoSendlist a
  | removeAcklist a => some (s.removeAcklist a)
  | removeControllist a => some (s.removeControllist a)
  | removeSendlist a => some (s.removeSendlist a)

/-- Each of the calls fits where its turn comes. -/
def FitAll : Transmission → List SendCall → Prop
  | _, [] => True
  | s, c :: calls => c.Fits s ∧ ∀ s', c.run s = some s' → FitAll s' calls

end SendCall

/-- What the calls asked of list `k`, the latest first. -/
def opsOn (k : SenderList) (calls : List SendCall) : List (SetOp Addr) :=
  (calls.reverse.filter (·.list = k)).map SendCall.op

/-- When the stream was first put on list `k` since it was last removed, in operations on that list. -/
def onSince (k : SenderList) (a : Addr) (calls : List SendCall) : Option ℕ :=
  insertedAt a (opsOn k calls)

/-- The three lists are initialised, and the streams are on none of them. -/
structure Transmission.Fresh (streams : Finset Addr) (s : Transmission) : Prop where
  first : ∀ k, tailqFirst s.links k = none
  last : ∀ k, s.links.last k = .head k
  cnt : ∀ k, s.cnt k = 0
  on : ∀ k, ∀ a ∈ streams, s.on k a = false
  sndbuf : ∀ a ∈ streams, s.sndbuf a

/-- Heads, nodes, flags and counters say that the lists are `lists`. -/
structure Transmission.Lists (streams : Finset Addr) (s : Transmission)
    (lists : SenderList → List Addr) : Prop where
  queue : ∀ k, Queue s.links k ((lists k).map (k, ·))
  cnt : ∀ k, s.cnt k = BitVec.ofNat 32 (lists k).length
  on : ∀ k, ∀ a ∈ streams, (s.on k a = true ↔ a ∈ lists k)
  mem : ∀ k, ∀ a ∈ lists k, a ∈ streams
  sndbuf : ∀ a ∈ streams, s.sndbuf a

/-! ### One call -/

/-- `s'` differs from `s` on list `k` only. -/
structure Transmission.OnlyList (k : SenderList) (s s' : Transmission) : Prop where
  head : ∀ k', k' ≠ k → s'.links.link (.head k') = s.links.link (.head k')
  last : ∀ k', k' ≠ k → s'.links.last k' = s.links.last k'
  next : ∀ k', k' ≠ k → ∀ a, s'.links.link (.next (k', a)) = s.links.link (.next (k', a))
  back : ∀ k', k' ≠ k → ∀ a, s'.links.back (k', a) = s.links.back (k', a)
  cnt : ∀ k', k' ≠ k → s'.cnt k' = s.cnt k'
  on : ∀ k', k' ≠ k → s'.on k' = s.on k'
  sndbuf : s'.sndbuf = s.sndbuf

section Call

variable {streams : Finset Addr} {s s' : Transmission} {lists : SenderList → List Addr}
  {k k' : SenderList} {a b : Addr} {xs : List Addr}

theorem Transmission.OnlyList.refl (k : SenderList) (s : Transmission) : s.OnlyList k s :=
  ⟨fun _ _ => rfl, fun _ _ => rfl, fun _ _ _ => rfl, fun _ _ _ => rfl, fun _ _ => rfl,
    fun _ _ => rfl, rfl⟩

theorem mem_nodes : (k', b) ∈ xs.map (k, ·) ↔ k' = k ∧ b ∈ xs := by
  simp only [List.mem_map, Prod.mk.injEq]
  constructor
  · rintro ⟨c, hc, rfl, rfl⟩
    exact ⟨rfl, hc⟩
  · rintro ⟨rfl, hb⟩
    exact ⟨b, hb, rfl, rfl⟩

theorem nodes_insertTail (k : SenderList) (a : Addr) (xs : List Addr) :
    TailqOp.onList (xs.map (k, ·)) (.insertTail (k, a)) = (xs ++ [a]).map (k, ·) := by
  rw [List.map_append]
  rfl

theorem nodes_remove (k : SenderList) (a : Addr) (xs : List Addr) :
    TailqOp.onList (xs.map (k, ·)) (.remove (k, a)) = (xs.erase a).map (k, ·) :=
  (@List.map_erase Addr (SenderList × Addr) _ _ instBEqOfDecidableEq _ _
    (fun _ _ h => (Prod.mk.inj h).2) a xs).symm

/-- Changes to the links of list `k` leave the other lists linked as they are. -/
theorem Queue.other (hun : Unchanged s.links s'.links k (xs.map (k, ·))) (hne : k' ≠ k)
    (hq : Queue s.links k' ((lists k').map (k', ·))) :
    Queue s'.links k' ((lists k').map (k', ·)) := by
  refine hun.queue hne (fun n hn hmem => ?_) hq
  -- a node says which list it is for, so no node is for two
  obtain ⟨b, hb⟩ := n
  exact hne ((mem_nodes.mp hn).1.symm.trans (mem_nodes.mp hmem).1)

/-- The list `k` becomes `xs`, linked, counted and marked so, and nothing else changes. -/
theorem Transmission.Lists.become (h : s.Lists streams lists)
    (hqueue : Queue s'.links k (xs.map (k, ·)))
    (hun : Unchanged s.links s'.links k (xs.map (k, ·)))
    (hcnt : s'.cnt = Function.update s.cnt k (BitVec.ofNat 32 xs.length))
    (hon : ∀ b ∈ streams, (s'.on k b = true ↔ b ∈ xs)) (hother : ∀ k', k' ≠ k → s'.on k' = s.on k')
    (hmem : ∀ b ∈ xs, b ∈ streams) (hbuf : s'.sndbuf = s.sndbuf) :
    s'.Lists streams (Function.update lists k xs) ∧ s.OnlyList k s' := by
  refine ⟨⟨fun k' => ?_, fun k' => ?_, fun k' => ?_, fun k' => ?_, ?_⟩, ?_⟩
  · by_cases hk : k' = k
    · subst hk
      rwa [Function.update_self]
    · rw [Function.update_of_ne hk]
      exact Queue.other hun hk (h.queue k')
  · rw [hcnt]
    by_cases hk : k' = k
    · subst hk
      rw [Function.update_self, Function.update_self]
    · rw [Function.update_of_ne hk, Function.update_of_ne hk]
      exact h.cnt k'
  · by_cases hk : k' = k
    · subst hk
      rwa [Function.update_self]
    · rw [Function.update_of_ne hk, hother k' hk]
      exact h.on k'
  · by_cases hk : k' = k
    · subst hk
      rwa [Function.update_self]
    · rw [Function.update_of_ne hk]
      exact h.mem k'
  · rw [hbuf]
    exact h.sndbuf
  · -- the nodes of the other lists are not on this one
    have hnode : ∀ k', k' ≠ k → ∀ a, (k', a) ∉ xs.map (k, ·) :=
      fun k' hk a hmem => hk (mem_nodes.mp hmem).1
    refine ⟨hun.first, hun.last, fun k' hk a => hun.link _ (hnode k' hk a),
      fun k' hk a => hun.back _ (hnode k' hk a), fun k' hk => ?_, hother, hbuf⟩
    rw [hcnt, Function.update_of_ne hk]

theorem Transmission.addto_lists (h : s.Lists streams lists) (k : SenderList) (ha : a ∈ streams) :
    (s.addto k a).Lists streams
        (Function.update lists k ((SetOp.add a).onList (lists k))) ∧
      s.OnlyList k (s.addto k a) := by
  have hflag := h.on k a ha
  rw [SetOp.onList_add]
  unfold Transmission.addto
  by_cases hin : a ∈ lists k
  · -- the flag keeps the stream from being linked again
    rw [if_pos hin, Function.update_eq_self, hflag.mpr hin]
    exact ⟨h, .refl k s⟩
  · have hclear : s.on k a = false := by
      simpa using mt hflag.mp hin
    have hnode : (k, a) ∉ (lists k).map (k, ·) := fun hmem => hin (mem_nodes.mp hmem).2
    -- what the macros of `queue.h` do on any list
    obtain ⟨hqueue, hun⟩ := @TailqOp.step _ _ _ _ _ k _ (fun _ => False) (h.queue k)
      (.insertTail (k, a)) ⟨hnode, not_false⟩
    rw [nodes_insertTail] at hqueue hun
    rw [if_neg hin, hclear]
    refine h.become hqueue hun ?_ ?_ ?_ ?_ rfl
    · change Function.update s.cnt k (s.cnt k + 1) = _
      rw [h.cnt, List.length_append, List.length_singleton, BitVec.ofNat_add]
      rfl
    · intro b hb
      change Function.update s.on k (Function.update (s.on k) a true) k b = true ↔ _
      rw [Function.update_self, List.mem_append, List.mem_singleton, ← h.on k b hb]
      by_cases hba : b = a
      · subst hba
        simp
      · rw [Function.update_of_ne hba]
        simp [hba]
    · exact fun k' hk => Function.update_of_ne hk _ _
    · intro b hb
      rcases List.mem_append.mp hb with hb | hb
      · exact h.mem k b hb
      · rwa [List.mem_singleton.mp hb]

/-- Where the list goes on behind the stream, the head that is handed to `tailq_remove` does not matter. -/
theorem Transmission.removeAcklist_eq (hnext : s.on .ack a = true → tailqNext s.links (.ack, a) ≠ none) :
    s.removeAcklist a = s.remove .ack a := by
  unfold Transmission.removeAcklist Transmission.remove
  split
  · next hon =>
    obtain ⟨next, hsome⟩ := Option.ne_none_iff_exists'.mp (hnext hon)
    dsimp only
    rw [hsome]
    unfold tailqNext at hsome
    unfold tailqRemove
    rw [hsome]
    rfl
  · rfl

theorem Transmission.remove_lists (h : s.Lists streams lists) (k : SenderList) (ha : a ∈ streams) :
    (s.remove k a).Lists streams
        (Function.update lists k ((SetOp.remove a).onList (lists k))) ∧
      s.OnlyList k (s.remove k a) := by
  have hflag := h.on k a ha
  rw [SetOp.onList_remove]
  unfold Transmission.remove
  by_cases hin : a ∈ lists k
  · have hnode : (k, a) ∈ (lists k).map (k, ·) := mem_nodes.mpr ⟨rfl, hin⟩
    obtain ⟨hqueue, hun⟩ := @TailqOp.step _ _ _ _ _ k _ (fun _ => False) (h.queue k)
      (.remove (k, a)) hnode
    rw [nodes_remove] at hqueue hun
    rw [hflag.mpr hin]
    -- one removal takes the stream off for good
    have hnodup : (lists k).Nodup := List.Nodup.of_map _ (h.queue k).nodup
    refine h.become hqueue hun ?_ ?_ ?_ ?_ rfl
    · change Function.update s.cnt k (s.cnt k - 1) = _
      -- the list is not empty, so the counter does not pass `0`
      obtain ⟨n, hn⟩ : ∃ n, (lists k).length = n + 1 :=
        ⟨_, (Nat.succ_pred_eq_of_pos (List.length_pos_of_mem hin)).symm⟩
      rw [h.cnt, List.length_erase_of_mem hin, hn, BitVec.ofNat_add, Nat.add_sub_cancel]
      exact congrArg _ (BitVec.add_sub_cancel _ _)
    · intro b hb
      change Function.update s.on k (Function.update (s.on k) a false) k b = true ↔ _
      rw [Function.update_self]
      by_cases hba : b = a
      · subst hba
        rw [Function.update_self]
        exact iff_of_false Bool.false_ne_true hnodup.not_mem_erase
      · rw [Function.update_of_ne hba, List.mem_erase_of_ne hba]
        exact h.on k b hb
    · exact fun k' hk => Function.update_of_ne hk _ _
    · exact fun b hb => h.mem k b (List.mem_of_mem_erase hb)
  · have hclear : s.on k a = false := by
      simpa using mt hflag.mp hin
    -- the flag is clear: nothing is unlinked, and nothing is to be
    rw [hclear, List.erase_of_not_mem hin, Function.update_eq_self]
    exact ⟨h, .refl k s⟩

/-- **One call.** It returns, does to its list what it asks for, and changes nothing of the others. -/
theorem SendCall.run_lists (h : s.Lists streams lists) (c : SendCall) (hc : c.stream ∈ streams)
    (hfits : c.Fits s) :
    ∃ s', c.run s = some s' ∧
      s'.Lists streams (Function.update lists c.list (c.op.onList (lists c.list))) ∧
        s.OnlyList c.list s' := by
  cases c with
  | addtoAcklist a => exact ⟨_, rfl, Transmission.addto_lists h .ack hc⟩
  | addtoControllist a => exact ⟨_, rfl, Transmission.addto_lists h .control hc⟩
  | addtoSendlist a =>
    -- the one that looks at the send buffer
    refine ⟨s.addto .send a, ?_, Transmission.addto_lists h .send hc⟩
    change (if !s.sndbuf a then _ else _) = _
    rw [h.sndbuf a hc]
    rfl
  | removeAcklist a =>
    refine ⟨s.remove .ack a, ?_, Transmission.remove_lists h .ack hc⟩
    exact congrArg some (Transmission.removeAcklist_eq hfits)
  | removeControllist a => exact ⟨_, rfl, Transmission.remove_lists h .control hc⟩
  | removeSendlist a => exact ⟨_, rfl, Transmission.remove_lists h .send hc⟩

/-! ### Sequences of calls -/

theorem opsOn_snoc (k : SenderList) (calls : List SendCall) (c : SendCall) :
    opsOn k (calls ++ [c]) = if c.list = k then c.op :: opsOn k calls else opsOn k calls := by
  unfold opsOn
  rw [List.reverse_append, List.reverse_singleton, List.singleton_append, List.filter_cons]
  by_cases hk : c.list = k
  · simp [hk]
  · simp [hk]

/-- The lists are the streams that the calls put on them, in the order of the calls. -/
def Transmission.Reached (streams : Finset Addr) (calls : List SendCall) (s : Transmission) : Prop :=
  ∃ lists, s.Lists streams lists ∧ ∀ k, InOrder (opsOn k calls) (lists k)

theorem Transmission.Fresh.reached (h : s.Fresh streams) : s.Reached streams [] := by
  refine ⟨fun _ => [], ⟨fun k => ?_, h.cnt, fun k a ha => ?_, fun _ _ ha => ?_, h.sndbuf⟩,
    fun _ => .nil⟩
  · exact ⟨trivial, h.last k, h.first k, List.nodup_nil⟩
  · rw [h.on k a ha]
    exact iff_of_false Bool.false_ne_true List.not_mem_nil
  · cases ha

/-- One call more. -/
theorem Transmission.Reached.snoc {calls : List SendCall} (h : s.Reached streams calls)
    {c : SendCall} (hc : c.stream ∈ streams) (hfits : c.Fits s) :
    ∃ s', c.run s = some s' ∧ s'.Reached streams (calls ++ [c]) ∧ s.OnlyList c.list s' := by
  obtain ⟨lists, hlists, horder⟩ := h
  -- a call on another list is no operation on this one
  obtain ⟨s', hrun, hlists', honly⟩ := SendCall.run_lists hlists c hc hfits
  refine ⟨s', hrun, ⟨_, hlists', fun k => ?_⟩, honly⟩
  rw [opsOn_snoc]
  by_cases hk : c.list = k
  · subst hk
    rw [if_pos rfl, Function.update_self]
    exact (horder c.list).step c.op
  · rw [if_neg hk, Function.update_of_ne (Ne.symm hk)]
    exact horder k

/-- What the lists of the sender are after `calls` on `streams`. -/
structure Transmission.Exact (streams : Finset Addr) (calls : List SendCall) (s : Transmission)
    (lists : SenderList → List Addr) : Prop where
  /-- traversal of the head visits the streams of the list, and `tqe_prev` and `tqh_last` are right -/
  linked : ∀ k, TailqLaw s.links k ((lists k).map (k, ·))
  nodup : ∀ k, (lists k).Nodup
  flag : ∀ k, ∀ a ∈ streams, (s.on k a = true ↔ a ∈ lists k)
  /-- the counters have 32 bits, which is enough for less than `2 ^ 32` streams -/
  cnt : ∀ k, s.cnt k = BitVec.ofNat 32 (lists k).length
  cnt_toNat : streams.card < 2 ^ 32 → ∀ k, (s.cnt k).toNat = (lists k).length
  /-- on a list is who was put on it since he was last removed -/
  mem_iff : ∀ k a, a ∈ lists k ↔ ∃ t, onSince k a calls = some t
  order : ∀ k, (lists k).Pairwise fun a b =>
    ∀ t u, onSince k a calls = some t → onSince k b calls = some u → t < u

/-- Every call in its turn returns, leaves the lists that the calls so far ask for, and changes nothing of
the other lists. -/
def Transmission.ExactAlong (streams : Finset Addr) (s : Transmission) (done calls : List SendCall) : Prop :=
  ∀ pre, pre <+: calls → ∃ s', pre.foldlM SendCall.run s = some s' ∧
    (∃ lists, s'.Exact streams (done ++ pre) lists) ∧
      ∀ c, pre ++ [c] <+: calls → ∃ s'', c.run s' = some s'' ∧ s'.OnlyList c.list s''

theorem Transmission.Lists.length_le (h : s.Lists streams lists) (k : SenderList) :
    (lists k).length ≤ streams.card := by
  have hnodup : (lists k).Nodup := List.Nodup.of_map _ (h.queue k).nodup
  rw [← List.toFinset_card_of_nodup hnodup]
  exact Finset.card_le_card fun a ha => h.mem k a (List.mem_toFinset.mp ha)

theorem Transmission.Reached.exact {calls : List SendCall} (h : s.Reached streams calls) :
    ∃ lists, s.Exact streams calls lists := by
  obtain ⟨lists, hlists, horder⟩ := h
  refine ⟨lists, fun k => tailqLaw_of_queue (hlists.queue k),
    fun k => List.Nodup.of_map _ (hlists.queue k).nodup, hlists.on, hlists.cnt, fun hcard k => ?_,
    fun k => (horder k).mem_iff, fun k => (horder k).sorted⟩
  -- nobody is on a list twice, so it is no longer than there are streams
  have hle := hlists.length_le k
  rw [hlists.cnt, BitVec.toNat_ofNat, Nat.mod_eq_of_lt (by omega)]

/-- `tqh_last` points into the last stream of the list. -/
theorem Transmission.Exact.last_ne {calls : List SendCall} (h : s.Exact streams calls lists)
    (ha : a ∉ lists k) : s.links.last k ≠ .next (k, a) := by
  rw [(h.linked k).last]
  split
  · exact nofun
  · next hlast =>
    intro heq
    obtain rfl := Place.next.inj heq
    exact ha (mem_nodes.mp (List.mem_of_getLast? hlast)).2

/-- After the last stream has been taken off the ack list, the lists are not those that were asked for. -/
theorem Transmission.Reached.fits {calls calls' : List SendCall} (h : s.Reached streams calls)
    {c : SendCall} (hc : c.stream ∈ streams) (hrun : c.run s = some s')
    (hexact : ∃ lists, s'.Exact streams calls' lists) : c.Fits s := by
  cases c with
  | removeAcklist a =>
    intro hon hnext
    obtain ⟨lists, hlists, -⟩ := h
    obtain ⟨lists', hexact⟩ := hexact
    obtain rfl := Option.some.inj hrun
    have hflag : ((s.removeAcklist a).on .ack a = true) = False := by
      unfold Transmission.removeAcklist
      rw [if_pos hon]
      dsimp only
      rw [hnext]
      simp
    -- nobody wrote to `tqh_last`, which points into this stream
    have hlast : (s.removeAcklist a).links.last .ack = s.links.last .ack := by
      unfold Transmission.removeAcklist
      rw [if_pos hon]
      dsimp only
      rw [hnext]
      rfl
    have hout : a ∉ lists' .ack := fun hmem => by
      rw [← hexact.flag .ack a hc, hflag] at hmem
      exact hmem
    refine hexact.last_ne hout ?_
    obtain ⟨l₁, l₂, hsplit, -⟩ := (hlists.queue .ack).split (mem_nodes.mpr ⟨rfl, (hlists.on .ack a hc).mp hon⟩)
    have hq := hlists.queue .ack
    rw [hsplit] at hq
    have hend : l₂ = [] := List.head?_eq_none_iff.mp (hq.link_next.symm.trans hnext)
    rw [hlast, hq.last, hend, Place.past_append_cons]
    rfl
  | addtoAcklist a => trivial
  | addtoControllist a => trivial
  | addtoSendlist a => trivial
  | removeControllist a => trivial
  | removeSendlist a => trivial

/-- Calls from where others have led. -/
theorem Transmission.Reached.exactAlong_iff {done calls : List SendCall} (h : s.Reached streams done)
    (hcalls : ∀ c ∈ calls, c.stream ∈ streams) :
    s.ExactAlong streams done calls ↔ SendCall.FitAll s calls := by
  induction calls generalizing s done with
  | nil =>
    refine iff_of_true (fun pre hpre => ?_) trivial
    obtain rfl := List.prefix_nil.mp hpre
    refine ⟨s, rfl, by rw [List.append_nil]; exact h.exact, fun c hc => ?_⟩
    exact absurd (List.prefix_nil.mp hc) (List.append_ne_nil_of_right_ne_nil _ (List.cons_ne_nil _ _))
  | cons c calls ih =>
    have hc := hcalls c List.mem_cons_self
    have hrest := fun d hd => hcalls d (List.mem_cons_of_mem c hd)
    constructor
    · intro hall
      -- the first call fits, and the others do from where it leads
      obtain ⟨s₁, hfold, hexact, -⟩ := hall [c] (List.prefix_append [c] calls)
      have hrun : c.run s = some s₁ := by simpa using hfold
      have hfits := h.fits hc hrun hexact
      refine ⟨hfits, fun s' hs' => ?_⟩
      obtain ⟨s'', hs'', hreached, -⟩ := h.snoc hc hfits
      obtain rfl := Option.some.inj (hs'.symm.trans hs'')
      refine (ih hreached hrest).mp fun pre hpre => ?_
      obtain ⟨t, hfold, hexact, honly⟩ := hall (c :: pre) ((List.prefix_cons_inj c).mpr hpre)
      rw [List.foldlM_cons, hs'] at hfold
      refine ⟨t, hfold, ?_, fun d hd => honly d ((List.prefix_cons_inj c).mpr hd)⟩
      rwa [List.append_assoc]
    · rintro ⟨hfits, hall⟩ pre hpre
      obtain ⟨s₁, hrun, hreached, honly⟩ := h.snoc hc hfits
      have hafter := (ih hreached hrest).mpr (hall s₁ hrun)
      cases pre with
      | nil =>
        refine ⟨s, rfl, by rw [List.append_nil]; exact h.exact, fun d hd => ?_⟩
        obtain rfl := (List.cons_prefix_cons.mp hd).1
        exact ⟨s₁, hrun, honly⟩
      | cons d pre =>
        obtain ⟨rfl, hpre'⟩ := List.cons_prefix_cons.mp hpre
        obtain ⟨t, hfold, hexact, honly⟩ := hafter pre hpre'
        refine ⟨t, ?_, ?_, fun e he => honly e ((List.prefix_cons_inj d).mp he)⟩
        · rw [List.foldlM_cons, hrun]
          exact hfold
        · rwa [List.append_assoc] at hexact

/-- **The lists of the sender.** From empty lists, calls on streams that have a send buffer: every one of
them returns, leaves the lists that the calls so far ask for (nobody is on one twice, flags and counters
say who is, those who came first stand in front) and changes no list but its own, if and only if no call
takes the last stream off the ack list. -/
theorem transmission_exact_iff (streams : Finset Addr) (s : Transmission) (h : s.Fresh streams)
    (calls : List SendCall) (hcalls : ∀ c ∈ calls, c.stream ∈ streams) :
    s.ExactAlong streams [] calls ↔ SendCall.FitAll s calls :=
  h.reached.exactAlong_iff hcalls

/-- A sender with empty lists, its links in the addresses from `0x7f0000001000` on. -/
def emptySender : Transmission where
  links := ⟨fun _ => none, .next, .head⟩
  address
    | .head _ => 0x7f0000001000
    | .next (_, a) => 0x7f0000002000 + BitVec.ofNat 64 (8 * a)
  cnt := fun _ => 0
  on := fun _ _ => false
  sndbuf := fun _ => true

/-- Stream `1` is put on the send list twice, with stream `2` between, and stream `2` is taken off; on the
ack list it is the first of the two that is taken off. -/
theorem transmission_exact_iff_two :
    emptySender.ExactAlong {1, 2} []
      [.addtoSendlist 1, .addtoSendlist 2, .addtoSendlist 1, .removeSendlist 2,
        .addtoAcklist 1, .addtoAcklist 2, .removeAcklist 1] := by
  refine (transmission_exact_iff {1, 2} emptySender
    ⟨fun _ => rfl, fun _ => rfl, fun _ => rfl, fun _ _ _ => rfl, fun _ _ => rfl⟩ _ (by decide)).mpr ?_
  refine ⟨trivial, fun _ h₁ => ⟨trivial, fun _ h₂ => ⟨trivial, fun _ h₃ => ⟨trivial, fun _ h₄ =>
    ⟨trivial, fun _ h₅ => ⟨trivial, fun _ h₆ => ⟨fun _ => ?_, fun _ _ => trivial⟩⟩⟩⟩⟩⟩⟩
  obtain rfl := Option.some.inj h₁
  obtain rfl := Option.some.inj h₂
  obtain rfl := Option.some.inj h₃
  obtain rfl := Option.some.inj h₄
  obtain rfl := Option.some.inj h₅
  obtain rfl := Option.some.inj h₆
  decide

/-- Stream `1` is put on the ack list and taken off again, and two counters hold the halves of an address;
put on the list once more, it is flagged and counted, and the list is empty. -/
theorem transmission_overwrites :
    (∃ s', [.addtoAcklist 1, .removeAcklist 1].foldlM SendCall.run emptySender = some s' ∧
      s'.cnt .control = 0x1000 ∧ s'.cnt .send = 0x7f00) ∧
    (∃ s', [.addtoAcklist 1, .removeAcklist 1, .addtoAcklist 1].foldlM SendCall.run emptySender = some s' ∧
      s'.on .ack 1 = true ∧ s'.cnt .ack = 1 ∧ tailqForeach s'.links 1 .ack = some []) ∧
    ¬emptySender.ExactAlong {1} [] [.addtoAcklist 1, .removeAcklist 1] := by
  refine ⟨⟨_, rfl, by decide, by decide⟩, ⟨_, rfl, by decide, by decide, by decide⟩, fun hall => ?_⟩
  obtain ⟨s', hfold, ⟨lists, hexact⟩, -⟩ := hall _ (List.prefix_refl _)
  obtain rfl := Option.some.inj hfold
  -- the counter of the control list says that somebody is on it
  have hcnt := hexact.cnt_toNat (by decide) .control
  have hnone : lists .control = [] := by
    refine List.eq_nil_iff_forall_not_mem.mpr fun a ha => ?_
    obtain ⟨t, ht⟩ := (hexact.mem_iff .control a).mp ha
    cases ht
  rw [hnone] at hcnt
  exact absurd hcnt (by decide)

end Call

/-! ### The lists of addresses -/

/-- The list of a sender. -/
def Sender.list (sender : Sender) : SenderList → List Addr
  | .ack => sender.ackList
  | .control => sender.controlList
  | .send => sender.sendList

/-- The counter of a list. -/
def Sender.cnt (sender : Sender) : SenderList → U32
  | .ack => sender.ackListCnt
  | .control => sender.controlListCnt
  | .send => sender.sendListCnt

/-- The flag for a list. -/
def SndVar.on (snd : SndVar) : SenderList → Bool
  | .ack => snd.onAckList
  | .control => snd.onControlList
  | .send => snd.onSendList

variable {ρ : Type}

/-- The links say what the manager and the stream of `c` say. -/
structure Represents (streams : Finset Addr) (s : Transmission) (c : Conn ρ) : Prop where
  lists : s.Lists streams c.tcp.sender.list
  cnt : s.cnt = c.tcp.sender.cnt
  on : ∀ k, s.on k c.stream.addr = c.stream.snd.on k
  sndbuf : s.sndbuf c.stream.addr = c.stream.snd.sndbuf.isSome
  mem : c.stream.addr ∈ streams

/-- `c'` is `c` with the list `k`, its counter and the stream's flag for it replaced. -/
structure Conn.Relisted (k : SenderList) (flag : Bool) (xs : List Addr) (n : U32)
    (c c' : Conn ρ) : Prop where
  addr : c'.stream.addr = c.stream.addr
  sndbuf : c'.stream.snd.sndbuf = c.stream.snd.sndbuf
  on : c'.stream.snd.on = Function.update c.stream.snd.on k flag
  list : c'.tcp.sender.list = Function.update c.tcp.sender.list k xs
  cnt : c'.tcp.sender.cnt = Function.update c.tcp.sender.cnt k n

section Represents

variable {streams : Finset Addr} {s : Transmission} {c c' : Conn ρ} {k : SenderList}

/-- Replacing list `k`, its counter and the flag of the stream is the same on the links. -/
theorem Represents.relist {s' : Transmission} {flag : Bool} {xs : List Addr} {n : U32}
    (h : Represents streams s c) (hre : c.Relisted k flag xs n c')
    (hlists : s'.Lists streams (Function.update c.tcp.sender.list k xs))
    (hcnt : s'.cnt = Function.update s.cnt k n)
    (hon : s'.on = Function.update s.on k (Function.update (s.on k) c.stream.addr flag))
    (hbuf : s'.sndbuf = s.sndbuf) : Represents streams s' c' where
  lists := by
    rw [hre.list]
    exact hlists
  cnt := by rw [hcnt, hre.cnt, h.cnt]
  on := by
    intro k'
    rw [hon, hre.on, hre.addr]
    by_cases hk : k' = k
    · subst hk
      rw [Function.update_self, Function.update_self, Function.update_self]
    · rw [Function.update_of_ne hk, Function.update_of_ne hk]
      exact h.on k'
  sndbuf := by
    rw [hbuf, hre.addr, hre.sndbuf]
    exact h.sndbuf
  mem := by
    rw [hre.addr]
    exact h.mem

/-- A function that puts the stream at the end of list `k`, unless it is flagged, is
`cmt_tcp_addto_*` on the links. -/
theorem Represents.addto (h : Represents streams s c)
    (hflagged : c.stream.snd.on k = true → c' = c)
    (hclear : c.stream.snd.on k = false →
      c.Relisted k true (c.tcp.sender.list k ++ [c.stream.addr]) (c.tcp.sender.cnt k + 1) c') :
    Represents streams (s.addto k c.stream.addr) c' := by
  have hlists := (Transmission.addto_lists h.lists k h.mem).1
  have hmem := (h.lists.on k _ h.mem).symm
  rw [h.on] at hmem
  unfold Transmission.addto at hlists ⊢
  cases hon : c.stream.snd.on k with
  | true =>
    rw [hflagged hon, h.on, hon]
    exact h
  | false =>
    -- the flag is clear, so the stream is not on the list
    have hout : c.stream.addr ∉ c.tcp.sender.list k :=
      mt hmem.mp (ne_true_of_eq_false hon)
    rw [SetOp.onList_add, if_neg hout] at hlists
    rw [h.on, hon] at hlists ⊢
    exact h.relist (hclear hon) hlists (by rw [← h.cnt]; rfl) rfl rfl

/-- A function that takes the stream off list `k`, if it is flagged, is `cmt_tcp_remove_*` on the
links. -/
theorem Represents.remove (h : Represents streams s c)
    (hclear : c.stream.snd.on k = false → c' = c)
    (hflagged : c.stream.snd.on k = true →
      c.Relisted k false ((c.tcp.sender.list k).erase c.stream.addr) (c.tcp.sender.cnt k - 1) c') :
    Represents streams (s.remove k c.stream.addr) c' := by
  have hlists := (Transmission.remove_lists h.lists k h.mem).1
  unfold Transmission.remove at hlists ⊢
  cases hon : c.stream.snd.on k with
  | false =>
    rw [hclear hon, h.on, hon]
    exact h
  | true =>
    rw [SetOp.onList_remove] at hlists
    rw [h.on, hon] at hlists ⊢
    exact h.relist (hflagged hon) hlists (by rw [← h.cnt]; rfl) rfl rfl

/-- **Two models of five functions.** On the lists of addresses they do what they do on the links; the
lists of addresses are what traversal of the links yields. Nothing calls the sixth,
`cmt_tcp_remove_acklist`. -/
theorem Represents.calls (h : Represents streams s c) :
    Represents streams (s.addtoAcklist c.stream.addr) (addtoAcklist c) ∧
    Represents streams (s.addtoControllist c.stream.addr) (addtoControllist c) ∧
    (∀ s', s.addtoSendlist c.stream.addr = some s' →
      ∃ c', addtoSendlist c = .ok c' ∧ Represents streams s' c') ∧
    Represents streams (s.removeControllist c.stream.addr) (removeControllist c) ∧
    Represents streams (s.removeSendlist c.stream.addr) (removeSendlist c) := by
  -- the flag of the list decides, and only the list, its counter and the flag change
  refine ⟨?addtoAck, ?addtoControl, ?addtoSend, ?removeControl, ?removeSend⟩
  case addtoAck =>
    refine h.addto (fun hon => if_pos hon) fun hon => ?_
    rw [show addtoAcklist c = _ from if_neg (ne_true_of_eq_false hon)]
    refine ⟨rfl, rfl, ?_, ?_, ?_⟩ <;> (funext k; cases k <;> rfl)
  case addtoControl =>
    refine h.addto (fun hon => if_pos hon) fun hon => ?_
    rw [show addtoControllist c = _ from if_neg (ne_true_of_eq_false hon)]
    refine ⟨rfl, rfl, ?_, ?_, ?_⟩ <;> (funext k; cases k <;> rfl)
  case addtoSend =>
    intro s' hs'
    unfold Transmission.addtoSendlist at hs'
    cases hbuf : s.sndbuf c.stream.addr with
    | false =>
      rw [hbuf] at hs'
      cases hs'
    | true =>
      rw [hbuf] at hs'
      obtain rfl := Option.some.inj hs'
      rw [h.sndbuf, Option.isSome_iff_ne_none] at hbuf
      refine ⟨_, if_neg (by rwa [Option.isNone_iff_eq_none]), ?_⟩
      refine h.addto (fun hon => if_pos hon) fun hon => ?_
      unfold CmtTcp.addto
      rw [if_neg (show ¬c.stream.snd.onSendList = true from ne_true_of_eq_false hon)]
      refine ⟨rfl, rfl, ?_, ?_, ?_⟩ <;> (funext k; cases k <;> rfl)
  case removeControl =>
    refine h.remove (fun hon => if_neg (ne_true_of_eq_false hon)) fun hon => ?_
    rw [show removeControllist c = _ from if_pos hon]
    refine ⟨rfl, rfl, ?_, ?_, ?_⟩ <;> (funext k; cases k <;> rfl)
  case removeSend =>
    refine h.remove (fun hon => if_neg (ne_true_of_eq_false hon)) fun hon => ?_
    rw [show removeSendlist c = _ from if_pos hon]
    refine ⟨rfl, rfl, ?_, ?_, ?_⟩ <;> (funext k; cases k <;> rfl)

end Represents

end CmtTcp
