import CmtTcp.Tcp.SendLists
import CmtTcp.Tcp.TimerScans
import CmtTcp.Tcp.Closed

/-!
# Flags, lists and counters over whole runs

A stream has a flag for each of the three lists of the sender and for the timeout list, and the manager a
counter for each list. What a call does to the four lists is a sequence of insertions and removals that
look at the flag first (`Conn.Moves`), whichever handler it goes through. So flags, lists and counters
agree in every state of every run of segments and timers (`lists_agree`): nobody is on a list twice, and
a removal always finds what it takes off.

* `Listing`: what one stream and the manager say of the lists;
* `Agrees`: the lists hold who is flagged;
* `processStream_moves`, `handleRto_moves`: the calls only insert and remove.
-/

namespace CmtTcp

open Lib (Outcome Run Guarded)

variable {ρ : Type}

/-! ### Lists with a flag -/

/-- The lists that a stream has a flag for. -/
inductive FlagList
  | sender (k : SenderList)
  | timeout
deriving DecidableEq, Repr

/-- The lists of the manager by their names. -/
def TcpManager.flagList (tcp : TcpManager) : FlagList → List Addr
  | .sender k => tcp.sender.list k
  | .timeout => tcp.timeoutList

/-- The counters of the manager, in the 32 bits they have. -/
def TcpManager.flagCnt (tcp : TcpManager) : FlagList → U32
  | .sender k => tcp.sender.cnt k
  | .timeout => BitVec.ofInt 32 tcp.timeoutListCnt

/-- The flags of a stream. -/
def Stream.flag (s : Stream ρ) : FlagList → Bool
  | .sender k => s.snd.on k
  | .timeout => s.onTimeoutList

/-- What a stream and its manager say of the lists. -/
@[ext] structure Listing where
  addr : Addr
  flag : FlagList → Bool
  list : FlagList → List Addr
  cnt : FlagList → U32

/-- What a connection says of the lists. -/
def Conn.listing (c : Conn ρ) : Listing where
  addr := c.stream.addr
  flag := c.stream.flag
  list := c.tcp.flagList
  cnt := c.tcp.flagCnt

namespace Listing

/-- The stream is put at the end of a list, unless it is flagged. -/
def add (m : Listing) (i : FlagList) : Listing :=
  if m.flag i then m
  else
    { m with
      flag := Function.update m.flag i true
      list := Function.update m.list i (m.list i ++ [m.addr])
      cnt := Function.update m.cnt i (m.cnt i + 1) }

/-- The stream is taken off a list, if it is flagged. -/
def remove (m : Listing) (i : FlagList) : Listing :=
  if m.flag i then
    { m with
      flag := Function.update m.flag i false
      list := Function.update m.list i ((m.list i).erase m.addr)
      cnt := Function.update m.cnt i (m.cnt i - 1) }
  else m

/-- Off the list and on again sends a stream to the end. -/
theorem remove_add {m : Listing} {i : FlagList} (h : m.flag i = true) :
    (m.remove i).add i =
      { m with list := Function.update m.list i ((m.list i).erase m.addr ++ [m.addr]) } := by
  have hremove : m.remove i = _ := if_pos h
  have hoff : ¬(m.remove i).flag i = true := by
    rw [hremove]
    dsimp only
    rw [Function.update_self]
    exact Bool.false_ne_true
  have hadd : (m.remove i).add i = _ := if_neg hoff
  rw [hadd, hremove]
  dsimp only
  rw [Function.update_idem, Function.update_idem, Function.update_idem, Function.update_self,
    Function.update_self, BitVec.sub_add_cancel, Function.update_eq_self_iff.mpr h.symm,
    Function.update_eq_self]

/-- Insertions and removals, one after the other. -/
inductive Moves (m : Listing) : Listing → Prop
  | refl : Moves m m
  | add {m' : Listing} (h : Moves m m') (i : FlagList) : Moves m (m'.add i)
  | remove {m' : Listing} (h : Moves m m') (i : FlagList) : Moves m (m'.remove i)

theorem Moves.trans {m m' m'' : Listing} (h : m.Moves m') (h' : m'.Moves m'') : m.Moves m'' := by
  induction h' with
  | refl => exact h
  | add _ i ih => exact ih.add i
  | remove _ i ih => exact ih.remove i

/-- The lists hold who is flagged, each once, and the counters count them; `others` are the flags of the
other streams. -/
structure Agrees (others : Addr → FlagList → Bool) (m : Listing) : Prop where
  nodup : ∀ i, (m.list i).Nodup
  mem_iff : ∀ i a, a ∈ m.list i ↔ Function.update others m.addr m.flag a i = true
  cnt : ∀ i, m.cnt i = BitVec.ofNat 32 (m.list i).length

section Agrees

variable {others : Addr → FlagList → Bool} {m m' : Listing} {i : FlagList}

theorem Agrees.self_iff (h : Agrees others m) (i : FlagList) :
    m.addr ∈ m.list i ↔ m.flag i = true := by
  rw [h.mem_iff, Function.update_self]

/-- One list, its counter and the flag are replaced. -/
theorem Agrees.replace (h : Agrees others m) {xs : List Addr} {b : Bool} (hnodup : xs.Nodup)
    (hself : m.addr ∈ xs ↔ b = true) (hother : ∀ a, a ≠ m.addr → (a ∈ xs ↔ a ∈ m.list i)) :
    Agrees others
      { m with
        flag := Function.update m.flag i b
        list := Function.update m.list i xs
        cnt := Function.update m.cnt i (BitVec.ofNat 32 xs.length) } where
  nodup := by
    intro j
    dsimp only
    by_cases hj : j = i
    · subst hj
      rw [Function.update_self]
      exact hnodup
    · rw [Function.update_of_ne hj]
      exact h.nodup j
  mem_iff := by
    intro j a
    dsimp only
    by_cases ha : a = m.addr
    · -- the stream itself, whose flag was set or cleared
      subst ha
      rw [Function.update_self]
      by_cases hj : j = i
      · subst hj
        rw [Function.update_self, Function.update_self]
        exact hself
      · rw [Function.update_of_ne hj, Function.update_of_ne hj]
        exact h.self_iff j
    · -- another one, which is on the new list if it was on the old one
      rw [Function.update_of_ne ha]
      have hbefore := h.mem_iff j a
      rw [Function.update_of_ne ha] at hbefore
      rw [← hbefore]
      by_cases hj : j = i
      · subst hj
        rw [Function.update_self]
        exact hother a ha
      · rw [Function.update_of_ne hj]
  cnt := by
    intro j
    dsimp only
    by_cases hj : j = i
    · subst hj
      rw [Function.update_self, Function.update_self]
    · rw [Function.update_of_ne hj, Function.update_of_ne hj]
      exact h.cnt j

theorem Agrees.add (h : Agrees others m) (i : FlagList) : Agrees others (m.add i) := by
  unfold Listing.add
  split
  · exact h
  next hflag =>
  have hout : m.addr ∉ m.list i := mt (h.self_iff i).mp hflag
  have hcnt : m.cnt i + 1 = BitVec.ofNat 32 (m.list i ++ [m.addr]).length := by
    rw [h.cnt, List.length_append, List.length_singleton, BitVec.ofNat_add]
    rfl
  rw [hcnt]
  refine h.replace ?_ (by simp) fun a ha => by simp [ha]
  exact (h.nodup i).append (List.nodup_singleton _) (List.disjoint_singleton.mpr hout)

theorem Agrees.remove (h : Agrees others m) (i : FlagList) : Agrees others (m.remove i) := by
  unfold Listing.remove
  split
  next hflag =>
    have hin : m.addr ∈ m.list i := (h.self_iff i).mpr hflag
    have hcnt : m.cnt i - 1 = BitVec.ofNat 32 ((m.list i).erase m.addr).length := by
      have hpos := List.length_pos_of_mem hin
      have hlen : (m.list i).length = ((m.list i).erase m.addr).length + 1 := by
        rw [List.length_erase_of_mem hin]
        omega
      rw [h.cnt, hlen, BitVec.ofNat_add]
      exact BitVec.add_sub_cancel _ _
    rw [hcnt]
    refine h.replace ((h.nodup i).erase _) ?_ fun a ha => List.mem_erase_of_ne ha
    exact iff_of_false (h.nodup i).not_mem_erase Bool.false_ne_true
  · exact h

theorem Agrees.moves (h : Agrees others m) (hm : m.Moves m') : Agrees others m' := by
  induction hm with
  | refl => exact h
  | add _ i ih => exact ih.add i
  | remove _ i ih => exact ih.remove i

end Agrees

end Listing

/-! ### What a call does to the lists -/

/-- From `c` to `c'` the lists change by insertions and removals of the stream. -/
def Conn.Moves (c c' : Conn ρ) : Prop := c.listing.Moves c'.listing

section Calls

variable {P : Parts ρ} {c c' c'' : Conn ρ} {a : Arrival ρ}

theorem Conn.Moves.of_eq (h : c'.listing = c.listing) : c.Moves c' := by
  unfold Conn.Moves
  rw [h]
  exact .refl

theorem Conn.Moves.refl (c : Conn ρ) : c.Moves c := .of_eq rfl

theorem Conn.Moves.trans (h : c.Moves c') (h' : c'.Moves c'') : c.Moves c'' :=
  Listing.Moves.trans h h'

/-- A call on a connection with the same listing. -/
theorem Conn.Moves.since (h : c'.Moves c'') (heq : c'.listing = c.listing) : c.Moves c'' :=
  (Conn.Moves.of_eq heq).trans h

/-- A call after another one. -/
theorem Conn.Moves.after {E : Abort → Prop} {r : Except Abort (Conn ρ)} (h : c.Moves c')
    (hr : Outcome r E c'.Moves) : Outcome r E c.Moves :=
  hr.mono (fun _ he => he) fun _ => h.trans

/-- The listings of `c` and `c'` are the same if they are for each list. -/
theorem Conn.listing_eq (haddr : c'.stream.addr = c.stream.addr)
    (h : ∀ i, c'.stream.flag i = c.stream.flag i ∧ c'.tcp.flagList i = c.tcp.flagList i ∧
      c'.tcp.flagCnt i = c.tcp.flagCnt i) : c'.listing = c.listing :=
  Listing.ext haddr (funext fun i => (h i).1) (funext fun i => (h i).2.1) (funext fun i => (h i).2.2)

/-- A function that puts the stream at the end of list `i`, unless it is flagged. -/
theorem Conn.Moves.of_add (i : FlagList) (hflagged : c.stream.flag i = true → c' = c)
    (hclear : ¬c.stream.flag i = true → c'.listing =
      { c.listing with
        flag := Function.update c.listing.flag i true
        list := Function.update c.listing.list i (c.listing.list i ++ [c.listing.addr])
        cnt := Function.update c.listing.cnt i (c.listing.cnt i + 1) }) : c.Moves c' := by
  have hadd : c'.listing = c.listing.add i := by
    unfold Listing.add
    by_cases hon : c.stream.flag i = true
    · rw [hflagged hon]
      exact (if_pos hon).symm
    · exact (hclear hon).trans (if_neg hon).symm
  unfold Conn.Moves
  rw [hadd]
  exact Listing.Moves.refl.add i

/-- A function that takes the stream off list `i`, if it is flagged. -/
theorem Conn.Moves.of_remove (i : FlagList) (hclear : ¬c.stream.flag i = true → c' = c)
    (hflagged : c.stream.flag i = true → c'.listing =
      { c.listing with
        flag := Function.update c.listing.flag i false
        list := Function.update c.listing.list i ((c.listing.list i).erase c.listing.addr)
        cnt := Function.update c.listing.cnt i (c.listing.cnt i - 1) }) : c.Moves c' := by
  have hremove : c'.listing = c.listing.remove i := by
    unfold Listing.remove
    by_cases hon : c.stream.flag i = true
    · exact (hflagged hon).trans (if_pos hon).symm
    · rw [hclear hon]
      exact (if_neg hon).symm
  unfold Conn.Moves
  rw [hremove]
  exact Listing.Moves.refl.remove i

theorem addtoAcklist_moves (c : Conn ρ) : c.Moves (addtoAcklist c) := by
  refine .of_add (.sender .ack) (fun hon => if_pos hon) fun hon => ?_
  rw [show addtoAcklist c = _ from if_neg hon]
  refine Listing.ext rfl ?_ ?_ ?_ <;> (funext i; rcases i with ⟨_ | _ | _⟩ | _ <;> rfl)

theorem addtoControllist_moves (c : Conn ρ) : c.Moves (addtoControllist c) := by
  refine .of_add (.sender .control) (fun hon => if_pos hon) fun hon => ?_
  rw [show addtoControllist c = _ from if_neg hon]
  refine Listing.ext rfl ?_ ?_ ?_ <;> (funext i; rcases i with ⟨_ | _ | _⟩ | _ <;> rfl)

theorem addtoSendlist_moves (c : Conn ρ) :
    Outcome (addtoSendlist c) (fun _ => True) c.Moves := by
  unfold addtoSendlist
  refine Outcome.ite (fun _ => trivial) fun _ => ?_
  refine Conn.Moves.of_add (.sender .send) (fun hon => if_pos hon) fun hon => ?_
  unfold addto
  rw [if_neg (show ¬c.stream.snd.onSendList = true from hon)]
  refine Listing.ext rfl ?_ ?_ ?_ <;> (funext i; rcases i with ⟨_ | _ | _⟩ | _ <;> rfl)

theorem removeSendlist_moves (c : Conn ρ) : c.Moves (removeSendlist c) := by
  refine .of_remove (.sender .send) (fun hon => if_neg hon) fun hon => ?_
  rw [show removeSendlist c = _ from if_pos hon]
  refine Listing.ext rfl ?_ ?_ ?_ <;> (funext i; rcases i with ⟨_ | _ | _⟩ | _ <;> rfl)

theorem removeControllist_moves (c : Conn ρ) : c.Moves (removeControllist c) := by
  refine .of_remove (.sender .control) (fun hon => if_neg hon) fun hon => ?_
  rw [show removeControllist c = _ from if_pos hon]
  refine Listing.ext rfl ?_ ?_ ?_ <;> (funext i; rcases i with ⟨_ | _ | _⟩ | _ <;> rfl)

theorem ofInt_add_one (n : ℤ) : BitVec.ofInt 32 (n + 1) = BitVec.ofInt 32 n + 1 := by
  rw [BitVec.ofInt_add]
  rfl

theorem ofInt_sub_one (n : ℤ) : BitVec.ofInt 32 (n - 1) = BitVec.ofInt 32 n - 1 := by
  have h := ofInt_add_one (n - 1)
  rw [Int.sub_add_cancel] at h
  rw [h]
  exact (BitVec.add_sub_cancel _ _).symm

theorem addToTimeoutList_moves (c : Conn ρ) :
    Outcome (addToTimeoutList c) (fun _ => True) c.Moves := by
  unfold addToTimeoutList
  refine Outcome.ite (fun _ => trivial) fun hclear => ?_
  refine Conn.Moves.of_add .timeout (fun hon => absurd hon hclear) fun _ => ?_
  refine Listing.ext rfl ?_ ?_ ?_
  · funext i
    rcases i with ⟨_ | _ | _⟩ | _ <;> rfl
  · funext i
    rcases i with ⟨_ | _ | _⟩ | _ <;> rfl
  · funext i
    rcases i with ⟨_ | _ | _⟩ | _
    · rfl
    · rfl
    · rfl
    · exact ofInt_add_one _

/-- A stream on the timeout list that was heard of goes to its end: off the list, and on again. -/
theorem updateTimeoutList_moves (c : Conn ρ) : c.Moves (updateTimeoutList c) := by
  unfold updateTimeoutList
  split
  next hon =>
    have hback : (c.listing.remove .timeout).add .timeout = Conn.listing
        { c with tcp := { c.tcp with
            timeoutList := c.tcp.timeoutList.erase c.stream.addr ++ [c.stream.addr] } } := by
      rw [Listing.remove_add (show c.listing.flag .timeout = true from hon)]
      refine Listing.ext rfl rfl ?_ rfl
      funext i
      rcases i with ⟨_ | _ | _⟩ | _ <;> rfl
    unfold Conn.Moves
    rw [← hback]
    exact (Listing.Moves.refl.remove _).add _
  · exact .refl c

/-! ### What touches no list -/

theorem enqueueAcklist_moves (c : Conn ρ) (opt : AckOpt) : c.Moves (enqueueAcklist c opt) := by
  unfold enqueueAcklist
  refine Conn.Moves.trans ?_ (addtoAcklist_moves _)
  cases opt with
  | now => exact .of_eq rfl
  | aggregate =>
    dsimp only
    split
    · exact .of_eq rfl
    · exact .refl c
  | wack => exact .of_eq rfl

theorem removeFromRtoList_moves (c : Conn ρ) : c.Moves (removeFromRtoList c) := by
  unfold removeFromRtoList
  split
  · exact .refl c
  · exact .of_eq rfl

theorem addToRtoList_moves (c : Conn ρ) : c.Moves (addToRtoList c) := by
  unfold addToRtoList
  by_cases hcnt : c.tcp.rtoListCnt = 0
  · simp only [if_pos hcnt]
    split
    · exact .of_eq rfl
    · exact .of_eq rfl
  · simp only [if_neg hcnt]
    split
    · exact .of_eq rfl
    · exact .refl c

theorem updateRetransmissionTimer_moves (c : Conn ρ) (curTs : U32) :
    Outcome (updateRetransmissionTimer c curTs) (fun _ => True) c.Moves := by
  unfold updateRetransmissionTimer
  refine Outcome.ite (fun _ => ?_) fun _ => trivial
  have hout : c.Moves
      (if (c.modSnd fun snd => { snd with nrtx := 0 }).stream.onRtoIdx ≥ 0 then
        removeFromRtoList (c.modSnd fun snd => { snd with nrtx := 0 })
      else c.modSnd fun snd => { snd with nrtx := 0 }) := by
    split
    · exact (removeFromRtoList_moves _).since rfl
    · exact .of_eq rfl
  refine Outcome.ite (fun _ => ?_) fun _ => hout
  exact hout.trans ((addToRtoList_moves _).since rfl)

theorem removeFromTimewaitList_moves (c : Conn ρ) :
    Outcome (removeFromTimewaitList c) (fun _ => True) c.Moves := by
  unfold removeFromTimewaitList
  exact Outcome.ite (fun _ => .of_eq rfl) fun _ => trivial

theorem addToTimewaitList_moves (c : Conn ρ) (curTs : U32) : c.Moves (addToTimewaitList c curTs) := by
  unfold addToTimewaitList
  dsimp only
  split
  · exact .of_eq rfl
  · split
    · exact Conn.Moves.since ((removeFromRtoList_moves _).trans (.of_eq rfl)) rfl
    · exact .of_eq rfl

theorem parseOptions_moves (c : Conn ρ) (curTs : U32) (seg : Segment) :
    Outcome (parseOptions c curTs seg) (fun _ => True) c.Moves := by
  unfold parseOptions
  split
  · exact trivial
  · next s hs =>
    refine .of_eq (Conn.listing_eq ?_ fun i => ⟨?_, rfl, rfl⟩)
    · change s.addr = _
      rw [parseOptionsLoop_negotiated hs]
    · change s.flag i = _
      rw [parseOptionsLoop_negotiated hs]
      rcases i with ⟨_ | _ | _⟩ | _ <;> rfl

theorem noteArrival_moves (c : Conn ρ) (a : Arrival ρ) : c.Moves (noteArrival c a) :=
  (updateTimeoutList_moves _).since rfl

theorem receivePayload_moves (P : Parts ρ) (c : Conn ρ) (a : Arrival ρ) :
    Outcome (receivePayload P c a) (fun _ => True) c.Moves := by
  unfold receivePayload
  refine Outcome.ite (fun _ => ?_) fun _ => .refl c
  refine Outcome.bind ((processPayload_cases P c a).mono (fun _ _ => trivial) fun _ h => h) fun r hr => ?_
  refine Conn.Moves.trans ?_ (enqueueAcklist_moves _ _)
  rcases hr with h | h | ⟨nxt, rcv, -, h⟩
  · rw [h]
    exact .refl c
  · rw [h]
    exact .of_eq rfl
  · rw [h]
    exact .of_eq rfl

theorem validTimestamp_moves {c' : Conn ρ} (h : validTimestamp c a = some c') : c.Moves c' := by
  unfold validTimestamp at h
  split at h
  · split at h
    · cases h
    · split at h
      · cases h
        exact enqueueAcklist_moves c .now
      · cases h
        split
        · exact .of_eq rfl
        · exact .of_eq rfl
  · cases h
    exact .refl c

theorem validseq_moves (c : Conn ρ) (a : Arrival ρ) : c.Moves (validseq c a).1 := by
  unfold validseq
  split
  · exact .refl c
  next c₁ hts =>
  refine (validTimestamp_moves hts).trans ?_
  dsimp only
  split
  · exact .refl c₁
  split
  · exact .refl c₁
  split
  · split
    · exact enqueueAcklist_moves c₁ .aggregate
    split
    · exact enqueueAcklist_moves c₁ .aggregate
    · exact enqueueAcklist_moves c₁ .now
  · refine Conn.Moves.trans ?_ (addtoControllist_moves _)
    split
    · exact addToTimewaitList_moves c₁ a.ts
    · exact .refl c₁

theorem processRst_moves (c : Conn ρ) (ackSeq : U32) : c.Moves (processRst c ackSeq).1 := by
  unfold processRst
  dsimp only
  repeat' split
  all_goals exact .of_eq rfl

/-! ### Acknowledgements -/

theorem windowUpdate_moves (c : Conn ρ) (seg : Segment) (ackSeq : U32) :
    c.Moves (c.mod (windowUpdate seg ackSeq)) := by
  unfold windowUpdate Conn.mod
  dsimp only
  split
  · exact .of_eq rfl
  · exact .refl c

theorem countDup_moves (c : Conn ρ) (dup : Bool) (ackSeq : U32) :
    c.Moves (c.mod (countDup dup ackSeq)) := by
  unfold countDup Conn.mod
  dsimp only
  split
  · exact .of_eq rfl
  · exact .of_eq rfl

theorem answerDup_moves (c : Conn ρ) (dup : Bool) (ackSeq : U32) :
    Outcome (answerDup c dup ackSeq) (fun _ => True) c.Moves := by
  unfold answerDup
  refine Outcome.ite (fun _ => ?_) fun _ => Outcome.ite (fun _ => ?_) fun _ => .refl c
  · unfold fastRetransmit
    refine Conn.Moves.after ?_ (addtoSendlist_moves _)
    split
    · exact .of_eq rfl
    · exact .of_eq rfl
  · rw [Outcome.ok_iff]
    unfold Conn.modSnd Conn.mod
    dsimp only
    split
    · exact .of_eq rfl
    · exact .refl c

theorem raiseSndNxt_moves (c : Conn ρ) (buf : SendBuffer) (ackSeq : U32) :
    c.Moves (raiseSndNxt c buf ackSeq) := by
  unfold raiseSndNxt
  split
  · dsimp only
    split
    · exact (removeSendlist_moves _).since rfl
    · exact .of_eq rfl
  · exact .refl c

theorem updateRto_moves (c : Conn ρ) (curTs : U32) :
    Outcome (updateRto c curTs) (fun _ => True) c.Moves := by
  unfold updateRto
  exact Outcome.ite (fun _ => Outcome.ite (fun _ => .of_eq rfl) fun _ => trivial) fun _ => .refl c

theorem growCwnd_moves (c : Conn ρ) (packets : U16) :
    Outcome (growCwnd c packets) (fun _ => True) c.Moves := by
  unfold growCwnd
  refine Outcome.ite (fun _ => Outcome.ite (fun _ => .of_eq rfl) fun _ => .refl c) fun _ =>
    Outcome.ite (fun _ => trivial) fun _ => ?_
  rw [Outcome.ok_iff]
  unfold Conn.modSnd Conn.mod
  dsimp only
  split
  · exact .of_eq rfl
  · exact .refl c

theorem ackRemove_moves (c : Conn ρ) (buf : SendBuffer) (ackSeq curTs : U32) :
    Outcome (ackRemove c buf ackSeq curTs) (fun _ => True) c.Moves := by
  unfold ackRemove
  refine Outcome.ite (fun _ => Outcome.ite (fun _ => trivial) fun _ => ?_) fun _ => .refl c
  refine Outcome.bind (updateRto_moves c curTs) fun c₁ h₁ => ?_
  refine Outcome.bind (h₁.after (growCwnd_moves c₁ _)) fun c₂ h₂ => ?_
  unfold ackRemoved
  refine Outcome.ite (fun _ => h₂.trans (.of_eq rfl)) fun _ => ?_
  exact (h₂.trans (.of_eq rfl)).after (updateRetransmissionTimer_moves _ curTs)

theorem processAck_moves (c : Conn ρ) (seg : Segment) (curTs : U32) :
    Outcome (processAck c seg curTs) (fun _ => True) c.Moves := by
  unfold processAck
  split
  · exact trivial
  · next buf _ =>
    dsimp only
    refine Outcome.ite (fun _ => .refl c) fun _ => ?_
    have hcount := (windowUpdate_moves c seg (ackSeqOf c.stream seg.ackSeq)).trans
      (countDup_moves _ (isDup (c.mod (windowUpdate seg (ackSeqOf c.stream seg.ackSeq))).stream
        (ackSeqOf c.stream seg.ackSeq) seg.payloadlen (rightWndEdge c.stream))
        (ackSeqOf c.stream seg.ackSeq))
    refine Outcome.bind (hcount.after (answerDup_moves _ _ _)) fun c₁ h₁ => ?_
    have hraise := h₁.trans (raiseSndNxt_moves c₁ buf (ackSeqOf c.stream seg.ackSeq))
    exact Outcome.ite (fun _ => hraise) fun _ => hraise.after (ackRemove_moves _ _ _ _)

theorem receiveAck_moves (c : Conn ρ) (a : Arrival ρ) :
    Outcome (receiveAck c a) (fun _ => True) c.Moves := by
  unfold receiveAck
  exact Outcome.ite (fun _ => processAck_moves c a.seg a.ts) fun _ => .refl c

theorem AckControl.moves (h : AckControl c c') : c.Moves c' := by
  induction h with
  | refl => exact .refl _
  | ack _ hack ih => exact ih.trans ((processAck_moves _ _ _).of_ok hack)
  | control _ ih => exact ih.trans (addtoControllist_moves _)

/-! ### The handlers -/

theorem Conn.Moves.controllist (h : c.Moves c') : c.Moves (addtoControllist c') :=
  h.trans (addtoControllist_moves c')

theorem handleListen_moves (c : Conn ρ) (a : Arrival ρ) :
    Outcome (handleListen c a) (fun _ => True) c.Moves := by
  unfold handleListen
  refine Outcome.ite (fun _ => Conn.Moves.controllist ?_) fun _ => trivial
  split
  · exact .of_eq rfl
  · exact .of_eq rfl

theorem activeOpen_moves (c : Conn ρ) (a : Arrival ρ) :
    Outcome (activeOpen c a) (fun _ => True) c.Moves := by
  unfold activeOpen
  have hseg : c.Moves (c.mod fun s =>
      { s with
        sndNxt := a.seg.ackSeq
        rcvNxt := a.seg.seq + 1
        snd := { s.snd with peerWnd := a.seg.window.setWidth 32 }
        rcv := { s.rcv with irs := a.seg.seq, sndWl1 := a.seg.seq - 1, lastAckSeq := a.seg.ackSeq } }) :=
    .of_eq rfl
  refine Outcome.bind (hseg.after (parseOptions_moves _ a.ts a.seg)) fun c₁ h₁ => ?_
  exact (h₁.trans (.of_eq rfl)).after (updateRetransmissionTimer_moves _ a.ts)

theorem handleSynSent_moves (c : Conn ρ) (a : Arrival ρ) :
    Outcome (handleSynSent c a) (fun _ => True) c.Moves := by
  unfold handleSynSent
  refine Outcome.ite (fun _ => .refl c) fun _ => ?_
  have hack : c.Moves (if a.seg.ack then c.modSnd fun snd => { snd with sndUna := snd.sndUna + 1 }
      else c) := by
    split
    · exact .of_eq rfl
    · exact .refl c
  dsimp only
  generalize (if a.seg.ack then c.modSnd fun snd => { snd with sndUna := snd.sndUna + 1 } else c) = c₁
    at hack ⊢
  refine Outcome.ite (fun _ => ?_) fun _ => Outcome.ite (fun _ => ?_) fun _ => ?_
  · rw [Outcome.ok_iff]
    split
    · exact hack.trans (.of_eq rfl)
    · exact hack.trans (.of_eq rfl)
  · unfold synSentOpen
    refine Outcome.bind (hack.after (activeOpen_moves c₁ a)) fun c₂ h₂ => ?_
    have hrto := (h₂.trans (.of_eq rfl)).trans
      (removeFromRtoList_moves ((c₂.modSnd fun snd => { snd with nrtx := 0 }).mod
        fun s => { s with rcvNxt := s.rcv.irs + 1 }))
    refine Conn.Moves.after (Conn.Moves.controllist ?_) (addToTimeoutList_moves _)
    split
    · exact hrto.trans (.of_eq rfl)
    · exact hrto.trans (.of_eq rfl)
  · exact Conn.Moves.controllist (hack.trans (.of_eq rfl))

theorem handleSynRcvd_moves (c : Conn ρ) (a : Arrival ρ) :
    Outcome (handleSynRcvd c a) (fun _ => True) c.Moves := by
  unfold handleSynRcvd
  refine Outcome.ite (fun _ => Outcome.ite (fun _ => trivial) fun _ => ?_) fun _ =>
    Conn.Moves.controllist (.of_eq rfl)
  rw [synRcvdOpen_eq]
  have hrto : c.Moves ((removeFromRtoList (c.synRcvdAcked a)).setState .established) :=
    ((removeFromRtoList_moves (c.synRcvdAcked a)).since rfl).trans (.of_eq rfl)
  split
  · exact trivial
  · refine Outcome.ite (fun _ => ?_) fun _ => hrto.after (addToTimeoutList_moves _)
    refine Conn.Moves.after ?_ (addToTimeoutList_moves _)
    exact Conn.Moves.controllist (hrto.trans (.of_eq rfl))

theorem handleEstablished_moves (P : Parts ρ) (c : Conn ρ) (a : Arrival ρ) :
    Outcome (handleEstablished P c a) (fun _ => True) c.Moves := by
  unfold handleEstablished
  refine Outcome.ite (fun _ => Conn.Moves.controllist (.of_eq rfl)) fun _ => ?_
  refine Outcome.bind (receivePayload_moves P c a) fun c₀ h₀ => ?_
  have hack : Outcome (establishedAck c₀ a) (fun _ => True) c.Moves := by
    refine h₀.after ?_
    unfold establishedAck
    exact Outcome.ite (fun _ => receiveAck_moves _ a) fun _ => .refl _
  refine Outcome.bind hack fun c₁ h₁ => ?_
  rw [Outcome.ok_iff]
  unfold establishedFin
  split
  · split
    · exact Conn.Moves.controllist (h₁.trans (.of_eq rfl))
    · exact h₁.trans (enqueueAcklist_moves c₁ .now)
  · exact h₁

theorem handleSynRcvdData_moves (P : Parts ρ) (c : Conn ρ) (a : Arrival ρ) :
    Outcome (handleSynRcvdData P c a) (fun _ => True) c.Moves := by
  unfold handleSynRcvdData
  refine Outcome.ite (fun _ => handleListen_moves c a) fun _ =>
    Outcome.bind (handleSynRcvd_moves c a) fun c₁ h₁ => ?_
  exact Outcome.ite (fun _ => h₁.after (handleEstablished_moves P c₁ a)) fun _ => h₁

theorem handleLastAck_moves (c : Conn ρ) (a : Arrival ρ) :
    Outcome (handleLastAck c a) (fun _ => True) c.Moves := by
  unfold handleLastAck
  refine Outcome.ite (fun _ => .refl c) fun _ => Outcome.ite (fun _ => ?_) fun _ =>
    addtoControllist_moves c
  refine Outcome.bind (receiveAck_moves c a) fun c₁ h₁ => ?_
  refine Outcome.ite (fun _ => h₁) fun _ => Outcome.ite (fun _ => ?_) fun _ => h₁.controllist
  refine Outcome.bind ((h₁.trans (.of_eq rfl)).after (updateRetransmissionTimer_moves _ a.ts))
    fun c₂ h₂ => ?_
  exact h₂.trans (.of_eq rfl)

theorem handleFinWait1_moves (P : Parts ρ) (c : Conn ρ) (a : Arrival ρ) :
    Outcome (handleFinWait1 P c a) (fun _ => True) c.Moves := by
  unfold handleFinWait1
  refine Outcome.ite (fun _ => addtoControllist_moves c) fun _ => Outcome.ite (fun _ => ?_) fun _ =>
    .refl c
  refine Outcome.bind (receiveAck_moves c a) fun c₁ h₁ => ?_
  have hfin : c.Moves (finAcked c₁ a.seg) := by
    unfold finAcked
    split
    · exact h₁.trans (Conn.Moves.since ((removeFromRtoList_moves _).trans (.of_eq rfl)) rfl)
    · exact h₁
  refine Outcome.bind (hfin.after (receivePayload_moves P (finAcked c₁ a.seg) a)) fun c₂ hpay => ?_
  refine Outcome.ite (fun _ => ?_) fun _ => hpay
  unfold finWait1Fin
  refine Outcome.ite (fun _ => ?_) fun _ => Outcome.ite (fun _ => ?_) fun _ => trivial
  · exact Conn.Moves.controllist (hpay.trans (.of_eq rfl))
  · exact Conn.Moves.controllist (hpay.trans ((addToTimewaitList_moves _ a.ts).since rfl))

theorem handleFinWait2_moves (P : Parts ρ) (c : Conn ρ) (a : Arrival ρ) :
    Outcome (handleFinWait2 P c a) (fun _ => True) c.Moves := by
  unfold handleFinWait2
  refine Outcome.ite (fun _ => ?_) fun _ => .refl c
  refine Outcome.bind (receiveAck_moves c a) fun c₁ h₁ => ?_
  refine Outcome.bind (h₁.after (receivePayload_moves P c₁ a)) fun c₂ hpay => ?_
  refine Outcome.ite (fun _ => ?_) fun _ => hpay
  exact Conn.Moves.controllist (hpay.trans ((addToTimewaitList_moves _ a.ts).since rfl))

theorem handleClosing_moves (c : Conn ρ) (a : Arrival ρ) :
    Outcome (handleClosing c a) (fun _ => True) c.Moves := by
  unfold handleClosing
  refine Outcome.ite (fun _ => ?_) fun _ => .refl c
  refine Outcome.bind (receiveAck_moves c a) fun c₁ h₁ => ?_
  refine Outcome.ite (fun _ => h₁) fun _ => Outcome.ite (fun _ => h₁) fun _ => ?_
  refine Outcome.bind ((h₁.trans (.of_eq rfl)).after (updateRetransmissionTimer_moves _ a.ts))
    fun c₂ h₂ => ?_
  exact h₂.trans ((addToTimewaitList_moves _ a.ts).since rfl)

theorem handleTimeWait_moves (c : Conn ρ) (a : Arrival ρ) :
    Outcome (handleTimeWait c a) (fun _ => True) c.Moves := by
  unfold handleTimeWait
  refine Outcome.ite (fun _ => ?_) fun _ => addtoControllist_moves c
  refine Outcome.bind (removeFromTimewaitList_moves c) fun c₁ h₁ => ?_
  exact Conn.Moves.controllist (h₁.trans (addToTimewaitList_moves c₁ a.ts))

theorem dispatch_moves (hP : P.CloseWaitAcks) (c : Conn ρ) (a : Arrival ρ) :
    Outcome (dispatch P c a) (fun _ => True) c.Moves := by
  unfold dispatch
  split
  · exact handleListen_moves c a
  · exact handleSynSent_moves c a
  · exact handleSynRcvdData_moves P c a
  · exact handleEstablished_moves P c a
  · cases hr : P.handleCloseWait c a with
    | error e => exact trivial
    | ok c' => exact (hP c a c' hr).moves
  · exact handleLastAck_moves c a
  · exact handleFinWait1_moves P c a
  · exact handleFinWait2_moves P c a
  · exact handleClosing_moves c a
  · exact handleTimeWait_moves c a
  · exact .refl c

/-- **One segment** only puts its stream on lists and takes it off. -/
theorem processStream_moves (hP : P.CloseWaitAcks) (c : Conn ρ) (a : Arrival ρ) :
    Outcome (processStream P c a) (fun _ => True) c.Moves := by
  have haccepted : ∀ c : Conn ρ, Outcome (processAccepted P c a) (fun _ => True) c.Moves := by
    intro c
    have hnote := noteArrival_moves c a
    unfold processAccepted
    refine Outcome.ite (fun _ => ?_) fun _ => hnote.after (dispatch_moves hP _ a)
    have hreset : c.Moves ((noteArrival c a).mod fun s => { s with haveReset := true }) :=
      hnote.trans (.of_eq rfl)
    refine Outcome.ite (fun _ => ?_) fun _ => hreset.after (dispatch_moves hP _ a)
    exact hreset.trans (processRst_moves _ _)
  unfold processStream
  refine Outcome.ite (fun _ => Outcome.ite (fun _ => ?_) fun _ => validseq_moves c a) fun _ =>
    haccepted c
  exact (validseq_moves c a).after (haccepted _)

theorem rtoResend_moves (c : Conn ρ) :
    Outcome (rtoResend c) (fun _ => True) fun r => c.Moves r.1 := by
  have hnxt : c.Moves (c.mod fun s => { s with sndNxt := s.snd.sndUna }) := .of_eq rfl
  unfold rtoResend
  generalize (c.mod fun s => { s with sndNxt := s.snd.sndUna }) = d at hnxt ⊢
  refine Outcome.ite (fun _ => ?_) fun _ => Outcome.ite (fun _ =>
    Outcome.ite (fun _ => ?_) fun _ => hnxt.controllist) fun _ => hnxt.controllist
  · exact Outcome.bind (hnxt.after (addtoSendlist_moves d)) fun _ h => h
  · have hout : c.Moves (if d.stream.snd.onControlList then removeControllist d else d) := by
      split
      · exact hnxt.trans (removeControllist_moves d)
      · exact hnxt
    exact Outcome.bind ((hout.trans (.of_eq rfl)).after (addtoSendlist_moves _)) fun _ h => h

theorem rtoRetry_moves (c : Conn ρ) (socket : Bool) :
    Outcome (rtoRetry c socket) (fun _ => True) fun r => c.Moves r.1 := by
  unfold rtoRetry
  extract_lets c₁ c₂ c₃ c₄
  have h₂ : c.Moves c₂ := Conn.Moves.trans (.of_eq rfl : c.Moves c₁) (.of_eq rfl)
  have hset : c.Moves c₄ := h₂.trans (Conn.Moves.trans (.of_eq rfl : c₂.Moves c₃) (.of_eq rfl))
  clear_value c₄
  have hresend : Outcome (rtoResend c₄) (fun _ => True) fun r => c.Moves r.1 :=
    (rtoResend_moves c₄).mono (fun _ h => h) fun _ => hset.trans
  refine Outcome.ite (fun _ => Outcome.ite (fun _ => ?_) fun _ => hresend) fun _ =>
    Outcome.ite (fun _ => hresend) fun _ => trivial
  rw [Outcome.ok_iff]
  dsimp only
  split
  · exact hset.trans (.of_eq rfl)
  · exact hset.trans (.of_eq rfl)

/-- A timeout, too. -/
theorem handleRto_moves (c : Conn ρ) (socket : Bool) :
    Outcome (handleRto c socket) (fun _ => True) fun r => c.Moves r.1 := by
  unfold handleRto
  refine Outcome.ite (fun _ => rtoRetry_moves c socket) fun _ => Outcome.ite (fun _ => .of_eq rfl) fun _ => ?_
  rw [Outcome.ok_iff]
  dsimp only
  split
  · exact .of_eq rfl
  · exact .of_eq rfl

end Calls

/-! ### Runs -/

/-- The flags of the streams; without a stream none is set. -/
def Stack.flags (S : Stack ρ) (a : Addr) (i : FlagList) : Bool :=
  match S.stream a with
  | some s => s.flag i
  | none => false

/-- Every stream is where its field says, the lists hold the flagged streams, each once, and the counters
count them. -/
structure Stack.Listed (S : Stack ρ) : Prop where
  addr : ∀ a s, S.stream a = some s → s.addr = a
  nodup : ∀ i, (S.tcp.flagList i).Nodup
  mem_iff : ∀ i a, a ∈ S.tcp.flagList i ↔ ∃ s, S.stream a = some s ∧ s.flag i = true
  cnt : ∀ i, S.tcp.flagCnt i = BitVec.ofNat 32 (S.tcp.flagList i).length

/-- A new stream is at its address and has no flag. -/
def FreshObjects (_ : Stack ρ) : ClosedLabel ρ → Prop
  | .created x a => ∀ s snd, a.streamObj = some s → a.sndObj = some snd →
      s.addr = x ∧ s.onTimeoutList = false ∧ ∀ k, snd.on k = false
  | _ => True

section Runs

variable {P : Parts ρ} {S S' : Stack ρ} {tcpTimeout : ℤ} {x : Addr} {s : Stream ρ} {c : Conn ρ}
  {a : Arrival ρ} {l : ClosedLabel ρ}

theorem Stack.flags_iff (S : Stack ρ) (a : Addr) (i : FlagList) :
    S.flags a i = true ↔ ∃ s, S.stream a = some s ∧ s.flag i = true := by
  unfold Stack.flags
  cases S.stream a with
  | none => simp
  | some s => simp

theorem Listing.Moves.addr {m m' : Listing} (h : m.Moves m') : m'.addr = m.addr := by
  induction h with
  | refl => rfl
  | add _ i ih =>
    unfold Listing.add
    split
    · exact ih
    · exact ih
  | remove _ i ih =>
    unfold Listing.remove
    split
    · exact ih
    · exact ih

theorem Conn.Moves.addr {c c' : Conn ρ} (h : c.Moves c') : c'.stream.addr = c.stream.addr :=
  Listing.Moves.addr h

theorem Stack.flags_put (S : Stack ρ) (c : Conn ρ) :
    (S.put c).flags = Function.update S.flags c.stream.addr c.stream.flag := by
  funext a
  unfold Stack.flags Stack.put
  by_cases ha : a = c.stream.addr
  · subst ha
    simp only [Function.update_self]
  · simp only [Function.update_of_ne ha]

/-- A connection whose listing agrees is put into the stack. -/
theorem Stack.Listed.put (h : S.Listed) (hagree : c.listing.Agrees S.flags) : (S.put c).Listed where
  addr := by
    intro a s hs
    rcases Stack.stream_put hs with ⟨ha, rfl⟩ | ⟨-, hold⟩
    · exact ha.symm
    · exact h.addr a s hold
  nodup := hagree.nodup
  mem_iff := by
    intro i a
    rw [← Stack.flags_iff, Stack.flags_put]
    exact hagree.mem_iff i a
  cnt := hagree.cnt

/-- A stream whose flags are those of the stack, with its manager. -/
theorem Stack.Listed.agrees (h : S.Listed) (htcp : c.tcp = S.tcp)
    (hflag : ∀ i, c.stream.flag i = S.flags c.stream.addr i) : c.listing.Agrees S.flags := by
  have hflags : Function.update S.flags c.stream.addr c.stream.flag = S.flags :=
    Function.update_eq_self_iff.mpr (funext hflag)
  refine ⟨fun i => ?_, fun i a => ?_, fun i => ?_⟩
  · change (c.tcp.flagList i).Nodup
    rw [htcp]
    exact h.nodup i
  · change a ∈ c.tcp.flagList i ↔ Function.update S.flags c.stream.addr c.stream.flag a i = true
    rw [hflags, htcp, S.flags_iff]
    exact h.mem_iff i a
  · change c.tcp.flagCnt i = BitVec.ofNat 32 (c.tcp.flagList i).length
    rw [htcp]
    exact h.cnt i

/-- What a function on one stream sees agrees. -/
theorem Stack.Listed.conn (h : S.Listed) (hs : S.stream x = some s) :
    (S.conn s).listing.Agrees S.flags := by
  refine h.agrees rfl fun i => ?_
  change s.flag i = S.flags s.addr i
  rw [h.addr x s hs]
  unfold Stack.flags
  rw [hs]

/-- A call on one stream that only moves it keeps the stack in order. -/
theorem Stack.Listed.moves (h : S.Listed) (hs : S.stream x = some s) (hm : (S.conn s).Moves c) :
    (S.put c).Listed :=
  h.put ((h.conn hs).moves hm)

theorem Stack.Listed.store_moves (h : S.Listed) (hs : S.stream x = some s) (hm : (S.conn s).Moves c) :
    (S.store x c.toWorld).Listed := by
  obtain rfl : c.stream.addr = x := hm.addr.trans (h.addr x s hs)
  exact h.moves hs hm

theorem Stack.Listed.store_same (h : S.Listed) (hs : S.stream x = some s) :
    (S.store x (S.conn s).toWorld).Listed := h.store_moves hs (.refl _)

theorem createTcpStream_flags {saddr daddr : U32} {sport dport : U16}
    (h : createTcpStream a saddr sport daddr dport = some s) :
    ∃ obj snd, a.streamObj = some obj ∧ a.sndObj = some snd ∧ s.addr = obj.addr ∧
      s.onTimeoutList = obj.onTimeoutList ∧ ∀ k, s.snd.on k = snd.on k := by
  unfold createTcpStream at h
  split at h
  · next obj snd _ hobj hsnd _ =>
    cases h
    refine ⟨obj, snd, hobj, hsnd, rfl, rfl, fun k => ?_⟩
    cases k <;> rfl
  · cases h

/-- A new stream is on no list. -/
theorem createStream_agrees (h : S.Listed) (hfree : S.stream x = none)
    (hobj : FreshObjects S (.created x a)) :
    Outcome (createStream S.tcp [] a) (fun _ => True) fun r => ∀ c, r = some c →
      c.listing.Agrees S.flags ∧ c.stream.addr = x := by
  have hnone : Outcome (.ok none : Except Abort (Option (Conn ρ))) (fun _ => True) fun r =>
      ∀ c, r = some c → c.listing.Agrees S.flags ∧ c.stream.addr = x := by
    intro c hc
    cases hc
  unfold createStream
  refine Outcome.ite (fun _ => Outcome.ite (fun _ => ?_) fun _ => hnone) fun _ => hnone
  unfold passiveOpen
  split
  · exact hnone
  next s hs =>
  obtain ⟨obj, snd, hstream, hsnd, haddr, hout, hon⟩ := createTcpStream_flags hs
  obtain ⟨hx, hobjOut, hobjOn⟩ := hobj obj snd hstream hsnd
  obtain rfl : s.addr = x := haddr.trans hx
  have hclear : ∀ i, (passiveInit s a.seg).flag i = S.flags s.addr i := by
    intro i
    unfold Stack.flags
    rw [hfree]
    cases i with
    | timeout => exact hout.trans hobjOut
    | sender k =>
      have hsame : (passiveInit s a.seg).snd.on k = s.snd.on k := by cases k <;> rfl
      exact hsame.trans ((hon k).trans (hobjOn k))
  have hnew : Listing.Agrees S.flags (Conn.listing
      { tcp := S.tcp, stream := passiveInit s a.seg, log := [] ++ [.entered s] }) :=
    h.agrees rfl hclear
  have haddr' : ({ tcp := S.tcp, stream := passiveInit s a.seg, log := [] ++ [.entered s] } :
      Conn ρ).stream.addr = s.addr := rfl
  generalize ({ tcp := S.tcp, stream := passiveInit s a.seg, log := [] ++ [.entered s] } : Conn ρ) = c₀
    at hnew haddr'
  -- a stream without a receive buffer is closed at once
  have hbuf : ∀ buf : Option ρ, c₀.Moves
      (if buf.isNone then (c₀.modRcv fun rcv => { rcv with rcvbuf := buf }).close .closed .noMem
      else c₀.modRcv fun rcv => { rcv with rcvbuf := buf }) := by
    intro buf
    split
    · exact .of_eq rfl
    · exact .of_eq rfl
  refine Outcome.bind ((hbuf _).after (parseOptions_moves _ a.ts a.seg)) fun c₁ h₁ c hc => ?_
  obtain rfl : c₁ = c := Option.some.inj hc
  exact ⟨hnew.moves h₁, h₁.addr.trans haddr'⟩

theorem timewaitLoop_listed (curTs : U32) (thresh : ℤ) (l : List Addr) (cnt : ℤ) (S : Stack ρ)
    (h : S.Listed) :
    Outcome (timewaitLoop curTs thresh l cnt S) (fun _ => True) fun r => r.1.Listed := by
  induction l generalizing cnt S with
  | nil => exact h
  | cons walk next ih =>
    unfold timewaitLoop
    refine Outcome.ite (fun _ => h) fun _ => ?_
    cases hs : S.stream walk with
    | none =>
      unfold Stack.deref
      rw [hs]
      exact trivial
    | some s =>
      refine Outcome.bind (Stack.deref_outcome hs) fun s' hs' => ?_
      subst hs'
      refine Outcome.ite (fun _ => Outcome.ite (fun _ => ?_) fun _ => h) fun _ => ih _ S h
      exact Outcome.ite (fun _ => ih _ _ (h.moves hs (.of_eq rfl))) fun _ => ih _ S h

/-- A stream on the timeout list is closed for its silence. -/
theorem closeIdle_moves (hon : c.stream.onTimeoutList = true) (socket : Bool) :
    c.Moves (closeIdle c socket) := by
  have hclosed : (closeIdle c socket).listing = (closeIdle c true).listing := by
    unfold closeIdle
    dsimp only
    split <;> rfl
  unfold Conn.Moves
  rw [hclosed]
  refine Conn.Moves.of_remove .timeout (fun hoff => absurd hon hoff) fun _ => ?_
  refine Listing.ext rfl ?_ ?_ ?_
  · funext i
    rcases i with ⟨_ | _ | _⟩ | _ <;> rfl
  · funext i
    rcases i with ⟨_ | _ | _⟩ | _ <;> rfl
  · funext i
    rcases i with ⟨_ | _ | _⟩ | _
    · rfl
    · rfl
    · rfl
    · exact ofInt_sub_one _

/-- The scan goes along the list as it was: what it has not come to is still on it. -/
theorem timeoutLoop_listed (curTs : U32) (thresh : ℤ) (l : List Addr) (cnt : ℤ) (S : Stack ρ)
    (h : S.Listed) (hnodup : l.Nodup) (hon : ∀ a ∈ l, S.flags a .timeout = true) :
    Outcome (timeoutLoop tcpTimeout curTs thresh l cnt S) (fun _ => True) fun r => r.1.Listed := by
  induction l generalizing cnt S with
  | nil => exact h
  | cons walk next ih =>
    unfold timeoutLoop
    refine Outcome.ite (fun _ => h) fun _ => ?_
    obtain ⟨s, hs, hflag⟩ := (S.flags_iff walk .timeout).mp (hon walk List.mem_cons_self)
    refine Outcome.bind (Stack.deref_outcome hs) fun s' hs' => Outcome.ite (fun _ => ?_) fun _ => h
    subst hs'
    have hmoves := closeIdle_moves (c := S.conn s') hflag (S.socket walk)
    refine ih _ _ (h.moves hs hmoves) hnodup.of_cons fun a ha => ?_
    have hne : a ≠ (closeIdle (S.conn s') (S.socket walk)).stream.addr := by
      rw [hmoves.addr]
      exact fun heq => (List.nodup_cons.mp hnodup).1 (h.addr walk s' hs ▸ heq ▸ ha)
    rw [Stack.flags_put, Function.update_of_ne hne]
    exact hon a (List.mem_cons_of_mem _ ha)

/-- **One step** of the stack keeps flags, lists and counters in agreement. -/
theorem ClosedStep.listed (hP : P.CloseWaitAcks)
    (hstep : Guarded FreshObjects (ClosedStep P tcpTimeout) S l S') (h : S.Listed) : S'.Listed := by
  obtain ⟨hguard, hstep⟩ := hstep
  cases hstep with
  | @segment y s a w ret hs hcall =>
    rcases process_found hcall with rfl | ⟨-, -, c', hproc, rfl⟩
    · exact h.store_same hs
    · exact h.store_moves hs ((processStream_moves hP _ a).of_ok hproc)
  | @created y a w ret hfree hcall =>
    rcases process_ok hcall with rfl | ⟨c, c', hfind, hproc, rfl⟩
    · exact h
    · obtain ⟨hagree, haddr⟩ := (createStream_agrees h hfree hguard).of_ok hfind c rfl
      have hmoves := (processStream_moves hP c a).of_ok hproc
      obtain rfl : c'.stream.addr = y := hmoves.addr.trans haddr
      exact h.put (hagree.moves hmoves)
  | @rto y s c ret hs hcall => exact h.store_moves hs ((handleRto_moves _ _).of_ok hcall)
  | timewait hcall => exact (timewaitLoop_listed _ _ _ 0 S h).of_ok hcall
  | timeout hcall =>
    refine (timeoutLoop_listed _ _ _ 0 S h (h.nodup .timeout) fun a ha => ?_).of_ok hcall
    exact (S.flags_iff a .timeout).mpr ((h.mem_iff .timeout a).mp ha)

/-- **Flags, lists and counters agree in every run** of segments and timers, for any number of streams and
from any state in which they do: a stream is on the ack, the control, the send or the timeout list if and
only if its flag says so, and then once, and each counter is the length of its list. -/
theorem lists_agree (hP : P.CloseWaitAcks) {ls : List (ClosedLabel ρ)} (h₀ : S.Listed)
    (hrun : Run (Guarded FreshObjects (ClosedStep P tcpTimeout)) S ls S') : S'.Listed :=
  hrun.invariant Stack.Listed h₀ fun _ _ _ h hstep => ClosedStep.listed hP hstep h

end Runs

/-- An active open is answered, and nothing more comes. -/
theorem lists_agree_idle :
    ∃ S, Run (Guarded FreshObjects (ClosedStep inOrderParts 30)) (stackOf activeStream)
      [.segment 0 (openSegment true true 7 101), .timeout 40000 10] S ∧ S.Listed := by
  have honly : ∀ a s, (stackOf activeStream).stream a = some s → a = 0 ∧ s = activeStream := by
    intro a s hs
    change (if a = 0 then some activeStream else none) = some s at hs
    split at hs
    next ha => exact ⟨ha, (Option.some.inj hs).symm⟩
    · cases hs
  have h₀ : (stackOf activeStream).Listed := by
    refine ⟨fun a s hs => ?_, fun i => ?_, fun i a => ?_, fun i => ?_⟩
    · obtain ⟨rfl, rfl⟩ := honly a s hs
      rfl
    · rcases i with ⟨_ | _ | _⟩ | _ <;> exact List.nodup_nil
    · have hempty : a ∉ (stackOf activeStream).tcp.flagList i := by
        rcases i with ⟨_ | _ | _⟩ | _ <;> exact List.not_mem_nil
      refine iff_of_false hempty ?_
      rintro ⟨s, hs, hflag⟩
      obtain ⟨rfl, rfl⟩ := honly a s hs
      rcases i with ⟨_ | _ | _⟩ | _ <;> cases hflag
    · rcases i with ⟨_ | _ | _⟩ | _ <;> rfl
  have hopen : Run (Guarded FreshObjects (ClosedStep inOrderParts 30)) (stackOf activeStream)
      [.segment 0 (openSegment true true 7 101)] _ := Run.single ⟨trivial, .segment rfl rfl⟩
  have hrun : Run (Guarded FreshObjects (ClosedStep inOrderParts 30)) (stackOf activeStream)
      [.segment 0 (openSegment true true 7 101), .timeout 40000 10] _ :=
    hopen.snoc ⟨trivial, .timeout rfl⟩
  exact ⟨_, hrun, lists_agree inOrderParts_acks h₀ hrun⟩

end CmtTcp
