import CmtTcp.Reassembly

/-!
# Reading from the receive buffer

`recv_remove` of `tcp_buffer.c`. The receive buffer gets a second length, `merged_len`, beside `cum_len`:
the request is compared with `cum_len`, and `merged_len` is what becomes smaller. `cum_len` stays, so it is
the length of the first fragment only until something has been read.

* `recvRemove_of_le`, `recvRemove_beyond`: one call, whose effective length is at most, or more than, what is
  left of the first fragment;
* `recvRemove_contiguous_iff`: a sequence of calls consumes contiguous data only exactly when `ReadsFit`, a
  condition on the lengths that were asked for.
-/

namespace CmtTcp

open Lib (Seg)

/-! ### The code -/

/-- A receive buffer with its heap. `merged_len` is a field that `tcp.c` and `recv_remove` use and the
header does not declare; `recv_put` does not write it. -/
structure Received where
  recv : RecvState
  mergedLen : U32

/-- `recv_remove`. The removed fragment goes back to a pool. -/
def recvRemove (r : Received) (len : U64) : Except RecvFault (Received × U64) :=
  let buff := r.recv.buff
  -- `buff->cum_len < (int)len` compares unsigned
  let len := if buff.cumLen < (len.setWidth 32).signExtend 64 then r.mergedLen.setWidth 64 else len
  if len = 0 then .ok (r, 0)
  else
    let buff := { buff with
      headSeq := buff.headSeq + len.setWidth 32
      lastLen := buff.lastLen - len.setWidth 32 }
    let mergedLen := r.mergedLen - len.setWidth 32
    -- the first fragment is taken without a test
    match buff.fctx with
    | none => .error .nullDeref
    | some first =>
      let f := r.recv.frag first
      if len = f.len.setWidth 64 then
        .ok ({ recv := { r.recv with buff := { buff with fctx := f.next } }, mergedLen := mergedLen },
          len)
      else if len < f.len.setWidth 64 then
        let f := { f with seq := f.seq + len.setWidth 32, len := f.len - len.setWidth 32 }
        .ok ({ recv := { r.recv with buff := buff }.setFrag first f, mergedLen := mergedLen }, len)
      -- more than the first fragment holds: `assert(0)`
      else .error .assertion

/-- The values of `option` that `recv_remove` tells apart. -/
inductive RemoveOption where
  | atApp
  | atMtcp
  | other
deriving DecidableEq, Repr

/-- The receive buffer and the two queues of the receive manager for fragments that are done with. -/
structure ReadBuffer (Q : Type) extends Received where
  freeFragq : Q
  freeFragqInt : Q

namespace ReadBuffer

variable {Q : Type} (rbFragEnqueue : Q → Addr → Q)

/-- The queue that gets the fragment. -/
def enqueue (b : ReadBuffer Q) (option : RemoveOption) (remove : Addr) : ReadBuffer Q :=
  match option with
  | .atApp => { b with freeFragq := rbFragEnqueue b.freeFragq remove }
  | .atMtcp => { b with freeFragqInt := rbFragEnqueue b.freeFragqInt remove }
  | .other => b

/-- `recv_remove` with its `option`: where a first fragment goes that was taken whole. -/
def recvRemove (b : ReadBuffer Q) (len : U64) (option : RemoveOption) :
    Except RecvFault (ReadBuffer Q × U64) := do
  let (r, len) ← CmtTcp.recvRemove b.toReceived len
  let b' := { b with toReceived := r }
  match b.recv.buff.fctx with
  | none => .ok (b', len)
  | some first =>
    if len ≠ 0 ∧ len = (b.recv.frag first).len.setWidth 64 then
      .ok (b'.enqueue rbFragEnqueue option first, len)
    else .ok (b', len)

end ReadBuffer

/-- A receive buffer, and how much has been removed from it. -/
structure ReadHist (Q : Type) where
  b : ReadBuffer Q
  removed : ℕ

/-- One call. -/
def ReadHist.exec {Q : Type} (rbFragEnqueue : Q → Addr → Q) (h : ReadHist Q) (c : U64 × RemoveOption) :
    Except RecvFault (ReadHist Q) := do
  let (b, n) ← h.b.recvRemove rbFragEnqueue c.1 c.2
  .ok { b := b, removed := h.removed + n.toNat }

/-! ### What is asked of the reads -/

/-- A fragment without its first `n` bytes. -/
def Fragment.drop (f : Fragment) (n : ℕ) : Fragment :=
  { f with seq := f.seq + BitVec.ofNat 32 n, len := f.len - BitVec.ofNat 32 n }

namespace Received

/-- The buffer before the first read: both lengths are the one of the first fragment. -/
structure Starts (r : Received) (first : Addr) (rest : List Addr) : Prop where
  list : Seg r.recv.next r.recv.buff.fctx (first :: rest) none
  cumLen : r.recv.buff.cumLen = (r.recv.frag first).len.setWidth 64
  mergedLen : r.mergedLen = (r.recv.frag first).len

/-- From `r` to `r'`, `n` bytes were removed, all of them from the front of the first fragment. -/
structure Consumed (r : Received) (first : Addr) (rest : List Addr) (r' : Received) (n : ℕ) : Prop where
  le : n ≤ (r.recv.frag first).len.toNat
  headSeq : r'.recv.buff.headSeq = r.recv.buff.headSeq + BitVec.ofNat 32 n
  list : Seg r'.recv.next r'.recv.buff.fctx
    (if 0 < n ∧ n = (r.recv.frag first).len.toNat then rest else first :: rest) none
  /-- the first fragment, as long as it is in the list -/
  front : ¬(0 < n ∧ n = (r.recv.frag first).len.toNat) →
    r'.recv.frag first = (r.recv.frag first).drop n
  /-- behind the gap -/
  behind : ∀ a ∈ rest, r'.recv.frag a = r.recv.frag a

end Received

/-- Every call of the sequence returns, and what has been removed after it is contiguous data. -/
def Received.ReadsContiguous {Q : Type} (r : Received) (first : Addr) (rest : List Addr)
    (rbFragEnqueue : Q → Addr → Q) (h : ReadHist Q) (cs : List (U64 × RemoveOption)) : Prop :=
  ∀ pre, pre <+: cs → ∃ h', pre.foldlM (ReadHist.exec rbFragEnqueue) h = .ok h' ∧
    r.Consumed first rest h'.b.toReceived h'.removed

/-- Requests for the bytes of a first fragment of length `len`, of which `left` are left. One that is larger
than `len`, read as an `int`, takes what is left. -/
def ReadsFit (len : U32) : (left : ℕ) → List U64 → Prop
  | _, [] => True
  | left, n :: ns =>
    if len.setWidth 64 < (n.setWidth 32).signExtend 64 then ReadsFit len 0 ns
    else n.toNat ≤ left ∧ ReadsFit len (left - n.toNat) ns

/-! ### One call -/

section Call

variable {r r' : Received} {first : Addr} {rest : List Addr} {n : ℕ} {len m : U64}

theorem Fragment.drop_zero (f : Fragment) : f.drop 0 = f := by
  simp [Fragment.drop]

theorem Fragment.drop_drop (f : Fragment) (n m : ℕ) : (f.drop n).drop m = f.drop (n + m) := by
  unfold Fragment.drop
  rw [BitVec.ofNat_add, BitVec.add_assoc, BitVec.sub_sub]

theorem Fragment.toNat_drop_len (f : Fragment) (h : n ≤ f.len.toNat) :
    (f.drop n).len.toNat = f.len.toNat - n := by
  unfold Fragment.drop
  bv_omega

/-- The length that a call removes. -/
def Received.removeLen (r : Received) (len : U64) : U64 :=
  if r.recv.buff.cumLen < (len.setWidth 32).signExtend 64 then r.mergedLen.setWidth 64 else len

namespace Received

/-- The counters of a call that removes `len` bytes. -/
def advance (r : Received) (len : U64) : Received where
  recv :=
    { r.recv with
      buff :=
        { r.recv.buff with
          headSeq := r.recv.buff.headSeq + len.setWidth 32
          lastLen := r.recv.buff.lastLen - len.setWidth 32 } }
  mergedLen := r.mergedLen - len.setWidth 32

/-- A call that removes something from a fragment. -/
theorem recvRemove_eq (hzero : r.removeLen len ≠ 0) (hfctx : r.recv.buff.fctx = some first) :
    CmtTcp.recvRemove r len =
      if r.removeLen len = (r.recv.frag first).len.setWidth 64 then
        .ok ({ r.advance (r.removeLen len) with
          recv := (r.advance (r.removeLen len)).recv.setFctx (r.recv.frag first).next }, r.removeLen len)
      else if r.removeLen len < (r.recv.frag first).len.setWidth 64 then
        .ok ({ r.advance (r.removeLen len) with
          recv := (r.advance (r.removeLen len)).recv.setFrag first
            ((r.recv.frag first).drop (r.removeLen len).toNat) }, r.removeLen len)
      else .error .assertion := by
  unfold CmtTcp.recvRemove
  dsimp only
  change (if r.removeLen len = 0 then _ else _) = _
  rw [if_neg hzero]
  split
  · next hnone =>
    rw [hfctx] at hnone
    cases hnone
  · next a ha =>
    obtain rfl : first = a := Option.some.inj (hfctx.symm.trans ha)
    rfl

theorem recvRemove_none (hzero : r.removeLen len ≠ 0) (hfctx : r.recv.buff.fctx = none) :
    CmtTcp.recvRemove r len = .error .nullDeref := by
  unfold CmtTcp.recvRemove
  dsimp only
  change (if r.removeLen len = 0 then _ else _) = _
  rw [if_neg hzero, hfctx]

theorem recvRemove_zero (hzero : r.removeLen len = 0) : CmtTcp.recvRemove r len = .ok (r, 0) :=
  if_pos hzero

/-- What a call returns is its effective length. -/
theorem recvRemove_snd (h : CmtTcp.recvRemove r len = .ok (r', m)) : m = r.removeLen len := by
  by_cases hzero : r.removeLen len = 0
  · rw [recvRemove_zero hzero] at h
    rw [hzero]
    exact (Prod.mk.inj (Except.ok.inj h)).2.symm
  · cases hfctx : r.recv.buff.fctx with
    | none =>
      rw [recvRemove_none hzero hfctx] at h
      cases h
    | some first =>
      rw [recvRemove_eq hzero hfctx] at h
      split at h
      · exact (Prod.mk.inj (Except.ok.inj h)).2.symm
      · split at h
        · exact (Prod.mk.inj (Except.ok.inj h)).2.symm
        · cases h

/-- What holds between the reads, as long as they have consumed contiguous data only. -/
structure Reading (r : Received) (first : Addr) (rest : List Addr) (r' : Received) (n : ℕ) : Prop
    extends r.Consumed first rest r' n where
  cumLen : r'.recv.buff.cumLen = (r.recv.frag first).len.setWidth 64
  mergedLen : r'.mergedLen.toNat = (r.recv.frag first).len.toNat - n

theorem Starts.reading (h : r.Starts first rest) : r.Reading first rest r 0 where
  le := Nat.zero_le _
  headSeq := (BitVec.add_zero _).symm
  list := by
    rw [if_neg fun h => Nat.lt_irrefl 0 h.1]
    exact h.list
  front := fun _ => (Fragment.drop_zero _).symm
  behind := fun _ _ => rfl
  cumLen := h.cumLen
  mergedLen := by rw [h.mergedLen, Nat.sub_zero]

namespace Reading

/-- The first fragment while there is something left of it. -/
theorem front_of_lt (h : r.Reading first rest r' n) (hlt : n < (r.recv.frag first).len.toNat) :
    Seg r'.recv.next r'.recv.buff.fctx (first :: rest) none ∧
      r'.recv.frag first = (r.recv.frag first).drop n := by
  have hnot : ¬(0 < n ∧ n = (r.recv.frag first).len.toNat) := fun h => hlt.ne h.2
  have hlist := h.list
  rw [if_neg hnot] at hlist
  exact ⟨hlist, h.front hnot⟩

/-- The counters after a read of `m` bytes. -/
theorem advance (h : r.Reading first rest r' n) (hle : n + m.toNat ≤ (r.recv.frag first).len.toNat) :
    (r'.advance m).recv.buff.headSeq = r.recv.buff.headSeq + BitVec.ofNat 32 (n + m.toNat) ∧
      (r'.advance m).mergedLen.toNat = (r.recv.frag first).len.toNat - (n + m.toNat) := by
  have hmerged := h.mergedLen
  constructor
  · change r'.recv.buff.headSeq + m.setWidth 32 = _
    rw [h.headSeq, BitVec.add_assoc, BitVec.ofNat_add]
    rfl
  · change (r'.mergedLen - m.setWidth 32).toNat = _
    bv_omega

/-- The list after a read that leaves something of the first fragment. -/
theorem cut (h : r.Reading first rest r' n) (hlt : n + m.toNat < (r.recv.frag first).len.toNat) :
    r.Reading first rest
      { r'.advance m with
        recv := (r'.advance m).recv.setFrag first ((r'.recv.frag first).drop m.toNat) }
      (n + m.toNat) := by
  obtain ⟨hlist, hfront⟩ := h.front_of_lt (Nat.lt_of_le_of_lt (Nat.le_add_right _ _) hlt)
  obtain ⟨hheadSeq, hmergedLen⟩ := h.advance (m := m) hlt.le
  have hmem : first ∉ rest := (List.nodup_cons.mp hlist.nodup).1
  have hnext : RecvState.next ((r'.advance m).recv.setFrag first ((r'.recv.frag first).drop m.toNat)) =
      r'.recv.next := by
    rw [RecvState.next_setFrag]
    exact Function.update_eq_self first _
  refine ⟨⟨hlt.le, hheadSeq, ?_, fun _ => ?_, fun a ha => ?_⟩, h.cumLen, hmergedLen⟩
  · rw [if_neg fun h => hlt.ne h.2]
    change Seg (RecvState.next ((r'.advance m).recv.setFrag first _)) r'.recv.buff.fctx _ _
    rw [hnext]
    exact hlist
  · refine (Function.update_self _ _ _).trans ?_
    rw [hfront, Fragment.drop_drop]
  · exact (Function.update_of_ne (ne_of_mem_of_not_mem ha hmem) _ _).trans (h.behind a ha)

/-- The list after a read up to the end of the first fragment. -/
theorem unlink (h : r.Reading first rest r' n) (hm : 0 < m.toNat)
    (heq : n + m.toNat = (r.recv.frag first).len.toNat) :
    r.Reading first rest
      { r'.advance m with recv := (r'.advance m).recv.setFctx (r'.recv.frag first).next }
      (n + m.toNat) := by
  obtain ⟨hlist, -⟩ := h.front_of_lt (by omega)
  obtain ⟨hheadSeq, hmergedLen⟩ := h.advance (m := m) heq.le
  have hall : 0 < n + m.toNat ∧ n + m.toNat = (r.recv.frag first).len.toNat := ⟨by omega, heq⟩
  refine ⟨⟨heq.le, hheadSeq, ?_, fun hnot => absurd hall hnot, h.behind⟩, h.cumLen, hmergedLen⟩
  rw [if_pos hall]
  exact hlist.2

/-- **A call that stays inside the first fragment.** -/
theorem recvRemove_of_le (h : r.Reading first rest r' n)
    (hle : n + (r'.removeLen len).toNat ≤ (r.recv.frag first).len.toNat) :
    ∃ r'', CmtTcp.recvRemove r' len = .ok (r'', r'.removeLen len) ∧
      r.Reading first rest r'' (n + (r'.removeLen len).toNat) := by
  by_cases hzero : r'.removeLen len = 0
  · rw [hzero]
    exact ⟨r', recvRemove_zero hzero, h⟩
  · have hpos : 0 < (r'.removeLen len).toNat :=
      Nat.pos_of_ne_zero fun hm => hzero (BitVec.eq_of_toNat_eq hm)
    obtain ⟨hlist, hfront⟩ := h.front_of_lt (by omega)
    have hlen : ((r'.recv.frag first).len.setWidth 64 : U64).toNat = (r.recv.frag first).len.toNat - n := by
      rw [BitVec.toNat_setWidth_of_le (by decide), hfront, Fragment.toNat_drop_len _ h.le]
    rw [recvRemove_eq hzero hlist.1]
    by_cases hall : r'.removeLen len = (r'.recv.frag first).len.setWidth 64
    · have heq : (r'.removeLen len).toNat = (r.recv.frag first).len.toNat - n :=
        (congrArg BitVec.toNat hall).trans hlen
      rw [if_pos hall]
      exact ⟨_, rfl, h.unlink hpos (by omega)⟩
    · have hne : (r'.removeLen len).toNat ≠ (r.recv.frag first).len.toNat - n := fun heq =>
        hall (BitVec.eq_of_toNat_eq (heq.trans hlen.symm))
      have hlt : r'.removeLen len < (r'.recv.frag first).len.setWidth 64 := BitVec.lt_def.mpr (by omega)
      rw [if_neg hall, if_pos hlt]
      exact ⟨_, rfl, h.cut (by omega)⟩

end Reading

end Received

end Call

/-! ### Sequences of calls -/

section Sequences

variable {Q : Type} {enq : Q → Addr → Q} {r : Received} {b b' : ReadBuffer Q} {first : Addr}
  {rest : List Addr} {len m : U64} {option : RemoveOption} {h h' : ReadHist Q} {c : U64 × RemoveOption}
  {cs : List (U64 × RemoveOption)}

@[simp] theorem ReadBuffer.enqueue_toReceived (b : ReadBuffer Q) (option : RemoveOption) (a : Addr) :
    (b.enqueue enq option a).toReceived = b.toReceived := by
  cases option <;> rfl

/-- The queues have no part in what becomes of the buffer. -/
theorem ReadBuffer.recvRemove_map (b : ReadBuffer Q) (len : U64) (option : RemoveOption) :
    (b.recvRemove enq len option).map (fun r => (r.1.toReceived, r.2)) =
      CmtTcp.recvRemove b.toReceived len := by
  unfold ReadBuffer.recvRemove
  cases CmtTcp.recvRemove b.toReceived len with
  | error e => rfl
  | ok r =>
    dsimp only [bind, Except.bind]
    split
    · rfl
    · split
      · exact congrArg (fun s => Except.ok (s, r.2)) (ReadBuffer.enqueue_toReceived _ _ _)
      · rfl

theorem ReadHist.exec_eq_ok (heq : h.exec enq c = .ok h') :
    ∃ m, recvRemove h.b.toReceived c.1 = .ok (h'.b.toReceived, m) ∧ h'.removed = h.removed + m.toNat := by
  have hmap := @ReadBuffer.recvRemove_map Q enq h.b c.1 c.2
  unfold ReadHist.exec at heq
  cases hr : h.b.recvRemove enq c.1 c.2 with
  | error e =>
    rw [hr] at heq
    cases heq
  | ok r =>
    rw [hr] at heq hmap
    obtain rfl := Except.ok.inj heq
    exact ⟨r.2, hmap.symm, rfl⟩

theorem ReadHist.exec_of_recvRemove {r' : Received}
    (heq : recvRemove h.b.toReceived c.1 = .ok (r', m)) :
    ∃ h', h.exec enq c = .ok h' ∧ h'.b.toReceived = r' ∧ h'.removed = h.removed + m.toNat := by
  have hmap := @ReadBuffer.recvRemove_map Q enq h.b c.1 c.2
  rw [heq] at hmap
  unfold ReadHist.exec
  cases hr : h.b.recvRemove enq c.1 c.2 with
  | error e =>
    rw [hr] at hmap
    cases hmap
  | ok s =>
    rw [hr] at hmap
    obtain ⟨rfl, rfl⟩ := Prod.mk.inj (Except.ok.inj hmap)
    exact ⟨_, rfl, rfl, rfl⟩

theorem readsContiguous_cons (h0 : r.Consumed first rest h.b.toReceived h.removed) :
    r.ReadsContiguous first rest enq h (c :: cs) ↔
      ∃ h', h.exec enq c = .ok h' ∧ r.ReadsContiguous first rest enq h' cs := by
  constructor
  · intro hall
    cases hc : h.exec enq c with
    | error e =>
      obtain ⟨h', hh', -⟩ := hall [c] ⟨cs, rfl⟩
      rw [List.foldlM_cons, hc] at hh'
      cases hh'
    | ok h₁ =>
      refine ⟨h₁, rfl, fun pre hpre => ?_⟩
      obtain ⟨h', hh', hcons⟩ := hall (c :: pre) ((List.prefix_cons_inj c).mpr hpre)
      rw [List.foldlM_cons, hc] at hh'
      exact ⟨h', hh', hcons⟩
  · rintro ⟨h₁, hc, hall⟩ pre hpre
    rcases List.prefix_cons_iff.mp hpre with rfl | ⟨pre', rfl, hpre'⟩
    · exact ⟨h, rfl, h0⟩
    · obtain ⟨h', hh', hcons⟩ := hall pre' hpre'
      refine ⟨h', ?_, hcons⟩
      rw [List.foldlM_cons, hc]
      exact hh'

/-- One call of a sequence: it stays inside the first fragment, and the rest of the sequence goes on from
there. -/
theorem readsContiguous_cons_iff (hread : r.Reading first rest h.b.toReceived h.removed) :
    r.ReadsContiguous first rest enq h (c :: cs) ↔
      h.removed + (h.b.toReceived.removeLen c.1).toNat ≤ (r.recv.frag first).len.toNat ∧
        ∃ h', h.exec enq c = .ok h' ∧ r.Reading first rest h'.b.toReceived h'.removed ∧
          h'.removed = h.removed + (h.b.toReceived.removeLen c.1).toNat ∧
          r.ReadsContiguous first rest enq h' cs := by
  rw [readsContiguous_cons hread.toConsumed]
  constructor
  · rintro ⟨h', hexec, hall⟩
    obtain ⟨m, hm, hremoved⟩ := ReadHist.exec_eq_ok hexec
    obtain rfl := Received.recvRemove_snd hm
    -- what has been removed by then is in the first fragment
    obtain ⟨h'', hh'', hcons⟩ := hall [] List.nil_prefix
    obtain rfl := Except.ok.inj hh''
    have hle := hcons.le
    rw [hremoved] at hle
    obtain ⟨r'', hr, hreading⟩ := hread.recvRemove_of_le hle
    obtain ⟨hb, -⟩ := Prod.mk.inj (Except.ok.inj (hr.symm.trans hm))
    rw [hb, ← hremoved] at hreading
    exact ⟨hle, h', hexec, hreading, hremoved, hall⟩
  · rintro ⟨-, h', hexec, -, -, hall⟩
    exact ⟨h', hexec, hall⟩

/-- A call that stays inside the first fragment returns. -/
theorem ReadHist.exec_of_le (hread : r.Reading first rest h.b.toReceived h.removed)
    (hle : h.removed + (h.b.toReceived.removeLen c.1).toNat ≤ (r.recv.frag first).len.toNat) :
    ∃ h', h.exec enq c = .ok h' ∧ r.Reading first rest h'.b.toReceived h'.removed ∧
      h'.removed = h.removed + (h.b.toReceived.removeLen c.1).toNat := by
  obtain ⟨r'', hr, hreading⟩ := hread.recvRemove_of_le hle
  obtain ⟨h', hexec, hb, hremoved⟩ := @ReadHist.exec_of_recvRemove Q enq _ h c _ hr
  rw [← hb, ← hremoved] at hreading
  exact ⟨h', hexec, hreading, hremoved⟩

theorem readsContiguous_iff (hread : r.Reading first rest h.b.toReceived h.removed)
    (cs : List (U64 × RemoveOption)) :
    r.ReadsContiguous first rest enq h cs ↔
      ReadsFit (r.recv.frag first).len ((r.recv.frag first).len.toNat - h.removed) (cs.map Prod.fst) := by
  -- the calls are taken from the front; what is left of the fragment goes down with them
  induction cs generalizing h with
  | nil =>
    refine iff_of_true (fun pre hpre => ?_) trivial
    rw [List.prefix_nil.mp hpre]
    exact ⟨_, rfl, hread.toConsumed⟩
  | cons c cs ih =>
    have hle := hread.le
    have hstep (m : U64) (hm : h.b.toReceived.removeLen c.1 = m) :
        r.ReadsContiguous first rest enq h (c :: cs) ↔
          h.removed + m.toNat ≤ (r.recv.frag first).len.toNat ∧
            ReadsFit (r.recv.frag first).len ((r.recv.frag first).len.toNat - (h.removed + m.toNat))
              (cs.map Prod.fst) := by
      subst hm
      rw [readsContiguous_cons_iff hread]
      refine and_congr_right fun hle' => ?_
      constructor
      · rintro ⟨h', -, hread', hremoved, hall⟩
        rw [← hremoved]
        exact (ih hread').mp hall
      · intro hfit
        obtain ⟨h', hexec, hread', hremoved⟩ := ReadHist.exec_of_le hread hle'
        rw [← hremoved] at hfit
        exact ⟨h', hexec, hread', hremoved, (ih hread').mpr hfit⟩
    rw [List.map_cons]
    unfold ReadsFit
    rw [← hread.cumLen]
    by_cases hbig : h.b.recv.buff.cumLen < (c.1.setWidth 32).signExtend 64
    · -- the request is more than `cum_len`, and becomes what is left
      rw [if_pos hbig, hstep (h.b.mergedLen.setWidth 64) (if_pos hbig),
        BitVec.toNat_setWidth_of_le (by decide), hread.mergedLen, Nat.add_sub_cancel' hle, Nat.sub_self]
      exact and_iff_right le_rfl
    · -- the request stays as it is, and may be more than what is left
      rw [if_neg hbig, hstep c.1 (if_neg hbig), Nat.sub_sub]
      refine and_congr_left fun _ => ?_
      omega

/-- **Reading consumes only contiguous data.** Every call of a sequence does so exactly when no request is
more than what is left of the first fragment without being more, as an `int`, than the fragment was in the
beginning. The order of the fragments behind the first one plays no part. -/
theorem recvRemove_contiguous_iff (enq : Q → Addr → Q) (b : ReadBuffer Q) (first : Addr) (rest : List Addr)
    (h : b.Starts first rest) (cs : List (U64 × RemoveOption)) :
    b.ReadsContiguous first rest enq ⟨b, 0⟩ cs ↔
      ReadsFit (b.recv.frag first).len (b.recv.frag first).len.toNat (cs.map Prod.fst) :=
  readsContiguous_iff (h := ⟨b, 0⟩) h.reading cs

/-- Ten bytes from 100 on, and behind a gap five bytes from 120 on. -/
def gapBuffer : ReadBuffer (List Addr) where
  recv :=
    { buff :=
        { cumLen := 10, lastLen := 25, chunkSize := 1000, headSeq := 100, initSeq := 0, fctx := some 1 }
      frag := fun a =>
        if a = 1 then { next := some 2, seq := 100, len := 10, dataList := none }
        else { next := none, seq := 120, len := 5, dataList := none }
      dptr := fun _ => { seq := 0, len := 0, data := 0, next := none } }
  mergedLen := 10
  freeFragq := []
  freeFragqInt := []

theorem gapBuffer_starts : gapBuffer.Starts 1 [2] := ⟨⟨rfl, rfl, rfl⟩, rfl, rfl⟩

/-- Four bytes, all that is left, and nothing more. -/
theorem recvRemove_contiguous_rest :
    gapBuffer.ReadsContiguous 1 [2] (fun q a => q ++ [a]) ⟨gapBuffer, 0⟩
      [(4, .atApp), (100, .atApp), (0, .atMtcp)] :=
  (recvRemove_contiguous_iff (fun q a => q ++ [a]) gapBuffer 1 [2] gapBuffer_starts _).mpr
    ⟨by decide, ⟨by decide, trivial⟩⟩

/-- When the first fragment has been read, the next call takes the bytes behind the gap, and the one after
it goes through `NULL`. A second call for more than is left fails its assertion. -/
theorem recvRemove_past_gap :
    gapBuffer.Starts 1 [2] ∧ FragList gapBuffer.recv [1, 2] ∧
      (gapBuffer.recv.frag 1).seq = gapBuffer.recv.buff.headSeq ∧
      ¬gapBuffer.ReadsContiguous 1 [2] (fun q a => q ++ [a]) ⟨gapBuffer, 0⟩ [(10, .atApp), (5, .atApp)] ∧
      (∃ h, [(10, .atApp), (5, .atApp)].foldlM (ReadHist.exec fun q a => q ++ [a]) ⟨gapBuffer, 0⟩ = .ok h ∧
        h.removed = 15 ∧ h.b.freeFragq = [1, 2] ∧
        h.b.recvRemove (fun q a => q ++ [a]) 1 .atApp = .error .nullDeref) ∧
      [(6, .atApp), (6, .atApp)].foldlM (ReadHist.exec fun q a => q ++ [a]) ⟨gapBuffer, 0⟩ =
        .error .assertion := by
  have hrun : ∃ h,
      [(10, .atApp), (5, .atApp)].foldlM (ReadHist.exec fun q a => q ++ [a]) ⟨gapBuffer, 0⟩ = .ok h ∧
        h.removed = 15 ∧ h.b.freeFragq = [1, 2] ∧
        h.b.recvRemove (fun q a => q ++ [a]) 1 .atApp = .error .nullDeref := ⟨_, rfl, rfl, rfl, rfl⟩
  refine ⟨gapBuffer_starts, ⟨⟨rfl, rfl, rfl⟩, ?_, ?_⟩, rfl, fun hall => ?_, hrun, rfl⟩
  · exact ⟨by decide, by decide⟩
  · unfold Fragment.InHalf
    decide
  · obtain ⟨h, hh, hremoved, -⟩ := hrun
    obtain ⟨h', hh', hcons⟩ := hall _ (List.prefix_refl _)
    obtain rfl := Except.ok.inj (hh.symm.trans hh')
    have hle := hcons.le
    rw [hremoved] at hle
    exact absurd hle (by decide)

end Sequences

end CmtTcp
