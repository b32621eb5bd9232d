import CmtTcp.Basic
import CmtTcp.Lib.ListSeg
import CmtTcp.Lib.Gapped

/-!
# The receive buffer

`cmt_recv_buffer_t` of `tcp_buffer.h` with `CanMerge`, `swap_fragment`, `merge_fragments` and `recv_put` of
`tcp_buffer.c`, over a heap of fragments and data pointers. What an object holds when a pool hands
it out is left open: `recv_put` sets every field of a fragment, and of a data pointer every field
but `next`.

A call that merges nothing puts its fragment into the list at its place (`FragList.recvStore`, in the module
on reassembly).
-/

namespace CmtTcp

open Lib (Seg Gapped Covers IsRun)

/-- `cmt_data_ptr_t` -/
structure DataPtr where
  seq : U32
  len : U32
  data : Addr
  next : Option Addr
deriving DecidableEq, Repr

/-- `cmt_fragment_t` -/
structure Fragment where
  next : Option Addr
  seq : U32
  len : U32
  dataList : Option Addr
deriving DecidableEq, Repr

/-- `cmt_recv_buffer_t`; `last_len` and `chunk_size` are `int`s. -/
structure RecvBuffer where
  cumLen : U64
  lastLen : U32
  chunkSize : U32
  headSeq : U32
  initSeq : U32
  fctx : Option Addr
deriving DecidableEq, Repr

/-- A receive buffer and the heap. -/
structure RecvState where
  buff : RecvBuffer
  frag : Addr → Fragment
  dptr : Addr → DataPtr

/-- Ways for `recv_put` not to return. -/
inductive RecvFault where
  | nullDeref
  | assertion
  | outOfFuel
deriving DecidableEq, Repr

namespace RecvState

def setFrag (s : RecvState) (a : Addr) (f : Fragment) : RecvState :=
  { s with frag := Function.update s.frag a f }

def setDptr (s : RecvState) (a : Addr) (d : DataPtr) : RecvState :=
  { s with dptr := Function.update s.dptr a d }

def setFctx (s : RecvState) (p : Option Addr) : RecvState :=
  { s with buff := { s.buff with fctx := p } }

@[simp] theorem setFrag_buff (s : RecvState) (a : Addr) (f : Fragment) :
    (s.setFrag a f).buff = s.buff := rfl

@[simp] theorem setDptr_buff (s : RecvState) (a : Addr) (d : DataPtr) :
    (s.setDptr a d).buff = s.buff := rfl

/-- The link from one fragment to the next. -/
def next (s : RecvState) (a : Addr) : Option Addr := (s.frag a).next

end RecvState

/-! ### Merging -/

/-- `CanMerge` -/
def canMerge (a b : Fragment) : Bool :=
  let aEnd := a.seq + a.len + 1
  let bEnd := b.seq + b.len + 1
  if getMinSeq aEnd b.seq = aEnd ∨ getMinSeq bEnd a.seq = bEnd then false else true

/-- `swap_fragment` -/
def swapFragment (s : RecvState) (a b : Addr) : RecvState :=
  (s.setFrag a (s.frag b)).setFrag b (s.frag a)

/-- The loop of `merge_fragments` along a data list: `data_list_start` and `tmp` at its end. -/
def mergeWalk (dptr : Addr → DataPtr) (nextSeq : U32) :
    ℕ → Addr → Option Addr → Except RecvFault (Addr × Addr)
  | 0, _, _ => .error .outOfFuel
  | _ + 1, _, none => .error .nullDeref
  | fuel + 1, start, some tmp =>
    if (dptr tmp).seq < nextSeq ∧ (dptr tmp).seq + (dptr tmp).len < nextSeq then
      mergeWalk dptr nextSeq fuel tmp (dptr tmp).next
    else .ok (start, tmp)

/-- `merge_fragments` -/
def mergeFragments (fuel : ℕ) (s : RecvState) (a b : Addr) : Except RecvFault RecvState := do
  let s := if (s.frag a).seq < (s.frag b).seq then swapFragment s a b else s
  let nextSeq := (s.frag a).seq
  let dataListEnd := (s.frag a).dataList
  let some dataListStart := (s.frag b).dataList | .error .nullDeref
  let (start, tmp) ← mergeWalk s.dptr nextSeq fuel dataListStart (s.dptr dataListStart).next
  let s ←
    if (s.dptr tmp).seq = nextSeq then
      .ok (s.setDptr start { s.dptr start with next := dataListEnd })
    else
      match dataListEnd with
      | none => .error .nullDeref
      | some e =>
        .ok (s.setDptr tmp
          { s.dptr tmp with len := (s.dptr e).seq - (s.dptr tmp).seq, next := dataListEnd })
  let minSeq := getMinSeq (s.frag a).seq (s.frag b).seq
  let maxSeq := getMaxSeq ((s.frag a).seq + (s.frag a).len) ((s.frag b).seq + (s.frag b).len)
  -- the merged range goes to `start`, which is `a`
  .ok (s.setFrag a { s.frag a with seq := minSeq, len := maxSeq - minSeq })

/-! ### `recv_put` -/

/-- A call of `recv_put`, and what the two pools hand out to it. -/
structure PutCall where
  data : Addr
  len : U32
  curSeq : U32
  dataPtr : Option Addr
  frag : Option Addr
deriving DecidableEq, Repr

/-- The local variables of the loop of `recv_put`. -/
structure PutLoop where
  s : RecvState
  frag : Addr
  iter : Option Addr
  prev : Option Addr
  pprev : Option Addr
  merged : Bool

/-- What the loop does after merging `frag` into `iter`: `frag` leaves the list if it was in it. -/
def putUnlink (st : PutLoop) (s : RecvState) (iter : Addr) : PutLoop :=
  if st.prev = some st.frag then
    match st.pprev with
    | some pp =>
      { st with s := s.setFrag pp { s.frag pp with next := some iter }, prev := st.pprev }
    | none => { st with s := s.setFctx (some iter), prev := st.pprev }
  else { st with s := s }

/-- The loop of `recv_put`, for a segment that ends at `curEnd`. -/
def putLoop (curEnd : U32) : ℕ → PutLoop → Except RecvFault PutLoop
  | 0, _ => .error .outOfFuel
  | fuel + 1, st =>
    match st.iter with
    | none => .ok st
    | some iter =>
      if canMerge (st.s.frag st.frag) (st.s.frag iter) then do
        let s ← mergeFragments fuel st.s st.frag iter
        let st := putUnlink st s iter
        putLoop curEnd fuel
          { st with
            frag := iter
            merged := true
            pprev := st.prev
            prev := some iter
            iter := st.s.next iter }
      else if st.merged ∨ getMaxSeq curEnd (st.s.frag iter).seq = (st.s.frag iter).seq then .ok st
      else
        putLoop curEnd fuel
          { st with pprev := st.prev, prev := some iter, iter := st.s.next iter }

/-- The end of `recv_put` for a fragment that was not merged: it is linked into the list. -/
def putLink (curSeq : U32) (st : PutLoop) : Except RecvFault RecvState :=
  if st.merged then .ok st.s
  else
    match st.s.buff.fctx with
    | none => .ok (st.s.setFctx (some st.frag))
    | some first =>
      if getMinSeq curSeq (st.s.frag first).seq = curSeq then
        .ok ((st.s.setFrag st.frag { st.s.frag st.frag with next := some first }).setFctx
          (some st.frag))
      else
        match st.prev with
        | none => .error .nullDeref
        | some prev =>
          let prevEnd := (st.s.frag prev).seq + (st.s.frag prev).len
          if getMinSeq curSeq prevEnd = prevEnd then
            let s := st.s.setFrag prev { st.s.frag prev with next := some st.frag }
            .ok (s.setFrag st.frag { s.frag st.frag with next := st.iter })
          else .error .assertion

/-- The update of `last_len`. -/
def putLastLen (s : RecvState) (endOff : U32) : RecvState :=
  if s.buff.lastLen.slt endOff then { s with buff := { s.buff with lastLen := endOff } } else s

/-- `recv_put` from the update of `last_len` on. -/
def recvStore (fuel : ℕ) (s : RecvState) (c : PutCall) (frag : Addr) (endOff : U32) :
    Except RecvFault (RecvState × U32) := do
  let s := putLastLen s endOff
  let st ← putLoop (c.curSeq + c.len) fuel
    { s := s, frag := frag, iter := s.buff.fctx, prev := none, pprev := none, merged := false }
  let s ← putLink c.curSeq st
  let some first := s.buff.fctx | .error .nullDeref
  .ok ({ s with buff := { s.buff with cumLen := (s.frag first).len.setWidth 64 } }, c.len)

/-- `end_off` -/
def putEndOff (buff : RecvBuffer) (c : PutCall) : U32 := c.curSeq - buff.headSeq + c.len

/-- `recv_put` -/
def recvPut (fuel : ℕ) (s : RecvState) (c : PutCall) : Except RecvFault (RecvState × U32) :=
  if c.len ≤ 0 then .ok (s, 0)
  else
    match c.dataPtr with
    | none => .ok (s, -1)
    | some dp =>
      let s := s.setDptr dp { s.dptr dp with seq := c.curSeq, len := c.len, data := c.data }
      match c.frag with
      | none => .ok (s, -1)
      | some frag =>
        let s := s.setFrag frag
          { next := none, seq := c.curSeq, len := c.len, dataList := some dp }
        -- data in front of `head_seq` is dropped
        if getMinSeq s.buff.headSeq c.curSeq ≠ s.buff.headSeq then .ok (s, 0)
        else if s.buff.chunkSize.slt (putEndOff s.buff c) then .ok (s, -2)
        else recvStore fuel s c frag (putEndOff s.buff c)

end CmtTcp
