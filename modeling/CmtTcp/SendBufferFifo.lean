import CmtTcp.SendBuffer
import CmtTcp.Lib.BoundedFifo
import CmtTcp.Lib.Run

/-!
# The send buffer is a bounded byte FIFO

`SbLaw` ties a send buffer to a `Lib.BoundedFifo` of bytes, the store that keeps its whole history:
the live bytes are the contents of the store, `head_seq` counts what was removed and `cum_len` what
was accepted. `SBPut` and `SBRemove` keep the law (`SbLaw.exec`), so it holds after every sequence of
calls (`sendBuffer_fifo`).

`cum_len` is a 64-bit counter. It equals the number of accepted bytes modulo `2^64` and no better:
`cumLen_wraps` is a run that accepts `2^64` bytes through a one-byte buffer and ends with
`cum_len = 0`.
-/

open Lib (BoundedFifo)

namespace CmtTcp

/-- A call on a send buffer. -/
inductive SbOp where
  | put (data : ByteSpan)
  | remove (len : U64)

/-- The call on the buffer; `none` is an access outside `data`. -/
def SbOp.exec (buf : SendBuffer) : SbOp → Option SendBuffer
  | .put data => (sbPut buf data).map Prod.fst
  | .remove len => some (sbRemove buf len).1

/-- The call on the store the buffer is meant to be. -/
def SbOp.spec {cap : ℕ} (q : BoundedFifo U8 cap) : SbOp → BoundedFifo U8 cap
  | .put data => q.put data.bytes
  | .remove len => q.remove len.toNat

/-- How many bytes a call asks to move, and how many it can move. -/
def SbOp.request (buf : SendBuffer) : SbOp → ℕ × ℕ
  | .put data => (data.bytes.length, buf.size.toNat - buf.len.toNat)
  | .remove len => (len.toNat, buf.len.toNat)

/-- The buffer and the returned value of a call. -/
def SbOp.call (buf : SendBuffer) : SbOp → Option (SendBuffer × U64)
  | .put data => sbPut buf data
  | .remove len => some (sbRemove buf len)

/-- A send buffer against the history of the store it stands for. -/
structure SbLaw (initSeq : U32) {cap : ℕ} (buf : SendBuffer) (q : BoundedFifo U8 cap) : Prop where
  wellFormed : buf.WellFormed
  cap_eq : cap = buf.size.toNat
  /-- The bytes `data[head_off .. head_off + len)` are the accepted bytes less the removed ones. -/
  live_eq : buf.live = q.contents
  cumLen_eq : buf.cumLen = BitVec.ofNat 64 q.accepted.length
  headSeq_eq : buf.headSeq = initSeq + BitVec.ofNat 32 q.removed
  initSeq_eq : buf.initSeq = initSeq

/-- What one call does: it moves as many bytes as it was asked for and can, says so, and does
nothing at all when that is none. -/
structure SbOp.CallLaw (buf : SendBuffer) (op : SbOp) : Prop where
  returns : ∃ buf' ret, op.call buf = some (buf', ret) ∧
    (buf'.len.toNat =
      match op with
      | .put _ => buf.len.toNat + min (op.request buf).1 (op.request buf).2
      | .remove _ => buf.len.toNat - min (op.request buf).1 (op.request buf).2) ∧
    (min (op.request buf).1 (op.request buf).2 = 0 → buf' = buf) ∧
    ret = if (op.request buf).1 = 0 then 0
      else if min (op.request buf).1 (op.request buf).2 = 0 then -2
      else BitVec.ofNat 64 (min (op.request buf).1 (op.request buf).2)

section Law

variable {initSeq : U32} {cap : ℕ} {buf : SendBuffer} {q : BoundedFifo U8 cap}

theorem SbLaw.len_eq (h : SbLaw initSeq buf q) : buf.len.toNat = q.contents.length := by
  rw [← h.live_eq, h.wellFormed.length_live]

theorem SbLaw.room_eq (h : SbLaw initSeq buf q) :
    q.room = buf.size.toNat - buf.len.toNat := by
  rw [BoundedFifo.room, ← h.len_eq, h.cap_eq]

/-- The end of the live bytes, in sequence numbers and in bytes accepted. -/
theorem SbLaw.headSeq_add_len (h : SbLaw initSeq buf q) :
    buf.headSeq + buf.len = initSeq + buf.cumLen.setWidth 32 := by
  have h1 : buf.len = BitVec.ofNat 32 q.contents.length := by rw [← h.len_eq]; simp
  have h2 : buf.cumLen.setWidth 32 = BitVec.ofNat 32 q.accepted.length := by
    rw [h.cumLen_eq, BitVec.setWidth_ofNat_of_le (by omega)]
  -- both sides count the bytes accepted, modulo `2^32`
  rw [h.headSeq_eq, h1, h2, q.accepted_length, BitVec.ofNat_add, BitVec.add_assoc]

/-- Every call keeps the law. -/
theorem SbLaw.exec (h : SbLaw initSeq buf q) (op : SbOp) :
    ∃ buf', op.exec buf = some buf' ∧ SbLaw initSeq buf' (op.spec q) := by
  cases op with
  | put data =>
    obtain ⟨buf', ret, hput, hwf, hlive, -, hcum, hseq, hinit, hsize, -⟩ :=
      sbPut_spec h.wellFormed data
    -- the store takes `room` bytes, the buffer `MIN(len, size - len)`
    have htake : data.bytes.take (min data.bytes.length (buf.size.toNat - buf.len.toNat)) =
        data.bytes.take q.room := by
      rw [h.room_eq, ← List.take_take, List.take_of_length_le (l := data.bytes.take _)]
      rw [List.length_take]
      omega
    refine ⟨buf', by rw [SbOp.exec, hput]; rfl, hwf, by rw [h.cap_eq, hsize], ?_, ?_, ?_, ?_⟩
    · rw [hlive, htake, h.live_eq, SbOp.spec, BoundedFifo.contents_put]
    · rw [hcum, h.cumLen_eq, ← BitVec.ofNat_add, SbOp.spec, BoundedFifo.accepted_put,
        List.length_append, List.length_take, h.room_eq, min_comm]
    · rw [hseq, h.headSeq_eq, SbOp.spec, BoundedFifo.removed_put]
    · rw [hinit, h.initSeq_eq]
  | remove len =>
    obtain ⟨hwf, hlive, -, hseq, hcum, hinit, hsize, -⟩ := sbRemove_spec h.wellFormed len
    refine ⟨_, rfl, hwf, by rw [h.cap_eq, hsize], ?_, ?_, ?_, ?_⟩
    · rw [hlive, h.live_eq, h.len_eq, SbOp.spec, BoundedFifo.contents_remove]
    · rw [hcum, h.cumLen_eq, SbOp.spec, BoundedFifo.accepted_remove]
    · rw [hseq, h.headSeq_eq, h.len_eq, SbOp.spec, BoundedFifo.removed_remove, BitVec.add_assoc,
        ← BitVec.ofNat_add]
    · rw [hinit, h.initSeq_eq]

/-- What one call moves and returns, in any state the law allows. -/
theorem SbLaw.callLaw (h : SbLaw initSeq buf q) (op : SbOp) : op.CallLaw buf := by
  cases op with
  | put data =>
    obtain ⟨buf', ret, hput, -, -, hlen, -, -, -, -, hsame, hret⟩ := sbPut_spec h.wellFormed data
    exact ⟨buf', ret, hput, hlen, hsame, hret⟩
  | remove len =>
    obtain ⟨-, -, hlen, -, -, -, -, hsame, hret⟩ := sbRemove_spec h.wellFormed len
    exact ⟨_, _, rfl, hlen, hsame, hret⟩

end Law

/-- The buffer and its store go through every sequence of calls in step. -/
theorem SbLaw.run {initSeq : U32} {cap : ℕ} {buf : SendBuffer} {q : BoundedFifo U8 cap}
    (h : SbLaw initSeq buf q) (ops : List SbOp) :
    ∃ buf', ops.foldlM SbOp.exec buf = some buf' ∧
      SbLaw initSeq buf' (ops.foldl SbOp.spec q) :=
  Lib.foldlM_simulates (SbLaw initSeq) (fun _ _ op h => h.exec op) h ops

theorem SbLaw.initial (sbm : SbManager) (obj : SendBuffer) {sbm' : SbManager} {buf : SendBuffer}
    {initSeq : U32}
    (hobj : obj.data.length = (sbm.chunkSize.setWidth 32).toNat)
    (hinit : sbInit sbm (some obj) initSeq = (sbm', some buf)) :
    SbLaw initSeq buf (BoundedFifo.empty : BoundedFifo U8 buf.size.toNat) := by
  have hwf := sbInit_wellFormed hobj hinit
  simp only [sbInit, Prod.mk.injEq, Option.some.injEq] at hinit
  obtain ⟨-, rfl⟩ := hinit
  exact ⟨hwf, rfl, by simp [SendBuffer.live], rfl, by simp [BoundedFifo.empty], rfl⟩

/-- **The send buffer is a bounded byte FIFO.** After `SBInit` and any sequence of calls, none of
which leaves `data`: the offsets agree with each other, the live bytes are the accepted bytes less
the removed ones, `cum_len` is the number of accepted bytes modulo `2^64`, the sequence numbers
count what was removed and accepted, and the next call, whatever it is, moves as many bytes as it is
asked for and can. -/
theorem sendBuffer_fifo (sbm sbm' : SbManager) (obj buf : SendBuffer) (initSeq : U32)
    (hobj : obj.data.length = (sbm.chunkSize.setWidth 32).toNat)
    (hinit : sbInit sbm (some obj) initSeq = (sbm', some buf)) (ops : List SbOp) :
    ∃ (buf' : SendBuffer) (q : BoundedFifo U8 buf.size.toNat),
      ops.foldlM SbOp.exec buf = some buf' ∧ q = ops.foldl SbOp.spec .empty ∧
      (buf'.headOff.toNat + buf'.len.toNat = buf'.tailOff.toNat ∧
        buf'.tailOff.toNat ≤ buf'.size.toNat ∧ buf'.len.toNat ≤ buf'.size.toNat) ∧
      Lib.window buf'.data buf'.headOff.toNat buf'.len.toNat = q.accepted.drop q.removed ∧
      (buf'.cumLen.toNat = q.accepted.length % 2 ^ 64 ∧
        buf'.headSeq = initSeq + BitVec.ofNat 32 q.removed ∧
        buf'.headSeq + buf'.len = initSeq + buf'.cumLen.setWidth 32) ∧
      ∀ op : SbOp, op.CallLaw buf' := by
  obtain ⟨buf', hbuf', hlaw⟩ := (SbLaw.initial sbm obj hobj hinit).run ops
  refine ⟨buf', _, hbuf', rfl, ⟨hlaw.wellFormed.tail_eq, hlaw.wellFormed.tail_le,
    hlaw.wellFormed.len_le⟩, hlaw.live_eq, ⟨?_, hlaw.headSeq_eq, hlaw.headSeq_add_len⟩,
    hlaw.callLaw⟩
  rw [hlaw.cumLen_eq, BitVec.toNat_ofNat]

/-! ### A run that wraps `cum_len` -/

/-- The manager of one-byte buffers. -/
def oneByteManager : SbManager := { chunkSize := 1, curNum := 0 }

/-- The one-byte buffer `SBInit` hands out for sequence number `0`. -/
def oneByteBuffer : SendBuffer where
  data := [0]
  head := 0
  headOff := 0
  tailOff := 0
  len := 0
  cumLen := 0
  size := 1
  headSeq := 0
  initSeq := 0

/-- Two bytes offered to a one-byte buffer, and one taken out again. -/
theorem sendBuffer_fifo_oneByte :
    ∃ (buf' : SendBuffer) (q : BoundedFifo U8 1),
      [SbOp.put ⟨[7, 8], by decide⟩, SbOp.remove 1].foldlM SbOp.exec oneByteBuffer = some buf' ∧
        q.accepted = [7] ∧ q.removed = 1 ∧ buf'.headSeq = 1 ∧ buf'.cumLen.toNat = 1 := by
  obtain ⟨buf', q, hrun, hq, -, -, ⟨hcum, hseq, -⟩, -⟩ :=
    sendBuffer_fifo oneByteManager _ oneByteBuffer oneByteBuffer 0 rfl rfl
      [SbOp.put ⟨[7, 8], by decide⟩, SbOp.remove 1]
  have hacc : q.accepted = [7] := by rw [hq]; rfl
  have hrem : q.removed = 1 := by rw [hq]; rfl
  exact ⟨buf', q, hrun, hacc, hrem, by rw [hseq, hrem]; rfl, by rw [hcum, hacc]; rfl⟩

/-- `n` rounds of storing a byte and removing it. -/
def pingPong : ℕ → List SbOp
  | 0 => []
  | n + 1 => .put ⟨[0], by decide⟩ :: .remove 1 :: pingPong n

/-- Every round accepts one byte and leaves the store empty. -/
theorem pingPong_spec (n : ℕ) (q : BoundedFifo U8 1) (h : q.contents = []) :
    ((pingPong n).foldl SbOp.spec q).accepted.length = q.accepted.length + n := by
  induction n generalizing q with
  | zero => rfl
  | succ n ih =>
    have hroom : q.room = 1 := by rw [BoundedFifo.room, h]; rfl
    have hput : (q.put [0]).contents = [0] := by simp [h, hroom]
    -- one round leaves the store as empty as it found it
    have hround := ih ((q.put [0]).remove 1) (by rw [BoundedFifo.contents_remove, hput]; rfl)
    rw [BoundedFifo.accepted_remove, BoundedFifo.accepted_put, hroom, List.length_append] at hround
    calc ((pingPong (n + 1)).foldl SbOp.spec q).accepted.length
        = ((pingPong n).foldl SbOp.spec ((q.put [0]).remove 1)).accepted.length := rfl
      _ = q.accepted.length + [(0 : U8)].length + n := hround
      _ = q.accepted.length + (n + 1) := by rw [List.length_singleton]; omega

/-- `n` rounds on a one-byte buffer accept `n` bytes; `cum_len` counts them modulo `2^64`. -/
theorem pingPong_run (n : ℕ) :
    ∃ buf', (pingPong n).foldlM SbOp.exec oneByteBuffer = some buf' ∧
      ((pingPong n).foldl SbOp.spec
        (BoundedFifo.empty : BoundedFifo U8 1)).accepted.length = n ∧
      buf'.cumLen.toNat = n % 2 ^ 64 := by
  have hlaw : SbLaw 0 oneByteBuffer (BoundedFifo.empty : BoundedFifo U8 1) :=
    SbLaw.initial oneByteManager oneByteBuffer rfl rfl
  obtain ⟨buf', hrun, hlaw'⟩ := hlaw.run (pingPong n)
  have hlen := pingPong_spec n BoundedFifo.empty rfl
  rw [show (BoundedFifo.empty : BoundedFifo U8 1).accepted.length = 0 from rfl, Nat.zero_add] at hlen
  refine ⟨buf', hrun, hlen, ?_⟩
  rw [hlaw'.cumLen_eq, BitVec.toNat_ofNat, hlen]

/-- `2^64` bytes through a one-byte buffer leave `cum_len` at `0`. -/
theorem cumLen_wraps :
    sbInit oneByteManager (some oneByteBuffer) 0 =
        ({ oneByteManager with curNum := 1 }, some oneByteBuffer) ∧
      ∃ buf', (pingPong (2 ^ 64)).foldlM SbOp.exec oneByteBuffer = some buf' ∧
        ((pingPong (2 ^ 64)).foldl SbOp.spec
          (BoundedFifo.empty : BoundedFifo U8 1)).accepted.length = 2 ^ 64 ∧
        buf'.cumLen.toNat ≠ ((pingPong (2 ^ 64)).foldl SbOp.spec
          (BoundedFifo.empty : BoundedFifo U8 1)).accepted.length := by
  obtain ⟨buf', hrun, hlen, hcum⟩ := pingPong_run (2 ^ 64)
  refine ⟨rfl, buf', hrun, hlen, ?_⟩
  rw [hcum, hlen, Nat.mod_self]
  exact Nat.ne_of_lt (Nat.two_pow_pos 64)

end CmtTcp
