import CmtTcp.Basic
import CmtTcp.Lib.Memory

/-!
# The send buffer

`cmt_send_buffer_t` of `tcp_buffer.h` with `SBInit`, `SBPut` and `SBRemove` of `tcp_buffer.c`. The
pointer `head` is the index it has in `data`; the two copies of `SBPut` go through `Lib.copyIn`,
so a result of `none` is an access outside `data`.
-/

namespace CmtTcp

/-- `cmt_sb_manager_t`, without its object pool. -/
structure SbManager where
  chunkSize : U64
  curNum : U32
deriving DecidableEq, Repr

/-- `cmt_send_buffer_t` -/
structure SendBuffer where
  /-- the bytes `data` points to -/
  data : List U8
  /-- `head - data` -/
  head : ℕ
  headOff : U32
  tailOff : U32
  len : U32
  cumLen : U64
  size : U32
  headSeq : U32
  initSeq : U32
deriving DecidableEq, Repr

/-- The bytes a caller hands over: as many as a `size_t` can count. -/
structure ByteSpan where
  bytes : List U8
  fits : bytes.length < 2 ^ 64

/-- The length of the span as the caller passes it. -/
def ByteSpan.len (d : ByteSpan) : U64 := BitVec.ofNat 64 d.bytes.length

@[simp] theorem ByteSpan.toNat_len (d : ByteSpan) : d.len.toNat = d.bytes.length := by
  rw [ByteSpan.len, BitVec.toNat_ofNat, Nat.mod_eq_of_lt d.fits]

/-- `SBInit`: `obj` is what `cmt_object_get` yields, `NULL` or an object with whatever it holds. -/
def sbInit (sbm : SbManager) (obj : Option SendBuffer) (initSeq : U32) :
    SbManager × Option SendBuffer :=
  match obj with
  | none => (sbm, none)
  | some buf =>
    ({ sbm with curNum := sbm.curNum + 1 },
      some
        { buf with
          head := 0
          headOff := 0
          tailOff := 0
          len := 0
          cumLen := 0
          size := sbm.chunkSize.setWidth 32
          initSeq := initSeq
          headSeq := initSeq })

/-- The bytes `SBPut` moves: `MIN(len, size - len)`. -/
def sbToPut (buf : SendBuffer) (len : U64) : U64 :=
  if len < (buf.size - buf.len).setWidth 64 then len else (buf.size - buf.len).setWidth 64

/-- The copy of `SBPut`: behind the tail when it fits there, else after moving the live bytes to
the front of `data`. -/
def sbCopyIn (buf : SendBuffer) (data : List U8) (toPut : U64) : Option SendBuffer :=
  if buf.tailOff.setWidth 64 + toPut < buf.size.setWidth 64 then do
    let out ← Lib.copyIn buf.data buf.tailOff.toNat data toPut.toNat
    return { buf with data := out, tailOff := buf.tailOff + toPut.setWidth 32 }
  else do
    let moved ← Lib.copyIn buf.data 0 (buf.data.drop buf.head) buf.len.toNat
    let out ← Lib.copyIn moved (0 + buf.len.toNat) data toPut.toNat
    return { buf with
      data := out
      head := 0
      headOff := 0
      tailOff := buf.len + toPut.setWidth 32 }

/-- `SBPut` -/
def sbPut (buf : SendBuffer) (data : ByteSpan) : Option (SendBuffer × U64) :=
  if data.len ≤ 0 then some (buf, 0)
  else
    let toPut := sbToPut buf data.len
    if toPut ≤ 0 then some (buf, -2)
    else do
      let buf ← sbCopyIn buf data.bytes toPut
      return ({ buf with len := buf.len + toPut.setWidth 32, cumLen := buf.cumLen + toPut }, toPut)

/-- The bytes `SBRemove` takes away: `MIN(len, buf->len)`. -/
def sbToRemove (buf : SendBuffer) (len : U64) : U64 :=
  if len < buf.len.setWidth 64 then len else buf.len.setWidth 64

/-- `SBRemove` -/
def sbRemove (buf : SendBuffer) (len : U64) : SendBuffer × U64 :=
  if len ≤ 0 then (buf, 0)
  else
    let toRemove := sbToRemove buf len
    if toRemove ≤ 0 then (buf, -2)
    else
      let headOff := buf.headOff + toRemove.setWidth 32
      let buf :=
        { buf with
          headOff := headOff
          head := headOff.toNat
          headSeq := buf.headSeq + toRemove.setWidth 32
          len := buf.len - toRemove.setWidth 32 }
      -- an empty buffer starts over at the front of `data`
      if buf.len = 0 ∧ buf.headOff > 0 then
        ({ buf with head := 0, headOff := 0, tailOff := 0 }, toRemove)
      else (buf, toRemove)

/-! ### What holds between calls -/

/-- The offsets of a send buffer agree with each other and with `data`. -/
structure SendBuffer.WellFormed (buf : SendBuffer) : Prop where
  data_len : buf.data.length = buf.size.toNat
  head_eq : buf.head = buf.headOff.toNat
  tail_eq : buf.headOff.toNat + buf.len.toNat = buf.tailOff.toNat
  tail_le : buf.tailOff.toNat ≤ buf.size.toNat

/-- The bytes `data[head_off .. head_off + len)`. -/
def SendBuffer.live (buf : SendBuffer) : List U8 :=
  Lib.window buf.data buf.headOff.toNat buf.len.toNat

namespace SendBuffer

variable {buf buf' : SendBuffer}

theorem WellFormed.len_le (h : buf.WellFormed) : buf.len.toNat ≤ buf.size.toNat := by
  have h1 := h.tail_eq
  have h2 := h.tail_le
  omega

theorem WellFormed.length_live (h : buf.WellFormed) : buf.live.length = buf.len.toNat :=
  Lib.length_window (by rw [h.data_len, h.tail_eq]; exact h.tail_le)

end SendBuffer

theorem sbInit_wellFormed {sbm sbm' : SbManager} {obj buf : SendBuffer} {initSeq : U32}
    (hobj : obj.data.length = (sbm.chunkSize.setWidth 32).toNat)
    (h : sbInit sbm (some obj) initSeq = (sbm', some buf)) : buf.WellFormed := by
  simp only [sbInit, Prod.mk.injEq, Option.some.injEq] at h
  obtain ⟨-, rfl⟩ := h
  exact ⟨hobj, rfl, rfl, Nat.zero_le _⟩

/-! ### `SBPut` -/

section Put

variable {buf : SendBuffer}

theorem toNat_sbToPut (h : buf.WellFormed) (len : U64) :
    (sbToPut buf len).toNat = min len.toNat (buf.size.toNat - buf.len.toNat) := by
  have hle := h.len_le
  unfold sbToPut
  -- either branch of the source's `MIN`; `len <= size` keeps the subtraction exact
  split <;> bv_omega

/-- The copy of `SBPut` stays inside `data`, and appends the bytes to the live ones. -/
theorem sbCopyIn_spec (h : buf.WellFormed) (data : List U8) (n : U64)
    (hn : n.toNat ≤ buf.size.toNat - buf.len.toNat) (hd : n.toNat ≤ data.length) :
    ∃ buf', sbCopyIn buf data n = some buf' ∧
      buf' = { buf with data := buf'.data, head := buf'.head, headOff := buf'.headOff,
                        tailOff := buf'.tailOff } ∧
      buf'.data.length = buf.size.toNat ∧ buf'.head = buf'.headOff.toNat ∧
      buf'.headOff.toNat + (buf.len.toNat + n.toNat) = buf'.tailOff.toNat ∧
      buf'.tailOff.toNat ≤ buf.size.toNat ∧
      Lib.window buf'.data buf'.headOff.toNat (buf.len.toNat + n.toNat) =
        buf.live ++ data.take n.toNat := by
  obtain ⟨hdata, hhead, htail, hsize⟩ := h
  unfold sbCopyIn
  split
  · next hfit =>
    -- the bytes fit behind the tail
    have hfit' : buf.tailOff.toNat + n.toNat < buf.size.toNat := by bv_omega
    obtain ⟨out, hout⟩ : ∃ out, Lib.copyIn buf.data buf.tailOff.toNat data n.toNat = some out :=
      ⟨_, Lib.copyIn_of_le (by omega) hd⟩
    refine ⟨{ buf with data := out, tailOff := buf.tailOff + n.setWidth 32 }, by rw [hout]; rfl,
      rfl, ?_, hhead, ?_, ?_, ?_⟩
    · exact (Lib.length_of_copyIn hout).trans hdata
    · change _ = (buf.tailOff + n.setWidth 32).toNat
      bv_omega
    · change (buf.tailOff + n.setWidth 32).toNat ≤ _
      bv_omega
    · exact Lib.window_append_copy (by rwa [htail])
  · -- the live bytes are moved to the front first
    have hlive : buf.head + buf.len.toNat ≤ buf.data.length := by omega
    obtain ⟨moved, hmoved⟩ :
        ∃ moved, Lib.copyIn buf.data 0 (buf.data.drop buf.head) buf.len.toNat = some moved :=
      ⟨_, Lib.copyIn_of_le (by omega) (by rw [List.length_drop]; omega)⟩
    have hmlen := Lib.length_of_copyIn hmoved
    obtain ⟨out, hout⟩ :
        ∃ out, Lib.copyIn moved (0 + buf.len.toNat) data n.toNat = some out :=
      ⟨_, Lib.copyIn_of_le (by omega) hd⟩
    have hwin := Lib.window_append_copy hout
    rw [Lib.window_zero_copy hmoved, hhead] at hwin
    refine ⟨{ buf with
        data := out
        head := 0
        headOff := 0
        tailOff := buf.len + n.setWidth 32 },
      by rw [hmoved]; simp only [Option.bind_eq_bind, Option.bind_some, hout]; rfl, rfl,
      ?_, rfl, ?_, ?_, ?_⟩
    · exact (Lib.length_of_copyIn hout).trans (hmlen.trans hdata)
    · change 0 + _ = (buf.len + n.setWidth 32).toNat
      bv_omega
    · change (buf.len + n.setWidth 32).toNat ≤ _
      bv_omega
    · exact hwin

/-- `SBPut` never leaves `data`. It moves `MIN(len, size - len)` bytes behind the live ones, counts
them, and leaves everything else that is not an offset alone; a call that moves nothing returns
the buffer as it was. -/
theorem sbPut_spec (h : buf.WellFormed) (data : ByteSpan) :
    ∃ buf' ret, sbPut buf data = some (buf', ret) ∧ buf'.WellFormed ∧
      (let n := min data.bytes.length (buf.size.toNat - buf.len.toNat)
       buf'.live = buf.live ++ data.bytes.take n ∧
       buf'.len.toNat = buf.len.toNat + n ∧
       buf'.cumLen = buf.cumLen + BitVec.ofNat 64 n ∧
       buf'.headSeq = buf.headSeq ∧ buf'.initSeq = buf.initSeq ∧ buf'.size = buf.size ∧
       (n = 0 → buf' = buf) ∧
       ret = if data.bytes.length = 0 then 0 else if n = 0 then -2 else BitVec.ofNat 64 n) := by
  have hlen := data.toNat_len
  have hfits := data.fits
  unfold sbPut
  split
  · next h0 =>
    -- `len <= 0` on a `size_t`: nothing was offered
    have h0' : data.bytes.length = 0 := by bv_omega
    refine ⟨buf, 0, rfl, h, ?_⟩
    simp [List.length_eq_zero_iff.mp h0']
  · next hpos =>
    have hpos' : data.bytes.length ≠ 0 := by bv_omega
    have hto := toNat_sbToPut h data.len
    rw [hlen] at hto
    dsimp only
    split
    · next hz =>
      -- the buffer is full
      have hz' : min data.bytes.length (buf.size.toNat - buf.len.toNat) = 0 := by
        rw [← hto]; bv_omega
      refine ⟨buf, -2, rfl, h, ?_⟩
      simp [hz']
    · next hz =>
      have hz' : min data.bytes.length (buf.size.toNat - buf.len.toNat) ≠ 0 := by
        rw [← hto]; bv_omega
      obtain ⟨b, hb, heq, hdl, hho, htail, htle, hwin⟩ :=
        sbCopyIn_spec h data.bytes (sbToPut buf data.len) (by omega) (by omega)
      -- the copy touches the offsets and `data` only
      have hblen : b.len = buf.len := by rw [heq]
      have hbcum : b.cumLen = buf.cumLen := by rw [heq]
      have hbsize : b.size = buf.size := by rw [heq]
      have hlen' : (buf.len + (sbToPut buf data.len).setWidth 32).toNat =
          buf.len.toNat + (sbToPut buf data.len).toNat := by
        have := h.len_le
        bv_omega
      have hofNat : BitVec.ofNat 64 (sbToPut buf data.len).toNat = sbToPut buf data.len :=
        by simp
      refine ⟨_, _, by rw [hb]; rfl, ?_, ?_⟩
      · exact
          { data_len := hdl.trans (by rw [hbsize])
            head_eq := hho
            tail_eq := by
              change b.headOff.toNat + (b.len + _).toNat = _
              rw [hblen, hlen', htail]
            tail_le := htle.trans (by rw [hbsize]) }
      · rw [← hto]
        refine ⟨?_, ?_, ?_, ?_, ?_, hbsize, ?_, ?_⟩
        · change Lib.window b.data b.headOff.toNat (b.len + _).toNat = _
          rw [hblen, hlen', hwin]
        · change (b.len + _).toNat = _
          rw [hblen, hlen']
        · change b.cumLen + _ = _
          rw [hbcum, hofNat]
        · change b.headSeq = _
          rw [heq]
        · change b.initSeq = _
          rw [heq]
        · intro h0
          exact absurd h0 (by rw [hto]; exact hz')
        · rw [if_neg (by rw [hto]; exact hz'), hofNat]

end Put

/-! ### `SBRemove` -/

section Remove

variable {buf : SendBuffer}

theorem toNat_sbToRemove (buf : SendBuffer) (len : U64) :
    (sbToRemove buf len).toNat = min len.toNat buf.len.toNat := by
  unfold sbToRemove
  split <;> bv_omega

/-- `SBRemove` of no more bytes than there are, whatever the offsets are. -/
theorem sbRemove_of_le {len : U64} (hpos : 0 < len.toNat) (hle : len.toNat ≤ buf.len.toNat) :
    (sbRemove buf len).1.headSeq = buf.headSeq + len.setWidth 32 ∧
      (sbRemove buf len).1.len = buf.len - len.setWidth 32 ∧ (sbRemove buf len).2 = len := by
  have hto : sbToRemove buf len = len := by
    have h := toNat_sbToRemove buf len
    rw [Nat.min_eq_left hle] at h
    exact BitVec.eq_of_toNat_eq h
  have hne : ¬len ≤ 0 := by bv_omega
  unfold sbRemove
  rw [if_neg hne]
  dsimp only
  rw [hto, if_neg hne]
  split
  · exact ⟨rfl, rfl, rfl⟩
  · exact ⟨rfl, rfl, rfl⟩

/-- `SBRemove` on an empty buffer. -/
theorem sbRemove_of_empty {len : U64} (hpos : 0 < len.toNat) (hempty : buf.len.toNat = 0) :
    sbRemove buf len = (buf, -2) := by
  have hto := toNat_sbToRemove buf len
  have hz : sbToRemove buf len ≤ 0 := by bv_omega
  have hne : ¬len ≤ 0 := by bv_omega
  unfold sbRemove
  rw [if_neg hne]
  dsimp only
  rw [if_pos hz]

/-- `SBRemove` takes the `MIN(len, buf->len)` oldest bytes away and moves `head_seq` on by as many;
a call that moves nothing returns the buffer as it was. -/
theorem sbRemove_spec (h : buf.WellFormed) (len : U64) :
    (sbRemove buf len).1.WellFormed ∧
      (let n := min len.toNat buf.len.toNat
       let buf' := (sbRemove buf len).1
       buf'.live = buf.live.drop n ∧
       buf'.len.toNat = buf.len.toNat - n ∧
       buf'.headSeq = buf.headSeq + BitVec.ofNat 32 n ∧
       buf'.cumLen = buf.cumLen ∧ buf'.initSeq = buf.initSeq ∧ buf'.size = buf.size ∧
       (n = 0 → buf' = buf) ∧
       (sbRemove buf len).2 =
         if len.toNat = 0 then 0 else if n = 0 then -2 else BitVec.ofNat 64 n) := by
  unfold sbRemove
  split
  · next h0 =>
    have h0' : len.toNat = 0 := by bv_omega
    refine ⟨h, ?_⟩
    simp [h0']
  · next hpos =>
    have hpos' : len.toNat ≠ 0 := by bv_omega
    have hto := toNat_sbToRemove buf len
    obtain ⟨hdata, hhead, htail, hsize⟩ := h
    have hbound := buf.tailOff.isLt
    dsimp only
    rw [← hto]
    split
    · next hz =>
      -- the buffer is empty
      have hz' : (sbToRemove buf len).toNat = 0 := by bv_omega
      refine ⟨⟨hdata, hhead, htail, hsize⟩, ?_⟩
      simp [hz']
    · next hz =>
      have hz' : (sbToRemove buf len).toNat ≠ 0 := by bv_omega
      have hle : (sbToRemove buf len).toNat ≤ buf.len.toNat := by omega
      -- no word overflows: what is removed lies between `head_off` and `tail_off`
      have hoff : (buf.headOff + (sbToRemove buf len).setWidth 32).toNat =
          buf.headOff.toNat + (sbToRemove buf len).toNat := by bv_omega
      have hlen : (buf.len - (sbToRemove buf len).setWidth 32).toNat =
          buf.len.toNat - (sbToRemove buf len).toNat := by bv_omega
      have hseq : (sbToRemove buf len).setWidth 32 =
          BitVec.ofNat 32 (sbToRemove buf len).toNat := by
        rw [← BitVec.ofNat_toNat]
      have hlive : buf.live.drop (sbToRemove buf len).toNat =
          Lib.window buf.data (buf.headOff.toNat + (sbToRemove buf len).toNat)
            (buf.len.toNat - (sbToRemove buf len).toNat) := Lib.drop_window _ _ _ _
      have hret : sbToRemove buf len = BitVec.ofNat 64 (sbToRemove buf len).toNat := by simp
      split
      · next hempty =>
        -- the last byte is gone: the offsets go back to the front
        have hall : buf.len.toNat - (sbToRemove buf len).toNat = 0 := by
          rw [← hlen, hempty.1]; rfl
        refine ⟨⟨hdata, rfl, ?_, Nat.zero_le _⟩, ?_, hlen, ?_, rfl, rfl, rfl,
          fun h0 => absurd h0 hz', ?_⟩
        · change 0 + (buf.len - _).toNat = 0
          omega
        · rw [hlive, hall, Lib.window_zero_len]
          change Lib.window buf.data 0 (buf.len - _).toNat = _
          rw [hlen, hall, Lib.window_zero_len]
        · rw [← hseq]
        · exact hret
      · refine ⟨⟨hdata, rfl, ?_, hsize⟩, ?_, hlen, ?_, rfl, rfl, rfl,
          fun h0 => absurd h0 hz', ?_⟩
        · change (buf.headOff + _).toNat + (buf.len - _).toNat = buf.tailOff.toNat
          omega
        · change Lib.window buf.data (buf.headOff + _).toNat (buf.len - _).toNat = _
          rw [hlive, hoff, hlen]
        · rw [← hseq]
        · exact hret

end Remove

end CmtTcp
