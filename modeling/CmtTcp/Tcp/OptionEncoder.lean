import CmtTcp.Tcp.Checksum
import CmtTcp.Tcp.OptionGrammar

/-!
# Writing TCP options

`cmt_calculate_option`, `cmt_tcp_generate_timestamp` and `cmt_tcp_generate_options` of `tcp.c`: the number of
option bytes of an outgoing segment, and the bytes.

* `generateOptions_bytes`: what is written is a well-formed option string of the length announced, and
  nothing behind it is touched;
* `options_round_trip`: whoever parses it learns what the sender put in, and nothing else.
-/

namespace CmtTcp

variable {ρ ρ' : Type}

/-! ### Writing bytes -/

/-- Write bytes at offset `i`, one after the other. -/
def writeBytes (m : Packet) : ℕ → List U8 → Packet
  | _, [] => m
  | i, b :: bs => writeBytes (Function.update m i b) (i + 1) bs

/-- Store four bytes on a little endian machine. -/
def store32 (m : Packet) (i : ℕ) (v : U32) : Packet := writeBytes m i (wordOctets v)

section Write

variable {m : Packet} {i j : ℕ} {b : U8} {bs : List U8}

theorem writeBytes_of_lt (h : j < i) : writeBytes m i bs j = m j := by
  induction bs generalizing m i with
  | nil => rfl
  | cons b bs ih =>
    calc writeBytes m i (b :: bs) j = Function.update m i b j := ih (by omega)
      _ = m j := Function.update_of_ne (by omega) _ _

theorem writeBytes_of_ge (h : i + bs.length ≤ j) : writeBytes m i bs j = m j := by
  induction bs generalizing m i with
  | nil => rfl
  | cons b bs ih =>
    rw [List.length_cons] at h
    calc writeBytes m i (b :: bs) j = Function.update m i b j := ih (by omega)
      _ = m j := Function.update_of_ne (by omega) _ _

/-- What was written is there. -/
theorem segmentOctets_writeBytes (m : Packet) (i : ℕ) (bs : List U8) :
    segmentOctets (writeBytes m i bs) i bs.length = bs := by
  induction bs generalizing m i with
  | nil => rfl
  | cons b bs ih =>
    have hfirst : writeBytes m i (b :: bs) i = b := by
      calc writeBytes m i (b :: bs) i = Function.update m i b i :=
            writeBytes_of_lt (Nat.lt_succ_self i)
        _ = b := Function.update_self _ _ _
    rw [List.length_cons, segmentOctets_succ, hfirst]
    exact congrArg (b :: ·) (ih (Function.update m i b) (i + 1))

/-- `htonl` turns a word into its bytes in network order. -/
theorem wordOctets_htonl (x : U32) : wordOctets (htonl x) = bigEndian x := by
  obtain ⟨h₀, h₁, h₂, h₃⟩ := htonl_octets x
  unfold wordOctets bigEndian
  rw [h₀, h₁, h₂, h₃]

end Write

/-! ### The encoder -/

/-- `CMT_TCPHDR_SYN` -/
def cmtTcphdrSyn : U8 := 0x02

def cmtTcpoptMssLen : U16 := 4
def cmtTcpoptWscaleLen : U16 := 3

/-- `cmt_calculate_option`; `none` where its assertion fails. -/
def cmtCalculateOption (flags : U8) : Option U16 :=
  let optlen : U16 :=
    if flags &&& cmtTcphdrSyn ≠ 0 then
      let optlen := 0 + cmtTcpoptMssLen
      let optlen := optlen + tcpoptTimestampsLen
      let optlen := optlen + 2
      optlen + (cmtTcpoptWscaleLen + 1)
    else
      let optlen := 0 + tcpoptTimestampsLen
      optlen + 2
  if optlen % 4 = 0 then some optlen else none

/-- `cmt_tcp_generate_timestamp` at offset `i`. -/
def generateTimestamp (s : Stream ρ) (m : Packet) (i : ℕ) (curTs : U32) : Packet :=
  let m := Function.update m i tcpOptTimestamp
  let m := Function.update m (i + 1) (tcpoptTimestampsLen.setWidth 8)
  let m := store32 m (i + 2) (htonl curTs)
  store32 m (i + 2 + 4) (htonl s.rcv.tsRecent)

/-- `cmt_tcp_generate_options`: the memory afterwards, or `none` where its assertion fails. -/
def generateOptions (s : Stream ρ) (curTs : U32) (flags : U8) (m : Packet) (optlen : U16) :
    Option Packet :=
  if flags &&& cmtTcphdrSyn ≠ 0 then
    let mss := s.snd.mss
    let m := Function.update m 0 tcpOptMss
    let m := Function.update m 1 (cmtTcpoptMssLen.setWidth 8)
    let m := Function.update m 2 ((mss >>> 8).setWidth 8)
    let m := Function.update m 3 ((mss % 256).setWidth 8)
    let m := Function.update m 4 tcpOptNop
    let m := Function.update m 5 tcpOptNop
    let m := generateTimestamp s m 6 curTs
    let i := 6 + tcpoptTimestampsLen.toNat
    let m := Function.update m i tcpOptNop
    let m := Function.update m (i + 1) tcpOptWscale
    let m := Function.update m (i + 2) (cmtTcpoptWscaleLen.setWidth 8)
    let m := Function.update m (i + 3) s.snd.wscaleMine
    if i + 4 = optlen.toNat then some m else none
  else
    let m := Function.update m 0 tcpOptNop
    let m := Function.update m 1 tcpOptNop
    let m := generateTimestamp s m 2 curTs
    if 2 + tcpoptTimestampsLen.toNat = optlen.toNat then some m else none

/-! ### What it writes -/

/-- The options of a segment of `s` with these flags. -/
def sentOptions (s : Stream ρ) (curTs : U32) (flags : U8) : List TcpOption :=
  if flags &&& cmtTcphdrSyn ≠ 0 then
    [.mss (s.snd.mss.extractLsb' 8 8) (s.snd.mss.extractLsb' 0 8), .nop, .nop,
      .timestamp curTs s.rcv.tsRecent, .nop, .wscale s.snd.wscaleMine]
  else [.nop, .nop, .timestamp curTs s.rcv.tsRecent]

/-- What a receiver makes of them at time `now`. -/
def learnOptions (s : Stream ρ) (curTs : U32) (flags : U8) (now : U32) (r : Stream ρ') : Stream ρ' :=
  let r := { r with
    sawTimestamp := true
    rcv := { r.rcv with tsRecent := curTs, tsLastTsUpd := now } }
  if flags &&& cmtTcphdrSyn ≠ 0 then
    { r with snd := { r.snd with
        mss := s.snd.mss, effMss := s.snd.mss - 12, wscalePeer := s.snd.wscaleMine } }
  else r

section Encode

variable {s : Stream ρ} {curTs : U32} {flags : U8} {m : Packet}

theorem generateTimestamp_eq (s : Stream ρ) (m : Packet) (i : ℕ) (curTs : U32) :
    generateTimestamp s m i curTs =
      writeBytes m i (TcpOption.timestamp curTs s.rcv.tsRecent).bytes := by
  have hlen : (tcpoptTimestampsLen.setWidth 8 : U8) = 10 := by decide
  unfold generateTimestamp store32
  rw [wordOctets_htonl, wordOctets_htonl, hlen]
  rfl

/-- The bytes of the options are as many as were announced. -/
theorem calculateOption_eq (s : Stream ρ) (curTs : U32) (flags : U8) :
    ∃ optlen, cmtCalculateOption flags = some optlen ∧
      optlen.toNat = ((sentOptions s curTs flags).flatMap TcpOption.bytes).length ∧
      4 ∣ optlen.toNat := by
  unfold cmtCalculateOption sentOptions
  by_cases hsyn : flags &&& cmtTcphdrSyn ≠ 0
  · rw [if_pos hsyn, if_pos hsyn]
    exact ⟨20, rfl, rfl, by decide⟩
  · rw [if_neg hsyn, if_neg hsyn]
    exact ⟨12, rfl, rfl, by decide⟩

/-- The encoder writes the bytes of the options, from offset `0` on. -/
theorem generateOptions_bytes (s : Stream ρ) (curTs : U32) (flags : U8) (m : Packet) {optlen : U16}
    (hlen : optlen.toNat = ((sentOptions s curTs flags).flatMap TcpOption.bytes).length) :
    generateOptions s curTs flags m optlen =
      some (writeBytes m 0 ((sentOptions s curTs flags).flatMap TcpOption.bytes)) := by
  unfold generateOptions sentOptions at *
  by_cases hsyn : flags &&& cmtTcphdrSyn ≠ 0
  · rw [if_pos hsyn] at hlen ⊢
    rw [if_pos hsyn]
    have h20 : optlen.toNat = 20 := hlen
    have hhi : (s.snd.mss >>> 8).setWidth 8 = s.snd.mss.extractLsb' 8 8 := rfl
    have hlo : (s.snd.mss % 256).setWidth 8 = s.snd.mss.extractLsb' 0 8 := by
      refine BitVec.eq_of_toNat_eq ?_
      rw [BitVec.toNat_setWidth, BitVec.toNat_umod, BitVec.extractLsb'_toNat]
      exact Nat.mod_mod _ _
    dsimp only
    rw [if_pos (by rw [h20]; rfl), generateTimestamp_eq, hhi, hlo]
    rfl
  · rw [if_neg hsyn] at hlen ⊢
    rw [if_neg hsyn]
    have h12 : optlen.toNat = 12 := hlen
    dsimp only
    rw [if_pos (by rw [h12]; rfl), generateTimestamp_eq]
    rfl

/-- What the options say, one after the other. -/
theorem foldl_apply_sentOptions (s : Stream ρ) (curTs : U32) (flags : U8) (now : U32)
    (r : Stream ρ') :
    (sentOptions s curTs flags).foldl (TcpOption.apply now) r =
      learnOptions s curTs flags now r := by
  unfold sentOptions learnOptions
  by_cases hsyn : flags &&& cmtTcphdrSyn ≠ 0
  · have hmss : 256 * (s.snd.mss.extractLsb' 8 8).setWidth 16 +
        (s.snd.mss.extractLsb' 0 8).setWidth 16 = s.snd.mss := by
      rw [← append_bytes, octets_append_self]
    rw [if_pos hsyn, if_pos hsyn]
    simp only [List.foldl_cons, List.foldl_nil, TcpOption.apply, hmss]
  · rw [if_neg hsyn, if_neg hsyn]
    rfl

/-- A receiver of the bytes parses the options. -/
theorem parseOptions_sentOptions (s : Stream ρ) (curTs : U32) (flags : U8) (c : Conn ρ') (now : U32)
    {seg : Segment} (hlen : seg.optlen = ((sentOptions s curTs flags).flatMap TcpOption.bytes).length)
    (hopt : segmentOctets seg.opt 0 seg.optlen = (sentOptions s curTs flags).flatMap TcpOption.bytes) :
    parseOptions c now seg =
      .ok { c with stream := learnOptions s curTs flags now c.stream } := by
  generalize hbs : (sentOptions s curTs flags).flatMap TcpOption.bytes = bs at hlen hopt
  have hstring : (OptionString.mk (sentOptions s curTs flags) none).bytes = bs := by
    rw [← hbs]
    exact List.append_nil _
  have h := (parseOptions_wellFormed ⟨sentOptions s curTs flags, none⟩ now c.stream).2 seg.opt
  rw [hstring, foldl_apply_sentOptions, ← hlen] at h
  unfold parseOptions
  rw [h]
  -- the bytes of the area are those of the string
  intro i b hb
  have hi : i < bs.length := (List.getElem?_eq_some_iff.mp hb).1
  rw [← hopt, segmentOctets, List.getElem?_map, List.getElem?_range' (by rwa [hlen])] at hb
  rw [← Option.some.inj hb]
  congr 1
  omega

/-- **Options round trip.** For every sender, flags and time: as many bytes are written as announced, a
multiple of `4`, and nothing behind them; and every receiver that parses these bytes takes over the time
stamp, from a SYN also `mss` and the window scale, and leaves everything else as it is, but for `eff_mss`
and the time of the last time stamp. -/
theorem options_round_trip (s : Stream ρ) (curTs : U32) (flags : U8) (m : Packet) :
    ∃ optlen m', cmtCalculateOption flags = some optlen ∧ 4 ∣ optlen.toNat ∧
      generateOptions s curTs flags m optlen = some m' ∧
      (segmentOctets m' 0 optlen.toNat = (sentOptions s curTs flags).flatMap TcpOption.bytes ∧
        ∀ j, optlen.toNat ≤ j → m' j = m j) ∧
      ∀ (c : Conn ρ') (now : U32) (seg : Segment), seg.optlen = optlen.toNat →
        (∀ j < optlen.toNat, seg.opt j = m' j) →
        parseOptions c now seg =
          .ok { c with stream := learnOptions s curTs flags now c.stream } := by
  obtain ⟨optlen, hcalc, hlen, hfour⟩ := calculateOption_eq s curTs flags
  have hwritten : segmentOctets (writeBytes m 0 ((sentOptions s curTs flags).flatMap
      TcpOption.bytes)) 0 optlen.toNat = (sentOptions s curTs flags).flatMap TcpOption.bytes := by
    rw [hlen]
    exact segmentOctets_writeBytes m 0 _
  refine ⟨optlen, _, hcalc, hfour, generateOptions_bytes s curTs flags m hlen,
    ⟨hwritten, fun j hj => writeBytes_of_ge (by omega)⟩, ?_⟩
  intro c now seg hseg hsame
  refine parseOptions_sentOptions s curTs flags c now (by omega) ?_
  rw [← hwritten, hseg]
  refine List.map_congr_left fun j hj => hsame j ?_
  have hmem := (List.mem_range'_1.mp hj).2
  omega

/-- A SYN whose options are parsed by a stream of the other side. -/
theorem options_round_trip_syn :
    ∃ optlen m', cmtCalculateOption 2 = some optlen ∧
      generateOptions (default : Stream Unit) 7 2 (fun _ => 0) optlen = some m' ∧
      parseOptions (⟨default, default, []⟩ : Conn Unit) 9 { (default : Segment) with
        doff := 10, opt := m' } =
      .ok ⟨default, learnOptions (default : Stream Unit) 7 2 9 default, []⟩ := by
  obtain ⟨optlen, m', hcalc, -, hgen, -, hparse⟩ :=
    @options_round_trip Unit Unit default 7 2 (fun _ => 0)
  have h20 : optlen = 20 := (Option.some.inj hcalc).symm
  refine ⟨optlen, m', hcalc, hgen, hparse _ 9 _ ?_ fun j _ => rfl⟩
  rw [h20]
  rfl

end Encode

end CmtTcp
