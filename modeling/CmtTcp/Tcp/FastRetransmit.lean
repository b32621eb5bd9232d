import CmtTcp.Lib.Run
import CmtTcp.Tcp.Ack

/-!
# Fast retransmit

`cmt_tcp_process_ack` counts duplicates of an acknowledgement and rewinds `snd_nxt` at the third one. A segment is
a duplicate when it leaves the right edge of the send window where it was. The edge before the window
update is taken as `peer_wnd + snd_wl1`, the one after it as `snd_wl2 + peer_wnd`: the one is a sequence
number of the peer, the other an acknowledgement of our own.

* `fastRetransmits_iff`: three duplicates of an acknowledgement are noticed exactly when the two sequence
  spaces happen to meet;
* `loss_reduced_once`: one loss reduces the window at most once, in every run that neither interrupts the
  count nor carries it round its 8 bits.
-/

namespace CmtTcp

open Lib (Outcome Run Guarded run_of_foldlM)

variable {ρ : Type}

/-! ### Three duplicates -/

/-- Data is outstanding from `snd_una` on, and `snd_una` is what was acknowledged last. -/
structure Outstanding (s : Stream ρ) (buf : SendBuffer) : Prop where
  state : s.state = .established
  sndbuf : s.snd.sndbuf = some buf
  head : buf.headSeq = s.snd.sndUna
  sent : tcpSeqLt s.snd.sndUna s.sndNxt = true
  queued : tcpSeqLeq s.sndNxt (buf.headSeq + buf.len) = true
  inside : tcpSeqLeq s.snd.sndUna (buf.headSeq + buf.len) = true
  lastAck : s.rcv.lastAckSeq = s.snd.sndUna
  wl2 : s.rcv.sndWl2 = s.snd.sndUna

/-- A pure acknowledgement of `snd_una` with the window that `s` has already. -/
structure RepeatsAck (s : Stream ρ) (seg : Segment) : Prop where
  payloadlen : seg.payloadlen = 0
  syn : seg.syn = false
  fin : seg.fin = false
  seq : seg.seq = s.rcv.sndWl1
  ackSeq : seg.ackSeq = s.snd.sndUna
  window : cwindow s seg = s.snd.peerWnd

/-- `ssthresh` after a loss, as a number. -/
def lossThreshold (snd : SndVar) : ℕ :=
  max (min snd.cwnd.toNat snd.peerWnd.toNat / 2) (2 * snd.mss.toNat)

/-- Three segments make `cmt_tcp_process_ack` retransmit: the first two leave `snd_nxt` alone, the third one takes it
back, sets the congestion window and puts the stream on the send list. -/
def FastRetransmits (c : Conn ρ) (seg₁ seg₂ seg₃ : Segment) (ts₁ ts₂ ts₃ : U32) : Prop :=
  ∃ c₁ c₂ c₃, processAck c seg₁ ts₁ = .ok c₁ ∧ processAck c₁ seg₂ ts₂ = .ok c₂ ∧
    processAck c₂ seg₃ ts₃ = .ok c₃ ∧
    c₁.stream.sndNxt = c.stream.sndNxt ∧ c₂.stream.sndNxt = c.stream.sndNxt ∧
    c₃.stream.sndNxt = c.stream.snd.sndUna ∧
    c₃.stream.snd.ssthresh.toNat = lossThreshold c.stream.snd ∧
    c₃.stream.snd.cwnd.toNat = lossThreshold c.stream.snd + 3 * c.stream.snd.mss.toNat ∧
    c₃.stream.snd.onSendList = true ∧
    ((c.stream.snd.onSendList = true → c.stream.addr ∈ c.tcp.sender.sendList) →
      c.stream.addr ∈ c₃.tcp.sender.sendList)

section Duplicates

variable {c : Conn ρ} {buf : SendBuffer} {seg : Segment}

@[simp] theorem tcpSeqLt_self (a : U32) : tcpSeqLt a a = false := by simp [tcpSeqLt]

@[simp] theorem tcpSeqGt_self (a : U32) : tcpSeqGt a a = false := by simp [tcpSeqGt]

@[simp] theorem tcpSeqGeq_self (a : U32) : tcpSeqGeq a a = true := by simp [tcpSeqGeq]

theorem Outstanding.ackSeqOf (h : Outstanding c.stream buf) (ackSeq : U32) :
    ackSeqOf c.stream ackSeq = ackSeq := by
  unfold CmtTcp.ackSeqOf
  simp [h.state]

/-- The window update has nothing to do. -/
theorem Outstanding.windowUpdate (h : Outstanding c.stream buf) (hseg : RepeatsAck c.stream seg) :
    windowUpdate seg c.stream.snd.sndUna c.stream = c.stream := by
  have hno : ¬(tcpSeqLt c.stream.rcv.sndWl1 seg.seq ∨
      (c.stream.rcv.sndWl1 = seg.seq ∧ tcpSeqLt c.stream.rcv.sndWl2 c.stream.snd.sndUna) ∨
      (c.stream.rcv.sndWl2 = c.stream.snd.sndUna ∧ cwindow c.stream seg > c.stream.snd.peerWnd)) := by
    rw [hseg.seq, h.wl2, hseg.window]
    simp
  exact if_neg hno

/-- The edges agree exactly when the sequence numbers of the two directions do. -/
theorem Outstanding.isDup (h : Outstanding c.stream buf) (hseg : RepeatsAck c.stream seg) :
    isDup c.stream c.stream.snd.sndUna seg.payloadlen (rightWndEdge c.stream) =
      decide (c.stream.rcv.sndWl1 = c.stream.snd.sndUna) := by
  have hedge : c.stream.snd.sndUna + c.stream.snd.peerWnd =
      c.stream.snd.peerWnd + c.stream.rcv.sndWl1 ↔ c.stream.rcv.sndWl1 = c.stream.snd.sndUna := by
    constructor <;> intro heq <;> bv_omega
  unfold CmtTcp.isDup rightWndEdge
  rw [h.sent, h.lastAck, hseg.payloadlen, h.wl2]
  simp only [BEq.rfl, Bool.and_true, Bool.true_and]
  exact decide_eq_decide.mpr hedge

/-- What `cmt_tcp_process_ack` does with a repeated acknowledgement. -/
theorem Outstanding.processAck (h : Outstanding c.stream buf) (hseg : RepeatsAck c.stream seg)
    (ts : U32) :
    processAck c seg ts =
      (answerDup (c.mod (countDup (c.stream.rcv.sndWl1 = c.stream.snd.sndUna) c.stream.snd.sndUna))
        (c.stream.rcv.sndWl1 = c.stream.snd.sndUna) c.stream.snd.sndUna >>= fun c' =>
          .ok (raiseSndNxt c' buf c.stream.snd.sndUna)) := by
  have hinside : ¬tcpSeqGt c.stream.snd.sndUna (buf.headSeq + buf.len) = true := by
    have hle := h.inside
    rw [tcpSeqLeq_iff] at hle
    rw [tcpSeqGt_iff]
    omega
  have hmod : c.mod (CmtTcp.windowUpdate seg c.stream.snd.sndUna) = c := by
    unfold Conn.mod
    rw [h.windowUpdate hseg]
  unfold CmtTcp.processAck
  rw [h.sndbuf]
  dsimp only
  rw [h.ackSeqOf, hseg.ackSeq, if_neg hinside, hmod, h.isDup hseg]
  simp only [h.head, tcpSeqGeq_self, if_true]

/-- Counting leaves data outstanding. -/
theorem Outstanding.countDup (h : Outstanding c.stream buf) (dup : Bool) :
    Outstanding (c.mod (countDup dup c.stream.snd.sndUna)).stream buf := by
  cases dup with
  | false => exact ⟨h.state, h.sndbuf, h.head, h.sent, h.queued, h.inside, rfl, h.wl2⟩
  | true => exact ⟨h.state, h.sndbuf, h.head, h.sent, h.queued, h.inside, h.lastAck, h.wl2⟩

theorem RepeatsAck.countDup (h : RepeatsAck c.stream seg) (dup : Bool) (ackSeq : U32) :
    RepeatsAck (c.mod (countDup dup ackSeq)).stream seg := by
  cases dup with
  | false => exact ⟨h.payloadlen, h.syn, h.fin, h.seq, h.ackSeq, h.window⟩
  | true => exact ⟨h.payloadlen, h.syn, h.fin, h.seq, h.ackSeq, h.window⟩

/-- `snd_nxt` is not behind the acknowledgement. -/
theorem Outstanding.raiseSndNxt (h : Outstanding c.stream buf) :
    raiseSndNxt c buf c.stream.snd.sndUna = c := by
  have hback : ¬tcpSeqGt c.stream.snd.sndUna c.stream.sndNxt = true := by
    have hlt := h.sent
    rw [tcpSeqLt_iff] at hlt
    rw [tcpSeqGt_iff]
    omega
  exact if_neg hback

/-- Where the sequence spaces differ, nothing is a duplicate, and the acknowledgement is only noted. -/
theorem Outstanding.processAck_unnoticed (h : Outstanding c.stream buf)
    (hseg : RepeatsAck c.stream seg) (hne : c.stream.rcv.sndWl1 ≠ c.stream.snd.sndUna) (ts : U32) :
    CmtTcp.processAck c seg ts = .ok (c.mod (CmtTcp.countDup false c.stream.snd.sndUna)) := by
  rw [h.processAck hseg, decide_eq_false hne]
  exact congrArg Except.ok (h.countDup false).raiseSndNxt

/-- Where they meet, a duplicate before the third one is counted. -/
theorem Outstanding.processAck_counted (h : Outstanding c.stream buf)
    (hseg : RepeatsAck c.stream seg) (heq : c.stream.rcv.sndWl1 = c.stream.snd.sndUna)
    (hfew : c.stream.rcv.dupAcks + 1 < 3) (ts : U32) :
    CmtTcp.processAck c seg ts = .ok (c.mod (CmtTcp.countDup true c.stream.snd.sndUna)) := by
  have hanswer : answerDup (c.mod (CmtTcp.countDup true c.stream.snd.sndUna)) true
      c.stream.snd.sndUna = .ok (c.mod (CmtTcp.countDup true c.stream.snd.sndUna)) := by
    have hthree : ¬(true = true ∧ c.stream.rcv.dupAcks + 1 = 3) := by bv_omega
    have hmore : ¬c.stream.rcv.dupAcks + 1 > 3 := by bv_omega
    exact (if_neg hthree).trans (if_neg hmore)
  rw [h.processAck hseg, decide_eq_true heq, hanswer]
  exact congrArg Except.ok (h.countDup true).raiseSndNxt

/-- `ssthresh` is computed without overflow. -/
theorem toNat_lossSsthresh (snd : SndVar) :
    (lossSsthresh snd).toNat = lossThreshold snd ∧
      (lossSsthresh snd + 3 * snd.mss.setWidth 32).toNat =
        lossThreshold snd + 3 * snd.mss.toNat := by
  have hmss : (snd.mss.setWidth 32 : U32).toNat = snd.mss.toNat :=
    BitVec.toNat_setWidth_of_le (by decide)
  have hlt := snd.mss.isLt
  have hmin : (if snd.cwnd < snd.peerWnd then snd.cwnd else snd.peerWnd : U32).toNat =
      min snd.cwnd.toNat snd.peerWnd.toNat := by
    split <;> bv_omega
  have hhalf : ((if snd.cwnd < snd.peerWnd then snd.cwnd else snd.peerWnd : U32) / 2).toNat =
      min snd.cwnd.toNat snd.peerWnd.toNat / 2 := by
    rw [BitVec.toNat_udiv, hmin]
    rfl
  have htwo : (2 * snd.mss.setWidth 32 : U32).toNat = 2 * snd.mss.toNat := by bv_omega
  have hthree : (3 * snd.mss.setWidth 32 : U32).toNat = 3 * snd.mss.toNat := by bv_omega
  have hcwnd := snd.cwnd.isLt
  have hthreshold : (lossSsthresh snd).toNat = lossThreshold snd := by
    unfold lossSsthresh lossThreshold
    dsimp only
    generalize (if snd.cwnd < snd.peerWnd then snd.cwnd else snd.peerWnd : U32) / 2 = half at hhalf ⊢
    split
    · next hless =>
      rw [BitVec.lt_def, hhalf, htwo] at hless
      rw [htwo, Nat.max_eq_right hless.le]
    · next hless =>
      rw [BitVec.lt_def, hhalf, htwo, Nat.not_lt] at hless
      rw [hhalf, Nat.max_eq_left hless]
  refine ⟨hthreshold, ?_⟩
  -- half of a window leaves room for three packets
  have hbound : lossThreshold snd < 2 ^ 31 := by
    unfold lossThreshold
    omega
  rw [BitVec.toNat_add, hthreshold, hthree, Nat.mod_eq_of_lt (by omega)]

/-- The third duplicate. -/
theorem Outstanding.processAck_third (h : Outstanding c.stream buf)
    (hseg : RepeatsAck c.stream seg) (heq : c.stream.rcv.sndWl1 = c.stream.snd.sndUna)
    (htwo : c.stream.rcv.dupAcks = 2) (ts : U32) :
    ∃ c', CmtTcp.processAck c seg ts = .ok c' ∧ c'.stream.sndNxt = c.stream.snd.sndUna ∧
      c'.stream.snd.ssthresh = lossSsthresh c.stream.snd ∧
      c'.stream.snd.cwnd = lossSsthresh c.stream.snd + 3 * c.stream.snd.mss.setWidth 32 ∧
      c'.stream.snd.onSendList = true ∧
      ((c.stream.snd.onSendList = true → c.stream.addr ∈ c.tcp.sender.sendList) →
        c.stream.addr ∈ c'.tcp.sender.sendList) := by
  -- the stream as `cmt_tcp_addto_sendlist` gets it
  let c₁ : Conn ρ := ((c.mod (CmtTcp.countDup true c.stream.snd.sndUna)).mod fun s =>
    { s with sndNxt := c.stream.snd.sndUna }).modSnd fun snd =>
      { snd with
        ssthresh := lossSsthresh snd
        cwnd := lossSsthresh snd + 3 * snd.mss.setWidth 32
        nrtx := if snd.nrtx < tcpMaxRtx then snd.nrtx + 1 else snd.nrtx }
  have hfast : answerDup (c.mod (CmtTcp.countDup true c.stream.snd.sndUna)) true
      c.stream.snd.sndUna = addtoSendlist c₁ := by
    have hthree : true = true ∧ c.stream.rcv.dupAcks + 1 = 3 := ⟨rfl, by rw [htwo]; rfl⟩
    have hback : tcpSeqLt c.stream.snd.sndUna
        (c.mod (CmtTcp.countDup true c.stream.snd.sndUna)).stream.sndNxt = true := h.sent
    refine (if_pos hthree).trans ?_
    unfold fastRetransmit
    rw [if_pos hback]
  obtain ⟨c', hadd, hstream, -, hlist⟩ := @addtoSendlist_ok ρ c₁ (by
    change c.stream.snd.sndbuf ≠ none
    rw [h.sndbuf]
    exact Option.some_ne_none buf)
  have hnxt : c'.stream.sndNxt = c.stream.snd.sndUna := congrArg Stream.sndNxt hstream
  have hraise : CmtTcp.raiseSndNxt c' buf c.stream.snd.sndUna = c' := by
    unfold CmtTcp.raiseSndNxt
    rw [hnxt, tcpSeqGt_self, if_neg Bool.false_ne_true]
  refine ⟨c', ?_, hnxt, ?_, ?_, ?_, fun htrue => ?_⟩
  · rw [h.processAck hseg, decide_eq_true heq, hfast, hadd]
    exact congrArg Except.ok hraise
  · exact congrArg (fun s : Stream ρ => s.snd.ssthresh) hstream
  · exact congrArg (fun s : Stream ρ => s.snd.cwnd) hstream
  · exact congrArg (fun s : Stream ρ => s.snd.onSendList) hstream
  · rw [hlist]
    split
    · next hon => exact htrue hon
    · exact List.mem_append_right _ (List.mem_singleton_self _)

/-- Where the sequence spaces differ, three duplicates change nothing. -/
theorem Outstanding.not_fastRetransmits {seg₁ seg₂ seg₃ : Segment} {ts₁ ts₂ ts₃ : U32}
    (h : Outstanding c.stream buf) (h₁ : RepeatsAck c.stream seg₁) (h₂ : RepeatsAck c.stream seg₂)
    (h₃ : RepeatsAck c.stream seg₃) (hne : c.stream.rcv.sndWl1 ≠ c.stream.snd.sndUna) :
    ¬FastRetransmits c seg₁ seg₂ seg₃ ts₁ ts₂ ts₃ := by
  rintro ⟨c₁, c₂, c₃, hr₁, hr₂, hr₃, -, -, hnxt, -⟩
  -- nothing is noticed, three times
  rw [h.processAck_unnoticed h₁ hne] at hr₁
  cases hr₁
  have h' := h.countDup false
  cases hr₂.symm.trans (h'.processAck_unnoticed (h₂.countDup false _) hne ts₂)
  have h'' := h'.countDup false
  cases hr₃.symm.trans
    (h''.processAck_unnoticed ((h₃.countDup false _).countDup false _) hne ts₃)
  -- so `snd_nxt` is where it was, ahead of `snd_una`
  have hsame : c.stream.sndNxt = c.stream.snd.sndUna := hnxt
  have hlt := h.sent
  rw [hsame, tcpSeqLt_self] at hlt
  cases hlt

/-- Where they meet, three duplicates are counted, and the third one is answered. -/
theorem Outstanding.fastRetransmits {seg₁ seg₂ seg₃ : Segment} {ts₁ ts₂ ts₃ : U32}
    (h : Outstanding c.stream buf) (hdup : c.stream.rcv.dupAcks = 0)
    (h₁ : RepeatsAck c.stream seg₁) (h₂ : RepeatsAck c.stream seg₂)
    (h₃ : RepeatsAck c.stream seg₃) (heq : c.stream.rcv.sndWl1 = c.stream.snd.sndUna) :
    FastRetransmits c seg₁ seg₂ seg₃ ts₁ ts₂ ts₃ := by
  have hr₁ := h.processAck_counted h₁ heq (by rw [hdup]; decide) ts₁
  have h' := h.countDup true
  have hcount₁ : (c.mod (CmtTcp.countDup true c.stream.snd.sndUna)).stream.rcv.dupAcks = 1 := by
    change c.stream.rcv.dupAcks + 1 = 1
    rw [hdup]
    rfl
  have hr₂ := h'.processAck_counted (h₂.countDup true _) heq (by rw [hcount₁]; decide) ts₂
  have h'' := h'.countDup true
  have hcount₂ : ((c.mod (CmtTcp.countDup true c.stream.snd.sndUna)).mod
      (CmtTcp.countDup true c.stream.snd.sndUna)).stream.rcv.dupAcks = 2 := by
    change (c.mod (CmtTcp.countDup true c.stream.snd.sndUna)).stream.rcv.dupAcks + 1 = 2
    rw [hcount₁]
    rfl
  obtain ⟨c₃, hr₃, hnxt, hss, hcwnd, hon, hlist⟩ :=
    h''.processAck_third ((h₃.countDup true _).countDup true _) heq hcount₂ ts₃
  obtain ⟨hthreshold, hwindow⟩ := toNat_lossSsthresh c.stream.snd
  exact ⟨_, _, c₃, hr₁, hr₂, hr₃, rfl, rfl, hnxt, (congrArg BitVec.toNat hss).trans hthreshold,
    (congrArg BitVec.toNat hcwnd).trans hwindow, hon, hlist⟩

/-- **Three duplicates.** On an established stream with outstanding data, three pure acknowledgements of
`snd_una` with the sequence number of the last window update make `cmt_tcp_process_ack` retransmit if and
only if that sequence number equals `snd_una`. -/
theorem fastRetransmits_iff (c : Conn ρ) (buf : SendBuffer) (seg₁ seg₂ seg₃ : Segment)
    (ts₁ ts₂ ts₃ : U32) (h : Outstanding c.stream buf) (hdup : c.stream.rcv.dupAcks = 0)
    (h₁ : RepeatsAck c.stream seg₁) (h₂ : RepeatsAck c.stream seg₂)
    (h₃ : RepeatsAck c.stream seg₃) :
    FastRetransmits c seg₁ seg₂ seg₃ ts₁ ts₂ ts₃ ↔
      c.stream.rcv.sndWl1 = c.stream.snd.sndUna := by
  constructor
  · intro hfast
    by_contra hne
    exact h.not_fastRetransmits h₁ h₂ h₃ hne hfast
  · exact h.fastRetransmits hdup h₁ h₂ h₃

/-- Twenty queued bytes, from `100` on. -/
def twentyBytes : SendBuffer where
  data := List.replicate 64 0
  head := 0
  headOff := 0
  tailOff := 20
  len := 20
  cumLen := 20
  size := 64
  headSeq := 100
  initSeq := 100

/-- An established stream that sent ten of them; the last window update had the sequence number
`wl1`. -/
def tenOutstanding (wl1 : U32) : Conn Unit where
  tcp := default
  log := []
  stream :=
    { (default : Stream Unit) with
      state := .established
      sndNxt := 110
      snd :=
        { (default : SndVar) with
          mss := 1460, sndUna := 100, cwnd := 14600, peerWnd := 8192, sndbuf := some twentyBytes }
      rcv := { (default : RcvVar Unit) with sndWl1 := wl1, sndWl2 := 100, lastAckSeq := 100 } }

/-- An acknowledgement of `100` without payload. -/
def pureAck (seq : U32) (window : U16) : Segment :=
  { (default : Segment) with
    ihl := 5, doff := 5, totLen := 40, seq := seq, ackSeq := 100, ack := true, window := window }

theorem tenOutstanding_outstanding (wl1 : U32) :
    Outstanding (tenOutstanding wl1).stream twentyBytes :=
  ⟨rfl, rfl, rfl, show tcpSeqLt 100 110 = true by decide, show tcpSeqLeq 110 120 = true by decide,
    show tcpSeqLeq 100 120 = true by decide, rfl, rfl⟩

theorem tenOutstanding_repeatsAck (wl1 : U32) :
    RepeatsAck (tenOutstanding wl1).stream (pureAck wl1 8192) :=
  ⟨rfl, rfl, rfl, rfl, rfl, show (8192 : U16).setWidth 32 <<< (0 : U8) = (8192 : U32) by decide⟩

/-- Both directions are at the sequence number `100`. -/
theorem fastRetransmits_meeting :
    FastRetransmits (tenOutstanding 100) (pureAck 100 8192) (pureAck 100 8192) (pureAck 100 8192)
      0 0 0 :=
  (fastRetransmits_iff (tenOutstanding 100) twentyBytes _ _ _ 0 0 0 (tenOutstanding_outstanding 100)
    rfl (tenOutstanding_repeatsAck 100) (tenOutstanding_repeatsAck 100)
    (tenOutstanding_repeatsAck 100)).mpr rfl

/-- The peer is at the sequence number `7000`. -/
theorem duplicates_unnoticed :
    ¬∀ (c : Conn Unit) (buf : SendBuffer) (seg₁ seg₂ seg₃ : Segment) (ts₁ ts₂ ts₃ : U32),
      Outstanding c.stream buf → c.stream.rcv.dupAcks = 0 → RepeatsAck c.stream seg₁ →
      RepeatsAck c.stream seg₂ → RepeatsAck c.stream seg₃ →
      FastRetransmits c seg₁ seg₂ seg₃ ts₁ ts₂ ts₃ := by
  intro h
  have hseg := tenOutstanding_repeatsAck 7000
  exact (tenOutstanding_outstanding 7000).not_fastRetransmits hseg hseg hseg (by decide)
    (h (tenOutstanding 7000) twentyBytes _ _ _ 0 0 0 (tenOutstanding_outstanding 7000) rfl hseg
      hseg hseg)

end Duplicates

/-! ### The count along a run -/

section Count

variable {c : Conn ρ} {buf : SendBuffer} {seg : Segment}

/-- `dup` in `cmt_tcp_process_ack`. -/
def dupOf (s : Stream ρ) (seg : Segment) : Bool :=
  isDup (windowUpdate seg (ackSeqOf s seg.ackSeq) s) (ackSeqOf s seg.ackSeq) seg.payloadlen
    (rightWndEdge s)

/-- Where an acknowledgement that is not new leaves the count. -/
theorem processAck_dupAcks (hbuf : c.stream.snd.sndbuf = some buf)
    (hold : tcpSeqGeq buf.headSeq (ackSeqOf c.stream seg.ackSeq) = true) (ts : U32) :
    Outcome (processAck c seg ts) (fun _ => True) fun c' =>
      c'.stream.rcv.dupAcks =
        if tcpSeqGt (ackSeqOf c.stream seg.ackSeq) (buf.headSeq + buf.len) then
          c.stream.rcv.dupAcks
        else if dupOf c.stream seg then c.stream.rcv.dupAcks + 1 else 0 := by
  unfold processAck dupOf
  rw [hbuf]
  dsimp only
  generalize ackSeqOf c.stream seg.ackSeq = ack at hold ⊢
  refine Outcome.ite (fun hgt => (if_pos hgt).symm) fun hgt => ?_
  refine Outcome.bind ((answerDup_uncongested _ _ ack).mono (fun _ _ => trivial) fun _ h => h) ?_
  intro c₁ h₁
  refine Outcome.ite (fun _ => ?_) fun hge => absurd hold hge
  rw [if_neg hgt]
  -- the answer to a duplicate does not touch the count
  refine (Stream.view_of_uncongested (fun s => s.rcv.dupAcks) (fun _ => rfl)
    ((raiseSndNxt_uncongested c₁ buf ack).trans h₁)).trans ?_
  have hupdate : (windowUpdate seg ack c.stream).rcv.dupAcks = c.stream.rcv.dupAcks :=
    (windowUpdate_steady c seg ack).2.2
  change (countDup _ ack (windowUpdate seg ack c.stream)).rcv.dupAcks = _
  unfold countDup
  split
  · next hdup => exact (congrArg (· + 1) hupdate).trans (if_pos hdup).symm
  · next hdup => exact (if_neg hdup).symm

/-- `cmt_tcp_process_ack` gets to the branch for three duplicates. -/
def entersLoss (s : Stream ρ) (buf : SendBuffer) (seg : Segment) : Bool :=
  !tcpSeqGt (ackSeqOf s seg.ackSeq) (buf.headSeq + buf.len) && thirdDup s seg

/-- What happens to a stream after a loss. -/
inductive LossLabel
  /-- a segment comes in at this time -/
  | segment (seg : Segment) (ts : U32)
  /-- the sender transmits so many of the queued bytes -/
  | transmit (len : U32)

/-- A step of a stream that gets acknowledgements of `a` only, without payload and none of them new, and
the number of times it went through the branch for three duplicates. -/
def lossStep (a : U32) (p : Conn ρ × ℕ) : LossLabel → Option (Conn ρ × ℕ)
  | .segment seg ts =>
    match p.1.stream.snd.sndbuf with
    | none => none
    | some buf =>
      if seg.ackSeq = a ∧ seg.payloadlen = 0 ∧ tcpSeqGeq buf.headSeq a then
        match processAck p.1 seg ts with
        | .ok c => some (c, p.2 + if entersLoss p.1.stream buf seg then 1 else 0)
        | .error _ => none
      else none
  | .transmit len =>
    match p.1.stream.snd.sndbuf with
    | none => none
    | some buf =>
      if seqOff p.1.stream.snd.sndUna p.1.stream.sndNxt + len.toNat ≤ buf.len.toNat then
        some (p.1.mod fun s => { s with sndNxt := s.sndNxt + len }, p.2)
      else none

/-- Once three duplicates are counted, a segment is one more of them, and the count has room for it. -/
def KeepsCounting (p : Conn ρ × ℕ) : LossLabel → Prop
  | .segment seg _ =>
    3 ≤ p.1.stream.rcv.dupAcks → dupOf p.1.stream seg = true ∧ p.1.stream.rcv.dupAcks ≠ 255
  | .transmit _ => True

/-- The branch is behind, or the count has not come to three. -/
structure LossCounted (p : Conn ρ × ℕ) : Prop where
  state : p.1.stream.state = .established
  once : p.2 ≤ 1
  before : p.1.stream.rcv.dupAcks < 3 → p.2 = 0

theorem lossStep_segment {a : U32} {p p' : Conn ρ × ℕ} {ts : U32}
    (h : lossStep a p (.segment seg ts) = some p') :
    ∃ buf c', p.1.stream.snd.sndbuf = some buf ∧ seg.ackSeq = a ∧
      tcpSeqGeq buf.headSeq a = true ∧ processAck p.1 seg ts = .ok c' ∧
      p' = (c', p.2 + if entersLoss p.1.stream buf seg then 1 else 0) := by
  unfold lossStep at h
  cases hbuf : p.1.stream.snd.sndbuf with
  | none =>
    simp only [hbuf] at h
    cases h
  | some buf =>
    simp only [hbuf] at h
    split at h
    · next hold =>
      cases hack : processAck p.1 seg ts with
      | error e =>
        simp only [hack] at h
        cases h
      | ok c' =>
        simp only [hack] at h
        exact ⟨buf, c', rfl, hold.1, hold.2.2, rfl, (Option.some.inj h).symm⟩
    · cases h

theorem lossStep_transmit {a len : U32} {p p' : Conn ρ × ℕ}
    (h : lossStep a p (.transmit len) = some p') :
    p' = (p.1.mod fun s => { s with sndNxt := s.sndNxt + len }, p.2) := by
  unfold lossStep at h
  cases hbuf : p.1.stream.snd.sndbuf with
  | none =>
    simp only [hbuf] at h
    cases h
  | some buf =>
    simp only [hbuf] at h
    split at h
    · exact (Option.some.inj h).symm
    · cases h

/-- One segment: the branch is not entered a second time. -/
theorem LossCounted.count {p : Conn ρ × ℕ} (h : LossCounted p) {dup : Bool}
    (hguard : 3 ≤ p.1.stream.rcv.dupAcks → dup = true ∧ p.1.stream.rcv.dupAcks ≠ 255) :
    p.2 + (if (dup && p.1.stream.rcv.dupAcks + 1 == 3) = true then 1 else 0) ≤ 1 ∧
      ((if dup then p.1.stream.rcv.dupAcks + 1 else 0) < 3 →
        p.2 + (if (dup && p.1.stream.rcv.dupAcks + 1 == 3) = true then 1 else 0) = 0) := by
  have honce := h.once
  have hbefore := h.before
  cases dup with
  | true =>
    simp only [Bool.true_and, beq_iff_eq, if_true]
    by_cases hthree : p.1.stream.rcv.dupAcks + 1 = 3
    · -- the third one: the count was below three, so the branch is entered for the first time
      have hzero := hbefore (by bv_omega)
      rw [if_pos hthree, hthree, hzero]
      exact ⟨Nat.le_refl 1, fun hlt => absurd hlt (by decide)⟩
    · rw [if_neg hthree]
      refine ⟨honce, fun hlt => hbefore ?_⟩
      by_contra hge
      have hroom := (hguard (by bv_omega)).2
      bv_omega
  | false =>
    -- the count starts over, so it had not come to three
    have hfew : p.1.stream.rcv.dupAcks < 3 := by
      by_contra hge
      exact Bool.false_ne_true (hguard (by bv_omega)).1
    exact ⟨honce, fun _ => hbefore hfew⟩

theorem LossCounted.step {a : U32} {p p' : Conn ρ × ℕ} {l : LossLabel} (h : LossCounted p)
    (hguard : KeepsCounting p l) (hstep : lossStep a p l = some p') : LossCounted p' := by
  cases l with
  | transmit len =>
    obtain rfl := lossStep_transmit hstep
    exact ⟨h.state, h.once, h.before⟩
  | segment seg ts =>
    obtain ⟨buf, c', hbuf, hseq, hold, hack, rfl⟩ := lossStep_segment hstep
    have hsame : ackSeqOf p.1.stream seg.ackSeq = seg.ackSeq := by
      unfold ackSeqOf
      simp [h.state]
    have hstate := ((processAck_outcome hbuf seg ts).of_ok hack).1.state
    have hcount := (processAck_dupAcks hbuf (by rwa [hsame, hseq]) ts).of_ok hack
    have hthird : thirdDup p.1.stream seg =
        (dupOf p.1.stream seg && p.1.stream.rcv.dupAcks + 1 == 3) := rfl
    suffices hcounted : p.2 + (if entersLoss p.1.stream buf seg then 1 else 0) ≤ 1 ∧
        (c'.stream.rcv.dupAcks < 3 →
          p.2 + (if entersLoss p.1.stream buf seg then 1 else 0) = 0) from
      ⟨hstate.trans h.state, hcounted.1, hcounted.2⟩
    unfold entersLoss
    rw [hthird, hcount]
    by_cases hgt : tcpSeqGt (ackSeqOf p.1.stream seg.ackSeq) (buf.headSeq + buf.len) = true
    · -- refused: nothing happens
      rw [if_pos hgt, hgt]
      exact ⟨h.once, h.before⟩
    · rw [if_neg hgt, Bool.eq_false_of_not_eq_true hgt]
      exact h.count hguard

/-- **One loss, one reduction.** In every run of an established stream that gets acknowledgements of one
number only, none of them new, and transmits in between: as long as no segment interrupts a count of
three or more and none carries it round its 8 bits, the branch for three duplicates is entered at most
once. -/
theorem loss_reduced_once (a : U32) (c : Conn ρ) (ls : List LossLabel) (p : Conn ρ × ℕ)
    (hst : c.stream.state = .established)
    (h : Run (Guarded KeepsCounting fun p l p' => lossStep a p l = some p') (c, 0) ls p) :
    p.2 ≤ 1 := by
  have hinv := h.invariant LossCounted ⟨hst, Nat.zero_le 1, fun _ => rfl⟩
    fun _ _ _ hp hstep => hp.step hstep.1 hstep.2
  exact hinv.once

/-- Three duplicates, a retransmission and a fourth duplicate. -/
theorem loss_reduced_once_four :
    ∃ p, Run (Guarded KeepsCounting fun p l p' => lossStep 100 p l = some p')
      (tenOutstanding 100, 0) [.segment (pureAck 100 8192) 0, .segment (pureAck 100 8192) 0,
        .segment (pureAck 100 8192) 0, .transmit 10, .segment (pureAck 100 8192) 0] p ∧
      p.1.stream.rcv.dupAcks = 4 ∧ p.2 ≤ 1 := by
  have hrun : ∃ p, Run (Guarded KeepsCounting fun p l p' => lossStep 100 p l = some p')
      (tenOutstanding 100, 0) [.segment (pureAck 100 8192) 0, .segment (pureAck 100 8192) 0,
        .segment (pureAck 100 8192) 0, .transmit 10, .segment (pureAck 100 8192) 0] p ∧
      p.1.stream.rcv.dupAcks = 4 := by
    refine ⟨_, Run.snoc (Run.snoc (Run.snoc (Run.snoc (Run.single ⟨?_, rfl⟩) ⟨?_, rfl⟩) ⟨?_, rfl⟩)
      ⟨trivial, rfl⟩) ⟨?_, rfl⟩, rfl⟩
    · exact fun _ => ⟨by decide, by decide⟩
    all_goals exact fun hthree => absurd hthree (by decide)
  obtain ⟨p, hp, hfour⟩ := hrun
  exact ⟨p, hp, hfour, loss_reduced_once 100 (tenOutstanding 100) _ p rfl hp⟩

/-- Three duplicates, one that finds `snd_nxt` taken back and starts the count over, a retransmission, and
three more. -/
theorem loss_reduced_twice :
    ¬∀ (a : U32) (c : Conn Unit) (ls : List LossLabel) (p : Conn Unit × ℕ),
      c.stream.state = .established →
      Run (fun p l p' => lossStep a p l = some p') (c, 0) ls p → p.2 ≤ 1 := by
  intro h
  have hrun : ∃ p, [.segment (pureAck 100 8192) 0, .segment (pureAck 100 8192) 0,
      .segment (pureAck 100 8192) 0, .segment (pureAck 100 8192) 0, .transmit 10,
      .segment (pureAck 100 8192) 0, .segment (pureAck 100 8192) 0,
      .segment (pureAck 100 8192) 0].foldlM (lossStep 100) (tenOutstanding 100, 0) = some p ∧
      p.2 = 2 := ⟨_, rfl, rfl⟩
  obtain ⟨p, hp, htwo⟩ := hrun
  have hle := h 100 _ _ p rfl (run_of_foldlM hp)
  rw [htwo] at hle
  exact absurd hle (by decide)

end Count

end CmtTcp
