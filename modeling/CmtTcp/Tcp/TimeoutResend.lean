import CmtTcp.Tcp.FastRetransmit
import CmtTcp.Tcp.Timers

/-!
# A retransmission timeout

What one call of `handle_rto` does. The stream is either closed, or everything outstanding is sent again
from `snd_una` on, and the stream is on a list it sends from: the send list for data, the control list for
a SYN or a FIN. A FIN waits until the data in front of it is sent.

* `handleRto_schedules`: the call returns with the stream on one of the two lists, or with a closed stream
  that has no retransmissions left.
-/

namespace CmtTcp

open Lib (Outcome)

variable {ρ : Type}

/-! ### The send list and the control list -/

/-- A stream has one link for each of the two lists, so it is there at most once; its flags say on which
it is. -/
structure Conn.Listed (c : Conn ρ) : Prop where
  send : c.tcp.sender.sendList.count c.stream.addr = if c.stream.snd.onSendList then 1 else 0
  control :
    c.tcp.sender.controlList.count c.stream.addr = if c.stream.snd.onControlList then 1 else 0

/-- The stream without its place on the two lists. -/
def Stream.unlisted (s : Stream ρ) : Stream ρ :=
  { s with
    controlListWaiting := false
    snd := { s.snd with onControlList := false, onSendList := false } }

section Lists

variable {c : Conn ρ}

theorem addtoControllist_unlisted (c : Conn ρ) :
    (addtoControllist c).stream.unlisted = c.stream.unlisted := by
  rw [(addtoControllist_eq c).1]
  rfl

theorem removeControllist_unlisted (c : Conn ρ) :
    (removeControllist c).stream.unlisted = c.stream.unlisted := by
  rw [(removeControllist_eq c).1]
  rfl

theorem addtoSendlist_unlisted (c : Conn ρ) :
    Outcome (addtoSendlist c) (fun _ => True) fun c' =>
      c'.stream.unlisted = c.stream.unlisted := by
  refine (addtoSendlist_stream c).mono (fun _ _ => trivial) fun c' h => ?_
  rw [h]
  rfl

theorem Conn.Listed.mem_sendList (h : c.Listed) (hon : c.stream.snd.onSendList = true) :
    c.stream.addr ∈ c.tcp.sender.sendList := by
  have hcount := h.send
  rw [if_pos hon] at hcount
  exact List.count_pos_iff.mp (hcount ▸ Nat.one_pos)

theorem Conn.Listed.mem_controlList (h : c.Listed) (hon : c.stream.snd.onControlList = true) :
    c.stream.addr ∈ c.tcp.sender.controlList := by
  have hcount := h.control
  rw [if_pos hon] at hcount
  exact List.count_pos_iff.mp (hcount ▸ Nat.one_pos)

theorem Conn.Listed.not_mem_controlList (h : c.Listed)
    (hoff : c.stream.snd.onControlList = false) :
    c.stream.addr ∉ c.tcp.sender.controlList := by
  have hcount := h.control
  rw [hoff] at hcount
  exact List.count_eq_zero.mp hcount

/-- Only the stream and the two lists matter. -/
theorem Conn.Listed.congr {c' : Conn ρ} (h : c.Listed) (haddr : c'.stream.addr = c.stream.addr)
    (hsend : c'.stream.snd.onSendList = c.stream.snd.onSendList)
    (hcontrol : c'.stream.snd.onControlList = c.stream.snd.onControlList)
    (hsender : c'.tcp.sender = c.tcp.sender) : c'.Listed :=
  ⟨by rw [haddr, hsend, hsender]; exact h.send, by rw [haddr, hcontrol, hsender]; exact h.control⟩

/-- Marked and linked at the end. -/
theorem count_link {xs : List Addr} {a : Addr} {on : Bool}
    (h : xs.count a = if on then 1 else 0) :
    (if on then xs else xs ++ [a]).count a = 1 := by
  cases on with
  | true => exact h
  | false =>
    rw [if_neg Bool.false_ne_true, List.count_append, h]
    simp

/-- Unmarked and unlinked. -/
theorem count_unlink {xs : List Addr} {a : Addr} {on : Bool}
    (h : xs.count a = if on then 1 else 0) :
    (if on then xs.erase a else xs).count a = 0 := by
  cases on with
  | true =>
    rw [if_pos rfl, List.count_erase_self, h]
    rfl
  | false => exact h

theorem Conn.Listed.addtoControllist (h : c.Listed) : (addtoControllist c).Listed := by
  obtain ⟨hstream, hsend, hcontrol⟩ := addtoControllist_eq c
  constructor
  · rw [hstream, hsend]
    exact h.send
  · rw [hstream, hcontrol]
    exact count_link h.control

theorem Conn.Listed.removeControllist (h : c.Listed) : (removeControllist c).Listed := by
  obtain ⟨hstream, hsend, hcontrol⟩ := removeControllist_eq c
  constructor
  · rw [hstream, hsend]
    exact h.send
  · rw [hstream, hcontrol]
    exact count_unlink h.control

theorem Conn.Listed.addtoSendlist (h : c.Listed) (hbuf : c.stream.snd.sndbuf ≠ none) :
    ∃ c', addtoSendlist c = .ok c' ∧ c'.Listed ∧
      c'.stream = { c.stream with snd := { c.stream.snd with onSendList := true } } := by
  obtain ⟨c', hadd, hstream, hcontrol, hsend⟩ := addtoSendlist_ok hbuf
  refine ⟨c', hadd, ⟨?_, ?_⟩, hstream⟩
  · rw [hstream, hsend]
    exact count_link h.send
  · rw [hstream, hcontrol]
    exact h.control

end Lists

/-! ### Sending again -/

/-- The FIN of the stream is not acknowledged, and the peer may have sent its own. -/
def TcpState.FinPending (st : TcpState) : Prop := st = .finWait1 ∨ st = .closing ∨ st = .lastAck

/-- Everything from `snd_una` on is to be sent again, and nothing else about the stream has changed. -/
structure Resends (c c' : Conn ρ) : Prop where
  stream : c'.stream.unlisted = { c.stream with sndNxt := c.stream.snd.sndUna }.unlisted
  listed : c'.Listed
  queued : c'.stream.snd.onSendList = true ∨ c'.stream.snd.onControlList = true
  dataFirst : c.stream.state.FinPending → tcpSeqLt c.stream.snd.sndUna c.stream.snd.fss = true →
    c'.stream.snd.onSendList = true ∧ c'.stream.snd.onControlList = false ∧
      c'.stream.controlListWaiting = true

section Resend

variable {c : Conn ρ}

/-- The control list is for a stream without data in front of its SYN or FIN. -/
theorem resends_control (h : c.Listed)
    (hno : ¬(c.stream.state.FinPending ∧ tcpSeqLt c.stream.snd.sndUna c.stream.snd.fss = true)) :
    Resends c (addtoControllist (c.mod fun s => { s with sndNxt := s.snd.sndUna })) := by
  have hlisted : (c.mod fun s => { s with sndNxt := s.snd.sndUna }).Listed := ⟨h.send, h.control⟩
  have hstream := (addtoControllist_eq (c.mod fun s => { s with sndNxt := s.snd.sndUna })).1
  refine ⟨?_, hlisted.addtoControllist, .inr ?_, fun hfin hlt => absurd ⟨hfin, hlt⟩ hno⟩
  · rw [hstream]
    rfl
  · rw [hstream]

/-- The end of `handle_rto` moves `snd_nxt` back, and the stream from list to list. -/
theorem rtoResend_unlisted (c : Conn ρ) :
    Outcome (rtoResend c) (fun _ => True) fun r =>
      r.1.stream.unlisted = { c.stream with sndNxt := c.stream.snd.sndUna }.unlisted := by
  unfold rtoResend
  refine Outcome.ite (fun _ => ?_) fun _ => Outcome.ite (fun _ => Outcome.ite (fun _ => ?_)
    fun _ => addtoControllist_unlisted _) fun _ => addtoControllist_unlisted _
  · exact Outcome.bind (addtoSendlist_unlisted _) fun c' h => h
  · refine Outcome.bind (addtoSendlist_unlisted _) fun c' h => h.trans ?_
    split
    · exact removeControllist_unlisted _
    · rfl

/-- The flag is tested twice. -/
theorem if_removeControllist (c : Conn ρ) :
    (if c.stream.snd.onControlList then removeControllist c else c) = removeControllist c := by
  unfold removeControllist
  split
  · rfl
  · rfl

/-- Data in front of a FIN: the FIN waits. -/
theorem resends_data (h : c.Listed) (hbuf : c.stream.snd.sndbuf ≠ none) :
    ∃ c', addtoSendlist
        ((removeControllist (c.mod fun s => { s with sndNxt := s.snd.sndUna })).mod fun s =>
          { s with controlListWaiting := true }) = .ok c' ∧ Resends c c' := by
  have hlisted : (c.mod fun s => { s with sndNxt := s.snd.sndUna }).Listed := ⟨h.send, h.control⟩
  have hout := hlisted.removeControllist
  have hstream := (removeControllist_eq (c.mod fun s => { s with sndNxt := s.snd.sndUna })).1
  generalize removeControllist (c.mod fun s => { s with sndNxt := s.snd.sndUna }) = c₁
    at hout hstream ⊢
  have hwait : (c₁.mod fun s => { s with controlListWaiting := true }).Listed :=
    ⟨hout.send, hout.control⟩
  obtain ⟨c', hadd, hlisted', hstream'⟩ := hwait.addtoSendlist (by
    change c₁.stream.snd.sndbuf ≠ none
    rw [hstream]
    exact hbuf)
  refine ⟨c', hadd, ?_, hlisted', .inl ?_, fun _ _ => ⟨?_, ?_, ?_⟩⟩
  · rw [hstream']
    change c₁.stream.unlisted = _
    rw [hstream]
    rfl
  · rw [hstream']
  · rw [hstream']
  · rw [hstream']
    change c₁.stream.snd.onControlList = false
    rw [hstream]
  · rw [hstream']
    rfl

/-- `handle_rto` ends with the stream on one of the lists. -/
theorem rtoResend_resends (h : c.Listed) (hbuf : c.stream.snd.sndbuf ≠ none) :
    ∃ c', rtoResend c = .ok (c', 0) ∧ Resends c c' := by
  have hlisted : (c.mod fun s => { s with sndNxt := s.snd.sndUna }).Listed := ⟨h.send, h.control⟩
  unfold rtoResend
  by_cases hdata : c.stream.state = .established ∨ c.stream.state = .closeWait
  · -- data
    obtain ⟨c', hadd, hlisted', hstream⟩ := hlisted.addtoSendlist hbuf
    refine ⟨c', ?_, ?_, hlisted', .inl ?_, fun hfin => ?_⟩
    · exact (if_pos hdata).trans (by rw [hadd]; rfl)
    · rw [hstream]
      rfl
    · rw [hstream]
    · unfold TcpState.FinPending at hfin
      rcases hdata with hst | hst <;> simp [hst] at hfin
  · by_cases hfin : c.stream.state.FinPending
    · by_cases hlt : tcpSeqLt c.stream.snd.sndUna c.stream.snd.fss = true
      · obtain ⟨c', hadd, hresends⟩ := resends_data h hbuf
        refine ⟨c', ?_, hresends⟩
        refine (if_neg hdata).trans ((if_pos hfin).trans ((if_pos hlt).trans ?_))
        dsimp only
        rw [if_removeControllist, hadd]
        rfl
      · refine ⟨_, ?_, resends_control h fun hboth => hlt hboth.2⟩
        exact (if_neg hdata).trans ((if_pos hfin).trans (if_neg hlt))
    · refine ⟨_, ?_, resends_control h fun hboth => hfin hboth.1⟩
      exact (if_neg hdata).trans (if_neg hfin)

end Resend

/-! ### One timeout -/

/-- The backoff of a stream that has been sent again once more. -/
def nextRto (s : Stream ρ) : U32 :=
  backoffRto { s with snd := { s.snd with nrtx := s.snd.nrtx + 1 } }

/-- The stream as `handle_rto` leaves it before it looks at the state: one more retransmission, a longer
timeout, a smaller window. -/
def countTimeout (s : Stream ρ) : Stream ρ :=
  { s with
    snd := { s.snd with
      nrtx := s.snd.nrtx + 1
      maxNrtx := if s.snd.nrtx + 1 > s.snd.maxNrtx then s.snd.nrtx + 1 else s.snd.maxNrtx
      rto := nextRto s
      ssthresh := lossSsthresh s.snd
      cwnd := s.snd.mss.setWidth 32 } }

/-- The states in which something can be outstanding. -/
def TcpState.Retransmits (st : TcpState) : Prop :=
  st = .synSent ∨ st = .synRcvd ∨ st = .established ∨ st = .closeWait ∨ st = .finWait1 ∨
    st = .closing ∨ st = .lastAck

instance TcpState.decidableRetransmits : DecidablePred TcpState.Retransmits := fun st =>
  inferInstanceAs (Decidable (st = .synSent ∨ st = .synRcvd ∨ st = .established ∨
    st = .closeWait ∨ st = .finWait1 ∨ st = .closing ∨ st = .lastAck))

/-- The timeout of `c` is handled, and `c'` is on a list from which it is sent again. -/
structure Rescheduled (c c' : Conn ρ) : Prop where
  state : c'.stream.state = c.stream.state
  sndUna : c'.stream.snd.sndUna = c.stream.snd.sndUna
  sndNxt : c'.stream.sndNxt = c'.stream.snd.sndUna
  nrtx : c'.stream.snd.nrtx.toNat = c.stream.snd.nrtx.toNat + 1
  nrtx_le : c'.stream.snd.nrtx ≤ tcpMaxRtx
  rto : 0 < c'.stream.snd.rto
  cwnd : c'.stream.snd.cwnd.toNat = c'.stream.snd.mss.toNat
  ssthresh : 2 * c'.stream.snd.mss.toNat ≤ c'.stream.snd.ssthresh.toNat
  listed : c'.Listed
  queued : (c'.stream.snd.onSendList = true ∧ c'.stream.addr ∈ c'.tcp.sender.sendList) ∨
    (c'.stream.snd.onControlList = true ∧ c'.stream.addr ∈ c'.tcp.sender.controlList)
  dataFirst : c.stream.state.FinPending → tcpSeqLt c.stream.snd.sndUna c.stream.snd.fss = true →
    (c'.stream.snd.onSendList = true ∧ c'.stream.addr ∈ c'.tcp.sender.sendList) ∧
      (c'.stream.snd.onControlList = false ∧ c'.stream.addr ∉ c'.tcp.sender.controlList) ∧
      c'.stream.controlListWaiting = true

section Timeout

variable {c : Conn ρ}

theorem rtoRetry_eq (c : Conn ρ) (socket : Bool) :
    rtoRetry c socket =
      if c.stream.state = .synSent then
        if c.stream.snd.nrtx + 1 > tcpMaxSynRetry then
          let c := (c.mod countTimeout).close .closed .connFail
          .ok (if socket then c else c.streamDestroy, -1)
        else rtoResend (c.mod countTimeout)
      else if c.stream.state = .synRcvd ∨ c.stream.state = .established ∨
          c.stream.state = .closeWait ∨ c.stream.state = .lastAck ∨ c.stream.state = .finWait1 ∨
          c.stream.state = .closing then
        rtoResend (c.mod countTimeout)
      else .error .assertZero := by
  obtain ⟨tcp, s, log⟩ := c
  unfold rtoRetry
  extract_lets c₁ c₂ c₃ c₄
  -- the four assignments at once, field by field
  have hcount : c₄ = Conn.mod ⟨tcp, s, log⟩ countTimeout := by
    obtain ⟨⟩ := s
    rename_i snd rcv
    obtain ⟨⟩ := snd
    rfl
  clear_value c₄
  subst hcount
  rfl

/-- When `handle_rto` returns 0, a retransmission was left, and it counted. -/
theorem handleRto_zero {c' : Conn ρ} {socket : Bool} (h : handleRto c socket = .ok (c', 0)) :
    c.stream.snd.nrtx < tcpMaxRtx ∧
      c'.stream.unlisted =
        { countTimeout c.stream with sndNxt := c.stream.snd.sndUna }.unlisted := by
  unfold handleRto at h
  by_cases hless : c.stream.snd.nrtx < tcpMaxRtx
  · rw [if_pos hless, rtoRetry_eq] at h
    refine ⟨hless, ?_⟩
    have hresend : rtoResend (c.mod countTimeout) = .ok (c', 0) →
        c'.stream.unlisted = { countTimeout c.stream with sndNxt := c.stream.snd.sndUna }.unlisted :=
      fun hok => (rtoResend_unlisted (c.mod countTimeout)).of_ok hok
    split at h
    · split at h
      · cases h
      · exact hresend h
    · split at h
      · exact hresend h
      · cases h
  · -- the stream is closed
    rw [if_neg hless] at h
    split at h
    · cases h
    · cases h

theorem countTimeout_nrtx {s : Stream ρ} (h : s.snd.nrtx < tcpMaxRtx) :
    (countTimeout s).snd.nrtx.toNat = s.snd.nrtx.toNat + 1 := by
  change (s.snd.nrtx + 1).toNat = _
  rw [BitVec.lt_def] at h
  change _ < 16 at h
  bv_omega

/-- A timeout that is positive and has a bit to spare stays positive. -/
theorem backoffRto_pos (s : Stream ρ) (hpos : 0 < s.snd.rto) (hlt : s.snd.rto.toNat < 2 ^ 31) :
    0 < backoffRto s := by
  have hdouble : 0 < s.snd.rto <<< 1 := by
    rw [BitVec.lt_def, BitVec.toNat_shiftLeft, Nat.shiftLeft_eq]
    rw [BitVec.lt_def] at hpos
    change 0 < s.snd.rto.toNat at hpos
    change 0 < _
    omega
  have hcaught : ∀ rto : U32, 0 < if rto ≤ 0 then s.snd.rto else rto := by
    intro rto
    split
    · exact hpos
    · next hne => exact BitVec.not_le.mp hne
  unfold backoffRto
  split
  · exact hcaught _
  · repeat' split
    · exact hdouble
    · exact hpos
    · exact hpos

/-- What `handle_rto` returns 0 with. -/
theorem rescheduled_of_resends {c' : Conn ρ} (h : Resends (c.mod countTimeout) c')
    (hnrtx : c.stream.snd.nrtx < tcpMaxRtx) (hpos : 0 < c.stream.snd.rto)
    (hlt : c.stream.snd.rto.toNat < 2 ^ 31) : Rescheduled c c' := by
  -- field by field, what the last of the assignments left
  have hnxt : c'.stream.sndNxt = c.stream.snd.sndUna := congrArg Stream.sndNxt h.stream
  have hsnd := congrArg Stream.snd h.stream
  have huna : c'.stream.snd.sndUna = c.stream.snd.sndUna := (congrArg SndVar.sndUna hsnd :)
  have hsame : c'.stream.snd.nrtx = (countTimeout c.stream).snd.nrtx :=
    (congrArg SndVar.nrtx hsnd :)
  have hrto : c'.stream.snd.rto = nextRto c.stream := (congrArg SndVar.rto hsnd :)
  have hcwnd : c'.stream.snd.cwnd = c.stream.snd.mss.setWidth 32 := (congrArg SndVar.cwnd hsnd :)
  have hss : c'.stream.snd.ssthresh = lossSsthresh c.stream.snd := (congrArg SndVar.ssthresh hsnd :)
  have hmss : c'.stream.snd.mss = c.stream.snd.mss := (congrArg SndVar.mss hsnd :)
  have hcount := countTimeout_nrtx hnrtx
  exact {
    state := (congrArg Stream.state h.stream :)
    sndUna := huna
    sndNxt := hnxt.trans huna.symm
    nrtx := by rw [hsame, hcount]
    nrtx_le := by
      rw [BitVec.le_def, hsame, hcount]
      exact BitVec.lt_def.mp hnrtx
    rto := by
      rw [hrto]
      exact backoffRto_pos _ hpos hlt
    cwnd := by
      rw [hcwnd, hmss]
      exact BitVec.toNat_setWidth_of_le (by decide)
    ssthresh := by
      rw [hss, hmss, (toNat_lossSsthresh c.stream.snd).1]
      exact le_max_right _ _
    listed := h.listed
    queued := h.queued.imp (fun hon => ⟨hon, h.listed.mem_sendList hon⟩)
      fun hon => ⟨hon, h.listed.mem_controlList hon⟩
    dataFirst := fun hfin hdata => by
      obtain ⟨hon, hoff, hwait⟩ := h.dataFirst hfin hdata
      exact ⟨⟨hon, h.listed.mem_sendList hon⟩, ⟨hoff, h.listed.not_mem_controlList hoff⟩, hwait⟩ }

/-- Destroyed or not, the stream is as it was. -/
theorem stream_ite_streamDestroy (c : Conn ρ) (socket : Bool) :
    (if socket then c else c.streamDestroy).stream = c.stream := by
  split
  · rfl
  · rfl

/-- The state test of `handle_rto` lets the states pass in which something can be outstanding. -/
theorem TcpState.Retransmits.passes {st : TcpState} (h : st.Retransmits) (hsyn : st ≠ .synSent) :
    st = .synRcvd ∨ st = .established ∨ st = .closeWait ∨ st = .lastAck ∨ st = .finWait1 ∨
      st = .closing := by
  rcases h with h | h | h | h | h | h | h <;> simp_all

/-- **A handled timeout schedules the retransmission.** In a state in which something can be outstanding,
`handle_rto` returns 0 with the stream on a list it is sent from, or -1 with the stream closed for want of
retransmissions. -/
theorem handleRto_schedules (c : Conn ρ) (socket : Bool) (hstate : c.stream.state.Retransmits)
    (hbuf : c.stream.snd.sndbuf ≠ none) (hnrtx : c.stream.snd.nrtx ≤ tcpMaxRtx)
    (hpos : 0 < c.stream.snd.rto) (hlt : c.stream.snd.rto.toNat < 2 ^ 31) (hlisted : c.Listed) :
    ∃ c' ret, handleRto c socket = .ok (c', ret) ∧
      ((ret = 0 ∧ Rescheduled c c') ∨
        (ret = -1 ∧ c'.stream.state = .closed ∧
          (c.stream.snd.nrtx = tcpMaxRtx ∨
            (c.stream.state = .synSent ∧
              c'.stream.snd.nrtx.toNat = c.stream.snd.nrtx.toNat + 1 ∧
              c'.stream.snd.nrtx > tcpMaxSynRetry)))) := by
  unfold handleRto
  by_cases hless : c.stream.snd.nrtx < tcpMaxRtx
  · rw [if_pos hless, rtoRetry_eq]
    have hcounted : (c.mod countTimeout).Listed := ⟨hlisted.send, hlisted.control⟩
    obtain ⟨c', hresend, hresends⟩ := rtoResend_resends hcounted hbuf
    have hok := rescheduled_of_resends hresends hless hpos hlt
    by_cases hsyn : c.stream.state = .synSent
    · rw [if_pos hsyn]
      by_cases hmany : c.stream.snd.nrtx + 1 > tcpMaxSynRetry
      · -- the SYN was sent often enough
        rw [if_pos hmany]
        refine ⟨_, -1, rfl, .inr ⟨rfl, ?_, .inr ⟨hsyn, ?_, ?_⟩⟩⟩
        · rw [stream_ite_streamDestroy]
          rfl
        · rw [stream_ite_streamDestroy]
          exact countTimeout_nrtx hless
        · rw [stream_ite_streamDestroy]
          exact hmany
      · rw [if_neg hmany]
        exact ⟨c', 0, hresend, .inl ⟨rfl, hok⟩⟩
    · rw [if_neg hsyn, if_pos (hstate.passes hsyn)]
      exact ⟨c', 0, hresend, .inl ⟨rfl, hok⟩⟩
  · -- no retransmission is left
    have hmax : c.stream.snd.nrtx = tcpMaxRtx := by bv_omega
    rw [if_neg hless]
    split
    · exact ⟨_, -1, rfl, .inr ⟨rfl, rfl, .inl hmax⟩⟩
    · refine ⟨_, -1, rfl, .inr ⟨rfl, ?_, .inl hmax⟩⟩
      rw [stream_ite_streamDestroy]
      rfl

/-- A stream in `FIN_WAIT_1` with unacknowledged data, whose FIN is on the control list. -/
def finUnacked : Conn Unit where
  tcp := { (default : TcpManager) with
    sender := { (default : Sender) with controlList := [default], controlListCnt := 1 } }
  log := []
  stream :=
    { (default : Stream Unit) with
      state := .finWait1
      sndNxt := 121
      snd :=
        { (default : SndVar) with
          mss := 1460, sndUna := 100, fss := 120, nrtx := 3, rto := 4000, onControlList := true
          sndbuf := some twentyBytes } }

/-- Its fourth timeout. -/
theorem handleRto_schedules_finUnacked :
    ∃ c', handleRto finUnacked true = .ok (c', 0) ∧ Rescheduled finUnacked c' := by
  obtain ⟨c', ret, hret, h⟩ := handleRto_schedules finUnacked true (by decide)
    (Option.some_ne_none _) (by decide) (by decide) (by decide) ⟨rfl, rfl⟩
  rcases h with ⟨rfl, hok⟩ | ⟨-, -, hmax | ⟨hsyn, -⟩⟩
  · exact ⟨c', hret, hok⟩
  · exact absurd hmax (by decide)
  · exact absurd hsyn (by decide)

end Timeout

end CmtTcp
