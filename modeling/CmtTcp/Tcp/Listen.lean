import CmtTcp.FlowTable
import CmtTcp.Lib.Buckets
import CmtTcp.Tcp.PassiveOpen

/-!
# Listening

The table of listeners, `hash_listener`, `equal_listern`, `listen_ht_insert` and `listen_ht_search` of
`tcp_stream_hash.c`, and `cmt_create_stream` of `tcp.c` with the packets it sends. The table is the structure
of the flow table, with buckets of listeners.

What `cmt_create_stream` returns is `createStream` of the module on processing a segment, for the listener
that the table has on the port (`cmtCreateStream_of_search`). `listening_iff` says when a SYN is admitted
as the listeners ask for it: not when the listener is bound to every address.
-/

namespace CmtTcp

open Lib (Chains)

variable {ρ : Type}

/-! ### The table of listeners -/

def numBinsListener : ℕ := 1024

/-- `hash_listener`, on the port of the listener -/
def hashListener (port : U16) : ℕ := (port &&& BitVec.ofNat 16 (numBinsListener - 1)).toNat

/-- `equal_listern`, on the ports of the listeners -/
def equalListern (port₁ port₂ : U16) : Bool := port₁ = port₂

/-- `cmt_tcp_hashtable_t` with the links of the listeners in it, and all listeners. -/
structure ListenTable where
  /-- `ht_listener[idx].tqh_first` -/
  first : ℕ → Option Addr
  htNext : Addr → Option Addr
  htCount : U8
  listener : Addr → Listener

namespace ListenTable

/-- The table before the first insertion. -/
def create (listener : Addr → Listener) : ListenTable := ⟨fun _ => none, fun _ => none, 0, listener⟩

/-- The bucket of a listener. -/
def bucket (listener : Addr → Listener) (it : Addr) : ℕ := hashListener (listener it).sinPort

/-- `listen_ht_insert` -/
def insert (t : ListenTable) (it : Addr) : ListenTable :=
  let idx := bucket t.listener it
  { t with
    htNext := Function.update t.htNext it (t.first idx)
    first := Function.update t.first idx (some it)
    htCount := t.htCount + 1 }

/-- The loop of `listen_ht_search` from `walk` on. -/
def searchLoop (t : ListenTable) (port : U16) : ℕ → Option Addr → Except HtStop (Option Addr)
  | 0, _ => .error .endless
  | _ + 1, none => .ok none
  | n + 1, some walk =>
    if equalListern (t.listener walk).sinPort port then .ok (some walk)
    else searchLoop t port n (t.htNext walk)

/-- `listen_ht_search`, for at most `n` turns. -/
def search (t : ListenTable) (n : ℕ) (port : U16) : Except HtStop (Option Addr) :=
  searchLoop t port n (t.first (hashListener port))

end ListenTable

/-! ### `cmt_create_stream` -/

/-- `CMT_TCPHDR_RST` -/
def cmtTcphdrRst : U8 := 0x04

/-- `CMT_TCPHDR_ACK` -/
def cmtTcphdrAck : U8 := 0x10

/-- A packet without a stream: what `cmt_tcppkt_alone` is called with. No such packet has a payload or
echoes a timestamp. -/
structure LonePacket where
  saddr : U32
  sport : U16
  daddr : U32
  dport : U16
  seq : U32
  ackSeq : U32
  window : U16
  flags : U8
  curTs : U32
deriving DecidableEq, Repr

/-- An answer of `cmt_create_stream` to a segment. -/
def Arrival.answer (a : Arrival ρ) (seq ackSeq : U32) (flags : U8) : LonePacket where
  saddr := a.seg.daddr
  sport := a.seg.dest
  daddr := a.seg.saddr
  dport := a.seg.source
  seq := seq
  ackSeq := ackSeq
  window := 0
  flags := flags
  curTs := a.ts

/-- The ways for `cmt_create_stream` not to return. -/
inductive CreateStop
  | table (e : HtStop)
  | abort (e : Abort)

/-- `cmt_create_stream`: the stream it returns, and the packets it sends. The search for the listener is
given `n` turns. -/
def cmtCreateStream (t : ListenTable) (n : ℕ) (tcp : TcpManager) (log : List (Event ρ)) (a : Arrival ρ) :
    Except CreateStop (Option (Conn ρ) × List LonePacket) :=
  if a.seg.syn ∧ ¬a.seg.ack then do
    let listener ← (t.search n a.seg.dest).mapError .table
    if filterSynpkt (listener.map t.listener) a.seg.daddr a.seg.dest then
      let curStream ← (passiveOpen tcp log a).mapError .abort
      match curStream with
      | none => .ok (none, [a.answer 0 (a.seg.seqEnd + 1) (cmtTcphdrRst ||| cmtTcphdrAck)])
      | some c => .ok (some c, [])
    else .ok (none, [a.answer 0 (a.seg.seqEnd + 1) (cmtTcphdrRst ||| cmtTcphdrAck)])
  else if a.seg.rst then .ok (none, [])
  else if a.seg.ack then .ok (none, [a.answer a.seg.ackSeq 0 cmtTcphdrRst])
  else .ok (none, [a.answer 0 a.seg.seqEnd (cmtTcphdrRst ||| cmtTcphdrAck)])

/-! ### What is asked of it -/

/-- Someone listens for the segment: on its port, and on its address or on every address. -/
def ListenedFor (listener : Addr → Listener) (its : List Addr) (seg : Segment) : Prop :=
  ∃ it ∈ its, (listener it).sinPort = seg.dest ∧
    ((listener it).sinAddr = seg.daddr ∨ (listener it).sinAddr = 0)

/-- The packet resets the connection that a segment asks for. -/
def LonePacket.Resets (p : LonePacket) (seg : Segment) : Prop :=
  p.saddr = seg.daddr ∧ p.sport = seg.dest ∧ p.daddr = seg.saddr ∧ p.dport = seg.source ∧
    p.flags &&& cmtTcphdrRst ≠ 0

/-- The call returns, with a new stream when someone listens for the segment, and otherwise with a reset sent
and no stream. -/
def AdmitsListened (t : ListenTable) (its : List Addr) (n : ℕ) (tcp : TcpManager) (log : List (Event ρ))
    (a : Arrival ρ) : Prop :=
  ∃ r sent, cmtCreateStream t n tcp log a = .ok (r, sent) ∧
    (r.isSome ↔ ListenedFor t.listener its a.seg) ∧
    (¬ListenedFor t.listener its a.seg → r = none ∧ ∃ p, sent = [p] ∧ p.Resets a.seg)

/-- The three objects of a stream are there. -/
def Arrival.Supplied (a : Arrival ρ) : Prop :=
  a.streamObj.isSome ∧ a.sndObj.isSome ∧ a.rcvObj.isSome

/-! ### The search -/

section Search

variable {t : ListenTable} {its : List Addr} {it : Addr} {n : ℕ} {port : U16}
  {listener : Addr → Listener}

namespace ListenTable

/-- The table holds the listeners `its`. -/
structure Holds (t : ListenTable) (its : List Addr) : Prop where
  chains : Chains t.first t.htNext (bucket t.listener) its
  ports : (its.map fun it => (t.listener it).sinPort).Nodup

theorem create_holds (listener : Addr → Listener) : (create listener).Holds [] where
  chains := Chains.nil
  ports := List.nodup_nil

theorem Holds.insert (h : t.Holds its) (hnew : ∀ a ∈ its, (t.listener a).sinPort ≠ (t.listener it).sinPort) :
    (t.insert it).Holds (it :: its) where
  chains := h.chains.push fun hmem => hnew it hmem rfl
  ports := by
    refine List.nodup_cons.mpr ⟨fun hmem => ?_, h.ports⟩
    obtain ⟨a, ha, heq⟩ := List.mem_map.mp hmem
    exact hnew a ha heq

/-- Listeners on distinct ports, inserted one after the other. -/
theorem holds_of_inserted (hports : (its.map fun it => (listener it).sinPort).Nodup) :
    (its.foldl insert (create listener)).Holds its.reverse ∧
      (its.foldl insert (create listener)).listener = listener := by
  induction its using List.reverseRecOn with
  | nil => exact ⟨create_holds listener, rfl⟩
  | append_singleton its it ih =>
    rw [List.map_append, List.nodup_append] at hports
    obtain ⟨hports, -, hnew⟩ := hports
    obtain ⟨hholds, hl⟩ := ih hports
    rw [List.foldl_concat, List.reverse_concat]
    refine ⟨hholds.insert fun a ha => ?_, hl⟩
    rw [hl]
    exact hnew _ (List.mem_map_of_mem (List.mem_reverse.mp ha)) _ (List.mem_map_of_mem List.mem_cons_self)

/-- **The search** returns the listener on the port, when there is one. -/
theorem Holds.search (h : t.Holds its) (hn : its.length < n) :
    t.search n port = .ok (its.find? fun it => equalListern (t.listener it).sinPort port) := by
  refine @Chains.search _ _ _ t.first t.htNext (bucket t.listener) its (hashListener port)
    (fun it => equalListern (t.listener it).sinPort port) (t.searchLoop port) Except.ok n h.chains hn
    ?_ ?_ (fun _ => rfl) fun _ _ => rfl
  · intro a _ ha
    exact congrArg hashListener (of_decide_eq_true ha)
  · intro a ha b hb hap hbp
    have heq := (of_decide_eq_true hap).trans (of_decide_eq_true hbp).symm
    exact List.inj_on_of_nodup_map h.ports ha hb heq

/-- What a search of the table with the listeners `its` finds: nothing when none of them is on the port, and
otherwise the one that is. -/
theorem search_inserted (port : U16) (hports : (its.map fun it => (listener it).sinPort).Nodup)
    (hn : its.length < n) :
    (∀ it ∈ its, (listener it).sinPort ≠ port) ∧
        (its.foldl insert (create listener)).search n port = .ok none ∨
      ∃ it ∈ its, (listener it).sinPort = port ∧
        (∀ a ∈ its, (listener a).sinPort = port → a = it) ∧
        (its.foldl insert (create listener)).search n port = .ok (some it) := by
  obtain ⟨hholds, hl⟩ := holds_of_inserted hports
  rw [hholds.search (by rwa [List.length_reverse]), hl]
  cases hfind : its.reverse.find? fun it => equalListern (listener it).sinPort port with
  | none =>
    refine .inl ⟨fun it hit hport => ?_, rfl⟩
    exact List.find?_eq_none.mp hfind it (List.mem_reverse.mpr hit) (decide_eq_true hport)
  | some it =>
    have hit : it ∈ its := List.mem_reverse.mp (List.mem_of_find?_eq_some hfind)
    have hport : (listener it).sinPort = port :=
      of_decide_eq_true (List.find?_some (p := fun it => equalListern (listener it).sinPort port) hfind)
    refine .inr ⟨it, hit, hport, fun a ha hap => ?_, rfl⟩
    exact List.inj_on_of_nodup_map hports ha hit (hap.trans hport.symm)

end ListenTable

end Search

/-! ### The answer -/

section Answer

variable {t : ListenTable} {its : List Addr} {it : Addr} {n : ℕ} {tcp : TcpManager}
  {log : List (Event ρ)} {a : Arrival ρ} {found : Option Addr}

/-- The filter admits what the listener is bound to, and never what a listener on every address is. -/
theorem filterSynpkt_some {l : Listener} {ip : U32} {port : U16} (hport : l.sinPort = port) :
    filterSynpkt (some l) ip port = true ↔ l.sinAddr ≠ 0 ∧ l.sinAddr = ip := by
  unfold filterSynpkt
  dsimp only
  rw [if_pos hport]
  by_cases hany : l.sinAddr ≠ 0
  · rw [if_pos hany]
    by_cases hip : ip = l.sinAddr
    · rw [if_pos hip]
      exact iff_of_true rfl ⟨hany, hip.symm⟩
    · rw [if_neg hip]
      exact iff_of_false Bool.false_ne_true fun h => hip h.2.symm
  · rw [if_neg hany]
    exact iff_of_false Bool.false_ne_true fun h => hany h.1

/-- The stream that the call returns is the one that `createStream` returns for the listener on the port. -/
theorem cmtCreateStream_of_search (h : t.search n a.seg.dest = .ok found) :
    (cmtCreateStream t n tcp log a).map Prod.fst =
      (createStream tcp log { a with listener := found.map t.listener }).mapError .abort := by
  have hopen : passiveOpen tcp log { a with listener := found.map t.listener } = passiveOpen tcp log a := rfl
  unfold cmtCreateStream createStream
  rw [h, hopen]
  dsimp only
  by_cases hsyn : a.seg.syn = true ∧ ¬a.seg.ack = true
  · rw [if_pos hsyn, if_pos hsyn]
    change Except.map Prod.fst (if _ then _ else _) = _
    by_cases hfilter : filterSynpkt (found.map t.listener) a.seg.daddr a.seg.dest = true
    · rw [if_pos hfilter, if_pos hfilter]
      cases passiveOpen tcp log a with
      | error e => rfl
      | ok r => cases r <;> rfl
    · rw [if_neg hfilter, if_neg hfilter]
      rfl
  · rw [if_neg hsyn, if_neg hsyn]
    -- the other segments are answered, or not, without a stream
    split
    · rfl
    split <;> rfl

/-- A SYN that the filter refuses is answered with a reset. -/
theorem cmtCreateStream_refused (tcp : TcpManager) (log : List (Event ρ)) (hsyn : a.seg.syn = true)
    (hack : a.seg.ack = false) (h : t.search n a.seg.dest = .ok found)
    (hfilter : ¬filterSynpkt (found.map t.listener) a.seg.daddr a.seg.dest = true) :
    ∃ p, cmtCreateStream t n tcp log a = .ok (none, [p]) ∧ p.Resets a.seg := by
  have hflags : (cmtTcphdrRst ||| cmtTcphdrAck) &&& cmtTcphdrRst ≠ 0 := by decide
  refine ⟨a.answer 0 (a.seg.seqEnd + 1) (cmtTcphdrRst ||| cmtTcphdrAck), ?_, rfl, rfl, rfl, rfl, hflags⟩
  unfold cmtCreateStream
  rw [if_pos ⟨hsyn, by simp [hack]⟩, h]
  exact if_neg hfilter

/-- A SYN that the filter admits gets a stream when its options are read to the end. -/
theorem cmtCreateStream_admitted (tcp : TcpManager) (log : List (Event ρ)) (hsyn : a.seg.syn = true)
    (hack : a.seg.ack = false) (hsup : a.Supplied) (h : t.search n a.seg.dest = .ok found)
    (hfilter : filterSynpkt (found.map t.listener) a.seg.daddr a.seg.dest = true) :
    (optionsEnd a.seg ∧ ∃ c, cmtCreateStream t n tcp log a = .ok (some c, [])) ∨
      (¬optionsEnd a.seg ∧ ∃ e, cmtCreateStream t n tcp log a = .error e) := by
  obtain ⟨hstream, hsnd, hrcv⟩ := hsup
  obtain ⟨stream, hstream⟩ := Option.isSome_iff_exists.mp hstream
  obtain ⟨snd, hsnd⟩ := Option.isSome_iff_exists.mp hsnd
  obtain ⟨rcv, hrcv⟩ := Option.isSome_iff_exists.mp hrcv
  obtain ⟨s, hs⟩ : ∃ s, createTcpStream a a.seg.daddr a.seg.dest a.seg.saddr a.seg.source = some s := by
    unfold createTcpStream
    rw [hstream, hsnd, hrcv]
    exact ⟨_, rfl⟩
  have hopen := @passiveOpen_of_created _ tcp log a s hs
  have hsyn' : a.seg.syn = true ∧ ¬a.seg.ack = true := ⟨hsyn, by simp [hack]⟩
  cases hr : passiveOpen tcp log a with
  | error e =>
    refine .inr ⟨hopen.of_error hr, .abort e, ?_⟩
    unfold cmtCreateStream
    rw [if_pos hsyn', h, hr]
    exact if_pos hfilter
  | ok r =>
    obtain ⟨hend, c, rfl, -⟩ := hopen.of_ok hr
    refine .inl ⟨hend, c, ?_⟩
    unfold cmtCreateStream
    rw [if_pos hsyn', h, hr]
    exact if_pos hfilter

end Answer

/-! ### Listening -/

/-- **A SYN is admitted when someone listens for it** exactly when no listener on its port is bound to every
address, and the options of a SYN to the address that the listener is bound to come to an end. -/
theorem listening_iff (listener : Addr → Listener) (its : List Addr) (n : ℕ) (tcp : TcpManager)
    (log : List (Event ρ)) (a : Arrival ρ)
    (hports : (its.map fun it => (listener it).sinPort).Nodup) (hn : its.length < n)
    (hsyn : a.seg.syn = true) (hack : a.seg.ack = false) (hsup : a.Supplied) :
    AdmitsListened (its.foldl ListenTable.insert (.create listener)) its n tcp log a ↔
      ∀ it ∈ its, (listener it).sinPort = a.seg.dest →
        (listener it).sinAddr ≠ 0 ∧ ((listener it).sinAddr = a.seg.daddr → optionsEnd a.seg) := by
  have hl := (ListenTable.holds_of_inserted hports).2
  have hsearch := ListenTable.search_inserted (n := n) a.seg.dest hports hn
  generalize its.foldl ListenTable.insert (.create listener) = t at hl hsearch
  subst hl
  rcases hsearch with ⟨hnone, hfound⟩ | ⟨it, hit, hport, huniq, hfound⟩
  · -- nobody is on the port
    obtain ⟨p, hcall, hresets⟩ := cmtCreateStream_refused tcp log hsyn hack hfound
      Bool.false_ne_true
    refine iff_of_true
      ⟨none, [p], hcall, iff_of_false Bool.false_ne_true ?_, fun _ => ⟨rfl, p, rfl, hresets⟩⟩ ?_
    · rintro ⟨it, hit, hport, -⟩
      exact hnone it hit hport
    · intro it hit hport
      exact absurd hport (hnone it hit)
  -- the listener on the port decides
  have hlistened : ListenedFor t.listener its a.seg ↔
      (t.listener it).sinAddr = a.seg.daddr ∨ (t.listener it).sinAddr = 0 := by
    constructor
    · rintro ⟨b, hb, hbp, haddr⟩
      rwa [← huniq b hb hbp]
    · intro haddr
      exact ⟨it, hit, hport, haddr⟩
  have hcond : (∀ b ∈ its, (t.listener b).sinPort = a.seg.dest →
        (t.listener b).sinAddr ≠ 0 ∧ ((t.listener b).sinAddr = a.seg.daddr → optionsEnd a.seg)) ↔
      (t.listener it).sinAddr ≠ 0 ∧ ((t.listener it).sinAddr = a.seg.daddr → optionsEnd a.seg) := by
    constructor
    · intro hall
      exact hall it hit hport
    · intro hone b hb hbp
      rwa [huniq b hb hbp]
  rw [hcond]
  by_cases hfilter : filterSynpkt (some (t.listener it)) a.seg.daddr a.seg.dest = true
  · obtain ⟨hany, haddr⟩ := (filterSynpkt_some hport).mp hfilter
    rcases cmtCreateStream_admitted tcp log hsyn hack hsup hfound hfilter with
      ⟨hend, c, hcall⟩ | ⟨hend, e, hcall⟩
    · refine iff_of_true ⟨some c, [], hcall, iff_of_true rfl (hlistened.mpr (.inl haddr)), ?_⟩
        ⟨hany, fun _ => hend⟩
      exact fun hnot => absurd (hlistened.mpr (.inl haddr)) hnot
    · refine iff_of_false ?_ fun h => hend (h.2 haddr)
      rintro ⟨r, sent, hok, -⟩
      cases hcall.symm.trans hok
  · obtain ⟨p, hcall, hresets⟩ := cmtCreateStream_refused tcp log hsyn hack hfound hfilter
    rw [filterSynpkt_some hport] at hfilter
    by_cases hany : (t.listener it).sinAddr = 0
    · refine iff_of_false ?_ fun h => h.1 hany
      rintro ⟨r, sent, hok, hsome, -⟩
      cases hcall.symm.trans hok
      exact absurd (hsome.mpr (hlistened.mpr (.inr hany))) Bool.false_ne_true
    · have haddr : (t.listener it).sinAddr ≠ a.seg.daddr := fun haddr => hfilter ⟨hany, haddr⟩
      refine iff_of_true
        ⟨none, [p], hcall, iff_of_false Bool.false_ne_true ?_, fun _ => ⟨rfl, p, rfl, hresets⟩⟩
        ⟨hany, fun h => absurd h haddr⟩
      rw [hlistened]
      exact not_or.mpr ⟨haddr, hany⟩

/-- A SYN to port `80` of address `1`. -/
def suppliedSyn : Arrival Unit :=
  { plainSyn with
    seg := { plainSyn.seg with daddr := 1, dest := 80 }
    streamObj := some default
    sndObj := some default
    rcvObj := some default }

/-- A listener on port `80`, bound to the given address. -/
def listenerOn (addr : U32) : Listener := { sinPort := 80, sinAddr := addr, enqueueRet := 0 }

/-- Two listeners whose ports share a bucket: `80`, bound to address `1`, and `1104`, bound to address `2`. -/
def twoListeners (it : Addr) : Listener :=
  if it = 4 then listenerOn 1 else { listenerOn 2 with sinPort := 1104 }

/-- The SYN is admitted by the listener on its port, which the other one stands in front of. -/
theorem listening_bound_two :
    ListenTable.bucket twoListeners 4 = ListenTable.bucket twoListeners 5 ∧
      AdmitsListened ([4, 5].foldl ListenTable.insert (.create twoListeners)) [4, 5] 3 default []
        suppliedSyn ∧
      ∃ c sent, cmtCreateStream ([4, 5].foldl ListenTable.insert (.create twoListeners)) 3 default []
        suppliedSyn = .ok (some c, sent) := by
  have hadmits : AdmitsListened ([4, 5].foldl ListenTable.insert (.create twoListeners)) [4, 5] 3 default []
      suppliedSyn := by
    refine (listening_iff twoListeners [4, 5] 3 default [] suppliedSyn (by decide) (by decide) rfl rfl
      ⟨rfl, rfl, rfl⟩).mpr ?_
    intro it hit hport
    rcases List.mem_pair.mp hit with rfl | rfl
    · exact ⟨by decide, fun _ => by decide⟩
    · exact absurd hport (by decide)
  refine ⟨by decide, hadmits, ?_⟩
  obtain ⟨r, sent, hok, hsome, -⟩ := hadmits
  have hlistened : ListenedFor twoListeners [4, 5] suppliedSyn.seg := ⟨4, List.mem_cons_self, rfl, .inl rfl⟩
  obtain ⟨c, rfl⟩ := Option.isSome_iff_exists.mp (hsome.mpr hlistened)
  exact ⟨c, sent, hok⟩

/-- A SYN to a listener on every address is refused. -/
theorem listening_any_refused :
    ¬AdmitsListened ([4].foldl ListenTable.insert (.create fun _ => listenerOn 0)) [4] 2 default []
      suppliedSyn := by
  rintro ⟨r, sent, hok, hsome, -⟩
  have hnone : r = none := by
    cases hok
    rfl
  subst hnone
  exact absurd (hsome.mpr ⟨4, List.mem_cons_self, rfl, .inr rfl⟩) Bool.false_ne_true

end CmtTcp
