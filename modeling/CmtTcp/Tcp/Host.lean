import CmtTcp.Tcp.Independence
import CmtTcp.Tcp.PassiveOpen

/-!
# All connections of a stack

`cmt_tcp_process` with the flow table: a segment is searched there under its four-tuple, and what
`create_tcp_stream` makes is linked in there. A `Host` holds the streams of all connections, at their
addresses; its flow table reads the four-tuples off them.

`connections_independent`: whatever segments of other connections come between, a connection goes through
what it goes through when the stack has no other.
-/

namespace CmtTcp

open Lib (Alike Outcome Chains Guarded Run find?_eq_some_iff_of_unique)

variable {ρ : Type}

/-- The manager, the links of its flow table, and the streams at their addresses. -/
structure Host (ρ : Type) where
  tcp : TcpManager
  first : ℕ → Option Addr
  htNext : Addr → Option Addr
  htCount : U8
  streams : Addr → Option (Stream ρ)

namespace Host

/-- A stack without connections. -/
def empty (tcp : TcpManager) : Host ρ := ⟨tcp, fun _ => none, fun _ => none, 0, fun _ => none⟩

/-- `tcp_flow_table`, with the four-tuples in the streams. -/
def table (h : Host ρ) : FlowTable where
  first := h.first
  htNext := h.htNext
  htCount := h.htCount
  flow it := match h.streams it with
    | some s => s.flow
    | none => default

/-- The stream and the manager as a call leaves them. -/
def store (h : Host ρ) (it : Addr) (c : Conn ρ) : Host ρ :=
  { h with tcp := c.tcp, streams := Function.update h.streams it (some c.stream) }

/-- A new stream at its address, and `stream_ht_insert`. -/
def enter (h : Host ρ) (s : Stream ρ) : Host ρ :=
  let h := { h with streams := Function.update h.streams s.addr (some s) }
  let t := h.table.insert s.addr
  { h with first := t.first, htNext := t.htNext, htCount := t.htCount }

/-- `cmt_tcp_process`, where the search is given `n` turns. -/
def process (P : Parts ρ) (n : ℕ) (h : Host ρ) (a : Arrival ρ) : Except Abort (Host ρ × ℤ) :=
  if 20 ≠ a.seg.ihl.toNat * 4 then .error .assertHeader
  else if a.seg.check ≠ 0 then .ok (h, -1)
  else
    match h.table.search n a.seg.flow with
    | .error _ => .error .endless
    | .ok found =>
      match found.bind fun it => (h.streams it).map fun s => (it, s) with
      | some (it, s) => do
        let c ← processStream P { tcp := h.tcp, stream := s, log := [] } a
        .ok (h.store it c, 1)
      | none => do
        match ← createStream h.tcp [] a with
        | none => .ok (h, -2)
        | some c =>
          let c' ← processStream P c a
          .ok ((h.enter c.stream).store c.stream.addr c', 1)

/-- A segment is received. -/
def Step (P : Parts ρ) (n : ℕ) (h : Host ρ) (a : Arrival ρ) (h' : Host ρ) : Prop :=
  ∃ ret, h.process P n a = .ok (h', ret)

/-- The stream object that the pool hands out is not in use. -/
def Fresh (h : Host ρ) (a : Arrival ρ) : Prop :=
  ∀ s, a.streamObj = some s → h.streams s.addr = none

end Host

/-- A segment is received, on the one connection that there is. -/
def ConnStep (P : Parts ρ) (w : World ρ) (a : Arrival ρ) (w' : World ρ) : Prop :=
  ∃ ret, process P w a = .ok (w', ret)

/-! ### The flow table of a host -/

/-- The streams of a host are those in its flow table, at most one for each four-tuple. -/
structure Host.Linked (h : Host ρ) (present : List Addr) : Prop where
  chains : Chains h.first h.htNext (fun a => hashFlow (h.table.flow a)) present
  mem : ∀ it, it ∈ present ↔ ∃ s, h.streams it = some s
  nodup : present.Nodup
  keys : ∀ a ∈ present, ∀ b ∈ present, h.table.flow a = h.table.flow b → a = b

namespace Host

variable {P : Parts ρ} {h h' : Host ρ} {present : List Addr} {n : ℕ} {it : Addr} {s : Stream ρ} {q : Flow}

@[simp] theorem store_streams (h : Host ρ) (it : Addr) (c : Conn ρ) :
    (h.store it c).streams = Function.update h.streams it (some c.stream) := rfl

@[simp] theorem enter_streams (h : Host ρ) (s : Stream ρ) :
    (h.enter s).streams = Function.update h.streams s.addr (some s) := rfl

theorem flow_of (hs : h.streams it = some s) : h.table.flow it = s.flow := by
  unfold table
  dsimp only
  rw [hs]

theorem empty_linked (tcp : TcpManager) : (empty tcp : Host ρ).Linked [] where
  chains := Chains.nil
  mem it := by simp [empty]
  nodup := List.nodup_nil
  keys a ha := absurd ha List.not_mem_nil

/-- What the search of a linked table finds. -/
theorem Linked.search (h₀ : h.Linked present) (hn : present.length < n) (q : Flow) :
    h.table.search n q = .ok (HtOp.lookup h.table.flow present q) := by
  have htest : (fun a => equalFlow (h.table.flow a) q) = fun a => decide (h.table.flow a = q) := by
    funext a
    rw [Bool.eq_iff_iff, equalFlow_iff, decide_eq_true_iff]
  unfold HtOp.lookup
  rw [← htest]
  refine @Chains.search _ _ _ h.table.first h.table.htNext (fun a => hashFlow (h.table.flow a)) present
    (hashFlow q) (fun a => equalFlow (h.table.flow a) q) (h.table.searchLoop q) Except.ok n h₀.chains hn
    ?_ ?_ (fun _ => rfl) fun _ _ => rfl
  · intro a _ ha
    exact congrArg hashFlow (equalFlow_iff.mp ha)
  · intro a ha b hb haq hbq
    exact h₀.keys a ha b hb ((equalFlow_iff.mp haq).trans (equalFlow_iff.mp hbq).symm)

/-- What a call leaves of a stream in the table. -/
theorem Linked.store {c : Conn ρ} (h₀ : h.Linked present) (hs : h.streams it = some s)
    (hflow : c.stream.flow = s.flow) : (h.store it c).Linked present := by
  have htable : (h.store it c).table.flow = h.table.flow := by
    funext a
    by_cases ha : a = it
    · subst ha
      rw [flow_of hs, flow_of (s := c.stream) (by simp), hflow]
    · unfold table Host.store
      dsimp only
      rw [Function.update_of_ne ha]
  refine ⟨?_, fun a => ?_, h₀.nodup, ?_⟩
  · rw [htable]
    exact h₀.chains
  · rw [h₀.mem, store_streams]
    by_cases ha : a = it
    · subst ha
      simp [hs]
    · rw [Function.update_of_ne ha]
  · rw [htable]
    exact h₀.keys

/-- A new stream with a four-tuple that is not in the table. -/
theorem Linked.enter (h₀ : h.Linked present) (hfresh : h.streams s.addr = none)
    (hnew : ∀ it t, h.streams it = some t → t.flow ≠ s.flow) :
    (h.enter s).Linked (s.addr :: present) := by
  have hout : s.addr ∉ present := by
    intro hmem
    obtain ⟨t, ht⟩ := (h₀.mem s.addr).mp hmem
    rw [hfresh] at ht
    cases ht
  have hself : (h.enter s).table.flow s.addr = s.flow :=
    flow_of (by simp)
  have hother : ∀ a ∈ present, (h.enter s).table.flow a = h.table.flow a := by
    intro a ha
    have hne : a ≠ s.addr := fun heq => hout (heq ▸ ha)
    unfold table Host.enter
    dsimp only
    rw [Function.update_of_ne hne]
  have hkeys : ∀ a ∈ present, (h.enter s).table.flow a ≠ s.flow := by
    intro a ha
    obtain ⟨t, ht⟩ := (h₀.mem a).mp ha
    rw [hother a ha, flow_of ht]
    exact hnew a t ht
  refine ⟨?_, fun a => ?_, List.nodup_cons.mpr ⟨hout, h₀.nodup⟩, ?_⟩
  · -- the four-tuple of the new stream is there before it is linked in
    have hchains : Chains h.first h.htNext (fun a => hashFlow ((h.enter s).table.flow a)) present :=
      h₀.chains.congr fun a ha => congrArg hashFlow (hother a ha)
    exact hchains.push hout
  · rw [List.mem_cons, h₀.mem, enter_streams]
    by_cases ha : a = s.addr
    · subst ha
      simp
    · simp [ha]
  · -- no two streams have one four-tuple
    intro a ha b hb heq
    rcases List.mem_cons.mp ha with rfl | hap
    · rcases List.mem_cons.mp hb with rfl | hbp
      · rfl
      · rw [hself] at heq
        exact absurd heq.symm (hkeys b hbp)
    · rcases List.mem_cons.mp hb with rfl | hbp
      · rw [hself] at heq
        exact absurd heq (hkeys a hap)
      · rw [hother a hap, hother b hbp] at heq
        exact h₀.keys a hap b hbp heq

end Host

/-! ### A new stream -/

section Creation

variable {c c' : Conn ρ} {a : Arrival ρ} {s : Stream ρ}

/-- A connection is like itself in its four-tuple. -/
theorem Conn.Like.of_stream (h : c'.stream = c.stream) : c.Like c.stream.flow c' :=
  ⟨c.stream.onRtoIdx, h, Iff.rfl⟩

/-- What does not look at the four-tuple keeps it. -/
theorem Conn.Like.flow_eq {q : Flow} (h : c.Like q c') : c'.stream.flow = q := by
  obtain ⟨i, hs, -⟩ := h
  rw [hs]
  rfl

/-- What `cmt_tcp_passive_open` makes of a new stream does not depend on the manager. -/
theorem passiveOpen_alike (tcp tcp' : TcpManager) (log log' : List (Event ρ))
    (hs : createTcpStream a a.seg.daddr a.seg.dest a.seg.saddr a.seg.source = some s) :
    Alike (fun r r' => ∃ c c', r = some c ∧ r' = some c' ∧ c.Like a.seg.flow c')
      (passiveOpen tcp log a) (passiveOpen tcp' log' a) := by
  have hflow : s.flow = a.seg.flow := by
    unfold createTcpStream at hs
    split at hs
    · cases hs
      rfl
    · cases hs
  have hinit : Conn.Like a.seg.flow ⟨tcp, passiveInit s a.seg, log ++ [.entered s]⟩
      ⟨tcp', passiveInit s a.seg, log' ++ [.entered s]⟩ := by
    rw [← hflow]
    exact Conn.Like.of_stream rfl
  unfold passiveOpen
  rw [hs]
  refine Alike.bind (parseOptions_alike ?_ a.ts a.seg) fun c c' h => ⟨c, c', rfl, rfl, h⟩
  dsimp only
  split
  · exact hinit.modRcv.close .closed .noMem
  · exact hinit.modRcv

/-- A stream that is created is the object the pool hands out. -/
theorem passiveOpen_addr (tcp : TcpManager) (log : List (Event ρ))
    (hs : createTcpStream a a.seg.daddr a.seg.dest a.seg.saddr a.seg.source = some s) :
    Outcome (passiveOpen tcp log a) (fun _ => True) fun r =>
      ∀ c, r = some c → ∃ obj, a.streamObj = some obj ∧ c.stream.addr = obj.addr := by
  have hobj : ∃ obj, a.streamObj = some obj ∧ s.addr = obj.addr := by
    unfold createTcpStream at hs
    split at hs
    · next obj _ _ hobj _ _ =>
      cases hs
      exact ⟨obj, hobj, rfl⟩
    · cases hs
  unfold passiveOpen
  rw [hs]
  refine Outcome.bind ((parseOptions_outcome _ a.ts a.seg).mono (fun _ _ => trivial) fun _ h => h) ?_
  rintro c ⟨hneg, -⟩ c' hc
  obtain rfl : c = c' := Option.some.inj hc
  obtain ⟨obj, hstream, haddr⟩ := hobj
  refine ⟨obj, hstream, Eq.trans ?_ haddr⟩
  rw [hneg]
  dsimp only
  split
  · rfl
  · rfl

/-- The two streams that a segment creates with two managers. -/
def Created (a : Arrival ρ) (r r' : Option (Conn ρ)) : Prop :=
  r = none ∧ r' = none ∨ ∃ c c', r = some c ∧ r' = some c' ∧ c.Like a.seg.flow c' ∧
    ∃ obj, a.streamObj = some obj ∧ c.stream.addr = obj.addr

/-- Creating a stream does not depend on the manager. -/
theorem createStream_alike (tcp tcp' : TcpManager) (log log' : List (Event ρ)) (a : Arrival ρ) :
    Alike (Created a) (createStream tcp log a) (createStream tcp' log' a) := by
  have hnone : Alike (Created a) (.ok none : Except Abort (Option (Conn ρ))) (.ok none) :=
    .inl ⟨rfl, rfl⟩
  unfold createStream
  refine Alike.ite Iff.rfl (fun _ => Alike.ite Iff.rfl (fun _ => ?_) fun _ => hnone) fun _ => hnone
  cases hnew : createTcpStream a a.seg.daddr a.seg.dest a.seg.saddr a.seg.source with
  | none =>
    unfold passiveOpen
    rw [hnew]
    exact hnone
  | some s =>
    refine ((passiveOpen_alike tcp tcp' log log' hnew).and_left (passiveOpen_addr tcp log hnew)).mono ?_
    rintro r r' ⟨⟨c, c', hr, hr', hlike⟩, haddr⟩
    exact .inr ⟨c, c', hr, hr', hlike, haddr c hr⟩

/-- A stream that is created has the four-tuple of its segment. -/
theorem createStream_flow (tcp : TcpManager) (log : List (Event ρ)) (a : Arrival ρ) :
    Outcome (createStream tcp log a) (fun _ => True) fun r => ∀ c, r = some c → c.stream.flow = a.seg.flow := by
  refine (createStream_alike tcp tcp log log a).diag.mono (fun _ h => h) ?_
  rintro r (⟨rfl, -⟩ | ⟨c, c', rfl, hc', hlike, -⟩) d hd
  · cases hd
  · cases hc'
    cases hd
    exact hlike.flow_eq

end Creation

/-- A segment keeps the four-tuple of its stream. -/
theorem processStream_flow {P : Parts ρ} (hP : P.CloseWaitAlike) (c : Conn ρ) (a : Arrival ρ) :
    Outcome (processStream P c a) (fun _ => True) fun c' => c'.stream.flow = c.stream.flow :=
  (processStream_alike hP (.refl c) a).diag.mono (fun _ h => h) fun _ h => h.flow_eq

/-! ### One connection among others -/

/-- `t` is `s`, but for the bucket it is in. -/
def Stream.SameAs (s t : Stream ρ) : Prop :=
  t = { s with onRtoIdx := t.onRtoIdx } ∧ (t.onRtoIdx < 0 ↔ s.onRtoIdx < 0)

/-- What a host holds under a four-tuple is what `w` holds. -/
def Host.Shows (h : Host ρ) (q : Flow) (w : World ρ) : Prop :=
  match w.stream with
  | none => ∀ it s, h.streams it = some s → s.flow ≠ q
  | some t => ∃ it s, h.streams it = some s ∧ s.flow = q ∧ s.SameAs t

theorem Stream.SameAs.like {tcp tcp' : TcpManager} {s t : Stream ρ} {log log' : List (Event ρ)}
    (h : s.SameAs t) : Conn.Like s.flow ⟨tcp, s, log⟩ ⟨tcp', t, log'⟩ :=
  ⟨t.onRtoIdx, h.1, h.2⟩

theorem Conn.Like.sameAs {c c' : Conn ρ} {q : Flow} (h : c.Like q c') (hflow : c.stream.flow = q) :
    c.stream.SameAs c'.stream := by
  obtain ⟨i, hs, hi⟩ := h
  subst hflow
  rw [hs]
  exact ⟨rfl, hi⟩

namespace Host

variable {P : Parts ρ} {h h' : Host ρ} {present : List Addr} {n : ℕ} {w : World ρ} {a : Arrival ρ}
  {q : Flow}

/-- What a call leaves of a host and of a connection that it shows. -/
structure Kept (q : Flow) (k : ℕ) (r : Host ρ × ℤ) (r' : World ρ × ℤ) : Prop where
  ret : r'.2 = r.2
  shows : r.1.Shows q r'.1
  linked : ∃ present, r.1.Linked present ∧ present.length ≤ k

/-- The stream that the search finds for a connection that is there. -/
theorem Linked.lookup_of {it : Addr} {s : Stream ρ} (h₀ : h.Linked present) (hs : h.streams it = some s)
    (hflow : s.flow = q) : HtOp.lookup h.table.flow present q = some it := by
  rw [FlowTable.lookup_eq_some_iff h₀.keys, flow_of hs]
  exact ⟨(h₀.mem it).mpr ⟨s, hs⟩, hflow⟩

theorem Linked.lookup_none (h₀ : h.Linked present) (hq : ∀ it s, h.streams it = some s → s.flow ≠ q) :
    HtOp.lookup h.table.flow present q = none := by
  rw [FlowTable.lookup_eq_none_iff]
  intro it hit
  obtain ⟨s, hs⟩ := (h₀.mem it).mp hit
  rw [flow_of hs]
  exact hq it s hs

/-- The stream of a connection after a call, at its address. -/
theorem shows_store {it : Addr} {c c' : Conn ρ} (hflow : c.stream.flow = q) (hsame : c.Like q c')
    (h : Host ρ) : (h.store it c).Shows q c'.toWorld :=
  ⟨it, c.stream, by simp, hflow, hsame.sameAs hflow⟩

/-- A segment does to its connection what it does when there is no other. -/
theorem process_alike (hP : P.CloseWaitAlike) (h₀ : h.Linked present) (hn : present.length < n)
    (hfresh : h.Fresh a) (hshow : h.Shows a.seg.flow w) :
    Alike (Kept a.seg.flow (present.length + 1)) (h.process P n a) (CmtTcp.process P w a) := by
  unfold Host.process CmtTcp.process
  refine Alike.ite Iff.rfl (fun _ => rfl) fun _ => ?_
  refine Alike.ite Iff.rfl (fun _ => ⟨rfl, hshow, present, h₀, Nat.le_succ _⟩) fun _ => ?_
  -- the search finds the stream of the four-tuple if there is one
  rw [h₀.search hn]
  unfold Shows at hshow
  unfold findStream
  cases hw : w.stream with
  | none =>
    rw [hw] at hshow
    rw [h₀.lookup_none hshow]
    refine Alike.bind ((createStream_alike h.tcp w.tcp [] w.log a).and_left
      (createStream_flow h.tcp [] a)) ?_
    rintro r r' ⟨⟨rfl, rfl⟩ | ⟨c, c', rfl, rfl, hlike, obj, hobj, haddr⟩, hnew⟩
    · refine ⟨rfl, ?_, present, h₀, Nat.le_succ _⟩
      unfold Shows
      rw [hw]
      exact hshow
    · -- the new stream is in the table before the segment is processed
      have hflow := hnew c rfl
      have hlinked : (h.enter c.stream).Linked (c.stream.addr :: present) := by
        refine h₀.enter ?_ ?_
        · rw [haddr]
          exact hfresh obj hobj
        · rw [hflow]
          exact hshow
      refine Alike.bind ((processStream_alike hP hlike a).and_left (processStream_flow hP c a)) ?_
      rintro d d' ⟨hd, hdflow⟩
      refine ⟨rfl, shows_store (hdflow.trans hflow) hd _, c.stream.addr :: present, ?_, Nat.le_refl _⟩
      exact hlinked.store (s := c.stream) (by simp) hdflow
  | some t =>
    rw [hw] at hshow
    obtain ⟨it, s, hs, hflow, hsame⟩ := hshow
    rw [h₀.lookup_of hs hflow]
    have hfound : (some it).bind (fun it => (h.streams it).map fun s => (it, s)) = some (it, s) := by
      simp [hs]
    dsimp only
    rw [hfound]
    have hlike : Conn.Like a.seg.flow ⟨h.tcp, s, []⟩ ⟨w.tcp, t, w.log⟩ := hflow ▸ hsame.like
    change Alike _ _ (processStream P ⟨w.tcp, t, w.log⟩ a >>= _)
    refine Alike.bind ((processStream_alike hP hlike a).and_left (processStream_flow hP _ a)) ?_
    rintro d d' ⟨hd, hdflow⟩
    exact ⟨rfl, shows_store (hdflow.trans hflow) hd h, present, h₀.store hs hdflow, Nat.le_succ _⟩

/-- What a call may do to the streams: store one that is there under the four-tuple of the segment, or a
new one. -/
theorem process_streams (hP : P.CloseWaitAlike) (h₀ : h.Linked present) (hn : present.length < n)
    (hfresh : h.Fresh a) :
    Outcome (h.process P n a) (fun _ => True) fun r => r.1.streams = h.streams ∨
      ∃ it t, t.flow = a.seg.flow ∧ r.1.streams = Function.update h.streams it (some t) ∧
        ∀ s, h.streams it = some s → s.flow = a.seg.flow := by
  unfold Host.process
  refine Outcome.ite (fun _ => trivial) fun _ => Outcome.ite (fun _ => .inl rfl) fun _ => ?_
  rw [h₀.search hn]
  dsimp only
  split
  · next it s hfound =>
    -- what the search finds
    obtain ⟨it', hlook, hs⟩ := Option.bind_eq_some_iff.mp hfound
    obtain ⟨s', hs', heq⟩ := Option.map_eq_some_iff.mp hs
    cases heq
    have hflow : s.flow = a.seg.flow := by
      rw [← flow_of hs']
      exact ((FlowTable.lookup_eq_some_iff h₀.keys).mp hlook).2
    refine Outcome.bind (processStream_flow hP _ a) fun c hc => .inr ⟨it, c.stream, ?_, rfl, ?_⟩
    · exact hc.trans hflow
    · intro u hu
      rw [hs'] at hu
      cases hu
      exact hflow
  · refine Outcome.bind (createStream_alike h.tcp h.tcp [] [] a).diag ?_
    rintro r (⟨rfl, -⟩ | ⟨c, c', rfl, hc', hlike, obj, hobj, haddr⟩)
    · exact .inl rfl
    · cases hc'
      refine Outcome.bind (processStream_flow hP c a) fun d hd => .inr ⟨c.stream.addr, d.stream, ?_, ?_, ?_⟩
      · exact hd.trans hlike.flow_eq
      · simp
      · intro u hu
        rw [haddr, hfresh obj hobj] at hu
        cases hu

/-- A segment of another connection does nothing to a connection. -/
theorem process_other (hP : P.CloseWaitAlike) (h₀ : h.Linked present) (hn : present.length < n)
    (hfresh : h.Fresh a) (hshow : h.Shows q w) (hq : a.seg.flow ≠ q) {ret : ℤ}
    (hcall : h.process P n a = .ok (h', ret)) : h'.Shows q w := by
  rcases (process_streams hP h₀ hn hfresh).of_ok hcall with heq | ⟨it, t, hflow, heq, hold⟩
  · unfold Shows
    rw [heq]
    exact hshow
  dsimp only at heq
  -- the stream that is stored is under another four-tuple, and so is the one it replaces
  have hkeep : ∀ it' s, s.flow = q → (h'.streams it' = some s ↔ h.streams it' = some s) := by
    intro it' s hs
    rw [heq]
    by_cases hit : it' = it
    · subst hit
      rw [Function.update_self]
      constructor
      · rintro h
        cases h
        exact absurd (hflow.symm.trans hs) hq
      · intro h
        exact absurd ((hold s h).symm.trans hs) hq
    · rw [Function.update_of_ne hit]
  unfold Shows at hshow ⊢
  cases hw : w.stream with
  | none =>
    rw [hw] at hshow
    intro it' s hs hsq
    exact hshow it' s ((hkeep it' s hsq).mp hs) hsq
  | some u =>
    rw [hw] at hshow
    obtain ⟨it', s, hs, hsq, hsame⟩ := hshow
    exact ⟨it', s, (hkeep it' s hsq).mpr hs, hsq, hsame⟩

/-- A host shows some world under each four-tuple. -/
theorem exists_shows (h : Host ρ) (q : Flow) : ∃ w : World ρ, h.Shows q w := by
  by_cases hq : ∃ it s, h.streams it = some s ∧ s.flow = q
  · obtain ⟨it, s, hs, hflow⟩ := hq
    exact ⟨⟨h.tcp, some s, []⟩, it, s, hs, hflow, rfl, Iff.rfl⟩
  · refine ⟨⟨h.tcp, none, []⟩, fun it s hs hflow => hq ⟨it, s, hs, hflow⟩⟩

/-- The table of a stack after `k` segments. -/
def LinkedFor (k : ℕ) (h : Host ρ) : Prop := ∃ present, h.Linked present ∧ present.length ≤ k

theorem LinkedFor.step {k : ℕ} (hP : P.CloseWaitAlike) (h₀ : h.LinkedFor k) (hn : k < n)
    (hfresh : h.Fresh a) (hstep : h.Step P n a h') : h'.LinkedFor (k + 1) := by
  obtain ⟨present, hlinked, hk⟩ := h₀
  obtain ⟨w, hshow⟩ := h.exists_shows a.seg.flow
  obtain ⟨ret, hcall⟩ := hstep
  obtain ⟨r, -, hkept⟩ := (process_alike hP hlinked (by omega) hfresh hshow).of_ok hcall
  obtain ⟨present', hlinked', hk'⟩ := hkept.linked
  exact ⟨present', hlinked', by omega⟩

end Host

/-! ### Runs -/

section Runs

variable {P : Parts ρ} {tcp tcp' : TcpManager} {n : ℕ} {ls : List (Arrival ρ)} {h : Host ρ}

/-- **Connections do not get in each other's way.** In every run of a stack that starts without
connections, in which the pool hands out stream objects that are not in use, and under every four-tuple,
the stack has come to the stream that it comes to when it receives the segments of that four-tuple only;
and the next segment returns the same, or aborts alike. -/
theorem connections_independent (hP : P.CloseWaitAlike) (hn : ls.length < n)
    (hrun : Run (Guarded Host.Fresh (Host.Step P n)) (Host.empty tcp) ls h) (q : Flow) :
    ∃ w, Run (ConnStep P) ⟨tcp', none, []⟩ (ls.filter fun a => a.seg.flow = q) w ∧ h.Shows q w ∧
      ∀ a, a.seg.flow = q → h.Fresh a →
        Alike (fun r r' => r'.2 = r.2 ∧ r.1.Shows q r'.1) (h.process P n a) (process P w a) := by
  have hlen : ∀ ms (l : Arrival ρ), ms ++ [l] <+: ls → ms.length < n := by
    intro ms l hms
    have hle := hms.length_le
    rw [List.length_append, List.length_singleton] at hle
    omega
  suffices hside : ∃ w, Run (ConnStep P) ⟨tcp', none, []⟩ (ls.filter fun a => a.seg.flow = q) w ∧
      h.LinkedFor ls.length ∧ h.Shows q w by
    obtain ⟨w, hrun', ⟨present, hpresent, hk⟩, hshow⟩ := hside
    refine ⟨w, hrun', hshow, fun a ha hfresh => ?_⟩
    subst ha
    refine (Host.process_alike hP hpresent (by omega) hfresh hshow).mono fun r r' hkept => ?_
    exact ⟨hkept.ret, hkept.shows⟩
  refine hrun.alongside (fun ms h w => h.LinkedFor ms.length ∧ h.Shows q w)
    (fun a => a.seg.flow = q) ?_ ?_ ?_
  · refine ⟨⟨[], Host.empty_linked tcp, Nat.le_refl _⟩, ?_⟩
    rintro it s hs
    cases hs
  · -- a segment of the connection
    rintro ms h w a h' hms ⟨hlinked, hshow⟩ ⟨hfresh, hstep⟩ rfl
    have hlinked' := hlinked.step hP (hlen ms a hms) hfresh hstep
    obtain ⟨present, hpresent, hk⟩ := hlinked
    obtain ⟨ret, hcall⟩ := hstep
    have hlt := hlen ms a hms
    obtain ⟨⟨w', ret'⟩, hcall', hkept⟩ :=
      (Host.process_alike hP hpresent (by omega) hfresh hshow).of_ok hcall
    refine ⟨w', ⟨ret', hcall'⟩, ?_, hkept.shows⟩
    rwa [List.length_append, List.length_singleton]
  · -- a segment of another one
    rintro ms h w a h' hms ⟨hlinked, hshow⟩ ⟨hfresh, hstep⟩ hq
    have hlinked' := hlinked.step hP (hlen ms a hms) hfresh hstep
    obtain ⟨present, hpresent, hk⟩ := hlinked
    obtain ⟨ret, hcall⟩ := hstep
    have hlt := hlen ms a hms
    refine ⟨?_, Host.process_other hP hpresent (by omega) hfresh hshow hq hcall⟩
    rwa [List.length_append, List.length_singleton]

end Runs

/-- The SYN of a peer, from its port `port`; the pool hands out the stream object at `it`. -/
def peerSyn (port : U16) (it : Addr) : Arrival (U32 × U32) where
  seg := { (default : Segment) with
    ihl := 5, doff := 5, totLen := 40, saddr := 2, daddr := 1, source := port, dest := 80, seq := 7
    syn := true, window := 8192 }
  ts := 0
  listener := some { sinPort := 80, sinAddr := 1, enqueueRet := 0 }
  streamObj := some { (default : Stream (U32 × U32)) with addr := it }
  sndObj := some default
  rcvObj := some default
  rand := 100
  recvGet := fun initSeq => some (initSeq, 0)

/-- Two peers connect; the stream of the first is what it is without the second. -/
theorem connections_independent_two :
    ∃ h w, Run (Guarded Host.Fresh (Host.Step inOrderParts 3)) (Host.empty default)
        [peerSyn 1 1, peerSyn 2 2] h ∧
      Run (ConnStep inOrderParts) ⟨default, none, []⟩ [peerSyn 1 1] w ∧ h.Shows ⟨1, 2, 80, 1⟩ w := by
  have hfirst : Run (Guarded Host.Fresh (Host.Step inOrderParts 3)) (Host.empty default)
      [peerSyn 1 1] _ := Run.single ⟨fun _ _ => rfl, _, rfl⟩
  have hrun : Run (Guarded Host.Fresh (Host.Step inOrderParts 3)) (Host.empty default)
      [peerSyn 1 1, peerSyn 2 2] _ :=
    hfirst.snoc ⟨fun s hs => by cases hs; rfl, _, rfl⟩
  have hn : [peerSyn 1 1, peerSyn 2 2].length < 3 := by decide
  have hshow : ∃ w, Run (ConnStep inOrderParts) ⟨default, none, []⟩ [peerSyn 1 1] w ∧ _ ∧ _ :=
    connections_independent inOrderParts_closeWaitAlike hn hrun ⟨1, 2, 80, 1⟩
  obtain ⟨w, hw, hshow, -⟩ := hshow
  exact ⟨_, w, hrun, hw, hshow⟩

end CmtTcp
