import CmtTcp.FlowTable
import CmtTcp.PoolUse
import CmtTcp.Tcp.Process

/-!
# Passive open and its allocations

`get_stream` and `free_stream` of `tcp_buffer.c`, and `create_tcp_stream` and `cmt_tcp_passive_open` with
their allocations. An incoming SYN takes four objects: the stream, its send part, its receive part and a
receive buffer. `create_tcp_stream` asks for the first three, gives back what it has when one is missing,
and puts the stream into the flow table. `cmt_tcp_passive_open` asks for the fourth, and gives nothing back:
without a receive buffer the stream is closed, and stays where it is.

`passiveOpen_iff` says when a passive open is all or nothing. What the stream is filled with is
`createTcpStream` and `passiveOpen` of the module on processing a segment.
-/

namespace CmtTcp

open Lib (Outcome)

variable {ρ σ τ υ : Type}

/-! ### Pools -/

/-- A pool that is only declared, like the one of `snd_get` and `free_snd`. -/
structure PoolOps (σ : Type) where
  get : σ → σ × Option Node
  free : σ → Node → σ
  freeCount : σ → U64
  /-- the next `get` adds objects to the pool -/
  grows : σ → Prop

/-- What its callers rely on: without an object to hand out a pool stays as it is, and an object that is put
back at once leaves it as it was, or larger by what has been added. -/
structure PoolOps.Lawful (P : PoolOps σ) : Prop where
  get_none {s s' : σ} (h : P.get s = (s', none)) : P.freeCount s' = P.freeCount s
  free_get {s s' : σ} {node : Node} (h : P.get s = (s', some node)) :
    P.freeCount (P.free s' node) = P.freeCount s ↔ ¬P.grows s

/-- `cmt_stream_manager_t`, the pool with what is held of it -/
structure StreamManager where
  cnum : U32
  streams : ObjectUse

namespace StreamManager

/-- `get_stream` -/
def getStream (w : WaterLevel) (sm : StreamManager) (nodes : List Node) :
    Except ObjectFault (StreamManager × Option Node) := do
  let (streams, stream) ← sm.streams.get w nodes
  match stream with
  | none => .ok ({ sm with streams := streams }, none)
  | some stream => .ok ({ cnum := sm.cnum + 1, streams := streams }, some stream)

/-- `free_stream` -/
def freeStream (sm : StreamManager) (stream : Node) : StreamManager where
  cnum := sm.cnum - 1
  streams := sm.streams.free stream

end StreamManager

/-! ### The code -/

/-- `send_manager`, `recv_manager` and `recvb_manager`. -/
structure Managers (σ τ υ : Type) where
  snd : PoolOps σ
  rcv : PoolOps τ
  recvb : PoolOps υ

/-- What a passive open works on: the four pools and the flow table. -/
structure OpenState (σ τ υ : Type) where
  sm : StreamManager
  snds : σ
  rcvs : τ
  recvbs : υ
  table : FlowTable

/-- What the objects hold when they are handed out; a receive buffer is set up for a sequence number. -/
structure Objects (ρ : Type) where
  stream : Node → Stream ρ
  snd : Node → SndVar
  rcv : Node → RcvVar ρ
  recvb : Node → U32 → ρ

/-- The arrival of a segment with the objects that have been taken for it. -/
def Arrival.withObjects (a : Arrival ρ) (o : Objects ρ) (stream snd rcv : Node) (recvb : Option Node) :
    Arrival ρ :=
  { a with
    streamObj := some (o.stream stream)
    sndObj := some (o.snd snd)
    rcvObj := some (o.rcv rcv)
    recvGet := fun initSeq => recvb.map fun node => o.recvb node initSeq }

/-- The four-tuple of the stream for a segment. -/
def Segment.flow (seg : Segment) : Flow where
  saddr := seg.daddr
  daddr := seg.saddr
  sport := seg.dest
  dport := seg.source

/-- The ways for a passive open not to return. -/
inductive OpenFault where
  | object (e : ObjectFault)
  | abort (e : Abort)

namespace OpenState

/-- `create_tcp_stream`: what it takes and gives back, and the insertion into the flow table. -/
def createTcpStream (M : Managers σ τ υ) (w : WaterLevel) (st : OpenState σ τ υ) (nodes : List Node)
    (flow : Flow) : Except ObjectFault (OpenState σ τ υ × Option (Node × Node × Node)) := do
  let (sm, stream) ← st.sm.getStream w nodes
  match stream with
  | none => .ok ({ st with sm := sm }, none)
  | some stream =>
    match M.snd.get st.snds with
    | (snds, none) => .ok ({ st with sm := sm.freeStream stream, snds := snds }, none)
    | (snds, some snd) =>
      match M.rcv.get st.rcvs with
      | (rcvs, none) =>
        let snds := M.snd.free snds snd
        .ok ({ st with sm := sm.freeStream stream, snds := snds, rcvs := rcvs }, none)
      | (rcvs, some rcv) =>
        let table := { st.table with flow := Function.update st.table.flow stream flow }
        .ok
          ({ st with sm := sm, snds := snds, rcvs := rcvs, table := table.insert stream },
            some (stream, snd, rcv))

/-- `cmt_tcp_passive_open` with its allocations: the stream it returns, and where that is. -/
def passiveOpen (M : Managers σ τ υ) (o : Objects ρ) (w : WaterLevel) (st : OpenState σ τ υ)
    (nodes : List Node) (tcp : TcpManager) (log : List (Event ρ)) (a : Arrival ρ) :
    Except OpenFault (OpenState σ τ υ × Option (Node × Conn ρ)) := do
  let (st, objs) ← (st.createTcpStream M w nodes a.seg.flow).mapError .object
  match objs with
  | none => .ok (st, none)
  | some (stream, snd, rcv) =>
    let (recvbs, recvb) := M.recvb.get st.recvbs
    let c ← (CmtTcp.passiveOpen tcp log (a.withObjects o stream snd rcv recvb)).mapError .abort
    .ok ({ st with recvbs := recvbs }, c.map fun c => (stream, c))

/-! ### What is asked of a passive open -/

/-- The search for the four-tuple finds the stream. -/
def InTable (st : OpenState σ τ υ) (flow : Flow) (stream : Node) : Prop :=
  ∀ n, st.table.search (n + 1) flow = .ok (some stream.val)

/-- The flow table is as before, and so are the numbers of free objects. -/
structure Unchanged (M : Managers σ τ υ) (st st' : OpenState σ τ υ) : Prop where
  table : st'.table = st.table
  streams : st'.sm.streams.freeCount = st.sm.streams.freeCount
  snds : M.snd.freeCount st'.snds = M.snd.freeCount st.snds
  rcvs : M.rcv.freeCount st'.rcvs = M.rcv.freeCount st.rcvs
  recvbs : M.recvb.freeCount st'.recvbs = M.recvb.freeCount st.recvbs

/-- The call returns, with a stream in `LISTEN` that is in the flow table or with nothing changed. -/
def AllOrNothing (M : Managers σ τ υ) (o : Objects ρ) (w : WaterLevel) (st : OpenState σ τ υ)
    (nodes : List Node) (tcp : TcpManager) (log : List (Event ρ)) (a : Arrival ρ) : Prop :=
  ∃ st' r, st.passiveOpen M o w nodes tcp log a = .ok (st', r) ∧
    ((∃ stream c, r = some (stream, c) ∧ c.stream.state = .listen ∧ st'.InTable a.seg.flow stream) ∨
      st.Unchanged M st')

/-- Nothing has to be undone, or it can be: what is given back goes to a pool that has not grown. -/
inductive OpenFits (M : Managers σ τ υ) (w : WaterLevel) (st : OpenState σ τ υ) (nodes : List Node)
    (seg : Segment) : Prop
  | noStream (hstream : st.sm.streams.Exhausted nodes)
  | noSnd (hsnd : (M.snd.get st.snds).2 = none) (hsm : ¬st.sm.streams.Grows w nodes)
  | noRcv (hsnd : (M.snd.get st.snds).2.isSome) (hrcv : (M.rcv.get st.rcvs).2 = none)
      (hsm : ¬st.sm.streams.Grows w nodes) (hsnds : ¬M.snd.grows st.snds)
  | opens (hstream : ¬st.sm.streams.Exhausted nodes) (hsnd : (M.snd.get st.snds).2.isSome)
      (hrcv : (M.rcv.get st.rcvs).2.isSome) (hrecvb : (M.recvb.get st.recvbs).2.isSome)
      (hoptions : optionsEnd seg)

end OpenState

/-! ### The parts -/

section Parts

variable {w : WaterLevel} {nodes l : List Node}

theorem FlowTable.search_insert (t : FlowTable) (it : Addr) (n : ℕ) :
    (t.insert it).search (n + 1) (t.flow it) = .ok (some it) := by
  unfold FlowTable.search FlowTable.insert
  dsimp only
  rw [Function.update_self]
  unfold FlowTable.searchLoop
  exact if_pos (equalFlow_iff.mpr rfl)

/-- Inserting a stream changes the table: it counts one stream more. -/
theorem FlowTable.insert_ne {t t' : FlowTable} (it : Addr) (hcount : t'.htCount = t.htCount) :
    t'.insert it ≠ t := by
  intro heq
  have hone : t.htCount + 1 = t.htCount := by
    rw [← hcount]
    exact (congrArg FlowTable.htCount heq).trans hcount.symm
  bv_omega

namespace StreamManager

/-- **What `get_stream` does**, and `free_stream` after it. -/
theorem getStream_cases {sm : StreamManager} (h : sm.streams.Stocked l) (hfresh : sm.streams.Fresh nodes) :
    (sm.streams.Exhausted nodes ∧ ∃ sm', sm.getStream w nodes = .ok (sm', none) ∧
      sm'.streams.freeCount = sm.streams.freeCount) ∨
    (¬sm.streams.Exhausted nodes ∧ ∃ sm' stream, sm.getStream w nodes = .ok (sm', some stream) ∧
      ((sm'.freeStream stream).streams.freeCount = sm.streams.freeCount ↔ ¬sm.streams.Grows w nodes)) := by
  unfold getStream
  rcases ObjectUse.get_cases (w := w) h hfresh with ⟨hex, u, hu, hrefused⟩ | ⟨hex, u, stream, hu, htaken⟩
  · refine .inl ⟨hex, { sm with streams := u }, ?_, hrefused.freeCount⟩
    rw [hu]
    rfl
  · refine .inr ⟨hex, { cnum := sm.cnum + 1, streams := u }, stream, ?_, htaken.restored⟩
    rw [hu]
    rfl

end StreamManager

/-- A passive open with its first three objects: the stream comes out in `LISTEN`, or in `CLOSED` when there
is no receive buffer. -/
theorem passiveOpen_of_created {tcp : TcpManager} {log : List (Event ρ)} {a : Arrival ρ} {s : Stream ρ}
    (hs : createTcpStream a a.seg.daddr a.seg.dest a.seg.saddr a.seg.source = some s) :
    Outcome (passiveOpen tcp log a) (fun _ => ¬optionsEnd a.seg) fun r => optionsEnd a.seg ∧
      ∃ c, r = some c ∧
        c.stream.state = if (a.recvGet (a.seg.seq + 1)).isNone then .closed else .listen := by
  unfold passiveOpen
  rw [hs]
  dsimp only
  generalize hc₁ : (if (a.recvGet ((passiveInit s a.seg).rcv.irs + 1)).isNone then _ else _) = c₁
  have hstate : c₁.stream.state = if (a.recvGet (a.seg.seq + 1)).isNone then .closed else .listen := by
    rw [← hc₁]
    by_cases hnone : (a.recvGet (a.seg.seq + 1)).isNone
    · rw [if_pos hnone]
      exact congrArg (fun c : Conn ρ => c.stream.state) (if_pos hnone)
    · rw [if_neg hnone]
      exact (congrArg (fun c : Conn ρ => c.stream.state) (if_neg hnone)).trans (createTcpStream_new hs).1
  have hparse : (∃ c', parseOptions c₁ a.ts a.seg = .ok c') ↔ optionsEnd a.seg := parseOptions_ok_iff
  cases h : parseOptions c₁ a.ts a.seg with
  | error e =>
    intro hend
    obtain ⟨c₂, hc₂⟩ := hparse.mpr hend
    cases h.symm.trans hc₂
  | ok c₂ =>
    -- the options have no part in the state
    have hsession := ((parseOptions_outcome c₁ a.ts a.seg).of_ok h).1.session
    exact ⟨hparse.mp ⟨c₂, h⟩, c₂, rfl, (congrArg Session.state hsession).trans hstate⟩

end Parts

/-! ### All or nothing -/

section Open

variable {M : Managers σ τ υ} {w : WaterLevel} {st st' : OpenState σ τ υ} {nodes l : List Node}
  {o : Objects ρ} {tcp : TcpManager} {log : List (Event ρ)} {a : Arrival ρ}

namespace OpenState

theorem allOrNothing_iff {r : Option (Node × Conn ρ)}
    (h : st.passiveOpen M o w nodes tcp log a = .ok (st', r)) :
    st.AllOrNothing M o w nodes tcp log a ↔
      (∃ stream c, r = some (stream, c) ∧ c.stream.state = .listen ∧ st'.InTable a.seg.flow stream) ∨
        st.Unchanged M st' := by
  constructor
  · rintro ⟨st'', r', h', hall⟩
    obtain ⟨rfl, rfl⟩ := Prod.mk.inj (Except.ok.inj (h.symm.trans h'))
    exact hall
  · intro hall
    exact ⟨st', r, h, hall⟩

/-- When nothing comes out, nothing must have changed. -/
theorem allOrNothing_iff_unchanged (h : st.createTcpStream M w nodes a.seg.flow = .ok (st', none)) :
    st.AllOrNothing M o w nodes tcp log a ↔ st.Unchanged M st' := by
  have hopen : st.passiveOpen M o w nodes tcp log a = .ok (st', none) := by
    unfold passiveOpen
    rw [h]
    rfl
  refine (allOrNothing_iff hopen).trans (or_iff_right ?_)
  rintro ⟨stream, c, hr, -⟩
  cases hr

/-- Behind `create_tcp_stream` the last allocation decides, as long as the options end. -/
theorem allOrNothing_iff_opens {stream snd rcv : Node}
    (h : st.createTcpStream M w nodes a.seg.flow = .ok (st', some (stream, snd, rcv)))
    (htable : st'.InTable a.seg.flow stream) (hne : st'.table ≠ st.table) :
    st.AllOrNothing M o w nodes tcp log a ↔ (M.recvb.get st'.recvbs).2.isSome ∧ optionsEnd a.seg := by
  have hopen : st.passiveOpen M o w nodes tcp log a =
      (CmtTcp.passiveOpen tcp log
        (a.withObjects o stream snd rcv (M.recvb.get st'.recvbs).2)).mapError .abort >>=
        fun c => .ok ({ st' with recvbs := (M.recvb.get st'.recvbs).1 }, c.map fun c => (stream, c)) := by
    unfold passiveOpen
    rw [h]
    rfl
  generalize (M.recvb.get st'.recvbs).1 = recvbs at hopen
  generalize (M.recvb.get st'.recvbs).2 = recvb at hopen ⊢
  obtain ⟨s, hs⟩ : ∃ s, CmtTcp.createTcpStream (a.withObjects o stream snd rcv recvb) a.seg.daddr a.seg.dest
      a.seg.saddr a.seg.source = some s := ⟨_, rfl⟩
  have hout := @passiveOpen_of_created ρ tcp log (a.withObjects o stream snd rcv recvb) s hs
  cases hr : CmtTcp.passiveOpen tcp log (a.withObjects o stream snd rcv recvb) with
  | error e =>
    rw [hr] at hopen
    refine iff_of_false ?_ fun hboth => hout.of_error hr hboth.2
    rintro ⟨st'', r, h', -⟩
    cases hopen.symm.trans h'
  | ok r =>
    obtain ⟨hend, c, rfl, hstate⟩ := hout.of_ok hr
    rw [hr] at hopen
    -- the stream is in the table, so something has changed
    rw [allOrNothing_iff hopen, or_iff_left fun hsame => hne hsame.table]
    cases recvb with
    | none =>
      refine iff_of_false ?_ fun hboth => Bool.false_ne_true hboth.1
      rintro ⟨stream', c', heq, hlisten, -⟩
      obtain ⟨-, rfl⟩ := Prod.mk.inj (Option.some.inj heq)
      cases hlisten.symm.trans hstate
    | some node => exact iff_of_true ⟨stream, c, rfl, hstate, htable⟩ ⟨rfl, hend⟩

/-- The ways through `create_tcp_stream`, with what becomes of the state in each. -/
inductive CreateCases (M : Managers σ τ υ) (w : WaterLevel) (st : OpenState σ τ υ) (nodes : List Node)
    (flow : Flow) (st' : OpenState σ τ υ) : Option (Node × Node × Node) → Prop
  | noStream (hstream : st.sm.streams.Exhausted nodes) (h : st.Unchanged M st') :
      CreateCases M w st nodes flow st' none
  | noSnd (hstream : ¬st.sm.streams.Exhausted nodes) (hsnd : (M.snd.get st.snds).2 = none)
      (h : st.Unchanged M st' ↔ ¬st.sm.streams.Grows w nodes) : CreateCases M w st nodes flow st' none
  | noRcv (hstream : ¬st.sm.streams.Exhausted nodes) (hsnd : (M.snd.get st.snds).2.isSome)
      (hrcv : (M.rcv.get st.rcvs).2 = none)
      (h : st.Unchanged M st' ↔ ¬st.sm.streams.Grows w nodes ∧ ¬M.snd.grows st.snds) :
      CreateCases M w st nodes flow st' none
  | created {stream snd rcv : Node} (hstream : ¬st.sm.streams.Exhausted nodes)
      (hsnd : (M.snd.get st.snds).2.isSome) (hrcv : (M.rcv.get st.rcvs).2.isSome)
      (hrecvbs : st'.recvbs = st.recvbs) (htable : st'.InTable flow stream) (hne : st'.table ≠ st.table) :
      CreateCases M w st nodes flow st' (some (stream, snd, rcv))

/-- **What `create_tcp_stream` does.** -/
theorem createTcpStream_cases (hsnd : M.snd.Lawful) (hrcv : M.rcv.Lawful)
    (hstocked : st.sm.streams.Stocked l) (hfresh : st.sm.streams.Fresh nodes) (flow : Flow) :
    ∃ st' r, st.createTcpStream M w nodes flow = .ok (st', r) ∧ CreateCases M w st nodes flow st' r := by
  unfold createTcpStream
  rcases StreamManager.getStream_cases (w := w) hstocked hfresh with
    ⟨hstream, sm, hget, hcount⟩ | ⟨hstream, sm, stream, hget, hcount⟩
  · rw [hget]
    exact ⟨_, _, rfl, .noStream hstream ⟨rfl, hcount, rfl, rfl, rfl⟩⟩
  · rw [hget]
    dsimp only [bind, Except.bind]
    rcases hs : M.snd.get st.snds with ⟨snds, _ | snd⟩
    · -- the stream goes back
      refine ⟨_, _, rfl, .noSnd hstream (congrArg Prod.snd hs) ⟨fun h => hcount.mp h.streams, fun h => ?_⟩⟩
      exact ⟨rfl, hcount.mpr h, hsnd.get_none hs, rfl, rfl⟩
    · have hsome : (M.snd.get st.snds).2.isSome := congrArg (fun r => r.2.isSome) hs
      rcases hr : M.rcv.get st.rcvs with ⟨rcvs, _ | rcv⟩
      · -- the send part and the stream go back
        refine ⟨_, _, rfl, .noRcv hstream hsome (congrArg Prod.snd hr) ⟨fun h => ?_, fun h => ?_⟩⟩
        · exact ⟨hcount.mp h.streams, (hsnd.free_get hs).mp h.snds⟩
        · exact ⟨rfl, hcount.mpr h.1, (hsnd.free_get hs).mpr h.2, hrcv.get_none hr, rfl⟩
      · -- from here on nothing is undone any more
        refine ⟨_, _, rfl, .created hstream hsome (congrArg (fun r => r.2.isSome) hr) rfl (fun n => ?_)
          (FlowTable.insert_ne _ rfl)⟩
        have hfound := FlowTable.search_insert
          { st.table with flow := Function.update st.table.flow stream flow } stream.val n
        dsimp only at hfound
        rwa [Function.update_self] at hfound

end OpenState

/-- **Passive open is all or nothing** exactly when no stream can be had, or what is given back for want of a
send or a receive part goes to pools that have not grown, or there is a receive buffer for the stream that
`create_tcp_stream` has inserted, and the options end. -/
theorem passiveOpen_iff (M : Managers σ τ υ) (o : Objects ρ) (w : WaterLevel) (st : OpenState σ τ υ)
    (nodes l : List Node) (tcp : TcpManager) (log : List (Event ρ)) (a : Arrival ρ)
    (hsnd : M.snd.Lawful) (hrcv : M.rcv.Lawful) (hstocked : st.sm.streams.Stocked l)
    (hfresh : st.sm.streams.Fresh nodes) :
    st.AllOrNothing M o w nodes tcp log a ↔ st.OpenFits M w nodes a.seg := by
  obtain ⟨st', r, hcreate, hcases⟩ :=
    OpenState.createTcpStream_cases (w := w) hsnd hrcv hstocked hfresh a.seg.flow
  -- in each case of the code, the other cases of the condition contradict an allocation
  cases hcases with
  | noStream hstream h =>
    rw [OpenState.allOrNothing_iff_unchanged hcreate]
    exact iff_of_true h (.noStream hstream)
  | noSnd hstream hnone h =>
    rw [OpenState.allOrNothing_iff_unchanged hcreate, h]
    have hsome : ¬(M.snd.get st.snds).2.isSome := by
      rw [hnone]
      exact Bool.false_ne_true
    constructor
    · exact .noSnd hnone
    · rintro (h | ⟨-, h⟩ | ⟨h, -⟩ | ⟨-, h⟩)
      · exact absurd h hstream
      · exact h
      · exact absurd h hsome
      · exact absurd h hsome
  | noRcv hstream hsome hnone h =>
    rw [OpenState.allOrNothing_iff_unchanged hcreate, h]
    constructor
    · rintro ⟨hsm, hsnds⟩
      exact .noRcv hsome hnone hsm hsnds
    · rintro (h | ⟨h, -⟩ | ⟨-, -, hsm, hsnds⟩ | ⟨-, -, h⟩)
      · exact absurd h hstream
      · rw [h] at hsome
        cases hsome
      · exact ⟨hsm, hsnds⟩
      · rw [hnone] at h
        cases h
  | created hstream hsome hsome' hrecvbs htable hne =>
    rw [OpenState.allOrNothing_iff_opens hcreate htable hne, hrecvbs]
    constructor
    · rintro ⟨hrecvb, hoptions⟩
      exact .opens hstream hsome hsome' hrecvb hoptions
    · rintro (h | ⟨h, -⟩ | ⟨-, h, -⟩ | ⟨-, -, -, hrecvb, hoptions⟩)
      · exact absurd h hstream
      · rw [h] at hsome
        cases hsome
      · rw [h] at hsome'
        cases hsome'
      · exact ⟨hrecvb, hoptions⟩

/-- A list of free objects. -/
def listPool : PoolOps (List Node) where
  get
    | [] => ([], none)
    | node :: nodes => (nodes, some node)
  free := fun nodes node => node :: nodes
  freeCount := fun nodes => BitVec.ofNat 64 nodes.length
  grows := fun _ => False

theorem listPool_lawful : listPool.Lawful where
  get_none := by
    intro s s' h
    cases s with
    | nil => rw [← (Prod.mk.inj h).1]
    | cons node nodes => cases (Prod.mk.inj h).2
  free_get := by
    intro s s' node h
    cases s with
    | nil => cases (Prod.mk.inj h).2
    | cons node nodes =>
      obtain ⟨rfl, hnode⟩ := Prod.mk.inj h
      obtain rfl := Option.some.inj hnode
      exact iff_of_true rfl not_false

def listManagers : Managers (List Node) (List Node) (List Node) := ⟨listPool, listPool, listPool⟩

/-- Two streams, a send part, a receive part, and the given receive buffers. -/
def idleState (recvbs : List Node) : OpenState (List Node) (List Node) (List Node) where
  sm := { cnum := 0, streams := pairPool }
  snds := [0]
  rcvs := [0]
  recvbs := recvbs
  table := .create fun _ => default

def blankObjects : Objects Unit where
  stream := fun _ => default
  snd := fun _ => default
  rcv := fun _ => default
  recvb := fun _ _ => ()

/-- A SYN without options. -/
def plainSyn : Arrival Unit where
  seg := { (default : Segment) with ihl := 5, doff := 5, totLen := 40, seq := 90, syn := true }
  ts := 0
  listener := none
  streamObj := none
  sndObj := none
  rcvObj := none
  rand := 0
  recvGet := fun _ => none

theorem passiveOpen_opens :
    (idleState [0]).AllOrNothing listManagers blankObjects exactWaterLevel [] default [] plainSyn :=
  (passiveOpen_iff listManagers blankObjects exactWaterLevel (idleState [0]) [] [0, 1] default [] plainSyn
    listPool_lawful listPool_lawful pairPool_stocked (fresh_nil _)).mpr
    (.opens (fun hex => absurd hex.1 (by decide)) rfl rfl rfl (by decide))

/-- Without a receive buffer a closed stream comes out, and stays in the flow table. -/
theorem passiveOpen_leaves_closed :
    listManagers.snd.Lawful ∧ listManagers.rcv.Lawful ∧ (idleState []).sm.streams.Stocked [0, 1] ∧
      (∃ st' stream c, (idleState []).passiveOpen listManagers blankObjects exactWaterLevel [] default []
          plainSyn = .ok (st', some (stream, c)) ∧
        c.stream.state = .closed ∧ st'.InTable plainSyn.seg.flow stream) ∧
      ¬(idleState []).AllOrNothing listManagers blankObjects exactWaterLevel [] default [] plainSyn := by
  have htable : ∀ st : OpenState (List Node) (List Node) (List Node),
      st.table = FlowTable.insert { (idleState []).table with
        flow := Function.update (idleState []).table.flow 0 plainSyn.seg.flow } 0 →
      st.InTable plainSyn.seg.flow 0 := by
    intro st htable n
    rw [htable]
    exact FlowTable.search_insert { (idleState []).table with
      flow := Function.update (idleState []).table.flow 0 plainSyn.seg.flow } 0 n
  refine ⟨listPool_lawful, listPool_lawful, pairPool_stocked, ⟨_, 0, _, rfl, rfl, htable _ rfl⟩, ?_⟩
  obtain ⟨st, hcreate, hst, hrecvbs⟩ : ∃ st, (idleState []).createTcpStream listManagers exactWaterLevel []
      plainSyn.seg.flow = .ok (st, some (0, 0, 0)) ∧ st.InTable plainSyn.seg.flow 0 ∧ st.recvbs = [] :=
    ⟨_, rfl, htable _ rfl, rfl⟩
  have hne : st.table ≠ (idleState []).table := fun heq => by
    have hfound := hst 0
    rw [heq] at hfound
    cases hfound
  rw [OpenState.allOrNothing_iff_opens hcreate hst hne, hrecvbs]
  exact fun hboth => Bool.false_ne_true hboth.1

end Open

end CmtTcp
