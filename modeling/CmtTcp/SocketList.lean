import CmtTcp.Basic
import CmtTcp.Lib.ListSeg
import CmtTcp.Lib.Run
import Mathlib.Data.Finset.Option
import Mathlib.Logic.ExistsUnique

/-!
# The free list of sockets

`cmt_allocate_socket` and `cmt_socket_free` of `socket.c`, run by any number of threads that are
interleaved at the reads of the head and of the links, the stores to the links and the compare-and-swaps.
The retry loops of both go round again when the compare-and-swap has succeeded, and end when it has failed.

* `SocketSys`: the list, where each thread is, and which sockets its caller holds;
* `Troubled`: the steps that lose a socket, give one away twice or return one that was not taken;
* `SocketInv`, `SocketStep.inv`: the invariant, which all the other steps keep;
* `sockets_exclusive_iff`: along a run every socket is on the list or held by one thread, and every call
  returns what it took, exactly if no such step occurs.

As long as nothing is lost, a call that has taken a socket cannot return: it goes round until the list is
empty. So a socket that was taken never comes back, and the links that threads have read stay what they were.
-/

namespace CmtTcp

open Lib (Seg Run Guarded)

variable {σ τ : Type}

/-! ### The code -/

/-- `CMT_TCP_SOCK_UNUSED` -/
def cmtTcpSockUnused : ℤ := 0

/-- The sockets: `dummy.free_smap_link`, and the fields `free_smap_link` and `socket_type` of each. -/
structure SocketList (σ : Type) where
  head : Option σ
  link : σ → Option σ
  sockType : σ → ℤ

/-- `CASra` on `dummy.free_smap_link` -/
def SocketList.casra [DecidableEq σ] (l : SocketList σ) (old new : Option σ) : SocketList σ × ℤ :=
  if l.head = old then ({ l with head := new }, 1) else (l, 0)

/-- Where a thread is. `taken` and `pushed` are not in the code: the sockets that this call of
`cmt_allocate_socket` has swapped off the list, and whether this call of `cmt_socket_free` has swapped its
socket in. -/
inductive SocketPc (σ : Type)
  | idle
  /-- `socket = dummy.free_smap_link` is next -/
  | allocHead (socktype : ℤ) (taken : List σ)
  /-- the read of `socket->free_smap_link` is next -/
  | allocNext (socktype : ℤ) (taken : List σ) (socket : σ)
  /-- the compare-and-swap is next -/
  | allocCas (socktype : ℤ) (taken : List σ) (socket : σ) (next : Option σ)
  /-- `old = dummy.free_smap_link` is next -/
  | freeHead (socket : σ) (pushed : Bool)
  /-- `socket->free_smap_link = old` is next -/
  | freeStore (socket : σ) (pushed : Bool) (old : Option σ)
  /-- the compare-and-swap is next -/
  | freeCas (socket : σ) (pushed : Bool) (old : Option σ)

/-- A call of `cmt_allocate_socket` that returned: its result, what it had taken, and the head of the list
when it was read last. -/
structure SocketReturn (σ : Type) where
  result : Option σ
  taken : List σ
  head : Option σ

/-- The list, the threads, the sockets their callers hold, and the calls that returned. -/
structure SocketSys (σ τ : Type) where
  list : SocketList σ
  pc : τ → SocketPc σ
  owned : τ → Finset σ
  returns : List (SocketReturn σ)

variable [DecidableEq σ] [DecidableEq τ]

/-- A thread moves on. -/
def SocketSys.goto (S : SocketSys σ τ) (t : τ) (pc : SocketPc σ) : SocketSys σ τ :=
  { S with pc := Function.update S.pc t pc }

/-- `cmt_allocate_socket` returns to its caller. -/
def SocketSys.return (S : SocketSys σ τ) (t : τ) (r : SocketReturn σ) : SocketSys σ τ :=
  { S.goto t .idle with
    owned := Function.update S.owned t (S.owned t ∪ r.result.toFinset)
    returns := S.returns ++ [r] }

/-- The next step of a thread inside its function. -/
def SocketSys.next (S : SocketSys σ τ) (t : τ) : Option (SocketSys σ τ) :=
  match S.pc t with
  | .idle => none
  | .allocHead socktype taken =>
    match S.list.head with
    | none => some (S.return t { result := none, taken := taken, head := none })
    | some socket => some (S.goto t (.allocNext socktype taken socket))
  | .allocNext socktype taken socket =>
    some (S.goto t (.allocCas socktype taken socket (S.list.link socket)))
  | .allocCas socktype taken socket next =>
    let (list, success) := S.list.casra (some socket) next
    -- the loop goes round as long as the swap succeeds
    if success ≠ 0 then
      some ({ S with list := list }.goto t (.allocHead socktype (socket :: taken)))
    else
      -- the swap has failed, and the call returns the socket it has read
      let list := { list with sockType := Function.update list.sockType socket socktype }
      some ({ S with list := list }.return t
        { result := some socket, taken := taken, head := some socket })
  | .freeHead socket pushed => some (S.goto t (.freeStore socket pushed S.list.head))
  | .freeStore socket pushed old =>
    let list := { S.list with link := Function.update S.list.link socket old }
    some ({ S with list := list }.goto t (.freeCas socket pushed old))
  | .freeCas socket _ old =>
    let (list, success) := S.list.casra old (some socket)
    -- as in `cmt_allocate_socket`; when the swap fails, the socket is on no list
    if success ≠ 0 then some ({ S with list := list }.goto t (.freeHead socket true))
    else some ({ S with list := list }.goto t .idle)

/-- `cmt_socket_free` is called. A socket that is unused already stays with its caller. -/
def SocketSys.free (S : SocketSys σ τ) (t : τ) (socket : σ) : SocketSys σ τ :=
  if S.list.sockType socket = cmtTcpSockUnused then S
  else
    let list := { S.list with
      sockType := Function.update S.list.sockType socket cmtTcpSockUnused }
    { S with
      list := list
      owned := Function.update S.owned t ((S.owned t).erase socket) }.goto t (.freeHead socket false)

inductive SocketLabel (σ τ : Type)
  | alloc (t : τ) (socktype : ℤ)
  | free (t : τ) (socket : σ)
  | next (t : τ)

/-- A step: a thread calls one of the functions, `cmt_socket_free` on a socket it holds, or goes on. -/
inductive SocketStep : SocketSys σ τ → SocketLabel σ τ → SocketSys σ τ → Prop
  | alloc {S : SocketSys σ τ} {t : τ} {socktype : ℤ} (h : S.pc t = .idle) :
      SocketStep S (.alloc t socktype) (S.goto t (.allocHead socktype []))
  | free {S : SocketSys σ τ} {t : τ} {socket : σ} (h : S.pc t = .idle)
      (howned : socket ∈ S.owned t) : SocketStep S (.free t socket) (S.free t socket)
  | next {S S' : SocketSys σ τ} {t : τ} (h : S.next t = some S') : SocketStep S (.next t) S'

/-! ### Who has a socket -/

/-- The sockets that a call has in its hand. -/
def SocketPc.hand : SocketPc σ → List σ
  | .idle => []
  | .allocHead _ taken | .allocNext _ taken _ | .allocCas _ taken _ _ => taken
  | .freeHead socket pushed | .freeStore socket pushed _ | .freeCas socket pushed _ =>
    if pushed then [] else [socket]

/-- A thread holds a socket: its caller has it, or the call that is under way. -/
def SocketSys.Holds (S : SocketSys σ τ) (t : τ) (s : σ) : Prop := s ∈ S.owned t ∨ s ∈ (S.pc t).hand

/-- Every socket is on the free list, or one thread holds it; never both. -/
def SocketSys.Exclusive (S : SocketSys σ τ) : Prop :=
  ∃ l, Seg S.list.link S.list.head l none ∧
    ∀ s, (s ∈ l ∧ ∀ t, ¬S.Holds t s) ∨ (s ∉ l ∧ ∃! t, S.Holds t s)

/-- What a call may return: the one socket it has taken, or `NULL` when the list was empty. -/
def SocketReturn.Proper (r : SocketReturn σ) : Prop :=
  match r.result with
  | some s => r.taken = [s]
  | none => r.head = none

/-- Every thread is outside the two functions, and the sockets are in order. -/
structure SocketSys.Initial (S : SocketSys σ τ) : Prop where
  idle : ∀ t, S.pc t = .idle
  exclusive : S.Exclusive
  returns : S.returns = []

/-- The sockets that a call of `cmt_allocate_socket` has taken. -/
def SocketPc.takenList : SocketPc σ → List σ
  | .allocHead _ taken | .allocNext _ taken _ | .allocCas _ taken _ _ => taken
  | _ => []

/-- Some call of `cmt_allocate_socket` has taken the socket. -/
def SocketSys.Taken (S : SocketSys σ τ) (s : σ) : Prop := ∃ t, s ∈ (S.pc t).takenList

/-- The sockets are exclusive, and the results proper. -/
def SocketSys.Sound (S : SocketSys σ τ) : Prop := S.Exclusive ∧ ∀ r ∈ S.returns, r.Proper

/-- The next step of the thread is one of those that spoil the sockets. -/
def Troubled (S : SocketSys σ τ) : SocketLabel σ τ → Prop
  | .next t =>
    match S.pc t with
    -- the list is empty when a call of `cmt_allocate_socket` comes back to it
    | .allocHead _ taken => S.list.head = none ∧ taken ≠ []
    -- its compare-and-swap fails
    | .allocCas _ _ socket _ => S.list.head ≠ some socket
    -- the store goes into a socket that has been put on the list, and that nobody has taken
    | .freeStore socket pushed _ => pushed = true ∧ ¬S.Taken socket
    -- the first compare-and-swap of `cmt_socket_free` fails, or a later one succeeds
    | .freeCas _ pushed old => if pushed then S.list.head = old else S.list.head ≠ old
    | _ => False
  | _ => False

/-! ### The invariant -/

omit [DecidableEq σ] in
/-- The sockets that a call has taken are in its hand. -/
theorem SocketPc.hand_of_taken {pc : SocketPc σ} {s : σ} (h : s ∈ pc.takenList) : s ∈ pc.hand := by
  cases pc with
  | allocHead _ _ => exact h
  | allocNext _ _ _ => exact h
  | allocCas _ _ _ _ => exact h
  | idle => cases h
  | freeHead _ _ => cases h
  | freeStore _ _ _ => cases h
  | freeCas _ _ _ => cases h

/-- A parked socket is on the list `l`, or some call has taken it. -/
def SocketSys.Parked (S : SocketSys σ τ) (l : List σ) (s : σ) : Prop := s ∈ l ∨ S.Taken s

/-- What a thread knows at each point. Its copy of the head may be an old one; but if that socket is on the
list still, the link that was read from it is in place. -/
def SocketSys.PcOk (S : SocketSys σ τ) (l : List σ) : SocketPc σ → Prop
  | .idle | .allocHead _ _ => True
  | .allocNext _ taken socket => S.Parked l socket ∧ socket ∉ taken
  | .allocCas _ taken socket next =>
    S.Parked l socket ∧ socket ∉ taken ∧ (socket ∈ l → S.list.link socket = next)
  | .freeHead socket pushed => pushed → S.Parked l socket
  -- the head that was read stands in front of a socket that is on the list, or is that socket
  | .freeStore socket pushed old => pushed →
    S.Parked l socket ∧ ∀ l₂, socket :: l₂ <:+ l → ∃ o, old = some o ∧ o ∉ l₂
  | .freeCas socket pushed old => if pushed then S.Taken socket else S.list.link socket = old

/-- The invariant of the free list, where the list is `l`. -/
structure SocketSys.SocketInv (S : SocketSys σ τ) (l : List σ) : Prop where
  seg : Seg S.list.link S.list.head l none
  nodup : l.Nodup
  free : ∀ s ∈ l, ∀ t, ¬S.Holds t s
  kept : ∀ s, s ∉ l → ∃ t, S.Holds t s
  one : ∀ s t t', S.Holds t s → S.Holds t' s → t = t'
  apart : ∀ t, ∀ s ∈ (S.pc t).hand, s ∉ S.owned t
  pcs : ∀ t, S.PcOk l (S.pc t)
  /-- `NULL` is all that calls have returned -/
  returns : ∀ r ∈ S.returns, r.result = none ∧ r.taken = [] ∧ r.head = none

section Invariant

variable {S S' : SocketSys σ τ} {l : List σ} {t u : τ} {s socket : σ} {pc : SocketPc σ}
  {lb : SocketLabel σ τ}

omit [DecidableEq τ] in
theorem SocketSys.SocketInv.sound (h : S.SocketInv l) : S.Sound := by
  refine ⟨⟨l, h.seg, fun s => ?_⟩, fun r hr => ?_⟩
  · by_cases hs : s ∈ l
    · exact .inl ⟨hs, h.free s hs⟩
    · obtain ⟨t, ht⟩ := h.kept s hs
      exact .inr ⟨hs, t, ht, fun u hu => h.one s u t hu ht⟩
  · obtain ⟨hresult, -, hhead⟩ := h.returns r hr
    unfold SocketReturn.Proper
    rw [hresult]
    exact hhead

omit [DecidableEq σ] in
theorem goto_pc_self : (S.goto t pc).pc t = pc := Function.update_self _ _ _

omit [DecidableEq σ] in
theorem goto_pc_of_ne (h : u ≠ t) : (S.goto t pc).pc u = S.pc u := Function.update_of_ne h _ _

omit [DecidableEq σ] in
/-- What holds of the thread that moves on, and of the others where they are. -/
theorem forall_goto {P : τ → SocketPc σ → Prop} (ht : P t pc) (hothers : ∀ u, u ≠ t → P u (S.pc u))
    (u : τ) : P u ((S.goto t pc).pc u) := by
  by_cases hu : u = t
  · rw [hu, goto_pc_self]
    exact ht
  · rw [goto_pc_of_ne hu]
    exact hothers u hu

omit [DecidableEq σ] in
/-- What was taken stays taken when a thread moves on that keeps what it has taken. -/
theorem SocketSys.Taken.goto (h : S.Taken s) (hkeep : s ∈ (S.pc t).takenList → s ∈ pc.takenList) :
    (S.goto t pc).Taken s := by
  obtain ⟨u, hu⟩ := h
  refine ⟨u, ?_⟩
  by_cases heq : u = t
  · subst heq
    rw [goto_pc_self]
    exact hkeep hu
  · rwa [goto_pc_of_ne heq]

omit [DecidableEq σ] [DecidableEq τ] in
/-- What a thread knows lasts when what was taken stays taken, no parked socket comes back to the list or
changes places on it, and the links it relies on are left alone. -/
theorem SocketSys.PcOk.mono {l' : List σ} (h : S.PcOk l pc) (htaken : ∀ s, S.Taken s → S'.Taken s)
    (hleft : ∀ s ∈ l, s ∈ l' ∨ S'.Taken s)
    (hlist : ∀ s l₂, s :: l₂ <:+ l' → S.Parked l s → s :: l₂ <:+ l ∧ S'.list.link s = S.list.link s)
    (hhand : ∀ s old, pc = .freeCas s false old → S'.list.link s = S.list.link s) : S'.PcOk l' pc := by
  have hparked : ∀ s, S.Parked l s → S'.Parked l' s := fun s hs => hs.elim (hleft s) fun h => .inr (htaken s h)
  cases pc with
  | idle => trivial
  | allocHead _ _ => trivial
  | allocNext _ taken socket => exact ⟨hparked socket h.1, h.2⟩
  | allocCas _ taken socket next =>
    obtain ⟨hp, hnot, hlink⟩ := h
    refine ⟨hparked socket hp, hnot, fun hmem => ?_⟩
    obtain ⟨l₁, l₂, hl'⟩ := List.append_of_mem hmem
    obtain ⟨hsuffix, hsame⟩ := hlist socket l₂ ⟨l₁, hl'.symm⟩ hp
    exact hsame.trans (hlink (hsuffix.subset List.mem_cons_self))
  | freeHead socket pushed => exact fun hpushed => hparked socket (h hpushed)
  | freeStore socket pushed old =>
    intro hpushed
    obtain ⟨hp, hbehind⟩ := h hpushed
    exact ⟨hparked socket hp, fun l₂ hl₂ => hbehind l₂ (hlist socket l₂ hl₂ hp).1⟩
  | freeCas socket pushed old =>
    cases pushed with
    | true => exact htaken socket h
    | false => exact (hhand socket old rfl).trans h

omit [DecidableEq σ] [DecidableEq τ] in
/-- A step that leaves the list alone and every socket with its holder. -/
theorem SocketSys.SocketInv.of_holds (h : S.SocketInv l) (hhead : S'.list.head = S.list.head)
    (hlink : S'.list.link = S.list.link) (hholds : ∀ u s, S'.Holds u s ↔ S.Holds u s)
    (htaken : ∀ u, (S'.pc u).takenList = (S.pc u).takenList)
    (hapart : ∀ u, ∀ s ∈ (S'.pc u).hand, s ∉ S'.owned u) (hpcs : ∀ u, S.PcOk l (S'.pc u))
    (hreturns : ∀ r ∈ S'.returns, r.result = none ∧ r.taken = [] ∧ r.head = none) :
    S'.SocketInv l where
  seg := by
    rw [hhead, hlink]
    exact h.seg
  nodup := h.nodup
  free := fun s hs u hu => h.free s hs u ((hholds u s).mp hu)
  kept := fun s hs => by
    obtain ⟨u, hu⟩ := h.kept s hs
    exact ⟨u, (hholds u s).mpr hu⟩
  one := fun s u u' hu hu' => h.one s u u' ((hholds u s).mp hu) ((hholds u' s).mp hu')
  apart := hapart
  -- the links and what was taken are as they were, so what the threads know lasts
  pcs := fun u => (hpcs u).mono (fun s ⟨u', hu'⟩ => ⟨u', (htaken u').symm ▸ hu'⟩) (fun s hs => .inl hs)
    (fun s l₂ hs _ => ⟨hs, congrFun hlink s⟩) fun s old _ => congrFun hlink s
  returns := hreturns

omit [DecidableEq σ] in
/-- A thread that moves on with the same sockets in hand keeps the invariant. -/
theorem SocketSys.SocketInv.goto (h : S.SocketInv l) (hhand : pc.hand = (S.pc t).hand)
    (htaken : pc.takenList = (S.pc t).takenList) (hpc : S.PcOk l pc) :
    (S.goto t pc).SocketInv l := by
  have hhands : ∀ u, ((S.goto t pc).pc u).hand = (S.pc u).hand :=
    forall_goto (P := fun u pc => pc.hand = (S.pc u).hand) hhand fun _ _ => rfl
  refine h.of_holds rfl rfl (fun u s => ?_) ?_ (fun u s hs => ?_) ?_ h.returns
  · unfold SocketSys.Holds
    rw [hhands]
    exact Iff.rfl
  · exact forall_goto (P := fun u pc => pc.takenList = (S.pc u).takenList) htaken fun _ _ => rfl
  · rw [hhands] at hs
    exact h.apart u s hs
  · exact forall_goto (P := fun _ pc => S.PcOk l pc) hpc fun u _ => h.pcs u

/-- `cmt_allocate_socket` returns `NULL` with nothing taken. -/
theorem SocketSys.SocketInv.return_null (h : S.SocketInv l) (hhand : (S.pc t).hand = [])
    (htaken : (S.pc t).takenList = []) :
    (S.return t { result := none, taken := [], head := none }).SocketInv l := by
  have hidle : (S.goto t .idle).SocketInv l := h.goto hhand.symm htaken.symm trivial
  have howned : (S.return t { result := none, taken := [], head := none }).owned = S.owned := by
    show Function.update S.owned t (S.owned t ∪ (none : Option σ).toFinset) = S.owned
    rw [Option.toFinset_none, Finset.union_empty, Function.update_eq_self]
  refine hidle.of_holds rfl rfl (fun u s => ?_) (fun _ => rfl) (fun u s hs => ?_) hidle.pcs
    fun r' hr' => ?_
  · unfold SocketSys.Holds
    rw [howned]
    exact Iff.rfl
  · rw [howned]
    exact hidle.apart u s hs
  · rcases List.mem_append.mp hr' with hr' | hr'
    · exact h.returns r' hr'
    · obtain rfl := List.mem_singleton.mp hr'
      exact ⟨rfl, rfl, rfl⟩

/-- `cmt_socket_free` takes the socket from its caller. -/
theorem SocketSys.SocketInv.free_call (h : S.SocketInv l) (hidle : S.pc t = .idle)
    (howned : socket ∈ S.owned t) : (S.free t socket).SocketInv l := by
  unfold SocketSys.free
  split
  · exact h
  · refine h.of_holds rfl rfl (fun u s => ?_) ?_ ?_ ?_ h.returns
    · unfold SocketSys.Holds
      by_cases hu : u = t
      · rw [hu, goto_pc_self, hidle]
        show s ∈ Function.update S.owned t ((S.owned t).erase socket) t ∨ s ∈ [socket] ↔
          s ∈ S.owned t ∨ s ∈ []
        rw [Function.update_self, Finset.mem_erase, List.mem_singleton]
        -- the socket goes from the caller into the hand of the call
        by_cases hs : s = socket
        · subst hs
          exact iff_of_true (.inr rfl) (.inl howned)
        · simp [hs]
      · rw [goto_pc_of_ne hu]
        show s ∈ Function.update S.owned t ((S.owned t).erase socket) u ∨ _ ↔ _
        rw [Function.update_of_ne hu]
    · refine forall_goto (P := fun u pc => pc.takenList = (S.pc u).takenList) ?_ fun _ _ => rfl
      rw [hidle]
      rfl
    · refine forall_goto (P := fun u pc => ∀ s ∈ pc.hand,
        s ∉ Function.update S.owned t ((S.owned t).erase socket) u) ?_ fun u hu s hs => ?_
      · intro s hs
        obtain rfl := List.mem_singleton.mp hs
        rw [Function.update_self]
        exact Finset.notMem_erase _ _
      · rw [Function.update_of_ne hu]
        exact h.apart u s hs
    · exact forall_goto (P := fun _ pc => S.PcOk l pc) (fun hpushed => by cases hpushed) fun u _ => h.pcs u

/-- The compare-and-swap of `cmt_allocate_socket` takes the first socket off the list. -/
theorem SocketSys.SocketInv.take {socktype : ℤ} {taken : List σ} {next : Option σ}
    (h : S.SocketInv (socket :: l)) (hpc : S.pc t = .allocCas socktype taken socket next) :
    ({ S with list := { S.list with head := S.list.link socket } }.goto t
      (.allocHead socktype (socket :: taken))).SocketInv l := by
  obtain ⟨hnot, hnodup⟩ := List.nodup_cons.mp h.nodup
  have hhand : (S.pc t).hand = taken := by rw [hpc]; rfl
  -- the thread holds one socket more
  have hholds : ∀ u s, ({ S with list := { S.list with head := S.list.link socket } }.goto t
      (.allocHead socktype (socket :: taken))).Holds u s ↔ S.Holds u s ∨ u = t ∧ s = socket := by
    intro u s
    unfold SocketSys.Holds
    by_cases hu : u = t
    · subst hu
      rw [goto_pc_self, hhand]
      show s ∈ S.owned u ∨ s ∈ socket :: taken ↔ _
      rw [List.mem_cons, and_iff_right rfl]
      tauto
    · rw [goto_pc_of_ne hu]
      constructor
      · exact fun hs => .inl hs
      · rintro (hs | ⟨heq, -⟩)
        · exact hs
        · exact absurd heq hu
  have htakes : ∀ s, S.Taken s ∨ s = socket →
      ({ S with list := { S.list with head := S.list.link socket } }.goto t
        (.allocHead socktype (socket :: taken))).Taken s := by
    rintro s (hs | rfl)
    · refine SocketSys.Taken.goto hs fun hmem => ?_
      rw [hpc] at hmem
      exact List.mem_cons_of_mem _ hmem
    · refine ⟨t, ?_⟩
      rw [goto_pc_self]
      exact List.mem_cons_self
  exact {
    seg := h.seg.2
    nodup := hnodup
    free := by
      intro s hs u hu
      rcases (hholds u s).mp hu with hold | ⟨-, rfl⟩
      · exact h.free s (List.mem_cons_of_mem _ hs) u hold
      · exact hnot hs
    kept := by
      intro s hs
      by_cases heq : s = socket
      · exact ⟨t, (hholds t s).mpr (.inr ⟨rfl, heq⟩)⟩
      · obtain ⟨u, hu⟩ := h.kept s fun hmem => (List.mem_cons.mp hmem).elim heq hs
        exact ⟨u, (hholds u s).mpr (.inl hu)⟩
    one := by
      intro s u u' hu hu'
      -- nobody held the socket that was taken, and nobody else does now
      have hfree := h.free socket List.mem_cons_self
      rcases (hholds u s).mp hu with hold | ⟨rfl, rfl⟩
      · rcases (hholds u' s).mp hu' with hold' | ⟨-, rfl⟩
        · exact h.one s u u' hold hold'
        · exact absurd hold (hfree u)
      · rcases (hholds u' s).mp hu' with hold' | ⟨rfl, -⟩
        · exact absurd hold' (hfree u')
        · rfl
    apart := by
      refine forall_goto (P := fun u pc => ∀ s ∈ pc.hand, s ∉ S.owned u) (fun s hs => ?_)
        fun u _ => h.apart u
      rcases List.mem_cons.mp hs with rfl | hs
      · exact fun howned => h.free s List.mem_cons_self t (.inl howned)
      · exact h.apart t s (hhand.symm ▸ hs)
    pcs := by
      refine forall_goto (P := fun _ pc => SocketSys.PcOk _ l pc) trivial fun u _ => ?_
      -- the list loses its first socket, and that one is taken
      refine (h.pcs u).mono (fun s hs => htakes s (.inl hs)) (fun s hs => ?_) (fun s l₂ hs _ => ?_)
        fun _ _ _ => rfl
      · exact (List.mem_cons.mp hs).symm.imp id fun heq => htakes s (.inr heq)
      · exact ⟨hs.trans (List.suffix_cons socket l), rfl⟩
    returns := h.returns }

/-- `cmt_socket_free` stores the head it has read into its socket. The socket is in its hand, or it has been
put on the list before and is off it again. -/
theorem SocketSys.SocketInv.store {old : Option σ} {pushed : Bool} (h : S.SocketInv l)
    (hpc : S.pc t = .freeStore socket pushed old) (htaken : pushed → S.Taken socket) :
    ({ S with list := { S.list with link := Function.update S.list.link socket old } }.goto t
      (.freeCas socket pushed old)).SocketInv l := by
  -- somebody holds the socket: the call that has taken it, or this one
  have hheld : ∃ u, S.Holds u socket := by
    cases pushed with
    | true =>
      obtain ⟨u, hu⟩ := htaken rfl
      exact ⟨u, .inr (SocketPc.hand_of_taken hu)⟩
    | false =>
      refine ⟨t, .inr ?_⟩
      rw [hpc]
      exact List.mem_singleton_self socket
  have hsocket : socket ∉ l := fun hmem => h.free socket hmem _ hheld.choose_spec
  have hlink : ∀ {s}, s ≠ socket → Function.update S.list.link socket old s = S.list.link s :=
    fun hne => Function.update_of_ne hne _ _
  have hhands : ∀ u, (({ S with list := { S.list with
      link := Function.update S.list.link socket old } }.goto t (.freeCas socket pushed old)).pc u).hand =
        (S.pc u).hand := by
    refine forall_goto (P := fun u pc => pc.hand = (S.pc u).hand) ?_ fun _ _ => rfl
    rw [hpc]
    rfl
  have hholds : ∀ u s, ({ S with list := { S.list with
      link := Function.update S.list.link socket old } }.goto t
        (.freeCas socket pushed old)).Holds u s ↔ S.Holds u s := by
    intro u s
    unfold SocketSys.Holds
    rw [hhands]
    exact Iff.rfl
  have htakes : ∀ s, S.Taken s → ({ S with list := { S.list with
      link := Function.update S.list.link socket old } }.goto t (.freeCas socket pushed old)).Taken s := by
    refine fun s hs => SocketSys.Taken.goto hs fun hmem => ?_
    rw [hpc] at hmem
    cases hmem
  exact {
    seg := h.seg.congr fun s hs => hlink (ne_of_mem_of_not_mem hs hsocket)
    nodup := h.nodup
    free := fun s hs u hu => h.free s hs u ((hholds u s).mp hu)
    kept := fun s hs => by
      obtain ⟨u, hu⟩ := h.kept s hs
      exact ⟨u, (hholds u s).mpr hu⟩
    one := fun s u u' hu hu' => h.one s u u' ((hholds u s).mp hu) ((hholds u' s).mp hu')
    apart := fun u s hs => by
      rw [hhands] at hs
      exact h.apart u s hs
    pcs := by
      refine forall_goto (P := fun _ pc => SocketSys.PcOk _ l pc) ?_ fun u hu => ?_
      · cases pushed with
        | true => exact htakes socket (htaken rfl)
        | false => exact Function.update_self _ _ _
      · -- the links of the list are left alone
        refine (h.pcs u).mono htakes (fun s hs => .inl hs) (fun s l₂ hs _ => ⟨hs, ?_⟩)
          fun s old' hpcu => hlink ?_
        · exact hlink (ne_of_mem_of_not_mem (hs.subset List.mem_cons_self) hsocket)
        · -- the other socket that is about to be put on the list is in another hand
          rintro rfl
          have hother : S.Holds u s := by
            refine .inr ?_
            rw [hpcu]
            exact List.mem_singleton_self s
          cases pushed with
          | true =>
            obtain ⟨v, hv⟩ := htaken rfl
            obtain rfl := h.one s u v hother (.inr (SocketPc.hand_of_taken hv))
            rw [hpcu] at hv
            cases hv
          | false =>
            refine hu (h.one s u t hother (.inr ?_))
            rw [hpc]
            exact List.mem_singleton_self s
    returns := h.returns }

omit [DecidableEq σ] in
/-- The first compare-and-swap of `cmt_socket_free` puts the socket in front of the list. -/
theorem SocketSys.SocketInv.push (h : S.SocketInv l)
    (hpc : S.pc t = .freeCas socket false S.list.head) :
    ({ S with list := { S.list with head := some socket } }.goto t (.freeHead socket true)).SocketInv
      (socket :: l) := by
  have hhand : (S.pc t).hand = [socket] := by
    rw [hpc]
    rfl
  have hin : socket ∈ (S.pc t).hand := hhand ▸ List.mem_singleton_self socket
  have hsocket : socket ∉ l := fun hmem => h.free socket hmem t (.inr hin)
  -- the socket links to the head that the swap is about to find
  have hlink : S.list.link socket = S.list.head := by
    have hok := h.pcs t
    rw [hpc] at hok
    exact hok
  have hholds : ∀ u s, ({ S with list := { S.list with head := some socket } }.goto t
      (.freeHead socket true)).Holds u s ↔ S.Holds u s ∧ s ≠ socket := by
    intro u s
    unfold SocketSys.Holds
    by_cases hu : u = t
    · subst hu
      rw [goto_pc_self, hhand]
      show s ∈ S.owned u ∨ s ∈ [] ↔ _
      rw [List.mem_singleton, or_iff_left List.not_mem_nil]
      constructor
      · exact fun hs => ⟨.inl hs, fun heq => h.apart u socket hin (heq ▸ hs)⟩
      · exact fun hs => hs.1.resolve_right hs.2
    · rw [goto_pc_of_ne hu]
      constructor
      · intro hs
        refine ⟨hs, ?_⟩
        rintro rfl
        exact hu (h.one s u t hs (.inr hin))
      · exact fun hs => hs.1
  have htakes : ∀ s, S.Taken s → ({ S with list := { S.list with head := some socket } }.goto t
      (.freeHead socket true)).Taken s := by
    refine fun s hs => SocketSys.Taken.goto hs fun hmem => ?_
    rw [hpc] at hmem
    cases hmem
  exact {
    seg := by
      refine ⟨rfl, ?_⟩
      show Seg S.list.link (S.list.link socket) l none
      rw [hlink]
      exact h.seg
    nodup := List.nodup_cons.mpr ⟨hsocket, h.nodup⟩
    free := by
      intro s hs u hu
      obtain ⟨hold, hne⟩ := (hholds u s).mp hu
      exact h.free s ((List.mem_cons.mp hs).resolve_left hne) u hold
    kept := by
      intro s hs
      obtain ⟨u, hu⟩ := h.kept s (List.not_mem_of_not_mem_cons hs)
      exact ⟨u, (hholds u s).mpr ⟨hu, List.ne_of_not_mem_cons hs⟩⟩
    one := fun s u u' hu hu' => h.one s u u' ((hholds u s).mp hu).1 ((hholds u' s).mp hu').1
    apart := by
      refine forall_goto (P := fun u pc => ∀ s ∈ pc.hand, s ∉ S.owned u) (fun s hs => ?_)
        fun u _ => h.apart u
      cases hs
    pcs := by
      refine forall_goto (P := fun _ pc => SocketSys.PcOk _ (socket :: l) pc)
        (fun _ => .inl List.mem_cons_self) fun u _ => ?_
      refine (h.pcs u).mono htakes (fun s hs => .inl (List.mem_cons_of_mem _ hs)) (fun s l₂ hs hp => ?_)
        fun _ _ _ => rfl
      rcases List.suffix_cons_iff.mp hs with heq | hsuffix
      · -- the socket that comes to the list was in this thread's hand, and not parked
        obtain ⟨rfl, rfl⟩ := List.cons.inj heq
        rcases hp with hmem | ⟨v, hv⟩
        · exact absurd hmem hsocket
        · obtain rfl := h.one s v t (.inr (SocketPc.hand_of_taken hv)) (.inr hin)
          rw [hpc] at hv
          cases hv
      · exact ⟨hsuffix, rfl⟩
    returns := h.returns }

omit [DecidableEq σ] [DecidableEq τ] in
/-- The head of the list is its first socket. -/
theorem SocketSys.SocketInv.head_eq (h : S.SocketInv l) (hhead : S.list.head = some s) :
    ∃ l', l = s :: l' := by
  cases l with
  | nil => cases hhead.symm.trans h.seg
  | cons s' l' =>
    obtain rfl := Option.some.inj (hhead.symm.trans h.seg.1)
    exact ⟨l', rfl⟩

/-- Reading the head, a socket of the list is found, or the list is empty and nothing was taken. -/
theorem SocketSys.SocketInv.next_allocHead {socktype : ℤ} {taken : List σ} (h : S.SocketInv l)
    (hpc : S.pc t = .allocHead socktype taken) (hguard : ¬(S.list.head = none ∧ taken ≠ []))
    (hnext : S.next t = some S') : ∃ l', S'.SocketInv l' := by
  unfold SocketSys.next at hnext
  rw [hpc] at hnext
  dsimp only at hnext
  cases hhead : S.list.head with
  | none =>
    rw [hhead] at hnext
    obtain rfl : taken = [] := not_not.mp fun hne => hguard ⟨hhead, hne⟩
    obtain rfl := Option.some.inj hnext
    exact ⟨l, h.return_null (by rw [hpc]; rfl) (by rw [hpc]; rfl)⟩
  | some socket =>
    rw [hhead] at hnext
    obtain rfl := Option.some.inj hnext
    obtain ⟨l', rfl⟩ := h.head_eq hhead
    refine ⟨_, h.goto (by rw [hpc]; rfl) (by rw [hpc]; rfl) ⟨.inl List.mem_cons_self, fun htaken => ?_⟩⟩
    refine h.free socket List.mem_cons_self t (.inr ?_)
    rw [hpc]
    exact htaken

/-- `cmt_socket_free` reads the head. -/
theorem SocketSys.SocketInv.next_freeHead {pushed : Bool} (h : S.SocketInv l)
    (hpc : S.pc t = .freeHead socket pushed) (hnext : S.next t = some S') : ∃ l', S'.SocketInv l' := by
  have hok := h.pcs t
  rw [hpc] at hok
  unfold SocketSys.next at hnext
  rw [hpc] at hnext
  obtain rfl := Option.some.inj hnext
  refine ⟨l, h.goto (by rw [hpc]; rfl) (by rw [hpc]; rfl) fun hpushed => ⟨hok hpushed, fun l₂ hl₂ => ?_⟩⟩
  -- what stands behind the socket does not hold the first one of the list
  have hnodup := h.nodup
  cases l with
  | nil => exact absurd (hl₂.subset List.mem_cons_self) List.not_mem_nil
  | cons o l' =>
    refine ⟨o, h.seg.1, fun ho => (List.nodup_cons.mp hnodup).1 ?_⟩
    rcases List.suffix_cons_iff.mp hl₂ with heq | hsuffix
    · obtain ⟨-, rfl⟩ := List.cons.inj heq
      exact ho
    · exact hsuffix.subset (List.mem_cons_of_mem _ ho)

/-- **One step** that spoils nothing keeps the invariant. -/
theorem SocketStep.inv (hstep : SocketStep S lb S') (hguard : ¬Troubled S lb) (h : S.SocketInv l) :
    ∃ l', S'.SocketInv l' := by
  cases hstep with
  | @alloc t socktype hidle =>
    refine ⟨l, h.goto ?_ ?_ trivial⟩
    · rw [hidle]
      rfl
    · rw [hidle]
      rfl
  | free hidle howned => exact ⟨l, h.free_call hidle howned⟩
  | @next _ t hnext =>
    have hok := h.pcs t
    unfold Troubled at hguard
    dsimp only at hguard
    -- one case for each point of the two loops
    cases hpc : S.pc t with
    | idle =>
      unfold SocketSys.next at hnext
      rw [hpc] at hnext
      cases hnext
    | allocHead socktype taken =>
      rw [hpc] at hguard
      exact h.next_allocHead hpc hguard hnext
    | allocNext socktype taken socket =>
      rw [hpc] at hok
      unfold SocketSys.next at hnext
      rw [hpc] at hnext
      obtain rfl := Option.some.inj hnext
      exact ⟨l, h.goto (by rw [hpc]; rfl) (by rw [hpc]; rfl) ⟨hok.1, hok.2, fun _ => rfl⟩⟩
    | allocCas socktype taken socket next =>
      rw [hpc] at hok hguard
      have hhead : S.list.head = some socket := not_not.mp hguard
      unfold SocketSys.next at hnext
      rw [hpc] at hnext
      dsimp only at hnext
      rw [SocketList.casra, if_pos hhead, if_pos Int.one_ne_zero] at hnext
      obtain rfl := Option.some.inj hnext
      obtain ⟨l', rfl⟩ := h.head_eq hhead
      obtain rfl := hok.2.2 List.mem_cons_self
      exact ⟨l', h.take hpc⟩
    | freeHead socket pushed => exact h.next_freeHead hpc hnext
    | freeStore socket pushed old =>
      rw [hpc] at hguard
      unfold SocketSys.next at hnext
      rw [hpc] at hnext
      obtain rfl := Option.some.inj hnext
      exact ⟨l, h.store hpc fun hpushed => not_not.mp fun htaken => hguard ⟨hpushed, htaken⟩⟩
    | freeCas socket pushed old =>
      rw [hpc] at hguard
      unfold SocketSys.next at hnext
      rw [hpc] at hnext
      dsimp only at hnext
      cases pushed with
      | true =>
        -- the socket is off the list again, and the call returns
        have hhead : S.list.head ≠ old := hguard
        rw [SocketList.casra, if_neg hhead, if_neg (not_not.mpr rfl)] at hnext
        obtain rfl := Option.some.inj hnext
        exact ⟨l, h.goto (by rw [hpc]; rfl) (by rw [hpc]; rfl) trivial⟩
      | false =>
        obtain rfl : S.list.head = old := not_not.mp hguard
        rw [SocketList.casra, if_pos rfl, if_pos Int.one_ne_zero] at hnext
        obtain rfl := Option.some.inj hnext
        exact ⟨_, h.push hpc⟩

/-! ### The steps that spoil the sockets -/

omit [DecidableEq σ] [DecidableEq τ] in
/-- A socket that is on no list and in nobody's hand is lost. -/
theorem SocketSys.not_exclusive_of_lost {l : List σ} (hseg : Seg S.list.link S.list.head l none) (hs : s ∉ l)
    (hnobody : ∀ t, ¬S.Holds t s) : ¬S.Exclusive := by
  rintro ⟨l', hseg', hall⟩
  obtain rfl := hseg.unique hseg'
  rcases hall s with ⟨hmem, -⟩ | ⟨-, t, ht, -⟩
  · exact hs hmem
  · exact hnobody t ht

omit [DecidableEq σ] in
/-- A thread that goes home with a socket in its hand, and does not give it to its caller, loses it. -/
theorem SocketSys.SocketInv.lost (h : S.SocketInv l) (hs : s ∈ (S.pc t).hand) (hlist : S'.list = S.list)
    (hpc : S'.pc = Function.update S.pc t .idle) (howned : ∀ u, S'.owned u = S.owned u) : ¬S'.Exclusive := by
  refine SocketSys.not_exclusive_of_lost (l := l) (s := s) (hlist ▸ h.seg)
    (fun hmem => h.free s hmem t (.inr hs)) fun u hu => ?_
  unfold SocketSys.Holds at hu
  rw [howned, hpc] at hu
  by_cases heq : u = t
  · subst heq
    rw [Function.update_self] at hu
    rcases hu with hu | hu
    · exact h.apart u s hs hu
    · cases hu
  · rw [Function.update_of_ne heq] at hu
    exact heq (h.one s u t hu (.inr hs))

omit [DecidableEq τ] in
/-- With the head that was read before stored into a socket that is on the list, what stands behind that
socket is not what it was. -/
theorem seg_spoiled {link : σ → Option σ} {head : Option σ} {l l₁ l₂ : List σ} {o : σ}
    (h : Seg link head (l₁ ++ s :: l₂) none) (ho : o ∉ l₂)
    (h' : Seg (Function.update link s (some o)) head l none) : ¬∀ x, x ∈ l ↔ x ∈ l₁ ++ s :: l₂ := by
  intro hsame
  obtain ⟨m₁, m₂, rfl⟩ := List.append_of_mem ((hsame s).mpr (by simp))
  have hm := List.nodup_append.mp h'.nodup
  have hs₁ : s ∉ m₁ := fun hmem => hm.2.2 s hmem s List.mem_cons_self rfl
  obtain ⟨r, hm₁, rfl, hm₂⟩ := Lib.seg_append.mp h'
  obtain ⟨r, hl₁, rfl, hl₂⟩ := Lib.seg_append.mp h
  -- up to the socket nothing was written, so the two lists agree
  have hfront : Seg link head (m₁ ++ s :: l₂) none := by
    refine Lib.seg_append.mpr ⟨some s, hm₁.congr fun x hx => ?_, rfl, hl₂⟩
    exact (Function.update_of_ne (ne_of_mem_of_not_mem hx hs₁) _ _).symm
  obtain rfl : m₁ = l₁ := List.append_cancel_right (hfront.unique h)
  -- behind it stands what was the head, which is in front of it as well
  rw [Function.update_self] at hm₂
  cases m₂ with
  | nil => cases hm₂
  | cons o' m₂ =>
    obtain rfl : o = o' := Option.some.inj hm₂.1
    have hmem : o ∈ m₁ ++ s :: l₂ := (hsame o).mp (by simp)
    rcases List.mem_append.mp hmem with hmem | hmem
    · exact hm.2.2 o hmem o (by simp) rfl
    · rcases List.mem_cons.mp hmem with rfl | hmem
      · exact (List.nodup_cons.mp hm.2.1).1 List.mem_cons_self
      · exact ho hmem

/-- A store into a socket that has been put on the list and is still there. -/
theorem SocketSys.SocketInv.spoiled {old : Option σ} (h : S.SocketInv l)
    (hpc : S.pc t = .freeStore socket true old) (htaken : ¬S.Taken socket) :
    ¬({ S with list := { S.list with link := Function.update S.list.link socket old } }.goto t
      (.freeCas socket true old)).Exclusive := by
  have hok := h.pcs t
  rw [hpc] at hok
  obtain ⟨hparked, hbehind⟩ := hok rfl
  obtain ⟨l₁, l₂, rfl⟩ := List.append_of_mem (hparked.resolve_right htaken)
  obtain ⟨o, rfl, ho⟩ := hbehind l₂ ⟨l₁, rfl⟩
  rintro ⟨l', hseg, hall⟩
  refine seg_spoiled h.seg ho hseg fun x => ?_
  -- everybody holds what he held, so the same sockets would have to be on the list
  have hholds : ∀ u, ({ S with list := { S.list with
      link := Function.update S.list.link socket (some o) } }.goto t
        (.freeCas socket true (some o))).Holds u x ↔ S.Holds u x := by
    intro u
    refine or_congr Iff.rfl ?_
    refine iff_of_eq (congrArg (x ∈ ·) ?_)
    refine forall_goto (P := fun u pc => pc.hand = (S.pc u).hand) ?_ (fun _ _ => rfl) u
    rw [hpc]
    rfl
  constructor
  · intro hx
    refine not_not.mp fun hnot => ?_
    obtain ⟨u, hu⟩ := h.kept x hnot
    exact ((hall x).resolve_right fun hkept => hkept.1 hx).2 u ((hholds u).mpr hu)
  · intro hx
    refine not_not.mp fun hnot => ?_
    obtain ⟨u, hu, -⟩ := ((hall x).resolve_left fun hfree => hnot hfree.1).2
    exact h.free x hx u ((hholds u).mp hu)

omit [DecidableEq σ] in
/-- A compare-and-swap that puts a socket on the list which a call has taken. -/
theorem SocketSys.SocketInv.doubled (h : S.SocketInv l)
    (hpc : S.pc t = .freeCas socket true S.list.head) :
    ¬({ S with list := { S.list with head := some socket } }.goto t (.freeHead socket true)).Exclusive := by
  have hok := h.pcs t
  rw [hpc] at hok
  obtain ⟨u, hu⟩ : S.Taken socket := hok
  have hne : u ≠ t := by
    rintro rfl
    rw [hpc] at hu
    cases hu
  rintro ⟨l', hseg, hall⟩
  have hmem : socket ∈ l' := by
    cases l' with
    | nil => cases hseg
    | cons s l' =>
      obtain rfl := Option.some.inj hseg.1
      exact List.mem_cons_self
  refine ((hall socket).resolve_right fun hkept => hkept.1 hmem).2 u (.inr ?_)
  rw [goto_pc_of_ne hne]
  exact SocketPc.hand_of_taken hu

/-- **One step** that is among them leaves sockets that are not exclusive, or a result that is not proper. -/
theorem SocketStep.not_sound (hstep : SocketStep S lb S') (htrouble : Troubled S lb) (h : S.SocketInv l) :
    ¬S'.Sound := by
  cases hstep with
  | alloc _ => exact htrouble.elim
  | free _ _ => exact htrouble.elim
  | @next _ t hnext =>
    have hok := h.pcs t
    unfold Troubled at htrouble
    dsimp only at htrouble
    unfold SocketSys.next at hnext
    cases hpc : S.pc t with
    | idle =>
      rw [hpc] at htrouble
      exact htrouble.elim
    | allocHead socktype taken =>
      rw [hpc] at htrouble hnext
      obtain ⟨hhead, hne⟩ := htrouble
      dsimp only at hnext
      rw [hhead] at hnext
      obtain rfl := Option.some.inj hnext
      -- `NULL` is returned, and what was taken is lost
      obtain ⟨s, hs⟩ := List.exists_mem_of_ne_nil taken hne
      have hhand : s ∈ (S.pc t).hand := by
        rw [hpc]
        exact hs
      have hlost : ¬(S.return t { result := none, taken := taken, head := none }).Exclusive := by
        refine h.lost hhand rfl rfl fun u => ?_
        show Function.update S.owned t (S.owned t ∪ (none : Option σ).toFinset) u = S.owned u
        rw [Option.toFinset_none, Finset.union_empty, Function.update_eq_self]
      exact fun hsound => hlost hsound.1
    | allocNext socktype taken socket =>
      rw [hpc] at htrouble
      exact htrouble.elim
    | allocCas socktype taken socket next =>
      rw [hpc] at htrouble hnext hok
      have hhead : S.list.head ≠ some socket := htrouble
      dsimp only at hnext
      rw [SocketList.casra, if_neg hhead, if_neg (not_not.mpr rfl)] at hnext
      obtain rfl := Option.some.inj hnext
      -- the socket that is returned is not one that was taken
      intro hsound
      have hproper : taken = [socket] := hsound.2 _ (List.mem_append_right _ (List.mem_singleton_self _))
      exact hok.2.1 (hproper ▸ List.mem_singleton_self socket)
    | freeHead socket pushed =>
      rw [hpc] at htrouble
      exact htrouble.elim
    | freeStore socket pushed old =>
      rw [hpc] at htrouble hnext
      obtain ⟨rfl, htaken⟩ := htrouble
      obtain rfl := Option.some.inj hnext
      exact fun hsound => h.spoiled hpc htaken hsound.1
    | freeCas socket pushed old =>
      rw [hpc] at htrouble hnext
      dsimp only at hnext
      cases pushed with
      | true =>
        obtain rfl : S.list.head = old := htrouble
        rw [SocketList.casra, if_pos rfl, if_pos Int.one_ne_zero] at hnext
        obtain rfl := Option.some.inj hnext
        exact fun hsound => h.doubled hpc hsound.1
      | false =>
        have hhead : S.list.head ≠ old := htrouble
        rw [SocketList.casra, if_neg hhead, if_neg (not_not.mpr rfl)] at hnext
        obtain rfl := Option.some.inj hnext
        have hhand : socket ∈ (S.pc t).hand := by
          rw [hpc]
          exact List.mem_singleton_self socket
        have hlost : ¬({ S with list := (S.list, (0 : ℤ)).1 }.goto t .idle).Exclusive :=
          h.lost hhand rfl rfl fun _ => rfl
        exact fun hsound => hlost hsound.1

/-- The label says what happens. -/
theorem SocketStep.det {S'' : SocketSys σ τ} (h : SocketStep S lb S') (h' : SocketStep S lb S'') :
    S' = S'' := by
  cases h with
  | alloc _ =>
    cases h' with
    | alloc _ => rfl
  | free _ _ =>
    cases h' with
    | free _ _ => rfl
  | next h =>
    cases h' with
    | next h' => exact Option.some.inj (h.symm.trans h')

omit [DecidableEq σ] [DecidableEq τ] in
theorem SocketSys.Initial.inv (h : S.Initial) : ∃ l, S.SocketInv l := by
  obtain ⟨l, hseg, hall⟩ := h.exclusive
  -- nobody is in a call, so what each thread knows and has in hand is nothing
  have hnodup : l.Nodup := hseg.nodup
  refine ⟨l, hseg, hnodup, fun s hs => ?_, fun s hs => ?_, fun s t t' ht ht' => ?_,
    fun t s hs => ?_, fun t => ?_, fun r hr => ?_⟩
  · exact ((hall s).resolve_right fun hkept => hkept.1 hs).2
  · exact ((hall s).resolve_left fun hfree => hs hfree.1).2.exists
  · rcases hall s with hfree | hkept
    · exact absurd ht (hfree.2 t)
    · exact hkept.2.unique ht ht'
  · rw [h.idle t] at hs
    cases hs
  · rw [h.idle t]
    trivial
  · rw [h.returns] at hr
    cases hr

end Invariant

/-- **The free list of sockets.** Along a run from an initial state, every socket is at every time on the free
list or held by one thread, and every call of `cmt_allocate_socket` that returned gave its caller what it
had taken, or `NULL` on an empty list, exactly if no troubled step occurs. In such a run no call that has
taken a socket returns. -/
theorem sockets_exclusive_iff (S₀ S : SocketSys σ τ) (ls : List (SocketLabel σ τ)) (h₀ : S₀.Initial)
    (hrun : Run SocketStep S₀ ls S) :
    (Run.Along SocketStep S₀ ls (fun _ _ S' => S'.Sound) ↔ ¬Run.Occurs SocketStep S₀ ls Troubled) ∧
      (¬Run.Occurs SocketStep S₀ ls Troubled → ∀ r ∈ S.returns, r.result = none ∧ r.taken = []) := by
  refine ⟨hrun.along_iff (J := fun S => ∃ l, S.SocketInv l) (fun _ _ _ _ h h' => h.det h') h₀.inv ?_ ?_,
    fun hno r hr => ?_⟩
  · rintro T lb U ⟨l, h⟩ hstep hgood
    obtain ⟨l', h'⟩ := hstep.inv hgood h
    exact ⟨⟨l', h'⟩, h'.sound⟩
  · rintro T lb U ⟨l, h⟩ hstep htrouble
    exact hstep.not_sound htrouble h
  · obtain ⟨l, h⟩ := (hrun.guarded hno).invariant (fun S => ∃ l, S.SocketInv l) h₀.inv
      fun T lb U ⟨l, h⟩ hstep => hstep.2.inv hstep.1 h
    exact ⟨(h.returns r hr).1, (h.returns r hr).2.1⟩

/-- Two sockets on the free list, and threads that have called nothing yet. -/
def twoSockets : SocketSys (Fin 2) ℕ where
  list := { head := some 0, link := fun s => if s = 0 then some 1 else none, sockType := fun _ => 0 }
  pc := fun _ => .idle
  owned := fun _ => ∅
  returns := []

theorem twoSockets_initial : twoSockets.Initial where
  idle := fun _ => rfl
  exclusive := by
    have hall : ∀ s : Fin 2, s ∈ [0, 1] := by decide
    refine ⟨[0, 1], ⟨rfl, rfl, rfl⟩, fun s => .inl ⟨hall s, fun t ht => ?_⟩⟩
    rcases ht with ht | ht
    · cases ht
    · cases ht
  returns := rfl

/-- One socket on the free list, and the other one with the caller of thread `9`. -/
def heldSocket : SocketSys (Fin 2) ℕ where
  list := { head := some 0, link := fun _ => none, sockType := fun s => if s = 1 then 1 else 0 }
  pc := fun _ => .idle
  owned := fun t => if t = 9 then {1} else ∅
  returns := []

theorem heldSocket_initial : heldSocket.Initial where
  idle := fun _ => rfl
  exclusive := by
    have hall : ∀ s : Fin 2, s = 0 ∨ s = 1 := by decide
    have howned : ∀ t, heldSocket.owned t = if t = 9 then {1} else ∅ := fun _ => rfl
    have hholds : ∀ t s, heldSocket.Holds t s ↔ t = 9 ∧ s = 1 := by
      intro t s
      unfold SocketSys.Holds
      rw [howned]
      split <;> simp_all [heldSocket, SocketPc.hand]
    refine ⟨[0], ⟨rfl, rfl⟩, fun s => ?_⟩
    rcases hall s with rfl | rfl
    · refine .inl ⟨List.mem_singleton_self _, fun t ht => ?_⟩
      exact absurd ((hholds t 0).mp ht).2 (by decide)
    · refine .inr ⟨by decide, 9, (hholds 9 1).mpr ⟨rfl, rfl⟩, fun t ht => ((hholds t 1).mp ht).1⟩
  returns := rfl

/-- Thread `9` gives its socket back while thread `7` takes one after the other. `9` returns, since the list is
another one when it tries once more, and thread `8` returns with `NULL`; `7` keeps both sockets. -/
theorem sockets_exclusive_iff_held :
    ∃ ls S, Run SocketStep heldSocket ls S ∧ S.pc 9 = .idle ∧ S.returns ≠ [] ∧
      Run.Along SocketStep heldSocket ls (fun _ _ S' => S'.Sound) := by
  -- thread `9` puts its socket in front of the list
  have hpushed : Run (Guarded (fun S lb => ¬Troubled S lb) SocketStep) heldSocket
      [.free 9 1, .next 9, .next 9, .next 9] _ :=
    (((Run.single ⟨id, .free rfl (by decide)⟩).snoc ⟨show ¬Troubled _ (.next 9) from id, .next rfl⟩).snoc
      ⟨show ¬Troubled _ (.next 9) from fun h => absurd h.1 (by decide), .next rfl⟩).snoc
      ⟨show ¬Troubled _ (.next 9) from fun h => h rfl, .next rfl⟩
  -- thread `7` takes it off again
  have htaken := (((hpushed.snoc ⟨id, show SocketStep _ (.alloc 7 1) _ from .alloc rfl⟩).snoc
    ⟨show ¬Troubled _ (.next 7) from fun h => h.2 rfl, .next rfl⟩).snoc
    ⟨show ¬Troubled _ (.next 7) from id, .next rfl⟩).snoc
    ⟨show ¬Troubled _ (.next 7) from fun h => h rfl, .next rfl⟩
  -- thread `9` reads the head once more, and thread `7` takes that one as well
  have hboth := (((htaken.snoc ⟨show ¬Troubled _ (.next 9) from id, .next rfl⟩).snoc
    ⟨show ¬Troubled _ (.next 7) from fun h => absurd h.1 (by decide), .next rfl⟩).snoc
    ⟨show ¬Troubled _ (.next 7) from id, .next rfl⟩).snoc
    ⟨show ¬Troubled _ (.next 7) from fun h => h rfl, .next rfl⟩
  have hhome := (hboth.snoc
    ⟨show ¬Troubled _ (.next 9) from fun h => h.2 ⟨7, by decide⟩, .next rfl⟩).snoc
    ⟨show ¬Troubled _ (.next 9) from fun h : (none : Option (Fin 2)) = some 0 => (nomatch h), .next rfl⟩
  have hrun := (hhome.snoc ⟨id, show SocketStep _ (.alloc 8 1) _ from .alloc rfl⟩).snoc
    ⟨show ¬Troubled _ (.next 8) from fun h => h.2 rfl, .next rfl⟩
  have hsteps := hrun.mono fun _ _ _ hstep => hstep.2
  refine ⟨_, _, hsteps, rfl, by decide, ?_⟩
  exact (sockets_exclusive_iff heldSocket _ _ heldSocket_initial hsteps).1.mpr
    (Run.not_occurs_of_guarded (fun _ _ _ _ h h' => h.det h') hrun)

/-- A single thread that allocates takes both sockets off the list, one after the other, and returns
`NULL`: nobody has them any more. -/
theorem allocate_loses_sockets :
    twoSockets.Initial ∧ ∃ S, Run SocketStep twoSockets
        [.alloc 7 1, .next 7, .next 7, .next 7, .next 7, .next 7, .next 7, .next 7] S ∧
      (∃ r ∈ S.returns, r.result = none) ∧ ¬S.Exclusive := by
  have hrun : Run SocketStep twoSockets
      [.alloc 7 1, .next 7, .next 7, .next 7, .next 7, .next 7, .next 7, .next 7] _ :=
    (((((((Run.single (.alloc rfl)).snoc (.next rfl)).snoc (.next rfl)).snoc (.next rfl)).snoc
      (.next rfl)).snoc (.next rfl)).snoc (.next rfl)).snoc (.next rfl)
  refine ⟨twoSockets_initial, _, hrun, ⟨_, List.mem_singleton_self _, rfl⟩, ?_⟩
  rintro ⟨l, hseg, hall⟩
  have hl : l = [] := hseg.unique rfl
  rcases hall 0 with ⟨hmem, -⟩ | ⟨-, t, ht, -⟩
  · rw [hl] at hmem
    cases hmem
  · -- the thread has returned with nothing, and the others never had anything
    by_cases h7 : t = 7
    · subst h7
      rcases ht with ht | ht
      · exact absurd ht (by decide)
      · cases ht
    · rcases ht with ht | ht
      · change 0 ∈ Function.update twoSockets.owned 7 _ t at ht
        rw [Function.update_of_ne h7] at ht
        cases ht
      · change 0 ∈ SocketPc.hand (Function.update (SocketSys.pc _) 7 _ t) at ht
        simp only [Function.update_of_ne h7, goto_pc_of_ne h7] at ht
        cases ht

end CmtTcp
