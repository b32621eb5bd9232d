import CmtTcp.Basic
import CmtTcp.Lib.ListSeg
import CmtTcp.Lib.Run

/-!
# Pending ARP requests

The working list of `arp.c`: `request_ARP` puts an entry at the front, `process_ARP_reply` takes the entry
of the sender out. Calls come one after the other, so a compare-and-swap finds what was read before.

* `Listed`: the working list holds these entries, with one address each;
* `requestArp_of_pending`, `requestArp_diverges`: a request that is pending returns at once, and any other
  one that gets memory for an entry links the entry to itself for ever;
* `processArpReply_listed`, `processArpReply_last`: a reply takes the sender's entry out wherever it
  stands, but at the end of the list it runs into `NULL`;
* `arp_tracks_iff`: from the empty list the requests are tracked exactly when there are none.
-/

namespace CmtTcp

open Lib (Seg Run)

/-! ### The code -/

/-- `arp_queue_entry` -/
structure ArpQueueEntry where
  arpLink : Option Addr
  ip : U32
  nifOut : ℤ
  tsOut : U32
  flag : U8

/-- `arp_manager`, with the entries that are allocated -/
structure ArpManager where
  workingList : Addr
  heap : Addr → Option ArpQueueEntry

/-- How a call fails to return. -/
inductive ArpFault
  /-- an access through `NULL` -/
  | nullDeref
  /-- an access to an entry that was freed -/
  | wild
  /-- the rounds its loops were given are used up -/
  | outOfFuel
  deriving DecidableEq

namespace ArpManager

/-- The entry that a pointer points to. -/
def deref (g : ArpManager) : Option Addr → Except ArpFault ArpQueueEntry
  | none => .error .nullDeref
  | some a =>
    match g.heap a with
    | none => .error .wild
    | some e => .ok e

/-- The field `arp_link` of an entry. -/
def link (g : ArpManager) (a : Addr) : Option Addr := (g.heap a).bind ArpQueueEntry.arpLink

/-- Change an entry. -/
def mod (g : ArpManager) (a : Addr) (f : ArpQueueEntry → ArpQueueEntry) : ArpManager :=
  { g with heap := Function.update g.heap a ((g.heap a).map f) }

def setLink (g : ArpManager) (a : Addr) (p : Option Addr) : ArpManager :=
  g.mod a fun e => { e with arpLink := p }

/-- `CASra` on the link of an entry. -/
def casra (g : ArpManager) (a : Addr) (old new : Option Addr) : ArpManager × ℤ :=
  if g.link a = old then (g.setLink a new, 1) else (g, 0)

/-- `free` -/
def free (g : ArpManager) (a : Addr) : ArpManager :=
  { g with heap := Function.update g.heap a none }

end ArpManager

/-- The loop of `request_ARP` that looks for a request in progress. -/
def pendingLoop (g : ArpManager) (ip : U32) : (fuel : ℕ) → Option Addr → Except ArpFault Bool
  | 0, _ => .error .outOfFuel
  | _ + 1, none => .ok false
  | fuel + 1, some a => do
    let e ← g.deref (some a)
    if e.ip = ip ∧ e.flag ≠ 0 then .ok true else pendingLoop g ip fuel e.arpLink

/-- The loop of `request_ARP` that puts the entry `ent` at the front. It goes on while the
compare-and-swap succeeds. -/
def insertLoop (ent : Addr) : (fuel : ℕ) → ArpManager → Except ArpFault ArpManager
  | 0, _ => .error .outOfFuel
  | fuel + 1, g => do
    let head ← g.deref (some g.workingList)
    let oldHead := head.arpLink
    let g := g.setLink ent oldHead
    -- from the second round on, `oldHead` is `ent`, and `ent` links to itself
    let (g, success) := g.casra g.workingList oldHead (some ent)
    if success ≠ 0 then insertLoop ent fuel g else .ok g

/-- `request_ARP`; `obj` is what `cmt_pcalloc` returns. Behind the loop that puts the entry on the list stands
the call of `ARP_output` that broadcasts the request; no call gets there (`insertLoop_ne_ok`). -/
def requestArp (g : ArpManager) (ip : U32) (nif : ℤ) (curTs : U32) (obj : Option Addr) (fuel : ℕ) :
    Except ArpFault ArpManager := do
  let head ← g.deref (some g.workingList)
  let pending ← pendingLoop g ip fuel head.arpLink
  if pending then .ok g
  else
    match obj with
    -- no memory: `-1`, and nothing is on the list
    | none => .ok g
    | some ent =>
      let e : ArpQueueEntry := { arpLink := none, ip := ip, nifOut := nif, tsOut := curTs, flag := 1 }
      insertLoop ent fuel { g with heap := Function.update g.heap ent (some e) }

/-- The loop of `process_ARP_reply`, at `ent`. Behind an entry that was taken out it goes on with the one
that follows it now. -/
def replyLoop (sip : U32) : (fuel : ℕ) → ArpManager → Option Addr → Except ArpFault ArpManager
  | 0, _, _ => .error .outOfFuel
  | _ + 1, _, none => .error .nullDeref
  | fuel + 1, g, some ent => do
    let e ← g.deref (some ent)
    match e.arpLink with
    | none => .ok g
    | some old =>
      let o ← g.deref (some old)
      let next := o.arpLink
      if o.ip = sip then
        let g := g.mod old fun o => { o with flag := 0 }
        let (g, success) := g.casra ent (some old) next
        -- the compare-and-swap returns `0` or `1`, so this never happens
        if success < 0 then .ok g
        else
          let g := g.free old
          -- `ent = ent->arp_link` through the link that was just rewritten
          replyLoop sip fuel g (g.link ent)
      else replyLoop sip fuel g (g.link ent)

/-- `process_ARP_reply` -/
def processArpReply (g : ArpManager) (sip : U32) (fuel : ℕ) : Except ArpFault ArpManager :=
  replyLoop sip fuel g (some g.workingList)

/-! ### Runs -/

inductive ArpLabel
  | request (ip : U32) (nif : ℤ) (curTs : U32) (obj : Option Addr)
  | reply (sip : U32)

/-- A call, with its loops cut off after `fuel` rounds. -/
def arpCall (g : ArpManager) (fuel : ℕ) : ArpLabel → Except ArpFault ArpManager
  | .request ip nif curTs obj => requestArp g ip nif curTs obj fuel
  | .reply sip => processArpReply g sip fuel

/-- A call that returns. -/
def ArpStep (g : ArpManager) (l : ArpLabel) (g' : ArpManager) : Prop :=
  ∃ fuel, arpCall g fuel l = .ok g'

/-- The requests in progress after a call: the purpose of the working list. -/
def pendingAfter (pending : List U32) : ArpLabel → List U32
  | .request ip _ _ _ => pending.insert ip
  | .reply sip => pending.filter (· ≠ sip)

/-- The address an entry asks for. -/
def ArpManager.ip (g : ArpManager) (a : Addr) : Option U32 := (g.heap a).map ArpQueueEntry.ip

/-- The working list is `l`: no entry twice, no address twice, and every entry in use. -/
structure ArpManager.Listed (g : ArpManager) (l : List Addr) : Prop where
  head : (g.heap g.workingList).isSome
  outside : g.workingList ∉ l
  seg : Seg g.link (g.link g.workingList) l none
  used : ∀ a ∈ l, ∃ e, g.heap a = some e ∧ e.flag ≠ 0
  ips : (l.map g.ip).Nodup

/-- The working list holds exactly one entry for each of `pending`, and no other. -/
def ArpManager.Tracks (g : ArpManager) (pending : List U32) : Prop :=
  ∃ l, g.Listed l ∧ ∀ ip, some ip ∈ l.map g.ip ↔ ip ∈ pending

/-- The empty working list, as the last assignment of `init_ARP_table` leaves it with an entry at
`workingList`. The test in front of it is the wrong way round, so that the call as it stands gives up there
with an entry, and comes to the assignment with `NULL`. -/
def initArp (heap : Addr → Option ArpQueueEntry) (workingList : Addr) (e : ArpQueueEntry) : ArpManager :=
  { workingList := workingList
    heap := Function.update heap workingList (some { e with arpLink := none }) }

/-! ### Reading the list -/

namespace ArpManager

section Reading

variable {g : ArpManager} {a b : Addr} {e : ArpQueueEntry} {f : ArpQueueEntry → ArpQueueEntry}
  {p : Option Addr}

theorem deref_of (h : g.heap a = some e) : g.deref (some a) = .ok e := by
  unfold deref
  dsimp only
  rw [h]

theorem link_of (h : g.heap a = some e) : g.link a = e.arpLink := by
  unfold link
  rw [h]
  rfl

theorem ip_of (h : g.heap a = some e) : g.ip a = some e.ip := by
  unfold ip
  rw [h]
  rfl

theorem mod_heap_of_ne (h : b ≠ a) : (g.mod a f).heap b = g.heap b := Function.update_of_ne h _ _

theorem mod_heap_self (h : g.heap a = some e) : (g.mod a f).heap a = some (f e) := by
  show Function.update g.heap a ((g.heap a).map f) a = some (f e)
  rw [Function.update_self, h]
  rfl

theorem free_heap_of_ne (h : b ≠ a) : (g.free a).heap b = g.heap b := Function.update_of_ne h _ _

/-- A compare-and-swap that finds what it expects. -/
theorem casra_of_eq {old new : Option Addr} (h : g.link a = old) :
    g.casra a old new = (g.setLink a new, 1) := if_pos h

end Reading

end ArpManager

/-! ### `request_ARP` -/

section Request

variable {g g' : ArpManager} {l : List Addr} {ip curTs : U32} {nif : ℤ} {p obj : Option Addr} {fuel : ℕ}

/-- The search for a request in progress either finds out or runs out of rounds. -/
theorem pendingLoop_cases (h : Seg g.link p l none)
    (hused : ∀ a ∈ l, ∃ e, g.heap a = some e ∧ e.flag ≠ 0) (fuel : ℕ) :
    pendingLoop g ip fuel p = .ok (decide (some ip ∈ l.map g.ip)) ∨
      fuel ≤ l.length ∧ pendingLoop g ip fuel p = .error .outOfFuel := by
  -- the induction is along the list, one entry for one round
  induction l generalizing p fuel with
  | nil =>
    obtain rfl : p = none := h
    cases fuel with
    | zero => exact .inr ⟨Nat.zero_le _, rfl⟩
    | succ fuel => exact .inl rfl
  | cons a l ih =>
    obtain ⟨rfl, hseg⟩ := h
    cases fuel with
    | zero => exact .inr ⟨Nat.zero_le _, rfl⟩
    | succ fuel =>
      obtain ⟨e, he, hflag⟩ := hused a List.mem_cons_self
      have hstep : pendingLoop g ip (fuel + 1) (some a) =
          if e.ip = ip ∧ e.flag ≠ 0 then .ok true else pendingLoop g ip fuel e.arpLink := by
        show (g.deref (some a) >>= fun e => _) = _
        rw [ArpManager.deref_of he]
        rfl
      rw [hstep, List.map_cons, ArpManager.ip_of he]
      by_cases hip : e.ip = ip
      · -- this is the entry
        left
        rw [if_pos ⟨hip, hflag⟩, hip, decide_eq_true List.mem_cons_self]
      · have hmem : some ip ∈ some e.ip :: l.map g.ip ↔ some ip ∈ l.map g.ip := by
          rw [List.mem_cons, or_iff_right fun heq => hip (Option.some.inj heq).symm]
        rw [if_neg fun hfound => hip hfound.1, decide_eq_decide.mpr hmem]
        rw [ArpManager.link_of he] at hseg
        rcases ih hseg (fun b hb => hused b (List.mem_cons_of_mem a hb)) fuel with hok | ⟨hle, herr⟩
        · exact .inl hok
        · exact .inr ⟨Nat.succ_le_succ hle, herr⟩

/-- A request that is in progress changes nothing. -/
theorem requestArp_of_pending (h : g.Listed l) (hip : some ip ∈ l.map g.ip) :
    requestArp g ip nif curTs obj (l.length + 1) = .ok g := by
  obtain ⟨e, he⟩ := Option.isSome_iff_exists.mp h.head
  have hloop : pendingLoop g ip (l.length + 1) e.arpLink = .ok true := by
    rw [← ArpManager.link_of he, ← decide_eq_true hip]
    exact (pendingLoop_cases h.seg h.used _).resolve_right fun hle => absurd hle.1 (by omega)
  unfold requestArp
  rw [ArpManager.deref_of he]
  show (pendingLoop g ip (l.length + 1) e.arpLink >>= _) = _
  rw [hloop]
  rfl

/-- The insertion goes on for ever: its compare-and-swap always succeeds. -/
theorem insertLoop_diverges {ent : Addr} (hhead : (g.heap g.workingList).isSome) (fuel : ℕ) :
    insertLoop ent fuel g = .error .outOfFuel := by
  induction fuel generalizing g with
  | zero => rfl
  | succ fuel ih =>
    obtain ⟨e, he⟩ := Option.isSome_iff_exists.mp hhead
    -- writing the link of `ent` leaves the one of the head as it was read, also when they are one entry
    have hhead' : ∃ e', (g.setLink ent e.arpLink).heap g.workingList = some e' ∧
        e'.arpLink = e.arpLink := by
      by_cases hent : g.workingList = ent
      · subst hent
        exact ⟨_, ArpManager.mod_heap_self he, rfl⟩
      · exact ⟨e, (ArpManager.mod_heap_of_ne hent).trans he, rfl⟩
    obtain ⟨e', he', hlink⟩ := hhead'
    have hcas := @ArpManager.casra_of_eq (g.setLink ent e.arpLink) g.workingList e.arpLink
      (some ent) ((ArpManager.link_of he').trans hlink)
    unfold insertLoop
    rw [ArpManager.deref_of he]
    show (if ((g.setLink ent e.arpLink).casra g.workingList e.arpLink (some ent)).2 ≠ 0 then
      insertLoop ent fuel ((g.setLink ent e.arpLink).casra g.workingList e.arpLink (some ent)).1
      else .ok _) = _
    rw [hcas, if_pos Int.one_ne_zero]
    refine ih (Option.isSome_iff_exists.mpr ⟨_, ArpManager.mod_heap_self he'⟩)

/-- Whatever the list looks like, the insertion does not come to its end. -/
theorem insertLoop_ne_ok {ent : Addr} {fuel : ℕ} : insertLoop ent fuel g ≠ .ok g' := by
  intro h
  by_cases hhead : (g.heap g.workingList).isSome
  · rw [insertLoop_diverges hhead] at h
    cases h
  · rw [Bool.not_eq_true, Option.isSome_eq_false_iff, Option.isNone_iff_eq_none] at hhead
    have hderef : g.deref (some g.workingList) = .error .wild := by
      unfold ArpManager.deref
      dsimp only
      rw [hhead]
    cases fuel with
    | zero => cases h
    | succ fuel =>
      unfold insertLoop at h
      rw [hderef] at h
      cases h

/-- A request that is not in progress and gets memory for its entry never returns. -/
theorem requestArp_diverges {ent : Addr} (h : g.Listed l) (hip : some ip ∉ l.map g.ip) (fuel : ℕ) :
    requestArp g ip nif curTs (some ent) fuel = .error .outOfFuel := by
  obtain ⟨e, he⟩ := Option.isSome_iff_exists.mp h.head
  unfold requestArp
  rw [ArpManager.deref_of he]
  show (pendingLoop g ip fuel e.arpLink >>= _) = _
  rw [← ArpManager.link_of he]
  -- too few rounds for the search are too few for the call
  rcases pendingLoop_cases h.seg h.used fuel with hok | ⟨-, herr⟩
  · rw [hok, decide_eq_false hip]
    refine insertLoop_diverges ?_ fuel
    show (Function.update g.heap ent _ g.workingList).isSome
    by_cases hent : g.workingList = ent
    · rw [hent, Function.update_self]
      rfl
    · rw [Function.update_of_ne hent]
      exact h.head
  · rw [herr]
    rfl

/-- Without memory for an entry a request gives up. -/
theorem requestArp_no_memory (h : g.Listed l) (hstep : requestArp g ip nif curTs none fuel = .ok g') :
    g' = g := by
  obtain ⟨e, he⟩ := Option.isSome_iff_exists.mp h.head
  unfold requestArp at hstep
  rw [ArpManager.deref_of he] at hstep
  change (pendingLoop g ip fuel e.arpLink >>= _) = _ at hstep
  cases hloop : pendingLoop g ip fuel e.arpLink with
  | error f =>
    rw [hloop] at hstep
    cases hstep
  | ok r =>
    rw [hloop] at hstep
    cases r with
    | true => exact (Except.ok.inj hstep).symm
    | false => exact (Except.ok.inj hstep).symm

end Request

/-! ### `process_ARP_reply` -/

/-- The manager after `old` was taken out from behind `ent`. -/
def ArpManager.unlink (g : ArpManager) (ent old : Addr) (next : Option Addr) : ArpManager :=
  ((g.mod old fun o => { o with flag := 0 }).setLink ent next).free old

section Reply

variable {g : ArpManager} {l l₁ l₂ : List Addr} {sip : U32} {a b ent old : Addr} {e o : ArpQueueEntry}
  {next : Option Addr} {fuel : ℕ}

/-- The loop goes past an entry of another sender. -/
theorem replyLoop_pass (hent : g.heap ent = some e) (hlink : e.arpLink = some old)
    (hold : g.heap old = some o) (hip : o.ip ≠ sip) :
    replyLoop sip (fuel + 1) g (some ent) = replyLoop sip fuel g (some old) := by
  -- `conv_lhs`, since the right side is a call of the loop as well
  have hlink' : g.link ent = some old := (ArpManager.link_of hent).trans hlink
  conv_lhs => unfold replyLoop
  rw [ArpManager.deref_of hent]
  show (match e.arpLink with | none => _ | some old => _) = _
  rw [hlink]
  dsimp only
  rw [ArpManager.deref_of hold]
  show (if o.ip = sip then _ else replyLoop sip fuel g (g.link ent)) = _
  rw [if_neg hip, hlink']

theorem unlink_heap (hold : b ≠ old) (hent : b ≠ ent) :
    (g.unlink ent old next).heap b = g.heap b := by
  unfold ArpManager.unlink
  rw [ArpManager.free_heap_of_ne hold]
  exact (ArpManager.mod_heap_of_ne hent).trans (ArpManager.mod_heap_of_ne hold)

theorem unlink_heap_ent (hne : ent ≠ old) (hent : g.heap ent = some e) :
    (g.unlink ent old next).heap ent = some { e with arpLink := next } := by
  unfold ArpManager.unlink
  rw [ArpManager.free_heap_of_ne hne]
  exact ArpManager.mod_heap_self ((ArpManager.mod_heap_of_ne hne).trans hent)

/-- Every entry but the one that is taken out keeps all but its link. -/
theorem unlink_keeps (hold : b ≠ old) (hb : g.heap b = some e) :
    ∃ q, (g.unlink ent old next).heap b = some { e with arpLink := q } := by
  by_cases hent : b = ent
  · subst hent
    exact ⟨next, unlink_heap_ent hold hb⟩
  · exact ⟨e.arpLink, (unlink_heap hold hent).trans hb⟩

/-- The loop takes the entry of the sender out and goes on with what follows it. -/
theorem replyLoop_remove (hne : ent ≠ old) (hent : g.heap ent = some e) (hlink : e.arpLink = some old)
    (hold : g.heap old = some o) (hip : o.ip = sip) :
    replyLoop sip (fuel + 1) g (some ent) =
      replyLoop sip fuel (g.unlink ent old o.arpLink) o.arpLink := by
  have hcas : (g.mod old fun o => { o with flag := 0 }).casra ent (some old) o.arpLink =
      ((g.mod old fun o => { o with flag := 0 }).setLink ent o.arpLink, 1) := by
    refine ArpManager.casra_of_eq ?_
    rw [ArpManager.link_of ((ArpManager.mod_heap_of_ne hne).trans hent), hlink]
  have hlink' : (g.unlink ent old o.arpLink).link ent = o.arpLink :=
    (ArpManager.link_of (unlink_heap_ent hne hent)).trans rfl
  conv_lhs => unfold replyLoop
  rw [ArpManager.deref_of hent]
  show (match e.arpLink with | none => _ | some old => _) = _
  rw [hlink]
  dsimp only
  rw [ArpManager.deref_of hold]
  show (if o.ip = sip then
    if ((g.mod old fun o => { o with flag := 0 }).casra ent (some old) o.arpLink).2 < 0 then _
    else replyLoop sip fuel
      (((g.mod old fun o => { o with flag := 0 }).casra ent (some old) o.arpLink).1.free old)
      ((((g.mod old fun o => { o with flag := 0 }).casra ent (some old) o.arpLink).1.free old).link ent)
    else _) = _
  rw [if_pos hip, hcas, if_neg (show ¬(1 : ℤ) < 0 by decide)]
  show replyLoop sip fuel (g.unlink ent old o.arpLink) ((g.unlink ent old o.arpLink).link ent) = _
  rw [hlink']

/-- Behind `ent` there is no entry of the sender. -/
theorem replyLoop_absent (hseg : Seg g.link (g.link ent) l none)
    (hused : ∀ a ∈ ent :: l, (g.heap a).isSome) (hno : ∀ a ∈ l, g.ip a ≠ some sip)
    (hfuel : l.length < fuel) : replyLoop sip fuel g (some ent) = .ok g := by
  obtain ⟨fuel, rfl⟩ := Nat.exists_eq_succ_of_ne_zero (Nat.ne_zero_of_lt hfuel)
  induction l generalizing ent fuel with
  | nil =>
    obtain ⟨e, he⟩ := Option.isSome_iff_exists.mp (hused ent List.mem_cons_self)
    have hnone : e.arpLink = none := (ArpManager.link_of he).symm.trans hseg
    unfold replyLoop
    rw [ArpManager.deref_of he]
    show (match e.arpLink with | none => _ | some old => _) = _
    rw [hnone]
  | cons a l ih =>
    obtain ⟨hlink, hseg⟩ := hseg
    obtain ⟨e, he⟩ := Option.isSome_iff_exists.mp (hused ent List.mem_cons_self)
    obtain ⟨o, ho⟩ := Option.isSome_iff_exists.mp
      (hused a (List.mem_cons_of_mem _ List.mem_cons_self))
    have hip : o.ip ≠ sip := by
      intro hip
      refine hno a List.mem_cons_self ?_
      rw [ArpManager.ip_of ho, hip]
    have hfuel' : l.length < fuel := Nat.lt_of_succ_lt_succ hfuel
    obtain ⟨fuel, rfl⟩ := Nat.exists_eq_succ_of_ne_zero (Nat.ne_zero_of_lt hfuel')
    rw [replyLoop_pass he ((ArpManager.link_of he).symm.trans hlink) ho hip]
    exact ih hseg (fun b hb => hused b (List.mem_cons_of_mem _ hb))
      (fun b hb => hno b (List.mem_cons_of_mem _ hb)) fuel hfuel'

/-- The loop walks along the entries in front of `b` that are not of the sender. -/
theorem replyLoop_walk {q : Option Addr} (hseg : Seg g.link (some ent) (l ++ [b]) q)
    (hused : ∀ a ∈ l ++ [b], (g.heap a).isSome)
    (hno : ∀ a ∈ (l ++ [b]).tail, g.ip a ≠ some sip) :
    replyLoop sip (fuel + l.length) g (some ent) = replyLoop sip fuel g (some b) := by
  induction l generalizing ent with
  | nil =>
    obtain rfl := Option.some.inj hseg.1
    rfl
  | cons a l ih =>
    obtain ⟨hent, hseg⟩ := hseg
    obtain rfl := Option.some.inj hent
    -- `ent` has a successor, which is the entry that a round tests
    obtain ⟨c, m, hm⟩ : ∃ c m, l ++ [b] = c :: m := by
      cases l with
      | nil => exact ⟨b, [], rfl⟩
      | cons c l => exact ⟨c, l ++ [b], rfl⟩
    have hc : c ∈ l ++ [b] := hm ▸ List.mem_cons_self
    obtain ⟨e, he⟩ := Option.isSome_iff_exists.mp (hused _ List.mem_cons_self)
    obtain ⟨o, ho⟩ := Option.isSome_iff_exists.mp (hused c (List.mem_cons_of_mem _ hc))
    have hlink : g.link ent = some c := by
      have hseg' : Seg g.link (g.link ent) (c :: m) q := hm ▸ hseg
      exact hseg'.1
    have hip : o.ip ≠ sip := by
      intro hip
      refine hno c hc ?_
      rw [ArpManager.ip_of ho, hip]
    rw [List.length_cons, ← Nat.add_assoc,
      replyLoop_pass he ((ArpManager.link_of he).symm.trans hlink) ho hip]
    rw [hlink] at hseg
    exact ih hseg (fun a ha => hused a (List.mem_cons_of_mem _ ha))
      fun a ha => hno a (List.mem_of_mem_tail ha)

/-- The list, from the head of the working list on, up to the entry in front of `a`. -/
theorem ArpManager.Listed.path {m : List Addr} {p : Addr} (h : g.Listed (l₁ ++ a :: l₂))
    (hm : g.workingList :: l₁ = m ++ [p]) :
    Seg g.link (some g.workingList) (m ++ [p]) (some a) ∧ Seg g.link (g.link a) l₂ none ∧
      g.link p = some a := by
  have hseg : Seg g.link (some g.workingList) ((m ++ [p]) ++ a :: l₂) none := by
    rw [← hm]
    exact ⟨rfl, h.seg⟩
  obtain ⟨r, hfront, rfl, hback⟩ := Lib.seg_append.mp hseg
  obtain ⟨r, -, -, hp⟩ := Lib.seg_append.mp hfront
  exact ⟨hfront, hback, hp⟩

theorem ArpManager.Listed.nodup (h : g.Listed l) : l.Nodup := h.ips.of_map _

/-- The head of the working list and its entries are all in memory. -/
theorem ArpManager.Listed.isSome (h : g.Listed l) : ∀ b ∈ g.workingList :: l, (g.heap b).isSome := by
  intro b hb
  rcases List.mem_cons.mp hb with rfl | hb
  · exact h.head
  · obtain ⟨e, he, -⟩ := h.used b hb
    exact Option.isSome_iff_exists.mpr ⟨e, he⟩

/-- Of the working list without `a`. -/
theorem ArpManager.Listed.unlink {m : List Addr} {p : Addr} (h : g.Listed (l₁ ++ a :: l₂))
    (hm : g.workingList :: l₁ = m ++ [p]) (ha : g.heap a = some o) :
    (g.unlink p a o.arpLink).Listed (l₁ ++ l₂) ∧
      ∀ b ∈ l₁ ++ l₂, (g.unlink p a o.arpLink).ip b = g.ip b := by
  -- the head is none of the entries, so with it the addresses are still all different
  have hall : (g.workingList :: l₁ ++ a :: l₂).Nodup := List.nodup_cons.mpr ⟨h.outside, h.nodup⟩
  obtain ⟨hout, hnodup⟩ := List.nodup_cons.mp (List.nodup_middle.mp hall)
  have hne : ∀ b ∈ g.workingList :: l₁ ++ l₂, b ≠ a := fun b hb => ne_of_mem_of_not_mem hb hout
  have hmem : ∀ {b}, b ∈ l₁ ++ l₂ → b ∈ l₁ ++ a :: l₂ :=
    fun hb => List.perm_middle.symm.subset (List.mem_cons_of_mem a hb)
  -- `p` is the head of the list or one of its entries
  have hp : p ∈ g.workingList :: l₁ := hm ▸ List.mem_append_right m (List.mem_singleton_self p)
  obtain ⟨e, he⟩ := Option.isSome_iff_exists.mp
    (h.isSome p (List.mem_append_left (a :: l₂) hp))
  have hentry := @unlink_heap_ent g p a e o.arpLink (hne p (List.mem_append_left l₂ hp)) he
  have hips : ∀ b ∈ l₁ ++ l₂, (g.unlink p a o.arpLink).ip b = g.ip b := by
    intro b hb
    obtain ⟨e', he', -⟩ := h.used b (hmem hb)
    obtain ⟨q, hq⟩ := @unlink_keeps g b p a e' o.arpLink (hne b (List.mem_cons_of_mem _ hb)) he'
    rw [ArpManager.ip_of hq, ArpManager.ip_of he']
  -- only the link of `p` is another one
  have hsegment : Seg (g.unlink p a o.arpLink).link (some g.workingList)
      (g.workingList :: l₁ ++ l₂) none := by
    have hseg : Seg g.link (some g.workingList) (g.workingList :: l₁ ++ a :: l₂) none := ⟨rfl, h.seg⟩
    rw [hm, List.append_assoc, List.singleton_append] at hseg hnodup ⊢
    refine hseg.remove_after ?_ fun b hb => ?_
    · rw [ArpManager.link_of hentry, ArpManager.link_of ha]
    · have hbp : b ≠ p :=
        ne_of_mem_of_not_mem hb (List.nodup_cons.mp (List.nodup_middle.mp hnodup)).1
      have hba : b ≠ a := by
        refine hne b ?_
        rw [hm, List.append_assoc, List.singleton_append]
        exact List.perm_middle.symm.subset (List.mem_cons_of_mem p hb)
      unfold ArpManager.link
      rw [unlink_heap hba hbp]
  refine ⟨{
    head := ?_
    outside := fun hb => h.outside (hmem hb)
    seg := hsegment.2
    used := fun b hb => ?_
    ips := ?_ }, hips⟩
  · obtain ⟨e', he'⟩ := Option.isSome_iff_exists.mp h.head
    obtain ⟨q, hq⟩ := @unlink_keeps g _ p a e' o.arpLink (hne _ List.mem_cons_self) he'
    exact Option.isSome_iff_exists.mpr ⟨_, hq⟩
  · obtain ⟨e', he', hflag⟩ := h.used b (hmem hb)
    obtain ⟨q, hq⟩ := @unlink_keeps g b p a e' o.arpLink (hne b (List.mem_cons_of_mem _ hb)) he'
    exact ⟨_, hq, hflag⟩
  · rw [List.map_congr_left hips]
    exact h.ips.sublist (((List.sublist_cons_self a l₂).append_left l₁).map g.ip)

/-- The loop arrives at the entry of the sender and takes it out. -/
theorem replyLoop_reach (h : g.Listed (l₁ ++ a :: l₂)) (ha : g.heap a = some o) (hip : o.ip = sip)
    (hno : ∀ b ∈ l₁, g.ip b ≠ some sip) :
    ∃ p m, g.workingList :: l₁ = m ++ [p] ∧ ∀ fuel,
      replyLoop sip (fuel + 1 + m.length) g (some g.workingList) =
        replyLoop sip fuel (g.unlink p a o.arpLink) o.arpLink := by
  obtain ⟨m, p, hm⟩ : ∃ m p, g.workingList :: l₁ = m ++ [p] :=
    ⟨_, _, (List.dropLast_append_getLast (List.cons_ne_nil g.workingList l₁)).symm⟩
  obtain ⟨hfront, -, hp⟩ := h.path hm
  have hused : ∀ b ∈ m ++ [p], (g.heap b).isSome :=
    fun b hb => h.isSome b (List.mem_append_left (a :: l₂) (hm ▸ hb))
  have htail : ∀ b ∈ (m ++ [p]).tail, g.ip b ≠ some sip := by
    rw [← hm]
    exact hno
  have hmp : p ∈ m ++ [p] := List.mem_append_right _ (List.mem_singleton_self p)
  obtain ⟨e, he⟩ := Option.isSome_iff_exists.mp (hused p hmp)
  have hpa : p ≠ a := by
    rintro rfl
    rw [← hm] at hmp
    rcases List.mem_cons.mp hmp with heq | hmem
    · exact h.outside (heq ▸ List.mem_append_right _ List.mem_cons_self)
    · exact (List.nodup_append.mp h.nodup).2.2 _ hmem _ List.mem_cons_self rfl
  refine ⟨p, m, hm, fun fuel => ?_⟩
  rw [replyLoop_walk hfront hused htail]
  exact replyLoop_remove hpa he ((ArpManager.link_of he).symm.trans hp) ha hip

/-- A reply from a sender that is not asked for changes nothing. -/
theorem processArpReply_absent (h : g.Listed l) (hno : ∀ a ∈ l, g.ip a ≠ some sip)
    (hfuel : l.length < fuel) : processArpReply g sip fuel = .ok g := by
  exact replyLoop_absent h.seg h.isSome hno hfuel

/-- A reply takes the entry of its sender out, wherever it stands but at the end. -/
theorem processArpReply_listed (h : g.Listed (l₁ ++ a :: b :: l₂)) (ha : g.ip a = some sip) :
    ∃ fuel g', processArpReply g sip fuel = .ok g' ∧ g'.Listed (l₁ ++ b :: l₂) ∧
      ∀ c ∈ l₁ ++ b :: l₂, g'.ip c = g.ip c := by
  obtain ⟨o, ho, -⟩ := h.used a (List.mem_append_right _ List.mem_cons_self)
  have hip : o.ip = sip := Option.some.inj ((ArpManager.ip_of ho).symm.trans ha)
  -- no other entry is of the sender
  have hips := h.ips
  rw [List.map_append, List.map_cons, ha] at hips
  -- the addresses asked for are all different
  have hperm := List.nodup_cons.mp (List.nodup_middle.mp hips)
  rw [← List.map_append] at hperm
  have hno : ∀ c ∈ l₁ ++ b :: l₂, g.ip c ≠ some sip :=
    fun c hc heq => hperm.1 (heq ▸ List.mem_map_of_mem hc)
  obtain ⟨p, m, hm, hreach⟩ :=
    replyLoop_reach h ho hip fun c hc => hno c (List.mem_append_left _ hc)
  obtain ⟨hlisted, hsame⟩ := h.unlink hm ho
  have hnext : o.arpLink = some b := by
    rw [← ArpManager.link_of ho]
    exact (h.path hm).2.1.1
  have hseg : Seg (g.unlink p a o.arpLink).link ((g.unlink p a o.arpLink).link b) l₂ none := by
    obtain ⟨r, -, -, hseg⟩ := Lib.seg_append.mp hlisted.seg
    exact hseg
  have hrest := @replyLoop_absent (g.unlink p a o.arpLink) l₂ sip b (l₂.length + 1) hseg
    (fun c hc => hlisted.isSome c (List.mem_cons_of_mem _ (List.mem_append_right l₁ hc)))
    (fun c hc heq => hno c (List.mem_append_right _ (List.mem_cons_of_mem b hc)) (by
      rw [← hsame c (List.mem_append_right _ (List.mem_cons_of_mem b hc))]
      exact heq)) (Nat.lt_succ_self _)
  refine ⟨l₂.length + 1 + 1 + m.length, _, ?_, hlisted, hsame⟩
  unfold processArpReply
  rw [hreach, hnext]
  rw [hnext] at hrest
  exact hrest

/-- At the end of the list the loop goes on through the link of an entry that has none. -/
theorem processArpReply_last (h : g.Listed (l ++ [a])) (ha : g.ip a = some sip) :
    ∃ fuel, processArpReply g sip fuel = .error .nullDeref := by
  obtain ⟨o, ho, -⟩ := h.used a (List.mem_append_right _ List.mem_cons_self)
  have hip : o.ip = sip := Option.some.inj ((ArpManager.ip_of ho).symm.trans ha)
  have hips := h.ips
  rw [List.map_append, List.map_cons, ha] at hips
  obtain ⟨p, m, hm, hreach⟩ := replyLoop_reach h ho hip fun c hc heq =>
    (List.nodup_append.mp hips).2.2 _ (heq ▸ List.mem_map_of_mem hc) _ List.mem_cons_self rfl
  have hnext : o.arpLink = none := by
    rw [← ArpManager.link_of ho]
    exact (h.path hm).2.1
  refine ⟨1 + 1 + m.length, ?_⟩
  unfold processArpReply
  rw [hreach, hnext]
  rfl

end Reply

/-! ### Runs from the empty list -/

/-- A call that the working list survives: a request that is in progress, or a reply from a sender whose
entry is not the last one. -/
def ArpManager.Survives (g : ArpManager) (l : List Addr) : ArpLabel → Prop
  | .request ip _ _ _ => some ip ∈ l.map g.ip
  | .reply sip => ∀ a, l.getLast? = some a → g.ip a ≠ some sip

section Runs

variable {g g' : ArpManager} {l : List Addr} {pending : List U32} {lb : ArpLabel}

/-- **One step.** Where the working list survives a call, the call returns and goes on to track what is
pending. -/
theorem ArpStep.tracks (h : g.Listed l) (hpend : ∀ ip, some ip ∈ l.map g.ip ↔ ip ∈ pending)
    (hsurv : g.Survives l lb) : ∃ g', ArpStep g lb g' ∧ g'.Tracks (pendingAfter pending lb) := by
  cases lb with
  | request ip nif curTs obj =>
    refine ⟨g, ⟨_, requestArp_of_pending h hsurv⟩, l, h, fun ip' => ?_⟩
    show _ ↔ ip' ∈ pending.insert ip
    rw [List.insert_of_mem ((hpend ip).mp hsurv)]
    exact hpend ip'
  | reply sip =>
    by_cases hmem : some sip ∈ l.map g.ip
    · obtain ⟨a, ha, hip⟩ := List.mem_map.mp hmem
      obtain ⟨l₁, l₂, rfl⟩ := List.append_of_mem ha
      cases l₂ with
      -- the sender's entry is the last one, which the condition excludes
      | nil => exact absurd hip (hsurv a List.getLast?_concat)
      | cons b l₂ =>
        obtain ⟨fuel, g', hg', hlisted, hsame⟩ := processArpReply_listed h hip
        refine ⟨g', ⟨fuel, hg'⟩, _, hlisted, fun ip => ?_⟩
        rw [List.map_congr_left hsame]
        show _ ↔ ip ∈ pending.filter (· ≠ sip)
        rw [List.mem_filter, ← hpend, decide_eq_true_iff]
        have hips := h.ips
        rw [List.map_append, List.map_cons, hip] at hips
        have hnot := (List.nodup_cons.mp (List.nodup_middle.mp hips)).1
        rw [← List.map_append] at hnot
        -- taking the entry out takes the sender's address out, and no other
        have hcons : some ip ∈ (l₁ ++ a :: b :: l₂).map g.ip ↔
            ip = sip ∨ some ip ∈ (l₁ ++ b :: l₂).map g.ip := by
          rw [List.map_append, List.map_cons, hip, List.mem_append, List.mem_cons, List.map_append,
            List.mem_append, Option.some.injEq, or_left_comm]
        rw [hcons]
        constructor
        · exact fun hin => ⟨.inr hin, fun heq => hnot (heq ▸ hin)⟩
        · exact fun hin => hin.1.resolve_left hin.2
    · have hno : ∀ a ∈ l, g.ip a ≠ some sip := fun a ha heq => hmem (heq ▸ List.mem_map_of_mem ha)
      refine ⟨g, ⟨_, processArpReply_absent h hno (Nat.lt_succ_self _)⟩, l, h, fun ip => ?_⟩
      show _ ↔ ip ∈ pending.filter (· ≠ sip)
      rw [List.mem_filter, ← hpend, decide_eq_true_iff]
      exact ⟨fun hin => ⟨hin, fun heq => hmem (heq ▸ hin)⟩, fun hin => hin.1⟩

/-- From the empty list no call that returns gets anywhere. -/
theorem ArpStep.of_empty (h : g.Listed []) (hstep : ArpStep g lb g') : g' = g := by
  obtain ⟨fuel, hcall⟩ := hstep
  cases lb with
  | request ip nif curTs obj =>
    cases obj with
    | none => exact @requestArp_no_memory g g' [] ip curTs nif fuel h hcall
    | some ent =>
      have hdiv := @requestArp_diverges g [] ip curTs nif ent h List.not_mem_nil fuel
      exact absurd (hdiv.symm.trans hcall) (by simp)
  | reply sip =>
    cases fuel with
    | zero => cases hcall
    | succ fuel =>
      have hok := @processArpReply_absent g [] sip (fuel + 1) h (fun a ha => by cases ha)
        (Nat.succ_pos fuel)
      exact (Except.ok.inj (hok.symm.trans hcall)).symm

/-- A run from the empty list changes nothing. -/
theorem run_of_empty {ls : List ArpLabel} (h : g.Listed []) (hrun : Run ArpStep g ls g') : g' = g :=
  hrun.invariant (· = g) rfl fun _ _ _ ht hstep => (ArpStep.of_empty (ht ▸ h) hstep).trans ht

theorem initArp_listed (heap : Addr → Option ArpQueueEntry) (workingList : Addr) (e : ArpQueueEntry) :
    (initArp heap workingList e).Listed [] where
  head := by
    show (Function.update heap workingList _ workingList).isSome
    rw [Function.update_self]
    rfl
  outside := List.not_mem_nil
  seg := by
    show ((Function.update heap workingList _ workingList).bind ArpQueueEntry.arpLink) = none
    rw [Function.update_self]
    rfl
  used := fun a ha => by cases ha
  ips := List.nodup_nil

end Runs

/-- **Pending requests are tracked exactly when there are none.** After every call of a sequence from the
empty list the call has returned and the working list holds one entry for each request in progress, if
and only if the sequence has no request. -/
theorem arp_tracks_iff (heap : Addr → Option ArpQueueEntry) (workingList : Addr) (e : ArpQueueEntry)
    (ls : List ArpLabel) :
    (∀ pre, pre <+: ls → ∃ g, Run ArpStep (initArp heap workingList e) pre g ∧
      g.Tracks (pre.foldl pendingAfter [])) ↔
    ∀ l ∈ ls, ∃ sip, l = .reply sip := by
  have hempty := initArp_listed heap workingList e
  constructor
  · intro hall l hl
    cases l with
    | reply sip => exact ⟨sip, rfl⟩
    | request ip nif curTs obj =>
      obtain ⟨pre, post, rfl⟩ := List.append_of_mem hl
      obtain ⟨g, hrun, l, hlisted, hpend⟩ := hall (pre ++ [.request ip nif curTs obj])
        ⟨post, by rw [List.append_assoc]; rfl⟩
      -- no call of the run has changed anything, so the list is still empty
      obtain rfl := run_of_empty hempty hrun
      have hnil : l = [] := hlisted.seg.unique hempty.seg
      have hmem : ip ∈ (pre ++ [ArpLabel.request ip nif curTs obj]).foldl pendingAfter [] := by
        rw [List.foldl_append]
        exact List.mem_insert_self
      have hin := (hpend ip).mpr hmem
      rw [hnil] at hin
      cases hin
  · intro hall pre
    induction pre using List.reverseRecOn with
    | nil =>
      exact fun _ => ⟨_, .nil, [], hempty, fun ip => iff_of_false List.not_mem_nil List.not_mem_nil⟩
    | append_singleton pre l ih =>
      intro hpre
      obtain ⟨g, hrun, l', hlisted, hpend⟩ := ih ((List.prefix_append pre [l]).trans hpre)
      obtain ⟨sip, rfl⟩ := hall l (hpre.subset (List.mem_append_right _ (List.mem_singleton_self l)))
      obtain rfl := run_of_empty hempty hrun
      obtain rfl : l' = [] := hlisted.seg.unique hempty.seg
      obtain ⟨g', hstep, htracks⟩ := @ArpStep.tracks _ [] _ (.reply sip) hempty hpend
        (fun a ha => by cases ha)
      refine ⟨g', hrun.snoc hstep, ?_⟩
      rw [List.foldl_append]
      exact htracks

/-- The first request of all, for `10.0.0.1`, does not return. -/
theorem first_request_diverges :
    ¬∃ g, ArpStep (initArp (fun _ => none) 0 ⟨none, 0, 0, 0, 0⟩)
      (.request 0x0100000a 0 0 (some 1)) g := by
  rintro ⟨g, fuel, hcall⟩
  have hdiv := @requestArp_diverges _ [] 0x0100000a 0 0 1 (initArp_listed (fun _ => none) 0
    ⟨none, 0, 0, 0, 0⟩) List.not_mem_nil fuel
  cases hdiv.symm.trans hcall

end CmtTcp
