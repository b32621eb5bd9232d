import CmtTcp.Arp
import CmtTcp.Lib.LongestMatch

/-!
# The ARP table

The table of `arp.c`: `get_destination_HW_addr` looks an address up, and the requests and replies that
arrive register their senders with `register_ARP_entry` if they are not found.

* `arp_lookup_iff`: an entry of prefix `1` counts as the entry of one host and ends the search, and an
  entry of prefix `0` never counts; all others go through a running maximum that finds the longest;
* `arp_learned_iff`: the lookup runs to `entries`, which stays `0`, while the registration counts
  `entry_nums`, so no sender is ever found, each packet fills another slot (`ArpRun.slots`), and
  the packets behind the first 1024 fill slots behind the table (`arp_inside_iff`).
-/

namespace CmtTcp

open Lib (LongestMatch keepLongest Run)

/-- A hardware address, of `ETH_ALEN` bytes. -/
abbrev HwAddr := BitVec 48

/-- An entry of `config.arp.entry` -/
structure ArpEntry where
  prefixLen : ℤ
  ip : U32
  ipMask : U32
  ipMasked : U32
  haddr : HwAddr
  flag : U8
deriving DecidableEq, Repr

/-- `config.arp`: the entries lie in the memory from `entry[0]` on, and `gateway` is one of them. -/
structure ArpTable where
  entries : ℕ
  entryNums : U32
  entry : ℤ → ArpEntry
  gateway : Option ℤ

/-- The loop of `get_destination_HW_addr`, with `d_haddr` and `prefix`. -/
def arpLoop (dip : U32) : List ArpEntry → Option HwAddr → ℤ → Option HwAddr
  | [], dHaddr, _ => dHaddr
  | e :: entry, dHaddr, prefixLen =>
    if e.prefixLen = 1 then
      -- with a `break`
      if e.ip = dip then some e.haddr else arpLoop dip entry dHaddr prefixLen
    else if dip &&& e.ipMask = e.ipMasked then
      if e.prefixLen > prefixLen then arpLoop dip entry (some e.haddr) e.prefixLen
      else arpLoop dip entry dHaddr prefixLen
    else arpLoop dip entry dHaddr prefixLen

/-- The entries a lookup goes through. -/
def ArpTable.entryList (t : ArpTable) : List ArpEntry := (List.range t.entries).map fun i => t.entry i

/-- `get_destination_HW_addr` -/
def getDestinationHwAddr (t : ArpTable) (dip : U32) (isGateway : U8) : Option HwAddr :=
  match (if isGateway = 1 then t.gateway else none) with
  | some i => some (t.entry i).haddr
  | none => arpLoop dip t.entryList none 0

/-! ### Lookups -/

/-- The destination is in the network of the entry. -/
def ArpEntry.Matches (dip : U32) (e : ArpEntry) : Prop := dip &&& e.ipMask = e.ipMasked

instance ArpEntry.Matches.decidable (dip : U32) : DecidablePred (ArpEntry.Matches dip) := fun _ =>
  inferInstanceAs (Decidable (_ = _))

/-- The entry ends the search for `dip`. -/
def ArpEntry.EndsSearch (dip : U32) (e : ArpEntry) : Prop := e.prefixLen = 1 ∧ e.ip = dip

instance ArpEntry.EndsSearch.decidable (dip : U32) : DecidablePred (ArpEntry.EndsSearch dip) := fun _ =>
  inferInstanceAs (Decidable (_ ∧ _))

/-- A lookup yields the address of one of the longest matches, and `NULL` exactly when there is no match. -/
def ArpLookupRight (l : List ArpEntry) (dip : U32) (dHaddr : Option HwAddr) : Prop :=
  (∀ h, dHaddr = some h →
    ∃ e, LongestMatch (ArpEntry.Matches dip) ArpEntry.prefixLen l e ∧ e.haddr = h) ∧
    (dHaddr = none ↔ ∀ e ∈ l, ¬e.Matches dip)

/-- What makes the lookup right. -/
def ArpLookupFits (l : List ArpEntry) (dip : U32) : Prop :=
  match l.find? (fun e => decide (e.EndsSearch dip)) with
  | some f => ∃ e, LongestMatch (ArpEntry.Matches dip) ArpEntry.prefixLen l e ∧ e.haddr = f.haddr
  | none => (∃ e ∈ l, 2 ≤ e.prefixLen ∧ e.Matches dip) ∨ ∀ e ∈ l, ¬e.Matches dip

section Lookup

variable {dip : U32} {l : List ArpEntry}

/-- The first entry that ends the search decides. -/
theorem arpLoop_ends {f : ArpEntry} (hfind : l.find? (fun e => decide (e.EndsSearch dip)) = some f)
    (dHaddr : Option HwAddr) (prefixLen : ℤ) : arpLoop dip l dHaddr prefixLen = some f.haddr := by
  induction l generalizing dHaddr prefixLen with
  | nil => cases hfind
  | cons e l ih =>
    unfold arpLoop
    by_cases he : e.EndsSearch dip
    · have hhit := List.find?_cons_of_pos (p := fun e => decide (e.EndsSearch dip)) (l := l)
        (decide_eq_true he)
      obtain rfl := Option.some.inj (hhit.symm.trans hfind)
      rw [if_pos he.1, if_pos he.2]
    · have hmiss := List.find?_cons_of_neg (p := fun e => decide (e.EndsSearch dip)) (l := l)
        (show ¬decide (e.EndsSearch dip) = true from fun h => he (of_decide_eq_true h))
      have hrest := ih (hmiss.symm.trans hfind)
      split
      · next hone =>
        rw [if_neg fun hip => he ⟨hone, hip⟩]
        exact hrest _ _
      · split
        · split
          · exact hrest _ _
          · exact hrest _ _
        · exact hrest _ _

/-- Without such an entry the loop keeps the longest of the other matches. -/
theorem arpLoop_keeps (hfind : ∀ e ∈ l, ¬e.EndsSearch dip) (best : Option ArpEntry) (lo : ℤ) :
    arpLoop dip l (best.map ArpEntry.haddr) lo =
      (keepLongest (fun e => e.prefixLen ≠ 1 ∧ e.Matches dip) ArpEntry.prefixLen best lo l).map
        ArpEntry.haddr := by
  induction l generalizing best lo with
  | nil => rfl
  | cons e l ih =>
    have hrest := ih fun x hx => hfind x (List.mem_cons_of_mem e hx)
    have he := hfind e List.mem_cons_self
    unfold arpLoop keepLongest
    by_cases hone : e.prefixLen = 1
    · rw [if_pos hone, if_neg fun hip => he ⟨hone, hip⟩, if_neg fun h => h.1.1 hone]
      exact hrest best lo
    · rw [if_neg hone]
      by_cases hmatches : dip &&& e.ipMask = e.ipMasked
      · rw [if_pos hmatches]
        by_cases hlo : lo < e.prefixLen
        · rw [if_pos hlo, if_pos ⟨⟨hone, hmatches⟩, hlo⟩]
          exact hrest (some e) e.prefixLen
        · rw [if_neg hlo, if_neg fun h => hlo h.2]
          exact hrest best lo
      · rw [if_neg hmatches, if_neg fun h => hmatches h.1.2]
        exact hrest best lo

/-- Of the entries that are not taken for a host, one of the longest is found if one is longer than `1`. -/
theorem arpLoop_longest (hfind : ∀ e ∈ l, ¬e.EndsSearch dip)
    (hlong : ∃ e ∈ l, 2 ≤ e.prefixLen ∧ e.Matches dip) :
    ∃ x, arpLoop dip l none 0 = some x.haddr ∧ LongestMatch (ArpEntry.Matches dip) ArpEntry.prefixLen l x := by
  obtain ⟨e, he, hlen, hmatches⟩ := hlong
  obtain ⟨x, hx, hbest⟩ := @Lib.keepLongest_of_exists _ _ _
    (fun e => e.prefixLen ≠ 1 ∧ e.Matches dip) ArpEntry.prefixLen l _ none (0 : ℤ)
    ⟨e, he, ⟨by omega, hmatches⟩, by omega⟩
  refine ⟨x, ?_, hbest.of_shorter (fun y hy => hy.2) fun y _ hy hnot => ?_⟩
  · have hloop := arpLoop_keeps hfind none 0
    rw [hx] at hloop
    exact hloop
  · -- the entries of prefix `1` are shorter than what was found
    have hone : y.prefixLen = 1 := by
      by_contra hne
      exact hnot ⟨hne, hy⟩
    have hxlen := hbest.longest e he ⟨by omega, hmatches⟩
    omega

/-- Without an entry longer than `1` nothing is found, whatever matches. -/
theorem arpLoop_none (hfind : ∀ e ∈ l, ¬e.EndsSearch dip)
    (hlong : ¬∃ e ∈ l, 2 ≤ e.prefixLen ∧ e.Matches dip) : arpLoop dip l none 0 = none := by
  have hempty : keepLongest (fun e => e.prefixLen ≠ 1 ∧ e.Matches dip) ArpEntry.prefixLen none
      (0 : ℤ) l = none := by
    refine Lib.keepLongest_of_forall fun e he hmatches => ?_
    by_contra hlen
    have htwo : 2 ≤ e.prefixLen := by
      have hne := hmatches.1
      omega
    exact hlong ⟨e, he, htwo, hmatches.2⟩
  have hloop := arpLoop_keeps hfind none 0
  rw [hempty] at hloop
  exact hloop

theorem arpLoop_right_iff : ArpLookupRight l dip (arpLoop dip l none 0) ↔ ArpLookupFits l dip := by
  unfold ArpLookupRight ArpLookupFits
  split
  · next f hfind =>
    rw [arpLoop_ends hfind]
    constructor
    · exact fun h => h.1 _ rfl
    · -- something is returned, and something matches
      rintro ⟨e, hbest, heq⟩
      refine ⟨fun h hh => ⟨e, hbest, heq.trans (Option.some.inj hh)⟩, ?_⟩
      exact iff_of_false (Option.some_ne_none _) fun hno => hno e hbest.mem hbest.hit
  · next hfind =>
    have hnone : ∀ e ∈ l, ¬e.EndsSearch dip := fun e he hends =>
      List.find?_eq_none.mp hfind e he (decide_eq_true hends)
    by_cases hlong : ∃ e ∈ l, 2 ≤ e.prefixLen ∧ e.Matches dip
    · obtain ⟨x, hx, hbest⟩ := arpLoop_longest hnone hlong
      rw [hx]
      refine iff_of_true ⟨fun h hh => ⟨x, hbest, Option.some.inj hh⟩, ?_⟩ (.inl hlong)
      exact iff_of_false (Option.some_ne_none _) fun hno => hno x hbest.mem hbest.hit
    · rw [arpLoop_none hnone hlong]
      constructor
      · exact fun h => .inr (h.2.mp rfl)
      · rintro (h | h)
        · exact absurd h hlong
        · exact ⟨fun _ hh => absurd hh (Option.some_ne_none _).symm, iff_of_true rfl h⟩

end Lookup

/-- **When the ARP lookup is longest-prefix matching.** For every table and every destination that is not
looked up as the gateway: where an entry of prefix `1` has the address, if and only if the first one of
them has the hardware address of one of the longest matches; elsewhere, if and only if there is a match
of prefix `2` at least, or none at all. -/
theorem arp_lookup_iff (t : ArpTable) (dip : U32) :
    ArpLookupRight t.entryList dip (getDestinationHwAddr t dip 0) ↔ ArpLookupFits t.entryList dip :=
  arpLoop_right_iff

/-- A table that holds these entries. -/
def tableOf (es : List ArpEntry) : ArpTable where
  entries := es.length
  entryNums := BitVec.ofNat 32 es.length
  entry := fun i => es.getD i.toNat ⟨0, 0, 0, 0, 0, 0⟩
  gateway := none

/-- The route to everywhere is never found, and the entry of a network of half of all addresses is taken for
the one of a host, also in front of a longer one. -/
theorem arp_lookup_wrong :
    ¬ArpLookupRight (tableOf [⟨0, 0, 0, 0, 0x0a, 1⟩]).entryList 0x0100000a
        (getDestinationHwAddr (tableOf [⟨0, 0, 0, 0, 0x0a, 1⟩]) 0x0100000a 0) ∧
      ¬ArpLookupRight
        (tableOf [⟨1, 0x0100000a, 0x80, 0, 0x0a, 1⟩,
          ⟨32, 0x0100000a, 0xffffffff, 0x0100000a, 0x0b, 1⟩]).entryList 0x0100000a
        (getDestinationHwAddr (tableOf [⟨1, 0x0100000a, 0x80, 0, 0x0a, 1⟩,
          ⟨32, 0x0100000a, 0xffffffff, 0x0100000a, 0x0b, 1⟩]) 0x0100000a 0) := by
  constructor
  · intro h
    exact absurd (h.2.mp (by decide)) (by decide)
  · intro h
    obtain ⟨e, hbest, heq⟩ := h.1 0x0a (by decide)
    have hlen := hbest.longest ⟨32, 0x0100000a, 0xffffffff, 0x0100000a, 0x0b, 1⟩ (by decide) (by decide)
    rcases List.mem_pair.mp hbest.mem with rfl | rfl
    · exact absurd hlen (by decide)
    · exact absurd heq (by decide)

/-! ### Registration -/

/-- `MAX_ARPENTRY` -/
def maxArpEntry : ℤ := 1024

/-- `register_ARP_entry`; `gatewayDaddr` is `config.gateway->daddr`, if there is a gateway. -/
def registerArpEntry (gatewayDaddr : Option U32) (t : ArpTable) (ip : U32) (haddr : HwAddr) : ArpTable :=
  let idx := t.entryNums.toInt
  let e : ArpEntry :=
    { prefixLen := 32, ip := ip, ipMask := -1, ipMasked := ip, haddr := haddr, flag := 1 }
  { t with
    entryNums := t.entryNums + 1
    entry := Function.update t.entry idx e
    gateway := if gatewayDaddr.any fun daddr => daddr &&& e.ipMask = e.ipMasked then some idx else t.gateway }

/-- `init_ARP_table`, up to the memory of the entries; `config.arp` is zero before. The test of
`working_list` in it is the wrong way round: the call gives up with an entry from `cmt_palloc` and goes on
without one. This is the table that its lines set up around that test. -/
def initArpTable (mem : ℤ → ArpEntry) : ArpTable where
  entries := 0
  entryNums := 0
  entry := mem
  gateway := none

inductive ArpOp where
  | request
  | reply
deriving DecidableEq, Repr

/-- An ARP packet to this host. -/
structure ArpMsg where
  arOp : ArpOp
  arSip : U32
  arSha : HwAddr
deriving DecidableEq, Repr

/-- The table, and the list of requests in progress. -/
structure ArpState where
  t : ArpTable
  g : ArpManager

/-- The sender is registered "if not exist", as `process_ARP_request` and `process_ARP_reply` begin. -/
def learnSender (gatewayDaddr : Option U32) (t : ArpTable) (m : ArpMsg) : ArpTable :=
  match getDestinationHwAddr t m.arSip 0 with
  | none => registerArpEntry gatewayDaddr t m.arSip m.arSha
  | some _ => t

/-- `process_ARP_request` and `process_ARP_reply`, with the loop of the latter cut off after `fuel` rounds. -/
def processArpMsg (gatewayDaddr : Option U32) (s : ArpState) (m : ArpMsg) (fuel : ℕ) :
    Except ArpFault ArpState :=
  let t := learnSender gatewayDaddr s.t m
  match m.arOp with
  | .request => .ok { s with t := t }
  | .reply => do
    let g ← processArpReply s.g m.arSip fuel
    .ok { t := t, g := g }

/-- A packet that is processed to its end. -/
def ArpMsgStep (gatewayDaddr : Option U32) (s : ArpState) (m : ArpMsg) (s' : ArpState) : Prop :=
  ∃ fuel, processArpMsg gatewayDaddr s m fuel = .ok s'

/-- The index at which a packet is registered, if it is. -/
def registeredAt (t : ArpTable) (m : ArpMsg) : Option ℤ :=
  if getDestinationHwAddr t m.arSip 0 = none then some t.entryNums.toInt else none

/-- The hardware address in the first packet of a sender. -/
def firstHaddr (ms : List ArpMsg) (ip : U32) : Option HwAddr :=
  (ms.find? fun m => m.arSip = ip).map ArpMsg.arSha

/-- What is asked of a table that has gone from `t` to `t'` with the packet `m`, the last one of `ms`. -/
structure ArpLearned (ms : List ArpMsg) (t t' : ArpTable) (m : ArpMsg) : Prop where
  found : getDestinationHwAddr t' m.arSip 0 = firstHaddr ms m.arSip
  once : ∀ ip, ip ∈ ms.map ArpMsg.arSip ↔ ∃! i, 0 ≤ i ∧ i < t'.entryNums.toInt ∧ (t'.entry i).ip = ip
  inside : ∀ i ∈ registeredAt t m, i < maxArpEntry

/-- Every packet of a sequence is processed, and the table has learned. -/
def ArpLearnsAll (gatewayDaddr : Option U32) (s : ArpState) (ms : List ArpMsg) : Prop :=
  ∀ done m rest, ms = done ++ m :: rest → ∃ t u, Run (ArpMsgStep gatewayDaddr) s done t ∧
    ArpMsgStep gatewayDaddr t m u ∧ ArpLearned (done ++ [m]) t.t u.t m

section Learning

variable {gatewayDaddr : Option U32} {s s' : ArpState} {m : ArpMsg} {ms : List ArpMsg}

/-- A table without entries has no sender in it. -/
theorem getDestinationHwAddr_empty {t : ArpTable} (h : t.entries = 0) (dip : U32) :
    getDestinationHwAddr t dip 0 = none := by
  have hlist : t.entryList = [] := by
    unfold ArpTable.entryList
    rw [h]
    rfl
  unfold getDestinationHwAddr
  rw [if_neg (by decide)]
  dsimp only
  rw [hlist]
  rfl

/-- The entry that a packet registers. -/
def ArpMsg.entry (m : ArpMsg) : ArpEntry :=
  { prefixLen := 32, ip := m.arSip, ipMask := -1, ipMasked := m.arSip, haddr := m.arSha, flag := 1 }

/-- What holds between the packets: there are no entries to look through, no requests in progress, and a
slot for every packet so far. -/
structure ArpRun (ms : List ArpMsg) (s : ArpState) : Prop where
  entries : s.t.entries = 0
  listed : s.g.Listed []
  entryNums : s.t.entryNums = BitVec.ofNat 32 ms.length
  slots : ms.length ≤ 2 ^ 31 → ∀ i (h : i < ms.length), s.t.entry i = (ms[i]).entry

/-- Nobody is found, so every packet registers its sender. -/
theorem ArpRun.step_iff (h : ArpRun ms s) :
    ArpMsgStep gatewayDaddr s m s' ↔
      s' = { s with t := registerArpEntry gatewayDaddr s.t m.arSip m.arSha } := by
  have hlearn : learnSender gatewayDaddr s.t m = registerArpEntry gatewayDaddr s.t m.arSip m.arSha := by
    unfold learnSender
    rw [getDestinationHwAddr_empty h.entries]
  unfold ArpMsgStep processArpMsg
  dsimp only
  rw [hlearn]
  cases m.arOp with
  | request => exact ⟨fun ⟨_, hok⟩ => (Except.ok.inj hok).symm, fun heq => ⟨0, by rw [heq]⟩⟩
  | reply =>
    constructor
    · rintro ⟨fuel, hok⟩
      cases hreply : processArpReply s.g m.arSip fuel with
      | error f =>
        rw [hreply] at hok
        cases hok
      | ok g =>
        rw [hreply] at hok
        -- with no request in progress the reply answers none
        have hstep : ArpStep s.g (.reply m.arSip) g := ⟨fuel, hreply⟩
        obtain rfl := ArpStep.of_empty h.listed hstep
        exact (Except.ok.inj hok).symm
    · rintro rfl
      refine ⟨1, ?_⟩
      rw [processArpReply_absent h.listed (fun a ha => by cases ha) Nat.one_pos]
      rfl

/-- **One step.** A packet takes the next slot. -/
theorem ArpRun.register (h : ArpRun ms s) (m : ArpMsg) :
    ArpRun (ms ++ [m]) { s with t := registerArpEntry gatewayDaddr s.t m.arSip m.arSha } where
  entries := h.entries
  listed := h.listed
  entryNums := by
    change s.t.entryNums + 1 = _
    rw [h.entryNums, List.length_append, BitVec.ofNat_add]
    rfl
  slots := by
    intro hlen i hi
    rw [List.length_append, List.length_singleton] at hlen hi
    -- the index is the counter, read as an `int`
    have hidx : s.t.entryNums.toInt = ms.length := by
      have hval : (BitVec.ofNat 32 ms.length).toNat = ms.length := by
        rw [BitVec.toNat_ofNat]
        exact Nat.mod_eq_of_lt (by omega)
      rw [h.entryNums, BitVec.toInt_eq_toNat_of_lt (by omega), hval]
    change Function.update s.t.entry s.t.entryNums.toInt m.entry i = _
    rw [hidx]
    rcases Nat.lt_or_ge i ms.length with hlt | hge
    · rw [Function.update_of_ne (by omega), h.slots (by omega) i hlt, List.getElem_append_left hlt]
    · obtain rfl : i = ms.length := by omega
      rw [Function.update_self, List.getElem_concat_length rfl]

/-- **Runs.** Every sequence of packets is processed, each packet in a slot of its own. -/
theorem ArpRun.of_run (h0 : ArpRun [] s) (hrun : Run (ArpMsgStep gatewayDaddr) s ms s') : ArpRun ms s' := by
  refine hrun.history_invariant ArpRun h0 fun done t m u hdone hstep => ?_
  rw [hdone.step_iff.mp hstep]
  exact hdone.register m

theorem ArpRun.exists_run (h0 : ArpRun [] s) (ms : List ArpMsg) :
    ∃ s', Run (ArpMsgStep gatewayDaddr) s ms s' := by
  induction ms using List.reverseRecOn with
  | nil => exact ⟨s, .nil⟩
  | append_singleton ms m ih =>
    obtain ⟨t, hrun⟩ := ih
    exact ⟨_, hrun.snoc (((ArpRun.of_run h0 hrun).step_iff).mpr rfl)⟩

/-- A packet is registered in the slot of its own number. -/
theorem ArpRun.registeredAt_eq (h : ArpRun ms s) (m : ArpMsg) :
    registeredAt s.t m = some (BitVec.ofNat 32 ms.length).toInt := by
  unfold registeredAt
  rw [if_pos (getDestinationHwAddr_empty h.entries _), h.entryNums]

/-- The table is left with the packet behind the first `MAX_ARPENTRY` ones, whoever they are from. -/
theorem arp_inside_iff (h0 : ArpRun [] s) (ms : List ArpMsg) :
    (∀ done m rest t, ms = done ++ m :: rest → Run (ArpMsgStep gatewayDaddr) s done t →
      ∀ i ∈ registeredAt t.t m, i < maxArpEntry) ↔ ms.length ≤ 1024 := by
  constructor
  · intro hall
    by_contra hlen
    have hlt : 1024 < ms.length := not_le.mp hlen
    -- the packet of number 1024
    obtain ⟨t, hrun⟩ := @ArpRun.exists_run gatewayDaddr s h0 (ms.take 1024)
    have hsplit : ms = ms.take 1024 ++ ms[1024] :: ms.drop 1025 := by
      rw [List.cons_getElem_drop_succ, List.take_append_drop]
    have hat := (ArpRun.of_run h0 hrun).registeredAt_eq ms[1024]
    rw [List.length_take, Nat.min_eq_left hlt.le] at hat
    exact absurd (hall _ _ _ t hsplit hrun _ hat) (by decide)
  · rintro hlen done m rest t rfl hrun i hi
    rw [List.length_append, List.length_cons] at hlen
    rw [(ArpRun.of_run h0 hrun).registeredAt_eq] at hi
    obtain rfl := Option.some.inj hi
    have hval : (BitVec.ofNat 32 done.length).toNat = done.length := by
      rw [BitVec.toNat_ofNat]
      exact Nat.mod_eq_of_lt (by omega)
    rw [BitVec.toInt_eq_toNat_of_lt (by omega), hval]
    unfold maxArpEntry
    omega

theorem arpRun_initial (mem : ℤ → ArpEntry) (heap : Addr → Option ArpQueueEntry) (workingList : Addr)
    (e : ArpQueueEntry) : ArpRun [] ⟨initArpTable mem, initArp heap workingList e⟩ where
  entries := rfl
  listed := initArp_listed heap workingList e
  entryNums := rfl
  slots := fun _ i h => absurd h (Nat.not_lt_zero i)

/-- The first packet's sender is not found. -/
theorem ArpRun.not_learned (h0 : ArpRun [] s) (m : ArpMsg) (rest : List ArpMsg) :
    ¬ArpLearnsAll gatewayDaddr s (m :: rest) := by
  intro hall
  obtain ⟨t, u, hrun, hstep, hlearned⟩ := hall [] m rest rfl
  have hfound := hlearned.found
  rw [getDestinationHwAddr_empty (ArpRun.of_run h0 (hrun.snoc hstep)).entries] at hfound
  have hfirst : firstHaddr ([] ++ [m]) m.arSip = some m.arSha := by
    unfold firstHaddr
    have hhit := List.find?_cons_of_pos (p := fun m' : ArpMsg => decide (m'.arSip = m.arSip)) (l := [])
      (decide_eq_true (rfl : m.arSip = m.arSip))
    exact congrArg (Option.map ArpMsg.arSha) hhit
  exact absurd (hfound.trans hfirst) (Option.some_ne_none _).symm

end Learning

/-- **When the table learns.** From the empty table, for every sequence of requests and replies: only when
there are none. -/
theorem arp_learned_iff (gatewayDaddr : Option U32) (mem : ℤ → ArpEntry)
    (heap : Addr → Option ArpQueueEntry) (workingList : Addr) (e : ArpQueueEntry) (ms : List ArpMsg) :
    ArpLearnsAll gatewayDaddr ⟨initArpTable mem, initArp heap workingList e⟩ ms ↔ ms = [] := by
  cases ms with
  | nil =>
    refine iff_of_true (fun done m rest h => ?_) rfl
    exact absurd h.symm (List.append_ne_nil_of_right_ne_nil _ (List.cons_ne_nil _ _))
  | cons m rest =>
    exact iff_of_false ((arpRun_initial mem heap workingList e).not_learned m rest) (List.cons_ne_nil _ _)

/-- One reply, from `10.0.0.1`. -/
theorem arp_reply_not_learned :
    ¬ArpLearnsAll none ⟨initArpTable fun _ => ⟨0, 0, 0, 0, 0, 0⟩, initArp (fun _ => none) 0
      ⟨none, 0, 0, 0, 0⟩⟩ [⟨.reply, 0x0100000a, 0x0a⟩] :=
  (arpRun_initial _ _ _ _).not_learned _ _

end CmtTcp
