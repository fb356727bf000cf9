import Notnets.Rpc.Bookkeeping

/-!
# No leaks

Over whole runs of the server, what exists is what the serviced rows record, every
removal is the first of its object, and a shutdown leaves nothing behind.
-/

namespace Notnets
namespace Rpc

open Coord
open Foundation
open Os
open Queue

/-!
# The server and its journal
-/

structure LedgerState where
  header : CoordHeader
  journal : Journal

/-- The state after a call that returns. -/
def ledgerNext (boost : Int -> Int -> OsM ShmPair) (s : LedgerState) (call : ServerCall) :
    Option LedgerState :=
  (returnOf (perform (journalOps boost) journalAttach s.header call) s.journal).map
    fun result => ⟨result.1.1, result.2⟩

structure Started (coordKey : Int) (s : LedgerState) : Prop where
  header : s.header = { CoordHeader.zero with shmid := s.header.shmid }
  calls : s.journal.kernel.faults = []
  coordinator : exists e, s.journal.kernel.segments.entries s.header.shmid = some e ∧
    e.key = coordKey
  segments : forall shmid, shmid ≠ s.header.shmid ->
    s.journal.kernel.segments.entries shmid = none
  semaphores : forall semid, s.journal.kernel.semaphores.entries semid = none
  removedSegments :
    IpcTable.Balanced s.journal.kernel.segments s.journal.removedSegments
  removedSemaphores :
    IpcTable.Balanced s.journal.kernel.semaphores s.journal.removedSemaphores

def ledgerSystem (boost : Int -> Int -> OsM ShmPair) (coordKey : Int) :
    TransitionSystem LedgerState ServerCall where
  Initial := Started coordKey
  next := ledgerNext boost

/-- A client asks for a POLL or a SEM queue of an admitted size, and its keys meet
no others. -/
def Admissible (coordKey : Int) (s : LedgerState) : ServerCall -> Prop
  | .requestSlot clientId messageSize type =>
      Admits type messageSize ∧
        BooksApart coordKey
          (reservations (requestSlot s.header clientId messageSize type).1)
  | .clientClose _ => True
  | .accept => True
  | .managePool => True
  | .visit _ => True

/-!
# What a run keeps
-/

structure Kept (coordKey : Int) (s : LedgerState) : Prop where
  enrolled : Enrolled coordKey s.header
  holdings : Holdings coordKey s.header.shmid (bookings s.header) s.journal

section Kept

variable {coordKey : Int} {s s' : LedgerState} {boost : Int -> Int -> OsM ShmPair}

theorem Started.kept (h : Started coordKey s) : Kept coordKey s := by
  have hreserved : forall i, s.header.clientReserved i = false := by
    intro i
    rw [h.header]
    rfl
  have hcreated : forall i, (s.header.slots i).shmCreated = false := by
    intro i
    rw [h.header]
    rfl
  have hbook : forall i, bookings s.header i = none :=
    fun i => bookings_of_not_created (hcreated i)
  have hreservation : forall i, reservations s.header i = none := by
    intro i
    unfold reservations
    rw [hreserved i]
    rfl
  have hsemaphores : forall i, heldSemaphores s.journal.kernel.segments
      (bookings s.header i) = [] := by
    intro i
    rw [hbook i]
    rfl
  constructor
  · constructor
    · intro i h
      rw [hcreated i] at h
      cases h
    · intro i h
      rw [hreserved i] at h
      cases h
    · exact booksApart_of_none hreservation
  · constructor
    · exact h.calls
    · exact h.coordinator
    · intro i b hb
      rw [hbook i] at hb
      cases hb
    · intro shmid hthere
      by_contra hnot
      exact hthere (h.segments shmid fun heq => hnot (Or.inl heq))
    · intro i semid hheld
      rw [hsemaphores i] at hheld
      cases hheld
    · intro i
      rw [hsemaphores i]
      exact List.nodup_nil
    · intro i i' semid _ hheld
      rw [hsemaphores i] at hheld
      cases hheld
    · intro semid hthere
      exact absurd (h.semaphores semid) hthere
    · exact h.removedSegments
    · exact h.removedSemaphores

theorem ledgerNext_of_returns {call : ServerCall} {header' : CoordHeader}
    {ret : ServerReturn} {j' : Journal}
    (h : Returns (perform (journalOps boost) journalAttach s.header call) s.journal
      (header', ret) j') : ledgerNext boost s call = some ⟨header', j'⟩ := by
  unfold ledgerNext
  rw [returnOf_of_returns h]
  rfl

/-- A run with the journal is a run without it. -/
theorem returns_of_ledgerNext {call : ServerCall}
    (h : ledgerNext boost s call = some s') :
    exists ret, Returns (perform (poolOps boost) shmAttach s.header call) s.journal.kernel
      (s'.header, ret) s'.journal.kernel := by
  rcases Option.map_eq_some_iff.mp h with ⟨result, hreturn, hs⟩
  rcases (erases_perform boost s.header call s.journal).returns
    (returns_of_returnOf hreturn) with ⟨plain, k', hplain, hresult, hk⟩
  rw [← hs, hk, hresult]
  exact ⟨plain.2, hplain⟩

theorem Kept.same (h : Kept coordKey s) {header' : CoordHeader}
    (hsame : SameBooks s.header header') : Kept coordKey ⟨header', s.journal⟩ := by
  refine ⟨hsame.enrolled h.enrolled, ?_⟩
  show Holdings coordKey header'.shmid (bookings header') s.journal
  rw [hsame.shmid, hsame.bookings_eq]
  exact h.holdings

theorem Kept.step (boost : Int -> Int -> OsM ShmPair) (h : Kept coordKey s)
    {call : ServerCall} (hcall : Admissible coordKey s call) :
    exists s', ledgerNext boost s call = some s' ∧ Kept coordKey s' := by
  cases call with
  | requestSlot clientId messageSize type =>
      rcases hcall with ⟨hadmits, hapart⟩
      let header' := (requestSlot s.header clientId messageSize type).1
      refine ⟨⟨header', s.journal⟩, ledgerNext_of_returns (returns_pure.mpr ⟨rfl, rfl⟩),
        h.enrolled.request hadmits hapart, ?_⟩
      have hshmid : header'.shmid = s.header.shmid := by
        rcases requestSlot_cases s.header clientId messageSize type with
          ⟨i, _, hrequest⟩ | ⟨_, hrequest⟩
        · show (requestSlot s.header clientId messageSize type).1.shmid = _
          rw [hrequest]
          rfl
        · show (requestSlot s.header clientId messageSize type).1.shmid = _
          rw [hrequest]
      show Holdings coordKey header'.shmid (bookings header') s.journal
      rw [hshmid, bookings_request h.enrolled]
      exact h.holdings
  | clientClose clientId =>
      exact ⟨_, ledgerNext_of_returns (returns_pure.mpr ⟨rfl, rfl⟩),
        h.same (sameBooks_close s.header clientId)⟩
  | accept =>
      rcases exists_accept h.holdings.calls s.header with ⟨result, haccept, hsame⟩
      exact ⟨_, ledgerNext_of_returns haccept, h.same hsame⟩
  | managePool =>
      rcases exists_pass boost (fun _ _ => True) (fun _ _ _ _ _ _ _ => trivial) trivial
        h.enrolled h.holdings with ⟨header', j', hpass, hshmid, henrolled, hbooks, _⟩
      refine ⟨⟨header', j'⟩, ledgerNext_of_returns (returns_bind.mpr ⟨_, _, hpass,
        returns_pure.mpr ⟨rfl, rfl⟩⟩), henrolled, ?_⟩
      rw [← hshmid] at hbooks
      exact hbooks
  | visit slot =>
      rcases exists_visit boost h.enrolled h.holdings slot with ⟨shms, j', hvisit, hbooks⟩
      refine ⟨⟨visitWith shms s.header slot, j'⟩, ledgerNext_of_returns
        (returns_bind.mpr ⟨_, _, hvisit, returns_pure.mpr ⟨rfl, rfl⟩⟩),
        h.enrolled.visit shms slot, ?_⟩
      rw [← visitWith_shmid shms s.header slot] at hbooks
      exact hbooks

theorem kept_of_reachable
    (hs : (ledgerSystem boost coordKey).ReachableUnder (Admissible coordKey) s) :
    Kept coordKey s := by
  refine TransitionSystem.reachableUnder_invariant (fun _ => Started.kept) ?_ hs
  intro s call s' h hcall hnext
  rcases h.step boost hcall with ⟨s1, hnext1, hkept⟩
  have hsame : some s1 = some s' := hnext1.symm.trans hnext
  injection hsame with hsame
  rw [← hsame]
  exact hkept

end Kept

/-!
# What exists is what is recorded
-/

def RecordsSemaphore (segments : IpcTable Segment) (row : CoordRow) (semid : Int) :
    Prop :=
  row.type = .sem ∧ exists shmid ids which, Uses row shmid ∧
    HasSemaphores segments shmid ids ∧ ids which = semid

/-- Besides the coordinator's segment, there is what serviced rows record, and what
was removed was removed once. -/
structure NoLeak (s : LedgerState) : Prop where
  segments : forall shmid, s.journal.kernel.segments.entries shmid ≠ none <->
    shmid = s.header.shmid ∨
      exists i, (s.header.slots i).shmCreated = true ∧ Uses (s.header.slots i) shmid
  single : forall i i' shmid, (s.header.slots i).shmCreated = true ->
    (s.header.slots i').shmCreated = true -> Uses (s.header.slots i) shmid ->
    Uses (s.header.slots i') shmid -> shmid ≠ s.header.shmid ∧ i = i'
  semaphores : forall semid, s.journal.kernel.semaphores.entries semid ≠ none <->
    exists i, (s.header.slots i).shmCreated = true ∧
      RecordsSemaphore s.journal.kernel.segments (s.header.slots i) semid
  unreserved : forall i, s.header.clientReserved i = false ->
    (s.header.slots i).shmCreated = false
  removedSegments :
    IpcTable.Balanced s.journal.kernel.segments s.journal.removedSegments
  removedSemaphores :
    IpcTable.Balanced s.journal.kernel.semaphores s.journal.removedSemaphores

/-- `coord_delete`. -/
def coordDelete {m : Type -> Type} (ops : PoolOps m) (header : CoordHeader) : m Int :=
  ops.shmRemove header.shmid

/-- The rest of `shutdown`, once the manager has stopped, returns and leaves
nothing. -/
def ShutsDown (boost : Int -> Int -> OsM ShmPair) (s : LedgerState) : Prop :=
  exists header' j' j'',
    Returns (managePool (journalOps boost) (coordShutdown s.header)) s.journal header'
      j' ∧
      (forall i, header'.clientReserved i = false) ∧
      (forall shmid, j'.kernel.segments.entries shmid ≠ none <->
        shmid = s.header.shmid) ∧
      (forall semid, j'.kernel.semaphores.entries semid = none) ∧
      Returns (coordDelete (journalOps boost) header') j' 0 j'' ∧
      (forall shmid, j''.kernel.segments.entries shmid = none) ∧
      (forall semid, j''.kernel.semaphores.entries semid = none) ∧
      IpcTable.Balanced j''.kernel.segments j''.removedSegments ∧
      IpcTable.Balanced j''.kernel.semaphores j''.removedSemaphores

section Leak

variable {coordKey : Int} {s : LedgerState} {boost : Int -> Int -> OsM ShmPair}

theorem mem_bookedSegments {header : CoordHeader} {i : Slot} {shmid : Int} :
    shmid ∈ heldSegments (bookings header i) <->
      (header.slots i).shmCreated = true ∧ Uses (header.slots i) shmid := by
  constructor
  · intro hheld
    cases hbook : bookings header i with
    | none =>
        rw [hbook] at hheld
        cases hheld
    | some b =>
        rw [hbook] at hheld
        rcases bookings_eq_some.mp hbook with ⟨hcreated, rfl⟩
        refine ⟨hcreated, ?_⟩
        rcases mem_heldSegments.mp hheld with hid | hid
        · exact Or.inl hid.symm
        · exact Or.inr hid.symm
  · intro hboth
    rcases hboth with ⟨hcreated, hu⟩
    rw [bookings_eq_some.mpr ⟨hcreated, rfl⟩, mem_heldSegments]
    rcases hu with hid | hid
    · exact Or.inl hid.symm
    · exact Or.inr hid.symm

theorem mem_allSemaphores {request response : Semaphore -> Int} {semid : Int} :
    semid ∈ allSemaphores request response <->
      exists which, request which = semid ∨ response which = semid := by
  unfold allSemaphores
  simp only [List.mem_cons, List.not_mem_nil, or_false]
  constructor
  · intro hcases
    rcases hcases with h | h | h | h | h | h
    · exact ⟨.full, Or.inl h.symm⟩
    · exact ⟨.empty, Or.inl h.symm⟩
    · exact ⟨.lock, Or.inl h.symm⟩
    · exact ⟨.full, Or.inr h.symm⟩
    · exact ⟨.empty, Or.inr h.symm⟩
    · exact ⟨.lock, Or.inr h.symm⟩
  · intro hboth
    rcases hboth with ⟨which, h⟩
    cases which with
    | lock => lia
    | full => lia
    | empty => lia

theorem mem_bookedSemaphores {header : CoordHeader} {j : Journal} {coordShmid : Int}
    (h : Holdings coordKey coordShmid (bookings header) j) {i : Slot} {semid : Int} :
    semid ∈ heldSemaphores j.kernel.segments (bookings header i) <->
      (header.slots i).shmCreated = true ∧
        RecordsSemaphore j.kernel.segments (header.slots i) semid := by
  cases hbook : bookings header i with
  | none =>
      constructor
      · intro hheld
        cases hheld
      · intro hboth
        rcases hboth with ⟨hcreated, _⟩
        rw [bookings_eq_some.mpr ⟨hcreated, rfl⟩] at hbook
        cases hbook
  | some b =>
      rcases bookings_eq_some.mp hbook with ⟨hcreated, rfl⟩
      rcases (h.stands i _ hbook).request with ⟨e, hrequest, _⟩
      rcases (h.stands i _ hbook).response with ⟨e', hresponse, _⟩
      by_cases hsem : (header.slots i).type = .sem
      · rw [heldSemaphores_of_has hsem ⟨e, hrequest, rfl⟩ ⟨e', hresponse, rfl⟩,
          mem_allSemaphores]
        constructor
        · intro hparts
          rcases hparts with ⟨which, hid | hid⟩
          · exact ⟨hcreated, hsem, _, _, which, Or.inl rfl, ⟨e, hrequest, rfl⟩, hid⟩
          · exact ⟨hcreated, hsem, _, _, which, Or.inr rfl, ⟨e', hresponse, rfl⟩, hid⟩
        · intro hall
          rcases hall with ⟨_, _, shmid, ids, which, hshmid | hshmid, hhas, hid⟩
          · rw [← hshmid] at hhas
            have hsame := hhas.unique ⟨e, hrequest, rfl⟩
            rw [hsame] at hid
            exact ⟨which, Or.inl hid⟩
          · rw [← hshmid] at hhas
            have hsame := hhas.unique ⟨e', hresponse, rfl⟩
            rw [hsame] at hid
            exact ⟨which, Or.inr hid⟩
      · rw [heldSemaphores_of_ne hsem]
        constructor
        · intro hheld
          cases hheld
        · intro hgiven
          rcases hgiven with ⟨_, hsem', _⟩
          exact absurd hsem' hsem

theorem Kept.noLeak (h : Kept coordKey s) : NoLeak s where
  segments := by
    intro shmid
    constructor
    · intro hthere
      rcases h.holdings.segments shmid hthere with hcoord | ⟨i, hheld⟩
      · exact Or.inl hcoord
      · exact Or.inr ⟨i, mem_bookedSegments.mp hheld⟩
    · intro hcases
      rcases hcases with hcoord | ⟨i, hused⟩
      · rcases h.holdings.coordinator with ⟨e, hentry, _⟩
        rw [hcoord, hentry]
        exact Option.some_ne_none e
      · exact h.holdings.segment_exists (mem_bookedSegments.mpr hused)
  single := by
    intro i i' shmid hcreated hcreated' hu hu'
    have hheld := mem_bookedSegments.mpr ⟨hcreated, hu⟩
    have hheld' := mem_bookedSegments.mpr ⟨hcreated', hu'⟩
    exact ⟨h.holdings.ne_coordinator h.enrolled.books hheld,
      h.holdings.one_holder h.enrolled.books hheld hheld'⟩
  semaphores := by
    intro semid
    constructor
    · intro hthere
      rcases h.holdings.semaphores semid hthere with ⟨i, hheld⟩
      exact ⟨i, (mem_bookedSemaphores h.holdings).mp hheld⟩
    · intro hboth
      rcases hboth with ⟨i, hrecorded⟩
      have hheld := (mem_bookedSemaphores h.holdings).mpr hrecorded
      rcases h.holdings.sets i semid hheld with ⟨_, _, e, _, _, hentry, _⟩
      rw [hentry]
      exact Option.some_ne_none e
  unreserved := by
    intro i hfree
    by_contra hcreated
    rw [h.enrolled.reserved i (by simpa using hcreated)] at hfree
    cases hfree
  removedSegments := h.holdings.removedSegments
  removedSemaphores := h.holdings.removedSemaphores

/-!
# Shutting down
-/

theorem sameBooks_shutdown (header : CoordHeader) :
    SameBooks header (coordShutdown header) :=
  ⟨rfl, rfl, fun _ => ⟨true, _, rfl⟩⟩

structure Retiring (done : List Slot) (header : CoordHeader) : Prop where
  freed : forall i, i ∈ done -> header.clientReserved i = false
  marked : forall i, i ∉ done -> (header.slots i).detach = true

theorem Retiring.visit {done todo : List Slot} {slot : Slot} {header : CoordHeader}
    (hsplit : List.finRange slotNum = done ++ slot :: todo) (h : Retiring done header)
    (shms : ShmPair) : Retiring (done ++ [slot]) (visitWith shms header slot) := by
  have hnodup := List.nodup_finRange slotNum
  rw [hsplit, List.nodup_append] at hnodup
  have hnew : slot ∉ done :=
    fun hmem => hnodup.right.right slot hmem slot List.mem_cons_self rfl
  constructor
  · intro i hi
    by_cases hslot : i = slot
    · rw [hslot]
      exact (visitWith_detach shms header (h.marked slot hnew)).right
    · rw [(visitWith_other shms header hslot).right]
      rcases List.mem_append.mp hi with hdone | hlast
      · exact h.freed i hdone
      · exact absurd (List.mem_singleton.mp hlast) hslot
  · intro i hi
    rw [List.mem_append, List.mem_singleton, not_or] at hi
    rw [(visitWith_other shms header hi.right).left]
    exact h.marked i hi.left

theorem Kept.shutsDown (boost : Int -> Int -> OsM ShmPair) (h : Kept coordKey s) :
    ShutsDown boost s := by
  have hsame := sameBooks_shutdown s.header
  have hbooks : Holdings coordKey s.header.shmid (bookings (coordShutdown s.header))
      s.journal := by
    rw [hsame.bookings_eq]
    exact h.holdings
  rcases exists_pass boost Retiring
    (fun _ _ _ _ shms hsplit hdone => hdone.visit hsplit shms)
    ⟨fun _ hi => absurd hi List.not_mem_nil, fun _ _ => rfl⟩ (hsame.enrolled h.enrolled)
    hbooks with ⟨header', j', hpass, hshmid, henrolled, hlast, hretired⟩
  have hfree : forall i, header'.clientReserved i = false :=
    fun i => hretired.freed i (List.mem_finRange i)
  have hnone : forall i, bookings header' i = none := by
    intro i
    apply bookings_of_not_created
    by_contra hcreated
    have hreserved := henrolled.reserved i (by simpa using hcreated)
    rw [hfree i] at hreserved
    cases hreserved
  rcases hlast.coordinator with ⟨e, hentry, _⟩
  have hthere : j'.kernel.segments.entries s.header.shmid ≠ none := by
    rw [hentry]
    exact Option.some_ne_none e
  have honly : forall shmid, j'.kernel.segments.entries shmid ≠ none ->
      shmid = s.header.shmid := by
    intro shmid hsegment
    rcases hlast.segments shmid hsegment with hcoord | ⟨i, hheld⟩
    · exact hcoord
    · rw [hnone i] at hheld
      cases hheld
  have hempty : forall semid, j'.kernel.semaphores.entries semid = none := by
    intro semid
    by_contra hset
    rcases hlast.semaphores semid hset with ⟨i, hheld⟩
    rw [hnone i] at hheld
    cases hheld
  have hdelete : Returns (coordDelete (journalOps boost) header') j' 0
      (j'.remove [] [s.header.shmid]) := by
    show Returns (journalShmRemove header'.shmid) j' 0 _
    rw [show header'.shmid = s.header.shmid from hshmid]
    exact returns_journalShmRemove hentry
  refine ⟨header', j', j'.remove [] [s.header.shmid], hpass, hfree, ?_, hempty, hdelete,
    ?_, hempty, hlast.removedSegments.remove hthere, ?_⟩
  · intro shmid
    constructor
    · exact honly shmid
    · intro heq
      rw [heq]
      exact hthere
  · intro shmid
    by_cases hid : shmid = s.header.shmid
    · rw [hid]
      exact IpcTable.remove_self _ _
    · apply (IpcTable.remove_of_ne _ _ hid).trans
      by_contra hsegment
      exact hid (honly shmid hsegment)
  · have hbalanced := hlast.removedSemaphores
    unfold Journal.remove
    rw [List.append_nil]
    exact hbalanced

/--
In every state of a run, what exists is what serviced rows record, every removal
was the first of its object, every admissible call returns, and a shutdown leaves
nothing behind.
-/
theorem no_leak (boost : Int -> Int -> OsM ShmPair)
    (hs : (ledgerSystem boost coordKey).ReachableUnder (Admissible coordKey) s) :
    NoLeak s ∧ ShutsDown boost s ∧
      forall call, Admissible coordKey s call ->
        exists s', ledgerNext boost s call = some s' := by
  have h := kept_of_reachable hs
  refine ⟨h.noLeak, h.shutsDown boost, ?_⟩
  intro call hcall
  rcases h.step boost hcall with ⟨s', hnext, _⟩
  exact ⟨s', hnext⟩

/-!
# A row used twice
-/

theorem reservations_request {header : CoordHeader} {clientId messageSize : Int}
    {type : QueueType} (hfree : forall i, header.clientReserved i = false) {i : Slot}
    {b : Booking}
    (h : reservations (requestSlot header clientId messageSize type).1 i = some b) :
    freeSlot header = some i ∧ b.type = type ∧ b.clientId = clientId := by
  rcases requestSlot_cases header clientId messageSize type with
    ⟨slot, hslot, hrequest⟩ | ⟨_, hrequest⟩
  · rw [hrequest] at h
    unfold reservations at h
    by_cases hi : i = slot
    · rw [hi, CoordHeader.setReserved_clientReserved_self, if_pos rfl,
        CoordHeader.setReserved_slots, CoordHeader.setRow_slots_self] at h
      injection h with h
      rw [hi, ← h]
      exact ⟨hslot, rfl, rfl⟩
    · rw [CoordHeader.setReserved_clientReserved_of_ne _ _ _ hi] at h
      rw [if_neg (by simp [hfree i])] at h
      cases h
  · rw [hrequest] at h
    unfold reservations at h
    rw [if_neg (by simp [hfree i])] at h
    cases h

structure OwnKeysApart (coordKey : Int) (b : Booking) : Prop where
  nonzero : b.keys.1 ≠ 0 ∧ b.keys.2 ≠ 0
  coordinator : b.keys.1 ≠ coordKey ∧ b.keys.2 ≠ coordKey
  pair : b.keys.1 ≠ b.keys.2
  own : b.requests.Pairwise fun r r' => r.key = r'.key -> r.key = 0

theorem booksApart_first {header : CoordHeader} {clientId messageSize : Int}
    {type : QueueType} (hfree : forall i, header.clientReserved i = false)
    (hown : OwnKeysApart coordKey ⟨type, clientId, ShmPair.zero⟩) :
    BooksApart coordKey
      (reservations (requestSlot header clientId messageSize type).1) := by
  have hbook : forall i b,
      reservations (requestSlot header clientId messageSize type).1 i = some b ->
      freeSlot header = some i ∧ OwnKeysApart coordKey b := by
    intro i b h
    rcases reservations_request hfree h with ⟨hslot, htype, hclient⟩
    cases b with
    | mk type' clientId' shms =>
        dsimp only at htype hclient
        subst htype hclient
        exact ⟨hslot, hown.nonzero, hown.coordinator, hown.pair, hown.own⟩
  have hsame : forall i i' b b',
      reservations (requestSlot header clientId messageSize type).1 i = some b ->
      reservations (requestSlot header clientId messageSize type).1 i' = some b' ->
      i = i' := by
    intro i i' b b' h h'
    exact Option.some.inj ((hbook i b h).left.symm.trans (hbook i' b' h').left)
  constructor
  · intro i b key h hkey
    have hkeys := (hbook i b h).right.nonzero
    rcases hkey with hkey | hkey
    · rw [← hkey]
      exact hkeys.left
    · rw [← hkey]
      exact hkeys.right
  · intro i b h hkey
    have hkeys := (hbook i b h).right.coordinator
    rcases hkey with hkey | hkey
    · exact hkeys.left hkey
    · exact hkeys.right hkey
  · exact fun i b h => (hbook i b h).right.pair
  · exact fun i i' b b' _ h h' _ _ _ => hsame i i' b b' h h'
  · exact fun i b h => (hbook i b h).right.own
  · exact fun i i' b b' _ _ h h' _ _ _ _ => hsame i i' b b' h h'

end Leak

def ledgerStart : LedgerState where
  header := CoordHeader.zero
  journal :=
    { kernel :=
        { emptyKernel with
          segments := IpcTable.empty.insert 5 (Segment.zero 4096) rfl }
      removedSegments := []
      removedSemaphores := [] }

theorem ledgerStart_started : Started 5 ledgerStart where
  header := rfl
  calls := rfl
  coordinator := ⟨⟨5, Segment.zero 4096⟩, rfl, rfl⟩
  segments := fun _ hne => IpcTable.insert_of_ne IpcTable.empty _ rfl hne
  semaphores := fun _ => rfl
  removedSegments := by
    refine ⟨List.nodup_nil, ?_⟩
    intro shmid
    constructor
    · intro hmem
      cases hmem
    · intro hparts
      rcases hparts with ⟨hlow, hhigh, hnone⟩
      have hhigh : shmid < (1 : Nat) := hhigh
      have hzero : shmid = 0 := by lia
      rw [hzero] at hnone
      cases hnone
  removedSemaphores := by
    refine ⟨List.nodup_nil, ?_⟩
    intro semid
    constructor
    · intro hmem
      cases hmem
    · intro hall
      rcases hall with ⟨hlow, hhigh, _⟩
      have hhigh : semid < (0 : Nat) := hhigh
      lia

def reuseCheck (s : LedgerState) : ServerCall -> Bool
  | .requestSlot clientId messageSize type =>
      decide ((clientId, messageSize, type) = (1000, 64, QueueType.sem) ∨
        (clientId, messageSize, type) = (7, 64, QueueType.poll)) &&
      decide (forall i, s.header.clientReserved i = false)
  | _ => true

theorem admissible_of_reuseCheck (s : LedgerState) (call : ServerCall)
    (h : reuseCheck s call = true) : Admissible 5 s call := by
  cases call with
  | requestSlot clientId messageSize type =>
      unfold reuseCheck at h
      rw [Bool.and_eq_true] at h
      have hfree := of_decide_eq_true h.right
      rcases of_decide_eq_true h.left with hsem | hpoll
      · injection hsem with hclient hrest
        injection hrest with hsize htype
        subst hclient hsize htype
        refine ⟨by decide, booksApart_first hfree ?_⟩
        exact ⟨by decide, by decide, by decide, by decide⟩
      · injection hpoll with hclient hrest
        injection hrest with hsize htype
        subst hclient hsize htype
        refine ⟨by decide, booksApart_first hfree ?_⟩
        exact ⟨by decide, by decide, by decide, by decide⟩
  | clientClose clientId => trivial
  | accept => trivial
  | managePool => trivial
  | visit slot => trivial

/-- A SEM client comes, is accepted and goes; a POLL client that takes its row goes
before it was serviced. -/
def reuseCalls : List ServerCall :=
  [.requestSlot 1000 64 .sem, .visit firstSlot, .accept, .clientClose 1000,
    .visit firstSlot, .requestSlot 7 64 .poll, .clientClose 7, .visit firstSlot]

def noBoost (_ _ : Int) : OsM ShmPair :=
  pure ShmPair.zero

theorem no_leak_reuse : exists s,
    (ledgerSystem noBoost 5).ReachableUnder (Admissible 5) s ∧
      s.journal.removedSegments = [1, 2, 3, 4] ∧
      s.journal.removedSemaphores = [0, 1, 2, 3, 4, 5] ∧
      NoLeak s ∧ ShutsDown noBoost s := by
  have hlogs : ((ledgerSystem noBoost 5).executeChecked reuseCheck ledgerStart
      reuseCalls).map (fun s =>
        (s.journal.removedSegments, s.journal.removedSemaphores)) =
        some ([1, 2, 3, 4], [0, 1, 2, 3, 4, 5]) := by
    decide +kernel
  rcases Option.map_eq_some_iff.mp hlogs with ⟨s, hexec, hlogs⟩
  have hs := TransitionSystem.reachableUnder_of_executeChecked admissible_of_reuseCheck
    ledgerStart_started hexec
  injection hlogs with hsegments hsemaphores
  have h := no_leak noBoost hs
  exact ⟨s, hs, hsegments, hsemaphores, h.left, h.right.left⟩

end Rpc
end Notnets
