import Notnets.Rpc.Journal

/-!
# Who holds what

The rows that were serviced and not cleared yet are the books of the server: a
segment or a semaphore that exists is held by one of them, and what was removed
was removed once.
-/

namespace Notnets
namespace Rpc

open Coord
open Foundation
open Os
open Queue

structure Booking where
  type : QueueType
  clientId : Int
  shms : ShmPair

def Booking.ofRow (row : CoordRow) : Booking :=
  ⟨row.type, row.clientId, row.shms⟩

def bookings (header : CoordHeader) (slot : Slot) : Option Booking :=
  if (header.slots slot).shmCreated then some (.ofRow (header.slots slot)) else none

def reservations (header : CoordHeader) (slot : Slot) : Option Booking :=
  if header.clientReserved slot then some (.ofRow (header.slots slot)) else none

def Booking.keys (b : Booking) : Int × Int :=
  derivedKeys (allocatorOf b.type) b.clientId

def Booking.requests (b : Booking) : List SetRequest :=
  if b.type = .sem then connectionRequests b.clientId else []

def heldSegments : Option Booking -> List Int
  | some b => [b.shms.requestShm.shmid, b.shms.responseShm.shmid]
  | none => []

def heldSemaphores (segments : IpcTable Segment) : Option Booking -> List Int
  | some b =>
      if b.type = .sem then
        match segments.entries b.shms.requestShm.shmid,
          segments.entries b.shms.responseShm.shmid with
        | some request, some response =>
            allSemaphores request.object.semaphores response.object.semaphores
        | _, _ => []
      else []
  | none => []

structure Booking.Stands (segments : IpcTable Segment) (b : Booking) : Prop where
  request : exists e, segments.entries b.shms.requestShm.shmid = some e ∧
    e.key = b.keys.1
  response : exists e, segments.entries b.shms.responseShm.shmid = some e ∧
    e.key = b.keys.2

structure BooksApart (coordKey : Int) (book : Slot -> Option Booking) : Prop where
  nonzero : forall i b key, book i = some b -> HasKey b.keys key -> key ≠ 0
  coordinator : forall i b, book i = some b -> ¬ HasKey b.keys coordKey
  pair : forall i b, book i = some b -> b.keys.1 ≠ b.keys.2
  segments : forall i j b b' key, book i = some b -> book j = some b' -> key ≠ 0 ->
    HasKey b.keys key -> HasKey b'.keys key -> i = j
  own : forall i b, book i = some b ->
    b.requests.Pairwise fun r r' => r.key = r'.key -> r.key = 0
  semaphores : forall i j b b' r r', book i = some b -> book j = some b' ->
    r ∈ b.requests -> r' ∈ b'.requests -> r.key = r'.key -> r.key ≠ 0 -> i = j

theorem BooksApart.mono {coordKey : Int} {book book' : Slot -> Option Booking}
    (h : BooksApart coordKey book')
    (hsub : forall i b, book i = some b -> exists b', book' i = some b' ∧
      b'.keys = b.keys ∧ b'.requests = b.requests) : BooksApart coordKey book := by
  constructor
  · intro i b key hbook hkey
    rcases hsub i b hbook with ⟨b', hbook', hkeys, _⟩
    rw [← hkeys] at hkey
    exact h.nonzero i b' key hbook' hkey
  · intro i b hbook
    rcases hsub i b hbook with ⟨b', hbook', hkeys, _⟩
    rw [← hkeys]
    exact h.coordinator i b' hbook'
  · intro i b hbook
    rcases hsub i b hbook with ⟨b', hbook', hkeys, _⟩
    rw [← hkeys]
    exact h.pair i b' hbook'
  · intro i i' b1 b2 key hbook1 hbook2 hne hkey1 hkey2
    rcases hsub i b1 hbook1 with ⟨b1', hbook1', hkeys1, _⟩
    rcases hsub i' b2 hbook2 with ⟨b2', hbook2', hkeys2, _⟩
    rw [← hkeys1] at hkey1
    rw [← hkeys2] at hkey2
    exact h.segments i i' b1' b2' key hbook1' hbook2' hne hkey1 hkey2
  · intro i b hbook
    rcases hsub i b hbook with ⟨b', hbook', _, hrequests⟩
    rw [← hrequests]
    exact h.own i b' hbook'
  · intro i i' b1 b2 r r' hbook1 hbook2 hr hr' hclash hne
    rcases hsub i b1 hbook1 with ⟨b1', hbook1', _, hrequests1⟩
    rcases hsub i' b2 hbook2 with ⟨b2', hbook2', _, hrequests2⟩
    rw [← hrequests1] at hr
    rw [← hrequests2] at hr'
    exact h.semaphores i i' b1' b2' r r' hbook1' hbook2' hr hr' hclash hne

theorem booksApart_of_none {coordKey : Int} {book : Slot -> Option Booking}
    (h : forall i, book i = none) : BooksApart coordKey book := by
  have hnot : forall i b, book i ≠ some b := by
    intro i b hbook
    rw [h i] at hbook
    cases hbook
  constructor
  · exact fun i b _ hbook => absurd hbook (hnot i b)
  · exact fun i b hbook => absurd hbook (hnot i b)
  · exact fun i b hbook => absurd hbook (hnot i b)
  · exact fun i _ b _ _ hbook => absurd hbook (hnot i b)
  · exact fun i b hbook => absurd hbook (hnot i b)
  · exact fun i _ b _ _ _ hbook => absurd hbook (hnot i b)

structure Holdings (coordKey coordShmid : Int) (book : Slot -> Option Booking)
    (j : Journal) : Prop where
  calls : j.kernel.faults = []
  coordinator : exists e, j.kernel.segments.entries coordShmid = some e ∧ e.key = coordKey
  stands : forall i b, book i = some b -> b.Stands j.kernel.segments
  segments : forall shmid, j.kernel.segments.entries shmid ≠ none ->
    shmid = coordShmid ∨ exists i, shmid ∈ heldSegments (book i)
  sets : forall i semid, semid ∈ heldSemaphores j.kernel.segments (book i) ->
    exists b r e, book i = some b ∧ r ∈ b.requests ∧
      j.kernel.semaphores.entries semid = some e ∧ e.key = r.key
  distinct : forall i, (heldSemaphores j.kernel.segments (book i)).Nodup
  disjoint : forall i i' semid, i ≠ i' ->
    semid ∈ heldSemaphores j.kernel.segments (book i) ->
    semid ∉ heldSemaphores j.kernel.segments (book i')
  semaphores : forall semid, j.kernel.semaphores.entries semid ≠ none ->
    exists i, semid ∈ heldSemaphores j.kernel.segments (book i)
  removedSegments : IpcTable.Balanced j.kernel.segments j.removedSegments
  removedSemaphores : IpcTable.Balanced j.kernel.semaphores j.removedSemaphores

/-!
# Segments of different holders
-/

section Holders

variable {coordKey coordShmid : Int} {book : Slot -> Option Booking} {j : Journal}
  {segments segments' : IpcTable Segment}

theorem mem_heldSegments {b : Booking} {shmid : Int} :
    shmid ∈ heldSegments (some b) <->
      shmid = b.shms.requestShm.shmid ∨ shmid = b.shms.responseShm.shmid := by
  simp [heldSegments]

theorem Booking.Stands.entry {b : Booking} (h : b.Stands segments) {shmid : Int}
    (hheld : shmid ∈ heldSegments (some b)) :
    exists e, segments.entries shmid = some e ∧ HasKey b.keys e.key := by
  rcases mem_heldSegments.mp hheld with hid | hid
  · rcases h.request with ⟨e, he, hkey⟩
    rw [hid]
    exact ⟨e, he, Or.inl hkey.symm⟩
  · rcases h.response with ⟨e, he, hkey⟩
    rw [hid]
    exact ⟨e, he, Or.inr hkey.symm⟩

/-- The semaphores of a connection are known from its own segments. -/
theorem heldSemaphores_congr {b : Option Booking}
    (h : forall shmid, shmid ∈ heldSegments b ->
      segments'.entries shmid = segments.entries shmid) :
    heldSemaphores segments' b = heldSemaphores segments b := by
  cases b with
  | none => rfl
  | some b =>
      unfold heldSemaphores
      dsimp only
      rw [h _ (mem_heldSegments.mpr (Or.inl rfl)),
        h _ (mem_heldSegments.mpr (Or.inr rfl))]

theorem heldSemaphores_of_has {b : Booking} {request response : Semaphore -> Int}
    (hsem : b.type = .sem)
    (hrequest : HasSemaphores segments b.shms.requestShm.shmid request)
    (hresponse : HasSemaphores segments b.shms.responseShm.shmid response) :
    heldSemaphores segments (some b) = allSemaphores request response := by
  rcases hrequest with ⟨e, he, hids⟩
  rcases hresponse with ⟨e', he', hids'⟩
  unfold heldSemaphores
  dsimp only
  rw [if_pos hsem, he, he', ← hids, ← hids']

theorem heldSemaphores_of_ne {b : Booking} (hsem : b.type ≠ .sem) :
    heldSemaphores segments (some b) = [] := by
  unfold heldSemaphores
  dsimp only
  rw [if_neg hsem]

theorem Holdings.ne_coordinator (h : Holdings coordKey coordShmid book j)
    (hapart : BooksApart coordKey book) {i : Slot} {shmid : Int}
    (hheld : shmid ∈ heldSegments (book i)) : shmid ≠ coordShmid := by
  intro heq
  cases hbook : book i with
  | none =>
      rw [hbook] at hheld
      cases hheld
  | some b =>
      rw [hbook] at hheld
      rcases (h.stands i b hbook).entry hheld with ⟨e, he, hkey⟩
      rcases h.coordinator with ⟨e', he', hcoord⟩
      rw [heq, he'] at he
      injection he with hsame
      rw [← hsame, hcoord] at hkey
      exact hapart.coordinator i b hbook hkey

theorem Holdings.one_holder (h : Holdings coordKey coordShmid book j)
    (hapart : BooksApart coordKey book) {i i' : Slot} {shmid : Int}
    (hheld : shmid ∈ heldSegments (book i)) (hheld' : shmid ∈ heldSegments (book i')) :
    i = i' := by
  cases hbook : book i with
  | none =>
      rw [hbook] at hheld
      cases hheld
  | some b =>
      cases hbook' : book i' with
      | none =>
          rw [hbook'] at hheld'
          cases hheld'
      | some b' =>
          rw [hbook] at hheld
          rw [hbook'] at hheld'
          rcases (h.stands i b hbook).entry hheld with ⟨e, he, hkey⟩
          rcases (h.stands i' b' hbook').entry hheld' with ⟨e', he', hkey'⟩
          rw [he] at he'
          injection he' with hsame
          rw [← hsame] at hkey'
          exact hapart.segments i i' b b' e.key hbook hbook'
            (hapart.nonzero i b e.key hbook hkey) hkey hkey'

end Holders

/-!
# A connection is opened
-/

structure Booked (b : Booking) (k k' : Kernel) : Prop where
  calls : k'.faults = []
  segments : AllocatedByKeys b.keys k.segments k'.segments b.shms
  filled : IpcTable.Filled k.segments k'.segments
  opened : openAll b.requests k.semaphores =
    some (heldSemaphores k'.segments (some b), k'.semaphores)

structure Unmet (b : Booking) (k : Kernel) : Prop where
  calls : k.faults = []
  pair : b.keys.1 = b.keys.2 -> b.keys.1 = 0
  segments : forall shmid e, k.segments.entries shmid = some e -> e.key ≠ 0 ->
    ¬ HasKey b.keys e.key
  own : b.requests.Pairwise fun r r' => r.key = r'.key -> r.key = 0
  semaphores : forall r, r ∈ b.requests -> r.key ≠ 0 -> forall semid e,
    k.semaphores.entries semid = some e -> e.key ≠ r.key

section Unmet

variable {b : Booking} {k k' : Kernel} {shmid semid : Int}

theorem Unmet.keysFree (h : Unmet b k) : KeysFree b.requests k.semaphores where
  distinct := h.own
  ready := by
    intro r hr hne id e hentry hkey
    exact absurd hkey (h.semaphores r hr hne id e hentry)

theorem Booked.fresh (hbooked : Booked b k k') (h : Unmet b k)
    (hheld : shmid ∈ heldSegments (some b)) : (k.segments.next : Int) ≤ shmid := by
  have hopened := mem_heldSegments.mp hheld
  cases hentry : k.segments.entries shmid with
  | none => exact hbooked.segments.opened_new hopened hentry
  | some e =>
      rcases hbooked.segments.opened_key hopened hentry with ⟨hkey, hne⟩
      exact absurd hkey (h.segments shmid e hentry hne)

theorem Booked.kept (hbooked : Booked b k k') (h : Unmet b k)
    (hlow : shmid < k.segments.next) :
    k'.segments.entries shmid = k.segments.entries shmid := by
  apply hbooked.segments.other
  · intro heq
    have hnew := hbooked.fresh h (mem_heldSegments.mpr (Or.inl heq))
    lia
  · intro heq
    have hnew := hbooked.fresh h (mem_heldSegments.mpr (Or.inr heq))
    lia

theorem Booked.semaphores_fresh (hbooked : Booked b k k') (h : Unmet b k)
    (hheld : semid ∈ heldSemaphores k'.segments (some b)) :
    (k.semaphores.next : Int) ≤ semid := by
  rcases openAll_mem hbooked.opened hheld with hnew | ⟨r, e, hr, hne, hentry, hkey⟩
  · exact hnew
  · exact absurd hkey (h.semaphores r hr hne semid e hentry)

end Unmet

section Opened

variable {coordKey coordShmid : Int} {book : Slot -> Option Booking} {j : Journal}
  {slot : Slot} {b : Booking} {k' : Kernel}

theorem ne_of_booked (hempty : book slot = none) {i : Slot} {b' : Booking}
    (hbook : book i = some b') : i ≠ slot := by
  intro heq
  rw [heq, hempty] at hbook
  cases hbook

theorem BooksApart.before (h : BooksApart coordKey (Function.update book slot (some b)))
    (hempty : book slot = none) : BooksApart coordKey book := by
  apply h.mono
  intro i b' hbook
  refine ⟨b', ?_, rfl, rfl⟩
  rw [Function.update_of_ne (ne_of_booked hempty hbook)]
  exact hbook

theorem Holdings.keys_unused (h : Holdings coordKey coordShmid book j)
    (hempty : book slot = none)
    (hapart : BooksApart coordKey (Function.update book slot (some b)))
    {shmid : Int} {e : IpcEntry Segment}
    (hentry : j.kernel.segments.entries shmid = some e) :
    ¬ HasKey b.keys e.key := by
  intro hkey
  have hnew : Function.update book slot (some b) slot = some b :=
    Function.update_self _ _ _
  have hne := hapart.nonzero slot b e.key hnew hkey
  have hthere : j.kernel.segments.entries shmid ≠ none := by
    rw [hentry]
    exact Option.some_ne_none e
  rcases h.segments shmid hthere with hcoord | ⟨i, hheld⟩
  · rcases h.coordinator with ⟨e', hentry', hkey'⟩
    rw [← hcoord, hentry] at hentry'
    injection hentry' with hsame
    rw [hsame, hkey'] at hkey
    exact hapart.coordinator slot b hnew hkey
  · cases hbook : book i with
    | none =>
        rw [hbook] at hheld
        cases hheld
    | some b' =>
        rw [hbook] at hheld
        rcases (h.stands i b' hbook).entry hheld with ⟨e', hentry', hkey'⟩
        rw [hentry] at hentry'
        injection hentry' with hsame
        rw [← hsame] at hkey'
        have hi := ne_of_booked hempty hbook
        apply hi
        apply hapart.segments i slot b' b e.key _ hnew hne hkey' hkey
        rw [Function.update_of_ne hi]
        exact hbook

theorem Holdings.requests_unused (h : Holdings coordKey coordShmid book j)
    (hempty : book slot = none)
    (hapart : BooksApart coordKey (Function.update book slot (some b)))
    {r : SetRequest} (hr : r ∈ b.requests) (hne : r.key ≠ 0) {semid : Int}
    {e : IpcEntry SemaphoreSet} (hentry : j.kernel.semaphores.entries semid = some e) :
    e.key ≠ r.key := by
  intro hkey
  have hthere : j.kernel.semaphores.entries semid ≠ none := by
    rw [hentry]
    exact Option.some_ne_none e
  rcases h.semaphores semid hthere with ⟨i, hheld⟩
  rcases h.sets i semid hheld with ⟨b', r', e', hbook, hr', hentry', hkey'⟩
  rw [hentry] at hentry'
  injection hentry' with hsame
  have hclash : r'.key = r.key := by rw [← hkey', ← hsame, hkey]
  have hi := ne_of_booked hempty hbook
  apply hi
  apply hapart.semaphores i slot b' b r' r _ (Function.update_self _ _ _) hr' hr hclash
  · rw [hclash]
    exact hne
  · rw [Function.update_of_ne hi]
    exact hbook

theorem Holdings.unmet (h : Holdings coordKey coordShmid book j)
    (hempty : book slot = none)
    (hapart : BooksApart coordKey (Function.update book slot (some b))) :
    Unmet b j.kernel where
  calls := h.calls
  pair := fun heq => absurd heq (hapart.pair slot b (Function.update_self _ _ _))
  segments := fun _ _ hentry _ => h.keys_unused hempty hapart hentry
  own := hapart.own slot b (Function.update_self _ _ _)
  semaphores := fun _ hr hne _ _ hentry => h.requests_unused hempty hapart hr hne hentry

theorem Holdings.lt_next (h : Holdings coordKey coordShmid book j) {i : Slot}
    {shmid : Int} (hheld : shmid ∈ heldSegments (book i)) :
    shmid < j.kernel.segments.next := by
  cases hbook : book i with
  | none =>
      rw [hbook] at hheld
      cases hheld
  | some b' =>
      rw [hbook] at hheld
      rcases (h.stands i b' hbook).entry hheld with ⟨e, hentry, _⟩
      exact (IpcTable.lt_next hentry).right

theorem Holdings.serviced (h : Holdings coordKey coordShmid book j)
    (hempty : book slot = none)
    (hapart : BooksApart coordKey (Function.update book slot (some b)))
    (hbooked : Booked b j.kernel k') :
    Holdings coordKey coordShmid (Function.update book slot (some b))
      { j with kernel := k' } := by
  have hself : Function.update book slot (some b) slot = some b :=
    Function.update_self _ _ _
  have hother : forall i, i ≠ slot -> Function.update book slot (some b) i = book i :=
    fun i hi => Function.update_of_ne hi _ _
  have hunmet := h.unmet hempty hapart
  have hkept : forall shmid : Int, shmid < j.kernel.segments.next ->
      k'.segments.entries shmid = j.kernel.segments.entries shmid :=
    fun _ => hbooked.kept hunmet
  have hfresh : forall semid, semid ∈ heldSemaphores k'.segments (some b) ->
      (j.kernel.semaphores.next : Int) ≤ semid :=
    fun _ => hbooked.semaphores_fresh hunmet
  have hsame : forall i, heldSemaphores k'.segments (book i) =
      heldSemaphores j.kernel.segments (book i) :=
    fun i => heldSemaphores_congr fun shmid hheld => hkept shmid (h.lt_next hheld)
  have hold : forall i semid, semid ∈ heldSemaphores k'.segments (book i) ->
      semid < j.kernel.semaphores.next := by
    intro i semid hheld
    rw [hsame i] at hheld
    rcases h.sets i semid hheld with ⟨_, _, e, _, _, hentry, _⟩
    exact (IpcTable.lt_next hentry).right
  constructor
  · exact hbooked.calls
  · rcases h.coordinator with ⟨e, hentry, hkey⟩
    have hlow := (IpcTable.lt_next hentry).right
    exact ⟨e, (hkept coordShmid hlow).trans hentry, hkey⟩
  · intro i b' hbook
    by_cases hi : i = slot
    · rw [hi, hself] at hbook
      injection hbook with hbook
      rw [← hbook]
      exact ⟨hbooked.segments.request, hbooked.segments.response⟩
    · rw [hother i hi] at hbook
      have hstands := h.stands i b' hbook
      rcases hstands.request with ⟨e, hentry, hkey⟩
      rcases hstands.response with ⟨e', hentry', hkey'⟩
      refine ⟨⟨e, ?_, hkey⟩, ⟨e', ?_, hkey'⟩⟩
      · exact (hkept _ (IpcTable.lt_next hentry).right).trans hentry
      · exact (hkept _ (IpcTable.lt_next hentry').right).trans hentry'
  · intro shmid hthere
    by_cases hheld : shmid ∈ heldSegments (some b)
    · right
      exact ⟨slot, by rw [hself]; exact hheld⟩
    · rw [mem_heldSegments, not_or] at hheld
      have hunchanged := hbooked.segments.other shmid hheld.left hheld.right
      rcases h.segments shmid (by rw [← hunchanged]; exact hthere) with hcoord | ⟨i, hi⟩
      · exact Or.inl hcoord
      · right
        refine ⟨i, ?_⟩
        rw [hother i]
        · exact hi
        · intro heq
          rw [heq, hempty] at hi
          cases hi
  · intro i semid hheld
    by_cases hi : i = slot
    · rw [hi, hself] at hheld
      rcases openAll_entry hbooked.opened hheld with ⟨r, e, hr, hentry, hkey⟩
      exact ⟨b, r, e, by rw [hi, hself], hr, hentry, hkey⟩
    · rw [hother i hi] at hheld
      have hlow := hold i semid hheld
      rw [hsame i] at hheld
      rcases h.sets i semid hheld with ⟨b', r, e, hbook, hr, hentry, hkey⟩
      refine ⟨b', r, e, (hother i hi).trans hbook, hr, ?_, hkey⟩
      show k'.semaphores.entries semid = some e
      rw [openAll_other hbooked.opened]
      · exact hentry
      · intro hnew
        have hhigh := hfresh semid hnew
        lia
  · intro i
    by_cases hi : i = slot
    · rw [hi, hself]
      rcases exists_openAll hunmet.keysFree with ⟨ids, t, hopened, hnodup, _⟩
      rw [hbooked.opened] at hopened
      injection hopened with hopened
      injection hopened with hids
      show (heldSemaphores k'.segments (some b)).Nodup
      rw [hids]
      exact hnodup
    · rw [hother i hi]
      show (heldSemaphores k'.segments (book i)).Nodup
      rw [hsame i]
      exact h.distinct i
  · intro i i' semid hne hheld hheld'
    by_cases hi : i = slot
    · rw [hi] at hne
      rw [hi, hself] at hheld
      rw [hother i' (Ne.symm hne)] at hheld'
      have hhigh := hfresh semid hheld
      have hlow := hold i' semid hheld'
      lia
    · rw [hother i hi] at hheld
      by_cases hi' : i' = slot
      · rw [hi', hself] at hheld'
        have hhigh := hfresh semid hheld'
        have hlow := hold i semid hheld
        lia
      · rw [hother i' hi'] at hheld'
        have hheld : semid ∈ heldSemaphores k'.segments (book i) := hheld
        have hheld' : semid ∈ heldSemaphores k'.segments (book i') := hheld'
        rw [hsame i] at hheld
        rw [hsame i'] at hheld'
        exact h.disjoint i i' semid hne hheld hheld'
  · intro semid hthere
    by_cases hheld : semid ∈ heldSemaphores k'.segments (some b)
    · exact ⟨slot, by rw [hself]; exact hheld⟩
    · have hunchanged := openAll_other hbooked.opened hheld
      rcases h.semaphores semid (by rw [← hunchanged]; exact hthere) with ⟨i, hi⟩
      refine ⟨i, ?_⟩
      rw [hother i]
      · show semid ∈ heldSemaphores k'.segments (book i)
        rw [hsame i]
        exact hi
      · intro heq
        rw [heq, hempty] at hi
        cases hi
  · apply h.removedSegments.filled hbooked.segments.next
    · intro shmid hthere
      rcases Option.ne_none_iff_exists'.mp hthere with ⟨e, hentry⟩
      rcases hbooked.segments.kept shmid e hentry with ⟨e', hentry', _⟩
      show k'.segments.entries shmid ≠ none
      rw [hentry']
      exact Option.some_ne_none e'
    · intro shmid hlow hnone
      exact (hkept shmid hlow).trans hnone
    · exact hbooked.filled
  · apply h.removedSemaphores.filled (openAll_next hbooked.opened)
    · intro semid hthere
      exact openAll_kept hbooked.opened hthere
    · intro semid hlow hnone
      show k'.semaphores.entries semid = none
      rw [openAll_other hbooked.opened]
      · exact hnone
      · intro hnew
        have hhigh := hfresh semid hnew
        lia
    · exact openAll_filled hbooked.opened

end Opened

/-!
# A connection is closed
-/

section Closed

variable {coordKey coordShmid : Int} {book : Slot -> Option Booking} {j : Journal}
  {slot : Slot}

theorem Holdings.segment_exists (h : Holdings coordKey coordShmid book j) {i : Slot}
    {shmid : Int} (hheld : shmid ∈ heldSegments (book i)) :
    j.kernel.segments.entries shmid ≠ none := by
  cases hbook : book i with
  | none =>
      rw [hbook] at hheld
      cases hheld
  | some b =>
      rw [hbook] at hheld
      rcases (h.stands i b hbook).entry hheld with ⟨e, hentry, _⟩
      rw [hentry]
      exact Option.some_ne_none e

theorem Holdings.segments_nodup (h : Holdings coordKey coordShmid book j)
    (hapart : BooksApart coordKey book) (i : Slot) : (heldSegments (book i)).Nodup := by
  cases hbook : book i with
  | none => exact List.nodup_nil
  | some b =>
      have hne : b.shms.requestShm.shmid ≠ b.shms.responseShm.shmid := by
        intro heq
        rcases (h.stands i b hbook).request with ⟨e, hentry, hkey⟩
        rcases (h.stands i b hbook).response with ⟨e', hentry', hkey'⟩
        rw [heq, hentry'] at hentry
        injection hentry with hsame
        apply hapart.pair i b hbook
        rw [← hkey, ← hkey', hsame]
      simpa [heldSegments] using hne

theorem Holdings.retired (h : Holdings coordKey coordShmid book j)
    (hapart : BooksApart coordKey book) (slot : Slot) :
    Holdings coordKey coordShmid (Function.update book slot none)
      (j.remove (heldSemaphores j.kernel.segments (book slot))
        (heldSegments (book slot))) := by
  let j' := j.remove (heldSemaphores j.kernel.segments (book slot))
    (heldSegments (book slot))
  have hself : Function.update book slot none slot = none := Function.update_self _ _ _
  have hother : forall i, i ≠ slot -> Function.update book slot none i = book i :=
    fun i hi => Function.update_of_ne hi _ _
  have hkept : forall shmid, shmid ∉ heldSegments (book slot) ->
      j'.kernel.segments.entries shmid = j.kernel.segments.entries shmid :=
    fun shmid => IpcTable.removeAll_of_not_mem
  have hkeptSets : forall semid,
      semid ∉ heldSemaphores j.kernel.segments (book slot) ->
      j'.kernel.semaphores.entries semid = j.kernel.semaphores.entries semid :=
    fun semid => IpcTable.removeAll_of_not_mem
  have hapartIds : forall i, i ≠ slot -> forall shmid, shmid ∈ heldSegments (book i) ->
      shmid ∉ heldSegments (book slot) :=
    fun i hi shmid hheld hheld' => hi (h.one_holder hapart hheld hheld')
  have hsame : forall i, i ≠ slot -> heldSemaphores j'.kernel.segments (book i) =
      heldSemaphores j.kernel.segments (book i) :=
    fun i hi => heldSemaphores_congr fun shmid hheld =>
      hkept shmid (hapartIds i hi shmid hheld)
  have hnone : forall i semid,
      semid ∈ heldSemaphores j'.kernel.segments (Function.update book slot none i) ->
      i ≠ slot ∧ semid ∈ heldSemaphores j.kernel.segments (book i) := by
    intro i semid hheld
    by_cases hi : i = slot
    · rw [hi, hself] at hheld
      cases hheld
    · rw [hother i hi, hsame i hi] at hheld
      exact ⟨hi, hheld⟩
  constructor
  · exact h.calls
  · rcases h.coordinator with ⟨e, hentry, hkey⟩
    refine ⟨e, ?_, hkey⟩
    apply (hkept coordShmid _).trans hentry
    intro hheld
    exact h.ne_coordinator hapart hheld rfl
  · intro i b hbook
    by_cases hi : i = slot
    · rw [hi, hself] at hbook
      cases hbook
    · rw [hother i hi] at hbook
      have hstands := h.stands i b hbook
      have hfree := hapartIds i hi
      rw [hbook] at hfree
      rcases hstands.request with ⟨e, hentry, hkey⟩
      rcases hstands.response with ⟨e', hentry', hkey'⟩
      refine ⟨⟨e, ?_, hkey⟩, ⟨e', ?_, hkey'⟩⟩
      · exact (hkept _ (hfree _ (mem_heldSegments.mpr (Or.inl rfl)))).trans hentry
      · exact (hkept _ (hfree _ (mem_heldSegments.mpr (Or.inr rfl)))).trans hentry'
  · intro shmid hthere
    have hheld : shmid ∉ heldSegments (book slot) :=
      fun hheld => hthere (IpcTable.removeAll_of_mem hheld)
    have hbefore : j.kernel.segments.entries shmid ≠ none := by
      rw [← hkept shmid hheld]
      exact hthere
    rcases h.segments shmid hbefore with hcoord | ⟨i, hi⟩
    · exact Or.inl hcoord
    · right
      refine ⟨i, ?_⟩
      rw [hother i]
      · exact hi
      · intro heq
        rw [heq] at hi
        exact hheld hi
  · intro i semid hheld
    rcases hnone i semid hheld with ⟨hi, hbefore⟩
    rcases h.sets i semid hbefore with ⟨b, r, e, hbook, hr, hentry, hkey⟩
    refine ⟨b, r, e, (hother i hi).trans hbook, hr, ?_, hkey⟩
    exact (hkeptSets semid (h.disjoint i slot semid hi hbefore)).trans hentry
  · intro i
    by_cases hi : i = slot
    · rw [hi, hself]
      exact List.nodup_nil
    · rw [hother i hi]
      show (heldSemaphores j'.kernel.segments (book i)).Nodup
      rw [hsame i hi]
      exact h.distinct i
  · intro i i' semid hne hheld hheld'
    have hbefore := (hnone i semid hheld).right
    have hbefore' := (hnone i' semid hheld').right
    exact h.disjoint i i' semid hne hbefore hbefore'
  · intro semid hthere
    have hheld : semid ∉ heldSemaphores j.kernel.segments (book slot) :=
      fun hheld => hthere (IpcTable.removeAll_of_mem hheld)
    have hbefore : j.kernel.semaphores.entries semid ≠ none := by
      rw [← hkeptSets semid hheld]
      exact hthere
    rcases h.semaphores semid hbefore with ⟨i, hi⟩
    have hne : i ≠ slot := by
      intro heq
      rw [heq] at hi
      exact hheld hi
    refine ⟨i, ?_⟩
    show semid ∈ heldSemaphores j'.kernel.segments (Function.update book slot none i)
    rw [hother i hne, hsame i hne]
    exact hi
  · exact h.removedSegments.removeAll (h.segments_nodup hapart slot)
      fun shmid hheld => h.segment_exists hheld
  · apply h.removedSemaphores.removeAll (h.distinct slot)
    intro semid hheld
    rcases h.sets slot semid hheld with ⟨_, _, e, _, _, hentry, _⟩
    rw [hentry]
    exact Option.some_ne_none e

end Closed

end Rpc
end Notnets
