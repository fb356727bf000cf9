import Notnets.Rpc.Holdings

/-!
# Keeping the books

Each call of the clients and of the server returns, if its keys meet no others,
and leaves the books right.
-/

namespace Notnets
namespace Rpc

open Coord
open Foundation
open Os
open Queue

def Admits : QueueType -> Int -> Prop
  | .poll, messageSize =>
      0 < messageSize ∧ messageSize + sizeofSpscQueueHeader ≤ queueRegionSize
  | .sem, messageSize =>
      0 < messageSize ∧ messageSize + sizeofSemSpscQueueHeader ≤ queueRegionSize
  | .boost, _ => False
  | .other, _ => False

instance (type : QueueType) (messageSize : Int) : Decidable (Admits type messageSize) :=
  match type with
  | .poll => inferInstanceAs (Decidable (_ ∧ _))
  | .sem => inferInstanceAs (Decidable (_ ∧ _))
  | .boost => .isFalse id
  | .other => .isFalse id

/-!
# Servicing
-/

section Service

variable {coordKey coordShmid : Int} {book : Slot -> Option Booking} {j : Journal}
  {slot : Slot} {messageSize clientId : Int} {type : QueueType}

theorem exists_created {headerSize : Nat} (hpos : 0 < messageSize)
    (hfits : messageSize + headerSize ≤ queueRegionSize) :
    exists result,
      createHeader headerSize queueRegionSize (toSizeT messageSize) = .ok result := by
  have hregion : queueRegionSize < 2 ^ 31 := by decide
  exact (exists_createHeader_iff (by lia) (by lia) (by lia) hregion).mpr
    (Or.inl ⟨hpos, hfits⟩)

theorem hash_semaphores (messageSize clientId : Int) :
    Keeps Kernel.semaphores (hashShmAllocator messageSize clientId) := by
  have hmake : forall key, Keeps Kernel.semaphores (shmCreate key queueRegionSize) :=
    fun key k shmid k' h => (returns_shmCreate h).left
  have hattach : forall shmid, Keeps Kernel.semaphores (shmAttach shmid) :=
    fun shmid k address k' h => (returns_shmAttach h).right.left
  have hcreate : forall address, Keeps Kernel.semaphores
      (queueCreateAt address queueRegionSize (toSizeT messageSize)) := by
    intro address
    unfold queueCreateAt
    split
    · exact keeps_throw _
    · refine keeps_bind ?_ fun _ => keeps_pure _
      intro k u k' h
      rcases returns_writeSegment h with ⟨shmid, _, hsemaphores, _⟩
      exact hsemaphores
  unfold hashShmAllocator keyedAllocator
  apply keeps_bind (hmake _)
  intro requestShmid
  apply keeps_bind (hmake _)
  intro responseShmid
  apply keeps_bind (hattach _)
  intro requestAddr
  apply keeps_bind (hattach _)
  intro responseAddr
  apply keeps_bind (hcreate _)
  intro ret
  apply keeps_bind (hcreate _)
  intro ret'
  exact keeps_pure _

theorem booked_of_hash {k k' : Kernel} {shms : ShmPair} (htype : allocatorOf type = .hash)
    (hcalls : k.faults = [])
    (h : Returns (hashShmAllocator messageSize clientId) k shms k') :
    Booked ⟨type, clientId, shms⟩ k k' where
  calls := (ready_hash messageSize clientId (Nat.zero_le _) _ _ _ h
    ⟨hcalls, fun _ _ _ _ => Nat.zero_le _⟩).calls
  segments := by
    unfold Booking.keys
    rw [htype]
    exact keyedAllocator_keys (writesAt_queueCreate _ _) h
  filled := filled_keyedAllocator (writesAt_queueCreate _ _) h
  opened := by
    have hne : type ≠ .sem := by
      intro hsem
      rw [hsem] at htype
      cases htype
    rw [heldSemaphores_of_ne hne, hash_semaphores _ _ _ _ _ h]
    unfold Booking.requests
    rw [if_neg hne]
    rfl

theorem booked_of_hashSem {k k' : Kernel} {shms : ShmPair} (hcalls : k.faults = [])
    (hpair : clientId.tdiv 2 = clientId.tdiv 3 -> clientId.tdiv 2 = 0)
    (h : Returns (hashSemShmAllocator messageSize clientId) k shms k') :
    Booked ⟨.sem, clientId, shms⟩ k k' where
  calls := (ready_hashSem messageSize clientId (Nat.zero_le _) _ _ _ h
    ⟨hcalls, fun _ _ _ _ => Nat.zero_le _⟩).calls
  segments := keyedAllocator_keys (writesAt_semQueueCreate _ _) h
  filled := filled_keyedAllocator (writesAt_semQueueCreate _ _) h
  opened := by
    have halloc := semAllocated_of_returns h
    rcases halloc.opened with ⟨semFull, semEmpty, semLock, semFull', semEmpty', semLock',
      hopened, hrequest, hresponse⟩
    have hne : shms.requestShm.shmid ≠ shms.responseShm.shmid := by
      intro heq
      rcases halloc.segments.distinct heq with ⟨hkeys, hzero⟩
      exact hzero (hpair hkeys)
    rw [heldSemaphores_of_has rfl (hrequest hne) hresponse]
    exact hopened

def headerSizeOf (type : QueueType) : Nat :=
  if type = .sem then sizeofSemSpscQueueHeader else sizeofSpscQueueHeader

theorem exists_booked_of_unmet (boost : Int -> Int -> OsM ShmPair) {shms : ShmPair}
    {k : Kernel} (htype : type ≠ .boost)
    (hadmitted : exists result,
      createHeader (headerSizeOf type) queueRegionSize (toSizeT messageSize) = .ok result)
    (h : Unmet ⟨type, clientId, shms⟩ k) :
    exists shms k',
      Returns ((poolOps boost).run (allocatorOf type) messageSize clientId) k shms k' ∧
      Booked ⟨type, clientId, shms⟩ k k' := by
  let b : Booking := ⟨type, clientId, shms⟩
  have hready : k.Ready 0 := ⟨h.calls, fun _ _ _ _ => Nat.zero_le _⟩
  have hroom : forall key, HasKey b.keys key -> Room k.segments key queueRegionSize := by
    intro key hkey hne shmid e hentry heq
    rw [← heq] at hkey hne
    exact absurd hkey (h.segments shmid e hentry hne)
  have hhash : allocatorOf type = .hash ->
      exists shms k',
        Returns ((poolOps boost).run (allocatorOf type) messageSize clientId) k shms k' ∧
        Booked ⟨type, clientId, shms⟩ k k' := by
    intro hallocator
    have hne : type ≠ .sem := by
      intro hsem
      rw [hsem] at hallocator
      cases hallocator
    unfold headerSizeOf at hadmitted
    rw [if_neg hne] at hadmitted
    have hpair := h.pair
    unfold Booking.keys at hpair
    unfold Booking.keys at hroom
    dsimp only [b] at hpair hroom
    rw [hallocator] at hpair hroom ⊢
    rcases exists_hash (hready.callsSucceed 4) hpair (hroom _ (Or.inl rfl))
      (hroom _ (Or.inr rfl)) hadmitted with ⟨shms', k', hreturns⟩
    exact ⟨shms', k', hreturns, booked_of_hash hallocator h.calls hreturns⟩
  cases type with
  | poll => exact hhash rfl
  | boost => exact absurd rfl htype
  | sem =>
      rcases exists_openAll h.keysFree with ⟨ids, t, hopened, _, _⟩
      rcases exists_hashSem (hready.callsSucceed 4) h.pair hroom hadmitted
        ⟨ids, t, hopened⟩ with ⟨shms', k', hreturns⟩
      exact ⟨shms', k', hreturns, booked_of_hashSem h.calls h.pair hreturns⟩
  | other => exact hhash rfl

theorem exists_booked (boost : Int -> Int -> OsM ShmPair)
    (hadmits : Admits type messageSize) (h : Holdings coordKey coordShmid book j)
    (hempty : book slot = none)
    (hapart : forall shms, BooksApart coordKey
      (Function.update book slot (some ⟨type, clientId, shms⟩))) :
    exists shms k',
      Returns ((poolOps boost).run (allocatorOf type) messageSize clientId) j.kernel shms
        k' ∧
      Booked ⟨type, clientId, shms⟩ j.kernel k' := by
  have hunmet := h.unmet hempty (hapart ShmPair.zero)
  cases type with
  | poll =>
      exact exists_booked_of_unmet boost (by decide)
        (exists_created hadmits.left hadmits.right) hunmet
  | boost => exact hadmits.elim
  | sem =>
      exact exists_booked_of_unmet boost (by decide)
        (exists_created hadmits.left hadmits.right) hunmet
  | other => exact hadmits.elim

end Service

/-!
# One visit
-/

structure Enrolled (coordKey : Int) (header : CoordHeader) : Prop where
  reserved : forall i, (header.slots i).shmCreated = true ->
    header.clientReserved i = true
  admitted : forall i, header.clientReserved i = true ->
    Admits (header.slots i).type (header.slots i).messageSize
  apart : BooksApart coordKey (reservations header)

theorem bookings_eq_some {header : CoordHeader} {i : Slot} {b : Booking} :
    bookings header i = some b <->
      (header.slots i).shmCreated = true ∧ b = .ofRow (header.slots i) := by
  unfold bookings
  split
  · rename_i hcreated
    rw [Option.some.injEq]
    exact ⟨fun h => ⟨hcreated, h.symm⟩, fun h => h.right.symm⟩
  · rename_i hcreated
    constructor
    · intro h
      cases h
    · intro h
      exact absurd h.left hcreated

theorem reservations_of_reserved {header : CoordHeader} {i : Slot}
    (h : header.clientReserved i = true) :
    reservations header i = some (.ofRow (header.slots i)) :=
  if_pos h

theorem bookings_of_not_created {header : CoordHeader} {i : Slot}
    (h : (header.slots i).shmCreated = false) : bookings header i = none := by
  unfold bookings
  rw [h]
  rfl

section Visit

variable {coordKey coordShmid : Int} {header : CoordHeader} {j : Journal} {slot : Slot}
  (boost : Int -> Int -> OsM ShmPair)

theorem Enrolled.books (h : Enrolled coordKey header) :
    BooksApart coordKey (bookings header) := by
  apply h.apart.mono
  intro i b hbook
  rcases bookings_eq_some.mp hbook with ⟨hcreated, rfl⟩
  exact ⟨_, reservations_of_reserved (h.reserved i hcreated), rfl, rfl⟩

theorem bookings_serviced (shms : ShmPair) (hneeds : NeedsService header slot) :
    bookings (serviced shms header slot) =
      Function.update (bookings header) slot
        (some ⟨(header.slots slot).type, (header.slots slot).clientId, shms⟩) := by
  rw [serviced_of_needs shms hneeds]
  funext i
  unfold bookings
  by_cases hi : i = slot
  · rw [hi, Function.update_self, CoordHeader.setRow_slots_self]
    rfl
  · rw [Function.update_of_ne hi, CoordHeader.setRow_slots_of_ne _ _ _ hi]

theorem bookings_cleared (hdetach : (header.slots slot).detach = true) :
    bookings (cleared header slot) = Function.update (bookings header) slot none := by
  unfold cleared
  rw [if_pos hdetach]
  funext i
  unfold bookings
  rw [CoordHeader.setReserved_slots]
  by_cases hi : i = slot
  · rw [hi, Function.update_self, CoordHeader.setRow_slots_self]
    rfl
  · rw [Function.update_of_ne hi, CoordHeader.setRow_slots_of_ne _ _ _ hi]

theorem Enrolled.serviced (h : Enrolled coordKey header) (shms : ShmPair) (slot : Slot) :
    Enrolled coordKey (serviced shms header slot) := by
  by_cases hneeds : NeedsService header slot
  · rw [serviced_of_needs shms hneeds]
    constructor
    · intro i hcreated
      rw [CoordHeader.setRow_clientReserved]
      by_cases hi : i = slot
      · rw [hi]
        exact hneeds.left
      · rw [CoordHeader.setRow_slots_of_ne _ _ _ hi] at hcreated
        exact h.reserved i hcreated
    · intro i hreserved
      by_cases hi : i = slot
      · rw [hi, CoordHeader.setRow_slots_self]
        exact h.admitted slot hneeds.left
      · rw [CoordHeader.setRow_slots_of_ne _ _ _ hi]
        exact h.admitted i hreserved
    · apply h.apart.mono
      intro i b hbook
      unfold reservations at hbook
      rw [CoordHeader.setRow_clientReserved] at hbook
      split at hbook
      · rename_i hreserved
        refine ⟨_, reservations_of_reserved hreserved, ?_⟩
        injection hbook with hbook
        rw [← hbook]
        by_cases hi : i = slot
        · rw [hi, CoordHeader.setRow_slots_self]
          exact ⟨rfl, rfl⟩
        · rw [CoordHeader.setRow_slots_of_ne _ _ _ hi]
          exact ⟨rfl, rfl⟩
      · cases hbook
  · rw [serviced_of_not_needs shms hneeds]
    exact h

theorem Enrolled.cleared (h : Enrolled coordKey header) (slot : Slot) :
    Enrolled coordKey (cleared header slot) := by
  unfold Rpc.cleared
  split
  · have hother : forall i,
        ((header.setRow slot CoordRow.zero).setReserved slot false).clientReserved i =
          true -> i ≠ slot ∧ header.clientReserved i = true := by
      intro i hreserved
      by_cases hi : i = slot
      · rw [hi, CoordHeader.setReserved_clientReserved_self] at hreserved
        cases hreserved
      · rw [CoordHeader.setReserved_clientReserved_of_ne _ _ _ hi] at hreserved
        exact ⟨hi, hreserved⟩
    constructor
    · intro i hcreated
      rw [CoordHeader.setReserved_slots] at hcreated
      by_cases hi : i = slot
      · rw [hi, CoordHeader.setRow_slots_self] at hcreated
        cases hcreated
      · rw [CoordHeader.setRow_slots_of_ne _ _ _ hi] at hcreated
        rw [CoordHeader.setReserved_clientReserved_of_ne _ _ _ hi]
        exact h.reserved i hcreated
    · intro i hreserved
      rcases hother i hreserved with ⟨hi, hbefore⟩
      rw [CoordHeader.setReserved_slots, CoordHeader.setRow_slots_of_ne _ _ _ hi]
      exact h.admitted i hbefore
    · apply h.apart.mono
      intro i b hbook
      unfold reservations at hbook
      split at hbook
      · rename_i hreserved
        rcases hother i hreserved with ⟨hi, hbefore⟩
        rw [CoordHeader.setReserved_slots, CoordHeader.setRow_slots_of_ne _ _ _ hi]
          at hbook
        injection hbook with hbook
        refine ⟨_, reservations_of_reserved hbefore, ?_⟩
        rw [← hbook]
        exact ⟨rfl, rfl⟩
      · cases hbook
  · exact h

theorem returns_service (hneeds : NeedsService header slot) {shms : ShmPair} {k' : Kernel}
    (h : Returns ((poolOps boost).run (allocatorOf (header.slots slot).type)
      (header.slots slot).messageSize (header.slots slot).clientId) j.kernel shms k') :
    Returns (serviceSlot header slot
      ((journalOps boost).run (allocatorOf (header.slots slot).type))) j
      (serviced shms header slot, (header.slots slot).clientId)
      { j with kernel := k' } := by
  rw [serviced_of_needs shms hneeds]
  unfold serviceSlot
  dsimp only
  rw [if_pos (by rw [hneeds.left, hneeds.right]; rfl)]
  refine returns_bind.mpr ⟨shms, { j with kernel := k' }, ?_,
    returns_pure.mpr ⟨rfl, rfl⟩⟩
  rw [journalOps_run]
  exact returns_onKernel.mpr ⟨k', h, rfl⟩

theorem exists_service (henrolled : Enrolled coordKey header)
    (h : Holdings coordKey coordShmid (bookings header) j) (slot : Slot) :
    exists shms ret j',
      Returns (serviceSlot header slot
        ((journalOps boost).run (allocatorOf (header.slots slot).type))) j
        (serviced shms header slot, ret) j' ∧
      Holdings coordKey coordShmid (bookings (serviced shms header slot)) j' := by
  by_cases hneeds : NeedsService header slot
  · have hempty : bookings header slot = none := bookings_of_not_created hneeds.right
    have hapart : forall shms, BooksApart coordKey
        (Function.update (bookings header) slot
          (some ⟨(header.slots slot).type, (header.slots slot).clientId, shms⟩)) := by
      intro shms
      apply henrolled.apart.mono
      intro i b hbook
      by_cases hi : i = slot
      · rw [hi, Function.update_self] at hbook
        injection hbook with hbook
        rw [hi, ← hbook]
        exact ⟨_, reservations_of_reserved hneeds.left, rfl, rfl⟩
      · rw [Function.update_of_ne hi] at hbook
        rcases bookings_eq_some.mp hbook with ⟨hcreated, rfl⟩
        exact ⟨_, reservations_of_reserved (henrolled.reserved i hcreated), rfl, rfl⟩
    rcases exists_booked boost (henrolled.admitted slot hneeds.left) h hempty
      hapart with ⟨shms, k', hreturns, hbooked⟩
    refine ⟨shms, (header.slots slot).clientId, { j with kernel := k' },
      returns_service boost hneeds hreturns, ?_⟩
    rw [bookings_serviced shms hneeds]
    exact h.serviced hempty (hapart shms) hbooked
  · refine ⟨ShmPair.zero, -1, j, ?_, ?_⟩
    · rw [serviced_of_not_needs _ hneeds]
      unfold serviceSlot
      dsimp only
      rw [if_neg (by simpa [NeedsService] using hneeds)]
      exact returns_pure.mpr ⟨rfl, rfl⟩
    · rw [serviced_of_not_needs _ hneeds]
      exact h

theorem returns_cleanUp (hcalls : j.kernel.faults = [])
    (hstands : (Booking.ofRow (header.slots slot)).Stands j.kernel.segments)
    (hreserved : header.clientReserved slot = true)
    (hdetach : (header.slots slot).detach = true)
    (hcreated : (header.slots slot).shmCreated = true) :
    Returns (cleanUpQueueResources (journalOps boost) header slot) j ()
      (j.remove (heldSemaphores j.kernel.segments (bookings header slot)) []) := by
  have hbook := bookings_eq_some.mpr ⟨hcreated, rfl⟩
  rw [hbook]
  unfold cleanUpQueueResources
  rw [if_pos hreserved, if_pos hdetach]
  by_cases hsem : (header.slots slot).type = .sem
  · rw [hsem]
    rcases hstands.request with ⟨e, hrequest, _⟩
    rcases hstands.response with ⟨e', hresponse, _⟩
    rw [heldSemaphores_of_has hsem ⟨e, hrequest, rfl⟩ ⟨e', hresponse, rfl⟩]
    exact returns_destroy hcalls hrequest hresponse
  · rw [heldSemaphores_of_ne hsem, Journal.remove_nil]
    split
    · exact returns_pure.mpr ⟨rfl, rfl⟩
    · exact returns_pure.mpr ⟨rfl, rfl⟩
    · rename_i htype
      exact absurd htype hsem
    · exact returns_pure.mpr ⟨rfl, rfl⟩

theorem returns_clear (hnodup : (heldSegments (bookings header slot)).Nodup)
    (hstands : (Booking.ofRow (header.slots slot)).Stands j.kernel.segments)
    (hdetach : (header.slots slot).detach = true)
    (hcreated : (header.slots slot).shmCreated = true) (semids : List Int) :
    Returns (clearSlot (journalOps boost).shmRemove header slot) (j.remove semids [])
      (cleared header slot) (j.remove semids (heldSegments (bookings header slot))) := by
  have hbook := bookings_eq_some.mpr ⟨hcreated, rfl⟩
  rcases hstands.request with ⟨e, hrequest, _⟩
  rcases hstands.response with ⟨e', hresponse, _⟩
  rw [hbook] at hnodup ⊢
  have hne : (header.slots slot).shms.responseShm.shmid ≠
      (header.slots slot).shms.requestShm.shmid := by
    intro heq
    simp [heldSegments, Booking.ofRow, heq] at hnodup
  unfold clearSlot forceClearSlot cleared
  rw [if_pos hdetach, if_pos hdetach, if_pos hcreated]
  refine returns_bind.mpr ⟨0, _, returns_journalShmRemove hrequest, ?_⟩
  rw [Journal.remove_remove]
  refine returns_bind.mpr ⟨0, _, returns_journalShmRemove (e := e') ?_, ?_⟩
  · exact (IpcTable.remove_of_ne _ _ hne).trans hresponse
  · rw [Journal.remove_remove]
    refine returns_pure.mpr ⟨rfl, ?_⟩
    simp [heldSegments, Booking.ofRow]

theorem exists_clear (henrolled : Enrolled coordKey header)
    (h : Holdings coordKey coordShmid (bookings header) j)
    (hdone : header.clientReserved slot = true -> (header.slots slot).shmCreated = true) :
    exists j1 j',
      Returns (cleanUpQueueResources (journalOps boost) header slot) j () j1 ∧
      Returns (clearSlot (journalOps boost).shmRemove header slot) j1
        (cleared header slot) j' ∧
      Holdings coordKey coordShmid (bookings (cleared header slot)) j' := by
  by_cases hdetach : (header.slots slot).detach = true
  · rw [bookings_cleared hdetach]
    by_cases hcreated : (header.slots slot).shmCreated = true
    · have hreserved := henrolled.reserved slot hcreated
      have hstands := h.stands slot _ (bookings_eq_some.mpr ⟨hcreated, rfl⟩)
      exact ⟨_, _, returns_cleanUp boost h.calls hstands hreserved hdetach hcreated,
        returns_clear boost (h.segments_nodup henrolled.books slot) hstands hdetach
          hcreated _,
        h.retired henrolled.books slot⟩
    · have hreserved : ¬ header.clientReserved slot = true :=
        fun hreserved => hcreated (hdone hreserved)
      have hnone : bookings header slot = none :=
        bookings_of_not_created (by simpa using hcreated)
      refine ⟨j, j, ?_, ?_, ?_⟩
      · unfold cleanUpQueueResources
        rw [if_neg hreserved]
        exact returns_pure.mpr ⟨rfl, rfl⟩
      · unfold clearSlot forceClearSlot Rpc.cleared
        rw [if_pos hdetach, if_pos hdetach, if_neg hcreated]
        exact returns_pure.mpr ⟨rfl, rfl⟩
      · rw [← hnone, Function.update_eq_self]
        exact h
  · have hsame : Rpc.cleared header slot = header := if_neg hdetach
    rw [hsame]
    refine ⟨j, j, ?_, ?_, h⟩
    · unfold cleanUpQueueResources
      rw [if_neg hdetach, ite_self]
      exact returns_pure.mpr ⟨rfl, rfl⟩
    · unfold clearSlot
      rw [if_neg hdetach]
      exact returns_pure.mpr ⟨rfl, rfl⟩

theorem created_of_serviced {shms : ShmPair}
    (h : (serviced shms header slot).clientReserved slot = true) :
    ((serviced shms header slot).slots slot).shmCreated = true := by
  rw [serviced_clientReserved] at h
  by_cases hneeds : NeedsService header slot
  · rw [serviced_of_needs shms hneeds, CoordHeader.setRow_slots_self]
  · rw [serviced_of_not_needs shms hneeds]
    by_contra hcreated
    exact hneeds ⟨h, by simpa using hcreated⟩

theorem Enrolled.visit (h : Enrolled coordKey header) (shms : ShmPair) (slot : Slot) :
    Enrolled coordKey (visitWith shms header slot) := by
  rw [visitWith_eq]
  exact (h.serviced shms slot).cleared slot

theorem exists_visit (henrolled : Enrolled coordKey header)
    (h : Holdings coordKey coordShmid (bookings header) j) (slot : Slot) :
    exists shms j',
      Returns (managePoolVisit (journalOps boost) header slot) j
        (visitWith shms header slot) j' ∧
      Holdings coordKey coordShmid (bookings (visitWith shms header slot)) j' := by
  rcases exists_service boost henrolled h slot with ⟨shms, ret, j1, hservice, hserviced⟩
  have henrolled1 := henrolled.serviced shms slot
  rcases exists_clear boost henrolled1 hserviced created_of_serviced with
    ⟨j2, j', hclean, hclear, hcleared⟩
  refine ⟨shms, j', ?_, ?_⟩
  · rw [visitWith_eq]
    exact returns_bind.mpr ⟨_, j1, hservice, returns_bind.mpr ⟨(), j2, hclean, hclear⟩⟩
  · rw [visitWith_eq]
    exact hcleared

end Visit

/-!
# A whole pass
-/

section Pass

variable {coordKey coordShmid : Int} {header : CoordHeader} {j : Journal}
  (boost : Int -> Int -> OsM ShmPair)

theorem exists_pass (Rows : List Slot -> CoordHeader -> Prop)
    (hrows : forall done slot todo header shms,
      List.finRange slotNum = done ++ slot :: todo -> Rows done header ->
      Rows (done ++ [slot]) (visitWith shms header slot))
    (hstart : Rows [] header) (henrolled : Enrolled coordKey header)
    (h : Holdings coordKey coordShmid (bookings header) j) :
    exists header' j', Returns (managePool (journalOps boost) header) j header' j' ∧
      header'.shmid = header.shmid ∧ Enrolled coordKey header' ∧
      Holdings coordKey coordShmid (bookings header') j' ∧
      Rows (List.finRange slotNum) header' := by
  let Inv : List Slot -> CoordHeader -> Journal -> Prop := fun done header' j' =>
    header'.shmid = header.shmid ∧ Enrolled coordKey header' ∧
      Holdings coordKey coordShmid (bookings header') j' ∧ Rows done header'
  apply exists_returns_foldlM Inv
  · intro done slot todo header' j' hsplit hparts
    rcases hparts with ⟨hshmid, henrolled', h', hdone⟩
    rcases exists_visit boost henrolled' h' slot with ⟨shms, j'', hvisit, hbooks⟩
    refine ⟨_, j'', hvisit, ?_, henrolled'.visit shms slot, hbooks,
      hrows done slot todo header' shms hsplit hdone⟩
    rw [visitWith_shmid]
    exact hshmid
  · exact ⟨rfl, henrolled, h, hstart⟩

structure SameBooks (header header' : CoordHeader) : Prop where
  shmid : header'.shmid = header.shmid
  reserved : header'.clientReserved = header.clientReserved
  rows : forall i, exists detach serverAttached, header'.slots i =
    { header.slots i with detach := detach, serverAttached := serverAttached }

theorem sameBooks_refl (header : CoordHeader) : SameBooks header header :=
  ⟨rfl, rfl, fun _ => ⟨_, _, rfl⟩⟩

theorem SameBooks.bookings_eq {header' : CoordHeader} (h : SameBooks header header') :
    bookings header' = bookings header := by
  funext i
  rcases h.rows i with ⟨detach, serverAttached, hrow⟩
  unfold bookings
  rw [hrow]
  rfl

theorem SameBooks.enrolled {header' : CoordHeader} (h : SameBooks header header')
    (henrolled : Enrolled coordKey header) : Enrolled coordKey header' := by
  have hreservations : reservations header' = reservations header := by
    funext i
    rcases h.rows i with ⟨detach, serverAttached, hrow⟩
    unfold reservations
    rw [h.reserved, hrow]
    rfl
  constructor
  · intro i hcreated
    rcases h.rows i with ⟨detach, serverAttached, hrow⟩
    rw [hrow] at hcreated
    rw [h.reserved]
    exact henrolled.reserved i hcreated
  · intro i hreserved
    rcases h.rows i with ⟨detach, serverAttached, hrow⟩
    rw [h.reserved] at hreserved
    rw [hrow]
    exact henrolled.admitted i hreserved
  · rw [hreservations]
    exact henrolled.apart

theorem sameBooks_setRow {slot : Slot} {row : CoordRow}
    (hrow : exists detach serverAttached, row =
      { header.slots slot with detach := detach, serverAttached := serverAttached }) :
    SameBooks header (header.setRow slot row) := by
  refine ⟨rfl, rfl, ?_⟩
  intro i
  by_cases hi : i = slot
  · rw [hi, CoordHeader.setRow_slots_self]
    exact hrow
  · rw [CoordHeader.setRow_slots_of_ne _ _ _ hi]
    exact ⟨_, _, rfl⟩

theorem sameBooks_close (header : CoordHeader) (clientId : Int) :
    SameBooks header (clientClose header clientId).1 := by
  rcases clientClose_cases header clientId with ⟨i, _, hclose⟩ | ⟨_, hclose⟩
  · rw [hclose]
    exact sameBooks_setRow ⟨true, _, rfl⟩
  · rw [hclose]
    exact sameBooks_refl header

theorem exists_accept (hcalls : j.kernel.faults = []) (header : CoordHeader) :
    exists result, Returns (accept journalAttach header) j result j ∧
      SameBooks header result.1 := by
  unfold accept
  split
  · rename_i slot _
    unfold createServerQueuePair
    dsimp only
    split
    · exact ⟨_, returns_pure.mpr ⟨rfl, rfl⟩, rfl, rfl, fun _ => ⟨_, _, rfl⟩⟩
    · split
      · exact ⟨_, returns_pure.mpr ⟨rfl, rfl⟩, rfl, rfl, fun _ => ⟨_, _, rfl⟩⟩
      · rcases returns_journalAttach hcalls
          (checkSlot { header with acceptSlot := (slot.val + 1) % slotNum }
            slot).requestShm.shmid with ⟨requestAddr, hrequest, _⟩
        rcases returns_journalAttach hcalls
          (checkSlot { header with acceptSlot := (slot.val + 1) % slotNum }
            slot).responseShm.shmid with ⟨responseAddr, hresponse, _⟩
        refine ⟨_, returns_bind.mpr ⟨requestAddr, j, hrequest,
          returns_bind.mpr ⟨responseAddr, j, hresponse,
            returns_pure.mpr ⟨rfl, rfl⟩⟩⟩, ?_⟩
        unfold setServerAttachState
        dsimp only
        split
        · have hrow : SameBooks header (header.setRow slot
              { header.slots slot with serverAttached := true }) :=
            sameBooks_setRow ⟨_, true, rfl⟩
          exact ⟨hrow.shmid, hrow.reserved, hrow.rows⟩
        · exact ⟨rfl, rfl, fun _ => ⟨_, _, rfl⟩⟩
  · exact ⟨_, returns_pure.mpr ⟨rfl, rfl⟩, sameBooks_refl header⟩

theorem bookings_request (henrolled : Enrolled coordKey header)
    (clientId messageSize : Int) (type : QueueType) :
    bookings (requestSlot header clientId messageSize type).1 = bookings header := by
  rcases requestSlot_cases header clientId messageSize type with
    ⟨slot, hfree, hrequest⟩ | ⟨_, hrequest⟩
  · rw [hrequest]
    funext i
    by_cases hi : i = slot
    · have hreserved := (freeSlot_eq_some_iff.mp hfree).left
      have hcreated : (header.slots slot).shmCreated = false := by
        by_contra hcreated
        rw [henrolled.reserved slot (by simpa using hcreated)] at hreserved
        cases hreserved
      rw [hi, bookings_of_not_created hcreated]
      apply bookings_of_not_created
      rw [CoordHeader.setReserved_slots, CoordHeader.setRow_slots_self]
      rfl
    · unfold bookings
      rw [CoordHeader.setReserved_slots, CoordHeader.setRow_slots_of_ne _ _ _ hi]
  · rw [hrequest]

theorem Enrolled.request (h : Enrolled coordKey header) {clientId messageSize : Int}
    {type : QueueType} (hadmits : Admits type messageSize)
    (hapart : BooksApart coordKey
      (reservations (requestSlot header clientId messageSize type).1)) :
    Enrolled coordKey (requestSlot header clientId messageSize type).1 := by
  rcases requestSlot_cases header clientId messageSize type with
    ⟨slot, hfree, hrequest⟩ | ⟨_, hrequest⟩
  · rw [hrequest] at hapart ⊢
    refine ⟨?_, ?_, hapart⟩
    · intro i hcreated
      by_cases hi : i = slot
      · rw [hi, CoordHeader.setReserved_clientReserved_self]
      · rw [CoordHeader.setReserved_slots, CoordHeader.setRow_slots_of_ne _ _ _ hi]
          at hcreated
        rw [CoordHeader.setReserved_clientReserved_of_ne _ _ _ hi]
        exact h.reserved i hcreated
    · intro i hreserved
      rw [CoordHeader.setReserved_slots]
      by_cases hi : i = slot
      · rw [hi, CoordHeader.setRow_slots_self]
        exact hadmits
      · rw [CoordHeader.setReserved_clientReserved_of_ne _ _ _ hi] at hreserved
        rw [CoordHeader.setRow_slots_of_ne _ _ _ hi]
        exact h.admitted i hreserved
  · rw [hrequest]
    exact h

end Pass

end Rpc
end Notnets
