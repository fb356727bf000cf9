import Notnets.Rpc.Bookkeeping
import Notnets.Rpc.Bystanders

/-!
# The visit to a newcomer

A request whose keys nothing has, and whose messages fit, is serviced.  What the
visit makes is the request's own, and what was there before is not touched.
-/

namespace Notnets
namespace Rpc

open Coord
open Foundation
open Os
open Queue

def Booking.SetKey (b : Booking) (key : Int) : Prop :=
  exists r, r ∈ b.requests ∧ r.key = key

structure MadeOwn (b : Booking) (k k' : Kernel) : Prop where
  calls : k'.faults = []
  segments : IpcTable.Beside (HasKey b.keys) k.segments k'.segments
  semaphores : IpcTable.Beside b.SetKey k.semaphores k'.semaphores

section Own

variable {b : Booking} {k k' : Kernel}

theorem Booked.madeOwn (hbooked : Booked b k k') (h : Unmet b k) : MadeOwn b k k' where
  calls := hbooked.calls
  segments := by
    refine ⟨hbooked.segments.next, fun id => hbooked.kept h, ?_⟩
    intro id e hnew hentry
    by_cases hheld : id ∈ heldSegments (some b)
    · exact hbooked.segments.opened_entry (mem_heldSegments.mp hheld) hentry
    · rw [mem_heldSegments, not_or] at hheld
      rw [hbooked.segments.other id hheld.left hheld.right,
        k.segments.fresh id (Or.inr hnew)] at hentry
      cases hentry
  semaphores := by
    refine ⟨openAll_next hbooked.opened, ?_, ?_⟩
    · intro id hlow
      apply openAll_other hbooked.opened
      intro hheld
      have hhigh := hbooked.semaphores_fresh h hheld
      lia
    · intro id e hnew hentry
      by_cases hheld : id ∈ heldSemaphores k'.segments (some b)
      · rcases openAll_entry hbooked.opened hheld with ⟨r, e', hr, hentry', hkey⟩
        rw [hentry'] at hentry
        injection hentry with hsame
        rw [← hsame]
        exact ⟨r, hr, hkey.symm⟩
      · rw [openAll_other hbooked.opened hheld, k.semaphores.fresh id (Or.inr hnew)]
          at hentry
        cases hentry

/-- The pair is not among what the keys depend on. -/
theorem Unmet.with_shms (h : Unmet b k) (shms : ShmPair) :
    Unmet { b with shms := shms } k :=
  ⟨h.calls, h.pair, h.segments, h.own, h.semaphores⟩

theorem MadeOwn.with_shms (h : MadeOwn b k k') (shms : ShmPair) :
    MadeOwn { b with shms := shms } k k' :=
  ⟨h.calls, h.segments, h.semaphores⟩

theorem MadeOwn.remove (h : MadeOwn b k k') {semids shmids : List Int}
    (hsegments : forall shmid, shmid ∈ shmids -> (k.segments.next : Int) ≤ shmid)
    (hsemaphores : forall semid, semid ∈ semids -> (k.semaphores.next : Int) ≤ semid) :
    MadeOwn b k
      { k' with
        segments := k'.segments.removeAll shmids
        semaphores := k'.semaphores.removeAll semids } where
  calls := h.calls
  segments := h.segments.removeAll hsegments
  semaphores := h.semaphores.removeAll hsemaphores

theorem Booked.nodup (hbooked : Booked b k k') (h : Unmet b k) :
    (heldSegments (some b)).Nodup := by
  have hne : b.shms.requestShm.shmid ≠ b.shms.responseShm.shmid := by
    intro heq
    rcases hbooked.segments.distinct heq with ⟨hkeys, hzero⟩
    exact hzero (h.pair hkeys)
  simpa [heldSegments] using hne

end Own

section Visit

variable {header : CoordHeader} {slot : Slot} {k : Kernel}
  (boost : Int -> Int -> OsM ShmPair)

def CreatesQueues (row : CoordRow) : Prop :=
  exists result, createHeader (headerSizeOf row.type) queueRegionSize
    (toSizeT row.messageSize) = .ok result

theorem exists_visit_newcomer (hneeds : NeedsService header slot)
    (htype : (header.slots slot).type ≠ .boost)
    (hcreates : CreatesQueues (header.slots slot))
    (h : Unmet (.ofRow (header.slots slot)) k) :
    exists header' k',
      Returns (managePoolVisit (poolOps boost) header slot) k header' k' ∧
      MadeOwn (.ofRow (header.slots slot)) k k' := by
  rcases exists_booked_of_unmet boost htype hcreates h with ⟨shms, k1, halloc, hbooked⟩
  have hunmet := h.with_shms shms
  have hmade : MadeOwn (.ofRow (header.slots slot)) k k1 :=
    (hbooked.madeOwn hunmet).with_shms (header.slots slot).shms
  by_cases hdetach : (header.slots slot).detach = true
  · let j : Journal := ⟨k1, [], []⟩
    have hservice := returns_service boost (j := ⟨k, [], []⟩) hneeds halloc
    have hrow : (serviced shms header slot).slots slot =
        { header.slots slot with shms := shms, shmCreated := true } := by
      rw [serviced_of_needs shms hneeds, CoordHeader.setRow_slots_self]
    have hreserved : (serviced shms header slot).clientReserved slot = true := by
      rw [serviced_clientReserved]
      exact hneeds.left
    have hleaves : ((serviced shms header slot).slots slot).detach = true := by
      rw [hrow]
      exact hdetach
    have hcreated : ((serviced shms header slot).slots slot).shmCreated = true := by
      rw [hrow]
    have hstands : (Booking.ofRow ((serviced shms header slot).slots slot)).Stands
        j.kernel.segments := by
      rw [hrow]
      exact ⟨hbooked.segments.request, hbooked.segments.response⟩
    have hbook : bookings (serviced shms header slot) slot =
        some ⟨(header.slots slot).type, (header.slots slot).clientId, shms⟩ := by
      rw [bookings_serviced shms hneeds, Function.update_self]
    have hclean := returns_cleanUp boost (j := j) hbooked.calls hstands hreserved hleaves
      hcreated
    have hnodup : (heldSegments (bookings (serviced shms header slot) slot)).Nodup := by
      rw [hbook]
      exact hbooked.nodup hunmet
    have hclear := returns_clear boost (j := j) hnodup hstands hleaves hcreated
      (heldSemaphores j.kernel.segments (bookings (serviced shms header slot) slot))
    have hvisit : Returns (managePoolVisit (journalOps boost) header slot) ⟨k, [], []⟩
        _ _ :=
      returns_bind.mpr ⟨_, _, hservice, returns_bind.mpr ⟨(), _, hclean, hclear⟩⟩
    rcases (erases_visit boost header slot ⟨k, [], []⟩).returns hvisit with
      ⟨header', k', hreturns, _, hk⟩
    refine ⟨header', k', hreturns, ?_⟩
    rw [← hk, hbook]
    exact hmade.remove (fun _ hheld => hbooked.fresh hunmet hheld)
      fun _ hheld => hbooked.semaphores_fresh hunmet hheld
  · exact ⟨_, k1, visit_services hneeds (by simpa using hdetach) halloc, hmade⟩

end Visit

end Rpc
end Notnets
