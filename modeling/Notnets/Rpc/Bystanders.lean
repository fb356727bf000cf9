import Notnets.Rpc.Holdings
import Notnets.Rpc.SideBySide

/-!
# What a request does to the others

A pass over a table with one more request, and the same pass without it.  If the
server gets over the request at all, the other rows do not notice, but for the
identifiers that they are given.
-/

namespace Notnets
namespace Rpc

open Coord
open Foundation
open Os
open Queue

structure RowAlike (p : Parting) (marks : Marks) (row row' : CoordRow) : Prop where
  fields : row = { row' with shms := row.shms }
  shms : row'.shmCreated = true -> row.shms = mapPair p row'.shms
  given : row'.shmCreated = true -> forall shmid, Uses row' shmid -> marks.given shmid
  done : row'.shmCreated = true -> forall shmid, Uses row' shmid ->
    DoneFor row'.type marks shmid

structure RowsAlike (p : Parting) (marks : Marks) (slot : Slot)
    (header header' : CoordHeader) : Prop where
  reserved : forall j, j ≠ slot -> header.clientReserved j = header'.clientReserved j
  rows : forall j, j ≠ slot -> RowAlike p marks (header.slots j) (header'.slots j)

section Rows

variable {p : Parting} {marks marks' : Marks} {row row' : CoordRow} {slot j : Slot}
  {header header' : CoordHeader}

theorem RowAlike.mono (h : RowAlike p marks row row') (hbelow : marks.Below marks') :
    RowAlike p marks' row row' where
  fields := h.fields
  shms := h.shms
  given := fun hcreated shmid hu => hbelow.given shmid (h.given hcreated shmid hu)
  done := fun hcreated shmid hu hsem =>
    setUp_mono hbelow (h.done hcreated shmid hu hsem)

theorem rowAlike_zero : RowAlike p marks CoordRow.zero CoordRow.zero where
  fields := rfl
  shms := fun h => by cases h
  given := fun h => by cases h
  done := fun h => by cases h

theorem RowsAlike.mono (h : RowsAlike p marks slot header header')
    (hbelow : marks.Below marks') : RowsAlike p marks' slot header header' where
  reserved := h.reserved
  rows := fun j hj => (h.rows j hj).mono hbelow

theorem RowsAlike.setRow (h : RowsAlike p marks slot header header')
    (hrow : RowAlike p marks row row') :
    RowsAlike p marks slot (header.setRow j row) (header'.setRow j row') where
  reserved := h.reserved
  rows := by
    intro i hi
    by_cases hij : i = j
    · rw [hij, CoordHeader.setRow_slots_self, CoordHeader.setRow_slots_self]
      exact hrow
    · rw [CoordHeader.setRow_slots_of_ne _ _ _ hij,
        CoordHeader.setRow_slots_of_ne _ _ _ hij]
      exact h.rows i hi

theorem RowsAlike.setReserved (h : RowsAlike p marks slot header header')
    (reserved : Bool) :
    RowsAlike p marks slot (header.setReserved j reserved)
      (header'.setReserved j reserved) where
  reserved := by
    intro i hi
    by_cases hij : i = j
    · rw [hij, CoordHeader.setReserved_clientReserved_self,
        CoordHeader.setReserved_clientReserved_self]
    · rw [CoordHeader.setReserved_clientReserved_of_ne _ _ _ hij,
        CoordHeader.setReserved_clientReserved_of_ne _ _ _ hij]
      exact h.reserved i hi
  rows := h.rows

end Rows

/-- The allocator of this row derives no key of the party that only one system
knows. -/
structure KeysClear (p : Parting) (row : CoordRow) : Prop where
  segments : forall key, HasKey (rowKeys row) key -> key ≠ 0 -> ¬ p.segmentKey key
  semaphores : row.type = .sem -> forall r, r ∈ connectionRequests row.clientId ->
    r.key ≠ 0 -> ¬ p.semaphoreKey r.key

def VisitAlike (p : Parting) (slot : Slot) (header header' : CoordHeader)
    (k k' : Kernel) : Prop :=
  exists marks, Alongside p marks k k' ∧ RowsAlike p marks slot header header'

section Visit

variable {p : Parting} {marks : Marks} {slot j : Slot} {header header' : CoordHeader}
  {k k' : Kernel} {boost : Int -> Int -> OsM ShmPair}

theorem serviceAlike (hboost : BoostAlike boost) (hj : j ≠ slot)
    (hclear : NeedsService header' j -> KeysClear p (header'.slots j))
    (h : Alongside p marks k k') (hrows : RowsAlike p marks slot header header') :
    RunsLike Anyhow (fun a b t t' => VisitAlike p slot a.1 b.1 t t' ∧
        (b.1.clientReserved j = true -> (b.1.slots j).shmCreated = true))
      (serviceSlot header j ((poolOps boost).run (allocatorOf (header.slots j).type))) k
      (serviceSlot header' j ((poolOps boost).run (allocatorOf (header'.slots j).type)))
      k' := by
  have hrow := hrows.rows j hj
  have htype : (header.slots j).type = (header'.slots j).type := by rw [hrow.fields]
  have hclient : (header.slots j).clientId = (header'.slots j).clientId := by
    rw [hrow.fields]
  have hsize : (header.slots j).messageSize = (header'.slots j).messageSize := by
    rw [hrow.fields]
  have hcreated : (header.slots j).shmCreated = (header'.slots j).shmCreated := by
    rw [hrow.fields]
  unfold serviceSlot
  dsimp only
  rw [hrows.reserved j hj, hcreated, htype, hsize, hclient]
  split
  · rename_i hneeds
    have hneeds : NeedsService header' j := by simpa [NeedsService] using hneeds
    have hkeys := hclear hneeds
    apply (runAlike hboost (header'.slots j).type (header'.slots j).messageSize
      hkeys.segments hkeys.semaphores h).bind
    rintro shms shms' t t' ⟨rfl, marks', hbelow, ⟨hrequest, hdone⟩, ⟨hresponse, hdone'⟩,
      hafter⟩
    apply runsLike_pure
    refine ⟨⟨marks', hafter, (hrows.mono hbelow).setRow ?_⟩, ?_⟩
    · constructor
      · rw [hrow.fields]
      · exact fun _ => rfl
      · intro _ shmid hcases
        rcases hcases with heq | heq
        · rw [← heq]
          exact hrequest
        · rw [← heq]
          exact hresponse
      · intro _ shmid heither
        rcases heither with heq | heq
        · rw [← heq]
          exact hdone
        · rw [← heq]
          exact hdone'
    · intro _
      rw [CoordHeader.setRow_slots_self]
  · rename_i hneeds
    refine runsLike_pure ⟨⟨marks, h, hrows⟩, ?_⟩
    intro hreserved
    by_contra hnot
    apply hneeds
    rw [hreserved]
    simpa using hnot

theorem cleanUpAlike (hj : j ≠ slot)
    (hserviced : header'.clientReserved j = true -> (header'.slots j).shmCreated = true)
    (h : Alongside p marks k k') (hrows : RowsAlike p marks slot header header') :
    RunsLike Anyhow (fun _ _ t t' => VisitAlike p slot header header' t t')
      (cleanUpQueueResources (poolOps boost) header j) k
      (cleanUpQueueResources (poolOps boost) header' j) k' := by
  have hrow := hrows.rows j hj
  have htype : (header.slots j).type = (header'.slots j).type := by rw [hrow.fields]
  have hdetach : (header.slots j).detach = (header'.slots j).detach := by
    rw [hrow.fields]
  have hskip : VisitAlike p slot header header' k k' := ⟨marks, h, hrows⟩
  unfold cleanUpQueueResources
  rw [hrows.reserved j hj, hdetach, htype]
  split
  · rename_i hreserved
    have hcreated := hserviced hreserved
    split
    · split
      · exact runsLike_pure hskip
      · exact runsLike_pure hskip
      · rename_i hsem
        rw [hrow.shms hcreated]
        apply (destroyAlike h (hrow.done hcreated _ (Or.inl rfl) hsem)
          (hrow.done hcreated _ (Or.inr rfl) hsem)).mono
        intro _ _ t t' hparts
        rcases hparts with ⟨marks', hbelow, hafter⟩
        exact ⟨marks', hafter, hrows.mono hbelow⟩
      · exact runsLike_pure hskip
    · exact runsLike_pure hskip
  · exact runsLike_pure hskip

theorem clearAlike (hj : j ≠ slot) (h : Alongside p marks k k')
    (hrows : RowsAlike p marks slot header header') :
    RunsLike Anyhow (fun a b t t' => VisitAlike p slot a b t t')
      (clearSlot shmRemove header j) k (clearSlot shmRemove header' j) k' := by
  have hrow := hrows.rows j hj
  have hdetach : (header.slots j).detach = (header'.slots j).detach := by
    rw [hrow.fields]
  have hcreated : (header.slots j).shmCreated = (header'.slots j).shmCreated := by
    rw [hrow.fields]
  have hfreed : RowsAlike p marks slot
      ((header.setRow j CoordRow.zero).setReserved j false)
      ((header'.setRow j CoordRow.zero).setReserved j false) :=
    (hrows.setRow rowAlike_zero).setReserved false
  unfold clearSlot forceClearSlot
  rw [hdetach, hcreated]
  split
  · split
    · rename_i hyes
      rw [hrow.shms hyes]
      apply (h.shmRemove _).bind
      intro _ _ t t' h1
      apply (h1.shmRemove _).bind
      intro _ _ t2 t2' h2
      exact runsLike_pure ⟨marks, h2, hfreed⟩
    · exact runsLike_pure ⟨marks, h, hfreed⟩
  · exact runsLike_pure ⟨marks, h, hrows⟩

theorem visitAlike (hboost : BoostAlike boost) (hj : j ≠ slot)
    (hclear : NeedsService header' j -> KeysClear p (header'.slots j))
    (h : VisitAlike p slot header header' k k') :
    RunsLike Anyhow (VisitAlike p slot) (managePoolVisit (poolOps boost) header j) k
      (managePoolVisit (poolOps boost) header' j) k' := by
  rcases h with ⟨marks, h, hrows⟩
  apply (serviceAlike hboost hj hclear h hrows).bind
  intro a b t t' hparts
  rcases hparts with ⟨⟨marks1, h1, hrows1⟩, hserviced⟩
  apply (cleanUpAlike hj hserviced h1 hrows1).bind
  intro _ _ t2 t2' hall
  rcases hall with ⟨marks2, h2, hrows2⟩
  exact clearAlike hj h2 hrows2

end Visit

end Rpc
end Notnets
