import Notnets.Rpc.Allocator

/-!
# A visit and the segments

What a visit of the manager that returns has done to the table and to the
segments of the system.
-/

namespace Notnets
namespace Rpc

open Coord
open Foundation
open Os

/-- `service_slot` runs the allocator for this slot. -/
def NeedsService (header : CoordHeader) (slot : Slot) : Prop :=
  header.clientReserved slot = true ∧ (header.slots slot).shmCreated = false

instance (header : CoordHeader) (slot : Slot) : Decidable (NeedsService header slot) :=
  inferInstanceAs (Decidable (_ ∧ _))

theorem serviced_of_needs (shms : ShmPair) {header : CoordHeader} {slot : Slot}
    (h : NeedsService header slot) :
    serviced shms header slot = header.setRow slot
      { header.slots slot with shms := shms, shmCreated := true } := by
  unfold serviced
  rw [if_pos (by rw [h.left, h.right]; rfl)]

theorem serviced_of_not_needs (shms : ShmPair) {header : CoordHeader} {slot : Slot}
    (h : ¬ NeedsService header slot) : serviced shms header slot = header := by
  unfold serviced
  rw [if_neg]
  intro hyes
  exact h (by simpa [NeedsService] using hyes)

def rowKeys (row : CoordRow) : Int × Int :=
  derivedKeys (allocatorOf row.type) row.clientId

structure ClearedSegments (header : CoordHeader) (slot : Slot)
    (before after : IpcTable Segment) : Prop where
  kept : ¬ ((header.slots slot).detach = true ∧ (header.slots slot).shmCreated = true) ->
    after.entries = before.entries
  removed : (header.slots slot).detach = true ->
    (header.slots slot).shmCreated = true ->
    after.entries = Function.update
      (Function.update before.entries (header.slots slot).shms.requestShm.shmid none)
      (header.slots slot).shms.responseShm.shmid none
  next : after.next = before.next

section Returns

variable {header : CoordHeader} {slot : Slot} {k k' : Kernel}

theorem serviceSlot_returns {allocation : Int -> Int -> OsM ShmPair}
    {result : CoordHeader × Int}
    (h : Returns (serviceSlot header slot allocation) k result k') :
    exists shms, result.1 = serviced shms header slot ∧
      (NeedsService header slot -> Returns (allocation (header.slots slot).messageSize
        (header.slots slot).clientId) k shms k') ∧
      (¬ NeedsService header slot -> k' = k) := by
  unfold serviceSlot at h
  unfold serviced NeedsService
  dsimp only at h
  split at h
  · rename_i hneeds
    rcases returns_bind.mp h with ⟨shms, k1, hallocation, hpure⟩
    rcases returns_pure.mp hpure with ⟨hresult, hk⟩
    refine ⟨shms, ?_, ?_, ?_⟩
    · rw [if_pos hneeds, hresult]
    · intro _
      rw [hk]
      exact hallocation
    · intro hnot
      exact absurd (by simpa using hneeds) hnot
  · rename_i hneeds
    rcases returns_pure.mp h with ⟨hresult, hk⟩
    refine ⟨ShmPair.zero, ?_, ?_, ?_⟩
    · rw [if_neg hneeds, hresult]
    · intro hyes
      exact absurd (by simpa using hyes) hneeds
    · intro _
      exact hk

theorem destroySemaphores_segments (shms : ShmPair) :
    Keeps Kernel.segments (destroySemaphores shms) := by
  have hattach : forall shmid, Keeps Kernel.segments (shmAttach shmid) :=
    fun shmid k a k' h => (returns_shmAttach h).left
  have hread : forall address which,
      Keeps Kernel.segments (readSemaphore address which) := by
    intro address which k a k' h
    have hsame : k' = k := keeps_readSemaphore address which k a k' h
    rw [hsame]
  unfold destroySemaphores
  apply keeps_bind (hattach _)
  intro hReq
  apply keeps_bind (hattach _)
  intro hResp
  iterate 5
    apply keeps_bind (hread _ _)
    intro semid
    apply keeps_bind (semRemove_segments _)
    intro u
  apply keeps_bind (hread _ _)
  intro semid
  exact semRemove_segments _

theorem cleanUp_segments (boost : Int -> Int -> OsM ShmPair) (header : CoordHeader)
    (slot : Slot) :
    Keeps Kernel.segments (cleanUpQueueResources (poolOps boost) header slot) := by
  unfold cleanUpQueueResources
  split
  · split
    · split
      · exact keeps_pure _
      · exact keeps_pure _
      · exact destroySemaphores_segments _
      · exact keeps_pure _
    · exact keeps_pure _
  · exact keeps_pure _

theorem clearSlot_returns {header' : CoordHeader}
    (h : Returns (clearSlot shmRemove header slot) k header' k') :
    header' = cleared header slot ∧
      ClearedSegments header slot k.segments k'.segments := by
  unfold clearSlot at h
  unfold cleared
  split at h
  · rename_i hdetach
    rw [if_pos hdetach]
    unfold forceClearSlot at h
    split at h
    · rename_i hcreated
      rcases returns_bind.mp h with ⟨ret1, k1, hremove1, hrest⟩
      rcases returns_bind.mp hrest with ⟨ret2, k2, hremove2, hpure⟩
      rcases returns_pure.mp hpure with ⟨hheader, hk⟩
      rcases returns_shmRemove hremove1 with ⟨_, hnext1, hentries1⟩
      rcases returns_shmRemove hremove2 with ⟨_, hnext2, hentries2⟩
      refine ⟨hheader, ?_, ?_, ?_⟩
      · intro hnot
        exact absurd ⟨hdetach, hcreated⟩ hnot
      · intro _ _
        rw [hk, hentries2, hentries1]
      · rw [hk, hnext2, hnext1]
    · rename_i hcreated
      rcases returns_pure.mp h with ⟨hheader, hk⟩
      refine ⟨hheader, ?_, ?_, ?_⟩
      · intro _
        rw [hk]
      · intro _ hyes
        exact absurd hyes hcreated
      · rw [hk]
  · rename_i hdetach
    rw [if_neg hdetach]
    rcases returns_pure.mp h with ⟨hheader, hk⟩
    refine ⟨hheader, ?_, ?_, ?_⟩
    · intro _
      rw [hk]
    · intro hyes
      exact absurd hyes hdetach
    · rw [hk]

theorem visit_services {boost : Int -> Int -> OsM ShmPair} {shms : ShmPair}
    (hneeds : NeedsService header slot) (hdetach : (header.slots slot).detach = false)
    (halloc : Returns ((poolOps boost).run (allocatorOf (header.slots slot).type)
      (header.slots slot).messageSize (header.slots slot).clientId) k shms k') :
    Returns (managePoolVisit (poolOps boost) header slot) k
      (serviced shms header slot) k' := by
  have hmark : ((serviced shms header slot).slots slot).detach = false := by
    rw [serviced_of_needs shms hneeds, CoordHeader.setRow_slots_self]
    exact hdetach
  have hservice : Returns (serviceSlot header slot
      ((poolOps boost).run (allocatorOf (header.slots slot).type))) k
      (serviced shms header slot, (header.slots slot).clientId) k' := by
    rw [serviced_of_needs shms hneeds]
    unfold serviceSlot
    dsimp only
    rw [if_pos (by rw [hneeds.left, hneeds.right]; rfl)]
    exact returns_bind.mpr ⟨shms, k', halloc, returns_pure.mpr ⟨rfl, rfl⟩⟩
  refine returns_bind.mpr ⟨_, k', hservice, ?_⟩
  refine returns_bind.mpr ⟨(), k', ?_, ?_⟩
  · unfold cleanUpQueueResources
    dsimp only
    rw [hmark]
    split
    · exact returns_pure.mpr ⟨rfl, rfl⟩
    · exact returns_pure.mpr ⟨rfl, rfl⟩
  · unfold clearSlot
    dsimp only
    rw [hmark]
    exact returns_pure.mpr ⟨rfl, rfl⟩

structure VisitedSegments (header : CoordHeader) (slot : Slot) (shms : ShmPair)
    (segments mid segments' : IpcTable Segment) : Prop where
  allocated : NeedsService header slot ->
    AllocatedByKeys (rowKeys (header.slots slot)) segments mid shms
  skipped : ¬ NeedsService header slot -> mid = segments
  cleared : ClearedSegments (serviced shms header slot) slot mid segments'

/-- A visit services the slot by the keys of its row, and then clears it, if it
is marked. -/
theorem managePoolVisit_returns {boost : Int -> Int -> OsM ShmPair}
    (hboost : NeedsService header slot ->
      allocatorOf (header.slots slot).type = .boost -> BoostByKeys boost)
    {header' : CoordHeader}
    (h : Returns (managePoolVisit (poolOps boost) header slot) k header' k') :
    exists shms mid, header' = visitWith shms header slot ∧
      VisitedSegments header slot shms k.segments mid k'.segments := by
  rcases returns_bind.mp h with ⟨result, k1, hservice, hrest⟩
  rcases returns_bind.mp hrest with ⟨u, k2, hclean, hclear⟩
  rcases serviceSlot_returns hservice with ⟨shms, hresult, hneeds, hnot⟩
  have hsegments := cleanUp_segments boost _ _ _ _ _ hclean
  rcases clearSlot_returns hclear with ⟨hheader, hcleared⟩
  rw [hresult] at hheader hcleared
  rw [hsegments] at hcleared
  refine ⟨shms, k1.segments, ?_, ?_, ?_, hcleared⟩
  · rw [visitWith_eq]
    exact hheader
  · intro hyes
    exact poolOps_run_keys (hboost hyes) (hneeds hyes)
  · intro hno
    rw [hnot hno]

end Returns

/-!
# The server and its system
-/

/-- The coordination table and the system around it. -/
structure ServerState where
  header : CoordHeader
  kernel : Kernel

/-- The state after a computation of the server that returns a table. -/
def ServerState.after (s : ServerState) (act : OsM CoordHeader) : Option ServerState :=
  (returnOf act s.kernel).map fun result => ⟨result.1, result.2⟩

theorem returns_of_after {s s' : ServerState} {act : OsM CoordHeader}
    (h : s.after act = some s') : Returns act s.kernel s'.header s'.kernel := by
  rcases Option.map_eq_some_iff.mp h with ⟨result, hreturn, hs⟩
  rw [← hs]
  exact returns_of_returnOf hreturn

end Rpc
end Notnets
