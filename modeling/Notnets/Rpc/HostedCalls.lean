import Notnets.Rpc.HostedService
import Notnets.Rpc.ServiceProgress

/-!
# What the calls of the service return

The calls to the system when none of them fails: what an allocator returns for two new
keys, and what a visit, `accept` and `client_open` return on segments that are there.
-/

namespace Notnets
namespace Rpc

open Coord
open Foundation
open Os
open Queue

/-!
# Single calls
-/

section Single

variable {k : Kernel} {key shmid : Int} {e : IpcEntry Segment}

theorem fault_never (hcalls : k.faults = []) : Returns fault k false k := by
  apply returns_fault.mpr
  constructor
  · unfold Kernel.failsNext
    rw [hcalls]
    rfl
  · rw [hcalls, List.tail_nil, ← hcalls]

theorem shmAttach_present (hcalls : k.faults = [])
    (hentry : k.segments.entries shmid = some e) :
    Returns (shmAttach shmid) k (some shmid) k := by
  refine returns_bind.mpr ⟨false, k, fault_never hcalls, ?_⟩
  apply returns_get_bind.mpr
  rw [hentry]
  exact returns_pure.mpr ⟨rfl, rfl⟩

theorem shmCreate_new (hcalls : k.faults = []) (hfree : k.segments.find key = none)
    (size : Nat) :
    Returns (shmCreate key size) k k.segments.next
      { k with segments := k.segments.insert key (Segment.zero size) hfree } := by
  refine returns_bind.mpr ⟨false, k, fault_never hcalls, ?_⟩
  apply returns_get_bind.mpr
  split
  · rename_i id hfind
    rw [hfree] at hfind
    cases hfind
  · exact returns_set_bind.mpr (returns_pure.mpr ⟨rfl, rfl⟩)

theorem shmRemove_present (hentry : k.segments.entries shmid = some e) :
    Returns (shmRemove shmid) k 0 { k with segments := k.segments.remove shmid } := by
  apply returns_get_bind.mpr
  rw [hentry]
  exact returns_set_bind.mpr (returns_pure.mpr ⟨rfl, rfl⟩)

theorem find_none_of_keys {t : IpcTable Segment}
    (hfree : forall id e, t.entries id = some e -> e.key ≠ key) : t.find key = none := by
  cases hfind : t.find key with
  | none => rfl
  | some id =>
      rcases (IpcTable.find_eq_some hfind).right with ⟨e, hentry, hkey⟩
      exact absurd hkey (hfree id e hentry)

end Single

/-!
# The allocator
-/

def createdSegment (header : SpscQueueHeader) : Segment :=
  { Segment.zero queueRegionSize with queue := createdQueue header }

structure PairMade (c : Int) (header : SpscQueueHeader) (k k' : Kernel) : Prop where
  calls : k'.faults = []
  next : k'.segments.next = k.segments.next + 2
  request : k'.segments.entries k.segments.next =
    some ⟨(derivedKeys .hash c).1, createdSegment header⟩
  response : k'.segments.entries (k.segments.next + 1) =
    some ⟨(derivedKeys .hash c).2, createdSegment header⟩
  other : forall id : Int, id ≠ k.segments.next -> id ≠ k.segments.next + 1 ->
    k'.segments.entries id = k.segments.entries id

section Allocator

variable {k : Kernel} {c messageSize ret : Int} {header : SpscQueueHeader}

theorem hash_makes (hcalls : k.faults = [])
    (hown : (derivedKeys .hash c).1 ≠ (derivedKeys .hash c).2)
    (hfree : forall id e, k.segments.entries id = some e ->
      e.key ≠ (derivedKeys .hash c).1 ∧ e.key ≠ (derivedKeys .hash c).2)
    (hcreate : queueCreate queueRegionSize (toSizeT messageSize) = .ok (header, ret)) :
    exists k', Returns (hashShmAllocator messageSize c) k
      (newPair c k.segments.next) k' ∧ PairMade c header k k' := by
  have hfree1 : k.segments.find (derivedKeys .hash c).1 = none :=
    find_none_of_keys fun id e he => (hfree id e he).left
  let k1 : Kernel := { k with
    segments := k.segments.insert (derivedKeys .hash c).1 (Segment.zero queueRegionSize)
      hfree1 }
  have hfree2 : k1.segments.find (derivedKeys .hash c).2 = none := by
    apply find_none_of_keys
    intro id e he
    have he : (k.segments.insert _ _ hfree1).entries id = some e := he
    cases IpcTable.insert_entry _ he with
    | inl hnew =>
        rw [hnew.right]
        exact hown
    | inr hold => exact (hfree id e hold).right
  let k2 : Kernel := { k1 with
    segments := k1.segments.insert (derivedKeys .hash c).2 (Segment.zero queueRegionSize)
      hfree2 }
  have hids : (k.segments.next : Int) ≠ k1.segments.next := by
    show (k.segments.next : Int) ≠ (k.segments.next + 1 : Nat)
    lia
  have hfirst : k2.segments.entries k.segments.next =
      some ⟨(derivedKeys .hash c).1, Segment.zero queueRegionSize⟩ :=
    (IpcTable.insert_of_ne _ _ hfree2 hids).trans (IpcTable.insert_self _ hfree1)
  have hsecond : k2.segments.entries k1.segments.next =
      some ⟨(derivedKeys .hash c).2, Segment.zero queueRegionSize⟩ :=
    IpcTable.insert_self _ hfree2
  let write : Segment -> Segment := fun segment =>
    { segment with queue := { segment.queue with header := header } }
  let k3 : Kernel := { k2 with segments := k2.segments.modify k.segments.next write }
  let k4 : Kernel := { k3 with segments := k3.segments.modify k1.segments.next write }
  have hthird : k3.segments.entries k1.segments.next =
      some ⟨(derivedKeys .hash c).2, Segment.zero queueRegionSize⟩ :=
    (IpcTable.modify_of_ne _ _ hids.symm).trans hsecond
  have hwrite : forall (shmid : Int) (before : Kernel),
      Returns (queueCreateAt (some shmid) queueRegionSize (toSizeT messageSize)) before ret
        { before with segments := before.segments.modify shmid write } := by
    intro shmid before
    exact returns_queueCreateAt.mpr ⟨header, hcreate, returns_write.mpr rfl⟩
  have hlast : (k1.segments.next : Int) = k.segments.next + 1 := by
    show ((k.segments.next + 1 : Nat) : Int) = _
    lia
  refine ⟨k4, ?_, ?_⟩
  · refine returns_bind.mpr ⟨_, k1, shmCreate_new hcalls hfree1 _, ?_⟩
    refine returns_bind.mpr ⟨_, k2, shmCreate_new (k := k1) hcalls hfree2 _, ?_⟩
    refine returns_bind.mpr ⟨_, k2, shmAttach_present hcalls hfirst, ?_⟩
    refine returns_bind.mpr ⟨_, k2, shmAttach_present hcalls hsecond, ?_⟩
    refine returns_bind.mpr ⟨_, k3, hwrite _ _, ?_⟩
    refine returns_bind.mpr ⟨_, k4, hwrite _ _, ?_⟩
    apply returns_pure.mpr
    rw [hlast]
    exact ⟨rfl, rfl⟩
  · constructor
    · exact hcalls
    · rfl
    · show (k3.segments.modify k1.segments.next write).entries k.segments.next = _
      rw [IpcTable.modify_of_ne _ _ hids]
      exact IpcTable.modify_self _ _ hfirst
    · rw [← hlast]
      show (k3.segments.modify k1.segments.next write).entries k1.segments.next = _
      exact IpcTable.modify_self _ _ hthird
    · intro id hrequest hresponse
      rw [← hlast] at hresponse
      show (k3.segments.modify k1.segments.next write).entries id = _
      rw [IpcTable.modify_of_ne _ _ hresponse]
      show (k2.segments.modify k.segments.next write).entries id = _
      rw [IpcTable.modify_of_ne _ _ hrequest]
      exact (IpcTable.insert_of_ne _ _ hfree2 hresponse).trans
        (IpcTable.insert_of_ne _ _ hfree1 hrequest)

end Allocator

/-!
# A visit
-/

section Visit

variable {boost : Int -> Int -> OsM ShmPair} {header : CoordHeader} {slot : Slot}
  {k : Kernel}

theorem visit_clears {header' : CoordHeader} {k' : Kernel}
    (hneeds : ¬ NeedsService header slot)
    (htype : header.clientReserved slot = true -> (header.slots slot).type = .poll)
    (hclear : Returns (clearSlot shmRemove header slot) k header' k') :
    Returns (managePoolVisit (poolOps boost) header slot) k header' k' := by
  have hservice : Returns (serviceSlot header slot
      ((poolOps boost).run (allocatorOf (header.slots slot).type))) k (header, -1) k := by
    unfold serviceSlot
    dsimp only
    rw [if_neg]
    · exact returns_pure.mpr ⟨rfl, rfl⟩
    · intro hboth
      exact hneeds (by simpa [NeedsService] using hboth)
  refine returns_bind.mpr ⟨_, k, hservice, ?_⟩
  refine returns_bind.mpr ⟨(), k, ?_, hclear⟩
  unfold cleanUpQueueResources
  dsimp only
  split
  · rename_i hreserved
    rw [htype hreserved]
    split
    · exact returns_pure.mpr ⟨rfl, rfl⟩
    · exact returns_pure.mpr ⟨rfl, rfl⟩
  · exact returns_pure.mpr ⟨rfl, rfl⟩

theorem clearSlot_unmarked (hdetach : (header.slots slot).detach = false) :
    Returns (clearSlot shmRemove header slot) k header k := by
  unfold clearSlot
  rw [hdetach]
  exact returns_pure.mpr ⟨rfl, rfl⟩

theorem clearSlot_unmade (hdetach : (header.slots slot).detach = true)
    (hcreated : (header.slots slot).shmCreated = false) :
    Returns (clearSlot shmRemove header slot) k (cleared header slot) k := by
  unfold clearSlot forceClearSlot cleared
  rw [hdetach, hcreated]
  exact returns_pure.mpr ⟨rfl, rfl⟩

theorem clearSlot_made {request response : IpcEntry Segment}
    (hdetach : (header.slots slot).detach = true)
    (hcreated : (header.slots slot).shmCreated = true)
    (hne : (header.slots slot).shms.requestShm.shmid ≠
      (header.slots slot).shms.responseShm.shmid)
    (hrequest : k.segments.entries (header.slots slot).shms.requestShm.shmid =
      some request)
    (hresponse : k.segments.entries (header.slots slot).shms.responseShm.shmid =
      some response) :
    Returns (clearSlot shmRemove header slot) k (cleared header slot)
      { k with
        segments := k.segments.removeAll
          [(header.slots slot).shms.requestShm.shmid,
            (header.slots slot).shms.responseShm.shmid] } := by
  have hleft : (k.segments.remove (header.slots slot).shms.requestShm.shmid).entries
      (header.slots slot).shms.responseShm.shmid = some response :=
    (IpcTable.remove_of_ne _ _ hne.symm).trans hresponse
  unfold clearSlot forceClearSlot cleared
  rw [hdetach, hcreated]
  refine returns_bind.mpr ⟨0, _, shmRemove_present hrequest, ?_⟩
  refine returns_bind.mpr ⟨0, _, shmRemove_present (e := response) hleft, ?_⟩
  exact returns_pure.mpr ⟨rfl, rfl⟩

end Visit

/-!
# Queue pairs
-/

section Pairs

variable {header : CoordHeader} {slot : Slot} {k : Kernel}
  {request response : IpcEntry Segment}

theorem createClientQueuePair_returns (hcalls : k.faults = [])
    (hcreated : (header.slots slot).shmCreated = true)
    (hkeys : keysMissing (header.slots slot).shms = false)
    (hattached : (header.slots slot).clientAttached = false)
    (hrequest : k.segments.entries (header.slots slot).shms.requestShm.shmid =
      some request)
    (hresponse : k.segments.entries (header.slots slot).shms.responseShm.shmid =
      some response) :
    Returns (createClientQueuePair shmAttach header slot) k
      ((setClientAttachState header slot true).1,
        .connected ⟨some (header.slots slot).shms.requestShm.shmid,
          some (header.slots slot).shms.responseShm.shmid⟩) k := by
  unfold createClientQueuePair checkSlot getClientAttachState
  rw [if_pos hcreated, if_pos hcreated]
  dsimp only
  rw [hkeys, hattached]
  refine returns_bind.mpr ⟨_, k, shmAttach_present hcalls hrequest, ?_⟩
  refine returns_bind.mpr ⟨_, k, shmAttach_present hcalls hresponse, ?_⟩
  exact returns_pure.mpr ⟨rfl, rfl⟩

theorem accept_nothing (hscan : acceptScan header = none) :
    Returns (accept shmAttach header) k (header, .queueCtx none) k := by
  unfold accept
  rw [hscan]
  exact returns_pure.mpr ⟨rfl, rfl⟩

theorem accept_again (hscan : acceptScan header = some slot)
    (hkeys : keysMissing (header.slots slot).shms = false)
    (hattached : (header.slots slot).serverAttached = true) :
    Returns (accept shmAttach header) k
      (turned header slot, .queueCtx (some (handleOf (header.slots slot) none))) k := by
  have hcreated := (eligible_iff.mp (acceptScan_eligible hscan)).right.left
  have hshms : checkSlot (turned header slot) slot = (header.slots slot).shms :=
    if_pos hcreated
  have hid : getClientId (turned header slot) slot = (header.slots slot).clientId :=
    if_pos hcreated
  have hstate : getServerAttachState (turned header slot) slot = true :=
    (if_pos hcreated).trans hattached
  unfold accept
  rw [hscan]
  show Returns (createServerQueuePair shmAttach (turned header slot) slot _) k _ k
  unfold createServerQueuePair
  dsimp only
  rw [hshms, hid, hstate, hkeys]
  exact returns_pure.mpr ⟨rfl, rfl⟩

theorem accept_first (hcalls : k.faults = []) (hscan : acceptScan header = some slot)
    (hkeys : keysMissing (header.slots slot).shms = false)
    (hattached : (header.slots slot).serverAttached = false)
    (hrequest : k.segments.entries (header.slots slot).shms.requestShm.shmid =
      some request)
    (hresponse : k.segments.entries (header.slots slot).shms.responseShm.shmid =
      some response) :
    Returns (accept shmAttach header) k
      ((setServerAttachState (turned header slot) slot true).1,
        .queueCtx (some (handleOf (header.slots slot)
          (some (some (header.slots slot).shms.requestShm.shmid,
            some (header.slots slot).shms.responseShm.shmid))))) k := by
  have hcreated := (eligible_iff.mp (acceptScan_eligible hscan)).right.left
  have hshms : checkSlot (turned header slot) slot = (header.slots slot).shms :=
    if_pos hcreated
  have hid : getClientId (turned header slot) slot = (header.slots slot).clientId :=
    if_pos hcreated
  have hstate : getServerAttachState (turned header slot) slot = false :=
    (if_pos hcreated).trans hattached
  unfold accept
  rw [hscan]
  show Returns (createServerQueuePair shmAttach (turned header slot) slot _) k _ k
  unfold createServerQueuePair
  dsimp only
  rw [hshms, hid, hstate, hkeys]
  refine returns_bind.mpr ⟨_, k, shmAttach_present hcalls hrequest, ?_⟩
  refine returns_bind.mpr ⟨_, k, shmAttach_present hcalls hresponse, ?_⟩
  exact returns_pure.mpr ⟨rfl, rfl⟩

end Pairs

end Rpc
end Notnets
