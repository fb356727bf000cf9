import Notnets.Rpc.SemService
import Notnets.Rpc.Server

/-!
# A journal of removals

The server's computations, with a record of every segment and every semaphore
that they ask the system to remove.  The journal is never read: with and without
it, the server does the same.
-/

namespace Notnets
namespace Rpc

open Coord
open Foundation
open Os
open Queue

structure Journal where
  kernel : Kernel
  removedSegments : List Int
  removedSemaphores : List Int

abbrev JournalM := Effect Halt Journal

def onKernel {α : Type} (act : OsM α) : JournalM α :=
  ExceptT.mk fun j =>
    let result := act.run.run j.kernel
    (result.1, { j with kernel := result.2 })

def journalShmRemove (shmid : Int) : JournalM Int := do
  let j <- get
  set { j with removedSegments := j.removedSegments ++ [shmid] }
  onKernel (shmRemove shmid)

def journalSemRemove (semid : Int) : JournalM Unit := do
  let j <- get
  set { j with removedSemaphores := j.removedSemaphores ++ [semid] }
  onKernel (semRemove semid)

def Journal.remove (j : Journal) (semids shmids : List Int) : Journal where
  kernel :=
    { j.kernel with
      segments := j.kernel.segments.removeAll shmids
      semaphores := j.kernel.semaphores.removeAll semids }
  removedSegments := j.removedSegments ++ shmids
  removedSemaphores := j.removedSemaphores ++ semids

/-- The calls of `destroy_semaphores`, in any monad. -/
def destroyWith {m : Type -> Type} [Monad m] (attach : Int -> m (Option Int))
    (read : Option Int -> Semaphore -> m Int) (remove : Int -> m Unit) (shms : ShmPair) :
    m Unit := do
  let hReq <- attach shms.requestShm.shmid
  let hResp <- attach shms.responseShm.shmid
  remove (<- read hReq .full)
  remove (<- read hReq .empty)
  remove (<- read hReq .lock)
  remove (<- read hResp .full)
  remove (<- read hResp .empty)
  remove (<- read hResp .lock)

theorem destroySemaphores_eq :
    destroySemaphores = destroyWith shmAttach readSemaphore semRemove := rfl

def journalAttach (shmid : Int) : JournalM (Option Int) :=
  onKernel (shmAttach shmid)

def journalOps (boostShmAllocator : Int -> Int -> OsM ShmPair) : PoolOps JournalM where
  hashShmAllocator := fun messageSize clientId =>
    onKernel (hashShmAllocator messageSize clientId)
  boostShmAllocator := fun messageSize clientId =>
    onKernel (boostShmAllocator messageSize clientId)
  hashSemShmAllocator := fun messageSize clientId =>
    onKernel (hashSemShmAllocator messageSize clientId)
  destroySemaphores := destroyWith journalAttach
    (fun address which => onKernel (readSemaphore address which)) journalSemRemove
  shmRemove := journalShmRemove

/-!
# Nothing depends on the journal
-/

section Erase

variable {α β : Type}

def Erases (act : JournalM α) (act' : OsM α) : Prop :=
  forall j, RunsLike (fun j k => j.kernel = k) (fun a b j k => a = b ∧ j.kernel = k)
    act j act' j.kernel

theorem erases_pure (a : α) : Erases (pure a) (pure a) :=
  fun _ => runsLike_pure ⟨rfl, rfl⟩

theorem Erases.bind {act : JournalM α} {act' : OsM α} {f : α -> JournalM β}
    {f' : α -> OsM β} (h : Erases act act') (hf : forall a, Erases (f a) (f' a)) :
    Erases (act >>= f) (act' >>= f') := by
  intro j
  apply (h j).bind
  intro a _ t _ hboth
  rcases hboth with ⟨rfl, rfl⟩
  exact hf a t

theorem erases_onKernel (act : OsM α) : Erases (onKernel act) act := by
  intro j
  have hrun : (onKernel act).run.run j =
      ((act.run.run j.kernel).1, { j with kernel := (act.run.run j.kernel).2 }) := rfl
  rcases returns_or_halts act j.kernel with ⟨a, k, h⟩ | ⟨halt, k, h⟩
  · have hreturns : Returns (onKernel act) j a { j with kernel := k } := by
      unfold Returns at h ⊢
      rw [hrun, h]
    exact runsLike_of_returns hreturns h ⟨rfl, rfl⟩
  · have hhalts : Halts (onKernel act) j halt { j with kernel := k } := by
      unfold Halts at h ⊢
      rw [hrun, h]
    exact runsLike_of_halts hhalts h rfl

theorem erases_shmRemove (shmid : Int) :
    Erases (journalShmRemove shmid) (shmRemove shmid) :=
  fun j => erases_onKernel (shmRemove shmid)
    { j with removedSegments := j.removedSegments ++ [shmid] }

theorem erases_semRemove (semid : Int) :
    Erases (journalSemRemove semid) (semRemove semid) :=
  fun j => erases_onKernel (semRemove semid)
    { j with removedSemaphores := j.removedSemaphores ++ [semid] }

theorem erases_destroy (shms : ShmPair) :
    Erases (destroyWith journalAttach
      (fun address which => onKernel (readSemaphore address which)) journalSemRemove shms)
      (destroySemaphores shms) := by
  rw [destroySemaphores_eq]
  unfold destroyWith
  apply (erases_onKernel _).bind
  intro hReq
  apply (erases_onKernel _).bind
  intro hResp
  iterate 5
    apply (erases_onKernel _).bind
    intro semid
    apply (erases_semRemove _).bind
    intro u
  apply (erases_onKernel _).bind
  intro semid
  exact erases_semRemove _

variable (boost : Int -> Int -> OsM ShmPair)

theorem journalOps_run (allocator : Allocator) (messageSize clientId : Int) :
    (journalOps boost).run allocator messageSize clientId =
      onKernel ((poolOps boost).run allocator messageSize clientId) := by
  cases allocator with
  | hash => rfl
  | boost => rfl
  | sem => rfl

theorem erases_run (allocator : Allocator) (messageSize clientId : Int) :
    Erases ((journalOps boost).run allocator messageSize clientId)
      ((poolOps boost).run allocator messageSize clientId) := by
  rw [journalOps_run]
  exact erases_onKernel _

theorem erases_visit (header : CoordHeader) (slot : Slot) :
    Erases (managePoolVisit (journalOps boost) header slot)
      (managePoolVisit (poolOps boost) header slot) := by
  unfold managePoolVisit
  apply Erases.bind
  · unfold serviceSlot
    dsimp only
    split
    · apply (erases_run boost _ _ _).bind
      intro shms
      exact erases_pure _
    · exact erases_pure _
  · intro serviced
    apply Erases.bind
    · unfold cleanUpQueueResources
      split
      · split
        · split
          · exact erases_pure _
          · exact erases_pure _
          · exact erases_destroy _
          · exact erases_pure _
        · exact erases_pure _
      · exact erases_pure _
    · intro u
      unfold clearSlot forceClearSlot
      split
      · split
        · apply (erases_shmRemove _).bind
          intro ret
          apply (erases_shmRemove _).bind
          intro ret'
          exact erases_pure _
        · exact erases_pure _
      · exact erases_pure _

theorem erases_managePool (header : CoordHeader) :
    Erases (managePool (journalOps boost) header)
      (managePool (poolOps boost) header) := by
  intro j
  let Inv : List Slot -> CoordHeader -> CoordHeader -> Journal -> Kernel -> Prop :=
    fun _ a b j k => a = b ∧ j.kernel = k
  apply RunsLike.foldlM Inv
  · intro done slot todo a _ t _ _ hboth
    rcases hboth with ⟨rfl, rfl⟩
    exact erases_visit boost a slot t
  · exact ⟨rfl, rfl⟩

theorem erases_perform (header : CoordHeader) (call : ServerCall) :
    Erases (perform (journalOps boost) journalAttach header call)
      (perform (poolOps boost) shmAttach header call) := by
  cases call with
  | requestSlot clientId messageSize type => exact erases_pure _
  | clientClose clientId => exact erases_pure _
  | accept =>
      show Erases (accept journalAttach header) (accept shmAttach header)
      unfold accept
      split
      · unfold createServerQueuePair
        dsimp only
        split
        · exact erases_pure _
        · split
          · exact erases_pure _
          · apply (erases_onKernel _).bind
            intro requestAddr
            apply (erases_onKernel _).bind
            intro responseAddr
            exact erases_pure _
      · exact erases_pure _
  | managePool =>
      apply (erases_managePool boost header).bind
      intro header'
      exact erases_pure _
  | visit slot =>
      apply (erases_visit boost header slot).bind
      intro header'
      exact erases_pure _

end Erase

/-!
# What is removed
-/

section Removed

variable {j j' : Journal} {shmid : Int}

theorem returns_onKernel {α : Type} {act : OsM α} {a : α} :
    Returns (onKernel act) j a j' <->
      exists k', Returns act j.kernel a k' ∧ j' = { j with kernel := k' } := by
  have hrun : (onKernel act).run.run j =
      ((act.run.run j.kernel).1, { j with kernel := (act.run.run j.kernel).2 }) := rfl
  unfold Returns
  rw [hrun]
  cases act.run.run j.kernel with
  | mk result k =>
      constructor
      · intro h
        injection h with hresult hj
        refine ⟨k, ?_, hj.symm⟩
        dsimp only at hresult
        rw [hresult]
      · intro hparts
        rcases hparts with ⟨k', hreturns, rfl⟩
        injection hreturns with hresult hk
        dsimp only
        rw [hresult, hk]

theorem Journal.remove_nil : j.remove [] [] = j := by
  unfold Journal.remove
  rw [List.append_nil, List.append_nil]
  rfl

theorem Journal.remove_remove {semids semids' shmids shmids' : List Int} :
    (j.remove semids shmids).remove semids' shmids' =
      j.remove (semids ++ semids') (shmids ++ shmids') := by
  unfold Journal.remove
  rw [IpcTable.removeAll_append, IpcTable.removeAll_append, List.append_assoc,
    List.append_assoc]

theorem returns_journalShmRemove {e : IpcEntry Segment}
    (hentry : j.kernel.segments.entries shmid = some e) :
    Returns (journalShmRemove shmid) j 0 (j.remove [] [shmid]) := by
  refine returns_get_bind.mpr (returns_set_bind.mpr ?_)
  refine returns_onKernel.mpr ⟨{ j.kernel with
    segments := j.kernel.segments.remove shmid }, ?_, ?_⟩
  · apply returns_get_bind.mpr
    dsimp only
    rw [hentry]
    exact returns_set_bind.mpr (returns_pure.mpr ⟨rfl, rfl⟩)
  · unfold Journal.remove
    rw [List.append_nil]
    rfl

theorem returns_journalSemRemove (semid : Int) :
    Returns (journalSemRemove semid) j () (j.remove [semid] []) := by
  refine returns_get_bind.mpr (returns_set_bind.mpr ?_)
  refine returns_onKernel.mpr ⟨{ j.kernel with
    semaphores := j.kernel.semaphores.remove semid }, ?_, ?_⟩
  · exact returns_get_bind.mpr (returns_set.mpr rfl)
  · unfold Journal.remove
    rw [List.append_nil]
    rfl

theorem returns_journalAttach (hcalls : j.kernel.faults = []) (shmid : Int) :
    exists address, Returns (journalAttach shmid) j address j ∧
      ((exists e, j.kernel.segments.entries shmid = some e) -> address = some shmid) := by
  have hfault : Returns fault j.kernel false j.kernel := by
    apply returns_fault.mpr
    unfold Kernel.failsNext
    rw [hcalls]
    exact ⟨rfl, by cases j with | mk k _ _ => cases k; cases hcalls; rfl⟩
  cases hentry : j.kernel.segments.entries shmid with
  | none =>
      refine ⟨none, returns_onKernel.mpr ⟨j.kernel, ?_, rfl⟩, ?_⟩
      · refine returns_bind.mpr ⟨false, j.kernel, hfault, returns_get_bind.mpr ?_⟩
        rw [hentry]
        exact returns_pure.mpr ⟨rfl, rfl⟩
      · intro hboth
        rcases hboth with ⟨e, he⟩
        cases he
  | some e =>
      refine ⟨some shmid, returns_onKernel.mpr ⟨j.kernel, ?_, rfl⟩, fun _ => rfl⟩
      refine returns_bind.mpr ⟨false, j.kernel, hfault, returns_get_bind.mpr ?_⟩
      rw [hentry]
      exact returns_pure.mpr ⟨rfl, rfl⟩

theorem returns_readRemove {e : IpcEntry Segment} {semids : List Int}
    (hentry : j.kernel.segments.entries shmid = some e) (which : Semaphore) :
    Returns (onKernel (readSemaphore (some shmid) which) >>= journalSemRemove)
      (j.remove semids []) ()
      (j.remove (semids ++ [e.object.semaphores which]) []) := by
  refine returns_bind.mpr ⟨e.object.semaphores which, j.remove semids [], ?_, ?_⟩
  · have hlater : (j.remove semids []).kernel.segments.entries shmid = some e := hentry
    refine returns_onKernel.mpr ⟨(j.remove semids []).kernel, ?_, rfl⟩
    apply returns_get_bind.mpr
    rw [hlater]
    exact returns_pure.mpr ⟨rfl, rfl⟩
  · have hremove := returns_journalSemRemove (j := j.remove semids [])
      (e.object.semaphores which)
    rw [Journal.remove_remove] at hremove
    exact hremove

theorem returns_readRemove_bind {e : IpcEntry Segment} {semids : List Int}
    (hentry : j.kernel.segments.entries shmid = some e) (which : Semaphore)
    {rest : JournalM Unit}
    (hrest : Returns rest (j.remove (semids ++ [e.object.semaphores which]) []) () j') :
    Returns (do
      let semid <- onKernel (readSemaphore (some shmid) which)
      journalSemRemove semid
      rest) (j.remove semids []) () j' := by
  have hone : Returns (onKernel (readSemaphore (some shmid) which) >>= journalSemRemove)
      (j.remove semids []) ()
      (j.remove (semids ++ [e.object.semaphores which]) []) :=
    returns_readRemove hentry which
  rcases returns_bind.mp hone with ⟨semid, j1, hread, hremove⟩
  exact returns_bind.mpr ⟨semid, j1, hread, returns_bind.mpr ⟨(), _, hremove, hrest⟩⟩

theorem returns_destroy {shms : ShmPair} {e e' : IpcEntry Segment}
    (hcalls : j.kernel.faults = [])
    (hrequest : j.kernel.segments.entries shms.requestShm.shmid = some e)
    (hresponse : j.kernel.segments.entries shms.responseShm.shmid = some e') :
    Returns ((journalOps boost).destroySemaphores shms) j ()
      (j.remove (allSemaphores e.object.semaphores e'.object.semaphores) []) := by
  rcases returns_journalAttach hcalls shms.requestShm.shmid with ⟨hReq, hattach, haddress⟩
  rcases returns_journalAttach hcalls shms.responseShm.shmid with
    ⟨hResp, hattach', haddress'⟩
  rw [haddress ⟨e, hrequest⟩] at hattach
  rw [haddress' ⟨e', hresponse⟩] at hattach'
  refine returns_bind.mpr ⟨_, j, hattach, ?_⟩
  refine returns_bind.mpr ⟨_, j, hattach', ?_⟩
  have hremoved : Returns (do
      journalSemRemove (<- onKernel (readSemaphore (some shms.requestShm.shmid) .full))
      journalSemRemove (<- onKernel (readSemaphore (some shms.requestShm.shmid) .empty))
      journalSemRemove (<- onKernel (readSemaphore (some shms.requestShm.shmid) .lock))
      journalSemRemove (<- onKernel (readSemaphore (some shms.responseShm.shmid) .full))
      journalSemRemove (<- onKernel (readSemaphore (some shms.responseShm.shmid) .empty))
      journalSemRemove (<- onKernel (readSemaphore (some shms.responseShm.shmid) .lock)))
      (j.remove [] []) ()
      (j.remove (allSemaphores e.object.semaphores e'.object.semaphores) []) := by
    apply returns_readRemove_bind hrequest .full
    apply returns_readRemove_bind hrequest .empty
    apply returns_readRemove_bind hrequest .lock
    apply returns_readRemove_bind hresponse .full
    apply returns_readRemove_bind hresponse .empty
    exact returns_readRemove hresponse .lock
  rw [Journal.remove_nil] at hremoved
  exact hremoved

end Removed

end Rpc
end Notnets
