import Notnets.Rpc.Service
import Notnets.Rpc.Server

/-!
# The service on its system

The same service with its segments where they are.  The visits of the manager,
`accept` and the end of `client_open` make their calls to the system, and the queues
are read and written through the addresses that `shm_attach` returned.
-/

namespace Notnets
namespace Rpc

open Coord
open Foundation
open Os
open Queue

/-!
# The state
-/

/-- The addresses in a `queue_pair`; `none` is `(void*) -1`. -/
structure QueuePair where
  requestShmaddr : Option Int
  responseShmaddr : Option Int
deriving DecidableEq, Repr

inductive HostedStage where
  /-- `client_open` has not reserved a slot yet. -/
  | opening
  /-- In one of the two loops of `client_open` behind `request_slot`. -/
  | waiting (slot : Slot)
  /-- `client_open` has returned this queue pair. -/
  | connected (pair : QueuePair)
  /-- `client_open` has returned NULL for both addresses. -/
  | refused
  /-- `client_close` has returned. -/
  | closed
deriving DecidableEq, Repr

structure HostedWorker where
  pair : QueuePair
  place : ServerEnd

structure HostedState where
  header : CoordHeader
  /-- The slot that the manager visits next. -/
  cursor : Slot
  kernel : Kernel
  /-- The queues in the segments that were removed, which stay while they are
  attached. -/
  removed : Int -> SpscQueue
  stage : Int -> HostedStage
  clients : Int -> ClientEnd
  /-- The workers, by the client id in the queue pair. -/
  workers : Int -> Option HostedWorker

/-!
# Memory
-/

namespace HostedState

variable (h : HostedState)

def queueAt (address : Int) : SpscQueue :=
  match h.kernel.segments.entries address with
  | some e => e.object.queue
  | none => h.removed address

def setQueueAt (address : Int) (queue : SpscQueue) : HostedState :=
  { h with
    kernel := { h.kernel with
      segments := h.kernel.segments.modify address fun segment =>
        { segment with queue := queue } }
    removed := Function.update h.removed address queue }

def setQueuesAt (request response : Int) (t : PipelineState) : HostedState :=
  (h.setQueueAt request t.requests.queue).setQueueAt response t.responses.queue

theorem setQueueAt_segments (address : Int) (queue : SpscQueue) :
    (h.setQueueAt address queue).kernel.segments =
      h.kernel.segments.modify address fun segment =>
        { segment with queue := queue } := rfl

theorem setQueueAt_touched (address : Int) (queue : SpscQueue) :
    IpcTable.Touched address h.kernel.segments
      (h.setQueueAt address queue).kernel.segments := by
  rw [setQueueAt_segments]
  exact IpcTable.touched_modify _ _ _

theorem queueAt_setQueueAt_self (address : Int) (queue : SpscQueue) :
    (h.setQueueAt address queue).queueAt address = queue := by
  unfold queueAt
  rw [setQueueAt_segments, IpcTable.modify_at]
  cases h.kernel.segments.entries address with
  | some e => rfl
  | none => exact Function.update_self _ _ _

theorem queueAt_setQueueAt_of_ne {address other : Int} (hne : other ≠ address)
    (queue : SpscQueue) :
    (h.setQueueAt address queue).queueAt other = h.queueAt other := by
  unfold queueAt
  rw [setQueueAt_segments, IpcTable.modify_of_ne _ _ hne]
  cases h.kernel.segments.entries other with
  | some e => rfl
  | none => exact Function.update_of_ne hne _ _

end HostedState

/-!
# The steps
-/

section Calls

variable {m : Type -> Type} [Monad m] (attach : Int -> m (Option Int))

/-- `_create_client_queue_pair`. -/
def createClientQueuePair (header : CoordHeader) (slot : Slot) :
    m (CoordHeader × HostedStage) :=
  let shms := checkSlot header slot
  if keysMissing shms then
    pure (header, .waiting slot)
  else if getClientAttachState header slot then
    pure (header, .refused)
  else do
    let requestAddr <- attach shms.requestShm.shmid
    let responseAddr <- attach shms.responseShm.shmid
    pure ((setClientAttachState header slot true).1,
      .connected ⟨requestAddr, responseAddr⟩)

end Calls

namespace HostedState

variable (S : Service) (boost : Int -> Int -> OsM ShmPair) (h : HostedState)

def requestStep (c : Int) : Option HostedState :=
  match S.isClient c, h.stage c with
  | true, .opening =>
      match requestSlot h.header c (S.pipeline c).header.messageSize .poll with
      | (header, some slot) =>
          some { h with
            header := header
            stage := Function.update h.stage c (.waiting slot) }
      | (_, none) => some h
  | _, _ => none

def connectStep (c : Int) : Option HostedState :=
  match h.stage c with
  | .waiting slot =>
      if (h.header.slots slot).shmCreated then
        (returnOf (createClientQueuePair shmAttach h.header slot) h.kernel).map
          fun result =>
            { h with
              header := result.1.1
              kernel := result.2
              stage := Function.update h.stage c result.1.2 }
      else
        some h
  | _ => none

/-- Nobody reads or writes through an address that is not one. -/
def runStep (c : Int) : Option HostedState :=
  match h.stage c with
  | .connected ⟨some request, some response⟩ =>
      (clientNext (S.pipeline c) (joined (h.queueAt request) (h.queueAt response)
        (h.clients c) ServerEnd.start)).map fun t =>
          { h.setQueuesAt request response t with
            clients := Function.update h.clients c t.clientEnd }
  | _ => none

def closeStep (c : Int) : Option HostedState :=
  match h.stage c with
  | .connected _ | .refused =>
      some { h with
        header := (clientClose h.header c).1
        stage := Function.update h.stage c .closed }
  | _ => none

/-- What was in a segment that the visit removed stays. -/
def afterVisit (header : CoordHeader) (kernel : Kernel) : HostedState :=
  { h with
    header := header
    cursor := nextSlot h.cursor
    kernel := kernel
    removed := h.queueAt }

/-- A visit that halts is not a step. -/
def visitStep : Option HostedState :=
  (returnOf (managePoolVisit (poolOps boost) h.header h.cursor) h.kernel).map
    fun result => h.afterVisit result.1 result.2

/-- What the server does with the return of `accept`. -/
def employ (ctx : QueueCtx) : HostedState :=
  match ctx.addresses with
  | some (requestAddr, responseAddr) =>
      { h with
        workers := Function.update h.workers ctx.clientId
          (some ⟨⟨requestAddr, responseAddr⟩, ServerEnd.start⟩) }
  | none => h

def acceptStep : Option HostedState :=
  match returnOf (accept shmAttach h.header) h.kernel with
  | some ((header, .queueCtx none), kernel) =>
      some { h with header := header, kernel := kernel }
  | some ((header, .queueCtx (some ctx)), kernel) =>
      some ({ h with header := header, kernel := kernel }.employ ctx)
  | _ => none

def serveStep (c : Int) : Option HostedState :=
  match h.workers c with
  | some ⟨⟨some request, some response⟩, place⟩ =>
      (serverNext (S.pipeline c) (joined (h.queueAt request) (h.queueAt response)
        ClientEnd.start place)).map fun t =>
          { h.setQueuesAt request response t with
            workers := Function.update h.workers c
              (some ⟨⟨some request, some response⟩, t.serverEnd⟩) }
  | _ => none

end HostedState

def hostedNext (S : Service) (boost : Int -> Int -> OsM ShmPair) (h : HostedState) :
    ServiceLabel -> Option HostedState
  | .request c => h.requestStep S c
  | .connect c => h.connectStep c
  | .run c => h.runStep S c
  | .close c => h.closeStep c
  | .visit => h.visitStep boost
  | .accept => h.acceptStep
  | .serve c => h.serveStep S c

/-- The server has just made the segment of its table. -/
def hostedStart (k : Kernel) : HostedState where
  header := coordCreate CoordHeader.zero (k.segments.next - 1)
  cursor := firstSlot
  kernel := k
  removed := fun _ => (Segment.zero queueRegionSize).queue
  stage := fun _ => .opening
  clients := fun _ => ClientEnd.start
  workers := fun _ => none

/-- No call fails, and no segment has a key that a client derives. -/
structure KeysFree (S : Service) (k : Kernel) : Prop where
  calls : k.faults = []
  free : forall c, S.isClient c = true -> forall id e, k.segments.entries id = some e ->
    e.key ≠ (derivedKeys .hash c).1 ∧ e.key ≠ (derivedKeys .hash c).2

def hostedSystem (S : Service) (boost : Int -> Int -> OsM ShmPair) :
    TransitionSystem HostedState ServiceLabel where
  Initial h := exists k, KeysFree S k ∧ h = hostedStart k
  next := hostedNext S boost

end Rpc
end Notnets
