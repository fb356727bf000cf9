import Notnets.Rpc.Accept
import Notnets.Rpc.PipelineFair
import Notnets.Rpc.Visit

/-!
# The whole service

Any number of clients open POLL connections to one server, make their calls and
close.  The manager visits the slots, one thread accepts, and every connection that
was accepted has a worker that answers its requests.  The operations on the table are
one step each; inside of `push` and `pop` every access to a queue is.
-/

namespace Notnets
namespace Rpc

open Coord
open Foundation
open Os
open Queue

/-!
# The two ends of a connection
-/

structure ClientEnd where
  pc : ClientPc
  producer : PushPc
  pushed : List (List Byte)
  consumer : PopPc
  popped : List Receipt

structure ServerEnd where
  pc : ServerLoopPc
  consumer : PopPc
  popped : List Receipt
  producer : PushPc
  pushed : List (List Byte)

def ClientEnd.start : ClientEnd where
  pc := .sending 0
  producer := .idle none
  pushed := []
  consumer := .idle none
  popped := []

def ServerEnd.start : ServerEnd where
  pc := .receiving 0
  consumer := .idle none
  popped := []
  producer := .idle none
  pushed := []

def joined (requests responses : SpscQueue) (client : ClientEnd) (server : ServerEnd) :
    PipelineState where
  requests :=
    { queue := requests
      producer := client.producer
      consumer := server.consumer
      pushed := client.pushed
      popped := server.popped }
  responses :=
    { queue := responses
      producer := server.producer
      consumer := client.consumer
      pushed := server.pushed
      popped := client.popped }
  client := client.pc
  server := server.pc

def PipelineState.clientEnd (t : PipelineState) : ClientEnd where
  pc := t.client
  producer := t.requests.producer
  pushed := t.requests.pushed
  consumer := t.responses.consumer
  popped := t.responses.popped

def PipelineState.serverEnd (t : PipelineState) : ServerEnd where
  pc := t.server
  consumer := t.requests.consumer
  popped := t.requests.popped
  producer := t.responses.producer
  pushed := t.responses.pushed

/-!
# The state
-/

/-- The programs of the clients.  The message sizes are values of an `int`, no two
clients derive the same key, and no key is zero. -/
structure Service where
  isClient : Int -> Bool
  pipeline : Int -> Pipeline
  isInt : forall c, isClient c = true -> (pipeline c).header.messageSize < 2 ^ 31
  created : forall c, isClient c = true -> exists usable,
    queueCreate queueRegionSize (pipeline c).header.messageSize =
      .ok ((pipeline c).header, usable)
  nonzero : forall c, isClient c = true ->
    (derivedKeys .hash c).1 ≠ 0 ∧ (derivedKeys .hash c).2 ≠ 0
  ownKeys : forall c, isClient c = true ->
    (derivedKeys .hash c).1 ≠ (derivedKeys .hash c).2
  apart : forall c d, isClient c = true -> isClient d = true -> c ≠ d ->
    [(derivedKeys .hash c).1, (derivedKeys .hash c).2].Disjoint
      [(derivedKeys .hash d).1, (derivedKeys .hash d).2]

inductive ClientStage where
  /-- `client_open` has not reserved a slot yet. -/
  | opening
  /-- In the loop of `client_open` that waits for `shm_created`. -/
  | waiting (slot : Slot)
  /-- `client_open` has returned the addresses of these segments. -/
  | connected (shms : ShmPair)
  /-- `client_open` has returned NULL for both addresses. -/
  | refused
  /-- `client_close` has returned. -/
  | closed
deriving DecidableEq, Repr

structure Worker where
  shms : ShmPair
  place : ServerEnd

structure ServiceState where
  header : CoordHeader
  /-- The slot that the manager visits next. -/
  cursor : Slot
  /-- The identifier of the next segment. -/
  nextShmid : Int
  /-- The queues in the segments, which stay while they are attached. -/
  queues : Int -> SpscQueue
  stage : Int -> ClientStage
  /-- What the clients have done on their connections. -/
  clients : Int -> ClientEnd
  /-- The workers, by the client id in the queue pair that `accept` returned. -/
  workers : Int -> Option Worker
  /-- The segments made for each client; no step reads them. -/
  made : Int -> Option ShmPair

inductive ServiceLabel where
  /-- `client_open` calls `request_slot`. -/
  | request (c : Int)
  /-- `client_open` tests `shm_created`, and attaches the segments if it is set. -/
  | connect (c : Int)
  /-- The next step of the client's program. -/
  | run (c : Int)
  | close (c : Int)
  /-- The manager visits the next slot. -/
  | visit
  | accept
  /-- The next step of the worker for this client. -/
  | serve (c : Int)
deriving DecidableEq, Repr

/-!
# The steps
-/

/-- What `_hash_shm_allocator` returns when both keys are new. -/
def newPair (clientId nextShmid : Int) : ShmPair where
  requestShm := ⟨(derivedKeys .hash clientId).1, nextShmid⟩
  responseShm := ⟨(derivedKeys .hash clientId).2, nextShmid + 1⟩
  offset := 0

/-- The content of a segment of zero bytes after `queue_create`. -/
def createdQueue (header : SpscQueueHeader) : SpscQueue :=
  { (Segment.zero queueRegionSize).queue with header := header }

namespace ServiceState

variable (S : Service) (s : ServiceState)

def setQueues (shms : ShmPair) (t : PipelineState) : ServiceState :=
  { s with
    queues := Function.update
      (Function.update s.queues shms.requestShm.shmid t.requests.queue)
      shms.responseShm.shmid t.responses.queue }

def requestStep (c : Int) : Option ServiceState :=
  match S.isClient c, s.stage c with
  | true, .opening =>
      match requestSlot s.header c (S.pipeline c).header.messageSize .poll with
      | (header, some slot) =>
          some { s with
            header := header
            stage := Function.update s.stage c (.waiting slot) }
      | (_, none) => some s
  | _, _ => none

def connectStep (c : Int) : Option ServiceState :=
  match s.stage c with
  | .waiting slot =>
      if (s.header.slots slot).shmCreated then
        if getClientAttachState s.header slot then
          some { s with stage := Function.update s.stage c .refused }
        else
          some { s with
            header := (setClientAttachState s.header slot true).1
            stage := Function.update s.stage c (.connected (checkSlot s.header slot)) }
      else
        some s
  | _ => none

def runStep (c : Int) : Option ServiceState :=
  match s.stage c with
  | .connected shms =>
      (clientNext (S.pipeline c) (joined (s.queues shms.requestShm.shmid)
        (s.queues shms.responseShm.shmid) (s.clients c) ServerEnd.start)).map fun t =>
          { s.setQueues shms t with
            clients := Function.update s.clients c t.clientEnd }
  | _ => none

def closeStep (c : Int) : Option ServiceState :=
  match s.stage c with
  | .connected _ | .refused =>
      some { s with
        header := (clientClose s.header c).1
        stage := Function.update s.stage c .closed }
  | _ => none

def visitStep : Option ServiceState :=
  if NeedsService s.header s.cursor then
    let row := s.header.slots s.cursor
    let shms := newPair row.clientId s.nextShmid
    match queueCreate queueRegionSize (toSizeT row.messageSize) with
    | .error _ => none
    | .ok (header, _) =>
        some { s with
          header := visitWith shms s.header s.cursor
          cursor := nextSlot s.cursor
          nextShmid := s.nextShmid + 2
          queues := Function.update
            (Function.update s.queues shms.requestShm.shmid (createdQueue header))
            shms.responseShm.shmid (createdQueue header)
          made := Function.update s.made row.clientId (some shms) }
  else
    some { s with
      header := visitWith ShmPair.zero s.header s.cursor
      cursor := nextSlot s.cursor }

def acceptStep : ServiceState :=
  match acceptScan s.header with
  | none => s
  | some slot =>
      let header := { s.header with acceptSlot := (slot.val + 1) % slotNum }
      if getServerAttachState header slot then
        { s with header := header }
      else
        { s with
          header := (setServerAttachState header slot true).1
          workers := Function.update s.workers (getClientId header slot)
            (some ⟨checkSlot header slot, ServerEnd.start⟩) }

def serveStep (c : Int) : Option ServiceState :=
  match s.workers c with
  | some worker =>
      (serverNext (S.pipeline c) (joined (s.queues worker.shms.requestShm.shmid)
        (s.queues worker.shms.responseShm.shmid) ClientEnd.start worker.place)).map
          fun t =>
            { s.setQueues worker.shms t with
              workers := Function.update s.workers c
                (some { worker with place := t.serverEnd }) }
  | none => none

end ServiceState

def serviceNext (S : Service) (s : ServiceState) : ServiceLabel -> Option ServiceState
  | .request c => s.requestStep S c
  | .connect c => s.connectStep c
  | .run c => s.runStep S c
  | .close c => s.closeStep c
  | .visit => s.visitStep
  | .accept => some s.acceptStep
  | .serve c => s.serveStep S c

/-- A new server that no client has found yet. -/
def serviceStart (shmid : Int) : ServiceState where
  header := { CoordHeader.zero with shmid := shmid }
  cursor := firstSlot
  nextShmid := shmid + 1
  queues := fun _ => (Segment.zero queueRegionSize).queue
  stage := fun _ => .opening
  clients := fun _ => ClientEnd.start
  workers := fun _ => none
  made := fun _ => none

def serviceSystem (S : Service) : TransitionSystem ServiceState ServiceLabel where
  Initial s := exists shmid, s = serviceStart shmid
  next := serviceNext S

end Rpc
end Notnets
