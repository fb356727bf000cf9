import Notnets.Rpc.Accept

/-!
# Calls as atomic steps

The calls of the clients and of the server on one table, each of them from its
beginning to its end before the next one starts.
-/

namespace Notnets
namespace Rpc

open Coord

universe u

/-- What `accept` returns: the operations and the fields of the queue pair.  The
addresses are NULL if the slot was attached already. -/
structure QueueCtx where
  table : OperationTable
  clientId : Int
  offset : Int
  addresses : Option (Option Int × Option Int)
deriving DecidableEq, Repr

inductive ServerCall where
  | requestSlot (clientId messageSize : Int) (type : QueueType)
  | clientClose (clientId : Int)
  | accept
  | managePool
  /-- One pass of the loop of `manage_pool`. -/
  | visit (slot : Slot)
deriving DecidableEq, Repr

inductive ServerReturn where
  | slot (slot : Option Slot)
  | code (ret : Int)
  | queueCtx (ctx : Option QueueCtx)
  /-- `accept` waits for two keys that are not zero, and never returns. -/
  | waiting (slot : Slot)
  | done
deriving DecidableEq, Repr

section Calls

variable {m : Type -> Type u} [Monad m] (ops : PoolOps m) (attach : Int -> m (Option Int))

/-- `_create_server_queue_pair`. -/
def createServerQueuePair (header : CoordHeader) (slot : Slot) (table : OperationTable) :
    m (CoordHeader × ServerReturn) :=
  let shms := checkSlot header slot
  let clientId := getClientId header slot
  if keysMissing shms then
    pure (header, .waiting slot)
  else if getServerAttachState header slot then
    pure (header, .queueCtx (some
      { table := table
        clientId := clientId
        offset := shms.offset
        addresses := none }))
  else do
    let requestAddr <- attach shms.requestShm.shmid
    let responseAddr <- attach shms.responseShm.shmid
    pure ((setServerAttachState header slot true).1, .queueCtx (some
      { table := table
        clientId := clientId
        offset := shms.offset
        addresses := some (requestAddr, responseAddr) }))

def accept (header : CoordHeader) : m (CoordHeader × ServerReturn) :=
  match acceptScan header with
  | some slot =>
      createServerQueuePair attach
        { header with acceptSlot := (slot.val + 1) % slotNum } slot
        (selectQueueCtx (header.slots slot).type)
  | none => pure (header, .queueCtx none)

def perform (header : CoordHeader) : ServerCall -> m (CoordHeader × ServerReturn)
  | .requestSlot clientId messageSize type =>
      let result := requestSlot header clientId messageSize type
      pure (result.1, .slot result.2)
  | .clientClose clientId =>
      let result := clientClose header clientId
      pure (result.1, .code result.2)
  | .accept => accept attach header
  | .managePool => do
      let header' <- managePool ops header
      pure (header', .done)
  | .visit slot => do
      let header' <- managePoolVisit ops header slot
      pure (header', .done)

end Calls

end Rpc
end Notnets
