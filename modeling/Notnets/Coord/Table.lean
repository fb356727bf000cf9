import Mathlib.Data.Fin.Tuple.Basic
import Mathlib.Logic.Function.Basic

/-!
# The coordination table

Clients and the server meet in one shared table of slots.  A client reserves a
slot and describes its connection in the row, the server fills in the shared
memory of the connection, and the client asks for the row to be cleared by
setting `detach`.  Effects outside of the table are left to an arbitrary monad:
`service_slot` is handed the allocator, and clearing a slot removes segments.
-/

namespace Notnets
namespace Coord

universe u

/-- `QUEUE_TYPE`; `other` stands for the values outside of the enumeration. -/
inductive QueueType where
  | poll
  | boost
  | sem
  | other
deriving DecidableEq, Repr

def slotNum : Nat := 40

abbrev Slot := Fin slotNum

/-- The slot with which a scan starts. -/
def firstSlot : Slot :=
  ⟨0, by decide⟩

/-- `QUEUE_SIZE`, the bytes of one queue region. -/
def queueRegionSize : Nat := 16024

structure NotnetsShmInfo where
  key : Int
  shmid : Int
deriving DecidableEq, Repr

structure ShmPair where
  requestShm : NotnetsShmInfo
  responseShm : NotnetsShmInfo
  offset : Int
deriving DecidableEq, Repr

/-- `shm_pair shms = {}`. -/
def ShmPair.zero : ShmPair where
  requestShm := ⟨0, 0⟩
  responseShm := ⟨0, 0⟩
  offset := 0

structure CoordRow where
  clientId : Int
  messageSize : Int
  type : QueueType
  shmCreated : Bool
  clientAttached : Bool
  serverAttached : Bool
  shms : ShmPair
  detach : Bool
deriving DecidableEq, Repr

/-- A row of zero bytes; zero is the value of `POLL`. -/
def CoordRow.zero : CoordRow where
  clientId := 0
  messageSize := 0
  type := .poll
  shmCreated := false
  clientAttached := false
  serverAttached := false
  shms := ShmPair.zero
  detach := false

structure CoordHeader where
  shmid : Int
  acceptSlot : Nat
  clientReserved : Slot -> Bool
  slots : Slot -> CoordRow

/-- The header in a segment of zero bytes. -/
def CoordHeader.zero : CoordHeader where
  shmid := 0
  acceptSlot := 0
  clientReserved := fun _ => false
  slots := fun _ => CoordRow.zero

/-- What `coord_create` writes over the content of its segment. -/
def coordCreate (content : CoordHeader) (shmid : Int) : CoordHeader :=
  { content with
    shmid := shmid
    acceptSlot := 0
    clientReserved := fun _ => false }

namespace CoordHeader

def setRow (header : CoordHeader) (slot : Slot) (row : CoordRow) : CoordHeader :=
  { header with slots := Function.update header.slots slot row }

def setReserved (header : CoordHeader) (slot : Slot) (reserved : Bool) :
    CoordHeader :=
  { header with
    clientReserved := Function.update header.clientReserved slot reserved }

variable (header : CoordHeader) (slot : Slot) (row : CoordRow) (reserved : Bool)

@[simp] theorem setRow_slots_self : (header.setRow slot row).slots slot = row :=
  Function.update_self _ _ _

@[simp] theorem setRow_slots_of_ne {other : Slot} (h : other ≠ slot) :
    (header.setRow slot row).slots other = header.slots other :=
  Function.update_of_ne h _ _

@[simp] theorem setRow_setRow (row' : CoordRow) :
    (header.setRow slot row).setRow slot row' = header.setRow slot row' := by
  simp [setRow]

@[simp] theorem setRow_eq_self : header.setRow slot (header.slots slot) = header := by
  simp [setRow]

@[simp] theorem setRow_clientReserved :
    (header.setRow slot row).clientReserved = header.clientReserved := rfl

@[simp] theorem setReserved_clientReserved_self :
    (header.setReserved slot reserved).clientReserved slot = reserved :=
  Function.update_self _ _ _

@[simp] theorem setReserved_clientReserved_of_ne {other : Slot}
    (h : other ≠ slot) :
    (header.setReserved slot reserved).clientReserved other =
      header.clientReserved other :=
  Function.update_of_ne h _ _

@[simp] theorem setReserved_slots :
    (header.setReserved slot reserved).slots = header.slots := rfl

end CoordHeader

/-!
# Clients
-/

/-- The slot that `request_slot` hands out: the first one not reserved. -/
def freeSlot (header : CoordHeader) : Option Slot :=
  Fin.find? fun i => !header.clientReserved i

/-- What `request_slot` leaves in the row it reserves. -/
def requestRow (row : CoordRow) (clientId messageSize : Int) (type : QueueType) :
    CoordRow :=
  { row with
    clientId := clientId
    messageSize := messageSize
    detach := false
    type := type
    clientAttached := false
    serverAttached := false
    shmCreated := false }

/-- `request_slot` returns the slot it reserved, or -1, here `none`. -/
def requestSlot (header : CoordHeader) (clientId messageSize : Int)
    (type : QueueType) : CoordHeader × Option Slot :=
  match freeSlot header with
  | some i =>
      ((header.setRow i
          (requestRow (header.slots i) clientId messageSize type)).setReserved i true,
        some i)
  | none => (header, none)

def checkSlot (header : CoordHeader) (slot : Slot) : ShmPair :=
  if (header.slots slot).shmCreated then (header.slots slot).shms
  else ShmPair.zero

def getClientId (header : CoordHeader) (slot : Slot) : Int :=
  if (header.slots slot).shmCreated then (header.slots slot).clientId else 0

def getClientAttachState (header : CoordHeader) (slot : Slot) : Bool :=
  if (header.slots slot).shmCreated then (header.slots slot).clientAttached
  else false

def getServerAttachState (header : CoordHeader) (slot : Slot) : Bool :=
  if (header.slots slot).shmCreated then (header.slots slot).serverAttached
  else false

def setClientAttachState (header : CoordHeader) (slot : Slot) (state : Bool) :
    CoordHeader × Bool :=
  if (header.slots slot).shmCreated then
    (header.setRow slot { header.slots slot with clientAttached := state }, state)
  else
    (header, false)

def setServerAttachState (header : CoordHeader) (slot : Slot) (state : Bool) :
    CoordHeader × Bool :=
  if (header.slots slot).shmCreated then
    (header.setRow slot { header.slots slot with serverAttached := state }, state)
  else
    (header, false)

/-!
# Server
-/

section Server

variable {m : Type -> Type u} [Monad m]

/-- Returns the client id, or -1 if there was nothing to service. -/
def serviceSlot (header : CoordHeader) (slot : Slot)
    (allocation : Int -> Int -> m ShmPair) : m (CoordHeader × Int) := do
  let clientId := (header.slots slot).clientId
  if header.clientReserved slot && !(header.slots slot).shmCreated then
    let shms <- allocation (header.slots slot).messageSize (header.slots slot).clientId
    return (header.setRow slot
      { header.slots slot with shms := shms, shmCreated := true }, clientId)
  else
    return (header, -1)

def forceClearSlot (shmRemove : Int -> m Int) (header : CoordHeader)
    (slot : Slot) : m CoordHeader := do
  if (header.slots slot).shmCreated then
    let _ <- shmRemove (header.slots slot).shms.requestShm.shmid
    let _ <- shmRemove (header.slots slot).shms.responseShm.shmid
  return (header.setRow slot CoordRow.zero).setReserved slot false

def clearSlot (shmRemove : Int -> m Int) (header : CoordHeader) (slot : Slot) :
    m CoordHeader :=
  if (header.slots slot).detach then forceClearSlot shmRemove header slot
  else pure header

end Server

def coordShutdown (header : CoordHeader) : CoordHeader :=
  { header with slots := fun i => { header.slots i with detach := true } }

/-!
# What the operations of a client do
-/

theorem freeSlot_eq_some_iff {header : CoordHeader} {i : Slot} :
    freeSlot header = some i <->
      header.clientReserved i = false ∧
        forall j, j < i -> header.clientReserved j = true := by
  unfold freeSlot
  rw [Fin.find?_eq_some_iff]
  simp

theorem requestSlot_cases (header : CoordHeader) (clientId messageSize : Int)
    (type : QueueType) :
    (exists i, freeSlot header = some i ∧
      requestSlot header clientId messageSize type =
        ((header.setRow i
          (requestRow (header.slots i) clientId messageSize type)).setReserved i true,
          some i)) ∨
    (freeSlot header = none ∧
      requestSlot header clientId messageSize type = (header, none)) := by
  unfold requestSlot
  cases hfree : freeSlot header with
  | some i => exact Or.inl ⟨i, rfl, rfl⟩
  | none => exact Or.inr ⟨rfl, rfl⟩

end Coord
end Notnets
