import Notnets.Coord.RowField
import Notnets.Foundation.TransitionSystem
import Notnets.Rpc.Client

/-!
# The reservation handshake

`request_slot` writes its row under the mutex, field by field, and reserves the
slot last.  `service_slot`, `clear_slot` and `check_slot` take no lock.  Here
every read and every write of a field is a step of its own; only `client_close`
is one step.
-/

namespace Notnets
namespace Rpc

open Coord
open Foundation

/-- One run of an allocator: its arguments and its result. -/
structure Allocation where
  allocator : Allocator
  messageSize : Int
  clientId : Int
  shms : ShmPair
deriving DecidableEq, Repr

/-- What a client reserved a slot for, and the runs of an allocator for it. -/
structure Reservation where
  clientId : Int
  messageSize : Int
  type : QueueType
  allocations : List Allocation
deriving DecidableEq, Repr

inductive RequestPc where
  | idle
  /-- In `request_slot`, about to take the mutex. -/
  | locking (messageSize : Int) (type : QueueType)
  /-- About to read `client_reserved` of this slot. -/
  | scanning (messageSize : Int) (type : QueueType) (index : Nat)
  /-- About to write the next field, or to reserve the slot after the last one. -/
  | writing (slot : Slot) (messageSize : Int) (type : QueueType)
      (todo : List RowField)
  /-- About to release the mutex and to return. -/
  | unlocking (result : Option Slot)
  /-- `request_slot` has returned this slot, and the last `check_slot` that saw
  `shm_created` has returned this pair. -/
  | holding (slot : Slot) (checked : Option ShmPair)
  /-- In `check_slot`, about to copy the next field, or to return. -/
  | copying (slot : Slot) (copy : CoordRow) (todo : List RowField)
deriving DecidableEq, Repr

inductive ServicePc where
  /-- About to read the type of the row. -/
  | choosing
  /-- In `service_slot`, about to read the client id that it returns. -/
  | identifying (allocator : Allocator)
  /-- About to read `client_reserved`. -/
  | testingReserved (allocator : Allocator)
  /-- About to read `shm_created`. -/
  | testingCreated (allocator : Allocator)
  | readingSize (allocator : Allocator)
  | readingId (allocator : Allocator) (messageSize : Int)
  | allocating (allocator : Allocator) (messageSize clientId : Int)
  /-- About to write the next field of the pair, or to store `shm_created`. -/
  | storing (shms : ShmPair) (todo : List RowField)
  /-- In `clear_slot`, about to read `detach`. -/
  | testingDetach
  /-- In `force_clear_slot`, about to read `shm_created`. -/
  | testingServiced
  /-- About to remove the two segments. -/
  | removing
  /-- About to zero the next field, or to reset `client_reserved`. -/
  | zeroing (todo : List RowField)
deriving DecidableEq, Repr

structure HandshakeState where
  header : CoordHeader
  /-- The client that holds the mutex of the header. -/
  mutex : Option Int
  clients : Int -> RequestPc
  /-- The slot that the manager visits. -/
  cursor : Slot
  manager : ServicePc
  /-- The reservations that are not closed; no step reads them. -/
  held : Slot -> Option Reservation

inductive HandshakeLabel where
  /-- The call of `request_slot`. -/
  | request (clientId messageSize : Int) (type : QueueType)
  /-- The next step of a client inside of `request_slot` or `check_slot`. -/
  | client (clientId : Int)
  /-- The call of `check_slot`, which reads `shm_created`. -/
  | check (clientId : Int)
  | close (clientId : Int)
  /-- The next step of the manager; an allocator that runs returns this pair. -/
  | manager (allocated : ShmPair)
deriving DecidableEq, Repr

def HandshakeState.setClient (s : HandshakeState) (clientId : Int)
    (pc : RequestPc) : HandshakeState :=
  { s with clients := Function.update s.clients clientId pc }

def pairRow (shms : ShmPair) : CoordRow :=
  { CoordRow.zero with shms := shms }

def closeHeld (held : Slot -> Option Reservation) (slot : Slot) (clientId : Int) :
    Slot -> Option Reservation :=
  Function.update held slot
    ((held slot).filter fun reservation => reservation.clientId != clientId)

def logAllocation (held : Slot -> Option Reservation) (slot : Slot)
    (allocation : Allocation) : Slot -> Option Reservation :=
  Function.update held slot
    ((held slot).map fun reservation =>
      { reservation with allocations := reservation.allocations ++ [allocation] })

def requestStep (s : HandshakeState) (clientId : Int) : Option HandshakeState :=
  match s.clients clientId with
  | .idle => none
  | .locking messageSize type =>
      match s.mutex with
      | none =>
          some ({ s with mutex := some clientId }.setClient clientId
            (.scanning messageSize type 0))
      | some _ => none
  | .scanning messageSize type index =>
      if hindex : index < slotNum then
        if s.header.clientReserved ⟨index, hindex⟩ then
          some (s.setClient clientId (.scanning messageSize type (index + 1)))
        else
          some (s.setClient clientId
            (.writing ⟨index, hindex⟩ messageSize type requestFields))
      else
        some (s.setClient clientId (.unlocking none))
  | .writing slot messageSize type (field :: todo) =>
      some ({ s with header := s.header.setRow slot (copyField field
        (requestRow CoordRow.zero clientId messageSize type)
        (s.header.slots slot)) }.setClient clientId
          (.writing slot messageSize type todo))
  | .writing slot messageSize type [] =>
      some ({ s with
        header := s.header.setReserved slot true
        held := Function.update s.held slot
          (some ⟨clientId, messageSize, type, []⟩) }.setClient clientId
            (.unlocking (some slot)))
  | .unlocking none => some ({ s with mutex := none }.setClient clientId .idle)
  | .unlocking (some slot) =>
      some ({ s with mutex := none }.setClient clientId (.holding slot none))
  | .holding _ _ => none
  | .copying slot copy (field :: todo) =>
      some (s.setClient clientId
        (.copying slot (copyField field (s.header.slots slot) copy) todo))
  | .copying slot copy [] =>
      some (s.setClient clientId (.holding slot (some copy.shms)))

/-- `client_close`, after which the client may open again. -/
def closeStep (s : HandshakeState) (clientId : Int) : HandshakeState :=
  match matchingRow s.header clientId with
  | some i =>
      { s with
        header := (clientClose s.header clientId).1
        held := closeHeld s.held i clientId }.setClient clientId .idle
  | none => s

def serviceStep (s : HandshakeState) (allocated : ShmPair) : HandshakeState :=
  match s.manager with
  | .choosing =>
      { s with manager :=
        .identifying (allocatorOf (s.header.slots s.cursor).type) }
  | .identifying allocator => { s with manager := .testingReserved allocator }
  | .testingReserved allocator =>
      if s.header.clientReserved s.cursor then
        { s with manager := .testingCreated allocator }
      else
        { s with manager := .testingDetach }
  | .testingCreated allocator =>
      if (s.header.slots s.cursor).shmCreated then
        { s with manager := .testingDetach }
      else
        { s with manager := .readingSize allocator }
  | .readingSize allocator =>
      { s with manager :=
        .readingId allocator (s.header.slots s.cursor).messageSize }
  | .readingId allocator messageSize =>
      { s with manager :=
        .allocating allocator messageSize (s.header.slots s.cursor).clientId }
  | .allocating allocator messageSize clientId =>
      { s with
        held := logAllocation s.held s.cursor
          ⟨allocator, messageSize, clientId, allocated⟩
        manager := .storing allocated shmFields }
  | .storing shms (field :: todo) =>
      { s with
        header := s.header.setRow s.cursor
          (copyField field (pairRow shms) (s.header.slots s.cursor))
        manager := .storing shms todo }
  | .storing _ [] =>
      { s with
        header := s.header.setRow s.cursor
          { s.header.slots s.cursor with shmCreated := true }
        manager := .testingDetach }
  | .testingDetach =>
      if (s.header.slots s.cursor).detach then
        { s with manager := .testingServiced }
      else
        { s with manager := .choosing, cursor := nextSlot s.cursor }
  | .testingServiced =>
      if (s.header.slots s.cursor).shmCreated then
        { s with manager := .removing }
      else
        { s with manager := .zeroing rowFields }
  | .removing => { s with manager := .zeroing rowFields }
  | .zeroing (field :: todo) =>
      { s with
        header := s.header.setRow s.cursor
          (copyField field CoordRow.zero (s.header.slots s.cursor))
        manager := .zeroing todo }
  | .zeroing [] =>
      { s with
        header := s.header.setReserved s.cursor false
        manager := .choosing
        cursor := nextSlot s.cursor }

def handshakeNext (s : HandshakeState) : HandshakeLabel -> Option HandshakeState
  | .request clientId messageSize type =>
      match s.clients clientId with
      | .idle =>
          if clientId = 0 then none
          else some (s.setClient clientId (.locking messageSize type))
      | _ => none
  | .client clientId => requestStep s clientId
  | .check clientId =>
      match s.clients clientId with
      | .holding slot _ =>
          if (s.header.slots slot).shmCreated then
            some (s.setClient clientId (.copying slot CoordRow.zero shmFields))
          else
            some s
      | _ => none
  | .close clientId =>
      match s.clients clientId with
      | .idle => if clientId = 0 then none else some (closeStep s clientId)
      | .holding _ _ => if clientId = 0 then none else some (closeStep s clientId)
      | _ => none
  | .manager allocated => some (serviceStep s allocated)

inductive RequestMove (s : HandshakeState) (clientId : Int) :
    HandshakeState -> Prop where
  | lock {messageSize : Int} {type : QueueType}
      (hpc : s.clients clientId = .locking messageSize type) (hmutex : s.mutex = none) :
      RequestMove s clientId ({ s with mutex := some clientId }.setClient clientId
        (.scanning messageSize type 0))
  | skip {messageSize : Int} {type : QueueType} {index : Nat}
      (hpc : s.clients clientId = .scanning messageSize type index) :
      RequestMove s clientId (s.setClient clientId
        (.scanning messageSize type (index + 1)))
  | choose {messageSize : Int} {type : QueueType} {slot : Slot}
      (hpc : s.clients clientId = .scanning messageSize type slot.val)
      (hfree : s.header.clientReserved slot = false) :
      RequestMove s clientId (s.setClient clientId
        (.writing slot messageSize type requestFields))
  | giveUp {messageSize : Int} {type : QueueType} {index : Nat}
      (hpc : s.clients clientId = .scanning messageSize type index) :
      RequestMove s clientId (s.setClient clientId (.unlocking none))
  | write {slot : Slot} {messageSize : Int} {type : QueueType} {field : RowField}
      {todo : List RowField}
      (hpc : s.clients clientId = .writing slot messageSize type (field :: todo)) :
      RequestMove s clientId ({ s with header := s.header.setRow slot (copyField field
        (requestRow CoordRow.zero clientId messageSize type)
        (s.header.slots slot)) }.setClient clientId
          (.writing slot messageSize type todo))
  | reserve {slot : Slot} {messageSize : Int} {type : QueueType}
      (hpc : s.clients clientId = .writing slot messageSize type []) :
      RequestMove s clientId ({ s with
        header := s.header.setReserved slot true
        held := Function.update s.held slot
          (some ⟨clientId, messageSize, type, []⟩) }.setClient clientId
            (.unlocking (some slot)))
  | fail (hpc : s.clients clientId = .unlocking none) :
      RequestMove s clientId ({ s with mutex := none }.setClient clientId .idle)
  | unlock {slot : Slot} (hpc : s.clients clientId = .unlocking (some slot)) :
      RequestMove s clientId
        ({ s with mutex := none }.setClient clientId (.holding slot none))
  | copy {slot : Slot} {copied : CoordRow} {field : RowField} {todo : List RowField}
      (hpc : s.clients clientId = .copying slot copied (field :: todo)) :
      RequestMove s clientId (s.setClient clientId
        (.copying slot (copyField field (s.header.slots slot) copied) todo))
  | hold {slot : Slot} {copied : CoordRow}
      (hpc : s.clients clientId = .copying slot copied []) :
      RequestMove s clientId
        (s.setClient clientId (.holding slot (some copied.shms)))

theorem requestMove_of_step {s s' : HandshakeState} {clientId : Int}
    (h : requestStep s clientId = some s') : RequestMove s clientId s' := by
  unfold requestStep at h
  cases hpc : s.clients clientId with
  | idle =>
      rw [hpc] at h
      cases h
  | locking messageSize type =>
      rw [hpc] at h
      cases hmutex : s.mutex with
      | some owner =>
          rw [hmutex] at h
          cases h
      | none =>
          rw [hmutex] at h
          injection h with h
          rw [← h]
          exact .lock hpc hmutex
  | scanning messageSize type index =>
      rw [hpc] at h
      dsimp only at h
      split at h
      · rename_i hindex
        split at h
        · injection h with h
          rw [← h]
          exact .skip hpc
        · rename_i hfree
          injection h with h
          rw [← h]
          exact .choose hpc (Bool.eq_false_iff.mpr hfree)
      · injection h with h
        rw [← h]
        exact .giveUp hpc
  | writing slot messageSize type todo =>
      rw [hpc] at h
      cases todo with
      | nil =>
          injection h with h
          rw [← h]
          exact .reserve hpc
      | cons field todo =>
          injection h with h
          rw [← h]
          exact .write hpc
  | unlocking result =>
      rw [hpc] at h
      cases result with
      | none =>
          injection h with h
          rw [← h]
          exact .fail hpc
      | some slot =>
          injection h with h
          rw [← h]
          exact .unlock hpc
  | holding slot checked =>
      rw [hpc] at h
      cases h
  | copying slot copied todo =>
      rw [hpc] at h
      cases todo with
      | nil =>
          injection h with h
          rw [← h]
          exact .hold hpc
      | cons field todo =>
          injection h with h
          rw [← h]
          exact .copy hpc

inductive HandshakeMove (s : HandshakeState) :
    HandshakeLabel -> HandshakeState -> Prop where
  | request {clientId messageSize : Int} {type : QueueType}
      (hpc : s.clients clientId = .idle) :
      HandshakeMove s (.request clientId messageSize type)
        (s.setClient clientId (.locking messageSize type))
  | client {clientId : Int} {s' : HandshakeState} (hmove : RequestMove s clientId s') :
      HandshakeMove s (.client clientId) s'
  | check {clientId : Int} {slot : Slot} {checked : Option ShmPair}
      (hpc : s.clients clientId = .holding slot checked)
      (hcreated : (s.header.slots slot).shmCreated = true) :
      HandshakeMove s (.check clientId)
        (s.setClient clientId (.copying slot CoordRow.zero shmFields))
  | recheck {clientId : Int} : HandshakeMove s (.check clientId) s
  | close {clientId : Int} (hne : clientId ≠ 0)
      (hpc : forall i messageSize type todo,
        s.clients clientId ≠ .writing i messageSize type todo) :
      HandshakeMove s (.close clientId) (closeStep s clientId)
  | manager {allocated : ShmPair} :
      HandshakeMove s (.manager allocated) (serviceStep s allocated)

theorem not_writing {s : HandshakeState} {clientId : Int} {pc : RequestPc}
    (hpc : s.clients clientId = pc)
    (hnot : forall i messageSize type todo, pc ≠ .writing i messageSize type todo) :
    forall i messageSize type todo,
      s.clients clientId ≠ .writing i messageSize type todo := by
  rw [hpc]
  exact hnot

theorem handshakeMove_of_next {s s' : HandshakeState} {l : HandshakeLabel}
    (h : handshakeNext s l = some s') : HandshakeMove s l s' := by
  cases l with
  | request clientId messageSize type =>
      simp only [handshakeNext] at h
      split at h
      · rename_i hpc
        split at h
        · cases h
        · injection h with h
          rw [← h]
          exact .request hpc
      · cases h
  | client clientId => exact .client (requestMove_of_step h)
  | check clientId =>
      simp only [handshakeNext] at h
      split at h
      · rename_i slot checked hpc
        split at h
        · rename_i hcreated
          injection h with h
          rw [← h]
          exact .check hpc hcreated
        · injection h with h
          rw [← h]
          exact .recheck
      · cases h
  | close clientId =>
      simp only [handshakeNext] at h
      split at h
      · rename_i hpc
        split at h
        · cases h
        · rename_i hne
          injection h with h
          rw [← h]
          exact .close hne (not_writing hpc nofun)
      · rename_i slot checked hpc
        split at h
        · cases h
        · rename_i hne
          injection h with h
          rw [← h]
          exact .close hne (not_writing hpc nofun)
      · cases h
  | manager allocated =>
      injection h with h
      rw [← h]
      exact .manager

def handshakeStart : HandshakeState where
  header := CoordHeader.zero
  mutex := none
  clients := fun _ => .idle
  cursor := firstSlot
  manager := .choosing
  held := fun _ => none

def handshakeSystem : TransitionSystem HandshakeState HandshakeLabel where
  Initial s := s = handshakeStart
  next := handshakeNext

end Rpc
end Notnets
