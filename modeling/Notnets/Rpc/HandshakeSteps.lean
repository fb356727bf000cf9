import Mathlib.Logic.Relation
import Notnets.Rpc.Handshake

/-!
# The small steps make up the operations

A party that is alone between the beginning and the end of an operation does in
small steps what the operation does at once.
-/

namespace Notnets
namespace Rpc

open Coord
open Foundation
open Relation

def StepsBy (l : HandshakeLabel) : HandshakeState -> HandshakeState -> Prop :=
  ReflTransGen fun s s' => handshakeNext s l = some s'

section Steps

variable {s s' s'' : HandshakeState} {l : HandshakeLabel}

theorem StepsBy.head (h : handshakeNext s l = some s') (hrest : StepsBy l s' s'') :
    StepsBy l s s'' :=
  ReflTransGen.head h hrest

theorem StepsBy.tail (hbefore : StepsBy l s s') (h : handshakeNext s' l = some s'') :
    StepsBy l s s'' :=
  ReflTransGen.tail hbefore h

end Steps

/-!
# The manager
-/

section Manager

variable (s : HandshakeState) (allocated : ShmPair)

theorem stepsBy_serviceStep {s s' : HandshakeState}
    (h : StepsBy (.manager allocated) (serviceStep s allocated) s') :
    StepsBy (.manager allocated) s s' :=
  StepsBy.head rfl h

theorem stepsBy_storing (shms : ShmPair) (todo : List RowField)
    (header : CoordHeader) :
    StepsBy (.manager allocated)
      { s with header := header, manager := .storing shms todo }
      { s with
        header := header.setRow s.cursor
          { copyFields (pairRow shms) (header.slots s.cursor) todo with
            shmCreated := true }
        manager := .testingDetach } := by
  induction todo generalizing header with
  | nil =>
      apply stepsBy_serviceStep
      exact ReflTransGen.refl
  | cons field todo ih =>
      apply stepsBy_serviceStep
      have hrest := ih (header.setRow s.cursor
        (copyField field (pairRow shms) (header.slots s.cursor)))
      rw [CoordHeader.setRow_setRow, CoordHeader.setRow_slots_self] at hrest
      exact hrest

theorem stepsBy_zeroing (todo : List RowField) (header : CoordHeader) :
    StepsBy (.manager allocated)
      { s with header := header, manager := .zeroing todo }
      { s with
        header := (header.setRow s.cursor (copyFields CoordRow.zero
          (header.slots s.cursor) todo)).setReserved s.cursor false
        manager := .choosing
        cursor := nextSlot s.cursor } := by
  induction todo generalizing header with
  | nil =>
      apply stepsBy_serviceStep
      have hsame : header.setRow s.cursor
          (copyFields CoordRow.zero (header.slots s.cursor) []) = header :=
        CoordHeader.setRow_eq_self header s.cursor
      rw [hsame]
      exact ReflTransGen.refl
  | cons field todo ih =>
      apply stepsBy_serviceStep
      have hrest := ih (header.setRow s.cursor
        (copyField field CoordRow.zero (header.slots s.cursor)))
      rw [CoordHeader.setRow_setRow, CoordHeader.setRow_slots_self] at hrest
      exact hrest

theorem stepsBy_clearing (header : CoordHeader) :
    StepsBy (.manager allocated)
      { s with header := header, manager := .testingDetach }
      { s with
        header := cleared header s.cursor
        manager := .choosing
        cursor := nextSlot s.cursor } := by
  apply stepsBy_serviceStep
  unfold cleared
  cases hdetach : (header.slots s.cursor).detach with
  | false =>
      simp only [serviceStep, hdetach]
      exact ReflTransGen.refl
  | true =>
      have hzeroing := stepsBy_zeroing s allocated rowFields header
      rw [copyFields_row] at hzeroing
      simp only [serviceStep, hdetach, if_true]
      apply stepsBy_serviceStep
      cases hcreated : (header.slots s.cursor).shmCreated with
      | false =>
          simp only [serviceStep, hcreated]
          exact hzeroing
      | true =>
          simp only [serviceStep, hcreated, if_true]
          apply stepsBy_serviceStep
          exact hzeroing

def allocatedHeld : Slot -> Option Reservation :=
  logAllocation s.held s.cursor
    ⟨allocatorOf (s.header.slots s.cursor).type,
      (s.header.slots s.cursor).messageSize,
      (s.header.slots s.cursor).clientId, allocated⟩

/-- Without interference the steps of the manager make up its visit.  Only the
logs of the runs of the allocator may have grown. -/
theorem stepsBy_visitWith (hpc : s.manager = .choosing) :
    exists held, StepsBy (.manager allocated) s
      { s with
        header := visitWith allocated s.header s.cursor
        manager := .choosing
        cursor := nextSlot s.cursor
        held := held } := by
  rw [visitWith_eq]
  unfold serviced
  have hbegin : forall s', StepsBy (.manager allocated)
      { s with manager :=
        .testingReserved (allocatorOf (s.header.slots s.cursor).type) } s' ->
      StepsBy (.manager allocated) s s' := by
    intro s' hrest
    apply stepsBy_serviceStep
    apply stepsBy_serviceStep
    simp only [serviceStep, hpc]
    exact hrest
  cases hreserved : s.header.clientReserved s.cursor with
  | false =>
      refine ⟨s.held, hbegin _ ?_⟩
      apply stepsBy_serviceStep
      simp only [serviceStep, hreserved]
      exact stepsBy_clearing s allocated s.header
  | true =>
      cases hcreated : (s.header.slots s.cursor).shmCreated with
      | true =>
          refine ⟨s.held, hbegin _ ?_⟩
          apply stepsBy_serviceStep
          simp only [serviceStep, hreserved, if_true]
          apply stepsBy_serviceStep
          simp only [serviceStep, hcreated, if_true]
          exact stepsBy_clearing s allocated s.header
      | false =>
          refine ⟨allocatedHeld s allocated, hbegin _ ?_⟩
          apply stepsBy_serviceStep
          simp only [serviceStep, hreserved, if_true]
          apply stepsBy_serviceStep
          simp only [serviceStep, hcreated, Bool.false_eq_true, if_false]
          apply stepsBy_serviceStep
          apply stepsBy_serviceStep
          apply stepsBy_serviceStep
          have hstoring := stepsBy_storing
            { s with held := allocatedHeld s allocated }
            allocated allocated shmFields s.header
          rw [copyFields_shms] at hstoring
          apply ReflTransGen.trans hstoring
          exact stepsBy_clearing { s with held := allocatedHeld s allocated }
            allocated _

end Manager

/-!
# Clients
-/

section Client

variable (s : HandshakeState) (clientId messageSize : Int) (type : QueueType)

@[simp] theorem setClient_setClient (pc pc' : RequestPc) :
    (s.setClient clientId pc).setClient clientId pc' = s.setClient clientId pc' := by
  simp [HandshakeState.setClient]

@[simp] theorem setClient_clients_self (pc : RequestPc) :
    (s.setClient clientId pc).clients clientId = pc :=
  Function.update_self _ _ _

theorem stepsBy_scanning {n : Nat} (hn : n ≤ slotNum)
    (hreserved : forall j : Slot, j.val < n -> s.header.clientReserved j = true) :
    StepsBy (.client clientId)
      (s.setClient clientId (.scanning messageSize type 0))
      (s.setClient clientId (.scanning messageSize type n)) := by
  induction n with
  | zero => exact ReflTransGen.refl
  | succ n ih =>
      have hbefore := ih (by lia) fun j hj => hreserved j (by lia)
      apply StepsBy.tail hbefore
      have hn' : n < slotNum := by lia
      have htaken : (s.setClient clientId
          (.scanning messageSize type n)).header.clientReserved ⟨n, hn'⟩ = true :=
        hreserved ⟨n, hn'⟩ (by simp)
      simp only [handshakeNext, requestStep, setClient_clients_self, dif_pos hn',
        htaken, if_true, setClient_setClient]

theorem stepsBy_writing (slot : Slot) (todo : List RowField) (header : CoordHeader) :
    StepsBy (.client clientId)
      ({ s with header := header }.setClient clientId
        (.writing slot messageSize type todo))
      ({ s with
        header := (header.setRow slot (copyFields
          (requestRow CoordRow.zero clientId messageSize type)
          (header.slots slot) todo)).setReserved slot true
        held := Function.update s.held slot
          (some ⟨clientId, messageSize, type, []⟩) }.setClient clientId
            (.unlocking (some slot))) := by
  induction todo generalizing header with
  | nil =>
      apply ReflTransGen.single
      have hsame : header.setRow slot (copyFields
          (requestRow CoordRow.zero clientId messageSize type)
          (header.slots slot) []) = header :=
        CoordHeader.setRow_eq_self header slot
      rw [hsame]
      simp only [handshakeNext, requestStep, setClient_clients_self]
      simp [HandshakeState.setClient]
  | cons field todo ih =>
      have hrest := ih (header.setRow slot (copyField field
        (requestRow CoordRow.zero clientId messageSize type) (header.slots slot)))
      rw [CoordHeader.setRow_setRow, CoordHeader.setRow_slots_self] at hrest
      refine StepsBy.head ?_ hrest
      simp only [handshakeNext, requestStep, setClient_clients_self]
      simp [HandshakeState.setClient]

def requested : Option Slot -> RequestPc
  | some slot => .holding slot none
  | none => .idle

/-- Without interference the steps of a client make up `request_slot`. -/
theorem stepsBy_request (hpc : s.clients clientId = .locking messageSize type)
    (hmutex : s.mutex = none) :
    exists held, StepsBy (.client clientId) s
      ({ s with
        header := (requestSlot s.header clientId messageSize type).1
        held := held }.setClient clientId
          (requested (requestSlot s.header clientId messageSize type).2)) := by
  have hlock : handshakeNext s (.client clientId) =
      some ({ s with mutex := some clientId }.setClient clientId
        (.scanning messageSize type 0)) := by
    simp only [handshakeNext, requestStep, hpc, hmutex]
  rcases requestSlot_cases s.header clientId messageSize type with
    ⟨i, hfree, hresult⟩ | ⟨hfree, hresult⟩
  · rw [hresult]
    rcases freeSlot_eq_some_iff.mp hfree with ⟨hi, hbefore⟩
    refine ⟨Function.update s.held i (some ⟨clientId, messageSize, type, []⟩), ?_⟩
    apply StepsBy.head hlock
    have hscan := stepsBy_scanning { s with mutex := some clientId } clientId
      messageSize type (Nat.le_of_lt i.isLt) fun j hj => hbefore j hj
    apply ReflTransGen.trans hscan
    have hwriting := stepsBy_writing { s with mutex := some clientId } clientId
      messageSize type i requestFields s.header
    rw [copyFields_request] at hwriting
    refine StepsBy.head ?_ (StepsBy.tail hwriting ?_)
    · simp only [handshakeNext, requestStep, setClient_clients_self]
      simp [HandshakeState.setClient, hi]
    · simp only [handshakeNext, requestStep, setClient_clients_self, requested]
      simp [HandshakeState.setClient, hmutex]
  · rw [hresult]
    refine ⟨s.held, ?_⟩
    have hall : forall j : Slot, s.header.clientReserved j = true := by
      intro j
      simpa using Fin.find?_eq_none_iff.mp hfree j
    apply StepsBy.head hlock
    have hscan := stepsBy_scanning { s with mutex := some clientId } clientId
      messageSize type (Nat.le_refl slotNum) fun j _ => hall j
    apply ReflTransGen.trans hscan
    have hend : handshakeNext ({ s with mutex := some clientId }.setClient clientId
        (.scanning messageSize type slotNum)) (.client clientId) =
          some ({ s with mutex := some clientId }.setClient clientId
            (.unlocking none)) := by
      simp only [handshakeNext, requestStep, setClient_clients_self]
      simp [HandshakeState.setClient]
    refine StepsBy.head hend (ReflTransGen.single ?_)
    · simp only [handshakeNext, requestStep, setClient_clients_self, requested]
      simp [HandshakeState.setClient, hmutex]

theorem stepsBy_copying (slot : Slot) (todo : List RowField) (copy : CoordRow) :
    StepsBy (.client clientId)
      (s.setClient clientId (.copying slot copy todo))
      (s.setClient clientId (.holding slot
        (some (copyFields (s.header.slots slot) copy todo).shms))) := by
  induction todo generalizing copy with
  | nil =>
      apply ReflTransGen.single
      simp only [handshakeNext, requestStep, setClient_clients_self,
        setClient_setClient]
      rfl
  | cons field todo ih =>
      refine StepsBy.head ?_ (ih (copyField field (s.header.slots slot) copy))
      simp only [handshakeNext, requestStep, setClient_clients_self,
        setClient_setClient]
      rfl

theorem stepsBy_check {slot : Slot} {checked : Option ShmPair}
    (hpc : s.clients clientId = .holding slot checked)
    (hcreated : (s.header.slots slot).shmCreated = true) :
    exists s', handshakeNext s (.check clientId) = some s' ∧
      StepsBy (.client clientId) s'
        (s.setClient clientId (.holding slot (some (checkSlot s.header slot)))) := by
  refine ⟨s.setClient clientId (.copying slot CoordRow.zero shmFields), ?_, ?_⟩
  · simp only [handshakeNext, hpc, hcreated, if_true]
  · have hcopying := stepsBy_copying s clientId slot shmFields CoordRow.zero
    rw [copyFields_shms] at hcopying
    unfold checkSlot
    rw [if_pos hcreated]
    exact hcopying

end Client

end Rpc
end Notnets
