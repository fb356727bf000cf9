import Notnets.Coord.Table

/-!
# The manager's visit to a slot

`manage_pool` visits the slots in order.  One visit services the slot with the
allocator of its queue type, cleans up the resources of its queues, and clears
it if its client asked for that.
-/

namespace Notnets
namespace Rpc

open Coord

universe u

/-- What a visit does outside of the coordination table. -/
structure PoolOps (m : Type -> Type u) where
  hashShmAllocator : Int -> Int -> m ShmPair
  boostShmAllocator : Int -> Int -> m ShmPair
  hashSemShmAllocator : Int -> Int -> m ShmPair
  destroySemaphores : ShmPair -> m Unit
  shmRemove : Int -> m Int

/-- The three allocators of `manage_pool`. -/
inductive Allocator where
  | hash
  | boost
  | sem
deriving DecidableEq, Repr

/-- The allocator that `manage_pool` picks for a queue type. -/
def allocatorOf : QueueType -> Allocator
  | .poll => .hash
  | .boost => .boost
  | .sem => .sem
  | .other => .hash

section Visit

variable {m : Type -> Type u} [Monad m]

def PoolOps.run (ops : PoolOps m) : Allocator -> Int -> Int -> m ShmPair
  | .hash => ops.hashShmAllocator
  | .boost => ops.boostShmAllocator
  | .sem => ops.hashSemShmAllocator

def cleanUpQueueResources (ops : PoolOps m) (header : CoordHeader) (slot : Slot) :
    m Unit :=
  if header.clientReserved slot then
    if (header.slots slot).detach then
      match (header.slots slot).type with
      | .poll => pure ()
      | .boost => pure ()
      | .sem => ops.destroySemaphores (header.slots slot).shms
      | .other => pure ()
    else pure ()
  else pure ()

/-- The body of the loop of `manage_pool`. -/
def managePoolVisit (ops : PoolOps m) (header : CoordHeader) (slot : Slot) :
    m CoordHeader := do
  let serviced <- serviceSlot header slot
    (ops.run (allocatorOf (header.slots slot).type))
  cleanUpQueueResources ops serviced.1 slot
  clearSlot ops.shmRemove serviced.1 slot

def managePool (ops : PoolOps m) (header : CoordHeader) : m CoordHeader :=
  (List.finRange slotNum).foldlM (managePoolVisit ops) header

end Visit

/-!
# client_close
-/

def matchingRow (header : CoordHeader) (clientId : Int) : Option Slot :=
  Fin.find? fun i => (header.slots i).clientId == clientId

/-- `slots[slot].detach = true`. -/
def markDetach (header : CoordHeader) (slot : Slot) : CoordHeader :=
  header.setRow slot { header.slots slot with detach := true }

def clientClose (header : CoordHeader) (clientId : Int) : CoordHeader × Int :=
  match matchingRow header clientId with
  | some i => (markDetach header i, 0)
  | none => (header, -1)

theorem clientClose_cases (header : CoordHeader) (clientId : Int) :
    (exists i, matchingRow header clientId = some i ∧
      clientClose header clientId = (markDetach header i, 0)) ∨
    (matchingRow header clientId = none ∧
      clientClose header clientId = (header, -1)) := by
  unfold clientClose
  cases hmatch : matchingRow header clientId with
  | some i => exact Or.inl ⟨i, rfl, rfl⟩
  | none => exact Or.inr ⟨rfl, rfl⟩

theorem matchingRow_eq_some_iff {header : CoordHeader} {clientId : Int}
    {i : Slot} :
    matchingRow header clientId = some i <->
      (header.slots i).clientId = clientId ∧
        forall j, j < i -> (header.slots j).clientId ≠ clientId := by
  unfold matchingRow
  rw [Fin.find?_eq_some_iff]
  simp

/-!
# The visit as a change of the table

Whatever the allocator returns, a visit acts on the table alone as follows.
-/

def tableOps (allocated : ShmPair) : PoolOps Id where
  hashShmAllocator := fun _ _ => pure allocated
  boostShmAllocator := fun _ _ => pure allocated
  hashSemShmAllocator := fun _ _ => pure allocated
  destroySemaphores := fun _ => pure ()
  shmRemove := fun _ => pure 0

def visitWith (allocated : ShmPair) (header : CoordHeader) (slot : Slot) :
    CoordHeader :=
  Id.run (managePoolVisit (tableOps allocated) header slot)

def serviced (allocated : ShmPair) (header : CoordHeader) (slot : Slot) :
    CoordHeader :=
  if header.clientReserved slot && !(header.slots slot).shmCreated then
    header.setRow slot
      { header.slots slot with shms := allocated, shmCreated := true }
  else
    header

def cleared (header : CoordHeader) (slot : Slot) : CoordHeader :=
  if (header.slots slot).detach then
    (header.setRow slot CoordRow.zero).setReserved slot false
  else
    header

theorem visitWith_eq (allocated : ShmPair) (header : CoordHeader) (slot : Slot) :
    visitWith allocated header slot = cleared (serviced allocated header slot) slot := by
  have hservice : forall allocator : Allocator,
      (Id.run (serviceSlot header slot ((tableOps allocated).run allocator))).1 =
        serviced allocated header slot := by
    intro allocator
    unfold serviceSlot serviced
    cases allocator with
    | hash => split <;> rfl
    | boost => split <;> rfl
    | sem => split <;> rfl
  have hclear : forall table : CoordHeader,
      Id.run (clearSlot (tableOps allocated).shmRemove table slot) =
        cleared table slot := by
    intro table
    unfold clearSlot forceClearSlot cleared
    split
    · split <;> rfl
    · rfl
  rw [← hservice (allocatorOf (header.slots slot).type), ← hclear]
  rfl

variable (allocated : ShmPair) (header : CoordHeader)

@[simp] theorem serviced_clientReserved (slot : Slot) :
    (serviced allocated header slot).clientReserved = header.clientReserved := by
  unfold serviced
  split
  · rfl
  · rfl

theorem serviced_other {slot other : Slot} (hne : other ≠ slot) :
    (serviced allocated header slot).slots other = header.slots other := by
  unfold serviced
  split
  · exact CoordHeader.setRow_slots_of_ne _ _ _ hne
  · rfl

theorem serviced_self (slot : Slot) :
    exists shms shmCreated, (serviced allocated header slot).slots slot =
      { header.slots slot with shms := shms, shmCreated := shmCreated } := by
  unfold serviced
  split
  · exact ⟨allocated, true, CoordHeader.setRow_slots_self _ _ _⟩
  · exact ⟨(header.slots slot).shms, (header.slots slot).shmCreated, rfl⟩

theorem visitWith_other {slot other : Slot} (hne : other ≠ slot) :
    (visitWith allocated header slot).slots other = header.slots other ∧
      (visitWith allocated header slot).clientReserved other =
        header.clientReserved other := by
  rw [visitWith_eq]
  unfold cleared
  split
  · rw [CoordHeader.setReserved_slots, CoordHeader.setRow_slots_of_ne _ _ _ hne,
      CoordHeader.setReserved_clientReserved_of_ne _ _ _ hne,
      CoordHeader.setRow_clientReserved, serviced_other _ _ hne,
      serviced_clientReserved]
    exact ⟨rfl, rfl⟩
  · rw [serviced_other _ _ hne, serviced_clientReserved]
    exact ⟨rfl, rfl⟩

theorem visitWith_detach {slot : Slot} (hdetach : (header.slots slot).detach = true) :
    (visitWith allocated header slot).slots slot = CoordRow.zero ∧
      (visitWith allocated header slot).clientReserved slot = false := by
  rcases serviced_self allocated header slot with ⟨shms, shmCreated, hrow⟩
  rw [visitWith_eq]
  unfold cleared
  rw [if_pos (by rw [hrow]; exact hdetach)]
  rw [CoordHeader.setReserved_slots, CoordHeader.setRow_slots_self,
    CoordHeader.setReserved_clientReserved_self]
  exact ⟨rfl, rfl⟩

theorem visitWith_keep {slot : Slot} (hdetach : (header.slots slot).detach = false) :
    visitWith allocated header slot = serviced allocated header slot := by
  rcases serviced_self allocated header slot with ⟨shms, shmCreated, hrow⟩
  rw [visitWith_eq]
  unfold cleared
  rw [if_neg (by rw [hrow]; simp [hdetach])]

theorem visitWith_shmid (slot : Slot) :
    (visitWith allocated header slot).shmid = header.shmid := by
  have hserviced : (serviced allocated header slot).shmid = header.shmid := by
    unfold serviced
    split
    · rfl
    · rfl
  rw [visitWith_eq, ← hserviced]
  unfold cleared
  split
  · rfl
  · rfl

end Rpc
end Notnets
