import Notnets.Foundation.TransitionSystem
import Notnets.Rpc.ManagePool

/-!
# Clients that open and close

Every client opens, closes and opens again in turn: it closes only after
`client_open` returned, and opens again only after `client_close` returned.
The manager visits the slots in the order of its scan.  `client_close` is
either one step, or a step for each comparison of a row and one for the write
of `detach`.
-/

namespace Notnets
namespace Rpc

open Coord
open Foundation

inductive ClientPhase where
  /-- No connection; an open may be waiting for a free slot. -/
  | closed
  /-- `client_open` waits for `shm_created` of the slot it reserved. -/
  | opening (slot : Slot)
  | opened (slot : Slot)
  /-- `client_close` is about to compare this row. -/
  | comparing (slot : Slot) (row : Nat)
  /-- `client_close` has matched this row and is about to write `detach`. -/
  | matched (slot : Slot) (row : Slot)
deriving DecidableEq, Repr

structure PoolState where
  header : CoordHeader
  /-- The slot that the manager visits next. -/
  cursor : Slot
  clients : Int -> ClientPhase

inductive PoolLabel where
  | request (clientId messageSize : Int) (type : QueueType)
  /-- `client_open` sees `shm_created` and returns. -/
  | opened (clientId : Int)
  /-- `client_close` as one step. -/
  | close (clientId : Int)
  | closeBegin (clientId : Int)
  | closeCompare (clientId : Int)
  | closeWrite (clientId : Int)
  /-- The manager's visit; the pair is what its allocator returns, if it runs. -/
  | visit (allocated : ShmPair)
deriving DecidableEq, Repr

def PoolLabel.isVisit : PoolLabel -> Bool
  | .visit _ => true
  | _ => false

def PoolState.setClient (s : PoolState) (clientId : Int) (phase : ClientPhase) :
    PoolState :=
  { s with clients := Function.update s.clients clientId phase }

def nextSlot (slot : Slot) : Slot :=
  ⟨(slot.val + 1) % slotNum, Nat.mod_lt _ (by decide)⟩

def poolNext (s : PoolState) : PoolLabel -> Option PoolState
  | .request clientId messageSize type =>
      match s.clients clientId with
      | .closed =>
          let result := requestSlot s.header clientId messageSize type
          match result.2 with
          | some i =>
              some ({ s with header := result.1 }.setClient clientId (.opening i))
          | none => some s
      | _ => none
  | .opened clientId =>
      match s.clients clientId with
      | .opening i =>
          if (s.header.slots i).shmCreated then
            some (s.setClient clientId (.opened i))
          else
            none
      | _ => none
  | .close clientId =>
      match s.clients clientId with
      | .opened _ =>
          let result := clientClose s.header clientId
          if result.2 = 0 then
            some ({ s with header := result.1 }.setClient clientId .closed)
          else
            some s
      | _ => none
  | .closeBegin clientId =>
      match s.clients clientId with
      | .opened i => some (s.setClient clientId (.comparing i 0))
      | _ => none
  | .closeCompare clientId =>
      match s.clients clientId with
      | .comparing i row =>
          if hrow : row < slotNum then
            if (s.header.slots ⟨row, hrow⟩).clientId = clientId then
              some (s.setClient clientId (.matched i ⟨row, hrow⟩))
            else
              some (s.setClient clientId (.comparing i (row + 1)))
          else
            some (s.setClient clientId (.opened i))
      | _ => none
  | .closeWrite clientId =>
      match s.clients clientId with
      | .matched _ row =>
          some ({ s with header := markDetach s.header row }.setClient clientId .closed)
      | _ => none
  | .visit allocated =>
      some { s with
        header := visitWith allocated s.header s.cursor
        cursor := nextSlot s.cursor }

def poolStart : PoolState where
  header := CoordHeader.zero
  cursor := firstSlot
  clients := fun _ => .closed

def poolSystem : TransitionSystem PoolState PoolLabel where
  Initial s := s = poolStart
  next := poolNext

/-- What an allocator returns for the client id 5 in a fresh
system. -/
def pairOfFive : ShmPair where
  requestShm := ⟨5, 0⟩
  responseShm := ⟨6, 1⟩
  offset := 0

/-!
# What one label does
-/

@[simp] theorem setClient_header (s : PoolState) (clientId : Int)
    (phase : ClientPhase) : (s.setClient clientId phase).header = s.header := rfl

@[simp] theorem setClient_self (s : PoolState) (clientId : Int)
    (phase : ClientPhase) : (s.setClient clientId phase).clients clientId = phase :=
  Function.update_self _ _ _

@[simp] theorem setClient_of_ne (s : PoolState) {clientId other : Int}
    (phase : ClientPhase) (hne : other ≠ clientId) :
    (s.setClient clientId phase).clients other = s.clients other :=
  Function.update_of_ne hne _ _

theorem poolNext_request {s s' : PoolState} {clientId messageSize : Int}
    {type : QueueType}
    (h : poolNext s (.request clientId messageSize type) = some s') :
    s.clients clientId = .closed ∧
      ((exists i, freeSlot s.header = some i ∧
        s' = { s with header := (s.header.setRow i (requestRow (s.header.slots i)
          clientId messageSize type)).setReserved i true }.setClient
            clientId (.opening i)) ∨
        (freeSlot s.header = none ∧ s' = s)) := by
  simp only [poolNext] at h
  split at h
  · rename_i hphase
    constructor
    · exact hphase
    · rcases requestSlot_cases s.header clientId messageSize type with
        ⟨i, hfree, hresult⟩ | ⟨hfree, hresult⟩
      · simp only [hresult] at h
        injection h with h
        exact Or.inl ⟨i, hfree, h.symm⟩
      · simp only [hresult] at h
        injection h with h
        exact Or.inr ⟨hfree, h.symm⟩
  · cases h

theorem poolNext_opened {s s' : PoolState} {clientId : Int}
    (h : poolNext s (.opened clientId) = some s') :
    exists i, s.clients clientId = .opening i ∧
      (s.header.slots i).shmCreated = true ∧
        s' = s.setClient clientId (.opened i) := by
  simp only [poolNext] at h
  split at h
  · rename_i i hphase
    split at h
    · rename_i hcreated
      cases h
      exact ⟨i, hphase, hcreated, rfl⟩
    · cases h
  · cases h

theorem poolNext_close {s s' : PoolState} {clientId : Int}
    (h : poolNext s (.close clientId) = some s') :
    exists i, s.clients clientId = .opened i ∧
      ((exists j, matchingRow s.header clientId = some j ∧
        s' = { s with header := markDetach s.header j }.setClient clientId .closed) ∨
        (matchingRow s.header clientId = none ∧ s' = s)) := by
  simp only [poolNext] at h
  split at h
  · rename_i i hphase
    refine ⟨i, hphase, ?_⟩
    rcases clientClose_cases s.header clientId with
      ⟨j, hmatch, hresult⟩ | ⟨hmatch, hresult⟩
    · simp only [hresult, if_true] at h
      injection h with h
      exact Or.inl ⟨j, hmatch, h.symm⟩
    · simp only [hresult] at h
      injection h with h
      exact Or.inr ⟨hmatch, h.symm⟩
  · cases h

theorem poolNext_closeBegin {s s' : PoolState} {clientId : Int}
    (h : poolNext s (.closeBegin clientId) = some s') :
    exists i, s' = s.setClient clientId (.comparing i 0) := by
  simp only [poolNext] at h
  split at h
  · rename_i i hphase
    injection h with h
    exact ⟨i, h.symm⟩
  · cases h

theorem poolNext_closeCompare {s s' : PoolState} {clientId : Int}
    (h : poolNext s (.closeCompare clientId) = some s') :
    (exists i row, (s.header.slots row).clientId = clientId ∧
      s' = s.setClient clientId (.matched i row)) ∨
    (exists phase, (forall i row, phase ≠ .matched i row) ∧
      s' = s.setClient clientId phase) := by
  simp only [poolNext] at h
  split at h
  · rename_i i row hphase
    split at h
    · rename_i hrow
      split at h
      · rename_i hid
        injection h with h
        exact Or.inl ⟨i, ⟨row, hrow⟩, hid, h.symm⟩
      · injection h with h
        exact Or.inr ⟨.comparing i (row + 1), nofun, h.symm⟩
    · injection h with h
      exact Or.inr ⟨.opened i, nofun, h.symm⟩
  · cases h

theorem poolNext_closeWrite {s s' : PoolState} {clientId : Int}
    (h : poolNext s (.closeWrite clientId) = some s') :
    exists i row, s.clients clientId = .matched i row ∧
      s' = { s with header := markDetach s.header row }.setClient
        clientId .closed := by
  simp only [poolNext] at h
  split at h
  · rename_i i row hphase
    injection h with h
    exact ⟨i, row, hphase, h.symm⟩
  · cases h

theorem poolNext_visit {s s' : PoolState} {allocated : ShmPair}
    (h : poolNext s (.visit allocated) = some s') :
    s' = { s with
      header := visitWith allocated s.header s.cursor
      cursor := nextSlot s.cursor } := by
  simp only [poolNext] at h
  injection h with h
  exact h.symm

theorem poolNext_cursor {s s' : PoolState} {l : PoolLabel} (hl : l.isVisit = false)
    (h : poolNext s l = some s') : s'.cursor = s.cursor := by
  cases l with
  | request clientId messageSize type =>
      rcases poolNext_request h with ⟨_, ⟨_, _, rfl⟩ | ⟨_, rfl⟩⟩
      · rfl
      · rfl
  | opened clientId =>
      rcases poolNext_opened h with ⟨_, _, _, rfl⟩
      rfl
  | close clientId =>
      rcases poolNext_close h with ⟨_, _, ⟨_, _, rfl⟩ | ⟨_, rfl⟩⟩
      · rfl
      · rfl
  | closeBegin clientId =>
      rcases poolNext_closeBegin h with ⟨_, rfl⟩
      rfl
  | closeCompare clientId =>
      rcases poolNext_closeCompare h with ⟨_, _, _, rfl⟩ | ⟨_, _, rfl⟩
      · rfl
      · rfl
  | closeWrite clientId =>
      rcases poolNext_closeWrite h with ⟨_, _, _, rfl⟩
      rfl
  | visit allocated => cases hl

/-!
# Rows under the operations
-/

theorem markDetach_clientReserved (header : CoordHeader) (slot : Slot) :
    (markDetach header slot).clientReserved = header.clientReserved := rfl

theorem markDetach_clientId (header : CoordHeader) (slot i : Slot) :
    ((markDetach header slot).slots i).clientId = (header.slots i).clientId := by
  unfold markDetach
  by_cases hi : i = slot
  · subst hi
    rw [CoordHeader.setRow_slots_self]
  · rw [CoordHeader.setRow_slots_of_ne _ _ _ hi]

theorem markDetach_shmCreated (header : CoordHeader) (slot i : Slot) :
    ((markDetach header slot).slots i).shmCreated =
      (header.slots i).shmCreated := by
  unfold markDetach
  by_cases hi : i = slot
  · subst hi
    rw [CoordHeader.setRow_slots_self]
  · rw [CoordHeader.setRow_slots_of_ne _ _ _ hi]

theorem markDetach_type (header : CoordHeader) (slot i : Slot) :
    ((markDetach header slot).slots i).type = (header.slots i).type := by
  unfold markDetach
  by_cases hi : i = slot
  · subst hi
    rw [CoordHeader.setRow_slots_self]
  · rw [CoordHeader.setRow_slots_of_ne _ _ _ hi]

theorem markDetach_detach_self (header : CoordHeader) (slot : Slot) :
    ((markDetach header slot).slots slot).detach = true := by
  unfold markDetach
  rw [CoordHeader.setRow_slots_self]

theorem markDetach_of_ne (header : CoordHeader) {slot i : Slot} (hne : i ≠ slot) :
    (markDetach header slot).slots i = header.slots i :=
  CoordHeader.setRow_slots_of_ne _ _ _ hne

/-- A row that a visit leaves reserved keeps its client and its mark. -/
theorem visitWith_reserved (allocated : ShmPair) (header : CoordHeader)
    {slot i : Slot}
    (h : (visitWith allocated header slot).clientReserved i = true) :
    header.clientReserved i = true ∧
      ((visitWith allocated header slot).slots i).clientId =
        (header.slots i).clientId ∧
      ((visitWith allocated header slot).slots i).detach =
        (header.slots i).detach := by
  by_cases hi : i = slot
  · subst hi
    cases hdetach : (header.slots i).detach with
    | true =>
        rw [(visitWith_detach allocated header hdetach).right] at h
        cases h
    | false =>
        rw [visitWith_keep allocated header hdetach] at h ⊢
        rw [serviced_clientReserved] at h
        rcases serviced_self allocated header i with ⟨shms, shmCreated, hrow⟩
        rw [hrow]
        exact ⟨h, rfl, hdetach⟩
  · rcases visitWith_other allocated header hi with ⟨hrow, hreserved⟩
    rw [hrow]
    rw [hreserved] at h
    exact ⟨h, rfl, rfl⟩

theorem visitWith_unmarked (allocated : ShmPair) (header : CoordHeader)
    {slot i : Slot} (hreserved : header.clientReserved i = true)
    (hdetach : (header.slots i).detach = false) :
    (visitWith allocated header slot).clientReserved i = true := by
  by_cases hi : i = slot
  · subst hi
    rw [visitWith_keep allocated header hdetach, serviced_clientReserved]
    exact hreserved
  · rw [(visitWith_other allocated header hi).right]
    exact hreserved

theorem visitWith_serviced (allocated : ShmPair) (header : CoordHeader)
    {slot i : Slot} (hcreated : (header.slots i).shmCreated = true)
    (hdetach : i = slot -> (header.slots i).detach = false) :
    (visitWith allocated header slot).slots i = header.slots i ∧
      (visitWith allocated header slot).clientReserved i =
        header.clientReserved i := by
  by_cases hi : i = slot
  · subst hi
    rw [visitWith_keep allocated header (hdetach rfl)]
    unfold serviced
    rw [if_neg (by simp [hcreated])]
    exact ⟨rfl, rfl⟩
  · exact visitWith_other allocated header hi

end Rpc
end Notnets
