import Notnets.Rpc.Client

/-!
# The queue type of a row and the allocator of its queues

`manage_pool` reads the type of a row to pick the allocator, and only then does
`service_slot` test whether the slot is reserved.  A request may reserve the slot
in between, and is then serviced with an allocator that was picked from what the
row held before.
-/

namespace Notnets
namespace Rpc

open Coord
open Foundation

inductive VisitPc where
  /-- About to read the type of the row. -/
  | choosing (slot : Slot)
  /-- In `service_slot`, about to test `client_reserved`. -/
  | testing (slot : Slot) (allocator : Allocator)
  /-- About to test `shm_created`. -/
  | testingCreated (slot : Slot) (allocator : Allocator)
  | allocating (slot : Slot) (allocator : Allocator)
  /-- About to write the pair into the row. -/
  | publishing (slot : Slot) (allocator : Allocator) (shms : ShmPair)
  /-- About to store `shm_created`. -/
  | marking (slot : Slot)
  /-- About to clean up and clear. -/
  | clearing (slot : Slot)
deriving DecidableEq, Repr

structure VisitState where
  header : CoordHeader
  manager : VisitPc
  /-- The allocator that made the pair in a row; no step reads it. -/
  built : Slot -> Allocator

inductive VisitLabel where
  | request (clientId messageSize : Int) (type : QueueType)
  | close (clientId : Int)
  /-- The manager's next step; the pair is what the allocator returns in it. -/
  | manager (allocated : ShmPair)
deriving DecidableEq, Repr

def visitStep (s : VisitState) (allocated : ShmPair) : VisitState :=
  match s.manager with
  | .choosing slot =>
      { s with manager := .testing slot (allocatorOf (s.header.slots slot).type) }
  | .testing slot allocator =>
      if s.header.clientReserved slot then
        { s with manager := .testingCreated slot allocator }
      else
        { s with manager := .clearing slot }
  | .testingCreated slot allocator =>
      if (s.header.slots slot).shmCreated then
        { s with manager := .clearing slot }
      else
        { s with manager := .allocating slot allocator }
  | .allocating slot allocator =>
      { s with manager := .publishing slot allocator allocated }
  | .publishing slot allocator shms =>
      { header := s.header.setRow slot { s.header.slots slot with shms := shms }
        manager := .marking slot
        built := Function.update s.built slot allocator }
  | .marking slot =>
      { s with
        header := s.header.setRow slot { s.header.slots slot with shmCreated := true }
        manager := .clearing slot }
  | .clearing slot =>
      { s with
        header := cleared s.header slot
        manager := .choosing (nextSlot slot) }

def visitNext (s : VisitState) : VisitLabel -> VisitState
  | .request clientId messageSize type =>
      { s with header := (requestSlot s.header clientId messageSize type).1 }
  | .close clientId => { s with header := (clientClose s.header clientId).1 }
  | .manager allocated => visitStep s allocated

def visitStart : VisitState where
  header := CoordHeader.zero
  manager := .choosing firstSlot
  built := fun _ => .hash

def visitSystem : TransitionSystem VisitState VisitLabel where
  Initial s := s = visitStart
  next s l := some (visitNext s l)

/-!
# The small steps make up a visit
-/

def visitSteps (allocated : ShmPair) : Nat -> VisitState -> VisitState
  | 0, s => s
  | n + 1, s => visitSteps allocated n (visitStep s allocated)

/-- Without interference the steps change the table as the visit does. -/
theorem visitSteps_visitWith (allocated : ShmPair) (header : CoordHeader)
    (built : Slot -> Allocator) (slot : Slot) :
    exists n built', visitSteps allocated n ⟨header, .choosing slot, built⟩ =
      ⟨visitWith allocated header slot, .choosing (nextSlot slot), built'⟩ := by
  rw [visitWith_eq]
  unfold serviced
  cases hreserved : header.clientReserved slot with
  | false =>
      refine ⟨3, built, ?_⟩
      simp [visitSteps, visitStep, hreserved]
  | true =>
      cases hcreated : (header.slots slot).shmCreated with
      | true =>
          refine ⟨4, built, ?_⟩
          simp [visitSteps, visitStep, hreserved, hcreated]
      | false =>
          refine ⟨7, Function.update built slot
            (allocatorOf (header.slots slot).type), ?_⟩
          simp [visitSteps, visitStep, hreserved, hcreated, CoordHeader.setRow]

/-!
# Agreement
-/

/-- The queues of a serviced slot are of the type in its row. -/
def TypesAgree (s : VisitState) : Prop :=
  forall slot, s.header.clientReserved slot = true ->
    (s.header.slots slot).shmCreated = true ->
    s.built slot = allocatorOf (s.header.slots slot).type

/-- A request that reserves the slot for which the manager has just picked an
allocator is for a type of that allocator. -/
def RequestsAgree (s : VisitState) : VisitLabel -> Prop
  | .request _ _ type =>
      forall slot allocator, s.manager = .testing slot allocator ->
        freeSlot s.header = some slot -> allocatorOf type = allocator
  | _ => True

def ManagerAgrees (s : VisitState) : VisitPc -> Prop
  | .choosing _ => True
  | .testing slot allocator =>
      s.header.clientReserved slot = true ->
        allocatorOf (s.header.slots slot).type = allocator
  | .testingCreated slot allocator =>
      s.header.clientReserved slot = true ∧
        allocatorOf (s.header.slots slot).type = allocator
  | .allocating slot allocator | .publishing slot allocator _ =>
      s.header.clientReserved slot = true ∧
        (s.header.slots slot).shmCreated = false ∧
        allocatorOf (s.header.slots slot).type = allocator
  | .marking slot =>
      s.header.clientReserved slot = true ∧
        s.built slot = allocatorOf (s.header.slots slot).type
  | .clearing _ => True

structure VisitInvariant (s : VisitState) : Prop where
  agree : TypesAgree s
  manager : ManagerAgrees s s.manager

theorem visitStep_invariant {s : VisitState} (hs : VisitInvariant s)
    (allocated : ShmPair) : VisitInvariant (visitStep s allocated) := by
  have hmanager := hs.manager
  cases hpc : s.manager with
  | choosing slot =>
      simp only [visitStep, hpc]
      exact ⟨hs.agree, fun _ => rfl⟩
  | testing slot allocator =>
      rw [hpc] at hmanager
      simp only [visitStep, hpc]
      split
      · rename_i hreserved
        exact ⟨hs.agree, hreserved, hmanager hreserved⟩
      · exact ⟨hs.agree, trivial⟩
  | testingCreated slot allocator =>
      rw [hpc] at hmanager
      simp only [visitStep, hpc]
      split
      · exact ⟨hs.agree, trivial⟩
      · rename_i hcreated
        exact ⟨hs.agree, hmanager.left, by simpa using hcreated, hmanager.right⟩
  | allocating slot allocator =>
      rw [hpc] at hmanager
      simp only [visitStep, hpc]
      exact ⟨hs.agree, hmanager⟩
  | publishing slot allocator shms =>
      rw [hpc] at hmanager
      rcases hmanager with ⟨hreserved, hcreated, htype⟩
      simp only [visitStep, hpc]
      constructor
      · intro other hother hserviced
        by_cases hslot : other = slot
        · subst hslot
          rw [CoordHeader.setRow_slots_self] at hserviced
          rw [hcreated] at hserviced
          cases hserviced
        · rw [CoordHeader.setRow_slots_of_ne _ _ _ hslot] at hserviced ⊢
          show Function.update s.built slot allocator other = _
          rw [Function.update_of_ne hslot]
          exact hs.agree other hother hserviced
      · constructor
        · exact hreserved
        · show Function.update s.built slot allocator slot = _
          rw [CoordHeader.setRow_slots_self, Function.update_self]
          exact htype.symm
  | marking slot =>
      rw [hpc] at hmanager
      rcases hmanager with ⟨_, hbuilt⟩
      simp only [visitStep, hpc]
      constructor
      · intro other hother hserviced
        by_cases hslot : other = slot
        · subst hslot
          rw [CoordHeader.setRow_slots_self]
          exact hbuilt
        · rw [CoordHeader.setRow_slots_of_ne _ _ _ hslot] at hserviced ⊢
          exact hs.agree other hother hserviced
      · trivial
  | clearing slot =>
      simp only [visitStep, hpc]
      constructor
      · intro other hother hserviced
        unfold cleared at hother hserviced ⊢
        split at hother
        · rename_i hdetach
          rw [if_pos hdetach] at hserviced ⊢
          by_cases hslot : other = slot
          · subst hslot
            rw [CoordHeader.setReserved_clientReserved_self] at hother
            cases hother
          · rw [CoordHeader.setReserved_slots,
              CoordHeader.setRow_slots_of_ne _ _ _ hslot] at hserviced ⊢
            rw [CoordHeader.setReserved_clientReserved_of_ne _ _ _ hslot] at hother
            exact hs.agree other hother hserviced
        · rename_i hdetach
          rw [if_neg hdetach] at hserviced ⊢
          exact hs.agree other hother hserviced
      · trivial

theorem request_agrees {s : VisitState} (hs : VisitInvariant s)
    (clientId messageSize : Int) (type : QueueType)
    (hguard : RequestsAgree s (.request clientId messageSize type)) :
    VisitInvariant
      { s with header := (requestSlot s.header clientId messageSize type).1 } := by
  rcases requestSlot_cases s.header clientId messageSize type with
    ⟨i, hfree, hresult⟩ | ⟨_, hresult⟩
  · rw [hresult]
    have hunreserved := (freeSlot_eq_some_iff.mp hfree).left
    have hne : forall slot, s.header.clientReserved slot = true -> slot ≠ i := by
      intro slot hreserved heq
      rw [heq, hunreserved] at hreserved
      cases hreserved
    constructor
    · intro slot hreserved hcreated
      by_cases hslot : slot = i
      · subst hslot
        simp [requestRow] at hcreated
      · simp only [CoordHeader.setReserved_slots,
          CoordHeader.setRow_slots_of_ne _ _ _ hslot] at hcreated ⊢
        exact hs.agree slot (by simpa [hslot] using hreserved) hcreated
    · have hmanager := hs.manager
      show ManagerAgrees _ s.manager
      cases hpc : s.manager with
      | choosing slot => trivial
      | testing slot allocator =>
          rw [hpc] at hmanager
          intro hreserved
          by_cases hslot : slot = i
          · subst hslot
            simpa [requestRow] using hguard slot allocator hpc hfree
          · simp only [CoordHeader.setReserved_slots,
              CoordHeader.setRow_slots_of_ne _ _ _ hslot]
            exact hmanager (by simpa [hslot] using hreserved)
      | testingCreated slot allocator =>
          rw [hpc] at hmanager
          simpa [ManagerAgrees, hne slot hmanager.left] using hmanager
      | allocating slot allocator =>
          rw [hpc] at hmanager
          simpa [ManagerAgrees, hne slot hmanager.left] using hmanager
      | publishing slot allocator shms =>
          rw [hpc] at hmanager
          simpa [ManagerAgrees, hne slot hmanager.left] using hmanager
      | marking slot =>
          rw [hpc] at hmanager
          simpa [ManagerAgrees, hne slot hmanager.left] using hmanager
      | clearing slot => trivial
  · rw [hresult]
    exact hs

theorem clientClose_agrees {s : VisitState} (hs : VisitInvariant s)
    (clientId : Int) :
    VisitInvariant { s with header := (clientClose s.header clientId).1 } := by
  rcases clientClose_cases s.header clientId with ⟨i, _, hresult⟩ | ⟨_, hresult⟩
  · rw [hresult]
    have hmanager := hs.manager
    constructor
    · intro slot hreserved hcreated
      rw [markDetach_type]
      rw [markDetach_shmCreated] at hcreated
      exact hs.agree slot hreserved hcreated
    · show ManagerAgrees _ s.manager
      cases hpc : s.manager with
      | choosing slot => trivial
      | clearing slot => trivial
      | _ =>
          rw [hpc] at hmanager
          simpa only [ManagerAgrees, markDetach_type, markDetach_shmCreated,
            markDetach_clientReserved] using hmanager
  · rw [hresult]
    exact hs

theorem visitNext_invariant {s : VisitState} {l : VisitLabel}
    (hs : VisitInvariant s) (hguard : RequestsAgree s l) :
    VisitInvariant (visitNext s l) := by
  cases l with
  | request clientId messageSize type =>
      exact request_agrees hs clientId messageSize type hguard
  | close clientId => exact clientClose_agrees hs clientId
  | manager allocated => exact visitStep_invariant hs allocated

/--
As long as no request reserves the slot for which the manager has just picked
another allocator, every serviced slot has queues of the type in its row.
-/
theorem queue_types_agree {s : VisitState}
    (hs : visitSystem.ReachableUnder RequestsAgree s) : TypesAgree s := by
  have hinv : VisitInvariant s := by
    refine TransitionSystem.reachableUnder_invariant ?_ ?_ hs
    · intro start hstart
      rw [show start = visitStart from hstart]
      constructor
      · intro slot hreserved
        cases hreserved
      · trivial
    · intro t l t' ht hguard hnext
      rw [← Option.some.inj hnext]
      exact visitNext_invariant ht hguard
  exact hinv.agree

def semRequestLabels : List VisitLabel :=
  .request 5 64 .sem :: List.replicate 6 (.manager pairOfFive)

theorem queue_types_agree_semRequest :
    exists s : VisitState, s.built ⟨0, by decide⟩ = .sem ∧ TypesAgree s := by
  let early : VisitState -> VisitLabel -> Bool := fun s l =>
    match l, s.manager with
    | .request _ _ _, .testing _ _ => false
    | _, _ => true
  have hcheck : forall s l, early s l = true -> RequestsAgree s l := by
    intro s l hearly
    cases l with
    | request clientId messageSize type =>
        intro slot allocator hpc
        simp [early, hpc] at hearly
    | _ => trivial
  have hbuilt : ((visitSystem.executeChecked early visitStart
      semRequestLabels).map fun s => s.built ⟨0, by decide⟩) = some .sem := by
    decide +kernel
  rcases Option.map_eq_some_iff.mp hbuilt with ⟨s, hexec, hs⟩
  exact ⟨s, hs, queue_types_agree
    (TransitionSystem.reachableUnder_of_executeChecked hcheck rfl hexec)⟩

/-- The manager picks the allocator of the zeroed row, and the request for a SEM
queue arrives before `service_slot` tests the slot. -/
def lateRequestLabels : List VisitLabel :=
  .manager pairOfFive :: .request 5 64 .sem ::
    List.replicate 5 (.manager pairOfFive)

theorem queue_types_disagree :
    ¬ forall s : VisitState, visitSystem.Reachable s -> TypesAgree s := by
  intro hclaim
  let slot : Slot := ⟨0, by decide⟩
  have hwrong : ((visitSystem.execute visitStart lateRequestLabels).map fun s =>
      (s.header.clientReserved slot, (s.header.slots slot).shmCreated,
        s.built slot, (s.header.slots slot).type)) =
      some (true, true, .hash, .sem) := by
    decide +kernel
  rcases Option.map_eq_some_iff.mp hwrong with ⟨s, hexec, hs⟩
  injection hs with hreserved hs
  injection hs with hcreated hs
  injection hs with hbuilt htype
  have hreach : visitSystem.Reachable s :=
    TransitionSystem.reachableUnder_of_execute rfl hexec (fun _ _ => trivial)
  have hagree := hclaim s hreach slot hreserved hcreated
  rw [hbuilt, htype] at hagree
  cases hagree

end Rpc
end Notnets
