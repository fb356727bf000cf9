import Notnets.Rpc.Shutdown

/-!
# The manager thread and its end

`register_server` starts a thread for the manager, and `shutdown` stops it: it
stores `RUNNING_SHUTDOWN` and tests until the thread has stored `NOT_RUNNING`.
Only `shutdown` takes `manage_pool_mutex`.  Every load, store and mutex operation
on `manage_pool_state` is a step of its own, and so are the visits of
`manage_pool` and the steps of the clients.
-/

namespace Notnets
namespace Rpc

open Coord
open Foundation

/-- The values of `manage_pool_state`. -/
inductive ManagePoolState where
  | notRunning
  | runningNoShutdown
  | runningShutdown
deriving DecidableEq, Repr

/-- Where `_manage_pool_runner` stands. -/
inductive RunnerPc where
  /-- There is no such thread. -/
  | absent
  /-- About to test for `RUNNING_SHUTDOWN`. -/
  | testing
  /-- The test has found it, and `NOT_RUNNING` is to be stored. -/
  | storing
  | returning
  | terminated
  /-- In `manage_pool`, about to visit this slot. -/
  | managing (slot : Nat)
  | sleeping
deriving DecidableEq, Repr

/-- Where the thread stands that runs `register_server` and later `shutdown`. -/
inductive OwnerPc where
  /-- In `register_server`, which has a fresh coordinator and a context for it and is
  about to store `RUNNING_NO_SHUTDOWN`. -/
  | initializing
  /-- At `pthread_create`. -/
  | spawning
  /-- `register_server` has returned the context. -/
  | registered
  /-- In `shutdown`, at the first `pthread_mutex_lock`. -/
  | announcing
  | signalling
  | signalled
  /-- At the `pthread_mutex_lock` of the wait loop. -/
  | polling
  | testing
  /-- At the `pthread_mutex_unlock` after a test that has failed. -/
  | retrying
  /-- At the `pthread_mutex_unlock` after the test has found `NOT_RUNNING`. -/
  | found
  /-- At `pthread_join`. -/
  | joining
  /-- In `coord_shutdown`, about to mark this row. -/
  | marking (row : Nat)
  /-- In the last `manage_pool`, about to visit this slot. -/
  | clearing (slot : Nat)
  /-- At `coord_delete`. -/
  | deleting
  /-- At `free`. -/
  | freeing
  /-- `shutdown` has returned to its caller. -/
  | finished
  /-- `register_server` has returned `NULL`. -/
  | returnedNull
deriving DecidableEq, Repr

structure ThreadState where
  pool : PoolState
  managePoolState : ManagePoolState
  /-- `manage_pool_mutex` is taken. -/
  locked : Bool
  owner : OwnerPc
  runner : RunnerPc
  /-- What `pthread_create` has returned, if it has: `true` stands for zero. -/
  spawned : Option Bool

inductive ThreadLabel where
  /-- A step of a client. -/
  | client (l : PoolLabel)
  /-- `pthread_create` returns; `ok` tells whether it has made a thread. -/
  | create (ok : Bool)
  /-- The owner of the context calls `shutdown`. -/
  | shutdown
  /-- The next step of `register_server` or `shutdown`. -/
  | owner
  /-- The last `manage_pool` visits the next slot, or returns. -/
  | clear (allocated : ShmPair)
  /-- The next step of the manager thread outside of `manage_pool`. -/
  | runner
  /-- The `manage_pool` of the manager thread visits the next slot, or returns. -/
  | visit (allocated : ShmPair)
deriving DecidableEq, Repr

def ownerNext (s : ThreadState) : Option ThreadState :=
  match s.owner with
  | .initializing =>
      some { s with managePoolState := .runningNoShutdown, owner := .spawning }
  | .announcing =>
      if s.locked then none else some { s with locked := true, owner := .signalling }
  | .signalling =>
      some { s with managePoolState := .runningShutdown, owner := .signalled }
  | .signalled => some { s with locked := false, owner := .polling }
  | .polling =>
      if s.locked then none else some { s with locked := true, owner := .testing }
  | .testing =>
      if s.managePoolState = .notRunning then some { s with owner := .found }
      else some { s with owner := .retrying }
  | .retrying => some { s with locked := false, owner := .polling }
  | .found => some { s with locked := false, owner := .joining }
  | .joining =>
      if s.runner = .terminated then some { s with owner := .marking 0 } else none
  | .marking row =>
      if hrow : row < slotNum then
        some { s with
          pool := { s.pool with header := markDetach s.pool.header ⟨row, hrow⟩ }
          owner := .marking (row + 1) }
      else
        some { s with owner := .clearing 0 }
  | .deleting => some { s with owner := .freeing }
  | .freeing =>
      if s.spawned = some false then some { s with owner := .returnedNull }
      else some { s with owner := .finished }
  | _ => none

/-- A step of `_manage_pool_runner` outside of `manage_pool`. -/
def runnerNext (s : ThreadState) : Option ThreadState :=
  match s.runner with
  | .testing =>
      if s.managePoolState = .runningShutdown then some { s with runner := .storing }
      else some { s with runner := .managing 0 }
  | .storing => some { s with managePoolState := .notRunning, runner := .returning }
  | .returning => some { s with runner := .terminated }
  | .sleeping => some { s with runner := .testing }
  | _ => none

def threadNext (s : ThreadState) : ThreadLabel -> Option ThreadState
  | .client l =>
      if l.isVisit then none
      else (poolNext s.pool l).map fun pool => { s with pool := pool }
  | .create ok =>
      match s.owner with
      | .spawning =>
          if ok then
            some { s with owner := .registered, runner := .testing, spawned := some true }
          else
            some { s with owner := .announcing, spawned := some false }
      | _ => none
  | .shutdown =>
      match s.owner with
      | .registered => some { s with owner := .announcing }
      | _ => none
  | .owner => ownerNext s
  | .clear allocated =>
      match s.owner with
      | .clearing slot =>
          if hslot : slot < slotNum then
            some { s with
              pool := { s.pool with
                header := visitWith allocated s.pool.header ⟨slot, hslot⟩ }
              owner := .clearing (slot + 1) }
          else
            some { s with owner := .deleting }
      | _ => none
  | .runner => runnerNext s
  | .visit allocated =>
      match s.runner with
      | .managing slot =>
          if hslot : slot < slotNum then
            some { s with
              pool := { s.pool with
                header := visitWith allocated s.pool.header ⟨slot, hslot⟩
                cursor := nextSlot ⟨slot, hslot⟩ }
              runner := .managing (slot + 1) }
          else
            some { s with runner := .sleeping }
      | _ => none

/-- `malloc` leaves any `manage_pool_state` in the context. -/
def threadStart (managePoolState : ManagePoolState) : ThreadState where
  pool := poolStart
  managePoolState := managePoolState
  locked := false
  owner := .initializing
  runner := .absent
  spawned := none

/-- `register_server`, the manager thread, one `shutdown`, and the clients. -/
def threadSystem : TransitionSystem ThreadState ThreadLabel where
  Initial s := exists managePoolState, s = threadStart managePoolState
  next := threadNext

/-!
# What the handshake promises
-/

namespace RunnerPc

def willTest : RunnerPc -> Bool
  | .testing | .managing _ | .sleeping => true
  | _ => false

end RunnerPc

namespace OwnerPc

def inWaitLoop : OwnerPc -> Bool
  | .polling | .testing | .retrying | .found | .joining => true
  | _ => false

def leftWaitLoop : OwnerPc -> Bool
  | .marking _ | .clearing _ | .deleting | .freeing | .finished | .returnedNull => true
  | _ => false

end OwnerPc

def ThreadLabel.isRunner : ThreadLabel -> Bool
  | .runner | .visit _ => true
  | _ => false

def runnerSteps (trace : List (Transition ThreadState ThreadLabel)) : Nat :=
  trace.countP fun t => t.label.isRunner

theorem runnerSteps_snoc {trace : List (Transition ThreadState ThreadLabel)}
    {s s' : ThreadState} {l : ThreadLabel} :
    runnerSteps (trace ++ [⟨s, l, s'⟩]) = runnerSteps trace + l.isRunner.toNat := by
  rw [runnerSteps, List.countP_append, List.countP_singleton]
  cases l.isRunner
  all_goals rfl

/-- `pthread_create` makes a thread. -/
def CreateSucceeds : ThreadLabel -> Prop
  | .create ok => ok = true
  | _ => True

instance (l : ThreadLabel) : Decidable (CreateSucceeds l) :=
  match l with
  | .create ok => inferInstanceAs (Decidable (ok = true))
  | .client _ | .shutdown | .owner | .clear _ | .runner | .visit _ =>
      inferInstanceAs (Decidable True)

/-- While `shutdown` waits, the state is `NOT_RUNNING`, or there is a manager thread
that will test for `RUNNING_SHUTDOWN` or has just found it; it takes this thread a bounded
number of steps to answer; and `shutdown` gets the mutex whenever it asks for it, and is
held up only by the end of a thread that is about to return.  Once `shutdown` has gone on,
the thread takes no step any more.  Without a thread `register_server` can still return
`NULL`. -/
structure StopSound (s : ThreadState) : Prop where
  answered : s.owner.inWaitLoop = true ->
    s.managePoolState = .notRunning ∨ s.runner.willTest = true ∨ s.runner = .storing
  moves : s.owner.inWaitLoop = true -> ownerNext s = none ->
    s.owner = .joining ∧ s.runner = .returning
  answers : s.owner.inWaitLoop = true -> forall trace t, threadSystem.Run s trace t ->
    slotNum + 4 ≤ runnerSteps trace -> t.managePoolState = .notRunning
  alone : s.owner.leftWaitLoop = true ->
    forall l, l.isRunner = true -> threadNext s l = none
  returnsNull : s.spawned = some false ->
    exists trace t, threadSystem.Run s trace t ∧ t.owner = .returnedNull

/-!
# What one label does
-/

/-- A step of `ownerNext`, by the branch that it takes. -/
inductive OwnerMove (s : ThreadState) : ThreadState -> Prop where
  | start (hpc : s.owner = .initializing) :
      OwnerMove s { s with managePoolState := .runningNoShutdown, owner := .spawning }
  | lock (hpc : s.owner = .announcing) (hfree : s.locked = false) :
      OwnerMove s { s with locked := true, owner := .signalling }
  | signal (hpc : s.owner = .signalling) :
      OwnerMove s { s with managePoolState := .runningShutdown, owner := .signalled }
  | unlock (hpc : s.owner = .signalled) :
      OwnerMove s { s with locked := false, owner := .polling }
  | poll (hpc : s.owner = .polling) (hfree : s.locked = false) :
      OwnerMove s { s with locked := true, owner := .testing }
  | answered (hpc : s.owner = .testing) (hstate : s.managePoolState = .notRunning) :
      OwnerMove s { s with owner := .found }
  | unanswered (hpc : s.owner = .testing) (hstate : s.managePoolState ≠ .notRunning) :
      OwnerMove s { s with owner := .retrying }
  | retry (hpc : s.owner = .retrying) :
      OwnerMove s { s with locked := false, owner := .polling }
  | leave (hpc : s.owner = .found) :
      OwnerMove s { s with locked := false, owner := .joining }
  | join (hpc : s.owner = .joining) (hended : s.runner = .terminated) :
      OwnerMove s { s with owner := .marking 0 }
  | mark {row : Nat} (hpc : s.owner = .marking row) (hrow : row < slotNum) :
      OwnerMove s { s with
        pool := { s.pool with header := markDetach s.pool.header ⟨row, hrow⟩ }
        owner := .marking (row + 1) }
  | marked {row : Nat} (hpc : s.owner = .marking row) (hrow : slotNum ≤ row) :
      OwnerMove s { s with owner := .clearing 0 }
  | delete (hpc : s.owner = .deleting) : OwnerMove s { s with owner := .freeing }
  | fail (hpc : s.owner = .freeing) (hspawned : s.spawned = some false) :
      OwnerMove s { s with owner := .returnedNull }
  | finish (hpc : s.owner = .freeing) (hspawned : s.spawned ≠ some false) :
      OwnerMove s { s with owner := .finished }

/-- A step of `runnerNext`, by the branch that it takes. -/
inductive RunnerMove (s : ThreadState) : ThreadState -> Prop where
  | stop (hpc : s.runner = .testing) (hstate : s.managePoolState = .runningShutdown) :
      RunnerMove s { s with runner := .storing }
  | manage (hpc : s.runner = .testing) (hstate : s.managePoolState ≠ .runningShutdown) :
      RunnerMove s { s with runner := .managing 0 }
  | store (hpc : s.runner = .storing) :
      RunnerMove s { s with managePoolState := .notRunning, runner := .returning }
  | terminate (hpc : s.runner = .returning) :
      RunnerMove s { s with runner := .terminated }
  | wake (hpc : s.runner = .sleeping) : RunnerMove s { s with runner := .testing }

inductive ThreadMove (s : ThreadState) : ThreadLabel -> ThreadState -> Prop where
  | client {l : PoolLabel} {pool : PoolState} (hvisit : l.isVisit = false)
      (hpool : poolNext s.pool l = some pool) :
      ThreadMove s (.client l) { s with pool := pool }
  | created (hpc : s.owner = .spawning) :
      ThreadMove s (.create true)
        { s with owner := .registered, runner := .testing, spawned := some true }
  | notCreated (hpc : s.owner = .spawning) :
      ThreadMove s (.create false) { s with owner := .announcing, spawned := some false }
  | shutdown (hpc : s.owner = .registered) :
      ThreadMove s .shutdown { s with owner := .announcing }
  | owner {s' : ThreadState} (hmove : OwnerMove s s') : ThreadMove s .owner s'
  | clear {allocated : ShmPair} {slot : Nat} (hpc : s.owner = .clearing slot)
      (hslot : slot < slotNum) :
      ThreadMove s (.clear allocated) { s with
        pool := { s.pool with
          header := visitWith allocated s.pool.header ⟨slot, hslot⟩ }
        owner := .clearing (slot + 1) }
  | cleared {allocated : ShmPair} {slot : Nat} (hpc : s.owner = .clearing slot)
      (hslot : slotNum ≤ slot) :
      ThreadMove s (.clear allocated) { s with owner := .deleting }
  | runner {s' : ThreadState} (hmove : RunnerMove s s') : ThreadMove s .runner s'
  | visit {allocated : ShmPair} {slot : Nat} (hpc : s.runner = .managing slot)
      (hslot : slot < slotNum) :
      ThreadMove s (.visit allocated) { s with
        pool := { s.pool with
          header := visitWith allocated s.pool.header ⟨slot, hslot⟩
          cursor := nextSlot ⟨slot, hslot⟩ }
        runner := .managing (slot + 1) }
  | visited {allocated : ShmPair} {slot : Nat} (hpc : s.runner = .managing slot)
      (hslot : slotNum ≤ slot) :
      ThreadMove s (.visit allocated) { s with runner := .sleeping }

section Move

variable {s s' : ThreadState}

theorem ownerMove_of_next (hnext : ownerNext s = some s') : OwnerMove s s' := by
  cases hpc : s.owner with
  | initializing =>
      rw [ownerNext, hpc] at hnext
      cases hnext
      exact .start hpc
  | announcing =>
      simp only [ownerNext, hpc] at hnext
      split at hnext
      · cases hnext
      · rename_i hfree
        cases hnext
        exact .lock hpc (by simpa using hfree)
  | signalling =>
      rw [ownerNext, hpc] at hnext
      cases hnext
      exact .signal hpc
  | signalled =>
      rw [ownerNext, hpc] at hnext
      cases hnext
      exact .unlock hpc
  | polling =>
      simp only [ownerNext, hpc] at hnext
      split at hnext
      · cases hnext
      · rename_i hfree
        cases hnext
        exact .poll hpc (by simpa using hfree)
  | testing =>
      simp only [ownerNext, hpc] at hnext
      split at hnext
      · rename_i hstate
        cases hnext
        exact .answered hpc hstate
      · rename_i hstate
        cases hnext
        exact .unanswered hpc hstate
  | retrying =>
      rw [ownerNext, hpc] at hnext
      cases hnext
      exact .retry hpc
  | found =>
      rw [ownerNext, hpc] at hnext
      cases hnext
      exact .leave hpc
  | joining =>
      simp only [ownerNext, hpc] at hnext
      split at hnext
      · rename_i hended
        cases hnext
        exact .join hpc hended
      · cases hnext
  | marking row =>
      simp only [ownerNext, hpc] at hnext
      split at hnext
      · rename_i hrow
        cases hnext
        exact .mark hpc hrow
      · rename_i hrow
        cases hnext
        exact .marked hpc (Nat.le_of_not_lt hrow)
  | deleting =>
      rw [ownerNext, hpc] at hnext
      cases hnext
      exact .delete hpc
  | freeing =>
      simp only [ownerNext, hpc] at hnext
      split at hnext
      · rename_i hspawned
        cases hnext
        exact .fail hpc hspawned
      · rename_i hspawned
        cases hnext
        exact .finish hpc hspawned
  | _ =>
      rw [ownerNext, hpc] at hnext
      cases hnext

theorem runnerMove_of_next (hnext : runnerNext s = some s') : RunnerMove s s' := by
  cases hpc : s.runner with
  | testing =>
      simp only [runnerNext, hpc] at hnext
      split at hnext
      · rename_i hstate
        cases hnext
        exact .stop hpc hstate
      · rename_i hstate
        cases hnext
        exact .manage hpc hstate
  | storing =>
      rw [runnerNext, hpc] at hnext
      cases hnext
      exact .store hpc
  | returning =>
      rw [runnerNext, hpc] at hnext
      cases hnext
      exact .terminate hpc
  | sleeping =>
      rw [runnerNext, hpc] at hnext
      cases hnext
      exact .wake hpc
  | _ =>
      rw [runnerNext, hpc] at hnext
      cases hnext

theorem threadMove_of_next {l : ThreadLabel} (hnext : threadNext s l = some s') :
    ThreadMove s l s' := by
  cases l with
  | client l =>
      simp only [threadNext] at hnext
      split at hnext
      · cases hnext
      · rename_i hvisit
        rcases Option.map_eq_some_iff.mp hnext with ⟨pool, hpool, rfl⟩
        exact .client (by simpa using hvisit) hpool
  | create ok =>
      simp only [threadNext] at hnext
      split at hnext
      · rename_i hpc
        cases ok with
        | true =>
            cases hnext
            exact .created hpc
        | false =>
            cases hnext
            exact .notCreated hpc
      · cases hnext
  | shutdown =>
      simp only [threadNext] at hnext
      split at hnext
      · rename_i hpc
        cases hnext
        exact .shutdown hpc
      · cases hnext
  | owner => exact .owner (ownerMove_of_next hnext)
  | clear allocated =>
      simp only [threadNext] at hnext
      split at hnext
      · rename_i slot hpc
        split at hnext
        · rename_i hslot
          cases hnext
          exact .clear hpc hslot
        · rename_i hslot
          cases hnext
          exact .cleared hpc (Nat.le_of_not_lt hslot)
      · cases hnext
  | runner => exact .runner (runnerMove_of_next hnext)
  | visit allocated =>
      simp only [threadNext] at hnext
      split at hnext
      · rename_i slot hpc
        split at hnext
        · rename_i hslot
          cases hnext
          exact .visit hpc hslot
        · rename_i hslot
          cases hnext
          exact .visited hpc (Nat.le_of_not_lt hslot)
      · cases hnext

end Move

/-!
# The stages of the handshake
-/

namespace OwnerPc

def unannounced : OwnerPc -> Bool
  | .registered | .announcing | .signalling => true
  | _ => false

def waits : OwnerPc -> Bool
  | .signalled | .polling | .testing | .retrying => true
  | _ => false

def leaves : OwnerPc -> Bool
  | .found | .joining => true
  | _ => false

def holdsMutex : OwnerPc -> Bool
  | .signalling | .signalled | .testing | .retrying | .found => true
  | _ => false

end OwnerPc

inductive Stage : Option Bool -> ManagePoolState -> OwnerPc -> RunnerPc -> Prop where
  | initializing {managePoolState : ManagePoolState} :
      Stage none managePoolState .initializing .absent
  | spawning : Stage none .runningNoShutdown .spawning .absent
  | running {owner : OwnerPc} {runner : RunnerPc} (howner : owner.unannounced = true)
      (hrunner : runner.willTest = true) :
      Stage (some true) .runningNoShutdown owner runner
  | announced {owner : OwnerPc} {runner : RunnerPc} (howner : owner.waits = true)
      (hrunner : runner.willTest = true ∨ runner = .storing) :
      Stage (some true) .runningShutdown owner runner
  | answered {owner : OwnerPc} {runner : RunnerPc}
      (howner : owner.waits = true ∨ owner.leaves = true)
      (hrunner : runner = .returning ∨ runner = .terminated) :
      Stage (some true) .notRunning owner runner
  | stopped {owner : OwnerPc} (howner : owner.leftWaitLoop = true) :
      Stage (some true) .notRunning owner .terminated
  | failed {owner : OwnerPc} (howner : owner = .announcing ∨ owner = .signalling) :
      Stage (some false) .runningNoShutdown owner .absent
  | stuck {owner : OwnerPc} (howner : owner.waits = true) :
      Stage (some false) .runningShutdown owner .absent

structure ThreadInvariant (s : ThreadState) : Prop where
  stage : Stage s.spawned s.managePoolState s.owner s.runner
  mutex : s.locked = s.owner.holdsMutex

theorem threadStart_invariant (managePoolState : ManagePoolState) :
    ThreadInvariant (threadStart managePoolState) :=
  ⟨.initializing, rfl⟩

section Step

variable {s s' : ThreadState}

theorem ownerNext_lock {owner : OwnerPc} (h : (if s.locked then none else
    some { s with locked := true, owner := owner }) = some s') :
    s' = { s with locked := true, owner := owner } := by
  split at h
  · cases h
  · exact (Option.some.inj h).symm

theorem ownerNext_frame (hnext : ownerNext s = some s') :
    s'.spawned = s.spawned ∧ s'.runner = s.runner := by
  cases ownerMove_of_next hnext with
  | _ => exact ⟨rfl, rfl⟩

theorem runnerNext_frame (hnext : runnerNext s = some s') :
    s'.spawned = s.spawned ∧ s'.owner = s.owner ∧ s'.locked = s.locked := by
  cases runnerMove_of_next hnext with
  | _ => exact ⟨rfl, rfl, rfl⟩

theorem ownerNext_invariant (h : ThreadInvariant s) (hnext : ownerNext s = some s') :
    ThreadInvariant s' := by
  rcases s with ⟨pool, managePoolState, locked, owner, runner, spawned⟩
  rcases h with ⟨hstage, hmutex⟩
  dsimp only at hstage hmutex
  cases hstage with
  | initializing =>
      cases hnext
      exact ⟨.spawning, hmutex⟩
  | spawning => cases hnext
  | running howner hrunner =>
      cases owner with
      | registered => cases hnext
      | announcing =>
          rw [ownerNext_lock hnext]
          exact ⟨.running rfl hrunner, rfl⟩
      | signalling =>
          cases hnext
          exact ⟨.announced rfl (Or.inl hrunner), hmutex⟩
      | _ => cases howner
  | announced howner hrunner =>
      cases owner with
      | signalled =>
          cases hnext
          exact ⟨.announced rfl hrunner, rfl⟩
      | polling =>
          rw [ownerNext_lock hnext]
          exact ⟨.announced rfl hrunner, rfl⟩
      | testing =>
          cases hnext
          exact ⟨.announced rfl hrunner, hmutex⟩
      | retrying =>
          cases hnext
          exact ⟨.announced rfl hrunner, rfl⟩
      | _ => cases howner
  | answered howner hrunner =>
      cases owner with
      | signalled =>
          cases hnext
          exact ⟨.answered (Or.inl rfl) hrunner, rfl⟩
      | polling =>
          rw [ownerNext_lock hnext]
          exact ⟨.answered (Or.inl rfl) hrunner, rfl⟩
      | testing =>
          cases hnext
          exact ⟨.answered (Or.inr rfl) hrunner, hmutex⟩
      | retrying =>
          cases hnext
          exact ⟨.answered (Or.inl rfl) hrunner, rfl⟩
      | found =>
          cases hnext
          exact ⟨.answered (Or.inr rfl) hrunner, rfl⟩
      | joining =>
          rcases hrunner with rfl | rfl
          · cases hnext
          · cases hnext
            exact ⟨.stopped rfl, hmutex⟩
      | _ => rcases howner with hwaits | hleaves <;> contradiction
  | stopped howner =>
      cases owner with
      | marking row =>
          simp only [ownerNext] at hnext
          split at hnext
          · cases hnext
            exact ⟨.stopped rfl, hmutex⟩
          · cases hnext
            exact ⟨.stopped rfl, hmutex⟩
      | deleting =>
          cases hnext
          exact ⟨.stopped rfl, hmutex⟩
      | freeing =>
          cases hnext
          exact ⟨.stopped rfl, hmutex⟩
      | clearing slot => cases hnext
      | finished => cases hnext
      | returnedNull => cases hnext
      | _ => cases howner
  | failed howner =>
      rcases howner with rfl | rfl
      · rw [ownerNext_lock hnext]
        exact ⟨.failed (Or.inr rfl), rfl⟩
      · cases hnext
        exact ⟨.stuck rfl, hmutex⟩
  | stuck howner =>
      cases owner with
      | signalled =>
          cases hnext
          exact ⟨.stuck rfl, rfl⟩
      | polling =>
          rw [ownerNext_lock hnext]
          exact ⟨.stuck rfl, rfl⟩
      | testing =>
          cases hnext
          exact ⟨.stuck rfl, hmutex⟩
      | retrying =>
          cases hnext
          exact ⟨.stuck rfl, rfl⟩
      | _ => cases howner

theorem runnerNext_stage (h : Stage s.spawned s.managePoolState s.owner s.runner)
    (hnext : runnerNext s = some s') :
    Stage s'.spawned s'.managePoolState s'.owner s'.runner := by
  rcases s with ⟨pool, managePoolState, locked, owner, runner, spawned⟩
  dsimp only at h
  cases h with
  | running howner hrunner =>
      cases runner with
      | testing =>
          cases hnext
          exact .running howner rfl
      | sleeping =>
          cases hnext
          exact .running howner rfl
      | managing slot => cases hnext
      | _ => cases hrunner
  | announced howner hrunner =>
      cases runner with
      | testing =>
          cases hnext
          exact .announced howner (Or.inr rfl)
      | storing =>
          cases hnext
          exact .answered (Or.inl howner) (Or.inl rfl)
      | sleeping =>
          cases hnext
          exact .announced howner (Or.inl rfl)
      | managing slot => cases hnext
      | _ => rcases hrunner with hwill | hstoring <;> contradiction
  | answered howner hrunner =>
      rcases hrunner with rfl | rfl
      · cases hnext
        exact .answered howner (Or.inr rfl)
      · cases hnext
  | initializing => cases hnext
  | spawning => cases hnext
  | stopped howner => cases hnext
  | failed howner => cases hnext
  | stuck howner => cases hnext

theorem Stage.managing {owner : OwnerPc} {slot : Nat} {runner : RunnerPc}
    {managePoolState : ManagePoolState} {spawned : Option Bool}
    (h : Stage spawned managePoolState owner (.managing slot))
    (hrunner : runner.willTest = true) : Stage spawned managePoolState owner runner := by
  cases h with
  | running howner _ => exact .running howner hrunner
  | announced howner _ => exact .announced howner (Or.inl hrunner)
  | answered _ hended => rcases hended with hreturning | hterminated <;> contradiction

theorem Stage.spawning_only {runner : RunnerPc} {managePoolState : ManagePoolState}
    {spawned : Option Bool} (h : Stage spawned managePoolState .spawning runner) :
    spawned = none ∧ managePoolState = .runningNoShutdown ∧ runner = .absent := by
  cases h with
  | spawning => exact ⟨rfl, rfl, rfl⟩
  | running howner _ => cases howner
  | announced howner _ => cases howner
  | answered howner _ => rcases howner with hwaits | hleaves <;> contradiction
  | stopped howner => cases howner
  | failed howner => rcases howner with hannouncing | hsignalling <;> contradiction
  | stuck howner => cases howner

theorem Stage.registered {runner : RunnerPc} {managePoolState : ManagePoolState}
    {spawned : Option Bool} (h : Stage spawned managePoolState .registered runner) :
    Stage spawned managePoolState .announcing runner := by
  cases h with
  | running _ hrunner => exact .running rfl hrunner
  | announced howner _ => cases howner
  | answered howner _ => rcases howner with hwaits | hleaves <;> contradiction
  | stopped howner => cases howner
  | failed howner => rcases howner with hannouncing | hsignalling <;> contradiction
  | stuck howner => cases howner

theorem Stage.clearing {runner : RunnerPc} {managePoolState : ManagePoolState}
    {spawned : Option Bool} {slot : Nat} {owner : OwnerPc}
    (h : Stage spawned managePoolState (.clearing slot) runner)
    (howner : owner.leftWaitLoop = true) :
    Stage spawned managePoolState owner runner := by
  cases h with
  | stopped _ => exact .stopped howner
  | running hpc _ => cases hpc
  | announced hpc _ => cases hpc
  | answered hpc _ => rcases hpc with hwaits | hleaves <;> contradiction
  | failed hpc => rcases hpc with hannouncing | hsignalling <;> contradiction
  | stuck hpc => cases hpc

theorem Stage.ended {runner : RunnerPc} {managePoolState : ManagePoolState}
    {spawned : Option Bool} {owner : OwnerPc}
    (h : Stage spawned managePoolState owner runner) (howner : owner.leaves = true) :
    runner = .returning ∨ runner = .terminated := by
  cases h with
  | answered _ hrunner => exact hrunner
  | stopped _ => exact Or.inr rfl
  | initializing => cases howner
  | spawning => cases howner
  | running hpc _ => cases owner <;> contradiction
  | announced hpc _ => cases owner <;> contradiction
  | failed hpc => rcases hpc with rfl | rfl <;> contradiction
  | stuck hpc => cases owner <;> contradiction

theorem threadNext_invariant {l : ThreadLabel} (h : ThreadInvariant s)
    (hnext : threadNext s l = some s') : ThreadInvariant s' := by
  have hstage := h.stage
  have hmutex := h.mutex
  cases threadMove_of_next hnext with
  | client _ _ => exact ⟨hstage, hmutex⟩
  | created hpc =>
      rw [hpc] at hstage hmutex
      rcases hstage.spawning_only with ⟨_, hstate, _⟩
      refine ⟨?_, hmutex⟩
      rw [hstate]
      exact .running rfl rfl
  | notCreated hpc =>
      rw [hpc] at hstage hmutex
      rcases hstage.spawning_only with ⟨_, hstate, hrunner⟩
      refine ⟨?_, hmutex⟩
      rw [hstate, hrunner]
      exact .failed (Or.inl rfl)
  | shutdown hpc =>
      rw [hpc] at hstage hmutex
      exact ⟨hstage.registered, hmutex⟩
  | owner _ => exact ownerNext_invariant h hnext
  | clear hpc _ =>
      rw [hpc] at hstage hmutex
      exact ⟨hstage.clearing rfl, hmutex⟩
  | cleared hpc _ =>
      rw [hpc] at hstage hmutex
      exact ⟨hstage.clearing rfl, hmutex⟩
  | runner _ =>
      rcases runnerNext_frame hnext with ⟨_, howner, hlocked⟩
      refine ⟨runnerNext_stage hstage hnext, ?_⟩
      rw [hlocked, howner]
      exact hmutex
  | visit hpc _ =>
      rw [hpc] at hstage
      exact ⟨hstage.managing rfl, hmutex⟩
  | visited hpc _ =>
      rw [hpc] at hstage
      exact ⟨hstage.managing rfl, hmutex⟩

theorem thread_invariant (hs : threadSystem.Reachable s) : ThreadInvariant s := by
  refine TransitionSystem.reachableUnder_invariant ?_ ?_ hs
  · intro start hstart
    rcases hstart with ⟨managePoolState, rfl⟩
    exact threadStart_invariant managePoolState
  · intro t l t' ht _ hnext
    exact threadNext_invariant ht hnext

/-!
# The outcome of pthread_create
-/

theorem threadNext_spawned {l : ThreadLabel} (h : ThreadInvariant s)
    (hnext : threadNext s l = some s') :
    s'.spawned = some false <-> s.spawned = some false ∨ l = .create false := by
  have hstage := h.stage
  cases threadMove_of_next hnext with
  | created hpc =>
      rw [hpc] at hstage
      rw [hstage.spawning_only.left]
      simp
  | notCreated _ => simp
  | owner _ =>
      rw [(ownerNext_frame hnext).left]
      simp
  | runner _ =>
      rw [(runnerNext_frame hnext).left]
      simp
  | _ => simp

/-!
# Runs with a thread, and runs without
-/

namespace RunnerPc

def rank : RunnerPc -> Nat
  | .storing => 1
  | .testing => 2
  | .sleeping => 3
  | .managing slot => 4 + (slotNum - slot)
  | _ => 0

theorem rank_le (runner : RunnerPc) : runner.rank ≤ slotNum + 4 := by
  unfold rank
  split
  all_goals lia

theorem rank_pos {runner : RunnerPc} (h : runner.willTest = true ∨ runner = .storing) :
    0 < runner.rank := by
  rcases h with h | rfl
  · cases runner with
    | managing slot => exact Nat.lt_of_lt_of_le (by decide) (Nat.le_add_right 4 _)
    | testing => exact Nat.zero_lt_two
    | sleeping => exact Nat.succ_pos 2
    | _ => cases h
  · exact Nat.one_pos

end RunnerPc

/-- `RUNNING_SHUTDOWN` has been stored, and there is a thread to answer it. -/
structure Announced (s : ThreadState) : Prop where
  invariant : ThreadInvariant s
  spawned : s.spawned = some true
  state : s.managePoolState = .runningShutdown ∨ s.managePoolState = .notRunning

theorem Announced.stage (h : Announced s) :
    (s.owner.waits = true ∨ s.owner.leaves = true ∨ s.owner.leftWaitLoop = true) ∧
      (s.managePoolState = .runningShutdown ->
        s.runner.willTest = true ∨ s.runner = .storing) ∧
      (s.managePoolState = .notRunning ->
        s.runner = .returning ∨ s.runner = .terminated) := by
  rcases s with ⟨pool, managePoolState, locked, owner, runner, spawned⟩
  rcases h with ⟨⟨hstage, _⟩, hspawned, hstate⟩
  dsimp only at hstage hspawned hstate ⊢
  subst hspawned
  cases hstage with
  | running _ _ => rcases hstate with hshutdown | hnone <;> contradiction
  | announced howner hrunner => exact ⟨Or.inl howner, fun _ => hrunner, nofun⟩
  | answered howner hrunner =>
      refine ⟨?_, nofun, fun _ => hrunner⟩
      rcases howner with hwaits | hleaves
      · exact Or.inl hwaits
      · exact Or.inr (Or.inl hleaves)
  | stopped howner => exact ⟨Or.inr (Or.inr howner), nofun, fun _ => Or.inr rfl⟩

theorem ownerNext_state (hlater : s.owner.waits = true ∨ s.owner.leaves = true ∨
      s.owner.leftWaitLoop = true) (hnext : ownerNext s = some s') :
    s'.managePoolState = s.managePoolState := by
  cases ownerMove_of_next hnext with
  | start hpc =>
      simp [hpc, OwnerPc.waits, OwnerPc.leaves, OwnerPc.leftWaitLoop] at hlater
  | signal hpc =>
      simp [hpc, OwnerPc.waits, OwnerPc.leaves, OwnerPc.leftWaitLoop] at hlater
  | _ => rfl

/-- Every step of the thread brings it closer to its answer. -/
theorem runnerNext_rank (hstate : s.managePoolState = .runningShutdown)
    (hrunner : s.runner.willTest = true ∨ s.runner = .storing)
    (hnext : runnerNext s = some s') :
    s'.managePoolState = .notRunning ∨ s'.managePoolState = .runningShutdown ∧
      s'.runner.rank + 1 ≤ s.runner.rank := by
  cases runnerMove_of_next hnext with
  | stop hpc _ =>
      rw [hpc]
      exact Or.inr ⟨hstate, le_rfl⟩
  | manage _ hother => exact absurd hstate hother
  | store _ => exact Or.inl rfl
  | terminate hpc =>
      rw [hpc] at hrunner
      rcases hrunner with hwill | hstoring <;> contradiction
  | wake hpc =>
      rw [hpc]
      exact Or.inr ⟨hstate, le_rfl⟩

theorem runnerNext_ended (hrunner : s.runner = .returning ∨ s.runner = .terminated)
    (hnext : runnerNext s = some s') : s'.managePoolState = s.managePoolState := by
  cases runnerMove_of_next hnext with
  | store hpc =>
      rw [hpc] at hrunner
      rcases hrunner with hreturning | hterminated <;> contradiction
  | _ => rfl

theorem threadNext_others {l : ThreadLabel} (h : Announced s) (hl : l.isRunner = false)
    (hnext : threadNext s l = some s') :
    s'.spawned = s.spawned ∧ s'.managePoolState = s.managePoolState ∧
      s'.runner = s.runner := by
  have howner := h.stage.left
  cases threadMove_of_next hnext with
  | created hpc =>
      simp [hpc, OwnerPc.waits, OwnerPc.leaves, OwnerPc.leftWaitLoop] at howner
  | notCreated hpc =>
      simp [hpc, OwnerPc.waits, OwnerPc.leaves, OwnerPc.leftWaitLoop] at howner
  | owner _ =>
      rcases ownerNext_frame hnext with ⟨hspawned, hrunner⟩
      exact ⟨hspawned, ownerNext_state howner hnext, hrunner⟩
  | runner _ => cases hl
  | visit _ _ => cases hl
  | visited _ _ => cases hl
  | _ => exact ⟨rfl, rfl, rfl⟩

theorem visit_rank {allocated : ShmPair}
    (hnext : threadNext s (.visit allocated) = some s') :
    s'.spawned = s.spawned ∧ s'.managePoolState = s.managePoolState ∧
      s'.runner.rank + 1 ≤ s.runner.rank := by
  cases threadMove_of_next hnext with
  | @visit _ slot hpc hslot =>
      rw [hpc]
      refine ⟨rfl, rfl, ?_⟩
      show 4 + (slotNum - (slot + 1)) + 1 ≤ 4 + (slotNum - slot)
      lia
  | @visited _ slot hpc _ =>
      rw [hpc]
      refine ⟨rfl, rfl, ?_⟩
      show 3 + 1 ≤ 4 + (slotNum - slot)
      lia

theorem threadNext_answers {l : ThreadLabel} (h : Announced s)
    (hnext : threadNext s l = some s') :
    Announced s' ∧ (s'.managePoolState = .notRunning ∨
      s.managePoolState = .runningShutdown ∧
        s'.runner.rank + l.isRunner.toNat ≤ s.runner.rank) := by
  have hinv := threadNext_invariant h.invariant hnext
  cases hl : l.isRunner with
  | false =>
      rcases threadNext_others h hl hnext with ⟨hspawned, hstate, hrunner⟩
      refine ⟨⟨hinv, hspawned.trans h.spawned, ?_⟩, ?_⟩
      · rw [hstate]
        exact h.state
      · rw [hstate, hrunner]
        exact h.state.symm.imp id fun hshutdown => ⟨hshutdown, le_rfl⟩
  | true =>
      cases l with
      | visit allocated =>
          rcases visit_rank hnext with ⟨hspawned, hstate, hrank⟩
          refine ⟨⟨hinv, hspawned.trans h.spawned, ?_⟩, ?_⟩
          · rw [hstate]
            exact h.state
          · rw [hstate]
            exact h.state.symm.imp id fun hshutdown => ⟨hshutdown, hrank⟩
      | runner =>
          have hspawned := (runnerNext_frame hnext).left.trans h.spawned
          rcases h.state with hshutdown | hnone
          · rcases runnerNext_rank hshutdown (h.stage.right.left hshutdown) hnext with
              hanswered | ⟨hstate, hrank⟩
            · exact ⟨⟨hinv, hspawned, Or.inr hanswered⟩, Or.inl hanswered⟩
            · exact ⟨⟨hinv, hspawned, Or.inl hstate⟩, Or.inr ⟨hshutdown, hrank⟩⟩
          · have hended := runnerNext_ended (h.stage.right.right hnone) hnext
            rw [hnone] at hended
            exact ⟨⟨hinv, hspawned, Or.inr hended⟩, Or.inl hended⟩
      | _ => cases hl

theorem run_answers {trace : List (Transition ThreadState ThreadLabel)}
    (h : Announced s) (hrun : threadSystem.Run s trace s') :
    Announced s' ∧ (s'.managePoolState = .notRunning ∨
      s'.runner.rank + runnerSteps trace ≤ s.runner.rank) := by
  induction hrun with
  | nil => exact ⟨h, Or.inr le_rfl⟩
  | snoc hprev hnext ih =>
      rename_i trace mid last l
      rcases ih with ⟨hmid, hbefore⟩
      rcases threadNext_answers hmid hnext with ⟨hlast, hstep⟩
      refine ⟨hlast, ?_⟩
      rcases hstep with hanswered | ⟨hshutdown, hrank⟩
      · exact Or.inl hanswered
      · rcases hbefore with hanswered | hbefore
        · rw [hshutdown] at hanswered
          cases hanswered
        · right
          rw [runnerSteps_snoc]
          lia

/-!
# When the handshake can be relied on
-/

/-- With a thread, `shutdown` waits only after it has announced itself. -/
theorem announced_of_inWaitLoop (h : ThreadInvariant s)
    (hspawned : s.spawned ≠ some false) (hloop : s.owner.inWaitLoop = true) :
    Announced s := by
  have hinv := h
  rcases s with ⟨pool, managePoolState, locked, owner, runner, spawned⟩
  rcases h with ⟨hstage, _⟩
  dsimp only at hstage hspawned hloop
  cases hstage with
  | initializing => cases hloop
  | spawning => cases hloop
  | running howner _ => cases owner <;> contradiction
  | announced _ _ => exact ⟨hinv, rfl, Or.inl rfl⟩
  | answered _ _ => exact ⟨hinv, rfl, Or.inr rfl⟩
  | stopped _ => exact ⟨hinv, rfl, Or.inr rfl⟩
  | failed _ => exact absurd rfl hspawned
  | stuck _ => exact absurd rfl hspawned

theorem Announced.moves (h : Announced s) (hloop : s.owner.inWaitLoop = true)
    (hstuck : ownerNext s = none) : s.owner = .joining ∧ s.runner = .returning := by
  have hmutex := h.invariant.mutex
  have hstage := h.invariant.stage
  cases hpc : s.owner with
  | polling =>
      rw [hpc] at hmutex
      have hfree : s.locked = false := hmutex
      simp [ownerNext, hpc, hfree] at hstuck
  | testing =>
      simp only [ownerNext, hpc] at hstuck
      split at hstuck
      · cases hstuck
      · cases hstuck
  | retrying => simp [ownerNext, hpc] at hstuck
  | found => simp [ownerNext, hpc] at hstuck
  | joining =>
      rw [hpc] at hstage
      rcases hstage.ended rfl with hreturning | hterminated
      · exact ⟨rfl, hreturning⟩
      · simp [ownerNext, hpc, hterminated] at hstuck
  | _ =>
      rw [hpc] at hloop
      cases hloop

theorem terminated_of_leftWaitLoop (h : ThreadInvariant s)
    (hleft : s.owner.leftWaitLoop = true) : s.runner = .terminated := by
  rcases s with ⟨pool, managePoolState, locked, owner, runner, spawned⟩
  rcases h with ⟨hstage, _⟩
  dsimp only at hstage hleft ⊢
  cases hstage with
  | stopped _ => rfl
  | initializing => cases hleft
  | spawning => cases hleft
  | running howner _ => cases owner <;> contradiction
  | announced howner _ => cases owner <;> contradiction
  | answered howner _ =>
      cases owner <;> rcases howner with hwaits | hleaves <;> contradiction
  | failed howner => rcases howner with rfl | rfl <;> contradiction
  | stuck howner => cases owner <;> contradiction

/-- Without a thread `shutdown` never leaves its loop. -/
theorem waits_of_not_spawned (h : ThreadInvariant s) (hspawned : s.spawned = some false) :
    s.owner.leftWaitLoop = false := by
  rcases s with ⟨pool, managePoolState, locked, owner, runner, spawned⟩
  rcases h with ⟨hstage, _⟩
  dsimp only at hstage hspawned ⊢
  subst hspawned
  cases hstage with
  | failed howner => rcases howner with rfl | rfl <;> rfl
  | stuck howner => cases owner <;> first | rfl | contradiction

theorem stopSound_of_spawned (h : ThreadInvariant s) (hspawned : s.spawned ≠ some false) :
    StopSound s where
  answered := by
    intro hloop
    have hannounced := announced_of_inWaitLoop h hspawned hloop
    rcases hannounced.state with hshutdown | hnone
    · exact Or.inr (hannounced.stage.right.left hshutdown)
    · exact Or.inl hnone
  moves := by
    intro hloop hstuck
    exact (announced_of_inWaitLoop h hspawned hloop).moves hloop hstuck
  answers := by
    intro hloop trace t hrun hsteps
    have hannounced := announced_of_inWaitLoop h hspawned hloop
    have hbound := s.runner.rank_le
    rcases run_answers hannounced hrun with ⟨ht, hanswered | hrank⟩
    · exact hanswered
    · rcases ht.state with hshutdown | hnone
      · have hpos := RunnerPc.rank_pos (ht.stage.right.left hshutdown)
        lia
      · exact hnone
  alone := by
    intro hleft l hl
    have hterminated := terminated_of_leftWaitLoop h hleft
    cases l with
    | runner => simp [threadNext, runnerNext, hterminated]
    | visit allocated => simp [threadNext, hterminated]
    | _ => cases hl
  returnsNull := by
    intro hfailed
    exact absurd hfailed hspawned

theorem not_stopSound (h : ThreadInvariant s) (hspawned : s.spawned = some false) :
    ¬ StopSound s := by
  intro hsound
  rcases hsound.returnsNull hspawned with ⟨trace, t, hrun, hnull⟩
  have hstep : forall u l u', ThreadInvariant u ∧ u.spawned = some false -> True ->
      threadSystem.next u l = some u' ->
        ThreadInvariant u' ∧ u'.spawned = some false := by
    intro u l u' hu _ hnext
    refine ⟨threadNext_invariant hu.left hnext, ?_⟩
    exact (threadNext_spawned hu.left hnext).mpr (Or.inl hu.right)
  have hlast := TransitionSystem.run_invariant hstep hrun (fun _ _ => trivial)
    ⟨h, hspawned⟩
  have hstays := waits_of_not_spawned hlast.left hlast.right
  rw [hnull] at hstays
  cases hstays

theorem createSucceeds_iff {managePoolState : ManagePoolState}
    {trace : List (Transition ThreadState ThreadLabel)}
    (hrun : threadSystem.Run (threadStart managePoolState) trace s) :
    TransitionSystem.Guarded (fun _ l => CreateSucceeds l) trace <->
      s.spawned ≠ some false := by
  induction hrun with
  | nil =>
      constructor
      · intro _ hnone
        cases hnone
      · intro _
        exact TransitionSystem.guarded_nil _
  | snoc hprev hnext ih =>
      rename_i trace mid last l
      have hmid : ThreadInvariant mid :=
        thread_invariant ⟨_, _, ⟨managePoolState, rfl⟩, hprev, fun _ _ => trivial⟩
      rw [TransitionSystem.guarded_snoc, ih, Ne, Ne, threadNext_spawned hmid hnext,
        not_or]
      refine and_congr_right fun _ => ?_
      cases l with
      | create ok => cases ok <;> simp [CreateSucceeds]
      | _ => simp [CreateSucceeds]

end Step

/-- `shutdown` can rely on the handshake exactly in the runs in which
`pthread_create` does not fail. -/
theorem stop_handshake_sound_iff {managePoolState : ManagePoolState} {s : ThreadState}
    {trace : List (Transition ThreadState ThreadLabel)}
    (hrun : threadSystem.Run (threadStart managePoolState) trace s) :
    TransitionSystem.Guarded (fun _ l => CreateSucceeds l) trace <-> StopSound s := by
  have hinv : ThreadInvariant s :=
    thread_invariant ⟨_, _, ⟨managePoolState, rfl⟩, hrun, fun _ _ => trivial⟩
  rw [createSucceeds_iff hrun]
  constructor
  · exact stopSound_of_spawned hinv
  · intro hsound hspawned
    exact not_stopSound hinv hspawned hsound

def stoppingLabels : List ThreadLabel :=
  [.owner, .create true, .runner, .shutdown] ++ List.replicate 6 .owner ++
    List.replicate 41 (.visit pairOfFive) ++ List.replicate 4 .runner ++
    List.replicate 45 .owner ++
    List.replicate 41 (.clear pairOfFive) ++ [.owner, .owner]

theorem stop_handshake_finished :
    exists s trace, threadSystem.Run (threadStart .notRunning) trace s ∧
      s.owner = .finished ∧ StopSound s := by
  have hsome : ((threadSystem.execute (threadStart .notRunning) stoppingLabels).map
      ThreadState.owner) = some .finished := by
    decide +kernel
  rcases Option.map_eq_some_iff.mp hsome with ⟨s, hexec, howner⟩
  have hallowed : forall l, l ∈ stoppingLabels -> CreateSucceeds l := by
    decide +kernel
  rcases TransitionSystem.exists_run_of_execute hexec hallowed with
    ⟨trace, hrun, _, hguard⟩
  exact ⟨s, trace, hrun, howner, (stop_handshake_sound_iff hrun).mp hguard⟩

def failedCreateLabels : List ThreadLabel :=
  [.owner, .create false, .owner, .owner, .owner]

theorem stop_handshake_without_thread :
    ¬ forall (managePoolState : ManagePoolState) (s : ThreadState)
        (trace : List (Transition ThreadState ThreadLabel)),
      threadSystem.Run (threadStart managePoolState) trace s -> StopSound s := by
  intro hclaim
  have hsome : ((threadSystem.execute (threadStart .notRunning) failedCreateLabels).map
      fun s => (s.owner, s.managePoolState, s.runner)) =
        some (.polling, .runningShutdown, .absent) := by
    decide +kernel
  rcases Option.map_eq_some_iff.mp hsome with ⟨s, hexec, hend⟩
  simp only [Prod.mk.injEq] at hend
  rcases hend with ⟨howner, hstate, hrunner⟩
  rcases TransitionSystem.execute_run TransitionSystem.Run.nil hexec with
    ⟨trace, hrun, _⟩
  have hloop : s.owner.inWaitLoop = true := by rw [howner, OwnerPc.inWaitLoop]
  have hanswered := (hclaim _ s _ hrun).answered hloop
  rw [hstate, hrunner] at hanswered
  rcases hanswered with hnone | hwill | hstoring
  · cases hnone
  · cases hwill
  · cases hstoring

end Rpc
end Notnets
