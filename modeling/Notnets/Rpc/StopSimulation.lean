import Notnets.Rpc.ManagerThread

/-!
# The handshake behind shutdown

In the model of `shutdown` the manager stops in one step, at the end of a pass.  The
threads get there by their handshake over `manage_pool_state`.  Seen from the table and
the clients, they do nothing that this model does not do.
-/

namespace Notnets
namespace Rpc

open Coord
open Foundation

/-- What the table and the clients see of the thread that runs `shutdown`. -/
def OwnerPc.server : OwnerPc -> ServerPc
  | .initializing | .spawning | .registered | .announcing | .signalling => .running
  | .signalled | .polling | .testing | .retrying | .found | .joining => .stopping
  | .marking row => .marking row
  | .clearing slot => .clearing slot
  | .deleting | .freeing | .finished | .returnedNull => .deleted

def ThreadState.shutdownState (s : ThreadState) : ShutdownState where
  pool := s.pool
  server := s.owner.server

def RunnerPc.PassAt (cursor : Slot) : RunnerPc -> Prop
  | .managing slot => slot ≤ slotNum ∧ cursor.val = slot % slotNum
  | _ => cursor = firstSlot

structure StopInvariant (s : ThreadState) : Prop where
  handshake : ThreadInvariant s
  pass : s.runner.PassAt s.pool.cursor

section Step

variable {s s' : ThreadState}

theorem Stage.manages {spawned : Option Bool} {managePoolState : ManagePoolState}
    {owner : OwnerPc} {slot : Nat}
    (h : Stage spawned managePoolState owner (.managing slot)) :
    owner.server.manages = true := by
  cases h with
  | running howner _ =>
      cases owner with
      | registered => rfl
      | announcing => rfl
      | signalling => rfl
      | _ => cases howner
  | announced howner _ =>
      cases owner with
      | signalled => rfl
      | polling => rfl
      | testing => rfl
      | retrying => rfl
      | _ => cases howner
  | answered _ hrunner =>
      rcases hrunner with hreturning | hterminated <;> contradiction

theorem ownerNext_cursor (hnext : ownerNext s = some s') :
    s'.pool.cursor = s.pool.cursor := by
  cases ownerMove_of_next hnext with
  | _ => rfl

theorem runnerMove_passAt (h : s.runner.PassAt s.pool.cursor) (hmove : RunnerMove s s') :
    s'.runner.PassAt s'.pool.cursor := by
  cases hmove with
  | stop hpc _ =>
      rw [hpc] at h
      exact h
  | manage hpc _ =>
      rw [hpc] at h
      exact ⟨Nat.zero_le _, congrArg Fin.val h⟩
  | store hpc =>
      rw [hpc] at h
      exact h
  | terminate hpc =>
      rw [hpc] at h
      exact h
  | wake hpc =>
      rw [hpc] at h
      exact h

theorem threadNext_pass {l : ThreadLabel} (h : StopInvariant s)
    (hnext : threadNext s l = some s') : StopInvariant s' := by
  refine ⟨threadNext_invariant h.handshake hnext, ?_⟩
  have hpass := h.pass
  cases threadMove_of_next hnext with
  | client hvisit hpool =>
      show s.runner.PassAt _
      rw [poolNext_cursor hvisit hpool]
      exact hpass
  | created hpc =>
      have hstage := h.handshake.stage
      rw [hpc] at hstage
      rw [hstage.spawning_only.right.right] at hpass
      exact hpass
  | notCreated _ => exact hpass
  | shutdown _ => exact hpass
  | owner _ =>
      rw [(ownerNext_frame hnext).right, ownerNext_cursor hnext]
      exact hpass
  | clear _ _ => exact hpass
  | cleared _ _ => exact hpass
  | runner hmove => exact runnerMove_passAt hpass hmove
  | visit _ hslot => exact ⟨hslot, rfl⟩
  | @visited _ slot hpc hslot =>
      rw [hpc] at hpass
      rcases hpass with ⟨hle, hcursor⟩
      rw [Nat.le_antisymm hle hslot, Nat.mod_self] at hcursor
      exact Fin.ext hcursor

theorem shutdownState_eq (hpool : s'.pool = s.pool)
    (hserver : s'.owner.server = s.owner.server) :
    s'.shutdownState = s.shutdownState := by
  rw [ThreadState.shutdownState, hpool, hserver]
  rfl

/-- What a step of `shutdown` is in the model without threads. -/
theorem ownerMove_simulated (h : s.runner.PassAt s.pool.cursor) (hmove : OwnerMove s s') :
    s'.shutdownState = s.shutdownState ∨
      exists l, shutdownNext s.shutdownState l = some s'.shutdownState := by
  have hserver : s.shutdownState.server = s.owner.server := rfl
  cases hmove with
  | signal hpc =>
      rw [hpc] at hserver
      refine Or.inr ⟨.shutdown, ?_⟩
      simp only [shutdownNext, hserver, OwnerPc.server]
      rfl
  | join hpc hended =>
      rw [hpc] at hserver
      rw [hended] at h
      refine Or.inr ⟨.stop, ?_⟩
      simp only [shutdownNext, hserver, OwnerPc.server]
      exact if_pos h
  | mark hpc hrow =>
      rw [hpc] at hserver
      refine Or.inr ⟨.mark, ?_⟩
      simp only [shutdownNext, hserver, OwnerPc.server]
      exact dif_pos hrow
  | marked hpc hrow =>
      rw [hpc] at hserver
      refine Or.inr ⟨.mark, ?_⟩
      simp only [shutdownNext, hserver, OwnerPc.server]
      exact dif_neg (Nat.not_lt_of_le hrow)
  | start hpc => exact Or.inl (shutdownState_eq rfl (by rw [hpc]; rfl))
  | lock hpc _ => exact Or.inl (shutdownState_eq rfl (by rw [hpc]; rfl))
  | unlock hpc => exact Or.inl (shutdownState_eq rfl (by rw [hpc]; rfl))
  | poll hpc _ => exact Or.inl (shutdownState_eq rfl (by rw [hpc]; rfl))
  | answered hpc _ => exact Or.inl (shutdownState_eq rfl (by rw [hpc]; rfl))
  | unanswered hpc _ => exact Or.inl (shutdownState_eq rfl (by rw [hpc]; rfl))
  | retry hpc => exact Or.inl (shutdownState_eq rfl (by rw [hpc]; rfl))
  | leave hpc => exact Or.inl (shutdownState_eq rfl (by rw [hpc]; rfl))
  | delete hpc => exact Or.inl (shutdownState_eq rfl (by rw [hpc]; rfl))
  | fail hpc _ => exact Or.inl (shutdownState_eq rfl (by rw [hpc]; rfl))
  | finish hpc _ => exact Or.inl (shutdownState_eq rfl (by rw [hpc]; rfl))

theorem thread_simulates_shutdown :
    threadSystem.Simulates shutdownSystem StopInvariant ThreadState.shutdownState := by
  intro s l s' h hnext
  have hserver : s.shutdownState.server = s.owner.server := rfl
  have hstage := h.handshake.stage
  have hpass := h.pass
  cases threadMove_of_next hnext with
  | client hvisit hpool =>
      rename_i l pool
      refine Or.inr ⟨.pool l, ?_⟩
      show (if l.isVisit && !s.shutdownState.server.manages then none
        else (poolNext s.pool l).map _) = _
      rw [hvisit, hpool]
      rfl
  | created hpc => exact Or.inl (shutdownState_eq rfl (by rw [hpc]; rfl))
  | notCreated hpc => exact Or.inl (shutdownState_eq rfl (by rw [hpc]; rfl))
  | shutdown hpc => exact Or.inl (shutdownState_eq rfl (by rw [hpc]; rfl))
  | owner hmove => exact ownerMove_simulated hpass hmove
  | @clear allocated slot hpc hslot =>
      rw [hpc] at hserver
      refine Or.inr ⟨.clear allocated, ?_⟩
      show shutdownNext s.shutdownState (.clear allocated) = _
      simp only [shutdownNext, hserver, OwnerPc.server]
      exact dif_pos hslot
  | @cleared allocated slot hpc hslot =>
      rw [hpc] at hserver
      refine Or.inr ⟨.clear allocated, ?_⟩
      show shutdownNext s.shutdownState (.clear allocated) = _
      simp only [shutdownNext, hserver, OwnerPc.server]
      exact dif_neg (Nat.not_lt_of_le hslot)
  | runner hmove =>
      cases hmove with
      | _ => exact Or.inl rfl
  | @visit allocated slot hpc hslot =>
      rw [hpc] at hpass hstage
      rcases hpass with ⟨_, hcursor⟩
      rw [Nat.mod_eq_of_lt hslot] at hcursor
      have hat : s.pool.cursor = ⟨slot, hslot⟩ := Fin.ext hcursor
      refine Or.inr ⟨.pool (.visit allocated), ?_⟩
      show (if true && !s.owner.server.manages then none
        else (poolNext s.pool (.visit allocated)).map _) = _
      rw [hstage.manages, poolNext, hat]
      rfl
  | visited _ _ => exact Or.inl rfl

/-- Whatever the threads do, the table and the clients are in a state that the model of
`shutdown` reaches. -/
theorem thread_reachable_shutdown (hs : threadSystem.Reachable s) :
    shutdownSystem.Reachable s.shutdownState := by
  apply thread_simulates_shutdown.reachable _ _ hs
  · intro start hstart
    rcases hstart with ⟨managePoolState, rfl⟩
    exact ⟨⟨threadStart_invariant managePoolState, rfl⟩, rfl⟩
  · intro t l t' ht hnext
    exact threadNext_pass ht hnext

end Step

end Rpc
end Notnets
