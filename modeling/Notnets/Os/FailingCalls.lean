import Notnets.Os.Kernel

/-!
# Calls that fail

`shm_create` returns -1 and `shm_attach` returns `(void*) -1` when the system
refuses.  Neither ends the program, and neither takes away what other calls have
made.
-/

namespace Notnets
namespace Os

open Foundation
open Queue

def Kernel.failsAt (k : Kernel) (n : Nat) : Bool :=
  (k.faults.drop n).headD false

/-- Which identifiers have a segment. -/
def Kernel.present (k : Kernel) (shmid : Int) : Bool :=
  (k.segments.entries shmid).isSome

theorem present_modify (k : Kernel) (shmid : Int) (f : Segment -> Segment) :
    Kernel.present { k with segments := k.segments.modify shmid f } = k.present := by
  funext id
  unfold Kernel.present IpcTable.modify
  dsimp only
  split
  · exact Option.isSome_map
  · rfl

theorem leaves_writeSegment (address : Option Int) (f : Segment -> Segment) :
    Leaves Kernel.present (writeSegment address f) := by
  cases address with
  | none => exact leaves_throw _
  | some shmid =>
      apply leaves_get_bind
      intro k
      exact present_modify k shmid f

/-!
# Calls that do not end the program
-/

section Avoids

variable {halt : Halt}

theorem avoids_fault : Avoids halt fault := by
  intro k k' h
  have hcases := halts_get_bind.mp h
  split at hcases
  · exact not_halts_pure hcases
  · have hset := halts_set_bind.mp hcases
    exact not_halts_pure hset

theorem avoids_shmCreate (key : Int) (size : Nat) : Avoids halt (shmCreate key size) := by
  apply avoids_bind avoids_fault
  intro failed
  split
  · exact avoids_pure _
  · intro k k' h
    have hcases := halts_get_bind.mp h
    split at hcases
    · split at hcases
      · split at hcases
        · exact not_halts_pure hcases
        · exact not_halts_pure hcases
      · exact not_halts_pure hcases
    · have hset := halts_set_bind.mp hcases
      exact not_halts_pure hset

theorem avoids_shmAttach (shmid : Int) : Avoids halt (shmAttach shmid) := by
  apply avoids_bind avoids_fault
  intro failed
  split
  · exact avoids_pure _
  · intro k k' h
    have hcases := halts_get_bind.mp h
    split at hcases
    · exact not_halts_pure hcases
    · exact not_halts_pure hcases

theorem avoids_writeSegment (shmid : Int) (f : Segment -> Segment) :
    Avoids halt (writeSegment (some shmid) f) := by
  intro k k' h
  exact not_halts_set (halts_get_bind.mp h)

theorem halts_write_none {f : Segment -> Segment} {k k' : Kernel} :
    Halts (writeSegment none f) k halt k' <-> halt = .badAddress ∧ k' = k :=
  halts_throw

theorem avoids_semPost (semid : Int) : Avoids halt (semPost semid) := by
  intro k k' h
  have hcases := halts_get_bind.mp h
  split at hcases
  · have hset := halts_set_bind.mp hcases
    exact not_halts_pure hset
  · exact not_halts_pure hcases

theorem avoids_semRemove (semid : Int) : Avoids halt (semRemove semid) := by
  intro k k' h
  exact not_halts_set (halts_get_bind.mp h)

/-- A `semop` that waits may wait for ever, and does nothing worse. -/
theorem avoids_semWait (hne : halt ≠ .blocked) (semid : Int) :
    Avoids halt (semWait semid) := by
  intro k k' h
  have hcases := halts_get_bind.mp h
  split at hcases
  · split at hcases
    · exact hne (halts_throw.mp hcases).left
    · have hset := halts_set_bind.mp hcases
      exact not_halts_pure hset
  · exact not_halts_pure hcases

theorem avoids_initsem (key : Int) : Avoids halt (initsem key) := by
  intro k k' h
  have hcases := halts_get_bind.mp h
  split at hcases
  · have hmade := halts_set_bind.mp hcases
    refine avoids_bind (avoids_semPost _) ?_ _ _ hmade
    intro posted
    split
    · apply avoids_bind (avoids_semRemove _)
      intro u
      exact avoids_pure _
    · exact avoids_pure _
  · split at hcases
    · split at hcases
      · exact not_halts_pure hcases
      · exact not_halts_pure hcases
    · exact not_halts_pure hcases

end Avoids

/-!
# When a call fails
-/

section Fails

variable {k k' : Kernel} {key shmid : Int} {size : Nat}

theorem failsAt_tail (hfaults : k'.faults = k.faults.tail) (n : Nat) :
    k'.failsAt n = k.failsAt (n + 1) := by
  unfold Kernel.failsAt
  rw [hfaults, List.drop_tail]

theorem callsSucceed_iff {n : Nat} :
    k.CallsSucceed n <-> forall i, i < n -> k.failsAt i = false := by
  induction n generalizing k with
  | zero =>
      unfold Kernel.CallsSucceed
      simp
  | succ n ih =>
      let k1 : Kernel := { k with faults := k.faults.tail }
      have hfaults : k1.faults = k.faults.tail := rfl
      rw [Kernel.callsSucceed_succ hfaults, ih]
      constructor
      · rintro ⟨hnext, hrest⟩ i hi
        cases i with
        | zero => exact hnext
        | succ i =>
            rw [← failsAt_tail hfaults]
            exact hrest i (by lia)
      · intro h
        refine ⟨h 0 (by lia), ?_⟩
        intro i hi
        rw [failsAt_tail hfaults]
        exact h (i + 1) (by lia)

theorem shmCreate_ne_iff (h : Returns (shmCreate key size) k shmid k') :
    shmid ≠ -1 <-> k.failsNext = false ∧ Room k.segments key size := by
  constructor
  · exact (room_of_shmCreate h).right
  · intro hboth
    rcases hboth with ⟨hnext, hroom⟩
    rcases exists_shmCreate hnext hroom with ⟨shmid', k'', h', hne⟩
    rw [(h.unique h').left]
    exact hne

theorem shmCreate_made (h : Returns (shmCreate key size) k shmid k') :
    ((k.failsNext = true ∨ k.segments.find key ≠ none) ∧ k'.segments = k.segments) ∨
      (¬ (k.failsNext = true ∨ k.segments.find key ≠ none) ∧
        k'.present ≠ k.present) := by
  rcases shmCreate_segments h with hleft | ⟨hnext, hfind, hmade⟩
  · exact Or.inl hleft
  · right
    constructor
    · rw [hnext, hfind]
      simp
    · intro hsame
      have hat := congrFun hsame k.segments.next
      have hold := k.segments.fresh k.segments.next (Or.inr (Int.le_refl _))
      unfold Kernel.present at hat
      rw [hmade, IpcTable.insert_self, hold] at hat
      cases hat

theorem room_shmCreate {key' : Int} (h : Returns (shmCreate key size) k shmid k') :
    Room k'.segments key' size <-> Room k.segments key' size := by
  constructor
  · intro hroom
    rcases returns_shmCreate h with ⟨_, ⟨_, hsame⟩ | hopen⟩
    · rw [← hsame]
      exact hroom
    · exact Room.of_opened hopen hroom
  · intro hroom
    rcases shmCreate_segments h with ⟨_, hsame⟩ | ⟨_, hfind, hmade⟩
    · rw [hsame]
      exact hroom
    · rw [hmade]
      intro hne id e hentry hkey
      rcases IpcTable.insert_entry _ hentry with ⟨_, hnew⟩ | hold
      · rw [hnew]
        exact Nat.le_refl _
      · exact hroom hne id e hold hkey

theorem shmCreate_present (h : Returns (shmCreate key size) k shmid k')
    (hne : shmid ≠ -1) : exists e, k'.segments.entries shmid = some e := by
  rcases returns_shmCreate h with ⟨_, ⟨hid, _⟩ | hopen⟩
  · exact absurd hid hne
  · rcases hopen.entry with ⟨e, hentry, _⟩
    exact ⟨e, hentry⟩

theorem shmCreate_kept (h : Returns (shmCreate key size) k shmid k') {id : Int}
    {e : IpcEntry Segment} (hentry : k.segments.entries id = some e) :
    k'.segments.entries id = some e := by
  rcases shmCreate_segments h with ⟨_, hsame⟩ | ⟨_, hfind, hmade⟩
  · rw [hsame]
    exact hentry
  · have hlow := (IpcTable.lt_next hentry).right
    rw [hmade, IpcTable.insert_of_ne _ _ _ (by lia)]
    exact hentry

theorem shmAttach_faults {address : Option Int}
    (h : Returns (shmAttach shmid) k address k') : k'.faults = k.faults.tail := by
  rcases returns_bind.mp h with ⟨failed, k1, hfault, hrest⟩
  rcases returns_fault.mp hfault with ⟨_, hk1⟩
  subst hk1
  split at hrest
  · rw [(returns_pure.mp hrest).right]
  · have hfound := returns_get_bind.mp hrest
    split at hfound
    · rw [(returns_pure.mp hfound).right]
    · rw [(returns_pure.mp hfound).right]

theorem shmAttach_some_iff {address : Option Int}
    (h : Returns (shmAttach shmid) k address k') :
    address = some shmid <->
      k.failsNext = false ∧ exists e, k.segments.entries shmid = some e := by
  constructor
  · intro haddress
    rw [haddress] at h
    rcases returns_shmAttach_some.mp h with ⟨_, hnext, hentry, _⟩
    exact ⟨hnext, hentry⟩
  · intro hboth
    rcases hboth with ⟨hnext, hentry⟩
    have hattached := returns_shmAttach_some.mpr ⟨rfl, hnext, hentry, rfl⟩
    exact (h.unique hattached).left

end Fails

end Os
end Notnets
