import Notnets.Foundation.Halting
import Notnets.Foundation.IpcTable
import Notnets.Queue.Sem

/-!
# Shared memory and semaphores of the system

The calls that the server makes to System V IPC, through `shm_create` and its
siblings or by itself.  A segment leaves the table when it is removed: nobody
can find or attach it any more.
-/

namespace Notnets
namespace Os

open Foundation
open Queue

/-- A segment, seen as the queue region that it is used for. -/
structure Segment where
  size : Nat
  queue : SpscQueue
  /-- The semaphore identifiers in the header of a SEM queue. -/
  semaphores : Semaphore -> Int

def Segment.zero (size : Nat) : Segment where
  size := size
  queue :=
    { header :=
        { head := 0, tail := 0, messageSize := 0, messageOffset := 0,
          queueSize := 0, currentCount := 0, totalCount := 0,
          stopProducerPolling := false, stopConsumerPolling := false }
      mem := fun _ => 0 }
  semaphores := fun _ => 0

structure SemaphoreSet where
  value : Nat
  /-- `sem_otime` is not zero. -/
  operated : Bool
deriving DecidableEq, Repr

structure Kernel where
  segments : IpcTable Segment
  semaphores : IpcTable SemaphoreSet
  /-- Which of the next calls of `shmget` and `shmat` fail; after the end of the
  list none does. -/
  faults : List Bool

abbrev OsM := Effect Halt Kernel

/-- Takes the next entry of `faults`. -/
def fault : OsM Bool := do
  let k <- get
  match k.faults with
  | [] => pure false
  | b :: rest => do
      set { k with faults := rest }
      pure b

/-!
# Segments
-/

/-- `shmget` with `IPC_CREAT`; a segment that exists must be large enough. -/
def shmCreate (key : Int) (size : Nat) : OsM Int := do
  let failed <- fault
  if failed then
    pure (-1)
  else do
    let k <- get
    match hfind : k.segments.find key with
    | some shmid =>
        match k.segments.entries shmid with
        | some e => if size ≤ e.object.size then pure shmid else pure (-1)
        | none => pure (-1)
    | none => do
        set { k with segments := k.segments.insert key (Segment.zero size) hfind }
        pure k.segments.next

/-- The address is named by the segment; `none` is `(void*) -1`. -/
def shmAttach (shmid : Int) : OsM (Option Int) := do
  let failed <- fault
  if failed then
    pure none
  else do
    let k <- get
    match k.segments.entries shmid with
    | some _ => pure (some shmid)
    | none => pure none

def shmRemove (shmid : Int) : OsM Int := do
  let k <- get
  match k.segments.entries shmid with
  | some _ => do
      set { k with segments := k.segments.remove shmid }
      pure 0
  | none => pure (-1)

def writeSegment (address : Option Int) (f : Segment -> Segment) : OsM Unit :=
  match address with
  | none => throw .badAddress
  | some shmid => do
      let k <- get
      set { k with segments := k.segments.modify shmid f }

def readSemaphore (address : Option Int) (which : Semaphore) : OsM Int :=
  match address with
  | none => throw .badAddress
  | some shmid => do
      let k <- get
      match k.segments.entries shmid with
      | some e => pure (e.object.semaphores which)
      | none => throw .badAddress

/-!
# Semaphore sets
-/

/-- `sem_post`: `semop` with 1. -/
def semPost (semid : Int) : OsM Int := do
  let k <- get
  match k.semaphores.entries semid with
  | some _ => do
      set { k with semaphores := k.semaphores.modify semid fun s =>
        { value := s.value + 1, operated := true } }
      pure 0
  | none => pure (-1)

/-- `sem_wait`: `semop` with -1. -/
def semWait (semid : Int) : OsM Int := do
  let k <- get
  match k.semaphores.entries semid with
  | some e =>
      if e.object.value = 0 then
        throw .blocked
      else do
        set { k with semaphores := k.semaphores.modify semid fun s =>
          { value := s.value - 1, operated := true } }
        pure 0
  | none => pure (-1)

/-- `semctl` with `IPC_RMID`. -/
def semRemove (semid : Int) : OsM Unit := do
  let k <- get
  set { k with semaphores := k.semaphores.remove semid }

/-- `_initsem` for one semaphore; a set that exists is taken as it is, once a
`semop` was made on it. -/
def initsem (key : Int) : OsM Int := do
  let k <- get
  match hfind : k.semaphores.find key with
  | none => do
      set { k with semaphores :=
        k.semaphores.insert key { value := 0, operated := false } hfind }
      let posted <- semPost k.semaphores.next
      if posted = -1 then do
        semRemove k.semaphores.next
        pure (-1)
      else
        pure k.semaphores.next
  | some semid =>
      match k.semaphores.entries semid with
      | some e => if e.object.operated then pure semid else pure (-1)
      | none => pure (-1)

/-!
# What the calls change
-/

/-- Whether the next call of `shmget` or `shmat` fails. -/
def Kernel.failsNext (k : Kernel) : Bool :=
  k.faults.headD false

theorem returns_fault {k k' : Kernel} {b : Bool} :
    Returns fault k b k' <->
      b = k.failsNext ∧ k' = { k with faults := k.faults.tail } := by
  cases k with
  | mk segments semaphores faults =>
      unfold fault
      rw [returns_get_bind]
      cases faults with
      | nil => exact returns_pure
      | cons failed rest => exact returns_set_bind.trans returns_pure

theorem returns_shmCreate {key shmid : Int} {size : Nat} {k k' : Kernel}
    (h : Returns (shmCreate key size) k shmid k') :
    k'.semaphores = k.semaphores ∧
      ((shmid = -1 ∧ k'.segments = k.segments) ∨
        IpcTable.Opened key shmid k.segments k'.segments) := by
  rcases returns_bind.mp h with ⟨failed, k1, hfault, hrest⟩
  have hfailed := (returns_fault.mp hfault).right
  have hsegments : k1.segments = k.segments := by rw [hfailed]
  have hsemaphores : k1.semaphores = k.semaphores := by rw [hfailed]
  split at hrest
  · rcases returns_pure.mp hrest with ⟨hid, hk⟩
    rw [hk]
    exact ⟨hsemaphores, Or.inl ⟨hid, hsegments⟩⟩
  · have hfound := returns_get_bind.mp hrest
    split at hfound
    · rename_i id hfind
      split at hfound
      · split at hfound
        · rcases returns_pure.mp hfound with ⟨hid, hk⟩
          rw [hk, hid, ← hsegments]
          exact ⟨hsemaphores, Or.inr (IpcTable.opened_find hfind)⟩
        · rcases returns_pure.mp hfound with ⟨hid, hk⟩
          rw [hk]
          exact ⟨hsemaphores, Or.inl ⟨hid, hsegments⟩⟩
      · rcases returns_pure.mp hfound with ⟨hid, hk⟩
        rw [hk]
        exact ⟨hsemaphores, Or.inl ⟨hid, hsegments⟩⟩
    · rename_i hfind
      have hset := returns_set_bind.mp hfound
      rcases returns_pure.mp hset with ⟨hid, hk⟩
      rw [hk, hid, ← hsegments]
      exact ⟨hsemaphores, Or.inr (IpcTable.opened_insert hfind)⟩

theorem returns_shmAttach {shmid : Int} {address : Option Int} {k k' : Kernel}
    (h : Returns (shmAttach shmid) k address k') :
    k'.segments = k.segments ∧ k'.semaphores = k.semaphores ∧
      (address = none ∨
        (address = some shmid ∧ exists e, k.segments.entries shmid = some e)) := by
  rcases returns_bind.mp h with ⟨failed, k1, hfault, hrest⟩
  have hfailed := (returns_fault.mp hfault).right
  have hsegments : k1.segments = k.segments := by rw [hfailed]
  have hsemaphores : k1.semaphores = k.semaphores := by rw [hfailed]
  split at hrest
  · rcases returns_pure.mp hrest with ⟨haddress, hk⟩
    rw [hk]
    exact ⟨hsegments, hsemaphores, Or.inl haddress⟩
  · have hfound := returns_get_bind.mp hrest
    split at hfound
    · rename_i e hentry
      rcases returns_pure.mp hfound with ⟨haddress, hk⟩
      rw [hk]
      rw [hsegments] at hentry
      exact ⟨hsegments, hsemaphores, Or.inr ⟨haddress, e, hentry⟩⟩
    · rcases returns_pure.mp hfound with ⟨haddress, hk⟩
      rw [hk]
      exact ⟨hsegments, hsemaphores, Or.inl haddress⟩

theorem returns_shmRemove {shmid ret : Int} {k k' : Kernel}
    (h : Returns (shmRemove shmid) k ret k') :
    k'.semaphores = k.semaphores ∧ k'.segments.next = k.segments.next ∧
      k'.segments.entries = Function.update k.segments.entries shmid none := by
  have hcases := returns_get_bind.mp h
  split at hcases
  · have hset := returns_set_bind.mp hcases
    rw [(returns_pure.mp hset).right]
    exact ⟨rfl, rfl, rfl⟩
  · rename_i hnone
    rw [(returns_pure.mp hcases).right]
    refine ⟨rfl, rfl, ?_⟩
    rw [← hnone, Function.update_eq_self]

theorem returns_writeSegment {address : Option Int} {f : Segment -> Segment}
    {u : Unit} {k k' : Kernel} (h : Returns (writeSegment address f) k u k') :
    exists shmid, address = some shmid ∧ k'.semaphores = k.semaphores ∧
      k'.segments = k.segments.modify shmid f := by
  unfold writeSegment at h
  split at h
  · exact absurd h not_returns_throw
  · rename_i shmid
    have hset := returns_get_bind.mp h
    rw [returns_set.mp hset]
    exact ⟨shmid, rfl, rfl, rfl⟩

theorem keeps_readSemaphore (address : Option Int) (which : Semaphore) :
    Keeps id (readSemaphore address which) := by
  intro k a k' h
  unfold readSemaphore at h
  split at h
  · exact absurd h not_returns_throw
  · have hcases := returns_get_bind.mp h
    split at hcases
    · rw [(returns_pure.mp hcases).right]
    · exact absurd hcases not_returns_throw

/-!
# Semaphore operations change nothing but the semaphores
-/

section Semaphores

variable {γ : Type} {view : Kernel -> γ}

theorem leaves_semPost (hview : forall k t, view { k with semaphores := t } = view k)
    (semid : Int) : Leaves view (semPost semid) := by
  apply leaves_get_bind
  intro k
  split
  · rw [lastState_set_bind]
    exact hview _ _
  · rfl

theorem leaves_semWait (hview : forall k t, view { k with semaphores := t } = view k)
    (semid : Int) : Leaves view (semWait semid) := by
  apply leaves_get_bind
  intro k
  split
  · split
    · rfl
    · rw [lastState_set_bind]
      exact hview _ _
  · rfl

theorem leaves_semRemove (hview : forall k t, view { k with semaphores := t } = view k)
    (semid : Int) : Leaves view (semRemove semid) := by
  apply leaves_get_bind
  intro k
  exact hview _ _

theorem leaves_initsem (hview : forall k t, view { k with semaphores := t } = view k)
    (key : Int) : Leaves view (initsem key) := by
  apply leaves_get_bind
  intro k
  split
  · rw [lastState_set_bind]
    have hfree : forall semid posted : Int, Leaves view
        (if posted = -1 then do semRemove semid; pure (-1)
          else pure semid : OsM Int) := by
      intro semid posted
      split
      · apply leaves_bind (leaves_semRemove hview _)
        intro u
        exact leaves_pure _
      · exact leaves_pure _
    exact (leaves_bind (leaves_semPost hview _) (hfree _) _).trans (hview k _)
  · split
    · split
      · rfl
      · rfl
    · rfl

theorem keeps_semWait (hview : forall k t, view { k with semaphores := t } = view k)
    (semid : Int) : Keeps view (semWait semid) :=
  (leaves_semWait hview semid).keeps

theorem keeps_semRemove (hview : forall k t, view { k with semaphores := t } = view k)
    (semid : Int) : Keeps view (semRemove semid) :=
  (leaves_semRemove hview semid).keeps

theorem keeps_initsem (hview : forall k t, view { k with semaphores := t } = view k)
    (key : Int) : Keeps view (initsem key) :=
  (leaves_initsem hview key).keeps

end Semaphores

theorem semWait_segments (semid : Int) : Keeps Kernel.segments (semWait semid) :=
  keeps_semWait (fun _ _ => rfl) semid

theorem semRemove_segments (semid : Int) : Keeps Kernel.segments (semRemove semid) :=
  keeps_semRemove (fun _ _ => rfl) semid

theorem initsem_segments (key : Int) : Keeps Kernel.segments (initsem key) :=
  keeps_initsem (fun _ _ => rfl) key

/-!
# Calls that succeed
-/

/-- None of the next calls of `shmget` and `shmat` fails. -/
def Kernel.CallsSucceed (k : Kernel) (n : Nat) : Prop :=
  forall failed, failed ∈ k.faults.take n -> failed = false

instance (k : Kernel) (n : Nat) : Decidable (k.CallsSucceed n) :=
  inferInstanceAs (Decidable (forall failed, failed ∈ k.faults.take n -> _))

def Room (t : IpcTable Segment) (key : Int) (size : Nat) : Prop :=
  key ≠ 0 -> forall shmid e, t.entries shmid = some e -> e.key = key ->
    size ≤ e.object.size

section Success

variable {k k' : Kernel} {key shmid : Int} {size : Nat}

theorem Kernel.callsSucceed_succ {n : Nat} (hfaults : k'.faults = k.faults.tail) :
    k.CallsSucceed (n + 1) <-> k.failsNext = false ∧ k'.CallsSucceed n := by
  unfold Kernel.CallsSucceed Kernel.failsNext
  rw [hfaults]
  cases k.faults with
  | nil => simp
  | cons failed rest => simp

theorem Kernel.CallsSucceed.next {n : Nat} (h : k.CallsSucceed (n + 1)) :
    k.failsNext = false := by
  let k1 : Kernel := { k with faults := k.faults.tail }
  have hfaults : k1.faults = k.faults.tail := rfl
  exact ((Kernel.callsSucceed_succ hfaults).mp h).left

theorem room_of_shmCreate (h : Returns (shmCreate key size) k shmid k') :
    k'.faults = k.faults.tail ∧
      (shmid ≠ -1 -> k.failsNext = false ∧ Room k.segments key size) := by
  rcases returns_bind.mp h with ⟨failed, k1, hfault, hrest⟩
  rcases returns_fault.mp hfault with ⟨hfailed, hk1⟩
  subst hk1
  split at hrest
  · rcases returns_pure.mp hrest with ⟨hid, hk⟩
    rw [hk]
    exact ⟨rfl, fun hne => absurd hid hne⟩
  · rename_i hno
    have hnext : k.failsNext = false := by rw [← hfailed]; simpa using hno
    have hfound := returns_get_bind.mp hrest
    split at hfound
    · rename_i id hfind
      rcases IpcTable.find_eq_some hfind with ⟨_, e, hentry, hkey⟩
      rw [hentry] at hfound
      dsimp only at hfound
      split at hfound
      · rename_i hsize
        rw [(returns_pure.mp hfound).right]
        refine ⟨rfl, fun _ => ⟨hnext, ?_⟩⟩
        intro hne other e' hentry' hkey'
        have hsame := k.segments.unique other id e' e hentry' hentry
          (hkey'.trans hkey.symm) (by rw [hkey']; exact hne)
        have hentry : k.segments.entries id = some e := hentry
        rw [hsame, hentry] at hentry'
        injection hentry' with hentry'
        rw [← hentry']
        exact hsize
      · rcases returns_pure.mp hfound with ⟨hid, hk⟩
        rw [hk]
        exact ⟨rfl, fun hne => absurd hid hne⟩
    · rename_i hfind
      have hset := returns_set_bind.mp hfound
      rw [(returns_pure.mp hset).right]
      refine ⟨rfl, fun _ => ⟨hnext, ?_⟩⟩
      intro hne other e hentry hkey
      exact absurd hkey (IpcTable.find_eq_none hfind hne hentry)

theorem exists_shmCreate (hnext : k.failsNext = false)
    (hroom : Room k.segments key size) :
    exists shmid k', Returns (shmCreate key size) k shmid k' ∧ shmid ≠ -1 := by
  let k1 : Kernel := { k with faults := k.faults.tail }
  have hfault : Returns fault k false k1 := returns_fault.mpr ⟨hnext.symm, rfl⟩
  have hstart : forall f : Bool -> OsM Int,
      (exists shmid k', Returns (f false) k1 shmid k' ∧ shmid ≠ -1) ->
        exists shmid k', Returns (fault >>= f) k shmid k' ∧ shmid ≠ -1 := by
    intro f hparts
    rcases hparts with ⟨shmid, k', hrest, hid⟩
    exact ⟨shmid, k', returns_bind.mpr ⟨false, k1, hfault, hrest⟩, hid⟩
  apply hstart
  simp only [Bool.false_eq_true, if_false, returns_get_bind]
  split
  · rename_i id hfind
    rcases IpcTable.find_eq_some hfind with ⟨hne, e, hentry, hkey⟩
    have hlow := (IpcTable.lt_next hentry).left
    rw [hentry]
    dsimp only
    rw [if_pos (hroom hne id e hentry hkey)]
    exact ⟨id, k1, returns_pure.mpr ⟨rfl, rfl⟩, by lia⟩
  · exact ⟨k.segments.next, _, returns_set_bind.mpr (returns_pure.mpr ⟨rfl, rfl⟩), by lia⟩

theorem Room.of_opened {key' : Int} {t t' : IpcTable Segment}
    (hopen : IpcTable.Opened key shmid t t') (h : Room t' key' size) :
    Room t key' size := by
  intro hne id e hentry hkey
  apply h hne id e _ hkey
  by_cases hid : id = shmid
  · rw [hid] at hentry ⊢
    exact (hopen.old e hentry).left
  · rw [hopen.other id hid]
    exact hentry

theorem Room.opened {key' : Int} {t t' : IpcTable Segment}
    (hopen : IpcTable.Opened key shmid t t') (hkeys : key = key' -> key = 0)
    (h : Room t key' size) : Room t' key' size := by
  intro hne id e hentry hkey
  apply h hne id e _ hkey
  by_cases hid : id = shmid
  · rcases hopen.entry with ⟨e', hentry', hkey'⟩
    rw [hid, hentry'] at hentry
    injection hentry with hsame
    have heq : key = key' := by rw [← hkey', hsame, hkey]
    rw [hkeys heq] at heq
    exact absurd heq.symm hne
  · rw [← hopen.other id hid]
    exact hentry

theorem shmCreate_opens {n : Nat} (hcalls : k.CallsSucceed (n + 1))
    (hroom : Room k.segments key size) :
    exists shmid k', Returns (shmCreate key size) k shmid k' ∧
      IpcTable.Opened key shmid k.segments k'.segments ∧
      k'.semaphores = k.semaphores ∧ k'.CallsSucceed n := by
  rcases exists_shmCreate hcalls.next hroom with ⟨shmid, k', hmake, hne⟩
  have hrest := (Kernel.callsSucceed_succ (room_of_shmCreate hmake).left).mp hcalls
  rcases returns_shmCreate hmake with ⟨hsemaphores, ⟨hid, _⟩ | hopen⟩
  · exact absurd hid hne
  · exact ⟨shmid, k', hmake, hopen, hsemaphores, hrest.right⟩

theorem returns_shmAttach_some {id : Int} :
    Returns (shmAttach shmid) k (some id) k' <->
      id = shmid ∧ k.failsNext = false ∧ (exists e, k.segments.entries shmid = some e) ∧
        k' = { k with faults := k.faults.tail } := by
  unfold shmAttach
  rw [returns_bind]
  constructor
  · intro hparts
    rcases hparts with ⟨failed, k1, hfault, hrest⟩
    rcases returns_fault.mp hfault with ⟨hfailed, hk1⟩
    subst hk1
    split at hrest
    · rcases returns_pure.mp hrest with ⟨haddress, _⟩
      cases haddress
    · rename_i hno
      have hfound := returns_get_bind.mp hrest
      split at hfound
      · rename_i e hentry
        rcases returns_pure.mp hfound with ⟨haddress, hk⟩
        injection haddress with hid
        exact ⟨hid, by rw [← hfailed]; simpa using hno, ⟨e, hentry⟩, hk⟩
      · rcases returns_pure.mp hfound with ⟨haddress, _⟩
        cases haddress
  · intro hall
    rcases hall with ⟨rfl, hnext, ⟨e, hentry⟩, hk⟩
    refine ⟨false, _, returns_fault.mpr ⟨hnext.symm, rfl⟩, ?_⟩
    apply returns_get_bind.mpr
    dsimp only
    rw [hentry]
    exact returns_pure.mpr ⟨rfl, hk⟩

theorem returns_write {f : Segment -> Segment} {u : Unit} :
    Returns (writeSegment (some shmid) f) k u k' <->
      k' = { k with segments := k.segments.modify shmid f } := by
  unfold writeSegment
  rw [returns_get_bind, returns_set]

structure Kernel.Ready (k : Kernel) (size : Nat) : Prop where
  calls : k.faults = []
  room : forall shmid e, k.segments.entries shmid = some e -> e.key ≠ 0 ->
    size ≤ e.object.size

theorem Kernel.Ready.callsSucceed (h : k.Ready size) (n : Nat) : k.CallsSucceed n := by
  unfold Kernel.CallsSucceed
  rw [h.calls]
  simp

theorem Kernel.Ready.hasRoom (h : k.Ready size) (key : Int) :
    Room k.segments key size := by
  intro hne shmid e hentry hkey
  exact h.room shmid e hentry (by rw [hkey]; exact hne)

theorem Kernel.Ready.of_eq (h : k.Ready size)
    (hview : (k'.segments, k'.faults) = (k.segments, k.faults)) : k'.Ready size := by
  injection hview with hsegments hfaults
  constructor
  · rw [hfaults]
    exact h.calls
  · rw [hsegments]
    exact h.room

theorem ready_fault : Preserves (Kernel.Ready · size) fault := by
  intro k b k' h hready
  rw [(returns_fault.mp h).right]
  exact ⟨by rw [hready.calls]; rfl, hready.room⟩

/-- The call leaves the segments when it fails or its key finds one, and makes one
otherwise. -/
theorem shmCreate_segments (h : Returns (shmCreate key size) k shmid k') :
    ((k.failsNext = true ∨ k.segments.find key ≠ none) ∧ k'.segments = k.segments) ∨
      (k.failsNext = false ∧ exists hfind,
        k'.segments = k.segments.insert key (Segment.zero size) hfind) := by
  rcases returns_bind.mp h with ⟨failed, k1, hfault, hrest⟩
  rcases returns_fault.mp hfault with ⟨hfailed, hk1⟩
  subst hk1
  rw [← hfailed]
  split at hrest
  · rename_i hyes
    rw [(returns_pure.mp hrest).right]
    exact Or.inl ⟨Or.inl hyes, rfl⟩
  · rename_i hno
    have hfound := returns_get_bind.mp hrest
    split at hfound
    · rename_i id hfind
      have hfind : k.segments.find key = some id := hfind
      left
      refine ⟨Or.inr (by rw [hfind]; exact Option.some_ne_none id), ?_⟩
      split at hfound
      · split at hfound
        · rw [(returns_pure.mp hfound).right]
        · rw [(returns_pure.mp hfound).right]
      · rw [(returns_pure.mp hfound).right]
    · rename_i hfind
      have hset := returns_set_bind.mp hfound
      rw [(returns_pure.mp hset).right]
      exact Or.inr ⟨by simpa using hno, hfind, rfl⟩

theorem filled_shmCreate (h : Returns (shmCreate key size) k shmid k') :
    IpcTable.Filled k.segments k'.segments := by
  rcases shmCreate_segments h with ⟨_, hsame⟩ | ⟨_, hfind, hmade⟩
  · rw [hsame]
    exact IpcTable.filled_of_next rfl
  · rw [hmade]
    exact IpcTable.filled_insert hfind

theorem ready_shmCreate (key : Int) {least : Nat} (hleast : least ≤ size) :
    Preserves (Kernel.Ready · least) (shmCreate key size) := by
  intro k shmid k' h hready
  constructor
  · rw [(room_of_shmCreate h).left, hready.calls]
    rfl
  · rcases shmCreate_segments h with ⟨_, hsame⟩ | ⟨_, hfind, hmade⟩
    · rw [hsame]
      exact hready.room
    · rw [hmade]
      intro id e hentry hne
      rcases IpcTable.insert_entry _ hentry with ⟨_, hnew⟩ | hold
      · rw [hnew]
        exact hleast
      · exact hready.room id e hold hne

theorem ready_shmAttach (shmid : Int) :
    Preserves (Kernel.Ready · size) (shmAttach shmid) := by
  apply preserves_bind ready_fault
  intro failed
  split
  · exact preserves_pure _
  · intro k address k' h hready
    have hfound := returns_get_bind.mp h
    split at hfound
    · rw [(returns_pure.mp hfound).right]
      exact hready
    · rw [(returns_pure.mp hfound).right]
      exact hready

theorem ready_writeSegment (address : Option Int) {f : Segment -> Segment}
    (hf : forall segment, (f segment).size = segment.size) :
    Preserves (Kernel.Ready · size) (writeSegment address f) := by
  cases address with
  | none => exact preserves_throw _
  | some shmid =>
      intro k u k' h hready
      rw [returns_write.mp h]
      refine ⟨hready.calls, ?_⟩
      intro id e hentry hne
      rcases IpcTable.modify_entry _ _ hentry with ⟨before, hbefore, hkey, hobject⟩
      have hsize : e.object.size = before.object.size := by
        rw [hobject]
        split
        · exact hf before.object
        · rfl
      rw [hsize]
      exact hready.room id before hbefore (hkey ▸ hne)

theorem ready_of_keeps {α : Type} {act : OsM α}
    (h : Keeps (fun k : Kernel => (k.segments, k.faults)) act) :
    Preserves (Kernel.Ready · size) act :=
  h.preserves fun _ _ hview hready => hready.of_eq hview

end Success

end Os
end Notnets
