import Notnets.Os.SemaphoreSets
import Notnets.Rpc.Isolation

/-!
# The semaphores of a SEM connection

Six keys are derived from a client id, three for each of the two queues.  Keys
that meet each other, or a set that was left behind or is in use, give queues
that share semaphores, or hold values that they must not start with.
-/

namespace Notnets
namespace Rpc

open Coord
open Foundation
open Os
open Queue

/-- The semaphores of a queue, in the order in which they are set up. -/
def queueRequests (keySeed : Int) : List SetRequest :=
  [⟨semaphoreKey keySeed 2, false⟩, ⟨semaphoreKey keySeed 20, true⟩,
    ⟨semaphoreKey keySeed 200, false⟩]

def connectionRequests (clientId : Int) : List SetRequest :=
  queueRequests (clientId.tdiv 2) ++ queueRequests (clientId.tdiv 3)

/-!
# One queue
-/

def withHeader (header : SpscQueueHeader) (segment : Segment) : Segment :=
  { segment with queue := { segment.queue with header := header } }

def withSemaphore (which : Semaphore) (semid : Int) (segment : Segment) : Segment :=
  { segment with semaphores := Function.update segment.semaphores which semid }

def withQueue (t : IpcTable Segment) (shmid : Int) (header : SpscQueueHeader)
    (semFull semEmpty semLock : Int) : IpcTable Segment :=
  (((t.modify shmid (withHeader header)).modify shmid
    (withSemaphore .full semFull)).modify shmid
      (withSemaphore .empty semEmpty)).modify shmid (withSemaphore .lock semLock)

def semaphoreIds (semFull semEmpty semLock : Int) : Semaphore -> Int
  | .full => semFull
  | .empty => semEmpty
  | .lock => semLock

theorem openAll_queueRequests {keySeed : Int} {t t' : IpcTable SemaphoreSet}
    {ids : List Int} :
    openAll (queueRequests keySeed) t = some (ids, t') <->
      exists semFull semEmpty semLock t1 t2 t3,
        ids = [semFull, semEmpty, semLock] ∧
        openSet t (semaphoreKey keySeed 2) = some (semFull, t1) ∧
        openSet t1 (semaphoreKey keySeed 20) = some (semEmpty, t2) ∧
        takeSet t2 semEmpty = some t3 ∧
        openSet t3 (semaphoreKey keySeed 200) = some (semLock, t') := by
  unfold queueRequests
  constructor
  · intro h
    rcases openAll_cons.mp h with ⟨semFull, t1, rest, hfull, h, hids⟩
    rcases openAll_cons.mp h with ⟨semEmpty, t3, rest', hempty, h, hrest⟩
    rcases openAll_cons.mp h with ⟨semLock, t4, rest'', hlock, h, hrest'⟩
    rw [openOne_untaken] at hfull hlock
    rcases openOne_taken.mp hempty with ⟨t2, hempty, htake⟩
    cases h
    subst hrest' hrest hids
    exact ⟨semFull, semEmpty, semLock, t1, t2, t3, rfl, hfull, hempty, htake, hlock⟩
  · intro hparts
    rcases hparts with ⟨semFull, semEmpty, semLock, t1, t2, t3, rfl, hfull, hempty,
      htake, hlock⟩
    refine openAll_cons.mpr ⟨semFull, t1, _, openOne_untaken.trans hfull, ?_, rfl⟩
    refine openAll_cons.mpr ⟨semEmpty, t3, _, openOne_taken.mpr ⟨t2, hempty, htake⟩,
      ?_, rfl⟩
    exact openAll_cons.mpr ⟨semLock, t', _, openOne_untaken.trans hlock, rfl, rfl⟩

section Queue

variable {k k' : Kernel} {shmid : Int} {header : SpscQueueHeader}
  {semFull semEmpty semLock : Int}

theorem withQueue_entry {t : IpcTable Segment} {e : IpcEntry Segment}
    (hentry : t.entries shmid = some e) :
    exists e', (withQueue t shmid header semFull semEmpty semLock).entries shmid =
      some e' ∧ e'.object.semaphores = semaphoreIds semFull semEmpty semLock := by
  have h1 := IpcTable.modify_self t shmid (f := withHeader header) hentry
  have h2 := IpcTable.modify_self _ shmid (f := withSemaphore .full semFull) h1
  have h3 := IpcTable.modify_self _ shmid (f := withSemaphore .empty semEmpty) h2
  have h4 := IpcTable.modify_self _ shmid (f := withSemaphore .lock semLock) h3
  refine ⟨_, h4, ?_⟩
  funext which
  cases which with
  | lock => rfl
  | full => rfl
  | empty => rfl

theorem returns_storeSemaphore {which : Semaphore} {key semid : Int} :
    Returns (storeSemaphore (some shmid) which key) k semid k' <->
      exists t, openSet k.semaphores key = some (semid, t) ∧
        k' = { k with
          semaphores := t
          segments := k.segments.modify shmid (withSemaphore which semid) } := by
  unfold storeSemaphore
  rw [returns_bind]
  constructor
  · intro hparts
    rcases hparts with ⟨opened, k1, hopen, hrest⟩
    rcases returns_bind.mp hrest with ⟨u, k2, hwrite, htest⟩
    have hk2 := returns_write.mp hwrite
    split at htest
    · exact absurd htest not_returns_throw
    · rename_i hne
      rcases returns_pure.mp htest with ⟨hsemid, hk⟩
      rcases (returns_initsem hne).mp hopen with ⟨t, hset, hk1⟩
      subst hk1 hk2 hk hsemid
      exact ⟨t, hset, rfl⟩
  · intro hall
    rcases hall with ⟨t, hset, hk⟩
    have hne := (openSet_ne hset).left
    refine ⟨semid, _, (returns_initsem hne).mpr ⟨t, hset, rfl⟩, ?_⟩
    refine returns_bind.mpr ⟨(), _, returns_write.mpr rfl, ?_⟩
    rw [if_neg hne]
    exact returns_pure.mpr ⟨rfl, hk⟩

theorem returns_semQueueCreateAt {keySeed ret : Int} {shmSize messageSize : Nat} :
    Returns (semQueueCreateAt (some shmid) keySeed shmSize messageSize) k ret k' <->
      exists header, semQueueCreate shmSize messageSize = .ok (header, ret) ∧
        exists semFull semEmpty semLock t,
          openAll (queueRequests keySeed) k.semaphores =
            some ([semFull, semEmpty, semLock], t) ∧
          k' = { k with
            semaphores := t
            segments := withQueue k.segments shmid header semFull semEmpty semLock } := by
  have hentry : forall {t t' : IpcTable SemaphoreSet} {key semid : Int},
      openSet t key = some (semid, t') -> exists e, t'.entries semid = some e :=
    fun hopen => (openSet_ne hopen).right
  unfold semQueueCreateAt
  constructor
  · intro h
    split at h
    · exact absurd h not_returns_throw
    · rename_i header usable hadmitted
      rcases returns_bind.mp h with ⟨u, k1, hwrite, h⟩
      rcases returns_bind.mp h with ⟨semFull, k2, hfull, h⟩
      rcases returns_bind.mp h with ⟨semEmpty, k3, hempty, h⟩
      rcases returns_bind.mp h with ⟨waited, k4, hwait, h⟩
      rcases returns_bind.mp h with ⟨semLock, k5, hlock, h⟩
      rcases returns_pure.mp h with ⟨hret, hk⟩
      have hk1 := returns_write.mp hwrite
      rcases returns_storeSemaphore.mp hfull with ⟨t1, hset1, hk2⟩
      rcases returns_storeSemaphore.mp hempty with ⟨t2, hset2, hk3⟩
      rcases hentry hset2 with ⟨e, he⟩
      rw [hk3] at hwait
      rcases (returns_semWait he).mp hwait with ⟨t3, htake, _, hk4⟩
      rcases returns_storeSemaphore.mp hlock with ⟨t4, hset3, hk5⟩
      subst hk1 hk2 hk4 hk5 hk hret
      exact ⟨header, hadmitted, semFull, semEmpty, semLock, t4,
        openAll_queueRequests.mpr ⟨semFull, semEmpty, semLock, t1, t2, t3, rfl, hset1,
          hset2, htake, hset3⟩, rfl⟩
  · intro hparts
    rcases hparts with ⟨header, hadmitted, semFull, semEmpty, semLock, t, hopen, hk⟩
    rcases openAll_queueRequests.mp hopen with
      ⟨semFull', semEmpty', semLock', t1, t2, t3, hids, hfull, hempty, htake, hlock⟩
    injection hids with hid hids
    injection hids with hid' hids
    injection hids with hid'' _
    subst hid hid' hid''
    rcases hentry hempty with ⟨e, he⟩
    rw [hadmitted]
    refine returns_bind.mpr ⟨(), _, returns_write.mpr rfl, ?_⟩
    refine returns_bind.mpr ⟨semFull, _, returns_storeSemaphore.mpr ⟨t1, hfull, rfl⟩, ?_⟩
    refine returns_bind.mpr ⟨semEmpty, _,
      returns_storeSemaphore.mpr ⟨t2, hempty, rfl⟩, ?_⟩
    refine returns_bind.mpr ⟨0, _, (returns_semWait he).mpr ⟨t3, htake, rfl, rfl⟩, ?_⟩
    refine returns_bind.mpr ⟨semLock, _, returns_storeSemaphore.mpr ⟨t, hlock, rfl⟩, ?_⟩
    exact returns_pure.mpr ⟨rfl, hk⟩

end Queue

/-!
# The connection
-/

def HasSemaphores (t : IpcTable Segment) (shmid : Int) (ids : Semaphore -> Int) : Prop :=
  exists e, t.entries shmid = some e ∧ e.object.semaphores = ids

structure SemAllocated (messageSize clientId : Int) (shms : ShmPair)
    (k k' : Kernel) : Prop where
  calls : k.CallsSucceed 4
  segments : AllocatedByKeys (derivedKeys .sem clientId) k.segments k'.segments shms
  room : forall key, HasKey (derivedKeys .sem clientId) key ->
    Room k.segments key queueRegionSize
  admitted : exists result,
    semQueueCreate queueRegionSize (toSizeT messageSize) = .ok result
  opened : exists semFull semEmpty semLock semFull' semEmpty' semLock',
    openAll (connectionRequests clientId) k.semaphores =
      some ([semFull, semEmpty, semLock, semFull', semEmpty', semLock'],
        k'.semaphores) ∧
    (shms.requestShm.shmid ≠ shms.responseShm.shmid ->
      HasSemaphores k'.segments shms.requestShm.shmid
        (semaphoreIds semFull semEmpty semLock)) ∧
    HasSemaphores k'.segments shms.responseShm.shmid
      (semaphoreIds semFull' semEmpty' semLock')

section Allocator

variable {messageSize clientId : Int} {shms : ShmPair} {k k' : Kernel}

theorem hasSemaphores_withQueue {t : IpcTable Segment} {shmid : Int}
    {e : IpcEntry Segment} (hentry : t.entries shmid = some e) {header : SpscQueueHeader}
    {semFull semEmpty semLock : Int} :
    HasSemaphores (withQueue t shmid header semFull semEmpty semLock) shmid
      (semaphoreIds semFull semEmpty semLock) :=
  withQueue_entry hentry

theorem HasSemaphores.touched {t t' : IpcTable Segment} {shmid other : Int}
    {ids : Semaphore -> Int} (h : HasSemaphores t shmid ids)
    (htouched : IpcTable.Touched other t t') (hne : shmid ≠ other) :
    HasSemaphores t' shmid ids := by
  unfold HasSemaphores
  rw [htouched.other shmid hne]
  exact h

theorem semAllocated_of_returns
    (h : Returns (hashSemShmAllocator messageSize clientId) k shms k') :
    SemAllocated messageSize clientId shms k k' := by
  have hsegments : AllocatedByKeys (derivedKeys .sem clientId) k.segments k'.segments
      shms :=
    keyedAllocator_keys (writesAt_semQueueCreate _ _) h
  rcases returns_bind.mp h with ⟨request, k1, hmake1, h⟩
  rcases returns_bind.mp h with ⟨response, k2, hmake2, h⟩
  rcases returns_bind.mp h with ⟨requestAddr, k3, hattach1, h⟩
  rcases returns_bind.mp h with ⟨responseAddr, k4, hattach2, h⟩
  rcases returns_bind.mp h with ⟨ret1, k5, hcreate1, h⟩
  rcases returns_bind.mp h with ⟨ret2, k6, hcreate2, h⟩
  rcases returns_pure.mp h with ⟨hshms, hk⟩
  rcases writesAt_semQueueCreate _ _ _ _ _ _ _ hcreate1 with ⟨id1, hid1, htouch1⟩
  rcases writesAt_semQueueCreate _ _ _ _ _ _ _ hcreate2 with ⟨id2, hid2, htouch2⟩
  subst hid1 hid2
  rcases returns_shmAttach_some.mp hattach1 with ⟨hid1, hnext3, ⟨e1, he1⟩, hk3⟩
  rcases returns_shmAttach_some.mp hattach2 with ⟨hid2, hnext4, ⟨e2, he2⟩, hk4⟩
  subst hid1 hid2 hk3 hk4 hk
  rcases returns_semQueueCreateAt.mp hcreate1 with
    ⟨header1, hadmitted, semFull, semEmpty, semLock, t1, hopened1, hk5⟩
  rcases returns_semQueueCreateAt.mp hcreate2 with
    ⟨header2, _, semFull', semEmpty', semLock', t2, hopened2, hk6⟩
  rcases room_of_shmCreate hmake1 with ⟨hfaults1, hmade1⟩
  rcases room_of_shmCreate hmake2 with ⟨hfaults2, hmade2⟩
  have hne1 : id1 ≠ -1 := by
    have hlow := (IpcTable.lt_next he1).left
    lia
  have hne2 : id2 ≠ -1 := by
    have hlow := (IpcTable.lt_next he2).left
    lia
  rcases hmade1 hne1 with ⟨hnext1, hroom1⟩
  rcases hmade2 hne2 with ⟨hnext2, hroom2⟩
  have hopen1 := opened_of_attach (returns_shmCreate hmake1).right he1
  have hsem1 := (returns_shmCreate hmake1).left
  have hsem2 := (returns_shmCreate hmake2).left
  let k3 : Kernel := { k2 with faults := k2.faults.tail }
  have hfaults3 : k3.faults = k2.faults.tail := rfl
  let k4 : Kernel := { k3 with faults := k3.faults.tail }
  have hfaults4 : k4.faults = k3.faults.tail := rfl
  rw [hshms]
  constructor
  · refine (Kernel.callsSucceed_succ hfaults1).mpr ⟨hnext1, ?_⟩
    refine (Kernel.callsSucceed_succ hfaults2).mpr ⟨hnext2, ?_⟩
    refine (Kernel.callsSucceed_succ hfaults3).mpr ⟨hnext3, ?_⟩
    refine (Kernel.callsSucceed_succ hfaults4).mpr ⟨hnext4, ?_⟩
    intro failed hmem
    cases hmem
  · rw [← hshms]
    exact hsegments
  · intro key hkey
    rcases hkey with hkey | hkey
    · rw [← hkey]
      exact hroom1
    · rw [← hkey]
      exact hroom2.of_opened hopen1
  · exact ⟨_, hadmitted⟩
  · refine ⟨semFull, semEmpty, semLock, semFull', semEmpty', semLock', ?_, ?_, ?_⟩
    · rw [← hsem1, ← hsem2]
      rw [hk5] at hopened2
      subst hk6
      exact openAll_append.mpr ⟨t1, _, _, hopened1, hopened2, rfl⟩
    · intro hne
      have hqueue : HasSemaphores k5.segments id1
          (semaphoreIds semFull semEmpty semLock) := by
        rw [hk5]
        exact hasSemaphores_withQueue he1
      exact hqueue.touched htouch2 hne
    · rcases htouch1.entry he2 with ⟨e3, he3, _⟩
      rw [hk6]
      exact hasSemaphores_withQueue he3

theorem exists_hashSem (hcalls : k.CallsSucceed 4)
    (hkeys : clientId.tdiv 2 = clientId.tdiv 3 -> clientId.tdiv 2 = 0)
    (hroom : forall key, HasKey (derivedKeys .sem clientId) key ->
      Room k.segments key queueRegionSize)
    (hadmitted : exists result,
      semQueueCreate queueRegionSize (toSizeT messageSize) = .ok result)
    (hopened : exists ids t,
      openAll (connectionRequests clientId) k.semaphores = some (ids, t)) :
    exists shms k', Returns (hashSemShmAllocator messageSize clientId) k shms k' := by
  rcases hadmitted with ⟨⟨header, usable⟩, hadmitted⟩
  rcases hopened with ⟨ids, t, hopened⟩
  rcases openAll_append.mp hopened with ⟨t1, first, second, hopened1, hopened2, _⟩
  rcases openAll_queueRequests.mp hopened1 with
    ⟨semFull, semEmpty, semLock, _, _, _, hfirst, _⟩
  rcases openAll_queueRequests.mp hopened2 with
    ⟨semFull', semEmpty', semLock', _, _, _, hsecond, _⟩
  subst hfirst hsecond
  let Made : Kernel -> Prop := fun k5 => k5.semaphores = t1
  have hwrites := writesAt_semQueueCreate queueRegionSize (toSizeT messageSize)
  apply exists_keyedAllocator Made hwrites hcalls hkeys (hroom _ (Or.inl rfl))
    (hroom _ (Or.inr rfl))
  · intro shmid k4 e hsame _
    rw [← hsame] at hopened1
    exact ⟨usable, _, returns_semQueueCreateAt.mpr
      ⟨header, hadmitted, semFull, semEmpty, semLock, t1, hopened1, rfl⟩, rfl⟩
  · intro shmid k5 e hmade _
    rw [← hmade] at hopened2
    exact ⟨usable, _, returns_semQueueCreateAt.mpr
      ⟨header, hadmitted, semFull', semEmpty', semLock', t, hopened2, rfl⟩⟩

end Allocator

/-!
# Private semaphores
-/

def allSemaphores (request response : Semaphore -> Int) : List Int :=
  [request .full, request .empty, request .lock, response .full, response .empty,
    response .lock]

def HasValue (t : IpcTable SemaphoreSet) (semid : Int) (value : Nat) : Prop :=
  exists e, t.entries semid = some e ∧ e.object.value = value

structure FreshQueue (k : Kernel) (shmid : Int) (ids : Semaphore -> Int) : Prop where
  region : HasSemaphores k.segments shmid ids
  lock : HasValue k.semaphores (ids .lock) 1
  full : HasValue k.semaphores (ids .full) 1
  empty : HasValue k.semaphores (ids .empty) 0

def QueueElsewhere (header : CoordHeader) (slot : Slot) (shmid : Int) : Prop :=
  exists j, j ≠ slot ∧ Live header j ∧ (header.slots j).type = .sem ∧
    Uses (header.slots j) shmid

def SemaphoreElsewhere (header : CoordHeader) (t : IpcTable Segment) (slot : Slot)
    (semid : Int) : Prop :=
  exists shmid ids which, QueueElsewhere header slot shmid ∧ HasSemaphores t shmid ids ∧
    ids which = semid

structure PrivateQueues (header : CoordHeader) (k : Kernel) (slot : Slot)
    (request response : Semaphore -> Int) : Prop where
  requestQueue : FreshQueue k (header.slots slot).shms.requestShm.shmid request
  responseQueue : FreshQueue k (header.slots slot).shms.responseShm.shmid response
  distinct : (allSemaphores request response).Nodup
  unused : forall semid, semid ∈ allSemaphores request response ->
    ¬ SemaphoreElsewhere header k.segments slot semid

/-- The identifiers that live SEM connections of other slots hold were given out. -/
def GivenOut (header : CoordHeader) (k : Kernel) (slot : Slot) : Prop :=
  forall shmid, QueueElsewhere header slot shmid -> shmid < k.segments.next ∧
    forall ids which, HasSemaphores k.segments shmid ids -> ids which < k.semaphores.next

/-- The calls of the allocator succeed, and none of the keys that it derives is
used twice, or finds anything but what is as good as new and used by nobody. -/
structure SemaphoresFree (header : CoordHeader) (k : Kernel) (slot : Slot) : Prop where
  calls : k.CallsSucceed 4
  admitted : exists result, semQueueCreate queueRegionSize
    (toSizeT (header.slots slot).messageSize) = .ok result
  pair : (header.slots slot).clientId.tdiv 2 = (header.slots slot).clientId.tdiv 3 ->
    (header.slots slot).clientId.tdiv 2 = 0
  room : forall key, HasKey (derivedKeys .sem (header.slots slot).clientId) key ->
    Room k.segments key queueRegionSize
  unshared : forall shmid e, k.segments.entries shmid = some e -> e.key ≠ 0 ->
    HasKey (derivedKeys .sem (header.slots slot).clientId) e.key ->
    ¬ QueueElsewhere header slot shmid
  free : KeysFree (connectionRequests (header.slots slot).clientId) k.semaphores
  unused : forall r semid e, r ∈ connectionRequests (header.slots slot).clientId ->
    r.key ≠ 0 -> k.semaphores.entries semid = some e -> e.key = r.key ->
    ¬ SemaphoreElsewhere header k.segments slot semid

section Private

variable {header : CoordHeader} {slot : Slot} {k k' : Kernel}
  {request response : Semaphore -> Int}

theorem HasSemaphores.unique {t : IpcTable Segment} {shmid : Int}
    {ids ids' : Semaphore -> Int} (h : HasSemaphores t shmid ids)
    (h' : HasSemaphores t shmid ids') : ids = ids' := by
  rcases h with ⟨e, he, hids⟩
  rcases h' with ⟨e', he', hids'⟩
  rw [he] at he'
  injection he' with hsame
  rw [← hids, ← hids', hsame]

theorem queueElsewhere_setRow {row : CoordRow} {shmid : Int} :
    QueueElsewhere (header.setRow slot row) slot shmid <->
      QueueElsewhere header slot shmid := by
  have hlive : forall j, j ≠ slot ->
      (Live (header.setRow slot row) j <-> Live header j) := by
    intro j hj
    unfold Live
    rw [CoordHeader.setRow_slots_of_ne _ _ _ hj, CoordHeader.setRow_clientReserved]
  constructor
  · intro hparts
    rcases hparts with ⟨j, hj, hlivej, htype, hu⟩
    rw [CoordHeader.setRow_slots_of_ne _ _ _ hj] at htype hu
    exact ⟨j, hj, (hlive j hj).mp hlivej, htype, hu⟩
  · intro hall
    rcases hall with ⟨j, hj, hlivej, htype, hu⟩
    refine ⟨j, hj, (hlive j hj).mpr hlivej, ?_, ?_⟩
    · rw [CoordHeader.setRow_slots_of_ne _ _ _ hj]
      exact htype
    · rw [CoordHeader.setRow_slots_of_ne _ _ _ hj]
      exact hu

theorem serviceSlot_returns_iff (hneeds : NeedsService header slot)
    {allocation : Int -> Int -> OsM ShmPair} {result : CoordHeader × Int} :
    Returns (serviceSlot header slot allocation) k result k' <->
      exists shms, Returns (allocation (header.slots slot).messageSize
          (header.slots slot).clientId) k shms k' ∧
        result = (header.setRow slot
          { header.slots slot with shms := shms, shmCreated := true },
          (header.slots slot).clientId) := by
  unfold serviceSlot
  dsimp only
  rw [if_pos (by rw [hneeds.left, hneeds.right]; rfl), returns_bind]
  constructor
  · intro hparts
    rcases hparts with ⟨shms, k1, halloc, hpure⟩
    rcases returns_pure.mp hpure with ⟨hresult, hk⟩
    rw [hk]
    exact ⟨shms, halloc, hresult⟩
  · intro hall
    rcases hall with ⟨shms, halloc, hresult⟩
    exact ⟨shms, k', halloc, returns_pure.mpr ⟨hresult, rfl⟩⟩

theorem found_of_elsewhere (hgiven : GivenOut header k slot) {shms : ShmPair}
    (halloc : AllocatedByKeys (derivedKeys .sem (header.slots slot).clientId) k.segments
      k'.segments shms)
    {shmid : Int} (helse : QueueElsewhere header slot shmid)
    (hopened : shmid = shms.requestShm.shmid ∨ shmid = shms.responseShm.shmid) :
    exists e, k.segments.entries shmid = some e ∧ e.key ≠ 0 ∧
      HasKey (derivedKeys .sem (header.slots slot).clientId) e.key := by
  have hlt := (hgiven shmid helse).left
  cases hentry : k.segments.entries shmid with
  | none =>
      have hnew := halloc.opened_new hopened hentry
      lia
  | some e =>
      rcases halloc.opened_key hopened hentry with ⟨hkey, hne⟩
      exact ⟨e, rfl, hne, hkey⟩

theorem semaphoreElsewhere_iff (hgiven : GivenOut header k slot) {shms : ShmPair}
    (halloc : AllocatedByKeys (derivedKeys .sem (header.slots slot).clientId) k.segments
      k'.segments shms)
    (hunshared : forall shmid e, k.segments.entries shmid = some e -> e.key ≠ 0 ->
      HasKey (derivedKeys .sem (header.slots slot).clientId) e.key ->
      ¬ QueueElsewhere header slot shmid) {semid : Int} :
    SemaphoreElsewhere header k'.segments slot semid <->
      SemaphoreElsewhere header k.segments slot semid := by
  have hsame : forall shmid, QueueElsewhere header slot shmid ->
      k'.segments.entries shmid = k.segments.entries shmid := by
    intro shmid helse
    by_cases hopened : shmid = shms.requestShm.shmid ∨ shmid = shms.responseShm.shmid
    · rcases found_of_elsewhere hgiven halloc helse hopened with ⟨e, hentry, hne, hkey⟩
      exact absurd helse (hunshared shmid e hentry hne hkey)
    · rw [not_or] at hopened
      exact halloc.other shmid hopened.left hopened.right
  unfold SemaphoreElsewhere HasSemaphores
  constructor
  · intro hparts
    rcases hparts with ⟨shmid, ids, which, helse, hids, hsemid⟩
    rw [hsame shmid helse] at hids
    exact ⟨shmid, ids, which, helse, hids, hsemid⟩
  · intro hall
    rcases hall with ⟨shmid, ids, which, helse, hids, hsemid⟩
    rw [← hsame shmid helse] at hids
    exact ⟨shmid, ids, which, helse, hids, hsemid⟩

theorem firstValues_iff {t : IpcTable SemaphoreSet} {clientId : Int} :
    FirstValues t (connectionRequests clientId) (allSemaphores request response) <->
      (HasValue t (request .full) 1 ∧ HasValue t (request .empty) 0 ∧
        HasValue t (request .lock) 1) ∧
      (HasValue t (response .full) 1 ∧ HasValue t (response .empty) 0 ∧
        HasValue t (response .lock) 1) := by
  unfold FirstValues connectionRequests queueRequests allSemaphores HasValue
  simp [SetRequest.value, and_assoc]

theorem semaphoreElsewhere_setRow {row : CoordRow} {t : IpcTable Segment} {semid : Int} :
    SemaphoreElsewhere (header.setRow slot row) t slot semid <->
      SemaphoreElsewhere header t slot semid := by
  unfold SemaphoreElsewhere
  simp only [queueElsewhere_setRow]

theorem semaphoresFree_of_private (hgiven : GivenOut header k slot) {shms : ShmPair}
    (halloc : SemAllocated (header.slots slot).messageSize (header.slots slot).clientId
      shms k k')
    (hprivate : PrivateQueues (header.setRow slot
      { header.slots slot with shms := shms, shmCreated := true }) k' slot
      request response) :
    SemaphoresFree header k slot := by
  have hrequest := hprivate.requestQueue
  have hresponse := hprivate.responseQueue
  rw [CoordHeader.setRow_slots_self] at hrequest hresponse
  have hids : shms.requestShm.shmid ≠ shms.responseShm.shmid := by
    intro heq
    have hregion := hrequest.region
    rw [heq] at hregion
    have hsame := hregion.unique hresponse.region
    have hdistinct := hprivate.distinct
    rw [hsame] at hdistinct
    simp [allSemaphores] at hdistinct
  rcases halloc.opened with ⟨semFull, semEmpty, semLock, semFull', semEmpty', semLock',
    hopened, hregion, hregion'⟩
  have hfirst := (hregion hids).unique hrequest.region
  have hsecond := hregion'.unique hresponse.region
  subst hfirst hsecond
  have hshape : allSemaphores (semaphoreIds semFull semEmpty semLock)
      (semaphoreIds semFull' semEmpty' semLock') =
        [semFull, semEmpty, semLock, semFull', semEmpty', semLock'] := rfl
  rw [← hshape] at hopened
  have hunshared : forall shmid e, k.segments.entries shmid = some e -> e.key ≠ 0 ->
      HasKey (derivedKeys .sem (header.slots slot).clientId) e.key ->
      ¬ QueueElsewhere header slot shmid := by
    intro shmid e hentry hne hkey helse
    have hopen := opened_of_hasKey halloc.segments hentry hne hkey
    have hmem : exists ids which, HasSemaphores k'.segments shmid ids ∧
        ids which ∈ allSemaphores (semaphoreIds semFull semEmpty semLock)
          (semaphoreIds semFull' semEmpty' semLock') := by
      rcases hopen with hid | hid
      · refine ⟨_, .full, by rw [← hid]; exact hregion hids, ?_⟩
        simp [allSemaphores]
      · refine ⟨_, .full, by rw [← hid]; exact hregion', ?_⟩
        simp [allSemaphores]
    rcases hmem with ⟨ids, which, hhas, hmem⟩
    apply hprivate.unused _ hmem
    exact semaphoreElsewhere_setRow.mpr ⟨shmid, ids, which, helse, hhas, rfl⟩
  have hvalues : FirstValues k'.semaphores
      (connectionRequests (header.slots slot).clientId)
      (allSemaphores (semaphoreIds semFull semEmpty semLock)
        (semaphoreIds semFull' semEmpty' semLock')) :=
    firstValues_iff.mpr ⟨⟨hrequest.full, hrequest.empty, hrequest.lock⟩,
      hresponse.full, hresponse.empty, hresponse.lock⟩
  constructor
  · exact halloc.calls
  · exact halloc.admitted
  · intro hkeys
    by_contra hne
    apply hids
    rcases halloc.segments.request with ⟨e, hentry, hkey⟩
    rcases halloc.segments.response with ⟨e', hentry', hkey'⟩
    apply k'.segments.unique _ _ e e' hentry hentry'
    · rw [hkey, hkey']
      exact hkeys
    · rw [hkey]
      exact hne
  · exact halloc.room
  · exact hunshared
  · exact keysFree_of_openAll hopened hprivate.distinct hvalues
  · intro r semid e hr hne hentry hkey helse
    apply hprivate.unused semid (openAll_finds hopened hr hne hentry hkey)
    apply semaphoreElsewhere_setRow.mpr
    exact (semaphoreElsewhere_iff hgiven halloc.segments hunshared).mpr helse

theorem private_of_semaphoresFree (hneeds : NeedsService header slot)
    (hgiven : GivenOut header k slot) (hfree : SemaphoresFree header k slot) :
    exists result k' request response,
      Returns (serviceSlot header slot hashSemShmAllocator) k result k' ∧
        PrivateQueues result.1 k' slot request response := by
  rcases exists_openAll hfree.free with ⟨ids, t, hopened, hdistinct, hvalues⟩
  rcases exists_hashSem hfree.calls hfree.pair hfree.room hfree.admitted
    ⟨ids, t, hopened⟩ with ⟨shms, k', hreturns⟩
  have halloc := semAllocated_of_returns hreturns
  rcases halloc.opened with ⟨semFull, semEmpty, semLock, semFull', semEmpty', semLock',
    hopened', hregion, hregion'⟩
  rw [hopened] at hopened'
  injection hopened' with hopened'
  injection hopened' with hids ht
  have hshape : ids = allSemaphores (semaphoreIds semFull semEmpty semLock)
      (semaphoreIds semFull' semEmpty' semLock') := hids
  rw [hshape] at hopened hdistinct hvalues
  rw [ht] at hopened hvalues
  rcases firstValues_iff.mp hvalues with ⟨⟨hfull, hempty, hlock⟩, hfull', hempty', hlock'⟩
  have hne : shms.requestShm.shmid ≠ shms.responseShm.shmid := by
    intro heq
    rcases halloc.segments.distinct heq with ⟨hkeys, hzero⟩
    exact hzero (hfree.pair hkeys)
  refine ⟨_, k', semaphoreIds semFull semEmpty semLock,
    semaphoreIds semFull' semEmpty' semLock',
    (serviceSlot_returns_iff hneeds).mpr ⟨shms, hreturns, rfl⟩, ?_⟩
  constructor
  · rw [CoordHeader.setRow_slots_self]
    exact ⟨hregion hne, hlock, hfull, hempty⟩
  · rw [CoordHeader.setRow_slots_self]
    exact ⟨hregion', hlock', hfull', hempty'⟩
  · exact hdistinct
  · intro semid hmem helse
    have hbefore := (semaphoreElsewhere_iff hgiven halloc.segments hfree.unshared).mp
      (semaphoreElsewhere_setRow.mp helse)
    rcases openAll_mem hopened hmem with hnew | ⟨r, e, hr, hkeyne, hentry, hkey⟩
    · rcases hbefore with ⟨shmid, ids', which, hqueue, hhas, hsemid⟩
      have hlt := (hgiven shmid hqueue).right ids' which hhas
      lia
    · exact hfree.unused r semid e hr hkeyne hentry hkey hbefore

theorem semaphoresFree_of_find (hcalls : k.CallsSucceed 4)
    (hadmitted : exists result, semQueueCreate queueRegionSize
      (toSizeT (header.slots slot).messageSize) = .ok result)
    (hpair : (header.slots slot).clientId.tdiv 2 = (header.slots slot).clientId.tdiv 3 ->
      (header.slots slot).clientId.tdiv 2 = 0)
    (hdistinct : (connectionRequests (header.slots slot).clientId).Pairwise
      fun r r' => r.key = r'.key -> r.key = 0)
    (hsegments : forall key, HasKey (derivedKeys .sem (header.slots slot).clientId) key ->
      k.segments.find key = none)
    (hsemaphores : forall r, r ∈ connectionRequests (header.slots slot).clientId ->
      k.semaphores.find r.key = none) :
    SemaphoresFree header k slot := by
  have hsegment : forall shmid e, k.segments.entries shmid = some e -> e.key ≠ 0 ->
      ¬ HasKey (derivedKeys .sem (header.slots slot).clientId) e.key :=
    fun shmid e hentry hne hkey =>
      IpcTable.find_eq_none (hsegments e.key hkey) hne hentry rfl
  have hsemaphore : forall r, r ∈ connectionRequests (header.slots slot).clientId ->
      r.key ≠ 0 -> forall semid e, k.semaphores.entries semid = some e ->
        e.key ≠ r.key :=
    fun r hr hne semid e hentry =>
      IpcTable.find_eq_none (hsemaphores r hr) hne hentry
  constructor
  · exact hcalls
  · exact hadmitted
  · exact hpair
  · intro key hkey hne shmid e hentry heq
    rw [← heq] at hkey hne
    exact absurd hkey (hsegment shmid e hentry hne)
  · intro shmid e hentry hne hkey
    exact absurd hkey (hsegment shmid e hentry hne)
  · exact ⟨hdistinct, fun r hr hne semid e hentry heq =>
      absurd heq (hsemaphore r hr hne semid e hentry)⟩
  · intro r semid e hr hne hentry heq
    exact absurd heq (hsemaphore r hr hne semid e hentry)

/--
Servicing a SEM connection returns, and gives its two queues private semaphores
with their first values, if and only if nothing stands in the way under any of
its keys.
-/
theorem sem_service_private (hneeds : NeedsService header slot)
    (hgiven : GivenOut header k slot) :
    (exists result k' request response,
      Returns (serviceSlot header slot hashSemShmAllocator) k result k' ∧
        PrivateQueues result.1 k' slot request response) <->
      SemaphoresFree header k slot := by
  constructor
  · intro hparts
    rcases hparts with ⟨result, k', request, response, hreturns, hprivate⟩
    rcases (serviceSlot_returns_iff hneeds).mp hreturns with ⟨shms, halloc, hresult⟩
    rw [hresult] at hprivate
    exact semaphoresFree_of_private hgiven (semAllocated_of_returns halloc) hprivate
  · exact private_of_semaphoresFree hneeds hgiven

end Private

/-!
# Two client ids
-/

def emptyKernel : Kernel where
  segments := IpcTable.empty
  semaphores := IpcTable.empty
  faults := []

def semRequested (clientId : Int) : CoordHeader :=
  (requestSlot CoordHeader.zero clientId 64 .sem).1

theorem semRequested_reserved (clientId : Int) (slot : Slot) :
    (semRequested clientId).clientReserved slot = true <-> slot = firstSlot := by
  have hfree : freeSlot CoordHeader.zero = some firstSlot := by decide
  unfold semRequested requestSlot
  rw [hfree]
  by_cases hslot : slot = firstSlot
  · rw [hslot, CoordHeader.setReserved_clientReserved_self]
    simp
  · rw [CoordHeader.setReserved_clientReserved_of_ne _ _ _ hslot]
    simp [hslot, CoordHeader.setRow, CoordHeader.zero]

theorem semRequested_givenOut (clientId : Int) (k : Kernel) :
    GivenOut (semRequested clientId) k firstSlot := by
  intro shmid hparts
  rcases hparts with ⟨j, hj, hlive, _⟩
  exact absurd ((semRequested_reserved clientId j).mp hlive.left) hj

def secondSlot : Slot :=
  ⟨1, by decide⟩

def secondRequested : CoordHeader × Kernel :=
  match returnOf (serviceSlot (semRequested 1000) firstSlot hashSemShmAllocator)
      emptyKernel with
  | some result => ((requestSlot result.1.1 2000 64 .sem).1, result.2)
  | none => (CoordHeader.zero, emptyKernel)

def rowGivenOut (k : Kernel) (row : CoordRow) : Bool :=
  [row.shms.requestShm.shmid, row.shms.responseShm.shmid].all fun shmid =>
    decide (shmid < (k.segments.next : Int)) &&
      (k.segments.entries shmid).all fun e =>
        [Semaphore.lock, .full, .empty].all fun which =>
          decide (e.object.semaphores which < (k.semaphores.next : Int))

theorem givenOut_of_check {header : CoordHeader} {k : Kernel} {slot : Slot}
    (hcheck : forall j, rowGivenOut k (header.slots j) = true) :
    GivenOut header k slot := by
  intro shmid helse
  rcases helse with ⟨j, _, _, _, huses⟩
  have hmem : shmid ∈ [(header.slots j).shms.requestShm.shmid,
      (header.slots j).shms.responseShm.shmid] := by
    rcases huses with hid | hid
    · simp [hid]
    · simp [hid]
  have hrow := List.all_eq_true.mp (hcheck j) shmid hmem
  rw [Bool.and_eq_true, decide_eq_true_iff] at hrow
  refine ⟨hrow.left, ?_⟩
  intro ids which hhas
  rcases hhas with ⟨e, hentry, hids⟩
  have hsets := hrow.right
  rw [hentry, Option.all_some] at hsets
  have hwhich : which ∈ [Semaphore.lock, .full, .empty] := by cases which <;> simp
  rw [← hids]
  exact of_decide_eq_true (List.all_eq_true.mp hsets which hwhich)

/-- The keys of the client 2000 are 1000 and 666, those of the client 1000 are 500
and 333. -/
theorem sem_service_private_second :
    QueueElsewhere secondRequested.1 secondSlot 0 ∧
      exists result k' request response,
        Returns (serviceSlot secondRequested.1 secondSlot hashSemShmAllocator)
          secondRequested.2 result k' ∧
        PrivateQueues result.1 k' secondSlot request response := by
  have hneeds : NeedsService secondRequested.1 secondSlot := by decide +kernel
  have hgiven : GivenOut secondRequested.1 secondRequested.2 secondSlot :=
    givenOut_of_check (by decide +kernel)
  have helse : secondSlot ≠ firstSlot ∧ Live secondRequested.1 firstSlot ∧
      (secondRequested.1.slots firstSlot).type = .sem ∧
      (secondRequested.1.slots firstSlot).shms.requestShm.shmid = 0 := by
    decide +kernel
  have hrow : (secondRequested.1.slots secondSlot).clientId = 2000 ∧
      (secondRequested.1.slots secondSlot).messageSize = 64 := by
    decide +kernel
  have hfree : SemaphoresFree secondRequested.1 secondRequested.2 secondSlot := by
    apply semaphoresFree_of_find
    · decide +kernel
    · rw [hrow.right]
      exact ⟨_, rfl⟩
    · rw [hrow.left]
      decide
    · rw [hrow.left]
      decide
    · rw [hrow.left]
      intro key hkey
      rcases hkey with hkey | hkey
      · rw [← hkey]
        decide +kernel
      · rw [← hkey]
        decide +kernel
    · rw [hrow.left]
      decide +kernel
  rcases helse with ⟨hne, hlive, htype, hid⟩
  exact ⟨⟨firstSlot, hne.symm, hlive, htype, Or.inl hid⟩,
    (sem_service_private hneeds hgiven).mpr hfree⟩

def fullOf (k : Kernel) (shmid : Int) : Option Int :=
  (k.segments.entries shmid).map fun e => e.object.semaphores .full

theorem fullOf_of_has {k : Kernel} {shmid : Int} {ids : Semaphore -> Int}
    (h : HasSemaphores k.segments shmid ids) : fullOf k shmid = some (ids .full) := by
  rcases h with ⟨e, hentry, hids⟩
  unfold fullOf
  rw [hentry, ← hids]
  rfl

/-- Both queues of the client 6 derive the key 1. -/
theorem sem_service_collides :
    ¬ forall (header : CoordHeader) (slot : Slot) (k : Kernel),
      NeedsService header slot -> GivenOut header k slot -> k.faults = [] ->
      (forall j, j ≠ slot -> Live header j ->
        (header.slots j).clientId ≠ (header.slots slot).clientId) ->
      (exists result, semQueueCreate queueRegionSize
        (toSizeT (header.slots slot).messageSize) = .ok result) ->
      (forall shmid e, k.segments.entries shmid = some e ->
        queueRegionSize ≤ e.object.size) ->
      exists result k' request response,
        Returns (serviceSlot header slot hashSemShmAllocator) k result k' ∧
          PrivateQueues result.1 k' slot request response := by
  intro hclaim
  have hothers : forall j, j ≠ firstSlot -> Live (semRequested 6) j ->
      ((semRequested 6).slots j).clientId ≠
        ((semRequested 6).slots firstSlot).clientId := by
    intro j hj hlive
    exact absurd ((semRequested_reserved 6 j).mp hlive.left) hj
  have hsize : exists result, semQueueCreate queueRegionSize
      (toSizeT ((semRequested 6).slots firstSlot).messageSize) = .ok result :=
    ⟨_, rfl⟩
  rcases hclaim (semRequested 6) firstSlot emptyKernel (by decide +kernel)
    (semRequested_givenOut 6 emptyKernel) rfl hothers hsize
    (fun shmid e hentry => by cases hentry) with
    ⟨result, k', request, response, hreturns, hprivate⟩
  have hcomputed : (returnOf (serviceSlot (semRequested 6) firstSlot hashSemShmAllocator)
      emptyKernel).map (fun after =>
        let shms := (after.1.1.slots firstSlot).shms
        decide (fullOf after.2 shms.requestShm.shmid =
          fullOf after.2 shms.responseShm.shmid)) = some true := by
    decide +kernel
  rw [returnOf_of_returns hreturns] at hcomputed
  injection hcomputed with hcomputed
  have hsame := of_decide_eq_true hcomputed
  rw [fullOf_of_has hprivate.requestQueue.region,
    fullOf_of_has hprivate.responseQueue.region] at hsame
  injection hsame with hsame
  have hdistinct := hprivate.distinct
  unfold allSemaphores at hdistinct
  rw [hsame] at hdistinct
  simp at hdistinct

end Rpc
end Notnets
