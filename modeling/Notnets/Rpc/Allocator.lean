import Notnets.Os.Kernel
import Notnets.Rpc.ManagePool

/-!
# The allocators

`_hash_shm_allocator` and `_hash_sem_shm_allocator` derive two keys from the
client id, create a segment for each and make a queue in each.  The allocator
of the BOOST queues lies in a library; it is a parameter here.
-/

namespace Notnets
namespace Rpc

open Coord
open Foundation
open Os
open Queue

/-!
# Queues in segments
-/

def writeHeader (address : Option Int) (header : SpscQueueHeader) : OsM Unit :=
  writeSegment address fun segment =>
    { segment with queue := { segment.queue with header := header } }

/-- The POLL `queue_create`. -/
def queueCreateAt (address : Option Int) (shmSize messageSize : Nat) : OsM Int :=
  match queueCreate shmSize messageSize with
  | .error halt => throw halt
  | .ok (header, usable) => do
      writeHeader address header
      pure usable

/-- `abs(key_seed) / n`. -/
def semaphoreKey (keySeed : Int) (n : Nat) : Int :=
  (keySeed.natAbs / n : Nat)

def storeSemaphore (address : Option Int) (which : Semaphore) (key : Int) :
    OsM Int := do
  let semid <- initsem key
  writeSegment address fun segment =>
    { segment with semaphores := Function.update segment.semaphores which semid }
  if semid = -1 then throw .exit else pure semid

/-- The SEM `queue_create`. -/
def semQueueCreateAt (address : Option Int) (keySeed : Int)
    (shmSize messageSize : Nat) : OsM Int :=
  match semQueueCreate shmSize messageSize with
  | .error halt => throw halt
  | .ok (header, usable) => do
      writeHeader address header
      let _ <- storeSemaphore address .full (semaphoreKey keySeed 2)
      let semEmpty <- storeSemaphore address .empty (semaphoreKey keySeed 20)
      let _ <- semWait semEmpty
      let _ <- storeSemaphore address .lock (semaphoreKey keySeed 200)
      pure usable

def destroySemaphores (shms : ShmPair) : OsM Unit := do
  let hReq <- shmAttach shms.requestShm.shmid
  let hResp <- shmAttach shms.responseShm.shmid
  semRemove (<- readSemaphore hReq .full)
  semRemove (<- readSemaphore hReq .empty)
  semRemove (<- readSemaphore hReq .lock)
  semRemove (<- readSemaphore hResp .full)
  semRemove (<- readSemaphore hResp .empty)
  semRemove (<- readSemaphore hResp .lock)

/-!
# Allocators
-/

def keyedAllocator (key1 key2 : Int) (create : Option Int -> Int -> OsM Int) :
    OsM ShmPair := do
  let requestShmid <- shmCreate key1 queueRegionSize
  let responseShmid <- shmCreate key2 queueRegionSize
  let requestAddr <- shmAttach requestShmid
  let responseAddr <- shmAttach responseShmid
  let _ <- create requestAddr key1
  let _ <- create responseAddr key2
  pure
    { requestShm := ⟨key1, requestShmid⟩
      responseShm := ⟨key2, responseShmid⟩
      offset := 0 }

/-- `_hash_shm_allocator`. -/
def hashShmAllocator (messageSize clientId : Int) : OsM ShmPair :=
  keyedAllocator clientId (toInt32 (clientId + 1)) fun address _ =>
    queueCreateAt address queueRegionSize (toSizeT messageSize)

/-- `_hash_sem_shm_allocator`; the quotients are those of C. -/
def hashSemShmAllocator (messageSize clientId : Int) : OsM ShmPair :=
  keyedAllocator (clientId.tdiv 2) (clientId.tdiv 3) fun address key =>
    semQueueCreateAt address key queueRegionSize (toSizeT messageSize)

def poolOps (boostShmAllocator : Int -> Int -> OsM ShmPair) : PoolOps OsM where
  hashShmAllocator := hashShmAllocator
  boostShmAllocator := boostShmAllocator
  hashSemShmAllocator := hashSemShmAllocator
  destroySemaphores := destroySemaphores
  shmRemove := shmRemove

/-- The keys that an allocator derives from a client id. -/
def derivedKeys : Allocator -> Int -> Int × Int
  | .hash, clientId => (clientId, toInt32 (clientId + 1))
  | .boost, clientId => (clientId, toInt32 (clientId + 1))
  | .sem, clientId => (clientId.tdiv 2, clientId.tdiv 3)

/-!
# What an allocator changes
-/

structure AllocatedByKeys (keys : Int × Int) (before after : IpcTable Segment)
    (shms : ShmPair) : Prop where
  requestKey : shms.requestShm.key = keys.1
  responseKey : shms.responseShm.key = keys.2
  request : exists e, after.entries shms.requestShm.shmid = some e ∧ e.key = keys.1
  response : exists e, after.entries shms.responseShm.shmid = some e ∧ e.key = keys.2
  requestOld : forall e, before.entries shms.requestShm.shmid = some e ->
    e.key = keys.1 ∧ keys.1 ≠ 0
  responseOld : forall e, before.entries shms.responseShm.shmid = some e ->
    e.key = keys.2 ∧ keys.2 ≠ 0
  requestNew : before.entries shms.requestShm.shmid = none ->
    (before.next : Int) ≤ shms.requestShm.shmid
  responseNew : before.entries shms.responseShm.shmid = none ->
    (before.next : Int) ≤ shms.responseShm.shmid
  distinct : shms.requestShm.shmid = shms.responseShm.shmid ->
    keys.1 = keys.2 ∧ keys.1 ≠ 0
  kept : forall id e, before.entries id = some e ->
    exists e', after.entries id = some e' ∧ e'.key = e.key
  other : forall id, id ≠ shms.requestShm.shmid -> id ≠ shms.responseShm.shmid ->
    after.entries id = before.entries id
  next : before.next ≤ after.next

def WritesAt (create : Option Int -> Int -> OsM Int) : Prop :=
  forall address key k ret k', Returns (create address key) k ret k' ->
    exists shmid, address = some shmid ∧
      IpcTable.Touched shmid k.segments k'.segments

theorem writesAt_queueCreate (shmSize messageSize : Nat) :
    WritesAt fun address _ => queueCreateAt address shmSize messageSize := by
  intro address key k ret k' h
  unfold queueCreateAt at h
  split at h
  · exact absurd h not_returns_throw
  · rcases returns_bind.mp h with ⟨u, k1, hwrite, hpure⟩
    rcases returns_writeSegment hwrite with ⟨shmid, haddress, _, hk⟩
    refine ⟨shmid, haddress, ?_⟩
    rw [(returns_pure.mp hpure).right, hk]
    exact IpcTable.touched_modify _ _ _

theorem touched_storeSemaphore {shmid key semid : Int} {which : Semaphore}
    {k k' : Kernel} (h : Returns (storeSemaphore (some shmid) which key) k semid k') :
    IpcTable.Touched shmid k.segments k'.segments := by
  rcases returns_bind.mp h with ⟨made, k1, hinit, hrest⟩
  rcases returns_bind.mp hrest with ⟨u, k2, hwrite, htest⟩
  rcases returns_writeSegment hwrite with ⟨id, haddress, _, hk⟩
  injection haddress with haddress
  subst haddress
  have hsegments := initsem_segments _ _ _ _ hinit
  have hlast : k'.segments = k2.segments := by
    split at htest
    · exact absurd htest not_returns_throw
    · rw [(returns_pure.mp htest).right]
  rw [hlast, hk, ← hsegments]
  exact IpcTable.touched_modify _ _ _

theorem writesAt_semQueueCreate (shmSize messageSize : Nat) :
    WritesAt fun address key => semQueueCreateAt address key shmSize messageSize := by
  intro address key k ret k' h
  unfold semQueueCreateAt at h
  split at h
  · exact absurd h not_returns_throw
  · rcases returns_bind.mp h with ⟨u, k1, hwrite, hrest⟩
    rcases returns_writeSegment hwrite with ⟨shmid, haddress, _, hk⟩
    subst haddress
    refine ⟨shmid, rfl, ?_⟩
    rcases returns_bind.mp hrest with ⟨semFull, k2, hfull, hrest⟩
    rcases returns_bind.mp hrest with ⟨semEmpty, k3, hempty, hrest⟩
    rcases returns_bind.mp hrest with ⟨waited, k4, hwait, hrest⟩
    rcases returns_bind.mp hrest with ⟨semLock, k5, hlock, hpure⟩
    have hheader : IpcTable.Touched shmid k.segments k1.segments := by
      rw [hk]
      exact IpcTable.touched_modify _ _ _
    have hsegments := semWait_segments _ _ _ _ hwait
    have hlast := touched_storeSemaphore hlock
    rw [hsegments] at hlast
    rw [(returns_pure.mp hpure).right]
    exact ((hheader.trans (touched_storeSemaphore hfull)).trans
      (touched_storeSemaphore hempty)).trans hlast

theorem allocatedByKeys_of_opened {key1 key2 request response : Int}
    {t t1 t2 t3 t4 : IpcTable Segment}
    (hopen1 : IpcTable.Opened key1 request t t1)
    (hopen2 : IpcTable.Opened key2 response t1 t2)
    (htouch1 : IpcTable.Touched request t2 t3)
    (htouch2 : IpcTable.Touched response t3 t4) :
    AllocatedByKeys (key1, key2) t t4
      { requestShm := ⟨key1, request⟩
        responseShm := ⟨key2, response⟩
        offset := 0 } := by
  have htouched : forall id e, t2.entries id = some e ->
      exists e', t4.entries id = some e' ∧ e'.key = e.key := by
    intro id e he
    rcases htouch1.entry he with ⟨e3, he3, hkey3⟩
    rcases htouch2.entry he3 with ⟨e4, he4, hkey4⟩
    exact ⟨e4, he4, hkey4.trans hkey3⟩
  have hkept1 : forall id e, t.entries id = some e -> t1.entries id = some e := by
    intro id e he
    by_cases hid : id = request
    · subst hid
      exact (hopen1.old e he).left
    · rw [hopen1.other id hid]
      exact he
  have hkept2 : forall id e, t1.entries id = some e -> t2.entries id = some e := by
    intro id e he
    by_cases hid : id = response
    · subst hid
      exact (hopen2.old e he).left
    · rw [hopen2.other id hid]
      exact he
  rcases hopen1.entry with ⟨e1, he1, hkey1⟩
  rcases hopen2.entry with ⟨e2, he2, hkey2⟩
  constructor
  · rfl
  · rfl
  · rcases htouched request e1 (hkept2 request e1 he1) with ⟨e4, he4, hkey4⟩
    exact ⟨e4, he4, hkey4.trans hkey1⟩
  · rcases htouched response e2 he2 with ⟨e4, he4, hkey4⟩
    exact ⟨e4, he4, hkey4.trans hkey2⟩
  · intro e he
    rcases hopen1.old e he with ⟨hsame, hne⟩
    have heq : e1 = e := Option.some.inj (he1.symm.trans hsame)
    rw [← heq]
    exact ⟨hkey1, hne⟩
  · intro e he
    rcases hopen2.old e (hkept1 response e he) with ⟨hsame, hne⟩
    have heq : e2 = e := Option.some.inj (he2.symm.trans hsame)
    rw [← heq]
    exact ⟨hkey2, hne⟩
  · exact hopen1.new
  · intro hnone
    by_cases hid : response = request
    · show (t.next : Int) ≤ response
      rw [hid] at hnone ⊢
      exact hopen1.new hnone
    · have hnone1 : t1.entries response = none := by
        rw [hopen1.other response hid]
        exact hnone
      have hnew := hopen2.new hnone1
      have hnext := hopen1.next
      show (t.next : Int) ≤ response
      lia
  · intro hsame
    have hid : request = response := hsame
    subst hid
    rcases hopen2.old e1 he1 with ⟨hsame2, hne⟩
    have heq : e2 = e1 := Option.some.inj (he2.symm.trans hsame2)
    have hkeys : key1 = key2 := by rw [← hkey1, ← hkey2, heq]
    exact ⟨hkeys, by rw [hkeys]; exact hne⟩
  · intro id e he
    exact htouched id e (hkept2 id e (hkept1 id e he))
  · intro id hrequest hresponse
    rw [htouch2.other id hresponse, htouch1.other id hrequest,
      hopen2.other id hresponse, hopen1.other id hrequest]
  · rw [htouch2.next, htouch1.next]
    exact Nat.le_trans hopen1.next hopen2.next

theorem opened_of_attach {key shmid : Int} {before after later : IpcTable Segment}
    (h : (shmid = -1 ∧ after = before) ∨ IpcTable.Opened key shmid before after)
    {e : IpcEntry Segment} (hentry : later.entries shmid = some e) :
    IpcTable.Opened key shmid before after := by
  rcases h with ⟨hid, _⟩ | hopen
  · have hlow := (IpcTable.lt_next hentry).left
    lia
  · exact hopen

theorem keyedAllocator_keys {key1 key2 : Int}
    {create : Option Int -> Int -> OsM Int} (hcreate : WritesAt create)
    {k k' : Kernel} {shms : ShmPair}
    (h : Returns (keyedAllocator key1 key2 create) k shms k') :
    AllocatedByKeys (key1, key2) k.segments k'.segments shms := by
  rcases returns_bind.mp h with ⟨request, k1, hmake1, hrest⟩
  rcases returns_bind.mp hrest with ⟨response, k2, hmake2, hrest⟩
  rcases returns_bind.mp hrest with ⟨requestAddr, k3, hattach1, hrest⟩
  rcases returns_bind.mp hrest with ⟨responseAddr, k4, hattach2, hrest⟩
  rcases returns_bind.mp hrest with ⟨ret1, k5, hcreate1, hrest⟩
  rcases returns_bind.mp hrest with ⟨ret2, k6, hcreate2, hpure⟩
  rcases returns_pure.mp hpure with ⟨hshms, hk⟩
  rcases returns_shmAttach hattach1 with ⟨hseg3, _, haddr1⟩
  rcases returns_shmAttach hattach2 with ⟨hseg4, _, haddr2⟩
  rcases hcreate _ _ _ _ _ hcreate1 with ⟨id1, hid1, htouch1⟩
  rcases hcreate _ _ _ _ _ hcreate2 with ⟨id2, hid2, htouch2⟩
  rcases haddr1 with hnone | ⟨haddr1, e1, he1⟩
  · rw [hid1] at hnone
    cases hnone
  · rcases haddr2 with hnone | ⟨haddr2, e2, he2⟩
    · rw [hid2] at hnone
      cases hnone
    · rw [hid1] at haddr1
      rw [hid2] at haddr2
      injection haddr1 with heq1
      injection haddr2 with heq2
      subst heq1 heq2
      rw [hseg4, hseg3] at htouch1
      rw [hshms, hk]
      exact allocatedByKeys_of_opened
        (opened_of_attach (returns_shmCreate hmake1).right he1)
        (opened_of_attach (returns_shmCreate hmake2).right he2) htouch1 htouch2

/-!
# Allocations that return
-/

/-- The allocation returns if the calls succeed, the segments that the keys find
are large enough, and a queue can be made in each of the two. -/
theorem exists_keyedAllocator {key1 key2 : Int} {create : Option Int -> Int -> OsM Int}
    (Made : Kernel -> Prop) {k : Kernel} (hwrites : WritesAt create)
    (hcalls : k.CallsSucceed 4) (hkeys : key1 = key2 -> key1 = 0)
    (hroom1 : Room k.segments key1 queueRegionSize)
    (hroom2 : Room k.segments key2 queueRegionSize)
    (hfirst : forall shmid k4 e, k4.semaphores = k.semaphores ->
      k4.segments.entries shmid = some e ->
      exists ret k5, Returns (create (some shmid) key1) k4 ret k5 ∧ Made k5)
    (hsecond : forall shmid k5 e, Made k5 -> k5.segments.entries shmid = some e ->
      exists ret k6, Returns (create (some shmid) key2) k5 ret k6) :
    exists shms k', Returns (keyedAllocator key1 key2 create) k shms k' := by
  rcases shmCreate_opens hcalls hroom1 with
    ⟨request, k1, hmake1, hopen1, hsem1, hcalls1⟩
  rcases shmCreate_opens hcalls1 (hroom2.opened hopen1 hkeys) with
    ⟨response, k2, hmake2, hopen2, hsem2, hcalls2⟩
  let k3 : Kernel := { k2 with faults := k2.faults.tail }
  have hfaults3 : k3.faults = k2.faults.tail := rfl
  have hcalls3 := ((Kernel.callsSucceed_succ hfaults3).mp hcalls2).right
  rcases hopen2.entry with ⟨e2, he2, _⟩
  have hrequest : exists e, k2.segments.entries request = some e := by
    rcases hopen1.entry with ⟨e1, he1, _⟩
    by_cases hid : request = response
    · rw [hid]
      exact ⟨e2, he2⟩
    · rw [hopen2.other request hid]
      exact ⟨e1, he1⟩
  let k4 : Kernel := { k3 with faults := k3.faults.tail }
  have hattach1 : Returns (shmAttach request) k2 (some request) k3 :=
    returns_shmAttach_some.mpr ⟨rfl, hcalls2.next, hrequest, rfl⟩
  have hattach2 : Returns (shmAttach response) k3 (some response) k4 :=
    returns_shmAttach_some.mpr ⟨rfl, hcalls3.next, ⟨e2, he2⟩, rfl⟩
  rcases hrequest with ⟨e1, he1⟩
  rcases hfirst request k4 e1 (hsem2.trans hsem1) he1 with ⟨ret1, k5, hcreate1, hmade⟩
  rcases hwrites _ _ _ _ _ hcreate1 with ⟨id, haddress, htouched⟩
  rcases htouched.entry he2 with ⟨e3, he3, _⟩
  rcases hsecond response k5 e3 hmade he3 with ⟨ret2, k6, hcreate2⟩
  let shms : ShmPair :=
    { requestShm := ⟨key1, request⟩
      responseShm := ⟨key2, response⟩
      offset := 0 }
  refine ⟨shms, k6, ?_⟩
  refine returns_bind.mpr ⟨request, k1, hmake1, ?_⟩
  refine returns_bind.mpr ⟨response, k2, hmake2, ?_⟩
  refine returns_bind.mpr ⟨_, _, hattach1, ?_⟩
  refine returns_bind.mpr ⟨_, _, hattach2, ?_⟩
  refine returns_bind.mpr ⟨_, _, hcreate1, ?_⟩
  refine returns_bind.mpr ⟨_, _, hcreate2, ?_⟩
  exact returns_pure.mpr ⟨rfl, rfl⟩

theorem returns_queueCreateAt {shmid ret : Int} {shmSize messageSize : Nat}
    {k k' : Kernel} :
    Returns (queueCreateAt (some shmid) shmSize messageSize) k ret k' <->
      exists header, queueCreate shmSize messageSize = .ok (header, ret) ∧
        Returns (writeHeader (some shmid) header) k () k' := by
  unfold queueCreateAt
  constructor
  · intro h
    split at h
    · exact absurd h not_returns_throw
    · rename_i header usable hadmitted
      rcases returns_bind.mp h with ⟨u, k1, hwrite, hpure⟩
      rcases returns_pure.mp hpure with ⟨hret, hk⟩
      rw [hret, hk]
      exact ⟨header, hadmitted, hwrite⟩
  · intro hparts
    rcases hparts with ⟨header, hadmitted, hwrite⟩
    rw [hadmitted]
    exact returns_bind.mpr ⟨(), k', hwrite, returns_pure.mpr ⟨rfl, rfl⟩⟩

theorem exists_hash {messageSize clientId : Int} {k : Kernel}
    (hcalls : k.CallsSucceed 4)
    (hkeys : clientId = toInt32 (clientId + 1) -> clientId = 0)
    (hroom : Room k.segments clientId queueRegionSize)
    (hroom' : Room k.segments (toInt32 (clientId + 1)) queueRegionSize)
    (hadmitted : exists result,
      queueCreate queueRegionSize (toSizeT messageSize) = .ok result) :
    exists shms k', Returns (hashShmAllocator messageSize clientId) k shms k' := by
  rcases hadmitted with ⟨⟨header, ret⟩, hadmitted⟩
  have hcreate : forall shmid k, exists ret k',
      Returns (queueCreateAt (some shmid) queueRegionSize (toSizeT messageSize)) k ret
        k' :=
    fun shmid k => ⟨ret, _, returns_queueCreateAt.mpr
      ⟨header, hadmitted, returns_write.mpr rfl⟩⟩
  apply exists_keyedAllocator (fun _ => True) (writesAt_queueCreate _ _) hcalls hkeys
    hroom hroom'
  · intro shmid k4 e _ _
    rcases hcreate shmid k4 with ⟨ret, k5, h⟩
    exact ⟨ret, k5, h, trivial⟩
  · intro shmid k5 e _ _
    exact hcreate shmid k5

/-!
# Systems that stay ready
-/

section Ready

variable {size : Nat}

theorem ready_writeHeader (address : Option Int) (header : SpscQueueHeader) :
    Preserves (Kernel.Ready · size) (writeHeader address header) := by
  refine ready_writeSegment address ?_
  exact fun _ => rfl

theorem ready_queueCreateAt (address : Option Int) (shmSize messageSize : Nat) :
    Preserves (Kernel.Ready · size) (queueCreateAt address shmSize messageSize) := by
  unfold queueCreateAt
  split
  · exact preserves_throw _
  · apply preserves_bind (ready_writeHeader address _)
    intro u
    exact preserves_pure _

theorem ready_storeSemaphore (address : Option Int) (which : Semaphore) (key : Int) :
    Preserves (Kernel.Ready · size) (storeSemaphore address which key) := by
  apply preserves_bind (ready_of_keeps (keeps_initsem (fun _ _ => rfl) key))
  intro semid
  refine preserves_bind (ready_writeSegment address ?_) ?_
  · exact fun _ => rfl
  · intro u
    split
    · exact preserves_throw _
    · exact preserves_pure _

theorem ready_semQueueCreateAt (address : Option Int) (keySeed : Int)
    (shmSize messageSize : Nat) :
    Preserves (Kernel.Ready · size)
      (semQueueCreateAt address keySeed shmSize messageSize) := by
  unfold semQueueCreateAt
  split
  · exact preserves_throw _
  · apply preserves_bind (ready_writeHeader address _)
    intro u
    apply preserves_bind (ready_storeSemaphore address .full _)
    intro semFull
    apply preserves_bind (ready_storeSemaphore address .empty _)
    intro semEmpty
    apply preserves_bind (ready_of_keeps (keeps_semWait (fun _ _ => rfl) semEmpty))
    intro waited
    apply preserves_bind (ready_storeSemaphore address .lock _)
    intro semLock
    exact preserves_pure _

theorem ready_keyedAllocator (key1 key2 : Int) {create : Option Int -> Int -> OsM Int}
    (hsize : size ≤ queueRegionSize)
    (hcreate : forall address key, Preserves (Kernel.Ready · size) (create address key)) :
    Preserves (Kernel.Ready · size) (keyedAllocator key1 key2 create) := by
  apply preserves_bind (ready_shmCreate key1 hsize)
  intro requestShmid
  apply preserves_bind (ready_shmCreate key2 hsize)
  intro responseShmid
  apply preserves_bind (ready_shmAttach requestShmid)
  intro requestAddr
  apply preserves_bind (ready_shmAttach responseShmid)
  intro responseAddr
  apply preserves_bind (hcreate requestAddr key1)
  intro ret1
  apply preserves_bind (hcreate responseAddr key2)
  intro ret2
  exact preserves_pure _

theorem ready_hash (messageSize clientId : Int) (hsize : size ≤ queueRegionSize) :
    Preserves (Kernel.Ready · size) (hashShmAllocator messageSize clientId) :=
  ready_keyedAllocator _ _ hsize fun address _ => ready_queueCreateAt address _ _

theorem ready_hashSem (messageSize clientId : Int) (hsize : size ≤ queueRegionSize) :
    Preserves (Kernel.Ready · size) (hashSemShmAllocator messageSize clientId) :=
  ready_keyedAllocator _ _ hsize fun address key => ready_semQueueCreateAt address key _ _

end Ready

theorem filled_keyedAllocator {key1 key2 : Int} {create : Option Int -> Int -> OsM Int}
    (hwrites : WritesAt create) {k k' : Kernel} {shms : ShmPair}
    (h : Returns (keyedAllocator key1 key2 create) k shms k') :
    IpcTable.Filled k.segments k'.segments := by
  rcases returns_bind.mp h with ⟨request, k1, hmake1, h⟩
  rcases returns_bind.mp h with ⟨response, k2, hmake2, h⟩
  rcases returns_bind.mp h with ⟨requestAddr, k3, hattach1, h⟩
  rcases returns_bind.mp h with ⟨responseAddr, k4, hattach2, h⟩
  rcases returns_bind.mp h with ⟨ret1, k5, hcreate1, h⟩
  rcases returns_bind.mp h with ⟨ret2, k6, hcreate2, hpure⟩
  rw [(returns_pure.mp hpure).right]
  rcases hwrites _ _ _ _ _ hcreate1 with ⟨id1, _, htouched1⟩
  rcases hwrites _ _ _ _ _ hcreate2 with ⟨id2, _, htouched2⟩
  have hattached : k4.segments = k2.segments := by
    rw [(returns_shmAttach hattach2).left, (returns_shmAttach hattach1).left]
  rw [hattached] at htouched1
  have hkept1 : forall id, k1.segments.entries id ≠ none ->
      k2.segments.entries id ≠ none := by
    intro id hentry
    rcases returns_shmCreate hmake2 with ⟨_, ⟨_, hsame⟩ | hopen⟩
    · rw [hsame]
      exact hentry
    · exact hopen.kept hentry
  have hmade := (filled_shmCreate hmake1).trans (filled_shmCreate hmake2) hkept1
  have hwritten : IpcTable.Filled k2.segments k6.segments :=
    IpcTable.filled_of_next (htouched2.next.trans htouched1.next)
  exact hmade.trans hwritten fun id hentry => htouched2.kept (htouched1.kept hentry)

/-- What is known of the allocator that lies outside: it finds or makes the two
segments of its keys, and changes no other segment. -/
def BoostByKeys (boostShmAllocator : Int -> Int -> OsM ShmPair) : Prop :=
  forall messageSize clientId k shms k',
    Returns (boostShmAllocator messageSize clientId) k shms k' ->
    AllocatedByKeys (derivedKeys .boost clientId) k.segments k'.segments shms

theorem poolOps_run_keys {boost : Int -> Int -> OsM ShmPair}
    {allocator : Allocator} (hboost : allocator = .boost -> BoostByKeys boost)
    {messageSize clientId : Int} {k k' : Kernel} {shms : ShmPair}
    (h : Returns ((poolOps boost).run allocator messageSize clientId) k shms k') :
    AllocatedByKeys (derivedKeys allocator clientId) k.segments k'.segments shms := by
  cases allocator with
  | hash => exact keyedAllocator_keys (writesAt_queueCreate _ _) h
  | boost => exact hboost rfl messageSize clientId k shms k' h
  | sem => exact keyedAllocator_keys (writesAt_semQueueCreate _ _) h

end Rpc
end Notnets
