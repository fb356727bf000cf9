import Notnets.Os.Alongside
import Notnets.Rpc.Journal

/-!
# Allocators side by side

An allocator whose keys are free in both systems returns the same in both, up to
the identifiers.
-/

namespace Notnets
namespace Rpc

open Coord
open Foundation
open Os
open Queue

def mapPair (p : Parting) (shms : ShmPair) : ShmPair where
  requestShm := ⟨shms.requestShm.key, p.segments.map shms.requestShm.shmid⟩
  responseShm := ⟨shms.responseShm.key, p.segments.map shms.responseShm.shmid⟩
  offset := shms.offset

def CreatesAlike (p : Parting) (Done : Marks -> Int -> Prop)
    (create : Option Int -> Int -> OsM Int) (key : Int) : Prop :=
  forall marks k k' address, Alongside p marks k k' ->
    (forall shmid, address = some shmid -> marks.given shmid) ->
    RunsLike Anyhow (fun _ _ t t' => exists shmid marks', address = some shmid ∧
        marks.Below marks' ∧ Done marks' shmid ∧ Alongside p marks' t t')
      (create (address.map p.segments.map) key) k (create address key) k'

def PairAlike (p : Parting) (Done : Marks -> Int -> Prop) (marks : Marks)
    (shms shms' : ShmPair) (k k' : Kernel) : Prop :=
  shms = mapPair p shms' ∧ exists marks', marks.Below marks' ∧
    (marks'.given shms'.requestShm.shmid ∧ Done marks' shms'.requestShm.shmid) ∧
    (marks'.given shms'.responseShm.shmid ∧ Done marks' shms'.responseShm.shmid) ∧
    Alongside p marks' k k'

section Allocators

variable {p : Parting} {marks : Marks} {k k' : Kernel} {shmid : Int}
  {Done : Marks -> Int -> Prop}

theorem attachAlike (h : Alongside p marks k k') (shmid : Int) :
    RunsLike Anyhow (fun a a' t t' => a = a'.map p.segments.map ∧
        exists marks', marks.Below marks' ∧
          (forall id, a' = some id -> id = shmid ∧ marks'.given id) ∧
          Alongside p marks' t t')
      (shmAttach (p.segments.map shmid)) k (shmAttach shmid) k' := by
  apply (h.shmAttach shmid).mono
  intro a a' t t' hcases
  rcases hcases with ⟨rfl, rfl, hafter⟩ | ⟨rfl, rfl, hafter⟩
  · refine ⟨rfl, marks, Marks.below_refl marks, ?_, hafter⟩
    intro id heq
    cases heq
  · refine ⟨rfl, marks.give shmid, ⟨fun _ => Or.inl, fun _ _ hstored => hstored⟩, ?_,
      hafter⟩
    intro id heq
    injection heq with heq
    exact ⟨heq.symm, Or.inr heq.symm⟩

theorem keyedAlike {key1 key2 : Int} {create : Option Int -> Int -> OsM Int}
    (hkey1 : key1 ≠ 0 -> ¬ p.segmentKey key1) (hkey2 : key2 ≠ 0 -> ¬ p.segmentKey key2)
    (hcreate1 : CreatesAlike p Done create key1)
    (hcreate2 : CreatesAlike p Done create key2)
    (hmono : forall marks marks' id, Marks.Below marks marks' -> Done marks id ->
      Done marks' id) (h : Alongside p marks k k') :
    RunsLike Anyhow (PairAlike p Done marks) (keyedAllocator key1 key2 create) k
      (keyedAllocator key1 key2 create) k' := by
  unfold keyedAllocator
  apply (h.shmCreate hkey1 queueRegionSize).bind
  intro _ request t1 t1' hboth
  rcases hboth with ⟨rfl, h1⟩
  apply (h1.shmCreate hkey2 queueRegionSize).bind
  intro _ response t2 t2' hparts
  rcases hparts with ⟨rfl, h2⟩
  apply (attachAlike h2 request).bind
  intro _ requestAddr t3 t3' hall
  rcases hall with ⟨rfl, marks3, hbelow3, hgiven3, h3⟩
  apply (attachAlike h3 response).bind
  intro _ responseAddr t4 t4' hgiven
  rcases hgiven with ⟨rfl, marks4, hbelow4, hgiven4, h4⟩
  have hrequest : forall id, requestAddr = some id -> marks4.given id :=
    fun id heq => hbelow4.given id (hgiven3 id heq).right
  apply (hcreate1 marks4 t4 t4' requestAddr h4 hrequest).bind
  rintro _ _ t5 t5' ⟨id1, marks5, heq1, hbelow5, hdone5, h5⟩
  have hresponse : forall id, responseAddr = some id -> marks5.given id :=
    fun id heq => hbelow5.given id (hgiven4 id heq).right
  apply (hcreate2 marks5 t5 t5' responseAddr h5 hresponse).bind
  rintro _ _ t6 t6' ⟨id2, marks6, heq2, hbelow6, hdone6, h6⟩
  have hid1 := (hgiven3 id1 heq1).left
  have hid2 := (hgiven4 id2 heq2).left
  subst hid1 hid2
  apply runsLike_pure
  refine ⟨rfl, marks6, ((hbelow3.trans hbelow4).trans hbelow5).trans hbelow6,
    ⟨?_, hmono marks5 marks6 id1 hbelow6 hdone5⟩, ⟨?_, hdone6⟩, h6⟩
  · exact hbelow6.given id1 (hbelow5.given id1 (hrequest id1 heq1))
  · exact hbelow6.given id2 (hresponse id2 heq2)

theorem writeAlike (h : Alongside p marks k k') {f : Segment -> Segment}
    (hsame : forall o o', o.size = o'.size -> o.queue = o'.queue ->
      (f o).size = (f o').size ∧ (f o).queue = (f o').queue)
    (hstored : forall o, (f o).semaphores = o.semaphores) (address : Option Int) :
    RunsLike Anyhow (fun _ _ t t' => address ≠ none ∧ Alongside p marks t t')
      (writeSegment (address.map p.segments.map) f) k (writeSegment address f) k' := by
  cases address with
  | none => exact runsLike_throw trivial
  | some shmid =>
      apply runsLike_get_bind
      exact ⟨Option.some_ne_none shmid, h.write hsame hstored⟩

theorem headerAlike (h : Alongside p marks k k') (header : SpscQueueHeader)
    (address : Option Int) :
    RunsLike Anyhow (fun _ _ t t' => address ≠ none ∧ Alongside p marks t t')
      (writeHeader (address.map p.segments.map) header) k (writeHeader address header)
      k' := by
  refine writeAlike h ?_ ?_ address
  · intro o o' hsize hqueue
    refine ⟨hsize, ?_⟩
    dsimp only
    rw [hqueue]
  · exact fun _ => rfl

theorem createAlike (shmSize messageSize : Nat) (key : Int) :
    CreatesAlike p (fun _ _ => True)
      (fun address _ => queueCreateAt address shmSize messageSize) key := by
  intro marks k k' address h _
  unfold queueCreateAt
  dsimp only
  split
  · exact runsLike_throw trivial
  · apply (headerAlike h _ address).bind
    intro _ _ t t' hboth
    rcases hboth with ⟨hsome, hafter⟩
    rcases Option.ne_none_iff_exists'.mp hsome with ⟨shmid, heq⟩
    exact runsLike_pure ⟨shmid, marks, heq, Marks.below_refl marks, trivial, hafter⟩

theorem storeAlike (h : Alongside p marks k k') (hgiven : marks.given shmid) {key : Int}
    (hkey : key ≠ 0 -> ¬ p.semaphoreKey key) (which : Semaphore) :
    RunsLike Anyhow (fun id id' t t' => id = p.semaphores.map id' ∧
        Alongside p (marks.store shmid which) t t')
      (storeSemaphore (some (p.segments.map shmid)) which key) k
      (storeSemaphore (some shmid) which key) k' := by
  unfold storeSemaphore
  apply (h.initsem hkey).bind
  intro _ semid t t' hparts
  rcases hparts with ⟨rfl, hlt, h1⟩
  have hwrite : RunsLike Anyhow
      (fun _ _ t t' => Alongside p (marks.store shmid which) t t')
      (writeSegment (some (p.segments.map shmid))
        (Segment.store which (p.semaphores.map semid))) t
      (writeSegment (some shmid) (Segment.store which semid)) t' :=
    runsLike_get_bind (h1.store hgiven hlt which)
  apply hwrite.bind
  intro _ _ t2 t2' h2
  by_cases hfailed : semid = -1
  · rw [hfailed, Shift.map_of_lt (by lia), if_pos rfl]
    exact runsLike_throw trivial
  · have hmapped : p.semaphores.map semid ≠ -1 := by
      intro heq
      apply hfailed
      apply Shift.map_injective (s := p.semaphores)
      rw [heq, Shift.map_of_lt (by lia)]
    rw [if_neg hfailed, if_neg hmapped]
    exact runsLike_pure ⟨rfl, h2⟩

def SetUp (marks : Marks) (shmid : Int) : Prop :=
  forall which, marks.stored shmid which

theorem setUp_mono {marks marks' : Marks} {shmid : Int} (hbelow : marks.Below marks')
    (h : SetUp marks shmid) : SetUp marks' shmid :=
  fun which => hbelow.stored shmid which (h which)

theorem setUp_store (marks : Marks) (shmid : Int) :
    SetUp (((marks.store shmid .full).store shmid .empty).store shmid .lock) shmid := by
  intro which
  cases which with
  | lock => exact Or.inr ⟨rfl, rfl⟩
  | full => exact Or.inl (Or.inl (Or.inr ⟨rfl, rfl⟩))
  | empty => exact Or.inl (Or.inr ⟨rfl, rfl⟩)

theorem Marks.below_store (marks : Marks) (shmid : Int) (which : Semaphore) :
    marks.Below (marks.store shmid which) :=
  ⟨fun _ h => h, fun _ _ h => Or.inl h⟩

theorem semCreateAlike (shmSize messageSize : Nat) {keySeed : Int}
    (hkeys : forall r, r ∈ queueRequests keySeed -> r.key ≠ 0 -> ¬ p.semaphoreKey r.key) :
    CreatesAlike p SetUp
      (fun address key => semQueueCreateAt address key shmSize messageSize) keySeed := by
  intro marks k k' address h hgiven
  have hfull := hkeys ⟨semaphoreKey keySeed 2, false⟩ List.mem_cons_self
  have hempty := hkeys ⟨semaphoreKey keySeed 20, true⟩
    (List.mem_cons_of_mem _ List.mem_cons_self)
  have hlock := hkeys ⟨semaphoreKey keySeed 200, false⟩
    (List.mem_cons_of_mem _ (List.mem_cons_of_mem _ List.mem_cons_self))
  unfold semQueueCreateAt
  dsimp only
  split
  · exact runsLike_throw trivial
  · apply (headerAlike h _ address).bind
    intro _ _ t1 t1' hboth
    rcases hboth with ⟨hsome, h1⟩
    rcases Option.ne_none_iff_exists'.mp hsome with ⟨shmid, rfl⟩
    have hmark := hgiven shmid rfl
    apply (storeAlike h1 hmark hfull .full).bind
    intro _ semFull t2 t2' hparts
    rcases hparts with ⟨_, h2⟩
    apply (storeAlike h2 hmark hempty .empty).bind
    intro _ semEmpty t3 t3' hall
    rcases hall with ⟨rfl, h3⟩
    apply (h3.semWait semEmpty).bind
    rintro _ _ t4 t4' h4
    apply (storeAlike h4 hmark hlock .lock).bind
    rintro _ semLock t5 t5' ⟨_, h5⟩
    apply runsLike_pure
    exact ⟨shmid, _, rfl,
      ((Marks.below_store _ _ _).trans (Marks.below_store _ _ _)).trans
        (Marks.below_store _ _ _), setUp_store marks shmid, h5⟩

def DoneFor (type : QueueType) (marks : Marks) (shmid : Int) : Prop :=
  type = .sem -> SetUp marks shmid

/-- The allocator that lies outside opens or makes the segments of its two keys, and
looks at identifiers for nothing else. -/
def BoostAlike (boost : Int -> Int -> OsM ShmPair) : Prop :=
  forall messageSize clientId p marks k k',
    (forall key, HasKey (derivedKeys .boost clientId) key -> key ≠ 0 ->
      ¬ p.segmentKey key) -> Alongside p marks k k' ->
    RunsLike Anyhow (PairAlike p (fun _ _ => True) marks) (boost messageSize clientId) k
      (boost messageSize clientId) k'

theorem PairAlike.done {shms shms' : ShmPair} {type : QueueType} (htype : type ≠ .sem)
    (h : PairAlike p (fun _ _ => True) marks shms shms' k k') :
    PairAlike p (DoneFor type) marks shms shms' k k' := by
  have hdone : forall marks' id, DoneFor type marks' id :=
    fun _ _ hsem => absurd hsem htype
  rcases h with ⟨hpair, marks', hbelow, ⟨hrequest, _⟩, ⟨hresponse, _⟩, hafter⟩
  exact ⟨hpair, marks', hbelow, ⟨hrequest, hdone _ _⟩, ⟨hresponse, hdone _ _⟩, hafter⟩

theorem hashAlike (messageSize : Int) {clientId : Int}
    (hkeys : forall key, HasKey (derivedKeys .hash clientId) key -> key ≠ 0 ->
      ¬ p.segmentKey key) (h : Alongside p marks k k') :
    RunsLike Anyhow (PairAlike p (fun _ _ => True) marks)
      (hashShmAllocator messageSize clientId) k
      (hashShmAllocator messageSize clientId) k' :=
  keyedAlike (hkeys _ (Or.inl rfl)) (hkeys _ (Or.inr rfl)) (createAlike _ _ _)
    (createAlike _ _ _) (fun _ _ _ _ _ => trivial) h

theorem hashSemAlike (messageSize : Int) {clientId : Int}
    (hkeys : forall key, HasKey (derivedKeys .sem clientId) key -> key ≠ 0 ->
      ¬ p.segmentKey key)
    (hsets : forall r, r ∈ connectionRequests clientId -> r.key ≠ 0 ->
      ¬ p.semaphoreKey r.key) (h : Alongside p marks k k') :
    RunsLike Anyhow (PairAlike p SetUp marks) (hashSemShmAllocator messageSize clientId) k
      (hashSemShmAllocator messageSize clientId) k' :=
  keyedAlike (hkeys _ (Or.inl rfl)) (hkeys _ (Or.inr rfl))
    (semCreateAlike _ _ fun r hr => hsets r (List.mem_append_left _ hr))
    (semCreateAlike _ _ fun r hr => hsets r (List.mem_append_right _ hr))
    (fun _ _ _ => setUp_mono) h

theorem runAlike {boost : Int -> Int -> OsM ShmPair} (hboost : BoostAlike boost)
    (type : QueueType) (messageSize : Int) {clientId : Int}
    (hkeys : forall key, HasKey (derivedKeys (allocatorOf type) clientId) key ->
      key ≠ 0 -> ¬ p.segmentKey key)
    (hsets : type = .sem -> forall r, r ∈ connectionRequests clientId -> r.key ≠ 0 ->
      ¬ p.semaphoreKey r.key) (h : Alongside p marks k k') :
    RunsLike Anyhow (PairAlike p (DoneFor type) marks)
      ((poolOps boost).run (allocatorOf type) messageSize clientId) k
      ((poolOps boost).run (allocatorOf type) messageSize clientId) k' := by
  cases type with
  | poll =>
      exact (hashAlike messageSize hkeys h).mono fun _ _ _ _ hpair =>
        hpair.done (fun heq => by cases heq)
  | boost =>
      exact (hboost messageSize clientId p marks k k' hkeys h).mono
        fun _ _ _ _ hpair => hpair.done (fun heq => by cases heq)
  | sem =>
      refine (hashSemAlike messageSize hkeys (hsets rfl) h).mono ?_
      rintro shms shms' t t' ⟨hpair, marks', hbelow, ⟨hrequest, hdone⟩,
        ⟨hresponse, hdone'⟩, hafter⟩
      exact ⟨hpair, marks', hbelow, ⟨hrequest, fun _ => hdone⟩,
        ⟨hresponse, fun _ => hdone'⟩, hafter⟩
  | other =>
      exact (hashAlike messageSize hkeys h).mono fun _ _ _ _ hpair =>
        hpair.done (fun heq => by cases heq)

/-!
# Removing
-/

theorem removeAlike (h : Alongside p marks k k') {which : Semaphore}
    {address : Option Int}
    (hmark : forall shmid, address = some shmid -> marks.stored shmid which) :
    RunsLike Anyhow (fun _ _ t t' => Alongside p marks t t')
      (readSemaphore (address.map p.segments.map) which >>= semRemove) k
      (readSemaphore address which >>= semRemove) k' := by
  cases address with
  | none => exact runsLike_throw trivial
  | some shmid =>
      apply (h.readSemaphore (hmark shmid rfl)).bind
      intro _ semid t t' hboth
      rcases hboth with ⟨rfl, hafter⟩
      exact hafter.semRemove semid

theorem destroySemaphores_binds (shms : ShmPair) : destroySemaphores shms = (do
    let hReq <- shmAttach shms.requestShm.shmid
    let hResp <- shmAttach shms.responseShm.shmid
    readSemaphore hReq .full >>= semRemove
    readSemaphore hReq .empty >>= semRemove
    readSemaphore hReq .lock >>= semRemove
    readSemaphore hResp .full >>= semRemove
    readSemaphore hResp .empty >>= semRemove
    readSemaphore hResp .lock >>= semRemove) := by
  unfold destroySemaphores
  simp only [bind_assoc]

theorem destroyAlike (h : Alongside p marks k k') {shms : ShmPair}
    (hrequest : SetUp marks shms.requestShm.shmid)
    (hresponse : SetUp marks shms.responseShm.shmid) :
    RunsLike Anyhow
      (fun _ _ t t' => exists marks', marks.Below marks' ∧ Alongside p marks' t t')
      (destroySemaphores (mapPair p shms)) k (destroySemaphores shms) k' := by
  rw [destroySemaphores_binds, destroySemaphores_binds]
  apply (attachAlike h shms.requestShm.shmid).bind
  intro _ hReq t1 t1' hparts
  rcases hparts with ⟨rfl, marks1, hbelow1, hgiven1, h1⟩
  apply (attachAlike h1 shms.responseShm.shmid).bind
  intro _ hResp t2 t2' hall
  rcases hall with ⟨rfl, marks2, hbelow2, hgiven2, h2⟩
  have hbelow := hbelow1.trans hbelow2
  have hreq : forall which shmid, hReq = some shmid -> marks2.stored shmid which := by
    intro which shmid heq
    rw [(hgiven1 shmid heq).left]
    exact hbelow.stored _ _ (hrequest which)
  have hresp : forall which shmid, hResp = some shmid -> marks2.stored shmid which := by
    intro which shmid heq
    rw [(hgiven2 shmid heq).left]
    exact hbelow.stored _ _ (hresponse which)
  apply (removeAlike h2 (hreq .full)).bind
  intro _ _ t3 t3' h3
  apply (removeAlike h3 (hreq .empty)).bind
  intro _ _ t4 t4' h4
  apply (removeAlike h4 (hreq .lock)).bind
  intro _ _ t5 t5' h5
  apply (removeAlike h5 (hresp .full)).bind
  intro _ _ t6 t6' h6
  apply (removeAlike h6 (hresp .empty)).bind
  intro _ _ t7 t7' h7
  apply (removeAlike h7 (hresp .lock)).mono
  intro _ _ t8 t8' h8
  exact ⟨marks2, hbelow, h8⟩

end Allocators

end Rpc
end Notnets
