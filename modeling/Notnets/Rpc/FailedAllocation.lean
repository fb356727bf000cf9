import Notnets.Os.FailingCalls
import Notnets.Rpc.SemService

/-!
# Allocations that fail

The allocators do not look at what `shm_create` and `shm_attach` return.  A pair
of which a part is missing is used as if it were whole: `queue_create` writes its
header through the address of a segment that is not there.
-/

namespace Notnets
namespace Rpc

open Coord
open Foundation
open Os
open Queue

/-!
# The calls of an allocator
-/

structure OpenedPair where
  requestShmid : Int
  responseShmid : Int
  requestAddr : Option Int
  responseAddr : Option Int

def openPair (keys : Int × Int) : OsM OpenedPair := do
  let requestShmid <- shmCreate keys.1 queueRegionSize
  let responseShmid <- shmCreate keys.2 queueRegionSize
  let requestAddr <- shmAttach requestShmid
  let responseAddr <- shmAttach responseShmid
  pure ⟨requestShmid, responseShmid, requestAddr, responseAddr⟩

def OpenedPair.Failed (opened : OpenedPair) : Prop :=
  opened.requestShmid = -1 ∨ opened.responseShmid = -1 ∨
    opened.requestAddr = none ∨ opened.responseAddr = none

/-- One of the calls fails that the allocator makes for these keys. -/
def CallFails (k : Kernel) (keys : Int × Int) : Prop :=
  exists opened k', Returns (openPair keys) k opened k' ∧ opened.Failed

def createPair (keys : Int × Int) (create : Option Int -> Int -> OsM Int)
    (opened : OpenedPair) : OsM ShmPair := do
  let _ <- create opened.requestAddr keys.1
  let _ <- create opened.responseAddr keys.2
  pure
    { requestShm := ⟨keys.1, opened.requestShmid⟩
      responseShm := ⟨keys.2, opened.responseShmid⟩
      offset := 0 }

theorem keyedAllocator_eq (keys : Int × Int) (create : Option Int -> Int -> OsM Int) :
    keyedAllocator keys.1 keys.2 create = openPair keys >>= createPair keys create := by
  unfold keyedAllocator openPair createPair
  simp only [bind_assoc, pure_bind]

/-- No call fails, and the segments that the keys find are large enough. -/
def CallsWork (k : Kernel) (keys : Int × Int) : Prop :=
  k.CallsSucceed 4 ∧ forall key, HasKey keys key -> Room k.segments key queueRegionSize

/-- Each call of `shmget` fails, or finds a segment that exists. -/
def NoneCreated (k : Kernel) (keys : Int × Int) : Prop :=
  (k.failsAt 0 = true ∨ k.segments.find keys.1 ≠ none) ∧
    (k.failsAt 1 = true ∨ k.segments.find keys.2 ≠ none)

/-- The calls for the request queue do not fail. -/
def RequestAttached (k : Kernel) (keys : Int × Int) : Prop :=
  k.failsAt 0 = false ∧ Room k.segments keys.1 queueRegionSize ∧ k.failsAt 2 = false

structure PairOpened (keys : Int × Int) (k : Kernel) (opened : OpenedPair)
    (k' : Kernel) : Prop where
  semaphores : k'.semaphores = k.semaphores
  request : (exists shmid, opened.requestAddr = some shmid) <-> RequestAttached k keys
  missing : opened.Failed -> opened.requestAddr = none ∨ opened.responseAddr = none
  failed : opened.Failed <-> ¬ CallsWork k keys
  kept : forall shmid, k.present shmid = true -> k'.present shmid = true
  made : k'.present = k.present <-> NoneCreated k keys

section Pair

variable {k k' : Kernel} {keys : Int × Int} {opened : OpenedPair}

theorem exists_openPair (k : Kernel) (keys : Int × Int) :
    exists opened k', Returns (openPair keys) k opened k' := by
  apply returns_of_avoids
  intro halt
  apply avoids_bind (avoids_shmCreate _ _)
  intro requestShmid
  apply avoids_bind (avoids_shmCreate _ _)
  intro responseShmid
  apply avoids_bind (avoids_shmAttach _)
  intro requestAddr
  apply avoids_bind (avoids_shmAttach _)
  intro responseAddr
  exact avoids_pure _

theorem shmCreate_present_kept {key shmid : Int} {size : Nat}
    (h : Returns (shmCreate key size) k shmid k') {id : Int}
    (hpresent : k.present id = true) : k'.present id = true := by
  unfold Kernel.present at hpresent ⊢
  rcases Option.isSome_iff_exists.mp hpresent with ⟨e, hentry⟩
  rw [shmCreate_kept h hentry]
  rfl

theorem present_of_made {k k1 k2 : Kernel} {key1 key2 shmid1 shmid2 : Int}
    (hmake1 : Returns (shmCreate key1 queueRegionSize) k shmid1 k1)
    (hmake2 : Returns (shmCreate key2 queueRegionSize) k1 shmid2 k2)
    (hsame : k2.present = k.present) : k1.present = k.present := by
  funext id
  cases hbefore : k.present id with
  | true => exact shmCreate_present_kept hmake1 hbefore
  | false =>
      rw [← hsame] at hbefore
      by_contra hmade
      have hafter := shmCreate_present_kept hmake2 (by simpa using hmade)
      rw [hbefore] at hafter
      cases hafter

theorem openPair_made {k k1 k2 : Kernel} {shmid1 shmid2 : Int}
    (hmake1 : Returns (shmCreate keys.1 queueRegionSize) k shmid1 k1)
    (hmake2 : Returns (shmCreate keys.2 queueRegionSize) k1 shmid2 k2) :
    k2.present = k.present <-> NoneCreated k keys := by
  have hnext : k1.failsNext = k.failsAt 1 :=
    failsAt_tail (room_of_shmCreate hmake1).left 0
  unfold NoneCreated
  rcases shmCreate_made hmake1 with ⟨hnone1, hsame1⟩ | ⟨hsome1, hmade1⟩
  · have hpresent1 : k1.present = k.present := by
      unfold Kernel.present
      rw [hsame1]
    rcases shmCreate_made hmake2 with ⟨hnone2, hsame2⟩ | ⟨hsome2, hmade2⟩
    · rw [hsame1, hnext] at hnone2
      have hpresent2 : k2.present = k.present := by
        unfold Kernel.present
        rw [hsame2, hsame1]
      exact ⟨fun _ => ⟨hnone1, hnone2⟩, fun _ => hpresent2⟩
    · rw [hsame1, hnext] at hsome2
      rw [hpresent1] at hmade2
      exact ⟨fun hsame => absurd hsame hmade2, fun h => absurd h.right hsome2⟩
  · constructor
    · intro hsame
      exact absurd (present_of_made hmake1 hmake2 hsame) hmade1
    · intro h
      exact absurd h.left hsome1

theorem callsWork_iff : CallsWork k keys <->
    (k.failsAt 0 = false ∧ Room k.segments keys.1 queueRegionSize) ∧
      (k.failsAt 1 = false ∧ Room k.segments keys.2 queueRegionSize) ∧
      k.failsAt 2 = false ∧ k.failsAt 3 = false := by
  unfold CallsWork
  rw [callsSucceed_iff]
  constructor
  · intro hboth
    rcases hboth with ⟨hcalls, hroom⟩
    exact ⟨⟨hcalls 0 (by lia), hroom _ (Or.inl rfl)⟩,
      ⟨hcalls 1 (by lia), hroom _ (Or.inr rfl)⟩, hcalls 2 (by lia), hcalls 3 (by lia)⟩
  · intro hparts
    rcases hparts with ⟨⟨h0, hroom1⟩, ⟨h1, hroom2⟩, h2, h3⟩
    constructor
    · intro i hi
      match i, hi with
      | 0, _ => exact h0
      | 1, _ => exact h1
      | 2, _ => exact h2
      | 3, _ => exact h3
    · intro key hcases
      rcases hcases with rfl | rfl
      · exact hroom1
      · exact hroom2

theorem attach_named {k1 : Kernel} {shmid : Int} {address : Option Int}
    (h : Returns (shmAttach shmid) k1 address k')
    (hnamed : shmid ≠ -1 -> exists e, k1.segments.entries shmid = some e) :
    (address = some shmid <-> k1.failsNext = false ∧ shmid ≠ -1) ∧
      (address = none ∨ address = some shmid) := by
  refine ⟨(shmAttach_some_iff h).trans ?_, ?_⟩
  · constructor
    · intro hparts
      rcases hparts with ⟨hnext, e, hentry⟩
      have hlow := (IpcTable.lt_next hentry).left
      exact ⟨hnext, by lia⟩
    · intro hboth
      rcases hboth with ⟨hnext, hne⟩
      exact ⟨hnext, hnamed hne⟩
  · rcases (returns_shmAttach h).right.right with hnone | ⟨hsome, _⟩
    · exact Or.inl hnone
    · exact Or.inr hsome

structure PairParts (keys : Int × Int) (k : Kernel) (opened : OpenedPair) : Prop where
  request : opened.requestShmid ≠ -1 <->
    k.failsAt 0 = false ∧ Room k.segments keys.1 queueRegionSize
  response : opened.responseShmid ≠ -1 <->
    k.failsAt 1 = false ∧ Room k.segments keys.2 queueRegionSize
  requestNone : opened.requestAddr = none ∨
    opened.requestAddr = some opened.requestShmid
  responseNone : opened.responseAddr = none ∨
    opened.responseAddr = some opened.responseShmid
  requestSome : opened.requestAddr = some opened.requestShmid <->
    k.failsAt 2 = false ∧ opened.requestShmid ≠ -1
  responseSome : opened.responseAddr = some opened.responseShmid <->
    k.failsAt 3 = false ∧ opened.responseShmid ≠ -1

theorem openPair_parts {k1 k2 k3 : Kernel}
    (hmake1 : Returns (shmCreate keys.1 queueRegionSize) k opened.requestShmid k1)
    (hmake2 : Returns (shmCreate keys.2 queueRegionSize) k1 opened.responseShmid k2)
    (hattach1 : Returns (shmAttach opened.requestShmid) k2 opened.requestAddr k3)
    (hattach2 : Returns (shmAttach opened.responseShmid) k3 opened.responseAddr k') :
    PairParts keys k opened := by
  have hfaults1 := (room_of_shmCreate hmake1).left
  have hfaults2 := (room_of_shmCreate hmake2).left
  have hfaults3 := shmAttach_faults hattach1
  have hnext1 : k1.failsNext = k.failsAt 1 := failsAt_tail hfaults1 0
  have hnext2 : k2.failsNext = k.failsAt 2 := by
    rw [← failsAt_tail hfaults1]
    exact failsAt_tail hfaults2 0
  have hnext3 : k3.failsNext = k.failsAt 3 := by
    rw [← failsAt_tail hfaults1, ← failsAt_tail hfaults2]
    exact failsAt_tail hfaults3 0
  have hnamed1 : opened.requestShmid ≠ -1 ->
      exists e, k2.segments.entries opened.requestShmid = some e := by
    intro hne
    rcases shmCreate_present hmake1 hne with ⟨e, hentry⟩
    exact ⟨e, shmCreate_kept hmake2 hentry⟩
  have hnamed2 : opened.responseShmid ≠ -1 ->
      exists e, k3.segments.entries opened.responseShmid = some e := by
    rw [(returns_shmAttach hattach1).left]
    exact shmCreate_present hmake2
  rcases attach_named hattach1 hnamed1 with ⟨hiff1, hcases1⟩
  rcases attach_named hattach2 hnamed2 with ⟨hiff2, hcases2⟩
  rw [hnext2] at hiff1
  rw [hnext3] at hiff2
  constructor
  · exact shmCreate_ne_iff hmake1
  · rw [shmCreate_ne_iff hmake2, hnext1, room_shmCreate hmake1]
  · exact hcases1
  · exact hcases2
  · exact hiff1
  · exact hiff2

theorem PairParts.attached (h : PairParts keys k opened) :
    (exists shmid, opened.requestAddr = some shmid) <-> RequestAttached k keys := by
  constructor
  · intro hboth
    rcases hboth with ⟨shmid, hsome⟩
    rcases h.requestNone with hnone | haddress
    · rw [hnone] at hsome
      cases hsome
    · rcases h.requestSome.mp haddress with ⟨h2, hne⟩
      rcases h.request.mp hne with ⟨h0, hroom⟩
      exact ⟨h0, hroom, h2⟩
  · intro hparts
    rcases hparts with ⟨h0, hroom, h2⟩
    exact ⟨_, h.requestSome.mpr ⟨h2, h.request.mpr ⟨h0, hroom⟩⟩⟩

theorem PairParts.whole (h : PairParts keys k opened) :
    ¬ opened.Failed <-> opened.requestAddr = some opened.requestShmid ∧
      opened.responseAddr = some opened.responseShmid := by
  constructor
  · intro hnot
    constructor
    · rcases h.requestNone with hnone | haddress
      · exact absurd (Or.inr (Or.inr (Or.inl hnone))) hnot
      · exact haddress
    · rcases h.responseNone with hnone | haddress
      · exact absurd (Or.inr (Or.inr (Or.inr hnone))) hnot
      · exact haddress
  · rintro ⟨haddress1, haddress2⟩ (hid | hid | hnone | hnone)
    · exact (h.requestSome.mp haddress1).right hid
    · exact (h.responseSome.mp haddress2).right hid
    · rw [hnone] at haddress1
      cases haddress1
    · rw [hnone] at haddress2
      cases haddress2

theorem PairParts.missing (h : PairParts keys k opened) (hfailed : opened.Failed) :
    opened.requestAddr = none ∨ opened.responseAddr = none := by
  rcases h.requestNone with hnone | haddress1
  · exact Or.inl hnone
  · rcases h.responseNone with hnone | haddress2
    · exact Or.inr hnone
    · exact absurd hfailed (h.whole.mpr ⟨haddress1, haddress2⟩)

theorem PairParts.failed_iff (h : PairParts keys k opened) :
    opened.Failed <-> ¬ CallsWork k keys := by
  have hworks : ¬ opened.Failed <-> CallsWork k keys := by
    rw [h.whole, h.requestSome, h.responseSome, h.request, h.response, callsWork_iff]
    constructor
    · intro hparts
      rcases hparts with ⟨⟨h2, hfirst⟩, h3, hsecond⟩
      exact ⟨hfirst, hsecond, h2, h3⟩
    · intro hall
      rcases hall with ⟨hfirst, hsecond, h2, h3⟩
      exact ⟨⟨h2, hfirst⟩, h3, hsecond⟩
  rw [← hworks, not_not]

theorem openPair_opened (h : Returns (openPair keys) k opened k') :
    PairOpened keys k opened k' := by
  rcases returns_bind.mp h with ⟨request, k1, hmake1, h⟩
  rcases returns_bind.mp h with ⟨response, k2, hmake2, h⟩
  rcases returns_bind.mp h with ⟨requestAddr, k3, hattach1, h⟩
  rcases returns_bind.mp h with ⟨responseAddr, k4, hattach2, h⟩
  rcases returns_pure.mp h with ⟨hopened, hk⟩
  subst hopened hk
  have hparts : PairParts keys k ⟨request, response, requestAddr, responseAddr⟩ :=
    openPair_parts hmake1 hmake2 hattach1 hattach2
  rcases returns_shmAttach hattach1 with ⟨hseg3, hsem3, _⟩
  rcases returns_shmAttach hattach2 with ⟨hseg4, hsem4, _⟩
  have hpresent : k'.present = k2.present := by
    unfold Kernel.present
    rw [hseg4, hseg3]
  constructor
  · rw [hsem4, hsem3, (returns_shmCreate hmake2).left, (returns_shmCreate hmake1).left]
  · exact hparts.attached
  · exact hparts.missing
  · exact hparts.failed_iff
  · intro shmid hbefore
    rw [hpresent]
    exact shmCreate_present_kept hmake2 (shmCreate_present_kept hmake1 hbefore)
  · rw [hpresent]
    exact openPair_made hmake1 hmake2

end Pair

/-!
# Making a queue through an address
-/

/-- How making a queue in a region can go: nothing is written for a size that is
not admitted, and otherwise the header is written first; the set-up that follows
stops for some keys and semaphores. -/
structure MakesQueue (create : Option Int -> Int -> OsM Int) (Admitted : Prop)
    (Stops : Int -> IpcTable SemaphoreSet -> Prop) : Prop where
  writes : WritesAt create
  leaves : forall address key, Leaves Kernel.present (create address key)
  rejected : ¬ Admitted -> forall address key, Avoids .badAddress (create address key)
  missing : Admitted -> forall key k, Halts (create none key) k .badAddress k
  attached : forall shmid key, Avoids .badAddress (create (some shmid) key)
  stops : Admitted -> forall shmid key k,
    (exists ret k', Returns (create (some shmid) key) k ret k') <->
      ¬ Stops key k.semaphores

/-- The slot is not published, nothing is written through `(void*) -1`, and no
segment stays behind. -/
structure FailureContained (header : CoordHeader) (slot : Slot)
    (allocation : Int -> Int -> OsM ShmPair) (k : Kernel) : Prop where
  unpublished : forall result k',
    Returns (serviceSlot header slot allocation) k result k' ->
      (result.1.slots slot).shmCreated = false
  written : forall k',
    ¬ Halts (serviceSlot header slot allocation) k .badAddress k'
  removed : forall shmid, k.segments.entries shmid = none ->
    (lastState (serviceSlot header slot allocation) k).segments.entries shmid = none

section Outcome

variable {create : Option Int -> Int -> OsM Int} {Admitted : Prop}
  {Stops : Int -> IpcTable SemaphoreSet -> Prop} {keys : Int × Int}
  {opened : OpenedPair} {k : Kernel}

theorem leaves_createPair (hmakes : MakesQueue create Admitted Stops) :
    Leaves Kernel.present (createPair keys create opened) := by
  apply leaves_bind (hmakes.leaves _ _)
  intro ret1
  apply leaves_bind (hmakes.leaves _ _)
  intro ret2
  exact leaves_pure _

/-- With a part of the pair missing, the allocator does not return. -/
theorem not_returns_createPair (hmakes : MakesQueue create Admitted Stops)
    (hmissing : opened.requestAddr = none ∨ opened.responseAddr = none)
    {shms : ShmPair} {k' : Kernel} :
    ¬ Returns (createPair keys create opened) k shms k' := by
  intro h
  rcases returns_bind.mp h with ⟨ret1, k1, hcreate1, h⟩
  rcases returns_bind.mp h with ⟨ret2, k2, hcreate2, _⟩
  rcases hmakes.writes _ _ _ _ _ hcreate1 with ⟨id1, hsome1, _⟩
  rcases hmakes.writes _ _ _ _ _ hcreate2 with ⟨id2, hsome2, _⟩
  rcases hmissing with hnone | hnone
  · rw [hsome1] at hnone
    cases hnone
  · rw [hsome2] at hnone
    cases hnone

theorem avoids_createPair (hmakes : MakesQueue create Admitted Stops)
    (hrejected : ¬ Admitted) : Avoids .badAddress (createPair keys create opened) := by
  apply avoids_bind (hmakes.rejected hrejected _ _)
  intro ret1
  apply avoids_bind (hmakes.rejected hrejected _ _)
  intro ret2
  exact avoids_pure _

/-- The program writes through the address of a missing part, unless the set-up of
the request queue stops it before. -/
theorem createPair_writes_iff (hmakes : MakesQueue create Admitted Stops)
    (hadmitted : Admitted)
    (hmissing : opened.requestAddr = none ∨ opened.responseAddr = none) :
    (exists k', Halts (createPair keys create opened) k .badAddress k') <->
      ¬ ((exists shmid, opened.requestAddr = some shmid) ∧
        Stops keys.1 k.semaphores) := by
  unfold createPair
  cases hrequest : opened.requestAddr with
  | none =>
      constructor
      · intro _ hparts
        rcases hparts with ⟨⟨shmid, hsome⟩, _⟩
        cases hsome
      · intro _
        exact ⟨k, halts_bind.mpr (Or.inl (hmakes.missing hadmitted _ _))⟩
  | some shmid =>
      have hresponse : opened.responseAddr = none := by
        rcases hmissing with hnone | hnone
        · rw [hrequest] at hnone
          cases hnone
        · exact hnone
      rw [hresponse]
      constructor
      · rintro ⟨k', h⟩ ⟨_, hstops⟩
        rcases halts_bind.mp h with h | ⟨ret, k1, hreturns, _⟩
        · exact hmakes.attached shmid keys.1 k k' h
        · exact (hmakes.stops hadmitted shmid keys.1 k).mp ⟨ret, k1, hreturns⟩ hstops
      · intro hnot
        have hgoes : ¬ Stops keys.1 k.semaphores := by
          intro hstops
          exact hnot ⟨⟨shmid, rfl⟩, hstops⟩
        rcases (hmakes.stops hadmitted shmid keys.1 k).mpr hgoes with ⟨ret, k1, hreturns⟩
        refine ⟨k1, (halts_bind_of_returns hreturns).mpr ?_⟩
        exact halts_bind.mpr (Or.inl (hmakes.missing hadmitted _ _))

end Outcome

section Service

variable {header : CoordHeader} {slot : Slot} {k k' : Kernel}
  {allocation : Int -> Int -> OsM ShmPair}

theorem halts_serviceSlot (hneeds : NeedsService header slot) {halt : Halt} :
    Halts (serviceSlot header slot allocation) k halt k' <->
      Halts (allocation (header.slots slot).messageSize (header.slots slot).clientId) k
        halt k' := by
  unfold serviceSlot
  dsimp only
  rw [if_pos (by rw [hneeds.left, hneeds.right]; rfl), halts_bind]
  constructor
  · intro hcases
    rcases hcases with h | ⟨shms, k1, _, h⟩
    · exact h
    · exact absurd h not_halts_pure
  · exact Or.inl

theorem present_eq_iff (hkept : forall shmid, k.present shmid = true ->
    k'.present shmid = true) :
    (forall shmid, k.segments.entries shmid = none ->
      k'.segments.entries shmid = none) <-> k'.present = k.present := by
  have hnone : forall (k : Kernel) shmid,
      k.segments.entries shmid = none <-> k.present shmid = false := by
    intro k shmid
    unfold Kernel.present
    simp
  constructor
  · intro h
    funext shmid
    cases hbefore : k.present shmid with
    | true => exact hkept shmid hbefore
    | false => exact (hnone k' shmid).mp (h shmid ((hnone k shmid).mpr hbefore))
  · intro hsame shmid hentry
    rw [hnone, hsame, ← hnone]
    exact hentry

/-- With a call failed, the attempt is contained when no segment was made and the
program comes to an end before it writes through an address that is missing. -/
theorem failureContained_iff {create : Option Int -> Int -> OsM Int} {Admitted : Prop}
    {Stops : Int -> IpcTable SemaphoreSet -> Prop} {keys : Int × Int}
    (hmakes : MakesQueue create Admitted Stops) (hneeds : NeedsService header slot)
    (hallocation : allocation (header.slots slot).messageSize
      (header.slots slot).clientId = keyedAllocator keys.1 keys.2 create)
    (hfails : CallFails k keys) :
    FailureContained header slot allocation k <->
      NoneCreated k keys ∧
        (¬ Admitted ∨ (RequestAttached k keys ∧ Stops keys.1 k.semaphores)) := by
  rcases hfails with ⟨opened, k4, hopen, hfailed⟩
  have hpair := openPair_opened hopen
  have hmissing := hpair.missing hfailed
  rcases returns_or_halts (createPair keys create opened) k4 with
    ⟨shms, k5, hreturns⟩ | ⟨halt, k5, hhalts⟩
  · exact absurd hreturns (not_returns_createPair hmakes hmissing)
  · have hleaves : Leaves Kernel.present (createPair keys create opened) :=
      leaves_createPair hmakes
    have hpresent : k5.present = k4.present := by
      rw [← hleaves k4, hhalts.lastState_eq]
    have hservice : forall halt' k',
        Halts (serviceSlot header slot allocation) k halt' k' <->
          Halts (createPair keys create opened) k4 halt' k' := by
      intro halt' k'
      rw [halts_serviceSlot hneeds, hallocation, keyedAllocator_eq,
        halts_bind_of_returns hopen]
    have hlast : lastState (serviceSlot header slot allocation) k = k5 :=
      ((hservice halt k5).mpr hhalts).lastState_eq
    have hremoved : (forall shmid, k.segments.entries shmid = none ->
        k5.segments.entries shmid = none) <-> NoneCreated k keys := by
      rw [present_eq_iff (by rw [hpresent]; exact hpair.kept), hpresent]
      exact hpair.made
    have hwritten : (forall k',
        ¬ Halts (serviceSlot header slot allocation) k .badAddress k') <->
          (¬ Admitted ∨ (RequestAttached k keys ∧ Stops keys.1 k.semaphores)) := by
      simp only [hservice]
      by_cases hadmitted : Admitted
      · have hwrites : (exists k',
            Halts (createPair keys create opened) k4 .badAddress k') <-> _ :=
          createPair_writes_iff hmakes hadmitted hmissing
        rw [hpair.request, hpair.semaphores] at hwrites
        constructor
        · intro hnone
          right
          by_contra hgoes
          rcases hwrites.mpr hgoes with ⟨k', hbad⟩
          exact hnone k' hbad
        · rintro (hrejected | hstops) k' hbad
          · exact hrejected hadmitted
          · exact hwrites.mp ⟨k', hbad⟩ hstops
      · exact ⟨fun _ => Or.inl hadmitted,
          fun _ k' => avoids_createPair hmakes hadmitted k4 k'⟩
    constructor
    · intro h
      refine ⟨hremoved.mp ?_, hwritten.mp h.written⟩
      rw [← hlast]
      exact h.removed
    · intro hboth
      rcases hboth with ⟨hnone, hstopped⟩
      constructor
      · intro result k' hreturns
        exact absurd hreturns ((hservice halt k5).mpr hhalts).not_returns
      · exact hwritten.mpr hstopped
      · rw [hlast]
        exact hremoved.mpr hnone

end Service

/-!
# The two allocators
-/

/-- `queue_create` ends the program before it writes, for a queue region and this
message size. -/
def RejectsSize (headerSize : Nat) (messageSize : Int) : Prop :=
  queueRegionSize < sizeAdd (toSizeT messageSize) headerSize ∨ toSizeT messageSize = 0

theorem createHeader_cases (headerSize shmSize messageSize : Nat) :
    ((shmSize < sizeAdd messageSize headerSize ∨ messageSize = 0) ∧
      exists halt, createHeader headerSize shmSize messageSize = .error halt ∧
        halt ≠ .badAddress) ∨
    (¬ (shmSize < sizeAdd messageSize headerSize ∨ messageSize = 0) ∧
      exists result, createHeader headerSize shmSize messageSize = .ok result) := by
  unfold createHeader queueSizes
  by_cases hlarge : shmSize < sizeAdd messageSize headerSize
  · rw [if_pos hlarge]
    exact Or.inl ⟨Or.inl hlarge, .exit, rfl, by decide⟩
  · rw [if_neg hlarge]
    by_cases hzero : messageSize = 0
    · rw [if_pos hzero]
      exact Or.inl ⟨Or.inr hzero, .divideByZero, rfl, by decide⟩
    · rw [if_neg hzero]
      exact Or.inr ⟨not_or.mpr ⟨hlarge, hzero⟩, _, rfl⟩

theorem leaves_writeHeader (address : Option Int) (header : SpscQueueHeader) :
    Leaves Kernel.present (writeHeader address header) :=
  leaves_writeSegment address _

theorem avoids_writeHeader {halt : Halt} (shmid : Int) (header : SpscQueueHeader) :
    Avoids halt (writeHeader (some shmid) header) :=
  avoids_writeSegment shmid _

theorem halts_writeHeader_none (header : SpscQueueHeader) (k : Kernel) :
    Halts (writeHeader none header) k .badAddress k :=
  halts_write_none.mpr ⟨rfl, rfl⟩

/-- A queue is made by writing the header that was computed, and then by a set-up
that works on the same region. -/
theorem makesQueue_of {create : Option Int -> Int -> OsM Int} {Admitted : Prop}
    {Stops : Int -> IpcTable SemaphoreSet -> Prop}
    {made : Except Halt (SpscQueueHeader × Int)}
    (setUp : Option Int -> Int -> Int -> OsM Int)
    (hmade : (¬ Admitted ∧ exists halt, made = .error halt ∧ halt ≠ .badAddress) ∨
      (Admitted ∧ exists result, made = .ok result))
    (herror : forall halt address key, made = .error halt ->
      create address key = throw halt)
    (hok : forall header usable address key, made = .ok (header, usable) ->
      create address key =
        writeHeader address header >>= fun _ => setUp address key usable)
    (hwrites : WritesAt create)
    (hleaves : forall address key usable,
      Leaves Kernel.present (setUp address key usable))
    (havoids : forall shmid key usable,
      Avoids .badAddress (setUp (some shmid) key usable))
    (hstops : Admitted -> forall shmid key k,
      (exists ret k', Returns (create (some shmid) key) k ret k') <->
        ¬ Stops key k.semaphores) :
    MakesQueue create Admitted Stops := by
  rcases hmade with ⟨hrejected, halt, hmade, hne⟩ | ⟨hadmitted, ⟨header, usable⟩, hmade⟩
  · constructor
    · exact hwrites
    · intro address key
      rw [herror halt address key hmade]
      exact leaves_throw _
    · intro _ address key
      rw [herror halt address key hmade]
      exact avoids_throw hne
    · intro hadmitted
      exact absurd hadmitted hrejected
    · intro shmid key
      rw [herror halt (some shmid) key hmade]
      exact avoids_throw hne
    · exact hstops
  · constructor
    · exact hwrites
    · intro address key
      rw [hok header usable address key hmade]
      apply leaves_bind (leaves_writeHeader _ _)
      intro u
      exact hleaves address key usable
    · intro hrejected
      exact absurd hadmitted hrejected
    · intro _ key k
      rw [hok header usable none key hmade]
      exact halts_bind.mpr (Or.inl (halts_writeHeader_none _ _))
    · intro shmid key
      rw [hok header usable (some shmid) key hmade]
      apply avoids_bind (avoids_writeHeader _ _)
      intro u
      exact havoids shmid key usable
    · exact hstops

theorem createHeader_admits (headerSize : Nat) (messageSize : Int) :
    (¬ ¬ RejectsSize headerSize messageSize ∧ exists halt,
      createHeader headerSize queueRegionSize (toSizeT messageSize) = .error halt ∧
        halt ≠ .badAddress) ∨
    (¬ RejectsSize headerSize messageSize ∧ exists result,
      createHeader headerSize queueRegionSize (toSizeT messageSize) = .ok result) := by
  rw [not_not]
  exact createHeader_cases _ _ _

theorem makesQueue_poll (messageSize : Int) :
    MakesQueue (fun address _ => queueCreateAt address queueRegionSize
        (toSizeT messageSize))
      (¬ RejectsSize sizeofSpscQueueHeader messageSize) (fun _ _ => False) := by
  have hmade := createHeader_admits sizeofSpscQueueHeader messageSize
  apply makesQueue_of (fun _ _ usable => pure usable) hmade
  · intro halt address key herror
    have herror : queueCreate queueRegionSize (toSizeT messageSize) = .error halt :=
      herror
    unfold queueCreateAt
    rw [herror]
  · intro header usable address key hok
    have hok : queueCreate queueRegionSize (toSizeT messageSize) = .ok (header, usable) :=
      hok
    unfold queueCreateAt
    rw [hok]
  · exact writesAt_queueCreate _ _
  · intro address key usable
    exact leaves_pure _
  · intro shmid key usable
    exact avoids_pure _
  · intro hadmitted shmid key k
    refine ⟨fun _ hno => hno, fun _ => ?_⟩
    rcases hmade with ⟨hrejected, _⟩ | ⟨_, ⟨header, usable⟩, hok⟩
    · exact absurd hadmitted hrejected
    · exact ⟨usable, _, returns_queueCreateAt.mpr ⟨header, hok, returns_write.mpr rfl⟩⟩

theorem leaves_storeSemaphore (address : Option Int) (which : Semaphore) (key : Int) :
    Leaves Kernel.present (storeSemaphore address which key) := by
  apply leaves_bind (leaves_initsem (fun _ _ => rfl) key)
  intro semid
  apply leaves_bind (leaves_writeSegment _ _)
  intro u
  split
  · exact leaves_throw _
  · exact leaves_pure _

theorem avoids_storeSemaphore (shmid : Int) (which : Semaphore) (key : Int) :
    Avoids .badAddress (storeSemaphore (some shmid) which key) := by
  apply avoids_bind (avoids_initsem key)
  intro semid
  apply avoids_bind (avoids_writeSegment _ _)
  intro u
  split
  · exact avoids_throw (by decide)
  · exact avoids_pure _

theorem makesQueue_sem (messageSize : Int) :
    MakesQueue (fun address key => semQueueCreateAt address key queueRegionSize
        (toSizeT messageSize))
      (¬ RejectsSize sizeofSemSpscQueueHeader messageSize)
      (fun key t => openAll (queueRequests key) t = none) := by
  have hmade := createHeader_admits sizeofSemSpscQueueHeader messageSize
  let setUp : Option Int -> Int -> Int -> OsM Int := fun address key usable => do
    let _ <- storeSemaphore address .full (semaphoreKey key 2)
    let semEmpty <- storeSemaphore address .empty (semaphoreKey key 20)
    let _ <- semWait semEmpty
    let _ <- storeSemaphore address .lock (semaphoreKey key 200)
    pure usable
  apply makesQueue_of setUp hmade
  · intro halt address key herror
    have herror : semQueueCreate queueRegionSize (toSizeT messageSize) = .error halt :=
      herror
    unfold semQueueCreateAt
    rw [herror]
  · intro header usable address key hok
    have hok : semQueueCreate queueRegionSize (toSizeT messageSize) =
        .ok (header, usable) := hok
    unfold semQueueCreateAt
    rw [hok]
  · exact writesAt_semQueueCreate _ _
  · intro address key usable
    apply leaves_bind (leaves_storeSemaphore _ _ _)
    intro semFull
    apply leaves_bind (leaves_storeSemaphore _ _ _)
    intro semEmpty
    apply leaves_bind (leaves_semWait (fun _ _ => rfl) semEmpty)
    intro waited
    apply leaves_bind (leaves_storeSemaphore _ _ _)
    intro semLock
    exact leaves_pure _
  · intro shmid key usable
    apply avoids_bind (avoids_storeSemaphore _ _ _)
    intro semFull
    apply avoids_bind (avoids_storeSemaphore _ _ _)
    intro semEmpty
    apply avoids_bind (avoids_semWait (by decide) semEmpty)
    intro waited
    apply avoids_bind (avoids_storeSemaphore _ _ _)
    intro semLock
    exact avoids_pure _
  · intro hadmitted shmid key k
    constructor
    · rintro ⟨ret, k', hreturns⟩ hnone
      rcases returns_semQueueCreateAt.mp hreturns with
        ⟨_, _, semFull, semEmpty, semLock, t, hopen, _⟩
      rw [hnone] at hopen
      cases hopen
    · intro hsome
      rcases hmade with ⟨hrejected, _⟩ | ⟨_, ⟨header, usable⟩, hok⟩
      · exact absurd hadmitted hrejected
      · cases hopen : openAll (queueRequests key) k.semaphores with
        | none => exact absurd hopen hsome
        | some result =>
            rcases openAll_queueRequests.mp hopen with
              ⟨semFull, semEmpty, semLock, _, _, _, hids, _⟩
            refine ⟨usable, _, returns_semQueueCreateAt.mpr
              ⟨header, hok, semFull, semEmpty, semLock, result.2, ?_, rfl⟩⟩
            rw [hopen, ← hids]

section Contained

variable {header : CoordHeader} {slot : Slot} {k : Kernel}

theorem callFails_iff (keys : Int × Int) : CallFails k keys <-> ¬ CallsWork k keys := by
  constructor
  · intro hparts
    rcases hparts with ⟨opened, k', hopen, hfailed⟩
    exact (openPair_opened hopen).failed.mp hfailed
  · intro hbroken
    rcases exists_openPair k keys with ⟨opened, k', hopen⟩
    exact ⟨opened, k', hopen, (openPair_opened hopen).failed.mpr hbroken⟩

theorem contained_iff {P Q : Prop} {keys : Int × Int}
    (h : CallFails k keys -> (P <-> Q)) :
    (CallFails k keys -> P) <-> CallsWork k keys ∨ Q := by
  rw [callFails_iff] at h ⊢
  constructor
  · intro hcontained
    by_cases hworks : CallsWork k keys
    · exact Or.inl hworks
    · exact Or.inr ((h hworks).mp (hcontained hworks))
  · rintro (hworks | hq) hbroken
    · exact absurd hworks hbroken
    · exact (h hbroken).mpr hq

/-- The failure of a call is contained only where no segment was made before, and
the message size, or for SEM the semaphores of the request queue, end the program
before it writes through the missing address. -/
theorem failed_allocation_contained_iff (hneeds : NeedsService header slot) (k : Kernel) :
    ((CallFails k (derivedKeys .hash (header.slots slot).clientId) ->
        FailureContained header slot hashShmAllocator k) <->
      CallsWork k (derivedKeys .hash (header.slots slot).clientId) ∨
        (NoneCreated k (derivedKeys .hash (header.slots slot).clientId) ∧
          RejectsSize sizeofSpscQueueHeader (header.slots slot).messageSize)) ∧
    ((CallFails k (derivedKeys .sem (header.slots slot).clientId) ->
        FailureContained header slot hashSemShmAllocator k) <->
      CallsWork k (derivedKeys .sem (header.slots slot).clientId) ∨
        (NoneCreated k (derivedKeys .sem (header.slots slot).clientId) ∧
          (RejectsSize sizeofSemSpscQueueHeader (header.slots slot).messageSize ∨
            (RequestAttached k (derivedKeys .sem (header.slots slot).clientId) ∧
              openAll (queueRequests ((header.slots slot).clientId.tdiv 2)) k.semaphores =
                none)))) := by
  constructor
  · apply contained_iff
    intro hfails
    rw [failureContained_iff (makesQueue_poll _) hneeds rfl hfails, not_not, and_false,
      or_false]
  · apply contained_iff
    intro hfails
    rw [failureContained_iff (makesQueue_sem _) hneeds rfl hfails, not_not]
    rfl

end Contained

/-- A zeroed coordinator to which one POLL client has come. -/
def pollRequested : CoordHeader :=
  (requestSlot CoordHeader.zero 1000 64 .poll).1

/-- Nothing is there yet, and the first call of `shmget` fails. -/
def refusingKernel : Kernel where
  segments := IpcTable.empty
  semaphores := IpcTable.empty
  faults := [true]

theorem pollRequested_clientId : (pollRequested.slots firstSlot).clientId = 1000 := by
  decide

theorem pollRequested_messageSize : (pollRequested.slots firstSlot).messageSize = 64 := by
  decide

theorem failed_allocation_contained_iff_refusing :
    NeedsService pollRequested firstSlot ∧
      ((CallFails refusingKernel (derivedKeys .hash 1000) ->
          FailureContained pollRequested firstSlot hashShmAllocator refusingKernel) <->
        CallsWork refusingKernel (derivedKeys .hash 1000) ∨
          (NoneCreated refusingKernel (derivedKeys .hash 1000) ∧
            RejectsSize sizeofSpscQueueHeader 64)) := by
  have hneeds : NeedsService pollRequested firstSlot := by decide
  have h := (failed_allocation_contained_iff hneeds refusingKernel).left
  rw [pollRequested_clientId, pollRequested_messageSize] at h
  exact ⟨hneeds, h⟩

/-- The request segment is refused: the header of the request queue is written through
`(void*) -1`, and the response segment stays behind. -/
theorem refused_segment_written :
    NeedsService pollRequested firstSlot ∧
      CallFails refusingKernel (derivedKeys .hash 1000) ∧
      (exists k', Halts (serviceSlot pollRequested firstSlot hashShmAllocator)
        refusingKernel .badAddress k') ∧
      (lastState (serviceSlot pollRequested firstSlot hashShmAllocator)
        refusingKernel).present 0 = true ∧
      ¬ FailureContained pollRequested firstSlot hashShmAllocator refusingKernel := by
  have hhalts : Halts (serviceSlot pollRequested firstSlot hashShmAllocator)
      refusingKernel .badAddress
      (lastState (serviceSlot pollRequested firstSlot hashShmAllocator)
        refusingKernel) := rfl
  refine ⟨by decide, (callFails_iff _).mpr ?_, ⟨_, hhalts⟩, by decide, ?_⟩
  · intro hworks
    exact absurd (hworks.left true (by decide)) (by decide)
  · intro h
    exact h.written _ hhalts

end Rpc
end Notnets
