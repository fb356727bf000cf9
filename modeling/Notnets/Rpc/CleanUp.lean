import Mathlib.Logic.Relation
import Notnets.Rpc.Client
import Notnets.Rpc.SemService

/-!
# The clean-up of a connection

A visit tests `detach` twice: `clean_up_queue_resources` tests it to destroy the
semaphores of a SEM connection, and `clear_slot` tests it to remove the segments.
A client may close in between.  What `clean_up_queue_resources` destroys are the
semaphores that the headers of the two queues refer to, which are those that were made
for the connection as long as no queue was made in its segments again.
-/

namespace Notnets
namespace Rpc

open Coord
open Foundation
open Os
open Queue
open Relation

inductive CleanUpPc where
  /-- About to read the type of the row. -/
  | choosing
  | servicing (allocator : Allocator)
  /-- In `clean_up_queue_resources`, about to test `client_reserved`. -/
  | testingReserved
  | testingDetach
  | testingType
  | destroying
  /-- In `clear_slot`, about to test `detach`. -/
  | testingClear
  /-- In `force_clear_slot`. -/
  | clearing
deriving DecidableEq, Repr

structure CleanUpState where
  pool : PoolState
  kernel : Kernel
  manager : CleanUpPc
  /-- The semaphores that were set up for the connection of a row.  This is history: no
  step reads it. -/
  made : Slot -> List Int

inductive CleanUpLabel where
  | client (l : PoolLabel)
  /-- A party writes to a queue region. -/
  | write (shmid : Int) (queue : SpscQueue)
  /-- A party changes the value of a semaphore. -/
  | operate (semid : Int) (value : Nat)
  | manager

/-- The identifiers that the six calls of `_initsem` return to the SEM allocator. -/
def connectionSemaphores (k : Kernel) (clientId : Int) : List Int :=
  ((openAll (connectionRequests clientId) k.semaphores).map Prod.fst).getD []

def setUpBy (k : Kernel) (clientId : Int) : Allocator -> List Int
  | .sem => connectionSemaphores k clientId
  | _ => []

def cleanUpStep (boost : Int -> Int -> OsM ShmPair) (s : CleanUpState) :
    Option CleanUpState :=
  match s.manager with
  | .choosing =>
      let allocator := allocatorOf (s.pool.header.slots s.pool.cursor).type
      some { s with manager := .servicing allocator }
  | .servicing allocator =>
      (returnOf (serviceSlot s.pool.header s.pool.cursor
          ((poolOps boost).run allocator)) s.kernel).map fun result =>
        { pool := { s.pool with header := result.1.1 }
          kernel := result.2
          manager := .testingReserved
          made :=
            if NeedsService s.pool.header s.pool.cursor then
              Function.update s.made s.pool.cursor
                (setUpBy s.kernel (s.pool.header.slots s.pool.cursor).clientId allocator)
            else
              s.made }
  | .testingReserved =>
      if s.pool.header.clientReserved s.pool.cursor then
        some { s with manager := .testingDetach }
      else
        some { s with manager := .testingClear }
  | .testingDetach =>
      if (s.pool.header.slots s.pool.cursor).detach then
        some { s with manager := .testingType }
      else
        some { s with manager := .testingClear }
  | .testingType =>
      match (s.pool.header.slots s.pool.cursor).type with
      | .poll => some { s with manager := .testingClear }
      | .boost => some { s with manager := .testingClear }
      | .sem => some { s with manager := .destroying }
      | .other => some { s with manager := .testingClear }
  | .destroying =>
      (returnOf (destroySemaphores (s.pool.header.slots s.pool.cursor).shms)
          s.kernel).map fun result =>
        { s with kernel := result.2, manager := .testingClear }
  | .testingClear =>
      if (s.pool.header.slots s.pool.cursor).detach then
        some { s with manager := .clearing }
      else
        some { s with
          pool := { s.pool with cursor := nextSlot s.pool.cursor }
          manager := .choosing }
  | .clearing =>
      (returnOf (forceClearSlot shmRemove s.pool.header s.pool.cursor)
          s.kernel).map fun result =>
        { pool := { s.pool with header := result.1, cursor := nextSlot s.pool.cursor }
          kernel := result.2
          manager := .choosing
          made := Function.update s.made s.pool.cursor [] }

def cleanUpNext (boost : Int -> Int -> OsM ShmPair) (s : CleanUpState) :
    CleanUpLabel -> Option CleanUpState
  | .client l =>
      if l.isVisit then
        none
      else
        (poolNext s.pool l).map fun pool => { s with pool := pool }
  | .write shmid queue =>
      some { s with kernel := { s.kernel with
        segments := s.kernel.segments.modify shmid fun segment =>
          { segment with queue := queue } } }
  | .operate semid value =>
      some { s with kernel := { s.kernel with
        semaphores := s.kernel.semaphores.modify semid fun set =>
          { set with value := value } } }
  | .manager => cleanUpStep boost s

/-- The clients and the manager in small steps, from a zeroed coordinator; the
system may hold other segments and semaphores already. -/
def cleanUpSystem (boost : Int -> Int -> OsM ShmPair) :
    TransitionSystem CleanUpState CleanUpLabel where
  Initial s := s.pool = poolStart ∧ s.manager = .choosing ∧ s.made = fun _ => []
  next := cleanUpNext boost

/-!
# The small steps make up a visit
-/

section Visit

variable {boost : Int -> Int -> OsM ShmPair} {pool : PoolState} {k k' : Kernel}

def CleanUpSteps (boost : Int -> Int -> OsM ShmPair) :
    CleanUpState -> CleanUpState -> Prop :=
  ReflTransGen fun s s' => cleanUpStep boost s = some s'

theorem CleanUpSteps.head {s s' s'' : CleanUpState}
    (h : cleanUpStep boost s = some s') (hrest : CleanUpSteps boost s' s'') :
    CleanUpSteps boost s s'' :=
  ReflTransGen.head h hrest

theorem CleanUpSteps.trans {s s' s'' : CleanUpState}
    (hbefore : CleanUpSteps boost s s') (hafter : CleanUpSteps boost s' s'') :
    CleanUpSteps boost s s'' :=
  ReflTransGen.trans hbefore hafter

theorem cleanUpSteps_clearSlot {header' : CoordHeader} (made : Slot -> List Int)
    (h : Returns (clearSlot shmRemove pool.header pool.cursor) k header' k') :
    exists made', CleanUpSteps boost ⟨pool, k, .testingClear, made⟩
      ⟨{ pool with header := header', cursor := nextSlot pool.cursor }, k',
        .choosing, made'⟩ := by
  unfold clearSlot at h
  split at h
  · rename_i hdetach
    refine ⟨Function.update made pool.cursor [], CleanUpSteps.head (if_pos hdetach) ?_⟩
    apply ReflTransGen.single
    simp only [cleanUpStep, returnOf_of_returns h, Option.map_some]
  · rename_i hdetach
    rcases returns_pure.mp h with ⟨rfl, rfl⟩
    exact ⟨made, ReflTransGen.single (if_neg hdetach)⟩

theorem cleanUpSteps_cleanUp {u : Unit} (made : Slot -> List Int)
    (h : Returns (cleanUpQueueResources (poolOps boost) pool.header pool.cursor) k u
      k') :
    CleanUpSteps boost ⟨pool, k, .testingReserved, made⟩
      ⟨pool, k', .testingClear, made⟩ := by
  unfold cleanUpQueueResources at h
  split at h
  · rename_i hreserved
    refine CleanUpSteps.head (if_pos hreserved) ?_
    split at h
    · rename_i hdetach
      refine CleanUpSteps.head (if_pos hdetach) ?_
      split at h
      · rename_i htype
        rw [(returns_pure.mp h).right]
        exact ReflTransGen.single (by simp only [cleanUpStep, htype])
      · rename_i htype
        rw [(returns_pure.mp h).right]
        exact ReflTransGen.single (by simp only [cleanUpStep, htype])
      · rename_i htype
        have hdestroy : Returns (destroySemaphores (pool.header.slots pool.cursor).shms)
            k u k' := h
        have hchosen : cleanUpStep boost ⟨pool, k, .testingType, made⟩ =
            some ⟨pool, k, .destroying, made⟩ := by
          simp only [cleanUpStep, htype]
        refine CleanUpSteps.head hchosen ?_
        apply ReflTransGen.single
        simp only [cleanUpStep, returnOf_of_returns hdestroy, Option.map_some]
      · rename_i htype
        rw [(returns_pure.mp h).right]
        exact ReflTransGen.single (by simp only [cleanUpStep, htype])
    · rename_i hdetach
      rw [(returns_pure.mp h).right]
      exact ReflTransGen.single (if_neg hdetach)
  · rename_i hreserved
    rw [(returns_pure.mp h).right]
    exact ReflTransGen.single (if_neg hreserved)

theorem cleanUpSteps_visit {header' : CoordHeader} (made : Slot -> List Int)
    (h : Returns (managePoolVisit (poolOps boost) pool.header pool.cursor) k header'
      k') :
    exists made', CleanUpSteps boost ⟨pool, k, .choosing, made⟩
      ⟨{ pool with header := header', cursor := nextSlot pool.cursor }, k',
        .choosing, made'⟩ := by
  rcases returns_bind.mp h with ⟨result, k1, hservice, hrest⟩
  rcases returns_bind.mp hrest with ⟨u, k2, hclean, hclear⟩
  have hchosen : cleanUpStep boost ⟨pool, k, .choosing, made⟩ = some
      ⟨pool, k, .servicing (allocatorOf (pool.header.slots pool.cursor).type), made⟩ := rfl
  have hservicing : exists made1, cleanUpStep boost
      ⟨pool, k, .servicing (allocatorOf (pool.header.slots pool.cursor).type), made⟩ =
        some ⟨{ pool with header := result.1 }, k1, .testingReserved, made1⟩ := by
    simp only [cleanUpStep, returnOf_of_returns hservice, Option.map_some]
    exact ⟨_, rfl⟩
  rcases hservicing with ⟨made1, hservicing⟩
  have hcleaned : CleanUpSteps boost
      ⟨{ pool with header := result.1 }, k1, .testingReserved, made1⟩
      ⟨{ pool with header := result.1 }, k2, .testingClear, made1⟩ :=
    cleanUpSteps_cleanUp made1 hclean
  have hcleared : exists made2, CleanUpSteps boost
      ⟨{ pool with header := result.1 }, k2, .testingClear, made1⟩
      ⟨{ pool with header := header', cursor := nextSlot pool.cursor }, k',
        .choosing, made2⟩ :=
    cleanUpSteps_clearSlot made1 hclear
  rcases hcleared with ⟨made2, hcleared⟩
  exact ⟨made2, CleanUpSteps.head hchosen
    (CleanUpSteps.head hservicing (CleanUpSteps.trans hcleaned hcleared))⟩

end Visit

/-!
# What the clean-up promises
-/

def MadeGone (s : CleanUpState) (row : Slot) : Prop :=
  forall semid, semid ∈ s.made row -> s.kernel.semaphores.entries semid = none

/-- When the segments of a slot are removed and its row is zeroed, the semaphores of
its connection have been removed. -/
def SemaphoresRemovedFirst (t : Transition CleanUpState CleanUpLabel) : Prop :=
  t.label = .manager -> t.source.manager = .clearing ->
    MadeGone t.source t.source.pool.cursor

def SemConnection (row : CoordRow) : Prop :=
  row.type = .sem ∧ row.shmCreated = true

def MarksRow (s : PoolState) (row : Slot) : PoolLabel -> Prop
  | .close clientId => matchingRow s.header clientId = some row
  | .closeWrite clientId => exists i, s.clients clientId = .matched i row
  | _ => False

/-- No client marks the SEM row of the visit after `clean_up_queue_resources` saw
it unmarked and before `clear_slot` tests it. -/
def ClosesBetweenVisits (s : CleanUpState) : CleanUpLabel -> Prop
  | .client l =>
      s.manager = .testingClear ->
        SemConnection (s.pool.header.slots s.pool.cursor) ->
        (s.pool.header.slots s.pool.cursor).detach = false ->
          ¬ MarksRow s.pool s.pool.cursor l
  | _ => True

/-- The two segments of a SEM connection are not one, and no segment that a serviced
SEM row refers to is found under a key of this allocator. -/
structure OpensApart (s : CleanUpState) (allocator : Allocator) : Prop where
  pair : allocator = .sem ->
    (s.pool.header.slots s.pool.cursor).clientId.tdiv 2 =
      (s.pool.header.slots s.pool.cursor).clientId.tdiv 3 ->
    (s.pool.header.slots s.pool.cursor).clientId.tdiv 2 = 0
  unused : forall shmid e i, s.kernel.segments.entries shmid = some e -> e.key ≠ 0 ->
    HasKey (derivedKeys allocator (s.pool.header.slots s.pool.cursor).clientId) e.key ->
    SemConnection (s.pool.header.slots i) -> ¬ Uses (s.pool.header.slots i) shmid

def SetsUpOnce (s : CleanUpState) : CleanUpLabel -> Prop
  | .manager => forall allocator, s.manager = .servicing allocator ->
      NeedsService s.pool.header s.pool.cursor -> OpensApart s allocator
  | _ => True

def KeepsTrack (s : CleanUpState) (l : CleanUpLabel) : Prop :=
  ClosesBetweenVisits s l ∧ SetsUpOnce s l

/-!
# Destroying semaphores
-/

def SemaphoreGone (k : Kernel) (shmid : Int) (which : Semaphore) : Prop :=
  exists e, k.segments.entries shmid = some e ∧
    k.semaphores.entries (e.object.semaphores which) = none

def SemaphoresGone (k : Kernel) (row : CoordRow) : Prop :=
  forall which, SemaphoreGone k row.shms.requestShm.shmid which ∧
    SemaphoreGone k row.shms.responseShm.shmid which

section Destroy

variable {k k1 k2 : Kernel}

theorem returns_readSemaphore {address : Option Int} {which : Semaphore} {semid : Int}
    (h : Returns (readSemaphore address which) k semid k1) :
    k1 = k ∧ exists shmid e, address = some shmid ∧
      k.segments.entries shmid = some e ∧ semid = e.object.semaphores which := by
  unfold readSemaphore at h
  split at h
  · exact absurd h not_returns_throw
  · rename_i shmid
    have hcases := returns_get_bind.mp h
    split at hcases
    · rename_i e hentry
      rcases returns_pure.mp hcases with ⟨hsemid, hk⟩
      exact ⟨hk, shmid, e, rfl, hentry, hsemid⟩
    · exact absurd hcases not_returns_throw

structure RemovedOnly (before after : Kernel) : Prop where
  segments : after.segments = before.segments
  gone : forall semid, before.semaphores.entries semid = none ->
    after.semaphores.entries semid = none

theorem RemovedOnly.trans {before mid after : Kernel} (h : RemovedOnly before mid)
    (h' : RemovedOnly mid after) : RemovedOnly before after where
  segments := h'.segments.trans h.segments
  gone := fun semid hnone => h'.gone semid (h.gone semid hnone)

theorem RemovedOnly.keeps {before after : Kernel} (h : RemovedOnly before after)
    {shmid : Int} {which : Semaphore} (hgone : SemaphoreGone before shmid which) :
    SemaphoreGone after shmid which := by
  rcases hgone with ⟨e, hentry, hnone⟩
  refine ⟨e, ?_, h.gone _ hnone⟩
  rw [h.segments]
  exact hentry

theorem removedOnly_named {address : Option Int} {semid : Int} {which : Semaphore}
    {u : Unit} (hread : Returns (readSemaphore address which) k semid k1)
    (hremove : Returns (semRemove semid) k1 u k2) :
    RemovedOnly k k2 ∧
      exists shmid, address = some shmid ∧ SemaphoreGone k2 shmid which := by
  rcases returns_readSemaphore hread with ⟨rfl, shmid, e, haddress, hentry, hsemid⟩
  have hset := returns_get_bind.mp hremove
  rw [returns_set.mp hset]
  refine ⟨⟨rfl, ?_⟩, shmid, haddress, e, hentry, ?_⟩
  · intro other hnone
    by_cases hother : other = semid
    · rw [hother]
      exact IpcTable.remove_self _ _
    · exact (IpcTable.remove_of_ne _ _ hother).trans hnone
  · rw [← hsemid]
    exact IpcTable.remove_self _ _

theorem destroySemaphores_gone {row : CoordRow} {u : Unit}
    (h : Returns (destroySemaphores row.shms) k u k1) : SemaphoresGone k1 row := by
  rcases returns_bind.mp h with ⟨hReq, k2, hattach1, h⟩
  rcases returns_bind.mp h with ⟨hResp, k3, hattach2, h⟩
  rcases returns_bind.mp h with ⟨_, _, hread1, h⟩
  rcases returns_bind.mp h with ⟨_, _, hremove1, h⟩
  rcases returns_bind.mp h with ⟨_, _, hread2, h⟩
  rcases returns_bind.mp h with ⟨_, _, hremove2, h⟩
  rcases returns_bind.mp h with ⟨_, _, hread3, h⟩
  rcases returns_bind.mp h with ⟨_, _, hremove3, h⟩
  rcases returns_bind.mp h with ⟨_, _, hread4, h⟩
  rcases returns_bind.mp h with ⟨_, _, hremove4, h⟩
  rcases returns_bind.mp h with ⟨_, _, hread5, h⟩
  rcases returns_bind.mp h with ⟨_, _, hremove5, h⟩
  rcases returns_bind.mp h with ⟨_, _, hread6, hremove6⟩
  rcases removedOnly_named hread1 hremove1 with ⟨_, request, hrequest, hgone1⟩
  rcases removedOnly_named hread2 hremove2 with ⟨honly2, _, haddr2, hgone2⟩
  rcases removedOnly_named hread3 hremove3 with ⟨honly3, _, haddr3, hgone3⟩
  rcases removedOnly_named hread4 hremove4 with ⟨honly4, response, hresponse, hgone4⟩
  rcases removedOnly_named hread5 hremove5 with ⟨honly5, _, haddr5, hgone5⟩
  rcases removedOnly_named hread6 hremove6 with ⟨honly6, _, haddr6, hgone6⟩
  have hrequestId : row.shms.requestShm.shmid = request := by
    rcases (returns_shmAttach hattach1).right.right with hnone | ⟨hid, _⟩
    · rw [hrequest] at hnone
      cases hnone
    · exact (Option.some.inj (hrequest.symm.trans hid)).symm
  have hresponseId : row.shms.responseShm.shmid = response := by
    rcases (returns_shmAttach hattach2).right.right with hnone | ⟨hid, _⟩
    · rw [hresponse] at hnone
      cases hnone
    · exact (Option.some.inj (hresponse.symm.trans hid)).symm
  have hid2 := Option.some.inj (hrequest.symm.trans haddr2)
  have hid3 := Option.some.inj (hrequest.symm.trans haddr3)
  have hid5 := Option.some.inj (hresponse.symm.trans haddr5)
  have hid6 := Option.some.inj (hresponse.symm.trans haddr6)
  rw [← hid2] at hgone2
  rw [← hid3] at hgone3
  rw [← hid5] at hgone5
  rw [← hid6] at hgone6
  have hlast := honly5.trans honly6
  have hfour := honly4.trans hlast
  unfold SemaphoresGone
  rw [hrequestId, hresponseId]
  intro which
  cases which with
  | lock => exact ⟨hfour.keeps hgone3, hgone6⟩
  | full =>
      exact ⟨((honly2.trans honly3).trans hfour).keeps hgone1, hlast.keeps hgone4⟩
  | empty => exact ⟨(honly3.trans hfour).keeps hgone2, honly6.keeps hgone5⟩

end Destroy

/-!
# The invariant
-/

def OnlySemaphores (t : IpcTable Segment) (shmid : Int) (ids : Semaphore -> Int) : Prop :=
  forall e, t.entries shmid = some e -> e.object.semaphores = ids

structure MadeFor (row : CoordRow) (t : IpcTable Segment) (made : List Int) : Prop where
  sem : SemConnection row
  ids : exists request response, made = allSemaphores request response ∧
    OnlySemaphores t row.shms.requestShm.shmid request ∧
    OnlySemaphores t row.shms.responseShm.shmid response

def VisitKnows (s : CleanUpState) : CleanUpPc -> Prop
  | .servicing allocator =>
      allocator = .sem -> (s.pool.header.slots s.pool.cursor).type = .sem
  | .testingClear =>
      (s.pool.header.slots s.pool.cursor).detach = true -> MadeGone s s.pool.cursor
  | .clearing => MadeGone s s.pool.cursor
  | _ => True

structure CleanUpInvariant (s : CleanUpState) : Prop where
  reserved : forall i, (s.pool.header.slots i).shmCreated = true ->
    s.pool.header.clientReserved i = true
  unreserved : forall i, s.pool.header.clientReserved i = false ->
    (s.pool.header.slots i).type ≠ .sem
  shmids : forall i shmid, (s.pool.header.slots i).shmCreated = true ->
    Uses (s.pool.header.slots i) shmid -> shmid < s.kernel.segments.next
  made : forall i, s.made i ≠ [] ->
    MadeFor (s.pool.header.slots i) s.kernel.segments (s.made i)
  visiting : VisitKnows s s.manager

theorem poolNext_row {s s' : PoolState} {l : PoolLabel} (hl : l.isVisit = false)
    (h : poolNext s l = some s') (i : Slot) :
    (s'.header.slots i = s.header.slots i ∧
      s'.header.clientReserved i = s.header.clientReserved i) ∨
    (s.header.clientReserved i = false ∧ (s'.header.slots i).shmCreated = false ∧
      s'.header.clientReserved i = true) ∨
    (MarksRow s i l ∧
      s'.header.slots i = { s.header.slots i with detach := true } ∧
      s'.header.clientReserved i = s.header.clientReserved i) := by
  cases l with
  | request clientId messageSize type =>
      rcases poolNext_request h with ⟨_, ⟨j, hfree, rfl⟩ | ⟨_, rfl⟩⟩
      · by_cases hi : i = j
        · subst hi
          right
          left
          have hunreserved := (freeSlot_eq_some_iff.mp hfree).left
          simp [requestRow, hunreserved]
        · left
          simp [hi]
      · exact Or.inl ⟨rfl, rfl⟩
  | opened clientId =>
      rcases poolNext_opened h with ⟨_, _, _, rfl⟩
      exact Or.inl ⟨rfl, rfl⟩
  | close clientId =>
      rcases poolNext_close h with ⟨_, _, ⟨j, hmatch, rfl⟩ | ⟨_, rfl⟩⟩
      · by_cases hi : i = j
        · subst hi
          right
          right
          exact ⟨hmatch, CoordHeader.setRow_slots_self _ _ _, rfl⟩
        · exact Or.inl ⟨markDetach_of_ne _ hi, rfl⟩
      · exact Or.inl ⟨rfl, rfl⟩
  | closeBegin clientId =>
      rcases poolNext_closeBegin h with ⟨_, rfl⟩
      exact Or.inl ⟨rfl, rfl⟩
  | closeCompare clientId =>
      rcases poolNext_closeCompare h with ⟨_, _, _, rfl⟩ | ⟨_, _, rfl⟩
      · exact Or.inl ⟨rfl, rfl⟩
      · exact Or.inl ⟨rfl, rfl⟩
  | closeWrite clientId =>
      rcases poolNext_closeWrite h with ⟨slot, j, hmatched, rfl⟩
      by_cases hi : i = j
      · subst hi
        right
        right
        exact ⟨⟨slot, hmatched⟩, CoordHeader.setRow_slots_self _ _ _, rfl⟩
      · exact Or.inl ⟨markDetach_of_ne _ hi, rfl⟩
  | visit allocated => cases hl

section Invariant

variable {s : CleanUpState}

theorem madeGone_of_nil {row : Slot} (h : s.made row = []) : MadeGone s row := by
  intro semid hmem
  rw [h] at hmem
  cases hmem

theorem CleanUpInvariant.made_nil (hs : CleanUpInvariant s) {row : Slot}
    (h : ¬ SemConnection (s.pool.header.slots row)) : s.made row = [] := by
  by_contra hmade
  exact h (hs.made row hmade).sem

theorem CleanUpInvariant.moves (hs : CleanUpInvariant s) {pc : CleanUpPc}
    (hknows : VisitKnows s pc) : CleanUpInvariant { s with manager := pc } := by
  refine ⟨hs.reserved, hs.unreserved, hs.shmids, hs.made, ?_⟩
  cases pc with
  | _ => exact hknows

/-- A mark changes no other field, and comes too late for a visit that has seen none. -/
theorem cleanUp_client (hs : CleanUpInvariant s) {l : PoolLabel}
    (hl : l.isVisit = false) (hguard : ClosesBetweenVisits s (.client l))
    {pool : PoolState} (hpool : poolNext s.pool l = some pool) :
    CleanUpInvariant { s with pool := pool } := by
  have hrows := poolNext_row hl hpool
  constructor
  · intro i hcreated
    show pool.header.clientReserved i = true
    rcases hrows i with ⟨hrow, hreserved⟩ | ⟨_, _, hreserved⟩ | ⟨_, hrow, hreserved⟩
    · rw [hreserved]
      exact hs.reserved i ((congrArg CoordRow.shmCreated hrow).symm.trans hcreated)
    · exact hreserved
    · rw [hreserved]
      exact hs.reserved i ((congrArg CoordRow.shmCreated hrow).symm.trans hcreated)
  · intro i hfree
    show (pool.header.slots i).type ≠ .sem
    rcases hrows i with ⟨hrow, hreserved⟩ | ⟨_, _, hreserved⟩ | ⟨_, hrow, hreserved⟩
    · rw [hrow]
      exact hs.unreserved i (hreserved.symm.trans hfree)
    · rw [hreserved] at hfree
      cases hfree
    · rw [hrow]
      exact hs.unreserved i (hreserved.symm.trans hfree)
  · intro i shmid hcreated huses
    show shmid < s.kernel.segments.next
    rcases hrows i with ⟨hrow, _⟩ | ⟨_, hunserviced, _⟩ | ⟨_, hrow, _⟩
    · rw [hrow] at hcreated huses
      exact hs.shmids i shmid hcreated huses
    · rw [hunserviced] at hcreated
      cases hcreated
    · rw [hrow] at hcreated huses
      exact hs.shmids i shmid hcreated huses
  · intro i hmade
    show MadeFor (pool.header.slots i) s.kernel.segments (s.made i)
    have hfor := hs.made i hmade
    rcases hrows i with ⟨hrow, _⟩ | ⟨hfree, _, _⟩ | ⟨_, hrow, _⟩
    · rw [hrow]
      exact hfor
    · rw [hs.reserved i hfor.sem.right] at hfree
      cases hfree
    · rw [hrow]
      exact ⟨hfor.sem, hfor.ids⟩
  · have hcursor := poolNext_cursor hl hpool
    have hknows := hs.visiting
    have hrow := hrows s.pool.cursor
    show VisitKnows { s with pool := pool } s.manager
    cases hpc : s.manager with
    | servicing allocator =>
        rw [hpc] at hknows
        intro hsem
        rw [hcursor]
        rcases hrow with ⟨hsame, _⟩ | ⟨hfree, _, _⟩ | ⟨_, hmarked, _⟩
        · rw [hsame]
          exact hknows hsem
        · exact absurd (hknows hsem) (hs.unreserved _ hfree)
        · rw [hmarked]
          exact hknows hsem
    | testingClear =>
        rw [hpc] at hknows
        intro hdetach
        rw [hcursor] at hdetach ⊢
        cases Classical.em (SemConnection (s.pool.header.slots s.pool.cursor)) with
        | inl hsem =>
            rcases hrow with ⟨hsame, _⟩ | ⟨hfree, _, _⟩ | ⟨hmarks, _, _⟩
            · rw [hsame] at hdetach
              exact hknows hdetach
            · rw [hs.reserved _ hsem.right] at hfree
              cases hfree
            · cases hbefore : (s.pool.header.slots s.pool.cursor).detach with
              | true => exact hknows hbefore
              | false => exact absurd hmarks (hguard hpc hsem hbefore)
        | inr hother => exact madeGone_of_nil (hs.made_nil hother)
    | clearing =>
        rw [hpc] at hknows
        show MadeGone { s with pool := pool } pool.cursor
        rw [hcursor]
        exact hknows
    | _ => trivial

structure KernelKept (before after : Kernel) : Prop where
  headers : forall shmid ids, OnlySemaphores before.segments shmid ids ->
    OnlySemaphores after.segments shmid ids
  next : after.segments.next = before.segments.next
  gone : forall semid, before.semaphores.entries semid = none ->
    after.semaphores.entries semid = none

theorem cleanUp_kernel (hs : CleanUpInvariant s) {kernel : Kernel}
    (hkept : KernelKept s.kernel kernel) :
    CleanUpInvariant { s with kernel := kernel } := by
  refine ⟨hs.reserved, hs.unreserved, ?_, ?_, ?_⟩
  · intro i shmid hcreated huses
    show shmid < kernel.segments.next
    rw [hkept.next]
    exact hs.shmids i shmid hcreated huses
  · intro i hmade
    have hfor := hs.made i hmade
    rcases hfor.ids with ⟨request, response, hids, hrequest, hresponse⟩
    exact ⟨hfor.sem, request, response, hids, hkept.headers _ _ hrequest,
      hkept.headers _ _ hresponse⟩
  · have hknows := hs.visiting
    show VisitKnows { s with kernel := kernel } s.manager
    cases hpc : s.manager with
    | servicing allocator =>
        rw [hpc] at hknows
        exact hknows
    | testingClear =>
        rw [hpc] at hknows
        intro hdetach semid hmem
        exact hkept.gone semid (hknows hdetach semid hmem)
    | clearing =>
        rw [hpc] at hknows
        intro semid hmem
        exact hkept.gone semid (hknows semid hmem)
    | _ => trivial

theorem kernelKept_write (k : Kernel) (written : Int) {f : Segment -> Segment}
    (hf : forall segment, (f segment).semaphores = segment.semaphores) :
    KernelKept k { k with segments := k.segments.modify written f } := by
  refine ⟨?_, rfl, fun _ hnone => hnone⟩
  intro shmid ids honly e hentry
  have hmodified : (k.segments.modify written f).entries shmid = some e := hentry
  by_cases hid : shmid = written
  · rw [hid, IpcTable.modify_at] at hmodified
    rcases Option.map_eq_some_iff.mp hmodified with ⟨e0, hbefore, rfl⟩
    rw [← hid] at hbefore
    exact (hf e0.object).trans (honly e0 hbefore)
  · rw [IpcTable.modify_of_ne _ _ hid] at hmodified
    exact honly e hmodified

theorem kernelKept_operate (k : Kernel) (operated : Int)
    (f : SemaphoreSet -> SemaphoreSet) :
    KernelKept k { k with semaphores := k.semaphores.modify operated f } := by
  refine ⟨fun _ _ honly => honly, rfl, ?_⟩
  intro semid hnone
  show (k.semaphores.modify operated f).entries semid = none
  by_cases hid : semid = operated
  · rw [← hid, IpcTable.modify_at, hnone]
    rfl
  · rw [IpcTable.modify_of_ne _ _ hid]
    exact hnone

theorem serviced_reserved {header : CoordHeader} {shms : ShmPair} {slot i : Slot}
    (h : forall j, (header.slots j).shmCreated = true ->
      header.clientReserved j = true)
    (hcreated : ((serviced shms header slot).slots i).shmCreated = true) :
    (serviced shms header slot).clientReserved i = true := by
  rw [serviced_clientReserved]
  by_cases hneeds : NeedsService header slot
  · by_cases hi : i = slot
    · rw [hi]
      exact hneeds.left
    · rw [serviced_other _ _ hi] at hcreated
      exact h i hcreated
  · rw [serviced_of_not_needs _ hneeds] at hcreated
    exact h i hcreated

/-- An allocation that opens nobody's SEM segment leaves their headers alone. -/
theorem onlySemaphores_allocated (hs : CleanUpInvariant s) {allocator : Allocator}
    {k' : Kernel} {shms : ShmPair}
    (halloc : AllocatedByKeys
      (derivedKeys allocator (s.pool.header.slots s.pool.cursor).clientId)
      s.kernel.segments k'.segments shms)
    (hopens : OpensApart s allocator) {i : Slot} {shmid : Int} {ids : Semaphore -> Int}
    (hsem : SemConnection (s.pool.header.slots i))
    (huses : Uses (s.pool.header.slots i) shmid)
    (honly : OnlySemaphores s.kernel.segments shmid ids) :
    OnlySemaphores k'.segments shmid ids := by
  have hother : ¬ (shmid = shms.requestShm.shmid ∨ shmid = shms.responseShm.shmid) := by
    intro hopened
    cases hentry : s.kernel.segments.entries shmid with
    | none =>
        have hnew := halloc.opened_new hopened hentry
        have hgiven := hs.shmids i shmid hsem.right huses
        lia
    | some e =>
        rcases halloc.opened_key hopened hentry with ⟨hkey, hne⟩
        exact hopens.unused shmid e i hentry hne hkey hsem huses
  rw [not_or] at hother
  intro e hentry
  rw [halloc.other shmid hother.left hother.right] at hentry
  exact honly e hentry

theorem madeFor_allocated {row : CoordRow} {k k' : Kernel} {shms : ShmPair}
    (hsem : row.type = .sem)
    (halloc : Returns (hashSemShmAllocator row.messageSize row.clientId) k shms k')
    (hpair : row.clientId.tdiv 2 = row.clientId.tdiv 3 -> row.clientId.tdiv 2 = 0) :
    MadeFor { row with shms := shms, shmCreated := true } k'.segments
      (connectionSemaphores k row.clientId) := by
  have hmade := semAllocated_of_returns halloc
  rcases hmade.opened with ⟨semFull, semEmpty, semLock, semFull', semEmpty', semLock',
    hopened, hrequest, hresponse⟩
  have hne : shms.requestShm.shmid ≠ shms.responseShm.shmid := by
    intro heq
    rcases hmade.segments.distinct heq with ⟨hkeys, hzero⟩
    exact hzero (hpair hkeys)
  have honly : forall shmid ids, HasSemaphores k'.segments shmid ids ->
      OnlySemaphores k'.segments shmid ids := by
    intro shmid ids hhas e hentry
    rcases hhas with ⟨e', hentry', hids⟩
    rw [hentry] at hentry'
    injection hentry' with hsame
    rw [hsame]
    exact hids
  refine ⟨⟨hsem, rfl⟩, semaphoreIds semFull semEmpty semLock,
    semaphoreIds semFull' semEmpty' semLock', ?_, honly _ _ (hrequest hne),
    honly _ _ hresponse⟩
  unfold connectionSemaphores
  rw [hopened]
  rfl

theorem cleanUp_serviced {boost : Int -> Int -> OsM ShmPair} (hboost : BoostByKeys boost)
    (hs : CleanUpInvariant s) {allocator : Allocator} {result : CoordHeader × Int}
    {k' : Kernel} (htype : allocator = .sem ->
      (s.pool.header.slots s.pool.cursor).type = .sem)
    (hopens : NeedsService s.pool.header s.pool.cursor -> OpensApart s allocator)
    (hreturns : Returns (serviceSlot s.pool.header s.pool.cursor
      ((poolOps boost).run allocator)) s.kernel result k') :
    CleanUpInvariant
      { pool := { s.pool with header := result.1 }
        kernel := k'
        manager := .testingReserved
        made :=
          if NeedsService s.pool.header s.pool.cursor then
            Function.update s.made s.pool.cursor
              (setUpBy s.kernel (s.pool.header.slots s.pool.cursor).clientId allocator)
          else
            s.made } := by
  rcases serviceSlot_returns hreturns with ⟨shms, hheader, hallocated, hskipped⟩
  rw [hheader]
  cases Decidable.em (NeedsService s.pool.header s.pool.cursor) with
  | inr hnot =>
      rw [serviced_of_not_needs shms hnot, hskipped hnot, if_neg hnot]
      exact ⟨hs.reserved, hs.unreserved, hs.shmids, hs.made, trivial⟩
  | inl hneeds =>
      have hreturned := hallocated hneeds
      have halloc := poolOps_run_keys (fun _ => hboost) hreturned
      have hapart := hopens hneeds
      rw [if_pos hneeds]
      constructor
      · intro i hcreated
        exact serviced_reserved hs.reserved hcreated
      · intro i hfree
        show ((serviced shms s.pool.header s.pool.cursor).slots i).type ≠ .sem
        have hbefore : s.pool.header.clientReserved i = false := by
          rw [← serviced_clientReserved shms s.pool.header s.pool.cursor]
          exact hfree
        have hi : i ≠ s.pool.cursor := by
          intro hsame
          rw [hsame, hneeds.left] at hbefore
          cases hbefore
        rw [serviced_other _ _ hi]
        exact hs.unreserved i hbefore
      · intro i shmid hcreated huses
        show shmid < k'.segments.next
        have hrow : Uses ((serviced shms s.pool.header s.pool.cursor).slots i) shmid :=
          huses
        by_cases hi : i = s.pool.cursor
        · rw [hi, serviced_of_needs shms hneeds, CoordHeader.setRow_slots_self] at hrow
          rcases hrow with hid | hid
          · rcases halloc.request with ⟨e, hentry, _⟩
            have hlt := (IpcTable.lt_next hentry).right
            have hsame : shms.requestShm.shmid = shmid := hid
            lia
          · rcases halloc.response with ⟨e, hentry, _⟩
            have hlt := (IpcTable.lt_next hentry).right
            have hsame : shms.responseShm.shmid = shmid := hid
            lia
        · have hserviced : ((serviced shms s.pool.header s.pool.cursor).slots i).shmCreated =
              true := hcreated
          rw [serviced_other _ _ hi] at hrow hserviced
          have hlt := hs.shmids i shmid hserviced hrow
          have hnext := halloc.next
          lia
      · intro i hmade
        show MadeFor ((serviced shms s.pool.header s.pool.cursor).slots i) k'.segments _
        by_cases hi : i = s.pool.cursor
        · subst hi
          rw [serviced_of_needs shms hneeds, CoordHeader.setRow_slots_self]
          simp only [Function.update_self] at hmade ⊢
          cases allocator with
          | sem => exact madeFor_allocated (htype rfl) hreturned (hapart.pair rfl)
          | hash | boost => exact absurd rfl hmade
        · rw [serviced_other _ _ hi]
          simp only [Function.update_of_ne hi] at hmade ⊢
          have hfor := hs.made i hmade
          rcases hfor.ids with ⟨request, response, hids, hrequest, hresponse⟩
          exact ⟨hfor.sem, request, response, hids,
            onlySemaphores_allocated hs halloc hapart hfor.sem (Or.inl rfl) hrequest,
            onlySemaphores_allocated hs halloc hapart hfor.sem (Or.inr rfl) hresponse⟩
      · trivial

theorem forceClearSlot_returns {header header' : CoordHeader} {slot : Slot}
    {k k' : Kernel}
    (h : Returns (forceClearSlot shmRemove header slot) k header' k') :
    header' = (header.setRow slot CoordRow.zero).setReserved slot false ∧
      k'.segments.next = k.segments.next ∧
      forall shmid e, k'.segments.entries shmid = some e ->
        k.segments.entries shmid = some e := by
  have hremoved : forall {entries : Int -> Option (IpcEntry Segment)} {id shmid : Int}
      {e : IpcEntry Segment}, Function.update entries id none shmid = some e ->
      entries shmid = some e := by
    intro entries id shmid e hentry
    by_cases hid : shmid = id
    · rw [hid, Function.update_self] at hentry
      cases hentry
    · rw [Function.update_of_ne hid] at hentry
      exact hentry
  unfold forceClearSlot at h
  split at h
  · rcases returns_bind.mp h with ⟨_, k1, hremove1, hrest⟩
    rcases returns_bind.mp hrest with ⟨_, k2, hremove2, hpure⟩
    rcases returns_shmRemove hremove1 with ⟨_, hnext1, hentries1⟩
    rcases returns_shmRemove hremove2 with ⟨_, hnext2, hentries2⟩
    rcases returns_pure.mp hpure with ⟨hheader, hk⟩
    rw [hk]
    refine ⟨hheader, hnext2.trans hnext1, ?_⟩
    intro shmid e hentry
    rw [hentries2] at hentry
    have hfirst := hremoved hentry
    rw [hentries1] at hfirst
    exact hremoved hfirst
  · rcases returns_pure.mp h with ⟨hheader, hk⟩
    rw [hk]
    exact ⟨hheader, rfl, fun _ _ hentry => hentry⟩

theorem cleanUp_cleared (hs : CleanUpInvariant s) {header' : CoordHeader} {k' : Kernel}
    (hreturns : Returns (forceClearSlot shmRemove s.pool.header s.pool.cursor) s.kernel
      header' k') :
    CleanUpInvariant
      { pool := { s.pool with header := header', cursor := nextSlot s.pool.cursor }
        kernel := k'
        manager := .choosing
        made := Function.update s.made s.pool.cursor [] } := by
  rcases forceClearSlot_returns hreturns with ⟨hheader, hnext, hentries⟩
  have hself : header'.slots s.pool.cursor = CoordRow.zero := by
    rw [hheader, CoordHeader.setReserved_slots, CoordHeader.setRow_slots_self]
  have hothers : forall i, i ≠ s.pool.cursor ->
      header'.slots i = s.pool.header.slots i ∧
        header'.clientReserved i = s.pool.header.clientReserved i := by
    intro i hi
    rw [hheader]
    simp [hi]
  constructor
  · intro i hcreated
    show header'.clientReserved i = true
    have hrow : (header'.slots i).shmCreated = true := hcreated
    by_cases hi : i = s.pool.cursor
    · rw [hi, hself] at hrow
      cases hrow
    · rw [(hothers i hi).right]
      rw [(hothers i hi).left] at hrow
      exact hs.reserved i hrow
  · intro i hfree
    show (header'.slots i).type ≠ .sem
    have hreserved : header'.clientReserved i = false := hfree
    by_cases hi : i = s.pool.cursor
    · rw [hi, hself]
      exact fun hsem => by cases hsem
    · rw [(hothers i hi).left]
      rw [(hothers i hi).right] at hreserved
      exact hs.unreserved i hreserved
  · intro i shmid hcreated huses
    show shmid < k'.segments.next
    have hrow : (header'.slots i).shmCreated = true := hcreated
    have husesRow : Uses (header'.slots i) shmid := huses
    by_cases hi : i = s.pool.cursor
    · rw [hi, hself] at hrow
      cases hrow
    · rw [(hothers i hi).left] at hrow husesRow
      rw [hnext]
      exact hs.shmids i shmid hrow husesRow
  · intro i hmade
    show MadeFor (header'.slots i) k'.segments _
    by_cases hi : i = s.pool.cursor
    · subst hi
      exact absurd (Function.update_self ..) hmade
    · rw [(hothers i hi).left]
      simp only [Function.update_of_ne hi] at hmade ⊢
      have hfor := hs.made i hmade
      rcases hfor.ids with ⟨request, response, hids, hrequest, hresponse⟩
      exact ⟨hfor.sem, request, response, hids,
        fun e hentry => hrequest e (hentries _ e hentry),
        fun e hentry => hresponse e (hentries _ e hentry)⟩
  · trivial

/-- What `destroy_semaphores` reads from the headers is what was set up. -/
theorem cleanUp_destroyed (hs : CleanUpInvariant s) {u : Unit} {k' : Kernel}
    (hreturns : Returns (destroySemaphores (s.pool.header.slots s.pool.cursor).shms)
      s.kernel u k') :
    CleanUpInvariant { s with kernel := k', manager := .testingClear } := by
  have hsegments := destroySemaphores_segments _ _ _ _ hreturns
  have hgone : SemaphoresGone k' (s.pool.header.slots s.pool.cursor) :=
    destroySemaphores_gone hreturns
  refine ⟨hs.reserved, hs.unreserved, ?_, ?_, ?_⟩
  · intro i shmid hcreated huses
    show shmid < k'.segments.next
    rw [hsegments]
    exact hs.shmids i shmid hcreated huses
  · intro i hmade
    show MadeFor (s.pool.header.slots i) k'.segments (s.made i)
    rw [hsegments]
    exact hs.made i hmade
  · intro _
    cases Decidable.em (s.made s.pool.cursor = []) with
    | inl hnil => exact madeGone_of_nil hnil
    | inr hmade =>
        rcases (hs.made _ hmade).ids with ⟨request, response, hids, hrequest, hresponse⟩
        have hread : forall {shmid ids} which,
            OnlySemaphores s.kernel.segments shmid ids -> SemaphoreGone k' shmid which ->
            k'.semaphores.entries (ids which) = none := by
          intro shmid ids which honly hwhich
          rcases hwhich with ⟨e, hentry, hnone⟩
          rw [hsegments] at hentry
          rw [← honly e hentry]
          exact hnone
        intro semid hmem
        show k'.semaphores.entries semid = none
        rw [hids] at hmem
        simp only [allSemaphores, List.mem_cons, List.not_mem_nil, or_false] at hmem
        rcases hmem with rfl | rfl | rfl | rfl | rfl | rfl
        · exact hread .full hrequest (hgone .full).left
        · exact hread .empty hrequest (hgone .empty).left
        · exact hread .lock hrequest (hgone .lock).left
        · exact hread .full hresponse (hgone .full).right
        · exact hread .empty hresponse (hgone .empty).right
        · exact hread .lock hresponse (hgone .lock).right

theorem cleanUp_step {boost : Int -> Int -> OsM ShmPair} (hboost : BoostByKeys boost)
    {s' : CleanUpState} (hs : CleanUpInvariant s) (hguard : SetsUpOnce s .manager)
    (h : cleanUpStep boost s = some s') : CleanUpInvariant s' := by
  have hknows := hs.visiting
  have hnoSem : (s.pool.header.slots s.pool.cursor).type ≠ .sem ->
      CleanUpInvariant { s with manager := .testingClear } := by
    intro htype
    exact hs.moves fun _ => madeGone_of_nil (hs.made_nil fun hsem => htype hsem.left)
  cases hpc : s.manager with
  | choosing =>
      simp only [cleanUpStep, hpc] at h
      cases h
      apply hs.moves
      intro hallocator
      cases htype : (s.pool.header.slots s.pool.cursor).type with
      | sem => rfl
      | poll | boost | other =>
          rw [htype] at hallocator
          cases hallocator
  | servicing allocator =>
      rw [hpc] at hknows
      simp only [cleanUpStep, hpc] at h
      rcases Option.map_eq_some_iff.mp h with ⟨result, hreturn, rfl⟩
      exact cleanUp_serviced hboost hs hknows (hguard allocator hpc)
        (returns_of_returnOf hreturn)
  | testingReserved =>
      simp only [cleanUpStep, hpc] at h
      split at h
      · cases h
        exact hs.moves trivial
      · rename_i hreserved
        cases h
        apply hs.moves
        intro _
        apply madeGone_of_nil
        apply hs.made_nil
        intro hsem
        exact hreserved (hs.reserved _ hsem.right)
  | testingDetach =>
      simp only [cleanUpStep, hpc] at h
      split at h
      · cases h
        exact hs.moves trivial
      · rename_i hunmarked
        cases h
        exact hs.moves fun hdetach => absurd hdetach hunmarked
  | testingType =>
      simp only [cleanUpStep, hpc] at h
      split at h
      · rename_i htype
        cases h
        exact hnoSem (by rw [htype]; nofun)
      · rename_i htype
        cases h
        exact hnoSem (by rw [htype]; nofun)
      · cases h
        exact hs.moves trivial
      · rename_i htype
        cases h
        exact hnoSem (by rw [htype]; nofun)
  | destroying =>
      simp only [cleanUpStep, hpc] at h
      rcases Option.map_eq_some_iff.mp h with ⟨result, hreturn, rfl⟩
      exact cleanUp_destroyed hs (returns_of_returnOf hreturn)
  | testingClear =>
      rw [hpc] at hknows
      simp only [cleanUpStep, hpc] at h
      split at h
      · rename_i hdetach
        cases h
        exact hs.moves (hknows hdetach)
      · cases h
        exact ⟨hs.reserved, hs.unreserved, hs.shmids, hs.made, trivial⟩
  | clearing =>
      simp only [cleanUpStep, hpc] at h
      rcases Option.map_eq_some_iff.mp h with ⟨result, hreturn, rfl⟩
      exact cleanUp_cleared hs (returns_of_returnOf hreturn)

end Invariant

theorem cleanUpNext_invariant {boost : Int -> Int -> OsM ShmPair}
    (hboost : BoostByKeys boost) {s s' : CleanUpState} {l : CleanUpLabel}
    (hs : CleanUpInvariant s) (hguard : KeepsTrack s l)
    (h : cleanUpNext boost s l = some s') : CleanUpInvariant s' := by
  cases l with
  | client l =>
      simp only [cleanUpNext] at h
      split at h
      · cases h
      · rename_i hvisit
        rcases Option.map_eq_some_iff.mp h with ⟨pool, hpool, rfl⟩
        exact cleanUp_client hs (by simpa using hvisit) hguard.left hpool
  | write shmid queue =>
      cases h
      exact cleanUp_kernel hs (kernelKept_write _ _ fun _ => rfl)
  | operate semid value =>
      cases h
      exact cleanUp_kernel hs (kernelKept_operate _ _ _)
  | manager => exact cleanUp_step hboost hs hguard.right h

def freshCleanUp : CleanUpState where
  pool := poolStart
  kernel := freshServer.kernel
  manager := .choosing
  made := fun _ => []

def closesInTime (t : Transition CleanUpState CleanUpLabel) : Bool :=
  match t.label with
  | .client (.close _) => t.source.manager != .testingClear
  | .client (.closeWrite _) => false
  | _ => true

theorem closesBetweenVisits_of_check {t : Transition CleanUpState CleanUpLabel}
    (hcheck : closesInTime t = true) : ClosesBetweenVisits t.source t.label := by
  unfold closesInTime at hcheck
  cases hlabel : t.label with
  | client l =>
      rw [hlabel] at hcheck
      intro hpc _ _
      cases l with
      | close clientId =>
          rw [hpc] at hcheck
          cases hcheck
      | closeWrite clientId => cases hcheck
      | _ => exact id
  | _ => trivial

def setsUpFirst (t : Transition CleanUpState CleanUpLabel) : Bool :=
  match t.label, t.source.manager with
  | .manager, .servicing _ =>
      let row := t.source.pool.header.slots t.source.pool.cursor
      (row.clientId.tdiv 2 != row.clientId.tdiv 3) &&
        (List.finRange slotNum).all fun i => !(t.source.pool.header.slots i).shmCreated
  | _, _ => true

theorem setsUpOnce_of_check {t : Transition CleanUpState CleanUpLabel}
    (hcheck : setsUpFirst t = true) : SetsUpOnce t.source t.label := by
  unfold setsUpFirst at hcheck
  cases hlabel : t.label with
  | manager =>
      intro allocator hpc _
      simp only [hlabel, hpc, Bool.and_eq_true, bne_iff_ne, List.all_eq_true,
        Bool.not_eq_true'] at hcheck
      rcases hcheck with ⟨hpair, hunserviced⟩
      constructor
      · intro _ hsame
        exact absurd hsame hpair
      · intro shmid e i _ _ _ hsem _
        have hcreated := hsem.right
        rw [hunserviced i (List.mem_finRange i)] at hcreated
        cases hcreated
  | _ => trivial

/-- The slot of a connection with six semaphores is cleared. -/
def clearsSix (t : Transition CleanUpState CleanUpLabel) : Bool :=
  match t.label with
  | .manager =>
      t.source.manager == .clearing &&
        (t.source.made t.source.pool.cursor).length == 6
  | _ => false

def closedInTimeLabels : List CleanUpLabel :=
  [.client (.request 5 64 .sem), .manager, .manager, .client (.opened 5),
    .client (.close 5)] ++ List.replicate 6 .manager

def closedBetweenLabels : List CleanUpLabel :=
  [.client (.request 5 64 .sem), .manager, .manager, .client (.opened 5), .manager,
    .manager, .client (.close 5), .manager, .manager]

def leavesSemaphore (t : Transition CleanUpState CleanUpLabel) : Bool :=
  match t.label with
  | .manager =>
      t.source.manager == .clearing &&
        (t.source.made t.source.pool.cursor).any fun semid =>
          (t.source.kernel.semaphores.entries semid).isSome
  | _ => false

theorem not_removedFirst_of_leaves {t : Transition CleanUpState CleanUpLabel}
    (h : leavesSemaphore t = true) : ¬ SemaphoresRemovedFirst t := by
  intro hremoved
  unfold leavesSemaphore at h
  cases hlabel : t.label with
  | manager =>
      simp only [hlabel, Bool.and_eq_true, beq_iff_eq, List.any_eq_true] at h
      rcases h with ⟨hclearing, semid, hmem, hsome⟩
      rw [hremoved hlabel hclearing semid hmem] at hsome
      cases hsome
  | _ =>
      rw [hlabel] at h
      cases h

def oneSegmentLabels : List CleanUpLabel :=
  [.client (.request 3 64 .sem), .manager, .manager, .client (.opened 3),
    .client (.close 3)] ++ List.replicate 6 .manager

/-- A close in time alone is not enough. -/
theorem semaphores_left_behind_oneSegment :
    exists s trace, (cleanUpSystem boostOpenOrCreate).Run freshCleanUp trace s ∧
      TransitionSystem.Guarded ClosesBetweenVisits trace ∧
        exists t, t ∈ trace ∧ ¬ SemaphoresRemovedFirst t := by
  have hreplay : (((cleanUpSystem boostOpenOrCreate).replay freshCleanUp
      oneSegmentLabels).map fun result =>
        (result.1.all closesInTime, result.1.any leavesSemaphore)) =
          some (true, true) := by
    decide +kernel
  rcases TransitionSystem.exists_run_of_replay hreplay with
    ⟨s, trace, hrun, hcheck, t, hmem, hleaves⟩
  exact ⟨s, trace, hrun, fun t ht => closesBetweenVisits_of_check (hcheck t ht), t, hmem,
    not_removedFirst_of_leaves hleaves⟩

end Rpc
end Notnets
