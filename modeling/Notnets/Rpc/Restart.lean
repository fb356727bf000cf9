import Notnets.Rpc.Isolation
import Notnets.Rpc.Server

/-!
# Restarting the server

`coord_create` may be handed the segment of an earlier run.  It takes back the
reservations and leaves the rows as they are, and rows that are not reserved are
still read: `client_close` matches their client ids, and clearing a row that says
so removes its segments.
-/

namespace Notnets
namespace Rpc

open Coord
open Foundation
open Os
open Queue

/-!
# Observations
-/

/-- What is seen of a call: its result, the segments that exist after it, and the
number of those made so far. -/
structure Observation where
  result : Except Halt ServerReturn
  standing : Int -> Bool
  made : Nat

def observation (result : Except Halt ServerReturn) (k : Kernel) : Observation where
  result := result
  standing := fun shmid => (k.segments.entries shmid).isSome
  made := k.segments.next

/-- What is seen of a run, call by call, up to a call that does not return. -/
def observe (boost : Int -> Int -> OsM ShmPair) (header : CoordHeader) (k : Kernel) :
    List ServerCall -> List Observation
  | [] => []
  | call :: calls =>
      match (perform (poolOps boost) shmAttach header call).run.run k with
      | (.ok (header', ret), k') =>
          observation (.ok ret) k' :: observe boost header' k' calls
      | (.error halt, k') => [observation (.error halt) k']

/-- A row that is not reserved, and that no call can tell from a zeroed one. -/
structure FreeRow (row : CoordRow) : Prop where
  clientId : row.clientId = 0
  removed : row.shmCreated = true ->
    row.shms.requestShm.shmid < 0 ∧ row.shms.responseShm.shmid < 0

/-!
# Two tables
-/

structure SameRow (row row' : CoordRow) : Prop where
  fields : row = { row' with shms := row.shms }
  shms : row'.shmCreated = true -> row.shms = row'.shms

def RowPair : Bool -> CoordRow -> CoordRow -> Prop
  | true, row, row' => SameRow row row'
  | false, row, row' => FreeRow row ∧ FreeRow row'

structure Alike (header header' : CoordHeader) : Prop where
  shmid : header.shmid = header'.shmid
  acceptSlot : header.acceptSlot = header'.acceptSlot
  reserved : header.clientReserved = header'.clientReserved
  rows : forall i, RowPair (header'.clientReserved i) (header.slots i) (header'.slots i)

theorem freeRow_zero : FreeRow CoordRow.zero where
  clientId := rfl
  removed := fun h => by cases h

section Rows

variable {reserved : Bool} {row row' : CoordRow}

theorem RowPair.clientId (h : RowPair reserved row row') :
    row.clientId = row'.clientId := by
  cases reserved with
  | true => rw [SameRow.fields h]
  | false => rw [h.left.clientId, h.right.clientId]

theorem SameRow.eq_of_created (h : SameRow row row') (hcreated : row'.shmCreated = true) :
    row = row' := by
  rw [h.fields, h.shms hcreated]

theorem sameRow_of_eq (h : row = row') : SameRow row row' := by
  subst h
  exact ⟨rfl, fun _ => rfl⟩

theorem SameRow.serviced (h : SameRow row row') (shms : ShmPair) :
    { row with shms := shms, shmCreated := true } =
      { row' with shms := shms, shmCreated := true } := by
  rw [h.fields]

theorem RowPair.mark (h : RowPair reserved row row') :
    RowPair reserved { row with detach := true } { row' with detach := true } := by
  cases reserved with
  | true =>
      refine ⟨?_, h.shms⟩
      rw [SameRow.fields h]
  | false =>
      exact ⟨⟨h.left.clientId, h.left.removed⟩, ⟨h.right.clientId, h.right.removed⟩⟩

theorem RowPair.attach (h : RowPair reserved row row) (attached : Bool) :
    RowPair reserved { row with serverAttached := attached }
      { row with serverAttached := attached } := by
  cases reserved with
  | true => exact ⟨rfl, fun _ => rfl⟩
  | false =>
      exact ⟨⟨h.left.clientId, h.left.removed⟩, ⟨h.left.clientId, h.left.removed⟩⟩

theorem sameRow_request (row row' : CoordRow) (clientId messageSize : Int)
    (type : QueueType) :
    SameRow (requestRow row clientId messageSize type)
      (requestRow row' clientId messageSize type) where
  fields := rfl
  shms := fun h => by cases h

end Rows

section Tables

variable {header header' : CoordHeader}

theorem Alike.update (h : Alike header header') (slot : Slot) {reserved : Bool}
    {row row' : CoordRow} (hpair : RowPair reserved row row') :
    Alike ((header.setRow slot row).setReserved slot reserved)
      ((header'.setRow slot row').setReserved slot reserved) where
  shmid := h.shmid
  acceptSlot := h.acceptSlot
  reserved := by
    show Function.update _ _ _ = Function.update _ _ _
    rw [CoordHeader.setRow_clientReserved, CoordHeader.setRow_clientReserved, h.reserved]
  rows := by
    intro i
    by_cases hi : i = slot
    · subst hi
      simpa using hpair
    · rw [CoordHeader.setReserved_clientReserved_of_ne _ _ _ hi]
      simpa [hi] using h.rows i

theorem Alike.setRow (h : Alike header header') (slot : Slot) {row row' : CoordRow}
    (hpair : RowPair (header'.clientReserved slot) row row') :
    Alike (header.setRow slot row) (header'.setRow slot row') where
  shmid := h.shmid
  acceptSlot := h.acceptSlot
  reserved := h.reserved
  rows := by
    intro i
    by_cases hi : i = slot
    · subst hi
      simpa using hpair
    · simpa [hi] using h.rows i

theorem Alike.request (h : Alike header header') (clientId messageSize : Int)
    (type : QueueType) :
    Alike (requestSlot header clientId messageSize type).1
        (requestSlot header' clientId messageSize type).1 ∧
      (requestSlot header clientId messageSize type).2 =
        (requestSlot header' clientId messageSize type).2 := by
  have hfree : freeSlot header = freeSlot header' := by
    unfold freeSlot
    rw [h.reserved]
  unfold requestSlot
  rw [hfree]
  cases freeSlot header' with
  | none => exact ⟨h, rfl⟩
  | some i => exact ⟨h.update i (sameRow_request _ _ _ _ _), rfl⟩

theorem Alike.close (h : Alike header header') (clientId : Int) :
    Alike (clientClose header clientId).1 (clientClose header' clientId).1 ∧
      (clientClose header clientId).2 = (clientClose header' clientId).2 := by
  have hmatch : matchingRow header clientId = matchingRow header' clientId := by
    unfold matchingRow
    congr 1
    funext i
    rw [(h.rows i).clientId]
  unfold clientClose
  rw [hmatch]
  cases matchingRow header' clientId with
  | none => exact ⟨h, rfl⟩
  | some i => exact ⟨h.setRow i (h.rows i).mark, rfl⟩

theorem Alike.eligible (h : Alike header header') (slot : Slot) :
    eligible header slot = eligible header' slot := by
  have hpair := h.rows slot
  unfold Rpc.eligible
  rw [h.reserved]
  cases hreserved : header'.clientReserved slot with
  | true =>
      rw [hreserved] at hpair
      rw [SameRow.fields hpair]
  | false => simp

theorem Alike.acceptScan (h : Alike header header') :
    acceptScan header = acceptScan header' := by
  unfold Rpc.acceptScan
  rw [h.acceptSlot]
  congr 1
  funext slot
  exact h.eligible slot

theorem Alike.scanned (h : Alike header header') {slot : Slot}
    (hscan : Rpc.acceptScan header' = some slot) :
    header.slots slot = header'.slots slot := by
  have heligible := List.find?_some hscan
  have hpair := h.rows slot
  simp only [Rpc.eligible, Bool.and_eq_true] at heligible
  rw [heligible.left.right] at hpair
  exact SameRow.eq_of_created hpair heligible.right

end Tables

/-!
# The calls on two tables
-/

def SameReturn (result result' : CoordHeader × ServerReturn) (k k' : Kernel) : Prop :=
  Alike result.1 result'.1 ∧ result.2 = result'.2 ∧ k = k'

section Calls

variable {header header' : CoordHeader} {slot : Slot} {k : Kernel}

theorem runsLike_createPair (h : Alike header header')
    (hrow : header.slots slot = header'.slots slot) (table : OperationTable) :
    RunsLike Eq SameReturn (createServerQueuePair shmAttach header slot table) k
      (createServerQueuePair shmAttach header' slot table) k := by
  have hcheck : checkSlot header slot = checkSlot header' slot := by
    unfold checkSlot
    rw [hrow]
  have hid : getClientId header slot = getClientId header' slot := by
    unfold getClientId
    rw [hrow]
  have hstate : getServerAttachState header slot = getServerAttachState header' slot := by
    unfold getServerAttachState
    rw [hrow]
  have hset : Alike (setServerAttachState header slot true).1
      (setServerAttachState header' slot true).1 := by
    have hpair := h.rows slot
    unfold setServerAttachState
    rw [hrow] at hpair ⊢
    split
    · exact h.setRow slot (hpair.attach true)
    · exact h
  unfold createServerQueuePair
  dsimp only
  rw [hcheck, hid, hstate]
  split
  · exact runsLike_pure ⟨h, rfl, rfl⟩
  · split
    · exact runsLike_pure ⟨h, rfl, rfl⟩
    · have hattach : forall shmid k, RunsLike Eq (fun a b t t' => a = b ∧ t = t')
          (shmAttach shmid) k (shmAttach shmid) k :=
        fun shmid k => runsLike_refl (fun _ _ => ⟨rfl, rfl⟩) fun _ => rfl
      apply (hattach _ k).bind
      intro requestAddr _ k1 _ hboth
      rcases hboth with ⟨rfl, rfl⟩
      apply (hattach _ k1).bind
      intro responseAddr _ k2 _ hparts
      rcases hparts with ⟨rfl, rfl⟩
      exact runsLike_pure ⟨hset, rfl, rfl⟩

theorem runsLike_accept (h : Alike header header') :
    RunsLike Eq SameReturn (accept shmAttach header) k (accept shmAttach header') k := by
  unfold accept
  rw [h.acceptScan]
  cases hscan : acceptScan header' with
  | none => exact runsLike_pure ⟨h, rfl, rfl⟩
  | some slot =>
      have hrow := h.scanned hscan
      have hturned : Alike { header with acceptSlot := (slot.val + 1) % slotNum }
          { header' with acceptSlot := (slot.val + 1) % slotNum } :=
        ⟨h.shmid, rfl, h.reserved, h.rows⟩
      dsimp only
      rw [hrow]
      exact runsLike_createPair hturned hrow _

/-!
# The manager's visit
-/

theorem shmRemove_negative {shmid : Int} (h : shmid < 0) :
    Returns (shmRemove shmid) k (-1) k := by
  apply returns_get_bind.mpr
  rw [k.segments.fresh shmid (Or.inl h)]
  exact returns_pure.mpr ⟨rfl, rfl⟩

theorem visit_freeRow (boost : Int -> Int -> OsM ShmPair)
    (hreserved : header.clientReserved slot = false)
    (hfree : FreeRow (header.slots slot)) :
    Returns (managePoolVisit (poolOps boost) header slot) k (cleared header slot) k := by
  have hservice : Returns (serviceSlot header slot
      ((poolOps boost).run (allocatorOf (header.slots slot).type))) k (header, -1) k := by
    unfold serviceSlot
    dsimp only
    rw [hreserved]
    exact returns_pure.mpr ⟨rfl, rfl⟩
  have hclean : Returns (cleanUpQueueResources (poolOps boost) header slot) k () k := by
    unfold cleanUpQueueResources
    rw [hreserved]
    exact returns_pure.mpr ⟨rfl, rfl⟩
  have hclear : Returns (clearSlot (poolOps boost).shmRemove header slot) k
      (cleared header slot) k := by
    unfold clearSlot cleared
    split
    · unfold forceClearSlot
      split
      · rename_i hcreated
        rcases hfree.removed hcreated with ⟨hrequest, hresponse⟩
        refine returns_bind.mpr ⟨-1, k, shmRemove_negative hrequest, ?_⟩
        refine returns_bind.mpr ⟨-1, k, shmRemove_negative hresponse, ?_⟩
        exact returns_pure.mpr ⟨rfl, rfl⟩
      · exact returns_pure.mpr ⟨rfl, rfl⟩
    · exact returns_pure.mpr ⟨rfl, rfl⟩
  unfold managePoolVisit
  exact returns_bind.mpr ⟨_, k, hservice, returns_bind.mpr ⟨(), k, hclean, hclear⟩⟩

theorem freeRow_cleared (hfree : FreeRow (header.slots slot)) :
    FreeRow ((cleared header slot).slots slot) := by
  unfold cleared
  split
  · rw [CoordHeader.setReserved_slots, CoordHeader.setRow_slots_self]
    exact freeRow_zero
  · exact hfree

theorem cleared_unreserved (hreserved : header.clientReserved slot = false) :
    (cleared header slot).clientReserved = header.clientReserved ∧
      (cleared header slot).shmid = header.shmid ∧
      (cleared header slot).acceptSlot = header.acceptSlot := by
  unfold cleared
  split
  · refine ⟨?_, rfl, rfl⟩
    show Function.update header.clientReserved slot false = header.clientReserved
    rw [← hreserved, Function.update_eq_self]
  · exact ⟨rfl, rfl, rfl⟩

theorem cleared_other {other : Slot} (hne : other ≠ slot) :
    (cleared header slot).slots other = header.slots other := by
  unfold cleared
  split
  · rw [CoordHeader.setReserved_slots, CoordHeader.setRow_slots_of_ne _ _ _ hne]
  · rfl

theorem Alike.clearedFree (h : Alike header header')
    (hreserved : header'.clientReserved slot = false) :
    Alike (cleared header slot) (cleared header' slot) := by
  have hreserved' : header.clientReserved slot = false := by
    rw [h.reserved]
    exact hreserved
  have hpair := h.rows slot
  rw [hreserved] at hpair
  rcases cleared_unreserved hreserved with ⟨hsame, hshmid, haccept⟩
  rcases cleared_unreserved hreserved' with ⟨hsame', hshmid', haccept'⟩
  constructor
  · rw [hshmid, hshmid', h.shmid]
  · rw [haccept, haccept', h.acceptSlot]
  · rw [hsame, hsame', h.reserved]
  · intro i
    rw [hsame]
    by_cases hi : i = slot
    · rw [hi, hreserved]
      exact ⟨freeRow_cleared hpair.left, freeRow_cleared hpair.right⟩
    · rw [cleared_other hi, cleared_other hi]
      exact h.rows i

def Serviced (slot : Slot) (result result' : CoordHeader × Int) (k k' : Kernel) : Prop :=
  Alike result.1 result'.1 ∧ result.1.slots slot = result'.1.slots slot ∧
    result'.1.clientReserved slot = true ∧ k = k'

theorem runsLike_service (h : Alike header header')
    (hreserved : header'.clientReserved slot = true)
    (allocation : Int -> Int -> OsM ShmPair) :
    RunsLike Eq (Serviced slot) (serviceSlot header slot allocation) k
      (serviceSlot header' slot allocation) k := by
  have hpair := h.rows slot
  rw [hreserved] at hpair
  have hsame : SameRow (header.slots slot) (header'.slots slot) := hpair
  unfold serviceSlot
  dsimp only
  rw [h.reserved, hreserved]
  cases hcreated : (header'.slots slot).shmCreated with
  | true =>
      rw [hsame.eq_of_created hcreated, hcreated]
      exact runsLike_pure ⟨h, hsame.eq_of_created hcreated, hreserved, rfl⟩
  | false =>
      have hcreated' : (header.slots slot).shmCreated = false := by
        rw [hsame.fields]
        exact hcreated
      have hallocation : RunsLike Eq (fun a b t t' => a = b ∧ t = t')
          (allocation (header.slots slot).messageSize (header.slots slot).clientId) k
          (allocation (header'.slots slot).messageSize (header'.slots slot).clientId)
          k := by
        rw [hsame.fields]
        exact runsLike_refl (fun _ _ => ⟨rfl, rfl⟩) fun _ => rfl
      rw [hcreated']
      apply hallocation.bind
      intro shms _ t _ hboth
      rcases hboth with ⟨rfl, rfl⟩
      have hrow := hsame.serviced shms
      refine runsLike_pure ⟨?_, ?_, hreserved, rfl⟩
      · apply h.setRow slot
        rw [hreserved]
        exact sameRow_of_eq hrow
      · rw [CoordHeader.setRow_slots_self, CoordHeader.setRow_slots_self]
        exact hrow

theorem runsLike_visit (boost : Int -> Int -> OsM ShmPair) (h : Alike header header')
    (slot : Slot) :
    RunsLike Eq (fun a b t t' => Alike a b ∧ t = t')
      (managePoolVisit (poolOps boost) header slot) k
      (managePoolVisit (poolOps boost) header' slot) k := by
  have hpair := h.rows slot
  cases hreserved : header'.clientReserved slot with
  | false =>
      rw [hreserved] at hpair
      have hreserved' : header.clientReserved slot = false := by
        rw [h.reserved]
        exact hreserved
      exact runsLike_of_returns (visit_freeRow boost hreserved' hpair.left)
        (visit_freeRow boost hreserved hpair.right) ⟨h.clearedFree hreserved, rfl⟩
  | true =>
      rw [hreserved] at hpair
      have htype : (header.slots slot).type = (header'.slots slot).type := by
        rw [SameRow.fields hpair]
      unfold managePoolVisit
      rw [htype]
      apply (runsLike_service h hreserved _).bind
      intro result result' t _ hparts
      rcases hparts with ⟨halike, hrow, hstill, rfl⟩
      have hclean : RunsLike Eq (fun _ _ t t' => t = t')
          (cleanUpQueueResources (poolOps boost) result.1 slot) t
          (cleanUpQueueResources (poolOps boost) result'.1 slot) t := by
        unfold cleanUpQueueResources
        rw [halike.reserved, hrow]
        exact runsLike_refl (fun _ _ => rfl) fun _ => rfl
      apply hclean.bind
      rintro _ _ t1 _ rfl
      unfold clearSlot forceClearSlot
      rw [hrow]
      have hfree : RowPair false CoordRow.zero CoordRow.zero :=
        ⟨freeRow_zero, freeRow_zero⟩
      have hclear := halike.update slot hfree
      split
      · split
        · have hremove : forall shmid k, RunsLike Eq (fun a b t t' => a = b ∧ t = t')
              ((poolOps boost).shmRemove shmid) k ((poolOps boost).shmRemove shmid) k :=
            fun shmid k => runsLike_refl (fun _ _ => ⟨rfl, rfl⟩) fun _ => rfl
          apply (hremove _ t1).bind
          intro _ _ t2 _ hboth
          rcases hboth with ⟨_, rfl⟩
          apply (hremove _ t2).bind
          intro _ _ t3 _ hall
          rcases hall with ⟨_, rfl⟩
          exact runsLike_pure ⟨hclear, rfl⟩
        · exact runsLike_pure ⟨hclear, rfl⟩
      · exact runsLike_pure ⟨halike, rfl⟩

theorem runsLike_managePool (boost : Int -> Int -> OsM ShmPair)
    (h : Alike header header') :
    RunsLike Eq (fun a b t t' => Alike a b ∧ t = t')
      (managePool (poolOps boost) header) k (managePool (poolOps boost) header') k := by
  unfold managePool
  apply RunsLike.foldlM fun _ a b t t' => Alike a b ∧ t = t'
  · intro done slot todo a b t _ _ hboth
    rcases hboth with ⟨halike, rfl⟩
    exact runsLike_visit boost halike slot
  · exact ⟨h, rfl⟩

theorem runsLike_perform (boost : Int -> Int -> OsM ShmPair) (h : Alike header header')
    (call : ServerCall) :
    RunsLike Eq SameReturn (perform (poolOps boost) shmAttach header call) k
      (perform (poolOps boost) shmAttach header' call) k := by
  cases call with
  | requestSlot clientId messageSize type =>
      rcases h.request clientId messageSize type with ⟨halike, hret⟩
      refine runsLike_pure ⟨halike, ?_, rfl⟩
      show ServerReturn.slot _ = ServerReturn.slot _
      rw [hret]
  | clientClose clientId =>
      rcases h.close clientId with ⟨halike, hret⟩
      refine runsLike_pure ⟨halike, ?_, rfl⟩
      show ServerReturn.code _ = ServerReturn.code _
      rw [hret]
  | accept => exact runsLike_accept h
  | managePool =>
      apply (runsLike_managePool boost h).bind
      intro a b t _ hboth
      rcases hboth with ⟨halike, rfl⟩
      exact runsLike_pure ⟨halike, rfl, rfl⟩
  | visit slot =>
      apply (runsLike_visit boost h slot).bind
      intro a b t _ hparts
      rcases hparts with ⟨halike, rfl⟩
      exact runsLike_pure ⟨halike, rfl, rfl⟩

theorem observe_of_returns {boost : Int -> Int -> OsM ShmPair} {call : ServerCall}
    {ret : ServerReturn} {k' : Kernel}
    (h : Returns (perform (poolOps boost) shmAttach header call) k (header', ret) k')
    (calls : List ServerCall) :
    observe boost header k (call :: calls) =
      observation (.ok ret) k' :: observe boost header' k' calls := by
  rw [observe, show (perform (poolOps boost) shmAttach header call).run.run k =
    (.ok (header', ret), k') from h]

theorem observe_of_halts {boost : Int -> Int -> OsM ShmPair} {call : ServerCall}
    {halt : Halt} {k' : Kernel}
    (h : Halts (perform (poolOps boost) shmAttach header call) k halt k')
    (calls : List ServerCall) :
    observe boost header k (call :: calls) = [observation (.error halt) k'] := by
  rw [observe, show (perform (poolOps boost) shmAttach header call).run.run k =
    (.error halt, k') from h]

/-- Nobody can tell tables that are alike apart. -/
theorem observe_of_alike (boost : Int -> Int -> OsM ShmPair) (h : Alike header header')
    (calls : List ServerCall) :
    observe boost header k calls = observe boost header' k calls := by
  induction calls generalizing header header' k with
  | nil => rfl
  | cons call calls ih =>
      rcases (runsLike_perform (k := k) boost h call).returns_or_halts with
        ⟨⟨table, ret⟩, ⟨table', ret'⟩, t, t', hfirst, hsecond, halike, hret, hk⟩ |
          ⟨halt, t, t', hfirst, hsecond, hk⟩
      · have hret : ret = ret' := hret
        subst hret hk
        rw [observe_of_returns hfirst, observe_of_returns hsecond, ih halike]
      · subst hk
        rw [observe_of_halts hfirst, observe_of_halts hsecond]

end Calls

/-!
# Telling two tables apart
-/

def filled (header : CoordHeader) (n : Nat) : CoordHeader :=
  { header with
    clientReserved := fun i => decide (i.val < n)
    slots := fun i =>
      if i.val < n then requestRow (header.slots i) 1 1 .poll else header.slots i }

def fill : ServerCall :=
  .requestSlot 1 1 .poll

section Filled

variable {header : CoordHeader} {n : Nat} {k : Kernel}

theorem requestSlot_filled (hn : n < slotNum) :
    requestSlot (filled header n) 1 1 .poll = (filled header (n + 1), some ⟨n, hn⟩) := by
  have hfree : freeSlot (filled header n) = some ⟨n, hn⟩ := by
    rw [freeSlot_eq_some_iff]
    refine ⟨decide_eq_false (Nat.lt_irrefl n), ?_⟩
    intro j hj
    exact decide_eq_true hj
  have hlater : forall i : Slot, i ≠ ⟨n, hn⟩ -> (i.val < n <-> i.val < n + 1) := by
    intro i hi
    have hval : i.val ≠ n := fun heq => hi (Fin.ext heq)
    lia
  have hreserved : Function.update (filled header n).clientReserved ⟨n, hn⟩ true =
      (filled header (n + 1)).clientReserved := by
    rw [Function.update_eq_iff]
    constructor
    · simp [filled]
    · intro i hi
      simp only [filled, hlater i hi]
  have hslots : Function.update (filled header n).slots ⟨n, hn⟩
      (requestRow ((filled header n).slots ⟨n, hn⟩) 1 1 .poll) =
      (filled header (n + 1)).slots := by
    rw [Function.update_eq_iff]
    constructor
    · simp [filled]
    · intro i hi
      simp only [filled, hlater i hi]
  unfold requestSlot
  rw [hfree]
  unfold CoordHeader.setReserved CoordHeader.setRow
  dsimp only
  rw [hreserved, hslots]
  rfl

theorem observe_fills (boost : Int -> Int -> OsM ShmPair) (header : CoordHeader)
    (k : Kernel) (count : Nat) (hn : n + count ≤ slotNum) (calls : List ServerCall) :
    exists seen, seen.length = count ∧
      observe boost (filled header n) k (List.replicate count fill ++ calls) =
        seen ++ observe boost (filled header (n + count)) k calls := by
  induction count generalizing n with
  | zero => exact ⟨[], rfl, rfl⟩
  | succ count ih =>
      have hroom : n + 1 + count ≤ slotNum := by lia
      rcases ih hroom with ⟨seen, hlength, hseen⟩
      have hcall : observe boost (filled header n) k
          (List.replicate (count + 1) fill ++ calls) =
            observation (.ok (.slot (requestSlot (filled header n) 1 1 .poll).2)) k ::
              observe boost (requestSlot (filled header n) 1 1 .poll).1 k
                (List.replicate count fill ++ calls) := rfl
      have hshift : n + 1 + count = n + (count + 1) := by lia
      rw [hcall, requestSlot_filled (by lia), hseen, hshift]
      exact ⟨_ :: seen, by rw [List.length_cons, hlength], rfl⟩

theorem filled_zero (content : CoordHeader) (shmid : Int) :
    filled (coordCreate content shmid) 0 = coordCreate content shmid := by
  unfold filled coordCreate
  simp

def marked (content : CoordHeader) (shmid : Int) (slot : Slot) : CoordHeader :=
  markDetach (filled (coordCreate content shmid) slot.val) slot

theorem clientClose_filled {content : CoordHeader} {shmid : Int}
    (hids : forall j, (content.slots j).clientId = 0) (slot : Slot) :
    clientClose (filled (coordCreate content shmid) slot.val) 0 =
      (marked content shmid slot, 0) := by
  have hmatch : matchingRow (filled (coordCreate content shmid) slot.val) 0 =
      some slot := by
    rw [matchingRow_eq_some_iff]
    constructor
    · simpa [filled, coordCreate] using hids slot
    · intro j hj
      simp [filled, hj, requestRow]
  unfold clientClose
  rw [hmatch]
  rfl

theorem observe_marked {boost : Int -> Int -> OsM ShmPair}
    {content content' : CoordHeader} {shmid : Int}
    (hids : forall j, (content.slots j).clientId = 0)
    (hids' : forall j, (content'.slots j).clientId = 0)
    (h : forall k calls, observe boost (coordCreate content shmid) k calls =
      observe boost (coordCreate content' shmid) k calls)
    (slot : Slot) (calls : List ServerCall) :
    observe boost (marked content shmid slot) k calls =
      observe boost (marked content' shmid slot) k calls := by
  have hfit : 0 + slot.val ≤ slotNum := by
    have hlt := slot.isLt
    lia
  rcases observe_fills boost (coordCreate content shmid) k slot.val hfit
    (.clientClose 0 :: calls) with ⟨seen, hlength, hseen⟩
  rcases observe_fills boost (coordCreate content' shmid) k slot.val hfit
    (.clientClose 0 :: calls) with ⟨seen', hlength', hseen'⟩
  rw [filled_zero, h, ← filled_zero content' shmid, hseen'] at hseen
  have htail := List.append_inj_right hseen (by rw [hlength, hlength'])
  rw [Nat.zero_add] at htail
  have hclose : forall header : CoordHeader,
      observe boost header k (.clientClose 0 :: calls) =
        observation (.ok (.code (clientClose header 0).2)) k ::
          observe boost (clientClose header 0).1 k calls := fun _ => rfl
  rw [hclose, hclose, clientClose_filled hids, clientClose_filled hids'] at htail
  injection htail with _ htail
  exact htail.symm

end Filled

/-!
# A segment that a stale row refers to
-/

section Holding

variable {content : CoordHeader} {shmid : Int} {slot : Slot}

theorem marked_clientReserved (j : Slot) :
    (marked content shmid slot).clientReserved j = decide (j < slot) := rfl

theorem marked_slots_lt {j : Slot} (hj : j < slot) :
    (marked content shmid slot).slots j = requestRow (content.slots j) 1 1 .poll := by
  unfold marked markDetach
  rw [CoordHeader.setRow_slots_of_ne _ _ _ (Fin.ne_of_lt hj)]
  simp [filled, hj, coordCreate]

theorem marked_slots_self : (marked content shmid slot).slots slot =
    { content.slots slot with detach := true } := by
  unfold marked markDetach
  rw [CoordHeader.setRow_slots_self]
  simp [filled, coordCreate]

theorem marked_slots_gt {j : Slot} (hj : slot < j) :
    (marked content shmid slot).slots j = content.slots j := by
  have hnot : ¬ j < slot := by lia
  unfold marked markDetach
  rw [CoordHeader.setRow_slots_of_ne _ _ _ (Fin.ne_of_gt hj)]
  simp [filled, hnot, coordCreate]

/-- A system in which one private segment is all there is. -/
def holding (id : Nat) : Kernel where
  segments := { (IpcTable.empty : IpcTable Segment) with
    next := id
    fresh := fun _ _ => rfl }.insert 0 (Segment.zero 0) rfl
  semaphores := IpcTable.empty
  faults := []

theorem holding_self (id : Nat) :
    (holding id).segments.entries id = some ⟨0, Segment.zero 0⟩ :=
  Function.update_self _ _ _

theorem holding_ready (id : Nat) : (holding id).Ready queueRegionSize where
  calls := rfl
  room := by
    intro shmid e hentry hne
    by_cases hid : shmid = id
    · rw [hid, holding_self] at hentry
      injection hentry with hentry
      rw [← hentry] at hne
      exact absurd rfl hne
    · have hnone : (holding id).segments.entries shmid = none :=
        Function.update_of_ne hid _ _
      rw [hnone] at hentry
      cases hentry

theorem visit_stays_removed {boost : Int -> Int -> OsM ShmPair}
    {header header' : CoordHeader} {k k' : Kernel} {id : Int}
    (htype : header.clientReserved slot = true ->
      (header.slots slot).type = .poll)
    (h : Returns (managePoolVisit (poolOps boost) header slot) k header' k')
    (hlt : id < k.segments.next) :
    id < k'.segments.next ∧
      (k.segments.entries id = none -> k'.segments.entries id = none) := by
  have hboost : NeedsService header slot ->
      allocatorOf (header.slots slot).type = .boost -> BoostByKeys boost := by
    intro hneeds hallocator
    rw [htype hneeds.left] at hallocator
    cases hallocator
  rcases managePoolVisit_returns hboost h with ⟨shms, mid, hheader, hvisit⟩
  have hmid : id < mid.next ∧
      (k.segments.entries id = none -> mid.entries id = none) := by
    by_cases hneeds : NeedsService header slot
    · have halloc := hvisit.allocated hneeds
      exact ⟨by have hnext := halloc.next; lia, halloc.stays_removed hlt⟩
    · rw [hvisit.skipped hneeds]
      exact ⟨hlt, fun hnone => hnone⟩
  have hcleared := hvisit.cleared
  refine ⟨by have hnext := hcleared.next; lia, ?_⟩
  intro hnone
  have hnone' := hmid.right hnone
  by_cases hclear : ((serviced shms header slot).slots slot).detach = true ∧
      ((serviced shms header slot).slots slot).shmCreated = true
  · rw [hcleared.removed hclear.left hclear.right]
    simp [Function.update_apply, hnone']
  · rw [hcleared.kept hclear]
    exact hnone'

def Untouched (content : CoordHeader) (shmid : Int) (slot : Slot) (done : List Slot)
    (header : CoordHeader) : Prop :=
  forall j, j ∉ done -> header.slots j = (marked content shmid slot).slots j ∧
    header.clientReserved j = (marked content shmid slot).clientReserved j

theorem not_mem_of_split {done todo : List Slot} {x : Slot}
    (h : List.finRange slotNum = done ++ x :: todo) : x ∉ done := by
  have hnodup := List.nodup_finRange slotNum
  rw [h] at hnodup
  intro hmem
  exact (List.nodup_append.mp hnodup).right.right x hmem x List.mem_cons_self rfl

theorem Untouched.step {done : List Slot} {x : Slot} {header header' : CoordHeader}
    (h : Untouched content shmid slot done header)
    (hother : forall j, j ≠ x -> header'.slots j = header.slots j ∧
      header'.clientReserved j = header.clientReserved j) :
    Untouched content shmid slot (done ++ [x]) header' := by
  intro j hj
  rw [List.mem_append, List.mem_singleton, not_or] at hj
  rcases hother j hj.right with ⟨hrow, hreserved⟩
  rw [hrow, hreserved]
  exact h j hj.left

theorem pass_marked_removes {boost : Int -> Int -> OsM ShmPair} {header' : CoordHeader}
    {k k' : Kernel} {id : Int} (hcreated : (content.slots slot).shmCreated = true)
    (huses : Uses (content.slots slot) id) (hlt : id < k.segments.next)
    (h : Returns (managePool (poolOps boost) (marked content shmid slot)) k header' k') :
    k'.segments.entries id = none := by
  have hrun := returns_foldlM
    (fun done (header : CoordHeader) (k : Kernel) => id < k.segments.next ∧
      (slot ∈ done -> k.segments.entries id = none) ∧
      Untouched content shmid slot done header) ?_ ⟨hlt, ?_, ?_⟩ h
  · exact hrun.right.left (List.mem_finRange slot)
  · rintro done x todo header k header1 k1 hsplit ⟨hlt, hgone, huntouched⟩ hvisit
    have hx := not_mem_of_split hsplit
    rcases huntouched x hx with ⟨hrow, hreserved⟩
    have htype : header.clientReserved x = true -> (header.slots x).type = .poll := by
      intro hyes
      rw [hreserved, marked_clientReserved] at hyes
      rw [hrow, marked_slots_lt (of_decide_eq_true hyes)]
      rfl
    rcases visit_stays_removed htype hvisit hlt with ⟨hlt1, hstays⟩
    have hboost : NeedsService header x ->
        allocatorOf (header.slots x).type = .boost -> BoostByKeys boost := by
      intro hneeds hallocator
      rw [htype hneeds.left] at hallocator
      cases hallocator
    rcases managePoolVisit_returns hboost hvisit with ⟨shms, mid, hheader, hvisited⟩
    refine ⟨hlt1, ?_, ?_⟩
    · intro hmem
      rcases List.mem_append.mp hmem with hmem | hmem
      · exact hstays (hgone hmem)
      · rw [List.mem_singleton] at hmem
        subst hmem
        have hneeds : ¬ NeedsService header slot := by
          intro hneeds
          have hyes := hneeds.left
          rw [hreserved, marked_clientReserved] at hyes
          exact absurd (of_decide_eq_true hyes) (by lia)
        have hcleared := hvisited.cleared
        rw [serviced_of_not_needs shms hneeds] at hcleared
        rw [marked_slots_self] at hrow
        rw [hcleared.removed (by rw [hrow]) (by rw [hrow]; exact hcreated), hrow]
        rcases huses with hid | hid
        · simp [Function.update_apply, hid]
        · simp [hid]
    · rw [hheader]
      exact huntouched.step fun j hj => visitWith_other shms header hj
  · intro hmem
    cases hmem
  · exact fun j _ => ⟨rfl, rfl⟩

theorem exists_pass_marked (boost : Int -> Int -> OsM ShmPair) (shmid : Int)
    (slot : Slot) {k : Kernel} {id : Int} (hready : k.Ready queueRegionSize)
    (hentry : k.segments.entries id ≠ none) :
    exists header' k',
      Returns (managePool (poolOps boost) (marked CoordHeader.zero shmid slot)) k
        header' k' ∧ k'.segments.entries id ≠ none := by
  let Inv : List Slot -> CoordHeader -> Kernel -> Prop := fun done header k =>
    k.Ready queueRegionSize ∧ k.segments.entries id ≠ none ∧
      Untouched CoordHeader.zero shmid slot done header
  have hrun : exists header' k',
      Returns (managePool (poolOps boost) (marked CoordHeader.zero shmid slot)) k
        header' k' ∧ Inv (List.finRange slotNum) header' k' := by
    apply exists_returns_foldlM Inv ?_ ⟨hready, hentry, fun j _ => ⟨rfl, rfl⟩⟩
    intro done x todo header k hsplit hparts
    rcases hparts with ⟨hready, hentry, huntouched⟩
    have hx := not_mem_of_split hsplit
    rcases huntouched x hx with ⟨hrow, hreserved⟩
    rw [marked_clientReserved] at hreserved
    by_cases hlt : x < slot
    · rw [marked_slots_lt hlt] at hrow
      rw [decide_eq_true hlt] at hreserved
      have hneeds : NeedsService header x := ⟨hreserved, by rw [hrow]; rfl⟩
      have hhash : exists shms k1, Returns (hashShmAllocator 1 1) k shms k1 :=
        exists_hash (hready.callsSucceed 4) (by decide) (hready.hasRoom _)
          (hready.hasRoom _) ⟨_, rfl⟩
      rcases hhash with ⟨shms, k1, halloc⟩
      have halloc1 : Returns ((poolOps boost).run (allocatorOf (header.slots x).type)
          (header.slots x).messageSize (header.slots x).clientId) k shms k1 := by
        rw [hrow]
        exact halloc
      refine ⟨_, k1, visit_services hneeds (by rw [hrow]; rfl) halloc1,
        ready_hash 1 1 (Nat.le_refl _) k shms k1 halloc hready, ?_, ?_⟩
      · rcases Option.ne_none_iff_exists'.mp hentry with ⟨e, he⟩
        rcases (keyedAllocator_keys (writesAt_queueCreate _ _) halloc).kept id e he with
          ⟨e', he', _⟩
        rw [he']
        exact Option.some_ne_none e'
      · apply huntouched.step
        intro j hj
        exact ⟨serviced_other shms header hj, by rw [serviced_clientReserved]⟩
    · rw [decide_eq_false hlt] at hreserved
      have hfree : FreeRow (header.slots x) := by
        rw [hrow]
        by_cases heq : x = slot
        · subst heq
          rw [marked_slots_self]
          exact ⟨rfl, freeRow_zero.removed⟩
        · rw [marked_slots_gt (by lia)]
          exact freeRow_zero
      refine ⟨_, k, visit_freeRow boost hreserved hfree, hready, hentry, ?_⟩
      apply huntouched.step
      intro j hj
      rcases cleared_unreserved hreserved with ⟨hsame, _⟩
      exact ⟨cleared_other hj, by rw [hsame]⟩
  rcases hrun with ⟨header', k', hreturns, _, hstill, _⟩
  exact ⟨header', k', hreturns, hstill⟩

end Holding

/-!
# Restart
-/

section Restart

variable {boost : Int -> Int -> OsM ShmPair} {content : CoordHeader} {shmid : Int}

theorem observe_managePool (boost : Int -> Int -> OsM ShmPair) (header : CoordHeader)
    (k : Kernel) :
    observe boost header k [.managePool] =
      match (managePool (poolOps boost) header).run.run k with
      | (.ok _, k') => [observation (.ok .done) k']
      | (.error halt, k') => [observation (.error halt) k'] := by
  rcases returns_or_halts (managePool (poolOps boost) header) k with
    ⟨header', k', hpool⟩ | ⟨halt, k', hpool⟩
  · have hcall : Returns (perform (poolOps boost) shmAttach header .managePool) k
        (header', .done) k' :=
      returns_bind.mpr ⟨header', k', hpool, returns_pure.mpr ⟨rfl, rfl⟩⟩
    rw [observe_of_returns hcall, show (managePool (poolOps boost) header).run.run k =
      (.ok header', k') from hpool]
    rfl
  · have hcall : Halts (perform (poolOps boost) shmAttach header .managePool) k halt k' :=
      hpool.bind _
    rw [observe_of_halts hcall, show (managePool (poolOps boost) header).run.run k =
      (.error halt, k') from hpool]

theorem freeRow_clientId (h : forall k calls,
      observe boost (coordCreate content shmid) k calls =
        observe boost (coordCreate CoordHeader.zero shmid) k calls) (slot : Slot) :
    (content.slots slot).clientId = 0 := by
  by_contra hne
  generalize hid : (content.slots slot).clientId = clientId at hne
  have hclose : forall header : CoordHeader,
      observe boost header (holding 0) [.clientClose clientId] =
        [observation (.ok (.code (clientClose header clientId).2)) (holding 0)] :=
    fun _ => rfl
  have hsame := h (holding 0) [.clientClose clientId]
  rw [hclose, hclose] at hsame
  injection hsame with hsame
  injection hsame with hresult
  injection hresult with hresult
  injection hresult with hcode
  have hfresh : (clientClose (coordCreate CoordHeader.zero shmid) clientId).2 = -1 := by
    rcases clientClose_cases (coordCreate CoordHeader.zero shmid) clientId with
      ⟨i, hmatch, _⟩ | ⟨_, hcase⟩
    · exact absurd (matchingRow_eq_some_iff.mp hmatch).left.symm hne
    · rw [hcase]
  rw [hfresh] at hcode
  rcases clientClose_cases (coordCreate content shmid) clientId with
    ⟨i, _, hcase⟩ | ⟨hnone, _⟩
  · rw [hcase] at hcode
    cases hcode
  · unfold matchingRow at hnone
    rw [Fin.find?_eq_none_iff] at hnone
    exact absurd hid (by simpa [coordCreate] using hnone slot)

theorem freeRow_removed (h : forall k calls,
      observe boost (coordCreate content shmid) k calls =
        observe boost (coordCreate CoordHeader.zero shmid) k calls)
    {slot : Slot} (hcreated : (content.slots slot).shmCreated = true) {id : Int}
    (huses : Uses (content.slots slot) id) : id < 0 := by
  by_contra hnot
  rcases Int.eq_ofNat_of_zero_le (Int.not_lt.mp hnot) with ⟨n, hn⟩
  rw [hn] at huses
  have hsame := observe_marked (k := holding n) (freeRow_clientId h) (fun _ => rfl) h slot
    [.managePool]
  have hthere : (holding n).segments.entries n ≠ none := by
    rw [holding_self]
    exact Option.some_ne_none _
  rcases exists_pass_marked boost shmid slot (holding_ready n) hthere with
    ⟨header', k', hpass, hstill⟩
  rw [observe_managePool boost (marked CoordHeader.zero shmid slot), hpass] at hsame
  have hlt : (n : Int) < (holding n).segments.next :=
    (IpcTable.lt_next (holding_self n)).right
  rw [observe_managePool] at hsame
  cases hstale : (managePool (poolOps boost) (marked content shmid slot)).run.run
      (holding n) with
  | mk result k1 =>
      rw [hstale] at hsame
      cases result with
      | error halt =>
          injection hsame with hsame
          injection hsame with hresult
          cases hresult
      | ok header1 =>
          injection hsame with hsame
          injection hsame with _ hstanding
          have hgone := pass_marked_removes hcreated huses hlt hstale
          have hsome := congrFun hstanding n
          rw [hgone] at hsome
          have hnone := Option.isSome_eq_false_iff.mp hsome.symm
          exact hstill (Option.isNone_iff_eq_none.mp hnone)

/--
A restarted server cannot be told from one on a zeroed segment, by the results of
any calls or by the segments that they make and remove, if and only if no row of
the earlier run still has a client id, or a segment to remove.
-/
theorem restart_clean :
    (forall k calls, observe boost (coordCreate content shmid) k calls =
      observe boost (coordCreate CoordHeader.zero shmid) k calls) <->
      forall i, FreeRow (content.slots i) := by
  constructor
  · intro h i
    refine ⟨freeRow_clientId h i, ?_⟩
    intro hcreated
    exact ⟨freeRow_removed h hcreated (Or.inl rfl),
      freeRow_removed h hcreated (Or.inr rfl)⟩
  · intro hfree k calls
    apply observe_of_alike
    exact ⟨rfl, rfl, rfl, fun i => ⟨hfree i, freeRow_zero⟩⟩

end Restart

/-- The first row is that of a POLL client with the id 5, serviced by a server that
has stopped since. -/
def staleContent : CoordHeader :=
  CoordHeader.zero.setRow firstSlot
    { CoordRow.zero with
      clientId := 5
      messageSize := 64
      shmCreated := true
      shms := ⟨⟨5, 3⟩, ⟨6, 4⟩, 0⟩ }

def glance (o : Observation) : Option ServerReturn × Bool :=
  (o.result.toOption, o.standing 3)

/-- A close by the client with the id 5, who has made no request, takes effect. -/
theorem restart_stale :
    ¬ forall (boost : Int -> Int -> OsM ShmPair) (content : CoordHeader) (shmid : Int)
      (k : Kernel) (calls : List ServerCall),
      observe boost (coordCreate content shmid) k calls =
        observe boost (coordCreate CoordHeader.zero shmid) k calls := by
  intro hclaim
  have hsame := hclaim boostOpenOrCreate staleContent 0 (holding 3)
    [.clientClose 5, .managePool]
  have hstale : (observe boostOpenOrCreate (coordCreate staleContent 0) (holding 3)
      [.clientClose 5, .managePool]).map glance =
        [(some (.code 0), true), (some .done, false)] := by
    decide +kernel
  have hfresh : (observe boostOpenOrCreate (coordCreate CoordHeader.zero 0) (holding 3)
      [.clientClose 5, .managePool]).map glance =
        [(some (.code (-1)), true), (some .done, true)] := by
    decide +kernel
  rw [hsame, hfresh] at hstale
  exact absurd hstale (by decide)

end Rpc
end Notnets
