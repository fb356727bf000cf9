import Notnets.Foundation.TransitionSystem
import Notnets.Rpc.Visit

/-!
# Isolation of connections

An allocator derives two keys from a client id, and `shmget` returns the segment
of a key to everybody who asks for it.  Connections are isolated as long as no
visit derives a key that is already in use.
-/

namespace Notnets
namespace Rpc

open Coord
open Foundation
open Os
open Queue

inductive TrafficLabel where
  | request (clientId messageSize : Int) (type : QueueType)
  | close (clientId : Int)
  /-- The manager's visit to a slot. -/
  | visit (slot : Slot)
  /-- A party writes to a queue region. -/
  | write (shmid : Int) (queue : SpscQueue)
  /-- A party changes the value of a semaphore. -/
  | operate (semid : Int) (value : Nat)

def trafficNext (boost : Int -> Int -> OsM ShmPair) (s : ServerState) :
    TrafficLabel -> Option ServerState
  | .request clientId messageSize type =>
      some { s with header := (requestSlot s.header clientId messageSize type).1 }
  | .close clientId => some { s with header := (clientClose s.header clientId).1 }
  | .visit slot => s.after (managePoolVisit (poolOps boost) s.header slot)
  | .write shmid queue =>
      some { s with kernel := { s.kernel with
        segments := s.kernel.segments.modify shmid fun segment =>
          { segment with queue := queue } } }
  | .operate semid value =>
      some { s with kernel := { s.kernel with
        semaphores := s.kernel.semaphores.modify semid fun set =>
          { set with value := value } } }

/-- The clients and the server, from a zeroed coordinator whose own segment has
this key; the system may hold other segments already. -/
def trafficSystem (boost : Int -> Int -> OsM ShmPair) (coordKey : Int) :
    TransitionSystem ServerState TrafficLabel where
  Initial s :=
    s.header = { CoordHeader.zero with shmid := s.header.shmid } ∧
      exists e, s.kernel.segments.entries s.header.shmid = some e ∧ e.key = coordKey
  next := trafficNext boost

/-!
# Isolation
-/

/-- Serviced and not yet cleared. -/
def Live (header : CoordHeader) (slot : Slot) : Prop :=
  header.clientReserved slot = true ∧ (header.slots slot).shmCreated = true

instance (header : CoordHeader) (slot : Slot) : Decidable (Live header slot) :=
  inferInstanceAs (Decidable (_ ∧ _))

def Uses (row : CoordRow) (shmid : Int) : Prop :=
  row.shms.requestShm.shmid = shmid ∨ row.shms.responseShm.shmid = shmid

/-- The segments of live slots exist, and are different from each other and from
the coordinator's. -/
structure Isolated (header : CoordHeader) (segments : IpcTable Segment) : Prop where
  exist : forall i shmid, Live header i -> Uses (header.slots i) shmid ->
    segments.entries shmid ≠ none
  pair : forall i, Live header i ->
    (header.slots i).shms.requestShm.shmid ≠ (header.slots i).shms.responseShm.shmid
  disjoint : forall i j shmid, Live header i -> Live header j ->
    Uses (header.slots i) shmid -> Uses (header.slots j) shmid -> i = j
  coordinator : forall i, Live header i -> ¬ Uses (header.slots i) header.shmid

def InUse (header : CoordHeader) (slot : Slot) (shmid : Int) : Prop :=
  shmid = header.shmid ∨
    exists j, j ≠ slot ∧ Live header j ∧ Uses (header.slots j) shmid

/-- A visit leaves every segment as it is that is in use elsewhere. -/
def Undisturbed (t : Transition ServerState TrafficLabel) : Prop :=
  forall slot shmid, t.label = .visit slot ->
    InUse t.source.header slot shmid ->
    t.target.kernel.segments.entries shmid = t.source.kernel.segments.entries shmid

def HasKey (keys : Int × Int) (key : Int) : Prop :=
  keys.1 = key ∨ keys.2 = key

instance (keys : Int × Int) (key : Int) : Decidable (HasKey keys key) :=
  inferInstanceAs (Decidable (_ ∨ _))

section Allocated

variable {keys : Int × Int} {shms : ShmPair} {segments mid : IpcTable Segment}
  {shmid : Int} {e : IpcEntry Segment}

theorem AllocatedByKeys.opened_key (h : AllocatedByKeys keys segments mid shms)
    (hopened : shmid = shms.requestShm.shmid ∨ shmid = shms.responseShm.shmid)
    (he : segments.entries shmid = some e) : HasKey keys e.key ∧ e.key ≠ 0 := by
  rcases hopened with hid | hid
  · rw [hid] at he
    rcases h.requestOld e he with ⟨hkey, hne⟩
    exact ⟨Or.inl hkey.symm, by rw [hkey]; exact hne⟩
  · rw [hid] at he
    rcases h.responseOld e he with ⟨hkey, hne⟩
    exact ⟨Or.inr hkey.symm, by rw [hkey]; exact hne⟩

theorem AllocatedByKeys.opened_new (h : AllocatedByKeys keys segments mid shms)
    (hopened : shmid = shms.requestShm.shmid ∨ shmid = shms.responseShm.shmid)
    (hnone : segments.entries shmid = none) : (segments.next : Int) ≤ shmid := by
  rcases hopened with hid | hid
  · rw [hid] at hnone ⊢
    exact h.requestNew hnone
  · rw [hid] at hnone ⊢
    exact h.responseNew hnone

theorem AllocatedByKeys.opened_entry (h : AllocatedByKeys keys segments mid shms)
    (hopened : shmid = shms.requestShm.shmid ∨ shmid = shms.responseShm.shmid)
    (he : mid.entries shmid = some e) : HasKey keys e.key := by
  rcases hopened with hid | hid
  · rcases h.request with ⟨e', he', hkey⟩
    rw [hid, he'] at he
    injection he with he
    rw [← he]
    exact Or.inl hkey.symm
  · rcases h.response with ⟨e', he', hkey⟩
    rw [hid, he'] at he
    injection he with he
    rw [← he]
    exact Or.inr hkey.symm

theorem AllocatedByKeys.stays_removed (h : AllocatedByKeys keys segments mid shms)
    (hlt : shmid < segments.next) (hnone : segments.entries shmid = none) :
    mid.entries shmid = none := by
  have hother : ¬ (shmid = shms.requestShm.shmid ∨ shmid = shms.responseShm.shmid) := by
    intro hopened
    have hnew := h.opened_new hopened hnone
    lia
  rw [not_or] at hother
  rw [h.other shmid hother.left hother.right]
  exact hnone

end Allocated

/-- The keys of a row are its own: nobody else uses them, nor does it use one of
them twice.  Zero makes a new segment each time. -/
structure OwnKeys (coordKey : Int) (header : CoordHeader) (slot : Slot) : Prop where
  pair : (header.slots slot).detach = false ->
    (rowKeys (header.slots slot)).1 = (rowKeys (header.slots slot)).2 ->
    (rowKeys (header.slots slot)).1 = 0
  coordinator : HasKey (rowKeys (header.slots slot)) coordKey -> coordKey = 0
  others : forall j key, Live header j -> HasKey (rowKeys (header.slots j)) key ->
    HasKey (rowKeys (header.slots slot)) key -> key = 0

/-- A visit that runs an allocator finds that the keys are the row's own. -/
def VisitsOwnKeys (coordKey : Int) (s : ServerState) : TrafficLabel -> Prop
  | .visit slot => NeedsService s.header slot -> OwnKeys coordKey s.header slot
  | _ => True

/-!
# What clients do to live rows
-/

section Rows

variable {header : CoordHeader}

theorem requestSlot_shmid (header : CoordHeader) (clientId messageSize : Int)
    (type : QueueType) :
    (requestSlot header clientId messageSize type).1.shmid = header.shmid := by
  rcases requestSlot_cases header clientId messageSize type with
    ⟨i, _, hresult⟩ | ⟨_, hresult⟩
  · rw [hresult]
    rfl
  · rw [hresult]

theorem requestSlot_row (header : CoordHeader) (clientId messageSize : Int)
    (type : QueueType) (i : Slot) :
    ((requestSlot header clientId messageSize type).1.slots i = header.slots i ∧
      (requestSlot header clientId messageSize type).1.clientReserved i =
        header.clientReserved i) ∨
    ((requestSlot header clientId messageSize type).1.slots i =
        requestRow (header.slots i) clientId messageSize type ∧
      (requestSlot header clientId messageSize type).1.clientReserved i = true) := by
  rcases requestSlot_cases header clientId messageSize type with
    ⟨j, _, hresult⟩ | ⟨_, hresult⟩
  · rw [hresult]
    by_cases hi : i = j
    · subst hi
      right
      exact ⟨CoordHeader.setRow_slots_self _ _ _,
        CoordHeader.setReserved_clientReserved_self _ _ _⟩
    · left
      exact ⟨CoordHeader.setRow_slots_of_ne _ _ _ hi,
        CoordHeader.setReserved_clientReserved_of_ne _ _ _ hi⟩
  · rw [hresult]
    exact Or.inl ⟨rfl, rfl⟩

theorem live_of_request {clientId messageSize : Int} {type : QueueType} {i : Slot}
    (hlive : Live (requestSlot header clientId messageSize type).1 i) :
    Live header i ∧
      (requestSlot header clientId messageSize type).1.slots i = header.slots i := by
  rcases requestSlot_row header clientId messageSize type i with
    ⟨hrow, hreserved⟩ | ⟨hrow, _⟩
  · unfold Live at hlive
    rw [hrow, hreserved] at hlive
    exact ⟨hlive, hrow⟩
  · have hcreated := hlive.right
    rw [hrow] at hcreated
    cases hcreated

theorem reserved_of_request {clientId messageSize : Int} {type : QueueType} {i : Slot}
    (hold : forall i, (header.slots i).shmCreated = true ->
      header.clientReserved i = true)
    (hcreated : ((requestSlot header clientId messageSize type).1.slots i).shmCreated =
      true) :
    (requestSlot header clientId messageSize type).1.clientReserved i = true := by
  rcases requestSlot_row header clientId messageSize type i with
    ⟨hrow, hreserved⟩ | ⟨_, hreserved⟩
  · rw [hrow] at hcreated
    rw [hreserved]
    exact hold i hcreated
  · exact hreserved

theorem clientClose_rows (header : CoordHeader) (clientId : Int) :
    (clientClose header clientId).1.shmid = header.shmid ∧
      (clientClose header clientId).1.clientReserved = header.clientReserved ∧
      forall i, exists detach, (clientClose header clientId).1.slots i =
        { header.slots i with detach := detach } := by
  rcases clientClose_cases header clientId with ⟨j, _, hresult⟩ | ⟨_, hresult⟩
  · rw [hresult]
    refine ⟨rfl, rfl, ?_⟩
    intro i
    by_cases hi : i = j
    · subst hi
      exact ⟨true, CoordHeader.setRow_slots_self _ _ _⟩
    · exact ⟨(header.slots i).detach, CoordHeader.setRow_slots_of_ne _ _ _ hi⟩
  · rw [hresult]
    exact ⟨rfl, rfl, fun i => ⟨(header.slots i).detach, rfl⟩⟩

end Rows

/-!
# The invariant
-/

structure Recorded (segments : IpcTable Segment) (row : CoordRow) : Prop where
  request : exists e, segments.entries row.shms.requestShm.shmid = some e ∧
    e.key = (rowKeys row).1
  response : exists e, segments.entries row.shms.responseShm.shmid = some e ∧
    e.key = (rowKeys row).2

structure IsolationInvariant (coordKey : Int) (header : CoordHeader)
    (segments : IpcTable Segment) : Prop where
  reserved : forall i, (header.slots i).shmCreated = true ->
    header.clientReserved i = true
  recorded : forall i, Live header i -> Recorded segments (header.slots i)
  coordinator : exists e, segments.entries header.shmid = some e ∧ e.key = coordKey
  isolated : Isolated header segments

theorem Recorded.entry {segments : IpcTable Segment} {row : CoordRow}
    (h : Recorded segments row) {shmid : Int} (huses : Uses row shmid) :
    exists e, segments.entries shmid = some e ∧ HasKey (rowKeys row) e.key := by
  rcases huses with hid | hid
  · rcases h.request with ⟨e, he, hkey⟩
    rw [hid] at he
    exact ⟨e, he, Or.inl hkey.symm⟩
  · rcases h.response with ⟨e, he, hkey⟩
    rw [hid] at he
    exact ⟨e, he, Or.inr hkey.symm⟩

theorem Recorded.mono {segments segments' : IpcTable Segment} {row : CoordRow}
    (h : Recorded segments row)
    (hkept : forall shmid e, Uses row shmid -> segments.entries shmid = some e ->
      exists e', segments'.entries shmid = some e' ∧ e'.key = e.key) :
    Recorded segments' row := by
  constructor
  · rcases h.request with ⟨e, he, hkey⟩
    rcases hkept _ e (Or.inl rfl) he with ⟨e', he', hsame⟩
    exact ⟨e', he', hsame.trans hkey⟩
  · rcases h.response with ⟨e, he, hkey⟩
    rcases hkept _ e (Or.inr rfl) he with ⟨e', he', hsame⟩
    exact ⟨e', he', hsame.trans hkey⟩

section Invariant

variable {coordKey : Int} {header header' : CoordHeader}
  {segments segments' : IpcTable Segment}

theorem isolationInvariant_start (shmid : Int)
    (h : exists e, segments.entries shmid = some e ∧ e.key = coordKey) :
    IsolationInvariant coordKey { CoordHeader.zero with shmid := shmid } segments := by
  constructor
  · intro i hcreated
    cases hcreated
  · intro i hlive
    cases hlive.left
  · exact h
  · constructor
    · intro i shmid' hlive
      cases hlive.left
    · intro i hlive
      cases hlive.left
    · intro i j shmid' hlive
      cases hlive.left
    · intro i hlive
      cases hlive.left

/-- The live rows of the new table are live in the old one, with the same keys
and the same pair. -/
theorem isolationInvariant_of_rows (hinv : IsolationInvariant coordKey header segments)
    (hshmid : header'.shmid = header.shmid)
    (hreserved : forall i, (header'.slots i).shmCreated = true ->
      header'.clientReserved i = true)
    (hrow : forall i, Live header' i -> Live header i ∧
      rowKeys (header'.slots i) = rowKeys (header.slots i) ∧
      (header'.slots i).shms = (header.slots i).shms)
    (hkept : forall shmid e, segments.entries shmid = some e ->
      (shmid = header.shmid ∨ exists i, Live header' i ∧ Uses (header.slots i) shmid) ->
      exists e', segments'.entries shmid = some e' ∧ e'.key = e.key) :
    IsolationInvariant coordKey header' segments' := by
  have huses : forall i shmid, Live header' i -> Uses (header'.slots i) shmid ->
      Uses (header.slots i) shmid := by
    intro i shmid hlive h
    unfold Uses at h ⊢
    rw [(hrow i hlive).right.right] at h
    exact h
  have hrecorded : forall i, Live header' i -> Recorded segments' (header'.slots i) := by
    intro i hlive
    rcases hrow i hlive with ⟨hold, hkeys, hshms⟩
    have hrec := (hinv.recorded i hold).mono fun shmid e hu he =>
      hkept shmid e he (Or.inr ⟨i, hlive, hu⟩)
    constructor
    · rw [hkeys, hshms]
      exact hrec.request
    · rw [hkeys, hshms]
      exact hrec.response
  constructor
  · exact hreserved
  · exact hrecorded
  · rcases hinv.coordinator with ⟨e, he, hkey⟩
    rcases hkept _ e he (Or.inl rfl) with ⟨e', he', hsame⟩
    rw [hshmid]
    exact ⟨e', he', hsame.trans hkey⟩
  · constructor
    · intro i shmid hlive hu
      rcases (hrecorded i hlive).entry hu with ⟨e, he, _⟩
      rw [he]
      exact Option.some_ne_none e
    · intro i hlive
      rcases hrow i hlive with ⟨hold, _, hshms⟩
      rw [hshms]
      exact hinv.isolated.pair i hold
    · intro i j shmid hlive hlive' hu hu'
      exact hinv.isolated.disjoint i j shmid (hrow i hlive).left (hrow j hlive').left
        (huses i shmid hlive hu) (huses j shmid hlive' hu')
    · intro i hlive hu
      rw [hshmid] at hu
      exact hinv.isolated.coordinator i (hrow i hlive).left (huses i _ hlive hu)

end Invariant

/-!
# A visit
-/

section Visit

variable {coordKey : Int} {header : CoordHeader} {slot : Slot} {shms : ShmPair}
  {segments mid segments' : IpcTable Segment}

theorem entry_of_inUse (hinv : IsolationInvariant coordKey header segments)
    {shmid : Int} (huse : InUse header slot shmid) :
    exists e, segments.entries shmid = some e ∧
      (e.key = coordKey ∨
        exists j, Live header j ∧ HasKey (rowKeys (header.slots j)) e.key) := by
  rcases huse with hid | ⟨j, _, hlive, hu⟩
  · rcases hinv.coordinator with ⟨e, he, hkey⟩
    rw [hid]
    exact ⟨e, he, Or.inl hkey⟩
  · rcases (hinv.recorded j hlive).entry hu with ⟨e, he, hkey⟩
    exact ⟨e, he, Or.inr ⟨j, hlive, hkey⟩⟩

theorem not_opened (hinv : IsolationInvariant coordKey header segments)
    (hown : OwnKeys coordKey header slot)
    (halloc : AllocatedByKeys (rowKeys (header.slots slot)) segments mid shms)
    {shmid : Int} (huse : InUse header slot shmid) :
    shmid ≠ shms.requestShm.shmid ∧ shmid ≠ shms.responseShm.shmid := by
  rcases entry_of_inUse hinv huse with ⟨e, he, hkeys⟩
  have hclash : HasKey (rowKeys (header.slots slot)) e.key -> e.key = 0 := by
    intro hkey
    rcases hkeys with hcoord | ⟨j, hlive, hother⟩
    · rw [hcoord] at hkey ⊢
      exact hown.coordinator hkey
    · exact hown.others j e.key hlive hother hkey
  rw [← not_or]
  intro hopened
  rcases halloc.opened_key hopened he with ⟨hkey, hne⟩
  exact hne (hclash hkey)

theorem opened_of_hasKey {keys : Int × Int}
    (halloc : AllocatedByKeys keys segments mid shms)
    {shmid : Int} {e : IpcEntry Segment} (he : segments.entries shmid = some e)
    (hne : e.key ≠ 0) (hkey : HasKey keys e.key) :
    shms.requestShm.shmid = shmid ∨ shms.responseShm.shmid = shmid := by
  rcases halloc.kept shmid e he with ⟨e', he', hsame⟩
  rcases hkey with hkey | hkey
  · rcases halloc.request with ⟨e1, he1, hkey1⟩
    left
    apply mid.unique _ _ e1 e' he1 he'
    · rw [hkey1, hsame, hkey]
    · rw [hkey1, hkey]
      exact hne
  · rcases halloc.response with ⟨e1, he1, hkey1⟩
    right
    apply mid.unique _ _ e1 e' he1 he'
    · rw [hkey1, hsame, hkey]
    · rw [hkey1, hkey]
      exact hne

theorem visit_undisturbed (hinv : IsolationInvariant coordKey header segments)
    (hown : NeedsService header slot -> OwnKeys coordKey header slot)
    (hvisit : VisitedSegments header slot shms segments mid segments')
    {shmid : Int} (huse : InUse header slot shmid) :
    segments'.entries shmid = segments.entries shmid := by
  by_cases hneeds : NeedsService header slot
  · have halloc := hvisit.allocated hneeds
    rcases not_opened hinv (hown hneeds) halloc huse with ⟨hrequest, hresponse⟩
    have hmid := halloc.other shmid hrequest hresponse
    have hcleared := hvisit.cleared
    rw [serviced_of_needs shms hneeds] at hcleared
    by_cases hclear : (header.slots slot).detach = true
    · have hremoved := hcleared.removed (by simpa using hclear) (by simp)
      rw [hremoved, CoordHeader.setRow_slots_self, Function.update_of_ne hresponse,
        Function.update_of_ne hrequest]
      exact hmid
    · rw [hcleared.kept (by simp [hclear])]
      exact hmid
  · have hmid := hvisit.skipped hneeds
    have hcleared := hvisit.cleared
    rw [serviced_of_not_needs shms hneeds, hmid] at hcleared
    by_cases hclear : (header.slots slot).detach = true ∧
        (header.slots slot).shmCreated = true
    · have hlive : Live header slot :=
        ⟨hinv.reserved slot hclear.right, hclear.right⟩
      have hunused : ¬ Uses (header.slots slot) shmid := by
        intro hu
        rcases huse with hid | ⟨j, hj, hlive', hu'⟩
        · rw [hid] at hu
          exact hinv.isolated.coordinator slot hlive hu
        · exact hj (hinv.isolated.disjoint j slot shmid hlive' hlive hu' hu)
      have hrequest : shmid ≠ (header.slots slot).shms.requestShm.shmid :=
        fun heq => hunused (Or.inl heq.symm)
      have hresponse : shmid ≠ (header.slots slot).shms.responseShm.shmid :=
        fun heq => hunused (Or.inr heq.symm)
      rw [hcleared.removed hclear.left hclear.right, Function.update_of_ne hresponse,
        Function.update_of_ne hrequest]
    · rw [hcleared.kept hclear]

structure ServicedWith (header header' : CoordHeader) (slot : Slot)
    (shms : ShmPair) : Prop where
  self : header'.slots slot =
    { header.slots slot with shms := shms, shmCreated := true }
  other : forall i, i ≠ slot -> header'.slots i = header.slots i
  reserved : header'.clientReserved = header.clientReserved
  shmid : header'.shmid = header.shmid

theorem servicedWith_setRow (header : CoordHeader) (slot : Slot) (shms : ShmPair) :
    ServicedWith header (header.setRow slot
      { header.slots slot with shms := shms, shmCreated := true }) slot shms where
  self := CoordHeader.setRow_slots_self _ _ _
  other := fun _ hne => CoordHeader.setRow_slots_of_ne _ _ _ hne
  reserved := rfl
  shmid := rfl

theorem ServicedWith.live {header' : CoordHeader}
    (h : ServicedWith header header' slot shms) (i : Slot) (hne : i ≠ slot)
    (hlive : Live header' i) : Live header i := by
  unfold Live at hlive ⊢
  rw [h.reserved, h.other i hne] at hlive
  exact hlive

theorem isolationInvariant_serviced (hinv : IsolationInvariant coordKey header segments)
    (hneeds : NeedsService header slot) (hown : OwnKeys coordKey header slot)
    (hdetach : (header.slots slot).detach = false)
    (halloc : AllocatedByKeys (rowKeys (header.slots slot)) segments mid shms)
    (hentries : segments'.entries = mid.entries) :
    IsolationInvariant coordKey (header.setRow slot
      { header.slots slot with shms := shms, shmCreated := true }) segments' := by
  have hserviced := servicedWith_setRow header slot shms
  generalize header.setRow slot
    { header.slots slot with shms := shms, shmCreated := true } = header'
    at hserviced ⊢
  have hlive := hserviced.live
  rcases hserviced with ⟨hself, hother, hreserved, hshmid⟩
  have hsame : forall shmid, InUse header slot shmid ->
      segments'.entries shmid = segments.entries shmid := by
    intro shmid huse
    rcases not_opened hinv hown halloc huse with ⟨hrequest, hresponse⟩
    rw [hentries]
    exact halloc.other shmid hrequest hresponse
  have hrecorded : forall i, Live header' i -> Recorded segments' (header'.slots i) := by
    intro i h
    by_cases hi : i = slot
    · subst hi
      rw [hself]
      constructor
      · rw [hentries]
        exact halloc.request
      · rw [hentries]
        exact halloc.response
    · rw [hother i hi]
      apply (hinv.recorded i (hlive i hi h)).mono
      intro shmid e hu he
      exact ⟨e, (hsame shmid (Or.inr ⟨i, hi, hlive i hi h, hu⟩)).trans he, rfl⟩
  have hapart : forall i shmid, i ≠ slot -> Live header' i ->
      Uses (header'.slots i) shmid -> ¬ Uses (header'.slots slot) shmid := by
    intro i shmid hi h hu hu'
    rw [hother i hi] at hu
    rw [hself] at hu'
    rcases not_opened hinv hown halloc (Or.inr ⟨i, hi, hlive i hi h, hu⟩) with
      ⟨hrequest, hresponse⟩
    rcases hu' with heq | heq
    · exact hrequest heq.symm
    · exact hresponse heq.symm
  constructor
  · intro i hcreated
    rw [hreserved]
    by_cases hi : i = slot
    · rw [hi]
      exact hneeds.left
    · rw [hother i hi] at hcreated
      exact hinv.reserved i hcreated
  · exact hrecorded
  · rcases hinv.coordinator with ⟨e, he, hkey⟩
    rw [hshmid]
    exact ⟨e, (hsame header.shmid (Or.inl rfl)).trans he, hkey⟩
  · constructor
    · intro i shmid h hu
      rcases (hrecorded i h).entry hu with ⟨e, he, _⟩
      rw [he]
      exact Option.some_ne_none e
    · intro i h
      by_cases hi : i = slot
      · subst hi
        rw [hself]
        intro heq
        rcases halloc.distinct heq with ⟨hkeys, hne⟩
        exact hne (hown.pair hdetach hkeys)
      · rw [hother i hi]
        exact hinv.isolated.pair i (hlive i hi h)
    · intro i j shmid h h' hu hu'
      by_cases hi : i = slot
      · by_cases hj : j = slot
        · rw [hi, hj]
        · rw [hi] at hu
          exact absurd hu (hapart j shmid hj h' hu')
      · by_cases hj : j = slot
        · rw [hj] at hu'
          exact absurd hu' (hapart i shmid hi h hu)
        · rw [hother i hi] at hu
          rw [hother j hj] at hu'
          exact hinv.isolated.disjoint i j shmid (hlive i hi h) (hlive j hj h') hu hu'
    · intro i h hu
      rw [hshmid] at hu
      by_cases hi : i = slot
      · subst hi
        rw [hself] at hu
        rcases not_opened hinv hown halloc (Or.inl rfl) with ⟨hrequest, hresponse⟩
        rcases hu with heq | heq
        · exact hrequest heq.symm
        · exact hresponse heq.symm
      · rw [hother i hi] at hu
        exact hinv.isolated.coordinator i (hlive i hi h) hu

theorem isolationInvariant_visit (hinv : IsolationInvariant coordKey header segments)
    (hown : NeedsService header slot -> OwnKeys coordKey header slot)
    (hvisit : VisitedSegments header slot shms segments mid segments') :
    IsolationInvariant coordKey (visitWith shms header slot) segments' := by
  have hundisturbed : forall shmid, InUse header slot shmid ->
      segments'.entries shmid = segments.entries shmid :=
    fun shmid huse => visit_undisturbed hinv hown hvisit huse
  cases hdetach : (header.slots slot).detach with
  | true =>
      rcases visitWith_detach shms header hdetach with ⟨hzero, hfree⟩
      have hslot : forall i, Live (visitWith shms header slot) i -> i ≠ slot := by
        intro i hlive heq
        rw [heq] at hlive
        have hreserved := hlive.left
        rw [hfree] at hreserved
        cases hreserved
      have hrow : forall i, i ≠ slot ->
          (visitWith shms header slot).slots i = header.slots i ∧
            (visitWith shms header slot).clientReserved i = header.clientReserved i :=
        fun i hne => visitWith_other shms header hne
      apply isolationInvariant_of_rows hinv
      · exact visitWith_shmid shms header slot
      · intro i hcreated
        by_cases hi : i = slot
        · rw [hi, hzero] at hcreated
          cases hcreated
        · rw [(hrow i hi).right]
          rw [(hrow i hi).left] at hcreated
          exact hinv.reserved i hcreated
      · intro i hlive
        rcases hrow i (hslot i hlive) with ⟨hsame, hreserved⟩
        unfold Live at hlive
        rw [hsame, hreserved] at hlive
        rw [hsame]
        exact ⟨hlive, rfl, rfl⟩
      · intro shmid e he huse
        refine ⟨e, ?_, rfl⟩
        rw [← he]
        apply hundisturbed
        rcases huse with hid | ⟨i, hlive, hu⟩
        · exact Or.inl hid
        · have hi := hslot i hlive
          rcases hrow i hi with ⟨hsame, hreserved⟩
          unfold Live at hlive
          rw [hsame, hreserved] at hlive
          exact Or.inr ⟨i, hi, hlive, hu⟩
  | false =>
      have hcleared := hvisit.cleared
      rw [visitWith_keep shms header hdetach]
      by_cases hneeds : NeedsService header slot
      · have halloc := hvisit.allocated hneeds
        rw [serviced_of_needs shms hneeds] at hcleared ⊢
        have hentries := hcleared.kept (by simp [hdetach])
        exact isolationInvariant_serviced hinv hneeds (hown hneeds) hdetach halloc
          hentries
      · have hmid := hvisit.skipped hneeds
        rw [serviced_of_not_needs shms hneeds, hmid] at hcleared
        rw [serviced_of_not_needs shms hneeds]
        have hentries := hcleared.kept (by simp [hdetach])
        apply isolationInvariant_of_rows hinv rfl hinv.reserved
        · intro i hlive
          exact ⟨hlive, rfl, rfl⟩
        · intro shmid e he _
          exact ⟨e, by rw [hentries]; exact he, rfl⟩

/-- A visit with keys that are not the row's own breaks the isolation. -/
theorem ownKeys_of_isolated (hinv : IsolationInvariant coordKey header segments)
    (hneeds : NeedsService header slot)
    (hvisit : VisitedSegments header slot shms segments mid segments')
    (hisolated : Isolated (visitWith shms header slot) segments')
    (hundisturbed : forall shmid, InUse header slot shmid ->
      segments'.entries shmid = segments.entries shmid) :
    OwnKeys coordKey header slot := by
  have halloc := hvisit.allocated hneeds
  have hcleared := hvisit.cleared
  rw [serviced_of_needs shms hneeds] at hcleared
  have hlive : (header.slots slot).detach = false ->
      Live (visitWith shms header slot) slot ∧
        (visitWith shms header slot).slots slot =
          { header.slots slot with shms := shms, shmCreated := true } := by
    intro hdetach
    rw [visitWith_keep shms header hdetach, serviced_of_needs shms hneeds]
    refine ⟨⟨hneeds.left, ?_⟩, CoordHeader.setRow_slots_self _ _ _⟩
    rw [CoordHeader.setRow_slots_self]
  have hnotUsed : forall shmid e, InUse header slot shmid ->
      segments.entries shmid = some e -> e.key ≠ 0 ->
      ¬ HasKey (rowKeys (header.slots slot)) e.key := by
    intro shmid e huse he hne hkey
    have hopened := opened_of_hasKey halloc he hne hkey
    cases hdetach : (header.slots slot).detach with
    | false =>
        rcases hlive hdetach with ⟨hslot, hrow⟩
        have hu : Uses ((visitWith shms header slot).slots slot) shmid := by
          rw [hrow]
          exact hopened
        rcases huse with hid | ⟨j, hj, hlive', hu'⟩
        · apply hisolated.coordinator slot hslot
          rw [visitWith_shmid, ← hid]
          exact hu
        · have hother := visitWith_other shms header hj
          apply hj
          apply hisolated.disjoint j slot shmid _ hslot _ hu
          · unfold Live
            rw [hother.left, hother.right]
            exact hlive'
          · rw [hother.left]
            exact hu'
    | true =>
        have hremoved := hcleared.removed (by simpa using hdetach) (by simp)
        rw [CoordHeader.setRow_slots_self] at hremoved
        have hgone : segments'.entries shmid = none := by
          rw [hremoved]
          by_cases hresponse : shmid = shms.responseShm.shmid
          · rw [hresponse, Function.update_self]
          · rw [Function.update_of_ne hresponse]
            rcases hopened with hid | hid
            · rw [← hid, Function.update_self]
            · exact absurd hid.symm hresponse
        rw [hundisturbed shmid huse, he] at hgone
        cases hgone
  constructor
  · intro hdetach hkeys
    by_contra hne
    rcases hlive hdetach with ⟨hslot, hrow⟩
    apply hisolated.pair slot hslot
    rw [hrow]
    rcases halloc.request with ⟨e1, he1, hkey1⟩
    rcases halloc.response with ⟨e2, he2, hkey2⟩
    apply mid.unique _ _ e1 e2 he1 he2
    · rw [hkey1, hkey2, hkeys]
    · rw [hkey1]
      exact hne
  · intro hkey
    rcases hinv.coordinator with ⟨e, he, hcoord⟩
    by_contra hne
    rw [← hcoord] at hkey hne
    exact hnotUsed header.shmid e (Or.inl rfl) he hne hkey
  · intro j key hlive' hother hkey
    by_contra hne
    have hj : j ≠ slot := by
      intro heq
      have hcreated := hlive'.right
      rw [heq, hneeds.right] at hcreated
      cases hcreated
    have hrecorded := hinv.recorded j hlive'
    rcases hother with hother | hother
    · rcases hrecorded.request with ⟨e, he, hsame⟩
      rw [hother] at hsame
      rw [← hsame] at hkey hne
      exact hnotUsed _ e (Or.inr ⟨j, hj, hlive', Or.inl rfl⟩) he hne hkey
    · rcases hrecorded.response with ⟨e, he, hsame⟩
      rw [hother] at hsame
      rw [← hsame] at hkey hne
      exact hnotUsed _ e (Or.inr ⟨j, hj, hlive', Or.inr rfl⟩) he hne hkey

end Visit

/-!
# All steps
-/

section Steps

variable {boost : Int -> Int -> OsM ShmPair} {coordKey : Int}

theorem trafficNext_visit (hboost : BoostByKeys boost) {s s' : ServerState}
    {slot : Slot} (h : trafficNext boost s (.visit slot) = some s') :
    exists shms mid, s'.header = visitWith shms s.header slot ∧
      VisitedSegments s.header slot shms s.kernel.segments mid s'.kernel.segments :=
  managePoolVisit_returns (fun _ _ => hboost) (returns_of_after h)

theorem isolationInvariant_request {header : CoordHeader}
    {segments : IpcTable Segment} (hinv : IsolationInvariant coordKey header segments)
    (clientId messageSize : Int) (type : QueueType) :
    IsolationInvariant coordKey (requestSlot header clientId messageSize type).1
      segments := by
  refine isolationInvariant_of_rows hinv ?_ ?_ ?_ ?_
  · exact requestSlot_shmid header clientId messageSize type
  · exact fun i hcreated => reserved_of_request hinv.reserved hcreated
  · intro i hlive
    rcases live_of_request hlive with ⟨hold, hrow⟩
    rw [hrow]
    exact ⟨hold, rfl, rfl⟩
  · intro shmid e he _
    exact ⟨e, he, rfl⟩

theorem isolationInvariant_close {header : CoordHeader}
    {segments : IpcTable Segment} (hinv : IsolationInvariant coordKey header segments)
    (clientId : Int) :
    IsolationInvariant coordKey (clientClose header clientId).1 segments := by
  rcases clientClose_rows header clientId with ⟨hshmid, hreserved, hrow⟩
  refine isolationInvariant_of_rows hinv hshmid ?_ ?_ ?_
  · intro i hcreated
    rcases hrow i with ⟨detach, hsame⟩
    rw [hreserved]
    rw [hsame] at hcreated
    exact hinv.reserved i hcreated
  · intro i hlive
    rcases hrow i with ⟨detach, hsame⟩
    unfold Live at hlive
    rw [hreserved, hsame] at hlive
    rw [hsame]
    exact ⟨hlive, rfl, rfl⟩
  · intro shmid e he _
    exact ⟨e, he, rfl⟩

theorem trafficNext_isolation (hboost : BoostByKeys boost) {s s' : ServerState}
    {l : TrafficLabel}
    (hinv : IsolationInvariant coordKey s.header s.kernel.segments)
    (h : trafficNext boost s l = some s') (hguard : VisitsOwnKeys coordKey s l) :
    IsolationInvariant coordKey s'.header s'.kernel.segments ∧
      Undisturbed ⟨s, l, s'⟩ := by
  cases l with
  | request clientId messageSize type =>
      injection h with h
      rw [← h]
      exact ⟨isolationInvariant_request hinv clientId messageSize type, nofun⟩
  | close clientId =>
      injection h with h
      rw [← h]
      exact ⟨isolationInvariant_close hinv clientId, nofun⟩
  | visit slot =>
      rcases trafficNext_visit hboost h with ⟨shms, mid, hheader, hvisit⟩
      rw [hheader]
      refine ⟨isolationInvariant_visit hinv hguard hvisit, ?_⟩
      intro visited shmid hlabel huse
      injection hlabel with hlabel
      subst hlabel
      exact visit_undisturbed hinv hguard hvisit huse
  | write shmid queue =>
      injection h with h
      rw [← h]
      refine ⟨?_, nofun⟩
      have htouched := IpcTable.touched_modify s.kernel.segments shmid
        (fun segment : Segment => { segment with queue := queue })
      refine isolationInvariant_of_rows hinv rfl hinv.reserved ?_ ?_
      · intro i hlive
        exact ⟨hlive, rfl, rfl⟩
      · intro id e he _
        exact htouched.entry he
  | operate semid value =>
      injection h with h
      rw [← h]
      exact ⟨hinv, nofun⟩

/--
In every run whose visits derive only keys of the row's own, the segments of all
live slots are different, and no visit changes one that is in use elsewhere.  The
condition is exact.
-/
theorem live_segments_isolated (hboost : BoostByKeys boost) {start s : ServerState}
    {trace : List (Transition ServerState TrafficLabel)}
    (hstart : (trafficSystem boost coordKey).Initial start)
    (hrun : (trafficSystem boost coordKey).Run start trace s) :
    TransitionSystem.Guarded (VisitsOwnKeys coordKey) trace <->
      forall t, t ∈ trace ->
        Isolated t.target.header t.target.kernel.segments ∧ Undisturbed t := by
  have hassumed : TransitionSystem.Guarded (fun _ _ => True) trace :=
    fun _ _ => trivial
  have hinit : IsolationInvariant coordKey start.header start.kernel.segments := by
    rcases hstart with ⟨hheader, hcoord⟩
    rw [hheader]
    exact isolationInvariant_start start.header.shmid hcoord
  have hkeep : forall s l s', IsolationInvariant coordKey s.header s.kernel.segments ->
      (trafficSystem boost coordKey).next s l = some s' -> True ->
      VisitsOwnKeys coordKey s l ->
      IsolationInvariant coordKey s'.header s'.kernel.segments ∧
        (Isolated s'.header s'.kernel.segments ∧ Undisturbed ⟨s, l, s'⟩) := by
    intro s l s' hs hnext _ hguard
    rcases trafficNext_isolation hboost hs hnext hguard with ⟨hs', hundisturbed⟩
    exact ⟨hs', hs'.isolated, hundisturbed⟩
  refine TransitionSystem.run_guarded_iff_safe hkeep ?_ hrun hassumed hinit
  intro s l s' hs hnext _ hmiss hsafe
  apply hmiss
  cases l with
  | visit slot =>
      intro hneeds
      rcases trafficNext_visit hboost hnext with ⟨shms, mid, hheader, hvisit⟩
      rcases hsafe with ⟨hisolated, hundisturbed⟩
      rw [hheader] at hisolated
      apply ownKeys_of_isolated hs hneeds hvisit hisolated
      intro shmid huse
      exact hundisturbed slot shmid rfl huse
  | _ => trivial

end Steps

/-!
# A run with two clients
-/

/-- An allocator that finds or makes the segments of its keys, and constructs
its queues in them. -/
def boostOpenOrCreate (_messageSize clientId : Int) : OsM ShmPair :=
  keyedAllocator clientId (toInt32 (clientId + 1)) fun address _ => do
    writeSegment address id
    pure 0

theorem boostOpenOrCreate_byKeys : BoostByKeys boostOpenOrCreate := by
  intro messageSize clientId k shms k' h
  apply keyedAllocator_keys _ h
  intro address key k ret k' hcreate
  rcases returns_bind.mp hcreate with ⟨u, k1, hwrite, hpure⟩
  rcases returns_writeSegment hwrite with ⟨shmid, haddress, _, hk⟩
  rw [(returns_pure.mp hpure).right, hk]
  exact ⟨shmid, haddress, IpcTable.touched_modify _ _ _⟩

/-- A server whose coordinator has the key 77. -/
def freshServer : ServerState where
  header := { CoordHeader.zero with shmid := 0 }
  kernel :=
    { segments := IpcTable.empty.insert 77 (Segment.zero 4096) rfl
      semaphores := IpcTable.empty
      faults := [] }

theorem freshServer_initial (boost : Int -> Int -> OsM ShmPair) :
    (trafficSystem boost 77).Initial freshServer :=
  ⟨rfl, _, rfl, rfl⟩

theorem exists_run_of_check {boost : Int -> Int -> OsM ShmPair} {coordKey : Int}
    {start : ServerState} {labels : List TrafficLabel} {α : Type} {a : α}
    {check : ServerState -> α}
    (h : ((trafficSystem boost coordKey).execute start labels).map check = some a) :
    exists s trace, (trafficSystem boost coordKey).Run start trace s ∧ check s = a := by
  rcases Option.map_eq_some_iff.mp h with ⟨s, hexec, hcheck⟩
  rcases TransitionSystem.execute_run TransitionSystem.Run.nil hexec with
    ⟨trace, hrun, _⟩
  exact ⟨s, trace, hrun, hcheck⟩

theorem live_segments_isolated_apart :
    exists s trace,
      (trafficSystem boostOpenOrCreate 77).Run freshServer trace s ∧
      (Live s.header ⟨0, by decide⟩ ∧ Live s.header ⟨1, by decide⟩) ∧
      (TransitionSystem.Guarded (VisitsOwnKeys 77) trace <->
        forall t, t ∈ trace ->
          Isolated t.target.header t.target.kernel.segments ∧ Undisturbed t) := by
  have hlive : (((trafficSystem boostOpenOrCreate 77).execute freshServer
      [.request 5 64 .poll, .request 400 64 .sem, .visit ⟨0, by decide⟩,
        .visit ⟨1, by decide⟩]).map fun s =>
          decide (Live s.header ⟨0, by decide⟩ ∧ Live s.header ⟨1, by decide⟩)) =
      some true := by
    decide +kernel
  rcases exists_run_of_check hlive with ⟨s, trace, hrun, hs⟩
  exact ⟨s, trace, hrun, of_decide_eq_true hs,
    live_segments_isolated boostOpenOrCreate_byKeys
      (freshServer_initial boostOpenOrCreate) hrun⟩

/-- The reserved slots have different client ids, none of which is the
coordinator's key. -/
def DistinctIds (coordKey : Int) (header : CoordHeader) : Prop :=
  forall i, header.clientReserved i = true ->
    (header.slots i).clientId ≠ coordKey ∧
      forall j, header.clientReserved j = true ->
        (header.slots i).clientId = (header.slots j).clientId -> i = j

instance (coordKey : Int) (header : CoordHeader) :
    Decidable (DistinctIds coordKey header) :=
  inferInstanceAs (Decidable (forall _, _))

/-- The POLL clients with the ids 5 and 6 share the segment of the key 6. -/
theorem live_segments_collide :
    ¬ forall (boost : Int -> Int -> OsM ShmPair) (coordKey : Int)
      (start s : ServerState) (trace : List (Transition ServerState TrafficLabel)),
      BoostByKeys boost -> (trafficSystem boost coordKey).Initial start ->
      (trafficSystem boost coordKey).Run start trace s ->
      TransitionSystem.Guarded (fun s _ => DistinctIds coordKey s.header) trace ->
      forall t, t ∈ trace ->
        Isolated t.target.header t.target.kernel.segments ∧ Undisturbed t := by
  intro hclaim
  let first : Slot := ⟨0, by decide⟩
  let second : Slot := ⟨1, by decide⟩
  have hshared : (((trafficSystem boostOpenOrCreate 77).executeChecked
      (fun s _ => decide (DistinctIds 77 s.header)) freshServer
      [.request 5 64 .poll, .visit first, .request 6 64 .poll, .visit second]).map
        fun s => (decide (Live s.header first ∧ Live s.header second),
          (s.header.slots first).shms.responseShm.shmid,
          (s.header.slots second).shms.requestShm.shmid)) = some (true, 2, 2) := by
    decide +kernel
  rcases Option.map_eq_some_iff.mp hshared with ⟨s, hexec, hs⟩
  injection hs with hlive hs
  injection hs with hresponse hrequest
  have hcheck : forall (s : ServerState) (_ : TrafficLabel),
      decide (DistinctIds 77 s.header) = true -> DistinctIds 77 s.header :=
    fun s _ h => of_decide_eq_true h
  rcases TransitionSystem.executeChecked_run hcheck TransitionSystem.Run.nil
    (TransitionSystem.guarded_nil _) hexec with ⟨trace, hrun, hdistinct⟩
  rw [List.nil_append] at hrun hdistinct
  rcases of_decide_eq_true hlive with ⟨hfirst, hsecond⟩
  rcases hrun.target with hstart | ⟨t, ht, htarget⟩
  · rw [hstart] at hfirst
    cases hfirst.left
  · have hsafe := hclaim boostOpenOrCreate 77 freshServer s trace
      boostOpenOrCreate_byKeys (freshServer_initial boostOpenOrCreate) hrun hdistinct
      t ht
    rw [htarget] at hsafe
    have hsame := hsafe.left.disjoint first second 2 hfirst hsecond
      (Or.inr hresponse) (Or.inl hrequest)
    exact absurd hsame (by decide)

end Rpc
end Notnets
