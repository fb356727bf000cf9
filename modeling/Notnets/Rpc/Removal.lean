import Notnets.Rpc.Isolation

/-!
# Removal of segments in use

A client that closes and opens again has two rows for a while, and both derive
the same keys.  Whether clearing the old row takes the segments away from the new
one depends on the order in which a pass of `manage_pool` comes to the two rows.
-/

namespace Notnets
namespace Rpc

open Coord
open Foundation
open Os

inductive PassLabel where
  /-- A request for a POLL queue. -/
  | request (clientId messageSize : Int)
  | close (clientId : Int)
  /-- A whole call of `manage_pool`. -/
  | pass

def passNext (boost : Int -> Int -> OsM ShmPair) (s : ServerState) :
    PassLabel -> Option ServerState
  | .request clientId messageSize =>
      some { s with header := (requestSlot s.header clientId messageSize .poll).1 }
  | .close clientId => some { s with header := (clientClose s.header clientId).1 }
  | .pass => s.after (managePool (poolOps boost) s.header)

/-- POLL clients and whole passes of the manager, from a zeroed coordinator. -/
def passSystem (boost : Int -> Int -> OsM ShmPair) :
    TransitionSystem ServerState PassLabel where
  Initial s := s.header = { CoordHeader.zero with shmid := s.header.shmid }
  next := passNext boost

def Attached (segments : IpcTable Segment) (row : CoordRow) : Prop :=
  forall shmid, Uses row shmid -> segments.entries shmid ≠ none

/-- Live rows that are not marked refer to segments that are not removed. -/
def LiveAttached (s : ServerState) : Prop :=
  forall i, Live s.header i -> (s.header.slots i).detach = false ->
    Attached s.kernel.segments (s.header.slots i)

/-- Different client ids derive no common key. -/
def PrivateIds (clients : Int -> Prop) : Prop :=
  forall a b key, clients a -> clients b -> key ≠ 0 ->
    HasKey (derivedKeys .hash a) key -> HasKey (derivedKeys .hash b) key -> a = b

def RequestsOf (clients : Int -> Prop) : PassLabel -> Prop
  | .request clientId _ => clients clientId
  | _ => True

def Pending (header : CoordHeader) (slot : Slot) : Prop :=
  header.clientReserved slot = true ∧ (header.slots slot).detach = true

/-- Each row of a client that shares its client id with a pending row is yet to
be serviced, and the pass frees it from the segments of the pending row: it comes
to the pending row first, or first to some other pending row of the client, which
has the same segments. -/
def KeepsRows (header : CoordHeader) : Prop :=
  forall i j, header.clientReserved i = true -> (header.slots i).detach = false ->
    Pending header j -> (header.slots i).clientId = (header.slots j).clientId ->
    (header.slots i).shmCreated = false ∧
      (j < i ∨
        ((header.slots j).shmCreated = true ∧
          exists earlier, earlier < i ∧ Pending header earlier ∧
            (header.slots earlier).clientId = (header.slots i).clientId))

instance (header : CoordHeader) (slot : Slot) : Decidable (Pending header slot) :=
  inferInstanceAs (Decidable (_ ∧ _))

instance (header : CoordHeader) : Decidable (KeepsRows header) :=
  inferInstanceAs (Decidable (forall _, _))

def PassKeeps (s : ServerState) : PassLabel -> Prop
  | .pass => KeepsRows s.header
  | _ => True

instance (s : ServerState) (l : PassLabel) : Decidable (PassKeeps s l) :=
  match l with
  | .request _ _ => .isTrue trivial
  | .close _ => .isTrue trivial
  | .pass => inferInstanceAs (Decidable (KeepsRows s.header))

/-!
# Rows and their segments
-/

structure Linked (clients : Int -> Prop) (header : CoordHeader)
    (segments : IpcTable Segment) : Prop where
  type : forall i, header.clientReserved i = true ->
    allocatorOf (header.slots i).type = .hash
  reserved : forall i, (header.slots i).shmCreated = true ->
    header.clientReserved i = true
  client : forall i, header.clientReserved i = true ->
    clients (header.slots i).clientId
  request : forall i e, Live header i ->
    segments.entries (header.slots i).shms.requestShm.shmid = some e ->
    e.key = (rowKeys (header.slots i)).1
  response : forall i e, Live header i ->
    segments.entries (header.slots i).shms.responseShm.shmid = some e ->
    e.key = (rowKeys (header.slots i)).2
  fresh : forall i shmid, Live header i -> Uses (header.slots i) shmid ->
    shmid < segments.next
  own : forall i j shmid e, Live header i -> Live header j -> i ≠ j ->
    Uses (header.slots i) shmid -> Uses (header.slots j) shmid ->
    segments.entries shmid = some e -> e.key ≠ 0

section Linked

variable {clients : Int -> Prop} {header header' : CoordHeader}
  {segments segments' mid : IpcTable Segment} {slot : Slot} {shms : ShmPair}

theorem Linked.hasKey (h : Linked clients header segments) {i : Slot}
    (hlive : Live header i) {shmid : Int} (hu : Uses (header.slots i) shmid)
    {e : IpcEntry Segment} (he : segments.entries shmid = some e) :
    HasKey (rowKeys (header.slots i)) e.key := by
  rcases hu with hid | hid
  · rw [← hid] at he
    exact Or.inl (h.request i e hlive he).symm
  · rw [← hid] at he
    exact Or.inr (h.response i e hlive he).symm

theorem Linked.rowKeys_eq (h : Linked clients header segments) {i : Slot}
    (hreserved : header.clientReserved i = true) :
    rowKeys (header.slots i) = derivedKeys .hash (header.slots i).clientId := by
  unfold rowKeys
  rw [h.type i hreserved]

theorem Linked.sameClient (h : Linked clients header segments)
    (hclients : PrivateIds clients) {i j : Slot}
    (hi : header.clientReserved i = true) (hj : header.clientReserved j = true)
    {key : Int} (hne : key ≠ 0) (hkey : HasKey (rowKeys (header.slots i)) key)
    (hkey' : HasKey (rowKeys (header.slots j)) key) :
    (header.slots i).clientId = (header.slots j).clientId := by
  rw [h.rowKeys_eq hi] at hkey
  rw [h.rowKeys_eq hj] at hkey'
  exact hclients _ _ key (h.client i hi) (h.client j hj) hne hkey hkey'

/-- The live rows of the new table are live in the old one and refer to the same
segments, and no segment is new. -/
theorem linked_of_rows (h : Linked clients header segments)
    (htype : forall i, header'.clientReserved i = true ->
      allocatorOf (header'.slots i).type = .hash ∧ clients (header'.slots i).clientId)
    (hreserved : forall i, (header'.slots i).shmCreated = true ->
      header'.clientReserved i = true)
    (hrow : forall i, Live header' i -> Live header i ∧
      rowKeys (header'.slots i) = rowKeys (header.slots i) ∧
      (header'.slots i).shms = (header.slots i).shms)
    (hentries : forall shmid e, segments'.entries shmid = some e ->
      segments.entries shmid = some e)
    (hnext : segments'.next = segments.next) :
    Linked clients header' segments' := by
  have huses : forall i shmid, Live header' i -> Uses (header'.slots i) shmid ->
      Uses (header.slots i) shmid := by
    intro i shmid hlive hu
    unfold Uses at hu ⊢
    rw [(hrow i hlive).right.right] at hu
    exact hu
  constructor
  · intro i hi
    exact (htype i hi).left
  · exact hreserved
  · intro i hi
    exact (htype i hi).right
  · intro i e hlive he
    rcases hrow i hlive with ⟨hold, hkeys, hshms⟩
    rw [hshms] at he
    rw [hkeys]
    exact h.request i e hold (hentries _ e he)
  · intro i e hlive he
    rcases hrow i hlive with ⟨hold, hkeys, hshms⟩
    rw [hshms] at he
    rw [hkeys]
    exact h.response i e hold (hentries _ e he)
  · intro i shmid hlive hu
    rw [hnext]
    exact h.fresh i shmid (hrow i hlive).left (huses i shmid hlive hu)
  · intro i j shmid e hlive hlive' hne hu hu' he
    exact h.own i j shmid e (hrow i hlive).left (hrow j hlive').left hne
      (huses i shmid hlive hu) (huses j shmid hlive' hu') (hentries _ e he)

/-- A segment that was given out before an allocation has not changed its key in
it, and does not come back if it was removed. -/
theorem entry_before {keys : Int × Int}
    (halloc : AllocatedByKeys keys segments mid shms) {shmid : Int}
    (hfresh : shmid < segments.next) {e : IpcEntry Segment}
    (he : mid.entries shmid = some e) :
    exists e', segments.entries shmid = some e' ∧ e'.key = e.key := by
  cases hold : segments.entries shmid with
  | some e' =>
      rcases halloc.kept shmid e' hold with ⟨e1, he1, hkey⟩
      rw [he] at he1
      injection he1 with he1
      rw [he1]
      exact ⟨e', rfl, hkey.symm⟩
  | none =>
      rw [halloc.stays_removed hfresh hold] at he
      cases he

theorem linked_serviced (h : Linked clients header segments)
    (hneeds : NeedsService header slot)
    (halloc : AllocatedByKeys (rowKeys (header.slots slot)) segments mid shms) :
    Linked clients (header.setRow slot
      { header.slots slot with shms := shms, shmCreated := true }) mid := by
  have hserviced := servicedWith_setRow header slot shms
  generalize header.setRow slot
    { header.slots slot with shms := shms, shmCreated := true } = header'
    at hserviced ⊢
  have hlive := hserviced.live
  rcases hserviced with ⟨hself, hother, hreserved, _⟩
  have hopened : forall shmid, Uses (header'.slots slot) shmid ->
      shms.requestShm.shmid = shmid ∨ shms.responseShm.shmid = shmid := by
    intro shmid hu
    rw [hself] at hu
    exact hu
  have hshared : forall i shmid e, i ≠ slot -> Live header' i ->
      Uses (header'.slots i) shmid -> Uses (header'.slots slot) shmid ->
      mid.entries shmid = some e -> e.key ≠ 0 := by
    intro i shmid e hne hl hu hu' he
    rw [hother i hne] at hu
    rcases entry_before halloc (h.fresh i shmid (hlive i hne hl) hu) he with
      ⟨e', he', hkey⟩
    rw [← hkey]
    exact (halloc.opened_key ((hopened shmid hu').imp Eq.symm Eq.symm) he').right
  constructor
  · intro i hi
    rw [hreserved] at hi
    by_cases hslot : i = slot
    · rw [hslot, hself]
      exact h.type slot hneeds.left
    · rw [hother i hslot]
      exact h.type i hi
  · intro i hcreated
    rw [hreserved]
    by_cases hslot : i = slot
    · rw [hslot]
      exact hneeds.left
    · rw [hother i hslot] at hcreated
      exact h.reserved i hcreated
  · intro i hi
    rw [hreserved] at hi
    by_cases hslot : i = slot
    · rw [hslot, hself]
      exact h.client slot hneeds.left
    · rw [hother i hslot]
      exact h.client i hi
  · intro i e hl he
    by_cases hslot : i = slot
    · subst hslot
      rw [hself] at he ⊢
      rcases halloc.request with ⟨e1, he1, hkey⟩
      have heq : e1 = e := Option.some.inj (he1.symm.trans he)
      rw [← heq]
      exact hkey
    · rw [hother i hslot] at he ⊢
      have hold := hlive i hslot hl
      rcases entry_before halloc (h.fresh i _ hold (Or.inl rfl)) he with ⟨e', he', hkey⟩
      rw [← hkey]
      exact h.request i e' hold he'
  · intro i e hl he
    by_cases hslot : i = slot
    · subst hslot
      rw [hself] at he ⊢
      rcases halloc.response with ⟨e1, he1, hkey⟩
      have heq : e1 = e := Option.some.inj (he1.symm.trans he)
      rw [← heq]
      exact hkey
    · rw [hother i hslot] at he ⊢
      have hold := hlive i hslot hl
      rcases entry_before halloc (h.fresh i _ hold (Or.inr rfl)) he with ⟨e', he', hkey⟩
      rw [← hkey]
      exact h.response i e' hold he'
  · intro i shmid hl hu
    by_cases hslot : i = slot
    · rw [hslot] at hu
      rcases hopened shmid hu with hid | hid
      · rcases halloc.request with ⟨e, he, _⟩
        rw [hid] at he
        exact (IpcTable.lt_next he).right
      · rcases halloc.response with ⟨e, he, _⟩
        rw [hid] at he
        exact (IpcTable.lt_next he).right
    · rw [hother i hslot] at hu
      have hlt := h.fresh i shmid (hlive i hslot hl) hu
      have hnext := halloc.next
      lia
  · intro i j shmid e hl hl' hne hu hu' he
    by_cases hslot : i = slot
    · rw [hslot] at hu
      exact hshared j shmid e (fun heq => hne (hslot.trans heq.symm)) hl' hu' hu he
    · by_cases hslot' : j = slot
      · rw [hslot'] at hu'
        exact hshared i shmid e hslot hl hu hu' he
      · rw [hother i hslot] at hu
        rw [hother j hslot'] at hu'
        have hold := hlive i hslot hl
        rcases entry_before halloc (h.fresh i shmid hold hu) he with ⟨e', he', hkey⟩
        rw [← hkey]
        exact h.own i j shmid e' hold (hlive j hslot' hl') hne hu hu' he'

end Linked

/-!
# A pass under way
-/

def Earlier (start : CoordHeader) (done : List Slot) (clientId : Int) : Prop :=
  exists j, j ∈ done ∧ Pending start j ∧ (start.slots j).clientId = clientId

/-- The pass started with this table and has done these slots.  A pending row
still ahead has its segments, until the first pending row of its client is
cleared; then it has no segment that another row could find. -/
structure PassInvariant (clients : Int -> Prop) (start : CoordHeader)
    (done : List Slot) (header : CoordHeader) (segments : IpcTable Segment) :
    Prop where
  linked : Linked clients header segments
  ahead : forall i, i ∉ done -> header.slots i = start.slots i ∧
    header.clientReserved i = start.clientReserved i
  behind : forall i, i ∈ done -> Live header i ->
    start.clientReserved i = true ∧ (start.slots i).detach = false ∧
      (header.slots i).clientId = (start.slots i).clientId ∧
      (header.slots i).detach = false
  attached : forall i, Live header i -> (header.slots i).detach = false ->
    Attached segments (header.slots i)
  stale : forall j, j ∉ done -> Live start j -> (start.slots j).detach = true ->
    Earlier start done (start.slots j).clientId ->
    forall shmid e, Uses (start.slots j) shmid ->
      segments.entries shmid = some e -> e.key = 0
  pending : forall j, j ∉ done -> Live start j -> (start.slots j).detach = true ->
    ¬ Earlier start done (start.slots j).clientId ->
    Attached segments (start.slots j)

section Pass

variable {clients : Int -> Prop} {start header : CoordHeader} {done : List Slot}
  {segments mid segments' : IpcTable Segment} {slot : Slot} {shms : ShmPair}

theorem earlier_append {clientId : Int} :
    Earlier start (done ++ [slot]) clientId <->
      Earlier start done clientId ∨
        (Pending start slot ∧ (start.slots slot).clientId = clientId) := by
  constructor
  · intro h
    rcases h with ⟨j, hj, hpending, hid⟩
    rcases List.mem_append.mp hj with hj | hj
    · exact Or.inl ⟨j, hj, hpending, hid⟩
    · rw [List.mem_singleton.mp hj] at hpending hid
      exact Or.inr ⟨hpending, hid⟩
  · intro h
    rcases h with ⟨j, hj, hpending, hid⟩ | ⟨hpending, hid⟩
    · exact ⟨j, List.mem_append_left _ hj, hpending, hid⟩
    · exact ⟨slot, List.mem_append_right _ (List.mem_singleton.mpr rfl), hpending, hid⟩

theorem not_mem_snoc {j : Slot} (h : j ∉ done ++ [slot]) : j ∉ done ∧ j ≠ slot := by
  rw [List.mem_append, List.mem_singleton, not_or] at h
  exact h

structure Extends (before after : IpcTable Segment) : Prop where
  kept : forall shmid e, before.entries shmid = some e ->
    exists e', after.entries shmid = some e' ∧ e'.key = e.key
  old : forall (shmid : Int) e, shmid < before.next -> after.entries shmid = some e ->
    exists e', before.entries shmid = some e' ∧ e'.key = e.key

theorem VisitedSegments.serviced_extends
    (h : VisitedSegments header slot shms segments mid segments') :
    Extends segments mid := by
  by_cases hneeds : NeedsService header slot
  · have halloc := h.allocated hneeds
    constructor
    · exact halloc.kept
    · intro shmid e hfresh he
      exact entry_before halloc hfresh he
  · rw [h.skipped hneeds]
    constructor
    · intro shmid e he
      exact ⟨e, he, rfl⟩
    · intro shmid e _ he
      exact ⟨e, he, rfl⟩

theorem VisitedSegments.serviced_linked
    (h : VisitedSegments header slot shms segments mid segments')
    (hlinked : Linked clients header segments) :
    Linked clients (serviced shms header slot) mid := by
  by_cases hneeds : NeedsService header slot
  · rw [serviced_of_needs shms hneeds]
    exact linked_serviced hlinked hneeds (h.allocated hneeds)
  · rw [serviced_of_not_needs shms hneeds, h.skipped hneeds]
    exact hlinked

/-- After its service a reserved slot is live, and has the segments it had, or
new ones. -/
theorem VisitedSegments.serviced_attached
    (h : VisitedSegments header slot shms segments mid segments')
    (hreserved : header.clientReserved slot = true)
    (hold : (header.slots slot).shmCreated = true ->
      Attached segments (header.slots slot)) :
    Live (serviced shms header slot) slot ∧
      Attached mid ((serviced shms header slot).slots slot) := by
  by_cases hneeds : NeedsService header slot
  · have halloc := h.allocated hneeds
    rw [serviced_of_needs shms hneeds]
    unfold Live
    rw [CoordHeader.setRow_slots_self]
    refine ⟨⟨hreserved, rfl⟩, ?_⟩
    intro shmid hu
    rcases hu with hid | hid
    · rcases halloc.request with ⟨e, he, _⟩
      rw [← hid, he]
      exact Option.some_ne_none e
    · rcases halloc.response with ⟨e, he, _⟩
      rw [← hid, he]
      exact Option.some_ne_none e
  · rw [serviced_of_not_needs shms hneeds, h.skipped hneeds]
    have hcreated : (header.slots slot).shmCreated = true := by
      cases hc : (header.slots slot).shmCreated with
      | true => rfl
      | false => exact absurd ⟨hreserved, hc⟩ hneeds
    exact ⟨⟨hreserved, hcreated⟩, hold hcreated⟩

theorem Extends.attached (h : Extends segments mid) {row : CoordRow}
    (hattached : Attached segments row) : Attached mid row := by
  intro shmid hu hnone
  cases hentry : segments.entries shmid with
  | none => exact hattached shmid hu hentry
  | some e =>
      rcases h.kept shmid e hentry with ⟨e', he', _⟩
      rw [hnone] at he'
      cases he'

/-- A row ahead that is live at the start of the pass is live still. -/
theorem PassInvariant.live_ahead (hinv : PassInvariant clients start done header segments)
    {j : Slot} (hj : j ∉ done) (hlive : Live start j) : Live header j := by
  rcases hinv.ahead j hj with ⟨hrow, hreserved⟩
  unfold Live
  rw [hrow, hreserved]
  exact hlive

theorem Extends.stale (h : Extends segments mid)
    (hinv : PassInvariant clients start done header segments)
    {j : Slot} (hj : j ∉ done) (hlive : Live start j)
    (hdetach : (start.slots j).detach = true)
    (hearlier : Earlier start done (start.slots j).clientId) {shmid : Int}
    (hu : Uses (start.slots j) shmid) {e : IpcEntry Segment}
    (he : mid.entries shmid = some e) : e.key = 0 := by
  have hfresh : shmid < segments.next := by
    apply hinv.linked.fresh j shmid (hinv.live_ahead hj hlive)
    rw [(hinv.ahead j hj).left]
    exact hu
  rcases h.old shmid e hfresh he with ⟨e', he', hkey⟩
  rw [← hkey]
  exact hinv.stale j hj hlive hdetach hearlier shmid e' hu he'

theorem pass_keep (hinv : PassInvariant clients start done header segments)
    (hslot : slot ∉ done) (hdetach : (start.slots slot).detach = false)
    (hvisit : VisitedSegments header slot shms segments mid segments') :
    PassInvariant clients start (done ++ [slot]) (visitWith shms header slot)
      segments' := by
  have hextends := hvisit.serviced_extends
  rcases hinv.ahead slot hslot with ⟨hrow, hreserved⟩
  have hdetach' : (header.slots slot).detach = false := by
    rw [hrow]
    exact hdetach
  rcases serviced_self shms header slot with ⟨pair, created, hself⟩
  have hentries : segments'.entries = mid.entries := by
    apply hvisit.cleared.kept
    intro hclear
    rw [hself] at hclear
    have hyes := hclear.left
    rw [hdetach'] at hyes
    cases hyes
  have hearlier : forall clientId, Earlier start (done ++ [slot]) clientId ->
      Earlier start done clientId := by
    intro clientId h
    rcases earlier_append.mp h with h | ⟨hpending, _⟩
    · exact h
    · have hyes := hpending.right
      rw [hdetach] at hyes
      cases hyes
  rw [visitWith_keep shms header hdetach']
  have hlive : forall i, i ≠ slot -> Live (serviced shms header slot) i ->
      Live header i := by
    intro i hne h
    unfold Live at h ⊢
    rw [serviced_clientReserved, serviced_other shms header hne] at h
    exact h
  constructor
  · apply linked_of_rows (hvisit.serviced_linked hinv.linked)
    · intro i hi
      have hlinked := hvisit.serviced_linked hinv.linked
      exact ⟨hlinked.type i hi, hlinked.client i hi⟩
    · exact (hvisit.serviced_linked hinv.linked).reserved
    · intro i h
      exact ⟨h, rfl, rfl⟩
    · intro shmid e he
      rw [← hentries]
      exact he
    · exact hvisit.cleared.next
  · intro i hi
    rcases not_mem_snoc hi with ⟨hi, hne⟩
    rw [serviced_other shms header hne, serviced_clientReserved]
    exact hinv.ahead i hi
  · intro i hi h
    rcases List.mem_append.mp hi with hi | hi
    · have hne : i ≠ slot := fun heq => hslot (heq ▸ hi)
      rw [serviced_other shms header hne]
      exact hinv.behind i hi (hlive i hne h)
    · rw [List.mem_singleton.mp hi] at h ⊢
      have hres := h.left
      rw [serviced_clientReserved, hreserved] at hres
      rw [hself]
      exact ⟨hres, hdetach, by rw [← hrow], hdetach'⟩
  · intro i h hnot
    have hmid : Attached mid ((serviced shms header slot).slots i) := by
      by_cases hi : i = slot
      · subst hi
        have hres := h.left
        rw [serviced_clientReserved] at hres
        exact (hvisit.serviced_attached hres fun hcreated =>
          hinv.attached i ⟨hres, hcreated⟩ hdetach').right
      · rw [serviced_other shms header hi] at hnot ⊢
        exact hextends.attached (hinv.attached i (hlive i hi h) hnot)
    intro shmid hu
    rw [hentries]
    exact hmid shmid hu
  · intro j hj hjlive hjdetach hjearlier shmid e hu he
    rw [hentries] at he
    exact hextends.stale hinv (not_mem_snoc hj).left hjlive hjdetach
      (hearlier _ hjearlier)
      hu he
  · intro j hj hjlive hjdetach hjearlier shmid hu
    rw [hentries]
    refine hextends.attached (hinv.pending j (not_mem_snoc hj).left hjlive hjdetach ?_)
      shmid hu
    exact fun h => hjearlier (earlier_append.mpr (Or.inl h))

/-!
# A visit that clears
-/

theorem ClearedSegments.left {table : CoordHeader}
    (h : ClearedSegments table slot mid segments')
    (hdetach : (table.slots slot).detach = true) {shmid : Int}
    {e : IpcEntry Segment} (he : segments'.entries shmid = some e) :
    mid.entries shmid = some e ∧
      ((table.slots slot).shmCreated = true -> ¬ Uses (table.slots slot) shmid) := by
  cases hcreated : (table.slots slot).shmCreated with
  | false =>
      rw [h.kept (by simp [hcreated])] at he
      exact ⟨he, nofun⟩
  | true =>
      rw [h.removed hdetach hcreated] at he
      by_cases hresponse : shmid = (table.slots slot).shms.responseShm.shmid
      · rw [hresponse, Function.update_self] at he
        cases he
      · rw [Function.update_of_ne hresponse] at he
        by_cases hrequest : shmid = (table.slots slot).shms.requestShm.shmid
        · rw [hrequest, Function.update_self] at he
          cases he
        · rw [Function.update_of_ne hrequest] at he
          refine ⟨he, ?_⟩
          intro _ hu
          rcases hu with hid | hid
          · exact hrequest hid.symm
          · exact hresponse hid.symm

theorem ClearedSegments.stay {table : CoordHeader}
    (h : ClearedSegments table slot mid segments') {shmid : Int}
    (hunused : (table.slots slot).shmCreated = true ->
      ¬ Uses (table.slots slot) shmid) :
    segments'.entries shmid = mid.entries shmid := by
  by_cases hclear : (table.slots slot).detach = true ∧
      (table.slots slot).shmCreated = true
  · have hnot := hunused hclear.right
    rw [h.removed hclear.left hclear.right,
      Function.update_of_ne (fun heq => hnot (Or.inr heq.symm)),
      Function.update_of_ne (fun heq => hnot (Or.inl heq.symm))]
  · rw [h.kept hclear]

/-- A row that stays shares no segment with the row that is cleared. -/
theorem not_shared (hclients : PrivateIds clients) (hguard : KeepsRows start)
    (hdone : forall i, i ∈ done <-> i < slot)
    (hinv : PassInvariant clients start done header segments)
    (hdetach : (start.slots slot).detach = true)
    (hvisit : VisitedSegments header slot shms segments mid segments')
    {i : Slot} (hne : i ≠ slot) (hlive : Live header i)
    (hkeep : (header.slots i).detach = false) {shmid : Int}
    (hu : Uses (header.slots i) shmid) {e : IpcEntry Segment}
    (he : mid.entries shmid = some e)
    (hcreated : ((serviced shms header slot).slots slot).shmCreated = true) :
    ¬ Uses ((serviced shms header slot).slots slot) shmid := by
  intro hu'
  have hslot : slot ∉ done := fun h => absurd ((hdone slot).mp h) (lt_irrefl slot)
  rcases hinv.ahead slot hslot with ⟨hrow, hreserved⟩
  have hlinked := hvisit.serviced_linked hinv.linked
  have hrow' := serviced_other shms header hne
  have hlive1 : Live (serviced shms header slot) i := by
    unfold Live
    rw [serviced_clientReserved, hrow']
    exact hlive
  have hslotReserved : (serviced shms header slot).clientReserved slot = true :=
    hlinked.reserved slot hcreated
  have hlive2 : Live (serviced shms header slot) slot := ⟨hslotReserved, hcreated⟩
  have hu1 : Uses ((serviced shms header slot).slots i) shmid := by
    rw [hrow']
    exact hu
  have hkey := hlinked.own i slot shmid e hlive1 hlive2 hne hu1 hu' he
  have hsame := hlinked.sameClient hclients hlive1.left hslotReserved hkey
    (hlinked.hasKey hlive1 hu1 he) (hlinked.hasKey hlive2 hu' he)
  rcases serviced_self shms header slot with ⟨pair, created, hself⟩
  rw [hrow', hself] at hsame
  have hsame' : (header.slots i).clientId = (header.slots slot).clientId := hsame
  rw [hrow] at hsame'
  rw [serviced_clientReserved, hreserved] at hslotReserved
  have hstart : start.clientReserved i = true ∧ (start.slots i).detach = false ∧
      (header.slots i).clientId = (start.slots i).clientId := by
    by_cases hi : i ∈ done
    · rcases hinv.behind i hi hlive with ⟨hres, hnot, hid, _⟩
      exact ⟨hres, hnot, hid⟩
    · rcases hinv.ahead i hi with ⟨hsameRow, hsameReserved⟩
      rw [← hsameReserved, ← hsameRow]
      exact ⟨hlive.left, hkeep, rfl⟩
  rcases hstart with ⟨hires, hidetach, hid⟩
  rcases hguard i slot hires hidetach ⟨hslotReserved, hdetach⟩
    (by rw [← hid]; exact hsame') with ⟨hnew, horder⟩
  have hi : i ∈ done := by
    by_contra hi
    have hyes := hlive.right
    rw [(hinv.ahead i hi).left, hnew] at hyes
    cases hyes
  have hlt := (hdone i).mp hi
  rcases horder with hgt | ⟨hslotCreated, earlier, hearlier, hpending, hearlierId⟩
  · exact absurd hgt (not_lt_of_gt hlt)
  · have hmem : earlier ∈ done := (hdone earlier).mpr (lt_trans hearlier hlt)
    have hnotNeeds : ¬ NeedsService header slot := by
      intro hneeds
      have hno := hneeds.right
      rw [hrow, hslotCreated] at hno
      cases hno
    rw [serviced_of_not_needs shms hnotNeeds, hrow] at hu'
    rw [hvisit.skipped hnotNeeds] at he
    apply hkey
    refine hinv.stale slot hslot ⟨hslotReserved, hslotCreated⟩ hdetach ?_ shmid e hu' he
    exact ⟨earlier, hmem, hpending, by rw [hearlierId, ← hid]; exact hsame'⟩

/-- The first pending row of a client takes along all segments that a later
pending row of the client could be found to have. -/
theorem first_clear (hinv : PassInvariant clients start done header segments)
    {j : Slot} (hj : j ∉ done) (hne : j ≠ slot) (hlive : Live start j)
    (hslot : slot ∉ done) (hpending : Pending start slot)
    (hid : (start.slots slot).clientId = (start.slots j).clientId)
    (hfirst : ¬ Earlier start done (start.slots j).clientId)
    (hvisit : VisitedSegments header slot shms segments mid segments')
    {shmid : Int} {e : IpcEntry Segment} (hu : Uses (start.slots j) shmid)
    (he : mid.entries shmid = some e)
    (hunused : ((serviced shms header slot).slots slot).shmCreated = true ->
      ¬ Uses ((serviced shms header slot).slots slot) shmid) : e.key = 0 := by
  by_contra hkey
  rcases hinv.ahead slot hslot with ⟨hrow, hreserved⟩
  have hlinked := hvisit.serviced_linked hinv.linked
  have hres : header.clientReserved slot = true := by
    rw [hreserved]
    exact hpending.left
  have hattached := hvisit.serviced_attached hres (by
    rw [hrow]
    intro hcreated
    apply hinv.pending slot hslot ⟨hpending.left, hcreated⟩ hpending.right
    rw [hid]
    exact hfirst)
  have hjlive : Live (serviced shms header slot) j := by
    unfold Live
    rw [serviced_clientReserved, serviced_other shms header hne]
    exact hinv.live_ahead hj hlive
  have hrowj : (serviced shms header slot).slots j = start.slots j := by
    rw [serviced_other shms header hne]
    exact (hinv.ahead j hj).left
  have hu1 : Uses ((serviced shms header slot).slots j) shmid := by
    rw [hrowj]
    exact hu
  have hsame : ((serviced shms header slot).slots j).clientId =
      ((serviced shms header slot).slots slot).clientId := by
    rcases serviced_self shms header slot with ⟨pair, created, hself⟩
    rw [hrowj, hself]
    show _ = (header.slots slot).clientId
    rw [hrow]
    exact hid.symm
  have hkeys : rowKeys ((serviced shms header slot).slots j) =
      rowKeys ((serviced shms header slot).slots slot) := by
    rw [hlinked.rowKeys_eq hjlive.left, hlinked.rowKeys_eq hattached.left.left, hsame]
  have hhas := hlinked.hasKey hjlive hu1 he
  rw [hkeys] at hhas
  apply hunused hattached.left.right
  rcases hhas with hreq | hresp
  · left
    cases hentry : mid.entries
        ((serviced shms header slot).slots slot).shms.requestShm.shmid with
    | none => exact absurd hentry (hattached.right _ (Or.inl rfl))
    | some e1 =>
        have hkey1 := hlinked.request slot e1 hattached.left hentry
        have hsame1 : e1.key = e.key := hkey1.trans hreq
        exact mid.unique _ _ e1 e hentry he hsame1 (by rw [hsame1]; exact hkey)
  · right
    cases hentry : mid.entries
        ((serviced shms header slot).slots slot).shms.responseShm.shmid with
    | none => exact absurd hentry (hattached.right _ (Or.inr rfl))
    | some e1 =>
        have hkey1 := hlinked.response slot e1 hattached.left hentry
        have hsame1 : e1.key = e.key := hkey1.trans hresp
        exact mid.unique _ _ e1 e hentry he hsame1 (by rw [hsame1]; exact hkey)

theorem pass_clear (hclients : PrivateIds clients) (hguard : KeepsRows start)
    (hdone : forall i, i ∈ done <-> i < slot)
    (hinv : PassInvariant clients start done header segments)
    (hdetach : (start.slots slot).detach = true)
    (hvisit : VisitedSegments header slot shms segments mid segments') :
    PassInvariant clients start (done ++ [slot]) (visitWith shms header slot)
      segments' := by
  have hslot : slot ∉ done := fun h => absurd ((hdone slot).mp h) (lt_irrefl slot)
  have hextends := hvisit.serviced_extends
  have hlinked := hvisit.serviced_linked hinv.linked
  rcases hinv.ahead slot hslot with ⟨hrow, hreserved⟩
  have hdetach' : (header.slots slot).detach = true := by
    rw [hrow]
    exact hdetach
  rcases serviced_self shms header slot with ⟨pair, created, hself⟩
  have hdetach1 : ((serviced shms header slot).slots slot).detach = true := by
    rw [hself]
    exact hdetach'
  rcases visitWith_detach shms header hdetach' with ⟨hzero, hfree⟩
  have hother : forall i, i ≠ slot ->
      (visitWith shms header slot).slots i = header.slots i ∧
        (visitWith shms header slot).clientReserved i = header.clientReserved i :=
    fun i hne => visitWith_other shms header hne
  have hlive : forall i, Live (visitWith shms header slot) i ->
      i ≠ slot ∧ Live header i := by
    intro i h
    have hne : i ≠ slot := by
      intro heq
      have hyes := h.left
      rw [heq, hfree] at hyes
      cases hyes
    refine ⟨hne, ?_⟩
    unfold Live at h ⊢
    rw [(hother i hne).left, (hother i hne).right] at h
    exact h
  have hserviced : forall i, i ≠ slot -> Live header i ->
      Live (serviced shms header slot) i := by
    intro i hne h
    unfold Live
    rw [serviced_clientReserved, serviced_other shms header hne]
    exact h
  constructor
  · apply linked_of_rows hlinked
    · intro i hi
      have hne : i ≠ slot := by
        intro heq
        rw [heq, hfree] at hi
        cases hi
      rw [(hother i hne).right] at hi
      rw [(hother i hne).left]
      exact ⟨hinv.linked.type i hi, hinv.linked.client i hi⟩
    · intro i hcreated
      by_cases hi : i = slot
      · rw [hi, hzero] at hcreated
        cases hcreated
      · rw [(hother i hi).left] at hcreated
        rw [(hother i hi).right]
        exact hinv.linked.reserved i hcreated
    · intro i h
      rcases hlive i h with ⟨hne, hold⟩
      rw [(hother i hne).left, serviced_other shms header hne]
      exact ⟨hserviced i hne hold, rfl, rfl⟩
    · intro shmid e he
      exact (hvisit.cleared.left hdetach1 he).left
    · exact hvisit.cleared.next
  · intro i hi
    rcases not_mem_snoc hi with ⟨hi, hne⟩
    rw [(hother i hne).left, (hother i hne).right]
    exact hinv.ahead i hi
  · intro i hi h
    rcases hlive i h with ⟨hne, hold⟩
    rw [(hother i hne).left]
    rcases List.mem_append.mp hi with hi | hi
    · exact hinv.behind i hi hold
    · exact absurd (List.mem_singleton.mp hi) hne
  · intro i h hnot shmid hu
    rcases hlive i h with ⟨hne, hold⟩
    rw [(hother i hne).left] at hnot hu
    have hmid := hextends.attached (hinv.attached i hold hnot) shmid hu
    cases hentry : mid.entries shmid with
    | none => exact absurd hentry hmid
    | some e =>
        rw [hvisit.cleared.stay fun hcreated => not_shared hclients hguard hdone hinv
          hdetach hvisit hne hold hnot hu hentry hcreated, hentry]
        exact Option.some_ne_none e
  · intro j hj hjlive hjdetach hjearlier shmid e hu he
    rcases not_mem_snoc hj with ⟨hjdone, hjne⟩
    rcases hvisit.cleared.left hdetach1 he with ⟨hmid, hunused⟩
    by_cases hbefore : Earlier start done (start.slots j).clientId
    · exact hextends.stale hinv hjdone hjlive hjdetach hbefore hu hmid
    · rcases earlier_append.mp hjearlier with h | ⟨hpending, hid⟩
      · exact absurd h hbefore
      · exact first_clear hinv hjdone hjne hjlive hslot hpending hid hbefore
          hvisit hu hmid hunused
  · intro j hj hjlive hjdetach hjearlier shmid hu
    rcases not_mem_snoc hj with ⟨hjdone, hjne⟩
    have hold := hinv.live_ahead hjdone hjlive
    have hmid := hextends.attached (hinv.pending j hjdone hjlive hjdetach
      fun h => hjearlier (earlier_append.mpr (Or.inl h))) shmid hu
    cases hentry : mid.entries shmid with
    | none => exact absurd hentry hmid
    | some e =>
        have hunused : ((serviced shms header slot).slots slot).shmCreated = true ->
            ¬ Uses ((serviced shms header slot).slots slot) shmid := by
          intro hcreated hu'
          apply hjearlier
          have hslotLive : Live (serviced shms header slot) slot :=
            ⟨hlinked.reserved slot hcreated, hcreated⟩
          have hjLive := hserviced j hjne hold
          have hrowj : (serviced shms header slot).slots j = start.slots j := by
            rw [serviced_other shms header hjne]
            exact (hinv.ahead j hjdone).left
          have hu1 : Uses ((serviced shms header slot).slots j) shmid := by
            rw [hrowj]
            exact hu
          have hkey := hlinked.own j slot shmid e hjLive hslotLive hjne hu1 hu' hentry
          have hsame := hlinked.sameClient hclients hslotLive.left hjLive.left hkey
            (hlinked.hasKey hslotLive hu' hentry) (hlinked.hasKey hjLive hu1 hentry)
          have hres := hslotLive.left
          rw [serviced_clientReserved, hreserved] at hres
          rw [hrowj, hself] at hsame
          have hsame' : (header.slots slot).clientId = (start.slots j).clientId := hsame
          rw [hrow] at hsame'
          exact earlier_append.mpr (Or.inr ⟨⟨hres, hdetach⟩, hsame'⟩)
        rw [hvisit.cleared.stay hunused, hentry]
        exact Option.some_ne_none e

end Pass

/-!
# All steps
-/

theorem mem_done_iff {n : Nat} {done todo : List (Fin n)} {slot : Fin n}
    (h : List.finRange n = done ++ slot :: todo) (i : Fin n) :
    i ∈ done <-> i < slot := by
  have hsorted := List.pairwise_lt_finRange n
  rw [h, List.pairwise_append] at hsorted
  rcases hsorted with ⟨_, hrest, hcross⟩
  constructor
  · intro hi
    exact hcross i hi slot List.mem_cons_self
  · intro hlt
    have hmem : i ∈ done ++ slot :: todo := by
      rw [← h]
      exact List.mem_finRange i
    rcases List.mem_append.mp hmem with hi | hi
    · exact hi
    · rcases List.mem_cons.mp hi with heq | hi
      · exact absurd heq (ne_of_lt hlt)
      · exact absurd ((List.pairwise_cons.mp hrest).left i hi) (not_lt_of_gt hlt)

structure PassesInvariant (clients : Int -> Prop) (s : ServerState) : Prop where
  linked : Linked clients s.header s.kernel.segments
  attached : forall i, Live s.header i ->
    Attached s.kernel.segments (s.header.slots i)

section Steps

variable {boost : Int -> Int -> OsM ShmPair} {clients : Int -> Prop}
  {s s' : ServerState}

theorem passesInvariant_start {shmid : Int}
    (hheader : s.header = { CoordHeader.zero with shmid := shmid }) :
    PassesInvariant clients s := by
  have hfree : forall i, s.header.clientReserved i ≠ true := by
    intro i hreserved
    rw [hheader] at hreserved
    cases hreserved
  constructor
  · constructor
    · exact fun i hi => absurd hi (hfree i)
    · intro i hcreated
      rw [hheader] at hcreated
      cases hcreated
    · exact fun i hi => absurd hi (hfree i)
    · exact fun i e hlive => absurd hlive.left (hfree i)
    · exact fun i e hlive => absurd hlive.left (hfree i)
    · exact fun i shmid hlive => absurd hlive.left (hfree i)
    · exact fun i j shmid e hlive => absurd hlive.left (hfree i)
  · exact fun i hlive => absurd hlive.left (hfree i)

theorem passesInvariant_request (hinv : PassesInvariant clients s)
    {clientId : Int} (hclient : clients clientId) (messageSize : Int) :
    PassesInvariant clients { s with
      header := (requestSlot s.header clientId messageSize .poll).1 } := by
  constructor
  · refine linked_of_rows hinv.linked ?_ ?_ ?_ (fun _ _ he => he) rfl
    · intro i hi
      rcases requestSlot_row s.header clientId messageSize .poll i with
        ⟨hrow, hreserved⟩ | ⟨hrow, _⟩
      · rw [hreserved] at hi
        rw [hrow]
        exact ⟨hinv.linked.type i hi, hinv.linked.client i hi⟩
      · rw [hrow]
        exact ⟨rfl, hclient⟩
    · exact fun i hcreated => reserved_of_request hinv.linked.reserved hcreated
    · intro i hlive
      rcases live_of_request hlive with ⟨hold, hrow⟩
      rw [hrow]
      exact ⟨hold, rfl, rfl⟩
  · intro i hlive
    rcases live_of_request hlive with ⟨hold, hrow⟩
    rw [hrow]
    exact hinv.attached i hold

theorem passesInvariant_close (hinv : PassesInvariant clients s) (clientId : Int) :
    PassesInvariant clients { s with
      header := (clientClose s.header clientId).1 } := by
  rcases clientClose_rows s.header clientId with ⟨_, hreserved, hrow⟩
  have hlive : forall i, Live (clientClose s.header clientId).1 i ->
      Live s.header i := by
    intro i h
    rcases hrow i with ⟨detach, hsame⟩
    unfold Live at h
    rw [hreserved, hsame] at h
    exact h
  constructor
  · refine linked_of_rows hinv.linked ?_ ?_ ?_ (fun _ _ he => he) rfl
    · intro i hi
      rcases hrow i with ⟨detach, hsame⟩
      rw [hreserved] at hi
      rw [hsame]
      exact ⟨hinv.linked.type i hi, hinv.linked.client i hi⟩
    · intro i hcreated
      rcases hrow i with ⟨detach, hsame⟩
      rw [hsame] at hcreated
      rw [hreserved]
      exact hinv.linked.reserved i hcreated
    · intro i h
      rcases hrow i with ⟨detach, hsame⟩
      refine ⟨hlive i h, ?_⟩
      rw [hsame]
      exact ⟨rfl, rfl⟩
  · intro i h
    rcases hrow i with ⟨detach, hsame⟩
    rw [hsame]
    exact hinv.attached i (hlive i h)

theorem passesInvariant_pass (hclients : PrivateIds clients)
    (hinv : PassesInvariant clients s) (hguard : KeepsRows s.header)
    (h : Returns (managePool (poolOps boost) s.header) s.kernel s'.header s'.kernel) :
    PassesInvariant clients s' := by
  have hend : PassInvariant clients s.header (List.finRange slotNum) s'.header
      s'.kernel.segments := by
    refine returns_foldlM (fun done header (k : Kernel) =>
      PassInvariant clients s.header done header k.segments) ?_ ?_ h
    · intro done slot todo header k header' k' hslots hpass hreturns
      have hboost : NeedsService header slot ->
          allocatorOf (header.slots slot).type = .boost -> BoostByKeys boost := by
        intro hneeds hallocator
        rw [hpass.linked.type slot hneeds.left] at hallocator
        cases hallocator
      rcases managePoolVisit_returns hboost hreturns with
        ⟨shms, mid, hheader, hvisit⟩
      have hdone := mem_done_iff hslots
      rw [hheader]
      cases hdetach : (s.header.slots slot).detach with
      | true => exact pass_clear hclients hguard hdone hpass hdetach hvisit
      | false =>
          have hslot : slot ∉ done :=
            fun hmem => absurd ((hdone slot).mp hmem) (lt_irrefl slot)
          exact pass_keep hpass hslot hdetach hvisit
    · constructor
      · exact hinv.linked
      · exact fun i _ => ⟨rfl, rfl⟩
      · intro i hi
        cases hi
      · exact fun i hlive _ => hinv.attached i hlive
      · intro j _ _ _ hearlier
        rcases hearlier with ⟨i, hi, _⟩
        cases hi
      · exact fun j _ hlive _ _ => hinv.attached j hlive
  constructor
  · exact hend.linked
  · intro i hlive
    exact hend.attached i hlive
      (hend.behind i (List.mem_finRange i) hlive).right.right.right

theorem passNext_invariant (hclients : PrivateIds clients) {l : PassLabel}
    (hinv : PassesInvariant clients s) (hrequest : RequestsOf clients l)
    (hguard : PassKeeps s l) (h : passNext boost s l = some s') :
    PassesInvariant clients s' := by
  cases l with
  | request clientId messageSize =>
      injection h with h
      rw [← h]
      exact passesInvariant_request hinv hrequest messageSize
  | close clientId =>
      injection h with h
      rw [← h]
      exact passesInvariant_close hinv clientId
  | pass => exact passesInvariant_pass hclients hinv hguard (returns_of_after h)

/--
In every run whose passes meet the condition, no live row that is not marked
loses a segment.
-/
theorem live_segments_kept (hclients : PrivateIds clients)
    (hreach : (passSystem boost).ReachableUnder
      (fun s l => RequestsOf clients l ∧ PassKeeps s l) s) :
    LiveAttached s := by
  have hinv : PassesInvariant clients s := by
    refine TransitionSystem.reachableUnder_invariant ?_ ?_ hreach
    · intro start hstart
      exact passesInvariant_start hstart
    · intro s l s' hs hguard hnext
      exact passNext_invariant hclients hs hguard.left hguard.right hnext
  intro i hlive _
  exact hinv.attached i hlive

end Steps

/-!
# Clients that open again
-/

/-- The clients with the ids 5 and 7. -/
def FiveOrSeven (clientId : Int) : Prop :=
  clientId = 5 ∨ clientId = 7

theorem fiveOrSeven_private : PrivateIds FiveOrSeven := by
  intro a b key ha hb _ hkey hkey'
  rcases ha with rfl | rfl
  · rcases hb with rfl | rfl
    · rfl
    · rcases hkey with rfl | rfl
      · exact absurd hkey' (by decide)
      · exact absurd hkey' (by decide)
  · rcases hb with rfl | rfl
    · rcases hkey with rfl | rfl
      · exact absurd hkey' (by decide)
      · exact absurd hkey' (by decide)
    · rfl

instance (clientId : Int) : Decidable (FiveOrSeven clientId) :=
  inferInstanceAs (Decidable (_ ∨ _))

instance (l : PassLabel) : Decidable (RequestsOf FiveOrSeven l) :=
  match l with
  | .request clientId _ => inferInstanceAs (Decidable (FiveOrSeven clientId))
  | .close _ => .isTrue trivial
  | .pass => .isTrue trivial

theorem freshServer_zeroed (boost : Int -> Int -> OsM ShmPair) :
    (passSystem boost).Initial freshServer :=
  rfl

theorem live_segments_kept_reopening :
    exists s, (passSystem boostOpenOrCreate).ReachableUnder
        (fun s l => RequestsOf FiveOrSeven l ∧ PassKeeps s l) s ∧
      Live s.header ⟨1, by decide⟩ ∧ LiveAttached s := by
  let slot : Slot := ⟨1, by decide⟩
  have hlive : (((passSystem boostOpenOrCreate).executeChecked
      (fun s l => decide (RequestsOf FiveOrSeven l ∧ PassKeeps s l)) freshServer
      [.request 5 64, .pass, .close 5, .request 5 64, .pass]).map
        fun s => decide (Live s.header slot)) = some true := by
    decide +kernel
  rcases Option.map_eq_some_iff.mp hlive with ⟨s, hexec, hs⟩
  have hreach : (passSystem boostOpenOrCreate).ReachableUnder
      (fun s l => RequestsOf FiveOrSeven l ∧ PassKeeps s l) s :=
    TransitionSystem.reachableUnder_of_executeChecked
      (fun s l h => of_decide_eq_true h) (freshServer_zeroed boostOpenOrCreate) hexec
  exact ⟨s, hreach, of_decide_eq_true hs, live_segments_kept fiveOrSeven_private hreach⟩

/-- The client with id 5 opens again in slot 0, which is serviced with its old
segments before slot 1 is cleared. -/
def reopenedLabels : List PassLabel :=
  [.request 7 64, .request 5 64, .pass, .close 7, .pass, .close 5, .request 5 64,
    .pass]

theorem live_segments_removed :
    ¬ forall (boost : Int -> Int -> OsM ShmPair) (clients : Int -> Prop)
      (s : ServerState), PrivateIds clients ->
      (passSystem boost).ReachableUnder (fun _ l => RequestsOf clients l) s ->
      LiveAttached s := by
  intro hclaim
  let slot : Slot := ⟨0, by decide⟩
  have hgone : (((passSystem boostOpenOrCreate).execute freshServer
      reopenedLabels).map fun s =>
        (decide (Live s.header slot), (s.header.slots slot).detach,
          (s.kernel.segments.entries
            (s.header.slots slot).shms.requestShm.shmid).isNone)) =
      some (true, false, true) := by
    decide +kernel
  rcases Option.map_eq_some_iff.mp hgone with ⟨s, hexec, hs⟩
  injection hs with hlive hs
  injection hs with hdetach hnone
  have hall : forall l, l ∈ reopenedLabels -> RequestsOf FiveOrSeven l := by
    decide
  have hreach : (passSystem boostOpenOrCreate).ReachableUnder
      (fun _ l => RequestsOf FiveOrSeven l) s :=
    TransitionSystem.reachableUnder_of_execute (freshServer_zeroed boostOpenOrCreate)
      hexec hall
  exact hclaim boostOpenOrCreate FiveOrSeven s fiveOrSeven_private hreach slot
    (of_decide_eq_true hlive) hdetach _ (Or.inl rfl) (Option.isNone_iff_eq_none.mp hnone)

end Rpc
end Notnets
