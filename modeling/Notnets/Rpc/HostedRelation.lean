import Notnets.Rpc.HostedCalls

/-!
# The service and the state of its system

How a state on the system goes with a state of the service: the addresses are those
of the segments that were made for the client, and the segments in the table of the
system are those of the rows.
-/

namespace Notnets
namespace Rpc

open Coord
open Foundation
open Os
open Queue

/-!
# The rows of POLL clients
-/

/-- A row is reserved for a client of POLL queues and marked only with its segments
made; without a reservation it has no segments. -/
def RowSettled (reserved : Bool) (row : CoordRow) : Prop :=
  if reserved then row.type = .poll ∧ (row.detach = true -> row.shmCreated = true)
  else row.shmCreated = false

def RowsSettled (header : CoordHeader) : Prop :=
  forall i, RowSettled (header.clientReserved i) (header.slots i)

section Rows

variable {S : Service} {s s' : ServiceState} {header header' : CoordHeader} {c : Int}

theorem RowsSettled.reserved (h : RowsSettled header) {i : Slot}
    (hreserved : header.clientReserved i = true) :
    (header.slots i).type = .poll ∧
      ((header.slots i).detach = true -> (header.slots i).shmCreated = true) := by
  have hrow := h i
  rw [RowSettled, if_pos hreserved] at hrow
  exact hrow

theorem RowsSettled.spare (h : RowsSettled header) {i : Slot}
    (hreserved : header.clientReserved i = false) :
    (header.slots i).shmCreated = false := by
  have hrow := h i
  rw [RowSettled, hreserved, if_neg Bool.false_ne_true] at hrow
  exact hrow

theorem RowsSettled.of_row (h : RowsSettled header) (slot : Slot)
    (hother : forall i, i ≠ slot -> header'.clientReserved i = header.clientReserved i ∧
      header'.slots i = header.slots i)
    (hself : RowSettled (header'.clientReserved slot) (header'.slots slot)) :
    RowsSettled header' := by
  intro i
  cases Decidable.em (i = slot) with
  | inl heq =>
      rw [heq]
      exact hself
  | inr hne =>
      rw [(hother i hne).left, (hother i hne).right]
      exact h i

theorem RowsSettled.setRow (h : RowsSettled header) {slot : Slot} {row : CoordRow}
    (htype : row.type = (header.slots slot).type)
    (hdetach : row.detach = (header.slots slot).detach)
    (hcreated : row.shmCreated = (header.slots slot).shmCreated) :
    RowsSettled (header.setRow slot row) := by
  apply h.of_row slot
  · intro i hi
    rw [CoordHeader.setRow_slots_of_ne _ _ _ hi]
    exact ⟨rfl, rfl⟩
  · have hrow := h slot
    rw [CoordHeader.setRow_slots_self]
    unfold RowSettled at hrow ⊢
    rw [htype, hdetach, hcreated]
    exact hrow

theorem requestStep_settled (h : RowsSettled s.header) (hnext : s.requestStep S c = some s') :
    RowsSettled s'.header := by
  unfold ServiceState.requestStep at hnext
  split at hnext
  · rcases requestSlot_cases s.header c (S.pipeline c).header.messageSize .poll with
      ⟨slot, _, hrequest⟩ | ⟨_, hrequest⟩
    · rw [hrequest] at hnext
      injection hnext with hnext
      rw [← hnext]
      apply h.of_row slot
      · intro i hi
        rw [CoordHeader.setReserved_slots, CoordHeader.setRow_slots_of_ne _ _ _ hi,
          CoordHeader.setReserved_clientReserved_of_ne _ _ _ hi]
        exact ⟨rfl, rfl⟩
      · rw [CoordHeader.setReserved_slots, CoordHeader.setRow_slots_self,
          CoordHeader.setReserved_clientReserved_self]
        exact ⟨rfl, nofun⟩
    · rw [hrequest] at hnext
      injection hnext with hnext
      rw [← hnext]
      exact h
  · cases hnext

theorem connectStep_settled (h : RowsSettled s.header) (hnext : s.connectStep c = some s') :
    RowsSettled s'.header := by
  unfold ServiceState.connectStep at hnext
  split at hnext
  · split at hnext
    · rename_i hcreated
      split at hnext
      · injection hnext with hnext
        rw [← hnext]
        exact h
      · injection hnext with hnext
        rw [← hnext]
        show RowsSettled (setClientAttachState _ _ _).1
        rw [setClientAttachState, if_pos hcreated]
        exact h.setRow rfl rfl rfl
    · injection hnext with hnext
      rw [← hnext]
      exact h
  · cases hnext

/-- A client closes only after its segments were made. -/
theorem closeStep_settled (hs : ServiceInvariant S s) (h : RowsSettled s.header)
    (hnext : s.closeStep c = some s') : RowsSettled s'.header := by
  have hclose : forall shms, s.stage c = .connected shms ->
      RowsSettled (clientClose s.header c).1 := by
    intro shms hconnected
    rcases (hs.connected c shms hconnected).right with ⟨i, hreserved, hid, _, hcreated⟩
    rcases clientClose_cases s.header c with ⟨slot, hmatch, hclose⟩ | ⟨_, hclose⟩
    · rw [hclose]
      apply h.of_row slot
      · intro j hj
        rw [markDetach, CoordHeader.setRow_slots_of_ne _ _ _ hj]
        exact ⟨rfl, rfl⟩
      · rw [markDetach, CoordHeader.setRow_slots_self, CoordHeader.setRow_clientReserved]
        cases hreservedSlot : s.header.clientReserved slot with
        | true =>
            have hsame := (matchingRow_eq_some_iff.mp hmatch).left
            have heq := hs.one slot i hreservedSlot hreserved (hsame.trans hid.symm)
            rw [heq]
            rw [heq] at hreservedSlot
            exact ⟨(h.reserved hreservedSlot).left, fun _ => hcreated⟩
        | false => exact h.spare hreservedSlot
    · rw [hclose]
      exact h
  unfold ServiceState.closeStep at hnext
  split at hnext
  · rename_i shms hconnected
    injection hnext with hnext
    rw [← hnext]
    exact hclose shms hconnected
  · rename_i hrefused
    exact absurd hrefused (hs.admitted c)
  · cases hnext

theorem visitWith_settled (h : RowsSettled header) (shms : ShmPair) (slot : Slot) :
    RowsSettled (visitWith shms header slot) := by
  apply h.of_row slot
  · intro i hi
    exact (visitWith_other shms header hi).symm
  · cases hdetach : (header.slots slot).detach with
    | true =>
        rw [(visitWith_detach shms header hdetach).left,
          (visitWith_detach shms header hdetach).right]
        rfl
    | false =>
        rw [visitWith_keep shms header hdetach, serviced_clientReserved]
        cases Decidable.em (NeedsService header slot) with
        | inl hneeds =>
            rw [serviced_of_needs shms hneeds, CoordHeader.setRow_slots_self, hneeds.left]
            exact ⟨(h.reserved hneeds.left).left, fun _ => rfl⟩
        | inr hneeds =>
            rw [serviced_of_not_needs shms hneeds]
            exact h slot

theorem visitStep_settled (h : RowsSettled s.header) (hnext : s.visitStep = some s') :
    RowsSettled s'.header := by
  unfold ServiceState.visitStep at hnext
  split at hnext
  · dsimp only at hnext
    split at hnext
    · cases hnext
    · injection hnext with hnext
      rw [← hnext]
      exact visitWith_settled h _ _
  · injection hnext with hnext
    rw [← hnext]
    exact visitWith_settled h _ _

theorem acceptStep_settled (h : RowsSettled s.header) : RowsSettled s.acceptStep.header := by
  unfold ServiceState.acceptStep
  split
  · exact h
  · rename_i slot hscan
    rcases eligible_iff.mp (acceptScan_eligible hscan) with ⟨_, hcreated, _⟩
    dsimp only
    split
    · exact h
    · rw [setServerAttachState, if_pos hcreated]
      have hturned : RowsSettled
          { s.header with acceptSlot := (slot.val + 1) % slotNum } := h
      exact hturned.setRow rfl rfl rfl

theorem serviceNext_settled {l : ServiceLabel} (hs : ServiceInvariant S s)
    (h : RowsSettled s.header) (hnext : serviceNext S s l = some s') :
    RowsSettled s'.header := by
  cases l with
  | request c => exact requestStep_settled h hnext
  | connect c => exact connectStep_settled h hnext
  | run c =>
      unfold serviceNext ServiceState.runStep at hnext
      dsimp only at hnext
      split at hnext
      · rcases Option.map_eq_some_iff.mp hnext with ⟨t, _, rfl⟩
        exact h
      · cases hnext
  | close c => exact closeStep_settled hs h hnext
  | visit => exact visitStep_settled h hnext
  | accept =>
      cases hnext
      exact acceptStep_settled h
  | serve c =>
      unfold serviceNext ServiceState.serveStep at hnext
      dsimp only at hnext
      split at hnext
      · rcases Option.map_eq_some_iff.mp hnext with ⟨t, _, rfl⟩
        exact h
      · cases hnext

end Rows

/-!
# The segments of the rows
-/

def pairAt (header : CoordHeader) (i : Slot) : Option ShmPair :=
  if header.clientReserved i && (header.slots i).shmCreated then
    some (header.slots i).shms
  else
    none

def RowSegment (header : CoordHeader) (id : Int) : Prop :=
  exists i p, pairAt header i = some p ∧
    (id = p.requestShm.shmid ∨ id = p.responseShm.shmid)

section Pairs

variable {header header' : CoordHeader} {i slot : Slot} {id : Int}

theorem pairAt_eq_some {p : ShmPair} :
    pairAt header i = some p <-> header.clientReserved i = true ∧
      (header.slots i).shmCreated = true ∧ (header.slots i).shms = p := by
  unfold pairAt
  split
  · rename_i hboth
    rw [Bool.and_eq_true] at hboth
    constructor
    · intro heq
      injection heq with heq
      exact ⟨hboth.left, hboth.right, heq⟩
    · intro hall
      rw [hall.right.right]
  · rename_i hnot
    constructor
    · nofun
    · intro hall
      exact absurd (by rw [hall.left, hall.right.left]; rfl) hnot

theorem RowSegment.of_row (hreserved : header.clientReserved i = true)
    (hcreated : (header.slots i).shmCreated = true) :
    RowSegment header (header.slots i).shms.requestShm.shmid ∧
      RowSegment header (header.slots i).shms.responseShm.shmid := by
  have hpair : pairAt header i = some (header.slots i).shms :=
    pairAt_eq_some.mpr ⟨hreserved, hcreated, rfl⟩
  exact ⟨⟨i, _, hpair, Or.inl rfl⟩, ⟨i, _, hpair, Or.inr rfl⟩⟩

theorem rowSegment_congr (h : pairAt header' = pairAt header) :
    RowSegment header' id <-> RowSegment header id := by
  unfold RowSegment
  rw [h]

theorem pairAt_setRow {row : CoordRow}
    (hcreated : row.shmCreated = (header.slots slot).shmCreated)
    (hshms : row.shms = (header.slots slot).shms) :
    pairAt (header.setRow slot row) = pairAt header := by
  funext i
  unfold pairAt
  rw [CoordHeader.setRow_clientReserved]
  cases Decidable.em (i = slot) with
  | inl heq => rw [heq, CoordHeader.setRow_slots_self, hcreated, hshms]
  | inr hne => rw [CoordHeader.setRow_slots_of_ne _ _ _ hne]

theorem rowSegment_added {p : ShmPair} (hbefore : pairAt header slot = none)
    (hafter : pairAt header' slot = some p)
    (hother : forall i, i ≠ slot -> pairAt header' i = pairAt header i) :
    RowSegment header' id <->
      (id = p.requestShm.shmid ∨ id = p.responseShm.shmid) ∨ RowSegment header id := by
  constructor
  · intro hsegment
    rcases hsegment with ⟨i, q, hq, hid⟩
    cases Decidable.em (i = slot) with
    | inl heq =>
        rw [heq, hafter] at hq
        injection hq with hq
        rw [← hq] at hid
        exact Or.inl hid
    | inr hne => exact Or.inr ⟨i, q, (hother i hne).symm.trans hq, hid⟩
  · intro hcases
    cases hcases with
    | inl hid => exact ⟨slot, p, hafter, hid⟩
    | inr hsegment =>
        rcases hsegment with ⟨i, q, hq, hid⟩
        have hne : i ≠ slot := by
          intro heq
          rw [heq, hbefore] at hq
          cases hq
        exact ⟨i, q, (hother i hne).trans hq, hid⟩

theorem pairAt_visitWith_of_ne (shms : ShmPair) (hne : i ≠ slot) :
    pairAt (visitWith shms header slot) i = pairAt header i := by
  rcases visitWith_other shms header hne with ⟨hrow, hreserved⟩
  unfold pairAt
  rw [hrow, hreserved]

end Pairs

/-!
# The relation
-/

/-- What `shm_attach` returns for the two segments. -/
def queuePairOf (p : ShmPair) : QueuePair where
  requestShmaddr := some p.requestShm.shmid
  responseShmaddr := some p.responseShm.shmid

def ClientStage.hosted : ClientStage -> HostedStage
  | .opening => .opening
  | .waiting slot => .waiting slot
  | .connected shms => .connected (queuePairOf shms)
  | .refused => .refused
  | .closed => .closed

def Worker.hosted (worker : Worker) : HostedWorker where
  pair := queuePairOf worker.shms
  place := worker.place

structure Accounted (k : Kernel) (s : ServiceState) (t : IpcTable Segment) : Prop where
  next : (t.next : Int) = s.nextShmid
  later : k.segments.next ≤ t.next
  old : forall id : Int, id < k.segments.next -> t.entries id = k.segments.entries id
  made : forall c p, s.made c = some p ->
    exists n : Int, k.segments.next ≤ n ∧ p = newPair c n
  new : forall id : Int, k.segments.next ≤ id ->
    (t.entries id ≠ none <-> RowSegment s.header id)
  keys : forall c p, s.made c = some p -> forall e,
    (t.entries p.requestShm.shmid = some e -> e.key = p.requestShm.key) ∧
      (t.entries p.responseShm.shmid = some e -> e.key = p.responseShm.key)

/-- The state on the system that the kernel was at the start, and the state of the
service. -/
structure Hosts (k : Kernel) (h : HostedState) (s : ServiceState) : Prop where
  header : h.header = s.header
  cursor : h.cursor = s.cursor
  calls : h.kernel.faults = []
  segments : Accounted k s h.kernel.segments
  stage : forall c, h.stage c = (s.stage c).hosted
  clients : h.clients = s.clients
  workers : forall c, h.workers c = (s.workers c).map Worker.hosted
  queues : forall c p, s.made c = some p ->
    h.queueAt p.requestShm.shmid = s.queues p.requestShm.shmid ∧
      h.queueAt p.responseShm.shmid = s.queues p.responseShm.shmid

section Relation

variable {S : Service} {k : Kernel} {h : HostedState} {s s' : ServiceState}
  {t t' : IpcTable Segment} {c : Int}

theorem Accounted.of_same (ha : Accounted k s t) (hnext : s'.nextShmid = s.nextShmid)
    (hmade : s'.made = s.made) (hheader : pairAt s'.header = pairAt s.header) :
    Accounted k s' t where
  next := ha.next.trans hnext.symm
  later := ha.later
  old := ha.old
  made := by
    rw [hmade]
    exact ha.made
  new := fun id hid => (ha.new id hid).trans (rowSegment_congr hheader).symm
  keys := by
    rw [hmade]
    exact ha.keys

theorem Accounted.free (ha : Accounted k s t) (hs : ServiceInvariant S s)
    (hk : KeysFree S k) (hclient : S.isClient c = true) (hnone : s.made c = none) {id : Int}
    {e : IpcEntry Segment} (hentry : t.entries id = some e) :
    e.key ≠ (derivedKeys .hash c).1 ∧ e.key ≠ (derivedKeys .hash c).2 := by
  cases Decidable.em (id < k.segments.next) with
  | inl hlow =>
      rw [ha.old id hlow] at hentry
      exact hk.free c hclient id e hentry
  | inr hhigh =>
      have huse : RowSegment s.header id := by
        apply (ha.new id (by lia)).mp
        rw [hentry]
        exact Option.some_ne_none e
      rcases huse with ⟨i, p, hpair, hid⟩
      rcases pairAt_eq_some.mp hpair with ⟨hreserved, hcreated, hshms⟩
      have hrow := hs.row i hreserved
      have hmade := hrow.made hcreated
      rw [hshms] at hmade
      have hne : (s.header.slots i).clientId ≠ c := by
        intro heq
        rw [heq, hnone] at hmade
        cases hmade
      have hapart := S.apart _ c hrow.client hclient hne
      have hkeys := ha.keys _ p hmade e
      rcases ha.made _ p hmade with ⟨n, _, hp⟩
      have hmember : e.key ∈ [(derivedKeys .hash (s.header.slots i).clientId).1,
          (derivedKeys .hash (s.header.slots i).clientId).2] := by
        cases hid with
        | inl hrequest =>
            rw [hrequest] at hentry
            rw [hkeys.left hentry, hp]
            exact List.mem_cons_self
        | inr hresponse =>
            rw [hresponse] at hentry
            rw [hkeys.right hentry, hp]
            exact List.mem_cons_of_mem _ List.mem_cons_self
      have hnot : e.key ∉ [(derivedKeys .hash c).1, (derivedKeys .hash c).2] :=
        fun hmember' => hapart hmember hmember'
      rw [List.mem_cons, List.mem_singleton, not_or] at hnot
      exact hnot

theorem ServiceInvariant.row_pair (hs : ServiceInvariant S s) (ha : Accounted k s t)
    {i : Slot} (hreserved : s.header.clientReserved i = true)
    (hcreated : (s.header.slots i).shmCreated = true) :
    exists n : Int, k.segments.next ≤ n ∧
      (s.header.slots i).shms = newPair (s.header.slots i).clientId n :=
  ha.made _ _ ((hs.row i hreserved).made hcreated)

theorem Accounted.present (ha : Accounted k s t) (hs : ServiceInvariant S s) {i : Slot}
    (hreserved : s.header.clientReserved i = true)
    (hcreated : (s.header.slots i).shmCreated = true) :
    (exists e, t.entries (s.header.slots i).shms.requestShm.shmid = some e) ∧
      exists e, t.entries (s.header.slots i).shms.responseShm.shmid = some e := by
  rcases hs.row_pair ha hreserved hcreated with ⟨n, hn, hpair⟩
  have hsegments := RowSegment.of_row hreserved hcreated
  have hlow : (k.segments.next : Int) ≤ (s.header.slots i).shms.requestShm.shmid ∧
      (k.segments.next : Int) ≤ (s.header.slots i).shms.responseShm.shmid := by
    rw [hpair]
    exact ⟨hn, Int.le_add_one hn⟩
  exact ⟨Option.ne_none_iff_exists'.mp ((ha.new _ hlow.left).mpr hsegments.left),
    Option.ne_none_iff_exists'.mp ((ha.new _ hlow.right).mpr hsegments.right)⟩

/-- Nobody waits for the keys of a row that has its segments. -/
theorem ServiceInvariant.keys_set (hs : ServiceInvariant S s) (ha : Accounted k s t)
    {i : Slot} (hreserved : s.header.clientReserved i = true)
    (hcreated : (s.header.slots i).shmCreated = true) :
    keysMissing (s.header.slots i).shms = false := by
  rcases hs.row_pair ha hreserved hcreated with ⟨n, _, hpair⟩
  have hkeys := S.nonzero _ (hs.row i hreserved).client
  rw [hpair, keysMissing, Bool.or_eq_false_iff]
  exact ⟨beq_false_of_ne hkeys.left, beq_false_of_ne hkeys.right⟩

theorem Accounted.touched (ha : Accounted k s t) {id : Int} (hid : k.segments.next ≤ id)
    (ht : IpcTable.Touched id t t') : Accounted k s t' where
  next := by
    rw [ht.next]
    exact ha.next
  later := by
    rw [ht.next]
    exact ha.later
  old := fun other hother => (ht.other other (by lia)).trans (ha.old other hother)
  made := ha.made
  new := by
    intro other hother
    rw [← ha.new other hother]
    cases Decidable.em (other = id) with
    | inl heq =>
        have hsame := ht.same
        rw [heq]
        constructor
        · intro hafter hbefore
          rw [hbefore] at hsame
          exact hafter (Option.map_eq_none_iff.mp hsame)
        · intro hbefore hafter
          rw [hafter] at hsame
          exact hbefore (Option.map_eq_none_iff.mp hsame.symm)
    | inr hne => rw [ht.other other hne]
  keys := by
    intro d p hmade e
    have hkey : forall {j e}, t'.entries j = some e ->
        exists e', t.entries j = some e' ∧ e'.key = e.key := by
      intro j e hj
      cases Decidable.em (j = id) with
      | inl heq =>
          have hsame := ht.same
          rw [heq] at hj
          rw [hj] at hsame
          rcases Option.map_eq_some_iff.mp hsame.symm with ⟨e', he', hkey⟩
          exact ⟨e', by rw [heq]; exact he', hkey⟩
      | inr hne => exact ⟨e, (ht.other j hne).symm.trans hj, rfl⟩
    constructor
    · intro hentry
      rcases hkey hentry with ⟨e', he', hsame⟩
      rw [← hsame]
      exact (ha.keys d p hmade e').left he'
    · intro hentry
      rcases hkey hentry with ⟨e', he', hsame⟩
      rw [← hsame]
      exact (ha.keys d p hmade e').right he'

/-!
# What the steps keep of it
-/

theorem Hosts.of_table (hh : Hosts k h s) {header : CoordHeader}
    {stage : Int -> ClientStage} {stage' : Int -> HostedStage}
    {workers : Int -> Option Worker} {workers' : Int -> Option HostedWorker}
    (hpairs : pairAt header = pairAt s.header)
    (hstage : forall c, stage' c = (stage c).hosted)
    (hworkers : forall c, workers' c = (workers c).map Worker.hosted) :
    Hosts k { h with header := header, stage := stage', workers := workers' }
      { s with header := header, stage := stage, workers := workers } where
  header := rfl
  cursor := hh.cursor
  calls := hh.calls
  segments := hh.segments.of_same rfl rfl hpairs
  stage := hstage
  clients := hh.clients
  workers := hworkers
  queues := hh.queues

theorem hosted_update (hh : Hosts k h s) (c : Int) (stage : ClientStage) :
    forall d, Function.update h.stage c stage.hosted d =
      (Function.update s.stage c stage d).hosted := by
  intro d
  cases Decidable.em (d = c) with
  | inl heq => rw [heq, Function.update_self, Function.update_self]
  | inr hne => rw [Function.update_of_ne hne, Function.update_of_ne hne, hh.stage d]

theorem employed_update (hh : Hosts k h s) (c : Int) (worker : Worker) :
    forall d, Function.update h.workers c (some worker.hosted) d =
      (Function.update s.workers c (some worker) d).map Worker.hosted := by
  intro d
  cases Decidable.em (d = c) with
  | inl heq =>
      rw [heq, Function.update_self, Function.update_self]
      rfl
  | inr hne => rw [Function.update_of_ne hne, Function.update_of_ne hne, hh.workers d]

theorem Hosts.written (hh : Hosts k h s) (hs : ServiceInvariant S s) {p : ShmPair}
    (hmade : s.made c = some p) (t : PipelineState) :
    Hosts k (h.setQueuesAt p.requestShm.shmid p.responseShm.shmid t)
      (s.setQueues p t) where
  header := hh.header
  cursor := hh.cursor
  calls := hh.calls
  segments := by
    rcases hh.segments.made c p hmade with ⟨n, hn, hp⟩
    have hlow : (k.segments.next : Int) ≤ p.requestShm.shmid ∧
        (k.segments.next : Int) ≤ p.responseShm.shmid := by
      rw [hp]
      exact ⟨hn, Int.le_add_one hn⟩
    have hrequest := hh.segments.touched hlow.left
      (h.setQueueAt_touched p.requestShm.shmid t.requests.queue)
    have hboth := hrequest.touched hlow.right
      (HostedState.setQueueAt_touched _ p.responseShm.shmid t.responses.queue)
    exact hboth.of_same rfl rfl rfl
  stage := hh.stage
  clients := hh.clients
  workers := hh.workers
  queues := by
    intro d q hq
    have hids := (hs.books.shmids c p hmade).right.right
    unfold HostedState.setQueuesAt
    cases Decidable.em (d = c) with
    | inl heq =>
        rw [heq] at hq
        have hsame : q = p := Option.some.inj (hq.symm.trans hmade)
        have hqueues := setQueues_self (s := s) (t := t) hids
        rw [hsame, hqueues.left, hqueues.right, HostedState.queueAt_setQueueAt_self,
          HostedState.queueAt_setQueueAt_of_ne _ hids, HostedState.queueAt_setQueueAt_self]
        exact ⟨rfl, rfl⟩
    | inr hne =>
        have hapart := hs.books.apart d c q p hq hmade hne
        have hqueues := setQueues_apart (s := s) (t := t) hapart
        rw [hqueues.left, hqueues.right,
          HostedState.queueAt_setQueueAt_of_ne _ hapart.crossed,
          HostedState.queueAt_setQueueAt_of_ne _ hapart.requests,
          HostedState.queueAt_setQueueAt_of_ne _ hapart.responses,
          HostedState.queueAt_setQueueAt_of_ne _ hapart.crossed']
        exact hh.queues d q hq

end Relation

end Rpc
end Notnets
