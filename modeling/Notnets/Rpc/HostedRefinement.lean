import Notnets.Rpc.HostedRelation

/-!
# The service does what its system allows

Step by step, the service on its system and the service with its numbered queues do
the same, and no call to the system fails.
-/

namespace Notnets
namespace Rpc

open Coord
open Foundation
open Os
open Queue

/-!
# The steps
-/

section Steps

variable {S : Service} {boost : Int -> Int -> OsM ShmPair} {k : Kernel} {h : HostedState}
  {s : ServiceState}

theorem hosts_request (hh : Hosts k h s) (c : Int) :
    Option.Rel (Hosts k) (h.requestStep S c) (s.requestStep S c) := by
  unfold HostedState.requestStep ServiceState.requestStep
  rw [hh.stage c, hh.header]
  cases S.isClient c with
  | false => exact Option.Rel.none
  | true =>
      cases s.stage c with
      | opening =>
          rcases requestSlot_cases s.header c (S.pipeline c).header.messageSize .poll with
            ⟨slot, hfree, hrequest⟩ | ⟨_, hrequest⟩
          · simp only [ClientStage.hosted, hrequest]
            apply Option.Rel.some
            apply hh.of_table
            · have hunreserved := (freeSlot_eq_some_iff.mp hfree).left
              funext i
              unfold pairAt
              rw [CoordHeader.setReserved_slots]
              cases Decidable.em (i = slot) with
              | inl heq =>
                  rw [heq, CoordHeader.setRow_slots_self, hunreserved]
                  exact if_neg (by rw [requestRow, Bool.and_false]; exact Bool.false_ne_true)
              | inr hne =>
                  rw [CoordHeader.setRow_slots_of_ne _ _ _ hne,
                    CoordHeader.setReserved_clientReserved_of_ne _ _ _ hne,
                    CoordHeader.setRow_clientReserved]
            · exact hosted_update hh c (.waiting slot)
            · exact hh.workers
          · simp only [ClientStage.hosted, hrequest]
            exact Option.Rel.some hh
      | waiting slot => exact Option.Rel.none
      | connected shms => exact Option.Rel.none
      | refused => exact Option.Rel.none
      | closed => exact Option.Rel.none

theorem hosts_connect (hs : ServiceInvariant S s) (hh : Hosts k h s) (c : Int) :
    Option.Rel (Hosts k) (h.connectStep c) (s.connectStep c) := by
  unfold HostedState.connectStep ServiceState.connectStep
  rw [hh.stage c, hh.header]
  cases hstage : s.stage c with
  | waiting slot =>
      rcases hs.waiting c slot hstage with ⟨hreserved, _, _, hattached⟩
      simp only [ClientStage.hosted]
      split
      · rename_i hcreated
        rcases hh.segments.present hs hreserved hcreated with
          ⟨⟨request, hrequest⟩, response, hresponse⟩
        have hreturns := createClientQueuePair_returns hh.calls hcreated
          (hs.keys_set hh.segments hreserved hcreated) hattached hrequest hresponse
        rw [returnOf_of_returns hreturns, getClientAttachState, if_pos hcreated, hattached,
          checkSlot, if_pos hcreated]
        apply Option.Rel.some
        apply hh.of_table
        · rw [setClientAttachState, if_pos hcreated]
          exact pairAt_setRow rfl rfl
        · exact hosted_update hh c (.connected (s.header.slots slot).shms)
        · exact hh.workers
      · exact Option.Rel.some hh
  | opening => exact Option.Rel.none
  | connected shms => exact Option.Rel.none
  | refused => exact Option.Rel.none
  | closed => exact Option.Rel.none

theorem hosts_close (hh : Hosts k h s) (c : Int) :
    Option.Rel (Hosts k) (h.closeStep c) (s.closeStep c) := by
  have hclosed : Hosts k
      { h with
        header := (clientClose s.header c).1
        stage := Function.update h.stage c .closed }
      { s with
        header := (clientClose s.header c).1
        stage := Function.update s.stage c .closed } := by
    apply hh.of_table
    · rcases clientClose_cases s.header c with ⟨slot, _, hclose⟩ | ⟨_, hclose⟩
      · rw [hclose]
        exact pairAt_setRow rfl rfl
      · rw [hclose]
    · exact hosted_update hh c .closed
    · exact hh.workers
  unfold HostedState.closeStep ServiceState.closeStep
  rw [hh.stage c, hh.header]
  cases s.stage c with
  | connected shms => exact Option.Rel.some hclosed
  | refused => exact Option.Rel.some hclosed
  | opening => exact Option.Rel.none
  | waiting slot => exact Option.Rel.none
  | closed => exact Option.Rel.none

theorem hosts_run (hs : ServiceInvariant S s) (hh : Hosts k h s) (c : Int) :
    Option.Rel (Hosts k) (h.runStep S c) (s.runStep S c) := by
  unfold HostedState.runStep ServiceState.runStep
  rw [hh.stage c, hh.clients]
  cases hstage : s.stage c with
  | connected shms =>
      have hmade := (hs.connected c shms hstage).left
      have hqueues := hh.queues c shms hmade
      simp only [ClientStage.hosted, queuePairOf]
      rw [hqueues.left, hqueues.right]
      cases clientNext (S.pipeline c) (joined (s.queues shms.requestShm.shmid)
          (s.queues shms.responseShm.shmid) (s.clients c) ServerEnd.start) with
      | none => exact Option.Rel.none
      | some t =>
          apply Option.Rel.some
          have hwritten := hh.written hs hmade t
          exact
            { header := hwritten.header
              cursor := hwritten.cursor
              calls := hwritten.calls
              segments := hwritten.segments.of_same rfl rfl rfl
              stage := hwritten.stage
              clients := rfl
              workers := hwritten.workers
              queues := hwritten.queues }
  | opening => exact Option.Rel.none
  | waiting slot => exact Option.Rel.none
  | refused => exact Option.Rel.none
  | closed => exact Option.Rel.none

theorem hosts_serve (hs : ServiceInvariant S s) (hh : Hosts k h s) (c : Int) :
    Option.Rel (Hosts k) (h.serveStep S c) (s.serveStep S c) := by
  unfold HostedState.serveStep ServiceState.serveStep
  rw [hh.workers c]
  cases hworker : s.workers c with
  | none => exact Option.Rel.none
  | some worker =>
      have hmade := hs.books.worker c worker hworker
      have hqueues := hh.queues c worker.shms hmade
      simp only [Option.map_some, Worker.hosted, queuePairOf]
      rw [hqueues.left, hqueues.right]
      cases serverNext (S.pipeline c) (joined (s.queues worker.shms.requestShm.shmid)
          (s.queues worker.shms.responseShm.shmid) ClientEnd.start worker.place) with
      | none => exact Option.Rel.none
      | some t =>
          apply Option.Rel.some
          have hwritten := hh.written hs hmade t
          exact
            { header := hwritten.header
              cursor := hwritten.cursor
              calls := hwritten.calls
              segments := hwritten.segments.of_same rfl rfl rfl
              stage := hwritten.stage
              clients := hwritten.clients
              workers := employed_update hh c { worker with place := t.serverEnd }
              queues := hwritten.queues }

theorem hosts_accept (hs : ServiceInvariant S s) (hh : Hosts k h s) :
    Option.Rel (Hosts k) h.acceptStep (some s.acceptStep) := by
  unfold HostedState.acceptStep ServiceState.acceptStep
  rw [hh.header]
  cases hscan : acceptScan s.header with
  | none =>
      rw [returnOf_of_returns (accept_nothing hscan)]
      exact Option.Rel.some (hh.of_table rfl hh.stage hh.workers)
  | some slot =>
      rcases eligible_iff.mp (acceptScan_eligible hscan) with ⟨hreserved, hcreated, _⟩
      have hkeys := hs.keys_set hh.segments hreserved hcreated
      rcases hh.segments.present hs hreserved hcreated with
        ⟨⟨request, hrequest⟩, response, hresponse⟩
      dsimp only
      rw [getServerAttachState, if_pos hcreated]
      cases hattached : (s.header.slots slot).serverAttached with
      | true =>
          rw [returnOf_of_returns (accept_again hscan hkeys hattached)]
          exact Option.Rel.some (hh.of_table rfl hh.stage hh.workers)
      | false =>
          rw [returnOf_of_returns
            (accept_first hh.calls hscan hkeys hattached hrequest hresponse),
            getClientId, if_pos hcreated, checkSlot, if_pos hcreated]
          apply Option.Rel.some
          apply hh.of_table
          · have hturned : ((turned s.header slot).slots slot).shmCreated = true := hcreated
            rw [setServerAttachState, if_pos hturned]
            exact pairAt_setRow rfl rfl
          · exact hh.stage
          · exact employed_update hh _ ⟨(s.header.slots slot).shms, ServerEnd.start⟩

/-!
# The visits
-/

theorem queueAt_afterVisit (h : HostedState) (header : CoordHeader) {kernel : Kernel}
    {id : Int} (hentry : kernel.segments.entries id = h.kernel.segments.entries id ∨
      kernel.segments.entries id = none) :
    (h.afterVisit header kernel).queueAt id = h.queueAt id := by
  rw [HostedState.queueAt]
  simp only [HostedState.afterVisit]
  cases hafter : kernel.segments.entries id with
  | none => rfl
  | some e =>
      rw [hafter] at hentry
      cases hentry with
      | inl hsame => rw [HostedState.queueAt, ← hsame]
      | inr hnone => cases hnone

theorem Hosts.visited (hh : Hosts k h s) {header : CoordHeader} {kernel : Kernel}
    {nextShmid : Int} {queues : Int -> SpscQueue} {made : Int -> Option ShmPair}
    (hcalls : kernel.faults = [])
    (hsegments : Accounted k { s with
      header := header, nextShmid := nextShmid, made := made } kernel.segments)
    (hqueues : forall c p, made c = some p ->
      (h.afterVisit header kernel).queueAt p.requestShm.shmid =
          queues p.requestShm.shmid ∧
        (h.afterVisit header kernel).queueAt p.responseShm.shmid =
          queues p.responseShm.shmid) :
    Hosts k (h.afterVisit header kernel)
      { s with
        header := header
        cursor := nextSlot s.cursor
        nextShmid := nextShmid
        queues := queues
        made := made } where
  header := rfl
  cursor := congrArg nextSlot hh.cursor
  calls := hcalls
  segments := hsegments.of_same rfl rfl rfl
  stage := hh.stage
  clients := hh.clients
  workers := hh.workers
  queues := hqueues

theorem Accounted.allocated {k' k'' : Kernel} {s' : ServiceState} {c : Int}
    {queue : SpscQueueHeader} (ha : Accounted k s k'.segments) (hs : ServiceInvariant S s)
    (hpair : PairMade c queue k' k'') (hnext : s'.nextShmid = s.nextShmid + 2)
    (hmade : s'.made = Function.update s.made c (some (newPair c s.nextShmid)))
    (hsegments : forall id, RowSegment s'.header id <->
      (id = s.nextShmid ∨ id = s.nextShmid + 1) ∨ RowSegment s.header id) :
    Accounted k s' k''.segments := by
  have hlater := ha.later
  have hids := ha.next
  have hself : s'.made c = some (newPair c s.nextShmid) := by
    rw [hmade, Function.update_self]
  have hkept : forall d, d ≠ c -> s'.made d = s.made d := by
    intro d hd
    rw [hmade, Function.update_of_ne hd]
  have hrequest := hpair.request
  have hresponse := hpair.response
  have hother := hpair.other
  rw [hids] at hrequest hresponse hother
  constructor
  · rw [hpair.next, hnext]
    lia
  · rw [hpair.next]
    lia
  · intro id hid
    rw [hother id (by lia) (by lia)]
    exact ha.old id hid
  · intro d p hp
    cases Decidable.em (d = c) with
    | inl heq =>
        rw [heq, hself] at hp
        injection hp with hp
        rw [heq]
        exact ⟨s.nextShmid, by lia, hp.symm⟩
    | inr hne => exact ha.made d p ((hkept d hne).symm.trans hp)
  · intro id hid
    rw [hsegments id]
    cases Decidable.em (id = s.nextShmid) with
    | inl heq =>
        rw [heq, hrequest]
        exact iff_of_true (Option.some_ne_none _) (Or.inl (Or.inl rfl))
    | inr hnot =>
        cases Decidable.em (id = s.nextShmid + 1) with
        | inl heq =>
            rw [heq, hresponse]
            exact iff_of_true (Option.some_ne_none _) (Or.inl (Or.inr rfl))
        | inr hnot' =>
            rw [hother id hnot hnot', ha.new id hid]
            exact (or_iff_right fun hnew => hnew.elim hnot hnot').symm
  · intro d p hp e
    cases Decidable.em (d = c) with
    | inl heq =>
        rw [heq, hself] at hp
        injection hp with hp
        rw [← hp]
        show (k''.segments.entries s.nextShmid = some e -> _) ∧
          (k''.segments.entries (s.nextShmid + 1) = some e -> _)
        rw [hrequest, hresponse]
        constructor
        · intro he
          injection he with he
          rw [← he]
          rfl
        · intro he
          injection he with he
          rw [← he]
          rfl
    | inr hne =>
        have hp := (hkept d hne).symm.trans hp
        have hlow := hs.books.shmids d p hp
        rw [hother p.requestShm.shmid (by lia) (by lia),
          hother p.responseShm.shmid (by lia) (by lia)]
        exact ha.keys d p hp e

theorem Accounted.removed {t : IpcTable Segment} {s' : ServiceState} {p : ShmPair}
    (ha : Accounted k s t)
    (hlow : (k.segments.next : Int) ≤ p.requestShm.shmid ∧
      (k.segments.next : Int) ≤ p.responseShm.shmid)
    (hnext : s'.nextShmid = s.nextShmid) (hmade : s'.made = s.made)
    (hsegments : forall id, RowSegment s.header id <->
      (id = p.requestShm.shmid ∨ id = p.responseShm.shmid) ∨ RowSegment s'.header id)
    (hgone : ¬ RowSegment s'.header p.requestShm.shmid ∧
      ¬ RowSegment s'.header p.responseShm.shmid) :
    Accounted k s' (t.removeAll [p.requestShm.shmid, p.responseShm.shmid]) := by
  have hmember : forall id, id ∈ [p.requestShm.shmid, p.responseShm.shmid] <->
      id = p.requestShm.shmid ∨ id = p.responseShm.shmid := by
    intro id
    rw [List.mem_cons, List.mem_singleton]
  have hnone : forall id, id = p.requestShm.shmid ∨ id = p.responseShm.shmid ->
      (t.removeAll [p.requestShm.shmid, p.responseShm.shmid]).entries id = none :=
    fun id hid => IpcTable.removeAll_of_mem ((hmember id).mpr hid)
  have hentries : forall id, ¬ (id = p.requestShm.shmid ∨ id = p.responseShm.shmid) ->
      (t.removeAll [p.requestShm.shmid, p.responseShm.shmid]).entries id =
        t.entries id :=
    fun id hid => IpcTable.removeAll_of_not_mem fun hmem => hid ((hmember id).mp hmem)
  have hkept : forall {id e},
      (t.removeAll [p.requestShm.shmid, p.responseShm.shmid]).entries id = some e ->
        t.entries id = some e := by
    intro id e he
    rw [hentries id] at he
    · exact he
    · intro heq
      rw [hnone id heq] at he
      cases he
  constructor
  · rw [hnext]
    exact ha.next
  · exact ha.later
  · intro id hid
    rw [hentries id (by lia)]
    exact ha.old id hid
  · rw [hmade]
    exact ha.made
  · intro id hid
    cases Decidable.em (id = p.requestShm.shmid ∨ id = p.responseShm.shmid) with
    | inl heq =>
        rw [hnone id heq]
        apply iff_of_false (fun hne => hne rfl)
        cases heq with
        | inl hrequest =>
            rw [hrequest]
            exact hgone.left
        | inr hresponse =>
            rw [hresponse]
            exact hgone.right
    | inr hne =>
        rw [hentries id hne, ha.new id hid, hsegments id]
        exact or_iff_right hne
  · intro d q hq e
    rw [hmade] at hq
    have hkeys := ha.keys d q hq e
    exact ⟨fun hentry => hkeys.left (hkept hentry), fun hentry => hkeys.right (hkept hentry)⟩

theorem hosts_visit_makes (hk : KeysFree S k) (hs : ServiceInvariant S s)
    (hrows : RowsSettled s.header) (hh : Hosts k h s)
    (hneeds : NeedsService s.header s.cursor) :
    Option.Rel (Hosts k) (h.visitStep boost) s.visitStep := by
  have hrow := hs.row s.cursor hneeds.left
  have hunmade := hrow.unmade hneeds.right
  have hdetach : (s.header.slots s.cursor).detach = false := by
    cases hmark : (s.header.slots s.cursor).detach with
    | false => rfl
    | true =>
        have hcreated := (hrows.reserved hneeds.left).right hmark
        rw [hneeds.right] at hcreated
        cases hcreated
  have hint := S.isInt _ hrow.client
  rcases S.created _ hrow.client with ⟨usable, hcreate⟩
  have hsize : queueCreate queueRegionSize
      (toSizeT (s.header.slots s.cursor).messageSize) =
        .ok ((S.pipeline (s.header.slots s.cursor).clientId).header, usable) := by
    rw [hrow.size, toSizeT_natCast (by lia)]
    exact hcreate
  rcases hash_makes hh.calls (S.ownKeys _ hrow.client)
    (fun id e he => hh.segments.free hs hk hrow.client hunmade he) hsize with
    ⟨k', hallocator, hpair⟩
  have hrun : Returns ((poolOps boost).run (allocatorOf (s.header.slots s.cursor).type)
      (s.header.slots s.cursor).messageSize (s.header.slots s.cursor).clientId) h.kernel
      (newPair (s.header.slots s.cursor).clientId h.kernel.segments.next) k' := by
    rw [(hrows.reserved hneeds.left).left]
    exact hallocator
  have hvisit := visit_services hneeds hdetach hrun
  rw [← visitWith_keep _ _ hdetach, hh.segments.next] at hvisit
  have hbefore : pairAt s.header s.cursor = none := by
    unfold pairAt
    rw [hneeds.right, Bool.and_false]
    rfl
  have hafter : pairAt (visitWith (newPair (s.header.slots s.cursor).clientId s.nextShmid)
      s.header s.cursor) s.cursor =
        some (newPair (s.header.slots s.cursor).clientId s.nextShmid) := by
    rw [visitWith_keep _ _ hdetach, serviced_of_needs _ hneeds]
    apply pairAt_eq_some.mpr
    rw [CoordHeader.setRow_slots_self, CoordHeader.setRow_clientReserved]
    exact ⟨hneeds.left, rfl, rfl⟩
  have hids := hh.segments.next
  have hrequest := hpair.request
  have hresponse := hpair.response
  have hother := hpair.other
  rw [hids] at hrequest hresponse hother
  unfold HostedState.visitStep ServiceState.visitStep
  rw [hh.header, hh.cursor, returnOf_of_returns hvisit, if_pos hneeds]
  dsimp only
  rw [hsize]
  apply Option.Rel.some
  apply hh.visited hpair.calls
  · exact hh.segments.allocated hs hpair rfl rfl fun id =>
      rowSegment_added hbefore hafter fun i hi => pairAt_visitWith_of_ne _ hi
  · intro d p hp
    cases Decidable.em (d = (s.header.slots s.cursor).clientId) with
    | inl heq =>
        rw [heq, Function.update_self] at hp
        injection hp with hp
        rw [← hp]
        simp only [newPair]
        have hne : s.nextShmid ≠ s.nextShmid + 1 := by lia
        rw [Function.update_of_ne hne, Function.update_self, Function.update_self,
          HostedState.queueAt, HostedState.queueAt]
        simp only [HostedState.afterVisit, hrequest, hresponse, createdSegment, and_self]
    | inr hne =>
        rw [Function.update_of_ne hne] at hp
        have hlow := hs.books.shmids d p hp
        have hqueues := hh.queues d p hp
        simp only [newPair]
        rw [queueAt_afterVisit _ _ (Or.inl (hother _ (by lia) (by lia))),
          queueAt_afterVisit _ _ (Or.inl (hother _ (by lia) (by lia))),
          Function.update_of_ne (by lia), Function.update_of_ne (by lia),
          Function.update_of_ne (by lia), Function.update_of_ne (by lia)]
        exact hqueues

theorem Hosts.passed (hh : Hosts k h s) {header : CoordHeader}
    (hpairs : pairAt header = pairAt s.header) :
    Hosts k (h.afterVisit header h.kernel)
      { s with header := header, cursor := nextSlot s.cursor } := by
  apply hh.visited hh.calls
  · exact hh.segments.of_same rfl rfl hpairs
  · intro c p hp
    rw [queueAt_afterVisit h _ (Or.inl rfl), queueAt_afterVisit h _ (Or.inl rfl)]
    exact hh.queues c p hp

theorem pairAt_cleared {header : CoordHeader} {slot : Slot}
    (hdetach : (header.slots slot).detach = true) :
    pairAt (cleared header slot) slot = none ∧
      forall i, i ≠ slot -> pairAt (cleared header slot) i = pairAt header i := by
  unfold cleared
  rw [if_pos hdetach]
  constructor
  · rw [pairAt, CoordHeader.setReserved_clientReserved_self]
    rfl
  · intro i hi
    rw [pairAt, pairAt, CoordHeader.setReserved_clientReserved_of_ne _ _ _ hi,
      CoordHeader.setReserved_slots, CoordHeader.setRow_slots_of_ne _ _ _ hi,
      CoordHeader.setRow_clientReserved]

theorem ServiceInvariant.cleared_segments (hs : ServiceInvariant S s) {slot : Slot}
    (hreserved : s.header.clientReserved slot = true)
    (hcreated : (s.header.slots slot).shmCreated = true)
    (hdetach : (s.header.slots slot).detach = true) :
    ¬ RowSegment (cleared s.header slot) (s.header.slots slot).shms.requestShm.shmid ∧
      ¬ RowSegment (cleared s.header slot)
        (s.header.slots slot).shms.responseShm.shmid := by
  have hpairs := pairAt_cleared hdetach
  have hmade := (hs.row slot hreserved).made hcreated
  have hapart : forall i p, pairAt (cleared s.header slot) i = some p ->
      Apart p (s.header.slots slot).shms := by
    intro i p hp
    have hne : i ≠ slot := by
      intro heq
      rw [heq, hpairs.left] at hp
      cases hp
    rw [hpairs.right i hne] at hp
    rcases pairAt_eq_some.mp hp with ⟨hreservedi, hcreatedi, hshms⟩
    have hmadei := (hs.row i hreservedi).made hcreatedi
    rw [hshms] at hmadei
    exact hs.books.apart _ _ _ _ hmadei hmade
      (fun heq => hne (hs.one i slot hreservedi hreserved heq))
  constructor
  · intro hsegment
    rcases hsegment with ⟨i, p, hp, hids⟩
    have hfar := hapart i p hp
    exact hids.elim (fun heq => hfar.requests heq.symm) (fun heq => hfar.crossed' heq.symm)
  · intro hsegment
    rcases hsegment with ⟨i, p, hp, hids⟩
    have hfar := hapart i p hp
    exact hids.elim (fun heq => hfar.crossed heq.symm) (fun heq => hfar.responses heq.symm)

theorem hosts_visit_clears (hs : ServiceInvariant S s) (hrows : RowsSettled s.header)
    (hh : Hosts k h s) (hneeds : ¬ NeedsService s.header s.cursor) :
    Option.Rel (Hosts k) (h.visitStep boost) s.visitStep := by
  have htype : s.header.clientReserved s.cursor = true ->
      (s.header.slots s.cursor).type = .poll :=
    fun hreserved => (hrows.reserved hreserved).left
  have hvisit : forall {header kernel},
      Returns (clearSlot shmRemove s.header s.cursor) h.kernel header kernel ->
        h.visitStep boost = some (h.afterVisit header kernel) := by
    intro header kernel hclear
    unfold HostedState.visitStep
    rw [hh.header, hh.cursor, returnOf_of_returns (visit_clears hneeds htype hclear)]
    rfl
  unfold ServiceState.visitStep
  rw [if_neg hneeds, visitWith_eq, serviced_of_not_needs _ hneeds]
  cases hdetach : (s.header.slots s.cursor).detach with
  | false =>
      have hkept : cleared s.header s.cursor = s.header := by
        unfold cleared
        rw [hdetach]
        rfl
      rw [hvisit (clearSlot_unmarked hdetach), hkept]
      exact Option.Rel.some (hh.passed rfl)
  | true =>
      have hpairs := pairAt_cleared hdetach
      cases hcreated : (s.header.slots s.cursor).shmCreated with
      | false =>
          rw [hvisit (clearSlot_unmade hdetach hcreated)]
          apply Option.Rel.some
          apply hh.passed
          funext i
          cases Decidable.em (i = s.cursor) with
          | inl heq =>
              rw [heq, hpairs.left, pairAt, hcreated, Bool.and_false]
              rfl
          | inr hne => exact hpairs.right i hne
      | true =>
          have hreserved : s.header.clientReserved s.cursor = true := by
            cases hflag : s.header.clientReserved s.cursor with
            | true => rfl
            | false =>
                have hspare := hrows.spare hflag
                rw [hcreated] at hspare
                cases hspare
          have hmade := (hs.row s.cursor hreserved).made hcreated
          rcases hs.row_pair hh.segments hreserved hcreated with ⟨n, hn, hshms⟩
          rcases hh.segments.present hs hreserved hcreated with
            ⟨⟨request, hrequest⟩, response, hresponse⟩
          rw [hvisit (clearSlot_made hdetach hcreated
            (hs.books.shmids _ _ hmade).right.right hrequest hresponse)]
          apply Option.Rel.some
          apply hh.visited
          · exact hh.calls
          · apply hh.segments.removed
            · rw [hshms]
              exact ⟨hn, Int.le_add_one hn⟩
            · rfl
            · rfl
            · intro id
              exact rowSegment_added hpairs.left
                (pairAt_eq_some.mpr ⟨hreserved, hcreated, rfl⟩)
                (fun i hi => (hpairs.right i hi).symm)
            · exact hs.cleared_segments hreserved hcreated hdetach
          · intro c p hp
            rw [queueAt_afterVisit h _ (IpcTable.removeAll_cases _),
              queueAt_afterVisit h _ (IpcTable.removeAll_cases _)]
            exact hh.queues c p hp

end Steps

/-!
# The two levels in lockstep
-/

section Lockstep

variable {S : Service} {boost : Int -> Int -> OsM ShmPair} {k : Kernel} {h : HostedState}
  {s : ServiceState}

theorem hostedNext_hosts (boost : Int -> Int -> OsM ShmPair) (hk : KeysFree S k)
    (hs : ServiceInvariant S s) (hrows : RowsSettled s.header) (hh : Hosts k h s)
    (l : ServiceLabel) :
    Option.Rel (Hosts k) (hostedNext S boost h l) (serviceNext S s l) := by
  cases l with
  | request c => exact hosts_request hh c
  | connect c => exact hosts_connect hs hh c
  | run c => exact hosts_run hs hh c
  | close c => exact hosts_close hh c
  | visit =>
      cases Decidable.em (NeedsService s.header s.cursor) with
      | inl hneeds => exact hosts_visit_makes hk hs hrows hh hneeds
      | inr hneeds => exact hosts_visit_clears hs hrows hh hneeds
  | accept => exact hosts_accept hs hh
  | serve c => exact hosts_serve hs hh c

theorem optionRel_and {α β : Type} {R : α -> β -> Prop} {P : β -> Prop} {a : Option α}
    {b : Option β} (h : Option.Rel R a b) (hb : forall y, b = some y -> P y) :
    Option.Rel (fun x y => P y ∧ R x y) a b := by
  cases h with
  | none => exact Option.Rel.none
  | some hr => exact Option.Rel.some ⟨hb _ rfl, hr⟩

theorem hosted_lockstep (boost : Int -> Int -> OsM ShmPair) (hk : KeysFree S k) :
    (hostedSystem S boost).Lockstep (serviceSystem S) fun h s =>
      (ServiceInvariant S s ∧ RowsSettled s.header) ∧ Hosts k h s := by
  intro h s l hrel
  rcases hrel with ⟨⟨hs, hrows⟩, hh⟩
  apply optionRel_and (hostedNext_hosts boost hk hs hrows hh l)
  intro s' hnext
  exact ⟨serviceNext_invariant hs hnext, serviceNext_settled hs hrows hnext⟩

theorem hosts_start (hcalls : k.faults = []) :
    Hosts k (hostedStart k) (serviceStart (k.segments.next - 1)) where
  header := rfl
  cursor := rfl
  calls := hcalls
  segments :=
    { next := by
        show (k.segments.next : Int) = (k.segments.next : Int) - 1 + 1
        lia
      later := Nat.le_refl _
      old := fun _ _ => rfl
      made := fun _ _ hmade => by cases hmade
      new := by
        intro id hid
        apply iff_of_false
        · intro hentry
          exact hentry (k.segments.fresh id (Or.inr hid))
        · intro hsegment
          rcases hsegment with ⟨i, p, hp, _⟩
          cases hp
      keys := fun _ _ hmade => by cases hmade }
  stage := fun _ => rfl
  clients := rfl
  workers := fun _ => rfl
  queues := fun _ _ hmade => by cases hmade

theorem rows_start (shmid : Int) : RowsSettled (serviceStart shmid).header :=
  fun _ => rfl

theorem hosted_run {trace : List (Transition HostedState ServiceLabel)}
    (hk : KeysFree S k) (hrun : (hostedSystem S boost).Run (hostedStart k) trace h) :
    exists s, (serviceSystem S).Reachable s ∧ RowsSettled s.header ∧ Hosts k h s := by
  rcases (hosted_lockstep boost hk).run hrun
    ⟨⟨serviceInvariant_start S _, rows_start _⟩, hosts_start hk.calls⟩ with
    ⟨trace', s, hrun', ⟨⟨_, hrows⟩, hh⟩, _⟩
  exact ⟨s, ⟨_, trace', ⟨_, rfl⟩, hrun', fun _ _ => trivial⟩, hrows, hh⟩

theorem Hosts.table (hh : Hosts k h s) (hs : ServiceInvariant S s) (id : Int) :
    h.kernel.segments.entries id ≠ none <->
      k.segments.entries id ≠ none ∨ RowSegment h.header id := by
  rw [hh.header]
  cases Decidable.em (id < k.segments.next) with
  | inl hlow =>
      rw [hh.segments.old id hlow]
      apply (or_iff_left _).symm
      intro hsegment
      rcases hsegment with ⟨i, p, hp, hids⟩
      rcases pairAt_eq_some.mp hp with ⟨hreserved, hcreated, hshms⟩
      rcases hs.row_pair hh.segments hreserved hcreated with ⟨n, hn, hpair⟩
      rw [hshms] at hpair
      rw [hpair] at hids
      simp only [newPair] at hids
      lia
  | inr hhigh =>
      have hid : (k.segments.next : Int) ≤ id := by lia
      rw [hh.segments.new id hid]
      apply (or_iff_right _).symm
      intro hentry
      exact hentry (k.segments.fresh id (Or.inr hid))

end Lockstep

/-- One segment under the key 3, which no client of this service derives. -/
def oneSegmentKernel : Kernel where
  segments := IpcTable.empty.insert 3 (Segment.zero 16) rfl
  semaphores := IpcTable.empty
  faults := []

theorem oneSegmentKernel_free : KeysFree fiveAndSeven oneSegmentKernel where
  calls := rfl
  free := by
    intro c hc id e he
    have he : (IpcTable.empty.insert 3 (Segment.zero 16) rfl).entries id = some e := he
    cases IpcTable.insert_entry _ he with
    | inl hnew =>
        rw [hnew.right]
        cases isFiveOrSeven_iff.mp hc with
        | inl heq =>
            rw [heq]
            decide
        | inr heq =>
            rw [heq]
            decide
    | inr hold => cases hold

/-- There are no clients of BOOST queues. -/
def unusedBoost (_ _ : Int) : OsM ShmPair :=
  throw .exit

theorem hosted_fiveServed :
    ((hostedSystem fiveAndSeven unusedBoost).execute (hostedStart oneSegmentKernel)
      fiveServedLabels).map (fun h => (h.clients 5).pc) = some .finished := by
  decide +kernel

/--
From a system whose calls succeed and that has no segment under the key of a client,
the service on the system and the service with its numbered queues take the same lists
of steps, to states with the same rows, in which every queue pair has the addresses of
the two segments that were made for its client, and the same messages in the queues.
-/
theorem hosted_executes {S : Service} (boost : Int -> Int -> OsM ShmPair) {k : Kernel}
    (hk : KeysFree S k) (labels : List ServiceLabel) :
    Option.Rel (Hosts k) ((hostedSystem S boost).execute (hostedStart k) labels)
      ((serviceSystem S).execute (serviceStart (k.segments.next - 1)) labels) := by
  have hboth := (hosted_lockstep boost hk).execute
    ⟨⟨serviceInvariant_start S _, rows_start _⟩, hosts_start hk.calls⟩ labels
  generalize (hostedSystem S boost).execute (hostedStart k) labels = left at hboth ⊢
  generalize (serviceSystem S).execute _ labels = right at hboth ⊢
  cases hboth with
  | none => exact Option.Rel.none
  | some hrel => exact Option.Rel.some hrel.right

theorem hosted_executes_twoClients :
    exists h s,
      (hostedSystem fiveAndSeven unusedBoost).execute (hostedStart oneSegmentKernel)
        fiveServedLabels = some h ∧
      (serviceSystem fiveAndSeven).execute (serviceStart 0) fiveServedLabels = some s ∧
      Hosts oneSegmentKernel h s ∧ (s.clients 5).pc = .finished := by
  have hrel := hosted_executes unusedBoost oneSegmentKernel_free fiveServedLabels
  rcases Option.map_eq_some_iff.mp hosted_fiveServed with ⟨h, hexec, hfive⟩
  rw [hexec] at hrel
  cases hservice : (serviceSystem fiveAndSeven).execute
      (serviceStart (oneSegmentKernel.segments.next - 1)) fiveServedLabels with
  | none =>
      rw [hservice] at hrel
      cases hrel
  | some s =>
      rw [hservice] at hrel
      cases hrel with
      | some hh =>
          refine ⟨h, s, hexec, hservice, hh, ?_⟩
          rw [← hh.clients]
          exact hfive

/--
The manager's visit and `accept` never halt, whatever the clients do.  The table of
segments holds what it held before, and the segments of the rows that have theirs.  A
client and its worker have the same two addresses, and with two slots or more in the
queues the client receives the responses to its requests, each once and in order.
-/
theorem hosted_service {S : Service} {boost : Int -> Int -> OsM ShmPair} {k : Kernel}
    {h : HostedState} {trace : List (Transition HostedState ServiceLabel)}
    (hk : KeysFree S k) (hrun : (hostedSystem S boost).Run (hostedStart k) trace h) :
    ((exists h', hostedNext S boost h .visit = some h') ∧
      exists h', hostedNext S boost h .accept = some h') ∧
    ((forall id e, k.segments.entries id = some e ->
        h.kernel.segments.entries id = some e) ∧
      forall id, h.kernel.segments.entries id ≠ none <->
        k.segments.entries id ≠ none ∨ RowSegment h.header id) ∧
    (forall c pair, h.stage c = .connected pair ->
      exists p, pair = queuePairOf p ∧ p.requestShm.shmid ≠ p.responseShm.shmid ∧
        RowSegment h.header p.requestShm.shmid ∧
        RowSegment h.header p.responseShm.shmid ∧
        forall worker, h.workers c = some worker -> worker.pair = pair) ∧
    (forall c (slots : Nat), S.isClient c = true ->
      (S.pipeline c).header.queueSize = slots + 1 -> 1 ≤ slots ->
        (h.clients c).popped.map Receipt.bytes =
          (List.range (h.clients c).popped.length).map (fun i =>
            (S.pipeline c).respond ((S.pipeline c).request i)) ∧
        ((h.clients c).pc = .finished ->
          (h.clients c).popped.length = (S.pipeline c).calls)) := by
  rcases hosted_run hk hrun with ⟨s, hreach, hrows, hh⟩
  have hs := service_invariant hreach
  refine ⟨⟨?_, ?_⟩, ⟨?_, hh.table hs⟩, ?_, ?_⟩
  · have hrel := hostedNext_hosts boost hk hs hrows hh .visit
    rcases visitStep_returns hs with ⟨s', hvisit⟩
    rw [show serviceNext S s .visit = some s' from hvisit] at hrel
    cases hnext : hostedNext S boost h .visit with
    | some h' => exact ⟨h', rfl⟩
    | none =>
        rw [hnext] at hrel
        cases hrel
  · have hrel := hostedNext_hosts boost hk hs hrows hh .accept
    cases hnext : hostedNext S boost h .accept with
    | some h' => exact ⟨h', rfl⟩
    | none =>
        rw [hnext] at hrel
        cases hrel
  · intro id e hentry
    rw [hh.segments.old id (IpcTable.lt_next hentry).right]
    exact hentry
  · intro c pair hpair
    rw [hh.stage c] at hpair
    cases hstage : s.stage c with
    | connected p =>
        rw [hstage] at hpair
        injection hpair with hpair
        rcases hs.connected c p hstage with ⟨hmade, i, hreserved, hid, _, hcreated⟩
        have hsame := (hs.row i hreserved).made hcreated
        rw [hid, hmade] at hsame
        injection hsame with hsame
        have hsegments := RowSegment.of_row hreserved hcreated
        rw [← hsame, ← hh.header] at hsegments
        refine ⟨p, hpair.symm, (hs.books.shmids c p hmade).right.right, hsegments.left,
          hsegments.right, ?_⟩
        intro worker hworker
        rw [hh.workers c] at hworker
        rcases Option.map_eq_some_iff.mp hworker with ⟨w, hw, heq⟩
        have hshms := hs.books.worker c w hw
        rw [hmade] at hshms
        injection hshms with hshms
        rw [← heq, ← hpair, hshms]
        rfl
    | opening =>
        rw [hstage] at hpair
        cases hpair
    | waiting slot =>
        rw [hstage] at hpair
        cases hpair
    | refused =>
        rw [hstage] at hpair
        cases hpair
    | closed =>
        rw [hstage] at hpair
        cases hpair
  · intro c slots hclient hcapacity hslots
    rcases S.created c hclient with ⟨usable, hcreate⟩
    rcases createHeader_geometry (by decide) hcreate (by decide) hcapacity hslots with
      ⟨g, hsize, hqueue, _⟩
    have ht := connection_invariant hcreate hsize hqueue hreach
    rw [hh.clients, ← connection_clientEnd (S := S) (c := c) hs]
    exact ⟨(responses_received ht).left, responses_all ht⟩

theorem hosted_service_twoClients :
    exists trace h,
      (hostedSystem fiveAndSeven unusedBoost).Run (hostedStart oneSegmentKernel) trace h ∧
        (h.clients 5).popped.map Receipt.bytes = [[4, 3, 2, 1]] ∧
        (forall id, h.kernel.segments.entries id ≠ none <->
          oneSegmentKernel.segments.entries id ≠ none ∨ RowSegment h.header id) ∧
        exists h', hostedNext fiveAndSeven unusedBoost h .visit = some h' := by
  rcases Option.map_eq_some_iff.mp hosted_fiveServed with ⟨h, hexec, hfive⟩
  rcases TransitionSystem.execute_run TransitionSystem.Run.nil hexec with
    ⟨trace, hrun, _⟩
  rw [List.nil_append] at hrun
  rcases hosted_service oneSegmentKernel_free hrun with
    ⟨⟨hvisit, _⟩, ⟨_, htable⟩, _, hreceived⟩
  have hcapacity : (fiveAndSeven.pipeline 5).header.queueSize = (3995 : Nat) + 1 := rfl
  rcases hreceived 5 3995 rfl hcapacity (by decide) with ⟨hresponses, hall⟩
  have hone : (h.clients 5).popped.length = 1 := hall hfive
  rw [hone] at hresponses
  exact ⟨trace, h, hrun, hresponses, htable, hvisit⟩

end Rpc
end Notnets
