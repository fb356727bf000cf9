import Notnets.Foundation.Leading
import Notnets.Rpc.Arrival
import Notnets.Rpc.ServiceRefinement

/-!
# No client needs another one

The steps of the server and of one client lead this client from `client_open` to the
end of its calls, wherever the other clients stand.  All it takes is a slot that is
free, or whose client has closed.
-/

namespace Notnets
namespace Rpc

open Coord
open Foundation
open Queue

/-- The steps of the server, and those of one client that does not close. -/
def Serving (c : Int) : ServiceLabel -> Prop
  | .request d => d = c
  | .connect d => d = c
  | .run d => d = c
  | .close _ => False
  | .visit => True
  | .accept => True
  | .serve d => d = c

/-!
# Requests that fit

A client that is past its last request found room for all of them.
-/

def PastSending : ClientPc -> Prop
  | .sending _ | .pushing _ => False
  | .receiving _ | .popping _ | .finished => True

section Room

variable {P : Pipeline} {g : Geometry} {t t' : PipelineState}

theorem requests_ahead (ht : PipelineInvariant P g t) :
    t.requests.popped.length ≤ t.responses.pushed.length + 1 := by
  have hat := ht.server
  cases hpc : t.server with
  | receiving i =>
      rw [hpc] at hat
      rcases hat with ⟨_, _, hpopped, _, hpushed⟩
      rw [hpushed, List.length_map, List.length_range]
      lia
  | popping i =>
      rw [hpc] at hat
      rcases hat with ⟨_, hcall, _, hpushed⟩
      rw [hpushed, List.length_map, List.length_range]
      unfold PopCall at hcall
      split at hcall
      · lia
      · lia
  | sending i message =>
      rw [hpc] at hat
      rcases hat with ⟨_, _, hpopped, _, _, hpushed⟩
      rw [hpushed, List.length_map, List.length_range]
      lia
  | pushing i =>
      rw [hpc] at hat
      rcases hat with ⟨_, _, hpopped, hcall⟩
      unfold PushCall at hcall
      split at hcall
      · rw [hcall, List.length_map, List.length_range]
        lia
      · rw [hcall.right, List.length_map, List.length_range]
        lia
  | finished =>
      rw [hpc] at hat
      rcases hat with ⟨_, hpopped, _, hpushed⟩
      rw [hpushed, List.length_map, List.length_range]
      lia

theorem clientNext_pastSending (ht : PipelineInvariant P g t)
    (hpast : PastSending t.client -> P.calls < 2 * g.queueSize)
    (h : clientNext P t = some t') (hpast' : PastSending t'.client) :
    P.calls < 2 * g.queueSize := by
  cases hpc : t.client with
  | sending i =>
      have hat := ht.client
      rw [hpc] at hat
      rcases hat with ⟨hle, _, hpushed, _, hpopped⟩
      simp only [clientNext, hpc] at h
      split at h
      · rcases Option.map_eq_some_iff.mp h with ⟨q, _, rfl⟩
        exact hpast'.elim
      · have hlength : t.requests.pushed.length = i := by
          rw [hpushed, List.length_map, List.length_range]
        have hrequests := ht.requests.header.pushed_lt
        have hresponses := ht.responses.header.pushed_lt
        have hhands := requests_ahead ht
        lia
  | pushing i =>
      simp only [clientNext, hpc] at h
      split at h
      · injection h with h
        rw [← h] at hpast'
        exact hpast'.elim
      · rcases Option.map_eq_some_iff.mp h with ⟨q, _, rfl⟩
        exact hpast'.elim
  | receiving i => exact hpast (by rw [hpc]; trivial)
  | popping i => exact hpast (by rw [hpc]; trivial)
  | finished => exact hpast (by rw [hpc]; trivial)

theorem serverNext_client (h : serverNext P t = some t') : t'.client = t.client := by
  unfold serverNext at h
  split at h
  · split at h
    · rcases Option.map_eq_some_iff.mp h with ⟨q, _, rfl⟩
      rfl
    · injection h with h
      rw [← h]
  · split at h
    · injection h with h
      rw [← h]
    · cases h
    · rcases Option.map_eq_some_iff.mp h with ⟨q, _, rfl⟩
      rfl
  · rcases Option.map_eq_some_iff.mp h with ⟨q, _, rfl⟩
    rfl
  · split at h
    · injection h with h
      rw [← h]
    · rcases Option.map_eq_some_iff.mp h with ⟨q, _, rfl⟩
      rfl
  · cases h

theorem calls_of_pastSending {shmSize : Nat} {usable : Int}
    (hcreate : queueCreate shmSize P.header.messageSize = .ok (P.header, usable))
    (hsize : P.header.messageSize = g.messageSize)
    (hqueue : P.header.queueSize = g.queueSize)
    (ht : (pipelineSystem P).Reachable t) (hpast : PastSending t.client) :
    P.calls < 2 * g.queueSize := by
  have hinv : PipelineInvariant P g t ∧
      (PastSending t.client -> P.calls < 2 * g.queueSize) := by
    apply TransitionSystem.reachableUnder_invariant _ _ ht
    · intro start hstart
      refine ⟨pipelineStart_invariant hcreate hsize hqueue hstart, ?_⟩
      rcases hstart with ⟨a, b, rfl⟩
      exact False.elim
    · intro u l u' hu _ hnext
      refine ⟨pipelineNext_invariant hsize hu.left hnext, ?_⟩
      cases l with
      | client => exact clientNext_pastSending hu.left hu.right hnext
      | server =>
          rw [serverNext_client hnext]
          exact hu.right
  exact hinv.right hpast

end Room

section Progress

variable {S : Service} {s s' : ServiceState} {c : Int} {slot : Slot}

/-!
# The calls
-/

theorem runStep_of_clientNext {shms : ShmPair} {t : PipelineState}
    (hs : ServiceInvariant S s) (hconnected : s.stage c = .connected shms)
    (h : clientNext (S.pipeline c) (s.connection S c) = some t) :
    exists s', serviceNext S s (.run c) = some s' ∧ s'.connection S c = t ∧
      s'.stage = s.stage ∧ s'.workers = s.workers := by
  have hmade := (hs.connected c shms hconnected).left
  have hstep := h
  rw [connection_of_made hmade, clientNext_joined ServerEnd.start] at hstep
  rcases Option.map_eq_some_iff.mp hstep with ⟨u, hu, _⟩
  have hrun : s.runStep S c = some { s.setQueues shms u with
      clients := Function.update s.clients c u.clientEnd } := by
    unfold ServiceState.runStep
    rw [hconnected]
    dsimp only
    rw [hu, Option.map_some]
  refine ⟨_, hrun, ?_, rfl, rfl⟩
  have hown := runStep_own hs hrun
  rw [h] at hown
  injection hown with hown
  exact hown.symm

theorem serveStep_of_serverNext {t : PipelineState} (hs : ServiceInvariant S s)
    (hworker : s.workers c ≠ none)
    (h : serverNext (S.pipeline c) (s.connection S c) = some t) :
    exists s', serviceNext S s (.serve c) = some s' ∧ s'.connection S c = t ∧
      s'.stage = s.stage ∧ s'.workers c ≠ none := by
  rcases Option.ne_none_iff_exists'.mp hworker with ⟨worker, hsome⟩
  have hmade := hs.books.worker c worker hsome
  have hstep := h
  rw [connection_of_made hmade, served_of_worker hsome,
    serverNext_joined ClientEnd.start] at hstep
  rcases Option.map_eq_some_iff.mp hstep with ⟨u, hu, _⟩
  have hserve : s.serveStep S c = some { s.setQueues worker.shms u with
      workers := Function.update s.workers c
        (some { worker with place := u.serverEnd }) } := by
    unfold ServiceState.serveStep
    rw [hsome]
    dsimp only
    rw [hu, Option.map_some]
  refine ⟨_, hserve, ?_, rfl, ?_⟩
  · have hown := serveStep_own hs hserve
    rw [h] at hown
    injection hown with hown
    exact hown.symm
  · intro hnone
    have hself := (Function.update_self c
      (some { worker with place := u.serverEnd }) s.workers).symm.trans hnone
    cases hself

theorem calls_finish {slots : Nat} (hclient : S.isClient c = true)
    (hcapacity : (S.pipeline c).header.queueSize = slots + 1) (hslots : 1 ≤ slots)
    (hcalls : (S.pipeline c).calls ≤ 2 * slots + 1) (hs : (serviceSystem S).Reachable s)
    (hconnected : exists shms, s.stage c = .connected shms) (hworker : s.workers c ≠ none) :
    exists s', (serviceSystem S).Leads (Serving c) s s' ∧
      (s'.clients c).pc = .finished := by
  rcases S.created c hclient with ⟨usable, hcreate⟩
  rcases createHeader_geometry (by decide) hcreate (by decide) hcapacity hslots with
    ⟨g, hsize, hqueue, hg⟩
  let Inv : ServiceState -> Prop := fun t => (serviceSystem S).Reachable t ∧
    (exists shms, t.stage c = .connected shms) ∧ t.workers c ≠ none
  have hstep : forall t, Inv t -> ¬ BothFinished (t.connection S c) ->
      exists l t', Serving c l ∧ (serviceSystem S).next t l = some t' ∧ Inv t' ∧
        (¬ BothFinished (t'.connection S c) ->
          (t'.connection S c).work (S.pipeline c) <
            (t.connection S c).work (S.pipeline c)) := by
    intro t ht hopen
    rcases ht with ⟨hreach, ⟨shms, hstage⟩, hserved⟩
    have hinv := service_invariant hreach
    have hpipeline := connection_invariant hcreate hsize hqueue hreach
    have hfree : ¬ Stuck (t.connection S c) := by
      intro hstuck
      have hmany := calls_of_stuck hpipeline (by lia) hstuck
      lia
    rcases pipeline_progress hpipeline (by lia) hopen hfree with ⟨l, u, hnext, hlower⟩
    cases l with
    | client =>
        rcases runStep_of_clientNext hinv hstage hnext with
          ⟨t', hrun, hview, hsame, hworkers⟩
        have hmoves : (serviceSystem S).next t (.run c) = some t' := hrun
        refine ⟨.run c, t', rfl, hmoves, ⟨TransitionSystem.reachable_step hreach hmoves,
          ⟨shms, ?_⟩, ?_⟩, ?_⟩
        · rw [hsame]
          exact hstage
        · rw [hworkers]
          exact hserved
        · intro _
          rw [hview]
          exact hlower
    | server =>
        rcases serveStep_of_serverNext hinv hserved hnext with
          ⟨t', hserve, hview, hsame, hworkers⟩
        have hmoves : (serviceSystem S).next t (.serve c) = some t' := hserve
        refine ⟨.serve c, t', rfl, hmoves, ⟨TransitionSystem.reachable_step hreach hmoves,
          ⟨shms, ?_⟩, hworkers⟩, ?_⟩
        · rw [hsame]
          exact hstage
        · intro _
          rw [hview]
          exact hlower
  rcases TransitionSystem.leads_of_rank (M := serviceSystem S)
    (fun t : ServiceState => (t.connection S c).work (S.pipeline c))
    hstep ⟨hs, hconnected, hworker⟩ with ⟨s', hleads, hs', hdone⟩
  refine ⟨s', hleads, ?_⟩
  rw [← connection_clientEnd (S := S) (service_invariant hs'.left)]
  exact hdone.left

/-!
# The way to the calls

The manager comes round to every slot, and `accept` to every row that waits for it.
-/

structure Visited (s s' : ServiceState) : Prop where
  header : exists shms, s'.header = visitWith shms s.header s.cursor
  cursor : s'.cursor = nextSlot s.cursor
  stage : s'.stage = s.stage
  clients : s'.clients = s.clients
  workers : s'.workers = s.workers

theorem visitStep_moves (h : s.visitStep = some s') : Visited s s' := by
  unfold ServiceState.visitStep at h
  split at h
  · dsimp only at h
    split at h
    · cases h
    · injection h with h
      rw [← h]
      exact ⟨⟨_, rfl⟩, rfl, rfl, rfl, rfl⟩
  · injection h with h
    rw [← h]
    exact ⟨⟨_, rfl⟩, rfl, rfl, rfl, rfl⟩

theorem visitStep_returns (hs : ServiceInvariant S s) :
    exists s', s.visitStep = some s' := by
  unfold ServiceState.visitStep
  split
  · rename_i hneeds
    have hrow := hs.row s.cursor hneeds.left
    have hint := S.isInt _ hrow.client
    rcases S.created _ hrow.client with ⟨usable, hcreate⟩
    dsimp only
    rw [hrow.size, toSizeT_natCast (by lia), hcreate]
    exact ⟨_, rfl⟩
  · exact ⟨_, rfl⟩

theorem cursor_reaches (c : Int) (hs : (serviceSystem S).Reachable s) (slot : Slot) :
    exists t, (serviceSystem S).Leads (Serving c) s t ∧ t.cursor = slot ∧
      t.header.slots slot = s.header.slots slot ∧
      t.header.clientReserved slot = s.header.clientReserved slot ∧
      t.stage = s.stage := by
  let Inv : ServiceState -> Prop := fun t => (serviceSystem S).Reachable t ∧
    t.header.slots slot = s.header.slots slot ∧
    t.header.clientReserved slot = s.header.clientReserved slot ∧ t.stage = s.stage
  have hstep : forall t, Inv t -> ¬ t.cursor = slot ->
      exists l t', Serving c l ∧ (serviceSystem S).next t l = some t' ∧ Inv t' ∧
        (¬ t'.cursor = slot -> ahead t'.cursor slot < ahead t.cursor slot) := by
    intro t ht haway
    rcases ht with ⟨hreach, hrow, hreserved, hstage⟩
    rcases visitStep_returns (service_invariant hreach) with ⟨t', hvisit⟩
    rcases visitStep_moves hvisit with ⟨⟨shms, hheader⟩, hcursor, hstage', _, _⟩
    have hmoves : (serviceSystem S).next t .visit = some t' := hvisit
    have hsame := visitWith_other shms t.header (Ne.symm haway)
    refine ⟨.visit, t', trivial, hmoves, ⟨TransitionSystem.reachable_step hreach hmoves,
      ?_, ?_, hstage'.trans hstage⟩, ?_⟩
    · rw [hheader, hsame.left, hrow]
    · rw [hheader, hsame.right, hreserved]
    · intro _
      have hnext := ahead_next (Ne.symm haway)
      rw [hcursor]
      lia
  rcases TransitionSystem.leads_of_rank (M := serviceSystem S)
    (fun t : ServiceState => ahead t.cursor slot) hstep ⟨hs, rfl, rfl, rfl⟩ with
    ⟨t, hleads, ⟨_, hrow, hreserved, hstage⟩, hcursor⟩
  exact ⟨t, hleads, hcursor, hrow, hreserved, hstage⟩

theorem slot_visited (c : Int) (hs : (serviceSystem S).Reachable s) (slot : Slot) :
    exists t header shms, (serviceSystem S).Leads (Serving c) s t ∧ t.stage = s.stage ∧
      t.header = visitWith shms header slot ∧
      header.slots slot = s.header.slots slot ∧
      header.clientReserved slot = s.header.clientReserved slot := by
  rcases cursor_reaches c hs slot with ⟨t, hleads, hcursor, hrow, hreserved, hstage⟩
  rcases visitStep_returns (service_invariant (hleads.reachable hs)) with ⟨t', hvisit⟩
  rcases visitStep_moves hvisit with ⟨⟨shms, hheader⟩, _, hstage', _, _⟩
  have hlast : (serviceSystem S).Leads (Serving c) t t' :=
    TransitionSystem.leads_single (l := .visit) trivial hvisit
  rw [hcursor] at hheader
  exact ⟨t', t.header, shms, hleads.trans hlast, hstage'.trans hstage, hheader, hrow,
    hreserved⟩

theorem freeSlot_of_unreserved {header : CoordHeader}
    (h : header.clientReserved slot = false) : exists i, freeSlot header = some i := by
  unfold freeSlot
  rw [← Option.isSome_iff_exists, Fin.isSome_find?_iff]
  exact ⟨slot, by rw [h]; rfl⟩

theorem client_requests (hclient : S.isClient c = true) (hopening : s.stage c = .opening)
    (hfree : s.header.clientReserved slot = false) :
    exists t i, (serviceSystem S).Leads (Serving c) s t ∧ t.stage c = .waiting i := by
  rcases freeSlot_of_unreserved hfree with ⟨i, hi⟩
  have hrequest : s.requestStep S c = some { s with
      header := (requestSlot s.header c (S.pipeline c).header.messageSize .poll).1
      stage := Function.update s.stage c (.waiting i) } := by
    unfold ServiceState.requestStep requestSlot
    rw [hclient, hopening, hi]
  refine ⟨_, i, TransitionSystem.leads_single (l := .request c) rfl hrequest, ?_⟩
  exact Function.update_self _ _ _

theorem client_opens (hs : (serviceSystem S).Reachable s) (hclient : S.isClient c = true)
    (hopening : s.stage c = .opening)
    (hslot : s.header.clientReserved slot = false ∨ (s.header.slots slot).detach = true) :
    exists t i, (serviceSystem S).Leads (Serving c) s t ∧ t.stage c = .waiting i := by
  cases hslot with
  | inl hfree => exact client_requests hclient hopening hfree
  | inr hdetach =>
      rcases slot_visited c hs slot with ⟨t, header, shms, hleads, hstage, hheader, hrow, _⟩
      rw [← hrow] at hdetach
      have hfree := (visitWith_detach shms header hdetach).right
      rw [← hheader] at hfree
      rcases client_requests hclient ((congrFun hstage c).trans hopening) hfree with
        ⟨t', i, hrest, hwaiting⟩
      exact ⟨t', i, hleads.trans hrest, hwaiting⟩

theorem client_connects (hs : (serviceSystem S).Reachable s)
    (hwaiting : s.stage c = .waiting slot) :
    exists t shms, (serviceSystem S).Leads (Serving c) s t ∧
      t.stage c = .connected shms := by
  rcases slot_visited c hs slot with ⟨t, header, shms, hleads, hstage, hheader, _, _⟩
  have hwaits := (congrFun hstage c).trans hwaiting
  have hinv := service_invariant (hleads.reachable hs)
  rcases hinv.waiting c slot hwaits with ⟨hreserved, _, _, hattached⟩
  have hcreated : (t.header.slots slot).shmCreated = true := by
    cases hrow : (t.header.slots slot).shmCreated with
    | true => rfl
    | false =>
        have hneeds : NeedsService t.header slot := ⟨hreserved, hrow⟩
        rw [hheader] at hneeds
        exact absurd rfl (needsService_visitWith hneeds).left
  have hconnect : t.connectStep c = some { t with
      header := (setClientAttachState t.header slot true).1
      stage := Function.update t.stage c (.connected (checkSlot t.header slot)) } := by
    unfold ServiceState.connectStep
    rw [hwaits]
    dsimp only
    rw [if_pos hcreated, getClientAttachState, if_pos hcreated, hattached,
      if_neg Bool.false_ne_true]
  refine ⟨_, checkSlot t.header slot,
    hleads.trans (TransitionSystem.leads_single (l := .connect c) rfl hconnect), ?_⟩
  exact Function.update_self _ _ _

theorem acceptStep_row (s : ServiceState) (i : Slot) :
    s.acceptStep.header.clientReserved i = s.header.clientReserved i ∧
      (s.acceptStep.header.slots i).clientId = (s.header.slots i).clientId ∧
      (s.acceptStep.header.slots i).detach = (s.header.slots i).detach ∧
      (s.acceptStep.header.slots i).shmCreated = (s.header.slots i).shmCreated := by
  unfold ServiceState.acceptStep
  split
  · exact ⟨rfl, rfl, rfl, rfl⟩
  · rename_i chosen hscan
    rcases eligible_iff.mp (acceptScan_eligible hscan) with ⟨_, hcreated, _⟩
    dsimp only
    split
    · exact ⟨rfl, rfl, rfl, rfl⟩
    · rw [setServerAttachState, if_pos hcreated]
      cases Decidable.em (i = chosen) with
      | inl heq =>
          rw [heq, CoordHeader.setRow_slots_self]
          exact ⟨rfl, rfl, rfl, rfl⟩
      | inr hne =>
          rw [CoordHeader.setRow_slots_of_ne _ _ _ hne]
          exact ⟨rfl, rfl, rfl, rfl⟩

theorem acceptStep_same (s : ServiceState) :
    s.acceptStep.stage = s.stage ∧ s.acceptStep.clients = s.clients ∧
      s.acceptStep.cursor = s.cursor := by
  unfold ServiceState.acceptStep
  split
  · exact ⟨rfl, rfl, rfl⟩
  · dsimp only
    split
    · exact ⟨rfl, rfl, rfl⟩
    · exact ⟨rfl, rfl, rfl⟩

theorem acceptStep_chosen (hs : ServiceInvariant S s) {chosen : Slot}
    (hscan : acceptScan s.header = some chosen) :
    s.acceptStep.header.acceptSlot = (chosen.val + 1) % slotNum ∧
      s.acceptStep.workers (s.header.slots chosen).clientId ≠ none := by
  rcases eligible_iff.mp (acceptScan_eligible hscan) with ⟨hreserved, hcreated, _⟩
  unfold ServiceState.acceptStep
  rw [hscan]
  dsimp only
  split
  · rename_i hattached
    rw [getServerAttachState, if_pos hcreated] at hattached
    exact ⟨rfl, (hs.row chosen hreserved).attended hattached⟩
  · rw [setServerAttachState, if_pos hcreated, getClientId, if_pos hcreated]
    dsimp only
    rw [Function.update_self]
    exact ⟨rfl, Option.some_ne_none _⟩

theorem client_accepted {shms : ShmPair} (hs : (serviceSystem S).Reachable s)
    (hconnected : s.stage c = .connected shms) :
    exists t, (serviceSystem S).Leads (Serving c) s t ∧ t.stage c = .connected shms ∧
      t.workers c ≠ none := by
  rcases ((service_invariant hs).connected c shms hconnected).right with
    ⟨slot, hreserved, hid, hdetach, hcreated⟩
  let Inv : ServiceState -> Prop := fun t => (serviceSystem S).Reachable t ∧
    t.stage c = .connected shms ∧ eligible t.header slot = true ∧
    (t.header.slots slot).clientId = c
  have hstart : Inv s := ⟨hs, hconnected, eligible_iff.mpr ⟨hreserved, hcreated, hdetach⟩,
    hid⟩
  have hstep : forall t, Inv t -> ¬ t.workers c ≠ none ->
      exists l t', Serving c l ∧ (serviceSystem S).next t l = some t' ∧ Inv t' ∧
        (¬ t'.workers c ≠ none -> turns slotNum t'.header.acceptSlot slot.val <
          turns slotNum t.header.acceptSlot slot.val) := by
    intro t ht _
    rcases ht with ⟨hreach, hstage, heligible, hclient⟩
    have hmoves : (serviceSystem S).next t .accept = some t.acceptStep := rfl
    rcases acceptStep_row t slot with ⟨hreserved', hid', hdetach', hcreated'⟩
    refine ⟨.accept, t.acceptStep, trivial, hmoves,
      ⟨TransitionSystem.reachable_step hreach hmoves, ?_, ?_, hid'.trans hclient⟩, ?_⟩
    · rw [(acceptStep_same t).left]
      exact hstage
    · rw [eligible, hreserved', hdetach', hcreated']
      exact heligible
    · intro hnone
      cases hscan : acceptScan t.header with
      | none =>
          have hno := acceptScan_eq_none.mp hscan slot
          rw [heligible] at hno
          cases hno
      | some chosen =>
          rcases acceptStep_chosen (service_invariant hreach) hscan with ⟨hturn, hworker⟩
          have hne : slot.val ≠ chosen.val := by
            intro heq
            rw [← Fin.ext heq, hclient] at hworker
            exact hnone hworker
          have hpicks := acceptScan_picks hscan
          have hcandidate : eligible t.header (slotAt slot.val) = true := by
            rw [slotAt_eq (Nat.mod_eq_of_lt slot.isLt)]
            exact heligible
          rw [hturn]
          exact hpicks.closer slot.isLt hcandidate hne
  rcases TransitionSystem.leads_of_rank (M := serviceSystem S)
    (fun t : ServiceState => turns slotNum t.header.acceptSlot slot.val) hstep hstart with
    ⟨t, hleads, ⟨_, hstage, _, _⟩, hworker⟩
  exact ⟨t, hleads, hstage, hworker⟩

/-!
# What does not help a client
-/

theorem serveStep_same (h : s.serveStep S c = some s') :
    s'.header = s.header ∧ s'.stage = s.stage ∧ s'.clients = s.clients := by
  unfold ServiceState.serveStep at h
  split at h
  · rcases Option.map_eq_some_iff.mp h with ⟨t, _, rfl⟩
    exact ⟨rfl, rfl, rfl⟩
  · cases h

theorem serving_closed {l : ServiceLabel} (hclosed : s.stage c = .closed)
    (hl : Serving c l) (h : serviceNext S s l = some s') :
    s'.stage c = .closed ∧ s'.clients c = s.clients c := by
  cases l with
  | request d =>
      have hd : d = c := hl
      have hnext : s.requestStep S d = some s' := h
      unfold ServiceState.requestStep at hnext
      rw [hd] at hnext
      split at hnext
      · rename_i hopening
        rw [hclosed] at hopening
        cases hopening
      · cases hnext
  | connect d =>
      have hd : d = c := hl
      have hnext : s.connectStep d = some s' := h
      unfold ServiceState.connectStep at hnext
      rw [hd, hclosed] at hnext
      cases hnext
  | run d =>
      have hd : d = c := hl
      have hnext : s.runStep S d = some s' := h
      unfold ServiceState.runStep at hnext
      rw [hd, hclosed] at hnext
      cases hnext
  | close d => exact False.elim hl
  | visit =>
      rw [(visitStep_moves h).stage, (visitStep_moves h).clients]
      exact ⟨hclosed, rfl⟩
  | accept =>
      cases h
      rw [(acceptStep_same s).left, (acceptStep_same s).right.left]
      exact ⟨hclosed, rfl⟩
  | serve d =>
      have hsame := serveStep_same h
      rw [hsame.right.left, hsame.right.right]
      exact ⟨hclosed, rfl⟩

structure ShutOut (c : Int) (s : ServiceState) : Prop where
  opening : s.stage c = .opening
  reserved : forall i, s.header.clientReserved i = true
  detach : forall i, (s.header.slots i).detach = false

theorem serving_shutOut {l : ServiceLabel} (hs : ShutOut c s) (hl : Serving c l)
    (h : serviceNext S s l = some s') : ShutOut c s' := by
  cases l with
  | request d =>
      have hnext : s.requestStep S d = some s' := h
      unfold ServiceState.requestStep at hnext
      split at hnext
      · rcases requestSlot_cases s.header d (S.pipeline d).header.messageSize .poll with
          ⟨slot, hfree, _⟩ | ⟨_, hrequest⟩
        · have hunreserved := (freeSlot_eq_some_iff.mp hfree).left
          rw [hs.reserved slot] at hunreserved
          cases hunreserved
        · rw [hrequest] at hnext
          injection hnext with hnext
          rw [← hnext]
          exact hs
      · cases hnext
  | connect d =>
      have hd : d = c := hl
      have hnext : s.connectStep d = some s' := h
      unfold ServiceState.connectStep at hnext
      rw [hd, hs.opening] at hnext
      cases hnext
  | run d =>
      have hd : d = c := hl
      have hnext : s.runStep S d = some s' := h
      unfold ServiceState.runStep at hnext
      rw [hd, hs.opening] at hnext
      cases hnext
  | close d => exact False.elim hl
  | visit =>
      rcases visitStep_moves h with ⟨⟨shms, hheader⟩, _, hstage, _, _⟩
      constructor
      · rw [hstage]
        exact hs.opening
      · intro i
        rw [hheader, (visitWith_unclosed shms s.cursor (hs.detach i)).left]
        exact hs.reserved i
      · intro i
        rw [hheader, (visitWith_unclosed shms s.cursor (hs.detach i)).right.right.left]
        exact hs.detach i
  | accept =>
      cases h
      constructor
      · rw [(acceptStep_same s).left]
        exact hs.opening
      · intro i
        rw [(acceptStep_row s i).left]
        exact hs.reserved i
      · intro i
        rw [(acceptStep_row s i).right.right.left]
        exact hs.detach i
  | serve d =>
      have hsame := serveStep_same h
      constructor
      · rw [hsame.right.left]
        exact hs.opening
      · rw [hsame.left]
        exact hs.reserved
      · rw [hsame.left]
        exact hs.detach

theorem ShutOut.unfinished (hs : ShutOut c s) (hreach : (serviceSystem S).Reachable s) :
    (s.clients c).pc ≠ .finished := by
  have hinv := service_invariant hreach
  rw [(hinv.books.unused c (hinv.unopened c hs.opening)).left]
  exact nofun

theorem connected_finishes {slots : Nat} {shms : ShmPair} (hclient : S.isClient c = true)
    (hcapacity : (S.pipeline c).header.queueSize = slots + 1) (hslots : 1 ≤ slots)
    (hcalls : (S.pipeline c).calls ≤ 2 * slots + 1) (hs : (serviceSystem S).Reachable s)
    (hconnected : s.stage c = .connected shms) :
    exists s', (serviceSystem S).Leads (Serving c) s s' ∧
      (s'.clients c).pc = .finished := by
  rcases client_accepted hs hconnected with ⟨t, hleads, hstage, hworker⟩
  rcases calls_finish hclient hcapacity hslots hcalls (hleads.reachable hs)
    ⟨shms, hstage⟩ hworker with ⟨s', hrest, hfinished⟩
  exact ⟨s', hleads.trans hrest, hfinished⟩

theorem waiting_finishes {slots : Nat} (hclient : S.isClient c = true)
    (hcapacity : (S.pipeline c).header.queueSize = slots + 1) (hslots : 1 ≤ slots)
    (hcalls : (S.pipeline c).calls ≤ 2 * slots + 1) (hs : (serviceSystem S).Reachable s)
    (hwaiting : s.stage c = .waiting slot) :
    exists s', (serviceSystem S).Leads (Serving c) s s' ∧
      (s'.clients c).pc = .finished := by
  rcases client_connects hs hwaiting with ⟨t, shms, hleads, hconnected⟩
  rcases connected_finishes hclient hcapacity hslots hcalls (hleads.reachable hs)
    hconnected with ⟨s', hrest, hfinished⟩
  exact ⟨s', hleads.trans hrest, hfinished⟩

/-- A client that has finished had no more calls than its connection has room for. -/
theorem calls_of_finished {slots : Nat} (hclient : S.isClient c = true)
    (hcapacity : (S.pipeline c).header.queueSize = slots + 1) (hslots : 1 ≤ slots)
    (hs : (serviceSystem S).Reachable s) (hfinished : (s.clients c).pc = .finished) :
    (S.pipeline c).calls ≤ 2 * slots + 1 := by
  rcases S.created c hclient with ⟨usable, hcreate⟩
  rcases createHeader_geometry (by decide) hcreate (by decide) hcapacity hslots with
    ⟨g, hsize, hqueue, hg⟩
  rw [← connection_clientEnd (S := S) (service_invariant hs)] at hfinished
  have hdone : (s.connection S c).client = .finished := hfinished
  have hpast : PastSending (s.connection S c).client := by
    rw [hdone]
    trivial
  have hfits := calls_of_pastSending hcreate hsize hqueue (connection_reachable hs c) hpast
  lia

end Progress

/--
Whatever the other clients are in the middle of, a client can be served to the end of
its calls without them, if and only if its calls fit its connection, a slot is free or
given up when it has none yet, and it has not closed too early.
-/
theorem service_completes_iff {S : Service} {s : ServiceState} {c : Int} {slots : Nat}
    (hs : (serviceSystem S).Reachable s) (hclient : S.isClient c = true)
    (hcapacity : (S.pipeline c).header.queueSize = slots + 1) (hslots : 1 ≤ slots) :
    (exists s', (serviceSystem S).Leads (Serving c) s s' ∧
      (s'.clients c).pc = .finished) <->
      (S.pipeline c).calls ≤ 2 * slots + 1 ∧
        (s.stage c = .opening -> exists slot, s.header.clientReserved slot = false ∨
          (s.header.slots slot).detach = true) ∧
        (s.stage c = .closed -> (s.clients c).pc = .finished) := by
  constructor
  · intro hends
    rcases hends with ⟨s', hleads, hfinished⟩
    have hreach := hleads.reachable hs
    refine ⟨calls_of_finished hclient hcapacity hslots hreach hfinished, ?_, ?_⟩
    · intro hopening
      by_contra hnone
      have hshut : ShutOut c s := by
        constructor
        · exact hopening
        · intro i
          by_contra hi
          exact hnone ⟨i, Or.inl (eq_false_of_ne_true hi)⟩
        · intro i
          by_contra hi
          exact hnone ⟨i, Or.inr (eq_true_of_ne_false hi)⟩
      have hstays : forall t l t', ShutOut c t -> Serving c l ->
          (serviceSystem S).next t l = some t' -> ShutOut c t' :=
        fun _ _ _ ht hl hnext => serving_shutOut (S := S) ht hl hnext
      exact (hleads.keeps hstays hshut).unfinished hreach hfinished
    · intro hclosed
      let Left : ServiceState -> Prop := fun t => t.stage c = .closed ∧
        t.clients c = s.clients c
      have hstays : forall t l t', Left t -> Serving c l ->
          (serviceSystem S).next t l = some t' -> Left t' := by
        intro t l t' ht hl hnext
        have hnext := serving_closed (S := S) ht.left hl hnext
        exact ⟨hnext.left, hnext.right.trans ht.right⟩
      have hleft : Left s' := hleads.keeps hstays ⟨hclosed, rfl⟩
      rw [← hleft.right]
      exact hfinished
  · intro hall
    rcases hall with ⟨hcalls, hopens, hcloses⟩
    cases hstage : s.stage c with
    | opening =>
        rcases hopens hstage with ⟨slot, hslot⟩
        rcases client_opens hs hclient hstage hslot with ⟨t, i, hleads, hwaiting⟩
        rcases waiting_finishes hclient hcapacity hslots hcalls (hleads.reachable hs)
          hwaiting with ⟨s', hrest, hfinished⟩
        exact ⟨s', hleads.trans hrest, hfinished⟩
    | waiting slot => exact waiting_finishes hclient hcapacity hslots hcalls hs hstage
    | connected shms => exact connected_finishes hclient hcapacity hslots hcalls hs hstage
    | refused => exact absurd hstage ((service_invariant hs).admitted c)
    | closed => exact ⟨s, Relation.ReflTransGen.refl, hcloses hstage⟩

theorem service_completes_iff_oneCall :
    exists s, (serviceSystem fiveAndSeven).Reachable s ∧ (s.clients 7).pc = .pushing 0 ∧
      exists s', (serviceSystem fiveAndSeven).Leads (Serving 5) s s' ∧
        (s'.clients 5).pc = .finished := by
  have hends : ((serviceSystem fiveAndSeven).execute (serviceStart 1)
      [.request 7, .visit, .connect 7, .run 7]).map (fun s =>
        ((s.clients 7).pc, s.stage 5, s.header.clientReserved ⟨1, by decide⟩)) =
          some (.pushing 0, .opening, false) := by decide +kernel
  rcases Option.map_eq_some_iff.mp hends with ⟨s, hexec, htriple⟩
  injection htriple with hseven hrest
  injection hrest with hopening hfree
  have hreach : (serviceSystem fiveAndSeven).Reachable s :=
    TransitionSystem.reachableUnder_of_execute ⟨1, rfl⟩ hexec fun _ _ => trivial
  have hcapacity : (fiveAndSeven.pipeline 5).header.queueSize = (3995 : Nat) + 1 := rfl
  have hends := (service_completes_iff hreach rfl hcapacity (by decide)).mpr
    ⟨by decide, fun _ => ⟨_, Or.inl hfree⟩, fun hclosed => by
      rw [hopening] at hclosed
      cases hclosed⟩
  exact ⟨s, hreach, hseven, hends⟩

end Rpc
end Notnets
