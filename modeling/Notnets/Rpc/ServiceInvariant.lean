import Notnets.Rpc.Fairness
import Notnets.Rpc.Service

/-!
# Whose segments are whose

What keeps the connections of the service apart: every pair of segments was made for
one client, that client and its worker are the only ones that attach it, and a row
knows the pair of its own client only.
-/

namespace Notnets
namespace Rpc

open Coord
open Foundation
open Queue

structure Apart (p q : ShmPair) : Prop where
  requests : p.requestShm.shmid ≠ q.requestShm.shmid
  crossed : p.requestShm.shmid ≠ q.responseShm.shmid
  crossed' : p.responseShm.shmid ≠ q.requestShm.shmid
  responses : p.responseShm.shmid ≠ q.responseShm.shmid

theorem Apart.symm {p q : ShmPair} (h : Apart p q) : Apart q p :=
  ⟨h.requests.symm, h.crossed'.symm, h.crossed.symm, h.responses.symm⟩

structure RowKept (S : Service) (s : ServiceState) (row : CoordRow) : Prop where
  client : S.isClient row.clientId = true
  opened : s.stage row.clientId ≠ .opening
  size : row.messageSize = (S.pipeline row.clientId).header.messageSize
  unmade : row.shmCreated = false -> s.made row.clientId = none
  made : row.shmCreated = true -> s.made row.clientId = some row.shms
  unserved : row.serverAttached = false -> s.workers row.clientId = none
  attended : row.serverAttached = true -> s.workers row.clientId ≠ none

def HasRow (header : CoordHeader) (c : Int) : Prop :=
  exists i, header.clientReserved i = true ∧ (header.slots i).clientId = c ∧
    (header.slots i).detach = false ∧ (header.slots i).shmCreated = true

structure SegmentBooks (s : ServiceState) : Prop where
  unused : forall c, s.made c = none ->
    s.clients c = ClientEnd.start ∧ s.workers c = none
  worker : forall c w, s.workers c = some w -> s.made c = some w.shms
  shmids : forall c p, s.made c = some p -> p.requestShm.shmid < s.nextShmid ∧
    p.responseShm.shmid < s.nextShmid ∧ p.requestShm.shmid ≠ p.responseShm.shmid
  apart : forall c d p q, s.made c = some p -> s.made d = some q -> c ≠ d -> Apart p q

structure ServiceInvariant (S : Service) (s : ServiceState) : Prop where
  row : forall i, s.header.clientReserved i = true -> RowKept S s (s.header.slots i)
  one : forall i j, s.header.clientReserved i = true ->
    s.header.clientReserved j = true ->
    (s.header.slots i).clientId = (s.header.slots j).clientId -> i = j
  waiting : forall c i, s.stage c = .waiting i ->
    s.header.clientReserved i = true ∧ (s.header.slots i).clientId = c ∧
      (s.header.slots i).detach = false ∧ (s.header.slots i).clientAttached = false
  connected : forall c shms, s.stage c = .connected shms ->
    s.made c = some shms ∧ HasRow s.header c
  admitted : forall c, s.stage c ≠ .refused
  unopened : forall c, s.stage c = .opening -> s.made c = none
  books : SegmentBooks s

theorem serviceInvariant_start (S : Service) (shmid : Int) :
    ServiceInvariant S (serviceStart shmid) where
  row := fun _ h => by cases h
  one := fun _ _ h _ _ => by cases h
  waiting := fun _ _ h => by cases h
  connected := fun _ _ h => by cases h
  admitted := fun _ h => by cases h
  unopened := fun _ _ => rfl
  books :=
    { unused := fun _ _ => ⟨rfl, rfl⟩
      worker := fun _ _ h => by cases h
      shmids := fun _ _ h => by cases h
      apart := fun _ _ _ _ h _ _ => by cases h }

section Steps

variable {S : Service} {s s' : ServiceState} {c : Int}

theorem RowKept.of_same {row : CoordRow} (h : RowKept S s row)
    (hstage : s'.stage row.clientId ≠ .opening)
    (hmade : s'.made row.clientId = s.made row.clientId)
    (hworker : s'.workers row.clientId = s.workers row.clientId) :
    RowKept S s' row where
  client := h.client
  opened := hstage
  size := h.size
  unmade := fun hrow => hmade.trans (h.unmade hrow)
  made := fun hrow => hmade.trans (h.made hrow)
  unserved := fun hrow => hworker.trans (h.unserved hrow)
  attended := fun hrow hnone => h.attended hrow (hworker.symm.trans hnone)

theorem ServiceInvariant.ne_of_opening (hs : ServiceInvariant S s)
    (hopening : s.stage c = .opening) {i : Slot}
    (hreserved : s.header.clientReserved i = true) :
    (s.header.slots i).clientId ≠ c := by
  intro hid
  have hopened := (hs.row i hreserved).opened
  rw [hid] at hopened
  exact hopened hopening

theorem ServiceInvariant.rows (hs : ServiceInvariant S s) (s' : ServiceState)
    (slot : Slot)
    (hother : forall i, i ≠ slot ->
      s'.header.clientReserved i = s.header.clientReserved i ∧
        s'.header.slots i = s.header.slots i)
    (hkeep : forall i, i ≠ slot -> s.header.clientReserved i = true ->
      s'.stage (s.header.slots i).clientId ≠ .opening ∧
        s'.made (s.header.slots i).clientId = s.made (s.header.slots i).clientId ∧
        s'.workers (s.header.slots i).clientId = s.workers (s.header.slots i).clientId)
    (hself : s'.header.clientReserved slot = true ->
      RowKept S s' (s'.header.slots slot) ∧
        forall i, i ≠ slot -> s.header.clientReserved i = true ->
          (s.header.slots i).clientId ≠ (s'.header.slots slot).clientId) :
    (forall i, s'.header.clientReserved i = true -> RowKept S s' (s'.header.slots i)) ∧
      forall i j, s'.header.clientReserved i = true ->
        s'.header.clientReserved j = true ->
        (s'.header.slots i).clientId = (s'.header.slots j).clientId -> i = j := by
  constructor
  · intro i hi
    cases Decidable.em (i = slot) with
    | inl heq =>
        rw [heq] at hi ⊢
        exact (hself hi).left
    | inr hne =>
        rw [(hother i hne).left] at hi
        rw [(hother i hne).right]
        have hsame := hkeep i hne hi
        exact (hs.row i hi).of_same hsame.left hsame.right.left hsame.right.right
  · intro i j hi hj hid
    cases Decidable.em (i = slot) with
    | inl heqi =>
        cases Decidable.em (j = slot) with
        | inl heqj => rw [heqi, heqj]
        | inr hnej =>
            rw [(hother j hnej).left] at hj
            rw [heqi] at hi hid
            rw [(hother j hnej).right] at hid
            exact absurd hid.symm ((hself hi).right j hnej hj)
    | inr hnei =>
        rw [(hother i hnei).left] at hi
        rw [(hother i hnei).right] at hid
        cases Decidable.em (j = slot) with
        | inl heqj =>
            rw [heqj] at hj hid
            exact absurd hid ((hself hj).right i hnei hi)
        | inr hnej =>
            rw [(hother j hnej).left] at hj
            rw [(hother j hnej).right] at hid
            exact hs.one i j hi hj hid

theorem ServiceInvariant.of_client {header : CoordHeader} {stage : Int -> ClientStage}
    (hs : ServiceInvariant S s) (slot : Slot)
    (hother : forall i, i ≠ slot ->
      header.clientReserved i = s.header.clientReserved i ∧
        header.slots i = s.header.slots i)
    (howner : s.header.clientReserved slot = true -> (s.header.slots slot).clientId = c)
    (hself : header.clientReserved slot = true ->
      RowKept S { s with header := header, stage := stage } (header.slots slot) ∧
        forall i, i ≠ slot -> s.header.clientReserved i = true ->
          (s.header.slots i).clientId ≠ (header.slots slot).clientId)
    (hstays : forall d, d ≠ c -> stage d = s.stage d) (hmoved : stage c ≠ .opening)
    (hwaits : forall i, stage c = .waiting i ->
      header.clientReserved i = true ∧ (header.slots i).clientId = c ∧
        (header.slots i).detach = false ∧ (header.slots i).clientAttached = false)
    (hadmits : stage c ≠ .refused)
    (hconnects : forall shms, stage c = .connected shms ->
      s.made c = some shms ∧ HasRow header c) :
    ServiceInvariant S { s with header := header, stage := stage } := by
  have hrows := hs.rows { s with header := header, stage := stage } slot hother
    (fun i _ hi => by
      refine ⟨?_, rfl, rfl⟩
      show stage (s.header.slots i).clientId ≠ .opening
      cases Decidable.em ((s.header.slots i).clientId = c) with
      | inl heq =>
          rw [heq]
          exact hmoved
      | inr hne =>
          rw [hstays _ hne]
          exact (hs.row i hi).opened)
    hself
  constructor
  · exact hrows.left
  · exact hrows.right
  · intro d i hwaiting
    cases Decidable.em (d = c) with
    | inl heq =>
        rw [heq] at hwaiting ⊢
        exact hwaits i hwaiting
    | inr hne =>
        have hold := hs.waiting d i ((hstays d hne).symm.trans hwaiting)
        have hi : i ≠ slot := by
          intro heq
          rw [heq] at hold
          exact hne (hold.right.left.symm.trans (howner hold.left))
        show header.clientReserved i = true ∧ _
        rw [(hother i hi).left, (hother i hi).right]
        exact hold
  · intro d shms hconnected
    cases Decidable.em (d = c) with
    | inl heq =>
        rw [heq] at hconnected ⊢
        exact hconnects shms hconnected
    | inr hne =>
        have hold := hs.connected d shms ((hstays d hne).symm.trans hconnected)
        rcases hold.right with ⟨i, hreserved, hid, hrest⟩
        have hi : i ≠ slot := by
          intro heq
          rw [heq] at hreserved hid
          exact hne (hid.symm.trans (howner hreserved))
        refine ⟨hold.left, i, ?_⟩
        show header.clientReserved i = true ∧ _
        rw [(hother i hi).left, (hother i hi).right]
        exact ⟨hreserved, hid, hrest⟩
  · intro d
    cases Decidable.em (d = c) with
    | inl heq =>
        rw [heq]
        exact hadmits
    | inr hne => exact fun hrefused => hs.admitted d ((hstays d hne).symm.trans hrefused)
  · intro d hopens
    have hne : d ≠ c := by
      intro heq
      rw [heq] at hopens
      exact hmoved hopens
    exact hs.unopened d ((hstays d hne).symm.trans hopens)
  · exact ⟨hs.books.unused, hs.books.worker, hs.books.shmids, hs.books.apart⟩

theorem serviceRequest_invariant (hs : ServiceInvariant S s)
    (h : s.requestStep S c = some s') : ServiceInvariant S s' := by
  unfold ServiceState.requestStep at h
  split at h
  · rename_i hclient hopening
    rcases requestSlot_cases s.header c (S.pipeline c).header.messageSize .poll with
      ⟨slot, hfree, hrequest⟩ | ⟨_, hrequest⟩
    · rw [hrequest] at h
      injection h with h
      rw [← h]
      have hunreserved := (freeSlot_eq_some_iff.mp hfree).left
      have hunmade := hs.unopened c hopening
      apply hs.of_client (c := c) slot
      · intro i hi
        rw [CoordHeader.setReserved_slots, CoordHeader.setRow_slots_of_ne _ _ _ hi,
          CoordHeader.setReserved_clientReserved_of_ne _ _ _ hi]
        exact ⟨rfl, rfl⟩
      · intro hreserved
        rw [hunreserved] at hreserved
        cases hreserved
      · intro _
        rw [CoordHeader.setReserved_slots, CoordHeader.setRow_slots_self]
        constructor
        · constructor
          · exact hclient
          · show Function.update s.stage c _ c ≠ .opening
            rw [Function.update_self]
            exact nofun
          · rfl
          · intro _
            exact hunmade
          · exact nofun
          · intro _
            exact (hs.books.unused c hunmade).right
          · exact nofun
        · exact fun i _ hi => hs.ne_of_opening hopening hi
      · intro d hd
        rw [Function.update_of_ne hd]
      · rw [Function.update_self]
        exact nofun
      · intro i hwaiting
        rw [Function.update_self] at hwaiting
        cases hwaiting
        rw [CoordHeader.setReserved_slots, CoordHeader.setRow_slots_self,
          CoordHeader.setReserved_clientReserved_self]
        exact ⟨rfl, rfl, rfl, rfl⟩
      · rw [Function.update_self]
        exact nofun
      · intro shms hconnected
        rw [Function.update_self] at hconnected
        cases hconnected
    · rw [hrequest] at h
      injection h with h
      rw [← h]
      exact hs
  · cases h

theorem serviceConnect_invariant (hs : ServiceInvariant S s)
    (h : s.connectStep c = some s') : ServiceInvariant S s' := by
  unfold ServiceState.connectStep at h
  split at h
  · rename_i slot hwaiting
    rcases hs.waiting c slot hwaiting with ⟨hreserved, hid, hdetach, hattached⟩
    have hrow := hs.row slot hreserved
    split at h
    · rename_i hcreated
      split at h
      · rename_i hattach
        rw [getClientAttachState, if_pos hcreated, hattached] at hattach
        cases hattach
      · injection h with h
        rw [← h]
        have hset : (setClientAttachState s.header slot true).1 = s.header.setRow slot
            { s.header.slots slot with clientAttached := true } := by
          rw [setClientAttachState, if_pos hcreated]
        rw [hset]
        apply hs.of_client (c := c) slot
        · intro i hi
          rw [CoordHeader.setRow_slots_of_ne _ _ _ hi]
          exact ⟨rfl, rfl⟩
        · exact fun _ => hid
        · intro _
          rw [CoordHeader.setRow_slots_self]
          constructor
          · constructor
            · exact hrow.client
            · show Function.update s.stage c _ (s.header.slots slot).clientId ≠ .opening
              rw [hid, Function.update_self]
              exact nofun
            · exact hrow.size
            · exact hrow.unmade
            · exact hrow.made
            · exact hrow.unserved
            · exact hrow.attended
          · exact fun i hi hreservedi heq => hi (hs.one i slot hreservedi hreserved heq)
        · intro d hd
          rw [Function.update_of_ne hd]
        · rw [Function.update_self]
          exact nofun
        · intro i hwaits
          rw [Function.update_self] at hwaits
          cases hwaits
        · rw [Function.update_self]
          exact nofun
        · intro shms hconnected
          rw [Function.update_self] at hconnected
          cases hconnected
          have hmade := hrow.made hcreated
          rw [hid] at hmade
          rw [hmade, checkSlot, if_pos hcreated]
          refine ⟨rfl, slot, hreserved, ?_⟩
          rw [CoordHeader.setRow_slots_self]
          exact ⟨hid, hdetach, hcreated⟩
    · injection h with h
      rw [← h]
      exact hs
  · cases h

theorem ServiceInvariant.left (hs : ServiceInvariant S s) :
    ServiceInvariant S { s with stage := Function.update s.stage c .closed } := by
  have hstays : forall d, d ≠ c -> Function.update s.stage c .closed d = s.stage d :=
    fun d hd => Function.update_of_ne hd _ _
  have hself : Function.update s.stage c .closed c = ClientStage.closed :=
    Function.update_self _ _ _
  have hopened : forall d, s.stage d ≠ .opening ->
      Function.update s.stage c .closed d ≠ .opening := by
    intro d hd
    cases Decidable.em (d = c) with
    | inl heq =>
        rw [heq, hself]
        exact nofun
    | inr hne =>
        rw [hstays d hne]
        exact hd
  have hold : forall d stage, Function.update s.stage c .closed d = stage ->
      stage ≠ .closed -> s.stage d = stage := by
    intro d stage hstage hclosed
    cases Decidable.em (d = c) with
    | inl heq =>
        rw [heq, hself] at hstage
        exact absurd hstage.symm hclosed
    | inr hne => exact (hstays d hne).symm.trans hstage
  constructor
  · intro i hi
    exact (hs.row i hi).of_same (hopened _ (hs.row i hi).opened) rfl rfl
  · exact hs.one
  · exact fun d i hwaiting => hs.waiting d i (hold d _ hwaiting nofun)
  · exact fun d shms hconnected => hs.connected d shms (hold d _ hconnected nofun)
  · exact fun d hrefused => hs.admitted d (hold d _ hrefused nofun)
  · exact fun d hopens => hs.unopened d (hold d _ hopens nofun)
  · exact ⟨hs.books.unused, hs.books.worker, hs.books.shmids, hs.books.apart⟩

theorem ServiceInvariant.closed (hs : ServiceInvariant S s) :
    ServiceInvariant S { s with
      header := (clientClose s.header c).1
      stage := Function.update s.stage c .closed } := by
  have hstays : forall d, d ≠ c -> Function.update s.stage c .closed d = s.stage d :=
    fun d hd => Function.update_of_ne hd _ _
  have hself : Function.update s.stage c .closed c = ClientStage.closed :=
    Function.update_self _ _ _
  rcases clientClose_cases s.header c with ⟨slot, hmatch, hclose⟩ | ⟨_, hclose⟩
  · have hid := (matchingRow_eq_some_iff.mp hmatch).left
    rw [hclose]
    apply hs.of_client (c := c) slot
    · intro i hi
      rw [markDetach, CoordHeader.setRow_slots_of_ne _ _ _ hi]
      exact ⟨rfl, rfl⟩
    · exact fun _ => hid
    · intro hreserved
      have hreserved : s.header.clientReserved slot = true := hreserved
      have hrow := hs.row slot hreserved
      rw [markDetach, CoordHeader.setRow_slots_self]
      constructor
      · constructor
        · exact hrow.client
        · show Function.update s.stage c _ (s.header.slots slot).clientId ≠ .opening
          rw [hid, hself]
          exact nofun
        · exact hrow.size
        · exact hrow.unmade
        · exact hrow.made
        · exact hrow.unserved
        · exact hrow.attended
      · exact fun i hi hreservedi heq => hi (hs.one i slot hreservedi hreserved heq)
    · exact hstays
    · rw [hself]
      exact nofun
    · intro i hwaits
      rw [hself] at hwaits
      cases hwaits
    · rw [hself]
      exact nofun
    · intro shms hconnected
      rw [hself] at hconnected
      cases hconnected
  · rw [hclose]
    exact hs.left

theorem serviceClose_invariant (hs : ServiceInvariant S s)
    (h : s.closeStep c = some s') : ServiceInvariant S s' := by
  unfold ServiceState.closeStep at h
  split at h
  · rename_i shms hconnected
    injection h with h
    rw [← h]
    exact hs.closed
  · rename_i hrefused
    injection h with h
    rw [← h]
    exact hs.closed
  · cases h

theorem visitWith_unclosed {header : CoordHeader} {i : Slot} (allocated : ShmPair)
    (slot : Slot)
    (hdetach : (header.slots i).detach = false) :
    (visitWith allocated header slot).clientReserved i = header.clientReserved i ∧
      ((visitWith allocated header slot).slots i).clientId = (header.slots i).clientId ∧
      ((visitWith allocated header slot).slots i).detach = (header.slots i).detach ∧
      ((visitWith allocated header slot).slots i).clientAttached =
        (header.slots i).clientAttached ∧
      ((header.slots i).shmCreated = true ->
        ((visitWith allocated header slot).slots i).shmCreated = true) := by
  cases Decidable.em (i = slot) with
  | inl heq =>
      rw [heq] at hdetach ⊢
      rw [visitWith_keep _ _ hdetach, serviced_clientReserved]
      cases Decidable.em (NeedsService header slot) with
      | inl hneeds =>
          rw [serviced_of_needs _ hneeds, CoordHeader.setRow_slots_self]
          exact ⟨rfl, rfl, rfl, rfl, fun _ => rfl⟩
      | inr hneeds =>
          rw [serviced_of_not_needs _ hneeds]
          exact ⟨rfl, rfl, rfl, rfl, id⟩
  | inr hne =>
      rcases visitWith_other allocated header hne with ⟨hrow, hreserved⟩
      rw [hrow, hreserved]
      exact ⟨rfl, rfl, rfl, rfl, id⟩

theorem SegmentBooks.allocated (h : SegmentBooks s) (hunmade : s.made c = none)
    (hclients : s'.clients = s.clients) (hworkers : s'.workers = s.workers)
    (hnext : s'.nextShmid = s.nextShmid + 2)
    (hmade : s'.made = Function.update s.made c (some (newPair c s.nextShmid))) :
    SegmentBooks s' := by
  have hself : s'.made c = some (newPair c s.nextShmid) := by
    rw [hmade, Function.update_self]
  have hother : forall d, d ≠ c -> s'.made d = s.made d := by
    intro d hd
    rw [hmade, Function.update_of_ne hd]
  have hne : forall d p, s.made d = some p -> d ≠ c := by
    intro d p hd heq
    rw [heq, hunmade] at hd
    cases hd
  have hfresh : forall d p, s.made d = some p -> Apart p (newPair c s.nextShmid) := by
    intro d p hd
    have hlow := h.shmids d p hd
    constructor
    · exact Int.ne_of_lt hlow.left
    · exact Int.ne_of_lt (Int.lt_add_one_of_le (Int.le_of_lt hlow.left))
    · exact Int.ne_of_lt hlow.right.left
    · exact Int.ne_of_lt (Int.lt_add_one_of_le (Int.le_of_lt hlow.right.left))
  constructor
  · intro d hd
    rw [hclients, hworkers]
    cases Decidable.em (d = c) with
    | inl heq =>
        rw [heq, hself] at hd
        cases hd
    | inr hdc => exact h.unused d ((hother d hdc).symm.trans hd)
  · intro d w hw
    rw [hworkers] at hw
    have hold := h.worker d w hw
    rw [hother d (hne d _ hold)]
    exact hold
  · intro d p hd
    rw [hnext]
    cases Decidable.em (d = c) with
    | inl heq =>
        rw [heq, hself] at hd
        cases hd
        simp only [newPair]
        lia
    | inr hdc =>
        have hlow := h.shmids d p ((hother d hdc).symm.trans hd)
        exact ⟨by lia, by lia, hlow.right.right⟩
  · intro d e p q hd he hde
    cases Decidable.em (d = c) with
    | inl heq =>
        rw [heq, hself] at hd
        cases hd
        rw [hother e (fun hec => hde (heq.trans hec.symm))] at he
        exact (hfresh e q he).symm
    | inr hdc =>
        rw [hother d hdc] at hd
        cases Decidable.em (e = c) with
        | inl heq =>
            rw [heq, hself] at he
            cases he
            exact hfresh d p hd
        | inr hec =>
            rw [hother e hec] at he
            exact h.apart d e p q hd he hde

theorem ServiceInvariant.visited (hs : ServiceInvariant S s) (allocated : ShmPair)
    (hheader : s'.header = visitWith allocated s.header s.cursor)
    (hstage : s'.stage = s.stage) (hworkers : s'.workers = s.workers)
    (hkeep : forall i, i ≠ s.cursor -> s.header.clientReserved i = true ->
      s'.made (s.header.slots i).clientId = s.made (s.header.slots i).clientId)
    (hself : s.header.clientReserved s.cursor = true ->
      RowKept S s' ((serviced allocated s.header s.cursor).slots s.cursor))
    (hmade : forall c shms, s.made c = some shms -> s'.made c = some shms)
    (hopening : forall c, s.stage c = .opening -> s'.made c = none)
    (hbooks : SegmentBooks s') : ServiceInvariant S s' := by
  have hother : forall i, i ≠ s.cursor ->
      s'.header.clientReserved i = s.header.clientReserved i ∧
        s'.header.slots i = s.header.slots i := by
    intro i hi
    rw [hheader]
    exact (visitWith_other allocated s.header hi).symm
  have hrows := hs.rows s' s.cursor hother
    (fun i hi hreserved => by
      rw [hstage, hworkers, hkeep i hi hreserved]
      exact ⟨(hs.row i hreserved).opened, rfl, rfl⟩)
    (fun hreserved => by
      rw [hheader] at hreserved ⊢
      cases hdetach : (s.header.slots s.cursor).detach with
      | true =>
          rw [(visitWith_detach allocated s.header hdetach).right] at hreserved
          cases hreserved
      | false =>
          rw [visitWith_keep allocated s.header hdetach] at hreserved ⊢
          rw [serviced_clientReserved] at hreserved
          refine ⟨hself hreserved, fun i hi hreservedi heq => ?_⟩
          rcases serviced_self allocated s.header s.cursor with ⟨shms, created, hrow⟩
          rw [hrow] at heq
          exact hi (hs.one i s.cursor hreservedi hreserved heq))
  constructor
  · exact hrows.left
  · exact hrows.right
  · intro c i hwaiting
    rw [hstage] at hwaiting
    have hold := hs.waiting c i hwaiting
    have hsame := visitWith_unclosed allocated s.cursor hold.right.right.left
    rw [hheader, hsame.left, hsame.right.left, hsame.right.right.left,
      hsame.right.right.right.left]
    exact hold
  · intro c shms hconnected
    rw [hstage] at hconnected
    rcases hs.connected c shms hconnected with ⟨hold, i, hreserved, hid, hdetach, hcreated⟩
    have hsame := visitWith_unclosed allocated s.cursor hdetach
    refine ⟨hmade c shms hold, i, ?_⟩
    rw [hheader, hsame.left, hsame.right.left, hsame.right.right.left]
    exact ⟨hreserved, hid, hdetach, hsame.right.right.right.right hcreated⟩
  · intro c
    rw [hstage]
    exact hs.admitted c
  · intro c hopens
    rw [hstage] at hopens
    exact hopening c hopens
  · exact hbooks

theorem serviceVisit_invariant (hs : ServiceInvariant S s) (h : s.visitStep = some s') :
    ServiceInvariant S s' := by
  unfold ServiceState.visitStep at h
  split at h
  · rename_i hneeds
    have hold := hs.row s.cursor hneeds.left
    have hunmade := hold.unmade hneeds.right
    dsimp only at h
    split at h
    · cases h
    · injection h with h
      have hmade : s'.made = Function.update s.made (s.header.slots s.cursor).clientId
          (some (newPair (s.header.slots s.cursor).clientId s.nextShmid)) := by
        rw [← h]
      have hother : forall d, d ≠ (s.header.slots s.cursor).clientId ->
          s'.made d = s.made d := by
        intro d hd
        rw [hmade, Function.update_of_ne hd]
      apply hs.visited (newPair (s.header.slots s.cursor).clientId s.nextShmid)
      · rw [← h]
      · rw [← h]
      · rw [← h]
      · intro i hi hreserved
        apply hother
        exact fun heq => hi (hs.one i s.cursor hreserved hneeds.left heq)
      · intro _
        rw [serviced_of_needs _ hneeds, CoordHeader.setRow_slots_self]
        constructor
        · exact hold.client
        · rw [← h]
          exact hold.opened
        · exact hold.size
        · exact nofun
        · intro _
          rw [hmade, Function.update_self]
        · intro _
          rw [← h]
          exact (hs.books.unused _ hunmade).right
        · rw [← h]
          exact hold.attended
      · intro c shms hc
        rw [hother c]
        · exact hc
        · intro heq
          rw [heq, hunmade] at hc
          cases hc
      · intro c hopens
        rw [hother c]
        · exact hs.unopened c hopens
        · intro heq
          rw [heq] at hopens
          exact hold.opened hopens
      · apply hs.books.allocated hunmade _ _ _ hmade
        · rw [← h]
        · rw [← h]
        · rw [← h]
  · rename_i hneeds
    injection h with h
    apply hs.visited ShmPair.zero
    · rw [← h]
    · rw [← h]
    · rw [← h]
    · intro i _ _
      rw [← h]
    · intro hreserved
      have hold := hs.row s.cursor hreserved
      rw [serviced_of_not_needs _ hneeds, ← h]
      exact hold.of_same hold.opened rfl rfl
    · intro c shms hc
      rw [← h]
      exact hc
    · intro c hopens
      rw [← h]
      exact hs.unopened c hopens
    · rw [← h]
      exact ⟨hs.books.unused, hs.books.worker, hs.books.shmids, hs.books.apart⟩

theorem ServiceInvariant.attached (hs : ServiceInvariant S s) {slot : Slot}
    (hreserved : s.header.clientReserved slot = true)
    (hcreated : (s.header.slots slot).shmCreated = true) (next : Nat) :
    ServiceInvariant S { s with
      header := { s.header with acceptSlot := next }.setRow slot
        { s.header.slots slot with serverAttached := true }
      workers := Function.update s.workers (s.header.slots slot).clientId
        (some ⟨(s.header.slots slot).shms, ServerEnd.start⟩) } := by
  have hold := hs.row slot hreserved
  have hmade := hold.made hcreated
  have hother : forall i, i ≠ slot -> ({ s.header with acceptSlot := next }.setRow slot
      { s.header.slots slot with serverAttached := true }).slots i = s.header.slots i :=
    fun i hi => CoordHeader.setRow_slots_of_ne _ _ _ hi
  have hself : ({ s.header with acceptSlot := next }.setRow slot
      { s.header.slots slot with serverAttached := true }).slots slot =
        { s.header.slots slot with serverAttached := true } :=
    CoordHeader.setRow_slots_self _ _ _
  have hrows := hs.rows { s with
      header := { s.header with acceptSlot := next }.setRow slot
        { s.header.slots slot with serverAttached := true }
      workers := Function.update s.workers (s.header.slots slot).clientId
        (some ⟨(s.header.slots slot).shms, ServerEnd.start⟩) } slot
    (fun i hi => ⟨rfl, hother i hi⟩)
    (fun i hi hreservedi => ⟨(hs.row i hreservedi).opened, rfl,
      Function.update_of_ne (fun heq => hi (hs.one i slot hreservedi hreserved heq)) _ _⟩)
    (fun _ => by
      rw [hself]
      refine ⟨⟨hold.client, hold.opened, hold.size, hold.unmade, hold.made, nofun, ?_⟩,
        fun i hi hreservedi heq => hi (hs.one i slot hreservedi hreserved heq)⟩
      intro _ hnone
      have hself := (Function.update_self (s.header.slots slot).clientId
        (some ⟨(s.header.slots slot).shms, ServerEnd.start⟩) s.workers).symm.trans hnone
      cases hself)
  constructor
  · exact hrows.left
  · exact hrows.right
  · intro c i hwaiting
    have hwaits := hs.waiting c i hwaiting
    cases Decidable.em (i = slot) with
    | inl heq =>
        rw [heq] at hwaits ⊢
        rw [hself]
        exact hwaits
    | inr hne =>
        rw [hother i hne]
        exact hwaits
  · intro c shms hconnected
    rcases hs.connected c shms hconnected with ⟨hmade, i, hreservedi, hrow⟩
    refine ⟨hmade, i, hreservedi, ?_⟩
    cases Decidable.em (i = slot) with
    | inl heq =>
        rw [heq] at hrow ⊢
        rw [hself]
        exact hrow
    | inr hne =>
        rw [hother i hne]
        exact hrow
  · exact hs.admitted
  · exact hs.unopened
  · constructor
    · intro c hc
      have hne : c ≠ (s.header.slots slot).clientId := by
        intro heq
        rw [heq] at hc
        rw [show s.made _ = none from hc] at hmade
        cases hmade
      have hold := hs.books.unused c hc
      exact ⟨hold.left, (Function.update_of_ne hne _ _).trans hold.right⟩
    · intro c w hw
      have hw : Function.update s.workers (s.header.slots slot).clientId
          (some ⟨(s.header.slots slot).shms, ServerEnd.start⟩) c = some w := hw
      cases Decidable.em (c = (s.header.slots slot).clientId) with
      | inl heq =>
          rw [heq, Function.update_self] at hw
          cases hw
          rw [heq]
          exact hmade
      | inr hne =>
          rw [Function.update_of_ne hne] at hw
          exact hs.books.worker c w hw
    · exact hs.books.shmids
    · exact hs.books.apart

theorem serviceAccept_invariant (hs : ServiceInvariant S s) :
    ServiceInvariant S s.acceptStep := by
  unfold ServiceState.acceptStep
  split
  · exact hs
  · rename_i slot hscan
    rcases eligible_iff.mp (acceptScan_eligible hscan) with ⟨hreserved, hcreated, _⟩
    dsimp only
    split
    · constructor
      · intro i hi
        exact (hs.row i hi).of_same (hs.row i hi).opened rfl rfl
      · exact hs.one
      · exact hs.waiting
      · exact hs.connected
      · exact hs.admitted
      · exact hs.unopened
      · exact ⟨hs.books.unused, hs.books.worker, hs.books.shmids, hs.books.apart⟩
    · rw [setServerAttachState, if_pos hcreated, getClientId, if_pos hcreated, checkSlot,
        if_pos hcreated]
      exact hs.attached hreserved hcreated _

theorem serviceRun_invariant (hs : ServiceInvariant S s)
    (h : s.runStep S c = some s') : ServiceInvariant S s' := by
  unfold ServiceState.runStep at h
  split at h
  · rename_i shms hconnected
    rcases Option.map_eq_some_iff.mp h with ⟨t, _, rfl⟩
    have hmade := (hs.connected c shms hconnected).left
    constructor
    · intro i hi
      exact (hs.row i hi).of_same (hs.row i hi).opened rfl rfl
    · exact hs.one
    · exact hs.waiting
    · exact hs.connected
    · exact hs.admitted
    · exact hs.unopened
    · constructor
      · intro d hd
        have hne : d ≠ c := by
          intro heq
          rw [heq] at hd
          rw [show s.made c = none from hd] at hmade
          cases hmade
        have hold := hs.books.unused d hd
        exact ⟨(Function.update_of_ne hne _ _).trans hold.left, hold.right⟩
      · exact hs.books.worker
      · exact hs.books.shmids
      · exact hs.books.apart
  · cases h

theorem serviceServe_invariant (hs : ServiceInvariant S s)
    (h : s.serveStep S c = some s') : ServiceInvariant S s' := by
  unfold ServiceState.serveStep at h
  split at h
  · rename_i worker hworker
    rcases Option.map_eq_some_iff.mp h with ⟨t, _, rfl⟩
    have hmade := hs.books.worker c worker hworker
    have hother : forall d, d ≠ c -> Function.update s.workers c
        (some { worker with place := t.serverEnd }) d = s.workers d :=
      fun d hd => Function.update_of_ne hd _ _
    constructor
    · intro i hi
      have hold := hs.row i hi
      constructor
      · exact hold.client
      · exact hold.opened
      · exact hold.size
      · exact hold.unmade
      · exact hold.made
      · intro hrow
        have hnone := hold.unserved hrow
        apply (hother _ _).trans hnone
        intro heq
        rw [heq, hworker] at hnone
        cases hnone
      · intro hrow hnone
        have hnone : Function.update s.workers c (some { worker with place := t.serverEnd })
            (s.header.slots i).clientId = none := hnone
        cases Decidable.em ((s.header.slots i).clientId = c) with
        | inl heq =>
            rw [heq] at hnone
            have hself := (Function.update_self c
              (some { worker with place := t.serverEnd }) s.workers).symm.trans hnone
            cases hself
        | inr hne => exact hold.attended hrow ((hother _ hne).symm.trans hnone)
    · exact hs.one
    · exact hs.waiting
    · exact hs.connected
    · exact hs.admitted
    · exact hs.unopened
    · constructor
      · intro d hd
        have hold := hs.books.unused d hd
        refine ⟨hold.left, (hother d ?_).trans hold.right⟩
        intro heq
        rw [heq] at hd
        rw [show s.made c = none from hd] at hmade
        cases hmade
      · intro d w hw
        cases Decidable.em (d = c) with
        | inl heq =>
            rw [heq] at hw ⊢
            have hself : some { worker with place := t.serverEnd } = some w :=
              (Function.update_self c _ s.workers).symm.trans hw
            cases hself
            exact hmade
        | inr hne => exact hs.books.worker d w ((hother d hne).symm.trans hw)
      · exact hs.books.shmids
      · exact hs.books.apart
  · cases h

theorem serviceNext_invariant {l : ServiceLabel} (hs : ServiceInvariant S s)
    (h : serviceNext S s l = some s') : ServiceInvariant S s' := by
  cases l with
  | request c => exact serviceRequest_invariant hs h
  | connect c => exact serviceConnect_invariant hs h
  | run c => exact serviceRun_invariant hs h
  | close c => exact serviceClose_invariant hs h
  | visit => exact serviceVisit_invariant hs h
  | accept =>
      cases h
      exact serviceAccept_invariant hs
  | serve c => exact serviceServe_invariant hs h

end Steps

theorem service_invariant {S : Service} {s : ServiceState}
    (hs : (serviceSystem S).Reachable s) : ServiceInvariant S s := by
  apply TransitionSystem.reachableUnder_invariant _ _ hs
  · intro start hstart
    rcases hstart with ⟨shmid, rfl⟩
    exact serviceInvariant_start S shmid
  · exact fun _ _ _ ht _ hnext => serviceNext_invariant ht hnext

end Rpc
end Notnets
