import Notnets.Foundation.HelpfulLabel
import Notnets.Rpc.ServiceProgress

/-!
# How long a client has to wait

A schedule that is fair to the manager, to `accept`, to one client and to its worker
serves this client within a bounded number of steps, whatever the other clients do in
between.
-/

namespace Notnets
namespace Rpc

open Coord
open Foundation
open Queue

/-!
# What is left to do before the calls
-/

structure Attends (c : Int) (slot : Slot) (s : ServiceState) : Prop where
  stage : s.stage c = .waiting slot ∨
    (exists shms, s.stage c = .connected shms) ∧ (s.header.slots slot).shmCreated = true
  reserved : s.header.clientReserved slot = true
  client : (s.header.slots slot).clientId = c
  detach : (s.header.slots slot).detach = false

/-- Calls of `accept` until the client has a worker. -/
def acceptWork (c : Int) (slot : Slot) (s : ServiceState) : Nat :=
  match s.workers c with
  | some _ => 0
  | none =>
      if (s.header.slots slot).shmCreated then
        1 + turns slotNum s.header.acceptSlot slot.val
      else
        1 + slotNum

/-- Visits of the manager until `shm_created` is set, and the test of it. -/
def openWork (c : Int) (slot : Slot) (s : ServiceState) : Nat :=
  match s.stage c with
  | .waiting _ =>
      if (s.header.slots slot).shmCreated then 1 else 2 + ahead s.cursor slot
  | _ => 0

inductive DeskHelps (c : Int) (slot : Slot) (s : ServiceState) : ServiceLabel -> Prop where
  | visit (hstage : s.stage c = .waiting slot)
      (hcreated : (s.header.slots slot).shmCreated = false) : DeskHelps c slot s .visit
  | connect (hstage : s.stage c = .waiting slot)
      (hcreated : (s.header.slots slot).shmCreated = true) : DeskHelps c slot s (.connect c)
  | accept (hstage : exists shms, s.stage c = .connected shms)
      (hworker : s.workers c = none) : DeskHelps c slot s .accept

structure SameDesk (c : Int) (slot : Slot) (s s' : ServiceState) : Prop where
  stage : s'.stage c = s.stage c
  worker : s'.workers c = none <-> s.workers c = none
  created : (s'.header.slots slot).shmCreated = (s.header.slots slot).shmCreated

section Desk

variable {S : Service} {s s' : ServiceState} {c d : Int} {slot : Slot} {l : ServiceLabel}

theorem acceptWork_of_worker (h : s.workers c ≠ none) : acceptWork c slot s = 0 := by
  unfold acceptWork
  split
  · rfl
  · rename_i hnone
    exact absurd hnone h

theorem acceptWork_of_none (h : s.workers c = none) :
    acceptWork c slot s = if (s.header.slots slot).shmCreated then
      1 + turns slotNum s.header.acceptSlot slot.val else 1 + slotNum := by
  rw [acceptWork, h]

theorem openWork_of_waiting (h : s.stage c = .waiting slot) :
    openWork c slot s =
      if (s.header.slots slot).shmCreated then 1 else 2 + ahead s.cursor slot := by
  rw [openWork, h]

theorem openWork_of_connected {shms : ShmPair} (h : s.stage c = .connected shms) :
    openWork c slot s = 0 := by
  rw [openWork, h]

theorem SameDesk.acceptWork (h : SameDesk c slot s s')
    (hturn : s'.header.acceptSlot = s.header.acceptSlot) :
    acceptWork c slot s' = acceptWork c slot s := by
  cases Decidable.em (s.workers c = none) with
  | inl hnone =>
      rw [acceptWork_of_none hnone, acceptWork_of_none (h.worker.mpr hnone), h.created,
        hturn]
  | inr hsome =>
      rw [acceptWork_of_worker hsome,
        acceptWork_of_worker fun hnone => hsome (h.worker.mp hnone)]

theorem SameDesk.openWork (h : SameDesk c slot s s') (hcursor : s'.cursor = s.cursor) :
    openWork c slot s' = openWork c slot s := by
  unfold Rpc.openWork
  rw [h.stage, h.created, hcursor]

structure DeskStep (c : Int) (slot : Slot) (s : ServiceState) (l : ServiceLabel)
    (s' : ServiceState) : Prop where
  attends : Attends c slot s'
  lowers : acceptWork c slot s' + openWork c slot s' <
      acceptWork c slot s + openWork c slot s ∨
    (acceptWork c slot s' + openWork c slot s' = acceptWork c slot s + openWork c slot s ∧
      SameDesk c slot s s' ∧ ¬ DeskHelps c slot s l)

structure RowStays (row row' : CoordRow) : Prop where
  client : row'.clientId = row.clientId
  detach : row'.detach = row.detach
  created : row'.shmCreated = row.shmCreated

theorem RowStays.of_eq {row row' : CoordRow} (h : row' = row) : RowStays row row' := by
  rw [h]
  exact ⟨rfl, rfl, rfl⟩

theorem Attends.quiet (ha : Attends c slot s) (hstage : s'.stage c = s.stage c)
    (hworker : s'.workers c = none <-> s.workers c = none)
    (hreserved : s'.header.clientReserved slot = s.header.clientReserved slot)
    (hrow : RowStays (s.header.slots slot) (s'.header.slots slot))
    (hturn : s'.header.acceptSlot = s.header.acceptSlot) (hcursor : s'.cursor = s.cursor)
    (hidle : ¬ DeskHelps c slot s l) : DeskStep c slot s l s' := by
  have hsame : SameDesk c slot s s' := ⟨hstage, hworker, hrow.created⟩
  constructor
  · constructor
    · rw [hstage, hrow.created]
      exact ha.stage
    · rw [hreserved]
      exact ha.reserved
    · rw [hrow.client]
      exact ha.client
    · rw [hrow.detach]
      exact ha.detach
  · right
    rw [hsame.acceptWork hturn, hsame.openWork hcursor]
    exact ⟨rfl, hsame, hidle⟩

theorem Attends.ne_opening (ha : Attends c slot s) : s.stage c ≠ .opening := by
  intro hopening
  cases ha.stage with
  | inl hwaiting =>
      rw [hopening] at hwaiting
      cases hwaiting
  | inr hconnected =>
      rcases hconnected.left with ⟨shms, hstage⟩
      rw [hopening] at hstage
      cases hstage

theorem Attends.created (ha : Attends c slot s)
    (hconnected : exists shms, s.stage c = .connected shms) :
    (s.header.slots slot).shmCreated = true := by
  rcases hconnected with ⟨shms, hstage⟩
  cases ha.stage with
  | inl hwaiting =>
      rw [hstage] at hwaiting
      cases hwaiting
  | inr hrow => exact hrow.right

theorem deskStep_request (ha : Attends c slot s) (h : s.requestStep S d = some s') :
    DeskStep c slot s (.request d) s' := by
  unfold ServiceState.requestStep at h
  split at h
  · rename_i hopening
    have hne : c ≠ d := by
      intro heq
      rw [← heq] at hopening
      exact ha.ne_opening hopening
    rcases requestSlot_cases s.header d (S.pipeline d).header.messageSize .poll with
      ⟨i, hfree, hrequest⟩ | ⟨_, hrequest⟩
    · rw [hrequest] at h
      injection h with h
      rw [← h]
      have hi : slot ≠ i := by
        intro heq
        have hunreserved := (freeSlot_eq_some_iff.mp hfree).left
        rw [← heq, ha.reserved] at hunreserved
        cases hunreserved
      apply ha.quiet
      · exact Function.update_of_ne hne _ _
      · exact Iff.rfl
      · exact CoordHeader.setReserved_clientReserved_of_ne _ _ _ hi
      · apply RowStays.of_eq
        rw [CoordHeader.setReserved_slots, CoordHeader.setRow_slots_of_ne _ _ _ hi]
      · rfl
      · rfl
      · exact nofun
    · rw [hrequest] at h
      injection h with h
      rw [← h]
      exact ha.quiet rfl Iff.rfl rfl (RowStays.of_eq rfl) rfl rfl nofun
  · cases h

theorem deskStep_run (ha : Attends c slot s) (h : s.runStep S d = some s') :
    DeskStep c slot s (.run d) s' := by
  unfold ServiceState.runStep at h
  split at h
  · rcases Option.map_eq_some_iff.mp h with ⟨t, _, rfl⟩
    exact ha.quiet rfl Iff.rfl rfl (RowStays.of_eq rfl) rfl rfl nofun
  · cases h

theorem deskStep_serve (ha : Attends c slot s) (h : s.serveStep S d = some s') :
    DeskStep c slot s (.serve d) s' := by
  unfold ServiceState.serveStep at h
  split at h
  · rename_i worker hworker
    rcases Option.map_eq_some_iff.mp h with ⟨t, _, rfl⟩
    apply ha.quiet
    · rfl
    · show Function.update s.workers d _ c = none <-> _
      cases Decidable.em (c = d) with
      | inl heq =>
          rw [heq, Function.update_self, hworker]
          exact ⟨nofun, nofun⟩
      | inr hne => rw [Function.update_of_ne hne]
    · rfl
    · exact RowStays.of_eq rfl
    · rfl
    · rfl
    · exact nofun
  · cases h

theorem deskStep_close (ha : Attends c slot s) (hne : c ≠ d)
    (h : s.closeStep d = some s') : DeskStep c slot s (.close d) s' := by
  have hclosed : s' = { s with
      header := (clientClose s.header d).1
      stage := Function.update s.stage d .closed } := by
    unfold ServiceState.closeStep at h
    split at h
    · injection h with h
      exact h.symm
    · injection h with h
      exact h.symm
    · cases h
  rw [hclosed]
  rcases clientClose_cases s.header d with ⟨i, hmatch, hclose⟩ | ⟨_, hclose⟩
  · have hi : slot ≠ i := by
      intro heq
      have hid := (matchingRow_eq_some_iff.mp hmatch).left
      rw [← heq, ha.client] at hid
      exact hne hid
    rw [hclose]
    apply ha.quiet
    · exact Function.update_of_ne hne _ _
    · exact Iff.rfl
    · rfl
    · exact RowStays.of_eq (markDetach_of_ne s.header hi)
    · rfl
    · rfl
    · exact nofun
  · rw [hclose]
    apply ha.quiet
    · exact Function.update_of_ne hne _ _
    · exact Iff.rfl
    · rfl
    · exact RowStays.of_eq rfl
    · rfl
    · rfl
    · exact nofun

theorem deskStep_connect (hs : ServiceInvariant S s) (ha : Attends c slot s)
    (h : s.connectStep d = some s') : DeskStep c slot s (.connect d) s' := by
  unfold ServiceState.connectStep at h
  split at h
  · rename_i i hwaiting
    rcases hs.waiting d i hwaiting with ⟨_, hid, _, hattached⟩
    split at h
    · rename_i hcreated
      rw [getClientAttachState, if_pos hcreated, hattached, if_neg Bool.false_ne_true] at h
      injection h with h
      have hset : (setClientAttachState s.header i true).1 = s.header.setRow i
          { s.header.slots i with clientAttached := true } := by
        rw [setClientAttachState, if_pos hcreated]
      rw [hset] at h
      cases Decidable.em (c = d) with
      | inl heq =>
          have hi : i = slot := by
            cases ha.stage with
            | inl hmine =>
                rw [heq, hwaiting] at hmine
                injection hmine
            | inr hconnected =>
                rcases hconnected.left with ⟨shms, hmine⟩
                rw [heq, hwaiting] at hmine
                cases hmine
          rw [hi] at h hcreated hwaiting
          rw [← heq] at h hwaiting ⊢
          have hstage : s'.stage c = .connected (checkSlot s.header slot) := by
            rw [← h]
            exact Function.update_self _ _ _
          have hrow : s'.header.slots slot =
              { s.header.slots slot with clientAttached := true } := by
            rw [← h]
            exact CoordHeader.setRow_slots_self _ _ _
          have hcreated' : (s'.header.slots slot).shmCreated = true := by
            rw [hrow]
            exact hcreated
          constructor
          · constructor
            · exact Or.inr ⟨⟨_, hstage⟩, hcreated'⟩
            · rw [← h]
              exact ha.reserved
            · rw [hrow]
              exact ha.client
            · rw [hrow]
              exact ha.detach
          · left
            have haccept : acceptWork c slot s' = acceptWork c slot s := by
              unfold acceptWork
              rw [hcreated, hcreated', ← h]
              rfl
            rw [haccept, openWork_of_connected hstage, openWork_of_waiting hwaiting,
              if_pos hcreated]
            exact Nat.lt_succ_self _
      | inr hne =>
          have hi : slot ≠ i := by
            intro heq
            rw [← heq, ha.client] at hid
            exact hne hid
          rw [← h]
          apply ha.quiet
          · exact Function.update_of_ne hne _ _
          · exact Iff.rfl
          · rfl
          · exact RowStays.of_eq (CoordHeader.setRow_slots_of_ne _ _ _ hi)
          · rfl
          · rfl
          · intro hhelps
            cases hhelps
            exact hne rfl
    · rename_i hcreated
      injection h with h
      rw [← h]
      apply ha.quiet rfl Iff.rfl rfl (RowStays.of_eq rfl) rfl rfl
      intro hhelps
      cases hhelps with
      | connect hmine hcreated' =>
          rw [hwaiting] at hmine
          injection hmine with hmine
          rw [hmine] at hcreated
          exact hcreated hcreated'
  · cases h

/-- The manager brings the row of the client closer to its visit. -/
theorem deskStep_visit (ha : Attends c slot s) (h : s.visitStep = some s') :
    DeskStep c slot s .visit s' := by
  rcases visitStep_moves h with ⟨⟨shms, hheader⟩, hcursor, hstage, _, hworkers⟩
  rcases visitWith_unclosed shms s.cursor ha.detach with
    ⟨hreserved, hid, hdetach, _, hcreates⟩
  rw [← hheader] at hreserved hid hdetach hcreates
  have hturn : s'.header.acceptSlot = s.header.acceptSlot := by
    rw [hheader]
    exact visitWith_acceptSlot _ _ _
  have hworker : s'.workers c = none <-> s.workers c = none := by
    rw [hworkers]
  have hattends : Attends c slot s' := by
    constructor
    · rw [hstage]
      cases ha.stage with
      | inl hwaiting => exact Or.inl hwaiting
      | inr hconnected => exact Or.inr ⟨hconnected.left, hcreates hconnected.right⟩
    · exact hreserved.trans ha.reserved
    · exact hid.trans ha.client
    · exact hdetach.trans ha.detach
  cases hcreated : (s.header.slots slot).shmCreated with
  | true =>
      have hcreated' := hcreates hcreated
      have hsame : SameDesk c slot s s' :=
        ⟨congrFun hstage c, hworker, hcreated'.trans hcreated.symm⟩
      refine ⟨hattends, Or.inr ⟨?_, hsame, ?_⟩⟩
      · rw [hsame.acceptWork hturn, openWork, openWork, hstage, hcreated, hcreated']
        rfl
      · intro hhelps
        cases hhelps with
        | visit _ hnot =>
            rw [hcreated] at hnot
            cases hnot
  | false =>
      have hwaiting : s.stage c = .waiting slot := by
        cases ha.stage with
        | inl hwaiting => exact hwaiting
        | inr hconnected =>
            rw [hcreated] at hconnected
            cases hconnected.right
      have hwaiting' := (congrFun hstage c).trans hwaiting
      refine ⟨hattends, Or.inl ?_⟩
      rw [openWork_of_waiting hwaiting, openWork_of_waiting hwaiting', hcreated]
      cases Decidable.em (slot = s.cursor) with
      | inl heq =>
          have hcreated' : (s'.header.slots slot).shmCreated = true := by
            cases hrow : (s'.header.slots slot).shmCreated with
            | true => rfl
            | false =>
                have hneeds : NeedsService s'.header slot :=
                  ⟨hreserved.trans ha.reserved, hrow⟩
                rw [hheader] at hneeds
                exact absurd heq (needsService_visitWith hneeds).left
          have hle : acceptWork c slot s' ≤ acceptWork c slot s := by
            cases Decidable.em (s.workers c = none) with
            | inl hnone =>
                have hlt : turns slotNum s'.header.acceptSlot slot.val < slotNum :=
                  turns_lt (by decide)
                rw [acceptWork_of_none hnone, acceptWork_of_none (hworker.mpr hnone),
                  hcreated, hcreated', if_pos rfl, if_neg Bool.false_ne_true]
                lia
            | inr hsome =>
                rw [acceptWork_of_worker fun hnone => hsome (hworker.mp hnone)]
                exact Nat.zero_le _
          rw [hcreated', if_pos rfl, if_neg Bool.false_ne_true]
          lia
      | inr hne =>
          have hrow := (visitWith_other shms s.header hne).left
          rw [← hheader] at hrow
          have hcreated' : (s'.header.slots slot).shmCreated = false := by
            rw [hrow]
            exact hcreated
          have hsame : SameDesk c slot s s' :=
            ⟨congrFun hstage c, hworker, hcreated'.trans hcreated.symm⟩
          have hnext := ahead_next hne
          rw [hsame.acceptWork hturn, hcreated', hcursor, if_neg Bool.false_ne_true]
          lia

theorem acceptStep_workers {chosen : Slot} (hscan : acceptScan s.header = some chosen)
    (hne : c ≠ (s.header.slots chosen).clientId) : s.acceptStep.workers c = s.workers c := by
  rcases eligible_iff.mp (acceptScan_eligible hscan) with ⟨_, hcreated, _⟩
  unfold ServiceState.acceptStep
  rw [hscan]
  dsimp only
  split
  · rfl
  · rw [setServerAttachState, if_pos hcreated, getClientId, if_pos hcreated]
    exact Function.update_of_ne hne _ _

theorem acceptStep_attended (hs : ServiceInvariant S s) (h : s.workers c ≠ none) :
    s.acceptStep.workers c ≠ none := by
  cases hscan : acceptScan s.header with
  | none =>
      have hsame : s.acceptStep = s := by
        unfold ServiceState.acceptStep
        rw [hscan]
      rw [hsame]
      exact h
  | some chosen =>
      cases Decidable.em (c = (s.header.slots chosen).clientId) with
      | inl heq =>
          rw [heq]
          exact (acceptStep_chosen hs hscan).right
      | inr hne =>
          rw [acceptStep_workers hscan hne]
          exact h

theorem acceptStep_unmade (ha : Attends c slot s) (hs : ServiceInvariant S s)
    (hcreated : (s.header.slots slot).shmCreated = false) :
    s.acceptStep.workers c = s.workers c := by
  cases hscan : acceptScan s.header with
  | none =>
      unfold ServiceState.acceptStep
      rw [hscan]
  | some chosen =>
      apply acceptStep_workers hscan
      intro heq
      rcases eligible_iff.mp (acceptScan_eligible hscan) with ⟨hreserved, hmade, _⟩
      rw [hs.one chosen slot hreserved ha.reserved (heq.symm.trans ha.client.symm),
        hcreated] at hmade
      cases hmade

/-- `accept` chooses the row of the client, or one in front of it. -/
theorem acceptStep_turn (ha : Attends c slot s) (hs : ServiceInvariant S s)
    (hcreated : (s.header.slots slot).shmCreated = true) (hnone : s.workers c = none) :
    acceptWork c slot s.acceptStep < acceptWork c slot s := by
  have heligible : eligible s.header slot = true :=
    eligible_iff.mpr ⟨ha.reserved, hcreated, ha.detach⟩
  rw [acceptWork_of_none hnone, if_pos hcreated]
  cases hscan : acceptScan s.header with
  | none =>
      have hno := acceptScan_eq_none.mp hscan slot
      rw [heligible] at hno
      cases hno
  | some chosen =>
      rcases acceptStep_chosen hs hscan with ⟨hturn, hworker⟩
      cases Decidable.em (c = (s.header.slots chosen).clientId) with
      | inl heq =>
          rw [← heq] at hworker
          rw [acceptWork_of_worker hworker]
          lia
      | inr hne =>
          have hslot : slot.val ≠ chosen.val := by
            intro heq
            rw [← Fin.ext heq, ha.client] at hne
            exact hne rfl
          have hcandidate : eligible s.header (slotAt slot.val) = true := by
            rw [slotAt_eq (Nat.mod_eq_of_lt slot.isLt)]
            exact heligible
          have hcloser := (acceptScan_picks hscan).closer slot.isLt hcandidate hslot
          rw [acceptWork_of_none ((acceptStep_workers hscan hne).trans hnone),
            (acceptStep_row s slot).right.right.right, if_pos hcreated, hturn]
          lia

theorem deskStep_accept (hs : ServiceInvariant S s) (ha : Attends c slot s) :
    DeskStep c slot s .accept s.acceptStep := by
  rcases acceptStep_same s with ⟨hstage, _, hcursor⟩
  rcases acceptStep_row s slot with ⟨hreserved, hid, hdetach, hcreated⟩
  have hopen : openWork c slot s.acceptStep = openWork c slot s := by
    rw [openWork, openWork, hstage, hcreated, hcursor]
  constructor
  · constructor
    · rw [hstage, hcreated]
      exact ha.stage
    · exact hreserved.trans ha.reserved
    · exact hid.trans ha.client
    · exact hdetach.trans ha.detach
  · rw [hopen]
    cases Decidable.em (s.workers c = none) with
    | inr hsome =>
        have hsome' := acceptStep_attended hs hsome
        rw [acceptWork_of_worker hsome, acceptWork_of_worker hsome']
        refine Or.inr ⟨rfl, ⟨congrFun hstage c, ?_, hcreated⟩, ?_⟩
        · exact ⟨fun hnone => absurd hnone hsome', fun hnone => absurd hnone hsome⟩
        · intro hhelps
          cases hhelps with
          | accept _ hnone => exact hsome hnone
    | inl hnone =>
        cases hmade : (s.header.slots slot).shmCreated with
        | true =>
            have hlower := acceptStep_turn ha hs hmade hnone
            left
            lia
        | false =>
            have hsame := acceptStep_unmade ha hs hmade
            rw [acceptWork_of_none hnone, acceptWork_of_none (hsame.trans hnone), hcreated,
              hmade]
            refine Or.inr ⟨rfl, ⟨congrFun hstage c, by rw [hsame], hcreated⟩, ?_⟩
            intro hhelps
            cases hhelps with
            | accept hconnected _ =>
                rw [ha.created hconnected] at hmade
                cases hmade

theorem serviceNext_desk (hs : ServiceInvariant S s) (ha : Attends c slot s)
    (hopen : l ≠ .close c) (h : serviceNext S s l = some s') : DeskStep c slot s l s' := by
  cases l with
  | request d => exact deskStep_request ha h
  | connect d => exact deskStep_connect hs ha h
  | run d => exact deskStep_run ha h
  | close d =>
      apply deskStep_close ha _ h
      intro heq
      rw [heq] at hopen
      exact hopen rfl
  | visit => exact deskStep_visit ha h
  | accept =>
      cases h
      exact deskStep_accept hs ha
  | serve d => exact deskStep_serve ha h

end Desk

/-!
# The goal comes closer
-/

def serviceWork (S : Service) (c : Int) (slot : Slot) (s : ServiceState) : Nat :=
  (s.connection S c).work (S.pipeline c) + (acceptWork c slot s + openWork c slot s)

inductive Helps (S : Service) (c : Int) (slot : Slot) (s : ServiceState) :
    ServiceLabel -> Prop where
  | desk {l : ServiceLabel} (h : DeskHelps c slot s l) : Helps S c slot s l
  | run {t : PipelineState} (hconnected : exists shms, s.stage c = .connected shms)
      (hnext : clientNext (S.pipeline c) (s.connection S c) = some t)
      (hlower : t.work (S.pipeline c) < (s.connection S c).work (S.pipeline c)) :
      Helps S c slot s (.run c)
  | serve {t : PipelineState} (hworker : s.workers c ≠ none)
      (hnext : serverNext (S.pipeline c) (s.connection S c) = some t)
      (hlower : t.work (S.pipeline c) < (s.connection S c).work (S.pipeline c)) :
      Helps S c slot s (.serve c)

def Finished (c : Int) (s : ServiceState) : Prop :=
  (s.clients c).pc = .finished

section Goal

variable {S : Service} {s s' : ServiceState} {c : Int} {slot : Slot} {l h : ServiceLabel}
  {g : Geometry}

theorem DeskHelps.of_same (hhelps : DeskHelps c slot s h) (hsame : SameDesk c slot s s') :
    DeskHelps c slot s' h := by
  cases hhelps with
  | visit hstage hcreated =>
      exact .visit (hsame.stage.trans hstage) (hsame.created.trans hcreated)
  | connect hstage hcreated =>
      exact .connect (hsame.stage.trans hstage) (hsame.created.trans hcreated)
  | accept hstage hworker =>
      rcases hstage with ⟨shms, hstage⟩
      exact .accept ⟨shms, hsame.stage.trans hstage⟩ (hsame.worker.mpr hworker)

theorem Helps.of_same (hhelps : Helps S c slot s h) (hsame : SameDesk c slot s s')
    (hconnection : s'.connection S c = s.connection S c) : Helps S c slot s' h := by
  cases hhelps with
  | desk hdesk => exact .desk (hdesk.of_same hsame)
  | run hconnected hnext hlower =>
      rw [← hconnection] at hnext hlower
      rcases hconnected with ⟨shms, hstage⟩
      exact .run ⟨shms, hsame.stage.trans hstage⟩ hnext hlower
  | serve hworker hnext hlower =>
      rw [← hconnection] at hnext hlower
      exact .serve (fun hnone => hworker (hsame.worker.mp hnone)) hnext hlower

theorem Helps.connection_ne (hs : ServiceInvariant S s) (hhelps : Helps S c slot s l)
    (hdesk : ¬ DeskHelps c slot s l) (h : serviceNext S s l = some s') :
    s'.connection S c ≠ s.connection S c := by
  intro hsame
  cases hhelps with
  | desk hyes => exact hdesk hyes
  | run _ hnext hlower =>
      have hown := runStep_own hs h
      rw [hnext, hsame] at hown
      injection hown with hown
      rw [hown] at hlower
      exact Nat.lt_irrefl _ hlower
  | serve _ hnext hlower =>
      have hown := serveStep_own hs h
      rw [hnext, hsame] at hown
      injection hown with hown
      rw [hown] at hlower
      exact Nat.lt_irrefl _ hlower

theorem connection_work (hs : ServiceInvariant S s)
    (hpipeline : PipelineInvariant (S.pipeline c) g (s.connection S c))
    (h : serviceNext S s l = some s') :
    s'.connection S c = s.connection S c ∨
      (s'.connection S c).work (S.pipeline c) <
        (s.connection S c).work (S.pipeline c) := by
  cases service_simulates c s l s' hs h with
  | inl hsame => exact Or.inl hsame
  | inr hmoves =>
      rcases hmoves with ⟨label, hnext⟩
      exact pipelineNext_work hpipeline hnext

theorem serviceWork_lowers (hs : ServiceInvariant S s)
    (hpipeline : PipelineInvariant (S.pipeline c) g (s.connection S c))
    (ha : Attends c slot s) (hopen : l ≠ .close c) (hhelps : Helps S c slot s h)
    (hnext : serviceNext S s l = some s') :
    serviceWork S c slot s' < serviceWork S c slot s ∨
      (serviceWork S c slot s' = serviceWork S c slot s ∧ Helps S c slot s' h ∧ l ≠ h) := by
  unfold serviceWork
  cases connection_work hs hpipeline hnext with
  | inr hlower =>
      left
      cases (serviceNext_desk hs ha hopen hnext).lowers with
      | inl hdesk => lia
      | inr hdesk => lia
  | inl hsame =>
      rw [hsame]
      cases (serviceNext_desk hs ha hopen hnext).lowers with
      | inl hdesk =>
          left
          lia
      | inr hlevel =>
          rcases hlevel with ⟨hdesk, hwhere, hidle⟩
          refine Or.inr ⟨by rw [hdesk], hhelps.of_same hwhere hsame, ?_⟩
          intro heq
          rw [← heq] at hhelps
          exact hhelps.connection_ne hs hidle hnext hsame

theorem finished_stays (hs : ServiceInvariant S s) (hs' : ServiceInvariant S s')
    (h : serviceNext S s l = some s') (hfinished : Finished c s) : Finished c s' := by
  have hclient : (s.connection S c).client = .finished := by
    unfold Finished at hfinished
    rw [← connection_clientEnd (S := S) hs] at hfinished
    exact hfinished
  unfold Finished
  rw [← connection_clientEnd (S := S) hs']
  show (s'.connection S c).client = .finished
  cases service_simulates c s l s' hs h with
  | inl hsame =>
      have hstill : s'.connection S c = s.connection S c := hsame
      rw [hstill]
      exact hclient
  | inr hmoves =>
      rcases hmoves with ⟨label, hnext⟩
      cases label with
      | client =>
          have hstep : clientNext (S.pipeline c) (s.connection S c) = some _ := hnext
          simp only [clientNext, hclient] at hstep
          cases hstep
      | server =>
          rw [serverNext_client hnext]
          exact hclient

theorem exists_helps (hs : ServiceInvariant S s)
    (hpipeline : PipelineInvariant (S.pipeline c) g (s.connection S c))
    (htwo : 2 ≤ g.queueSize) (hcalls : (S.pipeline c).calls < 2 * g.queueSize)
    (ha : Attends c slot s) (hopen : ¬ Finished c s) : exists l, Helps S c slot s l := by
  cases ha.stage with
  | inl hwaiting =>
      cases hcreated : (s.header.slots slot).shmCreated with
      | false => exact ⟨_, .desk (.visit hwaiting hcreated)⟩
      | true => exact ⟨_, .desk (.connect hwaiting hcreated)⟩
  | inr hconnected =>
      cases Decidable.em (s.workers c = none) with
      | inl hnone => exact ⟨_, .desk (.accept hconnected.left hnone)⟩
      | inr hworker =>
          have hboth : ¬ BothFinished (s.connection S c) := by
            intro hdone
            apply hopen
            unfold Finished
            rw [← connection_clientEnd (S := S) hs]
            exact hdone.left
          have hfree : ¬ Stuck (s.connection S c) := by
            intro hstuck
            have hmany := calls_of_stuck hpipeline htwo hstuck
            lia
          rcases pipeline_progress hpipeline htwo hboth hfree with
            ⟨label, t, hnext, hlower⟩
          cases label with
          | client => exact ⟨_, .run hconnected.left hnext hlower⟩
          | server => exact ⟨_, .serve hworker hnext hlower⟩

theorem Helps.possible (hs : ServiceInvariant S s) (hhelps : Helps S c slot s l) :
    Serving c l ∧ l ≠ .close c ∧ serviceNext S s l ≠ none := by
  cases hhelps with
  | desk hdesk =>
      cases hdesk with
      | visit _ _ =>
          rcases visitStep_returns hs with ⟨s', hvisit⟩
          refine ⟨trivial, nofun, ?_⟩
          show s.visitStep ≠ none
          rw [hvisit]
          exact Option.some_ne_none s'
      | connect hwaiting hcreated =>
          refine ⟨rfl, nofun, ?_⟩
          show s.connectStep c ≠ none
          unfold ServiceState.connectStep
          rw [hwaiting]
          dsimp only
          rw [if_pos hcreated]
          split
          · exact Option.some_ne_none _
          · exact Option.some_ne_none _
      | accept _ _ => exact ⟨trivial, nofun, Option.some_ne_none _⟩
  | run hconnected hnext _ =>
      rcases hconnected with ⟨shms, hstage⟩
      rcases runStep_of_clientNext hs hstage hnext with ⟨s', hrun, _⟩
      refine ⟨rfl, nofun, ?_⟩
      rw [hrun]
      exact Option.some_ne_none s'
  | serve hworker hnext _ =>
      rcases serveStep_of_serverNext hs hworker hnext with ⟨s', hserve, _⟩
      refine ⟨rfl, nofun, ?_⟩
      rw [hserve]
      exact Option.some_ne_none s'

theorem service_helped {usable : Int} (slot : Slot)
    (hcreate : queueCreate queueRegionSize (S.pipeline c).header.messageSize =
      .ok ((S.pipeline c).header, usable))
    (hsize : (S.pipeline c).header.messageSize = g.messageSize)
    (hqueue : (S.pipeline c).header.queueSize = g.queueSize) (htwo : 2 ≤ g.queueSize)
    (hcalls : (S.pipeline c).calls < 2 * g.queueSize) :
    (serviceSystem S).Helped (fun _ l => l ≠ .close c) (Serving c)
      (fun s => (serviceSystem S).Reachable s ∧ Attends c slot s) (Finished c)
      (serviceWork S c slot) (Helps S c slot) := by
  have hpipeline : forall s, (serviceSystem S).Reachable s ->
      PipelineInvariant (S.pipeline c) g (s.connection S c) :=
    fun _ hs => connection_invariant hcreate hsize hqueue hs
  constructor
  · intro s l s' hs hopen hnext
    exact ⟨TransitionSystem.reachable_step hs.left hnext,
      (serviceNext_desk (service_invariant hs.left) hs.right hopen hnext).attends⟩
  · intro s l s' hs _ hnext hfinished
    have hs' := TransitionSystem.reachable_step hs.left hnext
    exact finished_stays (service_invariant hs.left) (service_invariant hs') hnext hfinished
  · intro s hs hopen
    exact exists_helps (service_invariant hs.left) (hpipeline s hs.left) htwo hcalls hs.right
      hopen
  · intro s l hs hhelps
    exact hhelps.possible (service_invariant hs.left)
  · intro s l s' h hs hopen hhelps hnext
    exact serviceWork_lowers (service_invariant hs.left) (hpipeline s hs.left) hs.right hopen
      hhelps hnext

theorem work_of_reachable {P : Pipeline} {t : PipelineState} {usable : Int}
    (hcreate : queueCreate queueRegionSize P.header.messageSize = .ok (P.header, usable))
    (hsize : P.header.messageSize = g.messageSize)
    (hqueue : P.header.queueSize = g.queueSize) (ht : (pipelineSystem P).Reachable t) :
    t.work P ≤ P.calls * (4 * P.header.messageSize + 31) + 3 := by
  have hboth : PipelineInvariant P g t ∧
      t.work P ≤ P.calls * (4 * P.header.messageSize + 31) + 3 := by
    apply TransitionSystem.reachableUnder_invariant _ _ ht
    · intro start hstart
      exact ⟨pipelineStart_invariant hcreate hsize hqueue hstart,
        Nat.le_of_eq (pipelineStart_work hstart)⟩
    · intro u l u' hu _ hnext
      refine ⟨pipelineNext_invariant hsize hu.left hnext, ?_⟩
      cases pipelineNext_work hu.left hnext with
      | inl hsame =>
          rw [hsame]
          exact hu.right
      | inr hlower => exact Nat.le_trans (Nat.le_of_lt hlower) hu.right
  exact hboth.right

theorem serviceWork_le {usable : Int} (slot : Slot)
    (hcreate : queueCreate queueRegionSize (S.pipeline c).header.messageSize =
      .ok ((S.pipeline c).header, usable))
    (hsize : (S.pipeline c).header.messageSize = g.messageSize)
    (hqueue : (S.pipeline c).header.queueSize = g.queueSize)
    (hs : (serviceSystem S).Reachable s) :
    serviceWork S c slot s ≤
      (S.pipeline c).calls * (4 * (S.pipeline c).header.messageSize + 31) +
        2 * slotNum + 5 := by
  have hcalls := work_of_reachable hcreate hsize hqueue (connection_reachable hs c)
  have haccept : acceptWork c slot s ≤ slotNum + 1 := by
    have hturns : turns slotNum s.header.acceptSlot slot.val < slotNum :=
      turns_lt (by decide)
    unfold acceptWork
    split
    · exact Nat.zero_le _
    · split
      · lia
      · lia
  have hopens : openWork c slot s ≤ slotNum + 1 := by
    have hahead : ahead s.cursor slot < slotNum := Nat.mod_lt _ (by decide)
    have hslots : 1 ≤ slotNum := by decide
    unfold openWork
    split
    · split
      · lia
      · lia
    · exact Nat.zero_le _
  unfold serviceWork
  lia

end Goal

theorem exists_attends {S : Service} {s : ServiceState} {c : Int}
    (hs : ServiceInvariant S s) (hopened : s.stage c ≠ .opening)
    (hopen : s.stage c ≠ .closed) : exists slot, Attends c slot s := by
  cases hstage : s.stage c with
  | opening => exact absurd hstage hopened
  | waiting slot =>
      rcases hs.waiting c slot hstage with ⟨hreserved, hid, hdetach, _⟩
      exact ⟨slot, Or.inl hstage, hreserved, hid, hdetach⟩
  | connected shms =>
      rcases (hs.connected c shms hstage).right with ⟨slot, hreserved, hid, hdetach, hcreated⟩
      exact ⟨slot, Or.inr ⟨⟨shms, hstage⟩, hcreated⟩, hreserved, hid, hdetach⟩
  | refused => exact absurd hstage (hs.admitted c)
  | closed => exact absurd hstage hopen

/--
A client that has a slot and does not close has all its responses, in order, after so
many stretches of a schedule in each of which the manager, `accept`, the client and its
worker each have a turn, whatever the other clients and workers do.
-/
theorem service_finishes {S : Service} {s s' : ServiceState} {c : Int}
    {slots steps : Nat} {trace : List (Transition ServiceState ServiceLabel)}
    (hs : (serviceSystem S).Reachable s) (hclient : S.isClient c = true)
    (hcapacity : (S.pipeline c).header.queueSize = slots + 1) (hslots : 1 ≤ slots)
    (hcalls : (S.pipeline c).calls ≤ 2 * slots + 1)
    (hopened : s.stage c ≠ .opening) (hopen : s.stage c ≠ .closed)
    (hrun : (serviceSystem S).Run s trace s')
    (hstays : forall t, t ∈ trace -> t.label ≠ .close c)
    (hfair : (serviceSystem S).FairTo (Serving c) steps trace)
    (hlength : ((S.pipeline c).calls * (4 * (S.pipeline c).header.messageSize + 31) +
      2 * slotNum + 5) * steps ≤ trace.length) :
    (s'.clients c).pc = .finished ∧
      (s'.clients c).popped.map Receipt.bytes = (List.range (S.pipeline c).calls).map
        fun i => (S.pipeline c).respond ((S.pipeline c).request i) := by
  rcases S.created c hclient with ⟨usable, hcreate⟩
  rcases createHeader_geometry (by decide) hcreate (by decide) hcapacity hslots with
    ⟨g, hsize, hqueue, hg⟩
  rcases exists_attends (service_invariant hs) hopened hopen with ⟨slot, hattends⟩
  have hhelped := service_helped slot hcreate hsize hqueue (by lia) (by lia)
  have hrank := serviceWork_le slot hcreate hsize hqueue hs
  have hfinished : Finished c s' := hhelped.done_of_fair hrun hstays ⟨hs, hattends⟩ hfair
    (Nat.le_trans (Nat.mul_le_mul_right steps hrank) hlength)
  have hs' := (hhelped.run_keeps hrun hstays ⟨hs, hattends⟩).left
  have hpipeline := connection_invariant hcreate hsize hqueue hs'
  have hend := connection_clientEnd (S := S) (c := c) (service_invariant hs')
  refine ⟨hfinished, ?_⟩
  rw [← hend]
  apply responses_of_finished hpipeline
  unfold Finished at hfinished
  rw [← hend] at hfinished
  exact hfinished

def servingTurn (c : Int) : Nat -> ServiceLabel
  | 0 => .request c
  | 1 => .connect c
  | 2 => .run c
  | 3 => .serve c
  | 4 => .visit
  | _ => .accept

theorem exists_servingTurn {c : Int} {l : ServiceLabel} (hl : Serving c l) :
    exists r, r < 6 ∧ servingTurn c r = l := by
  cases l with
  | request d => exact ⟨0, by decide, congrArg ServiceLabel.request hl.symm⟩
  | connect d => exact ⟨1, by decide, congrArg ServiceLabel.connect hl.symm⟩
  | run d => exact ⟨2, by decide, congrArg ServiceLabel.run hl.symm⟩
  | serve d => exact ⟨3, by decide, congrArg ServiceLabel.serve hl.symm⟩
  | visit => exact ⟨4, by decide, rfl⟩
  | accept => exact ⟨5, by decide, rfl⟩
  | close d => exact hl.elim

theorem servingTurns_all (c : Int) (k : Nat) (l : ServiceLabel) (hl : Serving c l) :
    exists j, k ≤ j ∧ j < k + 6 ∧ servingTurn c (j % 6) = l := by
  rcases exists_servingTurn hl with ⟨r, hr, hturn⟩
  have hplace : (k + (r + 6 - k % 6) % 6) % 6 = r := by lia
  refine ⟨k + (r + 6 - k % 6) % 6, by lia, by lia, ?_⟩
  rw [hplace]
  exact hturn

theorem servingTurn_ne_close (c d : Int) (r : Nat) : servingTurn c r ≠ .close d := by
  unfold servingTurn
  split
  · exact nofun
  · exact nofun
  · exact nofun
  · exact nofun
  · exact nofun
  · exact nofun

/-- Client 7 stays in the middle of its first request, and client 5 is served. -/
theorem service_finishes_oneCall :
    exists s, (serviceSystem fiveAndSeven).Reachable s ∧ (s.clients 7).pc = .pushing 0 ∧
      (s.clients 5).pc = .sending 0 ∧
      exists trace s', (serviceSystem fiveAndSeven).Run s trace s' ∧
        (serviceSystem fiveAndSeven).FairTo (Serving 5) 6 trace ∧
        (s'.clients 5).pc = .finished ∧
        (s'.clients 5).popped.map Receipt.bytes = [[4, 3, 2, 1]] := by
  have hends : ((serviceSystem fiveAndSeven).execute (serviceStart 1)
      [.request 7, .request 5, .visit, .connect 7, .run 7]).map (fun s =>
        ((s.clients 7).pc, (s.clients 5).pc, s.stage 5)) =
          some (.pushing 0, .sending 0, .waiting ⟨1, by decide⟩) := by decide +kernel
  rcases Option.map_eq_some_iff.mp hends with ⟨s, hexec, htriple⟩
  injection htriple with hseven hrest
  injection hrest with hfive hwaiting
  have hreach : (serviceSystem fiveAndSeven).Reachable s :=
    TransitionSystem.reachableUnder_of_execute ⟨1, rfl⟩ hexec fun _ _ => trivial
  have hcapacity : (fiveAndSeven.pipeline 5).header.queueSize = (3995 : Nat) + 1 := rfl
  have hidle : forall t, (serviceSystem fiveAndSeven).next t .accept ≠ none :=
    fun _ => Option.some_ne_none _
  rcases TransitionSystem.exists_takesTurns hidle (fun i => servingTurn 5 (i % 6)) s 792 with
    ⟨trace, s', hrun, hlength, hturns, hlabels⟩
  have hfair := TransitionSystem.fairTo_of_takesTurns (servingTurns_all 5) hturns
  have hstays : forall t, t ∈ trace -> t.label ≠ .close 5 := by
    intro t ht
    cases hlabels t ht with
    | inl hidle =>
        rw [hidle]
        exact nofun
    | inr hturn =>
        rcases hturn with ⟨j, hturn⟩
        rw [hturn]
        exact servingTurn_ne_close 5 5 (j % 6)
  have hdone := service_finishes hreach rfl hcapacity (by decide) (by decide)
    (by
      rw [hwaiting]
      exact nofun)
    (by
      rw [hwaiting]
      exact nofun) hrun hstays hfair
    (by
      rw [hlength]
      decide)
  exact ⟨s, hreach, hseven, hfive, trace, s', hrun, hfair, hdone⟩

end Rpc
end Notnets
