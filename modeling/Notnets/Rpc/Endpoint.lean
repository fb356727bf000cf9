import Mathlib.Data.List.Nodup
import Notnets.Rpc.Accept

/-!
# One endpoint for each reservation

`_create_server_queue_pair` hands out the addresses of a pair once: it tests
`server_attached`, and sets it in a later step.  The handles with addresses that
a run has returned are listed with the reservation that their pair belongs to.
-/

namespace Notnets
namespace Rpc

open Coord
open Foundation

def AcceptPc.accepting : AcceptPc -> Option Slot
  | .chosen slot => some slot
  | .typed slot _ => some slot
  | .paired slot _ _ => some slot
  | .looping slot _ _ _ => some slot
  | .testing slot _ => some slot
  | .marking slot _ => some slot
  | _ => none

def AcceptPc.marks : AcceptPc -> Option Slot
  | .marking slot _ => some slot
  | _ => none

def AcceptPc.maps : AcceptPc -> Option (Slot × Option Nat)
  | .mapping slot handle => some (slot, handle.shms.origin)
  | _ => none

def mappedReturn (t : Transition AcceptState AcceptLabel) :
    Option (Slot × Option Nat) :=
  match t.label with
  | .accept thread => (t.source.acceptors thread).maps
  | _ => none

/-- The handles with addresses that were returned. -/
def endpoints (trace : List (Transition AcceptState AcceptLabel)) :
    List (Slot × Option Nat) :=
  trace.filterMap mappedReturn

/-- No call tests a slot while another is between its test and its mark of that
slot, and the manager clears no slot that a call has chosen and not yet marked. -/
def AcceptsAlone (s : AcceptState) : AcceptLabel -> Prop
  | .accept thread =>
      forall slot handle, s.acceptors thread = .testing slot handle ->
        forall other, (s.acceptors other).marks ≠ some slot
  | .visit _ =>
      (s.header.slots s.cursor).detach = true ->
        forall thread, (s.acceptors thread).accepting ≠ some s.cursor
  | _ => True

/-!
# What a call has read
-/

/-- The pair that a call has read belongs to the reservation that its slot holds,
until the call has marked the slot. -/
def ReadsOne (s : AcceptState) : AcceptPc -> Prop
  | .idle _ => True
  | .chosen slot => Holds s slot
  | .typed slot _ => Holds s slot
  | .paired slot _ shms => Holds s slot ∧ shms.origin = some (s.reservation slot)
  | .looping slot _ shms _ => Holds s slot ∧ shms.origin = some (s.reservation slot)
  | .testing slot handle =>
      Holds s slot ∧ handle.shms.origin = some (s.reservation slot)
  | .marking slot handle =>
      Holds s slot ∧ handle.shms.origin = some (s.reservation slot)
  | .mapping _ handle => exists n, handle.shms.origin = some n

theorem readsOne_of_kept {s s' : AcceptState} {pc : AcceptPc} (h : ReadsOne s pc)
    (hkept : forall slot, pc.accepting = some slot -> Holds s slot ->
      Holds s' slot ∧ s'.reservation slot = s.reservation slot) : ReadsOne s' pc := by
  cases pc with
  | idle last => trivial
  | chosen slot => exact (hkept slot rfl h).left
  | typed slot table => exact (hkept slot rfl h).left
  | paired slot table shms =>
      rcases hkept slot rfl h.left with ⟨hholds, hsame⟩
      exact ⟨hholds, hsame.symm ▸ h.right⟩
  | looping slot table shms clientId =>
      rcases hkept slot rfl h.left with ⟨hholds, hsame⟩
      exact ⟨hholds, hsame.symm ▸ h.right⟩
  | testing slot handle =>
      rcases hkept slot rfl h.left with ⟨hholds, hsame⟩
      exact ⟨hholds, hsame.symm ▸ h.right⟩
  | marking slot handle =>
      rcases hkept slot rfl h.left with ⟨hholds, hsame⟩
      exact ⟨hholds, hsame.symm ▸ h.right⟩
  | mapping slot handle => exact h

structure QuietStep (s : AcceptState) (thread : Nat) (pc : AcceptPc)
    (acceptSlot : Nat) : Prop where
  next : acceptNext s thread =
    { s with header := { s.header with acceptSlot := acceptSlot } }.setAcceptor thread pc
  before : (s.acceptors thread).marks = none ∧ (s.acceptors thread).maps = none
  after : pc.marks = none ∧ pc.maps = none
  reads : ReadsOne s (s.acceptors thread) -> ReadsOne s pc

theorem acceptNext_cases (s : AcceptState) (thread : Nat) :
    (exists pc acceptSlot, QuietStep s thread pc acceptSlot) ∨
    (exists slot handle, s.acceptors thread = .testing slot handle ∧
      getServerAttachState s.header slot = false ∧
        acceptNext s thread = s.setAcceptor thread (.marking slot handle)) ∨
    (exists slot handle, s.acceptors thread = .marking slot handle ∧
      acceptNext s thread =
        { s with header := (setServerAttachState s.header slot true).1 }.setAcceptor
          thread (.mapping slot handle)) ∨
    (exists slot handle, s.acceptors thread = .mapping slot handle ∧
      acceptNext s thread =
        s.setAcceptor thread (.idle (some { handle with mapped := true }))) := by
  cases hpc : s.acceptors thread with
  | idle last =>
      apply Or.inl
      cases hscan : acceptScan s.header with
      | none =>
          refine ⟨.idle none, s.header.acceptSlot, ?_, ?_, ⟨rfl, rfl⟩,
            fun _ => trivial⟩
          · simp only [acceptNext, hpc, hscan]
          · rw [hpc]
            exact ⟨rfl, rfl⟩
      | some slot =>
          have heligible := acceptScan_eligible hscan
          simp only [eligible, Bool.and_eq_true] at heligible
          refine ⟨.chosen slot, (slot.val + 1) % slotNum, ?_, ?_, ⟨rfl, rfl⟩, ?_⟩
          · simp only [acceptNext, hpc, hscan]
          · rw [hpc]
            exact ⟨rfl, rfl⟩
          · intro _
            exact ⟨heligible.left.right, heligible.right⟩
  | chosen slot =>
      refine Or.inl ⟨.typed slot
        ⟨selectQueueCtx (s.header.slots slot).type, s.reservedTag slot⟩,
        s.header.acceptSlot, ?_, ?_, ⟨rfl, rfl⟩, ?_⟩
      · simp only [acceptNext, hpc]
      · rw [hpc]
        exact ⟨rfl, rfl⟩
      · rw [hpc]
        exact id
  | typed slot table =>
      refine Or.inl ⟨.paired slot table
        ⟨checkSlot s.header slot, s.servicedTag slot⟩,
        s.header.acceptSlot, ?_, ?_, ⟨rfl, rfl⟩, ?_⟩
      · simp only [acceptNext, hpc]
      · rw [hpc]
        exact ⟨rfl, rfl⟩
      · rw [hpc]
        intro h
        exact ⟨h, (tags_of_holds h).right⟩
  | paired slot table shms =>
      refine Or.inl ⟨.looping slot table shms
        ⟨getClientId s.header slot, s.servicedTag slot⟩,
        s.header.acceptSlot, ?_, ?_, ⟨rfl, rfl⟩, ?_⟩
      · simp only [acceptNext, hpc]
      · rw [hpc]
        exact ⟨rfl, rfl⟩
      · rw [hpc]
        exact id
  | looping slot table shms clientId =>
      cases hmissing : keysMissing shms.value with
      | true =>
          refine Or.inl ⟨.looping slot table
            ⟨checkSlot s.header slot, s.servicedTag slot⟩ clientId,
            s.header.acceptSlot, ?_, ?_, ⟨rfl, rfl⟩, ?_⟩
          · simp only [acceptNext, hpc, hmissing, if_true]
          · rw [hpc]
            exact ⟨rfl, rfl⟩
          · rw [hpc]
            intro h
            exact ⟨h.left, (tags_of_holds h.left).right⟩
      | false =>
          refine Or.inl ⟨.testing slot ⟨table, clientId, shms, false⟩,
            s.header.acceptSlot, ?_, ?_, ⟨rfl, rfl⟩, ?_⟩
          · simp [acceptNext, hpc, hmissing]
          · rw [hpc]
            exact ⟨rfl, rfl⟩
          · rw [hpc]
            exact id
  | testing slot handle =>
      cases hattached : getServerAttachState s.header slot with
      | true =>
          refine Or.inl ⟨.idle (some handle), s.header.acceptSlot, ?_, ?_,
            ⟨rfl, rfl⟩, fun _ => trivial⟩
          · simp only [acceptNext, hpc, hattached, if_true]
          · rw [hpc]
            exact ⟨rfl, rfl⟩
      | false =>
          refine Or.inr (Or.inl ⟨slot, handle, rfl, hattached, ?_⟩)
          simp [acceptNext, hpc, hattached]
  | marking slot handle =>
      refine Or.inr (Or.inr (Or.inl ⟨slot, handle, rfl, ?_⟩))
      simp only [acceptNext, hpc]
  | mapping slot handle =>
      refine Or.inr (Or.inr (Or.inr ⟨slot, handle, rfl, ?_⟩))
      simp only [acceptNext, hpc]

/-!
# The account of the handles
-/

def Issued (trace : List (Transition AcceptState AcceptLabel)) (s : AcceptState)
    (slot : Slot) (n : Nat) : Prop :=
  (slot, some n) ∈ endpoints trace ∨
    exists thread, (s.acceptors thread).maps = some (slot, some n)

structure EndpointInvariant (trace : List (Transition AcceptState AcceptLabel))
    (s : AcceptState) : Prop where
  reads : forall thread, ReadsOne s (s.acceptors thread)
  marksOne : forall a b slot, (s.acceptors a).marks = some slot ->
    (s.acceptors b).marks = some slot -> a = b
  unmarked : forall a slot, (s.acceptors a).marks = some slot ->
    (s.header.slots slot).serverAttached = false
  mapsOne : forall a b e, (s.acceptors a).maps = some e ->
    (s.acceptors b).maps = some e -> a = b
  mapsNew : forall a e, (s.acceptors a).maps = some e -> e ∉ endpoints trace
  nodup : (endpoints trace).Nodup
  issued : forall slot n, Issued trace s slot n -> n ≤ s.reservation slot
  attached : forall slot, s.header.clientReserved slot = true ->
    Issued trace s slot (s.reservation slot) ->
      (s.header.slots slot).shmCreated = true ∧
        (s.header.slots slot).serverAttached = true

theorem AcceptPc.accepting_of_marks {pc : AcceptPc} {slot : Slot}
    (h : pc.marks = some slot) : pc.accepting = some slot := by
  cases pc with
  | marking slot' handle => exact h
  | idle last => cases h
  | chosen slot' => cases h
  | typed slot' table => cases h
  | paired slot' table shms => cases h
  | looping slot' table shms clientId => cases h
  | testing slot' handle => cases h
  | mapping slot' handle => cases h

theorem holds_of_accepting {s : AcceptState} {pc : AcceptPc} (h : ReadsOne s pc)
    {slot : Slot} (haccepting : pc.accepting = some slot) : Holds s slot := by
  cases pc with
  | idle last => cases haccepting
  | mapping slot' handle => cases haccepting
  | chosen slot' =>
      injection haccepting with heq
      exact heq ▸ h
  | typed slot' table =>
      injection haccepting with heq
      exact heq ▸ h
  | paired slot' table shms =>
      injection haccepting with heq
      exact heq ▸ h.left
  | looping slot' table shms clientId =>
      injection haccepting with heq
      exact heq ▸ h.left
  | testing slot' handle =>
      injection haccepting with heq
      exact heq ▸ h.left
  | marking slot' handle =>
      injection haccepting with heq
      exact heq ▸ h.left

theorem endpoints_snoc (trace : List (Transition AcceptState AcceptLabel))
    (t : Transition AcceptState AcceptLabel) :
    endpoints (trace ++ [t]) = endpoints trace ++ (mappedReturn t).toList := by
  unfold endpoints
  cases hreturn : mappedReturn t with
  | none => simp [hreturn]
  | some e => simp [hreturn]

section Invariant

variable {trace trace' : List (Transition AcceptState AcceptLabel)}
  {s s' : AcceptState}

/-- Steps of the other parties keep the slots in use, and reserve others anew. -/
theorem endpointInvariant_of_table (h : EndpointInvariant trace s)
    (htrace : endpoints trace' = endpoints trace)
    (hacceptors : s'.acceptors = s.acceptors)
    (hkept : forall thread slot, (s.acceptors thread).accepting = some slot ->
      Holds s slot -> Holds s' slot ∧ s'.reservation slot = s.reservation slot ∧
        (s'.header.slots slot).serverAttached = (s.header.slots slot).serverAttached)
    (hreservation : forall slot, s.reservation slot ≤ s'.reservation slot)
    (hreserved : forall slot, s'.header.clientReserved slot = true ->
      s.reservation slot < s'.reservation slot ∨
        (s'.reservation slot = s.reservation slot ∧
          s.header.clientReserved slot = true ∧
          ((s.header.slots slot).shmCreated = true ->
            (s'.header.slots slot).shmCreated = true) ∧
          (s'.header.slots slot).serverAttached =
            (s.header.slots slot).serverAttached)) :
    EndpointInvariant trace' s' := by
  have hissued : forall slot n, Issued trace' s' slot n -> Issued trace s slot n := by
    intro slot n hi
    unfold Issued at hi ⊢
    rw [htrace, hacceptors] at hi
    exact hi
  constructor
  · intro thread
    rw [hacceptors]
    apply readsOne_of_kept (h.reads thread)
    intro slot haccepting hholds
    rcases hkept thread slot haccepting hholds with ⟨hholds', hsame, _⟩
    exact ⟨hholds', hsame⟩
  · rw [hacceptors]
    exact h.marksOne
  · intro a slot hmarks
    rw [hacceptors] at hmarks
    have haccepting := AcceptPc.accepting_of_marks hmarks
    rw [(hkept a slot haccepting
      (holds_of_accepting (h.reads a) haccepting)).right.right]
    exact h.unmarked a slot hmarks
  · rw [hacceptors]
    exact h.mapsOne
  · rw [hacceptors, htrace]
    exact h.mapsNew
  · rw [htrace]
    exact h.nodup
  · intro slot n hi
    exact Nat.le_trans (h.issued slot n (hissued slot n hi)) (hreservation slot)
  · intro slot hyes hi
    rcases hreserved slot hyes with hlt | ⟨hsame, hold, hcreated, hattached⟩
    · have hle := h.issued slot _ (hissued slot _ hi)
      lia
    · rw [hsame] at hi
      rcases h.attached slot hold (hissued slot _ hi) with ⟨hc, ha⟩
      exact ⟨hcreated hc, hattached.trans ha⟩

theorem endpoint_request (h : EndpointInvariant trace s)
    (htrace : endpoints trace' = endpoints trace) (clientId messageSize : Int)
    (type : QueueType) :
    EndpointInvariant trace' (s.request clientId messageSize type) := by
  unfold AcceptState.request
  rcases requestSlot_cases s.header clientId messageSize type with
    ⟨i, hfree, hresult⟩ | ⟨_, hresult⟩
  · rw [hresult]
    have hunreserved := (freeSlot_eq_some_iff.mp hfree).left
    dsimp only
    refine endpointInvariant_of_table h htrace rfl ?_ ?_ ?_
    · intro thread slot _ hholds
      have hne : slot ≠ i := by
        intro heq
        rw [heq, Holds, hunreserved] at hholds
        cases hholds.left
      refine ⟨⟨?_, ?_⟩, Function.update_of_ne hne _ _, ?_⟩
      · simpa [hne] using hholds.left
      · simpa [hne] using hholds.right
      · simp [hne]
    · intro slot
      show s.reservation slot ≤
        Function.update s.reservation i (s.reservation i + 1) slot
      by_cases hslot : slot = i
      · rw [hslot, Function.update_self]
        exact Nat.le_succ _
      · rw [Function.update_of_ne hslot]
    · intro slot hyes
      by_cases hslot : slot = i
      · apply Or.inl
        show s.reservation slot <
          Function.update s.reservation i (s.reservation i + 1) slot
        rw [hslot, Function.update_self]
        exact Nat.lt_succ_self _
      · refine Or.inr ⟨Function.update_of_ne hslot _ _, ?_, ?_, ?_⟩
        · simpa [hslot] using hyes
        · simp [hslot]
        · simp [hslot]
  · rw [hresult]
    exact endpointInvariant_of_table h htrace rfl
      (fun _ _ _ hholds => ⟨hholds, rfl, rfl⟩) (fun _ => Nat.le_refl _)
      (fun _ hyes => Or.inr ⟨rfl, hyes, id, rfl⟩)

theorem endpoint_close (h : EndpointInvariant trace s)
    (htrace : endpoints trace' = endpoints trace) (clientId : Int) :
    EndpointInvariant trace'
      { s with header := (clientClose s.header clientId).1 } := by
  have hrow : forall slot,
      (clientClose s.header clientId).1.clientReserved slot =
          s.header.clientReserved slot ∧
        ((clientClose s.header clientId).1.slots slot).shmCreated =
          (s.header.slots slot).shmCreated ∧
        ((clientClose s.header clientId).1.slots slot).serverAttached =
          (s.header.slots slot).serverAttached := by
    intro slot
    rcases clientClose_cases s.header clientId with ⟨i, _, hresult⟩ | ⟨_, hresult⟩
    · rw [hresult]
      refine ⟨rfl, markDetach_shmCreated _ _ _, ?_⟩
      by_cases hslot : slot = i
      · rw [hslot]
        simp [markDetach]
      · rw [markDetach_of_ne _ hslot]
    · rw [hresult]
      exact ⟨rfl, rfl, rfl⟩
  refine endpointInvariant_of_table h htrace rfl ?_ ?_ ?_
  · intro thread slot _ hholds
    rcases hrow slot with ⟨hreserved, hcreated, hattached⟩
    exact ⟨⟨hreserved.trans hholds.left, hcreated.trans hholds.right⟩, rfl,
      hattached⟩
  · exact fun _ => Nat.le_refl _
  · intro slot hyes
    rcases hrow slot with ⟨hreserved, hcreated, hattached⟩
    exact Or.inr ⟨rfl, hreserved ▸ hyes, fun hc => hcreated.trans hc, hattached⟩

theorem endpoint_visit (h : EndpointInvariant trace s)
    (htrace : endpoints trace' = endpoints trace) (allocated : ShmPair)
    (hguard : AcceptsAlone s (.visit allocated)) :
    EndpointInvariant trace' { s with
      header := visitWith allocated s.header s.cursor
      cursor := nextSlot s.cursor } := by
  refine endpointInvariant_of_table h htrace rfl ?_ ?_ ?_
  · intro thread slot haccepting hholds
    have hdetach : slot = s.cursor -> (s.header.slots slot).detach = false := by
      intro heq
      subst heq
      cases hmark : (s.header.slots s.cursor).detach with
      | false => rfl
      | true => exact absurd haccepting (hguard hmark thread)
    rcases visitWith_serviced allocated s.header hholds.right hdetach with
      ⟨hrow, hreserved⟩
    refine ⟨⟨hreserved.trans hholds.left, ?_⟩, rfl, ?_⟩
    · rw [hrow]
      exact hholds.right
    · rw [hrow]
  · exact fun _ => Nat.le_refl _
  · intro slot hyes
    apply Or.inr
    by_cases hslot : slot = s.cursor
    · subst hslot
      cases hmark : (s.header.slots s.cursor).detach with
      | true =>
          rw [(visitWith_detach allocated s.header hmark).right] at hyes
          cases hyes
      | false =>
          rw [visitWith_keep allocated s.header hmark] at hyes ⊢
          rw [serviced_clientReserved] at hyes
          refine ⟨rfl, hyes, ?_, ?_⟩
          · intro hcreated
            unfold serviced
            rw [if_neg (by simp [hcreated])]
            exact hcreated
          · rcases serviced_self allocated s.header s.cursor with
              ⟨shms, created, hrow⟩
            rw [hrow]
    · rcases visitWith_other allocated s.header hslot with ⟨hrow, hreserved⟩
      rw [hrow]
      exact ⟨rfl, hreserved ▸ hyes, id, rfl⟩

end Invariant

/-!
# The steps of a call
-/

section Accept

variable {trace : List (Transition AcceptState AcceptLabel)} {s s' : AcceptState}
  {thread : Nat}

theorem update_cases (thread : Nat) (f : Nat -> AcceptPc) (pc : AcceptPc) (a : Nat) :
    (a = thread ∧ Function.update f thread pc a = pc) ∨
      (a ≠ thread ∧ Function.update f thread pc a = f a) := by
  by_cases ha : a = thread
  · subst ha
    exact Or.inl ⟨rfl, Function.update_self _ _ _⟩
  · exact Or.inr ⟨ha, Function.update_of_ne ha _ _⟩

theorem endpoint_advance (h : EndpointInvariant trace s) {pc : AcceptPc}
    {acceptSlot : Nat} (hreads : ReadsOne s pc)
    (hbefore : (s.acceptors thread).maps = none) (hafter : pc.maps = none)
    (hmarks : forall slot, pc.marks = some slot ->
      (s.header.slots slot).serverAttached = false ∧
        forall other, other ≠ thread -> (s.acceptors other).marks ≠ some slot) :
    EndpointInvariant (trace ++ [⟨s, .accept thread, s'⟩])
      ({ s with header := { s.header with acceptSlot := acceptSlot } }.setAcceptor
        thread pc) := by
  have htrace : endpoints (trace ++ [⟨s, .accept thread, s'⟩]) = endpoints trace := by
    rw [endpoints_snoc]
    simp [mappedReturn, hbefore]
  have hmaps : forall a, (Function.update s.acceptors thread pc a).maps =
      (s.acceptors a).maps := by
    intro a
    rcases update_cases thread s.acceptors _ a with ⟨ha, hpc⟩ | ⟨_, hpc⟩
    · rw [hpc, ha, hafter, hbefore]
    · rw [hpc]
  have hissued : forall slot n,
      Issued (trace ++ [⟨s, .accept thread, s'⟩])
        ({ s with header := { s.header with acceptSlot := acceptSlot } }.setAcceptor
          thread pc) slot n -> Issued trace s slot n := by
    intro slot n hi
    rcases hi with hi | ⟨a, ha⟩
    · rw [htrace] at hi
      exact Or.inl hi
    · exact Or.inr ⟨a, (hmaps a).symm.trans ha⟩
  constructor
  · intro a
    have hkeeps : forall pc', ReadsOne s pc' -> ReadsOne
        ({ s with header := { s.header with acceptSlot := acceptSlot } }.setAcceptor
          thread pc) pc' :=
      fun pc' hpc' => readsOne_of_kept hpc' fun _ _ hholds => ⟨hholds, rfl⟩
    apply hkeeps
    show ReadsOne s (Function.update s.acceptors thread pc a)
    rcases update_cases thread s.acceptors _ a with ⟨_, hpc⟩ | ⟨_, hpc⟩
    · rw [hpc]
      exact hreads
    · rw [hpc]
      exact h.reads a
  · intro a b slot ha hb
    change (Function.update s.acceptors thread pc a).marks = some slot at ha
    change (Function.update s.acceptors thread pc b).marks = some slot at hb
    rcases update_cases thread s.acceptors _ a with ⟨heqa, hpca⟩ | ⟨hnea, hpca⟩
    · rcases update_cases thread s.acceptors _ b with ⟨heqb, hpcb⟩ | ⟨hneb, hpcb⟩
      · rw [heqa, heqb]
      · rw [hpca] at ha
        rw [hpcb] at hb
        exact absurd hb ((hmarks slot ha).right b hneb)
    · rw [hpca] at ha
      rcases update_cases thread s.acceptors _ b with ⟨heqb, hpcb⟩ | ⟨hneb, hpcb⟩
      · rw [hpcb] at hb
        exact absurd ha ((hmarks slot hb).right a hnea)
      · rw [hpcb] at hb
        exact h.marksOne a b slot ha hb
  · intro a slot ha
    change (Function.update s.acceptors thread pc a).marks = some slot at ha
    rcases update_cases thread s.acceptors _ a with ⟨_, hpc⟩ | ⟨_, hpc⟩
    · rw [hpc] at ha
      exact (hmarks slot ha).left
    · rw [hpc] at ha
      exact h.unmarked a slot ha
  · intro a b e ha hb
    exact h.mapsOne a b e ((hmaps a).symm.trans ha) ((hmaps b).symm.trans hb)
  · intro a e ha
    rw [htrace]
    exact h.mapsNew a e ((hmaps a).symm.trans ha)
  · rw [htrace]
    exact h.nodup
  · intro slot n hi
    exact h.issued slot n (hissued slot n hi)
  · intro slot hyes hi
    exact h.attached slot hyes (hissued slot _ hi)

theorem endpoint_mark (h : EndpointInvariant trace s) {slot : Slot} {handle : Handle}
    (hpc : s.acceptors thread = .marking slot handle) :
    EndpointInvariant (trace ++ [⟨s, .accept thread, s'⟩])
      ({ s with header := (setServerAttachState s.header slot true).1 }.setAcceptor
        thread (.mapping slot handle)) := by
  have hmarks : (s.acceptors thread).marks = some slot := by
    rw [hpc]
    rfl
  have hunmarked := h.unmarked thread slot hmarks
  have hreads := h.reads thread
  rw [hpc] at hreads
  rcases hreads with ⟨hholds, horigin⟩
  have hnew : ¬ Issued trace s slot (s.reservation slot) := by
    intro hi
    have hyes := (h.attached slot hholds.left hi).right
    rw [hunmarked] at hyes
    cases hyes
  have htrace : endpoints (trace ++ [⟨s, .accept thread, s'⟩]) = endpoints trace := by
    rw [endpoints_snoc]
    simp [mappedReturn, hpc, AcceptPc.maps]
  have hheader : (setServerAttachState s.header slot true).1 =
      s.header.setRow slot { s.header.slots slot with serverAttached := true } := by
    unfold setServerAttachState
    rw [if_pos hholds.right]
  have hmaps : forall a e, (Function.update s.acceptors thread
      (.mapping slot handle) a).maps = some e ->
        (a = thread ∧ e = (slot, some (s.reservation slot))) ∨
          (a ≠ thread ∧ (s.acceptors a).maps = some e) := by
    intro a e ha
    rcases update_cases thread s.acceptors _ a with ⟨heq, hpc'⟩ | ⟨hne, hpc'⟩
    · rw [hpc'] at ha
      injection ha with ha
      rw [horigin] at ha
      exact Or.inl ⟨heq, ha.symm⟩
    · rw [hpc'] at ha
      exact Or.inr ⟨hne, ha⟩
  have hother : forall a slot', a ≠ thread -> (s.acceptors a).marks = some slot' ->
      slot' ≠ slot := by
    intro a slot' hne ha heq
    rw [heq] at ha
    exact hne (h.marksOne a thread slot ha hmarks)
  have hmarks' : forall a slot', (Function.update s.acceptors thread
      (.mapping slot handle) a).marks = some slot' ->
        a ≠ thread ∧ (s.acceptors a).marks = some slot' := by
    intro a slot' ha
    rcases update_cases thread s.acceptors _ a with ⟨heq, hpc'⟩ | ⟨hne, hpc'⟩
    · rw [hpc'] at ha
      cases ha
    · rw [hpc'] at ha
      exact ⟨hne, ha⟩
  have hissued : forall slot' n,
      Issued (trace ++ [⟨s, .accept thread, s'⟩])
        ({ s with header := (setServerAttachState s.header slot true).1 }.setAcceptor
          thread (.mapping slot handle)) slot' n ->
        (slot' = slot ∧ n = s.reservation slot) ∨ Issued trace s slot' n := by
    intro slot' n hi
    rcases hi with hi | ⟨a, ha⟩
    · rw [htrace] at hi
      exact Or.inr (Or.inl hi)
    · rcases hmaps a _ ha with ⟨_, heq⟩ | ⟨_, ha'⟩
      · injection heq with hslot hn
        injection hn with hn
        exact Or.inl ⟨hslot, hn⟩
      · exact Or.inr (Or.inr ⟨a, ha'⟩)
  rw [hheader] at hissued ⊢
  constructor
  · intro a
    have hkeeps : forall pc', ReadsOne s pc' -> ReadsOne
        ({ s with header := s.header.setRow slot { s.header.slots slot with
          serverAttached := true } }.setAcceptor thread (.mapping slot handle)) pc' := by
      intro pc' hpc'
      apply readsOne_of_kept hpc'
      intro slot' _ hholds'
      refine ⟨⟨hholds'.left, ?_⟩, rfl⟩
      show ((s.header.setRow slot { s.header.slots slot with
        serverAttached := true }).slots slot').shmCreated = true
      by_cases hslot : slot' = slot
      · rw [hslot, CoordHeader.setRow_slots_self]
        exact hholds.right
      · rw [CoordHeader.setRow_slots_of_ne _ _ _ hslot]
        exact hholds'.right
    apply hkeeps
    show ReadsOne s (Function.update s.acceptors thread (.mapping slot handle) a)
    rcases update_cases thread s.acceptors _ a with ⟨_, hpc'⟩ | ⟨_, hpc'⟩
    · rw [hpc']
      exact ⟨_, horigin⟩
    · rw [hpc']
      exact h.reads a
  · intro a b slot' ha hb
    exact h.marksOne a b slot' (hmarks' a slot' ha).right (hmarks' b slot' hb).right
  · intro a slot' ha
    rcases hmarks' a slot' ha with ⟨hne, ha'⟩
    show ((s.header.setRow slot { s.header.slots slot with
      serverAttached := true }).slots slot').serverAttached = false
    rw [CoordHeader.setRow_slots_of_ne _ _ _ (hother a slot' hne ha')]
    exact h.unmarked a slot' ha'
  · intro a b e ha hb
    rcases hmaps a e ha with ⟨heqa, hea⟩ | ⟨_, ha'⟩
    · rcases hmaps b e hb with ⟨heqb, _⟩ | ⟨_, hb'⟩
      · rw [heqa, heqb]
      · rw [hea] at hb'
        exact absurd (Or.inr ⟨b, hb'⟩) hnew
    · rcases hmaps b e hb with ⟨_, heb⟩ | ⟨_, hb'⟩
      · rw [heb] at ha'
        exact absurd (Or.inr ⟨a, ha'⟩) hnew
      · exact h.mapsOne a b e ha' hb'
  · intro a e ha
    rw [htrace]
    rcases hmaps a e ha with ⟨_, hea⟩ | ⟨_, ha'⟩
    · rw [hea]
      exact fun hmem => hnew (Or.inl hmem)
    · exact h.mapsNew a e ha'
  · rw [htrace]
    exact h.nodup
  · intro slot' n hi
    rcases hissued slot' n hi with ⟨hslot, hn⟩ | hold
    · rw [hslot, hn]
      exact Nat.le_refl _
    · exact h.issued slot' n hold
  · intro slot' hyes hi
    by_cases hslot : slot' = slot
    · show ((s.header.setRow slot { s.header.slots slot with
        serverAttached := true }).slots slot').shmCreated = true ∧ _
      rw [hslot, CoordHeader.setRow_slots_self]
      exact ⟨hholds.right, by
        show ((s.header.setRow slot { s.header.slots slot with
          serverAttached := true }).slots slot).serverAttached = true
        rw [CoordHeader.setRow_slots_self]⟩
    · rcases hissued slot' _ hi with ⟨heq, _⟩ | hold
      · exact absurd heq hslot
      · have hrow : (s.header.setRow slot { s.header.slots slot with
            serverAttached := true }).slots slot' = s.header.slots slot' :=
          CoordHeader.setRow_slots_of_ne _ _ _ hslot
        show ((s.header.setRow slot { s.header.slots slot with
          serverAttached := true }).slots slot').shmCreated = true ∧
            ((s.header.setRow slot { s.header.slots slot with
              serverAttached := true }).slots slot').serverAttached = true
        rw [hrow]
        exact h.attached slot' hyes hold

theorem endpoint_return (h : EndpointInvariant trace s) {slot : Slot}
    {handle last : Handle} (hpc : s.acceptors thread = .mapping slot handle) :
    EndpointInvariant (trace ++ [⟨s, .accept thread, s'⟩])
      (s.setAcceptor thread (.idle (some last))) := by
  have hmapped : (s.acceptors thread).maps = some (slot, handle.shms.origin) := by
    rw [hpc]
    rfl
  have htrace : endpoints (trace ++ [⟨s, .accept thread, s'⟩]) =
      endpoints trace ++ [(slot, handle.shms.origin)] := by
    rw [endpoints_snoc]
    simp [mappedReturn, hmapped]
  have hpcs : forall a, a ≠ thread ∧
      Function.update s.acceptors thread (.idle (some last)) a = s.acceptors a ∨
        Function.update s.acceptors thread (.idle (some last)) a = .idle (some last) := by
    intro a
    rcases update_cases thread s.acceptors (.idle (some last)) a with
      ⟨_, hpc'⟩ | ⟨hne, hpc'⟩
    · exact Or.inr hpc'
    · exact Or.inl ⟨hne, hpc'⟩
  have hmaps : forall a e,
      (Function.update s.acceptors thread (.idle (some last)) a).maps = some e ->
        a ≠ thread ∧ (s.acceptors a).maps = some e := by
    intro a e ha
    rcases hpcs a with ⟨hne, hpc'⟩ | hpc'
    · rw [hpc'] at ha
      exact ⟨hne, ha⟩
    · rw [hpc'] at ha
      cases ha
  have hmarks : forall a slot',
      (Function.update s.acceptors thread (.idle (some last)) a).marks = some slot' ->
        (s.acceptors a).marks = some slot' := by
    intro a slot' ha
    rcases hpcs a with ⟨_, hpc'⟩ | hpc'
    · rw [hpc'] at ha
      exact ha
    · rw [hpc'] at ha
      cases ha
  have hissued : forall slot' n, Issued (trace ++ [⟨s, .accept thread, s'⟩])
      (s.setAcceptor thread (.idle (some last))) slot' n -> Issued trace s slot' n := by
    intro slot' n hi
    rcases hi with hi | ⟨a, ha⟩
    · rw [htrace] at hi
      rcases List.mem_append.mp hi with hold | hlast
      · exact Or.inl hold
      · rw [← List.mem_singleton.mp hlast] at hmapped
        exact Or.inr ⟨thread, hmapped⟩
    · exact Or.inr ⟨a, (hmaps a _ ha).right⟩
  constructor
  · intro a
    show ReadsOne s (Function.update s.acceptors thread (.idle (some last)) a)
    rcases hpcs a with ⟨_, hpc'⟩ | hpc'
    · rw [hpc']
      exact h.reads a
    · rw [hpc']
      trivial
  · intro a b slot' ha hb
    exact h.marksOne a b slot' (hmarks a slot' ha) (hmarks b slot' hb)
  · intro a slot' ha
    exact h.unmarked a slot' (hmarks a slot' ha)
  · intro a b e ha hb
    exact h.mapsOne a b e (hmaps a e ha).right (hmaps b e hb).right
  · intro a e ha
    rcases hmaps a e ha with ⟨hne, ha'⟩
    rw [htrace]
    intro hmem
    rcases List.mem_append.mp hmem with hold | hlast
    · exact h.mapsNew a e ha' hold
    · rw [List.mem_singleton.mp hlast] at ha'
      exact hne (h.mapsOne a thread _ ha' hmapped)
  · rw [htrace]
    refine List.nodup_append.mpr ⟨h.nodup, List.nodup_singleton _, ?_⟩
    intro e hold e' hlast heq
    rw [heq, List.mem_singleton.mp hlast] at hold
    exact h.mapsNew thread _ hmapped hold
  · intro slot' n hi
    exact h.issued slot' n (hissued slot' n hi)
  · intro slot' hyes hi
    exact h.attached slot' hyes (hissued slot' _ hi)

theorem endpoint_accept (h : EndpointInvariant trace s)
    (hguard : AcceptsAlone s (.accept thread)) :
    EndpointInvariant (trace ++ [⟨s, .accept thread, s'⟩]) (acceptNext s thread) := by
  rcases acceptNext_cases s thread with ⟨pc, acceptSlot, hquiet⟩ |
    ⟨slot, handle, hpc, hstate, hnext⟩ | ⟨slot, handle, hpc, hnext⟩ |
      ⟨slot, handle, hpc, hnext⟩
  · rw [hquiet.next]
    refine endpoint_advance h (hquiet.reads (h.reads thread)) hquiet.before.right
      hquiet.after.right ?_
    intro slot hmarks
    rw [hquiet.after.left] at hmarks
    cases hmarks
  · rw [hnext]
    have hreads := h.reads thread
    rw [hpc] at hreads
    refine endpoint_advance h hreads ?_ rfl ?_
    · rw [hpc]
      rfl
    · intro slot' hmarks
      injection hmarks with hslot
      subst hslot
      constructor
      · unfold getServerAttachState at hstate
        rw [if_pos hreads.left.right] at hstate
        exact hstate
      · intro other _
        exact hguard slot handle hpc other
  · rw [hnext]
    exact endpoint_mark h hpc
  · rw [hnext]
    exact endpoint_return h hpc

end Accept

/-!
# Every interleaving
-/

theorem endpoint_next {trace : List (Transition AcceptState AcceptLabel)}
    {s s' : AcceptState} {l : AcceptLabel} (h : EndpointInvariant trace s)
    (hguard : AcceptsAlone s l) (hnext : acceptSystem.next s l = some s') :
    EndpointInvariant (trace ++ [⟨s, l, s'⟩]) s' := by
  have hs : acceptSystemNext s l = s' := Option.some.inj hnext
  cases l with
  | request clientId messageSize type =>
      rw [← hs]
      refine endpoint_request h ?_ clientId messageSize type
      simp [endpoints_snoc, mappedReturn]
  | close clientId =>
      rw [← hs]
      refine endpoint_close h ?_ clientId
      simp [endpoints_snoc, mappedReturn]
  | visit allocated =>
      rw [← hs]
      refine endpoint_visit h ?_ allocated hguard
      simp [endpoints_snoc, mappedReturn]
  | accept thread =>
      rw [← hs]
      exact endpoint_accept h hguard

theorem endpoint_start : EndpointInvariant [] acceptStart where
  reads := fun _ => trivial
  marksOne := nofun
  unmarked := nofun
  mapsOne := nofun
  mapsNew := nofun
  nodup := List.nodup_nil
  issued := by
    intro slot n hi
    rcases hi with hi | ⟨a, ha⟩
    · cases hi
    · cases ha
  attached := nofun

/--
As long as no call tests a slot between the test and the mark of another call,
and the manager clears no slot that a call has chosen and not yet marked, each
reservation gets one handle with addresses at most.
-/
theorem accept_single_endpoint {start s : AcceptState}
    {trace : List (Transition AcceptState AcceptLabel)}
    (hstart : acceptSystem.Initial start) (hrun : acceptSystem.Run start trace s)
    (hguard : TransitionSystem.Guarded AcceptsAlone trace) (slot : Slot) (n : Nat) :
    (endpoints trace).count (slot, some n) ≤ 1 := by
  have hinv : EndpointInvariant trace s := by
    refine TransitionSystem.run_trace_invariant ?_ hrun hguard ?_
    · intro before t l t' ht hl hnext
      exact endpoint_next ht hl hnext
    · rw [show start = acceptStart from hstart]
      exact endpoint_start
  exact List.nodup_iff_count_le_one.mp hinv.nodup _

def TwoThreads : AcceptLabel -> Prop
  | .accept thread => thread < 2
  | _ => True

theorem others_idle {s s' : AcceptState} {l : AcceptLabel}
    (hs : forall other, 2 ≤ other -> s.acceptors other = .idle none)
    (hl : TwoThreads l) (hnext : acceptSystem.next s l = some s') :
    forall other, 2 ≤ other -> s'.acceptors other = .idle none := by
  intro other hother
  rw [← Option.some.inj hnext]
  cases l with
  | request clientId messageSize type =>
      show (s.request clientId messageSize type).acceptors other = .idle none
      unfold AcceptState.request
      split
      · exact hs other hother
      · exact hs other hother
  | close clientId => exact hs other hother
  | visit allocated => exact hs other hother
  | accept thread =>
      have hthread : thread < 2 := hl
      rcases acceptNext_frame s thread with ⟨_, _, pc, hpcs⟩
      show (acceptNext s thread).acceptors other = .idle none
      rw [hpcs, Function.update_of_ne (by lia)]
      exact hs other hother

def aloneOfTwo (t : Transition AcceptState AcceptLabel) : Bool :=
  match t.label with
  | .accept thread =>
      match t.source.acceptors thread with
      | .testing slot _ =>
          (t.source.acceptors 0).marks != some slot &&
            (t.source.acceptors 1).marks != some slot
      | _ => true
  | .visit _ => !(t.source.header.slots t.source.cursor).detach
  | _ => true

theorem acceptsAlone_of_check {t : Transition AcceptState AcceptLabel}
    (hidle : forall other, 2 ≤ other -> t.source.acceptors other = .idle none)
    (h : aloneOfTwo t = true) : AcceptsAlone t.source t.label := by
  unfold aloneOfTwo at h
  cases hl : t.label with
  | request clientId messageSize type => trivial
  | close clientId => trivial
  | visit allocated =>
      rw [hl] at h
      intro hmark
      simp [hmark] at h
  | accept thread =>
      rw [hl] at h
      intro slot handle hpc other
      simp only [hpc, Bool.and_eq_true, bne_iff_ne] at h
      match other with
      | 0 => exact h.left
      | 1 => exact h.right
      | other + 2 =>
          rw [hidle (other + 2) (by lia)]
          nofun

def acceptTwiceLabels : List AcceptLabel :=
  [.request 5 64 .poll, .visit pairOfFive] ++ List.replicate 8 (.accept 0) ++
    List.replicate 8 (.accept 1)

theorem accept_single_endpoint_twice :
    exists trace s, acceptSystem.Run acceptStart trace s ∧
      endpoints trace = [(firstSlot, some 1)] ∧
        forall slot n, (endpoints trace).count (slot, some n) ≤ 1 := by
  have hreplay : ((acceptSystem.replay acceptStart acceptTwiceLabels).map fun result =>
      (endpoints result.1, result.1.all aloneOfTwo)) =
        some ([(firstSlot, some 1)], true) := by
    decide +kernel
  rcases Option.map_eq_some_iff.mp hreplay with ⟨⟨trace, s⟩, hresult, hboth⟩
  injection hboth with htrace hcheck
  have hrun := TransitionSystem.replay_run TransitionSystem.Run.nil hresult
  rw [List.nil_append] at hrun
  have htwo : TransitionSystem.Guarded (fun _ l => TwoThreads l) trace := by
    refine TransitionSystem.guarded_of_replay hresult ?_
    intro l hl
    simp only [acceptTwiceLabels, List.mem_append, List.mem_cons, List.mem_replicate,
      List.not_mem_nil, or_false] at hl
    rcases hl with ((rfl | rfl) | ⟨_, rfl⟩) | ⟨_, rfl⟩
    · trivial
    · trivial
    · exact Nat.zero_lt_succ 1
    · exact Nat.lt_succ_self 1
  have hguard : TransitionSystem.Guarded AcceptsAlone trace := by
    intro t ht
    have hsource := TransitionSystem.run_invariant_source
      (fun _ _ _ hs hl hnext => others_idle hs hl hnext) hrun htwo (fun _ _ => rfl) t ht
    exact acceptsAlone_of_check hsource.left (List.all_eq_true.mp hcheck t ht)
  exact ⟨trace, s, hrun, htrace, fun slot n =>
    accept_single_endpoint rfl hrun hguard slot n⟩

def acceptRaceLabels : List AcceptLabel :=
  [.request 5 64 .poll, .visit pairOfFive] ++ List.replicate 5 (.accept 0) ++
    List.replicate 6 (.accept 1) ++ List.replicate 3 (.accept 0) ++
    List.replicate 2 (.accept 1)

theorem accept_two_endpoints :
    ¬ forall (start s : AcceptState) (trace : List (Transition AcceptState AcceptLabel)),
      acceptSystem.Initial start -> acceptSystem.Run start trace s ->
        forall slot n, (endpoints trace).count (slot, some n) ≤ 1 := by
  intro hclaim
  have hreplay : ((acceptSystem.replay acceptStart acceptRaceLabels).map fun result =>
      endpoints result.1) = some [(firstSlot, some 1), (firstSlot, some 1)] := by
    decide +kernel
  rcases Option.map_eq_some_iff.mp hreplay with ⟨⟨trace, s⟩, hresult, htrace⟩
  have hrun := TransitionSystem.replay_run TransitionSystem.Run.nil hresult
  rw [List.nil_append] at hrun
  have hcount := hclaim acceptStart s trace rfl hrun firstSlot 1
  have htwo : (endpoints trace).count (firstSlot, some 1) = 2 := by
    rw [show endpoints trace = _ from htrace]
    decide
  lia

end Rpc
end Notnets
