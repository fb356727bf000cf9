import Notnets.Foundation.RoundRobin
import Notnets.Os.FailingCalls
import Notnets.Rpc.Isolation
import Notnets.Rpc.SemService
import Notnets.Rpc.Sentinels
import Notnets.Rpc.Server

/-!
# Accepting in turn

`accept` starts its scan behind the slot that it returned last, so that no
connection waits for more than a round.  A pair of addresses is handed out with
the first handle of a reservation, and with no other.
-/

namespace Notnets
namespace Rpc

open Coord
open Foundation
open Os

/-!
# The server call by call
-/

structure ServingState where
  header : CoordHeader
  kernel : Kernel
  returned : Option ServerReturn

/-- A call that halts does not take a step. -/
def servingNext (boost : Int -> Int -> OsM ShmPair) (s : ServingState)
    (call : ServerCall) : Option ServingState :=
  (returnOf (perform (poolOps boost) shmAttach s.header call) s.kernel).map fun result =>
    ⟨result.1.1, result.2, some result.1.2⟩

/-- A zeroed coordinator. -/
def servingStart (k : Kernel) : ServingState where
  header := CoordHeader.zero
  kernel := k
  returned := none

def servingSystem (boost : Int -> Int -> OsM ShmPair) :
    TransitionSystem ServingState ServerCall where
  Initial := fun s => exists k, s = servingStart k
  next := servingNext boost

abbrev ServingStep :=
  Transition ServingState ServerCall

def AttachesSucceed (s : ServingState) : Prop :=
  forall slot, acceptScan s.header = some slot ->
    getServerAttachState s.header slot = false ->
      s.kernel.CallsSucceed 2 ∧
        s.kernel.present (s.header.slots slot).shms.requestShm.shmid = true ∧
        s.kernel.present (s.header.slots slot).shms.responseShm.shmid = true

def KeysNonzero (type : QueueType) (clientId : Int) : Prop :=
  (derivedKeys (allocatorOf type) clientId).1 ≠ 0 ∧
    (derivedKeys (allocatorOf type) clientId).2 ≠ 0

/-- The calls are those of clients with keys that are not zero, of one server thread,
and of single visits; the system lets them succeed. -/
def ServesWell (s : ServingState) : ServerCall -> Prop
  | .requestSlot clientId _ type => KeysNonzero type clientId
  | .accept => AttachesSucceed s
  | .managePool => False
  | _ => True

/-!
# What a step has done
-/

def reservedSlot (t : ServingStep) : Option Slot :=
  match t.target.returned with
  | some (.slot slot) => slot
  | _ => none

def acceptedSlot (t : ServingStep) : Option Slot :=
  if t.label = .accept then acceptScan t.source.header else none

def AcceptedBefore (slot : Slot) (trace : List ServingStep) : Prop :=
  exists earlier t later, trace = earlier ++ t :: later ∧ acceptedSlot t = some slot ∧
    forall u, u ∈ later -> reservedSlot u ≠ some slot

def acceptCount (trace : List ServingStep) : Nat :=
  trace.countP fun t => t.label = .accept

/-!
# The scan
-/

section Scan

variable {header : CoordHeader} {slot : Slot}

theorem slotAt_eq {n : Nat} (h : n % slotNum = slot.val) : slotAt n = slot :=
  Fin.ext h

theorem acceptScan_picks (h : acceptScan header = some slot) :
    Picks slotNum (fun i => eligible header (slotAt i) = true) header.acceptSlot
      slot.val := by
  unfold acceptScan at h
  rw [List.find?_map] at h
  rcases Option.map_eq_some_iff.mp h with ⟨n, hfind, hslot⟩
  rcases List.find?_range_eq_some.mp hfind with ⟨heligible, hn, hfirst⟩
  have hturns : turns slotNum header.acceptSlot slot.val = n :=
    turns_of_add (List.mem_range.mp hn) (congrArg Fin.val hslot)
  constructor
  · exact slot.isLt
  · rw [slotAt_eq (Nat.mod_eq_of_lt slot.isLt), ← hslot]
    exact heligible
  · intro j hj hcandidate
    rw [hturns]
    by_contra hless
    have hplace : slotAt (header.acceptSlot + turns slotNum header.acceptSlot j) =
        slotAt j :=
      slotAt_eq ((add_turns hj).trans (Nat.mod_eq_of_lt hj).symm)
    have hno := hfirst _ (Nat.lt_of_not_le hless)
    rw [Function.comp_apply, hplace, hcandidate] at hno
    cases hno

theorem acceptScan_eq_none :
    acceptScan header = none <-> forall slot, eligible header slot = false := by
  unfold acceptScan
  rw [List.find?_eq_none]
  constructor
  · intro h slot
    have hplace : slotAt (header.acceptSlot + turns slotNum header.acceptSlot slot.val) =
        slot := slotAt_eq (add_turns slot.isLt)
    have hmem : slot ∈ (List.range slotNum).map fun i => slotAt (header.acceptSlot + i) :=
      List.mem_map.mpr ⟨_, List.mem_range.mpr (turns_lt (by decide)), hplace⟩
    simpa using h slot hmem
  · intro h slot _
    rw [h slot]
    exact Bool.false_ne_true

end Scan

/-!
# What a call of accept returns
-/

def handleOf (row : CoordRow) (addresses : Option (Option Int × Option Int)) :
    QueueCtx where
  table := selectQueueCtx row.type
  clientId := row.clientId
  offset := row.shms.offset
  addresses := addresses

/-- `accept_slot` moves behind the slot that was chosen. -/
def turned (header : CoordHeader) (slot : Slot) : CoordHeader :=
  { header with acceptSlot := (slot.val + 1) % slotNum }

/-- What `accept` does once it has chosen a slot whose keys are there. -/
inductive AcceptedAs (header : CoordHeader) (slot : Slot) (k : Kernel) :
    CoordHeader -> ServerReturn -> Kernel -> Prop where
  | again (hattached : (header.slots slot).serverAttached = true) :
      AcceptedAs header slot k (turned header slot)
        (.queueCtx (some (handleOf (header.slots slot) none))) k
  | first {requestAddr responseAddr : Option Int} {k1 k' : Kernel}
      (hattached : (header.slots slot).serverAttached = false)
      (hrequest : Returns (shmAttach (header.slots slot).shms.requestShm.shmid) k
        requestAddr k1)
      (hresponse : Returns (shmAttach (header.slots slot).shms.responseShm.shmid) k1
        responseAddr k') :
      AcceptedAs header slot k
        ((turned header slot).setRow slot
          { header.slots slot with serverAttached := true })
        (.queueCtx (some (handleOf (header.slots slot)
          (some (requestAddr, responseAddr))))) k'

theorem eligible_iff {header : CoordHeader} {slot : Slot} :
    eligible header slot = true <->
      header.clientReserved slot = true ∧ (header.slots slot).shmCreated = true ∧
        (header.slots slot).detach = false := by
  unfold eligible
  simp only [Bool.and_eq_true, Bool.not_eq_true']
  constructor
  · intro hparts
    rcases hparts with ⟨⟨hdetach, hreserved⟩, hcreated⟩
    exact ⟨hreserved, hcreated, hdetach⟩
  · intro hall
    rcases hall with ⟨hreserved, hcreated, hdetach⟩
    exact ⟨⟨hdetach, hreserved⟩, hcreated⟩

section Accept

variable {header header' : CoordHeader} {slot : Slot} {k k' : Kernel} {ret : ServerReturn}

theorem accept_idle (h : Returns (accept shmAttach header) k (header', ret) k')
    (hscan : acceptScan header = none) :
    header' = header ∧ ret = .queueCtx none ∧ k' = k := by
  unfold accept at h
  rw [hscan] at h
  rcases returns_pure.mp h with ⟨hresult, hk⟩
  injection hresult with hheader hret
  exact ⟨hheader, hret, hk⟩

theorem accept_chosen (h : Returns (accept shmAttach header) k (header', ret) k')
    (hscan : acceptScan header = some slot)
    (hkeys : keysMissing (header.slots slot).shms = false) :
    AcceptedAs header slot k header' ret k' := by
  have hcreated := (eligible_iff.mp (acceptScan_eligible hscan)).right.left
  have hshms : checkSlot (turned header slot) slot = (header.slots slot).shms :=
    if_pos hcreated
  have hid : getClientId (turned header slot) slot = (header.slots slot).clientId :=
    if_pos hcreated
  have hstate : getServerAttachState (turned header slot) slot =
      (header.slots slot).serverAttached := if_pos hcreated
  have hset : (setServerAttachState (turned header slot) slot true).1 =
      (turned header slot).setRow slot
        { header.slots slot with serverAttached := true } := by
    unfold setServerAttachState
    rw [if_pos (show ((turned header slot).slots slot).shmCreated = true from hcreated)]
    rfl
  unfold accept at h
  rw [hscan] at h
  have hpair : Returns (createServerQueuePair shmAttach (turned header slot) slot
      (selectQueueCtx (header.slots slot).type)) k (header', ret) k' := h
  unfold createServerQueuePair at hpair
  dsimp only at hpair
  rw [hshms, hid, hstate, hset, hkeys, if_neg Bool.false_ne_true] at hpair
  cases hattached : (header.slots slot).serverAttached with
  | true =>
      rw [hattached, if_pos rfl] at hpair
      rcases returns_pure.mp hpair with ⟨hresult, hk⟩
      injection hresult with hheader hret
      rw [hheader, hret, hk]
      exact AcceptedAs.again hattached
  | false =>
      rw [hattached, if_neg Bool.false_ne_true] at hpair
      rcases returns_bind.mp hpair with ⟨requestAddr, k1, hrequest, hpair⟩
      rcases returns_bind.mp hpair with ⟨responseAddr, k2, hresponse, hpair⟩
      rcases returns_pure.mp hpair with ⟨hresult, hk⟩
      injection hresult with hheader hret
      rw [hheader, hret, hk]
      exact AcceptedAs.first hattached hrequest hresponse

end Accept

/-!
# The steps of the server
-/

section Steps

variable {boost : Int -> Int -> OsM ShmPair} {s s' : ServingState} {call : ServerCall}

inductive Served (s : ServingState) : ServerCall -> ServingState -> Prop where
  | request {clientId messageSize : Int} {type : QueueType} :
      Served s (.requestSlot clientId messageSize type)
        ⟨(requestSlot s.header clientId messageSize type).1, s.kernel,
          some (.slot (requestSlot s.header clientId messageSize type).2)⟩
  | close {clientId : Int} :
      Served s (.clientClose clientId)
        ⟨(clientClose s.header clientId).1, s.kernel,
          some (.code (clientClose s.header clientId).2)⟩
  | idle (hscan : acceptScan s.header = none) :
      Served s .accept ⟨s.header, s.kernel, some (.queueCtx none)⟩
  | accept {slot : Slot} {header : CoordHeader} {ret : ServerReturn} {k : Kernel}
      (hscan : acceptScan s.header = some slot)
      (haccepted : AcceptedAs s.header slot s.kernel header ret k) :
      Served s .accept ⟨header, k, some ret⟩
  | visit {slot : Slot} {shms : ShmPair} {k : Kernel}
      (hkeys : NeedsService s.header slot ->
        shms.requestShm.key = (rowKeys (s.header.slots slot)).1 ∧
          shms.responseShm.key = (rowKeys (s.header.slots slot)).2) :
      Served s (.visit slot) ⟨visitWith shms s.header slot, k, some .done⟩

theorem served_of_next (hboost : BoostByKeys boost)
    (hready : forall slot, eligible s.header slot = true ->
      keysMissing (s.header.slots slot).shms = false)
    (hpool : call ≠ .managePool) (h : servingNext boost s call = some s') :
    Served s call s' := by
  rcases Option.map_eq_some_iff.mp h with ⟨⟨⟨header', ret⟩, k'⟩, hreturn, hs⟩
  have hreturns := returns_of_returnOf hreturn
  rw [← hs]
  cases call with
  | requestSlot clientId messageSize type =>
      rcases returns_pure.mp hreturns with ⟨hresult, hk⟩
      injection hresult with hheader hret
      rw [hheader, hret, hk]
      exact Served.request
  | clientClose clientId =>
      rcases returns_pure.mp hreturns with ⟨hresult, hk⟩
      injection hresult with hheader hret
      rw [hheader, hret, hk]
      exact Served.close
  | accept =>
      have haccept : Returns (accept shmAttach s.header) s.kernel (header', ret) k' :=
        hreturns
      cases hscan : acceptScan s.header with
      | none =>
          rcases accept_idle haccept hscan with ⟨hheader, hret, hk⟩
          rw [hheader, hret, hk]
          exact Served.idle hscan
      | some slot =>
          exact Served.accept hscan (accept_chosen haccept hscan
            (hready slot (acceptScan_eligible hscan)))
  | managePool => exact absurd rfl hpool
  | visit slot =>
      rcases returns_bind.mp hreturns with ⟨header1, k1, hvisit, hpure⟩
      rcases returns_pure.mp hpure with ⟨hresult, hk⟩
      injection hresult with hheader hret
      rcases managePoolVisit_returns (fun _ _ => hboost) hvisit with
        ⟨shms, mid, hheader1, hsegments⟩
      rw [hheader, hret, hk, hheader1]
      apply Served.visit
      intro hneeds
      have hallocated := hsegments.allocated hneeds
      exact ⟨hallocated.requestKey, hallocated.responseKey⟩

end Steps

/-!
# What a run keeps
-/

theorem acceptedBefore_snoc {slot : Slot} {trace : List ServingStep} {t : ServingStep} :
    AcceptedBefore slot (trace ++ [t]) <->
      acceptedSlot t = some slot ∨
        (AcceptedBefore slot trace ∧ reservedSlot t ≠ some slot) := by
  constructor
  · intro hparts
    rcases hparts with ⟨earlier, u, later, htrace, haccepted, hlater⟩
    rcases List.eq_nil_or_concat later with rfl | ⟨later, last, rfl⟩
    · rcases List.append_inj' htrace rfl with ⟨_, hlast⟩
      injection hlast with hlast _
      rw [hlast]
      exact Or.inl haccepted
    · rw [List.concat_eq_append] at htrace hlater
      rw [← List.cons_append, ← List.append_assoc] at htrace
      rcases List.append_inj' htrace rfl with ⟨htrace, hlast⟩
      injection hlast with hlast _
      right
      constructor
      · exact ⟨earlier, u, later, htrace, haccepted,
          fun v hv => hlater v (List.mem_append_left _ hv)⟩
      · rw [hlast]
        exact hlater last (List.mem_append_right _ (List.mem_singleton.mpr rfl))
  · intro hcases
    rcases hcases with haccepted | ⟨⟨earlier, u, later, htrace, haccepted, hlater⟩, hnot⟩
    · exact ⟨trace, t, [], rfl, haccepted, fun u hu => absurd hu List.not_mem_nil⟩
    · refine ⟨earlier, u, later ++ [t], ?_, haccepted, ?_⟩
      · rw [htrace, List.append_assoc, List.cons_append]
      · intro v hv
        rcases List.mem_append.mp hv with hv | hv
        · exact hlater v hv
        · rw [List.mem_singleton.mp hv]
          exact hnot

structure RowServed (row : CoordRow) (accepted : Prop) : Prop where
  keyed : KeysNonzero row.type row.clientId
  ready : row.shmCreated = true -> keysMissing row.shms = false
  attached : row.serverAttached = true <-> accepted

structure ServingInvariant (trace : List ServingStep) (s : ServingState) : Prop where
  turn : s.header.acceptSlot < slotNum
  rows : forall slot, s.header.clientReserved slot = true ->
    RowServed (s.header.slots slot) (AcceptedBefore slot trace)

section Invariant

variable {trace : List ServingStep} {s : ServingState} {slot : Slot}

theorem acceptedBefore_kept {t : ServingStep} (haccepted : acceptedSlot t ≠ some slot)
    (hreserved : reservedSlot t ≠ some slot) :
    AcceptedBefore slot (trace ++ [t]) <-> AcceptedBefore slot trace := by
  rw [acceptedBefore_snoc]
  constructor
  · intro hcases
    rcases hcases with hyes | ⟨hbefore, _⟩
    · exact absurd hyes haccepted
    · exact hbefore
  · intro hbefore
    exact Or.inr ⟨hbefore, hreserved⟩

theorem acceptedSlot_of_ne {t : ServingStep} (h : t.label ≠ .accept) :
    acceptedSlot t = none :=
  if_neg h

theorem ServingInvariant.extend {s' : ServingState} {call : ServerCall}
    (h : ServingInvariant trace s) (hturn : s'.header.acceptSlot < slotNum)
    (hreserved : reservedSlot ⟨s, call, s'⟩ = none)
    (hrow : forall slot, s'.header.clientReserved slot = true ->
      s.header.clientReserved slot = true ∧
        (RowServed (s.header.slots slot) (AcceptedBefore slot trace) ->
          RowServed (s'.header.slots slot)
            (acceptedSlot ⟨s, call, s'⟩ = some slot ∨ AcceptedBefore slot trace))) :
    ServingInvariant (trace ++ [⟨s, call, s'⟩]) s' where
  turn := hturn
  rows := by
    intro slot hslot
    rcases hrow slot hslot with ⟨hbefore, hstep⟩
    have hserved := hstep (h.rows slot hbefore)
    have hiff : AcceptedBefore slot (trace ++ [⟨s, call, s'⟩]) <->
        acceptedSlot ⟨s, call, s'⟩ = some slot ∨ AcceptedBefore slot trace := by
      rw [acceptedBefore_snoc, hreserved]
      simp
    exact ⟨hserved.keyed, hserved.ready, hserved.attached.trans hiff.symm⟩

theorem RowServed.of_same {row row' : CoordRow} {P Q : Prop} (h : RowServed row P)
    (htype : row'.type = row.type) (hid : row'.clientId = row.clientId)
    (hcreated : row'.shmCreated = row.shmCreated) (hshms : row'.shms = row.shms)
    (hattached : row'.serverAttached = row.serverAttached) (hiff : P <-> Q) :
    RowServed row' Q where
  keyed := by
    rw [htype, hid]
    exact h.keyed
  ready := by
    rw [hcreated, hshms]
    exact h.ready
  attached := by
    rw [hattached]
    exact h.attached.trans hiff

theorem ServingInvariant.extend_same {s' : ServingState} {call : ServerCall}
    (h : ServingInvariant trace s) (hheader : s'.header = s.header)
    (hreserved : reservedSlot ⟨s, call, s'⟩ = none)
    (haccepted : acceptedSlot ⟨s, call, s'⟩ = none) :
    ServingInvariant (trace ++ [⟨s, call, s'⟩]) s' := by
  apply h.extend
  · rw [hheader]
    exact h.turn
  · exact hreserved
  · intro slot hslot
    rw [hheader] at hslot ⊢
    rw [haccepted]
    exact ⟨hslot, fun hserved => hserved.of_same rfl rfl rfl rfl rfl (by simp)⟩

theorem request_serving {s' : ServingState} {clientId messageSize : Int}
    {type : QueueType} (h : ServingInvariant trace s) (hkeys : KeysNonzero type clientId)
    (hheader : s'.header = (requestSlot s.header clientId messageSize type).1)
    (hreturned : s'.returned =
      some (.slot (requestSlot s.header clientId messageSize type).2)) :
    ServingInvariant (trace ++ [⟨s, .requestSlot clientId messageSize type, s'⟩]) s' := by
  have hnone : acceptedSlot ⟨s, .requestSlot clientId messageSize type, s'⟩ = none :=
    acceptedSlot_of_ne (by intro heq; cases heq)
  have hnot : forall slot,
      acceptedSlot ⟨s, .requestSlot clientId messageSize type, s'⟩ ≠ some slot := by
    intro slot
    rw [hnone]
    exact (Option.some_ne_none slot).symm
  have hreserved : reservedSlot ⟨s, .requestSlot clientId messageSize type, s'⟩ =
      (requestSlot s.header clientId messageSize type).2 := by
    unfold reservedSlot
    dsimp only
    rw [hreturned]
  rcases requestSlot_cases s.header clientId messageSize type with
    ⟨i, hfree, hresult⟩ | ⟨hfull, hresult⟩
  · rw [hresult] at hheader hreserved
    constructor
    · rw [hheader]
      exact h.turn
    · intro slot hslot
      rw [hheader] at hslot ⊢
      by_cases hi : slot = i
      · subst hi
        rw [CoordHeader.setReserved_slots, CoordHeader.setRow_slots_self]
        refine ⟨hkeys, fun hcreated => ?_, ?_⟩
        · cases hcreated
        · rw [acceptedBefore_snoc, hreserved]
          constructor
          · intro hattached
            cases hattached
          · intro hcases
            rcases hcases with haccepted | ⟨_, hne⟩
            · exact absurd haccepted (hnot slot)
            · exact absurd rfl hne
      · rw [CoordHeader.setReserved_clientReserved_of_ne _ _ _ hi] at hslot
        rw [CoordHeader.setReserved_slots, CoordHeader.setRow_slots_of_ne _ _ _ hi]
        apply (h.rows slot hslot).of_same rfl rfl rfl rfl rfl
        refine (acceptedBefore_kept (hnot slot) ?_).symm
        rw [hreserved]
        intro heq
        exact hi (Option.some.inj heq).symm
  · rw [hresult] at hheader hreserved
    exact h.extend_same hheader hreserved hnone

theorem close_serving {s' : ServingState} {clientId : Int} (h : ServingInvariant trace s)
    (hheader : s'.header = (clientClose s.header clientId).1)
    (hreserved : reservedSlot ⟨s, .clientClose clientId, s'⟩ = none) :
    ServingInvariant (trace ++ [⟨s, .clientClose clientId, s'⟩]) s' := by
  have hnone : acceptedSlot ⟨s, .clientClose clientId, s'⟩ = none :=
    acceptedSlot_of_ne (by intro heq; cases heq)
  rcases clientClose_cases s.header clientId with ⟨i, _, hresult⟩ | ⟨_, hresult⟩
  · rw [hresult] at hheader
    apply h.extend
    · rw [hheader]
      exact h.turn
    · exact hreserved
    · intro slot hslot
      rw [hheader] at hslot ⊢
      rw [hnone]
      refine ⟨hslot, fun hserved => ?_⟩
      by_cases hi : slot = i
      · subst hi
        unfold markDetach
        rw [CoordHeader.setRow_slots_self]
        exact hserved.of_same rfl rfl rfl rfl rfl (by simp)
      · rw [markDetach_of_ne _ hi]
        exact hserved.of_same rfl rfl rfl rfl rfl (by simp)
  · rw [hresult] at hheader
    exact h.extend_same hheader hreserved hnone

theorem acceptedSlot_accept (s s' : ServingState) :
    acceptedSlot ⟨s, .accept, s'⟩ = acceptScan s.header :=
  if_pos rfl

theorem accept_serving {s' : ServingState} {chosen : Slot} {ret : ServerReturn}
    (h : ServingInvariant trace s) (hscan : acceptScan s.header = some chosen)
    (haccepted : AcceptedAs s.header chosen s.kernel s'.header ret s'.kernel)
    (hreserved : reservedSlot ⟨s, .accept, s'⟩ = none) :
    ServingInvariant (trace ++ [⟨s, .accept, s'⟩]) s' := by
  have hturn : (chosen.val + 1) % slotNum < slotNum := Nat.mod_lt _ (by decide)
  have hnot : forall {slot : Slot}, slot ≠ chosen -> some chosen ≠ some slot := by
    intro slot hne heq
    exact hne (Option.some.inj heq).symm
  generalize hheader : s'.header = header' at haccepted
  generalize s'.kernel = k' at haccepted
  cases haccepted with
  | again hattached =>
      apply h.extend
      · rw [hheader]
        exact hturn
      · exact hreserved
      · intro slot hslot
        rw [hheader] at hslot ⊢
        rw [acceptedSlot_accept, hscan]
        refine ⟨hslot, fun hserved => ⟨hserved.keyed, hserved.ready, ?_⟩⟩
        by_cases hslot : slot = chosen
        · subst hslot
          exact ⟨fun _ => Or.inl rfl, fun _ => hattached⟩
        · rw [or_iff_right (hnot hslot)]
          exact hserved.attached
  | first hattached hrequest hresponse =>
      apply h.extend
      · rw [hheader]
        exact hturn
      · exact hreserved
      · intro slot hslot
        rw [hheader] at hslot ⊢
        rw [acceptedSlot_accept, hscan]
        refine ⟨hslot, fun hserved => ?_⟩
        by_cases hslot : slot = chosen
        · subst hslot
          rw [CoordHeader.setRow_slots_self]
          exact ⟨hserved.keyed, hserved.ready, fun _ => Or.inl rfl, fun _ => rfl⟩
        · rw [CoordHeader.setRow_slots_of_ne _ _ _ hslot, or_iff_right (hnot hslot)]
          exact hserved

theorem visitWith_acceptSlot (shms : ShmPair) (header : CoordHeader) (slot : Slot) :
    (visitWith shms header slot).acceptSlot = header.acceptSlot := by
  rw [visitWith_eq]
  unfold cleared serviced
  split
  · split
    · rfl
    · rfl
  · split
    · rfl
    · rfl

theorem visit_serving {s' : ServingState} {visited : Slot} {shms : ShmPair}
    (h : ServingInvariant trace s)
    (hkeys : NeedsService s.header visited ->
      shms.requestShm.key = (rowKeys (s.header.slots visited)).1 ∧
        shms.responseShm.key = (rowKeys (s.header.slots visited)).2)
    (hheader : s'.header = visitWith shms s.header visited)
    (hreserved : reservedSlot ⟨s, .visit visited, s'⟩ = none) :
    ServingInvariant (trace ++ [⟨s, .visit visited, s'⟩]) s' := by
  have hnone : acceptedSlot ⟨s, .visit visited, s'⟩ = none :=
    acceptedSlot_of_ne (by intro heq; cases heq)
  apply h.extend
  · rw [hheader, visitWith_acceptSlot]
    exact h.turn
  · exact hreserved
  · intro slot hslot
    rw [hheader] at hslot ⊢
    rw [hnone]
    have hbefore := (visitWith_reserved shms s.header hslot).left
    refine ⟨hbefore, fun hserved => ?_⟩
    by_cases hi : slot = visited
    · subst hi
      cases hdetach : (s.header.slots slot).detach with
      | true =>
          rw [(visitWith_detach shms s.header hdetach).right] at hslot
          cases hslot
      | false =>
          rw [visitWith_keep shms s.header hdetach]
          by_cases hneeds : NeedsService s.header slot
          · rw [serviced_of_needs shms hneeds, CoordHeader.setRow_slots_self]
            rcases hkeys hneeds with ⟨hrequest, hresponse⟩
            refine ⟨hserved.keyed, fun _ => ?_, ?_⟩
            · apply keysMissing_eq_false
              · rw [hrequest]
                exact hserved.keyed.left
              · rw [hresponse]
                exact hserved.keyed.right
            · exact hserved.attached.trans (by simp)
          · rw [serviced_of_not_needs shms hneeds]
            exact hserved.of_same rfl rfl rfl rfl rfl (by simp)
    · rw [(visitWith_other shms s.header hi).left]
      exact hserved.of_same rfl rfl rfl rfl rfl (by simp)

end Invariant

/-!
# Fairness
-/

theorem ServingInvariant.keys {trace : List ServingStep} {s : ServingState}
    (h : ServingInvariant trace s) {slot : Slot}
    (heligible : eligible s.header slot = true) :
    keysMissing (s.header.slots slot).shms = false := by
  rcases eligible_iff.mp heligible with ⟨hreserved, hcreated, _⟩
  exact (h.rows slot hreserved).ready hcreated

/-- What is promised of `accept`, along a run. -/
structure AcceptFair (trace : List ServingStep) : Prop where
  /-- `accept_slot` is the index of a slot. -/
  inRange : forall t, t ∈ trace -> t.target.header.acceptSlot < slotNum
  /-- NULL is returned when there is no slot to return. -/
  idle : forall t, t ∈ trace -> t.label = .accept ->
    (t.target.returned = some (.queueCtx none) <->
      ¬ exists slot, t.source.header.clientReserved slot = true ∧
        (t.source.header.slots slot).shmCreated = true ∧
          (t.source.header.slots slot).detach = false)
  /-- A slot is not passed over for a whole round. -/
  inTurn : forall before window after slot, trace = before ++ window ++ after ->
    (forall t, t ∈ window -> eligible t.source.header slot = true) ->
      slotNum ≤ acceptCount window ->
        exists t, t ∈ window ∧ acceptedSlot t = some slot
  /-- The first handle of a reservation has the addresses of its segments. -/
  first : forall before t after slot, trace = before ++ t :: after ->
    acceptedSlot t = some slot -> ¬ AcceptedBefore slot before ->
      t.target.returned = some (.queueCtx (some (handleOf (t.source.header.slots slot)
        (some (some (t.source.header.slots slot).shms.requestShm.shmid,
          some (t.source.header.slots slot).shms.responseShm.shmid)))))
  /-- Every later handle has none. -/
  again : forall before t after slot, trace = before ++ t :: after ->
    acceptedSlot t = some slot -> AcceptedBefore slot before ->
      t.target.returned =
        some (.queueCtx (some (handleOf (t.source.header.slots slot) none)))

section Fair

variable {boost : Int -> Int -> OsM ShmPair} {trace : List ServingStep}
  {start s s' : ServingState} {call : ServerCall}

theorem ServesWell.single (h : ServesWell s call) : call ≠ .managePool := by
  intro heq
  rw [heq] at h
  exact h

theorem serving_step (hboost : BoostByKeys boost) (h : ServingInvariant trace s)
    (hguard : ServesWell s call) (hnext : servingNext boost s call = some s') :
    Served s call s' ∧ ServingInvariant (trace ++ [⟨s, call, s'⟩]) s' := by
  have hserved := served_of_next hboost (fun _ heligible => h.keys heligible)
    hguard.single hnext
  refine ⟨hserved, ?_⟩
  cases hserved with
  | request => exact request_serving h hguard rfl rfl
  | close => exact close_serving h rfl rfl
  | idle hscan => exact h.extend_same rfl rfl hscan
  | accept hscan haccepted =>
      refine accept_serving h hscan haccepted ?_
      cases haccepted with
      | again hattached => rfl
      | first hattached hrequest hresponse => rfl
  | visit hkeys => exact visit_serving h hkeys rfl rfl

theorem servingInvariant_start (k : Kernel) : ServingInvariant [] (servingStart k) where
  turn := Nat.zero_lt_of_lt firstSlot.isLt
  rows := by
    intro slot hslot
    cases hslot

theorem serving_run (hboost : BoostByKeys boost)
    (hstart : (servingSystem boost).Initial start)
    (hrun : (servingSystem boost).Run start trace s)
    (hguard : TransitionSystem.Guarded ServesWell trace) : ServingInvariant trace s := by
  rcases hstart with ⟨k, rfl⟩
  refine TransitionSystem.run_trace_invariant ?_ hrun hguard (servingInvariant_start k)
  intro trace s call s' h hcall hnext
  exact (serving_step hboost h hcall hnext).right

theorem attached_addresses {slot : Slot} {k1 k' : Kernel}
    {requestAddr responseAddr : Option Int} (hattaches : AttachesSucceed s)
    (hscan : acceptScan s.header = some slot)
    (hattached : (s.header.slots slot).serverAttached = false)
    (hrequest : Returns (shmAttach (s.header.slots slot).shms.requestShm.shmid) s.kernel
      requestAddr k1)
    (hresponse : Returns (shmAttach (s.header.slots slot).shms.responseShm.shmid) k1
      responseAddr k') :
    requestAddr = some (s.header.slots slot).shms.requestShm.shmid ∧
      responseAddr = some (s.header.slots slot).shms.responseShm.shmid := by
  have hcreated := (eligible_iff.mp (acceptScan_eligible hscan)).right.left
  have hstate : getServerAttachState s.header slot = false := by
    unfold getServerAttachState
    rw [if_pos hcreated]
    exact hattached
  rcases hattaches slot hscan hstate with ⟨hcalls, hpresent1, hpresent2⟩
  rcases (Kernel.callsSucceed_succ (shmAttach_faults hrequest)).mp hcalls with
    ⟨hnext, hcalls1⟩
  constructor
  · exact (shmAttach_some_iff hrequest).mpr ⟨hnext, Option.isSome_iff_exists.mp hpresent1⟩
  · apply (shmAttach_some_iff hresponse).mpr
    rw [(returns_shmAttach hrequest).left]
    exact ⟨hcalls1.next, Option.isSome_iff_exists.mp hpresent2⟩

theorem Served.turn (h : Served s call s') (hcall : call ≠ .accept) :
    s'.header.acceptSlot = s.header.acceptSlot := by
  cases h with
  | request =>
      rename_i clientId messageSize type
      rcases requestSlot_cases s.header clientId messageSize type with
        ⟨i, _, hresult⟩ | ⟨_, hresult⟩
      · show (requestSlot s.header clientId messageSize type).1.acceptSlot = _
        rw [hresult]
        rfl
      · show (requestSlot s.header clientId messageSize type).1.acceptSlot = _
        rw [hresult]
  | close =>
      rename_i clientId
      rcases clientClose_cases s.header clientId with ⟨i, _, hresult⟩ | ⟨_, hresult⟩
      · show (clientClose s.header clientId).1.acceptSlot = _
        rw [hresult]
        rfl
      · show (clientClose s.header clientId).1.acceptSlot = _
        rw [hresult]
  | idle hscan => exact absurd rfl hcall
  | accept hscan haccepted => exact absurd rfl hcall
  | visit hkeys => exact visitWith_acceptSlot _ _ _

theorem acceptedSlot_eq_some {t : ServingStep} {slot : Slot} :
    acceptedSlot t = some slot <->
      t.label = .accept ∧ acceptScan t.source.header = some slot := by
  unfold acceptedSlot
  split
  · rename_i hlabel
    exact ⟨fun h => ⟨hlabel, h⟩, fun h => h.right⟩
  · rename_i hlabel
    constructor
    · intro h
      cases h
    · intro h
      exact absurd h.left hlabel

theorem Served.returns_null (h : Served s call s') (hcall : call = .accept) :
    s'.returned = some (.queueCtx none) <-> acceptScan s.header = none := by
  subst hcall
  cases h with
  | idle hscan => exact ⟨fun _ => hscan, fun _ => rfl⟩
  | accept hscan haccepted =>
      rw [hscan]
      constructor
      · intro hnull
        cases haccepted with
        | again hattached => cases hnull
        | first hattached hrequest hresponse => cases hnull
      · intro hnone
        cases hnone

theorem Served.returns_handle {slot : Slot} (h : Served s call s')
    (hcall : call = .accept) (hscan : acceptScan s.header = some slot) :
    exists ret, AcceptedAs s.header slot s.kernel s'.header ret s'.kernel ∧
      s'.returned = some ret := by
  subst hcall
  cases h with
  | idle hnone =>
      rw [hscan] at hnone
      cases hnone
  | accept hscan' haccepted =>
      rw [hscan] at hscan'
      injection hscan' with hsame
      rw [hsame]
      exact ⟨_, haccepted, rfl⟩

theorem AcceptedAs.turn {header header' : CoordHeader} {slot : Slot} {k k' : Kernel}
    {ret : ServerReturn} (h : AcceptedAs header slot k header' ret k') :
    header'.acceptSlot = (slot.val + 1) % slotNum := by
  cases h with
  | again hattached => rfl
  | first hattached hrequest hresponse => rfl

theorem Served.turned {chosen : Slot} (h : Served s .accept s')
    (hscan : acceptScan s.header = some chosen) :
    s'.header.acceptSlot = (chosen.val + 1) % slotNum := by
  rcases h.returns_handle rfl hscan with ⟨_, haccepted, _⟩
  exact haccepted.turn

def KeysReady (s : ServingState) : Prop :=
  forall slot, eligible s.header slot = true ->
    keysMissing (s.header.slots slot).shms = false

/-- A slot that stays eligible is returned within a round of calls. -/
theorem accepted_in_turn {slot : Slot} (hboost : BoostByKeys boost)
    (hrun : (servingSystem boost).Run start trace s)
    (hguard : TransitionSystem.Guarded (fun s call => eligible s.header slot = true ∧
      KeysReady s ∧ call ≠ .managePool) trace)
    (hcount : slotNum ≤ acceptCount trace) :
    exists t, t ∈ trace ∧ acceptedSlot t = some slot := by
  let rank : ServingState -> Nat := fun s => turns slotNum s.header.acceptSlot slot.val
  refine TransitionSystem.exists_of_rank (fun call => call = .accept) rank ?_ ?_ hrun
    hguard ?_
  · rintro s call s' ⟨heligible, hready, hpool⟩ hnext hmarked hnot
    have hserved := served_of_next hboost hready hpool hnext
    have hcall : call = .accept := of_decide_eq_true hmarked
    subst hcall
    rw [acceptedSlot_accept] at hnot
    cases hscan : acceptScan s.header with
    | none =>
        have hno := acceptScan_eq_none.mp hscan slot
        rw [heligible] at hno
        cases hno
    | some chosen =>
        show turns slotNum s'.header.acceptSlot slot.val < _
        rw [hserved.turned hscan]
        apply (acceptScan_picks hscan).closer slot.isLt
        · rw [slotAt_eq (Nat.mod_eq_of_lt slot.isLt)]
          exact heligible
        · intro hsame
          exact hnot (by rw [hscan, Fin.ext hsame])
  · rintro s call s' ⟨heligible, hready, hpool⟩ hnext hmarked
    have hserved := served_of_next hboost hready hpool hnext
    show turns slotNum s'.header.acceptSlot slot.val ≤ _
    rw [hserved.turn (of_decide_eq_false hmarked)]
  · exact Nat.lt_of_lt_of_le (turns_lt (by decide)) hcount

theorem serving_before {before after : List ServingStep} {t : ServingStep}
    (hboost : BoostByKeys boost) (hstart : (servingSystem boost).Initial start)
    (hrun : (servingSystem boost).Run start trace s)
    (hguard : TransitionSystem.Guarded ServesWell trace)
    (htrace : trace = before ++ t :: after) :
    ServingInvariant before t.source ∧ Served t.source t.label t.target ∧
      t.target.header.acceptSlot < slotNum := by
  rcases hrun.upTo htrace with ⟨hearlier, hnext⟩
  have hbefore : TransitionSystem.Guarded ServesWell before := by
    intro u hu
    exact hguard u (by rw [htrace]; exact List.mem_append_left _ hu)
  have ht : ServesWell t.source t.label :=
    hguard t (by rw [htrace]; exact List.mem_append_right _ List.mem_cons_self)
  have h := serving_run hboost hstart hearlier hbefore
  rcases serving_step hboost h ht hnext with ⟨hserved, hafter⟩
  exact ⟨h, hserved, hafter.turn⟩

/-- The slot that was accepted has its addresses handed out if and only if it was
accepted before. -/
theorem accepted_as {before : List ServingStep} {t : ServingStep} {slot : Slot}
    (h : ServingInvariant before t.source) (hserved : Served t.source t.label t.target)
    (haccepted : acceptedSlot t = some slot) :
    ((t.source.header.slots slot).serverAttached = true <-> AcceptedBefore slot before) ∧
      exists ret, AcceptedAs t.source.header slot t.source.kernel t.target.header ret
        t.target.kernel ∧ t.target.returned = some ret := by
  rcases acceptedSlot_eq_some.mp haccepted with ⟨hlabel, hscan⟩
  have hreserved := (eligible_iff.mp (acceptScan_eligible hscan)).left
  exact ⟨(h.rows slot hreserved).attached, hserved.returns_handle hlabel hscan⟩

theorem first_handle {before : List ServingStep} {t : ServingStep} {slot : Slot}
    (h : ServingInvariant before t.source) (hserved : Served t.source t.label t.target)
    (haccepted : acceptedSlot t = some slot) (hattaches : AttachesSucceed t.source)
    (hnot : ¬ AcceptedBefore slot before) :
    t.target.returned = some (.queueCtx (some (handleOf (t.source.header.slots slot)
      (some (some (t.source.header.slots slot).shms.requestShm.shmid,
        some (t.source.header.slots slot).shms.responseShm.shmid))))) := by
  rcases accepted_as h hserved haccepted with ⟨hattached, ret, hret, hreturned⟩
  have hscan := (acceptedSlot_eq_some.mp haccepted).right
  rw [hreturned]
  generalize t.target.header = header' at hret
  generalize t.target.kernel = k' at hret
  cases hret with
  | again hyes => exact absurd (hattached.mp hyes) hnot
  | first hno hrequest hresponse =>
      rcases attached_addresses hattaches hscan hno hrequest hresponse with
        ⟨haddress1, haddress2⟩
      rw [haddress1, haddress2]

theorem later_handle {before : List ServingStep} {t : ServingStep} {slot : Slot}
    (h : ServingInvariant before t.source) (hserved : Served t.source t.label t.target)
    (haccepted : acceptedSlot t = some slot) (hbefore : AcceptedBefore slot before) :
    t.target.returned =
      some (.queueCtx (some (handleOf (t.source.header.slots slot) none))) := by
  rcases accepted_as h hserved haccepted with ⟨hattached, ret, hret, hreturned⟩
  rw [hreturned]
  generalize t.target.header = header' at hret
  generalize t.target.kernel = k' at hret
  cases hret with
  | again hyes => rfl
  | first hno hrequest hresponse =>
      rw [hattached.mpr hbefore] at hno
      cases hno

/-- `accept` is fair, and delivers each connection once. -/
theorem accept_fair (hboost : BoostByKeys boost)
    (hstart : (servingSystem boost).Initial start)
    (hrun : (servingSystem boost).Run start trace s)
    (hguard : TransitionSystem.Guarded ServesWell trace) : AcceptFair trace := by
  have hat : forall before t after, trace = before ++ t :: after ->
      ServingInvariant before t.source ∧ Served t.source t.label t.target ∧
        t.target.header.acceptSlot < slotNum :=
    fun _ _ _ htrace => serving_before hboost hstart hrun hguard htrace
  constructor
  · intro t ht
    rcases List.append_of_mem ht with ⟨before, after, htrace⟩
    exact (hat before t after htrace).right.right
  · intro t ht hlabel
    rcases List.append_of_mem ht with ⟨before, after, htrace⟩
    have hserved := (hat before t after htrace).right.left
    have hnone : (¬ exists slot, t.source.header.clientReserved slot = true ∧
        (t.source.header.slots slot).shmCreated = true ∧
          (t.source.header.slots slot).detach = false) <->
        acceptScan t.source.header = none := by
      rw [acceptScan_eq_none]
      simp only [← eligible_iff, not_exists, Bool.not_eq_true]
    rw [hnone]
    exact hserved.returns_null hlabel
  · intro before window after slot htrace heligible hcount
    rcases hrun.split htrace with ⟨last, hfirst, _⟩
    rcases hfirst.split rfl with ⟨mid, _, hwindow⟩
    apply accepted_in_turn hboost hwindow _ hcount
    intro t ht
    have hmem : t ∈ trace := by
      rw [htrace]
      exact List.mem_append_left _ (List.mem_append_right _ ht)
    rcases List.append_of_mem hmem with ⟨before', after', htrace'⟩
    have h := (hat before' t after' htrace').left
    exact ⟨heligible t ht, fun slot hslot => h.keys hslot, (hguard t hmem).single⟩
  · intro before t after slot htrace haccepted hnot
    rcases hat before t after htrace with ⟨h, hserved, _⟩
    have hattaches : ServesWell t.source t.label :=
      hguard t (by rw [htrace]; exact List.mem_append_right _ List.mem_cons_self)
    rw [(acceptedSlot_eq_some.mp haccepted).left] at hattaches
    exact first_handle h hserved haccepted hattaches hnot
  · intro before t after slot htrace haccepted hbefore
    rcases hat before t after htrace with ⟨h, hserved, _⟩
    exact later_handle h hserved haccepted hbefore

end Fair

/-!
# A run
-/

instance (s : ServingState) : Decidable (AttachesSucceed s) :=
  inferInstanceAs (Decidable (forall _ : Slot, _))

instance (type : QueueType) (clientId : Int) : Decidable (KeysNonzero type clientId) :=
  inferInstanceAs (Decidable (_ ∧ _))

def servesWellCheck (s : ServingState) : ServerCall -> Bool
  | .requestSlot clientId _ type => decide (KeysNonzero type clientId)
  | .clientClose _ => true
  | .accept => decide (AttachesSucceed s)
  | .managePool => false
  | .visit _ => true

theorem servesWell_of_check (s : ServingState) (call : ServerCall)
    (h : servesWellCheck s call = true) : ServesWell s call := by
  cases call with
  | requestSlot clientId messageSize type =>
      have hkeys : KeysNonzero type clientId := of_decide_eq_true h
      exact hkeys
  | clientClose clientId => trivial
  | accept =>
      have hattaches : AttachesSucceed s := of_decide_eq_true h
      exact hattaches
  | managePool => cases h
  | visit slot => trivial

/-- Two clients are accepted in turn; the first one goes, and another client takes
its row. -/
def servingCalls : List ServerCall :=
  [.requestSlot 1000 64 .poll, .visit firstSlot, .requestSlot 7 64 .sem, .accept,
    .visit (slotAt 1), .accept, .accept, .clientClose 1000, .visit firstSlot,
    .requestSlot 50 64 .poll, .visit firstSlot, .accept, .accept]

theorem accept_fair_reuse : exists trace s,
    (servingSystem boostOpenOrCreate).Run (servingStart emptyKernel) trace s ∧
      s.returned = some (.queueCtx (some
        { table := .poll
          clientId := 50
          offset := 0
          addresses := some (some 4, some 5) })) ∧
      AcceptFair trace := by
  have hlast : ((servingSystem boostOpenOrCreate).executeChecked servesWellCheck
      (servingStart emptyKernel) servingCalls).map ServingState.returned =
        some (some (.queueCtx (some
          { table := .poll
            clientId := 50
            offset := 0
            addresses := some (some 4, some 5) }))) := by
    decide +kernel
  rcases Option.map_eq_some_iff.mp hlast with ⟨s, hexec, hreturned⟩
  rcases TransitionSystem.executeChecked_run servesWell_of_check TransitionSystem.Run.nil
    (TransitionSystem.guarded_nil _) hexec with ⟨trace, hrun, hguard⟩
  rw [List.nil_append] at hrun hguard
  exact ⟨trace, s, hrun, hreturned,
    accept_fair boostOpenOrCreate_byKeys ⟨emptyKernel, rfl⟩ hrun hguard⟩

end Rpc
end Notnets
