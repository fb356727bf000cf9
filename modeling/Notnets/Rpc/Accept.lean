import Notnets.Rpc.Client

/-!
# accept

`accept` chooses a slot under the mutex and releases the mutex before it reads
the row: first the queue type, then the pair, then the client id.  Every value
it reads is kept together with the reservation that the row held at that
moment, which no step of the code looks at.
-/

namespace Notnets
namespace Rpc

open Coord
open Foundation

/-- The functions that `select_queue_ctx` fills into a `queue_ctx`. -/
inductive OperationTable where
  | poll
  | boost
  | sem
deriving DecidableEq, Repr

def selectQueueCtx : QueueType -> OperationTable
  | .poll => .poll
  | .boost => .boost
  | .sem => .sem
  | .other => .poll

/-- A value read from a row, and the number of the reservation it belongs to. -/
structure Tagged (Value : Type) where
  value : Value
  origin : Option Nat
deriving DecidableEq, Repr

/-- What `accept` returns: the operations, and the fields of the queue pair.
The addresses are those of the two segments, or NULL if not `mapped`. -/
structure Handle where
  table : Tagged OperationTable
  clientId : Tagged Int
  shms : Tagged ShmPair
  mapped : Bool
deriving DecidableEq, Repr

/-- Where a call of `accept` stands. -/
inductive AcceptPc where
  /-- No call is running; the last one returned this. -/
  | idle (last : Option Handle)
  | chosen (slot : Slot)
  | typed (slot : Slot) (table : Tagged OperationTable)
  | paired (slot : Slot) (table : Tagged OperationTable) (shms : Tagged ShmPair)
  /-- At the test of the loop that waits for two keys. -/
  | looping (slot : Slot) (table : Tagged OperationTable)
      (shms : Tagged ShmPair) (clientId : Tagged Int)
  /-- About to call `get_server_attach_state`. -/
  | testing (slot : Slot) (handle : Handle)
  /-- About to call `set_server_attach_state`. -/
  | marking (slot : Slot) (handle : Handle)
  /-- About to attach the two segments. -/
  | mapping (slot : Slot) (handle : Handle)
deriving DecidableEq, Repr

structure AcceptState where
  header : CoordHeader
  /-- The slot that the manager visits next. -/
  cursor : Slot
  /-- The number of times each slot was reserved. -/
  reservation : Slot -> Nat
  acceptors : Nat -> AcceptPc

inductive AcceptLabel where
  | request (clientId messageSize : Int) (type : QueueType)
  | close (clientId : Int)
  | visit (allocated : ShmPair)
  /-- A server thread calls `accept`, or takes the next step of its call. -/
  | accept (thread : Nat)
deriving DecidableEq, Repr

/-!
# The steps
-/

def slotAt (n : Nat) : Slot :=
  ⟨n % slotNum, Nat.mod_lt _ (by decide)⟩

/-- The test that `accept` makes of a slot while it holds the mutex. -/
def eligible (header : CoordHeader) (slot : Slot) : Bool :=
  !(header.slots slot).detach && header.clientReserved slot &&
    (header.slots slot).shmCreated

/-- The scan from `accept_slot` on, once around. -/
def acceptScan (header : CoordHeader) : Option Slot :=
  ((List.range slotNum).map fun i => slotAt (header.acceptSlot + i)).find?
    (eligible header)

def keysMissing (shms : ShmPair) : Bool :=
  shms.requestShm.key == 0 || shms.responseShm.key == 0

namespace AcceptState

variable (s : AcceptState)

def reservedTag (slot : Slot) : Option Nat :=
  if s.header.clientReserved slot then some (s.reservation slot) else none

def servicedTag (slot : Slot) : Option Nat :=
  if (s.header.slots slot).shmCreated then s.reservedTag slot else none

def setAcceptor (thread : Nat) (pc : AcceptPc) : AcceptState :=
  { s with acceptors := Function.update s.acceptors thread pc }

end AcceptState

def acceptNext (s : AcceptState) (thread : Nat) : AcceptState :=
  match s.acceptors thread with
  | .idle _ =>
      match acceptScan s.header with
      | some slot =>
          { s with header := { s.header with
              acceptSlot := (slot.val + 1) % slotNum } }.setAcceptor
            thread (.chosen slot)
      | none => s.setAcceptor thread (.idle none)
  | .chosen slot =>
      s.setAcceptor thread
        (.typed slot ⟨selectQueueCtx (s.header.slots slot).type, s.reservedTag slot⟩)
  | .typed slot table =>
      s.setAcceptor thread
        (.paired slot table ⟨checkSlot s.header slot, s.servicedTag slot⟩)
  | .paired slot table shms =>
      s.setAcceptor thread
        (.looping slot table shms ⟨getClientId s.header slot, s.servicedTag slot⟩)
  | .looping slot table shms clientId =>
      if keysMissing shms.value then
        s.setAcceptor thread
          (.looping slot table ⟨checkSlot s.header slot, s.servicedTag slot⟩ clientId)
      else
        s.setAcceptor thread (.testing slot ⟨table, clientId, shms, false⟩)
  | .testing slot handle =>
      if getServerAttachState s.header slot then
        s.setAcceptor thread (.idle (some handle))
      else
        s.setAcceptor thread (.marking slot handle)
  | .marking slot handle =>
      { s with header := (setServerAttachState s.header slot true).1 }.setAcceptor
        thread (.mapping slot handle)
  | .mapping _ handle =>
      s.setAcceptor thread (.idle (some { handle with mapped := true }))

def AcceptState.request (s : AcceptState) (clientId messageSize : Int)
    (type : QueueType) : AcceptState :=
  match requestSlot s.header clientId messageSize type with
  | (header, some i) =>
      { s with
        header := header
        reservation := Function.update s.reservation i (s.reservation i + 1) }
  | (_, none) => s

def acceptSystemNext (s : AcceptState) : AcceptLabel -> AcceptState
  | .request clientId messageSize type => s.request clientId messageSize type
  | .close clientId => { s with header := (clientClose s.header clientId).1 }
  | .visit allocated =>
      { s with
        header := visitWith allocated s.header s.cursor
        cursor := nextSlot s.cursor }
  | .accept thread => acceptNext s thread

def acceptStart : AcceptState where
  header := CoordHeader.zero
  cursor := firstSlot
  reservation := fun _ => 0
  acceptors := fun _ => .idle none

def acceptSystem : TransitionSystem AcceptState AcceptLabel where
  Initial s := s = acceptStart
  next s l := some (acceptSystemNext s l)

/-!
# Coherent handles
-/

def Handle.Coherent (handle : Handle) : Prop :=
  exists n, handle.table.origin = some n ∧ handle.clientId.origin = some n ∧
    handle.shms.origin = some n

/-- Every handle returned is coherent, and every call that waits for keys waits
on a slot that is reserved. -/
structure AcceptSound (s : AcceptState) : Prop where
  returned : forall thread handle,
    s.acceptors thread = .idle (some handle) -> handle.Coherent
  waits : forall thread slot table shms clientId,
    s.acceptors thread = .looping slot table shms clientId ->
      keysMissing shms.value = true -> s.header.clientReserved slot = true

def AcceptPc.reading : AcceptPc -> Option Slot
  | .chosen slot => some slot
  | .typed slot _ => some slot
  | .paired slot _ _ => some slot
  | .looping slot _ shms _ => if keysMissing shms.value then some slot else none
  | _ => none

/-- The manager clears no slot that an unfinished `accept` is still reading. -/
def ClearsUnread (s : AcceptState) : AcceptLabel -> Prop
  | .visit _ =>
      (s.header.slots s.cursor).detach = true ->
        forall thread, (s.acceptors thread).reading ≠ some s.cursor
  | _ => True

def Holds (s : AcceptState) (slot : Slot) : Prop :=
  s.header.clientReserved slot = true ∧ (s.header.slots slot).shmCreated = true

/-- A call that is still reading has read one reservation, which its slot still
holds; a call that has finished reading has a coherent handle. -/
def AcceptAt (s : AcceptState) : AcceptPc -> Prop
  | .idle none => True
  | .idle (some handle) => handle.Coherent
  | .chosen slot => Holds s slot
  | .typed slot table =>
      Holds s slot ∧ table.origin = some (s.reservation slot)
  | .paired slot table shms =>
      Holds s slot ∧ table.origin = some (s.reservation slot) ∧
        shms.origin = some (s.reservation slot)
  | .looping slot table shms clientId =>
      (Handle.mk table clientId shms false).Coherent ∧
        (keysMissing shms.value = true ->
          Holds s slot ∧ table.origin = some (s.reservation slot) ∧
            clientId.origin = some (s.reservation slot))
  | .testing _ handle => handle.Coherent
  | .marking _ handle => handle.Coherent
  | .mapping _ handle => handle.Coherent

/-!
# Steps of the other parties
-/

theorem acceptAt_of_kept {s s' : AcceptState} {pc : AcceptPc}
    (h : AcceptAt s pc)
    (hkept : forall slot, pc.reading = some slot -> Holds s slot ->
      Holds s' slot ∧ s'.reservation slot = s.reservation slot) :
    AcceptAt s' pc := by
  cases pc with
  | idle last =>
      cases last with
      | none => trivial
      | some handle => exact h
  | chosen slot => exact (hkept slot rfl h).left
  | typed slot table =>
      rcases h with ⟨hholds, htable⟩
      rcases hkept slot rfl hholds with ⟨hholds', hsame⟩
      exact ⟨hholds', hsame.symm ▸ htable⟩
  | paired slot table shms =>
      rcases h with ⟨hholds, htable, hshms⟩
      rcases hkept slot rfl hholds with ⟨hholds', hsame⟩
      exact ⟨hholds', hsame.symm ▸ htable, hsame.symm ▸ hshms⟩
  | looping slot table shms clientId =>
      rcases h with ⟨hcoherent, hwaits⟩
      constructor
      · exact hcoherent
      · intro hmissing
        rcases hwaits hmissing with ⟨hholds, htable, hid⟩
        rcases hkept slot (if_pos hmissing) hholds with ⟨hholds', hsame⟩
        exact ⟨hholds', hsame.symm ▸ htable, hsame.symm ▸ hid⟩
  | testing slot handle => exact h
  | marking slot handle => exact h
  | mapping slot handle => exact h

theorem setServerAttachState_holds (header : CoordHeader) (slot i : Slot)
    (state : Bool) :
    (setServerAttachState header slot state).1.clientReserved i =
        header.clientReserved i ∧
      ((setServerAttachState header slot state).1.slots i).shmCreated =
        (header.slots i).shmCreated := by
  unfold setServerAttachState
  split
  · by_cases hi : i = slot
    · subst hi
      simp
    · simp [hi]
  · exact ⟨rfl, rfl⟩

theorem acceptScan_eligible {header : CoordHeader} {slot : Slot}
    (h : acceptScan header = some slot) : eligible header slot = true :=
  List.find?_some h

/-!
# The steps of a call
-/

theorem tags_of_holds {s : AcceptState} {slot : Slot} (h : Holds s slot) :
    s.reservedTag slot = some (s.reservation slot) ∧
      s.servicedTag slot = some (s.reservation slot) := by
  unfold AcceptState.servicedTag AcceptState.reservedTag
  rw [if_pos h.left, if_pos h.right]
  exact ⟨rfl, rfl⟩

theorem acceptNext_frame (s : AcceptState) (thread : Nat) :
    (acceptNext s thread).reservation = s.reservation ∧
      (forall slot, Holds s slot -> Holds (acceptNext s thread) slot) ∧
      exists pc, (acceptNext s thread).acceptors =
        Function.update s.acceptors thread pc := by
  unfold acceptNext
  split
  · split
    · exact ⟨rfl, fun _ h => h, _, rfl⟩
    · exact ⟨rfl, fun _ h => h, _, rfl⟩
  · exact ⟨rfl, fun _ h => h, _, rfl⟩
  · exact ⟨rfl, fun _ h => h, _, rfl⟩
  · exact ⟨rfl, fun _ h => h, _, rfl⟩
  · split
    · exact ⟨rfl, fun _ h => h, _, rfl⟩
    · exact ⟨rfl, fun _ h => h, _, rfl⟩
  · split
    · exact ⟨rfl, fun _ h => h, _, rfl⟩
    · exact ⟨rfl, fun _ h => h, _, rfl⟩
  · rename_i slot handle _
    refine ⟨rfl, ?_, _, rfl⟩
    intro i h
    rcases setServerAttachState_holds s.header slot i true with
      ⟨hreserved, hcreated⟩
    exact ⟨hreserved.trans h.left, hcreated.trans h.right⟩
  · exact ⟨rfl, fun _ h => h, _, rfl⟩

/-- The call itself goes on reading the reservation it has started with. -/
theorem acceptNext_own {s : AcceptState} {thread : Nat}
    (h : AcceptAt s (s.acceptors thread)) :
    AcceptAt (acceptNext s thread) ((acceptNext s thread).acceptors thread) := by
  unfold acceptNext
  split
  · split
    · rename_i slot hscan
      have heligible := acceptScan_eligible hscan
      simp only [eligible, Bool.and_eq_true] at heligible
      simp only [AcceptState.setAcceptor, Function.update_self]
      exact ⟨heligible.left.right, heligible.right⟩
    · simp only [AcceptState.setAcceptor, Function.update_self]
      trivial
  · rename_i slot hpc
    rw [hpc] at h
    simp only [AcceptState.setAcceptor, Function.update_self]
    exact ⟨h, (tags_of_holds h).left⟩
  · rename_i slot table hpc
    rw [hpc] at h
    simp only [AcceptState.setAcceptor, Function.update_self]
    exact ⟨h.left, h.right, (tags_of_holds h.left).right⟩
  · rename_i slot table shms hpc
    rw [hpc] at h
    rcases h with ⟨hholds, htable, hshms⟩
    have hid := (tags_of_holds hholds).right
    simp only [AcceptState.setAcceptor, Function.update_self]
    exact ⟨⟨_, htable, hid, hshms⟩, fun _ => ⟨hholds, htable, hid⟩⟩
  · rename_i slot table shms clientId hpc
    rw [hpc] at h
    rcases h with ⟨hcoherent, hwaits⟩
    split
    · rename_i hmissing
      rcases hwaits hmissing with ⟨hholds, htable, hid⟩
      simp only [AcceptState.setAcceptor, Function.update_self]
      exact ⟨⟨_, htable, hid, (tags_of_holds hholds).right⟩,
        fun _ => ⟨hholds, htable, hid⟩⟩
    · simp only [AcceptState.setAcceptor, Function.update_self]
      exact hcoherent
  · rename_i slot handle hpc
    rw [hpc] at h
    split
    · simp only [AcceptState.setAcceptor, Function.update_self]
      exact h
    · simp only [AcceptState.setAcceptor, Function.update_self]
      exact h
  · rename_i slot handle hpc
    rw [hpc] at h
    simp only [AcceptState.setAcceptor, Function.update_self]
    exact h
  · rename_i slot handle hpc
    rw [hpc] at h
    simp only [AcceptState.setAcceptor, Function.update_self]
    exact h

/-!
# Every interleaving
-/

def AcceptInvariant (s : AcceptState) : Prop :=
  forall thread, AcceptAt s (s.acceptors thread)

theorem request_invariant {s : AcceptState} (hs : AcceptInvariant s)
    (clientId messageSize : Int) (type : QueueType) :
    AcceptInvariant (s.request clientId messageSize type) := by
  intro thread
  unfold AcceptState.request
  rcases requestSlot_cases s.header clientId messageSize type with
    ⟨i, hfree, hresult⟩ | ⟨_, hresult⟩
  · rw [hresult]
    have hunreserved := (freeSlot_eq_some_iff.mp hfree).left
    apply acceptAt_of_kept (hs thread)
    intro slot _ hholds
    have hne : slot ≠ i := by
      intro heq
      subst heq
      rw [hholds.left] at hunreserved
      cases hunreserved
    rcases hholds with ⟨hreserved, hcreated⟩
    constructor
    · constructor
      · simpa [hne] using hreserved
      · simpa [hne] using hcreated
    · exact Function.update_of_ne hne _ _
  · rw [hresult]
    exact hs thread

theorem clientClose_invariant {s : AcceptState} (hs : AcceptInvariant s)
    (clientId : Int) :
    AcceptInvariant { s with header := (clientClose s.header clientId).1 } := by
  intro thread
  apply acceptAt_of_kept (hs thread)
  intro slot _ hholds
  rcases clientClose_cases s.header clientId with ⟨i, _, hresult⟩ | ⟨_, hresult⟩
  · rw [hresult]
    exact ⟨⟨hholds.left, (markDetach_shmCreated _ _ _).trans hholds.right⟩, rfl⟩
  · rw [hresult]
    exact ⟨hholds, rfl⟩

theorem visit_invariant {s : AcceptState} (hs : AcceptInvariant s)
    (allocated : ShmPair) (hguard : ClearsUnread s (.visit allocated)) :
    AcceptInvariant { s with
      header := visitWith allocated s.header s.cursor
      cursor := nextSlot s.cursor } := by
  intro thread
  apply acceptAt_of_kept (hs thread)
  intro slot hreading hholds
  have hdetach : slot = s.cursor -> (s.header.slots slot).detach = false := by
    intro heq
    subst heq
    cases hmark : (s.header.slots s.cursor).detach with
    | false => rfl
    | true => exact absurd hreading (hguard hmark thread)
  rcases visitWith_serviced allocated s.header hholds.right hdetach with
    ⟨hrow, hreserved⟩
  constructor
  · constructor
    · exact hreserved.trans hholds.left
    · rw [hrow]
      exact hholds.right
  · rfl

theorem acceptNext_invariant {s : AcceptState} (hs : AcceptInvariant s)
    (caller : Nat) : AcceptInvariant (acceptNext s caller) := by
  intro thread
  by_cases hthread : thread = caller
  · subst hthread
    exact acceptNext_own (hs thread)
  · rcases acceptNext_frame s caller with ⟨hreservation, hholds, pc, hpcs⟩
    rw [hpcs, Function.update_of_ne hthread]
    apply acceptAt_of_kept (hs thread)
    intro slot _ hslot
    exact ⟨hholds slot hslot, congrFun hreservation slot⟩

theorem acceptSystemNext_invariant {s : AcceptState} {l : AcceptLabel}
    (hs : AcceptInvariant s) (hguard : ClearsUnread s l) :
    AcceptInvariant (acceptSystemNext s l) := by
  cases l with
  | request clientId messageSize type =>
      exact request_invariant hs clientId messageSize type
  | close clientId => exact clientClose_invariant hs clientId
  | visit allocated => exact visit_invariant hs allocated hguard
  | accept thread => exact acceptNext_invariant hs thread

theorem AcceptInvariant.sound {s : AcceptState} (h : AcceptInvariant s) :
    AcceptSound s := by
  constructor
  · intro thread handle hpc
    have hat := h thread
    rw [hpc] at hat
    exact hat
  · intro thread slot table shms clientId hpc hmissing
    have hat := h thread
    rw [hpc] at hat
    exact (hat.right hmissing).left.left

/--
As long as the manager clears no slot that an unfinished `accept` is still
reading, every handle comes from one reservation, and no call waits for the keys
of a slot that is no longer reserved.
-/
theorem accept_coherent {s : AcceptState}
    (hs : acceptSystem.ReachableUnder ClearsUnread s) : AcceptSound s := by
  have hinv : AcceptInvariant s := by
    refine TransitionSystem.reachableUnder_invariant ?_ ?_ hs
    · intro start hstart thread
      rw [show start = acceptStart from hstart]
      trivial
    · intro t l t' ht hguard hnext
      rw [← Option.some.inj hnext]
      exact acceptSystemNext_invariant ht hguard
  exact hinv.sound

def acceptingLabels : List AcceptLabel :=
  [.request 5 64 .sem, .visit pairOfFive] ++ List.replicate 8 (.accept 0)

theorem accept_coherent_accepting :
    exists s handle, s.acceptors 0 = .idle (some handle) ∧
      handle = ⟨⟨.sem, some 1⟩, ⟨5, some 1⟩, ⟨pairOfFive, some 1⟩, true⟩ ∧
      AcceptSound s := by
  let unmarked : AcceptState -> AcceptLabel -> Bool :=
    fun s _ => !(s.header.slots s.cursor).detach
  have hcheck : forall s l, unmarked s l = true -> ClearsUnread s l := by
    intro s l hunmarked
    cases l with
    | visit allocated =>
        intro hmark
        simp [unmarked, hmark] at hunmarked
    | _ => trivial
  have haccepted : ((acceptSystem.executeChecked unmarked acceptStart
      acceptingLabels).map fun s => s.acceptors 0) =
      some (.idle (some ⟨⟨.sem, some 1⟩, ⟨5, some 1⟩, ⟨pairOfFive, some 1⟩, true⟩)) := by
    decide +kernel
  rcases Option.map_eq_some_iff.mp haccepted with ⟨s, hexec, hs⟩
  exact ⟨s, _, hs, rfl, accept_coherent
    (TransitionSystem.reachableUnder_of_executeChecked hcheck rfl hexec)⟩

/-- The client closes after `accept` has chosen its slot, and the manager clears
the slot before `accept` reads the row. -/
def staleAcceptLabels : List AcceptLabel :=
  [.request 5 64 .poll, .visit pairOfFive, .accept 0, .close 5] ++
    List.replicate 40 (.visit pairOfFive) ++ List.replicate 3 (.accept 0)

theorem accept_waits_on_cleared_slot :
    ¬ forall s : AcceptState, acceptSystem.Reachable s -> AcceptSound s := by
  intro hclaim
  let slot : Slot := ⟨0, by decide⟩
  have hstuck : ((acceptSystem.execute acceptStart staleAcceptLabels).map fun s =>
      (s.acceptors 0, s.header.clientReserved slot)) =
      some (.looping slot ⟨.poll, none⟩ ⟨ShmPair.zero, none⟩ ⟨0, none⟩, false) := by
    decide +kernel
  rcases Option.map_eq_some_iff.mp hstuck with ⟨s, hexec, hs⟩
  injection hs with hpc hreserved
  have hreach : acceptSystem.Reachable s :=
    TransitionSystem.reachableUnder_of_execute rfl hexec (fun _ _ => trivial)
  have hwaits := (hclaim s hreach).waits 0 slot _ _ _ hpc rfl
  rw [hreserved] at hwaits
  cases hwaits

end Rpc
end Notnets
