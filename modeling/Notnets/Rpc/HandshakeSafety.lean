import Notnets.Rpc.HandshakeInvariant

/-!
# Safety of the reservation handshake

From the invariant: a reservation is exclusive until its client closes it, the
allocator runs at most once for it, and `check_slot` returns what that run made.
-/

namespace Notnets
namespace Rpc

open Coord
open Foundation

def RequestPc.given : RequestPc -> Option Slot
  | .unlocking result => result
  | .holding slot _ => some slot
  | .copying slot _ _ => some slot
  | _ => none

structure HandshakeSound (s : HandshakeState) : Prop where
  /-- The row stays as the client wrote it. -/
  kept : forall i reservation, s.held i = some reservation ->
    s.header.clientReserved i = true ∧
      (s.header.slots i).clientId = reservation.clientId ∧
      (s.header.slots i).messageSize = reservation.messageSize ∧
      (s.header.slots i).type = reservation.type
  /-- No other client is given the slot, or is on its way to it. -/
  exclusive : forall i reservation c, s.held i = some reservation ->
    (s.clients c).given = some i -> c = reservation.clientId
  unwritten : forall i reservation c messageSize type todo,
    s.held i = some reservation ->
    s.clients c ≠ .writing i messageSize type todo
  once : forall i reservation, s.held i = some reservation ->
    reservation.allocations.length ≤ 1
  /-- A client that was given a slot holds it until it closes. -/
  owned : forall i c, (s.clients c).given = some i ->
    exists reservation, s.held i = some reservation ∧ reservation.clientId = c
  checked : forall i c shms, s.clients c = .holding i (some shms) ->
    exists reservation, s.held i = some reservation ∧
      reservation.clientId = c ∧ AllocatedOnce reservation shms

/-- The reservation goes on, possibly with one more run of the allocator. -/
def Continues (reservation later : Reservation) : Prop :=
  later.clientId = reservation.clientId ∧
    later.messageSize = reservation.messageSize ∧
    later.type = reservation.type ∧
    reservation.allocations <+: later.allocations

theorem continues_refl (reservation : Reservation) :
    Continues reservation reservation :=
  ⟨rfl, rfl, rfl, List.prefix_refl _⟩

theorem reservedBy_of_given {s : HandshakeState} (hinv : HandshakeInvariant s)
    {c : Int} {i : Slot} (hgiven : (s.clients c).given = some i) :
    ReservedBy s.held c i := by
  have hknows := hinv.client c
  cases hpc : s.clients c with
  | unlocking result =>
      rw [hpc] at hgiven hknows
      have hresult : result = some i := hgiven
      subst hresult
      exact hknows.right
  | holding slot checked =>
      rw [hpc] at hgiven hknows
      have hslot : slot = i := Option.some.inj hgiven
      subst hslot
      cases checked with
      | none => exact hknows
      | some shms => exact hknows.left
  | copying slot copy todo =>
      rw [hpc] at hgiven hknows
      have hslot : slot = i := Option.some.inj hgiven
      subst hslot
      exact hknows.left
  | _ =>
      rw [hpc] at hgiven
      cases hgiven

theorem handshakeSound_of_invariant {s : HandshakeState}
    (hinv : HandshakeInvariant s) : HandshakeSound s := by
  constructor
  · intro i reservation hheld
    have hkept := hinv.held i reservation hheld
    exact ⟨hkept.reserved, hkept.clientId, hkept.messageSize, hkept.type⟩
  · intro i reservation c hheld hgiven
    rcases reservedBy_of_given hinv hgiven with ⟨own, hown, howner⟩
    rw [hheld] at hown
    injection hown with hown
    rw [hown]
    exact howner.symm
  · intro i reservation c messageSize type todo hheld hwrites
    have hknows := hinv.client c
    rw [hwrites] at hknows
    exact held_ne_free hinv hknows.right.left hheld rfl
  · intro i reservation hheld
    have hkept := hinv.held i reservation hheld
    cases hcreated : (s.header.slots i).shmCreated with
    | true =>
        rcases hkept.serviced hcreated with ⟨allocation, hone, _⟩
        simp [hone]
    | false =>
        by_cases hstoring : s.cursor = i ∧ s.manager.isStoring = true
        · rcases hstoring with ⟨hcursor, hpc⟩
          have hknows := hinv.manager
          rw [hcursor] at hknows
          cases hmanager : s.manager with
          | storing shms todo =>
              rw [hmanager] at hknows
              rcases hknows.right.right.right reservation hheld with
                ⟨allocation, hone, _⟩
              simp [hone]
          | _ =>
              rw [hmanager] at hpc
              cases hpc
        · simp [hkept.unserviced hcreated hstoring]
  · intro i c hgiven
    exact reservedBy_of_given hinv hgiven
  · intro i c shms hpc
    have hknows := hinv.client c
    rw [hpc] at hknows
    rcases hknows with ⟨⟨reservation, hheld, howner⟩, hcreated, hshms⟩
    refine ⟨reservation, hheld, howner, ?_⟩
    rw [← hshms]
    exact (hinv.held i reservation hheld).serviced hcreated

/-!
# Reservations from step to step
-/

theorem requestMove_continues {s s' : HandshakeState} {clientId : Int}
    (hinv : HandshakeInvariant s) (hmove : RequestMove s clientId s')
    {i : Slot} {reservation : Reservation} (hheld : s.held i = some reservation) :
    s'.held i = some reservation := by
  cases hmove with
  | reserve hpc =>
      have hknows := hinv.client clientId
      rw [hpc] at hknows
      have hne := held_ne_free hinv hknows.right.left hheld
      exact (Function.update_of_ne hne _ _).trans hheld
  | _ => exact hheld

theorem serviceStep_continues (s : HandshakeState) (allocated : ShmPair)
    {i : Slot} {reservation : Reservation} (hheld : s.held i = some reservation) :
    exists later, (serviceStep s allocated).held i = some later ∧
      Continues reservation later := by
  have hsame : exists later, s.held i = some later ∧ Continues reservation later :=
    ⟨reservation, hheld, continues_refl reservation⟩
  unfold serviceStep
  cases hpc : s.manager with
  | allocating allocator messageSize clientId =>
      by_cases hcursor : i = s.cursor
      · subst hcursor
        refine ⟨{ reservation with allocations := reservation.allocations ++
          [⟨allocator, messageSize, clientId, allocated⟩] }, ?_, rfl, rfl, rfl, ?_⟩
        · show logAllocation s.held s.cursor _ s.cursor = _
          unfold logAllocation
          rw [Function.update_self, hheld]
          rfl
        · exact List.prefix_append _ _
      · refine ⟨reservation, ?_, continues_refl reservation⟩
        exact (Function.update_of_ne hcursor _ _).trans hheld
  | storing shms todo =>
      cases todo with
      | nil => exact hsame
      | cons field todo => exact hsame
  | zeroing todo =>
      cases todo with
      | nil => exact hsame
      | cons field todo => exact hsame
  | testingReserved allocator | testingCreated allocator | testingDetach
  | testingServiced =>
      dsimp only
      split
      · exact hsame
      · exact hsame
  | _ => exact hsame

theorem closeStep_continues {s : HandshakeState} {clientId : Int} {i : Slot}
    {reservation : Reservation} (hheld : s.held i = some reservation)
    (hne : clientId ≠ reservation.clientId) :
    (closeStep s clientId).held i = some reservation := by
  unfold closeStep
  cases matchingRow s.header clientId with
  | none => exact hheld
  | some slot =>
      show closeHeld s.held slot clientId i = some reservation
      unfold closeHeld
      by_cases hslot : i = slot
      · subst hslot
        rw [Function.update_self, hheld]
        simp [Ne.symm hne]
      · rw [Function.update_of_ne hslot]
        exact hheld

/-- A reservation ends with a close of its client, and with nothing else. -/
theorem handshakeNext_continues {s s' : HandshakeState} {l : HandshakeLabel}
    (hinv : HandshakeInvariant s) (hnext : handshakeNext s l = some s')
    {i : Slot} {reservation : Reservation} (hheld : s.held i = some reservation)
    (hopen : l ≠ .close reservation.clientId) :
    exists later, s'.held i = some later ∧ Continues reservation later := by
  have hsame : exists later, s.held i = some later ∧ Continues reservation later :=
    ⟨reservation, hheld, continues_refl reservation⟩
  cases handshakeMove_of_next hnext with
  | request _ => exact hsame
  | client hmove =>
      exact ⟨reservation, requestMove_continues hinv hmove hheld,
        continues_refl reservation⟩
  | check _ _ => exact hsame
  | recheck => exact hsame
  | @close clientId _ _ =>
      have hne : clientId ≠ reservation.clientId := by
        intro heq
        exact hopen (by rw [heq])
      have hclose := closeStep_continues hheld hne
      exact ⟨reservation, hclose, continues_refl reservation⟩
  | manager => exact serviceStep_continues s _ hheld

/-- The client with id 5 reserves the first slot, the manager services it, and
the client checks it. -/
def handshakeLabels : List HandshakeLabel :=
  [.request 5 64 .poll] ++ List.replicate 11 (.client 5) ++
  List.replicate 14 (.manager pairOfFive) ++
  [.check 5] ++ List.replicate 6 (.client 5)

end Rpc
end Notnets
