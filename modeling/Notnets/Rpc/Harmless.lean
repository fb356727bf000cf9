import Notnets.Rpc.Leak
import Notnets.Rpc.Newcomer

/-!
# A request and the other clients

A pass over a table with one more request does for the other clients what a pass
without it does, if and only if the server can make a queue for the messages of
the request.  The allocators look at the size of the messages for the first time
when they make the queues, in the server.
-/

namespace Notnets
namespace Rpc

open Coord
open Foundation
open Os
open Queue

/-!
# Before and after the request is serviced
-/

def undivided (b : Booking) : Parting where
  segments := ⟨0, 0⟩
  semaphores := ⟨0, 0⟩
  segmentKey := HasKey b.keys
  semaphoreKey := b.SetKey

/-- The first system went on from `k` to `k2` alone. -/
def divided (b : Booking) (k k' k2 : Kernel) : Parting where
  segments := ⟨k'.segments.next, k2.segments.next - k.segments.next⟩
  semaphores := ⟨k'.semaphores.next, k2.semaphores.next - k.semaphores.next⟩
  segmentKey := HasKey b.keys
  semaphoreKey := b.SetKey

section Fork

variable {b : Booking} {marks : Marks} {k k' k2 : Kernel} {row row' : CoordRow}
  {slot : Slot} {header header' : CoordHeader}

theorem mapPair_eq {p : Parting} {shms : ShmPair}
    (h : forall shmid, shmid = shms.requestShm.shmid ∨ shmid = shms.responseShm.shmid ->
      p.segments.map shmid = shmid) : mapPair p shms = shms := by
  unfold mapPair
  rw [h _ (Or.inl rfl), h _ (Or.inr rfl)]

theorem alongside_divided (h : Alongside (undivided b) marks k k')
    (hmade : MadeOwn b k k2) : Alongside (divided b k k' k2) marks k2 k' where
  calls := hmade.calls
  calls' := h.calls'
  segments := by
    apply (h.segments.beside hmade.segments).mono
    intro id e' hentry' o hparts
    rcases hparts with ⟨hsize, hqueue, hsemaphores⟩
    refine ⟨hsize, hqueue, ?_⟩
    intro which hstored
    have hlt := h.semids id which e' hstored hentry'
    have hsame := hsemaphores which hstored
    have hnone : (undivided b).semaphores.map (e'.object.semaphores which) =
        e'.object.semaphores which := Shift.map_none 0 _
    have hlow : (divided b k k' k2).semaphores.map (e'.object.semaphores which) =
        e'.object.semaphores which := Shift.map_of_lt hlt
    rw [hsame, hnone, hlow]
  semaphores := h.semaphores.beside hmade.semaphores
  given := h.given
  stored := h.stored
  semids := h.semids

theorem rowAlike_divided (h : RowAlike (undivided b) marks row row')
    (hgiven : forall shmid, marks.given shmid -> shmid < k'.segments.next) :
    RowAlike (divided b k k' k2) marks row row' where
  fields := h.fields
  shms := by
    intro hcreated
    have hnone : mapPair (undivided b) row'.shms = row'.shms :=
      mapPair_eq fun shmid _ => Shift.map_none 0 shmid
    have hlow : mapPair (divided b k k' k2) row'.shms = row'.shms := by
      apply mapPair_eq
      intro shmid hu
      apply Shift.map_of_lt
      apply hgiven
      apply h.given hcreated
      rcases hu with hu | hu
      · exact Or.inl hu.symm
      · exact Or.inr hu.symm
    rw [h.shms hcreated, hnone, hlow]
  given := h.given
  done := h.done

/-- Where nothing was made, nothing has the keys in the one system or the other. -/
theorem unmet_of_undivided (h : Alongside (undivided b) marks k k')
    (hpair : b.keys.1 = b.keys.2 -> b.keys.1 = 0)
    (hown : b.requests.Pairwise fun r r' => r.key = r'.key -> r.key = 0) : Unmet b k where
  calls := h.calls
  pair := hpair
  segments := by
    intro id e hentry hne
    have hrel := h.segments.entries id
    have hmap : (undivided b).segments.map id = id := Shift.map_none 0 id
    rw [hmap, hentry] at hrel
    cases hentry' : k'.segments.entries id with
    | none =>
        rw [hentry'] at hrel
        cases hrel
    | some e' =>
        rw [hentry'] at hrel
        cases hrel with
        | some hsame =>
            rw [hsame.left] at hne ⊢
            exact h.segments.unused id e' hentry' hne
  own := hown
  semaphores := by
    intro r hr hne id e hentry hkey
    have hrel := h.semaphores.entries id
    have hmap : (undivided b).semaphores.map id = id := Shift.map_none 0 id
    rw [hmap, hentry] at hrel
    cases hentry' : k'.semaphores.entries id with
    | none =>
        rw [hentry'] at hrel
        cases hrel
    | some e' =>
        rw [hentry'] at hrel
        cases hrel with
        | some hsame =>
            rw [← hkey, hsame.left] at hne
            apply h.semaphores.unused id e' hentry' hne
            exact ⟨r, hr, by rw [← hsame.left, hkey]⟩

end Fork

/-!
# The visit to the slot of the request
-/

def SameBeside (slot : Slot) (header header' : CoordHeader) : Prop :=
  forall j, j ≠ slot -> header'.slots j = header.slots j ∧
    header'.clientReserved j = header.clientReserved j

def Vacant (header : CoordHeader) (slot : Slot) : Prop :=
  header.clientReserved slot = false ∧ (header.slots slot).shmCreated = false

/-- For all but one slot, the systems are alike, up to what was made for this
connection. -/
def OthersAlike (b : Booking) (slot : Slot) (header header' : CoordHeader)
    (k k' : Kernel) : Prop :=
  exists p, p.segmentKey = HasKey b.keys ∧ p.semaphoreKey = b.SetKey ∧
    VisitAlike p slot header header' k k'

section Slot

variable {b : Booking} {p : Parting} {marks : Marks} {slot : Slot}
  {header header' after after' : CoordHeader} {k k' : Kernel}
  {boost : Int -> Int -> OsM ShmPair}

theorem RowsAlike.beside (h : RowsAlike p marks slot header header')
    (hafter : SameBeside slot header after) (hafter' : SameBeside slot header' after') :
    RowsAlike p marks slot after after' where
  reserved := by
    intro j hj
    rw [(hafter j hj).right, (hafter' j hj).right]
    exact h.reserved j hj
  rows := by
    intro j hj
    rw [(hafter j hj).left, (hafter' j hj).left]
    exact h.rows j hj

theorem sameBeside_of_visit
    (h : Returns (managePoolVisit (poolOps boost) header slot) k after k') :
    SameBeside slot header after := by
  rcases returns_bind.mp h with ⟨result, k1, hservice, hrest⟩
  rcases returns_bind.mp hrest with ⟨u, k2, _, hclear⟩
  rcases serviceSlot_returns hservice with ⟨shms, hresult, _⟩
  have hafter := (clearSlot_returns hclear).left
  rw [hresult, ← visitWith_eq] at hafter
  intro j hj
  rw [hafter]
  exact visitWith_other shms header hj

theorem returns_visit_vacant (boost : Int -> Int -> OsM ShmPair) (k : Kernel)
    (h : Vacant header slot) :
    Returns (managePoolVisit (poolOps boost) header slot) k (cleared header slot) k := by
  refine returns_bind.mpr ⟨(header, -1), k, ?_, returns_bind.mpr ⟨(), k, ?_, ?_⟩⟩
  · unfold serviceSlot
    dsimp only
    rw [h.left]
    exact returns_pure.mpr ⟨rfl, rfl⟩
  · unfold cleanUpQueueResources
    dsimp only
    rw [h.left]
    exact returns_pure.mpr ⟨rfl, rfl⟩
  · unfold clearSlot forceClearSlot cleared
    dsimp only
    rw [h.right]
    split
    · exact returns_pure.mpr ⟨rfl, rfl⟩
    · exact returns_pure.mpr ⟨rfl, rfl⟩

/-- The one system services the newcomer, and the other one has nothing to do. -/
theorem forkAlike (hneeds : NeedsService header slot)
    (htype : (header.slots slot).type ≠ .boost)
    (hcreates : CreatesQueues (header.slots slot)) (hvacant : Vacant header' slot)
    (hunmet : Unmet (.ofRow (header.slots slot)) k)
    (h : VisitAlike (undivided (.ofRow (header.slots slot))) slot header header' k k') :
    RunsLike Anyhow (OthersAlike (.ofRow (header.slots slot)) slot)
      (managePoolVisit (poolOps boost) header slot) k
      (managePoolVisit (poolOps boost) header' slot) k' := by
  rcases exists_visit_newcomer boost hneeds htype hcreates hunmet with
    ⟨after, k2, hvisit, hmade⟩
  have hvisit' := returns_visit_vacant boost k' hvacant
  rcases h with ⟨marks, halong, hrows⟩
  apply runsLike_of_returns hvisit hvisit'
  refine ⟨divided (.ofRow (header.slots slot)) k k' k2, rfl, rfl, marks,
    alongside_divided halong hmade, ?_⟩
  apply RowsAlike.beside _ (sameBeside_of_visit hvisit) (sameBeside_of_visit hvisit')
  exact ⟨hrows.reserved, fun j hj => rowAlike_divided (hrows.rows j hj) halong.given⟩

end Slot

/-!
# The pass
-/

def passUpTo (boost : Int -> Int -> OsM ShmPair) (n : Nat) (header : CoordHeader) :
    OsM CoordHeader :=
  ((List.finRange slotNum).take n).foldlM (managePoolVisit (poolOps boost)) header

theorem passUpTo_all (boost : Int -> Int -> OsM ShmPair) (header : CoordHeader) :
    passUpTo boost slotNum header = managePool (poolOps boost) header := by
  unfold passUpTo managePool
  rw [List.take_of_length_le (by simp)]

structure KeysApart (row other : CoordRow) : Prop where
  segments : forall key, HasKey (rowKeys other) key -> key ≠ 0 ->
    ¬ HasKey (rowKeys row) key
  semaphores : forall r r', r ∈ (Booking.ofRow other).requests ->
    r' ∈ (Booking.ofRow row).requests -> r.key = r'.key -> r.key = 0

/-- No call fails, and the keys of the request meet no others. -/
structure RequestApart (header : CoordHeader) (slot : Slot) (k : Kernel) : Prop where
  unmet : Unmet (.ofRow (header.slots slot)) k
  others : forall j, j ≠ slot -> NeedsService header j ->
    KeysApart (header.slots slot) (header.slots j)

/-- What the other rows refer to was given to them by the system. -/
structure RecordsGiven (header : CoordHeader) (slot : Slot) (k : Kernel) : Prop where
  segments : forall j shmid, j ≠ slot -> (header.slots j).shmCreated = true ->
    Uses (header.slots j) shmid -> shmid < k.segments.next
  semaphores : forall j shmid e which, j ≠ slot -> (header.slots j).shmCreated = true ->
    (header.slots j).type = .sem -> Uses (header.slots j) shmid ->
    k.segments.entries shmid = some e -> e.object.semaphores which < k.semaphores.next

def recordMarks (header : CoordHeader) (slot : Slot) : Marks where
  given := fun shmid => exists j, j ≠ slot ∧ (header.slots j).shmCreated = true ∧
    Uses (header.slots j) shmid
  stored := fun shmid _ => exists j, j ≠ slot ∧ (header.slots j).shmCreated = true ∧
    (header.slots j).type = .sem ∧ Uses (header.slots j) shmid

def Unvisited (done : List Slot) (header header' : CoordHeader) : Prop :=
  forall j, j ∉ done -> header'.slots j = header.slots j ∧
    header'.clientReserved j = header.clientReserved j

section Pass

variable {header header0 header' after : CoordHeader} {slot j : Slot} {k : Kernel}
  {boost : Int -> Int -> OsM ShmPair} {done : List Slot} {p : Parting}

theorem Unvisited.visit (h : Unvisited done header header')
    (hafter : SameBeside j header' after) : Unvisited (done ++ [j]) header after := by
  intro i hi
  rw [List.mem_append, not_or] at hi
  have hne : i ≠ j := fun heq => hi.right (List.mem_singleton.mpr heq)
  rw [(hafter i hne).left, (hafter i hne).right]
  exact h i hi.left

theorem visitAlike_start (hapart : RequestApart header slot k)
    (hgiven : RecordsGiven header slot k) (hsame : SameBeside slot header header0) :
    VisitAlike (undivided (.ofRow (header.slots slot))) slot header header0 k k := by
  have hunmet := hapart.unmet
  refine ⟨recordMarks header slot, ?_, ?_⟩
  · constructor
    · exact hunmet.calls
    · exact hunmet.calls
    · refine IpcTable.renumbered_refl ?_ hunmet.segments
      intro id e _
      refine ⟨rfl, rfl, ?_⟩
      intro which _
      exact (Shift.map_none 0 _).symm
    · refine IpcTable.renumbered_refl (fun _ _ _ => rfl) ?_
      intro id e hentry hne hparts
      rcases hparts with ⟨r, hr, hkey⟩
      rw [← hkey] at hne
      exact hunmet.semaphores r hr hne id e hentry hkey.symm
    · intro shmid hall
      rcases hall with ⟨j, hj, hcreated, hu⟩
      exact hgiven.segments j shmid hj hcreated hu
    · rintro shmid _ ⟨j, hj, hcreated, _, hu⟩
      exact hgiven.segments j shmid hj hcreated hu
    · rintro shmid which e ⟨j, hj, hcreated, hsem, hu⟩ hentry
      exact hgiven.semaphores j shmid e which hj hcreated hsem hu hentry
  · constructor
    · intro j hj
      exact (hsame j hj).right.symm
    · intro j hj
      rw [(hsame j hj).left]
      constructor
      · rfl
      · intro _
        exact (mapPair_eq fun shmid _ => Shift.map_none 0 shmid).symm
      · exact fun hcreated shmid hu => ⟨j, hj, hcreated, hu⟩
      · exact fun hcreated shmid hu hsem _ => ⟨j, hj, hcreated, hsem, hu⟩

theorem keysClear_of_apart {row other : CoordRow} (h : KeysApart row other)
    (hsegments : p.segmentKey = HasKey (Booking.ofRow row).keys)
    (hsemaphores : p.semaphoreKey = (Booking.ofRow row).SetKey) : KeysClear p other where
  segments := by
    rw [hsegments]
    exact h.segments
  semaphores := by
    rw [hsemaphores]
    intro hsem r hr hne hparts
    rcases hparts with ⟨r', hr', hkey⟩
    apply hne
    apply h.semaphores r r' _ hr' hkey.symm
    have hrequests : (Booking.ofRow other).requests = connectionRequests other.clientId :=
      if_pos hsem
    rw [hrequests]
    exact hr

theorem passAlike (hboost : BoostAlike boost) (hneeds : NeedsService header slot)
    (htype : (header.slots slot).type ≠ .boost)
    (hcreates : CreatesQueues (header.slots slot)) (hapart : RequestApart header slot k)
    (hgiven : RecordsGiven header slot k) (hvacant : Vacant header0 slot)
    (hsame : SameBeside slot header header0) (n : Nat) :
    RunsLike Anyhow (OthersAlike (.ofRow (header.slots slot)) slot)
      (passUpTo boost n header) k (passUpTo boost n header0) k := by
  let b := Booking.ofRow (header.slots slot)
  let Inv : List Slot -> CoordHeader -> CoordHeader -> Kernel -> Kernel -> Prop :=
    fun done a c s s' =>
      (exists p, p.segmentKey = HasKey b.keys ∧ p.semaphoreKey = b.SetKey ∧
        (slot ∉ done -> p = undivided b) ∧ VisitAlike p slot a c s s') ∧
      Unvisited done header a ∧ Unvisited done header0 c
  have hnodup : ((List.finRange slotNum).take n).Nodup :=
    (List.nodup_finRange slotNum).sublist (List.take_sublist n _)
  have hpass : RunsLike Anyhow (Inv ((List.finRange slotNum).take n))
      (passUpTo boost n header) k (passUpTo boost n header0) k := by
    apply RunsLike.foldlM Inv
    · rintro done j todo a c s s' hsplit
        ⟨⟨p, hsegments, hsemaphores, hbefore, halike⟩, ha, hc⟩
      have hfirst : j ∉ done := by
        intro hmem
        rw [hsplit] at hnodup
        exact (List.nodup_append.mp hnodup).right.right j hmem j List.mem_cons_self rfl
      have hvisit : RunsLike Anyhow
          (fun a c s s' => exists p, p.segmentKey = HasKey b.keys ∧
            p.semaphoreKey = b.SetKey ∧ (slot ∉ done ++ [j] -> p = undivided b) ∧
            VisitAlike p slot a c s s')
          (managePoolVisit (poolOps boost) a j) s
          (managePoolVisit (poolOps boost) c j) s' := by
        by_cases hj : j = slot
        · subst hj
          have hrow : a.slots j = header.slots j := (ha j hfirst).left
          have hneeds' : NeedsService a j := by
            unfold NeedsService
            rw [(ha j hfirst).right, hrow]
            exact hneeds
          have hvacant' : Vacant c j := by
            unfold Vacant
            rw [(hc j hfirst).left, (hc j hfirst).right]
            exact hvacant
          have hstart := hbefore hfirst
          subst hstart
          have hunmet : Unmet b s := by
            rcases halike with ⟨marks, halong, _⟩
            exact unmet_of_undivided halong hapart.unmet.pair hapart.unmet.own
          have hfork : RunsLike Anyhow (OthersAlike (.ofRow (a.slots j)) j)
              (managePoolVisit (poolOps boost) a j) s
              (managePoolVisit (poolOps boost) c j) s' :=
            forkAlike hneeds' (by rw [hrow]; exact htype) (by rw [hrow]; exact hcreates)
              hvacant' (by rw [hrow]; exact hunmet) (by rw [hrow]; exact halike)
          rw [hrow] at hfork
          apply hfork.mono
          intro a' c' t t' hparts
          rcases hparts with ⟨p', hsegments', hsemaphores', halike'⟩
          refine ⟨p', hsegments', hsemaphores', ?_, halike'⟩
          intro hmem
          exact absurd (List.mem_append_right done (List.mem_singleton.mpr rfl)) hmem
        · have hclear : NeedsService c j -> KeysClear p (c.slots j) := by
            intro hpending
            unfold NeedsService at hpending
            rw [(hc j hfirst).left, (hc j hfirst).right, (hsame j hj).left,
              (hsame j hj).right] at hpending
            rw [(hc j hfirst).left, (hsame j hj).left]
            exact keysClear_of_apart (hapart.others j hj hpending) hsegments hsemaphores
          apply (visitAlike hboost hj hclear halike).mono
          intro a' c' t t' halike'
          refine ⟨p, hsegments, hsemaphores, ?_, halike'⟩
          intro hmem
          apply hbefore
          exact fun hdone => hmem (List.mem_append_left _ hdone)
      apply hvisit.with_returns.mono
      intro a' c' t t' hall
      rcases hall with ⟨halike', hreturns, hreturns'⟩
      exact ⟨halike', ha.visit (sameBeside_of_visit hreturns),
        hc.visit (sameBeside_of_visit hreturns')⟩
    · exact ⟨⟨undivided b, rfl, rfl, fun _ => rfl, visitAlike_start hapart hgiven hsame⟩,
        fun _ _ => ⟨rfl, rfl⟩, fun _ _ => ⟨rfl, rfl⟩⟩
  apply hpass.mono
  rintro a c t t' ⟨⟨p, hsegments, hsemaphores, _, halike⟩, _⟩
  exact ⟨p, hsegments, hsemaphores, halike⟩

theorem Holdings.recordsGiven {coordKey coordShmid : Int} {s : Journal}
    (h : Holdings coordKey coordShmid (bookings header) s) :
    RecordsGiven header slot s.kernel where
  segments := by
    intro j shmid _ hcreated hu
    have hbook := bookings_eq_some.mpr ⟨hcreated, rfl⟩
    have hheld : shmid ∈ heldSegments (bookings header j) := by
      rw [hbook]
      rcases hu with hu | hu
      · exact mem_heldSegments.mpr (Or.inl hu.symm)
      · exact mem_heldSegments.mpr (Or.inr hu.symm)
    exact h.lt_next hheld
  semaphores := by
    intro j shmid e which _ hcreated hsem hu hentry
    have hbook := bookings_eq_some.mpr ⟨hcreated, rfl⟩
    rcases (h.stands j _ hbook).request with ⟨e1, hentry1, _⟩
    rcases (h.stands j _ hbook).response with ⟨e2, hentry2, _⟩
    have hheld : e.object.semaphores which ∈
        heldSemaphores s.kernel.segments (bookings header j) := by
      rw [hbook, heldSemaphores_of_has hsem ⟨e1, hentry1, rfl⟩ ⟨e2, hentry2, rfl⟩]
      have hwhich : e = e1 ∨ e = e2 := by
        rcases hu with hu | hu
        · left
          rw [← hu] at hentry
          exact Option.some.inj (hentry.symm.trans hentry1)
        · right
          rw [← hu] at hentry
          exact Option.some.inj (hentry.symm.trans hentry2)
      unfold allSemaphores
      rcases hwhich with rfl | rfl
      · cases which with
        | lock => simp
        | full => simp
        | empty => simp
      · cases which with
        | lock => simp
        | full => simp
        | empty => simp
    rcases h.sets j _ hheld with ⟨_, _, set, _, _, hset, _⟩
    exact (IpcTable.lt_next hset).right

end Pass

/-!
# Which requests are harmless
-/

theorem requestSlot_pending {header header' : CoordHeader} {slot : Slot}
    {clientId messageSize : Int} {type : QueueType}
    (h : requestSlot header clientId messageSize type = (header', some slot)) :
    NeedsService header' slot ∧ header.clientReserved slot = false ∧
      SameBeside slot header' header ∧
      (header'.slots slot).clientId = clientId ∧
      (header'.slots slot).messageSize = messageSize ∧
      (header'.slots slot).type = type := by
  rcases requestSlot_cases header clientId messageSize type with
    ⟨i, hfree, hrequest⟩ | ⟨_, hrequest⟩
  · rw [hrequest] at h
    injection h with hheader hslot
    injection hslot with hslot
    subst hslot hheader
    unfold NeedsService
    rw [CoordHeader.setReserved_clientReserved_self, CoordHeader.setReserved_slots,
      CoordHeader.setRow_slots_self]
    refine ⟨⟨rfl, rfl⟩, (freeSlot_eq_some_iff.mp hfree).left, ?_, rfl, rfl, rfl⟩
    intro j hj
    rw [CoordHeader.setReserved_slots, CoordHeader.setRow_slots_of_ne _ _ _ hj,
      CoordHeader.setReserved_clientReserved_of_ne _ _ _ hj,
      CoordHeader.setRow_clientReserved]
    exact ⟨rfl, rfl⟩
  · rw [hrequest] at h
    cases h

/-- The server gets over the request, and the other clients do not notice it. -/
structure RequestHarmless (boost : Int -> Int -> OsM ShmPair) (header : CoordHeader)
    (slot : Slot) (k : Kernel) : Prop where
  returns : exists header' k', Returns (managePoolVisit (poolOps boost) header slot) k
    header' k'
  others : forall header0, Vacant header0 slot -> SameBeside slot header header0 ->
    forall n, RunsLike Anyhow (OthersAlike (.ofRow (header.slots slot)) slot)
      (passUpTo boost n header) k (passUpTo boost n header0) k

/-- The message sizes that pass the guard of `queue_create`, zero apart. -/
def PassesGuard (row : CoordRow) : Prop :=
  (0 < row.messageSize ∧ row.messageSize + headerSizeOf row.type ≤ queueRegionSize) ∨
    (-headerSizeOf row.type ≤ row.messageSize ∧ row.messageSize < 0)

section Harmless

variable {boost : Int -> Int -> OsM ShmPair} {header : CoordHeader} {slot : Slot}
  {k : Kernel}

theorem createsQueues_iff {row : CoordRow} (hlow : -2 ^ 31 ≤ row.messageSize)
    (hhigh : row.messageSize < 2 ^ 31) : CreatesQueues row <-> PassesGuard row := by
  have hregion : queueRegionSize < 2 ^ 31 := by decide
  have hheader : headerSizeOf row.type ≤ queueRegionSize := by
    unfold headerSizeOf
    split
    · decide
    · decide
  exact exists_createHeader_iff hlow hhigh hheader hregion

theorem created_of_hash {messageSize clientId : Int} {shms : ShmPair} {k' : Kernel}
    (h : Returns (hashShmAllocator messageSize clientId) k shms k') :
    exists result, queueCreate queueRegionSize (toSizeT messageSize) = .ok result := by
  rcases returns_bind.mp h with ⟨request, k1, _, h⟩
  rcases returns_bind.mp h with ⟨response, k2, _, h⟩
  rcases returns_bind.mp h with ⟨requestAddr, k3, _, h⟩
  rcases returns_bind.mp h with ⟨responseAddr, k4, _, h⟩
  rcases returns_bind.mp h with ⟨ret, k5, hcreate, _⟩
  unfold queueCreateAt at hcreate
  split at hcreate
  · exact absurd hcreate not_returns_throw
  · rename_i header usable hadmitted
    exact ⟨_, hadmitted⟩

theorem created_of_run {type : QueueType} {messageSize clientId : Int} {shms : ShmPair}
    {k' : Kernel} (htype : type ≠ .boost)
    (h : Returns ((poolOps boost).run (allocatorOf type) messageSize clientId) k shms
      k') :
    exists result, createHeader (headerSizeOf type) queueRegionSize
      (toSizeT messageSize) = .ok result := by
  cases type with
  | poll => exact created_of_hash h
  | boost => exact absurd rfl htype
  | sem => exact (semAllocated_of_returns h).admitted
  | other => exact created_of_hash h

theorem createsQueues_of_visit (hneeds : NeedsService header slot)
    (htype : (header.slots slot).type ≠ .boost) {header' : CoordHeader} {k' : Kernel}
    (h : Returns (managePoolVisit (poolOps boost) header slot) k header' k') :
    CreatesQueues (header.slots slot) := by
  rcases returns_bind.mp h with ⟨result, k1, hservice, _⟩
  rcases serviceSlot_returns hservice with ⟨shms, _, halloc, _⟩
  exact created_of_run htype (halloc hneeds)

theorem harmless_iff_createsQueues (hboost : BoostAlike boost)
    (hneeds : NeedsService header slot) (htype : (header.slots slot).type ≠ .boost)
    (hapart : RequestApart header slot k) (hgiven : RecordsGiven header slot k) :
    RequestHarmless boost header slot k <-> CreatesQueues (header.slots slot) := by
  constructor
  · intro hparts
    rcases hparts with ⟨⟨header', k', hvisit⟩, _⟩
    exact createsQueues_of_visit hneeds htype hvisit
  · intro hcreates
    constructor
    · rcases exists_visit_newcomer boost hneeds htype hcreates hapart.unmet with
        ⟨header', k', hvisit, _⟩
      exact ⟨header', k', hvisit⟩
    · exact fun header0 hvacant hsame n =>
        passAlike hboost hneeds htype hcreates hapart hgiven hvacant hsame n

/--
A request of a POLL or SEM client, or of one with an unknown type, is harmless if
and only if its message size is not zero and passes the guard of `queue_create`.
The sizes that pass it are the positive ones that fit into the region with the
header, and the negative ones that wrap around when the header is added.
-/
theorem request_harmless_iff (hboost : BoostAlike boost)
    (hneeds : NeedsService header slot) (htype : (header.slots slot).type ≠ .boost)
    (hlow : -2 ^ 31 ≤ (header.slots slot).messageSize)
    (hhigh : (header.slots slot).messageSize < 2 ^ 31)
    (hapart : RequestApart header slot k) (hgiven : RecordsGiven header slot k) :
    RequestHarmless boost header slot k <-> PassesGuard (header.slots slot) := by
  rw [← createsQueues_iff hlow hhigh]
  exact harmless_iff_createsQueues hboost hneeds htype hapart hgiven

end Harmless

/-!
# Requests in the states that the server reaches
-/

section Reached

variable {boost : Int -> Int -> OsM ShmPair} {coordKey clientId messageSize : Int}
  {type : QueueType} {s : LedgerState} {header' : CoordHeader} {slot : Slot}

theorem RecordsGiven.beside {header : CoordHeader} {k : Kernel}
    (h : RecordsGiven header slot k) (hsame : SameBeside slot header header') :
    RecordsGiven header' slot k where
  segments := by
    intro j shmid hj hcreated hu
    rw [(hsame j hj).left] at hcreated hu
    exact h.segments j shmid hj hcreated hu
  semaphores := by
    intro j shmid e which hj hcreated hsem hu hentry
    rw [(hsame j hj).left] at hcreated hsem hu
    exact h.semaphores j shmid e which hj hcreated hsem hu hentry

/-- The keys of a request that meet no reserved row meet nothing in the system. -/
theorem Kept.requestApart (h : Kept coordKey s)
    (hrequest : requestSlot s.header clientId messageSize type = (header', some slot))
    (hbooks : BooksApart coordKey (reservations header')) :
    RequestApart header' slot s.journal.kernel := by
  rcases requestSlot_pending hrequest with ⟨hneeds, hunreserved, hsame, _⟩
  have hslot : reservations header' slot = some (.ofRow (header'.slots slot)) :=
    reservations_of_reserved hneeds.left
  have hcreated : (s.header.slots slot).shmCreated = false := by
    by_contra hcreated
    rw [h.enrolled.reserved slot (by simpa using hcreated)] at hunreserved
    cases hunreserved
  constructor
  · apply h.holdings.unmet (bookings_of_not_created hcreated)
    apply hbooks.mono
    intro i b hbook
    by_cases hi : i = slot
    · subst hi
      rw [Function.update_self] at hbook
      exact ⟨b, hslot.trans hbook, rfl, rfl⟩
    · rw [Function.update_of_ne hi] at hbook
      rcases bookings_eq_some.mp hbook with ⟨hserviced, rfl⟩
      have hreserved : header'.clientReserved i = true := by
        rw [← (hsame i hi).right]
        exact h.enrolled.reserved i hserviced
      refine ⟨_, reservations_of_reserved hreserved, ?_, ?_⟩
      · rw [← (hsame i hi).left]
      · rw [← (hsame i hi).left]
  · intro j hj hpending
    have hother : reservations header' j = some (.ofRow (header'.slots j)) :=
      reservations_of_reserved hpending.left
    constructor
    · intro key hkey hne hown
      exact hj (hbooks.segments j slot _ _ key hother hslot hne hkey hown)
    · intro r r' hr hr' hclash
      by_contra hne
      exact hj (hbooks.semaphores j slot _ _ r r' hother hslot hr hr' hclash hne)

/-- In every state that the server reaches, a request whose keys meet no reserved row
is harmless if and only if its message size passes the guard. -/
theorem request_harmless_reached (hboost : BoostAlike boost)
    (hs : (ledgerSystem boost coordKey).ReachableUnder (Admissible coordKey) s)
    (hrequest : requestSlot s.header clientId messageSize type = (header', some slot))
    (htype : type ≠ .boost) (hlow : -2 ^ 31 ≤ messageSize) (hhigh : messageSize < 2 ^ 31)
    (hbooks : BooksApart coordKey (reservations header')) :
    RequestHarmless boost header' slot s.journal.kernel <->
      PassesGuard (header'.slots slot) := by
  have hkept := kept_of_reachable hs
  rcases requestSlot_pending hrequest with ⟨hneeds, _, hsame, _, hsize, htype'⟩
  rw [← createsQueues_iff (by rw [hsize]; exact hlow) (by rw [hsize]; exact hhigh)]
  apply harmless_iff_createsQueues hboost hneeds
  · rw [htype']
    exact htype
  · exact hkept.requestApart hrequest hbooks
  · exact hkept.holdings.recordsGiven.beside fun j hj =>
      ⟨((hsame j hj).left).symm, ((hsame j hj).right).symm⟩

end Reached

/-!
# Two clients
-/

/-- Two SEM clients have come; the first one asked for messages of this size. -/
def twoRequested (messageSize : Int) : CoordHeader :=
  (requestSlot (requestSlot CoordHeader.zero 1000 messageSize .sem).1 90000 64 .sem).1

theorem boostAlike_openOrCreate : BoostAlike boostOpenOrCreate := by
  intro messageSize clientId p marks k k' hkeys h
  have hcreate : forall key, CreatesAlike p (fun _ _ => True)
      (fun address _ => do writeSegment address id; pure 0) key := by
    intro key marks k k' address h _
    apply (writeAlike h (fun _ _ hsize hqueue => ⟨hsize, hqueue⟩) (fun _ => rfl)
      address).bind
    intro _ _ t t' hboth
    rcases hboth with ⟨hsome, hafter⟩
    rcases Option.ne_none_iff_exists'.mp hsome with ⟨shmid, heq⟩
    exact runsLike_pure ⟨shmid, marks, heq, Marks.below_refl marks, trivial, hafter⟩
  exact keyedAlike (hkeys _ (Or.inl rfl)) (hkeys _ (Or.inr rfl)) (hcreate _) (hcreate _)
    (fun _ _ _ _ _ => trivial) h

theorem keysApart_of_requests {row other : CoordRow}
    (hsegments : forall key, key ∈ [(rowKeys other).1, (rowKeys other).2] ->
      key ≠ (rowKeys row).1 ∧ key ≠ (rowKeys row).2)
    (hsemaphores : forall r, r ∈ (Booking.ofRow other).requests ->
      forall r', r' ∈ (Booking.ofRow row).requests -> r.key = r'.key -> r.key = 0) :
    KeysApart row other where
  segments := by
    intro key hkey _ hown
    have hmem : key ∈ [(rowKeys other).1, (rowKeys other).2] := by
      rcases hkey with hkey | hkey
      · simp [hkey]
      · simp [hkey]
    rcases hown with hown | hown
    · exact (hsegments key hmem).left hown.symm
    · exact (hsegments key hmem).right hown.symm
  semaphores := fun r r' hr hr' => hsemaphores r hr r' hr'

theorem twoRequested_eq (messageSize : Int) :
    twoRequested messageSize =
      (((CoordHeader.zero.setRow firstSlot
        (requestRow CoordRow.zero 1000 messageSize .sem)).setReserved firstSlot
          true).setRow secondSlot (requestRow CoordRow.zero 90000 64 .sem)).setReserved
            secondSlot true := by
  let first := (CoordHeader.zero.setRow firstSlot
    (requestRow CoordRow.zero 1000 messageSize .sem)).setReserved firstSlot true
  have hfirst : freeSlot CoordHeader.zero = some firstSlot := by decide
  have hsecond : freeSlot first = some secondSlot := by
    refine freeSlot_eq_some_iff.mpr ⟨rfl, ?_⟩
    intro j hj
    have hj : j = firstSlot := Fin.ext (Nat.lt_one_iff.mp hj)
    rw [hj]
    exact CoordHeader.setReserved_clientReserved_self _ _ _
  have hrequest : (requestSlot CoordHeader.zero 1000 messageSize .sem).1 = first := by
    unfold requestSlot
    rw [hfirst]
    rfl
  unfold twoRequested
  rw [hrequest]
  unfold requestSlot
  rw [hsecond]
  rfl

theorem twoRequested_pending (messageSize : Int) :
    NeedsService (twoRequested messageSize) firstSlot ∧
      (twoRequested messageSize).slots firstSlot =
        requestRow CoordRow.zero 1000 messageSize .sem := by
  have hne : firstSlot ≠ secondSlot := by decide
  rw [twoRequested_eq]
  unfold NeedsService
  rw [CoordHeader.setReserved_clientReserved_of_ne _ _ _ hne,
    CoordHeader.setReserved_slots, CoordHeader.setRow_slots_of_ne _ _ _ hne,
    CoordHeader.setReserved_slots, CoordHeader.setRow_slots_self]
  exact ⟨⟨rfl, rfl⟩, rfl⟩

theorem twoRequested_others (messageSize : Int) {j : Slot} (hj : j ≠ firstSlot) :
    ((twoRequested messageSize).slots j).shmCreated = false ∧
      (NeedsService (twoRequested messageSize) j ->
        (twoRequested messageSize).slots j = requestRow CoordRow.zero 90000 64 .sem) := by
  rw [twoRequested_eq]
  unfold NeedsService
  by_cases hsecond : j = secondSlot
  · rw [hsecond, CoordHeader.setReserved_slots, CoordHeader.setRow_slots_self]
    exact ⟨rfl, fun _ => rfl⟩
  · rw [CoordHeader.setReserved_clientReserved_of_ne _ _ _ hsecond,
      CoordHeader.setReserved_slots, CoordHeader.setRow_slots_of_ne _ _ _ hsecond,
      CoordHeader.setReserved_slots, CoordHeader.setRow_slots_of_ne _ _ _ hj,
      CoordHeader.setRow_clientReserved,
      CoordHeader.setReserved_clientReserved_of_ne _ _ _ hj]
    refine ⟨rfl, ?_⟩
    intro hboth
    rcases hboth with ⟨hreserved, _⟩
    cases hreserved

theorem twoRequested_apart (messageSize : Int) :
    RequestApart (twoRequested messageSize) firstSlot emptyKernel := by
  constructor
  · rw [(twoRequested_pending messageSize).right]
    constructor
    · rfl
    · show (1000 : Int).tdiv 2 = (1000 : Int).tdiv 3 -> (1000 : Int).tdiv 2 = 0
      decide
    · intro shmid e hentry
      cases hentry
    · show (connectionRequests 1000).Pairwise fun r r' => r.key = r'.key -> r.key = 0
      decide
    · intro r _ _ semid e hentry
      cases hentry
  · intro j hj hneeds
    rw [(twoRequested_pending messageSize).right,
      (twoRequested_others messageSize hj).right hneeds]
    apply keysApart_of_requests
    · show forall key, key ∈ [(90000 : Int).tdiv 2, (90000 : Int).tdiv 3] ->
        key ≠ (1000 : Int).tdiv 2 ∧ key ≠ (1000 : Int).tdiv 3
      decide
    · show forall r, r ∈ connectionRequests 90000 ->
        forall r', r' ∈ connectionRequests 1000 -> r.key = r'.key -> r.key = 0
      decide

theorem twoRequested_given (messageSize : Int) :
    RecordsGiven (twoRequested messageSize) firstSlot emptyKernel where
  segments := by
    intro j shmid hj hcreated
    rw [(twoRequested_others messageSize hj).left] at hcreated
    cases hcreated
  semaphores := by
    intro j shmid e which hj hcreated
    rw [(twoRequested_others messageSize hj).left] at hcreated
    cases hcreated

theorem request_harmless_sem :
    RequestHarmless boostOpenOrCreate (twoRequested 64) firstSlot emptyKernel := by
  rcases twoRequested_pending 64 with ⟨hneeds, hrow⟩
  refine (request_harmless_iff boostAlike_openOrCreate hneeds ?_ ?_ ?_
    (twoRequested_apart 64) (twoRequested_given 64)).mpr ?_
  · rw [hrow]
    decide
  · rw [hrow]
    decide
  · rw [hrow]
    decide
  · rw [hrow]
    exact Or.inl (by decide)

/-- The messages of one client have no bytes, and the server divides by zero. -/
theorem request_divides_by_zero :
    ¬ forall (boost : Int -> Int -> OsM ShmPair) (header : CoordHeader) (slot : Slot)
      (k : Kernel), BoostAlike boost -> NeedsService header slot ->
      (header.slots slot).type ≠ .boost -> -2 ^ 31 ≤ (header.slots slot).messageSize ->
      (header.slots slot).messageSize < 2 ^ 31 -> RequestApart header slot k ->
      RecordsGiven header slot k -> RequestHarmless boost header slot k := by
  intro hclaim
  rcases twoRequested_pending 0 with ⟨hneeds, hrow⟩
  have hharmless := hclaim boostOpenOrCreate (twoRequested 0) firstSlot emptyKernel
    boostAlike_openOrCreate hneeds (by rw [hrow]; decide) (by rw [hrow]; decide)
    (by rw [hrow]; decide) (twoRequested_apart 0) (twoRequested_given 0)
  rcases hharmless.returns with ⟨header', k', hvisit⟩
  have hcreates := createsQueues_of_visit hneeds (by rw [hrow]; decide) hvisit
  rw [hrow] at hcreates
  rcases hcreates with ⟨result, hcreated⟩
  have hhalts : createHeader (headerSizeOf .sem) queueRegionSize (toSizeT 0) =
      .error .divideByZero := rfl
  have hcreated : createHeader (headerSizeOf .sem) queueRegionSize (toSizeT 0) =
      .ok result := hcreated
  rw [hhalts] at hcreated
  cases hcreated

end Rpc
end Notnets
