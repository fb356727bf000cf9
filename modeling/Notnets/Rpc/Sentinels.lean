import Notnets.Coord.Hash
import Notnets.Rpc.Accept
import Notnets.Rpc.Visit

/-!
# Keys and sentinels

The protocol gives two numbers a meaning of their own: a key that is zero says
that the queues of a slot are not ready, and `service_slot` returns -1 when it
had nothing to do.  The keys and the result are made from a client id, which is
a hash, and may be any `int`.
-/

namespace Notnets
namespace Rpc

open Coord
open Foundation
open Os

/-- The keys of an allocator before they are stored in an `int`. -/
def exactKeys : Allocator -> Int -> Int × Int
  | .hash, clientId => (clientId, clientId + 1)
  | .boost, clientId => (clientId, clientId + 1)
  | .sem, clientId => (clientId.tdiv 2, clientId.tdiv 3)

/-- The keys of this client do not overflow and differ, and neither they nor the
result of `service_slot` are taken for a sentinel. -/
structure KeysSound (allocator : Allocator) (allocation : Int -> Int -> OsM ShmPair)
    (clientId : Int) : Prop where
  requestFits : InInt32 (exactKeys allocator clientId).1
  responseFits : InInt32 (exactKeys allocator clientId).2
  differ : (derivedKeys allocator clientId).1 ≠ (derivedKeys allocator clientId).2
  request : (derivedKeys allocator clientId).1 ≠ 0
  response : (derivedKeys allocator clientId).2 ≠ 0
  ready : forall header slot k result k',
    (header.slots slot).clientId = clientId -> NeedsService header slot ->
      Returns (serviceSlot header slot allocation) k result k' ->
        keysMissing (checkSlot result.1 slot) = false
  idle : forall header slot k result k',
    (header.slots slot).clientId = clientId ->
      Returns (serviceSlot header slot allocation) k result k' ->
        (result.2 = -1 <-> ¬ NeedsService header slot)

/-!
# What service_slot returns
-/

section Returns

variable {header : CoordHeader} {slot : Slot} {k k' : Kernel}
  {allocation : Int -> Int -> OsM ShmPair} {result : CoordHeader × Int}

/-- `service_slot` returns the client id when it runs the allocator, and -1 when
it does not. -/
theorem serviceSlot_result
    (h : Returns (serviceSlot header slot allocation) k result k') :
    (NeedsService header slot -> result.2 = (header.slots slot).clientId) ∧
      (¬ NeedsService header slot -> result.2 = -1) := by
  unfold serviceSlot at h
  dsimp only at h
  split at h
  · rename_i hneeds
    rcases returns_bind.mp h with ⟨shms, k1, hallocation, hpure⟩
    refine ⟨?_, ?_⟩
    · intro _
      rw [(returns_pure.mp hpure).left]
    · intro hnot
      exact absurd (by simpa [NeedsService] using hneeds) hnot
  · rename_i hneeds
    refine ⟨?_, ?_⟩
    · intro hyes
      exact absurd (by simpa [NeedsService] using hyes) hneeds
    · intro _
      rw [(returns_pure.mp h).left]

theorem serviceSlot_idle_iff
    (h : Returns (serviceSlot header slot allocation) k result k')
    (hid : (header.slots slot).clientId ≠ -1) :
    result.2 = -1 <-> ¬ NeedsService header slot := by
  rcases serviceSlot_result h with ⟨hserved, hidle⟩
  constructor
  · intro hminus hneeds
    exact hid ((hserved hneeds).symm.trans hminus)
  · exact hidle

theorem serviceSlot_keys {allocator : Allocator}
    (hkeys : forall messageSize clientId k shms k',
      Returns (allocation messageSize clientId) k shms k' ->
        AllocatedByKeys (derivedKeys allocator clientId) k.segments k'.segments shms)
    (hneeds : NeedsService header slot)
    (h : Returns (serviceSlot header slot allocation) k result k') :
    (checkSlot result.1 slot).requestShm.key =
        (derivedKeys allocator (header.slots slot).clientId).1 ∧
      (checkSlot result.1 slot).responseShm.key =
        (derivedKeys allocator (header.slots slot).clientId).2 := by
  rcases serviceSlot_returns h with ⟨shms, htable, hallocated, _⟩
  have hshms := hkeys _ _ _ _ _ (hallocated hneeds)
  have hchecked : checkSlot result.1 slot = shms := by
    rw [htable, serviced_of_needs shms hneeds]
    unfold checkSlot
    rw [CoordHeader.setRow_slots_self]
    rfl
  rw [hchecked]
  exact ⟨hshms.requestKey, hshms.responseKey⟩

theorem keysMissing_eq_false {shms : ShmPair} (hrequest : shms.requestShm.key ≠ 0)
    (hresponse : shms.responseShm.key ≠ 0) : keysMissing shms = false := by
  unfold keysMissing
  simp [hrequest, hresponse]

end Returns

theorem keysSound_of {allocator : Allocator} {allocation : Int -> Int -> OsM ShmPair}
    {clientId : Int}
    (hkeys : forall messageSize clientId k shms k',
      Returns (allocation messageSize clientId) k shms k' ->
        AllocatedByKeys (derivedKeys allocator clientId) k.segments k'.segments shms)
    (hrequestFits : InInt32 (exactKeys allocator clientId).1)
    (hresponseFits : InInt32 (exactKeys allocator clientId).2)
    (hdiffer : (derivedKeys allocator clientId).1 ≠ (derivedKeys allocator clientId).2)
    (hrequest : (derivedKeys allocator clientId).1 ≠ 0)
    (hresponse : (derivedKeys allocator clientId).2 ≠ 0) (hid : clientId ≠ -1) :
    KeysSound allocator allocation clientId := by
  refine ⟨hrequestFits, hresponseFits, hdiffer, hrequest, hresponse, ?_, ?_⟩
  · intro header slot k result k' hclient hneeds h
    rcases serviceSlot_keys hkeys hneeds h with ⟨hreq, hresp⟩
    apply keysMissing_eq_false
    · rw [hreq, hclient]
      exact hrequest
    · rw [hresp, hclient]
      exact hresponse
  · intro header slot k result k' hclient h
    apply serviceSlot_idle_iff h
    rw [hclient]
    exact hid

theorem keysSound_hash_iff {clientId : Int} (hint : InInt32 clientId) :
    KeysSound .hash hashShmAllocator clientId <->
      clientId ≠ 0 ∧ clientId ≠ -1 ∧ clientId ≠ 2 ^ 31 - 1 := by
  rcases hint with ⟨hlow, hhigh⟩
  constructor
  · intro h
    have hfits := h.responseFits
    have hrequest := h.request
    have hresponse := h.response
    simp only [exactKeys, derivedKeys, InInt32] at hfits hrequest hresponse
    rw [toInt32_of_fits hfits.left hfits.right] at hresponse
    lia
  · intro hparts
    rcases hparts with ⟨hzero, hminus, hmax⟩
    have hfits : toInt32 (clientId + 1) = clientId + 1 :=
      toInt32_of_fits (by lia) (by lia)
    apply keysSound_of
    · intro messageSize id k shms k' h
      exact keyedAllocator_keys (writesAt_queueCreate _ _) h
    · exact ⟨hlow, hhigh⟩
    · constructor
      · show -2 ^ 31 ≤ clientId + 1
        lia
      · show clientId + 1 < 2 ^ 31
        lia
    · show clientId ≠ toInt32 (clientId + 1)
      lia
    · exact hzero
    · show toInt32 (clientId + 1) ≠ 0
      lia
    · exact hminus

theorem inInt32_tdiv {x : Int} (h : InInt32 x) {n : Int} (hn : 0 < n) :
    InInt32 (x.tdiv n) := by
  rcases h with ⟨hlow, hhigh⟩
  rcases Int.le_total 0 x with hpos | hneg
  · have hnonneg := Int.tdiv_nonneg hpos hn.le
    have hle := Int.tdiv_le_self n hpos
    constructor
    · lia
    · lia
  · have hnonneg := Int.tdiv_nonneg (Int.neg_nonneg_of_nonpos hneg) hn.le
    have hle := Int.tdiv_le_self n (Int.neg_nonneg_of_nonpos hneg)
    rw [Int.neg_tdiv] at hnonneg hle
    constructor
    · lia
    · lia

theorem keysSound_sem_iff {clientId : Int} (hint : InInt32 clientId) :
    KeysSound .sem hashSemShmAllocator clientId <-> 4 ≤ clientId.natAbs := by
  constructor
  · intro h
    have hdiffer := h.differ
    have hrequest := h.request
    have hresponse := h.response
    simp only [derivedKeys] at hdiffer hrequest hresponse
    lia
  · intro hlarge
    apply keysSound_of
    · intro messageSize id k shms k' h
      exact keyedAllocator_keys (writesAt_semQueueCreate _ _) h
    · exact inInt32_tdiv hint (by decide)
    · exact inInt32_tdiv hint (by decide)
    · show clientId.tdiv 2 ≠ clientId.tdiv 3
      lia
    · show clientId.tdiv 2 ≠ 0
      lia
    · show clientId.tdiv 3 ≠ 0
      lia
    · lia

/-- The keys of an address are sound for POLL unless its hash is 0, -1 or the
largest `int`, and for SEM unless its hash lies within 3 of zero. -/
theorem keysSound_iff (input : List Byte) :
    (KeysSound .hash hashShmAllocator (Coord.hash input) <->
        Coord.hash input ≠ 0 ∧ Coord.hash input ≠ -1 ∧ Coord.hash input ≠ 2 ^ 31 - 1) ∧
      (KeysSound .sem hashSemShmAllocator (Coord.hash input) <->
        4 ≤ (Coord.hash input).natAbs) :=
  ⟨keysSound_hash_iff (hash_inInt32 input), keysSound_sem_iff (hash_inInt32 input)⟩

/-- The bytes of `client_33gzy8a`. -/
def unluckyAddress : List Byte :=
  [99, 108, 105, 101, 110, 116, 95, 51, 51, 103, 122, 121, 56, 97]

/-- The hash of this address is -1: its response key is zero, and `service_slot`
returns -1 after it serviced the slot. -/
theorem keysSound_unluckyAddress :
    Coord.hash unluckyAddress = -1 ∧
      derivedKeys .hash (Coord.hash unluckyAddress) = (-1, 0) ∧
      ¬ KeysSound .hash hashShmAllocator (Coord.hash unluckyAddress) ∧
      ¬ KeysSound .sem hashSemShmAllocator (Coord.hash unluckyAddress) := by
  have hhash : Coord.hash unluckyAddress = -1 := by decide
  rw [hhash]
  refine ⟨rfl, by decide, ?_, ?_⟩
  · intro h
    exact h.response (by decide)
  · intro h
    exact h.request (by decide)

end Rpc
end Notnets
