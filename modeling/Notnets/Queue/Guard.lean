import Notnets.Coord.Table
import Notnets.Queue.Header

/-!
# The size guard of queue creation

The guard adds the message size and the header size as 64-bit sizes.  As long as
that sum does not wrap, the ring that passes lies inside the region.  A sum that
wraps is small and passes too, for a message that no region can hold.
-/

namespace Notnets
namespace Queue

open Foundation

/-- The ring of this header lies inside the region, which it fills up to the
returned size. -/
structure InsideRegion (headerSize shmSize : Nat) (header : SpscQueueHeader)
    (usable : Int) : Prop where
  queueSize_pos : 1 ≤ header.queueSize
  fits : headerSize + header.queueSize * header.messageSize ≤ shmSize
  usable : usable = headerSize + header.queueSize * header.messageSize

/-!
# Sums that do not wrap
-/

theorem queueSizes_of_fits {headerSize shmSize messageSize : Nat}
    (hmessage : 0 < messageSize) (hfits : messageSize + headerSize ≤ shmSize)
    (hshm : shmSize < 2 ^ 31) :
    queueSizes headerSize shmSize messageSize =
      .ok (((shmSize - headerSize) / messageSize : Nat),
        (shmSize - (shmSize - headerSize) % messageSize : Nat)) := by
  have hquotient : (shmSize - headerSize) / messageSize ≤ shmSize - headerSize :=
    Nat.div_le_self _ _
  have hleftover : (shmSize - headerSize) % messageSize ≤ shmSize - headerSize :=
    Nat.mod_le _ _
  unfold queueSizes
  rw [sizeAdd_of_fits (by lia), if_neg (by lia), if_neg (by lia),
    sizeSub_of_le (by lia) (by lia)]
  dsimp only
  rw [toInt32_natCast (by lia), toInt32_natCast (by lia), toSizeT_natCast (by lia),
    sizeSub_of_le (by lia) (by lia)]
  have hfitsInt : toInt64 (shmSize - (shmSize - headerSize) % messageSize : Nat) =
      (shmSize - (shmSize - headerSize) % messageSize : Nat) := by
    unfold toInt64
    apply Int.bmod_eq_of_le
    · lia
    · lia
  rw [hfitsInt]

theorem createHeader_of_fits {headerSize shmSize messageSize : Nat}
    (hmessage : 0 < messageSize) (hfits : messageSize + headerSize ≤ shmSize)
    (hshm : shmSize < 2 ^ 31) :
    exists header usable,
      createHeader headerSize shmSize messageSize = .ok (header, usable) ∧
        header.queueSize = ((shmSize - headerSize) / messageSize : Nat) ∧
        header.messageSize = messageSize ∧
        usable = (shmSize - (shmSize - headerSize) % messageSize : Nat) := by
  unfold createHeader
  rw [queueSizes_of_fits hmessage hfits hshm]
  exact ⟨_, _, rfl, rfl, rfl, rfl⟩

theorem insideRegion_of_fits {headerSize shmSize messageSize : Nat}
    {header : SpscQueueHeader} {usable : Int}
    (hmessage : 0 < messageSize) (hfits : messageSize + headerSize ≤ shmSize)
    (hshm : shmSize < 2 ^ 31)
    (h : createHeader headerSize shmSize messageSize = .ok (header, usable)) :
    InsideRegion headerSize shmSize header usable := by
  rcases createHeader_of_fits hmessage hfits hshm with ⟨_, _, hok, hqueue, hsize, hret⟩
  rw [hok] at h
  cases h
  have hpos : 1 ≤ (shmSize - headerSize) / messageSize :=
    Nat.div_pos (by lia) hmessage
  have hsplit : (shmSize - headerSize) / messageSize * messageSize +
      (shmSize - headerSize) % messageSize = shmSize - headerSize :=
    Nat.div_add_mod' _ _
  constructor
  · rw [hqueue]
    exact_mod_cast hpos
  · rw [hqueue, hsize]
    norm_cast
    lia
  · rw [hqueue, hsize, hret]
    norm_cast
    lia

/-!
# Sums that wrap
-/

theorem not_insideRegion_of_wrap {headerSize shmSize messageSize : Nat}
    {header : SpscQueueHeader} {usable : Int}
    (hshm : shmSize < 2 ^ 31) (hwrap : 2 ^ 64 ≤ messageSize + headerSize)
    (h : createHeader headerSize shmSize messageSize = .ok (header, usable)) :
    ¬ InsideRegion headerSize shmSize header usable := by
  intro hinside
  rcases createHeader_ok h with ⟨n, _, hheader⟩
  have hsize : header.messageSize = messageSize := by rw [hheader]
  have hslot : (messageSize : Int) ≤ header.queueSize * header.messageSize := by
    rw [hsize]
    exact le_mul_of_one_le_left (Int.natCast_nonneg _) hinside.queueSize_pos
  have hfits := hinside.fits
  lia

theorem insideRegion_iff {headerSize shmSize messageSize : Nat}
    {header : SpscQueueHeader} {usable : Int}
    (hshm : shmSize < 2 ^ 31) (hmessage : messageSize ≠ 0)
    (h : createHeader headerSize shmSize messageSize = .ok (header, usable)) :
    InsideRegion headerSize shmSize header usable <->
      messageSize + headerSize < 2 ^ 64 := by
  constructor
  · intro hinside
    by_contra hwrap
    exact not_insideRegion_of_wrap hshm (by lia) h hinside
  · intro hguard
    rcases createHeader_ok h with ⟨n, hsizes, _⟩
    rcases queueSizes_ok (by lia) hguard hshm hsizes with ⟨hfits, _⟩
    exact insideRegion_of_fits (by lia) hfits hshm h

/-- The size guard of both versions is sound exactly as long as its sum does not
wrap. -/
theorem queueCreate_insideRegion_iff {shmSize messageSize : Nat}
    (hshm : shmSize < 2 ^ 31) (hzero : messageSize ≠ 0) :
    (forall header usable, queueCreate shmSize messageSize = .ok (header, usable) ->
      (InsideRegion sizeofSpscQueueHeader shmSize header usable <->
        messageSize + sizeofSpscQueueHeader < 2 ^ 64)) ∧
    (forall header usable, semQueueCreate shmSize messageSize = .ok (header, usable) ->
      (InsideRegion sizeofSemSpscQueueHeader shmSize header usable <->
        messageSize + sizeofSemSpscQueueHeader < 2 ^ 64)) := by
  constructor
  · intro header usable h
    exact insideRegion_iff hshm hzero h
  · intro header usable h
    exact insideRegion_iff hshm hzero h

theorem queueCreate_insideRegion_iff_small :
    exists header usable,
      queueCreate Coord.queueRegionSize 100 = .ok (header, usable) ∧
        InsideRegion sizeofSpscQueueHeader Coord.queueRegionSize header usable := by
  rcases @createHeader_of_fits sizeofSpscQueueHeader Coord.queueRegionSize 100
    (by decide) (by decide) (by decide) with ⟨header, usable, h, _⟩
  exact ⟨header, usable, h, ((queueCreate_insideRegion_iff (by decide)
    (by decide)).left header usable h).mpr (by decide)⟩

/-- A client that asks for messages of size -1 gets a ring without a slot. -/
theorem queueCreate_minus_one :
    ¬ forall shmSize messageSize : Nat, shmSize < 2 ^ 31 -> messageSize ≠ 0 ->
      messageSize < 2 ^ 64 -> forall header usable,
        queueCreate shmSize messageSize = .ok (header, usable) ->
          InsideRegion sizeofSpscQueueHeader shmSize header usable := by
  intro hsound
  have hpasses : queueCreate Coord.queueRegionSize (toSizeT (-1)) =
      .ok
        ({ head := 0, tail := 0, messageSize := 2 ^ 64 - 1, messageOffset := 0,
           queueSize := 0, currentCount := 0, totalCount := 0,
           stopProducerPolling := false, stopConsumerPolling := false },
          Coord.queueRegionSize - (Coord.queueRegionSize - sizeofSpscQueueHeader)) := by
    decide
  have hinside := hsound _ _ (by decide) (by decide) (by decide) _ _ hpasses
  exact absurd hinside.queueSize_pos (by decide)

end Queue
end Notnets
