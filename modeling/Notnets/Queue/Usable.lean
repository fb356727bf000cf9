import Notnets.Coord.Table
import Notnets.Queue.RingTransport

/-!
# Fresh queues

A ring keeps one slot free, so a ring with a single slot is full as soon as it
exists.  The number of slots is a quotient that was truncated to an `int`, and
for SEM the indices are taken modulo that `int`.
-/

namespace Notnets
namespace Queue

open Foundation

/-- On its own a send completes, a receive then returns the message, and the
message is gone. -/
def Usable {State : Type} (transport : Transport State) (s : State)
    (messageSize : Nat) : Prop :=
  forall buf size, buf.length ≤ messageSize -> messageSize ≤ size -> size < 2 ^ 64 ->
    exists s' s'' bytes, transport.push s buf = some (s', 0) ∧
      transport.pop s' size = some (s'', ⟨messageSize, bytes, 0⟩) ∧
        bytes.take buf.length = buf ∧ transport.pop s'' size = none

/-- The conversion to `int` and back loses nothing. -/
def SurvivesInt (messageSize : Nat) : Prop :=
  messageSize < 2 ^ 31 ∨ 2 ^ 64 - 2 ^ 31 ≤ messageSize

instance (messageSize : Nat) : Decidable (SurvivesInt messageSize) :=
  inferInstanceAs (Decidable (_ ∨ _))

theorem survivesInt_iff {messageSize : Nat} (hsize : messageSize < 2 ^ 64) :
    SurvivesInt messageSize <-> toSizeT (toInt32 messageSize) = messageSize := by
  unfold SurvivesInt toSizeT toInt32 Int.bmod
  lia

def freshHeader (messageSize : Nat) (queueSize : Int) : SpscQueueHeader where
  head := 0
  tail := 0
  messageSize := messageSize
  messageOffset := 0
  queueSize := queueSize
  currentCount := 0
  totalCount := 0
  stopProducerPolling := false
  stopConsumerPolling := false

theorem createHeader_of_passes {headerSize shmSize messageSize : Nat}
    (hpos : 0 < messageSize) (hfits : messageSize + headerSize ≤ shmSize)
    (hshm : shmSize < 2 ^ 64) :
    exists usable, createHeader headerSize shmSize messageSize =
      .ok (freshHeader messageSize
        (toInt32 ((shmSize - headerSize) / messageSize : Nat)), usable) := by
  unfold createHeader queueSizes
  rw [sizeAdd_of_fits (by lia), if_neg (by lia), if_neg (by lia),
    sizeSub_of_le (by lia) (by lia)]
  exact ⟨_, rfl⟩

/-!
# One message, from its copy to its removal
-/

theorem take_load_copyTo (mem : ByteMemory) {address address' : Int} {buf : List Byte}
    {n : Nat} (haddress : address' = address) (hn : buf.length ≤ n) :
    (load (copyTo mem address buf) address' n).take buf.length = buf := by
  subst haddress
  apply List.ext_getElem
  · simpa using hn
  · intro k hk hlt
    rw [List.getElem_take, getElem_load, copyTo_inside mem _ hlt]

theorem clampSize_first {messageSize size : Nat} (hle : messageSize ≤ size)
    (hsize : size < 2 ^ 64) : clampSize messageSize 0 size = messageSize := by
  have hzero : toSizeT 0 = 0 := rfl
  unfold clampSize
  rw [hzero, sizeAdd_of_fits (by lia), sizeSub_of_le (by lia) (by lia)]
  by_cases hlarge : size + 0 > messageSize
  · rw [if_pos hlarge]
    rfl
  · rw [if_neg hlarge]
    lia

theorem advanceOffset_first {messageSize : Nat} (hsize : messageSize < 2 ^ 64) :
    advanceOffset 0 messageSize = toInt32 messageSize := by
  have hzero : toSizeT 0 = 0 := rfl
  unfold advanceOffset
  rw [hzero, sizeAdd_of_fits (by lia), Nat.zero_add]

/-!
# POLL
-/

section Poll

variable {mem : ByteMemory} {messageSize size : Nat} {n : Int}

def firstHeader (messageSize : Nat) (queueSize : Int) : SpscQueueHeader :=
  { freshHeader messageSize queueSize with head := 1 }

theorem nextIndex_first {header : SpscQueueHeader} (hqueue : header.queueSize = n) :
    nextIndex header 0 = if n = 1 then 0 else 1 := by
  have hone : toInt32 (0 + 1) = 1 := rfl
  simp only [nextIndex, hqueue, hone, eq_comm]

theorem push_first {buf : List Byte} (hfits : buf.length ≤ messageSize) (hn : n ≠ 1) :
    push ⟨freshHeader messageSize n, mem⟩ buf = some
      (⟨firstHeader messageSize n, copyTo mem (pushAddress (toInt32 messageSize) 0) buf⟩,
        0) := by
  have hnext : nextIndex (freshHeader messageSize n) 0 = 1 := by
    rw [@nextIndex_first n _ rfl, if_neg hn]
  have hroom : nextIndex (freshHeader messageSize n) 0 ≠ 0 := by
    rw [hnext]
    decide
  have hpush := @push_room ⟨freshHeader messageSize n, mem⟩ buf hfits hroom
  rw [hpush]
  show some (SpscQueue.setHead _ (nextIndex (freshHeader messageSize n) 0), _) = _
  rw [hnext]
  rfl

theorem push_single (buf : List Byte) (hfits : buf.length ≤ messageSize) :
    push ⟨freshHeader messageSize 1, mem⟩ buf = none := by
  apply push_full hfits
  show nextIndex (freshHeader messageSize 1) 0 = 0
  rw [@nextIndex_first 1 _ rfl, if_pos rfl]

theorem pop_first (hle : messageSize ≤ size) (hbound : size < 2 ^ 64) :
    pop ⟨firstHeader messageSize n, mem⟩ size =
      some (popMessage ⟨firstHeader messageSize n, mem⟩ 0 messageSize) := by
  rw [pop_nonempty rfl (by decide : (0 : Int) ≠ 1)]
  show some (popMessage _ 0 (clampSize messageSize 0 size)) = _
  rw [clampSize_first hle hbound]

theorem popMessage_whole (hbound : messageSize < 2 ^ 64)
    (hint : SurvivesInt messageSize) (hn : n ≠ 1) :
    popMessage ⟨firstHeader messageSize n, mem⟩ 0 messageSize =
      (⟨{ firstHeader messageSize n with tail := 1 }, mem⟩,
        ⟨messageSize,
          load mem (popAddress (firstHeader messageSize n) 0) messageSize, 0⟩) := by
  have hend := (survivesInt_iff hbound).mp hint
  have hnext : nextIndex (firstHeader messageSize n) 0 = 1 := by
    rw [@nextIndex_first n _ rfl, if_neg hn]
  have hoffset : (firstHeader messageSize n).messageOffset = 0 := rfl
  have hsize : (firstHeader messageSize n).messageSize = messageSize := rfl
  simp only [popMessage, hoffset, advanceOffset_first hbound, hsize, hend, if_true, hnext]
  rfl

theorem setMessageOffset_first (offset : Int) :
    (SpscQueue.setMessageOffset ⟨firstHeader messageSize n, mem⟩ offset).setTail 0 =
      ⟨{ firstHeader messageSize n with messageOffset := offset }, mem⟩ := rfl

theorem popMessage_cut (hbound : messageSize < 2 ^ 64)
    (hint : ¬ SurvivesInt messageSize) :
    (popMessage ⟨firstHeader messageSize n, mem⟩ 0 messageSize).1 =
      ⟨{ firstHeader messageSize n with messageOffset := toInt32 messageSize }, mem⟩ := by
  have hend := (survivesInt_iff hbound).not.mp hint
  have hoffset : (firstHeader messageSize n).messageOffset = 0 := rfl
  have hsize : (firstHeader messageSize n).messageSize = messageSize := rfl
  simp only [popMessage, hoffset, advanceOffset_first hbound, hsize, if_neg hend,
    setMessageOffset_first]

theorem poll_usable_iff (hbound : messageSize < 2 ^ 64) :
    Usable pollTransport ⟨freshHeader messageSize n, mem⟩ messageSize <->
      SurvivesInt messageSize ∧ n ≠ 1 := by
  constructor
  · intro husable
    rcases husable [] messageSize (Nat.zero_le _) le_rfl hbound with
      ⟨q1, q2, bytes, hpush, hpop, _, hempty⟩
    rw [pollTransport_push] at hpush
    rw [pollTransport_pop] at hpop hempty
    have hn : n ≠ 1 := by
      rintro rfl
      rw [push_single [] (Nat.zero_le _)] at hpush
      cases hpush
    refine ⟨?_, hn⟩
    by_contra hint
    rw [push_first (Nat.zero_le _) hn] at hpush
    cases hpush
    rw [pop_first le_rfl hbound] at hpop
    have hq2 := congrArg Prod.fst (Option.some.inj hpop)
    rw [popMessage_cut hbound hint] at hq2
    subst hq2
    rw [pop_nonempty rfl (by decide : (0 : Int) ≠ 1)] at hempty
    cases hempty
  · rintro ⟨hint, hn⟩ buf size hfits hle hlt
    rw [pollTransport_push, pollTransport_pop]
    have hpop := @pop_first (copyTo mem (pushAddress (toInt32 messageSize) 0) buf)
      messageSize size n hle hlt
    rw [popMessage_whole hbound hint hn] at hpop
    refine ⟨_, _, _, push_first hfits hn, hpop, ?_, pop_empty rfl rfl⟩
    apply take_load_copyTo mem ?_ hfits
    have hzero : toSizeT 0 = 0 := rfl
    have hoffset : (firstHeader messageSize n).messageOffset = 0 := rfl
    unfold popAddress pushAddress
    rw [hoffset, hzero]
    simp [sizeMul, toInt32]

end Poll

/-!
# SEM
-/

section Sem

variable {mem : ByteMemory} {values : Semaphore -> Nat} {messageSize size : Nat} {n : Int}

def semFirstHeader (messageSize : Nat) (queueSize : Int) : SpscQueueHeader :=
  { freshHeader messageSize queueSize with head := 1, currentCount := 1, totalCount := 1 }

theorem succ_first (n : Int) : succ 0 n = if n.natAbs = 1 then 0 else 1 := by
  have hone : toInt32 (0 + 1) = 1 := rfl
  have hsign : Int.tmod 1 n = Int.tmod 1 n.natAbs := by
    rcases Int.natAbs_eq n with h | h
    · rw [← h]
    · conv_lhs => rw [h, Int.tmod_neg]
  unfold succ
  rw [hone, hsign]
  by_cases hsingle : n.natAbs = 1
  · rw [if_pos hsingle, hsingle]
    rfl
  · rw [if_neg hsingle]
    by_cases hzero : n.natAbs = 0
    · rw [hzero]
      rfl
    · exact Int.tmod_eq_of_lt (by decide) (by lia)

theorem isFull_fresh : isFull (freshHeader messageSize n) = true <-> n.natAbs = 1 := by
  unfold isFull
  rw [decide_eq_true_iff]
  show succ 0 n = 0 <-> _
  rw [succ_first]
  by_cases hsingle : n.natAbs = 1
  · simp [hsingle]
  · simp [hsingle]

theorem enqueue_first (hn : n.natAbs ≠ 1) (buf : List Byte) :
    enqueue ⟨freshHeader messageSize n, mem⟩ buf =
      ⟨semFirstHeader messageSize n,
        copyTo mem (enqueueAddress (freshHeader messageSize n)) buf⟩ := by
  have hnext : succ (freshHeader messageSize n).head
      (freshHeader messageSize n).queueSize = 1 := by
    show succ 0 n = 1
    rw [succ_first, if_neg hn]
  unfold enqueue
  rw [hnext]
  rfl

theorem semPush_first {buf : List Byte} (hfits : buf.length ≤ messageSize)
    (hlock : values .lock ≠ 0) (hn : 1 < n.natAbs) :
    semPush ⟨⟨freshHeader messageSize n, mem⟩, values⟩ buf = some
      (⟨⟨semFirstHeader messageSize n,
        copyTo mem (enqueueAddress (freshHeader messageSize n)) buf⟩,
          semPost values .empty true⟩, 0) := by
  have hroom : ¬ ((freshHeader messageSize n).queueSize = 0 ∨
      isFull (freshHeader messageSize n)) := by
    rw [isFull_fresh]
    show ¬ (n = 0 ∨ n.natAbs = 1)
    lia
  rw [semPush_room hfits hlock hroom, enqueue_first (by lia)]
  rfl

theorem semPush_single (buf : List Byte) (hfits : buf.length ≤ messageSize)
    (hn : n.natAbs ≤ 1) :
    semPush ⟨⟨freshHeader messageSize n, mem⟩, values⟩ buf = none := by
  apply semPush_full hfits
  rw [isFull_fresh]
  show n = 0 ∨ n.natAbs = 1
  lia

theorem semPop_first (hn : 1 < n.natAbs) (hlock : values .lock ≠ 0) :
    semPop ⟨⟨semFirstHeader messageSize n, mem⟩, values⟩ size = some
      (⟨(dequeue ⟨semFirstHeader messageSize n, mem⟩ size).1,
        if isFull (semFirstHeader messageSize n) then semPost values .full true
        else values⟩, (dequeue ⟨semFirstHeader messageSize n, mem⟩ size).2) := by
  apply semPop_nonempty rfl hlock
  show ¬ (n = 0 ∨ _)
  intro hcases
  rcases hcases with hzero | hempty
  · lia
  · cases hempty

theorem retire_first (hn : n.natAbs ≠ 1) :
    retire ⟨semFirstHeader messageSize n, mem⟩ =
      ⟨{ semFirstHeader messageSize n with tail := 1, currentCount := 0 }, mem⟩ := by
  have hnext : succ (semFirstHeader messageSize n).tail
      (semFirstHeader messageSize n).queueSize = 1 := by
    show succ 0 n = 1
    rw [succ_first, if_neg hn]
  unfold retire
  rw [hnext]
  rfl

theorem dequeue_whole (hle : messageSize ≤ size) (hsize : size < 2 ^ 64)
    (hint : SurvivesInt messageSize) (hn : n.natAbs ≠ 1) :
    dequeue ⟨semFirstHeader messageSize n, mem⟩ size =
      (⟨{ semFirstHeader messageSize n with tail := 1, currentCount := 0 }, mem⟩,
        ⟨messageSize,
          load mem (dequeueAddress (semFirstHeader messageSize n)) messageSize, 0⟩) := by
  have hend := (survivesInt_iff (by lia)).mp hint
  have hoffset : (semFirstHeader messageSize n).messageOffset = 0 := rfl
  have hmessage : (semFirstHeader messageSize n).messageSize = messageSize := rfl
  simp only [dequeue, hoffset, hmessage, clampSize_first hle hsize,
    advanceOffset_first (lt_of_le_of_lt hle hsize), hend, if_true, retire_first hn]

theorem dequeue_cut (hle : messageSize ≤ size) (hsize : size < 2 ^ 64)
    (hint : ¬ SurvivesInt messageSize) :
    (dequeue ⟨semFirstHeader messageSize n, mem⟩ size).1 =
      SpscQueue.setMessageOffset ⟨semFirstHeader messageSize n, mem⟩
        (toInt32 messageSize) := by
  have hend := (survivesInt_iff (lt_of_le_of_lt hle hsize)).not.mp hint
  have hoffset : (semFirstHeader messageSize n).messageOffset = 0 := rfl
  have hmessage : (semFirstHeader messageSize n).messageSize = messageSize := rfl
  simp only [dequeue, hoffset, hmessage, clampSize_first hle hsize,
    advanceOffset_first (lt_of_le_of_lt hle hsize), if_neg hend]

theorem semPop_again (hn : 1 < n.natAbs) (hlock : values .lock ≠ 0) (offset : Int) :
    semPop ⟨SpscQueue.setMessageOffset ⟨semFirstHeader messageSize n, mem⟩ offset, values⟩
      size ≠ none := by
  have hmessage : ¬ ((SpscQueue.setMessageOffset ⟨semFirstHeader messageSize n, mem⟩
      offset).header.queueSize = 0 ∨ isEmpty (SpscQueue.setMessageOffset
        ⟨semFirstHeader messageSize n, mem⟩ offset).header) := by
    show ¬ (n = 0 ∨ _)
    intro hcases
    rcases hcases with hzero | hempty
    · lia
    · cases hempty
  rw [semPop_nonempty rfl hlock hmessage]
  exact Option.some_ne_none _

theorem sem_usable_iff (hbound : messageSize < 2 ^ 64) (hlock : values .lock ≠ 0) :
    Usable semTransport ⟨⟨freshHeader messageSize n, mem⟩, values⟩ messageSize <->
      SurvivesInt messageSize ∧ 1 < n.natAbs := by
  have hunlocked : semPost values .empty true .lock ≠ 0 := by
    rw [semPost_other values true (by decide)]
    exact hlock
  constructor
  · intro husable
    rcases husable [] messageSize (Nat.zero_le _) le_rfl hbound with
      ⟨s1, s2, bytes, hpush, hpop, _, hempty⟩
    rw [semTransport_push] at hpush
    rw [semTransport_pop] at hpop hempty
    have hn : 1 < n.natAbs := by
      by_contra hn
      rw [semPush_single [] (Nat.zero_le _) (by lia)] at hpush
      cases hpush
    refine ⟨?_, hn⟩
    by_contra hint
    rw [semPush_first (Nat.zero_le _) hlock hn] at hpush
    cases hpush
    rw [semPop_first hn hunlocked] at hpop
    have hs2 := congrArg Prod.fst (Option.some.inj hpop)
    rw [dequeue_cut le_rfl hbound hint] at hs2
    subst hs2
    exact semPop_again hn (unlocked_after hunlocked _ (by decide)) _ hempty
  · rintro ⟨hint, hn⟩ buf size hfits hle hlt
    rw [semTransport_push, semTransport_pop]
    have hpop := @semPop_first
      (copyTo mem (enqueueAddress (freshHeader messageSize n)) buf)
      (semPost values .empty true) messageSize size n hn hunlocked
    rw [dequeue_whole hle hlt hint (by lia)] at hpop
    refine ⟨_, _, _, semPush_first hfits hlock hn, hpop, ?_, ?_⟩
    · apply take_load_copyTo mem ?_ hfits
      have hzero : toSizeT 0 = 0 := rfl
      have hoffset : (semFirstHeader messageSize n).messageOffset = 0 := rfl
      have htail : (semFirstHeader messageSize n).tail = 0 := rfl
      have hhead : (freshHeader messageSize n).head = 0 := rfl
      unfold dequeueAddress enqueueAddress
      rw [hoffset, htail, hhead, hzero]
      simp [sizeMul, toInt32]
    · apply semPop_empty rfl
      exact Or.inr rfl

end Sem

/-!
# Which admitted sizes are usable
-/

theorem toInt32_eq_one_iff (r : Nat) : toInt32 r = 1 <-> r % 2 ^ 32 = 1 := by
  unfold toInt32 Int.bmod
  lia

theorem one_lt_natAbs_toInt32_iff (r : Nat) :
    1 < (toInt32 r).natAbs <->
      r % 2 ^ 32 ≠ 0 ∧ r % 2 ^ 32 ≠ 1 ∧ r % 2 ^ 32 ≠ 2 ^ 32 - 1 := by
  unfold toInt32 Int.bmod
  lia

theorem two_le_slots_iff {headerSize shmSize messageSize : Nat} (hpos : 0 < messageSize)
    (hfits : messageSize + headerSize ≤ shmSize) :
    2 ≤ (shmSize - headerSize) / messageSize <->
      headerSize + 2 * messageSize ≤ shmSize := by
  rw [Nat.le_div_iff_mul_le hpos]
  lia

/-- In a region below `2^31` bytes a queue is usable exactly when it has two
slots. -/
theorem queueCreate_usable_iff_twoSlots {shmSize messageSize : Nat} (mem : ByteMemory)
    (hpos : 0 < messageSize) (hshm : shmSize < 2 ^ 31) :
    (messageSize + sizeofSpscQueueHeader ≤ shmSize ->
      exists header usable, queueCreate shmSize messageSize = .ok (header, usable) ∧
        (Usable pollTransport ⟨header, mem⟩ messageSize <->
          sizeofSpscQueueHeader + 2 * messageSize ≤ shmSize)) ∧
    (messageSize + sizeofSemSpscQueueHeader ≤ shmSize ->
      exists header usable, semQueueCreate shmSize messageSize = .ok (header, usable) ∧
        (Usable semTransport ⟨⟨header, mem⟩, initialValues⟩ messageSize <->
          sizeofSemSpscQueueHeader + 2 * messageSize ≤ shmSize)) := by
  have hint : messageSize < 2 ^ 31 -> SurvivesInt messageSize := Or.inl
  constructor
  · intro hfits
    rcases createHeader_of_passes hpos hfits (by lia) with ⟨usable, hcreate⟩
    refine ⟨_, usable, hcreate, ?_⟩
    have hone := Nat.div_pos (by lia : messageSize ≤ shmSize - sizeofSpscQueueHeader) hpos
    have hle := Nat.div_le_self (shmSize - sizeofSpscQueueHeader) messageSize
    rw [poll_usable_iff (by lia), ← two_le_slots_iff hpos hfits,
      toInt32_natCast (by lia), and_iff_right (hint (by lia))]
    lia
  · intro hfits
    rcases createHeader_of_passes hpos hfits (by lia) with ⟨usable, hcreate⟩
    refine ⟨_, usable, hcreate, ?_⟩
    have hle := Nat.div_le_self (shmSize - sizeofSemSpscQueueHeader) messageSize
    rw [sem_usable_iff (by lia) Nat.one_ne_zero, ← two_le_slots_iff hpos hfits,
      toInt32_natCast (by lia), and_iff_right (hint (by lia))]
    lia

/-- A queue is usable exactly when its message size fits an `int` and the number
of its slots, as an `int`, leaves one to use. -/
theorem queueCreate_usable_iff {shmSize messageSize : Nat} (mem : ByteMemory)
    (hpos : 0 < messageSize) (hshm : shmSize < 2 ^ 64) :
    (messageSize + sizeofSpscQueueHeader ≤ shmSize ->
      exists header usable, queueCreate shmSize messageSize = .ok (header, usable) ∧
        (Usable pollTransport ⟨header, mem⟩ messageSize <->
          SurvivesInt messageSize ∧
            (shmSize - sizeofSpscQueueHeader) / messageSize % 2 ^ 32 ≠ 1)) ∧
    (messageSize + sizeofSemSpscQueueHeader ≤ shmSize ->
      exists header usable, semQueueCreate shmSize messageSize = .ok (header, usable) ∧
        (Usable semTransport ⟨⟨header, mem⟩, initialValues⟩ messageSize <->
          SurvivesInt messageSize ∧
            (shmSize - sizeofSemSpscQueueHeader) / messageSize % 2 ^ 32 ≠ 0 ∧
              (shmSize - sizeofSemSpscQueueHeader) / messageSize % 2 ^ 32 ≠ 1 ∧
                (shmSize - sizeofSemSpscQueueHeader) / messageSize % 2 ^ 32 ≠
                  2 ^ 32 - 1)) := by
  constructor
  · intro hfits
    rcases createHeader_of_passes hpos hfits hshm with ⟨usable, hcreate⟩
    refine ⟨_, usable, hcreate, ?_⟩
    rw [poll_usable_iff (by lia), Ne, toInt32_eq_one_iff]
  · intro hfits
    rcases createHeader_of_passes hpos hfits hshm with ⟨usable, hcreate⟩
    refine ⟨_, usable, hcreate, ?_⟩
    rw [sem_usable_iff (by lia) Nat.one_ne_zero, one_lt_natAbs_toInt32_iff]

theorem queueCreate_usable_iff_small :
    exists header usable,
      queueCreate Coord.queueRegionSize 100 = .ok (header, usable) ∧
        Usable pollTransport ⟨header, fun _ => 0⟩ 100 := by
  have hsizes := @queueCreate_usable_iff Coord.queueRegionSize 100 (fun _ => 0)
    (by decide) (by decide)
  rcases hsizes.left (by decide) with ⟨header, usable, hcreate, husable⟩
  exact ⟨header, usable, hcreate, husable.mpr (by decide)⟩

/-- A message size above half of the region makes a queue that never holds a
message. -/
theorem queueCreate_single_slot :
    ¬ forall (shmSize messageSize : Nat) (mem : ByteMemory), 0 < messageSize ->
      messageSize + sizeofSpscQueueHeader ≤ shmSize -> shmSize < 2 ^ 31 ->
        exists header usable, queueCreate shmSize messageSize = .ok (header, usable) ∧
          Usable pollTransport ⟨header, mem⟩ messageSize := by
  intro hclaim
  rcases hclaim Coord.queueRegionSize 10000 (fun _ => 0) (by decide) (by decide)
    (by decide) with ⟨header, usable, hcreate, husable⟩
  have hsingle : queueCreate Coord.queueRegionSize 10000 =
      .ok (freshHeader 10000 1, 10040) := by
    decide
  rw [hsingle] at hcreate
  cases hcreate
  have hslots := (poll_usable_iff (by decide)).mp husable
  exact hslots.right rfl

end Queue
end Notnets
