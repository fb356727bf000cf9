import Notnets.Queue.PollInvariant

/-!
# Slot separation in the POLL queue

Messages of any length and partial reads of any length: both indices stay in the
ring, both copies stay in the slots of the region, and the slot being written is
never the slot being read.
-/

namespace Notnets
namespace Queue

open Foundation

/-- The slot that a call of `push` writes, from its full test to its store of
`head`. -/
def PushPc.writing : PushPc -> Option Int
  | .copying _ _ writerHead _ _ => some writerHead
  | _ => none

/-- The slot that a call of `pop` reads, from its empty test to its store of
`tail`, which is still the index of that slot. -/
def PopPc.reading (header : SpscQueueHeader) : PopPc -> Option Int
  | .copying _ readerTail _ => some readerTail
  | .advanced _ readerTail _ => some readerTail
  | .finishing _ _ _ => some header.tail
  | _ => none

/-- The bytes from this address on lie between the header and the end of the
region. -/
def InRegion (shmSize : Nat) (address : Int) (length : Nat) : Prop :=
  (sizeofSpscQueueHeader : Int) ≤ address ∧ address + length ≤ shmSize

structure Separated (shmSize : Nat) (s : PollState) : Prop where
  head : 0 ≤ s.queue.header.head ∧ s.queue.header.head < s.queue.header.queueSize
  tail : 0 ≤ s.queue.header.tail ∧ s.queue.header.tail < s.queue.header.queueSize
  offset : forall last, s.consumer = .idle last ->
    0 ≤ s.queue.header.messageOffset ∧
      s.queue.header.messageOffset < s.queue.header.messageSize
  written : forall buf messageSize writerHead nextWriterHead copied,
    s.producer = .copying buf messageSize writerHead nextWriterHead copied ->
      InRegion shmSize (pushAddress messageSize writerHead) buf.length
  read : forall size readerTail buf, s.consumer = .copying size readerTail buf ->
    InRegion shmSize (popAddress s.queue.header readerTail) size
  apart : forall i j, s.producer.writing = some i ->
    s.consumer.reading s.queue.header = some j -> i ≠ j

/-!
# The slots of the region
-/

theorem inRegion_slot {g : Geometry} {shmSize : Nat}
    (hregion : sizeofSpscQueueHeader + g.queueSize * g.messageSize ≤ shmSize)
    {i offset length : Nat} (hi : i < g.queueSize)
    (hpiece : offset + length ≤ g.messageSize) {address : Int}
    (haddress : address =
      sizeofSpscQueueHeader + (i * g.messageSize : Nat) + (offset : Nat)) :
    InRegion shmSize address length := by
  have hslot : (i + 1) * g.messageSize ≤ g.queueSize * g.messageSize :=
    Nat.mul_le_mul_right g.messageSize hi
  rw [Nat.succ_mul] at hslot
  unfold InRegion
  lia

namespace PollIndices

variable {g : Geometry} {s : PollState} {shmSize : Nat}

theorem written_inRegion (h : PollIndices g s)
    (hregion : sizeofSpscQueueHeader + g.queueSize * g.messageSize ≤ shmSize)
    {buf : List Byte} {messageSize writerHead nextWriterHead : Int} {copied : Nat}
    (hpc : s.producer = .copying buf messageSize writerHead nextWriterHead copied) :
    InRegion shmSize (pushAddress messageSize writerHead) buf.length := by
  have hproducer := h.producer
  rw [hpc] at hproducer
  rcases hproducer with ⟨hlen, hsize, hhead, _, _, _⟩
  have hi : s.pushed.length % g.queueSize < g.queueSize :=
    Nat.mod_lt _ g.queueSize_pos
  refine inRegion_slot hregion hi (by lia : 0 + buf.length ≤ g.messageSize) ?_
  unfold pushAddress
  rw [hsize, hhead, g.toInt32_slot hi]
  simp

theorem read_inRegion (h : PollIndices g s)
    (hregion : sizeofSpscQueueHeader + g.queueSize * g.messageSize ≤ shmSize)
    {size : Nat} {readerTail : Int} {buf : List Byte}
    (hpc : s.consumer = .copying size readerTail buf) :
    InRegion shmSize (popAddress s.queue.header readerTail) size := by
  have hconsumer := h.consumer
  rw [hpc] at hconsumer
  rcases hconsumer with ⟨hoffset, hpiece, htail, _, _⟩
  have hi : position s.popped / g.messageSize % g.queueSize < g.queueSize :=
    Nat.mod_lt _ g.queueSize_pos
  refine inRegion_slot hregion hi hpiece ?_
  unfold popAddress
  rw [htail, h.header.messageSize, g.sizeMul_slot hi, hoffset]

/-- A `push` past its full test writes the slot of the next message, and leaves
one slot free before the messages not yet read. -/
theorem writing_eq (h : PollIndices g s) {i : Int}
    (hi : s.producer.writing = some i) :
    i = (s.pushed.length % g.queueSize : Nat) ∧
      s.pushed.length + 1 < position s.popped / g.messageSize + g.queueSize := by
  have hproducer := h.producer
  cases hpc : s.producer with
  | copying buf messageSize writerHead nextWriterHead copied =>
      rw [hpc] at hi hproducer
      injection hi with hi
      rcases hproducer with ⟨_, _, hhead, _, _, hfree⟩
      exact ⟨hi.symm.trans hhead, hfree⟩
  | idle ret => simp [hpc, PushPc.writing] at hi
  | entered buf => simp [hpc, PushPc.writing] at hi
  | sized buf messageSize => simp [hpc, PushPc.writing] at hi
  | polling buf messageSize writerHead nextWriterHead =>
      simp [hpc, PushPc.writing] at hi

/-- A `pop` past its empty test reads the slot of the first message not yet
read. -/
theorem reading_eq (h : PollIndices g s) {j : Int}
    (hj : s.consumer.reading s.queue.header = some j) :
    j = (position s.popped / g.messageSize % g.queueSize : Nat) ∧
      position s.popped / g.messageSize < s.pushed.length := by
  have hconsumer := h.consumer
  cases hpc : s.consumer with
  | copying size readerTail buf =>
      rw [hpc] at hj hconsumer
      injection hj with hj
      rcases hconsumer with ⟨_, _, htail, hlt, _⟩
      exact ⟨hj.symm.trans htail, hlt⟩
  | advanced size readerTail buf =>
      rw [hpc] at hj hconsumer
      injection hj with hj
      rcases hconsumer with ⟨_, _, htail, hlt, _⟩
      exact ⟨hj.symm.trans htail, hlt⟩
  | finishing nextReaderTail read buf =>
      rw [hpc] at hj hconsumer
      injection hj with hj
      rcases hconsumer with ⟨_, _, _, hlt, _⟩
      exact ⟨hj.symm.trans h.header.tail, hlt⟩
  | idle last => simp [hpc, PopPc.reading] at hj
  | entered size => simp [hpc, PopPc.reading] at hj
  | clamped size => simp [hpc, PopPc.reading] at hj
  | running size => simp [hpc, PopPc.reading] at hj
  | polling size readerTail => simp [hpc, PopPc.reading] at hj

theorem separated (h : PollIndices g s)
    (hregion : sizeofSpscQueueHeader + g.queueSize * g.messageSize ≤ shmSize) :
    Separated shmSize s where
  head := by
    have hlt := Nat.mod_lt s.pushed.length g.queueSize_pos
    rw [h.header.head, h.header.queueSize]
    lia
  tail := by
    have hlt := Nat.mod_lt (position s.popped / g.messageSize) g.queueSize_pos
    rw [h.header.tail, h.header.queueSize]
    lia
  offset := by
    intro last hidle
    have hconsumer := h.consumer
    rw [hidle] at hconsumer
    have hoffset : s.queue.header.messageOffset =
        (position s.popped % g.messageSize : Nat) := hconsumer
    have hlt := Nat.mod_lt (position s.popped) g.messageSize_pos
    rw [hoffset, h.header.messageSize]
    lia
  written := by
    intro buf messageSize writerHead nextWriterHead copied hpc
    exact h.written_inRegion hregion hpc
  read := by
    intro size readerTail buf hpc
    exact h.read_inRegion hregion hpc
  apart := by
    intro i j hi hj
    rcases h.writing_eq hi with ⟨hwrite, hfree⟩
    rcases h.reading_eq hj with ⟨hread, hlt⟩
    intro hsame
    rw [hwrite, hread] at hsame
    have hcounts := eq_of_mod_eq (Nat.le_of_lt hlt) (by lia)
      (Int.natCast_inj.mp hsame).symm
    lia

end PollIndices

/-!
# Every interleaving
-/

/-- A `pop` whose sum wraps leaves its slot as soon as it finds a message. -/
theorem overrun_of_wrap {g : Geometry} {header : SpscQueueHeader} {s : PollState}
    {shmSize size : Nat} {last : Option Receipt} (hs : PollIndices g s)
    (hshm : shmSize < 2 ^ 31) (hidle : s.consumer = .idle last)
    (hmessage : s.queue.header.tail ≠ s.queue.header.head) (hsize : size < 2 ^ 64)
    (hwrap : ¬ NoWrap s (.pop size)) :
    exists s', (pollSystem header).execute s
        [.pop size, .consumer, .consumer, .consumer, .consumer] = some s' ∧
      ¬ Separated shmSize s' := by
  have hconsumer := hs.consumer
  rw [hidle] at hconsumer
  have hoffset : s.queue.header.messageOffset =
      (position s.popped % g.messageSize : Nat) := hconsumer
  have hmod := Nat.mod_lt (position s.popped) g.messageSize_pos
  have hlarge : 2 ^ 64 ≤ size + position s.popped % g.messageSize := by
    have hsum : ¬ (size + s.queue.header.messageOffset < 2 ^ 64) := hwrap
    lia
  have hclamp : clampSize s.queue.header.messageSize s.queue.header.messageOffset size =
      size := by
    rw [hs.header.messageSize, hoffset]
    exact clampSize_overrun hmod hsize hlarge
  have hruns := hs.header.running
  refine ⟨{ s with consumer := .copying size s.queue.header.tail [] }, ?_, ?_⟩
  · simp [TransitionSystem.execute, pollSystem, pollNext, popStep, hidle, hclamp, hruns,
      hmessage]
  · intro hseparated
    have hread := (hseparated.read size s.queue.header.tail [] rfl).right
    have hmessageSize := g.messageSize_lt
    have haddress : 0 ≤ popAddress s.queue.header s.queue.header.tail := by
      unfold popAddress
      rw [hoffset]
      lia
    have hend : popAddress s.queue.header s.queue.header.tail + size ≤ shmSize := hread
    lia

/--
In every interleaving of a producer and a consumer, whatever they send and
however much they ask for, the indices, the message offset and both copies stay
in their bounds, and the two copies are in different slots, as long as no `pop`
asks for so much that the sum with the message offset wraps.  The next `pop` that
does leaves its slot.
-/
theorem poll_slots_separated {shmSize messageSize : Nat} {header : SpscQueueHeader}
    {usable : Int} {s : PollState}
    (hmessage : 1 ≤ messageSize) (hshm : shmSize < 2 ^ 31)
    (hguard : messageSize + sizeofSpscQueueHeader < 2 ^ 64)
    (hcreate : queueCreate shmSize messageSize = .ok (header, usable))
    (hs : (pollSystem header).ReachableUnder NoWrap s) :
    Separated shmSize s ∧
      forall last size, s.consumer = .idle last ->
        s.queue.header.tail ≠ s.queue.header.head -> size < 2 ^ 64 ->
        ¬ NoWrap s (.pop size) ->
        exists s', (pollSystem header).execute s
            [.pop size, .consumer, .consumer, .consumer, .consumer] = some s' ∧
          ¬ Separated shmSize s' := by
  rcases createHeader_ok hcreate with ⟨n, hsizes, hheader⟩
  rcases exists_geometry hmessage hguard hshm hsizes with
    ⟨g, hheaderSize, hsize, hqueue, hregion⟩
  rw [hheaderSize] at hregion
  subst hsize
  have hindices : PollIndices g s := by
    refine TransitionSystem.reachableUnder_invariant ?_ ?_ hs
    · intro start hstart
      rcases hstart with ⟨mem, rfl⟩
      apply pollStart_indices mem hcreate
      rw [hheader]
      exact hqueue
    · intro t l t' ht hl hnext
      exact pollNext_indices ht hl hnext
  constructor
  · exact hindices.separated hregion
  · intro last size hidle hmessages hbound hwrap
    exact overrun_of_wrap hindices hshm hidle hmessages hbound hwrap

def threeSlotHeader : SpscQueueHeader where
  head := 0
  tail := 0
  messageSize := 4
  messageOffset := 0
  queueSize := 3
  currentCount := 0
  totalCount := 0
  stopProducerPolling := false
  stopConsumerPolling := false

/-- A short message, a `pop` that is reading it, and a `push` that is writing the
next one. -/
def bothCopyingLabels : List PollLabel :=
  .push [1, 2] :: List.replicate 6 .producer ++
    (.pop 3 :: List.replicate 5 .consumer) ++
    (.push [5, 6, 7, 8] :: List.replicate 4 .producer)

instance (s : PollState) (l : PollLabel) : Decidable (NoWrap s l) :=
  match l with
  | .pop size =>
      inferInstanceAs (Decidable (size + s.queue.header.messageOffset < 2 ^ 64))
  | .push _ => .isTrue trivial
  | .producer => .isTrue trivial
  | .consumer => .isTrue trivial

theorem poll_slots_separated_bothCopying :
    exists s : PollState,
      s.producer.writing = some 1 ∧ s.consumer.reading s.queue.header = some 0 ∧
        Separated 52 s := by
  let start := pollStart threeSlotHeader (fun _ => 0)
  have hsome : ((pollSystem threeSlotHeader).executeChecked
      (fun s l => decide (NoWrap s l)) start bothCopyingLabels).map
        (fun s => (s.producer.writing, s.consumer.reading s.queue.header)) =
          some (some 1, some 0) := by decide +kernel
  rcases Option.map_eq_some_iff.mp hsome with ⟨s, hexec, hslots⟩
  have hreachable : (pollSystem threeSlotHeader).ReachableUnder NoWrap s :=
    TransitionSystem.reachableUnder_of_executeChecked
      (fun _ _ hcheck => of_decide_eq_true hcheck) ⟨_, rfl⟩ hexec
  have hcreate : queueCreate 52 4 = .ok (threeSlotHeader, 52) := by rfl
  injection hslots with hwriting hreading
  exact ⟨s, hwriting, hreading, (poll_slots_separated (by decide) (by decide)
    (by decide) hcreate hreachable).left⟩

def SizeT : PollLabel -> Prop
  | .pop size => size < 2 ^ 64
  | _ => True

instance (l : PollLabel) : Decidable (SizeT l) :=
  match l with
  | .pop size => inferInstanceAs (Decidable (size < 2 ^ 64))
  | .push _ => .isTrue trivial
  | .producer => .isTrue trivial
  | .consumer => .isTrue trivial

/-- After three bytes of a message, a `pop` asks for as much as a `size_t` can hold. -/
def overrunLabels : List PollLabel :=
  .push [1, 2, 3, 4] :: List.replicate 8 .producer ++
    (.pop 3 :: List.replicate 10 .consumer) ++
    (.pop (2 ^ 64 - 1) :: List.replicate 4 .consumer)

def copiesOutside (shmSize : Nat) (s : PollState) : Bool :=
  match s.consumer with
  | .copying size readerTail _ =>
      decide (shmSize < popAddress s.queue.header readerTail + size)
  | _ => false

theorem not_separated_of_copiesOutside {shmSize : Nat} {s : PollState}
    (h : copiesOutside shmSize s = true) : ¬ Separated shmSize s := by
  intro hseparated
  unfold copiesOutside at h
  split at h
  · rename_i size readerTail buf hpc
    have hread := (hseparated.read size readerTail buf hpc).right
    exact absurd hread (not_le.mpr (of_decide_eq_true h))
  · cases h

theorem poll_pop_overruns :
    ¬ forall (shmSize messageSize : Nat) (header : SpscQueueHeader) (usable : Int)
      (s : PollState), 1 ≤ messageSize -> shmSize < 2 ^ 31 ->
        messageSize + sizeofSpscQueueHeader < 2 ^ 64 ->
        queueCreate shmSize messageSize = .ok (header, usable) ->
        (pollSystem header).ReachableUnder (fun _ l => SizeT l) s ->
        Separated shmSize s := by
  intro hclaim
  let start := pollStart threeSlotHeader (fun _ => 0)
  have hsome : ((pollSystem threeSlotHeader).execute start overrunLabels).map
      (copiesOutside 52) = some true := by decide +kernel
  rcases Option.map_eq_some_iff.mp hsome with ⟨s, hexec, houtside⟩
  have hallowed : forall l, l ∈ overrunLabels -> SizeT l := by decide
  have hcreate : queueCreate 52 4 = .ok (threeSlotHeader, 52) := by rfl
  have hreachable : (pollSystem threeSlotHeader).ReachableUnder (fun _ l => SizeT l) s :=
    TransitionSystem.reachableUnder_of_execute ⟨_, rfl⟩ hexec hallowed
  exact not_separated_of_copiesOutside houtside
    (hclaim 52 4 threeSlotHeader 52 s (by decide) (by decide) (by decide) hcreate
      hreachable)

end Queue
end Notnets
