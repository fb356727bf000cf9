import Notnets.Queue.PollInvariant

/-!
# The POLL queue is a message stream

With full-size messages the slots hold exactly the visible messages that are
not yet completely read.  The producer writes only into the free slot after
them, so the bytes that `pop` copies are bytes of one message, in order.
-/

namespace Notnets
namespace Queue

open Foundation

/-- Full-size messages, and positive buffer sizes that do not wrap. -/
def FullSizeTraffic (messageSize : Nat) : PollLabel -> Prop
  | .push buf => buf.length = messageSize
  | .pop size => 0 < size ∧ size + messageSize < 2 ^ 64
  | _ => True

instance (messageSize : Nat) (l : PollLabel) :
    Decidable (FullSizeTraffic messageSize l) :=
  match l with
  | .push buf => inferInstanceAs (Decidable (buf.length = messageSize))
  | .pop size =>
      inferInstanceAs (Decidable (0 < size ∧ size + messageSize < 2 ^ 64))
  | .producer => .isTrue trivial
  | .consumer => .isTrue trivial

theorem noWrap_of_fullSize {g : Geometry} {s : PollState} {l : PollLabel}
    (hs : PollIndices g s) (h : FullSizeTraffic g.messageSize l) : NoWrap s l := by
  cases l with
  | pop size =>
      have hoffset := hs.messageOffset_le
      have hfits := h.right
      show size + s.queue.header.messageOffset < 2 ^ 64
      lia
  | push buf => trivial
  | producer => trivial
  | consumer => trivial

/-- The message of a running `push`, and the part of it already copied. -/
def ProducerHolds (g : Geometry) (mem : ByteMemory) (pushed : Nat) :
    PushPc -> Prop
  | .idle _ => True
  | .entered buf => buf.length = g.messageSize
  | .sized buf _ => buf.length = g.messageSize
  | .polling buf _ _ _ => buf.length = g.messageSize
  | .copying buf _ _ _ copied =>
      buf.length = g.messageSize ∧
        HoldsAt mem
          (slotAddress sizeofSpscQueueHeader g.messageSize (pushed % g.queueSize))
          (buf.take copied)

/-- The bytes a running `pop` has copied are a piece of the next message. -/
def ConsumerHolds (g : Geometry) (pushed : List (List Byte)) (start : Nat) :
    PopPc -> Prop
  | .idle _ => True
  | .entered size => 0 < size
  | .clamped size => 0 < size
  | .running size => 0 < size
  | .polling size _ => 0 < size
  | .copying size _ buf =>
      0 < size ∧ exists message, pushed[start / g.messageSize]? = some message ∧
        buf = (message.drop (start % g.messageSize)).take buf.length
  | .advanced _ _ buf =>
      0 < buf.length ∧
        exists message, pushed[start / g.messageSize]? = some message ∧
          buf = (message.drop (start % g.messageSize)).take buf.length
  | .finishing _ read buf => DeliversAt g.messageSize pushed start ⟨buf, read⟩

structure PollContents (g : Geometry) (s : PollState) : Prop where
  uniform : forall message, message ∈ s.pushed -> message.length = g.messageSize
  ring : RingHolds sizeofSpscQueueHeader g.messageSize g.queueSize s.queue.mem
    s.pushed (position s.popped / g.messageSize)
  producer : ProducerHolds g s.queue.mem s.pushed.length s.producer
  consumer : ConsumerHolds g s.pushed (position s.popped) s.consumer
  log : Delivered g.messageSize s.pushed s.popped

/-!
# Addresses
-/

theorem pushAddress_eq_slotAddress (g : Geometry) (m : Nat) :
    pushAddress g.messageSize (m % g.queueSize : Nat) =
      slotAddress sizeofSpscQueueHeader g.messageSize (m % g.queueSize) := by
  unfold pushAddress slotAddress
  rw [g.toInt32_slot (Nat.mod_lt m g.queueSize_pos)]

theorem popAddress_eq_slotAddress {g : Geometry} {header : SpscQueueHeader}
    (hsize : header.messageSize = g.messageSize) (m : Nat) :
    popAddress header (m % g.queueSize : Nat) =
      slotAddress sizeofSpscQueueHeader g.messageSize (m % g.queueSize) +
        header.messageOffset := by
  unfold popAddress slotAddress
  rw [hsize, g.sizeMul_slot (Nat.mod_lt m g.queueSize_pos)]

theorem clampSize_pos {g : Geometry} {offset size : Nat}
    (hoffset : offset < g.messageSize) (hsum : size + offset < 2 ^ 64)
    (hpos : 0 < size) : 0 < clampSize g.messageSize (offset : Nat) size := by
  rw [clampSize_eq_min hoffset hsum]
  lia

/-!
# The other party
-/

theorem consumerHolds_append {g : Geometry} {pushed : List (List Byte)}
    {start : Nat} {pc : PopPc} (h : ConsumerHolds g pushed start pc)
    (more : List (List Byte)) : ConsumerHolds g (pushed ++ more) start pc := by
  cases pc with
  | copying size readerTail buf =>
      rcases h with ⟨hpos, message, hmessage, hbuf⟩
      exact ⟨hpos, message, getElem?_append_of_some hmessage more, hbuf⟩
  | advanced size readerTail buf =>
      rcases h with ⟨hpos, message, hmessage, hbuf⟩
      exact ⟨hpos, message, getElem?_append_of_some hmessage more, hbuf⟩
  | finishing nextReaderTail read buf => exact deliversAt_append h more
  | idle last => exact h
  | entered size => exact h
  | clamped size => exact h
  | running size => exact h
  | polling size readerTail => exact h

/-!
# One step of each call
-/

namespace PollContents

variable {g : Geometry} {s : PollState}

theorem quietPush (h : PollContents g s) {pc : PushPc}
    (hproducer : ProducerHolds g s.queue.mem s.pushed.length pc) :
    PollContents g (s.afterPush ⟨s.queue, pc, none⟩) := by
  simp only [PollState.afterPush, Option.toList_none, List.append_nil]
  exact ⟨h.uniform, h.ring, hproducer, h.consumer, h.log⟩

theorem updatePop (h : PollContents g s) {q : SpscQueue} (hmem : q.mem = s.queue.mem)
    {pc : PopPc} (hconsumer : ConsumerHolds g s.pushed (position s.popped) pc) :
    PollContents g (s.afterPop ⟨q, pc, none⟩) := by
  simp only [PollState.afterPop, Option.toList_none, List.append_nil]
  constructor
  · exact h.uniform
  · rw [hmem]
    exact h.ring
  · rw [hmem]
    exact h.producer
  · exact hconsumer
  · exact h.log

end PollContents

theorem pushStep_contents {g : Geometry} {s : PollState} {out : PushOutcome}
    (hi : PollIndices g s) (h : PollContents g s)
    (hout : pushStep s.queue s.producer = some out) :
    PollContents g (s.afterPush out) := by
  have hproducer := h.producer
  have hindex := hi.producer
  generalize s.producer = pc at hout hproducer hindex
  cases pushMove_of_step hout with
  | reject _ => exact h.quietPush trivial
  | enter _ => exact h.quietPush hproducer
  | load => exact h.quietPush hproducer
  | wait _ => exact h.quietPush hproducer
  | room _ => exact h.quietPush ⟨hproducer, holdsAt_nil _ _⟩
  | copy hbyte =>
      rcases hproducer with ⟨hlen, hheld⟩
      rcases hindex with ⟨_, hsize, hhead, _, hcopied, hfree⟩
      rcases List.getElem?_eq_some_iff.mp hbyte with ⟨hlt, hb⟩
      rw [hsize, hhead, pushAddress_eq_slotAddress]
      simp only [PollState.afterPush, Option.toList_none, List.append_nil]
      refine ⟨h.uniform, ?_, ⟨hlen, ?_⟩, h.consumer, h.log⟩
      · apply ringHolds_write h.ring hi.header.pushed_lt
        · intro message hmessage
          exact Nat.le_of_eq (h.uniform message hmessage)
        · lia
      · rw [← hb]
        exact holdsAt_write_next hlt hheld
  | @publish buf messageSize writerHead nextWriterHead copied hend =>
      rcases hproducer with ⟨hlen, hheld⟩
      rw [List.take_of_length_le (List.getElem?_eq_none_iff.mp hend)] at hheld
      simp only [PollState.afterPush, Option.toList_some]
      refine ⟨?_, ringHolds_append h.ring hheld, trivial,
        consumerHolds_append h.consumer [buf], delivered_append h.log [buf]⟩
      intro message hmessage
      rcases List.mem_append.mp hmessage with hold | hnew
      · exact h.uniform message hold
      · rw [List.mem_singleton.mp hnew]
        exact hlen

theorem popStep_contents {g : Geometry} {s : PollState} {out : PopOutcome}
    (hi : PollIndices g s) (h : PollContents g s)
    (hout : popStep s.queue s.consumer = some out) :
    PollContents g (s.afterPop out) := by
  have hconsumer := h.consumer
  have hindex := hi.consumer
  have hmod : position s.popped % g.messageSize < g.messageSize :=
    Nat.mod_lt _ g.messageSize_pos
  have hmessage := g.messageSize_lt
  generalize s.consumer = pc at hout hconsumer hindex
  cases popMove_of_step hout with
  | clamp =>
      rcases hindex with ⟨hoffset, hsize⟩
      apply h.updatePop rfl
      rw [hi.header.messageSize, hoffset]
      exact clampSize_pos hmod hsize hconsumer
  | stop hstop =>
      rw [hi.header.running] at hstop
      cases hstop
  | run _ => exact h.updatePop rfl hconsumer
  | load => exact h.updatePop rfl hconsumer
  | wait _ => exact h.updatePop rfl hconsumer
  | message hnonempty =>
      rcases hindex with ⟨_, _, htail⟩
      have hlt := hi.header.not_empty (by rw [← htail]; exact hnonempty)
      apply h.updatePop rfl
      exact ⟨hconsumer, _, List.getElem?_eq_getElem hlt, rfl⟩
  | @copy size readerTail buf hmore =>
      rcases hconsumer with ⟨hpos, message, hmem, hbuf⟩
      rcases hindex with ⟨hoffset, hsize, htail, _, hle⟩
      have hlength := h.uniform message (List.mem_of_getElem? hmem)
      have hheld := h.ring _ message (Nat.le_refl _) hmem
      have hread := take_succ_of_holdsAt hheld
        (by lia : position s.popped % g.messageSize + buf.length < message.length)
      apply h.updatePop rfl
      refine ⟨hpos, message, hmem, ?_⟩
      rw [htail, popAddress_eq_slotAddress hi.header.messageSize, hoffset,
        Int.add_assoc, ← Int.natCast_add, List.length_append,
        List.length_singleton, ← hread, ← hbuf]
  | advance hdone =>
      rcases hconsumer with ⟨hpos, message, hmem, hbuf⟩
      apply h.updatePop (SpscQueue.setMessageOffset_mem _ _)
      exact ⟨by lia, message, hmem, hbuf⟩
  | whole hwhole =>
      rcases hconsumer with ⟨hpos, message, hmem, hbuf⟩
      rcases hindex with ⟨hoffset, hfits, _, _, _⟩
      rw [hoffset, toSizeT_natCast (by lia), hi.header.messageSize] at hwhole
      apply h.updatePop (SpscQueue.setMessageOffset_mem _ _)
      exact ⟨message, hmem, hpos, hfits, hbuf, (if_pos hwhole).symm⟩
  | @part size readerTail buf hpart =>
      rcases hconsumer with ⟨hpos, message, hmem, hbuf⟩
      rcases hindex with ⟨hoffset, hfits, _, _, _⟩
      have hcast : toSizeT s.queue.header.messageOffset =
          position s.popped % g.messageSize + buf.length := by
        rw [hoffset, toSizeT_natCast (by lia)]
      rw [hcast, hi.header.messageSize] at hpart
      apply h.updatePop rfl
      exact ⟨message, hmem, hpos, hfits, hbuf, hcast.trans (if_neg hpart).symm⟩
  | @finish nextReaderTail read buf =>
      have hle : position s.popped / g.messageSize ≤
          (position s.popped + buf.length) / g.messageSize :=
        Nat.div_le_div_right (Nat.le_add_right _ _)
      simp only [PollState.afterPop, Option.toList_some]
      refine ⟨h.uniform, ?_, h.producer, trivial, Delivered.snoc h.log hconsumer⟩
      rw [position_snoc]
      exact ringHolds_advance h.ring hle

/-!
# Every interleaving
-/

def PollInvariant (g : Geometry) (s : PollState) : Prop :=
  PollIndices g s ∧ PollContents g s

theorem pollNext_invariant {g : Geometry} {s s' : PollState} {l : PollLabel}
    (hs : PollInvariant g s) (hl : FullSizeTraffic g.messageSize l)
    (h : pollNext s l = some s') : PollInvariant g s' := by
  rcases hs with ⟨hi, hc⟩
  refine ⟨pollNext_indices hi (noWrap_of_fullSize hi hl) h, ?_⟩
  rcases pollNext_cases h with
    ⟨buf, ret, rfl, _, rfl⟩ | ⟨out, _, hout, rfl⟩ | ⟨size, last, rfl, _, rfl⟩ |
      ⟨out, _, hout, rfl⟩
  · exact ⟨hc.uniform, hc.ring, hl, hc.consumer, hc.log⟩
  · exact pushStep_contents hi hc hout
  · exact ⟨hc.uniform, hc.ring, hc.producer, hl.left, hc.log⟩
  · exact popStep_contents hi hc hout

theorem pollStart_contents (g : Geometry) (header : SpscQueueHeader)
    (mem : ByteMemory) : PollContents g (pollStart header mem) := by
  refine ⟨?_, ?_, trivial, trivial, Delivered.nil⟩
  · intro message hmessage
    cases hmessage
  · simpa [pollStart] using ringHolds_empty _ _ _ mem

/--
In every interleaving, the bytes that completed calls of `pop` returned are a
prefix of the messages pushed, and each call returned a nonempty piece of one
message with the documented return code.
-/
theorem poll_queue_fifo {shmSize messageSize : Nat} {header : SpscQueueHeader}
    {usable : Int} {s : PollState}
    (hmessage : 1 ≤ messageSize) (hshm : shmSize < 2 ^ 31)
    (hguard : messageSize + sizeofSpscQueueHeader < 2 ^ 64)
    (hcreate : queueCreate shmSize messageSize = .ok (header, usable))
    (hs : (pollSystem header).ReachableUnder
      (fun _ l => FullSizeTraffic messageSize l) s) :
    received s.popped <+: s.pushed.flatten ∧
      forall before r after, s.popped = before ++ r :: after ->
        DeliversAt messageSize s.pushed (position before) r := by
  rcases createHeader_ok hcreate with ⟨n, hsizes, hheader⟩
  rcases exists_geometry hmessage hguard hshm hsizes with
    ⟨g, _, hsize, hqueue, _⟩
  subst hsize
  have hinv : PollInvariant g s := by
    refine TransitionSystem.reachableUnder_invariant ?_ ?_ hs
    · intro start hstart
      rcases hstart with ⟨mem, rfl⟩
      refine ⟨pollStart_indices mem hcreate ?_, pollStart_contents g header mem⟩
      rw [hheader]
      exact hqueue
    · intro t l t' ht hl hnext
      exact pollNext_invariant ht hl hnext
  exact ⟨received_prefix_of_delivered hinv.right.uniform hinv.right.log,
    delivered_split hinv.right.log⟩

def partialReadLabels : List PollLabel :=
  .push [1, 2, 3, 4] :: List.replicate 8 .producer ++
    (.pop 3 :: List.replicate 10 .consumer) ++
    (.pop 3 :: List.replicate 8 .consumer)

/-- The header of a ring of two slots of four bytes. -/
def twoSlotHeader : SpscQueueHeader where
  head := 0
  tail := 0
  messageSize := 4
  messageOffset := 0
  queueSize := 2
  currentCount := 0
  totalCount := 0
  stopProducerPolling := false
  stopConsumerPolling := false

theorem poll_queue_fifo_partialRead :
    exists s : PollState,
      s.popped = [⟨[1, 2, 3], 3⟩, ⟨[4], 0⟩] ∧
        received s.popped <+: s.pushed.flatten ∧
        forall before r after, s.popped = before ++ r :: after ->
          DeliversAt 4 s.pushed (position before) r := by
  let start := pollStart twoSlotHeader (fun _ => 0)
  have hsome : (((pollSystem twoSlotHeader).execute start
      partialReadLabels).map PollState.popped) =
        some [⟨[1, 2, 3], 3⟩, ⟨[4], 0⟩] := by decide +kernel
  rcases Option.map_eq_some_iff.mp hsome with ⟨s, hexec, hpopped⟩
  have hcreate : queueCreate 48 4 = .ok (twoSlotHeader, 48) := by rfl
  have hallowed : forall l, l ∈ partialReadLabels -> FullSizeTraffic 4 l := by
    decide
  exact ⟨s, hpopped, poll_queue_fifo (by decide) (by decide) (by decide) hcreate
    (TransitionSystem.reachableUnder_of_execute ⟨_, rfl⟩ hexec hallowed)⟩

end Queue
end Notnets
