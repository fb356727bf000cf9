import Notnets.Coord.Table
import Notnets.Queue.RingTransport
import Notnets.Queue.SemCall

/-!
# What a receive reports

Whatever sizes the calls before it had, a receive finds both indices inside the
ring and the message offset inside a message.  From there it is known what it
copies, stores and returns for every 64-bit buffer size.
-/

namespace Notnets
namespace Queue

open Foundation

/-!
# Ranges

A buffer size whose sum with the offset wraps moves the offset back, and never
out of the message.
-/

def InRing (g : Geometry) (index : Int) : Prop :=
  0 ≤ index ∧ index < g.queueSize

def InMessage (g : Geometry) (messageOffset : Int) : Prop :=
  0 ≤ messageOffset ∧ messageOffset < g.messageSize

def Copies (g : Geometry) (messageOffset : Int) (size : Nat) : Prop :=
  InMessage g messageOffset ∧
    (messageOffset + size ≤ g.messageSize ∨
      size < 2 ^ 64 ∧ 2 ^ 64 ≤ messageOffset + size)

structure HeaderInRange (g : Geometry) (header : SpscQueueHeader) : Prop where
  messageSize : header.messageSize = g.messageSize
  queueSize : header.queueSize = g.queueSize
  running : header.stopConsumerPolling = false
  head : InRing g header.head
  tail : InRing g header.tail

theorem HeaderInRange.setMessageOffset {g : Geometry} {q : SpscQueue}
    (h : HeaderInRange g q.header) (offset : Int) :
    HeaderInRange g (q.setMessageOffset offset).header :=
  ⟨h.messageSize, h.queueSize, h.running, h.head, h.tail⟩

section Range

variable {g : Geometry} {header : SpscQueueHeader} {index messageOffset : Int}
  {size : Nat}

theorem InRing.nextIndex (hindex : InRing g index)
    (hqueue : header.queueSize = g.queueSize) :
    InRing g (nextIndex header index) := by
  have hlt := g.queueSize_lt
  have hpos := g.queueSize_pos
  rcases hindex with ⟨hlow, hhigh⟩
  unfold Queue.nextIndex InRing
  rw [hqueue, toInt32_of_fits (by lia) (by lia)]
  by_cases hwrap : index + 1 = g.queueSize
  · rw [if_pos hwrap]
    lia
  · rw [if_neg hwrap]
    lia

theorem nextIndex_ne (hindex : InRing g index) (hother : InRing g header.head)
    (hne : index ≠ header.head) (hqueue : header.queueSize = g.queueSize) :
    nextIndex header index ≠ index := by
  have hlt := g.queueSize_lt
  rcases hindex with ⟨hlow, hhigh⟩
  rcases hother with ⟨hhead, hheadlt⟩
  unfold nextIndex
  rw [hqueue, toInt32_of_fits (by lia) (by lia)]
  by_cases hwrap : index + 1 = g.queueSize
  · rw [if_pos hwrap]
    lia
  · rw [if_neg hwrap]
    lia

theorem succ_eq_nextIndex (hindex : InRing g index)
    (hqueue : header.queueSize = g.queueSize) :
    succ index header.queueSize = nextIndex header index := by
  have hlt := g.queueSize_lt
  rcases hindex with ⟨hlow, hhigh⟩
  unfold succ nextIndex
  rw [hqueue, toInt32_of_fits (by lia) (by lia)]
  by_cases hwrap : index + 1 = g.queueSize
  · rw [if_pos hwrap, hwrap, Int.tmod_self]
  · rw [if_neg hwrap]
    exact Int.tmod_eq_of_lt (by lia) (by lia)

theorem copies_clampSize (hoffset : InMessage g messageOffset) (hsize : size < 2 ^ 64) :
    Copies g messageOffset (clampSize g.messageSize messageOffset size) := by
  rcases Int.eq_ofNat_of_zero_le hoffset.left with ⟨offset, rfl⟩
  have hlt : offset < g.messageSize := by
    have hhigh := hoffset.right
    lia
  refine ⟨hoffset, ?_⟩
  by_cases hsum : size + offset < 2 ^ 64
  · rw [clampSize_eq_min hlt hsum]
    lia
  · rw [clampSize_overrun hlt hsize (by lia)]
    lia

theorem advanceOffset_range (h : Copies g messageOffset size) :
    0 ≤ advanceOffset messageOffset size ∧
      advanceOffset messageOffset size ≤ g.messageSize := by
  have hmessage := g.messageSize_lt
  rcases h with ⟨⟨hlow, hhigh⟩, hcopied⟩
  rcases Int.eq_ofNat_of_zero_le hlow with ⟨offset, rfl⟩
  unfold advanceOffset sizeAdd
  rw [toSizeT_natCast (by lia)]
  rcases hcopied with hfits | ⟨hsize, hwrap⟩
  · rw [Nat.mod_eq_of_lt (by lia), toInt32_natCast (by lia)]
    lia
  · have hmod : (offset + size) % 2 ^ 64 = offset + size - 2 ^ 64 := by lia
    rw [hmod, toInt32_natCast (by lia)]
    lia

theorem inMessage_of_part (hlow : 0 ≤ messageOffset)
    (hhigh : messageOffset ≤ g.messageSize)
    (hpart : toSizeT messageOffset ≠ g.messageSize) : InMessage g messageOffset := by
  have hmessage := g.messageSize_lt
  rcases Int.eq_ofNat_of_zero_le hlow with ⟨offset, rfl⟩
  rw [toSizeT_natCast (by lia)] at hpart
  exact ⟨hlow, by lia⟩

end Range

/-!
# POLL
-/

/-- Buffer sizes of any 64 bits. -/
def SizedTraffic : PollLabel -> Prop
  | .pop size => size < 2 ^ 64
  | _ => True

instance (l : PollLabel) : Decidable (SizedTraffic l) :=
  match l with
  | .push _ => .isTrue trivial
  | .producer => .isTrue trivial
  | .pop size => inferInstanceAs (Decidable (size < 2 ^ 64))
  | .consumer => .isTrue trivial

def ProducerInRange (g : Geometry) : PushPc -> Prop
  | .polling _ _ _ nextWriterHead | .copying _ _ _ nextWriterHead _ =>
      InRing g nextWriterHead
  | _ => True

def ConsumerInRange (g : Geometry) (messageOffset : Int) : PopPc -> Prop
  | .idle _ => InMessage g messageOffset
  | .entered size => InMessage g messageOffset ∧ size < 2 ^ 64
  | .clamped size | .running size => Copies g messageOffset size
  | .polling size readerTail | .copying size readerTail _ =>
      Copies g messageOffset size ∧ InRing g readerTail
  | .advanced _ readerTail _ =>
      (0 ≤ messageOffset ∧ messageOffset ≤ g.messageSize) ∧ InRing g readerTail
  | .finishing nextReaderTail _ _ =>
      InMessage g messageOffset ∧ InRing g nextReaderTail

structure PollInRange (g : Geometry) (s : PollState) : Prop where
  header : HeaderInRange g s.queue.header
  producer : ProducerInRange g s.producer
  consumer : ConsumerInRange g s.queue.header.messageOffset s.consumer

section Poll

variable {g : Geometry} {s s' : PollState}

theorem pushStep_inRange {out : PushOutcome} (h : PollInRange g s)
    (hout : pushStep s.queue s.producer = some out) :
    PollInRange g (s.afterPush out) := by
  rcases h with ⟨hheader, hproducer, hconsumer⟩
  generalize s.producer = pc at hout hproducer
  cases pushMove_of_step hout with
  | reject _ => exact ⟨hheader, trivial, hconsumer⟩
  | enter _ => exact ⟨hheader, trivial, hconsumer⟩
  | load => exact ⟨hheader, hheader.head.nextIndex hheader.queueSize, hconsumer⟩
  | wait _ => exact ⟨hheader, hproducer, hconsumer⟩
  | room _ => exact ⟨hheader, hproducer, hconsumer⟩
  | copy _ => exact ⟨hheader, hproducer, hconsumer⟩
  | publish _ =>
      exact ⟨⟨hheader.messageSize, hheader.queueSize, hheader.running, hproducer,
        hheader.tail⟩, trivial, hconsumer⟩

theorem PollInRange.advanced {size : Nat} {readerTail offset : Int} {buf : List Byte}
    (hheader : HeaderInRange g s.queue.header) (hproducer : ProducerInRange g s.producer)
    (hoffset : 0 ≤ offset ∧ offset ≤ g.messageSize) (htail : InRing g readerTail) :
    PollInRange g (s.afterPop ⟨s.queue.setMessageOffset offset,
      .advanced size readerTail buf, none⟩) :=
  ⟨hheader.setMessageOffset offset, hproducer, hoffset, htail⟩

theorem popStep_inRange {out : PopOutcome} (h : PollInRange g s)
    (hout : popStep s.queue s.consumer = some out) : PollInRange g (s.afterPop out) := by
  rcases h with ⟨hheader, hproducer, hconsumer⟩
  generalize s.consumer = pc at hout hconsumer
  cases popMove_of_step hout with
  | clamp =>
      have hcopies := copies_clampSize hconsumer.left hconsumer.right
      rw [← hheader.messageSize] at hcopies
      exact ⟨hheader, hproducer, hcopies⟩
  | stop hstop =>
      rw [hheader.running] at hstop
      cases hstop
  | run _ => exact ⟨hheader, hproducer, hconsumer⟩
  | load => exact ⟨hheader, hproducer, hconsumer, hheader.tail⟩
  | wait _ => exact ⟨hheader, hproducer, hconsumer⟩
  | message _ => exact ⟨hheader, hproducer, hconsumer⟩
  | copy _ => exact ⟨hheader, hproducer, hconsumer⟩
  | advance _ =>
      have hrange := advanceOffset_range hconsumer.left
      exact PollInRange.advanced hheader hproducer hrange hconsumer.right
  | whole _ =>
      exact ⟨hheader.setMessageOffset 0, hproducer,
        ⟨le_rfl, Int.natCast_pos.mpr g.messageSize_pos⟩,
        hconsumer.right.nextIndex hheader.queueSize⟩
  | part hpart =>
      rcases hconsumer with ⟨⟨hlow, hhigh⟩, htail⟩
      rw [hheader.messageSize] at hpart
      exact ⟨hheader, hproducer, inMessage_of_part hlow hhigh hpart, htail⟩
  | finish =>
      exact ⟨⟨hheader.messageSize, hheader.queueSize, hheader.running, hheader.head,
        hconsumer.right⟩, hproducer, hconsumer.left⟩

theorem pollNext_inRange {l : PollLabel} (hs : PollInRange g s) (hl : SizedTraffic l)
    (h : pollNext s l = some s') : PollInRange g s' := by
  rcases pollNext_cases h with
    ⟨buf, ret, _, _, rfl⟩ | ⟨out, _, hout, rfl⟩ | ⟨size, last, rfl, hpc, rfl⟩ |
      ⟨out, _, hout, rfl⟩
  · exact ⟨hs.header, trivial, hs.consumer⟩
  · exact pushStep_inRange hs hout
  · have hidle := hs.consumer
    rw [hpc] at hidle
    exact ⟨hs.header, hs.producer, hidle, hl⟩
  · exact popStep_inRange hs hout

end Poll

/-!
# SEM
-/

/-- Buffer sizes of any 64 bits; every `semop` may fail. -/
def SemSizedTraffic : SemLabel -> Prop
  | .pop size => size < 2 ^ 64
  | _ => True

instance (l : SemLabel) : Decidable (SemSizedTraffic l) :=
  match l with
  | .push _ => .isTrue trivial
  | .producer _ => .isTrue trivial
  | .pop size => inferInstanceAs (Decidable (size < 2 ^ 64))
  | .consumer _ => .isTrue trivial

def SemConsumerInRange (g : Geometry) (messageOffset : Int) : SemPopPc -> Prop
  | .idle _ | .returning _ _ | .unlocking _ _ | .posting _ => InMessage g messageOffset
  | .entered size | .locking size | .sampling size | .testing size _
  | .releasing size _ | .retesting size _ | .waiting size _ | .relocking size _
  | .clamping size _ => InMessage g messageOffset ∧ size < 2 ^ 64
  | .copying size _ _ => Copies g messageOffset size
  | .advanced _ _ => 0 ≤ messageOffset ∧ messageOffset ≤ g.messageSize
  | .retiring _ _ | .counting _ _ | .counted _ _ _ | .resetting _ _ => True

structure SemInRange (g : Geometry) (s : SemState) : Prop where
  header : HeaderInRange g s.queue.header
  consumer : SemConsumerInRange g s.queue.header.messageOffset s.consumer

section Sem

variable {g : Geometry} {q : SpscQueue} {values : Semaphore -> Nat} {ok : Bool}
  {s s' : SemState}

theorem InRing.succ {index : Int} {header : SpscQueueHeader} (hindex : InRing g index)
    (hqueue : header.queueSize = g.queueSize) :
    InRing g (succ index header.queueSize) := by
  rw [succ_eq_nextIndex hindex hqueue]
  exact hindex.nextIndex hqueue

theorem semPushStep_header {pc : SemPushPc} {out : SemPushOutcome}
    (hq : HeaderInRange g q.header) (hout : semPushStep q values ok pc = some out) :
    HeaderInRange g out.queue.header ∧
      out.queue.header.messageOffset = q.header.messageOffset := by
  cases semPushMove_of_step hout with
  | store => exact ⟨⟨hq.messageSize, hq.queueSize, hq.running, hq.head, hq.tail⟩, rfl⟩
  | total => exact ⟨⟨hq.messageSize, hq.queueSize, hq.running, hq.head, hq.tail⟩, rfl⟩
  | publish =>
      exact ⟨⟨hq.messageSize, hq.queueSize, hq.running, hq.head.succ hq.queueSize,
        hq.tail⟩, rfl⟩
  | _ => exact ⟨hq, rfl⟩

theorem advanced_inRange {offset : Int} {buf : List Byte} {wasFull : Bool}
    (hq : HeaderInRange g q.header) (hoffset : 0 ≤ offset ∧ offset ≤ g.messageSize) :
    HeaderInRange g (q.setMessageOffset offset).header ∧
      SemConsumerInRange g (q.setMessageOffset offset).header.messageOffset
        (.advanced buf wasFull) :=
  ⟨hq.setMessageOffset offset, hoffset⟩

theorem semPopStep_inRange {pc : SemPopPc} {out : SemPopOutcome}
    (hq : HeaderInRange g q.header)
    (hpc : SemConsumerInRange g q.header.messageOffset pc)
    (hout : semPopStep q values ok pc = some out) :
    HeaderInRange g out.queue.header ∧
      SemConsumerInRange g out.queue.header.messageOffset out.pc := by
  cases semPopMove_of_step hout with
  | stop hstop =>
      rw [hq.running] at hstop
      cases hstop
  | clamp =>
      have hcopies := copies_clampSize hpc.left hpc.right
      rw [← hq.messageSize] at hcopies
      exact ⟨hq, hcopies⟩
  | advance _ => exact advanced_inRange hq (advanceOffset_range hpc)
  | whole _ => exact ⟨hq, trivial⟩
  | part hpart =>
      rw [hq.messageSize] at hpart
      exact ⟨hq, inMessage_of_part hpc.left hpc.right hpart⟩
  | retire =>
      exact ⟨⟨hq.messageSize, hq.queueSize, hq.running, hq.head,
        hq.tail.succ hq.queueSize⟩, trivial⟩
  | store => exact ⟨⟨hq.messageSize, hq.queueSize, hq.running, hq.head, hq.tail⟩, trivial⟩
  | reset =>
      exact ⟨hq.setMessageOffset 0, le_rfl, Int.natCast_pos.mpr g.messageSize_pos⟩
  | _ => exact ⟨hq, hpc⟩

theorem semNext_inRange {l : SemLabel} (hs : SemInRange g s) (hl : SemSizedTraffic l)
    (h : semNext s l = some s') : SemInRange g s' := by
  rcases semNext_cases h with
    ⟨buf, ret, _, _, rfl⟩ | ⟨ok, out, _, hout, rfl⟩ | ⟨size, last, rfl, hpc, rfl⟩ |
      ⟨ok, out, _, hout, rfl⟩
  · exact ⟨hs.header, hs.consumer⟩
  · rcases semPushStep_header hs.header hout with ⟨hheader, hoffset⟩
    have hconsumer := hs.consumer
    rw [← hoffset] at hconsumer
    exact ⟨hheader, hconsumer⟩
  · have hidle := hs.consumer
    rw [hpc] at hidle
    exact ⟨hs.header, hidle, hl⟩
  · rcases semPopStep_inRange hs.header hs.consumer hout with ⟨hheader, hconsumer⟩
    exact ⟨hheader, hconsumer⟩

end Sem

/-!
# Truthful receives
-/

/-- What the documentation says of a receive from a queue that holds a message:
it takes as much of the message as fits, moves the offset by that much, and
returns zero exactly when it removed the message. -/
structure Truthful (q q' : SpscQueue) (address : Int) (size : Nat) (reply : PopReply) :
    Prop where
  size : (reply.size : Int) =
    min (size : Int) (q.header.messageSize - q.header.messageOffset)
  bytes : reply.receipt.bytes = load q.mem address reply.size
  offset : q'.header.messageOffset =
    (q.header.messageOffset + reply.size) % q.header.messageSize
  code : reply.receipt.ret = 0 <-> q'.header.tail ≠ q.header.tail

section Truth

variable {g : Geometry} {q q' : SpscQueue} {address : Int} {offset size n : Nat}
  {reply : PopReply}

theorem truthful_of_end (hsize : q.header.messageSize = g.messageSize)
    (hoffset : q.header.messageOffset = offset)
    (hn : n = min size (g.messageSize - offset))
    (hend : offset + n = g.messageSize) (hmoved : q'.header.messageOffset = 0)
    (hremoved : q'.header.tail ≠ q.header.tail) :
    Truthful q q' address size ⟨n, load q.mem address n, 0⟩ := by
  refine ⟨?_, rfl, ?_, ?_⟩
  · rw [hsize, hoffset]
    show (n : Int) = _
    lia
  · rw [hsize, hoffset, hmoved]
    show (0 : Int) = ((offset : Int) + (n : Int)) % (g.messageSize : Int)
    rw [← Nat.cast_add, hend, Int.emod_self]
  · exact ⟨fun _ => hremoved, fun _ => rfl⟩

theorem truthful_of_part (hsize : q.header.messageSize = g.messageSize)
    (hoffset : q.header.messageOffset = offset)
    (hn : n = min size (g.messageSize - offset)) (hpart : offset + n < g.messageSize)
    (hmoved : q'.header.messageOffset = (offset + n : Nat))
    (hstays : q'.header.tail = q.header.tail) :
    Truthful q q' address size ⟨n, load q.mem address n, offset + n⟩ <->
      ¬ (size = 0 ∧ offset = 0) := by
  constructor
  · intro h hzero
    have hcode := h.code.mp (show offset + n = 0 by lia)
    exact hcode hstays
  · intro hne
    refine ⟨?_, rfl, ?_, ?_⟩
    · rw [hsize, hoffset]
      show (n : Int) = _
      lia
    · rw [hsize, hoffset, hmoved]
      show ((offset + n : Nat) : Int) =
        ((offset : Int) + (n : Int)) % (g.messageSize : Int)
      rw [← Nat.cast_add]
      exact (Int.emod_eq_of_lt (by lia) (by lia)).symm
    · constructor
      · intro hzero
        have hnone : offset + n = 0 := hzero
        exact absurd (by lia) hne
      · intro hremoved
        exact absurd hstays hremoved

/-- A size whose sum wraps is copied whole, far beyond the message. -/
theorem not_truthful_of_overrun (hsize : q.header.messageSize = g.messageSize)
    (hoffset : q.header.messageOffset = offset) (hwrap : 2 ^ 64 ≤ size + offset)
    (hcopied : reply.size = size) : ¬ Truthful q q' address size reply := by
  intro h
  have hmessage := g.messageSize_lt
  have hcount := h.size
  rw [hsize, hoffset, hcopied] at hcount
  lia

theorem advanceOffset_piece (hoffset : q.header.messageOffset = offset)
    (hfits : offset + n ≤ g.messageSize) :
    advanceOffset q.header.messageOffset n = (offset + n : Nat) ∧
      toSizeT (advanceOffset q.header.messageOffset n) = offset + n := by
  have hmessage := g.messageSize_lt
  have hadvance : advanceOffset q.header.messageOffset n = (offset + n : Nat) := by
    rw [hoffset]
    exact advanceOffset_of_fits hfits
  refine ⟨hadvance, ?_⟩
  rw [hadvance]
  exact toSizeT_natCast (by lia)

theorem popMessage_truthful_iff (hheader : HeaderInRange g q.header)
    (hoffset : q.header.messageOffset = offset) (hoff : offset < g.messageSize)
    (hmessage : q.header.tail ≠ q.header.head)
    (hn : n = min size (g.messageSize - offset)) :
    Truthful q (popMessage q q.header.tail n).1 (popAddress q.header q.header.tail) size
        (popMessage q q.header.tail n).2 <->
      ¬ (size = 0 ∧ offset = 0) := by
  rcases @advanceOffset_piece g q offset n hoffset (by lia) with ⟨hadvance, hcast⟩
  by_cases hend : offset + n = g.messageSize
  · have hdone : toSizeT (advanceOffset q.header.messageOffset n) =
        q.header.messageSize := by
      rw [hcast, hheader.messageSize, hend]
    have hnext : nextIndex q.header q.header.tail ≠ q.header.tail :=
      nextIndex_ne hheader.tail hheader.head hmessage hheader.queueSize
    rw [popMessage_of_end q.header.tail hdone]
    exact iff_of_true (truthful_of_end hheader.messageSize hoffset hn hend rfl hnext)
      (by lia)
  · have hmore : toSizeT (advanceOffset q.header.messageOffset n) ≠
        q.header.messageSize := by
      rw [hcast, hheader.messageSize]
      exact hend
    rw [popMessage_of_part q.header.tail hmore, hcast, hadvance]
    exact truthful_of_part hheader.messageSize hoffset hn (by lia) rfl rfl

theorem pop_truthful_iff (hheader : HeaderInRange g q.header)
    (hin : InMessage g q.header.messageOffset) (hmessage : q.header.tail ≠ q.header.head)
    (hbound : size < 2 ^ 64) :
    exists q' reply, pop q size = some (q', reply) ∧
      (Truthful q q' (popAddress q.header q.header.tail) size reply <->
        q.header.messageOffset + size < 2 ^ 64 ∧
          ¬ (size = 0 ∧ q.header.messageOffset = 0)) := by
  rcases Int.eq_ofNat_of_zero_le hin.left with ⟨offset, hoffset⟩
  have hoff : offset < g.messageSize := by
    have hhigh := hin.right
    lia
  have hpop := @pop_nonempty q size hheader.running hmessage
  rw [hheader.messageSize, hoffset] at hpop
  refine ⟨_, _, hpop.trans (congrArg some Prod.mk.eta.symm), ?_⟩
  by_cases hsum : size + offset < 2 ^ 64
  · rw [clampSize_eq_min hoff hsum,
      popMessage_truthful_iff hheader hoffset hoff hmessage rfl, hoffset]
    lia
  · rw [clampSize_overrun hoff hbound (by lia), hoffset]
    exact iff_of_false (not_truthful_of_overrun hheader.messageSize hoffset (by lia)
      (popMessage_size q q.header.tail size)) (by lia)

theorem dequeue_truthful_iff (hheader : HeaderInRange g q.header)
    (hoffset : q.header.messageOffset = offset) (hoff : offset < g.messageSize)
    (hmessage : q.header.tail ≠ q.header.head) (hsum : size + offset < 2 ^ 64) :
    Truthful q (dequeue q size).1 (dequeueAddress q.header) size (dequeue q size).2 <->
      ¬ (size = 0 ∧ offset = 0) := by
  have hclamp : clampSize q.header.messageSize q.header.messageOffset size =
      min size (g.messageSize - offset) := by
    rw [hheader.messageSize, hoffset]
    exact clampSize_eq_min hoff hsum
  rcases @advanceOffset_piece g q offset (min size (g.messageSize - offset)) hoffset
    (by lia) with ⟨hadvance, hcast⟩
  by_cases hend : offset + min size (g.messageSize - offset) = g.messageSize
  · have hdone : toSizeT (advanceOffset q.header.messageOffset
        (min size (g.messageSize - offset))) = q.header.messageSize := by
      rw [hcast, hheader.messageSize, hend]
    have hnext : succ q.header.tail q.header.queueSize ≠ q.header.tail := by
      rw [succ_eq_nextIndex hheader.tail hheader.queueSize]
      exact nextIndex_ne hheader.tail hheader.head hmessage hheader.queueSize
    rw [dequeue_of_end hclamp hdone]
    exact iff_of_true (truthful_of_end hheader.messageSize hoffset rfl hend rfl hnext)
      (by lia)
  · have hmore : toSizeT (advanceOffset q.header.messageOffset
        (min size (g.messageSize - offset))) ≠ q.header.messageSize := by
      rw [hcast, hheader.messageSize]
      exact hend
    rw [dequeue_of_part hclamp hmore, hcast, hadvance]
    exact truthful_of_part hheader.messageSize hoffset rfl (by lia) rfl rfl

theorem exists_semReply {result : Option (SemQueue × PopReply)}
    {values : Semaphore -> Nat} {P : SpscQueue -> PopReply -> Prop}
    (h : result = some (⟨q', values⟩, reply)) (hP : P q' reply) :
    exists s' reply, result = some (s', reply) ∧ P s'.queue reply :=
  ⟨⟨q', values⟩, reply, h, hP⟩

theorem semPop_truthful_iff {s : SemQueue} (hheader : HeaderInRange g s.queue.header)
    (hin : InMessage g s.queue.header.messageOffset)
    (hmessage : s.queue.header.tail ≠ s.queue.header.head) (hlock : s.values .lock ≠ 0)
    (hbound : size < 2 ^ 64) :
    exists s' reply, semPop s size = some (s', reply) ∧
      (Truthful s.queue s'.queue (dequeueAddress s.queue.header) size reply <->
        s.queue.header.messageOffset + size < 2 ^ 64 ∧
          ¬ (size = 0 ∧ s.queue.header.messageOffset = 0)) := by
  rcases Int.eq_ofNat_of_zero_le hin.left with ⟨offset, hoffset⟩
  have hoff : offset < g.messageSize := by
    have hhigh := hin.right
    lia
  have hnonempty : ¬ (s.queue.header.queueSize = 0 ∨ isEmpty s.queue.header) := by
    have hpos := g.queueSize_pos
    rw [hheader.queueSize]
    intro hcases
    rcases hcases with hzero | hempty
    · lia
    · exact hmessage (decide_eq_true_iff.mp hempty).symm
  have htruth : Truthful s.queue (dequeue s.queue size).1 (dequeueAddress s.queue.header)
      size (dequeue s.queue size).2 <->
        s.queue.header.messageOffset + size < 2 ^ 64 ∧
          ¬ (size = 0 ∧ s.queue.header.messageOffset = 0) := by
    rw [hoffset]
    by_cases hsum : size + offset < 2 ^ 64
    · rw [dequeue_truthful_iff hheader hoffset hoff hmessage hsum]
      lia
    · have hcopied : (dequeue s.queue size).2.size = size := by
        rw [dequeue_size, hheader.messageSize, hoffset]
        exact clampSize_overrun hoff hbound (by lia)
      exact iff_of_false
        (not_truthful_of_overrun hheader.messageSize hoffset (by lia) hcopied) (by lia)
  exact exists_semReply
    (P := fun q' reply => Truthful s.queue q' (dequeueAddress s.queue.header) size reply <->
      s.queue.header.messageOffset + size < 2 ^ 64 ∧
        ¬ (size = 0 ∧ s.queue.header.messageOffset = 0))
    (semPop_nonempty hheader.running hlock hnonempty) htruth

end Truth

/-!
# Every reachable state
-/

theorem exists_headerInRange {headerSize shmSize messageSize : Nat}
    {header : SpscQueueHeader} {usable : Int} (hmessage : 0 < messageSize)
    (hguard : messageSize + headerSize < 2 ^ 64) (hshm : shmSize < 2 ^ 31)
    (hcreate : createHeader headerSize shmSize messageSize = .ok (header, usable)) :
    exists g : Geometry, g.headerSize = headerSize ∧ g.messageSize = messageSize ∧
      HeaderInRange g header ∧ InMessage g header.messageOffset := by
  rcases createHeader_ok hcreate with ⟨n, hsizes, hheader⟩
  rcases exists_geometry hmessage hguard hshm hsizes with ⟨g, hbase, hsize, hqueue, _⟩
  subst hheader
  have hslots : InRing g 0 := ⟨le_rfl, Int.natCast_pos.mpr g.queueSize_pos⟩
  exact ⟨g, hbase, hsize, ⟨hsize.symm, hqueue, rfl, hslots, hslots⟩, le_rfl,
    Int.natCast_pos.mpr g.messageSize_pos⟩

/-- In every reachable state that holds a message, a receive is truthful exactly for
the sizes whose sum with the offset does not wrap, except that size zero at the
start of a message looks like the end of one. -/
theorem reachable_pop_truthful_iff {shmSize messageSize size : Nat}
    (hmessage : 0 < messageSize) (hshm : shmSize < 2 ^ 31) (hsize : size < 2 ^ 64) :
    (forall header usable s last, messageSize + sizeofSpscQueueHeader < 2 ^ 64 ->
      queueCreate shmSize messageSize = .ok (header, usable) ->
      (pollSystem header).ReachableUnder (fun _ l => SizedTraffic l) s ->
      s.consumer = .idle last -> s.queue.header.tail ≠ s.queue.header.head ->
        exists q' reply, pop s.queue size = some (q', reply) ∧
          (Truthful s.queue q' (popAddress s.queue.header s.queue.header.tail) size reply <->
            s.queue.header.messageOffset + size < 2 ^ 64 ∧
              ¬ (size = 0 ∧ s.queue.header.messageOffset = 0))) ∧
    (forall header usable s last, messageSize + sizeofSemSpscQueueHeader < 2 ^ 64 ->
      semQueueCreate shmSize messageSize = .ok (header, usable) ->
      (semSystem header).ReachableUnder (fun _ l => SemSizedTraffic l) s ->
      s.consumer = .idle last -> s.queue.header.tail ≠ s.queue.header.head ->
      s.values .lock ≠ 0 ->
        exists s' reply, semPop s.semQueue size = some (s', reply) ∧
          (Truthful s.queue s'.queue (dequeueAddress s.queue.header) size reply <->
            s.queue.header.messageOffset + size < 2 ^ 64 ∧
              ¬ (size = 0 ∧ s.queue.header.messageOffset = 0))) := by
  constructor
  · intro header usable s last hguard hcreate hs hidle hnonempty
    rcases exists_headerInRange hmessage hguard hshm hcreate with
      ⟨g, _, _, hrange, hstart⟩
    have hinv : PollInRange g s := by
      refine TransitionSystem.reachableUnder_invariant ?_ ?_ hs
      · intro start hboth
        rcases hboth with ⟨mem, rfl⟩
        exact ⟨hrange, trivial, hstart⟩
      · intro t l t' ht hl hnext
        exact pollNext_inRange ht hl hnext
    have hoffset := hinv.consumer
    rw [hidle] at hoffset
    exact pop_truthful_iff hinv.header hoffset hnonempty hsize
  · intro header usable s last hguard hcreate hs hidle hnonempty hlock
    rcases exists_headerInRange hmessage hguard hshm hcreate with
      ⟨g, _, _, hrange, hstart⟩
    have hinv : SemInRange g s := by
      refine TransitionSystem.reachableUnder_invariant ?_ ?_ hs
      · intro start hparts
        rcases hparts with ⟨mem, rfl⟩
        exact ⟨hrange, hstart⟩
      · intro t l t' ht hl hnext
        exact semNext_inRange ht hl hnext
    have hoffset := hinv.consumer
    rw [hidle] at hoffset
    exact @semPop_truthful_iff g size s.semQueue hinv.header hoffset hnonempty hlock hsize

deriving instance DecidableEq for PopPc

def pushedLabels : List PollLabel :=
  .push [1, 2, 3, 4] :: List.replicate 8 .producer

def pushedHeader : SpscQueueHeader :=
  ⟨1, 0, 4, 0, 2, 0, 0, false, false⟩

theorem exists_pushed :
    exists s : PollState, s.consumer = .idle none ∧ s.queue.header = pushedHeader ∧
      (pollSystem twoSlotHeader).ReachableUnder (fun _ l => SizedTraffic l) s := by
  let start := pollStart twoSlotHeader (fun _ => 0)
  have hsome : (((pollSystem twoSlotHeader).execute start pushedLabels).map
      fun s => (s.consumer, s.queue.header)) = some (.idle none, pushedHeader) := by
    decide +kernel
  rcases Option.map_eq_some_iff.mp hsome with ⟨s, hexec, hpair⟩
  have hallowed : forall l, l ∈ pushedLabels -> SizedTraffic l := by
    decide
  exact ⟨s, congrArg Prod.fst hpair, congrArg Prod.snd hpair,
    TransitionSystem.reachableUnder_of_execute ⟨_, rfl⟩ hexec hallowed⟩

theorem reachable_pop_truthful_iff_part :
    exists (s : PollState) (q' : SpscQueue) (reply : PopReply),
      s.queue.header = pushedHeader ∧ pop s.queue 3 = some (q', reply) ∧
        Truthful s.queue q' (popAddress s.queue.header s.queue.header.tail) 3 reply := by
  rcases exists_pushed with ⟨s, hidle, hheader, hs⟩
  have hcreate : queueCreate 48 4 = .ok (twoSlotHeader, 48) := by rfl
  have hnonempty : s.queue.header.tail ≠ s.queue.header.head := by
    rw [hheader]
    decide
  have hiff := @reachable_pop_truthful_iff 48 4 3 (by decide) (by decide) (by decide)
  rcases hiff.left twoSlotHeader 48 s none (by decide) hcreate hs hidle hnonempty with
    ⟨q', reply, hpop, htruth⟩
  refine ⟨s, q', reply, hheader, hpop, htruth.mpr ?_⟩
  rw [hheader]
  decide

/-- A receive into an empty buffer returns the code of a finished message. -/
theorem pop_zero_not_truthful :
    ¬ forall (shmSize messageSize size : Nat) (header : SpscQueueHeader) (usable : Int)
      (s : PollState) (last : Option Receipt), 0 < messageSize -> shmSize < 2 ^ 31 ->
      size < 2 ^ 64 -> messageSize + sizeofSpscQueueHeader < 2 ^ 64 ->
      queueCreate shmSize messageSize = .ok (header, usable) ->
      (pollSystem header).ReachableUnder (fun _ l => SizedTraffic l) s ->
      s.consumer = .idle last -> s.queue.header.tail ≠ s.queue.header.head ->
        exists q' reply, pop s.queue size = some (q', reply) ∧
          Truthful s.queue q' (popAddress s.queue.header s.queue.header.tail) size reply := by
  intro hclaim
  rcases exists_pushed with ⟨s, hidle, hheader, hs⟩
  have hcreate : queueCreate 48 4 = .ok (twoSlotHeader, 48) := by rfl
  have hnonempty : s.queue.header.tail ≠ s.queue.header.head := by
    rw [hheader]
    decide
  rcases hclaim 48 4 0 twoSlotHeader 48 s none (by decide) (by decide) (by decide)
    (by decide) hcreate hs hidle hnonempty with ⟨q', reply, hpop, htruth⟩
  let g : Geometry := ⟨40, 4, 2, by decide, by decide, by decide⟩
  have hrange : HeaderInRange g s.queue.header := by
    rw [hheader]
    exact ⟨rfl, rfl, rfl, ⟨by decide, by decide⟩, ⟨by decide, by decide⟩⟩
  have hoffset : InMessage g s.queue.header.messageOffset := by
    rw [hheader]
    exact ⟨by decide, by decide⟩
  rcases @pop_truthful_iff g s.queue 0 hrange hoffset hnonempty (by decide) with
    ⟨q1, reply1, hpop1, hiff⟩
  rw [hpop] at hpop1
  cases hpop1
  have hzero := (hiff.mp htruth).right
  rw [hheader] at hzero
  exact hzero (by decide)

end Queue
end Notnets
