import Notnets.Queue.Poll

/-!
# Indices of the POLL queue

The two stored indices are the two message counts modulo the number of slots.
The producer's count is the number of messages made visible, and the consumer's
count is the number of messages completely read, which is the stream position
divided by the message size.  The local variables of both calls are known from
the same two counts, through every wrap-around.
-/

namespace Notnets
namespace Queue

open Foundation

structure HeaderAt (g : Geometry) (header : SpscQueueHeader)
    (pushed read : Nat) : Prop where
  messageSize : header.messageSize = g.messageSize
  queueSize : header.queueSize = g.queueSize
  running : header.stopConsumerPolling = false
  head : header.head = (pushed % g.queueSize : Nat)
  tail : header.tail = (read % g.queueSize : Nat)
  read_le : read ≤ pushed
  pushed_lt : pushed < read + g.queueSize

/-- What the locals of a `push` call are. -/
def ProducerAt (g : Geometry) (pushed read : Nat) : PushPc -> Prop
  | .idle _ => True
  | .entered _ => True
  | .sized buf messageSize =>
      buf.length ≤ g.messageSize ∧ messageSize = g.messageSize
  | .polling buf messageSize writerHead nextWriterHead =>
      buf.length ≤ g.messageSize ∧ messageSize = g.messageSize ∧
        writerHead = (pushed % g.queueSize : Nat) ∧
        nextWriterHead = ((pushed + 1) % g.queueSize : Nat)
  | .copying buf messageSize writerHead nextWriterHead copied =>
      buf.length ≤ g.messageSize ∧ messageSize = g.messageSize ∧
        writerHead = (pushed % g.queueSize : Nat) ∧
        nextWriterHead = ((pushed + 1) % g.queueSize : Nat) ∧
        copied ≤ buf.length ∧ pushed + 1 < read + g.queueSize

/-- What the locals of a `pop` call and the stored message offset are, when the
completed calls have read the stream up to `start`. -/
def ConsumerAt (g : Geometry) (messageOffset : Int) (pushed start : Nat) :
    PopPc -> Prop
  | .idle _ => messageOffset = (start % g.messageSize : Nat)
  | .entered size =>
      messageOffset = (start % g.messageSize : Nat) ∧
        size + start % g.messageSize < 2 ^ 64
  | .clamped size | .running size =>
      messageOffset = (start % g.messageSize : Nat) ∧
        start % g.messageSize + size ≤ g.messageSize
  | .polling size readerTail =>
      messageOffset = (start % g.messageSize : Nat) ∧
        start % g.messageSize + size ≤ g.messageSize ∧
        readerTail = (start / g.messageSize % g.queueSize : Nat)
  | .copying size readerTail buf =>
      messageOffset = (start % g.messageSize : Nat) ∧
        start % g.messageSize + size ≤ g.messageSize ∧
        readerTail = (start / g.messageSize % g.queueSize : Nat) ∧
        start / g.messageSize < pushed ∧ buf.length ≤ size
  | .advanced size readerTail buf =>
      messageOffset = (start % g.messageSize + buf.length : Nat) ∧
        start % g.messageSize + buf.length ≤ g.messageSize ∧
        readerTail = (start / g.messageSize % g.queueSize : Nat) ∧
        start / g.messageSize < pushed ∧ buf.length = size
  | .finishing nextReaderTail read buf =>
      messageOffset = ((start + buf.length) % g.messageSize : Nat) ∧
        start % g.messageSize + buf.length ≤ g.messageSize ∧
        nextReaderTail =
          ((start + buf.length) / g.messageSize % g.queueSize : Nat) ∧
        start / g.messageSize < pushed ∧
        read = if start % g.messageSize + buf.length = g.messageSize then 0
          else start % g.messageSize + buf.length

structure PollIndices (g : Geometry) (s : PollState) : Prop where
  header : HeaderAt g s.queue.header s.pushed.length
    (position s.popped / g.messageSize)
  producer : ProducerAt g s.pushed.length
    (position s.popped / g.messageSize) s.producer
  consumer : ConsumerAt g s.queue.header.messageOffset s.pushed.length
    (position s.popped) s.consumer

/-!
# Arithmetic of one step
-/

namespace HeaderAt

variable {g : Geometry} {header : SpscQueueHeader} {pushed read : Nat}

theorem nextIndex_mod (h : HeaderAt g header pushed read) (m : Nat) :
    nextIndex header (m % g.queueSize : Nat) = ((m + 1) % g.queueSize : Nat) := by
  have hlt : m % g.queueSize < g.queueSize := Nat.mod_lt m g.queueSize_pos
  have hsize := g.queueSize_lt
  have hsucc : toInt32 ((m % g.queueSize : Nat) + 1 : Int) =
      (m % g.queueSize + 1 : Nat) := by
    rw [← toInt32_natCast (n := m % g.queueSize + 1) (by lia)]
    push_cast
    rfl
  unfold nextIndex
  rw [hsucc, h.queueSize, ← wrap_succ g.queueSize_pos]
  by_cases hwrap : m % g.queueSize + 1 = g.queueSize
  · rw [if_pos hwrap, if_pos (by exact_mod_cast hwrap)]
    rfl
  · rw [if_neg hwrap, if_neg (by exact_mod_cast hwrap)]

/-- The producer's full test passes only when a slot is free. -/
theorem not_full (h : HeaderAt g header pushed read)
    (hne : ((pushed + 1) % g.queueSize : Nat) ≠ header.tail) :
    pushed + 1 < read + g.queueSize := by
  have hlt := h.pushed_lt
  by_contra hge
  apply hne
  have hlast : pushed + 1 = read + g.queueSize := by lia
  rw [h.tail, hlast, Nat.add_mod_right]

theorem not_empty (h : HeaderAt g header pushed read)
    (hne : ((read % g.queueSize : Nat) : Int) ≠ header.head) : read < pushed := by
  have hle := h.read_le
  by_contra hge
  apply hne
  have hsame : read = pushed := by lia
  rw [h.head, hsame]

end HeaderAt

theorem clampSize_eq_min {g : Geometry} {offset size : Nat}
    (hoffset : offset < g.messageSize) (hsum : size + offset < 2 ^ 64) :
    clampSize g.messageSize (offset : Nat) size = min size (g.messageSize - offset) := by
  have hmessage := g.messageSize_lt
  unfold clampSize
  rw [toSizeT_natCast (by lia), sizeAdd_of_fits (by lia),
    sizeSub_of_le (by lia) (by lia)]
  by_cases hlarge : size + offset > g.messageSize
  · rw [if_pos hlarge]
    lia
  · rw [if_neg hlarge]
    lia

/-- A sum that wraps is small, and the size is left as it is. -/
theorem clampSize_overrun {g : Geometry} {offset size : Nat}
    (hoffset : offset < g.messageSize) (hsize : size < 2 ^ 64)
    (hwrap : 2 ^ 64 ≤ size + offset) :
    clampSize g.messageSize (offset : Nat) size = size := by
  have hmessage := g.messageSize_lt
  unfold clampSize sizeAdd
  rw [toSizeT_natCast (by lia), if_neg (by lia)]

theorem clampSize_of_fits {g : Geometry} {offset size : Nat}
    (hoffset : offset < g.messageSize) (hsum : size + offset < 2 ^ 64) :
    offset + clampSize g.messageSize (offset : Nat) size ≤ g.messageSize := by
  rw [clampSize_eq_min hoffset hsum]
  lia

theorem advanceOffset_of_fits {g : Geometry} {offset size : Nat}
    (hfits : offset + size ≤ g.messageSize) :
    advanceOffset (offset : Nat) size = (offset + size : Nat) := by
  have hmessage := g.messageSize_lt
  unfold advanceOffset
  rw [toSizeT_natCast (by lia), sizeAdd_of_fits (by lia), toInt32_natCast (by lia)]

theorem headerAt_setMessageOffset {g : Geometry} {q : SpscQueue}
    {pushed read : Nat} (h : HeaderAt g q.header pushed read) (offset : Int) :
    HeaderAt g (q.setMessageOffset offset).header pushed read :=
  ⟨h.messageSize, h.queueSize, h.running, h.head, h.tail, h.read_le, h.pushed_lt⟩

/-!
# The other party

Each side's locals survive the other side's progress.
-/

theorem producerAt_mono {g : Geometry} {pushed read read' : Nat} {pc : PushPc}
    (h : ProducerAt g pushed read pc) (hle : read ≤ read') :
    ProducerAt g pushed read' pc := by
  cases pc with
  | copying buf messageSize writerHead nextWriterHead copied =>
      rcases h with ⟨hlen, hsize, hhead, hnext, hcopied, hfree⟩
      exact ⟨hlen, hsize, hhead, hnext, hcopied, by lia⟩
  | idle ret => exact h
  | entered buf => exact h
  | sized buf messageSize => exact h
  | polling buf messageSize writerHead nextWriterHead => exact h

theorem consumerAt_mono {g : Geometry} {messageOffset : Int}
    {pushed pushed' start : Nat} {pc : PopPc}
    (h : ConsumerAt g messageOffset pushed start pc) (hle : pushed ≤ pushed') :
    ConsumerAt g messageOffset pushed' start pc := by
  cases pc with
  | copying size readerTail buf =>
      rcases h with ⟨hoffset, hsize, htail, hlt, hbuf⟩
      exact ⟨hoffset, hsize, htail, by lia, hbuf⟩
  | advanced size readerTail buf =>
      rcases h with ⟨hoffset, hsize, htail, hlt, hbuf⟩
      exact ⟨hoffset, hsize, htail, by lia, hbuf⟩
  | finishing nextReaderTail read buf =>
      rcases h with ⟨hoffset, hsize, htail, hlt, hread⟩
      exact ⟨hoffset, hsize, htail, by lia, hread⟩
  | idle last => exact h
  | entered size => exact h
  | clamped size => exact h
  | running size => exact h
  | polling size readerTail => exact h

/-!
# One step of each call
-/

def PollState.afterPush (s : PollState) (out : PushOutcome) : PollState :=
  { s with
    queue := out.queue
    producer := out.pc
    pushed := s.pushed ++ out.published.toList }

def PollState.afterPop (s : PollState) (out : PopOutcome) : PollState :=
  { s with
    queue := out.queue
    consumer := out.pc
    popped := s.popped ++ out.receipt.toList }

namespace PollIndices

variable {g : Geometry} {s : PollState} {q : SpscQueue}

theorem updatePush (h : PollIndices g s) (hheader : q.header = s.queue.header)
    {pc : PushPc}
    (hproducer : ProducerAt g s.pushed.length (position s.popped / g.messageSize) pc) :
    PollIndices g (s.afterPush ⟨q, pc, none⟩) := by
  simp only [PollState.afterPush, Option.toList_none, List.append_nil]
  constructor
  · rw [hheader]
    exact h.header
  · exact hproducer
  · rw [hheader]
    exact h.consumer

theorem updatePop (h : PollIndices g s)
    (hheader : HeaderAt g q.header s.pushed.length (position s.popped / g.messageSize))
    {pc : PopPc} (hconsumer : ConsumerAt g q.header.messageOffset s.pushed.length
      (position s.popped) pc) :
    PollIndices g (s.afterPop ⟨q, pc, none⟩) := by
  simp only [PollState.afterPop, Option.toList_none, List.append_nil]
  exact ⟨hheader, h.producer, hconsumer⟩

end PollIndices

theorem pushStep_indices {g : Geometry} {s : PollState} {out : PushOutcome}
    (h : PollIndices g s) (hout : pushStep s.queue s.producer = some out) :
    PollIndices g (s.afterPush out) := by
  have hheader := h.header
  have hproducer := h.producer
  generalize s.producer = pc at hout hproducer
  cases pushMove_of_step hout with
  | reject _ => exact h.updatePush rfl trivial
  | enter hfits =>
      rw [hheader.messageSize] at hfits
      apply h.updatePush rfl
      constructor
      · exact hfits
      · rw [hheader.messageSize]
        exact toInt32_natCast g.messageSize_lt
  | load =>
      rcases hproducer with ⟨hlen, hsize⟩
      have hnext := hheader.nextIndex_mod s.pushed.length
      rw [← hheader.head] at hnext
      apply h.updatePush rfl
      exact ⟨hlen, hsize, hheader.head, hnext⟩
  | wait _ => exact h.updatePush rfl hproducer
  | room hroom =>
      rcases hproducer with ⟨hlen, hsize, hhead, hnext⟩
      have hfree := hheader.not_full (by rw [← hnext]; exact hroom)
      apply h.updatePush rfl
      exact ⟨hlen, hsize, hhead, hnext, Nat.zero_le _, hfree⟩
  | copy hbyte =>
      rcases hproducer with ⟨hlen, hsize, hhead, hnext, hcopied, hfree⟩
      rcases List.getElem?_eq_some_iff.mp hbyte with ⟨hlt, _⟩
      apply h.updatePush
      · rfl
      · exact ⟨hlen, hsize, hhead, hnext, hlt, hfree⟩
  | @publish buf messageSize writerHead nextWriterHead copied hend =>
      rcases hproducer with ⟨hlen, hsize, hhead, hnext, hcopied, hfree⟩
      have hle := hheader.read_le
      refine ⟨?_, trivial, ?_⟩
      · constructor
        · exact hheader.messageSize
        · exact hheader.queueSize
        · exact hheader.running
        · simpa [PollState.afterPush, SpscQueue.setHead] using hnext
        · exact hheader.tail
        · show position s.popped / g.messageSize ≤ (s.pushed ++ [buf]).length
          simp
          lia
        · simpa [PollState.afterPush] using hfree
      · exact consumerAt_mono h.consumer (by simp [PollState.afterPush])

theorem popStep_indices {g : Geometry} {s : PollState} {out : PopOutcome}
    (h : PollIndices g s) (hout : popStep s.queue s.consumer = some out) :
    PollIndices g (s.afterPop out) := by
  have hheader := h.header
  have hconsumer := h.consumer
  have hmod : position s.popped % g.messageSize < g.messageSize :=
    Nat.mod_lt _ g.messageSize_pos
  have hmessage := g.messageSize_lt
  generalize s.consumer = pc at hout hconsumer
  cases popMove_of_step hout with
  | clamp =>
      rcases hconsumer with ⟨hoffset, hsize⟩
      have hclamp := clampSize_of_fits hmod hsize
      rw [← hoffset] at hclamp
      apply h.updatePop hheader
      rw [hheader.messageSize]
      exact ⟨hoffset, hclamp⟩
  | stop hstop =>
      rw [hheader.running] at hstop
      cases hstop
  | run _ => exact h.updatePop hheader hconsumer
  | load =>
      rcases hconsumer with ⟨hoffset, hsize⟩
      apply h.updatePop hheader
      exact ⟨hoffset, hsize, hheader.tail⟩
  | wait _ => exact h.updatePop hheader hconsumer
  | message hnonempty =>
      rcases hconsumer with ⟨hoffset, hsize, htail⟩
      have hlt := hheader.not_empty (by rw [← htail]; exact hnonempty)
      apply h.updatePop hheader
      exact ⟨hoffset, hsize, htail, hlt, Nat.zero_le _⟩
  | copy hmore =>
      rcases hconsumer with ⟨hoffset, hsize, htail, hlt, hbuf⟩
      apply h.updatePop hheader
      refine ⟨hoffset, hsize, htail, hlt, ?_⟩
      rw [List.length_append, List.length_singleton]
      exact hmore
  | @advance size readerTail buf hdone =>
      rcases hconsumer with ⟨hoffset, hsize, htail, hlt, hbuf⟩
      have hlength : buf.length = size := by lia
      have hadvance := advanceOffset_of_fits hsize
      rw [← hoffset] at hadvance
      apply h.updatePop (headerAt_setMessageOffset hheader _)
      rw [SpscQueue.setMessageOffset_messageOffset, hadvance, ← hlength]
      exact ⟨rfl, by lia, htail, hlt, rfl⟩
  | whole hwhole =>
      rcases hconsumer with ⟨hoffset, hfits, htail, hlt, hbuf⟩
      rw [hoffset, toSizeT_natCast (by lia), hheader.messageSize] at hwhole
      rcases position_full g.messageSize_pos hwhole with ⟨hdiv, hrem⟩
      apply h.updatePop (headerAt_setMessageOffset hheader _)
      refine ⟨?_, hfits, ?_, hlt, (if_pos hwhole).symm⟩
      · rw [hrem]
        rfl
      · rw [hdiv, htail]
        exact hheader.nextIndex_mod _
  | @part size readerTail buf hpart =>
      rcases hconsumer with ⟨hoffset, hfits, htail, hlt, hbuf⟩
      have hcast : toSizeT s.queue.header.messageOffset =
          position s.popped % g.messageSize + buf.length := by
        rw [hoffset, toSizeT_natCast (by lia)]
      rw [hcast, hheader.messageSize] at hpart
      rcases position_within (Nat.lt_of_le_of_ne hfits hpart) with ⟨hdiv, hrem⟩
      apply h.updatePop hheader
      refine ⟨?_, hfits, ?_, hlt, hcast.trans (if_neg hpart).symm⟩
      · rw [hrem]
        exact hoffset
      · rw [hdiv]
        exact htail
  | @finish nextReaderTail read buf =>
      rcases hconsumer with ⟨hoffset, hfits, htail, hlt, hread⟩
      have hle : position s.popped / g.messageSize ≤
          (position s.popped + buf.length) / g.messageSize :=
        Nat.div_le_div_right (Nat.le_add_right _ _)
      have hsucc : (position s.popped + buf.length) / g.messageSize ≤
          s.pushed.length := by
        by_cases hfull : position s.popped % g.messageSize + buf.length = g.messageSize
        · rw [(position_full g.messageSize_pos hfull).left]
          exact hlt
        · rw [(position_within (by lia)).left]
          exact Nat.le_of_lt hlt
      have hwindow := hheader.pushed_lt
      simp only [PollState.afterPop, Option.toList_some]
      constructor
      · rw [position_snoc]
        exact ⟨hheader.messageSize, hheader.queueSize, hheader.running,
          hheader.head, htail, hsucc, by lia⟩
      · rw [position_snoc]
        exact producerAt_mono h.producer hle
      · rw [position_snoc]
        exact hoffset

/-!
# Every interleaving
-/

/-- The sum of `*buf_size` and `message_offset` at the start of `pop` does not wrap. -/
def NoWrap (s : PollState) : PollLabel -> Prop
  | .pop size => size + s.queue.header.messageOffset < 2 ^ 64
  | _ => True

theorem pollNext_cases {s s' : PollState} {l : PollLabel}
    (h : pollNext s l = some s') :
    (exists buf ret, l = .push buf ∧ s.producer = .idle ret ∧
      s' = { s with producer := .entered buf }) ∨
    (exists out, l = .producer ∧ pushStep s.queue s.producer = some out ∧
      s' = s.afterPush out) ∨
    (exists size last, l = .pop size ∧ s.consumer = .idle last ∧
      s' = { s with consumer := .entered size }) ∨
    (exists out, l = .consumer ∧ popStep s.queue s.consumer = some out ∧
      s' = s.afterPop out) := by
  cases l with
  | push buf =>
      apply Or.inl
      cases hpc : s.producer with
      | idle ret =>
          simp only [pollNext, hpc] at h
          cases h
          exact ⟨buf, ret, rfl, rfl, rfl⟩
      | entered _ => simp [pollNext, hpc] at h
      | sized _ _ => simp [pollNext, hpc] at h
      | polling _ _ _ _ => simp [pollNext, hpc] at h
      | copying _ _ _ _ _ => simp [pollNext, hpc] at h
  | producer =>
      apply Or.inr
      apply Or.inl
      cases hout : pushStep s.queue s.producer with
      | none => simp [pollNext, hout] at h
      | some out =>
          simp only [pollNext, hout] at h
          cases h
          exact ⟨out, rfl, rfl, rfl⟩
  | pop size =>
      apply Or.inr
      apply Or.inr
      apply Or.inl
      cases hpc : s.consumer with
      | idle last =>
          simp only [pollNext, hpc] at h
          cases h
          exact ⟨size, last, rfl, rfl, rfl⟩
      | entered _ => simp [pollNext, hpc] at h
      | clamped _ => simp [pollNext, hpc] at h
      | running _ => simp [pollNext, hpc] at h
      | polling _ _ => simp [pollNext, hpc] at h
      | copying _ _ _ => simp [pollNext, hpc] at h
      | advanced _ _ _ => simp [pollNext, hpc] at h
      | finishing _ _ _ => simp [pollNext, hpc] at h
  | consumer =>
      apply Or.inr
      apply Or.inr
      apply Or.inr
      cases hout : popStep s.queue s.consumer with
      | none => simp [pollNext, hout] at h
      | some out =>
          simp only [pollNext, hout] at h
          cases h
          exact ⟨out, rfl, rfl, rfl⟩

theorem PollIndices.messageOffset_le {g : Geometry} {s : PollState}
    (h : PollIndices g s) : s.queue.header.messageOffset ≤ g.messageSize := by
  have hconsumer := h.consumer
  have hmod := Nat.mod_lt (position s.popped) g.messageSize_pos
  cases hpc : s.consumer with
  | idle last =>
      rw [hpc] at hconsumer
      have hoffset : s.queue.header.messageOffset =
          (position s.popped % g.messageSize : Nat) := hconsumer
      lia
  | entered size | clamped size | running size =>
      rw [hpc] at hconsumer
      have hoffset := hconsumer.left
      lia
  | polling size readerTail =>
      rw [hpc] at hconsumer
      have hoffset := hconsumer.left
      lia
  | copying size readerTail buf =>
      rw [hpc] at hconsumer
      have hoffset := hconsumer.left
      lia
  | advanced size readerTail buf =>
      rw [hpc] at hconsumer
      rcases hconsumer with ⟨hoffset, hfits, _⟩
      lia
  | finishing nextReaderTail read buf =>
      rw [hpc] at hconsumer
      have hoffset := hconsumer.left
      have hnew := Nat.mod_lt (position s.popped + buf.length) g.messageSize_pos
      lia

theorem pollNext_indices {g : Geometry} {s s' : PollState} {l : PollLabel}
    (hs : PollIndices g s) (hl : NoWrap s l)
    (h : pollNext s l = some s') : PollIndices g s' := by
  rcases pollNext_cases h with
    ⟨buf, ret, _, _, rfl⟩ | ⟨out, _, hout, rfl⟩ | ⟨size, last, rfl, hpc, rfl⟩ |
      ⟨out, _, hout, rfl⟩
  · exact ⟨hs.header, trivial, hs.consumer⟩
  · exact pushStep_indices hs hout
  · have hidle := hs.consumer
    rw [hpc] at hidle
    have hoffset : s.queue.header.messageOffset =
        (position s.popped % g.messageSize : Nat) := hidle
    have hsum : size + s.queue.header.messageOffset < 2 ^ 64 := hl
    exact ⟨hs.header, hs.producer, hoffset, by lia⟩
  · exact popStep_indices hs hout

theorem pollStart_indices {g : Geometry} {shmSize : Nat}
    {header : SpscQueueHeader} {usable : Int} (mem : ByteMemory)
    (hcreate : queueCreate shmSize g.messageSize = .ok (header, usable))
    (hsize : header.queueSize = g.queueSize) :
    PollIndices g (pollStart header mem) := by
  rcases createHeader_ok hcreate with ⟨n, _, hheader⟩
  subst hheader
  have hpos := g.queueSize_pos
  refine ⟨⟨rfl, hsize, rfl, ?_, ?_, ?_, ?_⟩, trivial, ?_⟩
  · simp [pollStart]
  · simp [pollStart]
  · simp [pollStart]
  · simpa [pollStart] using hpos
  · simp [pollStart, ConsumerAt]

end Queue
end Notnets
