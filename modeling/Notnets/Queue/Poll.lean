import Notnets.Foundation.MessageStream
import Notnets.Foundation.TransitionSystem
import Notnets.Queue.Header

/-!
# The POLL queue

One producer runs `push` and one consumer runs `pop` on the same region.  Each
access to the region is one step: the loads of the two indices, every byte that
`memcpy` moves, the updates of the message offset and the stores of the two
indices.  Fields that only `queue_create` writes are read together with the
step that uses them.
-/

namespace Notnets
namespace Queue

open Foundation

/-- The region: its header, and the bytes at all offsets. -/
structure SpscQueue where
  header : SpscQueueHeader
  mem : ByteMemory

namespace SpscQueue

/-- One byte stored by `memcpy`. -/
def write (q : SpscQueue) (address : Int) (b : Byte) : SpscQueue :=
  { q with mem := Function.update q.mem address b }

def setHead (q : SpscQueue) (head : Int) : SpscQueue :=
  { q with header := { q.header with head := head } }

def setTail (q : SpscQueue) (tail : Int) : SpscQueue :=
  { q with header := { q.header with tail := tail } }

def setMessageOffset (q : SpscQueue) (messageOffset : Int) : SpscQueue :=
  { q with header := { q.header with messageOffset := messageOffset } }

@[simp] theorem setMessageOffset_mem (q : SpscQueue) (messageOffset : Int) :
    (q.setMessageOffset messageOffset).mem = q.mem := rfl

@[simp] theorem setMessageOffset_messageOffset (q : SpscQueue)
    (messageOffset : Int) :
    (q.setMessageOffset messageOffset).header.messageOffset = messageOffset := rfl

@[simp] theorem setMessageOffset_currentCount (q : SpscQueue)
    (messageOffset : Int) :
    (q.setMessageOffset messageOffset).header.currentCount =
      q.header.currentCount := rfl

end SpscQueue

def nextIndex (header : SpscQueueHeader) (index : Int) : Int :=
  if toInt32 (index + 1) = header.queueSize then 0 else toInt32 (index + 1)

/-!
# push
-/

/-- Where a call of `push` stands, with the locals it has computed. -/
inductive PushPc where
  /-- No call is running; the last one returned this. -/
  | idle (ret : Option Int)
  | entered (buf : List Byte)
  | sized (buf : List Byte) (messageSize : Int)
  /-- In the loop that waits while the queue is full. -/
  | polling (buf : List Byte) (messageSize writerHead nextWriterHead : Int)
  | copying (buf : List Byte) (messageSize writerHead nextWriterHead : Int)
      (copied : Nat)

/-- What one step of `push` leaves, and the message it made visible. -/
structure PushOutcome where
  queue : SpscQueue
  pc : PushPc
  published : Option (List Byte)

/-- `(char*)array_start + writer_head * message_size`. -/
def pushAddress (messageSize writerHead : Int) : Int :=
  sizeofSpscQueueHeader + toInt32 (writerHead * messageSize)

def pushStep (q : SpscQueue) : PushPc -> Option PushOutcome
  | .idle _ => none
  | .entered buf =>
      if buf.length > q.header.messageSize then
        some ⟨q, .idle (some (-1)), none⟩
      else
        some ⟨q, .sized buf (toInt32 q.header.messageSize), none⟩
  | .sized buf messageSize =>
      some ⟨q, .polling buf messageSize q.header.head
        (nextIndex q.header q.header.head), none⟩
  | .polling buf messageSize writerHead nextWriterHead =>
      if nextWriterHead = q.header.tail then
        some ⟨q, .polling buf messageSize writerHead nextWriterHead, none⟩
      else
        some ⟨q, .copying buf messageSize writerHead nextWriterHead 0, none⟩
  | .copying buf messageSize writerHead nextWriterHead copied =>
      match buf[copied]? with
      | some b =>
          some ⟨q.write (pushAddress messageSize writerHead + copied) b,
            .copying buf messageSize writerHead nextWriterHead (copied + 1), none⟩
      | none =>
          some ⟨q.setHead nextWriterHead, .idle (some 0), some buf⟩

/-- A step of `push`, by the branch that it takes. -/
inductive PushMove (q : SpscQueue) : PushPc -> PushOutcome -> Prop where
  | reject {buf : List Byte} (hlarge : q.header.messageSize < buf.length) :
      PushMove q (.entered buf) ⟨q, .idle (some (-1)), none⟩
  | enter {buf : List Byte} (hfits : buf.length ≤ q.header.messageSize) :
      PushMove q (.entered buf) ⟨q, .sized buf (toInt32 q.header.messageSize), none⟩
  | load {buf : List Byte} {messageSize : Int} :
      PushMove q (.sized buf messageSize)
        ⟨q, .polling buf messageSize q.header.head (nextIndex q.header q.header.head),
          none⟩
  | wait {buf : List Byte} {messageSize writerHead nextWriterHead : Int}
      (hfull : nextWriterHead = q.header.tail) :
      PushMove q (.polling buf messageSize writerHead nextWriterHead)
        ⟨q, .polling buf messageSize writerHead nextWriterHead, none⟩
  | room {buf : List Byte} {messageSize writerHead nextWriterHead : Int}
      (hroom : nextWriterHead ≠ q.header.tail) :
      PushMove q (.polling buf messageSize writerHead nextWriterHead)
        ⟨q, .copying buf messageSize writerHead nextWriterHead 0, none⟩
  | copy {buf : List Byte} {messageSize writerHead nextWriterHead : Int} {copied : Nat}
      {b : Byte} (hbyte : buf[copied]? = some b) :
      PushMove q (.copying buf messageSize writerHead nextWriterHead copied)
        ⟨q.write (pushAddress messageSize writerHead + copied) b,
          .copying buf messageSize writerHead nextWriterHead (copied + 1), none⟩
  | publish {buf : List Byte} {messageSize writerHead nextWriterHead : Int}
      {copied : Nat} (hend : buf[copied]? = none) :
      PushMove q (.copying buf messageSize writerHead nextWriterHead copied)
        ⟨q.setHead nextWriterHead, .idle (some 0), some buf⟩

theorem pushMove_of_step {q : SpscQueue} {pc : PushPc} {out : PushOutcome}
    (h : pushStep q pc = some out) : PushMove q pc out := by
  cases pc with
  | idle ret => cases h
  | entered buf =>
      simp only [pushStep] at h
      split at h
      · rename_i hlarge
        cases h
        exact .reject hlarge
      · rename_i hfits
        cases h
        exact .enter (Nat.le_of_not_lt hfits)
  | sized buf messageSize =>
      cases h
      exact .load
  | polling buf messageSize writerHead nextWriterHead =>
      simp only [pushStep] at h
      split at h
      · rename_i hfull
        cases h
        exact .wait hfull
      · rename_i hroom
        cases h
        exact .room hroom
  | copying buf messageSize writerHead nextWriterHead copied =>
      simp only [pushStep] at h
      split at h
      · rename_i b hbyte
        cases h
        exact .copy hbyte
      · rename_i hend
        cases h
        exact .publish hend

/-!
# pop
-/

/-- Where a call of `pop` stands, with the locals it has computed. -/
inductive PopPc where
  /-- No call is running; the last one returned this. -/
  | idle (last : Option Receipt)
  | entered (size : Nat)
  | clamped (size : Nat)
  | running (size : Nat)
  /-- In the loop that waits while the queue is empty. -/
  | polling (size : Nat) (readerTail : Int)
  | copying (size : Nat) (readerTail : Int) (buf : List Byte)
  /-- The message offset has been advanced but not yet tested. -/
  | advanced (size : Nat) (readerTail : Int) (buf : List Byte)
  | finishing (nextReaderTail : Int) (read : Nat) (buf : List Byte)

/-- What one step of `pop` leaves, and what the call returned with it. -/
structure PopOutcome where
  queue : SpscQueue
  pc : PopPc
  receipt : Option Receipt

/-- The offset math for partial reads: the value left in `*buf_size`. -/
def clampSize (messageSize : Nat) (messageOffset : Int) (size : Nat) : Nat :=
  if sizeAdd size (toSizeT messageOffset) > messageSize then
    sizeSub messageSize (toSizeT messageOffset)
  else
    size

/-- `(char*) array_start + (reader_tail * message_size) + message_offset`. -/
def popAddress (header : SpscQueueHeader) (readerTail : Int) : Int :=
  sizeofSpscQueueHeader + (sizeMul (toSizeT readerTail) header.messageSize : Nat) +
    header.messageOffset

/-- `message_offset += *buf_size`. -/
def advanceOffset (messageOffset : Int) (size : Nat) : Int :=
  toInt32 (sizeAdd (toSizeT messageOffset) size : Nat)

def popStep (q : SpscQueue) : PopPc -> Option PopOutcome
  | .idle _ => none
  | .entered size =>
      some ⟨q, .clamped (clampSize q.header.messageSize q.header.messageOffset size),
        none⟩
  | .clamped size =>
      if q.header.stopConsumerPolling then
        some ⟨q, .idle (some ⟨[], 0⟩), some ⟨[], 0⟩⟩
      else
        some ⟨q, .running size, none⟩
  | .running size => some ⟨q, .polling size q.header.tail, none⟩
  | .polling size readerTail =>
      if readerTail = q.header.head then
        some ⟨q, .polling size readerTail, none⟩
      else
        some ⟨q, .copying size readerTail [], none⟩
  | .copying size readerTail buf =>
      if buf.length < size then
        some ⟨q, .copying size readerTail
          (buf ++ [q.mem (popAddress q.header readerTail + buf.length)]), none⟩
      else
        some ⟨q.setMessageOffset (advanceOffset q.header.messageOffset size),
          .advanced size readerTail buf, none⟩
  | .advanced _ readerTail buf =>
      if toSizeT q.header.messageOffset = q.header.messageSize then
        some ⟨q.setMessageOffset 0,
          .finishing (nextIndex q.header readerTail) 0 buf, none⟩
      else
        some ⟨q, .finishing readerTail (toSizeT q.header.messageOffset) buf, none⟩
  | .finishing nextReaderTail read buf =>
      some ⟨q.setTail nextReaderTail, .idle (some ⟨buf, read⟩), some ⟨buf, read⟩⟩

/-- A step of `pop`, by the branch that it takes. -/
inductive PopMove (q : SpscQueue) : PopPc -> PopOutcome -> Prop where
  | clamp {size : Nat} :
      PopMove q (.entered size)
        ⟨q, .clamped (clampSize q.header.messageSize q.header.messageOffset size),
          none⟩
  | stop {size : Nat} (hstop : q.header.stopConsumerPolling = true) :
      PopMove q (.clamped size) ⟨q, .idle (some ⟨[], 0⟩), some ⟨[], 0⟩⟩
  | run {size : Nat} (hruns : q.header.stopConsumerPolling = false) :
      PopMove q (.clamped size) ⟨q, .running size, none⟩
  | load {size : Nat} :
      PopMove q (.running size) ⟨q, .polling size q.header.tail, none⟩
  | wait {size : Nat} {readerTail : Int} (hempty : readerTail = q.header.head) :
      PopMove q (.polling size readerTail) ⟨q, .polling size readerTail, none⟩
  | message {size : Nat} {readerTail : Int} (hmessage : readerTail ≠ q.header.head) :
      PopMove q (.polling size readerTail) ⟨q, .copying size readerTail [], none⟩
  | copy {size : Nat} {readerTail : Int} {buf : List Byte} (hmore : buf.length < size) :
      PopMove q (.copying size readerTail buf)
        ⟨q, .copying size readerTail
          (buf ++ [q.mem (popAddress q.header readerTail + buf.length)]), none⟩
  | advance {size : Nat} {readerTail : Int} {buf : List Byte}
      (hdone : size ≤ buf.length) :
      PopMove q (.copying size readerTail buf)
        ⟨q.setMessageOffset (advanceOffset q.header.messageOffset size),
          .advanced size readerTail buf, none⟩
  | whole {size : Nat} {readerTail : Int} {buf : List Byte}
      (hwhole : toSizeT q.header.messageOffset = q.header.messageSize) :
      PopMove q (.advanced size readerTail buf)
        ⟨q.setMessageOffset 0, .finishing (nextIndex q.header readerTail) 0 buf, none⟩
  | part {size : Nat} {readerTail : Int} {buf : List Byte}
      (hpart : toSizeT q.header.messageOffset ≠ q.header.messageSize) :
      PopMove q (.advanced size readerTail buf)
        ⟨q, .finishing readerTail (toSizeT q.header.messageOffset) buf, none⟩
  | finish {nextReaderTail : Int} {read : Nat} {buf : List Byte} :
      PopMove q (.finishing nextReaderTail read buf)
        ⟨q.setTail nextReaderTail, .idle (some ⟨buf, read⟩), some ⟨buf, read⟩⟩

theorem popMove_of_step {q : SpscQueue} {pc : PopPc} {out : PopOutcome}
    (h : popStep q pc = some out) : PopMove q pc out := by
  cases pc with
  | idle last => cases h
  | entered size =>
      cases h
      exact .clamp
  | clamped size =>
      simp only [popStep] at h
      split at h
      · rename_i hstop
        cases h
        exact .stop hstop
      · rename_i hruns
        cases h
        exact .run (by simpa using hruns)
  | running size =>
      cases h
      exact .load
  | polling size readerTail =>
      simp only [popStep] at h
      split at h
      · rename_i hempty
        cases h
        exact .wait hempty
      · rename_i hmessage
        cases h
        exact .message hmessage
  | copying size readerTail buf =>
      simp only [popStep] at h
      split at h
      · rename_i hmore
        cases h
        exact .copy hmore
      · rename_i hdone
        cases h
        exact .advance (Nat.le_of_not_lt hdone)
  | advanced size readerTail buf =>
      simp only [popStep] at h
      split at h
      · rename_i hwhole
        cases h
        exact .whole hwhole
      · rename_i hpart
        cases h
        exact .part hpart
  | finishing nextReaderTail read buf =>
      cases h
      exact .finish

/-!
# The two parties

The messages made visible so far and the log of the completed `pop` calls are
history: no step reads them.
-/

structure PollState where
  queue : SpscQueue
  producer : PushPc
  consumer : PopPc
  pushed : List (List Byte)
  popped : List Receipt

inductive PollLabel where
  /-- The producer calls `push` with this buffer. -/
  | push (buf : List Byte)
  /-- The producer takes the next step of its call. -/
  | producer
  /-- The consumer calls `pop` with a buffer of this size. -/
  | pop (size : Nat)
  /-- The consumer takes the next step of its call. -/
  | consumer
deriving DecidableEq

def pollNext (s : PollState) : PollLabel -> Option PollState
  | .push buf =>
      match s.producer with
      | .idle _ => some { s with producer := .entered buf }
      | _ => none
  | .producer =>
      match pushStep s.queue s.producer with
      | some out =>
          some { s with
            queue := out.queue
            producer := out.pc
            pushed := s.pushed ++ out.published.toList }
      | none => none
  | .pop size =>
      match s.consumer with
      | .idle _ => some { s with consumer := .entered size }
      | _ => none
  | .consumer =>
      match popStep s.queue s.consumer with
      | some out =>
          some { s with
            queue := out.queue
            consumer := out.pc
            popped := s.popped ++ out.receipt.toList }
      | none => none

/-- Both parties idle on a region that `queue_create` has just set up. -/
def pollStart (header : SpscQueueHeader) (mem : ByteMemory) : PollState where
  queue := { header := header, mem := mem }
  producer := .idle none
  consumer := .idle none
  pushed := []
  popped := []

/-- One producer and one consumer on a queue created with this header. -/
def pollSystem (header : SpscQueueHeader) :
    TransitionSystem PollState PollLabel where
  Initial s := exists mem, s = pollStart header mem
  next := pollNext

end Queue
end Notnets
