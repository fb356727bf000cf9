import Notnets.Foundation.RingMemory
import Notnets.Queue.Sem

/-!
# Whole calls

A single thread takes all the steps of a call at once.  Here each call is one
function of the region, and `none` is a call that does not return: it waits for
the other side, or divides by zero.
-/

namespace Notnets
namespace Queue

open Foundation

/-- `memcpy` to an address of the region. -/
def SpscQueue.copy (q : SpscQueue) (address : Int) (bytes : List Byte) : SpscQueue :=
  { q with mem := copyTo q.mem address bytes }

@[simp] theorem SpscQueue.copy_header (q : SpscQueue) (address : Int)
    (bytes : List Byte) : (q.copy address bytes).header = q.header := rfl

@[simp] theorem SpscQueue.copy_mem (q : SpscQueue) (address : Int)
    (bytes : List Byte) : (q.copy address bytes).mem = copyTo q.mem address bytes := rfl

@[simp] theorem SpscQueue.setMessageOffset_messageSize (q : SpscQueue) (offset : Int) :
    (q.setMessageOffset offset).header.messageSize = q.header.messageSize := rfl

@[simp] theorem SpscQueue.setMessageOffset_twice (q : SpscQueue) (first second : Int) :
    (q.setMessageOffset first).setMessageOffset second = q.setMessageOffset second := rfl

@[simp] theorem nextIndex_setMessageOffset (q : SpscQueue) (offset index : Int) :
    nextIndex (q.setMessageOffset offset).header index = nextIndex q.header index := rfl

/-- What a receiving call leaves in `*buf_size`, and what it returns. -/
structure PopReply where
  size : Nat
  receipt : Receipt
deriving DecidableEq, Repr

/-!
# POLL
-/

def push (q : SpscQueue) (buf : List Byte) : Option (SpscQueue × Int) :=
  if buf.length > q.header.messageSize then
    some (q, -1)
  else
    let messageSize := toInt32 q.header.messageSize
    let writerHead := q.header.head
    let nextWriterHead := nextIndex q.header writerHead
    if nextWriterHead = q.header.tail then
      none
    else
      some ((q.copy (pushAddress messageSize writerHead) buf).setHead nextWriterHead, 0)

/-- The rest of `pop` from its `memcpy` on. -/
def popMessage (q : SpscQueue) (readerTail : Int) (size : Nat) : SpscQueue × PopReply :=
  let buf := load q.mem (popAddress q.header readerTail) size
  let messageOffset := advanceOffset q.header.messageOffset size
  if toSizeT messageOffset = q.header.messageSize then
    ((q.setMessageOffset 0).setTail (nextIndex q.header readerTail), ⟨size, buf, 0⟩)
  else
    ((q.setMessageOffset messageOffset).setTail readerTail,
      ⟨size, buf, toSizeT messageOffset⟩)

def pop (q : SpscQueue) (size : Nat) : Option (SpscQueue × PopReply) :=
  let clamped := clampSize q.header.messageSize q.header.messageOffset size
  if q.header.stopConsumerPolling then
    some (q, ⟨clamped, [], 0⟩)
  else if q.header.tail = q.header.head then
    none
  else
    some (popMessage q q.header.tail clamped)

section Poll

variable {q : SpscQueue} {buf : List Byte} {size : Nat}

theorem push_large (h : q.header.messageSize < buf.length) :
    push q buf = some (q, -1) :=
  if_pos h

theorem push_full (hfits : buf.length ≤ q.header.messageSize)
    (hfull : nextIndex q.header q.header.head = q.header.tail) : push q buf = none := by
  simp only [push, if_neg (not_lt.mpr hfits), if_pos hfull]

theorem push_room (hfits : buf.length ≤ q.header.messageSize)
    (hroom : nextIndex q.header q.header.head ≠ q.header.tail) :
    push q buf = some
      ((q.copy (pushAddress (toInt32 q.header.messageSize) q.header.head) buf).setHead
        (nextIndex q.header q.header.head), 0) := by
  simp only [push, if_neg (not_lt.mpr hfits), if_neg hroom]

theorem pop_stopped (h : q.header.stopConsumerPolling = true) :
    pop q size = some
      (q, ⟨clampSize q.header.messageSize q.header.messageOffset size, [], 0⟩) := by
  simp only [pop, h, if_true]

theorem pop_empty (hruns : q.header.stopConsumerPolling = false)
    (hempty : q.header.tail = q.header.head) : pop q size = none := by
  simp [pop, hruns, hempty]

theorem pop_nonempty (hruns : q.header.stopConsumerPolling = false)
    (hmessage : q.header.tail ≠ q.header.head) :
    pop q size = some (popMessage q q.header.tail
      (clampSize q.header.messageSize q.header.messageOffset size)) := by
  simp [pop, hruns, hmessage]

theorem popMessage_of_end (readerTail : Int)
    (hend : toSizeT (advanceOffset q.header.messageOffset size) = q.header.messageSize) :
    popMessage q readerTail size =
      ((q.setMessageOffset 0).setTail (nextIndex q.header readerTail),
        ⟨size, load q.mem (popAddress q.header readerTail) size, 0⟩) := by
  simp only [popMessage, if_pos hend]

theorem popMessage_of_part (readerTail : Int)
    (hpart : toSizeT (advanceOffset q.header.messageOffset size) ≠ q.header.messageSize) :
    popMessage q readerTail size =
      ((q.setMessageOffset (advanceOffset q.header.messageOffset size)).setTail readerTail,
        ⟨size, load q.mem (popAddress q.header readerTail) size,
          toSizeT (advanceOffset q.header.messageOffset size)⟩) := by
  simp only [popMessage, if_neg hpart]

end Poll

/-!
# SEM
-/

structure SemQueue where
  queue : SpscQueue
  values : Semaphore -> Nat

def enqueue (q : SpscQueue) (buf : List Byte) : SpscQueue :=
  (((q.copy (enqueueAddress q.header) buf).setCurrentCount
    (toInt32 (q.header.currentCount + 1))).setTotalCount
      (toInt32 (q.header.totalCount + 1))).setHead
        (succ q.header.head q.header.queueSize)

/-- Alone on a full ring the call takes what is left of `sem_full` and blocks. -/
def semPush (s : SemQueue) (buf : List Byte) : Option (SemQueue × Int) :=
  if buf.length > s.queue.header.messageSize then
    some (s, -1)
  else
    match semWait s.values .lock true with
    | none => none
    | some values =>
        if s.queue.header.queueSize = 0 ∨ isFull s.queue.header then
          none
        else
          let values := semPost values .lock true
          if isEmpty s.queue.header then
            some (⟨enqueue s.queue buf, semPost values .empty true⟩, 0)
          else
            some (⟨enqueue s.queue buf, values⟩, 0)

/-- The part of `dequeue` that removes a message. -/
def retire (q : SpscQueue) : SpscQueue :=
  ((q.setTail (succ q.header.tail q.header.queueSize)).setCurrentCount
    (toInt32 (q.header.currentCount - 1))).setMessageOffset 0

@[simp] theorem retire_setMessageOffset (q : SpscQueue) (offset : Int) :
    retire (q.setMessageOffset offset) = retire q := rfl

def dequeue (q : SpscQueue) (size : Nat) : SpscQueue × PopReply :=
  let clamped := clampSize q.header.messageSize q.header.messageOffset size
  let buf := load q.mem (dequeueAddress q.header) clamped
  let messageOffset := advanceOffset q.header.messageOffset clamped
  if toSizeT messageOffset = q.header.messageSize then
    (retire q, ⟨clamped, buf, 0⟩)
  else
    (q.setMessageOffset messageOffset, ⟨clamped, buf, toSizeT messageOffset⟩)

/-- Alone on an empty ring the call takes what is left of `sem_empty` and
blocks. -/
def semPop (s : SemQueue) (size : Nat) : Option (SemQueue × PopReply) :=
  if s.queue.header.stopConsumerPolling then
    some (s, ⟨size, [], 0⟩)
  else
    match semWait s.values .lock true with
    | none => none
    | some values =>
        if s.queue.header.queueSize = 0 ∨ isEmpty s.queue.header then
          none
        else
          let values := semPost values .lock true
          let dequeued := dequeue s.queue size
          if isFull s.queue.header then
            some (⟨dequeued.1, semPost values .full true⟩, dequeued.2)
          else
            some (⟨dequeued.1, values⟩, dequeued.2)

section Sem

variable {s : SemQueue} {buf : List Byte} {size : Nat}

theorem semWait_some {values : Semaphore -> Nat} {which : Semaphore}
    (h : values which ≠ 0) :
    semWait values which true =
      some (Function.update values which (values which - 1)) := by
  simp [semWait, h]

theorem semPost_taken {values : Semaphore -> Nat} {which : Semaphore}
    (h : values which ≠ 0) :
    semPost (Function.update values which (values which - 1)) which true = values := by
  have hback : values which - 1 + 1 = values which := by lia
  simp [semPost, hback]

theorem semPush_large (h : s.queue.header.messageSize < buf.length) :
    semPush s buf = some (s, -1) :=
  if_pos h

theorem semPush_locked (hfits : buf.length ≤ s.queue.header.messageSize)
    (hlock : s.values .lock = 0) : semPush s buf = none := by
  simp [semPush, semWait, hlock, hfits]

theorem semPush_full (hfits : buf.length ≤ s.queue.header.messageSize)
    (hfull : s.queue.header.queueSize = 0 ∨ isFull s.queue.header) :
    semPush s buf = none := by
  by_cases hlock : s.values .lock = 0
  · exact semPush_locked hfits hlock
  · simp only [semPush, if_neg (not_lt.mpr hfits), semWait_some hlock, if_pos hfull]

theorem semPush_room (hfits : buf.length ≤ s.queue.header.messageSize)
    (hlock : s.values .lock ≠ 0)
    (hroom : ¬ (s.queue.header.queueSize = 0 ∨ isFull s.queue.header)) :
    semPush s buf = some (⟨enqueue s.queue buf,
      if isEmpty s.queue.header then semPost s.values .empty true else s.values⟩, 0) := by
  simp only [semPush, if_neg (not_lt.mpr hfits), semWait_some hlock, if_neg hroom,
    semPost_taken hlock]
  split
  · rfl
  · rfl

theorem semPop_stopped (h : s.queue.header.stopConsumerPolling = true) :
    semPop s size = some (s, ⟨size, [], 0⟩) :=
  if_pos h

theorem semPop_locked (hruns : s.queue.header.stopConsumerPolling = false)
    (hlock : s.values .lock = 0) : semPop s size = none := by
  simp [semPop, semWait, hlock, hruns]

theorem semPop_empty (hruns : s.queue.header.stopConsumerPolling = false)
    (hempty : s.queue.header.queueSize = 0 ∨ isEmpty s.queue.header) :
    semPop s size = none := by
  by_cases hlock : s.values .lock = 0
  · exact semPop_locked hruns hlock
  · simp only [semPop, hruns, Bool.false_eq_true, if_false, semWait_some hlock,
      if_pos hempty]

theorem semPop_nonempty (hruns : s.queue.header.stopConsumerPolling = false)
    (hlock : s.values .lock ≠ 0)
    (hmessage : ¬ (s.queue.header.queueSize = 0 ∨ isEmpty s.queue.header)) :
    semPop s size = some (⟨(dequeue s.queue size).1,
      if isFull s.queue.header then semPost s.values .full true else s.values⟩,
        (dequeue s.queue size).2) := by
  simp only [semPop, hruns, Bool.false_eq_true, if_false, semWait_some hlock,
    if_neg hmessage, semPost_taken hlock]
  split
  · rfl
  · rfl

theorem dequeue_of_end {q : SpscQueue} {n : Nat}
    (hclamp : clampSize q.header.messageSize q.header.messageOffset size = n)
    (hend : toSizeT (advanceOffset q.header.messageOffset n) = q.header.messageSize) :
    dequeue q size = (retire q, ⟨n, load q.mem (dequeueAddress q.header) n, 0⟩) := by
  simp only [dequeue, hclamp, if_pos hend]

theorem dequeue_of_part {q : SpscQueue} {n : Nat}
    (hclamp : clampSize q.header.messageSize q.header.messageOffset size = n)
    (hpart : toSizeT (advanceOffset q.header.messageOffset n) ≠ q.header.messageSize) :
    dequeue q size =
      (q.setMessageOffset (advanceOffset q.header.messageOffset n),
        ⟨n, load q.mem (dequeueAddress q.header) n,
          toSizeT (advanceOffset q.header.messageOffset n)⟩) := by
  simp only [dequeue, hclamp, if_neg hpart]

end Sem

/-!
# Sequences of calls
-/

/-- The functions of a transport, as a context of `select_queue_ctx` has them. -/
structure Transport (State : Type) where
  push : State -> List Byte -> Option (State × Int)
  pop : State -> Nat -> Option (State × PopReply)

def pollTransport : Transport SpscQueue where
  push := push
  pop := pop

def semTransport : Transport SemQueue where
  push := semPush
  pop := semPop

@[simp] theorem pollTransport_push : pollTransport.push = push := rfl

@[simp] theorem pollTransport_pop : pollTransport.pop = pop := rfl

@[simp] theorem semTransport_push : semTransport.push = semPush := rfl

@[simp] theorem semTransport_pop : semTransport.pop = semPop := rfl

inductive Call where
  | send (buf : List Byte)
  | receive (size : Nat)
deriving DecidableEq

inductive Reply where
  | sent (ret : Int)
  | received (reply : PopReply)
deriving DecidableEq, Repr

namespace Transport

variable {State : Type} (transport : Transport State)

def call (s : State) : Call -> Option (State × Reply)
  | .send buf => (transport.push s buf).map fun result => (result.1, .sent result.2)
  | .receive size =>
      (transport.pop s size).map fun result => (result.1, .received result.2)

/-- The calls of one thread, oldest first; `none` if one of them does not
return. -/
def run : State -> List Call -> Option (State × List Reply)
  | s, [] => some (s, [])
  | s, call :: rest =>
      match transport.call s call with
      | none => none
      | some (s', reply) =>
          match run s' rest with
          | none => none
          | some (s'', replies) => some (s'', reply :: replies)

/-- What the calls return. -/
def replies (s : State) (calls : List Call) : Option (List Reply) :=
  (transport.run s calls).map Prod.snd

theorem run_cons {s s'' : State} {call : Call} {rest : List Call}
    {replies : List Reply} :
    transport.run s (call :: rest) = some (s'', replies) <->
      exists s' reply more, transport.call s call = some (s', reply) ∧
        transport.run s' rest = some (s'', more) ∧ replies = reply :: more := by
  constructor
  · intro h
    simp only [run] at h
    split at h
    · cases h
    · rename_i s' reply hcall
      split at h
      · cases h
      · rename_i s2 more hrest
        cases h
        exact ⟨s', reply, more, hcall, hrest, rfl⟩
  · intro hparts
    rcases hparts with ⟨s', reply, more, hcall, hrest, rfl⟩
    simp only [run, hcall, hrest]

theorem run_append {s s'' : State} {first second : List Call}
    {replies : List Reply} :
    transport.run s (first ++ second) = some (s'', replies) <->
      exists s' before after, transport.run s first = some (s', before) ∧
        transport.run s' second = some (s'', after) ∧ replies = before ++ after := by
  induction first generalizing s replies with
  | nil =>
      constructor
      · intro h
        exact ⟨s, [], replies, rfl, h, rfl⟩
      · intro hparts
        rcases hparts with ⟨s', before, after, hfirst, hsecond, rfl⟩
        cases hfirst
        exact hsecond
  | cons call rest ih =>
      rw [List.cons_append, run_cons]
      constructor
      · intro hall
        rcases hall with ⟨s1, reply, more, hcall, hmore, rfl⟩
        rcases ih.mp hmore with ⟨s', before, after, hrest, hsecond, rfl⟩
        exact ⟨s', reply :: before, after,
          (run_cons transport).mpr ⟨s1, reply, before, hcall, hrest, rfl⟩, hsecond, rfl⟩
      · intro hgiven
        rcases hgiven with ⟨s', before, after, hfirst, hsecond, rfl⟩
        rcases (run_cons transport).mp hfirst with ⟨s1, reply, more, hcall, hrest, rfl⟩
        exact ⟨s1, reply, more ++ after, hcall,
          ih.mpr ⟨s', more, after, hrest, hsecond, rfl⟩, rfl⟩

end Transport

end Queue
end Notnets
