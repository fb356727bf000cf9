import Notnets.Queue.Call
import Notnets.Queue.PollProgress
import Notnets.Queue.SemFifo

/-!
# Both transports are rings

A ring is known from three things: the memory it was created in, the messages
that were copied into it, and the position up to which the stream was read.
These determine what every call of a single thread does.  `IsRing` says so for
a transport, and POLL and SEM are two instances of it.
-/

namespace Notnets
namespace Queue

open Foundation

/-!
# Rings
-/

/-- The ring after these messages, read up to `start`. -/
structure RingState (g : Geometry) (mem : ByteMemory) (q : SpscQueue)
    (messages : List (List Byte)) (start : Nat) : Prop where
  header : HeaderAt g q.header messages.length (start / g.messageSize)
  offset : q.header.messageOffset = (start % g.messageSize : Nat)
  memory : q.mem = ringMemory g.headerSize g.messageSize g.queueSize mem messages
  sizes : forall message, message ∈ messages -> message.length ≤ g.messageSize

def pieceSize (messageSize start size : Nat) : Nat :=
  min size (messageSize - start % messageSize)

def pieceAt (g : Geometry) (mem : ByteMemory) (messages : List (List Byte))
    (start n : Nat) : List Byte :=
  load (ringMemory g.headerSize g.messageSize g.queueSize mem messages)
    (slotAddress g.headerSize g.messageSize (start / g.messageSize % g.queueSize) +
      (start % g.messageSize : Nat)) n

structure IsRing {State : Type} (transport : Transport State) (g : Geometry)
    (mem : ByteMemory) (Holds : State -> List (List Byte) -> Nat -> Prop) : Prop where
  window : forall s messages start, Holds s messages start ->
    start / g.messageSize ≤ messages.length ∧
      messages.length < start / g.messageSize + g.queueSize ∧
        forall message, message ∈ messages -> message.length ≤ g.messageSize
  rejects : forall s messages start buf, Holds s messages start ->
    g.messageSize < buf.length -> transport.push s buf = some (s, -1)
  sends : forall s messages start buf, Holds s messages start ->
    buf.length ≤ g.messageSize ->
    messages.length + 1 ≠ start / g.messageSize + g.queueSize ->
    exists s', transport.push s buf = some (s', 0) ∧ Holds s' (messages ++ [buf]) start
  fills : forall s messages start buf, Holds s messages start ->
    buf.length ≤ g.messageSize ->
    messages.length + 1 = start / g.messageSize + g.queueSize ->
    transport.push s buf = none
  receives : forall s messages start size, Holds s messages start ->
    size + start % g.messageSize < 2 ^ 64 -> start / g.messageSize ≠ messages.length ->
    exists s', transport.pop s size = some (s',
        ⟨pieceSize g.messageSize start size,
          pieceAt g mem messages start (pieceSize g.messageSize start size),
          (start + pieceSize g.messageSize start size) % g.messageSize⟩) ∧
      Holds s' messages (start + pieceSize g.messageSize start size)
  overruns : forall s messages start size, Holds s messages start ->
    size < 2 ^ 64 -> 2 ^ 64 ≤ size + start % g.messageSize ->
    start / g.messageSize ≠ messages.length ->
    exists s' reply, transport.pop s size = some (s', reply) ∧ reply.size = size
  drains : forall s messages start size, Holds s messages start ->
    start / g.messageSize = messages.length -> transport.pop s size = none

/-!
# Steps of a ring
-/

theorem pieceSize_le {messageSize : Nat} (hpos : 0 < messageSize) (start size : Nat) :
    start % messageSize + pieceSize messageSize start size ≤ messageSize := by
  have hlt := Nat.mod_lt start hpos
  unfold pieceSize
  lia

theorem clampSize_eq {g : Geometry} {start size : Nat}
    (hsize : size + start % g.messageSize < 2 ^ 64) :
    clampSize g.messageSize (start % g.messageSize : Nat) size =
      pieceSize g.messageSize start size :=
  clampSize_eq_min (Nat.mod_lt _ g.messageSize_pos) hsize

namespace RingState

variable {g : Geometry} {mem : ByteMemory} {q : SpscQueue}
  {messages : List (List Byte)} {start : Nat}

theorem setCurrentCount (h : RingState g mem q messages start) (count : Int) :
    RingState g mem (q.setCurrentCount count) messages start :=
  ⟨⟨h.header.messageSize, h.header.queueSize, h.header.running, h.header.head,
    h.header.tail, h.header.read_le, h.header.pushed_lt⟩, h.offset, h.memory, h.sizes⟩

theorem setTotalCount (h : RingState g mem q messages start) (count : Int) :
    RingState g mem (q.setTotalCount count) messages start :=
  ⟨⟨h.header.messageSize, h.header.queueSize, h.header.running, h.header.head,
    h.header.tail, h.header.read_le, h.header.pushed_lt⟩, h.offset, h.memory, h.sizes⟩

theorem publish (h : RingState g mem q messages start) {buf : List Byte} {next : Int}
    (hfits : buf.length ≤ g.messageSize)
    (hroom : messages.length + 1 ≠ start / g.messageSize + g.queueSize)
    (hnext : next = ((messages.length + 1) % g.queueSize : Nat)) :
    RingState g mem ((q.copy (slotAddress g.headerSize g.messageSize
      (messages.length % g.queueSize)) buf).setHead next) (messages ++ [buf]) start where
  header := by
    have hle := h.header.read_le
    have hlt := h.header.pushed_lt
    rw [List.length_append, List.length_singleton]
    exact ⟨h.header.messageSize, h.header.queueSize, h.header.running, hnext,
      h.header.tail, by lia, by lia⟩
  offset := h.offset
  memory := by
    rw [ringMemory_snoc, ← h.memory]
    rfl
  sizes := by
    intro message hmessage
    rcases List.mem_append.mp hmessage with hold | hnew
    · exact h.sizes message hold
    · rw [List.mem_singleton.mp hnew]
      exact hfits

theorem advance (h : RingState g mem q messages start) {n : Nat} {next : Int}
    (hmessage : start / g.messageSize ≠ messages.length)
    (hfull : start % g.messageSize + n = g.messageSize)
    (hnext : next = ((start / g.messageSize + 1) % g.queueSize : Nat)) :
    RingState g mem ((q.setMessageOffset 0).setTail next) messages (start + n) := by
  rcases position_full g.messageSize_pos hfull with ⟨hdiv, hmod⟩
  have hle := h.header.read_le
  have hlt := h.header.pushed_lt
  refine ⟨?_, ?_, h.memory, h.sizes⟩
  · rw [hdiv]
    exact ⟨h.header.messageSize, h.header.queueSize, h.header.running, h.header.head,
      hnext, by lia, by lia⟩
  · rw [hmod]
    rfl

theorem stay (h : RingState g mem q messages start) {n : Nat}
    (hpart : start % g.messageSize + n < g.messageSize) :
    RingState g mem (q.setMessageOffset (start % g.messageSize + n : Nat)) messages
      (start + n) := by
  rcases position_within hpart with ⟨hdiv, hmod⟩
  refine ⟨?_, ?_, h.memory, h.sizes⟩
  · rw [hdiv]
    exact ⟨h.header.messageSize, h.header.queueSize, h.header.running, h.header.head,
      h.header.tail, h.header.read_le, h.header.pushed_lt⟩
  · rw [hmod]
    rfl

theorem advanceOffset_eq (h : RingState g mem q messages start) (size : Nat) :
    advanceOffset q.header.messageOffset (pieceSize g.messageSize start size) =
        (start % g.messageSize + pieceSize g.messageSize start size : Nat) ∧
      toSizeT (start % g.messageSize + pieceSize g.messageSize start size : Nat) =
        start % g.messageSize + pieceSize g.messageSize start size := by
  have hle := pieceSize_le g.messageSize_pos start size
  have hmessage := g.messageSize_lt
  constructor
  · rw [h.offset]
    exact advanceOffset_of_fits hle
  · exact toSizeT_natCast (by lia)

end RingState

theorem ringState_created {g : Geometry} {shmSize : Nat} {header : SpscQueueHeader}
    {usable : Int} (mem : ByteMemory)
    (hcreate : createHeader g.headerSize shmSize g.messageSize = .ok (header, usable))
    (hsize : header.queueSize = g.queueSize) :
    RingState g mem ⟨header, mem⟩ [] 0 := by
  rcases createHeader_ok hcreate with ⟨n, _, hheader⟩
  subst hheader
  have hpos := g.queueSize_pos
  refine ⟨⟨rfl, hsize, rfl, ?_, ?_, ?_, ?_⟩, ?_, rfl, nofun⟩
  · simp
  · simp
  · simp
  · simpa using hpos
  · simp

/-!
# Calls of a ring
-/

namespace Call

/-- A call whose buffer size is a `size_t`. -/
def Sized : Call -> Prop
  | .send _ => True
  | .receive size => size < 2 ^ 64

instance (call : Call) : Decidable call.Sized :=
  match call with
  | .send _ => .isTrue trivial
  | .receive size => inferInstanceAs (Decidable (size < 2 ^ 64))

end Call

namespace IsRing

variable {State : Type} {transport : Transport State} {g : Geometry} {mem : ByteMemory}
  {Holds : State -> List (List Byte) -> Nat -> Prop} {s s' : State}
  {messages : List (List Byte)} {start : Nat} {reply : Reply}

theorem send_cases (hring : IsRing transport g mem Holds) {buf : List Byte}
    (hs : Holds s messages start)
    (h : transport.call s (.send buf) = some (s', reply)) :
    (g.messageSize < buf.length ∧ reply = .sent (-1) ∧ s' = s) ∨
      (buf.length ≤ g.messageSize ∧
        messages.length + 1 < start / g.messageSize + g.queueSize ∧
          reply = .sent 0 ∧ Holds s' (messages ++ [buf]) start) := by
  by_cases hlarge : g.messageSize < buf.length
  · simp only [Transport.call, hring.rejects s messages start buf hs hlarge,
      Option.map_some] at h
    cases h
    exact Or.inl ⟨hlarge, rfl, rfl⟩
  · by_cases hfull : messages.length + 1 = start / g.messageSize + g.queueSize
    · simp only [Transport.call, hring.fills s messages start buf hs (by lia) hfull,
        Option.map_none] at h
      cases h
    · have hlt := (hring.window s messages start hs).right.left
      rcases hring.sends s messages start buf hs (by lia) hfull with ⟨s1, hpush, hholds⟩
      simp only [Transport.call, hpush, Option.map_some] at h
      cases h
      exact Or.inr ⟨by lia, by lia, rfl, hholds⟩

theorem receive_cases (hring : IsRing transport g mem Holds) {size : Nat}
    (hs : Holds s messages start) (hsize : size + start % g.messageSize < 2 ^ 64)
    (h : transport.call s (.receive size) = some (s', reply)) :
    start / g.messageSize < messages.length ∧
      reply = .received ⟨pieceSize g.messageSize start size,
        pieceAt g mem messages start (pieceSize g.messageSize start size),
        (start + pieceSize g.messageSize start size) % g.messageSize⟩ ∧
      Holds s' messages (start + pieceSize g.messageSize start size) := by
  have hle := (hring.window s messages start hs).left
  by_cases hempty : start / g.messageSize = messages.length
  · simp only [Transport.call, hring.drains s messages start size hs hempty,
      Option.map_none] at h
    cases h
  · rcases hring.receives s messages start size hs hsize hempty with ⟨s1, hpop, hholds⟩
    simp only [Transport.call, hpop, Option.map_some] at h
    cases h
    exact ⟨by lia, rfl, hholds⟩

end IsRing

theorem exists_size {State : Type} {result : Option (State × PopReply)} {s' : State}
    {reply : PopReply} {n : Nat} (h : result = some (s', reply))
    (hsize : reply.size = n) :
    exists s' reply, result = some (s', reply) ∧ reply.size = n :=
  ⟨s', reply, h, hsize⟩

/-!
# POLL
-/

section Poll

variable {g : Geometry} {mem : ByteMemory} {q : SpscQueue}
  {messages : List (List Byte)} {start : Nat}

theorem RingState.tail_ne_head (h : RingState g mem q messages start)
    (hmessage : start / g.messageSize ≠ messages.length) :
    q.header.tail ≠ q.header.head := by
  rw [h.header.tail]
  intro hempty
  exact hmessage (h.header.empty_iff.mp hempty).symm

theorem popMessage_size (q : SpscQueue) (readerTail : Int) (size : Nat) :
    (popMessage q readerTail size).2.size = size := by
  simp only [popMessage, apply_ite Prod.snd, apply_ite PopReply.size, ite_self]

theorem popMessage_ring (hbase : g.headerSize = sizeofSpscQueueHeader)
    (h : RingState g mem q messages start)
    (hmessage : start / g.messageSize ≠ messages.length) (size : Nat) :
    (popMessage q q.header.tail (pieceSize g.messageSize start size)).2 =
        ⟨pieceSize g.messageSize start size,
          pieceAt g mem messages start (pieceSize g.messageSize start size),
          (start + pieceSize g.messageSize start size) % g.messageSize⟩ ∧
      RingState g mem (popMessage q q.header.tail (pieceSize g.messageSize start size)).1
        messages (start + pieceSize g.messageSize start size) := by
  rcases h.advanceOffset_eq size with ⟨hadvance, hcast⟩
  have hle := pieceSize_le g.messageSize_pos start size
  have hbytes : load q.mem (popAddress q.header q.header.tail)
      (pieceSize g.messageSize start size) =
        pieceAt g mem messages start (pieceSize g.messageSize start size) := by
    rw [h.header.tail, popAddress_eq_slotAddress h.header.messageSize, h.offset,
      h.memory, ← hbase]
    rfl
  simp only [popMessage, hadvance, hcast, h.header.messageSize, hbytes]
  by_cases hfull : start % g.messageSize + pieceSize g.messageSize start size =
      g.messageSize
  · rw [if_pos hfull]
    refine ⟨?_, h.advance hmessage hfull ?_⟩
    · rw [(position_full g.messageSize_pos hfull).right]
    · rw [h.header.tail]
      exact h.header.nextIndex_mod _
  · rw [if_neg hfull]
    refine ⟨?_, h.stay (by lia)⟩
    rw [(position_within (by lia)).right]

theorem poll_isRing (hbase : g.headerSize = sizeofSpscQueueHeader) (mem : ByteMemory) :
    IsRing pollTransport g mem (RingState g mem) where
  window _ _ _ h := ⟨h.header.read_le, h.header.pushed_lt, h.sizes⟩
  rejects := by
    intro q messages start buf h hlarge
    apply push_large
    rw [h.header.messageSize]
    exact hlarge
  sends := by
    intro q messages start buf h hfits hroom
    have hnext := h.header.nextIndex_mod messages.length
    rw [← h.header.head] at hnext
    have hfree : nextIndex q.header q.header.head ≠ q.header.tail := by
      rw [hnext]
      intro hfull
      exact hroom (h.header.full_iff.mp hfull)
    have haddress : pushAddress (toInt32 q.header.messageSize) q.header.head =
        slotAddress g.headerSize g.messageSize (messages.length % g.queueSize) := by
      rw [h.header.messageSize, toInt32_natCast g.messageSize_lt, h.header.head, hbase]
      exact pushAddress_eq_slotAddress g messages.length
    refine ⟨_, push_room (by rw [h.header.messageSize]; exact hfits) hfree, ?_⟩
    rw [haddress]
    exact h.publish hfits hroom hnext
  fills := by
    intro q messages start buf h hfits hfull
    apply push_full
    · rw [h.header.messageSize]
      exact hfits
    · rw [h.header.head, h.header.nextIndex_mod]
      exact h.header.full_iff.mpr hfull
  receives := by
    intro q messages start size h hsize hmessage
    have hnonempty := h.tail_ne_head hmessage
    have hclamp : clampSize q.header.messageSize q.header.messageOffset size =
        pieceSize g.messageSize start size := by
      rw [h.header.messageSize, h.offset]
      exact clampSize_eq hsize
    rcases popMessage_ring hbase h hmessage size with ⟨hreply, hring⟩
    refine ⟨_, ?_, hring⟩
    rw [pollTransport_pop, pop_nonempty h.header.running hnonempty, hclamp, ← hreply,
      Prod.mk.eta]
  overruns := by
    intro q messages start size h hsize hwrap hmessage
    have hnonempty := h.tail_ne_head hmessage
    have hclamp : clampSize q.header.messageSize q.header.messageOffset size = size := by
      rw [h.header.messageSize, h.offset]
      exact clampSize_overrun (Nat.mod_lt _ g.messageSize_pos) hsize hwrap
    have hpop : pop q size = some
        ((popMessage q q.header.tail size).1, (popMessage q q.header.tail size).2) := by
      rw [pop_nonempty h.header.running hnonempty, hclamp, Prod.mk.eta]
    exact exists_size hpop (popMessage_size _ _ _)
  drains := by
    intro q messages start size h hempty
    apply pop_empty h.header.running
    rw [h.header.tail]
    exact h.header.empty_iff.mpr hempty.symm

end Poll

/-!
# SEM
-/

section Sem

variable {g : Geometry} {mem : ByteMemory} {q : SpscQueue}
  {messages : List (List Byte)} {start : Nat}

theorem HeaderAt.succ_mod {header : SpscQueueHeader} {pushed read : Nat}
    (h : HeaderAt g header pushed read) (m : Nat) :
    succ (m % g.queueSize : Nat) header.queueSize = ((m + 1) % g.queueSize : Nat) := by
  rw [h.queueSize]
  exact Queue.succ_mod g.queueSize_pos g.queueSize_lt m

theorem HeaderAt.isFull_iff {header : SpscQueueHeader} {pushed read : Nat}
    (h : HeaderAt g header pushed read) :
    isFull header = true <-> pushed + 1 = read + g.queueSize := by
  unfold isFull
  rw [decide_eq_true_iff, h.head, h.succ_mod]
  exact h.full_iff

theorem HeaderAt.isEmpty_iff {header : SpscQueueHeader} {pushed read : Nat}
    (h : HeaderAt g header pushed read) :
    isEmpty header = true <-> pushed = read := by
  unfold isEmpty
  rw [decide_eq_true_iff, eq_comm, h.tail]
  exact h.empty_iff

theorem HeaderAt.queueSize_ne_zero {header : SpscQueueHeader} {pushed read : Nat}
    (h : HeaderAt g header pushed read) : header.queueSize ≠ 0 := by
  have hpos := g.queueSize_pos
  rw [h.queueSize]
  lia

theorem RingState.not_drained (h : RingState g mem q messages start)
    (hmessage : start / g.messageSize ≠ messages.length) :
    ¬ (q.header.queueSize = 0 ∨ isEmpty q.header) := by
  rw [h.header.isEmpty_iff]
  exact not_or.mpr ⟨h.header.queueSize_ne_zero, fun hempty => hmessage hempty.symm⟩

theorem dequeue_size (q : SpscQueue) (size : Nat) :
    (dequeue q size).2.size =
      clampSize q.header.messageSize q.header.messageOffset size := by
  simp only [dequeue, apply_ite Prod.snd, apply_ite PopReply.size, ite_self]

theorem dequeue_ring (hbase : g.headerSize = sizeofSemSpscQueueHeader)
    (h : RingState g mem q messages start)
    (hmessage : start / g.messageSize ≠ messages.length) {size : Nat}
    (hsize : size + start % g.messageSize < 2 ^ 64) :
    (dequeue q size).2 =
        ⟨pieceSize g.messageSize start size,
          pieceAt g mem messages start (pieceSize g.messageSize start size),
          (start + pieceSize g.messageSize start size) % g.messageSize⟩ ∧
      RingState g mem (dequeue q size).1 messages
        (start + pieceSize g.messageSize start size) := by
  rcases h.advanceOffset_eq size with ⟨hadvance, hcast⟩
  have hle := pieceSize_le g.messageSize_pos start size
  have hclamp : clampSize g.messageSize q.header.messageOffset size =
      pieceSize g.messageSize start size := by
    rw [h.offset]
    exact clampSize_eq hsize
  have hbytes : load q.mem (dequeueAddress q.header)
      (pieceSize g.messageSize start size) =
        pieceAt g mem messages start (pieceSize g.messageSize start size) := by
    rw [dequeueAddress_eq_slotAddress h.header.messageSize h.header.tail, h.offset,
      h.memory, ← hbase]
    rfl
  simp only [dequeue, h.header.messageSize, hclamp, hadvance, hcast, hbytes]
  by_cases hfull : start % g.messageSize + pieceSize g.messageSize start size =
      g.messageSize
  · rw [if_pos hfull]
    have hnext : succ q.header.tail q.header.queueSize =
        ((start / g.messageSize + 1) % g.queueSize : Nat) := by
      rw [h.header.tail]
      exact h.header.succ_mod _
    refine ⟨?_, (h.advance hmessage hfull hnext).setCurrentCount _⟩
    rw [(position_full g.messageSize_pos hfull).right]
  · rw [if_neg hfull]
    refine ⟨?_, h.stay (by lia)⟩
    rw [(position_within (by lia)).right]

/-- What a call posts at its end is not the lock. -/
theorem unlocked_after {values : Semaphore -> Nat} (hlock : values .lock ≠ 0)
    {which : Semaphore} (posts : Bool) (hother : Semaphore.lock ≠ which) :
    (if posts = true then semPost values which true else values) .lock ≠ 0 := by
  cases posts with
  | true =>
      rw [if_pos rfl, semPost_other values true hother]
      exact hlock
  | false => exact hlock

structure SemRingState (g : Geometry) (mem : ByteMemory) (s : SemQueue)
    (messages : List (List Byte)) (start : Nat) : Prop where
  ring : RingState g mem s.queue messages start
  unlocked : s.values .lock ≠ 0

theorem SemRingState.exists_reply {ring : SpscQueue} {values : Semaphore -> Nat}
    {messages : List (List Byte)} {reply reply' : PopReply} (hreply : reply = reply')
    (hring : RingState g mem ring messages start) (hunlocked : values .lock ≠ 0) :
    exists s', some (SemQueue.mk ring values, reply) = some (s', reply') ∧
      SemRingState g mem s' messages start :=
  ⟨_, by rw [hreply], hring, hunlocked⟩

theorem sem_isRing (hbase : g.headerSize = sizeofSemSpscQueueHeader) (mem : ByteMemory) :
    IsRing semTransport g mem (SemRingState g mem) where
  window _ _ _ h := ⟨h.ring.header.read_le, h.ring.header.pushed_lt, h.ring.sizes⟩
  rejects := by
    intro s messages start buf h hlarge
    apply semPush_large
    rw [h.ring.header.messageSize]
    exact hlarge
  sends := by
    intro s messages start buf h hfits hroom
    have hfree : ¬ (s.queue.header.queueSize = 0 ∨ isFull s.queue.header) := by
      rw [h.ring.header.isFull_iff]
      exact not_or.mpr ⟨h.ring.header.queueSize_ne_zero, hroom⟩
    have hnext : succ s.queue.header.head s.queue.header.queueSize =
        ((messages.length + 1) % g.queueSize : Nat) := by
      rw [h.ring.header.head]
      exact h.ring.header.succ_mod _
    have haddress : enqueueAddress s.queue.header =
        slotAddress g.headerSize g.messageSize (messages.length % g.queueSize) := by
      rw [hbase]
      exact enqueueAddress_eq_slotAddress h.ring.header.messageSize h.ring.header.head
    have hring : RingState g mem (enqueue s.queue buf) (messages ++ [buf]) start := by
      unfold enqueue
      rw [haddress]
      exact ((h.ring.publish hfits hroom hnext).setCurrentCount _).setTotalCount _
    have hpush :=
      semPush_room (by rw [h.ring.header.messageSize]; exact hfits) h.unlocked hfree
    have hunlocked := unlocked_after h.unlocked (isEmpty s.queue.header)
      (by decide : Semaphore.lock ≠ .empty)
    generalize (if isEmpty s.queue.header = true then semPost s.values .empty true
      else s.values) = values at hpush hunlocked
    rw [semTransport_push]
    exact ⟨_, hpush, hring, hunlocked⟩
  fills := by
    intro s messages start buf h hfits hfull
    apply semPush_full
    · rw [h.ring.header.messageSize]
      exact hfits
    · exact Or.inr (h.ring.header.isFull_iff.mpr hfull)
  receives := by
    intro s messages start size h hsize hmessage
    have hnonempty := h.ring.not_drained hmessage
    rcases dequeue_ring hbase h.ring hmessage hsize with ⟨hreply, hring⟩
    rw [semTransport_pop, semPop_nonempty h.ring.header.running h.unlocked hnonempty]
    exact SemRingState.exists_reply hreply hring
      (unlocked_after h.unlocked (isFull s.queue.header) (by decide))
  overruns := by
    intro s messages start size h hsize hwrap hmessage
    have hclamp : clampSize s.queue.header.messageSize s.queue.header.messageOffset size =
        size := by
      rw [h.ring.header.messageSize, h.ring.offset]
      exact clampSize_overrun (Nat.mod_lt _ g.messageSize_pos) hsize hwrap
    exact exists_size
      (semPop_nonempty h.ring.header.running h.unlocked (h.ring.not_drained hmessage))
      ((dequeue_size _ _).trans hclamp)
  drains := by
    intro s messages start size h hempty
    apply semPop_empty h.ring.header.running
    exact Or.inr (h.ring.header.isEmpty_iff.mpr hempty.symm)

end Sem

end Queue
end Notnets
