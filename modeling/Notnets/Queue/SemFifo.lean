import Notnets.Queue.PollFifo
import Notnets.Queue.SemWakeUp

/-!
# The SEM queue is a mutually exclusive message stream

The lock keeps the two counters of a queue consistent, and the window keeps the
slot being written apart from the slots being read, as in the POLL queue.
-/

namespace Notnets
namespace Queue

open Foundation

/-- Full-size messages, positive buffer sizes that do not wrap, and no failing
semaphore operation. -/
def SemFullSizeTraffic (messageSize : Nat) : SemLabel -> Prop
  | .push buf => buf.length = messageSize
  | .pop size => 0 < size ∧ size + messageSize < 2 ^ 64
  | .producer ok => ok = true
  | .consumer ok => ok = true

instance (messageSize : Nat) (l : SemLabel) :
    Decidable (SemFullSizeTraffic messageSize l) :=
  match l with
  | .push buf => inferInstanceAs (Decidable (buf.length = messageSize))
  | .pop size =>
      inferInstanceAs (Decidable (0 < size ∧ size + messageSize < 2 ^ 64))
  | .producer ok => inferInstanceAs (Decidable (ok = true))
  | .consumer ok => inferInstanceAs (Decidable (ok = true))

theorem semopsSucceed_of_fullSize {messageSize : Nat} {l : SemLabel}
    (h : SemFullSizeTraffic messageSize l) : SemopsSucceed l := by
  cases l with
  | push buf => trivial
  | producer ok => exact h
  | pop size => trivial
  | consumer ok => exact h

/-!
# Contents
-/

/-- The message of a running `sem_push`, and the part of it already copied. -/
def SemProducerAt (g : Geometry) (mem : ByteMemory) (pushed : Nat) :
    SemPushPc -> Prop
  | .idle _ | .unlocking _ | .posting => True
  | .entered buf | .locking buf | .sampling buf | .testing buf _
  | .releasing buf _ | .retesting buf _ | .waiting buf _ | .relocking buf _ =>
      buf.length = g.messageSize
  | .copying buf _ copied =>
      buf.length = g.messageSize ∧
        HoldsAt mem
          (slotAddress sizeofSemSpscQueueHeader g.messageSize
            (pushed % g.queueSize))
          (buf.take copied)
  | .counting buf _ | .counted buf _ _ | .totaling buf _ | .publishing buf _ =>
      buf.length = g.messageSize ∧
        HoldsAt mem
          (slotAddress sizeofSemSpscQueueHeader g.messageSize
            (pushed % g.queueSize))
          buf

/-- Between calls of `dequeue` the header shows the stream position. -/
def AtRest (g : Geometry) (messageOffset : Int) (retired start : Nat) : Prop :=
  messageOffset = (start % g.messageSize : Nat) ∧ retired = start / g.messageSize

/-- The buffer and the message offset of a running `sem_pop`, when the
completed calls of `dequeue` have read the stream up to `start`. -/
def SemConsumerAt (g : Geometry) (messageOffset : Int) (retired : Nat)
    (pushed : List (List Byte)) (start : Nat) : SemPopPc -> Prop
  | .idle _ | .unlocking _ _ | .posting _ => AtRest g messageOffset retired start
  | .entered size | .locking size | .sampling size | .testing size _
  | .releasing size _ | .retesting size _ | .waiting size _ | .relocking size _
  | .clamping size _ =>
      AtRest g messageOffset retired start ∧ 0 < size ∧
        size + g.messageSize < 2 ^ 64
  | .copying size _ buf =>
      AtRest g messageOffset retired start ∧ 0 < size ∧
        start % g.messageSize + size ≤ g.messageSize ∧ buf.length ≤ size ∧
        PieceAt g.messageSize pushed start buf
  | .advanced buf _ =>
      messageOffset = (start % g.messageSize + buf.length : Nat) ∧
        retired = start / g.messageSize ∧ 0 < buf.length ∧
        start % g.messageSize + buf.length ≤ g.messageSize ∧
        PieceAt g.messageSize pushed start buf
  | .retiring buf _ =>
      retired = start / g.messageSize ∧ 0 < buf.length ∧
        start % g.messageSize + buf.length = g.messageSize ∧
        PieceAt g.messageSize pushed start buf
  | .counting buf _ | .counted buf _ _ | .resetting buf _ =>
      retired = start / g.messageSize + 1 ∧ 0 < buf.length ∧
        start % g.messageSize + buf.length = g.messageSize ∧
        PieceAt g.messageSize pushed start buf
  | .returning buf _ =>
      AtRest g messageOffset retired (start + buf.length) ∧ 0 < buf.length ∧
        start % g.messageSize + buf.length ≤ g.messageSize ∧
        PieceAt g.messageSize pushed start buf

structure SemContents (g : Geometry) (s : SemState) : Prop where
  messageSize : s.queue.header.messageSize = g.messageSize
  running : s.queue.header.stopConsumerPolling = false
  uniform : forall message, message ∈ s.pushed -> message.length = g.messageSize
  ring : RingHolds sizeofSemSpscQueueHeader g.messageSize g.queueSize s.queue.mem
    s.pushed s.retired
  producer : SemProducerAt g s.queue.mem s.pushed.length s.producer
  consumer : SemConsumerAt g s.queue.header.messageOffset s.retired s.pushed
    (position s.popped) s.consumer
  log : Delivered g.messageSize s.pushed s.popped

structure SameContents (a b : SpscQueue) : Prop where
  mem : b.mem = a.mem
  messageSize : b.header.messageSize = a.header.messageSize
  running : b.header.stopConsumerPolling = a.header.stopConsumerPolling

theorem SameContents.refl (q : SpscQueue) : SameContents q q :=
  ⟨rfl, rfl, rfl⟩

theorem sameContents_setMessageOffset (q : SpscQueue) (messageOffset : Int) :
    SameContents q (q.setMessageOffset messageOffset) :=
  ⟨rfl, rfl, rfl⟩

theorem sameContents_setCurrentCount (q : SpscQueue) (currentCount : Int) :
    SameContents q (q.setCurrentCount currentCount) :=
  ⟨rfl, rfl, rfl⟩

theorem sameContents_setTotalCount (q : SpscQueue) (totalCount : Int) :
    SameContents q (q.setTotalCount totalCount) :=
  ⟨rfl, rfl, rfl⟩

namespace SemContents

variable {g : Geometry} {s : SemState}

theorem updatePush (h : SemContents g s) {q : SpscQueue}
    (hsame : SameContents s.queue q)
    (hoffset : q.header.messageOffset = s.queue.header.messageOffset)
    (values : Semaphore -> Nat) {pc : SemPushPc}
    (hproducer : SemProducerAt g s.queue.mem s.pushed.length pc) :
    SemContents g (s.afterPush ⟨q, values, pc, none⟩) := by
  simp only [SemState.afterPush, Option.toList_none, List.append_nil]
  constructor
  · rw [hsame.messageSize]
    exact h.messageSize
  · rw [hsame.running]
    exact h.running
  · exact h.uniform
  · rw [hsame.mem]
    exact h.ring
  · rw [hsame.mem]
    exact hproducer
  · rw [hoffset]
    exact h.consumer
  · exact h.log

theorem quietPush (h : SemContents g s) (values : Semaphore -> Nat)
    {pc : SemPushPc}
    (hproducer : SemProducerAt g s.queue.mem s.pushed.length pc) :
    SemContents g (s.afterPush ⟨s.queue, values, pc, none⟩) :=
  h.updatePush (SameContents.refl _) rfl values hproducer

theorem updatePop (h : SemContents g s) {q : SpscQueue}
    (hsame : SameContents s.queue q) (values : Semaphore -> Nat) {pc : SemPopPc}
    (hconsumer : SemConsumerAt g q.header.messageOffset s.retired s.pushed
      (position s.popped) pc) :
    SemContents g (s.afterPop ⟨q, values, pc, false, none⟩) := by
  simp only [SemState.afterPop, Option.toList_none, List.append_nil,
    Bool.toNat_false, Nat.add_zero]
  constructor
  · rw [hsame.messageSize]
    exact h.messageSize
  · rw [hsame.running]
    exact h.running
  · exact h.uniform
  · rw [hsame.mem]
    exact h.ring
  · rw [hsame.mem]
    exact h.producer
  · exact hconsumer
  · exact h.log

theorem quietPop (h : SemContents g s) (values : Semaphore -> Nat)
    {pc : SemPopPc}
    (hconsumer : SemConsumerAt g s.queue.header.messageOffset s.retired s.pushed
      (position s.popped) pc) :
    SemContents g (s.afterPop ⟨s.queue, values, pc, false, none⟩) :=
  h.updatePop (SameContents.refl _) values hconsumer

end SemContents

theorem semConsumerAt_append {g : Geometry} {messageOffset : Int}
    {retired start : Nat} {pushed : List (List Byte)} {pc : SemPopPc}
    (h : SemConsumerAt g messageOffset retired pushed start pc)
    (more : List (List Byte)) :
    SemConsumerAt g messageOffset retired (pushed ++ more) start pc := by
  cases pc with
  | copying size wasFull buf =>
      rcases h with ⟨hrest, hpos, hsize, hlen, hpiece⟩
      exact ⟨hrest, hpos, hsize, hlen, pieceAt_append hpiece more⟩
  | advanced buf wasFull =>
      rcases h with ⟨hoffset, hretired, hpos, hfits, hpiece⟩
      exact ⟨hoffset, hretired, hpos, hfits, pieceAt_append hpiece more⟩
  | retiring buf wasFull =>
      rcases h with ⟨hretired, hpos, hfits, hpiece⟩
      exact ⟨hretired, hpos, hfits, pieceAt_append hpiece more⟩
  | counting buf wasFull =>
      rcases h with ⟨hretired, hpos, hfits, hpiece⟩
      exact ⟨hretired, hpos, hfits, pieceAt_append hpiece more⟩
  | counted buf wasFull currentCount =>
      rcases h with ⟨hretired, hpos, hfits, hpiece⟩
      exact ⟨hretired, hpos, hfits, pieceAt_append hpiece more⟩
  | resetting buf wasFull =>
      rcases h with ⟨hretired, hpos, hfits, hpiece⟩
      exact ⟨hretired, hpos, hfits, pieceAt_append hpiece more⟩
  | returning buf wasFull =>
      rcases h with ⟨hrest, hpos, hfits, hpiece⟩
      exact ⟨hrest, hpos, hfits, pieceAt_append hpiece more⟩
  | _ => exact h

/-!
# Addresses
-/

theorem enqueueAddress_eq_slotAddress {g : Geometry} {header : SpscQueueHeader}
    {m : Nat} (hsize : header.messageSize = g.messageSize)
    (hhead : header.head = (m % g.queueSize : Nat)) :
    enqueueAddress header =
      slotAddress sizeofSemSpscQueueHeader g.messageSize (m % g.queueSize) := by
  unfold enqueueAddress slotAddress
  rw [hsize, hhead, toInt32_natCast g.messageSize_lt,
    g.toInt32_slot (Nat.mod_lt m g.queueSize_pos)]

theorem dequeueAddress_eq_slotAddress {g : Geometry} {header : SpscQueueHeader}
    {m : Nat} (hsize : header.messageSize = g.messageSize)
    (htail : header.tail = (m % g.queueSize : Nat)) :
    dequeueAddress header =
      slotAddress sizeofSemSpscQueueHeader g.messageSize (m % g.queueSize) +
        header.messageOffset := by
  unfold dequeueAddress slotAddress
  rw [hsize, htail, g.sizeMul_slot (Nat.mod_lt m g.queueSize_pos)]

/-!
# One step of each call
-/

theorem semPushStep_contents {g : Geometry} {s : SemState} {ok : Bool}
    {out : SemPushOutcome} (hi : SemIndices g.queueSize s) (h : SemContents g s)
    (hout : semPushStep s.queue s.values ok s.producer = some out) :
    SemContents g (s.afterPush out) := by
  have hproducer := h.producer
  generalize s.producer = pc at hout hproducer
  cases semPushMove_of_step hout with
  | reject _ => exact h.quietPush _ trivial
  | enter _ => exact h.quietPush _ hproducer
  | lock _ => exact h.quietPush _ hproducer
  | sample => exact h.quietPush _ hproducer
  | full _ => exact h.quietPush _ hproducer
  | room _ => exact h.quietPush _ ⟨hproducer, holdsAt_nil _ _⟩
  | release => exact h.quietPush _ hproducer
  | stillFull _ => exact h.quietPush _ hproducer
  | nowRoom _ => exact h.quietPush _ hproducer
  | wait _ => exact h.quietPush _ hproducer
  | relock _ => exact h.quietPush _ ⟨hproducer, holdsAt_nil _ _⟩
  | copy hbyte =>
      rcases hproducer with ⟨hlen, hheld⟩
      rcases List.getElem?_eq_some_iff.mp hbyte with ⟨hlt, hb⟩
      rw [enqueueAddress_eq_slotAddress h.messageSize hi.window.head]
      simp only [SemState.afterPush, Option.toList_none, List.append_nil]
      constructor
      · exact h.messageSize
      · exact h.running
      · exact h.uniform
      · apply ringHolds_write h.ring hi.window.pushed_lt
        · intro message hmessage
          exact Nat.le_of_eq (h.uniform message hmessage)
        · lia
      · constructor
        · exact hlen
        · rw [← hb]
          exact holdsAt_write_next hlt hheld
      · exact h.consumer
      · exact h.log
  | copied hend =>
      rcases hproducer with ⟨hlen, hheld⟩
      rw [List.take_of_length_le (List.getElem?_eq_none_iff.mp hend)] at hheld
      exact h.quietPush _ ⟨hlen, hheld⟩
  | load => exact h.quietPush _ hproducer
  | store =>
      apply h.updatePush (sameContents_setCurrentCount _ _)
      · rfl
      · exact hproducer
  | total =>
      apply h.updatePush (sameContents_setTotalCount _ _)
      · rfl
      · exact hproducer
  | @publish buf wasEmpty =>
      rcases hproducer with ⟨hlen, hheld⟩
      simp only [SemState.afterPush, Option.toList_some]
      constructor
      · exact h.messageSize
      · exact h.running
      · intro message hmessage
        rcases List.mem_append.mp hmessage with hold | hnew
        · exact h.uniform message hold
        · rw [List.mem_singleton.mp hnew]
          exact hlen
      · exact ringHolds_append h.ring hheld
      · trivial
      · exact semConsumerAt_append h.consumer [buf]
      · exact delivered_append h.log [buf]
  | unlockFirst => exact h.quietPush _ trivial
  | unlock => exact h.quietPush _ trivial
  | post => exact h.quietPush _ trivial

theorem semPopStep_contents {g : Geometry} {s : SemState} {ok : Bool}
    {out : SemPopOutcome} (hi : SemIndices g.queueSize s) (h : SemContents g s)
    (hout : semPopStep s.queue s.values ok s.consumer = some out) :
    SemContents g (s.afterPop out) := by
  have hconsumer := h.consumer
  have hmod : position s.popped % g.messageSize < g.messageSize :=
    Nat.mod_lt _ g.messageSize_pos
  have hmessage := g.messageSize_lt
  generalize hpc : s.consumer = pc at hout hconsumer
  cases semPopMove_of_step hout with
  | stop hstop =>
      rw [h.running] at hstop
      cases hstop
  | enter _ => exact h.quietPop _ hconsumer
  | lock _ => exact h.quietPop _ hconsumer
  | sample => exact h.quietPop _ hconsumer
  | empty _ => exact h.quietPop _ hconsumer
  | message _ => exact h.quietPop _ hconsumer
  | release => exact h.quietPop _ hconsumer
  | stillEmpty _ => exact h.quietPop _ hconsumer
  | nowMessage _ => exact h.quietPop _ hconsumer
  | wait _ => exact h.quietPop _ hconsumer
  | relock _ => exact h.quietPop _ hconsumer
  | clamp =>
      have hlive := hi.message (by rw [hpc]; trivial)
      rcases hconsumer with ⟨⟨hoffset, hretired⟩, hpos, hsize⟩
      apply h.quietPop
      rw [h.messageSize, hoffset]
      refine ⟨⟨rfl, hretired⟩, clampSize_pos hmod (by lia) hpos,
        clampSize_of_fits hmod (by lia), Nat.zero_le _, ?_⟩
      rw [hretired] at hlive
      exact pieceAt_nil hlive
  | @copy size wasFull buf hmore =>
      rcases hconsumer with ⟨⟨hoffset, hretired⟩, hpos, hfits, hlen, hpiece⟩
      apply h.quietPop
      refine ⟨⟨hoffset, hretired⟩, hpos, hfits, ?_, ?_⟩
      · rw [List.length_append, List.length_singleton]
        exact hmore
      · rcases hpiece with ⟨message, hmem, hbuf⟩
        have hlength := h.uniform message (List.mem_of_getElem? hmem)
        have hheld := h.ring _ message (Nat.le_of_eq hretired) hmem
        have hread := take_succ_of_holdsAt hheld
          (by lia : position s.popped % g.messageSize + buf.length < message.length)
        refine ⟨message, hmem, ?_⟩
        rw [dequeueAddress_eq_slotAddress h.messageSize hi.window.tail, hoffset,
          hretired, Int.add_assoc, ← Int.natCast_add, List.length_append,
          List.length_singleton, ← hread, ← hbuf]
  | @advance size wasFull buf hdone =>
      rcases hconsumer with ⟨⟨hoffset, hretired⟩, hpos, hfits, hlen, hpiece⟩
      have hlength : buf.length = size := by lia
      have hadvance := advanceOffset_of_fits hfits
      rw [← hoffset] at hadvance
      apply h.updatePop (sameContents_setMessageOffset _ _)
      rw [SpscQueue.setMessageOffset_messageOffset, hadvance, ← hlength]
      exact ⟨rfl, hretired, by lia, by lia, hpiece⟩
  | whole hwhole =>
      rcases hconsumer with ⟨hoffset, hretired, hpos, hfits, hpiece⟩
      rw [hoffset, toSizeT_natCast (by lia), h.messageSize] at hwhole
      exact h.quietPop _ ⟨hretired, hpos, hwhole, hpiece⟩
  | part hpart =>
      rcases hconsumer with ⟨hoffset, hretired, hpos, hfits, hpiece⟩
      rw [hoffset, toSizeT_natCast (by lia), h.messageSize] at hpart
      rcases position_within (Nat.lt_of_le_of_ne hfits hpart) with ⟨hdiv, hrem⟩
      apply h.quietPop
      refine ⟨⟨?_, ?_⟩, hpos, hfits, hpiece⟩
      · rw [hrem]
        exact hoffset
      · rw [hdiv]
        exact hretired
  | retire =>
      rcases hconsumer with ⟨hretired, hrest⟩
      simp only [SemState.afterPop, Option.toList_none, List.append_nil,
        Bool.toNat_true]
      constructor
      · exact h.messageSize
      · exact h.running
      · exact h.uniform
      · exact ringHolds_advance h.ring (Nat.le_succ _)
      · exact h.producer
      · exact ⟨by rw [hretired], hrest⟩
      · exact h.log
  | load => exact h.quietPop _ hconsumer
  | store => exact h.updatePop (sameContents_setCurrentCount _ _) _ hconsumer
  | reset =>
      rcases hconsumer with ⟨hretired, hpos, hfull, hpiece⟩
      rcases position_full g.messageSize_pos hfull with ⟨hdiv, hrem⟩
      apply h.updatePop (sameContents_setMessageOffset _ _)
      refine ⟨⟨?_, ?_⟩, hpos, Nat.le_of_eq hfull, hpiece⟩
      · rw [hrem]
        rfl
      · rw [hdiv]
        exact hretired
  | @finish buf wasFull =>
      rcases hconsumer with ⟨⟨hoffset, hretired⟩, hpos, hfits, hpiece⟩
      have hrem : (position s.popped + buf.length) % g.messageSize < g.messageSize :=
        Nat.mod_lt _ g.messageSize_pos
      have hcast : toSizeT s.queue.header.messageOffset =
          (position s.popped + buf.length) % g.messageSize := by
        rw [hoffset, toSizeT_natCast (by lia)]
      rw [hcast]
      simp only [SemState.afterPop, Option.toList_some, Bool.toNat_false,
        Nat.add_zero]
      constructor
      · exact h.messageSize
      · exact h.running
      · exact h.uniform
      · exact h.ring
      · exact h.producer
      · show AtRest g _ _ _
        rw [position_snoc]
        exact ⟨hoffset, hretired⟩
      · exact Delivered.snoc h.log (deliversAt_of_piece hpos hfits hpiece)
  | unlockFirst => exact h.quietPop _ hconsumer
  | unlock => exact h.quietPop _ hconsumer
  | post => exact h.quietPop _ hconsumer

/-!
# The message counter

`current_count` is loaded and stored in two steps.  A call that has loaded it
holds the lock, so the other side does not store it in between.
-/

namespace SemPushPc

def ahead : SemPushPc -> Nat
  | .totaling _ _ | .publishing _ _ => 1
  | _ => 0

def Loaded (currentCount : Int) : SemPushPc -> Prop
  | .counted _ _ loaded => loaded = currentCount
  | _ => True

end SemPushPc

namespace SemPopPc

def ahead : SemPopPc -> Nat
  | .counting _ _ | .counted _ _ _ => 1
  | _ => 0

def Loaded (currentCount : Int) : SemPopPc -> Prop
  | .counted _ _ loaded => loaded = currentCount
  | _ => True

end SemPopPc

structure SemCount (s : SemState) : Prop where
  current : s.queue.header.currentCount =
    s.pushed.length - s.retired + s.producer.ahead + s.consumer.ahead
  producer : s.producer.Loaded s.queue.header.currentCount
  consumer : s.consumer.Loaded s.queue.header.currentCount

theorem semPushStep_count {q : SpscQueue} {values : Semaphore -> Nat} {ok : Bool}
    {pc : SemPushPc} {out : SemPushOutcome}
    (h : semPushStep q values ok pc = some out) :
    (out.queue.header.currentCount = q.header.currentCount ∧
      out.pc.Loaded q.header.currentCount ∧
      out.published.toList.length + out.pc.ahead = pc.ahead) ∨
    (exists buf wasEmpty loaded, pc = .counted buf wasEmpty loaded ∧
      out.queue.header.currentCount = toInt32 (loaded + 1) ∧
      out.pc = .totaling buf wasEmpty ∧ out.published = none) := by
  cases semPushMove_of_step h with
  | load => exact Or.inl ⟨rfl, rfl, rfl⟩
  | store => exact Or.inr ⟨_, _, _, rfl, rfl, rfl, rfl⟩
  | _ => exact Or.inl ⟨rfl, trivial, rfl⟩

theorem semPopStep_count {q : SpscQueue} {values : Semaphore -> Nat} {ok : Bool}
    {pc : SemPopPc} {out : SemPopOutcome}
    (h : semPopStep q values ok pc = some out) :
    (out.queue.header.currentCount = q.header.currentCount ∧
      out.pc.Loaded q.header.currentCount ∧
      out.pc.ahead = pc.ahead + out.retired.toNat) ∨
    (exists buf wasFull loaded, pc = .counted buf wasFull loaded ∧
      out.queue.header.currentCount = toInt32 (loaded - 1) ∧
      out.pc = .resetting buf wasFull ∧ out.retired = false) := by
  cases semPopMove_of_step h with
  | advance _ =>
      exact Or.inl ⟨SpscQueue.setMessageOffset_currentCount q _, trivial, rfl⟩
  | load => exact Or.inl ⟨rfl, rfl, rfl⟩
  | store => exact Or.inr ⟨_, _, _, rfl, rfl, rfl, rfl⟩
  | _ => exact Or.inl ⟨rfl, trivial, rfl⟩

theorem SemPushPc.count_of_unlocked {pc : SemPushPc} (h : pc.holdsLock = false)
    (currentCount : Int) : pc.ahead = 0 ∧ pc.Loaded currentCount := by
  cases pc with
  | counted buf wasEmpty loaded => cases h
  | totaling buf wasEmpty => cases h
  | publishing buf wasEmpty => cases h
  | _ => exact ⟨rfl, trivial⟩

theorem SemPopPc.count_of_unlocked {pc : SemPopPc} (h : pc.holdsLock = false)
    (currentCount : Int) : pc.ahead = 0 ∧ pc.Loaded currentCount := by
  cases pc with
  | counting buf wasFull => cases h
  | counted buf wasFull loaded => cases h
  | _ => exact ⟨rfl, trivial⟩

theorem semPushStep_counter {slots : Nat} {s : SemState} {ok : Bool}
    {out : SemPushOutcome} (hi : SemIndices slots s) (hlock : LockAccount s)
    (h : SemCount s)
    (hout : semPushStep s.queue s.values ok s.producer = some out) :
    SemCount (s.afterPush out) := by
  have hcurrent := h.current
  rcases semPushStep_count hout with
    ⟨hsame, hloaded, hahead⟩ | ⟨buf, wasEmpty, loaded, hpc, hstored, hnext, hnone⟩
  · constructor
    · simp only [SemState.afterPush, List.length_append]
      lia
    · show out.pc.Loaded out.queue.header.currentCount
      rw [hsame]
      exact hloaded
    · show s.consumer.Loaded out.queue.header.currentCount
      rw [hsame]
      exact h.consumer
  · have hproducer := h.producer
    have hfree := hi.slot (by rw [hpc]; trivial)
    have hslots := hi.window.slots_lt
    have hle := hi.window.retired_le
    have hconsumer : s.consumer.holdsLock = false := by
      unfold LockAccount at hlock
      rw [hpc] at hlock
      cases hholds : s.consumer.holdsLock with
      | false => rfl
      | true =>
          rw [hholds] at hlock
          simp [SemPushPc.holdsLock] at hlock
    have hcount := SemPopPc.count_of_unlocked hconsumer out.queue.header.currentCount
    have hloaded : loaded = s.queue.header.currentCount := by
      rw [hpc] at hproducer
      exact hproducer
    rw [hpc, hcount.left] at hcurrent
    have hcurrent' : s.queue.header.currentCount = s.pushed.length - s.retired := by
      simpa [SemPushPc.ahead] using hcurrent
    rw [hloaded, hcurrent', toInt32_of_fits (by lia) (by lia)] at hstored
    constructor
    · simp only [SemState.afterPush, hnone, hnext, hcount.left, hstored,
        Option.toList_none, List.append_nil, SemPushPc.ahead]
      lia
    · show out.pc.Loaded out.queue.header.currentCount
      rw [hnext]
      trivial
    · exact hcount.right

theorem semPopStep_counter {slots : Nat} {s : SemState} {ok : Bool}
    {out : SemPopOutcome} (hi : SemIndices slots s) (hlock : LockAccount s)
    (h : SemCount s)
    (hout : semPopStep s.queue s.values ok s.consumer = some out) :
    SemCount (s.afterPop out) := by
  have hcurrent := h.current
  rcases semPopStep_count hout with
    ⟨hsame, hloaded, hahead⟩ | ⟨buf, wasFull, loaded, hpc, hstored, hnext, hnone⟩
  · constructor
    · simp only [SemState.afterPop]
      lia
    · show s.producer.Loaded out.queue.header.currentCount
      rw [hsame]
      exact h.producer
    · show out.pc.Loaded out.queue.header.currentCount
      rw [hsame]
      exact hloaded
  · have hconsumer := h.consumer
    have hlt := hi.window.pushed_lt
    have hslots := hi.window.slots_lt
    have hle := hi.window.retired_le
    have hproducer : s.producer.holdsLock = false := by
      unfold LockAccount at hlock
      rw [hpc] at hlock
      cases hholds : s.producer.holdsLock with
      | false => rfl
      | true =>
          rw [hholds] at hlock
          simp [SemPopPc.holdsLock] at hlock
    have hcount := SemPushPc.count_of_unlocked hproducer out.queue.header.currentCount
    have hloaded : loaded = s.queue.header.currentCount := by
      rw [hpc] at hconsumer
      exact hconsumer
    rw [hpc, hcount.left] at hcurrent
    have hcurrent' : s.queue.header.currentCount =
        s.pushed.length - s.retired + 1 := by
      simpa [SemPopPc.ahead] using hcurrent
    rw [hloaded, hcurrent', toInt32_of_fits (by lia) (by lia)] at hstored
    constructor
    · simp only [SemState.afterPop, hnone, hnext, hcount.left, hstored,
        Bool.toNat_false, SemPopPc.ahead]
      lia
    · exact hcount.right
    · show out.pc.Loaded out.queue.header.currentCount
      rw [hnext]
      trivial

/-!
# Every interleaving
-/

structure SemInvariant (g : Geometry) (s : SemState) : Prop where
  indices : SemIndices g.queueSize s
  lock : LockAccount s
  contents : SemContents g s
  count : SemCount s

theorem semNext_invariant {g : Geometry} {s s' : SemState} {l : SemLabel}
    (hs : SemInvariant g s) (hl : SemFullSizeTraffic g.messageSize l)
    (h : semNext s l = some s') : SemInvariant g s' := by
  rcases hs with ⟨hi, hlock, hc, hcount⟩
  have hi' := semNext_indices hi h
  have hlock' := semNext_lock hlock (semopsSucceed_of_fullSize hl) h
  rcases semNext_cases h with
    ⟨buf, ret, rfl, hpc, rfl⟩ | ⟨ok, out, rfl, hout, rfl⟩ |
      ⟨size, last, rfl, hpc, rfl⟩ | ⟨ok, out, rfl, hout, rfl⟩
  · have hcurrent := hcount.current
    rw [hpc] at hcurrent
    exact ⟨hi', hlock',
      ⟨hc.messageSize, hc.running, hc.uniform, hc.ring, hl, hc.consumer, hc.log⟩,
      ⟨hcurrent, trivial, hcount.consumer⟩⟩
  · exact ⟨hi', hlock', semPushStep_contents hi hc hout,
      semPushStep_counter hi hlock hcount hout⟩
  · have hcurrent := hcount.current
    have hrest := hc.consumer
    rw [hpc] at hcurrent hrest
    exact ⟨hi', hlock',
      ⟨hc.messageSize, hc.running, hc.uniform, hc.ring, hc.producer,
        ⟨hrest, hl⟩, hc.log⟩,
      ⟨hcurrent, hcount.producer, trivial⟩⟩
  · exact ⟨hi', hlock', semPopStep_contents hi hc hout,
      semPopStep_counter hi hlock hcount hout⟩

theorem semStart_invariant {g : Geometry} {shmSize : Nat}
    {header : SpscQueueHeader} {usable : Int} (mem : ByteMemory)
    (hcreate : semQueueCreate shmSize g.messageSize = .ok (header, usable))
    (hsize : header.queueSize = g.queueSize) (htwo : 2 ≤ header.queueSize) :
    SemInvariant g (semStart header mem) := by
  have hi := semStart_indices mem hcreate htwo
  rw [hsize, Int.toNat_natCast] at hi
  rcases createHeader_ok hcreate with ⟨n, _, hheader⟩
  subst hheader
  constructor
  · exact hi
  · exact semStart_lock _ _
  · constructor
    · rfl
    · rfl
    · intro message hmessage
      cases hmessage
    · exact ringHolds_empty _ _ _ _
    · trivial
    · show AtRest g 0 0 0
      simp [AtRest]
    · exact Delivered.nil
  · exact ⟨rfl, trivial, trivial⟩

/-!
# The guarantees
-/

/-- What holds of a SEM queue with messages of one size in every state. -/
structure SemQueueSound (messageSize : Nat) (s : SemState) : Prop where
  lock_le : s.values .lock ≤ 1
  exclusive : ¬ (s.producer.holdsLock = true ∧ s.consumer.holdsLock = true)
  enqueue_not_full : s.producer.HasSlot -> isFull s.queue.header = false
  dequeue_not_empty : s.consumer.HasMessage -> isEmpty s.queue.header = false
  count : s.values .lock = 1 ->
    s.queue.header.currentCount =
        (s.queue.header.head - s.queue.header.tail) % s.queue.header.queueSize ∧
      s.queue.header.currentCount =
        s.pushed.length - (position s.popped / messageSize : Nat)
  received : received s.popped <+: s.pushed.flatten
  pieces : forall before r after, s.popped = before ++ r :: after ->
    DeliversAt messageSize s.pushed (position before) r

namespace SemInvariant

variable {g : Geometry} {s : SemState}

theorem enqueue_not_full (h : SemInvariant g s) (hslot : s.producer.HasSlot) :
    isFull s.queue.header = false := by
  have hfree := h.indices.slot hslot
  rw [Bool.eq_false_iff, Ne, h.indices.window.isFull_iff]
  lia

theorem dequeue_not_empty (h : SemInvariant g s)
    (hmessage : s.consumer.HasMessage) : isEmpty s.queue.header = false := by
  have hlive := h.indices.message hmessage
  rw [Bool.eq_false_iff, Ne, h.indices.window.isEmpty_iff]
  lia

/-- While the lock is free no call is inside, so the counters agree. -/
theorem count_of_free (h : SemInvariant g s) (hfree : s.values .lock = 1) :
    s.queue.header.currentCount =
        (s.queue.header.head - s.queue.header.tail) % s.queue.header.queueSize ∧
      s.queue.header.currentCount =
        s.pushed.length - (position s.popped / g.messageSize : Nat) := by
  have hlock := h.lock
  have hcurrent := h.count.current
  have hwindow := h.indices.window
  have hle := hwindow.retired_le
  unfold LockAccount at hlock
  have hproducer : s.producer.holdsLock = false := by
    cases hholds : s.producer.holdsLock with
    | false => rfl
    | true =>
        rw [hholds] at hlock
        simp at hlock
        lia
  have hconsumer : s.consumer.holdsLock = false := by
    cases hholds : s.consumer.holdsLock with
    | false => rfl
    | true =>
        rw [hholds] at hlock
        simp at hlock
        lia
  rw [(SemPushPc.count_of_unlocked hproducer 0).left,
    (SemPopPc.count_of_unlocked hconsumer 0).left] at hcurrent
  have hretired : s.retired = position s.popped / g.messageSize := by
    have hrest := h.contents.consumer
    cases hpc : s.consumer with
    | idle last =>
        rw [hpc] at hrest
        exact hrest.right
    | posting receipt =>
        rw [hpc] at hrest
        exact hrest.right
    | entered size =>
        rw [hpc] at hrest
        exact hrest.left.right
    | locking size =>
        rw [hpc] at hrest
        exact hrest.left.right
    | retesting size wasFull =>
        rw [hpc] at hrest
        exact hrest.left.right
    | waiting size wasFull =>
        rw [hpc] at hrest
        exact hrest.left.right
    | relocking size wasFull =>
        rw [hpc] at hrest
        exact hrest.left.right
    | _ =>
        rw [hpc] at hconsumer
        cases hconsumer
  constructor
  · rw [hwindow.head, hwindow.tail, hwindow.queueSize,
      sub_mod_of_window hle hwindow.pushed_lt]
    lia
  · rw [← hretired]
    lia

theorem sound (h : SemInvariant g s) : SemQueueSound g.messageSize s := by
  have hlock := h.lock
  unfold LockAccount at hlock
  constructor
  · lia
  · intro hboth
    rw [hboth.left, hboth.right] at hlock
    simp at hlock
  · exact h.enqueue_not_full
  · exact h.dequeue_not_empty
  · exact h.count_of_free
  · exact received_prefix_of_delivered h.contents.uniform h.contents.log
  · exact delivered_split h.contents.log

end SemInvariant

/--
In every interleaving the SEM queue keeps its lock, never fills a full ring or
empties an empty one, counts its messages and delivers them in order.  A region
is created with an `int` size, so it is below `2^31` bytes.
-/
theorem sem_queue_sound {shmSize messageSize : Nat} {header : SpscQueueHeader}
    {usable : Int} {s : SemState} (hshm : shmSize < 2 ^ 31)
    (hcreate : semQueueCreate shmSize messageSize = .ok (header, usable))
    (htwo : 2 ≤ header.queueSize)
    (hs : (semSystem header).ReachableUnder
      (fun _ l => SemFullSizeTraffic messageSize l) s) :
    SemQueueSound messageSize s := by
  rcases createHeader_ok hcreate with ⟨n, hsizes, hheader⟩
  have hn : 2 ≤ n := by
    rw [hheader] at htwo
    exact htwo
  rcases guard_of_two_slots (by decide) hn hsizes with ⟨hmessage, hguard⟩
  rcases exists_geometry hmessage hguard hshm hsizes with
    ⟨g, _, hsize, hqueue, _⟩
  subst hsize
  have hinv : SemInvariant g s := by
    refine TransitionSystem.reachableUnder_invariant ?_ ?_ hs
    · intro start hstart
      rcases hstart with ⟨mem, rfl⟩
      apply semStart_invariant mem hcreate _ htwo
      rw [hheader]
      exact hqueue
    · intro t l t' ht hl hnext
      exact semNext_invariant ht hl hnext
  exact hinv.sound

/-- The consumer waits for a message, reads it in two parts, and the producer
waits for the slot. -/
def waitingLabels : List SemLabel :=
  .pop 3 :: List.replicate 6 (.consumer true) ++
    (.push [1, 2, 3, 4] :: List.replicate 15 (.producer true)) ++
    (.push [5, 6, 7, 8] :: List.replicate 7 (.producer true)) ++
    List.replicate 11 (.consumer true) ++
    (.pop 3 :: List.replicate 15 (.consumer true)) ++
    List.replicate 12 (.producer true)

theorem sem_queue_sound_waiting :
    exists s : SemState,
      s.popped = [⟨[1, 2, 3], 3⟩, ⟨[4], 0⟩] ∧ SemQueueSound 4 s := by
  let start := semStart twoSlotSemHeader (fun _ => 0)
  have hsome : (((semSystem twoSlotSemHeader).execute start
      waitingLabels).map SemState.popped) =
        some [⟨[1, 2, 3], 3⟩, ⟨[4], 0⟩] := by decide +kernel
  rcases Option.map_eq_some_iff.mp hsome with ⟨s, hexec, hpopped⟩
  have hcreate : semQueueCreate 56 4 = .ok (twoSlotSemHeader, 56) := by rfl
  have hallowed : forall l, l ∈ waitingLabels -> SemFullSizeTraffic 4 l := by
    decide
  exact ⟨s, hpopped, sem_queue_sound (by decide) hcreate (by decide)
    (TransitionSystem.reachableUnder_of_execute ⟨_, rfl⟩ hexec hallowed)⟩

end Queue
end Notnets
