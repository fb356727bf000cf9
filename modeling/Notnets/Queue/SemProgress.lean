import Notnets.Queue.PollProgress
import Notnets.Queue.SemCall
import Notnets.Queue.SemFifo

/-!
# Where SEM calls stop and how long they take

A `sem_push` whose ring is never full takes its flag and publishes its message under
one hold of the lock, so its flag is up to date and it never sleeps.  Every step of
either call lowers one number, in which a token of `sem_full` or `sem_empty` counts
for the round of the waiting loop that it buys.
-/

namespace Notnets
namespace Queue

open Foundation
open Relation

/-!
# Whole messages
-/

/-- Messages and buffers of the size of a message, and no failing semaphore
operation. -/
def SemWholeTraffic (messageSize : Nat) : SemLabel -> Prop
  | .push buf => buf.length = messageSize
  | .pop size => size = messageSize
  | .producer ok => ok = true
  | .consumer ok => ok = true

def SemPopWhole (g : Geometry) : SemPopPc -> Prop
  | .entered size | .locking size | .sampling size | .testing size _
  | .releasing size _ | .retesting size _ | .waiting size _ | .relocking size _
  | .clamping size _ | .copying size _ _ => size = g.messageSize
  | .advanced buf _ | .retiring buf _ | .counting buf _ | .counted buf _ _
  | .resetting buf _ | .returning buf _ => buf.length = g.messageSize
  | _ => True

structure SemWholeInvariant (g : Geometry) (s : SemState) : Prop where
  invariant : SemInvariant g s
  log : forall r, r ∈ s.popped -> r.bytes.length = g.messageSize
  consumer : SemPopWhole g s.consumer

theorem semFullSizeTraffic_of_whole (g : Geometry) {l : SemLabel}
    (h : SemWholeTraffic g.messageSize l) : SemFullSizeTraffic g.messageSize l := by
  have hpos := g.messageSize_pos
  have hlt := g.messageSize_lt
  cases l with
  | push buf => exact h
  | producer ok => exact h
  | pop size =>
      have hsize : size = g.messageSize := h
      constructor
      · lia
      · lia
  | consumer ok => exact h

namespace SemWholeInvariant

variable {g : Geometry} {s : SemState}

theorem position_eq (h : SemWholeInvariant g s) :
    position s.popped = s.popped.length * g.messageSize :=
  position_of_whole h.log

theorem popped_eq (h : SemWholeInvariant g s) :
    s.popped.map Receipt.bytes = s.pushed.take s.popped.length :=
  bytes_of_whole g.messageSize_pos h.invariant.contents.uniform h.log
    h.invariant.contents.log

theorem position_div (h : SemWholeInvariant g s) :
    position s.popped / g.messageSize = s.popped.length := by
  rw [h.position_eq, Nat.mul_div_cancel _ g.messageSize_pos]

theorem popped_le (h : SemWholeInvariant g s) : s.popped.length ≤ s.retired := by
  have hat := h.invariant.contents.consumer
  have hdiv := h.position_div
  cases hpc : s.consumer with
  | idle last =>
      rw [hpc] at hat
      exact Nat.le_of_eq (hdiv.symm.trans hat.right.symm)
  | unlocking receipt wasFull =>
      rw [hpc] at hat
      exact Nat.le_of_eq (hdiv.symm.trans hat.right.symm)
  | posting receipt =>
      rw [hpc] at hat
      exact Nat.le_of_eq (hdiv.symm.trans hat.right.symm)
  | advanced buf wasFull =>
      rw [hpc] at hat
      exact Nat.le_of_eq (hdiv.symm.trans hat.right.left.symm)
  | retiring buf wasFull =>
      rw [hpc] at hat
      exact Nat.le_of_eq (hdiv.symm.trans hat.left.symm)
  | counting buf wasFull =>
      rw [hpc] at hat
      rw [hat.left, hdiv]
      exact Nat.le_succ _
  | counted buf wasFull currentCount =>
      rw [hpc] at hat
      rw [hat.left, hdiv]
      exact Nat.le_succ _
  | resetting buf wasFull =>
      rw [hpc] at hat
      rw [hat.left, hdiv]
      exact Nat.le_succ _
  | returning buf wasFull =>
      rw [hpc] at hat
      rw [hat.left.right, ← hdiv]
      exact Nat.div_le_div_right (Nat.le_add_right _ _)
  -- Before its `memcpy` is over a call has not touched the indices.
  | _ =>
      rw [hpc] at hat
      exact Nat.le_of_eq (hdiv.symm.trans hat.left.right.symm)

end SemWholeInvariant

theorem semPopStep_whole {g : Geometry} {s : SemState} {ok : Bool} {out : SemPopOutcome}
    (h : SemWholeInvariant g s)
    (hout : semPopStep s.queue s.values ok s.consumer = some out) :
    SemPopWhole g out.pc ∧
      forall r, out.receipt = some r -> r.bytes.length = g.messageSize := by
  have hat := h.invariant.contents.consumer
  have hsize := h.invariant.contents.messageSize
  have hposition := h.position_eq
  have hwhole := h.consumer
  have hnone : forall r : Receipt, (none : Option Receipt) = some r ->
      r.bytes.length = g.messageSize := by
    intro r hr
    cases hr
  generalize s.consumer = pc at hout hat hwhole
  cases semPopMove_of_step hout with
  | stop _ => exact ⟨trivial, hnone⟩
  | @clamp size wasFull =>
      have hlength : size = g.messageSize := hwhole
      have hoffset : s.queue.header.messageOffset = 0 := by
        rw [hat.left.left, hposition, Nat.mul_mod_left]
        rfl
      constructor
      · show clampSize _ _ _ = _
        rw [hoffset, hsize, hlength]
        exact clampSize_whole g
      · exact hnone
  | @advance size wasFull buf hdone =>
      have hlength : size = g.messageSize := hwhole
      have hle := hat.right.right.right.left
      constructor
      · show buf.length = g.messageSize
        lia
      · exact hnone
  | finish =>
      constructor
      · trivial
      · intro r hr
        injection hr with hr
        rw [← hr]
        exact hwhole
  | unlockFirst => exact ⟨trivial, hnone⟩
  | unlock => exact ⟨trivial, hnone⟩
  | post => exact ⟨trivial, hnone⟩
  | _ => exact ⟨hwhole, hnone⟩

theorem semNext_whole {g : Geometry} {s s' : SemState} {l : SemLabel}
    (hs : SemWholeInvariant g s) (hl : SemWholeTraffic g.messageSize l)
    (h : semNext s l = some s') : SemWholeInvariant g s' := by
  have hinv : SemInvariant g s' :=
    semNext_invariant hs.invariant (semFullSizeTraffic_of_whole g hl) h
  rcases semNext_cases h with
    ⟨_, _, _, _, rfl⟩ | ⟨_, _, _, _, rfl⟩ | ⟨size, _, rfl, _, rfl⟩ |
      ⟨ok, out, _, hout, rfl⟩
  · exact ⟨hinv, hs.log, hs.consumer⟩
  · exact ⟨hinv, hs.log, hs.consumer⟩
  · exact ⟨hinv, hs.log, hl⟩
  · cases semPopStep_whole hs hout with
    | intro hwhole hreceipt =>
        refine ⟨hinv, ?_, hwhole⟩
        intro r hr
        cases List.mem_append.mp hr with
        | inl hbefore => exact hs.log r hbefore
        | inr hnew => exact hreceipt r (Option.mem_toList.mp hnew)

theorem semStart_whole {g : Geometry} {shmSize : Nat} {header : SpscQueueHeader}
    {usable : Int} (mem : ByteMemory)
    (hcreate : semQueueCreate shmSize g.messageSize = .ok (header, usable))
    (hsize : header.queueSize = g.queueSize) (htwo : 2 ≤ header.queueSize) :
    SemWholeInvariant g (semStart header mem) where
  invariant := semStart_invariant mem hcreate hsize htwo
  log := nofun
  consumer := trivial

/-!
# Calls in progress
-/

def SemPushPc.buffer : SemPushPc -> Option (List Byte)
  | .idle _ | .unlocking _ | .posting => none
  | .entered buf | .locking buf | .sampling buf | .testing buf _ | .releasing buf _
  | .retesting buf _ | .waiting buf _ | .relocking buf _ | .copying buf _ _
  | .counting buf _ | .counted buf _ _ | .totaling buf _ | .publishing buf _ => some buf

def SemPushCall (messages : Nat -> List Byte) (i : Nat) (producer : SemPushPc)
    (pushed : List (List Byte)) : Prop :=
  match producer.buffer with
  | none => pushed = (List.range (i + 1)).map messages
  | some buf => buf = messages i ∧ pushed = (List.range i).map messages

def SemPopCall (i : Nat) (consumer : SemPopPc) (popped : List Receipt) : Prop :=
  match consumer with
  | .idle last => popped.length = i + 1 ∧ popped.getLast? = last
  | .unlocking receipt _ | .posting receipt =>
      popped.length = i + 1 ∧ popped.getLast? = some receipt
  | _ => popped.length = i

def SemPushIdle (producer : SemPushPc) : Prop :=
  exists ret, producer = .idle ret

def SemPopIdle (consumer : SemPopPc) : Prop :=
  exists last, consumer = .idle last

section Calls

variable {g : Geometry} {q q' : SemState}

theorem semNext_push {buf : List Byte} (h : semNext q (.push buf) = some q') :
    SemPushIdle q.producer ∧ q' = { q with producer := .entered buf } := by
  rcases semNext_cases h with
    ⟨_, ret, hl, hidle, hq⟩ | ⟨_, _, hl, _⟩ | ⟨_, _, hl, _⟩ | ⟨_, _, hl, _⟩
  · injection hl with hbuf
    rw [hbuf]
    exact ⟨⟨ret, hidle⟩, hq⟩
  · cases hl
  · cases hl
  · cases hl

theorem semNext_producer {ok : Bool} (h : semNext q (.producer ok) = some q') :
    exists out, semPushStep q.queue q.values ok q.producer = some out ∧
      q' = q.afterPush out := by
  rcases semNext_cases h with
    ⟨_, _, hl, _⟩ | ⟨_, out, hl, hout, hq⟩ | ⟨_, _, hl, _⟩ | ⟨_, _, hl, _⟩
  · cases hl
  · injection hl with hok
    rw [hok]
    exact ⟨out, hout, hq⟩
  · cases hl
  · cases hl

theorem semNext_pop {size : Nat} (h : semNext q (.pop size) = some q') :
    SemPopIdle q.consumer ∧ q' = { q with consumer := .entered size } := by
  rcases semNext_cases h with
    ⟨_, _, hl, _⟩ | ⟨_, _, hl, _⟩ | ⟨_, last, hl, hidle, hq⟩ | ⟨_, _, hl, _⟩
  · cases hl
  · cases hl
  · injection hl with hsize
    rw [hsize]
    exact ⟨⟨last, hidle⟩, hq⟩
  · cases hl

theorem semNext_consumer {ok : Bool} (h : semNext q (.consumer ok) = some q') :
    exists out, semPopStep q.queue q.values ok q.consumer = some out ∧
      q' = q.afterPop out := by
  rcases semNext_cases h with
    ⟨_, _, hl, _⟩ | ⟨_, _, hl, _⟩ | ⟨_, _, hl, _⟩ | ⟨_, out, hl, hout, hq⟩
  · cases hl
  · cases hl
  · cases hl
  · injection hl with hok
    rw [hok]
    exact ⟨out, hout, hq⟩

theorem semPushCall_step {messages : Nat -> List Byte} {i : Nat} {ok : Bool}
    (hq : SemWholeInvariant g q) (hcall : SemPushCall messages i q.producer q.pushed)
    {out : SemPushOutcome}
    (hout : semPushStep q.queue q.values ok q.producer = some out) :
    SemPushCall messages i out.pc (q.pushed ++ out.published.toList) := by
  have hholds := hq.invariant.contents.producer
  have hsize := hq.invariant.contents.messageSize
  generalize q.producer = pc at hout hcall hholds
  -- Only a step that publishes adds to the log.
  have hquiet : forall {published : Option (List Byte)}, published = none ->
      SemPushCall messages i pc q.pushed ->
        SemPushCall messages i pc (q.pushed ++ published.toList) := by
    intro published hnone hsame
    rw [hnone, Option.toList_none, List.append_nil]
    exact hsame
  cases semPushMove_of_step hout with
  | reject hlarge =>
      have hlength : _ = g.messageSize := hholds
      rw [hsize, hlength] at hlarge
      exact absurd hlarge (Nat.lt_irrefl _)
  | publish =>
      cases hcall with
      | intro hbuf hpushed =>
          show q.pushed ++ [_] = _
          rw [hpushed, hbuf, List.range_succ, List.map_append, List.map_singleton]
  | _ => exact hquiet rfl hcall

theorem semPopCall_step {i : Nat} {ok : Bool} (hq : SemWholeInvariant g q)
    (hcall : SemPopCall i q.consumer q.popped) {out : SemPopOutcome}
    (hout : semPopStep q.queue q.values ok q.consumer = some out) :
    SemPopCall i out.pc (q.popped ++ out.receipt.toList) := by
  have hruns := hq.invariant.contents.running
  generalize q.consumer = pc at hout hcall
  -- Only a step that ends `dequeue` adds to the log.
  have hquiet : forall {receipt : Option Receipt}, receipt = none ->
      SemPopCall i pc q.popped -> SemPopCall i pc (q.popped ++ receipt.toList) := by
    intro receipt hnone hsame
    rw [hnone, Option.toList_none, List.append_nil]
    exact hsame
  cases semPopMove_of_step hout with
  | stop hstop =>
      rw [hruns] at hstop
      cases hstop
  | finish =>
      have hlength : q.popped.length = i := hcall
      constructor
      · simp [hlength]
      · simp
  | _ => exact hquiet rfl hcall

end Calls

/-!
# Blocked calls

A call stops only in front of a semaphore without tokens.
-/

theorem semPushStep_none {q : SpscQueue} {values : Semaphore -> Nat} {pc : SemPushPc}
    (h : semPushStep q values true pc = none) :
    SemPushIdle pc ∨ (pc.takesLock = true ∧ values .lock = 0) ∨
      (pc.sleeps = true ∧ values .full = 0) := by
  have hblocked : forall {which : Semaphore}, semWait values which true = none ->
      values which = 0 := by
    intro which hwait
    by_contra htoken
    rw [semWait_some htoken] at hwait
    cases hwait
  cases pc with
  | idle ret => exact Or.inl ⟨ret, rfl⟩
  | locking buf =>
      simp only [semPushStep] at h
      split at h
      · cases h
      · rename_i hwait
        exact Or.inr (Or.inl ⟨rfl, hblocked hwait⟩)
  | relocking buf wasEmpty =>
      simp only [semPushStep] at h
      split at h
      · cases h
      · rename_i hwait
        exact Or.inr (Or.inl ⟨rfl, hblocked hwait⟩)
  | waiting buf wasEmpty =>
      simp only [semPushStep] at h
      split at h
      · cases h
      · rename_i hwait
        exact Or.inr (Or.inr ⟨rfl, hblocked hwait⟩)
  | entered _ | testing _ _ | retesting _ _ | copying _ _ _ | unlocking _ =>
      simp only [semPushStep] at h
      split at h
      · cases h
      · cases h
  | _ => cases h

theorem semPopStep_none {q : SpscQueue} {values : Semaphore -> Nat} {pc : SemPopPc}
    (h : semPopStep q values true pc = none) :
    SemPopIdle pc ∨ (pc.takesLock = true ∧ values .lock = 0) ∨
      (pc.sleeps = true ∧ values .empty = 0) := by
  have hblocked : forall {which : Semaphore}, semWait values which true = none ->
      values which = 0 := by
    intro which hwait
    by_contra htoken
    rw [semWait_some htoken] at hwait
    cases hwait
  cases pc with
  | idle last => exact Or.inl ⟨last, rfl⟩
  | locking size =>
      simp only [semPopStep] at h
      split at h
      · cases h
      · rename_i hwait
        exact Or.inr (Or.inl ⟨rfl, hblocked hwait⟩)
  | relocking size wasFull =>
      simp only [semPopStep] at h
      split at h
      · cases h
      · rename_i hwait
        exact Or.inr (Or.inl ⟨rfl, hblocked hwait⟩)
  | waiting size wasFull =>
      simp only [semPopStep] at h
      split at h
      · cases h
      · rename_i hwait
        exact Or.inr (Or.inr ⟨rfl, hblocked hwait⟩)
  | entered _ | testing _ _ | retesting _ _ | copying _ _ _ | advanced _ _
  | unlocking _ _ =>
      simp only [semPopStep] at h
      split at h
      · cases h
      · cases h
  | _ => cases h

theorem SemPushPc.not_holdsLock_of_takes {pc : SemPushPc} (h : pc.takesLock = true) :
    pc.holdsLock = false := by
  cases pc with
  | locking _ | relocking _ _ => rfl
  | _ => cases h

theorem SemPushPc.not_holdsLock_of_sleeps {pc : SemPushPc} (h : pc.sleeps = true) :
    pc.holdsLock = false := by
  cases pc with
  | waiting _ _ => rfl
  | _ => cases h

theorem SemPopPc.not_holdsLock_of_takes {pc : SemPopPc} (h : pc.takesLock = true) :
    pc.holdsLock = false := by
  cases pc with
  | locking _ | relocking _ _ => rfl
  | _ => cases h

theorem SemPopPc.not_holdsLock_of_sleeps {pc : SemPopPc} (h : pc.sleeps = true) :
    pc.holdsLock = false := by
  cases pc with
  | waiting _ _ => rfl
  | _ => cases h

section Stopped

variable {s : SemState}

theorem pushStep_of_next_none (h : semNext s (.producer true) = none) :
    semPushStep s.queue s.values true s.producer = none := by
  cases hout : semPushStep s.queue s.values true s.producer with
  | none => rfl
  | some out => simp [semNext, hout] at h

theorem popStep_of_next_none (h : semNext s (.consumer true) = none) :
    semPopStep s.queue s.values true s.consumer = none := by
  cases hout : semPopStep s.queue s.values true s.consumer with
  | none => rfl
  | some out => simp [semNext, hout] at h

theorem not_holdsLock_of_push_none (h : semNext s (.producer true) = none) :
    s.producer.holdsLock = false := by
  rcases semPushStep_none (pushStep_of_next_none h) with hidle | htakes | hsleeps
  · rcases hidle with ⟨ret, hidle⟩
    rw [hidle]
    rfl
  · exact SemPushPc.not_holdsLock_of_takes htakes.left
  · exact SemPushPc.not_holdsLock_of_sleeps hsleeps.left

theorem not_holdsLock_of_pop_none (h : semNext s (.consumer true) = none) :
    s.consumer.holdsLock = false := by
  rcases semPopStep_none (popStep_of_next_none h) with hidle | htakes | hsleeps
  · rcases hidle with ⟨last, hidle⟩
    rw [hidle]
    rfl
  · exact SemPopPc.not_holdsLock_of_takes htakes.left
  · exact SemPopPc.not_holdsLock_of_sleeps hsleeps.left

/-- A producer stops only asleep, or in front of the lock that the consumer holds. -/
theorem producer_stopped (hlock : LockAccount s)
    (h : semNext s (.producer true) = none) :
    SemPushIdle s.producer ∨ producerAsleep s = true ∨ s.consumer.holdsLock = true := by
  have hfree := not_holdsLock_of_push_none h
  rcases semPushStep_none (pushStep_of_next_none h) with hidle | htakes | hsleeps
  · exact Or.inl hidle
  · unfold LockAccount at hlock
    rw [htakes.right, hfree] at hlock
    cases hholds : s.consumer.holdsLock with
    | true => exact Or.inr (Or.inr rfl)
    | false =>
        rw [hholds] at hlock
        cases hlock
  · exact Or.inr (Or.inl (producerAsleep_iff.mpr hsleeps))

theorem consumer_stopped (hlock : LockAccount s)
    (h : semNext s (.consumer true) = none) :
    SemPopIdle s.consumer ∨ consumerAsleep s = true ∨ s.producer.holdsLock = true := by
  have hfree := not_holdsLock_of_pop_none h
  rcases semPopStep_none (popStep_of_next_none h) with hidle | htakes | hsleeps
  · exact Or.inl hidle
  · unfold LockAccount at hlock
    rw [htakes.right, hfree] at hlock
    cases hholds : s.producer.holdsLock with
    | true => exact Or.inr (Or.inr rfl)
    | false =>
        rw [hholds] at hlock
        cases hlock
  · exact Or.inr (Or.inl (consumerAsleep_iff.mpr hsleeps))

end Stopped

/-!
# A ring that is never full

The flag of `sem_push` can be out of date only after the call has waited.
-/

def SemPushPc.Calm (empty : Bool) : SemPushPc -> Prop
  | .testing _ wasEmpty | .copying _ wasEmpty _ | .counting _ wasEmpty
  | .counted _ wasEmpty _ | .totaling _ wasEmpty | .publishing _ wasEmpty =>
      wasEmpty = empty
  | .releasing _ _ | .retesting _ _ | .waiting _ _ | .relocking _ _ => False
  | _ => True

structure CalmInvariant (slots : Nat) (s : SemState) : Prop where
  indices : SemIndices slots s
  lock : LockAccount s
  calm : s.producer.Calm (isEmpty s.queue.header)
  awake : NoLostWakeUp s

def SemPushPc.tests : SemPushPc -> Bool
  | .testing _ _ => true
  | _ => false

theorem SemPushPc.Calm.awake {empty : Bool} {pc : SemPushPc} (h : pc.Calm empty) :
    pc.sleeps = false := by
  cases pc with
  | waiting buf wasEmpty => exact h.elim
  | _ => rfl

theorem SemPushPc.Calm.of_unlocked {empty empty' : Bool} {pc : SemPushPc}
    (h : pc.Calm empty) (hfree : pc.holdsLock = false) : pc.Calm empty' := by
  cases pc with
  | testing _ _ | copying _ _ _ | counting _ _ | counted _ _ _ | totaling _ _
  | publishing _ _ => cases hfree
  | releasing _ _ | retesting _ _ | waiting _ _ | relocking _ _ => exact h.elim
  | _ => trivial

theorem semPushStep_calm {q : SpscQueue} {values : Semaphore -> Nat} {ok : Bool}
    {pc : SemPushPc} {out : SemPushOutcome} (h : pc.Calm (isEmpty q.header))
    (hroom : pc.tests = true -> isFull q.header = false)
    (hout : semPushStep q values ok pc = some out) :
    out.pc.Calm (isEmpty out.queue.header) := by
  cases semPushMove_of_step hout with
  | sample => rfl
  | full hfull =>
      rw [hroom rfl] at hfull
      cases hfull
  | release | stillFull _ | nowRoom _ | wait _ | relock _ => exact h.elim
  | room _ => exact h
  | copy _ => exact h
  | copied _ => exact h
  | load => exact h
  | store => exact h
  | total => exact h
  | _ => trivial

/-- While the producer holds the lock the consumer stores no index. -/
theorem semPopStep_calm {s : SemState} {ok : Bool} {out : SemPopOutcome}
    (hlock : LockAccount s) (h : s.producer.Calm (isEmpty s.queue.header))
    (hout : semPopStep s.queue s.values ok s.consumer = some out) :
    s.producer.Calm (isEmpty out.queue.header) := by
  cases semPopStep_cases hout with
  | inl hquiet =>
      rw [isEmpty_of_same hquiet.indices]
      exact h
  | inr hretire =>
      rcases hretire with ⟨buf, wasFull, hpc, _⟩
      apply h.of_unlocked
      unfold LockAccount at hlock
      rw [hpc] at hlock
      cases hholds : s.producer.holdsLock with
      | false => rfl
      | true =>
          rw [hholds] at hlock
          simp [SemPopPc.holdsLock] at hlock

theorem CalmInvariant.flagsCurrent {slots : Nat} {s : SemState}
    (h : CalmInvariant slots s) (l : SemLabel) : FlagsCurrent s l := by
  have hcalm := h.calm
  cases l with
  | producer ok =>
      cases hpc : s.producer with
      | publishing buf wasEmpty =>
          rw [hpc] at hcalm
          simp only [FlagsCurrent, hpc]
          intro _ hempty
          exact hcalm.trans hempty
      | _ => simp [FlagsCurrent, hpc]
  | consumer ok =>
      cases hpc : s.consumer with
      | retiring buf wasFull =>
          simp only [FlagsCurrent, hpc]
          intro hasleep _
          rw [producerAsleep_iff, hcalm.awake] at hasleep
          cases hasleep.left
      | _ => simp [FlagsCurrent, hpc]
  | push buf => trivial
  | pop size => trivial

theorem semNext_calm {slots : Nat} {s s' : SemState} {l : SemLabel}
    (hs : CalmInvariant slots s) (hl : SemopsSucceed l)
    (hroom : s.producer.tests = true -> isFull s.queue.header = false)
    (h : semNext s l = some s') : CalmInvariant slots s' := by
  have hawake := semNext_awake ⟨hs.indices, hs.awake⟩ hl (hs.flagsCurrent l) h
  refine ⟨hawake.indices, semNext_lock hs.lock hl h, ?_, hawake.awake⟩
  rcases semNext_cases h with
    ⟨_, _, _, _, rfl⟩ | ⟨_, out, _, hout, rfl⟩ | ⟨_, _, _, _, rfl⟩ |
      ⟨_, out, _, hout, rfl⟩
  · trivial
  · exact semPushStep_calm hs.calm hroom hout
  · exact hs.calm
  · have hcalm := semPopStep_calm hs.lock hs.calm hout
    exact hcalm

/-!
# The work that is left

A round of a waiting loop makes up for itself with the token that it takes.
-/

def SemPushPc.work : SemPushPc -> Nat
  | .idle _ => 0
  | .posting => 3
  | .unlocking _ => 4
  | .publishing _ _ => 5
  | .totaling _ _ => 6
  | .counted _ _ _ => 7
  | .counting _ _ => 8
  | .copying buf _ copied => 9 + (buf.length - copied)
  | .relocking buf _ | .waiting buf _ => 10 + buf.length
  | .retesting buf _ => 11 + buf.length
  | .releasing buf _ => 12 + buf.length
  | .testing buf _ => 13 + buf.length
  | .sampling buf => 14 + buf.length
  | .locking buf => 15 + buf.length
  | .entered buf => 16 + buf.length

def SemPopPc.work : SemPopPc -> Nat
  | .idle _ => 0
  | .posting _ => 3
  | .unlocking _ _ => 4
  | .returning _ _ => 5
  | .resetting _ _ => 6
  | .counted _ _ _ => 7
  | .counting _ _ => 8
  | .retiring _ _ => 9
  | .advanced _ _ => 10
  | .copying size _ buf => 11 + (size - buf.length)
  | .clamping size _ => 12 + size
  | .relocking size _ | .waiting size _ => 13 + size
  | .retesting size _ => 14 + size
  | .releasing size _ => 15 + size
  | .testing size _ => 16 + size
  | .sampling size => 17 + size
  | .locking size => 18 + size
  | .entered size => 19 + size

def wakeTokens (values : Semaphore -> Nat) : Nat :=
  values .full + values .empty

def SemState.work (s : SemState) : Nat :=
  s.producer.work + s.consumer.work + 2 * wakeTokens s.values

theorem wakeTokens_takeLock {values values' : Semaphore -> Nat} {ok : Bool}
    (h : semWait values .lock ok = some values') :
    wakeTokens values' = wakeTokens values := by
  unfold wakeTokens
  rw [semWait_other (by decide) h, semWait_other (by decide) h]

theorem wakeTokens_postLock (values : Semaphore -> Nat) (ok : Bool) :
    wakeTokens (semPost values .lock ok) = wakeTokens values := by
  unfold wakeTokens
  rw [semPost_other _ _ (by decide), semPost_other _ _ (by decide)]

theorem wakeTokens_takeFull {values values' : Semaphore -> Nat}
    (h : semWait values .full true = some values') :
    wakeTokens values' + 1 = wakeTokens values := by
  have htaken := semWait_self h
  have hempty : values' .empty = values .empty := semWait_other (by decide) h
  unfold wakeTokens
  lia

theorem wakeTokens_takeEmpty {values values' : Semaphore -> Nat}
    (h : semWait values .empty true = some values') :
    wakeTokens values' + 1 = wakeTokens values := by
  have htaken := semWait_self h
  have hfull : values' .full = values .full := semWait_other (by decide) h
  unfold wakeTokens
  lia

theorem wakeTokens_postFull (values : Semaphore -> Nat) :
    wakeTokens (semPost values .full true) = wakeTokens values + 1 := by
  unfold wakeTokens
  rw [semPost_self, semPost_other _ _ (by decide)]
  lia

theorem wakeTokens_postEmpty (values : Semaphore -> Nat) :
    wakeTokens (semPost values .empty true) = wakeTokens values + 1 := by
  unfold wakeTokens
  rw [semPost_self, semPost_other _ _ (by decide)]
  lia

theorem semPushStep_work {q : SpscQueue} {values : Semaphore -> Nat} {pc : SemPushPc}
    {out : SemPushOutcome} (h : semPushStep q values true pc = some out) :
    out.pc.work + 2 * wakeTokens out.values < pc.work + 2 * wakeTokens values := by
  cases semPushMove_of_step h with
  | lock hwait | relock hwait =>
      rw [wakeTokens_takeLock hwait]
      simp only [SemPushPc.work]
      lia
  | wait hwait =>
      rw [← wakeTokens_takeFull hwait]
      simp only [SemPushPc.work]
      lia
  | release | unlockFirst | unlock =>
      rw [wakeTokens_postLock]
      simp only [SemPushPc.work]
      lia
  | post =>
      rw [wakeTokens_postEmpty]
      simp only [SemPushPc.work]
      lia
  | copy hbyte =>
      cases List.getElem?_eq_some_iff.mp hbyte with
      | intro hlt _ =>
          simp only [SemPushPc.work]
          lia
  | _ =>
      simp only [SemPushPc.work]
      lia

theorem semPopStep_work {q : SpscQueue} {values : Semaphore -> Nat} {pc : SemPopPc}
    {out : SemPopOutcome}
    (hclamp : forall size wasFull, pc = .clamping size wasFull ->
      clampSize q.header.messageSize q.header.messageOffset size ≤ size)
    (h : semPopStep q values true pc = some out) :
    out.pc.work + 2 * wakeTokens out.values < pc.work + 2 * wakeTokens values := by
  cases semPopMove_of_step h with
  | lock hwait | relock hwait =>
      rw [wakeTokens_takeLock hwait]
      simp only [SemPopPc.work]
      lia
  | wait hwait =>
      rw [← wakeTokens_takeEmpty hwait]
      simp only [SemPopPc.work]
      lia
  | release | unlockFirst | unlock =>
      rw [wakeTokens_postLock]
      simp only [SemPopPc.work]
      lia
  | post =>
      rw [wakeTokens_postFull]
      simp only [SemPopPc.work]
      lia
  | clamp =>
      have hle := hclamp _ _ rfl
      simp only [SemPopPc.work, List.length_nil]
      lia
  | copy hmore =>
      simp only [SemPopPc.work, List.length_append, List.length_singleton]
      lia
  | _ =>
      simp only [SemPopPc.work]
      lia

theorem semNext_work {g : Geometry} {s s' : SemState} (hs : SemWholeInvariant g s)
    (h : semNext s (.producer true) = some s' ∨ semNext s (.consumer true) = some s') :
    s'.work < s.work := by
  cases h with
  | inl h =>
      rcases semNext_producer h with ⟨out, hout, rfl⟩
      have hlower := semPushStep_work hout
      show out.pc.work + s.consumer.work + 2 * wakeTokens out.values < _
      unfold SemState.work
      lia
  | inr h =>
      rcases semNext_consumer h with ⟨out, hout, rfl⟩
      have hclamp : forall size wasFull, s.consumer = .clamping size wasFull ->
          clampSize s.queue.header.messageSize s.queue.header.messageOffset size ≤
            size := by
        intro size wasFull hpc
        have hat := hs.invariant.contents.consumer
        have hwhole := hs.consumer
        rw [hpc] at hat hwhole
        have hoffset : s.queue.header.messageOffset = 0 := by
          rw [hat.left.left, hs.position_eq, Nat.mul_mod_left]
          rfl
        have hsize : size = g.messageSize := hwhole
        rw [hoffset, hs.invariant.contents.messageSize, hsize]
        exact Nat.le_of_eq (clampSize_whole g)
      have hlower := semPopStep_work hclamp hout
      show s.producer.work + out.pc.work + 2 * wakeTokens out.values < _
      unfold SemState.work
      lia

/-!
# Calls that wait and go on

What a call does by itself between two of its waits.
-/

theorem lock_free {s : SemState} (hlock : LockAccount s)
    (hproducer : s.producer.holdsLock = false)
    (hconsumer : s.consumer.holdsLock = false) : s.values .lock ≠ 0 := by
  unfold LockAccount at hlock
  rw [hproducer, hconsumer] at hlock
  intro hzero
  rw [hzero] at hlock
  cases hlock

theorem SemInvariant.retired_of_unlocked {g : Geometry} {s : SemState}
    (h : SemInvariant g s) (hfree : s.consumer.holdsLock = false) :
    s.retired = position s.popped / g.messageSize := by
  have hat := h.contents.consumer
  cases hpc : s.consumer with
  | idle last | posting receipt =>
      rw [hpc] at hat
      exact hat.right
  | entered _ | locking _ | retesting _ _ | waiting _ _ | relocking _ _ =>
      rw [hpc] at hat
      exact hat.left.right
  | _ =>
      rw [hpc] at hfree
      cases hfree

theorem SemWholeInvariant.retired_of_unlocked {g : Geometry} {s : SemState}
    (h : SemWholeInvariant g s) (hfree : s.consumer.holdsLock = false) :
    s.retired = s.popped.length :=
  (h.invariant.retired_of_unlocked hfree).trans h.position_div

theorem semProducerSteps_frame {s s' : SemState} (h : SemProducerSteps s s') :
    s'.consumer = s.consumer ∧ s'.retired = s.retired ∧ s'.popped = s.popped := by
  induction h with
  | refl => exact ⟨rfl, rfl, rfl⟩
  | tail hbefore hnext ih =>
      rcases semNext_producer hnext with ⟨out, _, rfl⟩
      exact ih

section Alone

variable {s : SemState} {buf : List Byte} {size : Nat} {wasEmpty wasFull : Bool}

theorem semPush_waits (hpc : s.producer = .retesting buf wasEmpty)
    (hfull : isFull s.queue.header = true) :
    ProducerReaches s (.waiting buf wasEmpty) s.queue
      (Function.update s.values .full 0) := by
  have hout : semPushStep s.queue s.values true s.producer =
      some ⟨s.queue, s.values, .waiting buf wasEmpty, none⟩ := by
    simp only [hpc, semPushStep, hfull, if_true]
  generalize htodo : s.values .full = todo
  induction todo generalizing s with
  | zero =>
      have hsame : Function.update s.values .full 0 = s.values := by
        rw [← htodo, Function.update_eq_self]
      rw [hsame]
      exact ⟨_, semProducerSteps_head hout ReflTransGen.refl, rfl, rfl, rfl, rfl⟩
  | succ todo ih =>
      let s1 := s.afterPush ⟨s.queue, s.values, .waiting buf wasEmpty, none⟩
      let values := Function.update s.values .full (s.values .full - 1)
      let s2 := s1.afterPush ⟨s.queue, values, .retesting buf wasEmpty, none⟩
      have htake : semPushStep s1.queue s1.values true s1.producer =
          some ⟨s.queue, values, .retesting buf wasEmpty, none⟩ := by
        show semPushStep s.queue s.values true (.waiting buf wasEmpty) = _
        simp only [semPushStep, semWait_some (by lia : s.values .full ≠ 0)]
        rfl
      have hpc2 : s2.producer = .retesting buf wasEmpty := rfl
      have hqueue2 : s2.queue = s.queue := rfl
      have hleft : s2.values .full = todo := by
        show values .full = todo
        simp [values, htodo]
      have hout2 : semPushStep s2.queue s2.values true s2.producer =
          some ⟨s2.queue, s2.values, .waiting buf wasEmpty, none⟩ := by
        simp only [hpc2, hqueue2, semPushStep, hfull, if_true]
      have hrest := ih hpc2 hfull hout2 hleft
      have hvalues : Function.update s2.values .full 0 =
          Function.update s.values .full 0 :=
        Function.update_idem _ _ _
      rw [hqueue2, hvalues] at hrest
      exact producerReaches_head hout (producerReaches_head htake hrest)

theorem semPush_fills (hpc : s.producer = .entered buf)
    (hfits : buf.length ≤ s.queue.header.messageSize) (hlock : s.values .lock ≠ 0)
    (hfull : isFull s.queue.header = true) :
    ProducerReaches s (.waiting buf (isEmpty s.queue.header)) s.queue
      (Function.update s.values .full 0) := by
  apply (semPush_tests hpc hfits hlock).trans
  intro s1 hpc1 hqueue1 hvalues1
  have hreleasing : semPushStep s1.queue s1.values true s1.producer =
      some ⟨s1.queue, s1.values, .releasing buf (isEmpty s.queue.header), none⟩ := by
    rw [hpc1, hqueue1]
    simp only [semPushStep, hfull, if_true]
  let s2 := s1.afterPush
    ⟨s1.queue, s1.values, .releasing buf (isEmpty s.queue.header), none⟩
  have hretesting : semPushStep s2.queue s2.values true s2.producer = some
      ⟨s1.queue, semPost s1.values .lock true, .retesting buf (isEmpty s.queue.header),
        none⟩ := rfl
  let s3 := s2.afterPush ⟨s1.queue, semPost s1.values .lock true,
    .retesting buf (isEmpty s.queue.header), none⟩
  have hqueue3 : s3.queue = s.queue := hqueue1
  have hvalues3 : s3.values = s.values := by
    show semPost s1.values .lock true = s.values
    rw [hvalues1, semPost_taken hlock]
  have hpc3 : s3.producer = .retesting buf (isEmpty s.queue.header) := rfl
  have hwaits := semPush_waits hpc3 (by rw [hqueue3]; exact hfull)
  rw [hqueue3, hvalues3] at hwaits
  exact producerReaches_head hreleasing (producerReaches_head hretesting hwaits)

theorem semPop_waits (hpc : s.consumer = .retesting size wasFull)
    (hempty : isEmpty s.queue.header = true) :
    ConsumerReaches s (.waiting size wasFull) s.queue
      (Function.update s.values .empty 0) := by
  have hout : semPopStep s.queue s.values true s.consumer =
      some ⟨s.queue, s.values, .waiting size wasFull, false, none⟩ := by
    simp only [hpc, semPopStep, hempty, if_true]
  generalize htodo : s.values .empty = todo
  induction todo generalizing s with
  | zero =>
      have hsame : Function.update s.values .empty 0 = s.values := by
        rw [← htodo, Function.update_eq_self]
      rw [hsame]
      exact ⟨_, semConsumerSteps_head hout ReflTransGen.refl, rfl, rfl, rfl, rfl⟩
  | succ todo ih =>
      let s1 := s.afterPop ⟨s.queue, s.values, .waiting size wasFull, false, none⟩
      let values := Function.update s.values .empty (s.values .empty - 1)
      let s2 := s1.afterPop ⟨s.queue, values, .retesting size wasFull, false, none⟩
      have htake : semPopStep s1.queue s1.values true s1.consumer =
          some ⟨s.queue, values, .retesting size wasFull, false, none⟩ := by
        show semPopStep s.queue s.values true (.waiting size wasFull) = _
        simp only [semPopStep, semWait_some (by lia : s.values .empty ≠ 0)]
        rfl
      have hpc2 : s2.consumer = .retesting size wasFull := rfl
      have hqueue2 : s2.queue = s.queue := rfl
      have hleft : s2.values .empty = todo := by
        show values .empty = todo
        simp [values, htodo]
      have hout2 : semPopStep s2.queue s2.values true s2.consumer =
          some ⟨s2.queue, s2.values, .waiting size wasFull, false, none⟩ := by
        simp only [hpc2, hqueue2, semPopStep, hempty, if_true]
      have hrest := ih hpc2 hempty hout2 hleft
      have hvalues : Function.update s2.values .empty 0 =
          Function.update s.values .empty 0 :=
        Function.update_idem _ _ _
      rw [hqueue2, hvalues] at hrest
      exact consumerReaches_head hout (consumerReaches_head htake hrest)

theorem semPop_retests (hpc : s.consumer = .entered size)
    (hruns : s.queue.header.stopConsumerPolling = false) (hlock : s.values .lock ≠ 0)
    (hempty : isEmpty s.queue.header = true) :
    ConsumerReaches s (.retesting size (isFull s.queue.header)) s.queue s.values := by
  apply (semPop_tests hpc hruns hlock).trans
  intro s1 hpc1 hqueue1 hvalues1
  have hreleasing : semPopStep s1.queue s1.values true s1.consumer = some
      ⟨s1.queue, s1.values, .releasing size (isFull s.queue.header), false, none⟩ := by
    rw [hpc1, hqueue1]
    simp only [semPopStep, hempty, if_true]
  have hvalues : semPost s1.values .lock true = s.values := by
    rw [hvalues1, semPost_taken hlock]
  exact ⟨_, semConsumerSteps_head hreleasing (semConsumerSteps_head rfl
    ReflTransGen.refl), rfl, hqueue1, hvalues, rfl⟩

/-- Back from its wait, a `sem_pop` still goes by the flag that it took before. -/
theorem semPop_resumes (hpc : s.consumer = .retesting size wasFull)
    (hmessage : isEmpty s.queue.header = false) (hlock : s.values .lock ≠ 0) :
    ConsumerReaches s (.idle (some (dequeue s.queue size).2.receipt))
      (dequeue s.queue size).1
      (if wasFull then semPost s.values .full true else s.values) := by
  have hrelocking : semPopStep s.queue s.values true s.consumer = some
      ⟨s.queue, s.values, .relocking size wasFull, false, none⟩ := by
    simp only [hpc, semPopStep, hmessage, Bool.false_eq_true, if_false]
  let s1 := s.afterPop ⟨s.queue, s.values, .relocking size wasFull, false, none⟩
  let values := Function.update s.values .lock (s.values .lock - 1)
  have hclamping : semPopStep s1.queue s1.values true s1.consumer = some
      ⟨s.queue, values, .clamping size wasFull, false, none⟩ := by
    show semPopStep s.queue s.values true (.relocking size wasFull) = _
    simp only [semPopStep, semWait_some hlock]
    rfl
  let s2 := s1.afterPop ⟨s.queue, values, .clamping size wasFull, false, none⟩
  have hpc2 : s2.consumer = .clamping size wasFull := rfl
  have hqueue2 : s2.queue = s.queue := rfl
  have hvalues2 : s2.values = values := rfl
  have hdequeues := semPop_dequeues hpc2
  rw [hqueue2, hvalues2] at hdequeues
  apply consumerReaches_head hrelocking
  apply consumerReaches_head hclamping
  apply hdequeues.trans
  intro s3 hpc3 hqueue3 hvalues3
  have hlast := semPop_unlocks hpc3
  rw [hqueue3, hvalues3, semPost_taken hlock] at hlast
  exact hlast

end Alone

end Queue
end Notnets
