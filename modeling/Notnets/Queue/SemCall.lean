import Mathlib.Logic.Relation
import Notnets.Queue.Call

/-!
# SEM calls of one thread

The functions `semPush` and `semPop` are what the steps of the two parties come
to when nobody else takes a step and every semaphore operation succeeds.
-/

namespace Notnets
namespace Queue

open Foundation
open Relation

/-- Any number of steps of the producer alone, whose `semop` calls succeed. -/
def SemProducerSteps : SemState -> SemState -> Prop :=
  ReflTransGen fun s s' => semNext s (.producer true) = some s'

/-- Any number of steps of the consumer alone, whose `semop` calls succeed. -/
def SemConsumerSteps : SemState -> SemState -> Prop :=
  ReflTransGen fun s s' => semNext s (.consumer true) = some s'

def SemState.semQueue (s : SemState) : SemQueue :=
  ⟨s.queue, s.values⟩

@[simp] theorem SemState.afterPop_values (s : SemState) (out : SemPopOutcome) :
    (s.afterPop out).values = out.values := rfl

section Push

variable {s : SemState} {buf : List Byte} {wasEmpty : Bool}

theorem semProducerSteps_head {out : SemPushOutcome} {s' : SemState}
    (h : semPushStep s.queue s.values true s.producer = some out)
    (hrest : SemProducerSteps (s.afterPush out) s') : SemProducerSteps s s' := by
  apply ReflTransGen.head _ hrest
  simp only [semNext, h]

def ProducerReaches (s : SemState) (pc : SemPushPc) (q : SpscQueue)
    (values : Semaphore -> Nat) : Prop :=
  exists s', SemProducerSteps s s' ∧ s'.producer = pc ∧ s'.queue = q ∧
    s'.values = values ∧ s'.consumer = s.consumer

theorem producerReaches_head {out : SemPushOutcome} {pc : SemPushPc} {q : SpscQueue}
    {values : Semaphore -> Nat}
    (h : semPushStep s.queue s.values true s.producer = some out)
    (hrest : ProducerReaches (s.afterPush out) pc q values) :
    ProducerReaches s pc q values := by
  rcases hrest with ⟨s', hsteps, hresult⟩
  exact ⟨s', semProducerSteps_head h hsteps, hresult⟩

theorem semPush_publishes (hpc : s.producer = .counting buf wasEmpty) :
    ProducerReaches s (.unlocking wasEmpty)
      (((s.queue.setCurrentCount (toInt32 (s.queue.header.currentCount + 1))).setTotalCount
        (toInt32 (s.queue.header.totalCount + 1))).setHead
          (succ s.queue.header.head s.queue.header.queueSize)) s.values := by
  have hout : semPushStep s.queue s.values true s.producer = some ⟨s.queue, s.values,
      .counted buf wasEmpty s.queue.header.currentCount, none⟩ := by
    simp only [hpc, semPushStep]
  exact ⟨_, semProducerSteps_head hout (semProducerSteps_head rfl
    (semProducerSteps_head rfl (semProducerSteps_head rfl ReflTransGen.refl))),
    rfl, rfl, rfl, rfl⟩

theorem semPush_copies {copied : Nat} (hpc : s.producer = .copying buf wasEmpty copied) :
    ProducerReaches s (.unlocking wasEmpty)
      ((((s.queue.copy (enqueueAddress s.queue.header + copied)
        (buf.drop copied)).setCurrentCount
          (toInt32 (s.queue.header.currentCount + 1))).setTotalCount
            (toInt32 (s.queue.header.totalCount + 1))).setHead
              (succ s.queue.header.head s.queue.header.queueSize)) s.values := by
  generalize htodo : buf.length - copied = todo
  induction todo generalizing s copied with
  | zero =>
      have hend : buf.length ≤ copied := by lia
      have hout : semPushStep s.queue s.values true s.producer =
          some ⟨s.queue, s.values, .counting buf wasEmpty, none⟩ := by
        simp only [hpc, semPushStep, List.getElem?_eq_none hend]
      rw [List.drop_eq_nil_of_le hend]
      exact producerReaches_head hout (semPush_publishes rfl)
  | succ todo ih =>
      have hlt : copied < buf.length := by lia
      let out : SemPushOutcome :=
        ⟨s.queue.write (enqueueAddress s.queue.header + copied) buf[copied], s.values,
          .copying buf wasEmpty (copied + 1), none⟩
      have hout : semPushStep s.queue s.values true s.producer = some out := by
        simp only [hpc, semPushStep, List.getElem?_eq_getElem hlt]
        rfl
      have hcopying : (s.afterPush out).producer = .copying buf wasEmpty (copied + 1) :=
        rfl
      have hrest := ih hcopying (by lia)
      rw [Nat.cast_succ, ← add_assoc] at hrest
      rw [List.drop_eq_getElem_cons hlt]
      exact producerReaches_head hout hrest

theorem semPush_unlocks (hpc : s.producer = .unlocking wasEmpty) :
    ProducerReaches s (.idle (some 0)) s.queue
      (if wasEmpty then semPost (semPost s.values .lock true) .empty true
        else semPost s.values .lock true) := by
  cases wasEmpty with
  | true =>
      have hout : semPushStep s.queue s.values true s.producer =
          some ⟨s.queue, semPost s.values .lock true, .posting, none⟩ := by
        simp only [hpc, semPushStep, if_true]
      exact ⟨_, semProducerSteps_head hout (semProducerSteps_head rfl ReflTransGen.refl),
        rfl, rfl, rfl, rfl⟩
  | false =>
      have hout : semPushStep s.queue s.values true s.producer =
          some ⟨s.queue, semPost s.values .lock true, .idle (some 0), none⟩ := by
        simp only [hpc, semPushStep, Bool.false_eq_true, if_false]
      exact ⟨_, semProducerSteps_head hout ReflTransGen.refl, rfl, rfl, rfl, rfl⟩

theorem ProducerReaches.trans {pc pc' : SemPushPc} {q q' : SpscQueue}
    {values values' : Semaphore -> Nat} (h : ProducerReaches s pc q values)
    (hrest : forall s1 : SemState, s1.producer = pc -> s1.queue = q ->
      s1.values = values -> ProducerReaches s1 pc' q' values') :
    ProducerReaches s pc' q' values' := by
  rcases h with ⟨s1, hsteps, hpc, hqueue, hvalues, hconsumer⟩
  rcases hrest s1 hpc hqueue hvalues with ⟨s', hmore, hpc', hqueue', hvalues', hother⟩
  exact ⟨s', hsteps.trans hmore, hpc', hqueue', hvalues', hother.trans hconsumer⟩

theorem semPush_tests (hpc : s.producer = .entered buf)
    (hfits : buf.length ≤ s.queue.header.messageSize) (hlock : s.values .lock ≠ 0) :
    ProducerReaches s (.testing buf (isEmpty s.queue.header)) s.queue
      (Function.update s.values .lock (s.values .lock - 1)) := by
  have hentered : semPushStep s.queue s.values true s.producer =
      some ⟨s.queue, s.values, .locking buf, none⟩ := by
    simp only [hpc, semPushStep]
    rw [if_neg (by lia)]
  let s1 := s.afterPush ⟨s.queue, s.values, .locking buf, none⟩
  have hlocked : semPushStep s1.queue s1.values true s1.producer = some ⟨s.queue,
      Function.update s.values .lock (s.values .lock - 1), .sampling buf, none⟩ := by
    show semPushStep s.queue s.values true (.locking buf) = _
    simp only [semPushStep, semWait_some hlock]
  exact ⟨_, semProducerSteps_head hentered (semProducerSteps_head hlocked
    (semProducerSteps_head rfl ReflTransGen.refl)), rfl, rfl, rfl, rfl⟩

theorem semProducerSteps_semPush {q : SemQueue} {ret : Int}
    (hpc : s.producer = .entered buf) (h : semPush s.semQueue buf = some (q, ret)) :
    ProducerReaches s (.idle (some ret)) q.queue q.values := by
  by_cases hlarge : s.queue.header.messageSize < buf.length
  · rw [semPush_large hlarge] at h
    cases h
    have hout : semPushStep s.queue s.values true s.producer =
        some ⟨s.queue, s.values, .idle (some (-1)), none⟩ := by
      simp only [hpc, semPushStep, if_pos hlarge]
    exact ⟨_, semProducerSteps_head hout ReflTransGen.refl, rfl, rfl, rfl, rfl⟩
  · have hfits : buf.length ≤ s.queue.header.messageSize := by lia
    by_cases hlock : s.values .lock = 0
    · rw [semPush_locked hfits hlock] at h
      cases h
    · by_cases hroom : s.queue.header.queueSize = 0 ∨ isFull s.queue.header
      · rw [semPush_full hfits hroom] at h
        cases h
      · have hfree : isFull s.queue.header = false := by
          simpa using (not_or.mp hroom).right
        rw [semPush_room hfits hlock hroom] at h
        cases h
        apply (semPush_tests hpc hfits hlock).trans
        intro s1 hpc1 hqueue1 hvalues1
        have htest : semPushStep s1.queue s1.values true s1.producer =
            some ⟨s1.queue, s1.values, .copying buf (isEmpty s.queue.header) 0,
              none⟩ := by
          rw [hpc1, hqueue1]
          simp only [semPushStep, hfree, Bool.false_eq_true, if_false]
        apply producerReaches_head htest
        apply (semPush_copies rfl).trans
        intro s2 hpc2 hqueue2 hvalues2
        have hlast := semPush_unlocks hpc2
        rw [hqueue2, hvalues2] at hlast
        simp only [SemState.afterPush, hqueue1, hvalues1, semPost_taken hlock,
          Nat.cast_zero, add_zero, List.drop_zero] at hlast
        exact hlast

/-- Alone on a full ring, the loop of `sem_push` takes `sem_full` until it blocks. -/
theorem semPush_sleeps (hpc : s.producer = .retesting buf wasEmpty)
    (hfull : isFull s.queue.header = true) :
    exists s', SemProducerSteps s s' ∧ semNext s' (.producer true) = none ∧
      forall ret, s'.producer ≠ .idle ret := by
  generalize htodo : s.values .full = todo
  induction todo generalizing s with
  | zero =>
      have hout : semPushStep s.queue s.values true s.producer =
          some ⟨s.queue, s.values, .waiting buf wasEmpty, none⟩ := by
        simp only [hpc, semPushStep, hfull, if_true]
      refine ⟨_, semProducerSteps_head hout ReflTransGen.refl, ?_, ?_⟩
      · simp [semNext, semPushStep, SemState.afterPush, semWait, htodo]
      · intro ret hidle
        cases hidle
  | succ todo ih =>
      have hout : semPushStep s.queue s.values true s.producer =
          some ⟨s.queue, s.values, .waiting buf wasEmpty, none⟩ := by
        simp only [hpc, semPushStep, hfull, if_true]
      let s1 := s.afterPush ⟨s.queue, s.values, .waiting buf wasEmpty, none⟩
      let values := Function.update s.values .full (s.values .full - 1)
      have htake : semPushStep s1.queue s1.values true s1.producer =
          some ⟨s.queue, values, .retesting buf wasEmpty, none⟩ := by
        show semPushStep s.queue s.values true (.waiting buf wasEmpty) = _
        simp only [semPushStep, semWait_some (by lia : s.values .full ≠ 0)]
        rfl
      have hpc2 :
          (s1.afterPush ⟨s.queue, values, .retesting buf wasEmpty, none⟩).producer =
            .retesting buf wasEmpty := rfl
      have hleft : values .full = todo := by
        simp [values, htodo]
      rcases ih hpc2 hfull hleft with ⟨s', hsteps, hblocked⟩
      exact ⟨s', semProducerSteps_head hout (semProducerSteps_head htake hsteps),
        hblocked⟩

theorem semProducerSteps_semPush_none (hpc : s.producer = .entered buf)
    (hslots : s.queue.header.queueSize ≠ 0) (h : semPush s.semQueue buf = none) :
    exists s', SemProducerSteps s s' ∧ semNext s' (.producer true) = none ∧
      forall ret, s'.producer ≠ .idle ret := by
  by_cases hlarge : s.queue.header.messageSize < buf.length
  · rw [semPush_large hlarge] at h
    cases h
  · have hfits : buf.length ≤ s.queue.header.messageSize := by lia
    by_cases hlock : s.values .lock = 0
    · have hentered : semPushStep s.queue s.values true s.producer =
          some ⟨s.queue, s.values, .locking buf, none⟩ := by
        simp only [hpc, semPushStep, if_neg hlarge]
      refine ⟨_, semProducerSteps_head hentered ReflTransGen.refl, ?_, ?_⟩
      · simp [semNext, semPushStep, SemState.afterPush, semWait, hlock]
      · intro ret hidle
        cases hidle
    · cases hroom : isFull s.queue.header with
      | false =>
          have hring : ¬ (s.queue.header.queueSize = 0 ∨ isFull s.queue.header) := by
            simp [hslots, hroom]
          rw [semPush_room hfits hlock hring] at h
          exact absurd h (Option.some_ne_none _)
      | true =>
          rcases semPush_tests hpc hfits hlock with
            ⟨s1, hsteps, hpc1, hqueue1, hvalues1, _⟩
          have hreleasing : semPushStep s1.queue s1.values true s1.producer =
              some ⟨s1.queue, s1.values, .releasing buf (isEmpty s.queue.header),
                none⟩ := by
            rw [hpc1, hqueue1]
            simp only [semPushStep, hroom, if_true]
          let s2 := s1.afterPush
            ⟨s1.queue, s1.values, .releasing buf (isEmpty s.queue.header), none⟩
          have hretesting : semPushStep s2.queue s2.values true s2.producer = some
              ⟨s1.queue, semPost s1.values .lock true,
                .retesting buf (isEmpty s.queue.header), none⟩ := rfl
          have hpc3 : (s2.afterPush ⟨s1.queue, semPost s1.values .lock true,
              .retesting buf (isEmpty s.queue.header), none⟩).producer =
                .retesting buf (isEmpty s.queue.header) := rfl
          rcases semPush_sleeps hpc3 (by rw [← hroom, ← hqueue1]; rfl) with
            ⟨s', hrest, hblocked⟩
          exact ⟨s', hsteps.trans (semProducerSteps_head hreleasing
            (semProducerSteps_head hretesting hrest)), hblocked⟩

end Push

section Pop

variable {s : SemState} {size : Nat} {buf : List Byte} {wasFull : Bool}

theorem semConsumerSteps_head {out : SemPopOutcome} {s' : SemState}
    (h : semPopStep s.queue s.values true s.consumer = some out)
    (hrest : SemConsumerSteps (s.afterPop out) s') : SemConsumerSteps s s' := by
  apply ReflTransGen.head _ hrest
  simp only [semNext, h]

def ConsumerReaches (s : SemState) (pc : SemPopPc) (q : SpscQueue)
    (values : Semaphore -> Nat) : Prop :=
  exists s', SemConsumerSteps s s' ∧ s'.consumer = pc ∧ s'.queue = q ∧
    s'.values = values ∧ s'.producer = s.producer

theorem consumerReaches_head {out : SemPopOutcome} {pc : SemPopPc} {q : SpscQueue}
    {values : Semaphore -> Nat}
    (h : semPopStep s.queue s.values true s.consumer = some out)
    (hrest : ConsumerReaches (s.afterPop out) pc q values) :
    ConsumerReaches s pc q values := by
  rcases hrest with ⟨s', hsteps, hresult⟩
  exact ⟨s', semConsumerSteps_head h hsteps, hresult⟩

theorem ConsumerReaches.trans {pc pc' : SemPopPc} {q q' : SpscQueue}
    {values values' : Semaphore -> Nat} (h : ConsumerReaches s pc q values)
    (hrest : forall s1 : SemState, s1.consumer = pc -> s1.queue = q ->
      s1.values = values -> ConsumerReaches s1 pc' q' values') :
    ConsumerReaches s pc' q' values' := by
  rcases h with ⟨s1, hsteps, hpc, hqueue, hvalues, hproducer⟩
  rcases hrest s1 hpc hqueue hvalues with ⟨s', hmore, hpc', hqueue', hvalues', hother⟩
  exact ⟨s', hsteps.trans hmore, hpc', hqueue', hvalues', hother.trans hproducer⟩

theorem semPop_removes (hpc : s.consumer = .advanced buf wasFull)
    (hall : toSizeT s.queue.header.messageOffset = s.queue.header.messageSize) :
    ConsumerReaches s (.unlocking ⟨buf, 0⟩ wasFull) (retire s.queue) s.values := by
  have hout : semPopStep s.queue s.values true s.consumer =
      some ⟨s.queue, s.values, .retiring buf wasFull, false, none⟩ := by
    simp only [hpc, semPopStep, if_pos hall]
  exact ⟨_, semConsumerSteps_head hout (semConsumerSteps_head rfl
    (semConsumerSteps_head rfl (semConsumerSteps_head rfl (semConsumerSteps_head rfl
      (semConsumerSteps_head rfl ReflTransGen.refl))))), rfl, rfl, rfl, rfl⟩

theorem semPop_stays (hpc : s.consumer = .advanced buf wasFull)
    (hpart : toSizeT s.queue.header.messageOffset ≠ s.queue.header.messageSize) :
    ConsumerReaches s
      (.unlocking ⟨buf, toSizeT s.queue.header.messageOffset⟩ wasFull) s.queue
      s.values := by
  have hout : semPopStep s.queue s.values true s.consumer =
      some ⟨s.queue, s.values, .returning buf wasFull, false, none⟩ := by
    simp only [hpc, semPopStep, if_neg hpart]
  exact ⟨_, semConsumerSteps_head hout (semConsumerSteps_head rfl ReflTransGen.refl),
    rfl, rfl, rfl, rfl⟩

theorem semPop_copies {clamped : Nat} (hpc : s.consumer = .copying clamped wasFull buf)
    (hclamped : clamped =
      clampSize s.queue.header.messageSize s.queue.header.messageOffset size)
    (hle : buf.length ≤ clamped)
    (hbuf : buf = load s.queue.mem (dequeueAddress s.queue.header) buf.length) :
    ConsumerReaches s (.unlocking (dequeue s.queue size).2.receipt wasFull)
      (dequeue s.queue size).1 s.values := by
  generalize htodo : clamped - buf.length = todo
  induction todo generalizing s buf with
  | zero =>
      have hdone : ¬ buf.length < clamped := by lia
      have hlength : buf.length = clamped := by lia
      let out : SemPopOutcome :=
        ⟨s.queue.setMessageOffset (advanceOffset s.queue.header.messageOffset clamped),
          s.values, .advanced buf wasFull, false, none⟩
      have hout : semPopStep s.queue s.values true s.consumer = some out := by
        simp only [hpc, semPopStep, if_neg hdone]
        rfl
      have hqueue : (s.afterPop out).queue = s.queue.setMessageOffset
          (advanceOffset s.queue.header.messageOffset clamped) := rfl
      have hvalues : (s.afterPop out).values = s.values := by
        rw [SemState.afterPop_values]
      have hadvanced : (s.afterPop out).consumer = .advanced buf wasFull := rfl
      have hoffset : toSizeT (s.afterPop out).queue.header.messageOffset =
            (s.afterPop out).queue.header.messageSize <->
          toSizeT (advanceOffset s.queue.header.messageOffset clamped) =
            s.queue.header.messageSize := by
        rw [hqueue, SpscQueue.setMessageOffset_messageOffset,
          SpscQueue.setMessageOffset_messageSize]
      rw [hlength] at hbuf
      apply consumerReaches_head hout
      by_cases hall : toSizeT (advanceOffset s.queue.header.messageOffset clamped) =
          s.queue.header.messageSize
      · have hremoved := semPop_removes hadvanced (hoffset.mpr hall)
        rw [hqueue, hvalues, retire_setMessageOffset] at hremoved
        simp only [dequeue, ← hclamped, hall, if_true, ← hbuf]
        exact hremoved
      · have hstays := semPop_stays hadvanced fun h => hall (hoffset.mp h)
        rw [hqueue, hvalues, SpscQueue.setMessageOffset_messageOffset] at hstays
        simp only [dequeue, ← hclamped, hall, if_false, ← hbuf]
        exact hstays
  | succ todo ih =>
      have hlt : buf.length < clamped := by lia
      let out : SemPopOutcome := ⟨s.queue, s.values, .copying clamped wasFull
        (buf ++ [s.queue.mem (dequeueAddress s.queue.header + buf.length)]), false, none⟩
      have hout : semPopStep s.queue s.values true s.consumer = some out := by
        simp only [hpc, semPopStep, if_pos hlt]
        rfl
      have hlength : (buf ++ [s.queue.mem (dequeueAddress s.queue.header +
          buf.length)]).length = buf.length + 1 := by
        rw [List.length_append, List.length_singleton]
      have hmore : buf ++ [s.queue.mem (dequeueAddress s.queue.header + buf.length)] =
          load s.queue.mem (dequeueAddress s.queue.header) (buf.length + 1) := by
        rw [load_succ, ← hbuf]
      rw [← hlength] at hmore
      have hcopying : (s.afterPop out).consumer = .copying clamped wasFull _ := rfl
      have hqueue : (s.afterPop out).queue = s.queue := rfl
      rw [← hqueue] at hclamped hmore
      have hrest := ih hcopying hclamped (by lia) hmore (by lia)
      rw [hqueue] at hrest
      exact consumerReaches_head hout hrest

theorem semPop_dequeues (hpc : s.consumer = .clamping size wasFull) :
    ConsumerReaches s (.unlocking (dequeue s.queue size).2.receipt wasFull)
      (dequeue s.queue size).1 s.values := by
  let out : SemPopOutcome := ⟨s.queue, s.values, .copying
    (clampSize s.queue.header.messageSize s.queue.header.messageOffset size) wasFull [],
      false, none⟩
  have hout : semPopStep s.queue s.values true s.consumer = some out := by
    simp only [hpc, semPopStep]
    rfl
  have hqueue : (s.afterPop out).queue = s.queue := rfl
  have hvalues : (s.afterPop out).values = s.values := by
    rw [SemState.afterPop_values]
  have hcopying : (s.afterPop out).consumer = .copying
    (clampSize s.queue.header.messageSize s.queue.header.messageOffset size) wasFull [] :=
      rfl
  have hcopied := @semPop_copies (s.afterPop out) size [] wasFull _ hcopying
    (by rw [hqueue]) (Nat.zero_le _) rfl
  rw [hqueue, hvalues] at hcopied
  exact consumerReaches_head hout hcopied

theorem semPop_unlocks {receipt : Receipt}
    (hpc : s.consumer = .unlocking receipt wasFull) :
    ConsumerReaches s (.idle (some receipt)) s.queue
      (if wasFull then semPost (semPost s.values .lock true) .full true
        else semPost s.values .lock true) := by
  cases wasFull with
  | true =>
      have hout : semPopStep s.queue s.values true s.consumer =
          some ⟨s.queue, semPost s.values .lock true, .posting receipt, false, none⟩ := by
        simp only [hpc, semPopStep, if_true]
      exact ⟨_, semConsumerSteps_head hout (semConsumerSteps_head rfl ReflTransGen.refl),
        rfl, rfl, rfl, rfl⟩
  | false =>
      have hout : semPopStep s.queue s.values true s.consumer = some
          ⟨s.queue, semPost s.values .lock true, .idle (some receipt), false, none⟩ := by
        simp only [hpc, semPopStep, Bool.false_eq_true, if_false]
      exact ⟨_, semConsumerSteps_head hout ReflTransGen.refl, rfl, rfl, rfl, rfl⟩

theorem semPop_tests (hpc : s.consumer = .entered size)
    (hruns : s.queue.header.stopConsumerPolling = false) (hlock : s.values .lock ≠ 0) :
    ConsumerReaches s (.testing size (isFull s.queue.header)) s.queue
      (Function.update s.values .lock (s.values .lock - 1)) := by
  have hentered : semPopStep s.queue s.values true s.consumer =
      some ⟨s.queue, s.values, .locking size, false, none⟩ := by
    simp only [hpc, semPopStep, hruns, Bool.false_eq_true, if_false]
  let s1 := s.afterPop ⟨s.queue, s.values, .locking size, false, none⟩
  have hlocked : semPopStep s1.queue s1.values true s1.consumer = some ⟨s.queue,
      Function.update s.values .lock (s.values .lock - 1), .sampling size, false,
        none⟩ := by
    show semPopStep s.queue s.values true (.locking size) = _
    simp only [semPopStep, semWait_some hlock]
  exact ⟨_, semConsumerSteps_head hentered (semConsumerSteps_head hlocked
    (semConsumerSteps_head rfl ReflTransGen.refl)), rfl, rfl, rfl, rfl⟩

theorem semPop_returns (hpc : s.consumer = .entered size)
    (hruns : s.queue.header.stopConsumerPolling = false) (hlock : s.values .lock ≠ 0)
    (hmessage : isEmpty s.queue.header = false) :
    ConsumerReaches s (.idle (some (dequeue s.queue size).2.receipt))
      (dequeue s.queue size).1
      (if isFull s.queue.header then semPost s.values .full true else s.values) := by
  apply (semPop_tests hpc hruns hlock).trans
  intro s1 hpc1 hqueue1 hvalues1
  have htest : semPopStep s1.queue s1.values true s1.consumer = some
      ⟨s1.queue, s1.values, .clamping size (isFull s.queue.header), false, none⟩ := by
    rw [hpc1, hqueue1]
    simp only [semPopStep, hmessage, Bool.false_eq_true, if_false]
  let s2 := s1.afterPop
    ⟨s1.queue, s1.values, .clamping size (isFull s.queue.header), false, none⟩
  have hclamping : s2.consumer = .clamping size (isFull s.queue.header) := rfl
  have hqueue2 : s2.queue = s.queue := hqueue1
  have hvalues2 : s2.values = Function.update s.values .lock (s.values .lock - 1) :=
    hvalues1
  have hdequeued := semPop_dequeues hclamping
  rw [hqueue2, hvalues2] at hdequeued
  apply consumerReaches_head htest
  apply hdequeued.trans
  intro s3 hpc3 hqueue3 hvalues3
  have hlast := semPop_unlocks hpc3
  rw [hqueue3, hvalues3, semPost_taken hlock] at hlast
  exact hlast

theorem semQueue_inj {ring : SpscQueue} {values : Semaphore -> Nat} {q : SemQueue}
    {reply last : PopReply} (h : some (SemQueue.mk ring values, last) = some (q, reply)) :
    q.queue = ring ∧ q.values = values ∧ reply = last := by
  cases h
  exact ⟨rfl, rfl, rfl⟩

theorem semConsumerSteps_semPop {q : SemQueue} {reply : PopReply}
    (hpc : s.consumer = .entered size) (h : semPop s.semQueue size = some (q, reply)) :
    ConsumerReaches s (.idle (some reply.receipt)) q.queue q.values := by
  have hqueue : s.semQueue.queue = s.queue := rfl
  have hvalues : s.semQueue.values = s.values := rfl
  by_cases hstop : s.queue.header.stopConsumerPolling = true
  · rw [semPop_stopped hstop] at h
    cases h
    have hout : semPopStep s.queue s.values true s.consumer =
        some ⟨s.queue, s.values, .idle (some ⟨[], 0⟩), false, none⟩ := by
      simp only [hpc, semPopStep, hstop, if_true]
    exact ⟨_, semConsumerSteps_head hout ReflTransGen.refl, rfl, rfl, rfl, rfl⟩
  · have hruns : s.queue.header.stopConsumerPolling = false := by simpa using hstop
    by_cases hlock : s.values .lock = 0
    · rw [semPop_locked hruns hlock] at h
      cases h
    · by_cases hmessage : s.queue.header.queueSize = 0 ∨ isEmpty s.queue.header
      · rw [semPop_empty hruns hmessage] at h
        cases h
      · have hnonempty : isEmpty s.queue.header = false := by
          simpa using (not_or.mp hmessage).right
        have hreturns := semPop_returns hpc hruns hlock hnonempty
        rw [semPop_nonempty hruns hlock hmessage, hqueue, hvalues] at h
        rcases semQueue_inj h with ⟨hring, hposted, hreply⟩
        rw [hring, hposted, hreply]
        exact hreturns

/-- Alone on an empty ring, the loop of `sem_pop` takes `sem_empty` until it
blocks. -/
theorem semPop_sleeps (hpc : s.consumer = .retesting size wasFull)
    (hempty : isEmpty s.queue.header = true) :
    exists s', SemConsumerSteps s s' ∧ semNext s' (.consumer true) = none ∧
      forall last, s'.consumer ≠ .idle last := by
  generalize htodo : s.values .empty = todo
  induction todo generalizing s with
  | zero =>
      have hout : semPopStep s.queue s.values true s.consumer =
          some ⟨s.queue, s.values, .waiting size wasFull, false, none⟩ := by
        simp only [hpc, semPopStep, hempty, if_true]
      refine ⟨_, semConsumerSteps_head hout ReflTransGen.refl, ?_, ?_⟩
      · simp [semNext, semPopStep, SemState.afterPop, semWait, htodo]
      · intro ret hidle
        cases hidle
  | succ todo ih =>
      have hout : semPopStep s.queue s.values true s.consumer =
          some ⟨s.queue, s.values, .waiting size wasFull, false, none⟩ := by
        simp only [hpc, semPopStep, hempty, if_true]
      let s1 := s.afterPop ⟨s.queue, s.values, .waiting size wasFull, false, none⟩
      let values := Function.update s.values .empty (s.values .empty - 1)
      have htake : semPopStep s1.queue s1.values true s1.consumer =
          some ⟨s.queue, values, .retesting size wasFull, false, none⟩ := by
        show semPopStep s.queue s.values true (.waiting size wasFull) = _
        simp only [semPopStep, semWait_some (by lia : s.values .empty ≠ 0)]
        rfl
      have hpc2 : (s1.afterPop
          ⟨s.queue, values, .retesting size wasFull, false, none⟩).consumer =
            .retesting size wasFull := rfl
      have hleft : values .empty = todo := by
        simp [values, htodo]
      rcases ih hpc2 hempty hleft with ⟨s', hsteps, hblocked⟩
      exact ⟨s', semConsumerSteps_head hout (semConsumerSteps_head htake hsteps),
        hblocked⟩

theorem semConsumerSteps_semPop_none (hpc : s.consumer = .entered size)
    (hslots : s.queue.header.queueSize ≠ 0) (h : semPop s.semQueue size = none) :
    exists s', SemConsumerSteps s s' ∧ semNext s' (.consumer true) = none ∧
      forall last, s'.consumer ≠ .idle last := by
  by_cases hstop : s.queue.header.stopConsumerPolling = true
  · rw [semPop_stopped hstop] at h
    cases h
  · have hruns : s.queue.header.stopConsumerPolling = false := by simpa using hstop
    by_cases hlock : s.values .lock = 0
    · have hentered : semPopStep s.queue s.values true s.consumer =
          some ⟨s.queue, s.values, .locking size, false, none⟩ := by
        simp only [hpc, semPopStep, hruns, Bool.false_eq_true, if_false]
      refine ⟨_, semConsumerSteps_head hentered ReflTransGen.refl, ?_, ?_⟩
      · simp [semNext, semPopStep, SemState.afterPop, semWait, hlock]
      · intro ret hidle
        cases hidle
    · cases hmessage : isEmpty s.queue.header with
      | false =>
          have hring : ¬ (s.queue.header.queueSize = 0 ∨ isEmpty s.queue.header) := by
            simp [hslots, hmessage]
          rw [semPop_nonempty hruns hlock hring] at h
          exact absurd h (Option.some_ne_none _)
      | true =>
          rcases semPop_tests hpc hruns hlock with
            ⟨s1, hsteps, hpc1, hqueue1, hvalues1, _⟩
          have hreleasing : semPopStep s1.queue s1.values true s1.consumer = some
              ⟨s1.queue, s1.values, .releasing size (isFull s.queue.header), false,
                none⟩ := by
            rw [hpc1, hqueue1]
            simp only [semPopStep, hmessage, if_true]
          let s2 := s1.afterPop
            ⟨s1.queue, s1.values, .releasing size (isFull s.queue.header), false, none⟩
          have hretesting : semPopStep s2.queue s2.values true s2.consumer = some
              ⟨s1.queue, semPost s1.values .lock true,
                .retesting size (isFull s.queue.header), false, none⟩ := rfl
          have hpc3 : (s2.afterPop ⟨s1.queue, semPost s1.values .lock true,
              .retesting size (isFull s.queue.header), false, none⟩).consumer =
                .retesting size (isFull s.queue.header) := rfl
          rcases semPop_sleeps hpc3 (by rw [← hmessage, ← hqueue1]; rfl) with
            ⟨s', hrest, hblocked⟩
          exact ⟨s', hsteps.trans (semConsumerSteps_head hreleasing
            (semConsumerSteps_head hretesting hrest)), hblocked⟩

end Pop

end Queue
end Notnets
