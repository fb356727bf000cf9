import Notnets.Queue.PollProgress

/-!
# POLL calls of one thread

The functions `push` and `pop` are what the steps of the two parties come to
when nobody else takes a step: a call that the function completes returns the
same, and a call that it does not complete waits forever.
-/

namespace Notnets
namespace Queue

open Foundation
open Relation

section Push

variable {s : PollState} {buf : List Byte}

theorem producerSteps_polling (hpc : s.producer = .entered buf)
    (hfits : buf.length ≤ s.queue.header.messageSize) :
    exists s', ProducerSteps s s' ∧ s'.queue = s.queue ∧ s'.consumer = s.consumer ∧
      s'.producer = .polling buf (toInt32 s.queue.header.messageSize)
        s.queue.header.head (nextIndex s.queue.header s.queue.header.head) := by
  let sized : PushOutcome :=
    ⟨s.queue, .sized buf (toInt32 s.queue.header.messageSize), none⟩
  have hsized : pushStep s.queue s.producer = some sized := by
    simp only [hpc, pushStep]
    rw [if_neg (by lia)]
  exact ⟨_, producerSteps_head hsized (producerSteps_head rfl ReflTransGen.refl),
    rfl, rfl, rfl⟩

theorem producerSteps_push {q : SpscQueue} {ret : Int}
    (hpc : s.producer = .entered buf) (h : push s.queue buf = some (q, ret)) :
    exists s', ProducerSteps s s' ∧ s'.producer = .idle (some ret) ∧ s'.queue = q ∧
      s'.consumer = s.consumer := by
  by_cases hlarge : s.queue.header.messageSize < buf.length
  · rw [push_large hlarge] at h
    cases h
    have hout : pushStep s.queue s.producer =
        some ⟨s.queue, .idle (some (-1)), none⟩ := by
      simp only [hpc, pushStep, if_pos hlarge]
    exact ⟨_, producerSteps_head hout ReflTransGen.refl, rfl, rfl, rfl⟩
  · by_cases hfree : nextIndex s.queue.header s.queue.header.head = s.queue.header.tail
    · rw [push_full (by lia) hfree] at h
      cases h
    · rw [push_room (by lia) hfree] at h
      rcases producerSteps_polling hpc (by lia) with
        ⟨s1, hsteps, hqueue, hconsumer, hpolling⟩
      injection h with hresult
      injection hresult with hq hret
      rw [← hqueue] at hfree
      let copying : PushOutcome :=
        ⟨s1.queue, .copying buf (toInt32 s1.queue.header.messageSize)
          s1.queue.header.head (nextIndex s1.queue.header s1.queue.header.head) 0, none⟩
      have hcopying : pushStep s1.queue s1.producer = some copying := by
        rw [hpolling, ← hqueue]
        simp only [pushStep, if_neg hfree]
        rfl
      have hpc1 : (s1.afterPush copying).producer =
          .copying buf (toInt32 s1.queue.header.messageSize) s1.queue.header.head
            (nextIndex s1.queue.header s1.queue.header.head) 0 := rfl
      rcases push_copies hpc1 with ⟨s', hrest, hidle, hlast, hother⟩
      refine ⟨s', hsteps.trans (producerSteps_head hcopying hrest), ?_, ?_, ?_⟩
      · rw [hidle, hret]
      · rw [hlast, ← hq, ← hqueue, Nat.cast_zero, add_zero, List.drop_zero]
        rfl
      · rw [hother, PollState.afterPush_consumer, hconsumer]

/-- A `push` that is not completed ends in a loop that changes nothing. -/
theorem producerSteps_push_none (hpc : s.producer = .entered buf)
    (h : push s.queue buf = none) :
    exists s', ProducerSteps s s' ∧ PushWaits s'.queue s'.producer ∧
      forall s'', ProducerSteps s' s'' -> s'' = s' := by
  by_cases hlarge : s.queue.header.messageSize < buf.length
  · rw [push_large hlarge] at h
    cases h
  · rcases producerSteps_polling hpc (by lia) with ⟨s1, hsteps, hqueue, _, hpolling⟩
    by_cases hfull : nextIndex s.queue.header s.queue.header.head = s.queue.header.tail
    · rw [← hqueue] at hfull hpolling
      refine ⟨s1, hsteps, by rw [hpolling]; exact hfull, ?_⟩
      intro s'' hmore
      induction hmore with
      | refl => rfl
      | tail _ hnext ih =>
          rw [ih] at hnext
          rcases pollNext_producer hnext with ⟨out, hout, hlast⟩
          rw [hpolling] at hout
          simp only [pushStep, if_pos hfull] at hout
          cases hout
          rw [hlast]
          cases s1
          simp only at hpolling
          simp [PollState.afterPush, hpolling]
    · rw [push_room (by lia) hfull] at h
      cases h

end Push

section Pop

variable {s : PollState} {size : Nat}

theorem consumerSteps_polling (hpc : s.consumer = .entered size)
    (hruns : s.queue.header.stopConsumerPolling = false) :
    exists s', ConsumerSteps s s' ∧ s'.queue = s.queue ∧ s'.producer = s.producer ∧
      s'.consumer = .polling (clampSize s.queue.header.messageSize
        s.queue.header.messageOffset size) s.queue.header.tail := by
  let clamped := clampSize s.queue.header.messageSize s.queue.header.messageOffset size
  have hclamped : popStep s.queue s.consumer =
      some ⟨s.queue, .clamped clamped, none⟩ := by
    simp only [hpc, popStep]
    rfl
  let s1 := s.afterPop ⟨s.queue, .clamped clamped, none⟩
  have hrunning : popStep s1.queue s1.consumer =
      some ⟨s.queue, .running clamped, none⟩ := by
    show popStep s.queue (.clamped clamped) = _
    simp only [popStep, hruns]
    rfl
  exact ⟨_, consumerSteps_head hclamped (consumerSteps_head hrunning
    (consumerSteps_head rfl ReflTransGen.refl)), rfl, rfl, rfl⟩

theorem consumerSteps_pop {q : SpscQueue} {reply : PopReply}
    (hpc : s.consumer = .entered size) (h : pop s.queue size = some (q, reply)) :
    exists s', ConsumerSteps s s' ∧ s'.consumer = .idle (some reply.receipt) ∧
      s'.queue = q ∧ s'.producer = s.producer := by
  let clamped := clampSize s.queue.header.messageSize s.queue.header.messageOffset size
  by_cases hstop : s.queue.header.stopConsumerPolling = true
  · rw [pop_stopped hstop] at h
    cases h
    have hclamped : popStep s.queue s.consumer =
        some ⟨s.queue, .clamped clamped, none⟩ := by
      simp only [hpc, popStep]
      rfl
    let s1 := s.afterPop ⟨s.queue, .clamped clamped, none⟩
    have hidle : popStep s1.queue s1.consumer =
        some ⟨s.queue, .idle (some ⟨[], 0⟩), some ⟨[], 0⟩⟩ := by
      show popStep s.queue (.clamped clamped) = _
      simp only [popStep, hstop, if_true]
    exact ⟨_, consumerSteps_head hclamped (consumerSteps_head hidle ReflTransGen.refl),
      rfl, rfl, rfl⟩
  · have hruns : s.queue.header.stopConsumerPolling = false := by simpa using hstop
    by_cases hempty : s.queue.header.tail = s.queue.header.head
    · rw [pop_empty hruns hempty] at h
      cases h
    · rw [pop_nonempty hruns hempty] at h
      rcases consumerSteps_polling hpc hruns with
        ⟨s1, hsteps, hqueue, hproducer, hpolling⟩
      rw [← hqueue] at h hempty hpolling
      let copying : PopOutcome := ⟨s1.queue, .copying (clampSize
        s1.queue.header.messageSize s1.queue.header.messageOffset size)
          s1.queue.header.tail [], none⟩
      have hcopying : popStep s1.queue s1.consumer = some copying := by
        simp only [hpolling, popStep, if_neg hempty]
        rfl
      have hpc1 : (s1.afterPop copying).consumer = .copying (clampSize
        s1.queue.header.messageSize s1.queue.header.messageOffset size)
          s1.queue.header.tail [] := rfl
      have hsame : (s1.afterPop copying).queue = s1.queue := rfl
      rcases pop_copies hpc1 (Nat.zero_le _) rfl with
        ⟨s', hrest, hother, hidle, hlast⟩
      rw [hsame] at hidle hlast
      injection h with hresult
      refine ⟨s', hsteps.trans (consumerSteps_head hcopying hrest), ?_, ?_, ?_⟩
      · rw [hidle, hresult]
      · rw [hlast, hresult]
      · rw [hother, PollState.afterPop_producer, hproducer]

theorem consumerSteps_pop_none (hpc : s.consumer = .entered size)
    (h : pop s.queue size = none) :
    exists s', ConsumerSteps s s' ∧ PopWaits s'.queue s'.consumer ∧
      forall s'', ConsumerSteps s' s'' -> s'' = s' := by
  by_cases hstop : s.queue.header.stopConsumerPolling = true
  · rw [pop_stopped hstop] at h
    cases h
  · have hruns : s.queue.header.stopConsumerPolling = false := by simpa using hstop
    rcases consumerSteps_polling hpc hruns with ⟨s1, hsteps, hqueue, _, hpolling⟩
    by_cases hempty : s.queue.header.tail = s.queue.header.head
    · rw [← hqueue] at hempty hpolling
      refine ⟨s1, hsteps, by rw [hpolling]; exact hempty, ?_⟩
      intro s'' hmore
      induction hmore with
      | refl => rfl
      | tail _ hnext ih =>
          rw [ih] at hnext
          rcases pollNext_consumer hnext with ⟨out, hout, hlast⟩
          rw [hpolling] at hout
          simp only [popStep, if_pos hempty] at hout
          cases hout
          rw [hlast]
          cases s1
          simp only at hpolling
          simp [PollState.afterPop, hpolling]
    · rw [pop_nonempty hruns hempty] at h
      cases h

end Pop

end Queue
end Notnets
