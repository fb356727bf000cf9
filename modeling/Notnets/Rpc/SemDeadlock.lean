import Notnets.Rpc.SemPipeline

/-!
# How a SEM connection comes to a stop

The server finds no request and goes to wait, with a flag that says that the ring was
not full.  The client then fills the ring and waits for a slot.  The server goes by
its old flag and posts nothing, answers every request that it finds, and goes to
sleep as well.
-/

namespace Notnets
namespace Rpc

open Foundation
open Queue
open Relation

section Locks

variable {P : WindowedPipeline} {s : SemPipelineState}

def LocksKept (s : SemPipelineState) : Prop :=
  LockAccount s.requests ∧ LockAccount s.responses

theorem reachable_locks (hs : (semPipelineSystem P).Reachable s) : LocksKept s := by
  refine TransitionSystem.reachableUnder_invariant ?_ ?_ hs
  · intro start hstart
    rcases hstart with ⟨requestMem, responseMem, rfl⟩
    exact ⟨rfl, rfl⟩
  · intro t l t' ht _ hnext
    unfold LocksKept
    rcases semPipelineNext_queues hnext with
      ⟨l', hok, hq, hother⟩ | ⟨l', hok, hq, hother⟩ | ⟨hrequests, hresponses⟩
    · rw [hother]
      exact ⟨semNext_lock ht.left hok hq, ht.right⟩
    · rw [hother]
      exact ⟨ht.left, semNext_lock ht.right hok hq⟩
    · rw [hrequests, hresponses]
      exact ht

end Locks

/-!
# One party at a time
-/

/-- The client sleeps on its request with this number, and the server has requests
to answer. -/
def ClientSleeps (sent : Nat) (s : SemPipelineState) : Prop :=
  s.client = .pushing sent 0 ∧ producerAsleep s.requests = true

/-- Nobody wakes two parties that sleep on the two sides of the requests. -/
theorem semStuck_of_asleep {P : WindowedPipeline} {s : SemPipelineState} {i j : Nat}
    (hsleeps : ClientSleeps i s) (hpc : s.server = .popping j)
    (hasleep : consumerAsleep s.requests = true) : SemStuck P s := by
  cases hsleeps with
  | intro hclient hproducer =>
      rw [producerAsleep_iff] at hproducer
      rw [consumerAsleep_iff] at hasleep
      constructor
      · intro hanswered
        rw [Answered, hclient] at hanswered
        cases hanswered
      · intro l
        cases l with
        | send =>
            show clientSend P s = none
            simp only [clientSend, hclient]
        | receive =>
            show clientReceive P s = none
            simp only [clientReceive, hclient]
        | client =>
            show clientStep s = none
            cases hat : s.requests.producer with
            | waiting buf wasEmpty =>
                simp [clientStep, hclient, hat, semNext, semPushStep, semWait, hproducer]
            | _ =>
                rw [hat] at hproducer
                cases hproducer.left
        | server =>
            show serverStep P s = none
            cases hat : s.requests.consumer with
            | waiting size wasFull =>
                simp [serverStep, hpc, hat, semNext, semPopStep, semWait, hasleep]
            | _ =>
                rw [hat] at hasleep
                cases hasleep.left

section Schedule

variable {P : WindowedPipeline} {g : Geometry} {s : SemPipelineState}

theorem sem_client_pushes {i j : Nat} {q : SemState}
    (hs : (semPipelineSystem P).Reachable s) (hpc : s.client = .pushing i j)
    (hsteps : SemProducerSteps s.requests q) :
    (semPipelineSystem P).Reachable { s with requests := q } := by
  induction hsteps with
  | refl => exact hs
  | tail hbefore hnext ih =>
      refine TransitionSystem.reachable_step (l := .client) ih ?_
      show clientStep _ = _
      simp only [clientStep, hpc]
      split
      · rename_i hidle
        rcases semNext_producer hnext with ⟨out, hout, _⟩
        rw [hidle] at hout
        cases hout
      · rw [hnext]
        rfl

theorem sem_server_pops {i : Nat} {q : SemState}
    (hs : (semPipelineSystem P).Reachable s) (hpc : s.server = .popping i)
    (hsteps : SemConsumerSteps s.requests q) :
    (semPipelineSystem P).Reachable { s with requests := q } := by
  induction hsteps with
  | refl => exact hs
  | tail hbefore hnext ih =>
      refine TransitionSystem.reachable_step (l := .server) ih ?_
      show serverStep P _ = _
      rcases semNext_consumer hnext with ⟨out, hout, _⟩
      simp only [serverStep, hpc]
      split
      · rename_i r hidle
        rw [hidle] at hout
        cases hout
      · rename_i hidle
        rw [hidle] at hout
        cases hout
      · rw [hnext]
        rfl

theorem sem_server_pushes {i : Nat} {q : SemState}
    (hs : (semPipelineSystem P).Reachable s) (hpc : s.server = .pushing i)
    (hsteps : SemProducerSteps s.responses q) :
    (semPipelineSystem P).Reachable { s with responses := q } := by
  induction hsteps with
  | refl => exact hs
  | tail hbefore hnext ih =>
      refine TransitionSystem.reachable_step (l := .server) ih ?_
      show serverStep P _ = _
      simp only [serverStep, hpc]
      split
      · rename_i hidle
        rcases semNext_producer hnext with ⟨out, hout, _⟩
        rw [hidle] at hout
        cases hout
      · rw [hnext]
        rfl

theorem receipt_of_semPopCall {i : Nat} {last : Option Receipt} {popped : List Receipt}
    (h : SemPopCall i (.idle last) popped) : exists r, last = some r := by
  cases h with
  | intro hlength hlast =>
      cases last with
      | some r => exact ⟨r, rfl⟩
      | none =>
          rw [List.getLast?_eq_none_iff.mp hlast] at hlength
          cases hlength

variable (hinv : forall s, (semPipelineSystem P).Reachable s -> SemPipelineInvariant P g s)
include hinv

theorem sem_client_calls {i j : Nat} (hs : (semPipelineSystem P).Reachable s)
    (hpc : s.client = .deciding i j) (hlt : i < P.calls) (hopen : i < j + P.window) :
    (semPipelineSystem P).Reachable
      { s with
        requests := { s.requests with producer := .entered (P.request i) }
        client := .pushing i j } := by
  have hclient := (hinv s hs).client
  rw [hpc] at hclient
  rcases hclient.right.right.right.left with ⟨ret, hidle⟩
  refine TransitionSystem.reachable_step (l := .send) hs ?_
  show clientSend P s = _
  simp only [clientSend, hpc, if_pos (And.intro hlt hopen), semNext, hidle]
  rfl

theorem sem_server_calls_pop {j : Nat} (hs : (semPipelineSystem P).Reachable s)
    (hpc : s.server = .receiving j) (hlt : j < P.calls) :
    (semPipelineSystem P).Reachable
      { s with
        requests := { s.requests with consumer := .entered P.header.messageSize }
        server := .popping j } := by
  have hserver := (hinv s hs).server
  rw [hpc] at hserver
  rcases hserver.right.left with ⟨last, hidle⟩
  refine TransitionSystem.reachable_step (l := .server) hs ?_
  show serverStep P s = _
  simp only [serverStep, hpc, if_pos hlt, semNext, hidle]
  rfl

theorem sem_server_calls_push {j : Nat} {message : List Byte}
    (hs : (semPipelineSystem P).Reachable s) (hpc : s.server = .sending j message) :
    (semPipelineSystem P).Reachable
      { s with
        responses := { s.responses with producer := .entered (P.respond message) }
        server := .pushing j } := by
  have hserver := (hinv s hs).server
  rw [hpc] at hserver
  rcases hserver.right.right.right.right.left with ⟨ret, hidle⟩
  refine TransitionSystem.reachable_step (l := .server) hs ?_
  show serverStep P s = _
  simp only [serverStep, hpc, semNext, hidle]
  rfl

theorem sem_server_returns {j : Nat} {q : SemState} {last : Option Receipt}
    (hs : (semPipelineSystem P).Reachable { s with requests := q, server := .popping j })
    (hidle : q.consumer = .idle last) :
    exists message, (semPipelineSystem P).Reachable
      { s with requests := q, server := .sending j message } := by
  have hcall : SemPopCall j q.consumer q.popped := (hinv _ hs).server.right.left
  rw [hidle] at hcall
  rcases receipt_of_semPopCall hcall with ⟨r, hr⟩
  rw [hr] at hidle
  have hreturns : serverStep P { s with requests := q, server := .popping j } =
      some { s with requests := q, server := .sending j r.bytes } := by
    simp only [serverStep, hidle]
  exact ⟨r.bytes, TransitionSystem.reachable_step (l := .server) hs hreturns⟩

theorem sem_server_retests {j : Nat} (hs : (semPipelineSystem P).Reachable s)
    (hpc : s.server = .receiving j) (hlt : j < P.calls)
    (hfree : s.requests.producer.holdsLock = false)
    (hempty : s.requests.pushed.length = j) :
    exists q, (semPipelineSystem P).Reachable
        { s with requests := q, server := .popping j } ∧
      q.consumer = .retesting P.header.messageSize false := by
  have hserver := (hinv s hs).server
  rw [hpc] at hserver
  have hcalled := sem_server_calls_pop hinv hs hpc hlt
  have hconsumer := popIdle_unlocked hserver.right.left
  have hlock := lock_free (reachable_locks hs).left hfree hconsumer
  have hretired : s.requests.retired = j :=
    ((hinv s hs).requests.retired_of_unlocked hconsumer).trans hserver.right.right.left
  have hwindow := (hinv s hs).requests.invariant.indices.window
  have hnone : isEmpty s.requests.queue.header = true := by
    rw [hwindow.isEmpty_iff, hempty, hretired]
  have hnotfull : isFull s.requests.queue.header = false := by
    have htwo := hwindow.two_le
    rw [Bool.eq_false_iff, Ne, hwindow.isFull_iff]
    lia
  let called : SemState :=
    { s.requests with consumer := .entered P.header.messageSize }
  have hruns := (hinv s hs).requests.invariant.contents.running
  rcases semPop_retests (s := called) rfl hruns hlock hnone with
    ⟨q, hsteps, hretesting, _, _, _⟩
  rw [hnotfull] at hretesting
  exact ⟨q, sem_server_pops hcalled rfl hsteps, hretesting⟩

/-- Back from its wait with its flag down, the server wakes nobody. -/
theorem sem_server_resumes {j : Nat} (hs : (semPipelineSystem P).Reachable s)
    (hpc : s.server = .popping j)
    (hretesting : s.requests.consumer = .retesting P.header.messageSize false)
    (hasleep : producerAsleep s.requests = true)
    (hmessage : j < s.requests.pushed.length) :
    exists q message, (semPipelineSystem P).Reachable
        { s with requests := q, server := .sending j message } ∧
      producerAsleep q = true := by
  have hserver := (hinv s hs).server
  rw [hpc] at hserver
  have hsleeps := (producerAsleep_iff.mp hasleep).left
  have hconsumer : s.requests.consumer.holdsLock = false := by
    rw [hretesting]
    rfl
  have hlock := lock_free (reachable_locks hs).left
    (SemPushPc.not_holdsLock_of_sleeps hsleeps) hconsumer
  have hcount : s.requests.popped.length = j := by
    have hcall := hserver.right.left
    rw [hretesting] at hcall
    exact hcall
  have hretired := (hinv s hs).requests.retired_of_unlocked hconsumer
  have hlive : isEmpty s.requests.queue.header = false := by
    rw [Bool.eq_false_iff, Ne,
      (hinv s hs).requests.invariant.indices.window.isEmpty_iff]
    lia
  rcases semPop_resumes hretesting hlive hlock with
    ⟨q, hsteps, hidle, _, hvalues, hproducer⟩
  have hpops : (semPipelineSystem P).Reachable
      { s with requests := q, server := .popping j } := by
    rw [← hpc]
    exact sem_server_pops hs hpc hsteps
  rcases sem_server_returns hinv hpops hidle with ⟨message, hsending⟩
  refine ⟨q, message, hsending, ?_⟩
  unfold producerAsleep
  rw [hproducer, hvalues]
  exact hasleep

theorem sem_server_receives {j : Nat} (hs : (semPipelineSystem P).Reachable s)
    (hpc : s.server = .receiving j) (hlt : j < P.calls)
    (hasleep : producerAsleep s.requests = true)
    (hmessage : j < s.requests.pushed.length)
    (hroom : s.requests.pushed.length + 1 ≠ j + g.queueSize) :
    exists q message, (semPipelineSystem P).Reachable
        { s with requests := q, server := .sending j message } ∧
      producerAsleep q = true := by
  have hserver := (hinv s hs).server
  rw [hpc] at hserver
  have hcalled := sem_server_calls_pop hinv hs hpc hlt
  have hsleeps := (producerAsleep_iff.mp hasleep).left
  have hconsumer := popIdle_unlocked hserver.right.left
  have hlock := lock_free (reachable_locks hs).left
    (SemPushPc.not_holdsLock_of_sleeps hsleeps) hconsumer
  have hretired : s.requests.retired = j :=
    ((hinv s hs).requests.retired_of_unlocked hconsumer).trans hserver.right.right.left
  have hwindow := (hinv s hs).requests.invariant.indices.window
  have hlive : isEmpty s.requests.queue.header = false := by
    rw [Bool.eq_false_iff, Ne, hwindow.isEmpty_iff]
    lia
  have hnotfull : isFull s.requests.queue.header = false := by
    rw [Bool.eq_false_iff, Ne, hwindow.isFull_iff, hretired]
    exact hroom
  let called : SemState :=
    { s.requests with consumer := .entered P.header.messageSize }
  have hruns := (hinv s hs).requests.invariant.contents.running
  rcases semPop_returns (s := called) rfl hruns hlock hlive with
    ⟨q, hsteps, hidle, _, hvalues, hproducer⟩
  have hpops := sem_server_pops hcalled rfl hsteps
  rcases sem_server_returns hinv hpops hidle with ⟨message, hsending⟩
  refine ⟨q, message, hsending, ?_⟩
  rw [hnotfull] at hvalues
  unfold producerAsleep
  rw [hproducer, hvalues]
  exact hasleep

theorem sem_server_sleeps {j : Nat} (hs : (semPipelineSystem P).Reachable s)
    (hpc : s.server = .receiving j) (hlt : j < P.calls)
    (hasleep : producerAsleep s.requests = true)
    (hempty : s.requests.pushed.length = j) :
    exists q, (semPipelineSystem P).Reachable
        { s with requests := q, server := .popping j } ∧
      consumerAsleep q = true ∧ producerAsleep q = true := by
  have hfree := SemPushPc.not_holdsLock_of_sleeps (producerAsleep_iff.mp hasleep).left
  have hserver := (hinv s hs).server
  rw [hpc] at hserver
  have hcalled := sem_server_calls_pop hinv hs hpc hlt
  have hconsumer := popIdle_unlocked hserver.right.left
  have hlock := lock_free (reachable_locks hs).left hfree hconsumer
  have hretired : s.requests.retired = j :=
    ((hinv s hs).requests.retired_of_unlocked hconsumer).trans hserver.right.right.left
  have hnone : isEmpty s.requests.queue.header = true := by
    rw [(hinv s hs).requests.invariant.indices.window.isEmpty_iff, hempty, hretired]
  let called : SemState :=
    { s.requests with consumer := .entered P.header.messageSize }
  have hruns := (hinv s hs).requests.invariant.contents.running
  rcases semPop_retests (s := called) rfl hruns hlock hnone with
    ⟨q1, hsteps1, hretesting, hqueue1, hvalues1, hproducer1⟩
  have hnone1 : isEmpty q1.queue.header = true := by
    rw [hqueue1]
    exact hnone
  rcases semPop_waits hretesting hnone1 with
    ⟨q, hsteps, hwaiting, _, hvalues, hproducer⟩
  refine ⟨q, sem_server_pops hcalled rfl (hsteps1.trans hsteps), ?_, ?_⟩
  · rw [consumerAsleep_iff, hwaiting, hvalues]
    exact ⟨rfl, Function.update_self _ _ _⟩
  · have hfull : q.values .full = s.requests.values .full := by
      rw [hvalues, hvalues1]
      exact Function.update_of_ne (by decide) _ _
    unfold producerAsleep
    rw [hproducer, hproducer1, hfull]
    exact hasleep

theorem sent_of_clientSleeps {sent : Nat} (hs : (semPipelineSystem P).Reachable s)
    (h : ClientSleeps sent s) : s.requests.pushed.length = sent ∧ sent < P.calls ∧
      SemPopIdle s.responses.consumer ∧ s.responses.popped.length = 0 := by
  have hclient := (hinv s hs).client
  rw [h.left] at hclient
  rcases hclient with ⟨hlt, _, _, hcall, hidle, hpopped⟩
  exact ⟨semPushCall_asleep hcall (producerAsleep_iff.mp h.right).left, hlt, hidle,
    hpopped⟩

variable (hsize : P.header.messageSize = g.messageSize)
include hsize

theorem sem_client_sends {i j : Nat} (hs : (semPipelineSystem P).Reachable s)
    (hpc : s.client = .deciding i j) (hlt : i < P.calls) (hopen : i < j + P.window)
    (hfree : s.requests.consumer.holdsLock = false)
    (hroom : i + 1 ≠ s.requests.retired + g.queueSize) :
    exists q, (semPipelineSystem P).Reachable
        { s with requests := q, client := .deciding (i + 1) j } ∧
      q.consumer = s.requests.consumer ∧ q.retired = s.requests.retired := by
  have hclient := (hinv s hs).client
  rw [hpc] at hclient
  have hcalled := sem_client_calls hinv hs hpc hlt hopen
  have hwhole := (hinv _ hcalled).requests
  have hpushed : s.requests.pushed.length = i := by
    rw [hclient.right.right.right.right.left, List.length_map, List.length_range]
  have hlock : s.requests.values .lock ≠ 0 := by
    apply lock_free (reachable_locks hs).left _ hfree
    exact (pushIdle_unlocked hclient.right.right.right.left).left
  have hfits : (P.request i).length ≤ s.requests.queue.header.messageSize := by
    rw [P.request_length, hsize]
    exact Nat.le_of_eq hwhole.invariant.contents.messageSize.symm
  have hwindow := (hinv s hs).requests.invariant.indices.window
  have hnotfull : ¬ (s.requests.queue.header.queueSize = 0 ∨
      isFull s.requests.queue.header) := by
    rw [hwindow.isFull_iff, hpushed]
    have hslots := hwindow.queueSize
    have htwo := hwindow.two_le
    exact not_or.mpr ⟨by lia, hroom⟩
  have hcompletes := semPush_room (s := s.requests.semQueue) hfits hlock hnotfull
  rcases semProducerSteps_semPush (s := { s.requests with
    producer := .entered (P.request i) }) rfl hcompletes with
    ⟨q, hsteps, hidle, _, _, _⟩
  have hreaches := sem_client_pushes hcalled rfl hsteps
  have hreturns : clientStep { s with requests := q, client := .pushing i j } =
      some { s with requests := q, client := .deciding (i + 1) j } := by
    simp only [clientStep, hidle]
  have hframe := semProducerSteps_frame hsteps
  exact ⟨q, TransitionSystem.reachable_step (l := .client) hreaches hreturns,
    hframe.left, hframe.right.left⟩

theorem sem_client_sends_many {i j : Nat} (k : Nat)
    (hs : (semPipelineSystem P).Reachable s) (hpc : s.client = .deciding i j)
    (hlt : i + k ≤ P.calls) (hopen : i + k ≤ j + P.window)
    (hfree : s.requests.consumer.holdsLock = false)
    (hroom : i + k < s.requests.retired + g.queueSize) :
    exists q, (semPipelineSystem P).Reachable
        { s with requests := q, client := .deciding (i + k) j } ∧
      q.consumer = s.requests.consumer ∧ q.retired = s.requests.retired := by
  induction k with
  | zero =>
      refine ⟨s.requests, ?_, rfl, rfl⟩
      rw [Nat.add_zero, ← hpc]
      exact hs
  | succ k ih =>
      rcases ih (by lia) (by lia) (by lia) with ⟨q, hq, hconsumer, hretired⟩
      have hfree' : q.consumer.holdsLock = false := by
        rw [hconsumer]
        exact hfree
      have hroom' : i + k + 1 ≠ q.retired + g.queueSize := by
        rw [hretired]
        lia
      rcases sem_client_sends hinv hsize hq rfl (by lia) (by lia) hfree' hroom' with
        ⟨q', hq', hconsumer', hretired'⟩
      exact ⟨q', hq', hconsumer'.trans hconsumer, hretired'.trans hretired⟩

theorem sem_client_sleeps {i j : Nat} (hs : (semPipelineSystem P).Reachable s)
    (hpc : s.client = .deciding i j) (hlt : i < P.calls) (hopen : i < j + P.window)
    (hfree : s.requests.consumer.holdsLock = false)
    (hfull : i + 1 = s.requests.retired + g.queueSize) :
    exists q, (semPipelineSystem P).Reachable
        { s with requests := q, client := .pushing i j } ∧
      producerAsleep q = true ∧ q.consumer = s.requests.consumer := by
  have hclient := (hinv s hs).client
  rw [hpc] at hclient
  have hcalled := sem_client_calls hinv hs hpc hlt hopen
  have hwhole := (hinv _ hcalled).requests
  have hlock : s.requests.values .lock ≠ 0 := by
    apply lock_free (reachable_locks hs).left _ hfree
    exact (pushIdle_unlocked hclient.right.right.right.left).left
  have hfits : (P.request i).length ≤ s.requests.queue.header.messageSize := by
    rw [P.request_length, hsize]
    exact Nat.le_of_eq hwhole.invariant.contents.messageSize.symm
  have hring : isFull s.requests.queue.header = true := by
    rw [(hinv s hs).requests.invariant.indices.window.isFull_iff,
      hclient.right.right.right.right.left, List.length_map, List.length_range]
    exact hfull
  rcases semPush_fills (s := { s.requests with producer := .entered (P.request i) })
    rfl hfits hlock hring with ⟨q, hsteps, hwaiting, _, hvalues, hconsumer⟩
  have hasleep : producerAsleep q = true := by
    rw [producerAsleep_iff, hwaiting, hvalues]
    exact ⟨rfl, Function.update_self _ _ _⟩
  exact ⟨q, sem_client_pushes hcalled rfl hsteps, hasleep, hconsumer⟩

theorem sem_server_sends {j : Nat} {message : List Byte}
    (hs : (semPipelineSystem P).Reachable s) (hpc : s.server = .sending j message)
    (hfree : SemPopIdle s.responses.consumer)
    (hroom : j + 1 ≠ s.responses.popped.length + g.queueSize) :
    exists q, (semPipelineSystem P).Reachable
      { s with responses := q, server := .receiving (j + 1) } := by
  have hserver := (hinv s hs).server
  rw [hpc] at hserver
  rcases hserver with ⟨_, _, _, hmessage, hidle, hpushed⟩
  have hcalled := sem_server_calls_push hinv hs hpc
  have hwhole := (hinv s hs).responses
  have hconsumer := popIdle_unlocked hfree
  have hlock := lock_free (reachable_locks hs).right (pushIdle_unlocked hidle).left
    hconsumer
  have hfits : (P.respond message).length ≤ s.responses.queue.header.messageSize := by
    rw [hmessage, P.respond_length _ (P.request_length j), hsize]
    exact Nat.le_of_eq hwhole.invariant.contents.messageSize.symm
  have hwindow := hwhole.invariant.indices.window
  have hnotfull : ¬ (s.responses.queue.header.queueSize = 0 ∨
      isFull s.responses.queue.header) := by
    rw [hwindow.isFull_iff, hpushed, List.length_map, List.length_range,
      hwhole.retired_of_unlocked hconsumer]
    have hslots := hwindow.queueSize
    have htwo := hwindow.two_le
    exact not_or.mpr ⟨by lia, hroom⟩
  have hcompletes := semPush_room (s := s.responses.semQueue) hfits hlock hnotfull
  rcases semProducerSteps_semPush (s := { s.responses with
    producer := .entered (P.respond message) }) rfl hcompletes with
    ⟨q, hsteps, hdone, _, _, _⟩
  have hreaches := sem_server_pushes hcalled rfl hsteps
  have hreturns : serverStep P { s with responses := q, server := .pushing j } =
      some { s with responses := q, server := .receiving (j + 1) } := by
    simp only [serverStep, hdone]
  exact ⟨q, TransitionSystem.reachable_step (l := .server) hreaches hreturns⟩

/-!
# The whole schedule
-/

/-- The server finds nothing, and the client fills the ring behind its back. -/
theorem sem_client_stops {c : Nat} (hslots : g.queueSize = c + 1) (hc : 1 ≤ c)
    (hcalls : c + 1 ≤ P.calls) (hwindow : c + 1 ≤ P.window) :
    exists s message, (semPipelineSystem P).Reachable s ∧ ClientSleeps c s ∧
      s.server = .sending 0 message := by
  let start : SemPipelineState :=
    { requests := semStart P.header fun _ => 0
      responses := semStart P.header fun _ => 0
      client := .deciding 0 0
      server := .receiving 0 }
  have hinitial : (semPipelineSystem P).Initial start := ⟨_, _, rfl⟩
  have hstart : (semPipelineSystem P).Reachable start :=
    ⟨start, [], hinitial, TransitionSystem.Run.nil, TransitionSystem.guarded_nil _⟩
  rcases sem_server_retests hinv hstart rfl (by lia) rfl rfl with ⟨q1, hs1, hretests⟩
  have hfree1 : q1.consumer.holdsLock = false := by
    rw [hretests]
    rfl
  have hretired1 : q1.retired = 0 := by
    have hcall : SemPopCall 0 q1.consumer q1.popped := (hinv _ hs1).server.right.left
    rw [hretests] at hcall
    exact ((hinv _ hs1).requests.retired_of_unlocked hfree1).trans hcall
  rcases sem_client_sends_many hinv hsize c hs1 rfl (by lia) (by lia) hfree1
    (by rw [hretired1]; lia) with ⟨q2, hs2, hconsumer2, hretired2⟩
  have hfree2 : q2.consumer.holdsLock = false := by
    rw [hconsumer2]
    exact hfree1
  have hfull : 0 + c + 1 = q2.retired + g.queueSize := by
    rw [hretired2, hretired1]
    lia
  rcases sem_client_sleeps hinv hsize hs2 rfl (by lia) (by lia) hfree2 hfull with
    ⟨q3, hs3, hasleep3, hconsumer3⟩
  have hretests3 : q3.consumer = .retesting P.header.messageSize false :=
    hconsumer3.trans (hconsumer2.trans hretests)
  have hsleeps3 : ClientSleeps (0 + c)
      { requests := q3
        responses := start.responses
        client := .pushing (0 + c) 0
        server := .popping 0 } := ⟨rfl, hasleep3⟩
  have hsent : q3.pushed.length = 0 + c := (sent_of_clientSleeps hinv hs3 hsleeps3).left
  rcases sem_server_resumes hinv hs3 rfl hretests3 hasleep3 (by lia) with
    ⟨q4, message, hs4, hasleep4⟩
  refine ⟨_, message, hs4, ⟨?_, hasleep4⟩, rfl⟩
  rw [Nat.zero_add]

theorem sem_server_rounds {c : Nat} (hslots : g.queueSize = c + 1) (hc : 1 ≤ c)
    (hcalls : c + 1 ≤ P.calls) (hwindow : c + 1 ≤ P.window) (k : Nat) (hk : k < c) :
    exists s message, (semPipelineSystem P).Reachable s ∧ ClientSleeps c s ∧
      s.server = .sending k message := by
  induction k with
  | zero => exact sem_client_stops hinv hsize hslots hc hcalls hwindow
  | succ k ih =>
      rcases ih (by lia) with ⟨s, message, hs, hsleeps, hpc⟩
      rcases sent_of_clientSleeps hinv hs hsleeps with ⟨hsent, _, hidle, hpopped⟩
      rcases sem_server_sends hinv hsize hs hpc hidle (by lia) with ⟨q, hs1⟩
      rcases sem_server_receives hinv hs1 rfl (by lia) hsleeps.right
        (Nat.lt_of_lt_of_eq hk hsent.symm) (by rw [hsent]; lia) with
        ⟨q', message', hs2, hasleep2⟩
      exact ⟨_, message', hs2, ⟨hsleeps.left, hasleep2⟩, rfl⟩

theorem semStuck_reachable {c : Nat} (hslots : g.queueSize = c + 1) (hc : 1 ≤ c)
    (hcalls : c + 1 ≤ P.calls) (hwindow : c + 1 ≤ P.window) :
    exists s, (semPipelineSystem P).Reachable s ∧ SemStuck P s := by
  rcases sem_server_rounds hinv hsize hslots hc hcalls hwindow (c - 1) (by lia) with
    ⟨s, message, hs, hsleeps, hpc⟩
  rcases sent_of_clientSleeps hinv hs hsleeps with ⟨hsent, _, hidle, hpopped⟩
  rcases sem_server_sends hinv hsize hs hpc hidle (by lia) with ⟨q, hs1⟩
  have hlast : c - 1 + 1 = c := by lia
  rw [hlast] at hs1
  rcases sem_server_sleeps hinv hs1 rfl (by lia) hsleeps.right hsent with
    ⟨q', hs2, hasleep, hproducer⟩
  exact ⟨_, hs2, semStuck_of_asleep ⟨hsleeps.left, hproducer⟩ rfl hasleep⟩

end Schedule

/--
With `c` usable slots each way a SEM connection can come to a stop with responses
missing exactly when its client may have `c + 1` requests outstanding, although it
reads responses whenever it wants.
-/
theorem sem_pipeline_stuck_iff {P : WindowedPipeline} {shmSize c : Nat} {usable : Int}
    (hcreate : semQueueCreate shmSize P.header.messageSize = .ok (P.header, usable))
    (hshm : shmSize < 2 ^ 31) (hcapacity : P.header.queueSize = c + 1) (hc : 1 ≤ c)
    (hwindow : 1 ≤ P.window) :
    (exists s, (semPipelineSystem P).Reachable s ∧ SemStuck P s) <->
      c + 1 ≤ min P.window P.calls := by
  rcases createHeader_geometry (by decide) hcreate hshm hcapacity hc with
    ⟨g, hsize, hqueue, hslots⟩
  have hstart : forall start, (semPipelineSystem P).Initial start ->
      SemPipelineInvariant P g start :=
    fun start => semPipelineStart_invariant hcreate hsize hqueue (by lia)
  have hinv : forall s, (semPipelineSystem P).Reachable s -> SemPipelineInvariant P g s :=
    fun s hs => reachable_invariant hsize hstart hs
  constructor
  · intro hstuck
    rcases hstuck with ⟨s, hs, hstuck⟩
    by_contra hfits
    have hcalm := reachable_calm hsize hstart (by lia) hs
    exact not_semStuck hwindow (hinv s hs) hcalm hstuck
  · intro hmany
    rcases le_min_iff.mp hmany with ⟨hahead, hcalls⟩
    exact semStuck_reachable hinv hsize hslots hc hcalls hahead

/-- Two requests outstanding stop a ring with one usable slot, and one does not. -/
theorem sem_pipeline_stuck_iff_twoSlots :
    (exists s, (semPipelineSystem (twoSlotSemPipeline 2 2)).Reachable s ∧
        SemStuck (twoSlotSemPipeline 2 2) s) ∧
      ¬ exists s, (semPipelineSystem (twoSlotSemPipeline 1 9)).Reachable s ∧
        SemStuck (twoSlotSemPipeline 1 9) s := by
  have hcreate : semQueueCreate 56 4 = .ok (twoSlotSemHeader, 56) := by rfl
  have hexact : forall window calls, 1 ≤ window ->
      ((exists s, (semPipelineSystem (twoSlotSemPipeline window calls)).Reachable s ∧
        SemStuck (twoSlotSemPipeline window calls) s) <-> 1 + 1 ≤ min window calls) := by
    intro window calls hpos
    have hcapacity : (twoSlotSemPipeline window calls).header.queueSize =
        (1 : Nat) + 1 := rfl
    exact sem_pipeline_stuck_iff hcreate (by decide) hcapacity (Nat.le_refl 1) hpos
  constructor
  · exact (hexact 2 2 (by decide)).mpr (by decide)
  · intro hstuck
    exact absurd ((hexact 1 9 (by decide)).mp hstuck) (by decide)

end Rpc
end Notnets
