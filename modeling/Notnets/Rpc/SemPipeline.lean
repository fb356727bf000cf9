import Notnets.Queue.SemProgress
import Notnets.Rpc.Pipeline

/-!
# Calls over a SEM connection

On one SEM connection the client decides freely between sending its next request and
receiving its next response, as long as at most `window` requests are outstanding.
A window of one is a client that waits for each response, and a window of all calls
lets it send everything first.  The server answers each request before it receives
the next one.
-/

namespace Notnets
namespace Rpc

open Foundation
open Queue
open Relation

structure WindowedPipeline extends Pipeline where
  /-- How many requests the client may send ahead of the responses. -/
  window : Nat

inductive WindowPc where
  /-- Between two calls. -/
  | deciding (sent received : Nat)
  /-- In `client_send_rpc`, for the request with the number `sent`. -/
  | pushing (sent received : Nat)
  /-- In `client_receive_buf`, for the response with the number `received`. -/
  | popping (sent received : Nat)
deriving DecidableEq, Repr

structure SemPipelineState where
  requests : SemState
  responses : SemState
  client : WindowPc
  server : ServerLoopPc

inductive SemPipelineLabel where
  /-- The client decides to send. -/
  | send
  /-- The client decides to receive. -/
  | receive
  /-- The client takes the next step of its call. -/
  | client
  | server
deriving DecidableEq, Repr

def clientSend (P : WindowedPipeline) (s : SemPipelineState) :
    Option SemPipelineState :=
  match s.client with
  | .deciding sent received =>
      if sent < P.calls ∧ sent < received + P.window then
        (semNext s.requests (.push (P.request sent))).map fun queue =>
          { s with requests := queue, client := .pushing sent received }
      else
        none
  | _ => none

def clientReceive (P : WindowedPipeline) (s : SemPipelineState) :
    Option SemPipelineState :=
  match s.client with
  | .deciding sent received =>
      if received < sent then
        (semNext s.responses (.pop P.header.messageSize)).map fun queue =>
          { s with responses := queue, client := .popping sent received }
      else
        none
  | _ => none

def clientStep (s : SemPipelineState) : Option SemPipelineState :=
  match s.client with
  | .pushing sent received =>
      match s.requests.producer with
      | .idle _ => some { s with client := .deciding (sent + 1) received }
      | _ =>
          (semNext s.requests (.producer true)).map fun queue =>
            { s with requests := queue }
  | .popping sent received =>
      match s.responses.consumer with
      | .idle _ => some { s with client := .deciding sent (received + 1) }
      | _ =>
          (semNext s.responses (.consumer true)).map fun queue =>
            { s with responses := queue }
  | .deciding _ _ => none

def serverStep (P : WindowedPipeline) (s : SemPipelineState) :
    Option SemPipelineState :=
  match s.server with
  | .receiving i =>
      if i < P.calls then
        (semNext s.requests (.pop P.header.messageSize)).map fun queue =>
          { s with requests := queue, server := .popping i }
      else
        some { s with server := .finished }
  | .popping i =>
      match s.requests.consumer with
      | .idle (some r) => some { s with server := .sending i r.bytes }
      | .idle none => none
      | _ =>
          (semNext s.requests (.consumer true)).map fun queue =>
            { s with requests := queue }
  | .sending i message =>
      (semNext s.responses (.push (P.respond message))).map fun queue =>
        { s with responses := queue, server := .pushing i }
  | .pushing i =>
      match s.responses.producer with
      | .idle _ => some { s with server := .receiving (i + 1) }
      | _ =>
          (semNext s.responses (.producer true)).map fun queue =>
            { s with responses := queue }
  | .finished => none

def semPipelineNext (P : WindowedPipeline) (s : SemPipelineState) :
    SemPipelineLabel -> Option SemPipelineState
  | .send => clientSend P s
  | .receive => clientReceive P s
  | .client => clientStep s
  | .server => serverStep P s

/-- The client and the server on two queues that were just created, each with
semaphores of its own. -/
def semPipelineSystem (P : WindowedPipeline) :
    TransitionSystem SemPipelineState SemPipelineLabel where
  Initial s := exists requestMem responseMem, s =
    { requests := semStart P.header requestMem
      responses := semStart P.header responseMem
      client := .deciding 0 0
      server := .receiving 0 }
  next := semPipelineNext P

/-- The client has all its responses. -/
def Answered (P : WindowedPipeline) (s : SemPipelineState) : Prop :=
  s.client = .deciding P.calls P.calls

/-- The client still wants something, and nobody has a next step. -/
def SemStuck (P : WindowedPipeline) (s : SemPipelineState) : Prop :=
  ¬ Answered P s ∧ forall l, (semPipelineSystem P).next s l = none

/-!
# The invariant
-/

def WindowAt (P : WindowedPipeline) (producer : SemPushPc) (pushed : List (List Byte))
    (consumer : SemPopPc) (popped : List Receipt) : WindowPc -> Prop
  | .deciding sent received =>
      sent ≤ P.calls ∧ received ≤ sent ∧ sent ≤ received + P.window ∧
        SemPushIdle producer ∧ pushed = (List.range sent).map P.request ∧
        SemPopIdle consumer ∧ popped.length = received
  | .pushing sent received =>
      sent < P.calls ∧ received ≤ sent ∧ sent < received + P.window ∧
        SemPushCall P.request sent producer pushed ∧ SemPopIdle consumer ∧
        popped.length = received
  | .popping sent received =>
      sent ≤ P.calls ∧ received < sent ∧ sent ≤ received + P.window ∧
        SemPushIdle producer ∧ pushed = (List.range sent).map P.request ∧
        SemPopCall received consumer popped

def SemServerAt (P : WindowedPipeline) (consumer : SemPopPc) (popped : List Receipt)
    (producer : SemPushPc) (pushed : List (List Byte)) : ServerLoopPc -> Prop
  | .receiving i =>
      i ≤ P.calls ∧ SemPopIdle consumer ∧ popped.length = i ∧ SemPushIdle producer ∧
        pushed = (List.range i).map P.response
  | .popping i =>
      i < P.calls ∧ SemPopCall i consumer popped ∧ SemPushIdle producer ∧
        pushed = (List.range i).map P.response
  | .sending i message =>
      i < P.calls ∧ SemPopIdle consumer ∧ popped.length = i + 1 ∧
        message = P.request i ∧ SemPushIdle producer ∧
        pushed = (List.range i).map P.response
  | .pushing i =>
      i < P.calls ∧ SemPopIdle consumer ∧ popped.length = i + 1 ∧
        SemPushCall P.response i producer pushed
  | .finished =>
      SemPopIdle consumer ∧ popped.length = P.calls ∧ SemPushIdle producer ∧
        pushed = (List.range P.calls).map P.response

structure SemPipelineInvariant (P : WindowedPipeline) (g : Geometry)
    (s : SemPipelineState) : Prop where
  requests : SemWholeInvariant g s.requests
  responses : SemWholeInvariant g s.responses
  client : WindowAt P s.requests.producer s.requests.pushed s.responses.consumer
    s.responses.popped s.client
  server : SemServerAt P s.requests.consumer s.requests.popped s.responses.producer
    s.responses.pushed s.server

theorem semPushCall_pushed {messages : Nat -> List Byte} {i : Nat}
    {producer : SemPushPc} {pushed : List (List Byte)}
    (h : SemPushCall messages i producer pushed) :
    exists k, pushed = (List.range k).map messages ∧ i ≤ k ∧ k ≤ i + 1 := by
  unfold SemPushCall at h
  split at h
  · exact ⟨i + 1, h, Nat.le_succ i, Nat.le_refl _⟩
  · exact ⟨i, h.right, Nat.le_refl i, Nat.le_succ i⟩

theorem semPopCall_popped {i : Nat} {consumer : SemPopPc} {popped : List Receipt}
    (h : SemPopCall i consumer popped) : i ≤ popped.length ∧ popped.length ≤ i + 1 := by
  unfold SemPopCall at h
  split at h
  · exact ⟨by lia, by lia⟩
  · exact ⟨by lia, by lia⟩
  · exact ⟨by lia, by lia⟩
  · exact ⟨by lia, by lia⟩

theorem semPopCall_asleep {i : Nat} {consumer : SemPopPc} {popped : List Receipt}
    (h : SemPopCall i consumer popped) (hsleeps : consumer.sleeps = true) :
    popped.length = i := by
  cases consumer with
  | waiting size wasFull => exact h
  | _ => cases hsleeps

theorem semPushCall_asleep {messages : Nat -> List Byte} {i : Nat}
    {producer : SemPushPc} {pushed : List (List Byte)}
    (h : SemPushCall messages i producer pushed) (hsleeps : producer.sleeps = true) :
    pushed.length = i := by
  cases producer with
  | waiting buf wasEmpty =>
      have hpushed : pushed = (List.range i).map messages := h.right
      rw [hpushed, List.length_map, List.length_range]
  | _ => cases hsleeps

theorem windowAt_pushed {P : WindowedPipeline} {producer : SemPushPc}
    {pushed : List (List Byte)} {consumer : SemPopPc} {popped : List Receipt}
    {pc : WindowPc} (h : WindowAt P producer pushed consumer popped pc) :
    exists k, pushed = (List.range k).map P.request ∧ k ≤ P.calls ∧
      k ≤ popped.length + P.window := by
  cases pc with
  | deciding sent received =>
      rcases h with ⟨hsent, _, hwindow, _, hpushed, _, hpopped⟩
      exact ⟨sent, hpushed, hsent, by lia⟩
  | pushing sent received =>
      rcases h with ⟨hsent, _, hwindow, hcall, _, hpopped⟩
      rcases semPushCall_pushed hcall with ⟨k, hpushed, _, hk⟩
      exact ⟨k, hpushed, by lia, by lia⟩
  | popping sent received =>
      rcases h with ⟨hsent, _, hwindow, _, hpushed, hcall⟩
      have hpopped := semPopCall_popped hcall
      exact ⟨sent, hpushed, hsent, by lia⟩

theorem semServerAt_pushed {P : WindowedPipeline} {consumer : SemPopPc}
    {popped : List Receipt} {producer : SemPushPc} {pushed : List (List Byte)}
    {pc : ServerLoopPc} (h : SemServerAt P consumer popped producer pushed pc) :
    exists k, pushed = (List.range k).map P.response ∧ k ≤ popped.length := by
  cases pc with
  | receiving i =>
      rcases h with ⟨_, _, hpopped, _, hpushed⟩
      exact ⟨i, hpushed, by lia⟩
  | popping i =>
      rcases h with ⟨_, hcall, _, hpushed⟩
      exact ⟨i, hpushed, (semPopCall_popped hcall).left⟩
  | sending i message =>
      rcases h with ⟨_, _, hpopped, _, _, hpushed⟩
      exact ⟨i, hpushed, by lia⟩
  | pushing i =>
      rcases h with ⟨_, _, hpopped, hcall⟩
      rcases semPushCall_pushed hcall with ⟨k, hpushed, _, hk⟩
      exact ⟨k, hpushed, by lia⟩
  | finished =>
      rcases h with ⟨_, hpopped, _, hpushed⟩
      exact ⟨P.calls, hpushed, by lia⟩

theorem last_semRequest {P : WindowedPipeline} {g : Geometry} {q : SemState} {i : Nat}
    {r : Receipt} (hq : SemWholeInvariant g q)
    (hpushed : exists k, q.pushed = (List.range k).map P.request)
    (hlength : q.popped.length = i + 1) (hlast : q.popped.getLast? = some r) :
    r.bytes = P.request i := by
  rcases hpushed with ⟨k, hpushed⟩
  have hle := hq.popped_le
  have hretired := hq.invariant.indices.window.retired_le
  have hbytes := hq.popped_eq
  rw [hpushed, List.length_map, List.length_range] at hretired
  have hr : (q.popped.map Receipt.bytes)[i]? = some r.bytes := by
    rw [List.getLast?_eq_getElem?, hlength, Nat.add_sub_cancel] at hlast
    rw [List.getElem?_map, hlast]
    rfl
  rw [hbytes, hpushed, hlength, List.getElem?_take, if_pos (Nat.lt_succ_self i),
    List.getElem?_map, List.getElem?_range (by lia)] at hr
  exact (Option.some.inj hr).symm

section Step

variable {P : WindowedPipeline} {g : Geometry} {s s' : SemPipelineState}

theorem clientSend_invariant (hsize : P.header.messageSize = g.messageSize)
    (hs : SemPipelineInvariant P g s) (h : clientSend P s = some s') :
    SemPipelineInvariant P g s' := by
  have hclient := hs.client
  cases hpc : s.client with
  | deciding sent received =>
      rw [hpc] at hclient
      rcases hclient with ⟨hsent, hreceived, _, _, hpushed, hpop, hpopped⟩
      simp only [clientSend, hpc] at h
      split at h
      · rename_i hopen
        rcases Option.map_eq_some_iff.mp h with ⟨q, hq, rfl⟩
        have hlength : SemWholeTraffic g.messageSize (.push (P.request sent)) :=
          (P.request_length sent).trans hsize
        have hwhole := semNext_whole hs.requests hlength hq
        rcases semNext_push hq with ⟨_, rfl⟩
        exact ⟨hwhole, hs.responses,
          ⟨hopen.left, hreceived, hopen.right, ⟨rfl, hpushed⟩, hpop, hpopped⟩,
          hs.server⟩
      · cases h
  | pushing sent received | popping sent received =>
      simp only [clientSend, hpc] at h
      cases h

theorem clientReceive_invariant (hsize : P.header.messageSize = g.messageSize)
    (hs : SemPipelineInvariant P g s) (h : clientReceive P s = some s') :
    SemPipelineInvariant P g s' := by
  have hclient := hs.client
  cases hpc : s.client with
  | deciding sent received =>
      rw [hpc] at hclient
      rcases hclient with ⟨hsent, _, hwindow, hidle, hpushed, _, hpopped⟩
      simp only [clientReceive, hpc] at h
      split at h
      · rename_i hlt
        rcases Option.map_eq_some_iff.mp h with ⟨q, hq, rfl⟩
        have hl : SemWholeTraffic g.messageSize (.pop P.header.messageSize) := hsize
        have hwhole := semNext_whole hs.responses hl hq
        rcases semNext_pop hq with ⟨_, rfl⟩
        exact ⟨hs.requests, hwhole, ⟨hsent, hlt, hwindow, hidle, hpushed, hpopped⟩,
          hs.server⟩
      · cases h
  | pushing sent received | popping sent received =>
      simp only [clientReceive, hpc] at h
      cases h

theorem clientStep_invariant (hs : SemPipelineInvariant P g s)
    (h : clientStep s = some s') : SemPipelineInvariant P g s' := by
  have hclient := hs.client
  cases hpc : s.client with
  | deciding sent received =>
      simp only [clientStep, hpc] at h
      cases h
  | pushing sent received =>
      rw [hpc] at hclient
      rcases hclient with ⟨hsent, hreceived, hwindow, hcall, hpop, hpopped⟩
      simp only [clientStep, hpc] at h
      split at h
      · rename_i ret hidle
        injection h with h
        rw [← h]
        rw [hidle] at hcall
        exact ⟨hs.requests, hs.responses,
          ⟨hsent, by lia, by lia, ⟨ret, hidle⟩, hcall, hpop, hpopped⟩, hs.server⟩
      · rcases Option.map_eq_some_iff.mp h with ⟨q, hq, rfl⟩
        have hl : SemWholeTraffic g.messageSize (.producer true) := rfl
        have hwhole := semNext_whole hs.requests hl hq
        rcases semNext_producer hq with ⟨out, hout, rfl⟩
        refine ⟨hwhole, hs.responses, ?_, hs.server⟩
        exact ⟨hsent, hreceived, hwindow, semPushCall_step hs.requests hcall hout, hpop,
          hpopped⟩
  | popping sent received =>
      rw [hpc] at hclient
      rcases hclient with ⟨hsent, hreceived, hwindow, hidle, hpushed, hcall⟩
      simp only [clientStep, hpc] at h
      split at h
      · rename_i last hpop
        injection h with h
        rw [← h]
        rw [hpop] at hcall
        exact ⟨hs.requests, hs.responses,
          ⟨hsent, hreceived, by lia, hidle, hpushed, ⟨last, hpop⟩, hcall.left⟩,
          hs.server⟩
      · rcases Option.map_eq_some_iff.mp h with ⟨q, hq, rfl⟩
        have hl : SemWholeTraffic g.messageSize (.consumer true) := rfl
        have hwhole := semNext_whole hs.responses hl hq
        rcases semNext_consumer hq with ⟨out, hout, rfl⟩
        refine ⟨hs.requests, hwhole, ?_, hs.server⟩
        exact ⟨hsent, hreceived, hwindow, hidle, hpushed,
          semPopCall_step hs.responses hcall hout⟩

theorem serverStep_invariant (hsize : P.header.messageSize = g.messageSize)
    (hs : SemPipelineInvariant P g s) (h : serverStep P s = some s') :
    SemPipelineInvariant P g s' := by
  have hsent : exists k, s.requests.pushed = (List.range k).map P.request := by
    rcases windowAt_pushed hs.client with ⟨k, hpushed, _⟩
    exact ⟨k, hpushed⟩
  have hserver := hs.server
  cases hpc : s.server with
  | receiving i =>
      rw [hpc] at hserver
      rcases hserver with ⟨hle, hpop, hpopped, hidle, hpushed⟩
      simp only [serverStep, hpc] at h
      split at h
      · rename_i hlt
        rcases Option.map_eq_some_iff.mp h with ⟨q, hq, rfl⟩
        have hl : SemWholeTraffic g.messageSize (.pop P.header.messageSize) := hsize
        have hwhole := semNext_whole hs.requests hl hq
        rcases semNext_pop hq with ⟨_, rfl⟩
        exact ⟨hwhole, hs.responses, hs.client, ⟨hlt, hpopped, hidle, hpushed⟩⟩
      · injection h with h
        rw [← h]
        have hall : i = P.calls := by lia
        rw [hall] at hpopped hpushed
        exact ⟨hs.requests, hs.responses, hs.client, ⟨hpop, hpopped, hidle, hpushed⟩⟩
  | popping i =>
      rw [hpc] at hserver
      rcases hserver with ⟨hlt, hcall, hidle, hpushed⟩
      simp only [serverStep, hpc] at h
      split at h
      · rename_i r hpop
        injection h with h
        rw [← h]
        rw [hpop] at hcall
        exact ⟨hs.requests, hs.responses, hs.client, ⟨hlt, ⟨_, hpop⟩, hcall.left,
          last_semRequest hs.requests hsent hcall.left hcall.right, hidle, hpushed⟩⟩
      · cases h
      · rcases Option.map_eq_some_iff.mp h with ⟨q, hq, rfl⟩
        have hl : SemWholeTraffic g.messageSize (.consumer true) := rfl
        have hwhole := semNext_whole hs.requests hl hq
        rcases semNext_consumer hq with ⟨out, hout, rfl⟩
        refine ⟨hwhole, hs.responses, hs.client, ?_⟩
        exact ⟨hlt, semPopCall_step hs.requests hcall hout, hidle, hpushed⟩
  | sending i message =>
      rw [hpc] at hserver
      rcases hserver with ⟨hlt, hpop, hpopped, hmessage, hidle, hpushed⟩
      simp only [serverStep, hpc] at h
      rcases Option.map_eq_some_iff.mp h with ⟨q, hq, rfl⟩
      have hlength : SemWholeTraffic g.messageSize (.push (P.respond message)) := by
        rw [hmessage]
        exact (P.respond_length _ (P.request_length i)).trans hsize
      have hwhole := semNext_whole hs.responses hlength hq
      rcases semNext_push hq with ⟨_, rfl⟩
      refine ⟨hs.requests, hwhole, hs.client, ⟨hlt, hpop, hpopped, ?_, hpushed⟩⟩
      rw [hmessage]
      rfl
  | pushing i =>
      rw [hpc] at hserver
      rcases hserver with ⟨hlt, hpop, hpopped, hcall⟩
      simp only [serverStep, hpc] at h
      split at h
      · rename_i ret hidle
        injection h with h
        rw [← h]
        rw [hidle] at hcall
        exact ⟨hs.requests, hs.responses, hs.client,
          ⟨hlt, hpop, hpopped, ⟨ret, hidle⟩, hcall⟩⟩
      · rcases Option.map_eq_some_iff.mp h with ⟨q, hq, rfl⟩
        have hl : SemWholeTraffic g.messageSize (.producer true) := rfl
        have hwhole := semNext_whole hs.responses hl hq
        rcases semNext_producer hq with ⟨out, hout, rfl⟩
        refine ⟨hs.requests, hwhole, hs.client, ?_⟩
        exact ⟨hlt, hpop, hpopped, semPushCall_step hs.responses hcall hout⟩
  | finished =>
      simp only [serverStep, hpc] at h
      cases h

theorem semPipelineNext_invariant {l : SemPipelineLabel}
    (hsize : P.header.messageSize = g.messageSize) (hs : SemPipelineInvariant P g s)
    (h : semPipelineNext P s l = some s') : SemPipelineInvariant P g s' := by
  cases l with
  | send => exact clientSend_invariant hsize hs h
  | receive => exact clientReceive_invariant hsize hs h
  | client => exact clientStep_invariant hs h
  | server => exact serverStep_invariant hsize hs h

end Step

theorem responses_of_answered {P : WindowedPipeline} {g : Geometry}
    {s : SemPipelineState} (hs : SemPipelineInvariant P g s) (h : Answered P s) :
    s.responses.popped.map Receipt.bytes = (List.range P.calls).map P.response := by
  have hclient := hs.client
  rw [h] at hclient
  rcases hclient with ⟨_, _, _, _, _, _, hpopped⟩
  have hbytes := hs.responses.popped_eq
  have hle := hs.responses.popped_le
  have hretired := hs.responses.invariant.indices.window.retired_le
  rcases semServerAt_pushed hs.server with ⟨k, hpushed, _⟩
  rw [hpushed, List.length_map, List.length_range] at hretired
  rw [hbytes, hpushed, hpopped, ← List.map_take, List.take_range,
    Nat.min_eq_left (by lia)]

/-!
# Windows that a ring can hold

With fewer requests outstanding than a ring has slots no `sem_push` finds its ring
full, so no side sleeps on a queue that would let it go on.
-/

section Calm

variable {P : WindowedPipeline} {g : Geometry} {s s' : SemPipelineState}

structure CalmPipeline (g : Geometry) (s : SemPipelineState) : Prop where
  requests : CalmInvariant g.queueSize s.requests
  responses : CalmInvariant g.queueSize s.responses

theorem not_idle_of_tests {producer : SemPushPc} (h : producer.tests = true) :
    exists buf, producer.buffer = some buf := by
  cases producer with
  | testing buf wasEmpty => exact ⟨buf, rfl⟩
  | _ => cases h

theorem semPushCall_unpublished {messages : Nat -> List Byte} {i : Nat}
    {producer : SemPushPc} {pushed : List (List Byte)}
    (hcall : SemPushCall messages i producer pushed) (h : producer.tests = true) :
    pushed.length = i := by
  rcases not_idle_of_tests h with ⟨buf, hbuf⟩
  unfold SemPushCall at hcall
  rw [hbuf] at hcall
  rw [hcall.right, List.length_map, List.length_range]

theorem not_tests_of_idle {producer : SemPushPc} (hidle : SemPushIdle producer) :
    producer.tests = false := by
  rcases hidle with ⟨ret, rfl⟩
  rfl

/-- The four logs count the same calls, each a little behind the one before it. -/
theorem logs_ordered (hs : SemPipelineInvariant P g s) :
    s.responses.popped.length ≤ s.responses.retired ∧
      s.responses.retired ≤ s.responses.pushed.length ∧
      s.responses.pushed.length ≤ s.requests.popped.length ∧
      s.requests.popped.length ≤ s.requests.retired ∧
      s.requests.retired ≤ s.requests.pushed.length := by
  rcases semServerAt_pushed hs.server with ⟨k, hpushed, hk⟩
  refine ⟨hs.responses.popped_le, hs.responses.invariant.indices.window.retired_le, ?_,
    hs.requests.popped_le, hs.requests.invariant.indices.window.retired_le⟩
  rw [hpushed, List.length_map, List.length_range]
  exact hk

theorem requests_not_full (hs : SemPipelineInvariant P g s)
    (hfits : min P.window P.calls < g.queueSize)
    (htests : s.requests.producer.tests = true) :
    isFull s.requests.queue.header = false := by
  rcases logs_ordered hs with ⟨h1, h2, h3, h4, _⟩
  have hclient := hs.client
  have hwindow := hs.requests.invariant.indices.window
  rw [Bool.eq_false_iff, Ne, hwindow.isFull_iff]
  intro hfull
  cases hpc : s.client with
  | deciding sent received =>
      rw [hpc] at hclient
      rw [not_tests_of_idle hclient.right.right.right.left] at htests
      cases htests
  | pushing sent received =>
      rw [hpc] at hclient
      rcases hclient with ⟨hsent, _, hopen, hcall, _, hpopped⟩
      have hpushed := semPushCall_unpublished hcall htests
      lia
  | popping sent received =>
      rw [hpc] at hclient
      rw [not_tests_of_idle hclient.right.right.right.left] at htests
      cases htests

theorem responses_not_full (hs : SemPipelineInvariant P g s)
    (hfits : min P.window P.calls < g.queueSize)
    (htests : s.responses.producer.tests = true) :
    isFull s.responses.queue.header = false := by
  rcases logs_ordered hs with ⟨h1, _, _, h4, h5⟩
  rcases windowAt_pushed hs.client with ⟨k, hsent, hcalls, hahead⟩
  have hserver := hs.server
  have hwindow := hs.responses.invariant.indices.window
  rw [hsent, List.length_map, List.length_range] at h5
  rw [Bool.eq_false_iff, Ne, hwindow.isFull_iff]
  intro hfull
  cases hpc : s.server with
  | receiving i =>
      rw [hpc] at hserver
      rw [not_tests_of_idle hserver.right.right.right.left] at htests
      cases htests
  | popping i =>
      rw [hpc] at hserver
      rw [not_tests_of_idle hserver.right.right.left] at htests
      cases htests
  | sending i message =>
      rw [hpc] at hserver
      rw [not_tests_of_idle hserver.right.right.right.right.left] at htests
      cases htests
  | pushing i =>
      rw [hpc] at hserver
      rcases hserver with ⟨_, _, hpopped, hcall⟩
      have hpushed := semPushCall_unpublished hcall htests
      lia
  | finished =>
      rw [hpc] at hserver
      rw [not_tests_of_idle hserver.right.right.left] at htests
      cases htests

theorem semPipelineNext_queues {l : SemPipelineLabel}
    (h : semPipelineNext P s l = some s') :
    (exists l', SemopsSucceed l' ∧ semNext s.requests l' = some s'.requests ∧
      s'.responses = s.responses) ∨
    (exists l', SemopsSucceed l' ∧ semNext s.responses l' = some s'.responses ∧
      s'.requests = s.requests) ∨
    (s'.requests = s.requests ∧ s'.responses = s.responses) := by
  cases l with
  | send =>
      simp only [semPipelineNext, clientSend] at h
      split at h
      · split at h
        · rcases Option.map_eq_some_iff.mp h with ⟨q, hq, rfl⟩
          exact Or.inl ⟨.push _, trivial, hq, rfl⟩
        · cases h
      · cases h
  | receive =>
      simp only [semPipelineNext, clientReceive] at h
      split at h
      · split at h
        · rcases Option.map_eq_some_iff.mp h with ⟨q, hq, rfl⟩
          exact Or.inr (Or.inl ⟨.pop _, trivial, hq, rfl⟩)
        · cases h
      · cases h
  | client =>
      simp only [semPipelineNext, clientStep] at h
      split at h
      · split at h
        · cases h
          exact Or.inr (Or.inr ⟨rfl, rfl⟩)
        · rcases Option.map_eq_some_iff.mp h with ⟨q, hq, rfl⟩
          exact Or.inl ⟨.producer true, rfl, hq, rfl⟩
      · split at h
        · cases h
          exact Or.inr (Or.inr ⟨rfl, rfl⟩)
        · rcases Option.map_eq_some_iff.mp h with ⟨q, hq, rfl⟩
          exact Or.inr (Or.inl ⟨.consumer true, rfl, hq, rfl⟩)
      · cases h
  | server =>
      simp only [semPipelineNext, serverStep] at h
      split at h
      · split at h
        · rcases Option.map_eq_some_iff.mp h with ⟨q, hq, rfl⟩
          exact Or.inl ⟨.pop _, trivial, hq, rfl⟩
        · cases h
          exact Or.inr (Or.inr ⟨rfl, rfl⟩)
      · split at h
        · cases h
          exact Or.inr (Or.inr ⟨rfl, rfl⟩)
        · cases h
        · rcases Option.map_eq_some_iff.mp h with ⟨q, hq, rfl⟩
          exact Or.inl ⟨.consumer true, rfl, hq, rfl⟩
      · rcases Option.map_eq_some_iff.mp h with ⟨q, hq, rfl⟩
        exact Or.inr (Or.inl ⟨.push _, trivial, hq, rfl⟩)
      · split at h
        · cases h
          exact Or.inr (Or.inr ⟨rfl, rfl⟩)
        · rcases Option.map_eq_some_iff.mp h with ⟨q, hq, rfl⟩
          exact Or.inr (Or.inl ⟨.producer true, rfl, hq, rfl⟩)
      · cases h

theorem semPipelineNext_calm {l : SemPipelineLabel} (hs : SemPipelineInvariant P g s)
    (hfits : min P.window P.calls < g.queueSize) (hcalm : CalmPipeline g s)
    (h : semPipelineNext P s l = some s') : CalmPipeline g s' := by
  rcases semPipelineNext_queues h with
    ⟨l', hok, hq, hother⟩ | ⟨l', hok, hq, hother⟩ | ⟨hrequests, hresponses⟩
  · constructor
    · exact semNext_calm hcalm.requests hok (requests_not_full hs hfits) hq
    · rw [hother]
      exact hcalm.responses
  · constructor
    · rw [hother]
      exact hcalm.requests
    · exact semNext_calm hcalm.responses hok (responses_not_full hs hfits) hq
  · constructor
    · rw [hrequests]
      exact hcalm.requests
    · rw [hresponses]
      exact hcalm.responses

end Calm

/-!
# Who can be stopped
-/

section Stopped

variable {P : WindowedPipeline} {g : Geometry} {s : SemPipelineState}

theorem pushIdle_unlocked {producer : SemPushPc} (h : SemPushIdle producer) :
    producer.holdsLock = false ∧ producer.owesPost = false := by
  rcases h with ⟨ret, rfl⟩
  exact ⟨rfl, rfl⟩

theorem popIdle_unlocked {consumer : SemPopPc} (h : SemPopIdle consumer) :
    consumer.holdsLock = false := by
  rcases h with ⟨last, rfl⟩
  rfl

theorem client_pushing (hs : SemPipelineInvariant P g s)
    (hrun : ¬ SemPushIdle s.requests.producer) :
    exists sent received, s.client = .pushing sent received := by
  have hclient := hs.client
  cases hpc : s.client with
  | deciding sent received | popping sent received =>
      rw [hpc] at hclient
      exact absurd hclient.right.right.right.left hrun
  | pushing sent received => exact ⟨sent, received, rfl⟩

theorem client_popping (hs : SemPipelineInvariant P g s)
    (hrun : ¬ SemPopIdle s.responses.consumer) :
    exists sent received, s.client = .popping sent received := by
  have hclient := hs.client
  cases hpc : s.client with
  | deciding sent received =>
      rw [hpc] at hclient
      exact absurd hclient.right.right.right.right.right.left hrun
  | pushing sent received =>
      rw [hpc] at hclient
      exact absurd hclient.right.right.right.right.left hrun
  | popping sent received => exact ⟨sent, received, rfl⟩

theorem server_popping (hs : SemPipelineInvariant P g s)
    (hrun : ¬ SemPopIdle s.requests.consumer) : exists i, s.server = .popping i := by
  have hserver := hs.server
  cases hpc : s.server with
  | popping i => exact ⟨i, rfl⟩
  | receiving i =>
      rw [hpc] at hserver
      exact absurd hserver.right.left hrun
  | sending i message =>
      rw [hpc] at hserver
      exact absurd hserver.right.left hrun
  | pushing i =>
      rw [hpc] at hserver
      exact absurd hserver.right.left hrun
  | finished =>
      rw [hpc] at hserver
      exact absurd hserver.left hrun

theorem server_pushing (hs : SemPipelineInvariant P g s)
    (hrun : ¬ SemPushIdle s.responses.producer) : exists i, s.server = .pushing i := by
  have hserver := hs.server
  cases hpc : s.server with
  | pushing i => exact ⟨i, rfl⟩
  | receiving i =>
      rw [hpc] at hserver
      exact absurd hserver.right.right.right.left hrun
  | popping i =>
      rw [hpc] at hserver
      exact absurd hserver.right.right.left hrun
  | sending i message =>
      rw [hpc] at hserver
      exact absurd hserver.right.right.right.right.left hrun
  | finished =>
      rw [hpc] at hserver
      exact absurd hserver.right.right.left hrun

theorem clientStep_pushing_none {sent received : Nat}
    (hpc : s.client = .pushing sent received) (h : clientStep s = none) :
    ¬ SemPushIdle s.requests.producer ∧ semNext s.requests (.producer true) = none := by
  simp only [clientStep, hpc] at h
  split at h
  · cases h
  · rename_i hrun
    constructor
    · intro hidle
      rcases hidle with ⟨ret, hidle⟩
      exact hrun ret hidle
    · exact Option.map_eq_none_iff.mp h

theorem clientStep_popping_none {sent received : Nat}
    (hpc : s.client = .popping sent received) (h : clientStep s = none) :
    ¬ SemPopIdle s.responses.consumer ∧ semNext s.responses (.consumer true) = none := by
  simp only [clientStep, hpc] at h
  split at h
  · cases h
  · rename_i hrun
    constructor
    · intro hidle
      rcases hidle with ⟨last, hidle⟩
      exact hrun last hidle
    · exact Option.map_eq_none_iff.mp h

theorem serverStep_popping_none {i : Nat} (hs : SemPipelineInvariant P g s)
    (hpc : s.server = .popping i) (h : serverStep P s = none) :
    ¬ SemPopIdle s.requests.consumer ∧ semNext s.requests (.consumer true) = none := by
  have hserver := hs.server
  rw [hpc] at hserver
  rcases hserver with ⟨_, hcall, _⟩
  simp only [serverStep, hpc] at h
  split at h
  · cases h
  · rename_i hidle
    rw [hidle] at hcall
    rcases hcall with ⟨hlength, hlast⟩
    rw [List.getLast?_eq_none_iff.mp hlast] at hlength
    cases hlength
  · rename_i hsome hnone
    constructor
    · intro hidle
      rcases hidle with ⟨last, hidle⟩
      cases last with
      | none => exact hnone hidle
      | some r => exact hsome r hidle
    · exact Option.map_eq_none_iff.mp h

theorem serverStep_pushing_none {i : Nat} (hpc : s.server = .pushing i)
    (h : serverStep P s = none) :
    ¬ SemPushIdle s.responses.producer ∧
      semNext s.responses (.producer true) = none := by
  simp only [serverStep, hpc] at h
  split at h
  · cases h
  · rename_i hrun
    constructor
    · intro hidle
      rcases hidle with ⟨ret, hidle⟩
      exact hrun ret hidle
    · exact Option.map_eq_none_iff.mp h

end Stopped

/-!
# Nobody waits forever

When neither party has a next step, the server sleeps on an empty ring of requests
or has answered all of them, and then the client has something left to do.
-/

section Progress

variable {P : WindowedPipeline} {g : Geometry} {s : SemPipelineState}

theorem not_pushIdle_of_holdsLock {producer : SemPushPc} (h : producer.holdsLock = true) :
    ¬ SemPushIdle producer := by
  intro hidle
  rw [(pushIdle_unlocked hidle).left] at h
  cases h

theorem not_popIdle_of_holdsLock {consumer : SemPopPc} (h : consumer.holdsLock = true) :
    ¬ SemPopIdle consumer := by
  intro hidle
  rw [popIdle_unlocked hidle] at h
  cases h

theorem server_stopped (hs : SemPipelineInvariant P g s) (hcalm : CalmPipeline g s)
    (hclient : clientStep s = none) (hserver : serverStep P s = none) :
    s.server = .finished ∨
      exists i, s.server = .popping i ∧ consumerAsleep s.requests = true := by
  have hat := hs.server
  cases hpc : s.server with
  | finished => exact Or.inl rfl
  | receiving i =>
      rw [hpc] at hat
      rcases hat.right.left with ⟨last, hidle⟩
      simp only [serverStep, hpc] at hserver
      split at hserver
      · simp [semNext, hidle] at hserver
      · cases hserver
  | sending i message =>
      rw [hpc] at hat
      rcases hat.right.right.right.right.left with ⟨ret, hidle⟩
      simp [serverStep, hpc, semNext, hidle] at hserver
  | popping i =>
      cases serverStep_popping_none hs hpc hserver with
      | intro hrun hnone =>
          rcases consumer_stopped hcalm.requests.lock hnone with hidle | hasleep | hholds
          · exact absurd hidle hrun
          · exact Or.inr ⟨i, rfl, hasleep⟩
          · rcases client_pushing hs (not_pushIdle_of_holdsLock hholds) with
              ⟨j, k, hpushing⟩
            have hstops := (clientStep_pushing_none hpushing hclient).right
            rw [not_holdsLock_of_push_none hstops] at hholds
            cases hholds
  | pushing i =>
      cases serverStep_pushing_none hpc hserver with
      | intro hrun hnone =>
          rcases producer_stopped hcalm.responses.lock hnone with hidle | hasleep | hholds
          · exact absurd hidle hrun
          · rw [producerAsleep_iff, hcalm.responses.calm.awake] at hasleep
            cases hasleep.left
          · rcases client_popping hs (not_popIdle_of_holdsLock hholds) with
              ⟨j, k, hpopping⟩
            have hstops := (clientStep_popping_none hpopping hclient).right
            rw [not_holdsLock_of_pop_none hstops] at hholds
            cases hholds

/-- A consumer asleep that nobody is going to wake has taken every message. -/
theorem drained_of_asleep {q : SemState} (hq : SemWholeInvariant g q)
    (hcalm : CalmInvariant g.queueSize q) (hasleep : consumerAsleep q = true)
    (hidle : SemPushIdle q.producer) : q.pushed.length = q.popped.length := by
  have hempty : isEmpty q.queue.header = true := by
    by_contra hlive
    have hstranded : consumerStranded q = true :=
      consumerStranded_iff.mpr ⟨hasleep, by simpa using hlive,
        (pushIdle_unlocked hidle).right⟩
    rw [hcalm.awake.left] at hstranded
    cases hstranded
  have hretired := hq.retired_of_unlocked
    (SemPopPc.not_holdsLock_of_sleeps (consumerAsleep_iff.mp hasleep).left)
  rw [hq.invariant.indices.window.isEmpty_iff.mp hempty, hretired]

theorem not_semStuck (hwindow : 1 ≤ P.window) (hs : SemPipelineInvariant P g s)
    (hcalm : CalmPipeline g s) : ¬ SemStuck P s := by
  intro hstuck
  cases hstuck with
  | intro hunanswered hnone =>
  have hsend : clientSend P s = none := hnone .send
  have hreceive : clientReceive P s = none := hnone .receive
  have hstep : clientStep s = none := hnone .client
  have hserver := server_stopped hs hcalm hstep (hnone .server)
  have hat := hs.client
  cases hpc : s.client with
  | deciding sent received =>
      rw [hpc] at hat
      rcases hat with ⟨hsent, hreceived, _, ⟨ret, hpush⟩, _, ⟨last, hpop⟩, _⟩
      simp only [clientSend, hpc, semNext, hpush] at hsend
      simp only [clientReceive, hpc, semNext, hpop] at hreceive
      split at hreceive
      · cases hreceive
      · split at hsend
        · cases hsend
        · apply hunanswered
          have hall : sent = P.calls ∧ received = P.calls := by lia
          rw [Answered, hpc, hall.left, hall.right]
  | pushing sent received =>
      cases clientStep_pushing_none hpc hstep with
      | intro hrun hblocked =>
          rcases producer_stopped hcalm.requests.lock hblocked with
            hidle | hasleep | hholds
          · exact hrun hidle
          · rw [producerAsleep_iff, hcalm.requests.calm.awake] at hasleep
            cases hasleep.left
          · rcases server_popping hs (not_popIdle_of_holdsLock hholds) with ⟨i, hpopping⟩
            have hstops := (serverStep_popping_none hs hpopping (hnone .server)).right
            rw [not_holdsLock_of_pop_none hstops] at hholds
            cases hholds
  | popping sent received =>
      rw [hpc] at hat
      rcases hat with ⟨hsent, hreceived, _, hpush, hpushed, hcall⟩
      cases clientStep_popping_none hpc hstep with
      | intro hrun hblocked =>
          have hserverAt := hs.server
          rcases consumer_stopped hcalm.responses.lock hblocked with
            hidle | hasleep | hholds
          · exact hrun hidle
          · have hdone := semPopCall_asleep hcall (consumerAsleep_iff.mp hasleep).left
            rcases hserver with hfinished | ⟨i, hpopping, hwaits⟩
            · rw [hfinished] at hserverAt
              rcases hserverAt with ⟨_, _, hidle, hresponses⟩
              have hdrained := drained_of_asleep hs.responses hcalm.responses hasleep hidle
              rw [hresponses, List.length_map, List.length_range] at hdrained
              lia
            · rw [hpopping] at hserverAt
              rcases hserverAt with ⟨_, hpopCall, hidle, hresponses⟩
              have hdrained := drained_of_asleep hs.responses hcalm.responses hasleep hidle
              have hdrained' := drained_of_asleep hs.requests hcalm.requests hwaits hpush
              have hcount := semPopCall_asleep hpopCall (consumerAsleep_iff.mp hwaits).left
              rw [hresponses, List.length_map, List.length_range] at hdrained
              rw [hpushed, List.length_map, List.length_range] at hdrained'
              lia
          · rcases server_pushing hs (not_pushIdle_of_holdsLock hholds) with ⟨i, hpushing⟩
            have hstops := (serverStep_pushing_none hpushing (hnone .server)).right
            rw [not_holdsLock_of_push_none hstops] at hholds
            cases hholds

end Progress

/-!
# How long the calls take

A call that is not made yet counts for all the steps that it can bring, with those of
a waiting loop paid for by the tokens of its queue.
-/

def WindowPc.work (calls messageSize : Nat) : WindowPc -> Nat
  | .deciding sent received =>
      (calls - sent) * (messageSize + 18) + (calls - received) * (messageSize + 21)
  | .pushing sent received =>
      (calls - (sent + 1)) * (messageSize + 18) +
        (calls - received) * (messageSize + 21) + 1
  | .popping sent received =>
      (calls - sent) * (messageSize + 18) +
        (calls - (received + 1)) * (messageSize + 21) + 1

def serverWork (calls messageSize : Nat) : ServerLoopPc -> Nat
  | .receiving i => (calls - i) * (2 * messageSize + 39) + 1
  | .popping i => (calls - (i + 1)) * (2 * messageSize + 39) + messageSize + 20
  | .sending i _ => (calls - (i + 1)) * (2 * messageSize + 39) + messageSize + 19
  | .pushing i => (calls - (i + 1)) * (2 * messageSize + 39) + 2
  | .finished => 0

def SemPipelineState.work (P : WindowedPipeline) (s : SemPipelineState) : Nat :=
  s.client.work P.calls P.header.messageSize +
    serverWork P.calls P.header.messageSize s.server +
    s.requests.work + s.responses.work

section Work

variable {P : WindowedPipeline} {g : Geometry} {s s' : SemPipelineState}

theorem work_of_push {q q' : SemState} {buf : List Byte}
    (h : semNext q (.push buf) = some q') : q'.work = q.work + buf.length + 16 := by
  rcases semNext_push h with ⟨⟨ret, hidle⟩, rfl⟩
  simp only [SemState.work, hidle, SemPushPc.work]
  lia

theorem work_of_pop {q q' : SemState} {size : Nat}
    (h : semNext q (.pop size) = some q') : q'.work = q.work + size + 19 := by
  rcases semNext_pop h with ⟨⟨last, hidle⟩, rfl⟩
  simp only [SemState.work, hidle, SemPopPc.work]
  lia

theorem client_work (hs : SemPipelineInvariant P g s)
    (h : clientSend P s = some s' ∨ clientReceive P s = some s' ∨
      clientStep s = some s') : s'.work P < s.work P := by
  have hat := hs.client
  rcases h with h | h | h
  · cases hpc : s.client with
    | deciding sent received =>
        simp only [clientSend, hpc] at h
        split at h
        · rename_i hopen
          rcases Option.map_eq_some_iff.mp h with ⟨q, hq, rfl⟩
          have hadds := work_of_push hq
          have hleft := calls_left (P.header.messageSize + 18) hopen.left
          rw [P.request_length] at hadds
          simp only [SemPipelineState.work, hpc, WindowPc.work]
          lia
        · cases h
    | pushing sent received | popping sent received =>
        simp only [clientSend, hpc] at h
        cases h
  · cases hpc : s.client with
    | deciding sent received =>
        rw [hpc] at hat
        simp only [clientReceive, hpc] at h
        split at h
        · rename_i hlt
          rcases Option.map_eq_some_iff.mp h with ⟨q, hq, rfl⟩
          have hadds := work_of_pop hq
          have hleft := calls_left (P.header.messageSize + 21)
            (Nat.lt_of_lt_of_le hlt hat.left)
          simp only [SemPipelineState.work, hpc, WindowPc.work]
          lia
        · cases h
    | pushing sent received | popping sent received =>
        simp only [clientReceive, hpc] at h
        cases h
  · cases hpc : s.client with
    | deciding sent received =>
        simp only [clientStep, hpc] at h
        cases h
    | pushing sent received =>
        simp only [clientStep, hpc] at h
        split at h
        · cases h
          simp only [SemPipelineState.work, hpc, WindowPc.work]
          lia
        · rcases Option.map_eq_some_iff.mp h with ⟨q, hq, rfl⟩
          have hlower := semNext_work hs.requests (Or.inl hq)
          simp only [SemPipelineState.work, hpc]
          lia
    | popping sent received =>
        simp only [clientStep, hpc] at h
        split at h
        · cases h
          simp only [SemPipelineState.work, hpc, WindowPc.work]
          lia
        · rcases Option.map_eq_some_iff.mp h with ⟨q, hq, rfl⟩
          have hlower := semNext_work hs.responses (Or.inr hq)
          simp only [SemPipelineState.work, hpc]
          lia

theorem server_work (hs : SemPipelineInvariant P g s) (h : serverStep P s = some s') :
    s'.work P < s.work P := by
  have hat := hs.server
  cases hpc : s.server with
  | receiving i =>
      simp only [serverStep, hpc] at h
      split at h
      · rename_i hlt
        rcases Option.map_eq_some_iff.mp h with ⟨q, hq, rfl⟩
        have hadds := work_of_pop hq
        have hleft := calls_left (2 * P.header.messageSize + 39) hlt
        simp only [SemPipelineState.work, hpc, serverWork]
        lia
      · cases h
        simp only [SemPipelineState.work, hpc, serverWork]
        lia
  | popping i =>
      simp only [serverStep, hpc] at h
      split at h
      · cases h
        simp only [SemPipelineState.work, hpc, serverWork]
        lia
      · cases h
      · rcases Option.map_eq_some_iff.mp h with ⟨q, hq, rfl⟩
        have hlower := semNext_work hs.requests (Or.inr hq)
        simp only [SemPipelineState.work, hpc]
        lia
  | sending i message =>
      rw [hpc] at hat
      simp only [serverStep, hpc] at h
      rcases Option.map_eq_some_iff.mp h with ⟨q, hq, rfl⟩
      have hadds := work_of_push hq
      have hmessage : message = P.request i := hat.right.right.right.left
      rw [hmessage, P.respond_length _ (P.request_length i)] at hadds
      simp only [SemPipelineState.work, hpc, serverWork]
      lia
  | pushing i =>
      simp only [serverStep, hpc] at h
      split at h
      · cases h
        simp only [SemPipelineState.work, hpc, serverWork]
        lia
      · rcases Option.map_eq_some_iff.mp h with ⟨q, hq, rfl⟩
        have hlower := semNext_work hs.responses (Or.inl hq)
        simp only [SemPipelineState.work, hpc]
        lia
  | finished =>
      simp only [serverStep, hpc] at h
      cases h

theorem semPipelineNext_work {l : SemPipelineLabel} (hs : SemPipelineInvariant P g s)
    (h : semPipelineNext P s l = some s') : s'.work P < s.work P := by
  cases l with
  | send => exact client_work hs (Or.inl h)
  | receive => exact client_work hs (Or.inr (Or.inl h))
  | client => exact client_work hs (Or.inr (Or.inr h))
  | server => exact server_work hs h

end Work

/-!
# Two queues that were just created
-/

section Created

variable {P : WindowedPipeline} {g : Geometry} {s start : SemPipelineState} {c : Nat}

theorem semPipelineStart_invariant {shmSize : Nat} {usable : Int}
    (hcreate : semQueueCreate shmSize P.header.messageSize = .ok (P.header, usable))
    (hsize : P.header.messageSize = g.messageSize)
    (hqueue : P.header.queueSize = g.queueSize) (htwo : 2 ≤ P.header.queueSize)
    (hstart : (semPipelineSystem P).Initial start) : SemPipelineInvariant P g start := by
  rcases hstart with ⟨requestMem, responseMem, rfl⟩
  have hqueues : forall mem, SemWholeInvariant g (semStart P.header mem) :=
    fun mem => semStart_whole mem (by rw [← hsize]; exact hcreate) hqueue htwo
  exact ⟨hqueues _, hqueues _,
    ⟨Nat.zero_le _, Nat.le_refl _, Nat.zero_le _, ⟨_, rfl⟩, rfl, ⟨_, rfl⟩, rfl⟩,
    ⟨Nat.zero_le _, ⟨_, rfl⟩, rfl, ⟨_, rfl⟩, rfl⟩⟩

theorem semPipelineStart_calm (hs : SemPipelineInvariant P g start)
    (hstart : (semPipelineSystem P).Initial start) : CalmPipeline g start := by
  rcases hstart with ⟨requestMem, responseMem, rfl⟩
  exact ⟨⟨hs.requests.invariant.indices, rfl, trivial, ⟨rfl, rfl⟩⟩,
    ⟨hs.responses.invariant.indices, rfl, trivial, ⟨rfl, rfl⟩⟩⟩

theorem semPipelineStart_work (hstart : (semPipelineSystem P).Initial start) :
    start.work P = P.calls * (4 * P.header.messageSize + 78) + 5 := by
  rcases hstart with ⟨requestMem, responseMem, rfl⟩
  simp only [SemPipelineState.work, WindowPc.work, serverWork, SemState.work, semStart,
    SemPushPc.work, SemPopPc.work, wakeTokens, initialValues, Nat.sub_zero]
  ring

variable (hsize : P.header.messageSize = g.messageSize)
  (hstart : forall start, (semPipelineSystem P).Initial start ->
    SemPipelineInvariant P g start)
include hsize hstart

theorem reachable_invariant (hs : (semPipelineSystem P).Reachable s) :
    SemPipelineInvariant P g s := by
  refine TransitionSystem.reachableUnder_invariant hstart ?_ hs
  intro t l t' ht _ hnext
  exact semPipelineNext_invariant hsize ht hnext

theorem reachable_calm (hfits : min P.window P.calls < g.queueSize)
    (hs : (semPipelineSystem P).Reachable s) : CalmPipeline g s := by
  let both : SemPipelineState -> Prop :=
    fun t => SemPipelineInvariant P g t ∧ CalmPipeline g t
  have hboth : both s := by
    refine TransitionSystem.reachableUnder_invariant ?_ ?_ hs
    · intro start hinitial
      have hs := hstart start hinitial
      exact ⟨hs, semPipelineStart_calm hs hinitial⟩
    · intro t l t' ht _ hnext
      exact ⟨semPipelineNext_invariant hsize ht.left hnext,
        semPipelineNext_calm ht.left hfits ht.right hnext⟩
  exact hboth.right

end Created

/--
Whatever the schedule, a connection stops after so many steps.  When it stops with
no more requests outstanding than a ring can hold, the client has the response to
each of its requests, in order.
-/
theorem sem_pipeline_terminates {P : WindowedPipeline} {shmSize c : Nat} {usable : Int}
    (hcreate : semQueueCreate shmSize P.header.messageSize = .ok (P.header, usable))
    (hshm : shmSize < 2 ^ 31) (hcapacity : P.header.queueSize = c + 1) (hc : 1 ≤ c)
    (hwindow : 1 ≤ P.window) :
    (forall start trace s, (semPipelineSystem P).Initial start ->
      (semPipelineSystem P).Run start trace s ->
        trace.length ≤ P.calls * (4 * P.header.messageSize + 78) + 5) ∧
    (min P.window P.calls ≤ c -> forall s, (semPipelineSystem P).Reachable s ->
      (forall l, (semPipelineSystem P).next s l = none) ->
        Answered P s ∧ s.responses.popped.map Receipt.bytes =
          (List.range P.calls).map fun i => P.respond (P.request i)) := by
  rcases createHeader_geometry (by decide) hcreate hshm hcapacity hc with
    ⟨g, hsize, hqueue, hslots⟩
  have hstart : forall start, (semPipelineSystem P).Initial start ->
      SemPipelineInvariant P g start :=
    fun start => semPipelineStart_invariant hcreate hsize hqueue (by lia)
  constructor
  · intro start trace s hinitial hrun
    have hlower : forall s l s', SemPipelineInvariant P g s ->
        (semPipelineSystem P).next s l = some s' -> s'.work P < s.work P :=
      fun s l s' hs hnext => semPipelineNext_work hs hnext
    have hbound := TransitionSystem.Run.length_le_of_rank
      (fun s l s' hs hnext => semPipelineNext_invariant hsize hs hnext) hlower hrun
      (hstart start hinitial)
    rw [semPipelineStart_work hinitial] at hbound
    exact Nat.le_of_add_right_le hbound
  · intro hfits s hs hstops
    have hinv := reachable_invariant hsize hstart hs
    have hcalm := reachable_calm hsize hstart (by lia) hs
    have hanswered : Answered P s := by
      by_contra hunanswered
      exact not_semStuck hwindow hinv hcalm ⟨hunanswered, hstops⟩
    exact ⟨hanswered, responses_of_answered hinv hanswered⟩

theorem length_reverse_semMessage (message : List Byte)
    (h : message.length = twoSlotSemHeader.messageSize) :
    message.reverse.length = twoSlotSemHeader.messageSize := by
  rw [List.length_reverse]
  exact h

theorem length_semRequest (_ : Nat) :
    [1, 2, 3, (4 : Byte)].length = twoSlotSemHeader.messageSize := by
  rfl

/-- Rings of two slots of four bytes, and a server that turns messages around. -/
def twoSlotSemPipeline (window calls : Nat) : WindowedPipeline where
  header := twoSlotSemHeader
  calls := calls
  request := fun _ => [1, 2, 3, 4]
  respond := List.reverse
  request_length := length_semRequest
  respond_length := length_reverse_semMessage
  window := window

/-- No schedule of five calls one after the other stops with a response missing. -/
theorem sem_pipeline_terminates_twoSlots :
    ¬ exists s, (semPipelineSystem (twoSlotSemPipeline 1 5)).Reachable s ∧
      (forall l, (semPipelineSystem (twoSlotSemPipeline 1 5)).next s l = none) ∧
        s.responses.popped.map Receipt.bytes ≠ List.replicate 5 [4, 3, 2, 1] := by
  intro hwrong
  rcases hwrong with ⟨s, hs, hstops, hne⟩
  have hcreate : semQueueCreate 56 4 = .ok (twoSlotSemHeader, 56) := by rfl
  have hcapacity : (twoSlotSemPipeline 1 5).header.queueSize = (1 : Nat) + 1 := rfl
  have hall := sem_pipeline_terminates hcreate (by decide) hcapacity (Nat.le_refl 1)
    (Nat.le_refl 1)
  exact hne (hall.right (by decide) s hs hstops).right

end Rpc
end Notnets
