import Notnets.Queue.PollProgress

/-!
# Pipelined calls

On one POLL connection the client sends all its requests before it receives any
response, and the server answers each request before it receives the next.  With
two rings of `c` usable slots the parties can wait for each other from `2 * c + 2`
requests on, and not before.
-/

namespace Notnets
namespace Rpc

open Foundation
open Queue
open Relation

/-- The header of both queues, and what the two parties do. -/
structure Pipeline where
  header : SpscQueueHeader
  /-- How many calls the client makes. -/
  calls : Nat
  request : Nat -> List Byte
  respond : List Byte -> List Byte
  request_length : forall i, (request i).length = header.messageSize
  respond_length : forall message, message.length = header.messageSize ->
    (respond message).length = header.messageSize

inductive ClientPc where
  /-- About to call `client_send_rpc` for this request. -/
  | sending (i : Nat)
  /-- In this call. -/
  | pushing (i : Nat)
  /-- About to call `client_receive_buf` for this response. -/
  | receiving (i : Nat)
  | popping (i : Nat)
  | finished
deriving DecidableEq, Repr

inductive ServerLoopPc where
  /-- About to call `server_receive_buf` for this request. -/
  | receiving (i : Nat)
  | popping (i : Nat)
  /-- About to call `server_send_rpc` for the response to this message. -/
  | sending (i : Nat) (message : List Byte)
  | pushing (i : Nat)
  | finished
deriving DecidableEq, Repr

structure PipelineState where
  requests : PollState
  responses : PollState
  client : ClientPc
  server : ServerLoopPc

inductive PipelineLabel where
  | client
  | server
deriving DecidableEq, Repr

def clientNext (P : Pipeline) (s : PipelineState) : Option PipelineState :=
  match s.client with
  | .sending i =>
      if i < P.calls then
        (pollNext s.requests (.push (P.request i))).map fun queue =>
          { s with requests := queue, client := .pushing i }
      else
        some { s with client := .receiving 0 }
  | .pushing i =>
      match s.requests.producer with
      | .idle _ => some { s with client := .sending (i + 1) }
      | _ =>
          (pollNext s.requests .producer).map fun queue => { s with requests := queue }
  | .receiving i =>
      if i < P.calls then
        (pollNext s.responses (.pop P.header.messageSize)).map fun queue =>
          { s with responses := queue, client := .popping i }
      else
        some { s with client := .finished }
  | .popping i =>
      match s.responses.consumer with
      | .idle _ => some { s with client := .receiving (i + 1) }
      | _ =>
          (pollNext s.responses .consumer).map fun queue => { s with responses := queue }
  | .finished => none

def serverNext (P : Pipeline) (s : PipelineState) : Option PipelineState :=
  match s.server with
  | .receiving i =>
      if i < P.calls then
        (pollNext s.requests (.pop P.header.messageSize)).map fun queue =>
          { s with requests := queue, server := .popping i }
      else
        some { s with server := .finished }
  | .popping i =>
      match s.requests.consumer with
      | .idle (some r) => some { s with server := .sending i r.bytes }
      | .idle none => none
      | _ =>
          (pollNext s.requests .consumer).map fun queue => { s with requests := queue }
  | .sending i message =>
      (pollNext s.responses (.push (P.respond message))).map fun queue =>
        { s with responses := queue, server := .pushing i }
  | .pushing i =>
      match s.responses.producer with
      | .idle _ => some { s with server := .receiving (i + 1) }
      | _ =>
          (pollNext s.responses .producer).map fun queue => { s with responses := queue }
  | .finished => none

/-- The client and the server on two queues that were just created. -/
def pipelineSystem (P : Pipeline) : TransitionSystem PipelineState PipelineLabel where
  Initial s := exists requestMem responseMem, s =
    { requests := pollStart P.header requestMem
      responses := pollStart P.header responseMem
      client := .sending 0
      server := .receiving 0 }
  next s
    | .client => clientNext P s
    | .server => serverNext P s

/-- Both parties are in a loop of `push` or `pop` whose condition is true. -/
def Stuck (s : PipelineState) : Prop :=
  (PushWaits s.requests.queue s.requests.producer ∨
    PopWaits s.responses.queue s.responses.consumer) ∧
  (PopWaits s.requests.queue s.requests.consumer ∨
    PushWaits s.responses.queue s.responses.producer)

theorem calls_left {calls i : Nat} (weight : Nat) (h : i < calls) :
    (calls - i) * weight = (calls - (i + 1)) * weight + weight := by
  have hleft : calls - i = calls - (i + 1) + 1 := by lia
  rw [hleft, Nat.succ_mul]

/-!
# The invariant
-/

/-- The responses in the order of their requests. -/
def Pipeline.response (P : Pipeline) (i : Nat) : List Byte :=
  P.respond (P.request i)

def ClientAt (P : Pipeline) (producer : PushPc) (pushed : List (List Byte))
    (consumer : PopPc) (popped : List Receipt) : ClientPc -> Prop
  | .sending i =>
      i ≤ P.calls ∧ PushIdle producer ∧ pushed = (List.range i).map P.request ∧
        PopIdle consumer ∧ popped.length = 0
  | .pushing i =>
      i < P.calls ∧ PushCall P.request i producer pushed ∧ PopIdle consumer ∧
        popped.length = 0
  | .receiving i =>
      i ≤ P.calls ∧ PushIdle producer ∧ pushed = (List.range P.calls).map P.request ∧
        PopIdle consumer ∧ popped.length = i
  | .popping i =>
      i < P.calls ∧ PushIdle producer ∧ pushed = (List.range P.calls).map P.request ∧
        PopCall i consumer popped
  | .finished =>
      PushIdle producer ∧ pushed = (List.range P.calls).map P.request ∧
        PopIdle consumer ∧ popped.length = P.calls

def ServerAt (P : Pipeline) (consumer : PopPc) (popped : List Receipt)
    (producer : PushPc) (pushed : List (List Byte)) : ServerLoopPc -> Prop
  | .receiving i =>
      i ≤ P.calls ∧ PopIdle consumer ∧ popped.length = i ∧ PushIdle producer ∧
        pushed = (List.range i).map P.response
  | .popping i =>
      i < P.calls ∧ PopCall i consumer popped ∧ PushIdle producer ∧
        pushed = (List.range i).map P.response
  | .sending i message =>
      i < P.calls ∧ PopIdle consumer ∧ popped.length = i + 1 ∧
        message = P.request i ∧ PushIdle producer ∧
        pushed = (List.range i).map P.response
  | .pushing i =>
      i < P.calls ∧ PopIdle consumer ∧ popped.length = i + 1 ∧
        PushCall P.response i producer pushed
  | .finished =>
      PopIdle consumer ∧ popped.length = P.calls ∧ PushIdle producer ∧
        pushed = (List.range P.calls).map P.response

structure PipelineInvariant (P : Pipeline) (g : Geometry) (s : PipelineState) :
    Prop where
  requests : WholeInvariant g s.requests
  responses : WholeInvariant g s.responses
  client : ClientAt P s.requests.producer s.requests.pushed s.responses.consumer
    s.responses.popped s.client
  server : ServerAt P s.requests.consumer s.requests.popped s.responses.producer
    s.responses.pushed s.server

theorem pushCall_pushed {messages : Nat -> List Byte} {i : Nat} {producer : PushPc}
    {pushed : List (List Byte)} (h : PushCall messages i producer pushed) :
    exists k, pushed = (List.range k).map messages := by
  unfold PushCall at h
  split at h
  · exact ⟨i + 1, h⟩
  · exact ⟨i, h.right⟩

theorem clientAt_pushed {P : Pipeline} {producer : PushPc} {pushed : List (List Byte)}
    {consumer : PopPc} {popped : List Receipt} {pc : ClientPc}
    (h : ClientAt P producer pushed consumer popped pc) :
    exists k, pushed = (List.range k).map P.request := by
  cases pc with
  | sending i => exact ⟨i, h.right.right.left⟩
  | pushing i => exact pushCall_pushed h.right.left
  | receiving i => exact ⟨P.calls, h.right.right.left⟩
  | popping i => exact ⟨P.calls, h.right.right.left⟩
  | finished => exact ⟨P.calls, h.right.left⟩

section Step

variable {P : Pipeline} {g : Geometry} {s s' : PipelineState}

theorem clientNext_invariant (hsize : P.header.messageSize = g.messageSize)
    (hs : PipelineInvariant P g s) (h : clientNext P s = some s') :
    PipelineInvariant P g s' := by
  rcases hs with ⟨hrequests, hresponses, hclient, hserver⟩
  cases hpc : s.client with
  | sending i =>
      rw [hpc] at hclient
      rcases hclient with ⟨hle, hidle, hpushed, hpop, hpopped⟩
      simp only [clientNext, hpc] at h
      split at h
      · rename_i hlt
        rcases Option.map_eq_some_iff.mp h with ⟨q, hq, rfl⟩
        have hlength : WholeTraffic g.messageSize (.push (P.request i)) :=
          (P.request_length i).trans hsize
        have hwhole := pollNext_whole hrequests hlength hq
        rcases pollNext_push hq with ⟨_, rfl⟩
        exact ⟨hwhole, hresponses, ⟨hlt, ⟨rfl, hpushed⟩, hpop, hpopped⟩, hserver⟩
      · rename_i hge
        injection h with h
        rw [← h]
        have hall : i = P.calls := by lia
        rw [hall] at hpushed
        exact ⟨hrequests, hresponses, ⟨Nat.zero_le _, hidle, hpushed, hpop, hpopped⟩,
          hserver⟩
  | pushing i =>
      rw [hpc] at hclient
      rcases hclient with ⟨hlt, hcall, hpop, hpopped⟩
      simp only [clientNext, hpc] at h
      split at h
      · rename_i ret hidle
        injection h with h
        rw [← h]
        rw [hidle] at hcall
        refine ⟨hrequests, hresponses, ⟨hlt, ⟨ret, hidle⟩, hcall, hpop, hpopped⟩,
          hserver⟩
      · rcases Option.map_eq_some_iff.mp h with ⟨q, hq, rfl⟩
        have hl : WholeTraffic g.messageSize .producer := trivial
        have hwhole := pollNext_whole hrequests hl hq
        rcases pollNext_producer hq with ⟨out, hout, rfl⟩
        refine ⟨hwhole, hresponses, ?_, hserver⟩
        exact ⟨hlt, pushCall_step hrequests hcall hout, hpop, hpopped⟩
  | receiving i =>
      rw [hpc] at hclient
      rcases hclient with ⟨hle, hidle, hpushed, hpop, hpopped⟩
      simp only [clientNext, hpc] at h
      split at h
      · rename_i hlt
        rcases Option.map_eq_some_iff.mp h with ⟨q, hq, rfl⟩
        have hl : WholeTraffic g.messageSize (.pop P.header.messageSize) := hsize
        have hwhole := pollNext_whole hresponses hl hq
        rcases pollNext_pop hq with ⟨_, rfl⟩
        exact ⟨hrequests, hwhole, ⟨hlt, hidle, hpushed, hpopped⟩, hserver⟩
      · rename_i hge
        injection h with h
        rw [← h]
        have hall : i = P.calls := by lia
        rw [hall] at hpopped
        exact ⟨hrequests, hresponses, ⟨hidle, hpushed, hpop, hpopped⟩, hserver⟩
  | popping i =>
      rw [hpc] at hclient
      rcases hclient with ⟨hlt, hidle, hpushed, hcall⟩
      simp only [clientNext, hpc] at h
      split at h
      · rename_i last hpop
        injection h with h
        rw [← h]
        rw [hpop] at hcall
        exact ⟨hrequests, hresponses, ⟨hlt, hidle, hpushed, ⟨last, hpop⟩, hcall.left⟩,
          hserver⟩
      · rcases Option.map_eq_some_iff.mp h with ⟨q, hq, rfl⟩
        have hl : WholeTraffic g.messageSize .consumer := trivial
        have hwhole := pollNext_whole hresponses hl hq
        rcases pollNext_consumer hq with ⟨out, hout, rfl⟩
        refine ⟨hrequests, hwhole, ?_, hserver⟩
        exact ⟨hlt, hidle, hpushed, popCall_step hresponses hcall hout⟩
  | finished =>
      simp only [clientNext, hpc] at h
      cases h

theorem last_request {i : Nat} {r : Receipt}
    (hrequests : WholeInvariant g s.requests)
    (hpushed : exists k, s.requests.pushed = (List.range k).map P.request)
    (hlength : s.requests.popped.length = i + 1)
    (hlast : s.requests.popped.getLast? = some r) : r.bytes = P.request i := by
  rcases hpushed with ⟨k, hpushed⟩
  have hle := hrequests.header.read_le
  have hbytes := hrequests.popped_eq
  rw [hpushed, List.length_map, List.length_range, hlength] at hle
  have hr : (s.requests.popped.map Receipt.bytes)[i]? = some r.bytes := by
    rw [List.getLast?_eq_getElem?, hlength, Nat.add_sub_cancel] at hlast
    rw [List.getElem?_map, hlast]
    rfl
  rw [hbytes, hpushed, hlength, List.getElem?_take, if_pos (Nat.lt_succ_self i),
    List.getElem?_map, List.getElem?_range (by lia)] at hr
  exact (Option.some.inj hr).symm

theorem serverNext_invariant (hsize : P.header.messageSize = g.messageSize)
    (hs : PipelineInvariant P g s) (h : serverNext P s = some s') :
    PipelineInvariant P g s' := by
  have hsent := clientAt_pushed hs.client
  rcases hs with ⟨hrequests, hresponses, hclient, hserver⟩
  cases hpc : s.server with
  | receiving i =>
      rw [hpc] at hserver
      rcases hserver with ⟨hle, hpop, hpopped, hidle, hpushed⟩
      simp only [serverNext, hpc] at h
      split at h
      · rename_i hlt
        rcases Option.map_eq_some_iff.mp h with ⟨q, hq, rfl⟩
        have hl : WholeTraffic g.messageSize (.pop P.header.messageSize) := hsize
        have hwhole := pollNext_whole hrequests hl hq
        rcases pollNext_pop hq with ⟨_, rfl⟩
        exact ⟨hwhole, hresponses, hclient, ⟨hlt, hpopped, hidle, hpushed⟩⟩
      · rename_i hge
        injection h with h
        rw [← h]
        have hall : i = P.calls := by lia
        rw [hall] at hpopped hpushed
        exact ⟨hrequests, hresponses, hclient, ⟨hpop, hpopped, hidle, hpushed⟩⟩
  | popping i =>
      rw [hpc] at hserver
      rcases hserver with ⟨hlt, hcall, hidle, hpushed⟩
      simp only [serverNext, hpc] at h
      split at h
      · rename_i r hpop
        injection h with h
        rw [← h]
        rw [hpop] at hcall
        exact ⟨hrequests, hresponses, hclient, ⟨hlt, ⟨_, hpop⟩, hcall.left,
          last_request hrequests hsent hcall.left hcall.right, hidle, hpushed⟩⟩
      · cases h
      · rcases Option.map_eq_some_iff.mp h with ⟨q, hq, rfl⟩
        have hl : WholeTraffic g.messageSize .consumer := trivial
        have hwhole := pollNext_whole hrequests hl hq
        rcases pollNext_consumer hq with ⟨out, hout, rfl⟩
        refine ⟨hwhole, hresponses, hclient, ?_⟩
        exact ⟨hlt, popCall_step hrequests hcall hout, hidle, hpushed⟩
  | sending i message =>
      rw [hpc] at hserver
      rcases hserver with ⟨hlt, hpop, hpopped, hmessage, hidle, hpushed⟩
      simp only [serverNext, hpc] at h
      rcases Option.map_eq_some_iff.mp h with ⟨q, hq, rfl⟩
      have hlength : WholeTraffic g.messageSize (.push (P.respond message)) := by
        rw [hmessage]
        exact (P.respond_length _ (P.request_length i)).trans hsize
      have hwhole := pollNext_whole hresponses hlength hq
      rcases pollNext_push hq with ⟨_, rfl⟩
      refine ⟨hrequests, hwhole, hclient, ⟨hlt, hpop, hpopped, ?_, hpushed⟩⟩
      rw [hmessage]
      rfl
  | pushing i =>
      rw [hpc] at hserver
      rcases hserver with ⟨hlt, hpop, hpopped, hcall⟩
      simp only [serverNext, hpc] at h
      split at h
      · rename_i ret hidle
        injection h with h
        rw [← h]
        rw [hidle] at hcall
        exact ⟨hrequests, hresponses, hclient,
          ⟨hlt, hpop, hpopped, ⟨ret, hidle⟩, hcall⟩⟩
      · rcases Option.map_eq_some_iff.mp h with ⟨q, hq, rfl⟩
        have hl : WholeTraffic g.messageSize .producer := trivial
        have hwhole := pollNext_whole hresponses hl hq
        rcases pollNext_producer hq with ⟨out, hout, rfl⟩
        refine ⟨hrequests, hwhole, hclient, ?_⟩
        exact ⟨hlt, hpop, hpopped, pushCall_step hresponses hcall hout⟩
  | finished =>
      simp only [serverNext, hpc] at h
      cases h

end Step

/-!
# Who waits for whom
-/

theorem buffer_of_pushWaits {q : SpscQueue} {producer : PushPc}
    (h : PushWaits q producer) : exists buf, producer.buffer = some buf := by
  cases producer with
  | polling buf messageSize writerHead nextWriterHead => exact ⟨buf, rfl⟩
  | _ => exact h.elim

theorem not_idle_of_pushWaits {q : SpscQueue} {producer : PushPc}
    (h : PushWaits q producer) : ¬ PushIdle producer := by
  intro hboth
  rcases hboth with ⟨ret, hidle⟩
  rw [hidle] at h
  exact h

theorem not_idle_of_popWaits {q : SpscQueue} {consumer : PopPc}
    (h : PopWaits q consumer) : ¬ PopIdle consumer := by
  intro hboth
  rcases hboth with ⟨last, hidle⟩
  rw [hidle] at h
  exact h

theorem pushed_of_call {messages : Nat -> List Byte} {i : Nat} {q : SpscQueue}
    {producer : PushPc} {pushed : List (List Byte)}
    (hcall : PushCall messages i producer pushed) (h : PushWaits q producer) :
    pushed.length = i := by
  rcases buffer_of_pushWaits h with ⟨buf, hbuf⟩
  unfold PushCall at hcall
  rw [hbuf] at hcall
  rw [hcall.right, List.length_map, List.length_range]

theorem popped_of_call {i : Nat} {q : SpscQueue} {consumer : PopPc}
    {popped : List Receipt} (hcall : PopCall i consumer popped)
    (h : PopWaits q consumer) : popped.length = i := by
  cases consumer with
  | polling size readerTail => exact hcall
  | _ => exact h.elim

section Waiting

variable {P : Pipeline} {producer : PushPc} {consumer : PopPc}
  {pushed : List (List Byte)} {popped : List Receipt} {q : SpscQueue}

/-- A client that waits in `push` has read no response yet. -/
theorem clientAt_pushWaits {pc : ClientPc}
    (h : ClientAt P producer pushed consumer popped pc) (hwaits : PushWaits q producer) :
    pushed.length < P.calls ∧ popped.length = 0 := by
  have hidle := not_idle_of_pushWaits hwaits
  cases pc with
  | sending i => exact absurd h.right.left hidle
  | pushing i =>
      rcases h with ⟨hlt, hcall, _, hpopped⟩
      rw [pushed_of_call hcall hwaits]
      exact ⟨hlt, hpopped⟩
  | receiving i => exact absurd h.right.left hidle
  | popping i => exact absurd h.right.left hidle
  | finished => exact absurd h.left hidle

theorem clientAt_popWaits {pc : ClientPc}
    (h : ClientAt P producer pushed consumer popped pc) (hwaits : PopWaits q consumer) :
    pushed.length = P.calls ∧ popped.length < P.calls := by
  have hidle := not_idle_of_popWaits hwaits
  cases pc with
  | sending i => exact absurd h.right.right.right.left hidle
  | pushing i => exact absurd h.right.right.left hidle
  | receiving i => exact absurd h.right.right.right.left hidle
  | popping i =>
      rcases h with ⟨hlt, _, hpushed, hcall⟩
      rw [hpushed, List.length_map, List.length_range, popped_of_call hcall hwaits]
      exact ⟨rfl, hlt⟩
  | finished => exact absurd h.right.right.left hidle

theorem serverAt_popWaits {pc : ServerLoopPc}
    (h : ServerAt P consumer popped producer pushed pc) (hwaits : PopWaits q consumer) :
    pushed.length = popped.length ∧ popped.length < P.calls := by
  have hidle := not_idle_of_popWaits hwaits
  cases pc with
  | receiving i => exact absurd h.right.left hidle
  | popping i =>
      rcases h with ⟨hlt, hcall, _, hpushed⟩
      rw [hpushed, List.length_map, List.length_range, popped_of_call hcall hwaits]
      exact ⟨rfl, hlt⟩
  | sending i message => exact absurd h.right.left hidle
  | pushing i => exact absurd h.right.left hidle
  | finished => exact absurd h.left hidle

/-- A server that waits in `push` has one request in its hands. -/
theorem serverAt_pushWaits {pc : ServerLoopPc}
    (h : ServerAt P consumer popped producer pushed pc)
    (hwaits : PushWaits q producer) : popped.length = pushed.length + 1 := by
  have hidle := not_idle_of_pushWaits hwaits
  cases pc with
  | receiving i => exact absurd h.right.right.right.left hidle
  | popping i => exact absurd h.right.right.left hidle
  | sending i message => exact absurd h.right.right.right.right.left hidle
  | pushing i =>
      rcases h with ⟨_, _, hpopped, hcall⟩
      rw [pushed_of_call hcall hwaits]
      exact hpopped
  | finished => exact absurd h.right.right.left hidle

end Waiting

/-- Two parties that wait for each other have filled both rings, and the server
has a request in its hands. -/
theorem calls_of_stuck {P : Pipeline} {g : Geometry} {s : PipelineState}
    (hs : PipelineInvariant P g s) (htwo : 2 ≤ g.queueSize) (hstuck : Stuck s) :
    2 * g.queueSize ≤ P.calls := by
  rcases hs with ⟨hrequests, hresponses, hclient, hserver⟩
  rcases hstuck with ⟨hpush | hpop, hserverWaits⟩
  · have hfull := hrequests.pushed_of_pushWaits hpush
    rcases clientAt_pushWaits hclient hpush with ⟨hlt, hnone⟩
    rcases hserverWaits with hpop | hpush'
    · have hempty := hrequests.pushed_of_popWaits hpop
      lia
    · have hfull' := hresponses.pushed_of_pushWaits hpush'
      have hhand := serverAt_pushWaits hserver hpush'
      lia
  · have hempty := hresponses.pushed_of_popWaits hpop
    rcases clientAt_popWaits hclient hpop with ⟨hall, hlt⟩
    rcases hserverWaits with hpop' | hpush
    · have hempty' := hrequests.pushed_of_popWaits hpop'
      rcases serverAt_popWaits hserver hpop' with ⟨hanswered, hmore⟩
      lia
    · have hfull := hresponses.pushed_of_pushWaits hpush
      lia

theorem responses_of_finished {P : Pipeline} {g : Geometry} {s : PipelineState}
    (hs : PipelineInvariant P g s) (hfinished : s.client = .finished) :
    s.responses.popped.map Receipt.bytes = (List.range P.calls).map P.response := by
  have hclient := hs.client
  rw [hfinished] at hclient
  rcases hclient with ⟨_, _, _, hpopped⟩
  have hbytes := hs.responses.popped_eq
  have hle := hs.responses.header.read_le
  have hpushed : exists k, s.responses.pushed = (List.range k).map P.response := by
    have hserver := hs.server
    cases hpc : s.server with
    | receiving i =>
        rw [hpc] at hserver
        exact ⟨i, hserver.right.right.right.right⟩
    | popping i =>
        rw [hpc] at hserver
        exact ⟨i, hserver.right.right.right⟩
    | sending i message =>
        rw [hpc] at hserver
        exact ⟨i, hserver.right.right.right.right.right⟩
    | pushing i =>
        rw [hpc] at hserver
        exact pushCall_pushed hserver.right.right.right
    | finished =>
        rw [hpc] at hserver
        exact ⟨P.calls, hserver.right.right.right⟩
  rcases hpushed with ⟨k, hpushed⟩
  rw [hpushed, List.length_map, List.length_range, hpopped] at hle
  rw [hbytes, hpushed, hpopped, ← List.map_take, List.take_range, Nat.min_eq_left hle]

theorem receipt_of_popCall {i : Nat} {last : Option Receipt} {popped : List Receipt}
    (h : PopCall i (.idle last) popped) : exists r, last = some r := by
  rcases h with ⟨hlength, hlast⟩
  cases last with
  | some r => exact ⟨r, rfl⟩
  | none =>
      rw [List.getLast?_eq_none_iff.mp hlast] at hlength
      cases hlength

/-!
# How the parties come to wait

The client sends and the server answers in turn until the responses fill their
ring.  The server then waits with one more request in its hands, and the client
fills the ring of the requests.
-/

section Schedule

variable {P : Pipeline} {g : Geometry} {s : PipelineState}

theorem client_pushes {i : Nat} {q : PollState} (hs : (pipelineSystem P).Reachable s)
    (hpc : s.client = .pushing i) (hsteps : ProducerSteps s.requests q) :
    (pipelineSystem P).Reachable { s with requests := q } := by
  induction hsteps with
  | refl => exact hs
  | tail hbefore hnext ih =>
      rename_i q q'
      refine TransitionSystem.reachable_step (l := .client) ih ?_
      show clientNext P _ = _
      simp only [clientNext, hpc]
      split
      · rename_i hidle
        rcases pollNext_producer hnext with ⟨out, hout, _⟩
        rw [hidle] at hout
        cases hout
      · rw [hnext]
        rfl

theorem server_pops {i : Nat} {q : PollState} (hs : (pipelineSystem P).Reachable s)
    (hpc : s.server = .popping i) (hsteps : ConsumerSteps s.requests q) :
    (pipelineSystem P).Reachable { s with requests := q } := by
  induction hsteps with
  | refl => exact hs
  | tail hbefore hnext ih =>
      rename_i q q'
      refine TransitionSystem.reachable_step (l := .server) ih ?_
      show serverNext P _ = _
      rcases pollNext_consumer hnext with ⟨out, hout, _⟩
      simp only [serverNext, hpc]
      split
      · rename_i r hidle
        rw [hidle] at hout
        cases hout
      · rename_i hidle
        rw [hidle] at hout
        cases hout
      · rw [hnext]
        rfl

theorem server_pushes {i : Nat} {q : PollState} (hs : (pipelineSystem P).Reachable s)
    (hpc : s.server = .pushing i) (hsteps : ProducerSteps s.responses q) :
    (pipelineSystem P).Reachable { s with responses := q } := by
  induction hsteps with
  | refl => exact hs
  | tail hbefore hnext ih =>
      rename_i q q'
      refine TransitionSystem.reachable_step (l := .server) ih ?_
      show serverNext P _ = _
      simp only [serverNext, hpc]
      split
      · rename_i hidle
        rcases pollNext_producer hnext with ⟨out, hout, _⟩
        rw [hidle] at hout
        cases hout
      · rw [hnext]
        rfl

variable (hinv : forall s, (pipelineSystem P).Reachable s -> PipelineInvariant P g s)
include hinv

theorem client_calls {i : Nat} (hs : (pipelineSystem P).Reachable s)
    (hpc : s.client = .sending i) (hlt : i < P.calls) :
    (pipelineSystem P).Reachable
      { s with
        requests := { s.requests with producer := .entered (P.request i) }
        client := .pushing i } := by
  have hclient := (hinv s hs).client
  rw [hpc] at hclient
  rcases hclient.right.left with ⟨ret, hidle⟩
  refine TransitionSystem.reachable_step (l := .client) hs ?_
  show clientNext P s = _
  simp only [clientNext, hpc, if_pos hlt, pollNext, hidle]
  rfl

theorem client_sends {i : Nat} (hs : (pipelineSystem P).Reachable s)
    (hpc : s.client = .sending i) (hlt : i < P.calls)
    (hroom : i + 1 ≠ s.requests.popped.length + g.queueSize) :
    exists s', (pipelineSystem P).Reachable s' ∧ s'.client = .sending (i + 1) ∧
      s'.server = s.server ∧ s'.responses = s.responses ∧
      s'.requests.popped = s.requests.popped := by
  have hclient := (hinv s hs).client
  rw [hpc] at hclient
  have hcalled := client_calls hinv hs hpc hlt
  have hwhole := (hinv _ hcalled).requests
  have hfree : s.requests.pushed.length + 1 ≠
      s.requests.popped.length + g.queueSize := by
    rw [hclient.right.right.left, List.length_map, List.length_range]
    exact hroom
  rcases push_completes hwhole rfl hfree with ⟨q, hsteps, ret, hidle⟩
  have hpushed := client_pushes hcalled rfl hsteps
  have hreturns : clientNext P { s with requests := q, client := .pushing i } =
      some { s with requests := q, client := .sending (i + 1) } := by
    simp only [clientNext, hidle]
  exact ⟨_, TransitionSystem.reachable_step (l := .client) hpushed hreturns, rfl, rfl,
    rfl, (producerSteps_whole hwhole hsteps).right.left⟩

theorem client_waits {i : Nat} (hs : (pipelineSystem P).Reachable s)
    (hpc : s.client = .sending i) (hlt : i < P.calls)
    (hfull : i + 1 = s.requests.popped.length + g.queueSize) :
    exists s', (pipelineSystem P).Reachable s' ∧
      PushWaits s'.requests.queue s'.requests.producer ∧
      s'.responses = s.responses := by
  have hclient := (hinv s hs).client
  rw [hpc] at hclient
  have hcalled := client_calls hinv hs hpc hlt
  have hwhole := (hinv _ hcalled).requests
  have hlast : s.requests.pushed.length + 1 =
      s.requests.popped.length + g.queueSize := by
    rw [hclient.right.right.left, List.length_map, List.length_range]
    exact hfull
  rcases push_waits hwhole rfl hlast with ⟨q, hsteps, hwaits⟩
  exact ⟨_, client_pushes hcalled rfl hsteps, hwaits, rfl⟩

theorem client_sends_many {i : Nat} (k : Nat) (hs : (pipelineSystem P).Reachable s)
    (hpc : s.client = .sending i) (hlt : i + k ≤ P.calls)
    (hroom : i + k < s.requests.popped.length + g.queueSize) :
    exists s', (pipelineSystem P).Reachable s' ∧ s'.client = .sending (i + k) ∧
      s'.server = s.server ∧ s'.responses = s.responses ∧
      s'.requests.popped = s.requests.popped := by
  induction k with
  | zero => exact ⟨s, hs, hpc, rfl, rfl, rfl⟩
  | succ k ih =>
      rcases ih (by lia) (by lia) with ⟨s1, hs1, hpc1, hserver1, hresponses1, hpopped1⟩
      rcases client_sends hinv hs1 hpc1 (by lia) (by rw [hpopped1]; lia) with
        ⟨s2, hs2, hpc2, hserver2, hresponses2, hpopped2⟩
      exact ⟨s2, hs2, hpc2, hserver2.trans hserver1, hresponses2.trans hresponses1,
        hpopped2.trans hpopped1⟩

theorem server_receives {i j : Nat} (hs : (pipelineSystem P).Reachable s)
    (hclient : s.client = .sending i) (hpc : s.server = .receiving j) (hlt : j < i) :
    exists s' message, (pipelineSystem P).Reachable s' ∧ s'.client = .sending i ∧
      s'.server = .sending j message := by
  have hs' := hinv s hs
  have hat := hs'.client
  have hserver := hs'.server
  rw [hclient] at hat
  rw [hpc] at hserver
  rcases hat with ⟨hle, _, hpushed, _⟩
  rcases hserver with ⟨_, ⟨last, hidle⟩, hpopped, _⟩
  have hcalled : (pipelineSystem P).Reachable
      { s with
        requests := { s.requests with consumer := .entered P.header.messageSize }
        server := .popping j } := by
    refine TransitionSystem.reachable_step (l := .server) hs ?_
    show serverNext P s = _
    simp only [serverNext, hpc, if_pos (Nat.lt_of_lt_of_le hlt hle), pollNext, hidle]
    rfl
  have hthere : s.requests.pushed.length ≠ s.requests.popped.length := by
    rw [hpushed, hpopped, List.length_map, List.length_range]
    lia
  rcases pop_completes (hinv _ hcalled).requests rfl hthere with
    ⟨q, hsteps, last', hdone⟩
  have hpops := server_pops hcalled rfl hsteps
  have hcall : PopCall j q.consumer q.popped := (hinv _ hpops).server.right.left
  rw [hdone] at hcall
  rcases receipt_of_popCall hcall with ⟨r, hr⟩
  rw [hr] at hdone
  have hreturns : serverNext P { s with requests := q, server := .popping j } =
      some { s with requests := q, server := .sending j r.bytes } := by
    simp only [serverNext, hdone]
  exact ⟨_, r.bytes, TransitionSystem.reachable_step (l := .server) hpops hreturns,
    hclient, rfl⟩

theorem server_calls {j : Nat} {message : List Byte}
    (hs : (pipelineSystem P).Reachable s) (hpc : s.server = .sending j message) :
    (pipelineSystem P).Reachable
      { s with
        responses := { s.responses with producer := .entered (P.respond message) }
        server := .pushing j } := by
  have hserver := (hinv s hs).server
  rw [hpc] at hserver
  rcases hserver.right.right.right.right.left with ⟨ret, hidle⟩
  refine TransitionSystem.reachable_step (l := .server) hs ?_
  show serverNext P s = _
  simp only [serverNext, hpc, pollNext, hidle]
  rfl

theorem server_sends {j : Nat} {message : List Byte}
    (hs : (pipelineSystem P).Reachable s) (hpc : s.server = .sending j message)
    (hroom : j + 1 ≠ s.responses.popped.length + g.queueSize) :
    exists s', (pipelineSystem P).Reachable s' ∧ s'.client = s.client ∧
      s'.server = .receiving (j + 1) := by
  have hserver := (hinv s hs).server
  rw [hpc] at hserver
  have hcalled := server_calls hinv hs hpc
  have hfree : s.responses.pushed.length + 1 ≠
      s.responses.popped.length + g.queueSize := by
    rw [hserver.right.right.right.right.right, List.length_map, List.length_range]
    exact hroom
  rcases push_completes (hinv _ hcalled).responses rfl hfree with
    ⟨q, hsteps, ret, hidle⟩
  have hpushed := server_pushes hcalled rfl hsteps
  have hreturns : serverNext P { s with responses := q, server := .pushing j } =
      some { s with responses := q, server := .receiving (j + 1) } := by
    simp only [serverNext, hidle]
  exact ⟨_, TransitionSystem.reachable_step (l := .server) hpushed hreturns, rfl, rfl⟩

theorem server_waits {j : Nat} {message : List Byte}
    (hs : (pipelineSystem P).Reachable s) (hpc : s.server = .sending j message)
    (hfull : j + 1 = s.responses.popped.length + g.queueSize) :
    exists s', (pipelineSystem P).Reachable s' ∧
      PushWaits s'.responses.queue s'.responses.producer ∧ s'.client = s.client ∧
        s'.requests = s.requests := by
  have hserver := (hinv s hs).server
  rw [hpc] at hserver
  have hcalled := server_calls hinv hs hpc
  have hlast : s.responses.pushed.length + 1 =
      s.responses.popped.length + g.queueSize := by
    rw [hserver.right.right.right.right.right, List.length_map, List.length_range]
    exact hfull
  rcases push_waits (hinv _ hcalled).responses rfl hlast with ⟨q, hsteps, hwaits⟩
  exact ⟨_, server_pushes hcalled rfl hsteps, hwaits, rfl, rfl⟩

theorem request_arrives {i : Nat} (htwo : 2 ≤ g.queueSize)
    (hs : (pipelineSystem P).Reachable s) (hclient : s.client = .sending i)
    (hserver : s.server = .receiving i) (hlt : i < P.calls) :
    exists s' message, (pipelineSystem P).Reachable s' ∧ s'.client = .sending (i + 1) ∧
      s'.server = .sending i message ∧ s'.responses.popped.length = 0 := by
  have hpopped := (hinv s hs).server
  rw [hserver] at hpopped
  have hroom : i + 1 ≠ s.requests.popped.length + g.queueSize := by
    rw [hpopped.right.right.left]
    lia
  rcases client_sends hinv hs hclient hlt hroom with ⟨s1, hs1, hclient1, hserver1, _⟩
  rcases server_receives hinv hs1 hclient1 (hserver1.trans hserver) (by lia) with
    ⟨s2, message, hs2, hclient2, hserver2⟩
  have hunread := (hinv s2 hs2).client
  rw [hclient2] at hunread
  exact ⟨s2, message, hs2, hclient2, hserver2, hunread.right.right.right.right⟩

/-- One request and its response after the other, until the responses fill their
ring. -/
theorem rounds (htwo : 2 ≤ g.queueSize) (k : Nat) (hcalls : k ≤ P.calls)
    (hroom : k < g.queueSize) :
    exists s, (pipelineSystem P).Reachable s ∧ s.client = .sending k ∧
      s.server = .receiving k := by
  induction k with
  | zero =>
      let start : PipelineState :=
        { requests := pollStart P.header fun _ => 0
          responses := pollStart P.header fun _ => 0
          client := .sending 0
          server := .receiving 0 }
      have hinitial : (pipelineSystem P).Initial start := ⟨_, _, rfl⟩
      have hstart : (pipelineSystem P).Reachable start :=
        ⟨start, [], hinitial, TransitionSystem.Run.nil, TransitionSystem.guarded_nil _⟩
      exact ⟨start, hstart, rfl, rfl⟩
  | succ k ih =>
      rcases ih (by lia) (by lia) with ⟨s, hs, hclient, hserver⟩
      rcases request_arrives hinv htwo hs hclient hserver (by lia) with
        ⟨s1, message, hs1, hclient1, hserver1, hunread⟩
      have hfree : k + 1 ≠ s1.responses.popped.length + g.queueSize := by lia
      rcases server_sends hinv hs1 hserver1 hfree with ⟨s2, hs2, hclient2, hserver2⟩
      exact ⟨s2, hs2, hclient2.trans hclient1, hserver2⟩

theorem stuck_reachable (htwo : 2 ≤ g.queueSize)
    (hcalls : 2 * g.queueSize ≤ P.calls) :
    exists s, (pipelineSystem P).Reachable s ∧ Stuck s := by
  rcases rounds hinv htwo (g.queueSize - 1) (by lia) (by lia) with
    ⟨s, hs, hclient, hserver⟩
  rcases request_arrives hinv htwo hs hclient hserver (by lia) with
    ⟨s1, message, hs1, hclient1, hserver1, hunread⟩
  have hhand := (hinv s1 hs1).server
  rw [hserver1] at hhand
  -- the response ring is full now, and the server waits with one response in hand
  have hfull : g.queueSize - 1 + 1 = s1.responses.popped.length + g.queueSize := by lia
  rcases server_waits hinv hs1 hserver1 hfull with
    ⟨s2, hs2, hwaits, hclient2, hrequests2⟩
  have hreceived : s2.requests.popped.length = g.queueSize := by
    rw [hrequests2, hhand.right.right.left]
    lia
  rcases client_sends_many hinv (g.queueSize - 1) hs2 (hclient2.trans hclient1)
    (by lia) (by lia) with ⟨s3, hs3, hclient3, _, hresponses3, hpopped3⟩
  have hfilled : g.queueSize - 1 + 1 + (g.queueSize - 1) + 1 =
      s3.requests.popped.length + g.queueSize := by
    rw [hpopped3, hreceived]
    lia
  rcases client_waits hinv hs3 hclient3 (by lia) hfilled with
    ⟨s4, hs4, hwaits4, hresponses4⟩
  refine ⟨s4, hs4, Or.inl hwaits4, Or.inr ?_⟩
  rw [hresponses4, hresponses3]
  exact hwaits

end Schedule

/--
With `c` usable slots each way the two parties can come to wait for each other
exactly from `2 * c + 2` requests on, and a client that finishes has got the
responses to its requests, in order.
-/
theorem pipeline_deadlock_iff {P : Pipeline} {shmSize c : Nat} {usable : Int}
    (hcreate : queueCreate shmSize P.header.messageSize = .ok (P.header, usable))
    (hshm : shmSize < 2 ^ 31) (hcapacity : P.header.queueSize = c + 1) (hc : 1 ≤ c) :
    ((exists s, (pipelineSystem P).Reachable s ∧ Stuck s) <-> 2 * c + 2 ≤ P.calls) ∧
      forall s, (pipelineSystem P).Reachable s -> s.client = .finished ->
        s.responses.popped.map Receipt.bytes =
          (List.range P.calls).map fun i => P.respond (P.request i) := by
  rcases createHeader_ok hcreate with ⟨n, hsizes, hheader⟩
  have hn : P.header.queueSize = n := by
    rw [hheader]
  have hmany : 2 ≤ n := by
    rw [← hn, hcapacity]
    lia
  rcases guard_of_two_slots (by decide) hmany hsizes with ⟨hmessage, hguard⟩
  rcases exists_geometry hmessage hguard hshm hsizes with ⟨g, _, hsize, hqueue, _⟩
  have hslots : g.queueSize = c + 1 := by
    rw [hn, hqueue] at hcapacity
    lia
  have hinv : forall s, (pipelineSystem P).Reachable s -> PipelineInvariant P g s := by
    intro s hs
    refine TransitionSystem.reachableUnder_invariant ?_ ?_ hs
    · intro start hparts
      rcases hparts with ⟨requestMem, responseMem, rfl⟩
      have hstart : forall mem, WholeInvariant g (pollStart P.header mem) :=
        fun mem => pollStart_whole mem (by rw [hsize]; exact hcreate) (hn.trans hqueue)
      exact ⟨hstart _, hstart _,
        ⟨Nat.zero_le _, ⟨_, rfl⟩, rfl, ⟨_, rfl⟩, rfl⟩,
        ⟨Nat.zero_le _, ⟨_, rfl⟩, rfl, ⟨_, rfl⟩, rfl⟩⟩
    · intro t l t' ht _ hnext
      cases l with
      | client => exact clientNext_invariant hsize.symm ht hnext
      | server => exact serverNext_invariant hsize.symm ht hnext
  have htwo : 2 ≤ g.queueSize := by lia
  constructor
  · constructor
    · intro hall
      rcases hall with ⟨s, hs, hstuck⟩
      have hcalls := calls_of_stuck (hinv s hs) htwo hstuck
      lia
    · intro hcalls
      exact stuck_reachable hinv htwo (by lia)
  · intro s hs hfinished
    exact responses_of_finished (hinv s hs) hfinished

/-- Rings of two slots of four bytes, and a server that turns messages around. -/
def twoSlotPipeline (calls : Nat) : Pipeline where
  header := twoSlotHeader
  calls := calls
  request := fun _ => [1, 2, 3, 4]
  respond := List.reverse
  request_length := fun _ => rfl
  respond_length := fun _ hlength => (List.length_reverse).trans hlength

theorem pipeline_deadlock_iff_twoSlots :
    (exists s, (pipelineSystem (twoSlotPipeline 4)).Reachable s ∧ Stuck s) ∧
      ¬ exists s, (pipelineSystem (twoSlotPipeline 3)).Reachable s ∧ Stuck s := by
  have hcreate : queueCreate 48 4 = .ok (twoSlotHeader, 48) := by rfl
  have hshm : 48 < 2 ^ 31 := by decide
  have hexact : forall calls,
      (exists s, (pipelineSystem (twoSlotPipeline calls)).Reachable s ∧ Stuck s) <->
        2 * 1 + 2 ≤ calls := by
    intro calls
    have hcapacity : (twoSlotPipeline calls).header.queueSize = (1 : Nat) + 1 := rfl
    exact (pipeline_deadlock_iff hcreate hshm hcapacity (Nat.le_refl 1)).left
  constructor
  · exact (hexact 4).mpr (by decide)
  · intro hstuck
    exact absurd ((hexact 3).mp hstuck) (by decide)

end Rpc
end Notnets
