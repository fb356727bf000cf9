import Notnets.Foundation.FairSchedule
import Notnets.Rpc.Pipeline

/-!
# Pipelined calls under a fair schedule

A POLL call that waits runs through its loop without changing anything.  As long as
the two parties cannot wait for each other, every fair schedule finishes the calls.
-/

namespace Notnets
namespace Rpc

open Foundation
open Queue

/-!
# The work that is left
-/

def pushWork : PushPc -> Nat
  | .idle _ => 0
  | .copying buf _ _ _ copied => 1 + (buf.length - copied)
  | .polling buf _ _ _ => 2 + buf.length
  | .sized buf _ => 3 + buf.length
  | .entered buf => 4 + buf.length

def popWork : PopPc -> Nat
  | .idle _ => 0
  | .finishing _ _ _ => 1
  | .advanced _ _ _ => 2
  | .copying size _ buf => 3 + (size - buf.length)
  | .polling size _ => 4 + size
  | .running size => 5 + size
  | .clamped size => 6 + size
  | .entered size => 7 + size

def pollWork (s : PollState) : Nat :=
  pushWork s.producer + popWork s.consumer

section Queues

variable {g : Geometry} {q q' : PollState}

theorem pushStep_work {s : SpscQueue} {pc : PushPc} {out : PushOutcome}
    (h : pushStep s pc = some out) :
    (PushWaits s pc ∧ out = ⟨s, pc, none⟩) ∨
      (¬ PushWaits s pc ∧ pushWork out.pc < pushWork pc) := by
  cases pushMove_of_step h with
  | wait hfull => exact Or.inl ⟨hfull, rfl⟩
  | room hroom =>
      apply Or.inr
      refine ⟨hroom, ?_⟩
      simp only [pushWork]
      lia
  | copy hbyte =>
      cases List.getElem?_eq_some_iff.mp hbyte with
      | intro hlt _ =>
          apply Or.inr
          refine ⟨id, ?_⟩
          simp only [pushWork]
          lia
  | _ =>
      apply Or.inr
      refine ⟨id, ?_⟩
      simp only [pushWork]
      lia

theorem popStep_work {s : SpscQueue} {pc : PopPc} {out : PopOutcome}
    (hclamp : forall size, pc = .entered size ->
      clampSize s.header.messageSize s.header.messageOffset size ≤ size)
    (h : popStep s pc = some out) :
    (PopWaits s pc ∧ out = ⟨s, pc, none⟩) ∨
      (¬ PopWaits s pc ∧ popWork out.pc < popWork pc) := by
  cases popMove_of_step h with
  | wait hempty => exact Or.inl ⟨hempty, rfl⟩
  | message hmessage =>
      apply Or.inr
      refine ⟨hmessage, ?_⟩
      simp only [popWork, List.length_nil]
      lia
  | clamp =>
      have hle := hclamp _ rfl
      apply Or.inr
      refine ⟨id, ?_⟩
      simp only [popWork]
      lia
  | copy hmore =>
      apply Or.inr
      refine ⟨id, ?_⟩
      simp only [popWork, List.length_append, List.length_singleton]
      lia
  | _ =>
      apply Or.inr
      refine ⟨id, ?_⟩
      simp only [popWork]
      lia

theorem pollNext_producer_work (h : pollNext q .producer = some q') :
    (PushWaits q.queue q.producer ∧ q' = q) ∨
      (¬ PushWaits q.queue q.producer ∧ pollWork q' < pollWork q) := by
  rcases pollNext_producer h with ⟨out, hout, rfl⟩
  rcases pushStep_work hout with ⟨hwaits, rfl⟩ | ⟨hruns, hlower⟩
  · apply Or.inl
    refine ⟨hwaits, ?_⟩
    simp [PollState.afterPush]
  · exact Or.inr ⟨hruns, Nat.add_lt_add_right hlower _⟩

theorem pollNext_consumer_work (hq : WholeInvariant g q)
    (h : pollNext q .consumer = some q') :
    (PopWaits q.queue q.consumer ∧ q' = q) ∨
      (¬ PopWaits q.queue q.consumer ∧ pollWork q' < pollWork q) := by
  have hclamp : forall size, q.consumer = .entered size ->
      clampSize q.queue.header.messageSize q.queue.header.messageOffset size ≤ size := by
    intro size hpc
    have hoffset := hq.invariant.left.consumer
    have hwhole := hq.consumer
    rw [hpc] at hoffset hwhole
    have hsize : size = g.messageSize := hwhole
    rw [hoffset.left, hq.position_eq, Nat.mul_mod_left, hq.header.messageSize, hsize]
    exact Nat.le_of_eq (clampSize_whole g)
  rcases pollNext_consumer h with ⟨out, hout, rfl⟩
  rcases popStep_work hclamp hout with ⟨hwaits, rfl⟩ | ⟨hruns, hlower⟩
  · apply Or.inl
    refine ⟨hwaits, ?_⟩
    simp [PollState.afterPop]
  · exact Or.inr ⟨hruns, Nat.add_lt_add_left hlower _⟩

theorem pollWork_of_push {buf : List Byte} (h : pollNext q (.push buf) = some q') :
    pollWork q' = pollWork q + buf.length + 4 := by
  rcases pollNext_push h with ⟨⟨ret, hidle⟩, rfl⟩
  simp only [pollWork, hidle, pushWork]
  lia

theorem pollWork_of_pop {size : Nat} (h : pollNext q (.pop size) = some q') :
    pollWork q' = pollWork q + size + 7 := by
  rcases pollNext_pop h with ⟨⟨last, hidle⟩, rfl⟩
  simp only [pollWork, hidle, popWork]
  lia

theorem pushStep_some {s : SpscQueue} {pc : PushPc} (hrun : ¬ PushIdle pc) :
    exists out, pushStep s pc = some out := by
  cases pc with
  | idle ret => exact absurd ⟨ret, rfl⟩ hrun
  | entered buf =>
      simp only [pushStep]
      split
      · exact ⟨_, rfl⟩
      · exact ⟨_, rfl⟩
  | sized buf messageSize => exact ⟨_, rfl⟩
  | polling buf messageSize writerHead nextWriterHead =>
      simp only [pushStep]
      split
      · exact ⟨_, rfl⟩
      · exact ⟨_, rfl⟩
  | copying buf messageSize writerHead nextWriterHead copied =>
      simp only [pushStep]
      split
      · exact ⟨_, rfl⟩
      · exact ⟨_, rfl⟩

theorem popStep_some {s : SpscQueue} {pc : PopPc} (hrun : ¬ PopIdle pc) :
    exists out, popStep s pc = some out := by
  cases pc with
  | idle last => exact absurd ⟨last, rfl⟩ hrun
  | entered size => exact ⟨_, rfl⟩
  | running size => exact ⟨_, rfl⟩
  | finishing nextReaderTail read buf => exact ⟨_, rfl⟩
  | clamped size =>
      simp only [popStep]
      split
      · exact ⟨_, rfl⟩
      · exact ⟨_, rfl⟩
  | polling size readerTail =>
      simp only [popStep]
      split
      · exact ⟨_, rfl⟩
      · exact ⟨_, rfl⟩
  | copying size readerTail buf =>
      simp only [popStep]
      split
      · exact ⟨_, rfl⟩
      · exact ⟨_, rfl⟩
  | advanced size readerTail buf =>
      simp only [popStep]
      split
      · exact ⟨_, rfl⟩
      · exact ⟨_, rfl⟩

theorem pollNext_producer_some (hrun : ¬ PushIdle q.producer) :
    exists q', pollNext q .producer = some q' := by
  cases @pushStep_some q.queue _ hrun with
  | intro out hout =>
      simp only [pollNext, hout]
      exact ⟨_, rfl⟩

theorem pollNext_consumer_some (hrun : ¬ PopIdle q.consumer) :
    exists q', pollNext q .consumer = some q' := by
  cases @popStep_some q.queue _ hrun with
  | intro out hout =>
      simp only [pollNext, hout]
      exact ⟨_, rfl⟩

end Queues

/-!
# The two parties
-/

def ClientPc.work (calls messageSize : Nat) : ClientPc -> Nat
  | .sending i =>
      (calls - i) * (messageSize + 6) + calls * (messageSize + 9) + 2
  | .pushing i =>
      (calls - (i + 1)) * (messageSize + 6) + calls * (messageSize + 9) + 3
  | .receiving i => (calls - i) * (messageSize + 9) + 1
  | .popping i => (calls - (i + 1)) * (messageSize + 9) + 2
  | .finished => 0

def ServerLoopPc.work (calls messageSize : Nat) : ServerLoopPc -> Nat
  | .receiving i => (calls - i) * (2 * messageSize + 16) + 1
  | .popping i => (calls - (i + 1)) * (2 * messageSize + 16) + messageSize + 9
  | .sending i _ => (calls - (i + 1)) * (2 * messageSize + 16) + messageSize + 8
  | .pushing i => (calls - (i + 1)) * (2 * messageSize + 16) + 2
  | .finished => 0

def PipelineState.work (P : Pipeline) (s : PipelineState) : Nat :=
  s.client.work P.calls P.header.messageSize + s.server.work P.calls P.header.messageSize +
    pollWork s.requests + pollWork s.responses

def ClientWaits (s : PipelineState) : Prop :=
  PushWaits s.requests.queue s.requests.producer ∨
    PopWaits s.responses.queue s.responses.consumer

def ServerWaits (s : PipelineState) : Prop :=
  PopWaits s.requests.queue s.requests.consumer ∨
    PushWaits s.responses.queue s.responses.producer

section Parties

variable {P : Pipeline} {g : Geometry} {s s' : PipelineState}

theorem clientNext_work (hs : PipelineInvariant P g s) (h : clientNext P s = some s') :
    (ClientWaits s ∧ s' = s) ∨ s'.work P < s.work P := by
  cases hpc : s.client with
  | sending i =>
      simp only [clientNext, hpc] at h
      split at h
      · rename_i hlt
        rcases Option.map_eq_some_iff.mp h with ⟨q, hq, rfl⟩
        have hadds := pollWork_of_push hq
        have hleft := calls_left (P.header.messageSize + 6) hlt
        rw [P.request_length] at hadds
        apply Or.inr
        simp only [PipelineState.work, hpc, ClientPc.work]
        lia
      · cases h
        apply Or.inr
        simp only [PipelineState.work, hpc, ClientPc.work, Nat.sub_zero]
        lia
  | pushing i =>
      simp only [clientNext, hpc] at h
      split at h
      · cases h
        apply Or.inr
        simp only [PipelineState.work, hpc, ClientPc.work]
        lia
      · rcases Option.map_eq_some_iff.mp h with ⟨q, hq, rfl⟩
        cases pollNext_producer_work hq with
        | inl hwaits =>
            rw [hwaits.right, ← hpc]
            exact Or.inl ⟨Or.inl hwaits.left, rfl⟩
        | inr hruns =>
            have hlower := hruns.right
            apply Or.inr
            simp only [PipelineState.work, hpc]
            lia
  | receiving i =>
      simp only [clientNext, hpc] at h
      split at h
      · rename_i hlt
        rcases Option.map_eq_some_iff.mp h with ⟨q, hq, rfl⟩
        have hadds := pollWork_of_pop hq
        have hleft := calls_left (P.header.messageSize + 9) hlt
        apply Or.inr
        simp only [PipelineState.work, hpc, ClientPc.work]
        lia
      · cases h
        apply Or.inr
        simp only [PipelineState.work, hpc, ClientPc.work]
        lia
  | popping i =>
      simp only [clientNext, hpc] at h
      split at h
      · cases h
        apply Or.inr
        simp only [PipelineState.work, hpc, ClientPc.work]
        lia
      · rcases Option.map_eq_some_iff.mp h with ⟨q, hq, rfl⟩
        cases pollNext_consumer_work hs.responses hq with
        | inl hwaits =>
            rw [hwaits.right, ← hpc]
            exact Or.inl ⟨Or.inr hwaits.left, rfl⟩
        | inr hruns =>
            have hlower := hruns.right
            apply Or.inr
            simp only [PipelineState.work, hpc]
            lia
  | finished =>
      simp only [clientNext, hpc] at h
      cases h

theorem serverNext_work (hs : PipelineInvariant P g s) (h : serverNext P s = some s') :
    (ServerWaits s ∧ s' = s) ∨ s'.work P < s.work P := by
  have hat := hs.server
  cases hpc : s.server with
  | receiving i =>
      simp only [serverNext, hpc] at h
      split at h
      · rename_i hlt
        rcases Option.map_eq_some_iff.mp h with ⟨q, hq, rfl⟩
        have hadds := pollWork_of_pop hq
        have hleft := calls_left (2 * P.header.messageSize + 16) hlt
        apply Or.inr
        simp only [PipelineState.work, hpc, ServerLoopPc.work]
        lia
      · cases h
        apply Or.inr
        simp only [PipelineState.work, hpc, ServerLoopPc.work]
        lia
  | popping i =>
      simp only [serverNext, hpc] at h
      split at h
      · cases h
        apply Or.inr
        simp only [PipelineState.work, hpc, ServerLoopPc.work]
        lia
      · cases h
      · rcases Option.map_eq_some_iff.mp h with ⟨q, hq, rfl⟩
        cases pollNext_consumer_work hs.requests hq with
        | inl hwaits =>
            rw [hwaits.right, ← hpc]
            exact Or.inl ⟨Or.inl hwaits.left, rfl⟩
        | inr hruns =>
            have hlower := hruns.right
            apply Or.inr
            simp only [PipelineState.work, hpc]
            lia
  | sending i message =>
      rw [hpc] at hat
      simp only [serverNext, hpc] at h
      rcases Option.map_eq_some_iff.mp h with ⟨q, hq, rfl⟩
      have hadds := pollWork_of_push hq
      have hmessage : message = P.request i := hat.right.right.right.left
      rw [hmessage, P.respond_length _ (P.request_length i)] at hadds
      apply Or.inr
      simp only [PipelineState.work, hpc, ServerLoopPc.work]
      lia
  | pushing i =>
      simp only [serverNext, hpc] at h
      split at h
      · cases h
        apply Or.inr
        simp only [PipelineState.work, hpc, ServerLoopPc.work]
        lia
      · rcases Option.map_eq_some_iff.mp h with ⟨q, hq, rfl⟩
        cases pollNext_producer_work hq with
        | inl hwaits =>
            rw [hwaits.right, ← hpc]
            exact Or.inl ⟨Or.inr hwaits.left, rfl⟩
        | inr hruns =>
            have hlower := hruns.right
            apply Or.inr
            simp only [PipelineState.work, hpc]
            lia
  | finished =>
      simp only [serverNext, hpc] at h
      cases h

theorem clientNext_some (hs : PipelineInvariant P g s) (hopen : s.client ≠ .finished) :
    exists s', clientNext P s = some s' := by
  have hat := hs.client
  cases hpc : s.client with
  | sending i =>
      rw [hpc] at hat
      rcases hat.right.left with ⟨ret, hidle⟩
      simp only [clientNext, hpc]
      split
      · simp only [pollNext, hidle]
        exact ⟨_, rfl⟩
      · exact ⟨_, rfl⟩
  | pushing i =>
      simp only [clientNext, hpc]
      split
      · exact ⟨_, rfl⟩
      · rename_i hrun
        have hbusy : ¬ PushIdle s.requests.producer :=
          fun hidle => hrun hidle.choose hidle.choose_spec
        rcases pollNext_producer_some hbusy with ⟨q, hq⟩
        rw [hq]
        exact ⟨_, rfl⟩
  | receiving i =>
      rw [hpc] at hat
      rcases hat.right.right.right.left with ⟨last, hidle⟩
      simp only [clientNext, hpc]
      split
      · simp only [pollNext, hidle]
        exact ⟨_, rfl⟩
      · exact ⟨_, rfl⟩
  | popping i =>
      simp only [clientNext, hpc]
      split
      · exact ⟨_, rfl⟩
      · rename_i hrun
        have hbusy : ¬ PopIdle s.responses.consumer :=
          fun hidle => hrun hidle.choose hidle.choose_spec
        rcases pollNext_consumer_some hbusy with ⟨q, hq⟩
        rw [hq]
        exact ⟨_, rfl⟩
  | finished => exact absurd hpc hopen

theorem serverNext_some (hs : PipelineInvariant P g s) (hopen : s.server ≠ .finished) :
    exists s', serverNext P s = some s' := by
  have hat := hs.server
  cases hpc : s.server with
  | receiving i =>
      rw [hpc] at hat
      rcases hat.right.left with ⟨last, hidle⟩
      simp only [serverNext, hpc]
      split
      · simp only [pollNext, hidle]
        exact ⟨_, rfl⟩
      · exact ⟨_, rfl⟩
  | popping i =>
      rw [hpc] at hat
      have hcall := hat.right.left
      simp only [serverNext, hpc]
      split
      · exact ⟨_, rfl⟩
      · rename_i hidle
        rw [hidle] at hcall
        rcases receipt_of_popCall hcall with ⟨r, hr⟩
        cases hr
      · rename_i hsome hnone
        have hbusy : ¬ PopIdle s.requests.consumer := by
          intro hidle
          rcases hidle with ⟨last, hidle⟩
          cases last with
          | none => exact hnone hidle
          | some r => exact hsome r hidle
        rcases pollNext_consumer_some hbusy with ⟨q, hq⟩
        rw [hq]
        exact ⟨_, rfl⟩
  | sending i message =>
      rw [hpc] at hat
      rcases hat.right.right.right.right.left with ⟨ret, hidle⟩
      simp only [serverNext, hpc, pollNext, hidle]
      exact ⟨_, rfl⟩
  | pushing i =>
      simp only [serverNext, hpc]
      split
      · exact ⟨_, rfl⟩
      · rename_i hrun
        have hbusy : ¬ PushIdle s.responses.producer :=
          fun hidle => hrun hidle.choose hidle.choose_spec
        rcases pollNext_producer_some hbusy with ⟨q, hq⟩
        rw [hq]
        exact ⟨_, rfl⟩
  | finished => exact absurd hpc hopen

/-- A client that waits does not wait for a server that has finished. -/
theorem server_open_of_clientWaits (hs : PipelineInvariant P g s) (htwo : 2 ≤ g.queueSize)
    (hwaits : ClientWaits s) : s.server ≠ .finished := by
  intro hfinished
  have hserver := hs.server
  rw [hfinished] at hserver
  rcases hserver with ⟨_, hpopped, _, hpushed⟩
  cases hwaits with
  | inl hpush =>
      have hfull := hs.requests.pushed_of_pushWaits hpush
      have hclient := clientAt_pushWaits hs.client hpush
      lia
  | inr hpop =>
      have hempty := hs.responses.pushed_of_popWaits hpop
      have hclient := clientAt_popWaits hs.client hpop
      rw [hpushed, List.length_map, List.length_range] at hempty
      lia

theorem serverAt_pushWaits_lt {consumer : PopPc} {popped : List Receipt}
    {producer : PushPc} {pushed : List (List Byte)} {pc : ServerLoopPc} {q : SpscQueue}
    (h : ServerAt P consumer popped producer pushed pc) (hwaits : PushWaits q producer) :
    pushed.length < P.calls := by
  have hidle := not_idle_of_pushWaits hwaits
  cases pc with
  | receiving i => exact absurd h.right.right.right.left hidle
  | popping i => exact absurd h.right.right.left hidle
  | sending i message => exact absurd h.right.right.right.right.left hidle
  | pushing i =>
      rcases h with ⟨hlt, _, _, hcall⟩
      rw [pushed_of_call hcall hwaits]
      exact hlt
  | finished => exact absurd h.right.right.left hidle

theorem client_open_of_serverWaits (hs : PipelineInvariant P g s) (htwo : 2 ≤ g.queueSize)
    (hwaits : ServerWaits s) : s.client ≠ .finished := by
  intro hfinished
  have hclient := hs.client
  rw [hfinished] at hclient
  rcases hclient with ⟨_, hpushed, _, hpopped⟩
  cases hwaits with
  | inl hpop =>
      have hempty := hs.requests.pushed_of_popWaits hpop
      have hserver := serverAt_popWaits hs.server hpop
      rw [hpushed, List.length_map, List.length_range] at hempty
      lia
  | inr hpush =>
      have hfull := hs.responses.pushed_of_pushWaits hpush
      have hmore := serverAt_pushWaits_lt hs.server hpush
      lia

def BothFinished (s : PipelineState) : Prop :=
  s.client = .finished ∧ s.server = .finished

/-- Someone gets on as long as a program is not at its end and the parties do not
wait for each other. -/
theorem pipeline_progress (hs : PipelineInvariant P g s) (htwo : 2 ≤ g.queueSize)
    (hopen : ¬ BothFinished s) (hfree : ¬ Stuck s) :
    exists l s', (pipelineSystem P).next s l = some s' ∧ s'.work P < s.work P := by
  cases Decidable.em (s.client = .finished) with
  | inl hclient =>
      have hserver : s.server ≠ .finished := fun h => hopen ⟨hclient, h⟩
      rcases serverNext_some hs hserver with ⟨s', hnext⟩
      cases serverNext_work hs hnext with
      | inl hwaits => exact absurd hclient (client_open_of_serverWaits hs htwo hwaits.left)
      | inr hlower => exact ⟨.server, s', hnext, hlower⟩
  | inr hclient =>
      rcases clientNext_some hs hclient with ⟨s', hnext⟩
      cases clientNext_work hs hnext with
      | inr hlower => exact ⟨.client, s', hnext, hlower⟩
      | inl hwaits =>
          have hserver := server_open_of_clientWaits hs htwo hwaits.left
          rcases serverNext_some hs hserver with ⟨s', hnext'⟩
          cases serverNext_work hs hnext' with
          | inr hlower => exact ⟨.server, s', hnext', hlower⟩
          | inl hboth => exact absurd ⟨hwaits.left, hboth.left⟩ hfree

theorem pipelineNext_work {l : PipelineLabel} (hs : PipelineInvariant P g s)
    (h : (pipelineSystem P).next s l = some s') : s' = s ∨ s'.work P < s.work P := by
  cases l with
  | client =>
      cases clientNext_work hs h with
      | inl hwaits => exact Or.inl hwaits.right
      | inr hlower => exact Or.inr hlower
  | server =>
      cases serverNext_work hs h with
      | inl hwaits => exact Or.inl hwaits.right
      | inr hlower => exact Or.inr hlower

theorem pipelineNext_bothFinished (h : BothFinished s) (l : PipelineLabel) :
    (pipelineSystem P).next s l = none := by
  cases l with
  | client =>
      show clientNext P s = none
      simp only [clientNext, h.left]
  | server =>
      show serverNext P s = none
      simp only [serverNext, h.right]

theorem clientNext_waits (hs : PipelineInvariant P g s) (hwaits : ClientWaits s)
    (h : clientNext P s = some s') : s' = s := by
  have hat := hs.client
  cases hwaits with
  | inl hpush =>
      have hidle := not_idle_of_pushWaits hpush
      cases hpc : s.client with
      | pushing i =>
          simp only [clientNext, hpc] at h
          split at h
          · rename_i hret
            exact absurd ⟨_, hret⟩ hidle
          · rcases Option.map_eq_some_iff.mp h with ⟨q, hq, rfl⟩
            cases pollNext_producer_work hq with
            | inl hsame => rw [hsame.right, ← hpc]
            | inr hruns => exact absurd hpush hruns.left
      | sending i =>
          rw [hpc] at hat
          exact absurd hat.right.left hidle
      | receiving i =>
          rw [hpc] at hat
          exact absurd hat.right.left hidle
      | popping i =>
          rw [hpc] at hat
          exact absurd hat.right.left hidle
      | finished =>
          rw [hpc] at hat
          exact absurd hat.left hidle
  | inr hpop =>
      have hidle := not_idle_of_popWaits hpop
      cases hpc : s.client with
      | popping i =>
          simp only [clientNext, hpc] at h
          split at h
          · rename_i hlast
            exact absurd ⟨_, hlast⟩ hidle
          · rcases Option.map_eq_some_iff.mp h with ⟨q, hq, rfl⟩
            cases pollNext_consumer_work hs.responses hq with
            | inl hsame => rw [hsame.right, ← hpc]
            | inr hruns => exact absurd hpop hruns.left
      | sending i =>
          rw [hpc] at hat
          exact absurd hat.right.right.right.left hidle
      | pushing i =>
          rw [hpc] at hat
          exact absurd hat.right.right.left hidle
      | receiving i =>
          rw [hpc] at hat
          exact absurd hat.right.right.right.left hidle
      | finished =>
          rw [hpc] at hat
          exact absurd hat.right.right.left hidle

theorem serverNext_waits (hs : PipelineInvariant P g s) (hwaits : ServerWaits s)
    (h : serverNext P s = some s') : s' = s := by
  have hat := hs.server
  cases hwaits with
  | inl hpop =>
      have hidle := not_idle_of_popWaits hpop
      cases hpc : s.server with
      | popping i =>
          simp only [serverNext, hpc] at h
          split at h
          · rename_i hlast
            exact absurd ⟨_, hlast⟩ hidle
          · cases h
          · rcases Option.map_eq_some_iff.mp h with ⟨q, hq, rfl⟩
            cases pollNext_consumer_work hs.requests hq with
            | inl hsame => rw [hsame.right, ← hpc]
            | inr hruns => exact absurd hpop hruns.left
      | receiving i =>
          rw [hpc] at hat
          exact absurd hat.right.left hidle
      | sending i message =>
          rw [hpc] at hat
          exact absurd hat.right.left hidle
      | pushing i =>
          rw [hpc] at hat
          exact absurd hat.right.left hidle
      | finished =>
          rw [hpc] at hat
          exact absurd hat.left hidle
  | inr hpush =>
      have hidle := not_idle_of_pushWaits hpush
      cases hpc : s.server with
      | pushing i =>
          simp only [serverNext, hpc] at h
          split at h
          · rename_i hret
            exact absurd ⟨_, hret⟩ hidle
          · rcases Option.map_eq_some_iff.mp h with ⟨q, hq, rfl⟩
            cases pollNext_producer_work hq with
            | inl hsame => rw [hsame.right, ← hpc]
            | inr hruns => exact absurd hpush hruns.left
      | receiving i =>
          rw [hpc] at hat
          exact absurd hat.right.right.right.left hidle
      | popping i =>
          rw [hpc] at hat
          exact absurd hat.right.right.left hidle
      | sending i message =>
          rw [hpc] at hat
          exact absurd hat.right.right.right.right.left hidle
      | finished =>
          rw [hpc] at hat
          exact absurd hat.right.right.left hidle

theorem pipelineNext_stuck (hs : PipelineInvariant P g s) (htwo : 2 ≤ g.queueSize)
    (hstuck : Stuck s) (l : PipelineLabel) : (pipelineSystem P).next s l = some s := by
  cases l with
  | client =>
      rcases clientNext_some hs (client_open_of_serverWaits hs htwo hstuck.right) with
        ⟨s', hnext⟩
      have hsame := clientNext_waits hs hstuck.left hnext
      rw [hsame] at hnext
      exact hnext
  | server =>
      rcases serverNext_some hs (server_open_of_clientWaits hs htwo hstuck.left) with
        ⟨s', hnext⟩
      have hsame := serverNext_waits hs hstuck.right hnext
      rw [hsame] at hnext
      exact hnext

end Parties

section Created

variable {P : Pipeline} {g : Geometry} {s s' start : PipelineState} {c : Nat}

theorem pipelineStart_invariant {shmSize : Nat} {usable : Int}
    (hcreate : queueCreate shmSize P.header.messageSize = .ok (P.header, usable))
    (hsize : P.header.messageSize = g.messageSize)
    (hqueue : P.header.queueSize = g.queueSize)
    (hstart : (pipelineSystem P).Initial start) : PipelineInvariant P g start := by
  rcases hstart with ⟨requestMem, responseMem, rfl⟩
  have hqueues : forall mem, WholeInvariant g (pollStart P.header mem) :=
    fun mem => pollStart_whole mem (by rw [← hsize]; exact hcreate) hqueue
  exact ⟨hqueues _, hqueues _,
    ⟨Nat.zero_le _, ⟨_, rfl⟩, rfl, ⟨_, rfl⟩, rfl⟩,
    ⟨Nat.zero_le _, ⟨_, rfl⟩, rfl, ⟨_, rfl⟩, rfl⟩⟩

theorem pipelineNext_invariant {l : PipelineLabel}
    (hsize : P.header.messageSize = g.messageSize) (hs : PipelineInvariant P g s)
    (h : (pipelineSystem P).next s l = some s') : PipelineInvariant P g s' := by
  cases l with
  | client => exact clientNext_invariant hsize hs h
  | server => exact serverNext_invariant hsize hs h

theorem pipelineStart_work (hstart : (pipelineSystem P).Initial start) :
    start.work P = P.calls * (4 * P.header.messageSize + 31) + 3 := by
  rcases hstart with ⟨requestMem, responseMem, rfl⟩
  simp only [PipelineState.work, ClientPc.work, ServerLoopPc.work, pollWork, pollStart,
    pushWork, popWork, Nat.sub_zero]
  ring

end Created

section Fair

variable {P : Pipeline} {g : Geometry} {start s : PipelineState} {steps : Nat}
  {trace : List (Transition PipelineState PipelineLabel)}

theorem pipelineRun_invariant (hsize : P.header.messageSize = g.messageSize)
    (hstart : PipelineInvariant P g start) (hrun : (pipelineSystem P).Run start trace s) :
    PipelineInvariant P g s := by
  have hkeeps : forall s l s', PipelineInvariant P g s -> True ->
      (pipelineSystem P).next s l = some s' -> PipelineInvariant P g s' :=
    fun s l s' hs _ hnext => pipelineNext_invariant hsize hs hnext
  exact TransitionSystem.run_invariant hkeeps hrun (fun _ _ => trivial) hstart

theorem pipeline_length_of_fair (hsize : P.header.messageSize = g.messageSize)
    (htwo : 2 ≤ g.queueSize) (hcalls : P.calls < 2 * g.queueSize)
    (hstart : PipelineInvariant P g start) (hrun : (pipelineSystem P).Run start trace s)
    (hfair : (pipelineSystem P).FairWithin steps trace) :
    trace.length ≤ start.work P * steps := by
  have hkeeps : forall s l s', PipelineInvariant P g s ->
      (pipelineSystem P).next s l = some s' -> PipelineInvariant P g s' :=
    fun s l s' hs hnext => pipelineNext_invariant hsize hs hnext
  have hlowers : forall s l s', PipelineInvariant P g s ->
      (pipelineSystem P).next s l = some s' -> s' = s ∨ s'.work P < s.work P :=
    fun s l s' hs hnext => pipelineNext_work hs hnext
  have hprogress : forall s, PipelineInvariant P g s -> ¬ BothFinished s ->
      exists l s', (pipelineSystem P).next s l = some s' ∧ s'.work P < s.work P := by
    intro t ht hopen
    apply pipeline_progress ht htwo hopen
    intro hstuck
    have hmany := calls_of_stuck ht htwo hstuck
    lia
  exact hrun.length_le_of_fair hkeeps hlowers hprogress
    (fun _ l _ hdone => pipelineNext_bothFinished hdone l) hstart hfair

theorem bothFinished_of_halted (hs : PipelineInvariant P g s)
    (h : forall l, (pipelineSystem P).next s l = none) : BothFinished s := by
  constructor
  · by_contra hopen
    rcases clientNext_some hs hopen with ⟨s', hnext⟩
    have hnone : clientNext P s = none := h .client
    rw [hnone] at hnext
    cases hnext
  · by_contra hopen
    rcases serverNext_some hs hopen with ⟨s', hnext⟩
    have hnone : serverNext P s = none := h .server
    rw [hnone] at hnext
    cases hnext

def takingTurns (i : Nat) : PipelineLabel :=
  if i % 2 = 0 then .client else .server

theorem takingTurns_fair (k : Nat) (l : PipelineLabel) :
    exists j, k ≤ j ∧ j < k + 2 ∧ takingTurns j = l := by
  cases Nat.mod_two_eq_zero_or_one k with
  | inl heven =>
      have hodd : (k + 1) % 2 ≠ 0 := by lia
      cases l with
      | client => exact ⟨k, Nat.le_refl k, by lia, if_pos heven⟩
      | server => exact ⟨k + 1, by lia, by lia, if_neg hodd⟩
  | inr hodd =>
      have heven : (k + 1) % 2 = 0 := by lia
      cases l with
      | client => exact ⟨k + 1, by lia, by lia, if_pos heven⟩
      | server => exact ⟨k, Nat.le_refl k, by lia, if_neg (by lia)⟩

end Fair

/--
With at most `2 * c + 1` calls on rings of `c` usable slots, a schedule that passes
nobody over for `steps` steps in a row is at its end after a bounded number of steps,
and there the client has the responses to its requests, in order.
-/
theorem pipeline_finishes {P : Pipeline} {shmSize c steps : Nat} {usable : Int}
    {start s : PipelineState} {trace : List (Transition PipelineState PipelineLabel)}
    (hcreate : queueCreate shmSize P.header.messageSize = .ok (P.header, usable))
    (hshm : shmSize < 2 ^ 31) (hcapacity : P.header.queueSize = c + 1) (hc : 1 ≤ c)
    (hcalls : P.calls ≤ 2 * c + 1) (hstart : (pipelineSystem P).Initial start)
    (hrun : (pipelineSystem P).Run start trace s)
    (hfair : (pipelineSystem P).FairWithin steps trace) :
    trace.length ≤ (P.calls * (4 * P.header.messageSize + 31) + 3) * steps ∧
      ((forall l, (pipelineSystem P).next s l = none) ->
        s.client = .finished ∧ s.server = .finished ∧
          s.responses.popped.map Receipt.bytes =
            (List.range P.calls).map fun i => P.respond (P.request i)) := by
  rcases createHeader_geometry (by decide) hcreate hshm hcapacity hc with
    ⟨g, hsize, hqueue, hslots⟩
  have hinitial : PipelineInvariant P g start :=
    pipelineStart_invariant hcreate hsize hqueue hstart
  have hs := pipelineRun_invariant hsize hinitial hrun
  constructor
  · have hlength := pipeline_length_of_fair hsize (by lia) (by lia) hinitial hrun hfair
    rw [pipelineStart_work hstart] at hlength
    exact hlength
  · intro hhalted
    have hdone := bothFinished_of_halted hs hhalted
    exact ⟨hdone.left, hdone.right, responses_of_finished hs hdone.left⟩

/-- The two sides take turns, until only the client has something to do. -/
def oneCallTurns : List PipelineLabel :=
  (List.replicate 28 [.server, .client]).flatten ++ List.replicate 8 .client ++ [.server]

theorem oneCallTurns_fair :
    forall k, k < 56 -> forall l, l ∈ (oneCallTurns.drop k).take 10 := by
  intro k hk l
  cases l with
  | client => revert k; decide
  | server => revert k; decide

theorem pipeline_finishes_oneCall :
    exists start trace s, (pipelineSystem (twoSlotPipeline 1)).Run start trace s ∧
      trace.map Transition.label = oneCallTurns ∧ trace.length ≤ 500 ∧
        s.client = .finished ∧ s.server = .finished ∧
          s.responses.popped.map Receipt.bytes = [[4, 3, 2, 1]] := by
  let start : PipelineState :=
    { requests := pollStart twoSlotHeader (fun _ => 0)
      responses := pollStart twoSlotHeader (fun _ => 0)
      client := .sending 0
      server := .receiving 0 }
  have hcreate : queueCreate 48 4 = .ok (twoSlotHeader, 48) := by rfl
  have hcapacity : (twoSlotPipeline 1).header.queueSize = (1 : Nat) + 1 := rfl
  have hends : ((pipelineSystem (twoSlotPipeline 1)).execute start oneCallTurns).map
      (fun s => (s.client, s.server)) = some (.finished, .finished) := by
    decide +kernel
  rcases Option.map_eq_some_iff.mp hends with ⟨s, hexec, hpair⟩
  injection hpair with hclient hserver
  have hallowed : forall l, l ∈ oneCallTurns -> True := fun _ _ => trivial
  rcases TransitionSystem.exists_run_of_execute hexec hallowed with
    ⟨trace, hrun, hlabels, _⟩
  have hlength : trace.length = 65 := by
    rw [← List.length_map Transition.label, hlabels]
    rfl
  have hfair : (pipelineSystem (twoSlotPipeline 1)).FairWithin 10 trace := by
    apply TransitionSystem.fairWithin_of_labels
    intro k hk l
    rw [hlabels]
    exact oneCallTurns_fair k (by lia) l
  have hall := pipeline_finishes hcreate (by decide) hcapacity (Nat.le_refl 1) (by decide)
    ⟨_, _, rfl⟩ hrun hfair
  have hdone := hall.right (pipelineNext_bothFinished ⟨hclient, hserver⟩)
  exact ⟨start, trace, s, hrun, hlabels, hall.left, hdone⟩

/--
Fairness bounds the schedules exactly up to this number of calls.  With more, the two
loops can take turns for ever.
-/
theorem pipeline_fair_iff {P : Pipeline} {shmSize c : Nat} {usable : Int}
    (hcreate : queueCreate shmSize P.header.messageSize = .ok (P.header, usable))
    (hshm : shmSize < 2 ^ 31) (hcapacity : P.header.queueSize = c + 1) (hc : 1 ≤ c) :
    (forall steps, exists bound, forall start trace s, (pipelineSystem P).Initial start ->
      (pipelineSystem P).Run start trace s -> (pipelineSystem P).FairWithin steps trace ->
      trace.length ≤ bound) <-> P.calls ≤ 2 * c + 1 := by
  rcases createHeader_geometry (by decide) hcreate hshm hcapacity hc with
    ⟨g, hsize, hqueue, hslots⟩
  have htwo : 2 ≤ g.queueSize := by lia
  have hinitial : forall start, (pipelineSystem P).Initial start ->
      PipelineInvariant P g start :=
    fun _ hstart => pipelineStart_invariant hcreate hsize hqueue hstart
  constructor
  · intro hbounded
    by_contra hmany
    have hinv : forall s, (pipelineSystem P).Reachable s -> PipelineInvariant P g s := by
      intro s hs
      rcases hs with ⟨start, trace, hstart, hrun, _⟩
      exact pipelineRun_invariant hsize (hinitial start hstart) hrun
    rcases stuck_reachable hinv htwo (by lia) with ⟨s, hs, hstuck⟩
    have hstay := pipelineNext_stuck (hinv s hs) htwo hstuck
    rcases hs with ⟨start, trace, hstart, hrun, _⟩
    rcases hbounded (trace.length + 2) with ⟨bound, hbound⟩
    have hlength := hbound start _ s hstart (hrun.spin hstay (bound + 1))
      (TransitionSystem.fairWithin_spin takingTurns_fair)
    rw [List.length_append, TransitionSystem.length_spin] at hlength
    lia
  · intro hcalls steps
    refine ⟨(P.calls * (4 * P.header.messageSize + 31) + 3) * steps, ?_⟩
    intro start trace s hstart hrun hfair
    have hlength := pipeline_length_of_fair hsize htwo (by lia) (hinitial start hstart)
      hrun hfair
    rw [pipelineStart_work hstart] at hlength
    exact hlength

theorem pipeline_fair_iff_twoSlots :
    ¬ (forall steps, exists bound, forall start trace s,
        (pipelineSystem (twoSlotPipeline 4)).Initial start ->
        (pipelineSystem (twoSlotPipeline 4)).Run start trace s ->
        (pipelineSystem (twoSlotPipeline 4)).FairWithin steps trace ->
        trace.length ≤ bound) := by
  intro hbounded
  have hcreate : queueCreate 48 4 = .ok (twoSlotHeader, 48) := by rfl
  have hcapacity : (twoSlotPipeline 4).header.queueSize = (1 : Nat) + 1 := rfl
  have hcalls := (pipeline_fair_iff hcreate (by decide) hcapacity (Nat.le_refl 1)).mp
    hbounded
  exact absurd hcalls (by decide)

end Rpc
end Notnets
