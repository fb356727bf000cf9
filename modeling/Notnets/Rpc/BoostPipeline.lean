import Notnets.Foundation.Leading
import Notnets.Queue.Boost

/-!
# Calls over a BOOST connection

The client keeps at most `window` requests outstanding and the server answers each
request before it receives the next one, as over the SEM queues.  But a send does not
wait: on a full queue `boost_push` returns -1 and the message is gone, and neither party
looks at what its sends return.
-/

namespace Notnets
namespace Rpc

open Foundation
open Queue

structure BoostPipeline where
  /-- How many calls the client makes. -/
  calls : Nat
  /-- How many requests the client may send ahead of the responses. -/
  window : Nat
  /-- The client's memory when it sends the request with this number. -/
  requestMem : Nat -> ByteMemory
  requestBuf : Int
  /-- The server's memory when it answers this message. -/
  responseMem : List Byte -> ByteMemory
  responseBuf : Int
  /-- The size that both pass with their buffers. -/
  size : Nat

inductive BoostClientPc where
  /-- Between two calls, after this many requests. -/
  | deciding (sent : Nat)
  /-- In `client_receive_boost`. -/
  | popping (sent : Nat)
deriving DecidableEq, Repr

inductive BoostServerPc where
  /-- About to receive, or in `server_receive_boost`. -/
  | receiving (i : Nat)
  /-- About to call `server_send_boost` for the response to this message. -/
  | sending (i : Nat) (message : List Byte)
  | finished
deriving DecidableEq, Repr

structure BoostPipelineState (Queue : Type) where
  requests : Queue
  responses : Queue
  client : BoostClientPc
  server : BoostServerPc
  /-- What the client's receives have stored. -/
  received : List (List Byte)

inductive BoostPipelineLabel where
  /-- The client sends. -/
  | send
  /-- The client decides to receive. -/
  | receive
  /-- The receive that the client is in returns. -/
  | client
  | server
deriving DecidableEq, Repr

section System

variable {Queue : Type} (fifo : BoundedFifo Queue BufferWrapper queueCapacity)
  (P : BoostPipeline)

def boostClientSend (s : BoostPipelineState Queue) :
    Option (BoostPipelineState Queue) :=
  match s.client with
  | .deciding sent =>
      if sent < P.calls ∧ sent < s.received.length + P.window then
        let pushed := boostPush fifo s.requests (P.requestMem sent) P.requestBuf P.size
        some { s with requests := pushed.1, client := .deciding (sent + 1) }
      else
        none
  | .popping _ => none

def boostClientReceive (s : BoostPipelineState Queue) :
    Option (BoostPipelineState Queue) :=
  match s.client with
  | .deciding sent =>
      if s.received.length < sent then
        some { s with client := .popping sent }
      else
        none
  | .popping _ => none

def boostClientStep (s : BoostPipelineState Queue) :
    Option (BoostPipelineState Queue) :=
  match s.client with
  | .popping sent =>
      (boostPop fifo s.responses P.size).map fun popped =>
        { s with
          responses := popped.1
          client := .deciding sent
          received := s.received ++ [popped.2.bytes] }
  | .deciding _ => none

def boostServerStep (s : BoostPipelineState Queue) :
    Option (BoostPipelineState Queue) :=
  match s.server with
  | .receiving i =>
      if i < P.calls then
        (boostPop fifo s.requests P.size).map fun popped =>
          { s with requests := popped.1, server := .sending i popped.2.bytes }
      else
        some { s with server := .finished }
  | .sending i message =>
      let pushed :=
        boostPush fifo s.responses (P.responseMem message) P.responseBuf P.size
      some { s with responses := pushed.1, server := .receiving (i + 1) }
  | .finished => none

def boostPipelineNext (s : BoostPipelineState Queue) :
    BoostPipelineLabel -> Option (BoostPipelineState Queue)
  | .send => boostClientSend fifo P s
  | .receive => boostClientReceive s
  | .client => boostClientStep fifo P s
  | .server => boostServerStep fifo P s

/-- The client and the server on two queues that were just constructed. -/
def boostPipelineSystem :
    TransitionSystem (BoostPipelineState Queue) BoostPipelineLabel where
  Initial s := fifo.contents s.requests = [] ∧ fifo.contents s.responses = [] ∧
    s.client = .deciding 0 ∧ s.server = .receiving 0 ∧ s.received = []
  next := boostPipelineNext fifo P

end System

namespace BoostPipeline

variable (P : BoostPipeline)

def request (i : Nat) : BufferWrapper :=
  .read (P.requestMem i) P.requestBuf

def respond (message : List Byte) : BufferWrapper :=
  .read (P.responseMem message) P.responseBuf

def answer (i : Nat) : List Byte :=
  (P.respond (P.request i).buf).buf

def answers (n : Nat) : List (List Byte) :=
  (List.range n).map P.answer

/-- The client has the response to each of its requests. -/
def Answered {Queue : Type} (s : BoostPipelineState Queue) : Prop :=
  s.received = P.answers P.calls

end BoostPipeline

/-- The client misses a response, and nobody has a next step. -/
def BoostStuck {Queue : Type} (fifo : BoundedFifo Queue BufferWrapper queueCapacity)
    (P : BoostPipeline) (s : BoostPipelineState Queue) : Prop :=
  ¬ P.Answered s ∧ forall l, (boostPipelineSystem fifo P).next s l = none

/-!
# The moves

What each step does to the contents of the two queues.
-/

section Moves

variable {Queue : Type} (fifo : BoundedFifo Queue BufferWrapper queueCapacity)
  (P : BoostPipeline)

def Offered (q : Queue) (t : BufferWrapper) (q' : Queue) : Prop :=
  ((fifo.contents q).length < queueCapacity ∧
      fifo.contents q' = fifo.contents q ++ [t]) ∨
    (queueCapacity ≤ (fifo.contents q).length ∧ fifo.contents q' = fifo.contents q)

inductive BoostMove (s : BoostPipelineState Queue) : BoostPipelineState Queue -> Prop where
  | send (n : Nat) (q : Queue) :
      s.client = .deciding n -> n < P.calls -> n < s.received.length + P.window ->
      Offered fifo s.requests (P.request n) q ->
      BoostMove s { s with requests := q, client := .deciding (n + 1) }
  | receive (n : Nat) :
      s.client = .deciding n -> s.received.length < n ->
      BoostMove s { s with client := .popping n }
  | take (n : Nat) (t : BufferWrapper) (q : Queue) :
      s.client = .popping n -> fifo.contents s.responses = t :: fifo.contents q ->
      BoostMove s
        { s with responses := q, client := .deciding n, received := s.received ++ [t.buf] }
  | serve (i : Nat) (t : BufferWrapper) (q : Queue) :
      s.server = .receiving i -> i < P.calls ->
      fifo.contents s.requests = t :: fifo.contents q ->
      BoostMove s { s with requests := q, server := .sending i t.buf }
  | respond (i : Nat) (message : List Byte) (q : Queue) :
      s.server = .sending i message ->
      Offered fifo s.responses (P.respond message) q ->
      BoostMove s { s with responses := q, server := .receiving (i + 1) }
  | finish (i : Nat) :
      s.server = .receiving i -> P.calls ≤ i ->
      BoostMove s { s with server := .finished }

end Moves

section Step

variable {Queue : Type} {fifo : BoundedFifo Queue BufferWrapper queueCapacity}
  {P : BoostPipeline} {s s' : BoostPipelineState Queue}

theorem boostPush_offered (q : Queue) (mem : ByteMemory) (buf : Int) (size : Nat) :
    Offered fifo q (.read mem buf) (boostPush fifo q mem buf size).1 := by
  cases Nat.lt_or_ge (fifo.contents q).length queueCapacity with
  | inl hroom =>
      have hpush := @boostPush_room Queue fifo ⟨q, []⟩ mem buf size hroom
      exact Or.inl ⟨hroom, hpush.right⟩
  | inr hfull =>
      have hpush := @boostPush_full Queue fifo ⟨q, []⟩ mem buf size (Nat.not_lt.mpr hfull)
      apply Or.inr
      constructor
      · exact hfull
      · exact congrArg (fun pushed => fifo.contents pushed.1) hpush

theorem boostPop_some {q q' : Queue} {size : Nat} {r : Receipt}
    (h : boostPop fifo q size = some (q', r)) :
    exists t, fifo.contents q = t :: fifo.contents q' ∧ r.bytes = t.buf := by
  cases hcontents : fifo.contents q with
  | nil =>
      have hnone := @boostPop_nil Queue fifo ⟨q, []⟩ size hcontents
      rw [hnone] at h
      cases h
  | cons t rest =>
      rcases @boostPop_cons Queue fifo ⟨q, []⟩ size t rest hcontents with
        ⟨q'', hpop, hrest⟩
      rw [hpop] at h
      cases h
      exact ⟨t, by rw [hrest], rfl⟩

theorem boostPop_isSome {q : Queue} (size : Nat) (h : fifo.contents q ≠ []) :
    exists popped, boostPop fifo q size = some popped := by
  rcases List.exists_cons_of_ne_nil h with ⟨t, rest, hcontents⟩
  rcases @boostPop_cons Queue fifo ⟨q, []⟩ size t rest hcontents with ⟨q', hpop, _⟩
  exact ⟨_, hpop⟩

theorem boostPipelineNext_move {l : BoostPipelineLabel}
    (h : boostPipelineNext fifo P s l = some s') : BoostMove fifo P s s' := by
  cases l with
  | send =>
      simp only [boostPipelineNext, boostClientSend] at h
      split at h
      · rename_i n hclient
        split at h
        · rename_i hopen
          cases h
          exact .send n _ hclient hopen.left hopen.right (boostPush_offered ..)
        · cases h
      · cases h
  | receive =>
      simp only [boostPipelineNext, boostClientReceive] at h
      split at h
      · rename_i n hclient
        split at h
        · rename_i hbehind
          cases h
          exact .receive n hclient hbehind
        · cases h
      · cases h
  | client =>
      simp only [boostPipelineNext, boostClientStep] at h
      split at h
      · rename_i n hclient
        rcases Option.map_eq_some_iff.mp h with ⟨⟨q, r⟩, hpop, rfl⟩
        rcases boostPop_some hpop with ⟨t, hcontents, hbytes⟩
        simp only [hbytes]
        exact .take n t q hclient hcontents
      · cases h
  | server =>
      simp only [boostPipelineNext, boostServerStep] at h
      split at h
      · rename_i i hserver
        split at h
        · rename_i hmore
          rcases Option.map_eq_some_iff.mp h with ⟨⟨q, r⟩, hpop, rfl⟩
          rcases boostPop_some hpop with ⟨t, hcontents, hbytes⟩
          simp only [hbytes]
          exact .serve i t q hserver hmore hcontents
        · rename_i hall
          cases h
          exact .finish i hserver (Nat.not_lt.mp hall)
      · rename_i i message hserver
        cases h
        exact .respond i message _ hserver (boostPush_offered ..)
      · cases h

end Step

/-!
# The invariants

Every response that is on its way stands for one request, in the order of the requests.
Whether there is one for each request is what the window decides.
-/

def BoostClientPc.sent : BoostClientPc -> Nat
  | .deciding n => n
  | .popping n => n

def BoostServerPc.served (calls : Nat) : BoostServerPc -> Nat
  | .receiving i => i
  | .sending i _ => i
  | .finished => calls

section Invariants

variable {Queue : Type} (fifo : BoundedFifo Queue BufferWrapper queueCapacity)
  (P : BoostPipeline)

namespace BoostPipeline

def inHand : BoostServerPc -> List (List Byte)
  | .sending _ message => [(P.respond message).buf]
  | _ => []

def coming (s : BoostPipelineState Queue) : List (List Byte) :=
  s.received ++ ((fifo.contents s.responses).map BufferWrapper.buf ++
    (P.inHand s.server ++
      (fifo.contents s.requests).map fun t => (P.respond t.buf).buf))

end BoostPipeline

structure BoostInvariant (s : BoostPipelineState Queue) : Prop where
  sent_le : s.client.sent ≤ P.calls
  window : s.client.sent ≤ s.received.length + P.window
  behind : forall n, s.client = .popping n -> s.received.length < n
  coming : (P.coming fifo s).Sublist (P.answers s.client.sent)

structure BoostLossless (s : BoostPipelineState Queue) : Prop where
  invariant : BoostInvariant fifo P s
  all : (P.coming fifo s).length = s.client.sent
  served : s.server.served P.calls =
    s.received.length + (fifo.contents s.responses).length

structure BoostLossy (s : BoostPipelineState Queue) : Prop where
  invariant : BoostInvariant fifo P s
  short : (P.coming fifo s).length < s.client.sent

def boostRank (s : BoostPipelineState Queue) : Nat :=
  5 * (P.calls - s.client.sent) + 4 * (fifo.contents s.requests).length +
    3 * (P.inHand s.server).length + 2 * (fifo.contents s.responses).length +
    (match s.client with
      | .deciding _ => 1
      | .popping _ => 0) +
    (match s.server with
      | .finished => 0
      | _ => 1)

end Invariants

section Step

variable {Queue : Type} {fifo : BoundedFifo Queue BufferWrapper queueCapacity}
  {P : BoostPipeline} {s s' : BoostPipelineState Queue}

theorem length_answers (n : Nat) : (P.answers n).length = n := by
  rw [BoostPipeline.answers, List.length_map, List.length_range]

theorem answers_succ (n : Nat) : P.answers (n + 1) = P.answers n ++ [P.answer n] := by
  rw [BoostPipeline.answers, List.range_succ, List.map_append]
  rfl

theorem length_coming (s : BoostPipelineState Queue) :
    (P.coming fifo s).length =
      s.received.length + ((fifo.contents s.responses).length +
        ((P.inHand s.server).length + (fifo.contents s.requests).length)) := by
  simp only [BoostPipeline.coming, List.length_append, List.length_map]

theorem Offered.length_le {q q' : Queue} {t : BufferWrapper} (h : Offered fifo q t q') :
    (fifo.contents q').length ≤ (fifo.contents q).length + 1 := by
  cases h with
  | inl hroom => rw [hroom.right, List.length_append, List.length_singleton]
  | inr hfull =>
      rw [hfull.right]
      exact Nat.le_succ _

theorem Offered.length_room {q q' : Queue} {t : BufferWrapper} (h : Offered fifo q t q')
    (hroom : (fifo.contents q).length < queueCapacity) :
    (fifo.contents q').length = (fifo.contents q).length + 1 := by
  cases h with
  | inl hpushed => rw [hpushed.right, List.length_append, List.length_singleton]
  | inr hfull => exact absurd hroom (Nat.not_lt.mpr hfull.left)

theorem BoostMove.coming_sublist (h : BoostMove fifo P s s')
    (hs : (P.coming fifo s).Sublist (P.answers s.client.sent)) :
    (P.coming fifo s').Sublist (P.answers s'.client.sent) := by
  cases h with
  | send n q hclient hcalls hwindow hoffered =>
      simp only [hclient, BoostClientPc.sent] at hs ⊢
      rw [answers_succ]
      cases hoffered with
      | inl hroom =>
          have hcoming := hs.append (List.Sublist.refl [P.answer n])
          simpa only [BoostPipeline.coming, BoostPipeline.answer, hroom.right,
            List.map_append, List.map_cons, List.map_nil, List.append_assoc] using hcoming
      | inr hfull =>
          have hcoming := hs.trans (List.sublist_append_left _ [P.answer n])
          simpa only [BoostPipeline.coming, hfull.right] using hcoming
  | receive n hclient hbehind =>
      rw [hclient] at hs
      exact hs
  | take n t q hclient hcontents =>
      simp only [hclient, BoostClientPc.sent] at hs ⊢
      simpa only [BoostPipeline.coming, hcontents, List.map_cons, List.append_assoc,
        List.cons_append, List.nil_append] using hs
  | serve i t q hserver hmore hcontents =>
      simpa only [BoostPipeline.coming, BoostPipeline.inHand, hserver, hcontents,
        List.map_cons, List.cons_append, List.nil_append] using hs
  | respond i message q hserver hoffered =>
      cases hoffered with
      | inl hroom =>
          simpa only [BoostPipeline.coming, BoostPipeline.inHand, hserver, hroom.right,
            List.map_append, List.map_cons, List.map_nil, List.append_assoc,
            List.nil_append] using hs
      | inr hfull =>
          apply List.Sublist.trans _ hs
          simp only [BoostPipeline.coming, BoostPipeline.inHand, hserver, hfull.right,
            List.nil_append]
          apply (List.Sublist.refl _).append
          apply (List.Sublist.refl _).append
          exact List.sublist_append_right _ _
  | finish i hserver hall =>
      simpa only [BoostPipeline.coming, BoostPipeline.inHand, hserver] using hs

theorem BoostMove.invariant (h : BoostMove fifo P s s') (hs : BoostInvariant fifo P s) :
    BoostInvariant fifo P s' := by
  have hcoming := h.coming_sublist hs.coming
  have hsent := hs.sent_le
  have hahead := hs.window
  cases h with
  | send n q hclient hcalls hwindow hoffered =>
      exact ⟨hcalls, hwindow, (fun m hm => by cases hm), hcoming⟩
  | receive n hclient hbehind =>
      rw [hclient] at hsent hahead
      exact ⟨hsent, hahead, fun m hm => by cases hm; exact hbehind, hcoming⟩
  | take n t q hclient hcontents =>
      rw [hclient] at hsent hahead
      refine ⟨hsent, ?_, (fun m hm => by cases hm), hcoming⟩
      show n ≤ (s.received ++ [t.buf]).length + P.window
      rw [List.length_append, List.length_singleton]
      exact Nat.le_trans hahead (by lia)
  | serve i t q hserver hmore hcontents => exact ⟨hsent, hahead, hs.behind, hcoming⟩
  | respond i message q hserver hoffered => exact ⟨hsent, hahead, hs.behind, hcoming⟩
  | finish i hserver hall => exact ⟨hsent, hahead, hs.behind, hcoming⟩

/-- What is missing is missing for ever. -/
theorem BoostMove.lossy (h : BoostMove fifo P s s') (hs : BoostLossy fifo P s) :
    BoostLossy fifo P s' := by
  have hshort := hs.short
  rw [length_coming] at hshort
  refine ⟨h.invariant hs.invariant, ?_⟩
  rw [length_coming]
  cases h with
  | send n q hclient hcalls hwindow hoffered =>
      have hlength := hoffered.length_le
      simp only [hclient, BoostClientPc.sent] at hshort ⊢
      lia
  | receive n hclient hbehind =>
      simp only [hclient, BoostClientPc.sent] at hshort ⊢
      exact hshort
  | take n t q hclient hcontents =>
      simp only [hclient, hcontents, BoostClientPc.sent, List.length_append,
        List.length_cons, List.length_nil] at hshort ⊢
      lia
  | serve i t q hserver hmore hcontents =>
      simp only [hserver, hcontents, BoostPipeline.inHand, List.length_cons,
        List.length_nil] at hshort ⊢
      lia
  | respond i message q hserver hoffered =>
      have hlength := hoffered.length_le
      simp only [hserver, BoostPipeline.inHand, List.length_cons,
        List.length_nil] at hshort ⊢
      lia
  | finish i hserver hall =>
      simp only [hserver, BoostPipeline.inHand] at hshort ⊢
      exact hshort

/-- No more than a queue holds is on its way, so there is room for each send. -/
theorem BoostMove.lossless (hfits : min P.window P.calls ≤ queueCapacity)
    (h : BoostMove fifo P s s') (hs : BoostLossless fifo P s) :
    BoostLossless fifo P s' := by
  have hinv := h.invariant hs.invariant
  have hsent := hs.invariant.sent_le
  have hahead := hs.invariant.window
  have hall := hs.all
  have hserved := hs.served
  have hbound : s.client.sent ≤ s.received.length + queueCapacity := by lia
  rw [length_coming] at hall
  cases h with
  | send n q hclient hcalls hwindow hoffered =>
      simp only [hclient, BoostClientPc.sent] at hall
      have hlength := hoffered.length_room (by lia)
      refine ⟨hinv, ?_, hserved⟩
      rw [length_coming]
      simp only [BoostClientPc.sent]
      lia
  | receive n hclient hbehind =>
      simp only [hclient, BoostClientPc.sent] at hall
      refine ⟨hinv, ?_, hserved⟩
      rw [length_coming]
      exact hall
  | take n t q hclient hcontents =>
      simp only [hclient, hcontents, BoostClientPc.sent, List.length_cons] at hall hserved
      refine ⟨hinv, ?_, ?_⟩
      · rw [length_coming]
        simp only [BoostClientPc.sent, List.length_append, List.length_singleton]
        lia
      · simp only [List.length_append, List.length_singleton]
        lia
  | serve i t q hserver hmore hcontents =>
      simp only [hserver, hcontents, BoostPipeline.inHand, BoostServerPc.served,
        List.length_cons, List.length_nil] at hall hserved
      refine ⟨hinv, ?_, hserved⟩
      rw [length_coming]
      simp only [BoostPipeline.inHand, List.length_singleton]
      lia
  | respond i message q hserver hoffered =>
      simp only [hserver, BoostPipeline.inHand, BoostServerPc.served,
        List.length_singleton] at hall hserved
      have hlength := hoffered.length_room (by lia)
      refine ⟨hinv, ?_, ?_⟩
      · rw [length_coming]
        simp only [BoostPipeline.inHand, List.length_nil]
        lia
      · simp only [BoostServerPc.served]
        lia
  | finish i hserver hdone =>
      simp only [hserver, BoostPipeline.inHand, BoostServerPc.served,
        List.length_nil] at hall hserved
      refine ⟨hinv, ?_, ?_⟩
      · rw [length_coming]
        exact hall
      · simp only [BoostServerPc.served]
        lia

theorem BoostMove.rank_lt (h : BoostMove fifo P s s') :
    boostRank fifo P s' < boostRank fifo P s := by
  unfold boostRank
  cases h with
  | send n q hclient hcalls hwindow hoffered =>
      have hlength := hoffered.length_le
      simp only [hclient, BoostClientPc.sent]
      lia
  | receive n hclient hbehind =>
      simp only [hclient, BoostClientPc.sent]
      lia
  | take n t q hclient hcontents =>
      simp only [hclient, hcontents, BoostClientPc.sent, List.length_cons]
      lia
  | serve i t q hserver hmore hcontents =>
      simp only [hserver, hcontents, BoostPipeline.inHand, List.length_cons,
        List.length_nil]
      lia
  | respond i message q hserver hoffered =>
      have hlength := hoffered.length_le
      simp only [hserver, BoostPipeline.inHand, List.length_cons, List.length_nil]
      lia
  | finish i hserver hall =>
      simp only [hserver, BoostPipeline.inHand]
      lia

/-!
# Where nobody has a next step
-/

theorem boostServerStep_none (hs : BoostLossless fifo P s)
    (hstops : boostServerStep fifo P s = none) :
    P.inHand s.server = [] ∧ fifo.contents s.requests = [] := by
  have hsent := hs.invariant.sent_le
  have hall := hs.all
  have hserved := hs.served
  rw [length_coming] at hall
  unfold boostServerStep at hstops
  cases hpc : s.server with
  | receiving i =>
      simp only [hpc] at hstops
      split at hstops
      · constructor
        · rfl
        · by_contra hwaiting
          rcases boostPop_isSome P.size hwaiting with ⟨popped, hpop⟩
          rw [hpop] at hstops
          cases hstops
      · cases hstops
  | sending i message =>
      simp only [hpc] at hstops
      cases hstops
  | finished =>
      simp only [hpc, BoostServerPc.served] at hserved
      constructor
      · rfl
      · apply List.eq_nil_of_length_eq_zero
        lia

theorem boostClient_none (hwindow : 1 ≤ P.window) (hs : BoostLossless fifo P s)
    (hstops : forall l, boostPipelineNext fifo P s l = none) :
    s.received.length = P.calls := by
  have hsent := hs.invariant.sent_le
  have hall := hs.all
  rcases boostServerStep_none hs (hstops .server) with ⟨hhand, hrequests⟩
  rw [length_coming, hhand, hrequests] at hall
  have hsend := hstops .send
  have hreceive := hstops .receive
  have hclient := hstops .client
  cases hpc : s.client with
  | deciding n =>
      simp only [boostPipelineNext, boostClientSend, boostClientReceive, hpc,
        ite_eq_right_iff, reduceCtorEq, imp_false] at hsend hreceive
      simp only [hpc, BoostClientPc.sent] at hsent hall
      lia
  | popping n =>
      have hbehind := hs.invariant.behind n hpc
      simp only [hpc, BoostClientPc.sent, List.length_nil] at hall
      have hwaiting : fifo.contents s.responses ≠ [] := by
        intro hresponses
        rw [hresponses, List.length_nil] at hall
        lia
      rcases boostPop_isSome P.size hwaiting with ⟨popped, hpop⟩
      simp only [boostPipelineNext, boostClientStep, hpc, hpop] at hclient
      cases hclient

theorem not_boostStuck (hwindow : 1 ≤ P.window) (hs : BoostLossless fifo P s) :
    ¬ BoostStuck fifo P s := by
  intro hstuck
  rcases hstuck with ⟨hmissing, hstops⟩
  have hreceived := boostClient_none hwindow hs hstops
  have hall := hs.all
  have hsent := hs.invariant.sent_le
  rw [length_coming] at hall
  have hlast : s.client.sent = P.calls := by lia
  have hsublist : s.received.Sublist (P.answers s.client.sent) :=
    (List.sublist_append_left _ _).trans hs.invariant.coming
  rw [hlast] at hsublist
  apply hmissing
  exact hsublist.eq_of_length (by rw [hreceived, length_answers])

theorem BoostLossy.not_answered (hs : BoostLossy fifo P s) : ¬ P.Answered s := by
  intro hanswered
  have hlength : s.received.length = P.calls := by
    rw [hanswered, length_answers]
  have hsent := hs.invariant.sent_le
  have hshort := hs.short
  rw [length_coming] at hshort
  lia

/-!
# Every run
-/

theorem boostStart_lossless (h : (boostPipelineSystem fifo P).Initial s) :
    BoostLossless fifo P s := by
  rcases h with ⟨hrequests, hresponses, hclient, hserver, hreceived⟩
  have hcoming : P.coming fifo s = [] := by
    simp [BoostPipeline.coming, BoostPipeline.inHand, hrequests, hresponses, hserver,
      hreceived]
  have hsent : s.client.sent = 0 := by
    rw [hclient]
    rfl
  constructor
  · constructor
    · lia
    · lia
    · intro n hn
      rw [hclient] at hn
      cases hn
    · rw [hcoming]
      exact List.nil_sublist _
  · rw [hcoming, hsent]
    rfl
  · rw [hserver, hreceived, hresponses]
    rfl

theorem boost_reachable_invariant (h : (boostPipelineSystem fifo P).Reachable s) :
    BoostInvariant fifo P s := by
  apply TransitionSystem.reachableUnder_invariant _ _ h
  · intro start hstart
    exact (boostStart_lossless hstart).invariant
  · intro t l t' ht _ hnext
    exact (boostPipelineNext_move hnext).invariant ht

theorem boost_reachable_lossless (hfits : min P.window P.calls ≤ queueCapacity)
    (h : (boostPipelineSystem fifo P).Reachable s) : BoostLossless fifo P s := by
  apply TransitionSystem.reachableUnder_invariant _ _ h
  · intro start hstart
    exact boostStart_lossless hstart
  · intro t l t' ht _ hnext
    exact (boostPipelineNext_move hnext).lossless hfits ht

/-- Also when responses are dropped, none comes twice and none overtakes another. -/
theorem boost_received_sublist (h : (boostPipelineSystem fifo P).Reachable s) :
    s.received.Sublist (P.answers P.calls) := by
  have hs := boost_reachable_invariant h
  have hreceived : s.received.Sublist (P.answers s.client.sent) :=
    (List.sublist_append_left _ _).trans hs.coming
  exact hreceived.trans ((List.range_sublist.mpr hs.sent_le).map P.answer)

theorem boost_run_length_le {start : BoostPipelineState Queue}
    {trace : List (Transition (BoostPipelineState Queue) BoostPipelineLabel)}
    (hstart : (boostPipelineSystem fifo P).Initial start)
    (hrun : (boostPipelineSystem fifo P).Run start trace s) :
    trace.length ≤ 5 * P.calls + 2 := by
  have hkeeps : forall t l t', True -> (boostPipelineSystem fifo P).next t l = some t' ->
      True := fun _ _ _ _ _ => True.intro
  have hlower : forall t l t', True -> (boostPipelineSystem fifo P).next t l = some t' ->
      boostRank fifo P t' < boostRank fifo P t :=
    fun _ _ _ _ hnext => (boostPipelineNext_move hnext).rank_lt
  have hlength := hrun.length_le_of_rank hkeeps hlower True.intro
  have hrank : boostRank fifo P start = 5 * P.calls + 2 := by
    rcases hstart with ⟨hrequests, hresponses, hclient, hserver, _⟩
    simp [boostRank, hrequests, hresponses, hclient, hserver, BoostPipeline.inHand,
      BoostClientPc.sent]
  lia

theorem boost_sends_reachable {empty : Queue} (hempty : fifo.contents empty = [])
    (hmany : queueCapacity < min P.window P.calls) (n : Nat)
    (hn : n ≤ queueCapacity + 1) :
    exists q, (boostPipelineSystem fifo P).Reachable
        ⟨q, empty, .deciding n, .receiving 0, []⟩ ∧
      (fifo.contents q).length = min n queueCapacity := by
  induction n with
  | zero =>
      refine ⟨empty, ⟨_, [], ⟨hempty, hempty, rfl, rfl, rfl⟩, .nil, ?_⟩, ?_⟩
      · exact TransitionSystem.guarded_nil _
      rw [hempty]
      rfl
  | succ n ih =>
      rcases ih (by lia) with ⟨q, hreachable, hlength⟩
      have hopen : n < P.calls ∧ n < ([] : List (List Byte)).length + P.window :=
        ⟨by lia, by rw [List.length_nil]; lia⟩
      have hsend : (boostPipelineSystem fifo P).next
          ⟨q, empty, .deciding n, .receiving 0, []⟩ .send =
          some ⟨(boostPush fifo q (P.requestMem n) P.requestBuf P.size).1, empty,
            .deciding (n + 1), .receiving 0, []⟩ := if_pos hopen
      refine ⟨_, TransitionSystem.reachable_step hreachable hsend, ?_⟩
      cases boostPush_offered q (P.requestMem n) P.requestBuf P.size with
      | inl hroom =>
          have hless := hroom.left
          rw [hroom.right, List.length_append, List.length_singleton, hlength]
          lia
      | inr hfull =>
          have hmost := hfull.left
          rw [hfull.right, hlength]
          lia

theorem boost_lossy_reachable {empty : Queue} (hempty : fifo.contents empty = [])
    (hmany : queueCapacity < min P.window P.calls) :
    exists s, (boostPipelineSystem fifo P).Reachable s ∧ BoostLossy fifo P s := by
  rcases boost_sends_reachable hempty hmany (queueCapacity + 1) (Nat.le_refl _) with
    ⟨q, hreachable, hlength⟩
  refine ⟨_, hreachable, boost_reachable_invariant hreachable, ?_⟩
  rw [length_coming]
  simp only [hempty, hlength, BoostPipeline.inHand, BoostClientPc.sent, List.length_nil]
  lia

theorem boostStuck_reachable (h : (boostPipelineSystem fifo P).Reachable s)
    (hs : BoostLossy fifo P s) :
    exists s', (boostPipelineSystem fifo P).Reachable s' ∧ BoostStuck fifo P s' := by
  have hstep : forall t l t', BoostLossy fifo P t -> True ->
      (boostPipelineSystem fifo P).next t l = some t' ->
      BoostLossy fifo P t' ∧ boostRank fifo P t' < boostRank fifo P t := by
    intro t l t' ht _ hnext
    have hmove := boostPipelineNext_move hnext
    exact ⟨hmove.lossy ht, hmove.rank_lt⟩
  rcases TransitionSystem.leads_to_stop (boostRank fifo P) hstep hs with
    ⟨s', hleads, hs', hstops⟩
  exact ⟨s', hleads.reachable h, hs'.not_answered, fun l => hstops l True.intro⟩

end Step

/-- Over BOOST a window of more than a hundred requests loses some of them, and then the
client waits for ever; nothing else makes it wait. -/
theorem boost_pipeline_stuck_iff {Queue : Type}
    (fifo : BoundedFifo Queue BufferWrapper queueCapacity) (P : BoostPipeline)
    {empty : Queue} (hempty : fifo.contents empty = []) (hwindow : 1 ≤ P.window) :
    (forall s, (boostPipelineSystem fifo P).Reachable s ->
      s.received.Sublist (P.answers P.calls)) ∧
    (forall start trace s, (boostPipelineSystem fifo P).Initial start ->
      (boostPipelineSystem fifo P).Run start trace s -> trace.length ≤ 5 * P.calls + 2) ∧
    ((exists s, (boostPipelineSystem fifo P).Reachable s ∧ BoostStuck fifo P s) <->
      queueCapacity < min P.window P.calls) := by
  constructor
  · intro s hs
    exact boost_received_sublist hs
  constructor
  · intro start trace s hstart hrun
    exact boost_run_length_le hstart hrun
  constructor
  · intro hstuck
    rcases hstuck with ⟨s, hreachable, hstuck⟩
    by_contra hfits
    have hs := boost_reachable_lossless (Nat.not_lt.mp hfits) hreachable
    exact not_boostStuck hwindow hs hstuck
  · intro hmany
    rcases boost_lossy_reachable hempty hmany with ⟨s, hreachable, hs⟩
    exact boostStuck_reachable hreachable hs

/-- The client sends its numbers and the server doubles them. -/
def doublingPipeline (window calls : Nat) : BoostPipeline where
  calls := calls
  window := window
  requestMem i _ := UInt8.ofNat i
  requestBuf := 0
  responseMem message x := 2 * message.getD x.toNat 0
  responseBuf := 0
  size := 10

/-- A hundred requests outstanding are answered, and one more is too much. -/
theorem boost_pipeline_stuck_iff_doubling :
    (exists s, (boostPipelineSystem (BoundedFifo.ofList BufferWrapper queueCapacity)
        (doublingPipeline 101 101)).Reachable s ∧
      BoostStuck (BoundedFifo.ofList BufferWrapper queueCapacity)
        (doublingPipeline 101 101) s) ∧
      ¬ exists s, (boostPipelineSystem (BoundedFifo.ofList BufferWrapper queueCapacity)
          (doublingPipeline 100 1000)).Reachable s ∧
        BoostStuck (BoundedFifo.ofList BufferWrapper queueCapacity)
          (doublingPipeline 100 1000) s := by
  have hempty : (BoundedFifo.ofList BufferWrapper queueCapacity).contents [] = [] := rfl
  constructor
  · exact (boost_pipeline_stuck_iff _ (doublingPipeline 101 101) hempty
      (by decide)).right.right.mpr (by decide)
  · intro hstuck
    exact absurd ((boost_pipeline_stuck_iff _ (doublingPipeline 100 1000) hempty
      (by decide)).right.right.mp hstuck) (by decide)

end Rpc
end Notnets
