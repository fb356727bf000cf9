import Notnets.Foundation.MessageChannel
import Notnets.Foundation.Observation
import Notnets.Queue.PollCall

/-!
# The POLL queue is a bounded channel

Seen from the messages that are visible and the calls of `pop` that have returned,
the queue shows exactly what a channel with one place less than the ring has slots
shows, whatever the interleaving of the steps.
-/

namespace Notnets
namespace Queue

open Foundation
open Relation

/-- The messages sent are the visible ones. -/
def PollState.channel (s : PollState) : Channel :=
  ⟨s.pushed, s.popped⟩

/-!
# What the steps show
-/

section Shown

variable {g : Geometry} {s : PollState}

theorem pushStep_publishes {out : PushOutcome} {message : List Byte}
    (hs : PollInvariant g s) (hout : pushStep s.queue s.producer = some out)
    (hpublished : out.published = some message) :
    message.length = g.messageSize ∧
      s.pushed.length + 1 < position s.popped / g.messageSize + g.queueSize := by
  have hindex := hs.left.producer
  have hholds := hs.right.producer
  generalize s.producer = pc at hout hindex hholds
  cases pushMove_of_step hout with
  | publish hend =>
      cases hpublished
      exact ⟨hholds.left, hindex.right.right.right.right.right⟩
  | _ => cases hpublished

theorem popStep_delivers {out : PopOutcome} {r : Receipt}
    (hs : PollInvariant g s) (hout : popStep s.queue s.consumer = some out)
    (hreceipt : out.receipt = some r) :
    DeliversAt g.messageSize s.pushed (position s.popped) r := by
  have hholds := hs.right.consumer
  have hruns := hs.left.header.running
  generalize s.consumer = pc at hout hholds
  cases popMove_of_step hout with
  | stop hstop =>
      rw [hruns] at hstop
      cases hstop
  | finish =>
      cases hreceipt
      exact hholds
  | _ => cases hreceipt

theorem pollNext_channel {s' : PollState} {l : PollLabel} (hs : PollInvariant g s)
    (h : pollNext s l = some s') (hchange : s'.channel ≠ s.channel) :
    exists k, Channel.next g.messageSize (g.queueSize - 1) s.channel k =
      some s'.channel := by
  rcases pollNext_cases h with
    ⟨_, _, _, _, rfl⟩ | ⟨out, _, hout, rfl⟩ | ⟨_, _, _, _, rfl⟩ | ⟨out, _, hout, rfl⟩
  · exact absurd rfl hchange
  · cases hpublished : out.published with
    | none =>
        apply absurd _ hchange
        simp [PollState.channel, PollState.afterPush, hpublished]
    | some message =>
        have hpublishes := pushStep_publishes hs hout hpublished
        have hroom : s.channel.sent.length <
            position s.channel.log / g.messageSize + (g.queueSize - 1) := by
          have hfree := hpublishes.right
          show s.pushed.length < position s.popped / g.messageSize + (g.queueSize - 1)
          lia
        refine ⟨.send message, ?_⟩
        rw [Channel.send_room hpublishes.left hroom]
        simp [PollState.channel, PollState.afterPush, hpublished]
  · exact absurd rfl hchange
  · cases hreceipt : out.receipt with
    | none =>
        apply absurd _ hchange
        simp [PollState.channel, PollState.afterPop, hreceipt]
    | some r =>
        refine ⟨.receive r.bytes.length, ?_⟩
        have hdelivers : DeliversAt g.messageSize s.channel.sent
            (position s.channel.log) r := popStep_delivers hs hout hreceipt
        rw [Channel.receive_delivers hdelivers]
        simp [PollState.channel, PollState.afterPop, hreceipt]

end Shown

/-!
# One call after the other

Between two calls each of the two parties can go through its next call alone.
-/

def PollState.Ready (s : PollState) : Prop :=
  PushIdle s.producer ∧ PopIdle s.consumer

section Calls

variable {header : SpscQueueHeader} {s s' : PollState}

theorem producerSteps_of_idle {ret : Option Int} (hidle : s.producer = .idle ret)
    (h : ProducerSteps s s') : s' = s := by
  cases h.cases_head with
  | inl hsame => exact hsame.symm
  | inr hmore =>
      rcases hmore with ⟨t, hnext, _⟩
      rcases pollNext_producer hnext with ⟨out, hout, _⟩
      rw [hidle] at hout
      cases hout

theorem consumerSteps_of_idle {last : Option Receipt} (hidle : s.consumer = .idle last)
    (h : ConsumerSteps s s') : s' = s := by
  cases h.cases_head with
  | inl hsame => exact hsame.symm
  | inr hmore =>
      rcases hmore with ⟨t, hnext, _⟩
      rcases pollNext_consumer hnext with ⟨out, hout, _⟩
      rw [hidle] at hout
      cases hout

theorem pushStep_stage {buf : List Byte} {out : PushOutcome}
    (hbuf : s.producer.buffer = some buf)
    (hout : pushStep s.queue s.producer = some out) :
    (out.published = none ∧
      (out.pc.buffer = some buf ∨ out.pc = .idle (some (-1)))) ∨
      (out.published = some buf ∧ out.pc = .idle (some 0)) := by
  generalize s.producer = pc at hout hbuf
  cases pushMove_of_step hout with
  | reject _ => exact Or.inl ⟨rfl, Or.inr rfl⟩
  | publish _ => exact Or.inr ⟨hbuf, rfl⟩
  | _ => exact Or.inl ⟨rfl, Or.inl hbuf⟩

theorem popStep_stage {out : PopOutcome}
    (hout : popStep s.queue s.consumer = some out) :
    (out.receipt = none ∧ ¬ PopIdle out.pc) ∨
      exists r, out.receipt = some r ∧ out.pc = .idle (some r) := by
  have hbusy : forall {pc : PopPc}, (forall last, pc ≠ .idle last) -> ¬ PopIdle pc := by
    intro pc hne hidle
    rcases hidle with ⟨last, hidle⟩
    exact hne last hidle
  generalize s.consumer = pc at hout
  cases popMove_of_step hout with
  | stop _ => exact Or.inr ⟨_, rfl, rfl⟩
  | finish => exact Or.inr ⟨_, rfl, rfl⟩
  | _ => exact Or.inl ⟨rfl, hbusy (by simp)⟩

/-- A `push` that returns 0 shows its message, and nothing else. -/
theorem producerSteps_carry (header : SpscQueueHeader) (messageSize : Nat)
    {buf : List Byte} (hbuf : s.producer.buffer = some buf)
    (h : ProducerSteps s s') (hidle : s'.producer = .idle (some 0)) :
    (pollSystem header).Carries (fun _ l => FullSizeTraffic messageSize l)
        PollState.channel s.channel ⟨s.pushed ++ [buf], s.popped⟩ s s' ∧
      s'.channel = ⟨s.pushed ++ [buf], s.popped⟩ := by
  apply TransitionSystem.carries_of_stages
    (fun t => t.producer.buffer = some buf)
    (fun t => t.producer = .idle (some 0)) _ _ _ h hbuf rfl
  · rw [hidle]
    exact nofun
  · intro t t' hnext
    exact ⟨.producer, trivial, hnext⟩
  · intro t t' hrun hsame hnext hrest
    rcases pollNext_producer hnext with ⟨out, hout, rfl⟩
    rcases pushStep_stage hrun hout with ⟨hquiet, hmore | hreject⟩ | ⟨hsent, hdone⟩
    · apply Or.inl
      refine ⟨hmore, ?_⟩
      rw [← hsame]
      simp [PollState.channel, PollState.afterPush, hquiet]
    · have hlast := producerSteps_of_idle hreject hrest
      rw [hlast] at hidle
      cases hreject.symm.trans hidle
    · apply Or.inr
      injection hsame with hpushed hpopped
      refine ⟨hdone, ?_⟩
      simp [PollState.channel, PollState.afterPush, hsent, hpushed, hpopped]
  · intro t t' hdone hnext
    rcases pollNext_producer hnext with ⟨out, hout, _⟩
    rw [hdone] at hout
    cases hout

theorem consumerSteps_carry (header : SpscQueueHeader) (messageSize : Nat)
    (hbusy : ¬ PopIdle s.consumer) (h : ConsumerSteps s s')
    {r : Receipt} (hidle : s'.consumer = .idle (some r)) :
    (pollSystem header).Carries (fun _ l => FullSizeTraffic messageSize l)
        PollState.channel s.channel ⟨s.pushed, s.popped ++ [r]⟩ s s' ∧
      s'.channel = ⟨s.pushed, s.popped ++ [r]⟩ := by
  apply TransitionSystem.carries_of_stages
    (fun t => ¬ PopIdle t.consumer)
    (fun t => t.consumer = .idle (some r)) _ _ _ h hbusy rfl
  · intro hrun
    exact hrun ⟨_, hidle⟩
  · intro t t' hnext
    exact ⟨.consumer, trivial, hnext⟩
  · intro t t' _ hsame hnext hrest
    rcases pollNext_consumer hnext with ⟨out, hout, rfl⟩
    rcases popStep_stage hout with ⟨hquiet, hmore⟩ | ⟨r', hreceipt, hdone⟩
    · apply Or.inl
      refine ⟨hmore, ?_⟩
      rw [← hsame]
      simp [PollState.channel, PollState.afterPop, hquiet]
    · apply Or.inr
      have hlast := consumerSteps_of_idle hdone hrest
      rw [hlast] at hidle
      cases hdone.symm.trans hidle
      injection hsame with hpushed hpopped
      refine ⟨hdone, ?_⟩
      simp [PollState.channel, PollState.afterPop, hreceipt, hpushed, hpopped]
  · intro t t' hdone hnext
    rcases pollNext_consumer hnext with ⟨out, hout, _⟩
    rw [hdone] at hout
    cases hout

theorem length_popMessage (q : SpscQueue) (readerTail : Int) (size : Nat) :
    (popMessage q readerTail size).2.receipt.bytes.length = size := by
  simp only [popMessage, apply_ite Prod.snd, apply_ite PopReply.receipt,
    apply_ite Receipt.bytes, ite_self, length_load]

variable {g : Geometry}

theorem pop_takes {count : Nat} (hs : PollInvariant g s) (hidle : PopIdle s.consumer)
    (hmessage : position s.popped / g.messageSize < s.pushed.length) (hpos : 0 < count)
    (hfits : position s.popped % g.messageSize + count ≤ g.messageSize) :
    exists q reply, pop s.queue count = some (q, reply) ∧
      reply.receipt.bytes.length = count := by
  have hheader := hs.left.header
  have hoffset := hs.left.consumer
  rcases hidle with ⟨last, hidle⟩
  rw [hidle] at hoffset
  have hlt := g.messageSize_lt
  have hmod : position s.popped % g.messageSize < g.messageSize :=
    Nat.mod_lt _ g.messageSize_pos
  have hnonempty : s.queue.header.tail ≠ s.queue.header.head := by
    rw [hheader.tail, Ne, hheader.empty_iff]
    lia
  have hclamp : clampSize s.queue.header.messageSize s.queue.header.messageOffset
      count = count := by
    rw [hheader.messageSize, hoffset, clampSize_eq_min hmod (by lia)]
    lia
  have hlength := length_popMessage s.queue s.queue.header.tail count
  have hpops := @pop_nonempty s.queue count hheader.running hnonempty
  rw [hclamp] at hpops
  cases hmessages : popMessage s.queue s.queue.header.tail count with
  | mk q reply =>
      rw [hmessages] at hpops hlength
      exact ⟨q, reply, hpops, hlength⟩

theorem poll_sends {message : List Byte} (hs : PollInvariant g s) (hready : s.Ready)
    (hlength : message.length = g.messageSize)
    (hroom : s.pushed.length < position s.popped / g.messageSize + (g.queueSize - 1)) :
    exists s', (pollSystem header).Carries
        (fun _ l => FullSizeTraffic g.messageSize l) PollState.channel s.channel
          ⟨s.pushed ++ [message], s.popped⟩ s s' ∧
      s'.Ready ∧ s'.channel = ⟨s.pushed ++ [message], s.popped⟩ := by
  rcases hready with ⟨⟨ret, hproducer⟩, hconsumer⟩
  have hheader := hs.left.header
  let called : PollState := { s with producer := .entered message }
  have hcalls : (pollSystem header).next s (.push message) = some called := by
    simp only [pollSystem, pollNext, hproducer]
    rfl
  have hfits : message.length ≤ called.queue.header.messageSize := by
    show message.length ≤ s.queue.header.messageSize
    rw [hheader.messageSize, hlength]
  have hfree : nextIndex called.queue.header called.queue.header.head ≠
      called.queue.header.tail := by
    show nextIndex s.queue.header s.queue.header.head ≠ s.queue.header.tail
    have hslots := g.queueSize_pos
    rw [hheader.head, hheader.nextIndex_mod, Ne, hheader.full_iff]
    lia
  rcases producerSteps_push rfl (push_room hfits hfree) with
    ⟨s', hsteps, hidle, _, hother⟩
  have hbuf : called.producer.buffer = some message := rfl
  rcases producerSteps_carry header g.messageSize hbuf
    hsteps hidle with ⟨hcarries, hsent⟩
  have hfirst : (pollSystem header).Carries
      (fun _ l => FullSizeTraffic g.messageSize l) PollState.channel s.channel
        ⟨s.pushed ++ [message], s.popped⟩ s called :=
    TransitionSystem.carries_quiet (l := .push message) hlength hcalls rfl
  refine ⟨s', hfirst.trans hcarries, ⟨⟨_, hidle⟩, ?_⟩, hsent⟩
  rw [hother]
  exact hconsumer

theorem poll_receives {count : Nat} {message : List Byte} (hs : PollInvariant g s)
    (hready : s.Ready)
    (hmessage : s.pushed[position s.popped / g.messageSize]? = some message)
    (hpos : 0 < count)
    (hfits : position s.popped % g.messageSize + count ≤ g.messageSize) :
    exists s', (pollSystem header).Carries
        (fun _ l => FullSizeTraffic g.messageSize l) PollState.channel s.channel
          ⟨s.pushed, s.popped ++
            [Channel.piece g.messageSize (position s.popped) count message]⟩ s s' ∧
      s'.Ready ∧ s'.channel = ⟨s.pushed, s.popped ++
        [Channel.piece g.messageSize (position s.popped) count message]⟩ := by
  rcases hready with ⟨hproducer, ⟨last, hconsumer⟩⟩
  have hlt := g.messageSize_lt
  have hlabel : FullSizeTraffic g.messageSize (.pop count) := ⟨hpos, by lia⟩
  have hthere := (List.getElem?_eq_some_iff.mp hmessage).choose
  rcases pop_takes hs ⟨last, hconsumer⟩ hthere hpos hfits with ⟨q, reply, hpops, hlength⟩
  let called : PollState := { s with consumer := .entered count }
  have hcalls : (pollSystem header).next s (.pop count) = some called := by
    simp only [pollSystem, pollNext, hconsumer]
    rfl
  have hentered : called.consumer = .entered count := rfl
  rcases consumerSteps_pop hentered hpops with ⟨s', hsteps, hidle, _, hother⟩
  have hbusy : ¬ PopIdle called.consumer := by
    intro hboth
    rcases hboth with ⟨last, hboth⟩
    cases hboth
  rcases consumerSteps_carry header g.messageSize hbusy
    hsteps hidle with ⟨hcarries, hlog⟩
  have hfirst : (pollSystem header).Carries
      (fun _ l => FullSizeTraffic g.messageSize l) PollState.channel s.channel
        ⟨s.pushed, s.popped ++ [reply.receipt]⟩ s called :=
    TransitionSystem.carries_quiet hlabel hcalls rfl
  have hall : (pollSystem header).Carries
      (fun _ l => FullSizeTraffic g.messageSize l) PollState.channel s.channel
        ⟨s.pushed, s.popped ++ [reply.receipt]⟩ s s' := hfirst.trans hcarries
  have hs' : PollInvariant g s' :=
    hall.keeps (fun _ _ _ ht hl hnext => pollNext_invariant ht hl hnext) hs
  have hdelivers : DeliversAt g.messageSize s.pushed (position s.popped)
      reply.receipt := by
    injection hlog with hpushed hpopped
    have hdelivered := hs'.right.log
    rw [hpushed, hpopped] at hdelivered
    exact delivered_split hdelivered s.popped reply.receipt [] rfl
  have hpiece := Channel.eq_piece_of_delivers hdelivers hmessage
  rw [hlength] at hpiece
  rw [← hpiece]
  refine ⟨s', hall, ⟨?_, ⟨_, hidle⟩⟩, hlog⟩
  rw [hother]
  exact hproducer

end Calls

/--
The POLL queue and a channel of `queue_size - 1` messages show the same histories of
messages sent and pieces received.
-/
theorem poll_histories {shmSize messageSize c : Nat} {header : SpscQueueHeader}
    {usable : Int} (hshm : shmSize < 2 ^ 31)
    (hcreate : queueCreate shmSize messageSize = .ok (header, usable))
    (hcapacity : header.queueSize = c + 1) (hc : 1 ≤ c) :
    (pollSystem header).Histories (fun _ l => FullSizeTraffic messageSize l)
        PollState.channel =
      (channelSystem messageSize c).Histories (fun _ _ => True) id := by
  rcases createHeader_ok hcreate with ⟨n, hsizes, hheader⟩
  have hn : header.queueSize = n := by
    rw [hheader]
  rcases guard_of_two_slots (by decide) (by lia) hsizes with ⟨hmessage, hguard⟩
  rcases exists_geometry hmessage hguard hshm hsizes with ⟨g, _, hsize, hqueue, _⟩
  have hslots : g.queueSize - 1 = c := by lia
  have hstarts : forall mem, PollInvariant g (pollStart header mem) := by
    intro mem
    exact ⟨pollStart_indices mem (by rw [hsize]; exact hcreate) (hn.trans hqueue),
      pollStart_contents g header mem⟩
  subst hsize
  subst hslots
  have hinv : forall s, (pollSystem header).ReachableUnder
      (fun _ l => FullSizeTraffic g.messageSize l) s -> PollInvariant g s := by
    intro s hs
    refine TransitionSystem.reachableUnder_invariant ?_ ?_ hs
    · intro start hstart
      rcases hstart with ⟨mem, rfl⟩
      exact hstarts mem
    · intro t l t' ht hl hnext
      exact pollNext_invariant ht hl hnext
  apply Set.Subset.antisymm
  · apply TransitionSystem.histories_subset
    · intro s hstart
      rcases hstart with ⟨mem, rfl⟩
      rfl
    · intro s l s' hs _ hnext hchange
      exact pollNext_channel (hinv s hs) hnext hchange
  · apply TransitionSystem.histories_superset PollState.Ready
    · intro v hv
      exact ⟨pollStart header fun _ => 0, ⟨_, rfl⟩, ⟨⟨_, rfl⟩, ⟨_, rfl⟩⟩, hv.symm⟩
    · intro s k v hs hready hk _
      rcases Channel.next_cases hk with
        ⟨message, _, hlength, hroom, rfl⟩ | ⟨count, message, _, hmessage, hpos, hfits, rfl⟩
      · exact poll_sends (hinv s hs) hready hlength hroom
      · exact poll_receives (hinv s hs) hready hmessage hpos hfits

/-- A message sent, and three of its four bytes received. -/
theorem poll_histories_twoSlots :
    [⟨[], []⟩, ⟨[[1, 2, 3, 4]], []⟩, ⟨[[1, 2, 3, 4]], [⟨[1, 2, 3], 3⟩]⟩] ∈
      (pollSystem twoSlotHeader).Histories (fun _ l => FullSizeTraffic 4 l)
        PollState.channel := by
  have hcreate : queueCreate 48 4 = .ok (twoSlotHeader, 48) := by rfl
  have hcapacity : twoSlotHeader.queueSize = (1 : Nat) + 1 := rfl
  rw [poll_histories (by decide) hcreate hcapacity (Nat.le_refl 1)]
  have hstart : (channelSystem 4 1).Shows (fun _ _ => True) id [⟨[], []⟩] ⟨[], []⟩ :=
    TransitionSystem.Shows.start rfl
  have hsent := hstart.change (l := .send [1, 2, 3, 4]) trivial (by rfl) (by decide)
  have hread := hsent.change (l := .receive 3) trivial (by rfl) (by decide)
  exact ⟨_, hread⟩

end Queue
end Notnets
