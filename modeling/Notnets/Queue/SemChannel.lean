import Notnets.Queue.PollChannel
import Notnets.Queue.SemProgress

/-!
# The SEM queue is the same bounded channel

A message leaves the ring before `dequeue` returns it, but the lock keeps the producer
from the slot that it leaves until then.  So the SEM queue shows what a channel shows
as well, and no user can tell the two kinds of queues apart by their histories.
-/

namespace Notnets
namespace Queue

open Foundation
open Relation

def SemState.channel (s : SemState) : Channel :=
  ⟨s.pushed, s.popped⟩

/-!
# What the steps show
-/

section Shown

variable {g : Geometry} {s : SemState}

theorem consumer_unlocked (hs : SemInvariant g s)
    (hholds : s.producer.holdsLock = true) : s.consumer.holdsLock = false := by
  have hlock := hs.lock
  unfold LockAccount at hlock
  rw [hholds] at hlock
  cases hconsumer : s.consumer.holdsLock with
  | false => rfl
  | true =>
      rw [hconsumer] at hlock
      simp at hlock

theorem semPushStep_publishes {ok : Bool} {out : SemPushOutcome} {message : List Byte}
    (hs : SemInvariant g s)
    (hout : semPushStep s.queue s.values ok s.producer = some out)
    (hpublished : out.published = some message) :
    message.length = g.messageSize ∧
      s.pushed.length + 1 < position s.popped / g.messageSize + g.queueSize := by
  have hholds := hs.contents.producer
  have hslot := hs.indices.slot
  have hfree := fun h => hs.retired_of_unlocked (consumer_unlocked hs h)
  generalize s.producer = pc at hout hholds hslot hfree
  cases semPushMove_of_step hout with
  | publish =>
      cases hpublished
      rw [← hfree rfl]
      exact ⟨hholds.left, hslot trivial⟩
  | _ => cases hpublished

theorem semNext_channel {s' : SemState} {l : SemLabel} (hs : SemInvariant g s)
    (hl : SemFullSizeTraffic g.messageSize l) (h : semNext s l = some s')
    (hchange : s'.channel ≠ s.channel) :
    exists k, Channel.next g.messageSize (g.queueSize - 1) s.channel k =
      some s'.channel := by
  have hs' := semNext_invariant hs hl h
  rcases semNext_cases h with
    ⟨_, _, _, _, rfl⟩ | ⟨_, out, _, hout, rfl⟩ | ⟨_, _, _, _, rfl⟩ |
      ⟨_, out, _, hout, rfl⟩
  · exact absurd rfl hchange
  · cases hpublished : out.published with
    | none =>
        apply absurd _ hchange
        simp [SemState.channel, SemState.afterPush, hpublished]
    | some message =>
        have hpublishes := semPushStep_publishes hs hout hpublished
        have hroom : s.channel.sent.length <
            position s.channel.log / g.messageSize + (g.queueSize - 1) := by
          have hfree := hpublishes.right
          show s.pushed.length < position s.popped / g.messageSize + (g.queueSize - 1)
          lia
        refine ⟨.send message, ?_⟩
        rw [Channel.send_room hpublishes.left hroom]
        simp [SemState.channel, SemState.afterPush, hpublished]
  · exact absurd rfl hchange
  · cases hreceipt : out.receipt with
    | none =>
        apply absurd _ hchange
        simp [SemState.channel, SemState.afterPop, hreceipt]
    | some r =>
        have hdelivered : Delivered g.messageSize s.pushed
            (s.popped ++ out.receipt.toList) := hs'.contents.log
        rw [hreceipt] at hdelivered
        have hdelivers : DeliversAt g.messageSize s.channel.sent
            (position s.channel.log) r := delivered_split hdelivered s.popped r [] rfl
        refine ⟨.receive r.bytes.length, ?_⟩
        rw [Channel.receive_delivers hdelivers]
        simp [SemState.channel, SemState.afterPop, hreceipt]

end Shown

/-!
# One call after the other
-/

def SemState.Ready (s : SemState) : Prop :=
  SemPushIdle s.producer ∧ SemPopIdle s.consumer

/-- What a `sem_pop` has taken from the ring for its caller. -/
def SemPopPc.result : SemPopPc -> Option Receipt
  | .idle last => last
  | .unlocking receipt _ | .posting receipt => some receipt
  | _ => none

section Calls

variable {header : SpscQueueHeader} {s s' : SemState}

theorem semProducerSteps_of_idle {ret : Option Int} (hidle : s.producer = .idle ret)
    (h : SemProducerSteps s s') : s' = s := by
  cases h.cases_head with
  | inl hsame => exact hsame.symm
  | inr hmore =>
      rcases hmore with ⟨t, hnext, _⟩
      rcases semNext_producer hnext with ⟨out, hout, _⟩
      rw [hidle] at hout
      cases hout

theorem semPushStep_stage {buf : List Byte} {out : SemPushOutcome}
    (hbuf : s.producer.buffer = some buf)
    (hout : semPushStep s.queue s.values true s.producer = some out) :
    (out.published = none ∧
      (out.pc.buffer = some buf ∨ out.pc = .idle (some (-1)))) ∨
      (out.published = some buf ∧ out.pc.buffer = none) := by
  generalize s.producer = pc at hout hbuf
  cases semPushMove_of_step hout with
  | reject _ => exact Or.inl ⟨rfl, Or.inr rfl⟩
  | publish => exact Or.inr ⟨hbuf, rfl⟩
  | unlockFirst => cases hbuf
  | unlock => cases hbuf
  | post => cases hbuf
  | _ => exact Or.inl ⟨rfl, Or.inl hbuf⟩

/-- A call that has published only gives back the lock and posts. -/
theorem semPushStep_published {out : SemPushOutcome} (hbuf : s.producer.buffer = none)
    (hout : semPushStep s.queue s.values true s.producer = some out) :
    out.published = none ∧ out.pc.buffer = none := by
  generalize s.producer = pc at hout hbuf
  cases semPushMove_of_step hout with
  | unlockFirst => exact ⟨rfl, rfl⟩
  | unlock => exact ⟨rfl, rfl⟩
  | post => exact ⟨rfl, rfl⟩
  | _ => cases hbuf

theorem semProducerSteps_carry (header : SpscQueueHeader) (messageSize : Nat)
    {buf : List Byte} (hbuf : s.producer.buffer = some buf)
    (h : SemProducerSteps s s') (hidle : s'.producer = .idle (some 0)) :
    (semSystem header).Carries (fun _ l => SemFullSizeTraffic messageSize l)
        SemState.channel s.channel ⟨s.pushed ++ [buf], s.popped⟩ s s' ∧
      s'.channel = ⟨s.pushed ++ [buf], s.popped⟩ := by
  apply TransitionSystem.carries_of_stages
    (fun t => t.producer.buffer = some buf)
    (fun t => t.producer.buffer = none) _ _ _ h hbuf rfl
  · rw [hidle]
    exact nofun
  · intro t t' hnext
    exact ⟨.producer true, rfl, hnext⟩
  · intro t t' hrun hsame hnext hrest
    rcases semNext_producer hnext with ⟨out, hout, rfl⟩
    rcases semPushStep_stage hrun hout with ⟨hquiet, hmore | hreject⟩ | ⟨hsent, hdone⟩
    · apply Or.inl
      refine ⟨hmore, ?_⟩
      rw [← hsame]
      simp [SemState.channel, SemState.afterPush, hquiet]
    · have hlast := semProducerSteps_of_idle hreject hrest
      rw [hlast] at hidle
      cases hreject.symm.trans hidle
    · apply Or.inr
      injection hsame with hpushed hpopped
      refine ⟨hdone, ?_⟩
      simp [SemState.channel, SemState.afterPush, hsent, hpushed, hpopped]
  · intro t t' hdone hnext
    rcases semNext_producer hnext with ⟨out, hout, rfl⟩
    rcases semPushStep_published hdone hout with ⟨hquiet, hmore⟩
    refine ⟨hmore, ?_⟩
    simp [SemState.channel, SemState.afterPush, hquiet]

theorem semPopStep_stage {out : SemPopOutcome}
    (hruns : s.queue.header.stopConsumerPolling = false)
    (hresult : s.consumer.result = none)
    (hout : semPopStep s.queue s.values true s.consumer = some out) :
    (out.receipt = none ∧ out.pc.result = none) ∨
      exists r, out.receipt = some r ∧ out.pc.result = some r := by
  generalize s.consumer = pc at hout hresult
  cases semPopMove_of_step hout with
  | stop hstop =>
      rw [hruns] at hstop
      cases hstop
  | finish => exact Or.inr ⟨_, rfl, rfl⟩
  | unlockFirst => cases hresult
  | unlock => cases hresult
  | post => cases hresult
  | _ => exact Or.inl ⟨rfl, rfl⟩

theorem semPopStep_finished {out : SemPopOutcome} {r : Receipt}
    (hresult : s.consumer.result = some r)
    (hout : semPopStep s.queue s.values true s.consumer = some out) :
    out.receipt = none ∧ out.pc.result = some r := by
  generalize s.consumer = pc at hout hresult
  cases semPopMove_of_step hout with
  | unlockFirst => exact ⟨rfl, hresult⟩
  | unlock => exact ⟨rfl, hresult⟩
  | post => exact ⟨rfl, hresult⟩
  | _ => cases hresult

theorem semConsumerSteps_result {r : Receipt} (hresult : s.consumer.result = some r)
    (h : SemConsumerSteps s s') : s'.consumer.result = some r := by
  induction h with
  | refl => exact hresult
  | tail _ hnext ih =>
      rcases semNext_consumer hnext with ⟨out, hout, rfl⟩
      exact (semPopStep_finished ih hout).right

variable {g : Geometry}

theorem semConsumerStep_invariant {t t' : SemState} (ht : SemInvariant g t)
    (h : semNext t (.consumer true) = some t') : SemInvariant g t' := by
  have hl : SemFullSizeTraffic g.messageSize (.consumer true) := rfl
  exact semNext_invariant ht hl h

theorem semConsumerSteps_carry (header : SpscQueueHeader) (messageSize : Nat)
    (hs : SemInvariant g s)
    (hresult : s.consumer.result = none) (h : SemConsumerSteps s s') {r : Receipt}
    (hidle : s'.consumer = .idle (some r)) :
    (semSystem header).Carries (fun _ l => SemFullSizeTraffic messageSize l)
        SemState.channel s.channel ⟨s.pushed, s.popped ++ [r]⟩ s s' ∧
      s'.channel = ⟨s.pushed, s.popped ++ [r]⟩ := by
  apply TransitionSystem.carries_of_stages
    (fun t => SemInvariant g t ∧ t.consumer.result = none)
    (fun t => t.consumer.result = some r) _ _ _ h ⟨hs, hresult⟩ rfl
  · rw [hidle]
    exact nofun
  · intro t t' hnext
    exact ⟨.consumer true, rfl, hnext⟩
  · intro t t' hrun hsame hnext hrest
    have ht' := semConsumerStep_invariant hrun.left hnext
    rcases semNext_consumer hnext with ⟨out, hout, rfl⟩
    rcases semPopStep_stage hrun.left.contents.running hrun.right hout with
      ⟨hquiet, hmore⟩ | ⟨r', hreceipt, hdone⟩
    · apply Or.inl
      refine ⟨⟨ht', hmore⟩, ?_⟩
      rw [← hsame]
      simp [SemState.channel, SemState.afterPop, hquiet]
    · apply Or.inr
      have hlast := semConsumerSteps_result hdone hrest
      rw [hidle] at hlast
      injection hlast with hlast
      injection hsame with hpushed hpopped
      rw [← hlast] at hreceipt hdone
      refine ⟨hdone, ?_⟩
      simp [SemState.channel, SemState.afterPop, hreceipt, hpushed, hpopped]
  · intro t t' hdone hnext
    rcases semNext_consumer hnext with ⟨out, hout, rfl⟩
    rcases semPopStep_finished hdone hout with ⟨hquiet, hmore⟩
    refine ⟨hmore, ?_⟩
    simp [SemState.channel, SemState.afterPop, hquiet]

theorem length_dequeue (q : SpscQueue) (size : Nat) :
    (dequeue q size).2.receipt.bytes.length =
      clampSize q.header.messageSize q.header.messageOffset size := by
  simp only [dequeue, apply_ite Prod.snd, apply_ite PopReply.receipt,
    apply_ite Receipt.bytes, ite_self, length_load]

theorem SemState.Ready.free (hs : SemInvariant g s) (hready : s.Ready) :
    s.values .lock ≠ 0 ∧ s.retired = position s.popped / g.messageSize := by
  rcases hready with ⟨⟨ret, hproducer⟩, ⟨last, hconsumer⟩⟩
  have hfree : s.consumer.holdsLock = false := by
    rw [hconsumer]
    rfl
  constructor
  · apply lock_free hs.lock _ hfree
    rw [hproducer]
    rfl
  · exact hs.retired_of_unlocked hfree

theorem sem_sends {message : List Byte} (hs : SemInvariant g s) (hready : s.Ready)
    (hlength : message.length = g.messageSize)
    (hroom : s.pushed.length < position s.popped / g.messageSize + (g.queueSize - 1)) :
    exists s', (semSystem header).Carries
        (fun _ l => SemFullSizeTraffic g.messageSize l) SemState.channel s.channel
          ⟨s.pushed ++ [message], s.popped⟩ s s' ∧
      s'.Ready ∧ s'.channel = ⟨s.pushed ++ [message], s.popped⟩ := by
  rcases hready.free hs with ⟨hlock, hretired⟩
  rcases hready with ⟨⟨ret, hproducer⟩, hconsumer⟩
  have hwindow := hs.indices.window
  let called : SemState := { s with producer := .entered message }
  have hcalls : (semSystem header).next s (.push message) = some called := by
    simp only [semSystem, semNext, hproducer]
    rfl
  have hfits : message.length ≤ s.semQueue.queue.header.messageSize := by
    show message.length ≤ s.queue.header.messageSize
    rw [hs.contents.messageSize, hlength]
  have hfree : ¬ (s.semQueue.queue.header.queueSize = 0 ∨
      isFull s.semQueue.queue.header) := by
    show ¬ (s.queue.header.queueSize = 0 ∨ isFull s.queue.header)
    have hslots := hwindow.queueSize
    have htwo := hwindow.two_le
    rw [hwindow.isFull_iff, hretired]
    exact not_or.mpr ⟨by lia, by lia⟩
  have hentered : called.producer = .entered message := rfl
  rcases semProducerSteps_semPush hentered (semPush_room hfits hlock hfree) with
    ⟨s', hsteps, hidle, _, _, hother⟩
  have hbuf : called.producer.buffer = some message := rfl
  rcases semProducerSteps_carry header g.messageSize hbuf
    hsteps hidle with ⟨hcarries, hsent⟩
  have hfirst : (semSystem header).Carries
      (fun _ l => SemFullSizeTraffic g.messageSize l) SemState.channel s.channel
        ⟨s.pushed ++ [message], s.popped⟩ s called :=
    TransitionSystem.carries_quiet (l := .push message) hlength hcalls rfl
  refine ⟨s', hfirst.trans hcarries, ⟨⟨_, hidle⟩, ?_⟩, hsent⟩
  rw [hother]
  exact hconsumer

theorem sem_receives {count : Nat} {message : List Byte} (hs : SemInvariant g s)
    (hready : s.Ready)
    (hmessage : s.pushed[position s.popped / g.messageSize]? = some message)
    (hpos : 0 < count)
    (hfits : position s.popped % g.messageSize + count ≤ g.messageSize) :
    exists s', (semSystem header).Carries
        (fun _ l => SemFullSizeTraffic g.messageSize l) SemState.channel s.channel
          ⟨s.pushed, s.popped ++
            [Channel.piece g.messageSize (position s.popped) count message]⟩ s s' ∧
      s'.Ready ∧ s'.channel = ⟨s.pushed, s.popped ++
        [Channel.piece g.messageSize (position s.popped) count message]⟩ := by
  rcases hready.free hs with ⟨hlock, hretired⟩
  rcases hready with ⟨hproducer, ⟨last, hconsumer⟩⟩
  have hoffset := hs.contents.consumer
  rw [hconsumer] at hoffset
  have hlt := g.messageSize_lt
  have hmod : position s.popped % g.messageSize < g.messageSize :=
    Nat.mod_lt _ g.messageSize_pos
  have hlabel : SemFullSizeTraffic g.messageSize (.pop count) := ⟨hpos, by lia⟩
  have hnonempty : isEmpty s.queue.header = false := by
    have hthere := (List.getElem?_eq_some_iff.mp hmessage).choose
    rw [Bool.eq_false_iff, Ne, hs.indices.window.isEmpty_iff]
    lia
  have hclamp : clampSize s.queue.header.messageSize s.queue.header.messageOffset
      count = count := by
    rw [hs.contents.messageSize, hoffset.left, clampSize_eq_min hmod (by lia)]
    lia
  let called : SemState := { s with consumer := .entered count }
  have hcalls : (semSystem header).next s (.pop count) = some called := by
    simp only [semSystem, semNext, hconsumer]
    rfl
  have hcalled : SemInvariant g called := semNext_invariant hs hlabel hcalls
  have hentered : called.consumer = .entered count := rfl
  rcases semPop_returns hentered hs.contents.running hlock hnonempty with
    ⟨s', hsteps, hidle, _, _, hother⟩
  have hlength := length_dequeue called.queue count
  generalize (dequeue called.queue count).2.receipt = r at hidle hlength
  rw [hclamp] at hlength
  have hresult : called.consumer.result = none := rfl
  rcases semConsumerSteps_carry header g.messageSize
    hcalled hresult hsteps hidle with ⟨hcarries, hlog⟩
  have hfirst : (semSystem header).Carries
      (fun _ l => SemFullSizeTraffic g.messageSize l) SemState.channel s.channel
        ⟨s.pushed, s.popped ++ [r]⟩ s called :=
    TransitionSystem.carries_quiet hlabel hcalls rfl
  have hall : (semSystem header).Carries
      (fun _ l => SemFullSizeTraffic g.messageSize l) SemState.channel s.channel
        ⟨s.pushed, s.popped ++ [r]⟩ s s' := hfirst.trans hcarries
  have hs' : SemInvariant g s' :=
    hall.keeps (fun _ _ _ ht hl hnext => semNext_invariant ht hl hnext) hs
  have hdelivers : DeliversAt g.messageSize s.pushed (position s.popped) r := by
    injection hlog with hpushed hpopped
    have hdelivered := hs'.contents.log
    rw [hpushed, hpopped] at hdelivered
    exact delivered_split hdelivered s.popped r [] rfl
  have hpiece := Channel.eq_piece_of_delivers hdelivers hmessage
  rw [hlength] at hpiece
  rw [← hpiece]
  refine ⟨s', hall, ⟨?_, ⟨_, hidle⟩⟩, hlog⟩
  rw [hother]
  exact hproducer

end Calls

/--
The SEM queue and a channel of `queue_size - 1` messages show the same histories of
messages sent and pieces received.
-/
theorem sem_histories {shmSize messageSize c : Nat} {header : SpscQueueHeader}
    {usable : Int} (hshm : shmSize < 2 ^ 31)
    (hcreate : semQueueCreate shmSize messageSize = .ok (header, usable))
    (hcapacity : header.queueSize = c + 1) (hc : 1 ≤ c) :
    (semSystem header).Histories (fun _ l => SemFullSizeTraffic messageSize l)
        SemState.channel =
      (channelSystem messageSize c).Histories (fun _ _ => True) id := by
  rcases createHeader_ok hcreate with ⟨n, hsizes, hheader⟩
  have hn : header.queueSize = n := by
    rw [hheader]
  rcases guard_of_two_slots (by decide) (by lia) hsizes with ⟨hmessage, hguard⟩
  rcases exists_geometry hmessage hguard hshm hsizes with ⟨g, _, hsize, hqueue, _⟩
  have hslots : g.queueSize - 1 = c := by lia
  have hstarts : forall mem, SemInvariant g (semStart header mem) := by
    intro mem
    exact semStart_invariant mem (by rw [hsize]; exact hcreate) (hn.trans hqueue)
      (by lia)
  subst hsize
  subst hslots
  have hinv : forall s, (semSystem header).ReachableUnder
      (fun _ l => SemFullSizeTraffic g.messageSize l) s -> SemInvariant g s := by
    intro s hs
    refine TransitionSystem.reachableUnder_invariant ?_ ?_ hs
    · intro start hstart
      rcases hstart with ⟨mem, rfl⟩
      exact hstarts mem
    · intro t l t' ht hl hnext
      exact semNext_invariant ht hl hnext
  apply Set.Subset.antisymm
  · apply TransitionSystem.histories_subset
    · intro s hstart
      rcases hstart with ⟨mem, rfl⟩
      rfl
    · intro s l s' hs hl hnext hchange
      exact semNext_channel (hinv s hs) hl hnext hchange
  · apply TransitionSystem.histories_superset SemState.Ready
    · intro v hv
      exact ⟨semStart header fun _ => 0, ⟨_, rfl⟩, ⟨⟨_, rfl⟩, ⟨_, rfl⟩⟩, hv.symm⟩
    · intro s k v hs hready hk _
      rcases Channel.next_cases hk with
        ⟨message, _, hlength, hroom, rfl⟩ | ⟨count, message, _, hmessage, hpos, hfits, rfl⟩
      · exact sem_sends (hinv s hs) hready hlength hroom
      · exact sem_receives (hinv s hs) hready hmessage hpos hfits

/--
A POLL and a SEM queue for messages of one size, with the same number of slots, show
the same histories under every interleaving of their own steps.
-/
theorem poll_sem_histories {pollShm semShm messageSize c : Nat}
    {pollHeader semHeader : SpscQueueHeader} {pollUsable semUsable : Int}
    (hpollShm : pollShm < 2 ^ 31) (hsemShm : semShm < 2 ^ 31)
    (hpoll : queueCreate pollShm messageSize = .ok (pollHeader, pollUsable))
    (hsem : semQueueCreate semShm messageSize = .ok (semHeader, semUsable))
    (hpollSlots : pollHeader.queueSize = c + 1) (hsemSlots : semHeader.queueSize = c + 1)
    (hc : 1 ≤ c) :
    (pollSystem pollHeader).Histories (fun _ l => FullSizeTraffic messageSize l)
        PollState.channel =
      (semSystem semHeader).Histories (fun _ l => SemFullSizeTraffic messageSize l)
        SemState.channel := by
  rw [poll_histories hpollShm hpoll hpollSlots hc, sem_histories hsemShm hsem hsemSlots hc]

/-- A message sent, and three of its four bytes received. -/
theorem sem_histories_twoSlots :
    [⟨[], []⟩, ⟨[[1, 2, 3, 4]], []⟩, ⟨[[1, 2, 3, 4]], [⟨[1, 2, 3], 3⟩]⟩] ∈
      (semSystem twoSlotSemHeader).Histories (fun _ l => SemFullSizeTraffic 4 l)
        SemState.channel := by
  have hcreate : semQueueCreate 56 4 = .ok (twoSlotSemHeader, 56) := by rfl
  have hcapacity : twoSlotSemHeader.queueSize = (1 : Nat) + 1 := rfl
  rw [sem_histories (by decide) hcreate hcapacity (Nat.le_refl 1)]
  have hstart : (channelSystem 4 1).Shows (fun _ _ => True) id [⟨[], []⟩] ⟨[], []⟩ :=
    TransitionSystem.Shows.start rfl
  have hsent := hstart.change (l := .send [1, 2, 3, 4]) trivial (by rfl) (by decide)
  have hread := hsent.change (l := .receive 3) trivial (by rfl) (by decide)
  exact ⟨_, hread⟩

theorem poll_sem_histories_twoSlots :
    (pollSystem twoSlotHeader).Histories (fun _ l => FullSizeTraffic 4 l)
        PollState.channel =
      (semSystem twoSlotSemHeader).Histories (fun _ l => SemFullSizeTraffic 4 l)
        SemState.channel := by
  have hpoll : queueCreate 48 4 = .ok (twoSlotHeader, 48) := by rfl
  have hsem : semQueueCreate 56 4 = .ok (twoSlotSemHeader, 56) := by rfl
  have hpollSlots : twoSlotHeader.queueSize = (1 : Nat) + 1 := rfl
  have hsemSlots : twoSlotSemHeader.queueSize = (1 : Nat) + 1 := rfl
  exact poll_sem_histories (by decide) (by decide) hpoll hsem hpollSlots hsemSlots
    (Nat.le_refl 1)

end Queue
end Notnets
