import Notnets.Queue.SemInvariant

/-!
# Wake-ups of the SEM queue

`sem_push` decides whether to post `sem_empty` from a flag that it sampled
before it may have waited for a full queue, and `sem_pop` decides about
`sem_full` in the same way.  A side sleeps on although the queue would let it
go on exactly when such a flag was out of date at the moment an index moved.
-/

namespace Notnets
namespace Queue

open Foundation

def consumerAsleep (s : SemState) : Bool :=
  s.consumer.sleeps && s.values .empty == 0

def producerAsleep (s : SemState) : Bool :=
  s.producer.sleeps && s.values .full == 0

def consumerStranded (s : SemState) : Bool :=
  consumerAsleep s && !isEmpty s.queue.header && !s.producer.owesPost

def producerStranded (s : SemState) : Bool :=
  producerAsleep s && !isFull s.queue.header && !s.consumer.owesPost

/-- No side sleeps on with nobody to wake it. -/
def NoLostWakeUp (s : SemState) : Prop :=
  consumerStranded s = false ∧ producerStranded s = false

instance (s : SemState) : Decidable (NoLostWakeUp s) :=
  inferInstanceAs (Decidable (_ ∧ _))

/--
A `sem_push` that stores the head of an empty queue before a sleeping consumer
owes a post, and a `sem_pop` that stores the tail of a full queue before a
sleeping producer owes one.
-/
def FlagsCurrent (s : SemState) (l : SemLabel) : Prop :=
  match l, s.producer, s.consumer with
  | .producer _, .publishing _ wasEmpty, _ =>
      consumerAsleep s = true -> isEmpty s.queue.header = true -> wasEmpty = true
  | .consumer _, _, .retiring _ wasFull =>
      producerAsleep s = true -> isFull s.queue.header = true -> wasFull = true
  | _, _, _ => True

/-!
# Which step strands a side
-/

theorem isEmpty_of_same {a b : SpscQueueHeader} (h : SameIndices a b) :
    isEmpty b = isEmpty a := by
  unfold isEmpty
  rw [h.head, h.tail]

theorem isFull_of_same {a b : SpscQueueHeader} (h : SameIndices a b) :
    isFull b = isFull a := by
  unfold isFull
  rw [h.head, h.tail, h.queueSize]

theorem consumerStranded_iff {s : SemState} :
    consumerStranded s = true <-> consumerAsleep s = true ∧
      isEmpty s.queue.header = false ∧ s.producer.owesPost = false := by
  simp [consumerStranded, and_assoc]

theorem producerStranded_iff {s : SemState} :
    producerStranded s = true <-> producerAsleep s = true ∧
      isFull s.queue.header = false ∧ s.consumer.owesPost = false := by
  simp [producerStranded, and_assoc]

theorem consumerAsleep_iff {s : SemState} :
    consumerAsleep s = true <-> s.consumer.sleeps = true ∧ s.values .empty = 0 := by
  simp [consumerAsleep]

theorem producerAsleep_iff {s : SemState} :
    producerAsleep s = true <-> s.producer.sleeps = true ∧ s.values .full = 0 := by
  simp [producerAsleep]

/-- A side that has just gone to sleep saw a queue it cannot use. -/
theorem semPushStep_producer {s : SemState} {ok : Bool} {out : SemPushOutcome}
    (hout : semPushStep s.queue s.values ok s.producer = some out) :
    producerStranded (s.afterPush out) = false := by
  by_contra hstranded
  rcases producerStranded_iff.mp (by simpa using hstranded) with
    ⟨hasleep, hfree, _⟩
  have hsleeps : out.pc.sleeps = true := (producerAsleep_iff.mp hasleep).left
  rcases semPushStep_cases hout with hquiet | ⟨buf, wasEmpty, _, rfl⟩
  · have hfree' : isFull out.queue.header = false := hfree
    rw [isFull_of_same hquiet.indices, hquiet.asleep hsleeps] at hfree'
    cases hfree'
  · cases hsleeps

theorem semPopStep_consumer {s : SemState} {ok : Bool} {out : SemPopOutcome}
    (hout : semPopStep s.queue s.values ok s.consumer = some out) :
    consumerStranded (s.afterPop out) = false := by
  by_contra hstranded
  rcases consumerStranded_iff.mp (by simpa using hstranded) with
    ⟨hasleep, hlive, _⟩
  have hsleeps : out.pc.sleeps = true := (consumerAsleep_iff.mp hasleep).left
  rcases semPopStep_cases hout with hquiet | ⟨buf, wasFull, _, rfl⟩
  · have hlive' : isEmpty out.queue.header = false := hlive
    rw [isEmpty_of_same hquiet.indices, hquiet.asleep hsleeps] at hlive'
    cases hlive'
  · cases hsleeps

/-- A producer step strands the consumer only by publishing with a stale flag. -/
theorem semPushStep_consumer {s : SemState} {out : SemPushOutcome}
    (hsafe : consumerStranded s = false)
    (hflags : FlagsCurrent s (.producer true))
    (hout : semPushStep s.queue s.values true s.producer = some out) :
    consumerStranded (s.afterPush out) = false := by
  by_contra hstranded
  rcases consumerStranded_iff.mp (by simpa using hstranded) with
    ⟨hasleep, hlive, hnone⟩
  rcases consumerAsleep_iff.mp hasleep with ⟨hsleeps, hzero⟩
  have hbefore : ¬ (consumerAsleep s = true ∧ isEmpty s.queue.header = false ∧
      s.producer.owesPost = false) := by
    rw [← consumerStranded_iff, hsafe]
    simp
  rcases semPushStep_cases hout with hquiet | ⟨buf, wasEmpty, hpc, rfl⟩
  · have hzero' : s.values .empty = 0 :=
      Nat.le_zero.mp (Nat.le_trans hquiet.tokens (Nat.le_of_eq hzero))
    apply hbefore
    constructor
    · exact consumerAsleep_iff.mpr ⟨hsleeps, hzero'⟩
    · constructor
      · rw [← isEmpty_of_same hquiet.indices]
        exact hlive
      · by_contra howes
        have hnone' : out.pc.owesPost = false := hnone
        rcases hquiet.owes rfl (by simpa using howes) with hstill | htoken
        · rw [hnone'] at hstill
          cases hstill
        · exact absurd hzero (Nat.ne_of_gt htoken)
  · have hnone' : wasEmpty = false := hnone
    have hasleep' : consumerAsleep s = true := consumerAsleep_iff.mpr ⟨hsleeps, hzero⟩
    cases hempty : isEmpty s.queue.header with
    | true =>
        simp only [FlagsCurrent, hpc] at hflags
        have howes := hflags hasleep' hempty
        rw [hnone'] at howes
        cases howes
    | false =>
        apply hbefore
        rw [hpc]
        exact ⟨hasleep', hempty, hnone'⟩

theorem semPopStep_producer {s : SemState} {out : SemPopOutcome}
    (hsafe : producerStranded s = false)
    (hflags : FlagsCurrent s (.consumer true))
    (hout : semPopStep s.queue s.values true s.consumer = some out) :
    producerStranded (s.afterPop out) = false := by
  by_contra hstranded
  rcases producerStranded_iff.mp (by simpa using hstranded) with
    ⟨hasleep, hfree, hnone⟩
  rcases producerAsleep_iff.mp hasleep with ⟨hsleeps, hzero⟩
  have hbefore : ¬ (producerAsleep s = true ∧ isFull s.queue.header = false ∧
      s.consumer.owesPost = false) := by
    rw [← producerStranded_iff, hsafe]
    simp
  rcases semPopStep_cases hout with hquiet | ⟨buf, wasFull, hpc, rfl⟩
  · have hzero' : s.values .full = 0 :=
      Nat.le_zero.mp (Nat.le_trans hquiet.tokens (Nat.le_of_eq hzero))
    apply hbefore
    constructor
    · exact producerAsleep_iff.mpr ⟨hsleeps, hzero'⟩
    · constructor
      · rw [← isFull_of_same hquiet.indices]
        exact hfree
      · by_contra howes
        have hnone' : out.pc.owesPost = false := hnone
        rcases hquiet.owes rfl (by simpa using howes) with hstill | htoken
        · rw [hnone'] at hstill
          cases hstill
        · exact absurd hzero (Nat.ne_of_gt htoken)
  · have hnone' : wasFull = false := hnone
    have hasleep' : producerAsleep s = true := producerAsleep_iff.mpr ⟨hsleeps, hzero⟩
    cases hfull : isFull s.queue.header with
    | true =>
        simp only [FlagsCurrent, hpc] at hflags
        have howes := hflags hasleep' hfull
        rw [hnone'] at howes
        cases howes
    | false =>
        apply hbefore
        rw [hpc]
        exact ⟨hasleep', hfull, hnone'⟩

/-!
# Exactness
-/

structure WakeUpInvariant (slots : Nat) (s : SemState) : Prop where
  indices : SemIndices slots s
  awake : NoLostWakeUp s

theorem semNext_awake {slots : Nat} {s s' : SemState} {l : SemLabel}
    (hs : WakeUpInvariant slots s) (hl : SemopsSucceed l)
    (hflags : FlagsCurrent s l) (h : semNext s l = some s') :
    WakeUpInvariant slots s' := by
  constructor
  · exact semNext_indices hs.indices h
  · rcases hs.awake with ⟨hconsumer, hproducer⟩
    rcases semNext_cases h with
      ⟨buf, ret, _, hpc, rfl⟩ | ⟨ok, out, rfl, hout, rfl⟩ |
        ⟨size, last, _, hpc, rfl⟩ | ⟨ok, out, rfl, hout, rfl⟩
    · constructor
      · simpa [consumerStranded, consumerAsleep, hpc, SemPushPc.owesPost]
          using hconsumer
      · rfl
    · cases hl
      exact ⟨semPushStep_consumer hconsumer hflags hout, semPushStep_producer hout⟩
    · constructor
      · rfl
      · simpa [producerStranded, producerAsleep, hpc, SemPopPc.owesPost]
          using hproducer
    · cases hl
      exact ⟨semPopStep_consumer hout, semPopStep_producer hproducer hflags hout⟩

/-- A stale flag at an index store strands the other side at once. -/
theorem semNext_stranded {slots : Nat} {s s' : SemState} {l : SemLabel}
    (hs : SemIndices slots s) (h : semNext s l = some s')
    (hstale : ¬ FlagsCurrent s l) : ¬ NoLostWakeUp s' := by
  have htwo := hs.window.two_le
  intro hawake
  rcases hawake with ⟨hconsumer, hproducer⟩
  cases l with
  | push buf => exact hstale trivial
  | pop size => exact hstale trivial
  | producer ok =>
      cases hpc : s.producer with
      | publishing buf wasEmpty =>
          simp only [FlagsCurrent, hpc] at hstale
          push Not at hstale
          rcases hstale with ⟨hasleep, hempty, howes⟩
          simp only [semNext, hpc, semPushStep] at h
          injection h with h
          subst h
          have hsame := hs.window.isEmpty_iff.mp hempty
          have hwindow := hs.window.publish (by lia)
          have hlive : isEmpty (s.queue.setHead
              (succ s.queue.header.head s.queue.header.queueSize)).header = false := by
            rw [Bool.eq_false_iff, Ne, hwindow.isEmpty_iff]
            lia
          have hnone : wasEmpty = false := by simpa using howes
          have hstranded : consumerStranded (s.afterPush
              ⟨s.queue.setHead (succ s.queue.header.head s.queue.header.queueSize),
                s.values, .unlocking wasEmpty, some buf⟩) = true :=
            consumerStranded_iff.mpr ⟨hasleep, hlive, hnone⟩
          rw [hstranded] at hconsumer
          cases hconsumer
      | _ => simp [FlagsCurrent, hpc] at hstale
  | consumer ok =>
      cases hpc : s.consumer with
      | retiring buf wasFull =>
          simp only [FlagsCurrent, hpc] at hstale
          push Not at hstale
          rcases hstale with ⟨hasleep, hfull, howes⟩
          simp only [semNext, hpc, semPopStep] at h
          injection h with h
          subst h
          have hlast := hs.window.isFull_iff.mp hfull
          have hwindow := hs.window.retire (by lia)
          have hfree : isFull (s.queue.setTail
              (succ s.queue.header.tail s.queue.header.queueSize)).header = false := by
            rw [Bool.eq_false_iff, Ne, hwindow.isFull_iff]
            lia
          have hnone : wasFull = false := by simpa using howes
          have hstranded : producerStranded (s.afterPop
              ⟨s.queue.setTail (succ s.queue.header.tail s.queue.header.queueSize),
                s.values, .counting buf wasFull, true, none⟩) = true :=
            producerStranded_iff.mpr ⟨hasleep, hfree, hnone⟩
          rw [hstranded] at hproducer
          cases hproducer
      | _ => simp [FlagsCurrent, hpc] at hstale

/--
In a run in which no semaphore operation fails, no side is ever left asleep
with nobody to wake it exactly when no index was ever stored under a stale
flag.
-/
theorem sem_no_lost_wakeUp_iff {shmSize messageSize : Nat}
    {header : SpscQueueHeader} {usable : Int} {start s : SemState}
    {trace : List (Transition SemState SemLabel)}
    (hcreate : semQueueCreate shmSize messageSize = .ok (header, usable))
    (htwo : 2 ≤ header.queueSize)
    (hstart : (semSystem header).Initial start)
    (hrun : (semSystem header).Run start trace s)
    (hsemops : TransitionSystem.Guarded (fun _ l => SemopsSucceed l) trace) :
    TransitionSystem.Guarded FlagsCurrent trace <->
      forall t, t ∈ trace -> NoLostWakeUp t.target := by
  have hinv : WakeUpInvariant header.queueSize.toNat start := by
    rcases hstart with ⟨mem, rfl⟩
    exact ⟨semStart_indices mem hcreate htwo, rfl, rfl⟩
  refine TransitionSystem.run_guarded_iff_safe ?_ ?_ hrun hsemops hinv
  · intro s l s' hs hnext hl hflags
    have hs' := semNext_awake hs hl hflags hnext
    exact ⟨hs', hs'.awake⟩
  · intro s l s' hs hnext _ hstale
    exact semNext_stranded hs.indices hnext hstale

/-!
# A producer left asleep

On a ring of two slots the consumer finds the queue empty and waits.  The
producer fills the queue, wakes the consumer, and then finds the queue full.
The consumer sampled `was_full` before it waited, so it frees the slot and
posts nothing.
-/

/-- The header of a ring of two slots of four bytes. -/
def twoSlotSemHeader : SpscQueueHeader where
  head := 0
  tail := 0
  messageSize := 4
  messageOffset := 0
  queueSize := 2
  currentCount := 0
  totalCount := 0
  stopProducerPolling := false
  stopConsumerPolling := false

def strandingLabels : List SemLabel :=
  .pop 4 :: List.replicate 6 (.consumer true) ++
    (.push [1, 2, 3, 4] :: List.replicate 15 (.producer true)) ++
    (.push [5, 6, 7, 8] :: List.replicate 8 (.producer true)) ++
    List.replicate 16 (.consumer true)

theorem sem_no_lost_wakeUp_iff_stranding :
    exists s trace,
      (semSystem twoSlotSemHeader).Run
        (semStart twoSlotSemHeader (fun _ => 0)) trace s ∧
      trace.map Transition.label = strandingLabels ∧
      (TransitionSystem.Guarded FlagsCurrent trace <->
        forall t, t ∈ trace -> NoLostWakeUp t.target) := by
  have hsome : ((semSystem twoSlotSemHeader).execute
      (semStart twoSlotSemHeader (fun _ => 0)) strandingLabels).isSome = true := by
    decide +kernel
  rcases Option.isSome_iff_exists.mp hsome with ⟨s, hexec⟩
  have hall : forall l, l ∈ strandingLabels -> SemopsSucceed l := by decide
  rcases TransitionSystem.exists_run_of_execute hexec hall with
    ⟨trace, hrun, hlabels, hsemops⟩
  have hcreate : semQueueCreate 56 4 = .ok (twoSlotSemHeader, 56) := by rfl
  exact ⟨s, trace, hrun, hlabels, sem_no_lost_wakeUp_iff hcreate (by decide)
    ⟨_, rfl⟩ hrun hsemops⟩

theorem sem_lost_wakeUp :
    ¬ forall (shmSize messageSize : Nat) (header : SpscQueueHeader) (usable : Int)
        (s : SemState),
      semQueueCreate shmSize messageSize = .ok (header, usable) ->
      2 ≤ header.queueSize ->
      (semSystem header).ReachableUnder (fun _ l => SemopsSucceed l) s ->
      NoLostWakeUp s := by
  intro hclaim
  have hstranded : (((semSystem twoSlotSemHeader).execute
      (semStart twoSlotSemHeader (fun _ => 0)) strandingLabels).map
        producerStranded) = some true := by
    decide +kernel
  rcases Option.map_eq_some_iff.mp hstranded with ⟨s, hexec, hs⟩
  have hall : forall l, l ∈ strandingLabels -> SemopsSucceed l := by decide
  have hstart : (semSystem twoSlotSemHeader).Initial
      (semStart twoSlotSemHeader (fun _ => 0)) := ⟨_, rfl⟩
  have hreach := TransitionSystem.reachableUnder_of_execute hstart hexec hall
  have hsafe := hclaim 56 4 twoSlotSemHeader 56 s (by rfl) (by decide) hreach
  rw [hsafe.right] at hs
  cases hs

end Queue
end Notnets
