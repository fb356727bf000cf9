import Mathlib.Logic.Relation
import Notnets.Queue.Call
import Notnets.Queue.PollFifo

/-!
# Calls that wait and calls that finish

A running `push` waits exactly when the ring is full, and a running `pop` exactly
when it is empty.  Otherwise a party that goes on alone finishes its call.
-/

namespace Notnets
namespace Queue

open Foundation
open Relation

def PushWaits (q : SpscQueue) : PushPc -> Prop
  | .polling _ _ _ nextWriterHead => nextWriterHead = q.header.tail
  | _ => False

def PopWaits (q : SpscQueue) : PopPc -> Prop
  | .polling _ readerTail => readerTail = q.header.head
  | _ => False

namespace HeaderAt

variable {g : Geometry} {header : SpscQueueHeader} {pushed read : Nat}

theorem full_iff (h : HeaderAt g header pushed read) :
    (((pushed + 1) % g.queueSize : Nat) : Int) = header.tail <->
      pushed + 1 = read + g.queueSize := by
  constructor
  · intro hfull
    have hle := h.read_le
    have hlt := h.pushed_lt
    rw [h.tail, Int.natCast_inj] at hfull
    have hmod : (pushed + 1) % g.queueSize = read % g.queueSize := hfull
    have hdvd : g.queueSize ∣ pushed + 1 - read :=
      (Nat.modEq_iff_dvd' (by lia)).mp hmod.symm
    have hge := Nat.le_of_dvd (by lia) hdvd
    lia
  · intro hfull
    rw [h.tail, hfull, Nat.add_mod_right]

theorem empty_iff (h : HeaderAt g header pushed read) :
    ((read % g.queueSize : Nat) : Int) = header.head <-> pushed = read := by
  constructor
  · intro hempty
    have hle := h.read_le
    have hlt := h.pushed_lt
    rw [h.head, Int.natCast_inj] at hempty
    have hmod : read % g.queueSize = pushed % g.queueSize := hempty
    have hdvd : g.queueSize ∣ pushed - read := (Nat.modEq_iff_dvd' hle).mp hmod
    by_contra hne
    have hge := Nat.le_of_dvd (by lia) hdvd
    lia
  · intro hempty
    rw [h.head, hempty]

end HeaderAt

/-!
# Whole messages
-/

def WholeTraffic (messageSize : Nat) : PollLabel -> Prop
  | .push buf => buf.length = messageSize
  | .pop size => size = messageSize
  | _ => True

def PopWhole (g : Geometry) : PopPc -> Prop
  | .idle _ => True
  | .entered size | .clamped size | .running size => size = g.messageSize
  | .polling size _ => size = g.messageSize
  | .copying size _ _ => size = g.messageSize
  | .advanced size _ _ => size = g.messageSize
  | .finishing _ _ buf => buf.length = g.messageSize

structure WholeInvariant (g : Geometry) (s : PollState) : Prop where
  invariant : PollInvariant g s
  log : forall r, r ∈ s.popped -> r.bytes.length = g.messageSize
  consumer : PopWhole g s.consumer

theorem fullSizeTraffic_of_whole (g : Geometry) {l : PollLabel}
    (h : WholeTraffic g.messageSize l) : FullSizeTraffic g.messageSize l := by
  have hpos := g.messageSize_pos
  have hlt := g.messageSize_lt
  cases l with
  | push buf => exact h
  | pop size =>
      have hsize : size = g.messageSize := h
      constructor
      · lia
      · lia
  | producer => trivial
  | consumer => trivial

namespace WholeInvariant

variable {g : Geometry} {s : PollState}

theorem position_eq (h : WholeInvariant g s) :
    position s.popped = s.popped.length * g.messageSize :=
  position_of_whole h.log

/-- The count of the consumer is the number of its completed calls. -/
theorem header (h : WholeInvariant g s) :
    HeaderAt g s.queue.header s.pushed.length s.popped.length := by
  have hheader := h.invariant.left.header
  rw [h.position_eq, Nat.mul_div_cancel _ g.messageSize_pos] at hheader
  exact hheader

theorem popped_eq (h : WholeInvariant g s) :
    s.popped.map Receipt.bytes = s.pushed.take s.popped.length :=
  bytes_of_whole g.messageSize_pos h.invariant.right.uniform h.log
    h.invariant.right.log

theorem pushed_of_pushWaits (h : WholeInvariant g s)
    (hwaits : PushWaits s.queue s.producer) :
    s.pushed.length + 1 = s.popped.length + g.queueSize := by
  have hproducer := h.invariant.left.producer
  cases hpc : s.producer with
  | polling buf messageSize writerHead nextWriterHead =>
      rw [hpc] at hproducer hwaits
      rcases hproducer with ⟨_, _, _, hnext⟩
      have hfull : nextWriterHead = s.queue.header.tail := hwaits
      rw [hnext] at hfull
      exact h.header.full_iff.mp hfull
  | _ =>
      rw [hpc] at hwaits
      exact hwaits.elim

theorem pushed_of_popWaits (h : WholeInvariant g s)
    (hwaits : PopWaits s.queue s.consumer) : s.pushed.length = s.popped.length := by
  have hconsumer := h.invariant.left.consumer
  cases hpc : s.consumer with
  | polling size readerTail =>
      rw [hpc] at hconsumer hwaits
      rcases hconsumer with ⟨_, _, htail⟩
      have hempty : readerTail = s.queue.header.head := hwaits
      rw [htail, h.position_eq, Nat.mul_div_cancel _ g.messageSize_pos] at hempty
      exact h.header.empty_iff.mp hempty
  | _ =>
      rw [hpc] at hwaits
      exact hwaits.elim

end WholeInvariant

theorem clampSize_whole (g : Geometry) :
    clampSize g.messageSize 0 g.messageSize = g.messageSize := by
  have hmessage := g.messageSize_lt
  have hzero : toSizeT 0 = 0 := toSizeT_natCast (by decide)
  unfold clampSize
  rw [hzero, sizeAdd_of_fits (by lia)]
  rw [if_neg (by lia)]

theorem popStep_whole {g : Geometry} {s : PollState} {out : PopOutcome}
    (h : WholeInvariant g s) (hout : popStep s.queue s.consumer = some out) :
    PopWhole g out.pc ∧
      forall r, out.receipt = some r -> r.bytes.length = g.messageSize := by
  have hheader := h.header
  have hindex := h.invariant.left.consumer
  have hwhole := h.consumer
  have hnone : forall r : Receipt, (none : Option Receipt) = some r ->
      r.bytes.length = g.messageSize := by
    intro r hr
    cases hr
  generalize s.consumer = pc at hout hindex hwhole
  cases popMove_of_step hout with
  | @clamp size =>
      have hsize : size = g.messageSize := hwhole
      have hoffset : s.queue.header.messageOffset = 0 := by
        rw [hindex.left, h.position_eq, Nat.mul_mod_left]
        rfl
      refine ⟨?_, hnone⟩
      show clampSize _ _ _ = _
      rw [hoffset, hheader.messageSize, hsize]
      exact clampSize_whole g
  | stop hstop =>
      rw [hheader.running] at hstop
      cases hstop
  | run _ => exact ⟨hwhole, hnone⟩
  | load => exact ⟨hwhole, hnone⟩
  | wait _ => exact ⟨hwhole, hnone⟩
  | message _ => exact ⟨hwhole, hnone⟩
  | copy _ => exact ⟨hwhole, hnone⟩
  | advance _ => exact ⟨hwhole, hnone⟩
  | whole _ =>
      rcases hindex with ⟨_, _, _, _, hlength⟩
      exact ⟨hlength.trans hwhole, hnone⟩
  | part _ =>
      rcases hindex with ⟨_, _, _, _, hlength⟩
      exact ⟨hlength.trans hwhole, hnone⟩
  | finish =>
      refine ⟨trivial, ?_⟩
      intro r hr
      injection hr with hr
      rw [← hr]
      exact hwhole

theorem pollNext_whole {g : Geometry} {s s' : PollState} {l : PollLabel}
    (hs : WholeInvariant g s) (hl : WholeTraffic g.messageSize l)
    (h : pollNext s l = some s') : WholeInvariant g s' := by
  have hinv : PollInvariant g s' :=
    pollNext_invariant hs.invariant (fullSizeTraffic_of_whole g hl) h
  rcases pollNext_cases h with
    ⟨_, _, _, _, rfl⟩ | ⟨_, _, _, rfl⟩ | ⟨size, _, rfl, _, rfl⟩ | ⟨out, _, hout, rfl⟩
  · exact ⟨hinv, hs.log, hs.consumer⟩
  · exact ⟨hinv, hs.log, hs.consumer⟩
  · exact ⟨hinv, hs.log, hl⟩
  · rcases popStep_whole hs hout with ⟨hwhole, hreceipt⟩
    refine ⟨hinv, ?_, hwhole⟩
    intro r hr
    rcases List.mem_append.mp hr with hbefore | hnew
    · exact hs.log r hbefore
    · exact hreceipt r (Option.mem_toList.mp hnew)

theorem pollStart_whole {g : Geometry} {shmSize : Nat} {header : SpscQueueHeader}
    {usable : Int} (mem : ByteMemory)
    (hcreate : queueCreate shmSize g.messageSize = .ok (header, usable))
    (hsize : header.queueSize = g.queueSize) :
    WholeInvariant g (pollStart header mem) where
  invariant := ⟨pollStart_indices mem hcreate hsize, pollStart_contents g header mem⟩
  log := nofun
  consumer := trivial

/-!
# Finishing a call
-/

def ProducerSteps : PollState -> PollState -> Prop :=
  ReflTransGen fun s s' => pollNext s .producer = some s'

def ConsumerSteps : PollState -> PollState -> Prop :=
  ReflTransGen fun s s' => pollNext s .consumer = some s'

@[simp] theorem PollState.afterPush_consumer (s : PollState) (out : PushOutcome) :
    (s.afterPush out).consumer = s.consumer := rfl

@[simp] theorem PollState.afterPop_producer (s : PollState) (out : PopOutcome) :
    (s.afterPop out).producer = s.producer := rfl

section Steps

variable {g : Geometry} {s : PollState}

theorem producerSteps_head {out : PushOutcome} {s' : PollState}
    (h : pushStep s.queue s.producer = some out)
    (hrest : ProducerSteps (s.afterPush out) s') : ProducerSteps s s' := by
  apply ReflTransGen.head _ hrest
  simp only [pollNext, h]
  rfl

theorem consumerSteps_head {out : PopOutcome} {s' : PollState}
    (h : popStep s.queue s.consumer = some out)
    (hrest : ConsumerSteps (s.afterPop out) s') : ConsumerSteps s s' := by
  apply ReflTransGen.head _ hrest
  simp only [pollNext, h]
  rfl

theorem push_copies {buf : List Byte} {messageSize writerHead nextWriterHead : Int}
    {copied : Nat}
    (hpc : s.producer = .copying buf messageSize writerHead nextWriterHead copied) :
    exists s', ProducerSteps s s' ∧ s'.producer = .idle (some 0) ∧
      s'.queue = (s.queue.copy (pushAddress messageSize writerHead + copied)
        (buf.drop copied)).setHead nextWriterHead ∧ s'.consumer = s.consumer := by
  have hlast : forall copied (s : PollState), buf[copied]? = none ->
      s.producer = .copying buf messageSize writerHead nextWriterHead copied ->
        exists s', ProducerSteps s s' ∧ s'.producer = .idle (some 0) ∧
          s'.queue = (s.queue.copy (pushAddress messageSize writerHead + copied)
            (buf.drop copied)).setHead nextWriterHead ∧ s'.consumer = s.consumer := by
    intro copied s hbyte hpc
    have hout : pushStep s.queue s.producer =
        some ⟨s.queue.setHead nextWriterHead, .idle (some 0), some buf⟩ := by
      simp only [hpc, pushStep, hbyte]
    refine ⟨_, producerSteps_head hout ReflTransGen.refl, rfl, ?_, rfl⟩
    rw [List.drop_eq_nil_of_le (List.getElem?_eq_none_iff.mp hbyte)]
    rfl
  have hmore : forall todo copied (s : PollState), buf.length - copied ≤ todo ->
      s.producer = .copying buf messageSize writerHead nextWriterHead copied ->
        exists s', ProducerSteps s s' ∧ s'.producer = .idle (some 0) ∧
          s'.queue = (s.queue.copy (pushAddress messageSize writerHead + copied)
            (buf.drop copied)).setHead nextWriterHead ∧ s'.consumer = s.consumer := by
    intro todo
    induction todo with
    | zero =>
        intro copied s hle hpc
        exact hlast copied s (List.getElem?_eq_none (by lia)) hpc
    | succ todo ih =>
        intro copied s hle hpc
        cases hbyte : buf[copied]? with
        | none => exact hlast copied s hbyte hpc
        | some b =>
            let out : PushOutcome :=
              ⟨s.queue.write (pushAddress messageSize writerHead + copied) b,
                .copying buf messageSize writerHead nextWriterHead (copied + 1), none⟩
            have hout : pushStep s.queue s.producer = some out := by
              simp only [hpc, pushStep, hbyte]
              rfl
            rcases ih (copied + 1) (s.afterPush out) (by lia) rfl with
              ⟨s', hsteps, hidle, hqueue, hconsumer⟩
            refine ⟨s', producerSteps_head hout hsteps, hidle, ?_, hconsumer⟩
            rcases List.getElem?_eq_some_iff.mp hbyte with ⟨hlt, hb⟩
            rw [hqueue, List.drop_eq_getElem_cons hlt, hb, Nat.cast_succ, ← add_assoc]
            rfl
  exact hmore (buf.length - copied) copied s (Nat.le_refl _) hpc

theorem producerSteps_whole {s' : PollState} (hs : WholeInvariant g s)
    (h : ProducerSteps s s') :
    WholeInvariant g s' ∧ s'.popped = s.popped ∧ s'.consumer = s.consumer := by
  induction h with
  | refl => exact ⟨hs, rfl, rfl⟩
  | tail hbefore hnext ih =>
      rcases ih with ⟨hwhole, hpopped, hconsumer⟩
      have hl : WholeTraffic g.messageSize .producer := trivial
      refine ⟨pollNext_whole hwhole hl hnext, ?_, ?_⟩
      · rcases pollNext_cases hnext with
          ⟨_, _, hl, _⟩ | ⟨_, _, _, rfl⟩ | ⟨_, _, hl, _⟩ | ⟨_, hl, _⟩
        · cases hl
        · exact hpopped
        · cases hl
        · cases hl
      · rcases pollNext_cases hnext with
          ⟨_, _, hl, _⟩ | ⟨_, _, _, rfl⟩ | ⟨_, _, hl, _⟩ | ⟨_, hl, _⟩
        · cases hl
        · exact hconsumer
        · cases hl
        · cases hl

theorem push_polls (h : WholeInvariant g s) {buf : List Byte}
    (hpc : s.producer = .entered buf) :
    exists s', ProducerSteps s s' ∧ s'.pushed = s.pushed ∧
      exists messageSize writerHead nextWriterHead,
        s'.producer = .polling buf messageSize writerHead nextWriterHead := by
  have hholds := h.invariant.right.producer
  rw [hpc] at hholds
  have hlength : buf.length = g.messageSize := hholds
  let sized : PushOutcome :=
    ⟨s.queue, .sized buf (toInt32 s.queue.header.messageSize), none⟩
  let polling : PushOutcome :=
    ⟨s.queue, .polling buf (toInt32 s.queue.header.messageSize) s.queue.header.head
      (nextIndex s.queue.header s.queue.header.head), none⟩
  have hsized : pushStep s.queue s.producer = some sized := by
    simp only [hpc, pushStep]
    rw [if_neg (by rw [h.header.messageSize, hlength]; exact Nat.lt_irrefl _)]
  have hpolling : pushStep (s.afterPush sized).queue (s.afterPush sized).producer =
      some polling := rfl
  refine ⟨_, producerSteps_head hsized (producerSteps_head hpolling ReflTransGen.refl),
    ?_, _, _, _, rfl⟩
  simp [PollState.afterPush, sized, polling]

theorem push_waits (h : WholeInvariant g s) {buf : List Byte}
    (hpc : s.producer = .entered buf)
    (hfull : s.pushed.length + 1 = s.popped.length + g.queueSize) :
    exists s', ProducerSteps s s' ∧ PushWaits s'.queue s'.producer := by
  rcases push_polls h hpc with ⟨s', hsteps, hpushed, _, _, next, hpolling⟩
  rcases producerSteps_whole h hsteps with ⟨hwhole, hpopped, _⟩
  refine ⟨s', hsteps, ?_⟩
  have hproducer := hwhole.invariant.left.producer
  rw [hpolling] at hproducer ⊢
  rcases hproducer with ⟨_, _, _, hnext⟩
  show next = s'.queue.header.tail
  rw [hnext]
  apply hwhole.header.full_iff.mpr
  rw [hpushed, hpopped]
  exact hfull

theorem push_completes (h : WholeInvariant g s) {buf : List Byte}
    (hpc : s.producer = .entered buf)
    (hroom : s.pushed.length + 1 ≠ s.popped.length + g.queueSize) :
    exists s', ProducerSteps s s' ∧ exists ret, s'.producer = .idle ret := by
  rcases push_polls h hpc with ⟨s1, hsteps, hpushed, messageSize, head, next, hpolling⟩
  rcases producerSteps_whole h hsteps with ⟨hwhole, hpopped, _⟩
  have hproducer := hwhole.invariant.left.producer
  rw [hpolling] at hproducer
  rcases hproducer with ⟨_, _, _, hnext⟩
  have hfree : next ≠ s1.queue.header.tail := by
    rw [hnext]
    intro hfull
    apply hroom
    rw [← hpushed, ← hpopped]
    exact hwhole.header.full_iff.mp hfull
  let copying : PushOutcome := ⟨s1.queue, .copying buf messageSize head next 0, none⟩
  have hcopying : pushStep s1.queue s1.producer = some copying := by
    simp only [hpolling, pushStep, if_neg hfree]
    rfl
  have hpc1 : (s1.afterPush copying).producer =
      .copying buf messageSize head next 0 := rfl
  rcases push_copies hpc1 with ⟨s', hrest, hidle, _⟩
  exact ⟨s', hsteps.trans (producerSteps_head hcopying hrest), _, hidle⟩

/-!
# pop
-/

theorem pop_finishes {nextReaderTail : Int} {read : Nat} {buf : List Byte}
    (hpc : s.consumer = .finishing nextReaderTail read buf) :
    exists s', ConsumerSteps s s' ∧ s'.producer = s.producer ∧
      s'.consumer = .idle (some ⟨buf, read⟩) ∧
        s'.queue = s.queue.setTail nextReaderTail := by
  have hout : popStep s.queue s.consumer = some ⟨s.queue.setTail nextReaderTail,
      .idle (some ⟨buf, read⟩), some ⟨buf, read⟩⟩ := by
    simp only [hpc, popStep]
  exact ⟨_, consumerSteps_head hout ReflTransGen.refl, rfl, rfl, rfl⟩

theorem pop_removes {size : Nat} {readerTail : Int} {buf : List Byte}
    (hpc : s.consumer = .advanced size readerTail buf)
    (hall : toSizeT s.queue.header.messageOffset = s.queue.header.messageSize) :
    exists s', ConsumerSteps s s' ∧ s'.producer = s.producer ∧
      s'.consumer = .idle (some ⟨buf, 0⟩) ∧
        s'.queue = (s.queue.setMessageOffset 0).setTail
          (nextIndex s.queue.header readerTail) := by
  let out : PopOutcome := ⟨s.queue.setMessageOffset 0,
    .finishing (nextIndex s.queue.header readerTail) 0 buf, none⟩
  have hout : popStep s.queue s.consumer = some out := by
    simp only [hpc, popStep, if_pos hall]
    rfl
  have hfinishing : (s.afterPop out).consumer =
      .finishing (nextIndex s.queue.header readerTail) 0 buf := rfl
  rcases pop_finishes hfinishing with ⟨s', hsteps, hproducer, hconsumer, hqueue⟩
  exact ⟨s', consumerSteps_head hout hsteps, hproducer, hconsumer, hqueue⟩

theorem pop_stays {size : Nat} {readerTail : Int} {buf : List Byte}
    (hpc : s.consumer = .advanced size readerTail buf)
    (hpart : toSizeT s.queue.header.messageOffset ≠ s.queue.header.messageSize) :
    exists s', ConsumerSteps s s' ∧ s'.producer = s.producer ∧
      s'.consumer = .idle (some ⟨buf, toSizeT s.queue.header.messageOffset⟩) ∧
        s'.queue = s.queue.setTail readerTail := by
  let out : PopOutcome := ⟨s.queue,
    .finishing readerTail (toSizeT s.queue.header.messageOffset) buf, none⟩
  have hout : popStep s.queue s.consumer = some out := by
    simp only [hpc, popStep, if_neg hpart]
    rfl
  have hfinishing : (s.afterPop out).consumer =
      .finishing readerTail (toSizeT s.queue.header.messageOffset) buf := rfl
  rcases pop_finishes hfinishing with ⟨s', hsteps, hproducer, hconsumer, hqueue⟩
  exact ⟨s', consumerSteps_head hout hsteps, hproducer, hconsumer, hqueue⟩

theorem pop_copies {size : Nat} {readerTail : Int} {buf : List Byte}
    (hpc : s.consumer = .copying size readerTail buf) (hle : buf.length ≤ size)
    (hbuf : buf = load s.queue.mem (popAddress s.queue.header readerTail) buf.length) :
    exists s', ConsumerSteps s s' ∧ s'.producer = s.producer ∧
      s'.consumer = .idle (some (popMessage s.queue readerTail size).2.receipt) ∧
      s'.queue = (popMessage s.queue readerTail size).1 := by
  generalize htodo : size - buf.length = todo
  induction todo generalizing s buf with
  | zero =>
      have hdone : ¬ buf.length < size := by lia
      have hlength : buf.length = size := by lia
      let out : PopOutcome :=
        ⟨s.queue.setMessageOffset (advanceOffset s.queue.header.messageOffset size),
          .advanced size readerTail buf, none⟩
      have hout : popStep s.queue s.consumer = some out := by
        simp only [hpc, popStep, if_neg hdone]
        rfl
      have hadvanced : (s.afterPop out).consumer = .advanced size readerTail buf := rfl
      have hqueue : (s.afterPop out).queue = s.queue.setMessageOffset
          (advanceOffset s.queue.header.messageOffset size) := rfl
      have hoffset : toSizeT (s.afterPop out).queue.header.messageOffset =
            (s.afterPop out).queue.header.messageSize <->
          toSizeT (advanceOffset s.queue.header.messageOffset size) =
            s.queue.header.messageSize := by
        rw [hqueue, SpscQueue.setMessageOffset_messageOffset,
          SpscQueue.setMessageOffset_messageSize]
      rw [hlength] at hbuf
      by_cases hend : toSizeT (advanceOffset s.queue.header.messageOffset size) =
          s.queue.header.messageSize
      · rcases pop_removes hadvanced (hoffset.mpr hend) with
          ⟨s', hsteps, hproducer, hconsumer, hlast⟩
        rw [PollState.afterPop_producer] at hproducer
        rw [hqueue, SpscQueue.setMessageOffset_twice, nextIndex_setMessageOffset]
          at hlast
        refine ⟨s', consumerSteps_head hout hsteps, hproducer, ?_, ?_⟩
        · simp only [popMessage, hend, if_true, ← hbuf]
          exact hconsumer
        · simp only [popMessage, hend, if_true]
          exact hlast
      · rcases pop_stays hadvanced (fun h => hend (hoffset.mp h)) with
          ⟨s', hsteps, hproducer, hconsumer, hlast⟩
        rw [PollState.afterPop_producer] at hproducer
        rw [hqueue, SpscQueue.setMessageOffset_messageOffset] at hconsumer
        rw [hqueue] at hlast
        refine ⟨s', consumerSteps_head hout hsteps, hproducer, ?_, ?_⟩
        · simp only [popMessage, hend, if_false, ← hbuf]
          exact hconsumer
        · simp only [popMessage, hend, if_false]
          exact hlast
  | succ todo ih =>
      have hlt : buf.length < size := by lia
      let out : PopOutcome := ⟨s.queue, .copying size readerTail (buf ++
        [s.queue.mem (popAddress s.queue.header readerTail + buf.length)]), none⟩
      have hout : popStep s.queue s.consumer = some out := by
        simp only [hpc, popStep, if_pos hlt]
        rfl
      have hlength : (buf ++ [s.queue.mem (popAddress s.queue.header readerTail +
          buf.length)]).length = buf.length + 1 := by
        rw [List.length_append, List.length_singleton]
      have hmore : buf ++ [s.queue.mem (popAddress s.queue.header readerTail +
          buf.length)] = load s.queue.mem (popAddress s.queue.header readerTail)
            (buf.length + 1) := by
        rw [load_succ, ← hbuf]
      rw [← hlength] at hmore
      have hcopying : (s.afterPop out).consumer = .copying size readerTail _ := rfl
      have hqueue : (s.afterPop out).queue = s.queue := rfl
      rw [← hqueue] at hmore
      rcases ih hcopying (by lia) hmore (by lia) with ⟨s', hsteps, hresult⟩
      rw [hqueue, PollState.afterPop_producer] at hresult
      exact ⟨s', consumerSteps_head hout hsteps, hresult⟩

theorem pop_completes (h : WholeInvariant g s) {size : Nat}
    (hpc : s.consumer = .entered size) (hmessage : s.pushed.length ≠ s.popped.length) :
    exists s', ConsumerSteps s s' ∧ exists last, s'.consumer = .idle last := by
  let whole := clampSize s.queue.header.messageSize s.queue.header.messageOffset size
  let clamped : PopOutcome := ⟨s.queue, .clamped whole, none⟩
  let running : PopOutcome := ⟨s.queue, .running whole, none⟩
  let polling : PopOutcome := ⟨s.queue, .polling whole s.queue.header.tail, none⟩
  let copying : PopOutcome := ⟨s.queue, .copying whole s.queue.header.tail [], none⟩
  have hclamped : popStep s.queue s.consumer = some clamped := by
    simp only [hpc, popStep]
    rfl
  have hrunning : popStep (s.afterPop clamped).queue (s.afterPop clamped).consumer =
      some running := by
    show popStep s.queue (.clamped whole) = _
    simp only [popStep, h.header.running]
    rfl
  have hpolling : popStep ((s.afterPop clamped).afterPop running).queue
      ((s.afterPop clamped).afterPop running).consumer = some polling := rfl
  have hnonempty : s.queue.header.tail ≠ s.queue.header.head := by
    intro hempty
    rw [h.header.tail] at hempty
    exact hmessage (h.header.empty_iff.mp hempty)
  let polled := ((s.afterPop clamped).afterPop running).afterPop polling
  have hcopying : popStep polled.queue polled.consumer = some copying := by
    show popStep s.queue (.polling whole s.queue.header.tail) = _
    simp only [popStep, if_neg hnonempty]
    rfl
  have hpc' : (polled.afterPop copying).consumer =
      .copying whole s.queue.header.tail [] := rfl
  rcases pop_copies hpc' (Nat.zero_le _) rfl with ⟨s', hsteps, _, hidle, _⟩
  exact ⟨s', consumerSteps_head hclamped (consumerSteps_head hrunning
    (consumerSteps_head hpolling (consumerSteps_head hcopying hsteps))), _, hidle⟩

end Steps

/-!
# Calls in progress
-/

def PushPc.buffer : PushPc -> Option (List Byte)
  | .idle _ => none
  | .entered buf => some buf
  | .sized buf _ => some buf
  | .polling buf _ _ _ => some buf
  | .copying buf _ _ _ _ => some buf

def PushCall (messages : Nat -> List Byte) (i : Nat) (producer : PushPc)
    (pushed : List (List Byte)) : Prop :=
  match producer.buffer with
  | none => pushed = (List.range (i + 1)).map messages
  | some buf => buf = messages i ∧ pushed = (List.range i).map messages

def PopCall (i : Nat) (consumer : PopPc) (popped : List Receipt) : Prop :=
  match consumer with
  | .idle last => popped.length = i + 1 ∧ popped.getLast? = last
  | _ => popped.length = i

def PushIdle (producer : PushPc) : Prop :=
  exists ret, producer = .idle ret

def PopIdle (consumer : PopPc) : Prop :=
  exists last, consumer = .idle last

section Calls

variable {g : Geometry} {q q' : PollState}

theorem pollNext_push {buf : List Byte} (h : pollNext q (.push buf) = some q') :
    PushIdle q.producer ∧ q' = { q with producer := .entered buf } := by
  rcases pollNext_cases h with
    ⟨_, ret, hl, hidle, hq⟩ | ⟨_, hl, _⟩ | ⟨_, _, hl, _⟩ | ⟨_, hl, _⟩
  · injection hl with hbuf
    rw [hbuf]
    exact ⟨⟨ret, hidle⟩, hq⟩
  · cases hl
  · cases hl
  · cases hl

theorem pollNext_producer (h : pollNext q .producer = some q') :
    exists out, pushStep q.queue q.producer = some out ∧ q' = q.afterPush out := by
  rcases pollNext_cases h with
    ⟨_, _, hl, _⟩ | ⟨out, _, hout, hq⟩ | ⟨_, _, hl, _⟩ | ⟨_, hl, _⟩
  · cases hl
  · exact ⟨out, hout, hq⟩
  · cases hl
  · cases hl

theorem pollNext_pop {size : Nat} (h : pollNext q (.pop size) = some q') :
    PopIdle q.consumer ∧ q' = { q with consumer := .entered size } := by
  rcases pollNext_cases h with
    ⟨_, _, hl, _⟩ | ⟨_, hl, _⟩ | ⟨_, last, hl, hidle, hq⟩ | ⟨_, hl, _⟩
  · cases hl
  · cases hl
  · injection hl with hsize
    rw [hsize]
    exact ⟨⟨last, hidle⟩, hq⟩
  · cases hl

theorem pollNext_consumer (h : pollNext q .consumer = some q') :
    exists out, popStep q.queue q.consumer = some out ∧ q' = q.afterPop out := by
  rcases pollNext_cases h with
    ⟨_, _, hl, _⟩ | ⟨_, hl, _⟩ | ⟨_, _, hl, _⟩ | ⟨out, _, hout, hq⟩
  · cases hl
  · cases hl
  · cases hl
  · exact ⟨out, hout, hq⟩

theorem pushCall_step {messages : Nat -> List Byte} {i : Nat}
    (hq : WholeInvariant g q) (hcall : PushCall messages i q.producer q.pushed)
    {out : PushOutcome} (hout : pushStep q.queue q.producer = some out) :
    PushCall messages i out.pc (q.pushed ++ out.published.toList) := by
  have hholds := hq.invariant.right.producer
  generalize q.producer = pc at hout hcall hholds
  -- Only a step that publishes adds to the log.
  have hquiet : forall {published : Option (List Byte)}, published = none ->
      PushCall messages i pc q.pushed ->
        PushCall messages i pc (q.pushed ++ published.toList) := by
    intro published hnone hsame
    rw [hnone, Option.toList_none, List.append_nil]
    exact hsame
  cases pushMove_of_step hout with
  | reject hlarge =>
      have hlength : _ = g.messageSize := hholds
      rw [hq.header.messageSize, hlength] at hlarge
      exact absurd hlarge (Nat.lt_irrefl _)
  | enter _ => exact hquiet rfl hcall
  | load => exact hquiet rfl hcall
  | wait _ => exact hquiet rfl hcall
  | room _ => exact hquiet rfl hcall
  | copy _ => exact hquiet rfl hcall
  | @publish buf messageSize writerHead nextWriterHead copied _ =>
      rcases hcall with ⟨hbuf, hpushed⟩
      show q.pushed ++ [buf] = _
      rw [hpushed, hbuf, List.range_succ, List.map_append, List.map_singleton]

theorem popCall_step {i : Nat} (hq : WholeInvariant g q)
    (hcall : PopCall i q.consumer q.popped) {out : PopOutcome}
    (hout : popStep q.queue q.consumer = some out) :
    PopCall i out.pc (q.popped ++ out.receipt.toList) := by
  generalize q.consumer = pc at hout hcall
  -- Only a step that returns adds to the log.
  have hquiet : forall {receipt : Option Receipt}, receipt = none ->
      PopCall i pc q.popped -> PopCall i pc (q.popped ++ receipt.toList) := by
    intro receipt hnone hsame
    rw [hnone, Option.toList_none, List.append_nil]
    exact hsame
  cases popMove_of_step hout with
  | stop hstop =>
      rw [hq.header.running] at hstop
      cases hstop
  | finish =>
      have hlength : q.popped.length = i := hcall
      constructor
      · simp [hlength]
      · simp
  | clamp => exact hquiet rfl hcall
  | run _ => exact hquiet rfl hcall
  | load => exact hquiet rfl hcall
  | wait _ => exact hquiet rfl hcall
  | message _ => exact hquiet rfl hcall
  | copy _ => exact hquiet rfl hcall
  | advance _ => exact hquiet rfl hcall
  | whole _ => exact hquiet rfl hcall
  | part _ => exact hquiet rfl hcall

end Calls

end Queue
end Notnets
