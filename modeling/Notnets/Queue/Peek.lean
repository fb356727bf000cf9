import Notnets.Queue.PopContract

/-!
# sem_peek

`sem_peek` computes the address of a slot and stores the message size.  In every
state of the two parties in which no `sem_pop` is running, it is compared with
what the next `sem_pop` of a whole message copies out.
-/

namespace Notnets
namespace Queue

open Foundation

/-- What `sem_peek` returns, and what it stores through its argument. -/
structure PeekReply where
  address : Int
  size : Int
deriving DecidableEq, Repr

/-- The address is `(char*) array_start + queue_head*message_size`.  Nothing is stored in
the region. -/
def semPeek (q : SpscQueue) : SpscQueue × PeekReply :=
  let messageSize := toInt32 q.header.messageSize
  let queueHead := q.header.head
  (q, ⟨sizeofSemSpscQueueHeader + toInt32 (queueHead * messageSize),
    toInt64 q.header.messageSize⟩)

/-- `sem_peek` reads the index that `enqueue` fills next. -/
theorem semPeek_eq (q : SpscQueue) :
    semPeek q = (q, ⟨enqueueAddress q.header, toInt64 q.header.messageSize⟩) := rfl

/-!
# Agreement with sem_pop
-/

def WholePops (messageSize : Nat) : SemLabel -> Prop
  | .pop size => size = messageSize
  | _ => True

instance (messageSize : Nat) (l : SemLabel) : Decidable (WholePops messageSize l) :=
  match l with
  | .push _ => .isTrue trivial
  | .producer _ => .isTrue trivial
  | .pop size => inferInstanceAs (Decidable (size = messageSize))
  | .consumer _ => .isTrue trivial

theorem WholePops.sized {g : Geometry} {l : SemLabel} (h : WholePops g.messageSize l) :
    SemSizedTraffic l := by
  have hlt := g.messageSize_lt
  cases l with
  | pop size =>
      rw [show size = g.messageSize from h]
      show g.messageSize < 2 ^ 64
      lia
  | _ => trivial

/-- Whatever else happens until then, the next `sem_pop` delivers these bytes. -/
def NextPopDelivers (header : SpscQueueHeader) (messageSize : Nat) (s : SemState)
    (bytes : List Byte) : Prop :=
  forall trace t receipt more, (semSystem header).Run s trace t ->
    TransitionSystem.Guarded (fun _ l => WholePops messageSize l) trace ->
    t.popped = s.popped ++ receipt :: more -> receipt.bytes = bytes

/-- `sem_peek` shows what the next `sem_pop` delivers, and leaves the queue alone. -/
structure PeekAgrees (header : SpscQueueHeader) (messageSize : Nat) (s : SemState) :
    Prop where
  unchanged : (semPeek s.queue).1 = s.queue
  size : (semPeek s.queue).2.size = messageSize
  delivers : NextPopDelivers header messageSize s
    (load s.queue.mem (semPeek s.queue).2.address messageSize)

def SemPushPc.underway : SemPushPc -> List (List Byte)
  | .copying buf _ copied => [buf.take copied]
  | .counting buf _ | .counted buf _ _ | .totaling buf _ | .publishing buf _ => [buf]
  | _ => []

/-- Everything that was ever copied into the ring, oldest first. -/
def SemState.history (s : SemState) : List (List Byte) :=
  s.pushed ++ s.producer.underway

def leftBytes (slots messageSize : Nat) (mem : ByteMemory) (history : List (List Byte))
    (number : Nat) : List Byte :=
  slotBytes slots (number % slots)
    (load mem (slotAddress sizeofSemSpscQueueHeader messageSize (number % slots))
      messageSize) history

/-- The messages that went to the slot of the next push have left the same bytes there
as those that went to the slot of the oldest message. -/
def NextSlotLikeOldest (slots messageSize : Nat) (mem : ByteMemory) (s : SemState) :
    Prop :=
  leftBytes slots messageSize mem s.history s.pushed.length =
    leftBytes slots messageSize mem s.history s.retired

/-!
# The history of the ring

The producer alone writes to the slots.  It does so in the slot of the next message,
also while a push that waited for room goes on, and whatever the consumer does.
-/

def SemPushPc.Fits (messageSize : Nat) : SemPushPc -> Prop
  | .locking buf | .sampling buf | .testing buf _ | .releasing buf _ | .retesting buf _
  | .waiting buf _ | .relocking buf _ | .copying buf _ _ | .counting buf _
  | .counted buf _ _ | .totaling buf _ | .publishing buf _ => buf.length ≤ messageSize
  | .idle _ | .entered _ | .unlocking _ | .posting => True

theorem SemPushPc.Fits.underway {pc : SemPushPc} {messageSize : Nat}
    (h : pc.Fits messageSize) :
    forall message, message ∈ pc.underway -> message.length ≤ messageSize := by
  intro message hmessage
  cases pc with
  | copying buf wasEmpty copied =>
      rw [List.mem_singleton.mp hmessage, List.length_take]
      exact (Nat.min_le_right copied buf.length).trans h
  | counting | counted | totaling | publishing =>
      rw [List.mem_singleton.mp hmessage]
      exact h
  | _ => cases hmessage

structure PushHistory (g : Geometry) (mem : ByteMemory) (s : SemState) : Prop where
  mem : s.queue.mem =
    ringMemory sizeofSemSpscQueueHeader g.messageSize g.queueSize mem s.history
  pushed : forall message, message ∈ s.pushed -> message.length ≤ g.messageSize
  producer : s.producer.Fits g.messageSize

section History

variable {g : Geometry} {mem : ByteMemory} {q : SpscQueue} {values : Semaphore -> Nat}
  {ok : Bool} {pushed : List (List Byte)}

theorem semPushStep_mem {pc : SemPushPc} {out : SemPushOutcome}
    (haddress : enqueueAddress q.header =
      slotAddress sizeofSemSpscQueueHeader g.messageSize (pushed.length % g.queueSize))
    (hmem : q.mem = ringMemory sizeofSemSpscQueueHeader g.messageSize g.queueSize mem
      (pushed ++ pc.underway))
    (hout : semPushStep q values ok pc = some out) :
    out.queue.mem = ringMemory sizeofSemSpscQueueHeader g.messageSize g.queueSize mem
      (pushed ++ out.published.toList ++ out.pc.underway) := by
  cases semPushMove_of_step hout with
  | room _ =>
      rw [hmem]
      show ringMemory _ _ _ _ (pushed ++ []) = ringMemory _ _ _ _ (pushed ++ [] ++ [[]])
      rw [ringMemory_snoc]
      rfl
  | relock _ =>
      rw [hmem]
      show ringMemory _ _ _ _ (pushed ++ []) = ringMemory _ _ _ _ (pushed ++ [] ++ [[]])
      rw [ringMemory_snoc]
      rfl
  | @copy buf wasEmpty copied b hbyte =>
      rcases List.getElem?_eq_some_iff.mp hbyte with ⟨hlt, rfl⟩
      show Function.update q.mem (enqueueAddress q.header + copied) buf[copied] =
        ringMemory _ _ _ _ (pushed ++ [] ++ [buf.take (copied + 1)])
      have hlength : (buf.take copied).length = copied := by
        rw [List.length_take]
        lia
      rw [hmem, haddress, List.append_nil, ringMemory_snoc, List.take_add_one, hbyte,
        Option.toList_some, copyTo_snoc, hlength]
      exact congrArg (fun mem => Function.update mem _ _) (ringMemory_snoc _)
  | @copied buf wasEmpty copied hend =>
      have hall : buf.take copied = buf :=
        List.take_of_length_le (List.getElem?_eq_none_iff.mp hend)
      rw [hmem]
      simp [SemPushPc.underway, hall]
  | publish =>
      show q.mem = _
      rw [hmem]
      simp [SemPushPc.underway]
  | _ =>
      rw [List.append_assoc]
      exact hmem

theorem semPushStep_fits {pc : SemPushPc} {out : SemPushOutcome} {messageSize : Nat}
    (hsize : q.header.messageSize = messageSize) (hpc : pc.Fits messageSize)
    (hout : semPushStep q values ok pc = some out) :
    out.pc.Fits messageSize ∧
      forall message, message ∈ out.published.toList -> message.length ≤ messageSize := by
  cases semPushMove_of_step hout with
  | enter hfits =>
      rw [hsize] at hfits
      exact ⟨hfits, by simp⟩
  | publish =>
      refine ⟨trivial, ?_⟩
      intro message hmessage
      rw [Option.toList_some, List.mem_singleton] at hmessage
      rw [hmessage]
      exact hpc
  | reject _ => exact ⟨trivial, by simp⟩
  | unlockFirst => exact ⟨trivial, by simp⟩
  | unlock => exact ⟨trivial, by simp⟩
  | post => exact ⟨trivial, by simp⟩
  | _ => exact ⟨hpc, by simp⟩

theorem semPopStep_mem {pc : SemPopPc} {out : SemPopOutcome}
    (hout : semPopStep q values ok pc = some out) : out.queue.mem = q.mem := by
  cases semPopMove_of_step hout with
  | advance _ => exact SpscQueue.setMessageOffset_mem q _
  | _ => rfl

theorem semPushStep_slot {pc : SemPushPc} {out : SemPushOutcome} {size slot head : Nat}
    (haddress : enqueueAddress q.header = slotAddress sizeofSemSpscQueueHeader size head)
    (hother : slot ≠ head) (hfits : pc.Fits size)
    (hout : semPushStep q values ok pc = some out) :
    load out.queue.mem (slotAddress sizeofSemSpscQueueHeader size slot) size =
      load q.mem (slotAddress sizeofSemSpscQueueHeader size slot) size := by
  cases semPushMove_of_step hout with
  | copy hbyte =>
      apply load_congr
      intro k hk
      apply Function.update_of_ne
      rw [haddress]
      rcases List.getElem?_eq_some_iff.mp hbyte with ⟨hlt, _⟩
      exact slotAddress_disjoint _ hother hk (Nat.lt_of_lt_of_le hlt hfits)
  | _ => rfl

end History

structure PeekInvariant (g : Geometry) (mem : ByteMemory) (s : SemState) : Prop where
  indices : SemIndices g.queueSize s
  range : SemInRange g s
  history : PushHistory g mem s

section Invariant

variable {g : Geometry} {mem : ByteMemory} {s s' : SemState}

theorem PeekInvariant.enqueueAddress (h : PeekInvariant g mem s) :
    enqueueAddress s.queue.header =
      slotAddress sizeofSemSpscQueueHeader g.messageSize
        (s.pushed.length % g.queueSize) :=
  enqueueAddress_eq_slotAddress h.range.header.messageSize h.indices.window.head

theorem semNext_history {l : SemLabel} (h : PeekInvariant g mem s)
    (hnext : semNext s l = some s') : PushHistory g mem s' := by
  have hmem := h.history.mem
  have hproducer := h.history.producer
  rcases semNext_cases hnext with
    ⟨buf, ret, _, hpc, rfl⟩ | ⟨ok, out, _, hout, rfl⟩ | ⟨size, last, _, _, rfl⟩ |
      ⟨ok, out, _, hout, rfl⟩
  · refine ⟨?_, h.history.pushed, trivial⟩
    rw [SemState.history, hpc] at hmem
    exact hmem
  · rcases semPushStep_fits h.range.header.messageSize hproducer hout with
      ⟨hfits, hpublished⟩
    refine ⟨semPushStep_mem h.enqueueAddress hmem hout, ?_, hfits⟩
    intro message hmessage
    rcases List.mem_append.mp hmessage with hbefore | hnew
    · exact h.history.pushed message hbefore
    · exact hpublished message hnew
  · exact ⟨hmem, h.history.pushed, hproducer⟩
  · refine ⟨?_, h.history.pushed, hproducer⟩
    show out.queue.mem = _
    rw [semPopStep_mem hout]
    exact hmem

theorem semNext_peekInvariant {l : SemLabel} (h : PeekInvariant g mem s)
    (hl : SemSizedTraffic l) (hnext : semNext s l = some s') : PeekInvariant g mem s' :=
  ⟨semNext_indices h.indices hnext, semNext_inRange h.range hl hnext,
    semNext_history h hnext⟩

theorem PeekInvariant.load_slot (h : PeekInvariant g mem s) (number : Nat) :
    load s.queue.mem
        (slotAddress sizeofSemSpscQueueHeader g.messageSize (number % g.queueSize))
        g.messageSize =
      leftBytes g.queueSize g.messageSize mem s.history number := by
  rw [h.history.mem, leftBytes]
  apply load_ringMemory
  intro message hmessage
  rcases List.mem_append.mp hmessage with hpushed | hunderway
  · exact h.history.pushed message hpushed
  · exact h.history.producer.underway message hunderway

end Invariant

/-!
# The next receive
-/

def SemPopPc.Reads (messageSize : Nat) (messageOffset : Int) (bytes : List Byte) :
    SemPopPc -> Prop
  | .idle _ => messageOffset = 0
  | .entered size | .locking size | .sampling size | .testing size _
  | .releasing size _ | .retesting size _ | .waiting size _ | .relocking size _
  | .clamping size _ => messageOffset = 0 ∧ size = messageSize
  | .copying size _ buf => messageOffset = 0 ∧ size = messageSize ∧
      buf.length ≤ messageSize ∧ buf = bytes.take buf.length
  | .advanced buf _ => messageOffset = messageSize ∧ buf = bytes
  | .retiring buf _ => buf = bytes
  | _ => False

def SemPopPc.Holds (bytes : List Byte) : SemPopPc -> Prop
  | .counting buf _ | .counted buf _ _ | .resetting buf _ | .returning buf _ =>
      buf = bytes
  | _ => False

/-- The oldest message is in its slot, and the next `sem_pop` will get it or is at it. -/
structure Awaiting (g : Geometry) (bytes : List Byte) (s : SemState) : Prop where
  live : s.retired < s.pushed.length
  slot : load s.queue.mem
    (slotAddress sizeofSemSpscQueueHeader g.messageSize (s.retired % g.queueSize))
    g.messageSize = bytes
  reads : s.consumer.Reads g.messageSize s.queue.header.messageOffset bytes

/-- How far the next `sem_pop` is, which delivers these bytes. -/
inductive NextPop (g : Geometry) (popped : List Receipt) (bytes : List Byte)
    (s : SemState) : Prop where
  | awaits (hpopped : s.popped = popped) (h : Awaiting g bytes s)
  | holds (hpopped : s.popped = popped) (h : s.consumer.Holds bytes)
  | delivered (h : exists receipt more, s.popped = popped ++ receipt :: more ∧
      receipt.bytes = bytes)

section NextPop

variable {g : Geometry} {mem : ByteMemory} {s s' : SemState} {bytes : List Byte}
  {popped : List Receipt}

theorem Awaiting.semPushStep {ok : Bool} {out : SemPushOutcome}
    (hinv : PeekInvariant g mem s) (h : Awaiting g bytes s)
    (hout : semPushStep s.queue s.values ok s.producer = some out) :
    Awaiting g bytes (s.afterPush out) := by
  have hlive := h.live
  have hother : s.retired % g.queueSize ≠ s.pushed.length % g.queueSize := by
    intro hsame
    have hequal := eq_of_mod_eq (Nat.le_of_lt hlive) hinv.indices.window.pushed_lt hsame
    lia
  refine ⟨?_, ?_, ?_⟩
  · show s.retired < (s.pushed ++ out.published.toList).length
    rw [List.length_append]
    lia
  · exact (semPushStep_slot hinv.enqueueAddress hother hinv.history.producer hout).trans
      h.slot
  · have hreads := h.reads
    rw [← (semPushStep_header hinv.range.header hout).right] at hreads
    exact hreads

theorem Awaiting.copy {buf : List Byte} (hinv : PeekInvariant g mem s)
    (h : Awaiting g bytes s) (hoffset : s.queue.header.messageOffset = 0)
    (hlt : buf.length < g.messageSize) (hbuf : buf = bytes.take buf.length) :
    buf ++ [s.queue.mem (dequeueAddress s.queue.header + buf.length)] =
      bytes.take (buf.length + 1) := by
  have htail := hinv.indices.window.tail
  rw [dequeueAddress_eq_slotAddress hinv.range.header.messageSize htail, hoffset,
    add_zero]
  rw [← h.slot, take_load, min_eq_left (Nat.le_of_lt hlt)] at hbuf
  rw [← h.slot, take_load, min_eq_left hlt, load_succ, ← hbuf]

theorem Awaiting.advanced {values : Semaphore -> Nat} {offset : Int} {buf : List Byte}
    {wasFull : Bool} (hlive : s.retired < s.pushed.length)
    (hslot : load s.queue.mem
      (slotAddress sizeofSemSpscQueueHeader g.messageSize (s.retired % g.queueSize))
      g.messageSize = bytes)
    (hoffset : offset = g.messageSize) (hbuf : buf = bytes) :
    Awaiting g bytes (s.afterPop ⟨s.queue.setMessageOffset offset, values,
      .advanced buf wasFull, false, none⟩) :=
  ⟨hlive, hslot, hoffset, hbuf⟩

theorem Awaiting.semPopStep {ok : Bool} {out : SemPopOutcome}
    (hinv : PeekInvariant g mem s) (h : Awaiting g bytes s)
    (hout : semPopStep s.queue s.values ok s.consumer = some out) :
    out.receipt = none ∧ (Awaiting g bytes (s.afterPop out) ∨ out.pc.Holds bytes) := by
  have hmessage := hinv.range.header.messageSize
  have hlength : bytes.length = g.messageSize := by
    rw [← h.slot, length_load]
  have hcopy := fun buf => @Awaiting.copy g mem s bytes buf hinv h
  have hlive := h.live
  have hslot := h.slot
  have hreads := h.reads
  generalize hpc : s.consumer = pc at hout hreads
  cases semPopMove_of_step hout with
  | stop hstop =>
      rw [hinv.range.header.running] at hstop
      cases hstop
  | clamp =>
      rcases hreads with ⟨hoffset, rfl⟩
      have hclamp : clampSize s.queue.header.messageSize s.queue.header.messageOffset
          g.messageSize = g.messageSize := by
        have hsize := g.messageSize_lt
        have hmin := @clampSize_eq_min g 0 g.messageSize g.messageSize_pos (by lia)
        rw [hmessage, hoffset]
        exact hmin.trans (by lia)
      exact ⟨rfl, Or.inl ⟨hlive, hslot, hoffset, hclamp, Nat.zero_le _, rfl⟩⟩
  | copy hmore =>
      rcases hreads with ⟨hoffset, rfl, _, hbuf⟩
      have hnext := hcopy _ hoffset hmore hbuf
      refine ⟨rfl, Or.inl ⟨hlive, hslot, hoffset, rfl, ?_, ?_⟩⟩
      · rw [List.length_append, List.length_singleton]
        lia
      · rw [List.length_append, List.length_singleton]
        exact hnext
  | advance hdone =>
      rcases hreads with ⟨hoffset, rfl, hle, hbuf⟩
      rw [List.take_of_length_le (by lia)] at hbuf
      have hadvance := @advanceOffset_of_fits g 0 g.messageSize (by lia)
      rw [Nat.cast_zero, ← hoffset, zero_add] at hadvance
      exact ⟨rfl, Or.inl (Awaiting.advanced hlive hslot hadvance hbuf)⟩
  | whole _ => exact ⟨rfl, Or.inl ⟨hlive, hslot, hreads.right⟩⟩
  | part hpart =>
      have hsize := g.messageSize_lt
      rw [hreads.left, hmessage] at hpart
      exact absurd (toSizeT_natCast (by lia)) hpart
  | retire => exact ⟨rfl, Or.inr hreads⟩
  | load => exact absurd hreads id
  | store => exact absurd hreads id
  | reset => exact absurd hreads id
  | finish => exact absurd hreads id
  | unlockFirst => exact absurd hreads id
  | unlock => exact absurd hreads id
  | post => exact absurd hreads id
  | _ => exact ⟨rfl, Or.inl ⟨hlive, hslot, hreads⟩⟩

/-- A `sem_pop` that has removed its message keeps it until it returns. -/
theorem semPopStep_holds {q : SpscQueue} {values : Semaphore -> Nat} {ok : Bool}
    {pc : SemPopPc} {out : SemPopOutcome} (h : pc.Holds bytes)
    (hout : semPopStep q values ok pc = some out) :
    out.receipt = none ∧ out.pc.Holds bytes ∨
      exists receipt, out.receipt = some receipt ∧ receipt.bytes = bytes := by
  cases semPopMove_of_step hout with
  | load => exact Or.inl ⟨rfl, h⟩
  | store => exact Or.inl ⟨rfl, h⟩
  | reset => exact Or.inl ⟨rfl, h⟩
  | finish => exact Or.inr ⟨_, rfl, h⟩
  | _ => exact absurd h id

theorem NextPop.semPopStep {ok : Bool} {out : SemPopOutcome}
    (hinv : PeekInvariant g mem s) (h : NextPop g popped bytes s)
    (hout : semPopStep s.queue s.values ok s.consumer = some out) :
    NextPop g popped bytes (s.afterPop out) := by
  have hsame : out.receipt = none -> (s.afterPop out).popped = s.popped := by
    intro hnone
    show s.popped ++ out.receipt.toList = s.popped
    rw [hnone, Option.toList_none, List.append_nil]
  cases h with
  | awaits hpopped hawaiting =>
      rcases hawaiting.semPopStep hinv hout with ⟨hnone, hstill | hholds⟩
      · exact .awaits ((hsame hnone).trans hpopped) hstill
      · exact .holds ((hsame hnone).trans hpopped) hholds
  | holds hpopped hholds =>
      rcases semPopStep_holds hholds hout with ⟨hnone, hstill⟩ | ⟨receipt, hsome, hbytes⟩
      · exact .holds ((hsame hnone).trans hpopped) hstill
      · refine .delivered ⟨receipt, [], ?_, hbytes⟩
        show s.popped ++ out.receipt.toList = _
        rw [hsome, hpopped, Option.toList_some]
  | delivered hdelivered =>
      rcases hdelivered with ⟨receipt, more, hpopped, hbytes⟩
      refine .delivered ⟨receipt, more ++ out.receipt.toList, ?_, hbytes⟩
      show s.popped ++ out.receipt.toList = _
      rw [hpopped, List.append_assoc, List.cons_append]

theorem semNext_nextPop {l : SemLabel} (hinv : PeekInvariant g mem s)
    (h : NextPop g popped bytes s) (hl : WholePops g.messageSize l)
    (hnext : semNext s l = some s') : NextPop g popped bytes s' := by
  rcases semNext_cases hnext with
    ⟨buf, ret, _, _, rfl⟩ | ⟨ok, out, _, hout, rfl⟩ | ⟨size, last, rfl, hpc, rfl⟩ |
      ⟨ok, out, _, hout, rfl⟩
  · cases h with
    | awaits hpopped hawaiting =>
        exact .awaits hpopped ⟨hawaiting.live, hawaiting.slot, hawaiting.reads⟩
    | holds hpopped hholds => exact .holds hpopped hholds
    | delivered hdelivered => exact .delivered hdelivered
  · cases h with
    | awaits hpopped hawaiting =>
        exact .awaits hpopped (hawaiting.semPushStep hinv hout)
    | holds hpopped hholds => exact .holds hpopped hholds
    | delivered hdelivered => exact .delivered hdelivered
  · cases h with
    | awaits hpopped hawaiting =>
        have hidle := hawaiting.reads
        rw [hpc] at hidle
        exact .awaits hpopped ⟨hawaiting.live, hawaiting.slot, hidle, hl⟩
    | holds hpopped hholds =>
        rw [hpc] at hholds
        exact absurd hholds id
    | delivered hdelivered => exact .delivered hdelivered
  · exact h.semPopStep hinv hout

theorem Awaiting.delivers {header : SpscQueueHeader} (hinv : PeekInvariant g mem s)
    (h : Awaiting g bytes s) : NextPopDelivers header g.messageSize s bytes := by
  intro trace t receipt more hrun hwhole hpopped
  have hstep : forall u l u', PeekInvariant g mem u ∧ NextPop g s.popped bytes u ->
      WholePops g.messageSize l -> (semSystem header).next u l = some u' ->
        PeekInvariant g mem u' ∧ NextPop g s.popped bytes u' :=
    fun u l u' hu hl hnext => ⟨semNext_peekInvariant hu.left hl.sized hnext,
      semNext_nextPop hu.left hu.right hl hnext⟩
  rcases TransitionSystem.run_invariant hstep hrun hwhole ⟨hinv, .awaits rfl h⟩ with
    ⟨_, hnext⟩
  cases hnext with
  | awaits hsame _ =>
      rw [hsame] at hpopped
      simp at hpopped
  | holds hsame _ =>
      rw [hsame] at hpopped
      simp at hpopped
  | delivered hdelivered =>
      rcases hdelivered with ⟨first, later, hfirst, hbytes⟩
      rw [hfirst] at hpopped
      injection List.append_cancel_left hpopped with hsame _
      rw [← hsame]
      exact hbytes

end NextPop

/-!
# A receive returns

Alone, and whatever the semaphore operations do, a consumer whose queue holds a message
comes to the end of its `sem_pop`.
-/

def PopReturns (header : SpscQueueHeader) (s : SemState) : Prop :=
  exists n t receipt, (semSystem header).execute s
      (List.replicate n (.consumer false)) = some t ∧
    t.popped = s.popped ++ [receipt]

section Returns

variable {header : SpscQueueHeader} {s : SemState} {buf : List Byte} {wasFull : Bool}
  {size : Nat}

theorem popReturns_step {out : SemPopOutcome}
    (hout : semPopStep s.queue s.values false s.consumer = some out)
    (hnone : out.receipt = none) (hrest : PopReturns header (s.afterPop out)) :
    PopReturns header s := by
  rcases hrest with ⟨n, t, receipt, hexec, hpopped⟩
  have hnext : (semSystem header).next s (.consumer false) = some (s.afterPop out) := by
    show semNext s (.consumer false) = _
    rw [semNext, hout]
  refine ⟨n + 1, t, receipt, ?_, ?_⟩
  · rw [List.replicate_succ, TransitionSystem.execute, hnext]
    exact hexec
  · rw [hpopped]
    show s.popped ++ out.receipt.toList ++ [receipt] = _
    rw [hnone, Option.toList_none, List.append_nil]

theorem popReturns_of_returning (hpc : s.consumer = .returning buf wasFull) :
    PopReturns header s := by
  let receipt : Receipt := ⟨buf, toSizeT s.queue.header.messageOffset⟩
  let returned : SemState := s.afterPop
    ⟨s.queue, s.values, .unlocking receipt wasFull, false, some receipt⟩
  have hnext : (semSystem header).next s (.consumer false) = some returned := by
    show semNext s (.consumer false) = _
    rw [semNext, hpc, semPopStep]
  refine ⟨1, returned, receipt, ?_, rfl⟩
  rw [List.replicate_one, TransitionSystem.execute, hnext]
  rfl

theorem popReturns_of_advanced (hpc : s.consumer = .advanced buf wasFull) :
    PopReturns header s := by
  by_cases hwhole : toSizeT s.queue.header.messageOffset = s.queue.header.messageSize
  · have hout : semPopStep s.queue s.values false s.consumer =
        some ⟨s.queue, s.values, .retiring buf wasFull, false, none⟩ := by
      simp only [hpc, semPopStep, if_pos hwhole]
    apply popReturns_step hout rfl
    apply popReturns_step rfl rfl
    apply popReturns_step rfl rfl
    apply popReturns_step rfl rfl
    apply popReturns_step rfl rfl
    exact popReturns_of_returning rfl
  · have hout : semPopStep s.queue s.values false s.consumer =
        some ⟨s.queue, s.values, .returning buf wasFull, false, none⟩ := by
      simp only [hpc, semPopStep, if_neg hwhole]
    apply popReturns_step hout rfl
    exact popReturns_of_returning rfl

theorem popReturns_of_copying (hpc : s.consumer = .copying size wasFull buf) :
    PopReturns header s := by
  generalize htodo : size - buf.length = todo
  induction todo generalizing s buf with
  | zero =>
      have hdone : ¬ buf.length < size := by lia
      have hout : semPopStep s.queue s.values false s.consumer =
          some ⟨s.queue.setMessageOffset
            (advanceOffset s.queue.header.messageOffset size), s.values,
            .advanced buf wasFull, false, none⟩ := by
        simp only [hpc, semPopStep, if_neg hdone]
      apply popReturns_step hout rfl
      exact popReturns_of_advanced rfl
  | succ todo ih =>
      have hmore : buf.length < size := by lia
      have hout : semPopStep s.queue s.values false s.consumer =
          some ⟨s.queue, s.values, .copying size wasFull
            (buf ++ [s.queue.mem (dequeueAddress s.queue.header + buf.length)]), false,
            none⟩ := by
        simp only [hpc, semPopStep, if_pos hmore]
      apply popReturns_step hout rfl
      apply ih rfl
      rw [List.length_append, List.length_singleton]
      lia

theorem popReturns_of_entered (hpc : s.consumer = .entered size)
    (hruns : s.queue.header.stopConsumerPolling = false)
    (hmessage : isEmpty s.queue.header = false) : PopReturns header s := by
  have hout : semPopStep s.queue s.values false s.consumer =
      some ⟨s.queue, s.values, .locking size, false, none⟩ := by
    simp only [hpc, semPopStep, hruns, Bool.false_eq_true, if_false]
  apply popReturns_step hout rfl
  apply popReturns_step rfl rfl
  apply popReturns_step rfl rfl
  have htest : semPopStep s.queue s.values false (.testing size (isFull s.queue.header)) =
      some ⟨s.queue, s.values, .clamping size (isFull s.queue.header), false, none⟩ := by
    simp only [semPopStep, hmessage, Bool.false_eq_true, if_false]
  apply popReturns_step htest rfl
  apply popReturns_step rfl rfl
  exact popReturns_of_copying rfl

theorem exists_nextPop {last : Option Receipt} (hidle : s.consumer = .idle last)
    (hruns : s.queue.header.stopConsumerPolling = false)
    (hmessage : isEmpty s.queue.header = false) (size : Nat) :
    exists trace t receipt, (semSystem header).Run s trace t ∧
      TransitionSystem.Guarded (fun _ l => WholePops size l) trace ∧
      t.popped = s.popped ++ [receipt] := by
  let called : SemState := { s with consumer := .entered size }
  have hcall : (semSystem header).next s (.pop size) = some called := by
    show semNext s (.pop size) = _
    rw [semNext, hidle]
  have hreturns : PopReturns header called := popReturns_of_entered rfl hruns hmessage
  rcases hreturns with ⟨n, t, receipt, hexec, hpopped⟩
  have hlabels : (semSystem header).execute s
      (.pop size :: List.replicate n (.consumer false)) = some t := by
    rw [TransitionSystem.execute, hcall]
    exact hexec
  have hwhole : forall l, l ∈ SemLabel.pop size :: List.replicate n (.consumer false) ->
      WholePops size l := by
    intro l hl
    rcases List.mem_cons.mp hl with rfl | hlater
    · rfl
    · rw [List.eq_of_mem_replicate hlater]
      trivial
  rcases TransitionSystem.exists_run_of_execute hlabels hwhole with
    ⟨trace, hrun, _, hguard⟩
  exact ⟨trace, t, receipt, hrun, hguard, hpopped⟩

end Returns

/-!
# When sem_peek shows the oldest message
-/

theorem semStart_peekInvariant {shmSize : Nat} {g : Geometry} {header : SpscQueueHeader}
    {usable : Int} (mem : ByteMemory)
    (hcreate : semQueueCreate shmSize g.messageSize = .ok (header, usable))
    (hrange : HeaderInRange g header) (hoffset : InMessage g header.messageOffset)
    (htwo : 2 ≤ g.queueSize) : PeekInvariant g mem (semStart header mem) := by
  have hqueue := hrange.queueSize
  have hindices := semStart_indices mem hcreate (by lia)
  rw [show header.queueSize.toNat = g.queueSize by lia] at hindices
  exact ⟨hindices, ⟨hrange, hoffset⟩, ⟨rfl, nofun, trivial⟩⟩

structure OneSlot (header : SpscQueueHeader) : Prop where
  queueSize : header.queueSize = 1
  head : header.head = 0
  tail : header.tail = 0

theorem OneSlot.of_same {header header' : SpscQueueHeader} (h : OneSlot header)
    (hsame : SameIndices header header') : OneSlot header' :=
  ⟨hsame.queueSize.trans h.queueSize, hsame.head.trans h.head, hsame.tail.trans h.tail⟩

theorem semNext_oneSlot {s s' : SemState} {l : SemLabel} (h : OneSlot s.queue.header)
    (hnext : semNext s l = some s') : OneSlot s'.queue.header := by
  have hsucc : forall index, succ index s.queue.header.queueSize = 0 := by
    intro index
    rw [h.queueSize]
    exact Int.tmod_one _
  rcases semNext_cases hnext with
    ⟨buf, ret, _, _, rfl⟩ | ⟨ok, out, _, hout, rfl⟩ | ⟨size, last, _, _, rfl⟩ |
      ⟨ok, out, _, hout, rfl⟩
  · exact h
  · rcases semPushStep_cases hout with hquiet | ⟨buf, wasEmpty, _, rfl⟩
    · exact h.of_same hquiet.indices
    · exact ⟨h.queueSize, hsucc _, h.tail⟩
  · exact h
  · rcases semPopStep_cases hout with hquiet | ⟨buf, wasFull, _, rfl⟩
    · exact h.of_same hquiet.indices
    · exact ⟨h.queueSize, h.head, hsucc _⟩

theorem two_le_of_nonempty {shmSize messageSize : Nat} {header : SpscQueueHeader}
    {usable : Int} {mem : ByteMemory} {s : SemState}
    {trace : List (Transition SemState SemLabel)}
    (hcreate : semQueueCreate shmSize messageSize = .ok (header, usable))
    (hslots : 0 < header.queueSize)
    (hrun : (semSystem header).Run (semStart header mem) trace s)
    (hnonempty : s.queue.header.tail ≠ s.queue.header.head) : 2 ≤ header.queueSize := by
  by_contra hone
  rcases createHeader_ok hcreate with ⟨n, _, hheader⟩
  have hsize : header.queueSize = 1 := by lia
  have hstart : OneSlot (semStart header mem).queue.header :=
    ⟨hsize, by rw [semStart, hheader], by rw [semStart, hheader]⟩
  have hstep : forall t l t', OneSlot t.queue.header -> True ->
      (semSystem header).next t l = some t' -> OneSlot t'.queue.header :=
    fun t l t' ht _ hnext => semNext_oneSlot ht hnext
  have hlast := TransitionSystem.run_invariant hstep hrun (fun _ _ => trivial) hstart
  exact hnonempty (hlast.tail.trans hlast.head.symm)

section Agreement

variable {g : Geometry} {mem : ByteMemory} {s : SemState} {header : SpscQueueHeader}
  {last : Option Receipt}

theorem semPeek_address (hinv : PeekInvariant g mem s) :
    (semPeek s.queue).2.address = slotAddress sizeofSemSpscQueueHeader g.messageSize
      (s.pushed.length % g.queueSize) := by
  rw [semPeek_eq]
  exact hinv.enqueueAddress

theorem semPeek_size (hinv : PeekInvariant g mem s) :
    (semPeek s.queue).2.size = g.messageSize := by
  have hsize := g.messageSize_lt
  rw [semPeek_eq]
  dsimp only
  rw [hinv.range.header.messageSize]
  exact toInt64_natCast (by lia)

theorem peekAgrees_iff (hinv : PeekInvariant g mem s) (hidle : s.consumer = .idle last)
    (hoffset : s.queue.header.messageOffset = 0)
    (hnonempty : s.queue.header.tail ≠ s.queue.header.head) :
    PeekAgrees header g.messageSize s <->
      NextSlotLikeOldest g.queueSize g.messageSize mem s := by
  have hmessage : isEmpty s.queue.header = false := decide_eq_false hnonempty.symm
  have hlive : s.retired < s.pushed.length := by
    have hle := hinv.indices.window.retired_le
    have hne : s.pushed.length ≠ s.retired := by
      intro hsame
      rw [hinv.indices.window.isEmpty_iff.mpr hsame] at hmessage
      cases hmessage
    lia
  have hawaiting : Awaiting g
      (leftBytes g.queueSize g.messageSize mem s.history s.retired) s := by
    refine ⟨hlive, hinv.load_slot s.retired, ?_⟩
    rw [hidle]
    exact hoffset
  have hpeeked : load s.queue.mem (semPeek s.queue).2.address g.messageSize =
      leftBytes g.queueSize g.messageSize mem s.history s.pushed.length := by
    rw [semPeek_address hinv]
    exact hinv.load_slot s.pushed.length
  constructor
  · intro hagrees
    rcases @exists_nextPop header s last hidle hinv.range.header.running hmessage
      g.messageSize with ⟨trace, t, receipt, hrun, hwhole, hpopped⟩
    have hshown := hagrees.delivers trace t receipt [] hrun hwhole hpopped
    have hgot := hawaiting.delivers hinv trace t receipt [] hrun hwhole hpopped
    rw [NextSlotLikeOldest, ← hpeeked, ← hshown, hgot]
  · intro hlike
    refine ⟨rfl, semPeek_size hinv, ?_⟩
    rw [hpeeked, hlike]
    exact hawaiting.delivers hinv

end Agreement

section Whole

variable {slots messageSize : Nat} {mem : ByteMemory} {history : List (List Byte)}

/-- A whole message fills its slot until the next message of this slot. -/
theorem leftBytes_of_whole {number : Nat} {message : List Byte}
    (hwhole : forall other, other ∈ history -> other.length = messageSize)
    (hmessage : history[number]? = some message)
    (hwindow : history.length ≤ number + slots) :
    leftBytes slots messageSize mem history number = message := by
  have hsize : forall other, other ∈ history -> other.length ≤ messageSize :=
    fun other hother => Nat.le_of_eq (hwhole other hother)
  have hholds := @holdsAt_ringMemory sizeofSemSpscQueueHeader messageSize slots mem
    history number message hsize hmessage hwindow
  have hlength := hwhole message (List.mem_of_getElem? hmessage)
  have hload := @load_of_holdsAt _ _ message 0 messageSize hholds (by lia)
  rw [Nat.cast_zero, add_zero, List.drop_zero, List.take_of_length_le (by lia)] at hload
  rw [leftBytes, ← load_ringMemory _ hsize]
  exact hload

/-- With whole messages, the slot of the next push is like that of the oldest message
exactly if the message that was there before is equal to it, or, in the first round, the
memory of the fresh queue. -/
theorem nextSlotLikeOldest_whole_iff {s : SemState}
    (hwhole : forall message, message ∈ s.pushed -> message.length = messageSize)
    (hbetween : s.producer.underway = []) (hlive : s.retired < s.pushed.length)
    (hwindow : s.pushed.length < s.retired + slots) :
    NextSlotLikeOldest slots messageSize mem s <->
      (if s.pushed.length < slots then some (load mem
          (slotAddress sizeofSemSpscQueueHeader messageSize s.pushed.length) messageSize)
        else s.pushed[s.pushed.length - slots]?) = s.pushed[s.retired]? := by
  have holdest : s.pushed[s.retired]? = some s.pushed[s.retired] :=
    List.getElem?_eq_getElem hlive
  have hhistory : s.history = s.pushed := by
    rw [SemState.history, hbetween, List.append_nil]
  rw [NextSlotLikeOldest, hhistory, leftBytes_of_whole hwhole holdest (by lia), holdest]
  split
  · rename_i hfirst
    have hunused : leftBytes slots messageSize mem s.pushed s.pushed.length =
        load mem (slotAddress sizeofSemSpscQueueHeader messageSize s.pushed.length)
          messageSize := by
      rw [leftBytes, Nat.mod_eq_of_lt hfirst]
      apply slotBytes_of_unused
      intro i hi
      rw [Nat.mod_eq_of_lt (by lia)]
      lia
    rw [hunused, Option.some_inj]
  · rename_i hlater
    have hbefore : s.pushed[s.pushed.length - slots]? =
        some s.pushed[s.pushed.length - slots] := List.getElem?_eq_getElem (by lia)
    have hsame : leftBytes slots messageSize mem s.pushed s.pushed.length =
        leftBytes slots messageSize mem s.pushed (s.pushed.length - slots) := by
      rw [leftBytes, leftBytes, Nat.mod_eq_sub_mod (by lia : slots ≤ s.pushed.length)]
    rw [hsame, leftBytes_of_whole hwhole hbefore (by lia), hbefore, Option.some_inj]

end Whole

/-- In every reachable state of a SEM queue that holds an unread message, `sem_peek`
shows what the next `sem_pop` delivers exactly if the slot of the next push happens to
hold the same bytes as that of the oldest message.  Without slots `succ` would divide by
zero. -/
theorem sem_peek_agrees_iff {shmSize messageSize : Nat} {header : SpscQueueHeader}
    {usable : Int} {mem : ByteMemory} {s : SemState}
    {trace : List (Transition SemState SemLabel)} {last : Option Receipt}
    (hshm : shmSize < 2 ^ 31)
    (hcreate : semQueueCreate shmSize messageSize = .ok (header, usable))
    (hslots : 0 < header.queueSize)
    (hrun : (semSystem header).Run (semStart header mem) trace s)
    (hsized : TransitionSystem.Guarded (fun _ l => SemSizedTraffic l) trace)
    (hidle : s.consumer = .idle last) (hoffset : s.queue.header.messageOffset = 0)
    (hnonempty : s.queue.header.tail ≠ s.queue.header.head) :
    PeekAgrees header messageSize s <->
      NextSlotLikeOldest header.queueSize.toNat messageSize mem s := by
  have htwo := two_le_of_nonempty hcreate hslots hrun hnonempty
  rcases createHeader_ok hcreate with ⟨n, hsizes, hheader⟩
  have hn : 2 ≤ n := by
    rw [hheader] at htwo
    exact htwo
  rcases guard_of_two_slots (by decide) hn hsizes with ⟨hmessage, hguard⟩
  rcases exists_headerInRange hmessage hguard hshm hcreate with
    ⟨g, _, rfl, hrange, hstart⟩
  have hqueue := hrange.queueSize
  have hinv : PeekInvariant g mem s := by
    refine TransitionSystem.run_invariant ?_ hrun hsized
      (semStart_peekInvariant mem hcreate hrange hstart (by lia))
    intro t l t' ht hl hnext
    exact semNext_peekInvariant ht hl hnext
  rw [show header.queueSize.toNat = g.queueSize by lia]
  exact peekAgrees_iff hinv hidle hoffset hnonempty

deriving instance DecidableEq for SemPopPc

def resentLabels : List SemLabel :=
  .push [1, 2, 3, 4] :: List.replicate 15 (.producer true) ++
    .pop 4 :: List.replicate 18 (.consumer true) ++
    .push [1, 2, 3, 4] :: List.replicate 15 (.producer true)

theorem sem_peek_agrees_iff_resent :
    exists s : SemState, s.queue.header.tail ≠ s.queue.header.head ∧
      PeekAgrees twoSlotSemHeader 4 s := by
  let start := semStart twoSlotSemHeader (fun _ => 0)
  have hsome : (((semSystem twoSlotSemHeader).execute start resentLabels).map
      fun s => ((s.consumer, s.queue.header),
        s.pushed, s.retired, s.producer.underway)) =
        some ((.idle (some ⟨[1, 2, 3, 4], 0⟩), ⟨0, 1, 4, 0, 2, 1, 2, false, false⟩),
          [[1, 2, 3, 4], [1, 2, 3, 4]], 1, []) := by
    decide +kernel
  rcases Option.map_eq_some_iff.mp hsome with ⟨s, hexec, hend⟩
  simp only [Prod.mk.injEq] at hend
  rcases hend with ⟨⟨hidle, hheader⟩, hpushed, hretired, hunderway⟩
  have hcreate : semQueueCreate 56 4 = .ok (twoSlotSemHeader, 56) := by rfl
  have hallowed : forall l, l ∈ resentLabels -> SemSizedTraffic l := by
    decide
  rcases TransitionSystem.exists_run_of_execute hexec hallowed with
    ⟨trace, hrun, _, hsized⟩
  have hnonempty : s.queue.header.tail ≠ s.queue.header.head := by
    rw [hheader]
    decide
  have hlike : NextSlotLikeOldest 2 4 (fun _ => 0) s := by
    rw [NextSlotLikeOldest, SemState.history, hpushed, hretired, hunderway]
    decide
  exact ⟨s, hnonempty, (sem_peek_agrees_iff (by decide) hcreate (by decide) hrun hsized
    hidle (by rw [hheader]) hnonempty).mpr hlike⟩

/-- One message in a fresh queue: `sem_peek` shows the zeros behind it. -/
theorem sem_peek_shows_next_slot :
    ¬ forall (shmSize messageSize : Nat) (header : SpscQueueHeader) (usable : Int)
      (mem : ByteMemory) (s : SemState) (trace : List (Transition SemState SemLabel))
      (last : Option Receipt), shmSize < 2 ^ 31 ->
      semQueueCreate shmSize messageSize = .ok (header, usable) -> 0 < header.queueSize ->
      (semSystem header).Run (semStart header mem) trace s ->
      TransitionSystem.Guarded (fun _ l => SemSizedTraffic l) trace ->
      s.consumer = .idle last -> s.queue.header.messageOffset = 0 ->
      s.queue.header.tail ≠ s.queue.header.head -> PeekAgrees header messageSize s := by
  intro hclaim
  let start := semStart twoSlotSemHeader (fun _ => 0)
  let pushes : List SemLabel := .push [1, 2, 3, 4] :: List.replicate 15 (.producer true)
  let pops : List SemLabel := .pop 4 :: List.replicate 16 (.consumer true)
  have hsome : (((semSystem twoSlotSemHeader).execute start pushes).map
      fun s => ((s.consumer, s.queue.header), s.popped,
        load s.queue.mem (semPeek s.queue).2.address 4,
        ((semSystem twoSlotSemHeader).execute s pops).map SemState.popped)) =
        some ((.idle none, ⟨1, 0, 4, 0, 2, 1, 1, false, false⟩), [], [0, 0, 0, 0],
          some [⟨[1, 2, 3, 4], 0⟩]) := by
    decide +kernel
  rcases Option.map_eq_some_iff.mp hsome with ⟨s, hexec, hend⟩
  simp only [Prod.mk.injEq] at hend
  rcases hend with ⟨⟨hidle, hheader⟩, hnone, hshown, hnext⟩
  rcases Option.map_eq_some_iff.mp hnext with ⟨t, hpop, hpopped⟩
  have hcreate : semQueueCreate 56 4 = .ok (twoSlotSemHeader, 56) := by rfl
  have hallowed : forall l, l ∈ pushes -> SemSizedTraffic l := by
    decide
  have hwhole : forall l, l ∈ pops -> WholePops 4 l := by
    decide
  rcases TransitionSystem.exists_run_of_execute hexec hallowed with
    ⟨trace, hrun, _, hsized⟩
  rcases TransitionSystem.exists_run_of_execute hpop hwhole with ⟨later, hmore, _, hguard⟩
  have hagrees := hclaim 56 4 twoSlotSemHeader 56 (fun _ => 0) s trace none (by decide)
    hcreate (by decide) hrun hsized hidle (by rw [hheader])
    (by rw [hheader]; decide)
  have hbytes := hagrees.delivers later t ⟨[1, 2, 3, 4], 0⟩ [] hmore hguard
    (by rw [hpopped, hnone]; rfl)
  rw [hshown] at hbytes
  exact absurd hbytes (by decide)

end Queue
end Notnets
