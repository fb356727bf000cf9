import Mathlib.Data.List.Forall2
import Notnets.Foundation.BoundedFifo
import Notnets.Foundation.MessageStream
import Notnets.Foundation.RingMemory
import Notnets.Foundation.TransitionSystem

/-!
# The BOOST transport

The elements of the queue are wrappers of ten bytes, whatever the message size,
and both calls ignore the size of the buffer that they are given.  The queue
itself is a parameter: a bounded first-in first-out queue of wrappers.
-/

namespace Notnets
namespace Queue

open Foundation

/-- `MESSAGE_SIZE`, the size of a `buffer_wrapper`. -/
def wrapperSize : Nat := 10

/-- `QUEUE_CAPACITY`. -/
def queueCapacity : Nat := 100

structure BufferWrapper where
  buf : List Byte
  length_buf : buf.length = wrapperSize
deriving DecidableEq

/-- `*t`, for a buffer that was cast to a wrapper. -/
def BufferWrapper.read (mem : ByteMemory) (buf : Int) : BufferWrapper where
  buf := load mem buf wrapperSize
  length_buf := length_load mem buf wrapperSize

section Calls

variable {Queue : Type} (fifo : BoundedFifo Queue BufferWrapper queueCapacity)

def boostPush (q : Queue) (mem : ByteMemory) (buf : Int) (_bufSize : Nat) : Queue × Int :=
  let pushed := fifo.push q (BufferWrapper.read mem buf)
  if pushed.2 then
    (pushed.1, 0)
  else
    (pushed.1, -1)

/-- The bytes that are stored at the caller's buffer; `none` while the queue is
empty, when the call keeps polling. -/
def boostPop (q : Queue) (_bufSize : Nat) : Option (Queue × Receipt) :=
  match fifo.pop q with
  | none => none
  | some (q', t) => some (q', ⟨t.buf, 0⟩)

end Calls

/-!
# Sequences of calls

The payloads that were sent and not yet received are history: no call reads
them.
-/

structure BoostState (Queue : Type) where
  queue : Queue
  sent : List (List Byte)

inductive BoostLabel where
  /-- A send of this many bytes at an address of the caller's memory. -/
  | push (mem : ByteMemory) (buf : Int) (size : Nat)
  /-- A receive into a buffer of this size. -/
  | pop (size : Nat)

section System

variable {Queue : Type} (fifo : BoundedFifo Queue BufferWrapper queueCapacity)

def boostNext (s : BoostState Queue) : BoostLabel -> Option (BoostState Queue)
  | .push mem buf size =>
      let pushed := boostPush fifo s.queue mem buf size
      if pushed.2 = 0 then
        some ⟨pushed.1, s.sent ++ [load mem buf size]⟩
      else
        some ⟨pushed.1, s.sent⟩
  | .pop size =>
      match boostPop fifo s.queue size with
      | none => none
      | some (queue, _) => some ⟨queue, s.sent.tail⟩

/-- One sender and one receiver on a queue that was just constructed. -/
def boostSystem : TransitionSystem (BoostState Queue) BoostLabel where
  Initial s := fifo.contents s.queue = [] ∧ s.sent = []
  next := boostNext fifo

/-- What the other transports promise of a call: a payload that is too long is
refused, no call leaves the buffer that it was given, and a payload that fits the
message size and the receiver's buffer arrives as it was sent. -/
def Honours (messageSize : Int) (s : BoostState Queue) : BoostLabel -> Prop
  | .push mem buf size =>
      (messageSize < size -> boostPush fifo s.queue mem buf size = (s.queue, -1)) ∧
        forall mem', load mem' buf size = load mem buf size ->
          boostPush fifo s.queue mem' buf size = boostPush fifo s.queue mem buf size
  | .pop size =>
      forall payload queue receipt, s.sent.head? = some payload ->
        boostPop fifo s.queue size = some (queue, receipt) ->
          receipt.bytes.length ≤ size ∧
            ((payload.length : Int) ≤ messageSize -> payload.length ≤ size ->
              receipt.bytes = payload)

/-- The sizes that go through a wrapper of ten bytes. -/
def WrapperSized (messageSize : Int) (s : BoostState Queue) : BoostLabel -> Prop
  | .push _ _ size =>
      (fifo.contents s.queue).length < queueCapacity ->
        wrapperSize ≤ size ∧ (size : Int) ≤ messageSize
  | .pop size =>
      forall payload, s.sent.head? = some payload ->
        wrapperSize ≤ size ∧
          ((payload.length : Int) ≤ messageSize -> payload.length ≤ size ->
            payload.length = wrapperSize)

def Wraps (t : BufferWrapper) (payload : List Byte) : Prop :=
  t.buf.take payload.length = payload.take wrapperSize

def BoostContents (s : BoostState Queue) : Prop :=
  List.Forall₂ Wraps (fifo.contents s.queue) s.sent

end System

/-!
# One call
-/

section Step

variable {Queue : Type} {fifo : BoundedFifo Queue BufferWrapper queueCapacity}
  {s s' : BoostState Queue} {mem : ByteMemory} {buf : Int} {size : Nat}
  {messageSize : Int}

theorem boostPush_full (hfull : ¬ (fifo.contents s.queue).length < queueCapacity) :
    boostPush fifo s.queue mem buf size = (s.queue, -1) := by
  simp [boostPush, fifo.push_full s.queue _ hfull]

theorem boostPush_room (hroom : (fifo.contents s.queue).length < queueCapacity) :
    (boostPush fifo s.queue mem buf size).2 = 0 ∧
      fifo.contents (boostPush fifo s.queue mem buf size).1 =
        fifo.contents s.queue ++ [BufferWrapper.read mem buf] := by
  rcases fifo.push_room s.queue (BufferWrapper.read mem buf) hroom with ⟨hret, hcontents⟩
  simp [boostPush, hret, hcontents]

theorem wraps_read (mem : ByteMemory) (buf : Int) (size : Nat) :
    Wraps (BufferWrapper.read mem buf) (load mem buf size) := by
  unfold Wraps BufferWrapper.read
  rw [length_load, take_load, take_load, Nat.min_comm]

theorem Wraps.eq_iff {t : BufferWrapper} {payload : List Byte} (h : Wraps t payload) :
    t.buf = payload <-> payload.length = wrapperSize := by
  have hlength := t.length_buf
  constructor
  · rintro rfl
    exact hlength
  · intro hpayload
    unfold Wraps at h
    rw [hpayload, ← hlength, List.take_length, hlength, ← hpayload, List.take_length] at h
    exact h

theorem boostPop_nil (size : Nat) (hempty : fifo.contents s.queue = []) :
    boostPop fifo s.queue size = none := by
  simp [boostPop, fifo.pop_nil s.queue hempty]

theorem boostPop_cons (size : Nat) {t : BufferWrapper} {rest : List BufferWrapper}
    (hcontents : fifo.contents s.queue = t :: rest) :
    exists queue, boostPop fifo s.queue size = some (queue, ⟨t.buf, 0⟩) ∧
      fifo.contents queue = rest := by
  rcases fifo.pop_cons s.queue t rest hcontents with ⟨queue, hpop, hrest⟩
  exact ⟨queue, by simp [boostPop, hpop], hrest⟩

theorem boostNext_contents {l : BoostLabel} (hs : BoostContents fifo s)
    (h : boostNext fifo s l = some s') : BoostContents fifo s' := by
  cases l with
  | push mem buf size =>
      simp only [boostNext] at h
      by_cases hroom : (fifo.contents s.queue).length < queueCapacity
      · rcases @boostPush_room Queue fifo s mem buf size hroom with ⟨hret, hcontents⟩
        rw [if_pos hret] at h
        cases h
        unfold BoostContents
        rw [hcontents]
        exact List.rel_append hs (.cons (wraps_read mem buf size) .nil)
      · rw [boostPush_full hroom] at h
        cases h
        exact hs
  | pop size =>
      simp only [boostNext] at h
      unfold BoostContents at hs
      cases hcontents : fifo.contents s.queue with
      | nil =>
          rw [boostPop_nil size hcontents] at h
          cases h
      | cons t rest =>
          rcases boostPop_cons size hcontents with ⟨queue, hpop, hrest⟩
          rw [hpop] at h
          cases h
          rw [hcontents] at hs
          unfold BoostContents
          rw [hrest]
          cases hsent : s.sent with
          | nil =>
              rw [hsent] at hs
              cases hs
          | cons payload more =>
              rw [hsent] at hs
              exact (List.forall₂_cons.mp hs).right

/-- A wrapper that is read from a shorter buffer depends on the bytes behind it. -/
theorem exists_read_ne (mem : ByteMemory) (buf : Int) {size : Nat}
    (hshort : size < wrapperSize) :
    exists mem', load mem' buf size = load mem buf size ∧
      BufferWrapper.read mem' buf ≠ BufferWrapper.read mem buf := by
  refine ⟨Function.update mem (buf + size) (mem (buf + size) + 1), ?_, ?_⟩
  · apply load_congr
    intro k hk
    exact Function.update_of_ne (by lia) _ _
  · intro hequal
    have hload := congrArg BufferWrapper.buf hequal
    have hbyte := eq_of_load_eq hload hshort
    rw [Function.update_self] at hbyte
    exact absurd (UInt8.left_eq_add.mp hbyte.symm) (by decide)

theorem push_honours_iff (mem : ByteMemory) (buf : Int) (size : Nat) :
    Honours fifo messageSize s (.push mem buf size) <->
      WrapperSized fifo messageSize s (.push mem buf size) := by
  by_cases hroom : (fifo.contents s.queue).length < queueCapacity
  · rcases @boostPush_room Queue fifo s mem buf size hroom with ⟨hret, hcontents⟩
    constructor
    · intro h _
      rcases h with ⟨hrejects, hreads⟩
      constructor
      · by_contra hshort
        rcases exists_read_ne mem buf (not_le.mp hshort) with ⟨mem', hsame, hne⟩
        rcases @boostPush_room Queue fifo s mem' buf size hroom with ⟨_, hcontents'⟩
        rw [hreads mem' hsame, hcontents] at hcontents'
        have hwrapper := List.append_cancel_left hcontents'
        exact hne (List.head_eq_of_cons_eq hwrapper).symm
      · by_contra hlarge
        have hrejected := hrejects (by lia)
        rw [hrejected] at hret
        have hcode : (-1 : Int) = 0 := hret
        exact absurd hcode (by decide)
    · intro hsized
      rcases hsized hroom with ⟨hlong, hfits⟩
      refine ⟨fun hlarge => absurd hlarge (by lia), ?_⟩
      intro mem' hsame
      have hwrapper : BufferWrapper.read mem' buf = BufferWrapper.read mem buf := by
        have hload := congrArg (List.take wrapperSize) hsame
        rw [take_load, take_load, Nat.min_eq_left hlong] at hload
        unfold BufferWrapper.read
        simp only [hload]
      unfold boostPush
      rw [hwrapper]
  · constructor
    · intro _ hroom'
      exact absurd hroom' hroom
    · intro _
      refine ⟨fun _ => boostPush_full hroom, ?_⟩
      intro mem' _
      rw [boostPush_full hroom, boostPush_full hroom]

theorem pop_honours_iff (hs : BoostContents fifo s) (size : Nat) :
    Honours fifo messageSize s (.pop size) <->
      WrapperSized fifo messageSize s (.pop size) := by
  unfold BoostContents at hs
  cases hcontents : fifo.contents s.queue with
  | nil =>
      rw [hcontents] at hs
      have hsent : s.sent = [] := List.forall₂_nil_left_iff.mp hs
      simp only [Honours, WrapperSized, hsent, List.head?_nil]
      exact iff_of_true nofun nofun
  | cons t rest =>
      rcases boostPop_cons size hcontents with ⟨queue, hpop, _⟩
      rw [hcontents] at hs
      cases hsent : s.sent with
      | nil =>
          rw [hsent] at hs
          cases hs
      | cons payload more =>
          rw [hsent] at hs
          have hwraps := (List.forall₂_cons.mp hs).left
          simp only [Honours, WrapperSized, hsent, hpop, List.head?_cons]
          constructor
          · intro h other hother
            cases hother
            rcases h payload queue _ rfl rfl with ⟨hwrites, harrives⟩
            have hlength : wrapperSize ≤ size := by
              rw [← t.length_buf]
              exact hwrites
            exact ⟨hlength, fun hfits hholds => hwraps.eq_iff.mp (harrives hfits hholds)⟩
          · intro h other queue' receipt hother hreceipt
            cases hother
            cases hreceipt
            rcases h payload rfl with ⟨hlength, hexact⟩
            refine ⟨?_, fun hfits hholds => hwraps.eq_iff.mpr (hexact hfits hholds)⟩
            show t.buf.length ≤ size
            rw [t.length_buf]
            exact hlength

end Step

/-!
# Every sequence of calls
-/

/-- Every call of a run keeps the contract exactly if all sizes go through a wrapper
of ten bytes. -/
theorem boost_honours_iff {Queue : Type}
    (fifo : BoundedFifo Queue BufferWrapper queueCapacity) (messageSize : Int)
    {start s : BoostState Queue} {trace : List (Transition (BoostState Queue) BoostLabel)}
    (hstart : (boostSystem fifo).Initial start)
    (hrun : (boostSystem fifo).Run start trace s) :
    TransitionSystem.Guarded (WrapperSized fifo messageSize) trace <->
      forall t, t ∈ trace -> Honours fifo messageSize t.source t.label := by
  have hcontents : BoostContents fifo start := by
    unfold BoostContents
    rw [hstart.left, hstart.right]
    exact .nil
  have hiff : forall t l, BoostContents fifo t ->
      (Honours fifo messageSize t l <-> WrapperSized fifo messageSize t l) := by
    intro t l ht
    cases l with
    | push mem buf size => exact push_honours_iff mem buf size
    | pop size => exact pop_honours_iff ht size
  have hassumed : TransitionSystem.Guarded (fun _ _ => True) trace := fun _ _ => trivial
  apply TransitionSystem.run_guarded_iff_safe ?_ ?_ hrun hassumed hcontents
  · intro t l t' ht hnext _ hguard
    exact ⟨boostNext_contents ht hnext, (hiff t l ht).mpr hguard⟩
  · intro t l t' ht _ _ hguard hsafe
    exact hguard ((hiff t l ht).mp hsafe)

def tenBytes : ByteMemory := fun x => UInt8.ofNat x.toNat

/-- A send of ten bytes and a receive into a buffer of ten bytes. -/
def tenByteRun :
    List (Transition (BoostState (List BufferWrapper)) BoostLabel) :=
  [⟨⟨[], []⟩, .push tenBytes 0 10, ⟨[.read tenBytes 0], [load tenBytes 0 10]⟩⟩,
    ⟨⟨[.read tenBytes 0], [load tenBytes 0 10]⟩, .pop 10, ⟨[], []⟩⟩]

theorem boost_honours_iff_tenBytes :
    (boostSystem (BoundedFifo.ofList BufferWrapper queueCapacity)).Run ⟨[], []⟩
        tenByteRun ⟨[], []⟩ ∧
      forall t, t ∈ tenByteRun ->
        Honours (BoundedFifo.ofList BufferWrapper queueCapacity) 10 t.source t.label := by
  have hrun : (boostSystem (BoundedFifo.ofList BufferWrapper queueCapacity)).Run ⟨[], []⟩
      tenByteRun ⟨[], []⟩ :=
    .snoc (.snoc .nil rfl) rfl
  refine ⟨hrun, (boost_honours_iff _ 10 ⟨rfl, rfl⟩ hrun).mp ?_⟩
  intro t ht
  rcases List.mem_cons.mp ht with rfl | hlast
  · intro _
    decide
  · rw [List.mem_singleton.mp hlast]
    intro payload hpayload
    cases hpayload
    decide

/-- A payload that is longer than the message size is accepted. -/
theorem boost_accepts_large :
    ¬ forall (Queue : Type) (fifo : BoundedFifo Queue BufferWrapper queueCapacity)
      (messageSize : Int) (start s : BoostState Queue)
      (trace : List (Transition (BoostState Queue) BoostLabel)),
      (boostSystem fifo).Initial start -> (boostSystem fifo).Run start trace s ->
      forall t, t ∈ trace -> Honours fifo messageSize t.source t.label := by
  intro hclaim
  let fifo := BoundedFifo.ofList BufferWrapper queueCapacity
  have hrun : (boostSystem fifo).Run ⟨[], []⟩
      [⟨⟨[], []⟩, .push tenBytes 0 20, ⟨[.read tenBytes 0], [load tenBytes 0 20]⟩⟩]
      ⟨[.read tenBytes 0], [load tenBytes 0 20]⟩ :=
    .snoc .nil rfl
  have hrejects := (hclaim _ fifo 15 _ _ _ ⟨rfl, rfl⟩ hrun _ List.mem_cons_self).left
    (by decide)
  have hcode : (0 : Int) = -1 := congrArg Prod.snd hrejects
  exact absurd hcode (by decide)

end Queue
end Notnets
