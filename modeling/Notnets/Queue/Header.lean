import Notnets.Foundation.MachineInteger
import Mathlib.Tactic.Linarith

/-!
# Queue headers and their creation

A queue lives in one shared memory region: a header, then the slots.  The POLL
and the SEM version compute the number of slots in the same way, from their own
header sizes.
-/

namespace Notnets
namespace Queue

open Foundation

/-- The ways in which a call does not return to its caller. -/
inductive Halt where
  /-- `exit(1)` after an error message. -/
  | exit
  /-- Integer division by zero. -/
  | divideByZero
  /-- A write through the address `(void*) -1`. -/
  | badAddress
  /-- Waiting on a semaphore that nobody posts. -/
  | blocked
deriving DecidableEq, Repr

/-- `sizeof(spsc_queue_header)`. -/
def sizeofSpscQueueHeader : Nat := 40

/-- `sizeof(sem_spsc_queue_header)`. -/
def sizeofSemSpscQueueHeader : Nat := 48

structure SpscQueueHeader where
  head : Int
  tail : Int
  messageSize : Nat
  messageOffset : Int
  queueSize : Int
  currentCount : Int
  totalCount : Int
  stopProducerPolling : Bool
  stopConsumerPolling : Bool
deriving DecidableEq, Repr

/--
The part that both versions of `queue_create` share: the size guard, then
`num_elements` and the returned `shm_size - leftover_bytes`.
-/
def queueSizes (headerSize shmSize messageSize : Nat) : Except Halt (Int × Int) :=
  if sizeAdd messageSize headerSize > shmSize then
    .error .exit
  else if messageSize = 0 then
    .error .divideByZero
  else
    let numElements := toInt32 (sizeSub shmSize headerSize / messageSize : Nat)
    let leftoverBytes := toInt32 (sizeSub shmSize headerSize % messageSize : Nat)
    .ok (numElements, toInt64 (sizeSub shmSize (toSizeT leftoverBytes)))

/-- The fields that both headers have, as `queue_create` writes them. -/
def createHeader (headerSize shmSize messageSize : Nat) :
    Except Halt (SpscQueueHeader × Int) :=
  match queueSizes headerSize shmSize messageSize with
  | .error halt => .error halt
  | .ok (numElements, usable) =>
      .ok
        ({ head := 0
           tail := 0
           messageSize := messageSize
           messageOffset := 0
           queueSize := numElements
           currentCount := 0
           totalCount := 0
           stopProducerPolling := false
           stopConsumerPolling := false }, usable)

/-- The header that the POLL `queue_create` writes, and its return value. -/
def queueCreate (shmSize messageSize : Nat) :
    Except Halt (SpscQueueHeader × Int) :=
  createHeader sizeofSpscQueueHeader shmSize messageSize

/--
What the SEM `queue_create` writes before it sets up the semaphores, and its
return value.
-/
def semQueueCreate (shmSize messageSize : Nat) :
    Except Halt (SpscQueueHeader × Int) :=
  createHeader sizeofSemSpscQueueHeader shmSize messageSize

/-!
# The geometry of an admitted queue

With a positive message size, no wrap in the guard and a region below
`2^31` bytes, the truncations of `queue_create` lose nothing and every
address the queue computes fits an `int`.
-/

structure Geometry where
  headerSize : Nat
  messageSize : Nat
  queueSize : Nat
  messageSize_pos : 0 < messageSize
  queueSize_pos : 0 < queueSize
  fits : headerSize + queueSize * messageSize < 2 ^ 31

namespace Geometry

variable (g : Geometry)

theorem messageSize_lt : g.messageSize < 2 ^ 31 := by
  have h := g.fits
  have hle : g.messageSize ≤ g.queueSize * g.messageSize :=
    Nat.le_mul_of_pos_left g.messageSize g.queueSize_pos
  lia

theorem queueSize_lt : g.queueSize < 2 ^ 31 := by
  have h := g.fits
  have hle : g.queueSize ≤ g.queueSize * g.messageSize :=
    Nat.le_mul_of_pos_right g.queueSize g.messageSize_pos
  lia

theorem slot_lt {i : Nat} (hi : i < g.queueSize) : i * g.messageSize < 2 ^ 31 := by
  have h := g.fits
  have hle : i * g.messageSize ≤ g.queueSize * g.messageSize :=
    Nat.mul_le_mul_right g.messageSize (Nat.le_of_lt hi)
  lia

theorem toInt32_slot {i : Nat} (hi : i < g.queueSize) :
    toInt32 ((i : Int) * (g.messageSize : Int)) = (i * g.messageSize : Nat) := by
  rw [← Int.natCast_mul, toInt32_natCast (g.slot_lt hi)]

theorem sizeMul_slot {i : Nat} (hi : i < g.queueSize) :
    sizeMul (toSizeT (i : Int)) g.messageSize = i * g.messageSize := by
  have hqueue := g.queueSize_lt
  have hslot := g.slot_lt hi
  rw [toSizeT_natCast (by lia), sizeMul_of_fits (by lia)]

end Geometry

theorem queueSizes_ok {headerSize shmSize messageSize : Nat} {n usable : Int}
    (hmessage : 0 < messageSize) (hguard : messageSize + headerSize < 2 ^ 64)
    (hshm : shmSize < 2 ^ 31)
    (h : queueSizes headerSize shmSize messageSize = .ok (n, usable)) :
    messageSize + headerSize ≤ shmSize ∧
      n = ((shmSize - headerSize) / messageSize : Nat) := by
  unfold queueSizes at h
  rw [sizeAdd_of_fits hguard] at h
  by_cases hlarge : messageSize + headerSize > shmSize
  · rw [if_pos hlarge] at h
    cases h
  · rw [if_neg hlarge, if_neg (by lia), sizeSub_of_le (by lia) (by lia)] at h
    injection h with hpair
    injection hpair with hn _
    have hle : (shmSize - headerSize) / messageSize ≤ shmSize - headerSize :=
      Nat.div_le_self _ _
    rw [toInt32_natCast (by lia)] at hn
    exact ⟨by lia, hn.symm⟩

theorem exists_geometry {headerSize shmSize messageSize : Nat} {n usable : Int}
    (hmessage : 0 < messageSize) (hguard : messageSize + headerSize < 2 ^ 64)
    (hshm : shmSize < 2 ^ 31)
    (h : queueSizes headerSize shmSize messageSize = .ok (n, usable)) :
    exists g : Geometry,
      g.headerSize = headerSize ∧ g.messageSize = messageSize ∧
        n = g.queueSize ∧
        g.headerSize + g.queueSize * g.messageSize ≤ shmSize := by
  rcases queueSizes_ok hmessage hguard hshm h with ⟨hle, hn⟩
  have hmul : (shmSize - headerSize) / messageSize * messageSize ≤
      shmSize - headerSize := Nat.div_mul_le_self _ _
  refine
    ⟨{ headerSize := headerSize
       messageSize := messageSize
       queueSize := (shmSize - headerSize) / messageSize
       messageSize_pos := hmessage
       queueSize_pos := Nat.div_pos (by lia) hmessage
       fits := by lia }, rfl, rfl, hn, ?_⟩
  show headerSize + (shmSize - headerSize) / messageSize * messageSize ≤ shmSize
  lia

theorem createHeader_ok {headerSize shmSize messageSize : Nat}
    {header : SpscQueueHeader} {usable : Int}
    (h : createHeader headerSize shmSize messageSize = .ok (header, usable)) :
    exists n, queueSizes headerSize shmSize messageSize = .ok (n, usable) ∧
      header =
        { head := 0, tail := 0, messageSize := messageSize, messageOffset := 0,
          queueSize := n, currentCount := 0, totalCount := 0,
          stopProducerPolling := false, stopConsumerPolling := false } := by
  unfold createHeader at h
  cases hsizes : queueSizes headerSize shmSize messageSize with
  | error halt =>
      rw [hsizes] at h
      cases h
  | ok sizes =>
      rw [hsizes] at h
      cases h
      exact ⟨sizes.1, rfl, rfl⟩

/-- Negative message sizes wrap in the guard, and the last of them pass it. -/
theorem exists_createHeader_iff {headerSize shmSize : Nat} {messageSize : Int}
    (hlow : -2 ^ 31 ≤ messageSize) (hhigh : messageSize < 2 ^ 31)
    (hheader : headerSize ≤ shmSize) (hshm : shmSize < 2 ^ 31) :
    (exists result,
      createHeader headerSize shmSize (toSizeT messageSize) = .ok result) <->
      (0 < messageSize ∧ messageSize + headerSize ≤ shmSize) ∨
        (-headerSize ≤ messageSize ∧ messageSize < 0) := by
  have hcreated : (exists result,
      createHeader headerSize shmSize (toSizeT messageSize) = .ok result) <->
      sizeAdd (toSizeT messageSize) headerSize ≤ shmSize ∧ toSizeT messageSize ≠ 0 := by
    unfold createHeader queueSizes
    split
    · rename_i hsizes
      split at hsizes
      · simp
        lia
      · split at hsizes
        · rename_i hzero
          simp [hzero]
        · cases hsizes
    · rename_i hsizes
      split at hsizes
      · cases hsizes
      · split at hsizes
        · cases hsizes
        · rename_i hguard hzero
          simp only [Except.ok.injEq, exists_eq', true_iff]
          exact ⟨by lia, hzero⟩
  rw [hcreated]
  unfold sizeAdd toSizeT
  lia

/-- A size guard that wraps admits at most one slot. -/
theorem guard_of_two_slots {headerSize shmSize messageSize : Nat} {n usable : Int}
    (hheader : headerSize < 2 ^ 32) (htwo : 2 ≤ n)
    (h : queueSizes headerSize shmSize messageSize = .ok (n, usable)) :
    0 < messageSize ∧ messageSize + headerSize < 2 ^ 64 := by
  unfold queueSizes at h
  split at h
  · cases h
  · split at h
    · cases h
    · rename_i hzero
      injection h with hpair
      injection hpair with hn _
      constructor
      · lia
      · have hspace : sizeSub shmSize headerSize < 2 ^ 64 :=
          Nat.mod_lt _ (by decide)
        by_contra hwrap
        have hquotient : sizeSub shmSize headerSize / messageSize < 2 := by
          rw [Nat.div_lt_iff_lt_mul (by lia)]
          lia
        rw [toInt32_natCast (by lia)] at hn
        lia

theorem createHeader_geometry {headerSize shmSize messageSize c : Nat}
    {header : SpscQueueHeader} {usable : Int} (hheader : headerSize < 2 ^ 32)
    (hcreate : createHeader headerSize shmSize messageSize = .ok (header, usable))
    (hshm : shmSize < 2 ^ 31) (hcapacity : header.queueSize = c + 1) (hc : 1 ≤ c) :
    exists g : Geometry, messageSize = g.messageSize ∧
      header.queueSize = g.queueSize ∧ g.queueSize = c + 1 := by
  rcases createHeader_ok hcreate with ⟨n, hsizes, hwritten⟩
  have hn : header.queueSize = n := by
    rw [hwritten]
  have hmany : 2 ≤ n := by lia
  rcases guard_of_two_slots hheader hmany hsizes with ⟨hmessage, hguard⟩
  rcases exists_geometry hmessage hguard hshm hsizes with ⟨g, _, hsize, hqueue, _⟩
  exact ⟨g, hsize.symm, hn.trans hqueue, by lia⟩

end Queue
end Notnets
