import Notnets.Queue.Poll

/-!
# The SEM queue

One producer runs `sem_push` and one consumer runs `sem_pop` on the same region
and the three semaphores that its header names.  Every semaphore operation,
every test of the indices, every byte that `memcpy` moves and every load or
store of a field is one step.  A semaphore operation may also fail: it then has
no effect, and the callers go on as if it had succeeded.
-/

namespace Notnets
namespace Queue

open Foundation

namespace SpscQueue

def setCurrentCount (q : SpscQueue) (currentCount : Int) : SpscQueue :=
  { q with header := { q.header with currentCount := currentCount } }

def setTotalCount (q : SpscQueue) (totalCount : Int) : SpscQueue :=
  { q with header := { q.header with totalCount := totalCount } }

end SpscQueue

/-- The remainder is the one of C, which has the sign of the dividend. -/
def succ (index queueSize : Int) : Int :=
  Int.tmod (toInt32 (index + 1)) queueSize

def isFull (header : SpscQueueHeader) : Bool :=
  succ header.head header.queueSize = header.tail

def isEmpty (header : SpscQueueHeader) : Bool :=
  header.head = header.tail

/-!
# Semaphores
-/

inductive Semaphore where
  | lock
  | full
  | empty
deriving DecidableEq, Repr

/-- Blocks while the value is zero, unless the operation fails. -/
def semWait (values : Semaphore -> Nat) (which : Semaphore) (ok : Bool) :
    Option (Semaphore -> Nat) :=
  if ok then
    if values which = 0 then
      none
    else
      some (Function.update values which (values which - 1))
  else
    some values

def semPost (values : Semaphore -> Nat) (which : Semaphore) (ok : Bool) :
    Semaphore -> Nat :=
  if ok then
    Function.update values which (values which + 1)
  else
    values

/-- The values that `queue_create` leaves in semaphores of its own. -/
def initialValues : Semaphore -> Nat
  | .lock => 1
  | .full => 1
  | .empty => 0

/-!
# sem_push
-/

/-- Where a call of `sem_push` stands, with the locals it has computed. -/
inductive SemPushPc where
  /-- No call is running; the last one returned this. -/
  | idle (ret : Option Int)
  | entered (buf : List Byte)
  | locking (buf : List Byte)
  | sampling (buf : List Byte)
  | testing (buf : List Byte) (wasEmpty : Bool)
  | releasing (buf : List Byte) (wasEmpty : Bool)
  /-- At the test of the loop that waits while the queue is full. -/
  | retesting (buf : List Byte) (wasEmpty : Bool)
  | waiting (buf : List Byte) (wasEmpty : Bool)
  | relocking (buf : List Byte) (wasEmpty : Bool)
  | copying (buf : List Byte) (wasEmpty : Bool) (copied : Nat)
  | counting (buf : List Byte) (wasEmpty : Bool)
  | counted (buf : List Byte) (wasEmpty : Bool) (currentCount : Int)
  | totaling (buf : List Byte) (wasEmpty : Bool)
  | publishing (buf : List Byte) (wasEmpty : Bool)
  | unlocking (wasEmpty : Bool)
  | posting

/-- What one step of `sem_push` leaves, and the message it made visible. -/
structure SemPushOutcome where
  queue : SpscQueue
  values : Semaphore -> Nat
  pc : SemPushPc
  published : Option (List Byte)

/-- `(char*) array_start + header->head * message_size`. -/
def enqueueAddress (header : SpscQueueHeader) : Int :=
  sizeofSemSpscQueueHeader +
    toInt32 (header.head * toInt32 header.messageSize)

def semPushStep (q : SpscQueue) (values : Semaphore -> Nat) (ok : Bool) :
    SemPushPc -> Option SemPushOutcome
  | .idle _ => none
  | .entered buf =>
      if buf.length > q.header.messageSize then
        some ⟨q, values, .idle (some (-1)), none⟩
      else
        some ⟨q, values, .locking buf, none⟩
  | .locking buf =>
      match semWait values .lock ok with
      | some values' => some ⟨q, values', .sampling buf, none⟩
      | none => none
  | .sampling buf => some ⟨q, values, .testing buf (isEmpty q.header), none⟩
  | .testing buf wasEmpty =>
      if isFull q.header then
        some ⟨q, values, .releasing buf wasEmpty, none⟩
      else
        some ⟨q, values, .copying buf wasEmpty 0, none⟩
  | .releasing buf wasEmpty =>
      some ⟨q, semPost values .lock ok, .retesting buf wasEmpty, none⟩
  | .retesting buf wasEmpty =>
      if isFull q.header then
        some ⟨q, values, .waiting buf wasEmpty, none⟩
      else
        some ⟨q, values, .relocking buf wasEmpty, none⟩
  | .waiting buf wasEmpty =>
      match semWait values .full ok with
      | some values' => some ⟨q, values', .retesting buf wasEmpty, none⟩
      | none => none
  | .relocking buf wasEmpty =>
      match semWait values .lock ok with
      | some values' => some ⟨q, values', .copying buf wasEmpty 0, none⟩
      | none => none
  | .copying buf wasEmpty copied =>
      match buf[copied]? with
      | some b =>
          some ⟨q.write (enqueueAddress q.header + copied) b, values,
            .copying buf wasEmpty (copied + 1), none⟩
      | none => some ⟨q, values, .counting buf wasEmpty, none⟩
  | .counting buf wasEmpty =>
      some ⟨q, values, .counted buf wasEmpty q.header.currentCount, none⟩
  | .counted buf wasEmpty currentCount =>
      some ⟨q.setCurrentCount (toInt32 (currentCount + 1)), values,
        .totaling buf wasEmpty, none⟩
  | .totaling buf wasEmpty =>
      some ⟨q.setTotalCount (toInt32 (q.header.totalCount + 1)), values,
        .publishing buf wasEmpty, none⟩
  | .publishing buf wasEmpty =>
      some ⟨q.setHead (succ q.header.head q.header.queueSize), values,
        .unlocking wasEmpty, some buf⟩
  | .unlocking wasEmpty =>
      if wasEmpty then
        some ⟨q, semPost values .lock ok, .posting, none⟩
      else
        some ⟨q, semPost values .lock ok, .idle (some 0), none⟩
  | .posting => some ⟨q, semPost values .empty ok, .idle (some 0), none⟩

/-- A step of `sem_push`, by the branch that it takes. -/
inductive SemPushMove (q : SpscQueue) (values : Semaphore -> Nat) (ok : Bool) :
    SemPushPc -> SemPushOutcome -> Prop where
  | reject {buf : List Byte} (hlarge : q.header.messageSize < buf.length) :
      SemPushMove q values ok (.entered buf) ⟨q, values, .idle (some (-1)), none⟩
  | enter {buf : List Byte} (hfits : buf.length ≤ q.header.messageSize) :
      SemPushMove q values ok (.entered buf) ⟨q, values, .locking buf, none⟩
  | lock {buf : List Byte} {values' : Semaphore -> Nat}
      (hwait : semWait values .lock ok = some values') :
      SemPushMove q values ok (.locking buf) ⟨q, values', .sampling buf, none⟩
  | sample {buf : List Byte} :
      SemPushMove q values ok (.sampling buf)
        ⟨q, values, .testing buf (isEmpty q.header), none⟩
  | full {buf : List Byte} {wasEmpty : Bool} (hfull : isFull q.header = true) :
      SemPushMove q values ok (.testing buf wasEmpty)
        ⟨q, values, .releasing buf wasEmpty, none⟩
  | room {buf : List Byte} {wasEmpty : Bool} (hroom : isFull q.header = false) :
      SemPushMove q values ok (.testing buf wasEmpty)
        ⟨q, values, .copying buf wasEmpty 0, none⟩
  | release {buf : List Byte} {wasEmpty : Bool} :
      SemPushMove q values ok (.releasing buf wasEmpty)
        ⟨q, semPost values .lock ok, .retesting buf wasEmpty, none⟩
  | stillFull {buf : List Byte} {wasEmpty : Bool} (hfull : isFull q.header = true) :
      SemPushMove q values ok (.retesting buf wasEmpty)
        ⟨q, values, .waiting buf wasEmpty, none⟩
  | nowRoom {buf : List Byte} {wasEmpty : Bool} (hroom : isFull q.header = false) :
      SemPushMove q values ok (.retesting buf wasEmpty)
        ⟨q, values, .relocking buf wasEmpty, none⟩
  | wait {buf : List Byte} {wasEmpty : Bool} {values' : Semaphore -> Nat}
      (hwait : semWait values .full ok = some values') :
      SemPushMove q values ok (.waiting buf wasEmpty)
        ⟨q, values', .retesting buf wasEmpty, none⟩
  | relock {buf : List Byte} {wasEmpty : Bool} {values' : Semaphore -> Nat}
      (hwait : semWait values .lock ok = some values') :
      SemPushMove q values ok (.relocking buf wasEmpty)
        ⟨q, values', .copying buf wasEmpty 0, none⟩
  | copy {buf : List Byte} {wasEmpty : Bool} {copied : Nat} {b : Byte}
      (hbyte : buf[copied]? = some b) :
      SemPushMove q values ok (.copying buf wasEmpty copied)
        ⟨q.write (enqueueAddress q.header + copied) b, values,
          .copying buf wasEmpty (copied + 1), none⟩
  | copied {buf : List Byte} {wasEmpty : Bool} {copied : Nat}
      (hend : buf[copied]? = none) :
      SemPushMove q values ok (.copying buf wasEmpty copied)
        ⟨q, values, .counting buf wasEmpty, none⟩
  | load {buf : List Byte} {wasEmpty : Bool} :
      SemPushMove q values ok (.counting buf wasEmpty)
        ⟨q, values, .counted buf wasEmpty q.header.currentCount, none⟩
  | store {buf : List Byte} {wasEmpty : Bool} {currentCount : Int} :
      SemPushMove q values ok (.counted buf wasEmpty currentCount)
        ⟨q.setCurrentCount (toInt32 (currentCount + 1)), values,
          .totaling buf wasEmpty, none⟩
  | total {buf : List Byte} {wasEmpty : Bool} :
      SemPushMove q values ok (.totaling buf wasEmpty)
        ⟨q.setTotalCount (toInt32 (q.header.totalCount + 1)), values,
          .publishing buf wasEmpty, none⟩
  | publish {buf : List Byte} {wasEmpty : Bool} :
      SemPushMove q values ok (.publishing buf wasEmpty)
        ⟨q.setHead (succ q.header.head q.header.queueSize), values,
          .unlocking wasEmpty, some buf⟩
  | unlockFirst :
      SemPushMove q values ok (.unlocking true)
        ⟨q, semPost values .lock ok, .posting, none⟩
  | unlock :
      SemPushMove q values ok (.unlocking false)
        ⟨q, semPost values .lock ok, .idle (some 0), none⟩
  | post :
      SemPushMove q values ok .posting
        ⟨q, semPost values .empty ok, .idle (some 0), none⟩

theorem semPushMove_of_step {q : SpscQueue} {values : Semaphore -> Nat} {ok : Bool}
    {pc : SemPushPc} {out : SemPushOutcome}
    (h : semPushStep q values ok pc = some out) : SemPushMove q values ok pc out := by
  cases pc with
  | idle ret => cases h
  | entered buf =>
      simp only [semPushStep] at h
      split at h
      · rename_i hlarge
        cases h
        exact .reject hlarge
      · rename_i hfits
        cases h
        exact .enter (Nat.le_of_not_lt hfits)
  | locking buf =>
      simp only [semPushStep] at h
      split at h
      · rename_i values' hwait
        cases h
        exact .lock hwait
      · cases h
  | sampling buf =>
      cases h
      exact .sample
  | testing buf wasEmpty =>
      simp only [semPushStep] at h
      split at h
      · rename_i hfull
        cases h
        exact .full hfull
      · rename_i hfull
        cases h
        exact .room (by simpa using hfull)
  | releasing buf wasEmpty =>
      cases h
      exact .release
  | retesting buf wasEmpty =>
      simp only [semPushStep] at h
      split at h
      · rename_i hfull
        cases h
        exact .stillFull hfull
      · rename_i hfull
        cases h
        exact .nowRoom (by simpa using hfull)
  | waiting buf wasEmpty =>
      simp only [semPushStep] at h
      split at h
      · rename_i values' hwait
        cases h
        exact .wait hwait
      · cases h
  | relocking buf wasEmpty =>
      simp only [semPushStep] at h
      split at h
      · rename_i values' hwait
        cases h
        exact .relock hwait
      · cases h
  | copying buf wasEmpty copied =>
      simp only [semPushStep] at h
      split at h
      · rename_i b hbyte
        injection h with h
        subst h
        exact .copy hbyte
      · rename_i hend
        cases h
        exact .copied hend
  | counting buf wasEmpty =>
      cases h
      exact .load
  | counted buf wasEmpty currentCount =>
      simp only [semPushStep] at h
      injection h with h
      subst h
      exact .store
  | totaling buf wasEmpty =>
      simp only [semPushStep] at h
      injection h with h
      subst h
      exact .total
  | publishing buf wasEmpty =>
      simp only [semPushStep] at h
      injection h with h
      subst h
      exact .publish
  | unlocking wasEmpty =>
      cases wasEmpty with
      | true =>
          cases h
          exact .unlockFirst
      | false =>
          cases h
          exact .unlock
  | posting =>
      cases h
      exact .post

/-!
# sem_pop
-/

/-- Where a call of `sem_pop` stands, with the locals it has computed. -/
inductive SemPopPc where
  /-- No call is running; the last one returned this. -/
  | idle (last : Option Receipt)
  | entered (size : Nat)
  | locking (size : Nat)
  | sampling (size : Nat)
  | testing (size : Nat) (wasFull : Bool)
  | releasing (size : Nat) (wasFull : Bool)
  /-- At the test of the loop that waits while the queue is empty. -/
  | retesting (size : Nat) (wasFull : Bool)
  | waiting (size : Nat) (wasFull : Bool)
  | relocking (size : Nat) (wasFull : Bool)
  | clamping (size : Nat) (wasFull : Bool)
  | copying (size : Nat) (wasFull : Bool) (buf : List Byte)
  /-- The message offset has been advanced but not yet tested. -/
  | advanced (buf : List Byte) (wasFull : Bool)
  | retiring (buf : List Byte) (wasFull : Bool)
  | counting (buf : List Byte) (wasFull : Bool)
  | counted (buf : List Byte) (wasFull : Bool) (currentCount : Int)
  | resetting (buf : List Byte) (wasFull : Bool)
  | returning (buf : List Byte) (wasFull : Bool)
  | unlocking (receipt : Receipt) (wasFull : Bool)
  | posting (receipt : Receipt)

/-- What one step of `sem_pop` leaves.  `retired` tells that the step removed a
message, and `receipt` is what `dequeue` returned with it. -/
structure SemPopOutcome where
  queue : SpscQueue
  values : Semaphore -> Nat
  pc : SemPopPc
  retired : Bool
  receipt : Option Receipt

/-- `(char*) array_start + header->tail * header->message_size +
header->message_offset`. -/
def dequeueAddress (header : SpscQueueHeader) : Int :=
  sizeofSemSpscQueueHeader +
    (sizeMul (toSizeT header.tail) header.messageSize : Nat) +
    header.messageOffset

def semPopStep (q : SpscQueue) (values : Semaphore -> Nat) (ok : Bool) :
    SemPopPc -> Option SemPopOutcome
  | .idle _ => none
  | .entered size =>
      if q.header.stopConsumerPolling then
        some ⟨q, values, .idle (some ⟨[], 0⟩), false, none⟩
      else
        some ⟨q, values, .locking size, false, none⟩
  | .locking size =>
      match semWait values .lock ok with
      | some values' => some ⟨q, values', .sampling size, false, none⟩
      | none => none
  | .sampling size =>
      some ⟨q, values, .testing size (isFull q.header), false, none⟩
  | .testing size wasFull =>
      if isEmpty q.header then
        some ⟨q, values, .releasing size wasFull, false, none⟩
      else
        some ⟨q, values, .clamping size wasFull, false, none⟩
  | .releasing size wasFull =>
      some ⟨q, semPost values .lock ok, .retesting size wasFull, false, none⟩
  | .retesting size wasFull =>
      if isEmpty q.header then
        some ⟨q, values, .waiting size wasFull, false, none⟩
      else
        some ⟨q, values, .relocking size wasFull, false, none⟩
  | .waiting size wasFull =>
      match semWait values .empty ok with
      | some values' => some ⟨q, values', .retesting size wasFull, false, none⟩
      | none => none
  | .relocking size wasFull =>
      match semWait values .lock ok with
      | some values' => some ⟨q, values', .clamping size wasFull, false, none⟩
      | none => none
  | .clamping size wasFull =>
      some ⟨q, values,
        .copying (clampSize q.header.messageSize q.header.messageOffset size)
          wasFull [], false, none⟩
  | .copying size wasFull buf =>
      if buf.length < size then
        some ⟨q, values, .copying size wasFull
          (buf ++ [q.mem (dequeueAddress q.header + buf.length)]), false, none⟩
      else
        some ⟨q.setMessageOffset (advanceOffset q.header.messageOffset size),
          values, .advanced buf wasFull, false, none⟩
  | .advanced buf wasFull =>
      if toSizeT q.header.messageOffset = q.header.messageSize then
        some ⟨q, values, .retiring buf wasFull, false, none⟩
      else
        some ⟨q, values, .returning buf wasFull, false, none⟩
  | .retiring buf wasFull =>
      some ⟨q.setTail (succ q.header.tail q.header.queueSize), values,
        .counting buf wasFull, true, none⟩
  | .counting buf wasFull =>
      some ⟨q, values, .counted buf wasFull q.header.currentCount, false, none⟩
  | .counted buf wasFull currentCount =>
      some ⟨q.setCurrentCount (toInt32 (currentCount - 1)), values,
        .resetting buf wasFull, false, none⟩
  | .resetting buf wasFull =>
      some ⟨q.setMessageOffset 0, values, .returning buf wasFull, false, none⟩
  | .returning buf wasFull =>
      some ⟨q, values, .unlocking ⟨buf, toSizeT q.header.messageOffset⟩ wasFull,
        false, some ⟨buf, toSizeT q.header.messageOffset⟩⟩
  | .unlocking receipt wasFull =>
      if wasFull then
        some ⟨q, semPost values .lock ok, .posting receipt, false, none⟩
      else
        some ⟨q, semPost values .lock ok, .idle (some receipt), false, none⟩
  | .posting receipt =>
      some ⟨q, semPost values .full ok, .idle (some receipt), false, none⟩

/-- A step of `sem_pop`, by the branch that it takes. -/
inductive SemPopMove (q : SpscQueue) (values : Semaphore -> Nat) (ok : Bool) :
    SemPopPc -> SemPopOutcome -> Prop where
  | stop {size : Nat} (hstop : q.header.stopConsumerPolling = true) :
      SemPopMove q values ok (.entered size)
        ⟨q, values, .idle (some ⟨[], 0⟩), false, none⟩
  | enter {size : Nat} (hruns : q.header.stopConsumerPolling = false) :
      SemPopMove q values ok (.entered size) ⟨q, values, .locking size, false, none⟩
  | lock {size : Nat} {values' : Semaphore -> Nat}
      (hwait : semWait values .lock ok = some values') :
      SemPopMove q values ok (.locking size) ⟨q, values', .sampling size, false, none⟩
  | sample {size : Nat} :
      SemPopMove q values ok (.sampling size)
        ⟨q, values, .testing size (isFull q.header), false, none⟩
  | empty {size : Nat} {wasFull : Bool} (hempty : isEmpty q.header = true) :
      SemPopMove q values ok (.testing size wasFull)
        ⟨q, values, .releasing size wasFull, false, none⟩
  | message {size : Nat} {wasFull : Bool} (hmessage : isEmpty q.header = false) :
      SemPopMove q values ok (.testing size wasFull)
        ⟨q, values, .clamping size wasFull, false, none⟩
  | release {size : Nat} {wasFull : Bool} :
      SemPopMove q values ok (.releasing size wasFull)
        ⟨q, semPost values .lock ok, .retesting size wasFull, false, none⟩
  | stillEmpty {size : Nat} {wasFull : Bool} (hempty : isEmpty q.header = true) :
      SemPopMove q values ok (.retesting size wasFull)
        ⟨q, values, .waiting size wasFull, false, none⟩
  | nowMessage {size : Nat} {wasFull : Bool} (hmessage : isEmpty q.header = false) :
      SemPopMove q values ok (.retesting size wasFull)
        ⟨q, values, .relocking size wasFull, false, none⟩
  | wait {size : Nat} {wasFull : Bool} {values' : Semaphore -> Nat}
      (hwait : semWait values .empty ok = some values') :
      SemPopMove q values ok (.waiting size wasFull)
        ⟨q, values', .retesting size wasFull, false, none⟩
  | relock {size : Nat} {wasFull : Bool} {values' : Semaphore -> Nat}
      (hwait : semWait values .lock ok = some values') :
      SemPopMove q values ok (.relocking size wasFull)
        ⟨q, values', .clamping size wasFull, false, none⟩
  | clamp {size : Nat} {wasFull : Bool} :
      SemPopMove q values ok (.clamping size wasFull)
        ⟨q, values,
          .copying (clampSize q.header.messageSize q.header.messageOffset size)
            wasFull [], false, none⟩
  | copy {size : Nat} {wasFull : Bool} {buf : List Byte} (hmore : buf.length < size) :
      SemPopMove q values ok (.copying size wasFull buf)
        ⟨q, values, .copying size wasFull
          (buf ++ [q.mem (dequeueAddress q.header + buf.length)]), false, none⟩
  | advance {size : Nat} {wasFull : Bool} {buf : List Byte}
      (hdone : size ≤ buf.length) :
      SemPopMove q values ok (.copying size wasFull buf)
        ⟨q.setMessageOffset (advanceOffset q.header.messageOffset size),
          values, .advanced buf wasFull, false, none⟩
  | whole {buf : List Byte} {wasFull : Bool}
      (hwhole : toSizeT q.header.messageOffset = q.header.messageSize) :
      SemPopMove q values ok (.advanced buf wasFull)
        ⟨q, values, .retiring buf wasFull, false, none⟩
  | part {buf : List Byte} {wasFull : Bool}
      (hpart : toSizeT q.header.messageOffset ≠ q.header.messageSize) :
      SemPopMove q values ok (.advanced buf wasFull)
        ⟨q, values, .returning buf wasFull, false, none⟩
  | retire {buf : List Byte} {wasFull : Bool} :
      SemPopMove q values ok (.retiring buf wasFull)
        ⟨q.setTail (succ q.header.tail q.header.queueSize), values,
          .counting buf wasFull, true, none⟩
  | load {buf : List Byte} {wasFull : Bool} :
      SemPopMove q values ok (.counting buf wasFull)
        ⟨q, values, .counted buf wasFull q.header.currentCount, false, none⟩
  | store {buf : List Byte} {wasFull : Bool} {currentCount : Int} :
      SemPopMove q values ok (.counted buf wasFull currentCount)
        ⟨q.setCurrentCount (toInt32 (currentCount - 1)), values,
          .resetting buf wasFull, false, none⟩
  | reset {buf : List Byte} {wasFull : Bool} :
      SemPopMove q values ok (.resetting buf wasFull)
        ⟨q.setMessageOffset 0, values, .returning buf wasFull, false, none⟩
  | finish {buf : List Byte} {wasFull : Bool} :
      SemPopMove q values ok (.returning buf wasFull)
        ⟨q, values, .unlocking ⟨buf, toSizeT q.header.messageOffset⟩ wasFull,
          false, some ⟨buf, toSizeT q.header.messageOffset⟩⟩
  | unlockFirst {receipt : Receipt} :
      SemPopMove q values ok (.unlocking receipt true)
        ⟨q, semPost values .lock ok, .posting receipt, false, none⟩
  | unlock {receipt : Receipt} :
      SemPopMove q values ok (.unlocking receipt false)
        ⟨q, semPost values .lock ok, .idle (some receipt), false, none⟩
  | post {receipt : Receipt} :
      SemPopMove q values ok (.posting receipt)
        ⟨q, semPost values .full ok, .idle (some receipt), false, none⟩

theorem semPopMove_of_step {q : SpscQueue} {values : Semaphore -> Nat} {ok : Bool}
    {pc : SemPopPc} {out : SemPopOutcome}
    (h : semPopStep q values ok pc = some out) : SemPopMove q values ok pc out := by
  cases pc with
  | idle last => cases h
  | entered size =>
      simp only [semPopStep] at h
      split at h
      · rename_i hstop
        cases h
        exact .stop hstop
      · rename_i hruns
        cases h
        exact .enter (by simpa using hruns)
  | locking size =>
      simp only [semPopStep] at h
      split at h
      · rename_i values' hwait
        cases h
        exact .lock hwait
      · cases h
  | sampling size =>
      cases h
      exact .sample
  | testing size wasFull =>
      simp only [semPopStep] at h
      split at h
      · rename_i hempty
        cases h
        exact .empty hempty
      · rename_i hempty
        cases h
        exact .message (by simpa using hempty)
  | releasing size wasFull =>
      cases h
      exact .release
  | retesting size wasFull =>
      simp only [semPopStep] at h
      split at h
      · rename_i hempty
        cases h
        exact .stillEmpty hempty
      · rename_i hempty
        cases h
        exact .nowMessage (by simpa using hempty)
  | waiting size wasFull =>
      simp only [semPopStep] at h
      split at h
      · rename_i values' hwait
        cases h
        exact .wait hwait
      · cases h
  | relocking size wasFull =>
      simp only [semPopStep] at h
      split at h
      · rename_i values' hwait
        cases h
        exact .relock hwait
      · cases h
  | clamping size wasFull =>
      simp only [semPopStep] at h
      injection h with h
      subst h
      exact .clamp
  | copying size wasFull buf =>
      simp only [semPopStep] at h
      split at h
      · rename_i hmore
        injection h with h
        subst h
        exact .copy hmore
      · rename_i hdone
        injection h with h
        subst h
        exact .advance (Nat.le_of_not_lt hdone)
  | advanced buf wasFull =>
      simp only [semPopStep] at h
      split at h
      · rename_i hwhole
        cases h
        exact .whole hwhole
      · rename_i hpart
        cases h
        exact .part hpart
  | retiring buf wasFull =>
      simp only [semPopStep] at h
      injection h with h
      subst h
      exact .retire
  | counting buf wasFull =>
      cases h
      exact .load
  | counted buf wasFull currentCount =>
      simp only [semPopStep] at h
      injection h with h
      subst h
      exact .store
  | resetting buf wasFull =>
      cases h
      exact .reset
  | returning buf wasFull =>
      simp only [semPopStep] at h
      injection h with h
      subst h
      exact .finish
  | unlocking receipt wasFull =>
      cases wasFull with
      | true =>
          cases h
          exact .unlockFirst
      | false =>
          cases h
          exact .unlock
  | posting receipt =>
      cases h
      exact .post

/-!
# The two parties

The messages made visible, the number of messages removed and the log of the
completed calls of `dequeue` are history: no step reads them.
-/

structure SemState where
  queue : SpscQueue
  values : Semaphore -> Nat
  producer : SemPushPc
  consumer : SemPopPc
  pushed : List (List Byte)
  retired : Nat
  popped : List Receipt

inductive SemLabel where
  /-- The producer calls `sem_push` with this buffer. -/
  | push (buf : List Byte)
  /-- The producer takes a step; `ok` tells whether `semop` succeeds in it. -/
  | producer (ok : Bool)
  /-- The consumer calls `sem_pop` with a buffer of this size. -/
  | pop (size : Nat)
  /-- The consumer takes a step; `ok` tells whether `semop` succeeds in it. -/
  | consumer (ok : Bool)
deriving DecidableEq

namespace SemState

def afterPush (s : SemState) (out : SemPushOutcome) : SemState :=
  { s with
    queue := out.queue
    values := out.values
    producer := out.pc
    pushed := s.pushed ++ out.published.toList }

def afterPop (s : SemState) (out : SemPopOutcome) : SemState :=
  { s with
    queue := out.queue
    values := out.values
    consumer := out.pc
    retired := s.retired + out.retired.toNat
    popped := s.popped ++ out.receipt.toList }

end SemState

def semNext (s : SemState) : SemLabel -> Option SemState
  | .push buf =>
      match s.producer with
      | .idle _ => some { s with producer := .entered buf }
      | _ => none
  | .producer ok =>
      match semPushStep s.queue s.values ok s.producer with
      | some out => some (s.afterPush out)
      | none => none
  | .pop size =>
      match s.consumer with
      | .idle _ => some { s with consumer := .entered size }
      | _ => none
  | .consumer ok =>
      match semPopStep s.queue s.values ok s.consumer with
      | some out => some (s.afterPop out)
      | none => none

/-- Both parties idle on a queue that `queue_create` has just set up. -/
def semStart (header : SpscQueueHeader) (mem : ByteMemory) : SemState where
  queue := { header := header, mem := mem }
  values := initialValues
  producer := .idle none
  consumer := .idle none
  pushed := []
  retired := 0
  popped := []

/-- One producer and one consumer on a queue created with this header. -/
def semSystem (header : SpscQueueHeader) :
    TransitionSystem SemState SemLabel where
  Initial s := exists mem, s = semStart header mem
  next := semNext

/-- No semaphore operation fails. -/
def SemopsSucceed : SemLabel -> Prop
  | .producer ok => ok = true
  | .consumer ok => ok = true
  | _ => True

instance (l : SemLabel) : Decidable (SemopsSucceed l) :=
  match l with
  | .push _ => .isTrue trivial
  | .producer ok => inferInstanceAs (Decidable (ok = true))
  | .pop _ => .isTrue trivial
  | .consumer ok => inferInstanceAs (Decidable (ok = true))

theorem semNext_cases {s s' : SemState} {l : SemLabel}
    (h : semNext s l = some s') :
    (exists buf ret, l = .push buf ∧ s.producer = .idle ret ∧
      s' = { s with producer := .entered buf }) ∨
    (exists ok out, l = .producer ok ∧
      semPushStep s.queue s.values ok s.producer = some out ∧
      s' = s.afterPush out) ∨
    (exists size last, l = .pop size ∧ s.consumer = .idle last ∧
      s' = { s with consumer := .entered size }) ∨
    (exists ok out, l = .consumer ok ∧
      semPopStep s.queue s.values ok s.consumer = some out ∧
      s' = s.afterPop out) := by
  cases l with
  | push buf =>
      apply Or.inl
      simp only [semNext] at h
      split at h
      · rename_i ret hpc
        cases h
        exact ⟨buf, ret, rfl, hpc, rfl⟩
      · cases h
  | producer ok =>
      apply Or.inr
      apply Or.inl
      cases hout : semPushStep s.queue s.values ok s.producer with
      | none => simp [semNext, hout] at h
      | some out =>
          simp only [semNext, hout] at h
          cases h
          exact ⟨ok, out, rfl, hout, rfl⟩
  | pop size =>
      apply Or.inr
      apply Or.inr
      apply Or.inl
      simp only [semNext] at h
      split at h
      · rename_i last hpc
        cases h
        exact ⟨size, last, rfl, hpc, rfl⟩
      · cases h
  | consumer ok =>
      apply Or.inr
      apply Or.inr
      apply Or.inr
      cases hout : semPopStep s.queue s.values ok s.consumer with
      | none => simp [semNext, hout] at h
      | some out =>
          simp only [semNext, hout] at h
          cases h
          exact ⟨ok, out, rfl, hout, rfl⟩

end Queue
end Notnets
