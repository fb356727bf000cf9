import Notnets.Queue.Sem

/-!
# Indices and the lock of the SEM queue

The index tests of the waiting loops run without the lock and are not repeated
after the lock is taken again.  They stay true all the same, because only the
producer fills slots and only the consumer frees them.  The lock itself is
accounted for by its value together with the calls that hold it.
-/

namespace Notnets
namespace Queue

open Foundation

/-!
# Semaphore operations
-/

theorem semWait_self {values values' : Semaphore -> Nat} {which : Semaphore}
    (h : semWait values which true = some values') :
    values' which + 1 = values which := by
  simp only [semWait, if_true] at h
  split at h
  · cases h
  · cases h
    rw [Function.update_self]
    lia

theorem semWait_other {values values' : Semaphore -> Nat}
    {which other : Semaphore} {ok : Bool} (hne : other ≠ which)
    (h : semWait values which ok = some values') :
    values' other = values other := by
  unfold semWait at h
  split at h
  · split at h
    · cases h
    · cases h
      exact Function.update_of_ne hne _ _
  · cases h
    rfl

theorem semPost_self (values : Semaphore -> Nat) (which : Semaphore) :
    semPost values which true which = values which + 1 := by
  simp [semPost]

theorem semPost_other (values : Semaphore -> Nat) {which other : Semaphore}
    (ok : Bool) (hne : other ≠ which) :
    semPost values which ok other = values other := by
  unfold semPost
  split
  · exact Function.update_of_ne hne _ _
  · rfl

theorem semPost_le (values : Semaphore -> Nat) (which other : Semaphore)
    (ok : Bool) : values other ≤ semPost values which ok other := by
  by_cases hsame : other = which
  · subst hsame
    unfold semPost
    split
    · rw [Function.update_self]
      lia
    · exact Nat.le_refl _
  · rw [semPost_other values ok hsame]

/-!
# What the program counters promise
-/

namespace SemPushPc

def HasSlot : SemPushPc -> Prop
  | .relocking _ _ | .copying _ _ _ | .counting _ _ | .counted _ _ _
  | .totaling _ _ | .publishing _ _ => True
  | _ => False

/-- The call will post `sem_empty` before it returns. -/
def owesPost : SemPushPc -> Bool
  | .testing _ wasEmpty | .releasing _ wasEmpty | .retesting _ wasEmpty
  | .waiting _ wasEmpty | .relocking _ wasEmpty | .copying _ wasEmpty _
  | .counting _ wasEmpty | .counted _ wasEmpty _ | .totaling _ wasEmpty
  | .publishing _ wasEmpty | .unlocking wasEmpty => wasEmpty
  | .posting => true
  | _ => false

/-- The call is between its `sem_wait(sem_lock)` and `sem_post(sem_lock)`. -/
def holdsLock : SemPushPc -> Bool
  | .sampling _ | .testing _ _ | .releasing _ _ | .copying _ _ _
  | .counting _ _ | .counted _ _ _ | .totaling _ _ | .publishing _ _
  | .unlocking _ => true
  | _ => false

def takesLock : SemPushPc -> Bool
  | .locking _ | .relocking _ _ => true
  | _ => false

def sleeps : SemPushPc -> Bool
  | .waiting _ _ => true
  | _ => false

end SemPushPc

namespace SemPopPc

def HasMessage : SemPopPc -> Prop
  | .relocking _ _ | .clamping _ _ | .copying _ _ _ | .advanced _ _
  | .retiring _ _ => True
  | _ => False

/-- The call will post `sem_full` before it returns. -/
def owesPost : SemPopPc -> Bool
  | .testing _ wasFull | .releasing _ wasFull | .retesting _ wasFull
  | .waiting _ wasFull | .relocking _ wasFull | .clamping _ wasFull
  | .copying _ wasFull _ | .advanced _ wasFull | .retiring _ wasFull
  | .counting _ wasFull | .counted _ wasFull _ | .resetting _ wasFull
  | .returning _ wasFull | .unlocking _ wasFull => wasFull
  | .posting _ => true
  | _ => false

/-- The call is between its `sem_wait(sem_lock)` and `sem_post(sem_lock)`. -/
def holdsLock : SemPopPc -> Bool
  | .sampling _ | .testing _ _ | .releasing _ _ | .clamping _ _
  | .copying _ _ _ | .advanced _ _ | .retiring _ _ | .counting _ _
  | .counted _ _ _ | .resetting _ _ | .returning _ _ | .unlocking _ _ => true
  | _ => false

def takesLock : SemPopPc -> Bool
  | .locking _ | .relocking _ _ => true
  | _ => false

def sleeps : SemPopPc -> Bool
  | .waiting _ _ => true
  | _ => false

end SemPopPc

/-!
# Steps that move no index

All steps but the two that store an index leave the ring as it is.  They may
post a semaphore of the other side and never take from it.
-/

structure SameIndices (a b : SpscQueueHeader) : Prop where
  head : b.head = a.head
  tail : b.tail = a.tail
  queueSize : b.queueSize = a.queueSize

theorem SameIndices.refl (a : SpscQueueHeader) : SameIndices a a :=
  ⟨rfl, rfl, rfl⟩

theorem sameIndices_setMessageOffset (q : SpscQueue) (messageOffset : Int) :
    SameIndices q.header (q.setMessageOffset messageOffset).header :=
  ⟨rfl, rfl, rfl⟩

structure QuietPush (q : SpscQueue) (values : Semaphore -> Nat) (ok : Bool)
    (pc : SemPushPc) (out : SemPushOutcome) : Prop where
  published : out.published = none
  asleep : out.pc.sleeps = true -> isFull q.header = true
  indices : SameIndices q.header out.queue.header
  slot : out.pc.HasSlot -> pc.HasSlot ∨ isFull q.header = false
  tokens : values .empty ≤ out.values .empty
  owes : ok = true -> pc.owesPost = true ->
    out.pc.owesPost = true ∨ 0 < out.values .empty

structure QuietPop (q : SpscQueue) (values : Semaphore -> Nat) (ok : Bool)
    (pc : SemPopPc) (out : SemPopOutcome) : Prop where
  retired : out.retired = false
  asleep : out.pc.sleeps = true -> isEmpty q.header = true
  indices : SameIndices q.header out.queue.header
  message : out.pc.HasMessage -> pc.HasMessage ∨ isEmpty q.header = false
  tokens : values .full ≤ out.values .full
  owes : ok = true -> pc.owesPost = true ->
    out.pc.owesPost = true ∨ 0 < out.values .full

theorem semPushStep_cases {q : SpscQueue} {values : Semaphore -> Nat}
    {ok : Bool} {pc : SemPushPc} {out : SemPushOutcome}
    (h : semPushStep q values ok pc = some out) :
    QuietPush q values ok pc out ∨
      exists buf wasEmpty, pc = .publishing buf wasEmpty ∧
        out = ⟨q.setHead (succ q.header.head q.header.queueSize), values,
          .unlocking wasEmpty, some buf⟩ := by
  have hsame := SameIndices.refl q.header
  have hempty : Semaphore.empty ≠ Semaphore.lock := by decide
  cases semPushMove_of_step h with
  | reject _ =>
      exact Or.inl ⟨rfl, nofun, hsame, False.elim, Nat.le_refl _,
        fun _ howes => nomatch howes⟩
  | enter _ =>
      exact Or.inl ⟨rfl, nofun, hsame, False.elim, Nat.le_refl _,
        fun _ howes => nomatch howes⟩
  | lock hwait =>
      exact Or.inl ⟨rfl, nofun, hsame, False.elim,
        Nat.le_of_eq (semWait_other hempty hwait).symm, fun _ howes => nomatch howes⟩
  | sample =>
      exact Or.inl ⟨rfl, nofun, hsame, False.elim, Nat.le_refl _,
        fun _ howes => nomatch howes⟩
  | full _ =>
      exact Or.inl ⟨rfl, nofun, hsame, False.elim, Nat.le_refl _, fun _ => Or.inl⟩
  | room hroom =>
      exact Or.inl ⟨rfl, nofun, hsame, fun _ => Or.inr hroom, Nat.le_refl _,
        fun _ => Or.inl⟩
  | release =>
      exact Or.inl ⟨rfl, nofun, hsame, False.elim, semPost_le _ _ _ _, fun _ => Or.inl⟩
  | stillFull hfull =>
      exact Or.inl ⟨rfl, fun _ => hfull, hsame, False.elim, Nat.le_refl _,
        fun _ => Or.inl⟩
  | nowRoom hroom =>
      exact Or.inl ⟨rfl, nofun, hsame, fun _ => Or.inr hroom, Nat.le_refl _,
        fun _ => Or.inl⟩
  | wait hwait =>
      exact Or.inl ⟨rfl, nofun, hsame, False.elim,
        Nat.le_of_eq (semWait_other (by decide) hwait).symm, fun _ => Or.inl⟩
  | relock hwait =>
      exact Or.inl ⟨rfl, nofun, hsame, fun _ => Or.inl trivial,
        Nat.le_of_eq (semWait_other hempty hwait).symm, fun _ => Or.inl⟩
  | publish => exact Or.inr ⟨_, _, rfl, rfl⟩
  | unlockFirst =>
      exact Or.inl ⟨rfl, nofun, hsame, False.elim, semPost_le _ _ _ _,
        fun _ _ => Or.inl rfl⟩
  | unlock =>
      exact Or.inl ⟨rfl, nofun, hsame, False.elim, semPost_le _ _ _ _,
        fun _ howes => nomatch howes⟩
  | post =>
      refine Or.inl ⟨rfl, nofun, hsame, False.elim, semPost_le _ _ _ _, ?_⟩
      intro hok _
      subst hok
      apply Or.inr
      show 0 < semPost values .empty true .empty
      rw [semPost_self]
      lia
  -- The steps of `enqueue` store no index and use no semaphore.
  | _ =>
      exact Or.inl ⟨rfl, nofun, ⟨rfl, rfl, rfl⟩, fun _ => Or.inl trivial, Nat.le_refl _,
        fun _ => Or.inl⟩

theorem semPopStep_cases {q : SpscQueue} {values : Semaphore -> Nat}
    {ok : Bool} {pc : SemPopPc} {out : SemPopOutcome}
    (h : semPopStep q values ok pc = some out) :
    QuietPop q values ok pc out ∨
      exists buf wasFull, pc = .retiring buf wasFull ∧
        out = ⟨q.setTail (succ q.header.tail q.header.queueSize), values,
          .counting buf wasFull, true, none⟩ := by
  have hsame := SameIndices.refl q.header
  have hfull : Semaphore.full ≠ Semaphore.lock := by decide
  cases semPopMove_of_step h with
  | stop _ =>
      exact Or.inl ⟨rfl, nofun, hsame, False.elim, Nat.le_refl _,
        fun _ howes => nomatch howes⟩
  | enter _ =>
      exact Or.inl ⟨rfl, nofun, hsame, False.elim, Nat.le_refl _,
        fun _ howes => nomatch howes⟩
  | lock hwait =>
      exact Or.inl ⟨rfl, nofun, hsame, False.elim,
        Nat.le_of_eq (semWait_other hfull hwait).symm, fun _ howes => nomatch howes⟩
  | sample =>
      exact Or.inl ⟨rfl, nofun, hsame, False.elim, Nat.le_refl _,
        fun _ howes => nomatch howes⟩
  | empty _ =>
      exact Or.inl ⟨rfl, nofun, hsame, False.elim, Nat.le_refl _, fun _ => Or.inl⟩
  | message hmessage =>
      exact Or.inl ⟨rfl, nofun, hsame, fun _ => Or.inr hmessage, Nat.le_refl _,
        fun _ => Or.inl⟩
  | release =>
      exact Or.inl ⟨rfl, nofun, hsame, False.elim, semPost_le _ _ _ _, fun _ => Or.inl⟩
  | stillEmpty hempty =>
      exact Or.inl ⟨rfl, fun _ => hempty, hsame, False.elim, Nat.le_refl _,
        fun _ => Or.inl⟩
  | nowMessage hmessage =>
      exact Or.inl ⟨rfl, nofun, hsame, fun _ => Or.inr hmessage, Nat.le_refl _,
        fun _ => Or.inl⟩
  | wait hwait =>
      exact Or.inl ⟨rfl, nofun, hsame, False.elim,
        Nat.le_of_eq (semWait_other (by decide) hwait).symm, fun _ => Or.inl⟩
  | relock hwait =>
      exact Or.inl ⟨rfl, nofun, hsame, fun _ => Or.inl trivial,
        Nat.le_of_eq (semWait_other hfull hwait).symm, fun _ => Or.inl⟩
  | clamp =>
      exact Or.inl ⟨rfl, nofun, hsame, fun _ => Or.inl trivial, Nat.le_refl _,
        fun _ => Or.inl⟩
  | copy _ =>
      exact Or.inl ⟨rfl, nofun, hsame, fun _ => Or.inl trivial, Nat.le_refl _,
        fun _ => Or.inl⟩
  | advance _ =>
      exact Or.inl ⟨rfl, nofun, sameIndices_setMessageOffset q _,
        fun _ => Or.inl trivial, Nat.le_refl _, fun _ => Or.inl⟩
  | whole _ =>
      exact Or.inl ⟨rfl, nofun, hsame, fun _ => Or.inl trivial, Nat.le_refl _,
        fun _ => Or.inl⟩
  | retire => exact Or.inr ⟨_, _, rfl, rfl⟩
  | unlockFirst =>
      exact Or.inl ⟨rfl, nofun, hsame, False.elim, semPost_le _ _ _ _,
        fun _ _ => Or.inl rfl⟩
  | unlock =>
      exact Or.inl ⟨rfl, nofun, hsame, False.elim, semPost_le _ _ _ _,
        fun _ howes => nomatch howes⟩
  | post =>
      refine Or.inl ⟨rfl, nofun, hsame, False.elim, semPost_le _ _ _ _, ?_⟩
      intro hok _
      subst hok
      apply Or.inr
      show 0 < semPost values .full true .full
      rw [semPost_self]
      lia
  -- After the message is removed, the call only counts and returns.
  | _ =>
      exact Or.inl ⟨rfl, nofun, ⟨rfl, rfl, rfl⟩, False.elim, Nat.le_refl _,
        fun _ => Or.inl⟩

/-!
# The window of live messages

The two stored indices are the numbers of messages published and retired,
modulo the number of slots.
-/

theorem succ_mod {slots : Nat} (hpos : 0 < slots) (hlt : slots < 2 ^ 31) (m : Nat) :
    succ (m % slots : Nat) slots = ((m + 1) % slots : Nat) := by
  have hmod : m % slots < slots := Nat.mod_lt m hpos
  have hsucc : toInt32 ((m % slots : Nat) + 1 : Int) = (m % slots + 1 : Nat) := by
    rw [← toInt32_natCast (n := m % slots + 1) (by lia)]
    push_cast
    rfl
  unfold succ
  rw [hsucc, Int.tmod_eq_emod_of_nonneg (by lia), ← Int.natCast_emod,
    Nat.mod_add_mod]

structure Window (slots : Nat) (header : SpscQueueHeader)
    (pushed retired : Nat) : Prop where
  slots_lt : slots < 2 ^ 31
  two_le : 2 ≤ slots
  queueSize : header.queueSize = slots
  head : header.head = (pushed % slots : Nat)
  tail : header.tail = (retired % slots : Nat)
  retired_le : retired ≤ pushed
  pushed_lt : pushed < retired + slots

namespace Window

variable {slots pushed retired : Nat} {header : SpscQueueHeader}

theorem isFull_iff (h : Window slots header pushed retired) :
    isFull header = true <-> pushed + 1 = retired + slots := by
  have hpos : 0 < slots := by
    have htwo := h.two_le
    lia
  have hlt := h.pushed_lt
  have hle := h.retired_le
  unfold isFull
  rw [decide_eq_true_iff, h.head, h.queueSize, succ_mod hpos h.slots_lt, h.tail]
  norm_cast
  constructor
  · intro hindex
    by_contra hne
    have hsame : retired = pushed + 1 :=
      eq_of_mod_eq (by lia) (by lia) hindex.symm
    lia
  · intro hlast
    rw [hlast, Nat.add_mod_right]

theorem isEmpty_iff (h : Window slots header pushed retired) :
    isEmpty header = true <-> pushed = retired := by
  have hlt := h.pushed_lt
  have hle := h.retired_le
  unfold isEmpty
  rw [decide_eq_true_iff, h.head, h.tail]
  norm_cast
  constructor
  · intro hindex
    exact (eq_of_mod_eq hle hlt hindex.symm).symm
  · intro hsame
    rw [hsame]

theorem of_same {header' : SpscQueueHeader}
    (h : Window slots header pushed retired) (hsame : SameIndices header header') :
    Window slots header' pushed retired := by
  constructor
  · exact h.slots_lt
  · exact h.two_le
  · rw [hsame.queueSize]
    exact h.queueSize
  · rw [hsame.head]
    exact h.head
  · rw [hsame.tail]
    exact h.tail
  · exact h.retired_le
  · exact h.pushed_lt

theorem publish {q : SpscQueue} (h : Window slots q.header pushed retired)
    (hfree : pushed + 1 < retired + slots) :
    Window slots (q.setHead (succ q.header.head q.header.queueSize)).header
      (pushed + 1) retired := by
  have htwo := h.two_le
  have hle := h.retired_le
  constructor
  · exact h.slots_lt
  · exact htwo
  · exact h.queueSize
  · show succ q.header.head q.header.queueSize = _
    rw [h.head, h.queueSize, succ_mod (by lia) h.slots_lt]
  · exact h.tail
  · lia
  · exact hfree

theorem retire {q : SpscQueue} (h : Window slots q.header pushed retired)
    (hlive : retired < pushed) :
    Window slots (q.setTail (succ q.header.tail q.header.queueSize)).header
      pushed (retired + 1) := by
  have htwo := h.two_le
  have hlt := h.pushed_lt
  constructor
  · exact h.slots_lt
  · exact htwo
  · exact h.queueSize
  · exact h.head
  · show succ q.header.tail q.header.queueSize = _
    rw [h.tail, h.queueSize, succ_mod (by lia) h.slots_lt]
  · exact hlive
  · lia

end Window

/-- The window, and what the calls have seen of it, whatever `semop` does. -/
structure SemIndices (slots : Nat) (s : SemState) : Prop where
  window : Window slots s.queue.header s.pushed.length s.retired
  slot : s.producer.HasSlot -> s.pushed.length + 1 < s.retired + slots
  message : s.consumer.HasMessage -> s.retired < s.pushed.length

theorem semPushStep_indices {slots : Nat} {s : SemState} {ok : Bool}
    {out : SemPushOutcome} (h : SemIndices slots s)
    (hout : semPushStep s.queue s.values ok s.producer = some out) :
    SemIndices slots (s.afterPush out) := by
  rcases semPushStep_cases hout with hquiet | ⟨buf, wasEmpty, hpc, rfl⟩
  · have hpushed : (s.afterPush out).pushed = s.pushed := by
      simp [SemState.afterPush, hquiet.published]
    constructor
    · rw [hpushed]
      exact h.window.of_same hquiet.indices
    · intro hslot
      rw [hpushed]
      rcases hquiet.slot hslot with hbefore | hfree
      · exact h.slot hbefore
      · have hlt := h.window.pushed_lt
        have hne : ¬ s.pushed.length + 1 = s.retired + slots := by
          rw [← h.window.isFull_iff, hfree]
          simp
        show s.pushed.length + 1 < s.retired + slots
        lia
    · intro hmessage
      rw [hpushed]
      exact h.message hmessage
  · have hslot : s.producer.HasSlot := by
      rw [hpc]
      trivial
    have hpushed : (s.pushed ++ [buf]).length = s.pushed.length + 1 := by simp
    constructor
    · simp only [SemState.afterPush, Option.toList_some, hpushed]
      exact h.window.publish (h.slot hslot)
    · intro hnone
      exact hnone.elim
    · intro hmessage
      have hlt := h.message hmessage
      simp only [SemState.afterPush, Option.toList_some, hpushed]
      lia

theorem semPopStep_indices {slots : Nat} {s : SemState} {ok : Bool}
    {out : SemPopOutcome} (h : SemIndices slots s)
    (hout : semPopStep s.queue s.values ok s.consumer = some out) :
    SemIndices slots (s.afterPop out) := by
  rcases semPopStep_cases hout with hquiet | ⟨buf, wasFull, hpc, rfl⟩
  · have hretired : (s.afterPop out).retired = s.retired := by
      simp [SemState.afterPop, hquiet.retired]
    constructor
    · rw [hretired]
      exact h.window.of_same hquiet.indices
    · intro hslot
      rw [hretired]
      exact h.slot hslot
    · intro hmessage
      rw [hretired]
      rcases hquiet.message hmessage with hbefore | hlive
      · exact h.message hbefore
      · have hle := h.window.retired_le
        have hne : ¬ s.pushed.length = s.retired := by
          rw [← h.window.isEmpty_iff, hlive]
          simp
        show s.retired < s.pushed.length
        lia
  · have hmessage : s.consumer.HasMessage := by
      rw [hpc]
      trivial
    constructor
    · exact h.window.retire (h.message hmessage)
    · intro hslot
      have hlt := h.slot hslot
      show s.pushed.length + 1 < s.retired + 1 + slots
      lia
    · intro hnone
      exact hnone.elim

theorem semNext_indices {slots : Nat} {s s' : SemState} {l : SemLabel}
    (hs : SemIndices slots s) (h : semNext s l = some s') :
    SemIndices slots s' := by
  rcases semNext_cases h with
    ⟨buf, ret, _, _, rfl⟩ | ⟨ok, out, _, hout, rfl⟩ | ⟨size, last, _, _, rfl⟩ |
      ⟨ok, out, _, hout, rfl⟩
  · exact ⟨hs.window, False.elim, hs.message⟩
  · exact semPushStep_indices hs hout
  · exact ⟨hs.window, hs.slot, False.elim⟩
  · exact semPopStep_indices hs hout

theorem semStart_indices {shmSize messageSize : Nat} {header : SpscQueueHeader}
    {usable : Int} (mem : ByteMemory)
    (hcreate : semQueueCreate shmSize messageSize = .ok (header, usable))
    (htwo : 2 ≤ header.queueSize) :
    SemIndices header.queueSize.toNat (semStart header mem) := by
  have hlt : header.queueSize < 2 ^ 31 := by
    rcases createHeader_ok hcreate with ⟨n, hsizes, hheader⟩
    rw [hheader]
    show n < 2 ^ 31
    unfold queueSizes at hsizes
    split at hsizes
    · cases hsizes
    · split at hsizes
      · cases hsizes
      · injection hsizes with hpair
        injection hpair with hn _
        rw [← hn]
        exact toInt32_lt _
  rcases createHeader_ok hcreate with ⟨n, _, hheader⟩
  constructor
  · constructor
    · lia
    · lia
    · show header.queueSize = (header.queueSize.toNat : Int)
      lia
    · simp [semStart, hheader]
    · simp [semStart, hheader]
    · exact Nat.le_refl _
    · simp only [semStart, List.length_nil]
      lia
  · exact False.elim
  · exact False.elim

/-!
# The lock
-/

def LockAccount (s : SemState) : Prop :=
  s.values .lock + s.producer.holdsLock.toNat + s.consumer.holdsLock.toNat = 1

structure LockStep (ok : Bool) (before after : Nat) : Prop where
  le : after ≤ before
  keeps : ok = true -> after = before

theorem LockStep.of_eq {ok : Bool} {before after : Nat} (h : after = before) :
    LockStep ok before after :=
  ⟨Nat.le_of_eq h, fun _ => h⟩

/-- A call that releases the lock gives back the token that it held. -/
theorem lockStep_post (values : Semaphore -> Nat) (ok : Bool) :
    LockStep ok (values .lock + 1) (semPost values .lock ok .lock) := by
  cases ok with
  | true => exact LockStep.of_eq (semPost_self values .lock)
  | false => exact ⟨Nat.le_succ _, nofun⟩

theorem semPushStep_lock_tokens {q : SpscQueue} {values : Semaphore -> Nat}
    {ok : Bool} {pc : SemPushPc} {out : SemPushOutcome}
    (hok : pc.takesLock = true -> ok = true)
    (h : semPushStep q values ok pc = some out) :
    LockStep ok (values .lock + pc.holdsLock.toNat)
      (out.values .lock + out.pc.holdsLock.toNat) := by
  cases semPushMove_of_step h with
  | lock hwait =>
      have htaken : ok = true := hok rfl
      subst htaken
      exact LockStep.of_eq (semWait_self hwait)
  | relock hwait =>
      have htaken : ok = true := hok rfl
      subst htaken
      exact LockStep.of_eq (semWait_self hwait)
  | wait hwait => exact LockStep.of_eq (semWait_other (by decide) hwait)
  | release => exact lockStep_post values ok
  | unlockFirst => exact lockStep_post values ok
  | unlock => exact lockStep_post values ok
  | post => exact LockStep.of_eq (semPost_other values ok (by decide))
  | _ => exact LockStep.of_eq rfl

theorem semPopStep_lock_tokens {q : SpscQueue} {values : Semaphore -> Nat}
    {ok : Bool} {pc : SemPopPc} {out : SemPopOutcome}
    (hok : pc.takesLock = true -> ok = true)
    (h : semPopStep q values ok pc = some out) :
    LockStep ok (values .lock + pc.holdsLock.toNat)
      (out.values .lock + out.pc.holdsLock.toNat) := by
  cases semPopMove_of_step h with
  | lock hwait =>
      have htaken : ok = true := hok rfl
      subst htaken
      exact LockStep.of_eq (semWait_self hwait)
  | relock hwait =>
      have htaken : ok = true := hok rfl
      subst htaken
      exact LockStep.of_eq (semWait_self hwait)
  | wait hwait => exact LockStep.of_eq (semWait_other (by decide) hwait)
  | release => exact lockStep_post values ok
  | unlockFirst => exact lockStep_post values ok
  | unlock => exact lockStep_post values ok
  | post => exact LockStep.of_eq (semPost_other values ok (by decide))
  | _ => exact LockStep.of_eq rfl

theorem semNext_lock {s s' : SemState} {l : SemLabel} (hs : LockAccount s)
    (hl : SemopsSucceed l) (h : semNext s l = some s') : LockAccount s' := by
  unfold LockAccount at hs
  rcases semNext_cases h with
    ⟨buf, ret, _, hpc, rfl⟩ | ⟨ok, out, rfl, hout, rfl⟩ |
      ⟨size, last, _, hpc, rfl⟩ | ⟨ok, out, rfl, hout, rfl⟩
  · rw [hpc] at hs
    exact hs
  · cases hl
    have hlock := (semPushStep_lock_tokens (fun _ => rfl) hout).keeps rfl
    show out.values .lock + out.pc.holdsLock.toNat + s.consumer.holdsLock.toNat = 1
    lia
  · rw [hpc] at hs
    exact hs
  · cases hl
    have hlock := (semPopStep_lock_tokens (fun _ => rfl) hout).keeps rfl
    show out.values .lock + s.producer.holdsLock.toNat + out.pc.holdsLock.toNat = 1
    lia

theorem semStart_lock (header : SpscQueueHeader) (mem : ByteMemory) :
    LockAccount (semStart header mem) :=
  rfl

end Queue
end Notnets
