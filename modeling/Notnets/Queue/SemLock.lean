import Notnets.Queue.SemInvariant

/-!
# The lock under interrupted semaphore calls

A `sem_wait` that is interrupted returns like one that took the lock.  As long as
no wait for the lock is interrupted, every other failing call can only lose
tokens, and at most one call is inside the ring.
-/

namespace Notnets
namespace Queue

open Foundation

def SemPushPc.inEnqueue : SemPushPc -> Bool
  | .copying _ _ _ | .counting _ _ | .counted _ _ _ | .totaling _ _
  | .publishing _ _ => true
  | _ => false

def SemPopPc.inDequeue : SemPopPc -> Bool
  | .clamping _ _ | .copying _ _ _ | .advanced _ _ | .retiring _ _ | .counting _ _
  | .counted _ _ _ | .resetting _ _ | .returning _ _ => true
  | _ => false

/-- The lock is one token at most, and who is inside the ring holds it. -/
structure LockSafe (s : SemState) : Prop where
  value : s.values .lock ≤ 1
  exclusive : ¬ (s.producer.inEnqueue = true ∧ s.consumer.inDequeue = true)
  producer : s.producer.inEnqueue = true ->
    s.producer.holdsLock = true ∧ s.values .lock = 0
  consumer : s.consumer.inDequeue = true ->
    s.consumer.holdsLock = true ∧ s.values .lock = 0

/-- A call that comes to hold the lock takes a token for it. -/
structure TakesToken (s s' : SemState) : Prop where
  producer : s.producer.holdsLock = false -> s'.producer.holdsLock = true ->
    s'.values .lock + 1 = s.values .lock
  consumer : s.consumer.holdsLock = false -> s'.consumer.holdsLock = true ->
    s'.values .lock + 1 = s.values .lock

/-- No wait for the lock is interrupted; any other `semop` may fail. -/
def LockWaitsSucceed (s : SemState) : SemLabel -> Prop
  | .producer ok => s.producer.takesLock = true -> ok = true
  | .consumer ok => s.consumer.takesLock = true -> ok = true
  | _ => True

instance (s : SemState) (l : SemLabel) : Decidable (LockWaitsSucceed s l) :=
  match l with
  | .push _ => .isTrue trivial
  | .producer ok => inferInstanceAs (Decidable (s.producer.takesLock = true -> ok = true))
  | .pop _ => .isTrue trivial
  | .consumer ok => inferInstanceAs (Decidable (s.consumer.takesLock = true -> ok = true))

def LockBound (s : SemState) : Prop :=
  s.values .lock + s.producer.holdsLock.toNat + s.consumer.holdsLock.toNat ≤ 1

section Step

variable {s s' : SemState} {l : SemLabel}

theorem semNext_lockBound (hs : LockBound s) (hl : LockWaitsSucceed s l)
    (h : semNext s l = some s') : LockBound s' := by
  unfold LockBound at hs
  rcases semNext_cases h with
    ⟨buf, ret, _, hpc, rfl⟩ | ⟨ok, out, rfl, hout, rfl⟩ |
      ⟨size, last, _, hpc, rfl⟩ | ⟨ok, out, rfl, hout, rfl⟩
  · rw [hpc] at hs
    exact hs
  · have hlock := (semPushStep_lock_tokens hl hout).le
    show out.values .lock + out.pc.holdsLock.toNat + s.consumer.holdsLock.toNat ≤ 1
    lia
  · rw [hpc] at hs
    exact hs
  · have hlock := (semPopStep_lock_tokens hl hout).le
    show out.values .lock + s.producer.holdsLock.toNat + out.pc.holdsLock.toNat ≤ 1
    lia

theorem SemPushPc.holdsLock_of_inEnqueue {pc : SemPushPc} (h : pc.inEnqueue = true) :
    pc.holdsLock = true := by
  cases pc with
  | copying buf wasEmpty copied | counting buf wasEmpty
  | counted buf wasEmpty currentCount | totaling buf wasEmpty
  | publishing buf wasEmpty => rfl
  | idle ret | entered buf | locking buf | sampling buf | testing buf wasEmpty
  | releasing buf wasEmpty | retesting buf wasEmpty | waiting buf wasEmpty
  | relocking buf wasEmpty | unlocking wasEmpty | posting => cases h

theorem SemPopPc.holdsLock_of_inDequeue {pc : SemPopPc} (h : pc.inDequeue = true) :
    pc.holdsLock = true := by
  cases pc with
  | clamping size wasFull | copying size wasFull buf | advanced buf wasFull
  | retiring buf wasFull | counting buf wasFull | counted buf wasFull currentCount
  | resetting buf wasFull | returning buf wasFull => rfl
  | idle last | entered size | locking size | sampling size | testing size wasFull
  | releasing size wasFull | retesting size wasFull | waiting size wasFull
  | relocking size wasFull | unlocking receipt wasFull | posting receipt => cases h

theorem lockSafe_of_lockBound (hs : LockBound s) : LockSafe s := by
  unfold LockBound at hs
  refine ⟨by lia, ?_, ?_, ?_⟩
  · intro hboth
    rcases hboth with ⟨hproducer, hconsumer⟩
    rw [SemPushPc.holdsLock_of_inEnqueue hproducer,
      SemPopPc.holdsLock_of_inDequeue hconsumer] at hs
    simp at hs
  · intro hproducer
    have hholds := SemPushPc.holdsLock_of_inEnqueue hproducer
    rw [hholds, Bool.toNat_true] at hs
    exact ⟨hholds, by lia⟩
  · intro hconsumer
    have hholds := SemPopPc.holdsLock_of_inDequeue hconsumer
    rw [hholds, Bool.toNat_true] at hs
    exact ⟨hholds, by lia⟩

theorem semPushStep_takes {q : SpscQueue} {values : Semaphore -> Nat} {ok : Bool}
    {pc : SemPushPc} {out : SemPushOutcome} (hfree : pc.holdsLock = false)
    (hout : semPushStep q values ok pc = some out) (hholds : out.pc.holdsLock = true) :
    pc.takesLock = true := by
  cases semPushMove_of_step hout with
  | lock _ | relock _ => rfl
  | reject _ | enter _ | stillFull _ | nowRoom _ | wait _ | post => cases hholds
  | _ => cases hfree

theorem semPopStep_takes {q : SpscQueue} {values : Semaphore -> Nat} {ok : Bool}
    {pc : SemPopPc} {out : SemPopOutcome} (hfree : pc.holdsLock = false)
    (hout : semPopStep q values ok pc = some out) (hholds : out.pc.holdsLock = true) :
    pc.takesLock = true := by
  cases semPopMove_of_step hout with
  | lock _ | relock _ => rfl
  | stop _ | enter _ | stillEmpty _ | nowMessage _ | wait _ | post => cases hholds
  | _ => cases hfree

theorem semNext_takesToken (hl : LockWaitsSucceed s l) (h : semNext s l = some s') :
    TakesToken s s' := by
  rcases semNext_cases h with
    ⟨buf, ret, _, hpc, rfl⟩ | ⟨ok, out, rfl, hout, rfl⟩ |
      ⟨size, last, _, hpc, rfl⟩ | ⟨ok, out, rfl, hout, rfl⟩
  · refine ⟨nofun, ?_⟩
    intro hfree hholds
    rw [hfree] at hholds
    cases hholds
  · refine ⟨?_, ?_⟩
    · intro hfree hholds
      have htaken := hl (semPushStep_takes hfree hout hholds)
      have hlock := (semPushStep_lock_tokens hl hout).keeps htaken
      have hholds' : out.pc.holdsLock = true := hholds
      rw [hfree, hholds'] at hlock
      exact hlock
    · intro hfree hholds
      have hsame : s.consumer.holdsLock = true := hholds
      rw [hfree] at hsame
      cases hsame
  · refine ⟨?_, nofun⟩
    intro hfree hholds
    rw [hfree] at hholds
    cases hholds
  · refine ⟨?_, ?_⟩
    · intro hfree hholds
      have hsame : s.producer.holdsLock = true := hholds
      rw [hfree] at hsame
      cases hsame
    · intro hfree hholds
      have htaken := hl (semPopStep_takes hfree hout hholds)
      have hlock := (semPopStep_lock_tokens hl hout).keeps htaken
      have hholds' : out.pc.holdsLock = true := hholds
      rw [hfree, hholds'] at hlock
      exact hlock

end Step

/-!
# Every run
-/

/-- As long as no wait for the lock is interrupted, the lock is safe in every state,
and a call that comes to hold it has taken its token. -/
theorem sem_lock_safe {header : SpscQueueHeader} {s : SemState}
    (hs : (semSystem header).ReachableUnder LockWaitsSucceed s) :
    LockSafe s ∧ forall l s', LockWaitsSucceed s l -> semNext s l = some s' ->
      TakesToken s s' := by
  have hbound : LockBound s := by
    refine TransitionSystem.reachableUnder_invariant ?_ ?_ hs
    · intro start hboth
      rcases hboth with ⟨mem, rfl⟩
      exact le_rfl
    · intro t l t' ht hl hnext
      exact semNext_lockBound ht hl hnext
  exact ⟨lockSafe_of_lockBound hbound, fun l s' hl h => semNext_takesToken hl h⟩

def threeSlotSemHeader : SpscQueueHeader :=
  ⟨0, 0, 1, 0, 3, 0, 0, false, false⟩

def lostTokenLabels : List SemLabel :=
  .push [1] :: List.replicate 10 (.producer true) ++ [.producer false]

theorem sem_lock_safe_lostToken :
    exists s, s.values .lock = 0 ∧ s.producer.holdsLock = false ∧ LockSafe s := by
  let start := semStart threeSlotSemHeader (fun _ => 0)
  have hsome : (((semSystem threeSlotSemHeader).executeChecked
      (fun s l => decide (LockWaitsSucceed s l)) start lostTokenLabels).map
        fun s => (s.values .lock, s.producer.holdsLock)) = some (0, false) := by
    decide +kernel
  rcases Option.map_eq_some_iff.mp hsome with ⟨s, hexec, hpair⟩
  have hs : (semSystem threeSlotSemHeader).ReachableUnder LockWaitsSucceed s :=
    TransitionSystem.reachableUnder_of_executeChecked
      (fun _ _ h => of_decide_eq_true h) ⟨_, rfl⟩ hexec
  exact ⟨s, congrArg Prod.fst hpair, congrArg Prod.snd hpair, (sem_lock_safe hs).left⟩

/-- A whole send, a second one up to its copy, and a receive whose wait for the lock
is interrupted. -/
def interruptedLabels : List SemLabel :=
  .push [1] :: List.replicate 12 (.producer true) ++
    .push [2] :: List.replicate 4 (.producer true) ++
      [.pop 1, .consumer true, .consumer false, .consumer true, .consumer true]

/-- After an interrupted wait both calls are inside the ring. -/
theorem interrupted_wait_enters :
    ¬ forall (shmSize messageSize : Nat) (header : SpscQueueHeader) (usable : Int)
      (s : SemState), semQueueCreate shmSize messageSize = .ok (header, usable) ->
      (semSystem header).Reachable s -> LockSafe s := by
  intro hclaim
  let start := semStart threeSlotSemHeader (fun _ => 0)
  have hsome : (((semSystem threeSlotSemHeader).execute start interruptedLabels).map
      fun s => (s.producer.inEnqueue, s.consumer.inDequeue)) = some (true, true) := by
    decide +kernel
  rcases Option.map_eq_some_iff.mp hsome with ⟨s, hexec, hpair⟩
  have hcreate : semQueueCreate 51 1 = .ok (threeSlotSemHeader, 51) := by decide
  have hs : (semSystem threeSlotSemHeader).Reachable s :=
    TransitionSystem.reachableUnder_of_execute ⟨_, rfl⟩ hexec (fun _ _ => trivial)
  exact (hclaim 51 1 threeSlotSemHeader 51 s hcreate hs).exclusive
    ⟨congrArg Prod.fst hpair, congrArg Prod.snd hpair⟩

end Queue
end Notnets
