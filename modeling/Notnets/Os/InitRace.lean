import Notnets.Foundation.RoundRobin

/-!
# Several callers of `_initsem`

The first caller makes the set and frees its semaphores one by one.  The others wait
until `sem_otime` is set, which the first `semop` does already.
-/

namespace Notnets
namespace Os

open Foundation

/-!
# The state
-/

def maxRetries : Nat := 10

structure InitSet where
  /-- How often `_initsem` has freed each semaphore. -/
  freed : Nat -> Nat
  /-- Whether `sem_otime` is set. -/
  otime : Bool

inductive InitPc where
  /-- About to call `semget` with `IPC_CREAT | IPC_EXCL`. -/
  | entered
  /-- After `EEXIST`, about to get the identifier. -/
  | opening
  /-- In the loop that frees the semaphores. -/
  | freeing (semid semNum : Nat)
  /-- A `semop` has failed, and the set is to be removed. -/
  | removing (semid : Nat)
  /-- In the loop that waits for `sem_otime`; whether `buf` was ever filled. -/
  | polling (semid i : Nat) (filled : Bool)
  /-- The identifier that was returned, or -1, here `none`. -/
  | returned (semid : Option Nat)
deriving DecidableEq, Repr

structure InitState where
  /-- The set under the key. -/
  current : Option Nat
  sets : Nat -> Option InitSet
  next : Nat
  callers : Nat -> InitPc

inductive InitLabel where
  /-- The next step of a caller. -/
  | call (t : Nat)
  /-- The next `semget` or `semop` of a caller fails. -/
  | fail (t : Nat)
  /-- `IPC_STAT` fails, and `buf`, which was never filled, holds this. -/
  | garbage (t : Nat) (ready : Bool)
  /-- Another process removes the set. -/
  | remove
deriving DecidableEq, Repr

/-!
# The steps
-/

namespace InitState

variable (s : InitState)

def setCaller (t : Nat) (pc : InitPc) : InitState :=
  { s with callers := Function.update s.callers t pc }

/-- `semget` makes a set whose semaphores are all zero, and none without semaphores. -/
def create : InitState :=
  { s with
    current := some s.next
    sets := Function.update s.sets s.next (some ⟨fun _ => 0, false⟩)
    next := s.next + 1 }

/-- `semop` with 1. -/
def free (semid semNum : Nat) (set : InitSet) : InitState :=
  { s with
    sets := Function.update s.sets semid
      (some ⟨Function.update set.freed semNum (set.freed semNum + 1), true⟩) }

/-- `semctl` with `IPC_RMID`. -/
def removeSet (semid : Nat) : InitState :=
  { s with
    current := if s.current = some semid then none else s.current
    sets := Function.update s.sets semid none }

end InitState

def initsemCall (nsems : Nat) (s : InitState) (t : Nat) : Option InitState :=
  match s.callers t with
  | .entered =>
      match s.current with
      | none =>
          if nsems = 0 then some (s.setCaller t (.returned none))
          else some (s.create.setCaller t (.freeing s.next 0))
      | some _ => some (s.setCaller t .opening)
  | .opening =>
      match s.current with
      | some semid => some (s.setCaller t (.polling semid 0 false))
      | none => some (s.setCaller t (.returned none))
  | .freeing semid semNum =>
      if semNum < nsems then
        match s.sets semid with
        | some set =>
            some ((s.free semid semNum set).setCaller t (.freeing semid (semNum + 1)))
        | none => some (s.setCaller t (.removing semid))
      else
        some (s.setCaller t (.returned (some semid)))
  | .removing semid => some ((s.removeSet semid).setCaller t (.returned none))
  | .polling semid i filled =>
      if i < maxRetries then
        match s.sets semid with
        | some set =>
            if set.otime then some (s.setCaller t (.returned (some semid)))
            else some (s.setCaller t (.polling semid (i + 1) true))
        -- The call fails and leaves the buffer, which holds zero if it was filled.
        | none => if filled then some (s.setCaller t (.polling semid (i + 1) true)) else none
      else
        some (s.setCaller t (.returned none))
  | .returned _ => none

def initsemNext (nsems : Nat) (s : InitState) : InitLabel -> Option InitState
  | .call t => initsemCall nsems s t
  | .fail t =>
      match s.callers t with
      | .entered | .opening => some (s.setCaller t (.returned none))
      | .freeing semid semNum =>
          if semNum < nsems then some (s.setCaller t (.removing semid)) else none
      | _ => none
  | .garbage t ready =>
      match s.callers t with
      | .polling semid i false =>
          if i < maxRetries ∧ (s.sets semid).isNone then
            if ready then some (s.setCaller t (.returned (some semid)))
            else some (s.setCaller t (.polling semid (i + 1) true))
          else
            none
      | _ => none
  | .remove => s.current.map s.removeSet

/-- No set is under the key yet. -/
def initStart : InitState where
  current := none
  sets := fun _ => none
  next := 0
  callers := fun _ => .entered

def initsemSystem (nsems : Nat) : TransitionSystem InitState InitLabel where
  Initial s := s = initStart
  next := initsemNext nsems

/-!
# What a call can do
-/

def InitLabel.caller : InitLabel -> Option Nat
  | .call t | .fail t | .garbage t _ => some t
  | .remove => none

inductive InitMove (nsems : Nat) (s : InitState) (t : Nat) : InitState -> InitPc -> Prop where
  | creates (ht : s.callers t = .entered) (hcurrent : s.current = none) :
      InitMove nsems s t s.create (.freeing s.next 0)
  | finds (ht : s.callers t = .entered) : InitMove nsems s t s .opening
  | refused (ht : s.callers t = .entered ∨ s.callers t = .opening) :
      InitMove nsems s t s (.returned none)
  | opens {semid : Nat} (ht : s.callers t = .opening) (hcurrent : s.current = some semid) :
      InitMove nsems s t s (.polling semid 0 false)
  | frees {semid semNum : Nat} {set : InitSet} (ht : s.callers t = .freeing semid semNum)
      (hmore : semNum < nsems) (hset : s.sets semid = some set) :
      InitMove nsems s t (s.free semid semNum set) (.freeing semid (semNum + 1))
  | fails {semid semNum : Nat} (ht : s.callers t = .freeing semid semNum) :
      InitMove nsems s t s (.removing semid)
  | whole {semid semNum : Nat} (ht : s.callers t = .freeing semid semNum)
      (hall : nsems ≤ semNum) : InitMove nsems s t s (.returned (some semid))
  | removes {semid : Nat} (ht : s.callers t = .removing semid) :
      InitMove nsems s t (s.removeSet semid) (.returned none)
  | ready {semid i : Nat} {filled : Bool} (ht : s.callers t = .polling semid i filled)
      (hready : forall set, s.sets semid = some set -> set.otime = true) :
      InitMove nsems s t s (.returned (some semid))
  | waits {semid i : Nat} {filled : Bool} (ht : s.callers t = .polling semid i filled)
      (hi : i < maxRetries) : InitMove nsems s t s (.polling semid (i + 1) true)
  | expires {semid i : Nat} {filled : Bool} (ht : s.callers t = .polling semid i filled) :
      InitMove nsems s t s (.returned none)

theorem initsemCall_moves {nsems t : Nat} {s s' : InitState}
    (h : initsemCall nsems s t = some s') :
    exists mid pc, InitMove nsems s t mid pc ∧ s' = mid.setCaller t pc := by
  unfold initsemCall at h
  split at h
  · rename_i ht
    split at h
    · rename_i hcurrent
      split at h
      · exact ⟨_, _, .refused (Or.inl ht), (Option.some.inj h).symm⟩
      · exact ⟨_, _, .creates ht hcurrent, (Option.some.inj h).symm⟩
    · exact ⟨_, _, .finds ht, (Option.some.inj h).symm⟩
  · rename_i ht
    split at h
    · rename_i hcurrent
      exact ⟨_, _, .opens ht hcurrent, (Option.some.inj h).symm⟩
    · exact ⟨_, _, .refused (Or.inr ht), (Option.some.inj h).symm⟩
  · rename_i ht
    split at h
    · rename_i hmore
      split at h
      · rename_i hset
        exact ⟨_, _, .frees ht hmore hset, (Option.some.inj h).symm⟩
      · exact ⟨_, _, .fails ht, (Option.some.inj h).symm⟩
    · rename_i hall
      exact ⟨_, _, .whole ht (Nat.le_of_not_lt hall), (Option.some.inj h).symm⟩
  · rename_i ht
    exact ⟨_, _, .removes ht, (Option.some.inj h).symm⟩
  · rename_i ht
    split at h
    · rename_i hi
      split at h
      · rename_i set hset
        split at h
        · rename_i hotime
          refine ⟨_, _, .ready ht ?_, (Option.some.inj h).symm⟩
          intro set' hset'
          rw [hset] at hset'
          injection hset' with hset'
          rw [← hset']
          exact hotime
        · exact ⟨_, _, .waits ht hi, (Option.some.inj h).symm⟩
      · split at h
        · exact ⟨_, _, .waits ht hi, (Option.some.inj h).symm⟩
        · cases h
    · exact ⟨_, _, .expires ht, (Option.some.inj h).symm⟩
  · cases h

theorem initsemNext_moves {nsems : Nat} {s s' : InitState} {l : InitLabel}
    (h : initsemNext nsems s l = some s') :
    (exists t mid pc, l.caller = some t ∧ InitMove nsems s t mid pc ∧
      s' = mid.setCaller t pc) ∨
    (l.caller = none ∧ exists semid, s' = s.removeSet semid) := by
  cases l with
  | call t =>
      rcases initsemCall_moves h with ⟨mid, pc, hmove, hs'⟩
      exact Or.inl ⟨t, mid, pc, rfl, hmove, hs'⟩
  | fail t =>
      left
      unfold initsemNext at h
      dsimp only at h
      split at h
      · rename_i ht
        exact ⟨t, _, _, rfl, .refused (Or.inl ht), (Option.some.inj h).symm⟩
      · rename_i ht
        exact ⟨t, _, _, rfl, .refused (Or.inr ht), (Option.some.inj h).symm⟩
      · rename_i ht
        split at h
        · exact ⟨t, _, _, rfl, .fails ht, (Option.some.inj h).symm⟩
        · cases h
      · cases h
  | garbage t ready =>
      left
      unfold initsemNext at h
      dsimp only at h
      split at h
      · rename_i semid i ht
        split at h
        · rename_i hgone
          split at h
          · refine ⟨t, _, _, rfl, .ready ht ?_, (Option.some.inj h).symm⟩
            intro set hset
            rw [hset] at hgone
            exact absurd hgone.right Bool.false_ne_true
          · exact ⟨t, _, _, rfl, .waits ht hgone.left, (Option.some.inj h).symm⟩
        · cases h
      · cases h
  | remove =>
      rcases Option.map_eq_some_iff.mp h with ⟨semid, _, hs'⟩
      exact Or.inr ⟨rfl, semid, hs'.symm⟩

theorem initMove_callers {nsems t : Nat} {s mid : InitState} {pc : InitPc}
    (h : InitMove nsems s t mid pc) : mid.callers = s.callers := by
  cases h <;> rfl

/-!
# The invariant
-/

/-- The identifier that a caller holds. -/
def InitPc.semid : InitPc -> Option Nat
  | .freeing semid _ | .removing semid | .polling semid _ _ => some semid
  | .returned semid => semid
  | .entered | .opening => none

def FreedOnce (k : Nat) (set : InitSet) : Prop :=
  forall i, set.freed i = if i < k then 1 else 0

structure InitInvariant (nsems : Nat) (s : InitState) : Prop where
  fresh : forall semid, s.next ≤ semid -> s.sets semid = none
  current : forall semid, s.current = some semid -> semid < s.next
  named : forall t semid, (s.callers t).semid = some semid -> semid < s.next
  one : forall t t' semid i j, s.callers t = .freeing semid i ->
    s.callers t' = .freeing semid j -> t = t'
  freeing : forall t semid k, s.callers t = .freeing semid k -> k ≤ nsems ∧
    forall set, s.sets semid = some set -> FreedOnce k set
  set : forall semid set, s.sets semid = some set ->
    exists k, k ≤ nsems ∧ FreedOnce k set ∧ (set.otime = true <-> 0 < k)
  returned : forall t semid, s.callers t = .returned (some semid) ->
    forall set, s.sets semid = some set -> 0 < nsems -> set.otime = true

theorem initInvariant_start (nsems : Nat) : InitInvariant nsems initStart where
  fresh := fun _ _ => rfl
  current := fun _ h => by cases h
  named := fun _ _ h => by cases h
  one := fun _ _ _ _ _ h => by cases h
  freeing := fun _ _ _ h => by cases h
  set := fun _ _ h => by cases h
  returned := fun _ _ h => by cases h

section Steps

variable {nsems t semid k : Nat} {s s' : InitState}

theorem FreedOnce.succ {set : InitSet} (h : FreedOnce k set) :
    FreedOnce (k + 1) ⟨Function.update set.freed k (set.freed k + 1), true⟩ := by
  intro i
  show Function.update set.freed k (set.freed k + 1) i = _
  cases Decidable.em (i = k) with
  | inl heq =>
      have hk := h k
      rw [if_neg (Nat.lt_irrefl k)] at hk
      rw [heq, Function.update_self, hk, if_pos (Nat.lt_succ_self k)]
  | inr hne =>
      rw [Function.update_of_ne hne, h i]
      split
      · rw [if_pos (by lia)]
      · rw [if_neg (by lia)]

theorem InitInvariant.moved (h : InitInvariant nsems s) (t : Nat) (pc : InitPc)
    (hnamed : forall semid, pc.semid = some semid -> semid < s.next)
    (hfreeing : forall semid k, pc ≠ .freeing semid k)
    (hreturned : forall semid, pc = .returned (some semid) ->
      forall set, s.sets semid = some set -> 0 < nsems -> set.otime = true) :
    InitInvariant nsems (s.setCaller t pc) := by
  have hself : (s.setCaller t pc).callers t = pc := Function.update_self _ _ _
  have hother : forall u, u ≠ t -> (s.setCaller t pc).callers u = s.callers u :=
    fun u hu => Function.update_of_ne hu _ _
  have hold : forall u semid k, (s.setCaller t pc).callers u = .freeing semid k ->
      s.callers u = .freeing semid k := by
    intro u semid k hu
    cases Decidable.em (u = t) with
    | inl heq =>
        rw [heq, hself] at hu
        exact absurd hu (hfreeing semid k)
    | inr hne => exact (hother u hne).symm.trans hu
  constructor
  · exact h.fresh
  · exact h.current
  · intro u semid hu
    cases Decidable.em (u = t) with
    | inl heq =>
        rw [heq, hself] at hu
        exact hnamed semid hu
    | inr hne =>
        rw [hother u hne] at hu
        exact h.named u semid hu
  · exact fun u u' semid i j hu hu' => h.one u u' semid i j (hold u _ _ hu) (hold u' _ _ hu')
  · exact fun u semid k hu => h.freeing u semid k (hold u _ _ hu)
  · exact h.set
  · intro u semid hu
    cases Decidable.em (u = t) with
    | inl heq =>
        rw [heq, hself] at hu
        exact hreturned semid hu
    | inr hne =>
        rw [hother u hne] at hu
        exact h.returned u semid hu

theorem InitInvariant.created (h : InitInvariant nsems s) (t : Nat) :
    InitInvariant nsems (s.create.setCaller t (.freeing s.next 0)) := by
  have hself : (s.create.setCaller t (.freeing s.next 0)).callers t = .freeing s.next 0 :=
    Function.update_self _ _ _
  have hother : forall u, u ≠ t ->
      (s.create.setCaller t (.freeing s.next 0)).callers u = s.callers u :=
    fun u hu => Function.update_of_ne hu _ _
  have hnew : s.create.sets s.next = some ⟨fun _ => 0, false⟩ := Function.update_self _ _ _
  have hsame : forall semid, semid ≠ s.next -> s.create.sets semid = s.sets semid :=
    fun semid hne => Function.update_of_ne hne _ _
  have hzero : FreedOnce 0 ⟨fun _ => 0, false⟩ := fun _ => rfl
  have hapart : forall u semid, (s.callers u).semid = some semid -> semid ≠ s.next :=
    fun u semid hu => Nat.ne_of_lt (h.named u semid hu)
  constructor
  · intro semid hnext
    have hnext : s.next + 1 ≤ semid := hnext
    exact (hsame semid (by lia)).trans (h.fresh semid (by lia))
  · intro semid hcurrent
    have hcurrent : some s.next = some semid := hcurrent
    injection hcurrent with hcurrent
    rw [← hcurrent]
    exact Nat.lt_succ_self _
  · intro u semid hu
    cases Decidable.em (u = t) with
    | inl heq =>
        rw [heq, hself] at hu
        injection hu with hu
        rw [← hu]
        exact Nat.lt_succ_self _
    | inr hne =>
        rw [hother u hne] at hu
        exact Nat.lt_succ_of_lt (h.named u semid hu)
  · intro u u' semid i j hu hu'
    cases Decidable.em (u = t) with
    | inl heq =>
        cases Decidable.em (u' = t) with
        | inl heq' => rw [heq, heq']
        | inr hne' =>
            rw [heq, hself] at hu
            rw [hother u' hne'] at hu'
            injection hu with hu _
            exact absurd hu.symm (hapart u' semid (by rw [hu']; rfl))
    | inr hne =>
        rw [hother u hne] at hu
        cases Decidable.em (u' = t) with
        | inl heq' =>
            rw [heq', hself] at hu'
            injection hu' with hu' _
            exact absurd hu'.symm (hapart u semid (by rw [hu]; rfl))
        | inr hne' =>
            rw [hother u' hne'] at hu'
            exact h.one u u' semid i j hu hu'
  · intro u semid k hu
    cases Decidable.em (u = t) with
    | inl heq =>
        rw [heq, hself] at hu
        injection hu with hid hk
        rw [← hid, ← hk]
        refine ⟨Nat.zero_le _, ?_⟩
        intro set hset
        have hset : s.create.sets s.next = some set := hset
        rw [hnew] at hset
        injection hset with hset
        rw [← hset]
        exact hzero
    | inr hne =>
        rw [hother u hne] at hu
        rcases h.freeing u semid k hu with ⟨hle, hall⟩
        refine ⟨hle, ?_⟩
        intro set hset
        exact hall set ((hsame semid (hapart u semid (by rw [hu]; rfl))).symm.trans hset)
  · intro semid set hset
    cases Decidable.em (semid = s.next) with
    | inl heq =>
        have hset : s.create.sets semid = some set := hset
        rw [heq, hnew] at hset
        injection hset with hset
        rw [← hset]
        exact ⟨0, Nat.zero_le _, hzero, ⟨nofun, nofun⟩⟩
    | inr hne => exact h.set semid set ((hsame semid hne).symm.trans hset)
  · intro u semid hu set hset
    cases Decidable.em (u = t) with
    | inl heq =>
        rw [heq, hself] at hu
        cases hu
    | inr hne =>
        rw [hother u hne] at hu
        exact h.returned u semid hu set
          ((hsame semid (hapart u semid (by rw [hu]; rfl))).symm.trans hset)

/-- Only the caller that made the set frees its semaphores, each once. -/
theorem InitInvariant.freed (h : InitInvariant nsems s) {set : InitSet}
    (ht : s.callers t = .freeing semid k) (hk : k < nsems) (hset : s.sets semid = some set) :
    InitInvariant nsems ((s.free semid k set).setCaller t (.freeing semid (k + 1))) := by
  have hself : ((s.free semid k set).setCaller t (.freeing semid (k + 1))).callers t =
      .freeing semid (k + 1) := Function.update_self _ _ _
  have hother : forall u, u ≠ t ->
      ((s.free semid k set).setCaller t (.freeing semid (k + 1))).callers u = s.callers u :=
    fun u hu => Function.update_of_ne hu _ _
  have hnew : (s.free semid k set).sets semid =
      some ⟨Function.update set.freed k (set.freed k + 1), true⟩ := Function.update_self _ _ _
  have hsame : forall id, id ≠ semid -> (s.free semid k set).sets id = s.sets id :=
    fun id hne => Function.update_of_ne hne _ _
  have honce := ((h.freeing t semid k ht).right set hset).succ
  have hnamed : semid < s.next := h.named t semid (by rw [ht]; rfl)
  constructor
  · intro id hid
    have hid : s.next ≤ id := hid
    exact (hsame id (by lia)).trans (h.fresh id hid)
  · exact h.current
  · intro u id hu
    cases Decidable.em (u = t) with
    | inl heq =>
        rw [heq, hself] at hu
        injection hu with hu
        rw [← hu]
        exact hnamed
    | inr hne =>
        rw [hother u hne] at hu
        exact h.named u id hu
  · intro u u' id i j hu hu'
    have hold : forall v i, ((s.free semid k set).setCaller t
        (.freeing semid (k + 1))).callers v = .freeing id i ->
          exists i, s.callers v = .freeing id i := by
      intro v i hv
      cases Decidable.em (v = t) with
      | inl heq =>
          rw [heq, hself] at hv
          injection hv with hid _
          rw [heq, ← hid]
          exact ⟨k, ht⟩
      | inr hne => exact ⟨i, (hother v hne).symm.trans hv⟩
    rcases hold u i hu with ⟨i', hi⟩
    rcases hold u' j hu' with ⟨j', hj⟩
    exact h.one u u' id i' j' hi hj
  · intro u id i hu
    cases Decidable.em (u = t) with
    | inl heq =>
        rw [heq, hself] at hu
        injection hu with hid hi
        rw [← hid, ← hi]
        refine ⟨hk, ?_⟩
        intro set' hset'
        have hset' : (s.free semid k set).sets semid = some set' := hset'
        rw [hnew] at hset'
        injection hset' with hset'
        rw [← hset']
        exact honce
    | inr hne =>
        rw [hother u hne] at hu
        have hid : id ≠ semid := by
          intro heq
          rw [heq] at hu
          exact hne (h.one u t semid i k hu ht)
        rcases h.freeing u id i hu with ⟨hle, hall⟩
        exact ⟨hle, fun set' hset' => hall set' ((hsame id hid).symm.trans hset')⟩
  · intro id set' hset'
    have hset' : (s.free semid k set).sets id = some set' := hset'
    cases Decidable.em (id = semid) with
    | inl heq =>
        rw [heq, hnew] at hset'
        injection hset' with hset'
        rw [← hset']
        exact ⟨k + 1, hk, honce, fun _ => Nat.succ_pos k, fun _ => rfl⟩
    | inr hne => exact h.set id set' ((hsame id hne).symm.trans hset')
  · intro u id hu set' hset' hpos
    have hset' : (s.free semid k set).sets id = some set' := hset'
    cases Decidable.em (u = t) with
    | inl heq =>
        rw [heq, hself] at hu
        cases hu
    | inr hne =>
        rw [hother u hne] at hu
        cases Decidable.em (id = semid) with
        | inl heq =>
            rw [heq, hnew] at hset'
            injection hset' with hset'
            rw [← hset']
        | inr hid => exact h.returned u id hu set' ((hsame id hid).symm.trans hset') hpos

theorem InitInvariant.removed (h : InitInvariant nsems s) (semid : Nat) :
    InitInvariant nsems (s.removeSet semid) := by
  have hold : forall id set, (s.removeSet semid).sets id = some set ->
      s.sets id = some set := by
    intro id set hset
    cases Decidable.em (id = semid) with
    | inl heq =>
        have hset : Function.update s.sets semid none id = some set := hset
        rw [heq, Function.update_self] at hset
        cases hset
    | inr hne => exact (Function.update_of_ne hne _ _).symm.trans hset
  constructor
  · intro id hid
    cases hset : (s.removeSet semid).sets id with
    | none => rfl
    | some set =>
        have hnone := h.fresh id hid
        rw [hold id set hset] at hnone
        cases hnone
  · intro id hid
    have hid : (if s.current = some semid then none else s.current) = some id := hid
    split at hid
    · cases hid
    · exact h.current id hid
  · exact h.named
  · exact h.one
  · intro u id k hu
    rcases h.freeing u id k hu with ⟨hle, hall⟩
    exact ⟨hle, fun set hset => hall set (hold id set hset)⟩
  · exact fun id set hset => h.set id set (hold id set hset)
  · exact fun u id hu set hset => h.returned u id hu set (hold id set hset)

theorem initMove_invariant {mid : InitState} {pc : InitPc} (h : InitInvariant nsems s)
    (hmove : InitMove nsems s t mid pc) : InitInvariant nsems (mid.setCaller t pc) := by
  have hkeeps : forall semid, (s.callers t).semid = some semid ->
      forall id, some semid = some id -> id < s.next := by
    intro semid ht id hid
    injection hid with hid
    rw [← hid]
    exact h.named t semid ht
  cases hmove with
  | creates _ _ => exact h.created t
  | finds _ => exact h.moved t .opening nofun nofun nofun
  | refused _ => exact h.moved t (.returned none) nofun nofun nofun
  | @opens semid _ hcurrent =>
      apply h.moved t (.polling semid 0 false) _ nofun nofun
      intro id hid
      injection hid with hid
      rw [← hid]
      exact h.current semid hcurrent
  | frees ht hk hset => exact h.freed ht hk hset
  | fails ht => exact h.moved t _ (hkeeps _ (by rw [ht]; rfl)) nofun nofun
  | @whole semid k ht hk =>
      apply h.moved t (.returned (some semid)) (hkeeps semid (by rw [ht]; rfl)) nofun
      intro id hid set hset hpos
      injection hid with hid
      injection hid with hid
      rw [← hid] at hset
      have hfirst := (h.freeing t semid k ht).right set hset 0
      rcases h.set semid set hset with ⟨k', _, hfreed, hotime⟩
      rw [hfreed 0, if_pos (show 0 < k by lia)] at hfirst
      apply hotime.mpr
      split at hfirst
      · assumption
      · cases hfirst
  | removes _ => exact (h.removed _).moved t (.returned none) nofun nofun nofun
  | @ready semid i filled ht hready =>
      apply h.moved t (.returned (some semid)) (hkeeps semid (by rw [ht]; rfl)) nofun
      intro id hid set hset _
      injection hid with hid
      injection hid with hid
      rw [← hid] at hset
      exact hready set hset
  | waits ht _ => exact h.moved t _ (hkeeps _ (by rw [ht]; rfl)) nofun nofun
  | expires _ => exact h.moved t (.returned none) nofun nofun nofun

theorem initsemNext_invariant {l : InitLabel} (h : InitInvariant nsems s)
    (hnext : initsemNext nsems s l = some s') : InitInvariant nsems s' := by
  cases initsemNext_moves hnext with
  | inl hcaller =>
      rcases hcaller with ⟨t, mid, pc, _, hmove, hs'⟩
      rw [hs']
      exact initMove_invariant h hmove
  | inr hremove =>
      rcases hremove with ⟨_, semid, hs'⟩
      rw [hs']
      exact h.removed semid

end Steps

theorem initsem_invariant {nsems : Nat} {s : InitState}
    (hs : (initsemSystem nsems).Reachable s) : InitInvariant nsems s := by
  apply TransitionSystem.reachableUnder_invariant _ _ hs
  · intro start hstart
    rw [show start = initStart from hstart]
    exact initInvariant_start nsems
  · exact fun _ _ _ ht _ hnext => initsemNext_invariant ht hnext

/-!
# How long a call takes
-/

def InitPc.work (nsems : Nat) : InitPc -> Nat
  | .entered => nsems + maxRetries + 3
  | .opening => maxRetries + 2
  | .freeing _ semNum => nsems - semNum + 2
  | .removing _ => 1
  | .polling _ i _ => maxRetries - i + 1
  | .returned _ => 0

theorem initMove_work {nsems t : Nat} {s mid : InitState} {pc : InitPc}
    (h : InitMove nsems s t mid pc) : pc.work nsems < (s.callers t).work nsems := by
  cases h with
  | creates ht _ =>
      rw [ht]
      simp only [InitPc.work]
      lia
  | finds ht =>
      rw [ht]
      simp only [InitPc.work]
      lia
  | refused ht =>
      cases ht with
      | inl ht =>
          rw [ht]
          exact Nat.succ_pos _
      | inr ht =>
          rw [ht]
          exact Nat.succ_pos _
  | opens ht _ =>
      rw [ht]
      exact Nat.lt_succ_self _
  | frees ht hk _ =>
      rw [ht]
      simp only [InitPc.work]
      lia
  | fails ht =>
      rw [ht]
      simp only [InitPc.work]
      lia
  | whole ht _ =>
      rw [ht]
      exact Nat.succ_pos _
  | removes ht =>
      rw [ht]
      exact Nat.succ_pos _
  | ready ht _ =>
      rw [ht]
      exact Nat.succ_pos _
  | waits ht hi =>
      rw [ht]
      simp only [InitPc.work]
      lia
  | expires ht =>
      rw [ht]
      exact Nat.succ_pos _

/-- The second caller does not wait for the second semaphore. -/
theorem returned_too_early (n : Nat) :
    exists s set, (initsemSystem (n + 2)).Reachable s ∧ s.callers 1 = .returned (some 0) ∧
      s.sets 0 = some set ∧ set.freed 1 = 0 := by
  have hexec : exists s set, (initsemSystem (n + 2)).execute initStart
      [.call 0, .call 0, .call 1, .call 1, .call 1] = some s ∧
        s.callers 1 = .returned (some 0) ∧ s.sets 0 = some set ∧ set.freed 1 = 0 :=
    ⟨_, _, rfl, rfl, rfl, rfl⟩
  rcases hexec with ⟨s, set, hexec, hall⟩
  exact ⟨s, set, TransitionSystem.reachableUnder_of_execute rfl hexec fun _ _ => trivial,
    hall⟩

theorem initsemNext_work {nsems : Nat} {s s' : InitState} {l : InitLabel} (t : Nat)
    (h : initsemNext nsems s l = some s') :
    (l.caller = some t -> (s'.callers t).work nsems < (s.callers t).work nsems) ∧
      (l.caller ≠ some t -> s'.callers t = s.callers t) := by
  cases initsemNext_moves h with
  | inl hcaller =>
      rcases hcaller with ⟨u, mid, pc, hlabel, hmove, rfl⟩
      rw [hlabel]
      constructor
      · intro heq
        injection heq with heq
        rw [← heq]
        show (Function.update mid.callers u pc u).work nsems < _
        rw [Function.update_self]
        exact initMove_work hmove
      · intro hne
        have htu : t ≠ u := fun heq => hne (by rw [heq])
        show Function.update mid.callers u pc t = _
        rw [Function.update_of_ne htu, initMove_callers hmove]
  | inr hremove =>
      rcases hremove with ⟨hlabel, semid, rfl⟩
      rw [hlabel]
      exact ⟨nofun, fun _ => rfl⟩

theorem initsem_steps {nsems : Nat} {start s : InitState}
    {trace : List (Transition InitState InitLabel)} (t : Nat)
    (hrun : (initsemSystem nsems).Run start trace s) :
    (trace.countP fun u => u.label.caller = some t) + (s.callers t).work nsems ≤
      (start.callers t).work nsems := by
  induction hrun with
  | nil => simp
  | @snoc before mid last l _ hnext ih =>
      have hwork := initsemNext_work t hnext
      rw [List.countP_append, List.countP_singleton]
      cases Decidable.em (l.caller = some t) with
      | inl howned =>
          have hlower := hwork.left howned
          rw [if_pos (decide_eq_true howned)]
          lia
      | inr hother =>
          rw [hwork.right hother, if_neg (by simpa using hother)]
          lia

theorem initsem_possible {nsems : Nat} {s : InitState} {t : Nat}
    (h : forall semid, s.callers t ≠ .returned semid) :
    exists l s', l.caller = some t ∧ initsemNext nsems s l = some s' := by
  cases hnext : initsemCall nsems s t with
  | some s' => exact ⟨.call t, s', rfl, hnext⟩
  | none =>
      unfold initsemCall at hnext
      cases ht : s.callers t with
      | polling semid i filled =>
          simp only [ht] at hnext
          split at hnext
          · rename_i hi
            split at hnext
            · split at hnext
              · cases hnext
              · cases hnext
            · rename_i hgone
              cases filled with
              | true => cases hnext
              | false =>
                  refine ⟨.garbage t true, s.setCaller t (.returned (some semid)), rfl, ?_⟩
                  simp only [initsemNext, ht, hgone, hi, Option.isNone_none, and_self, if_pos]
          · cases hnext
      | returned semid => exact absurd ht (h semid)
      | entered =>
          simp only [ht] at hnext
          split at hnext
          · split at hnext
            · cases hnext
            · cases hnext
          · cases hnext
      | opening =>
          simp only [ht] at hnext
          split at hnext
          · cases hnext
          · cases hnext
      | freeing semid semNum =>
          simp only [ht] at hnext
          split at hnext
          · split at hnext
            · cases hnext
            · cases hnext
          · cases hnext
      | removing semid =>
          simp only [ht] at hnext
          cases hnext

/--
However many processes call `_initsem` for one key, no semaphore is freed twice, and no
call takes more than so many steps.  The set that a call returns, if nobody has removed
it, is ready in every run exactly when there is only one semaphore in it.
-/
theorem initsem_ready_iff (nsems : Nat) :
    (forall s, (initsemSystem nsems).Reachable s -> forall semid set,
      s.sets semid = some set -> forall i, set.freed i ≤ 1) ∧
    (forall trace s, (initsemSystem nsems).Run initStart trace s -> forall t,
      (trace.countP fun u => u.label.caller = some t) ≤ nsems + maxRetries + 3 ∧
        ((exists semid, s.callers t = .returned semid) ∨
          exists l s', l.caller = some t ∧ (initsemSystem nsems).next s l = some s')) ∧
    ((forall s, (initsemSystem nsems).Reachable s -> forall t semid set,
      s.callers t = .returned (some semid) -> s.sets semid = some set ->
        forall i, i < nsems -> set.freed i = 1) <-> nsems ≤ 1) := by
  refine ⟨?_, ?_, ?_, ?_⟩
  · intro s hs semid set hset i
    rcases (initsem_invariant hs).set semid set hset with ⟨k, _, honce, _⟩
    rw [honce i]
    split
    · exact Nat.le_refl 1
    · exact Nat.zero_le 1
  · intro trace s hrun t
    constructor
    · have hsteps := initsem_steps t hrun
      have hwork : (initStart.callers t).work nsems = nsems + maxRetries + 3 := rfl
      lia
    · by_contra hneither
      apply hneither
      right
      exact initsem_possible fun semid hreturned => hneither (Or.inl ⟨semid, hreturned⟩)
  · intro hready
    by_contra hmany
    have hsplit : nsems = nsems - 2 + 2 := by lia
    rw [hsplit] at hready
    rcases returned_too_early (nsems - 2) with ⟨s, set, hs, hreturned, hset, hzero⟩
    have hone := hready s hs 1 0 set hreturned hset 1 (by lia)
    rw [hzero] at hone
    cases hone
  · intro hone s hs t semid set hreturned hset i hi
    have hinv := initsem_invariant hs
    have hotime := hinv.returned t semid hreturned set hset (by lia)
    rcases hinv.set semid set hset with ⟨k, _, honce, hset'⟩
    have hk := hset'.mp hotime
    rw [honce i, if_pos (by lia)]

end Os
end Notnets
