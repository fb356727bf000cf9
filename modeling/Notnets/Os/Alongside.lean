import Notnets.Foundation.Renumbering
import Notnets.Os.SemaphoreSets

/-!
# Two systems side by side

Two systems in which the same calls are made, but for those of one party that only
the first of them knows.  The calls return the same, up to the identifiers.
-/

namespace Notnets
namespace Os

open Foundation
open Queue

/-- The identifiers from which on the systems differ, and the keys of what the
first one has alone. -/
structure Parting where
  segments : Shift
  semaphores : Shift
  segmentKey : Int -> Prop
  semaphoreKey : Int -> Prop

structure Marks where
  given : Int -> Prop
  stored : Int -> Semaphore -> Prop

structure Marks.Below (marks marks' : Marks) : Prop where
  given : forall shmid, marks.given shmid -> marks'.given shmid
  stored : forall shmid which, marks.stored shmid which -> marks'.stored shmid which

theorem Marks.below_refl (marks : Marks) : marks.Below marks :=
  ⟨fun _ h => h, fun _ _ h => h⟩

theorem Marks.Below.trans {marks marks' marks'' : Marks} (h : marks.Below marks')
    (h' : marks'.Below marks'') : marks.Below marks'' :=
  ⟨fun id hgiven => h'.given id (h.given id hgiven),
    fun id which hstored => h'.stored id which (h.stored id which hstored)⟩

def SegmentAlike (p : Parting) (marks : Marks) (shmid : Int) (o o' : Segment) : Prop :=
  o.size = o'.size ∧ o.queue = o'.queue ∧
    forall which, marks.stored shmid which ->
      o.semaphores which = p.semaphores.map (o'.semaphores which)

structure Alongside (p : Parting) (marks : Marks) (k k' : Kernel) : Prop where
  calls : k.faults = []
  calls' : k'.faults = []
  segments : IpcTable.Renumbered p.segments p.segmentKey (SegmentAlike p marks)
    k.segments k'.segments
  semaphores : IpcTable.Renumbered p.semaphores p.semaphoreKey (fun _ => Eq)
    k.semaphores k'.semaphores
  given : forall shmid, marks.given shmid -> shmid < k'.segments.next
  stored : forall shmid which, marks.stored shmid which -> shmid < k'.segments.next
  semids : forall shmid which e, marks.stored shmid which ->
    k'.segments.entries shmid = some e -> e.object.semaphores which < k'.semaphores.next

def Anyhow (_ _ : Kernel) : Prop :=
  True

section Calls

variable {p : Parting} {marks : Marks} {k k' : Kernel} {key shmid semid : Int}
  {size : Nat}

theorem returns_noFault (hcalls : k.faults = []) : Returns fault k false k := by
  apply returns_fault.mpr
  unfold Kernel.failsNext
  rw [hcalls]
  refine ⟨rfl, ?_⟩
  cases k
  cases hcalls
  rfl

theorem shmCreate_cases (hcalls : k.faults = []) (key : Int) (size : Nat) :
    (exists id e, k.segments.find key = some id ∧ k.segments.entries id = some e ∧
      Returns (shmCreate key size) k (if size ≤ e.object.size then id else -1) k) ∨
    (exists hfree : k.segments.find key = none,
      Returns (shmCreate key size) k k.segments.next
        { k with segments := k.segments.insert key (Segment.zero size) hfree }) := by
  have hstart : forall (f : Bool -> OsM Int) id k', Returns (f false) k id k' ->
      Returns (fault >>= f) k id k' :=
    fun f id k' h => returns_bind.mpr ⟨false, k, returns_noFault hcalls, h⟩
  rcases Option.eq_none_or_eq_some (k.segments.find key) with hfind | ⟨id, hfind⟩
  · right
    refine ⟨hfind, ?_⟩
    apply hstart
    simp only [Bool.false_eq_true, if_false, returns_get_bind]
    split
    · rename_i found hfound
      rw [hfind] at hfound
      cases hfound
    · exact returns_set_bind.mpr (returns_pure.mpr ⟨rfl, rfl⟩)
  · left
    rcases (IpcTable.find_eq_some hfind).right with ⟨e, hentry, _⟩
    refine ⟨id, e, hfind, hentry, ?_⟩
    apply hstart
    simp only [Bool.false_eq_true, if_false, returns_get_bind]
    split
    · rename_i found hfound
      rw [hfind] at hfound
      injection hfound with hfound
      subst hfound
      rw [hentry]
      dsimp only
      split
      · exact returns_pure.mpr ⟨rfl, rfl⟩
      · exact returns_pure.mpr ⟨rfl, rfl⟩
    · rename_i hfound
      rw [hfind] at hfound
      cases hfound

theorem Alongside.insert (h : Alongside p marks k k')
    (hkey : key ≠ 0 -> ¬ p.segmentKey key) (hfree : k.segments.find key = none)
    (hfree' : k'.segments.find key = none) (size : Nat) :
    Alongside p marks
      { k with segments := k.segments.insert key (Segment.zero size) hfree }
      { k' with segments := k'.segments.insert key (Segment.zero size) hfree' } := by
  constructor
  · exact h.calls
  · exact h.calls'
  · refine h.segments.insert hkey hfree hfree' ⟨rfl, rfl, ?_⟩
    intro which hstored
    have hlt := h.stored _ _ hstored
    lia
  · exact h.semaphores
  · intro id hgiven
    have hlt := h.given id hgiven
    show id < ((k'.segments.next + 1 : Nat) : Int)
    lia
  · intro id which hstored
    have hlt := h.stored id which hstored
    show id < ((k'.segments.next + 1 : Nat) : Int)
    lia
  · intro id which e hstored hentry
    have hlt := h.stored id which hstored
    dsimp only at hentry
    rw [IpcTable.insert_of_ne _ _ _ (by lia)] at hentry
    exact h.semids id which e hstored hentry

theorem Alongside.shmCreate (h : Alongside p marks k k')
    (hkey : key ≠ 0 -> ¬ p.segmentKey key) (size : Nat) :
    RunsLike Anyhow (fun id id' t t' => id = p.segments.map id' ∧ Alongside p marks t t')
      (shmCreate key size) k (shmCreate key size) k' := by
  have hfind := h.segments.find hkey
  rcases shmCreate_cases h.calls key size with
    ⟨id, e, hfound, hentry, hmake⟩ | ⟨hfree, hmake⟩
  · rcases shmCreate_cases h.calls' key size with
      ⟨id', e', hfound', hentry', hmake'⟩ | ⟨hfree', _⟩
    · rw [hfound, hfound'] at hfind
      injection hfind with hid
      rcases h.segments.entry_some hentry' with ⟨e1, hentry1, _, halike⟩
      rw [← hid, hentry] at hentry1
      injection hentry1 with heq
      subst heq
      refine runsLike_of_returns hmake hmake' ⟨?_, h⟩
      rw [halike.left]
      split
      · exact hid
      · exact (Shift.map_of_lt (by lia)).symm
    · rw [hfound, hfree'] at hfind
      cases hfind
  · rcases shmCreate_cases h.calls' key size with
      ⟨id', e', hfound', _, _⟩ | ⟨hfree', hmake'⟩
    · rw [hfree, hfound'] at hfind
      cases hfind
    · refine runsLike_of_returns hmake hmake' ⟨?_, h.insert hkey hfree hfree' size⟩
      have hfirst := h.segments.first
      rw [h.segments.next, Shift.map_of_le (by lia)]
      lia

theorem shmAttach_cases (hcalls : k.faults = []) (shmid : Int) :
    Returns (shmAttach shmid) k ((k.segments.entries shmid).map fun _ => shmid) k := by
  refine returns_bind.mpr ⟨false, k, returns_noFault hcalls, returns_get_bind.mpr ?_⟩
  cases hentry : k.segments.entries shmid with
  | none => exact returns_pure.mpr ⟨rfl, rfl⟩
  | some e => exact returns_pure.mpr ⟨rfl, rfl⟩

def Marks.give (marks : Marks) (shmid : Int) : Marks :=
  { marks with given := fun id => marks.given id ∨ id = shmid }

theorem Alongside.give (h : Alongside p marks k k') (hlt : shmid < k'.segments.next) :
    Alongside p (marks.give shmid) k k' where
  calls := h.calls
  calls' := h.calls'
  segments := h.segments
  semaphores := h.semaphores
  given := by
    intro id hcases
    rcases hcases with hgiven | heq
    · exact h.given id hgiven
    · rw [heq]
      exact hlt
  stored := h.stored
  semids := h.semids

/-- Attaching returns the address of a segment that both systems have, or fails in
both. -/
theorem Alongside.shmAttach (h : Alongside p marks k k') (shmid : Int) :
    RunsLike Anyhow (fun a a' t t' => (a = none ∧ a' = none ∧ Alongside p marks t t') ∨
        (a = some (p.segments.map shmid) ∧ a' = some shmid ∧
          Alongside p (marks.give shmid) t t'))
      (shmAttach (p.segments.map shmid)) k (shmAttach shmid) k' := by
  have hattach := shmAttach_cases h.calls (p.segments.map shmid)
  have hattach' := shmAttach_cases h.calls' shmid
  cases hentry' : k'.segments.entries shmid with
  | none =>
      rw [h.segments.entry_none hentry'] at hattach
      rw [hentry'] at hattach'
      exact runsLike_of_returns hattach hattach' (Or.inl ⟨rfl, rfl, h⟩)
  | some e' =>
      rcases h.segments.entry_some hentry' with ⟨e, hentry, _⟩
      rw [hentry] at hattach
      rw [hentry'] at hattach'
      exact runsLike_of_returns hattach hattach'
        (Or.inr ⟨rfl, rfl, h.give (IpcTable.lt_next hentry').right⟩)

theorem Alongside.shmRemove (h : Alongside p marks k k') (shmid : Int) :
    RunsLike Anyhow (fun _ _ t t' => Alongside p marks t t')
      (shmRemove (p.segments.map shmid)) k (shmRemove shmid) k' := by
  apply runsLike_get_bind
  cases hentry' : k'.segments.entries shmid with
  | none =>
      rw [h.segments.entry_none hentry']
      exact runsLike_pure h
  | some e' =>
      rcases h.segments.entry_some hentry' with ⟨e, hentry, _⟩
      rw [hentry]
      apply runsLike_set_bind
      apply runsLike_pure
      constructor
      · exact h.calls
      · exact h.calls'
      · exact h.segments.remove shmid
      · exact h.semaphores
      · exact h.given
      · exact h.stored
      · intro id which e1 hstored hentry1
        by_cases hid : id = shmid
        · dsimp only at hentry1
          rw [hid, IpcTable.remove_self] at hentry1
          cases hentry1
        · dsimp only at hentry1
          rw [IpcTable.remove_of_ne _ _ hid] at hentry1
          exact h.semids id which e1 hstored hentry1

/-!
# Writing and reading
-/

theorem Alongside.write (h : Alongside p marks k k') {f : Segment -> Segment}
    (hsame : forall o o', o.size = o'.size -> o.queue = o'.queue ->
      (f o).size = (f o').size ∧ (f o).queue = (f o').queue)
    (hstored : forall o, (f o).semaphores = o.semaphores) :
    Alongside p marks
      { k with segments := k.segments.modify (p.segments.map shmid) f }
      { k' with segments := k'.segments.modify shmid f } where
  calls := h.calls
  calls' := h.calls'
  segments := by
    refine h.segments.modify ?_ fun _ _ _ _ halike => halike
    intro o o' hparts
    rcases hparts with ⟨hsize, hqueue, hsemaphores⟩
    rcases hsame o o' hsize hqueue with ⟨hsize', hqueue'⟩
    refine ⟨hsize', hqueue', ?_⟩
    rw [hstored, hstored]
    exact hsemaphores
  semaphores := h.semaphores
  given := h.given
  stored := h.stored
  semids := by
    intro id which e hmark hentry
    rcases IpcTable.modify_entry _ _ hentry with ⟨before, hbefore, _, hobject⟩
    have hsemid := h.semids id which before hmark hbefore
    rw [hobject]
    split
    · rw [hstored]
      exact hsemid
    · exact hsemid

def Marks.store (marks : Marks) (shmid : Int) (which : Semaphore) : Marks :=
  { marks with stored := fun id w => marks.stored id w ∨ (id = shmid ∧ w = which) }

def Segment.store (which : Semaphore) (semid : Int) (segment : Segment) : Segment :=
  { segment with semaphores := Function.update segment.semaphores which semid }

theorem Alongside.store (h : Alongside p marks k k') (hgiven : marks.given shmid)
    (hsemid : semid < k'.semaphores.next) (which : Semaphore) :
    Alongside p (marks.store shmid which)
      { k with
        segments := k.segments.modify (p.segments.map shmid)
          (Segment.store which (p.semaphores.map semid)) }
      { k' with segments := k'.segments.modify shmid (Segment.store which semid) } where
  calls := h.calls
  calls' := h.calls'
  segments := by
    refine h.segments.modify ?_ ?_
    · intro o o' hparts
      rcases hparts with ⟨hsize, hqueue, hsemaphores⟩
      refine ⟨hsize, hqueue, ?_⟩
      intro w hmark
      unfold Segment.store
      dsimp only
      by_cases hw : w = which
      · rw [hw, Function.update_self, Function.update_self]
      · rw [Function.update_of_ne hw, Function.update_of_ne hw]
        rcases hmark with hmark | ⟨_, heq⟩
        · exact hsemaphores w hmark
        · exact absurd heq hw
    · intro j o o' hj hall
      rcases hall with ⟨hsize, hqueue, hsemaphores⟩
      refine ⟨hsize, hqueue, ?_⟩
      intro w hcases
      rcases hcases with hmark | ⟨heq, _⟩
      · exact hsemaphores w hmark
      · exact absurd heq hj
  semaphores := h.semaphores
  given := h.given
  stored := by
    intro id w heither
    rcases heither with hmark | ⟨heq, _⟩
    · exact h.stored id w hmark
    · rw [heq]
      exact h.given shmid hgiven
  semids := by
    intro id w e hmark hentry
    rcases IpcTable.modify_entry _ _ hentry with ⟨before, hbefore, _, hobject⟩
    rw [hobject]
    split
    · rename_i hid
      unfold Segment.store
      dsimp only
      by_cases hw : w = which
      · rw [hw, Function.update_self]
        exact hsemid
      · rw [Function.update_of_ne hw]
        rcases hmark with hmark | ⟨_, heq⟩
        · exact h.semids id w before hmark hbefore
        · exact absurd heq hw
    · rename_i hid
      rcases hmark with hmark | ⟨heq, _⟩
      · exact h.semids id w before hmark hbefore
      · exact absurd heq hid

/-- What is read of a queue that was set up is the same semaphore. -/
theorem Alongside.readSemaphore (h : Alongside p marks k k') {which : Semaphore}
    (hmark : marks.stored shmid which) :
    RunsLike Anyhow
      (fun id id' t t' => id = p.semaphores.map id' ∧ Alongside p marks t t')
      (readSemaphore (some (p.segments.map shmid)) which) k
      (readSemaphore (some shmid) which) k' := by
  apply runsLike_get_bind
  cases hentry' : k'.segments.entries shmid with
  | none =>
      rw [h.segments.entry_none hentry']
      exact runsLike_throw trivial
  | some e' =>
      rcases h.segments.entry_some hentry' with ⟨e, hentry, _, halike⟩
      rw [hentry]
      exact runsLike_pure ⟨halike.right.right which hmark, h⟩

/-!
# Semaphores
-/

theorem Alongside.setSemaphores (h : Alongside p marks k k')
    {t t' : IpcTable SemaphoreSet}
    (hsets : IpcTable.Renumbered p.semaphores p.semaphoreKey (fun _ => Eq) t t')
    (hnext : k'.semaphores.next ≤ t'.next) :
    Alongside p marks { k with semaphores := t } { k' with semaphores := t' } where
  calls := h.calls
  calls' := h.calls'
  segments := h.segments
  semaphores := hsets
  given := h.given
  stored := h.stored
  semids := by
    intro id which e hmark hentry
    have hlt := h.semids id which e hmark hentry
    show e.object.semaphores which < t'.next
    lia

theorem Alongside.semWait (h : Alongside p marks k k') (semid : Int) :
    RunsLike Anyhow (fun _ _ t t' => Alongside p marks t t')
      (semWait (p.semaphores.map semid)) k (semWait semid) k' := by
  apply runsLike_get_bind
  cases hentry' : k'.semaphores.entries semid with
  | none =>
      rw [h.semaphores.entry_none hentry']
      exact runsLike_pure h
  | some e' =>
      rcases h.semaphores.entry_some hentry' with ⟨e, hentry, _, hsame⟩
      rw [hentry]
      dsimp only
      rw [hsame]
      split
      · exact runsLike_throw trivial
      · apply runsLike_set_bind
        apply runsLike_pure
        refine h.setSemaphores (h.semaphores.modify ?_ fun _ _ _ _ heq => heq)
          (Nat.le_refl _)
        rintro o o' rfl
        rfl

theorem Alongside.semRemove (h : Alongside p marks k k') (semid : Int) :
    RunsLike Anyhow (fun _ _ t t' => Alongside p marks t t')
      (semRemove (p.semaphores.map semid)) k (semRemove semid) k' := by
  apply runsLike_get_bind
  exact h.setSemaphores (h.semaphores.remove semid) (Nat.le_refl _)

theorem initsem_cases (k : Kernel) (key : Int) :
    (exists semid t, openSet k.semaphores key = some (semid, t) ∧
      Returns (initsem key) k semid { k with semaphores := t }) ∨
    (openSet k.semaphores key = none ∧ Returns (initsem key) k (-1) k) := by
  cases hopen : openSet k.semaphores key with
  | some result =>
      left
      rcases result with ⟨semid, t⟩
      exact ⟨semid, t, rfl, (returns_initsem (openSet_ne hopen).left).mpr ⟨t, hopen, rfl⟩⟩
  | none =>
      right
      refine ⟨rfl, ?_⟩
      rcases Option.eq_none_or_eq_some (k.semaphores.find key) with hfind | ⟨id, hfind⟩
      · rw [openSet_of_none hfind] at hopen
        cases hopen
      · rcases (IpcTable.find_eq_some hfind).right with ⟨e, hentry, _⟩
        rw [openSet_of_some hfind hentry] at hopen
        unfold initsem
        rw [returns_get_bind]
        split
        · rename_i hnone
          rw [hfind] at hnone
          cases hnone
        · rename_i found hfound
          rw [hfind] at hfound
          injection hfound with hfound
          subst hfound
          rw [hentry]
          dsimp only
          split
          · rename_i hoperated
            rw [if_pos hoperated] at hopen
            cases hopen
          · exact returns_pure.mpr ⟨rfl, rfl⟩

theorem Alongside.openSet (h : Alongside p marks k k')
    (hkey : key ≠ 0 -> ¬ p.semaphoreKey key) :
    Option.Rel (fun r r' => r.1 = p.semaphores.map r'.1 ∧ r'.1 < r'.2.next ∧
        k'.semaphores.next ≤ r'.2.next ∧
        IpcTable.Renumbered p.semaphores p.semaphoreKey (fun _ => Eq) r.2 r'.2)
      (openSet k.semaphores key) (openSet k'.semaphores key) := by
  have hfind := h.semaphores.find hkey
  rcases Option.eq_none_or_eq_some (k'.semaphores.find key) with hfree' | ⟨id', hfound'⟩
  · rw [hfree'] at hfind
    have hfree : k.semaphores.find key = none := hfind
    rw [openSet_of_none hfree, openSet_of_none hfree']
    have hfirst := h.semaphores.first
    have hmap : p.semaphores.map k'.semaphores.next = k.semaphores.next := by
      rw [h.semaphores.next, Shift.map_of_le (by lia)]
      lia
    rw [← hmap]
    apply Option.Rel.some
    refine ⟨rfl, ?_, Nat.le_succ _, ?_⟩
    · show (k'.semaphores.next : Int) < ((k'.semaphores.next + 1 : Nat) : Int)
      lia
    · dsimp only
      refine (h.semaphores.insert hkey hfree hfree' rfl).modify ?_ fun _ _ _ _ heq => heq
      rintro o o' rfl
      rfl
  · rcases (IpcTable.find_eq_some hfound').right with ⟨e', hentry', _⟩
    rcases h.semaphores.entry_some hentry' with ⟨e, hentry, _, hsame⟩
    rw [hfound'] at hfind
    have hfound : k.semaphores.find key = some (p.semaphores.map id') := hfind
    rw [openSet_of_some hfound hentry, openSet_of_some hfound' hentry', hsame]
    split
    · exact Option.Rel.some ⟨rfl, (IpcTable.lt_next hentry').right, Nat.le_refl _,
        h.semaphores⟩
    · exact Option.Rel.none

theorem Alongside.initsem (h : Alongside p marks k k')
    (hkey : key ≠ 0 -> ¬ p.semaphoreKey key) :
    RunsLike Anyhow
      (fun id id' t t' => id = p.semaphores.map id' ∧ id' < t'.semaphores.next ∧
        Alongside p marks t t') (initsem key) k (initsem key) k' := by
  have hopen := h.openSet hkey
  rcases initsem_cases k key with ⟨semid, t, hopened, hreturns⟩ | ⟨hopened, hreturns⟩
  · rcases initsem_cases k' key with
      ⟨semid', t', hopened', hreturns'⟩ | ⟨hopened', _⟩
    · rw [hopened, hopened'] at hopen
      cases hopen with
      | some hrel =>
          exact runsLike_of_returns hreturns hreturns' ⟨hrel.left, hrel.right.left,
            h.setSemaphores hrel.right.right.right hrel.right.right.left⟩
    · rw [hopened, hopened'] at hopen
      cases hopen
  · rcases initsem_cases k' key with
      ⟨semid', t', hopened', _⟩ | ⟨hopened', hreturns'⟩
    · rw [hopened, hopened'] at hopen
      cases hopen
    · exact runsLike_of_returns hreturns hreturns'
        ⟨(Shift.map_of_lt (by lia)).symm, by lia, h⟩

end Calls

end Os
end Notnets
