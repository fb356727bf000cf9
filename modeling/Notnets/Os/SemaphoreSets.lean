import Mathlib.Data.List.Nodup
import Notnets.Os.Kernel

/-!
# Setting up semaphores by key

The queue of a SEM connection opens its semaphores by keys, one after the other,
and waits on one of them at once.  The semaphores are private and have their
first values exactly when no key is used twice, apart from zero, and the sets
that the keys find are as good as new.
-/

namespace Notnets
namespace Os

open Foundation
open Queue

structure SetRequest where
  key : Int
  taken : Bool
deriving DecidableEq, Repr

def SetRequest.value (r : SetRequest) : Nat :=
  if r.taken then 0 else 1

/-- `_initsem`, as a function of the table. -/
def openSet (t : IpcTable SemaphoreSet) (key : Int) :
    Option (Int × IpcTable SemaphoreSet) :=
  match hfind : t.find key with
  | none =>
      some (t.next, (t.insert key { value := 0, operated := false } hfind).modify t.next
        fun s => { value := s.value + 1, operated := true })
  | some semid =>
      match t.entries semid with
      | some e => if e.object.operated then some (semid, t) else none
      | none => none

/-- `sem_wait`, as a function of the table. -/
def takeSet (t : IpcTable SemaphoreSet) (semid : Int) :
    Option (IpcTable SemaphoreSet) :=
  match t.entries semid with
  | some e =>
      if e.object.value = 0 then none
      else some (t.modify semid fun s => { value := s.value - 1, operated := true })
  | none => some t

def openOne (t : IpcTable SemaphoreSet) (r : SetRequest) :
    Option (Int × IpcTable SemaphoreSet) :=
  match openSet t r.key with
  | none => none
  | some (semid, t') =>
      if r.taken then (takeSet t' semid).map fun t'' => (semid, t'')
      else some (semid, t')

/-- One semaphore after the other. -/
def openAll : List SetRequest -> IpcTable SemaphoreSet ->
    Option (List Int × IpcTable SemaphoreSet)
  | [], t => some ([], t)
  | r :: rest, t =>
      match openOne t r with
      | none => none
      | some (semid, t') =>
          (openAll rest t').map fun result => (semid :: result.1, result.2)

/-!
# One semaphore
-/

structure SetOpened (r : SetRequest) (semid : Int)
    (before after : IpcTable SemaphoreSet) : Prop where
  other : forall j, j ≠ semid -> after.entries j = before.entries j
  next : before.next ≤ after.next
  filled : IpcTable.Filled before after
  entry : exists e, after.entries semid = some e ∧ e.key = r.key
  found : forall e, before.entries semid = some e ->
    e.key = r.key ∧ r.key ≠ 0 ∧ e.object.operated = true ∧
      forall e', after.entries semid = some e' ->
        (e'.object.value = r.value <-> e.object.value = 1)
  made : before.entries semid = none ->
    (before.next : Int) ≤ semid ∧
      (forall j e, before.entries j = some e -> e.key = r.key -> r.key = 0) ∧
      forall e', after.entries semid = some e' -> e'.object.value = r.value

section One

variable {t t' : IpcTable SemaphoreSet} {r : SetRequest} {semid : Int}

theorem openSet_cases {key : Int} (h : openSet t key = some (semid, t')) :
    (semid = t.next ∧ t'.next = t.next + 1 ∧
      (forall j e, t.entries j = some e -> e.key = key -> key = 0) ∧
      t'.entries = Function.update t.entries semid
        (some ⟨key, { value := 1, operated := true }⟩)) ∨
    (key ≠ 0 ∧ t' = t ∧
      exists e, t.entries semid = some e ∧ e.key = key ∧ e.object.operated = true) := by
  unfold openSet at h
  split at h
  · rename_i hfind
    injection h with h
    injection h with hid ht
    subst hid
    left
    rw [← ht]
    refine ⟨rfl, rfl, ?_, ?_⟩
    · intro j e hentry hkey
      by_contra hzero
      exact IpcTable.find_eq_none hfind hzero hentry hkey
    · funext j
      by_cases hj : j = t.next
      · rw [hj, IpcTable.modify_self _ _ (IpcTable.insert_self t hfind),
          Function.update_self]
      · rw [IpcTable.modify_of_ne _ _ hj, IpcTable.insert_of_ne t j hfind hj,
          Function.update_of_ne hj]
  · rename_i id hfind
    split at h
    · rename_i e hentry
      split at h
      · rename_i hoperated
        injection h with h
        injection h with hid ht
        subst hid
        rcases IpcTable.find_eq_some hfind with ⟨hne, e', hentry', hkey⟩
        rw [hentry] at hentry'
        injection hentry' with heq
        right
        refine ⟨hne, ht.symm, e, hentry, ?_, hoperated⟩
        rw [heq]
        exact hkey
      · cases h
    · cases h

theorem takeSet_cases {e : IpcEntry SemaphoreSet} (hentry : t.entries semid = some e)
    (h : takeSet t semid = some t') :
    e.object.value ≠ 0 ∧ t'.next = t.next ∧
      t'.entries = Function.update t.entries semid
        (some ⟨e.key, { value := e.object.value - 1, operated := true }⟩) := by
  unfold takeSet at h
  rw [hentry] at h
  simp only at h
  split at h
  · cases h
  · rename_i hvalue
    injection h with h
    rw [← h]
    refine ⟨hvalue, rfl, ?_⟩
    funext j
    by_cases hj : j = semid
    · subst hj
      rw [IpcTable.modify_self _ _ hentry, Function.update_self]
    · rw [IpcTable.modify_of_ne _ _ hj, Function.update_of_ne hj]

theorem setOpened_made {object : SemaphoreSet} (hnext : t'.next = t.next + 1)
    (hentries : t'.entries = Function.update t.entries semid (some ⟨r.key, object⟩))
    (hid : semid = t.next) (hvalue : object.value = r.value)
    (hmissing : forall j e, t.entries j = some e -> e.key = r.key -> r.key = 0) :
    SetOpened r semid t t' where
  other := fun j hj => by rw [hentries, Function.update_of_ne hj]
  next := by lia
  filled := by
    intro j hlow hhigh
    have hj : j = semid := by lia
    rw [hentries, hj, Function.update_self]
    exact Option.some_ne_none _
  entry := ⟨_, by rw [hentries, Function.update_self], rfl⟩
  found := by
    intro e hentry
    have hlt := (IpcTable.lt_next hentry).right
    lia
  made := by
    intro _
    refine ⟨by lia, hmissing, ?_⟩
    intro e' hentry'
    rw [hentries, Function.update_self] at hentry'
    injection hentry' with hentry'
    rw [← hentry']
    exact hvalue

theorem setOpened_found {object : SemaphoreSet} {e : IpcEntry SemaphoreSet}
    (hnext : t'.next = t.next)
    (hentries : t'.entries = Function.update t.entries semid (some ⟨r.key, object⟩))
    (hentry : t.entries semid = some e) (hkey : e.key = r.key) (hne : r.key ≠ 0)
    (hoperated : e.object.operated = true)
    (hvalue : object.value = r.value <-> e.object.value = 1) :
    SetOpened r semid t t' where
  other := fun j hj => by rw [hentries, Function.update_of_ne hj]
  next := Nat.le_of_eq hnext.symm
  filled := IpcTable.filled_of_next hnext
  entry := ⟨_, by rw [hentries, Function.update_self], rfl⟩
  found := by
    intro e0 hentry0
    rw [hentry] at hentry0
    injection hentry0 with heq
    subst heq
    refine ⟨hkey, hne, hoperated, ?_⟩
    intro e' hentry'
    rw [hentries, Function.update_self] at hentry'
    injection hentry' with hentry'
    rw [← hentry']
    exact hvalue
  made := by
    intro hnone
    rw [hentry] at hnone
    cases hnone

theorem openOne_untaken {key : Int} : openOne t ⟨key, false⟩ = openSet t key := by
  unfold openOne
  cases openSet t key with
  | none => rfl
  | some result => rfl

theorem openOne_taken {key : Int} : openOne t ⟨key, true⟩ = some (semid, t') <->
    exists t1, openSet t key = some (semid, t1) ∧ takeSet t1 semid = some t' := by
  unfold openOne
  constructor
  · intro h
    split at h
    · cases h
    · rename_i id t1 hopen
      rw [if_pos rfl] at h
      rcases Option.map_eq_some_iff.mp h with ⟨t2, htake, heq⟩
      injection heq with hid ht
      subst hid ht
      exact ⟨t1, hopen, htake⟩
  · intro hparts
    rcases hparts with ⟨t1, hopen, htake⟩
    simp only [hopen, htake]
    rfl

theorem openOne_opened (h : openOne t r = some (semid, t')) :
    SetOpened r semid t t' := by
  unfold openOne at h
  split at h
  · cases h
  · rename_i id t1 hopen
    split at h
    · rename_i htaken
      have hzero : r.value = 0 := if_pos htaken
      rcases Option.map_eq_some_iff.mp h with ⟨t2, htake, heq⟩
      injection heq with hid ht
      subst hid ht
      rcases openSet_cases hopen with
        ⟨hid, hnext, hmissing, hentries⟩ | ⟨hne, rfl, e, hentry, hkey, hoperated⟩
      · have hentry1 : t1.entries id =
            some ⟨r.key, { value := 1, operated := true }⟩ := by
          rw [hentries, Function.update_self]
        rcases takeSet_cases hentry1 htake with ⟨_, hnext2, hentries2⟩
        rw [hentries, Function.update_idem] at hentries2
        exact setOpened_made (by lia) hentries2 hid hzero.symm hmissing
      · rcases takeSet_cases hentry htake with ⟨hvalue, hnext2, hentries2⟩
        rw [hkey] at hentries2
        refine setOpened_found (by lia) hentries2 hentry hkey hne hoperated ?_
        show e.object.value - 1 = r.value <-> _
        lia
    · rename_i htaken
      have hone : r.value = 1 := if_neg htaken
      injection h with h
      injection h with hid ht
      subst hid ht
      rcases openSet_cases hopen with
        ⟨hid, hnext, hmissing, hentries⟩ | ⟨hne, rfl, e, hentry, hkey, hoperated⟩
      · exact setOpened_made (by lia) hentries hid hone.symm hmissing
      · have hentries : t1.entries =
            Function.update t1.entries id (some ⟨r.key, e.object⟩) := by
          rw [← hkey, ← hentry, Function.update_eq_self]
        refine setOpened_found rfl hentries hentry hkey hne hoperated ?_
        rw [hone]

theorem SetOpened.id_eq (h : SetOpened r semid t t') (hne : r.key ≠ 0) {id : Int}
    {e : IpcEntry SemaphoreSet} (hentry : t.entries id = some e) (hkey : e.key = r.key) :
    id = semid := by
  cases hfirst : t.entries semid with
  | none => exact absurd ((h.made hfirst).right.left id e hentry hkey) hne
  | some e0 =>
      have hkey0 := (h.found e0 hfirst).left
      exact t.unique id semid e e0 hentry hfirst (hkey.trans hkey0.symm)
        (by rw [hkey]; exact hne)

theorem exists_openOne
    (hready : r.key ≠ 0 -> forall id e, t.entries id = some e -> e.key = r.key ->
      e.object.operated = true ∧ e.object.value = 1) :
    exists semid t', openOne t r = some (semid, t') := by
  have hopen : exists semid t1 e, openSet t r.key = some (semid, t1) ∧
      t1.entries semid = some e ∧ e.object.value = 1 := by
    cases hresult : openSet t r.key with
    | some result =>
        rcases openSet_cases (h := hresult) with
          ⟨_, _, _, hentries⟩ | ⟨hne, ht, e, hentry, hkey, _⟩
        · exact ⟨result.1, result.2, _, rfl, by rw [hentries, Function.update_self], rfl⟩
        · refine ⟨result.1, result.2, e, rfl, ?_, (hready hne _ e hentry hkey).right⟩
          rw [ht]
          exact hentry
    | none =>
        unfold openSet at hresult
        split at hresult
        · cases hresult
        · rename_i id hfind
          rcases IpcTable.find_eq_some hfind with ⟨hne, e, hentry, hkey⟩
          rw [hentry] at hresult
          simp [(hready hne id e hentry hkey).left] at hresult
  rcases hopen with ⟨semid, t1, e, hopen, hentry, hvalue⟩
  unfold openOne
  rw [hopen]
  by_cases htaken : r.taken = true
  · refine ⟨semid, t1.modify semid fun s =>
      { value := s.value - 1, operated := true }, ?_⟩
    simp only [if_pos htaken, takeSet, hentry, hvalue]
    rfl
  · exact ⟨semid, t1, by simp only [if_neg htaken]⟩

end One

/-!
# One semaphore after the other
-/

def FirstValues (t : IpcTable SemaphoreSet) : List SetRequest -> List Int -> Prop :=
  List.Forall₂ fun r semid =>
    exists e, t.entries semid = some e ∧ e.object.value = r.value

/-- No key but zero is used twice, and the sets that the keys find are as good as
new. -/
structure KeysFree (rs : List SetRequest) (t : IpcTable SemaphoreSet) : Prop where
  distinct : rs.Pairwise fun r r' => r.key = r'.key -> r.key = 0
  ready : forall r, r ∈ rs -> r.key ≠ 0 -> forall id e, t.entries id = some e ->
    e.key = r.key -> e.object.operated = true ∧ e.object.value = 1

section All

variable {rs : List SetRequest} {r : SetRequest} {t t' : IpcTable SemaphoreSet}
  {ids : List Int}

theorem openAll_cons : openAll (r :: rs) t = some (ids, t') <->
    exists semid t1 rest, openOne t r = some (semid, t1) ∧
      openAll rs t1 = some (rest, t') ∧ ids = semid :: rest := by
  constructor
  · intro h
    simp only [openAll] at h
    split at h
    · cases h
    · rename_i semid t1 hone
      rcases Option.map_eq_some_iff.mp h with ⟨⟨rest, t2⟩, hrest, heq⟩
      injection heq with hids ht
      subst hids ht
      exact ⟨semid, t1, rest, hone, hrest, rfl⟩
  · intro hparts
    rcases hparts with ⟨semid, t1, rest, hone, hrest, rfl⟩
    simp only [openAll, hone, hrest]
    rfl

theorem openAll_next (h : openAll rs t = some (ids, t')) : t.next ≤ t'.next := by
  induction rs generalizing t ids with
  | nil =>
      cases h
      exact Nat.le_refl _
  | cons r rs ih =>
      rcases openAll_cons.mp h with ⟨semid, t1, rest, hone, hrest, _⟩
      exact Nat.le_trans (openOne_opened hone).next (ih hrest)

theorem openAll_other (h : openAll rs t = some (ids, t')) {j : Int} (hj : j ∉ ids) :
    t'.entries j = t.entries j := by
  induction rs generalizing t ids with
  | nil =>
      cases h
      rfl
  | cons r rs ih =>
      rcases openAll_cons.mp h with ⟨semid, t1, rest, hone, hrest, rfl⟩
      rw [List.mem_cons, not_or] at hj
      rw [ih hrest hj.right, (openOne_opened hone).other j hj.left]

theorem openAll_mem (h : openAll rs t = some (ids, t')) {semid : Int}
    (hmem : semid ∈ ids) : (t.next : Int) ≤ semid ∨
      exists r e, r ∈ rs ∧ r.key ≠ 0 ∧ t.entries semid = some e ∧ e.key = r.key := by
  induction rs generalizing t ids with
  | nil =>
      cases h
      cases hmem
  | cons r rs ih =>
      rcases openAll_cons.mp h with ⟨first, t1, rest, hone, hrest, rfl⟩
      have hopened := openOne_opened hone
      have hfirst : (t.next : Int) ≤ first ∨
          exists r' e, r' ∈ r :: rs ∧ r'.key ≠ 0 ∧ t.entries first = some e ∧
            e.key = r'.key := by
        cases hentry : t.entries first with
        | none => exact Or.inl (hopened.made hentry).left
        | some e =>
            rcases hopened.found e hentry with ⟨hkey, hne, _⟩
            exact Or.inr ⟨r, e, List.mem_cons_self, hne, rfl, hkey⟩
      rcases List.mem_cons.mp hmem with rfl | hlater
      · exact hfirst
      · by_cases hsame : semid = first
        · rw [hsame]
          exact hfirst
        · rcases ih hrest hlater with hnew | ⟨r', e, hr', hne, hentry, hkey⟩
          · have hnext := hopened.next
            left
            lia
          · rw [hopened.other semid hsame] at hentry
            exact Or.inr ⟨r', e, List.mem_cons_of_mem r hr', hne, hentry, hkey⟩

theorem openAll_entry (h : openAll rs t = some (ids, t')) {semid : Int}
    (hmem : semid ∈ ids) :
    exists r e, r ∈ rs ∧ t'.entries semid = some e ∧ e.key = r.key := by
  induction rs generalizing t ids with
  | nil =>
      cases h
      cases hmem
  | cons r rs ih =>
      rcases openAll_cons.mp h with ⟨first, t1, rest, hone, hrest, rfl⟩
      by_cases hlater : semid ∈ rest
      · rcases ih hrest hlater with ⟨r', e, hr', hentry, hkey⟩
        exact ⟨r', e, List.mem_cons_of_mem r hr', hentry, hkey⟩
      · rcases List.mem_cons.mp hmem with hfirst | hmem
        · rcases (openOne_opened hone).entry with ⟨e, hentry, hkey⟩
          refine ⟨r, e, List.mem_cons_self, ?_, hkey⟩
          rw [openAll_other hrest hlater, hfirst]
          exact hentry
        · exact absurd hmem hlater

theorem openAll_kept (h : openAll rs t = some (ids, t')) {j : Int}
    (hentry : t.entries j ≠ none) : t'.entries j ≠ none := by
  by_cases hj : j ∈ ids
  · rcases openAll_entry h hj with ⟨r, e, _, he, _⟩
    rw [he]
    exact Option.some_ne_none e
  · rw [openAll_other h hj]
    exact hentry

theorem openAll_filled (h : openAll rs t = some (ids, t')) : IpcTable.Filled t t' := by
  induction rs generalizing t ids with
  | nil =>
      cases h
      exact IpcTable.filled_of_next rfl
  | cons r rs ih =>
      rcases openAll_cons.mp h with ⟨first, t1, rest, hone, hrest, rfl⟩
      exact (openOne_opened hone).filled.trans (ih hrest) fun _ => openAll_kept hrest

theorem openAll_finds (h : openAll rs t = some (ids, t')) (hr : r ∈ rs)
    (hne : r.key ≠ 0) {id : Int} {e : IpcEntry SemaphoreSet}
    (hentry : t.entries id = some e) (hkey : e.key = r.key) : id ∈ ids := by
  induction rs generalizing t ids e with
  | nil => cases hr
  | cons r0 rs ih =>
      rcases openAll_cons.mp h with ⟨first, t1, rest, hone, hrest, rfl⟩
      have hopened := openOne_opened hone
      by_cases hid : id = first
      · rw [hid]
        exact List.mem_cons_self
      · rcases List.mem_cons.mp hr with rfl | hlater
        · exact absurd (hopened.id_eq hne hentry hkey) hid
        · apply List.mem_cons_of_mem
          apply ih hrest hlater _ hkey
          rw [hopened.other id hid]
          exact hentry

theorem KeysFree.tail (h : KeysFree (r :: rs) t) {semid : Int}
    {t1 : IpcTable SemaphoreSet} (hopened : SetOpened r semid t t1) : KeysFree rs t1 where
  distinct := (List.pairwise_cons.mp h.distinct).right
  ready := by
    intro r' hr' hne id e hentry hkey
    have hid : id ≠ semid := by
      intro heq
      rcases hopened.entry with ⟨e1, hentry1, hkey1⟩
      rw [heq, hentry1] at hentry
      injection hentry with hsame
      have hclash : r.key = r'.key := by rw [← hkey1, hsame, hkey]
      have hzero := (List.pairwise_cons.mp h.distinct).left r' hr' hclash
      rw [← hclash] at hne
      exact hne hzero
    rw [hopened.other id hid] at hentry
    exact h.ready r' (List.mem_cons_of_mem r hr') hne id e hentry hkey

theorem KeysFree.head_not_mem (h : KeysFree (r :: rs) t) {semid : Int}
    {t1 : IpcTable SemaphoreSet} (hopened : SetOpened r semid t t1) {rest : List Int}
    (hrest : openAll rs t1 = some (rest, t')) : semid ∉ rest := by
  intro hmem
  rcases hopened.entry with ⟨e1, hentry1, hkey1⟩
  rcases openAll_mem hrest hmem with hnew | ⟨r', e, hr', hne, hentry, hkey⟩
  · have hlt := (IpcTable.lt_next hentry1).right
    lia
  · rw [hentry1] at hentry
    injection hentry with hsame
    have hclash : r.key = r'.key := by rw [← hkey1, hsame, hkey]
    have hzero := (List.pairwise_cons.mp h.distinct).left r' hr' hclash
    rw [← hclash] at hne
    exact hne hzero

/-- What the first step leaves at its set is there at the end. -/
theorem value_of_opened {semid : Int} {t1 : IpcTable SemaphoreSet}
    (hopened : SetOpened r semid t t1) {rest : List Int}
    (hrest : openAll rs t1 = some (rest, t')) (hmem : semid ∉ rest)
    {e : IpcEntry SemaphoreSet} (hentry : t.entries semid = some e) :
    (exists e', t'.entries semid = some e' ∧ e'.object.value = r.value) <->
      e.object.value = 1 := by
  have hkept := openAll_other hrest hmem
  rcases hopened.entry with ⟨e1, hentry1, _⟩
  have hvalue := (hopened.found e hentry).right.right.right e1 hentry1
  rw [hkept, hentry1]
  constructor
  · intro hparts
    rcases hparts with ⟨e', he', hsame⟩
    injection he' with he'
    rw [← he'] at hsame
    exact hvalue.mp hsame
  · intro hone
    exact ⟨e1, rfl, hvalue.mpr hone⟩

theorem exists_openAll (h : KeysFree rs t) :
    exists ids t', openAll rs t = some (ids, t') ∧ ids.Nodup ∧ FirstValues t' rs ids := by
  induction rs generalizing t with
  | nil => exact ⟨[], t, rfl, List.nodup_nil, List.Forall₂.nil⟩
  | cons r rs ih =>
      rcases exists_openOne (h.ready r List.mem_cons_self) with ⟨semid, t1, hone⟩
      have hopened := openOne_opened hone
      rcases ih (h.tail hopened) with ⟨rest, t', hrest, hnodup, hvalues⟩
      have hmem := h.head_not_mem hopened hrest
      refine ⟨semid :: rest, t', openAll_cons.mpr ⟨semid, t1, rest, hone, hrest, rfl⟩,
        List.nodup_cons.mpr ⟨hmem, hnodup⟩, List.Forall₂.cons ?_ hvalues⟩
      cases hentry : t.entries semid with
      | none =>
          rcases hopened.entry with ⟨e1, hentry1, _⟩
          rw [openAll_other hrest hmem, hentry1]
          exact ⟨e1, rfl, (hopened.made hentry).right.right e1 hentry1⟩
      | some e =>
          rcases hopened.found e hentry with ⟨hkey, hne, _⟩
          exact (value_of_opened hopened hrest hmem hentry).mpr
            (h.ready r List.mem_cons_self hne semid e hentry hkey).right

theorem keysFree_of_openAll (h : openAll rs t = some (ids, t')) (hnodup : ids.Nodup)
    (hvalues : FirstValues t' rs ids) : KeysFree rs t := by
  induction rs generalizing t ids with
  | nil => exact ⟨List.Pairwise.nil, fun _ hr => absurd hr List.not_mem_nil⟩
  | cons r rs ih =>
      rcases openAll_cons.mp h with ⟨semid, t1, rest, hone, hrest, rfl⟩
      rcases List.nodup_cons.mp hnodup with ⟨hmem, hrestNodup⟩
      rcases List.forall₂_cons.mp hvalues with ⟨hvalue, hrestValues⟩
      have hopened := openOne_opened hone
      have hfree := ih hrest hrestNodup hrestValues
      rcases hopened.entry with ⟨e1, hentry1, hkey1⟩
      have hclash : forall r', r' ∈ rs -> r.key = r'.key -> r.key = 0 := by
        intro r' hr' hsame
        by_contra hne
        apply hmem
        apply openAll_finds hrest hr' _ hentry1
        · rw [hkey1, hsame]
        · rw [← hsame]
          exact hne
      constructor
      · exact List.pairwise_cons.mpr ⟨hclash, hfree.distinct⟩
      · intro r' hr' hne id e hentry hkey
        by_cases hid : id = semid
        · rw [hid] at hentry
          rcases hopened.found e hentry with ⟨_, _, hoperated, _⟩
          exact ⟨hoperated, (value_of_opened hopened hrest hmem hentry).mp hvalue⟩
        · rcases List.mem_cons.mp hr' with rfl | hlater
          · exact absurd (hopened.id_eq hne hentry hkey) hid
          · apply hfree.ready r' hlater hne id e _ hkey
            rw [hopened.other id hid]
            exact hentry

theorem openAll_append {rs' : List SetRequest} :
    openAll (rs ++ rs') t = some (ids, t') <->
      exists t1 first second, openAll rs t = some (first, t1) ∧
        openAll rs' t1 = some (second, t') ∧ ids = first ++ second := by
  induction rs generalizing t ids with
  | nil =>
      constructor
      · intro h
        exact ⟨t, [], ids, rfl, h, rfl⟩
      · intro hparts
        rcases hparts with ⟨t1, first, second, hfirst, hsecond, rfl⟩
        cases hfirst
        exact hsecond
  | cons r rs ih =>
      rw [List.cons_append]
      constructor
      · intro h
        rcases openAll_cons.mp h with ⟨semid, t1, rest, hone, hrest, rfl⟩
        rcases ih.mp hrest with ⟨t2, first, second, hfirst, hsecond, rfl⟩
        exact ⟨t2, semid :: first, second,
          openAll_cons.mpr ⟨semid, t1, first, hone, hfirst, rfl⟩, hsecond, rfl⟩
      · intro hall
        rcases hall with ⟨t2, first, second, hfirst, hsecond, rfl⟩
        rcases openAll_cons.mp hfirst with ⟨semid, t1, rest, hone, hrest, rfl⟩
        exact openAll_cons.mpr ⟨semid, t1, rest ++ second, hone,
          ih.mpr ⟨t2, rest, second, hrest, hsecond, rfl⟩, rfl⟩

end All

/-!
# The calls
-/

section Calls

variable {k k' : Kernel} {key semid : Int}

theorem semPost_returns {e : IpcEntry SemaphoreSet}
    (hentry : k.semaphores.entries semid = some e) :
    Returns (semPost semid) k 0 { k with
      semaphores := k.semaphores.modify semid fun s =>
        { value := s.value + 1, operated := true } } := by
  apply returns_get_bind.mpr
  rw [hentry]
  exact returns_set_bind.mpr (returns_pure.mpr ⟨rfl, rfl⟩)

theorem openSet_of_none {t : IpcTable SemaphoreSet} (hfind : t.find key = none) :
    openSet t key = some ((t.next : Int),
      (t.insert key { value := 0, operated := false } hfind).modify t.next fun s =>
        { value := s.value + 1, operated := true }) := by
  unfold openSet
  split
  · rfl
  · rename_i hsome
    rw [hfind] at hsome
    cases hsome

theorem openSet_of_some {t : IpcTable SemaphoreSet} {e : IpcEntry SemaphoreSet}
    (hfind : t.find key = some semid) (hentry : t.entries semid = some e) :
    openSet t key = if e.object.operated then some (semid, t) else none := by
  unfold openSet
  split
  · rename_i hnone
    rw [hfind] at hnone
    cases hnone
  · rename_i id hsome
    rw [hfind] at hsome
    injection hsome with hsame
    rw [← hsame, hentry]

theorem returns_initsem (hid : semid ≠ -1) :
    Returns (initsem key) k semid k' <->
      exists t, openSet k.semaphores key = some (semid, t) ∧
        k' = { k with semaphores := t } := by
  unfold initsem
  rw [returns_get_bind]
  split
  · rename_i hfind
    let inserted := k.semaphores.insert key { value := 0, operated := false } hfind
    have hpost : Returns (semPost k.semaphores.next) { k with semaphores := inserted }
        0 { k with semaphores := inserted.modify k.semaphores.next fun s =>
          { value := s.value + 1, operated := true } } :=
      semPost_returns (IpcTable.insert_self k.semaphores hfind)
    rw [openSet_of_none hfind, returns_set_bind, returns_bind]
    constructor
    · intro hparts
      rcases hparts with ⟨posted, k1, hposted, hrest⟩
      rcases hpost.unique hposted with ⟨hzero, hk⟩
      rw [← hzero, if_neg (by lia)] at hrest
      rcases returns_pure.mp hrest with ⟨hsemid, hk'⟩
      rw [hsemid, hk', ← hk]
      exact ⟨_, rfl, rfl⟩
    · intro hall
      rcases hall with ⟨t, heq, hk'⟩
      injection heq with heq
      injection heq with hsemid ht
      subst hsemid ht hk'
      refine ⟨0, _, hpost, ?_⟩
      rw [if_neg (by lia)]
      exact returns_pure.mpr ⟨rfl, rfl⟩
  · rename_i id hfind
    rcases IpcTable.find_eq_some hfind with ⟨_, e, hentry, _⟩
    rw [openSet_of_some hfind hentry, hentry]
    dsimp only
    split
    · rw [returns_pure]
      constructor
      · intro hboth
        rcases hboth with ⟨rfl, rfl⟩
        exact ⟨_, rfl, rfl⟩
      · intro hgiven
        rcases hgiven with ⟨t, heq, rfl⟩
        injection heq with heq
        injection heq with hsemid ht
        subst hsemid ht
        exact ⟨rfl, rfl⟩
    · rw [returns_pure]
      constructor
      · rintro ⟨heq, _⟩
        exact absurd heq hid
      · rintro ⟨t, heq, _⟩
        cases heq

theorem returns_semWait {e : IpcEntry SemaphoreSet} {ret : Int}
    (hentry : k.semaphores.entries semid = some e) :
    Returns (semWait semid) k ret k' <->
      exists t, takeSet k.semaphores semid = some t ∧ ret = 0 ∧
        k' = { k with semaphores := t } := by
  unfold semWait takeSet
  rw [returns_get_bind, hentry]
  dsimp only
  split
  · constructor
    · intro h
      exact absurd h not_returns_throw
    · intro hparts
      rcases hparts with ⟨t, heq, _⟩
      cases heq
  · rw [returns_set_bind, returns_pure]
    constructor
    · intro hboth
      rcases hboth with ⟨rfl, rfl⟩
      exact ⟨_, rfl, rfl, rfl⟩
    · intro hall
      rcases hall with ⟨t, heq, rfl, rfl⟩
      injection heq with heq
      subst heq
      exact ⟨rfl, rfl⟩

theorem openSet_ne {t t' : IpcTable SemaphoreSet} (h : openSet t key = some (semid, t')) :
    semid ≠ -1 ∧ exists e, t'.entries semid = some e := by
  have hentry : exists e, t'.entries semid = some e := by
    rcases openSet_cases h with ⟨_, _, _, hentries⟩ | ⟨_, ht, e, hentry, _⟩
    · rw [hentries, Function.update_self]
      exact ⟨_, rfl⟩
    · rw [ht]
      exact ⟨e, hentry⟩
  rcases hentry with ⟨e, hentry⟩
  have hlow := (IpcTable.lt_next hentry).left
  exact ⟨by lia, e, hentry⟩

end Calls

end Os
end Notnets
