import Mathlib.Data.List.Basic
import Mathlib.Logic.Function.Basic

/-!
# Tables of System V IPC objects

An object is named by an identifier and found by a key.  No two objects have the
same key, apart from private objects, whose key is zero and which no lookup
finds.  Identifiers are not given out twice.
-/

namespace Notnets
namespace Foundation

universe u

structure IpcEntry (α : Type u) where
  key : Int
  object : α

structure IpcTable (α : Type u) where
  entries : Int -> Option (IpcEntry α)
  next : Nat
  fresh : forall id, id < 0 ∨ (next : Int) ≤ id -> entries id = none
  unique : forall i j a b, entries i = some a -> entries j = some b ->
    a.key = b.key -> a.key ≠ 0 -> i = j

namespace IpcTable

variable {α : Type u}

def empty : IpcTable α where
  entries := fun _ => none
  next := 0
  fresh := fun _ _ => rfl
  unique := by
    intro i j a b ha
    cases ha

def hasKey (t : IpcTable α) (key : Int) (id : Nat) : Bool :=
  match t.entries id with
  | some e => e.key == key
  | none => false

def find (t : IpcTable α) (key : Int) : Option Int :=
  if key = 0 then
    none
  else
    ((List.range t.next).find? (t.hasKey key)).map Int.ofNat

theorem lt_next {t : IpcTable α} {id : Int} {e : IpcEntry α}
    (h : t.entries id = some e) : 0 ≤ id ∧ id < t.next := by
  constructor
  · by_contra hlow
    rw [t.fresh id (Or.inl (by lia))] at h
    cases h
  · by_contra hhigh
    rw [t.fresh id (Or.inr (by lia))] at h
    cases h

theorem find_eq_some {t : IpcTable α} {key id : Int} (h : t.find key = some id) :
    key ≠ 0 ∧ exists e, t.entries id = some e ∧ e.key = key := by
  unfold find at h
  split at h
  · cases h
  · rename_i hkey
    rcases Option.map_eq_some_iff.mp h with ⟨n, hfind, hid⟩
    have hmatch := List.find?_some hfind
    refine ⟨hkey, ?_⟩
    rw [← hid]
    show exists e, t.entries (n : Int) = some e ∧ e.key = key
    unfold hasKey at hmatch
    cases hentry : t.entries (n : Int) with
    | none =>
        rw [hentry] at hmatch
        cases hmatch
    | some e =>
        rw [hentry] at hmatch
        exact ⟨e, rfl, by simpa using hmatch⟩

theorem find_eq_none {t : IpcTable α} {key : Int} (h : t.find key = none)
    (hkey : key ≠ 0) {id : Int} {e : IpcEntry α} (hentry : t.entries id = some e) :
    e.key ≠ key := by
  intro heq
  unfold find at h
  rw [if_neg hkey, Option.map_eq_none_iff, List.find?_eq_none] at h
  rcases lt_next hentry with ⟨hlow, hhigh⟩
  have hnat : ((id.toNat : Nat) : Int) = id := Int.toNat_of_nonneg hlow
  have hno := h id.toNat (List.mem_range.mpr (by lia))
  unfold hasKey at hno
  rw [hnat, hentry] at hno
  exact hno (by simpa using heq)

theorem find_of_entry {t : IpcTable α} {id : Int} {e : IpcEntry α}
    (hentry : t.entries id = some e) (hkey : e.key ≠ 0) :
    t.find e.key = some id := by
  cases hfind : t.find e.key with
  | none => exact absurd rfl (find_eq_none hfind hkey hentry)
  | some id' =>
      rcases (find_eq_some hfind).right with ⟨e', hentry', hsame⟩
      rw [t.unique id' id e' e hentry' hentry hsame (by rw [hsame]; exact hkey)]

/-!
# Changes
-/

def insert (t : IpcTable α) (key : Int) (object : α) (hfree : t.find key = none) :
    IpcTable α where
  entries := Function.update t.entries t.next (some ⟨key, object⟩)
  next := t.next + 1
  fresh := by
    intro id hid
    rw [Function.update_of_ne (by lia)]
    apply t.fresh
    lia
  unique := by
    have hnew : forall i a, Function.update t.entries t.next (some ⟨key, object⟩) i =
        some a -> (i = t.next ∧ a.key = key) ∨ (i ≠ t.next ∧ t.entries i = some a) := by
      intro i a ha
      by_cases hi : i = (t.next : Int)
      · rw [hi, Function.update_self] at ha
        injection ha with ha
        rw [← ha]
        exact Or.inl ⟨hi, rfl⟩
      · rw [Function.update_of_ne hi] at ha
        exact Or.inr ⟨hi, ha⟩
    intro i j a b ha hb hsame hkey
    rcases hnew i a ha with ⟨hi, hakey⟩ | ⟨_, ha⟩
    · rcases hnew j b hb with ⟨hj, _⟩ | ⟨_, hb⟩
      · rw [hi, hj]
      · rw [hakey] at hsame hkey
        exact absurd hsame.symm (find_eq_none hfree hkey hb)
    · rcases hnew j b hb with ⟨hj, hbkey⟩ | ⟨_, hb⟩
      · rw [hbkey] at hsame
        rw [hsame] at hkey
        exact absurd hsame (find_eq_none hfree hkey ha)
      · exact t.unique i j a b ha hb hsame hkey

def modify (t : IpcTable α) (id : Int) (f : α -> α) : IpcTable α where
  entries := fun j =>
    if j = id then (t.entries j).map fun e => { e with object := f e.object }
    else t.entries j
  next := t.next
  fresh := by
    intro j hj
    rw [t.fresh j hj]
    split
    · rfl
    · rfl
  unique := by
    have hold : forall i a, (if i = id then (t.entries i).map fun e =>
        { e with object := f e.object } else t.entries i) = some a ->
        exists a', t.entries i = some a' ∧ a'.key = a.key := by
      intro i a ha
      split at ha
      · rcases Option.map_eq_some_iff.mp ha with ⟨a', ha', heq⟩
        rw [← heq]
        exact ⟨a', ha', rfl⟩
      · exact ⟨a, ha, rfl⟩
    intro i j a b ha hb hsame hkey
    rcases hold i a ha with ⟨a', ha', hakey⟩
    rcases hold j b hb with ⟨b', hb', hbkey⟩
    exact t.unique i j a' b' ha' hb' (by rw [hakey, hbkey, hsame])
      (by rw [hakey]; exact hkey)

def remove (t : IpcTable α) (id : Int) : IpcTable α where
  entries := Function.update t.entries id none
  next := t.next
  fresh := by
    intro j hj
    by_cases heq : j = id
    · rw [heq, Function.update_self]
    · rw [Function.update_of_ne heq]
      exact t.fresh j hj
  unique := by
    have hold : forall i a, Function.update t.entries id none i = some a ->
        t.entries i = some a := by
      intro i a ha
      by_cases heq : i = id
      · rw [heq, Function.update_self] at ha
        cases ha
      · rw [Function.update_of_ne heq] at ha
        exact ha
    intro i j a b ha hb hsame hkey
    exact t.unique i j a b (hold i a ha) (hold j b hb) hsame hkey

section Changes

variable (t : IpcTable α) (id : Int)

theorem insert_self {key : Int} {object : α} (hfree : t.find key = none) :
    (t.insert key object hfree).entries t.next = some ⟨key, object⟩ :=
  Function.update_self _ _ _

theorem insert_of_ne {key : Int} {object : α} (hfree : t.find key = none)
    (hne : id ≠ t.next) :
    (t.insert key object hfree).entries id = t.entries id :=
  Function.update_of_ne hne _ _

theorem insert_entry {key : Int} {object : α} {hfree : t.find key = none} {j : Int}
    {e : IpcEntry α} (h : (t.insert key object hfree).entries j = some e) :
    (j = t.next ∧ e = ⟨key, object⟩) ∨ t.entries j = some e := by
  by_cases hj : j = t.next
  · rw [hj, insert_self] at h
    injection h with h
    exact Or.inl ⟨hj, h.symm⟩
  · rw [insert_of_ne t j hfree hj] at h
    exact Or.inr h

theorem modify_of_ne {f : α -> α} {other : Int} (hne : other ≠ id) :
    (t.modify id f).entries other = t.entries other :=
  if_neg hne

theorem modify_at {f : α -> α} :
    (t.modify id f).entries id =
      (t.entries id).map fun e => { e with object := f e.object } :=
  if_pos rfl

theorem modify_self {f : α -> α} {e : IpcEntry α} (h : t.entries id = some e) :
    (t.modify id f).entries id = some { e with object := f e.object } := by
  rw [modify_at, h]
  rfl

theorem modify_entry {f : α -> α} {j : Int} {e : IpcEntry α}
    (h : (t.modify id f).entries j = some e) :
    exists before, t.entries j = some before ∧ e.key = before.key ∧
      e.object = if j = id then f before.object else before.object := by
  by_cases hj : j = id
  · subst hj
    rw [modify_at] at h
    rcases Option.map_eq_some_iff.mp h with ⟨before, hbefore, heq⟩
    refine ⟨before, hbefore, ?_, ?_⟩
    · rw [← heq]
    · rw [← heq, if_pos rfl]
  · rw [modify_of_ne t id hj] at h
    exact ⟨e, h, rfl, (if_neg hj).symm⟩

@[simp] theorem remove_self : (t.remove id).entries id = none :=
  Function.update_self _ _ _

theorem remove_of_ne {other : Int} (hne : other ≠ id) :
    (t.remove id).entries other = t.entries other :=
  Function.update_of_ne hne _ _

end Changes

/-!
# What changes between two tables
-/

structure Opened (key id : Int) (before after : IpcTable α) : Prop where
  entry : exists e, after.entries id = some e ∧ e.key = key
  other : forall j, j ≠ id -> after.entries j = before.entries j
  old : forall e, before.entries id = some e -> after.entries id = some e ∧ key ≠ 0
  new : before.entries id = none -> (before.next : Int) ≤ id
  next : before.next ≤ after.next

structure Touched (id : Int) (before after : IpcTable α) : Prop where
  other : forall j, j ≠ id -> after.entries j = before.entries j
  same : (after.entries id).map IpcEntry.key = (before.entries id).map IpcEntry.key
  next : after.next = before.next

theorem opened_find {t : IpcTable α} {key id : Int} (h : t.find key = some id) :
    Opened key id t t where
  entry := (find_eq_some h).right
  other := fun _ _ => rfl
  old := fun _ he => ⟨he, (find_eq_some h).left⟩
  new := by
    intro hnone
    rcases (find_eq_some h).right with ⟨e, he, _⟩
    rw [hnone] at he
    cases he
  next := Nat.le_refl _

theorem opened_insert {t : IpcTable α} {key : Int} {object : α}
    (hfree : t.find key = none) :
    Opened key t.next t (t.insert key object hfree) where
  entry := ⟨_, insert_self t hfree, rfl⟩
  other := fun j hne => insert_of_ne t j hfree hne
  old := by
    intro e he
    have hlt := (lt_next he).right
    lia
  new := fun _ => by lia
  next := Nat.le_succ _

theorem Touched.trans {id : Int} {t t' t'' : IpcTable α} (h : Touched id t t')
    (h' : Touched id t' t'') : Touched id t t'' where
  other := fun j hne => (h'.other j hne).trans (h.other j hne)
  same := h'.same.trans h.same
  next := h'.next.trans h.next

theorem touched_modify (t : IpcTable α) (id : Int) (f : α -> α) :
    Touched id t (t.modify id f) where
  other := fun _ hne => modify_of_ne t id hne
  same := by
    rw [modify_at, Option.map_map]
    rfl
  next := rfl

theorem Touched.entry {id : Int} {t t' : IpcTable α} (h : Touched id t t')
    {j : Int} {e : IpcEntry α} (he : t.entries j = some e) :
    exists e', t'.entries j = some e' ∧ e'.key = e.key := by
  by_cases hj : j = id
  · subst hj
    have hsame := h.same
    rw [he] at hsame
    rcases Option.map_eq_some_iff.mp hsame with ⟨e', he', hkey⟩
    exact ⟨e', he', hkey⟩
  · exact ⟨e, by rw [h.other j hj]; exact he, rfl⟩

/-!
# The account of removals
-/

def Filled (before after : IpcTable α) : Prop :=
  forall id, (before.next : Int) ≤ id -> id < after.next -> after.entries id ≠ none

structure Balanced (t : IpcTable α) (removed : List Int) : Prop where
  once : removed.Nodup
  gone : forall id, id ∈ removed <-> 0 ≤ id ∧ id < t.next ∧ t.entries id = none

def removeAll (t : IpcTable α) : List Int -> IpcTable α
  | [] => t
  | id :: ids => (t.remove id).removeAll ids

section Account

variable {t t' t'' : IpcTable α} {removed ids : List Int} {id : Int}

theorem filled_of_next (h : t'.next = t.next) : Filled t t' := by
  intro id hlow hhigh
  lia

theorem Filled.trans (h : Filled t t') (h' : Filled t' t'')
    (hkept : forall id, t'.entries id ≠ none -> t''.entries id ≠ none) :
    Filled t t'' := by
  intro id hlow hhigh
  by_cases hmid : id < t'.next
  · exact hkept id (h id hlow hmid)
  · exact h' id (by lia) hhigh

theorem Opened.kept {key : Int} (h : Opened key id t t') {j : Int}
    (hentry : t.entries j ≠ none) : t'.entries j ≠ none := by
  by_cases hj : j = id
  · rcases h.entry with ⟨e, he, _⟩
    rw [hj, he]
    exact Option.some_ne_none e
  · rw [h.other j hj]
    exact hentry

theorem Touched.kept (h : Touched id t t') {j : Int} (hentry : t.entries j ≠ none) :
    t'.entries j ≠ none := by
  rcases Option.ne_none_iff_exists'.mp hentry with ⟨e, he⟩
  rcases h.entry he with ⟨e', he', _⟩
  rw [he']
  exact Option.some_ne_none e'

theorem filled_insert {key : Int} {object : α} (hfree : t.find key = none) :
    Filled t (t.insert key object hfree) := by
  intro j hlow hhigh
  have hlast : j < (t.next + 1 : Nat) := hhigh
  have hj : j = t.next := by lia
  rw [hj, insert_self]
  exact Option.some_ne_none _

theorem Balanced.filled (h : Balanced t removed) (hnext : t.next ≤ t'.next)
    (hkept : forall j, t.entries j ≠ none -> t'.entries j ≠ none)
    (hgone : forall j : Int, j < t.next -> t.entries j = none -> t'.entries j = none)
    (hfilled : Filled t t') : Balanced t' removed where
  once := h.once
  gone := by
    intro j
    rw [h.gone]
    constructor
    · intro hparts
      rcases hparts with ⟨hlow, hhigh, hnone⟩
      exact ⟨hlow, by lia, hgone j hhigh hnone⟩
    · intro hall
      rcases hall with ⟨hlow, hhigh, hnone⟩
      have hbefore : j < t.next := by
        by_contra hnot
        exact hfilled j (by lia) hhigh hnone
      refine ⟨hlow, hbefore, ?_⟩
      by_contra hsome
      exact hkept j hsome hnone

theorem Balanced.remove (h : Balanced t removed) (hentry : t.entries id ≠ none) :
    Balanced (t.remove id) (removed ++ [id]) where
  once := by
    rw [List.nodup_append]
    refine ⟨h.once, by simp, ?_⟩
    intro a ha b hb hsame
    rw [List.mem_singleton] at hb
    rw [hsame, hb, h.gone] at ha
    exact hentry ha.right.right
  gone := by
    intro j
    rw [List.mem_append, List.mem_singleton, h.gone]
    by_cases hj : j = id
    · rcases Option.ne_none_iff_exists'.mp hentry with ⟨e, he⟩
      rcases lt_next he with ⟨hlow, hhigh⟩
      subst hj
      rw [remove_self]
      exact ⟨fun _ => ⟨hlow, hhigh, rfl⟩, fun _ => Or.inr rfl⟩
    · rw [remove_of_ne t id hj]
      constructor
      · intro hcases
        rcases hcases with hold | hsame
        · exact hold
        · exact absurd hsame hj
      · exact Or.inl

theorem removeAll_append {ids' : List Int} :
    t.removeAll (ids ++ ids') = (t.removeAll ids).removeAll ids' := by
  induction ids generalizing t with
  | nil => rfl
  | cons first rest ih => exact ih

theorem removeAll_of_none (h : t.entries id = none) :
    (t.removeAll ids).entries id = none := by
  induction ids generalizing t with
  | nil => exact h
  | cons first rest ih =>
      apply ih
      by_cases hid : id = first
      · rw [hid, remove_self]
      · rw [remove_of_ne t first hid]
        exact h

theorem removeAll_of_mem (h : id ∈ ids) : (t.removeAll ids).entries id = none := by
  induction ids generalizing t with
  | nil => cases h
  | cons first rest ih =>
      rcases List.mem_cons.mp h with heq | hlater
      · show ((t.remove first).removeAll rest).entries id = none
        apply removeAll_of_none
        rw [heq, remove_self]
      · exact ih hlater

theorem removeAll_of_not_mem (h : id ∉ ids) :
    (t.removeAll ids).entries id = t.entries id := by
  induction ids generalizing t with
  | nil => rfl
  | cons first rest ih =>
      rw [List.mem_cons, not_or] at h
      show ((t.remove first).removeAll rest).entries id = _
      rw [ih h.right, remove_of_ne t first h.left]

theorem removeAll_cases (id : Int) :
    (t.removeAll ids).entries id = t.entries id ∨ (t.removeAll ids).entries id = none := by
  cases Decidable.em (id ∈ ids) with
  | inl hmem => exact Or.inr (removeAll_of_mem hmem)
  | inr hnot => exact Or.inl (removeAll_of_not_mem hnot)

theorem removeAll_next : (t.removeAll ids).next = t.next := by
  induction ids generalizing t with
  | nil => rfl
  | cons first rest ih => exact ih

theorem Balanced.removeAll (h : Balanced t removed) (hnodup : ids.Nodup)
    (hall : forall id, id ∈ ids -> t.entries id ≠ none) :
    Balanced (t.removeAll ids) (removed ++ ids) := by
  induction ids generalizing t removed with
  | nil =>
      rw [List.append_nil]
      exact h
  | cons first rest ih =>
      rcases List.nodup_cons.mp hnodup with ⟨hfirst, hrest⟩
      have hremoved := h.remove (hall first List.mem_cons_self)
      have hlater : forall id, id ∈ rest -> (t.remove first).entries id ≠ none := by
        intro id hmem
        have hne : id ≠ first := by
          intro heq
          rw [heq] at hmem
          exact hfirst hmem
        rw [remove_of_ne t first hne]
        exact hall id (List.mem_cons_of_mem first hmem)
      have hall' := ih hremoved hrest hlater
      rw [List.append_assoc] at hall'
      exact hall'

end Account

end IpcTable

end Foundation
end Notnets
