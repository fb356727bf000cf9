import Notnets.Foundation.IpcTable

/-!
# Tables up to their identifiers

Two tables that went the same way until one of them made objects that the other
did not.  The identifiers that were given out before are the same, and those given
out later are higher by the number of these objects.
-/

namespace Notnets
namespace Foundation

universe u

/-- The identifiers from `first` on are higher by `count`. -/
structure Shift where
  first : Nat
  count : Nat

def Shift.map (s : Shift) (id : Int) : Int :=
  if id < s.first then id else id + s.count

section Shift

variable {s : Shift} {id id' : Int}

theorem Shift.map_of_lt (h : id < s.first) : s.map id = id :=
  if_pos h

theorem Shift.map_of_le (h : s.first ≤ id) : s.map id = id + s.count :=
  if_neg (by lia)

theorem Shift.map_injective (h : s.map id = s.map id') : id = id' := by
  unfold Shift.map at h
  split at h
  · split at h
    · exact h
    · lia
  · split at h
    · lia
    · lia

theorem Shift.map_none (first : Nat) (id : Int) : Shift.map ⟨first, 0⟩ id = id := by
  unfold Shift.map
  split
  · rfl
  · exact Int.add_zero id

/-- Only the identifiers of the objects that one table has alone are left out. -/
theorem Shift.exists_map (h : id < s.first ∨ s.first + s.count ≤ id) :
    exists id', s.map id' = id := by
  rcases h with hlow | hhigh
  · exact ⟨id, Shift.map_of_lt hlow⟩
  · refine ⟨id - s.count, ?_⟩
    rw [Shift.map_of_le (by lia)]
    lia

end Shift

namespace IpcTable

/-- The first table is the second one with some more objects, whose keys are
`Own`.  The relation of the objects may depend on their identifiers. -/
structure Renumbered {α : Type u} (s : Shift) (Own : Int -> Prop)
    (R : Int -> α -> α -> Prop) (t t' : IpcTable α) : Prop where
  first : s.first ≤ t'.next
  next : t.next = t'.next + s.count
  entries : forall id, Option.Rel (fun e e' => e.key = e'.key ∧ R id e.object e'.object)
    (t.entries (s.map id)) (t'.entries id)
  own : forall id e, t.entries id = some e -> s.first ≤ id -> id < s.first + s.count ->
    Own e.key
  unused : forall id e, t'.entries id = some e -> e.key ≠ 0 -> ¬ Own e.key

section Renumbered

variable {α : Type u} {s : Shift} {Own : Int -> Prop} {R R' : Int -> α -> α -> Prop}
  {t t' : IpcTable α} {id key : Int}

theorem Renumbered.entry_some (h : Renumbered s Own R t t') {e' : IpcEntry α}
    (hentry : t'.entries id = some e') :
    exists e, t.entries (s.map id) = some e ∧ e.key = e'.key ∧
      R id e.object e'.object := by
  have hrel := h.entries id
  rw [hentry] at hrel
  cases hentry' : t.entries (s.map id) with
  | none =>
      rw [hentry'] at hrel
      cases hrel
  | some e =>
      rw [hentry'] at hrel
      cases hrel with
      | some hsame => exact ⟨e, rfl, hsame.left, hsame.right⟩

theorem Renumbered.entry_none (h : Renumbered s Own R t t')
    (hentry : t'.entries id = none) : t.entries (s.map id) = none := by
  have hrel := h.entries id
  rw [hentry] at hrel
  cases hentry' : t.entries (s.map id) with
  | none => rfl
  | some e =>
      rw [hentry'] at hrel
      cases hrel

theorem Renumbered.find (h : Renumbered s Own R t t') (hkey : key ≠ 0 -> ¬ Own key) :
    t.find key = (t'.find key).map s.map := by
  cases hfind' : t'.find key with
  | some id' =>
      rcases find_eq_some hfind' with ⟨hne, e', hentry', hkey'⟩
      rcases h.entry_some hentry' with ⟨e, hentry, hsame, _⟩
      have hfound := find_of_entry hentry (by rw [hsame, hkey']; exact hne)
      rw [hsame, hkey'] at hfound
      exact hfound
  | none =>
      cases hfind : t.find key with
      | none => rfl
      | some found =>
          rcases find_eq_some hfind with ⟨hne, e, hentry, hfound⟩
          by_cases hout : found < s.first ∨ s.first + s.count ≤ found
          · rcases Shift.exists_map hout with ⟨id', hid'⟩
            cases hentry' : t'.entries id' with
            | none =>
                have hnone := h.entry_none hentry'
                rw [hid', hentry] at hnone
                cases hnone
            | some e' =>
                rcases h.entry_some hentry' with ⟨e1, hentry1, hsame, _⟩
                rw [hid', hentry] at hentry1
                injection hentry1 with heq
                rw [← heq, hfound] at hsame
                exact absurd hsame.symm (find_eq_none hfind' hne hentry')
          · have hown := h.own found e hentry (by lia) (by lia)
            rw [hfound] at hown
            exact absurd hown (hkey hne)

theorem Renumbered.mono (h : Renumbered s Own R t t')
    (hR : forall id e', t'.entries id = some e' -> forall o, R id o e'.object ->
      R' id o e'.object) : Renumbered s Own R' t t' where
  first := h.first
  next := h.next
  entries := by
    intro id
    cases hentry' : t'.entries id with
    | none =>
        rw [h.entry_none hentry']
        exact Option.Rel.none
    | some e' =>
        rcases h.entry_some hentry' with ⟨e, hentry, hsame, hrel⟩
        rw [hentry]
        exact Option.Rel.some ⟨hsame, hR id e' hentry' _ hrel⟩
  own := h.own
  unused := h.unused

theorem Renumbered.insert (h : Renumbered s Own R t t') (hkey : key ≠ 0 -> ¬ Own key)
    {o o' : α} (hfree : t.find key = none) (hfree' : t'.find key = none)
    (hR : R t'.next o o') :
    Renumbered s Own R (t.insert key o hfree) (t'.insert key o' hfree') := by
  have hmap : s.map t'.next = t.next := by
    have hfirst := h.first
    have hnext := h.next
    rw [Shift.map_of_le (by lia)]
    lia
  constructor
  · exact Nat.le_succ_of_le h.first
  · show t.next + 1 = t'.next + 1 + s.count
    rw [h.next]
    lia
  · intro id
    by_cases hid : id = t'.next
    · rw [hid, hmap, insert_self, insert_self]
      exact Option.Rel.some ⟨rfl, hR⟩
    · rw [insert_of_ne t' id hfree' hid, insert_of_ne t _ hfree]
      · exact h.entries id
      · intro heq
        rw [← hmap] at heq
        exact hid (Shift.map_injective heq)
  · intro id e hentry hlow hhigh
    have hfirst := h.first
    have hnext := h.next
    rw [insert_of_ne t id hfree (by lia)] at hentry
    exact h.own id e hentry hlow hhigh
  · intro id e hentry hne
    by_cases hid : id = t'.next
    · rw [hid, insert_self] at hentry
      injection hentry with hentry
      rw [← hentry] at hne ⊢
      exact hkey hne
    · rw [insert_of_ne t' id hfree' hid] at hentry
      exact h.unused id e hentry hne

theorem Renumbered.modify (h : Renumbered s Own R t t') {f f' : α -> α}
    (hR : forall o o', R id o o' -> R' id (f o) (f' o'))
    (hother : forall j o o', j ≠ id -> R j o o' -> R' j o o') :
    Renumbered s Own R' (t.modify (s.map id) f) (t'.modify id f') := by
  constructor
  · exact h.first
  · exact h.next
  · intro j
    by_cases hj : j = id
    · subst hj
      cases hentry' : t'.entries j with
      | none =>
          have hnone := h.entry_none hentry'
          have hleft := (touched_modify t (s.map j) f).same
          have hright := (touched_modify t' j f').same
          rw [hnone] at hleft
          rw [hentry'] at hright
          rw [Option.map_eq_none_iff.mp hleft, Option.map_eq_none_iff.mp hright]
          exact Option.Rel.none
      | some e' =>
          rcases h.entry_some hentry' with ⟨e, hentry, hsame, hrel⟩
          rw [modify_self t (s.map j) hentry, modify_self t' j hentry']
          exact Option.Rel.some ⟨hsame, hR _ _ hrel⟩
    · rw [modify_of_ne t' id hj, modify_of_ne t (s.map id)]
      · cases hentry' : t'.entries j with
        | none =>
            rw [h.entry_none hentry']
            exact Option.Rel.none
        | some e' =>
            rcases h.entry_some hentry' with ⟨e, hentry, hsame, hrel⟩
            rw [hentry]
            exact Option.Rel.some ⟨hsame, hother j _ _ hj hrel⟩
      · intro heq
        exact hj (Shift.map_injective heq)
  · intro j e hentry hlow hhigh
    have hmiss : j ≠ s.map id := by
      unfold Shift.map
      split
      · lia
      · lia
    rw [modify_of_ne t (s.map id) hmiss] at hentry
    exact h.own j e hentry hlow hhigh
  · intro j e hentry hne
    by_cases hj : j = id
    · subst hj
      cases hentry' : t'.entries j with
      | none =>
          have hright := (touched_modify t' j f').same
          rw [hentry', hentry] at hright
          cases hright
      | some e' =>
          rw [modify_self t' j hentry'] at hentry
          injection hentry with hentry
          rw [← hentry] at hne ⊢
          exact h.unused j e' hentry' hne
    · rw [modify_of_ne t' id hj] at hentry
      exact h.unused j e hentry hne

theorem Renumbered.remove (h : Renumbered s Own R t t') (id : Int) :
    Renumbered s Own R (t.remove (s.map id)) (t'.remove id) := by
  constructor
  · exact h.first
  · exact h.next
  · intro j
    by_cases hj : j = id
    · rw [hj, remove_self, remove_self]
      exact Option.Rel.none
    · rw [remove_of_ne t' id hj, remove_of_ne t (s.map id)]
      · exact h.entries j
      · intro heq
        exact hj (Shift.map_injective heq)
  · intro j e hentry hlow hhigh
    by_cases hj : j = s.map id
    · rw [hj, remove_self] at hentry
      cases hentry
    · rw [remove_of_ne t (s.map id) hj] at hentry
      exact h.own j e hentry hlow hhigh
  · intro j e hentry hne
    by_cases hj : j = id
    · rw [hj, remove_self] at hentry
      cases hentry
    · rw [remove_of_ne t' id hj] at hentry
      exact h.unused j e hentry hne

theorem renumbered_refl (hR : forall id e, t.entries id = some e ->
      R id e.object e.object)
    (hunused : forall id e, t.entries id = some e -> e.key ≠ 0 -> ¬ Own e.key) :
    Renumbered ⟨0, 0⟩ Own R t t where
  first := Nat.zero_le _
  next := rfl
  entries := by
    intro id
    rw [Shift.map_none]
    cases hentry : t.entries id with
    | none => exact Option.Rel.none
    | some e => exact Option.Rel.some ⟨rfl, hR id e hentry⟩
  own := by
    intro id e _ hlow hhigh
    have hhigh : id < ((0 : Nat) : Int) + ((0 : Nat) : Int) := hhigh
    have hlow : ((0 : Nat) : Int) ≤ id := hlow
    lia
  unused := hunused

/-- What changed since this point: nothing that was there, and all that came has
keys that are `Own`. -/
structure Beside (Own : Int -> Prop) (before after : IpcTable α) : Prop where
  next : before.next ≤ after.next
  old : forall id : Int, id < before.next -> after.entries id = before.entries id
  new : forall id e, (before.next : Int) ≤ id -> after.entries id = some e -> Own e.key

/-- One of two tables goes its own way. -/
theorem Renumbered.beside {n : Nat} (h : Renumbered ⟨n, 0⟩ Own R t t') {t2 : IpcTable α}
    (hbeside : Beside Own t t2) :
    Renumbered ⟨t'.next, t2.next - t.next⟩ Own R t2 t' := by
  have hsame : t.next = t'.next := h.next
  have hnext := hbeside.next
  have hentries := h.entries
  constructor
  · exact Nat.le_refl _
  · show t2.next = t'.next + (t2.next - t.next)
    lia
  · intro id
    by_cases hid : id < t'.next
    · rw [Shift.map_of_lt (s := ⟨t'.next, t2.next - t.next⟩) hid,
        hbeside.old id (by lia)]
      have hrel := hentries id
      rw [Shift.map_none] at hrel
      exact hrel
    · rw [t'.fresh id (Or.inr (by lia))]
      have hhigh : (t2.next : Int) ≤ Shift.map ⟨t'.next, t2.next - t.next⟩ id := by
        rw [Shift.map_of_le (s := ⟨t'.next, t2.next - t.next⟩) (by lia)]
        show (t2.next : Int) ≤ id + ((t2.next - t.next : Nat) : Int)
        lia
      rw [t2.fresh _ (Or.inr hhigh)]
      exact Option.Rel.none
  · intro id e hentry hlow _
    have hlow : (t'.next : Int) ≤ id := hlow
    exact hbeside.new id e (by lia) hentry
  · exact h.unused

end Renumbered

section Beside

variable {α : Type u} {Own : Int -> Prop} {t t' : IpcTable α} {ids : List Int}

theorem Beside.removeAll (h : Beside Own t t')
    (hnew : forall id, id ∈ ids -> (t.next : Int) ≤ id) :
    Beside Own t (t'.removeAll ids) where
  next := by
    rw [removeAll_next]
    exact h.next
  old := by
    intro id hid
    have hmiss : id ∉ ids := by
      intro hmem
      have hlow := hnew id hmem
      lia
    rw [removeAll_of_not_mem hmiss]
    exact h.old id hid
  new := by
    intro id e hid hentry
    by_cases hmem : id ∈ ids
    · rw [removeAll_of_mem hmem] at hentry
      cases hentry
    · rw [removeAll_of_not_mem hmem] at hentry
      exact h.new id e hid hentry

end Beside

end IpcTable

end Foundation
end Notnets
