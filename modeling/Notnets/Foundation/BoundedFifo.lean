import Mathlib.Data.List.Basic

/-!
# Bounded queues

A queue known from its contents alone: a push appends while there is room and
refuses when there is none, and a pop takes the oldest element.
-/

namespace Notnets
namespace Foundation

structure BoundedFifo (Queue Element : Type) (capacity : Nat) where
  push : Queue -> Element -> Queue × Bool
  pop : Queue -> Option (Queue × Element)
  contents : Queue -> List Element
  push_room : forall q e, (contents q).length < capacity ->
    (push q e).2 = true ∧ contents (push q e).1 = contents q ++ [e]
  push_full : forall q e, ¬ (contents q).length < capacity -> push q e = (q, false)
  pop_nil : forall q, contents q = [] -> pop q = none
  pop_cons : forall q e rest, contents q = e :: rest ->
    exists q', pop q = some (q', e) ∧ contents q' = rest

namespace BoundedFifo

def ofList (Element : Type) (capacity : Nat) :
    BoundedFifo (List Element) Element capacity where
  push q e := if q.length < capacity then (q ++ [e], true) else (q, false)
  pop q :=
    match q with
    | [] => none
    | e :: rest => some (rest, e)
  contents q := q
  push_room := by
    intro q e hroom
    rw [if_pos hroom]
    exact ⟨rfl, rfl⟩
  push_full := by
    intro q e hfull
    rw [if_neg hfull]
  pop_nil := by
    rintro q rfl
    rfl
  pop_cons := by
    rintro q e rest rfl
    exact ⟨rest, rfl, rfl⟩

end BoundedFifo

end Foundation
end Notnets
