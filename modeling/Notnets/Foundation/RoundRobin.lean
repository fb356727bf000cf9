import Mathlib.Data.Nat.ModEq
import Notnets.Foundation.TransitionSystem

/-!
# Serving in turn

A search that goes around `n` places and starts behind the place that it chose
last.  Every place that stays a candidate comes closer with every choice, so
that none is passed over for more than a round.
-/

namespace Notnets
namespace Foundation

universe u v

/-!
# Distances around a circle
-/

/-- How many places lie between the start and the place `i`, of `n` in a circle. -/
def turns (n start i : Nat) : Nat :=
  (i + (n - start % n)) % n

section Turns

variable {n start i d : Nat}

theorem turns_lt (hn : 0 < n) : turns n start i < n :=
  Nat.mod_lt _ hn

theorem add_turns (hi : i < n) : (start + turns n start i) % n = i := by
  have hlt : start % n < n := Nat.mod_lt _ (Nat.lt_of_le_of_lt (Nat.zero_le i) hi)
  have hsplit := Nat.mod_add_div start n
  have hround : start + (i + (n - start % n)) = i + n + n * (start / n) := by
    generalize n * (start / n) = rounds at hsplit ⊢
    lia
  unfold turns
  rw [Nat.add_mod_mod, hround, Nat.add_mul_mod_self_left, Nat.add_mod_right,
    Nat.mod_eq_of_lt hi]

theorem turns_of_add (hd : d < n) (h : (start + d) % n = i) : turns n start i = d := by
  have hn : 0 < n := Nat.lt_of_le_of_lt (Nat.zero_le d) hd
  have hi : i < n := by
    rw [← h]
    exact Nat.mod_lt _ hn
  have hsame : start + turns n start i ≡ start + d [MOD n] :=
    (add_turns hi).trans h.symm
  have hmod := Nat.ModEq.add_left_cancel' start hsame
  exact Nat.ModEq.eq_of_lt_of_lt hmod (turns_lt hn) hd

theorem turns_injective {j : Nat} (hi : i < n) (hj : j < n)
    (h : turns n start i = turns n start j) : i = j := by
  have hplace : (start + turns n start i) % n = i := add_turns hi
  rw [← hplace, h, add_turns hj]

end Turns

/-!
# The candidate that is next
-/

structure Picks (n : Nat) (candidate : Nat -> Prop) (start i : Nat) : Prop where
  inside : i < n
  chosen : candidate i
  first : forall j, j < n -> candidate j -> turns n start i ≤ turns n start j

theorem Picks.closer {n start i j : Nat} {candidate : Nat -> Prop}
    (h : Picks n candidate start i) (hj : j < n) (hcandidate : candidate j)
    (hne : j ≠ i) : turns n ((i + 1) % n) j < turns n start j := by
  have hn : 0 < n := Nat.lt_of_le_of_lt (Nat.zero_le j) hj
  have hlt : turns n start j < n := turns_lt hn
  have hle := h.first j hj hcandidate
  have hsame : turns n start i ≠ turns n start j :=
    fun heq => hne (turns_injective hj h.inside heq.symm)
  have hpicked : (start + turns n start i) % n = i := add_turns h.inside
  have hother : (start + turns n start j) % n = j := add_turns hj
  generalize turns n start i = k at *
  generalize turns n start j = d at *
  have hbehind : ((i + 1) % n + (d - (k + 1))) % n = j := by
    have hplaces : start + k + (1 + (d - (k + 1))) = start + d := by lia
    rw [← hpicked, Nat.mod_add_mod, Nat.add_assoc, Nat.mod_add_mod, hplaces]
    exact hother
  rw [turns_of_add (by lia) hbehind]
  lia

/-!
# Bounded waiting
-/

namespace TransitionSystem

variable {State : Type u} {Label : Type v} {M : TransitionSystem State Label}

theorem exists_of_rank (marked : Label -> Bool) (rank : State -> Nat)
    {guard : State -> Label -> Prop} {Wanted : Transition State Label -> Prop}
    (hmarked : forall s l s', guard s l -> M.next s l = some s' -> marked l = true ->
      ¬ Wanted ⟨s, l, s'⟩ -> rank s' < rank s)
    (hother : forall s l s', guard s l -> M.next s l = some s' -> marked l = false ->
      rank s' ≤ rank s)
    {start s : State} {trace : List (Transition State Label)}
    (hrun : M.Run start trace s) (hguard : Guarded guard trace)
    (hcount : rank start < trace.countP fun t => marked t.label) :
    exists t, t ∈ trace ∧ Wanted t := by
  by_contra hnone
  have hused : (trace.countP fun t => marked t.label) + rank s ≤ rank start := by
    clear hcount
    induction hrun with
    | nil => simp
    | snoc hprev hnext ih =>
        rename_i trace s s' l
        rcases (guarded_snoc guard).mp hguard with ⟨hbefore, hlast⟩
        have hearlier := ih hbefore fun h => by
          rcases h with ⟨t, ht, hwanted⟩
          exact hnone ⟨t, List.mem_append_left _ ht, hwanted⟩
        have hnot : ¬ Wanted ⟨s, l, s'⟩ := fun hwanted =>
          hnone ⟨_, List.mem_append_right _ (List.mem_singleton.mpr rfl), hwanted⟩
        rw [List.countP_append, List.countP_singleton]
        cases hmark : marked l with
        | true =>
            have hless := hmarked s l s' hlast hnext hmark hnot
            rw [if_pos rfl]
            lia
        | false =>
            have hle := hother s l s' hlast hnext hmark
            rw [if_neg Bool.false_ne_true]
            lia
  lia

end TransitionSystem

end Foundation
end Notnets
