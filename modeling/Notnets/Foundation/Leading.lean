import Mathlib.Logic.Relation
import Notnets.Foundation.TransitionSystem

/-!
# What some of the parties can do alone

The steps of some parties lead from one state to another while the rest of the system
stands still.
-/

namespace Notnets
namespace Foundation

universe u v

namespace TransitionSystem

variable {State : Type u} {Label : Type v}

/-- Reached by steps with these labels only. -/
def Leads (M : TransitionSystem State Label) (allowed : Label -> Prop) :
    State -> State -> Prop :=
  Relation.ReflTransGen fun s s' => exists l, allowed l ∧ M.next s l = some s'

variable {M : TransitionSystem State Label} {allowed : Label -> Prop}

theorem leads_single {s s' : State} {l : Label} (hl : allowed l)
    (hnext : M.next s l = some s') : M.Leads allowed s s' :=
  Relation.ReflTransGen.single ⟨l, hl, hnext⟩

theorem Leads.keeps {Inv : State -> Prop}
    (hstep : forall s l s', Inv s -> allowed l -> M.next s l = some s' -> Inv s')
    {s s' : State} (h : M.Leads allowed s s') (hs : Inv s) : Inv s' := by
  induction h with
  | refl => exact hs
  | tail _ hlast ih =>
      rcases hlast with ⟨l, hl, hnext⟩
      exact hstep _ _ _ ih hl hnext

theorem Leads.reachable {s s' : State} (h : M.Leads allowed s s')
    (hs : M.Reachable s) : M.Reachable s' :=
  h.keeps (fun _ _ _ ht _ hnext => reachable_step ht hnext) hs

theorem leads_of_rank {Inv Done : State -> Prop} (rank : State -> Nat)
    (hstep : forall s, Inv s -> ¬ Done s -> exists l s', allowed l ∧
      M.next s l = some s' ∧ Inv s' ∧ (¬ Done s' -> rank s' < rank s))
    {s : State} (hs : Inv s) : exists s', M.Leads allowed s s' ∧ Inv s' ∧ Done s' := by
  induction hn : rank s using Nat.strongRecOn generalizing s with
  | ind n ih =>
      by_cases hdone : Done s
      · exact ⟨s, Relation.ReflTransGen.refl, hs, hdone⟩
      · rcases hstep s hs hdone with ⟨l, t, hl, hnext, ht, hlower⟩
        by_cases hend : Done t
        · exact ⟨t, leads_single hl hnext, ht, hend⟩
        · have hless := hlower hend
          rw [hn] at hless
          rcases ih (rank t) hless ht rfl with ⟨s', hleads, hs', hdone'⟩
          exact ⟨s', (leads_single hl hnext).trans hleads, hs', hdone'⟩

/-- Where every step lowers a rank, they lead to a state where none is possible. -/
theorem leads_to_stop {Inv : State -> Prop} (rank : State -> Nat)
    (hstep : forall s l s', Inv s -> allowed l -> M.next s l = some s' ->
      Inv s' ∧ rank s' < rank s)
    {s : State} (hs : Inv s) :
    exists s', M.Leads allowed s s' ∧ Inv s' ∧
      forall l, allowed l -> M.next s' l = none := by
  apply leads_of_rank rank _ hs
  intro t ht hgoes
  rcases not_forall.mp hgoes with ⟨l, hl⟩
  rcases Classical.not_imp.mp hl with ⟨hallowed, hne⟩
  rcases Option.ne_none_iff_exists'.mp hne with ⟨t', hnext⟩
  rcases hstep t l t' ht hallowed hnext with ⟨ht', hlower⟩
  exact ⟨l, t', hallowed, hnext, ht', fun _ => hlower⟩

end TransitionSystem

end Foundation
end Notnets
