import Mathlib.Data.Set.Basic
import Mathlib.Logic.Relation
import Notnets.Foundation.TransitionSystem

/-!
# What a run shows

An observer sees a view of every state of a run, and notices only changes of it.
Two systems whose runs show the same sequences of views cannot be told apart, however
many steps each of them takes for one change.
-/

namespace Notnets
namespace Foundation

universe u v w x

namespace TransitionSystem

variable {State : Type u} {Label : Type v} {View : Type w}

/-- A guarded run to this state shows these views, one after the other. -/
inductive Shows (M : TransitionSystem State Label) (guard : State -> Label -> Prop)
    (view : State -> View) : List View -> State -> Prop where
  | start {s : State} : M.Initial s -> Shows M guard view [view s] s
  | quiet {views : List View} {s s' : State} {l : Label} :
      Shows M guard view views s -> guard s l -> M.next s l = some s' ->
      view s' = view s -> Shows M guard view views s'
  | change {views : List View} {s s' : State} {l : Label} :
      Shows M guard view views s -> guard s l -> M.next s l = some s' ->
      view s' ≠ view s -> Shows M guard view (views ++ [view s']) s'

/-- Everything that an observer can see of the guarded runs. -/
def Histories (M : TransitionSystem State Label) (guard : State -> Label -> Prop)
    (view : State -> View) : Set (List View) :=
  { views | exists s, M.Shows guard view views s }

section

variable {M : TransitionSystem State Label} {guard : State -> Label -> Prop}
  {view : State -> View}

theorem Shows.reachable {views : List View} {s : State}
    (h : M.Shows guard view views s) : M.ReachableUnder guard s := by
  have hstep : forall {s s' : State} {l : Label}, M.ReachableUnder guard s ->
      guard s l -> M.next s l = some s' -> M.ReachableUnder guard s' := by
    intro s s' l hs hl hnext
    rcases hs with ⟨start, trace, hstart, hrun, hguard⟩
    exact ⟨start, _, hstart, Run.snoc hrun hnext,
      (guarded_snoc guard).mpr ⟨hguard, hl⟩⟩
  induction h with
  | start hinitial => exact ⟨_, [], hinitial, Run.nil, guarded_nil guard⟩
  | quiet _ hl hnext _ ih => exact hstep ih hl hnext
  | change _ hl hnext _ ih => exact hstep ih hl hnext

def StepsTo (M : TransitionSystem State Label) (guard : State -> Label -> Prop)
    (view : State -> View) (before after : View) (s s' : State) : Prop :=
  exists l, guard s l ∧ M.next s l = some s' ∧
    (view s' = view s ∨ (view s = before ∧ view s' = after))

def Carries (M : TransitionSystem State Label) (guard : State -> Label -> Prop)
    (view : State -> View) (before after : View) : State -> State -> Prop :=
  Relation.ReflTransGen (M.StepsTo guard view before after)

theorem Carries.keeps {inv : State -> Prop} {before after : View} {s s' : State}
    (hkeeps : forall s l s', inv s -> guard s l -> M.next s l = some s' -> inv s')
    (h : M.Carries guard view before after s s') (hs : inv s) : inv s' := by
  induction h with
  | refl => exact hs
  | tail _ hstep ih =>
      rcases hstep with ⟨l, hl, hnext, _⟩
      exact hkeeps _ _ _ ih hl hnext

theorem carries_quiet {before after : View} {s s' : State} {l : Label} (hl : guard s l)
    (hnext : M.next s l = some s') (hsame : view s' = view s) :
    M.Carries guard view before after s s' :=
  Relation.ReflTransGen.single ⟨l, hl, hnext, Or.inl hsame⟩

/--
The steps of one party change the view once when they take it from a first stage,
over the change, to a second stage, and end there.
-/
theorem carries_of_stages {step : State -> State -> Prop} (first second : State -> Prop)
    {before after : View} {s s' : State}
    (hlabel : forall t t', step t t' -> exists l, guard t l ∧ M.next t l = some t')
    (hfirst : forall t t', first t -> view t = before -> step t t' ->
      Relation.ReflTransGen step t' s' ->
        (first t' ∧ view t' = before) ∨ (second t' ∧ view t' = after))
    (hsecond : forall t t', second t -> step t t' -> second t' ∧ view t' = view t)
    (hsteps : Relation.ReflTransGen step s s') (hs : first s) (hview : view s = before)
    (hend : ¬ first s') : M.Carries guard view before after s s' ∧ view s' = after := by
  have hall : (first s -> view s = before ->
      M.Carries guard view before after s s' ∧ view s' = after) ∧
        (second s -> M.Carries guard view before after s s' ∧ view s' = view s) := by
    clear hs hview
    induction hsteps using Relation.ReflTransGen.head_induction_on with
    | refl =>
        constructor
        · intro hs _
          exact absurd hs hend
        · intro _
          exact ⟨Relation.ReflTransGen.refl, rfl⟩
    | head hstep hrest ih =>
        rcases hlabel _ _ hstep with ⟨l, hl, hnext⟩
        constructor
        · intro ht hview
          rcases hfirst _ _ ht hview hstep hrest with ⟨ht', hview'⟩ | ⟨ht', hview'⟩
          · rcases ih.left ht' hview' with ⟨hcarries, hlast⟩
            exact ⟨hcarries.head ⟨l, hl, hnext, Or.inl (hview'.trans hview.symm)⟩, hlast⟩
          · rcases ih.right ht' with ⟨hcarries, hlast⟩
            exact ⟨hcarries.head ⟨l, hl, hnext, Or.inr ⟨hview, hview'⟩⟩,
              hlast.trans hview'⟩
        · intro ht
          rcases hsecond _ _ ht hstep with ⟨ht', hview'⟩
          rcases ih.right ht' with ⟨hcarries, hlast⟩
          exact ⟨hcarries.head ⟨l, hl, hnext, Or.inl hview'⟩, hlast.trans hview'⟩
  exact hall.left hs hview

/-- Steps that show at most one change extend what a run shows by this change. -/
theorem Shows.carried {views : List View} {before after : View} {s s' : State}
    (h : M.Shows guard view views s) (hview : view s = before) (hne : after ≠ before)
    (hsteps : M.Carries guard view before after s s') :
    (view s' = before ∧ M.Shows guard view views s') ∨
      (view s' = after ∧ M.Shows guard view (views ++ [after]) s') := by
  induction hsteps with
  | refl => exact Or.inl ⟨hview, h⟩
  | tail _ hstep ih =>
      rename_i t t' _
      rcases hstep with ⟨l, hl, hnext, hsame | ⟨hbefore, hafter⟩⟩
      · cases ih with
        | inl ih => exact Or.inl ⟨hsame.trans ih.left, ih.right.quiet hl hnext hsame⟩
        | inr ih => exact Or.inr ⟨hsame.trans ih.left, ih.right.quiet hl hnext hsame⟩
      · cases ih with
        | inl ih =>
            have hchange : view t' ≠ view t := by
              rw [hafter, hbefore]
              exact hne
            have hshows := ih.right.change hl hnext hchange
            rw [hafter] at hshows
            exact Or.inr ⟨hafter, hshows⟩
        | inr ih => exact absurd (ih.left.symm.trans hbefore) hne

end

/-!
# Simulations

A system shows no more than another one when each of its steps shows nothing or a
step of the other, and no less when it can carry each step of the other.
-/

section Simulation

variable {Other : Type x} {M : TransitionSystem State Label}
  {N : TransitionSystem View Other} {guard : State -> Label -> Prop}
  {view : State -> View}

theorem histories_subset
    (hstart : forall s, M.Initial s -> N.Initial (view s))
    (hstep : forall s l s', M.ReachableUnder guard s -> guard s l ->
      M.next s l = some s' -> view s' ≠ view s ->
        exists k, N.next (view s) k = some (view s')) :
    M.Histories guard view ⊆ N.Histories (fun _ _ => True) id := by
  intro views hviews
  rcases hviews with ⟨s, hshows⟩
  refine ⟨view s, ?_⟩
  induction hshows with
  | start hinitial =>
      exact @Shows.start _ _ _ N _ id _ (hstart _ hinitial)
  | quiet _ _ _ hsame ih =>
      rw [hsame]
      exact ih
  | change hbefore hl hnext hchange ih =>
      rcases hstep _ _ _ hbefore.reachable hl hnext hchange with ⟨k, hk⟩
      exact ih.change trivial hk hchange

theorem histories_superset (ready : State -> Prop)
    (hstart : forall v, N.Initial v -> exists s, M.Initial s ∧ ready s ∧ view s = v)
    (hstep : forall s k v, M.ReachableUnder guard s -> ready s ->
      N.next (view s) k = some v -> v ≠ view s ->
        exists s', M.Carries guard view (view s) v s s' ∧ ready s' ∧ view s' = v) :
    N.Histories (fun _ _ => True) id ⊆ M.Histories guard view := by
  intro views hviews
  rcases hviews with ⟨v, hshows⟩
  have hready : exists s, M.Shows guard view views s ∧ ready s ∧ view s = v := by
    induction hshows with
    | start hinitial =>
        rcases hstart _ hinitial with ⟨s, hs, hready, hview⟩
        have hshows : M.Shows guard view [view s] s := Shows.start hs
        rw [hview] at hshows
        exact ⟨s, hshows, hready, hview⟩
    | quiet _ _ _ hsame ih =>
        rcases ih with ⟨s, hs, hready, hview⟩
        exact ⟨s, hs, hready, hview.trans hsame.symm⟩
    | change _ _ hnext hchange ih =>
        rcases ih with ⟨s, hs, hready, hview⟩
        rw [← hview] at hnext hchange
        rcases hstep s _ _ hs.reachable hready hnext hchange with
          ⟨s', hcarries, hready', hview'⟩
        cases hs.carried rfl hchange hcarries with
        | inl hsame => exact absurd (hview'.symm.trans hsame.left) hchange
        | inr hmoved => exact ⟨s', hmoved.right, hready', hview'⟩
  rcases hready with ⟨s, hs, _, _⟩
  exact ⟨s, hs⟩

end Simulation

end TransitionSystem

end Foundation
end Notnets
