import Notnets.Foundation.HelpfulLabel

/-!
# Fair schedules

In a fair schedule no label that stays possible is passed over for long.  A party
that waits in a busy loop repeats the same state, so under such a schedule the wait
ends as soon as anybody else can go on.
-/

namespace Notnets
namespace Foundation

universe u v

namespace TransitionSystem

variable {State : Type u} {Label : Type v}

/-- Among so many steps in a row each label is taken, or is not possible. -/
def FairWithin (M : TransitionSystem State Label) (steps : Nat)
    (trace : List (Transition State Label)) : Prop :=
  forall before window after, trace = before ++ window ++ after ->
    window.length = steps -> forall l,
      (exists t, t ∈ window ∧ t.label = l) ∨
        exists t, t ∈ window ∧ M.next t.source l = none

variable {M : TransitionSystem State Label} {steps : Nat}

theorem fairTo_of_fairWithin {trace : List (Transition State Label)}
    (h : M.FairWithin steps trace) : M.FairTo (fun _ => True) steps trace :=
  fun before window after htrace hlength l _ => h before window after htrace hlength l

theorem fairWithin_of_labels {trace : List (Transition State Label)}
    (h : forall k, k + steps ≤ trace.length -> forall l,
      l ∈ ((trace.map Transition.label).drop k).take steps) :
    M.FairWithin steps trace := by
  intro before window after htrace hlength l
  have hwindow : (trace.drop before.length).take steps = window := by
    rw [htrace, List.append_assoc, List.drop_left, ← hlength, List.take_left]
  have hfits : before.length + steps ≤ trace.length := by
    rw [htrace, List.length_append, List.length_append, hlength]
    exact Nat.le_add_right _ _
  have hin := h before.length hfits l
  rw [← List.map_drop, ← List.map_take, hwindow] at hin
  exact Or.inl (List.mem_map.mp hin)

theorem Run.length_of_halted {start s : State} {trace : List (Transition State Label)}
    (hrun : M.Run start trace s) (h : forall l, M.next start l = none) :
    trace.length = 0 := by
  cases trace with
  | nil => rfl
  | cons t rest =>
      have hfirst := hrun.upTo (List.nil_append (t :: rest)).symm
      cases hfirst.left.target with
      | inl hsource =>
          have hnext := hfirst.right
          rw [hsource, h] at hnext
          cases hnext
      | inr hin =>
          rcases hin with ⟨_, hin, _⟩
          cases hin

section Waiting

variable {Inv Done : State -> Prop} {rank : State -> Nat}

/-- Where a step repeats its state or lowers the rank, the labels that lower it help. -/
theorem helped_of_waiting
    (hkeeps : forall s l s', Inv s -> M.next s l = some s' -> Inv s')
    (hlowers : forall s l s', Inv s -> M.next s l = some s' -> s' = s ∨ rank s' < rank s)
    (hprogress : forall s, Inv s -> ¬ Done s ->
      exists l s', M.next s l = some s' ∧ rank s' < rank s)
    (hdone : forall s l, Inv s -> Done s -> M.next s l = none) :
    M.Helped (fun _ _ => True) (fun _ => True) Inv Done rank
      (fun s l => exists s', M.next s l = some s' ∧ rank s' < rank s) := by
  constructor
  · exact fun s l s' hs _ hnext => hkeeps s l s' hs hnext
  · intro s l s' hs _ hnext hend
    rw [hdone s l hs hend] at hnext
    cases hnext
  · exact hprogress
  · intro s l _ hhelpful
    rcases hhelpful with ⟨s', hnext, _⟩
    refine ⟨trivial, trivial, ?_⟩
    rw [hnext]
    exact Option.some_ne_none s'
  · intro s l s' h hs _ hhelpful hnext
    cases hlowers s l s' hs hnext with
    | inr hlower => exact Or.inl hlower
    | inl hsame =>
        rw [hsame] at hnext ⊢
        refine Or.inr ⟨rfl, hhelpful, ?_⟩
        intro hlabel
        rcases hhelpful with ⟨t, ht, hlower⟩
        rw [← hlabel, hnext] at ht
        injection ht with ht
        rw [← ht] at hlower
        exact Nat.lt_irrefl _ hlower

theorem Run.length_le_of_fair
    (hkeeps : forall s l s', Inv s -> M.next s l = some s' -> Inv s')
    (hlowers : forall s l s', Inv s -> M.next s l = some s' -> s' = s ∨ rank s' < rank s)
    (hprogress : forall s, Inv s -> ¬ Done s ->
      exists l s', M.next s l = some s' ∧ rank s' < rank s)
    (hdone : forall s l, Inv s -> Done s -> M.next s l = none)
    {start s : State} {trace : List (Transition State Label)}
    (hrun : M.Run start trace s) (hstart : Inv start)
    (hfair : M.FairWithin steps trace) : trace.length ≤ rank start * steps := by
  by_contra hlong
  have hhelped := helped_of_waiting hkeeps hlowers hprogress hdone
  have htrace := (List.take_append_drop (rank start * steps) trace).symm
  rcases hrun.split htrace with ⟨mid, hbefore, hrest⟩
  have hguard : Guarded (fun _ _ => True) (trace.take (rank start * steps)) :=
    fun _ _ => trivial
  have hmid := hhelped.run_keeps hbefore hguard hstart
  have hfairBefore : M.FairTo (fun _ => True) steps (trace.take (rank start * steps)) := by
    have hall := fairTo_of_fairWithin hfair
    rw [htrace] at hall
    exact hall.of_append
  have hend : Done mid := by
    apply hhelped.done_of_fair hbefore hguard hstart hfairBefore
    rw [List.length_take]
    lia
  have hhalts := hrest.length_of_halted fun l => hdone mid l hmid hend
  rw [List.length_drop] at hhalts
  lia

end Waiting

/-!
# Spinning

A state in which every step changes nothing lets a fair run go on for ever.
-/

section Spinning

variable {s : State} {order : Nat -> Label}

def spin (s : State) (order : Nat -> Label) (n : Nat) : List (Transition State Label) :=
  (List.range n).map fun i => ⟨s, order i, s⟩

@[simp] theorem length_spin (n : Nat) : (spin s order n).length = n := by
  rw [spin, List.length_map, List.length_range]

theorem Run.spin {start : State} {trace : List (Transition State Label)}
    (hrun : M.Run start trace s) (hstay : forall l, M.next s l = some s) (n : Nat) :
    M.Run start (trace ++ spin s order n) s := by
  induction n with
  | zero => exact (List.append_nil trace).symm ▸ hrun
  | succ n ih =>
      have hlast := Run.snoc ih (hstay (order n))
      rw [List.append_assoc] at hlast
      rw [TransitionSystem.spin, List.range_succ, List.map_append]
      exact hlast

theorem fairWithin_spin {turn n : Nat} {trace : List (Transition State Label)}
    (horder : forall k l, exists j, k ≤ j ∧ j < k + turn ∧ order j = l) :
    M.FairWithin (trace.length + turn) (trace ++ spin s order n) := by
  intro before window after hsplit hlength l
  rcases horder before.length l with ⟨j, hafter, hbefore, hlabel⟩
  have htotal := congrArg List.length hsplit
  rw [List.length_append, List.length_append, List.length_append, length_spin] at htotal
  have hj : j < n := by lia
  have hspin : (trace ++ spin s order n)[trace.length + j]? = some ⟨s, order j, s⟩ := by
    rw [List.getElem?_append_right (Nat.le_add_right _ _), Nat.add_sub_cancel_left,
      spin, List.getElem?_map, List.getElem?_range hj]
    rfl
  rw [hsplit, List.append_assoc, List.getElem?_append_right (by lia),
    List.getElem?_append_left (by lia)] at hspin
  exact Or.inl ⟨_, List.mem_of_getElem? hspin, hlabel⟩

end Spinning

end TransitionSystem

end Foundation
end Notnets
