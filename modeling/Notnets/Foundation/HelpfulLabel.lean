import Notnets.Foundation.TransitionSystem

/-!
# Helpful labels

A schedule that is fair to some of the labels, while the others come as they like.  As
long as the goal is not reached one of these labels is possible and lowers a rank, and
no step of the others takes that away without lowering the rank itself.
-/

namespace Notnets
namespace Foundation

universe u v

namespace TransitionSystem

variable {State : Type u} {Label : Type v}

/-- Among so many steps in a row each of these labels is taken, or is not possible. -/
def FairTo (M : TransitionSystem State Label) (served : Label -> Prop) (steps : Nat)
    (trace : List (Transition State Label)) : Prop :=
  forall before window after, trace = before ++ window ++ after ->
    window.length = steps -> forall l, served l ->
      (exists t, t ∈ window ∧ t.label = l) ∨
        exists t, t ∈ window ∧ M.next t.source l = none

variable {M : TransitionSystem State Label} {served : Label -> Prop} {steps : Nat}

theorem FairTo.of_append {first second : List (Transition State Label)}
    (h : M.FairTo served steps (first ++ second)) : M.FairTo served steps first := by
  intro before window after htrace hlength
  apply h before window (after ++ second) _ hlength
  rw [htrace, List.append_assoc]

structure Helped (M : TransitionSystem State Label) (guard : State -> Label -> Prop)
    (served : Label -> Prop) (Inv Done : State -> Prop) (rank : State -> Nat)
    (Helpful : State -> Label -> Prop) : Prop where
  keeps : forall s l s', Inv s -> guard s l -> M.next s l = some s' -> Inv s'
  stays : forall s l s', Inv s -> guard s l -> M.next s l = some s' -> Done s -> Done s'
  helps : forall s, Inv s -> ¬ Done s -> exists h, Helpful s h
  serves : forall s h, Inv s -> Helpful s h ->
    served h ∧ guard s h ∧ M.next s h ≠ none
  lowers : forall s l s' h, Inv s -> guard s l -> Helpful s h -> M.next s l = some s' ->
    rank s' < rank s ∨ (rank s' = rank s ∧ Helpful s' h ∧ l ≠ h)

namespace Helped

variable {guard : State -> Label -> Prop} {Inv Done : State -> Prop}
  {rank : State -> Nat} {Helpful : State -> Label -> Prop}

theorem run_keeps (hhelped : M.Helped guard served Inv Done rank Helpful)
    {start s : State} {trace : List (Transition State Label)}
    (hrun : M.Run start trace s) (hguard : Guarded guard trace) (hstart : Inv start) :
    Inv s :=
  run_invariant hhelped.keeps hrun hguard hstart

theorem run_stays (hhelped : M.Helped guard served Inv Done rank Helpful)
    {start s : State} {trace : List (Transition State Label)}
    (hrun : M.Run start trace s) (hguard : Guarded guard trace) (hstart : Inv start)
    (hdone : Done start) : Done s := by
  have hboth : Inv s ∧ Done s := by
    apply run_invariant _ hrun hguard ⟨hstart, hdone⟩
    intro t l t' ht hl hnext
    exact ⟨hhelped.keeps t l t' ht.left hl hnext,
      hhelped.stays t l t' ht.left hl hnext ht.right⟩
  exact hboth.right

/-- A label that helps goes on to help until the rank is lower. -/
theorem run_level (hhelped : M.Helped guard served Inv Done rank Helpful)
    {start s : State} {trace : List (Transition State Label)} {h : Label}
    (hrun : M.Run start trace s) (hguard : Guarded guard trace) (hstart : Inv start)
    (hopen : ¬ Done s) (hhelpful : Helpful start h) :
    rank s < rank start ∨ (rank s = rank start ∧ Helpful s h ∧
      forall t, t ∈ trace -> t.label ≠ h ∧ M.next t.source h ≠ none) := by
  induction hrun with
  | nil => exact Or.inr ⟨rfl, hhelpful, nofun⟩
  | snoc hprev hnext ih =>
      rename_i before t t' l
      rcases (guarded_snoc guard).mp hguard with ⟨hbefore, hlast⟩
      have ht := hhelped.run_keeps hprev hbefore hstart
      have hopen' : ¬ Done t :=
        fun hdone => hopen (hhelped.stays t l t' ht hlast hnext hdone)
      rcases hhelped.helps t ht hopen' with ⟨other, hother⟩
      cases ih hbefore hopen' with
      | inl hless =>
          cases hhelped.lowers t l t' other ht hlast hother hnext with
          | inl hlower => exact Or.inl (Nat.lt_trans hlower hless)
          | inr hsame => exact Or.inl (hsame.left ▸ hless)
      | inr hlevel =>
          rcases hlevel with ⟨hrank, hstill, hall⟩
          cases hhelped.lowers t l t' h ht hlast hstill hnext with
          | inl hlower => exact Or.inl (hrank ▸ hlower)
          | inr hsame =>
              rcases hsame with ⟨hrank', hstill', hlabel⟩
              refine Or.inr ⟨hrank'.trans hrank, hstill', ?_⟩
              intro u hu
              cases List.mem_append.mp hu with
              | inl hold => exact hall u hold
              | inr hnew =>
                  rw [List.mem_singleton.mp hnew]
                  exact ⟨hlabel, (hhelped.serves t h ht hstill).right.right⟩

theorem window_lowers (hhelped : M.Helped guard served Inv Done rank Helpful)
    {start s : State} {window : List (Transition State Label)}
    (hrun : M.Run start window s) (hguard : Guarded guard window) (hstart : Inv start)
    (hopen : ¬ Done s) (hfair : M.FairTo served window.length window) :
    rank s < rank start := by
  have hopen' : ¬ Done start :=
    fun hdone => hopen (hhelped.run_stays hrun hguard hstart hdone)
  rcases hhelped.helps start hstart hopen' with ⟨h, hhelpful⟩
  cases hhelped.run_level hrun hguard hstart hopen hhelpful with
  | inl hlower => exact hlower
  | inr hlevel =>
      have hserved := (hhelped.serves start h hstart hhelpful).left
      have htaken := hfair [] window [] (List.append_nil window).symm rfl h hserved
      rcases htaken with ⟨t, ht, hlabel⟩ | ⟨t, ht, hnone⟩
      · exact absurd hlabel (hlevel.right.right t ht).left
      · exact absurd hnone (hlevel.right.right t ht).right

theorem rank_of_open (hhelped : M.Helped guard served Inv Done rank Helpful)
    {start s : State} {trace : List (Transition State Label)} (stretches : Nat)
    (hrun : M.Run start trace s) (hguard : Guarded guard trace) (hstart : Inv start)
    (hfair : M.FairTo served steps trace) (hlength : trace.length = stretches * steps)
    (hopen : ¬ Done s) : rank s + stretches ≤ rank start := by
  induction stretches generalizing trace s with
  | zero =>
      have hnil : trace = [] := by
        apply List.eq_nil_of_length_eq_zero
        rw [hlength, Nat.zero_mul]
      rw [hnil] at hrun
      cases hrun.target with
      | inl hsame =>
          rw [hsame]
          exact Nat.le_refl _
      | inr hin =>
          rcases hin with ⟨_, hin, _⟩
          cases hin
  | succ n ih =>
      have htrace := (List.take_append_drop (n * steps) trace).symm
      have hlast : (trace.drop (n * steps)).length = steps := by
        rw [List.length_drop, hlength, Nat.succ_mul, Nat.add_sub_cancel_left]
      rcases hrun.split htrace with ⟨mid, hbefore, hwindow⟩
      have hguardBefore : Guarded guard (trace.take (n * steps)) :=
        fun t ht => hguard t (List.mem_of_mem_take ht)
      have hguardWindow : Guarded guard (trace.drop (n * steps)) :=
        fun t ht => hguard t (List.mem_of_mem_drop ht)
      have hmid := hhelped.run_keeps hbefore hguardBefore hstart
      have hopenMid : ¬ Done mid :=
        fun hdone => hopen (hhelped.run_stays hwindow hguardWindow hmid hdone)
      have hfairBefore : M.FairTo served steps (trace.take (n * steps)) := by
        rw [htrace] at hfair
        exact hfair.of_append
      have hfairWindow : M.FairTo served (trace.drop (n * steps)).length
          (trace.drop (n * steps)) := by
        rw [hlast]
        intro before window after hsplit hsteps
        apply hfair (trace.take (n * steps) ++ before) window after _ hsteps
        rw [List.append_assoc, List.append_assoc, ← List.append_assoc before, ← hsplit]
        exact htrace
      have hfirst := ih hbefore hguardBefore hfairBefore
        (by rw [List.length_take, hlength]; exact Nat.min_eq_left (by lia)) hopenMid
      have hsecond := hhelped.window_lowers hwindow hguardWindow hmid hopen hfairWindow
      lia

theorem done_of_fair (hhelped : M.Helped guard served Inv Done rank Helpful)
    {start s : State} {trace : List (Transition State Label)}
    (hrun : M.Run start trace s) (hguard : Guarded guard trace) (hstart : Inv start)
    (hfair : M.FairTo served steps trace) (hlength : rank start * steps ≤ trace.length) :
    Done s := by
  by_contra hopen
  have htrace := (List.take_append_drop (rank start * steps) trace).symm
  rcases hrun.split htrace with ⟨mid, hbefore, hrest⟩
  have hguardBefore : Guarded guard (trace.take (rank start * steps)) :=
    fun t ht => hguard t (List.mem_of_mem_take ht)
  have hguardRest : Guarded guard (trace.drop (rank start * steps)) :=
    fun t ht => hguard t (List.mem_of_mem_drop ht)
  have hmid := hhelped.run_keeps hbefore hguardBefore hstart
  have hopenMid : ¬ Done mid :=
    fun hdone => hopen (hhelped.run_stays hrest hguardRest hmid hdone)
  have hfairBefore : M.FairTo served steps (trace.take (rank start * steps)) := by
    rw [htrace] at hfair
    exact hfair.of_append
  have hrank := hhelped.rank_of_open (rank start) hbefore hguardBefore hstart hfairBefore
    (by rw [List.length_take]; exact Nat.min_eq_left hlength) hopenMid
  rcases hhelped.helps mid hmid hopenMid with ⟨h, hhelpful⟩
  rcases hhelped.serves mid h hmid hhelpful with ⟨_, hallowed, hpossible⟩
  rcases Option.ne_none_iff_exists'.mp hpossible with ⟨next, hnext⟩
  cases hhelped.lowers mid h next h hmid hallowed hhelpful hnext with
  | inl hlower => lia
  | inr hlevel => exact hlevel.right.right rfl

end Helped

/-!
# Fair schedules exist
-/

section Turns

variable {order : Nat -> Label}

def TakesTurns (M : TransitionSystem State Label) (order : Nat -> Label)
    (path : List (Transition State Label)) : Prop :=
  forall i t, path[i]? = some t -> t.label = order i ∨ M.next t.source (order i) = none

theorem fairTo_of_takesTurns {turn : Nat} {path : List (Transition State Label)}
    (horder : forall k l, served l -> exists j, k ≤ j ∧ j < k + turn ∧ order j = l)
    (h : M.TakesTurns order path) : M.FairTo served turn path := by
  intro before window after hpath hlength l hserved
  rcases horder before.length l hserved with ⟨j, hfrom, hto, hlabel⟩
  have hj : j - before.length < window.length := by lia
  have hat : path[j]? = window[j - before.length]? := by
    rw [hpath, List.append_assoc, List.getElem?_append_right hfrom,
      List.getElem?_append_left hj]
  rw [List.getElem?_eq_getElem hj] at hat
  have hin : window[j - before.length] ∈ window := List.getElem_mem hj
  have hturn := h j _ hat
  rw [hlabel] at hturn
  cases hturn with
  | inl htaken => exact Or.inl ⟨_, hin, htaken⟩
  | inr hnone => exact Or.inr ⟨_, hin, hnone⟩

theorem exists_takesTurns {idle : Label} (hidle : forall s, M.next s idle ≠ none)
    (order : Nat -> Label) (start : State) (n : Nat) :
    exists path s, M.Run start path s ∧ path.length = n ∧ M.TakesTurns order path ∧
      forall t, t ∈ path -> t.label = idle ∨ exists j, t.label = order j := by
  induction n with
  | zero => exact ⟨[], start, Run.nil, rfl, nofun, nofun⟩
  | succ n ih =>
      rcases ih with ⟨path, s, hrun, hlength, hturns, hlabels⟩
      have hlast : exists l s', M.next s l = some s' ∧
          (l = order n ∨ M.next s (order n) = none) ∧ (l = idle ∨ exists j, l = order j) := by
        cases hnext : M.next s (order n) with
        | some s' => exact ⟨order n, s', hnext, Or.inl rfl, Or.inr ⟨n, rfl⟩⟩
        | none =>
            rcases Option.ne_none_iff_exists'.mp (hidle s) with ⟨s', hwaits⟩
            exact ⟨idle, s', hwaits, Or.inr rfl, Or.inl rfl⟩
      rcases hlast with ⟨l, s', hnext, hturn, hlabel⟩
      refine ⟨path ++ [⟨s, l, s'⟩], s', Run.snoc hrun hnext, ?_, ?_, ?_⟩
      · rw [List.length_append, hlength, List.length_singleton]
      · intro i t ht
        cases Nat.lt_or_ge i n with
        | inl hold =>
            rw [List.getElem?_append_left (by lia)] at ht
            exact hturns i t ht
        | inr hnew =>
            rw [List.getElem?_append_right (by lia), List.getElem?_singleton] at ht
            split at ht
            · rename_i hzero
              injection ht with ht
              have hi : i = n := by lia
              rw [← ht, hi]
              exact hturn
            · cases ht
      · intro t ht
        cases List.mem_append.mp ht with
        | inl hold => exact hlabels t hold
        | inr hnew =>
            rw [List.mem_singleton.mp hnew]
            exact hlabel

end Turns

end TransitionSystem

end Foundation
end Notnets
