import Mathlib.Data.List.Basic

/-!
# Computations that change a state and may halt

Calls into the operating system change its state and may never return to the
caller.  A statement about such a computation is about its returns: the value
and the state that it returns from a state.
-/

namespace Notnets
namespace Foundation

universe u v

abbrev Effect (Halt State : Type u) : Type u -> Type u :=
  ExceptT Halt (StateM State)

variable {Halt State State' α β : Type u}

/-- Started in `s`, the computation returns `a` in the state `s'`. -/
def Returns (act : Effect Halt State α) (s : State) (a : α) (s' : State) : Prop :=
  act.run.run s = (.ok a, s')

/-- Started in `s`, the computation halts in the state `s'`. -/
def Halts (act : Effect Halt State α) (s : State) (halt : Halt) (s' : State) : Prop :=
  act.run.run s = (.error halt, s')

def returnOf (act : Effect Halt State α) (s : State) : Option (α × State) :=
  match act.run.run s with
  | (.ok a, s') => some (a, s')
  | (.error _, _) => none

def Keeps {γ : Type v} (view : State -> γ) (act : Effect Halt State α) : Prop :=
  forall s a s', Returns act s a s' -> view s' = view s

/-!
# Returns of the combinators
-/

theorem returns_pure {a b : α} {s s' : State} :
    Returns (pure a : Effect Halt State α) s b s' <-> b = a ∧ s' = s := by
  constructor
  · intro h
    have hpair : ((Except.ok a : Except Halt α), s) = (.ok b, s') := h
    injection hpair with hvalue hstate
    injection hvalue with hvalue
    exact ⟨hvalue.symm, hstate.symm⟩
  · intro h
    rw [h.left, h.right]
    rfl

theorem returns_or_halts (act : Effect Halt State α) (s : State) :
    (exists a s', Returns act s a s') ∨ (exists halt s', Halts act s halt s') := by
  unfold Returns Halts
  cases act.run.run s with
  | mk result s' =>
      cases result with
      | ok a => exact Or.inl ⟨a, s', rfl⟩
      | error halt => exact Or.inr ⟨halt, s', rfl⟩

theorem Halts.not_returns {act : Effect Halt State α} {s s' s'' : State} {halt : Halt}
    {a : α} (h : Halts act s halt s') : ¬ Returns act s a s'' := by
  intro hreturns
  have hpair : ((Except.error halt : Except Halt α), s') = (.ok a, s'') :=
    h.symm.trans hreturns
  cases hpair

theorem bind_run (act : Effect Halt State α) (f : α -> Effect Halt State β) (s : State) :
    (act >>= f).run.run s =
      match act.run.run s with
      | (.ok a, s') => (f a).run.run s'
      | (.error halt, s') => (.error halt, s') := by
  rw [ExceptT.run_bind, StateT.run_bind]
  cases act.run.run s with
  | mk result s' =>
      cases result with
      | ok a => rfl
      | error halt => rfl

theorem bind_run_of_returns {act : Effect Halt State α} {f : α -> Effect Halt State β}
    {s s' : State} {a : α} (h : Returns act s a s') :
    (act >>= f).run.run s = (f a).run.run s' := by
  rw [bind_run, show act.run.run s = (.ok a, s') from h]

theorem Halts.bind {act : Effect Halt State α} {s s' : State} {halt : Halt}
    (h : Halts act s halt s') (f : α -> Effect Halt State β) :
    Halts (act >>= f) s halt s' := by
  unfold Halts at h ⊢
  rw [bind_run, h]

theorem returns_bind {act : Effect Halt State α} {f : α -> Effect Halt State β}
    {s s'' : State} {b : β} :
    Returns (act >>= f) s b s'' <->
      exists a s', Returns act s a s' ∧ Returns (f a) s' b s'' := by
  constructor
  · intro h
    rcases returns_or_halts act s with ⟨a, s', hact⟩ | ⟨halt, s', hact⟩
    · exact ⟨a, s', hact, (bind_run_of_returns hact).symm.trans h⟩
    · exact absurd h (hact.bind f).not_returns
  · intro h
    rcases h with ⟨a, s', hact, hf⟩
    exact (bind_run_of_returns hact).trans hf

theorem not_returns_throw {halt : Halt} {s s' : State} {a : α} :
    ¬ Returns (throw halt : Effect Halt State α) s a s' := by
  intro h
  have hpair : ((Except.error halt : Except Halt α), s) = (.ok a, s') := h
  cases hpair

theorem returns_get {s s' a : State} :
    Returns (get : Effect Halt State State) s a s' <-> a = s ∧ s' = s := by
  constructor
  · intro h
    have hpair : ((Except.ok s : Except Halt State), s) = (.ok a, s') := h
    injection hpair with hvalue hstate
    injection hvalue with hvalue
    exact ⟨hvalue.symm, hstate.symm⟩
  · intro h
    rw [h.left, h.right]
    rfl

theorem returns_set {s s' next : State} {a : PUnit} :
    Returns (set next : Effect Halt State PUnit) s a s' <-> s' = next := by
  constructor
  · intro h
    have hpair : ((Except.ok ⟨⟩ : Except Halt PUnit), next) = (.ok a, s') := h
    injection hpair with _ hstate
    exact hstate.symm
  · intro h
    rw [h]
    rfl

theorem returns_get_bind {f : State -> Effect Halt State β} {s s' : State} {b : β} :
    Returns (get >>= f) s b s' <-> Returns (f s) s b s' := by
  rw [returns_bind]
  constructor
  · intro h
    rcases h with ⟨a, s1, hget, hf⟩
    rcases returns_get.mp hget with ⟨ha, hs⟩
    rw [ha, hs] at hf
    exact hf
  · intro h
    exact ⟨s, s, returns_get.mpr ⟨rfl, rfl⟩, h⟩

theorem returns_set_bind {next s s' : State} {f : PUnit -> Effect Halt State β}
    {b : β} :
    Returns (set next >>= f) s b s' <-> Returns (f ⟨⟩) next b s' := by
  rw [returns_bind]
  constructor
  · intro h
    rcases h with ⟨a, s1, hset, hf⟩
    rw [returns_set.mp hset] at hf
    exact hf
  · intro h
    exact ⟨⟨⟩, next, returns_set.mpr rfl, h⟩

theorem returns_of_returnOf {act : Effect Halt State α} {s s' : State} {a : α}
    (h : returnOf act s = some (a, s')) : Returns act s a s' := by
  unfold returnOf at h
  unfold Returns
  split at h
  · rename_i hrun
    rw [hrun]
    injection h with h
    injection h with hvalue hstate
    rw [hvalue, hstate]
  · cases h

theorem returnOf_of_returns {act : Effect Halt State α} {s s' : State} {a : α}
    (h : Returns act s a s') : returnOf act s = some (a, s') := by
  unfold returnOf
  rw [show act.run.run s = (.ok a, s') from h]

theorem Returns.unique {act : Effect Halt State α} {s s' s'' : State} {a b : α}
    (ha : Returns act s a s') (hb : Returns act s b s'') : a = b ∧ s' = s'' := by
  have hpair : ((Except.ok a : Except Halt α), s') = (.ok b, s'') := ha.symm.trans hb
  injection hpair with hvalue hstate
  injection hvalue with hvalue
  exact ⟨hvalue, hstate⟩

/-!
# What a computation keeps
-/

section Keeps

variable {γ : Type v} {view : State -> γ}

theorem keeps_pure (a : α) : Keeps view (pure a : Effect Halt State α) := by
  intro s b s' h
  rw [(returns_pure.mp h).right]

theorem keeps_throw (halt : Halt) : Keeps view (throw halt : Effect Halt State α) := by
  intro s b s' h
  exact absurd h not_returns_throw

theorem keeps_bind {act : Effect Halt State α} {f : α -> Effect Halt State β}
    (hact : Keeps view act) (hf : forall a, Keeps view (f a)) :
    Keeps view (act >>= f) := by
  intro s b s'' h
  rcases returns_bind.mp h with ⟨a, s', ha, hb⟩
  exact (hf a s' b s'' hb).trans (hact s a s' ha)

end Keeps

/-!
# Invariants of a computation
-/

def Preserves (Inv : State -> Prop) (act : Effect Halt State α) : Prop :=
  forall s a s', Returns act s a s' -> Inv s -> Inv s'

section Preserves

variable {Inv : State -> Prop}

theorem preserves_pure (a : α) : Preserves Inv (pure a : Effect Halt State α) := by
  intro s b s' h hinv
  rw [(returns_pure.mp h).right]
  exact hinv

theorem preserves_bind {act : Effect Halt State α} {f : α -> Effect Halt State β}
    (hact : Preserves Inv act) (hf : forall a, Preserves Inv (f a)) :
    Preserves Inv (act >>= f) := by
  intro s b s'' h hinv
  rcases returns_bind.mp h with ⟨a, s', ha, hb⟩
  exact hf a s' b s'' hb (hact s a s' ha hinv)

theorem preserves_throw (halt : Halt) :
    Preserves Inv (throw halt : Effect Halt State α) := by
  intro s a s' h _
  exact absurd h not_returns_throw

theorem Keeps.preserves {γ : Type v} {view : State -> γ} {act : Effect Halt State α}
    (h : Keeps view act) (hinv : forall s s', view s' = view s -> Inv s -> Inv s') :
    Preserves Inv act :=
  fun s a s' hreturns => hinv s s' (h s a s' hreturns)

end Preserves

/-!
# Loops
-/

/-- The invariant of a loop speaks of the part of the list that is done. -/
theorem returns_foldlM {f : β -> α -> Effect Halt State β}
    (Inv : List α -> β -> State -> Prop) {xs : List α}
    (hstep : forall done x todo b s b' s', xs = done ++ x :: todo ->
      Inv done b s -> Returns (f b x) s b' s' -> Inv (done ++ [x]) b' s')
    {b b' : β} {s s' : State} (hinit : Inv [] b s)
    (h : Returns (xs.foldlM f b) s b' s') : Inv xs b' s' := by
  have hrest : forall todo done b s, xs = done ++ todo -> Inv done b s ->
      Returns (todo.foldlM f b) s b' s' -> Inv xs b' s' := by
    intro todo
    induction todo with
    | nil =>
        intro done b s hxs hdone hreturns
        rw [List.append_nil] at hxs
        rw [List.foldlM_nil] at hreturns
        rcases returns_pure.mp hreturns with ⟨hb, hs⟩
        rw [hxs, hb, hs]
        exact hdone
    | cons x todo ih =>
        intro done b s hxs hdone hreturns
        rw [List.foldlM_cons] at hreturns
        rcases returns_bind.mp hreturns with ⟨b1, s1, hx, hreturns⟩
        apply ih (done ++ [x]) b1 s1
        · rw [hxs, List.append_assoc]
          rfl
        · exact hstep done x todo b s b1 s1 hxs hdone hx
        · exact hreturns
  exact hrest xs [] b s rfl hinit h

/-- A loop returns if every pass of it does, from the states that the invariant
allows. -/
theorem exists_returns_foldlM {f : β -> α -> Effect Halt State β}
    (Inv : List α -> β -> State -> Prop) {xs : List α}
    (hstep : forall done x todo b s, xs = done ++ x :: todo -> Inv done b s ->
      exists b' s', Returns (f b x) s b' s' ∧ Inv (done ++ [x]) b' s')
    {b : β} {s : State} (hinit : Inv [] b s) :
    exists b' s', Returns (xs.foldlM f b) s b' s' ∧ Inv xs b' s' := by
  have hrest : forall todo done b s, xs = done ++ todo -> Inv done b s ->
      exists b' s', Returns (todo.foldlM f b) s b' s' ∧ Inv xs b' s' := by
    intro todo
    induction todo with
    | nil =>
        intro done b s hxs hdone
        rw [List.append_nil] at hxs
        rw [List.foldlM_nil, hxs]
        exact ⟨b, s, returns_pure.mpr ⟨rfl, rfl⟩, hdone⟩
    | cons x todo ih =>
        intro done b s hxs hdone
        rcases hstep done x todo b s hxs hdone with ⟨b1, s1, hx, hinv⟩
        have hxs' : xs = (done ++ [x]) ++ todo := by
          rw [hxs, List.append_assoc]
          rfl
        rcases ih (done ++ [x]) b1 s1 hxs' hinv with ⟨b', s', hreturns, hlast⟩
        rw [List.foldlM_cons]
        exact ⟨b', s', returns_bind.mpr ⟨b1, s1, hx, hreturns⟩, hlast⟩
  exact hrest xs [] b s rfl hinit

/-!
# Two computations
-/

/-- From these two states, the computations halt alike, or return values and
states that are related. -/
def RunsLike (Fail : State -> State' -> Prop)
    (Post : α -> β -> State -> State' -> Prop) (act : Effect Halt State α) (s : State)
    (act' : Effect Halt State' β) (s' : State') : Prop :=
  match act.run.run s, act'.run.run s' with
  | (.ok a, t), (.ok b, t') => Post a b t t'
  | (.error halt, t), (.error halt', t') => halt = halt' ∧ Fail t t'
  | _, _ => False

section Two

variable {α' β' : Type u} {Fail : State -> State' -> Prop}
  {Post : α -> β -> State -> State' -> Prop} {s : State} {s' : State'}

theorem runsLike_pure {a : α} {b : β} (h : Post a b s s') :
    RunsLike Fail Post (pure a : Effect Halt State α) s
      (pure b : Effect Halt State' β) s' := h

theorem runsLike_refl {act : Effect Halt State α} {Fail : State -> State -> Prop}
    {Post : α -> α -> State -> State -> Prop} (hpost : forall a t, Post a a t t)
    (hfail : forall t, Fail t t) : RunsLike Fail Post act s act s := by
  unfold RunsLike
  cases act.run.run s with
  | mk result t =>
      cases result with
      | ok a => exact hpost a t
      | error halt => exact ⟨rfl, hfail t⟩

theorem runsLike_of_returns {act : Effect Halt State α} {act' : Effect Halt State' β}
    {a : α} {b : β} {t : State} {t' : State'} (ha : Returns act s a t)
    (hb : Returns act' s' b t')
    (h : Post a b t t') : RunsLike Fail Post act s act' s' := by
  unfold RunsLike
  rw [ha, hb]
  exact h

theorem runsLike_of_halts {act : Effect Halt State α} {act' : Effect Halt State' β}
    {halt : Halt} {t : State} {t' : State'} (ha : Halts act s halt t)
    (hb : Halts act' s' halt t') (h : Fail t t') : RunsLike Fail Post act s act' s' := by
  unfold RunsLike
  rw [ha, hb]
  exact ⟨rfl, h⟩

theorem RunsLike.returns_or_halts {act : Effect Halt State α}
    {act' : Effect Halt State' β} (h : RunsLike Fail Post act s act' s') :
    (exists a b t t', Returns act s a t ∧ Returns act' s' b t' ∧ Post a b t t') ∨
      (exists halt t t', Halts act s halt t ∧ Halts act' s' halt t' ∧ Fail t t') := by
  unfold RunsLike at h
  split at h
  · rename_i a t b t' ha hb
    exact Or.inl ⟨a, b, t, t', ha, hb, h⟩
  · rename_i halt t halt' t' ha hb
    rw [← h.left] at hb
    exact Or.inr ⟨halt, t, t', ha, hb, h.right⟩
  · exact h.elim

theorem runsLike_throw {halt : Halt} (h : Fail s s') :
    RunsLike Fail Post (throw halt : Effect Halt State α) s
      (throw halt : Effect Halt State' β) s' := ⟨rfl, h⟩

theorem RunsLike.bind {act : Effect Halt State α} {act' : Effect Halt State' β}
    {f : α -> Effect Halt State α'} {f' : β -> Effect Halt State' β'}
    {Post' : α' -> β' -> State -> State' -> Prop}
    (h : RunsLike Fail Post act s act' s')
    (hf : forall a b t t', Post a b t t' -> RunsLike Fail Post' (f a) t (f' b) t') :
    RunsLike Fail Post' (act >>= f) s (act' >>= f') s' := by
  rcases h.returns_or_halts with
    ⟨a, b, t, t', ha, hb, hpost⟩ | ⟨halt, t, t', ha, hb, hfail⟩
  · unfold RunsLike
    rw [bind_run_of_returns ha, bind_run_of_returns hb]
    exact hf a b t t' hpost
  · exact runsLike_of_halts (ha.bind f) (hb.bind f') hfail

theorem runsLike_get_bind {f : State -> Effect Halt State α}
    {f' : State' -> Effect Halt State' β} (h : RunsLike Fail Post (f s) s (f' s') s') :
    RunsLike Fail Post (get >>= f) s (get >>= f') s' := h

theorem runsLike_set_bind {t : State} {t' : State'} {f : PUnit -> Effect Halt State α}
    {f' : PUnit -> Effect Halt State' β} (h : RunsLike Fail Post (f ⟨⟩) t (f' ⟨⟩) t') :
    RunsLike Fail Post (set t >>= f) s (set t' >>= f') s' := h

theorem RunsLike.mono {act : Effect Halt State α} {act' : Effect Halt State' β}
    {Post' : α -> β -> State -> State' -> Prop} (h : RunsLike Fail Post act s act' s')
    (hpost : forall a b t t', Post a b t t' -> Post' a b t t') :
    RunsLike Fail Post' act s act' s' := by
  have hbind : RunsLike Fail Post' (act >>= pure) s (act' >>= pure) s' :=
    h.bind fun a b t t' hab => runsLike_pure (hpost a b t t' hab)
  rw [bind_pure, bind_pure] at hbind
  exact hbind

theorem RunsLike.returns {act : Effect Halt State α} {act' : Effect Halt State' β}
    (h : RunsLike Fail Post act s act' s') {a : α} {t : State}
    (ha : Returns act s a t) : exists b t', Returns act' s' b t' ∧ Post a b t t' := by
  rcases h.returns_or_halts with
    ⟨a', b, t1, t', ha', hb, hpost⟩ | ⟨halt, t1, t', hhalts, _⟩
  · rcases ha'.unique ha with ⟨hvalue, hstate⟩
    rw [hvalue, hstate] at hpost
    exact ⟨b, t', hb, hpost⟩
  · exact absurd ha hhalts.not_returns

theorem RunsLike.with_returns {act : Effect Halt State α} {act' : Effect Halt State' β}
    (h : RunsLike Fail Post act s act' s') :
    RunsLike Fail
      (fun a b t t' => Post a b t t' ∧ Returns act s a t ∧ Returns act' s' b t')
      act s act' s' := by
  rcases h.returns_or_halts with
    ⟨a, b, t, t', ha, hb, hpost⟩ | ⟨halt, t, t', ha, hb, hfail⟩
  · exact runsLike_of_returns ha hb ⟨hpost, ha, hb⟩
  · exact runsLike_of_halts ha hb hfail

theorem RunsLike.symm {act : Effect Halt State α} {act' : Effect Halt State' β}
    (h : RunsLike Fail Post act s act' s') :
    RunsLike (fun t' t => Fail t t') (fun b a t' t => Post a b t t') act' s' act s := by
  rcases h.returns_or_halts with
    ⟨a, b, t, t', ha, hb, hpost⟩ | ⟨halt, t, t', ha, hb, hfail⟩
  · exact runsLike_of_returns hb ha hpost
  · exact runsLike_of_halts hb ha hfail

theorem RunsLike.foldlM {γ : Type u} {f : α -> γ -> Effect Halt State α}
    {f' : β -> γ -> Effect Halt State' β}
    (Inv : List γ -> α -> β -> State -> State' -> Prop) {xs : List γ}
    (hstep : forall done x todo a b s s', xs = done ++ x :: todo -> Inv done a b s s' ->
      RunsLike Fail (Inv (done ++ [x])) (f a x) s (f' b x) s')
    {a : α} {b : β} (hinit : Inv [] a b s s') :
    RunsLike Fail (Inv xs) (xs.foldlM f a) s (xs.foldlM f' b) s' := by
  have hrest : forall todo done a b s s', xs = done ++ todo -> Inv done a b s s' ->
      RunsLike Fail (Inv xs) (todo.foldlM f a) s (todo.foldlM f' b) s' := by
    intro todo
    induction todo with
    | nil =>
        intro done a b s s' hxs hdone
        rw [List.append_nil] at hxs
        rw [List.foldlM_nil, List.foldlM_nil, hxs]
        exact runsLike_pure hdone
    | cons x todo ih =>
        intro done a b s s' hxs hdone
        rw [List.foldlM_cons, List.foldlM_cons]
        apply (hstep done x todo a b s s' hxs hdone).bind
        intro a1 b1 t t' hinv
        apply ih (done ++ [x]) a1 b1 t t' _ hinv
        rw [hxs, List.append_assoc]
        rfl
  exact hrest xs [] a b s s' rfl hinit

end Two

end Foundation
end Notnets
