import Notnets.Foundation.Effect

/-!
# Computations that halt

A computation that halts leaves a state behind, as one that returns does.  The
statements here are about that state, and about the ways in which a computation
cannot halt.
-/

namespace Notnets
namespace Foundation

universe u v

variable {Halt State α β : Type u}

/-- The state in which the computation returns or halts. -/
def lastState (act : Effect Halt State α) (s : State) : State :=
  (act.run.run s).2

def Avoids (halt : Halt) (act : Effect Halt State α) : Prop :=
  forall s s', ¬ Halts act s halt s'

/-- Whether it returns or halts, the computation does not change this part of the
state. -/
def Leaves {γ : Type v} (view : State -> γ) (act : Effect Halt State α) : Prop :=
  forall s, view (lastState act s) = view s

theorem Returns.lastState_eq {act : Effect Halt State α} {s s' : State} {a : α}
    (h : Returns act s a s') : lastState act s = s' := by
  unfold lastState
  rw [show act.run.run s = (.ok a, s') from h]

theorem Halts.lastState_eq {act : Effect Halt State α} {s s' : State} {halt : Halt}
    (h : Halts act s halt s') : lastState act s = s' := by
  unfold lastState
  rw [show act.run.run s = (.error halt, s') from h]

theorem Halts.unique {act : Effect Halt State α} {s s' s'' : State} {halt halt' : Halt}
    (h : Halts act s halt s') (h' : Halts act s halt' s'') :
    halt = halt' ∧ s' = s'' := by
  have hpair : ((Except.error halt : Except Halt α), s') = (.error halt', s'') :=
    h.symm.trans h'
  injection hpair with hhalt hstate
  injection hhalt with hhalt
  exact ⟨hhalt, hstate⟩

/-!
# Halts of the combinators
-/

theorem not_halts_pure {a : α} {s s' : State} {halt : Halt} :
    ¬ Halts (pure a : Effect Halt State α) s halt s' := by
  intro h
  have hpair : ((Except.ok a : Except Halt α), s) = (.error halt, s') := h
  cases hpair

theorem halts_throw {halt halt' : Halt} {s s' : State} :
    Halts (throw halt : Effect Halt State α) s halt' s' <-> halt' = halt ∧ s' = s := by
  constructor
  · intro h
    have hpair : ((Except.error halt : Except Halt α), s) = (.error halt', s') := h
    injection hpair with hhalt hstate
    injection hhalt with hhalt
    exact ⟨hhalt.symm, hstate.symm⟩
  · intro h
    rw [h.left, h.right]
    rfl

theorem halts_bind_of_returns {act : Effect Halt State α} {f : α -> Effect Halt State β}
    {s s' s'' : State} {a : α} {halt : Halt} (h : Returns act s a s') :
    Halts (act >>= f) s halt s'' <-> Halts (f a) s' halt s'' := by
  unfold Halts
  rw [bind_run_of_returns h]

theorem halts_bind {act : Effect Halt State α} {f : α -> Effect Halt State β}
    {s s'' : State} {halt : Halt} :
    Halts (act >>= f) s halt s'' <->
      Halts act s halt s'' ∨
        exists a s', Returns act s a s' ∧ Halts (f a) s' halt s'' := by
  constructor
  · intro h
    rcases returns_or_halts act s with ⟨a, s', hact⟩ | ⟨halt', s', hact⟩
    · exact Or.inr ⟨a, s', hact, (halts_bind_of_returns hact).mp h⟩
    · rcases (hact.bind f).unique h with ⟨hhalt, hstate⟩
      rw [hhalt, hstate] at hact
      exact Or.inl hact
  · intro h
    rcases h with h | ⟨a, s', hact, h⟩
    · exact h.bind f
    · exact (halts_bind_of_returns hact).mpr h

theorem halts_get_bind {f : State -> Effect Halt State β} {s s' : State} {halt : Halt} :
    Halts (get >>= f) s halt s' <-> Halts (f s) s halt s' :=
  halts_bind_of_returns (returns_get.mpr ⟨rfl, rfl⟩)

theorem halts_set_bind {next s s' : State} {f : PUnit -> Effect Halt State β}
    {halt : Halt} : Halts (set next >>= f) s halt s' <-> Halts (f ⟨⟩) next halt s' :=
  halts_bind_of_returns (returns_set.mpr rfl)

theorem lastState_bind_of_returns {act : Effect Halt State α}
    {f : α -> Effect Halt State β} {s s' : State} {a : α} (h : Returns act s a s') :
    lastState (act >>= f) s = lastState (f a) s' := by
  unfold lastState
  rw [bind_run_of_returns h]

theorem not_halts_set {next s s' : State} {halt : Halt} :
    ¬ Halts (set next : Effect Halt State PUnit) s halt s' := by
  intro h
  have hset : Returns (set next : Effect Halt State PUnit) s ⟨⟩ next :=
    returns_set.mpr rfl
  exact h.not_returns hset

/-!
# Halts that are avoided
-/

section Avoids

variable {halt : Halt}

theorem avoids_pure (a : α) : Avoids halt (pure a : Effect Halt State α) :=
  fun _ _ => not_halts_pure

theorem avoids_throw {halt' : Halt} (hne : halt' ≠ halt) :
    Avoids halt (throw halt' : Effect Halt State α) := by
  intro s s' h
  exact hne (halts_throw.mp h).left.symm

theorem avoids_bind {act : Effect Halt State α} {f : α -> Effect Halt State β}
    (hact : Avoids halt act) (hf : forall a, Avoids halt (f a)) :
    Avoids halt (act >>= f) := by
  intro s s'' h
  rcases halts_bind.mp h with h | ⟨a, s', _, h⟩
  · exact hact s s'' h
  · exact hf a s' s'' h

theorem returns_of_avoids {act : Effect Halt State α} (h : forall halt, Avoids halt act)
    (s : State) : exists a s', Returns act s a s' := by
  rcases returns_or_halts act s with hreturns | ⟨halt, s', hhalts⟩
  · exact hreturns
  · exact absurd hhalts (h halt s s')

end Avoids

/-!
# What is left alone
-/

section Leaves

variable {γ : Type v} {view : State -> γ}

theorem leaves_pure (a : α) : Leaves view (pure a : Effect Halt State α) :=
  fun _ => rfl

theorem leaves_throw (halt : Halt) : Leaves view (throw halt : Effect Halt State α) :=
  fun _ => rfl

theorem leaves_bind {act : Effect Halt State α} {f : α -> Effect Halt State β}
    (hact : Leaves view act) (hf : forall a, Leaves view (f a)) :
    Leaves view (act >>= f) := by
  intro s
  have hfirst := hact s
  rcases returns_or_halts act s with ⟨a, s', h⟩ | ⟨halt, s', h⟩
  · rw [lastState_bind_of_returns h, hf a s', ← hfirst, h.lastState_eq]
  · rw [(h.bind f).lastState_eq, ← hfirst, h.lastState_eq]

theorem Leaves.keeps {act : Effect Halt State α} (h : Leaves view act) :
    Keeps view act := by
  intro s a s' hreturns
  rw [← hreturns.lastState_eq]
  exact h s

theorem leaves_get_bind {f : State -> Effect Halt State β}
    (h : forall s, view (lastState (f s) s) = view s) :
    Leaves view (get >>= f) := by
  intro s
  rw [lastState_bind_of_returns (returns_get.mpr ⟨rfl, rfl⟩)]
  exact h s

theorem lastState_set_bind {next s : State} {f : PUnit -> Effect Halt State β} :
    lastState (set next >>= f) s = lastState (f ⟨⟩) next :=
  lastState_bind_of_returns (returns_set.mpr rfl)

end Leaves

end Foundation
end Notnets
