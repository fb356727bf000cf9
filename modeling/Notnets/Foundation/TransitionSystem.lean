import Mathlib.Data.List.Basic

/-!
# Labelled transition systems

An interleaving of several parties is modelled by an executable partial step
function: a label says which party moves and carries every choice that the
environment makes.  Runs keep the transitions they took, so that a condition on
the states *before* each step and a property of the states *after* each step
can be compared along one run.
-/

namespace Notnets
namespace Foundation

universe u v w x

/-- A system given by its initial states and one executable step function. -/
structure TransitionSystem (State : Type u) (Label : Type v) where
  Initial : State -> Prop
  next : State -> Label -> Option State

/-- One transition of a run: the state before, the label, the state after. -/
structure Transition (State : Type u) (Label : Type v) where
  source : State
  label : Label
  target : State

namespace TransitionSystem

variable {State : Type u} {Label : Type v}

/-!
# Runs

A run grows at its end, which is where invariants are extended.
-/

inductive Run (M : TransitionSystem State Label) (start : State) :
    List (Transition State Label) -> State -> Prop where
  | nil : Run M start [] start
  | snoc {trace : List (Transition State Label)} {s s' : State} {l : Label} :
      Run M start trace s ->
      M.next s l = some s' ->
      Run M start (trace ++ [⟨s, l, s'⟩]) s'

/-- Every step of the trace meets the guard in the state it starts from. -/
def Guarded (guard : State -> Label -> Prop)
    (trace : List (Transition State Label)) : Prop :=
  forall t, t ∈ trace -> guard t.source t.label

/-- Reached from an initial state by steps that all meet the guard. -/
def ReachableUnder (M : TransitionSystem State Label)
    (guard : State -> Label -> Prop) (s : State) : Prop :=
  exists start trace,
    M.Initial start ∧ M.Run start trace s ∧ Guarded guard trace

/-- Reached from an initial state by any steps. -/
def Reachable (M : TransitionSystem State Label) (s : State) : Prop :=
  M.ReachableUnder (fun _ _ => True) s

theorem Run.target {M : TransitionSystem State Label} {start s : State}
    {trace : List (Transition State Label)} (hrun : M.Run start trace s) :
    s = start ∨ exists t, t ∈ trace ∧ t.target = s := by
  cases hrun with
  | nil => exact Or.inl rfl
  | snoc hprev hnext =>
      exact Or.inr ⟨_, List.mem_append_right _ (List.mem_singleton.mpr rfl), rfl⟩

theorem reachable_step {M : TransitionSystem State Label} {s s' : State} {l : Label}
    (hs : M.Reachable s) (hnext : M.next s l = some s') : M.Reachable s' := by
  rcases hs with ⟨start, trace, hstart, hrun, _⟩
  exact ⟨start, _, hstart, Run.snoc hrun hnext, fun _ _ => trivial⟩

theorem Run.upTo {M : TransitionSystem State Label} {start s : State}
    {trace before after : List (Transition State Label)} {t : Transition State Label}
    (hrun : M.Run start trace s) (htrace : trace = before ++ t :: after) :
    M.Run start before t.source ∧ M.next t.source t.label = some t.target := by
  induction hrun generalizing after with
  | nil => simp at htrace
  | snoc hprev hnext ih =>
      rcases List.eq_nil_or_concat after with rfl | ⟨after, last, rfl⟩
      · rcases List.append_inj' htrace rfl with ⟨hbefore, hlast⟩
        injection hlast with hlast _
        rw [← hbefore, ← hlast]
        exact ⟨hprev, hnext⟩
      · rw [List.concat_eq_append, ← List.cons_append, ← List.append_assoc] at htrace
        exact ih (List.append_inj' htrace rfl).left

theorem Run.split {M : TransitionSystem State Label} {start s : State}
    {trace before window : List (Transition State Label)} (hrun : M.Run start trace s)
    (htrace : trace = before ++ window) :
    exists mid, M.Run start before mid ∧ M.Run mid window s := by
  induction hrun generalizing window with
  | nil =>
      rcases List.append_eq_nil_iff.mp htrace.symm with ⟨hbefore, hwindow⟩
      rw [hbefore, hwindow]
      exact ⟨start, Run.nil, Run.nil⟩
  | snoc hprev hnext ih =>
      rcases List.eq_nil_or_concat window with rfl | ⟨window, last, rfl⟩
      · rw [List.append_nil] at htrace
        rw [← htrace]
        exact ⟨_, Run.snoc hprev hnext, Run.nil⟩
      · rw [List.concat_eq_append, ← List.append_assoc] at htrace
        rcases List.append_inj' htrace rfl with ⟨hbefore, hlast⟩
        injection hlast with hlast _
        rcases ih hbefore with ⟨mid, hfirst, hsecond⟩
        rw [List.concat_eq_append, ← hlast]
        exact ⟨mid, hfirst, Run.snoc hsecond hnext⟩

theorem guarded_nil (guard : State -> Label -> Prop) :
    Guarded guard ([] : List (Transition State Label)) := by
  intro t ht
  cases ht

theorem guarded_snoc (guard : State -> Label -> Prop)
    {trace : List (Transition State Label)} {t : Transition State Label} :
    Guarded guard (trace ++ [t]) <->
      Guarded guard trace ∧ guard t.source t.label := by
  constructor
  · intro h
    constructor
    · intro u hu
      exact h u (List.mem_append_left [t] hu)
    · exact h t (List.mem_append_right trace (List.mem_singleton.mpr rfl))
  · intro h u hu
    rcases List.mem_append.mp hu with hu | hu
    · exact h.left u hu
    · rw [List.mem_singleton.mp hu]
      exact h.right

theorem guarded_and {first second : State -> Label -> Prop}
    {trace : List (Transition State Label)} :
    Guarded (fun s l => first s l ∧ second s l) trace <->
      Guarded first trace ∧ Guarded second trace := by
  constructor
  · intro h
    exact ⟨fun t ht => (h t ht).left, fun t ht => (h t ht).right⟩
  · intro h t ht
    exact ⟨h.left t ht, h.right t ht⟩

/-!
# Invariants

The induction over a run is made once.  A safety theorem then needs an initial
state lemma and one step lemma.
-/

theorem run_invariant {M : TransitionSystem State Label}
    {guard : State -> Label -> Prop} {Inv : State -> Prop}
    (hstep : forall s l s',
      Inv s -> guard s l -> M.next s l = some s' -> Inv s')
    {start s : State} {trace : List (Transition State Label)}
    (hrun : M.Run start trace s) (hguard : Guarded guard trace)
    (hstart : Inv start) : Inv s := by
  induction hrun with
  | nil => exact hstart
  | snoc hprev hnext ih =>
      rcases (guarded_snoc guard).mp hguard with ⟨hbefore, hlast⟩
      exact hstep _ _ _ (ih hbefore) hlast hnext

/-- An invariant may also speak of the transitions so far. -/
theorem run_trace_invariant {M : TransitionSystem State Label}
    {guard : State -> Label -> Prop}
    {Inv : List (Transition State Label) -> State -> Prop}
    (hstep : forall trace s l s', Inv trace s -> guard s l ->
      M.next s l = some s' -> Inv (trace ++ [⟨s, l, s'⟩]) s')
    {start s : State} {trace : List (Transition State Label)}
    (hrun : M.Run start trace s) (hguard : Guarded guard trace)
    (hstart : Inv [] start) : Inv trace s := by
  induction hrun with
  | nil => exact hstart
  | snoc hprev hnext ih =>
      rcases (guarded_snoc guard).mp hguard with ⟨hbefore, hlast⟩
      exact hstep _ _ _ _ (ih hbefore) hlast hnext

theorem reachableUnder_invariant {M : TransitionSystem State Label}
    {guard : State -> Label -> Prop} {Inv : State -> Prop}
    (hinit : forall s, M.Initial s -> Inv s)
    (hstep : forall s l s',
      Inv s -> guard s l -> M.next s l = some s' -> Inv s')
    {s : State} (hs : M.ReachableUnder guard s) : Inv s := by
  rcases hs with ⟨start, trace, hstart, hrun, hguard⟩
  exact run_invariant hstep hrun hguard (hinit start hstart)

theorem run_invariant_source {M : TransitionSystem State Label}
    {guard : State -> Label -> Prop} {Inv : State -> Prop}
    (hstep : forall s l s',
      Inv s -> guard s l -> M.next s l = some s' -> Inv s')
    {start s : State} {trace : List (Transition State Label)}
    (hrun : M.Run start trace s) (hguard : Guarded guard trace)
    (hstart : Inv start) :
    forall t, t ∈ trace -> Inv t.source ∧ M.next t.source t.label = some t.target := by
  induction hrun with
  | nil =>
      intro t ht
      cases ht
  | snoc hprev hnext ih =>
      rcases (guarded_snoc guard).mp hguard with ⟨hbefore, hlast⟩
      intro t ht
      rcases List.mem_append.mp ht with ht | ht
      · exact ih hbefore t ht
      · rw [List.mem_singleton.mp ht]
        exact ⟨run_invariant hstep hprev hbefore hstart, hnext⟩

/-!
# Simulation

A system with finer steps does nothing new when each of its steps, seen through an
abstraction of its states, is a step of the other system or changes nothing.
-/

section Simulation

variable {Abstract : Type w} {AbstractLabel : Type x}
  {M : TransitionSystem State Label} {N : TransitionSystem Abstract AbstractLabel}
  {Inv : State -> Prop} {view : State -> Abstract}

def Simulates (M : TransitionSystem State Label)
    (N : TransitionSystem Abstract AbstractLabel) (Inv : State -> Prop)
    (view : State -> Abstract) : Prop :=
  forall s l s', Inv s -> M.next s l = some s' ->
    view s' = view s ∨ exists a, N.next (view s) a = some (view s')

theorem Simulates.run (h : M.Simulates N Inv view)
    (hstep : forall s l s', Inv s -> M.next s l = some s' -> Inv s')
    {start s : State} {trace : List (Transition State Label)}
    (hrun : M.Run start trace s) (hstart : Inv start) :
    exists steps, N.Run (view start) steps (view s) := by
  have hkeeps : forall s l s', Inv s -> True -> M.next s l = some s' -> Inv s' :=
    fun s l s' hs _ hnext => hstep s l s' hs hnext
  induction hrun with
  | nil => exact ⟨[], Run.nil⟩
  | snoc hprev hnext ih =>
      rcases ih with ⟨steps, hsteps⟩
      have hs := run_invariant hkeeps hprev (fun _ _ => trivial) hstart
      rcases h _ _ _ hs hnext with hsame | ⟨a, ha⟩
      · rw [hsame]
        exact ⟨steps, hsteps⟩
      · exact ⟨_, Run.snoc hsteps ha⟩

theorem Simulates.reachable (h : M.Simulates N Inv view)
    (hinit : forall s, M.Initial s -> Inv s ∧ N.Initial (view s))
    (hstep : forall s l s', Inv s -> M.next s l = some s' -> Inv s')
    {s : State} (hs : M.Reachable s) : N.Reachable (view s) := by
  rcases hs with ⟨start, trace, hstart, hrun, _⟩
  rcases hinit start hstart with ⟨hinv, hview⟩
  rcases h.run hstep hrun hinv with ⟨steps, hsteps⟩
  exact ⟨view start, steps, hview, hsteps, fun _ _ => trivial⟩

end Simulation

/-!
# Exact conditions

A condition on the state before each step is exact for a property of the
transitions when meeting it keeps an invariant that gives the property, and
missing it once breaks the property at that very step.  Both may rely on what is
assumed of all steps.
-/

theorem run_guarded_iff_safe {M : TransitionSystem State Label}
    {assumed guard : State -> Label -> Prop}
    {Inv : State -> Prop} {Safe : Transition State Label -> Prop}
    (hkeep : forall s l s', Inv s -> M.next s l = some s' -> assumed s l ->
      guard s l -> Inv s' ∧ Safe ⟨s, l, s'⟩)
    (hbreak : forall s l s', Inv s -> M.next s l = some s' -> assumed s l ->
      ¬ guard s l -> ¬ Safe ⟨s, l, s'⟩)
    {start s : State} {trace : List (Transition State Label)}
    (hrun : M.Run start trace s) (hassumed : Guarded assumed trace)
    (hstart : Inv start) :
    Guarded guard trace <-> forall t, t ∈ trace -> Safe t := by
  have hinv : forall s l s', Inv s -> assumed s l ∧ guard s l ->
      M.next s l = some s' -> Inv s' :=
    fun s l s' hs hg hn => (hkeep s l s' hs hn hg.left hg.right).left
  constructor
  · intro hguard t ht
    have hboth := guarded_and.mpr ⟨hassumed, hguard⟩
    rcases run_invariant_source hinv hrun hboth hstart t ht with ⟨hsource, hnext⟩
    exact (hkeep _ _ _ hsource hnext (hassumed t ht) (hguard t ht)).right
  · intro hsafe
    induction hrun with
    | nil => exact guarded_nil guard
    | snoc hprev hnext ih =>
        rename_i trace s s' l
        rcases (guarded_snoc assumed).mp hassumed with ⟨hearlier, hlast⟩
        have hbefore : Guarded guard trace :=
          ih hearlier (fun t ht => hsafe t (List.mem_append_left _ ht))
        have hs : Inv s := run_invariant hinv hprev
          (guarded_and.mpr ⟨hearlier, hbefore⟩) hstart
        apply (guarded_snoc guard).mpr
        constructor
        · exact hbefore
        · by_contra hmiss
          exact hbreak s l s' hs hnext hlast hmiss
            (hsafe _ (List.mem_append_right _ (List.mem_singleton.mpr rfl)))

/-!
# Rankings

A number that every step lowers bounds the length of every run, whatever the order
of the steps.
-/

theorem Run.length_le_of_rank {M : TransitionSystem State Label}
    {Inv : State -> Prop} {rank : State -> Nat}
    (hstep : forall s l s', Inv s -> M.next s l = some s' -> Inv s')
    (hrank : forall s l s', Inv s -> M.next s l = some s' -> rank s' < rank s)
    {start s : State} {trace : List (Transition State Label)}
    (hrun : M.Run start trace s) (hstart : Inv start) :
    trace.length + rank s ≤ rank start := by
  have hkeeps : forall s l s', Inv s -> True -> M.next s l = some s' -> Inv s' :=
    fun s l s' hs _ hnext => hstep s l s' hs hnext
  induction hrun with
  | nil => exact Nat.le_of_eq (Nat.zero_add _)
  | snoc hprev hnext ih =>
      have hs := run_invariant hkeeps hprev (fun _ _ => trivial) hstart
      have hlower := hrank _ _ _ hs hnext
      rw [List.length_append, List.length_singleton]
      lia

/-!
# Executing labels

A list of labels replays a concrete run.
-/

/-- Take the steps of a list of labels, oldest first. -/
def execute (M : TransitionSystem State Label) : State -> List Label -> Option State
  | s, [] => some s
  | s, l :: rest =>
      match M.next s l with
      | none => none
      | some s' => M.execute s' rest

theorem execute_run {M : TransitionSystem State Label}
    {labels : List Label} {start mid s : State}
    {trace : List (Transition State Label)}
    (hrun : M.Run start trace mid) (hexec : M.execute mid labels = some s) :
    exists rest, M.Run start (trace ++ rest) s ∧
      rest.map Transition.label = labels := by
  induction labels generalizing mid trace with
  | nil =>
      have hs : mid = s := by simpa [execute] using hexec
      subst s
      exact ⟨[], by simpa using hrun, rfl⟩
  | cons l labels ih =>
      cases hnext : M.next mid l with
      | none => simp [execute, hnext] at hexec
      | some s1 =>
          have hexec1 : M.execute s1 labels = some s := by
            simpa [execute, hnext] using hexec
          rcases ih (Run.snoc hrun hnext) hexec1 with ⟨rest, hrest, hlabels⟩
          refine ⟨⟨mid, l, s1⟩ :: rest, ?_, by simp [hlabels]⟩
          simpa using hrest

theorem exists_run_of_execute {M : TransitionSystem State Label}
    {allowed : Label -> Prop} {labels : List Label} {start s : State}
    (hexec : M.execute start labels = some s)
    (hallowed : forall l, l ∈ labels -> allowed l) :
    exists trace, M.Run start trace s ∧ trace.map Transition.label = labels ∧
      Guarded (fun _ l => allowed l) trace := by
  rcases execute_run Run.nil hexec with ⟨trace, hrun, hlabels⟩
  refine ⟨trace, by simpa using hrun, hlabels, ?_⟩
  intro t ht
  apply hallowed
  rw [← hlabels]
  exact List.mem_map_of_mem ht

theorem reachableUnder_of_execute {M : TransitionSystem State Label}
    {allowed : Label -> Prop} {labels : List Label} {start s : State}
    (hstart : M.Initial start) (hexec : M.execute start labels = some s)
    (hallowed : forall l, l ∈ labels -> allowed l) :
    M.ReachableUnder (fun _ l => allowed l) s := by
  rcases exists_run_of_execute hexec hallowed with ⟨trace, hrun, _, hguard⟩
  exact ⟨start, trace, hstart, hrun, hguard⟩

def replay (M : TransitionSystem State Label) :
    State -> List Label -> Option (List (Transition State Label) × State)
  | s, [] => some ([], s)
  | s, l :: rest =>
      match M.next s l with
      | none => none
      | some s' =>
          (M.replay s' rest).map fun result => (⟨s, l, s'⟩ :: result.1, result.2)

theorem replay_labels {M : TransitionSystem State Label} {labels : List Label}
    {start s : State} {trace : List (Transition State Label)}
    (h : M.replay start labels = some (trace, s)) :
    trace.map Transition.label = labels := by
  induction labels generalizing start trace with
  | nil =>
      cases h
      rfl
  | cons l labels ih =>
      simp only [replay] at h
      split at h
      · cases h
      · rcases Option.map_eq_some_iff.mp h with ⟨⟨rest, s'⟩, hrest, hresult⟩
        injection hresult with htrace hs
        subst hs
        rw [← htrace, List.map_cons, ih hrest]

theorem guarded_of_replay {M : TransitionSystem State Label} {allowed : Label -> Prop}
    {labels : List Label} {start s : State} {trace : List (Transition State Label)}
    (h : M.replay start labels = some (trace, s))
    (hallowed : forall l, l ∈ labels -> allowed l) :
    Guarded (fun _ l => allowed l) trace := by
  intro t ht
  apply hallowed
  rw [← replay_labels h]
  exact List.mem_map_of_mem ht

theorem replay_run {M : TransitionSystem State Label}
    {labels : List Label} {start mid s : State}
    {trace rest : List (Transition State Label)}
    (hrun : M.Run start trace mid) (h : M.replay mid labels = some (rest, s)) :
    M.Run start (trace ++ rest) s := by
  induction labels generalizing mid trace rest with
  | nil =>
      cases h
      simpa using hrun
  | cons l labels ih =>
      simp only [replay] at h
      split at h
      · cases h
      · rename_i s1 hnext
        rcases Option.map_eq_some_iff.mp h with ⟨⟨rest', s'⟩, hrest, hresult⟩
        injection hresult with htrace hs
        subst hs
        rw [← htrace]
        simpa using ih (Run.snoc hrun hnext) hrest

theorem exists_run_of_replay {M : TransitionSystem State Label} {labels : List Label}
    {start : State} {p q : Transition State Label -> Bool}
    (h : ((M.replay start labels).map fun result =>
      (result.1.all p, result.1.any q)) = some (true, true)) :
    exists s trace, M.Run start trace s ∧ (forall t, t ∈ trace -> p t = true) ∧
      exists t, t ∈ trace ∧ q t = true := by
  rcases Option.map_eq_some_iff.mp h with ⟨⟨trace, s⟩, hresult, hboth⟩
  injection hboth with hall hany
  have hrun := replay_run Run.nil hresult
  rw [List.nil_append] at hrun
  exact ⟨s, trace, hrun, List.all_eq_true.mp hall, List.any_eq_true.mp hany⟩

def executeChecked (M : TransitionSystem State Label)
    (check : State -> Label -> Bool) : State -> List Label -> Option State
  | s, [] => some s
  | s, l :: rest =>
      if check s l then
        match M.next s l with
        | none => none
        | some s' => M.executeChecked check s' rest
      else
        none

theorem executeChecked_run {M : TransitionSystem State Label}
    {check : State -> Label -> Bool} {guard : State -> Label -> Prop}
    (hcheck : forall s l, check s l = true -> guard s l)
    {labels : List Label} {start mid s : State}
    {trace : List (Transition State Label)}
    (hrun : M.Run start trace mid) (hguard : Guarded guard trace)
    (hexec : M.executeChecked check mid labels = some s) :
    exists rest, M.Run start (trace ++ rest) s ∧ Guarded guard (trace ++ rest) := by
  induction labels generalizing mid trace with
  | nil =>
      have hs : mid = s := by simpa [executeChecked] using hexec
      subst s
      exact ⟨[], by simpa using hrun, by simpa using hguard⟩
  | cons l labels ih =>
      simp only [executeChecked] at hexec
      split at hexec
      · rename_i hl
        split at hexec
        · cases hexec
        · rename_i s1 hnext
          have hguard1 : Guarded guard (trace ++ [⟨mid, l, s1⟩]) :=
            (guarded_snoc guard).mpr ⟨hguard, hcheck mid l hl⟩
          rcases ih (Run.snoc hrun hnext) hguard1 hexec with ⟨rest, hrest, hall⟩
          refine ⟨⟨mid, l, s1⟩ :: rest, by simpa using hrest, by simpa using hall⟩
      · cases hexec

theorem reachableUnder_of_executeChecked {M : TransitionSystem State Label}
    {check : State -> Label -> Bool} {guard : State -> Label -> Prop}
    (hcheck : forall s l, check s l = true -> guard s l)
    {labels : List Label} {start s : State} (hstart : M.Initial start)
    (hexec : M.executeChecked check start labels = some s) :
    M.ReachableUnder guard s := by
  rcases executeChecked_run hcheck Run.nil (guarded_nil guard) hexec with
    ⟨trace, hrun, hguard⟩
  rw [List.nil_append] at hrun hguard
  exact ⟨start, trace, hstart, hrun, hguard⟩

/-!
# Lockstep

Two systems with the same labels go together when, from related states, a label is a
step of both, to related states, or a step of neither.
-/

section Lockstep

variable {Other : Type w} {M : TransitionSystem State Label}
  {N : TransitionSystem Other Label} {R : State -> Other -> Prop}

def Lockstep (M : TransitionSystem State Label) (N : TransitionSystem Other Label)
    (R : State -> Other -> Prop) : Prop :=
  forall s t l, R s t -> Option.Rel R (M.next s l) (N.next t l)

/-- The same labels lead both to related states, or neither to any. -/
theorem Lockstep.execute (h : M.Lockstep N R) {s : State} {t : Other} (hst : R s t)
    (labels : List Label) : Option.Rel R (M.execute s labels) (N.execute t labels) := by
  induction labels generalizing s t with
  | nil => exact Option.Rel.some hst
  | cons l rest ih =>
      have hstep := h s t l hst
      simp only [TransitionSystem.execute]
      cases hs : M.next s l with
      | none =>
          cases ht : N.next t l with
          | none => exact Option.Rel.none
          | some t' =>
              rw [hs, ht] at hstep
              cases hstep
      | some s' =>
          cases ht : N.next t l with
          | none =>
              rw [hs, ht] at hstep
              cases hstep
          | some t' =>
              rw [hs, ht] at hstep
              cases hstep with
              | some hnext => exact ih hnext

theorem Lockstep.run (h : M.Lockstep N R) {start s : State} {start' : Other}
    {trace : List (Transition State Label)} (hrun : M.Run start trace s)
    (hstart : R start start') :
    exists trace' t, N.Run start' trace' t ∧ R s t ∧
      trace'.map Transition.label = trace.map Transition.label := by
  induction hrun with
  | nil => exact ⟨[], start', Run.nil, hstart, rfl⟩
  | @snoc trace s s' l _ hnext ih =>
      rcases ih with ⟨trace', t, hrun', hst, hlabels⟩
      have hstep := h s t l hst
      rw [hnext] at hstep
      cases hnext' : N.next t l with
      | none =>
          rw [hnext'] at hstep
          cases hstep
      | some t' =>
          rw [hnext'] at hstep
          cases hstep with
          | some hnew =>
              refine ⟨trace' ++ [⟨t, l, t'⟩], t', Run.snoc hrun' hnext', hnew, ?_⟩
              rw [List.map_append, List.map_append, hlabels]
              rfl

end Lockstep

end TransitionSystem

end Foundation
end Notnets
