import Mathlib.Data.List.Induction
import Mathlib.Data.Rat.Defs
import Mathlib.Algebra.Order.Ring.Rat
import Notnets.Foundation.MachineInteger
import Notnets.Foundation.SampleMoments

/-!
# RunningStat

The statistics of the experiments, over exact rationals.  Only the counter is set
by the constructor and by `clear`: an accumulator has no value before the first
store to it, and a read of it is then undefined.
-/

namespace Notnets
namespace Util

open Foundation

structure RunningStat where
  n : Int
  oldM : Option ℚ
  newM : Option ℚ
  oldS : Option ℚ
  newS : Option ℚ
deriving DecidableEq, Repr

namespace RunningStat

/-- The constructor. -/
def construct : RunningStat where
  n := 0
  oldM := none
  newM := none
  oldS := none
  newS := none

def clear (r : RunningStat) : RunningStat :=
  { r with n := 0 }

def push (x : ℚ) (r : RunningStat) : Option RunningStat :=
  let n := toInt32 (r.n + 1)
  if n = 1 then
    some { r with n := n, oldM := some x, newM := some x, oldS := some 0 }
  else
    match r.oldM, r.oldS with
    | some oldM, some oldS =>
        let newM := oldM + (x - oldM) / n
        let newS := oldS + (x - oldM) * (x - newM)
        some
          { n := n
            oldM := some newM
            newM := some newM
            oldS := some newS
            newS := some newS }
    | _, _ => none

def getNumDataValues (r : RunningStat) : Int :=
  r.n

def getMean (r : RunningStat) : Option ℚ :=
  if 0 < r.n then r.newM else some 0

def getVariance (r : RunningStat) : Option ℚ :=
  if 1 < r.n then r.newS.map fun newS => newS / (r.n - 1) else some 0

end RunningStat

/-- One call of a method that changes the object. -/
inductive StatCall where
  | push (x : ℚ)
  | clear
deriving DecidableEq, Repr

def StatCall.run : StatCall -> RunningStat -> Option RunningStat
  | .push x, r => r.push x
  | .clear, r => some r.clear

def runCalls (calls : List StatCall) (r : RunningStat) : Option RunningStat :=
  calls.foldlM (fun r call => call.run r) r

def runPushes (xs : List ℚ) (r : RunningStat) : Option RunningStat :=
  runCalls (xs.map StatCall.push) r

structure SampleOf (xs : List ℚ) (r : RunningStat) : Prop where
  count : r.getNumDataValues = xs.length
  average : r.getMean = some (mean xs)
  variance : 2 ≤ xs.length ->
    r.getVariance = some (squaredDeviation xs / (xs.length - 1))
  single : xs.length = 1 -> r.getVariance = some 0

/-- The values pushed since `clear`, or since the construction, are the sample,
whatever was pushed and cleared before.  Nothing that the accumulators hold at the
start is read, since they need not hold anything. -/
structure Samples (history : List StatCall) (xs : List ℚ) : Prop where
  cleared : exists r s, runCalls history .construct = some r ∧
    runPushes xs r.clear = some s ∧ SampleOf xs s
  constructed : exists s, runPushes xs .construct = some s ∧ SampleOf xs s
  fresh : forall oldM newM oldS newS, exists s,
    runPushes xs ⟨0, oldM, newM, oldS, newS⟩ = some s ∧ SampleOf xs s

/-!
# Every history is defined
-/

structure Written (r : RunningStat) : Prop where
  means : r.n ≠ 0 -> exists oldM newM oldS,
    r.oldM = some oldM ∧ r.newM = some newM ∧ r.oldS = some oldS
  newS : r.n ≠ 0 -> r.n ≠ 1 -> exists newS, r.newS = some newS

theorem written_construct : Written .construct :=
  ⟨fun h => absurd rfl h, fun h => absurd rfl h⟩

theorem push_written {r : RunningStat} (h : Written r) (x : ℚ) :
    exists s, r.push x = some s ∧ s.n = toInt32 (r.n + 1) ∧ Written s := by
  unfold RunningStat.push
  by_cases hfirst : toInt32 (r.n + 1) = 1
  · rw [if_pos hfirst]
    exact ⟨_, rfl, rfl, fun _ => ⟨_, _, _, rfl, rfl, rfl⟩, fun _ hne => absurd hfirst hne⟩
  · rw [if_neg hfirst]
    have hn : r.n ≠ 0 := by
      intro hzero
      rw [hzero] at hfirst
      exact hfirst (by decide)
    rcases h.means hn with ⟨oldM, newM, oldS, holdM, _, holdS⟩
    rw [holdM, holdS]
    exact ⟨_, rfl, rfl, fun _ => ⟨_, _, _, rfl, rfl, rfl⟩, fun _ _ => ⟨_, rfl⟩⟩

theorem clear_written (r : RunningStat) : Written r.clear :=
  ⟨fun h => absurd rfl h, fun h => absurd rfl h⟩

theorem runCalls_written {r : RunningStat} (h : Written r) (calls : List StatCall) :
    exists s, runCalls calls r = some s ∧ Written s := by
  induction calls generalizing r with
  | nil => exact ⟨r, rfl, h⟩
  | cons call rest ih =>
      cases call with
      | push x =>
          rcases push_written h x with ⟨s, hs, _, hwritten⟩
          rcases ih hwritten with ⟨t, ht, hlast⟩
          refine ⟨t, ?_, hlast⟩
          show (r.push x).bind (runCalls rest) = some t
          rw [hs]
          exact ht
      | clear => exact ih (clear_written r)

/-!
# The values since the start
-/

theorem runPushes_snoc (xs : List ℚ) (x : ℚ) (r : RunningStat) :
    runPushes (xs ++ [x]) r = (runPushes xs r).bind fun s => s.push x := by
  simp [runPushes, runCalls, StatCall.run, List.foldlM_append]

structure Accumulates (xs : List ℚ) (r : RunningStat) : Prop where
  n : r.n = xs.length
  oldM : r.oldM = some (mean xs)
  newM : r.newM = some (mean xs)
  oldS : r.oldS = some (squaredDeviation xs)
  newS : xs.length ≠ 1 -> r.newS = some (squaredDeviation xs)

theorem push_first {r : RunningStat} (hn : r.n = 0) (x : ℚ) :
    exists s, r.push x = some s ∧ Accumulates [x] s := by
  have hone : toInt32 (r.n + 1) = 1 := by
    rw [hn]
    decide
  refine ⟨_, if_pos hone, ?_⟩
  constructor
  · exact hone
  · rw [mean_singleton]
  · rw [mean_singleton]
  · rw [squaredDeviation_singleton]
  · exact fun hne => absurd rfl hne

theorem push_next {xs : List ℚ} {r : RunningStat} (h : Accumulates xs r) (hxs : xs ≠ [])
    (hfits : xs.length + 1 < 2 ^ 31) (x : ℚ) :
    exists s, r.push x = some s ∧ Accumulates (xs ++ [x]) s := by
  have hpos : 0 < xs.length := List.length_pos_iff.mpr hxs
  have hcount : toInt32 (r.n + 1) = (xs.length + 1 : Nat) := by
    rw [h.n, ← Nat.cast_succ]
    exact toInt32_natCast hfits
  have hlater : ¬ toInt32 (r.n + 1) = 1 := by
    rw [hcount]
    lia
  have hmean : mean xs + (x - mean xs) / ((toInt32 (r.n + 1) : Int) : ℚ) =
      mean (xs ++ [x]) := by
    rw [hcount, mean_snoc]
    push_cast
    rfl
  have hdeviation : squaredDeviation xs + (x - mean xs) * (x - mean (xs ++ [x])) =
      squaredDeviation (xs ++ [x]) := (squaredDeviation_snoc xs x).symm
  unfold RunningStat.push
  rw [if_neg hlater, h.oldM, h.oldS]
  simp only [hmean, hdeviation]
  refine ⟨_, rfl, ?_⟩
  constructor
  · rw [List.length_append]
    exact hcount
  · rfl
  · rfl
  · rfl
  · exact fun _ => rfl

theorem runPushes_accumulates {xs : List ℚ} (hxs : xs ≠ []) (hfits : xs.length < 2 ^ 31)
    {r : RunningStat} (hn : r.n = 0) :
    exists s, runPushes xs r = some s ∧ Accumulates xs s := by
  induction xs using List.reverseRecOn with
  | nil => exact absurd rfl hxs
  | append_singleton xs x ih =>
      rw [List.length_append, List.length_singleton] at hfits
      rw [runPushes_snoc]
      by_cases hfirst : xs = []
      · subst hfirst
        exact push_first hn x
      · rcases ih hfirst (by lia) with ⟨s, hs, haccumulates⟩
        rw [hs]
        exact push_next haccumulates hfirst hfits x

theorem Accumulates.sampleOf {xs : List ℚ} {r : RunningStat} (h : Accumulates xs r)
    (hxs : xs ≠ []) : SampleOf xs r := by
  have hpos : 0 < xs.length := List.length_pos_iff.mpr hxs
  have hn := h.n
  constructor
  · exact hn
  · unfold RunningStat.getMean
    rw [if_pos (by lia)]
    exact h.newM
  · intro htwo
    unfold RunningStat.getVariance
    rw [if_pos (by lia), h.newS (by lia), hn]
    rfl
  · intro hone
    unfold RunningStat.getVariance
    rw [if_neg (by lia)]

/-- A `RunningStat` computes the mean and the variance of the values pushed since it
was cleared or made, if their number fits its counter. -/
theorem runningStat_samples (history : List StatCall) {xs : List ℚ} (hxs : xs ≠ [])
    (hfits : xs.length < 2 ^ 31) : Samples history xs := by
  have hsample : forall start : RunningStat, start.n = 0 ->
      exists s, runPushes xs start = some s ∧ SampleOf xs s := by
    intro start hn
    rcases runPushes_accumulates hxs hfits hn with ⟨s, hs, haccumulates⟩
    exact ⟨s, hs, haccumulates.sampleOf hxs⟩
  constructor
  · rcases runCalls_written written_construct history with ⟨r, hr, _⟩
    rcases hsample r.clear rfl with ⟨s, hs, hsampled⟩
    exact ⟨r, s, hr, hs, hsampled⟩
  · exact hsample .construct rfl
  · intro oldM newM oldS newS
    exact hsample _ rfl

/-- Three values, after two others that were cleared. -/
theorem runningStat_samples_three :
    exists r s, runCalls [.push 5, .push 8] .construct = some r ∧
      runPushes [1, 2, 6] r.clear = some s ∧ s.getNumDataValues = 3 ∧
        s.getMean = some 3 ∧ s.getVariance = some 7 := by
  have hsamples := runningStat_samples [.push 5, .push 8] (List.cons_ne_nil 1 [2, 6])
    (by decide)
  rcases hsamples.cleared with ⟨r, s, hr, hs, hsample⟩
  have hmean : mean [(1 : ℚ), 2, 6] = 3 := by
    norm_num [mean]
  have hdeviation : squaredDeviation [(1 : ℚ), 2, 6] / (3 - 1) = 7 := by
    unfold squaredDeviation
    rw [hmean]
    norm_num
  refine ⟨r, s, hr, hs, hsample.count, ?_, ?_⟩
  · rw [hsample.average, hmean]
  · rw [hsample.variance (by decide)]
    exact congrArg some hdeviation

/-!
# The range of the counter
-/

theorem push_n {r s : RunningStat} {x : ℚ} (h : r.push x = some s) :
    s.n = toInt32 (r.n + 1) := by
  unfold RunningStat.push at h
  dsimp only at h
  split at h
  · cases h
    rfl
  · split at h
    · cases h
      rfl
    · cases h

theorem runPushes_n {xs : List ℚ} {r s : RunningStat} (hn : r.n = 0)
    (h : runPushes xs r = some s) : s.n = toInt32 xs.length := by
  induction xs using List.reverseRecOn generalizing s with
  | nil =>
      cases h
      exact hn
  | append_singleton xs x ih =>
      rw [runPushes_snoc] at h
      rcases Option.bind_eq_some_iff.mp h with ⟨t, ht, hpush⟩
      rw [push_n hpush, ih ht, List.length_append, List.length_singleton]
      unfold toInt32
      rw [Int.bmod_add_bmod]
      push_cast
      rfl

/-- `m_n` is an `int`: the value after the largest one makes it negative. -/
theorem runningStat_overflow :
    ¬ forall (history : List StatCall) (xs : List ℚ), xs ≠ [] -> Samples history xs := by
  intro hclaim
  have hlength : (List.replicate (2 ^ 31) (0 : ℚ)).length = 2 ^ 31 :=
    List.length_replicate
  have hxs : List.replicate (2 ^ 31) (0 : ℚ) ≠ [] := by
    intro hnil
    rw [hnil] at hlength
    cases hlength
  rcases (hclaim [] _ hxs).constructed with ⟨s, hs, hsample⟩
  have hcount : s.n = toInt32 (2 ^ 31 : Nat) := by
    rw [runPushes_n rfl hs, hlength]
  have hclaimed : s.n = (2 ^ 31 : Nat) := by
    rw [← hlength]
    exact hsample.count
  rw [hcount] at hclaimed
  exact absurd hclaimed (by decide)

end Util
end Notnets
