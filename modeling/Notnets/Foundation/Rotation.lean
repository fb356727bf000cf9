import Mathlib.Data.List.Basic
import Mathlib.Tactic.Common

/-!
# Rotation and xor

A word that is xored with the next input and rotated, again and again, is linear
in its inputs: the difference of two such words is the word of the differences.
-/

namespace Notnets
namespace Foundation

section Rotate

variable {w : Nat}

theorem mod_of_lt_twice {a : Nat} (h : a < w + w) :
    a % w = if a < w then a else a - w := by
  split
  · rename_i hlt
    exact Nat.mod_eq_of_lt hlt
  · rename_i hge
    rw [Nat.mod_eq_sub_mod (by lia), Nat.mod_eq_of_lt (by lia)]

theorem getLsbD_rotateLeft_mod (x : BitVec w) (r : Nat) {i : Nat} (hi : i < w) :
    (x.rotateLeft r).getLsbD i = x.getLsbD ((i + w - r % w) % w) := by
  have hr : r % w < w := Nat.mod_lt r (by lia)
  rw [BitVec.getLsbD_rotateLeft, mod_of_lt_twice (a := i + w - r % w) (by lia)]
  by_cases hlow : i < r % w
  · have hindex : i + w - r % w = w - r % w + i := by lia
    rw [if_pos (by lia), hindex]
    simp [hlow]
  · have hindex : i + w - r % w - w = i - r % w := by lia
    rw [if_neg (by lia), hindex]
    simp [hlow, hi]

theorem rotateLeft_xor (x y : BitVec w) (r : Nat) :
    (x ^^^ y).rotateLeft r = x.rotateLeft r ^^^ y.rotateLeft r := by
  apply BitVec.eq_of_getLsbD_eq
  intro i hi
  rw [BitVec.getLsbD_xor, getLsbD_rotateLeft_mod _ _ hi, getLsbD_rotateLeft_mod _ _ hi,
    getLsbD_rotateLeft_mod _ _ hi, BitVec.getLsbD_xor]

theorem rotateLeft_rotateLeft (x : BitVec w) (r k : Nat) :
    (x.rotateLeft r).rotateLeft k = x.rotateLeft (r + k) := by
  apply BitVec.eq_of_getLsbD_eq
  intro i hi
  have hr : r % w < w := Nat.mod_lt r (by lia)
  have hk : k % w < w := Nat.mod_lt k (by lia)
  have hindex : ((i + w - k % w) % w + w - r % w) % w = (i + w - (r + k) % w) % w := by
    rw [Nat.add_mod r k w]
    generalize r % w = a at hr
    generalize k % w = b at hk
    have hmiddle := mod_of_lt_twice (a := i + w - b) (by lia : i + w - b < w + w)
    have hsum := mod_of_lt_twice (a := a + b) (by lia : a + b < w + w)
    have hlow := Nat.mod_lt (i + w - b) (by lia : 0 < w)
    have htop := Nat.mod_lt (a + b) (by lia : 0 < w)
    generalize (i + w - b) % w = m at hmiddle hlow
    generalize (a + b) % w = c at hsum htop
    rw [mod_of_lt_twice (a := m + w - a) (by lia),
      mod_of_lt_twice (a := i + w - c) (by lia)]
    lia
  rw [getLsbD_rotateLeft_mod _ _ hi, getLsbD_rotateLeft_mod _ _ (Nat.mod_lt _ (by lia)),
    getLsbD_rotateLeft_mod _ _ hi, hindex]

@[simp] theorem zero_rotateLeft (r : Nat) : (0#w).rotateLeft r = 0#w := by
  apply BitVec.eq_of_getLsbD_eq
  intro i hi
  rw [getLsbD_rotateLeft_mod _ _ hi]
  simp

theorem rotateLeft_of_mod_eq_zero (x : BitVec w) {r : Nat} (hr : r % w = 0) :
    x.rotateLeft r = x := by
  apply BitVec.eq_of_getLsbD_eq
  intro i hi
  rw [getLsbD_rotateLeft_mod _ _ hi, hr, Nat.sub_zero, Nat.add_mod_right,
    Nat.mod_eq_of_lt hi]

theorem rotateLeft_back (x : BitVec w) (r : Nat) :
    (x.rotateLeft r).rotateLeft (w - r % w) = x := by
  rw [rotateLeft_rotateLeft]
  by_cases hw : w = 0
  · subst hw
    exact BitVec.of_length_zero.trans BitVec.of_length_zero.symm
  · have hr : r % w < w := Nat.mod_lt r (by lia)
    have hsplit := Nat.div_add_mod r w
    have hsum : r + (w - r % w) = w * (r / w + 1) := by
      rw [Nat.mul_add]
      lia
    apply rotateLeft_of_mod_eq_zero
    rw [hsum, Nat.mul_mod_right]

theorem rotateLeft_eq_zero_iff {x : BitVec w} {r : Nat} :
    x.rotateLeft r = 0#w <-> x = 0#w := by
  constructor
  · intro h
    rw [← rotateLeft_back x r, h, zero_rotateLeft]
  · intro h
    rw [h, zero_rotateLeft]

end Rotate

/-!
# A word of many inputs
-/

section RotateXor

variable {w : Nat}

def rotateXor (r : Nat) (word : BitVec w) (inputs : List (BitVec w)) : BitVec w :=
  inputs.foldl (fun word input => (word ^^^ input).rotateLeft r) word

def xorSum (words : List (BitVec w)) : BitVec w :=
  words.foldr (fun word rest => word ^^^ rest) 0#w

def rotatedInputs (r : Nat) (inputs : List (BitVec w)) : List (BitVec w) :=
  inputs.mapIdx fun i input => input.rotateLeft (r * (inputs.length - i))

theorem xorSum_cons (word : BitVec w) (rest : List (BitVec w)) :
    xorSum (word :: rest) = word ^^^ xorSum rest := rfl

theorem xorSum_eq_zero {words : List (BitVec w)}
    (h : forall word, word ∈ words -> word = 0#w) : xorSum words = 0#w := by
  induction words with
  | nil => rfl
  | cons word rest ih =>
      have hrest := ih fun other hother => h other (List.mem_cons_of_mem word hother)
      rw [xorSum_cons, h word List.mem_cons_self, hrest]
      exact BitVec.xor_zero

theorem xorSum_single {words : List (BitVec w)} {i : Nat} {word : BitVec w}
    (hword : words[i]? = some word)
    (hothers : forall j other, j ≠ i -> words[j]? = some other -> other = 0#w) :
    xorSum words = word := by
  induction words generalizing i with
  | nil => simp at hword
  | cons first rest ih =>
      rw [xorSum_cons]
      cases i with
      | zero =>
          have hfirst : first = word := by simpa using hword
          have hrest : xorSum rest = 0#w := by
            apply xorSum_eq_zero
            intro other hother
            rcases List.getElem?_of_mem hother with ⟨j, hj⟩
            exact hothers (j + 1) other (Nat.succ_ne_zero j) hj
          rw [hfirst, hrest]
          exact BitVec.xor_zero
      | succ i =>
          have hfirst := hothers 0 first (Nat.succ_ne_zero i).symm rfl
          have hrest : xorSum rest = word := by
            apply ih hword
            intro j other hne hother
            exact hothers (j + 1) other (by lia) hother
          rw [hfirst, hrest]
          exact BitVec.zero_xor

theorem rotatedInputs_cons (r : Nat) (input : BitVec w) (rest : List (BitVec w)) :
    rotatedInputs r (input :: rest) =
      input.rotateLeft (r * (rest.length + 1)) :: rotatedInputs r rest := by
  simp [rotatedInputs, List.mapIdx_cons]

theorem rotateXor_eq (r : Nat) (word : BitVec w) (inputs : List (BitVec w)) :
    rotateXor r word inputs =
      word.rotateLeft (r * inputs.length) ^^^ xorSum (rotatedInputs r inputs) := by
  induction inputs generalizing word with
  | nil =>
      rw [List.length_nil, Nat.mul_zero,
        rotateLeft_of_mod_eq_zero word (Nat.zero_mod w)]
      exact (BitVec.xor_zero).symm
  | cons input rest ih =>
      have hstep : rotateXor r word (input :: rest) =
          rotateXor r ((word ^^^ input).rotateLeft r) rest := rfl
      have hturns : r + r * rest.length = r * (rest.length + 1) := by
        rw [Nat.mul_add]
        lia
      rw [hstep, ih, rotateLeft_rotateLeft, rotateLeft_xor, hturns, rotatedInputs_cons,
        xorSum_cons, List.length_cons, BitVec.xor_assoc]

/-- The difference of two words is the word of the differences. -/
theorem rotateXor_xor (r : Nat) (word word' : BitVec w)
    {inputs inputs' : List (BitVec w)} (hlength : inputs.length = inputs'.length) :
    rotateXor r word inputs ^^^ rotateXor r word' inputs' =
      rotateXor r (word ^^^ word')
        (List.zipWith (fun input input' => input ^^^ input') inputs inputs') := by
  induction inputs generalizing word word' inputs' with
  | nil =>
      cases inputs' with
      | nil => rfl
      | cons input' rest' => cases hlength
  | cons input rest ih =>
      cases inputs' with
      | nil => cases hlength
      | cons input' rest' =>
          have hmix : (word ^^^ input).rotateLeft r ^^^ (word' ^^^ input').rotateLeft r =
              (word ^^^ word' ^^^ (input ^^^ input')).rotateLeft r := by
            rw [← rotateLeft_xor]
            congr 1
            ac_rfl
          show rotateXor r ((word ^^^ input).rotateLeft r) rest ^^^
              rotateXor r ((word' ^^^ input').rotateLeft r) rest' = _
          rw [ih _ _ (Nat.succ.inj hlength), hmix]
          rfl

end RotateXor

end Foundation
end Notnets
