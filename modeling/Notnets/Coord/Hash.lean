import Notnets.Foundation.MachineInteger
import Notnets.Foundation.RingBuffer
import Notnets.Foundation.Rotation

/-!
# Addresses as numbers

A server's address names the segment of its table, and a client's address is its
client id.  Both are numbers that a hash makes of the bytes of a C string.
-/

namespace Notnets
namespace Coord

open Foundation

def rol (r : BitVec 32) (k : Nat) : BitVec 32 :=
  r <<< k ||| r >>> (32 - k)

/-- The loop of `hash`, up to the terminating zero. -/
def hashLoop (result : BitVec 32) : List Byte -> BitVec 32
  | [] => result
  | c :: input =>
      if c = 0 then result
      else hashLoop (rol (result ^^^ c.toBitVec.setWidth 32) 5) input

def hash (input : List Byte) : Int :=
  (hashLoop 0x55555555 input).toInt

def InInt32 (x : Int) : Prop :=
  -2 ^ 31 ≤ x ∧ x < 2 ^ 31

theorem hash_inInt32 (input : List Byte) : InInt32 (hash input) :=
  ⟨BitVec.le_toInt _, BitVec.toInt_lt⟩

example : hash [] = 0x55555555 := by decide

/-- `client_id` in `client_open` and `client_close`. -/
def clientId (sourceAddr : List Byte) : Int :=
  hash sourceAddr

/-- `key` in `coord_create` and `coord_attach`. -/
def coordKey (coordAddress : List Byte) : Int :=
  hash coordAddress

/-!
# Collisions

The hash is linear in the bytes of an address, so that whether two addresses of
one length collide depends on where they differ, and on nothing else.
-/

/-- A byte as `result ^= *input++` uses it. -/
def widen (c : Byte) : BitVec 32 :=
  c.toBitVec.setWidth 32

/-- The bytes in which two addresses differ, each rotated as often as the loop
rotates it. -/
def addressDifference (s t : List Byte) : BitVec 32 :=
  xorSum ((List.zipWith (fun a b => a ^^^ b) s t).mapIdx fun i c =>
    (widen c).rotateLeft (5 * (s.length - i) % 32))

def DifferInOneByte (s t : List Byte) : Prop :=
  exists i : Nat, s[i]? ≠ t[i]? ∧ forall j : Nat, j ≠ i -> s[j]? = t[j]?

/-- When two addresses collide. -/
structure CollisionLaw (s t : List Byte) : Prop where
  law : BitVec.ofInt 32 (hash s) ^^^ BitVec.ofInt 32 (hash t) = addressDifference s t
  clientIds : clientId s = clientId t <-> addressDifference s t = 0#32
  coordKeys : coordKey s = coordKey t <-> addressDifference s t = 0#32
  oneByte : DifferInOneByte s t -> clientId s ≠ clientId t ∧ coordKey s ≠ coordKey t

theorem rol_eq_rotateLeft (r : BitVec 32) : rol r 5 = r.rotateLeft 5 := by
  rw [BitVec.rotateLeft_def]
  rfl

theorem hashLoop_eq (result : BitVec 32) {input : List Byte} (hinput : 0 ∉ input) :
    hashLoop result input = rotateXor 5 result (input.map widen) := by
  induction input generalizing result with
  | nil => rfl
  | cons c rest ih =>
      have hc : c ≠ 0 := by
        intro hzero
        exact hinput (hzero ▸ List.mem_cons_self)
      have hrest : 0 ∉ rest := fun hmem => hinput (List.mem_cons_of_mem c hmem)
      rw [hashLoop, if_neg hc, rol_eq_rotateLeft, ih _ hrest]
      rfl

theorem hash_eq_iff {s t : List Byte} :
    hash s = hash t <-> hashLoop 0x55555555 s ^^^ hashLoop 0x55555555 t = 0#32 := by
  unfold hash
  rw [BitVec.toInt_inj]
  exact BitVec.xor_eq_zero_iff.symm

theorem ofInt_hash (input : List Byte) :
    BitVec.ofInt 32 (hash input) = hashLoop 0x55555555 input :=
  BitVec.ofInt_toInt

theorem widen_xor (a b : Byte) : widen (a ^^^ b) = widen a ^^^ widen b := by
  unfold widen
  rw [UInt8.toBitVec_xor, BitVec.setWidth_xor]

theorem widen_eq_zero_iff {c : Byte} : widen c = 0#32 <-> c = 0 := by
  constructor
  · intro h
    apply UInt8.eq_of_toBitVec_eq
    have hback := congrArg (fun word => BitVec.setWidth 8 word) h
    simpa [widen] using hback
  · intro h
    rw [h]
    rfl

section Equal

variable {s t : List Byte}

theorem hashLoop_xor (result : BitVec 32) (hlength : s.length = t.length)
    (hs : 0 ∉ s) (ht : 0 ∉ t) :
    hashLoop result s ^^^ hashLoop result t = addressDifference s t := by
  have hmap : List.zipWith (fun input input' => input ^^^ input') (s.map widen)
      (t.map widen) = (List.zipWith (fun a b => a ^^^ b) s t).map widen := by
    rw [List.zipWith_map, List.map_zipWith]
    simp only [widen_xor]
  have hcount : (List.zipWith (fun a b => a ^^^ b) s t).length = s.length := by
    rw [List.length_zipWith, hlength, Nat.min_self]
  rw [hashLoop_eq result hs, hashLoop_eq result ht,
    rotateXor_xor 5 result result (by simpa using hlength), BitVec.xor_self, rotateXor_eq,
    zero_rotateLeft, BitVec.zero_xor, hmap]
  unfold rotatedInputs addressDifference
  congr 1
  apply List.ext_getElem?
  intro i
  rw [List.getElem?_mapIdx, List.getElem?_mapIdx, List.getElem?_map, List.length_map,
    hcount, Option.map_map]
  simp only [BitVec.rotateLeft_mod_eq_rotateLeft]
  rfl

theorem addressDifference_ne_zero (hlength : s.length = t.length)
    (h : DifferInOneByte s t) : addressDifference s t ≠ 0#32 := by
  rcases h with ⟨i, hdiffer, hsame⟩
  have hi : i < s.length := by
    by_contra hout
    rw [List.getElem?_eq_none (by lia), List.getElem?_eq_none (by lia)] at hdiffer
    exact hdiffer rfl
  have hi' : i < t.length := by lia
  rw [List.getElem?_eq_getElem hi, List.getElem?_eq_getElem hi'] at hdiffer
  have hne : s[i] ^^^ t[i] ≠ 0 := by
    intro hzero
    exact hdiffer (congrArg some (UInt8.xor_eq_zero_iff.mp hzero))
  have hsingle : addressDifference s t =
      (widen (s[i] ^^^ t[i])).rotateLeft (5 * (s.length - i) % 32) := by
    apply xorSum_single (i := i)
    · simp [hi, hi']
    · intro j other hj hother
      rw [List.getElem?_mapIdx, List.getElem?_zipWith, hsame j hj] at hother
      cases htj : t[j]? with
      | none => simp [htj] at hother
      | some c =>
          rw [htj] at hother
          simp only [Option.map_some, UInt8.xor_self, Option.some.injEq] at hother
          rw [← hother, rotateLeft_eq_zero_iff, widen_eq_zero_iff]
  rw [hsingle, Ne, rotateLeft_eq_zero_iff, widen_eq_zero_iff]
  exact hne

/-- Two addresses of one length collide exactly if the bytes in which they differ,
rotated, cancel out; one byte alone never does. -/
theorem hash_collision_law (hlength : s.length = t.length) (hs : 0 ∉ s) (ht : 0 ∉ t) :
    CollisionLaw s t := by
  have hxor := hashLoop_xor 0x55555555 hlength hs ht
  have hequal : hash s = hash t <-> addressDifference s t = 0#32 := by
    rw [hash_eq_iff, hxor]
  constructor
  · rw [ofInt_hash, ofInt_hash]
    exact hxor
  · exact hequal
  · exact hequal
  · intro hone
    have hne : hash s ≠ hash t := by
      intro hcollide
      exact addressDifference_ne_zero hlength hone (hequal.mp hcollide)
    exact ⟨hne, hne⟩

end Equal

/-- A change of one byte that a change of the next one makes up for. -/
theorem hash_collision_law_neighbours :
    clientId [97, 97] = clientId [96, 65] ∧ CollisionLaw [97, 97] [96, 65] := by
  have hlaw : CollisionLaw [97, 97] [96, 65] :=
    hash_collision_law rfl (by decide) (by decide)
  exact ⟨hlaw.clientIds.mpr (by decide), hlaw⟩

end Coord
end Notnets
