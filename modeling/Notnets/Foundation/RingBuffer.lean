import Mathlib.Data.Nat.ModEq
import Mathlib.Logic.Function.Basic
import Mathlib.Data.List.Basic
import Mathlib.Tactic.Ring
import Mathlib.Tactic.Linarith

/-!
# Ring buffers of equal byte slots

A ring keeps its slots one after the other in a byte memory and reuses them in
turn.  Messages are counted without bound: message number `m` lives in slot
`m % slots`.  The window of live messages is shorter than the ring, so two live
messages, or a live message and the one being written, never share a slot.
-/

namespace Notnets
namespace Foundation

abbrev Byte := UInt8

/-- A byte memory addressed by offsets from the start of a region. -/
abbrev ByteMemory := Int -> Byte

/-!
# Lists that grow at the end
-/

theorem getElem?_append_of_some {messages : List (List Byte)} {m : Nat}
    {message : List Byte} (h : messages[m]? = some message)
    (more : List (List Byte)) : (messages ++ more)[m]? = some message := by
  rcases List.getElem?_eq_some_iff.mp h with ⟨hlt, _⟩
  rw [List.getElem?_append_left hlt]
  exact h

/-!
# Ranges of bytes
-/

def HoldsAt (mem : ByteMemory) (address : Int) (bytes : List Byte) : Prop :=
  forall (k : Nat) (hk : k < bytes.length), mem (address + k) = bytes[k]

theorem holdsAt_nil (mem : ByteMemory) (address : Int) : HoldsAt mem address [] := by
  intro k hk
  simp at hk

theorem holdsAt_write_outside {mem : ByteMemory} {address target : Int}
    {bytes : List Byte} {b : Byte}
    (h : HoldsAt mem address bytes)
    (houtside : forall k : Nat, k < bytes.length -> address + k ≠ target) :
    HoldsAt (Function.update mem target b) address bytes := by
  intro k hk
  rw [Function.update_of_ne (houtside k hk)]
  exact h k hk

theorem holdsAt_write_next {mem : ByteMemory} {address : Int}
    {bytes : List Byte} {n : Nat} (hn : n < bytes.length)
    (h : HoldsAt mem address (bytes.take n)) :
    HoldsAt (Function.update mem (address + n) bytes[n]) address
      (bytes.take (n + 1)) := by
  intro k hk
  have hk1 : k < n + 1 := by
    rw [List.length_take] at hk
    lia
  rw [List.getElem_take]
  by_cases hkn : k = n
  · subst k
    exact Function.update_self (address + n) bytes[n] mem
  · have hlt : k < (bytes.take n).length := by
      rw [List.length_take]
      lia
    have hold := h k hlt
    rw [List.getElem_take] at hold
    have hne : address + (k : Int) ≠ address + (n : Int) := by lia
    rw [Function.update_of_ne hne]
    exact hold

theorem take_succ_of_holdsAt {mem : ByteMemory} {address : Int}
    {bytes : List Byte} {offset n : Nat} (h : HoldsAt mem address bytes)
    (hn : offset + n < bytes.length) :
    (bytes.drop offset).take n ++ [mem (address + (offset + n : Nat))] =
      (bytes.drop offset).take (n + 1) := by
  have hlen : n < (bytes.drop offset).length := by
    rw [List.length_drop]
    lia
  rw [h (offset + n) hn, List.take_add_one, List.getElem?_eq_getElem hlen,
    List.getElem_drop]
  rfl

/-!
# Indices
-/

/-- Advancing an index with one comparison is counting modulo the slots. -/
theorem wrap_succ {slots m : Nat} (hslots : 0 < slots) :
    (if m % slots + 1 = slots then 0 else m % slots + 1) = (m + 1) % slots := by
  have hlt := Nat.mod_lt m hslots
  by_cases hlast : m % slots + 1 = slots
  · rw [if_pos hlast, Nat.add_mod_eq_ite]
    by_cases hone : slots = 1
    · subst slots
      simp [Nat.mod_one]
    · have h1 : 1 % slots = 1 := Nat.mod_eq_of_lt (by lia)
      rw [h1, if_pos (by lia)]
      lia
  · rw [if_neg hlast, Nat.add_mod_eq_ite]
    have h1 : 1 % slots = 1 := Nat.mod_eq_of_lt (by lia)
    rw [h1, if_neg (by lia)]

/-- Two counts less than one turn apart that share an index are equal. -/
theorem eq_of_mod_eq {slots a b : Nat} (hab : a ≤ b) (hb : b < a + slots)
    (h : a % slots = b % slots) : a = b := by
  have hdvd : slots ∣ b - a := (Nat.modEq_iff_dvd' hab).mp h
  have hzero : b - a = 0 := Nat.eq_zero_of_dvd_of_lt hdvd (by lia)
  lia

theorem sub_mod_of_window {slots a b : Nat} (hab : a ≤ b) (hb : b < a + slots) :
    ((b % slots : Nat) - (a % slots : Nat) : Int) % (slots : Int) = (b - a : Nat) := by
  have hcast : ((b % slots : Nat) - (a % slots : Nat) : Int) % (slots : Int) =
      ((b : Int) - (a : Int)) % (slots : Int) := by
    push_cast
    rw [Int.emod_sub_emod, Int.sub_emod_emod]
  rw [hcast]
  have hle : (b : Int) - (a : Int) = ((b - a : Nat) : Int) := by lia
  rw [hle]
  norm_cast
  exact Nat.mod_eq_of_lt (by lia)

/-!
# Slots

`slotAddress` is where a slot starts.  The bytes of different slots are
different addresses, whatever the base and the size of a slot.
-/

def slotAddress (base size index : Nat) : Int :=
  base + (index * size : Nat)

theorem slotAddress_inj {size i j k l : Nat} (hk : k < size) (hl : l < size)
    (h : i * size + k = j * size + l) : i = j := by
  have hpos : 0 < size := by lia
  have hi : (i * size + k) / size = i := by
    rw [Nat.mul_comm, Nat.mul_add_div hpos, Nat.div_eq_of_lt hk, Nat.add_zero]
  have hj : (j * size + l) / size = j := by
    rw [Nat.mul_comm, Nat.mul_add_div hpos, Nat.div_eq_of_lt hl, Nat.add_zero]
  rw [← hi, ← hj, h]

theorem slotAddress_disjoint (base : Nat) {size i j k l : Nat} (hij : i ≠ j)
    (hk : k < size) (hl : l < size) :
    slotAddress base size i + k ≠ slotAddress base size j + l := by
  intro h
  apply hij
  apply slotAddress_inj hk hl
  unfold slotAddress at h
  lia

/-!
# The live window

Every message from number `first` on is held by its slot.
-/

def RingHolds (base size slots : Nat) (mem : ByteMemory)
    (messages : List (List Byte)) (first : Nat) : Prop :=
  forall m message, first ≤ m -> messages[m]? = some message ->
    HoldsAt mem (slotAddress base size (m % slots)) message

theorem ringHolds_empty (base size slots : Nat) (mem : ByteMemory) :
    RingHolds base size slots mem [] 0 := by
  intro m message _ hmessage
  simp at hmessage

theorem ringHolds_write {base size slots first k : Nat} {mem : ByteMemory}
    {messages : List (List Byte)} {b : Byte}
    (h : RingHolds base size slots mem messages first)
    (hwindow : messages.length < first + slots)
    (hsize : forall message, message ∈ messages -> message.length ≤ size)
    (hk : k < size) :
    RingHolds base size slots
      (Function.update mem
        (slotAddress base size (messages.length % slots) + k) b)
      messages first := by
  intro m message hm hmessage
  apply holdsAt_write_outside (h m message hm hmessage)
  intro l hl
  have hlength : message.length ≤ size :=
    hsize message (List.mem_of_getElem? hmessage)
  rcases List.getElem?_eq_some_iff.mp hmessage with ⟨hmlt, _⟩
  apply slotAddress_disjoint base _ (by lia) hk
  intro hindex
  have hsame : m = messages.length :=
    eq_of_mod_eq (by lia) (by lia) hindex
  lia

theorem ringHolds_append {base size slots first : Nat} {mem : ByteMemory}
    {messages : List (List Byte)} {message : List Byte}
    (h : RingHolds base size slots mem messages first)
    (hnew : HoldsAt mem
      (slotAddress base size (messages.length % slots)) message) :
    RingHolds base size slots mem (messages ++ [message]) first := by
  intro m other hm hother
  by_cases hmlt : m < messages.length
  · rw [List.getElem?_append_left hmlt] at hother
    exact h m other hm hother
  · rw [List.getElem?_append_right (by lia)] at hother
    rw [List.getElem?_singleton] at hother
    by_cases hzero : m - messages.length = 0
    · rw [if_pos hzero] at hother
      have hmeq : m = messages.length := by lia
      subst m
      cases hother
      exact hnew
    · rw [if_neg hzero] at hother
      cases hother

theorem ringHolds_advance {base size slots first next : Nat}
    {mem : ByteMemory} {messages : List (List Byte)}
    (h : RingHolds base size slots mem messages first) (hle : first ≤ next) :
    RingHolds base size slots mem messages next := by
  intro m message hm hmessage
  exact h m message (Nat.le_trans hle hm) hmessage

end Foundation
end Notnets
