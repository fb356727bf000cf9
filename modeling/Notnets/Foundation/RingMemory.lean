import Mathlib.Data.List.Induction
import Notnets.Foundation.RingBuffer

/-!
# What a ring holds after whole messages

A message is copied in one go into the slot of its number.  The memory of a
ring is then a function of the messages that were copied, and a slot holds, at
each offset, the byte of the last message of that slot that was long enough.
-/

namespace Notnets
namespace Foundation

/-!
# Copies
-/

def copyTo (mem : ByteMemory) (address : Int) : List Byte -> ByteMemory
  | [] => mem
  | b :: rest => copyTo (Function.update mem address b) (address + 1) rest

def load (mem : ByteMemory) (address : Int) (n : Nat) : List Byte :=
  (List.range n).map fun k : Nat => mem (address + k)

theorem copyTo_outside (mem : ByteMemory) {address x : Int} {bytes : List Byte}
    (h : x < address ∨ address + bytes.length ≤ x) :
    copyTo mem address bytes x = mem x := by
  induction bytes generalizing mem address with
  | nil => rfl
  | cons b rest ih =>
      rw [List.length_cons] at h
      have hne : x ≠ address := by lia
      show copyTo (Function.update mem address b) (address + 1) rest x = mem x
      rw [ih (Function.update mem address b) (by lia), Function.update_of_ne hne]

theorem copyTo_inside (mem : ByteMemory) (address : Int) {bytes : List Byte} {k : Nat}
    (hk : k < bytes.length) : copyTo mem address bytes (address + k) = bytes[k] := by
  induction bytes generalizing mem address k with
  | nil => simp at hk
  | cons b rest ih =>
      show copyTo (Function.update mem address b) (address + 1) rest (address + k) = _
      cases k with
      | zero =>
          rw [copyTo_outside _ (by lia)]
          simp
      | succ k =>
          have hshift : address + ((k + 1 : Nat) : Int) = address + 1 + (k : Int) := by
            lia
          rw [hshift, ih (Function.update mem address b) (address + 1)
            (by simpa using hk)]
          rfl

theorem copyTo_snoc (mem : ByteMemory) (address : Int) (bytes : List Byte) (b : Byte) :
    copyTo mem address (bytes ++ [b]) =
      Function.update (copyTo mem address bytes) (address + bytes.length) b := by
  induction bytes generalizing mem address with
  | nil => simp [copyTo]
  | cons c rest ih =>
      show copyTo (Function.update mem address c) (address + 1) (rest ++ [b]) = _
      rw [ih, List.length_cons, Nat.cast_succ, add_comm (rest.length : Int) 1,
        ← add_assoc]
      rfl

@[simp] theorem length_load (mem : ByteMemory) (address : Int) (n : Nat) :
    (load mem address n).length = n := by
  simp [load]

@[simp] theorem load_zero (mem : ByteMemory) (address : Int) :
    load mem address 0 = [] := rfl

theorem load_succ (mem : ByteMemory) (address : Int) (n : Nat) :
    load mem address (n + 1) = load mem address n ++ [mem (address + n)] := by
  simp [load, List.range_succ]

theorem getElem_load (mem : ByteMemory) (address : Int) {n k : Nat}
    (hk : k < (load mem address n).length) :
    (load mem address n)[k] = mem (address + k) := by
  simp [load]

theorem take_load (mem : ByteMemory) (address : Int) (n k : Nat) :
    (load mem address n).take k = load mem address (min k n) := by
  simp [load, ← List.map_take, List.take_range]

theorem load_congr {mem mem' : ByteMemory} {address address' : Int} {n : Nat}
    (h : forall k : Nat, k < n -> mem (address + k) = mem' (address' + k)) :
    load mem address n = load mem' address' n := by
  unfold load
  apply List.map_congr_left
  intro k hk
  exact h k (List.mem_range.mp hk)

theorem eq_of_load_eq {mem mem' : ByteMemory} {address address' : Int} {n k : Nat}
    (h : load mem address n = load mem' address' n) (hk : k < n) :
    mem (address + k) = mem' (address' + k) := by
  have hget := congrArg (fun bytes => bytes[k]?) h
  simpa [load, hk] using hget

theorem load_of_holdsAt {mem : ByteMemory} {address : Int} {bytes : List Byte}
    {offset n : Nat} (h : HoldsAt mem address bytes) (hn : offset + n ≤ bytes.length) :
    load mem (address + offset) n = (bytes.drop offset).take n := by
  apply List.ext_getElem
  · simp
    lia
  · intro k hread _
    have hk : k < n := by rw [← length_load mem (address + offset) n]; exact hread
    have hcast : address + (offset : Int) + (k : Int) = address + (offset + k : Nat) := by
      lia
    rw [getElem_load _ _ hread, hcast, h (offset + k) (by lia)]
    simp

/-!
# The memory of a ring
-/

def ringMemory (base size slots : Nat) (mem : ByteMemory)
    (messages : List (List Byte)) : ByteMemory :=
  messages.zipIdx.foldl
    (fun mem message => copyTo mem (slotAddress base size (message.2 % slots)) message.1)
    mem

/-- The bytes of a slot after the messages: each message of the slot is laid over the
bytes that were there before it. -/
def slotBytes (slots slot : Nat) (before : List Byte) (messages : List (List Byte)) :
    List Byte :=
  messages.zipIdx.foldl
    (fun bytes message =>
      if message.2 % slots = slot then message.1 ++ bytes.drop message.1.length
      else bytes)
    before

section Ring

variable {base size slots : Nat} {mem : ByteMemory} {messages : List (List Byte)}

@[simp] theorem ringMemory_nil : ringMemory base size slots mem [] = mem := rfl

theorem ringMemory_snoc (message : List Byte) :
    ringMemory base size slots mem (messages ++ [message]) =
      copyTo (ringMemory base size slots mem messages)
        (slotAddress base size (messages.length % slots)) message := by
  simp [ringMemory, List.zipIdx_append]

theorem ringMemory_snoc_slot {message : List Byte} {slot k : Nat} (hk : k < size)
    (hmessage : message.length ≤ size) :
    ringMemory base size slots mem (messages ++ [message])
        (slotAddress base size slot + k) =
      if h : messages.length % slots = slot ∧ k < message.length then message[k]
      else ringMemory base size slots mem messages (slotAddress base size slot + k) := by
  rw [ringMemory_snoc]
  by_cases hslot : messages.length % slots = slot
  · subst slot
    by_cases hlong : k < message.length
    · rw [dif_pos ⟨rfl, hlong⟩, copyTo_inside _ _ hlong]
    · rw [dif_neg (fun h => hlong h.right), copyTo_outside _ (by lia)]
  · rw [dif_neg (fun h => hslot h.left)]
    apply copyTo_outside
    by_contra hinside
    rw [not_or, not_lt, not_le] at hinside
    rcases Int.le.dest hinside.left with ⟨l, hl⟩
    exact slotAddress_disjoint base hslot (by lia) hk hl

@[simp] theorem slotBytes_nil (slots slot : Nat) (before : List Byte) :
    slotBytes slots slot before [] = before := rfl

theorem slotBytes_snoc (slot : Nat) (before message : List Byte) :
    slotBytes slots slot before (messages ++ [message]) =
      if messages.length % slots = slot then
        message ++ (slotBytes slots slot before messages).drop message.length
      else slotBytes slots slot before messages := by
  simp [slotBytes, List.zipIdx_append]

theorem slotBytes_of_unused {slot : Nat} (before : List Byte)
    (h : forall i, i < messages.length -> i % slots ≠ slot) :
    slotBytes slots slot before messages = before := by
  induction messages using List.reverseRecOn with
  | nil => rfl
  | append_singleton messages message ih =>
      rw [List.length_append, List.length_singleton] at h
      rw [slotBytes_snoc, if_neg (h messages.length (by lia))]
      exact ih fun i hi => h i (by lia)

theorem load_ringMemory (slot : Nat)
    (hsize : forall message, message ∈ messages -> message.length ≤ size) :
    load (ringMemory base size slots mem messages) (slotAddress base size slot) size =
      slotBytes slots slot (load mem (slotAddress base size slot) size) messages := by
  induction messages using List.reverseRecOn with
  | nil => rfl
  | append_singleton messages message ih =>
      have hbefore := ih fun other hother => hsize other (List.mem_append_left _ hother)
      have hmessage : message.length ≤ size := hsize message (by simp)
      rw [slotBytes_snoc, ← hbefore]
      split
      · rename_i hslot
        apply List.ext_getElem
        · simp
          lia
        · intro k hk _
          have hin : k < size := by simpa using hk
          rw [getElem_load _ _ hk, ringMemory_snoc_slot hin hmessage]
          by_cases hlong : k < message.length
          · rw [dif_pos ⟨hslot, hlong⟩, List.getElem_append_left hlong]
          · rw [dif_neg (fun hboth => hlong hboth.right),
              List.getElem_append_right (by lia), List.getElem_drop, getElem_load]
            congr 2
            lia
      · rename_i hslot
        apply load_congr
        intro k hk
        rw [ringMemory_snoc_slot hk hmessage, dif_neg fun hboth => hslot hboth.left]

/-- The last message of a slot that has a byte at an offset determines it. -/
theorem ringMemory_last {message : List Byte} {later : List (List Byte)} {k : Nat}
    (hk : k < message.length)
    (hsize : forall other, other ∈ messages ++ message :: later -> other.length ≤ size)
    (hlater : forall i other, later[i]? = some other ->
      (messages.length + 1 + i) % slots = messages.length % slots -> other.length ≤ k) :
    ringMemory base size slots mem (messages ++ message :: later)
        (slotAddress base size (messages.length % slots) + k) = message[k] := by
  have hmessage : message.length ≤ size := hsize message (by simp)
  induction later using List.reverseRecOn with
  | nil => rw [ringMemory_snoc_slot (by lia) hmessage, dif_pos ⟨rfl, hk⟩]
  | append_singleton later last ih =>
      have hlast : last.length ≤ size := hsize last (by simp)
      have hassoc : messages ++ message :: (later ++ [last]) =
          messages ++ message :: later ++ [last] := by
        simp
      have hlength : (messages ++ message :: later).length =
          messages.length + 1 + later.length := by
        simp
        lia
      rw [hassoc, ringMemory_snoc_slot (by lia) hlast, dif_neg]
      · apply ih
        · intro other hother
          exact hsize other (by rw [hassoc]; exact List.mem_append_left _ hother)
        · intro i other hother
          rcases List.getElem?_eq_some_iff.mp hother with ⟨hi, _⟩
          exact hlater i other (by rw [List.getElem?_append_left hi]; exact hother)
      · intro hboth
        rcases hboth with ⟨hslot, hlong⟩
        rw [hlength] at hslot
        have hle := hlater later.length last (by simp) hslot
        lia

theorem holdsAt_ringMemory {i : Nat} {message : List Byte}
    (hsize : forall other, other ∈ messages -> other.length ≤ size)
    (hmessage : messages[i]? = some message) (hwindow : messages.length ≤ i + slots) :
    HoldsAt (ringMemory base size slots mem messages)
      (slotAddress base size (i % slots)) message := by
  intro k hk
  rcases List.getElem?_eq_some_iff.mp hmessage with ⟨hi, heq⟩
  have hsplit : messages = messages.take i ++ message :: messages.drop (i + 1) := by
    rw [← heq, List.getElem_cons_drop, List.take_append_drop]
  have hlength : (messages.take i).length = i := by
    rw [List.length_take]
    lia
  have hlater : forall j other, (messages.drop (i + 1))[j]? = some other ->
      ((messages.take i).length + 1 + j) % slots = (messages.take i).length % slots ->
        other.length ≤ k := by
    intro j other hother hslot
    rw [hlength] at hslot
    rw [List.getElem?_drop] at hother
    rcases List.getElem?_eq_some_iff.mp hother with ⟨hj, _⟩
    have hsame := eq_of_mod_eq (by lia : i ≤ i + 1 + j) (by lia) hslot.symm
    lia
  rw [hsplit] at hsize
  have hlast := @ringMemory_last base size slots mem _ _ _ k hk hsize hlater
  rw [← hsplit, hlength] at hlast
  exact hlast

theorem map_length_snoc {messages messages' : List (List Byte)} {last last' : List Byte}
    (h : (messages ++ [last]).map List.length = (messages' ++ [last']).map List.length) :
    messages.map List.length = messages'.map List.length ∧
      last.length = last'.length := by
  rw [List.map_append, List.map_append] at h
  rcases List.append_inj' h rfl with ⟨hfront, hlast⟩
  exact ⟨hfront, List.head_eq_of_cons_eq hlast⟩

theorem ringMemory_agree {messages' : List (List Byte)} {slot k : Nat} (hk : k < size)
    (hlengths : messages.map List.length = messages'.map List.length)
    (hsize : forall message, message ∈ messages -> message.length ≤ size)
    (hsame : forall i message, messages[i]? = some message -> i % slots = slot ->
      k < message.length -> messages'[i]? = some message) :
    ringMemory base size slots mem messages (slotAddress base size slot + k) =
      ringMemory base size slots mem messages' (slotAddress base size slot + k) := by
  induction messages using List.reverseRecOn generalizing messages' with
  | nil =>
      have hnil := List.map_eq_nil_iff.mp hlengths.symm
      rw [hnil]
  | append_singleton messages last ih =>
      cases messages' using List.reverseRecOn with
      | nil => simp at hlengths
      | append_singleton messages' last' =>
          rcases map_length_snoc hlengths with ⟨hfront, hlast⟩
          have hcount : messages.length = messages'.length := by
            simpa using congrArg List.length hfront
          have hfits : last.length ≤ size := hsize last (by simp)
          have hbefore : ringMemory base size slots mem messages
              (slotAddress base size slot + k) =
                ringMemory base size slots mem messages'
                  (slotAddress base size slot + k) := by
            apply ih hfront
            · intro message hmessage
              exact hsize message (List.mem_append_left _ hmessage)
            · intro i message hmessage hslot hreach
              rcases List.getElem?_eq_some_iff.mp hmessage with ⟨hi, _⟩
              have hother := hsame i message
                (by rw [List.getElem?_append_left hi]; exact hmessage) hslot hreach
              rw [List.getElem?_append_left (by lia)] at hother
              exact hother
          rw [ringMemory_snoc_slot hk hfits, ringMemory_snoc_slot hk (by lia)]
          by_cases hlong : messages.length % slots = slot ∧ k < last.length
          · have hequal := hsame messages.length last (by simp) hlong.left hlong.right
            rw [hcount, List.getElem?_concat_length] at hequal
            have hsamelast := Option.some.inj hequal
            subst hsamelast
            rw [dif_pos hlong, dif_pos (by rw [← hcount]; exact hlong)]
          · rw [dif_neg hlong, dif_neg (by rw [← hcount, ← hlast]; exact hlong), hbefore]

/-- A message that reaches an offset of a slot can be changed so that the byte at
that offset is another. -/
theorem exists_ringMemory_ne {slot k : Nat} (hk : k < size)
    (hsize : forall message, message ∈ messages -> message.length ≤ size)
    (hreaches : exists i message, messages[i]? = some message ∧ i % slots = slot ∧
      k < message.length) :
    exists messages' : List (List Byte),
      messages.map List.length = messages'.map List.length ∧
        (forall i : Nat, i % slots ≠ slot -> messages[i]? = messages'[i]?) ∧
        ringMemory base size slots mem messages (slotAddress base size slot + k) ≠
          ringMemory base size slots mem messages' (slotAddress base size slot + k) := by
  induction messages using List.reverseRecOn with
  | nil =>
      rcases hreaches with ⟨i, message, hmessage, _⟩
      simp at hmessage
  | append_singleton messages last ih =>
      have hfits : last.length ≤ size := hsize last (by simp)
      by_cases hlong : messages.length % slots = slot ∧ k < last.length
      · refine ⟨messages ++ [last.set k (last[k] + 1)], by simp, ?_, ?_⟩
        · intro i hi
          have hne : i ≠ messages.length := by
            rintro rfl
            exact hi hlong.left
          by_cases hin : i < messages.length
          · rw [List.getElem?_append_left hin, List.getElem?_append_left hin]
          · rw [List.getElem?_eq_none (by simp; lia),
              List.getElem?_eq_none (by simp; lia)]
        · rw [ringMemory_snoc_slot hk hfits,
            ringMemory_snoc_slot hk (by simpa using hfits), dif_pos hlong,
            dif_pos (by simpa using hlong), List.getElem_set_self]
          intro hequal
          exact absurd (UInt8.left_eq_add.mp hequal) (by decide)
      · rcases hreaches with ⟨i, message, hmessage, hslot, hreach⟩
        have hin : i < messages.length := by
          by_contra hlater
          have hi : i = messages.length := by
            rcases List.getElem?_eq_some_iff.mp hmessage with ⟨hlt, _⟩
            rw [List.length_append, List.length_singleton] at hlt
            lia
          rw [hi, List.getElem?_concat_length] at hmessage
          rw [← Option.some.inj hmessage] at hreach
          exact hlong ⟨by rw [← hi]; exact hslot, hreach⟩
        rw [List.getElem?_append_left hin] at hmessage
        rcases ih (fun other hother => hsize other (List.mem_append_left _ hother))
          ⟨i, message, hmessage, hslot, hreach⟩ with ⟨messages', hlengths, hsame, hne⟩
        have hcount : messages.length = messages'.length := by
          simpa using congrArg List.length hlengths
        refine ⟨messages' ++ [last], by simp [hlengths], ?_, ?_⟩
        · intro j hj
          by_cases hbefore : j < messages.length
          · rw [List.getElem?_append_left hbefore, List.getElem?_append_left (by lia)]
            exact hsame j hj
          · rw [List.getElem?_append_right (by lia), List.getElem?_append_right (by lia),
              hcount]
        · rw [ringMemory_snoc_slot hk hfits, ringMemory_snoc_slot hk hfits, dif_neg hlong,
            dif_neg (by rw [← hcount]; exact hlong)]
          exact hne

end Ring

end Foundation
end Notnets
