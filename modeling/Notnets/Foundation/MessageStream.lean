import Notnets.Foundation.RingBuffer

/-!
# Message streams read in parts

What a bounded message queue is for: one side hands over messages of one size,
the other side takes the bytes of the same messages in the same order, possibly
several calls for one message, and learns from the return code whether a call
finished its message.  `Delivered` is this purpose as a relation between the
messages handed over and the log of the receiving calls.
-/

namespace Notnets
namespace Foundation

/-- What one receiving call gave its caller. -/
structure Receipt where
  bytes : List Byte
  ret : Nat
deriving DecidableEq, Repr

/-- All bytes that the calls of a log returned, in order. -/
def received (log : List Receipt) : List Byte :=
  (log.map Receipt.bytes).flatten

/-- The next receiving call starts at this byte of the stream. -/
def position (log : List Receipt) : Nat :=
  (received log).length

@[simp] theorem received_nil : received [] = [] := rfl

@[simp] theorem received_snoc (log : List Receipt) (r : Receipt) :
    received (log ++ [r]) = received log ++ r.bytes := by
  simp [received]

@[simp] theorem position_nil : position [] = 0 := rfl

@[simp] theorem position_snoc (log : List Receipt) (r : Receipt) :
    position (log ++ [r]) = position log + r.bytes.length := by
  simp [position]

/-- A nonempty piece of the one message that the stream position falls into.
The return code is zero exactly when the piece ends the message, and otherwise
counts the bytes of the message read so far. -/
def DeliversAt (size : Nat) (messages : List (List Byte)) (start : Nat)
    (r : Receipt) : Prop :=
  exists message,
    messages[start / size]? = some message ∧
      0 < r.bytes.length ∧
      start % size + r.bytes.length ≤ size ∧
      r.bytes = (message.drop (start % size)).take r.bytes.length ∧
      r.ret = if start % size + r.bytes.length = size then 0
        else start % size + r.bytes.length

/-- Every call of the log continues where the calls before it stopped. -/
inductive Delivered (size : Nat) (messages : List (List Byte)) :
    List Receipt -> Prop where
  | nil : Delivered size messages []
  | snoc {log : List Receipt} {r : Receipt} :
      Delivered size messages log ->
      DeliversAt size messages (position log) r ->
      Delivered size messages (log ++ [r])

theorem deliversAt_append {size start : Nat} {messages : List (List Byte)}
    {r : Receipt} (h : DeliversAt size messages start r)
    (more : List (List Byte)) :
    DeliversAt size (messages ++ more) start r := by
  rcases h with ⟨message, hmessage, hrest⟩
  exact ⟨message, getElem?_append_of_some hmessage more, hrest⟩

def PieceAt (size : Nat) (messages : List (List Byte)) (start : Nat)
    (bytes : List Byte) : Prop :=
  exists message, messages[start / size]? = some message ∧
    bytes = (message.drop (start % size)).take bytes.length

theorem pieceAt_nil {size start : Nat} {messages : List (List Byte)}
    (h : start / size < messages.length) : PieceAt size messages start [] :=
  ⟨messages[start / size], List.getElem?_eq_getElem h, rfl⟩

theorem pieceAt_append {size start : Nat} {messages : List (List Byte)}
    {bytes : List Byte} (h : PieceAt size messages start bytes)
    (more : List (List Byte)) : PieceAt size (messages ++ more) start bytes := by
  rcases h with ⟨message, hmessage, hbytes⟩
  exact ⟨message, getElem?_append_of_some hmessage more, hbytes⟩

theorem delivered_append {size : Nat} {messages : List (List Byte)}
    {log : List Receipt} (h : Delivered size messages log)
    (more : List (List Byte)) :
    Delivered size (messages ++ more) log := by
  induction h with
  | nil => exact Delivered.nil
  | snoc _ hlast ih => exact Delivered.snoc ih (deliversAt_append hlast more)

theorem delivered_split {size : Nat} {messages : List (List Byte)}
    {log : List Receipt} (h : Delivered size messages log) :
    forall before r after, log = before ++ r :: after ->
      DeliversAt size messages (position before) r := by
  induction h with
  | nil =>
      intro before r after heq
      simp at heq
  | snoc hlog hlast ih =>
      intro before r after heq
      rcases List.eq_nil_or_concat after with hafter | ⟨front, last, hafter⟩
      · subst hafter
        rcases List.append_inj' heq rfl with ⟨hbefore, hr⟩
        cases hr
        subst hbefore
        exact hlast
      · rw [hafter, List.concat_eq_append, ← List.cons_append,
          ← List.append_assoc] at heq
        rcases List.append_inj' heq rfl with ⟨hbefore, _⟩
        exact ih before r front hbefore

/-!
# Positions

A piece within one message moves the stream position inside that message, or
to the start of the next one.
-/

theorem position_full {size start length : Nat} (hsize : 0 < size)
    (hfull : start % size + length = size) :
    (start + length) / size = start / size + 1 ∧ (start + length) % size = 0 := by
  have hstart : start + length = (start / size + 1) * size := by
    have h := Nat.div_add_mod' start size
    rw [Nat.add_mul, Nat.one_mul]
    lia
  rw [hstart]
  exact ⟨Nat.mul_div_cancel _ hsize, Nat.mul_mod_left _ _⟩

theorem position_within {size start length : Nat}
    (hpart : start % size + length < size) :
    (start + length) / size = start / size ∧
      (start + length) % size = start % size + length := by
  have hsize : 0 < size := by lia
  have hstart : start + length = start % size + length + size * (start / size) := by
    have h := Nat.mod_add_div start size
    lia
  rw [hstart]
  constructor
  · rw [Nat.add_mul_div_left _ _ hsize, Nat.div_eq_of_lt hpart, Nat.zero_add]
  · rw [Nat.add_mul_mod_self_left, Nat.mod_eq_of_lt hpart]

theorem deliversAt_of_piece {size start : Nat} {messages : List (List Byte)}
    {bytes : List Byte} (hpos : 0 < bytes.length)
    (hfits : start % size + bytes.length ≤ size)
    (h : PieceAt size messages start bytes) :
    DeliversAt size messages start ⟨bytes, (start + bytes.length) % size⟩ := by
  rcases h with ⟨message, hmessage, hbytes⟩
  refine ⟨message, hmessage, hpos, hfits, hbytes, ?_⟩
  by_cases hfull : start % size + bytes.length = size
  · rw [if_pos hfull]
    exact (position_full (by lia) hfull).right
  · rw [if_neg hfull]
    exact (position_within (by lia)).right

/-!
# Prefixes

With messages of one size the stream position determines the message and the
offset in it, so a delivered log is a prefix of everything handed over.
-/

theorem drop_flatten_of_uniform {size m offset : Nat}
    {messages : List (List Byte)} {message : List Byte}
    (huniform : forall message, message ∈ messages -> message.length = size)
    (hmessage : messages[m]? = some message) (hoffset : offset ≤ size) :
    exists tail, messages.flatten.drop (m * size + offset) =
      message.drop offset ++ tail := by
  induction messages generalizing m with
  | nil => simp at hmessage
  | cons head rest ih =>
      have hhead : head.length = size := huniform head (List.mem_cons_self)
      cases m with
      | zero =>
          have heq : head = message := by simpa using hmessage
          subst message
          refine ⟨rest.flatten, ?_⟩
          rw [List.flatten_cons, Nat.zero_mul, Nat.zero_add,
            List.drop_append_of_le_length (by lia)]
      | succ m =>
          have hrest : rest[m]? = some message := by simpa using hmessage
          rcases ih (fun x hx => huniform x (List.mem_cons_of_mem head hx)) hrest
            with ⟨tail, htail⟩
          refine ⟨tail, ?_⟩
          rw [← htail, List.flatten_cons, List.drop_append]
          have hlen : (m + 1) * size + offset = head.length + (m * size + offset) := by
            rw [hhead]
            ring
          rw [hlen, List.drop_eq_nil_of_le (by lia), List.nil_append]
          congr 1
          lia

theorem delivered_take {size : Nat} {messages : List (List Byte)}
    {log : List Receipt}
    (huniform : forall message, message ∈ messages -> message.length = size)
    (h : Delivered size messages log) :
    received log = messages.flatten.take (position log) := by
  induction h with
  | nil => rfl
  | snoc hlog hlast ih =>
      rename_i log r
      rcases hlast with ⟨message, hmessage, hpos, hfits, hbytes, _⟩
      have hstart : position log / size * size + position log % size = position log :=
        Nat.div_add_mod' (position log) size
      rcases drop_flatten_of_uniform huniform hmessage
          (by lia : position log % size ≤ size)
        with ⟨tail, htail⟩
      rw [hstart] at htail
      have hlength : message.length = size :=
        huniform message (List.mem_of_getElem? hmessage)
      rw [received_snoc, position_snoc, List.take_add, htail, ← ih]
      congr 1
      rw [List.take_append_of_le_length]
      · exact hbytes
      · rw [List.length_drop, hlength]
        lia

theorem received_prefix_of_delivered {size : Nat} {messages : List (List Byte)}
    {log : List Receipt}
    (huniform : forall message, message ∈ messages -> message.length = size)
    (h : Delivered size messages log) :
    received log <+: messages.flatten := by
  rw [delivered_take huniform h]
  exact List.take_prefix (position log) messages.flatten

/-!
# Whole messages

When every call takes a whole message, the log is the messages themselves.
-/

theorem position_of_whole {size : Nat} {log : List Receipt}
    (hwhole : forall r, r ∈ log -> r.bytes.length = size) :
    position log = log.length * size := by
  induction log with
  | nil => simp
  | cons r log ih =>
      have hfirst : r.bytes.length = size := hwhole r List.mem_cons_self
      have hrest : position log = log.length * size :=
        ih fun x hx => hwhole x (List.mem_cons_of_mem r hx)
      have hcons : position (r :: log) = r.bytes.length + position log := by
        simp [position, received]
      rw [hcons, hrest, hfirst, List.length_cons, Nat.add_mul, Nat.one_mul, Nat.add_comm]

theorem bytes_of_whole {size : Nat} {messages : List (List Byte)}
    {log : List Receipt} (hsize : 0 < size)
    (huniform : forall message, message ∈ messages -> message.length = size)
    (hwhole : forall r, r ∈ log -> r.bytes.length = size)
    (h : Delivered size messages log) :
    log.map Receipt.bytes = messages.take log.length := by
  induction h with
  | nil => rfl
  | snoc hlog hlast ih =>
      rename_i log r
      have hbefore : forall x, x ∈ log -> x.bytes.length = size :=
        fun x hx => hwhole x (List.mem_append_left _ hx)
      have hr : r.bytes.length = size :=
        hwhole r (List.mem_append_right _ (List.mem_singleton.mpr rfl))
      rcases hlast with ⟨message, hmessage, _, _, hbytes, _⟩
      rw [position_of_whole hbefore, Nat.mul_div_cancel _ hsize] at hmessage
      rw [position_of_whole hbefore, Nat.mul_mod_left, List.drop_zero, hr] at hbytes
      have hlength : message.length = size :=
        huniform message (List.mem_of_getElem? hmessage)
      rw [List.take_of_length_le (Nat.le_of_eq hlength)] at hbytes
      rw [List.map_append, ih hbefore, List.length_append, List.length_singleton,
        List.take_add_one, hmessage]
      simp [hbytes]

end Foundation
end Notnets
