import Notnets.Foundation.MessageStream
import Notnets.Foundation.TransitionSystem

/-!
# Bounded message channels

What is left of a bounded queue between two parties when a message is sent or
received at one instant.  Messages all have one size.  A receiver may take a part of a
message, and the message occupies its place until all of it is taken.
-/

namespace Notnets
namespace Foundation

structure Channel where
  sent : List (List Byte)
  log : List Receipt
deriving DecidableEq

inductive ChannelLabel where
  | send (message : List Byte)
  /-- Takes this many bytes of the message that is next. -/
  | receive (count : Nat)
deriving DecidableEq

namespace Channel

def piece (size start count : Nat) (message : List Byte) : Receipt where
  bytes := (message.drop (start % size)).take count
  ret := if start % size + count = size then 0 else start % size + count

def next (size capacity : Nat) (c : Channel) : ChannelLabel -> Option Channel
  | .send message =>
      if message.length = size ∧ c.sent.length < position c.log / size + capacity then
        some { c with sent := c.sent ++ [message] }
      else
        none
  | .receive count =>
      match c.sent[position c.log / size]? with
      | some message =>
          if 0 < count ∧ position c.log % size + count ≤ size then
            some { c with log := c.log ++ [piece size (position c.log) count message] }
          else
            none
      | none => none

end Channel

/-- A channel of so many messages of this size. -/
def channelSystem (size capacity : Nat) : TransitionSystem Channel ChannelLabel where
  Initial c := c = ⟨[], []⟩
  next := Channel.next size capacity

namespace Channel

variable {size capacity : Nat} {c c' : Channel}

theorem next_cases {l : ChannelLabel} (h : next size capacity c l = some c') :
    (exists message, l = .send message ∧ message.length = size ∧
      c.sent.length < position c.log / size + capacity ∧
      c' = { c with sent := c.sent ++ [message] }) ∨
    (exists count message, l = .receive count ∧
      c.sent[position c.log / size]? = some message ∧ 0 < count ∧
      position c.log % size + count ≤ size ∧
      c' = { c with log := c.log ++ [piece size (position c.log) count message] }) := by
  cases l with
  | send message =>
      simp only [next] at h
      split at h
      · rename_i hroom
        injection h with h
        exact Or.inl ⟨message, rfl, hroom.left, hroom.right, h.symm⟩
      · cases h
  | receive count =>
      simp only [next] at h
      split at h
      · rename_i message hmessage
        split at h
        · rename_i hcount
          injection h with h
          exact Or.inr ⟨count, message, rfl, hmessage, hcount.left, hcount.right, h.symm⟩
        · cases h
      · cases h

theorem send_room {message : List Byte} (hlength : message.length = size)
    (hroom : c.sent.length < position c.log / size + capacity) :
    next size capacity c (.send message) =
      some { c with sent := c.sent ++ [message] } :=
  if_pos ⟨hlength, hroom⟩

theorem receive_delivers {r : Receipt}
    (h : DeliversAt size c.sent (position c.log) r) :
    next size capacity c (.receive r.bytes.length) =
      some { c with log := c.log ++ [r] } := by
  rcases h with ⟨message, hmessage, hpos, hfits, hbytes, hret⟩
  have hpiece : piece size (position c.log) r.bytes.length message = r := by
    unfold piece
    rw [← hbytes, ← hret]
  simp only [next, hmessage, if_pos (And.intro hpos hfits), hpiece]

/-- A receipt is determined by its place in the stream and its length. -/
theorem eq_piece_of_delivers {start : Nat} {messages : List (List Byte)} {r : Receipt}
    {message : List Byte} (h : DeliversAt size messages start r)
    (hmessage : messages[start / size]? = some message) :
    r = piece size start r.bytes.length message := by
  rcases h with ⟨other, hother, _, _, hbytes, hret⟩
  rw [hmessage] at hother
  injection hother with hsame
  unfold piece
  rw [hsame, ← hbytes, ← hret]

end Channel

end Foundation
end Notnets
