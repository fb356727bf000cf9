import Mathlib.Data.List.Forall2
import Notnets.Queue.RingTransport

/-!
# What a slot keeps from earlier messages

A send copies only the bytes that it was given, and a receive always takes a
whole slot.  What a receiver gets for a short message ends with what the last
longer message of that slot left there.
-/

namespace Notnets
namespace Queue

open Foundation

/-!
# Histories
-/

namespace Call

def SameSize : Call -> Call -> Prop
  | .send buf, .send buf' => buf.length = buf'.length
  | .receive size, .receive size' => size = size'
  | _, _ => False

theorem SameSize.sized {call call' : Call} (h : call.SameSize call')
    (hsized : call.Sized) : call'.Sized := by
  cases call with
  | send buf =>
      cases call' with
      | send buf' => trivial
      | receive size => exact absurd h id
  | receive size =>
      cases call' with
      | send buf' => exact absurd h id
      | receive size' =>
          have hequal : size = size' := h
          subst hequal
          exact hsized

end Call

/-- The messages of the sends that are not rejected. -/
def accepted (messageSize : Nat) : List Call -> List (List Byte)
  | [] => []
  | .send buf :: rest =>
      if buf.length ≤ messageSize then buf :: accepted messageSize rest
      else accepted messageSize rest
  | .receive _ :: rest => accepted messageSize rest

def receivedBytes : List Reply -> List Byte
  | [] => []
  | .sent _ :: rest => receivedBytes rest
  | .received reply :: rest => reply.receipt.bytes ++ receivedBytes rest

/-- A receive whose copy stays within one message.  A longer one runs over the
whole address space and does not return. -/
def Contained (messageSize : Nat) : Reply -> Prop
  | .sent _ => True
  | .received reply => reply.size ≤ messageSize

instance (messageSize : Nat) (reply : Reply) : Decidable (Contained messageSize reply) :=
  match reply with
  | .sent _ => .isTrue trivial
  | .received reply => inferInstanceAs (Decidable (reply.size ≤ messageSize))

structure DifferInReceived (messageSize : Nat) (replies : List Reply)
    (calls calls' : List Call) : Prop where
  sameSize : List.Forall₂ Call.SameSize calls calls'
  same : forall i : Nat, (receivedBytes replies).length < (i + 1) * messageSize ->
    (accepted messageSize calls)[i]? = (accepted messageSize calls')[i]?

def session (calls : List Call) (payload : List Byte) (sizes : List Nat) : List Call :=
  calls ++ .send payload :: sizes.map Call.receive

def lastMessage {State : Type} (transport : Transport State) (s : State)
    (messageSize : Nat) (calls : List Call) (payload : List Byte) (sizes : List Nat) :
    Option (List Byte) :=
  (transport.replies s (session calls payload sizes)).map fun replies =>
    (receivedBytes replies).drop ((receivedBytes replies).length - messageSize)

/-- A session whose receives end with its last message. -/
structure IsSession {State : Type} (transport : Transport State) (s : State)
    (messageSize : Nat) (calls : List Call) (payload : List Byte) (sizes : List Nat)
    (before replies : List Reply) : Prop where
  sized : forall call, call ∈ session calls payload sizes -> call.Sized
  fits : payload.length ≤ messageSize
  history : transport.replies s calls = some before
  returns : transport.replies s (session calls payload sizes) = some replies
  contained : forall reply, reply ∈ replies -> Contained messageSize reply
  finished : (receivedBytes replies).length =
    ((accepted messageSize calls).length + 1) * messageSize

/-- No message that was completely received before shows in the last one. -/
def NoLeftover {State : Type} (transport : Transport State) (s : State)
    (messageSize : Nat) (calls : List Call) (payload : List Byte) (sizes : List Nat)
    (before : List Reply) : Prop :=
  forall calls', DifferInReceived messageSize before calls calls' ->
    lastMessage transport s messageSize calls payload sizes =
      lastMessage transport s messageSize calls' payload sizes

/-- The payload is as long as every earlier message of the slot that it goes to. -/
def CoversSlot (slots : Nat) (messages : List (List Byte)) (payload : List Byte) : Prop :=
  forall i message, messages[i]? = some message ->
    i % slots = messages.length % slots -> message.length ≤ payload.length

@[simp] theorem accepted_send_of_fits {messageSize : Nat} {buf : List Byte}
    {rest : List Call} (hfits : buf.length ≤ messageSize) :
    accepted messageSize (.send buf :: rest) = buf :: accepted messageSize rest :=
  if_pos hfits

@[simp] theorem accepted_send_of_large {messageSize : Nat} {buf : List Byte}
    {rest : List Call} (hlarge : messageSize < buf.length) :
    accepted messageSize (.send buf :: rest) = accepted messageSize rest :=
  if_neg (not_le.mpr hlarge)

theorem accepted_append (messageSize : Nat) (first second : List Call) :
    accepted messageSize (first ++ second) =
      accepted messageSize first ++ accepted messageSize second := by
  induction first with
  | nil => rfl
  | cons call rest ih =>
      cases call with
      | send buf =>
          by_cases hfits : buf.length ≤ messageSize
          · rw [List.cons_append, accepted_send_of_fits hfits, ih,
              accepted_send_of_fits hfits, List.cons_append]
          · rw [List.cons_append, accepted_send_of_large (by lia), ih,
              accepted_send_of_large (by lia)]
      | receive size => exact ih

@[simp] theorem accepted_receives (messageSize : Nat) (sizes : List Nat) :
    accepted messageSize (sizes.map Call.receive) = [] := by
  induction sizes with
  | nil => rfl
  | cons size rest ih => exact ih

theorem receivedBytes_append (first second : List Reply) :
    receivedBytes (first ++ second) = receivedBytes first ++ receivedBytes second := by
  induction first with
  | nil => rfl
  | cons reply rest ih =>
      cases reply with
      | sent ret => exact ih
      | received reply =>
          show reply.receipt.bytes ++ receivedBytes (rest ++ second) = _
          rw [ih, ← List.append_assoc]
          rfl

theorem Call.SameSize.map_length_accepted {call call' : Call} (h : call.SameSize call')
    (messageSize : Nat) :
    (accepted messageSize [call]).map List.length =
      (accepted messageSize [call']).map List.length := by
  cases call with
  | send buf =>
      cases call' with
      | send buf' =>
          have hlength : buf.length = buf'.length := h
          by_cases hfits : buf.length ≤ messageSize
          · rw [accepted_send_of_fits hfits, accepted_send_of_fits (by lia)]
            simpa [accepted] using hlength
          · rw [accepted_send_of_large (by lia), accepted_send_of_large (by lia)]
      | receive size => exact absurd h id
  | receive size =>
      cases call' with
      | send buf' => exact absurd h id
      | receive size' => rfl

theorem map_length_accepted {messageSize : Nat} {calls calls' : List Call}
    (h : List.Forall₂ Call.SameSize calls calls') :
    (accepted messageSize calls).map List.length =
      (accepted messageSize calls').map List.length := by
  induction h with
  | nil => rfl
  | @cons call call' rest rest' hcall _ ih =>
      have hsplit := accepted_append messageSize [call] rest
      have hsplit' := accepted_append messageSize [call'] rest'
      rw [List.singleton_append] at hsplit hsplit'
      rw [hsplit, hsplit', List.map_append, List.map_append, ih,
        hcall.map_length_accepted messageSize]

theorem sized_of_sameSize {calls calls' : List Call}
    (h : List.Forall₂ Call.SameSize calls calls')
    (hsized : forall call, call ∈ calls -> call.Sized) :
    forall call, call ∈ calls' -> call.Sized := by
  induction h with
  | nil => exact hsized
  | @cons call call' rest rest' hcall _ ih =>
      intro other hother
      rcases List.mem_cons.mp hother with rfl | hlater
      · exact hcall.sized (hsized call List.mem_cons_self)
      · exact ih (fun other hother => hsized other (List.mem_cons_of_mem call hother))
          other hlater

theorem accepted_fits (messageSize : Nat) (calls : List Call) :
    forall message, message ∈ accepted messageSize calls ->
      message.length ≤ messageSize := by
  induction calls with
  | nil => nofun
  | cons call rest ih =>
      cases call with
      | send buf =>
          by_cases hfits : buf.length ≤ messageSize
          · rw [accepted_send_of_fits hfits]
            intro message hmessage
            rcases List.mem_cons.mp hmessage with rfl | hlater
            · exact hfits
            · exact ih message hlater
          · rw [accepted_send_of_large (by lia)]
            exact ih
      | receive size => exact ih

theorem exists_history {messageSize : Nat} {calls : List Call}
    {messages : List (List Byte)}
    (h : (accepted messageSize calls).map List.length = messages.map List.length) :
    exists calls', List.Forall₂ Call.SameSize calls calls' ∧
      accepted messageSize calls' = messages := by
  induction calls generalizing messages with
  | nil =>
      refine ⟨[], .nil, ?_⟩
      exact (List.map_eq_nil_iff.mp h.symm).symm
  | cons call rest ih =>
      cases call with
      | send buf =>
          by_cases hfits : buf.length ≤ messageSize
          · rw [accepted_send_of_fits hfits] at h
            cases messages with
            | nil => simp at h
            | cons message more =>
                rw [List.map_cons, List.map_cons, List.cons.injEq] at h
                rcases ih h.right with ⟨calls', hsame, hmore⟩
                refine ⟨.send message :: calls', .cons h.left hsame, ?_⟩
                rw [accepted_send_of_fits (by lia), hmore]
          · rw [accepted_send_of_large (by lia)] at h
            rcases ih h with ⟨calls', hsame, hmore⟩
            refine ⟨.send buf :: calls', .cons rfl hsame, ?_⟩
            rw [accepted_send_of_large (by lia), hmore]
      | receive size =>
          rcases ih h with ⟨calls', hsame, hmore⟩
          exact ⟨.receive size :: calls', .cons rfl hsame, hmore⟩

/-!
# Histories of a ring
-/

section Ring

variable {State : Type} {transport : Transport State} {g : Geometry} {mem : ByteMemory}
  {Holds : State -> List (List Byte) -> Nat -> Prop} {s s' t : State}
  {messages messages' : List (List Byte)} {start : Nat} {reply : Reply}

namespace IsRing

theorem receive_contained (hring : IsRing transport g mem Holds)
    (hs : Holds s messages start) {size : Nat} (hsize : size < 2 ^ 64)
    (h : transport.call s (.receive size) = some (s', reply))
    (hcontained : Contained g.messageSize reply) :
    size + start % g.messageSize < 2 ^ 64 := by
  by_contra hwrap
  have hmessage := g.messageSize_lt
  have hoffset := Nat.mod_lt start g.messageSize_pos
  by_cases hempty : start / g.messageSize = messages.length
  · simp only [Transport.call, hring.drains s messages start size hs hempty,
      Option.map_none] at h
    cases h
  · rcases hring.overruns s messages start size hs hsize (by lia) hempty with
      ⟨s1, popped, hpop, hcopied⟩
    simp only [Transport.call, hpop, Option.map_some] at h
    cases h
    have hle : popped.size ≤ g.messageSize := hcontained
    lia

theorem call_holds (hring : IsRing transport g mem Holds) (hs : Holds s messages start)
    (hstart : start ≤ messages.length * g.messageSize) {call : Call}
    (hsized : call.Sized) (h : transport.call s call = some (s', reply))
    (hcontained : Contained g.messageSize reply) :
    Holds s' (messages ++ accepted g.messageSize [call])
        (start + (receivedBytes [reply]).length) ∧
      start + (receivedBytes [reply]).length ≤
        (messages ++ accepted g.messageSize [call]).length * g.messageSize := by
  cases call with
  | send buf =>
      rcases hring.send_cases hs h with ⟨hlarge, rfl, rfl⟩ | ⟨hfits, _, rfl, hholds⟩
      · rw [accepted_send_of_large hlarge]
        simpa [accepted, receivedBytes] using ⟨hs, hstart⟩
      · rw [accepted_send_of_fits hfits]
        refine ⟨hholds, ?_⟩
        have hgrow : messages.length * g.messageSize ≤
            (messages.length + 1) * g.messageSize :=
          Nat.mul_le_mul_right _ (Nat.le_succ _)
        simpa [accepted, receivedBytes] using hstart.trans hgrow
  | receive size =>
      have hsum := hring.receive_contained hs hsized h hcontained
      rcases hring.receive_cases hs hsum h with ⟨hlt, rfl, hholds⟩
      have hpiece := pieceSize_le g.messageSize_pos start size
      have hlength : (receivedBytes [.received ⟨pieceSize g.messageSize start size,
          pieceAt g mem messages start (pieceSize g.messageSize start size),
          (start + pieceSize g.messageSize start size) % g.messageSize⟩]).length =
            pieceSize g.messageSize start size := by
        simp [receivedBytes, pieceAt]
      have hend : (start / g.messageSize + 1) * g.messageSize ≤
          messages.length * g.messageSize := Nat.mul_le_mul_right _ hlt
      have hsplit := Nat.div_add_mod' start g.messageSize
      rw [Nat.add_mul, Nat.one_mul] at hend
      rw [hlength]
      simp only [accepted, List.append_nil]
      exact ⟨hholds, by lia⟩

theorem run_holds (hring : IsRing transport g mem Holds) (hs : Holds s messages start)
    (hstart : start ≤ messages.length * g.messageSize) {calls : List Call}
    {replies : List Reply} (hsized : forall call, call ∈ calls -> call.Sized)
    (h : transport.run s calls = some (s', replies))
    (hcontained : forall reply, reply ∈ replies -> Contained g.messageSize reply) :
    Holds s' (messages ++ accepted g.messageSize calls)
        (start + (receivedBytes replies).length) ∧
      start + (receivedBytes replies).length ≤
        (messages ++ accepted g.messageSize calls).length * g.messageSize := by
  induction calls generalizing s messages start replies with
  | nil =>
      cases h
      simpa [accepted, receivedBytes] using ⟨hs, hstart⟩
  | cons call rest ih =>
      rcases (Transport.run_cons transport).mp h with
        ⟨s1, reply, more, hcall, hmore, rfl⟩
      rcases hring.call_holds hs hstart (hsized call List.mem_cons_self) hcall
        (hcontained reply List.mem_cons_self) with ⟨hholds, hle⟩
      have hrest := ih hholds hle
        (fun other hother => hsized other (List.mem_cons_of_mem call hother)) hmore
        (fun other hother => hcontained other (List.mem_cons_of_mem reply hother))
      rw [List.append_assoc, ← accepted_append, Nat.add_assoc, ← List.length_append,
        ← receivedBytes_append] at hrest
      exact hrest

/-- A call of the same size does the same on a ring with as many messages. -/
theorem same_call (hring : IsRing transport g mem Holds) (hs : Holds s messages start)
    (ht : Holds t messages' start) (hcount : messages.length = messages'.length)
    {call call' : Call} (hsized : call.Sized) (hsame : call.SameSize call')
    (h : transport.call s call = some (s', reply))
    (hcontained : Contained g.messageSize reply) :
    exists t' reply', transport.call t call' = some (t', reply') ∧
      Contained g.messageSize reply' ∧
        (receivedBytes [reply]).length = (receivedBytes [reply']).length := by
  cases call with
  | send buf =>
      cases call' with
      | receive size => exact absurd hsame id
      | send buf' =>
          have hlength : buf.length = buf'.length := hsame
          rcases hring.send_cases hs h with ⟨hlarge, rfl, rfl⟩ | ⟨hfits, hroom, rfl, _⟩
          · refine ⟨t, .sent (-1), ?_, trivial, rfl⟩
            simp only [Transport.call, hring.rejects t messages' start buf' ht (by lia),
              Option.map_some]
          · rcases hring.sends t messages' start buf' ht (by lia) (by lia) with
              ⟨t1, hpush, _⟩
            refine ⟨t1, .sent 0, ?_, trivial, rfl⟩
            simp only [Transport.call, hpush, Option.map_some]
  | receive size =>
      cases call' with
      | send buf' => exact absurd hsame id
      | receive size' =>
          have hequal : size = size' := hsame
          subst hequal
          have hsum := hring.receive_contained hs hsized h hcontained
          rcases hring.receive_cases hs hsum h with ⟨hlt, rfl, _⟩
          rcases hring.receives t messages' start size ht hsum (by lia) with
            ⟨t1, hpop, _⟩
          have hcall := congrArg (Option.map fun result : State × PopReply =>
            (result.1, Reply.received result.2)) hpop
          refine ⟨t1, _, hcall, hcontained, ?_⟩
          simp [receivedBytes, pieceAt]

theorem same_run (hring : IsRing transport g mem Holds) (hs : Holds s messages start)
    (ht : Holds t messages' start) (hcount : messages.length = messages'.length)
    (hstart : start ≤ messages.length * g.messageSize)
    {calls calls' : List Call} {replies : List Reply}
    (hsized : forall call, call ∈ calls -> call.Sized)
    (hsame : List.Forall₂ Call.SameSize calls calls')
    (h : transport.run s calls = some (s', replies))
    (hcontained : forall reply, reply ∈ replies -> Contained g.messageSize reply) :
    exists t' replies', transport.run t calls' = some (t', replies') ∧
      (forall reply, reply ∈ replies' -> Contained g.messageSize reply) ∧
        (receivedBytes replies).length = (receivedBytes replies').length := by
  induction hsame generalizing s t messages messages' start replies with
  | nil =>
      cases h
      exact ⟨t, [], rfl, nofun, rfl⟩
  | @cons call call' rest rest' hcalls _ ih =>
      rcases (Transport.run_cons transport).mp h with
        ⟨s1, reply, more, hcall, hmore, rfl⟩
      have hreply := hcontained reply List.mem_cons_self
      have hfirst := hsized call List.mem_cons_self
      rcases hring.same_call hs ht hcount hfirst hcalls hcall hreply with
        ⟨t1, reply', hcall', hreply', hbytes⟩
      rcases hring.call_holds hs hstart hfirst hcall hreply with ⟨hs1, hstart1⟩
      rcases hring.call_holds ht (by rw [← hcount]; exact hstart) (hcalls.sized hfirst)
        hcall' hreply' with ⟨ht1, _⟩
      rw [← hbytes] at ht1
      have hcount1 : (messages ++ accepted g.messageSize [call]).length =
          (messages' ++ accepted g.messageSize [call']).length := by
        have hlengths := congrArg List.length (hcalls.map_length_accepted g.messageSize)
        rw [List.length_map, List.length_map] at hlengths
        rw [List.length_append, List.length_append, hcount, hlengths]
      rcases ih hs1 ht1 hcount1 hstart1
        (fun other hother => hsized other (List.mem_cons_of_mem call hother)) hmore
        (fun other hother => hcontained other (List.mem_cons_of_mem reply hother)) with
        ⟨t', replies', hrun, hcontained', hlength⟩
      refine ⟨t', reply' :: replies', ?_, ?_, ?_⟩
      · exact (Transport.run_cons transport).mpr ⟨t1, reply', replies', hcall', hrun, rfl⟩
      · intro other hother
        rcases List.mem_cons.mp hother with rfl | hlater
        · exact hreply'
        · exact hcontained' other hlater
      · have hsplit := receivedBytes_append [reply] more
        have hsplit' := receivedBytes_append [reply'] replies'
        rw [List.singleton_append] at hsplit hsplit'
        rw [hsplit, hsplit', List.length_append, List.length_append, hbytes, hlength]

end IsRing

/-!
# The bytes of the last message
-/

def ringByte (g : Geometry) (mem : ByteMemory) (messages : List (List Byte))
    (position : Nat) : Byte :=
  ringMemory g.headerSize g.messageSize g.queueSize mem messages
    (slotAddress g.headerSize g.messageSize (position / g.messageSize % g.queueSize) +
      (position % g.messageSize : Nat))

def ringBytes (g : Geometry) (mem : ByteMemory) (messages : List (List Byte))
    (start n : Nat) : List Byte :=
  (List.range n).map fun k => ringByte g mem messages (start + k)

theorem ringBytes_add (start n m : Nat) :
    ringBytes g mem messages start (n + m) =
      ringBytes g mem messages start n ++ ringBytes g mem messages (start + n) m := by
  unfold ringBytes
  rw [List.range_add, List.map_append, List.map_map]
  congr 1
  apply List.map_congr_left
  intro k _
  rw [Function.comp_apply, Nat.add_assoc]

@[simp] theorem length_ringBytes (start n : Nat) :
    (ringBytes g mem messages start n).length = n := by
  simp [ringBytes]

theorem pieceAt_eq_ringBytes {n : Nat}
    (hn : start % g.messageSize + n ≤ g.messageSize) :
    pieceAt g mem messages start n = ringBytes g mem messages start n := by
  unfold pieceAt load ringBytes ringByte
  apply List.map_congr_left
  intro k hk
  rcases position_within (by have := List.mem_range.mp hk; lia :
    start % g.messageSize + k < g.messageSize) with ⟨hdiv, hmod⟩
  rw [hdiv, hmod, Nat.cast_add, add_assoc]

theorem IsRing.drain (hring : IsRing transport g mem Holds) (hs : Holds s messages start)
    {sizes : List Nat} {replies : List Reply}
    (hsized : forall size, size ∈ sizes -> size < 2 ^ 64)
    (h : transport.run s (sizes.map Call.receive) = some (s', replies))
    (hcontained : forall reply, reply ∈ replies -> Contained g.messageSize reply) :
    receivedBytes replies =
      ringBytes g mem messages start (receivedBytes replies).length := by
  induction sizes generalizing s start replies with
  | nil =>
      cases h
      rfl
  | cons size rest ih =>
      rcases (Transport.run_cons transport).mp h with
        ⟨s1, reply, more, hcall, hmore, rfl⟩
      have hsum := hring.receive_contained hs (hsized size List.mem_cons_self) hcall
        (hcontained reply List.mem_cons_self)
      rcases hring.receive_cases hs hsum hcall with ⟨_, rfl, hholds⟩
      have hpiece := pieceSize_le g.messageSize_pos start size
      have hrest := ih hholds
        (fun other hother => hsized other (List.mem_cons_of_mem size hother)) hmore
        (fun other hother => hcontained other (List.mem_cons_of_mem _ hother))
      have hsplit : receivedBytes (Reply.received ⟨pieceSize g.messageSize start size,
          pieceAt g mem messages start (pieceSize g.messageSize start size),
          (start + pieceSize g.messageSize start size) % g.messageSize⟩ :: more) =
            ringBytes g mem messages start (pieceSize g.messageSize start size) ++
              receivedBytes more := by
        rw [← pieceAt_eq_ringBytes hpiece]
        rfl
      rw [hsplit, List.length_append, length_ringBytes, ringBytes_add, ← hrest]

theorem ringBytes_message (n : Nat) :
    ringBytes g mem messages (n * g.messageSize) g.messageSize =
      load (ringMemory g.headerSize g.messageSize g.queueSize mem messages)
        (slotAddress g.headerSize g.messageSize (n % g.queueSize)) g.messageSize := by
  have hmod : n * g.messageSize % g.messageSize = 0 := Nat.mul_mod_left _ _
  have hdiv : n * g.messageSize / g.messageSize = n :=
    Nat.mul_div_cancel _ g.messageSize_pos
  rw [← pieceAt_eq_ringBytes (by rw [hmod, Nat.zero_add])]
  unfold pieceAt
  rw [hmod, hdiv, Nat.cast_zero, add_zero]

theorem IsRing.lastMessage_eq (hring : IsRing transport g mem Holds) (hs : Holds s [] 0)
    {calls : List Call} {payload : List Byte} {sizes : List Nat}
    {before replies : List Reply}
    (h : IsSession transport s g.messageSize calls payload sizes before replies) :
    lastMessage transport s g.messageSize calls payload sizes =
      some (load (ringMemory g.headerSize g.messageSize g.queueSize mem
          (accepted g.messageSize calls ++ [payload]))
        (slotAddress g.headerSize g.messageSize
          ((accepted g.messageSize calls).length % g.queueSize)) g.messageSize) := by
  have hlast : lastMessage transport s g.messageSize calls payload sizes =
      some ((receivedBytes replies).drop
        ((receivedBytes replies).length - g.messageSize)) := by
    unfold lastMessage
    rw [h.returns]
    rfl
  have hsized := h.sized
  have hcontained := h.contained
  have hend := h.finished
  have hfits := h.fits
  rcases Option.map_eq_some_iff.mp h.returns with ⟨⟨s3, all⟩, hrun, hall⟩
  have hreplies : all = replies := hall
  subst hreplies
  rcases (Transport.run_append transport).mp hrun with
    ⟨s1, first, after, hbefore, hafter, rfl⟩
  rcases (Transport.run_cons transport).mp hafter with
    ⟨s2, reply, drained, hsend, hdrain, rfl⟩
  rcases hring.run_holds hs (Nat.zero_le _)
    (fun call hcall => hsized call (List.mem_append_left _ hcall)) hbefore
    (fun reply hreply => hcontained reply (List.mem_append_left _ hreply)) with
    ⟨hs1, hstart1⟩
  rw [List.nil_append, Nat.zero_add] at hs1 hstart1
  rcases hring.send_cases hs1 hsend with ⟨hlarge, _, _⟩ | ⟨_, _, rfl, hs2⟩
  · lia
  · have hbytes := hring.drain hs2
      (fun size hsize => hsized (.receive size) (List.mem_append_right _
        (List.mem_cons_of_mem _ (List.mem_map_of_mem hsize)))) hdrain
      (fun reply hreply => hcontained reply (List.mem_append_right _
        (List.mem_cons_of_mem _ hreply)))
    have htotal := receivedBytes_append first (Reply.sent 0 :: drained)
    have hdrained : receivedBytes (Reply.sent 0 :: drained) = receivedBytes drained := rfl
    rw [hdrained] at htotal
    rw [hlast, htotal, List.length_append]
    rw [htotal, List.length_append, Nat.add_mul, Nat.one_mul] at hend
    rcases Nat.le.dest hstart1 with ⟨gap, hgap⟩
    have hlength : (receivedBytes drained).length = gap + g.messageSize := by lia
    have hdrop : (receivedBytes first).length + (receivedBytes drained).length -
        g.messageSize = (receivedBytes first).length + gap := by lia
    rw [hdrop, List.drop_length_add_append, hbytes, hlength, ringBytes_add,
      List.drop_left' (length_ringBytes _ _), hgap, ringBytes_message]

theorem IsRing.isSession_of_same (hring : IsRing transport g mem Holds)
    (hs : Holds s [] 0) {calls calls' : List Call} {payload : List Byte}
    {sizes : List Nat} {before replies : List Reply}
    (h : IsSession transport s g.messageSize calls payload sizes before replies)
    (hsame : List.Forall₂ Call.SameSize calls calls') :
    exists before' replies',
      IsSession transport s g.messageSize calls' payload sizes before' replies' := by
  have hreceives : List.Forall₂ Call.SameSize (sizes.map Call.receive)
      (sizes.map Call.receive) := by
    apply List.forall₂_same.mpr
    intro call hcall
    rcases List.mem_map.mp hcall with ⟨size, _, rfl⟩
    rfl
  have hsend : List.Forall₂ Call.SameSize (.send payload :: sizes.map Call.receive)
      (.send payload :: sizes.map Call.receive) := .cons rfl hreceives
  have hall : List.Forall₂ Call.SameSize (session calls payload sizes)
      (session calls' payload sizes) := List.rel_append hsame hsend
  rcases Option.map_eq_some_iff.mp h.returns with ⟨⟨s3, all⟩, hrun, hreplies⟩
  have hequal : all = replies := hreplies
  subst hequal
  rcases hring.same_run hs hs rfl (Nat.zero_le _) h.sized hall hrun h.contained with
    ⟨t', replies', hrun', hcontained', hlength⟩
  rcases (Transport.run_append transport).mp hrun' with ⟨t1, before', _, hbefore', _, _⟩
  have hcount := congrArg List.length (@map_length_accepted g.messageSize _ _ hsame)
  rw [List.length_map, List.length_map] at hcount
  refine ⟨before', replies', ?_, h.fits, ?_, ?_, hcontained', ?_⟩
  · exact sized_of_sameSize hall h.sized
  · simp only [Transport.replies, hbefore', Option.map_some]
  · simp only [Transport.replies, hrun', Option.map_some]
  · rw [← hlength, ← hcount]
    exact h.finished

/-- An earlier message of the slot that the next message goes to was completely
received. -/
theorem IsRing.received_of_slot (hring : IsRing transport g mem Holds) (hs : Holds s [] 0)
    {calls : List Call} {payload : List Byte} {sizes : List Nat}
    {before replies : List Reply}
    (h : IsSession transport s g.messageSize calls payload sizes before replies) {i : Nat}
    (hi : i < (accepted g.messageSize calls).length)
    (hslot : i % g.queueSize = (accepted g.messageSize calls).length % g.queueSize) :
    (i + 1) * g.messageSize ≤ (receivedBytes before).length := by
  rcases Option.map_eq_some_iff.mp h.returns with ⟨⟨s3, all⟩, hrun, hreplies⟩
  have hequal : all = replies := hreplies
  subst hequal
  have hsized := h.sized
  have hcontained := h.contained
  have hfits := h.fits
  rcases (Transport.run_append transport).mp hrun with
    ⟨s1, first, after, hfirst, hafter, rfl⟩
  rcases (Transport.run_cons transport).mp hafter with ⟨s2, reply, _, hsend, _, _⟩
  have hbefore : first = before := by
    have hhistory := h.history
    simp only [Transport.replies, hfirst, Option.map_some, Option.some.injEq] at hhistory
    exact hhistory
  subst hbefore
  rcases hring.run_holds hs (Nat.zero_le _)
    (fun call hcall => hsized call (List.mem_append_left _ hcall)) hfirst
    (fun reply hreply => hcontained reply (List.mem_append_left _ hreply)) with ⟨hs1, _⟩
  rw [List.nil_append, Nat.zero_add] at hs1
  rcases hring.send_cases hs1 hsend with ⟨hlarge, _, _⟩ | ⟨_, hroom, _, _⟩
  · lia
  · have hturn : i + g.queueSize ≤ (accepted g.messageSize calls).length := by
      by_contra hnear
      have hsame := eq_of_mod_eq (by lia) (by lia) hslot
      lia
    have hread : i + 1 ≤ (receivedBytes first).length / g.messageSize := by lia
    exact (Nat.le_div_iff_mul_le g.messageSize_pos).mp hread

theorem IsRing.noLeftover_iff (hring : IsRing transport g mem Holds) (hs : Holds s [] 0)
    {calls : List Call} {payload : List Byte} {sizes : List Nat}
    {before replies : List Reply}
    (h : IsSession transport s g.messageSize calls payload sizes before replies) :
    NoLeftover transport s g.messageSize calls payload sizes before <->
      CoversSlot g.queueSize (accepted g.messageSize calls) payload := by
  have hlast := hring.lastMessage_eq hs h
  constructor
  · intro hclean i message hmessage hslot
    by_contra hlong
    have hin : message.length ≤ g.messageSize :=
      accepted_fits g.messageSize calls message (List.mem_of_getElem? hmessage)
    have hk : payload.length < g.messageSize := by lia
    rcases @exists_ringMemory_ne g.headerSize g.messageSize g.queueSize mem
      (accepted g.messageSize calls) _ _ hk (accepted_fits g.messageSize calls)
      ⟨i, message, hmessage, hslot, by lia⟩ with ⟨messages', hlengths, hsame, hne⟩
    rcases exists_history hlengths with ⟨calls', hcalls, rfl⟩
    have hcount := congrArg List.length hlengths
    rw [List.length_map, List.length_map] at hcount
    have hdiffer : DifferInReceived g.messageSize before calls calls' := by
      refine ⟨hcalls, ?_⟩
      intro j hj
      by_cases hother : j % g.queueSize =
          (accepted g.messageSize calls).length % g.queueSize
      · have hlate : ¬ j < (accepted g.messageSize calls).length := by
          intro hlt
          have hreceived := hring.received_of_slot hs h hlt hother
          lia
        rw [List.getElem?_eq_none (by lia), List.getElem?_eq_none (by lia)]
      · exact hsame j hother
    rcases hring.isSession_of_same hs h hcalls with ⟨before', replies', h'⟩
    have hequal := hclean calls' hdiffer
    rw [hlast, hring.lastMessage_eq hs h', ← hcount] at hequal
    have hbyte := eq_of_load_eq (Option.some.inj hequal) hk
    rw [ringMemory_snoc_slot hk h.fits, ringMemory_snoc_slot hk h.fits,
      dif_neg (fun hcovered => lt_irrefl _ hcovered.right),
      dif_neg (fun hcovered => lt_irrefl _ hcovered.right)] at hbyte
    exact hne hbyte
  · intro hcovers calls' hdiffer
    rcases hring.isSession_of_same hs h hdiffer.sameSize with ⟨before', replies', h'⟩
    have hlengths := @map_length_accepted g.messageSize _ _ hdiffer.sameSize
    have hcount := congrArg List.length hlengths
    rw [List.length_map, List.length_map] at hcount
    rw [hlast, hring.lastMessage_eq hs h', ← hcount]
    congr 1
    apply load_congr
    intro k hk
    rw [ringMemory_snoc_slot hk h.fits, ringMemory_snoc_slot hk h.fits]
    by_cases hcovered : k < payload.length
    · rw [dif_pos ⟨rfl, hcovered⟩, dif_pos ⟨by rw [hcount], hcovered⟩]
    · rw [dif_neg (fun hin => hcovered hin.right),
        dif_neg (fun hin => hcovered hin.right)]
      apply ringMemory_agree hk hlengths (accepted_fits g.messageSize calls)
      intro i message hmessage hslot hreach
      have hshort := hcovers i message hmessage hslot
      lia

end Ring

/-!
# Leftover data
-/

theorem exists_ring_of_guard {headerSize shmSize messageSize : Nat}
    {header : SpscQueueHeader} {usable : Int} (hmessage : 0 < messageSize)
    (hguard : messageSize + headerSize < 2 ^ 64) (hshm : shmSize < 2 ^ 31)
    (hcreate : createHeader headerSize shmSize messageSize = .ok (header, usable))
    (mem : ByteMemory) :
    exists g : Geometry, g.headerSize = headerSize ∧ g.messageSize = messageSize ∧
      header.queueSize.toNat = g.queueSize ∧ RingState g mem ⟨header, mem⟩ [] 0 := by
  rcases createHeader_ok hcreate with ⟨n, hsizes, hcreated⟩
  have hn : header.queueSize = n := by rw [hcreated]
  rcases exists_geometry hmessage hguard hshm hsizes with ⟨g, hbase, hsize, hslots, _⟩
  have hqueue : header.queueSize = g.queueSize := hn.trans hslots
  rw [← hbase, ← hsize] at hcreate
  exact ⟨g, hbase, hsize, by rw [hqueue]; rfl, ringState_created mem hcreate hqueue⟩

/-- A receiver of a short message gets nothing of the messages received before
exactly if none of those in the same slot was longer. -/
theorem noLeftover_iff_coversSlot {shmSize messageSize : Nat} (mem : ByteMemory)
    (calls : List Call) (payload : List Byte) (sizes : List Nat)
    (before replies : List Reply) (hmessage : 0 < messageSize) (hshm : shmSize < 2 ^ 31) :
    (forall header usable, messageSize + sizeofSpscQueueHeader < 2 ^ 64 ->
      queueCreate shmSize messageSize = .ok (header, usable) ->
      IsSession pollTransport ⟨header, mem⟩ messageSize calls payload sizes before
        replies ->
        (NoLeftover pollTransport ⟨header, mem⟩ messageSize calls payload sizes before <->
          CoversSlot header.queueSize.toNat (accepted messageSize calls) payload)) ∧
    (forall header usable, messageSize + sizeofSemSpscQueueHeader < 2 ^ 64 ->
      semQueueCreate shmSize messageSize = .ok (header, usable) ->
      IsSession semTransport ⟨⟨header, mem⟩, initialValues⟩ messageSize calls payload
        sizes before replies ->
        (NoLeftover semTransport ⟨⟨header, mem⟩, initialValues⟩ messageSize calls payload
            sizes before <->
          CoversSlot header.queueSize.toNat (accepted messageSize calls) payload)) := by
  constructor
  · intro header usable hguard hcreate hsession
    rcases exists_ring_of_guard hmessage hguard hshm hcreate mem with
      ⟨g, hbase, rfl, hslots, hring⟩
    rw [hslots]
    exact (poll_isRing hbase mem).noLeftover_iff hring hsession
  · intro header usable hguard hcreate hsession
    rcases exists_ring_of_guard hmessage hguard hshm hcreate mem with
      ⟨g, hbase, rfl, hslots, hring⟩
    have hstart : SemRingState g mem ⟨⟨header, mem⟩, initialValues⟩ [] 0 :=
      ⟨hring, Nat.one_ne_zero⟩
    rw [hslots]
    exact (sem_isRing hbase mem).noLeftover_iff hstart hsession

/-- The header of a ring of two slots of two bytes. -/
def pairsHeader : SpscQueueHeader :=
  ⟨0, 0, 2, 0, 2, 0, 0, false, false⟩

/-- Two messages that go through both slots. -/
def twoReceived (first : List Byte) : List Call :=
  [.send first, .receive 2, .send [5, 6], .receive 2]

def twoReceivedReplies (first : List Byte) : List Reply :=
  [.sent 0, .received ⟨2, first, 0⟩, .sent 0, .received ⟨2, [5, 6], 0⟩]

theorem noLeftover_iff_coversSlot_whole :
    NoLeftover pollTransport ⟨pairsHeader, fun _ => 0⟩ 2 (twoReceived [1, 2]) [8, 9] [2]
      (twoReceivedReplies [1, 2]) := by
  have hcreate : queueCreate 44 2 = .ok (pairsHeader, 44) := by decide
  have hsession : IsSession pollTransport ⟨pairsHeader, fun _ => 0⟩ 2 (twoReceived [1, 2])
      [8, 9] [2] (twoReceivedReplies [1, 2])
      (twoReceivedReplies [1, 2] ++ [.sent 0, .received ⟨2, [8, 9], 0⟩]) :=
    ⟨by decide, by decide, by decide +kernel, by decide +kernel, by decide, by decide⟩
  have hcovers : CoversSlot 2 [[1, 2], [5, 6]] [8, 9] := by
    have hall : forall message : List Byte, message ∈ [[1, 2], [5, 6]] ->
        message.length ≤ 2 := by
      decide
    intro i message hmessage _
    exact hall message (List.mem_of_getElem? hmessage)
  have hiff := @noLeftover_iff_coversSlot 44 2 (fun _ => 0) (twoReceived [1, 2]) [8, 9]
    [2] (twoReceivedReplies [1, 2])
    (twoReceivedReplies [1, 2] ++ [.sent 0, .received ⟨2, [8, 9], 0⟩]) (by decide)
    (by decide)
  exact (hiff.left pairsHeader 44 (by decide) hcreate hsession).mpr hcovers

/-- After a short message the receiver gets a byte of the message before it in the
same slot. -/
theorem leftover_of_short_message :
    ¬ forall (shmSize messageSize : Nat) (mem : ByteMemory) (header : SpscQueueHeader)
      (usable : Int) (calls : List Call) (payload : List Byte) (sizes : List Nat)
      (before replies : List Reply), 0 < messageSize -> shmSize < 2 ^ 31 ->
      messageSize + sizeofSpscQueueHeader < 2 ^ 64 ->
      queueCreate shmSize messageSize = .ok (header, usable) ->
      IsSession pollTransport ⟨header, mem⟩ messageSize calls payload sizes before
        replies ->
      NoLeftover pollTransport ⟨header, mem⟩ messageSize calls payload sizes before := by
  intro hclaim
  have hcreate : queueCreate 44 2 = .ok (pairsHeader, 44) := by decide
  have hsession : IsSession pollTransport ⟨pairsHeader, fun _ => 0⟩ 2 (twoReceived [1, 2])
      [9] [2] (twoReceivedReplies [1, 2])
      (twoReceivedReplies [1, 2] ++ [.sent 0, .received ⟨2, [9, 2], 0⟩]) :=
    ⟨by decide, by decide, by decide +kernel, by decide +kernel, by decide, by decide⟩
  have hclean := hclaim 44 2 (fun _ => 0) pairsHeader 44 (twoReceived [1, 2]) [9] [2]
    _ _ (by decide) (by decide) (by decide) hcreate hsession
  have hdiffer : DifferInReceived 2 (twoReceivedReplies [1, 2]) (twoReceived [1, 2])
      (twoReceived [3, 7]) := by
    refine ⟨.cons rfl (.cons rfl (.cons rfl (.cons rfl .nil))), ?_⟩
    intro i hi
    have hlater : 2 ≤ i := by
      have hbytes : (receivedBytes (twoReceivedReplies [1, 2])).length = 4 := rfl
      rw [hbytes] at hi
      lia
    rw [List.getElem?_eq_none hlater, List.getElem?_eq_none hlater]
  have hequal := hclean (twoReceived [3, 7]) hdiffer
  have hread : lastMessage pollTransport ⟨pairsHeader, fun _ => 0⟩ 2 (twoReceived [1, 2])
      [9] [2] = some [9, 2] := by
    decide +kernel
  have hread' : lastMessage pollTransport ⟨pairsHeader, fun _ => 0⟩ 2 (twoReceived [3, 7])
      [9] [2] = some [9, 7] := by
    decide +kernel
  rw [hread, hread'] at hequal
  exact absurd hequal (by decide)

end Queue
end Notnets
