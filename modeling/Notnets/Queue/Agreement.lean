import Notnets.Coord.Table
import Notnets.Queue.RingTransport

/-!
# The two transports agree

A message stream without slots is what both rings are for: a send appends a
message, and a receive takes the next piece of the first message that is not yet
completely read.  With messages of full size each ring returns what the stream
returns, so the two rings return the same.
-/

namespace Notnets
namespace Queue

open Foundation

/-!
# The message stream
-/

structure MessageStream where
  messages : List (List Byte)
  start : Nat
deriving DecidableEq

def streamTransport (messageSize : Nat) : Transport MessageStream where
  push stream buf :=
    if buf.length > messageSize then
      some (stream, -1)
    else
      some ({ stream with messages := stream.messages ++ [buf] }, 0)
  pop stream size :=
    match stream.messages[stream.start / messageSize]? with
    | none => none
    | some message =>
        let n := pieceSize messageSize stream.start size
        some ({ stream with start := stream.start + n },
          ⟨n, (message.drop (stream.start % messageSize)).take n,
            (stream.start + n) % messageSize⟩)

namespace Call

/-- A send of a whole message or of one that is too long, or a receive into a
buffer that is not empty and leaves room for a message in a `size_t`. -/
def Whole (messageSize : Nat) : Call -> Prop
  | .send buf => messageSize ≤ buf.length
  | .receive size => 0 < size ∧ size + messageSize < 2 ^ 64

instance (messageSize : Nat) (call : Call) : Decidable (call.Whole messageSize) :=
  match call with
  | .send buf => inferInstanceAs (Decidable (messageSize ≤ buf.length))
  | .receive size => inferInstanceAs (Decidable (0 < size ∧ size + messageSize < 2 ^ 64))

end Call

/-!
# A ring returns what the stream returns
-/

theorem pieceAt_whole {g : Geometry} {mem : ByteMemory} {messages : List (List Byte)}
    {start n : Nat} {message : List Byte}
    (hsizes : forall message, message ∈ messages -> message.length = g.messageSize)
    (hmessage : messages[start / g.messageSize]? = some message)
    (hwindow : messages.length < start / g.messageSize + g.queueSize)
    (hn : start % g.messageSize + n ≤ g.messageSize) :
    pieceAt g mem messages start n =
      (message.drop (start % g.messageSize)).take n := by
  have hlength : message.length = g.messageSize :=
    hsizes message (List.mem_of_getElem? hmessage)
  apply load_of_holdsAt
  · exact holdsAt_ringMemory (fun other hother => Nat.le_of_eq (hsizes other hother))
      hmessage (Nat.le_of_lt hwindow)
  · rw [hlength]
    exact hn

section Refinement

variable {State : Type} {transport : Transport State} {g : Geometry} {mem : ByteMemory}
  {Holds : State -> List (List Byte) -> Nat -> Prop} {s s' : State}
  {messages : List (List Byte)} {start : Nat}

theorem IsRing.stream_call (hring : IsRing transport g mem Holds)
    (hs : Holds s messages start)
    (hsizes : forall message, message ∈ messages -> message.length = g.messageSize)
    {call : Call} {reply : Reply} (hwhole : call.Whole g.messageSize)
    (h : transport.call s call = some (s', reply)) :
    exists messages' start',
      (streamTransport g.messageSize).call ⟨messages, start⟩ call =
        some (⟨messages', start'⟩, reply) ∧ Holds s' messages' start' ∧
      forall message, message ∈ messages' -> message.length = g.messageSize := by
  cases call with
  | send buf =>
      have hlength : g.messageSize ≤ buf.length := hwhole
      rcases hring.send_cases hs h with
        ⟨hlarge, rfl, rfl⟩ | ⟨hfits, _, rfl, hholds⟩
      · refine ⟨messages, start, ?_, hs, hsizes⟩
        simp only [Transport.call, streamTransport, if_pos hlarge, Option.map_some]
      · refine ⟨messages ++ [buf], start, ?_, hholds, ?_⟩
        · simp only [Transport.call, streamTransport, if_neg (not_lt.mpr hfits),
            Option.map_some]
        · intro message hmessage
          rcases List.mem_append.mp hmessage with hold | hnew
          · exact hsizes message hold
          · rw [List.mem_singleton.mp hnew]
            lia
  | receive size =>
      have hoffset := Nat.mod_lt start g.messageSize_pos
      have hsum := hwhole.right
      rcases hring.receive_cases hs (by lia) h with ⟨hlt, rfl, hholds⟩
      have hwindow := (hring.window s messages start hs).right.left
      have hpiece := pieceSize_le g.messageSize_pos start size
      refine ⟨messages, start + pieceSize g.messageSize start size, ?_, hholds, hsizes⟩
      have hmessage := List.getElem?_eq_getElem hlt
      simp only [Transport.call, streamTransport, hmessage, Option.map_some,
        pieceAt_whole hsizes hmessage hwindow hpiece]

theorem IsRing.stream_replies (hring : IsRing transport g mem Holds)
    (hs : Holds s messages start)
    (hsizes : forall message, message ∈ messages -> message.length = g.messageSize)
    {calls : List Call} {replies : List Reply}
    (hwhole : forall call, call ∈ calls -> call.Whole g.messageSize)
    (h : transport.replies s calls = some replies) :
    (streamTransport g.messageSize).replies ⟨messages, start⟩ calls = some replies := by
  rcases Option.map_eq_some_iff.mp h with ⟨⟨last, all⟩, hrun, hall⟩
  have hsame : all = replies := hall
  subst hsame
  clear h hall
  induction calls generalizing s messages start all with
  | nil =>
      cases hrun
      rfl
  | cons call rest ih =>
      rcases (Transport.run_cons transport).mp hrun with
        ⟨s1, reply, more, hcall, hmore, rfl⟩
      rcases hring.stream_call hs hsizes (hwhole call List.mem_cons_self) hcall with
        ⟨messages1, start1, hstream, hholds, hsizes1⟩
      have hrest := ih hholds hsizes1
        (fun other hother => hwhole other (List.mem_cons_of_mem call hother)) more hmore
      rcases Option.map_eq_some_iff.mp hrest with ⟨⟨stream, after⟩, hstreamed, hafter⟩
      have hsame : after = more := hafter
      subst hsame
      have hrun' : (streamTransport g.messageSize).run ⟨messages, start⟩ (call :: rest) =
          some (stream, reply :: after) :=
        (Transport.run_cons _).mpr ⟨_, _, _, hstream, hstreamed, rfl⟩
      simp only [Transport.replies, hrun', Option.map_some]

end Refinement

/-!
# Agreement
-/

theorem exists_ring {headerSize shmSize messageSize : Nat} {header : SpscQueueHeader}
    {usable : Int} (hheader : headerSize < 2 ^ 32) (hshm : shmSize < 2 ^ 31)
    (hcreate : createHeader headerSize shmSize messageSize = .ok (header, usable))
    (htwo : 2 ≤ header.queueSize) (mem : ByteMemory) :
    exists g : Geometry, g.headerSize = headerSize ∧ g.messageSize = messageSize ∧
      header.queueSize = g.queueSize ∧ RingState g mem ⟨header, mem⟩ [] 0 := by
  rcases createHeader_ok hcreate with ⟨n, hsizes, hcreated⟩
  have hn : header.queueSize = n := by rw [hcreated]
  rcases guard_of_two_slots hheader (by rw [← hn]; exact htwo) hsizes with
    ⟨hpos, hguard⟩
  rcases exists_geometry hpos hguard hshm hsizes with ⟨g, hbase, hsize, hslots, _⟩
  rw [← hbase, ← hsize] at hcreate
  exact ⟨g, hbase, hsize, hn.trans hslots,
    ringState_created mem hcreate (hn.trans hslots)⟩

/-- POLL and SEM queues of the same message size return the same to a single
thread, as long as neither makes it wait. -/
theorem poll_sem_agree {messageSize : Nat} {pollHeader semHeader : SpscQueueHeader}
    {pollUsable semUsable : Int} {pollMem semMem : ByteMemory} {calls : List Call}
    {pollReplies semReplies : List Reply}
    (hpoll : queueCreate Coord.queueRegionSize messageSize = .ok (pollHeader, pollUsable))
    (hsem : semQueueCreate Coord.queueRegionSize messageSize = .ok (semHeader, semUsable))
    (hpollTwo : 2 ≤ pollHeader.queueSize) (hsemTwo : 2 ≤ semHeader.queueSize)
    (hwhole : forall call, call ∈ calls -> call.Whole messageSize)
    (hpollRun : pollTransport.replies ⟨pollHeader, pollMem⟩ calls = some pollReplies)
    (hsemRun : semTransport.replies ⟨⟨semHeader, semMem⟩, initialValues⟩ calls =
      some semReplies) :
    pollReplies = semReplies := by
  rcases exists_ring (by decide) (by decide) hpoll hpollTwo pollMem with
    ⟨g, hbase, hsize, _, hring⟩
  rcases exists_ring (by decide) (by decide) hsem hsemTwo semMem with
    ⟨g', hbase', hsize', _, hring'⟩
  have hstart : SemRingState g' semMem ⟨⟨semHeader, semMem⟩, initialValues⟩ [] 0 :=
    ⟨hring', Nat.one_ne_zero⟩
  have hfirst := (poll_isRing hbase pollMem).stream_replies hring nofun
    (by rw [hsize]; exact hwhole) hpollRun
  have hsecond := (sem_isRing hbase' semMem).stream_replies hstart nofun
    (by rw [hsize']; exact hwhole) hsemRun
  rw [hsize] at hfirst
  rw [hsize', hfirst] at hsecond
  exact Option.some.inj hsecond

/-- A message read in two pieces, after a send that is too long. -/
def twoPieces : List Call :=
  [.send [7, 8], .send [1, 2, 3], .receive 1, .send [9, 9], .receive 5]

def twoPiecesReplies : List Reply :=
  [.sent 0, .sent (-1), .received ⟨1, [7], 1⟩, .sent 0, .received ⟨1, [8], 0⟩]

def pollPairs : SpscQueueHeader :=
  ⟨0, 0, 2, 0, 7992, 0, 0, false, false⟩

def semPairs : SpscQueueHeader :=
  ⟨0, 0, 2, 0, 7988, 0, 0, false, false⟩

theorem poll_sem_agree_twoPieces :
    exists pollReplies semReplies,
      pollTransport.replies ⟨pollPairs, fun _ => 0⟩ twoPieces = some pollReplies ∧
        semTransport.replies ⟨⟨semPairs, fun _ => 0⟩, initialValues⟩ twoPieces =
          some semReplies ∧ pollReplies = semReplies := by
  have hpoll : pollTransport.replies ⟨pollPairs, fun _ => 0⟩ twoPieces =
      some twoPiecesReplies := by
    decide +kernel
  have hsem : semTransport.replies ⟨⟨semPairs, fun _ => 0⟩, initialValues⟩ twoPieces =
      some twoPiecesReplies := by
    decide +kernel
  refine ⟨twoPiecesReplies, twoPiecesReplies, hpoll, hsem, ?_⟩
  have hpollCreate : queueCreate Coord.queueRegionSize 2 = .ok (pollPairs, 16024) := by
    decide
  have hsemCreate : semQueueCreate Coord.queueRegionSize 2 = .ok (semPairs, 16024) := by
    decide
  exact poll_sem_agree hpollCreate hsemCreate (by decide) (by decide) (by decide)
    hpoll hsem

end Queue
end Notnets
