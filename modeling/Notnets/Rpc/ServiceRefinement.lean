import Notnets.Rpc.ServiceInvariant

/-!
# Every connection is a pipelined connection

Seen from one client, the whole service is its connection and nothing else: each step
is a step of one of its two ends, or leaves the connection as it is.
-/

namespace Notnets
namespace Rpc

open Coord
open Foundation
open Queue

/-!
# One end at a time

A step of the client reads and writes its own end and the queues.
-/

section Ends

variable {P : Pipeline} {requests responses : SpscQueue} {client : ClientEnd}
  {server : ServerEnd}

/-- The client does not see the other end. -/
theorem clientNext_joined (other : ServerEnd) :
    clientNext P (joined requests responses client server) =
      (clientNext P (joined requests responses client other)).map fun t =>
        joined t.requests.queue t.responses.queue t.clientEnd server := by
  cases hpc : client.pc with
  | sending i =>
      simp only [clientNext, joined, hpc]
      split
      · simp only [pollNext]
        split
        · rfl
        · rfl
      · rw [Option.map_some]
        rfl
  | pushing i =>
      simp only [clientNext, joined, hpc]
      split
      · rw [Option.map_some]
        rfl
      · simp only [pollNext]
        cases pushStep requests client.producer with
        | none => rfl
        | some out => rfl
  | receiving i =>
      simp only [clientNext, joined, hpc]
      split
      · simp only [pollNext]
        split
        · rfl
        · rfl
      · rw [Option.map_some]
        rfl
  | popping i =>
      simp only [clientNext, joined, hpc]
      split
      · rw [Option.map_some]
        rfl
      · simp only [pollNext]
        cases popStep responses client.consumer with
        | none => rfl
        | some out => rfl
  | finished =>
      simp only [clientNext, joined, hpc]
      rfl

theorem serverNext_joined (other : ClientEnd) :
    serverNext P (joined requests responses client server) =
      (serverNext P (joined requests responses other server)).map fun t =>
        joined t.requests.queue t.responses.queue client t.serverEnd := by
  cases hpc : server.pc with
  | receiving i =>
      simp only [serverNext, joined, hpc]
      split
      · simp only [pollNext]
        split
        · rfl
        · rfl
      · rw [Option.map_some]
        rfl
  | popping i =>
      simp only [serverNext, joined, hpc]
      split
      · rw [Option.map_some]
        rfl
      · rfl
      · simp only [pollNext]
        cases popStep requests server.consumer with
        | none => rfl
        | some out => rfl
  | sending i message =>
      simp only [serverNext, joined, hpc, pollNext]
      split
      · rfl
      · rfl
  | pushing i =>
      simp only [serverNext, joined, hpc]
      split
      · rw [Option.map_some]
        rfl
      · simp only [pollNext]
        cases pushStep responses server.producer with
        | none => rfl
        | some out => rfl
  | finished =>
      simp only [serverNext, joined, hpc]
      rfl

end Ends

/-!
# One connection of the service
-/

def ServiceState.served (s : ServiceState) (c : Int) : ServerEnd :=
  (s.workers c).elim ServerEnd.start Worker.place

def ServiceState.connection (S : Service) (s : ServiceState) (c : Int) : PipelineState :=
  match s.made c with
  | some shms =>
      joined (s.queues shms.requestShm.shmid) (s.queues shms.responseShm.shmid)
        (s.clients c) (s.served c)
  | none =>
      joined (createdQueue (S.pipeline c).header) (createdQueue (S.pipeline c).header)
        ClientEnd.start ServerEnd.start

section Connection

variable {S : Service} {s s' : ServiceState} {c d : Int}

theorem connection_start (shmid : Int) :
    (pipelineSystem (S.pipeline c)).Initial ((serviceStart shmid).connection S c) :=
  ⟨_, _, rfl⟩

theorem connection_of_same (hmade : s'.made c = s.made c)
    (hqueues : forall shms, s.made c = some shms ->
      s'.queues shms.requestShm.shmid = s.queues shms.requestShm.shmid ∧
        s'.queues shms.responseShm.shmid = s.queues shms.responseShm.shmid)
    (hclient : s'.clients c = s.clients c) (hserved : s'.served c = s.served c) :
    s'.connection S c = s.connection S c := by
  unfold ServiceState.connection
  rw [hmade]
  cases hc : s.made c with
  | none => rfl
  | some shms =>
      have hsame := hqueues shms hc
      dsimp only
      rw [hsame.left, hsame.right, hclient, hserved]

theorem connection_of_made {shms : ShmPair} (h : s.made c = some shms) :
    s.connection S c = joined (s.queues shms.requestShm.shmid)
      (s.queues shms.responseShm.shmid) (s.clients c) (s.served c) := by
  rw [ServiceState.connection, h]

theorem setQueues_apart {p q : ShmPair} {t : PipelineState} (h : Apart p q) :
    (s.setQueues q t).queues p.requestShm.shmid = s.queues p.requestShm.shmid ∧
      (s.setQueues q t).queues p.responseShm.shmid = s.queues p.responseShm.shmid := by
  unfold ServiceState.setQueues
  dsimp only
  rw [Function.update_of_ne h.crossed, Function.update_of_ne h.requests,
    Function.update_of_ne h.responses, Function.update_of_ne h.crossed']
  exact ⟨rfl, rfl⟩

theorem setQueues_self {p : ShmPair} {t : PipelineState}
    (h : p.requestShm.shmid ≠ p.responseShm.shmid) :
    (s.setQueues p t).queues p.requestShm.shmid = t.requests.queue ∧
      (s.setQueues p t).queues p.responseShm.shmid = t.responses.queue := by
  unfold ServiceState.setQueues
  dsimp only
  rw [Function.update_of_ne h, Function.update_self, Function.update_self]
  exact ⟨rfl, rfl⟩

theorem served_of_worker {worker : Worker} (h : s.workers c = some worker) :
    s.served c = worker.place := by
  rw [ServiceState.served, h]
  rfl

/-!
# The steps of the two ends
-/

theorem runStep_own (hs : ServiceInvariant S s) (h : s.runStep S c = some s') :
    clientNext (S.pipeline c) (s.connection S c) = some (s'.connection S c) := by
  unfold ServiceState.runStep at h
  split at h
  · rename_i shms hconnected
    rcases Option.map_eq_some_iff.mp h with ⟨t, ht, rfl⟩
    have hmade := (hs.connected c shms hconnected).left
    have hids := (hs.books.shmids c shms hmade).right.right
    have hqueues := setQueues_self (s := s) (t := t) hids
    rw [connection_of_made hmade, clientNext_joined ServerEnd.start, ht, Option.map_some]
    apply congrArg some
    refine Eq.trans ?_ (connection_of_made (S := S) (s := { s.setQueues shms t with
      clients := Function.update s.clients c t.clientEnd }) hmade).symm
    have hclient : Function.update s.clients c t.clientEnd c = t.clientEnd :=
      Function.update_self _ _ _
    show _ = joined ((s.setQueues shms t).queues _) ((s.setQueues shms t).queues _)
      (Function.update s.clients c t.clientEnd c) (s.served c)
    rw [hqueues.left, hqueues.right, hclient]
  · cases h

theorem runStep_other (hs : ServiceInvariant S s) (h : s.runStep S c = some s')
    (hne : d ≠ c) : s'.connection S d = s.connection S d := by
  unfold ServiceState.runStep at h
  split at h
  · rename_i shms hconnected
    rcases Option.map_eq_some_iff.mp h with ⟨t, _, rfl⟩
    have hmade := (hs.connected c shms hconnected).left
    apply connection_of_same
    · rfl
    · intro p hp
      exact setQueues_apart (hs.books.apart d c p shms hp hmade hne)
    · exact Function.update_of_ne hne _ _
    · rfl
  · cases h

theorem serveStep_own (hs : ServiceInvariant S s) (h : s.serveStep S c = some s') :
    serverNext (S.pipeline c) (s.connection S c) = some (s'.connection S c) := by
  unfold ServiceState.serveStep at h
  split at h
  · rename_i worker hworker
    rcases Option.map_eq_some_iff.mp h with ⟨t, ht, rfl⟩
    have hmade := hs.books.worker c worker hworker
    have hids := (hs.books.shmids c worker.shms hmade).right.right
    have hqueues := setQueues_self (s := s) (t := t) hids
    rw [connection_of_made hmade, served_of_worker hworker,
      serverNext_joined ClientEnd.start, ht, Option.map_some]
    apply congrArg some
    refine Eq.trans ?_ (connection_of_made (S := S) (s := { s.setQueues worker.shms t with
      workers := Function.update s.workers c
        (some { worker with place := t.serverEnd }) }) hmade).symm
    have hserved : ServiceState.served { s.setQueues worker.shms t with
        workers := Function.update s.workers c
          (some { worker with place := t.serverEnd }) } c = t.serverEnd := by
      rw [ServiceState.served]
      dsimp only
      rw [Function.update_self]
      rfl
    show _ = joined ((s.setQueues worker.shms t).queues _)
      ((s.setQueues worker.shms t).queues _) (s.clients c) _
    rw [hqueues.left, hqueues.right, hserved]
  · cases h

theorem serveStep_other (hs : ServiceInvariant S s) (h : s.serveStep S c = some s')
    (hne : d ≠ c) : s'.connection S d = s.connection S d := by
  unfold ServiceState.serveStep at h
  split at h
  · rename_i worker hworker
    rcases Option.map_eq_some_iff.mp h with ⟨t, _, rfl⟩
    have hmade := hs.books.worker c worker hworker
    apply connection_of_same
    · rfl
    · intro p hp
      exact setQueues_apart (hs.books.apart d c p worker.shms hp hmade hne)
    · rfl
    · show Option.elim (Function.update s.workers c _ d) _ _ = _
      rw [Function.update_of_ne hne]
      rfl
  · cases h

/-!
# The steps around the connections
-/

theorem requestStep_connection (h : s.requestStep S d = some s') :
    s'.connection S c = s.connection S c := by
  unfold ServiceState.requestStep at h
  split at h
  · split at h
    · cases h
      rfl
    · cases h
      rfl
  · cases h

theorem connectStep_connection (h : s.connectStep d = some s') :
    s'.connection S c = s.connection S c := by
  unfold ServiceState.connectStep at h
  split at h
  · split at h
    · split at h
      · cases h
        rfl
      · cases h
        rfl
    · cases h
      rfl
  · cases h

theorem closeStep_connection (h : s.closeStep d = some s') :
    s'.connection S c = s.connection S c := by
  unfold ServiceState.closeStep at h
  split at h
  · cases h
    rfl
  · cases h
    rfl
  · cases h

theorem visitStep_connection (hs : ServiceInvariant S s) (h : s.visitStep = some s') :
    s'.connection S c = s.connection S c := by
  unfold ServiceState.visitStep at h
  split at h
  · rename_i hneeds
    have hold := hs.row s.cursor hneeds.left
    have hunmade := hold.unmade hneeds.right
    rcases S.created _ hold.client with ⟨usable, hcreate⟩
    have hint := S.isInt _ hold.client
    dsimp only at h
    rw [hold.size, toSizeT_natCast (by lia), hcreate] at h
    injection h with h
    cases Decidable.em (c = (s.header.slots s.cursor).clientId) with
    | inl heq =>
        have hunused := hs.books.unused _ hunmade
        have hmade : s'.made c =
            some (newPair (s.header.slots s.cursor).clientId s.nextShmid) := by
          rw [← h, heq]
          exact Function.update_self _ _ _
        have hids : s.nextShmid ≠ s.nextShmid + 1 := by lia
        rw [connection_of_made hmade, ServiceState.connection, heq, hunmade]
        rw [← h]
        simp only [newPair, ServiceState.served, hunused.left, hunused.right,
          Function.update_self, Function.update_of_ne hids, Option.elim_none]
    | inr hne =>
        have hmade : s'.made c = s.made c := by
          rw [← h]
          exact Function.update_of_ne hne _ _
        apply connection_of_same hmade
        · intro p hp
          have hlow := hs.books.shmids c p hp
          rw [← h]
          simp only [newPair]
          rw [Function.update_of_ne (by lia), Function.update_of_ne (by lia),
            Function.update_of_ne (by lia), Function.update_of_ne (by lia)]
          exact ⟨rfl, rfl⟩
        · rw [← h]
        · rw [← h]
          rfl
  · cases h
    rfl

theorem acceptStep_connection (hs : ServiceInvariant S s) :
    s.acceptStep.connection S c = s.connection S c := by
  unfold ServiceState.acceptStep
  split
  · rfl
  · rename_i slot hscan
    rcases eligible_iff.mp (acceptScan_eligible hscan) with ⟨hreserved, hcreated, _⟩
    dsimp only
    split
    · rfl
    · rename_i hattached
      rw [getServerAttachState, if_pos hcreated] at hattached
      have hrow := hs.row slot hreserved
      have hnone := hrow.unserved (eq_false_of_ne_true hattached)
      rw [setServerAttachState, if_pos hcreated, getClientId, if_pos hcreated]
      apply connection_of_same
      · rfl
      · exact fun _ _ => ⟨rfl, rfl⟩
      · rfl
      · rw [ServiceState.served, ServiceState.served]
        dsimp only
        cases Decidable.em (c = (s.header.slots slot).clientId) with
        | inl heq =>
            rw [heq, Function.update_self, hnone]
            rfl
        | inr hne => rw [Function.update_of_ne hne]

/-!
# The refinement
-/

theorem service_simulates (c : Int) :
    (serviceSystem S).Simulates (pipelineSystem (S.pipeline c)) (ServiceInvariant S)
      (fun s => s.connection S c) := by
  intro s l s' hs h
  have hnext : serviceNext S s l = some s' := h
  cases l with
  | request d => exact Or.inl (requestStep_connection hnext)
  | connect d => exact Or.inl (connectStep_connection hnext)
  | run d =>
      cases Decidable.em (c = d) with
      | inl heq =>
          rw [heq]
          exact Or.inr ⟨.client, runStep_own hs hnext⟩
      | inr hne => exact Or.inl (runStep_other hs hnext hne)
  | close d => exact Or.inl (closeStep_connection hnext)
  | visit => exact Or.inl (visitStep_connection hs hnext)
  | accept =>
      cases hnext
      exact Or.inl (acceptStep_connection hs)
  | serve d =>
      cases Decidable.em (c = d) with
      | inl heq =>
          rw [heq]
          exact Or.inr ⟨.server, serveStep_own hs hnext⟩
      | inr hne => exact Or.inl (serveStep_other hs hnext hne)

theorem connection_reachable (hs : (serviceSystem S).Reachable s) (c : Int) :
    (pipelineSystem (S.pipeline c)).Reachable (s.connection S c) := by
  apply (service_simulates c).reachable _ _ hs
  · intro start hstart
    rcases hstart with ⟨shmid, rfl⟩
    exact ⟨serviceInvariant_start S shmid, connection_start shmid⟩
  · exact fun _ _ _ ht hnext => serviceNext_invariant ht hnext

theorem connection_clientEnd (hs : ServiceInvariant S s) :
    (s.connection S c).clientEnd = s.clients c := by
  unfold ServiceState.connection
  cases hmade : s.made c with
  | none => exact (hs.books.unused c hmade).left.symm
  | some shms => rfl

theorem connection_serverEnd (hs : ServiceInvariant S s) :
    (s.connection S c).serverEnd = s.served c := by
  unfold ServiceState.connection
  cases hmade : s.made c with
  | none =>
      rw [ServiceState.served, (hs.books.unused c hmade).right]
      rfl
  | some shms => rfl

theorem connection_invariant {usable : Int} {g : Geometry}
    (hcreate : queueCreate queueRegionSize (S.pipeline c).header.messageSize =
      .ok ((S.pipeline c).header, usable))
    (hsize : (S.pipeline c).header.messageSize = g.messageSize)
    (hqueue : (S.pipeline c).header.queueSize = g.queueSize)
    (hs : (serviceSystem S).Reachable s) :
    PipelineInvariant (S.pipeline c) g (s.connection S c) := by
  rcases connection_reachable hs c with ⟨start, trace, hstart, hrun, _⟩
  exact pipelineRun_invariant hsize (pipelineStart_invariant hcreate hsize hqueue hstart)
    hrun

end Connection

/-!
# What the clients receive
-/

section Received

variable {P : Pipeline} {g : Geometry} {t : PipelineState}

theorem take_range_map {messages : Nat -> List Byte} {k n : Nat} (h : n ≤ k) :
    ((List.range k).map messages).take n = (List.range n).map messages := by
  rw [← List.map_take, List.take_range, Nat.min_eq_left h]

theorem requests_sent (ht : PipelineInvariant P g t) :
    t.requests.pushed.length ≤ P.calls := by
  have hat := ht.client
  cases hpc : t.client with
  | sending i =>
      rw [hpc] at hat
      rw [hat.right.right.left, List.length_map, List.length_range]
      exact hat.left
  | pushing i =>
      rw [hpc] at hat
      rcases hat with ⟨hlt, hcall, _, _⟩
      unfold PushCall at hcall
      split at hcall
      · rw [hcall, List.length_map, List.length_range]
        exact hlt
      · rw [hcall.right, List.length_map, List.length_range]
        exact Nat.le_of_lt hlt
  | receiving i =>
      rw [hpc] at hat
      rw [hat.right.right.left, List.length_map, List.length_range]
  | popping i =>
      rw [hpc] at hat
      rw [hat.right.right.left, List.length_map, List.length_range]
  | finished =>
      rw [hpc] at hat
      rw [hat.right.left, List.length_map, List.length_range]

theorem requests_received (ht : PipelineInvariant P g t) :
    t.requests.popped.map Receipt.bytes =
      (List.range t.requests.popped.length).map P.request := by
  rcases clientAt_pushed ht.client with ⟨k, hpushed⟩
  have hle := ht.requests.header.read_le
  rw [hpushed, List.length_map, List.length_range] at hle
  rw [ht.requests.popped_eq, hpushed, take_range_map hle]

theorem responses_sent (ht : PipelineInvariant P g t) :
    t.responses.pushed = (List.range t.responses.pushed.length).map P.response ∧
      t.responses.pushed.length ≤ t.requests.popped.length := by
  have hat := ht.server
  cases hpc : t.server with
  | receiving i =>
      rw [hpc] at hat
      rcases hat with ⟨_, _, hpopped, _, hpushed⟩
      rw [hpushed, List.length_map, List.length_range]
      exact ⟨rfl, Nat.le_of_eq hpopped.symm⟩
  | popping i =>
      rw [hpc] at hat
      rcases hat with ⟨_, hcall, _, hpushed⟩
      rw [hpushed, List.length_map, List.length_range]
      refine ⟨rfl, ?_⟩
      unfold PopCall at hcall
      split at hcall
      · lia
      · lia
  | sending i message =>
      rw [hpc] at hat
      rcases hat with ⟨_, _, hpopped, _, _, hpushed⟩
      rw [hpushed, List.length_map, List.length_range]
      exact ⟨rfl, by lia⟩
  | pushing i =>
      rw [hpc] at hat
      rcases hat with ⟨_, _, hpopped, hcall⟩
      unfold PushCall at hcall
      split at hcall
      · rw [hcall, List.length_map, List.length_range]
        exact ⟨rfl, by lia⟩
      · rw [hcall.right, List.length_map, List.length_range]
        exact ⟨rfl, by lia⟩
  | finished =>
      rw [hpc] at hat
      rcases hat with ⟨_, hpopped, _, hpushed⟩
      rw [hpushed, List.length_map, List.length_range]
      exact ⟨rfl, Nat.le_of_eq hpopped.symm⟩

theorem responses_received (ht : PipelineInvariant P g t) :
    t.responses.popped.map Receipt.bytes =
        (List.range t.responses.popped.length).map P.response ∧
      t.responses.popped.length ≤ t.requests.popped.length := by
  rcases responses_sent ht with ⟨hpushed, hsent⟩
  have hle := ht.responses.header.read_le
  constructor
  · rw [ht.responses.popped_eq, hpushed, take_range_map hle]
  · lia

theorem responses_all (ht : PipelineInvariant P g t) (hfinished : t.client = .finished) :
    t.responses.popped.length = P.calls := by
  have hat := ht.client
  rw [hfinished] at hat
  exact hat.right.right.right

end Received

/--
Whatever the other clients do, a client with two slots or more in its queues is on a
pipelined connection of its own: its worker receives its requests, each once and in
order, and it receives the responses to them, each once and in order.
-/
theorem service_answers {S : Service} {s : ServiceState} {c : Int} {slots : Nat}
    (hs : (serviceSystem S).Reachable s) (hclient : S.isClient c = true)
    (hcapacity : (S.pipeline c).header.queueSize = slots + 1) (hslots : 1 ≤ slots) :
    (pipelineSystem (S.pipeline c)).Reachable (s.connection S c) ∧
      (s.served c).popped.map Receipt.bytes =
        (List.range (s.served c).popped.length).map (S.pipeline c).request ∧
      (s.clients c).popped.map Receipt.bytes =
        (List.range (s.clients c).popped.length).map (fun i =>
          (S.pipeline c).respond ((S.pipeline c).request i)) ∧
      (s.clients c).popped.length ≤ (s.served c).popped.length ∧
      (s.served c).popped.length ≤ (S.pipeline c).calls ∧
      ((s.clients c).pc = .finished ->
        (s.clients c).popped.length = (S.pipeline c).calls) := by
  have hinv := service_invariant hs
  rcases S.created c hclient with ⟨usable, hcreate⟩
  rcases createHeader_geometry (by decide) hcreate (by decide) hcapacity hslots with
    ⟨g, hsize, hqueue, _⟩
  have ht := connection_invariant hcreate hsize hqueue hs
  have hclientEnd := connection_clientEnd (S := S) (c := c) hinv
  have hserverEnd := connection_serverEnd (S := S) (c := c) hinv
  rw [← hclientEnd, ← hserverEnd]
  refine ⟨connection_reachable hs c, requests_received ht, (responses_received ht).left,
    (responses_received ht).right, ?_, ?_⟩
  · exact Nat.le_trans ht.requests.header.read_le (requests_sent ht)
  · exact responses_all ht

def regionHeader : SpscQueueHeader :=
  { twoSlotHeader with queueSize := 3996 }

theorem length_regionRequest (_ : Nat) :
    [1, 2, 3, (4 : Byte)].length = regionHeader.messageSize := by
  rfl

theorem length_reverse_regionMessage (message : List Byte)
    (h : message.length = regionHeader.messageSize) :
    message.reverse.length = regionHeader.messageSize := by
  rw [List.length_reverse]
  exact h

def regionPipeline (calls : Nat) : Pipeline where
  header := regionHeader
  calls := calls
  request := fun _ => [1, 2, 3, 4]
  respond := List.reverse
  request_length := length_regionRequest
  respond_length := length_reverse_regionMessage

theorem regionPipeline_created (calls : Nat) :
    queueCreate queueRegionSize (regionPipeline calls).header.messageSize =
      .ok ((regionPipeline calls).header, 16024) := by
  have hcreate : queueCreate queueRegionSize 4 = .ok (regionHeader, 16024) := by
    decide +kernel
  exact hcreate

def isFiveOrSeven (c : Int) : Bool :=
  c == 5 || c == 7

theorem isFiveOrSeven_iff {c : Int} : isFiveOrSeven c = true <-> c = 5 ∨ c = 7 := by
  unfold isFiveOrSeven
  rw [Bool.or_eq_true, beq_iff_eq, beq_iff_eq]

theorem fiveOrSeven_isInt (c : Int) (_ : isFiveOrSeven c = true) :
    (regionPipeline 1).header.messageSize < 2 ^ 31 := by decide

theorem fiveOrSeven_nonzero (c : Int) (h : isFiveOrSeven c = true) :
    (derivedKeys .hash c).1 ≠ 0 ∧ (derivedKeys .hash c).2 ≠ 0 := by
  cases isFiveOrSeven_iff.mp h with
  | inl heq =>
      rw [heq]
      decide
  | inr heq =>
      rw [heq]
      decide

theorem fiveOrSeven_ownKeys (c : Int) (h : isFiveOrSeven c = true) :
    (derivedKeys .hash c).1 ≠ (derivedKeys .hash c).2 := by
  cases isFiveOrSeven_iff.mp h with
  | inl heq =>
      rw [heq]
      decide
  | inr heq =>
      rw [heq]
      decide

theorem fiveOrSeven_apart (c d : Int) (hc : isFiveOrSeven c = true)
    (hd : isFiveOrSeven d = true) (hne : c ≠ d) :
    [(derivedKeys .hash c).1, (derivedKeys .hash c).2].Disjoint
      [(derivedKeys .hash d).1, (derivedKeys .hash d).2] := by
  have hkeys : forall key, key ∈ [(derivedKeys .hash 5).1, (derivedKeys .hash 5).2] ->
      key ∉ [(derivedKeys .hash 7).1, (derivedKeys .hash 7).2] := by decide
  cases isFiveOrSeven_iff.mp hc with
  | inl hc5 =>
      cases isFiveOrSeven_iff.mp hd with
      | inl hd5 => exact absurd (hc5.trans hd5.symm) hne
      | inr hd7 =>
          rw [hc5, hd7]
          exact hkeys
  | inr hc7 =>
      cases isFiveOrSeven_iff.mp hd with
      | inl hd5 =>
          rw [hc7, hd5]
          exact fun key h7 h5 => hkeys key h5 h7
      | inr hd7 => exact absurd (hc7.trans hd7.symm) hne

/-- Two clients with one call each. -/
def fiveAndSeven : Service where
  isClient := isFiveOrSeven
  pipeline := fun _ => regionPipeline 1
  isInt := fiveOrSeven_isInt
  created := fun _ _ => ⟨16024, regionPipeline_created 1⟩
  nonzero := fiveOrSeven_nonzero
  ownKeys := fiveOrSeven_ownKeys
  apart := fiveOrSeven_apart

def fiveServed : PipelineLabel -> ServiceLabel
  | .client => .run 5
  | .server => .serve 5

/-- Client 7 stops in the middle of its first request. -/
def fiveServedLabels : List ServiceLabel :=
  [.request 7, .request 5, .visit, .visit, .connect 5, .connect 7, .run 7, .accept,
    .accept] ++ oneCallTurns.map fiveServed

theorem service_answers_twoClients :
    exists s, (serviceSystem fiveAndSeven).Reachable s ∧ (s.clients 7).pc = .pushing 0 ∧
      (s.served 5).popped.map Receipt.bytes = [[1, 2, 3, 4]] ∧
        (s.clients 5).popped.map Receipt.bytes = [[4, 3, 2, 1]] := by
  have hends : ((serviceSystem fiveAndSeven).execute (serviceStart 1)
      fiveServedLabels).map (fun s => ((s.clients 5).pc, (s.clients 7).pc)) =
        some (.finished, .pushing 0) := by decide +kernel
  rcases Option.map_eq_some_iff.mp hends with ⟨s, hexec, hpair⟩
  injection hpair with hfive hseven
  have hreach : (serviceSystem fiveAndSeven).Reachable s :=
    TransitionSystem.reachableUnder_of_execute ⟨1, rfl⟩ hexec fun _ _ => trivial
  have hcapacity : (fiveAndSeven.pipeline 5).header.queueSize = (3995 : Nat) + 1 := rfl
  rcases service_answers hreach rfl hcapacity (by decide) with
    ⟨_, hrequests, hresponses, hbehind, hsent, hdone⟩
  have hone : (s.clients 5).popped.length = 1 := hdone hfive
  have hcalls : (s.served 5).popped.length ≤ 1 := hsent
  have hone' : (s.served 5).popped.length = 1 := by lia
  rw [hone] at hresponses
  rw [hone'] at hrequests
  exact ⟨s, hreach, hseven, hrequests, hresponses⟩

end Rpc
end Notnets
