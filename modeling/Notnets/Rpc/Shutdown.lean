import Notnets.Rpc.Close

/-!
# Graceful shutdown

`shutdown` stops the manager at the end of a pass, marks every row, and runs one
more pass.  It signals the clients, and does not wait for them.  Every mark and
every visit is a step of its own, and so are the steps of the clients.
-/

namespace Notnets
namespace Rpc

open Coord
open Foundation

inductive ServerPc where
  | running
  /-- In `shutdown`, waiting for the manager to end its pass. -/
  | stopping
  /-- In `coord_shutdown`, about to mark this row. -/
  | marking (row : Nat)
  /-- In the last `manage_pool`, about to visit this slot. -/
  | clearing (slot : Nat)
  | deleted
deriving DecidableEq, Repr

structure ShutdownState where
  pool : PoolState
  server : ServerPc

inductive ShutdownLabel where
  /-- A step of a client, or a visit of the manager while it runs. -/
  | pool (l : PoolLabel)
  /-- The call of `shutdown`. -/
  | shutdown
  /-- The manager ends its pass and sees that it has to stop. -/
  | stop
  /-- `coord_shutdown` marks the next row, or returns. -/
  | mark
  /-- The last `manage_pool` visits the next slot, or returns. -/
  | clear (allocated : ShmPair)
deriving DecidableEq, Repr

def ServerPc.manages : ServerPc -> Bool
  | .running => true
  | .stopping => true
  | _ => false

def shutdownNext (s : ShutdownState) : ShutdownLabel -> Option ShutdownState
  | .pool l =>
      if l.isVisit && !s.server.manages then
        none
      else
        (poolNext s.pool l).map fun pool => { s with pool := pool }
  | .shutdown =>
      match s.server with
      | .running => some { s with server := .stopping }
      | _ => none
  | .stop =>
      match s.server with
      | .stopping =>
          if s.pool.cursor = firstSlot then some { s with server := .marking 0 } else none
      | _ => none
  | .mark =>
      match s.server with
      | .marking row =>
          if hrow : row < slotNum then
            some
              { pool := { s.pool with header := markDetach s.pool.header ⟨row, hrow⟩ }
                server := .marking (row + 1) }
          else
            some { s with server := .clearing 0 }
      | _ => none
  | .clear allocated =>
      match s.server with
      | .clearing slot =>
          if hslot : slot < slotNum then
            some
              { pool := { s.pool with
                  header := visitWith allocated s.pool.header ⟨slot, hslot⟩ }
                server := .clearing (slot + 1) }
          else
            some { s with server := .deleted }
      | _ => none

def shutdownStart : ShutdownState where
  pool := poolStart
  server := .running

def shutdownSystem : TransitionSystem ShutdownState ShutdownLabel where
  Initial s := s = shutdownStart
  next := shutdownNext

/-!
# What shutdown promises
-/

def ClientPhase.inUse : ClientPhase -> Option Slot
  | .closed => none
  | .opening slot => some slot
  | .opened slot => some slot
  | .comparing slot _ => some slot
  | .matched slot _ => some slot

/-- The last pass clears no slot in use, and no client waits for `shm_created` of
a slot that is no longer reserved for it. -/
structure Graceful (t : Transition ShutdownState ShutdownLabel) : Prop where
  spared : forall allocated clientId slot, t.label = .clear allocated ->
    (t.source.pool.clients clientId).inUse = some slot ->
    t.target.pool.header.clientReserved slot = true
  waits : forall clientId slot, t.target.pool.clients clientId = .opening slot ->
    t.target.pool.header.clientReserved slot = true ∧
      (t.target.pool.header.slots slot).clientId = clientId

/-- When the last pass begins, no client waits for or holds a slot that
`coord_shutdown` has marked; and a request hands out no row that an unfinished
close has matched. -/
def ClientsDetached (s : ShutdownState) : ShutdownLabel -> Prop
  | .mark =>
      forall row, s.server = .marking row -> slotNum ≤ row ->
        forall clientId slot, (s.pool.clients clientId).inUse = some slot ->
          (s.pool.header.slots slot).detach = false
  | .pool l => RequestsUnmatched s.pool l
  | _ => True

/-!
# The slots in use
-/

/-- No row in use is marked, unless `coord_shutdown` is marking rows. -/
def ServerPc.unmarked : ServerPc -> Prop
  | .running => True
  | .stopping => True
  | .marking _ => False
  | .clearing _ => True
  | .deleted => True

structure ShutdownInvariant (s : ShutdownState) : Prop where
  reserved : forall clientId slot, (s.pool.clients clientId).inUse = some slot ->
    s.pool.header.clientReserved slot = true ∧
      (s.pool.header.slots slot).clientId = clientId
  unmarked : s.server.unmarked ->
    forall clientId slot, (s.pool.clients clientId).inUse = some slot ->
      (s.pool.header.slots slot).detach = false
  matched : OwnRowsMatched s.pool

theorem shutdownInvariant_start : ShutdownInvariant shutdownStart where
  reserved := nofun
  unmarked := nofun
  matched := nofun

theorem inUse_setClient {s : PoolState} {clientId other : Int} {phase : ClientPhase}
    {slot : Slot}
    (h : ((s.setClient clientId phase).clients other).inUse = some slot) :
    (other = clientId ∧ phase.inUse = some slot) ∨
      (other ≠ clientId ∧ (s.clients other).inUse = some slot) := by
  by_cases hother : other = clientId
  · subst hother
    rw [setClient_self] at h
    exact Or.inl ⟨rfl, h⟩
  · rw [setClient_of_ne _ _ hother] at h
    exact Or.inr ⟨hother, h⟩

section Step

variable {s : ShutdownState}

theorem invariant_of_phase (h : ShutdownInvariant s) {clientId : Int}
    {phase : ClientPhase}
    (hphase : forall slot, phase.inUse = some slot ->
      (s.pool.clients clientId).inUse = some slot)
    (hmatched : OwnRowsMatched (s.pool.setClient clientId phase)) :
    ShutdownInvariant { s with pool := s.pool.setClient clientId phase } := by
  have hold : forall other slot,
      ((s.pool.setClient clientId phase).clients other).inUse = some slot ->
        (s.pool.clients other).inUse = some slot := by
    intro other slot huse
    rcases inUse_setClient huse with ⟨heq, hnew⟩ | ⟨_, hbefore⟩
    · rw [heq]
      exact hphase slot hnew
    · exact hbefore
  constructor
  · intro other slot huse
    exact h.reserved other slot (hold other slot huse)
  · intro hserver other slot huse
    exact h.unmarked hserver other slot (hold other slot huse)
  · exact hmatched

theorem invariant_of_request (h : ShutdownInvariant s) {clientId messageSize : Int}
    {type : QueueType} {i : Slot} (hfree : freeSlot s.pool.header = some i)
    {pool : PoolState}
    (hpool : pool = { s.pool with header := (s.pool.header.setRow i (requestRow
      (s.pool.header.slots i) clientId messageSize type)).setReserved i true }.setClient
        clientId (.opening i))
    (hmatched : OwnRowsMatched pool) : ShutdownInvariant { s with pool := pool } := by
  subst hpool
  have hunreserved := (freeSlot_eq_some_iff.mp hfree).left
  have hne : forall other slot, (s.pool.clients other).inUse = some slot ->
      slot ≠ i := by
    intro other slot huse heq
    have hreserved := (h.reserved other slot huse).left
    rw [heq, hunreserved] at hreserved
    cases hreserved
  constructor
  · intro other slot huse
    rcases inUse_setClient huse with ⟨heq, hnew⟩ | ⟨_, hbefore⟩
    · injection hnew with hslot
      rw [heq, ← hslot]
      simp [requestRow]
    · simpa [hne other slot hbefore] using h.reserved other slot hbefore
  · intro hserver other slot huse
    rcases inUse_setClient huse with ⟨_, hnew⟩ | ⟨_, hbefore⟩
    · injection hnew with hslot
      rw [← hslot]
      simp [requestRow]
    · simpa [hne other slot hbefore] using h.unmarked hserver other slot hbefore
  · exact hmatched

theorem invariant_of_close (h : ShutdownInvariant s) {clientId : Int} {row : Slot}
    (hrow : s.pool.header.clientReserved row = true ->
      (s.pool.header.slots row).clientId = clientId)
    {pool : PoolState}
    (hpool : pool = { s.pool with
      header := markDetach s.pool.header row }.setClient clientId .closed)
    (hmatched : OwnRowsMatched pool) : ShutdownInvariant { s with pool := pool } := by
  subst hpool
  constructor
  · intro other slot huse
    rcases inUse_setClient huse with ⟨_, hnew⟩ | ⟨_, hbefore⟩
    · cases hnew
    · rcases h.reserved other slot hbefore with ⟨hreserved, hid⟩
      exact ⟨hreserved, (markDetach_clientId _ _ _).trans hid⟩
  · intro hserver other slot huse
    rcases inUse_setClient huse with ⟨_, hnew⟩ | ⟨hne, hbefore⟩
    · cases hnew
    · rcases h.reserved other slot hbefore with ⟨hreserved, hid⟩
      have hslot : slot ≠ row := by
        intro heq
        rw [heq] at hreserved hid
        exact hne (hid.symm.trans (hrow hreserved))
      rw [setClient_header, markDetach_of_ne _ hslot]
      exact h.unmarked hserver other slot hbefore
  · exact hmatched

theorem invariant_of_visit (h : ShutdownInvariant s) (hserver : s.server.unmarked)
    (allocated : ShmPair) (visited : Slot) {cursor : Slot} {server : ServerPc} :
    ShutdownInvariant
      { pool := { s.pool with
          header := visitWith allocated s.pool.header visited
          cursor := cursor }
        server := server } := by
  have hkept : forall clientId slot, (s.pool.clients clientId).inUse = some slot ->
      (visitWith allocated s.pool.header visited).clientReserved slot = true := by
    intro clientId slot huse
    exact visitWith_unmarked allocated s.pool.header (h.reserved clientId slot huse).left
      (h.unmarked hserver clientId slot huse)
  constructor
  · intro clientId slot huse
    have hreserved := hkept clientId slot huse
    rcases visitWith_reserved allocated s.pool.header hreserved with ⟨_, hid, _⟩
    exact ⟨hreserved, hid.trans (h.reserved clientId slot huse).right⟩
  · intro _ clientId slot huse
    rcases visitWith_reserved allocated s.pool.header (hkept clientId slot huse) with
      ⟨_, _, hdetach⟩
    exact hdetach.trans (h.unmarked hserver clientId slot huse)
  · intro clientId i row hphase hreserved
    rcases visitWith_reserved allocated s.pool.header hreserved with ⟨hbefore, hid, _⟩
    exact hid.trans (h.matched clientId i row hphase hbefore)

theorem invariant_of_mark (h : ShutdownInvariant s) (row : Slot) (n : Nat) :
    ShutdownInvariant
      { pool := { s.pool with header := markDetach s.pool.header row }
        server := .marking n } where
  reserved := by
    intro clientId slot huse
    rcases h.reserved clientId slot huse with ⟨hreserved, hid⟩
    exact ⟨hreserved, (markDetach_clientId _ _ _).trans hid⟩
  unmarked := nofun
  matched := by
    intro clientId i r hphase hreserved
    exact (markDetach_clientId _ _ _).trans (h.matched clientId i r hphase hreserved)

end Step

/-!
# One label
-/

theorem poolNext_closeBegin_inUse {s s' : PoolState} {clientId : Int}
    (h : poolNext s (.closeBegin clientId) = some s') :
    exists phase, s' = s.setClient clientId phase ∧
      forall slot, phase.inUse = some slot ->
        (s.clients clientId).inUse = some slot := by
  simp only [poolNext] at h
  split at h
  · rename_i i hphase
    injection h with h
    refine ⟨.comparing i 0, h.symm, ?_⟩
    intro slot huse
    rw [hphase]
    exact huse
  · cases h

theorem poolNext_closeCompare_inUse {s s' : PoolState} {clientId : Int}
    (h : poolNext s (.closeCompare clientId) = some s') :
    exists phase, s' = s.setClient clientId phase ∧
      forall slot, phase.inUse = some slot ->
        (s.clients clientId).inUse = some slot := by
  simp only [poolNext] at h
  split at h
  · rename_i i row hphase
    rw [hphase]
    split at h
    · split at h
      · injection h with h
        exact ⟨_, h.symm, fun slot huse => huse⟩
      · injection h with h
        exact ⟨_, h.symm, fun slot huse => huse⟩
    · injection h with h
      exact ⟨_, h.symm, fun slot huse => huse⟩
  · cases h

section Step

variable {s : ShutdownState} {pool : PoolState}

theorem invariant_of_pool (h : ShutdownInvariant s) {l : PoolLabel}
    (hguard : RequestsUnmatched s.pool l)
    (hserver : l.isVisit = true -> s.server.unmarked)
    (hnext : poolNext s.pool l = some pool) :
    ShutdownInvariant { s with pool := pool } := by
  have hmatched : OwnRowsMatched pool := poolNext_ownRows h.matched hguard hnext
  cases l with
  | request clientId messageSize type =>
      rcases poolNext_request hnext with ⟨_, ⟨i, hfree, hpool⟩ | ⟨_, rfl⟩⟩
      · exact invariant_of_request h hfree hpool hmatched
      · exact h
  | opened clientId =>
      rcases poolNext_opened hnext with ⟨i, hopening, _, rfl⟩
      refine invariant_of_phase h ?_ hmatched
      intro slot huse
      rw [hopening]
      exact huse
  | close clientId =>
      rcases poolNext_close hnext with ⟨_, _, ⟨row, hmatch, hpool⟩ | ⟨_, rfl⟩⟩
      · exact invariant_of_close h (fun _ => (matchingRow_eq_some_iff.mp hmatch).left)
          hpool hmatched
      · exact h
  | closeBegin clientId =>
      rcases poolNext_closeBegin_inUse hnext with ⟨phase, rfl, hphase⟩
      exact invariant_of_phase h hphase hmatched
  | closeCompare clientId =>
      rcases poolNext_closeCompare_inUse hnext with ⟨phase, rfl, hphase⟩
      exact invariant_of_phase h hphase hmatched
  | closeWrite clientId =>
      rcases poolNext_closeWrite hnext with ⟨i, row, hphase, hpool⟩
      exact invariant_of_close h (h.matched clientId i row hphase) hpool hmatched
  | visit allocated =>
      rw [poolNext_visit hnext]
      exact invariant_of_visit h (hserver rfl) allocated s.pool.cursor

theorem invariant_of_server (h : ShutdownInvariant s) {server : ServerPc}
    (hserver : server.unmarked -> forall clientId slot,
      (s.pool.clients clientId).inUse = some slot ->
        (s.pool.header.slots slot).detach = false) :
    ShutdownInvariant { s with server := server } where
  reserved := h.reserved
  unmarked := hserver
  matched := h.matched

end Step

theorem unmarked_of_manages {server : ServerPc} (h : server.manages = true) :
    server.unmarked := by
  cases server with
  | running => trivial
  | stopping => trivial
  | marking row => cases h
  | clearing slot => cases h
  | deleted => cases h

theorem shutdownNext_pool {s s' : ShutdownState} {l : PoolLabel}
    (h : shutdownNext s (.pool l) = some s') :
    (l.isVisit = true -> s.server.unmarked) ∧
      exists pool, poolNext s.pool l = some pool ∧ s' = { s with pool := pool } := by
  simp only [shutdownNext] at h
  split at h
  · cases h
  · rename_i hvisit
    rcases Option.map_eq_some_iff.mp h with ⟨pool, hpool, hs'⟩
    refine ⟨?_, pool, hpool, hs'.symm⟩
    intro hl
    apply unmarked_of_manages
    simpa [hl] using hvisit

theorem shutdownNext_invariant {s s' : ShutdownState} {l : ShutdownLabel}
    (h : ShutdownInvariant s) (hguard : ClientsDetached s l)
    (hnext : shutdownNext s l = some s') : ShutdownInvariant s' := by
  cases l with
  | pool l =>
      rcases shutdownNext_pool hnext with ⟨hserver, pool, hpool, rfl⟩
      exact invariant_of_pool h hguard hserver hpool
  | shutdown =>
      simp only [shutdownNext] at hnext
      split at hnext
      · rename_i hserver
        injection hnext with hnext
        rw [← hnext]
        apply invariant_of_server h
        intro _
        apply h.unmarked
        rw [hserver]
        trivial
      · cases hnext
  | stop =>
      simp only [shutdownNext] at hnext
      split at hnext
      · split at hnext
        · injection hnext with hnext
          rw [← hnext]
          exact invariant_of_server h nofun
        · cases hnext
      · cases hnext
  | mark =>
      simp only [shutdownNext] at hnext
      split at hnext
      · rename_i row hserver
        split at hnext
        · injection hnext with hnext
          rw [← hnext]
          exact invariant_of_mark h _ _
        · rename_i hrow
          injection hnext with hnext
          rw [← hnext]
          apply invariant_of_server h
          intro _
          exact hguard row hserver (Nat.le_of_not_lt hrow)
      · cases hnext
  | clear allocated =>
      simp only [shutdownNext] at hnext
      split at hnext
      · rename_i slot hserver
        have hunmarked : s.server.unmarked := by
          rw [hserver]
          trivial
        split at hnext
        · injection hnext with hnext
          rw [← hnext]
          exact invariant_of_visit h hunmarked allocated _
        · injection hnext with hnext
          rw [← hnext]
          exact invariant_of_server h fun _ => h.unmarked hunmarked
      · cases hnext

/-- The last pass keeps the slots in use. -/
theorem clear_spares {s s' : ShutdownState} {allocated : ShmPair}
    (h : ShutdownInvariant s) (hnext : shutdownNext s (.clear allocated) = some s')
    {clientId : Int} {slot : Slot}
    (huse : (s.pool.clients clientId).inUse = some slot) :
    s'.pool.header.clientReserved slot = true := by
  have hreserved := (h.reserved clientId slot huse).left
  simp only [shutdownNext] at hnext
  split at hnext
  · rename_i row hserver
    have hdetach : (s.pool.header.slots slot).detach = false := by
      apply h.unmarked _ clientId slot huse
      rw [hserver]
      trivial
    split at hnext
    · injection hnext with hnext
      rw [← hnext]
      exact visitWith_unmarked allocated s.pool.header hreserved hdetach
    · injection hnext with hnext
      rw [← hnext]
      exact hreserved
  · cases hnext

def PoolLabel.client : PoolLabel -> Option Int
  | .request clientId _ _ => some clientId
  | .opened clientId => some clientId
  | .close clientId => some clientId
  | .closeBegin clientId => some clientId
  | .closeCompare clientId => some clientId
  | .closeWrite clientId => some clientId
  | .visit _ => none

theorem poolNext_others {s s' : PoolState} {l : PoolLabel} {other : Int}
    (hne : l.client ≠ some other) (h : poolNext s l = some s') :
    s'.clients other = s.clients other := by
  have hset : forall (pool : PoolState) (clientId : Int) (phase : ClientPhase),
      some clientId ≠ some other ->
        (pool.setClient clientId phase).clients other = pool.clients other := by
    intro pool clientId phase hclient
    exact setClient_of_ne _ _ fun heq => hclient (congrArg some heq.symm)
  cases l with
  | request clientId messageSize type =>
      rcases poolNext_request h with ⟨_, ⟨i, _, rfl⟩ | ⟨_, rfl⟩⟩
      · exact hset _ _ _ hne
      · rfl
  | opened clientId =>
      rcases poolNext_opened h with ⟨i, _, _, rfl⟩
      exact hset _ _ _ hne
  | close clientId =>
      rcases poolNext_close h with ⟨_, _, ⟨row, _, rfl⟩ | ⟨_, rfl⟩⟩
      · exact hset _ _ _ hne
      · rfl
  | closeBegin clientId =>
      rcases poolNext_closeBegin_inUse h with ⟨phase, rfl, _⟩
      exact hset _ _ _ hne
  | closeCompare clientId =>
      rcases poolNext_closeCompare_inUse h with ⟨phase, rfl, _⟩
      exact hset _ _ _ hne
  | closeWrite clientId =>
      rcases poolNext_closeWrite h with ⟨i, row, _, rfl⟩
      exact hset _ _ _ hne
  | visit allocated =>
      rw [poolNext_visit h]

def OnlyFive : ShutdownLabel -> Prop
  | .pool l => l.client = some 5 ∨ l.client = none
  | _ => True

instance (l : ShutdownLabel) : Decidable (OnlyFive l) :=
  match l with
  | .pool l => inferInstanceAs (Decidable (l.client = some 5 ∨ l.client = none))
  | .shutdown => .isTrue trivial
  | .stop => .isTrue trivial
  | .mark => .isTrue trivial
  | .clear _ => .isTrue trivial

theorem shutdownNext_clients {s s' : ShutdownState} {l : ShutdownLabel}
    (hl : forall pool, l ≠ .pool pool) (h : shutdownNext s l = some s') :
    s'.pool.clients = s.pool.clients := by
  cases l with
  | pool l => exact absurd rfl (hl l)
  | shutdown =>
      simp only [shutdownNext] at h
      split at h
      · injection h with h
        rw [← h]
      · cases h
  | stop =>
      simp only [shutdownNext] at h
      split at h
      · split at h
        · injection h with h
          rw [← h]
        · cases h
      · cases h
  | mark =>
      simp only [shutdownNext] at h
      split at h
      · split at h
        · injection h with h
          rw [← h]
        · injection h with h
          rw [← h]
      · cases h
  | clear allocated =>
      simp only [shutdownNext] at h
      split at h
      · split at h
        · injection h with h
          rw [← h]
        · injection h with h
          rw [← h]
      · cases h

theorem others_closed {s s' : ShutdownState} {l : ShutdownLabel}
    (h : forall other, other ≠ 5 -> s.pool.clients other = .closed)
    (hl : OnlyFive l) (hnext : shutdownNext s l = some s') :
    forall other, other ≠ 5 -> s'.pool.clients other = .closed := by
  intro other hne
  have hserver : (forall pool, l ≠ .pool pool) ->
      s'.pool.clients other = .closed := by
    intro hl
    rw [shutdownNext_clients hl hnext]
    exact h other hne
  cases l with
  | pool l =>
      rcases shutdownNext_pool hnext with ⟨_, pool, hpool, rfl⟩
      have hclient : l.client ≠ some other := by
        rcases hl with hfive | hnone
        · rw [hfive]
          intro heq
          injection heq with heq
          exact hne heq.symm
        · rw [hnone]
          nofun
      exact (poolNext_others hclient hpool).trans (h other hne)
  | shutdown => exact hserver nofun
  | stop => exact hserver nofun
  | mark => exact hserver nofun
  | clear allocated => exact hserver nofun

def detachedOfFive (t : Transition ShutdownState ShutdownLabel) : Bool :=
  match t.label with
  | .mark => t.source.pool.clients 5 == .closed
  | .pool (.request _ _ _) => t.source.pool.clients 5 == .closed
  | _ => true

theorem clientsDetached_of_check {t : Transition ShutdownState ShutdownLabel}
    (hothers : forall other, other ≠ 5 -> t.source.pool.clients other = .closed)
    (hcheck : detachedOfFive t = true) : ClientsDetached t.source t.label := by
  have hall : t.source.pool.clients 5 = .closed ->
      forall clientId, t.source.pool.clients clientId = .closed := by
    intro hfive clientId
    by_cases hid : clientId = 5
    · rw [hid]
      exact hfive
    · exact hothers clientId hid
  unfold detachedOfFive at hcheck
  split at hcheck
  · rename_i hlabel
    rw [hlabel]
    intro row _ _ clientId slot huse
    rw [hall (eq_of_beq hcheck) clientId] at huse
    cases huse
  · rename_i clientId messageSize type hlabel
    rw [hlabel]
    intro row _ other i hmatched
    rw [hall (eq_of_beq hcheck) other] at hmatched
    cases hmatched
  · rename_i hmark hrequest
    cases hlabel : t.label with
    | pool l =>
        cases l with
        | request clientId messageSize type => exact absurd hlabel (hrequest _ _ _)
        | _ => trivial
    | mark => exact absurd hlabel hmark
    | _ => trivial

def gracefulLabels : List ShutdownLabel :=
  [.pool (.request 5 64 .poll), .pool (.visit pairOfFive), .pool (.opened 5),
    .pool (.closeBegin 5), .pool (.closeCompare 5), .pool (.closeWrite 5),
    .shutdown] ++
  List.replicate 39 (.pool (.visit pairOfFive)) ++ .stop ::
  List.replicate 41 .mark ++ List.replicate 41 (.clear pairOfFive)

def abandoningLabels : List ShutdownLabel :=
  [.pool (.request 5 64 .poll), .shutdown, .stop] ++ List.replicate 41 .mark ++
    [.clear pairOfFive]

end Rpc
end Notnets
