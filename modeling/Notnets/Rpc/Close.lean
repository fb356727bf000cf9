import Notnets.Rpc.Client

/-!
# What closing releases

`client_close` marks the first row that carries the client's id.  A client that
opened again while its old row is still waiting to be cleared has two such rows.
-/

namespace Notnets
namespace Rpc

open Coord
open Foundation

/-!
# Closing as one step
-/

/-- Non-zero client ids, and every `client_close` is one step. -/
def AtomicTraffic : PoolLabel -> Prop
  | .request clientId _ _ => clientId ≠ 0
  | .closeBegin _ => False
  | .closeCompare _ => False
  | .closeWrite _ => False
  | _ => True

instance (l : PoolLabel) : Decidable (AtomicTraffic l) :=
  match l with
  | .request clientId _ _ => inferInstanceAs (Decidable (clientId ≠ 0))
  | .opened _ => .isTrue trivial
  | .close _ => .isTrue trivial
  | .closeBegin _ => .isFalse id
  | .closeCompare _ => .isFalse id
  | .closeWrite _ => .isFalse id
  | .visit _ => .isTrue trivial

/-- Every slot reserved for a client without a connection is to be cleared. -/
def NoLeakedSlot (s : PoolState) : Prop :=
  forall clientId i, s.clients clientId = .closed ->
    s.header.clientReserved i = true ->
    (s.header.slots i).clientId = clientId -> (s.header.slots i).detach = true

/-- A closing client has no row before the one of its connection. -/
def ClosesFirstRow (s : PoolState) : PoolLabel -> Prop
  | .close clientId =>
      forall i, s.clients clientId = .opened i ->
        forall j, j < i -> (s.header.slots j).clientId ≠ clientId
  | _ => True

/-- The slot that a client has opened or is opening. -/
def ClientPhase.slot : ClientPhase -> Option Slot
  | .opening i => some i
  | .opened i => some i
  | _ => none

structure Ownership (s : PoolState) : Prop where
  row : forall clientId i, (s.clients clientId).slot = some i ->
    s.header.clientReserved i = true ∧ (s.header.slots i).clientId = clientId ∧
      (s.header.slots i).detach = false
  owner : forall i, s.header.clientReserved i = true ->
    (s.header.slots i).detach = false ->
    (s.clients (s.header.slots i).clientId).slot = some i

theorem Ownership.noLeakedSlot {s : PoolState} (h : Ownership s) :
    NoLeakedSlot s := by
  intro clientId i hclosed hreserved hid
  cases hdetach : (s.header.slots i).detach with
  | true => rfl
  | false =>
      have howner := h.owner i hreserved hdetach
      rw [hid, hclosed] at howner
      cases howner

theorem poolStart_ownership : Ownership poolStart := by
  constructor
  · intro clientId i hslot
    cases hslot
  · intro i hreserved
    cases hreserved

theorem request_ownership {s : PoolState} {clientId messageSize : Int}
    {type : QueueType} {i : Slot} (hs : Ownership s)
    (hclosed : s.clients clientId = .closed)
    (hfree : freeSlot s.header = some i) :
    Ownership ({ s with header := (s.header.setRow i (requestRow (s.header.slots i)
      clientId messageSize type)).setReserved i true }.setClient
        clientId (.opening i)) := by
  have hunreserved := (freeSlot_eq_some_iff.mp hfree).left
  constructor
  · intro other k hslot
    by_cases hother : other = clientId
    · subst hother
      rw [setClient_self] at hslot
      injection hslot with hk
      subst hk
      simp [requestRow]
    · rw [setClient_of_ne _ _ hother] at hslot
      have hrow := hs.row other k hslot
      have hk : k ≠ i := by
        intro heq
        rw [heq, hunreserved] at hrow
        cases hrow.left
      simpa [hk] using hrow
  · intro k hreserved hdetach
    by_cases hk : k = i
    · subst hk
      simp [requestRow, ClientPhase.slot]
    · have howner := hs.owner k (by simpa [hk] using hreserved)
        (by simpa [hk] using hdetach)
      have hne : (s.header.slots k).clientId ≠ clientId := by
        intro heq
        rw [heq, hclosed] at howner
        cases howner
      simpa [hk, hne] using howner

theorem close_ownership {s : PoolState} {clientId : Int} {i : Slot}
    (hs : Ownership s) (hopened : s.clients clientId = .opened i) :
    Ownership ({ s with header := markDetach s.header i }.setClient
      clientId .closed) := by
  have hown := hs.row clientId i (by rw [hopened]; rfl)
  constructor
  · intro other k hslot
    by_cases hother : other = clientId
    · subst hother
      rw [setClient_self] at hslot
      cases hslot
    · rw [setClient_of_ne _ _ hother] at hslot
      have hrow := hs.row other k hslot
      have hk : k ≠ i := by
        intro heq
        rw [heq, hown.right.left] at hrow
        exact hother hrow.right.left.symm
      rw [setClient_header, markDetach_of_ne _ hk]
      exact hrow
  · intro k hreserved hdetach
    rw [setClient_header] at hreserved hdetach ⊢
    have hk : k ≠ i := by
      intro heq
      rw [heq, markDetach_detach_self] at hdetach
      cases hdetach
    rw [markDetach_of_ne _ hk] at hdetach ⊢
    have howner := hs.owner k hreserved hdetach
    have hne : (s.header.slots k).clientId ≠ clientId := by
      intro heq
      rw [heq, hopened] at howner
      injection howner with hki
      exact hk hki.symm
    rw [setClient_of_ne _ _ hne]
    exact howner

theorem visit_ownership {s : PoolState} (allocated : ShmPair) (hs : Ownership s) :
    Ownership { s with
      header := visitWith allocated s.header s.cursor
      cursor := nextSlot s.cursor } := by
  constructor
  · intro clientId i hslot
    rcases hs.row clientId i hslot with ⟨hreserved, hid, hdetach⟩
    have hkept : (visitWith allocated s.header s.cursor).clientReserved i = true :=
      visitWith_unmarked allocated s.header hreserved hdetach
    rcases visitWith_reserved allocated s.header hkept with ⟨_, hsame, hmark⟩
    exact ⟨hkept, hsame.trans hid, hmark.trans hdetach⟩
  · intro i hreserved hdetach
    rcases visitWith_reserved allocated s.header hreserved with
      ⟨hbefore, hsame, hmark⟩
    show (s.clients ((visitWith allocated s.header s.cursor).slots i).clientId).slot = _
    rw [hsame]
    exact hs.owner i hbefore (hmark.symm.trans hdetach)

theorem poolNext_ownership {s s' : PoolState} {l : PoolLabel} (hs : Ownership s)
    (hatomic : AtomicTraffic l) (hguard : ClosesFirstRow s l)
    (h : poolNext s l = some s') : Ownership s' := by
  cases l with
  | request clientId messageSize type =>
      rcases poolNext_request h with ⟨hclosed, ⟨i, hfree, rfl⟩ | ⟨_, rfl⟩⟩
      · exact request_ownership hs hclosed hfree
      · exact hs
  | opened clientId =>
      rcases poolNext_opened h with ⟨i, hopening, _, rfl⟩
      have hslot : forall other, ((s.setClient clientId (.opened i)).clients other).slot =
          (s.clients other).slot := by
        intro other
        by_cases hother : other = clientId
        · subst hother
          rw [setClient_self, hopening]
          rfl
        · rw [setClient_of_ne _ _ hother]
      constructor
      · intro other k hk
        rw [hslot] at hk
        exact hs.row other k hk
      · intro k hreserved hdetach
        rw [hslot]
        exact hs.owner k hreserved hdetach
  | close clientId =>
      rcases poolNext_close h with ⟨i, hopened, ⟨j, hmatch, rfl⟩ | ⟨_, rfl⟩⟩
      · have hown := hs.row clientId i (by rw [hopened]; rfl)
        rcases matchingRow_eq_some_iff.mp hmatch with ⟨hid, hfirst⟩
        have hji : j = i := by
          rcases lt_trichotomy j i with hlt | heq | hgt
          · exact absurd hid (hguard i hopened j hlt)
          · exact heq
          · exact absurd hown.right.left (hfirst i hgt)
        subst hji
        exact close_ownership hs hopened
      · exact hs
  | closeBegin clientId => exact hatomic.elim
  | closeCompare clientId => exact hatomic.elim
  | closeWrite clientId => exact hatomic.elim
  | visit allocated =>
      rw [poolNext_visit h]
      exact visit_ownership allocated hs

/-- A close that marks an earlier row leaves the row of the connection behind. -/
theorem poolNext_leaks {s s' : PoolState} {l : PoolLabel} (hs : Ownership s)
    (hguard : ¬ ClosesFirstRow s l) (h : poolNext s l = some s') :
    ¬ NoLeakedSlot s' := by
  intro hsafe
  cases l with
  | close clientId =>
      apply hguard
      intro i hopened j hlt hid
      have hown := hs.row clientId i (by rw [hopened]; rfl)
      rcases poolNext_close h with ⟨_, _, ⟨k, hmatch, rfl⟩ | ⟨hnone, _⟩⟩
      · rcases matchingRow_eq_some_iff.mp hmatch with ⟨_, hfirst⟩
        have hik : i ≠ k := by
          intro heq
          subst heq
          exact hfirst j hlt hid
        have hmark := hsafe clientId i (setClient_self _ _ _) hown.left
          (by rw [setClient_header, markDetach_clientId]; exact hown.right.left)
        rw [setClient_header, markDetach_of_ne _ hik, hown.right.right] at hmark
        cases hmark
      · have hne : matchingRow s.header clientId ≠ none := by
          unfold matchingRow
          rw [Ne, Fin.find?_eq_none_iff]
          intro hall
          have hi := hall i
          simp [hown.right.left] at hi
        exact hne hnone
  | _ => exact hguard trivial

/--
In a run in which every `client_close` is one step, no slot is ever left behind
exactly when every client that closed had no row before the one of its
connection.
-/
theorem client_close_releases_iff {s : PoolState}
    {trace : List (Transition PoolState PoolLabel)}
    (hrun : poolSystem.Run poolStart trace s)
    (hatomic : TransitionSystem.Guarded (fun _ l => AtomicTraffic l) trace) :
    TransitionSystem.Guarded ClosesFirstRow trace <->
      forall t, t ∈ trace -> NoLeakedSlot t.target := by
  refine TransitionSystem.run_guarded_iff_safe ?_ ?_ hrun hatomic poolStart_ownership
  · intro s l s' hs hnext hatomic hguard
    have hs' := poolNext_ownership hs hatomic hguard hnext
    exact ⟨hs', hs'.noLeakedSlot⟩
  · intro s l s' hs hnext _ hguard
    exact poolNext_leaks hs hguard hnext

/-- The client with id 5 opens, closes, opens again in the next slot before the
manager comes back to the first one, and closes again. -/
def reopeningLabels : List PoolLabel :=
  [.request 5 64 .poll, .visit pairOfFive, .opened 5, .close 5,
    .request 5 64 .poll, .visit pairOfFive, .opened 5, .close 5]

theorem client_close_releases_iff_reopening :
    exists s trace, poolSystem.Run poolStart trace s ∧
      trace.map Transition.label = reopeningLabels ∧
      (TransitionSystem.Guarded ClosesFirstRow trace <->
        forall t, t ∈ trace -> NoLeakedSlot t.target) := by
  have hsome : (poolSystem.execute poolStart reopeningLabels).isSome = true := by
    decide +kernel
  rcases Option.isSome_iff_exists.mp hsome with ⟨s, hexec⟩
  have hall : forall l, l ∈ reopeningLabels -> AtomicTraffic l := by decide
  rcases TransitionSystem.exists_run_of_execute hexec hall with
    ⟨trace, hrun, hlabels, hatomic⟩
  exact ⟨s, trace, hrun, hlabels, client_close_releases_iff hrun hatomic⟩

theorem client_close_leaks_slot :
    ¬ forall s : PoolState,
      poolSystem.ReachableUnder (fun _ l => AtomicTraffic l) s -> NoLeakedSlot s := by
  intro hclaim
  let leaked : Slot := ⟨1, by decide⟩
  have hleak : ((poolSystem.execute poolStart reopeningLabels).map fun s =>
      (s.clients 5, s.header.clientReserved leaked,
        (s.header.slots leaked).clientId, (s.header.slots leaked).detach)) =
      some (.closed, true, 5, false) := by
    decide +kernel
  rcases Option.map_eq_some_iff.mp hleak with ⟨s, hexec, hs⟩
  injection hs with hclosed hs
  injection hs with hreserved hs
  injection hs with hid hdetach
  have hall : forall l, l ∈ reopeningLabels -> AtomicTraffic l := by decide
  have hmark := hclaim s (TransitionSystem.reachableUnder_of_execute rfl hexec hall)
    5 leaked hclosed hreserved hid
  rw [hdetach] at hmark
  cases hmark

/-!
# Closing in steps

Between the comparison and the write the manager may clear the matched row, and
a request may hand it out again.
-/

/-- Non-zero client ids, and every `client_close` takes its steps. -/
def SteppedTraffic : PoolLabel -> Prop
  | .request clientId _ _ => clientId ≠ 0
  | .close _ => False
  | _ => True

instance (l : PoolLabel) : Decidable (SteppedTraffic l) :=
  match l with
  | .request clientId _ _ => inferInstanceAs (Decidable (clientId ≠ 0))
  | .opened _ => .isTrue trivial
  | .close _ => .isFalse id
  | .closeBegin _ => .isTrue trivial
  | .closeCompare _ => .isTrue trivial
  | .closeWrite _ => .isTrue trivial
  | .visit _ => .isTrue trivial

/-- The write of `detach` hits no row that is reserved by another client. -/
def WritesOwnRow (t : Transition PoolState PoolLabel) : Prop :=
  forall clientId i row, t.label = .closeWrite clientId ->
    t.source.clients clientId = .matched i row ->
    t.source.header.clientReserved row = true ->
    (t.source.header.slots row).clientId = clientId

/-- No pending write of `detach` would hit a row reserved by another client. -/
def OwnRowsMatched (s : PoolState) : Prop :=
  forall clientId i row, s.clients clientId = .matched i row ->
    s.header.clientReserved row = true ->
    (s.header.slots row).clientId = clientId

/-- A request hands out no row that an unfinished close has matched. -/
def RequestsUnmatched (s : PoolState) : PoolLabel -> Prop
  | .request _ _ _ =>
      forall row, freeSlot s.header = some row ->
        forall clientId i, s.clients clientId ≠ .matched i row
  | _ => True

theorem setClient_matched {s : PoolState} {clientId other : Int}
    {phase : ClientPhase} {i row : Slot}
    (h : (s.setClient clientId phase).clients other = .matched i row)
    (hphase : forall i row, phase ≠ .matched i row) :
    other ≠ clientId ∧ s.clients other = .matched i row := by
  by_cases hother : other = clientId
  · subst hother
    rw [setClient_self] at h
    exact absurd h (hphase i row)
  · rw [setClient_of_ne _ _ hother] at h
    exact ⟨hother, h⟩

theorem poolNext_ownRows {s s' : PoolState} {l : PoolLabel}
    (hs : OwnRowsMatched s) (hguard : RequestsUnmatched s l)
    (h : poolNext s l = some s') : OwnRowsMatched s' := by
  intro clientId i row hmatched hreserved
  cases l with
  | request requester messageSize type =>
      rcases poolNext_request h with ⟨_, ⟨k, hfree, rfl⟩ | ⟨_, rfl⟩⟩
      · rcases setClient_matched hmatched nofun with ⟨_, hbefore⟩
        have hne : row ≠ k := by
          intro heq
          subst heq
          exact hguard row hfree clientId i hbefore
        simpa [hne] using hs clientId i row hbefore (by simpa [hne] using hreserved)
      · exact hs clientId i row hmatched hreserved
  | opened opener =>
      rcases poolNext_opened h with ⟨k, _, _, rfl⟩
      rcases setClient_matched hmatched nofun with ⟨_, hbefore⟩
      exact hs clientId i row hbefore hreserved
  | close closer =>
      rcases poolNext_close h with ⟨_, _, ⟨k, _, rfl⟩ | ⟨_, rfl⟩⟩
      · rcases setClient_matched hmatched nofun with ⟨_, hbefore⟩
        rw [setClient_header, markDetach_clientId]
        exact hs clientId i row hbefore hreserved
      · exact hs clientId i row hmatched hreserved
  | closeBegin closer =>
      rcases poolNext_closeBegin h with ⟨k, rfl⟩
      rcases setClient_matched hmatched nofun with ⟨_, hbefore⟩
      exact hs clientId i row hbefore hreserved
  | closeCompare closer =>
      rcases poolNext_closeCompare h with ⟨k, found, hid, rfl⟩ | ⟨phase, hphase, rfl⟩
      · by_cases hcloser : clientId = closer
        · subst hcloser
          rw [setClient_self] at hmatched
          injection hmatched with _ hrow
          subst hrow
          exact hid
        · rw [setClient_of_ne _ _ hcloser] at hmatched
          exact hs clientId i row hmatched hreserved
      · rcases setClient_matched hmatched hphase with ⟨_, hbefore⟩
        exact hs clientId i row hbefore hreserved
  | closeWrite closer =>
      rcases poolNext_closeWrite h with ⟨_, k, _, rfl⟩
      rcases setClient_matched hmatched nofun with ⟨_, hbefore⟩
      rw [setClient_header, markDetach_clientId]
      exact hs clientId i row hbefore hreserved
  | visit allocated =>
      rw [poolNext_visit h] at hmatched hreserved ⊢
      rcases visitWith_reserved allocated s.header hreserved with
        ⟨hbefore, hsame, _⟩
      exact hsame.trans (hs clientId i row hmatched hbefore)

/-- A request that hands out a matched row exposes it to the pending write. -/
theorem poolNext_exposes {s s' : PoolState} {l : PoolLabel}
    (hguard : ¬ RequestsUnmatched s l) (h : poolNext s l = some s') :
    ¬ OwnRowsMatched s' := by
  intro hsafe
  cases l with
  | request requester messageSize type =>
      apply hguard
      intro row hfree clientId i hmatched
      rcases poolNext_request h with ⟨hclosed, ⟨k, hfree', rfl⟩ | ⟨hnone, _⟩⟩
      · have hk : k = row := by
          rw [hfree] at hfree'
          injection hfree' with heq
          exact heq.symm
        subst hk
        have hne : clientId ≠ requester := by
          intro heq
          rw [heq, hclosed] at hmatched
          cases hmatched
        have hown := hsafe clientId i k
          (by rw [setClient_of_ne _ _ hne]; exact hmatched) (by simp)
        simp [requestRow] at hown
        exact hne hown.symm
      · rw [hfree] at hnone
        cases hnone
  | _ => exact hguard trivial

/--
In every run whose requests hand out no matched row, no write of `detach` hits
a row reserved by another client.  The condition is exact: missing it once puts
such a row under a pending write.
-/
theorem client_close_detaches_own_row {s : PoolState}
    {trace : List (Transition PoolState PoolLabel)}
    (hrun : poolSystem.Run poolStart trace s) :
    (TransitionSystem.Guarded RequestsUnmatched trace ->
      forall t, t ∈ trace -> WritesOwnRow t) ∧
    (TransitionSystem.Guarded RequestsUnmatched trace <->
      forall t, t ∈ trace -> OwnRowsMatched t.target) := by
  have hstart : OwnRowsMatched poolStart := by
    intro clientId i row hmatched
    cases hmatched
  constructor
  · intro hguard t ht clientId i row _ hmatched hreserved
    have hinv : forall s l s', OwnRowsMatched s -> RequestsUnmatched s l ->
        poolSystem.next s l = some s' -> OwnRowsMatched s' :=
      fun s l s' hs hg hnext => poolNext_ownRows hs hg hnext
    exact (TransitionSystem.run_invariant_source hinv hrun hguard hstart t ht).left
      clientId i row hmatched hreserved
  · have hassumed : TransitionSystem.Guarded (fun _ _ => True) trace :=
      fun _ _ => trivial
    refine TransitionSystem.run_guarded_iff_safe ?_ ?_ hrun hassumed hstart
    · intro s l s' hs hnext _ hguard
      have hs' := poolNext_ownRows hs hguard hnext
      exact ⟨hs', hs'⟩
    · intro s l s' _ hnext _ hguard
      exact poolNext_exposes hguard hnext

theorem poolNext_matched {s s' : PoolState} {l : PoolLabel} {clientId : Int}
    {i row : Slot} (h : poolNext s l = some s')
    (hmatched : s'.clients clientId = .matched i row) :
    s.clients clientId = .matched i row ∨ l = .closeCompare clientId := by
  cases l with
  | request requester messageSize type =>
      rcases poolNext_request h with ⟨_, ⟨k, _, rfl⟩ | ⟨_, rfl⟩⟩
      · exact Or.inl (setClient_matched hmatched nofun).right
      · exact Or.inl hmatched
  | opened opener =>
      rcases poolNext_opened h with ⟨k, _, _, rfl⟩
      exact Or.inl (setClient_matched hmatched nofun).right
  | close closer =>
      rcases poolNext_close h with ⟨_, _, ⟨k, _, rfl⟩ | ⟨_, rfl⟩⟩
      · exact Or.inl (setClient_matched hmatched nofun).right
      · exact Or.inl hmatched
  | closeBegin closer =>
      rcases poolNext_closeBegin h with ⟨k, rfl⟩
      exact Or.inl (setClient_matched hmatched nofun).right
  | closeCompare closer =>
      by_cases hcloser : clientId = closer
      · exact Or.inr (by rw [hcloser])
      · rcases poolNext_closeCompare h with ⟨_, _, _, rfl⟩ | ⟨_, _, rfl⟩
        · rw [setClient_of_ne _ _ hcloser] at hmatched
          exact Or.inl hmatched
        · rw [setClient_of_ne _ _ hcloser] at hmatched
          exact Or.inl hmatched
  | closeWrite closer =>
      rcases poolNext_closeWrite h with ⟨_, k, _, rfl⟩
      exact Or.inl (setClient_matched hmatched nofun).right
  | visit allocated =>
      rw [poolNext_visit h] at hmatched
      exact Or.inl hmatched

def requestsBesideFive (t : Transition PoolState PoolLabel) : Bool :=
  match t.label with
  | .request _ _ _ =>
      match t.source.clients 5 with
      | .matched _ row => freeSlot t.source.header != some row
      | _ => true
  | .closeCompare clientId => clientId == 5
  | _ => true

theorem requestsUnmatched_of_check {s : PoolState}
    {trace : List (Transition PoolState PoolLabel)}
    (hrun : poolSystem.Run poolStart trace s)
    (hcheck : forall t, t ∈ trace -> requestsBesideFive t = true) :
    TransitionSystem.Guarded RequestsUnmatched trace := by
  have hinv : forall s l s',
      (forall clientId i row, s.clients clientId = .matched i row -> clientId = 5) ->
      (forall clientId, l = .closeCompare clientId -> clientId = 5) ->
      poolSystem.next s l = some s' ->
      forall clientId i row, s'.clients clientId = .matched i row -> clientId = 5 := by
    intro s l s' hs hl hnext clientId i row hmatched
    rcases poolNext_matched hnext hmatched with hbefore | hcompare
    · exact hs clientId i row hbefore
    · exact hl clientId hcompare
  have hguard : TransitionSystem.Guarded
      (fun _ l => forall clientId, l = .closeCompare clientId -> clientId = 5) trace := by
    intro t ht clientId hlabel
    have hfive := hcheck t ht
    unfold requestsBesideFive at hfive
    rw [hlabel] at hfive
    exact beq_iff_eq.mp hfive
  have hstart : forall clientId i row, poolStart.clients clientId = .matched i row ->
      clientId = 5 := by
    intro clientId i row hmatched
    cases hmatched
  intro t ht
  have honly := (TransitionSystem.run_invariant_source hinv hrun hguard hstart t ht).left
  have hbeside := hcheck t ht
  unfold requestsBesideFive at hbeside
  cases hlabel : t.label with
  | request requester messageSize type =>
      intro row hfree clientId i hmatched
      have hfive := honly clientId i row hmatched
      subst hfive
      simp only [hlabel, hmatched, hfree, bne_self_eq_false] at hbeside
      cases hbeside
  | _ => trivial

def marksOwnRow (t : Transition PoolState PoolLabel) : Bool :=
  match t.label, t.source.clients 5 with
  | .closeWrite clientId, .matched _ row =>
      clientId == 5 && t.source.header.clientReserved row &&
        (t.source.header.slots row).clientId == 5
  | _, _ => false

def closingLabels : List PoolLabel :=
  [.request 5 64 .poll, .visit pairOfFive, .opened 5, .closeBegin 5,
    .closeCompare 5, .request 7 64 .poll, .closeWrite 5]

theorem client_close_detaches_own_row_closing :
    exists s trace, poolSystem.Run poolStart trace s ∧
      (exists t, t ∈ trace ∧ marksOwnRow t = true) ∧
      (forall t, t ∈ trace -> WritesOwnRow t) ∧
        forall t, t ∈ trace -> OwnRowsMatched t.target := by
  have hreplay : ((poolSystem.replay poolStart closingLabels).map fun result =>
      (result.1.all requestsBesideFive, result.1.any marksOwnRow)) =
        some (true, true) := by
    decide +kernel
  rcases TransitionSystem.exists_run_of_replay hreplay with
    ⟨s, trace, hrun, hcheck, hmarks⟩
  have hguard := requestsUnmatched_of_check hrun hcheck
  have hown := client_close_detaches_own_row hrun
  exact ⟨s, trace, hrun, hmarks, hown.left hguard, hown.right.mp hguard⟩

/-- The client with id 5 closes again while the manager clears the row that
matched, and the client with id 7 gets that row. -/
def detachingLabels : List PoolLabel :=
  [.request 5 64 .poll, .visit pairOfFive, .opened 5, .closeBegin 5,
    .closeCompare 5, .closeWrite 5, .request 5 64 .poll, .visit pairOfFive,
    .opened 5] ++
  List.replicate 38 (.visit pairOfFive) ++
  [.closeBegin 5, .closeCompare 5, .visit pairOfFive, .request 7 64 .poll]

theorem client_close_detaches_other :
    ¬ forall (s : PoolState) (trace : List (Transition PoolState PoolLabel)),
      poolSystem.Run poolStart trace s ->
      TransitionSystem.Guarded (fun _ l => SteppedTraffic l) trace ->
      forall t, t ∈ trace -> WritesOwnRow t := by
  intro hclaim
  let row : Slot := ⟨0, by decide⟩
  let slot : Slot := ⟨1, by decide⟩
  have hexposed : ((poolSystem.execute poolStart detachingLabels).map fun s =>
      (s.clients 5, s.header.clientReserved row, (s.header.slots row).clientId)) =
      some (.matched slot row, true, 7) := by
    decide +kernel
  rcases Option.map_eq_some_iff.mp hexposed with ⟨s, hexec, hs⟩
  injection hs with hmatched hs
  injection hs with hreserved hid
  have hall : forall l, l ∈ detachingLabels -> SteppedTraffic l := by decide
  rcases TransitionSystem.exists_run_of_execute hexec hall with
    ⟨trace, hrun, _, hstepped⟩
  let s' := { s with header := markDetach s.header row }.setClient 5 .closed
  have hwrite : poolSystem.next s (.closeWrite 5) = some s' := by
    show poolNext s (.closeWrite 5) = _
    simp only [poolNext, hmatched]
    rfl
  let last : Transition PoolState PoolLabel := ⟨s, .closeWrite 5, s'⟩
  have hguard : TransitionSystem.Guarded (fun _ l => SteppedTraffic l)
      (trace ++ [last]) :=
    (TransitionSystem.guarded_snoc (fun _ l => SteppedTraffic l)).mpr
      ⟨hstepped, trivial⟩
  have hown := hclaim s' _ (TransitionSystem.Run.snoc hrun hwrite) hguard last
    (List.mem_append_right _ (List.mem_singleton.mpr rfl)) 5 slot row rfl
    hmatched hreserved
  rw [show (s.header.slots row).clientId = 7 from hid] at hown
  cases hown

end Rpc
end Notnets
