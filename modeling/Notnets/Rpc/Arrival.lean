import Notnets.Rpc.Client
import Notnets.Rpc.Visit

/-!
# Order of arrival

Slots are handed out lowest first and serviced in the order of the scan.  Each
request gets a number when `request_slot` reserves its slot; the numbers of the
requests serviced so far, and of those detached before they were serviced, are
history that no step reads.
-/

namespace Notnets
namespace Rpc

open Coord
open Foundation

structure ArrivalState where
  header : CoordHeader
  /-- The slot that the manager visits next. -/
  cursor : Slot
  /-- The number of the request that reserved each slot last. -/
  arrival : Slot -> Nat
  count : Nat
  serviced : List Nat
  /-- The requests detached before they were serviced. -/
  abandoned : List Nat

inductive ArrivalLabel where
  | request (clientId messageSize : Int) (type : QueueType)
  | close (clientId : Int)
  | visit (allocated : ShmPair)
deriving DecidableEq, Repr

namespace ArrivalState

variable (s : ArrivalState)

def request (clientId messageSize : Int) (type : QueueType) : ArrivalState :=
  match requestSlot s.header clientId messageSize type with
  | (header, some i) =>
      { s with
        header := header
        arrival := Function.update s.arrival i s.count
        count := s.count + 1 }
  | (_, none) => s

def close (clientId : Int) : ArrivalState :=
  match matchingRow s.header clientId with
  | some i =>
      { s with
        header := (clientClose s.header clientId).1
        abandoned :=
          if NeedsService s.header i then s.abandoned ++ [s.arrival i]
          else s.abandoned }
  | none => s

def visit (allocated : ShmPair) : ArrivalState :=
  { s with
    header := visitWith allocated s.header s.cursor
    cursor := nextSlot s.cursor
    serviced :=
      if NeedsService s.header s.cursor then s.serviced ++ [s.arrival s.cursor]
      else s.serviced }

end ArrivalState

def arrivalNext (s : ArrivalState) : ArrivalLabel -> ArrivalState
  | .request clientId messageSize type => s.request clientId messageSize type
  | .close clientId => s.close clientId
  | .visit allocated => s.visit allocated

def arrivalStart : ArrivalState where
  header := CoordHeader.zero
  cursor := firstSlot
  arrival := fun _ => 0
  count := 0
  serviced := []
  abandoned := []

def arrivalSystem : TransitionSystem ArrivalState ArrivalLabel where
  Initial s := s = arrivalStart
  next s l := some (arrivalNext s l)

/-- Before a request is serviced, the earlier ones have been, unless one of the
two was detached before its service. -/
def OrderOfArrival (s : ArrivalState) : Prop :=
  forall before later after, s.serviced = before ++ later :: after ->
    later ∉ s.abandoned ->
    forall earlier, earlier < later -> earlier ∉ s.abandoned -> earlier ∈ before

def Waiting (header : CoordHeader) (slot : Slot) : Prop :=
  NeedsService header slot ∧ (header.slots slot).detach = false

instance (header : CoordHeader) (slot : Slot) : Decidable (Waiting header slot) :=
  inferInstanceAs (Decidable (_ ∧ _))

/-- The scan does not stand between a waiting request and the slot, behind it,
that the next request gets. -/
def ScanNotBetween (s : ArrivalState) : ArrivalLabel -> Prop
  | .request _ _ _ =>
      forall a b, Waiting s.header a -> freeSlot s.header = some b ->
        ¬ (a < s.cursor ∧ s.cursor ≤ b)
  | _ => True

instance (s : ArrivalState) (l : ArrivalLabel) : Decidable (ScanNotBetween s l) :=
  match l with
  | .request _ _ _ => inferInstanceAs (Decidable (forall _, _))
  | .close _ => .isTrue trivial
  | .visit _ => .isTrue trivial

/-!
# The scan
-/

def ahead (cursor slot : Slot) : Nat :=
  (slot.val + slotNum - cursor.val) % slotNum

@[simp] theorem ahead_self (cursor : Slot) : ahead cursor cursor = 0 := by
  unfold ahead
  rw [Nat.add_sub_cancel_left, Nat.mod_self]

theorem ahead_next {cursor slot : Slot} (hne : slot ≠ cursor) :
    ahead (nextSlot cursor) slot + 1 = ahead cursor slot := by
  have hval : slot.val ≠ cursor.val := fun h => hne (Fin.ext h)
  have hslot := slot.isLt
  have hcursor := cursor.isLt
  unfold slotNum at hslot hcursor
  simp only [ahead, nextSlot, slotNum]
  lia

theorem ahead_lt_of_le {cursor a b : Slot} (hab : a < b)
    (hscan : ¬ (a < cursor ∧ cursor ≤ b)) : ahead cursor a < ahead cursor b := by
  have ha := a.isLt
  have hb := b.isLt
  have hcursor := cursor.isLt
  rw [Fin.lt_def] at hab hscan
  rw [Fin.le_def] at hscan
  unfold slotNum at ha hb hcursor
  simp only [ahead, slotNum]
  lia

theorem ahead_lt_of_between {cursor a b : Slot} (hlow : b < cursor)
    (hhigh : cursor ≤ a) : ahead cursor a < ahead cursor b := by
  have ha := a.isLt
  have hb := b.isLt
  have hcursor := cursor.isLt
  rw [Fin.lt_def] at hlow
  rw [Fin.le_def] at hhigh
  unfold slotNum at ha hb hcursor
  simp only [ahead, slotNum]
  lia

theorem next_between {cursor a b : Slot} (hlow : b ≤ cursor) (hhigh : cursor < a) :
    b < nextSlot cursor ∧ nextSlot cursor ≤ a := by
  have ha := a.isLt
  rw [Fin.lt_def] at hhigh
  rw [Fin.le_def] at hlow
  rw [Fin.lt_def, Fin.le_def]
  unfold slotNum at ha
  simp only [nextSlot, slotNum]
  lia

/-!
# Waiting requests under the operations
-/

section Rows

variable {header : CoordHeader} {i a : Slot}

theorem needsService_markDetach :
    NeedsService (markDetach header i) a <-> NeedsService header a := by
  unfold NeedsService
  rw [markDetach_clientReserved, markDetach_shmCreated]

theorem waiting_of_markDetach (h : Waiting (markDetach header i) a) :
    Waiting header a ∧ a ≠ i := by
  rcases h with ⟨hneeds, hdetach⟩
  have hne : a ≠ i := by
    intro heq
    rw [heq, markDetach_detach_self] at hdetach
    cases hdetach
  rw [markDetach_of_ne header hne] at hdetach
  exact ⟨⟨needsService_markDetach.mp hneeds, hdetach⟩, hne⟩

theorem waiting_markDetach (h : Waiting header a) (hne : a ≠ i) :
    Waiting (markDetach header i) a := by
  refine ⟨needsService_markDetach.mpr h.left, ?_⟩
  rw [markDetach_of_ne header hne]
  exact h.right

def requestedHeader (header : CoordHeader) (i : Slot) (clientId messageSize : Int)
    (type : QueueType) : CoordHeader :=
  (header.setRow i
    (requestRow (header.slots i) clientId messageSize type)).setReserved i true

variable {clientId messageSize : Int} {type : QueueType}

theorem waiting_requested_self :
    Waiting (requestedHeader header i clientId messageSize type) i := by
  simp [requestedHeader, Waiting, NeedsService, requestRow]

theorem needsService_requested (hne : a ≠ i) :
    NeedsService (requestedHeader header i clientId messageSize type) a <->
      NeedsService header a := by
  simp [requestedHeader, NeedsService, hne]

theorem waiting_requested (hne : a ≠ i) :
    Waiting (requestedHeader header i clientId messageSize type) a <->
      Waiting header a := by
  simp [requestedHeader, Waiting, NeedsService, hne]

variable {allocated : ShmPair}

theorem needsService_visitWith (h : NeedsService (visitWith allocated header i) a) :
    a ≠ i ∧ NeedsService header a := by
  have hne : a ≠ i := by
    intro heq
    subst heq
    cases hdetach : (header.slots a).detach with
    | true =>
        rw [NeedsService, (visitWith_detach allocated header hdetach).right] at h
        cases h.left
    | false =>
        rw [visitWith_keep allocated header hdetach] at h
        by_cases hneeds : NeedsService header a
        · rw [serviced_of_needs allocated hneeds, NeedsService,
            CoordHeader.setRow_slots_self] at h
          cases h.right
        · rw [serviced_of_not_needs allocated hneeds] at h
          exact hneeds h
  rcases visitWith_other allocated header hne with ⟨hrow, hreserved⟩
  rw [NeedsService, hrow, hreserved] at h
  exact ⟨hne, h⟩

theorem waiting_visitWith (hne : a ≠ i) :
    Waiting (visitWith allocated header i) a <-> Waiting header a := by
  rcases visitWith_other allocated header hne with ⟨hrow, hreserved⟩
  unfold Waiting NeedsService
  rw [hrow, hreserved]

end Rows

/-!
# The invariant
-/

structure ArrivalInvariant (s : ArrivalState) : Prop where
  numbered : forall a, NeedsService s.header a -> s.arrival a < s.count
  distinct : forall a b, NeedsService s.header a -> NeedsService s.header b ->
    s.arrival a = s.arrival b -> a = b
  /-- No request is forgotten. -/
  accounted : forall n, n < s.count ->
    n ∈ s.serviced ∨ n ∈ s.abandoned ∨
      exists a, Waiting s.header a ∧ s.arrival a = n
  detached : forall a, NeedsService s.header a ->
    (s.header.slots a).detach = true -> s.arrival a ∈ s.abandoned
  /-- A free slot before that of an unserviced request was freed by the scan, which
  has not come to the request yet. -/
  recycled : forall a b, NeedsService s.header a ->
    s.header.clientReserved b = false -> b < a -> b < s.cursor ∧ s.cursor ≤ a
  ordered : forall a b, Waiting s.header a -> Waiting s.header b ->
    s.arrival a < s.arrival b -> ahead s.cursor a < ahead s.cursor b
  past : forall n, n ∈ s.serviced -> n < s.count
  order : OrderOfArrival s

theorem arrivalInvariant_start : ArrivalInvariant arrivalStart where
  numbered := nofun
  distinct := nofun
  accounted := nofun
  detached := nofun
  recycled := nofun
  ordered := nofun
  past := nofun
  order := by
    intro before later after hserviced
    simp [arrivalStart] at hserviced

section Invariant

variable {s : ArrivalState}

theorem arrival_close (h : ArrivalInvariant s) (clientId : Int) :
    ArrivalInvariant (s.close clientId) := by
  unfold ArrivalState.close
  rcases clientClose_cases s.header clientId with
    ⟨i, hmatch, hresult⟩ | ⟨hmatch, _⟩
  · rw [hmatch, hresult]
    dsimp only
    generalize habandoned : (if NeedsService s.header i then
      s.abandoned ++ [s.arrival i] else s.abandoned) = abandoned
    have hold : forall n, n ∈ s.abandoned -> n ∈ abandoned := by
      intro n hn
      rw [← habandoned]
      split
      · exact List.mem_append_left _ hn
      · exact hn
    have hnew : NeedsService s.header i -> s.arrival i ∈ abandoned := by
      intro hneeds
      rw [← habandoned, if_pos hneeds]
      exact List.mem_append_right _ (List.mem_singleton.mpr rfl)
    constructor
    · intro a hneeds
      exact h.numbered a (needsService_markDetach.mp hneeds)
    · intro a b ha hb
      exact h.distinct a b (needsService_markDetach.mp ha) (needsService_markDetach.mp hb)
    · intro n hn
      rcases h.accounted n hn with hserviced | habandon | ⟨a, hwaits, harrival⟩
      · exact Or.inl hserviced
      · exact Or.inr (Or.inl (hold n habandon))
      · by_cases ha : a = i
        · rw [ha] at hwaits harrival
          rw [← harrival]
          exact Or.inr (Or.inl (hnew hwaits.left))
        · exact Or.inr (Or.inr ⟨a, waiting_markDetach hwaits ha, harrival⟩)
    · intro a hneeds hdetach
      by_cases ha : a = i
      · rw [ha] at hneeds ⊢
        exact hnew (needsService_markDetach.mp hneeds)
      · rw [markDetach_of_ne s.header ha] at hdetach
        exact hold _ (h.detached a (needsService_markDetach.mp hneeds) hdetach)
    · intro a b hneeds
      exact h.recycled a b (needsService_markDetach.mp hneeds)
    · intro a b ha hb
      exact h.ordered a b (waiting_of_markDetach ha).left (waiting_of_markDetach hb).left
    · exact h.past
    · intro before later after hserviced hlater earlier hlt hearlier
      exact h.order before later after hserviced (fun hn => hlater (hold _ hn)) earlier
        hlt fun hn => hearlier (hold _ hn)
  · rw [hmatch]
    exact h

theorem arrival_request (h : ArrivalInvariant s) {clientId messageSize : Int}
    {type : QueueType}
    (hguard : ScanNotBetween s (.request clientId messageSize type)) :
    ArrivalInvariant (s.request clientId messageSize type) := by
  unfold ArrivalState.request
  rcases requestSlot_cases s.header clientId messageSize type with
    ⟨i, hfree, hresult⟩ | ⟨_, hresult⟩
  · rw [hresult]
    dsimp only
    rcases freeSlot_eq_some_iff.mp hfree with ⟨hunreserved, hlow⟩
    have hself : Function.update s.arrival i s.count i = s.count :=
      Function.update_self _ _ _
    have hother : forall a, a ≠ i ->
        Function.update s.arrival i s.count a = s.arrival a :=
      fun a ha => Function.update_of_ne ha _ _
    have hne : forall a, NeedsService s.header a -> a ≠ i := by
      intro a hneeds heq
      rw [heq, NeedsService, hunreserved] at hneeds
      cases hneeds.left
    generalize Function.update s.arrival i s.count = arrival at hself hother ⊢
    constructor
    · intro a hneeds
      show arrival a < s.count + 1
      by_cases ha : a = i
      · rw [ha, hself]
        exact Nat.lt_succ_self _
      · rw [hother a ha]
        exact Nat.lt_succ_of_lt (h.numbered a ((needsService_requested ha).mp hneeds))
    · intro a b ha hb hsame
      change arrival a = arrival b at hsame
      by_cases hai : a = i
      · by_cases hbi : b = i
        · rw [hai, hbi]
        · rw [hai, hself, hother b hbi] at hsame
          have hlt := h.numbered b ((needsService_requested hbi).mp hb)
          lia
      · by_cases hbi : b = i
        · rw [hbi, hself, hother a hai] at hsame
          have hlt := h.numbered a ((needsService_requested hai).mp ha)
          lia
        · rw [hother a hai, hother b hbi] at hsame
          exact h.distinct a b ((needsService_requested hai).mp ha)
            ((needsService_requested hbi).mp hb) hsame
    · intro n hn
      by_cases hlast : n = s.count
      · exact Or.inr (Or.inr ⟨i, waiting_requested_self, hself.trans hlast.symm⟩)
      · rcases h.accounted n (by lia) with
          hserviced | habandon | ⟨a, hwaits, harrival⟩
        · exact Or.inl hserviced
        · exact Or.inr (Or.inl habandon)
        · have ha := hne a hwaits.left
          exact Or.inr (Or.inr ⟨a, (waiting_requested ha).mpr hwaits,
            (hother a ha).trans harrival⟩)
    · intro a hneeds hdetach
      by_cases ha : a = i
      · have hclear := (waiting_requested_self :
          Waiting (requestedHeader s.header i clientId messageSize type) i).right
        rw [ha] at hdetach
        exact absurd (hclear.symm.trans hdetach) Bool.false_ne_true
      · show arrival a ∈ s.abandoned
        rw [hother a ha]
        apply h.detached a ((needsService_requested ha).mp hneeds)
        simpa [requestedHeader, ha] using hdetach
    · intro a b hneeds hb hlt
      have hbi : b ≠ i := by
        intro heq
        simp [heq] at hb
      have hb' : s.header.clientReserved b = false := by
        simpa [requestedHeader, hbi] using hb
      by_cases ha : a = i
      · rw [ha] at hlt
        rw [hlow b hlt] at hb'
        cases hb'
      · exact h.recycled a b ((needsService_requested ha).mp hneeds) hb' hlt
    · intro a b ha hb hlt
      change arrival a < arrival b at hlt
      by_cases hbi : b = i
      · subst hbi
        by_cases hai : a = b
        · rw [hai] at hlt
          exact absurd hlt (Nat.lt_irrefl _)
        · have hwaits := (waiting_requested hai).mp ha
          show ahead s.cursor a < ahead s.cursor b
          rcases lt_or_gt_of_ne hai with hbefore | hafter
          · exact ahead_lt_of_le hbefore (hguard a b hwaits hfree)
          · rcases h.recycled a b hwaits.left hunreserved hafter with ⟨hc, hc'⟩
            exact ahead_lt_of_between hc hc'
      · have hwaits := (waiting_requested hbi).mp hb
        have hbound := h.numbered b hwaits.left
        by_cases hai : a = i
        · rw [hai, hself, hother b hbi] at hlt
          lia
        · rw [hother a hai, hother b hbi] at hlt
          exact h.ordered a b ((waiting_requested hai).mp ha) hwaits hlt
    · intro n hn
      exact Nat.lt_succ_of_lt (h.past n hn)
    · exact h.order
  · rw [hresult]
    exact h

theorem arrival_visit (h : ArrivalInvariant s) (allocated : ShmPair) :
    ArrivalInvariant (s.visit allocated) := by
  unfold ArrivalState.visit
  generalize hserviced : (if NeedsService s.header s.cursor then
    s.serviced ++ [s.arrival s.cursor] else s.serviced) = serviced
  have hold : forall n, n ∈ s.serviced -> n ∈ serviced := by
    intro n hn
    rw [← hserviced]
    split
    · exact List.mem_append_left _ hn
    · exact hn
  constructor
  · intro a hneeds
    exact h.numbered a (needsService_visitWith hneeds).right
  · intro a b ha hb
    exact h.distinct a b (needsService_visitWith ha).right
      (needsService_visitWith hb).right
  · intro n hn
    rcases h.accounted n hn with hpast | habandon | ⟨a, hwaits, harrival⟩
    · exact Or.inl (hold n hpast)
    · exact Or.inr (Or.inl habandon)
    · by_cases ha : a = s.cursor
      · apply Or.inl
        rw [ha] at hwaits harrival
        show n ∈ serviced
        rw [← hserviced, if_pos hwaits.left, ← harrival]
        exact List.mem_append_right _ (List.mem_singleton.mpr rfl)
      · exact Or.inr (Or.inr ⟨a, (waiting_visitWith ha).mpr hwaits, harrival⟩)
  · intro a hneeds hdetach
    rcases needsService_visitWith hneeds with ⟨hne, hneeds'⟩
    rw [(visitWith_other allocated s.header hne).left] at hdetach
    exact h.detached a hneeds' hdetach
  · intro a b hneeds hb hlt
    rcases needsService_visitWith hneeds with ⟨hne, hneeds'⟩
    by_cases hbc : b = s.cursor
    · rw [hbc] at hlt ⊢
      exact next_between (Fin.le_refl _) hlt
    · rw [(visitWith_other allocated s.header hbc).right] at hb
      rcases h.recycled a b hneeds' hb hlt with ⟨hlow, hhigh⟩
      exact next_between (Fin.le_of_lt hlow) (lt_of_le_of_ne hhigh (Ne.symm hne))
  · intro a b ha hb hlt
    have hna := (needsService_visitWith ha.left).left
    have hnb := (needsService_visitWith hb.left).left
    have horder := h.ordered a b ((waiting_visitWith hna).mp ha)
      ((waiting_visitWith hnb).mp hb) hlt
    have hnexta := ahead_next hna
    have hnextb := ahead_next hnb
    show ahead (nextSlot s.cursor) a < ahead (nextSlot s.cursor) b
    lia
  · intro n hn
    change n ∈ serviced at hn
    rw [← hserviced] at hn
    split at hn
    · rename_i hneeds
      rcases List.mem_append.mp hn with hn | hn
      · exact h.past n hn
      · rw [List.mem_singleton.mp hn]
        exact h.numbered s.cursor hneeds
    · exact h.past n hn
  · intro before later after hlog hlater earlier hlt hearlier
    change serviced = before ++ later :: after at hlog
    rw [← hserviced] at hlog
    split at hlog
    · rename_i hneeds
      rcases List.eq_nil_or_concat after with hafter | ⟨front, last, hafter⟩
      · subst hafter
        rcases List.append_inj' hlog rfl with ⟨hbefore, hlast⟩
        injection hlast with hlast _
        subst hlast
        have hcount := h.numbered s.cursor hneeds
        rcases h.accounted earlier (by lia) with
          hpast | habandon | ⟨a, hwaits, harrival⟩
        · rw [← hbefore]
          exact hpast
        · exact absurd habandon hearlier
        · have hdetach : (s.header.slots s.cursor).detach = false := by
            cases hmark : (s.header.slots s.cursor).detach with
            | false => rfl
            | true => exact absurd (h.detached s.cursor hneeds hmark) hlater
          rw [← harrival] at hlt
          have hahead := h.ordered a s.cursor hwaits ⟨hneeds, hdetach⟩ hlt
          rw [ahead_self] at hahead
          exact absurd hahead (Nat.not_lt_zero _)
      · rw [hafter, List.concat_eq_append, ← List.cons_append,
          ← List.append_assoc] at hlog
        rcases List.append_inj' hlog rfl with ⟨hbefore, _⟩
        exact h.order before later front hbefore hlater earlier hlt hearlier
    · exact h.order before later after hlog hlater earlier hlt hearlier

end Invariant

/-!
# Every interleaving
-/

/--
As long as no request gets a slot that the scan will reach before an earlier one
that it has already passed, requests are serviced in the order of their arrival.
-/
theorem requests_serviced_in_order {s : ArrivalState}
    (hs : arrivalSystem.ReachableUnder ScanNotBetween s) : OrderOfArrival s := by
  have hinv : ArrivalInvariant s := by
    refine TransitionSystem.reachableUnder_invariant ?_ ?_ hs
    · intro start hstart
      rw [show start = arrivalStart from hstart]
      exact arrivalInvariant_start
    · intro t l t' ht hguard hnext
      rw [← Option.some.inj hnext]
      cases l with
      | request clientId messageSize type => exact arrival_request ht hguard
      | close clientId => exact arrival_close ht clientId
      | visit allocated => exact arrival_visit ht allocated
  exact hinv.order

/-- The third request gets a slot that was freed, and waits there until the scan
comes round; the fourth gets a slot behind it. -/
def recyclingLabels : List ArrivalLabel :=
  [.request 5 64 .poll, .request 6 64 .poll, .visit pairOfFive, .visit pairOfFive,
    .close 5] ++ List.replicate 39 (.visit pairOfFive) ++
    .request 7 64 .poll :: List.replicate 39 (.visit pairOfFive) ++
    .request 8 64 .poll :: List.replicate 3 (.visit pairOfFive)

theorem requests_serviced_in_order_recycling :
    exists s, s.serviced = [0, 1, 2, 3] ∧ OrderOfArrival s := by
  have hsome : ((arrivalSystem.executeChecked (fun s l => decide (ScanNotBetween s l))
      arrivalStart recyclingLabels).map ArrivalState.serviced) = some [0, 1, 2, 3] := by
    decide +kernel
  rcases Option.map_eq_some_iff.mp hsome with ⟨s, hexec, hserviced⟩
  exact ⟨s, hserviced, requests_serviced_in_order
    (TransitionSystem.reachableUnder_of_executeChecked
      (fun _ _ hcheck => of_decide_eq_true hcheck) rfl hexec)⟩

def overtakingLabels : List ArrivalLabel :=
  [.visit pairOfFive, .request 5 64 .poll, .request 6 64 .poll] ++
    List.replicate 40 (.visit pairOfFive)

theorem requests_overtake :
    ¬ forall s : ArrivalState, arrivalSystem.Reachable s -> OrderOfArrival s := by
  intro hclaim
  have hsome : ((arrivalSystem.execute arrivalStart overtakingLabels).map fun s =>
      (s.serviced, s.abandoned)) = some ([1, 0], []) := by
    decide +kernel
  rcases Option.map_eq_some_iff.mp hsome with ⟨s, hexec, hlogs⟩
  injection hlogs with hserviced habandoned
  have hreach : arrivalSystem.Reachable s :=
    TransitionSystem.reachableUnder_of_execute rfl hexec (fun _ _ => trivial)
  have hbefore := hclaim s hreach [] 1 [0] hserviced (by rw [habandoned]; nofun) 0
    (by decide) (by rw [habandoned]; nofun)
  cases hbefore

end Rpc
end Notnets
