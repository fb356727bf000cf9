import Notnets.Rpc.Handshake

/-!
# The invariant of the reservation handshake

A slot that is not reserved is written by the holder of the mutex alone, and a
reserved slot by the manager alone, apart from `detach`.  The manager knows of
its slot what it has read there, because nobody else can change it.
-/

namespace Notnets
namespace Rpc

open Coord
open Foundation

def ServicePc.isStoring : ServicePc -> Bool
  | .storing _ _ => true
  | _ => false

def AllocatedOnce (reservation : Reservation) (shms : ShmPair) : Prop :=
  exists allocation, reservation.allocations = [allocation] ∧
    allocation.messageSize = reservation.messageSize ∧
    allocation.clientId = reservation.clientId ∧ allocation.shms = shms

/-- A reservation is in the row that was written for it; `storing` tells that
the manager is between the run of the allocator and the store of `shm_created`. -/
structure ReservationKept (header : CoordHeader) (slot : Slot)
    (reservation : Reservation) (storing : Prop) : Prop where
  reserved : header.clientReserved slot = true
  clientId : (header.slots slot).clientId = reservation.clientId
  messageSize : (header.slots slot).messageSize = reservation.messageSize
  type : (header.slots slot).type = reservation.type
  detach : (header.slots slot).detach = false
  serviced : (header.slots slot).shmCreated = true ->
    AllocatedOnce reservation (header.slots slot).shms
  unserviced : (header.slots slot).shmCreated = false -> ¬ storing ->
    reservation.allocations = []

def FreeKept (header : CoordHeader) (clients : Int -> RequestPc) (slot : Slot) :
    Prop :=
  (header.slots slot).detach = false ∧
    ((header.slots slot).clientId = 0 ∨
      exists messageSize type todo,
        clients (header.slots slot).clientId = .writing slot messageSize type todo)

def ServiceKnows (header : CoordHeader) (held : Slot -> Option Reservation)
    (slot : Slot) : ServicePc -> Prop
  | .testingCreated _ => header.clientReserved slot = true
  | .readingSize _ =>
      header.clientReserved slot = true ∧ (header.slots slot).shmCreated = false
  | .readingId _ messageSize =>
      header.clientReserved slot = true ∧ (header.slots slot).shmCreated = false ∧
        forall reservation, held slot = some reservation ->
          messageSize = reservation.messageSize
  | .allocating _ messageSize clientId =>
      header.clientReserved slot = true ∧ (header.slots slot).shmCreated = false ∧
        forall reservation, held slot = some reservation ->
          messageSize = reservation.messageSize ∧ clientId = reservation.clientId
  | .storing shms todo =>
      header.clientReserved slot = true ∧ (header.slots slot).shmCreated = false ∧
        CopiedUpTo shmFields todo (header.slots slot) (pairRow shms) ∧
        forall reservation, held slot = some reservation ->
          AllocatedOnce reservation shms
  | .testingServiced =>
      header.clientReserved slot = true ∧ (header.slots slot).detach = true
  | .removing =>
      header.clientReserved slot = true ∧ (header.slots slot).detach = true
  | .zeroing todo =>
      header.clientReserved slot = true ∧ held slot = none ∧
        CopiedUpTo rowFields todo (header.slots slot) CoordRow.zero
  | _ => True

def ReservedBy (held : Slot -> Option Reservation) (clientId : Int) (slot : Slot) :
    Prop :=
  exists reservation, held slot = some reservation ∧
    reservation.clientId = clientId

def RequestKnows (header : CoordHeader) (mutex : Option Int)
    (held : Slot -> Option Reservation) (clientId : Int) : RequestPc -> Prop
  | .scanning _ _ _ => mutex = some clientId
  | .writing slot messageSize type todo =>
      mutex = some clientId ∧ header.clientReserved slot = false ∧
        CopiedUpTo requestFields todo (header.slots slot)
          (requestRow CoordRow.zero clientId messageSize type)
  | .unlocking none => mutex = some clientId
  | .unlocking (some slot) => mutex = some clientId ∧ ReservedBy held clientId slot
  | .holding slot none => ReservedBy held clientId slot
  | .holding slot (some shms) =>
      ReservedBy held clientId slot ∧ (header.slots slot).shmCreated = true ∧
        (header.slots slot).shms = shms
  | .copying slot copy todo =>
      ReservedBy held clientId slot ∧ (header.slots slot).shmCreated = true ∧
        CopiedUpTo shmFields todo copy (header.slots slot)
  | _ => True

structure HandshakeInvariant (s : HandshakeState) : Prop where
  held : forall i reservation, s.held i = some reservation ->
    ReservationKept s.header i reservation
      (s.cursor = i ∧ s.manager.isStoring = true)
  free : forall i, s.header.clientReserved i = false ->
    FreeKept s.header s.clients i
  manager : ServiceKnows s.header s.held s.cursor s.manager
  client : forall c, RequestKnows s.header s.mutex s.held c (s.clients c)

theorem handshakeInvariant_start : HandshakeInvariant handshakeStart := by
  constructor
  · intro i reservation hheld
    cases hheld
  · intro i hfree
    exact ⟨rfl, Or.inl rfl⟩
  · trivial
  · intro c
    trivial

/-!
# What the parties know of slots that do not change
-/

section Frame

variable {header header' : CoordHeader} {held held' : Slot -> Option Reservation}
  {slot : Slot}

theorem reservationKept_congr {reservation : Reservation} {storing storing' : Prop}
    (h : ReservationKept header slot reservation storing)
    (hreserved : header'.clientReserved slot = header.clientReserved slot)
    (hrow : header'.slots slot = header.slots slot)
    (hstoring : storing -> storing') :
    ReservationKept header' slot reservation storing' := by
  rcases h with ⟨h1, h2, h3, h4, h5, h6, h7⟩
  constructor
  · rw [hreserved]
    exact h1
  all_goals rw [hrow]
  · exact h2
  · exact h3
  · exact h4
  · exact h5
  · exact h6
  · intro hcreated hnot
    exact h7 hcreated (fun hyes => hnot (hstoring hyes))

/-- The manager may write what a reservation does not speak of. -/
theorem reservationKept_setRow {reservation : Reservation} {storing storing' : Prop}
    (h : ReservationKept header slot reservation storing) {row : CoordRow}
    (hrow : row = { header.slots slot with
      shms := row.shms, shmCreated := row.shmCreated })
    (hserviced : row.shmCreated = true -> AllocatedOnce reservation row.shms)
    (hunserviced : row.shmCreated = false -> storing') :
    ReservationKept (header.setRow slot row) slot reservation storing' := by
  constructor
  · exact h.reserved
  all_goals rw [CoordHeader.setRow_slots_self]
  · rw [hrow]
    exact h.clientId
  · rw [hrow]
    exact h.messageSize
  · rw [hrow]
    exact h.type
  · rw [hrow]
    exact h.detach
  · exact hserviced
  · intro hcreated hnot
    exact absurd (hunserviced hcreated) hnot

theorem serviceKnows_free {pc : ServicePc} (h : ServiceKnows header held slot pc)
    (hfree : header.clientReserved slot = false) :
    ServiceKnows header' held' slot pc := by
  have hne : header.clientReserved slot ≠ true := by
    rw [hfree]
    exact Bool.false_ne_true
  cases pc with
  | testingCreated allocator => exact absurd h hne
  | readingSize allocator => exact absurd h.left hne
  | readingId allocator messageSize => exact absurd h.left hne
  | allocating allocator messageSize clientId => exact absurd h.left hne
  | storing shms todo => exact absurd h.left hne
  | testingServiced => exact absurd h.left hne
  | removing => exact absurd h.left hne
  | zeroing todo => exact absurd h.left hne
  | _ => trivial

theorem serviceKnows_congr {pc : ServicePc} (h : ServiceKnows header held slot pc)
    (hreserved : header'.clientReserved slot = header.clientReserved slot)
    (hrow : header'.slots slot = header.slots slot)
    (hheld : held' slot = held slot) :
    ServiceKnows header' held' slot pc := by
  unfold ServiceKnows
  rw [hreserved, hrow, hheld]
  exact h

/-- A client keeps what it knows while nobody touches the free slots under its
mutex, and its serviced slots stay as they are. -/
theorem requestKnows_frame {mutex mutex' : Option Int} {c : Int} {pc : RequestPc}
    (h : RequestKnows header mutex held c pc)
    (hmutex : mutex = some c -> mutex' = some c)
    (hwriting : mutex = some c -> forall i, header.clientReserved i = false ->
      header'.clientReserved i = false ∧ header'.slots i = header.slots i)
    (hheld : forall i, ReservedBy held c i -> ReservedBy held' c i ∧
      ((header.slots i).shmCreated = true -> header'.slots i = header.slots i)) :
    RequestKnows header' mutex' held' c pc := by
  cases pc with
  | idle => trivial
  | locking messageSize type => trivial
  | scanning messageSize type index => exact hmutex h
  | writing i messageSize type todo =>
      rcases h with ⟨hin, hfree, hcopied⟩
      rcases hwriting hin i hfree with ⟨hfree', hrow⟩
      refine ⟨hmutex hin, hfree', ?_⟩
      rw [hrow]
      exact hcopied
  | unlocking result =>
      cases result with
      | none => exact hmutex h
      | some i => exact ⟨hmutex h.left, (hheld i h.right).left⟩
  | holding i checked =>
      cases checked with
      | none => exact (hheld i h).left
      | some shms =>
          rcases h with ⟨hholds, hcreated, hshms⟩
          rcases hheld i hholds with ⟨hholds', hrow⟩
          refine ⟨hholds', ?_⟩
          rw [hrow hcreated]
          exact ⟨hcreated, hshms⟩
  | copying i copy todo =>
      rcases h with ⟨hholds, hcreated, hcopied⟩
      rcases hheld i hholds with ⟨hholds', hrow⟩
      refine ⟨hholds', ?_⟩
      rw [hrow hcreated]
      exact ⟨hcreated, hcopied⟩

end Frame

/-!
# Steps of one client
-/

section Client

variable {s : HandshakeState} {clientId : Int}

theorem requestKnows_update {header : CoordHeader} {mutex : Option Int}
    {held : Slot -> Option Reservation} {pc : RequestPc}
    (hself : RequestKnows header mutex held clientId pc)
    (hothers : forall c, c ≠ clientId ->
      RequestKnows header mutex held c (s.clients c)) (c : Int) :
    RequestKnows header mutex held c
      (Function.update s.clients clientId pc c) := by
  rw [Function.update_apply]
  split
  · rename_i heq
    rw [heq]
    exact hself
  · rename_i hne
    exact hothers c hne

theorem invariant_of_client {pc : RequestPc} {mutex : Option Int}
    (hinv : HandshakeInvariant s)
    (hold : forall i messageSize type todo,
      s.clients clientId ≠ .writing i messageSize type todo)
    (hself : RequestKnows s.header mutex s.held clientId pc)
    (hothers : forall c, c ≠ clientId -> s.mutex = some c -> mutex = some c) :
    HandshakeInvariant ({ s with mutex := mutex }.setClient clientId pc) := by
  constructor
  · exact hinv.held
  · intro i hfree
    rcases hinv.free i hfree with ⟨hdetach, hid | ⟨messageSize, type, todo, hwrites⟩⟩
    · exact ⟨hdetach, Or.inl hid⟩
    · refine ⟨hdetach, Or.inr ⟨messageSize, type, todo, ?_⟩⟩
      have hne : (s.header.slots i).clientId ≠ clientId := by
        intro heq
        rw [heq] at hwrites
        exact hold i messageSize type todo hwrites
      exact (Function.update_of_ne hne _ _).trans hwrites
  · exact hinv.manager
  · apply requestKnows_update hself
    intro c hne
    apply requestKnows_frame (hinv.client c)
    · exact hothers c hne
    · intro _ i hfree
      exact ⟨hfree, rfl⟩
    · intro i hholds
      exact ⟨hholds, fun _ => rfl⟩

variable {slot : Slot} {messageSize : Int} {type : QueueType} {todo : List RowField}

theorem writer_unique (hinv : HandshakeInvariant s)
    (hmutex : s.mutex = some clientId) {c : Int}
    (hpc : s.clients c = .writing slot messageSize type todo) : c = clientId := by
  have hknows := hinv.client c
  rw [hpc] at hknows
  have hc : s.mutex = some c := hknows.left
  rw [hmutex] at hc
  exact (Option.some.inj hc).symm

theorem held_ne_free (hinv : HandshakeInvariant s)
    (hfree : s.header.clientReserved slot = false) {i : Slot}
    {reservation : Reservation} (hheld : s.held i = some reservation) : i ≠ slot := by
  intro heq
  have hreserved := (hinv.held i reservation hheld).reserved
  rw [heq, hfree] at hreserved
  cases hreserved

/-- While one free slot is written, the other ones name no client. -/
theorem free_elsewhere (hinv : HandshakeInvariant s) (hmutex : s.mutex = some clientId)
    (hpc : s.clients clientId = .writing slot messageSize type todo) {i : Slot}
    (hne : i ≠ slot) (hfree : s.header.clientReserved i = false) :
    (s.header.slots i).detach = false ∧ (s.header.slots i).clientId = 0 := by
  rcases hinv.free i hfree with ⟨hdetach, hzero | ⟨size, kind, rest, hwrites⟩⟩
  · exact ⟨hdetach, hzero⟩
  · rw [writer_unique hinv hmutex hwrites, hpc] at hwrites
    injection hwrites with heq
    exact absurd heq.symm hne

theorem serviceKnows_elsewhere {header : CoordHeader}
    {held : Slot -> Option Reservation} (hinv : HandshakeInvariant s)
    (hfree : s.header.clientReserved slot = false)
    (hreserved : forall i, i ≠ slot ->
      header.clientReserved i = s.header.clientReserved i)
    (hrow : forall i, i ≠ slot -> header.slots i = s.header.slots i)
    (hheld : forall i, i ≠ slot -> held i = s.held i) :
    ServiceKnows header held s.cursor s.manager := by
  by_cases hcursor : s.cursor = slot
  · apply serviceKnows_free hinv.manager
    rw [hcursor]
    exact hfree
  · exact serviceKnows_congr hinv.manager (hreserved s.cursor hcursor)
      (hrow s.cursor hcursor) (hheld s.cursor hcursor)

/-- The clients without the mutex know nothing of a slot that another one is writing. -/
theorem requestKnows_elsewhere {header : CoordHeader}
    {held : Slot -> Option Reservation} (hinv : HandshakeInvariant s)
    (hmutex : s.mutex = some clientId)
    (hfree : s.header.clientReserved slot = false)
    (hrow : forall i, i ≠ slot -> header.slots i = s.header.slots i)
    (hheld : forall i, i ≠ slot -> held i = s.held i) {c : Int} (hne : c ≠ clientId) :
    RequestKnows header s.mutex held c (s.clients c) := by
  apply requestKnows_frame (hinv.client c)
  · exact id
  · intro hin
    rw [hmutex] at hin
    exact absurd (Option.some.inj hin).symm hne
  · intro i hholds
    rcases hholds with ⟨reservation, hi, hc⟩
    have hslot := held_ne_free hinv hfree hi
    exact ⟨⟨reservation, (hheld i hslot).trans hi, hc⟩, fun _ => hrow i hslot⟩

theorem copyField_free (field : RowField) (clientId messageSize : Int)
    (type : QueueType) {row : CoordRow} (hdetach : row.detach = false) :
    (copyField field (requestRow CoordRow.zero clientId messageSize type) row).detach =
        false ∧
      ((copyField field (requestRow CoordRow.zero clientId messageSize type)
          row).clientId = clientId ∨
        (copyField field (requestRow CoordRow.zero clientId messageSize type)
          row).clientId = row.clientId) := by
  cases field with
  | clientId => exact ⟨hdetach, Or.inl rfl⟩
  | detach => exact ⟨rfl, Or.inr rfl⟩
  | _ => exact ⟨hdetach, Or.inr rfl⟩

theorem invariant_writeField (hinv : HandshakeInvariant s) {field : RowField}
    (hpc : s.clients clientId = .writing slot messageSize type (field :: todo)) :
    HandshakeInvariant ({ s with header := s.header.setRow slot (copyField field
      (requestRow CoordRow.zero clientId messageSize type)
      (s.header.slots slot)) }.setClient clientId
        (.writing slot messageSize type todo)) := by
  have hknows := hinv.client clientId
  rw [hpc] at hknows
  rcases hknows with ⟨hmutex, hfree, hcopied⟩
  generalize hrow : copyField field (requestRow CoordRow.zero clientId messageSize type)
    (s.header.slots slot) = row
  have hother : forall i, i ≠ slot ->
      (s.header.setRow slot row).slots i = s.header.slots i :=
    fun i hne => CoordHeader.setRow_slots_of_ne _ _ _ hne
  constructor
  · intro i reservation hheld
    have hne := held_ne_free hinv hfree hheld
    exact reservationKept_congr (hinv.held i reservation hheld) rfl (hother i hne) id
  · intro i hi
    have hself : Function.update s.clients clientId
        (.writing slot messageSize type todo) clientId =
          .writing slot messageSize type todo := Function.update_self _ _ _
    rcases hinv.free i hi with ⟨hdetach, hid⟩
    by_cases hslot : i = slot
    · subst hslot
      have hcopy := copyField_free field clientId messageSize type hdetach
      rw [hrow] at hcopy
      show FreeKept (s.header.setRow i row) _ i
      unfold FreeKept
      rw [CoordHeader.setRow_slots_self]
      refine ⟨hcopy.left, ?_⟩
      rcases hcopy.right with hnew | hsame
      · rw [hnew]
        exact Or.inr ⟨messageSize, type, todo, hself⟩
      · rw [hsame]
        rcases hid with hzero | ⟨size, kind, rest, hwrites⟩
        · exact Or.inl hzero
        · rw [writer_unique hinv hmutex hwrites]
          exact Or.inr ⟨messageSize, type, todo, hself⟩
    · show FreeKept (s.header.setRow slot row) _ i
      unfold FreeKept
      rw [hother i hslot]
      exact ⟨hdetach, Or.inl (free_elsewhere hinv hmutex hpc hslot hi).right⟩
  · exact serviceKnows_elsewhere (s := s) hinv hfree (fun _ _ => rfl) hother
      fun _ _ => rfl
  · apply requestKnows_update
    · refine ⟨hmutex, hfree, ?_⟩
      show CopiedUpTo _ _ ((s.header.setRow slot row).slots slot) _
      rw [CoordHeader.setRow_slots_self, ← hrow]
      exact copiedUpTo_step hcopied
    · intro c hne
      exact requestKnows_elsewhere hinv hmutex hfree hother (fun _ _ => rfl) hne

theorem invariant_reserve (hinv : HandshakeInvariant s)
    (hpc : s.clients clientId = .writing slot messageSize type []) :
    HandshakeInvariant ({ s with
      header := s.header.setReserved slot true
      held := Function.update s.held slot
        (some ⟨clientId, messageSize, type, []⟩) }.setClient clientId
          (.unlocking (some slot))) := by
  have hknows := hinv.client clientId
  rw [hpc] at hknows
  rcases hknows with ⟨hmutex, hfree, hcopied⟩
  have hreserved : forall i, i ≠ slot ->
      (s.header.setReserved slot true).clientReserved i = s.header.clientReserved i :=
    fun i hne => CoordHeader.setReserved_clientReserved_of_ne _ _ _ hne
  have hheld : forall i, i ≠ slot -> Function.update s.held slot
      (some ⟨clientId, messageSize, type, []⟩) i = s.held i :=
    fun i hne => Function.update_of_ne hne _ _
  have hrow : forall i, i ≠ slot ->
      (s.header.setReserved slot true).slots i = s.header.slots i :=
    fun _ _ => rfl
  have hcreated : (s.header.slots slot).shmCreated = false :=
    copiedUpTo_end hcopied .shmCreated (by decide)
  constructor
  · intro i reservation hi
    by_cases hslot : i = slot
    · subst hslot
      have hself : Function.update s.held i
          (some ⟨clientId, messageSize, type, []⟩) i = some reservation := hi
      rw [Function.update_self] at hself
      have hnew := Option.some.inj hself
      subst hnew
      constructor
      · exact CoordHeader.setReserved_clientReserved_self _ _ _
      · exact copiedUpTo_end hcopied .clientId (by decide)
      · exact copiedUpTo_end hcopied .messageSize (by decide)
      · exact copiedUpTo_end hcopied .type (by decide)
      · exact copiedUpTo_end hcopied .detach (by decide)
      · intro hyes
        have hyes' : (s.header.slots i).shmCreated = true := hyes
        rw [hcreated] at hyes'
        cases hyes'
      · intro _ _
        rfl
    · have hi' : s.held i = some reservation := (hheld i hslot).symm.trans hi
      exact reservationKept_congr (hinv.held i reservation hi') (hreserved i hslot)
        rfl id
  · intro i hi
    by_cases hslot : i = slot
    · subst hslot
      have hyes : (s.header.setReserved i true).clientReserved i = true :=
        CoordHeader.setReserved_clientReserved_self _ _ _
      have hi' : (s.header.setReserved i true).clientReserved i = false := hi
      rw [hyes] at hi'
      cases hi'
    · have hi' : s.header.clientReserved i = false := (hreserved i hslot).symm.trans hi
      rcases free_elsewhere hinv hmutex hpc hslot hi' with ⟨hdetach, hzero⟩
      exact ⟨hdetach, Or.inl hzero⟩
  · exact serviceKnows_elsewhere (s := s) hinv hfree hreserved hrow hheld
  · apply requestKnows_update
    · exact ⟨hmutex, _, Function.update_self _ _ _, rfl⟩
    · intro c hne
      exact requestKnows_elsewhere hinv hmutex hfree hrow hheld hne

/-!
# A step of client_close
-/

theorem closeHeld_of_ne (held : Slot -> Option Reservation) {i : Slot}
    (hne : i ≠ slot) : closeHeld held slot clientId i = held i :=
  Function.update_of_ne hne _ _

theorem closeHeld_self (hinv : HandshakeInvariant s)
    (hmatch : matchingRow s.header clientId = some slot) :
    closeHeld s.held slot clientId slot = none := by
  have hid := (matchingRow_eq_some_iff.mp hmatch).left
  unfold closeHeld
  rw [Function.update_self]
  cases hheld : s.held slot with
  | none => rfl
  | some reservation =>
      have howner := (hinv.held slot reservation hheld).clientId
      rw [hid] at howner
      simp [howner]

theorem serviceKnows_markDetach {header : CoordHeader}
    {held held' : Slot -> Option Reservation} {pc : ServicePc}
    (h : ServiceKnows header held slot pc) (hclosed : held' slot = none)
    (hid : (header.slots slot).clientId ≠ 0) :
    ServiceKnows (markDetach header slot) held' slot pc := by
  have hrow : (markDetach header slot).slots slot =
      { header.slots slot with detach := true } := CoordHeader.setRow_slots_self _ _ _
  have hheld : forall reservation, held' slot ≠ some reservation := by
    intro reservation
    rw [hclosed]
    exact nofun
  unfold ServiceKnows at h ⊢
  rw [hrow]
  cases pc with
  | testingCreated allocator => exact h
  | readingSize allocator => exact h
  | readingId allocator messageSize =>
      exact ⟨h.left, h.right.left, fun r hr => absurd hr (hheld r)⟩
  | allocating allocator messageSize clientId =>
      exact ⟨h.left, h.right.left, fun r hr => absurd hr (hheld r)⟩
  | storing shms todo =>
      rcases h with ⟨hreserved, hcreated, hcopied, _⟩
      refine ⟨hreserved, hcreated, ?_, fun r hr => absurd hr (hheld r)⟩
      apply copiedUpTo_of_same hcopied
      intro field hfield
      cases field with
      | detach => exact absurd hfield (by decide)
      | _ => rfl
  | testingServiced => exact ⟨h.left, rfl⟩
  | removing => exact ⟨h.left, rfl⟩
  | zeroing todo =>
      rcases h with ⟨hreserved, _, done, horder, hdone⟩
      cases done with
      | nil =>
          refine ⟨hreserved, hclosed, [], horder, ?_⟩
          intro field hfield
          cases hfield
      | cons field rest =>
          have hfirst : field = .clientId := by
            injection horder
          subst hfirst
          exact absurd (hdone .clientId (by simp)) hid
  | _ => trivial

theorem invariant_close (hinv : HandshakeInvariant s) (hne : clientId ≠ 0)
    (hold : forall i messageSize type todo,
      s.clients clientId ≠ .writing i messageSize type todo)
    (hmatch : matchingRow s.header clientId = some slot) :
    HandshakeInvariant ({ s with
      header := markDetach s.header slot
      held := closeHeld s.held slot clientId }.setClient clientId .idle) := by
  have hid : (s.header.slots slot).clientId = clientId :=
    (matchingRow_eq_some_iff.mp hmatch).left
  have hclosed := closeHeld_self hinv hmatch
  have hreserved : s.header.clientReserved slot = true := by
    cases hfree : s.header.clientReserved slot with
    | true => rfl
    | false =>
        rcases hinv.free slot hfree with ⟨_, hzero | ⟨size, kind, rest, hwrites⟩⟩
        · rw [hid] at hzero
          exact absurd hzero hne
        · rw [hid] at hwrites
          exact absurd hwrites (hold slot size kind rest)
  have hother : forall i, i ≠ slot ->
      (markDetach s.header slot).slots i = s.header.slots i :=
    fun i hi => CoordHeader.setRow_slots_of_ne _ _ _ hi
  have hslot : forall i, s.header.clientReserved i = false -> i ≠ slot := by
    intro i hi heq
    rw [heq, hreserved] at hi
    cases hi
  constructor
  · intro i reservation hi
    by_cases hi' : i = slot
    · subst hi'
      have hnone : closeHeld s.held i clientId i = some reservation := hi
      rw [hclosed] at hnone
      cases hnone
    · have hheld : s.held i = some reservation :=
        (closeHeld_of_ne s.held hi').symm.trans hi
      exact reservationKept_congr (hinv.held i reservation hheld) rfl (hother i hi') id
  · intro i hi
    show FreeKept (markDetach s.header slot) _ i
    unfold FreeKept
    rw [hother i (hslot i hi)]
    rcases hinv.free i hi with ⟨hdetach, hzero | ⟨size, kind, rest, hwrites⟩⟩
    · exact ⟨hdetach, Or.inl hzero⟩
    · refine ⟨hdetach, Or.inr ⟨size, kind, rest, ?_⟩⟩
      have hother : (s.header.slots i).clientId ≠ clientId := by
        intro heq
        rw [heq] at hwrites
        exact hold i size kind rest hwrites
      exact (Function.update_of_ne hother _ _).trans hwrites
  · by_cases hcursor : s.cursor = slot
    · show ServiceKnows (markDetach s.header slot) _ s.cursor s.manager
      have hknows := hinv.manager
      rw [hcursor] at hknows ⊢
      apply serviceKnows_markDetach hknows hclosed
      rw [hid]
      exact hne
    · exact serviceKnows_congr hinv.manager rfl (hother s.cursor hcursor)
        (closeHeld_of_ne s.held hcursor)
  · apply requestKnows_update
    · trivial
    · intro c hc
      apply requestKnows_frame (hinv.client c)
      · exact id
      · intro _ i hi
        exact ⟨hi, hother i (hslot i hi)⟩
      · intro i hholds
        rcases hholds with ⟨reservation, hheld, howner⟩
        have hi : i ≠ slot := by
          intro heq
          have hrow := (hinv.held i reservation hheld).clientId
          rw [heq, hid, howner] at hrow
          exact hc hrow.symm
        exact ⟨⟨reservation, (closeHeld_of_ne s.held hi).trans hheld, howner⟩,
          fun _ => hother i hi⟩

end Client

/-!
# Steps of the manager
-/

section Manager

variable {s : HandshakeState} {pc : ServicePc}

theorem invariant_of_service {cursor : Slot} (hinv : HandshakeInvariant s)
    (hstoring : s.manager.isStoring = false)
    (hknows : ServiceKnows s.header s.held cursor pc) :
    HandshakeInvariant { s with manager := pc, cursor := cursor } := by
  constructor
  · intro i reservation hheld
    apply reservationKept_congr (hinv.held i reservation hheld) rfl rfl
    intro hyes
    rw [hstoring] at hyes
    exact absurd hyes.right Bool.false_ne_true
  · exact hinv.free
  · exact hknows
  · exact hinv.client

theorem invariant_of_visited {row : CoordRow} (hinv : HandshakeInvariant s)
    (hreserved : s.header.clientReserved s.cursor = true)
    (hheld : forall reservation, s.held s.cursor = some reservation ->
      (s.header.slots s.cursor).shmCreated = false ∧
        ReservationKept (s.header.setRow s.cursor row) s.cursor reservation
          (pc.isStoring = true))
    (hknows : ServiceKnows (s.header.setRow s.cursor row) s.held s.cursor pc) :
    HandshakeInvariant { s with
      header := s.header.setRow s.cursor row
      manager := pc } := by
  have hother : forall i, i ≠ s.cursor ->
      (s.header.setRow s.cursor row).slots i = s.header.slots i :=
    fun i hne => CoordHeader.setRow_slots_of_ne _ _ _ hne
  have hfree : forall i, s.header.clientReserved i = false -> i ≠ s.cursor := by
    intro i hi heq
    rw [heq, hreserved] at hi
    cases hi
  constructor
  · intro i reservation hi
    by_cases hcursor : i = s.cursor
    · subst hcursor
      have hkept := (hheld reservation hi).right
      exact reservationKept_congr hkept rfl rfl (fun hyes => ⟨rfl, hyes⟩)
    · refine reservationKept_congr (hinv.held i reservation hi) rfl
        (hother i hcursor) ?_
      intro hyes
      exact absurd hyes.left.symm hcursor
  · intro i hi
    have hne := hfree i hi
    show FreeKept (s.header.setRow s.cursor row) s.clients i
    unfold FreeKept
    rw [hother i hne]
    exact hinv.free i hi
  · exact hknows
  · intro c
    apply requestKnows_frame (hinv.client c)
    · exact id
    · intro _ i hi
      exact ⟨hi, hother i (hfree i hi)⟩
    · intro i hholds
      refine ⟨hholds, ?_⟩
      intro hcreated
      apply hother
      intro heq
      rcases hholds with ⟨reservation, hi, _⟩
      rw [heq] at hi hcreated
      have hnot := (hheld reservation hi).left
      rw [hcreated] at hnot
      cases hnot

theorem invariant_allocate {allocator : Allocator} {messageSize clientId : Int}
    (hinv : HandshakeInvariant s)
    (hpc : s.manager = .allocating allocator messageSize clientId)
    (allocated : ShmPair) :
    HandshakeInvariant { s with
      held := logAllocation s.held s.cursor
        ⟨allocator, messageSize, clientId, allocated⟩
      manager := .storing allocated shmFields } := by
  have hknows := hinv.manager
  rw [hpc] at hknows
  rcases hknows with ⟨hreserved, hcreated, hown⟩
  have hother : forall i, i ≠ s.cursor -> logAllocation s.held s.cursor
      ⟨allocator, messageSize, clientId, allocated⟩ i = s.held i :=
    fun i hne => Function.update_of_ne hne _ _
  have hself : forall reservation, s.held s.cursor = some reservation ->
      logAllocation s.held s.cursor ⟨allocator, messageSize, clientId, allocated⟩
        s.cursor = some { reservation with
          allocations := [⟨allocator, messageSize, clientId, allocated⟩] } := by
    intro reservation hheld
    have hempty := (hinv.held s.cursor reservation hheld).unserviced hcreated (by
      rw [hpc]
      exact fun hyes => Bool.false_ne_true hyes.right)
    unfold logAllocation
    rw [Function.update_self, hheld]
    simp [hempty]
  have hnew : forall reservation', logAllocation s.held s.cursor
      ⟨allocator, messageSize, clientId, allocated⟩ s.cursor = some reservation' ->
      exists reservation, s.held s.cursor = some reservation ∧
        reservation' = { reservation with
          allocations := [⟨allocator, messageSize, clientId, allocated⟩] } := by
    intro reservation' hheld
    cases hold : s.held s.cursor with
    | none =>
        unfold logAllocation at hheld
        rw [Function.update_self, hold] at hheld
        cases hheld
    | some reservation =>
        rw [hself reservation hold] at hheld
        exact ⟨reservation, rfl, (Option.some.inj hheld).symm⟩
  constructor
  · intro i reservation' hheld
    by_cases hcursor : i = s.cursor
    · subst hcursor
      rcases hnew reservation' hheld with ⟨reservation, hold, heq⟩
      subst heq
      have hkept := hinv.held s.cursor reservation hold
      constructor
      · exact hkept.reserved
      · exact hkept.clientId
      · exact hkept.messageSize
      · exact hkept.type
      · exact hkept.detach
      · intro hyes
        rw [hcreated] at hyes
        cases hyes
      · intro _ hnot
        exact absurd ⟨rfl, rfl⟩ hnot
    · have hold : s.held i = some reservation' := (hother i hcursor).symm.trans hheld
      apply reservationKept_congr (hinv.held i reservation' hold) rfl rfl
      intro hyes
      exact absurd hyes.left.symm hcursor
  · exact hinv.free
  · refine ⟨hreserved, hcreated, copiedUpTo_start _ _ _, ?_⟩
    intro reservation' hheld
    rcases hnew reservation' hheld with ⟨reservation, hold, heq⟩
    subst heq
    rcases hown reservation hold with ⟨hsize, hid⟩
    exact ⟨_, rfl, hsize, hid, rfl⟩
  · intro c
    apply requestKnows_frame (hinv.client c)
    · exact id
    · intro _ i hi
      exact ⟨hi, rfl⟩
    · intro i hholds
      refine ⟨?_, fun _ => rfl⟩
      rcases hholds with ⟨reservation, hheld, howner⟩
      by_cases hcursor : i = s.cursor
      · rw [hcursor] at hheld ⊢
        exact ⟨_, hself reservation hheld, howner⟩
      · exact ⟨reservation, (hother i hcursor).trans hheld, howner⟩

theorem invariant_release (hinv : HandshakeInvariant s)
    (hpc : s.manager = .zeroing []) {cursor : Slot} :
    HandshakeInvariant { s with
      header := s.header.setReserved s.cursor false
      manager := .choosing
      cursor := cursor } := by
  have hknows := hinv.manager
  rw [hpc] at hknows
  rcases hknows with ⟨hreserved, hnone, hcopied⟩
  have hzero := row_of_copied hcopied
  have hother : forall i, i ≠ s.cursor ->
      (s.header.setReserved s.cursor false).clientReserved i =
        s.header.clientReserved i :=
    fun i hne => CoordHeader.setReserved_clientReserved_of_ne _ _ _ hne
  constructor
  · intro i reservation hheld
    have hne : i ≠ s.cursor := by
      intro heq
      have hheld' : s.held i = some reservation := hheld
      rw [heq, hnone] at hheld'
      cases hheld'
    apply reservationKept_congr (hinv.held i reservation hheld) (hother i hne) rfl
    intro hyes
    exact absurd hyes.left.symm hne
  · intro i hi
    by_cases hcursor : i = s.cursor
    · show FreeKept (s.header.setReserved s.cursor false) s.clients i
      unfold FreeKept
      rw [CoordHeader.setReserved_slots, hcursor, hzero]
      exact ⟨rfl, Or.inl rfl⟩
    · exact hinv.free i ((hother i hcursor).symm.trans hi)
  · trivial
  · intro c
    apply requestKnows_frame (hinv.client c)
    · exact id
    · intro _ i hi
      have hne : i ≠ s.cursor := by
        intro heq
        rw [heq, hreserved] at hi
        cases hi
      exact ⟨(hother i hne).trans hi, rfl⟩
    · intro i hholds
      exact ⟨hholds, fun _ => rfl⟩

theorem invariant_storeField (hinv : HandshakeInvariant s) {shms : ShmPair}
    {field : RowField} {todo : List RowField}
    (hpc : s.manager = .storing shms (field :: todo)) :
    HandshakeInvariant { s with
      header := s.header.setRow s.cursor
        (copyField field (pairRow shms) (s.header.slots s.cursor))
      manager := .storing shms todo } := by
  have hknows := hinv.manager
  rw [hpc] at hknows
  rcases hknows with ⟨hreserved, hcreated, hcopied, honce⟩
  have hshms := copyField_shms (copiedUpTo_mem hcopied) (pairRow shms)
    (s.header.slots s.cursor)
  have hcreated' : (copyField field (pairRow shms)
      (s.header.slots s.cursor)).shmCreated = false := by
    rw [hshms]
    exact hcreated
  apply invariant_of_visited hinv hreserved
  · intro reservation hheld
    refine ⟨hcreated, ?_⟩
    apply reservationKept_setRow (hinv.held s.cursor reservation hheld)
    · rw [hcreated', ← hcreated]
      exact hshms
    · intro hyes
      rw [hcreated'] at hyes
      cases hyes
    · intro _
      rfl
  · refine ⟨hreserved, ?_⟩
    rw [CoordHeader.setRow_slots_self]
    exact ⟨hcreated', copiedUpTo_step hcopied, honce⟩

theorem invariant_storeCreated (hinv : HandshakeInvariant s) {shms : ShmPair}
    (hpc : s.manager = .storing shms []) :
    HandshakeInvariant { s with
      header := s.header.setRow s.cursor
        { s.header.slots s.cursor with shmCreated := true }
      manager := .testingDetach } := by
  have hknows := hinv.manager
  rw [hpc] at hknows
  rcases hknows with ⟨hreserved, hcreated, hcopied, honce⟩
  apply invariant_of_visited hinv hreserved
  · intro reservation hheld
    refine ⟨hcreated, ?_⟩
    apply reservationKept_setRow (hinv.held s.cursor reservation hheld)
    · rfl
    · intro _
      have hshms : (s.header.slots s.cursor).shms = shms := shms_of_copied hcopied
      rw [hshms]
      exact honce reservation hheld
    · intro hno
      cases hno
  · trivial

theorem held_none_of_detach (hinv : HandshakeInvariant s) {slot : Slot}
    (hdetach : (s.header.slots slot).detach = true) : s.held slot = none := by
  cases hheld : s.held slot with
  | none => rfl
  | some reservation =>
      have hnot := (hinv.held slot reservation hheld).detach
      rw [hdetach] at hnot
      cases hnot

theorem invariant_startZeroing (hinv : HandshakeInvariant s)
    (hstoring : s.manager.isStoring = false)
    (hreserved : s.header.clientReserved s.cursor = true)
    (hdetach : (s.header.slots s.cursor).detach = true) :
    HandshakeInvariant { s with manager := .zeroing rowFields } := by
  apply invariant_of_service hinv hstoring
  exact ⟨hreserved, held_none_of_detach hinv hdetach, copiedUpTo_start _ _ _⟩

theorem invariant_zeroField (hinv : HandshakeInvariant s) {field : RowField}
    {todo : List RowField} (hpc : s.manager = .zeroing (field :: todo)) :
    HandshakeInvariant { s with
      header := s.header.setRow s.cursor
        (copyField field CoordRow.zero (s.header.slots s.cursor))
      manager := .zeroing todo } := by
  have hknows := hinv.manager
  rw [hpc] at hknows
  rcases hknows with ⟨hreserved, hnone, hcopied⟩
  apply invariant_of_visited hinv hreserved
  · intro reservation hheld
    rw [hnone] at hheld
    cases hheld
  · refine ⟨hreserved, hnone, ?_⟩
    rw [CoordHeader.setRow_slots_self]
    exact copiedUpTo_step hcopied

theorem invariant_serviceStep (hinv : HandshakeInvariant s) (allocated : ShmPair) :
    HandshakeInvariant (serviceStep s allocated) := by
  have hknows := hinv.manager
  unfold serviceStep
  cases hpc : s.manager with
  | choosing => exact invariant_of_service hinv (by rw [hpc]; rfl) trivial
  | identifying allocator =>
      exact invariant_of_service hinv (by rw [hpc]; rfl) trivial
  | testingReserved allocator =>
      dsimp only
      split
      · rename_i hreserved
        exact invariant_of_service hinv (by rw [hpc]; rfl) hreserved
      · exact invariant_of_service hinv (by rw [hpc]; rfl) trivial
  | testingCreated allocator =>
      rw [hpc] at hknows
      dsimp only
      split
      · exact invariant_of_service hinv (by rw [hpc]; rfl) trivial
      · rename_i hcreated
        exact invariant_of_service hinv (by rw [hpc]; rfl)
          ⟨hknows, Bool.eq_false_iff.mpr hcreated⟩
  | readingSize allocator =>
      rw [hpc] at hknows
      apply invariant_of_service hinv (by rw [hpc]; rfl)
      refine ⟨hknows.left, hknows.right, ?_⟩
      intro reservation hheld
      exact (hinv.held s.cursor reservation hheld).messageSize
  | readingId allocator messageSize =>
      rw [hpc] at hknows
      rcases hknows with ⟨hreserved, hcreated, hsize⟩
      apply invariant_of_service hinv (by rw [hpc]; rfl)
      refine ⟨hreserved, hcreated, ?_⟩
      intro reservation hheld
      exact ⟨hsize reservation hheld, (hinv.held s.cursor reservation hheld).clientId⟩
  | allocating allocator messageSize clientId =>
      exact invariant_allocate hinv hpc allocated
  | storing shms todo =>
      cases todo with
      | nil => exact invariant_storeCreated hinv hpc
      | cons field todo => exact invariant_storeField hinv hpc
  | testingDetach =>
      dsimp only
      split
      · rename_i hdetach
        apply invariant_of_service hinv (by rw [hpc]; rfl)
        refine ⟨?_, hdetach⟩
        cases hfree : s.header.clientReserved s.cursor with
        | true => rfl
        | false =>
            have hnot := (hinv.free s.cursor hfree).left
            rw [hdetach] at hnot
            cases hnot
      · exact invariant_of_service hinv (by rw [hpc]; rfl) trivial
  | testingServiced =>
      rw [hpc] at hknows
      dsimp only
      split
      · exact invariant_of_service hinv (by rw [hpc]; rfl) hknows
      · exact invariant_startZeroing hinv (by rw [hpc]; rfl) hknows.left hknows.right
  | removing =>
      rw [hpc] at hknows
      exact invariant_startZeroing hinv (by rw [hpc]; rfl) hknows.left hknows.right
  | zeroing todo =>
      cases todo with
      | nil => exact invariant_release hinv hpc
      | cons field todo => exact invariant_zeroField hinv hpc

end Manager

/-!
# All steps
-/

theorem invariant_of_client_keep {s : HandshakeState} {clientId : Int}
    {pc : RequestPc} (hinv : HandshakeInvariant s)
    (hold : forall i messageSize type todo,
      s.clients clientId ≠ .writing i messageSize type todo)
    (hself : RequestKnows s.header s.mutex s.held clientId pc) :
    HandshakeInvariant (s.setClient clientId pc) :=
  invariant_of_client hinv hold hself (fun _ _ hin => hin)

theorem invariant_requestMove {s s' : HandshakeState} {clientId : Int}
    (hinv : HandshakeInvariant s) (hmove : RequestMove s clientId s') :
    HandshakeInvariant s' := by
  have hknows := hinv.client clientId
  cases hmove with
  | lock hpc hmutex =>
      apply invariant_of_client hinv (not_writing hpc nofun)
      · rfl
      · intro c _ hin
        rw [hmutex] at hin
        cases hin
  | skip hpc =>
      rw [hpc] at hknows
      exact invariant_of_client_keep hinv (not_writing hpc nofun) hknows
  | choose hpc hfree =>
      rw [hpc] at hknows
      exact invariant_of_client_keep hinv (not_writing hpc nofun)
        ⟨hknows, hfree, copiedUpTo_start _ _ _⟩
  | giveUp hpc =>
      rw [hpc] at hknows
      exact invariant_of_client_keep hinv (not_writing hpc nofun) hknows
  | write hpc => exact invariant_writeField hinv hpc
  | reserve hpc => exact invariant_reserve hinv hpc
  | fail hpc =>
      rw [hpc] at hknows
      apply invariant_of_client hinv (not_writing hpc nofun)
      · trivial
      · intro c hne hin
        have hin' : s.mutex = some clientId := hknows
        rw [hin'] at hin
        exact absurd (Option.some.inj hin).symm hne
  | unlock hpc =>
      rw [hpc] at hknows
      apply invariant_of_client hinv (not_writing hpc nofun)
      · exact hknows.right
      · intro c hne hin
        rw [hknows.left] at hin
        exact absurd (Option.some.inj hin).symm hne
  | copy hpc =>
      rw [hpc] at hknows
      rcases hknows with ⟨hholds, hcreated, hcopied⟩
      exact invariant_of_client_keep hinv (not_writing hpc nofun)
        ⟨hholds, hcreated, copiedUpTo_step hcopied⟩
  | hold hpc =>
      rw [hpc] at hknows
      rcases hknows with ⟨hholds, hcreated, hcopied⟩
      exact invariant_of_client_keep hinv (not_writing hpc nofun)
        ⟨hholds, hcreated, (shms_of_copied hcopied).symm⟩

theorem invariant_closeStep {s : HandshakeState} {clientId : Int}
    (hinv : HandshakeInvariant s) (hne : clientId ≠ 0)
    (hold : forall i messageSize type todo,
      s.clients clientId ≠ .writing i messageSize type todo) :
    HandshakeInvariant (closeStep s clientId) := by
  unfold closeStep
  rcases clientClose_cases s.header clientId with
    ⟨slot, hmatch, hresult⟩ | ⟨hmatch, hresult⟩
  · rw [hmatch, hresult]
    exact invariant_close hinv hne hold hmatch
  · rw [hmatch]
    exact hinv

theorem invariant_next {s s' : HandshakeState} {l : HandshakeLabel}
    (hinv : HandshakeInvariant s) (hnext : handshakeNext s l = some s') :
    HandshakeInvariant s' := by
  cases handshakeMove_of_next hnext with
  | request hpc =>
      exact invariant_of_client_keep hinv (not_writing hpc nofun) trivial
  | client hmove => exact invariant_requestMove hinv hmove
  | @check clientId slot checked hpc hcreated =>
      have hknows := hinv.client clientId
      rw [hpc] at hknows
      have hholds : ReservedBy s.held clientId slot := by
        cases checked with
        | none => exact hknows
        | some shms => exact hknows.left
      exact invariant_of_client_keep hinv (not_writing hpc nofun)
        ⟨hholds, hcreated, copiedUpTo_start _ _ _⟩
  | recheck => exact hinv
  | close hne hpc => exact invariant_closeStep hinv hne hpc
  | manager => exact invariant_serviceStep hinv _

end Rpc
end Notnets
