import Notnets.Coord.Table

/-!
# Rows written field by field

A row is shared memory: assigning it, or zeroing it with `memset`, is one write
after the other.  A copy in progress is described by the list of the fields that
are still to be written.
-/

namespace Notnets
namespace Coord

attribute [ext] NotnetsShmInfo ShmPair CoordRow

inductive RowField where
  | clientId
  | messageSize
  | type
  | shmCreated
  | clientAttached
  | serverAttached
  | requestKey
  | requestShmid
  | responseKey
  | responseShmid
  | offset
  | detach
deriving DecidableEq, Repr

/-- The order in which `memset` zeroes a row. -/
def rowFields : List RowField :=
  [.clientId, .messageSize, .type, .shmCreated, .clientAttached,
    .serverAttached, .requestKey, .requestShmid, .responseKey, .responseShmid,
    .offset, .detach]

/-- The order in which `request_slot` writes a row. -/
def requestFields : List RowField :=
  [.clientId, .messageSize, .detach, .type, .clientAttached, .serverAttached,
    .shmCreated]

def shmFields : List RowField :=
  [.requestKey, .requestShmid, .responseKey, .responseShmid, .offset]

def copyField (field : RowField) (source row : CoordRow) : CoordRow :=
  match field with
  | .clientId => { row with clientId := source.clientId }
  | .messageSize => { row with messageSize := source.messageSize }
  | .type => { row with type := source.type }
  | .shmCreated => { row with shmCreated := source.shmCreated }
  | .clientAttached => { row with clientAttached := source.clientAttached }
  | .serverAttached => { row with serverAttached := source.serverAttached }
  | .requestKey =>
      { row with shms := { row.shms with requestShm :=
        { row.shms.requestShm with key := source.shms.requestShm.key } } }
  | .requestShmid =>
      { row with shms := { row.shms with requestShm :=
        { row.shms.requestShm with shmid := source.shms.requestShm.shmid } } }
  | .responseKey =>
      { row with shms := { row.shms with responseShm :=
        { row.shms.responseShm with key := source.shms.responseShm.key } } }
  | .responseShmid =>
      { row with shms := { row.shms with responseShm :=
        { row.shms.responseShm with shmid := source.shms.responseShm.shmid } } }
  | .offset => { row with shms := { row.shms with offset := source.shms.offset } }
  | .detach => { row with detach := source.detach }

def SameField (a b : CoordRow) : RowField -> Prop
  | .clientId => a.clientId = b.clientId
  | .messageSize => a.messageSize = b.messageSize
  | .type => a.type = b.type
  | .shmCreated => a.shmCreated = b.shmCreated
  | .clientAttached => a.clientAttached = b.clientAttached
  | .serverAttached => a.serverAttached = b.serverAttached
  | .requestKey => a.shms.requestShm.key = b.shms.requestShm.key
  | .requestShmid => a.shms.requestShm.shmid = b.shms.requestShm.shmid
  | .responseKey => a.shms.responseShm.key = b.shms.responseShm.key
  | .responseShmid => a.shms.responseShm.shmid = b.shms.responseShm.shmid
  | .offset => a.shms.offset = b.shms.offset
  | .detach => a.detach = b.detach

theorem sameField_copyField (field : RowField) (source row : CoordRow) :
    SameField (copyField field source row) source field := by
  cases field <;> rfl

theorem sameField_copyField_of_ne {field other : RowField} (hne : other ≠ field)
    (source row : CoordRow) :
    SameField (copyField field source row) row other := by
  cases field <;> cases other <;> first | rfl | exact absurd rfl hne

theorem SameField.trans {a b c : CoordRow} {field : RowField}
    (hab : SameField a b field) (hbc : SameField b c field) :
    SameField a c field := by
  cases field <;> exact Eq.trans hab hbc

theorem copyField_shms {field : RowField} (hfield : field ∈ shmFields)
    (source row : CoordRow) :
    copyField field source row =
      { row with shms := (copyField field source row).shms } := by
  cases field <;> first | rfl | exact absurd hfield (by decide)

/-!
# Copies in progress
-/

/-- Copying the fields of `order` from `source` has come to the fields `todo`. -/
def CopiedUpTo (order todo : List RowField) (row source : CoordRow) : Prop :=
  exists done, done ++ todo = order ∧
    forall field, field ∈ done -> SameField row source field

theorem copiedUpTo_start (order : List RowField) (row source : CoordRow) :
    CopiedUpTo order order row source :=
  ⟨[], rfl, nofun⟩

theorem copiedUpTo_mem {order todo : List RowField} {field : RowField}
    {row source : CoordRow} (h : CopiedUpTo order (field :: todo) row source) :
    field ∈ order := by
  rcases h with ⟨done, horder, _⟩
  rw [← horder]
  simp

theorem copiedUpTo_step {order todo : List RowField} {field : RowField}
    {row source : CoordRow} (h : CopiedUpTo order (field :: todo) row source) :
    CopiedUpTo order todo (copyField field source row) source := by
  rcases h with ⟨done, horder, hdone⟩
  refine ⟨done ++ [field], by simpa using horder, ?_⟩
  intro other hother
  by_cases hsame : other = field
  · subst hsame
    exact sameField_copyField other source row
  · have hold : other ∈ done := by simpa [hsame] using hother
    exact (sameField_copyField_of_ne hsame source row).trans (hdone other hold)

theorem copiedUpTo_end {order : List RowField} {row source : CoordRow}
    (h : CopiedUpTo order [] row source) (field : RowField)
    (hfield : field ∈ order) : SameField row source field := by
  rcases h with ⟨done, horder, hdone⟩
  rw [List.append_nil] at horder
  subst horder
  exact hdone field hfield

/-- A copy in progress only depends on the fields it copies. -/
theorem copiedUpTo_of_same {order todo : List RowField} {row row' source : CoordRow}
    (h : CopiedUpTo order todo row source)
    (hsame : forall field, field ∈ order -> SameField row' row field) :
    CopiedUpTo order todo row' source := by
  rcases h with ⟨done, horder, hdone⟩
  refine ⟨done, horder, ?_⟩
  intro field hfield
  have hmem : field ∈ order := by
    rw [← horder]
    exact List.mem_append_left todo hfield
  exact (hsame field hmem).trans (hdone field hfield)

theorem shms_of_same {row source : CoordRow}
    (h : forall field, field ∈ shmFields -> SameField row source field) :
    row.shms = source.shms := by
  have hrequest : row.shms.requestShm = source.shms.requestShm :=
    NotnetsShmInfo.ext (h .requestKey (by decide)) (h .requestShmid (by decide))
  have hresponse : row.shms.responseShm = source.shms.responseShm :=
    NotnetsShmInfo.ext (h .responseKey (by decide)) (h .responseShmid (by decide))
  exact ShmPair.ext hrequest hresponse (h .offset (by decide))

theorem shms_of_copied {row source : CoordRow}
    (h : CopiedUpTo shmFields [] row source) : row.shms = source.shms :=
  shms_of_same (copiedUpTo_end h)

theorem row_of_copied {row source : CoordRow}
    (h : CopiedUpTo rowFields [] row source) : row = source := by
  have hall : forall field, SameField row source field := by
    intro field
    apply copiedUpTo_end h field
    cases field <;> decide
  exact CoordRow.ext (hall .clientId) (hall .messageSize) (hall .type)
    (hall .shmCreated) (hall .clientAttached) (hall .serverAttached)
    (shms_of_same fun field _ => hall field) (hall .detach)

def copyFields (source row : CoordRow) (fields : List RowField) : CoordRow :=
  fields.foldl (fun row field => copyField field source row) row

theorem copiedUpTo_copyFields {order todo : List RowField} {row source : CoordRow}
    (h : CopiedUpTo order todo row source) :
    CopiedUpTo order [] (copyFields source row todo) source := by
  induction todo generalizing row with
  | nil => exact h
  | cons field todo ih => exact ih (copiedUpTo_step h)

theorem copyFields_row (source row : CoordRow) :
    copyFields source row rowFields = source :=
  row_of_copied (copiedUpTo_copyFields (copiedUpTo_start rowFields row source))

theorem copyFields_shms (source row : CoordRow) :
    copyFields source row shmFields = { row with shms := source.shms } := by
  simp [copyFields, shmFields, copyField]

theorem copyFields_request (row : CoordRow) (clientId messageSize : Int)
    (type : QueueType) :
    copyFields (requestRow CoordRow.zero clientId messageSize type) row requestFields =
      requestRow row clientId messageSize type := by
  simp [copyFields, requestFields, copyField, requestRow]

end Coord
end Notnets
