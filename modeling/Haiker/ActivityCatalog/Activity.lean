import Haiker.ActivityCatalog.Activities
import Haiker.RouteVersioning.RouteVersion
import Haiker.Rust.Str

/-!
This module contains the activity aggregate and how its repository reads and writes it.
-/

open Rust

namespace ActivityCatalog

inductive ActivityCatalogError where
  | activityNotFound
  | invalidTitle (message : String)
  | unauthorized
  | versionNotBelongsToActivity
  | persistenceError (message : String)
  | invalidCursor (message : String)
  deriving DecidableEq

def MAX_TITLE_LENGTH : Nat := 500

structure ActivityTitle where
  text : String
  bounded : text.utf8ByteSize ≤ MAX_TITLE_LENGTH

namespace ActivityTitle

-- the length is in bytes, and the cut may be inside of a character
def truncate (trimmed : String) : Except (Fault ActivityCatalogError) ActivityTitle :=
  if h : trimmed.utf8ByteSize ≤ MAX_TITLE_LENGTH then
    .ok ⟨trimmed, h⟩
  else
    match h : sliceBytes trimmed MAX_TITLE_LENGTH with
    | some text => .ok ⟨text, (utf8ByteSize_of_sliceBytes h).le⟩
    | none => .error .panic

def new (value : String) : Except (Fault ActivityCatalogError) ActivityTitle :=
  if trim value = "" then
    .error (.err (.invalidTitle "title must not be empty"))
  else
    truncate (trim value)

def untitled : ActivityTitle := ⟨"Untitled", by decide⟩

end ActivityTitle

inductive LifecycleState where
  | active
  | deleted
  deriving DecidableEq

def LifecycleState.display : LifecycleState → String
  | .active => "active"
  | .deleted => "deleted"

structure Activity where
  id : ActivityId
  ownerId : Identity.UserId
  title : ActivityTitle
  activityType : ActivityType
  lifecycleState : LifecycleState
  startedAt : Option Timestamp
  endedAt : Option Timestamp
  recordedSummary : Option Json
  correctedSummary : Option Json
  currentRouteVersionId : Option RouteVersioning.RouteVersionId
  createdAt : Timestamp
  updatedAt : Timestamp

namespace Activity

variable (now : Timestamp) (activity : Activity)

def updateTitle (title : ActivityTitle) : Activity := { activity with title, updatedAt := now }

def delete : Activity := { activity with lifecycleState := .deleted, updatedAt := now }

def selectCurrentRouteVersion (versionId : RouteVersioning.RouteVersionId) (correctedSummary : Json)
    : Activity := { activity with
  currentRouteVersionId := some versionId
  correctedSummary := some correctedSummary
  updatedAt := now
}

end Activity

namespace PgActivityRepository

def parseActivityType : String → ActivityType
  | "hike" => .hike
  | "walk" => .walk
  | "run" => .run
  | _ => .other

def parseLifecycleState : String → LifecycleState
  | "active" => .active
  | "deleted" => .deleted
  | _ => .active

-- a title that is not valid is replaced
def readTitle (title : String) : Except (Fault ActivityCatalogError) ActivityTitle :=
  match ActivityTitle.new title with
  | .error (.err _) => .ok .untitled
  | result => result

def rowToActivity (row : ActivityRow) : Except (Fault ActivityCatalogError) Activity := do
  return {
    id := ⟨row.id⟩
    ownerId := ⟨row.ownerId⟩
    title := ← readTitle row.title
    activityType := parseActivityType row.activityType
    lifecycleState := parseLifecycleState row.lifecycleState
    startedAt := row.startedAt
    endedAt := row.endedAt
    recordedSummary := row.recordedSummaryJson
    correctedSummary := row.correctedSummaryJson
    currentRouteVersionId := row.currentRouteVersionId.map fun val => { val }
    createdAt := row.createdAt
    updatedAt := row.updatedAt
  }

def findById (id : ActivityId) (activities : ActivityTable)
    : Except (Fault ActivityCatalogError) (Option Activity) :=
  match activities.find? id.val with
  | some row => (rowToActivity row).map some
  | none => .ok none

-- every column but the id, the owner and the time of creation
def setActivity (activity : Activity) (row : ActivityRow) : ActivityRow := { row with
  title := activity.title.text
  activityType := activity.activityType.display
  lifecycleState := activity.lifecycleState.display
  startedAt := activity.startedAt.map Timestamp.toTimestamptz
  endedAt := activity.endedAt.map Timestamp.toTimestamptz
  recordedSummaryJson := activity.recordedSummary
  correctedSummaryJson := activity.correctedSummary
  currentRouteVersionId := activity.currentRouteVersionId.map (·.val)
  updatedAt := activity.updatedAt.toTimestamptz
}

theorem id_setActivity (activity : Activity) (row : ActivityRow) : (setActivity activity row).id = row.id :=
  rfl

def update (activity : Activity) (activities : ActivityTable) : ActivityTable :=
  activities.updateWhere (fun row => row.id = activity.id.val) (setActivity activity)
    (id_setActivity activity)

end PgActivityRepository

-- 501 bytes, of which the last two are one character
def longTitle : String := String.ofList ('a' :: List.replicate 250 'é')

theorem sliceBytes_longTitle : sliceBytes longTitle MAX_TITLE_LENGTH = none := by
  have hlast : ['é'].utf8Encode = ⟨#[0xC3]⟩ ++ ⟨#[0xA9]⟩ := by decide
  apply sliceBytes_inside ('a' :: List.replicate 249 'é') ⟨#[0xC3]⟩ ⟨#[0xA9]⟩
  . rw [ByteArray.append_assoc, ← hlast, ← List.utf8Encode_append, List.cons_append, ← List.replicate_succ']
    exact String.toByteArray_ofList
  . rw [ByteArray.size_append, List.utf8Encode_cons, ByteArray.size_append, size_utf8Encode_replicate]
    decide
  . decide

theorem readTitle_of_cut {title : String} (htrim : trim title = title)
    (hsize : ¬title.utf8ByteSize ≤ MAX_TITLE_LENGTH) (hslice : sliceBytes title MAX_TITLE_LENGTH = none)
    : PgActivityRepository.readTitle title = .error .panic := by
  have hnonempty : title ≠ "" := by
    rintro rfl
    exact hsize (by decide)
  have htruncate : ActivityTitle.truncate title = .error .panic := by
    unfold ActivityTitle.truncate
    rw [dif_neg hsize]
    split
    . next h =>
      rw [hslice] at h
      cases h
    . rfl
  unfold PgActivityRepository.readTitle ActivityTitle.new
  rw [htrim, if_neg hnonempty, htruncate]

theorem trim_longTitle : trim longTitle = longTitle := by
  unfold trim longTitle
  rw [String.toList_ofList, trimChars_eq_self]
  intro c hc
  cases List.mem_cons.mp hc with
  | inl hc => rw [hc]; decide
  | inr hc => rw [List.eq_of_mem_replicate hc]; decide

theorem utf8ByteSize_longTitle : longTitle.utf8ByteSize = 501 := by
  unfold longTitle String.utf8ByteSize
  rw [String.toByteArray_ofList, List.utf8Encode_cons, ByteArray.size_append, size_utf8Encode_replicate]
  decide

theorem readTitle_longTitle : PgActivityRepository.readTitle longTitle = .error .panic := by
  have hsize : ¬longTitle.utf8ByteSize ≤ MAX_TITLE_LENGTH := by
    rw [utf8ByteSize_longTitle]
    decide
  exact readTitle_of_cut trim_longTitle hsize sliceBytes_longTitle

end ActivityCatalog
