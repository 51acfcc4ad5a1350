import Haiker.RouteEditing.Draft
import Haiker.RouteEditing.WellFormed

/-!
This module contains which drafts can be published, and with which errors the others are refused.
-/

open Rust

namespace RouteEditing

namespace PublicationValidationError

/--
The errors that are collected. The others end the validation.
-/
def Collected : PublicationValidationError → Prop
  | .notOwner | .draftNotActive | .revisionMismatch .. => False
  | .noSegments | .insufficientPointsInSegment .. | .invalidCoordinateInSegment .. | .noBaseVersion =>
    True

end PublicationValidationError

theorem flatMap_zipIdx_eq_nil_iff {α β : Type} {f : α × Nat → List β} {p : α → Prop}
    (h : ∀ a i, f (a, i) = [] ↔ p a) (as : List α) : as.zipIdx.flatMap f = [] ↔ ∀ a ∈ as, p a := by
  rw [List.flatMap_eq_nil_iff]
  constructor
  . intro hall a hmem
    obtain ⟨i, hi⟩ := List.getElem?_of_mem hmem
    rw [← h a i]
    apply hall
    rw [List.mk_mem_zipIdx_iff_getElem?]
    exact hi
  . rintro hall ⟨a, i⟩ hmem
    rw [h]
    apply hall
    exact List.fst_mem_of_mem_zipIdx hmem

theorem Coordinate.inRange_iff {c : Coordinate}
    : c.InRange ↔ c.latitude.inRange (-90) 90 = true ∧ c.longitude.inRange (-180) 180 = true := by
  rw [F64.inRange_iff, F64.inRange_iff]
  exact ⟨fun h => ⟨h.latitude, h.longitude⟩, fun h => ⟨h.1, h.2⟩⟩

theorem coordinateErrors_eq_nil_iff (point : RoutePoint) (segmentIndex pointIndex : Nat)
    : coordinateErrors segmentIndex pointIndex point = [] ↔ point.coordinate.InRange := by
  rw [Coordinate.inRange_iff]
  simp only [coordinateErrors, List.append_eq_nil_iff]
  cases point.coordinate.latitude.inRange (-90) 90 <;>
    cases point.coordinate.longitude.inRange (-180) 180 <;> simp

theorem segmentErrors_eq_nil_iff (segment : Segment) (segmentIndex : Nat)
    : segmentErrors segmentIndex segment = []
        ↔
      2 ≤ segment.length ∧ ∀ point ∈ segment, point.coordinate.InRange := by
  unfold segmentErrors
  rw [List.append_eq_nil_iff, flatMap_zipIdx_eq_nil_iff]
  . apply and_congr_left
    intro _
    rw [MIN_POINTS_PER_SEGMENT, ite_eq_right_iff]
    constructor
    . intro h
      by_contra hlt
      cases h (by omega)
    . intro h hlt
      omega
  . intro point pointIndex
    exact coordinateErrors_eq_nil_iff point segmentIndex pointIndex

-- the errors of a draft that is let through to the geometry
def collectedErrors (draft : RouteDraft) : List PublicationValidationError :=
  (if draft.geometry.isEmpty then
    [.noSegments]
  else
    draft.geometry.zipIdx.flatMap fun (segment, segmentIndex) => segmentErrors segmentIndex segment)
  ++ (if draft.baseRouteVersionId.isNone then [.noBaseVersion] else [])

theorem collectedErrors_eq_nil_iff (draft : RouteDraft)
    : collectedErrors draft = []
        ↔
      ValidGeometry draft.geometry ∧ draft.baseRouteVersionId ≠ none := by
  unfold collectedErrors
  rw [List.append_eq_nil_iff]
  apply and_congr
  . cases hgeometry : draft.geometry with
    | nil =>
      simp only [List.isEmpty_nil, if_true, List.cons_ne_nil, false_iff]
      intro h
      exact h.wellShaped.nonempty rfl
    | cons segment rest =>
      simp only [List.isEmpty_cons, Bool.false_eq_true, if_false]
      rw [flatMap_zipIdx_eq_nil_iff segmentErrors_eq_nil_iff]
      constructor
      . intro h
        exact ⟨⟨List.cons_ne_nil _ _, fun s hs => (h s hs).1⟩, fun s hs => (h s hs).2⟩
      . intro h s hs
        exact ⟨h.wellShaped.two_le s hs, h.inRange s hs⟩
  . cases draft.baseRouteVersionId <;> simp

theorem collected_of_mem_coordinateErrors {segmentIndex pointIndex : Nat} {point : RoutePoint}
    {e : PublicationValidationError} (h : e ∈ coordinateErrors segmentIndex pointIndex point)
    : e.Collected := by
  simp only [coordinateErrors, List.mem_append] at h
  cases h with
  | inl h | inr h =>
    split at h
    . rw [List.mem_singleton] at h
      rw [h]
      trivial
    . cases h

theorem collected_of_mem_segmentErrors {segmentIndex : Nat} {segment : Segment}
    {e : PublicationValidationError} (h : e ∈ segmentErrors segmentIndex segment) : e.Collected := by
  unfold segmentErrors at h
  rw [List.mem_append] at h
  cases h with
  | inl h =>
    split at h
    . rw [List.mem_singleton] at h
      rw [h]
      trivial
    . cases h
  | inr h =>
    rw [List.mem_flatMap] at h
    obtain ⟨_, _, he⟩ := h
    exact collected_of_mem_coordinateErrors he

theorem collected_of_mem {draft : RouteDraft} {e : PublicationValidationError}
    (h : e ∈ collectedErrors draft) : e.Collected := by
  unfold collectedErrors at h
  rw [List.mem_append] at h
  cases h with
  | inl h =>
    split at h
    . rw [List.mem_singleton] at h
      rw [h]
      trivial
    . rw [List.mem_flatMap] at h
      obtain ⟨_, _, he⟩ := h
      exact collected_of_mem_segmentErrors he
  | inr h =>
    split at h
    . rw [List.mem_singleton] at h
      rw [h]
      trivial
    . cases h

/--
Only an active draft of the owner, at the expected revision, comes to its geometry.
-/
theorem validateForPublication_eq (draft : RouteDraft) (expectedRevision : Nat)
    (owner : Identity.UserId)
    : validateForPublication draft expectedRevision owner
        = if draft.ownerId ≠ owner then
            .error [.notOwner]
          else if draft.state ≠ .active then
            .error [.draftNotActive]
          else if draft.revision ≠ expectedRevision then
            .error [.revisionMismatch expectedRevision draft.revision]
          else if collectedErrors draft = [] then
            .ok ()
          else
            .error (collectedErrors draft) := by
  unfold validateForPublication collectedErrors
  dsimp only
  generalize (_ ++ _ : List PublicationValidationError) = errors
  cases errors with
  | nil | cons => rfl

end RouteEditing
