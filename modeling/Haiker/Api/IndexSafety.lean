import Haiker.Api.RouteEditingDto
import Haiker.RouteEditing.Lemmas.Panics
import Haiker.RouteEditing.WellFormed

/-!
This module contains that the indices of a request do no harm: whatever they are, the operation ends
with a result or an error, unless two segments are to be joined and the first index has no successor.
-/

open Rust
open RouteEditing

namespace Api

def OperationDto.indices : OperationDto → List Nat
  | .movePoint segmentIndex pointIndex _ => [segmentIndex, pointIndex]
  | .addPoint segmentIndex afterPointIndex _ => [segmentIndex, afterPointIndex]
  | .deletePoint segmentIndex pointIndex => [segmentIndex, pointIndex]
  | .deleteSection segmentIndex startIndex endIndex => [segmentIndex, startIndex, endIndex]
  | .replaceSection segmentIndex startIndex endIndex _ => [segmentIndex, startIndex, endIndex]
  | .splitSegment segmentIndex atPointIndex => [segmentIndex, atPointIndex]
  | .joinSegments firstSegmentIndex secondSegmentIndex => [firstSegmentIndex, secondSegmentIndex]

-- the indices are what `usize` can hold
def OperationDto.Parsed (dto : OperationDto) : Prop := ∀ index ∈ dto.indices, index < usizeSize

instance (dto : OperationDto) : Decidable dto.Parsed := List.decidableBAll ..

theorem joinSegments_of_toDomain {dto : OperationDto} {first second : SegmentIndex}
    (h : dto.toDomain = .ok (.joinSegments first second)) : dto = .joinSegments first.value second.value := by
  unfold OperationDto.toDomain at h
  cases dto with
  | movePoint | addPoint | replaceSection =>
    simp only at h
    split at h
    . cases h
    . cases h
  | deletePoint | deleteSection | splitSegment => cases h
  | joinSegments firstSegmentIndex secondSegmentIndex =>
    cases h
    rfl

/--
What is executed of a request panics on no geometry, with one exception.
-/
theorem panics_iff_no_successor {draft : RouteDraft} (hfits : FitsVec draft.geometry) {dto : OperationDto}
    (hparsed : dto.Parsed) {operation : RouteOperation} (hdomain : dto.toDomain = .ok operation)
    : outcome (executeOperation operation) draft.geometry ≠ .error .panic
        ↔ ∀ second, dto ≠ .joinSegments (usizeSize - 1) second := by
  constructor
  . rintro h second rfl
    obtain rfl := Except.ok.inj hdomain
    apply h
    exact joinSegments_panic (by decide) _
  . intro h
    apply PanicFree.outcome_ne
    apply executeOperation_panicFree hfits
    rintro first second rfl
    obtain rfl := joinSegments_of_toDomain hdomain
    have hfirst : first.value < usizeSize := hparsed _ List.mem_cons_self
    have hne : first.value ≠ usizeSize - 1 := by
      intro heq
      apply h second.value
      rw [heq]
    omega

theorem panics_iff_no_successor_sampleDraft
    : outcome (executeOperation (.deleteSection ⟨0⟩ ⟨0⟩ ⟨usizeSize - 1⟩)) RouteDraft.sampleDraft.geometry
        ≠ .error .panic := by
  have hfits : FitsVec RouteDraft.sampleDraft.geometry := ⟨by decide, by decide⟩
  have hparsed : (OperationDto.deleteSection 0 0 (usizeSize - 1)).Parsed := by decide
  apply (panics_iff_no_successor hfits hparsed rfl).mpr
  intro second h
  cases h

theorem join_after_last_index_panics
    : ¬∀ draft : RouteDraft, draft.WellFormed → ∀ (dto : OperationDto) operation, dto.Parsed →
        dto.toDomain = .ok operation →
          outcome (executeOperation operation) draft.geometry ≠ .error .panic := by
  intro h
  exact h RouteDraft.sampleDraft RouteDraft.wellFormed_sampleDraft (.joinSegments (usizeSize - 1) 0) _
    (by decide) rfl (joinSegments_panic (by decide) _)

end Api
