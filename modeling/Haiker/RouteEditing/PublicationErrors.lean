import Haiker.RouteEditing.Lemmas.Validation

/-!
This module contains what the validation for a publication reports: one error for each problem of the draft, in
the order of the document.
-/

open Rust

namespace RouteEditing

/--
What can be wrong with a geometry or its base, and where.
-/
inductive Problem where
  | noSegments
  | short (segmentIndex : Nat) (segment : Segment)
  | latitude (segmentIndex pointIndex : Nat) (point : RoutePoint)
  | longitude (segmentIndex pointIndex : Nat) (point : RoutePoint)
  | noBaseVersion

namespace Problem

def error : Problem → PublicationValidationError
  | .noSegments => .noSegments
  | .short i segment => .insufficientPointsInSegment i 2 segment.length
  | .latitude i j point =>
    .invalidCoordinateInSegment i j
      s!"latitude must be between -90 and 90, got {point.coordinate.latitude.display}"
  | .longitude i j point =>
    .invalidCoordinateInSegment i j
      s!"longitude must be between -180 and 180, got {point.coordinate.longitude.display}"
  | .noBaseVersion => .noBaseVersion

-- neither NaN nor an infinity lies between two numbers
def Between (lo hi : ℚ) (x : F64) : Prop := ∃ q, x = .fin q ∧ lo ≤ q ∧ q ≤ hi

def Of (draft : RouteDraft) : Problem → Prop
  | .noSegments => draft.geometry = []
  | .short i segment => draft.geometry[i]? = some segment ∧ segment.length < 2
  | .latitude i j point =>
    (∃ segment, draft.geometry[i]? = some segment ∧ segment[j]? = some point)
      ∧ ¬Between (-90) 90 point.coordinate.latitude
  | .longitude i j point =>
    (∃ segment, draft.geometry[i]? = some segment ∧ segment[j]? = some point)
      ∧ ¬Between (-180) 180 point.coordinate.longitude
  | .noBaseVersion => draft.baseRouteVersionId = none

-- a segment comes before its points, and the base at the end
def place : Problem → List Nat
  | .noSegments => [0]
  | .short i _ => [0, i]
  | .latitude i j _ => [0, i, j, 0]
  | .longitude i j _ => [0, i, j, 1]
  | .noBaseVersion => [1]

def Before (p q : Problem) : Prop := p.place < q.place

end Problem

/--
What a draft has to be like to be published.
-/
structure Publishable (draft : RouteDraft) (expectedRevision : Nat) (owner : Identity.UserId) : Prop where
  owner : draft.ownerId = owner
  active : draft.state = .active
  revision : draft.revision = expectedRevision
  baseVersion : draft.baseRouteVersionId ≠ none
  segments : draft.geometry ≠ []
  points : ∀ segment ∈ draft.geometry, 2 ≤ segment.length
  coordinates : ∀ segment ∈ draft.geometry, ∀ point ∈ segment,
    Problem.Between (-90) 90 point.coordinate.latitude ∧ Problem.Between (-180) 180 point.coordinate.longitude

/--
The errors are the first precondition that fails, or else one for each problem, in the order of the document.
-/
def Reported (draft : RouteDraft) (expectedRevision : Nat) (owner : Identity.UserId)
    (errors : List PublicationValidationError) : Prop :=
  if draft.ownerId ≠ owner then
    errors = [.notOwner]
  else if draft.state ≠ .active then
    errors = [.draftNotActive]
  else if draft.revision ≠ expectedRevision then
    errors = [.revisionMismatch expectedRevision draft.revision]
  else
    ∃ problems : List Problem,
      errors = problems.map Problem.error ∧ problems.Pairwise Problem.Before ∧ ∀ p, p ∈ problems ↔ p.Of draft

/-
The problems as the loops come across them.
-/

def coordinateProblems (segmentIndex pointIndex : Nat) (point : RoutePoint) : List Problem :=
  (if !point.coordinate.latitude.inRange (-90) 90 then [.latitude segmentIndex pointIndex point] else [])
  ++ (if !point.coordinate.longitude.inRange (-180) 180 then [.longitude segmentIndex pointIndex point] else [])

def segmentProblems (segmentIndex : Nat) (segment : Segment) : List Problem :=
  (if segment.length < MIN_POINTS_PER_SEGMENT then [.short segmentIndex segment] else [])
  ++ segment.zipIdx.flatMap fun (point, pointIndex) => coordinateProblems segmentIndex pointIndex point

def geometryProblems (g : Geometry) : List Problem :=
  if g.isEmpty then
    [.noSegments]
  else
    g.zipIdx.flatMap fun (segment, segmentIndex) => segmentProblems segmentIndex segment

def baseProblems (draft : RouteDraft) : List Problem :=
  if draft.baseRouteVersionId.isNone then [.noBaseVersion] else []

def problems (draft : RouteDraft) : List Problem := geometryProblems draft.geometry ++ baseProblems draft

theorem map_error_coordinateProblems (i j : Nat) (point : RoutePoint)
    : (coordinateProblems i j point).map Problem.error = coordinateErrors i j point := by
  unfold coordinateProblems coordinateErrors
  rw [List.map_append]
  congr 1
  . split <;> rfl
  . split <;> rfl

theorem map_error_segmentProblems (i : Nat) (segment : Segment)
    : (segmentProblems i segment).map Problem.error = segmentErrors i segment := by
  unfold segmentProblems segmentErrors
  rw [List.map_append, List.map_flatMap]
  congr 1
  . split <;> rfl
  . apply List.flatMap_congr
    rintro ⟨point, j⟩ _
    exact map_error_coordinateProblems i j point

theorem map_error_problems (draft : RouteDraft) : (problems draft).map Problem.error = collectedErrors draft := by
  unfold problems geometryProblems baseProblems collectedErrors
  rw [List.map_append]
  congr 1
  . split
    . rfl
    . rw [List.map_flatMap]
      apply List.flatMap_congr
      rintro ⟨segment, i⟩ _
      exact map_error_segmentProblems i segment
  . split <;> rfl

/-
They are all the problems there are.
-/

theorem mem_coordinateProblems {p : Problem} {i j : Nat} {point : RoutePoint}
    : p ∈ coordinateProblems i j point
        ↔
      (p = .latitude i j point ∧ ¬Problem.Between (-90) 90 point.coordinate.latitude)
        ∨ (p = .longitude i j point ∧ ¬Problem.Between (-180) 180 point.coordinate.longitude) := by
  unfold coordinateProblems Problem.Between
  rw [← F64.inRange_iff, ← F64.inRange_iff, List.mem_append]
  cases point.coordinate.latitude.inRange (-90) 90 <;>
    cases point.coordinate.longitude.inRange (-180) 180 <;> simp

theorem mem_segmentProblems {p : Problem} {i : Nat} {segment : Segment}
    : p ∈ segmentProblems i segment
        ↔
      (p = .short i segment ∧ segment.length < 2)
        ∨ ∃ j point, segment[j]? = some point ∧ p ∈ coordinateProblems i j point := by
  unfold segmentProblems
  rw [List.mem_append, List.mem_flatMap]
  apply or_congr
  . unfold MIN_POINTS_PER_SEGMENT
    split
    . next h => simp [h]
    . next h => simp [h]
  . constructor
    . rintro ⟨⟨point, j⟩, hmem, hp⟩
      exact ⟨j, point, List.mk_mem_zipIdx_iff_getElem?.mp hmem, hp⟩
    . rintro ⟨j, point, hget, hp⟩
      exact ⟨(point, j), List.mk_mem_zipIdx_iff_getElem?.mpr hget, hp⟩

theorem mem_geometryProblems {p : Problem} {g : Geometry}
    : p ∈ geometryProblems g
        ↔
      (p = .noSegments ∧ g = []) ∨ ∃ i segment, g[i]? = some segment ∧ p ∈ segmentProblems i segment := by
  unfold geometryProblems
  cases g with
  | nil => simp
  | cons segment rest =>
    rw [if_neg (by simp), List.mem_flatMap]
    constructor
    . rintro ⟨⟨segment', i⟩, hmem, hp⟩
      exact .inr ⟨i, segment', List.mk_mem_zipIdx_iff_getElem?.mp hmem, hp⟩
    . rintro (⟨_, hnil⟩ | ⟨i, segment', hget, hp⟩)
      . cases hnil
      . exact ⟨(segment', i), List.mk_mem_zipIdx_iff_getElem?.mpr hget, hp⟩

theorem mem_problems {p : Problem} {draft : RouteDraft} : p ∈ problems draft ↔ p.Of draft := by
  have hbase : p ∈ baseProblems draft ↔ p = .noBaseVersion ∧ draft.baseRouteVersionId = none := by
    unfold baseProblems
    cases draft.baseRouteVersionId <;> simp
  unfold problems
  rw [List.mem_append, mem_geometryProblems, hbase]
  simp only [mem_segmentProblems, mem_coordinateProblems]
  cases p with
  | noSegments => simp [Problem.Of]
  | noBaseVersion => simp [Problem.Of]
  | short i segment =>
    simp only [Problem.Of, Problem.short.injEq, reduceCtorEq, false_and, or_false, and_false, exists_false,
      false_or]
    constructor
    . rintro ⟨_, _, hget, ⟨rfl, rfl⟩, hlt⟩
      exact ⟨hget, hlt⟩
    . rintro ⟨hget, hlt⟩
      exact ⟨i, segment, hget, ⟨rfl, rfl⟩, hlt⟩
  | latitude i j point =>
    simp only [Problem.Of, Problem.latitude.injEq, reduceCtorEq, false_and, or_false, false_or]
    constructor
    . rintro ⟨_, segment, hget, _, _, hget', ⟨rfl, rfl, rfl⟩, hout⟩
      exact ⟨⟨segment, hget, hget'⟩, hout⟩
    . rintro ⟨⟨segment, hget, hget'⟩, hout⟩
      exact ⟨i, segment, hget, j, point, hget', ⟨rfl, rfl, rfl⟩, hout⟩
  | longitude i j point =>
    simp only [Problem.Of, Problem.longitude.injEq, reduceCtorEq, false_and, or_false, false_or]
    constructor
    . rintro ⟨_, segment, hget, _, _, hget', ⟨rfl, rfl, rfl⟩, hout⟩
      exact ⟨⟨segment, hget, hget'⟩, hout⟩
    . rintro ⟨⟨segment, hget, hget'⟩, hout⟩
      exact ⟨i, segment, hget, j, point, hget', ⟨rfl, rfl, rfl⟩, hout⟩

/-
They come in the order of the document.
-/

theorem pairwise_flatMap_zipIdx {α : Type} {f : α × Nat → List Problem} (as : List α)
    (hinner : ∀ a, (f a).Pairwise Problem.Before)
    (houter : ∀ a b, a.2 < b.2 → ∀ p ∈ f a, ∀ q ∈ f b, p.Before q)
    : (as.zipIdx.flatMap f).Pairwise Problem.Before := by
  rw [List.pairwise_flatMap]
  refine ⟨fun a _ => hinner a, ?_⟩
  have hindices : (as.zipIdx.map Prod.snd).Pairwise (· < ·) := by
    rw [List.zipIdx_map_snd]
    exact List.pairwise_lt_range'
  rw [List.pairwise_map] at hindices
  exact hindices.imp (houter _ _)

theorem place_of_coordinateProblems {p : Problem} {i j : Nat} {point : RoutePoint}
    (h : p ∈ coordinateProblems i j point) : ∃ axis, p.place = [0, i, j, axis] := by
  obtain ⟨rfl, _⟩ | ⟨rfl, _⟩ := mem_coordinateProblems.mp h
  . exact ⟨0, rfl⟩
  . exact ⟨1, rfl⟩

theorem place_of_segmentProblems {p : Problem} {i : Nat} {segment : Segment} (h : p ∈ segmentProblems i segment)
    : ∃ rest, p.place = 0 :: i :: rest := by
  obtain ⟨rfl, _⟩ | ⟨j, point, _, hp⟩ := mem_segmentProblems.mp h
  . exact ⟨[], rfl⟩
  . obtain ⟨axis, hplace⟩ := place_of_coordinateProblems hp
    exact ⟨[j, axis], hplace⟩

theorem pairwise_coordinateProblems (i j : Nat) (point : RoutePoint)
    : (coordinateProblems i j point).Pairwise Problem.Before := by
  unfold coordinateProblems
  cases point.coordinate.latitude.inRange (-90) 90 <;>
    cases point.coordinate.longitude.inRange (-180) 180 <;>
      simp [Problem.Before, Problem.place, List.cons_lt_cons_iff]

theorem pairwise_segmentProblems (i : Nat) (segment : Segment)
    : (segmentProblems i segment).Pairwise Problem.Before := by
  unfold segmentProblems
  rw [List.pairwise_append]
  refine ⟨?_, ?_, ?_⟩
  . split
    . exact List.pairwise_singleton _ _
    . exact .nil
  . apply pairwise_flatMap_zipIdx
    . rintro ⟨point, j⟩
      exact pairwise_coordinateProblems i j point
    . intro a b hlt p hp q hq
      obtain ⟨_, hplace⟩ := place_of_coordinateProblems hp
      obtain ⟨_, hplace'⟩ := place_of_coordinateProblems hq
      unfold Problem.Before
      rw [hplace, hplace']
      simp [List.cons_lt_cons_iff, hlt]
  . intro p hp q hq
    split at hp
    . rw [List.mem_singleton] at hp
      obtain ⟨_, _, hq'⟩ := List.mem_flatMap.mp hq
      obtain ⟨_, hplace⟩ := place_of_coordinateProblems hq'
      unfold Problem.Before
      rw [hp, hplace]
      simp [Problem.place]
    . cases hp

theorem place_of_geometryProblems {p : Problem} {g : Geometry} (h : p ∈ geometryProblems g)
    : ∃ rest, p.place = 0 :: rest := by
  obtain ⟨rfl, _⟩ | ⟨i, _, _, hp⟩ := mem_geometryProblems.mp h
  . exact ⟨[], rfl⟩
  . obtain ⟨rest, hplace⟩ := place_of_segmentProblems hp
    exact ⟨i :: rest, hplace⟩

theorem pairwise_geometryProblems (g : Geometry) : (geometryProblems g).Pairwise Problem.Before := by
  unfold geometryProblems
  split
  . exact List.pairwise_singleton _ _
  . apply pairwise_flatMap_zipIdx
    . rintro ⟨segment, i⟩
      exact pairwise_segmentProblems i segment
    . intro a b hlt p hp q hq
      obtain ⟨_, hplace⟩ := place_of_segmentProblems hp
      obtain ⟨_, hplace'⟩ := place_of_segmentProblems hq
      unfold Problem.Before
      rw [hplace, hplace']
      simp [List.cons_lt_cons_iff, hlt]

theorem pairwise_problems (draft : RouteDraft) : (problems draft).Pairwise Problem.Before := by
  unfold problems
  rw [List.pairwise_append]
  refine ⟨pairwise_geometryProblems _, ?_, ?_⟩
  . unfold baseProblems
    split
    . exact List.pairwise_singleton _ _
    . exact .nil
  . intro p hp q hq
    obtain ⟨_, hplace⟩ := place_of_geometryProblems hp
    unfold baseProblems at hq
    split at hq
    . rw [List.mem_singleton] at hq
      unfold Problem.Before
      rw [hplace, hq]
      exact List.cons_lt_cons_iff.mpr (.inl Nat.zero_lt_one)
    . cases hq

theorem publishable_iff {draft : RouteDraft} {expectedRevision : Nat} {owner : Identity.UserId}
    : Publishable draft expectedRevision owner
        ↔
      draft.ownerId = owner ∧ draft.state = .active ∧ draft.revision = expectedRevision
        ∧ collectedErrors draft = [] := by
  rw [collectedErrors_eq_nil_iff]
  constructor
  . intro h
    refine ⟨h.owner, h.active, h.revision, ⟨⟨h.segments, h.points⟩, fun segment hs point hp => ?_⟩, h.baseVersion⟩
    exact ⟨(h.coordinates segment hs point hp).1, (h.coordinates segment hs point hp).2⟩
  . rintro ⟨howner, hactive, hrevision, hvalid, hbase⟩
    exact {
      owner := howner
      active := hactive
      revision := hrevision
      baseVersion := hbase
      segments := hvalid.wellShaped.nonempty
      points := hvalid.wellShaped.two_le
      coordinates := fun segment hs point hp =>
        ⟨(hvalid.inRange segment hs point hp).latitude, (hvalid.inRange segment hs point hp).longitude⟩
    }

end RouteEditing
