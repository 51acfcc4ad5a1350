import Haiker.Imports.Duplicates
import Haiker.Imports.Lemmas.Downloads
import Haiker.RecordedActivity.Lemmas.Normalization

/-!
This module contains when the first route version of an import matches the recorded track: when the preview
keeps all the points and no way leads across a gap.
-/

open Rust
open RecordedActivity

namespace RouteVersioning

-- the windows of fewer than two coordinates are none
def computeTotalDistance (distance : Coordinate → Coordinate → F64) (coords : List Coordinate) : F64 :=
  if coords.length < 2 then
    .fin 0
  else
    (adjacent coords).foldl (fun total (a, b) => total.add (distance a b)) (.fin 0)

theorem computeTotalDistance_eq (distance : Coordinate → Coordinate → F64) (coords : List Coordinate)
    : computeTotalDistance distance coords = (distances distance coords).foldl F64.add (.fin 0) := by
  unfold computeTotalDistance distances
  rw [List.foldl_map]
  match coords with
  | [] => rfl
  | [_] => rfl
  | _ :: _ :: _ => simp

end RouteVersioning

namespace Imports

open RouteVersioning (computeTotalDistance computeTotalDistance_eq)

/--
The externals with the normalization and the distances that there are. Both go by one distance between
points.
-/
def Externals.withNormalization (externals : Externals) (normalization : NormalizationExternals) : Externals :=
  { externals with
    normalizeGpx := RecordedActivity.normalizeGpx normalization
    totalDistance := fun coords =>
      computeTotalDistance normalization.distance (coords.map fun (latitude, longitude) => { latitude, longitude })
  }

/--
The version that is committed matches the track that is committed with it.
-/
structure Unedited (data : ImportCommitData) : Prop where
  coordinates : data.previewGeometry = (recordedCoordinates data.segments).flatten
  pointCount : data.correctedStatistics.pointCount = data.statistics.pointCount
  distanceMeters : data.correctedStatistics.distanceMeters = data.statistics.distanceMeters

-- the segments of a file that are long enough to be recorded
def recordedSegments (parseResult : GpxParseResult) : List (List Coordinate) :=
  kept (parseResult.tracks.flatMap (·.segments))

/--
There are no more points than the preview keeps, and every segment starts where the one before it ends.
-/
structure Seamless (distance : Coordinate → Coordinate → F64) (coords : List (List Coordinate)) : Prop where
  points : coords.flatten.length ≤ MAX_PREVIEW_POINTS
  gaps : ∀ d ∈ gaps distance coords, d = .fin 0

/--
Neither of the two sums of the distances is rounded, and no gap has a negative length.
-/
structure Unrounded (distance : Coordinate → Coordinate → F64) (coords : List (List Coordinate)) : Prop where
  flat : F64.Exact 0 (distances distance coords.flatten)
  segments : F64.Exact 0 (coords.flatMap (distances distance))
  gaps : ∀ d ∈ gaps distance coords, 0 ≤ d.value

theorem nonempty_of_mem_recordedSegments {parseResult : GpxParseResult} {coords : List Coordinate}
    (h : coords ∈ recordedSegments parseResult) : coords ≠ [] := by
  obtain ⟨segment, hsegment, rfl⟩ := List.mem_map.mp h
  have hlength : 2 ≤ segment.points.length := by simpa using (List.mem_filter.mp hsegment).2
  intro hnil
  have := congrArg List.length hnil
  rw [List.length_map, List.length_nil] at this
  omega

section Commit

variable {externals : Externals} {normalization : NormalizationExternals} {key : String} {fileBytes : Bytes}
  {data : ImportCommitData}

/--
What is committed of a file with these segments.
-/
structure Commits (distance : Coordinate → Coordinate → F64) (coords : List (List Coordinate))
    (data : ImportCommitData) : Prop where
  segments : recordedCoordinates data.segments = coords
  pointCount : data.statistics.pointCount = coords.flatten.length
  distanceMeters : data.statistics.distanceMeters = (coords.flatMap (distances distance)).foldl F64.add (.fin 0)
  previewGeometry : data.previewGeometry = simplifyPreview coords.flatten MAX_PREVIEW_POINTS
  correctedPointCount : data.correctedStatistics.pointCount = data.previewGeometry.length % UInt32.size
  correctedDistance : data.correctedStatistics.distanceMeters
    = (distances distance data.previewGeometry).foldl F64.add (.fin 0)

theorem commits_of_madeOfFile (h : MadeOfFile (externals.withNormalization normalization) key fileBytes data)
    : ∃ parseResult, externals.parseGpx fileBytes = .ok parseResult
        ∧ Commits normalization.distance (recordedSegments parseResult) data := by
  obtain ⟨parseResult, normalized, hparse, hnormalize, hsegments, hstatistics, hpreview, hcorrected⟩ :=
    h.normalized
  have hnormalized := normalized_of_normalizeGpx hnormalize
  refine ⟨parseResult, hparse, ?_⟩
  constructor
  . rw [hsegments]
    exact hnormalized.segments
  . rw [hstatistics]
    exact hnormalized.pointCount
  . rw [hstatistics]
    exact hnormalized.distanceMeters
  . rw [hpreview]
    exact hnormalized.previewGeometry
  . rw [hcorrected, hpreview]
    rfl
  . have hcoordinates : (normalized.previewGeometry.map fun c => (c.latitude, c.longitude)).map
        (fun (latitude, longitude) => ({ latitude, longitude } : Coordinate)) = normalized.previewGeometry := by
      rw [List.map_map]
      exact List.map_id _
    rw [hcorrected, hpreview, ← computeTotalDistance_eq]
    exact congrArg (computeTotalDistance normalization.distance) hcoordinates

variable {distance : Coordinate → Coordinate → F64} {coords : List (List Coordinate)}

theorem Commits.points (h : Commits distance coords data) (hunedited : Unedited data)
    : coords.flatten.length ≤ MAX_PREVIEW_POINTS := by
  have hcoordinates := hunedited.coordinates
  rw [h.segments, h.previewGeometry] at hcoordinates
  rw [← hcoordinates]
  exact length_simplifyPreview_le _ (by decide)

theorem Commits.previewGeometry_of_points (h : Commits distance coords data)
    (hpoints : coords.flatten.length ≤ MAX_PREVIEW_POINTS) : data.previewGeometry = coords.flatten := by
  rw [h.previewGeometry, simplifyPreview_of_le hpoints]

theorem Commits.unedited (h : Commits distance coords data) (hnonempty : ∀ cs ∈ coords, cs ≠ [])
    (hseamless : Seamless distance coords) : Unedited data := by
  have hpreview := h.previewGeometry_of_points hseamless.points
  constructor
  . rw [hpreview, h.segments]
  . have hsmall : coords.flatten.length < UInt32.size := lt_of_le_of_lt hseamless.points (by decide)
    rw [h.correctedPointCount, h.pointCount, hpreview, Nat.mod_eq_of_lt hsmall]
  . rw [h.correctedDistance, h.distanceMeters, hpreview]
    exact sum_distances_flatten distance hnonempty hseamless.gaps F64.nearest_zero

theorem Commits.seamless (h : Commits distance coords data) (hnonempty : ∀ cs ∈ coords, cs ≠ [])
    (hunrounded : Unrounded distance coords) (hunedited : Unedited data) : Seamless distance coords := by
  have hpoints := h.points hunedited
  refine ⟨hpoints, ?_⟩
  have hdistance := hunedited.distanceMeters
  rw [h.correctedDistance, h.distanceMeters, h.previewGeometry_of_points hpoints] at hdistance
  exact gaps_of_sum distance hnonempty hunrounded.gaps hunrounded.flat hunrounded.segments hdistance

end Commit

section ProcessImport

variable {σ : Type} (answer : (command : Command) → σ → command.Reply × σ) (externals : Externals)
  (normalization : NormalizationExternals) (importId : ImportId) (ownerId : Identity.UserId) (key : String)
  (correlationId : Uuid) (s : σ)

-- the commands of a run, with what the collaborators reply
def processTrace : Log :=
  (ExceptT.run (ImportOrchestrator.processImport (externals.withNormalization normalization) importId ownerId
    key correlationId)).trace answer s

def committed (log : Log) : List ImportCommitData :=
  log.filterMap fun event =>
    match event.1 with
    | .commit _ data => some data
    | _ => none

/--
Whatever the collaborators reply, what is committed comes from a file that has been downloaded. If its
segments are seamless the version matches the recording, and when nothing is rounded only then.
-/
theorem InitialVersion.unedited_of_seamless {data : ImportCommitData}
    (hcommit : data ∈ committed (processTrace answer externals normalization importId ownerId key
      correlationId s))
    : ∃ fileBytes parseResult,
        ⟨.download key, .ok fileBytes⟩ ∈ processTrace answer externals normalization importId ownerId key
          correlationId s
        ∧ externals.parseGpx fileBytes = .ok parseResult
        ∧ (Seamless normalization.distance (recordedSegments parseResult) → Unedited data)
        ∧ (Unedited data → (recordedSegments parseResult).flatten.length ≤ MAX_PREVIEW_POINTS)
        ∧ (Unrounded normalization.distance (recordedSegments parseResult) →
          (Unedited data ↔ Seamless normalization.distance (recordedSegments parseResult))) := by
  obtain ⟨⟨command, reply⟩, hevent, hdata⟩ := List.mem_filterMap.mp hcommit
  cases command with
  | commit commitExternals data' =>
    obtain rfl := Option.some.inj hdata
    obtain ⟨before, after, htrace⟩ := List.append_of_mem hevent
    have hlogs : Logs (externals.withNormalization normalization) importId key (ImportOrchestrator.processImport
        (externals.withNormalization normalization) importId ownerId key correlationId) [] fun _ _ => True :=
      ImportOrchestrator.logs_processImport
    obtain ⟨fileBytes, hdownload, hmade⟩ := Program.Tracks.asks_of_trace hlogs htrace
    rw [List.nil_append] at hdownload
    have hmem : ⟨.download key, .ok fileBytes⟩ ∈ processTrace answer externals normalization importId
        ownerId key correlationId s := by
      rw [htrace]
      exact List.mem_append_left _ hdownload
    obtain ⟨parseResult, hparse, hcommits⟩ := commits_of_madeOfFile hmade
    have hnonempty : ∀ cs ∈ recordedSegments parseResult, cs ≠ [] :=
      fun _ hcs => nonempty_of_mem_recordedSegments hcs
    have hunedited := hcommits.unedited hnonempty
    exact ⟨fileBytes, parseResult, hmem, hparse, hunedited, hcommits.points,
      fun hunrounded => ⟨hcommits.seamless hnonempty hunrounded, hunedited⟩⟩
  | findById | update | findAbandoned | download | verifyUpload | check => cases hdata

end ProcessImport

/-
A file with two segments, and how far they are apart in degrees.
-/

def samplePoint (latitude : ℚ) : GpxTrackPoint where
  lat := .fin latitude
  lon := .fin 7
  elevation := none
  time := none

def sampleFile (second : ℚ) : GpxParseResult where
  version := .gpx11
  metadata := ⟨none, none, none⟩
  tracks := [⟨none, [⟨[samplePoint 46, samplePoint 47]⟩, ⟨[samplePoint second, samplePoint 49]⟩]⟩]
  totalPoints := 4

def sampleNormalization : NormalizationExternals where
  distance a b := (b.latitude.sub a.latitude).abs
  parseTimestamp _ := none
  recordedTrackId := ⟨⟨4⟩⟩

def sampleCommitted (second : ℚ) : List ImportCommitData :=
  committed (processTrace (answer sampleStorage) { sampleExternals with parseGpx := fun _ => .ok (sampleFile second) }
    sampleNormalization ⟨⟨1⟩⟩ ⟨⟨2⟩⟩ "key" ⟨11⟩ { sampleImports with imports := sampleQueue })

theorem InitialVersion.unedited_of_seamless_sampleFile
    : (sampleCommitted 47).length = 1 ∧ ∀ data ∈ sampleCommitted 47, Unedited data := by
  refine ⟨by decide +kernel, ?_⟩
  intro data hdata
  obtain ⟨fileBytes, parseResult, _, hparse, hunedited, _, _⟩ := InitialVersion.unedited_of_seamless
    (answer sampleStorage) _ sampleNormalization ⟨⟨1⟩⟩ ⟨⟨2⟩⟩ "key" ⟨11⟩ _ hdata
  obtain rfl := Except.ok.inj hparse
  apply hunedited
  exact ⟨by decide, by decide +kernel⟩

/--
The recording is two degrees long, and the version three.
-/
theorem gap_adds_distance
    : (sampleCommitted 48).map (fun data =>
        (data.statistics.distanceMeters, data.correctedStatistics.distanceMeters)) = [(.fin 2, .fin 3)]
      ∧ ¬∀ data ∈ sampleCommitted 48, Unedited data := by
  have hdistances : (sampleCommitted 48).map (fun data =>
      (data.statistics.distanceMeters, data.correctedStatistics.distanceMeters)) = [(.fin 2, .fin 3)] := by
    decide +kernel
  refine ⟨hdistances, ?_⟩
  intro hall
  obtain ⟨data, hdata, hpair⟩ := List.mem_map.mp (hdistances ▸ List.mem_singleton_self _)
  obtain ⟨hrecorded, hcorrected⟩ := Prod.mk.inj hpair
  have hsame := (hall data hdata).distanceMeters
  rw [hrecorded, hcorrected] at hsame
  exact absurd hsame (by decide)

end Imports
