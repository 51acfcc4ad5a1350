import Mathlib.Logic.Function.Iterate
import Haiker.Imports.PointCount

/-!
This module contains which limits the data of an accepted GPX file keeps, and what gets past them: the
elevations that are no finite numbers, and the empty elements at the deepest place.
-/

open Rust

namespace Imports

namespace GpxParser

/-
The texts.
-/

structure Sanitized (s : String) : Prop where
  length_le : s.toList.length ≤ MAX_METADATA_LEN
  noControl : ∀ c ∈ s.toList, isControl c = false

theorem sanitized_sanitizeMetadata (s : String) : Sanitized (sanitizeMetadata s) := by
  have hclean : ∀ c ∈ (trim s).toList.filter (!isControl ·), isControl c = false := by
    intro c hc
    simpa using (List.mem_filter.mp hc).2
  unfold sanitizeMetadata
  simp only
  split
  . constructor
    . rw [String.toList_ofList, List.length_take]
      exact Nat.min_le_left _ _
    . intro c hc
      rw [String.toList_ofList, String.toList_ofList] at hc
      exact hclean c (List.mem_of_mem_take hc)
  . next hsize =>
    rw [Nat.not_lt] at hsize
    constructor
    . rw [String.toList_ofList]
      exact (length_le_utf8ByteSize _).trans hsize
    . intro c hc
      rw [String.toList_ofList] at hc
      exact hclean c hc

/--
The names and descriptions that the parser has.
-/
structure Texts (s : State) : Prop where
  name : ∀ name, s.metadata.name = some name → Sanitized name
  description : ∀ description, s.metadata.description = some description → Sanitized description
  tracks : ∀ track ∈ s.tracks, ∀ name, track.name = some name → Sanitized name
  currentTrack : ∀ track, s.currentTrack = some track → ∀ name, track.name = some name → Sanitized name

/-
The points and the segments, with the ones that are not complete.
-/

structure AllPoints (P : GpxTrackPoint → Prop) (s : State) : Prop where
  tracks : ∀ track ∈ s.tracks, ∀ segment ∈ track.segments, ∀ pt ∈ segment.points, P pt
  currentTrack : ∀ track, s.currentTrack = some track → ∀ segment ∈ track.segments, ∀ pt ∈ segment.points, P pt
  currentSegment : ∀ segment, s.currentSegment = some segment → ∀ pt ∈ segment.points, P pt
  currentPoint : ∀ pt, s.currentPoint = some pt → P pt

def pointCount (segments : List GpxTrackSegment) : Nat := (segments.map (·.points.length)).sum

structure Counted (s : State) : Prop where
  points : pointCount (s.tracks.flatMap (·.segments)) + pointCount (s.currentTrack.toList.flatMap (·.segments))
    + pointCount s.currentSegment.toList + s.currentPoint.toList.length ≤ s.totalPoints
  segments : (s.tracks.flatMap (·.segments)).length + (s.currentTrack.toList.flatMap (·.segments)).length
    + s.currentSegment.toList.length ≤ s.totalSegments
  maxPoints : s.totalPoints ≤ MAX_POINTS
  maxSegments : s.totalSegments ≤ MAX_SEGMENTS

section Steps

variable {unescape : String → Option String} {s s' : State}

theorem Started.texts {tag : Xml.Tag} (h : Started tag s s') (hs : Texts s) : Texts s' := by
  cases h with
  | trk =>
    refine ⟨hs.name, hs.description, hs.tracks, ?_⟩
    rintro track htrack name hname
    obtain rfl := Option.some.inj htrack
    cases hname
  | gpx | metadata | trkseg | trkpt | text => exact ⟨hs.name, hs.description, hs.tracks, hs.currentTrack⟩

theorem Texts.endElement (hs : Texts s) (localName : String) : Texts (endElement localName s) := by
  unfold GpxParser.endElement
  split
  . exact ⟨hs.name, hs.description, hs.tracks, hs.currentTrack⟩
  . refine ⟨hs.name, hs.description, ?_, ?_⟩
    . intro track htrack
      rcases List.mem_append.mp htrack with htrack | htrack
      . exact hs.tracks track htrack
      . exact hs.currentTrack track (Option.mem_toList.mp htrack)
    . intro track htrack
      cases htrack
  . refine ⟨hs.name, hs.description, hs.tracks, ?_⟩
    intro track htrack
    obtain ⟨before, hbefore, rfl⟩ := Option.map_eq_some_iff.mp htrack
    exact hs.currentTrack before hbefore
  . exact ⟨hs.name, hs.description, hs.tracks, hs.currentTrack⟩
  . exact ⟨hs.name, hs.description, hs.tracks, hs.currentTrack⟩

theorem Texts.setText (hs : Texts s) (target : TextTarget) (text : String) : Texts (setText target text s) := by
  cases target with
  | metadataName =>
    refine ⟨?_, hs.description, hs.tracks, hs.currentTrack⟩
    intro name hname
    obtain rfl := Option.some.inj hname
    exact sanitized_sanitizeMetadata text
  | metadataDesc =>
    refine ⟨hs.name, ?_, hs.tracks, hs.currentTrack⟩
    intro description hdescription
    obtain rfl := Option.some.inj hdescription
    exact sanitized_sanitizeMetadata text
  | trackName =>
    refine ⟨hs.name, hs.description, hs.tracks, ?_⟩
    intro track htrack name hname
    obtain ⟨before, hbefore, rfl⟩ := Option.map_eq_some_iff.mp htrack
    obtain rfl := Option.some.inj hname
    exact sanitized_sanitizeMetadata text
  | metadataTime | pointEle | pointTime => exact ⟨hs.name, hs.description, hs.tracks, hs.currentTrack⟩

theorem texts_step {event : Xml.Event} (h : onEvent unescape s event = .ok s') (hs : Texts s) : Texts s' := by
  cases event with
  | start tag =>
    have hs : Texts { s with depth := s.depth + 1 } := ⟨hs.name, hs.description, hs.tracks, hs.currentTrack⟩
    exact (started_of_onStart h).2.texts hs
  | end_ localName =>
    obtain rfl := Except.ok.inj h
    have hended := hs.endElement localName
    exact ⟨hended.name, hended.description, hended.tracks, hended.currentTrack⟩
  | empty tag =>
    rcases onEmpty_cases h with ⟨_, rfl⟩ | ⟨_, _, _, _, rfl⟩
    . exact hs
    . exact ⟨hs.name, hs.description, hs.tracks, hs.currentTrack⟩
  | text raw =>
    obtain rfl := Except.ok.inj h
    unfold onText
    cases s.currentTextTarget with
    | none => exact hs
    | some target =>
      have hset := hs.setText target ((unescape raw).getD "")
      exact ⟨hset.name, hset.description, hset.tracks, hset.currentTrack⟩
  | cData _ | other =>
    obtain rfl := Except.ok.inj h
    exact hs
  | docType | error => cases h

theorem Started.allPoints {P : GpxTrackPoint → Prop} (hread : ∀ attributes pt, readPoint attributes = .ok pt → P pt)
    {tag : Xml.Tag} (h : Started tag s s') (hs : AllPoints P s) : AllPoints P s' := by
  cases h with
  | trk =>
    refine ⟨hs.tracks, ?_, hs.currentSegment, hs.currentPoint⟩
    rintro track htrack segment hsegment
    obtain rfl := Option.some.inj htrack
    cases hsegment
  | trkseg =>
    refine ⟨hs.tracks, hs.currentTrack, ?_, hs.currentPoint⟩
    rintro segment hsegment pt hpt
    obtain rfl := Option.some.inj hsegment
    cases hpt
  | trkpt attributes _ point _ hpoint =>
    refine ⟨hs.tracks, hs.currentTrack, hs.currentSegment, ?_⟩
    intro pt hpt
    obtain rfl := Option.some.inj hpt
    exact hread attributes _ hpoint
  | gpx | metadata | text => exact ⟨hs.tracks, hs.currentTrack, hs.currentSegment, hs.currentPoint⟩

theorem AllPoints.endElement {P : GpxTrackPoint → Prop} (hs : AllPoints P s) (localName : String)
    : AllPoints P (endElement localName s) := by
  unfold GpxParser.endElement
  split
  . exact ⟨hs.tracks, hs.currentTrack, hs.currentSegment, hs.currentPoint⟩
  . refine ⟨?_, ?_, hs.currentSegment, hs.currentPoint⟩
    . intro track htrack
      rcases List.mem_append.mp htrack with htrack | htrack
      . exact hs.tracks track htrack
      . exact hs.currentTrack track (Option.mem_toList.mp htrack)
    . intro track htrack
      cases htrack
  . refine ⟨hs.tracks, ?_, ?_, hs.currentPoint⟩
    . intro track htrack segment hsegment
      obtain ⟨before, hbefore, rfl⟩ := Option.map_eq_some_iff.mp htrack
      rcases List.mem_append.mp hsegment with hsegment | hsegment
      . exact hs.currentTrack before hbefore segment hsegment
      . exact hs.currentSegment segment (Option.mem_toList.mp hsegment)
    . intro segment hsegment
      cases hsegment
  . refine ⟨hs.tracks, hs.currentTrack, ?_, ?_⟩
    . intro segment hsegment pt hpt
      obtain ⟨before, hbefore, rfl⟩ := Option.map_eq_some_iff.mp hsegment
      rcases List.mem_append.mp hpt with hpt | hpt
      . exact hs.currentSegment before hbefore pt hpt
      . exact hs.currentPoint pt (Option.mem_toList.mp hpt)
    . intro pt hpt
      cases hpt
  . exact ⟨hs.tracks, hs.currentTrack, hs.currentSegment, hs.currentPoint⟩

theorem AllPoints.setText {P : GpxTrackPoint → Prop} (hs : AllPoints P s) {target : TextTarget} {text : String}
    (htime : ∀ pt time, P pt → P { pt with time })
    (hele : ∀ pt, target = .pointEle → s.currentPoint = some pt → P pt →
      P { pt with elevation := F64.parse (trim text) })
    : AllPoints P (setText target text s) := by
  cases target with
  | trackName =>
    refine ⟨hs.tracks, ?_, hs.currentSegment, hs.currentPoint⟩
    intro track htrack
    obtain ⟨before, hbefore, rfl⟩ := Option.map_eq_some_iff.mp htrack
    exact hs.currentTrack before hbefore
  | pointEle =>
    refine ⟨hs.tracks, hs.currentTrack, hs.currentSegment, ?_⟩
    intro pt hpt
    obtain ⟨before, hbefore, rfl⟩ := Option.map_eq_some_iff.mp hpt
    exact hele before rfl hbefore (hs.currentPoint before hbefore)
  | pointTime =>
    refine ⟨hs.tracks, hs.currentTrack, hs.currentSegment, ?_⟩
    intro pt hpt
    obtain ⟨before, hbefore, rfl⟩ := Option.map_eq_some_iff.mp hpt
    exact htime _ _ (hs.currentPoint before hbefore)
  | metadataName | metadataDesc | metadataTime =>
    exact ⟨hs.tracks, hs.currentTrack, hs.currentSegment, hs.currentPoint⟩

/--
What holds of the points that are read, and is kept when their texts are read, holds of all.
-/
theorem allPoints_step {P : GpxTrackPoint → Prop}
    (hread : ∀ attributes pt, readPoint attributes = .ok pt → P pt) (htime : ∀ pt time, P pt → P { pt with time })
    {event : Xml.Event}
    (hele : ∀ raw pt, event = .text raw → s.currentTextTarget = some .pointEle → s.currentPoint = some pt → P pt →
      P { pt with elevation := F64.parse (trim ((unescape raw).getD "")) })
    (h : onEvent unescape s event = .ok s') (hs : AllPoints P s) : AllPoints P s' := by
  cases event with
  | start tag =>
    have hs : AllPoints P { s with depth := s.depth + 1 } :=
      ⟨hs.tracks, hs.currentTrack, hs.currentSegment, hs.currentPoint⟩
    exact (started_of_onStart h).2.allPoints hread hs
  | end_ localName =>
    obtain rfl := Except.ok.inj h
    have hended := hs.endElement localName
    exact ⟨hended.tracks, hended.currentTrack, hended.currentSegment, hended.currentPoint⟩
  | empty tag =>
    rcases onEmpty_cases h with ⟨_, rfl⟩ | ⟨_, _, point, hpoint, rfl⟩
    . exact hs
    . refine ⟨hs.tracks, hs.currentTrack, ?_, hs.currentPoint⟩
      intro segment hsegment pt hpt
      obtain ⟨before, hbefore, rfl⟩ := Option.map_eq_some_iff.mp hsegment
      rcases List.mem_append.mp hpt with hpt | hpt
      . exact hs.currentSegment before hbefore pt hpt
      . obtain rfl := List.mem_singleton.mp hpt
        exact hread _ _ hpoint
  | text raw =>
    obtain rfl := Except.ok.inj h
    unfold onText
    cases htarget : s.currentTextTarget with
    | none => exact hs
    | some target =>
      have hset : AllPoints P (setText target ((unescape raw).getD "") s) := by
        apply hs.setText htime
        rintro pt rfl hpt hP
        exact hele raw pt rfl htarget hpt hP
      exact ⟨hset.tracks, hset.currentTrack, hset.currentSegment, hset.currentPoint⟩
  | cData _ | other =>
    obtain rfl := Except.ok.inj h
    exact hs
  | docType | error => cases h

theorem pointCount_append (segments segments' : List GpxTrackSegment)
    : pointCount (segments ++ segments') = pointCount segments + pointCount segments' := by
  simp [pointCount]

theorem pointCount_nil : pointCount [] = 0 := rfl

theorem Started.counted {tag : Xml.Tag} (h : Started tag s s') (hs : Counted s) : Counted s' := by
  obtain ⟨hpoints, hsegments, hmaxPoints, hmaxSegments⟩ := hs
  cases h with
  | gpx | metadata | text => exact ⟨hpoints, hsegments, hmaxPoints, hmaxSegments⟩
  | trk =>
    constructor
    . exact le_trans (by simp [pointCount]) hpoints
    . exact le_trans (by simp) hsegments
    . exact hmaxPoints
    . exact hmaxSegments
  | trkseg attributes _ hcount =>
    constructor
    . exact le_trans (by simp [pointCount]) hpoints
    . simp only [Option.toList_some, List.length_singleton]
      omega
    . exact hmaxPoints
    . exact hcount
  | trkpt attributes _ point hcount hpoint =>
    constructor
    . simp only [Option.toList_some, List.length_singleton]
      omega
    . exact hsegments
    . exact hcount
    . exact hmaxSegments

-- the points of a segment that one has been added to
theorem pointCount_add (segment : Option GpxTrackSegment) (points : List GpxTrackPoint)
    : pointCount (segment.map fun seg => { seg with points := seg.points ++ points }).toList
        ≤ pointCount segment.toList + points.length := by
  cases segment with
  | none => exact Nat.zero_le _
  | some segment => simp [pointCount]

theorem length_add (segment : Option GpxTrackSegment) (points : List GpxTrackPoint)
    : (segment.map fun seg => { seg with points := seg.points ++ points }).toList.length
        = segment.toList.length := by
  rw [Option.toList_map, List.length_map]

theorem Counted.endElement (hs : Counted s) (localName : String) : Counted (endElement localName s) := by
  obtain ⟨hpoints, hsegments, hmaxPoints, hmaxSegments⟩ := hs
  unfold GpxParser.endElement
  split
  . exact ⟨hpoints, hsegments, hmaxPoints, hmaxSegments⟩
  . refine ⟨?_, ?_, hmaxPoints, hmaxSegments⟩
    . simp only [List.flatMap_append, pointCount_append, Option.toList_none, List.flatMap_nil]
      exact le_trans (by simp [pointCount]) hpoints
    . simp only [List.flatMap_append, List.length_append, Option.toList_none, List.flatMap_nil]
      exact le_trans (by simp) hsegments
  . refine ⟨?_, ?_, hmaxPoints, hmaxSegments⟩
    . cases htrack : s.currentTrack with
      | none => exact le_trans (by simp [htrack, pointCount]) hpoints
      | some track =>
        rw [htrack] at hpoints
        simp only [Option.map_some, Option.toList_some, Option.toList_none, List.flatMap_singleton,
          pointCount_append, pointCount_nil] at hpoints ⊢
        omega
    . cases htrack : s.currentTrack with
      | none => exact le_trans (by simp [htrack]) hsegments
      | some track =>
        rw [htrack] at hsegments
        simp only [Option.map_some, Option.toList_some, Option.toList_none, List.flatMap_singleton,
          List.length_append, List.length_nil] at hsegments ⊢
        omega
  . have hadded := pointCount_add s.currentSegment s.currentPoint.toList
    refine ⟨?_, ?_, hmaxPoints, hmaxSegments⟩
    . simp only [Option.toList_none, List.length_nil]
      omega
    . rw [length_add]
      exact hsegments
  . exact ⟨hpoints, hsegments, hmaxPoints, hmaxSegments⟩

theorem Counted.setText (hs : Counted s) (target : TextTarget) (text : String) : Counted (setText target text s) := by
  obtain ⟨hpoints, hsegments, hmaxPoints, hmaxSegments⟩ := hs
  cases target with
  | metadataName | metadataDesc | metadataTime => exact ⟨hpoints, hsegments, hmaxPoints, hmaxSegments⟩
  | trackName =>
    simp only [GpxParser.setText]
    cases htrack : s.currentTrack with
    | none =>
      rw [htrack] at hpoints hsegments
      exact ⟨hpoints, hsegments, hmaxPoints, hmaxSegments⟩
    | some track =>
      rw [htrack] at hpoints hsegments
      exact ⟨hpoints, hsegments, hmaxPoints, hmaxSegments⟩
  | pointEle | pointTime =>
    refine ⟨?_, hsegments, hmaxPoints, hmaxSegments⟩
    simp only [GpxParser.setText]
    rw [Option.toList_map, List.length_map]
    exact hpoints

theorem counted_step {event : Xml.Event} (h : onEvent unescape s event = .ok s') (hs : Counted s) : Counted s' := by
  cases event with
  | start tag =>
    have hs : Counted { s with depth := s.depth + 1 } :=
      ⟨hs.points, hs.segments, hs.maxPoints, hs.maxSegments⟩
    exact (started_of_onStart h).2.counted hs
  | end_ localName =>
    obtain rfl := Except.ok.inj h
    have hended := hs.endElement localName
    exact ⟨hended.points, hended.segments, hended.maxPoints, hended.maxSegments⟩
  | empty tag =>
    rcases onEmpty_cases h with ⟨_, rfl⟩ | ⟨_, hcount, point, _, rfl⟩
    . exact hs
    . refine ⟨?_, ?_, hcount, hs.maxSegments⟩
      . have hadded := pointCount_add s.currentSegment [point]
        have hpoints := hs.points
        rw [List.length_singleton] at hadded
        simp only
        omega
      . rw [length_add]
        exact hs.segments
  | text raw =>
    obtain rfl := Except.ok.inj h
    unfold onText
    cases s.currentTextTarget with
    | none => exact hs
    | some target =>
      have hset := hs.setText target ((unescape raw).getD "")
      exact ⟨hset.points, hset.segments, hset.maxPoints, hset.maxSegments⟩
  | cData _ | other =>
    obtain rfl := Except.ok.inj h
    exact hs
  | docType | error => cases h

end Steps

/-
The depth, which counts the elements that are opened.
-/

section Depth

variable {unescape : String → Option String} {s s' : State}

open Xml (Forest)

theorem height_le_iff {forest : Forest} (h : Reads unescape s forest.events s')
    : s'.depth = s.depth ∧ (forest.height ≤ MAX_DEPTH - s.depth
        ↔ forest.hasEmptyIn (MAX_DEPTH - s.depth) = false) := by
  induction forest generalizing s s' with
  | nil =>
    obtain rfl := Except.ok.inj h
    simp [Forest.height, Forest.hasEmptyIn]
  | element tag content rest ihcontent ihrest =>
    obtain ⟨opened, hstart, hopened⟩ := reads_cons.mp h
    obtain ⟨read, hcontent, hread⟩ := reads_append.mp hopened
    obtain ⟨closed, hend, hrest⟩ := reads_cons.mp hread
    have hroom := (started_of_onStart hstart).1
    have hopen : opened.depth = s.depth + 1 := depth_of_onEvent hstart
    obtain ⟨hreadDepth, hheight⟩ := ihcontent hcontent
    have hclose : closed.depth = read.depth - 1 := depth_of_onEvent hend
    obtain ⟨hdepth, hheight'⟩ := ihrest hrest
    have hclosed : closed.depth = s.depth := by omega
    have hbelow : MAX_DEPTH - opened.depth = MAX_DEPTH - s.depth - 1 := by omega
    have hpos : MAX_DEPTH - s.depth ≠ 0 := by omega
    rw [hbelow] at hheight
    rw [hclosed] at hheight' hdepth
    refine ⟨hdepth, ?_⟩
    simp only [Forest.height, Forest.hasEmptyIn, Bool.or_eq_false_iff, Bool.and_eq_false_iff,
      decide_eq_false_iff_not, not_not, hpos, false_or, ← hheight, ← hheight', Nat.max_le]
    omega
  | empty tag rest ih =>
    obtain ⟨between, hempty, hrest⟩ := reads_cons.mp h
    have hsame : between.depth = s.depth := depth_of_onEvent hempty
    obtain ⟨hdepth, hheight⟩ := ih hrest
    rw [hsame] at hdepth hheight
    refine ⟨hdepth, ?_⟩
    simp only [Forest.height, Forest.hasEmptyIn, Bool.or_eq_false_iff, decide_eq_false_iff_not, ← hheight, Nat.max_le]
    omega
  | text _ rest ih | cData _ rest ih | other rest ih =>
    obtain ⟨between, hleaf, hrest⟩ := reads_cons.mp h
    have hsame : between.depth = s.depth := depth_of_onEvent hleaf
    obtain ⟨hdepth, hheight⟩ := ih hrest
    rw [hsame] at hdepth hheight
    exact ⟨hdepth, hheight⟩

end Depth

/-
The elevations.
-/

section Elevations

variable {unescape : String → Option String} {s s' : State}

def FiniteElevation (pt : GpxTrackPoint) : Prop := pt.elevation.all F64.isFinite = true

instance (pt : GpxTrackPoint) : Decidable (FiniteElevation pt) :=
  inferInstanceAs (Decidable (pt.elevation.all F64.isFinite = true))

-- a text that is not taken for an elevation, or stands for a finite one, or for none
def isFiniteText (unescape : String → Option String) (s : State) : Xml.Event → Bool
  | .text raw =>
    s.currentTextTarget ≠ some .pointEle || s.currentPoint.isNone
      || (F64.parse (trim ((unescape raw).getD ""))).all F64.isFinite
  | _ => true

/--
No text is taken for the elevation of a point that stands for an infinite one or for NaN.
-/
def readsFinite (unescape : String → Option String) (s : State) : List Xml.Event → Bool
  | [] => true
  | event :: events =>
    isFiniteText unescape s event
      && match onEvent unescape s event with
        | .ok s => readsFinite unescape s events
        | .error _ => true

theorem readPoint_spec {attributes : List (String × String)} {pt : GpxTrackPoint}
    (h : readPoint attributes = .ok pt)
    : pt.elevation = none ∧ pt.time = none ∧ pt.lat.inRange (-90) 90 = true
        ∧ pt.lon.inRange (-180) 180 = true := by
  unfold readPoint at h
  cases hcoordinates : readCoordinates attributes with
  | error e =>
    rw [hcoordinates] at h
    cases h
  | ok coordinates =>
    obtain ⟨lat, lon⟩ := coordinates
    rw [hcoordinates] at h
    cases lat with
    | none => cases h
    | some lat =>
      cases lon with
      | none => cases h
      | some lon =>
        simp only [required, bind, Except.bind] at h
        split at h
        . cases h
        . next hlat =>
          split at h
          . cases h
          . next hlon =>
            obtain rfl := Except.ok.inj h
            exact ⟨rfl, rfl, by simpa using hlat, by simpa using hlon⟩

theorem Reads.finiteElevations {events : List Xml.Event} (h : Reads unescape s events s')
    (hfinite : readsFinite unescape s events = true) (hs : AllPoints FiniteElevation s)
    : AllPoints FiniteElevation s' := by
  induction events generalizing s with
  | nil =>
    obtain rfl := Except.ok.inj h
    exact hs
  | cons event events ih =>
    obtain ⟨between, hevent, hrest⟩ := reads_cons.mp h
    rw [readsFinite, hevent, Bool.and_eq_true] at hfinite
    obtain ⟨htext, hfinite⟩ := hfinite
    refine ih hrest hfinite (allPoints_step ?_ ?_ ?_ hevent hs)
    . intro attributes pt hpoint
      unfold FiniteElevation
      rw [(readPoint_spec hpoint).1]
      rfl
    . intro pt time hpt
      exact hpt
    . rintro raw pt rfl htarget hpoint _
      simp only [isFiniteText, htarget, hpoint, Option.isNone_some, ne_eq, not_true_eq_false, decide_false,
        Bool.false_or] at htext
      simp only [FiniteElevation]
      exact htext

end Elevations

/-
The loop, with the end of the input as the last of its events.
-/

inductive Loop where
  | running (s : State) (events : List Xml.Event)
  | finished (result : ParseM State)

def Loop.iterate (unescape : String → Option String) : Loop → Loop
  | running s [] => finished (.ok s)
  | running s (event :: events) =>
    match onEvent unescape s event with
    | .ok s => running s events
    | .error e => finished (.error e)
  | finished result => finished result

theorem Loop.iterate_finished (unescape : String → Option String) (result : ParseM State) (n : Nat)
    : (iterate unescape)^[n] (finished result) = finished result :=
  Function.iterate_fixed rfl n

theorem Loop.iterate_events (unescape : String → Option String) (events : List Xml.Event) (s : State)
    : (iterate unescape)^[events.length + 1] (running s events) = finished (readEvents unescape s events) := by
  induction events generalizing s with
  | nil => rfl
  | cons event events ih =>
    rw [List.length_cons, Function.iterate_succ_apply]
    unfold readEvents
    rw [List.foldlM_cons]
    cases hevent : onEvent unescape s event with
    | ok between =>
      rw [iterate, hevent]
      exact ih between
    | error e =>
      rw [iterate, hevent]
      exact iterate_finished unescape (.error e) _

/-
What is accepted.
-/

def InRange (pt : GpxTrackPoint) : Prop := pt.lat.inRange (-90) 90 = true ∧ pt.lon.inRange (-180) 180 = true

def storedSegments (result : GpxParseResult) : List GpxTrackSegment := result.tracks.flatMap (·.segments)

/--
The limits that are always kept.
-/
structure Limited (input : Bytes) (text : String) (result : GpxParseResult) : Prop where
  size : input.length ≤ MAX_INPUT_SIZE
  utf8 : String.fromUTF8? ⟨input.toArray⟩ = some text
  docType : ¬"<!DOCTYPE".toList <:+: text.toList
  entity : ¬"<!ENTITY".toList <:+: text.toList
  points : ((storedSegments result).map (·.points.length)).sum ≤ MAX_POINTS
  segments : (storedSegments result).length ≤ MAX_SEGMENTS
  coordinates : ∀ segment ∈ storedSegments result, ∀ pt ∈ segment.points, InRange pt
  name : ∀ name, result.metadata.name = some name → Sanitized name
  description : ∀ description, result.metadata.description = some description → Sanitized description
  trackNames : ∀ track ∈ result.tracks, ∀ name, track.name = some name → Sanitized name

structure WithinLimits (input : Bytes) (text : String) (document : Xml.Forest) (result : GpxParseResult) : Prop
    extends Limited input text result where
  depth : document.height ≤ MAX_DEPTH
  elevations : ∀ segment ∈ storedSegments result, ∀ pt ∈ segment.points, FiniteElevation pt

section Accepted

variable {codec : Xml.Codec} {input : Bytes} {text : String} {s : State} {result : GpxParseResult}

theorem Accepted.allPoints (h : Accepted codec input text s result) {P : GpxTrackPoint → Prop} (hs : AllPoints P s)
    : ∀ segment ∈ storedSegments result, ∀ pt ∈ segment.points, P pt := by
  intro segment hsegment pt hpt
  obtain ⟨track, htrack, hsegment⟩ := List.mem_flatMap.mp hsegment
  rw [h.tracks] at htrack
  exact hs.tracks track htrack segment hsegment pt hpt

theorem inRange_step {unescape : String → Option String} {s s' : State} {event : Xml.Event}
    (h : onEvent unescape s event = .ok s') (hs : AllPoints InRange s) : AllPoints InRange s' := by
  refine allPoints_step ?_ ?_ ?_ h hs
  . intro attributes pt hpoint
    exact (readPoint_spec hpoint).2.2
  . intro pt time hpt
    exact ⟨hpt.1, hpt.2⟩
  . intro raw pt _ _ _ hpt
    exact ⟨hpt.1, hpt.2⟩

theorem allPoints_start (P : GpxTrackPoint → Prop) : AllPoints P .start := by
  constructor
  . intro track htrack
    cases htrack
  . intro track htrack
    cases htrack
  . intro segment hsegment
    cases hsegment
  . intro pt hpt
    cases hpt

theorem texts_start : Texts .start := by
  constructor
  . intro name hname
    cases hname
  . intro description hdescription
    cases hdescription
  . intro track htrack
    cases htrack
  . intro track htrack
    cases htrack

theorem counted_start : Counted .start := ⟨Nat.le_refl 0, Nat.le_refl 0, Nat.zero_le _, Nat.zero_le _⟩

theorem Accepted.limited (h : Accepted codec input text s result) : Limited input text result := by
  have htexts : Texts s := h.reads.invariant (fun _ _ _ hevent => texts_step hevent) texts_start
  have hcounted : Counted s := h.reads.invariant (fun _ _ _ hevent => counted_step hevent) counted_start
  have hrange : AllPoints InRange s := h.reads.invariant (fun _ _ _ hevent => inRange_step hevent)
    (allPoints_start InRange)
  have hsegments : storedSegments result = s.tracks.flatMap (·.segments) := by rw [storedSegments, h.tracks]
  constructor
  . exact h.size
  . exact h.utf8
  . exact of_decide_eq_false h.docType
  . exact of_decide_eq_false h.entity
  . have hpoints := hcounted.points
    have hmax := hcounted.maxPoints
    unfold pointCount at hpoints
    rw [hsegments]
    omega
  . have hsegments' := hcounted.segments
    have hmax := hcounted.maxSegments
    rw [hsegments]
    omega
  . exact h.allPoints hrange
  . rw [h.metadata]
    exact htexts.name
  . rw [h.metadata]
    exact htexts.description
  . rw [h.tracks]
    exact htexts.tracks

end Accepted

end GpxParser

open GpxParser

/--
The parser is done when it has seen every event once. What it accepts is limited, but for empty elements in
as many elements as there may be, and for elevations that are no finite numbers.
-/
theorem parseGpx_withinLimits (codec : Xml.Codec) (hnests : codec.Nests) (input : Bytes)
    : (∀ text, (Loop.iterate codec.unescape)^[(codec.read text).length + 1] (.running .start (codec.read text))
          = .finished (readEvents codec.unescape .start (codec.read text)))
        ∧ ∀ result, parseGpx codec input = .ok result →
          ∃ text, Limited input text result
            ∧ (∃ document : Xml.Forest, codec.read text = document.events)
            ∧ ∀ document : Xml.Forest, codec.read text = document.events →
              (document.height ≤ MAX_DEPTH ↔ document.hasEmptyIn MAX_DEPTH = false)
              ∧ (document.hasEmptyIn MAX_DEPTH = false → readsFinite codec.unescape .start document.events = true →
                WithinLimits input text document result) := by
  refine ⟨fun text => Loop.iterate_events codec.unescape (codec.read text) .start, ?_⟩
  intro result h
  obtain ⟨text, s, haccepted⟩ := accepted_of_parseGpx h
  refine ⟨text, haccepted.limited, haccepted.exists_forest hnests, ?_⟩
  intro document hdocument
  have hreads := haccepted.reads
  rw [hdocument] at hreads
  have hheight := (height_le_iff hreads).2
  refine ⟨hheight, ?_⟩
  intro hempty hfinite
  exact {
    toLimited := haccepted.limited
    depth := hheight.mpr hempty
    elevations := haccepted.allPoints (hreads.finiteElevations hfinite (allPoints_start _))
  }

/-
A point with this elevation.
-/

def elevationText (elevation : String) : String :=
  "<gpx version=\"1.1\"><trk><trkseg><trkpt lat=\"46\" lon=\"7\"><ele>" ++ elevation
    ++ "</ele></trkpt></trkseg></trk></gpx>"

def elevationForest (elevation : String) : Xml.Forest :=
  gpxForest (.element ⟨"trk", []⟩ (.element ⟨"trkseg", []⟩ (.element ⟨"trkpt", [("lat", "46"), ("lon", "7")]⟩
    (.element ⟨"ele", []⟩ (.text elevation .nil) .nil) .nil) .nil) .nil)

def elevationResult (elevation : F64) : GpxParseResult where
  version := .gpx11
  metadata := { name := none, description := none, time := none }
  tracks := [⟨none, [⟨[{ lat := .fin 46, lon := .fin 7, elevation := some elevation, time := none }]⟩]⟩]
  totalPoints := 1

theorem parseGpx_withinLimits_elevationText
    : parseGpx Xml.scanner.checked (elevationText "560").toUTF8.data.toList = .ok (elevationResult (.fin 560))
      ∧ WithinLimits (elevationText "560").toUTF8.data.toList (elevationText "560") (elevationForest "560")
        (elevationResult (.fin 560)) := by
  have hparse : parseGpx Xml.scanner.checked (elevationText "560").toUTF8.data.toList
      = .ok (elevationResult (.fin 560)) := by
    rw [parseGpx_toUTF8 Xml.scanner.checked (by decide +kernel) (by decide +kernel)]
    decide +kernel
  obtain ⟨text, hlimited, _, hdocuments⟩ := (parseGpx_withinLimits Xml.scanner.checked
    (Xml.nests_checked Xml.scanner) (elevationText "560").toUTF8.data.toList).2 _ hparse
  have htext := hlimited.utf8
  rw [fromUTF8?_toUTF8] at htext
  obtain rfl := Option.some.inj htext
  obtain ⟨_, hwithin⟩ := hdocuments (elevationForest "560") (by decide +kernel)
  exact ⟨hparse, hwithin (by decide +kernel) (by decide +kernel)⟩

/--
NaN is a number to the parser.
-/
theorem nan_accepted
    : parseGpx Xml.scanner.checked (elevationText "NaN").toUTF8.data.toList = .ok (elevationResult .nan)
      ∧ Xml.scanner.checked.read (elevationText "NaN") = (elevationForest "NaN").events
      ∧ ¬WithinLimits (elevationText "NaN").toUTF8.data.toList (elevationText "NaN") (elevationForest "NaN")
        (elevationResult .nan) := by
  refine ⟨?_, by decide +kernel, ?_⟩
  . rw [parseGpx_toUTF8 Xml.scanner.checked (by decide +kernel) (by decide +kernel)]
    decide +kernel
  . intro hwithin
    exact absurd (hwithin.elevations _ List.mem_cons_self _ List.mem_cons_self) (by decide)

end Imports
