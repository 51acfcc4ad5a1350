import Haiker.Exports.Lemmas.GpxGenerator
import Haiker.Imports.Lemmas.GpxParser

/-!
This module contains that the GPX parser reads what the GPX generator has written.
-/

open Rust
open Imports
open Imports.GpxParser

namespace Exports

-- what is read for a point
def parsedPoint (point : GpxPoint) : GpxTrackPoint where
  lat := point.latitude.roundedTo 7
  lon := point.longitude.roundedTo 7
  elevation := point.elevation.map (F64.roundedTo 7)
  time := none

-- what is read for a name. White space on its own is not read
def parsedName : Option String → Option String
  | none => none
  | some name => if Xml.trimChars name.toList = [] then none else some (sanitizeMetadata name)

def parsedSegments (segments : List (List GpxPoint)) : List GpxTrackSegment :=
  (segments.filter (!·.isEmpty)).map fun segment => { points := segment.map parsedPoint }

/-
The states that the parser passes through.
-/

def trackState (name : Option String) (segments : List GpxTrackSegment) (totalPoints totalSegments : Nat)
    : GpxParser.State := { GpxParser.State.start with
  depth := 2
  version := some .gpx11
  totalPoints
  totalSegments
  inTrk := true
  currentTrack := some { name, segments }
}

def segmentState (name : Option String) (segments : List GpxTrackSegment) (points : List GpxTrackPoint)
    (totalPoints totalSegments : Nat) : GpxParser.State := { trackState name segments totalPoints totalSegments with
  depth := 3
  inTrkseg := true
  currentSegment := some { points }
}

theorem inRange_roundedTo {x : F64} (bound : Nat) (hbound : bound < 2 ^ 52)
    (h : x.inRange (-bound) bound) : (x.roundedTo 7).inRange (-bound) bound = true := by
  obtain ⟨q, rfl, hlow, hhigh⟩ := F64.inRange_iff.mp h
  exact F64.roundedTo_inRange 7 hbound (abs_le.mpr ⟨hlow, hhigh⟩)

theorem parse_of_inRange {x : F64} {low high : ℚ} (h : x.inRange low high)
    : F64.parse (formatCoordinate x) = some (x.roundedTo 7) := by
  obtain ⟨q, rfl, _⟩ := F64.inRange_iff.mp h
  exact parse_formatCoordinate q

theorem readPoint_pointTag {point : GpxPoint} (h : InRange point)
    : readPoint (pointTag point).attributes
        = .ok {
          lat := point.latitude.roundedTo 7
          lon := point.longitude.roundedTo 7
          elevation := none
          time := none
        } := by
  have hlat : (point.latitude.roundedTo 7).inRange (-90) 90 = true :=
    inRange_roundedTo 90 (by decide) h.latitude
  have hlon : (point.longitude.roundedTo 7).inRange (-180) 180 = true :=
    inRange_roundedTo 180 (by decide) h.longitude
  have hread : readCoordinates (pointTag point).attributes
      = .ok (some (point.latitude.roundedTo 7), some (point.longitude.roundedTo 7)) := by
    simp only [readCoordinates, pointTag, List.foldlM_cons, List.foldlM_nil, parseCoordinate,
      parse_of_inRange h.latitude, parse_of_inRange h.longitude]
    rfl
  unfold readPoint
  rw [hread]
  change (if (point.latitude.roundedTo 7).inRange (-90) 90 = false then _
    else if (point.longitude.roundedTo 7).inRange (-180) 180 = false then _ else _) = _
  rw [if_neg (by rw [hlat]; decide), if_neg (by rw [hlon]; decide)]
  rfl

variable {codec : Xml.Codec}

theorem reads_elevationTokens (hcodec : codec.Faithful) {elevation : Option F64}
    (hele : ∀ ele ∈ elevation, ele.isFinite) {s : GpxParser.State} {point : GpxTrackPoint}
    (hdepth : s.depth < MAX_DEPTH) (hin : s.inTrkpt = true) (htarget : s.currentTextTarget = none)
    (hpoint : s.currentPoint = some point) (helevation : point.elevation = none)
    : Reads codec.unescape s ((elevationTokens elevation).flatMap Xml.Token.events)
        { s with currentPoint := some { point with elevation := elevation.map (F64.roundedTo 7) } } := by
  cases elevation with
  | none =>
    have hsame : { point with elevation := none } = point := by rw [← helevation]
    rw [Option.map_none, hsame, ← hpoint]
    exact .nil
  | some ele =>
    cases ele with
    | nan | negInf | posInf => cases hele _ rfl
    | fin q =>
      obtain ⟨hne, hnumeral⟩ := numeral_of_mem_formatCoordinate q
      have hunescape : codec.unescape (formatCoordinate (.fin q)) = some (formatCoordinate (.fin q)) := by
        have hescape := hcodec.unescape_escape (formatCoordinate (.fin q))
        rw [escape_numeral hnumeral] at hescape
        exact hescape
      have hwaits : textTarget "ele" { s with depth := s.depth + 1 } = some .pointEle := by
        simp only [textTarget, hin, if_true]
      have hreads := reads_textElement codec.unescape "ele" (by decide) hdepth htarget hwaits []
        (some (formatCoordinate (.fin q)))
      simp only [setText, hunescape, Option.getD_some, trim_numeral hnumeral, parse_formatCoordinate, hpoint,
        Option.map_some] at hreads
      simp only [elevationTokens, List.flatMap_cons, List.flatMap_nil, Xml.Token.events,
        textEvent_numeral hnumeral hne]
      exact hreads

-- line breaks are not read
theorem textEvent_break : Xml.textEvent "\n".toList = [] := by decide

theorem reads_pointTokens (hcodec : codec.Faithful) {point : GpxPoint} (hpoint : InRange point)
    (name : Option String) (segments : List GpxTrackSegment) (points : List GpxTrackPoint)
    (totalPoints totalSegments : Nat) (hcount : totalPoints < MAX_POINTS)
    : Reads codec.unescape (segmentState name segments points totalPoints totalSegments)
        ((pointTokens point).flatMap Xml.Token.events)
        (segmentState name segments (points ++ [parsedPoint point]) (totalPoints + 1) totalSegments) := by
  have hevents : (pointTokens point).flatMap Xml.Token.events
      = .start (pointTag point) :: ((elevationTokens point.elevation).flatMap Xml.Token.events
        ++ [.end_ "trkpt"]) := by
    simp only [pointTokens, List.flatMap_cons, List.flatMap_append, List.flatMap_nil, Xml.Token.events,
      textEvent_break]
    rfl
  rw [hevents]
  have hdepth : 3 < MAX_DEPTH ∧ 4 < MAX_DEPTH := by decide
  have hstart := onStart_trkpt codec.unescape (readPoint_pointTag hpoint)
    (s := segmentState name segments points totalPoints totalSegments) hdepth.1 hcount
  refine .cons hstart ?_
  refine .append (reads_elevationTokens hcodec hpoint.elevation hdepth.2 rfl rfl rfl rfl) ?_
  exact .cons rfl .nil

theorem reads_points (hcodec : codec.Faithful) {segment : List GpxPoint}
    (hsegment : ∀ point ∈ segment, InRange point) (name : Option String) (segments : List GpxTrackSegment)
    (points : List GpxTrackPoint) (totalPoints totalSegments : Nat)
    (hcount : totalPoints + segment.length ≤ MAX_POINTS)
    : Reads codec.unescape (segmentState name segments points totalPoints totalSegments)
        ((segment.flatMap pointTokens).flatMap Xml.Token.events)
        (segmentState name segments (points ++ segment.map parsedPoint) (totalPoints + segment.length)
          totalSegments) := by
  induction segment generalizing points totalPoints with
  | nil =>
    rw [List.map_nil, List.append_nil]
    exact .nil
  | cons point segment ih =>
    rw [List.length_cons] at hcount
    have hfirst := reads_pointTokens hcodec (hsegment point List.mem_cons_self) name segments points
      totalPoints totalSegments (by omega)
    have hrest := ih (fun point hpoint => hsegment point (List.mem_cons_of_mem _ hpoint))
      (points ++ [parsedPoint point]) (totalPoints + 1) (by omega)
    rw [List.flatMap_cons, List.flatMap_append, List.map_cons, List.append_cons, List.length_cons,
      Nat.add_comm segment.length, ← Nat.add_assoc]
    exact hfirst.append hrest

theorem reads_segmentTokens (hcodec : codec.Faithful) {segment : List GpxPoint} (hne : segment.isEmpty = false)
    (hsegment : ∀ point ∈ segment, InRange point) (name : Option String) (segments : List GpxTrackSegment)
    (totalPoints totalSegments : Nat) (hpoints : totalPoints + segment.length ≤ MAX_POINTS)
    (hsegments : totalSegments < MAX_SEGMENTS)
    : Reads codec.unescape (trackState name segments totalPoints totalSegments)
        ((segmentTokens segment).flatMap Xml.Token.events)
        (trackState name (segments ++ [{ points := segment.map parsedPoint }]) (totalPoints + segment.length)
          (totalSegments + 1)) := by
  have hevents : (segmentTokens segment).flatMap Xml.Token.events
      = .start ⟨"trkseg", []⟩ :: ((segment.flatMap pointTokens).flatMap Xml.Token.events
        ++ [.end_ "trkseg"]) := by
    simp only [segmentTokens, hne, Bool.false_eq_true, if_false, List.flatMap_cons, List.flatMap_append,
      List.flatMap_nil, Xml.Token.events, textEvent_break]
    rfl
  rw [hevents]
  have hdepth : 2 < MAX_DEPTH := by decide
  have hstart := onStart_trkseg codec.unescape []
    (s := trackState name segments totalPoints totalSegments) hdepth hsegments
  refine .cons hstart ?_
  refine .append (reads_points hcodec hsegment name segments [] totalPoints (totalSegments + 1) hpoints) ?_
  exact .cons rfl .nil

theorem reads_segments (hcodec : codec.Faithful) {input : List (List GpxPoint)}
    (hinput : ∀ segment ∈ input, ∀ point ∈ segment, InRange point) (name : Option String)
    (segments : List GpxTrackSegment) (totalPoints totalSegments : Nat)
    (hpoints : totalPoints + (input.map List.length).sum ≤ MAX_POINTS)
    (hsegments : totalSegments + (parsedSegments input).length ≤ MAX_SEGMENTS)
    : Reads codec.unescape (trackState name segments totalPoints totalSegments)
        ((input.flatMap segmentTokens).flatMap Xml.Token.events)
        (trackState name (segments ++ parsedSegments input) (totalPoints + (input.map List.length).sum)
          (totalSegments + (parsedSegments input).length)) := by
  induction input generalizing segments totalPoints totalSegments with
  | nil =>
    have hnil : parsedSegments [] = [] := rfl
    rw [hnil, List.append_nil]
    exact .nil
  | cons segment input ih =>
    have hrest := fun segment hsegment => hinput segment (List.mem_cons_of_mem _ hsegment)
    rw [List.map_cons, List.sum_cons] at hpoints ⊢
    rw [List.flatMap_cons, List.flatMap_append]
    cases hne : segment.isEmpty with
    | true =>
      -- an empty segment is not written
      obtain rfl := List.isEmpty_iff.mp hne
      have hnone : parsedSegments ([] :: input) = parsedSegments input := rfl
      rw [List.length_nil, Nat.zero_add] at hpoints ⊢
      rw [hnone] at hsegments ⊢
      exact ih hrest segments totalPoints totalSegments hpoints hsegments
    | false =>
      have hsome : parsedSegments (segment :: input)
          = { points := segment.map parsedPoint } :: parsedSegments input := by
        rw [parsedSegments, List.filter_cons_of_pos (by simp [hne])]
        rfl
      rw [hsome, List.length_cons] at hsegments
      have hfirst := reads_segmentTokens hcodec hne (hinput segment List.mem_cons_self) name segments
        totalPoints totalSegments (by omega) (by omega)
      have hlater := ih hrest (segments ++ [{ points := segment.map parsedPoint }])
        (totalPoints + segment.length) (totalSegments + 1) (by omega) (by omega)
      rw [hsome, List.append_cons, List.length_cons, Nat.add_comm (parsedSegments input).length,
        ← Nat.add_assoc, ← Nat.add_assoc]
      exact hfirst.append hlater

-- the text of a name as it is read, still escaped
def rawName (name : String) : Option String :=
  if Xml.trimChars name.toList = [] then
    none
  else
    some (Xml.escape (Xml.trim name))

theorem textEvent_escape (name : String)
    : Xml.textEvent (Xml.escape name).toList = ((rawName name).map Xml.Event.text).toList := by
  have htrim : Xml.trimChars (Xml.escape name).toList
      = (Xml.trimChars name.toList).flatMap Xml.escapeChar := by
    rw [Xml.escape, String.toList_ofList, Xml.trimChars_escape]
  rw [Xml.textEvent, rawName, htrim]
  by_cases hblank : Xml.trimChars name.toList = []
  . rw [if_pos hblank, if_pos (Xml.escape_eq_nil.mpr hblank)]
    rfl
  . rw [if_neg hblank, if_neg (mt Xml.escape_eq_nil.mp hblank), Xml.escape, Xml.trim, String.toList_ofList]
    rfl

theorem reads_nameTokens (hcodec : codec.Faithful) (name : Option String)
    : Reads codec.unescape (trackState none [] 0 0) ((nameTokens name).flatMap Xml.Token.events)
        (trackState (parsedName name) [] 0 0) := by
  cases name with
  | none => exact .nil
  | some name =>
    have hevents : (nameTokens (some name)).flatMap Xml.Token.events
        = .start ⟨"name", []⟩ :: (((rawName name).map Xml.Event.text).toList ++ [.end_ "name"]) := by
      have htext : (if name = "" then [] else [Xml.Token.text (Xml.escape name)]).flatMap Xml.Token.events
          = ((rawName name).map Xml.Event.text).toList := by
        split
        . next hempty =>
          rw [hempty]
          decide
        . rw [List.flatMap_singleton, Xml.Token.events, textEvent_escape]
      rw [nameTokens, List.flatMap_cons, List.flatMap_append, htext]
      simp only [List.flatMap_cons, List.flatMap_nil, Xml.Token.events, textEvent_break]
      rfl
    have hdepth : 2 < MAX_DEPTH := by decide
    have hreads := reads_textElement codec.unescape "name" (by decide)
      (s := trackState none [] 0 0) hdepth rfl rfl [] (rawName name)
    rw [hevents]
    by_cases hblank : Xml.trimChars name.toList = []
    . have hraw : rawName name = none := if_pos hblank
      have hparsed : parsedName (some name) = none := if_pos hblank
      rw [hraw] at hreads ⊢
      rw [hparsed]
      exact hreads
    . have hraw : rawName name = some (Xml.escape (Xml.trim name)) := if_neg hblank
      have hparsed : parsedName (some name) = some (sanitizeMetadata name) := if_neg hblank
      have hname : sanitizeMetadata (Xml.trim name) = sanitizeMetadata name := by
        apply sanitizeMetadata_congr
        rw [trim, Xml.trim, String.toList_ofList, trimChars_xml, trim]
      rw [hraw] at hreads ⊢
      rw [hparsed]
      simp only [hcodec.unescape_escape, Option.getD_some, setText, hname] at hreads
      exact hreads

theorem reads_gpxTokens (hcodec : codec.Faithful) {input : GpxGeneratorInput}
    (hinput : ∀ segment ∈ input.segments, ∀ point ∈ segment, InRange point)
    (hpoints : (input.segments.map List.length).sum ≤ MAX_POINTS)
    (hsegments : (parsedSegments input.segments).length ≤ MAX_SEGMENTS)
    : Reads codec.unescape .start ((gpxTokens input).flatMap Xml.Token.events) { GpxParser.State.start with
      version := some .gpx11
      tracks := [{ name := parsedName input.activityName, segments := parsedSegments input.segments }]
      totalPoints := (input.segments.map List.length).sum
      totalSegments := (parsedSegments input.segments).length
    } := by
  have hhead : headTokens.flatMap Xml.Token.events = [.other, .start gpxTag, .start ⟨"trk", []⟩] := by
    decide
  have hfoot : footTokens.flatMap Xml.Token.events = [.end_ "trk", .end_ "gpx"] := by decide
  have hversion : readVersion none gpxTag.attributes = .ok (some .gpx11) := by
    simp only [readVersion, gpxTag, List.foldlM_cons, List.foldlM_nil]
    rfl
  have hgpx : onEvent codec.unescape .start (.start gpxTag)
      = .ok { GpxParser.State.start with depth := 1, version := some .gpx11 } := by
    have hdepth : GpxParser.State.start.depth < MAX_DEPTH := by decide
    have htag : gpxTag = ⟨"gpx", gpxTag.attributes⟩ := rfl
    have hnone : GpxParser.State.start.version = none := rfl
    rw [onStart_of_lt hdepth, htag, startElement_gpx, hnone, hversion]
    rfl
  have htrk : onEvent codec.unescape { GpxParser.State.start with depth := 1, version := some .gpx11 }
      (.start ⟨"trk", []⟩) = .ok (trackState none [] 0 0) := by
    have hdepth : 1 < MAX_DEPTH := by decide
    rw [onStart_of_lt hdepth, startElement_trk]
    rfl
  have hread := reads_segments hcodec hinput (parsedName input.activityName) []
    0 0 (by rw [Nat.zero_add]; exact hpoints)
    (by rw [Nat.zero_add]; exact hsegments)
  rw [Nat.zero_add, Nat.zero_add, List.nil_append] at hread
  rw [gpxTokens, List.flatMap_append, List.flatMap_append, List.flatMap_append, hhead, hfoot]
  refine .append (.cons rfl (.cons hgpx (.cons htrk .nil))) ?_
  refine .append (reads_nameTokens hcodec input.activityName) (.append hread ?_)
  exact .cons rfl (.cons rfl .nil)

theorem parseGpx_print_gpxTokens (hcodec : codec.Faithful) {input : GpxGeneratorInput}
    (hinput : ∀ segment ∈ input.segments, ∀ point ∈ segment, InRange point)
    (hsize : (Xml.print (gpxTokens input)).toUTF8.data.toList.length ≤ MAX_INPUT_SIZE)
    (hpoints : (input.segments.map List.length).sum ≤ MAX_POINTS)
    (hsegments : (parsedSegments input.segments).length ≤ MAX_SEGMENTS)
    : parseGpx codec (Xml.print (gpxTokens input)).toUTF8.data.toList = .ok {
      version := .gpx11
      metadata := { name := none, description := none, time := none }
      tracks := [{ name := parsedName input.activityName, segments := parsedSegments input.segments }]
      totalPoints := (input.segments.map List.length).sum
    } := by
  have hwellFormed := wellFormed_gpxTokens hinput
  generalize htext : Xml.print (gpxTokens input) = text at hsize ⊢
  have hdeclarations : (contains text "<!DOCTYPE" || contains text "<!ENTITY") = false := by
    have hnone := fun pat => Xml.no_declaration hwellFormed pat
    rw [htext] at hnone
    have hdocType : contains text "<!DOCTYPE" = false := decide_eq_false (hnone "DOCTYPE".toList)
    have hentity : contains text "<!ENTITY" = false := decide_eq_false (hnone "ENTITY".toList)
    rw [hdocType, hentity]
    rfl
  have hreads := reads_gpxTokens hcodec hinput hpoints hsegments
  rw [Reads, ← hcodec.read_print _ hwellFormed, htext] at hreads
  rw [parseGpx_toUTF8 codec hsize hdeclarations, hreads]
  rfl

/--
What has been generated is parsed.
-/
theorem parseGpx_generateGpx (codec : Xml.Codec) (hcodec : codec.Faithful) (input : GpxGeneratorInput)
    (hinput : ∀ segment ∈ input.segments, ∀ point ∈ segment, InRange point)
    (hsize : (generateGpx codec.escape input).toUTF8.data.toList.length ≤ MAX_INPUT_SIZE)
    (hpoints : (input.segments.map List.length).sum ≤ MAX_POINTS)
    (hsegments : (parsedSegments input.segments).length ≤ MAX_SEGMENTS)
    : parseGpx codec (generateGpx codec.escape input).toUTF8.data.toList = .ok {
      version := .gpx11
      metadata := { name := none, description := none, time := none }
      tracks := [{ name := parsedName input.activityName, segments := parsedSegments input.segments }]
      totalPoints := (input.segments.map List.length).sum
    } := by
  have hescape : codec.escape = Xml.escape := funext hcodec.escape_eq
  rw [hescape, generateGpx_eq] at hsize ⊢
  exact parseGpx_print_gpxTokens hcodec hinput hsize hpoints hsegments

def walk : GpxGeneratorInput where
  activityName := some " Up & down "
  segments := [[], [{ latitude := .fin 45, longitude := .fin (-15 / 2), elevation := some (.fin 100) }]]

theorem parseGpx_generateGpx_walk
    : parseGpx Xml.scanner (generateGpx Xml.scanner.escape walk).toUTF8.data.toList = .ok {
      version := .gpx11
      metadata := { name := none, description := none, time := none }
      tracks := [{
        name := some "Up & down"
        segments := [{
          points := [{ lat := .fin 45, lon := .fin (-15 / 2), elevation := some (.fin 100), time := none }]
        }]
      }]
      totalPoints := 1
    } := by
  have hinput : ∀ segment ∈ walk.segments, ∀ point ∈ segment, InRange point := by
    simp only [walk, List.mem_cons, List.not_mem_nil, or_false]
    rintro segment (rfl | rfl) point hpoint
    . cases hpoint
    . rw [List.mem_singleton.mp hpoint]
      exact ⟨by decide +kernel, by decide +kernel, by simp [F64.isFinite]⟩
  have hname : parsedName walk.activityName = some "Up & down" := by decide
  have hsegments : parsedSegments walk.segments = [{
      points := [{ lat := .fin 45, lon := .fin (-15 / 2), elevation := some (.fin 100), time := none }]
    }] := by decide +kernel
  have hparsed := parseGpx_generateGpx Xml.scanner Xml.faithful_scanner walk hinput (by decide +kernel)
    (by decide) (by decide)
  rw [hname, hsegments] at hparsed
  exact hparsed

end Exports
