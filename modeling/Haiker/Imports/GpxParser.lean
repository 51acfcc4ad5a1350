import Mathlib.Data.List.Infix
import Haiker.Imports.Orchestrator
import Haiker.Rust.ParseF64
import Haiker.Rust.Str
import Haiker.Xml.Reader

/-!
This module contains the GPX parser. The events come from `quick_xml` with `trim_text`, and the end of
the input is the end of the events.
-/

open Rust

namespace Imports

namespace GpxParser

abbrev ParseM := Except GpxParseError

-- 100 MiB
def MAX_INPUT_SIZE : Nat := 100 * 1024 * 1024

def MAX_DEPTH : Nat := 20

def MAX_POINTS : Nat := 500000

def MAX_SEGMENTS : Nat := 10000

def MAX_METADATA_LEN : Nat := 1000

def sanitizeMetadata (s : String) : String :=
  let cleaned := String.ofList ((trim s).toList.filter (!isControl ·))
  if MAX_METADATA_LEN < cleaned.utf8ByteSize then
    String.ofList (cleaned.toList.take MAX_METADATA_LEN)
  else
    cleaned

inductive TextTarget where
  | metadataName
  | metadataDesc
  | metadataTime
  | trackName
  | pointEle
  | pointTime
  deriving DecidableEq

structure State where
  depth : Nat
  version : Option GpxVersion
  metadata : GpxMetadata
  tracks : List GpxTrack
  totalPoints : Nat
  totalSegments : Nat
  inMetadata : Bool
  inTrk : Bool
  inTrkseg : Bool
  inTrkpt : Bool
  currentTrack : Option GpxTrack
  currentSegment : Option GpxTrackSegment
  currentPoint : Option GpxTrackPoint
  currentTextTarget : Option TextTarget
  deriving DecidableEq

def State.start : State where
  depth := 0
  version := none
  metadata := { name := none, description := none, time := none }
  tracks := []
  totalPoints := 0
  totalSegments := 0
  inMetadata := false
  inTrk := false
  inTrkseg := false
  inTrkpt := false
  currentTrack := none
  currentSegment := none
  currentPoint := none
  currentTextTarget := none

def readVersion (version : Option GpxVersion) (attributes : List (String × String))
    : ParseM (Option GpxVersion) :=
  attributes.foldlM (fun version (key, val) =>
    if key = "version" then
      if val = "1.0" then
        .ok (some .gpx10)
      else if val = "1.1" then
        .ok (some .gpx11)
      else
        .error ⟨.unsupportedVersion, "unsupported GPX version: " ++ val⟩
    else
      .ok version) version

-- `val.parse::<f64>()` with the error for it
def parseCoordinate (what val : String) : ParseM F64 :=
  match F64.parse val with
  | some value => .ok value
  | none => .error ⟨.invalidCoordinates, "invalid " ++ what ++ ": " ++ val⟩

-- the attributes `lat` and `lon`
def readCoordinates (attributes : List (String × String)) : ParseM (Option F64 × Option F64) :=
  attributes.foldlM (fun (lat, lon) (key, val) =>
    if key = "lat" then do
      return (some (← parseCoordinate "latitude" val), lon)
    else if key = "lon" then do
      return (lat, some (← parseCoordinate "longitude" val))
    else
      .ok (lat, lon)) (none, none)

def required (name : String) (value : Option F64) : ParseM F64 :=
  match value with
  | some value => .ok value
  | none => .error ⟨.invalidCoordinates, "trkpt missing " ++ name ++ " attribute"⟩

def readPoint (attributes : List (String × String)) : ParseM GpxTrackPoint := do
  let (lat, lon) ← readCoordinates attributes
  let lat ← required "lat" lat
  let lon ← required "lon" lon
  if lat.inRange (-90) 90 = false then
    throw ⟨.invalidCoordinates, "latitude " ++ lat.shortest.display ++ " out of range [-90, 90]"⟩
  else if lon.inRange (-180) 180 = false then
    throw ⟨.invalidCoordinates, "longitude " ++ lon.shortest.display ++ " out of range [-180, 180]"⟩
  else
    return { lat, lon, elevation := none, time := none }

def countPoint (s : State) : ParseM State :=
  if MAX_POINTS < s.totalPoints + 1 then
    .error ⟨.tooManyPoints, "exceeded maximum of " ++ toString MAX_POINTS ++ " track points"⟩
  else
    .ok { s with totalPoints := s.totalPoints + 1 }

def countSegment (s : State) : ParseM State :=
  if MAX_SEGMENTS < s.totalSegments + 1 then
    .error ⟨.tooManySegments, "exceeded maximum of " ++ toString MAX_SEGMENTS ++ " segments"⟩
  else
    .ok { s with totalSegments := s.totalSegments + 1 }

def enter (s : State) : ParseM State :=
  if MAX_DEPTH < s.depth + 1 then
    .error ⟨.xmlTooDeep, "XML depth exceeded maximum of " ++ toString MAX_DEPTH⟩
  else
    .ok { s with depth := s.depth + 1 }

-- what the elements are that are looked at, with the depth of the element in the state
def startElement (tag : Xml.Tag) (s : State) : ParseM State := do
  match tag.localName with
  | "gpx" => return { s with version := ← readVersion s.version tag.attributes }
  | "metadata" => return { s with inMetadata := true }
  | "name" =>
    if s.inTrkpt then
      return s
    else if s.inTrk then
      return { s with currentTextTarget := some .trackName }
    else if s.inMetadata || s.depth == 2 then
      return { s with currentTextTarget := some .metadataName }
    else
      return s
  | "desc" =>
    if s.inMetadata || (!s.inTrk && s.depth == 2) then
      return { s with currentTextTarget := some .metadataDesc }
    else
      return s
  | "time" =>
    if s.inTrkpt then
      return { s with currentTextTarget := some .pointTime }
    else if s.inMetadata || s.depth == 2 then
      return { s with currentTextTarget := some .metadataTime }
    else
      return s
  | "trk" => return { s with inTrk := true, currentTrack := some { name := none, segments := [] } }
  | "trkseg" =>
    let s ← countSegment { s with inTrkseg := true }
    return { s with currentSegment := some { points := [] } }
  | "trkpt" =>
    let s ← countPoint { s with inTrkpt := true }
    return { s with currentPoint := some (← readPoint tag.attributes) }
  | "ele" =>
    if s.inTrkpt then
      return { s with currentTextTarget := some .pointEle }
    else
      return s
  | _ => return s

def onStart (tag : Xml.Tag) (s : State) : ParseM State := do
  startElement tag (← enter s)

def endElement (localName : String) (s : State) : State :=
  match localName with
  | "metadata" => { s with inMetadata := false }
  | "trk" => { s with
      inTrk := false
      tracks := s.tracks ++ s.currentTrack.toList
      currentTrack := none
    }
  | "trkseg" => { s with
      inTrkseg := false
      currentTrack := s.currentTrack.map fun track =>
        { track with segments := track.segments ++ s.currentSegment.toList }
      currentSegment := none
    }
  | "trkpt" => { s with
      inTrkpt := false
      currentSegment := s.currentSegment.map fun seg =>
        { seg with points := seg.points ++ s.currentPoint.toList }
      currentPoint := none
    }
  | _ => { s with currentTextTarget := none }

def onEnd (localName : String) (s : State) : State :=
  let s := endElement localName s
  { s with depth := s.depth - 1 }

def onEmpty (tag : Xml.Tag) (s : State) : ParseM State :=
  if tag.localName = "trkpt" ∧ s.inTrkseg then do
    let s ← countPoint s
    let point ← readPoint tag.attributes
    return { s with
      currentSegment := s.currentSegment.map fun seg => { seg with points := seg.points ++ [point] }
    }
  else
    .ok s

def setText (target : TextTarget) (text : String) (s : State) : State :=
  match target with
  | .metadataName => { s with metadata := { s.metadata with name := some (sanitizeMetadata text) } }
  | .metadataDesc => { s with metadata := { s.metadata with description := some (sanitizeMetadata text) } }
  | .metadataTime => { s with metadata := { s.metadata with time := some (trim text) } }
  | .trackName => { s with
      currentTrack := s.currentTrack.map fun track => { track with name := some (sanitizeMetadata text) }
    }
  | .pointEle => { s with
      currentPoint := s.currentPoint.map fun pt => { pt with elevation := F64.parse (trim text) }
    }
  | .pointTime => { s with
      currentPoint := s.currentPoint.map fun pt => { pt with time := some (trim text) }
    }

section Events

variable (unescape : String → Option String)

def onText (raw : String) (s : State) : State :=
  match s.currentTextTarget with
  | some target => { setText target ((unescape raw).getD "") s with currentTextTarget := none }
  | none => s

def onEvent (s : State) : Xml.Event → ParseM State
  | .start tag => onStart tag s
  | .end_ localName => .ok (onEnd localName s)
  | .empty tag => onEmpty tag s
  | .text raw => .ok (onText unescape raw s)
  | .docType => .error ⟨.externalEntity, "DOCTYPE declarations are not allowed"⟩
  | .error => .error ⟨.invalidXml, "failed to parse XML"⟩
  | .cData _ | .other => .ok s

def readEvents (s : State) (events : List Xml.Event) : ParseM State := events.foldlM (onEvent unescape) s

end Events

-- at the end of the input
def finish (s : State) : ParseM GpxParseResult :=
  if 0 < s.depth then
    .error ⟨.invalidXml, "unexpected end of input: unclosed XML elements"⟩
  else
    match s.version with
    | none => .error ⟨.invalidXml, "no <gpx> element with version attribute found"⟩
    | some version =>
      .ok { version, metadata := s.metadata, tracks := s.tracks, totalPoints := s.totalPoints }

-- `s.contains(pat)`
def contains (s pat : String) : Bool := pat.toList <:+: s.toList

example : sanitizeMetadata "  Hello\x07World\n" = "HelloWorld" := by decide

end GpxParser

open GpxParser

def parseGpx (codec : Xml.Codec) (input : Bytes) : Except GpxParseError GpxParseResult :=
  if MAX_INPUT_SIZE < input.length then
    .error ⟨.inputTooLarge, "input size " ++ toString input.length ++ " bytes exceeds maximum of "
      ++ toString MAX_INPUT_SIZE ++ " bytes"⟩
  else
    match String.fromUTF8? ⟨input.toArray⟩ with
    | none => .error ⟨.invalidXml, "input is not valid UTF-8"⟩
    | some text =>
      if contains text "<!DOCTYPE" || contains text "<!ENTITY" then
        .error ⟨.externalEntity, "DOCTYPE/ENTITY declarations are not allowed"⟩
      else do
        finish (← readEvents codec.unescape .start (codec.read text))

end Imports
