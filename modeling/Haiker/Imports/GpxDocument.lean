import Haiker.Imports.Lemmas.GpxParser
import Haiker.Xml.Content

/-!
This module contains GPX documents as trees, how such a tree is to be read, and where the parser may take something
for what it is not.
-/

open Rust

namespace Imports

namespace GpxParser

open Xml (Content Tag)

/--
A level of a GPX document whose elements are looked at.
-/
inductive Level where
  | gpx (version : GpxVersion)
  | metadata
  | trk
  | trkseg
  | trkpt
  deriving DecidableEq

namespace Level

-- the level of the content of an own element
def within? : Level → String → Option Level
  | gpx .gpx11, "metadata" => some metadata
  | gpx _, "trk" => some trk
  | trk, "trkseg" => some trkseg
  | trkseg, "trkpt" => some trkpt
  | _, _ => none

-- what the text of an own element is
def text? : Level → String → Option TextTarget
  | gpx .gpx10, "name" | metadata, "name" => some .metadataName
  | gpx .gpx10, "desc" | metadata, "desc" => some .metadataDesc
  | gpx .gpx10, "time" | metadata, "time" => some .metadataTime
  | trk, "name" => some .trackName
  | trkpt, "ele" => some .pointEle
  | trkpt, "time" => some .pointTime
  | _, _ => none

-- the elements that the parser waits for the text of
def listens : Level → List String
  | gpx _ | metadata => ["name", "desc", "time"]
  | trk | trkseg => ["name"]
  | trkpt => ["ele", "time"]

-- the same within the elements that are of no interest
def listensBelow : Level → List String
  | gpx _ => []
  | level => level.listens

-- whether an empty track point is taken for one of a segment
def takesPoints : Level → Bool
  | gpx _ | metadata | trk => false
  | trkseg | trkpt => true

end Level

/-
How a document is to be read.
-/

/--
A document with what is around its root. The content is missing if the root is an empty element.
-/
structure Document where
  prolog : Content
  tag : Tag
  content : Option Content
  epilog : Content
  deriving DecidableEq

def Document.events (document : Document) : List Xml.Event :=
  document.prolog.events
    ++ (match document.content with
      | some content => .start document.tag :: (content.events ++ [.end_ document.tag.localName])
      | none => [.empty document.tag])
    ++ document.epilog.events

-- what the metadata are the children of
def metadataContent (version : GpxVersion) (content : Content) : Content :=
  match version with
  | .gpx10 => content
  | .gpx11 => ((content.children "metadata").head?.map Prod.snd).getD .nil

section Reading

variable (unescape : String → Option String)

-- the text of the own child with this name
def childText (name : String) (content : Content) : Option String :=
  (content.children name).head?.bind fun child => child.2.text? unescape

def pointOf (child : Tag × Content) : ParseM GpxTrackPoint := do
  let point ← readPoint child.1.attributes
  return { point with
    elevation := (childText unescape "ele" child.2).bind fun text => F64.parse (trim text)
    time := (childText unescape "time" child.2).map trim
  }

def segmentOf (child : Tag × Content) : ParseM GpxTrackSegment := do
  return { points := ← (child.2.children "trkpt").mapM (pointOf unescape) }

def trackOf (child : Tag × Content) : ParseM GpxTrack := do
  let segments ← (child.2.children "trkseg").mapM (segmentOf unescape)
  return { name := (childText unescape "name" child.2).map sanitizeMetadata, segments }

def metadataOf (content : Content) : GpxMetadata where
  name := (childText unescape "name" content).map sanitizeMetadata
  description := (childText unescape "desc" content).map sanitizeMetadata
  time := (childText unescape "time" content).map trim

/--
Every datum is that of the element it is the child of.
-/
def Document.read (document : Document) (version : GpxVersion) : ParseM GpxParseResult := do
  let content := document.content.getD .nil
  let tracks ← (content.children "trk").mapM (trackOf unescape)
  return {
    version
    metadata := metadataOf unescape (metadataContent version content)
    tracks
    totalPoints := (tracks.map fun track => (track.segments.map (·.points.length)).sum).sum
  }

end Reading

/-
What is used of the schema.
-/

-- an own element that there may be only one of
def Level.single (level : Level) (name : String) : Bool :=
  (level.text? name).isSome || level.within? name = some .metadata

/--
The elements with a text contain no other ones, and the elements that there may be only one of are not
repeated.
-/
def conforms (level : Level) : Content → Bool
  | .nil => true
  | .element own tag content rest =>
    (if own then
      (match level.within? tag.localName with
        | some inner => conforms inner content
        | none => (level.text? tag.localName).isNone || content.isText)
        && (!level.single tag.localName || rest.children tag.localName = [])
    else
      true)
      && conforms level rest
  | .empty own tag rest =>
    (!(own && level.single tag.localName) || rest.children tag.localName = []) && conforms level rest
  | .text _ rest | .cData _ rest | .other rest => conforms level rest

/--
The version is that of the root, and there are no texts around it.
-/
structure Document.Conforms (document : Document) (version : GpxVersion) : Prop where
  prolog : document.prolog.isText = true
  name : document.tag.localName = "gpx"
  attributes : readVersion none document.tag.attributes = .ok (some version)
  content : conforms (.gpx version) (document.content.getD .nil) = true
  epilog : document.epilog.isText = true

/-
Where the parser takes nothing for what it is not.
-/

-- an element of no interest in which nothing is looked at
def ignored (level : Level) (name : String) (content : Content) : Bool :=
  if name ∈ level.listens then
    content.isSilent
  else
    content.avoids structural level.listensBelow (if level.takesPoints then ["trkpt"] else [])

/--
The texts that are read are in one piece, no track and no segment is an empty element, and nothing else is taken
for an element that the parser looks for.
-/
def unmistakable (level : Level) : Content → Bool
  | .nil => true
  | .element own tag content rest =>
    (match if own then level.within? tag.localName else none with
      | some inner => unmistakable inner content
      | none =>
        if own && (level.text? tag.localName).isSome then
          content.isUnbroken
        else
          tag.localName ∉ structural && ignored level tag.localName content)
      && unmistakable level rest
  | .empty own tag rest =>
    (match if own then level.within? tag.localName else none with
      | some inner => inner = .metadata || inner = .trkpt
      | none => !(level.takesPoints && tag.localName = "trkpt"))
      && unmistakable level rest
  | .text _ rest | .cData _ rest | .other rest => unmistakable level rest

def Document.Unmistakable (document : Document) (version : GpxVersion) : Prop :=
  unmistakable (.gpx version) (document.content.getD .nil) = true

instance (document : Document) (version : GpxVersion) : Decidable (document.Unmistakable version) :=
  inferInstanceAs (Decidable (_ = true))

end GpxParser

end Imports
