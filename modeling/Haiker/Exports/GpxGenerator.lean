import Haiker.Exports.ExportWorker
import Haiker.Rust.F64

/-!
This module contains the GPX generator. `escape` is the one of `quick_xml`. Writing to a `String` does
not fail.
-/

open Rust

namespace Exports

structure GpxGeneratorInput where
  activityName : Option String
  segments : List (List GpxPoint)
  deriving DecidableEq

-- `s.trim_end_matches(c)`
def trimEndMatches (c : Char) (s : String) : String :=
  String.ofList (s.toList.reverse.dropWhile (· = c)).reverse

def formatCoordinate (value : F64) : String :=
  trimEndMatches '.' (trimEndMatches '0' (value.displayFixed 7))

def writeElevation : Option F64 → String
  | none => ""
  | some ele => "<ele>" ++ formatCoordinate ele ++ "</ele>"

def writePoint (point : GpxPoint) : String :=
  "<trkpt lat=\"" ++ formatCoordinate point.latitude ++ "\" lon=\"" ++ formatCoordinate point.longitude
    ++ "\">" ++ writeElevation point.elevation ++ "</trkpt>\n"

def writeSegment (segment : List GpxPoint) : String :=
  if segment.isEmpty then
    ""
  else
    "<trkseg>\n" ++ String.join (segment.map writePoint) ++ "</trkseg>\n"

section Name

variable (escape : String → String)

def writeName : Option String → String
  | none => ""
  | some name => "<name>" ++ escape name ++ "</name>\n"

def generateGpx (input : GpxGeneratorInput) : String :=
  "<?xml version=\"1.0\" encoding=\"UTF-8\"?>\n"
    ++ "<gpx xmlns=\"http://www.topografix.com/GPX/1/1\" version=\"1.1\" creator=\"Haiker\">\n"
    ++ "<trk>\n" ++ writeName escape input.activityName
    ++ String.join (input.segments.map writeSegment) ++ "</trk>\n" ++ "</gpx>\n"

end Name

example : formatCoordinate (.fin 100) = "100" := by decide

end Exports
