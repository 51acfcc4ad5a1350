import Haiker.RouteEditing.ValueObjects

/-!
This module contains the operations on a draft's geometry and their execution. `execute_operation`
and the two index checks it makes read and write nothing of the draft but its geometry, so the state
of the methods here is the geometry alone. Every arm of the big match is a method of its own.
-/

open Rust

namespace RouteEditing

inductive RouteOperation where
  | movePoint (segmentIndex : SegmentIndex) (pointIndex : PointIndex) (newPosition : Coordinate)
  | addPoint (segmentIndex : SegmentIndex) (afterPointIndex : PointIndex) (point : RoutePoint)
  | deletePoint (segmentIndex : SegmentIndex) (pointIndex : PointIndex)
  | deleteSection (segmentIndex : SegmentIndex) (startIndex endIndex : PointIndex)
  | replaceSection (segmentIndex : SegmentIndex) (startIndex endIndex : PointIndex)
      (replacement : List RoutePoint)
  | splitSegment (segmentIndex : SegmentIndex) (atPointIndex : PointIndex)
  | joinSegments (firstSegmentIndex secondSegmentIndex : SegmentIndex)
  deriving DecidableEq

-- the derived `PartialEq`
def RouteOperation.partialEq : RouteOperation → RouteOperation → Bool
  | .movePoint i k position, .movePoint i' k' position' =>
    i = i' && k = k' && position.partialEq position'
  | .addPoint i k point, .addPoint i' k' point' => i = i' && k = k' && point.partialEq point'
  | .replaceSection i first last replacement, .replaceSection i' first' last' replacement' =>
    i = i' && first = first' && last = last'
      && replacement.length = replacement'.length
      && (replacement.zip replacement').all fun (point, point') => point.partialEq point'
  | .deletePoint i k, .deletePoint i' k' => i = i' && k = k'
  | .deleteSection i first last, .deleteSection i' first' last' =>
    i = i' && first = first' && last = last'
  | .splitSegment i k, .splitSegment i' k' => i = i' && k = k'
  | .joinSegments i j, .joinSegments i' j' => i = i' && j = j'
  | _, _ => false

abbrev GeometryM := Method RouteEditingError Geometry

def validateSegmentIdx (index : SegmentIndex) : GeometryM Unit := do
  let geometry ← get
  if index.value ≥ geometry.length then
    fail (.invalidSegmentIndex index.value geometry.length)

def validatePointIdx (seg : SegmentIndex) (pt : PointIndex) : GeometryM Unit := do
  validateSegmentIdx seg
  let segment ← index (← get) seg.value
  if pt.value ≥ segment.length then
    fail (.invalidPointIndex pt.value segment.length)

-- `self.geometry[index] = segment`
def setSegment (index : SegmentIndex) (segment : Segment) : GeometryM Unit :=
  modify fun geometry => geometry.set index.value segment

def movePoint (segmentIndex : SegmentIndex) (pointIndex : PointIndex) (newPosition : Coordinate)
    : GeometryM Unit := do
  validatePointIdx segmentIndex pointIndex
  let segment ← index (← get) segmentIndex.value
  let point ← index segment pointIndex.value
  setSegment segmentIndex (segment.set pointIndex.value { point with coordinate := newPosition })

def addPoint (segmentIndex : SegmentIndex) (afterPointIndex : PointIndex) (point : RoutePoint)
    : GeometryM Unit := do
  validatePointIdx segmentIndex afterPointIndex
  let insertPos ← addUsize afterPointIndex.value 1
  let segment ← index (← get) segmentIndex.value
  setSegment segmentIndex (← Rust.insert segment insertPos point)

def deletePoint (segmentIndex : SegmentIndex) (pointIndex : PointIndex) : GeometryM Unit := do
  validatePointIdx segmentIndex pointIndex
  let segment ← index (← get) segmentIndex.value
  if segment.length ≤ 2 then
    fail (.insufficientPoints 2 (← subUsize segment.length 1))
  let (_, rest) ← remove segment pointIndex.value
  setSegment segmentIndex rest

-- what `deleteSection` and `replaceSection` check of the section's ends
def checkSection (segment : Segment) (startIndex endIndex : PointIndex) : GeometryM Unit := do
  if startIndex.value > endIndex.value then
    fail (.invalidOperation "start_index must be <= end_index")
  if endIndex.value ≥ segment.length then
    fail (.invalidPointIndex endIndex.value segment.length)

def deleteSection (segmentIndex : SegmentIndex) (startIndex endIndex : PointIndex)
    : GeometryM Unit := do
  validateSegmentIdx segmentIndex
  let segment ← index (← get) segmentIndex.value
  checkSection segment startIndex endIndex
  let deleteCount ← addUsize (← subUsize endIndex.value startIndex.value) 1
  let remaining ← subUsize segment.length deleteCount
  if remaining < 2 then
    fail (.insufficientPoints 2 remaining)
  setSegment segmentIndex (← splice segment startIndex.value endIndex.value [])

-- the coordinate of `point`, an end of the replacement, has to be the one of the point it replaces
def checkEndpoint (position : String) (segment : Segment) (index : PointIndex)
    (point : Option RoutePoint) : GeometryM Unit := do
  if let some point := point then
    let expected ← Rust.index segment index.value
    if !point.coordinate.partialEq expected.coordinate then
      fail (.endpointContinuityViolation position expected.coordinate point.coordinate)

def replaceSection (segmentIndex : SegmentIndex) (startIndex endIndex : PointIndex)
    (replacement : List RoutePoint) : GeometryM Unit := do
  validateSegmentIdx segmentIndex
  let segment ← index (← get) segmentIndex.value
  checkSection segment startIndex endIndex
  if replacement.length > MAX_REPLACEMENT_POINTS then
    fail (.replacementTooLarge MAX_REPLACEMENT_POINTS replacement.length)
  if replacement.length < 2 then
    fail (.invalidOperation "replacement must contain at least 2 points")
  checkEndpoint "start" segment startIndex replacement.head?
  checkEndpoint "end" segment endIndex replacement.getLast?
  let deleteCount ← addUsize (← subUsize endIndex.value startIndex.value) 1
  let newLen ← addUsize (← subUsize segment.length deleteCount) replacement.length
  if newLen < 2 then
    fail (.insufficientPoints 2 newLen)
  setSegment segmentIndex (← splice segment startIndex.value endIndex.value replacement)

def splitSegment (segmentIndex : SegmentIndex) (atPointIndex : PointIndex) : GeometryM Unit := do
  validatePointIdx segmentIndex atPointIndex
  let segment ← index (← get) segmentIndex.value
  if atPointIndex.value = 0 then
    fail (.invalidOperation "cannot split at the first point of a segment")
  if atPointIndex.value = (← subUsize segment.length 1) then
    fail (.invalidOperation "cannot split at the last point of a segment")
  let firstPart ← sliceTo segment atPointIndex.value
  let secondPart ← sliceFrom segment atPointIndex.value
  if firstPart.length < 2 ∨ secondPart.length < 2 then
    fail (.insufficientPoints 2 (min firstPart.length secondPart.length))
  let (_, geometry) ← remove (← get) segmentIndex.value
  set geometry
  set (← Rust.insert (← get) segmentIndex.value secondPart)
  set (← Rust.insert (← get) segmentIndex.value firstPart)

-- `first.last() == second.first()`
def sharesEndpoint (first second : Segment) : Bool :=
  match first.getLast?, second.head? with
  | some a, some b => a.partialEq b
  | none, none => true
  | _, _ => false

def joinSegments (firstSegmentIndex secondSegmentIndex : SegmentIndex) : GeometryM Unit := do
  if secondSegmentIndex.value ≠ (← addUsize firstSegmentIndex.value 1) then
    fail (.invalidOperation "segments must be adjacent to join")
  validateSegmentIdx firstSegmentIndex
  validateSegmentIdx secondSegmentIndex
  let (second, geometry) ← remove (← get) secondSegmentIndex.value
  set geometry
  let first ← index (← get) firstSegmentIndex.value
  if !first.isEmpty && !second.isEmpty && sharesEndpoint first second then
    setSegment firstSegmentIndex (first ++ second.drop 1)
  else
    setSegment firstSegmentIndex (first ++ second)

def executeOperation (operation : RouteOperation) : GeometryM Unit :=
  match operation with
  | .movePoint segmentIndex pointIndex newPosition => movePoint segmentIndex pointIndex newPosition
  | .addPoint segmentIndex afterPointIndex point => addPoint segmentIndex afterPointIndex point
  | .deletePoint segmentIndex pointIndex => deletePoint segmentIndex pointIndex
  | .deleteSection segmentIndex startIndex endIndex =>
    deleteSection segmentIndex startIndex endIndex
  | .replaceSection segmentIndex startIndex endIndex replacement =>
    replaceSection segmentIndex startIndex endIndex replacement
  | .splitSegment segmentIndex atPointIndex => splitSegment segmentIndex atPointIndex
  | .joinSegments firstSegmentIndex secondSegmentIndex =>
    joinSegments firstSegmentIndex secondSegmentIndex

end RouteEditing
