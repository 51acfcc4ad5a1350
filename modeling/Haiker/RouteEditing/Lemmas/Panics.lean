import Haiker.Rust.Method
import Haiker.RouteEditing.Operations

/-!
This module contains that the operations do not panic on a geometry that fits into vectors, with one
exception: `joinSegments` computes the successor of an index that nobody has checked.
-/

open Rust

namespace RouteEditing

-- a vector has at most `isize::MAX` bytes
def vecCapacity : Nat := 2 ^ 63 - 1

structure FitsVec (g : Geometry) : Prop where
  segments : g.length ≤ vecCapacity
  points : ∀ segment ∈ g, segment.length ≤ vecCapacity

variable {g : Geometry} {post : Unit → Geometry → Prop}

theorem FitsVec.of_getElem? {i : Nat} {segment : Segment} (h : FitsVec g) (hs : g[i]? = some segment)
    : segment.length ≤ vecCapacity := h.points segment (List.mem_of_getElem? hs)

theorem add_lt_usizeSize {a b : Nat} (ha : a ≤ vecCapacity) (hb : b ≤ vecCapacity) : a + b < usizeSize := by
  have hcapacity : vecCapacity + vecCapacity < usizeSize := by decide
  omega

theorem panicFree_validateSegmentIdx {i : SegmentIndex} (h : i.value < g.length → post () g)
    : PanicFree (validateSegmentIdx i) g post := by
  apply PanicFree.bind
  apply panicFree_get
  apply panicFree_ite
  . intro _
    exact panicFree_fail _
  . intro hlt
    apply panicFree_pure
    exact h (Nat.not_le.mp hlt)

theorem panicFree_validatePointIdx {i : SegmentIndex} {k : PointIndex}
    (h : ∀ segment, g[i.value]? = some segment → k.value < segment.length → post () g)
    : PanicFree (validatePointIdx i k) g post := by
  apply PanicFree.bind
  apply panicFree_validateSegmentIdx
  intro hi
  apply PanicFree.bind
  apply panicFree_get
  apply PanicFree.bind
  apply panicFree_index hi
  intro segment hs
  apply panicFree_ite
  . intro _
    exact panicFree_fail _
  . intro hlt
    apply panicFree_pure
    exact h segment hs (Nat.not_le.mp hlt)

theorem panicFree_setSegment {i : SegmentIndex} {segment : Segment}
    : PanicFree (setSegment i segment) g fun _ _ => True :=
  panicFree_modify trivial

theorem panicFree_movePoint (i : SegmentIndex) (k : PointIndex) (position : Coordinate)
    : PanicFree (movePoint i k position) g fun _ _ => True := by
  apply PanicFree.bind
  apply panicFree_validatePointIdx
  intro segment hs hk
  apply PanicFree.bind
  apply panicFree_get
  apply PanicFree.bind
  apply panicFree_index (List.getElem?_eq_some_iff.mp hs).1
  intro found hfound
  obtain rfl := Option.some.inj (hs.symm.trans hfound)
  apply PanicFree.bind
  apply panicFree_index hk
  intro point _
  exact panicFree_setSegment

theorem panicFree_addPoint (h : FitsVec g) (i : SegmentIndex) (k : PointIndex) (point : RoutePoint)
    : PanicFree (addPoint i k point) g fun _ _ => True := by
  apply PanicFree.bind
  apply panicFree_validatePointIdx
  intro segment hs hk
  have hlen := h.of_getElem? hs
  apply PanicFree.bind
  apply panicFree_addUsize (add_lt_usizeSize (hk.le.trans hlen) (by decide))
  apply PanicFree.bind
  apply panicFree_get
  apply PanicFree.bind
  apply panicFree_index (List.getElem?_eq_some_iff.mp hs).1
  intro found hfound
  obtain rfl := Option.some.inj (hs.symm.trans hfound)
  apply PanicFree.bind
  apply panicFree_insert hk
  exact panicFree_setSegment

theorem panicFree_deletePoint (i : SegmentIndex) (k : PointIndex)
    : PanicFree (deletePoint i k) g fun _ _ => True := by
  apply PanicFree.bind
  apply panicFree_validatePointIdx
  intro segment hs hk
  apply PanicFree.bind
  apply panicFree_get
  apply PanicFree.bind
  apply panicFree_index (List.getElem?_eq_some_iff.mp hs).1
  intro found hfound
  obtain rfl := Option.some.inj (hs.symm.trans hfound)
  apply panicFree_ite
  . intro _
    apply PanicFree.bind
    apply panicFree_subUsize (Nat.one_le_of_lt hk)
    exact panicFree_fail _
  . intro _
    apply PanicFree.bind
    apply panicFree_remove hk
    intro point
    exact panicFree_setSegment

theorem panicFree_checkSection {segment : Segment} {first last : PointIndex}
    (h : first.value ≤ last.value → last.value < segment.length → post () g)
    : PanicFree (checkSection segment first last) g post := by
  apply panicFree_ite
  . intro _
    exact panicFree_fail _
  . intro hle
    apply panicFree_ite
    . intro _
      exact panicFree_fail _
    . intro hlt
      apply panicFree_pure
      exact h (Nat.not_lt.mp hle) (Nat.not_le.mp hlt)

theorem panicFree_deleteSection (h : FitsVec g) (i : SegmentIndex) (first last : PointIndex)
    : PanicFree (deleteSection i first last) g fun _ _ => True := by
  apply PanicFree.bind
  apply panicFree_validateSegmentIdx
  intro hi
  apply PanicFree.bind
  apply panicFree_get
  apply PanicFree.bind
  apply panicFree_index hi
  intro segment hs
  have hlen := h.of_getElem? hs
  apply PanicFree.bind
  apply panicFree_checkSection
  intro hle hlt
  apply PanicFree.bind
  apply panicFree_subUsize hle
  apply PanicFree.bind
  apply panicFree_addUsize (add_lt_usizeSize (by omega) (by decide))
  apply PanicFree.bind
  apply panicFree_subUsize (by omega)
  apply panicFree_ite
  . intro _
    exact panicFree_fail _
  . intro _
    apply PanicFree.bind
    apply panicFree_splice (by omega) hlt
    exact panicFree_setSegment

theorem panicFree_checkEndpoint {position : String} {segment : Segment} {k : PointIndex}
    {point : Option RoutePoint} (hk : k.value < segment.length) (h : post () g)
    : PanicFree (checkEndpoint position segment k point) g post := by
  cases point with
  | none => exact panicFree_pure h
  | some point =>
    apply PanicFree.bind
    apply panicFree_index hk
    intro expected _
    apply panicFree_ite
    . intro _
      exact panicFree_fail _
    . intro _
      exact panicFree_pure h

theorem panicFree_replaceSection (h : FitsVec g) (i : SegmentIndex) (first last : PointIndex)
    (replacement : List RoutePoint)
    : PanicFree (replaceSection i first last replacement) g fun _ _ => True := by
  apply PanicFree.bind
  apply panicFree_validateSegmentIdx
  intro hi
  apply PanicFree.bind
  apply panicFree_get
  apply PanicFree.bind
  apply panicFree_index hi
  intro segment hs
  have hlen := h.of_getElem? hs
  apply PanicFree.bind
  apply panicFree_checkSection
  intro hle hlt
  apply panicFree_ite
  . intro _
    exact panicFree_fail _
  . intro hmax
    have hcapacity : MAX_REPLACEMENT_POINTS ≤ vecCapacity := by decide
    apply panicFree_ite
    . intro _
      exact panicFree_fail _
    . intro _
      apply PanicFree.bind
      apply panicFree_checkEndpoint (hle.trans_lt hlt)
      apply PanicFree.bind
      apply panicFree_checkEndpoint hlt
      apply PanicFree.bind
      apply panicFree_subUsize hle
      apply PanicFree.bind
      apply panicFree_addUsize (add_lt_usizeSize (by omega) (by decide))
      apply PanicFree.bind
      apply panicFree_subUsize (by omega)
      apply PanicFree.bind
      apply panicFree_addUsize (add_lt_usizeSize (by omega) (by omega))
      apply panicFree_ite
      . intro _
        exact panicFree_fail _
      . intro _
        apply PanicFree.bind
        apply panicFree_splice (by omega) hlt
        exact panicFree_setSegment

theorem panicFree_splitSegment (i : SegmentIndex) (k : PointIndex)
    : PanicFree (splitSegment i k) g fun _ _ => True := by
  apply PanicFree.bind
  apply panicFree_validatePointIdx
  intro segment hs hk
  have hi := (List.getElem?_eq_some_iff.mp hs).1
  apply PanicFree.bind
  apply panicFree_get
  apply PanicFree.bind
  apply panicFree_index hi
  intro found hfound
  obtain rfl := Option.some.inj (hs.symm.trans hfound)
  apply panicFree_ite
  . intro _
    exact panicFree_fail _
  . intro _
    apply PanicFree.bind
    apply panicFree_subUsize (Nat.one_le_of_lt hk)
    apply panicFree_ite
    . intro _
      exact panicFree_fail _
    . intro _
      apply PanicFree.bind
      apply panicFree_sliceTo hk
      apply PanicFree.bind
      apply panicFree_sliceFrom hk.le
      apply panicFree_ite
      . intro _
        exact panicFree_fail _
      . intro _
        apply PanicFree.bind
        apply panicFree_get
        apply PanicFree.bind
        apply panicFree_remove hi
        intro removed
        have hrest : i.value ≤ (g.eraseIdx i.value).length := by
          rw [List.length_eraseIdx_of_lt hi]
          omega
        apply PanicFree.bind
        apply panicFree_set
        apply PanicFree.bind
        apply panicFree_get
        apply PanicFree.bind
        apply panicFree_insert hrest
        apply PanicFree.bind
        apply panicFree_set
        apply PanicFree.bind
        apply panicFree_get
        apply PanicFree.bind
        apply panicFree_insert
        . rw [List.length_append, List.length_take, List.length_cons]
          omega
        . exact panicFree_set trivial

theorem panicFree_joinSegments {i : SegmentIndex} (hi : i.value + 1 < usizeSize) (j : SegmentIndex)
    : PanicFree (joinSegments i j) g fun _ _ => True := by
  apply PanicFree.bind
  apply panicFree_addUsize hi
  apply panicFree_ite
  . intro _
    exact panicFree_fail _
  . intro hadjacent
    apply PanicFree.bind
    apply panicFree_validateSegmentIdx
    intro hfirst
    apply PanicFree.bind
    apply panicFree_validateSegmentIdx
    intro hsecond
    apply PanicFree.bind
    apply panicFree_get
    apply PanicFree.bind
    apply panicFree_remove hsecond
    intro second
    apply PanicFree.bind
    apply panicFree_set
    apply PanicFree.bind
    apply panicFree_get
    apply PanicFree.bind
    apply panicFree_index
    . rw [List.length_eraseIdx_of_lt hsecond]
      omega
    . intro first _
      apply panicFree_ite
      . intro _
        exact panicFree_setSegment
      . intro _
        exact panicFree_setSegment

theorem joinSegments_panic {i : SegmentIndex} (hi : usizeSize ≤ i.value + 1) (j : SegmentIndex)
    : outcome (joinSegments i j) g = .error .panic := by
  apply outcome_of_run_error
  unfold joinSegments
  rw [EStateM.run_bind, run_addUsize_overflow hi]

theorem executeOperation_panicFree (h : FitsVec g) {operation : RouteOperation}
    (hjoin : ∀ i j, operation = .joinSegments i j → i.value + 1 < usizeSize)
    : PanicFree (executeOperation operation) g fun _ _ => True := by
  cases operation with
  | movePoint i k position => exact panicFree_movePoint i k position
  | addPoint i k point => exact panicFree_addPoint h i k point
  | deletePoint i k => exact panicFree_deletePoint i k
  | deleteSection i first last => exact panicFree_deleteSection h i first last
  | replaceSection i first last replacement => exact panicFree_replaceSection h i first last replacement
  | splitSegment i k => exact panicFree_splitSegment i k
  | joinSegments i j => exact panicFree_joinSegments (hjoin i j rfl) j

end RouteEditing
