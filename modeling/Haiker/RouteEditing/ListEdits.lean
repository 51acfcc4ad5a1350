import Haiker.Lists.Replaced
import Haiker.RouteEditing.Lemmas.Panics
import Haiker.RouteEditing.WellFormed

/-!
This module contains what an operation means: which part of which list it replaces, and by what. What is
executed does that and nothing else.
-/

open Rust
open Lists (Replaced)

namespace RouteEditing

def pointAt (g : Geometry) (segmentIndex pointIndex : Nat) : Option RoutePoint :=
  g[segmentIndex]?.bind (·[pointIndex]?)

-- in segment `i` the points from `start` on and before `stop` are replaced by `new`
def EditsSegment (g : Geometry) (i start stop : Nat) (new : List RoutePoint) (g' : Geometry) : Prop :=
  ∃ segment segment', g[i]? = some segment ∧ Replaced segment start stop new segment'
    ∧ Replaced g i (i + 1) [segment'] g'

-- one copy of an end that the two share is left out
def Joined (first second joined : Segment) : Prop :=
  (∃ front a b rest, first = front ++ [a] ∧ second = b :: rest ∧ a.partialEq b = true
      ∧ joined = front ++ a :: rest)
    ∨ joined = first ++ second
      ∧ ∀ a b, first.getLast? = some a → second.head? = some b → a.partialEq b = false

/--
What the operation is for.
-/
def RouteOperation.Edits (g g' : Geometry) : RouteOperation → Prop
  | .movePoint i k newPosition =>
    ∃ point, pointAt g i.value k.value = some point
      ∧ EditsSegment g i.value k.value (k.value + 1) [{ point with coordinate := newPosition }] g'
  | .addPoint i k point => EditsSegment g i.value (k.value + 1) (k.value + 1) [point] g'
  | .deletePoint i k => EditsSegment g i.value k.value (k.value + 1) [] g'
  | .deleteSection i first last => EditsSegment g i.value first.value (last.value + 1) [] g'
  | .replaceSection i first last replacement =>
    EditsSegment g i.value first.value (last.value + 1) replacement g'
      ∧ replacement.head?.map (·.coordinate) = (pointAt g i.value first.value).map (·.coordinate)
      ∧ replacement.getLast?.map (·.coordinate) = (pointAt g i.value last.value).map (·.coordinate)
  | .splitSegment i k =>
    ∃ before point after, g[i.value]? = some (before ++ point :: after) ∧ before.length = k.value
      ∧ Replaced g i.value (i.value + 1) [before ++ [point], point :: after] g'
  | .joinSegments i j =>
    ∃ first second joined, g[i.value]? = some first ∧ g[j.value]? = some second
      ∧ j.value = i.value + 1 ∧ Joined first second joined
      ∧ Replaced g i.value (i.value + 2) [joined] g'

variable {g g' : Geometry} {segment : Segment} {i : Nat}

theorem pointAt_of_getElem? (hs : g[i]? = some segment) (k : Nat) : pointAt g i k = segment[k]? := by
  rw [pointAt, hs, Option.bind_some]

theorem editsSegment_set {start stop : Nat} {new segment' : List RoutePoint} (hs : g[i]? = some segment)
    (h : Replaced segment start stop new segment') : EditsSegment g i start stop new (g.set i segment') :=
  ⟨segment, segment', hs, h, Lists.replaced_set hs⟩

theorem joined_of_sharesEndpoint {first second : Segment} (hfirst : first ≠ []) (hsecond : second ≠ [])
    : Joined first second
        (if !first.isEmpty && !second.isEmpty && sharesEndpoint first second then
          first ++ second.drop 1
        else
          first ++ second) := by
  obtain ⟨front, a, rfl⟩ : ∃ front a, first = front ++ [a] :=
    ⟨_, _, (List.dropLast_append_getLast hfirst).symm⟩
  obtain ⟨b, rest, rfl⟩ := List.exists_cons_of_ne_nil hsecond
  have hshares : sharesEndpoint (front ++ [a]) (b :: rest) = a.partialEq b := by
    rw [sharesEndpoint, List.getLast?_concat, List.head?_cons]
  have hempty : (front ++ [a]).isEmpty = false := by simp
  rw [hshares, hempty, List.isEmpty_cons, Bool.not_false, Bool.true_and, Bool.true_and]
  split
  . next heq =>
    refine .inl ⟨front, a, b, rest, rfl, rfl, heq, ?_⟩
    rw [List.drop_one, List.tail_cons, List.append_assoc, List.singleton_append]
  . next hne =>
    refine .inr ⟨rfl, ?_⟩
    intro a' b' ha hb
    rw [List.getLast?_concat] at ha
    obtain rfl := Option.some.inj ha
    obtain rfl := Option.some.inj hb
    exact Bool.not_eq_true _ ▸ hne

-- the code compares the ends as `f64`, which on coordinates in range is to say that they are equal
theorem same_coordinate {point : Option RoutePoint} {k : Nat} (hne : point ≠ none)
    (hrange : ∀ p ∈ segment, p.coordinate.InRange)
    (h : ∀ p, point = some p → ∃ expected, segment[k]? = some expected
      ∧ p.coordinate.partialEq expected.coordinate = true)
    : point.map (·.coordinate) = segment[k]?.map (·.coordinate) := by
  obtain ⟨p, rfl⟩ := Option.ne_none_iff_exists'.mp hne
  obtain ⟨expected, hk, heq⟩ := h p rfl
  have hexpected := hrange expected (List.mem_of_getElem? hk)
  have hsymm : expected.coordinate.partialEq p.coordinate = true := by
    unfold Coordinate.partialEq at heq ⊢
    rw [Bool.and_eq_true, F64.partialEq_iff, F64.partialEq_iff] at heq
    rw [Bool.and_eq_true, F64.partialEq_iff, F64.partialEq_iff]
    obtain ⟨⟨hlat, hlat'⟩, hlon, hlon'⟩ := heq
    exact ⟨⟨hlat.symm, hlat ▸ hlat'⟩, hlon.symm, hlon ▸ hlon'⟩
  rw [Coordinate.partialEq_iff_of_inRange hexpected] at hsymm
  rw [hk, Option.map_some, Option.map_some, hsymm]

theorem Effect.edits {operation : RouteOperation} (hvalid : ValidGeometry g)
    (heffect : Effect g operation g') : operation.Edits g g' := by
  cases heffect with
  | @movePoint i k position segment point hs hp =>
    refine ⟨point, ?_, editsSegment_set hs (Lists.replaced_set hp)⟩
    rw [pointAt_of_getElem? hs, hp]
  | @addPoint i k point segment hs hk =>
    have hreplaced := Lists.replaced_take_drop [point] (Nat.le_refl (k.value + 1)) hk
    rw [List.append_assoc, List.singleton_append] at hreplaced
    exact editsSegment_set hs hreplaced
  | deletePoint hs hk hlen => exact editsSegment_set hs (Lists.replaced_eraseIdx hk)
  | @deleteSection i first last segment hs hle hlt hlen =>
    have hreplaced := Lists.replaced_take_drop [] (hle.trans (Nat.le_succ _)) hlt
    rw [List.append_nil] at hreplaced
    exact editsSegment_set hs hreplaced
  | @replaceSection i first last replacement segment hs hle hlt hmin hmax hstart hend =>
    have hrange := hvalid.inRange.of_getElem? hs
    have hne : replacement ≠ [] := by
      rintro rfl
      simp at hmin
    refine ⟨editsSegment_set hs (Lists.replaced_take_drop replacement (hle.trans (Nat.le_succ _)) hlt), ?_, ?_⟩
    . rw [pointAt_of_getElem? hs]
      apply same_coordinate _ hrange hstart
      simpa using hne
    . rw [pointAt_of_getElem? hs]
      apply same_coordinate _ hrange hend
      simpa using hne
  | @splitSegment i k segment hs hpos hlt =>
    obtain ⟨point, hk⟩ : ∃ point, segment[k.value]? = some point :=
      ⟨_, List.getElem?_eq_getElem (Nat.lt_of_succ_lt hlt)⟩
    obtain ⟨before, after, rfl, hlength⟩ := Lists.exists_append_of_getElem? hk
    have hi := (List.getElem?_eq_some_iff.mp hs).1
    have hreplaced := Lists.replaced_take_drop [before ++ [point], point :: after]
      (Nat.le_succ i.value) hi
    refine ⟨before, point, after, hs, hlength, ?_⟩
    rw [← hlength, List.take_length_add_append, List.take_succ_cons, List.take_zero, List.drop_left]
    rw [List.append_assoc] at hreplaced
    exact hreplaced
  | @joinSegments i j first second hadj hfirst hsecond =>
    have hleft := hvalid.wellShaped.of_getElem? hfirst
    have hright := hvalid.wellShaped.of_getElem? hsecond
    refine ⟨first, second, _, hfirst, ?_, hadj, joined_of_sharesEndpoint ?_ ?_,
      Lists.replaced_set_eraseIdx hfirst hsecond⟩
    . rw [hadj, hsecond]
    . rintro rfl
      simp at hleft
    . rintro rfl
      simp at hright

theorem edits_of_executeOperation {operation : RouteOperation} (hvalid : ValidGeometry g)
    (h : (executeOperation operation).run g = .ok () g') : operation.Edits g g' :=
  (effect_of_executeOperation h).edits hvalid

/--
The two halves are put together to what was split, unless the point that both of them have is not equal to
itself.
-/
theorem joinSegments_splitSegment (hvalid : ValidGeometry g) (hfits : FitsVec g) {i : SegmentIndex}
    {k : PointIndex} {point : RoutePoint} (hpoint : pointAt g i.value k.value = some point)
    (hsplit : (executeOperation (.splitSegment i k)).run g = .ok () g')
    : (executeOperation (.joinSegments i ⟨i.value + 1⟩)).run g' = .ok () g
        ↔ point.elevation ≠ some ⟨.nan⟩ := by
  obtain ⟨before, found, after, hs, hlength, hreplaced⟩ := edits_of_executeOperation hvalid hsplit
  rw [pointAt_of_getElem? hs, ← hlength, List.getElem?_append_right (Nat.le_refl _), Nat.sub_self,
    List.getElem?_cons_zero] at hpoint
  obtain rfl := Option.some.inj hpoint
  have hrange : found.coordinate.InRange := by
    apply hvalid.inRange.of_getElem? hs
    simp
  obtain ⟨front, old, back, rfl, hfront, hold, rfl⟩ := hreplaced
  have hi : i.value + 1 < usizeSize := by
    have hlt := (List.getElem?_eq_some_iff.mp hs).1
    exact add_lt_usizeSize (hlt.le.trans hfits.segments) (by decide)
  obtain ⟨segment, rfl⟩ : ∃ segment, old = [segment] := by
    apply List.length_eq_one_iff.mp
    omega
  have hsegment : segment = before ++ found :: after := by
    rw [List.append_assoc, List.getElem?_append_right (le_of_eq hfront), ← hfront, Nat.sub_self] at hs
    exact Option.some.inj hs
  have hfirst : (front ++ [before ++ [found], found :: after] ++ back)[i.value]?
      = some (before ++ [found]) := by
    rw [List.append_assoc, ← hfront, List.getElem?_append_right (Nat.le_refl _), Nat.sub_self]
    rfl
  have hsecond : (front ++ [before ++ [found], found :: after] ++ back)[i.value + 1]?
      = some (found :: after) := by
    rw [List.append_assoc, ← hfront, List.getElem?_append_right (Nat.le_add_right _ 1),
      Nat.add_sub_cancel_left]
    rfl
  have hjoin := run_joinSegments (j := ⟨i.value + 1⟩) hi rfl hfirst hsecond
  have hshares : sharesEndpoint (before ++ [found]) (found :: after) = found.partialEq found := by
    rw [sharesEndpoint, List.getLast?_concat, List.head?_cons]
  have hempty : (before ++ [found]).isEmpty = false := by simp
  have hset := Lists.set_eraseIdx_append front back (before ++ [found]) (found :: after)
  rw [hfront] at hset
  rw [hshares, hempty, List.isEmpty_cons, Bool.not_false, Bool.true_and, Bool.true_and, List.append_assoc,
    List.cons_append, List.singleton_append, hset] at hjoin
  have hwhole : front ++ [segment] ++ back = front ++ (before ++ found :: after) :: back := by
    rw [hsegment, List.append_assoc, List.singleton_append]
  rw [← RoutePoint.partialEq_self_iff hrange, executeOperation, hwhole, List.append_assoc,
    List.cons_append, List.singleton_append, hjoin]
  constructor
  . intro h
    by_contra hne
    rw [if_neg hne] at h
    injection h with _ h
    have hlength := congrArg List.length (List.cons.inj (List.append_cancel_left h)).1
    simp at hlength
  . intro heq
    rw [if_pos heq, List.drop_one, List.tail_cons, List.append_assoc, List.singleton_append]

/--
An operation does what it is for, and a split can be taken back by a join.
-/
theorem exact_effects {g : Geometry} (hvalid : ValidGeometry g) (hfits : FitsVec g)
    : (∀ operation g', (executeOperation operation).run g = .ok () g' → operation.Edits g g')
        ∧ ∀ i k g' point, (executeOperation (.splitSegment i k)).run g = .ok () g' →
          pointAt g i.value k.value = some point →
            ((executeOperation (.joinSegments i ⟨i.value + 1⟩)).run g' = .ok () g
              ↔ point.elevation ≠ some ⟨.nan⟩) := by
  constructor
  . intro operation g' h
    exact edits_of_executeOperation hvalid h
  . intro i k g' point hsplit hpoint
    exact joinSegments_splitSegment hvalid hfits hpoint hsplit

theorem exact_effects_sampleGeometry
    : (RouteOperation.deletePoint ⟨0⟩ ⟨1⟩).Edits RouteDraft.sampleGeometry
          [[RouteDraft.samplePoint 46, RouteDraft.samplePoint 48]]
        ∧ (executeOperation (.joinSegments ⟨0⟩ ⟨1⟩)).run [
            [RouteDraft.samplePoint 46, RouteDraft.samplePoint 47],
            [RouteDraft.samplePoint 47, RouteDraft.samplePoint 48]
          ] = .ok () RouteDraft.sampleGeometry := by
  have heffects := exact_effects RouteDraft.wellFormed_sampleDraft.geometry ⟨by decide, by decide⟩
  constructor
  . exact heffects.1 _ _ rfl
  . exact (heffects.2 ⟨0⟩ ⟨1⟩ _ (RouteDraft.samplePoint 47) rfl rfl).mpr (by decide)

-- the point in the middle has an elevation that is not a number
def sampleUnordered : Geometry :=
  [[RouteDraft.samplePoint 46, { RouteDraft.samplePoint 47 with elevation := some ⟨.nan⟩ },
    RouteDraft.samplePoint 48]]

theorem join_keeps_both_copies
    : ¬∀ g g' : Geometry, ValidGeometry g → ∀ (i : SegmentIndex) (k : PointIndex),
        (executeOperation (.splitSegment i k)).run g = .ok () g' →
          (executeOperation (.joinSegments i ⟨i.value + 1⟩)).run g' = .ok () g := by
  intro h
  have hvalid : ValidGeometry sampleUnordered := by
    apply ValidGeometry.of_built
    . rw [← validateGeometry_eq_ok_iff]
      rfl
    . decide
  have hsplit : (executeOperation (.splitSegment ⟨0⟩ ⟨1⟩)).run sampleUnordered = .ok () _ := rfl
  have hrestored := h sampleUnordered _ hvalid ⟨0⟩ ⟨1⟩ hsplit
  exact (joinSegments_splitSegment hvalid ⟨by decide, by decide⟩ rfl hsplit).mp hrestored rfl

end RouteEditing
