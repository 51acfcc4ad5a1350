import Haiker.RouteEditing.Lemmas.Operations

/-!
This module contains the properties of a geometry that every operation preserves: its shape, and any
property of its points that the operation's own points have.
-/

open Rust

namespace RouteEditing

/--
At least one segment, and at least two points in every segment.
-/
structure WellShaped (g : Geometry) : Prop where
  nonempty : g ≠ []
  two_le : ∀ segment ∈ g, 2 ≤ segment.length

def AllPoints (P : RoutePoint → Prop) (g : Geometry) : Prop :=
  ∀ segment ∈ g, ∀ point ∈ segment, P point

/--
The points the operation brings in have `P`.
-/
def RouteOperation.Supplies (P : RoutePoint → Prop) : RouteOperation → Prop
  | .movePoint _ _ newPosition => ∀ point, P point → P { point with coordinate := newPosition }
  | .addPoint _ _ point => P point
  | .replaceSection _ _ _ replacement => ∀ point ∈ replacement, P point
  | .deletePoint .. | .deleteSection .. | .splitSegment .. | .joinSegments .. => True

variable {P : RoutePoint → Prop} {g g' : Geometry} {segment : Segment} {i : Nat}

theorem WellShaped.of_getElem? (h : WellShaped g) (hs : g[i]? = some segment)
    : 2 ≤ segment.length := by
  apply h.two_le
  exact List.mem_of_getElem? hs

theorem WellShaped.set (h : WellShaped g) (hs : 2 ≤ segment.length)
    : WellShaped (g.set i segment) := by
  constructor
  . intro hnil
    apply h.nonempty
    simpa using hnil
  . intro s hmem
    cases List.mem_or_eq_of_mem_set hmem with
    | inl hold => apply h.two_le s hold
    | inr hnew =>
      rw [hnew]
      exact hs

theorem AllPoints.of_getElem? (h : AllPoints P g) (hs : g[i]? = some segment)
    : ∀ point ∈ segment, P point := by
  apply h
  exact List.mem_of_getElem? hs

theorem AllPoints.set (h : AllPoints P g) (hs : ∀ point ∈ segment, P point)
    : AllPoints P (g.set i segment) := by
  intro s hmem
  cases List.mem_or_eq_of_mem_set hmem with
  | inl hold => apply h s hold
  | inr hnew =>
    rw [hnew]
    exact hs

theorem AllPoints.eraseIdx (h : AllPoints P g) : AllPoints P (g.eraseIdx i) := by
  intro s hmem
  apply h
  exact List.mem_of_mem_eraseIdx hmem

theorem Effect.wellShaped {operation : RouteOperation} (heffect : Effect g operation g')
    (h : WellShaped g) : WellShaped g' := by
  cases heffect with
  | movePoint hs hp =>
    apply h.set
    rw [List.length_set]
    exact h.of_getElem? hs
  | addPoint hs hk =>
    apply h.set
    rw [List.length_append, List.length_cons, List.length_take, List.length_drop]
    have := h.of_getElem? hs
    omega
  | deletePoint hs hk hlen =>
    apply h.set
    rw [List.length_eraseIdx_of_lt hk]
    omega
  | deleteSection hs hle hlt hlen =>
    apply h.set
    rw [List.length_append, List.length_take, List.length_drop]
    omega
  | replaceSection hs hle hlt hmin hmax hstart hend =>
    apply h.set
    rw [List.length_append, List.length_append]
    omega
  | splitSegment hs hpos hlt =>
    constructor
    . simp
    . intro s hmem
      simp only [List.mem_append, List.mem_cons] at hmem
      rcases hmem with hbefore | rfl | rfl | hafter
      . apply h.two_le
        exact List.mem_of_mem_take hbefore
      . rw [List.length_take]
        omega
      . rw [List.length_drop]
        omega
      . apply h.two_le
        exact List.mem_of_mem_drop hafter
  | joinSegments hadj hfirst hsecond =>
    have hlen := h.of_getElem? hfirst
    constructor
    . obtain ⟨hlt, _⟩ := List.getElem?_eq_some_iff.mp hsecond
      rw [← List.length_pos_iff_ne_nil, List.length_set, List.length_eraseIdx_of_lt hlt]
      omega
    . intro s hmem
      cases List.mem_or_eq_of_mem_set hmem with
      | inl hold =>
        apply h.two_le
        exact List.mem_of_mem_eraseIdx hold
      | inr hnew =>
        rw [hnew]
        split
        all_goals
          rw [List.length_append]
          omega

theorem Effect.allPoints {operation : RouteOperation} (heffect : Effect g operation g')
    (hop : operation.Supplies P) (h : AllPoints P g) : AllPoints P g' := by
  cases heffect with
  | movePoint hs hp =>
    have hsegment := h.of_getElem? hs
    apply h.set
    intro p hmem
    cases List.mem_or_eq_of_mem_set hmem with
    | inl hold => apply hsegment p hold
    | inr hnew =>
      rw [hnew]
      apply hop
      apply hsegment
      exact List.mem_of_getElem? hp
  | addPoint hs hk =>
    have hsegment := h.of_getElem? hs
    apply h.set
    intro p hmem
    simp only [List.mem_append, List.mem_cons] at hmem
    rcases hmem with hbefore | rfl | hafter
    . apply hsegment
      exact List.mem_of_mem_take hbefore
    . exact hop
    . apply hsegment
      exact List.mem_of_mem_drop hafter
  | deletePoint hs hk hlen =>
    have hsegment := h.of_getElem? hs
    apply h.set
    intro p hmem
    apply hsegment
    exact List.mem_of_mem_eraseIdx hmem
  | deleteSection hs hle hlt hlen =>
    have hsegment := h.of_getElem? hs
    apply h.set
    intro p hmem
    apply hsegment
    cases List.mem_append.mp hmem with
    | inl hbefore => exact List.mem_of_mem_take hbefore
    | inr hafter => exact List.mem_of_mem_drop hafter
  | replaceSection hs hle hlt hmin hmax hstart hend =>
    have hsegment := h.of_getElem? hs
    apply h.set
    intro p hmem
    simp only [List.mem_append] at hmem
    rcases hmem with (hbefore | hnew) | hafter
    . apply hsegment
      exact List.mem_of_mem_take hbefore
    . apply hop p hnew
    . apply hsegment
      exact List.mem_of_mem_drop hafter
  | splitSegment hs hpos hlt =>
    have hsegment := h.of_getElem? hs
    intro s hmem
    simp only [List.mem_append, List.mem_cons] at hmem
    rcases hmem with hbefore | rfl | rfl | hafter
    . apply h
      exact List.mem_of_mem_take hbefore
    . intro p hp
      apply hsegment
      exact List.mem_of_mem_take hp
    . intro p hp
      apply hsegment
      exact List.mem_of_mem_drop hp
    . apply h
      exact List.mem_of_mem_drop hafter
  | joinSegments hadj hfirst hsecond =>
    have hleft := h.of_getElem? hfirst
    have hright := h.of_getElem? hsecond
    apply h.eraseIdx.set
    intro p hmem
    split at hmem
    . cases List.mem_append.mp hmem with
      | inl hp => apply hleft p hp
      | inr hp =>
        apply hright
        exact List.mem_of_mem_drop hp
    . cases List.mem_append.mp hmem with
      | inl hp => apply hleft p hp
      | inr hp => apply hright p hp

end RouteEditing
