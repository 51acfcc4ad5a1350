import Haiker.RouteEditing.Operations

/-!
This module contains what each operation does to a geometry: it either returns an error and leaves
the geometry as it was, or it has the effect given here. Only `joinSegments` can panic.
-/

open Rust

namespace RouteEditing

variable {g : Geometry} {segment : Segment}

theorem validateSegmentIdx_of_some {i : SegmentIndex} (h : g[i.value]? = some segment)
    : (validateSegmentIdx i).run g = .ok () g := by
  obtain ⟨hlt, _⟩ := List.getElem?_eq_some_iff.mp h
  have : ¬ i.value ≥ g.length := by omega
  simp [validateSegmentIdx, this]

theorem validateSegmentIdx_of_none {i : SegmentIndex} (h : g[i.value]? = none)
    : (validateSegmentIdx i).run g = .error (.err (.invalidSegmentIndex i.value g.length)) g := by
  have : i.value ≥ g.length := List.getElem?_eq_none_iff.mp h
  simp [validateSegmentIdx, this]

theorem validatePointIdx_of_some {i : SegmentIndex} {k : PointIndex} {point : RoutePoint}
    (hs : g[i.value]? = some segment) (hp : segment[k.value]? = some point)
    : (validatePointIdx i k).run g = .ok () g := by
  obtain ⟨hlt, _⟩ := List.getElem?_eq_some_iff.mp hp
  have : ¬ k.value ≥ segment.length := by omega
  simp [validatePointIdx, validateSegmentIdx_of_some hs, run_index hs, this]

theorem validatePointIdx_of_none {i : SegmentIndex} {k : PointIndex}
    (hs : g[i.value]? = some segment) (hp : segment[k.value]? = none)
    : (validatePointIdx i k).run g
        = .error (.err (.invalidPointIndex k.value segment.length)) g := by
  have : k.value ≥ segment.length := List.getElem?_eq_none_iff.mp hp
  simp [validatePointIdx, validateSegmentIdx_of_some hs, run_index hs, this]

theorem validatePointIdx_of_no_segment {i : SegmentIndex} {k : PointIndex}
    (hs : g[i.value]? = none)
    : (validatePointIdx i k).run g = .error (.err (.invalidSegmentIndex i.value g.length)) g := by
  simp [validatePointIdx, validateSegmentIdx_of_none hs]

@[simp]
theorem run_setSegment (i : SegmentIndex) (segment : Segment)
    : (setSegment i segment).run g = .ok () (g.set i.value segment) := by
  simp [setSegment]

theorem movePoint_cases (i : SegmentIndex) (k : PointIndex) (position : Coordinate) (g : Geometry)
    : (∃ e, (movePoint i k position).run g = .error e g)
        ∨
      ∃ segment point, g[i.value]? = some segment ∧ segment[k.value]? = some point
        ∧ (movePoint i k position).run g
            = .ok () (g.set i.value (segment.set k.value { point with coordinate := position })) := by
  cases hs : g[i.value]? with
  | none =>
    apply Or.inl
    simp [movePoint, validatePointIdx_of_no_segment hs]
  | some segment =>
    cases hp : segment[k.value]? with
    | none =>
      apply Or.inl
      simp [movePoint, validatePointIdx_of_none hs hp]
    | some point =>
      apply Or.inr
      refine ⟨segment, point, rfl, hp, ?_⟩
      simp [movePoint, validatePointIdx_of_some hs hp, run_index hs, run_index hp]

theorem addPoint_cases (i : SegmentIndex) (k : PointIndex) (point : RoutePoint) (g : Geometry)
    : (∃ e, (addPoint i k point).run g = .error e g)
        ∨
      ∃ segment, g[i.value]? = some segment ∧ k.value < segment.length
        ∧ (addPoint i k point).run g
            = .ok () (g.set i.value
                (segment.take (k.value + 1) ++ point :: segment.drop (k.value + 1))) := by
  cases hs : g[i.value]? with
  | none =>
    apply Or.inl
    simp [addPoint, validatePointIdx_of_no_segment hs]
  | some segment =>
    cases hp : segment[k.value]? with
    | none =>
      apply Or.inl
      simp [addPoint, validatePointIdx_of_none hs hp]
    | some after =>
      obtain ⟨hlt, _⟩ := List.getElem?_eq_some_iff.mp hp
      by_cases hfit : k.value + 1 < usizeSize
      . apply Or.inr
        refine ⟨segment, rfl, hlt, ?_⟩
        simp [addPoint, validatePointIdx_of_some hs hp, run_addUsize hfit, run_index hs,
          run_insert (Nat.succ_le_of_lt hlt)]
      . apply Or.inl
        simp [addPoint, validatePointIdx_of_some hs hp, run_addUsize_overflow (Nat.not_lt.mp hfit)]

theorem deletePoint_cases (i : SegmentIndex) (k : PointIndex) (g : Geometry)
    : (∃ e, (deletePoint i k).run g = .error e g)
        ∨
      ∃ segment, g[i.value]? = some segment ∧ k.value < segment.length ∧ 2 < segment.length
        ∧ (deletePoint i k).run g = .ok () (g.set i.value (segment.eraseIdx k.value)) := by
  cases hs : g[i.value]? with
  | none =>
    apply Or.inl
    simp [deletePoint, validatePointIdx_of_no_segment hs]
  | some segment =>
    cases hp : segment[k.value]? with
    | none =>
      apply Or.inl
      simp [deletePoint, validatePointIdx_of_none hs hp]
    | some point =>
      obtain ⟨hlt, _⟩ := List.getElem?_eq_some_iff.mp hp
      by_cases hlen : segment.length ≤ 2
      . apply Or.inl
        have : 1 ≤ segment.length := by omega
        simp [deletePoint, validatePointIdx_of_some hs hp, run_index hs, hlen, run_subUsize this]
      . apply Or.inr
        refine ⟨segment, rfl, hlt, by omega, ?_⟩
        simp [deletePoint, validatePointIdx_of_some hs hp, run_index hs, hlen, run_remove hp]

theorem checkSection_cases (segment : Segment) (first last : PointIndex) (g : Geometry)
    : (∃ e, (checkSection segment first last).run g = .error e g)
        ∨
      (first.value ≤ last.value ∧ last.value < segment.length
        ∧ (checkSection segment first last).run g = .ok () g) := by
  by_cases hle : first.value ≤ last.value
  . by_cases hlt : last.value < segment.length
    . apply Or.inr
      refine ⟨hle, hlt, ?_⟩
      simp [checkSection, Nat.not_lt.mpr hle, Nat.not_le.mpr hlt]
    . apply Or.inl
      simp [checkSection, Nat.not_lt.mpr hle, Nat.not_lt.mp hlt]
  . apply Or.inl
    simp [checkSection, Nat.not_le.mp hle]

theorem deleteSection_cases (i : SegmentIndex) (first last : PointIndex) (g : Geometry)
    : (∃ e, (deleteSection i first last).run g = .error e g)
        ∨
      ∃ segment, g[i.value]? = some segment ∧ first.value ≤ last.value
        ∧ last.value < segment.length ∧ last.value - first.value + 3 ≤ segment.length
        ∧ (deleteSection i first last).run g
            = .ok () (g.set i.value
                (segment.take first.value ++ segment.drop (last.value + 1))) := by
  cases hs : g[i.value]? with
  | none =>
    apply Or.inl
    simp [deleteSection, validateSegmentIdx_of_none hs]
  | some segment =>
    cases checkSection_cases segment first last g with
    | inl herr =>
      obtain ⟨e, herr⟩ := herr
      apply Or.inl
      simp [deleteSection, validateSegmentIdx_of_some hs, run_index hs, herr]
    | inr hok =>
      obtain ⟨hle, hlt, hok⟩ := hok
      by_cases hfit : last.value - first.value + 1 < usizeSize
      . have hcount : last.value - first.value + 1 ≤ segment.length := by omega
        by_cases hshort : segment.length - (last.value - first.value + 1) < 2
        . apply Or.inl
          simp only [deleteSection, EStateM.run_bind, EStateM.run_get, validateSegmentIdx_of_some hs,
            run_index hs, hok, run_subUsize hle, run_addUsize hfit, run_subUsize hcount,
            if_pos hshort, run_fail]
          exact ⟨_, rfl⟩
        . apply Or.inr
          refine ⟨segment, rfl, hle, hlt, by omega, ?_⟩
          have hle' : first.value ≤ last.value + 1 := by omega
          simp only [deleteSection, EStateM.run_bind, EStateM.run_get, validateSegmentIdx_of_some hs,
            run_index hs, hok, run_subUsize hle, run_addUsize hfit, run_subUsize hcount,
            if_neg hshort, run_splice hle' hlt]
          simp
      . apply Or.inl
        simp [deleteSection, validateSegmentIdx_of_some hs, run_index hs, hok, run_subUsize hle,
          run_addUsize_overflow (Nat.not_lt.mp hfit)]

theorem checkEndpoint_cases (position : String) (segment : Segment) (k : PointIndex)
    (point : Option RoutePoint) (g : Geometry)
    : (∃ e, (checkEndpoint position segment k point).run g = .error e g)
        ∨
      ((∀ p, point = some p → ∃ expected, segment[k.value]? = some expected
          ∧ p.coordinate.partialEq expected.coordinate = true)
        ∧ (checkEndpoint position segment k point).run g = .ok () g) := by
  cases point with
  | none =>
    apply Or.inr
    simp [checkEndpoint]
  | some p =>
    cases hk : segment[k.value]? with
    | none =>
      apply Or.inl
      simp [checkEndpoint, Rust.index, hk]
    | some expected =>
      cases heq : p.coordinate.partialEq expected.coordinate with
      | false =>
        apply Or.inl
        simp [checkEndpoint, run_index hk, heq]
      | true =>
        apply Or.inr
        simp [checkEndpoint, run_index hk, heq]

theorem run_replaceSection {i : SegmentIndex} {first last : PointIndex} {replacement : List RoutePoint}
    (hs : g[i.value]? = some segment) (hle : first.value ≤ last.value) (hlt : last.value < segment.length)
    (hmin : ¬replacement.length < 2) (hmax : ¬replacement.length > MAX_REPLACEMENT_POINTS)
    (hstart : (checkEndpoint "start" segment first replacement.head?).run g = .ok () g)
    (hend : (checkEndpoint "end" segment last replacement.getLast?).run g = .ok () g)
    (hfit : last.value - first.value + 1 < usizeSize)
    (hfit' : segment.length - (last.value - first.value + 1) + replacement.length < usizeSize)
    : (replaceSection i first last replacement).run g
        = .ok () (g.set i.value
            (segment.take first.value ++ replacement ++ segment.drop (last.value + 1))) := by
  have hok : (checkSection segment first last).run g = .ok () g := by
    simp [checkSection, Nat.not_lt.mpr hle, Nat.not_le.mpr hlt]
  have hle' : first.value ≤ last.value + 1 := by omega
  have hcount : last.value - first.value + 1 ≤ segment.length := by omega
  have hlen : ¬ segment.length - (last.value - first.value + 1) + replacement.length < 2 := by omega
  simp only [replaceSection, EStateM.run_bind, EStateM.run_get, validateSegmentIdx_of_some hs, run_index hs, hok,
    if_neg hmax, if_neg hmin, hstart, hend, run_subUsize hle, run_addUsize hfit,
    run_subUsize hcount, run_addUsize hfit', if_neg hlen, run_splice hle' hlt]
  simp

theorem replaceSection_cases (i : SegmentIndex) (first last : PointIndex)
    (replacement : List RoutePoint) (g : Geometry)
    : (∃ e, (replaceSection i first last replacement).run g = .error e g)
        ∨
      ∃ segment, g[i.value]? = some segment ∧ first.value ≤ last.value
        ∧ last.value < segment.length ∧ 2 ≤ replacement.length
        ∧ replacement.length ≤ MAX_REPLACEMENT_POINTS
        ∧ (∀ p, replacement.head? = some p → ∃ expected, segment[first.value]? = some expected
            ∧ p.coordinate.partialEq expected.coordinate = true)
        ∧ (∀ p, replacement.getLast? = some p → ∃ expected, segment[last.value]? = some expected
            ∧ p.coordinate.partialEq expected.coordinate = true)
        ∧ (replaceSection i first last replacement).run g
            = .ok () (g.set i.value
                (segment.take first.value ++ replacement ++ segment.drop (last.value + 1))) := by
  cases hs : g[i.value]? with
  | none =>
    apply Or.inl
    simp [replaceSection, validateSegmentIdx_of_none hs]
  | some segment =>
    have hseg := validateSegmentIdx_of_some hs
    cases checkSection_cases segment first last g with
    | inl herr =>
      obtain ⟨e, herr⟩ := herr
      apply Or.inl
      simp [replaceSection, hseg, run_index hs, herr]
    | inr hok =>
      obtain ⟨hle, hlt, hok⟩ := hok
      by_cases hmax : replacement.length > MAX_REPLACEMENT_POINTS
      . apply Or.inl
        simp [replaceSection, hseg, run_index hs, hok, hmax]
      by_cases hmin : replacement.length < 2
      . apply Or.inl
        simp [replaceSection, hseg, run_index hs, hok, hmax, hmin]
      cases checkEndpoint_cases "start" segment first replacement.head? g with
      | inl herr =>
        obtain ⟨e, herr⟩ := herr
        apply Or.inl
        simp [replaceSection, hseg, run_index hs, hok, hmax, hmin, herr]
      | inr hstart =>
      cases checkEndpoint_cases "end" segment last replacement.getLast? g with
      | inl herr =>
        obtain ⟨e, herr⟩ := herr
        apply Or.inl
        simp [replaceSection, hseg, run_index hs, hok, hmax, hmin, hstart.2, herr]
      | inr hend =>
      by_cases hfit : last.value - first.value + 1 < usizeSize
      . have hcount : last.value - first.value + 1 ≤ segment.length := by omega
        by_cases hfit' : segment.length - (last.value - first.value + 1) + replacement.length
            < usizeSize
        . apply Or.inr
          exact ⟨segment, rfl, hle, hlt, by omega, by omega, hstart.1, hend.1,
            run_replaceSection hs hle hlt hmin hmax hstart.2 hend.2 hfit hfit'⟩
        . apply Or.inl
          simp [replaceSection, hseg, run_index hs, hok, hmax, hmin, hstart.2, hend.2,
            run_subUsize hle, run_addUsize hfit, run_subUsize hcount,
            run_addUsize_overflow (Nat.not_lt.mp hfit')]
      . apply Or.inl
        simp [replaceSection, hseg, run_index hs, hok, hmax, hmin, hstart.2, hend.2,
          run_subUsize hle, run_addUsize_overflow (Nat.not_lt.mp hfit)]

/--
Removing the element at `i` and inserting first `b`, then `a` in its place.
-/
theorem insert_two_at_erased {α : Type} {as : List α} {i : Nat} (hi : i < as.length) (a b : α)
    : ((as.eraseIdx i).take i ++ b :: (as.eraseIdx i).drop i).take i
          ++ a :: ((as.eraseIdx i).take i ++ b :: (as.eraseIdx i).drop i).drop i
        =
      as.take i ++ a :: b :: as.drop (i + 1) := by
  have hlen : (as.take i).length = i := by
    rw [List.length_take]
    omega
  have htake : (as.eraseIdx i).take i = as.take i := by
    rw [List.eraseIdx_eq_take_drop_succ, List.take_left' hlen]
  have hdrop : (as.eraseIdx i).drop i = as.drop (i + 1) := by
    rw [List.eraseIdx_eq_take_drop_succ, List.drop_left' hlen]
  rw [htake, hdrop, List.take_left' hlen, List.drop_left' hlen]

theorem splitSegment_cases (i : SegmentIndex) (k : PointIndex) (g : Geometry)
    : (∃ e, (splitSegment i k).run g = .error e g)
        ∨
      ∃ segment, g[i.value]? = some segment ∧ 0 < k.value ∧ k.value + 1 < segment.length
        ∧ (splitSegment i k).run g
            = .ok () (g.take i.value
                ++ segment.take (k.value + 1) :: segment.drop k.value :: g.drop (i.value + 1)) := by
  cases hs : g[i.value]? with
  | none =>
    apply Or.inl
    simp [splitSegment, validatePointIdx_of_no_segment hs]
  | some segment =>
    cases hp : segment[k.value]? with
    | none =>
      apply Or.inl
      simp [splitSegment, validatePointIdx_of_none hs hp]
    | some point =>
      have hvalid := validatePointIdx_of_some hs hp
      obtain ⟨hlt, _⟩ := List.getElem?_eq_some_iff.mp hp
      obtain ⟨hi, _⟩ := List.getElem?_eq_some_iff.mp hs
      by_cases hzero : k.value = 0
      . apply Or.inl
        simp [splitSegment, hvalid, run_index hs, hzero]
      have hsub : 1 ≤ segment.length := by omega
      by_cases hlast : k.value = segment.length - 1
      . apply Or.inl
        rw [hlast] at hzero
        simp [splitSegment, hvalid, run_index hs, run_subUsize hsub, hlast, hzero]
      . apply Or.inr
        refine ⟨segment, rfl, by omega, by omega, ?_⟩
        have hfirst : ¬ (segment.take (k.value + 1)).length < 2 := by
          rw [List.length_take]
          omega
        have hsecond : ¬ (segment.drop k.value).length < 2 := by
          rw [List.length_drop]
          omega
        have hshort : ¬ ((segment.take (k.value + 1)).length < 2
            ∨ (segment.drop k.value).length < 2) := by
          simp only [hfirst, hsecond, or_self, not_false_eq_true]
        have hlen : i.value ≤ (g.eraseIdx i.value).length := by
          rw [List.length_eraseIdx_of_lt hi]
          omega
        have hlen' : i.value
            ≤ ((g.eraseIdx i.value).take i.value
                ++ segment.drop k.value :: (g.eraseIdx i.value).drop i.value).length := by
          rw [List.length_append, List.length_take, List.length_cons]
          omega
        simp only [splitSegment, EStateM.run_bind, hvalid, EStateM.run_get, run_index hs,
          run_subUsize hsub, hzero, hlast, ↓reduceIte, run_sliceTo hlt,
          run_sliceFrom (Nat.le_of_lt hlt), hshort, run_remove hs, EStateM.run_set,
          run_insert hlen, run_insert hlen', insert_two_at_erased hi]

theorem run_joinSegments {i j : SegmentIndex} {first second : Segment} (hfit : i.value + 1 < usizeSize)
    (hadj : j.value = i.value + 1) (hfirst : g[i.value]? = some first)
    (hsecond : g[i.value + 1]? = some second)
    : (joinSegments i j).run g
        = .ok () ((g.eraseIdx (i.value + 1)).set i.value
            (if !first.isEmpty && !second.isEmpty && sharesEndpoint first second then
              first ++ second.drop 1
            else
              first ++ second)) := by
  have hvalid : (validateSegmentIdx j).run g = .ok () g := by
    rw [← hadj] at hsecond
    apply validateSegmentIdx_of_some hsecond
  have herase : (g.eraseIdx (i.value + 1))[i.value]? = some first := by
    rw [List.getElem?_eraseIdx_of_lt (Nat.lt_succ_self _)]
    exact hfirst
  simp only [joinSegments, EStateM.run_bind, run_addUsize hfit, hadj, ne_eq,
    not_true_eq_false, ↓reduceIte, validateSegmentIdx_of_some hfirst,
    hvalid, EStateM.run_get, run_remove hsecond, EStateM.run_set, run_index herase]
  split
  . simp
  . simp

theorem joinSegments_cases (i j : SegmentIndex) (g : Geometry)
    : (∃ e, (joinSegments i j).run g = .error e g)
        ∨
      ∃ first second, j.value = i.value + 1 ∧ g[i.value]? = some first
        ∧ g[i.value + 1]? = some second
        ∧ (joinSegments i j).run g
            = .ok () ((g.eraseIdx (i.value + 1)).set i.value
                (if !first.isEmpty && !second.isEmpty && sharesEndpoint first second then
                  first ++ second.drop 1
                else
                  first ++ second)) := by
  by_cases hfit : i.value + 1 < usizeSize
  . by_cases hadj : j.value = i.value + 1
    . cases hfirst : g[i.value]? with
      | none =>
        apply Or.inl
        simp [joinSegments, run_addUsize hfit, hadj, validateSegmentIdx_of_none hfirst]
      | some first =>
        cases hsecond : g[j.value]? with
        | none =>
          apply Or.inl
          have := validateSegmentIdx_of_none hsecond
          simp [joinSegments, run_addUsize hfit, hadj, validateSegmentIdx_of_some hfirst, this]
        | some second =>
          apply Or.inr
          rw [hadj] at hsecond
          exact ⟨first, second, hadj, rfl, hsecond, run_joinSegments hfit hadj hfirst hsecond⟩
    . apply Or.inl
      simp [joinSegments, run_addUsize hfit, hadj]
  . apply Or.inl
    simp [joinSegments, run_addUsize_overflow (Nat.not_lt.mp hfit)]

/--
What a successful operation has done to the geometry.
-/
inductive Effect (g : Geometry) : RouteOperation → Geometry → Prop where
  | movePoint {i k position segment point} (hs : g[i.value]? = some segment)
      (hp : segment[k.value]? = some point)
      : Effect g (.movePoint i k position)
          (g.set i.value (segment.set k.value { point with coordinate := position }))
  | addPoint {i k point segment} (hs : g[i.value]? = some segment) (hk : k.value < segment.length)
      : Effect g (.addPoint i k point)
          (g.set i.value (segment.take (k.value + 1) ++ point :: segment.drop (k.value + 1)))
  | deletePoint {i k segment} (hs : g[i.value]? = some segment) (hk : k.value < segment.length)
      (hlen : 2 < segment.length)
      : Effect g (.deletePoint i k) (g.set i.value (segment.eraseIdx k.value))
  | deleteSection {i first last segment} (hs : g[i.value]? = some segment)
      (hle : first.value ≤ last.value) (hlt : last.value < segment.length)
      (hlen : last.value - first.value + 3 ≤ segment.length)
      : Effect g (.deleteSection i first last)
          (g.set i.value (segment.take first.value ++ segment.drop (last.value + 1)))
  | replaceSection {i first last replacement segment} (hs : g[i.value]? = some segment)
      (hle : first.value ≤ last.value) (hlt : last.value < segment.length)
      (hmin : 2 ≤ replacement.length) (hmax : replacement.length ≤ MAX_REPLACEMENT_POINTS)
      (hstart : ∀ p, replacement.head? = some p → ∃ expected, segment[first.value]? = some expected
        ∧ p.coordinate.partialEq expected.coordinate = true)
      (hend : ∀ p, replacement.getLast? = some p → ∃ expected, segment[last.value]? = some expected
        ∧ p.coordinate.partialEq expected.coordinate = true)
      : Effect g (.replaceSection i first last replacement)
          (g.set i.value (segment.take first.value ++ replacement ++ segment.drop (last.value + 1)))
  | splitSegment {i k segment} (hs : g[i.value]? = some segment) (hpos : 0 < k.value)
      (hlt : k.value + 1 < segment.length)
      : Effect g (.splitSegment i k)
          (g.take i.value
            ++ segment.take (k.value + 1) :: segment.drop k.value :: g.drop (i.value + 1))
  | joinSegments {i j first second} (hadj : j.value = i.value + 1)
      (hfirst : g[i.value]? = some first) (hsecond : g[i.value + 1]? = some second)
      : Effect g (.joinSegments i j)
          ((g.eraseIdx (i.value + 1)).set i.value
            (if !first.isEmpty && !second.isEmpty && sharesEndpoint first second then
              first ++ second.drop 1
            else
              first ++ second))

theorem executeOperation_cases (operation : RouteOperation) (g : Geometry)
    : (∃ e, (executeOperation operation).run g = .error e g)
        ∨
      ∃ g', Effect g operation g' ∧ (executeOperation operation).run g = .ok () g' := by
  cases operation with
  | movePoint i k position =>
    apply (movePoint_cases i k position g).imp_right
    rintro ⟨_, _, hs, hp, h⟩
    exact ⟨_, .movePoint hs hp, h⟩
  | addPoint i k point =>
    apply (addPoint_cases i k point g).imp_right
    rintro ⟨_, hs, hk, h⟩
    exact ⟨_, .addPoint hs hk, h⟩
  | deletePoint i k =>
    apply (deletePoint_cases i k g).imp_right
    rintro ⟨_, hs, hk, hlen, h⟩
    exact ⟨_, .deletePoint hs hk hlen, h⟩
  | deleteSection i first last =>
    apply (deleteSection_cases i first last g).imp_right
    rintro ⟨_, hs, hle, hlt, hlen, h⟩
    exact ⟨_, .deleteSection hs hle hlt hlen, h⟩
  | replaceSection i first last replacement =>
    apply (replaceSection_cases i first last replacement g).imp_right
    rintro ⟨_, hs, hle, hlt, hmin, hmax, hstart, hend, h⟩
    exact ⟨_, .replaceSection hs hle hlt hmin hmax hstart hend, h⟩
  | splitSegment i k =>
    apply (splitSegment_cases i k g).imp_right
    rintro ⟨_, hs, hpos, hlt, h⟩
    exact ⟨_, .splitSegment hs hpos hlt, h⟩
  | joinSegments i j =>
    apply (joinSegments_cases i j g).imp_right
    rintro ⟨_, _, hadj, hfirst, hsecond, h⟩
    exact ⟨_, .joinSegments hadj hfirst hsecond, h⟩

theorem executeOperation_error {operation : RouteOperation} {e : Fault RouteEditingError}
    {g g' : Geometry} (h : (executeOperation operation).run g = .error e g') : g' = g := by
  cases executeOperation_cases operation g with
  | inl herr =>
    obtain ⟨_, herr⟩ := herr
    rw [herr] at h
    injection h with _ h
    exact h.symm
  | inr hok =>
    obtain ⟨_, _, hok⟩ := hok
    rw [hok] at h
    cases h

theorem effect_of_executeOperation {operation : RouteOperation} {g g' : Geometry}
    (h : (executeOperation operation).run g = .ok () g') : Effect g operation g' := by
  cases executeOperation_cases operation g with
  | inl herr =>
    obtain ⟨_, herr⟩ := herr
    rw [herr] at h
    cases h
  | inr hok =>
    obtain ⟨_, heffect, hok⟩ := hok
    rw [hok] at h
    injection h with _ h
    rw [← h]
    exact heffect

end RouteEditing
