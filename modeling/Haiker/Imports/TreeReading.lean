import Haiker.Imports.Lemmas.GpxDocument
import Haiker.Imports.Limits

/-!
This module contains that a document in which nothing can be mistaken is read as the tree that it is, and
that elements of other kinds are mistaken for those of the tracks and the metadata.
-/

open Rust

namespace Imports

namespace GpxParser

open Xml (Content Tag)

/-
Into an element and out of it.
-/

/--
The elements with a level of their own, and what their start does.
-/
inductive Entered : Level → Level → Tag → State → State → Prop where
  | metadata (attributes : List (String × String)) (s : State)
      : Entered (.gpx .gpx11) .metadata ⟨"metadata", attributes⟩ s
        { s with depth := s.depth + 1, inMetadata := true }
  | trk (version : GpxVersion) (attributes : List (String × String)) (s : State)
      : Entered (.gpx version) .trk ⟨"trk", attributes⟩ s { s with
        depth := s.depth + 1
        inTrk := true
        currentTrack := some { name := none, segments := [] }
      }
  | trkseg (attributes : List (String × String)) (s : State)
      : Entered .trk .trkseg ⟨"trkseg", attributes⟩ s { s with
        depth := s.depth + 1
        inTrkseg := true
        totalSegments := s.totalSegments + 1
        currentSegment := some { points := [] }
      }
  | trkpt (attributes : List (String × String)) (s : State) (point : GpxTrackPoint)
      (hpoint : readPoint attributes = .ok point)
      : Entered .trkseg .trkpt ⟨"trkpt", attributes⟩ s { s with
        depth := s.depth + 1
        inTrkpt := true
        totalPoints := s.totalPoints + 1
        currentPoint := some point
      }

section Ways

variable {s s' : State} {level inner : Level} {tag : Tag} {name : String}

theorem Level.within?_cases (h : level.within? name = some inner)
    : level = .gpx .gpx11 ∧ name = "metadata" ∧ inner = .metadata
        ∨ (∃ version, level = .gpx version) ∧ name = "trk" ∧ inner = .trk
        ∨ level = .trk ∧ name = "trkseg" ∧ inner = .trkseg
        ∨ level = .trkseg ∧ name = "trkpt" ∧ inner = .trkpt := by
  unfold Level.within? at h
  split at h
  . exact .inl ⟨rfl, rfl, (Option.some.inj h).symm⟩
  . exact .inr (.inl ⟨⟨_, rfl⟩, rfl, (Option.some.inj h).symm⟩)
  . exact .inr (.inr (.inl ⟨rfl, rfl, (Option.some.inj h).symm⟩))
  . exact .inr (.inr (.inr ⟨rfl, rfl, (Option.some.inj h).symm⟩))
  . cases h

theorem Level.mem_structural (h : level.within? name = some inner) : name ∈ structural := by
  rcases Level.within?_cases h with ⟨_, rfl, _⟩ | ⟨_, rfl, _⟩ | ⟨_, rfl, _⟩ | ⟨_, rfl, _⟩
  . decide
  . decide
  . decide
  . decide

theorem entered_of_onStart (hinner : level.within? tag.localName = some inner) (hstart : onStart tag s = .ok s')
    : Entered level inner tag s s' := by
  have hstarted := (started_of_onStart hstart).2
  have hmem := Level.mem_structural hinner
  rcases Level.within?_cases hinner
    with ⟨rfl, hname, rfl⟩ | ⟨⟨version, rfl⟩, hname, rfl⟩ | ⟨rfl, hname, rfl⟩ | ⟨rfl, hname, rfl⟩
  . cases hstarted with
    | metadata attributes => exact .metadata attributes s
    | gpx | trk | trkseg | trkpt => simp at hname
    | text _ _ _ hother => exact absurd hmem hother
  . cases hstarted with
    | trk attributes => exact .trk version attributes s
    | gpx | metadata | trkseg | trkpt => simp at hname
    | text _ _ _ hother => exact absurd hmem hother
  . cases hstarted with
    | trkseg attributes => exact .trkseg attributes s
    | gpx | metadata | trk | trkpt => simp at hname
    | text _ _ _ hother => exact absurd hmem hother
  . cases hstarted with
    | trkpt attributes _ point _ hpoint => exact .trkpt attributes s point hpoint
    | gpx | metadata | trk | trkseg => simp at hname
    | text _ _ _ hother => exact absurd hmem hother

theorem Entered.at (h : Entered level inner tag s s') (hs : s.At level) : s'.At inner := by
  obtain ⟨hdepth, hinMetadata, hinTrk, hinTrkseg, hinTrkpt, htrack, hsegment, hpoint, htext⟩ := hs
  have hdepth := congrArg (· + 1) hdepth
  cases h with
  | metadata => exact ⟨hdepth, rfl, hinTrk, hinTrkseg, hinTrkpt, htrack, hsegment, hpoint, htext⟩
  | trk => exact ⟨hdepth, hinMetadata, rfl, hinTrkseg, hinTrkpt, rfl, hsegment, hpoint, htext⟩
  | trkseg => exact ⟨hdepth, hinMetadata, hinTrk, rfl, hinTrkpt, htrack, rfl, hpoint, htext⟩
  | trkpt => exact ⟨hdepth, hinMetadata, hinTrk, hinTrkseg, rfl, htrack, hsegment, rfl, htext⟩

theorem Entered.at_onEnd {s₁ s₂ : State} (h : Entered level inner tag s s₁) (hs₂ : s₂.At inner)
    : (onEnd tag.localName s₂).At level := by
  obtain ⟨hdepth, hinMetadata, hinTrk, hinTrkseg, hinTrkpt, htrack, hsegment, hpoint, htext⟩ := hs₂
  have hdepth := congrArg (· - 1) hdepth
  cases h with
  | metadata => exact ⟨hdepth, rfl, hinTrk, hinTrkseg, hinTrkpt, htrack, hsegment, hpoint, htext⟩
  | trk => exact ⟨hdepth, hinMetadata, rfl, hinTrkseg, hinTrkpt, rfl, hsegment, hpoint, htext⟩
  | trkseg =>
    exact ⟨hdepth, hinMetadata, hinTrk, rfl, hinTrkpt, Option.isSome_map.trans htrack, rfl, hpoint, htext⟩
  | trkpt =>
    exact ⟨hdepth, hinMetadata, hinTrk, hinTrkseg, rfl, htrack, Option.isSome_map.trans hsegment, rfl, htext⟩

theorem State.At.onEmpty (h : s.At level) (hempty : onEmpty tag s = .ok s') : s'.At level := by
  rcases onEmpty_cases hempty with ⟨_, rfl⟩ | ⟨_, _, _, _, rfl⟩
  . exact h
  . exact { h with segment := Option.isSome_map.trans h.segment }

end Ways

/-
What happens on a level.
-/

def addPoints (points : List GpxTrackPoint) (s : State) : State :=
  { s with
    totalPoints := s.totalPoints + points.length
    currentSegment := s.currentSegment.map fun seg => { seg with points := seg.points ++ points }
  }

variable {unescape : String → Option String}

variable (unescape) in
/--
What the parser does with the content of an element, as long as it mistakes nothing: it looks at the elements
of the level and skips all others.
-/
inductive Walked : Level → Content → State → State → Prop where
  | nil (level : Level) (s : State) : Walked level .nil s s
  | skip {level : Level} {content rest : Content} {s s' : State}
      (htexts : ∀ s, setTexts unescape level content s = setTexts unescape level rest s)
      (hchildren : ∀ name inner, level.within? name = some inner → content.children name = rest.children name)
      (hrest : Walked level rest s s') : Walked level content s s'
  | text {level : Level} {tag : Tag} {content rest : Content} {s s' : State} {target : TextTarget}
      (htext : level.text? tag.localName = some target) (hsingle : rest.children tag.localName = [])
      (hrest : Walked level rest (setText? target (content.text? unescape) s) s')
      : Walked level (.element true tag content rest) s s'
  | element {level inner : Level} {tag : Tag} {content rest : Content} {s s₁ s₂ s' : State} (hs : s.At level)
      (hentered : Entered level inner tag s s₁)
      (hsingle : inner = .metadata → rest.children tag.localName = [])
      (hcontent : Walked inner content s₁ s₂) (hrest : Walked level rest (onEnd tag.localName s₂) s')
      : Walked level (.element true tag content rest) s s'
  | emptyMetadata {tag : Tag} {rest : Content} {s s' : State} (hname : tag.localName = "metadata")
      (hsingle : rest.children tag.localName = []) (hrest : Walked (.gpx .gpx11) rest s s')
      : Walked (.gpx .gpx11) (.empty true tag rest) s s'
  | emptyPoint {tag : Tag} {rest : Content} {s s' : State} {point : GpxTrackPoint}
      (hname : tag.localName = "trkpt") (hpoint : readPoint tag.attributes = .ok point)
      (hrest : Walked .trkseg rest (addPoints [point] s) s') : Walked .trkseg (.empty true tag rest) s s'

section Walks

variable {codec : Xml.Codec} {level : Level} {s s' : State} {tag : Tag} {own : Bool} {content rest : Content}

theorem Level.text?_of_within? {name : String} {inner : Level} (h : level.within? name = some inner)
    : level.text? name = none := by
  rcases Level.within?_cases h with ⟨rfl, rfl, _⟩ | ⟨⟨_, rfl⟩, rfl, _⟩ | ⟨rfl, rfl, _⟩ | ⟨rfl, rfl, _⟩
  . rfl
  . simp [Level.text?]
  . rfl
  . rfl

-- an element without a level of its own is none of those with one
theorem Level.not_named (hinner : own = true → level.within? tag.localName = none) {name : String} {inner : Level}
    (hname : level.within? name = some inner) : ¬(own = true ∧ tag.localName = name) := by
  rintro ⟨hown, rfl⟩
  rw [hinner hown] at hname
  cases hname

theorem Walked.skip_element (hinner : own = true → level.within? tag.localName = none)
    (htext : own = true → level.text? tag.localName = none) (hrest : Walked unescape level rest s s')
    : Walked unescape level (.element own tag content rest) s s' := by
  apply Walked.skip (fun s => setTexts_element_other htext) _ hrest
  intro name inner hname
  rw [Content.children, if_neg (Level.not_named hinner hname)]

theorem Walked.skip_empty (hinner : own = true → level.within? tag.localName = none)
    (hsingle : own = true → level.text? tag.localName ≠ none → rest.children tag.localName = [])
    (hrest : Walked unescape level rest s s') : Walked unescape level (.empty own tag rest) s s' := by
  apply Walked.skip (fun s => setTexts_empty hsingle) _ hrest
  intro name inner hname
  rw [Content.children, if_neg (Level.not_named hinner hname)]

theorem conforms_element (h : conforms level (.element own tag content rest) = true)
    : conforms level rest = true ∧ (own = true →
        (∀ inner, level.within? tag.localName = some inner → conforms inner content = true)
          ∧ (level.text? tag.localName ≠ none → content.isText = true)
          ∧ (level.single tag.localName = true → rest.children tag.localName = [])) := by
  rw [conforms, Bool.and_eq_true] at h
  refine ⟨h.2, ?_⟩
  rintro rfl
  have hown := h.1
  rw [if_pos rfl, Bool.and_eq_true] at hown
  refine ⟨?_, ?_, ?_⟩
  . intro inner hinner
    have hcontent := hown.1
    rw [hinner] at hcontent
    exact hcontent
  . intro htext
    cases hinner : level.within? tag.localName with
    | some inner => exact absurd (Level.text?_of_within? hinner) htext
    | none =>
      have hcontent := hown.1
      rw [hinner] at hcontent
      simpa [htext] using hcontent
  . intro hsingle
    simpa [hsingle] using hown.2

theorem conforms_empty (h : conforms level (.empty own tag rest) = true)
    : conforms level rest = true
        ∧ (own = true → level.single tag.localName = true → rest.children tag.localName = []) := by
  rw [conforms, Bool.and_eq_true] at h
  refine ⟨h.2, ?_⟩
  rintro rfl hsingle
  simpa [hsingle] using h.1

theorem Level.single_of_text? {name : String} (h : level.text? name ≠ none) : level.single name = true := by
  rw [Level.single, Bool.or_eq_true]
  exact .inl (Option.isSome_iff_ne_none.mpr h)

theorem Level.single_of_metadata {name : String} (h : level.within? name = some .metadata)
    : level.single name = true := by
  rw [Level.single, Bool.or_eq_true]
  exact .inr (decide_eq_true h)

/--
An element is one with a level of its own, one with a text, or one that the parser does not listen to.
-/
theorem unmistakable_element (h : unmistakable level (.element own tag content rest) = true)
    : unmistakable level rest = true
        ∧ ((own = true ∧ ∃ inner, level.within? tag.localName = some inner ∧ unmistakable inner content = true)
          ∨ (own = true ∧ (∃ target, level.text? tag.localName = some target) ∧ content.isUnbroken = true)
          ∨ ((own = true → level.within? tag.localName = none ∧ level.text? tag.localName = none)
            ∧ tag.localName ∉ structural ∧ ignored level tag.localName content = true)) := by
  rw [unmistakable, Bool.and_eq_true] at h
  refine ⟨h.2, ?_⟩
  have hfirst := h.1
  cases own with
  | false =>
    rw [if_neg Bool.false_ne_true, Bool.false_and, if_neg Bool.false_ne_true, Bool.and_eq_true,
      decide_eq_true_eq] at hfirst
    exact .inr (.inr ⟨fun hown => absurd hown Bool.false_ne_true, hfirst⟩)
  | true =>
    rw [if_pos rfl] at hfirst
    cases hinner : level.within? tag.localName with
    | some inner =>
      rw [hinner] at hfirst
      exact .inl ⟨rfl, inner, rfl, hfirst⟩
    | none =>
      rw [hinner] at hfirst
      cases htext : level.text? tag.localName with
      | some target =>
        rw [htext] at hfirst
        exact .inr (.inl ⟨rfl, ⟨target, rfl⟩, hfirst⟩)
      | none =>
        rw [htext, Option.isSome_none, Bool.and_false, if_neg Bool.false_ne_true, Bool.and_eq_true,
          decide_eq_true_eq] at hfirst
        exact .inr (.inr ⟨fun _ => ⟨rfl, rfl⟩, hfirst⟩)

theorem unmistakable_empty (h : unmistakable level (.empty own tag rest) = true)
    : unmistakable level rest = true
        ∧ ((own = true ∧ ∃ inner, level.within? tag.localName = some inner ∧ (inner = .metadata ∨ inner = .trkpt))
          ∨ ((own = true → level.within? tag.localName = none)
            ∧ (level.takesPoints = true → tag.localName ≠ "trkpt"))) := by
  rw [unmistakable, Bool.and_eq_true] at h
  refine ⟨h.2, ?_⟩
  have hfirst := h.1
  cases own with
  | false =>
    rw [if_neg Bool.false_ne_true] at hfirst
    exact .inr ⟨fun hown => absurd hown Bool.false_ne_true, by simpa [imp_iff_not_or] using hfirst⟩
  | true =>
    rw [if_pos rfl] at hfirst
    cases hinner : level.within? tag.localName with
    | some inner =>
      rw [hinner] at hfirst
      exact .inl ⟨rfl, inner, rfl, by simpa using hfirst⟩
    | none =>
      rw [hinner] at hfirst
      exact .inr ⟨fun _ => rfl, by simpa [imp_iff_not_or] using hfirst⟩

-- nothing but an element is looked at
theorem Walked.skip_rest (hrest : Walked unescape level rest s s')
    (hchildren : ∀ name, content.children name = rest.children name) : Walked unescape level content s s' := by
  refine .skip (fun s => setTexts_of_texts_eq fun name => ?_) (fun name _ _ => hchildren name) hrest
  simp only [childText, hchildren]

theorem Walked.of_onEmpty {s₁ : State} (hrest : Walked unescape level rest s₁ s') (hs : s.At level)
    (hempty : onEmpty tag s = .ok s₁) (hconforms : conforms level (.empty own tag rest) = true)
    (hclear : unmistakable level (.empty own tag rest) = true)
    : Walked unescape level (.empty own tag rest) s s' := by
  have hsingle := (conforms_empty hconforms).2
  rcases (unmistakable_empty hclear).2 with ⟨rfl, inner, hinner, hkind⟩ | ⟨hother, hpoint⟩
  . rcases Level.within?_cases hinner
      with ⟨rfl, hname, rfl⟩ | ⟨⟨version, rfl⟩, hname, rfl⟩ | ⟨rfl, hname, rfl⟩ | ⟨rfl, hname, rfl⟩
    . rcases onEmpty_cases hempty with ⟨_, rfl⟩ | ⟨⟨htrkpt, _⟩, _⟩
      . exact .emptyMetadata hname (hsingle rfl (Level.single_of_metadata hinner)) hrest
      . rw [hname] at htrkpt
        exact absurd htrkpt (by decide)
    . simp at hkind
    . simp at hkind
    . rcases onEmpty_cases hempty with ⟨hnone, _⟩ | ⟨_, _, point, hpoint, rfl⟩
      . exact absurd ⟨hname, hs.inTrkseg⟩ hnone
      . exact .emptyPoint hname hpoint hrest
  . rcases onEmpty_cases hempty with ⟨_, rfl⟩ | ⟨⟨htrkpt, hinTrkseg⟩, _⟩
    . exact hrest.skip_empty hother fun hown htext => hsingle hown (Level.single_of_text? htext)
    . exact absurd htrkpt (hpoint (hs.inTrkseg.symm.trans hinTrkseg))

theorem State.At.ignores {s₁ s₂ : State} (hs : s.At level)
    (hs₁ : s₁ = { s with
      depth := s.depth + 1
      currentTextTarget := textTarget tag.localName { s with depth := s.depth + 1 }
    }) (h : Reads unescape s₁ content.events s₂)
    (hignored : ignored level tag.localName content = true) : s₂ = s₁ := by
  unfold ignored at hignored
  split at hignored
  . exact h.of_isSilent hignored
  . next hother =>
    rw [State.deaf_enter hs.text (hs.textTarget_of_not_mem hother (Nat.lt_succ_self _))] at hs₁
    subst hs₁
    exact h.avoided hignored hs.deaf hs.text

theorem walked_of_reads (hblanks : codec.KeepsBlanks) (h : Reads codec.unescape s content.events s')
    (hs : s.At level) (hconforms : conforms level content = true) (hclear : unmistakable level content = true)
    : Walked codec.unescape level content s s' ∧ s'.At level := by
  induction content generalizing level s s' with
  | nil =>
    obtain rfl := reads_nil.mp h
    exact ⟨.nil level s', hs⟩
  | element own tag content rest ihcontent ihrest =>
    obtain ⟨hrestConforms, hschema⟩ := conforms_element hconforms
    obtain ⟨hrestClear, hkind⟩ := unmistakable_element hclear
    rcases hkind
      with ⟨rfl, inner, hinner, hcontent⟩ | ⟨rfl, ⟨target, htext⟩, hunbroken⟩ | ⟨hother, hname, hignored⟩
    -- an element with a level of its own
    . obtain ⟨s₁, s₂, hstart, hread, hrest⟩ := reads_element.mp h
      obtain ⟨hinners, _, hsingle⟩ := hschema rfl
      have hentered := entered_of_onStart hinner hstart
      obtain ⟨hwalked, hs₂⟩ := ihcontent hread (hentered.at hs) (hinners inner hinner) hcontent
      obtain ⟨hwalkedRest, hs'⟩ := ihrest hrest (hentered.at_onEnd hs₂) hrestConforms hrestClear
      refine ⟨.element hs hentered ?_ hwalked hwalkedRest, hs'⟩
      rintro rfl
      exact hsingle (Level.single_of_metadata hinner)
    -- an element with a text
    . obtain ⟨_, hisText, hsingle⟩ := hschema rfl
      have hne : level.text? tag.localName ≠ none := by simp [htext]
      obtain ⟨hstructural, htarget⟩ := hs.textTarget_of_text? htext
      have hread := h.text_element hblanks hstructural hs.text htarget (hisText hne) hunbroken
      obtain ⟨hwalked, hs'⟩ := ihrest hread (hs.setText? target _) hrestConforms hrestClear
      exact ⟨.text htext (hsingle (Level.single_of_text? hne)) hwalked, hs'⟩
    -- an element that is not listened to
    . have hread := h.skip_element hname hs.text fun s₁ s₂ hs₁ hinner => hs.ignores hs₁ hinner hignored
      obtain ⟨hwalked, hs'⟩ := ihrest hread hs hrestConforms hrestClear
      exact ⟨hwalked.skip_element (fun hown => (hother hown).1) fun hown => (hother hown).2, hs'⟩
  | empty own tag rest ih =>
    obtain ⟨s₁, hempty, hrest⟩ := reads_empty.mp h
    obtain ⟨hwalked, hs'⟩ := ih hrest (hs.onEmpty hempty) (conforms_empty hconforms).1 (unmistakable_empty hclear).1
    exact ⟨hwalked.of_onEmpty hs hempty hconforms hclear, hs'⟩
  | text raw rest ih =>
    obtain ⟨hwalked, hs'⟩ := ih ((reads_text_of_none hs.text).mp h) hs hconforms hclear
    exact ⟨hwalked.skip_rest fun _ => rfl, hs'⟩
  | cData _ rest ih =>
    obtain ⟨hwalked, hs'⟩ := ih (reads_cData.mp h) hs hconforms hclear
    exact ⟨hwalked.skip_rest fun _ => rfl, hs'⟩
  | other rest ih =>
    obtain ⟨hwalked, hs'⟩ := ih (reads_other.mp h) hs hconforms hclear
    exact ⟨hwalked.skip_rest fun _ => rfl, hs'⟩

end Walks

/-
What is read on a level.
-/

def addSegments (segments : List GpxTrackSegment) (s : State) : State :=
  { s with
    totalPoints := s.totalPoints + pointCount segments
    totalSegments := s.totalSegments + segments.length
    currentTrack := s.currentTrack.map fun track => { track with segments := track.segments ++ segments }
  }

def addTracks (tracks : List GpxTrack) (s : State) : State :=
  { s with
    totalPoints := s.totalPoints + (tracks.map fun track => pointCount track.segments).sum
    totalSegments := s.totalSegments + (tracks.map (·.segments.length)).sum
    tracks := s.tracks ++ tracks
  }

section Outcomes

variable {level : Level} {s s' : State} {content rest : Content} {tag : Tag}

theorem addPoints_nil (s : State) : addPoints [] s = s := by
  simp [addPoints]

theorem addPoints_cons (point : GpxTrackPoint) (points : List GpxTrackPoint) (s : State)
    : addPoints (point :: points) s = addPoints points (addPoints [point] s) := by
  simp [addPoints, Function.comp_def]
  omega

theorem addSegments_nil (s : State) : addSegments [] s = s := by
  simp [addSegments, pointCount]

theorem addSegments_cons (segment : GpxTrackSegment) (segments : List GpxTrackSegment) (s : State)
    : addSegments (segment :: segments) s = addSegments segments (addSegments [segment] s) := by
  simp [addSegments, pointCount, Function.comp_def]
  omega

theorem addTracks_nil (s : State) : addTracks [] s = s := by
  simp [addTracks]

theorem addTracks_cons (track : GpxTrack) (tracks : List GpxTrack) (s : State)
    : addTracks (track :: tracks) s = addTracks tracks (addTracks [track] s) := by
  simp [addTracks]
  omega

theorem setTexts_nil : setTexts unescape level .nil s = s := by
  unfold setTexts
  induction level.texts with
  | nil => rfl
  | cons name names ih =>
    have hnone : setChild unescape level .nil s name = s := by
      unfold setChild
      cases level.text? name with
      | none => rfl
      | some target => rfl
    rw [List.foldl_cons, hnone, ih]

theorem setTexts_trkpt : setTexts unescape .trkpt content s = { s with
      currentPoint := s.currentPoint.map fun pt => { pt with
        elevation := (childText unescape "ele" content).elim pt.elevation fun text => F64.parse (trim text)
        time := (childText unescape "time" content).elim pt.time fun text => some (trim text)
      }
    } := by
  simp only [setTexts, Level.texts, List.foldl_cons, List.foldl_nil, setChild, Level.text?, Option.elim_some]
  cases childText unescape "ele" content with
  | none => cases childText unescape "time" content <;> simp [setText?, setText]
  | some ele => cases childText unescape "time" content <;> simp [setText?, setText, Function.comp_def]

theorem setTexts_trk : setTexts unescape .trk content s = { s with
      currentTrack := s.currentTrack.map fun track => { track with
        name := (childText unescape "name" content).elim track.name fun text => some (sanitizeMetadata text)
      }
    } := by
  simp only [setTexts, Level.texts, List.foldl_cons, List.foldl_nil, setChild, Level.text?, Option.elim_some]
  cases childText unescape "name" content <;> simp [setText?, setText]

theorem setTexts_metadata : setTexts unescape .metadata content s = { s with
      metadata := {
        name := (childText unescape "name" content).elim s.metadata.name fun text => some (sanitizeMetadata text)
        description :=
          (childText unescape "desc" content).elim s.metadata.description fun text => some (sanitizeMetadata text)
        time := (childText unescape "time" content).elim s.metadata.time fun text => some (trim text)
      }
    } := by
  simp only [setTexts, Level.texts, List.foldl_cons, List.foldl_nil, setChild, Level.text?, Option.elim_some]
  cases childText unescape "name" content <;> cases childText unescape "desc" content <;>
    cases childText unescape "time" content <;> rfl

-- a level that only texts are looked at on
theorem Walked.texts (h : Walked unescape level content s s') (hlevel : level = .metadata ∨ level = .trkpt)
    : s' = setTexts unescape level content s := by
  induction h with
  | nil => exact setTexts_nil.symm
  | skip htexts _ _ ih =>
    rw [htexts]
    exact ih hlevel
  | text htext hsingle _ ih =>
    rw [setTexts_element_text htext hsingle]
    exact ih hlevel
  | element _ hentered =>
    rcases hlevel with rfl | rfl
    . cases hentered
    . cases hentered
  | emptyMetadata | emptyPoint =>
    rcases hlevel with hlevel | hlevel
    . cases hlevel
    . cases hlevel

theorem children_element_text {target : TextTarget} {name : String} {inner : Level}
    (htext : level.text? tag.localName = some target) (hinner : level.within? name = some inner)
    : (Content.element true tag content rest).children name = rest.children name := by
  have hnone : level.within? tag.localName = none := by
    cases hwithin : level.within? tag.localName with
    | none => rfl
    | some _ =>
      rw [Level.text?_of_within? hwithin] at htext
      cases htext
  rw [Content.children, if_neg (Level.not_named (fun _ => hnone) hinner)]

theorem children_element_self {name : String} {attributes : List (String × String)}
    : (Content.element true ⟨name, attributes⟩ content rest).children name
        = (⟨name, attributes⟩, content) :: rest.children name := by
  rw [Content.children, if_pos ⟨rfl, rfl⟩]

theorem children_empty_self {name : String} {attributes : List (String × String)}
    : (Content.empty true ⟨name, attributes⟩ rest).children name
        = (⟨name, attributes⟩, .nil) :: rest.children name := by
  rw [Content.children, if_pos ⟨rfl, rfl⟩]

theorem mapM_cons_eq_ok {α β ε : Type} {f : α → Except ε β} {a : α} {as : List α} {b : β} {bs : List β}
    (ha : f a = .ok b) (has : as.mapM f = .ok bs) : (a :: as).mapM f = .ok (b :: bs) := by
  rw [List.mapM_cons, ha, has]
  rfl

/-
What an element has added when it ends.
-/

theorem onEnd_trkpt (hs : s.At .trkseg) (point : GpxTrackPoint)
    : onEnd "trkpt" (setTexts unescape .trkpt content { s with
        depth := s.depth + 1
        inTrkpt := true
        totalPoints := s.totalPoints + 1
        currentPoint := some point
      }) = addPoints [{ point with
        elevation := (childText unescape "ele" content).elim point.elevation fun text => F64.parse (trim text)
        time := (childText unescape "time" content).elim point.time fun text => some (trim text)
      }] s := by
  have hinTrkpt : s.inTrkpt = false := hs.inTrkpt
  have hnone : s.currentPoint = none := by simpa using hs.point
  rw [setTexts_trkpt]
  simp only [onEnd, endElement, addPoints, Option.map_some, Option.toList_some, Nat.add_sub_cancel, hinTrkpt, hnone]
  rfl

theorem onEnd_trkseg (hs : s.At .trk) (points : List GpxTrackPoint)
    : onEnd "trkseg" (addPoints points { s with
        depth := s.depth + 1
        inTrkseg := true
        totalSegments := s.totalSegments + 1
        currentSegment := some { points := [] }
      }) = addSegments [{ points }] s := by
  have hinTrkseg : s.inTrkseg = false := hs.inTrkseg
  have hnone : s.currentSegment = none := by simpa [Level.takesPoints] using hs.segment
  simp only [onEnd, endElement, addPoints, addSegments, Option.map_some, Option.toList_some, Nat.add_sub_cancel,
    hinTrkseg, hnone]
  rfl

theorem onEnd_trk {version : GpxVersion} (hs : s.At (.gpx version)) (segments : List GpxTrackSegment)
    : onEnd "trk" (setTexts unescape .trk content (addSegments segments { s with
        depth := s.depth + 1
        inTrk := true
        currentTrack := some { name := none, segments := [] }
      })) = addTracks [{ name := (childText unescape "name" content).map sanitizeMetadata, segments }] s := by
  have hinTrk : s.inTrk = false := hs.inTrk
  have hnone : s.currentTrack = none := by simpa [Level.inTrk] using hs.track
  rw [setTexts_trk]
  simp only [onEnd, endElement, addSegments, addTracks, Option.map_some, Option.toList_some, Nat.add_sub_cancel,
    hinTrk, hnone]
  cases childText unescape "name" content <;> rfl

theorem onEnd_metadata {version : GpxVersion} (hs : s.At (.gpx version))
    : onEnd "metadata" (setTexts unescape .metadata content { s with depth := s.depth + 1, inMetadata := true })
        = setTexts unescape .metadata content s := by
  have hinMetadata : s.inMetadata = false := hs.inMetadata
  rw [setTexts_metadata, setTexts_metadata]
  simp only [onEnd, endElement, Nat.add_sub_cancel, hinMetadata]

-- a point has nothing but its place before its texts are read
theorem pointOf_eq_ok {point : GpxTrackPoint} (hpoint : readPoint tag.attributes = .ok point)
    : pointOf unescape (tag, content) = .ok { point with
      elevation := (childText unescape "ele" content).elim point.elevation fun text => F64.parse (trim text)
      time := (childText unescape "time" content).elim point.time fun text => some (trim text)
    } := by
  obtain ⟨helevation, htime, _⟩ := readPoint_spec hpoint
  rw [pointOf, hpoint, helevation, htime]
  cases childText unescape "ele" content <;> cases childText unescape "time" content <;> rfl

theorem segmentOf_eq_ok {points : List GpxTrackPoint}
    (hpoints : (content.children "trkpt").mapM (pointOf unescape) = .ok points)
    : segmentOf unescape (tag, content) = .ok { points } := by
  rw [segmentOf, hpoints]
  rfl

theorem trackOf_eq_ok {segments : List GpxTrackSegment}
    (hsegments : (content.children "trkseg").mapM (segmentOf unescape) = .ok segments)
    : trackOf unescape (tag, content)
        = .ok { name := (childText unescape "name" content).map sanitizeMetadata, segments } := by
  rw [trackOf, hsegments]
  rfl

theorem Walked.points (h : Walked unescape level content s s') (hlevel : level = .trkseg)
    : ∃ points, (content.children "trkpt").mapM (pointOf unescape) = .ok points ∧ s' = addPoints points s := by
  induction h with
  | nil level s => exact ⟨[], rfl, (addPoints_nil s).symm⟩
  | skip _ hchildren _ ih =>
    subst hlevel
    rw [hchildren "trkpt" .trkpt rfl]
    exact ih rfl
  | text htext =>
    subst hlevel
    simp [Level.text?] at htext
  | element hs hentered _ hcontent _ _ ih =>
    subst hlevel
    cases hentered with
    | trkpt attributes _ point hpoint =>
      obtain ⟨points, hpoints, rfl⟩ := ih rfl
      rw [children_element_self]
      refine ⟨_ :: points, mapM_cons_eq_ok (pointOf_eq_ok hpoint) hpoints, ?_⟩
      rw [addPoints_cons, hcontent.texts (.inr rfl), onEnd_trkpt hs]
  | emptyMetadata => cases hlevel
  | @emptyPoint tag _ _ _ point hname hpoint _ ih =>
    obtain ⟨localName, attributes⟩ := tag
    obtain rfl : localName = "trkpt" := hname
    obtain ⟨points, hpoints, rfl⟩ := ih rfl
    rw [children_empty_self]
    have hplain : pointOf unescape (⟨"trkpt", attributes⟩, .nil) = .ok point := pointOf_eq_ok hpoint
    exact ⟨point :: points, mapM_cons_eq_ok hplain hpoints, (addPoints_cons point points _).symm⟩

theorem addSegments_setText? (segments : List GpxTrackSegment) (target : TextTarget) (text : Option String)
    (s : State) : addSegments segments (setText? target text s) = setText? target text (addSegments segments s) := by
  cases text with
  | none => rfl
  | some text => cases target <;> simp [setText?, setText, addSegments, Function.comp_def]

theorem addTracks_setText? (tracks : List GpxTrack) (target : TextTarget) (text : Option String)
    (s : State) : addTracks tracks (setText? target text s) = setText? target text (addTracks tracks s) := by
  cases text with
  | none => rfl
  | some text => cases target <;> rfl

theorem Walked.segments (h : Walked unescape level content s s') (hlevel : level = .trk)
    : ∃ segments, (content.children "trkseg").mapM (segmentOf unescape) = .ok segments
        ∧ s' = setTexts unescape .trk content (addSegments segments s) := by
  induction h with
  | nil level s => exact ⟨[], rfl, by rw [addSegments_nil, setTexts_nil]⟩
  | skip htexts hchildren _ ih =>
    subst hlevel
    rw [hchildren "trkseg" .trkseg rfl]
    simp only [htexts]
    exact ih rfl
  | text htext hsingle _ ih =>
    subst hlevel
    obtain ⟨segments, hsegments, rfl⟩ := ih rfl
    refine ⟨segments, ?_, ?_⟩
    . rw [children_element_text htext (show Level.within? .trk "trkseg" = some .trkseg from rfl), hsegments]
    . rw [setTexts_element_text htext hsingle, addSegments_setText?]
  | element hs hentered _ hcontent _ _ ih =>
    subst hlevel
    cases hentered with
    | trkseg attributes =>
      obtain ⟨segments, hsegments, rfl⟩ := ih rfl
      obtain ⟨points, hpoints, rfl⟩ := hcontent.points rfl
      rw [children_element_self]
      refine ⟨_ :: segments, mapM_cons_eq_ok (segmentOf_eq_ok hpoints) hsegments, ?_⟩
      rw [setTexts_element_other fun _ => rfl, addSegments_cons, onEnd_trkseg hs]
  | emptyMetadata | emptyPoint => cases hlevel

section Metadata

variable {version : GpxVersion}

theorem addTracks_setTexts (tracks : List GpxTrack) (s : State)
    : addTracks tracks (setTexts unescape .metadata content s)
        = setTexts unescape .metadata content (addTracks tracks s) := by
  rw [setTexts_metadata, setTexts_metadata]
  rfl

theorem metadataContent_nil : metadataContent version .nil = .nil := by
  cases version <;> rfl

-- the metadata of the first version are next to the tracks
theorem setTexts_metadataContent (htexts : ∀ s, setTexts unescape (.gpx version) content s
      = setTexts unescape (.gpx version) rest s)
    (hchildren : ∀ name inner, (Level.gpx version).within? name = some inner →
      content.children name = rest.children name)
    : setTexts unescape .metadata (metadataContent version content) s
        = setTexts unescape .metadata (metadataContent version rest) s := by
  cases version with
  | gpx10 => exact htexts s
  | gpx11 => simp only [metadataContent, hchildren "metadata" .metadata rfl]

theorem metadataContent_text {target : TextTarget} (htext : (Level.gpx version).text? tag.localName = some target)
    (hsingle : rest.children tag.localName = [])
    : setTexts unescape .metadata (metadataContent version (.element true tag content rest)) s
        = setTexts unescape .metadata (metadataContent version rest)
            (setText? target (content.text? unescape) s) := by
  cases version with
  | gpx10 =>
    show setTexts unescape (.gpx .gpx10) _ s = setTexts unescape (.gpx .gpx10) _ _
    exact setTexts_element_text htext hsingle
  | gpx11 => simp [Level.text?] at htext

theorem metadataContent_trk {attributes : List (String × String)}
    : setTexts unescape .metadata (metadataContent version (.element true ⟨"trk", attributes⟩ content rest)) s
        = setTexts unescape .metadata (metadataContent version rest) s := by
  cases version with
  | gpx10 => exact setTexts_element_other fun _ => rfl
  | gpx11 => rfl

theorem metadataContent_of_nil (h : rest.children "metadata" = []) : metadataContent .gpx11 rest = .nil := by
  rw [metadataContent, h]
  rfl

theorem metadataContent_metadata {attributes : List (String × String)}
    : metadataContent .gpx11 (.element true ⟨"metadata", attributes⟩ content rest) = content := by
  rw [metadataContent, children_element_self]
  rfl

theorem metadataContent_empty {attributes : List (String × String)}
    : metadataContent .gpx11 (.empty true ⟨"metadata", attributes⟩ rest) = .nil := by
  rw [metadataContent, children_empty_self]
  rfl

end Metadata

theorem Walked.tracks {version : GpxVersion} (h : Walked unescape level content s s') (hlevel : level = .gpx version)
    : ∃ tracks, (content.children "trk").mapM (trackOf unescape) = .ok tracks
        ∧ s' = setTexts unescape .metadata (metadataContent version content) (addTracks tracks s) := by
  induction h with
  | nil level s => exact ⟨[], rfl, by rw [addTracks_nil, metadataContent_nil, setTexts_nil]⟩
  | skip htexts hchildren _ ih =>
    subst hlevel
    rw [hchildren "trk" .trk (by simp [Level.within?])]
    simp only [setTexts_metadataContent htexts hchildren]
    exact ih rfl
  | text htext hsingle _ ih =>
    subst hlevel
    obtain ⟨tracks, htracks, rfl⟩ := ih rfl
    refine ⟨tracks, ?_, ?_⟩
    . have htrk : (Level.gpx version).within? "trk" = some .trk := by simp [Level.within?]
      rw [children_element_text htext htrk, htracks]
    . rw [metadataContent_text htext hsingle, addTracks_setText?]
  | element hs hentered hsingle hcontent _ _ ih =>
    subst hlevel
    obtain ⟨tracks, htracks, rfl⟩ := ih rfl
    cases hentered with
    | metadata attributes =>
      refine ⟨tracks, htracks, ?_⟩
      rw [hcontent.texts (.inl rfl), onEnd_metadata hs, metadataContent_of_nil (hsingle rfl), setTexts_nil,
        metadataContent_metadata, addTracks_setTexts]
    | trk _ attributes =>
      obtain ⟨segments, hsegments, rfl⟩ := hcontent.segments rfl
      rw [children_element_self]
      refine ⟨_ :: tracks, mapM_cons_eq_ok (trackOf_eq_ok hsegments) htracks, ?_⟩
      rw [metadataContent_trk, addTracks_cons, onEnd_trk hs]
  | @emptyMetadata tag _ _ _ hname hsingle _ ih =>
    obtain ⟨localName, attributes⟩ := tag
    obtain rfl : localName = "metadata" := hname
    obtain rfl : GpxVersion.gpx11 = version := Level.gpx.inj hlevel
    obtain ⟨tracks, htracks, rfl⟩ := ih rfl
    refine ⟨tracks, htracks, ?_⟩
    rw [metadataContent_of_nil hsingle, metadataContent_empty]
  | emptyPoint => cases hlevel

end Outcomes

/-
Whole documents.
-/

section Documents

variable {codec : Xml.Codec} {document : Document} {version : GpxVersion} {s : State} {result : GpxParseResult}

theorem finish_of_parseGpx {input : Bytes} {text : String} (htext : String.fromUTF8? ⟨input.toArray⟩ = some text)
    (h : parseGpx codec input = .ok result)
    : ∃ s, Reads codec.unescape .start (codec.read text) s ∧ finish s = .ok result := by
  unfold parseGpx at h
  split at h
  . cases h
  . rw [htext] at h
    simp only at h
    split at h
    . cases h
    . cases hreads : readEvents codec.unescape .start (codec.read text) with
      | error e =>
        rw [hreads] at h
        cases h
      | ok s =>
        rw [hreads] at h
        exact ⟨s, hreads, h⟩

-- the state below the root
def State.root (version : GpxVersion) : State := { State.start with depth := 1, version := some version }

theorem onStart_root (hconforms : document.Conforms version)
    : onStart document.tag .start = .ok (State.root version) := by
  have hstart : onStart document.tag .start = startElement document.tag { State.start with depth := 1 } := rfl
  have htag : document.tag = ⟨"gpx", document.tag.attributes⟩ := by rw [← hconforms.name]
  have hversion := hconforms.attributes
  rw [hstart, htag, startElement_gpx]
  simp only [State.start, hversion]
  rfl

theorem State.at_root : (State.root version).At (.gpx version) := ⟨rfl, rfl, rfl, rfl, rfl, rfl, rfl, rfl, rfl⟩

theorem metadata_of_setTexts {content : Content} (hnone : s.metadata = State.start.metadata)
    : (setTexts unescape .metadata content s).metadata = metadataOf unescape content := by
  rw [setTexts_metadata, hnone, metadataOf]
  cases childText unescape "name" content <;> cases childText unescape "desc" content <;>
    cases childText unescape "time" content <;> rfl

theorem finish_root (tracks : List GpxTrack) (content : Content)
    : finish (onEnd "gpx" (setTexts unescape .metadata content (addTracks tracks (State.root version)))) = .ok {
      version
      metadata := metadataOf unescape content
      tracks
      totalPoints := (tracks.map fun track => pointCount track.segments).sum
    } := by
  have hend (s : State) : onEnd "gpx" s = { s with depth := s.depth - 1, currentTextTarget := none } := rfl
  rw [hend, ← metadata_of_setTexts (s := addTracks tracks (State.root version)) rfl, setTexts_metadata]
  simp only [finish, addTracks, State.root, State.start, Nat.sub_self, Nat.lt_irrefl, if_false, List.nil_append,
    Nat.zero_add]

-- an empty root has no version that the parser reads
theorem not_finish_of_empty {tag : Tag} {s₁ : State} (hname : tag.localName = "gpx")
    (h : Reads codec.unescape .start [.empty tag] s₁) (hepilog : Reads codec.unescape s₁ document.epilog.events s)
    (htext : document.epilog.isText = true) : finish s ≠ .ok result := by
  obtain ⟨s₂, hempty, hnil⟩ := reads_cons.mp h
  obtain rfl := Except.ok.inj hnil
  rcases onEmpty_cases hempty with ⟨_, rfl⟩ | ⟨⟨htrkpt, _⟩, _⟩
  . obtain rfl := hepilog.of_isText htext rfl
    intro hfinish
    cases hfinish
  . rw [hname] at htrkpt
    exact absurd htrkpt (by decide)

theorem read_of_reads (hblanks : codec.KeepsBlanks) (hconforms : document.Conforms version)
    (hclear : document.Unmistakable version) (h : Reads codec.unescape .start document.events s)
    (hfinish : finish s = .ok result) : document.read codec.unescape version = .ok result := by
  obtain ⟨s₂, hbefore, hepilog⟩ := reads_append.mp h
  obtain ⟨s₁, hprolog, hroot⟩ := reads_append.mp hbefore
  obtain rfl := hprolog.of_isText hconforms.prolog rfl
  have hcontent := hconforms.content
  unfold Document.Unmistakable at hclear
  unfold Document.read
  cases hdocument : document.content with
  | none =>
    rw [hdocument] at hroot
    exact absurd hfinish (not_finish_of_empty hconforms.name hroot hepilog hconforms.epilog)
  | some content =>
    rw [hdocument] at hroot hcontent hclear
    obtain ⟨s₃, hstart, hrest⟩ := reads_cons.mp hroot
    obtain ⟨s₄, hread, hend⟩ := reads_append.mp hrest
    rw [onEvent, onStart_root hconforms] at hstart
    obtain rfl := Except.ok.inj hstart
    obtain ⟨tracks, htracks, rfl⟩ :=
      (walked_of_reads hblanks hread State.at_root hcontent hclear).1.tracks rfl
    obtain ⟨s₅, hend, hnil⟩ := reads_cons.mp hend
    obtain rfl := Except.ok.inj hend
    obtain rfl := Except.ok.inj hnil
    rw [hconforms.name] at hepilog
    obtain rfl := hepilog.of_isText hconforms.epilog rfl
    rw [finish_root] at hfinish
    obtain rfl := Except.ok.inj hfinish
    simp only [Option.getD_some, htracks]
    rfl

end Documents

end GpxParser

open GpxParser

/--
Where nothing can be taken for what it is not the parser reads the tree that the document is.
-/
theorem parseGpx_reads_tree {codec : Xml.Codec} (hblanks : codec.KeepsBlanks) {input : Bytes} {text : String}
    {document : Document} {version : GpxVersion} {result : GpxParseResult}
    (htext : String.fromUTF8? ⟨input.toArray⟩ = some text) (hevents : codec.read text = document.events)
    (hconforms : document.Conforms version) (hclear : document.Unmistakable version)
    (h : parseGpx codec input = .ok result) : document.read codec.unescape version = .ok result := by
  obtain ⟨s, hreads, hfinish⟩ := finish_of_parseGpx htext h
  rw [hevents] at hreads
  exact read_of_reads hblanks hconforms hclear hreads hfinish

/-
The author of a document, with a name or with a link only.
-/

def authorPieces (author : String) : List String :=
  ["<gpx version=\"1.1\" creator=\"test\" ", "xmlns=\"http://www.topografix.com/GPX/1/1\">", "<metadata><name>Tour</name>",
    "<author>", author, "</author></metadata>", "<trk>", segmentText, "</trk></gpx>"]

def authorText (author : String) : String := String.join (authorPieces author)

def authorDocument (author : Xml.Content) : Document where
  prolog := .nil
  tag := ⟨"gpx", [("version", "1.1"), ("creator", "test"), ("xmlns", "http://www.topografix.com/GPX/1/1")]⟩
  content := some (.element true ⟨"metadata", []⟩
    (.element true ⟨"name", []⟩ (.text "Tour" .nil) (.element true ⟨"author", []⟩ author .nil))
    (.element true ⟨"trk", []⟩
      (.element true ⟨"trkseg", []⟩ (.element true ⟨"trkpt", [("lat", "46"), ("lon", "7")]⟩ .nil .nil) .nil) .nil))
  epilog := .nil

def authorResult (name : String) : GpxParseResult where
  version := .gpx11
  metadata := { name := some name, description := none, time := none }
  tracks := [⟨none, [⟨[{ lat := .fin 46, lon := .fin 7, elevation := none, time := none }]⟩]⟩]
  totalPoints := 1

-- the pieces are read one by one
theorem parseGpx_authorText (author : String) (content : Xml.Content) (result : GpxParseResult)
    (hsize : (authorText author).toUTF8.data.toList.length ≤ MAX_INPUT_SIZE)
    (hplain : ∀ pat ∈ ["<!DOCTYPE", "<!ENTITY"], ¬pat.toList <:+: (authorPieces author).flatMap (·.toList))
    (hscan : Xml.scanFrom false [] ((authorPieces author).flatMap (·.toList)) = (authorDocument content).events)
    (hevents : (do finish (← readEvents Xml.scanner.unescape .start (authorDocument content).events)) = .ok result)
    : Xml.scanner.read (authorText author) = (authorDocument content).events
      ∧ parseGpx Xml.scanner (authorText author).toUTF8.data.toList = .ok result := by
  have hread : Xml.scanner.read (authorText author) = (authorDocument content).events := by
    rw [← hscan, ← Xml.toList_join]
    rfl
  refine ⟨hread, ?_⟩
  rw [← Xml.toList_join] at hplain
  rw [parseGpx_toUTF8 Xml.scanner hsize, hread, hevents]
  rw [Bool.or_eq_false_iff]
  exact ⟨decide_eq_false (hplain _ List.mem_cons_self),
    decide_eq_false (hplain _ (List.mem_cons_of_mem _ List.mem_cons_self))⟩

def authorLink : Xml.Content := .element true ⟨"link", [("href", "a")]⟩ .nil .nil

def authorName : Xml.Content := .element true ⟨"name", []⟩ (.text "Ann" .nil) .nil

theorem parseGpx_reads_tree_authorText
    : (authorDocument authorLink).read Xml.scanner.unescape .gpx11 = .ok (authorResult "Tour") := by
  obtain ⟨hread, hparse⟩ := parseGpx_authorText "<link href=\"a\"></link>" authorLink (authorResult "Tour")
    (by decide +kernel) (by decide +kernel) (by decide +kernel) (by decide +kernel)
  exact parseGpx_reads_tree Xml.keepsBlanks_scanner (fromUTF8?_toUTF8 _) hread ⟨rfl, rfl, rfl, by decide, rfl⟩
    (by decide) hparse

/--
The parser takes the name of the author for that of the document.
-/
theorem author_read_as_name
    : parseGpx Xml.scanner (authorText "<name>Ann</name>").toUTF8.data.toList = .ok (authorResult "Ann")
      ∧ Xml.scanner.read (authorText "<name>Ann</name>") = (authorDocument authorName).events
      ∧ (authorDocument authorName).Conforms .gpx11
      ∧ (authorDocument authorName).read Xml.scanner.unescape .gpx11 = .ok (authorResult "Tour")
      ∧ authorResult "Ann" ≠ authorResult "Tour" := by
  obtain ⟨hread, hparse⟩ := parseGpx_authorText "<name>Ann</name>" authorName (authorResult "Ann")
    (by decide +kernel) (by decide +kernel) (by decide +kernel) (by decide +kernel)
  exact ⟨hparse, hread, ⟨rfl, rfl, rfl, by decide, rfl⟩, by decide +kernel, by decide⟩

end Imports
