import Haiker.Imports.Lemmas.GpxParser
import Haiker.Xml.Forest

/-!
This module contains which track points of a document are kept, and when the number of points that the
parser reports is theirs.
-/

open Rust

namespace Imports

namespace GpxParser

open Xml (Forest Tag)

abbrev Place := F64 × F64

def placeOf (pt : GpxTrackPoint) : Place := (pt.lat, pt.lon)

-- where the attributes of an element say that it is, if they can be read
def readPlace (tag : Tag) : Option Place := (readPoint tag.attributes).toOption.map placeOf

/-
What of the state is about points.
-/

-- a point in the making is open, and so are its segment and its track
structure Store where
  tracks : List (Option Place)
  track : Option (List (Option Place))
  segment : Option (List (Option Place))
  point : Option (Option Place)
  counted : Nat

namespace Store

def start : Store := ⟨[], none, none, none, 0⟩

def next (s : Store) : Xml.Event → Store
  | .start tag =>
    match tag.localName with
    | "trk" => { s with track := some [] }
    | "trkseg" => { s with segment := some [] }
    | "trkpt" => { s with point := some (readPlace tag), counted := s.counted + 1 }
    | _ => s
  | .end_ localName =>
    match localName with
    | "trk" => { s with tracks := s.tracks ++ s.track.getD [], track := none }
    | "trkseg" => { s with track := s.track.map (· ++ s.segment.getD []), segment := none }
    | "trkpt" => { s with segment := s.segment.map (· ++ s.point.toList), point := none }
    | _ => s
  | .empty tag =>
    if tag.localName = "trkpt" ∧ s.segment.isSome then
      { s with counted := s.counted + 1, segment := s.segment.map (· ++ [readPlace tag]) }
    else
      s
  | .text _ | .cData _ | .docType | .other | .error => s

theorem next_start_of_ne {tag : Tag} (htrk : tag.localName ≠ "trk") (htrkseg : tag.localName ≠ "trkseg")
    (htrkpt : tag.localName ≠ "trkpt") (s : Store) : s.next (.start tag) = s := by
  simp only [next]

theorem next_end_of_ne {localName : String} (htrk : localName ≠ "trk") (htrkseg : localName ≠ "trkseg")
    (htrkpt : localName ≠ "trkpt") (s : Store) : s.next (.end_ localName) = s := by
  simp only [next]

end Store

def segmentPlaces (segment : GpxTrackSegment) : List (Option Place) :=
  segment.points.map fun pt => some (placeOf pt)

def trackPlaces (track : GpxTrack) : List (Option Place) := track.segments.flatMap segmentPlaces

def State.store (s : State) : Store where
  tracks := s.tracks.flatMap trackPlaces
  track := s.currentTrack.map trackPlaces
  segment := s.currentSegment.map segmentPlaces
  point := s.currentPoint.map fun pt => some (placeOf pt)
  counted := s.totalPoints

section Simulation

variable {unescape : String → Option String}

theorem readPlace_of_readPoint {tag : Tag} {pt : GpxTrackPoint} (h : readPoint tag.attributes = .ok pt)
    : readPlace tag = some (placeOf pt) := by
  unfold readPlace
  rw [h]
  rfl

/--
A segment is open while the parser takes itself to be in one.
-/
def State.Matches (s : State) : Prop := s.inTrkseg = s.currentSegment.isSome

theorem Started.store {tag : Tag} {s s' : State} (h : Started tag s s') (hmatches : s.Matches)
    : s'.store = s.store.next (.start tag) ∧ s'.Matches := by
  cases h with
  | gpx | metadata | trk => exact ⟨rfl, hmatches⟩
  | trkseg => exact ⟨rfl, rfl⟩
  | trkpt attributes _ point _ hpoint =>
    refine ⟨?_, hmatches⟩
    have hplace : readPlace ⟨"trkpt", attributes⟩ = some (placeOf point) := readPlace_of_readPoint hpoint
    simp only [Store.next, hplace]
    rfl
  | text localName _ _ hname =>
    refine ⟨?_, hmatches⟩
    simp only [structural, List.mem_cons, List.not_mem_nil, or_false, not_or] at hname
    obtain ⟨_, _, htrk, htrkseg, htrkpt⟩ := hname
    rw [Store.next_start_of_ne htrk htrkseg htrkpt]
    rfl

theorem endElement_store {localName : String} {s : State} (hmatches : s.Matches)
    : (endElement localName s).store = s.store.next (.end_ localName) ∧ (endElement localName s).Matches := by
  by_cases hname : localName ∈ structural
  . simp only [structural, List.mem_cons, List.not_mem_nil, or_false] at hname
    rcases hname with rfl | rfl | rfl | rfl | rfl
    . exact ⟨rfl, hmatches⟩
    . exact ⟨rfl, hmatches⟩
    . refine ⟨?_, hmatches⟩
      simp only [endElement, Store.next, State.store]
      cases s.currentTrack <;> simp
    . refine ⟨?_, rfl⟩
      simp only [endElement, Store.next, State.store]
      cases s.currentTrack <;> cases s.currentSegment <;> simp [trackPlaces]
    . refine ⟨?_, ?_⟩
      . simp only [endElement, Store.next, State.store]
        cases s.currentSegment <;> cases s.currentPoint <;> simp [segmentPlaces]
      . simp only [endElement, State.Matches, Option.isSome_map]
        exact hmatches
  . rw [endElement_text hname]
    refine ⟨?_, hmatches⟩
    simp only [structural, List.mem_cons, List.not_mem_nil, or_false, not_or] at hname
    obtain ⟨_, _, htrk, htrkseg, htrkpt⟩ := hname
    rw [Store.next_end_of_ne htrk htrkseg htrkpt]
    rfl

theorem onEmpty_store {tag : Tag} {s s' : State} (h : onEmpty tag s = .ok s') (hmatches : s.Matches)
    : s'.store = s.store.next (.empty tag) ∧ s'.Matches := by
  have hsegment : s.store.segment.isSome = s.inTrkseg := by
    rw [hmatches]
    exact Option.isSome_map
  simp only [Store.next, hsegment]
  rcases onEmpty_cases h with ⟨hnot, rfl⟩ | ⟨htrkpt, _, point, hpoint, rfl⟩
  . rw [if_neg hnot]
    exact ⟨rfl, hmatches⟩
  . rw [if_pos htrkpt, readPlace_of_readPoint hpoint]
    constructor
    . simp only [State.store]
      cases s.currentSegment <;> simp [segmentPlaces]
    . simp only [State.Matches, Option.isSome_map]
      exact hmatches

theorem onText_store (raw : String) {s : State} (hmatches : s.Matches)
    : (onText unescape raw s).store = s.store ∧ (onText unescape raw s).Matches := by
  unfold onText
  cases s.currentTextTarget with
  | none => exact ⟨rfl, hmatches⟩
  | some target =>
    cases target with
    | metadataName | metadataDesc | metadataTime => exact ⟨rfl, hmatches⟩
    | trackName =>
      refine ⟨?_, hmatches⟩
      simp only [setText, State.store]
      cases s.currentTrack <;> rfl
    | pointEle | pointTime =>
      refine ⟨?_, hmatches⟩
      simp only [setText, State.store]
      cases s.currentPoint <;> rfl

theorem onEvent_store {event : Xml.Event} {s s' : State} (h : onEvent unescape s event = .ok s')
    (hmatches : s.Matches) : s'.store = s.store.next event ∧ s'.Matches := by
  cases event with
  | start tag => exact (started_of_onStart h).2.store hmatches
  | end_ localName =>
    obtain rfl := Except.ok.inj h
    exact endElement_store hmatches
  | empty tag => exact onEmpty_store h hmatches
  | text raw =>
    obtain rfl := Except.ok.inj h
    exact onText_store raw hmatches
  | cData _ | other =>
    obtain rfl := Except.ok.inj h
    exact ⟨rfl, hmatches⟩
  | docType | error => cases h

theorem Reads.store {events : List Xml.Event} {s s' : State} (h : Reads unescape s events s')
    (hmatches : s.Matches) : s'.store = events.foldl Store.next s.store := by
  induction events generalizing s with
  | nil =>
    obtain rfl := Except.ok.inj h
    rfl
  | cons event events ih =>
    obtain ⟨between, hevent, hrest⟩ := reads_cons.mp h
    obtain ⟨hstore, hbetween⟩ := onEvent_store hevent hmatches
    rw [ih hrest hbetween, hstore, List.foldl_cons]

end Simulation

/-
What becomes of the points of a whole forest.
-/

-- what the elements with this name come to that open none of the same name within, and the empty ones
def collect (name : String) (content : Tag → Forest → List Tag) (leaf : Tag → List Tag) : Forest → List Tag
  | .nil => []
  | .element tag inner rest =>
    collect name content leaf inner
      ++ ((if tag.localName = name ∧ inner.opens name = false then content tag inner else [])
        ++ collect name content leaf rest)
  | .empty tag rest => (if tag.localName = name then leaf tag else []) ++ collect name content leaf rest
  | .text _ rest | .cData _ rest | .other rest => collect name content leaf rest

-- the points that get into the open segment
def segmentPoints : Forest → List Tag := collect "trkpt" (fun tag _ => [tag]) fun tag => [tag]

-- the points that get into the open track, segment by segment
def trackPoints : Forest → List Tag := collect "trkseg" (fun _ inner => segmentPoints inner) fun _ => []

-- the points that are kept
def keptPoints : Forest → List Tag := collect "trk" (fun _ inner => trackPoints inner) fun _ => []

/--
How many points are counted. `inTrkseg` says whether a segment is open.
-/
def countedPoints (inTrkseg : Bool) : Forest → Nat
  | .nil => 0
  | .element tag inner rest =>
    (if tag.localName = "trkpt" then 1 else 0)
      + countedPoints (inTrkseg || tag.localName = "trkseg") inner
      + countedPoints (inTrkseg && !(tag.localName = "trkseg" || inner.opens "trkseg")) rest
  | .empty tag rest => (if tag.localName = "trkpt" ∧ inTrkseg then 1 else 0) + countedPoints inTrkseg rest
  | .text _ rest | .cData _ rest | .other rest => countedPoints inTrkseg rest

def Store.after (s : Store) (forest : Forest) : Store where
  tracks := s.tracks ++ (keptPoints forest).map readPlace
  track := bif forest.opens "trk" then none else s.track.map (· ++ (trackPoints forest).map readPlace)
  segment := bif forest.opens "trkseg" then none else s.segment.map (· ++ (segmentPoints forest).map readPlace)
  point := bif forest.opens "trkpt" then none else s.point
  counted := s.counted + countedPoints s.segment.isSome forest

section Forests

theorem Store.after_element (s : Store) (tag : Tag) (inner rest : Forest)
    : (((s.next (.start tag)).after inner).next (.end_ tag.localName)).after rest
        = s.after (.element tag inner rest) := by
  by_cases htrk : tag.localName = "trk"
  . simp only [next, htrk, after, Forest.opens, keptPoints, trackPoints, segmentPoints, collect, countedPoints]
    cases inner.opens "trk" <;> cases inner.opens "trkseg" <;> cases inner.opens "trkpt" <;>
      cases s.segment <;> simp [Nat.add_assoc]
  . by_cases htrkseg : tag.localName = "trkseg"
    . simp only [next, htrkseg, after, Forest.opens, keptPoints, trackPoints, segmentPoints, collect, countedPoints]
      cases inner.opens "trk" <;> cases inner.opens "trkseg" <;> cases inner.opens "trkpt" <;>
        cases s.track <;> simp [Nat.add_assoc]
    . by_cases htrkpt : tag.localName = "trkpt"
      . simp only [next, htrkpt, after, Forest.opens, keptPoints, trackPoints, segmentPoints, collect, countedPoints]
        cases inner.opens "trk" <;> cases inner.opens "trkseg" <;> cases inner.opens "trkpt" <;>
          cases s.track <;> cases s.segment <;> simp [Nat.add_assoc]
      . rw [next_start_of_ne htrk htrkseg htrkpt, next_end_of_ne htrk htrkseg htrkpt]
        simp only [after, Forest.opens, keptPoints, trackPoints, segmentPoints, collect, countedPoints, htrk,
          htrkseg, htrkpt]
        cases inner.opens "trk" <;> cases inner.opens "trkseg" <;> cases inner.opens "trkpt" <;>
          cases s.track <;> cases s.segment <;> simp [Nat.add_assoc]

theorem Store.after_empty (s : Store) (tag : Tag) (rest : Forest)
    : (s.next (.empty tag)).after rest = s.after (.empty tag rest) := by
  by_cases htrkpt : tag.localName = "trkpt"
  . simp only [next, htrkpt, after, Forest.opens, keptPoints, trackPoints, segmentPoints, collect, countedPoints]
    cases hsegment : s.segment <;> simp [hsegment, Nat.add_assoc]
  . simp [next, htrkpt, after, Forest.opens, keptPoints, trackPoints, segmentPoints, collect, countedPoints]

theorem Store.foldl_next (forest : Forest) (s : Store) : forest.events.foldl next s = s.after forest := by
  induction forest generalizing s with
  | nil =>
    cases s with
    | mk tracks track segment point counted =>
      cases track <;> cases segment <;>
        simp [Forest.events, after, Forest.opens, keptPoints, trackPoints, segmentPoints, collect, countedPoints]
  | element tag inner rest ihinner ihrest =>
    rw [Forest.events, List.foldl_cons, List.foldl_append, List.foldl_cons, ihinner, ihrest, after_element]
  | empty tag rest ih =>
    rw [Forest.events, List.foldl_cons, ih, after_empty]
  | text _ rest ih | cData _ rest ih | other rest ih =>
    rw [Forest.events, List.foldl_cons, ih]
    rfl

end Forests

/-
What should become of them.
-/

/--
The track points that lie in a segment of the document.
-/
def members (inTrkseg : Bool) : Forest → List Tag
  | .nil => []
  | .element tag inner rest =>
    (if tag.localName = "trkpt" ∧ inTrkseg then [tag] else [])
      ++ (members (inTrkseg || tag.localName = "trkseg") inner ++ members inTrkseg rest)
  | .empty tag rest => (if tag.localName = "trkpt" ∧ inTrkseg then [tag] else []) ++ members inTrkseg rest
  | .text _ rest | .cData _ rest | .other rest => members inTrkseg rest

/--
What is around a place in a document: a track that keeps the segments in it, a segment that keeps the points
in it, any segment.
-/
structure Around where
  keepsSegments : Bool
  keepsPoints : Bool
  inTrkseg : Bool

def Around.outside : Around := ⟨false, false, false⟩

-- a track that opens no other one within keeps its segments, and the same goes for segments in such a track
def Around.enter (around : Around) (tag : Tag) (inner : Forest) : Around where
  keepsSegments := if tag.localName = "trk" then !inner.opens "trk" else around.keepsSegments
  keepsPoints :=
    if tag.localName = "trkseg" then around.keepsSegments && !inner.opens "trkseg" else around.keepsPoints
  inTrkseg := around.inTrkseg || tag.localName = "trkseg"

/--
Every track point that is opened or lies in a segment is in a segment that keeps it, and opens no other
track point within.
-/
def soundIn (around : Around) : Forest → Bool
  | .nil => true
  | .element tag inner rest =>
    (tag.localName ≠ "trkpt" || around.keepsPoints && !inner.opens "trkpt")
      && soundIn (around.enter tag inner) inner && soundIn around rest
  | .empty tag rest =>
    (tag.localName ≠ "trkpt" || !around.inTrkseg || around.keepsPoints) && soundIn around rest
  | .text _ rest | .cData _ rest | .other rest => soundIn around rest

def Sound (document : Forest) : Prop := soundIn .outside document = true

instance (document : Forest) : Decidable (Sound document) :=
  inferInstanceAs (Decidable (soundIn .outside document = true))

-- the points that are kept, by what is around them
def keptIn (around : Around) : Forest → List Tag
  | .nil => []
  | .element tag inner rest =>
    keptIn (around.enter tag inner) inner
      ++ ((if tag.localName = "trkpt" ∧ around.keepsPoints ∧ inner.opens "trkpt" = false then [tag] else [])
        ++ keptIn around rest)
  | .empty tag rest =>
    (if tag.localName = "trkpt" ∧ around.keepsPoints then [tag] else []) ++ keptIn around rest
  | .text _ rest | .cData _ rest | .other rest => keptIn around rest

section Kept

theorem collect_of_not_opens {name : String} (content : Tag → Forest → List Tag) {forest : Forest}
    (h : forest.opens name = false) : collect name content (fun _ => []) forest = [] := by
  induction forest with
  | nil => rfl
  | element tag inner rest ihinner ihrest =>
    simp only [Forest.opens, Bool.or_eq_false_iff, decide_eq_false_iff_not] at h
    obtain ⟨⟨htag, hinner⟩, hrest⟩ := h
    have hnot : ¬(tag.localName = name ∧ inner.opens name = false) := fun hown => htag hown.1
    rw [collect, ihinner hinner, ihrest hrest, if_neg hnot]
    rfl
  | empty tag rest ih =>
    rw [collect, ih h]
    split <;> rfl
  | text _ rest ih | cData _ rest ih | other rest ih => exact ih h

theorem keptIn_segment {around : Around} {forest : Forest} (h : forest.opens "trkseg" = false)
    : keptIn around forest = if around.keepsPoints then segmentPoints forest else [] := by
  induction forest generalizing around with
  | nil => cases around.keepsPoints <;> rfl
  | element tag inner rest ihinner ihrest =>
    simp only [Forest.opens, Bool.or_eq_false_iff, decide_eq_false_iff_not] at h
    obtain ⟨⟨htag, hinner⟩, hrest⟩ := h
    have henter : (around.enter tag inner).keepsPoints = around.keepsPoints := if_neg htag
    rw [keptIn, ihinner hinner, ihrest hrest, henter]
    unfold segmentPoints
    rw [collect]
    cases around.keepsPoints <;> simp
  | empty tag rest ih =>
    rw [keptIn, ih h]
    unfold segmentPoints
    rw [collect]
    cases around.keepsPoints <;> simp
  | text _ rest ih | cData _ rest ih | other rest ih => exact ih h

theorem keptIn_track {around : Around} {forest : Forest} (hpoints : around.keepsPoints = false)
    (h : forest.opens "trk" = false)
    : keptIn around forest = if around.keepsSegments then trackPoints forest else [] := by
  induction forest generalizing around with
  | nil => cases around.keepsSegments <;> rfl
  | element tag inner rest ihinner ihrest =>
    simp only [Forest.opens, Bool.or_eq_false_iff, decide_eq_false_iff_not] at h
    obtain ⟨⟨htag, hinner⟩, hrest⟩ := h
    have hsegments : (around.enter tag inner).keepsSegments = around.keepsSegments := if_neg htag
    have hown : keptIn (around.enter tag inner) inner = if around.keepsSegments then
        trackPoints inner ++ (if tag.localName = "trkseg" ∧ inner.opens "trkseg" = false then
          segmentPoints inner else []) else [] := by
      by_cases htrkseg : tag.localName = "trkseg"
      . have henter : (around.enter tag inner).keepsPoints = (around.keepsSegments && !inner.opens "trkseg") :=
          if_pos htrkseg
        cases hopens : inner.opens "trkseg" with
        | true =>
          have hnone : (around.enter tag inner).keepsPoints = false := by
            rw [henter, hopens]
            exact Bool.and_false _
          rw [ihinner hnone hinner, hsegments]
          simp
        | false =>
          have hnested : trackPoints inner = [] := collect_of_not_opens _ hopens
          rw [keptIn_segment hopens, henter, hopens, hnested]
          simp [htrkseg]
      . have henter : (around.enter tag inner).keepsPoints = false := (if_neg htrkseg).trans hpoints
        rw [ihinner henter hinner, hsegments]
        simp [htrkseg]
    rw [keptIn, hown, ihrest hpoints hrest, hpoints]
    unfold trackPoints
    rw [collect]
    cases around.keepsSegments <;> simp
  | empty tag rest ih =>
    rw [keptIn, ih hpoints h, hpoints]
    unfold trackPoints
    rw [collect]
    cases around.keepsSegments <;> simp
  | text _ rest ih | cData _ rest ih | other rest ih => exact ih hpoints h

theorem keptIn_document {around : Around} (hsegments : around.keepsSegments = false)
    (hpoints : around.keepsPoints = false) (forest : Forest) : keptIn around forest = keptPoints forest := by
  induction forest generalizing around with
  | nil => rfl
  | element tag inner rest ihinner ihrest =>
    have henter : (around.enter tag inner).keepsPoints = false := by
      simp [Around.enter, hsegments, hpoints]
    have hown : keptIn (around.enter tag inner) inner = keptPoints inner
        ++ (if tag.localName = "trk" ∧ inner.opens "trk" = false then trackPoints inner else []) := by
      by_cases htrk : tag.localName = "trk"
      . have hkeeps : (around.enter tag inner).keepsSegments = !inner.opens "trk" := if_pos htrk
        cases hopens : inner.opens "trk" with
        | true =>
          rw [hopens] at hkeeps
          rw [ihinner hkeeps henter]
          simp
        | false =>
          rw [hopens] at hkeeps
          have hnested : keptPoints inner = [] := collect_of_not_opens _ hopens
          rw [keptIn_track henter hopens, hkeeps, hnested]
          simp [htrk]
      . have hkeeps : (around.enter tag inner).keepsSegments = false := (if_neg htrk).trans hsegments
        rw [ihinner hkeeps henter]
        simp [htrk]
    rw [keptIn, hown, ihrest hsegments hpoints, hpoints]
    unfold keptPoints
    rw [collect]
    simp
  | empty tag rest ih =>
    rw [keptIn, ih hsegments hpoints, hpoints]
    unfold keptPoints
    rw [collect]
    simp
  | text _ rest ih | cData _ rest ih | other rest ih => exact ih hsegments hpoints

end Kept

/-
The points that are kept are among those that are counted, and among the members of segments.
-/

section Counts

/--
`open_` says whether the parser takes itself to be in a segment: it does in one that keeps its points.
-/
structure Around.Fits (around : Around) (open_ : Bool) (forest : Forest) : Prop where
  keeps : around.keepsPoints = true → open_ = true ∧ forest.opens "trkseg" = false
  inTrkseg : open_ = true → around.inTrkseg = true

variable {around : Around} {open_ : Bool} {tag : Tag} {inner rest : Forest}

theorem Around.Fits.content (h : around.Fits open_ (.element tag inner rest))
    : (around.enter tag inner).Fits (open_ || tag.localName = "trkseg") inner := by
  constructor
  . intro hkeeps
    by_cases htrkseg : tag.localName = "trkseg"
    . simp only [enter, if_pos htrkseg, Bool.and_eq_true, Bool.not_eq_true'] at hkeeps
      exact ⟨by simp [htrkseg], hkeeps.2⟩
    . simp only [enter, if_neg htrkseg] at hkeeps
      obtain ⟨hopen, hopens⟩ := h.keeps hkeeps
      simp only [Forest.opens, Bool.or_eq_false_iff] at hopens
      exact ⟨by simp [hopen], hopens.1.2⟩
  . intro hopen
    simp only [enter, Bool.or_eq_true] at hopen ⊢
    exact hopen.imp_left h.inTrkseg

theorem Around.Fits.after (h : around.Fits open_ (.element tag inner rest))
    : around.Fits (open_ && !(tag.localName = "trkseg" || inner.opens "trkseg")) rest := by
  constructor
  . intro hkeeps
    obtain ⟨hopen, hopens⟩ := h.keeps hkeeps
    simp only [Forest.opens, Bool.or_eq_false_iff] at hopens
    refine ⟨?_, hopens.2⟩
    rw [hopen, hopens.1.1, hopens.1.2]
    rfl
  . intro hopen
    exact h.inTrkseg (Bool.and_eq_true_iff.mp hopen).1

theorem Around.Fits.inTrkseg_of_keeps {forest : Forest} (h : around.Fits open_ forest)
    (hkeeps : around.keepsPoints = true) : around.inTrkseg = true := h.inTrkseg (h.keeps hkeeps).1

-- what an element itself adds
theorem Around.Fits.length_own_le (h : around.Fits open_ (.element tag inner rest))
    : (if tag.localName = "trkpt" ∧ around.keepsPoints ∧ inner.opens "trkpt" = false then [tag] else []).length
          ≤ (if tag.localName = "trkpt" then 1 else 0)
        ∧ (if tag.localName = "trkpt" ∧ around.keepsPoints ∧ inner.opens "trkpt" = false then [tag] else []).length
          ≤ (if tag.localName = "trkpt" ∧ around.inTrkseg then [tag] else []).length := by
  split
  . next hown =>
    have hinTrkseg := h.inTrkseg_of_keeps hown.2.1
    simp [hown.1, hinTrkseg]
  . exact ⟨Nat.zero_le _, Nat.zero_le _⟩

theorem length_keptIn_le {forest : Forest} (h : around.Fits open_ forest)
    : (keptIn around forest).length ≤ countedPoints open_ forest
        ∧ (keptIn around forest).length ≤ (members around.inTrkseg forest).length := by
  induction forest generalizing around open_ with
  | nil => exact ⟨Nat.le_refl 0, Nat.le_refl 0⟩
  | element tag inner rest ihinner ihrest =>
    obtain ⟨hinner, hinner'⟩ := ihinner h.content
    obtain ⟨hrest, hrest'⟩ := ihrest h.after
    obtain ⟨hcounted, hmember⟩ := h.length_own_le
    have henter : (around.enter tag inner).inTrkseg = (around.inTrkseg || tag.localName = "trkseg") := rfl
    rw [henter] at hinner'
    simp only [keptIn, countedPoints, members, List.length_append]
    omega
  | empty tag rest ih =>
    obtain ⟨hrest, hrest'⟩ := ih ⟨h.keeps, h.inTrkseg⟩
    have hcounted : (if tag.localName = "trkpt" ∧ around.keepsPoints then [tag] else []).length
        ≤ if tag.localName = "trkpt" ∧ open_ then 1 else 0 := by
      split
      . next hown => simp [hown.1, (h.keeps hown.2).1]
      . exact Nat.zero_le _
    have hmember : (if tag.localName = "trkpt" ∧ around.keepsPoints then [tag] else []).length
        ≤ (if tag.localName = "trkpt" ∧ around.inTrkseg then [tag] else []).length := by
      split
      . next hown => simp [hown.1, h.inTrkseg_of_keeps hown.2]
      . exact Nat.zero_le _
    simp only [keptIn, countedPoints, members, List.length_append]
    omega
  | text _ rest ih | cData _ rest ih | other rest ih => exact ih ⟨h.keeps, h.inTrkseg⟩

theorem soundIn_of_length {forest : Forest} (h : around.Fits open_ forest)
    (hcounted : (keptIn around forest).length = countedPoints open_ forest)
    (hmembers : (keptIn around forest).length = (members around.inTrkseg forest).length)
    : soundIn around forest = true := by
  induction forest generalizing around open_ with
  | nil => rfl
  | element tag inner rest ihinner ihrest =>
    obtain ⟨hinner, hinner'⟩ := length_keptIn_le h.content
    obtain ⟨hrest, hrest'⟩ := length_keptIn_le h.after
    have henter : (around.enter tag inner).inTrkseg = (around.inTrkseg || tag.localName = "trkseg") := rfl
    rw [henter] at hinner'
    simp only [keptIn, countedPoints, members, List.length_append] at hcounted hmembers
    have hown : (tag.localName ≠ "trkpt" || around.keepsPoints && !inner.opens "trkpt") = true := by
      by_cases htrkpt : tag.localName = "trkpt"
      . by_cases hkept : around.keepsPoints ∧ inner.opens "trkpt" = false
        . simp [hkept.1, hkept.2]
        . rw [if_pos htrkpt, if_neg fun hall => hkept hall.2, List.length_nil] at hcounted
          omega
      . simp [htrkpt]
    obtain ⟨hle, hle'⟩ := h.length_own_le
    have hsoundInner := ihinner h.content (by omega) (by rw [henter]; omega)
    have hsoundRest := ihrest h.after (by omega) (by omega)
    rw [soundIn, hown, hsoundInner, hsoundRest]
    rfl
  | empty tag rest ih =>
    have hfits : around.Fits open_ rest := ⟨h.keeps, h.inTrkseg⟩
    obtain ⟨hrest, hrest'⟩ := length_keptIn_le hfits
    simp only [keptIn, countedPoints, members, List.length_append] at hcounted hmembers
    by_cases htrkpt : tag.localName = "trkpt"
    . cases hkeeps : around.keepsPoints with
      | true =>
        have hopen := (h.keeps hkeeps).1
        have hinTrkseg := h.inTrkseg_of_keeps hkeeps
        simp only [htrkpt, hkeeps, hopen, hinTrkseg, and_self, if_true, List.length_singleton] at hcounted hmembers
        have hsound := ih hfits (by rw [hopen]; omega) (by rw [hinTrkseg]; omega)
        rw [soundIn, hsound, hkeeps]
        simp
      | false =>
        cases hinTrkseg : around.inTrkseg with
        | true =>
          simp only [htrkpt, hkeeps, hinTrkseg, and_self, if_true, List.length_singleton, Bool.false_eq_true,
            and_false, if_false, List.length_nil] at hmembers
          rw [hinTrkseg] at hrest'
          omega
        | false =>
          have hopen : open_ = false := by
            cases hopen : open_ with
            | true => rw [h.inTrkseg hopen] at hinTrkseg; cases hinTrkseg
            | false => rfl
          simp only [hkeeps, hinTrkseg, hopen, Bool.false_eq_true, and_false, if_false, List.length_nil,
            Nat.zero_add] at hcounted hmembers
          have hsound := ih hfits (by rw [hopen]; exact hcounted) (by rw [hinTrkseg]; exact hmembers)
          rw [soundIn, hsound, hinTrkseg]
          simp
    . simp only [htrkpt, false_and, if_false, List.length_nil, Nat.zero_add] at hcounted hmembers
      rw [soundIn, ih hfits hcounted hmembers]
      simp [htrkpt]
  | text _ rest ih | cData _ rest ih | other rest ih => exact ih ⟨h.keeps, h.inTrkseg⟩ hcounted hmembers

theorem kept_of_soundIn {forest : Forest} (h : around.Fits open_ forest) (hsound : soundIn around forest = true)
    : (keptIn around forest).length = countedPoints open_ forest
        ∧ (keptIn around forest).Perm (members around.inTrkseg forest) := by
  induction forest generalizing around open_ with
  | nil => exact ⟨rfl, .refl _⟩
  | element tag inner rest ihinner ihrest =>
    simp only [soundIn, Bool.and_eq_true] at hsound
    obtain ⟨⟨hown, hsoundInner⟩, hsoundRest⟩ := hsound
    obtain ⟨hinner, hinner'⟩ := ihinner h.content hsoundInner
    obtain ⟨hrest, hrest'⟩ := ihrest h.after hsoundRest
    simp only [keptIn, countedPoints, members, List.length_append, hinner, hrest]
    by_cases htrkpt : tag.localName = "trkpt"
    . have hkept : around.keepsPoints = true ∧ inner.opens "trkpt" = false := by simpa [htrkpt] using hown
      have hinTrkseg := h.inTrkseg_of_keeps hkept.1
      rw [if_pos ⟨htrkpt, hkept⟩, if_pos htrkpt, if_pos ⟨htrkpt, hinTrkseg⟩]
      refine ⟨by rw [List.length_singleton]; omega, ?_⟩
      exact (hinner'.append (hrest'.append_left [tag])).trans (List.perm_append_comm_assoc ..)
    . have hnot : ¬(tag.localName = "trkpt" ∧ around.keepsPoints ∧ inner.opens "trkpt" = false) :=
        fun hall => htrkpt hall.1
      have hnot' : ¬(tag.localName = "trkpt" ∧ around.inTrkseg) := fun hall => htrkpt hall.1
      rw [if_neg hnot, if_neg htrkpt, if_neg hnot']
      exact ⟨by rw [List.length_nil]; omega, hinner'.append hrest'⟩
  | empty tag rest ih =>
    simp only [soundIn, Bool.and_eq_true] at hsound
    obtain ⟨hown, hsoundRest⟩ := hsound
    obtain ⟨hrest, hrest'⟩ := ih ⟨h.keeps, h.inTrkseg⟩ hsoundRest
    simp only [keptIn, countedPoints, members, List.length_append, hrest]
    have hsame : (tag.localName = "trkpt" ∧ around.keepsPoints = true)
          ↔ (tag.localName = "trkpt" ∧ around.inTrkseg = true) := by
      refine and_congr_right fun htrkpt => ⟨h.inTrkseg_of_keeps, fun hinTrkseg => ?_⟩
      simpa [htrkpt, hinTrkseg] using hown
    have hopen : (tag.localName = "trkpt" ∧ around.keepsPoints = true)
        ↔ (tag.localName = "trkpt" ∧ open_ = true) := by
      constructor
      . exact fun hkept => ⟨hkept.1, (h.keeps hkept.2).1⟩
      . exact fun hopen => hsame.mpr ⟨hopen.1, h.inTrkseg hopen.2⟩
    constructor
    . by_cases hkept : tag.localName = "trkpt" ∧ around.keepsPoints = true
      . rw [if_pos hkept, if_pos (hopen.mp hkept), List.length_singleton]
      . rw [if_neg hkept, if_neg (hkept ∘ hopen.mpr), List.length_nil]
    . by_cases hkept : tag.localName = "trkpt" ∧ around.keepsPoints = true
      . rw [if_pos hkept, if_pos (hsame.mp hkept)]
        exact hrest'.append_left [tag]
      . rw [if_neg hkept, if_neg (hkept ∘ hsame.mpr)]
        exact hrest'
  | text _ rest ih | cData _ rest ih | other rest ih => exact ih ⟨h.keeps, h.inTrkseg⟩ hsound

end Counts

/-
The documents that are accepted.
-/

def storedPlaces (result : GpxParseResult) : List Place :=
  (result.tracks.flatMap fun track => track.segments.flatMap (·.points)).map placeOf

/--
The number of points that is reported is that of the points that are stored, and they are the track points
in the segments of the document, each once.
-/
structure Honest (document : Forest) (result : GpxParseResult) : Prop where
  totalPoints : result.totalPoints = (storedPlaces result).length
  stored : ((storedPlaces result).map some).Perm ((members false document).map readPlace)

section Accepted

variable {unescape : String → Option String} {events : List Xml.Event} {s s' : State}

theorem depth_of_openAfter {event : Xml.Event} {elements elements' : List String}
    (h : onEvent unescape s event = .ok s') (hopen : Xml.openAfter elements event = some elements')
    (hdepth : s.depth = elements.length) : s'.depth = elements'.length := by
  rw [depth_of_onEvent h, hdepth]
  cases event with
  | start tag =>
    obtain rfl := Option.some.inj hopen
    rfl
  | end_ localName =>
    simp only [Xml.openAfter] at hopen
    split at hopen
    . obtain rfl := Option.some.inj hopen
      exact List.length_tail.symm
    . cases hopen
  | empty | text | cData | other | docType | error =>
    obtain rfl := Option.some.inj hopen
    rfl

theorem isContent_of_onEvent {event : Xml.Event} (h : onEvent unescape s event = .ok s')
    : event.isContent = true := by
  cases event with
  | docType | error => cases h
  | start | end_ | empty | text | cData | other => rfl

theorem Reads.isContent (h : Reads unescape s events s') : ∀ event ∈ events, event.isContent = true := by
  induction events generalizing s with
  | nil => exact fun event hevent => absurd hevent List.not_mem_nil
  | cons event events ih =>
    obtain ⟨between, hevent, hrest⟩ := reads_cons.mp h
    rw [List.forall_mem_cons]
    exact ⟨isContent_of_onEvent hevent, ih hrest⟩

theorem Reads.depth {elements elements' : List String} (h : Reads unescape s events s')
    (hopen : Xml.openAfterAll elements events = some elements') (hdepth : s.depth = elements.length)
    : s'.depth = elements'.length := by
  induction events generalizing s elements with
  | nil =>
    obtain rfl := Except.ok.inj h
    obtain rfl := Option.some.inj hopen
    exact hdepth
  | cons event events ih =>
    obtain ⟨between, hevent, hrest⟩ := reads_cons.mp h
    rw [Xml.openAfterAll, List.foldlM_cons] at hopen
    cases hfirst : Xml.openAfter elements event with
    | none =>
      rw [hfirst] at hopen
      cases hopen
    | some next =>
      rw [hfirst] at hopen
      exact ih hrest hopen (depth_of_openAfter hevent hfirst hdepth)

variable {codec : Xml.Codec} {input : Bytes} {text : String} {result : GpxParseResult}

theorem Accepted.exists_forest (hnests : codec.Nests) (h : Accepted codec input text s result)
    : ∃ document : Forest, codec.read text = document.events := by
  have hcontent := h.reads.isContent
  have herror : Xml.Event.error ∉ codec.read text := fun hmem => by cases hcontent _ hmem
  obtain ⟨elements, helements⟩ := Option.isSome_iff_exists.mp
    (hnests.nests text (codec.read text) [] (List.append_nil _).symm herror)
  have hdepth := h.reads.depth helements rfl
  rw [h.depth] at hdepth
  obtain rfl := List.eq_nil_of_length_eq_zero hdepth.symm
  exact Xml.exists_forest helements hcontent

theorem map_storedPlaces (htracks : result.tracks = s.tracks)
    : (storedPlaces result).map some = s.store.tracks := by
  rw [storedPlaces, htracks, List.map_map, List.map_flatMap]
  apply List.flatMap_congr
  intro track _
  rw [List.map_flatMap]
  rfl

theorem Accepted.honest_iff (h : Accepted codec input text s result) {document : Forest}
    (hdocument : codec.read text = document.events) : Honest document result ↔ Sound document := by
  have hstore := h.reads.store rfl
  rw [hdocument, Store.foldl_next] at hstore
  have hplaces : (storedPlaces result).map some = (keptIn .outside document).map readPlace := by
    rw [map_storedPlaces h.tracks, hstore, keptIn_document rfl rfl]
    exact List.nil_append _
  have htotal : result.totalPoints = countedPoints false document := by
    rw [h.totalPoints]
    exact (congrArg Store.counted hstore).trans (Nat.zero_add _)
  have hlength : (storedPlaces result).length = (keptIn .outside document).length := by
    rw [← List.length_map some, hplaces, List.length_map]
  have hfits : Around.outside.Fits false document := by
    constructor
    . intro hkeeps
      cases hkeeps
    . intro hopen
      cases hopen
  constructor
  . intro hhonest
    have hmembers := hhonest.stored.length_eq
    rw [hplaces, List.length_map, List.length_map] at hmembers
    exact soundIn_of_length hfits (by rw [← htotal, hhonest.totalPoints, hlength]) hmembers
  . intro hsound
    obtain ⟨hcounted, hperm⟩ := kept_of_soundIn hfits hsound
    constructor
    . rw [htotal, hlength, hcounted]
    . rw [hplaces]
      exact hperm.map _

end Accepted

end GpxParser

open GpxParser

/--
For whatever is accepted: the number of points is honest exactly for the documents where each point that
is opened or in a segment belongs to a segment that keeps it.
-/
theorem parseGpx_honest_iff_sound (codec : Xml.Codec) (hnests : codec.Nests) (input : Bytes)
    (result : GpxParseResult) (h : parseGpx codec input = .ok result)
    : ∃ text, String.fromUTF8? ⟨input.toArray⟩ = some text
        ∧ (∃ document : Xml.Forest, codec.read text = document.events)
        ∧ ∀ document : Xml.Forest, codec.read text = document.events →
          (Honest document result ↔ GpxParser.Sound document) := by
  obtain ⟨text, s, haccepted⟩ := accepted_of_parseGpx h
  exact ⟨text, haccepted.utf8, haccepted.exists_forest hnests, fun _ hdocument => haccepted.honest_iff hdocument⟩

/-
A point in a segment, with and without a track around it.
-/

def segmentText : String := "<trkseg><trkpt lat=\"46\" lon=\"7\"></trkpt></trkseg>"

def trackText : String := "<gpx version=\"1.1\"><trk>" ++ segmentText ++ "</trk></gpx>"

def strayText : String := "<gpx version=\"1.1\">" ++ segmentText ++ "</gpx>"

def segmentForest : Xml.Forest :=
  .element ⟨"trkseg", []⟩ (.element ⟨"trkpt", [("lat", "46"), ("lon", "7")]⟩ .nil .nil) .nil

def gpxForest (content : Xml.Forest) : Xml.Forest := .element ⟨"gpx", [("version", "1.1")]⟩ content .nil

theorem parseGpx_honest_iff_sound_trackText
    : ∃ result, parseGpx Xml.scanner.checked trackText.toUTF8.data.toList = .ok result
        ∧ Honest (gpxForest (.element ⟨"trk", []⟩ segmentForest .nil)) result := by
  have hparse : parseGpx Xml.scanner.checked trackText.toUTF8.data.toList = .ok {
      version := .gpx11
      metadata := { name := none, description := none, time := none }
      tracks := [⟨none, [⟨[{ lat := .fin 46, lon := .fin 7, elevation := none, time := none }]⟩]⟩]
      totalPoints := 1
    } := by
    rw [parseGpx_toUTF8 Xml.scanner.checked (by decide +kernel) (by decide +kernel)]
    decide +kernel
  obtain ⟨text, htext, _, hiff⟩ :=
    parseGpx_honest_iff_sound Xml.scanner.checked (Xml.nests_checked Xml.scanner) _ _ hparse
  rw [fromUTF8?_toUTF8] at htext
  obtain rfl := Option.some.inj htext
  exact ⟨_, hparse, (hiff _ (by decide +kernel)).mpr (by decide +kernel)⟩

/--
Without a track the segment is dropped, with the point in it.
-/
theorem point_counted_and_dropped
    : ∃ result, parseGpx Xml.scanner.checked strayText.toUTF8.data.toList = .ok result
        ∧ Xml.scanner.checked.read strayText = (gpxForest segmentForest).events
        ∧ result.totalPoints = 1 ∧ storedPlaces result = [] ∧ ¬Honest (gpxForest segmentForest) result := by
  have hparse : parseGpx Xml.scanner.checked strayText.toUTF8.data.toList = .ok {
      version := .gpx11
      metadata := { name := none, description := none, time := none }
      tracks := []
      totalPoints := 1
    } := by
    rw [parseGpx_toUTF8 Xml.scanner.checked (by decide +kernel) (by decide +kernel)]
    decide +kernel
  refine ⟨_, hparse, by decide +kernel, rfl, rfl, ?_⟩
  intro hhonest
  exact absurd hhonest.totalPoints (by decide)

end Imports
