import Haiker.Imports.GpxParser
import Haiker.Xml.Escape

/-!
This module contains what the GPX parser does with one event, and how it reads events one after the other.
-/

open Rust

namespace Imports

namespace GpxParser

theorem isWhitespace_of_xml {c : Char} (h : Xml.isWhitespace c = true) : isWhitespace c = true := by
  have hc : c = ' ' ∨ c = '\t' ∨ c = '\r' ∨ c = '\n' := of_decide_eq_true h
  rcases hc with rfl | rfl | rfl | rfl
  . rfl
  . rfl
  . rfl
  . rfl

-- what XML takes for white space is white space
theorem trimChars_xml (cs : List Char) : trimChars (Xml.trimChars cs) = trimChars cs := by
  obtain ⟨ws, zs, hcs, hws, hzs⟩ := Xml.exists_trimChars cs
  have hblank := trimChars_append_blank (Xml.trimChars cs) (fun c hc => isWhitespace_of_xml (hws c hc))
    (fun c hc => isWhitespace_of_xml (hzs c hc))
  rw [← hcs] at hblank
  exact hblank.symm

theorem sanitizeMetadata_congr {s t : String} (h : trim s = trim t)
    : sanitizeMetadata s = sanitizeMetadata t := by
  unfold sanitizeMetadata
  rw [h]

/-
What one event does.
-/

-- the elements that change more than the text that is waited for
def structural : List String := ["gpx", "metadata", "trk", "trkseg", "trkpt"]

/--
The text that the start of an element makes the parser wait for.
-/
def textTarget (localName : String) (s : State) : Option TextTarget :=
  match localName with
  | "name" =>
    if s.inTrkpt then
      none
    else if s.inTrk then
      some .trackName
    else if s.inMetadata || s.depth == 2 then
      some .metadataName
    else
      none
  | "desc" => if s.inMetadata || (!s.inTrk && s.depth == 2) then some .metadataDesc else none
  | "time" =>
    if s.inTrkpt then
      some .pointTime
    else if s.inMetadata || s.depth == 2 then
      some .metadataTime
    else
      none
  | "ele" => if s.inTrkpt then some .pointEle else none
  | _ => none

section Elements

variable {s : State} (attributes : List (String × String))

theorem startElement_text {localName : String} (h : localName ∉ structural)
    : startElement ⟨localName, attributes⟩ s
        = .ok { s with currentTextTarget := (textTarget localName s).or s.currentTextTarget } := by
  simp only [structural, List.mem_cons, List.not_mem_nil, or_false, not_or] at h
  obtain ⟨hgpx, hmetadata, htrk, htrkseg, htrkpt⟩ := h
  unfold startElement
  split
  . contradiction
  . contradiction
  . next heq =>
    obtain rfl : localName = "name" := heq
    simp only [textTarget]
    split_ifs
    . rfl
    . rfl
    . rfl
    . rfl
  . next heq =>
    obtain rfl : localName = "desc" := heq
    simp only [textTarget]
    split_ifs
    . rfl
    . rfl
  . next heq =>
    obtain rfl : localName = "time" := heq
    simp only [textTarget]
    split_ifs
    . rfl
    . rfl
    . rfl
  . contradiction
  . contradiction
  . contradiction
  . next heq =>
    obtain rfl : localName = "ele" := heq
    simp only [textTarget]
    split_ifs
    . rfl
    . rfl
  . next hname hdesc htime _ _ _ hele =>
    have hnone : textTarget localName s = none := by
      unfold textTarget
      split
      . contradiction
      . contradiction
      . contradiction
      . contradiction
      . rfl
    rw [hnone]
    rfl

theorem startElement_gpx : startElement ⟨"gpx", attributes⟩ s = (do
    return { s with version := ← readVersion s.version attributes }) := by
  simp [startElement]

theorem startElement_metadata
    : startElement ⟨"metadata", attributes⟩ s = .ok { s with inMetadata := true } := by
  simp only [startElement]
  rfl

theorem startElement_trk : startElement ⟨"trk", attributes⟩ s = .ok { s with
      inTrk := true
      currentTrack := some { name := none, segments := [] }
    } := by
  simp only [startElement]
  rfl

theorem startElement_trkseg : startElement ⟨"trkseg", attributes⟩ s = (do
    let s ← countSegment { s with inTrkseg := true }
    return { s with currentSegment := some { points := [] } }) := by
  simp [startElement]

theorem startElement_trkpt : startElement ⟨"trkpt", attributes⟩ s = (do
    let s ← countPoint { s with inTrkpt := true }
    return { s with currentPoint := some (← readPoint attributes) }) := by
  simp [startElement]

theorem endElement_text {localName : String} (h : localName ∉ structural)
    : endElement localName s = { s with currentTextTarget := none } := by
  simp only [structural, List.mem_cons, List.not_mem_nil, or_false, not_or] at h
  obtain ⟨_, hmetadata, htrk, htrkseg, htrkpt⟩ := h
  unfold endElement
  split
  . contradiction
  . contradiction
  . contradiction
  . contradiction
  . rfl

/--
What the start of an element can do, with the element already counted.
-/
inductive Started : Xml.Tag → State → State → Prop where
  | gpx (attributes : List (String × String)) (version : Option GpxVersion) (s : State)
      : Started ⟨"gpx", attributes⟩ s { s with version := version }
  | metadata (attributes : List (String × String)) (s : State)
      : Started ⟨"metadata", attributes⟩ s { s with inMetadata := true }
  | trk (attributes : List (String × String)) (s : State)
      : Started ⟨"trk", attributes⟩ s
        { s with inTrk := true, currentTrack := some { name := none, segments := [] } }
  | trkseg (attributes : List (String × String)) (s : State) (hcount : s.totalSegments < MAX_SEGMENTS)
      : Started ⟨"trkseg", attributes⟩ s { s with
        inTrkseg := true
        totalSegments := s.totalSegments + 1
        currentSegment := some { points := [] }
      }
  | trkpt (attributes : List (String × String)) (s : State) (point : GpxTrackPoint)
      (hcount : s.totalPoints < MAX_POINTS) (hpoint : readPoint attributes = .ok point)
      : Started ⟨"trkpt", attributes⟩ s { s with
        inTrkpt := true
        totalPoints := s.totalPoints + 1
        currentPoint := some point
      }
  | text (localName : String) (attributes : List (String × String)) (s : State) (hname : localName ∉ structural)
      : Started ⟨localName, attributes⟩ s
        { s with currentTextTarget := (textTarget localName s).or s.currentTextTarget }

theorem countPoint_eq_ok {s' : State} (h : countPoint s = .ok s')
    : s.totalPoints < MAX_POINTS ∧ s' = { s with totalPoints := s.totalPoints + 1 } := by
  unfold countPoint at h
  split at h
  . cases h
  . next hcount => exact ⟨Nat.not_lt.mp hcount, (Except.ok.inj h).symm⟩

theorem countSegment_eq_ok {s' : State} (h : countSegment s = .ok s')
    : s.totalSegments < MAX_SEGMENTS ∧ s' = { s with totalSegments := s.totalSegments + 1 } := by
  unfold countSegment at h
  split at h
  . cases h
  . next hcount => exact ⟨Nat.not_lt.mp hcount, (Except.ok.inj h).symm⟩

theorem enter_eq_ok {s' : State} (h : enter s = .ok s')
    : s.depth < MAX_DEPTH ∧ s' = { s with depth := s.depth + 1 } := by
  unfold enter at h
  split at h
  . cases h
  . next hdepth => exact ⟨Nat.not_lt.mp hdepth, (Except.ok.inj h).symm⟩

theorem started_of_startElement {tag : Xml.Tag} {s' : State} (h : startElement tag s = .ok s')
    : Started tag s s' := by
  obtain ⟨localName, attributes⟩ := tag
  by_cases hname : localName ∈ structural
  . simp only [structural, List.mem_cons, List.not_mem_nil, or_false] at hname
    rcases hname with rfl | rfl | rfl | rfl | rfl
    . rw [startElement_gpx] at h
      cases hversion : readVersion s.version attributes with
      | error e =>
        rw [hversion] at h
        cases h
      | ok version =>
        rw [hversion] at h
        obtain rfl := Except.ok.inj h
        exact .gpx attributes version s
    . rw [startElement_metadata] at h
      obtain rfl := Except.ok.inj h
      exact .metadata attributes s
    . rw [startElement_trk] at h
      obtain rfl := Except.ok.inj h
      exact .trk attributes s
    . rw [startElement_trkseg] at h
      cases hcounted : countSegment { s with inTrkseg := true } with
      | error e =>
        rw [hcounted] at h
        cases h
      | ok counted =>
        rw [hcounted] at h
        obtain ⟨hcount, rfl⟩ := countSegment_eq_ok hcounted
        obtain rfl := Except.ok.inj h
        exact .trkseg attributes s hcount
    . rw [startElement_trkpt] at h
      cases hcounted : countPoint { s with inTrkpt := true } with
      | error e =>
        rw [hcounted] at h
        cases h
      | ok counted =>
        rw [hcounted] at h
        obtain ⟨hcount, rfl⟩ := countPoint_eq_ok hcounted
        cases hpoint : readPoint attributes with
        | error e =>
          rw [hpoint] at h
          cases h
        | ok point =>
          rw [hpoint] at h
          obtain rfl := Except.ok.inj h
          exact .trkpt attributes s point hcount hpoint
  . rw [startElement_text attributes hname] at h
    obtain rfl := Except.ok.inj h
    exact .text localName attributes s hname

theorem started_of_onStart {tag : Xml.Tag} {s' : State} (h : onStart tag s = .ok s')
    : s.depth < MAX_DEPTH ∧ Started tag { s with depth := s.depth + 1 } s' := by
  unfold onStart at h
  cases hentered : enter s with
  | error e =>
    rw [hentered] at h
    cases h
  | ok entered =>
    rw [hentered] at h
    obtain ⟨hdepth, rfl⟩ := enter_eq_ok hentered
    exact ⟨hdepth, started_of_startElement h⟩

theorem onEmpty_cases {tag : Xml.Tag} {s' : State} (h : onEmpty tag s = .ok s')
    : (¬(tag.localName = "trkpt" ∧ s.inTrkseg = true) ∧ s' = s)
        ∨ (tag.localName = "trkpt" ∧ s.inTrkseg = true) ∧ s.totalPoints < MAX_POINTS
          ∧ ∃ point, readPoint tag.attributes = .ok point ∧ s' = { s with
            totalPoints := s.totalPoints + 1
            currentSegment := s.currentSegment.map fun seg => { seg with points := seg.points ++ [point] }
          } := by
  unfold onEmpty at h
  split at h
  . next htrkpt =>
    cases hcounted : countPoint s with
    | error e =>
      rw [hcounted] at h
      cases h
    | ok counted =>
      rw [hcounted] at h
      obtain ⟨hcount, rfl⟩ := countPoint_eq_ok hcounted
      cases hpoint : readPoint tag.attributes with
      | error e =>
        rw [hpoint] at h
        cases h
      | ok point =>
        rw [hpoint] at h
        obtain rfl := Except.ok.inj h
        exact .inr ⟨htrkpt, hcount, point, rfl, rfl⟩
  . next htrkpt => exact .inl ⟨htrkpt, (Except.ok.inj h).symm⟩

end Elements

/-
Reading events one after the other.
-/

section Reads

variable {unescape : String → Option String}

variable (unescape) in
def Reads (s : State) (events : List Xml.Event) (s' : State) : Prop :=
  readEvents unescape s events = .ok s'

theorem Reads.nil {s : State} : Reads unescape s [] s := rfl

theorem reads_cons {s s' : State} {event : Xml.Event} {events : List Xml.Event}
    : Reads unescape s (event :: events) s'
        ↔ ∃ between, onEvent unescape s event = .ok between ∧ Reads unescape between events s' := by
  have hbind : readEvents unescape s (event :: events)
      = (onEvent unescape s event).bind fun between => readEvents unescape between events :=
    List.foldlM_cons
  unfold Reads
  rw [hbind]
  cases onEvent unescape s event with
  | error e => simp [Except.bind]
  | ok between => simp [Except.bind]

theorem reads_append {s s' : State} {events events' : List Xml.Event}
    : Reads unescape s (events ++ events') s'
        ↔ ∃ between, Reads unescape s events between ∧ Reads unescape between events' s' := by
  induction events generalizing s with
  | nil =>
    constructor
    . exact fun h => ⟨s, .nil, h⟩
    . rintro ⟨between, hnil, h⟩
      cases hnil
      exact h
  | cons event events ih =>
    rw [List.cons_append, reads_cons]
    constructor
    . rintro ⟨first, hevent, h⟩
      obtain ⟨between, hevents, hrest⟩ := ih.mp h
      exact ⟨between, reads_cons.mpr ⟨first, hevent, hevents⟩, hrest⟩
    . rintro ⟨between, hevents, hrest⟩
      obtain ⟨first, hevent, hevents⟩ := reads_cons.mp hevents
      exact ⟨first, hevent, ih.mpr ⟨between, hevents, hrest⟩⟩

theorem Reads.cons {s between s' : State} {event : Xml.Event} {events : List Xml.Event}
    (hevent : onEvent unescape s event = .ok between) (h : Reads unescape between events s')
    : Reads unescape s (event :: events) s' := reads_cons.mpr ⟨between, hevent, h⟩

theorem Reads.append {s between s' : State} {events events' : List Xml.Event}
    (h : Reads unescape s events between) (h' : Reads unescape between events' s')
    : Reads unescape s (events ++ events') s' := reads_append.mpr ⟨between, h, h'⟩

theorem enter_of_lt {s : State} (h : s.depth < MAX_DEPTH)
    : enter s = .ok { s with depth := s.depth + 1 } := if_neg (Nat.not_lt.mpr h)

theorem onStart_text {localName : String} (hname : localName ∉ structural) {s : State}
    (hdepth : s.depth < MAX_DEPTH) (attributes : List (String × String))
    : onEvent unescape s (.start ⟨localName, attributes⟩) = .ok { s with
      depth := s.depth + 1
      currentTextTarget := (textTarget localName { s with depth := s.depth + 1 }).or s.currentTextTarget
    } := by
  rw [onEvent, onStart, enter_of_lt hdepth]
  exact startElement_text attributes hname

theorem onEnd_text {localName : String} (hname : localName ∉ structural) (s : State)
    : onEvent unescape s (.end_ localName)
        = .ok { s with depth := s.depth - 1, currentTextTarget := none } := by
  rw [onEvent, onEnd, endElement_text hname]

variable (unescape) in
theorem reads_textElement (localName : String) (hname : localName ∉ structural) {s : State}
    (hdepth : s.depth < MAX_DEPTH) (hnone : s.currentTextTarget = none) {target : TextTarget}
    (htarget : textTarget localName { s with depth := s.depth + 1 } = some target)
    (attributes : List (String × String)) (raw : Option String)
    : Reads unescape s
        (.start ⟨localName, attributes⟩ :: ((raw.map Xml.Event.text).toList ++ [.end_ localName]))
        (match raw with
          | none => s
          | some raw => setText target ((unescape raw).getD "") s) := by
  refine .cons (onStart_text hname hdepth attributes) ?_
  rw [htarget]
  cases raw with
  | none =>
    refine .cons (onEnd_text hname _) ?_
    rw [Reads, readEvents, List.foldlM_nil, Nat.add_sub_cancel, ← hnone]
    rfl
  | some raw =>
    refine .cons rfl (.cons (onEnd_text hname _) ?_)
    rw [Reads, readEvents, List.foldlM_nil]
    cases target
    all_goals
      simp only [onText, setText, Option.some_or, Nat.add_sub_cancel]
      rw [← hnone]
      rfl

theorem onStart_of_lt {tag : Xml.Tag} {s : State} (hdepth : s.depth < MAX_DEPTH)
    : onEvent unescape s (.start tag) = startElement tag { s with depth := s.depth + 1 } := by
  rw [onEvent, onStart, enter_of_lt hdepth]
  rfl

theorem countPoint_of_lt {s : State} (h : s.totalPoints < MAX_POINTS)
    : countPoint s = .ok { s with totalPoints := s.totalPoints + 1 } := if_neg (Nat.not_lt.mpr h)

theorem countSegment_of_lt {s : State} (h : s.totalSegments < MAX_SEGMENTS)
    : countSegment s = .ok { s with totalSegments := s.totalSegments + 1 } := if_neg (Nat.not_lt.mpr h)

variable (unescape) in
theorem onStart_trkpt {attributes : List (String × String)} {point : GpxTrackPoint}
    (hpoint : readPoint attributes = .ok point) {s : State} (hdepth : s.depth < MAX_DEPTH)
    (hcount : s.totalPoints < MAX_POINTS)
    : onEvent unescape s (.start ⟨"trkpt", attributes⟩) = .ok { s with
      depth := s.depth + 1
      totalPoints := s.totalPoints + 1
      inTrkpt := true
      currentPoint := some point
    } := by
  have hcounted := countPoint_of_lt (s := { s with depth := s.depth + 1, inTrkpt := true }) hcount
  rw [onStart_of_lt hdepth, startElement_trkpt, hcounted, hpoint]
  rfl

variable (unescape) in
theorem onStart_trkseg (attributes : List (String × String)) {s : State} (hdepth : s.depth < MAX_DEPTH)
    (hcount : s.totalSegments < MAX_SEGMENTS)
    : onEvent unescape s (.start ⟨"trkseg", attributes⟩) = .ok { s with
      depth := s.depth + 1
      totalSegments := s.totalSegments + 1
      inTrkseg := true
      currentSegment := some { points := [] }
    } := by
  have hcounted := countSegment_of_lt (s := { s with depth := s.depth + 1, inTrkseg := true }) hcount
  rw [onStart_of_lt hdepth, startElement_trkseg, hcounted]
  rfl

end Reads

section Runs

variable {unescape : String → Option String} {events : List Xml.Event} {s s' : State}

-- how many elements are open after an event
def depthAfter (depth : Nat) : Xml.Event → Nat
  | .start _ => depth + 1
  | .end_ _ => depth - 1
  | _ => depth

theorem depth_of_onEvent {event : Xml.Event} (h : onEvent unescape s event = .ok s')
    : s'.depth = depthAfter s.depth event := by
  cases event with
  | start tag =>
    have hstarted := (started_of_onStart h).2
    cases hstarted <;> rfl
  | end_ localName =>
    obtain rfl := Except.ok.inj h
    have hsame : (endElement localName s).depth = s.depth := by
      unfold endElement
      split <;> rfl
    exact congrArg (· - 1) hsame
  | empty tag =>
    rcases onEmpty_cases h with ⟨_, rfl⟩ | ⟨_, _, _, _, rfl⟩
    . rfl
    . rfl
  | text raw =>
    obtain rfl := Except.ok.inj h
    unfold onText
    cases s.currentTextTarget with
    | none => rfl
    | some target => cases target <;> rfl
  | cData _ | other =>
    obtain rfl := Except.ok.inj h
    rfl
  | docType | error => cases h

theorem Reads.invariant {Inv : State → Prop}
    (hstep : ∀ s event s', onEvent unescape s event = .ok s' → Inv s → Inv s')
    (h : Reads unescape s events s') (hs : Inv s) : Inv s' := by
  induction events generalizing s with
  | nil =>
    obtain rfl := Except.ok.inj h
    exact hs
  | cons event events ih =>
    obtain ⟨between, hevent, hrest⟩ := reads_cons.mp h
    exact ih hrest (hstep s event between hevent hs)

end Runs

/--
What is accepted.
-/
structure Accepted (codec : Xml.Codec) (input : Bytes) (text : String) (s : State) (result : GpxParseResult)
    : Prop where
  size : input.length ≤ MAX_INPUT_SIZE
  utf8 : String.fromUTF8? ⟨input.toArray⟩ = some text
  docType : contains text "<!DOCTYPE" = false
  entity : contains text "<!ENTITY" = false
  reads : Reads codec.unescape .start (codec.read text) s
  depth : s.depth = 0
  metadata : result.metadata = s.metadata
  tracks : result.tracks = s.tracks
  totalPoints : result.totalPoints = s.totalPoints

theorem accepted_of_parseGpx {codec : Xml.Codec} {input : Bytes} {result : GpxParseResult}
    (h : parseGpx codec input = .ok result) : ∃ text s, Accepted codec input text s result := by
  unfold parseGpx at h
  split at h
  . cases h
  . next hsize =>
    cases htext : String.fromUTF8? ⟨input.toArray⟩ with
    | none =>
      rw [htext] at h
      cases h
    | some text =>
      rw [htext] at h
      simp only at h
      split at h
      . cases h
      . next hdeclarations =>
        rw [Bool.or_eq_true, not_or, Bool.not_eq_true, Bool.not_eq_true] at hdeclarations
        cases hreads : readEvents codec.unescape .start (codec.read text) with
        | error e =>
          rw [hreads] at h
          cases h
        | ok s =>
          rw [hreads] at h
          have hfinish : finish s = .ok result := h
          unfold finish at hfinish
          split at hfinish
          . cases hfinish
          . next hdepth =>
            cases hversion : s.version with
            | none =>
              rw [hversion] at hfinish
              cases hfinish
            | some version =>
              rw [hversion] at hfinish
              obtain rfl := Except.ok.inj hfinish
              exact ⟨text, s, Nat.not_lt.mp hsize, htext, hdeclarations.1, hdeclarations.2, hreads,
                Nat.eq_zero_of_not_pos hdepth, rfl, rfl, rfl⟩

theorem parseGpx_toUTF8 (codec : Xml.Codec) {text : String}
    (hsize : text.toUTF8.data.toList.length ≤ MAX_INPUT_SIZE)
    (hdeclarations : (contains text "<!DOCTYPE" || contains text "<!ENTITY") = false)
    : parseGpx codec text.toUTF8.data.toList = (do
      finish (← readEvents codec.unescape .start (codec.read text))) := by
  unfold parseGpx
  rw [if_neg (Nat.not_lt.mpr hsize), fromUTF8?_toUTF8]
  simp only [hdeclarations, Bool.false_eq_true, if_false]

end GpxParser

end Imports
