import Haiker.Imports.GpxDocument

/-!
This module contains what the GPX parser does with the elements of a document: those it is deaf to, and those
whose text it waits for.
-/

open Rust

namespace Imports

namespace GpxParser

open Xml (Content Tag)

/-
Texts, up to the white space around them.
-/

section Texts

theorem trim_append_blank {ws zs : String} (s : String) (hws : ∀ c ∈ ws.toList, Xml.isWhitespace c = true)
    (hzs : ∀ c ∈ zs.toList, Xml.isWhitespace c = true) : trim (ws ++ s ++ zs) = trim s := by
  unfold trim
  rw [String.toList_append, String.toList_append, trimChars_append_blank s.toList
    (fun c hc => isWhitespace_of_xml (hws c hc)) fun c hc => isWhitespace_of_xml (hzs c hc)]

theorem blank_of_trimChars {cs : List Char} (h : Xml.trimChars cs = []) : ∀ c ∈ cs, Xml.isWhitespace c = true := by
  obtain ⟨ws, zs, hcs, hws, hzs⟩ := Xml.exists_trimChars cs
  rw [h, List.append_nil] at hcs
  intro c hc
  rw [hcs] at hc
  rcases List.mem_append.mp hc with hc | hc
  . exact hws c hc
  . exact hzs c hc

theorem trim_written_cData {unescape : String → Option String} {content : String} (rest : Content)
    (h : Xml.trimChars content.toList = [])
    : trim ((Content.cData content rest).written unescape) = trim (rest.written unescape) := by
  have hrest : trim (content ++ rest.written unescape ++ "") = _ :=
    trim_append_blank _ (blank_of_trimChars h) fun c hc => absurd hc List.not_mem_nil
  rw [String.append_empty] at hrest
  exact hrest

variable {codec : Xml.Codec} (hblanks : codec.KeepsBlanks)
include hblanks

theorem blank_written {content : Content} (h : content.isBlank = true)
    : ∀ c ∈ (content.written codec.unescape).toList, Xml.isWhitespace c = true := by
  induction content with
  | nil => exact fun c hc => absurd hc List.not_mem_nil
  | text raw rest ih =>
    rw [Content.isBlank, Bool.and_eq_true, decide_eq_true_eq] at h
    have hraw := blank_of_trimChars h.1
    rw [Content.written, hblanks.unescape_blank raw hraw, Option.getD_some, String.toList_append]
    intro c hc
    rcases List.mem_append.mp hc with hc | hc
    . exact hraw c hc
    . exact ih h.2 c hc
  | cData content rest ih =>
    rw [Content.isBlank, Bool.and_eq_true, decide_eq_true_eq] at h
    rw [Content.written, String.toList_append]
    intro c hc
    rcases List.mem_append.mp hc with hc | hc
    . exact blank_of_trimChars h.1 c hc
    . exact ih h.2 c hc
  | element _ _ _ rest _ ih | empty _ _ rest ih | other rest ih => exact ih h

-- the text is trimmed before or after it is unescaped
theorem trim_unescape (raw : String)
    : trim ((codec.unescape (Xml.trim raw)).getD "") = trim ((codec.unescape raw).getD "") := by
  obtain ⟨ws, zs, hraw, hws, hzs⟩ := Xml.exists_trimChars raw.toList
  have hws : ∀ c ∈ (String.ofList ws).toList, Xml.isWhitespace c = true := by
    rw [String.toList_ofList]
    exact hws
  have hzs : ∀ c ∈ (String.ofList zs).toList, Xml.isWhitespace c = true := by
    rw [String.toList_ofList]
    exact hzs
  have hsplit : raw = String.ofList ws ++ Xml.trim raw ++ String.ofList zs := by
    rw [Xml.trim, ← String.ofList_append, ← String.ofList_append, ← hraw, String.ofList_toList]
  have hunescape := hblanks.unescape_append _ (Xml.trim raw) _ hws hzs
  rw [← hsplit] at hunescape
  rw [hunescape]
  cases codec.unescape (Xml.trim raw) with
  | none => rfl
  | some s => exact (trim_append_blank s hws hzs).symm

theorem trim_written_text {raw : String} {rest : Content} (h : rest.isBlank = true)
    : trim ((codec.unescape (Xml.trim raw)).getD "") = trim ((Content.text raw rest).written codec.unescape) := by
  rw [trim_unescape hblanks]
  have hrest : trim ("" ++ (codec.unescape raw).getD "" ++ rest.written codec.unescape) = _ :=
    trim_append_blank _ (fun c hc => absurd hc List.not_mem_nil) (blank_written hblanks h)
  rw [String.empty_append] at hrest
  exact hrest.symm

theorem trim_written_blank {raw : String} (rest : Content) (h : Xml.trimChars raw.toList = [])
    : trim ((Content.text raw rest).written codec.unescape) = trim (rest.written codec.unescape) := by
  rw [Content.written, hblanks.unescape_blank raw (blank_of_trimChars h)]
  exact trim_written_cData rest h

end Texts

theorem setText_congr {text text' : String} (h : trim text = trim text') (target : TextTarget) (s : State)
    : setText target text s = setText target text' s := by
  cases target with
  | metadataName | metadataDesc | trackName => simp only [setText, sanitizeMetadata_congr h]
  | metadataTime | pointEle | pointTime => simp only [setText, h]

/-
The events of a document, one node after the other.
-/

section Nodes

variable {unescape : String → Option String} {s s' : State} {own : Bool} {tag : Tag} {content rest : Content}

theorem reads_nil : Reads unescape s Content.nil.events s' ↔ s' = s := by
  constructor
  . intro h
    exact (Except.ok.inj h).symm
  . rintro rfl
    exact .nil

theorem reads_element
    : Reads unescape s (Content.element own tag content rest).events s'
        ↔ ∃ s₁ s₂, onStart tag s = .ok s₁ ∧ Reads unescape s₁ content.events s₂
          ∧ Reads unescape (onEnd tag.localName s₂) rest.events s' := by
  simp only [Content.events, Content.forest, Xml.Forest.events, reads_cons, reads_append, onEvent]
  constructor
  . rintro ⟨s₁, hstart, s₂, hcontent, _, hend, hrest⟩
    obtain rfl := Except.ok.inj hend
    exact ⟨s₁, s₂, hstart, hcontent, hrest⟩
  . rintro ⟨s₁, s₂, hstart, hcontent, hrest⟩
    exact ⟨s₁, hstart, s₂, hcontent, _, rfl, hrest⟩

theorem reads_empty
    : Reads unescape s (Content.empty own tag rest).events s'
        ↔ ∃ s₁, onEmpty tag s = .ok s₁ ∧ Reads unescape s₁ rest.events s' := by
  simp only [Content.events, Content.forest, Xml.Forest.events, reads_cons, onEvent]

theorem reads_text_of_blank {raw : String} (h : Xml.trimChars raw.toList = [])
    : Reads unescape s (Content.text raw rest).events s' ↔ Reads unescape s rest.events s' := by
  simp only [Content.events, Content.forest, if_pos h]

theorem reads_text_of_not_blank {raw : String} (h : Xml.trimChars raw.toList ≠ [])
    : Reads unescape s (Content.text raw rest).events s'
        ↔ Reads unescape (onText unescape (Xml.trim raw) s) rest.events s' := by
  simp only [Content.events, Content.forest, if_neg h, Xml.Forest.events, reads_cons, onEvent]
  constructor
  . rintro ⟨_, htext, hrest⟩
    obtain rfl := Except.ok.inj htext
    exact hrest
  . exact fun hrest => ⟨_, rfl, hrest⟩

theorem reads_cData {section_ : String}
    : Reads unescape s (Content.cData section_ rest).events s' ↔ Reads unescape s rest.events s' := by
  simp only [Content.events, Content.forest, Xml.Forest.events, reads_cons, onEvent, Except.ok.injEq,
    exists_eq_left']

theorem reads_other : Reads unescape s (Content.other rest).events s' ↔ Reads unescape s rest.events s' := by
  simp only [Content.events, Content.forest, Xml.Forest.events, reads_cons, onEvent, Except.ok.injEq,
    exists_eq_left']

-- no text is waited for
theorem reads_text_of_none {raw : String} (hnone : s.currentTextTarget = none)
    : Reads unescape s (Content.text raw rest).events s' ↔ Reads unescape s rest.events s' := by
  by_cases hblank : Xml.trimChars raw.toList = []
  . exact reads_text_of_blank hblank
  . have hsame : onText unescape (Xml.trim raw) s = s := by
      unfold onText
      rw [hnone]
    rw [reads_text_of_not_blank hblank, hsame]

theorem Reads.of_isText (h : Reads unescape s content.events s') (htext : content.isText = true)
    (hnone : s.currentTextTarget = none) : s' = s := by
  induction content with
  | nil => exact reads_nil.mp h
  | element | empty => cases htext
  | text raw rest ih => exact ih ((reads_text_of_none hnone).mp h) htext
  | cData _ rest ih => exact ih (reads_cData.mp h) htext
  | other rest ih => exact ih (reads_other.mp h) htext

theorem Reads.of_isSilent (h : Reads unescape s content.events s') (hsilent : content.isSilent = true) : s' = s := by
  induction content with
  | nil => exact reads_nil.mp h
  | element | empty => cases hsilent
  | text raw rest ih =>
    rw [Content.isSilent, Bool.and_eq_true, decide_eq_true_eq] at hsilent
    exact ih ((reads_text_of_blank hsilent.1).mp h) hsilent.2
  | cData _ rest ih => exact ih (reads_cData.mp h) hsilent
  | other rest ih => exact ih (reads_other.mp h) hsilent

/--
No text of an element within is waited for, apart from those with the first names, and no empty element adds a
point, apart from those with the others.
-/
structure State.Deaf (s : State) (awaited emptied : List String) : Prop where
  awaited : ∀ name, name ∉ awaited → ∀ depth, s.depth < depth → textTarget name { s with depth } = none
  emptied : s.inTrkseg = true → "trkpt" ∈ emptied

theorem State.Deaf.within {awaited emptied : List String} (h : s.Deaf awaited emptied)
    : { s with depth := s.depth + 1 }.Deaf awaited emptied where
  awaited name hname depth hdepth := h.awaited name hname depth (Nat.lt_of_succ_lt hdepth)
  emptied := h.emptied

-- an element with a content that changes nothing
theorem Reads.skip_element (h : Reads unescape s (Content.element own tag content rest).events s')
    (hname : tag.localName ∉ structural) (hnone : s.currentTextTarget = none)
    (hcontent : ∀ s₁ s₂, s₁ = { s with
        depth := s.depth + 1
        currentTextTarget := textTarget tag.localName { s with depth := s.depth + 1 }
      } → Reads unescape s₁ content.events s₂ → s₂ = s₁)
    : Reads unescape s rest.events s' := by
  obtain ⟨s₁, s₂, hstart, hinner, hrest⟩ := reads_element.mp h
  have hentered : onEvent unescape s (.start tag) = .ok _ :=
    onStart_text hname (started_of_onStart hstart).1 tag.attributes
  rw [hnone, Option.or_none] at hentered
  obtain rfl := Except.ok.inj (hstart.symm.trans hentered)
  obtain rfl := hcontent _ s₂ rfl hinner
  rw [onEnd, endElement_text hname] at hrest
  simp only [Nat.add_sub_cancel] at hrest
  rw [← hnone] at hrest
  exact hrest

-- an element that no text is waited for of
theorem State.deaf_enter (hnone : s.currentTextTarget = none)
    (htarget : textTarget tag.localName { s with depth := s.depth + 1 } = none)
    : { s with
        depth := s.depth + 1
        currentTextTarget := textTarget tag.localName { s with depth := s.depth + 1 }
      } = { s with depth := s.depth + 1 } := by
  rw [htarget, ← hnone]

theorem Reads.avoided {awaited emptied : List String} (h : Reads unescape s content.events s')
    (havoids : content.avoids structural awaited emptied = true) (hdeaf : s.Deaf awaited emptied)
    (hnone : s.currentTextTarget = none) : s' = s := by
  induction content generalizing s s' with
  | nil => exact reads_nil.mp h
  | element own tag content rest ihcontent ihrest =>
    simp only [Content.avoids, Bool.and_eq_true, decide_eq_true_eq] at havoids
    obtain ⟨⟨hname, hcontent⟩, hrest⟩ := havoids
    refine ihrest (h.skip_element hname hnone ?_) hrest hdeaf hnone
    intro s₁ s₂ hs₁ hinner
    split at hcontent
    . exact hinner.of_isSilent hcontent
    . next hother =>
      rw [State.deaf_enter hnone (hdeaf.awaited _ hother _ (Nat.lt_succ_self _))] at hs₁
      subst hs₁
      exact ihcontent hinner hcontent hdeaf.within hnone
  | empty own tag rest ih =>
    simp only [Content.avoids, Bool.and_eq_true, decide_eq_true_eq] at havoids
    obtain ⟨s₁, hempty, hrest⟩ := reads_empty.mp h
    rcases onEmpty_cases hempty with ⟨_, rfl⟩ | ⟨⟨htrkpt, hinTrkseg⟩, _⟩
    . exact ih hrest havoids.2 hdeaf hnone
    . rw [htrkpt] at havoids
      exact absurd (hdeaf.emptied hinTrkseg) havoids.1
  | text raw rest ih => exact ih ((reads_text_of_none hnone).mp h) havoids hdeaf hnone
  | cData _ rest ih => exact ih (reads_cData.mp h) havoids hdeaf hnone
  | other rest ih => exact ih (reads_other.mp h) havoids hdeaf hnone

end Nodes

/-
The elements whose text is waited for.
-/

-- what a text does, if there is one
def setText? (target : TextTarget) (text : Option String) (s : State) : State :=
  text.elim s fun text => setText target text s

section TextElements

variable {codec : Xml.Codec} (hblanks : codec.KeepsBlanks) {s s' : State} {own : Bool} {tag : Tag}
  {content rest : Content} {target : TextTarget}
include hblanks

theorem Reads.written (h : Reads codec.unescape s content.events s') (htext : content.isText = true)
    (hunbroken : content.isUnbroken = true) (htarget : s.currentTextTarget = some target)
    : s' = (content.text? codec.unescape).elim s fun text =>
        { setText target text s with currentTextTarget := none } := by
  induction content with
  | nil => exact reads_nil.mp h
  | element | empty => cases htext
  | text raw rest ih =>
    rw [Content.isUnbroken, Bool.and_eq_true, Bool.or_eq_true, decide_eq_true_eq] at hunbroken
    by_cases hblank : Xml.trimChars raw.toList = []
    . rw [ih ((reads_text_of_blank hblank).mp h) htext hunbroken.2]
      unfold Content.text?
      rw [Content.isBlank, decide_eq_true hblank, Bool.true_and]
      split
      . rfl
      . rw [Option.elim_some, Option.elim_some, setText_congr (trim_written_blank hblanks rest hblank)]
    . have hrest := hunbroken.1.resolve_left hblank
      have hread := (reads_text_of_not_blank hblank).mp h
      have hset : onText codec.unescape (Xml.trim raw) s
          = { setText target ((codec.unescape (Xml.trim raw)).getD "") s with currentTextTarget := none } := by
        unfold onText
        rw [htarget]
      rw [hset] at hread
      rw [hread.of_isText htext rfl, setText_congr (trim_written_text hblanks hrest), Content.text?,
        Content.isBlank, decide_eq_false hblank]
      rfl
  | cData _ rest ih =>
    rw [Content.isUnbroken, Bool.and_eq_true, decide_eq_true_eq] at hunbroken
    rw [ih (reads_cData.mp h) htext hunbroken.2]
    unfold Content.text?
    rw [Content.isBlank, decide_eq_true hunbroken.1, Bool.true_and]
    split
    . rfl
    . rw [Option.elim_some, Option.elim_some, setText_congr (trim_written_cData rest hunbroken.1)]
  | other rest ih => exact ih (reads_other.mp h) htext hunbroken

theorem Reads.text_element (h : Reads codec.unescape s (Content.element own tag content rest).events s')
    (hname : tag.localName ∉ structural) (hnone : s.currentTextTarget = none)
    (htarget : textTarget tag.localName { s with depth := s.depth + 1 } = some target)
    (htext : content.isText = true) (hunbroken : content.isUnbroken = true)
    : Reads codec.unescape (setText? target (content.text? codec.unescape) s) rest.events s' := by
  obtain ⟨s₁, s₂, hstart, hinner, hrest⟩ := reads_element.mp h
  have hentered : onEvent codec.unescape s (.start tag) = .ok _ :=
    onStart_text hname (started_of_onStart hstart).1 tag.attributes
  rw [htarget, Option.some_or] at hentered
  obtain rfl := Except.ok.inj (hstart.symm.trans hentered)
  obtain rfl := hinner.written hblanks htext hunbroken rfl
  rw [onEnd, endElement_text hname] at hrest
  convert hrest using 1
  cases content.text? codec.unescape with
  | none =>
    simp only [setText?, Option.elim_none, Nat.add_sub_cancel]
    rw [← hnone]
  | some text =>
    cases target
    all_goals
      simp only [setText?, Option.elim_some, setText, Nat.add_sub_cancel]
      rw [← hnone]

end TextElements

/-
Where the parser takes itself to be.
-/

def Level.depth : Level → Nat
  | gpx _ => 1
  | metadata | trk => 2
  | trkseg => 3
  | trkpt => 4

def Level.inTrk : Level → Bool
  | gpx _ | metadata => false
  | trk | trkseg | trkpt => true

structure State.At (s : State) (level : Level) : Prop where
  depth : s.depth = level.depth
  inMetadata : s.inMetadata = decide (level = .metadata)
  inTrk : s.inTrk = level.inTrk
  inTrkseg : s.inTrkseg = level.takesPoints
  inTrkpt : s.inTrkpt = decide (level = .trkpt)
  track : s.currentTrack.isSome = level.inTrk
  segment : s.currentSegment.isSome = level.takesPoints
  point : s.currentPoint.isSome = decide (level = .trkpt)
  text : s.currentTextTarget = none

section Levels

variable {s : State} {level : Level} {name : String} {target : TextTarget}

theorem State.At.textTarget_of_not_mem (h : s.At level) (hname : name ∉ level.listens) {depth : Nat}
    (hdepth : s.depth < depth) : textTarget name { s with depth } = none := by
  rw [h.depth] at hdepth
  unfold textTarget
  simp only [h.inTrkpt, h.inTrk, h.inMetadata]
  cases level with
  | gpx | metadata =>
    simp only [Level.listens, List.mem_cons, List.not_mem_nil, or_false, not_or] at hname
    split <;> simp_all
  | trk | trkseg =>
    have hne : depth ≠ 2 := by
      simp only [Level.depth] at hdepth
      omega
    simp only [Level.listens, List.mem_singleton] at hname
    split <;> simp_all [Level.inTrk]
  | trkpt =>
    simp only [Level.listens, List.mem_cons, List.not_mem_nil, or_false, not_or] at hname
    split <;> simp_all [Level.inTrk]

-- a child of the root is what it is only directly below the root
theorem State.At.textTarget_below (h : s.At level) (hname : name ∉ level.listensBelow) {depth : Nat}
    (hdepth : s.depth + 1 < depth) : textTarget name { s with depth } = none := by
  cases level with
  | gpx version =>
    have hne : depth ≠ 2 := by
      have hroot : s.depth = 1 := h.depth
      omega
    unfold textTarget
    split <;> simp [h.inTrkpt, h.inTrk, h.inMetadata, Level.inTrk, hne]
  | metadata | trk | trkseg | trkpt => exact h.textTarget_of_not_mem hname (Nat.lt_of_succ_lt hdepth)

theorem State.At.deaf (h : s.At level)
    : { s with depth := s.depth + 1 }.Deaf level.listensBelow (if level.takesPoints then ["trkpt"] else []) where
  awaited _ hname _ hdepth := h.textTarget_below hname hdepth
  emptied hinTrkseg := by
    have htakes : level.takesPoints = true := h.inTrkseg.symm.trans hinTrkseg
    rw [if_pos htakes]
    exact List.mem_singleton_self _

theorem State.At.textTarget_of_text? (h : s.At level) (htext : level.text? name = some target)
    : name ∉ structural ∧ textTarget name { s with depth := s.depth + 1 } = some target := by
  have hdepth := h.depth
  unfold Level.text? at htext
  split at htext
  all_goals
    first
    | obtain rfl := Option.some.inj htext
      refine ⟨by decide, ?_⟩
      simp [textTarget, h.inTrkpt, h.inTrk, h.inMetadata, Level.inTrk, hdepth, Level.depth]
    | cases htext

theorem State.At.setText? (h : s.At level) (target : TextTarget) (text : Option String)
    : (setText? target text s).At level := by
  cases text with
  | none => exact h
  | some text =>
    cases target with
    | metadataName | metadataDesc | metadataTime => exact { h with }
    | trackName => exact { h with track := Option.isSome_map.trans h.track }
    | pointEle | pointTime => exact { h with point := Option.isSome_map.trans h.point }

end Levels

/-
What the children with a text come to.
-/

-- the own children with a text
def Level.texts : Level → List String
  | gpx .gpx10 | metadata => ["name", "desc", "time"]
  | gpx .gpx11 | trkseg => []
  | trk => ["name"]
  | trkpt => ["ele", "time"]

section Children

variable (unescape : String → Option String) (level : Level)

def setChild (content : Content) (s : State) (name : String) : State :=
  (level.text? name).elim s fun target => setText? target (childText unescape name content) s

def setTexts (content : Content) (s : State) : State := level.texts.foldl (setChild unescape level content) s

variable {unescape level} {s s' : State} {own : Bool} {tag : Tag} {content rest : Content} {target : TextTarget}
  {name : String}

theorem setText?_comm {target target' : TextTarget} (hne : target ≠ target') (text text' : Option String) (s : State)
    : setText? target text (setText? target' text' s) = setText? target' text' (setText? target text s) := by
  cases text with
  | none => rfl
  | some text =>
    cases text' with
    | none => rfl
    | some text' =>
      simp only [setText?, Option.elim_some]
      cases target <;> cases target' <;>
        first
        | exact absurd rfl hne
        | simp only [setText, Option.map_map, Function.comp_def]

theorem childText_element_self : childText unescape tag.localName (.element true tag content rest)
    = content.text? unescape := by
  simp [childText, Content.children]

theorem childText_element_of_ne (h : ¬(own = true ∧ tag.localName = name))
    : childText unescape name (.element own tag content rest) = childText unescape name rest := by
  simp only [childText, Content.children, if_neg h]

theorem childText_empty_self : childText unescape tag.localName (.empty true tag rest) = none := by
  simp [childText, Content.children, Content.text?, Content.isBlank]

theorem childText_empty_of_ne (h : ¬(own = true ∧ tag.localName = name))
    : childText unescape name (.empty own tag rest) = childText unescape name rest := by
  simp only [childText, Content.children, if_neg h]

theorem childText_of_nil (h : content.children name = []) : childText unescape name content = none := by
  rw [childText, h]
  rfl

theorem Level.mem_texts (h : level.text? name = some target) : name ∈ level.texts := by
  unfold Level.text? at h
  split at h
  all_goals
    first
    | cases h
      decide
    | cases h

theorem Level.nodup_texts : level.texts.Nodup := by
  cases level with
  | gpx version => cases version <;> decide
  | metadata | trk | trkseg | trkpt => decide

-- the element with the text
def TextTarget.element : TextTarget → String
  | metadataName | trackName => "name"
  | metadataDesc => "desc"
  | metadataTime | pointTime => "time"
  | pointEle => "ele"

theorem Level.eq_element (h : level.text? name = some target) : name = target.element := by
  unfold Level.text? at h
  split at h
  all_goals
    first
    | cases h
      rfl
    | cases h

-- one of the functions does what is done before all others
theorem foldl_first {names : List String} {f f' : State → String → State} {g : State → State} {s : State}
    (hnodup : names.Nodup) (hmem : name ∈ names) (hname : ∀ s, f' s name = g s) (hname' : ∀ s, f s name = s)
    (hsame : ∀ other, other ≠ name → ∀ s, f' s other = f s other)
    (hcomm : ∀ other, other ≠ name → ∀ s, f (g s) other = g (f s other))
    : names.foldl f' s = names.foldl f (g s) := by
  induction names generalizing s with
  | nil => cases hmem
  | cons first names ih =>
    rw [List.nodup_cons] at hnodup
    rw [List.foldl_cons, List.foldl_cons]
    by_cases hfirst : first = name
    . subst hfirst
      rw [hname, hname']
      apply List.foldl_ext
      intro s other hother
      exact hsame other (fun heq => hnodup.1 (heq ▸ hother)) s
    . rw [hsame first hfirst, hcomm first hfirst]
      exact ih hnodup.2 ((List.mem_cons.mp hmem).resolve_left fun heq => hfirst heq.symm)

theorem setTexts_element_text (htext : level.text? tag.localName = some target)
    (hsingle : rest.children tag.localName = [])
    : setTexts unescape level (.element true tag content rest) s
        = setTexts unescape level rest (setText? target (content.text? unescape) s) := by
  apply foldl_first Level.nodup_texts (Level.mem_texts htext)
  . intro s
    rw [setChild, htext, Option.elim_some, childText_element_self]
  . intro s
    rw [setChild, htext, Option.elim_some, childText_of_nil hsingle]
    rfl
  . intro other hother s
    rw [setChild, setChild, childText_element_of_ne fun hown => hother hown.2.symm]
  . intro other hother s
    cases hother' : level.text? other with
    | none => simp only [setChild, hother', Option.elim_none]
    | some target' =>
      have hne : target' ≠ target := by
        rintro rfl
        exact hother ((Level.eq_element hother').trans (Level.eq_element htext).symm)
      simp only [setChild, hother', Option.elim_some]
      exact setText?_comm hne _ _ s

-- a child that has no text to read
theorem setTexts_element_other (h : own = true → level.text? tag.localName = none)
    : setTexts unescape level (.element own tag content rest) s = setTexts unescape level rest s := by
  apply List.foldl_ext
  intro s name _
  by_cases hname : own = true ∧ tag.localName = name
  . rw [setChild, setChild, ← hname.2, h hname.1]
    rfl
  . rw [setChild, setChild, childText_element_of_ne hname]

theorem setTexts_empty
    (hsingle : own = true → level.text? tag.localName ≠ none → rest.children tag.localName = [])
    : setTexts unescape level (.empty own tag rest) s = setTexts unescape level rest s := by
  apply List.foldl_ext
  intro s name _
  by_cases hname : own = true ∧ tag.localName = name
  . obtain ⟨rfl, rfl⟩ := hname
    cases htext : level.text? tag.localName with
    | none => simp only [setChild, htext, Option.elim_none]
    | some target =>
      have hrest := hsingle rfl (by simp [htext])
      rw [setChild, setChild, childText_empty_self, childText_of_nil hrest]
  . rw [setChild, setChild, childText_empty_of_ne hname]

theorem setTexts_of_texts_eq (h : ∀ name, childText unescape name content = childText unescape name rest)
    : setTexts unescape level content s = setTexts unescape level rest s := by
  apply List.foldl_ext
  intro s name _
  rw [setChild, setChild, h]

theorem State.At.setTexts (h : s.At level) {level' : Level} (content : Content)
    : (setTexts unescape level' content s).At level := by
  unfold GpxParser.setTexts
  induction level'.texts generalizing s with
  | nil => exact h
  | cons name names ih =>
    apply ih
    unfold setChild
    cases level'.text? name with
    | none => exact h
    | some target => exact h.setText? target _

end Children

end GpxParser

end Imports
