import Haiker.Xml.Reader

/-!
This module contains XML documents as what they are made of: elements, that contain other ones, one after
the other. The events that a reader makes of a document are the events of exactly such a forest, as soon
as every end closes the innermost element.
-/

namespace Xml

/--
What is next to each other in a document. `rest` is what comes after the first of it.
-/
inductive Forest where
  | nil
  | element (tag : Tag) (content rest : Forest)
  | empty (tag : Tag) (rest : Forest)
  | text (raw : String) (rest : Forest)
  | cData (content : String) (rest : Forest)
  | other (rest : Forest)
  deriving DecidableEq

namespace Forest

def events : Forest → List Event
  | nil => []
  | element tag content rest => .start tag :: (content.events ++ .end_ tag.localName :: rest.events)
  | empty tag rest => .empty tag :: rest.events
  | text raw rest => .text raw :: rest.events
  | cData content rest => .cData content :: rest.events
  | other rest => .other :: rest.events

/--
Some element with this name is opened, at whatever depth.
-/
def opens (name : String) : Forest → Bool
  | nil => false
  | element tag content rest => tag.localName = name || content.opens name || rest.opens name
  | empty _ rest | text _ rest | cData _ rest | other rest => rest.opens name

/--
How many elements lie within each other.
-/
def height : Forest → Nat
  | nil => 0
  | element _ content rest => max (content.height + 1) rest.height
  | empty _ rest => max 1 rest.height
  | text _ rest | cData _ rest | other rest => rest.height

/--
An empty element lies within so many elements.
-/
def hasEmptyIn : Nat → Forest → Bool
  | _, nil => false
  | n, element _ content rest => n ≠ 0 && content.hasEmptyIn (n - 1) || rest.hasEmptyIn n
  | n, empty _ rest => n = 0 || rest.hasEmptyIn n
  | n, text _ rest | n, cData _ rest | n, other rest => rest.hasEmptyIn n

end Forest

/-
The elements that are open.
-/

-- the names of the elements that are open after an event, the innermost first
def openAfter (elements : List String) : Event → Option (List String)
  | .start tag => some (tag.localName :: elements)
  | .end_ name => if elements.head? = some name then some elements.tail else none
  | .empty _ | .text _ | .cData _ | .docType | .other | .error => some elements

def openAfterAll (elements : List String) (events : List Event) : Option (List String) :=
  events.foldlM openAfter elements

/--
As long as everything can be read every end closes the innermost element that is open.
-/
structure Codec.Nests (codec : Codec) : Prop where
  nests : ∀ text before after, codec.read text = before ++ after → .error ∉ before →
    (openAfterAll [] before).isSome

-- what can be read before an end that closes something else
def checkEnds (elements : List String) : List Event → List Event
  | [] => []
  | event :: events =>
    match openAfter elements event with
    | some elements => event :: checkEnds elements events
    | none => [.error]

def Codec.checked (codec : Codec) : Codec := { codec with read := fun text => checkEnds [] (codec.read text) }

theorem isSome_openAfterAll_of_checkEnds {elements : List String} {events before after : List Event}
    (h : checkEnds elements events = before ++ after) (herror : .error ∉ before)
    : (openAfterAll elements before).isSome := by
  induction events generalizing elements before with
  | nil =>
    rw [(List.append_eq_nil_iff.mp h.symm).1]
    rfl
  | cons event events ih =>
    cases before with
    | nil => rfl
    | cons first before =>
      rw [checkEnds] at h
      cases hopen : openAfter elements event with
      | none =>
        rw [hopen] at h
        obtain rfl := (List.cons.inj h).1
        exact absurd List.mem_cons_self herror
      | some elements' =>
        rw [hopen] at h
        obtain ⟨rfl, hrest⟩ := List.cons.inj h
        rw [openAfterAll, List.foldlM_cons, hopen]
        exact ih hrest fun hmem => herror (List.mem_cons_of_mem _ hmem)

theorem nests_checked (codec : Codec) : codec.checked.Nests where
  nests _ _ _ h herror := isSome_openAfterAll_of_checkEnds h herror

-- an event that can be part of a forest
def Event.isContent : Event → Bool
  | .docType | .error => false
  | _ => true

/--
The events close these elements one after the other, with whole forests between.
-/
def Closes : List String → List Event → Prop
  | [], events => ∃ forest : Forest, events = forest.events
  | name :: names, events => ∃ (forest : Forest) (rest : List Event),
      events = forest.events ++ .end_ name :: rest ∧ Closes names rest

theorem Closes.prepend {names : List String} {events : List Event} (h : Closes names events)
    (before : List Event) (node : Forest → Forest)
    (hnode : ∀ forest, (node forest).events = before ++ forest.events)
    : Closes names (before ++ events) := by
  cases names with
  | nil =>
    obtain ⟨forest, rfl⟩ := h
    exact ⟨node forest, (hnode forest).symm⟩
  | cons name names =>
    obtain ⟨forest, rest, rfl, hrest⟩ := h
    refine ⟨node forest, rest, ?_, hrest⟩
    rw [hnode, List.append_assoc]

theorem closes_of_openAfterAll {elements : List String} {events : List Event}
    (h : openAfterAll elements events = some []) (hcontent : ∀ event ∈ events, event.isContent = true)
    : Closes elements events := by
  induction events generalizing elements with
  | nil =>
    obtain rfl := Option.some.inj h
    exact ⟨.nil, rfl⟩
  | cons event events ih =>
    rw [List.forall_mem_cons] at hcontent
    obtain ⟨hevent, hcontent⟩ := hcontent
    rw [openAfterAll, List.foldlM_cons] at h
    cases event with
    | start tag =>
      obtain ⟨content, rest, rfl, hrest⟩ := ih h hcontent
      have helement := hrest.prepend (.start tag :: (content.events ++ [.end_ tag.localName]))
        (.element tag content) fun forest => by simp [Forest.events]
      simpa using helement
    | end_ name =>
      cases elements with
      | nil => cases h
      | cons first elements =>
        by_cases hname : first = name
        . subst hname
          rw [openAfter, List.head?_cons, if_pos rfl] at h
          exact ⟨.nil, events, rfl, ih h hcontent⟩
        . have hne : ¬(first :: elements).head? = some name := by simpa using hname
          rw [openAfter, if_neg hne] at h
          cases h
    | empty tag => exact (ih h hcontent).prepend [.empty tag] (.empty tag) fun _ => rfl
    | text raw => exact (ih h hcontent).prepend [.text raw] (.text raw) fun _ => rfl
    | cData content => exact (ih h hcontent).prepend [.cData content] (.cData content) fun _ => rfl
    | other => exact (ih h hcontent).prepend [.other] .other fun _ => rfl
    | docType | error => cases hevent

/--
Events that leave no element open are those of a forest.
-/
theorem exists_forest {events : List Event} (h : openAfterAll [] events = some [])
    (hcontent : ∀ event ∈ events, event.isContent = true) : ∃ forest : Forest, events = forest.events :=
  closes_of_openAfterAll h hcontent

end Xml
