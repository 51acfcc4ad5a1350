import Haiker.Xml.Escape
import Haiker.Xml.Forest

/-!
This module contains documents of one vocabulary, that elements of other ones may be mixed into. A reader that
reports local names does not tell them apart.
-/

namespace Xml

/--
What is next to each other in a document, with the white space around texts. The elements of the vocabulary
are the document's `own` ones.
-/
inductive Content where
  | nil
  | element (own : Bool) (tag : Tag) (content rest : Content)
  | empty (own : Bool) (tag : Tag) (rest : Content)
  | text (raw : String) (rest : Content)
  | cData (content : String) (rest : Content)
  | other (rest : Content)
  deriving DecidableEq

namespace Content

-- what a reader makes of it that trims texts
def forest : Content → Forest
  | nil => .nil
  | element _ tag content rest => .element tag content.forest rest.forest
  | empty _ tag rest => .empty tag rest.forest
  | text raw rest => if trimChars raw.toList = [] then rest.forest else .text (trim raw) rest.forest
  | cData content rest => .cData content rest.forest
  | other rest => .other rest.forest

def events (content : Content) : List Event := content.forest.events

/--
The own elements with a name, in their order and with what is in them.
-/
def children (name : String) : Content → List (Tag × Content)
  | nil => []
  | element own tag content rest =>
    if own = true ∧ tag.localName = name then (tag, content) :: rest.children name else rest.children name
  | empty own tag rest =>
    if own = true ∧ tag.localName = name then (tag, nil) :: rest.children name else rest.children name
  | text _ rest | cData _ rest | other rest => rest.children name

-- there is nothing but white space outside of the elements
def isBlank : Content → Bool
  | nil => true
  | text raw rest => trimChars raw.toList = [] && rest.isBlank
  | cData content rest => trimChars content.toList = [] && rest.isBlank
  | element _ _ _ rest | empty _ _ rest | other rest => rest.isBlank

section Text

variable (unescape : String → Option String)

-- all that is written outside of the elements
def written : Content → String
  | nil => ""
  | text raw rest => (unescape raw).getD "" ++ rest.written
  | cData content rest => content ++ rest.written
  | element _ _ _ rest | empty _ _ rest | other rest => rest.written

/--
The text of an element with this content.
-/
def text? (content : Content) : Option String := if content.isBlank then none else some (content.written unescape)

end Text

-- no elements
def isText : Content → Bool
  | nil => true
  | element .. | empty .. => false
  | text _ rest | cData _ rest | other rest => rest.isText

-- at most one piece of text that is not blank, outside of `CDATA` sections
def isUnbroken : Content → Bool
  | nil => true
  | text raw rest => (trimChars raw.toList = [] || rest.isBlank) && rest.isUnbroken
  | cData content rest => trimChars content.toList = [] && rest.isUnbroken
  | element _ _ _ rest | empty _ _ rest | other rest => rest.isUnbroken

-- nothing but white space, comments and `CDATA` sections
def isSilent : Content → Bool
  | nil => true
  | element .. | empty .. => false
  | text raw rest => trimChars raw.toList = [] && rest.isSilent
  | cData _ rest | other rest => rest.isSilent

/--
At whatever depth, no element that is opened has one of the first names, those with one of the second names are
silent, and no empty one has one of the others.
-/
def avoids (entered awaited emptied : List String) : Content → Bool
  | nil => true
  | element _ tag content rest =>
    tag.localName ∉ entered
      && (if tag.localName ∈ awaited then content.isSilent else content.avoids entered awaited emptied)
      && rest.avoids entered awaited emptied
  | empty _ tag rest => tag.localName ∉ emptied && rest.avoids entered awaited emptied
  | text _ rest | cData _ rest | other rest => rest.avoids entered awaited emptied

end Content

/--
White space around a text stays what it is.
-/
structure Codec.KeepsBlanks (codec : Codec) : Prop where
  unescape_blank : ∀ ws : String, (∀ c ∈ ws.toList, isWhitespace c = true) → codec.unescape ws = some ws
  unescape_append : ∀ ws raw zs : String, (∀ c ∈ ws.toList, isWhitespace c = true) →
    (∀ c ∈ zs.toList, isWhitespace c = true) →
    codec.unescape (ws ++ raw ++ zs) = (codec.unescape raw).map fun s => ws ++ s ++ zs

-- white space does not complete the name of a character
theorem not_append_of_blank {c : Char} {cs zs : List Char} (hzs : ∀ c ∈ zs, isWhitespace c = true)
    (name : List Char) (hname : name.all (!isWhitespace ·) = true)
    (hother : ∀ rest, c = '&' → cs = name ++ rest → False)
    : ∀ rest, c = '&' → cs ++ zs = name ++ rest → False := by
  intro rest hc h
  rcases List.append_eq_append_iff.mp h with ⟨xs, hxs, hrest⟩ | ⟨xs, hxs, _⟩
  . cases xs with
    | nil => exact hother [] hc (by rw [hxs, List.append_nil, List.append_nil])
    | cons x xs =>
      have hblank := hzs x (by rw [hrest]; exact List.mem_cons_self)
      have hmem : x ∈ name := by
        rw [hxs]
        exact List.mem_append_right _ List.mem_cons_self
      have hnot := List.all_eq_true.mp hname x hmem
      rw [hblank] at hnot
      cases hnot
  . exact hother xs hc hxs

theorem unescapeChars_blank_append {ws : List Char} (hws : ∀ c ∈ ws, isWhitespace c = true) (cs : List Char)
    : unescapeChars (ws ++ cs) = ws ++ unescapeChars cs := by
  induction ws with
  | nil => rfl
  | cons w ws ih =>
    rw [List.forall_mem_cons] at hws
    have hne : w ≠ '&' := by
      rintro rfl
      exact absurd hws.1 (by decide)
    rw [List.cons_append, unescapeChars_cons hne, ih hws.2, List.cons_append]

theorem unescapeChars_append_blank (cs : List Char) {zs : List Char} (hzs : ∀ c ∈ zs, isWhitespace c = true)
    : unescapeChars (cs ++ zs) = unescapeChars cs ++ zs := by
  induction cs using unescapeChars.induct with
  | case1 cs ih => exact congrArg (List.cons '<') ih
  | case2 cs ih => exact congrArg (List.cons '>') ih
  | case3 cs ih => exact congrArg (List.cons '&') ih
  | case4 cs ih => exact congrArg (List.cons '\'') ih
  | case5 cs ih => exact congrArg (List.cons '"') ih
  | case6 c cs hlt hgt hamp hapos hquot ih =>
    rw [unescapeChars.eq_6 _ _ hlt hgt hamp hapos hquot, List.cons_append, unescapeChars.eq_6, ih, List.cons_append]
    . exact not_append_of_blank hzs ['l', 't', ';'] (by decide) hlt
    . exact not_append_of_blank hzs ['g', 't', ';'] (by decide) hgt
    . exact not_append_of_blank hzs ['a', 'm', 'p', ';'] (by decide) hamp
    . exact not_append_of_blank hzs ['a', 'p', 'o', 's', ';'] (by decide) hapos
    . exact not_append_of_blank hzs ['q', 'u', 'o', 't', ';'] (by decide) hquot
  | case7 =>
    have hblank := unescapeChars_blank_append hzs []
    rw [List.append_nil] at hblank
    rw [List.nil_append, hblank]
    exact List.append_nil zs

theorem keepsBlanks_scanner : scanner.KeepsBlanks where
  unescape_blank := by
    intro ws hws
    have hblank := unescapeChars_append_blank [] hws
    rw [List.nil_append] at hblank
    simp only [scanner, hblank]
    exact congrArg some String.ofList_toList
  unescape_append := by
    intro ws raw zs hws hzs
    simp only [scanner, String.toList_append, Option.map_some]
    rw [List.append_assoc, unescapeChars_blank_append hws, unescapeChars_append_blank _ hzs, ← List.append_assoc,
      String.ofList_append, String.ofList_append, String.ofList_toList, String.ofList_toList]

end Xml
