import Mathlib.Init

/-!
This module contains XML documents as the tokens that they are written with, and what libraries for XML
do with them: events are read, and the five special characters are escaped.
-/

namespace Xml

structure Tag where
  localName : String
  attributes : List (String × String)
  deriving DecidableEq

/--
What is read one after the other. Texts and attributes are still escaped.
-/
inductive Event where
  | start (tag : Tag)
  | end_ (localName : String)
  | empty (tag : Tag)
  | text (raw : String)
  | cData (content : String)
  | docType
  -- a declaration, a comment or a processing instruction
  | other
  -- what cannot be read
  | error
  deriving DecidableEq

-- the white space of XML
def isWhitespace (c : Char) : Bool := c = ' ' ∨ c = '\t' ∨ c = '\r' ∨ c = '\n'

def trimChars (cs : List Char) : List Char :=
  (((cs.dropWhile isWhitespace).reverse).dropWhile isWhitespace).reverse

def trim (s : String) : String := String.ofList (trimChars s.toList)

-- a text without the white space around it, if there is anything else
def textEvent (raw : List Char) : List Event :=
  if trimChars raw = [] then [] else [.text (String.ofList (trimChars raw))]

def escapeChar (c : Char) : List Char :=
  match c with
  | '<' => ['&', 'l', 't', ';']
  | '>' => ['&', 'g', 't', ';']
  | '&' => ['&', 'a', 'm', 'p', ';']
  | '\'' => ['&', 'a', 'p', 'o', 's', ';']
  | '"' => ['&', 'q', 'u', 'o', 't', ';']
  | c => [c]

def escape (s : String) : String := String.ofList (s.toList.flatMap escapeChar)

/-
Tokens and what they are written as.
-/

inductive Token where
  -- `<?..?>`
  | instruction (content : String)
  | open_ (tag : Tag)
  | close (name : String)
  | text (raw : String)
  deriving DecidableEq

def printAttribute : String × String → String
  | (key, value) => " " ++ key ++ "=\"" ++ value ++ "\""

namespace Token

def print : Token → String
  | .instruction content => "<?" ++ content ++ "?>"
  | .open_ tag => "<" ++ tag.localName ++ String.join (tag.attributes.map printAttribute) ++ ">"
  | .close name => "</" ++ name ++ ">"
  | .text raw => raw

def events : Token → List Event
  | .instruction _ => [.other]
  | .open_ tag => [.start tag]
  | .close name => [.end_ name]
  | .text raw => textEvent raw.toList

end Token

def print (tokens : List Token) : String := String.join (tokens.map Token.print)

theorem print_cons (token : Token) (tokens : List Token)
    : print (token :: tokens) = token.print ++ print tokens := String.join_cons

theorem print_append (tokens tokens' : List Token)
    : print (tokens ++ tokens') = print tokens ++ print tokens' := by
  induction tokens with
  | nil => exact (String.empty_append).symm
  | cons token tokens ih => rw [List.cons_append, print_cons, ih, print_cons, String.append_assoc]

theorem print_flatMap {α : Type} (items : List α) (f : α → List Token)
    : print (items.flatMap f) = String.join (items.map fun item => print (f item)) := by
  induction items with
  | nil => rfl
  | cons item items ih => rw [List.flatMap_cons, print_append, ih, List.map_cons, String.join_cons]

def isName (name : String) : Prop := name ≠ "" ∧ ∀ c ∈ name.toList, c.isAlphanum

-- no character of markup
def isPlain (s : String) : Prop := ∀ c ∈ s.toList, c ≠ '<' ∧ c ≠ '>' ∧ c ≠ '"'

-- only the characters of the text are tried
instance (s : String) : Decidable (isPlain s) := List.decidableBAll _ s.toList

instance (name : String) : Decidable (isName name) :=
  have : Decidable (∀ c ∈ name.toList, c.isAlphanum) := List.decidableBAll _ name.toList
  inferInstanceAs (Decidable (_ ∧ _))

structure Tag.WellFormed (tag : Tag) : Prop where
  name : isName tag.localName
  keys : ∀ pair ∈ tag.attributes, isName pair.1
  values : ∀ pair ∈ tag.attributes, isPlain pair.2 ∧ '&' ∉ pair.2.toList
  nodup : (tag.attributes.map Prod.fst).Nodup

/--
The tokens close the elements that are open, the innermost first. Texts are not empty, not next to each
other, and only white space is outside of all elements.
-/
def WellFormedFrom : (elements : List String) → (afterText : Bool) → List Token → Prop
  | elements, _, [] => elements = []
  | elements, _, .instruction content :: tokens =>
    (∀ c ∈ content.toList, c ≠ '<' ∧ c ≠ '>' ∧ c ≠ '?') ∧ WellFormedFrom elements false tokens
  | elements, _, .open_ tag :: tokens =>
    tag.WellFormed ∧ WellFormedFrom (tag.localName :: elements) false tokens
  | elements, _, .close name :: tokens =>
    isName name ∧ elements.head? = some name ∧ WellFormedFrom elements.tail false tokens
  | elements, afterText, .text raw :: tokens =>
    afterText = false ∧ raw ≠ "" ∧ (∀ c ∈ raw.toList, c ≠ '<' ∧ c ≠ '>')
      ∧ (elements = [] → trimChars raw.toList = []) ∧ WellFormedFrom elements true tokens

def WellFormed (tokens : List Token) : Prop := WellFormedFrom [] false tokens

/--
What a library for XML offers.
-/
structure Codec where
  read : String → List Event
  escape : String → String
  unescape : String → Option String

/--
Well-formed documents are read as they are written, and what has been escaped can be unescaped.
-/
structure Codec.Faithful (codec : Codec) : Prop where
  read_print : ∀ tokens, WellFormed tokens → codec.read (print tokens) = tokens.flatMap Token.events
  escape_eq : ∀ s, codec.escape s = Xml.escape s
  unescape_escape : ∀ s, codec.unescape (Xml.escape s) = some s

end Xml
