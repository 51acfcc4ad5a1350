import Haiker.Rust.Str
import Haiker.Xml.Reader

/-!
This module contains a reader for documents of tags and texts, and that it reads what has been written.
-/

namespace Xml

theorem ne_of_isAlphanum {c : Char} (h : c.isAlphanum) : c ≠ '<' ∧ c ≠ '>' := by
  constructor
  . rintro rfl
    exact absurd h (by decide)
  . rintro rfl
    exact absurd h (by decide)

/-
A tag is read up to the first blank, its attributes from quote to quote.
-/

def readAttributes : (key : List Char) → (value : Option (List Char)) → List Char → List (String × String)
  | _, _, [] => []
  | key, none, c :: cs =>
    if c = '"' then
      readAttributes key (some []) cs
    else if c = ' ' ∨ c = '=' then
      readAttributes key none cs
    else
      readAttributes (key ++ [c]) none cs
  | key, some value, c :: cs =>
    if c = '"' then
      (String.ofList key, String.ofList value) :: readAttributes [] none cs
    else
      readAttributes key (some (value ++ [c])) cs

def readMarkup : List Char → Event
  | '?' :: _ | '!' :: _ => .other
  | '/' :: name => .end_ (String.ofList name)
  | cs => .start {
      localName := String.ofList (cs.takeWhile (· ≠ ' '))
      attributes := readAttributes [] none (cs.dropWhile (· ≠ ' '))
    }

-- `pending` has been read since the last bracket
def scanFrom : (inMarkup : Bool) → (pending : List Char) → List Char → List Event
  | false, pending, [] => textEvent pending
  | true, _, [] => [.error]
  | false, pending, c :: cs =>
    if c = '<' then textEvent pending ++ scanFrom true [] cs else scanFrom false (pending ++ [c]) cs
  | true, pending, c :: cs =>
    if c = '>' then readMarkup pending :: scanFrom false [] cs else scanFrom true (pending ++ [c]) cs

def scan (s : String) : List Event := scanFrom false [] s.toList

theorem scanFrom_text {pending raw cs : List Char} (hraw : ∀ c ∈ raw, c ≠ '<')
    : scanFrom false pending (raw ++ cs) = scanFrom false (pending ++ raw) cs := by
  induction raw generalizing pending with
  | nil => rw [List.nil_append, List.append_nil]
  | cons c raw ih =>
    have hc := hraw c List.mem_cons_self
    rw [List.cons_append, scanFrom, if_neg hc, ih fun c hc => hraw c (List.mem_cons_of_mem _ hc),
      List.append_assoc]
    rfl

theorem scanFrom_markup {pending content cs : List Char} (hcontent : ∀ c ∈ content, c ≠ '>')
    : scanFrom true pending (content ++ '>' :: cs)
        = readMarkup (pending ++ content) :: scanFrom false [] cs := by
  induction content generalizing pending with
  | nil => rw [List.nil_append, List.append_nil, scanFrom, if_pos rfl]
  | cons c content ih =>
    have hc := hcontent c List.mem_cons_self
    rw [List.cons_append, scanFrom, if_neg hc, ih fun c hc => hcontent c (List.mem_cons_of_mem _ hc),
      List.append_assoc]
    rfl

theorem scanFrom_tag {pending content cs : List Char} (hcontent : ∀ c ∈ content, c ≠ '>')
    : scanFrom false pending ('<' :: content ++ '>' :: cs)
        = textEvent pending ++ readMarkup content :: scanFrom false [] cs := by
  rw [List.cons_append, scanFrom, if_pos rfl, scanFrom_markup hcontent, List.nil_append]

theorem readAttributes_key {key chars cs : List Char} (hchars : ∀ c ∈ chars, c.isAlphanum)
    : readAttributes key none (chars ++ cs) = readAttributes (key ++ chars) none cs := by
  induction chars generalizing key with
  | nil => rw [List.nil_append, List.append_nil]
  | cons c chars ih =>
    have hc := hchars c List.mem_cons_self
    have hquote : c ≠ '"' := by
      rintro rfl
      exact absurd hc (by decide)
    have hblank : ¬(c = ' ' ∨ c = '=') := by
      rintro (rfl | rfl)
      . exact absurd hc (by decide)
      . exact absurd hc (by decide)
    rw [List.cons_append, readAttributes, if_neg hquote, if_neg hblank,
      ih fun c hc => hchars c (List.mem_cons_of_mem _ hc), List.append_assoc]
    rfl

theorem readAttributes_value {key value chars cs : List Char} (hchars : ∀ c ∈ chars, c ≠ '"')
    : readAttributes key (some value) (chars ++ '"' :: cs)
        = (String.ofList key, String.ofList (value ++ chars)) :: readAttributes [] none cs := by
  induction chars generalizing value with
  | nil => rw [List.nil_append, List.append_nil, readAttributes, if_pos rfl]
  | cons c chars ih =>
    have hc := hchars c List.mem_cons_self
    rw [List.cons_append, readAttributes, if_neg hc, ih fun c hc => hchars c (List.mem_cons_of_mem _ hc),
      List.append_assoc]
    rfl

theorem toList_printAttribute (key value : String)
    : (printAttribute (key, value)).toList = ' ' :: (key.toList ++ '=' :: '"' :: (value.toList ++ ['"'])) := by
  simp [printAttribute]

theorem toList_join (strings : List String) : (String.join strings).toList = strings.flatMap (·.toList) := by
  induction strings with
  | nil => rfl
  | cons s strings ih => rw [String.join_cons, String.toList_append, ih, List.flatMap_cons]

theorem readAttributes_print {attributes : List (String × String)}
    (hkeys : ∀ pair ∈ attributes, isName pair.1) (hvalues : ∀ pair ∈ attributes, isPlain pair.2)
    : readAttributes [] none (String.join (attributes.map printAttribute)).toList = attributes := by
  induction attributes with
  | nil => rfl
  | cons pair attributes ih =>
    obtain ⟨key, value⟩ := pair
    have hkey : ∀ c ∈ key.toList, c.isAlphanum := (hkeys (key, value) List.mem_cons_self).2
    have hvalue : ∀ c ∈ value.toList, c ≠ '"' := by
      intro c hc
      exact (hvalues (key, value) List.mem_cons_self c hc).2.2
    rw [List.map_cons, String.join_cons, String.toList_append, toList_printAttribute, List.cons_append,
      readAttributes, if_neg (by decide), if_pos (by decide), List.append_assoc, readAttributes_key hkey,
      List.cons_append, readAttributes, if_neg (by decide), if_pos (by decide), List.cons_append,
      readAttributes, if_pos rfl, List.append_assoc, List.singleton_append, readAttributes_value hvalue,
      List.nil_append, List.nil_append,
      ih (fun pair hpair => hkeys pair (List.mem_cons_of_mem _ hpair))
        (fun pair hpair => hvalues pair (List.mem_cons_of_mem _ hpair)),
      String.ofList_toList, String.ofList_toList]

theorem readMarkup_of_alphanum {c : Char} (cs : List Char) (hc : c.isAlphanum)
    : readMarkup (c :: cs) = .start {
        localName := String.ofList ((c :: cs).takeWhile (· ≠ ' '))
        attributes := readAttributes [] none ((c :: cs).dropWhile (· ≠ ' '))
      } := by
  unfold readMarkup
  split
  . next heq =>
    cases heq
    exact absurd hc (by decide)
  . next heq =>
    cases heq
    exact absurd hc (by decide)
  . next heq =>
    cases heq
    exact absurd hc (by decide)
  . rfl

theorem readMarkup_open {tag : Tag} (h : tag.WellFormed)
    : readMarkup (tag.localName.toList ++ (String.join (tag.attributes.map printAttribute)).toList)
        = .start tag := by
  obtain ⟨localName, attributes⟩ := tag
  obtain ⟨⟨hne, hname⟩, hkeys, hvalues, _⟩ := h
  have hblank : ∀ c ∈ (String.join (attributes.map printAttribute)).toList.head?,
      decide (c ≠ ' ') = false := by
    cases attributes with
    | nil => simp
    | cons pair attributes =>
      rw [List.map_cons, String.join_cons, String.toList_append, toList_printAttribute]
      simp
  have hchars : ∀ c ∈ localName.toList, decide (c ≠ ' ') = true := by
    intro c hc
    apply decide_eq_true
    rintro rfl
    exact absurd (hname ' ' hc) (by decide)
  obtain ⟨htake, hdrop⟩ := Rust.takeWhile_append_stop _ hchars hblank
  obtain ⟨c, cs, hcs⟩ : ∃ c cs, localName.toList = c :: cs :=
    List.exists_cons_of_ne_nil (by simpa using hne)
  have hc := hname c (by rw [hcs]; exact List.mem_cons_self)
  have hfirst := readMarkup_of_alphanum (cs ++ (String.join (attributes.map printAttribute)).toList) hc
  rw [← List.cons_append, ← hcs] at hfirst
  rw [hfirst, htake, hdrop, String.ofList_toList,
    readAttributes_print hkeys fun pair hpair => (hvalues pair hpair).1]

theorem Tag.WellFormed.chars {tag : Tag} (h : tag.WellFormed)
    : ∀ c ∈ tag.localName.toList ++ (String.join (tag.attributes.map printAttribute)).toList,
        c ≠ '<' ∧ c ≠ '>' := by
  intro c hc
  rcases List.mem_append.mp hc with hc | hc
  . exact ne_of_isAlphanum (h.name.2 c hc)
  . rw [toList_join, List.mem_flatMap] at hc
    obtain ⟨_, hprint, hc⟩ := hc
    obtain ⟨⟨key, value⟩, hpair, rfl⟩ := List.mem_map.mp hprint
    simp only [toList_printAttribute, List.mem_cons, List.mem_append, List.not_mem_nil, or_false] at hc
    rcases hc with rfl | hc | rfl | rfl | hc | rfl
    . decide
    . exact ne_of_isAlphanum ((h.keys _ hpair).2 c hc)
    . decide
    . decide
    . exact ⟨((h.values _ hpair).1 c hc).1, ((h.values _ hpair).1 c hc).2.1⟩
    . decide

theorem exists_content {elements : List String} {afterText : Bool} {token : Token} {tokens : List Token}
    (h : WellFormedFrom elements afterText (token :: tokens)) (htoken : ∀ raw, token ≠ .text raw)
    : ∃ c content, token.print.toList = '<' :: (c :: content) ++ ['>']
        ∧ (∀ d ∈ c :: content, d ≠ '<' ∧ d ≠ '>') ∧ c ≠ '!' ∧ token.events = [readMarkup (c :: content)]
        ∧ ∃ elements', WellFormedFrom elements' false tokens := by
  cases token with
  | instruction content =>
    obtain ⟨hcontent, htokens⟩ := h
    refine ⟨'?', content.toList ++ ['?'], by simp [Token.print], ?_, by decide, rfl, elements, htokens⟩
    intro d hd
    rcases List.mem_cons.mp hd with rfl | hd
    . decide
    . rcases List.mem_append.mp hd with hd | hd
      . exact ⟨(hcontent d hd).1, (hcontent d hd).2.1⟩
      . rw [List.mem_singleton.mp hd]
        decide
  | open_ tag =>
    obtain ⟨htag, htokens⟩ := h
    obtain ⟨c, cs, hcs⟩ : ∃ c cs, tag.localName.toList = c :: cs :=
      List.exists_cons_of_ne_nil (by simpa using htag.name.1)
    have hchars := htag.chars
    have hread := readMarkup_open htag
    rw [hcs, List.cons_append] at hchars hread
    refine ⟨c, _, by simp [Token.print, hcs], hchars, ?_, by rw [hread, Token.events], _, htokens⟩
    rintro rfl
    exact absurd (htag.name.2 '!' (by rw [hcs]; exact List.mem_cons_self)) (by decide)
  | close name =>
    obtain ⟨hname, _, htokens⟩ := h
    refine ⟨'/', name.toList, by simp [Token.print], ?_, by decide, ?_, _, htokens⟩
    . intro d hd
      rcases List.mem_cons.mp hd with rfl | hd
      . decide
      . exact ne_of_isAlphanum (hname.2 d hd)
    . rw [readMarkup, String.ofList_toList, Token.events]
  | text raw => exact absurd rfl (htoken raw)

theorem scanFrom_print {elements : List String} {afterText : Bool} {tokens : List Token}
    {pending : List Char} (h : WellFormedFrom elements afterText tokens)
    (hpending : afterText = false → pending = [])
    : scanFrom false pending (print tokens).toList = textEvent pending ++ tokens.flatMap Token.events := by
  induction tokens generalizing elements afterText pending with
  | nil => exact (List.append_nil _).symm
  | cons token tokens ih =>
    rw [print_cons, String.toList_append, List.flatMap_cons]
    by_cases htoken : ∃ raw, token = .text raw
    . obtain ⟨raw, rfl⟩ := htoken
      obtain ⟨rfl, _, hraw, _, htokens⟩ := h
      rw [hpending rfl, Token.print, scanFrom_text fun c hc => (hraw c hc).1, List.nil_append,
        ih htokens (by simp)]
      rfl
    . obtain ⟨c, content, hprint, hchars, _, hevents, _, htokens⟩ :=
        exists_content h (not_exists.mp htoken)
      rw [hprint, hevents, List.append_assoc, List.singleton_append,
        scanFrom_tag fun d hd => (hchars d hd).2, ih htokens fun _ => rfl]
      rfl

theorem scan_print {tokens : List Token} (h : WellFormed tokens)
    : scan (print tokens) = tokens.flatMap Token.events := by
  rw [scan, scanFrom_print h fun _ => rfl]
  rfl

/-
Nothing that is written declares a document type.
-/

theorem infix_of_append {pat xs ys : List Char} {c : Char} (hxs : c ∉ xs)
    (h : c :: pat <:+: xs ++ ys) : c :: pat <:+: ys := by
  induction xs with
  | nil => exact h
  | cons x xs ih =>
    rw [List.cons_append, List.infix_cons_iff] at h
    rcases h with h | h
    . have hc : c = x := (List.cons_prefix_cons.mp h).1
      exact absurd (hc ▸ List.mem_cons_self) hxs
    . exact ih (fun hc => hxs (List.mem_cons_of_mem _ hc)) h

theorem no_declaration {elements : List String} {afterText : Bool} {tokens : List Token}
    (h : WellFormedFrom elements afterText tokens) (pat : List Char)
    : ¬( '<' :: '!' :: pat) <:+: (print tokens).toList := by
  induction tokens generalizing elements afterText with
  | nil => simp [print]
  | cons token tokens ih =>
    rw [print_cons, String.toList_append]
    intro hinfix
    by_cases htoken : ∃ raw, token = .text raw
    . obtain ⟨raw, rfl⟩ := htoken
      obtain ⟨_, _, hraw, _, htokens⟩ := h
      exact ih htokens (infix_of_append (fun hc => (hraw '<' hc).1 rfl) hinfix)
    . obtain ⟨c, content, hprint, hchars, hc, _, _, htokens⟩ := exists_content h (not_exists.mp htoken)
      rw [hprint, List.append_assoc, List.cons_append, List.infix_cons_iff] at hinfix
      rcases hinfix with hinfix | hinfix
      . have hfirst := (List.cons_prefix_cons.mp (List.cons_prefix_cons.mp hinfix).2).1
        exact hc hfirst.symm
      . rw [← List.append_assoc] at hinfix
        apply ih htokens (infix_of_append (fun hd => ?_) hinfix)
        rcases List.mem_append.mp hd with hd | hd
        . exact (hchars '<' hd).1 rfl
        . cases List.mem_singleton.mp hd

end Xml
