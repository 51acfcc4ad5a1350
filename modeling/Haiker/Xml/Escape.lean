import Mathlib.Data.List.Basic
import Haiker.Xml.Scan

/-!
This module contains what escaping does with the characters of a text, and a codec that does what it is
supposed to do.
-/

namespace Xml

theorem escapeChar_cases (c : Char)
    : escapeChar c = [c] ∧ c ≠ '<' ∧ c ≠ '>' ∧ c ≠ '&'
        ∨ isWhitespace c = false ∧ ∃ cs, escapeChar c = '&' :: cs ++ [';'] ∧ ∀ d ∈ cs, d.isAlphanum := by
  unfold escapeChar
  split
  . exact .inr ⟨by decide, ['l', 't'], rfl, List.all_eq_true.mp (by decide)⟩
  . exact .inr ⟨by decide, ['g', 't'], rfl, List.all_eq_true.mp (by decide)⟩
  . exact .inr ⟨by decide, ['a', 'm', 'p'], rfl, List.all_eq_true.mp (by decide)⟩
  . exact .inr ⟨by decide, ['a', 'p', 'o', 's'], rfl, List.all_eq_true.mp (by decide)⟩
  . exact .inr ⟨by decide, ['q', 'u', 'o', 't'], rfl, List.all_eq_true.mp (by decide)⟩
  . next hlt hgt hamp _ _ => exact .inl ⟨rfl, hlt, hgt, hamp⟩

theorem escape_eq_self {s : String} (h : ∀ c ∈ s.toList, c ≠ '<' ∧ c ≠ '>' ∧ c ≠ '&' ∧ c ≠ '\'' ∧ c ≠ '"')
    : escape s = s := by
  have hchars : s.toList.flatMap escapeChar = s.toList.flatMap fun c => [c] := by
    apply List.flatMap_congr
    intro c hc
    obtain ⟨hlt, hgt, hamp, hapos, hquot⟩ := h c hc
    unfold escapeChar
    split
    . exact absurd rfl hlt
    . exact absurd rfl hgt
    . exact absurd rfl hamp
    . exact absurd rfl hapos
    . exact absurd rfl hquot
    . rfl
  rw [escape, hchars, List.flatMap_singleton', String.ofList_toList]

theorem ne_of_mem_escape {c : Char} {cs : List Char} (h : c ∈ cs.flatMap escapeChar)
    : c ≠ '<' ∧ c ≠ '>' := by
  obtain ⟨d, _, hc⟩ := List.mem_flatMap.mp h
  rcases escapeChar_cases d with ⟨hd, hlt, hgt, _⟩ | ⟨_, ds, hd, hds⟩
  . rw [hd, List.mem_singleton] at hc
    rw [hc]
    exact ⟨hlt, hgt⟩
  . rw [hd, List.cons_append, List.mem_cons, List.mem_append, List.mem_singleton] at hc
    rcases hc with rfl | hc | rfl
    . decide
    . constructor
      . rintro rfl
        exact absurd (hds '<' hc) (by decide)
      . rintro rfl
        exact absurd (hds '>' hc) (by decide)
    . decide

/-
White space stays where it is.
-/

theorem dropWhile_flatMap {f : Char → List Char} (hblank : ∀ c, isWhitespace c = true → f c = [c])
    (hother : ∀ c, isWhitespace c = false → ∃ d ds, f c = d :: ds ∧ isWhitespace d = false)
    (cs : List Char)
    : (cs.flatMap f).dropWhile isWhitespace = (cs.dropWhile isWhitespace).flatMap f := by
  induction cs with
  | nil => rfl
  | cons c cs ih =>
    cases hc : isWhitespace c with
    | true => rw [List.flatMap_cons, hblank c hc, List.singleton_append, List.dropWhile_cons_of_pos hc, ih,
        List.dropWhile_cons_of_pos hc]
    | false =>
      obtain ⟨d, ds, hf, hd⟩ := hother c hc
      rw [List.dropWhile_cons_of_neg (by simp [hc]), List.flatMap_cons, hf, List.cons_append,
        List.dropWhile_cons_of_neg (by simp [hd])]

theorem escapeChar_of_blank {c : Char} (h : isWhitespace c = true) : escapeChar c = [c] := by
  rcases escapeChar_cases c with ⟨hc, _⟩ | ⟨hblank, _⟩
  . exact hc
  . rw [h] at hblank
    cases hblank

theorem trimChars_escape (cs : List Char)
    : trimChars (cs.flatMap escapeChar) = (trimChars cs).flatMap escapeChar := by
  have hleft := dropWhile_flatMap (f := escapeChar) (fun c hc => escapeChar_of_blank hc) (by
    intro c hc
    rcases escapeChar_cases c with ⟨hescape, _⟩ | ⟨_, ds, hescape, _⟩
    . exact ⟨c, [], hescape, hc⟩
    . exact ⟨'&', ds ++ [';'], hescape, by decide⟩)
  have hright := dropWhile_flatMap (f := List.reverse ∘ escapeChar)
    (fun c hc => by rw [Function.comp_apply, escapeChar_of_blank hc, List.reverse_singleton]) (by
    intro c hc
    rw [Function.comp_apply]
    rcases escapeChar_cases c with ⟨hescape, _⟩ | ⟨_, ds, hescape, _⟩
    . exact ⟨c, [], by rw [hescape, List.reverse_singleton], hc⟩
    . refine ⟨';', ('&' :: ds).reverse, ?_, by decide⟩
      rw [hescape, List.reverse_append]
      rfl)
  have htwice : List.reverse ∘ List.reverse ∘ escapeChar = escapeChar := by
    funext c
    exact List.reverse_reverse _
  unfold trimChars
  rw [hleft, List.reverse_flatMap, hright, List.reverse_flatMap, htwice]

theorem trimChars_eq_self {cs : List Char} (h : ∀ c ∈ cs, isWhitespace c = false) : trimChars cs = cs := by
  have hreverse : ∀ c ∈ cs.reverse, isWhitespace c = false := fun c hc => h c (List.mem_reverse.mp hc)
  rw [trimChars, Rust.dropWhile_eq_self h, Rust.dropWhile_eq_self hreverse, List.reverse_reverse]

-- the white space around what is left
theorem exists_trimChars (cs : List Char)
    : ∃ ws zs, cs = ws ++ trimChars cs ++ zs ∧ (∀ c ∈ ws, isWhitespace c = true)
        ∧ ∀ c ∈ zs, isWhitespace c = true :=
  Rust.exists_dropWhile_ends isWhitespace cs

theorem escape_eq_nil {cs : List Char} : cs.flatMap escapeChar = [] ↔ cs = [] := by
  cases cs with
  | nil => exact iff_of_true rfl rfl
  | cons c cs =>
    apply iff_of_false _ (List.cons_ne_nil c cs)
    rw [List.flatMap_cons]
    rcases escapeChar_cases c with ⟨hc, _⟩ | ⟨_, ds, hc, _⟩
    . rw [hc]
      exact List.cons_ne_nil c _
    . rw [hc]
      exact List.cons_ne_nil '&' _

/-
Unescaping what has been escaped.
-/

def unescapeChars : List Char → List Char
  | '&' :: 'l' :: 't' :: ';' :: cs => '<' :: unescapeChars cs
  | '&' :: 'g' :: 't' :: ';' :: cs => '>' :: unescapeChars cs
  | '&' :: 'a' :: 'm' :: 'p' :: ';' :: cs => '&' :: unescapeChars cs
  | '&' :: 'a' :: 'p' :: 'o' :: 's' :: ';' :: cs => '\'' :: unescapeChars cs
  | '&' :: 'q' :: 'u' :: 'o' :: 't' :: ';' :: cs => '"' :: unescapeChars cs
  | c :: cs => c :: unescapeChars cs
  | [] => []

theorem unescapeChars_cons {c : Char} {cs : List Char} (hc : c ≠ '&')
    : unescapeChars (c :: cs) = c :: unescapeChars cs := by
  rw [unescapeChars.eq_6]
  all_goals
    rintro _ rfl
    exact absurd rfl hc

theorem unescapeChars_escape (cs : List Char) : unescapeChars (cs.flatMap escapeChar) = cs := by
  induction cs with
  | nil => rfl
  | cons c cs ih =>
    rw [List.flatMap_cons]
    generalize cs.flatMap escapeChar = rest at ih ⊢
    unfold escapeChar
    split
    . exact congrArg (List.cons '<') ih
    . exact congrArg (List.cons '>') ih
    . exact congrArg (List.cons '&') ih
    . exact congrArg (List.cons '\'') ih
    . exact congrArg (List.cons '"') ih
    . next hlt hgt hamp _ _ =>
      rw [List.singleton_append, unescapeChars_cons hamp, ih]

/--
A codec for documents of tags and texts.
-/
def scanner : Codec where
  read := scan
  escape := escape
  unescape := fun s => some (String.ofList (unescapeChars s.toList))

theorem faithful_scanner : scanner.Faithful where
  read_print := fun _ h => scan_print h
  escape_eq := fun _ => rfl
  unescape_escape := by
    intro s
    simp only [scanner, escape, String.toList_ofList, unescapeChars_escape, String.ofList_toList]

end Xml
