import Mathlib.Data.List.Chain
import Mathlib.Data.List.DropRight
import Haiker.Exports.GpxGenerator
import Haiker.Rust.Str

/-!
This module contains the names of the files that are downloaded, and that they are safe whatever name they
are made of.
-/

open Rust
open Exports (trimEndMatches)

namespace Api

-- the subtractions panic below zero
def maxBaseLen (extension : String) : Option Nat :=
  if extension.utf8ByteSize + 1 ≤ 100 then some (100 - extension.utf8ByteSize - 1) else none

def replaceChar (c : Char) : Char := if c.isAlphanum ∨ c = '-' then c else '-'

/--
The variables of the loop that collapses hyphens.
-/
structure Collapse where
  result : List Char
  prevHyphen : Bool

namespace Collapse

def start : Collapse := ⟨[], false⟩

def push (s : Collapse) (c : Char) : Collapse :=
  if c = '-' then
    { result := if s.prevHyphen then s.result else s.result ++ [c], prevHyphen := true }
  else
    { result := s.result ++ [c], prevHyphen := false }

end Collapse

def collapse (cs : List Char) : List Char := (cs.foldl Collapse.push .start).result

-- `s.trim_matches(c)`
def trimMatches (c : Char) (s : String) : String :=
  String.ofList (((s.toList.dropWhile (· = c)).reverse.dropWhile (· = c)).reverse)

-- too long a base is cut, where `&result[..max_base_len]` may panic
def truncate (maxBaseLen : Nat) (result : String) : Option String :=
  if maxBaseLen < result.utf8ByteSize then
    (sliceBytes result maxBaseLen).map (trimEndMatches '-')
  else
    some result

/--
`none` is a panic.
-/
def sanitizeFilename (name extension : String) : Option String := do
  let maxBaseLen ← maxBaseLen extension
  let sanitized := name.toList.map replaceChar
  let result ← truncate maxBaseLen (trimMatches '-' (String.ofList (collapse sanitized)))
  let base := if result = "" then "export" else result
  return base ++ "." ++ extension

example : sanitizeFilename "Up & down: é!" "gpx" = some "Up-down.gpx" := by decide

/-
What the passes make of the characters.
-/

def isSafe (c : Char) : Bool := c.isAlphanum ∨ c = '-'

def hyphen (c : Char) : Bool := c = '-'

-- not two hyphens next to each other
def Single (cs : List Char) : Prop := cs.IsChain fun a b => ¬(hyphen a ∧ hyphen b)

theorem isSafe_replaceChar (c : Char) : isSafe (replaceChar c) = true := by
  unfold replaceChar
  split
  . next hc => simpa [isSafe] using hc
  . decide

theorem replaceChar_of_isSafe {c : Char} (h : isSafe c = true) : replaceChar c = c :=
  if_pos (by simpa [isSafe] using h)

theorem utf8Size_of_isSafe {c : Char} (h : isSafe c = true) : c.utf8Size = 1 := by
  have hc : c.isAlphanum ∨ c = '-' := by simpa [isSafe] using h
  rcases hc with hc | rfl
  . exact utf8Size_of_isAlphanum hc
  . decide

namespace Collapse

/--
No two hyphens are next to each other, and the flag says that the last is one.
-/
structure Collapsed (s : Collapse) : Prop where
  single : Single s.result
  last : s.prevHyphen = false → ∀ c ∈ s.result.getLast?, hyphen c = false

theorem Collapsed.push {s : Collapse} (h : Collapsed s) (c : Char) : Collapsed (s.push c) := by
  unfold Collapse.push
  by_cases hc : c = '-'
  . rw [if_pos hc]
    refine ⟨?_, by simp⟩
    cases hflag : s.prevHyphen with
    | true => exact h.single
    | false =>
      apply h.single.append (List.isChain_singleton c)
      intro a ha b _ hboth
      have hlast := h.last hflag a ha
      rw [hlast] at hboth
      cases hboth.1
  . rw [if_neg hc]
    have hnot : hyphen c = false := decide_eq_false hc
    constructor
    . apply h.single.append (List.isChain_singleton c)
      intro a _ b hb hboth
      obtain rfl := Option.some.inj hb
      rw [hnot] at hboth
      cases hboth.2
    . intro _ d hd
      rw [List.getLast?_concat] at hd
      obtain rfl := Option.some.inj hd
      exact hnot

theorem Collapsed.foldl {s : Collapse} (h : Collapsed s) (cs : List Char)
    : Collapsed (cs.foldl Collapse.push s) := by
  induction cs generalizing s with
  | nil => exact h
  | cons c cs ih => exact ih (h.push c)

theorem mem_foldl {s : Collapse} {cs : List Char} {c : Char} (h : c ∈ (cs.foldl push s).result)
    : c ∈ s.result ∨ c ∈ cs := by
  induction cs generalizing s with
  | nil => exact .inl h
  | cons first cs ih =>
    rcases ih h with hc | hc
    . have hpush : c ∈ s.result ∨ c = first := by
        unfold push at hc
        split at hc
        . split at hc
          . exact .inl hc
          . simpa using hc
        . simpa using hc
      rcases hpush with hc | rfl
      . exact .inl hc
      . exact .inr List.mem_cons_self
    . exact .inr (List.mem_cons_of_mem _ hc)

-- nothing is left out of what has no double hyphens
theorem foldl_of_single {s : Collapse} {cs : List Char} (h : Single cs)
    (hfirst : s.prevHyphen = true → ∀ c ∈ cs.head?, hyphen c = false)
    : (cs.foldl push s).result = s.result ++ cs := by
  induction cs generalizing s with
  | nil => exact (List.append_nil _).symm
  | cons c cs ih =>
    have hresult : (s.push c).result = s.result ++ [c] := by
      unfold push
      by_cases hc : c = '-'
      . have hflag : s.prevHyphen = false := by
          cases hflag : s.prevHyphen with
          | false => rfl
          | true =>
            have hnot := hfirst hflag c rfl
            rw [hc] at hnot
            cases hnot
        rw [if_pos hc, hflag]
        rfl
      . rw [if_neg hc]
    have hnext : (s.push c).prevHyphen = true → ∀ d ∈ cs.head?, hyphen d = false := by
      intro hflag d hd
      have hc : hyphen c = true := by
        unfold push at hflag
        split at hflag
        . next hc => exact decide_eq_true hc
        . cases hflag
      have hboth := (List.isChain_cons.mp h).1 d hd
      simpa [hc] using hboth
    rw [List.foldl_cons, ih h.of_cons hnext, hresult, List.append_assoc]
    rfl

end Collapse

/-
What the passes keep.
-/

structure SafeChars (cs : List Char) : Prop where
  safe : ∀ c ∈ cs, isSafe c = true
  first : ∀ c ∈ cs.head?, hyphen c = false
  last : ∀ c ∈ cs.getLast?, hyphen c = false
  single : Single cs

/--
A base for the name of a file.
-/
structure SafeBase (base : String) : Prop extends SafeChars base.toList where
  nonempty : base ≠ ""

theorem safeChars_trimMatches (name : String)
    : SafeChars (trimMatches '-' (String.ofList (collapse (name.toList.map replaceChar)))).toList := by
  have hcollapsed := Collapse.Collapsed.foldl (s := .start) ⟨.nil, by simp [Collapse.start]⟩
    (name.toList.map replaceChar)
  obtain ⟨hyphens, hyphens', hsplit, _, _⟩ := exists_dropWhile_ends hyphen (collapse (name.toList.map replaceChar))
  obtain ⟨hfirst, hlast⟩ := ends_dropWhile hyphen (collapse (name.toList.map replaceChar))
  rw [trimMatches, String.toList_ofList, String.toList_ofList]
  refine ⟨?_, hfirst, hlast, ?_⟩
  . intro c hc
    have hmem : c ∈ collapse (name.toList.map replaceChar) := by
      rw [hsplit]
      exact List.mem_append_left _ (List.mem_append_right _ hc)
    rcases Collapse.mem_foldl hmem with hnone | hreplaced
    . cases hnone
    . obtain ⟨d, _, rfl⟩ := List.mem_map.mp hreplaced
      exact isSafe_replaceChar d
  . have hsingle : Single (collapse (name.toList.map replaceChar)) := hcollapsed.single
    rw [hsplit] at hsingle
    exact List.IsChain.right_of_append (List.IsChain.left_of_append hsingle)

-- a cut leaves a beginning
theorem initial_cut (cs : List Char) (n : Nat) : (cs.take n).rdropWhile hyphen <+: cs := by
  have hdrop : (cs.take n).rdropWhile hyphen <+: cs.take n := List.rdropWhile_prefix hyphen _
  have htake : cs.take n <+: cs := List.take_prefix n cs
  exact hdrop.trans htake

theorem SafeChars.cut {cs : List Char} (h : SafeChars cs) (n : Nat)
    : SafeChars ((cs.take n).rdropWhile hyphen) := by
  obtain ⟨rest, hrest⟩ := initial_cut cs n
  have hsingle := h.single
  rw [← hrest] at hsingle
  refine ⟨?_, ?_, ?_, List.IsChain.left_of_append hsingle⟩
  . intro c hc
    apply h.safe
    rw [← hrest]
    exact List.mem_append_left _ hc
  . intro c hc
    apply h.first
    obtain ⟨tail, htail⟩ := List.head?_eq_some_iff.mp hc
    rw [← hrest, htail]
    rfl
  . rw [List.rdropWhile, List.getLast?_reverse]
    exact head?_dropWhile_eq_false hyphen _

theorem truncate_of_le {n : Nat} {cs : List Char} (h : SafeChars cs) (hn : cs.length ≤ n)
    : truncate n (String.ofList cs) = some (String.ofList cs) := by
  have hsize := utf8ByteSize_of_ascii fun c hc => utf8Size_of_isSafe (h.safe c hc)
  unfold truncate
  rw [hsize, if_neg (Nat.not_lt.mpr hn)]

theorem truncate_of_lt {n : Nat} {cs : List Char} (h : SafeChars cs) (hn : n < cs.length)
    : truncate n (String.ofList cs) = some (String.ofList ((cs.take n).rdropWhile hyphen)) := by
  have hascii : ∀ c ∈ cs, c.utf8Size = 1 := fun c hc => utf8Size_of_isSafe (h.safe c hc)
  unfold truncate
  rw [utf8ByteSize_of_ascii hascii, if_pos hn, sliceBytes_of_ascii hascii hn.le, Option.map_some, trimEndMatches,
    String.toList_ofList]
  rfl

/--
The cut is never out of range.
-/
theorem exists_truncate (n : Nat) {cs : List Char} (h : SafeChars cs)
    : ∃ kept, truncate n (String.ofList cs) = some (String.ofList kept) ∧ SafeChars kept ∧ kept.length ≤ n
        ∧ (cs.length ≤ n → kept = cs) := by
  by_cases hle : cs.length ≤ n
  . exact ⟨cs, truncate_of_le h hle, h, hle, fun _ => rfl⟩
  . refine ⟨(cs.take n).rdropWhile hyphen, truncate_of_lt h (Nat.not_le.mp hle), h.cut n, ?_, fun h => absurd h hle⟩
    have hdrop : (cs.take n).rdropWhile hyphen <+: cs.take n := List.rdropWhile_prefix hyphen _
    exact hdrop.length_le.trans (List.length_take_le n cs)

theorem safeBase_export : SafeBase "export" where
  safe := List.all_eq_true.mp (by decide)
  first := by
    rintro _ ⟨⟩
    decide
  last := by
    rintro _ ⟨⟩
    decide
  single := by
    unfold Single
    decide
  nonempty := by decide

theorem collapse_of_single {cs : List Char} (h : Single cs) : collapse cs = cs := by
  have hflag : Collapse.start.prevHyphen = true → ∀ c ∈ cs.head?, hyphen c = false := by
    intro hflag
    cases hflag
  exact Collapse.foldl_of_single h hflag

-- a safe name passes as it is
theorem SafeBase.trimMatches {name : String} (h : SafeBase name)
    : trimMatches '-' (String.ofList (collapse (name.toList.map replaceChar))) = name := by
  have hreplace : name.toList.map replaceChar = name.toList := by
    conv_rhs => rw [← List.map_id name.toList]
    exact List.map_congr_left fun c hc => replaceChar_of_isSafe (h.safe c hc)
  have hends : ((name.toList.dropWhile hyphen).reverse.dropWhile hyphen).reverse = name.toList :=
    dropWhile_ends_eq_self_iff.mpr ⟨h.first, h.last⟩
  rw [hreplace, collapse_of_single h.single, Api.trimMatches, String.toList_ofList]
  exact (congrArg String.ofList hends).trans String.ofList_toList

/--
Whatever the name is, the file gets a safe one, and a safe name is kept.
-/
theorem sanitizeFilename_safe (name extension : String) (halphanumeric : ∀ c ∈ extension.toList, c.isAlphanum)
    (hlength : extension.length ≤ 90)
    : ∃ base, sanitizeFilename name extension = some (base ++ "." ++ extension) ∧ SafeBase base
        ∧ (base ++ "." ++ extension).length ≤ 100
        ∧ (SafeBase name → (name ++ "." ++ extension).length ≤ 100 → base = name) := by
  have hbytes : extension.utf8ByteSize = extension.length := by
    have hascii := utf8ByteSize_of_ascii fun c hc => utf8Size_of_isAlphanum (halphanumeric c hc)
    rw [String.ofList_toList] at hascii
    exact hascii.trans String.length_toList
  have hmax : maxBaseLen extension = some (99 - extension.length) := by
    unfold maxBaseLen
    rw [hbytes, if_pos (by omega)]
    congr 1
    omega
  have htotal : ∀ base : String,
      (base ++ "." ++ extension).length = base.toList.length + 1 + extension.length := by
    intro base
    rw [String.length_append, String.length_append, String.length_toList]
    rfl
  obtain ⟨kept, htruncate, hsafe, hkept, hsame⟩ :=
    exists_truncate (99 - extension.length) (safeChars_trimMatches name)
  rw [String.ofList_toList] at htruncate
  have hrun : sanitizeFilename name extension
      = some ((if String.ofList kept = "" then "export" else String.ofList kept) ++ "." ++ extension) := by
    unfold sanitizeFilename
    simp only [hmax, htruncate, Option.bind_eq_bind, Option.bind_some, Option.pure_def]
  refine ⟨_, hrun, ?_, ?_, ?_⟩
  . split
    . exact safeBase_export
    . next hne =>
      have hchars : SafeChars (String.ofList kept).toList := by
        rw [String.toList_ofList]
        exact hsafe
      exact ⟨hchars, hne⟩
  . rw [htotal]
    split
    . have hexport : "export".toList.length = 6 := by decide
      omega
    . rw [String.toList_ofList]
      omega
  . intro hname hshort
    rw [htotal] at hshort
    have hpassed := hname.trimMatches
    have hall : kept = name.toList := by
      rw [hpassed] at hsame
      exact hsame (by omega)
    rw [hall, String.ofList_toList, if_neg hname.nonempty]

/--
Every character of the name but the letters and digits is replaced.
-/
theorem sanitizeFilename_safe_upDown
    : ∃ base, sanitizeFilename "Up & down: é!" "gpx" = some (base ++ "." ++ "gpx") ∧ SafeBase base
        ∧ (base ++ "." ++ "gpx").length ≤ 100
        ∧ (SafeBase "Up & down: é!" → ("Up & down: é!" ++ "." ++ "gpx").length ≤ 100 → base = "Up & down: é!") :=
  sanitizeFilename_safe "Up & down: é!" "gpx" (List.all_eq_true.mp (by decide)) (by decide)

end Api
