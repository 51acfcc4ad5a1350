import Haiker.Imports.Limits

/-!
This module contains what the sanitizing of a text of a GPX file does. White space is removed first, so what
is removed or cut afterwards may leave white space at the ends.
-/

open Rust

namespace Imports

namespace GpxParser

structure Clean (s : String) : Prop extends Sanitized s where
  trimmed : trim s = s

/--
What sanitizing a text is expected to do.
-/
structure MetadataLaw (s : String) : Prop where
  clean : Clean (sanitizeMetadata s)
  idempotent : sanitizeMetadata (sanitizeMetadata s) = sanitizeMetadata s
  identity : Clean s → sanitizeMetadata s = s

-- the characters that are not removed
def visible (cs : List Char) : List Char := cs.filter (!isControl ·)

/--
A white space of the trimmed text is the first or the last of the characters that are kept.
-/
def Exposes (s : String) : Prop :=
  ∃ before c after, (trim s).toList = before ++ c :: after ∧ isControl c = false ∧ isWhitespace c = true
    ∧ (visible before = [] ∨ (visible before).length + 1 = MAX_METADATA_LEN
      ∨ (visible before).length + 1 < MAX_METADATA_LEN ∧ visible after = [])

-- what is not longer than the limit in bytes is not longer in characters
theorem sanitizeMetadata_eq (s : String)
    : sanitizeMetadata s = String.ofList ((visible (trim s).toList).take MAX_METADATA_LEN) := by
  unfold sanitizeMetadata
  simp only
  split
  . rw [String.toList_ofList]
    rfl
  . next hsize =>
    have hlength := (length_le_utf8ByteSize (visible (trim s).toList)).trans (Nat.not_lt.mp hsize)
    rw [List.take_of_length_le hlength]
    rfl

theorem visible_of_clean {cs : List Char} (h : ∀ c ∈ cs, isControl c = false) : visible cs = cs := by
  rw [visible, List.filter_eq_self]
  intro c hc
  rw [h c hc]
  rfl

theorem Clean.identity {s : String} (h : Clean s) : sanitizeMetadata s = s := by
  rw [sanitizeMetadata_eq, h.trimmed, visible_of_clean h.noControl, List.take_of_length_le h.length_le,
    String.ofList_toList]

/-
The ends of what is kept.
-/

theorem take_eq_concat_iff {α : Type} {as before : List α} {n : Nat} {a : α}
    : as.take n = before ++ [a]
        ↔ ∃ after, as = before ++ a :: after
          ∧ (before.length + 1 = n ∨ before.length + 1 < n ∧ after = []) := by
  constructor
  . intro h
    have hsplit : as = before ++ a :: as.drop n := by
      conv_lhs => rw [← List.take_append_drop n as, h, List.append_assoc, List.singleton_append]
    have hlength := congrArg List.length h
    rw [List.length_take, List.length_append, List.length_singleton] at hlength
    refine ⟨as.drop n, hsplit, ?_⟩
    by_cases hn : n ≤ as.length
    . left
      omega
    . right
      exact ⟨by omega, List.drop_eq_nil_of_le (by omega)⟩
  . rintro ⟨after, rfl, hn | ⟨hn, rfl⟩⟩
    . rw [← List.singleton_append, ← List.append_assoc]
      exact List.take_left' (by rw [List.length_append, List.length_singleton, hn])
    . apply List.take_of_length_le
      rw [List.length_append, List.length_singleton]
      exact hn.le

theorem visible_eq_append_cons_iff {cs xs ys : List Char} {c : Char}
    : visible cs = xs ++ c :: ys
        ↔ ∃ before after, cs = before ++ c :: after ∧ isControl c = false ∧ visible before = xs
          ∧ visible after = ys := by
  constructor
  . intro h
    obtain ⟨left, right, rfl, hleft, hright⟩ := List.filter_eq_append_iff.mp h
    obtain ⟨removed, after, rfl, hremoved, hc, hafter⟩ := List.filter_eq_cons_iff.mp hright
    refine ⟨left ++ removed, after, List.append_assoc .. |>.symm, by simpa using hc, ?_, hafter⟩
    rw [visible, List.filter_append, hleft, List.filter_eq_nil_iff.mpr hremoved, List.append_nil]
  . rintro ⟨before, after, rfl, hc, rfl, rfl⟩
    rw [visible, List.filter_append, List.filter_cons_of_pos (by simp [hc])]
    rfl

theorem exposes_iff {s : String}
    : Exposes s
        ↔ ∃ c, isWhitespace c = true
          ∧ (c ∈ ((visible (trim s).toList).take MAX_METADATA_LEN).head?
            ∨ c ∈ ((visible (trim s).toList).take MAX_METADATA_LEN).getLast?) := by
  constructor
  . rintro ⟨before, c, after, hs, hc, hblank, hends⟩
    have hvisible : visible (trim s).toList = visible before ++ c :: visible after :=
      visible_eq_append_cons_iff.mpr ⟨before, after, hs, hc, rfl, rfl⟩
    refine ⟨c, hblank, ?_⟩
    rw [hvisible]
    rcases hends with hfirst | hlast
    . left
      rw [hfirst]
      rfl
    . right
      rw [take_eq_concat_iff.mpr ⟨visible after, rfl, hlast⟩, List.getLast?_concat]
      rfl
  . rintro ⟨c, hblank, hfirst | hlast⟩
    . obtain ⟨rest, hrest⟩ := List.head?_eq_some_iff.mp hfirst
      have hvisible : visible (trim s).toList
          = [] ++ c :: (rest ++ (visible (trim s).toList).drop MAX_METADATA_LEN) := by
        conv_lhs => rw [← List.take_append_drop MAX_METADATA_LEN (visible (trim s).toList), hrest]
        rfl
      obtain ⟨before, after, hs, hc, hbefore, _⟩ := visible_eq_append_cons_iff.mp hvisible
      exact ⟨before, c, after, hs, hc, hblank, .inl hbefore⟩
    . obtain ⟨kept, hkept⟩ := List.getLast?_eq_some_iff.mp hlast
      obtain ⟨rest, hvisible, hends⟩ := take_eq_concat_iff.mp hkept
      obtain ⟨before, after, hs, hc, rfl, rfl⟩ := visible_eq_append_cons_iff.mp hvisible
      exact ⟨before, c, after, hs, hc, hblank, .inr hends⟩

theorem trim_sanitizeMetadata_iff {s : String} : trim (sanitizeMetadata s) = sanitizeMetadata s ↔ ¬Exposes s := by
  rw [trim_eq_self_iff, sanitizeMetadata_eq, String.toList_ofList, exposes_iff]
  constructor
  . rintro ⟨hfirst, hlast⟩ ⟨c, hblank, hc | hc⟩
    . rw [hfirst c hc] at hblank
      cases hblank
    . rw [hlast c hc] at hblank
      cases hblank
  . intro h
    constructor
    . intro c hc
      rw [Bool.eq_false_iff]
      exact fun hblank => h ⟨c, hblank, .inl hc⟩
    . intro c hc
      rw [Bool.eq_false_iff]
      exact fun hblank => h ⟨c, hblank, .inr hc⟩

/--
A text is sanitized for good if no white space is exposed at its ends.
-/
theorem metadataLaw_iff (s : String) : MetadataLaw s ↔ ¬Exposes s := by
  rw [← trim_sanitizeMetadata_iff]
  constructor
  . intro h
    exact h.clean.trimmed
  . intro htrim
    have hclean : Clean (sanitizeMetadata s) := ⟨sanitized_sanitizeMetadata s, htrim⟩
    exact ⟨hclean, hclean.identity, Clean.identity⟩

/--
Behind a control character there is white space to expose.
-/
theorem metadataLaw_fails
    : sanitizeMetadata "\x01 a" = " a" ∧ sanitizeMetadata " a" = "a" ∧ ¬MetadataLaw "\x01 a" := by
  have hexposed : sanitizeMetadata "\x01 a" = " a" := by decide
  have hagain : sanitizeMetadata " a" = "a" := by decide
  refine ⟨hexposed, hagain, ?_⟩
  intro h
  have hidempotent := h.idempotent
  rw [hexposed, hagain] at hidempotent
  exact absurd hidempotent (by decide)

end GpxParser

end Imports
