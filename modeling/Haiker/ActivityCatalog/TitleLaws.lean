import Haiker.ActivityCatalog.Activity

/-!
This module contains what `ActivityTitle::new` makes of a string. The limit is in bytes, so a long title may
be cut inside of a character, and behind white space.
-/

open Rust

namespace ActivityCatalog

namespace ActivityTitle

structure ValidTitle (value : String) (title : ActivityTitle) : Prop where
  trimmed : trim title.text = title.text
  nonempty : 1 ≤ title.text.toList.length
  length_le : title.text.toList.length ≤ MAX_TITLE_LENGTH
  initial : title.text.toList <+: (trim value).toList
  fixed : new title.text = .ok title

/--
What a constructor of titles is expected to do.
-/
structure TitleLaw (value : String) : Prop where
  noPanic : new value ≠ .error .panic
  error_iff : (∃ e, new value = .error (.err e)) ↔ ∀ c ∈ value.toList, isWhitespace c = true
  valid : ∀ title, new value = .ok title → ValidTitle value title

/--
The trimmed string is not cut, or not inside of a character.
-/
def Cuts (value : String) : Prop :=
  (trim value).utf8ByteSize ≤ MAX_TITLE_LENGTH
    ∨ ∃ kept rest, (trim value).toList = kept ++ rest ∧ (String.ofList kept).utf8ByteSize = MAX_TITLE_LENGTH

/--
The trimmed string is not cut, or behind a character that is no white space.
-/
def CutsWell (value : String) : Prop :=
  (trim value).utf8ByteSize ≤ MAX_TITLE_LENGTH
    ∨ ∃ kept c rest, (trim value).toList = kept ++ c :: rest
      ∧ (String.ofList (kept ++ [c])).utf8ByteSize = MAX_TITLE_LENGTH ∧ isWhitespace c = false

variable {value trimmed : String} {title : ActivityTitle}

theorem ext_text {title' : ActivityTitle} (h : title.text = title'.text) : title = title' := by
  cases title
  cases title'
  cases h
  rfl

theorem truncate_of_le (h : trimmed.utf8ByteSize ≤ MAX_TITLE_LENGTH) : truncate trimmed = .ok ⟨trimmed, h⟩ :=
  dif_pos h

theorem truncate_of_cut (h : MAX_TITLE_LENGTH < trimmed.utf8ByteSize)
    (hsize : title.text.utf8ByteSize = MAX_TITLE_LENGTH) (hinitial : title.text.toList <+: trimmed.toList)
    : truncate trimmed = .ok title := by
  have hslice : sliceBytes trimmed MAX_TITLE_LENGTH = some title.text :=
    sliceBytes_eq_some_iff.mpr ⟨hsize, hinitial⟩
  unfold truncate
  rw [dif_neg (Nat.not_le.mpr h)]
  split
  . next text htext =>
    rw [hslice] at htext
    exact congrArg Except.ok (ext_text (Option.some.inj htext).symm)
  . next hnone =>
    rw [hslice] at hnone
    cases hnone

/--
The string is kept, or cut, or the cut is inside of a character.
-/
theorem truncate_cases (trimmed : String)
    : (∃ h : trimmed.utf8ByteSize ≤ MAX_TITLE_LENGTH, truncate trimmed = .ok ⟨trimmed, h⟩)
        ∨ (MAX_TITLE_LENGTH < trimmed.utf8ByteSize ∧ ∃ title, truncate trimmed = .ok title
          ∧ title.text.utf8ByteSize = MAX_TITLE_LENGTH ∧ title.text.toList <+: trimmed.toList)
        ∨ (MAX_TITLE_LENGTH < trimmed.utf8ByteSize ∧ truncate trimmed = .error .panic
          ∧ ∀ kept rest, trimmed.toList = kept ++ rest → (String.ofList kept).utf8ByteSize ≠ MAX_TITLE_LENGTH) := by
  by_cases h : trimmed.utf8ByteSize ≤ MAX_TITLE_LENGTH
  . exact .inl ⟨h, truncate_of_le h⟩
  . have hlt := Nat.not_le.mp h
    cases hslice : sliceBytes trimmed MAX_TITLE_LENGTH with
    | some text =>
      obtain ⟨hsize, hinitial⟩ := sliceBytes_eq_some_iff.mp hslice
      exact .inr (.inl ⟨hlt, ⟨text, hsize.le⟩, truncate_of_cut hlt hsize hinitial, hsize, hinitial⟩)
    | none =>
      refine .inr (.inr ⟨hlt, ?_, ?_⟩)
      . unfold truncate
        rw [dif_neg h]
        split
        . next hsome =>
          rw [hslice] at hsome
          cases hsome
        . rfl
      . intro kept rest hkept hsize
        have hinitial : (String.ofList kept).toList <+: trimmed.toList := by
          rw [String.toList_ofList, hkept]
          exact List.prefix_append kept rest
        rw [sliceBytes_eq_some_iff.mpr ⟨hsize, hinitial⟩] at hslice
        cases hslice

theorem new_of_empty (h : trim value = "")
    : new value = .error (.err (.invalidTitle "title must not be empty")) := if_pos h

theorem new_of_nonempty (h : trim value ≠ "") : new value = truncate (trim value) := if_neg h

theorem cuts_of_empty (h : trim value = "") : Cuts value := by
  rw [Cuts, h]
  exact .inl (by decide)

/--
There is only a panic if the cut is inside of a character.
-/
theorem new_ne_panic_iff : new value ≠ .error .panic ↔ Cuts value := by
  by_cases hempty : trim value = ""
  . rw [new_of_empty hempty]
    exact iff_of_true (by simp) (cuts_of_empty hempty)
  rw [new_of_nonempty hempty]
  obtain ⟨hle, hnew⟩ | ⟨_, title, hnew, hsize, rest, hinitial⟩ | ⟨hlt, hnew, hinside⟩ :=
    truncate_cases (trim value)
  . rw [hnew]
    exact iff_of_true (by simp) (.inl hle)
  . rw [hnew]
    refine iff_of_true (by simp) (.inr ⟨title.text.toList, rest, hinitial.symm, ?_⟩)
    rw [String.ofList_toList, hsize]
  . rw [hnew]
    refine iff_of_false (fun h => h rfl) ?_
    rintro (hle | ⟨kept, rest, hkept, hsize⟩)
    . exact absurd hle (Nat.not_le.mpr hlt)
    . exact hinside kept rest hkept hsize

theorem CutsWell.cuts (h : CutsWell value) : Cuts value := by
  rcases h with hle | ⟨kept, c, rest, htrim, hsize, _⟩
  . exact .inl hle
  . refine .inr ⟨kept ++ [c], rest, ?_, hsize⟩
    rw [htrim, List.append_assoc, List.singleton_append]

theorem exists_err_iff : (∃ e, new value = .error (.err e)) ↔ trim value = "" := by
  by_cases hempty : trim value = ""
  . exact iff_of_true ⟨_, new_of_empty hempty⟩ hempty
  rw [new_of_nonempty hempty]
  refine iff_of_false ?_ hempty
  rintro ⟨e, he⟩
  obtain ⟨_, hnew⟩ | ⟨_, title, hnew, _, _⟩ | ⟨_, hnew, _⟩ := truncate_cases (trim value)
  . rw [hnew] at he
    cases he
  . rw [hnew] at he
    cases he
  . rw [hnew] at he
    cases he

-- a beginning of the trimmed string that is trimmed itself
theorem validTitle_of_trimmed (htrim : trim title.text = title.text) (hnonempty : title.text ≠ "")
    (hinitial : title.text.toList <+: (trim value).toList) : ValidTitle value title := by
  constructor
  . exact htrim
  . rw [Nat.succ_le_iff, List.length_pos_iff]
    intro hnil
    apply hnonempty
    rw [← String.ofList_toList (s := title.text), hnil]
  . have hlength := length_le_utf8ByteSize title.text.toList
    rw [String.ofList_toList] at hlength
    exact hlength.trans title.bounded
  . exact hinitial
  . have hnonempty : trim title.text ≠ "" := by
      rw [htrim]
      exact hnonempty
    rw [new_of_nonempty hnonempty, htrim, truncate_of_le title.bounded]

/--
A cut behind a character that is no white space leaves a trimmed title.
-/
theorem trim_of_cut {kept rest : List Char} {c : Char} (htrim : (trim value).toList = kept ++ c :: rest)
    (hc : isWhitespace c = false) : trim (String.ofList (kept ++ [c])) = String.ofList (kept ++ [c]) := by
  have hends := (trim_eq_self_iff.mp (trim_trim value)).1
  rw [htrim] at hends
  rw [trim_eq_self_iff, String.toList_ofList]
  constructor
  . cases kept with
    | nil => exact hends
    | cons first kept => exact hends
  . rw [List.getLast?_concat]
    simpa using hc

theorem CutsWell.titleLaw (h : CutsWell value) : TitleLaw value := by
  constructor
  . exact new_ne_panic_iff.mpr h.cuts
  . rw [exists_err_iff, trim_eq_empty_iff]
  . intro title htitle
    have hempty : trim value ≠ "" := by
      intro hempty
      rw [new_of_empty hempty] at htitle
      cases htitle
    rw [new_of_nonempty hempty] at htitle
    obtain ⟨hle, hnew⟩ | ⟨hlt, cut, hnew, hsize, hinitial⟩ | ⟨_, hnew, _⟩ := truncate_cases (trim value)
    . rw [hnew] at htitle
      obtain rfl := Except.ok.inj htitle
      exact validTitle_of_trimmed (trim_trim value) hempty (List.prefix_refl _)
    . rw [hnew] at htitle
      obtain rfl := Except.ok.inj htitle
      rcases h with hle | ⟨kept, c, rest, htrim, hkept, hc⟩
      . exact absurd hle (Nat.not_le.mpr hlt)
      -- there is one place only to cut at
      have hbeginning : (String.ofList (kept ++ [c])).toList <+: (trim value).toList := by
        rw [String.toList_ofList, htrim]
        exact ⟨rest, by rw [List.append_assoc, List.singleton_append]⟩
      have htext : cut.text = String.ofList (kept ++ [c]) := by
        have hcut := sliceBytes_eq_some_iff.mpr ⟨hsize, hinitial⟩
        rw [sliceBytes_eq_some_iff.mpr ⟨hkept, hbeginning⟩] at hcut
        exact (Option.some.inj hcut).symm
      have htrimmed : trim cut.text = cut.text := by
        rw [htext]
        exact trim_of_cut htrim hc
      have hnonempty : cut.text ≠ "" := by
        intro hcut
        rw [hcut] at hsize
        exact absurd hsize (by decide)
      exact validTitle_of_trimmed htrimmed hnonempty hinitial
    . rw [hnew] at htitle
      cases htitle

theorem TitleLaw.cutsWell (h : TitleLaw value) : CutsWell value := by
  by_cases hempty : trim value = ""
  . rw [CutsWell, hempty]
    exact .inl (by decide)
  obtain ⟨hle, _⟩ | ⟨_, title, hnew, hsize, rest, hinitial⟩ | ⟨_, hnew, _⟩ := truncate_cases (trim value)
  . exact .inl hle
  . have hvalid := h.valid title (by rw [new_of_nonempty hempty, hnew])
    have hlast := (trim_eq_self_iff.mp hvalid.trimmed).2
    rcases List.eq_nil_or_concat title.text.toList with hnil | ⟨kept, c, hkept⟩
    . have hlength := hvalid.nonempty
      rw [hnil] at hlength
      exact absurd hlength (by decide)
    . rw [List.concat_eq_append] at hkept
      rw [hkept, List.getLast?_concat] at hlast
      refine .inr ⟨kept, c, rest, ?_, ?_, hlast c rfl⟩
      . rw [← hinitial, hkept, List.append_assoc, List.singleton_append]
      . rw [← hkept, String.ofList_toList, hsize]
  . exact absurd (by rw [new_of_nonempty hempty, hnew]) h.noPanic

/--
The title is as it is to be if it fits, or is cut behind a character that is no white space.
-/
theorem titleLaw_iff : TitleLaw value ↔ CutsWell value := ⟨TitleLaw.cutsWell, CutsWell.titleLaw⟩

theorem not_cuts_longTitle : ¬Cuts longTitle := by
  rw [Cuts, trim_longTitle, utf8ByteSize_longTitle]
  rintro (hle | ⟨kept, rest, hkept, hsize⟩)
  . exact absurd hle (by decide)
  . have hinitial : (String.ofList kept).toList <+: longTitle.toList := by
      rw [String.toList_ofList, hkept]
      exact List.prefix_append kept rest
    have hslice := sliceBytes_eq_some_iff.mpr ⟨hsize, hinitial⟩
    rw [sliceBytes_longTitle] at hslice
    cases hslice

-- the space is the last of 500 bytes if there are 499 letters in front of it
def spacedTitle (letters : Nat) : String := String.ofList (List.replicate letters 'a' ++ [' ', 'b'])

theorem utf8ByteSize_letters (letters : Nat) (rest : List Char)
    : (String.ofList (List.replicate letters 'a' ++ rest)).utf8ByteSize = letters + rest.utf8Encode.size := by
  have hletter : 'a'.utf8Size = 1 := by decide
  rw [String.utf8ByteSize, String.toByteArray_ofList, List.utf8Encode_append, ByteArray.size_append,
    size_utf8Encode_replicate, hletter, Nat.mul_one]

theorem trim_spacedTitle (letters : Nat) : trim (spacedTitle (letters + 1)) = spacedTitle (letters + 1) := by
  rw [trim_eq_self_iff, spacedTitle, String.toList_ofList]
  constructor
  . intro c hc
    obtain rfl : 'a' = c := Option.some.inj hc
    decide
  . intro c hc
    rw [List.getLast?_append_of_ne_nil _ (List.cons_ne_nil _ _)] at hc
    obtain rfl : 'b' = c := Option.some.inj hc
    decide

theorem not_cutsWell_spacedTitle {letters : Nat} (hletters : letters + 2 = MAX_TITLE_LENGTH)
    : ¬CutsWell (spacedTitle (letters + 1)) := by
  have hspace : [' '].utf8Encode.size = 1 := by decide
  have hend : [' ', 'b'].utf8Encode.size = 2 := by decide
  have hcut : sliceBytes (spacedTitle (letters + 1)) MAX_TITLE_LENGTH
      = some (String.ofList (List.replicate (letters + 1) 'a' ++ [' '])) := by
    rw [sliceBytes_eq_some_iff, spacedTitle, String.toList_ofList, String.toList_ofList, utf8ByteSize_letters, hspace]
    exact ⟨hletters, ['b'], List.append_assoc ..⟩
  rw [CutsWell, trim_spacedTitle]
  rintro (hle | ⟨kept, c, rest, hkept, hsize, hc⟩)
  . rw [spacedTitle, utf8ByteSize_letters, hend] at hle
    omega
  . have hslice : sliceBytes (spacedTitle (letters + 1)) MAX_TITLE_LENGTH = some (String.ofList (kept ++ [c])) := by
      rw [sliceBytes_eq_some_iff, hkept, String.toList_ofList]
      exact ⟨hsize, rest, by rw [List.append_assoc, List.singleton_append]⟩
    have hlist := congrArg String.toList (Option.some.inj (hcut.symm.trans hslice))
    rw [String.toList_ofList, String.toList_ofList] at hlist
    obtain rfl : ' ' = c := List.append_singleton_inj.mp hlist |>.2
    exact absurd hc (by decide)

/-
Titles that are read.
-/

theorem cuts_text (title : ActivityTitle) : Cuts title.text :=
  .inl ((utf8ByteSize_trim_le title.text).trans title.bounded)

end ActivityTitle

end ActivityCatalog
