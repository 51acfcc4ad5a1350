import Mathlib.Data.List.TakeWhile

/-!
This module contains the methods of `str` that the repository uses and Lean's `String` does not have.
-/

namespace Rust

/--
`char::is_whitespace`, the code points with the property `White_Space`.
-/
def isWhitespace (c : Char) : Bool :=
  (9 ≤ c.toNat ∧ c.toNat ≤ 13) ∨ c.toNat = 32 ∨ c.toNat = 133 ∨ c.toNat = 160 ∨ c.toNat = 5760
    ∨ (8192 ≤ c.toNat ∧ c.toNat ≤ 8202) ∨ c.toNat = 8232 ∨ c.toNat = 8233 ∨ c.toNat = 8239
    ∨ c.toNat = 8287 ∨ c.toNat = 12288

/--
What `str::trim` does with the characters.
-/
def trimChars (cs : List Char) : List Char :=
  (((cs.dropWhile isWhitespace).reverse).dropWhile isWhitespace).reverse

/--
`str::trim`
-/
def trim (s : String) : String := String.ofList (trimChars s.toList)

theorem dropWhile_eq_self {α : Type} {p : α → Bool} {as : List α} (h : ∀ a ∈ as, p a = false)
    : as.dropWhile p = as := by
  cases as with
  | nil => rfl
  | cons a as => exact List.dropWhile_cons_of_neg (by simp [h a List.mem_cons_self])

theorem dropWhile_eq_self_iff_head? {α : Type} {p : α → Bool} {as : List α}
    : as.dropWhile p = as ↔ ∀ a ∈ as.head?, p a = false := by
  cases as with
  | nil => simp
  | cons a as =>
    rw [List.dropWhile_eq_self_iff]
    simp

theorem trimChars_eq_self {cs : List Char} (h : ∀ c ∈ cs, isWhitespace c = false) : trimChars cs = cs := by
  have hreverse : ∀ c ∈ cs.reverse, isWhitespace c = false := fun c hc => h c (List.mem_reverse.mp hc)
  rw [trimChars, dropWhile_eq_self h, dropWhile_eq_self hreverse, List.reverse_reverse]

theorem dropWhile_eq_nil {α : Type} {p : α → Bool} {as : List α} (h : ∀ a ∈ as, p a = true)
    : as.dropWhile p = [] := by
  have hdrop : (as ++ []).dropWhile p = [] := List.dropWhile_append_of_pos h
  rw [List.append_nil] at hdrop
  exact hdrop

theorem trimChars_append_blank {ws zs : List Char} (mid : List Char) (hws : ∀ c ∈ ws, isWhitespace c = true)
    (hzs : ∀ c ∈ zs, isWhitespace c = true) : trimChars (ws ++ mid ++ zs) = trimChars mid := by
  have hreverse : ∀ c ∈ zs.reverse, isWhitespace c = true := fun c hc => hzs c (List.mem_reverse.mp hc)
  have hleft : (ws ++ mid ++ zs).dropWhile isWhitespace = (mid ++ zs).dropWhile isWhitespace := by
    rw [List.append_assoc, List.dropWhile_append_of_pos hws]
  unfold trimChars
  rw [hleft, List.dropWhile_append]
  split
  . next hempty =>
    rw [List.isEmpty_iff.mp hempty, dropWhile_eq_nil hzs]
  . rw [List.reverse_append, List.dropWhile_append_of_pos hreverse]

-- what is dropped at both ends, and what is left
theorem exists_dropWhile_ends {α : Type} (p : α → Bool) (as : List α)
    : ∃ ws zs, as = ws ++ (((as.dropWhile p).reverse).dropWhile p).reverse ++ zs ∧ (∀ a ∈ ws, p a = true)
        ∧ ∀ a ∈ zs, p a = true := by
  refine ⟨as.takeWhile p, (((as.dropWhile p).reverse).takeWhile p).reverse, ?_, ?_, ?_⟩
  . rw [List.append_assoc, ← List.reverse_append, List.takeWhile_append_dropWhile, List.reverse_reverse,
      List.takeWhile_append_dropWhile]
  . intro a ha
    exact List.mem_takeWhile_imp ha
  . intro a ha
    exact List.mem_takeWhile_imp (List.mem_reverse.mp ha)

/--
Nothing is dropped if there is nothing to drop at the ends.
-/
theorem dropWhile_ends_eq_self_iff {α : Type} {p : α → Bool} {as : List α}
    : (((as.dropWhile p).reverse).dropWhile p).reverse = as
        ↔ (∀ a ∈ as.head?, p a = false) ∧ ∀ a ∈ as.getLast?, p a = false := by
  rw [← List.head?_reverse, ← dropWhile_eq_self_iff_head?, ← dropWhile_eq_self_iff_head?]
  constructor
  . intro h
    have hlength : ((as.dropWhile p).reverse.dropWhile p).length = as.length := by
      have := congrArg List.length h
      rw [List.length_reverse] at this
      exact this
    have houter := ((as.dropWhile p).reverse.dropWhile_suffix p).length_le
    have hinner := (as.dropWhile_suffix p).length_le
    rw [List.length_reverse] at houter
    have hleft : as.dropWhile p = as := (as.dropWhile_suffix p).eq_of_length (by omega)
    rw [hleft] at hlength
    exact ⟨hleft, (as.reverse.dropWhile_suffix p).eq_of_length (hlength.trans List.length_reverse.symm)⟩
  . rintro ⟨hleft, hright⟩
    rw [hleft, hright, List.reverse_reverse]

theorem head?_dropWhile_eq_false {α : Type} (p : α → Bool) (as : List α)
    : ∀ a ∈ (as.dropWhile p).head?, p a = false := by
  intro a ha
  have hnot := as.head?_dropWhile_not p
  rw [Option.mem_def.mp ha] at hnot
  exact hnot

-- after that there is nothing more to drop
theorem ends_dropWhile {α : Type} (p : α → Bool) (as : List α)
    : (∀ a ∈ (((as.dropWhile p).reverse).dropWhile p).reverse.head?, p a = false)
        ∧ ∀ a ∈ (((as.dropWhile p).reverse).dropWhile p).reverse.getLast?, p a = false := by
  constructor
  . intro a ha
    -- what is left begins as what the first of the two has left
    obtain ⟨dropped, hdropped⟩ := (as.dropWhile p).reverse.dropWhile_suffix p
    apply head?_dropWhile_eq_false p as
    rw [← List.reverse_reverse (as.dropWhile p), ← hdropped, List.reverse_append]
    obtain ⟨rest, hrest⟩ := List.head?_eq_some_iff.mp (Option.mem_def.mp ha)
    rw [hrest]
    rfl
  . rw [List.getLast?_reverse]
    exact head?_dropWhile_eq_false p _

/--
A text is trimmed if there is no white space at its ends.
-/
theorem trimChars_eq_self_iff {cs : List Char}
    : trimChars cs = cs
        ↔ (∀ c ∈ cs.head?, isWhitespace c = false) ∧ ∀ c ∈ cs.getLast?, isWhitespace c = false :=
  dropWhile_ends_eq_self_iff

@[simp]
theorem trim_trim (s : String) : trim (trim s) = trim s := by
  have hends := trimChars_eq_self_iff.mpr (ends_dropWhile isWhitespace s.toList)
  rw [trim, trim, String.toList_ofList]
  exact congrArg String.ofList hends

theorem trim_eq_self_iff {s : String}
    : trim s = s
        ↔ (∀ c ∈ s.toList.head?, isWhitespace c = false) ∧ ∀ c ∈ s.toList.getLast?, isWhitespace c = false := by
  rw [← trimChars_eq_self_iff, trim]
  constructor
  . intro h
    have hlist := congrArg String.toList h
    rw [String.toList_ofList] at hlist
    exact hlist
  . intro h
    rw [h, String.ofList_toList]

theorem trim_eq_empty_iff {s : String} : trim s = "" ↔ ∀ c ∈ s.toList, isWhitespace c = true := by
  constructor
  . intro h
    obtain ⟨ws, zs, hs, hws, hzs⟩ := exists_dropWhile_ends isWhitespace s.toList
    have hempty : trimChars s.toList = [] := by
      have hlist := congrArg String.toList h
      rw [trim, String.toList_ofList] at hlist
      exact hlist
    have hs : s.toList = ws ++ trimChars s.toList ++ zs := hs
    rw [hempty, List.append_nil] at hs
    rw [hs]
    intro c hc
    cases List.mem_append.mp hc with
    | inl hc => exact hws c hc
    | inr hc => exact hzs c hc
  . intro h
    rw [trim, trimChars, dropWhile_eq_nil h]
    rfl

theorem utf8ByteSize_trim_le (s : String) : (trim s).utf8ByteSize ≤ s.utf8ByteSize := by
  obtain ⟨ws, zs, hs, _, _⟩ := exists_dropWhile_ends isWhitespace s.toList
  have hs : s.toList = ws ++ trimChars s.toList ++ zs := hs
  have hbytes : s.toByteArray = ws.utf8Encode ++ (trim s).toByteArray ++ zs.utf8Encode := by
    rw [← String.utf8Encode_toList, hs, List.utf8Encode_append, List.utf8Encode_append, trim,
      String.toByteArray_ofList]
  have hsize := congrArg ByteArray.size hbytes
  rw [ByteArray.size_append, ByteArray.size_append] at hsize
  suffices h : (trim s).toByteArray.size ≤ s.toByteArray.size from h
  omega

/--
`char::is_control`, the code points of the category `Cc`.
-/
def isControl (c : Char) : Bool := c.toNat < 32 ∨ (127 ≤ c.toNat ∧ c.toNat < 160)

-- no character takes less than a byte
theorem length_le_utf8ByteSize (cs : List Char) : cs.length ≤ (String.ofList cs).utf8ByteSize := by
  suffices h : cs.length ≤ cs.utf8Encode.size from h
  induction cs with
  | nil => exact Nat.zero_le _
  | cons c cs ih =>
    have hc := c.utf8Size_pos
    have hsize : [c].utf8Encode.size = c.utf8Size := by simp [List.utf8Encode_singleton]
    rw [List.utf8Encode_cons, ByteArray.size_append, hsize, List.length_cons]
    omega

/--
`&s[..n]`, which panics inside of a character and past the end.
-/
def sliceBytes (s : String) (n : Nat) : Option String :=
  if n ≤ s.utf8ByteSize then String.fromUTF8? (s.toUTF8.extract 0 n) else none

theorem utf8ByteSize_of_sliceBytes {s text : String} {n : Nat} (h : sliceBytes s n = some text)
    : text.utf8ByteSize = n := by
  unfold sliceBytes String.fromUTF8? at h
  split at h
  . next hn =>
    split at h
    . obtain rfl := Option.some.inj h
      have hsize : (s.toUTF8.extract 0 n).size = n := by
        rw [ByteArray.size_extract]
        have : s.toUTF8.size = s.utf8ByteSize := rfl
        omega
      exact hsize
    . cases h
  . cases h

theorem fromUTF8?_toUTF8 (text : String)
    : String.fromUTF8? ⟨text.toUTF8.data.toList.toArray⟩ = some text := by
  rw [Array.toArray_toList]
  exact dif_pos text.isValidUTF8

-- a cut in front of a character, or at the end
theorem sliceBytes_eq_some_iff {s text : String} {n : Nat}
    : sliceBytes s n = some text ↔ text.utf8ByteSize = n ∧ text.toList <+: s.toList := by
  constructor
  . intro h
    refine ⟨utf8ByteSize_of_sliceBytes h, ?_⟩
    unfold sliceBytes String.fromUTF8? at h
    split at h
    . next hn =>
      split at h
      . obtain rfl := Option.some.inj h
        apply List.isPrefix_of_utf8Encode_append_eq_utf8Encode (s.toUTF8.extract n s.toUTF8.size)
        rw [String.utf8Encode_toList, String.utf8Encode_toList]
        suffices hjoin : s.toUTF8.extract 0 n ++ s.toUTF8.extract n s.toUTF8.size = s.toUTF8 from hjoin
        have hsize : n ≤ s.toUTF8.size := hn
        rw [ByteArray.extract_append_extract, Nat.min_eq_left (Nat.zero_le n), Nat.max_eq_right hsize,
          ByteArray.extract_zero_size]
      . cases h
    . cases h
  . rintro ⟨rfl, rest, hs⟩
    have hutf8 : s.toUTF8 = text.toUTF8 ++ rest.utf8Encode := by
      have hs : s.toByteArray = text.toByteArray ++ rest.utf8Encode := by
        rw [← String.utf8Encode_toList, ← hs, List.utf8Encode_append, String.utf8Encode_toList]
      exact hs
    have hcut : s.toUTF8.extract 0 text.utf8ByteSize = text.toUTF8 := by
      rw [hutf8]
      exact ByteArray.extract_append_eq_left rfl
    have hle : text.utf8ByteSize ≤ s.utf8ByteSize := by
      have hsize := congrArg ByteArray.size hutf8
      rw [ByteArray.size_append] at hsize
      exact Nat.le.intro hsize.symm
    unfold sliceBytes
    rw [hcut, if_pos hle]
    exact dif_pos text.isValidUTF8

/-
Texts of characters that take one byte each.
-/

theorem utf8ByteSize_of_ascii {cs : List Char} (h : ∀ c ∈ cs, c.utf8Size = 1)
    : (String.ofList cs).utf8ByteSize = cs.length := by
  suffices hsize : cs.utf8Encode.size = cs.length from (congrArg ByteArray.size String.toByteArray_ofList).trans hsize
  induction cs with
  | nil => rfl
  | cons c cs ih =>
    have hc : [c].utf8Encode.size = c.utf8Size := by simp [List.utf8Encode_singleton]
    rw [List.utf8Encode_cons, ByteArray.size_append, hc, h c List.mem_cons_self,
      ih fun c hc => h c (List.mem_cons_of_mem _ hc), List.length_cons, Nat.add_comm]

theorem sliceBytes_of_ascii {cs : List Char} (h : ∀ c ∈ cs, c.utf8Size = 1) {n : Nat} (hn : n ≤ cs.length)
    : sliceBytes (String.ofList cs) n = some (String.ofList (cs.take n)) := by
  rw [sliceBytes_eq_some_iff, utf8ByteSize_of_ascii fun c hc => h c (List.mem_of_mem_take hc), List.length_take,
    Nat.min_eq_left hn, String.toList_ofList, String.toList_ofList]
  exact ⟨rfl, List.take_prefix n cs⟩

theorem utf8Size_of_isAlphanum {c : Char} (h : c.isAlphanum) : c.utf8Size = 1 := by
  have hread : (decide (c.val ≥ 65 ∧ c.val ≤ 90) || (decide (c.val ≥ 97) && decide (c.val ≤ 122))
      || (decide (c.val ≥ 48) && decide (c.val ≤ 57))) = true := h
  have hle : c.val ≤ 0x7F := by
    simp only [Bool.or_eq_true, Bool.and_eq_true, decide_eq_true_eq, ge_iff_le, UInt32.le_iff_toNat_le,
      UInt32.reduceToNat] at hread ⊢
    omega
  rw [Char.utf8Size]
  exact if_pos hle

theorem isValidUTF8_append_iff (cs : List Char) (b : ByteArray)
    : (cs.utf8Encode ++ b).IsValidUTF8 ↔ b.IsValidUTF8 := by
  induction cs with
  | nil => rw [List.utf8Encode_nil, ByteArray.empty_append]
  | cons c cs ih =>
    rw [List.utf8Encode_cons, ByteArray.append_assoc, ByteArray.isValidUTF8_utf8Encode_singleton_append_iff, ih]

/--
A cut inside of a character.
-/
theorem sliceBytes_inside {s : String} {n : Nat} (cs : List Char) (b rest : ByteArray)
    (hs : s.toUTF8 = cs.utf8Encode ++ b ++ rest) (hn : (cs.utf8Encode ++ b).size = n) (hb : ¬b.IsValidUTF8)
    : sliceBytes s n = none := by
  have hcut : s.toUTF8.extract 0 n = cs.utf8Encode ++ b := by
    rw [hs, ← hn, ByteArray.extract_append_eq_left rfl]
  unfold sliceBytes String.fromUTF8?
  rw [hcut]
  split
  . rw [dif_neg]
    rw [isValidUTF8_append_iff]
    exact hb
  . rfl

theorem size_utf8Encode_replicate (c : Char) (n : Nat) : (List.replicate n c).utf8Encode.size = n * c.utf8Size := by
  induction n with
  | zero => rw [Nat.zero_mul]; rfl
  | succ n ih =>
    have hc : [c].utf8Encode.size = c.utf8Size := by simp [List.utf8Encode_singleton]
    rw [List.replicate_succ, List.utf8Encode_cons, ByteArray.size_append, ih, hc, Nat.succ_mul, Nat.add_comm]

/--
The characters up to the first that is none of `p`, and the rest.
-/
theorem takeWhile_append_stop {α : Type} {p : α → Bool} {as : List α} (rest : List α) (has : ∀ a ∈ as, p a)
    (hrest : ∀ a ∈ rest.head?, p a = false)
    : (as ++ rest).takeWhile p = as ∧ (as ++ rest).dropWhile p = rest := by
  have hnone : rest.takeWhile p = [] ∧ rest.dropWhile p = rest := by
    cases rest with
    | nil => exact ⟨rfl, rfl⟩
    | cons a rest =>
      have ha := hrest a rfl
      exact ⟨List.takeWhile_cons_of_neg (by simp [ha]), List.dropWhile_cons_of_neg (by simp [ha])⟩
  rw [List.takeWhile_append_of_pos has, List.dropWhile_append_of_pos has, hnone.1, hnone.2]
  exact ⟨List.append_nil as, rfl⟩

end Rust
