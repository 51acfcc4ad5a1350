import Mathlib.Data.Bool.AllAny
import Mathlib.Data.List.DropRight
import Haiker.Exports.GpxGenerator
import Haiker.Rust.ParseF64
import Haiker.Xml.Escape

/-!
This module contains what the numbers in a GPX file are read as, and the tokens of the file.
-/

open Rust

namespace Exports

theorem length_lastDigits (n precision : Nat) : (lastDigits n precision).length = precision := by
  induction precision generalizing n with
  | zero => rfl
  | succ precision ih => rw [lastDigits, List.length_append, ih, List.length_singleton]

theorem isDigit_of_mem_lastDigits {n precision : Nat} {c : Char} (h : c ∈ lastDigits n precision)
    : c.isDigit := by
  induction precision generalizing n with
  | zero => cases h
  | succ precision ih =>
    rcases List.mem_append.mp h with h | h
    . exact ih h
    . rw [List.mem_singleton.mp h, Nat.isDigit_digitChar]
      exact decide_eq_true (Nat.mod_lt n (by decide))

theorem ofDigitChars_lastDigits (n precision : Nat) {whole : List Char}
    (h : Nat.ofDigitChars 10 whole 0 = n / 10 ^ precision)
    : Nat.ofDigitChars 10 (whole ++ lastDigits n precision) 0 = n := by
  induction precision generalizing n with
  | zero => simpa [lastDigits] using h
  | succ precision ih =>
    have hwhole : Nat.ofDigitChars 10 whole 0 = n / 10 / 10 ^ precision := by
      rw [h, Nat.div_div_eq_div_mul, Nat.pow_succ']
    rw [lastDigits, ← List.append_assoc, Nat.ofDigitChars_append, ih (n / 10) hwhole,
      Nat.ofDigitChars_cons_digitChar_of_lt_ten (Nat.mod_lt n (by decide)), Nat.ofDigitChars_nil]
    exact Nat.div_add_mod n 10

theorem trimEndMatches_append {c : Char} {cs : List Char} (k : Nat) (h : cs.getLast? ≠ some c)
    : trimEndMatches c (String.ofList (cs ++ List.replicate k c)) = String.ofList cs := by
  have hdrop : cs.reverse.dropWhile (· = c) = cs.reverse := by
    rw [← List.head?_reverse] at h
    cases hcs : cs.reverse with
    | nil => rfl
    | cons last rest =>
      rw [hcs] at h
      apply List.dropWhile_cons_of_neg
      simpa using h
  rw [trimEndMatches, String.toList_ofList, List.reverse_append, List.reverse_replicate,
    List.dropWhile_append_of_pos (by simp), hdrop, List.reverse_reverse]

-- what is left of the digits after the point
theorem exists_trimmed (fs : List Char)
    : ∃ fs' k, fs = fs' ++ List.replicate k '0' ∧ fs'.getLast? ≠ some '0' := by
  refine ⟨fs.rdropWhile (· = '0'), (fs.rtakeWhile (· = '0')).length, ?_, ?_⟩
  . have hzeros : fs.rtakeWhile (· = '0') = List.replicate (fs.rtakeWhile (· = '0')).length '0' := by
      apply List.eq_replicate_of_mem
      intro c hc
      simpa using List.mem_rtakeWhile_imp hc
    rw [← hzeros, List.rdropWhile_append_rtakeWhile]
  . intro h
    obtain ⟨hne, hlast⟩ := List.mem_getLast?_eq_getLast h
    exact List.rdropWhile_last_not _ _ hne (by simp [← hlast])

theorem getLast?_ne_of_digits (cs : List Char) {ds : List Char} {c : Char} (hds : ∀ d ∈ ds, d.isDigit) (hne : ds ≠ [])
    (hc : c.isDigit = false) : (cs ++ ds).getLast? ≠ some c := by
  rw [List.getLast?_append_of_ne_nil _ hne]
  intro h
  rw [hds c (List.mem_of_getLast? h)] at hc
  cases hc

theorem displayFixed_eq (q : ℚ) (precision : Nat)
    : (F64.fin q).displayFixed precision = String.ofList ((if q < 0 then ['-'] else [])
        ++ Nat.toDigits 10 (roundTiesEven (q.num.natAbs * 10 ^ precision) q.den / 10 ^ precision)
        ++ '.' :: lastDigits (roundTiesEven (q.num.natAbs * 10 ^ precision) q.den) precision) := by
  apply String.toList_inj.mp
  simp only [F64.displayFixed, Nat.toString_eq_ofList_toDigits, String.toList_append,
    String.toList_ofList]
  split
  . simp
  . simp

theorem formatCoordinate_eq (q : ℚ)
    : ∃ ds fs k, formatCoordinate (.fin q) = String.ofList ((if q < 0 then ['-'] else []) ++ ds
          ++ if fs.isEmpty then [] else '.' :: fs)
        ∧ (∀ c ∈ ds, c.isDigit) ∧ ds ≠ [] ∧ (∀ c ∈ fs, c.isDigit) ∧ fs.length + k = 7
        ∧ Nat.ofDigitChars 10 (ds ++ fs) 0 * 10 ^ k = roundTiesEven (q.num.natAbs * 10 ^ 7) q.den := by
  rw [formatCoordinate, displayFixed_eq]
  generalize roundTiesEven (q.num.natAbs * 10 ^ 7) q.den = n
  generalize (if q < 0 then ['-'] else []) = sign
  have hds : ∀ c ∈ Nat.toDigits 10 (n / 10 ^ 7), c.isDigit := by
    intro c hc
    exact Nat.isDigit_of_mem_toDigits (by decide) (by decide) hc
  have hlength := length_lastDigits n 7
  have hdigits : ∀ c ∈ lastDigits n 7, c.isDigit := fun c hc => isDigit_of_mem_lastDigits hc
  have hvalue := ofDigitChars_lastDigits n 7 (Nat.ofDigitChars_ten_toDigits (n := n / 10 ^ 7))
  have hne : Nat.toDigits 10 (n / 10 ^ 7) ≠ [] := Nat.toDigits_ne_nil
  generalize Nat.toDigits 10 (n / 10 ^ 7) = ds at *
  obtain ⟨fs, k, hfs, hlast⟩ := exists_trimmed (lastDigits n 7)
  rw [hfs] at hlength hdigits hvalue ⊢
  have hfsDigits : ∀ c ∈ fs, c.isDigit := fun c hc => hdigits c (List.mem_append_left _ hc)
  refine ⟨ds, fs, k, ?_, hds, hne, hfsDigits, ?_, ?_⟩
  . have hzeros : trimEndMatches '0'
        (String.ofList (sign ++ ds ++ '.' :: (fs ++ List.replicate k '0')))
        = String.ofList (sign ++ ds ++ '.' :: fs) := by
      rw [← List.cons_append, ← List.append_assoc]
      apply trimEndMatches_append
      rw [List.append_cons]
      cases fs with
      | nil => simp
      | cons f fs =>
        rw [List.getLast?_append_of_ne_nil _ (List.cons_ne_nil f fs)]
        exact hlast
    rw [hzeros]
    cases fs with
    | nil =>
      have hpoint := trimEndMatches_append (c := '.') 1 (getLast?_ne_of_digits sign hds hne (by decide))
      simpa using hpoint
    | cons f fs =>
      have hpoint := trimEndMatches_append (c := '.') 0
        (getLast?_ne_of_digits (sign ++ ds ++ ['.']) hfsDigits (by simp) (by decide))
      simpa using hpoint
  . rw [List.length_append, List.length_replicate] at hlength
    exact hlength
  . rw [← List.append_assoc, Nat.ofDigitChars_append, Nat.ofDigitChars_replicate_zero] at hvalue
    rw [Nat.mul_comm, hvalue]

theorem parse_formatCoordinate (q : ℚ)
    : F64.parse (formatCoordinate (.fin q)) = some ((F64.fin q).roundedTo 7) := by
  obtain ⟨ds, fs, k, hformat, hds, hne, hfs, hlength, hvalue⟩ := formatCoordinate_eq q
  have hnumber : F64.parseNumber (ds ++ if fs.isEmpty then [] else '.' :: fs)
      = some ((Nat.ofDigitChars 10 (ds ++ fs) 0 : ℚ) / 10 ^ fs.length) := by
    cases fs with
    | nil => simpa using F64.parseNumber_whole hds hne
    | cons f fs => exact F64.parseNumber_fraction hds hne hfs
  have hhead : ∀ c ∈ (ds ++ if fs.isEmpty then [] else '.' :: fs).head?, c.isDigit := by
    obtain ⟨d, ds, rfl⟩ := List.exists_cons_of_ne_nil hne
    simpa using hds d List.mem_cons_self
  have hparse := F64.parse_signed (decide (q < 0)) hhead hnumber
  simp only [decide_eq_true_eq] at hparse
  have hmagnitude : (Nat.ofDigitChars 10 (ds ++ fs) 0 : ℚ) / 10 ^ fs.length
      = roundTiesEven (q.num.natAbs * 10 ^ 7) q.den / 10 ^ 7 := by
    rw [← hvalue, ← hlength, Nat.cast_mul, Nat.cast_pow, Nat.cast_ofNat, pow_add]
    exact (mul_div_mul_right _ _ (by positivity)).symm
  rw [hformat, List.append_assoc, hparse, hmagnitude, F64.roundedTo]

/-
What a coordinate is written with.
-/

def isNumeral (c : Char) : Prop := c.isDigit ∨ c = '-' ∨ c = '.'

theorem numeral_of_mem_formatCoordinate (q : ℚ)
    : formatCoordinate (.fin q) ≠ "" ∧ ∀ c ∈ (formatCoordinate (.fin q)).toList, isNumeral c := by
  obtain ⟨ds, fs, _, hformat, hds, hne, hfs, _⟩ := formatCoordinate_eq q
  rw [hformat]
  constructor
  . intro hempty
    have hlist := congrArg String.toList hempty
    simp [hne] at hlist
  . intro c hc
    simp only [String.toList_ofList, List.mem_append] at hc
    rcases hc with (hsign | hc) | hc
    . split at hsign
      . exact .inr (.inl (List.mem_singleton.mp hsign))
      . cases hsign
    . exact .inl (hds c hc)
    . split at hc
      . cases hc
      . rcases List.mem_cons.mp hc with rfl | hc
        . exact .inr (.inr rfl)
        . exact .inl (hfs c hc)

theorem isNumeral.ne {c d : Char} (h : isNumeral c) (hd : ¬isNumeral d) : c ≠ d := by
  rintro rfl
  exact hd h

instance (c : Char) : Decidable (isNumeral c) := inferInstanceAs (Decidable (_ ∨ _))

theorem isNumeral.not_blank {c : Char} (h : isNumeral c)
    : Xml.isWhitespace c = false ∧ isWhitespace c = false := by
  have hrange : 45 ≤ c.toNat ∧ c.toNat ≤ 57 := by
    rcases h with hdigit | rfl | rfl
    . have hbounds : 48 ≤ c.toNat ∧ c.toNat ≤ 57 := Char.isDigit_iff_toNat.mp hdigit
      omega
    . decide
    . decide
  constructor
  . have hblank : ¬(c = ' ' ∨ c = '\t' ∨ c = '\r' ∨ c = '\n') := by
      rintro (rfl | rfl | rfl | rfl)
      . exact absurd hrange (by decide)
      . exact absurd hrange (by decide)
      . exact absurd hrange (by decide)
      . exact absurd hrange (by decide)
    exact decide_eq_false hblank
  . apply decide_eq_false
    omega

section Numeral

variable {s : String} (h : ∀ c ∈ s.toList, isNumeral c)

include h

theorem escape_numeral : Xml.escape s = s := by
  apply Xml.escape_eq_self
  intro c hc
  have hne := fun d (hd : ¬isNumeral d) => (h c hc).ne hd
  exact ⟨hne '<' (by decide), hne '>' (by decide), hne '&' (by decide), hne '\'' (by decide),
    hne '"' (by decide)⟩

theorem trim_numeral : trim s = s := by
  rw [trim, trimChars_eq_self fun c hc => (h c hc).not_blank.2, String.ofList_toList]

theorem textEvent_numeral (hne : s ≠ "") : Xml.textEvent s.toList = [.text s] := by
  have hchars : s.toList ≠ [] := fun hempty => hne (String.toList_eq_nil_iff.mp hempty)
  rw [Xml.textEvent, Xml.trimChars_eq_self fun c hc => (h c hc).not_blank.1, if_neg hchars,
    String.ofList_toList]

end Numeral

/-
The tokens.
-/

def pointTag (point : GpxPoint) : Xml.Tag where
  localName := "trkpt"
  attributes := [("lat", formatCoordinate point.latitude), ("lon", formatCoordinate point.longitude)]

def elevationTokens : Option F64 → List Xml.Token
  | none => []
  | some ele => [.open_ ⟨"ele", []⟩, .text (formatCoordinate ele), .close "ele"]

def pointTokens (point : GpxPoint) : List Xml.Token :=
  .open_ (pointTag point) :: (elevationTokens point.elevation ++ [.close "trkpt", .text "\n"])

def segmentTokens (segment : List GpxPoint) : List Xml.Token :=
  if segment.isEmpty then
    []
  else
    .open_ ⟨"trkseg", []⟩ :: .text "\n" :: (segment.flatMap pointTokens ++ [.close "trkseg", .text "\n"])

def nameTokens : Option String → List Xml.Token
  | none => []
  | some name =>
    .open_ ⟨"name", []⟩ :: ((if name = "" then [] else [.text (Xml.escape name)])
      ++ [.close "name", .text "\n"])

def gpxTag : Xml.Tag where
  localName := "gpx"
  attributes := [("xmlns", "http://www.topografix.com/GPX/1/1"), ("version", "1.1"), ("creator", "Haiker")]

def headTokens : List Xml.Token :=
  [.instruction "xml version=\"1.0\" encoding=\"UTF-8\"", .text "\n", .open_ gpxTag, .text "\n",
    .open_ ⟨"trk", []⟩, .text "\n"]

def footTokens : List Xml.Token := [.close "trk", .text "\n", .close "gpx", .text "\n"]

def gpxTokens (input : GpxGeneratorInput) : List Xml.Token :=
  headTokens ++ (nameTokens input.activityName ++ (input.segments.flatMap segmentTokens ++ footTokens))

theorem append_congr {a a' b b' : String} (ha : a = a') (hb : b = b') : a ++ b = a' ++ b' := by
  rw [ha, hb]

theorem print_elevationTokens (elevation : Option F64)
    : Xml.print (elevationTokens elevation) = writeElevation elevation := by
  cases elevation with
  | none => rfl
  | some ele =>
    have hclose : Xml.print [.close "ele"] = "</ele>" := by decide
    have hopen : (Xml.Token.open_ ⟨"ele", []⟩).print = "<ele>" := by decide
    calc Xml.print (elevationTokens (some ele))
        = (Xml.Token.open_ ⟨"ele", []⟩).print ++ (formatCoordinate ele ++ Xml.print [.close "ele"]) := by
          exact (Xml.print_cons _ _).trans (append_congr rfl (Xml.print_cons _ _))
      _ = "<ele>" ++ (formatCoordinate ele ++ "</ele>") := append_congr hopen (append_congr rfl hclose)
      _ = writeElevation (some ele) := String.append_assoc.symm

theorem print_pointTokens (point : GpxPoint) : Xml.print (pointTokens point) = writePoint point := by
  have hopen : (Xml.Token.open_ (pointTag point)).print = "<trkpt lat=\"" ++ formatCoordinate point.latitude
      ++ "\" lon=\"" ++ formatCoordinate point.longitude ++ "\">" := by
    apply String.toList_inj.mp
    simp [Xml.Token.print, pointTag, Xml.printAttribute]
  have hclose : Xml.print [.close "trkpt", .text "\n"] = "</trkpt>\n" := by decide
  calc Xml.print (pointTokens point)
      = (Xml.Token.open_ (pointTag point)).print ++ (Xml.print (elevationTokens point.elevation)
          ++ Xml.print [.close "trkpt", .text "\n"]) :=
        (Xml.print_cons _ _).trans (append_congr rfl (Xml.print_append _ _))
    _ = "<trkpt lat=\"" ++ formatCoordinate point.latitude ++ "\" lon=\""
          ++ formatCoordinate point.longitude ++ "\">" ++ (writeElevation point.elevation ++ "</trkpt>\n") :=
        append_congr hopen (append_congr (print_elevationTokens point.elevation) hclose)
    _ = writePoint point := String.append_assoc.symm

theorem print_segmentTokens (segment : List GpxPoint)
    : Xml.print (segmentTokens segment) = writeSegment segment := by
  have hopen : Xml.print [.open_ ⟨"trkseg", []⟩, .text "\n"] = "<trkseg>\n" := by decide
  have hclose : Xml.print [.close "trkseg", .text "\n"] = "</trkseg>\n" := by decide
  have hpoints : Xml.print (segment.flatMap pointTokens) = String.join (segment.map writePoint) := by
    rw [Xml.print_flatMap]
    simp only [print_pointTokens]
  unfold segmentTokens writeSegment
  split
  . rfl
  . have hparts : ∀ opening points closing : List Xml.Token, Xml.print (opening ++ (points ++ closing))
        = Xml.print opening ++ (Xml.print points ++ Xml.print closing) := by
      intro opening points closing
      rw [Xml.print_append, Xml.print_append]
    refine (hparts [.open_ ⟨"trkseg", []⟩, .text "\n"] _ _).trans ?_
    refine (append_congr hopen (append_congr hpoints hclose)).trans ?_
    exact String.append_assoc.symm

theorem print_nameTokens (name : Option String)
    : Xml.print (nameTokens name) = writeName Xml.escape name := by
  cases name with
  | none => rfl
  | some name =>
    have hopen : (Xml.Token.open_ ⟨"name", []⟩).print = "<name>" := by decide
    have hclose : Xml.print [.close "name", .text "\n"] = "</name>\n" := by decide
    have htext : Xml.print (if name = "" then [] else [.text (Xml.escape name)]) = Xml.escape name := by
      split
      . next hempty =>
        rw [hempty]
        rfl
      . exact (Xml.print_cons _ _).trans String.append_empty
    calc Xml.print (nameTokens (some name))
        = (Xml.Token.open_ ⟨"name", []⟩).print
            ++ (Xml.print (if name = "" then [] else [.text (Xml.escape name)])
              ++ Xml.print [.close "name", .text "\n"]) :=
          (Xml.print_cons _ _).trans (append_congr rfl (Xml.print_append _ _))
      _ = "<name>" ++ (Xml.escape name ++ "</name>\n") := append_congr hopen (append_congr htext hclose)
      _ = writeName Xml.escape (some name) := String.append_assoc.symm

theorem generateGpx_eq (input : GpxGeneratorInput)
    : generateGpx Xml.escape input = Xml.print (gpxTokens input) := by
  have hhead : Xml.print headTokens = "<?xml version=\"1.0\" encoding=\"UTF-8\"?>\n"
      ++ "<gpx xmlns=\"http://www.topografix.com/GPX/1/1\" version=\"1.1\" creator=\"Haiker\">\n"
      ++ "<trk>\n" := by decide
  have hfoot : Xml.print footTokens = "</trk>\n" ++ "</gpx>\n" := by decide
  have hsegments : Xml.print (input.segments.flatMap segmentTokens)
      = String.join (input.segments.map writeSegment) := by
    rw [Xml.print_flatMap]
    simp only [print_segmentTokens]
  have hassoc : ∀ a b c d e f g : String,
      a ++ b ++ c ++ (d ++ (e ++ (f ++ g))) = a ++ b ++ c ++ d ++ e ++ f ++ g := by
    intro a b c d e f g
    simp only [String.append_assoc]
  have hparts : Xml.print (gpxTokens input) = Xml.print headTokens
      ++ (Xml.print (nameTokens input.activityName)
        ++ (Xml.print (input.segments.flatMap segmentTokens) ++ Xml.print footTokens)) :=
    (Xml.print_append _ _).trans (append_congr rfl ((Xml.print_append _ _).trans
      (append_congr rfl (Xml.print_append _ _))))
  rw [hparts, hhead, print_nameTokens, hsegments, hfoot, hassoc]
  rfl

/-
The tokens are well formed.
-/

structure InRange (point : GpxPoint) : Prop where
  latitude : point.latitude.inRange (-90) 90
  longitude : point.longitude.inRange (-180) 180
  elevation : ∀ ele ∈ point.elevation, ele.isFinite

theorem isPlain_of_numeral {s : String} (h : ∀ c ∈ s.toList, isNumeral c)
    : Xml.isPlain s ∧ '&' ∉ s.toList :=
  ⟨fun c hc => ⟨(h c hc).ne (by decide), (h c hc).ne (by decide), (h c hc).ne (by decide)⟩,
    fun hc => (h '&' hc).ne (by decide) rfl⟩

theorem wellFormed_pointTag {point : GpxPoint} (h : InRange point) : (pointTag point).WellFormed := by
  obtain ⟨lat, hlat, _⟩ := F64.inRange_iff.mp h.latitude
  obtain ⟨lon, hlon, _⟩ := F64.inRange_iff.mp h.longitude
  have hnames : Xml.isName "trkpt" ∧ Xml.isName "lat" ∧ Xml.isName "lon" := by decide
  constructor
  . exact hnames.1
  . intro pair hpair
    simp only [pointTag, List.mem_cons, List.not_mem_nil, or_false] at hpair
    rcases hpair with rfl | rfl
    . exact hnames.2.1
    . exact hnames.2.2
  . intro pair hpair
    simp only [pointTag, List.mem_cons, List.not_mem_nil, or_false, hlat, hlon] at hpair
    rcases hpair with rfl | rfl
    . exact isPlain_of_numeral (numeral_of_mem_formatCoordinate lat).2
    . exact isPlain_of_numeral (numeral_of_mem_formatCoordinate lon).2
  . have hkeys : (pointTag point).attributes.map Prod.fst = ["lat", "lon"] := rfl
    rw [hkeys]
    decide

theorem wellFormed_bare {name : String} (h : Xml.isName name) : Xml.Tag.WellFormed ⟨name, []⟩ where
  name := h
  keys := by simp
  values := by simp
  nodup := List.nodup_nil

-- the line break after a tag
theorem wellFormed_break {elements : List String} {rest : List Xml.Token}
    (h : Xml.WellFormedFrom elements true rest)
    : Xml.WellFormedFrom elements false (.text "\n" :: rest) :=
  ⟨rfl, by decide, List.all_iff_forall_prop.mp (by decide), fun _ => by decide, h⟩

theorem wellFormed_elevationTokens {elevation : Option F64} (hele : ∀ ele ∈ elevation, ele.isFinite)
    {elements : List String} {rest : List Xml.Token} (h : Xml.WellFormedFrom elements false rest)
    : Xml.WellFormedFrom elements false (elevationTokens elevation ++ rest) := by
  have hname : Xml.isName "ele" := by decide
  cases elevation with
  | none => exact h
  | some ele =>
    cases ele with
    | fin q =>
      obtain ⟨hne, hnumeral⟩ := numeral_of_mem_formatCoordinate q
      refine ⟨wellFormed_bare hname, rfl, hne, ?_, ?_, hname, rfl, h⟩
      . exact fun c hc => ⟨(hnumeral c hc).ne (by decide), (hnumeral c hc).ne (by decide)⟩
      . intro hempty
        cases hempty
    | nan | negInf | posInf => cases hele _ rfl

theorem wellFormed_pointTokens {point : GpxPoint} (hpoint : InRange point) {elements : List String}
    {rest : List Xml.Token} (h : Xml.WellFormedFrom elements true rest)
    : Xml.WellFormedFrom elements true (pointTokens point ++ rest) := by
  have hname : Xml.isName "trkpt" := by decide
  rw [pointTokens, List.cons_append, List.append_assoc]
  refine ⟨wellFormed_pointTag hpoint, wellFormed_elevationTokens hpoint.elevation ?_⟩
  exact ⟨hname, rfl, wellFormed_break h⟩

-- items that end with a line break, one after the other
theorem wellFormed_flatMap {α : Type} {items : List α} {f : α → List Xml.Token} {elements : List String}
    {rest : List Xml.Token}
    (hitems : ∀ item ∈ items, ∀ rest, Xml.WellFormedFrom elements true rest →
      Xml.WellFormedFrom elements true (f item ++ rest))
    (h : Xml.WellFormedFrom elements true rest)
    : Xml.WellFormedFrom elements true (items.flatMap f ++ rest) := by
  induction items with
  | nil => exact h
  | cons item items ih =>
    rw [List.flatMap_cons, List.append_assoc]
    apply hitems item List.mem_cons_self
    exact ih fun item hitem => hitems item (List.mem_cons_of_mem _ hitem)

theorem wellFormed_segmentTokens {segment : List GpxPoint} (hsegment : ∀ point ∈ segment, InRange point)
    {elements : List String} {rest : List Xml.Token} (h : Xml.WellFormedFrom elements true rest)
    : Xml.WellFormedFrom elements true (segmentTokens segment ++ rest) := by
  have hname : Xml.isName "trkseg" := by decide
  unfold segmentTokens
  split
  . exact h
  . rw [List.cons_append, List.cons_append, List.append_assoc]
    refine ⟨wellFormed_bare hname, wellFormed_break (wellFormed_flatMap ?_ ?_)⟩
    . exact fun point hpoint rest h => wellFormed_pointTokens (hsegment point hpoint) h
    . exact ⟨hname, rfl, wellFormed_break h⟩

theorem wellFormed_nameTokens (name : Option String) {elements : List String} {rest : List Xml.Token}
    (h : Xml.WellFormedFrom elements true rest)
    : Xml.WellFormedFrom elements true (nameTokens name ++ rest) := by
  have hname : Xml.isName "name" := by decide
  cases name with
  | none => exact h
  | some name =>
    rw [nameTokens, List.cons_append, List.append_assoc]
    refine ⟨wellFormed_bare hname, ?_⟩
    split
    . exact ⟨hname, rfl, wellFormed_break h⟩
    . next hne =>
      refine ⟨rfl, ?_, ?_, ?_, hname, rfl, wellFormed_break h⟩
      . intro hempty
        have hchars := congrArg String.toList hempty
        rw [Xml.escape, String.toList_ofList] at hchars
        exact hne (String.toList_eq_nil_iff.mp (Xml.escape_eq_nil.mp hchars))
      . intro c hc
        rw [Xml.escape, String.toList_ofList] at hc
        exact Xml.ne_of_mem_escape hc
      . intro hempty
        cases hempty

theorem wellFormed_gpxTokens {input : GpxGeneratorInput}
    (hinput : ∀ segment ∈ input.segments, ∀ point ∈ segment, InRange point)
    : Xml.WellFormed (gpxTokens input) := by
  have hgpx : Xml.isName "gpx" := by decide
  have htrk : Xml.isName "trk" := by decide
  have htag : gpxTag.WellFormed := by
    constructor
    . exact hgpx
    . decide
    . decide
    . decide
  have hfoot : Xml.WellFormedFrom ["trk", "gpx"] true footTokens :=
    ⟨htrk, rfl, wellFormed_break ⟨hgpx, rfl, wellFormed_break rfl⟩⟩
  have hsegments : Xml.WellFormedFrom ["trk", "gpx"] true
      (input.segments.flatMap segmentTokens ++ footTokens) :=
    wellFormed_flatMap (fun segment hsegment _ h => wellFormed_segmentTokens (hinput segment hsegment) h)
      hfoot
  refine ⟨List.all_iff_forall_prop.mp (by decide), wellFormed_break ⟨htag, wellFormed_break ⟨wellFormed_bare htrk, ?_⟩⟩⟩
  exact wellFormed_break (wellFormed_nameTokens input.activityName hsegments)

end Exports
