import Haiker.Exports.Lifecycle
import Haiker.Imports.StoredTitles
import Haiker.RouteVersioning.GeometryFormat
import Haiker.Rust.RoundedTo

/-!
This module contains what comes of an activity that is exported and imported again, and of doing so over and
over.
-/

open Rust
open ActivityCatalog (ActivityTitle)
open Imports
open Imports.GpxParser
open RecordedActivity (Coordinate MAX_PREVIEW_POINTS NormalizationExternals NormalizedFrom coordinateOf distances
  kept longEnough normalizeGpx recordedCoordinates segmentsOf simplifyPreview)
open RouteVersioning (GeometryPoint RouteVersionRow)

namespace Exports

-- what is read for a coordinate
def rounded (c : Coordinate) : Coordinate where
  latitude := c.latitude.roundedTo 7
  longitude := c.longitude.roundedTo 7

-- the title of an activity whose file has this name
def importedTitle (name : Option String) : String := (parsedName name).getD "Imported Activity"

section Definitions

variable {codec : Xml.Codec} {normalization normalization' : NormalizationExternals}
  (gpx : GpxImport codec normalization)

/--
What the worker may read as the title of an activity: nothing, what the import has stored, or what the activity
has been renamed to.
-/
inductive Titled : Option String → Prop where
  | unread : Titled none
  | imported : Titled (some gpx.title)
  | renamed (title : ActivityTitle) : Titled (some title.text)

/--
The import is committed, and its version is exported under the title.
-/
def ExportedAs (crates : Crates) (title : Option String) (file : Bytes) : Prop :=
  ∃ (db db' : Imports.Database) (activityId : ActivityCatalog.ActivityId) (row : RouteVersionRow)
      (geometries : Uuid → Option Json),
    (PgImportCommitter.commit gpx.externals.commit gpx.data).run db = .ok activityId db'
      ∧ db.routeVersions.find? row.id = none ∧ db'.routeVersions.find? row.id = some row
      ∧ geometries row.id = some row.geometryJson ∧ File crates geometries row.id [title] file

def Reimported (crates : Crates) (gpx' : GpxImport codec normalization') : Prop :=
  ∃ title, Titled gpx title ∧ ExportedAs gpx crates title gpx'.fileBytes

end Definitions

/--
What is kept of an activity in a file: the points, in one segment.
-/
structure Kept (distance : Coordinate → Coordinate → F64) (coords : List Coordinate) (title : Option String)
    (normalized : NormalizedTrack) : Prop where
  segments : recordedCoordinates normalized.recordedTrack.segments = [coords.map rounded]
  previewGeometry : normalized.previewGeometry = coords.map rounded
  pointCount : normalized.recordedTrack.statistics.pointCount = coords.length
  distanceMeters : normalized.recordedTrack.statistics.distanceMeters
    = (distances distance (coords.map rounded)).foldl F64.add (.fin 0)
  elevations : normalized.recordedTrack.statistics.elevationGainMeters = none
    ∧ normalized.recordedTrack.statistics.elevationLossMeters = none
  times : normalized.startedAt = none ∧ normalized.endedAt = none
    ∧ normalized.recordedTrack.statistics.durationSeconds = none
  suggestedTitle : normalized.suggestedTitle = parsedName title

-- each of the two numbers is off by less than a unit of the seventh decimal place
def Near (c c' : Coordinate) : Prop :=
  ∃ latitude latitude' longitude longitude' : ℚ, c = ⟨.fin latitude, .fin longitude⟩
    ∧ c' = ⟨.fin latitude', .fin longitude'⟩ ∧ |latitude' - latitude| < 1 / 10 ^ 7
    ∧ |longitude' - longitude| < 1 / 10 ^ 7

/-
The coordinates.
-/

theorem ten_pow_seven_le : (10 : ℚ) ^ 7 ≤ 2 ^ (1022 : Int) := by
  calc
    (10 : ℚ) ^ 7 ≤ 2 ^ (24 : Int) := by norm_num
    _ ≤ 2 ^ (1022 : Int) := zpow_le_zpow_right₀ (by norm_num) (by norm_num)

theorem roundedTo_of_inRange {x : F64} (bound : Nat) (hbound : bound * 10 ^ 7 < 2 ^ 52)
    (h : x.inRange (-bound) bound)
    : (x.roundedTo 7).roundedTo 7 = x.roundedTo 7
        ∧ ∃ q r : ℚ, x = .fin q ∧ x.roundedTo 7 = .fin r ∧ |r - q| < 1 / 10 ^ 7 := by
  have hrange := inRange_roundedTo bound (by omega) h
  obtain ⟨q, rfl, hlow, hhigh⟩ := F64.inRange_iff.mp h
  obtain ⟨r, hround, _⟩ := F64.inRange_iff.mp hrange
  have hq : |q| ≤ bound := abs_le.mpr ⟨hlow, hhigh⟩
  refine ⟨F64.roundedTo_roundedTo ten_pow_seven_le hbound hq, q, r, rfl, hround, ?_⟩
  exact F64.abs_roundedTo_sub_lt ten_pow_seven_le hbound hq hround

variable {c : Coordinate}

theorem rounded_inRange (h : c.InRange) : (rounded c).InRange :=
  ⟨inRange_roundedTo 90 (by decide) h.1, inRange_roundedTo 180 (by decide) h.2⟩

theorem rounded_rounded (h : c.InRange) : rounded (rounded c) = rounded c := by
  have hlatitude := (roundedTo_of_inRange 90 (by decide) h.1).1
  have hlongitude := (roundedTo_of_inRange 180 (by decide) h.2).1
  unfold rounded
  rw [hlatitude, hlongitude]

theorem near_rounded (h : c.InRange) : Near c (rounded c) := by
  obtain ⟨_, latitude, latitude', hlatitude, hlatitude', hnorth⟩ := roundedTo_of_inRange 90 (by decide) h.1
  obtain ⟨_, longitude, longitude', hlongitude, hlongitude', heast⟩ := roundedTo_of_inRange 180 (by decide) h.2
  refine ⟨latitude, latitude', longitude, longitude', ?_, ?_, hnorth, heast⟩
  . rw [← hlatitude, ← hlongitude]
  . rw [← hlatitude', ← hlongitude']
    rfl

theorem map_rounded_rounded {coords : List Coordinate} (h : ∀ c ∈ coords, c.InRange)
    : (coords.map rounded).map rounded = coords.map rounded := by
  rw [List.map_map]
  exact List.map_congr_left fun c hc => rounded_rounded (h c hc)

/-
The title.
-/

theorem sanitizeMetadata_importedActivity : sanitizeMetadata "Imported Activity" = "Imported Activity" := by decide

theorem sanitized_importedTitle (name : Option String) : Sanitized (importedTitle name) := by
  have hdefault := sanitized_sanitizeMetadata "Imported Activity"
  rw [sanitizeMetadata_importedActivity] at hdefault
  unfold importedTitle parsedName
  cases name with
  | none => exact hdefault
  | some name =>
    simp only
    split
    . exact hdefault
    . rw [Option.getD_some]
      exact sanitized_sanitizeMetadata name

theorem importedTitle_empty : importedTitle (some "") = "Imported Activity" := by decide

theorem importedTitle_importedActivity : importedTitle (some "Imported Activity") = "Imported Activity" := by decide

theorem length_trim_le (s : String) : (trim s).toList.length ≤ s.toList.length := by
  rw [trim, String.toList_ofList, trimChars, List.length_reverse]
  calc
    ((s.toList.dropWhile isWhitespace).reverse.dropWhile isWhitespace).length
        ≤ (s.toList.dropWhile isWhitespace).reverse.length := List.length_dropWhile_le ..
    _ ≤ s.toList.length := by
      rw [List.length_reverse]
      exact List.length_dropWhile_le ..

theorem mem_of_mem_trim {s : String} {c : Char} (h : c ∈ (trim s).toList) : c ∈ s.toList := by
  rw [trim, String.toList_ofList, trimChars, List.mem_reverse] at h
  have hreverse := List.dropWhile_subset _ h
  exact List.dropWhile_subset _ (List.mem_reverse.mp hreverse)

theorem clean_trim {s : String} (h : Sanitized s) : Clean (trim s) where
  length_le := (length_trim_le s).trans h.length_le
  noControl c hc := h.noControl c (mem_of_mem_trim hc)
  trimmed := trim_trim s

-- what is left is removed only in front of and behind the rest
theorem sanitizeMetadata_of_sanitized {s : String} (h : Sanitized s) : sanitizeMetadata s = trim s := by
  rw [← (clean_trim h).identity]
  apply sanitizeMetadata_congr
  exact (trim_trim s).symm

theorem importedTitle_of_clean {s : String} (h : Clean s) (hne : s ≠ "") : importedTitle (some s) = s := by
  have hvisible : Xml.trimChars s.toList ≠ [] := by
    intro hnil
    have htrim := trimChars_xml s.toList
    rw [hnil] at htrim
    apply hne
    rw [← h.trimmed, trim, ← htrim]
    rfl
  rw [importedTitle, parsedName, if_neg hvisible, Option.getD_some, h.identity]

/--
A title that does not get lost is the same from the second import on.
-/
theorem importedTitle_importedTitle {title : String} (h : Sanitized title) (hne : importedTitle (some title) ≠ "")
    : importedTitle (some (importedTitle (some title))) = importedTitle (some title) := by
  by_cases hblank : Xml.trimChars title.toList = []
  . have hdefault : importedTitle (some title) = "Imported Activity" := by
      rw [importedTitle, parsedName, if_pos hblank]
      rfl
    rw [hdefault, importedTitle_importedActivity]
  . have htrim : importedTitle (some title) = trim title := by
      rw [importedTitle, parsedName, if_neg hblank, Option.getD_some, sanitizeMetadata_of_sanitized h]
    rw [htrim] at hne ⊢
    exact importedTitle_of_clean (clean_trim h) hne

/-
The size of the file.
-/

theorem utf8ByteSize_le (s : String) : s.utf8ByteSize ≤ 4 * s.toList.length := by
  suffices h : s.toList.utf8Encode.size ≤ 4 * s.toList.length by
    conv_lhs => rw [← String.ofList_toList (s := s)]
    exact h
  induction s.toList with
  | nil => exact Nat.zero_le _
  | cons c cs ih =>
    have hc := c.utf8Size_le_four
    have hsize : [c].utf8Encode.size = c.utf8Size := by simp [List.utf8Encode_singleton]
    rw [List.utf8Encode_cons, ByteArray.size_append, hsize, List.length_cons]
    omega

theorem length_escape_le (s : String) : (Xml.escape s).length ≤ 6 * s.length := by
  have hchar : ∀ c ∈ s.toList, (Xml.escapeChar c).length ≤ 6 := by
    intro c _
    unfold Xml.escapeChar
    split
    all_goals simp
  rw [Xml.escape, String.length_ofList, List.length_flatMap, ← String.length_toList, Nat.mul_comm]
  have hsum := List.sum_le_card_nsmul (s.toList.map fun c => (Xml.escapeChar c).length) 6 (by simpa using hchar)
  rw [List.length_map] at hsum
  exact hsum

theorem length_trimEndMatches_le (c : Char) (s : String) : (trimEndMatches c s).length ≤ s.length := by
  rw [trimEndMatches, String.length_ofList, List.length_reverse, ← String.length_toList]
  apply (List.length_dropWhile_le ..).trans
  rw [List.length_reverse]

-- the sign, three digits, the point and seven more
theorem length_formatCoordinate_le {x : F64} (h : x.inRange (-180) 180) : (formatCoordinate x).length ≤ 12 := by
  obtain ⟨q, rfl, hlow, hhigh⟩ := F64.inRange_iff.mp h
  have hdecimals : F64.decimals 7 q ≤ (180 : Nat) * 10 ^ 7 := F64.decimals_le (abs_le.mpr ⟨hlow, hhigh⟩)
  have hwhole : (Nat.toDigits 10 (F64.decimals 7 q / 10 ^ 7)).length ≤ 3 := by
    rw [Nat.length_toDigits_le_iff (by decide) (by decide)]
    omega
  have hsign : (if q < 0 then ['-'] else []).length ≤ 1 := by
    split <;> decide
  have htrim := (length_trimEndMatches_le '.' _).trans (length_trimEndMatches_le '0' ((F64.fin q).displayFixed 7))
  apply htrim.trans
  rw [displayFixed_eq, String.length_ofList, List.length_append, List.length_append, List.length_cons,
    length_lastDigits]
  unfold F64.decimals at hwhole
  omega

theorem length_writePoint_le {point : GpxPoint} (hlatitude : point.latitude.inRange (-90) 90)
    (hlongitude : point.longitude.inRange (-180) 180) (helevation : point.elevation = none)
    : (writePoint point).length ≤ 54 := by
  have hwide : point.latitude.inRange (-180) 180 := by
    obtain ⟨q, hq, hlow, hhigh⟩ := F64.inRange_iff.mp hlatitude
    exact F64.inRange_iff.mpr ⟨q, hq, by linarith, by linarith⟩
  have hlat := length_formatCoordinate_le hwide
  have hlon := length_formatCoordinate_le hlongitude
  have hopen : "<trkpt lat=\"".length = 12 ∧ "\" lon=\"".length = 7 ∧ "\">".length = 2 := by decide
  have hclose : "</trkpt>\n".length = 9 ∧ (writeElevation none).length = 0 := by decide
  rw [writePoint, helevation]
  simp only [String.length_append, hopen, hclose]
  omega

theorem length_joined (head gpx trk name segments trkEnd gpxEnd : String)
    : (head ++ gpx ++ trk ++ name ++ segments ++ trkEnd ++ gpxEnd).length
        = head.length + gpx.length + trk.length + name.length + segments.length + trkEnd.length
          + gpxEnd.length := by
  simp only [String.length_append]

theorem length_generateGpx_le {title : Option String} {points : List GpxPoint}
    (htitle : ∀ name ∈ title, name.length ≤ 1000) (hpoints : ∀ point ∈ points, (writePoint point).length ≤ 54)
    : (generateGpx Xml.escape { activityName := title, segments := [points] }).length
        ≤ 6200 + 54 * points.length := by
  have hname : (writeName Xml.escape title).length ≤ 6014 := by
    cases title with
    | none => decide
    | some name =>
      have hescape := length_escape_le name
      have hle := htitle name rfl
      have htags : "<name>".length = 6 ∧ "</name>\n".length = 8 := by decide
      simp only [writeName, String.length_append, htags]
      omega
  have hjoined : (String.join (points.map writePoint)).length ≤ 54 * points.length := by
    rw [String.length_join, List.map_map, Nat.mul_comm]
    have hsum := List.sum_le_card_nsmul (points.map (String.length ∘ writePoint)) 54 (by simpa using hpoints)
    rw [List.length_map] at hsum
    exact hsum
  have hsegments : (String.join ([points].map writeSegment)).length ≤ 20 + 54 * points.length := by
    have hopen : "<trkseg>\n".length = 9 ∧ "</trkseg>\n".length = 10 := by decide
    rw [List.map_singleton, String.length_join, List.map_singleton, List.sum_singleton, writeSegment]
    split
    . exact Nat.zero_le _
    . simp only [String.length_append, hopen]
      omega
  have hhead : "<?xml version=\"1.0\" encoding=\"UTF-8\"?>\n".length = 39 := by decide
  have hgpx : "<gpx xmlns=\"http://www.topografix.com/GPX/1/1\" version=\"1.1\" creator=\"Haiker\">\n".length
      = 79 := by decide +kernel
  have htags : "<trk>\n".length = 6 ∧ "</trk>\n".length = 7 ∧ "</gpx>\n".length = 7 := by decide
  refine (length_joined _ _ _ _ _ _ _).trans_le ?_
  rw [hhead, hgpx, htags.1, htags.2.1, htags.2.2]
  generalize (writeName Xml.escape title).length = n at hname ⊢
  generalize (String.join ([points].map writeSegment)).length = m at hsegments ⊢
  omega

/-
The version of an import.
-/

section Import

variable {codec : Xml.Codec} {normalization normalization' : NormalizationExternals}
  {gpx : GpxImport codec normalization} {crates : Crates} {title : Option String} {file : Bytes}

theorem two_le_simplifyPreview {coords : List Coordinate} (h : 2 ≤ coords.length)
    : 2 ≤ (simplifyPreview coords MAX_PREVIEW_POINTS).length := by
  unfold simplifyPreview
  split
  . exact h
  . have hsome : ∀ i ∈ List.range MAX_PREVIEW_POINTS,
        (coords[min (((F64.ofInt i).mul ((F64.ofInt (coords.length - 1)).div
          (F64.ofInt (MAX_PREVIEW_POINTS - 1)))).roundToUsize) (coords.length - 1)]?).isSome := by
      intro i _
      rw [isSome_getElem?]
      omega
    have hlength : ((List.range MAX_PREVIEW_POINTS).filterMap fun (i : Nat) =>
        coords[min (((F64.ofInt i).mul ((F64.ofInt (coords.length - 1)).div
          (F64.ofInt (MAX_PREVIEW_POINTS - 1)))).roundToUsize) (coords.length - 1)]?).length
        = MAX_PREVIEW_POINTS := by
      rw [List.filterMap_length_eq_length.mpr hsome, List.length_range]
    rw [if_neg (by decide)]
    exact hlength.symm ▸ (by decide)

theorem mem_of_mem_simplifyPreview {coords : List Coordinate} {maxPoints : Nat}
    (h : c ∈ simplifyPreview coords maxPoints) : c ∈ coords := by
  unfold simplifyPreview at h
  split at h
  . exact h
  . split at h
    . exact List.mem_of_mem_take h
    . obtain ⟨i, _, hi⟩ := List.mem_filterMap.mp h
      exact List.mem_of_getElem? hi

theorem normalizedFrom (gpx : GpxImport codec normalization)
    : NormalizedFrom normalization (longEnough (segmentsOf gpx.parseResult)) gpx.normalized :=
  RecordedActivity.normalizedFrom_of_normalizeGpx gpx.isNormalized

theorem previewGeometry_inRange (gpx : GpxImport codec normalization)
    : ∀ c ∈ gpx.data.previewGeometry, c.InRange := by
  intro c hc
  have hpreview : c ∈ gpx.normalized.previewGeometry := hc
  rw [(normalizedFrom gpx).previewGeometry] at hpreview
  obtain ⟨pt, hpt, rfl⟩ := List.mem_map.mp (mem_of_mem_simplifyPreview hpreview)
  obtain ⟨segment, hsegment, hpt⟩ := List.mem_flatMap.mp hpt
  exact RecordedActivity.inRange_of_normalizeGpx gpx.isNormalized segment hsegment pt hpt

theorem length_previewGeometry (gpx : GpxImport codec normalization)
    : 2 ≤ gpx.data.previewGeometry.length ∧ gpx.data.previewGeometry.length ≤ 1000 := by
  have hpreview : gpx.data.previewGeometry = gpx.normalized.previewGeometry := rfl
  have hfrom := normalizedFrom gpx
  have hlong : longEnough (segmentsOf gpx.parseResult) ≠ [] := by
    intro hnil
    have hsegments := hfrom.segments
    rw [hnil, List.map_nil, List.map_eq_nil_iff] at hsegments
    exact gpx.normalized.recordedTrack.nonempty hsegments
  obtain ⟨segment, rest, heq⟩ := List.exists_cons_of_ne_nil hlong
  have hsegment : segment ∈ longEnough (segmentsOf gpx.parseResult) := heq ▸ List.mem_cons_self
  have hpoints : 2 ≤ segment.points.length := by simpa using (List.mem_filter.mp hsegment).2
  rw [hpreview, hfrom.previewGeometry]
  constructor
  . apply two_le_simplifyPreview
    rw [heq, List.flatMap_cons, List.length_map, List.length_append]
    omega
  . exact RecordedActivity.length_simplifyPreview_le _ (by decide)

-- the points of the file
def gpxPoints (coords : List Coordinate) : List GpxPoint := (coords.map GeometryPoint.ofCoordinate).map gpxPoint

theorem ExportedAs.file_eq (h : ExportedAs gpx crates title file)
    : file = gpxBytes crates { activityName := title, segments := [gpxPoints gpx.data.previewGeometry] } := by
  obtain ⟨db, db', activityId, row, geometries, hrun, hnew, hrow, hgeometry, hfile⟩ := h
  obtain ⟨geometryJson, segments, hjson, hsegments, name, hname, rfl⟩ := hfile
  have hnonempty : gpx.data.previewGeometry ≠ [] := by
    intro hnil
    have hlength := (length_previewGeometry gpx).1
    rw [hnil] at hlength
    cases hlength
  rw [hgeometry] at hjson
  obtain rfl := Option.some.inj hjson
  rw [RouteVersioning.geometryJson_of_initial hrun hnew hrow,
    RouteVersioning.parseGeometryJson_flat (previewGeometry_inRange gpx) hnonempty] at hsegments
  obtain rfl := Except.ok.inj hsegments
  rw [List.mem_singleton.mp hname]
  rfl

theorem sanitized_title (gpx : GpxImport codec normalization) : Sanitized gpx.title := by
  obtain ⟨text, s, haccepted⟩ := accepted_of_parseGpx gpx.parsed
  have hlimited := haccepted.limited
  have hdefault := sanitized_sanitizeMetadata "Imported Activity"
  rw [sanitizeMetadata_importedActivity] at hdefault
  unfold GpxImport.title
  cases hsuggested : RecordedActivity.suggestedTitle gpx.parseResult with
  | none =>
    rw [Option.getD_none]
    exact hdefault
  | some title =>
    rw [Option.getD_some]
    rcases Option.or_eq_some_iff.mp hsuggested with htrack | ⟨_, hmetadata⟩
    . obtain ⟨track, htrack, hname⟩ := Option.bind_eq_some_iff.mp htrack
      exact hlimited.trackNames track (List.mem_of_mem_head? htrack) title hname
    . exact hlimited.name title hmetadata

theorem length_title_le (h : Titled gpx title) : ∀ name ∈ title, name.length ≤ 1000 := by
  intro name hname
  cases h with
  | unread => cases hname
  | imported =>
    obtain rfl := Option.some.inj hname
    have hlength := (sanitized_title gpx).length_le
    rw [String.length_toList] at hlength
    exact hlength
  | renamed title =>
    obtain rfl := Option.some.inj hname
    have hlength := length_le_utf8ByteSize title.text.toList
    rw [String.ofList_toList, String.length_toList] at hlength
    exact hlength.trans (title.bounded.trans (by decide))

theorem inRange_gpxPoints {coords : List Coordinate} (h : ∀ c ∈ coords, c.InRange)
    : ∀ point ∈ gpxPoints coords, InRange point := by
  intro point hpoint
  obtain ⟨p, hp, rfl⟩ := List.mem_map.mp hpoint
  obtain ⟨c, hc, rfl⟩ := List.mem_map.mp hp
  exact ⟨(h c hc).1, (h c hc).2, fun ele hele => by cases hele⟩

theorem length_file_le (h : Titled gpx title)
    : (generateGpx Xml.escape
        { activityName := title, segments := [gpxPoints gpx.data.previewGeometry] }).toUTF8.data.toList.length
        ≤ MAX_INPUT_SIZE := by
  have hpoints : ∀ point ∈ gpxPoints gpx.data.previewGeometry, (writePoint point).length ≤ 54 := by
    intro point hpoint
    have hrange := inRange_gpxPoints (previewGeometry_inRange gpx) point hpoint
    obtain ⟨p, hp, rfl⟩ := List.mem_map.mp hpoint
    obtain ⟨c, _, rfl⟩ := List.mem_map.mp hp
    exact length_writePoint_le hrange.latitude hrange.longitude rfl
  have hlength := length_generateGpx_le (length_title_le h) hpoints
  have hcount : (gpxPoints gpx.data.previewGeometry).length ≤ 1000 := by
    rw [gpxPoints, List.length_map, List.length_map]
    exact (length_previewGeometry gpx).2
  generalize generateGpx Xml.escape _ = text at hlength ⊢
  have hbytes : text.toUTF8.data.toList.length = text.utf8ByteSize := Array.length_toList
  have hsize := utf8ByteSize_le text
  have hmax : MAX_INPUT_SIZE = 104857600 := rfl
  rw [String.length_toList] at hsize
  rw [hbytes, hmax]
  omega

-- what is committed can be exported
theorem exportedAs_of_commits {db : Imports.Database} (h : gpx.commits db = true) (crates : Crates)
    (title : Option String)
    : ExportedAs gpx crates title
        (gpxBytes crates { activityName := title, segments := [gpxPoints gpx.data.previewGeometry] }) := by
  obtain ⟨e, hrun⟩ | ⟨db', hrun, hcommitted⟩ := PgImportCommitter.commit_cases gpx.externals.commit gpx.data db
  . rw [GpxImport.commits, outcome, hrun] at h
    cases h
  . have hnonempty : gpx.data.previewGeometry ≠ [] := by
      intro hnil
      have hlength := (length_previewGeometry gpx).1
      rw [hnil] at hlength
      cases hlength
    refine ⟨db, db', _, PgImportCommitter.initialVersion gpx.externals.commit gpx.data,
      fun _ => some (PgImportCommitter.initialVersion gpx.externals.commit gpx.data).geometryJson, hrun, ?_, ?_, rfl,
      _, _, rfl, ?_, title, List.mem_singleton_self title, rfl⟩
    . exact Sql.Table.find?_eq_none_of_insert? hcommitted.routeVersions
    . rw [Sql.Table.find?_insert? hcommitted.routeVersions, if_pos rfl]
    . exact RouteVersioning.parseGeometryJson_flat (previewGeometry_inRange gpx) hnonempty

/-
What is made of the file.
-/

def readResult (coords : List Coordinate) (title : Option String) : GpxParseResult where
  version := .gpx11
  metadata := { name := none, description := none, time := none }
  tracks := [{ name := parsedName title, segments := [{ points := (gpxPoints coords).map parsedPoint }] }]
  totalPoints := coords.length

theorem parseGpx_file (hcodec : codec.Faithful) (hcrates : crates.escape = codec.escape) (htitle : Titled gpx title)
    (h : ExportedAs gpx crates title file)
    : parseGpx codec file = .ok (readResult gpx.data.previewGeometry title) := by
  have hescape : crates.escape = Xml.escape := hcrates.trans (funext hcodec.escape_eq)
  have hlength : (gpxPoints gpx.data.previewGeometry).length = gpx.data.previewGeometry.length := by
    rw [gpxPoints, List.length_map, List.length_map]
  have hcount := length_previewGeometry gpx
  have hinput : ∀ segment ∈ [gpxPoints gpx.data.previewGeometry], ∀ point ∈ segment, InRange point := by
    intro segment hsegment
    rw [List.mem_singleton.mp hsegment]
    exact inRange_gpxPoints (previewGeometry_inRange gpx)
  have hsegments : parsedSegments [gpxPoints gpx.data.previewGeometry]
      = [{ points := (gpxPoints gpx.data.previewGeometry).map parsedPoint }] := by
    have hsome : (gpxPoints gpx.data.previewGeometry).isEmpty = false := by
      rw [← Bool.not_eq_true, List.isEmpty_iff_length_eq_zero]
      omega
    rw [parsedSegments, List.filter_cons_of_pos (by rw [hsome]; rfl)]
    rfl
  have hsize := length_file_le htitle
  have hsum : ([gpxPoints gpx.data.previewGeometry].map List.length).sum = gpx.data.previewGeometry.length := by
    rw [List.map_singleton, List.sum_singleton, hlength]
  rw [h.file_eq, gpxBytes, hescape]
  rw [generateGpx_eq] at hsize ⊢
  have hparsed := parseGpx_print_gpxTokens hcodec hinput hsize
    (by rw [hsum]; exact hcount.2.trans (by decide)) (by rw [hsegments, List.length_singleton]; decide)
  rw [hparsed, hsegments, hsum]
  rfl

theorem timestampsOf_gpxPoints (externals : NormalizationExternals) (coords : List Coordinate)
    : RecordedActivity.timestampsOf externals ((gpxPoints coords).map parsedPoint) = [] := by
  unfold RecordedActivity.timestampsOf
  rw [List.filterMap_eq_nil_iff]
  intro pt hpt
  obtain ⟨point, _, rfl⟩ := List.mem_map.mp hpt
  rfl

theorem elevationsOf_gpxPoints (externals : NormalizationExternals) (coords : List Coordinate)
    : RecordedActivity.calculateElevationStats
        (RecordedActivity.elevationsOf externals ((gpxPoints coords).map parsedPoint)) = (none, none) := by
  have hnone : (RecordedActivity.elevationsOf externals ((gpxPoints coords).map parsedPoint)).filterMap id = [] := by
    rw [List.filterMap_eq_nil_iff]
    intro elevation helevation
    obtain ⟨pt, hpt, rfl⟩ := List.mem_map.mp helevation
    obtain ⟨point, hpoint, rfl⟩ := List.mem_map.mp hpt
    obtain ⟨p, hp, rfl⟩ := List.mem_map.mp hpoint
    obtain ⟨c, _, rfl⟩ := List.mem_map.mp hp
    rfl
  unfold RecordedActivity.calculateElevationStats
  rw [hnone]
  rfl

theorem normalizeGpx_readResult {coords : List Coordinate} (hrange : ∀ c ∈ coords, c.InRange)
    (hlong : 2 ≤ coords.length) (hshort : coords.length ≤ 1000)
    : ∃ normalized, normalizeGpx normalization (readResult coords title) = .ok normalized
        ∧ Kept normalization.distance coords title normalized := by
  let segment : GpxTrackSegment := { points := (gpxPoints coords).map parsedPoint }
  have hsegments : segmentsOf (readResult coords title) = [segment] := rfl
  have hlength : segment.points.length = coords.length := by
    rw [List.length_map, gpxPoints, List.length_map, List.length_map]
  have hcoordinates : segment.points.map coordinateOf = coords.map rounded := by
    simp only [segment, gpxPoints, List.map_map]
    rfl
  have hinRange : ∀ s ∈ [segment], ∀ pt ∈ s.points, (coordinateOf pt).InRange := by
    intro s hs pt hpt
    rw [List.mem_singleton.mp hs] at hpt
    have hmem := List.mem_map_of_mem (f := coordinateOf) hpt
    rw [hcoordinates] at hmem
    obtain ⟨c, hc, heq⟩ := List.mem_map.mp hmem
    rw [← heq]
    exact rounded_inRange (hrange c hc)
  have hkeep : longEnough [segment] = [segment] := by
    apply List.filter_cons_of_pos
    simpa [hlength] using hlong
  have hkept : kept [segment] = [coords.map rounded] := by
    rw [kept, List.filter_cons_of_pos (by simpa [hlength] using hlong), List.filter_nil, List.map_singleton,
      hcoordinates]
  obtain ⟨loop, hrun⟩ : ∃ loop, RecordedActivity.Loop.run normalization (readResult coords title) = .ok loop :=
    RecordedActivity.Loop.exists_run hinRange .start
  rcases RecordedActivity.normalizeGpx_cases hrun with ⟨hnil, _⟩ | ⟨normalized, hok, hfrom⟩
  . rw [hsegments, hkeep] at hnil
    cases hnil
  . have hnormalized := RecordedActivity.normalized_of_normalizeGpx hok
    have hpoints : [segment].flatMap (·.points) = segment.points := List.flatMap_singleton ..
    rw [hsegments, hkeep] at hfrom
    rw [hsegments, hkept] at hnormalized
    have hpreview := hnormalized.previewGeometry
    have hdistance := hnormalized.distanceMeters
    have hpointCount := hnormalized.pointCount
    have helevations := hfrom.elevations
    have hduration := hfrom.durationSeconds
    have hstarted := hfrom.startedAt
    have hended := hfrom.endedAt
    rw [List.flatten_singleton, RecordedActivity.simplifyPreview_of_le (by rw [List.length_map]; exact hshort)]
      at hpreview
    rw [List.flatMap_singleton] at hdistance
    rw [List.flatten_singleton, List.length_map] at hpointCount
    rw [hpoints, elevationsOf_gpxPoints] at helevations
    rw [hpoints, timestampsOf_gpxPoints] at hduration hstarted hended
    refine ⟨normalized, hok, ?_⟩
    exact {
      segments := hnormalized.segments
      previewGeometry := hpreview
      pointCount := hpointCount
      distanceMeters := hdistance
      elevations := ⟨congrArg Prod.fst helevations, congrArg Prod.snd helevations⟩
      times := ⟨hstarted, hended, hduration⟩
      suggestedTitle := by
        rw [RecordedActivity.suggestedTitle_of_normalizeGpx hok]
        exact Option.or_none
    }

/--
A file that has been exported is imported again: with the points of the version, rounded, in one segment, without
elevations and times, and under the title that has been read.
-/
theorem exported_kept (hcodec : codec.Faithful) (hcrates : crates.escape = codec.escape) (htitle : Titled gpx title)
    (h : ExportedAs gpx crates title file) (normalization' : NormalizationExternals)
    : (∀ c ∈ gpx.data.previewGeometry, Near c (rounded c))
        ∧ ∃ parseResult normalized, parseGpx codec file = .ok parseResult
          ∧ normalizeGpx normalization' parseResult = .ok normalized
          ∧ Kept normalization'.distance gpx.data.previewGeometry title normalized := by
  have hrange := previewGeometry_inRange gpx
  have hlength := length_previewGeometry gpx
  obtain ⟨normalized, hnormalized, hkept⟩ := normalizeGpx_readResult hrange hlength.1 hlength.2
  refine ⟨fun c hc => near_rounded (hrange c hc), _, normalized, ?_, hnormalized, hkept⟩
  exact parseGpx_file hcodec hcrates htitle h

/-
Over and over.
-/

theorem kept_of_exportedAs (hcodec : codec.Faithful) (hcrates : crates.escape = codec.escape)
    {gpx' : GpxImport codec normalization'} (htitle : Titled gpx title)
    (h : ExportedAs gpx crates title gpx'.fileBytes)
    : Kept normalization'.distance gpx.data.previewGeometry title gpx'.normalized
        ∧ gpx'.title = importedTitle title := by
  have hparsed := gpx'.parsed
  rw [parseGpx_file hcodec hcrates htitle h] at hparsed
  have hlength := length_previewGeometry gpx
  obtain ⟨normalized, hnormalized, hkept⟩ :=
    normalizeGpx_readResult (previewGeometry_inRange gpx) hlength.1 hlength.2
  have hsame := gpx'.isNormalized
  rw [← Except.ok.inj hparsed, hnormalized] at hsame
  obtain rfl := Except.ok.inj hsame
  refine ⟨hkept, ?_⟩
  rw [GpxImport.title, ← RecordedActivity.suggestedTitle_of_normalizeGpx gpx'.isNormalized, hkept.suggestedTitle]
  rfl

end Import

section Chain

variable {codec : Xml.Codec} {crates : Crates} {normalization : Nat → NormalizationExternals}
  {imports : (k : Nat) → GpxImport codec (normalization k)} {n : Nat}

theorem previewGeometry_of_reimported (hcodec : codec.Faithful) (hcrates : crates.escape = codec.escape)
    (h : ∀ k < n, Reimported (imports k) crates (imports (k + 1)))
    : ∀ k < n, (imports (k + 1)).data.previewGeometry = (imports 0).data.previewGeometry.map rounded := by
  intro k hk
  induction k with
  | zero =>
    obtain ⟨title, htitle, hfile⟩ := h 0 hk
    exact (kept_of_exportedAs hcodec hcrates htitle hfile).1.previewGeometry
  | succ k ih =>
    obtain ⟨title, htitle, hfile⟩ := h (k + 1) hk
    have hpreview := (kept_of_exportedAs hcodec hcrates htitle hfile).1.previewGeometry
    rw [ih (by omega), map_rounded_rounded (previewGeometry_inRange (imports 0))] at hpreview
    exact hpreview

-- under the title of the import
theorem title_of_exportedAs (hcodec : codec.Faithful) (hcrates : crates.escape = codec.escape)
    (h : ∀ k < n, ExportedAs (imports k) crates (some (imports k).title) (imports (k + 1)).fileBytes)
    : ∀ k < n, (imports (k + 1)).title = importedTitle (some (imports k).title) :=
  fun k hk => (kept_of_exportedAs hcodec hcrates .imported (h k hk)).2

theorem fileBytes_of_settled (hcodec : codec.Faithful) (hcrates : crates.escape = codec.escape)
    (h : ∀ k < n, ExportedAs (imports k) crates (some (imports k).title) (imports (k + 1)).fileBytes)
    {start : Nat} (hstart : 1 ≤ start)
    (hsettled : importedTitle (some (imports start).title) = (imports start).title)
    : ∀ k, start ≤ k → k < n → (imports (k + 1)).fileBytes = (imports (start + 1)).fileBytes := by
  have hpreview := previewGeometry_of_reimported hcodec hcrates fun k hk => ⟨_, .imported, h k hk⟩
  have htitle := title_of_exportedAs hcodec hcrates h
  have hsame : ∀ k, start ≤ k → k < n → (imports k).title = (imports start).title := by
    intro k hk
    induction k, hk using Nat.le_induction with
    | base => exact fun _ => rfl
    | succ k hk ih =>
      intro hlt
      rw [htitle k (by omega), ih (by omega), hsettled]
  intro k hk hlt
  obtain ⟨k, rfl⟩ := Nat.exists_eq_add_of_le' (hstart.trans hk)
  obtain ⟨start, rfl⟩ := Nat.exists_eq_add_of_le' hstart
  rw [(h _ hlt).file_eq, (h _ (by omega)).file_eq, hsame _ hk hlt, hpreview k (by omega), hpreview start (by omega)]

/--
However often it is exported and imported again, the points are the ones of the first rounding. As long as no
title gets lost or changed, every file is the same as the one before it from the second on (the third, if the
first title shows nothing).
-/
theorem reimports_settle (hcodec : codec.Faithful) (hcrates : crates.escape = codec.escape)
    (h : ∀ k < n, Reimported (imports k) crates (imports (k + 1)))
    : (∀ k < n, (imports (k + 1)).data.previewGeometry = (imports 0).data.previewGeometry.map rounded
          ∧ recordedCoordinates (imports (k + 1)).normalized.recordedTrack.segments
            = [(imports 0).data.previewGeometry.map rounded])
        ∧ ((∀ k < n, ExportedAs (imports k) crates (some (imports k).title) (imports (k + 1)).fileBytes) →
          ((imports 1).title ≠ "" →
            ∀ k, 1 ≤ k → k < n → (imports (k + 1)).fileBytes = (imports 2).fileBytes)
          ∧ ∀ k, 2 ≤ k → k < n → (imports (k + 1)).fileBytes = (imports 3).fileBytes) := by
  have hpreview := previewGeometry_of_reimported hcodec hcrates h
  constructor
  . intro k hk
    refine ⟨hpreview k hk, ?_⟩
    obtain ⟨title, htitle, hfile⟩ := h k hk
    have hsegments := (kept_of_exportedAs hcodec hcrates htitle hfile).1.segments
    cases k with
    | zero => exact hsegments
    | succ k =>
      rw [hpreview k (by omega), map_rounded_rounded (previewGeometry_inRange (imports 0))] at hsegments
      exact hsegments
  . intro hexported
    have htitle := title_of_exportedAs hcodec hcrates hexported
    have hsettled : 0 < n → (imports 1).title ≠ "" →
        importedTitle (some (imports 1).title) = (imports 1).title := by
      intro hn hne
      rw [htitle 0 hn] at hne ⊢
      exact importedTitle_importedTitle (sanitized_title (imports 0)) hne
    constructor
    . intro hne k hk hlt
      exact fileBytes_of_settled hcodec hcrates hexported (Nat.le_refl 1) (hsettled (by omega) hne) k hk hlt
    . intro k hk hlt
      have hsecond := htitle 1 (by omega)
      have hsettled' : importedTitle (some (imports 2).title) = (imports 2).title := by
        by_cases hempty : (imports 1).title = ""
        . rw [hempty, importedTitle_empty] at hsecond
          rw [hsecond, importedTitle_importedActivity]
        . rw [hsettled (by omega) hempty] at hsecond
          rw [hsecond, hsettled (by omega) hempty]
      exact fileBytes_of_settled hcodec hcrates hexported (by decide) hsettled' k hk hlt

end Chain

/-
The walk with the long name.
-/

def scannerCrates : Crates := { sampleCrates with escape := Xml.scanner.escape }

-- any file, imported into the same database
def walkImport {fileBytes : Bytes} {parseResult : GpxParseResult} {normalized : NormalizedTrack}
    (parsed : parseGpx Xml.scanner fileBytes = .ok parseResult)
    (isNormalized : normalizeGpx sampleNormalization parseResult = .ok normalized)
    : GpxImport Xml.scanner sampleNormalization where
  externals := sampleExternals
  imp := sampleImport
  importId := ⟨⟨1⟩⟩
  ownerId := ⟨⟨2⟩⟩
  objectStorageKey := "key"
  correlationId := ⟨11⟩
  fileBytes
  computedHash := sampleChecksum.value
  parseResult
  normalized
  routeVersion := longVersion
  parsed
  isNormalized

theorem commits_walkImport {fileBytes : Bytes} {parseResult : GpxParseResult} {normalized : NormalizedTrack}
    (parsed : parseGpx Xml.scanner fileBytes = .ok parseResult)
    (isNormalized : normalizeGpx sampleNormalization parseResult = .ok normalized)
    : (walkImport parsed isNormalized).commits longDatabase = true := rfl

theorem exists_walks
    : ∃ walks : Nat → GpxImport Xml.scanner sampleNormalization, (walks 0).fileBytes = longFile
        ∧ ∀ k, ExportedAs (walks k) scannerCrates (some (walks k).title) (walks (k + 1)).fileBytes := by
  have hnext : ∀ walk : { walk : GpxImport Xml.scanner sampleNormalization // walk.commits longDatabase = true },
      ∃ walk' : { walk : GpxImport Xml.scanner sampleNormalization // walk.commits longDatabase = true },
        ExportedAs walk.val scannerCrates (some walk.val.title) walk'.val.fileBytes := by
    intro ⟨walk, hcommits⟩
    have hexported := exportedAs_of_commits hcommits scannerCrates (some walk.title)
    have hlength := length_previewGeometry walk
    have hparsed := parseGpx_file Xml.faithful_scanner rfl .imported hexported
    obtain ⟨normalized, hnormalized, _⟩ :=
      normalizeGpx_readResult (previewGeometry_inRange walk) hlength.1 hlength.2
    exact ⟨⟨walkImport hparsed hnormalized, commits_walkImport hparsed hnormalized⟩, hexported⟩
  obtain ⟨normalized, h⟩ := exists_of_isOk normalizeGpx_longResult
  choose next hnext using hnext
  let first : { walk : GpxImport Xml.scanner sampleNormalization // walk.commits longDatabase = true } :=
    ⟨walkImport parseGpx_longFile h, commits_walkImport parseGpx_longFile h⟩
  refine ⟨fun k => (next^[k] first).val, ?_, ?_⟩
  . have hfirst : (next^[0] first).val.fileBytes = longFile := by
      rw [Function.iterate_zero_apply]
      simp only [first, walkImport]
    exact hfirst
  . intro k
    have hlast := hnext (next^[k] first)
    rw [← Function.iterate_succ_apply' next] at hlast
    exact hlast

/--
It is kept, and the files of its exports are the same from the second on.
-/
theorem exported_kept_longWalk
    : ∃ (walk : GpxImport Xml.scanner sampleNormalization) (file : Bytes), walk.fileBytes = longFile
        ∧ (∀ c ∈ walk.data.previewGeometry, Near c (rounded c))
        ∧ ∃ parseResult normalized, parseGpx Xml.scanner file = .ok parseResult
          ∧ normalizeGpx sampleNormalization parseResult = .ok normalized
          ∧ Kept sampleNormalization.distance walk.data.previewGeometry (some walk.title) normalized := by
  obtain ⟨walks, hfirst, hexported⟩ := exists_walks
  refine ⟨walks 0, (walks 1).fileBytes, hfirst, ?_⟩
  exact exported_kept Xml.faithful_scanner rfl .imported (hexported 0) sampleNormalization

theorem reimports_settle_longWalk
    : ∃ walks : Nat → GpxImport Xml.scanner sampleNormalization, (walks 0).fileBytes = longFile
        ∧ (∀ k < 4, (walks (k + 1)).data.previewGeometry = (walks 0).data.previewGeometry.map rounded
          ∧ recordedCoordinates (walks (k + 1)).normalized.recordedTrack.segments
            = [(walks 0).data.previewGeometry.map rounded])
        ∧ ∀ k, 2 ≤ k → k < 4 → (walks (k + 1)).fileBytes = (walks 3).fileBytes := by
  obtain ⟨walks, hfirst, hexported⟩ := exists_walks
  obtain ⟨hpoints, hfiles⟩ := reimports_settle Xml.faithful_scanner rfl
    fun k (_ : k < 4) => ⟨_, .imported, hexported k⟩
  exact ⟨walks, hfirst, hpoints, (hfiles fun k _ => hexported k).2⟩

end Exports
