import Haiker.ActivityCatalog.LostUpdates
import Haiker.ActivityCatalog.TitleLaws
import Haiker.Exports.RoundTrip
import Haiker.Imports.InitialVersion
import Haiker.Imports.Lemmas.Commit
import Haiker.Imports.MetadataLaws
import Haiker.Simulation.Runs

/-!
This module contains when the titles that are stored can be read back, while files are imported and clients
rename, delete, select a version of and publish to activities: when no title of a file is cut inside of a
character.
-/

open Rust
open Interleaving
open ActivityCatalog (ActivityRow ActivityTitle PgActivityRepository.rowToActivity longTitle)
open ActivityCatalog.ActivityTitle
open RecordedActivity (NormalizationExternals normalizeGpx suggestedTitle suggestedTitle_of_normalizeGpx)

namespace Imports

/--
A file that has been parsed and normalized, with all else that the orchestrator commits it with.
-/
structure GpxImport (codec : Xml.Codec) (normalization : NormalizationExternals) where
  externals : Externals
  imp : Import
  importId : ImportId
  ownerId : Identity.UserId
  objectStorageKey : String
  correlationId : Uuid
  fileBytes : Bytes
  computedHash : String
  parseResult : GpxParseResult
  normalized : NormalizedTrack
  routeVersion : RouteVersioning.RouteVersion
  parsed : parseGpx codec fileBytes = .ok parseResult
  isNormalized : normalizeGpx normalization parseResult = .ok normalized

namespace GpxImport

variable {codec : Xml.Codec} {normalization : NormalizationExternals} (gpx : GpxImport codec normalization)

def data : ImportCommitData :=
  ImportOrchestrator.commitData gpx.externals gpx.imp gpx.importId gpx.ownerId gpx.objectStorageKey
    gpx.correlationId gpx.fileBytes gpx.computedHash gpx.normalized gpx.routeVersion

-- of the first track, else of the file
def title : String := (suggestedTitle gpx.parseResult).getD "Imported Activity"

def commits (db : Database) : Bool :=
  (outcome (PgImportCommitter.commit gpx.externals.commit gpx.data) db).isOk

-- the row that the commit inserts
def row : ActivityRow :=
  PgImportCommitter.setSummaries gpx.externals.commit gpx.data
    (PgImportCommitter.activity gpx.externals.commit gpx.data)

theorem title_row : gpx.row.title = gpx.title := by
  unfold title
  rw [← suggestedTitle_of_normalizeGpx gpx.isNormalized]
  rfl

end GpxImport

/--
An import of a file, or a client of the activities on its way.
-/
inductive Task (codec : Xml.Codec) (normalization : NormalizationExternals) where
  | commit (gpx : GpxImport codec normalization)
  | change (client : ActivityCatalog.Client)

namespace Task

variable {codec : Xml.Codec} {normalization : NormalizationExternals}

def step (errors : RouteVersioning.SerdeErrors) (db : Database)
    : Task codec normalization → Database × Task codec normalization
  | .commit gpx => (after (PgImportCommitter.commit gpx.externals.commit gpx.data) db, .commit gpx)
  | .change client =>
    let (shared, client) := client.step errors db.toDatabase
    ({ db with toDatabase := shared }, .change client)

/--
A file that gets committed has a title that is not cut inside of a character.
-/
def Fits (db : Database) : Task codec normalization → Prop
  | .commit gpx => gpx.commits db = true → Cuts gpx.title
  | .change _ => True

end Task

/--
The title makes no panic, and the row an activity.
-/
def Readable (row : ActivityRow) : Prop :=
  ActivityTitle.new row.title ≠ .error .panic ∧ ∃ activity, PgActivityRepository.rowToActivity row = .ok activity

def TitlesRead (db : Database) : Prop := ∀ id row, db.activities.find? id = some row → Readable row

theorem readable_iff {row : ActivityRow} : Readable row ↔ Cuts row.title := by
  rw [Readable, new_ne_panic_iff]
  refine ⟨And.left, fun hcuts => ⟨hcuts, ?_⟩⟩
  unfold PgActivityRepository.rowToActivity ActivityCatalog.PgActivityRepository.readTitle
  cases hnew : ActivityTitle.new row.title with
  | ok title => exact ⟨_, rfl⟩
  | error fault =>
    cases fault with
    | err e => exact ⟨_, rfl⟩
    | panic => exact absurd hnew (new_ne_panic_iff.mpr hcuts)

section Step

variable {codec : Xml.Codec} {normalization : NormalizationExternals} {db : Database}

theorem TitlesRead.commit (h : TitlesRead db) (gpx : GpxImport codec normalization)
    : TitlesRead (after (PgImportCommitter.commit gpx.externals.commit gpx.data) db)
        ↔ (gpx.commits db = true → Cuts gpx.title) := by
  obtain ⟨e, hrun⟩ | ⟨db', hrun, hcommitted⟩ := PgImportCommitter.commit_cases gpx.externals.commit gpx.data db
  . have hafter : after (PgImportCommitter.commit gpx.externals.commit gpx.data) db = db := by
      rw [after, hrun]
    have hcommits : gpx.commits db = false := by
      rw [GpxImport.commits, outcome, hrun]
      rfl
    rw [hafter, hcommits]
    exact iff_of_true h (by simp)
  . have hafter : after (PgImportCommitter.commit gpx.externals.commit gpx.data) db = db' := by
      rw [after, hrun]
    have hcommits : gpx.commits db = true := by
      rw [GpxImport.commits, outcome, hrun]
      rfl
    have hfind : ∀ k, db'.activities.find? k
        = if k = gpx.data.activityId.val then some gpx.row else db.activities.find? k :=
      hcommitted.find?_activities
    rw [hafter]
    constructor
    . intro hread _
      have hrow := hread gpx.data.activityId.val gpx.row (by rw [hfind, if_pos rfl])
      rw [readable_iff, gpx.title_row] at hrow
      exact hrow
    . intro hcuts id row hrow
      rw [hfind] at hrow
      split at hrow
      . obtain rfl := Option.some.inj hrow
        rw [readable_iff, gpx.title_row]
        exact hcuts hcommits
      . exact h id row hrow

-- whatever title is written is one
theorem TitlesRead.change (h : TitlesRead db) (errors : RouteVersioning.SerdeErrors)
    (client : ActivityCatalog.Client)
    : TitlesRead { db with toDatabase := (client.step errors db.toDatabase).1 } := by
  obtain ⟨job, program⟩ := client
  cases program with
  | done result => exact h
  | ask command next =>
    cases command with
    | findById | findVersion => exact h
    | update activity =>
      intro id row hrow
      have hrow : (ActivityCatalog.PgActivityRepository.update activity db.activities).find? id = some row := hrow
      rw [ActivityCatalog.find?_update, Option.map_eq_some_iff] at hrow
      obtain ⟨old, hold, rfl⟩ := hrow
      split
      . exact readable_iff.mpr (cuts_text activity.title)
      . exact h id old hold
    | commit externals data =>
      obtain ⟨hafter, _⟩ | ⟨_, result, draft, version, _, hpublished⟩ :=
        RouteVersioning.commit_cases externals data db.toDatabase
      . intro id row hrow
        have hrow : (after (RouteVersioning.commit externals data) db.toDatabase).activities.find? id = some row :=
          hrow
        rw [hafter] at hrow
        exact h id row hrow
      . obtain ⟨json, _, hactivities⟩ := hpublished.activities
        intro id row hrow
        have hrow : (after (RouteVersioning.commit externals data) db.toDatabase).activities.find? id = some row :=
          hrow
        rw [hactivities, ActivityCatalog.find?_updateCurrentVersion, Option.map_eq_some_iff] at hrow
        obtain ⟨old, hold, rfl⟩ := hrow
        have hread := readable_iff.mp (h id old hold)
        apply readable_iff.mpr
        split
        . exact hread
        . exact hread

theorem TitlesRead.step (h : TitlesRead db) (errors : RouteVersioning.SerdeErrors)
    (task : Task codec normalization) : TitlesRead (task.step errors db).1 ↔ task.Fits db := by
  cases task with
  | commit gpx => exact h.commit gpx
  | change client => exact iff_of_true (h.change errors client) trivial

end Step

section Run

variable {ι : Type} [DecidableEq ι]

/--
A title is as it is to be if it fits, or is cut behind a character that is no white space. In a run all titles
are read back as long as none that is committed with a file is cut inside of a character.
-/
theorem titles_read_iff (codec : Xml.Codec) (normalization : NormalizationExternals)
    (errors : RouteVersioning.SerdeErrors) (c : Config Database (Task codec normalization) ι) (schedule : List ι)
    (value : String)
    : (TitleLaw value ↔ CutsWell value)
        ∧ ((∀ k, TitlesRead (run (Task.step errors) c (schedule.take k)).shared)
          ↔ TitlesRead c.shared ∧ Along (Task.step errors) (fun c i => (c.clients i).Fits c.shared) c schedule) := by
  refine ⟨titleLaw_iff, ?_⟩
  have hrun := fun h : TitlesRead c.shared =>
    run_take_iff_along (Task.step errors) (fun c i hc => TitlesRead.step hc errors (c.clients i)) h schedule
  constructor
  . intro hread
    have hstart : TitlesRead c.shared := hread 0
    exact ⟨hstart, (hrun hstart).mp hread⟩
  . rintro ⟨hstart, halong⟩
    exact (hrun hstart).mpr halong

end Run

/-
A walk with the long name.
-/

def longPoint (latitude : ℚ) : Exports.GpxPoint where
  latitude := .fin latitude
  longitude := .fin 7
  elevation := none

def longWalk : Exports.GpxGeneratorInput where
  activityName := some longTitle
  segments := [[longPoint 46, longPoint 47]]

def longFile : Bytes := (Xml.print (Exports.gpxTokens longWalk)).toUTF8.data.toList

def longResult : GpxParseResult where
  version := .gpx11
  metadata := { name := none, description := none, time := none }
  tracks := [{
    name := some longTitle
    segments := [{ points := [Exports.parsedPoint (longPoint 46), Exports.parsedPoint (longPoint 47)] }]
  }]
  totalPoints := 2

theorem mem_longTitle {c : Char} (hc : c ∈ longTitle.toList) : c = 'a' ∨ c = 'é' := by
  unfold longTitle at hc
  rw [String.toList_ofList] at hc
  cases List.mem_cons.mp hc with
  | inl hc => exact .inl hc
  | inr hc => exact .inr (List.eq_of_mem_replicate hc)

theorem clean_longTitle : GpxParser.Clean longTitle where
  length_le := by
    have hlength := length_le_utf8ByteSize longTitle.toList
    rw [String.ofList_toList, ActivityCatalog.utf8ByteSize_longTitle] at hlength
    exact hlength.trans (by decide)
  noControl c hc := by
    rcases mem_longTitle hc with rfl | rfl
    . decide
    . decide
  trimmed := ActivityCatalog.trim_longTitle

theorem parsedName_longTitle : Exports.parsedName (some longTitle) = some longTitle := by
  have hnonempty : Xml.trimChars longTitle.toList ≠ [] := by
    have hblank : ∀ c ∈ longTitle.toList, Xml.isWhitespace c = false := by
      intro c hc
      rcases mem_longTitle hc with rfl | rfl
      . decide
      . decide
    have hreverse : ∀ c ∈ longTitle.toList.reverse, Xml.isWhitespace c = false :=
      fun c hc => hblank c (List.mem_reverse.mp hc)
    rw [Xml.trimChars, dropWhile_eq_self hblank, dropWhile_eq_self hreverse, List.reverse_reverse]
    unfold longTitle
    rw [String.toList_ofList]
    exact List.cons_ne_nil _ _
  rw [Exports.parsedName, if_neg hnonempty, clean_longTitle.identity]

theorem escape_longTitle : Xml.escape longTitle = longTitle := by
  have hsame : longTitle.toList.flatMap Xml.escapeChar = longTitle.toList.flatMap fun c => [c] := by
    apply List.flatMap_congr
    intro c hc
    rcases mem_longTitle hc with rfl | rfl
    . decide
    . decide
  rw [Xml.escape, hsame, List.flatMap_singleton', String.ofList_toList]

theorem utf8ByteSize_joined (head gpx trk open_ name close segments trkEnd gpxEnd : String)
    : (head ++ gpx ++ trk ++ (open_ ++ name ++ close) ++ segments ++ trkEnd ++ gpxEnd).utf8ByteSize
        = head.utf8ByteSize + gpx.utf8ByteSize + trk.utf8ByteSize + open_.utf8ByteSize + name.utf8ByteSize
          + close.utf8ByteSize + segments.utf8ByteSize + trkEnd.utf8ByteSize + gpxEnd.utf8ByteSize := by
  simp only [String.utf8ByteSize_append, Nat.add_assoc]

theorem utf8ByteSize_generateGpx (name : String) (segments : List (List Exports.GpxPoint))
    : (Exports.generateGpx Xml.escape ⟨some name, segments⟩).utf8ByteSize
        = 152 + (Xml.escape name).utf8ByteSize
          + (String.join (segments.map Exports.writeSegment)).utf8ByteSize := by
  have hhead : "<?xml version=\"1.0\" encoding=\"UTF-8\"?>\n".utf8ByteSize = 39 := by decide
  have hgpx : "<gpx xmlns=\"http://www.topografix.com/GPX/1/1\" version=\"1.1\" creator=\"Haiker\">\n".utf8ByteSize
      = 79 := by decide +kernel
  have hname : "<name>".utf8ByteSize = 6 ∧ "</name>\n".utf8ByteSize = 8 := by decide
  have htrk : "<trk>\n".utf8ByteSize = 6 ∧ "</trk>\n".utf8ByteSize = 7 := by decide
  have hend : "</gpx>\n".utf8ByteSize = 7 := by decide
  refine (utf8ByteSize_joined _ _ _ _ _ _ _ _ _).trans ?_
  rw [hhead, hgpx, hname.1, hname.2, htrk.1, htrk.2, hend]
  generalize (Xml.escape name).utf8ByteSize = n
  generalize (String.join (segments.map Exports.writeSegment)).utf8ByteSize = m
  omega

theorem utf8ByteSize_longWalk : (Exports.generateGpx Xml.escape longWalk).utf8ByteSize ≤ 2000 := by
  have hsegments : (String.join (longWalk.segments.map Exports.writeSegment)).utf8ByteSize ≤ 1000 := by
    decide +kernel
  have hsize := utf8ByteSize_generateGpx longTitle longWalk.segments
  rw [escape_longTitle, ActivityCatalog.utf8ByteSize_longTitle] at hsize
  exact hsize.trans_le ((Nat.add_le_add_left hsegments _).trans (by decide))

theorem length_longFile : longFile.length ≤ GpxParser.MAX_INPUT_SIZE := by
  have hfile : longFile.length = (Exports.generateGpx Xml.escape longWalk).utf8ByteSize := by
    rw [Exports.generateGpx_eq, longFile]
    generalize Xml.print (Exports.gpxTokens longWalk) = text
    exact Array.length_toList
  rw [hfile]
  exact utf8ByteSize_longWalk.trans (by decide)

theorem parseGpx_longFile : parseGpx Xml.scanner longFile = .ok longResult := by
  have hinput : ∀ segment ∈ longWalk.segments, ∀ point ∈ segment, Exports.InRange point := by
    intro segment hsegment point hpoint
    obtain rfl := List.mem_singleton.mp hsegment
    simp only [List.mem_cons, List.not_mem_nil, or_false] at hpoint
    rcases hpoint with rfl | rfl
    . exact ⟨by decide +kernel, by decide +kernel, by simp [longPoint]⟩
    . exact ⟨by decide +kernel, by decide +kernel, by simp [longPoint]⟩
  have hparsed := Exports.parseGpx_print_gpxTokens Xml.faithful_scanner hinput length_longFile (by decide) (by decide)
  have hname : Exports.parsedName longWalk.activityName = some longTitle := parsedName_longTitle
  rw [hname] at hparsed
  exact hparsed

def longVersion : RouteVersioning.RouteVersion where
  id := sampleExternals.routeVersionId
  activityId := sampleExternals.activityId
  parentVersionId := none
  versionNumber := 1
  geometry := [⟨.fin 46, .fin 7⟩, ⟨.fin 47, .fin 7⟩]
  boundingBox := sampleTrack.boundingBox
  correctedStatistics := .calculateFromGeometry sampleExternals.totalDistance [⟨.fin 46, .fin 7⟩, ⟨.fin 47, .fin 7⟩]
  calculationVersion := ImportOrchestrator.PARSER_VERSION
  editSummary := none
  createdBy := ⟨⟨2⟩⟩
  createdAt := sampleExternals.now

def longImport (normalized : NormalizedTrack) (h : normalizeGpx sampleNormalization longResult = .ok normalized)
    : GpxImport Xml.scanner sampleNormalization where
  externals := sampleExternals
  imp := sampleImport
  importId := ⟨⟨1⟩⟩
  ownerId := ⟨⟨2⟩⟩
  objectStorageKey := "key"
  correlationId := ⟨11⟩
  fileBytes := longFile
  computedHash := sampleChecksum.value
  parseResult := longResult
  normalized
  routeVersion := longVersion
  parsed := parseGpx_longFile
  isNormalized := h

def longDatabase : Database := { sampleImports with imports := sampleQueue }

theorem exists_of_isOk {ε α : Type} {result : Except ε α} (h : result.isOk = true) : ∃ a, result = .ok a := by
  cases result with
  | ok a => exact ⟨a, rfl⟩
  | error e => cases h

theorem normalizeGpx_longResult : (normalizeGpx sampleNormalization longResult).isOk = true := by
  decide +kernel

theorem commits_longImport {normalized : NormalizedTrack}
    (h : normalizeGpx sampleNormalization longResult = .ok normalized)
    : (longImport normalized h).commits longDatabase = true := rfl

/--
The file is imported, and its title makes a panic whenever the activity is read. A space in front of the
cut stays.
-/
theorem titles_not_read
    : (∃ normalized h, TitlesRead longDatabase
          ∧ ¬TitlesRead (run (Task.step ⟨fun _ => "", fun _ => "", fun _ => ""⟩)
            ⟨longDatabase, fun _ : Unit => .commit (longImport normalized h)⟩ [()]).shared)
        ∧ ¬TitleLaw longTitle ∧ ¬TitleLaw (spacedTitle 499) := by
  have hspaced : ¬CutsWell (spacedTitle 499) := not_cutsWell_spacedTitle rfl
  refine ⟨?_, fun h => not_cuts_longTitle (new_ne_panic_iff.mp h.noPanic), fun h => hspaced h.cutsWell⟩
  obtain ⟨normalized, h⟩ := exists_of_isOk normalizeGpx_longResult
  have hstart : TitlesRead longDatabase := by
    intro id row hrow
    cases hrow
  refine ⟨normalized, h, hstart, ?_⟩
  intro hread
  exact not_cuts_longTitle ((hstart.commit (longImport normalized h)).mp hread (commits_longImport h))

end Imports
