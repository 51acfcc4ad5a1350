import Haiker.Imports.Commit
import Haiker.RouteVersioning.Lemmas.PublicationCommit
import Haiker.RouteVersioning.Queries
import Haiker.Transactions.VersionChain

/-!
This module contains that a client who follows the cursors of the version listing meets every version once, as
long as all of them can be read.
-/

open Rust
open ActivityCatalog (ActivityId)
open Pagination (Follows Keyset Page Reaches Serves)

namespace RouteVersioning

namespace PgRouteVersionRepository

variable {errors : SerdeErrors} {activityId : ActivityId} {db db' : Database}

/--
The row is one that the repository reads, as this version.
-/
def Reads (errors : SerdeErrors) (row : RouteVersionRow) (version : RouteVersion) : Prop :=
  ∃ json, row.correctedStatisticsJson = some json ∧ rowToRouteVersion errors row json = .ok version

def ReadableVersion (errors : SerdeErrors) (row : RouteVersionRow) : Prop := ∃ version, Reads errors row version

theorem mem_versionsOf {row : RouteVersionRow}
    : row ∈ versionsOf activityId db ↔ row ∈ db.routeVersions.rows ∧ row.activityId = activityId.val := by
  unfold versionsOf
  rw [List.mem_filter, decide_eq_true_eq]

theorem Reads.columns {row : RouteVersionRow} {version : RouteVersion} (h : Reads errors row version)
    : version.id.val = row.id ∧ version.versionNumber = row.versionNumber := by
  obtain ⟨json, _, hread⟩ := h
  unfold rowToRouteVersion at hread
  cases hgeometry : deserialize "geometry" errors.geometry (Json.toList? RecordedActivity.Coordinate.fromJson)
      row.geometryJson with
  | error e =>
    rw [hgeometry] at hread
    cases hread
  | ok geometry =>
    cases hbox : deserialize "bounding_box" errors.boundingBox RecordedActivity.BoundingBox.fromJson
        row.boundingBoxJson with
    | error e =>
      rw [hgeometry, hbox] at hread
      cases hread
    | ok box =>
      cases hstatistics : deserialize "corrected_statistics" errors.correctedStatistics
          CorrectedStatistics.fromJson json with
      | error e =>
        rw [hgeometry, hbox, hstatistics] at hread
        cases hread
      | ok statistics =>
        rw [hgeometry, hbox, hstatistics] at hread
        cases hread
        exact ⟨rfl, rfl⟩

theorem decodeRow_eq_ok_iff {row : RouteVersionRow} {fetched : RouteVersionRow × Json}
    : decodeRow row = .ok fetched ↔ fetched.1 = row ∧ row.correctedStatisticsJson = some fetched.2 := by
  obtain ⟨row', json'⟩ := fetched
  unfold decodeRow
  cases row.correctedStatisticsJson with
  | none =>
    constructor
    . intro h
      cases h
    . rintro ⟨_, h⟩
      cases h
  | some json =>
    rw [Except.ok.injEq, Prod.mk.injEq, Option.some.injEq, eq_comm (a := row)]

theorem reads_of_fetched {rows : List RouteVersionRow} {fetched : List (RouteVersionRow × Json)}
    {versions : List RouteVersion} (hfetched : List.Forall₂ (fun row a => decodeRow row = .ok a) rows fetched)
    (hversions : List.Forall₂ (fun a version => readRow errors a = .ok version) fetched versions)
    : List.Forall₂ (Reads errors) rows versions := by
  induction hfetched generalizing versions with
  | nil =>
    cases hversions
    exact .nil
  | cons hrow _ ih =>
    cases hversions with
    | cons hversion hrest =>
      obtain ⟨rfl, hjson⟩ := decodeRow_eq_ok_iff.mp hrow
      exact .cons ⟨_, hjson, hversion⟩ (ih hrest)

/--
What the listing has made its page of.
-/
theorem listByActivity_eq_ok {cursor : Option String} {pageSize : Nat} {page : Page RouteVersion}
    (h : listByActivity errors activityId cursor pageSize db = .ok page)
    : ∃ cursorVersion rows, parseCursor cursor = .ok cursorVersion
        ∧ rows = (selectVersions activityId cursorVersion db).take (pageSize + 1)
        ∧ List.Forall₂ (Reads errors) (rows.take pageSize) page.items
        ∧ page.hasMore = decide (pageSize < rows.length)
        ∧ page.nextCursor
          = if page.hasMore then page.items.getLast?.map fun v => toString v.versionNumber else none := by
  unfold listByActivity at h
  cases hcursor : parseCursor cursor with
  | error e =>
    rw [hcursor] at h
    cases h
  | ok cursorVersion =>
    rw [hcursor] at h
    cases hfetched : ((selectVersions activityId cursorVersion db).take (pageSize + 1)).mapM decodeRow with
    | error e =>
      simp only [bind, Except.bind, hfetched] at h
      cases h
    | ok fetched =>
      simp only [bind, Except.bind, hfetched] at h
      cases hitems : (fetched.take pageSize).mapM (readRow errors) with
      | error e =>
        rw [hitems] at h
        cases h
      | ok items =>
        rw [hitems] at h
        cases h
        rw [Pagination.mapM_eq_ok_iff] at hfetched hitems
        refine ⟨cursorVersion, _, rfl, rfl, ?_, ?_, rfl⟩
        . exact reads_of_fetched (List.forall₂_take pageSize hfetched) hitems
        . rw [hfetched.length_eq]

theorem listByActivity_of_readable {cursor : Option String} {cursorVersion : Option Int}
    (hcursor : parseCursor cursor = .ok cursorVersion) (pageSize : Nat)
    (h : ∀ row ∈ selectVersions activityId cursorVersion db, ReadableVersion errors row)
    : ∃ page, listByActivity errors activityId cursor pageSize db = .ok page := by
  have hreadable : ∀ row ∈ (selectVersions activityId cursorVersion db).take (pageSize + 1),
      ReadableVersion errors row :=
    fun row hrow => h row (List.mem_of_mem_take hrow)
  have hdecode : ∀ row ∈ (selectVersions activityId cursorVersion db).take (pageSize + 1),
      ∃ a, decodeRow row = .ok a := by
    intro row hrow
    obtain ⟨_, json, hjson, _⟩ := hreadable row hrow
    exact ⟨(row, json), decodeRow_eq_ok_iff.mpr ⟨rfl, hjson⟩⟩
  obtain ⟨fetched, hfetched⟩ := Pagination.exists_mapM hdecode
  have hread : ∀ a ∈ fetched.take pageSize, ∃ version, readRow errors a = .ok version := by
    intro a ha
    obtain ⟨row, hrow, ha⟩ := Pagination.exists_of_mem_forall₂ (Pagination.mapM_eq_ok_iff.mp hfetched)
      (List.mem_of_mem_take ha)
    obtain ⟨rfl, hjson⟩ := decodeRow_eq_ok_iff.mp ha
    obtain ⟨version, json, hjson', hread⟩ := hreadable _ hrow
    rw [hjson, Option.some.injEq] at hjson'
    rw [← hjson'] at hread
    exact ⟨version, hread⟩
  obtain ⟨versions, hversions⟩ := Pagination.exists_mapM hread
  unfold listByActivity
  simp only [hcursor, bind, Except.bind, hfetched, hversions]
  exact ⟨_, rfl⟩

end PgRouteVersionRepository

open PgRouteVersionRepository

/--
What publications do to the versions of an activity and to the activity itself, however many there are and
whichever drafts they publish.
-/
structure Publications (activityId : ActivityId) (db db' : Database) : Prop where
  kept : ∀ row ∈ versionsOf activityId db, row ∈ versionsOf activityId db'
  above : ∀ row' ∈ versionsOf activityId db', row' ∈ versionsOf activityId db
    ∨ ∀ row ∈ versionsOf activityId db, row.versionNumber < row'.versionNumber
  activity : ∀ row, db.activities.find? activityId.val = some row →
    ∃ row', db'.activities.find? activityId.val = some row' ∧ row'.ownerId = row.ownerId
      ∧ row'.title = row.title ∧ row'.lifecycleState = row.lifecycleState

/--
What the table sees to: `UNIQUE(activity_id, version_number)`, and the numbers are in an `INTEGER` column.
-/
structure Constrained (db : Database) : Prop where
  unique : db.routeVersions.Indexed Imports.versionSlot
  integer : ∀ row ∈ db.routeVersions.rows, FitsI32 row.versionNumber

/--
The activity is the owner's and has not been deleted.
-/
def Owns (ownerId : Identity.UserId) (activityId : ActivityId) (db : Database) : Prop :=
  ∃ row, db.activities.find? activityId.val = some row ∧ row.ownerId = ownerId.val
    ∧ ActivityCatalog.PgActivityRepository.parseLifecycleState row.lifecycleState ≠ .deleted

def TitleReadable (activityId : ActivityId) (db : Database) : Prop :=
  ∀ row, db.activities.find? activityId.val = some row →
    ∃ title, ActivityCatalog.PgActivityRepository.readTitle row.title = .ok title

section Publications

variable {errors : SerdeErrors} {activityId : ActivityId} {ownerId : Identity.UserId} {db db' db'' : Database}

theorem Publications.refl (activityId : ActivityId) (db : Database) : Publications activityId db db where
  kept := fun _ hrow => hrow
  above := fun _ hrow => .inl hrow
  activity := fun row hrow => ⟨row, hrow, rfl, rfl, rfl⟩

theorem Publications.trans (h : Publications activityId db db') (h' : Publications activityId db' db'')
    : Publications activityId db db'' where
  kept := fun row hrow => h'.kept row (h.kept row hrow)
  above := by
    intro row'' hrow''
    obtain hrow' | habove := h'.above row'' hrow''
    . exact h.above row'' hrow'
    . exact .inr fun row hrow => habove row (h.kept row hrow)
  activity := by
    intro row hrow
    obtain ⟨row', hrow', howner, htitle, hstate⟩ := h.activity row hrow
    obtain ⟨row'', hrow'', howner', htitle', hstate'⟩ := h'.activity row' hrow'
    exact ⟨row'', hrow'', howner'.trans howner, htitle'.trans htitle, hstate'.trans hstate⟩

/--
A publication takes the number after the latest one.
-/
theorem publications_commit (externals : Externals) (data : PublicationCommitData) (activityId : ActivityId)
    (db : Database) : Publications activityId db (after (commit externals data) db) := by
  obtain ⟨hafter, _⟩ | ⟨_, result, draft, version, _, hpublished⟩ := commit_cases externals data db
  . rw [hafter]
    exact .refl activityId db
  . generalize after (commit externals data) db = db' at hpublished
    have hrows := Sql.Table.rows_insert? hpublished.inserted
    obtain ⟨coords, parent, _, hparent, hversion⟩ := hpublished.built
    obtain ⟨_, hof, hlatest⟩ := latestVersion_eq_ok hparent
    have hmem : ∀ row, row ∈ versionsOf activityId db'
        ↔ row ∈ versionsOf activityId db ∨ row = version ∧ version.activityId = activityId.val := by
      intro row
      rw [mem_versionsOf, mem_versionsOf, hrows, List.mem_append, List.mem_singleton, or_and_right]
      apply or_congr_right
      apply and_congr_right
      rintro rfl
      rfl
    constructor
    case kept => exact fun row hrow => (hmem row).mpr (.inl hrow)
    case above =>
      intro row' hrow'
      obtain hrow' | ⟨rfl, hid⟩ := (hmem row').mp hrow'
      . exact .inl hrow'
      . right
        intro row hrow
        obtain ⟨hrow, hid'⟩ := mem_versionsOf.mp hrow
        have hle := hlatest row (Sql.Table.find?_of_mem hrow)
        rw [hversion] at hid ⊢
        exact Int.lt_add_one_of_le (hle (hid'.trans hid.symm))
    case activity =>
      intro row hrow
      obtain ⟨json, _, hactivities⟩ := hpublished.activities
      rw [hactivities, ActivityCatalog.find?_updateCurrentVersion, hrow]
      refine ⟨_, rfl, ?_⟩
      dsimp only
      split
      . exact ⟨rfl, rfl, rfl⟩
      . exact ⟨rfl, rfl, rfl⟩

/-
The requests.
-/

theorem verifyActivityOwnership_of_owns (h : Owns ownerId activityId db)
    : verifyActivityOwnership activityId ownerId db.activities = .ok () ↔ TitleReadable activityId db := by
  obtain ⟨row, hrow, howner, hstate⟩ := h
  unfold verifyActivityOwnership TitleReadable ActivityCatalog.PgActivityRepository.findById
  simp only [hrow, Option.some.injEq, forall_eq', ActivityCatalog.PgActivityRepository.rowToActivity]
  cases htitle : ActivityCatalog.PgActivityRepository.readTitle row.title with
  | error e =>
    constructor
    . intro h
      cases e with
      | panic => cases h
      | err e => cases e <;> cases h
    . rintro ⟨title, h⟩
      cases h
  | ok title =>
    refine ⟨fun _ => ⟨title, rfl⟩, fun _ => ?_⟩
    exact if_pos ⟨congrArg Identity.UserId.mk howner, hstate⟩

theorem listRouteVersions_of_owns (howns : Owns ownerId activityId db) {cursor : Option String}
    {pageSize : Option Nat} {page : Page RouteVersion}
    : listRouteVersions errors activityId ownerId cursor pageSize db = .ok page
        ↔
      TitleReadable activityId db
        ∧ listByActivity errors activityId cursor (pageSizeOf pageSize) db
          = .ok page := by
  rw [← verifyActivityOwnership_of_owns howns]
  unfold listRouteVersions
  cases verifyActivityOwnership activityId ownerId db.activities with
  | error e =>
    constructor
    . intro h
      cases h
    . rintro ⟨h, _⟩
      cases h
  | ok u =>
    show Except.mapError Fault.err (listByActivity errors activityId cursor
      (pageSizeOf pageSize) db) = .ok page ↔ _
    generalize listByActivity errors activityId cursor
      (pageSizeOf pageSize) db = listed
    cases listed with
    | error e =>
      constructor
      . intro h
        cases h
      . rintro ⟨_, h⟩
        cases h
    | ok page' =>
      constructor
      . intro h
        cases h
        exact ⟨rfl, rfl⟩
      . rintro ⟨_, h⟩
        cases h
        rfl

theorem listRouteVersions_of_panic {row : ActivityCatalog.ActivityRow}
    (hrow : db.activities.find? activityId.val = some row)
    (htitle : ActivityCatalog.PgActivityRepository.readTitle row.title = .error .panic) (cursor : Option String)
    (pageSize : Option Nat)
    : listRouteVersions errors activityId ownerId cursor pageSize db = .error .panic := by
  have hverify : verifyActivityOwnership activityId ownerId db.activities = .error .panic := by
    unfold verifyActivityOwnership ActivityCatalog.PgActivityRepository.findById
      ActivityCatalog.PgActivityRepository.rowToActivity
    simp only [hrow, htitle]
    rfl
  unfold listRouteVersions
  rw [hverify]
  rfl

theorem Owns.publications (h : Owns ownerId activityId db) (hpublications : Publications activityId db db')
    : Owns ownerId activityId db' := by
  obtain ⟨row, hrow, howner, hstate⟩ := h
  obtain ⟨row', hrow', howner', _, hstate'⟩ := hpublications.activity row hrow
  exact ⟨row', hrow', howner'.trans howner, by rwa [hstate']⟩

theorem TitleReadable.publications (h : TitleReadable activityId db) (howns : Owns ownerId activityId db)
    (hpublications : Publications activityId db db') : TitleReadable activityId db' := by
  obtain ⟨row, hrow, _⟩ := howns
  obtain ⟨row', hrow', _, htitle, _⟩ := hpublications.activity row hrow
  intro other hother
  rw [hrow', Option.some.injEq] at hother
  rw [← hother, htitle]
  exact h row hrow

end Publications

section Run

def numbersOf (activityId : ActivityId) (db : Database) : List Int :=
  (Pagination.descending RouteVersionRow.versionNumber (versionsOf activityId db)).map (·.versionNumber)

-- the listing at the `k`-th request
def request (errors : SerdeErrors) (activityId : ActivityId) (ownerId : Identity.UserId)
    (pageSize : Nat → Option Nat) (dbs : Nat → Database) (k : Nat) (cursor : Option String)
    : Except (Fault RouteVersioningError) (Page RouteVersion) :=
  listRouteVersions errors activityId ownerId cursor (pageSize k) (dbs k)

variable {errors : SerdeErrors} {activityId : ActivityId} {ownerId : Identity.UserId}
    {pageSize : Nat → Option Nat} {dbs : Nat → Database} {db : Database}

theorem nodup_numbers (h : Constrained db) (activityId : ActivityId)
    : ((versionsOf activityId db).map RouteVersionRow.versionNumber).Nodup := by
  have hrows : (versionsOf activityId db).Nodup := (List.Nodup.of_map _ db.routeVersions.unique).filter _
  apply hrows.map_on
  intro row hrow row' hrow' hnumber
  obtain ⟨hrow, hid⟩ := mem_versionsOf.mp hrow
  obtain ⟨hrow', hid'⟩ := mem_versionsOf.mp hrow'
  apply h.unique.eq (Sql.Table.find?_of_mem hrow) (Sql.Table.find?_of_mem hrow') rfl
  rw [Imports.versionSlot, hid', ← hid, ← hnumber]

theorem parseCursor_of_rel {text : Option String} {cursor : Option Int}
    (h : Option.Rel (fun text n => parseI32 text = some n) text cursor) : parseCursor text = .ok cursor := by
  cases h with
  | none => rfl
  | some h => simp only [parseCursor, h]

theorem pageSizeOf_pos (pageSize : Option Nat) : 0 < pageSizeOf pageSize := by
  unfold pageSizeOf MAX_PAGE_SIZE
  omega

theorem keyset_request (howns : ∀ k, Owns ownerId activityId (dbs k)) (hconstrained : ∀ k, Constrained (dbs k))
    : Keyset RouteVersion.versionNumber (fun text n => parseI32 text = some n)
        (fun k => numbersOf activityId (dbs k)) (fun k => pageSizeOf (pageSize k))
        (request errors activityId ownerId pageSize dbs) where
  sorted := fun k => Pagination.sorted_descending (nodup_numbers (hconstrained k) activityId)
  positive := fun k => pageSizeOf_pos (pageSize k)
  serves := by
    intro k text cursor page htext hpage
    obtain ⟨_, hpage⟩ := (listRouteVersions_of_owns (howns k)).mp hpage
    obtain ⟨cursorVersion, rows, hcursor, hrows, hitems, hmore, hnext⟩ := listByActivity_eq_ok hpage
    rw [parseCursor_of_rel htext, Except.ok.injEq] at hcursor
    subst hcursor hrows
    apply Pagination.serves_of_rows (Pagination.map_descending_filter
      (nodup_numbers (hconstrained k) activityId) cursor)
    . exact hitems.imp fun _ _ hreads => hreads.columns.2
    . exact hmore
    . intro htrue version hlast
      rw [htrue, if_pos rfl, hlast] at hnext
      refine ⟨_, hnext, parseI32_toString ?_⟩
      obtain ⟨row, hrow, hreads⟩ := Pagination.exists_of_mem_forall₂ hitems (List.mem_of_getLast? hlast)
      rw [hreads.columns.2]
      have hrow := Pagination.mem_descending.mp (List.mem_of_mem_take (List.mem_of_mem_take hrow))
      exact (hconstrained k).integer row (mem_versionsOf.mp (List.mem_of_mem_filter hrow)).1

theorem page_reads (howns : ∀ k, Owns ownerId activityId (dbs k)) {k : Nat} {text : Option String}
    {cursor : Option Int} (htext : Option.Rel (fun text n => parseI32 text = some n) text cursor)
    {page : Page RouteVersion} (hpage : request errors activityId ownerId pageSize dbs k text = .ok page)
    {version : RouteVersion} (hversion : version ∈ page.items)
    : ∃ row ∈ versionsOf activityId (dbs k), Pagination.Below cursor row.versionNumber
        ∧ Reads errors row version := by
  obtain ⟨_, hpage⟩ := (listRouteVersions_of_owns (howns k)).mp hpage
  obtain ⟨cursorVersion, rows, hcursor, hrows, hitems, _⟩ := listByActivity_eq_ok hpage
  rw [parseCursor_of_rel htext, Except.ok.injEq] at hcursor
  subst hcursor hrows
  obtain ⟨row, hrow, hreads⟩ := Pagination.exists_of_mem_forall₂ hitems hversion
  have hrow := Pagination.mem_descending.mp (List.mem_of_mem_take (List.mem_of_mem_take hrow))
  obtain ⟨hrow, hbelow⟩ := List.mem_filter.mp hrow
  exact ⟨row, hrow, Pagination.all_iff_below.mp hbelow, hreads⟩

theorem publications_until (h : ∀ k, Publications activityId (dbs k) (dbs (k + 1))) (k : Nat)
    : Publications activityId (dbs 0) (dbs k) := by
  induction k with
  | zero => exact .refl activityId (dbs 0)
  | succ k ih => exact ih.trans (h k)

/--
What is below the cursor has been there at the first request.
-/
def Within (activityId : ActivityId) (dbs : Nat → Database) (k : Nat) (cursor : Option Int) : Prop :=
  ∀ row ∈ versionsOf activityId (dbs k), Pagination.Below cursor row.versionNumber →
    row ∈ versionsOf activityId (dbs 0)

theorem within_of_reaches (howns : ∀ k, Owns ownerId activityId (dbs k)) (hconstrained : ∀ k, Constrained (dbs k))
    (hpublications : ∀ k, Publications activityId (dbs k) (dbs (k + 1))) {k : Nat} {text : Option String}
    (h : Reaches (request errors activityId ownerId pageSize dbs) k text)
    : ∃ cursor, Option.Rel (fun text n => parseI32 text = some n) text cursor
        ∧ Within activityId dbs k cursor := by
  induction h with
  | first => exact ⟨none, .none, fun row hrow _ => hrow⟩
  | @next k text page _ hfetch hmore ih =>
    obtain ⟨cursor, htext, hwithin⟩ := ih
    obtain ⟨last, following, hlast, hnext, hcodes⟩ :=
      ((keyset_request howns hconstrained).serves k text cursor page htext hfetch).exists_last
        (pageSizeOf_pos (pageSize k)) hmore
    obtain ⟨row, hrow, hbelow, hreads⟩ := page_reads howns htext hfetch (List.mem_of_getLast? hlast)
    refine ⟨some last.versionNumber, ?_, ?_⟩
    . rw [hnext]
      exact .some hcodes
    . intro row' hrow' hbelow'
      obtain hthere | habove := (publications_until hpublications (k + 1)).above row' hrow'
      . exact hthere
      . have hlt := hbelow' _ rfl
        rw [hreads.columns.2] at hlt
        exact absurd (habove row (hwithin row hrow hbelow)) hlt.asymm

/--
The client meets every version that there was at the first request, once and in order, and no other; and it is
told that there is more as long as there is an older one.
-/
structure EnumeratesVersions (errors : SerdeErrors) (activityId : ActivityId) (dbs : Nat → Database)
    (pages : List (Page RouteVersion)) : Prop where
  order : (Pagination.items pages).Pairwise fun v w => w.versionNumber < v.versionNumber
  only : ∀ version ∈ Pagination.items pages, ∃ row ∈ versionsOf activityId (dbs 0), Reads errors row version
  once : ∀ row ∈ versionsOf activityId (dbs 0), ((Pagination.items pages).map (·.id.val)).count row.id = 1
  hasMore : ∀ (i : Nat) (page : Page RouteVersion), pages[i]? = some page → (page.hasMore = true
    ↔ ∃ row ∈ versionsOf activityId (dbs i),
      ∀ version ∈ Pagination.items (pages.take (i + 1)), row.versionNumber < version.versionNumber)

theorem enumeratesVersions_of_follows (howns : ∀ k, Owns ownerId activityId (dbs k))
    (hconstrained : ∀ k, Constrained (dbs k))
    (hpublications : ∀ k, Publications activityId (dbs k) (dbs (k + 1))) {pages : List (Page RouteVersion)}
    (h : Follows (request errors activityId ownerId pageSize dbs) 0 none pages)
    : EnumeratesVersions errors activityId dbs pages := by
  have henumerates := (keyset_request howns hconstrained).enumerates h .none
  have honly : ∀ version ∈ Pagination.items pages,
      ∃ row ∈ versionsOf activityId (dbs 0), Reads errors row version := by
    intro version hversion
    obtain ⟨i, page, hi, hversion⟩ := Pagination.mem_items.mp hversion
    obtain ⟨text, hreaches, hfetch⟩ := h.reaches .first hi
    obtain ⟨cursor, htext, hwithin⟩ := within_of_reaches howns hconstrained hpublications hreaches
    obtain ⟨row, hrow, hbelow, hreads⟩ := page_reads howns htext hfetch hversion
    exact ⟨row, hwithin row hrow hbelow, hreads⟩
  constructor
  case order => exact henumerates.decreasing
  case only => exact honly
  case once =>
    intro row hrow
    apply List.count_eq_one_of_mem
    . rw [List.Nodup, List.pairwise_map]
      apply henumerates.decreasing.imp_of_mem
      intro v w hv hw hlt hid
      obtain ⟨rowV, hrowV, hreadsV⟩ := honly v hv
      obtain ⟨rowW, hrowW, hreadsW⟩ := honly w hw
      rw [hreadsV.columns.1, hreadsW.columns.1] at hid
      have hsame := (dbs 0).routeVersions.eq_of_key_eq (mem_versionsOf.mp hrowV).1 (mem_versionsOf.mp hrowW).1 hid
      rw [hreadsV.columns.2, hreadsW.columns.2, hsame] at hlt
      exact lt_irrefl _ hlt
    . have hthere : ∀ i < pages.length, row.versionNumber ∈ numbersOf activityId (dbs (0 + i)) := by
        intro i _
        rw [Nat.zero_add]
        exact List.mem_map_of_mem (Pagination.mem_descending.mpr ((publications_until hpublications i).kept row hrow))
      obtain ⟨version, hversion, hnumber⟩ :=
        henumerates.complete row.versionNumber (fun c hc => by cases hc) hthere
      obtain ⟨row', hrow', hreads⟩ := honly version hversion
      have hsame : row' = row :=
        List.inj_on_of_nodup_map (nodup_numbers (hconstrained 0) activityId) hrow' hrow
          (hreads.columns.2.symm.trans hnumber)
      rw [← hsame, ← hreads.columns.1]
      exact List.mem_map_of_mem hversion
  case hasMore =>
    intro i page hi
    rw [henumerates.hasMore i page hi, Nat.zero_add]
    constructor
    . rintro ⟨x, hx, _, hleast⟩
      obtain ⟨row, hrow, rfl⟩ := List.mem_map.mp hx
      exact ⟨row, Pagination.mem_descending.mp hrow, hleast⟩
    . rintro ⟨row, hrow, hleast⟩
      exact ⟨_, List.mem_map_of_mem (Pagination.mem_descending.mpr hrow), fun c hc => (by cases hc), hleast⟩

theorem exists_page (howns : ∀ k, Owns ownerId activityId (dbs k)) {k : Nat}
    (htitle : TitleReadable activityId (dbs k))
    {text : Option String} {cursor : Option Int}
    (htext : Option.Rel (fun text n => parseI32 text = some n) text cursor)
    (h : ∀ row ∈ versionsOf activityId (dbs k), Pagination.Below cursor row.versionNumber → ReadableVersion errors row)
    : ∃ page, request errors activityId ownerId pageSize dbs k text = .ok page := by
  have hselected : ∀ row ∈ selectVersions activityId cursor (dbs k), ReadableVersion errors row := by
    intro row hrow
    obtain ⟨hrow, hbelow⟩ := List.mem_filter.mp (Pagination.mem_descending.mp hrow)
    exact h row hrow (Pagination.all_iff_below.mp hbelow)
  obtain ⟨page, hpage⟩ := listByActivity_of_readable (parseCursor_of_rel htext) (pageSizeOf (pageSize k)) hselected
  exact ⟨page, (listRouteVersions_of_owns (howns k)).mpr ⟨htitle, hpage⟩⟩

theorem settled_numbers (hpublications : ∀ k, Publications activityId (dbs k) (dbs (k + 1)))
    : Pagination.Settled (fun k => numbersOf activityId (dbs k)) 0 := by
  intro k _ x hx
  obtain ⟨row, hrow, rfl⟩ := List.mem_map.mp hx
  obtain hthere | habove := (hpublications k).above row (Pagination.mem_descending.mp hrow)
  . exact .inl (List.mem_map_of_mem (Pagination.mem_descending.mpr hthere))
  . right
    intro y hy
    obtain ⟨row', hrow', rfl⟩ := List.mem_map.mp hy
    exact habove row' (Pagination.mem_descending.mp hrow')

end Run

section Sample

-- the versions 1 to 3 of an activity
def listedVersion (n : Nat) : RouteVersion where
  id := ⟨⟨40 + n⟩⟩
  activityId := ⟨⟨2⟩⟩
  parentVersionId := none
  versionNumber := n
  geometry := [⟨.fin 46, .fin 7⟩, ⟨.fin 47, .fin 7⟩]
  boundingBox := ⟨⟨.fin 46, .fin 7⟩, ⟨.fin 47, .fin 7⟩⟩
  correctedStatistics := ⟨.fin 111195, 2, "v1.0"⟩
  calculationVersion := "v1.0"
  editSummary := none
  createdBy := ⟨⟨3⟩⟩
  createdAt := 0

def listedActivity (title : String) : ActivityCatalog.ActivityRow where
  id := ⟨2⟩
  ownerId := ⟨3⟩
  title
  activityType := "hike"
  startedAt := none
  endedAt := none
  currentRouteVersionId := none
  recordedSummaryJson := none
  correctedSummaryJson := none
  createdAt := 0
  updatedAt := 0

def listedDatabase (title : String) : Database where
  routeEditing := ⟨.empty, .empty⟩
  routeVersions := ⟨[1, 3, 2].map fun n => rowOfVersion (listedVersion n), by decide⟩
  activities := ⟨[listedActivity title], List.nodup_singleton _⟩
  outbox := .empty

def listedErrors : SerdeErrors := ⟨fun _ => "", fun _ => "", fun _ => ""⟩

theorem owns_listedDatabase (title : String) : Owns ⟨⟨3⟩⟩ ⟨⟨2⟩⟩ (listedDatabase title) := by
  refine ⟨listedActivity title, rfl, rfl, ?_⟩
  show ActivityCatalog.LifecycleState.active ≠ .deleted
  decide

theorem constrained_of_rows {db : Database} (hslots : (db.routeVersions.rows.map Imports.versionSlot).Nodup)
    (hnumbers : ∀ row ∈ db.routeVersions.rows, FitsI32 row.versionNumber) : Constrained db where
  unique := by
    intro k k' row row' v hrow hrow' hv hv'
    rw [← Sql.Table.key_of_find? hrow, ← Sql.Table.key_of_find? hrow']
    exact congrArg RouteVersionRow.id (List.inj_on_of_nodup_map hslots (Sql.Table.mem_of_find? hrow)
      (Sql.Table.mem_of_find? hrow') (hv.trans hv'.symm))
  integer := hnumbers

theorem readable_listedVersion {row : RouteVersionRow} (title : String)
    (h : row ∈ versionsOf ⟨⟨2⟩⟩ (listedDatabase title)) : ReadableVersion listedErrors row := by
  obtain ⟨n, _, rfl⟩ := List.mem_map.mp (mem_versionsOf.mp h).1
  exact ⟨listedVersion n, _, rfl, rfl⟩

-- a draft of the activity, and its publication as the version 4
def draftedDatabase : Database := { listedDatabase "Walk" with
  routeEditing := ⟨⟨[Transactions.sampleDraft ⟨10⟩], List.nodup_singleton _⟩, .empty⟩
}

def publishedDatabase : Database :=
  after (commit (Transactions.sampleExternals 20) ⟨⟨⟨10⟩⟩, 0, ⟨⟨3⟩⟩, ⟨30⟩, none⟩) draftedDatabase

-- the publication comes between the first request and the second
def listedRun : Nat → Database
  | 0 => draftedDatabase
  | _ + 1 => publishedDatabase

theorem constrained_draftedDatabase : Constrained draftedDatabase := constrained_of_rows (by decide) (by decide)

theorem constrained_publishedDatabase : Constrained publishedDatabase := constrained_of_rows (by decide) (by decide)

theorem constrained_listedRun (k : Nat) : Constrained (listedRun k) := by
  cases k with
  | zero => exact constrained_draftedDatabase
  | succ k => exact constrained_publishedDatabase

theorem publications_listedRun (k : Nat) : Publications ⟨⟨2⟩⟩ (listedRun k) (listedRun (k + 1)) := by
  cases k with
  | zero =>
    exact publications_commit (Transactions.sampleExternals 20) ⟨⟨⟨10⟩⟩, 0, ⟨⟨3⟩⟩, ⟨30⟩, none⟩ ⟨⟨2⟩⟩ draftedDatabase
  | succ k => exact .refl _ _

theorem not_follows_of_error {dbs : Nat → Database} {activityId : ActivityId} {ownerId : Identity.UserId}
    {e : Fault RouteVersioningError}
    (h : listRouteVersions listedErrors activityId ownerId none none (dbs 0) = .error e)
    : ¬∃ pages, Follows (request listedErrors activityId ownerId (fun _ => none) dbs) 0 none pages := by
  rintro ⟨pages, hfollows⟩
  cases hfollows with
  | last hfetch =>
    rw [request, h] at hfetch
    cases hfetch
  | more hfetch =>
    rw [request, h] at hfetch
    cases hfetch

end Sample

end RouteVersioning
