import Haiker.ActivityCatalog.Queries

/-!
This module contains that a client who follows the cursors of the activity listing meets every activity once that
is there all the time, as long as no title makes the listing panic.
-/

open Rust
open Identity (UserId)
open Pagination (Follows Keyset Page Reaches)

namespace ActivityCatalog

namespace PgActivityRepository

/--
What the column holds: whole microseconds.
-/
def Columns (activities : ActivityTable) : Prop :=
  ∀ row ∈ activities.rows, ∀ t ∈ row.startedAt, t.toTimestamptz = t

/-
The three queries have one condition: the row comes after the cursor in the order of the listing.
-/

theorem rank_lt_iff (position position' : Position)
    : position.rank < position'.rank
        ↔ position.startedAt.elim (⊥ : WithBot Timestamp) WithBot.some < position'.startedAt.elim ⊥ WithBot.some
          ∨ position.startedAt = position'.startedAt ∧ position.id.bits < position'.id.bits := by
  have hsame : ∀ s t : Option Timestamp,
      s.elim (⊥ : WithBot Timestamp) WithBot.some = t.elim ⊥ WithBot.some ↔ s = t := by
    intro s t
    cases s <;> cases t <;> simp
  unfold Position.rank
  rw [Prod.Lex.toLex_lt_toLex, hsame, ← BitVec.lt_def]

theorem isAfter_iff {position : Position} (h : ∀ t ∈ position.startedAt, t.toTimestamptz = t) (row : ActivityRow)
    : isAfter (some position) row = true ↔ (Position.ofRow row).rank < position.rank := by
  obtain ⟨startedAt, id⟩ := position
  rw [rank_lt_iff]
  unfold isAfter Position.ofRow
  cases startedAt with
  | none => cases row.startedAt <;> simp
  | some startedAt =>
    have hwhole := h startedAt rfl
    cases row.startedAt <;> simp [hwhole]

theorem filter_isAfter {cursor : Option Position} (h : ∀ position ∈ cursor, ∀ t ∈ position.startedAt,
      t.toTimestamptz = t) (rows : List ActivityRow)
    : rows.filter (isAfter cursor)
        = rows.filter fun row => (cursor.map Position.rank).all ((Position.ofRow row).rank < ·) := by
  apply List.filter_congr
  intro row _
  cases cursor with
  | none => rfl
  | some position =>
    rw [Bool.eq_iff_iff, isAfter_iff (h position rfl)]
    simp

theorem mem_ownedActivities {ownerId : UserId} {activities : ActivityTable} {row : ActivityRow}
    : row ∈ ownedActivities ownerId activities
        ↔ row ∈ activities.rows ∧ row.ownerId = ownerId.val ∧ row.lifecycleState ≠ "deleted" := by
  unfold ownedActivities
  rw [List.mem_filter, decide_eq_true_eq]

theorem id_eq_of_rank_eq {position position' : Position} (h : position.rank = position'.rank)
    : position.id = position'.id := by
  have hbits := congrArg (fun rank => (ofLex rank).2) h
  exact congrArg Uuid.mk (BitVec.eq_of_toNat_eq hbits)

-- no two rows have the same place in the order
theorem nodup_ranks (ownerId : UserId) (activities : ActivityTable)
    : ((ownedActivities ownerId activities).map fun row => (Position.ofRow row).rank).Nodup := by
  have hids : ((ownedActivities ownerId activities).map ActivityRow.id).Nodup :=
    activities.unique.sublist (List.filter_sublist.map ActivityRow.id)
  apply (List.Nodup.of_map _ hids).map_on
  intro row hrow row' hrow' hrank
  exact activities.eq_of_key_eq (mem_ownedActivities.mp hrow).1 (mem_ownedActivities.mp hrow').1
    (id_eq_of_rank_eq hrank)

/-
The rows as activities.
-/

def TitleReadable (row : ActivityRow) : Prop := ∃ title, readTitle row.title = .ok title

theorem rowToActivity_eq_ok {row : ActivityRow} {activity : Activity} (h : rowToActivity row = .ok activity)
    : TitleReadable row ∧ activity.id.val = row.id ∧ activity.ownerId.val = row.ownerId
        ∧ activity.startedAt = row.startedAt
        ∧ activity.lifecycleState = parseLifecycleState row.lifecycleState := by
  unfold rowToActivity at h
  cases htitle : readTitle row.title with
  | error e =>
    rw [htitle] at h
    cases h
  | ok title =>
    rw [htitle] at h
    cases h
    exact ⟨⟨title, htitle⟩, rfl, rfl, rfl, rfl⟩

theorem exists_rowToActivity {row : ActivityRow} (h : TitleReadable row)
    : ∃ activity, rowToActivity row = .ok activity := by
  obtain ⟨title, htitle⟩ := h
  unfold rowToActivity
  rw [htitle]
  exact ⟨_, rfl⟩

/--
What the listing has made its page of.
-/
theorem listActivities_eq_ok {externals : CursorExternals} {ownerId : UserId} {cursor : Option String}
    {pageSize : Nat} {activities : ActivityTable} {page : Page Activity}
    (h : listActivities externals ownerId cursor pageSize activities = .ok page)
    : ∃ position rows, readCursor externals cursor = .ok position
        ∧ rows = (selectActivities ownerId position activities).take (pageSize + 1)
        ∧ List.Forall₂ (fun row activity => rowToActivity row = .ok activity) (rows.take pageSize) page.items
        ∧ page.hasMore = decide (pageSize < rows.length)
        ∧ page.nextCursor
          = if page.hasMore then page.items.getLast?.map (cursorOf externals) else none := by
  unfold listActivities at h
  cases hcursor : readCursor externals cursor with
  | error e =>
    rw [hcursor] at h
    cases h
  | ok position =>
    rw [hcursor] at h
    cases hitems : (((selectActivities ownerId position activities).take (pageSize + 1)).take pageSize).mapM
        rowToActivity with
    | error e =>
      simp only [Except.mapError, bind, Except.bind, hitems] at h
      cases h
    | ok items =>
      simp only [Except.mapError, bind, Except.bind, hitems] at h
      cases h
      exact ⟨position, _, rfl, rfl, Pagination.mapM_eq_ok_iff.mp hitems, rfl, rfl⟩

theorem exists_listActivities {externals : CursorExternals} {ownerId : UserId} {cursor : Option String}
    {position : Option Position} (hcursor : readCursor externals cursor = .ok position) (pageSize : Nat)
    {activities : ActivityTable}
    (h : ∀ row ∈ (selectActivities ownerId position activities).take pageSize, TitleReadable row)
    : ∃ page, listActivities externals ownerId cursor pageSize activities = .ok page := by
  have hdue : ((selectActivities ownerId position activities).take (pageSize + 1)).take pageSize
      = (selectActivities ownerId position activities).take pageSize := by
    rw [List.take_take, Nat.min_eq_left (Nat.le_succ pageSize)]
  obtain ⟨items, hitems⟩ := Pagination.exists_mapM fun row hrow => exists_rowToActivity (h row hrow)
  unfold listActivities
  simp only [hcursor, Except.mapError, bind, Except.bind, hdue, hitems]
  exact ⟨_, rfl⟩

/-
The cursors.
-/

def payloadOf (externals : CursorExternals) (row : ActivityRow) : CursorPayload where
  startedAt := row.startedAt.map externals.timestampToString
  id := row.id.hyphenated

/--
What is written into the cursors of these activities is read back as it was.
-/
structure Lossless (externals : CursorExternals) (activities : ActivityTable) : Prop where
  payload : ∀ row ∈ activities.rows,
    externals.payloadFromString (externals.payloadToString (payloadOf externals row)) = some (payloadOf externals row)
  timestamp : ∀ row ∈ activities.rows, ∀ t ∈ row.startedAt,
    externals.parseTimestamp (externals.timestampToString t) = some t
  uuid : ∀ row ∈ activities.rows, externals.parseUuid row.id.hyphenated = some row.id

theorem readCursor_cursorOf {externals : CursorExternals} {activities : ActivityTable}
    (h : Lossless externals activities) {row : ActivityRow} (hrow : row ∈ activities.rows) {activity : Activity}
    (hread : rowToActivity row = .ok activity)
    : readCursor externals (some (cursorOf externals activity)) = .ok (some (Position.ofRow row)) := by
  obtain ⟨_, hid, _, hstarted, _⟩ := rowToActivity_eq_ok hread
  have hcursor : cursorOf externals activity = encodeCursor externals (payloadOf externals row) := by
    unfold cursorOf payloadOf
    rw [hid, hstarted]
  have hdecode : decodeCursor externals (cursorOf externals activity) = .ok (payloadOf externals row) := by
    rw [hcursor]
    exact decodeCursor_encodeCursor (h.payload row hrow)
  unfold readCursor
  simp only [hdecode, bind, Except.bind]
  have huuid : externals.parseUuid (payloadOf externals row).id = some row.id := h.uuid row hrow
  rw [huuid]
  cases hrowStarted : row.startedAt with
  | none =>
    have hnone : (payloadOf externals row).startedAt = none := by simp [payloadOf, hrowStarted]
    simp [hnone, Position.ofRow, hrowStarted, pure, Except.pure]
  | some t =>
    have hsome : (payloadOf externals row).startedAt = some (externals.timestampToString t) := by
      simp [payloadOf, hrowStarted]
    simp [hsome, h.timestamp row hrow t hrowStarted, Position.ofRow, hrowStarted, pure, Except.pure]

/--
The text is the cursor for this place in the order.
-/
def Codes (externals : CursorExternals) (text : String) (rank : WithBot Timestamp ×ₗ Nat) : Prop :=
  ∃ position, readCursor externals (some text) = .ok (some position)
    ∧ (∀ t ∈ position.startedAt, t.toTimestamptz = t) ∧ position.rank = rank

theorem exists_position {externals : CursorExternals} {text : Option String}
    {cursor : Option (WithBot Timestamp ×ₗ Nat)} (h : Option.Rel (Codes externals) text cursor)
    : ∃ position, readCursor externals text = .ok position ∧ position.map Position.rank = cursor
        ∧ ∀ p ∈ position, ∀ t ∈ p.startedAt, t.toTimestamptz = t := by
  cases h with
  | none => exact ⟨none, rfl, rfl, fun _ hp => by cases hp⟩
  | some h =>
    obtain ⟨position, hread, hwhole, hrank⟩ := h
    refine ⟨some position, hread, congrArg some hrank, ?_⟩
    rintro _ ⟨⟩
    exact hwhole

end PgActivityRepository

open PgActivityRepository

/-
The requests of a client.
-/

section Run

-- the listing at the `k`-th request
def request (externals : CursorExternals) (ownerId : UserId) (pageSize : Nat → Option Nat)
    (tables : Nat → ActivityTable) (k : Nat) (cursor : Option String)
    : Except (Fault ActivityCatalogError) (Page Activity) :=
  listActivities externals ownerId cursor (pageSize k) (tables k)

/--
What happens between two requests: activities are added and deleted, or changed in other columns than these.
-/
def Changes (activities activities' : ActivityTable) : Prop :=
  ∀ row ∈ activities.rows, ∀ row' ∈ activities'.rows, row'.id = row.id →
    row'.startedAt = row.startedAt ∧ row'.ownerId = row.ownerId

def rankOf (activity : Activity) : WithBot Timestamp ×ₗ Nat := Position.rank ⟨activity.startedAt, activity.id.val⟩

def ranksOf (ownerId : UserId) (activities : ActivityTable) : List (WithBot Timestamp ×ₗ Nat) :=
  (Pagination.descending (fun row => (Position.ofRow row).rank) (ownedActivities ownerId activities)).map
    fun row => (Position.ofRow row).rank

variable {externals : CursorExternals} {ownerId : UserId} {pageSize : Nat → Option Nat}
    {tables : Nat → ActivityTable} (hlossless : ∀ k, Lossless externals (tables k))
    (hcolumns : ∀ k, Columns (tables k))

theorem rankOf_of_row {row : ActivityRow} {activity : Activity} (h : rowToActivity row = .ok activity)
    : rankOf activity = (Position.ofRow row).rank := by
  obtain ⟨_, hid, _, hstarted, _⟩ := rowToActivity_eq_ok h
  unfold rankOf Position.ofRow
  rw [hid, hstarted]

theorem mem_ranksOf {activities : ActivityTable} {rank : WithBot Timestamp ×ₗ Nat}
    : rank ∈ ranksOf ownerId activities
        ↔ ∃ row ∈ ownedActivities ownerId activities, (Position.ofRow row).rank = rank := by
  unfold ranksOf
  rw [List.mem_map]
  simp only [Pagination.mem_descending]

theorem pageSizeOf_pos (pageSize : Option Nat) : 0 < pageSizeOf pageSize := by
  unfold pageSizeOf MAX_PAGE_SIZE
  omega

-- no page has a deleted activity or one of another owner
theorem page_reads {k : Nat} {text : Option String} {page : Page Activity}
    (hpage : request externals ownerId pageSize tables k text = .ok page) {activity : Activity}
    (hactivity : activity ∈ page.items)
    : ∃ row ∈ ownedActivities ownerId (tables k), rowToActivity row = .ok activity := by
  obtain ⟨position, rows, _, hrows, hitems, _⟩ := listActivities_eq_ok hpage
  subst hrows
  obtain ⟨row, hrow, hread⟩ := Pagination.exists_of_mem_forall₂ hitems hactivity
  have hrow := Pagination.mem_descending.mp (List.mem_of_mem_take (List.mem_of_mem_take hrow))
  exact ⟨row, List.mem_of_mem_filter hrow, hread⟩

/--
The owner's activity is there undeleted at the first `n` requests.
-/
def Throughout (ownerId : UserId) (tables : Nat → ActivityTable) (n : Nat) (id : Uuid) : Prop :=
  ∀ i < n, ∃ row ∈ ownedActivities ownerId (tables i), row.id = id

/--
The client meets what is there all the time once, nothing that is deleted or somebody else's, and all of it in
the order of the listing.
-/
structure EnumeratesActivities (ownerId : UserId) (tables : Nat → ActivityTable) (pages : List (Page Activity))
    : Prop where
  order : (Pagination.items pages).Pairwise fun a b => rankOf b < rankOf a
  once : ∀ id, Throughout ownerId tables pages.length id →
    ((Pagination.items pages).map (·.id.val)).count id = 1
  only : ∀ i page, pages[i]? = some page → ∀ activity ∈ page.items,
    ∃ row ∈ ownedActivities ownerId (tables i), rowToActivity row = .ok activity

/--
No title of the activities that are due on a page makes the request panic.
-/
def DueReadable (externals : CursorExternals) (ownerId : UserId) (cursor : Option String) (pageSize : Nat)
    (activities : ActivityTable) : Prop :=
  ∀ position, readCursor externals cursor = .ok position →
    ∀ row ∈ (selectActivities ownerId position activities).take pageSize, TitleReadable row

-- a place in the order that no two items share
theorem count_map_eq_one {α β : Type} [DecidableEq β] {f : α → β} {items : List α} {b : β}
    (hmem : b ∈ items.map f) (h : items.Pairwise fun x y => f x = b → f y ≠ b) : (items.map f).count b = 1 := by
  induction items with
  | nil => cases hmem
  | cons a items ih =>
    obtain ⟨hfirst, hrest⟩ := List.pairwise_cons.mp h
    rw [List.map_cons, List.count_cons]
    by_cases ha : f a = b
    . have hnone : (items.map f).count b = 0 := by
        rw [List.count_eq_zero]
        rintro hlater
        obtain ⟨y, hy, hyb⟩ := List.mem_map.mp hlater
        exact hfirst y hy ha hyb
      simp [hnone, ha]
    . have hlater : b ∈ items.map f := by
        rw [List.map_cons, List.mem_cons] at hmem
        exact hmem.resolve_left (Ne.symm ha)
      simp [ih hlater hrest, ha]

-- what is there all the time keeps its place
theorem Throughout.exists_rank (hchanges : ∀ k, Changes (tables k) (tables (k + 1))) {n : Nat} {id : Uuid}
    (h : Throughout ownerId tables n id) (hn : 0 < n)
    : ∃ rank, ∀ i < n, ∀ row ∈ ownedActivities ownerId (tables i), row.id = id →
        (Position.ofRow row).rank = rank := by
  obtain ⟨first, hfirst, hid⟩ := h 0 hn
  refine ⟨(Position.ofRow first).rank, ?_⟩
  have hstarted : ∀ i < n, ∀ row ∈ ownedActivities ownerId (tables i), row.id = id →
      row.startedAt = first.startedAt := by
    intro i
    induction i with
    | zero =>
      intro _ row hrow hrowId
      rw [(tables 0).eq_of_key_eq (mem_ownedActivities.mp hrow).1 (mem_ownedActivities.mp hfirst).1
        (hrowId.trans hid.symm)]
    | succ i ih =>
      intro hi row hrow hrowId
      obtain ⟨before, hbefore, hbeforeId⟩ := h i (by omega)
      have hsame := hchanges i before (mem_ownedActivities.mp hbefore).1 row (mem_ownedActivities.mp hrow).1
        (hrowId.trans hbeforeId.symm)
      rw [hsame.1]
      exact ih (by omega) before hbefore hbeforeId
  intro i hi row hrow hrowId
  unfold Position.ofRow
  rw [hstarted i hi row hrow hrowId, hrowId, hid]

include hlossless hcolumns

theorem keyset_request
    : Keyset rankOf (Codes externals) (fun k => ranksOf ownerId (tables k)) (fun k => pageSizeOf (pageSize k))
        (request externals ownerId pageSize tables) where
  sorted := fun k => Pagination.sorted_descending (nodup_ranks ownerId (tables k))
  positive := fun k => pageSizeOf_pos (pageSize k)
  serves := by
    intro k text cursor page htext hpage
    obtain ⟨position, rows, hcursor, hrows, hitems, hmore, hnext⟩ := listActivities_eq_ok hpage
    obtain ⟨position', hcursor', hrank, hwhole⟩ := exists_position htext
    rw [hcursor, Except.ok.injEq] at hcursor'
    subst hcursor' hrows hrank
    have hselect : (selectActivities ownerId position (tables k)).map (fun row => (Position.ofRow row).rank)
        = Pagination.rest (position.map Position.rank) (ranksOf ownerId (tables k)) := by
      unfold selectActivities
      rw [filter_isAfter hwhole]
      exact Pagination.map_descending_filter (nodup_ranks ownerId (tables k)) _
    apply Pagination.serves_of_rows hselect
    . exact hitems.imp fun _ _ hread => rankOf_of_row hread
    . exact hmore
    . intro htrue last hlast
      rw [htrue, if_pos rfl, hlast] at hnext
      obtain ⟨row, hrow, hread⟩ := Pagination.exists_of_mem_forall₂ hitems (List.mem_of_getLast? hlast)
      have hrow := Pagination.mem_descending.mp (List.mem_of_mem_take (List.mem_of_mem_take hrow))
      have hrow := (mem_ownedActivities.mp (List.mem_of_mem_filter hrow)).1
      exact ⟨_, hnext, Position.ofRow row, readCursor_cursorOf (hlossless k) hrow hread, hcolumns k row hrow,
        (rankOf_of_row hread).symm⟩

theorem enumeratesActivities_of_follows (hchanges : ∀ k, Changes (tables k) (tables (k + 1)))
    {pages : List (Page Activity)} (h : Follows (request externals ownerId pageSize tables) 0 none pages)
    : EnumeratesActivities ownerId tables pages := by
  have henumerates := (keyset_request hlossless hcolumns).enumerates h .none
  have honly : ∀ i page, pages[i]? = some page → ∀ activity ∈ page.items,
      ∃ row ∈ ownedActivities ownerId (tables i), rowToActivity row = .ok activity := by
    intro i page hi activity hactivity
    obtain ⟨text, _, hfetch⟩ := h.reaches .first hi
    rw [Nat.zero_add] at hfetch
    exact page_reads hfetch hactivity
  constructor
  case order => exact henumerates.decreasing
  case only => exact honly
  case once =>
    intro id hthere
    have hpages : 0 < pages.length := by cases h <;> exact Nat.succ_pos _
    obtain ⟨rank, hrank⟩ := hthere.exists_rank hchanges hpages
    -- whoever has the id has this place
    have hplace : ∀ activity ∈ Pagination.items pages, activity.id.val = id → rankOf activity = rank := by
      intro activity hactivity hid
      obtain ⟨i, page, hi, hactivity⟩ := Pagination.mem_items.mp hactivity
      obtain ⟨row, hrow, hread⟩ := honly i page hi activity hactivity
      rw [rankOf_of_row hread]
      apply hrank i (List.getElem?_eq_some_iff.mp hi).1 row hrow
      rw [← (rowToActivity_eq_ok hread).2.1, hid]
    apply count_map_eq_one
    . have hkeys : ∀ i < pages.length, rank ∈ ranksOf ownerId (tables (0 + i)) := by
        intro i hi
        rw [Nat.zero_add]
        obtain ⟨row, hrow, hid⟩ := hthere i hi
        exact mem_ranksOf.mpr ⟨row, hrow, hrank i hi row hrow hid⟩
      obtain ⟨activity, hactivity, hactivityRank⟩ :=
        henumerates.complete rank (fun c hc => by cases hc) hkeys
      obtain ⟨row, hrow, hid⟩ := hthere 0 hpages
      have hsame : (Position.ofRow row).rank = rankOf activity := by
        rw [hrank 0 hpages row hrow hid, hactivityRank]
      have hactivityId : activity.id.val = id := (id_eq_of_rank_eq hsame).symm.trans hid
      rw [← hactivityId]
      exact List.mem_map_of_mem hactivity
    . apply henumerates.decreasing.imp_of_mem
      intro a b ha hb hlt hida hidb
      rw [hplace a ha hida, hplace b hb hidb] at hlt
      exact lt_irrefl _ hlt

/--
The listing answers every request that a client comes to, enumerates the activities whatever is added and
deleted in the meantime, and comes to an end once nothing more is added below, if and only if none of the
activities that are due on a page has a title that cannot be read.
-/
theorem list_activities_enumerates_iff (hchanges : ∀ k, Changes (tables k) (tables (k + 1)))
    : ((∀ k text, Reaches (request externals ownerId pageSize tables) k text →
          ∃ page, request externals ownerId pageSize tables k text = .ok page)
        ∧ (∀ pages, Follows (request externals ownerId pageSize tables) 0 none pages →
          EnumeratesActivities ownerId tables pages)
        ∧ ∀ n, Pagination.Settled (fun k => ranksOf ownerId (tables k)) n →
          ∃ pages, Follows (request externals ownerId pageSize tables) 0 none pages)
      ↔
    ∀ k text, Reaches (request externals ownerId pageSize tables) k text →
      DueReadable externals ownerId text (pageSizeOf (pageSize k)) (tables k) := by
  constructor
  . rintro ⟨hanswered, _⟩ k text hreaches position hposition row hrow
    obtain ⟨page, hpage⟩ := hanswered k text hreaches
    obtain ⟨position', rows, hcursor, hrows, hitems, _⟩ := listActivities_eq_ok hpage
    rw [hposition, Except.ok.injEq] at hcursor
    subst hcursor hrows
    rw [List.take_take, Nat.min_eq_left (Nat.le_succ _)] at hitems
    obtain ⟨i, hi, hget⟩ := List.mem_iff_getElem.mp hrow
    obtain ⟨activity, hread⟩ : ∃ activity, rowToActivity row = .ok activity := by
      have hget' := (List.forall₂_iff_get.mp hitems).2 i hi (hitems.length_eq ▸ hi)
      rw [List.get_eq_getElem, hget] at hget'
      exact ⟨_, hget'⟩
    exact (rowToActivity_eq_ok hread).1
  . intro hreadable
    have hanswered : ∀ k text, Reaches (request externals ownerId pageSize tables) k text →
        ∃ page, request externals ownerId pageSize tables k text = .ok page := by
      intro k text hreaches
      obtain ⟨cursor, htext⟩ := (keyset_request hlossless hcolumns).rel_of_reaches hreaches
      obtain ⟨position, hposition, _, _⟩ := exists_position htext
      exact exists_listActivities hposition _ (hreadable k text hreaches position hposition)
    refine ⟨hanswered, fun pages h => enumeratesActivities_of_follows hlossless hcolumns hchanges h, ?_⟩
    intro n hsettled
    exact (keyset_request hlossless hcolumns).exists_follows hsettled hanswered .first .none

end Run

section Sample

def listedActivity (id : BitVec 128) (title : String) (startedAt : Option Timestamp) (lifecycleState : String)
    : ActivityRow where
  id := ⟨id⟩
  ownerId := ⟨3⟩
  title
  activityType := "hike"
  startedAt
  endedAt := none
  currentRouteVersionId := none
  recordedSummaryJson := none
  correctedSummaryJson := none
  createdAt := 0
  updatedAt := 0
  lifecycleState

-- two activities that start at the same time and two that have no start
def listedBefore : ActivityTable where
  rows := [listedActivity 40 "Walk" none "active", listedActivity 10 "Walk" (some 0) "active",
    listedActivity 30 "Walk" none "active", listedActivity 20 "Walk" (some 0) "active"]
  unique := by decide

-- another one is new, and one is deleted
def listedAfter : ActivityTable where
  rows := [listedActivity 40 "Walk" none "active", listedActivity 10 "Walk" (some 0) "active",
    listedActivity 30 "Walk" none "deleted", listedActivity 20 "Walk" (some 0) "active",
    listedActivity 50 "Walk" (some 0) "active"]
  unique := by decide

-- the changes come between the first request and the second
def listedRun : Nat → ActivityTable
  | 0 => listedBefore
  | _ + 1 => listedAfter

def payloadText (payload : CursorPayload) : String :=
  "\x7b\"started_at\":" ++ payload.startedAt.elim "null" (fun text => "\"" ++ text ++ "\"")
    ++ ",\"id\":\"" ++ payload.id ++ "\"\x7d"

def listedIds : List Uuid := [⟨10⟩, ⟨20⟩, ⟨30⟩, ⟨40⟩, ⟨50⟩]

def listedPayloads : List CursorPayload :=
  listedIds.flatMap fun id => [⟨none, id.hyphenated⟩, ⟨some "1970-01-01T00:00:00+00:00", id.hyphenated⟩]

def listedExternals : CursorExternals where
  payloadToString := payloadText
  payloadFromString := fun text => listedPayloads.find? fun payload => payloadText payload = text
  timestampToString := fun _ => "1970-01-01T00:00:00+00:00"
  parseTimestamp := fun text => if text = "1970-01-01T00:00:00+00:00" then some 0 else none
  parseUuid := fun text => listedIds.find? fun id => id.hyphenated = text

example : payloadText (payloadOf listedExternals (listedActivity 10 "Walk" (some 0) "active"))
    = "\x7b\"started_at\":\"1970-01-01T00:00:00+00:00\",\"id\":\"00000000-0000-0000-0000-00000000000a\"\x7d" := by
  decide

theorem lossless_listedBefore : Lossless listedExternals listedBefore := by constructor <;> decide

theorem lossless_listedAfter : Lossless listedExternals listedAfter := by constructor <;> decide

theorem lossless_listedRun (k : Nat) : Lossless listedExternals (listedRun k) := by
  cases k with
  | zero => exact lossless_listedBefore
  | succ k => exact lossless_listedAfter

theorem columns_listedRun (k : Nat) : Columns (listedRun k) := by
  have hbefore : Columns listedBefore := by
    unfold Columns
    decide
  have hafter : Columns listedAfter := by
    unfold Columns
    decide
  cases k with
  | zero => exact hbefore
  | succ k => exact hafter

theorem changes_listedRun (k : Nat) : Changes (listedRun k) (listedRun (k + 1)) := by
  have hbefore : Changes listedBefore listedAfter := by
    unfold Changes
    decide
  have hafter : Changes listedAfter listedAfter := by
    unfold Changes
    decide
  cases k with
  | zero => exact hbefore
  | succ k => exact hafter

theorem titles_listedRun (k : Nat) : ∀ row ∈ (listedRun k).rows, row.title = "Walk" := by
  have hbefore : ∀ row ∈ listedBefore.rows, row.title = "Walk" := by decide
  have hafter : ∀ row ∈ listedAfter.rows, row.title = "Walk" := by decide
  cases k with
  | zero => exact hbefore
  | succ k => exact hafter

-- pages of two activities each
theorem list_activities_enumerates_iff_listedRun
    : (∀ pages, Follows (request listedExternals ⟨⟨3⟩⟩ (fun _ => some 2) listedRun) 0 none pages →
        EnumeratesActivities ⟨⟨3⟩⟩ listedRun pages)
      ∧ ∃ pages, Follows (request listedExternals ⟨⟨3⟩⟩ (fun _ => some 2) listedRun) 0 none pages := by
  have hreadable : ∀ k text, Reaches (request listedExternals ⟨⟨3⟩⟩ (fun _ => some 2) listedRun) k text →
      DueReadable listedExternals ⟨⟨3⟩⟩ text (pageSizeOf (some 2)) (listedRun k) := by
    intro k text _ position _ row hrow
    have hrow := Pagination.mem_descending.mp (List.mem_of_mem_take hrow)
    unfold TitleReadable
    rw [titles_listedRun k row (mem_ownedActivities.mp (List.mem_of_mem_filter hrow)).1]
    exact ⟨⟨"Walk", by decide⟩, rfl⟩
  obtain ⟨_, henumerates, hends⟩ := (list_activities_enumerates_iff lossless_listedRun columns_listedRun
    changes_listedRun).mpr hreadable
  refine ⟨henumerates, hends 1 ?_⟩
  intro k hk rank hrank
  obtain ⟨k, rfl⟩ := Nat.exists_eq_add_of_le' hk
  exact .inl hrank

def listedTitled (title : String) : ActivityTable where
  rows := [listedActivity 10 title (some 0) "active"]
  unique := List.nodup_singleton _

theorem selectActivities_listedTitled (title : String)
    : selectActivities ⟨⟨3⟩⟩ none (listedTitled title) = [listedActivity 10 title (some 0) "active"] := rfl

theorem listActivities_listedTitled {title : String} (h : readTitle title = .error .panic)
    : listActivities listedExternals ⟨⟨3⟩⟩ none none (listedTitled title) = .error .panic := by
  have hrow : rowToActivity (listedActivity 10 title (some 0) "active") = .error .panic := by
    have htitle : readTitle (listedActivity 10 title (some 0) "active").title = .error .panic := h
    unfold rowToActivity
    rw [htitle]
    rfl
  have hitems : [listedActivity 10 title (some 0) "active"].mapM rowToActivity = .error .panic := by
    rw [List.mapM_cons, hrow]
    rfl
  have hdue : (([listedActivity 10 title (some 0) "active"].take (pageSizeOf none + 1)).take (pageSizeOf none)).mapM
      rowToActivity = .error .panic := hitems
  unfold listActivities PgActivityRepository.listActivities readCursor
  simp only [Except.mapError, bind, Except.bind, pure, Except.pure, selectActivities_listedTitled, hdue]

/--
With such a title there is no page at all.
-/
theorem activities_not_listed
    : listActivities listedExternals ⟨⟨3⟩⟩ none none (listedTitled longTitle) = .error .panic
        ∧ ¬∃ pages, Follows (request listedExternals ⟨⟨3⟩⟩ (fun _ => none) fun _ => listedTitled longTitle)
          0 none pages := by
  have hpanic : listActivities listedExternals ⟨⟨3⟩⟩ none none (listedTitled longTitle)
      = .error .panic := listActivities_listedTitled readTitle_longTitle
  refine ⟨hpanic, ?_⟩
  have hnone : ∀ page, request listedExternals ⟨⟨3⟩⟩ (fun _ => none) (fun _ => listedTitled longTitle) 0 none
      ≠ .ok page := by
    intro page hpage
    unfold request at hpage
    rw [hpanic] at hpage
    cases hpage
  rintro ⟨pages, hfollows⟩
  cases hfollows with
  | last hfetch => exact hnone _ hfetch
  | more hfetch => exact hnone _ hfetch

end Sample

end ActivityCatalog
