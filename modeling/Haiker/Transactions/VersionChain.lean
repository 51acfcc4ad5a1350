import Haiker.Transactions.Sound

/-!
This module contains that the versions of an activity are a chain, whatever transactions are at work. A
publication goes on from the version that it has read as the latest; the unique index refuses it if
another one has done so before.
-/

open Rust
open ActivityCatalog (ActivityRow)
open Interleaving
open RouteVersioning

namespace Transactions

/--
The versions of the activity, from the first to the current one.
-/
structure VersionChain (db : RouteVersioning.Database) (activity : ActivityRow)
    (chain : List RouteVersionRow) : Prop where
  mem_iff : ∀ row, row ∈ chain
    ↔ db.routeVersions.find? row.id = some row ∧ row.activityId = activity.id
  numbers : chain.map (·.versionNumber) = (List.range chain.length).map fun k : Nat => (k : Int) + 1
  parents : chain.map (·.parentVersionId) = none :: chain.dropLast.map fun row => some row.id
  current : activity.currentRouteVersionId = chain.getLast?.map (·.id)

structure Chained (db : RouteVersioning.Database) : Prop where
  chain : ∀ activity, db.activities.find? activity.id = some activity →
    ∃ chain, VersionChain db activity chain
  activity : db.routeVersions.Refers RouteVersionRow.activityId db.activities

variable {db db' : RouteVersioning.Database} {activity : ActivityRow} {chain : List RouteVersionRow}

theorem VersionChain.number_of_getElem? (h : VersionChain db activity chain) {k : Nat}
    {row : RouteVersionRow} (hk : chain[k]? = some row) : row.versionNumber = k + 1 := by
  have hnumber : (chain.map (·.versionNumber))[k]? = some row.versionNumber := by
    rw [List.getElem?_map, hk, Option.map_some]
  rw [h.numbers, List.getElem?_map, Option.map_eq_some_iff] at hnumber
  obtain ⟨n, hn, hrow⟩ := hnumber
  obtain ⟨hlt, hn⟩ := List.getElem?_eq_some_iff.mp hn
  rw [List.getElem_range] at hn
  rw [← hrow, ← hn]

theorem VersionChain.last_of_no_next (h : VersionChain db activity chain) {parent : RouteVersionRow}
    (hparent : parent ∈ chain)
    (hnext : ∀ row ∈ chain, row.versionNumber ≠ parent.versionNumber + 1)
    : ∃ before, chain = before ++ [parent] := by
  obtain ⟨k, hk⟩ := List.getElem?_of_mem hparent
  have hnumber := h.number_of_getElem? hk
  have hlast : chain.length = k + 1 := by
    obtain ⟨hlt, _⟩ := List.getElem?_eq_some_iff.mp hk
    by_contra hne
    have hlt' : k + 1 < chain.length := by omega
    have hnumber' := h.number_of_getElem? (List.getElem?_eq_getElem hlt')
    apply hnext _ (List.getElem_mem hlt')
    rw [hnumber', hnumber]
    push_cast
    rfl
  refine ⟨chain.take k, ?_⟩
  have hsplit : chain = chain.take k ++ chain.drop k := (List.take_append_drop k chain).symm
  obtain ⟨hlt, hget⟩ := List.getElem?_eq_some_iff.mp hk
  rw [List.drop_eq_getElem_cons hlt, hget, List.drop_of_length_le (by omega)] at hsplit
  exact hsplit

theorem VersionChain.append {before : List RouteVersionRow} {parent version : RouteVersionRow}
    (h : VersionChain db activity (before ++ [parent])) {activity' : ActivityRow}
    (hversions : db.routeVersions.insert? version = some db'.routeVersions)
    (hof : version.activityId = activity.id) (hid : activity'.id = activity.id)
    (hcurrent : activity'.currentRouteVersionId = some version.id)
    (hparent : version.parentVersionId = some parent.id)
    (hnumber : version.versionNumber = parent.versionNumber + 1)
    : VersionChain db' activity' (before ++ [parent, version]) where
  mem_iff := by
    intro row
    have hmem := h.mem_iff row
    rw [Sql.Table.find?_insert? hversions, hid]
    have hsplit : row ∈ before ++ [parent, version] ↔ row ∈ before ++ [parent] ∨ row = version := by
      simp [or_assoc]
    rw [hsplit, hmem]
    constructor
    . rintro (⟨hrow, hactivity⟩ | rfl)
      . refine ⟨?_, hactivity⟩
        rw [if_neg, hrow]
        intro hsame
        rw [hsame, Sql.Table.find?_eq_none_of_insert? hversions] at hrow
        cases hrow
      . exact ⟨if_pos rfl, hof⟩
    . rintro ⟨hrow, hactivity⟩
      split at hrow
      . exact .inr (Option.some.inj hrow).symm
      . exact .inl ⟨hrow, hactivity⟩
  numbers := by
    have hlast : (before ++ [parent])[before.length]? = some parent := by simp
    have hparentNumber := h.number_of_getElem? hlast
    have hbefore : before ++ [parent, version] = (before ++ [parent]) ++ [version] := by simp
    have hrange : List.range ((before ++ [parent]) ++ [version]).length
        = List.range (before ++ [parent]).length ++ [(before ++ [parent]).length] := by
      rw [List.length_append, List.length_singleton, List.range_succ]
    rw [hbefore, List.map_append, h.numbers, hrange, List.map_append]
    simp [hnumber, hparentNumber]
  parents := by
    have hbefore : before ++ [parent, version] = (before ++ [parent]) ++ [version] := by simp
    have hparents := h.parents
    rw [List.dropLast_concat] at hparents
    rw [hbefore, List.map_append, hparents, List.dropLast_concat, List.map_append]
    simp [hparent]
  current := by
    rw [hcurrent]
    simp

-- the versions of another activity are as they were
theorem VersionChain.insert_of_other (h : VersionChain db activity chain) {version : RouteVersionRow}
    (hversions : db.routeVersions.insert? version = some db'.routeVersions)
    (hother : version.activityId ≠ activity.id) : VersionChain db' activity chain where
  mem_iff := by
    intro row
    rw [h.mem_iff row]
    constructor
    . rintro ⟨hrow, hactivity⟩
      exact ⟨Sql.Table.find?_insert?_of_some hversions hrow, hactivity⟩
    . rintro ⟨hrow, hactivity⟩
      obtain rfl | hrow := Sql.Table.find?_of_insert? hversions hrow
      . exact absurd hactivity hother
      . exact ⟨hrow, hactivity⟩
  numbers := h.numbers
  parents := h.parents
  current := h.current

theorem versionChain_singleton {version : RouteVersionRow}
    (hversions : db.routeVersions.insert? version = some db'.routeVersions)
    (hactivity : db.routeVersions.Refers RouteVersionRow.activityId db.activities)
    (hnew : db.activities.find? activity.id = none) (hof : version.activityId = activity.id)
    (hcurrent : activity.currentRouteVersionId = some version.id)
    (hparent : version.parentVersionId = none) (hnumber : version.versionNumber = 1)
    : VersionChain db' activity [version] where
  mem_iff := by
    intro row
    rw [List.mem_singleton]
    constructor
    . rintro rfl
      exact ⟨by rw [Sql.Table.find?_insert? hversions, if_pos rfl], hof⟩
    . rintro ⟨hrow, hrowOf⟩
      obtain hrow | hrow := Sql.Table.find?_of_insert? hversions hrow
      . exact hrow
      . obtain ⟨other, hother⟩ := hactivity _ _ hrow
        rw [hrowOf, hnew] at hother
        cases hother
  numbers := by simp [hnumber]
  parents := by simp [hparent]
  current := by simp [hcurrent]

/-
The two commits
-/

theorem Chained.published {publication : Publication} {basis : Basis} {result : PublicationResult}
    (h : Chained db) (hwrote : publication.Wrote basis db db' result)
    (hfree : db.routeVersions.clashes Imports.versionSlot (publication.version basis) = false)
    (hparent : db.routeVersions.find? basis.parent.id = some basis.parent)
    (hof : basis.parent.activityId = basis.draft.activityId) : Chained db' where
  chain := by
    intro activity hactivity
    rw [hwrote.activities, ActivityCatalog.find?_updateCurrentVersion, Option.map_eq_some_iff] at hactivity
    obtain ⟨old, hold, hactivity⟩ := hactivity
    have hkey : old.id = activity.id := Sql.Table.key_of_find? hold
    rw [← hkey] at hold
    obtain ⟨chain, hchain⟩ := h.chain old hold
    by_cases hid : old.id = basis.draft.activityId
    . rw [if_pos hid] at hactivity
      have hmem : basis.parent ∈ chain := by
        rw [hchain.mem_iff]
        exact ⟨hparent, hof.trans hid.symm⟩
      -- the index has let the next number through
      have hnext : ∀ row ∈ chain, row.versionNumber ≠ basis.parent.versionNumber + 1 := by
        intro row hrow hnumber
        obtain ⟨hstored, hrowOf⟩ := (hchain.mem_iff row).mp hrow
        rw [Sql.Table.clashes_eq_false_iff] at hfree
        have hslot : Imports.versionSlot row = Imports.versionSlot (publication.version basis) := by
          rw [Imports.versionSlot, hnumber, hrowOf, hid]
          rfl
        have hsame := hfree row.id row _ hstored rfl hslot
        rw [hsame, Sql.Table.find?_eq_none_of_insert? hwrote.inserted] at hstored
        cases hstored
      obtain ⟨before, rfl⟩ := hchain.last_of_no_next hmem hnext
      refine ⟨before ++ [basis.parent, publication.version basis], ?_⟩
      apply hchain.append hwrote.inserted hid.symm hkey.symm _ rfl rfl
      rw [← hactivity]
      rfl
    . rw [if_neg hid] at hactivity
      subst hactivity
      exact ⟨chain, hchain.insert_of_other hwrote.inserted fun hsame => hid hsame.symm⟩
  activity := by
    intro k row hrow
    have hold : ∃ other, db.activities.find? row.activityId = some other := by
      obtain rfl | hrow := Sql.Table.find?_of_insert? hwrote.inserted hrow
      . obtain ⟨other, hother⟩ := h.activity _ _ hparent
        rw [hof] at hother
        exact ⟨other, hother⟩
      . exact h.activity _ _ hrow
    obtain ⟨other, hother⟩ := hold
    rw [hwrote.activities, ActivityCatalog.find?_updateCurrentVersion, hother]
    exact ⟨_, rfl⟩

theorem Chained.imported {externals : Imports.CommitExternals} {data : Imports.ImportCommitData}
    {db db' : Imports.Database} (h : Chained db.toDatabase)
    (hcommitted : Imports.PgImportCommitter.Committed externals data db db') : Chained db'.toDatabase where
  chain := by
    intro activity hactivity
    have hnew : db.activities.find? data.activityId.val = none := by
      obtain ⟨_, hinsert, _⟩ := hcommitted.activities
      exact Sql.Table.find?_eq_none_of_insert? hinsert
    rw [hcommitted.find?_activities] at hactivity
    split at hactivity
    . next hid =>
      refine ⟨[Imports.PgImportCommitter.initialVersion externals data], ?_⟩
      rw [Option.some.injEq] at hactivity
      apply versionChain_singleton hcommitted.routeVersions h.activity _ hid.symm _ rfl rfl
      . rw [hid]
        exact hnew
      . rw [← hactivity]
        rfl
    . next hid =>
      obtain ⟨chain, hchain⟩ := h.chain activity hactivity
      exact ⟨chain, hchain.insert_of_other hcommitted.routeVersions fun hsame => hid hsame.symm⟩
  activity := by
    intro k row hrow
    rw [hcommitted.find?_activities]
    obtain rfl | hrow := Sql.Table.find?_of_insert? hcommitted.routeVersions hrow
    . exact ⟨_, if_pos rfl⟩
    . obtain ⟨other, hother⟩ := h.activity _ _ hrow
      split
      . exact ⟨_, rfl⟩
      . exact ⟨other, hother⟩

section Run

variable {ι : Type} [DecidableEq ι]

theorem Chained.step {me : ι} {s s' : Session ι} {client client' : Client ι}
    (h : Chained s.db.toDatabase) (hstep : client.Step me s s' client') (hsound : client.Sound me s)
    : Chained s'.db.toDatabase := by
  have hsound := hsound.2
  cases hstep with
  | rests | breaks => exact h
  | publishes publication _ _ _ _ htransaction hstep =>
    rw [htransaction] at hsound
    cases hstep with
    | waits | passes | replays | fails | locks | reads | writes => exact h
    | commits basis hphase =>
      obtain ⟨db', result, hrun, hwrote, hfree⟩ := Publication.commit_of_sound hsound hphase
      obtain ⟨_, _, hparent, hof⟩ := Publication.Sound.of_writing hsound hphase
      rw [after_of_run_ok hrun]
      exact h.published hwrote hfree hparent hof
  | imports importCommit _ _ _ htransaction hstep =>
    rw [htransaction] at hsound
    cases hstep with
    | waits | fails | writes => exact h
    | commits hphase =>
      obtain ⟨db', hrun, hcommitted⟩ := ImportCommit.commit_of_sound hsound hphase
      rw [after_of_run_ok hrun]
      exact h.imported hcommitted

/--
The versions of every activity are a chain in every state that is committed.
-/
theorem versions_chained (requests : ι → Request) (lasts : ι → Option Nat) (db : Imports.Database)
    (h : Chained db.toDatabase) (schedule : List ι)
    : Chained (run Client.step ⟨⟨db, .free⟩, fun i => ⟨i, lasts i, (requests i).begin⟩⟩
        schedule).shared.db.toDatabase := by
  have hstart : Holds (fun s : Session ι => Chained s.db.toDatabase) (fun i s g => Client.Sound i s g)
      ⟨⟨db, .free⟩, fun i => ⟨i, lasts i, (requests i).begin⟩⟩ :=
    ⟨h, fun i => sound_begin _ i (lasts i) (requests i)⟩
  have hown : ∀ i s (g : Client ι), Chained s.db.toDatabase → Client.Sound i s g →
      Chained (g.step s).1.db.toDatabase ∧ Client.Sound i (g.step s).1 (g.step s).2 :=
    fun _ s _ hchained hsound =>
      ⟨hchained.step (Client.step_of_sound s hsound) hsound, Client.sound_step s hsound⟩
  have hstable : ∀ i j s (g g' : Client ι), Chained s.db.toDatabase → i ≠ j → Client.Sound i s g →
      Client.Sound j s g' → Client.Sound j (g.step s).1 g' :=
    fun _ _ _ _ _ _ hne hsound hsound' => hsound'.spared (Client.spares_step hsound hne.symm)
  exact (hstart.run Client.step hown hstable schedule).1

end Run

-- an activity with its first version and two active drafts
def sampleDraft (id : Uuid) : RouteEditing.DraftRow where
  id
  activityId := ⟨2⟩
  ownerId := ⟨3⟩
  baseRouteVersionId := some ⟨4⟩
  revision := 0
  geometry := .arr [.arr [
    .obj [("latitude", .int 46), ("longitude", .int 7)],
    .obj [("latitude", .int 47), ("longitude", .int 7)]
  ]]
  state := "active"
  createdAt := 0
  updatedAt := 0

def sampleVersion : RouteVersionRow where
  id := ⟨4⟩
  activityId := ⟨2⟩
  parentVersionId := none
  versionNumber := 1
  geometryJson := .arr []
  boundingBoxJson := .null
  correctedStatisticsJson := none
  calculationVersion := "v1.0"
  editSummary := none
  createdBy := ⟨3⟩
  createdAt := 0

def sampleActivity : ActivityRow where
  id := ⟨2⟩
  ownerId := ⟨3⟩
  title := "Imported Activity"
  activityType := "hike"
  startedAt := none
  endedAt := none
  currentRouteVersionId := some ⟨4⟩
  recordedSummaryJson := none
  correctedSummaryJson := none
  createdAt := 0
  updatedAt := 0

def sampleDatabase : Imports.Database where
  routeEditing := {
    drafts := ⟨[sampleDraft ⟨10⟩, sampleDraft ⟨11⟩], by decide⟩
    draftOperations := .empty
  }
  routeVersions := ⟨[sampleVersion], by decide⟩
  activities := ⟨[sampleActivity], by decide⟩
  outbox := .empty
  imports := .empty
  sourceArtifacts := .empty
  sourceRevisions := .empty
  recordedTracks := .empty

theorem chained_sampleDatabase : Chained sampleDatabase.toDatabase where
  chain := by
    intro activity hactivity
    have hmem := Sql.Table.mem_of_find? hactivity
    simp only [sampleDatabase, List.mem_singleton] at hmem
    subst hmem
    refine ⟨[sampleVersion], ?_, rfl, rfl, rfl⟩
    intro row
    rw [List.mem_singleton]
    constructor
    . rintro rfl
      exact ⟨rfl, rfl⟩
    . rintro ⟨hrow, _⟩
      exact List.mem_singleton.mp (Sql.Table.mem_of_find? hrow)
  activity := by
    intro k row hrow
    have hmem := Sql.Table.mem_of_find? hrow
    simp only [sampleDatabase, List.mem_singleton] at hmem
    subst hmem
    exact ⟨sampleActivity, rfl⟩

-- 32 hexadecimal digits in five groups
def sampleUuidToString (id : Uuid) : String :=
  let digits := (List.range 32).map fun k => Nat.digitChar (id.bits.toNat / 16 ^ (31 - k) % 16)
  let group := fun first count => String.ofList ((digits.drop first).take count)
  group 0 8 ++ "-" ++ group 8 4 ++ "-" ++ group 12 4 ++ "-" ++ group 16 4 ++ "-" ++ group 20 12

def sampleParseUuid (text : String) : Except String Uuid :=
  let digits := text.toList.filter fun c => c ≠ '-'
  if digits.length = 32 then
    .ok ⟨digits.foldl (fun n c => 16 * n + "0123456789abcdef".toList.idxOf c) 0⟩
  else
    .error "invalid length"

def sampleExternals (n : Nat) : Externals where
  now := 2000
  newVersionId := ⟨n⟩
  newEventId := ⟨n + 1⟩
  uuidToString := sampleUuidToString
  parseUuid := sampleParseUuid
  hash draftId expectedRevision _ := toString draftId.val.bits.toNat ++ ":" ++ toString expectedRevision
  totalDistance coords := .fin (111195 * (coords.length - 1))
  geometryError _ := "invalid type"

-- the publications of the two drafts
def sampleRequests : Bool → Request
  | false => .publish (sampleExternals 20) ⟨⟨⟨10⟩⟩, 0, ⟨⟨3⟩⟩, ⟨30⟩, none⟩
  | true => .publish (sampleExternals 22) ⟨⟨⟨11⟩⟩, 0, ⟨⟨3⟩⟩, ⟨31⟩, none⟩

-- both have read the first version when they insert the second one
def sampleSchedule : List Bool :=
  List.replicate 3 false ++ List.replicate 3 true ++ [false, true] ++ List.replicate 4 false ++ [true]

theorem versions_chained_sampleRequests
    : Chained (run Client.step ⟨⟨sampleDatabase, .free⟩, fun i => ⟨i, none, (sampleRequests i).begin⟩⟩
        sampleSchedule).shared.db.toDatabase :=
  versions_chained sampleRequests (fun _ => none) sampleDatabase chained_sampleDatabase sampleSchedule

-- the one that has waited for the other is refused
example : (run Client.step ⟨⟨sampleDatabase, .free⟩, fun i => ⟨i, none, (sampleRequests i).begin⟩⟩
    sampleSchedule).shared.db.routeVersions.rows.map (fun row => (row.id, row.versionNumber))
    = [(⟨4⟩, 1), (⟨20⟩, 2)] := by
  decide

end Transactions
