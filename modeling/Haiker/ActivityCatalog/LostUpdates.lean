import Haiker.ActivityCatalog.Commands
import Haiker.RouteVersioning.Equivalence

/-!
This module contains that no update of an activity gets lost as long as every copy that is written back is
up to date.
-/

open Rust
open Interleaving
open RouteVersioning (Database SerdeErrors)

namespace ActivityCatalog

/-
What a job writes is what it is for, whatever it has been told.
-/

-- the versions that are there stay
def Extends (db db' : Database) : Prop :=
  ∀ k version, db.routeVersions.find? k = some version → db'.routeVersions.find? k = some version

theorem Extends.refl (db : Database) : Extends db db := fun _ _ h => h

theorem Extends.trans {db₁ db₂ db₃ : Database} (h : Extends db₁ db₂) (h' : Extends db₂ db₃)
    : Extends db₁ db₃ := fun k version hversion => h' k version (h k version hversion)

def Job.Writes (errors : SerdeErrors) (db : Database) (activity : Activity) : Job → Prop
  | .rename _ _ _ newTitle => ActivityTitle.new newTitle = .ok activity.title
  | .delete .. => activity.lifecycleState = .deleted
  | .select _ _ _ routeVersionId =>
    activity.currentRouteVersionId = some routeVersionId
      ∧ ∃ version, findVersion errors routeVersionId db = .ok (some version)
        ∧ activity.correctedSummary = some version.correctedStatistics.toJson
  | .publish .. => False

section Follows

variable (errors : SerdeErrors) (job : Job) (db : Database)

def Asks : Command → Prop
  | .update activity => job.Writes errors db activity
  | .commit externals data => job = .publish externals data
  | .findById _ | .findVersion _ => True

def Tells : (command : Command) → command.Reply → Prop
  | .findVersion id, reply => ∀ version, reply = .ok (some version) → findVersion errors id db = .ok (some version)
  | .findById _, _ | .update _, _ | .commit _ _, _ => True

/--
What is written is as `Writes` says. `post` holds of the result.
-/
def Follows {α : Type} (program : ActivityM α) (post : α → Prop) : Prop :=
  program.run.Tracks (fun _ => Asks errors job db) (fun _ => Tells errors db) (fun _ _ _ => ())
    (fun result _ => ∀ a, result = .ok a → post a) ()

variable {errors job db} {α β : Type}

theorem Follows.bind {program : ActivityM α} {f : α → ActivityM β} {post : β → Prop}
    (h : Follows errors job db program fun a => Follows errors job db (f a) post)
    : Follows errors job db (program >>= f) post :=
  Program.Yields.bind h

theorem follows_pure {a : α} {post : α → Prop} (h : post a)
    : Follows errors job db (pure a : ActivityM α) post :=
  Program.yields_pure h

theorem follows_throw (e : Fault ActivityCatalogError) (post : α → Prop)
    : Follows errors job db (throw e : ActivityM α) post :=
  Program.yields_throw e () fun a _ => post a

theorem follows_ofExcept {result : Except (Fault ActivityCatalogError) α} {post : α → Prop}
    (h : ∀ a, result = .ok a → post a) : Follows errors job db (ActivityM.ofExcept result) post := h

theorem follows_findById {id : ActivityId} {post : Option Activity → Prop} (h : ∀ found, post found)
    : Follows errors job db (ActivityM.findById id) post :=
  ⟨trivial, fun _ _ found _ => h found⟩

theorem follows_update {activity : Activity} {post : Unit → Prop} (hwrites : job.Writes errors db activity)
    (h : post ()) : Follows errors job db (ActivityM.update activity) post :=
  ⟨hwrites, fun _ _ _ _ => h⟩

theorem follows_findVersion {id : RouteVersioning.RouteVersionId}
    {post : Option RouteVersioning.RouteVersion → Prop} (hnone : post none)
    (hsome : ∀ version, findVersion errors id db = .ok (some version) → post (some version))
    : Follows errors job db (ActivityM.findVersion id) post := by
  refine ⟨trivial, ?_⟩
  intro reply htells found hfound
  cases reply with
  | error e => cases hfound
  | ok reply =>
    obtain rfl := Except.ok.inj hfound
    cases reply with
    | none => exact hnone
    | some version => exact hsome version (htells version rfl)

theorem follows_loadOwn {activityId : ActivityId} {ownerId : Identity.UserId}
    {post : Activity → Prop} (h : ∀ activity, post activity)
    : Follows errors job db (loadOwn activityId ownerId) post := by
  unfold loadOwn
  apply Follows.bind
  apply follows_findById
  intro found
  cases found with
  | none => exact follows_throw _ _
  | some activity =>
    simp only
    split
    . exact follows_throw _ _
    . exact follows_pure (h activity)

theorem follows_loadActive {activityId : ActivityId} {ownerId : Identity.UserId}
    {post : Activity → Prop} (h : ∀ activity, post activity)
    : Follows errors job db (loadActive activityId ownerId) post := by
  unfold loadActive
  apply Follows.bind
  apply follows_loadOwn
  intro activity
  split
  . exact follows_throw _ _
  . exact follows_pure (h activity)

theorem follows_loadVersion {activityId : ActivityId} {id : RouteVersioning.RouteVersionId}
    {post : RouteVersioning.RouteVersion → Prop}
    (h : ∀ version, findVersion errors id db = .ok (some version) → post version)
    : Follows errors job db (loadVersion activityId id) post := by
  unfold loadVersion
  apply Follows.bind
  apply follows_findVersion
  . exact follows_throw _ _
  . intro version hversion
    simp only
    split
    . exact follows_throw _ _
    . exact follows_pure (h version hversion)

theorem tracks_succeeds {method : ActivityM α} (h : Follows errors job db method fun _ => True)
    : (succeeds method).Tracks (fun _ => Asks errors job db) (fun _ => Tells errors db) (fun _ _ _ => ())
        (fun _ _ => True) () := by
  apply Program.Tracks.bind
  apply Program.Tracks.mono h
  intro result _ _
  exact trivial

end Follows

theorem tracks_program (errors : SerdeErrors) (job : Job) (db : Database)
    : job.program.Tracks (fun _ => Asks errors job db) (fun _ => Tells errors db) (fun _ _ _ => ())
        (fun _ _ => True) () := by
  cases job with
  | rename now activityId ownerId newTitle =>
    apply tracks_succeeds
    unfold renameActivity
    apply Follows.bind
    apply follows_ofExcept
    intro title htitle
    apply Follows.bind
    apply follows_loadActive
    intro activity
    apply Follows.bind
    exact follows_update htitle (follows_pure trivial)
  | delete now activityId ownerId =>
    apply tracks_succeeds
    unfold deleteActivity
    apply Follows.bind
    apply follows_loadOwn
    intro activity
    split
    . exact follows_pure trivial
    . have hdeleted : (activity.delete now).lifecycleState = .deleted := rfl
      exact follows_update hdeleted trivial
  | select now activityId ownerId routeVersionId =>
    apply tracks_succeeds
    unfold selectCurrentRouteVersion
    apply Follows.bind
    apply follows_loadActive
    intro activity
    apply Follows.bind
    apply follows_loadVersion
    intro version hversion
    apply Follows.bind
    exact follows_update ⟨rfl, version, hversion, rfl⟩ (follows_pure trivial)
  | publish externals data => exact ⟨rfl, fun _ _ => trivial⟩

/-
What is known of a client that is on its way.
-/

-- also of databases with more versions
def Client.Sound (errors : SerdeErrors) (db : Database) (client : Client) : Prop :=
  ∀ db', Extends db db' →
    client.program.Tracks (fun _ => Asks errors client.job db') (fun _ => Tells errors db') (fun _ _ _ => ())
      (fun _ _ => True) ()

section Step

variable {errors : SerdeErrors} {db db' : Database} {client : Client}

theorem sound_start (job : Job) : (Client.start job).Sound errors db :=
  fun db' _ => tracks_program errors job db'

theorem Client.Sound.extends (h : client.Sound errors db) (hextends : Extends db db')
    : client.Sound errors db' := fun db'' hextends' => h db'' (hextends.trans hextends')

theorem findVersion_extends (h : Extends db db') {id : RouteVersioning.RouteVersionId}
    {version : RouteVersioning.RouteVersion} (hfound : findVersion errors id db = .ok (some version))
    : findVersion errors id db' = .ok (some version) := by
  unfold findVersion at hfound ⊢
  cases hrow : db.routeVersions.find? id.val with
  | none =>
    rw [hrow] at hfound
    cases hfound
  | some row =>
    rw [hrow] at hfound
    rw [h _ _ hrow]
    exact hfound

theorem extends_step (errors : SerdeErrors) (db : Database) (client : Client)
    : Extends db (client.step errors db).1 := by
  obtain ⟨job, program⟩ := client
  cases program with
  | done result => exact .refl db
  | ask command next =>
    cases command with
    | findById | findVersion | update => exact .refl db
    | commit externals data =>
      obtain ⟨hafter, _⟩ | ⟨_, result, draft, version, _, hpublished⟩ :=
        RouteVersioning.commit_cases externals data db
      . have hstep : (Client.step errors db ⟨job, .ask (.commit externals data) next⟩).1 = db := hafter
        rw [hstep]
        exact .refl db
      . intro k version' hversion'
        exact Sql.Table.find?_insert?_of_some hpublished.inserted hversion'

theorem Client.Sound.step (h : client.Sound errors db)
    : (client.step errors db).2.Sound errors (client.step errors db).1 := by
  intro db' hextends
  have hextends' := (extends_step errors db client).trans hextends
  show (client.program.step (answer errors) db).2.Tracks _ _ _ _ _
  apply (h db' hextends').step
  intro command _
  cases command with
  | findById | update | commit => exact trivial
  | findVersion id =>
    intro version hversion
    exact findVersion_extends hextends' hversion

/-
What a step does to the columns.
-/

theorem Same.refl (column : Column) (row : ActivityRow) : Same column row row := by
  cases column with
  | title | lifecycleState => exact rfl
  | currentVersion => exact ⟨rfl, rfl⟩

theorem same_setCurrentVersion {column : Column} (h : column ≠ .currentVersion) (now : Timestamp)
    (versionId : Uuid) (json : Json) (row : ActivityRow)
    : Same column (setCurrentVersion now versionId json row) row := by
  cases column with
  | title | lifecycleState => exact rfl
  | currentVersion => contradiction

theorem Job.Effect.same {job : Job} {row row' : ActivityRow} (h : job.Effect errors db row)
    (hsame : Same job.column row' row) (hextends : Extends db db') : job.Effect errors db' row' := by
  cases job with
  | rename now activityId ownerId newTitle =>
    obtain ⟨title, hnew, htitle⟩ := h
    have hsame : row'.title = row.title := hsame
    exact ⟨title, hnew, hsame.trans htitle⟩
  | delete now activityId ownerId =>
    have hsame : row'.lifecycleState = row.lifecycleState := hsame
    exact hsame.trans h
  | select now activityId ownerId routeVersionId =>
    obtain ⟨hpointer, version, hversion, hsummary⟩ := h
    have hsame : row'.currentRouteVersionId = row.currentRouteVersionId
      ∧ row'.correctedSummaryJson = row.correctedSummaryJson := hsame
    exact ⟨hsame.1.trans hpointer, version, findVersion_extends hextends hversion, hsame.2.trans hsummary⟩
  | publish externals data =>
    obtain ⟨hpointer, version, hversion, hsummary⟩ := h
    have hsame : row'.currentRouteVersionId = row.currentRouteVersionId
      ∧ row'.correctedSummaryJson = row.correctedSummaryJson := hsame
    exact ⟨hsame.1.trans hpointer, version, hextends _ _ hversion, hsame.2.trans hsummary⟩

theorem Job.Writes.effect {job : Job} {activity : Activity} (h : job.Writes errors db activity)
    (row : ActivityRow) : job.Effect errors db (PgActivityRepository.setActivity activity row) := by
  cases job with
  | rename now activityId ownerId newTitle => exact ⟨activity.title, h, rfl⟩
  | delete now activityId ownerId =>
    have hdeleted : activity.lifecycleState = .deleted := h
    show activity.lifecycleState.display = "deleted"
    rw [hdeleted]
    rfl
  | select now activityId ownerId routeVersionId =>
    obtain ⟨hpointer, version, hversion, hsummary⟩ := h
    refine ⟨?_, version, hversion, hsummary⟩
    show activity.currentRouteVersionId.map (·.val) = _
    rw [hpointer]
    rfl
  | publish externals data => exact h.elim

theorem find?_update (activity : Activity) (activities : ActivityTable) (k : Uuid)
    : (PgActivityRepository.update activity activities).find? k
        = (activities.find? k).map fun row =>
          if row.id = activity.id.val then PgActivityRepository.setActivity activity row else row := by
  unfold PgActivityRepository.update
  rw [Sql.Table.find?_updateWhere]
  simp

theorem effect_step (hsound : client.Sound errors db) {id : Uuid} (hsets : client.Sets db id)
    {row : ActivityRow} (hrow : (client.step errors db).1.activities.find? id = some row)
    : client.job.Effect errors (client.step errors db).1 row := by
  obtain ⟨job, program⟩ := client
  cases program with
  | done result => exact hsets.elim
  | ask command next =>
    have hasks : Asks errors job db command := (hsound db (.refl db)).1
    cases command with
    | findById | findVersion => exact hsets.elim
    | update activity =>
      have hid : activity.id.val = id := hsets
      have hrow : (PgActivityRepository.update activity db.activities).find? id = some row := hrow
      rw [find?_update, Option.map_eq_some_iff] at hrow
      obtain ⟨old, hold, rfl⟩ := hrow
      rw [if_pos ((Sql.Table.key_of_find? hold).trans hid.symm)]
      exact Job.Writes.effect hasks old
    | commit externals data =>
      obtain rfl : job = .publish externals data := hasks
      obtain ⟨hnew, hok, draft, hdraft, hid⟩ := hsets
      obtain ⟨_, hnot⟩ | ⟨_, result, draft', version, hrun, hpublished⟩ :=
        RouteVersioning.commit_cases externals data db
      . exact absurd ⟨hnew, hok⟩ hnot
      . have hsame : draft' = draft := Except.ok.inj (hpublished.locked.symm.trans hdraft)
        subst hsame
        obtain ⟨json, hjson, hactivities⟩ := hpublished.activities
        have hrow : (after (RouteVersioning.commit externals data) db).activities.find? id = some row := hrow
        rw [hactivities, find?_updateCurrentVersion, Option.map_eq_some_iff] at hrow
        obtain ⟨old, hold, rfl⟩ := hrow
        rw [if_pos ((Sql.Table.key_of_find? hold).trans hid.symm)]
        obtain ⟨coords, parent, _, _, rfl⟩ := hpublished.built
        refine ⟨rfl, RouteVersioning.newVersion externals data draft' parent coords, ?_, ?_⟩
        . exact (Sql.Table.find?_insert? hpublished.inserted _).trans (if_pos rfl)
        . exact hjson.symm

/--
A step leaves a column of an activity as it is, unless the client is to change that column.
-/
theorem same_step (hsound : client.Sound errors db)
    (hcurrent : ∀ activity, client.program.command? = some (.update activity) →
      ∀ row, db.activities.find? activity.id.val = some row →
        ∀ column, column ≠ client.job.column →
          Same column (PgActivityRepository.setActivity activity row) row)
    {column : Column} {id : Uuid} (hother : client.job.column = column → ¬client.Sets db id)
    {row : ActivityRow} (hrow : (client.step errors db).1.activities.find? id = some row)
    : ∃ old, db.activities.find? id = some old ∧ Same column row old := by
  obtain ⟨job, program⟩ := client
  cases program with
  | done result => exact ⟨row, hrow, .refl column row⟩
  | ask command next =>
    have hasks : Asks errors job db command := (hsound db (.refl db)).1
    cases command with
    | findById | findVersion => exact ⟨row, hrow, .refl column row⟩
    | update activity =>
      have hrow : (PgActivityRepository.update activity db.activities).find? id = some row := hrow
      rw [find?_update, Option.map_eq_some_iff] at hrow
      obtain ⟨old, hold, rfl⟩ := hrow
      refine ⟨old, hold, ?_⟩
      split
      . next hid =>
        have hid' : activity.id.val = id := hid.symm.trans (Sql.Table.key_of_find? hold)
        apply hcurrent activity rfl old
        . rw [hid']
          exact hold
        . intro hcolumn
          exact hother hcolumn.symm hid'
      . exact .refl column old
    | commit externals data =>
      obtain rfl : job = .publish externals data := hasks
      obtain ⟨hafter, _⟩ | ⟨hnew, result, draft, version, hrun, hpublished⟩ :=
        RouteVersioning.commit_cases externals data db
      . have hrow : (after (RouteVersioning.commit externals data) db).activities.find? id = some row := hrow
        rw [hafter] at hrow
        exact ⟨row, hrow, .refl column row⟩
      . obtain ⟨json, _, hactivities⟩ := hpublished.activities
        have hrow : (after (RouteVersioning.commit externals data) db).activities.find? id = some row := hrow
        rw [hactivities, find?_updateCurrentVersion, Option.map_eq_some_iff] at hrow
        obtain ⟨old, hold, rfl⟩ := hrow
        refine ⟨old, hold, ?_⟩
        split
        . next hid =>
          apply same_setCurrentVersion
          rintro rfl
          apply hother rfl
          exact ⟨hnew, ⟨result, _, hrun⟩, draft, hpublished.locked,
            hid.symm.trans (Sql.Table.key_of_find? hold)⟩
        . exact .refl column old

end Step

section Run

variable {ι : Type} [DecidableEq ι] {errors : SerdeErrors} {c : Config Database Client ι}

-- every client is on its way
def AllSound (errors : SerdeErrors) (c : Config Database Client ι) : Prop :=
  ∀ i, (c.clients i).Sound errors c.shared

theorem AllSound.fire (h : AllSound errors c) (i : ι) : AllSound errors (fire (Client.step errors) c i) := by
  intro j
  by_cases hj : j = i
  . subst hj
    rw [fire_clients_self]
    exact (h j).step
  . rw [fire_clients_ne (Client.step errors) c hj]
    exact (h j).extends (extends_step errors c.shared (c.clients i))

theorem job_fire (c : Config Database Client ι) (i j : ι)
    : ((fire (Client.step errors) c i).clients j).job = (c.clients j).job := by
  by_cases hj : j = i
  . subst hj
    rw [fire_clients_self]
    rfl
  . rw [fire_clients_ne (Client.step errors) c hj]

theorem job_run (errors : SerdeErrors) (c : Config Database Client ι) (schedule : List ι) (j : ι)
    : ((run (Client.step errors) c schedule).clients j).job = (c.clients j).job := by
  induction schedule generalizing c with
  | nil => rfl
  | cons i schedule ih => rw [run_cons, ih, job_fire]

theorem effect_run {job : Job} {id : Uuid} {schedule : List ι} (h : AllSound errors c)
    (hcurrent : Along (Client.step errors) UpToDate c schedule)
    (hothers : Along (Client.step errors)
      (fun c' j => (c'.clients j).job.column = job.column → ¬(c'.clients j).Sets c'.shared id) c schedule)
    (heffect : ∀ row, c.shared.activities.find? id = some row → job.Effect errors c.shared row)
    {row : ActivityRow}
    (hrow : (run (Client.step errors) c schedule).shared.activities.find? id = some row)
    : job.Effect errors (run (Client.step errors) c schedule).shared row := by
  induction schedule generalizing c with
  | nil => exact heffect row hrow
  | cons i schedule ih =>
    apply ih (h.fire i) hcurrent.2 hothers.2 _ hrow
    intro row' hrow'
    obtain ⟨old, hold, hsame⟩ := same_step (h i) hcurrent.1 hothers.1 hrow'
    exact (heffect old hold).same hsame (extends_step errors c.shared (c.clients i))

end Run

/--
No update gets lost if every copy that is written back is up to date.
-/
theorem survives_of_up_to_date {ι : Type} [DecidableEq ι] (errors : SerdeErrors) (jobs : ι → Job)
    (db : Database) (schedule : List ι)
    (hcurrent : Along (Client.step errors) UpToDate ⟨db, fun i => .start (jobs i)⟩ schedule)
    : Survives errors ⟨db, fun i => .start (jobs i)⟩ schedule := by
  rintro before i later id rfl hsets hothers row hrow
  have hstart : AllSound errors (⟨db, fun i => .start (jobs i)⟩ : Config Database Client ι) :=
    fun j => sound_start (jobs j)
  rw [along_append] at hcurrent
  obtain ⟨_, hown, hlater⟩ := hcurrent
  rw [run_append] at hothers
  rw [run_append] at hrow ⊢
  have hsound : AllSound errors (run (Client.step errors) ⟨db, fun i => .start (jobs i)⟩ before) :=
    run_induction (Client.step errors) (fun _ j h => h.fire j) hstart before
  have hjob := job_run errors (⟨db, fun i => .start (jobs i)⟩ : Config Database Client ι) before i
  generalize run (Client.step errors) (⟨db, fun i => .start (jobs i)⟩ : Config Database Client ι) before = c
    at *
  refine effect_run (hsound.fire i) hlater hothers ?_ hrow
  intro row' hrow'
  rw [← hjob]
  exact effect_step (hsound i) hsets hrow'

-- an activity is renamed and deleted at the same time
def sampleJobs (second : Bool) : Job :=
  if second then .delete 0 ⟨⟨2⟩⟩ ⟨⟨3⟩⟩ else .rename 0 ⟨⟨2⟩⟩ ⟨⟨3⟩⟩ "Evening Walk"

def sampleErrors : SerdeErrors := ⟨fun _ => "", fun _ => "", fun _ => ""⟩

def sampleClients : Config Database Client Bool :=
  ⟨RouteVersioning.sampleStore, fun second => .start (sampleJobs second)⟩

theorem survives_of_up_to_date_sampleClients
    : Survives sampleErrors sampleClients [false, false, true, true] := by
  apply survives_of_up_to_date
  refine ⟨?_, ?_, ?_, ?_, trivial⟩
  . intro activity hcommand
    cases hcommand
  . intro activity hcommand row hrow column hcolumn
    cases hcommand
    cases hrow
    cases column with
    | title => contradiction
    | lifecycleState => rfl
    | currentVersion => exact ⟨rfl, rfl⟩
  . intro activity hcommand
    cases hcommand
  . intro activity hcommand row hrow column hcolumn
    cases hcommand
    cases hrow
    cases column with
    | title => rfl
    | lifecycleState => contradiction
    | currentVersion => exact ⟨rfl, rfl⟩

theorem rename_revives_deleted
    : ((run (Client.step sampleErrors) sampleClients [false, true, true]).shared.activities.find? ⟨2⟩).map
          (·.lifecycleState) = some "deleted"
        ∧ ((run (Client.step sampleErrors) sampleClients [false, true, true, false]).shared.activities.find?
          ⟨2⟩).map (·.lifecycleState) = some "active"
        ∧ ¬Survives sampleErrors sampleClients [false, true, true, false] := by
  refine ⟨rfl, rfl, ?_⟩
  intro h
  have hother : (sampleJobs false).column ≠ (sampleJobs true).column := by decide
  have hdeleted : "active" = "deleted" :=
    h [false, true] true [false] ⟨2⟩ rfl rfl ⟨fun hcolumn => absurd hcolumn hother, trivial⟩ _ rfl
  exact absurd hdeleted (by decide)

end ActivityCatalog
