import Haiker.Api.Isolation

/-!
This module contains the bounds on the legs of an activity, whatever requests are made at the same time. A number
is checked before it is stored and not together with it, but the unique constraint keeps two legs from having the
same one.
-/

open Rust
open Interleaving
open ActivityCatalog (ActivityId ActivityM CursorExternals)
open Identity (UserId)
open RecordedActivity
open RouteVersioning (SerdeErrors)

namespace Api

namespace Catalog

/-
The numbers of the legs.
-/

def ValidNumber (legNumber : Nat) : Prop := 1 ≤ legNumber ∧ legNumber ≤ MAX_LEGS_PER_ACTIVITY

def WithinBounds (t : LegTable) : Prop := ∀ row ∈ t.legs.rows, ValidNumber row.legNumber

/--
The numbers in the statement are valid.
-/
def LegStatement.Bounded : LegStatement → Prop
  | .saveLeg leg | .updateLeg leg => ValidNumber leg.legNumber
  | .shiftLegs _ _ _ currentPosition newPosition => ValidNumber currentPosition ∧ ValidNumber newPosition
  | .placeLeg _ _ newPosition => ValidNumber newPosition
  | .listLegs _ | .findLeg _ | .deleteLeg _ | .nextLegNumber _ => True

def AsksBounded (_ : Unit) : Statement → Prop
  | .leg statement => statement.Bounded
  | .activity _ | .listActivities .. | .getLegSummary _ => True

/--
The legs in the reply have valid numbers.
-/
def TellsBounded (_ : Unit) : (statement : Statement) → statement.Reply → Prop
  | .leg (.findLeg _), reply => ∀ leg, reply = .ok (some leg) → ValidNumber leg.legNumber
  | .leg (.listLegs _), reply => ∀ legs, reply = .ok legs → ∀ leg ∈ legs, ValidNumber leg.legNumber
  | _, _ => True

/--
Whatever the database answers, the program keeps to valid numbers, and `post` holds of its result.
-/
structure KeepsBounds {ε α : Type} (program : ExceptT ε (Program Statement.Reply) α) (post : α → Prop) : Prop where
  yields : Program.Yields AsksBounded TellsBounded (fun _ _ _ => ()) program () fun a _ => post a

section Bounds

variable {ε ε' α β : Type} {program : ExceptT ε (Program Statement.Reply) α} {post : α → Prop}

theorem keepsBounds_pure {a : α} (h : post a)
    : KeepsBounds (pure a : ExceptT ε (Program Statement.Reply) α) post := ⟨Program.yields_pure h⟩

theorem keepsBounds_throw (e : ε) : KeepsBounds (throw e : ExceptT ε (Program Statement.Reply) α) post :=
  ⟨Program.yields_throw e () _⟩

theorem KeepsBounds.bind {f : α → ExceptT ε (Program Statement.Reply) β} {post' : β → Prop}
    (h : KeepsBounds program post) (hnext : ∀ a, post a → KeepsBounds (f a) post')
    : KeepsBounds (program >>= f) post' :=
  ⟨Program.Yields.bind (h.yields.mono fun a _ ha => (hnext a ha).yields)⟩

theorem KeepsBounds.map {f : α → β} (h : KeepsBounds program fun _ => True)
    : KeepsBounds (f <$> program) fun _ => True := by
  have hbind : KeepsBounds (program >>= fun a => pure (f a)) fun _ => True :=
    h.bind fun _ _ => keepsBounds_pure trivial
  exact hbind

theorem KeepsBounds.adapt {g : ε → ε'} (h : KeepsBounds program post)
    : KeepsBounds (ExceptT.adapt g program) post := by
  constructor
  apply Program.Tracks.bind
  apply Program.Tracks.mono h.yields
  intro result _ hresult
  cases result with
  | ok a =>
    rintro b ⟨⟩
    exact hresult a rfl
  | error e =>
    intro b hb
    cases hb

theorem keepsBounds_legStatement (statement : LegStatement) (hasks : statement.Bounded)
    {post : statement.Reply → Prop}
    (h : ∀ reply : Except LegError statement.Reply, TellsBounded () (.leg statement) reply →
      ∀ a, reply = .ok a → post a) : KeepsBounds (legStatement statement) post :=
  ⟨⟨hasks, h⟩⟩

theorem keepsBounds_call (statement : LegStatement) (hasks : statement.Bounded)
    : KeepsBounds (legStatement statement) fun _ => True :=
  keepsBounds_legStatement statement hasks fun _ _ _ _ => trivial

theorem keepsBounds_ofExcept {result : Except ε α} (h : ∀ a, result = .ok a → post a)
    : KeepsBounds (ofExcept result) post := ⟨h⟩

theorem keepsBounds_result (result : Except ε α) : KeepsBounds (ofExcept result) fun _ => True :=
  ⟨fun _ _ => trivial⟩

section LegCommands

variable (now : Timestamp) (legId : LegId)

theorem keepsBounds_loadLeg : KeepsBounds (loadLeg legId) fun leg => ValidNumber leg.legNumber := by
  unfold loadLeg
  have hfind : KeepsBounds (legStatement (.findLeg legId))
      fun found => ∀ leg, found = some leg → ValidNumber leg.legNumber := by
    apply keepsBounds_legStatement (.findLeg legId) trivial
    rintro reply htells found rfl leg rfl
    exact htells leg rfl
  apply hfind.bind
  intro found hfound
  cases found with
  | none => exact keepsBounds_throw _
  | some leg => exact keepsBounds_pure (hfound leg rfl)

theorem validNumber_of_new {id : LegId} {activityId : ActivityId} {legNumber : Nat} {title : Option LegTitle}
    {date : NaiveDate} {sourceRevisionId : Option SourceRevisionId} {recordedTrackId : Option RecordedTrackId}
    {leg : Leg}
    (h : Leg.new now id activityId legNumber title date sourceRevisionId recordedTrackId = .ok leg)
    : ValidNumber leg.legNumber := by
  unfold Leg.new at h
  split at h
  . cases h
  . split at h
    . cases h
    . cases h
      exact ⟨Nat.le_of_not_lt ‹_›, Nat.le_of_not_lt ‹_›⟩

theorem validNumber_of_updateLegNumber {legNumber : Nat} {leg leg' : Leg}
    (h : leg.updateLegNumber now legNumber = .ok leg') : ValidNumber leg'.legNumber := by
  unfold Leg.updateLegNumber at h
  split at h
  . cases h
  . split at h
    . cases h
    . cases h
      exact ⟨Nat.le_of_not_lt ‹_›, Nat.le_of_not_lt ‹_›⟩

theorem keepsBounds_addLeg (activityId : ActivityId) (title : Option String) (date : NaiveDate)
    (sourceRevisionId : Option SourceRevisionId) (recordedTrackId : Option RecordedTrackId)
    : KeepsBounds (addLeg now legId activityId title date sourceRevisionId recordedTrackId) fun _ => True := by
  unfold addLeg
  apply (keepsBounds_call (.nextLegNumber activityId) trivial).bind
  intro legNumber _
  split
  . exact keepsBounds_throw _
  . apply (keepsBounds_result _).bind
    intro legTitle _
    apply (keepsBounds_ofExcept fun _ h => validNumber_of_new now h).bind
    intro leg hleg
    exact (keepsBounds_call (.saveLeg leg) hleg).bind fun _ _ => keepsBounds_pure trivial

theorem keepsBounds_renameLeg (newTitle : Option String)
    : KeepsBounds (renameLeg now legId newTitle) fun _ => True := by
  unfold renameLeg
  apply (keepsBounds_result _).bind
  intro title _
  apply (keepsBounds_loadLeg legId).bind
  intro leg hleg
  exact (keepsBounds_call (.updateLeg (leg.rename now title)) hleg).bind fun _ _ => keepsBounds_pure trivial

theorem keepsBounds_updateLegDate (newDate : NaiveDate)
    : KeepsBounds (updateLegDate now legId newDate) fun _ => True := by
  unfold updateLegDate
  apply (keepsBounds_loadLeg legId).bind
  intro leg hleg
  exact (keepsBounds_call (.updateLeg (leg.updateDate now newDate)) hleg).bind fun _ _ => keepsBounds_pure trivial

theorem keepsBounds_reorderLeg (newPosition : Nat)
    : KeepsBounds (reorderLeg now legId newPosition) fun _ => True := by
  unfold reorderLeg
  split
  . exact keepsBounds_throw _
  . split
    . exact keepsBounds_throw _
    . have hnew : ValidNumber newPosition := ⟨Nat.le_of_not_lt ‹_›, Nat.le_of_not_lt ‹_›⟩
      apply (keepsBounds_loadLeg legId).bind
      intro leg _
      unfold reorderLegs
      apply (keepsBounds_loadLeg legId).bind
      intro currentLeg hcurrent
      split
      . exact keepsBounds_pure trivial
      . apply (keepsBounds_call (.shiftLegs now legId leg.activityId currentLeg.legNumber newPosition)
          ⟨hcurrent, hnew⟩).bind
        exact fun _ _ => keepsBounds_call (.placeLeg now legId newPosition) hnew

theorem keepsBounds_renumber (idx : Nat) (legs : List Leg)
    : KeepsBounds (renumber now idx legs) fun _ => True := by
  induction legs generalizing idx with
  | nil => exact keepsBounds_pure trivial
  | cons leg legs ih =>
    unfold renumber
    dsimp only
    split
    . apply (keepsBounds_ofExcept fun _ h => validNumber_of_updateLegNumber now h).bind
      intro remainingLeg hvalid
      exact (keepsBounds_call (.updateLeg remainingLeg) hvalid).bind fun _ _ => ih (idx + 1)
    . exact ih (idx + 1)

theorem keepsBounds_removeLeg : KeepsBounds (removeLeg now legId) fun _ => True := by
  unfold removeLeg
  apply (keepsBounds_loadLeg legId).bind
  intro leg _
  apply (keepsBounds_call (.deleteLeg legId) trivial).bind
  intro _ _
  apply (keepsBounds_call (.listLegs leg.activityId) trivial).bind
  exact fun _ _ => keepsBounds_renumber now 0 _

theorem keepsBounds_getLegSummary : KeepsBounds
    (ExceptT.lift (.call (Statement.getLegSummary legId)) : ExceptT ε (Program Statement.Reply) _) fun _ => True :=
  ⟨Program.yields_lift_call trivial fun _ _ => trivial⟩

theorem keepsBounds_getLegDetail : KeepsBounds (getLegDetail legId) fun _ => True := by
  unfold getLegDetail
  apply (keepsBounds_loadLeg legId).bind
  intro leg _
  exact (keepsBounds_getLegSummary legId).bind fun _ _ => keepsBounds_pure trivial

end LegCommands

-- the activities have no numbers
theorem keepsBounds_overActivities (errors : ε → ε') (x : ExceptT ε (Program ActivityCatalog.Command.Reply) α)
    : KeepsBounds (ExceptT.adapt errors (ExceptT.mk (overActivities x.run))) fun _ => True := by
  apply KeepsBounds.adapt
  constructor
  change (overActivities x.run).Tracks _ _ _ _ _
  generalize x.run = program
  induction program with
  | done result => exact fun _ _ => trivial
  | ask command next ih => exact ⟨trivial, fun reply _ => ih reply⟩

theorem keepsBounds_activityMethod (method : ActivityM α) : KeepsBounds (activityMethod method) fun _ => True :=
  keepsBounds_overActivities _ method

section Endpoints

variable (now : Timestamp) (ownerId : UserId) (activityId : Uuid) (legId : LegId)

theorem keepsBounds_readSummaries (legs : List Leg) : KeepsBounds (readSummaries legs) fun _ => True := by
  induction legs with
  | nil => exact keepsBounds_pure trivial
  | cons leg legs ih =>
    unfold readSummaries
    apply (keepsBounds_getLegSummary leg.id).bind
    intro _ _
    exact ih.bind fun _ _ => keepsBounds_pure trivial

theorem keepsBounds_verifyActivityOwnership
    : KeepsBounds (verifyActivityOwnership ownerId activityId) fun _ => True :=
  (keepsBounds_overActivities _ (getActivity ownerId activityId)).bind fun _ _ => keepsBounds_pure trivial

theorem keepsBounds_verifyLeg : KeepsBounds (verifyLeg activityId legId) fun _ => True := by
  unfold verifyLeg
  apply (keepsBounds_call (.findLeg legId) trivial).adapt.bind
  intro found _
  cases found with
  | none => exact keepsBounds_throw _
  | some existing =>
    simp only
    split
    . exact keepsBounds_throw _
    . exact keepsBounds_pure trivial

theorem keepsBounds_patchLeg (body : UpdateLegRequest)
    : KeepsBounds (patchLeg now ownerId activityId legId body) fun _ => True := by
  have htitle : KeepsBounds (patchTitle now legId body.title) fun _ => True := by
    cases body.title with
    | none => exact keepsBounds_pure trivial
    | some title =>
      exact (keepsBounds_renameLeg now legId title).adapt.bind fun _ _ => keepsBounds_pure trivial
  have hdate : KeepsBounds (patchDate now legId body.date) fun _ => True := by
    cases body.date with
    | none => exact keepsBounds_pure trivial
    | some newDate =>
      exact (keepsBounds_updateLegDate now legId newDate).adapt.bind fun _ _ => keepsBounds_pure trivial
  have hposition : KeepsBounds (patchPosition now legId body.legNumber) fun _ => True := by
    cases body.legNumber with
    | none => exact keepsBounds_pure trivial
    | some newPosition => exact (keepsBounds_reorderLeg now legId newPosition).adapt
  unfold patchLeg
  apply (keepsBounds_verifyActivityOwnership ownerId activityId).bind
  intro _ _
  apply (keepsBounds_verifyLeg activityId legId).bind
  intro _ _
  apply htitle.bind
  intro _ _
  apply hdate.bind
  intro _ _
  apply hposition.bind
  intro _ _
  exact (keepsBounds_getLegDetail legId).adapt.bind fun _ _ => keepsBounds_pure trivial

theorem keepsBounds_getActivities (cursors : CursorExternals) (cursor : Option String) (pageSize : Option Nat)
    : KeepsBounds (getActivities cursors ownerId cursor pageSize) fun _ => True := by
  have hlist : KeepsBounds (ExceptT.mk (.call (Statement.listActivities cursors ownerId cursor pageSize)))
      fun _ => True := ⟨⟨trivial, fun _ _ _ _ => trivial⟩⟩
  exact hlist.adapt.bind fun _ _ => keepsBounds_pure trivial

theorem keepsBounds_getActivityDetail : KeepsBounds (getActivityDetail ownerId activityId) fun _ => True := by
  unfold getActivityDetail
  apply (keepsBounds_activityMethod (getActivity ownerId activityId)).bind
  intro activity _
  have hlist : KeepsBounds (ExceptT.lift (legStatement (.listLegs activity.id)).run : Endpoint _) fun _ => True :=
    ⟨⟨trivial, fun _ _ _ _ => trivial⟩⟩
  apply hlist.bind
  intro reply _
  exact (keepsBounds_readSummaries _).bind fun _ _ => keepsBounds_pure trivial

theorem keepsBounds_patchActivityTitle (title : String)
    : KeepsBounds (patchActivityTitle now ownerId activityId title) fun _ => True := by
  unfold patchActivityTitle
  exact (keepsBounds_activityMethod _).bind fun _ _ => keepsBounds_pure trivial

theorem keepsBounds_deleteActivityHandler
    : KeepsBounds (deleteActivityHandler now ownerId activityId) fun _ => True := by
  unfold deleteActivityHandler
  exact keepsBounds_activityMethod _

theorem keepsBounds_postSelectCurrentRouteVersion (header : Option String) (routeVersionId : Uuid)
    : KeepsBounds (postSelectCurrentRouteVersion now ownerId activityId header routeVersionId) fun _ => True := by
  apply (keepsBounds_result _).bind
  intro _ _
  exact (keepsBounds_activityMethod _).bind fun _ _ => keepsBounds_pure trivial

theorem keepsBounds_postAddLeg (title : Option String) (date : NaiveDate)
    : KeepsBounds (postAddLeg now ownerId activityId legId title date) fun _ => True := by
  apply (keepsBounds_verifyActivityOwnership ownerId activityId).bind
  intro id _
  exact (keepsBounds_addLeg now legId id title date none none).adapt.bind fun _ _ => keepsBounds_pure trivial

theorem keepsBounds_getLegs : KeepsBounds (getLegs ownerId activityId) fun _ => True := by
  apply (keepsBounds_verifyActivityOwnership ownerId activityId).bind
  intro id _
  apply (keepsBounds_call (.listLegs id) trivial).adapt.bind
  intro legs _
  exact (keepsBounds_readSummaries legs).bind fun _ _ => keepsBounds_pure trivial

theorem keepsBounds_getLegDetailHandler
    : KeepsBounds (getLegDetailHandler ownerId activityId legId) fun _ => True := by
  apply (keepsBounds_verifyActivityOwnership ownerId activityId).bind
  intro _ _
  apply (keepsBounds_getLegDetail legId).adapt.bind
  intro detail _
  split
  . exact keepsBounds_throw _
  . exact keepsBounds_pure trivial

theorem keepsBounds_deleteLegHandler
    : KeepsBounds (deleteLegHandler now ownerId activityId legId) fun _ => True := by
  apply (keepsBounds_verifyActivityOwnership ownerId activityId).bind
  intro _ _
  apply (keepsBounds_verifyLeg activityId legId).bind
  exact fun _ _ => (keepsBounds_removeLeg now legId).adapt

end Endpoints

theorem keepsBounds_endpoint (cursors : CursorExternals) (call : Call)
    : KeepsBounds (call.endpoint cursors) fun _ => True := by
  unfold Call.endpoint
  cases call.request with
  | getActivities cursor pageSize => exact (keepsBounds_getActivities call.user cursors cursor pageSize).map
  | getActivityDetail activityId => exact (keepsBounds_getActivityDetail call.user activityId).map
  | patchActivityTitle activityId title =>
    apply KeepsBounds.map
    exact keepsBounds_patchActivityTitle call.now call.user activityId title
  | deleteActivity activityId =>
    apply KeepsBounds.map
    exact keepsBounds_deleteActivityHandler call.now call.user activityId
  | selectCurrentRouteVersion activityId idempotencyKey routeVersionId =>
    exact (keepsBounds_postSelectCurrentRouteVersion call.now call.user activityId idempotencyKey
      routeVersionId).map
  | addLeg activityId title date =>
    exact (keepsBounds_postAddLeg call.now call.user activityId ⟨call.newLegId⟩ title date).map
  | getLegs activityId => exact (keepsBounds_getLegs call.user activityId).map
  | getLegDetail activityId legId =>
    exact (keepsBounds_getLegDetailHandler call.user activityId ⟨legId⟩).map
  | patchLeg activityId legId body =>
    exact (keepsBounds_patchLeg call.now call.user activityId ⟨legId⟩ body).map
  | deleteLeg activityId legId =>
    exact (keepsBounds_deleteLegHandler call.now call.user activityId ⟨legId⟩).map

end Bounds

/-
The statements.
-/

section Statements

variable {t : LegTable}

theorem WithinBounds.executeUpdate {p : LegRow → Bool} {f : LegRow → LegRow} {hf : ∀ row, (f row).id = row.id}
    (h : WithinBounds t)
    (hvalid : ∀ row, p row = true → ValidNumber row.legNumber → ValidNumber (f row).legNumber)
    : WithinBounds ((executeUpdate p f hf).run t).2 := by
  rcases executeUpdate_cases p f hf t with hlegs | hlegs
  . intro row hrow
    rw [hlegs] at hrow
    obtain ⟨old, hold, rfl⟩ := List.mem_map.mp hrow
    split
    . exact hvalid old ‹_› (h old hold)
    . exact h old hold
  . rw [hlegs]
    exact h

theorem WithinBounds.saveLeg (h : WithinBounds t) {leg : Leg} (hleg : ValidNumber leg.legNumber)
    : WithinBounds ((saveLeg leg).run t).2 := by
  rcases saveLeg_cases leg t with hlegs | hlegs
  . intro row hrow
    rw [Sql.Table.rows_insert? hlegs, List.mem_append, List.mem_singleton] at hrow
    rcases hrow with hrow | rfl
    . exact h row hrow
    . exact hleg
  . rw [hlegs]
    exact h

theorem WithinBounds.execute (h : WithinBounds t) {statement : LegStatement} (hasks : statement.Bounded)
    : WithinBounds (statement.execute.run t).2 := by
  cases statement with
  | listLegs _ | findLeg _ | nextLegNumber _ => exact h
  | saveLeg leg => exact h.saveLeg hasks
  | updateLeg leg => exact h.executeUpdate fun _ _ _ => hasks
  | deleteLeg legId => exact fun row hrow => h row (List.mem_of_mem_filter hrow)
  | placeLeg now legId newPosition => exact h.executeUpdate fun _ _ _ => hasks
  | shiftLegs now legId activityId currentPosition newPosition =>
    obtain ⟨⟨hone, hmax⟩, _⟩ := hasks
    change WithinBounds
      ((LegMethod.shiftLegs .infrastructure now legId activityId currentPosition newPosition).run t).2
    unfold LegMethod.shiftLegs
    split
    . apply h.executeUpdate
      intro row hrow hvalid
      obtain ⟨_, _, hlt, _⟩ := of_decide_eq_true hrow
      exact ⟨Nat.le_add_left 1 _, Nat.le_trans hlt hmax⟩
    . apply h.executeUpdate
      intro row hrow hvalid
      obtain ⟨_, hlt, _, _⟩ := of_decide_eq_true hrow
      exact ⟨Nat.le_sub_of_add_le (Nat.lt_of_le_of_lt hone hlt), Nat.le_trans (Nat.sub_le _ 1) hvalid.2⟩

theorem WithinBounds.tells (h : WithinBounds t) (statement : LegStatement)
    : TellsBounded () (.leg statement) (statement.execute.run t).1 := by
  cases statement with
  | findLeg legId =>
    intro leg hleg
    obtain ⟨row, hrow, rfl⟩ := Option.map_eq_some_iff.mp (Except.ok.inj hleg)
    exact h row (Sql.Table.mem_of_find? hrow)
  | listLegs activityId =>
    intro legs hlegs leg hleg
    cases hlegs
    obtain ⟨row, hrow, rfl⟩ := List.mem_map.mp hleg
    exact h row (Sql.Table.mem_of_find? ((Sql.Table.mem_selectOrdered _).mp hrow).1)
  | saveLeg _ | updateLeg _ | deleteLeg _ | nextLegNumber _ | shiftLegs _ _ _ _ _ | placeLeg _ _ _ => trivial

theorem WithinBounds.answer {s : Tables} (h : WithinBounds s.legs) (errors : SerdeErrors) {statement : Statement}
    (hasks : AsksBounded () statement)
    : WithinBounds (answer errors statement s).2.legs ∧ TellsBounded () statement (answer errors statement s).1 := by
  cases statement with
  | activity _ | listActivities _ _ _ _ | getLegSummary _ => exact ⟨h, trivial⟩
  | leg statement => exact ⟨h.execute hasks, h.tells statement⟩

theorem WithinBounds.length_numbers_le (h : WithinBounds t) (activityId : Uuid)
    : (t.numbers activityId).length ≤ MAX_LEGS_PER_ACTIVITY := by
  have hsub : t.numbers activityId ⊆ List.range' 1 MAX_LEGS_PER_ACTIVITY := by
    intro number hnumber
    obtain ⟨_, row, hrow, _, rfl⟩ := LegTable.mem_numbers.mp hnumber
    have hvalid := h row (Sql.Table.mem_of_find? hrow)
    exact List.mem_range'_1.mpr ⟨hvalid.1, Nat.lt_one_add_iff.mpr hvalid.2⟩
  have hle := (LegTable.nodup_numbers t activityId).subperm hsub |>.length_le
  rwa [List.length_range'] at hle

end Statements

section Runs

variable {ι : Type} [DecidableEq ι]

/--
The legs have valid numbers, and every client keeps to them.
-/
def Bounded (c : Config Tables Client ι) : Prop :=
  WithinBounds c.shared.legs
    ∧ ∀ i, (c.clients i).Tracks AsksBounded TellsBounded (fun _ _ _ => ()) (fun _ _ => True) ()

theorem Bounded.fire {c : Config Tables Client ι} (h : Bounded c) (errors : SerdeErrors) (i : ι)
    : Bounded (fire (Program.step (answer errors)) c i) := by
  obtain ⟨hlegs, hclients⟩ := h
  constructor
  . change WithinBounds (Program.step (answer errors) c.shared (c.clients i)).1.legs
    cases hclient : c.clients i with
    | done result => exact hlegs
    | ask statement next =>
      have hasks := (hclients i).asks_of_command (congrArg Program.command? hclient)
      exact (hlegs.answer errors hasks).1
  . intro j
    by_cases hj : j = i
    . subst hj
      rw [fire_clients_self]
      apply (hclients j).step
      intro statement hstatement
      exact (hlegs.answer errors ((hclients j).asks_of_command hstatement)).2
    . rw [fire_clients_ne _ c hj]
      exact hclients j

theorem legs_within_bounds (cursors : CursorExternals) (errors : SerdeErrors) (calls : ι → Call) (s : Tables)
    (hlegs : WithinBounds s.legs) (schedule : List ι)
    : WithinBounds (run (Program.step (answer errors)) (start cursors calls s) schedule).shared.legs
        ∧ ∀ activityId, ((run (Program.step (answer errors)) (start cursors calls s)
          schedule).shared.legs.numbers activityId).length ≤ MAX_LEGS_PER_ACTIVITY := by
  have hstart : Bounded (start cursors calls s) :=
    ⟨hlegs, fun i => Program.Tracks.mono (keepsBounds_endpoint cursors (calls i)).yields fun _ _ _ => trivial⟩
  have hrun : Bounded (run (Program.step (answer errors)) (start cursors calls s) schedule) :=
    run_induction _ (fun _ i hc => hc.fire errors i) hstart schedule
  exact ⟨hrun.1, hrun.1.length_numbers_le⟩

end Runs

/-
Two legs are added at the same time, and both get the last number.
-/

def sampleLegRow : LegRow where
  id := ⟨5⟩
  activityId := ⟨2⟩
  legNumber := 29
  title := none
  date := 0
  sourceRevisionId := none
  recordedTrackId := none
  createdAt := 0
  updatedAt := 0

def sampleNearlyFull : LegTable where
  legs := ⟨[sampleLegRow], by decide⟩
  unique := by decide

def sampleAdditions (isFirst : Bool) : Call where
  user := ⟨⟨20⟩⟩
  request := .addLeg ⟨2⟩ none 0
  now := 1
  newLegId := if isFirst then ⟨3⟩ else ⟨4⟩

def sampleAdded : Config Tables Client Bool :=
  run (Program.step (answer ActivityCatalog.sampleErrors))
    (start ActivityCatalog.listedExternals sampleAdditions { sampleTables with legs := sampleNearlyFull })
    [true, false, true, false, true, false]

-- the second one is refused by the database
theorem legs_within_bounds_sampleAdditions
    : WithinBounds sampleAdded.shared.legs
        ∧ (∀ activityId, (sampleAdded.shared.legs.numbers activityId).length ≤ MAX_LEGS_PER_ACTIVITY)
        ∧ sampleAdded.shared.legs.numbers ⟨2⟩ = [29, 30]
        ∧ sampleAdded.clients false
          = .done (.error (.err (legErrorToApiError (uniqueViolation "legs_activity_id_leg_number_key")))) := by
  have hlegs : WithinBounds sampleNearlyFull := by
    intro row hrow
    obtain rfl : row = sampleLegRow := List.mem_singleton.mp hrow
    exact ⟨by decide, by decide⟩
  obtain ⟨hbounds, hlength⟩ := legs_within_bounds ActivityCatalog.listedExternals ActivityCatalog.sampleErrors
    sampleAdditions { sampleTables with legs := sampleNearlyFull } hlegs [true, false, true, false, true, false]
  exact ⟨hbounds, hlength, rfl, rfl⟩

end Catalog

end Api
