import Haiker.ActivityCatalog.ActivityListing
import Haiker.Api.Activities
import Haiker.Concurrency.Isolation
import Haiker.Imports.StoredTitles
import Haiker.RecordedActivity.Lemmas.Legs
import Haiker.Sql.Views

/-!
This module contains that the endpoints of the activities and of their legs keep users apart: what a user is
answered and what he owns is, in whatever order the statements of all requests come, as if nobody else had
made a request.
-/

open Rust
open ActivityCatalog (Activity ActivityCatalogError ActivityId ActivityM CursorExternals)
open Identity (UserId)
open Interleaving
open Program (Agree)
open RecordedActivity
open RouteVersioning (SerdeErrors)

namespace Api

namespace Catalog

/-
The statements that the requests of a user come to.
-/

section Statements

/-
`owner` is the user that an activity belongs to, `home` the activity that a leg belongs to.
-/
variable (owner home : Uuid → Option Uuid) (user : UserId)

def LegOf (legId : LegId) : Prop :=
  ∃ activityId, home legId.val = some activityId ∧ owner activityId = some user.val

-- the one statement that is asked about a leg before it is known whose it is
def Reads : Statement → Prop
  | .getLegSummary _ => True
  | _ => False

/--
Activities and legs are looked for under any id. Everything else concerns those of the user.
-/
def Asks : Statement → Prop
  | .activity (.findById _) | .activity (.findVersion _) | .leg (.findLeg _) | .getLegSummary _ => True
  | .activity (.update activity) => owner activity.id.val = some user.val
  | .activity (.commit ..) => False
  | .listActivities _ ownerId _ _ => ownerId = user
  | .leg (.listLegs activityId) | .leg (.nextLegNumber activityId)
  | .leg (.shiftLegs _ _ activityId _ _) => owner activityId.val = some user.val
  | .leg (.saveLeg leg) => home leg.id.val = some leg.activityId.val ∧ owner leg.activityId.val = some user.val
  | .leg (.updateLeg leg) => LegOf owner home user leg.id
  | .leg (.deleteLeg legId) | .leg (.placeLeg _ legId _) => LegOf owner home user legId

/--
Two searches that have found the same, or nothing that is the user's own.
-/
def Hides {α : Type} (known own : α → Prop) (found found' : Option α) : Prop :=
  (∀ a ∈ found, known a) ∧ (∀ a ∈ found', known a)
    ∧ (found = found' ∨ (∀ a ∈ found, ¬own a) ∧ ∀ a ∈ found', ¬own a)

def KnownActivity (id : ActivityId) (a : Activity) : Prop := a.id = id ∧ owner id.val = some a.ownerId.val

def KnownLeg (legId : LegId) (leg : Leg) : Prop := leg.id = legId ∧ home legId.val = some leg.activityId.val

def FoundActivities (id : ActivityId) : Option Activity → Option Activity → Prop :=
  Hides (KnownActivity owner id) (·.ownerId = user)

def FoundLegs (legId : LegId) : Option Leg → Option Leg → Prop :=
  Hides (KnownLeg home legId) fun leg => owner leg.activityId.val = some user.val

/--
Results that are the same error, or related.
-/
def Replies {ε α : Type} (post : α → α → Prop) (reply reply' : Except ε α) : Prop :=
  (∃ e, reply = .error e ∧ reply' = .error e) ∨ ∃ a a', reply = .ok a ∧ reply' = .ok a' ∧ post a a'

def Tells : (statement : Statement) → statement.Reply → statement.Reply → Prop
  | .activity (.findById id), reply, reply' => Replies (FoundActivities owner user id) reply reply'
  | .leg (.findLeg legId), reply, reply' => Replies (FoundLegs owner home user legId) reply reply'
  | .leg (.listLegs activityId), reply, reply' =>
    Replies (fun legs legs' => legs = legs' ∧ ∀ leg ∈ legs, home leg.id.val = some activityId.val) reply reply'
  | .getLegSummary legId, reply, reply' => LegOf owner home user legId → reply = reply'
  | .activity (.findVersion _), reply, reply' => reply = reply'
  | .activity (.update _), reply, reply' => reply = reply'
  | .activity (.commit ..), reply, reply' => reply = reply'
  | .listActivities .., reply, reply' => reply = reply'
  | .leg (.saveLeg _), reply, reply' => reply = reply'
  | .leg (.updateLeg _), reply, reply' => reply = reply'
  | .leg (.deleteLeg _), reply, reply' => reply = reply'
  | .leg (.nextLegNumber _), reply, reply' => reply = reply'
  | .leg (.shiftLegs ..), reply, reply' => reply = reply'
  | .leg (.placeLeg ..), reply, reply' => reply = reply'

/--
The methods give statements of the user only, and come to the same whichever of the related replies they get.
-/
def Agrees {ε α : Type} (alike : ε → ε → Prop) (post : α → α → Prop)
    (x y : ExceptT ε (Program Statement.Reply) α) : Prop :=
  Agree Reads (Asks owner home user) (Tells owner home user) alike post x.run y.run

-- errors that the user gets the same answer for
def SameActivityError (e e' : Fault ActivityCatalogError) : Prop :=
  mapFault activityErrorToApiError e = mapFault activityErrorToApiError e'

def SameLegError (e e' : LegError) : Prop := legErrorToApiError e = legErrorToApiError e'

def ActivitiesAgree {α : Type} (post : α → α → Prop) (x y : ActivityM α) : Prop :=
  Agree (fun _ => False) (fun command => Asks owner home user (.activity command))
    (fun command => Tells owner home user (.activity command)) SameActivityError post x.run y.run

end Statements

section Programs

variable {owner home : Uuid → Option Uuid} {user : UserId} {ε α : Type}

theorem agree_replies {Command : Type} {Reply : Command → Type} {reads asks : Command → Prop}
    {tells : (command : Command) → Reply command → Reply command → Prop} {alike : ε → ε → Prop}
    {post : α → α → Prop} {reply reply' : Except ε α} (halike : ∀ e, alike e e) (h : Replies post reply reply')
    : Agree reads asks tells alike post (.done reply) (.done reply') := by
  rcases h with ⟨e, rfl, rfl⟩ | ⟨a, a', rfl, rfl, hpost⟩
  . exact .fails (halike e) rfl rfl
  . exact .done hpost

theorem replies_of_eq {reply reply' : Except ε α} (h : reply = reply') : Replies (· = ·) reply reply' := by
  subst h
  cases reply with
  | ok a => exact .inr ⟨a, a, rfl, rfl, rfl⟩
  | error e => exact .inl ⟨e, rfl, rfl⟩

/-
The methods of the activities.
-/

theorem agree_overActivities {alike : Fault ActivityCatalogError → Fault ActivityCatalogError → Prop}
    {post : α → α → Prop} {program program' : Program ActivityCatalog.Command.Reply (Except _ α)}
    (h : Agree (fun _ => False) (fun command => Asks owner home user (.activity command))
      (fun command => Tells owner home user (.activity command)) alike post program program')
    : Agree Reads (Asks owner home user) (Tells owner home user) alike post (overActivities program)
        (overActivities program') := by
  induction h with
  | done h => exact .done h
  | @fails e e' program program' he h h' =>
    cases program with
    | ask command next => exact h.1.elim
    | done result =>
      cases program' with
      | ask command next => exact h'.1.elim
      | done result' => exact .fails he h h'
  | ask command hasks _ ih => exact .ask (Statement.activity command) hasks ih

theorem agrees_activityMethod {post : α → α → Prop} {x y : ActivityM α}
    (h : ActivitiesAgree owner home user post x y)
    : Agrees owner home user (· = ·) post (activityMethod x) (activityMethod y) :=
  (show Agrees owner home user SameActivityError post (ExceptT.mk (overActivities x.run))
    (ExceptT.mk (overActivities y.run)) from agree_overActivities h).adapt fun _ _ he => he

theorem agree_findById (id : ActivityId)
    : ActivitiesAgree owner home user (FoundActivities owner user id) (ActivityM.findById id)
        (ActivityM.findById id) :=
  Agree.ask (ActivityCatalog.Command.findById id) trivial fun _ _ h => agree_replies (fun _ => rfl) h

theorem agree_update (activity : Activity) (h : owner activity.id.val = some user.val)
    : ActivitiesAgree owner home user (· = ·) (ActivityM.update activity) (ActivityM.update activity) :=
  Agree.ask (ActivityCatalog.Command.update activity) h
    fun _ _ h => agree_replies (fun _ => rfl) (replies_of_eq h)

theorem agree_ofExcept (result : Except (Fault ActivityCatalogError) α)
    : ActivitiesAgree owner home user (· = ·) (ActivityM.ofExcept result) (ActivityM.ofExcept result) :=
  agree_replies (fun _ => rfl) (replies_of_eq rfl)

theorem agree_findVersion (id : RouteVersioning.RouteVersionId)
    : ActivitiesAgree owner home user (· = ·) (ActivityM.findVersion id) (ActivityM.findVersion id) := by
  refine Agree.ask (ActivityCatalog.Command.findVersion id) trivial ?_
  intro reply reply' h
  obtain rfl : reply = reply' := h
  exact agree_replies (fun _ => rfl) (replies_of_eq rfl)

/--
Both have loaded the same activity of the user.
-/
def SameOwn (owner : Uuid → Option Uuid) (user : UserId) (activityId : ActivityId) (a a' : Activity) : Prop :=
  a = a' ∧ a.id = activityId ∧ owner activityId.val = some user.val

variable {activityId : ActivityId} (now : Timestamp)

theorem agree_getActivity (activityId : Uuid)
    : ActivitiesAgree owner home user (SameOwn owner user ⟨activityId⟩) (getActivity user activityId)
        (getActivity user activityId) := by
  refine (agree_findById ⟨activityId⟩).bind ?_
  rintro found found' ⟨hknown, hknown', hfound⟩
  -- what is not the user's own does not pass the filter
  have hnone : ∀ found : Option Activity, (∀ a ∈ found, ¬a.ownerId = user) →
      found.filter (fun a => a.ownerId = user ∧ a.lifecycleState ≠ .deleted) = none := by
    intro found hother
    rw [Option.filter_eq_none_iff]
    intro a ha
    simp [hother a ha]
  rcases hfound with rfl | ⟨hother, hother'⟩
  . cases hown : found.filter fun a => a.ownerId = user ∧ a.lifecycleState ≠ .deleted with
    | none => exact .fails rfl rfl rfl
    | some a =>
      obtain ⟨ha, hown⟩ := Option.filter_eq_some_iff.mp hown
      rw [decide_eq_true_eq] at hown
      obtain ⟨hid, howner⟩ := hknown a ha
      rw [hown.1] at howner
      exact .done ⟨rfl, hid, howner⟩
  . rw [hnone found hother, hnone found' hother']
    exact .fails rfl rfl rfl

theorem agree_loadOwn (activityId : ActivityId)
    : ActivitiesAgree owner home user (SameOwn owner user activityId)
        (ActivityCatalog.loadOwn activityId user) (ActivityCatalog.loadOwn activityId user) := by
  refine (agree_findById activityId).bind ?_
  rintro found found' ⟨hknown, hknown', hfound⟩
  rcases hfound with rfl | ⟨hother, hother'⟩
  . cases found with
    | none => exact .fails rfl rfl rfl
    | some a =>
      obtain ⟨hid, howner⟩ := hknown a rfl
      simp only
      split
      . exact .fails rfl rfl rfl
      . next hown =>
        rw [not_not] at hown
        rw [hown] at howner
        exact .done ⟨rfl, hid, howner⟩
  -- of another user's activity one error is as good as the other
  . cases found with
    | none =>
      cases found' with
      | none => exact .fails rfl rfl rfl
      | some a' =>
        simp only [if_pos (hother' a' rfl)]
        exact Program.agree_throw rfl
    | some a =>
      cases found' with
      | none =>
        simp only [if_pos (hother a rfl)]
        exact Program.agree_throw rfl
      | some a' =>
        simp only [if_pos (hother a rfl), if_pos (hother' a' rfl)]
        exact .fails rfl rfl rfl

theorem agree_loadActive (activityId : ActivityId)
    : ActivitiesAgree owner home user (SameOwn owner user activityId)
        (ActivityCatalog.loadActive activityId user) (ActivityCatalog.loadActive activityId user) := by
  refine (agree_loadOwn activityId).bind ?_
  rintro a _ ⟨rfl, hown⟩
  split
  . exact .fails rfl rfl rfl
  . exact .done ⟨rfl, hown⟩

theorem agree_renameActivity (title : String)
    : ActivitiesAgree owner home user (· = ·) (ActivityCatalog.renameActivity now activityId user title)
        (ActivityCatalog.renameActivity now activityId user title) := by
  refine (agree_ofExcept _).bind ?_
  rintro title _ rfl
  refine (agree_loadActive activityId).bind ?_
  rintro a _ ⟨rfl, rfl, howner⟩
  refine (agree_update (a.updateTitle now title) howner).bind ?_
  exact fun _ _ _ => .done rfl

theorem agree_deleteActivity
    : ActivitiesAgree owner home user (· = ·) (ActivityCatalog.deleteActivity now activityId user)
        (ActivityCatalog.deleteActivity now activityId user) := by
  refine (agree_loadOwn activityId).bind ?_
  rintro a _ ⟨rfl, rfl, howner⟩
  split
  . exact .done rfl
  . exact agree_update (a.delete now) howner

theorem agree_loadVersion (id : RouteVersioning.RouteVersionId)
    : ActivitiesAgree owner home user (· = ·) (ActivityCatalog.loadVersion activityId id)
        (ActivityCatalog.loadVersion activityId id) := by
  refine (agree_findVersion id).bind ?_
  rintro found _ rfl
  cases found with
  | none => exact .fails rfl rfl rfl
  | some version =>
    simp only
    split
    . exact .fails rfl rfl rfl
    . exact .done rfl

theorem agree_selectCurrentRouteVersion (id : RouteVersioning.RouteVersionId)
    : ActivitiesAgree owner home user (· = ·)
        (ActivityCatalog.selectCurrentRouteVersion now activityId user id)
        (ActivityCatalog.selectCurrentRouteVersion now activityId user id) := by
  refine (agree_loadActive activityId).bind ?_
  rintro a _ ⟨rfl, rfl, howner⟩
  refine (agree_loadVersion id).bind ?_
  rintro version _ rfl
  refine (agree_update (a.selectCurrentRouteVersion now id version.correctedStatistics.toJson) howner).bind ?_
  exact fun _ _ _ => .done rfl

/-
The commands on legs.
-/

theorem agrees_legStatement (statement : LegStatement) {post : statement.Reply → statement.Reply → Prop}
    (hasks : Asks owner home user (.leg statement))
    (htells : ∀ reply reply', Tells owner home user (.leg statement) reply reply' → Replies post reply reply')
    : Agrees owner home user SameLegError post (legStatement statement) (legStatement statement) :=
  Agree.ask (Statement.leg statement) hasks fun _ _ h => agree_replies (fun _ => rfl) (htells _ _ h)

theorem agrees_ofExcept {alike : ε → ε → Prop} (halike : ∀ e, alike e e) (result : Except ε α)
    : Agrees owner home user alike (fun a a' => a = a' ∧ result = .ok a) (ofExcept result) (ofExcept result) := by
  cases result with
  | ok a => exact .done ⟨rfl, rfl⟩
  | error e => exact .fails (halike e) rfl rfl

theorem agrees_getLegSummary {alike : ε → ε → Prop} {legId : LegId} (h : LegOf owner home user legId)
    : Agrees owner home user alike (· = ·) (ExceptT.lift (.call (Statement.getLegSummary legId)))
        (ExceptT.lift (.call (Statement.getLegSummary legId))) :=
  Agree.ask (Statement.getLegSummary legId) trivial fun _ _ htells => .done (htells h)

theorem SameLegError.refl (e : LegError) : SameLegError e e := rfl

/--
Both have loaded the same leg.
-/
def SameLeg (home : Uuid → Option Uuid) (legId : LegId) (leg leg' : Leg) : Prop :=
  leg = leg' ∧ leg.id = legId ∧ home legId.val = some leg.activityId.val

variable {legId : LegId}

theorem LegOf.owned (h : LegOf owner home user legId) {leg : Leg} (hknown : KnownLeg home legId leg)
    : owner leg.activityId.val = some user.val := by
  obtain ⟨activityId, hhome, howner⟩ := h
  obtain rfl := Option.some.inj (hhome.symm.trans hknown.2)
  exact howner

theorem LegOf.of_home {activityId : Uuid} (hhome : home legId.val = some activityId)
    (howner : owner activityId = some user.val) : LegOf owner home user legId := ⟨activityId, hhome, howner⟩

theorem agrees_loadLeg (h : LegOf owner home user legId)
    : Agrees owner home user SameLegError (SameLeg home legId) (loadLeg legId) (loadLeg legId) := by
  refine (agrees_legStatement (.findLeg legId) trivial fun _ _ htells => htells).bind ?_
  rintro found found' ⟨hknown, hknown', hfound⟩
  rcases hfound with rfl | ⟨hother, hother'⟩
  . cases found with
    | none => exact .fails rfl rfl rfl
    | some leg => exact .done ⟨rfl, hknown leg rfl⟩
  . cases found with
    | some leg => exact (hother leg rfl (h.owned (hknown leg rfl))).elim
    | none =>
      cases found' with
      | some leg => exact (hother' leg rfl (h.owned (hknown' leg rfl))).elim
      | none => exact .fails rfl rfl rfl

theorem agrees_updateLeg {leg : Leg} (h : LegOf owner home user leg.id)
    : Agrees owner home user SameLegError (· = ·) (legStatement (.updateLeg leg))
        (legStatement (.updateLeg leg)) :=
  agrees_legStatement (.updateLeg leg) h fun _ _ => replies_of_eq

theorem of_new {id : LegId} {activityId : ActivityId} {legNumber : Nat} {title : Option LegTitle}
    {date : NaiveDate} {sourceRevisionId : Option SourceRevisionId} {recordedTrackId : Option RecordedTrackId}
    {leg : Leg}
    (h : Leg.new now id activityId legNumber title date sourceRevisionId recordedTrackId = .ok leg)
    : leg.id = id ∧ leg.activityId = activityId := by
  unfold Leg.new at h
  split at h
  . cases h
  . split at h
    . cases h
    . cases h
      exact ⟨rfl, rfl⟩

theorem id_of_updateLegNumber {legNumber : Nat} {leg leg' : Leg} (h : leg.updateLegNumber now legNumber = .ok leg')
    : leg'.id = leg.id := by
  unfold Leg.updateLegNumber at h
  split at h
  . cases h
  . split at h
    . cases h
    . cases h
      rfl

theorem agrees_addLeg {activityId : ActivityId} (title : Option String) (date : NaiveDate)
    (sourceRevisionId : Option SourceRevisionId) (recordedTrackId : Option RecordedTrackId)
    (hhome : home legId.val = some activityId.val) (howner : owner activityId.val = some user.val)
    : Agrees owner home user SameLegError (· = ·)
        (addLeg now legId activityId title date sourceRevisionId recordedTrackId)
        (addLeg now legId activityId title date sourceRevisionId recordedTrackId) := by
  refine (agrees_legStatement (.nextLegNumber activityId) howner fun _ _ => replies_of_eq).bind ?_
  rintro legNumber _ rfl
  split
  . exact .fails rfl rfl rfl
  . refine (agrees_ofExcept SameLegError.refl _).bind ?_
    rintro legTitle _ ⟨rfl, _⟩
    refine (agrees_ofExcept SameLegError.refl _).bind ?_
    rintro leg _ ⟨rfl, hnew⟩
    obtain ⟨hid, hactivity⟩ := of_new now hnew
    have hasks : Asks owner home user (.leg (.saveLeg leg)) := by
      rw [← hid, ← hactivity] at hhome
      rw [← hactivity] at howner
      exact ⟨hhome, howner⟩
    refine (agrees_legStatement (.saveLeg leg) hasks fun _ _ => replies_of_eq).bind ?_
    exact fun _ _ _ => .done rfl

section Own

variable (h : LegOf owner home user legId)

include h

theorem agrees_renameLeg (newTitle : Option String)
    : Agrees owner home user SameLegError (· = ·) (renameLeg now legId newTitle)
        (renameLeg now legId newTitle) := by
  refine (agrees_ofExcept SameLegError.refl _).bind ?_
  rintro title _ ⟨rfl, _⟩
  refine (agrees_loadLeg h).bind ?_
  rintro leg _ ⟨rfl, rfl, _⟩
  have hleg : LegOf owner home user (leg.rename now title).id := h
  exact (agrees_updateLeg hleg).bind fun _ _ _ => .done rfl

theorem agrees_updateLegDate (newDate : NaiveDate)
    : Agrees owner home user SameLegError (· = ·) (updateLegDate now legId newDate)
        (updateLegDate now legId newDate) := by
  refine (agrees_loadLeg h).bind ?_
  rintro leg _ ⟨rfl, rfl, _⟩
  have hleg : LegOf owner home user (leg.updateDate now newDate).id := h
  exact (agrees_updateLeg hleg).bind fun _ _ _ => .done rfl

theorem agrees_reorderLegs {activityId : ActivityId} (howner : owner activityId.val = some user.val)
    (newPosition : Nat)
    : Agrees owner home user SameLegError (· = ·) (reorderLegs now legId activityId newPosition)
        (reorderLegs now legId activityId newPosition) := by
  refine (agrees_loadLeg h).bind ?_
  rintro currentLeg _ ⟨rfl, _⟩
  split
  . exact .done rfl
  . refine (agrees_legStatement (.shiftLegs now legId activityId currentLeg.legNumber newPosition) howner
      fun _ _ => replies_of_eq).bind ?_
    exact fun _ _ _ => agrees_legStatement (.placeLeg now legId newPosition) h fun _ _ => replies_of_eq

theorem agrees_reorderLeg (newPosition : Nat)
    : Agrees owner home user SameLegError (· = ·) (reorderLeg now legId newPosition)
        (reorderLeg now legId newPosition) := by
  unfold reorderLeg
  split
  . exact .fails rfl rfl rfl
  . split
    . exact .fails rfl rfl rfl
    . refine (agrees_loadLeg h).bind ?_
      rintro leg _ ⟨rfl, hknown⟩
      exact agrees_reorderLegs now h (h.owned hknown) newPosition

theorem agrees_getLegDetail
    : Agrees owner home user SameLegError (· = ·) (getLegDetail legId) (getLegDetail legId) := by
  refine (agrees_loadLeg h).bind ?_
  rintro leg _ ⟨rfl, _⟩
  refine (agrees_getLegSummary h).bind ?_
  rintro summary _ rfl
  exact .done rfl

omit h in
theorem agrees_renumber {legs : List Leg} (hlegs : ∀ leg ∈ legs, LegOf owner home user leg.id) (idx : Nat)
    : Agrees owner home user SameLegError (· = ·) (renumber now idx legs) (renumber now idx legs) := by
  induction legs generalizing idx with
  | nil => exact .done rfl
  | cons leg legs ih =>
    have hrest := ih (fun leg hleg => hlegs leg (List.mem_cons_of_mem _ hleg)) (idx + 1)
    unfold renumber
    dsimp only
    split
    . refine (agrees_ofExcept SameLegError.refl _).bind ?_
      rintro updated _ ⟨rfl, hupdated⟩
      have hleg : LegOf owner home user updated.id := by
        rw [id_of_updateLegNumber now hupdated]
        exact hlegs leg List.mem_cons_self
      exact (agrees_updateLeg hleg).bind fun _ _ _ => hrest
    . exact hrest

theorem agrees_removeLeg
    : Agrees owner home user SameLegError (· = ·) (removeLeg now legId) (removeLeg now legId) := by
  refine (agrees_loadLeg h).bind ?_
  rintro leg _ ⟨rfl, hknown⟩
  have howner := h.owned hknown
  refine (agrees_legStatement (.deleteLeg legId) h fun _ _ => replies_of_eq).bind ?_
  rintro _ _ _
  refine (agrees_legStatement (.listLegs leg.activityId) howner fun _ _ htells => htells).bind ?_
  rintro remainingLegs _ ⟨rfl, hhome⟩
  apply agrees_renumber
  intro remainingLeg hmem
  rw [List.mem_insertionSort] at hmem
  exact .of_home (hhome remainingLeg hmem) howner

end Own

/-
The endpoints.
-/

theorem agrees_legMethod {post : α → α → Prop} {x y : LegProgram α} (h : Agrees owner home user SameLegError post x y)
    : Agrees owner home user (· = ·) post (legMethod x) (legMethod y) :=
  Agree.adapt h fun _ _ he => congrArg Fault.err he

theorem agrees_verifyActivityOwnership (activityId : Uuid)
    : Agrees owner home user (· = ·)
        (fun id id' => id = ⟨activityId⟩ ∧ id' = id ∧ owner activityId = some user.val)
        (verifyActivityOwnership user activityId) (verifyActivityOwnership user activityId) := by
  have hverified : Agrees owner home user (· = ·) (SameOwn owner user ⟨activityId⟩)
      (ExceptT.adapt (mapFault fun _ => activityNotFoundError)
        (ExceptT.mk (overActivities (getActivity user activityId).run)))
      (ExceptT.adapt (mapFault fun _ => activityNotFoundError)
        (ExceptT.mk (overActivities (getActivity user activityId).run))) := by
    apply Agree.adapt (agree_overActivities (agree_getActivity activityId))
    intro e e' he
    cases e with
    | panic =>
      cases e' with
      | panic => rfl
      | err _ => cases he
    | err _ =>
      cases e' with
      | panic => cases he
      | err _ => rfl
  refine Agree.bind hverified ?_
  rintro a _ ⟨rfl, _, howner⟩
  exact .done ⟨rfl, rfl, howner⟩

theorem agrees_readSummaries {legs : List Leg} (hlegs : ∀ leg ∈ legs, LegOf owner home user leg.id)
    : Agrees owner home user (· = ·) (· = ·) (readSummaries legs) (readSummaries legs) := by
  induction legs with
  | nil => exact .done rfl
  | cons leg legs ih =>
    refine (agrees_getLegSummary (hlegs leg List.mem_cons_self)).bind ?_
    rintro summary _ rfl
    refine (ih fun leg hleg => hlegs leg (List.mem_cons_of_mem _ hleg)).bind ?_
    rintro rest _ rfl
    exact .done rfl

theorem agrees_getActivityDetail (activityId : Uuid)
    : Agrees owner home user (· = ·) (· = ·) (getActivityDetail user activityId)
        (getActivityDetail user activityId) := by
  refine (agrees_activityMethod (agree_getActivity activityId)).bind ?_
  rintro a _ ⟨rfl, hid, howner⟩
  have hlisted : Agrees owner home user (fun e e' : Fault ApiError => e = e')
      (fun reply reply' => reply = reply' ∧ ∀ leg ∈ reply.toOption.getD [], LegOf owner home user leg.id)
      (ExceptT.lift (legStatement (.listLegs a.id)).run) (ExceptT.lift (legStatement (.listLegs a.id)).run) := by
    have hasks : Asks owner home user (.leg (.listLegs a.id)) := by rwa [← hid] at howner
    refine Agree.ask (Statement.leg (.listLegs a.id)) hasks ?_
    intro reply reply' htells
    rcases htells with ⟨e, rfl, rfl⟩ | ⟨legs, _, rfl, rfl, rfl, hhome⟩
    . refine .done ⟨rfl, ?_⟩
      intro leg hleg
      cases hleg
    . exact .done ⟨rfl, fun leg hleg => .of_home (hhome leg hleg) hasks⟩
  refine Agree.bind hlisted ?_
  rintro reply _ ⟨rfl, hlegs⟩
  refine (agrees_readSummaries hlegs).bind ?_
  rintro legs _ rfl
  exact .done rfl

theorem agrees_getActivities (cursors : CursorExternals) (cursor : Option String) (pageSize : Option Nat)
    : Agrees owner home user (· = ·) (· = ·) (getActivities cursors user cursor pageSize)
        (getActivities cursors user cursor pageSize) := by
  have hlisted : Agrees owner home user (fun e e' : Fault ActivityCatalogError => e = e') (· = ·)
      (ExceptT.mk (.call (Statement.listActivities cursors user cursor pageSize)))
      (ExceptT.mk (.call (Statement.listActivities cursors user cursor pageSize))) :=
    Agree.ask (Statement.listActivities cursors user cursor pageSize) rfl
      fun _ _ htells => agree_replies (fun _ => rfl) (replies_of_eq htells)
  refine Agree.bind (hlisted.adapt fun _ _ he => congrArg _ he) ?_
  rintro page _ rfl
  exact .done rfl

theorem agrees_postSelectCurrentRouteVersion (activityId : Uuid) (header : Option String) (routeVersionId : Uuid)
    : Agrees owner home user (· = ·) (· = ·)
        (postSelectCurrentRouteVersion now user activityId header routeVersionId)
        (postSelectCurrentRouteVersion now user activityId header routeVersionId) := by
  refine Agree.bind (agrees_ofExcept (fun _ => rfl) _) ?_
  rintro key _ ⟨rfl, _⟩
  refine (agrees_activityMethod (agree_selectCurrentRouteVersion now _)).bind ?_
  rintro a _ rfl
  exact .done rfl

theorem agrees_postAddLeg {activityId : Uuid} (title : Option String) (date : NaiveDate)
    (hhome : home legId.val = some activityId)
    : Agrees owner home user (· = ·) (· = ·) (postAddLeg now user activityId legId title date)
        (postAddLeg now user activityId legId title date) := by
  refine (agrees_verifyActivityOwnership activityId).bind ?_
  rintro id _ ⟨rfl, rfl, howner⟩
  refine (agrees_legMethod (agrees_addLeg now title date none none hhome howner)).bind ?_
  rintro leg _ rfl
  exact .done rfl

theorem agrees_getLegs (activityId : Uuid)
    : Agrees owner home user (· = ·) (· = ·) (getLegs user activityId) (getLegs user activityId) := by
  refine (agrees_verifyActivityOwnership activityId).bind ?_
  rintro id _ ⟨rfl, rfl, howner⟩
  refine (agrees_legMethod (agrees_legStatement (.listLegs ⟨activityId⟩) howner fun _ _ htells => htells)).bind ?_
  rintro legs _ ⟨rfl, hhome⟩
  refine (agrees_readSummaries fun leg hleg => .of_home (hhome leg hleg) howner).bind ?_
  rintro items _ rfl
  exact .done rfl

/-
A leg that is named in the path.
-/

-- of a leg that is not the user's own nothing is left to be done but to fail
theorem fails_of_other {activityId : Uuid} (howner : owner activityId = some user.val) {leg : Leg}
    (hother : ¬owner leg.activityId.val = some user.val) : leg.activityId.val ≠ activityId := by
  rintro rfl
  exact hother howner

theorem agrees_verifyLeg {activityId : Uuid} (howner : owner activityId = some user.val) (legId : LegId)
    : Agrees owner home user (· = ·) (fun _ _ => LegOf owner home user legId) (verifyLeg activityId legId)
        (verifyLeg activityId legId) := by
  refine (agrees_legMethod (agrees_legStatement (.findLeg legId) trivial fun _ _ htells => htells)).bind ?_
  rintro found found' ⟨hknown, hknown', hfound⟩
  rcases hfound with rfl | ⟨hother, hother'⟩
  . cases found with
    | none => exact .fails rfl rfl rfl
    | some leg =>
      simp only
      split
      . exact .fails rfl rfl rfl
      . next hactivity =>
        rw [not_not] at hactivity
        refine .done (.of_home (hknown leg rfl).2 ?_)
        rw [hactivity]
        exact howner
  . cases found with
    | none =>
      cases found' with
      | none => exact .fails rfl rfl rfl
      | some leg' =>
        simp only [if_pos (fails_of_other howner (hother' leg' rfl))]
        exact .fails rfl rfl rfl
    | some leg =>
      simp only [if_pos (fails_of_other howner (hother leg rfl))]
      cases found' with
      | none => exact .fails rfl rfl rfl
      | some leg' =>
        simp only [if_pos (fails_of_other howner (hother' leg' rfl))]
        exact .fails rfl rfl rfl

theorem agrees_patchLeg (activityId : Uuid) (legId : LegId) (body : UpdateLegRequest)
    : Agrees owner home user (· = ·) (· = ·) (patchLeg now user activityId legId body)
        (patchLeg now user activityId legId body) := by
  refine (agrees_verifyActivityOwnership activityId).bind ?_
  rintro id _ ⟨rfl, rfl, howner⟩
  refine (agrees_verifyLeg howner legId).bind ?_
  rintro _ _ h
  have htitle : Agrees owner home user (· = ·) (· = ·) (patchTitle now legId body.title)
      (patchTitle now legId body.title) := by
    cases body.title with
    | none => exact .done rfl
    | some title => exact (agrees_legMethod (agrees_renameLeg now h title)).bind fun _ _ _ => .done rfl
  have hdate : Agrees owner home user (· = ·) (· = ·) (patchDate now legId body.date)
      (patchDate now legId body.date) := by
    cases body.date with
    | none => exact .done rfl
    | some newDate => exact (agrees_legMethod (agrees_updateLegDate now h newDate)).bind fun _ _ _ => .done rfl
  have hposition : Agrees owner home user (· = ·) (· = ·) (patchPosition now legId body.legNumber)
      (patchPosition now legId body.legNumber) := by
    cases body.legNumber with
    | none => exact .done rfl
    | some newPosition => exact agrees_legMethod (agrees_reorderLeg now h newPosition)
  refine htitle.bind fun _ _ _ => hdate.bind fun _ _ _ => hposition.bind fun _ _ _ => ?_
  refine (agrees_legMethod (agrees_getLegDetail h)).bind ?_
  rintro detail _ rfl
  exact .done rfl

theorem agrees_deleteLegHandler (activityId : Uuid) (legId : LegId)
    : Agrees owner home user (· = ·) (· = ·) (deleteLegHandler now user activityId legId)
        (deleteLegHandler now user activityId legId) := by
  refine (agrees_verifyActivityOwnership activityId).bind ?_
  rintro id _ ⟨rfl, rfl, howner⟩
  refine (agrees_verifyLeg howner legId).bind ?_
  rintro _ _ h
  exact agrees_legMethod (agrees_removeLeg now h)

-- `rest` is what is done with the leg that has been found
theorem agree_detail {activityId : Uuid} (howner : owner activityId = some user.val) {found found' : Option Leg}
    (hfound : FoundLegs owner home user legId found found')
    (rest : Option Leg → Program Statement.Reply (Except (Fault ApiError) LegDetailResponse))
    (hnone : rest none = .done (.error (.err legNotFoundError)))
    (hsome : ∀ leg, rest (some leg) = .ask (.getLegSummary legId) fun summary =>
      ExceptT.run (if leg.activityId.val ≠ activityId then
        throw (.err legNotFoundError)
      else
        return legDetailResponse { leg, summary }))
    : Agree Reads (Asks owner home user) (Tells owner home user) (· = ·) (· = ·) (rest found) (rest found') := by
  have hfails : ∀ found : Option Leg, (∀ leg ∈ found, leg.activityId.val ≠ activityId) →
      Program.Fails Reads (Fault.err legNotFoundError) (rest found) := by
    intro found hother
    cases found with
    | none =>
      rw [hnone]
      rfl
    | some leg =>
      rw [hsome]
      simp only [if_pos (hother leg rfl)]
      exact ⟨trivial, fun _ => rfl⟩
  obtain ⟨hknown, hknown', hfound⟩ := hfound
  rcases hfound with rfl | ⟨hother, hother'⟩
  . by_cases hown : ∃ leg, found = some leg ∧ leg.activityId.val = activityId
    . obtain ⟨leg, rfl, rfl⟩ := hown
      rw [hsome]
      simp only [if_neg (not_not.mpr rfl)]
      refine .ask (Statement.getLegSummary legId) trivial ?_
      intro summary summary' htells
      rw [htells (.of_home (hknown leg rfl).2 howner)]
      exact .done rfl
    . have hother := hfails found fun leg hleg heq => hown ⟨leg, hleg, heq⟩
      exact .fails rfl hother hother
  . exact .fails rfl (hfails found fun leg hleg => fails_of_other howner (hother leg hleg))
      (hfails found' fun leg hleg => fails_of_other howner (hother' leg hleg))

theorem agrees_getLegDetailHandler (activityId : Uuid) (legId : LegId)
    : Agrees owner home user (· = ·) (· = ·) (getLegDetailHandler user activityId legId)
        (getLegDetailHandler user activityId legId) := by
  refine (agrees_verifyActivityOwnership activityId).bind ?_
  rintro id _ ⟨rfl, rfl, howner⟩
  refine Agree.ask (Statement.leg (.findLeg legId)) trivial ?_
  intro reply reply' htells
  rcases htells with ⟨e, rfl, rfl⟩ | ⟨found, found', rfl, rfl, hfound⟩
  . exact .fails rfl rfl rfl
  . apply agree_detail howner hfound
    . rfl
    . intro leg
      rfl

theorem agrees_endpoint (cursors : CursorExternals) (call : Call)
    (hnew : ∀ activityId title date, call.request = .addLeg activityId title date →
      home call.newLegId = some activityId)
    : Agrees owner home call.user (· = ·) (· = ·) (call.endpoint cursors) (call.endpoint cursors) := by
  unfold Call.endpoint
  cases hrequest : call.request with
  | getActivities cursor pageSize =>
    exact (agrees_getActivities cursors cursor pageSize).map fun _ _ => congrArg _
  | getActivityDetail activityId => exact (agrees_getActivityDetail activityId).map fun _ _ => congrArg _
  | patchActivityTitle activityId title =>
    refine Agree.map ?_ fun _ _ => congrArg _
    refine (agrees_activityMethod (agree_renameActivity call.now title)).bind ?_
    rintro a _ rfl
    exact .done rfl
  | deleteActivity activityId =>
    exact (agrees_activityMethod (agree_deleteActivity call.now)).map fun _ _ _ => rfl
  | selectCurrentRouteVersion activityId idempotencyKey routeVersionId =>
    exact (agrees_postSelectCurrentRouteVersion call.now activityId idempotencyKey routeVersionId).map
      fun _ _ => congrArg _
  | addLeg activityId title date =>
    exact (agrees_postAddLeg call.now title date (hnew activityId title date hrequest)).map fun _ _ => congrArg _
  | getLegs activityId => exact (agrees_getLegs activityId).map fun _ _ => congrArg _
  | getLegDetail activityId legId =>
    exact (agrees_getLegDetailHandler activityId ⟨legId⟩).map fun _ _ => congrArg _
  | patchLeg activityId legId body =>
    exact (agrees_patchLeg call.now activityId ⟨legId⟩ body).map fun _ _ => congrArg _
  | deleteLeg activityId legId =>
    exact (agrees_deleteLegHandler call.now activityId ⟨legId⟩).map fun _ _ _ => rfl

end Programs

/-
The legs of a user's activities.
-/

section LegTables

open Sql.Table (SamePart)

variable (owner home : Uuid → Option Uuid) (user : UserId)

def ofUser (row : LegRow) : Bool := owner row.activityId = some user.val

def AtHome (t : LegTable) : Prop := ∀ row ∈ t.legs.rows, home row.id = some row.activityId

variable {owner home user} {t t' : LegTable} {p : LegRow → Bool} {f : LegRow → LegRow}
  {hf : ∀ row, (f row).id = row.id}

theorem ofUser_of_activityId {row row' : LegRow} (h : row.activityId = row'.activityId)
    : ofUser owner user row = ofUser owner user row' := by
  unfold ofUser
  rw [h]

theorem ofUser_of_place {row row' : LegRow} (h : row.place = row'.place)
    : ofUser owner user row = ofUser owner user row' := ofUser_of_activityId (congrArg Prod.fst h)

-- the places are only taken by legs of the same user
theorem nodup_places_iff {rows : List LegRow}
    (hothers : ((rows.filter fun row => !ofUser owner user row).map LegRow.place).Nodup)
    : (rows.map LegRow.place).Nodup ↔ ((rows.filter (ofUser owner user)).map LegRow.place).Nodup := by
  rw [Sql.nodup_map_iff_of_parts (q := ofUser owner user) fun _ _ => ofUser_of_place]
  exact and_iff_left hothers

theorem nodup_others (owner : Uuid → Option Uuid) (user : UserId) (t : LegTable)
    : ((t.legs.rows.filter fun row => !ofUser owner user row).map LegRow.place).Nodup :=
  (List.Sublist.map LegRow.place List.filter_sublist).nodup t.unique

theorem nodup_updateWhere_iff (hf : ∀ row, (f row).id = row.id)
    (hactivity : ∀ row, (f row).activityId = row.activityId)
    (hp : ∀ row ∈ t.legs.rows, p row = true → ofUser owner user row = true)
    : ((t.legs.updateWhere p f hf).rows.map LegRow.place).Nodup
        ↔ (((t.legs.updateWhere p f hf).rows.filter (ofUser owner user)).map LegRow.place).Nodup := by
  apply nodup_places_iff
  rw [Sql.Table.filter_updateWhere]
  . exact nodup_others owner user t
  . intro row hrow hmet
    rw [ofUser_of_activityId (hactivity row), hp row hrow hmet]
    exact ⟨rfl, rfl⟩

/--
An update of a user's legs goes by his legs alone.
-/
theorem executeUpdate_own (h : SamePart (ofUser owner user) t.legs t'.legs)
    (hactivity : ∀ row, (f row).activityId = row.activityId)
    (hp : ∀ row ∈ t.legs.rows, p row = true → ofUser owner user row = true)
    (hp' : ∀ row ∈ t'.legs.rows, p row = true → ofUser owner user row = true)
    : ((executeUpdate p f hf).run t).1 = ((executeUpdate p f hf).run t').1
        ∧ SamePart (ofUser owner user) ((executeUpdate p f hf).run t).2.legs
          ((executeUpdate p f hf).run t').2.legs := by
  have hupdated : SamePart (ofUser owner user) (t.legs.updateWhere p f hf) (t'.legs.updateWhere p f hf) :=
    h.updateWhere fun row => ofUser_of_activityId (hactivity row)
  have hnodup := nodup_updateWhere_iff hf hactivity hp
  rw [hupdated, ← nodup_updateWhere_iff hf hactivity hp'] at hnodup
  by_cases hplaces : ((t.legs.updateWhere p f hf).rows.map LegRow.place).Nodup
  . rw [run_executeUpdate_of_some (LegTable.update?_eq_some hplaces),
      run_executeUpdate_of_some (LegTable.update?_eq_some (hnodup.mp hplaces))]
    exact ⟨rfl, hupdated⟩
  . have hnone : t.update? p f hf = none := by
      unfold LegTable.update?
      simp only [dif_neg hplaces]
    have hnone' : t'.update? p f hf = none := by
      unfold LegTable.update?
      simp only [dif_neg fun h => hplaces (hnodup.mpr h)]
    rw [run_executeUpdate_of_none hnone, run_executeUpdate_of_none hnone']
    exact ⟨rfl, h⟩

theorem executeUpdate_cases (p : LegRow → Bool) (f : LegRow → LegRow) (hf : ∀ row, (f row).id = row.id) (t : LegTable)
    : ((executeUpdate p f hf).run t).2.legs = t.legs.updateWhere p f hf
        ∨ ((executeUpdate p f hf).run t).2 = t := by
  by_cases hplaces : ((t.legs.updateWhere p f hf).rows.map LegRow.place).Nodup
  . rw [run_executeUpdate_of_some (LegTable.update?_eq_some hplaces)]
    exact .inl rfl
  . rw [run_executeUpdate_of_none (by unfold LegTable.update?; simp only [dif_neg hplaces])]
    exact .inr rfl

theorem executeUpdate_other (h : SamePart (ofUser owner user) t.legs t'.legs)
    (hactivity : ∀ row, (f row).activityId = row.activityId)
    (hp : ∀ row ∈ t.legs.rows, p row = true → ofUser owner user row = false)
    : SamePart (ofUser owner user) ((executeUpdate p f hf).run t).2.legs t'.legs := by
  rcases executeUpdate_cases p f hf t with hlegs | hlegs
  . rw [hlegs]
    exact h.updateWhere_other (fun row => ofUser_of_activityId (hactivity row)) hp
  . rw [hlegs]
    exact h

theorem AtHome.executeUpdate (h : AtHome home t) (hactivity : ∀ row, (f row).activityId = row.activityId)
    : AtHome home ((RecordedActivity.executeUpdate p f hf).run t).2 := by
  rcases executeUpdate_cases p f hf t with hlegs | hlegs
  . intro row hrow
    rw [hlegs] at hrow
    obtain ⟨old, hold, rfl⟩ := List.mem_map.mp hrow
    split
    . rw [hf, hactivity]
      exact h old hold
    . exact h old hold
  . rw [hlegs]
    exact h

theorem ofUser_of_leg {legId : LegId} (hleg : LegOf owner home user legId) (hhome : AtHome home t) {row : LegRow}
    (hrow : row ∈ t.legs.rows) (hid : row.id = legId.val) : ofUser owner user row = true := by
  obtain ⟨activityId, hactivity, howner⟩ := hleg
  have hknown := hhome row hrow
  rw [hid] at hknown
  obtain rfl := Option.some.inj (hactivity.symm.trans hknown)
  exact decide_eq_true howner

theorem SamePart.find?_home {legId : LegId} (h : SamePart (ofUser owner user) t.legs t'.legs)
    (hhome : AtHome home t) (hhome' : AtHome home t') (hleg : LegOf owner home user legId)
    : t.legs.find? legId.val = t'.legs.find? legId.val := by
  have hown : ∀ {t : LegTable}, AtHome home t → ∀ row, t.legs.find? legId.val = some row →
      ofUser owner user row = true := fun hhome row hrow =>
    ofUser_of_leg hleg hhome (Sql.Table.mem_of_find? hrow) (Sql.Table.key_of_find? hrow)
  rcases h.find? legId.val with heq | ⟨hother, hother'⟩
  . exact heq
  . cases hrow : t.legs.find? legId.val with
    | some row => exact absurd (hown hhome row hrow) (by simp [hother row hrow])
    | none =>
      cases hrow' : t'.legs.find? legId.val with
      | some row => exact absurd (hown hhome' row hrow') (by simp [hother' row hrow'])
      | none => rfl

theorem nodup_insert?_iff {row : LegRow} {legs : Sql.Table LegRow.id} (h : t.legs.insert? row = some legs)
    (hrow : ofUser owner user row = true)
    : (legs.rows.map LegRow.place).Nodup ↔ ((legs.rows.filter (ofUser owner user)).map LegRow.place).Nodup := by
  apply nodup_places_iff
  have hothers : legs.rows.filter (fun row => !ofUser owner user row)
      = t.legs.rows.filter fun row => !ofUser owner user row := by
    rw [Sql.Table.rows_insert? h, List.filter_append]
    simp [hrow]
  rw [hothers]
  exact nodup_others owner user t

theorem run_saveLeg (leg : Leg) (t : LegTable)
    : (saveLeg leg).run t
        = match t.insert leg.toRow with
          | .ok t' => (.ok (), t')
          | .error constraint => (.error (uniqueViolation constraint), t) := by
  unfold saveLeg
  rw [LegM.run_bind_of_ok (LegM.run_get t)]
  cases t.insert leg.toRow <;> rfl

theorem saveLeg_own {leg : Leg} (h : SamePart (ofUser owner user) t.legs t'.legs) (hhome : AtHome home t)
    (hhome' : AtHome home t') (hid : home leg.id.val = some leg.activityId.val)
    (howner : owner leg.activityId.val = some user.val)
    : ((saveLeg leg).run t).1 = ((saveLeg leg).run t').1
        ∧ SamePart (ofUser owner user) ((saveLeg leg).run t).2.legs ((saveLeg leg).run t').2.legs := by
  have hfind := SamePart.find?_home h hhome hhome' (.of_home hid howner)
  have hrow : ofUser owner user leg.toRow = true := decide_eq_true howner
  rw [run_saveLeg, run_saveLeg]
  unfold LegTable.insert
  cases hinsert : t.legs.insert? leg.toRow with
  | none =>
    have hinsert' : t'.legs.insert? leg.toRow = none := by
      rw [Sql.Table.insert?_eq_none_iff] at hinsert ⊢
      show (t'.legs.find? leg.id.val).isSome
      rw [← hfind]
      exact hinsert
    rw [hinsert']
    exact ⟨rfl, h⟩
  | some legs =>
    cases hinsert' : t'.legs.insert? leg.toRow with
    | none =>
      have htaken : (t.legs.find? leg.id.val).isSome := by
        rw [hfind]
        exact (t'.legs.insert?_eq_none_iff).mp hinsert'
      have hnone : t.legs.insert? leg.toRow = none := (t.legs.insert?_eq_none_iff).mpr htaken
      rw [hnone] at hinsert
      cases hinsert
    | some legs' =>
      have hlegs : SamePart (ofUser owner user) legs legs' := h.insert? hinsert hinsert'
      have hnodup := nodup_insert?_iff hinsert hrow
      rw [hlegs, ← nodup_insert?_iff hinsert' hrow] at hnodup
      by_cases hplaces : (legs.rows.map LegRow.place).Nodup
      . simp only [dif_pos hplaces, dif_pos (hnodup.mp hplaces)]
        exact ⟨rfl, hlegs⟩
      . simp only [dif_neg hplaces, dif_neg fun h => hplaces (hnodup.mpr h)]
        exact ⟨rfl, h⟩

theorem saveLeg_cases (leg : Leg) (t : LegTable)
    : t.legs.insert? leg.toRow = some ((saveLeg leg).run t).2.legs ∨ ((saveLeg leg).run t).2 = t := by
  rw [run_saveLeg]
  unfold LegTable.insert
  cases t.legs.insert? leg.toRow with
  | none => exact .inr rfl
  | some legs =>
    by_cases hplaces : (legs.rows.map LegRow.place).Nodup
    . simp only [dif_pos hplaces]
      exact .inl rfl
    . simp only [dif_neg hplaces]
      exact .inr rfl

/--
An update of legs of the user.
-/
def Updates (owner home : Uuid → Option Uuid) (user : UserId) (x : LegM Unit) : Prop :=
  ∃ p f hf, x = executeUpdate p f hf ∧ (∀ row, (f row).activityId = row.activityId)
    ∧ ∀ t : LegTable, AtHome home t → ∀ row ∈ t.legs.rows, p row = true → ofUser owner user row = true

variable {x : LegM Unit}

theorem Updates.own (hx : Updates owner home user x) (h : SamePart (ofUser owner user) t.legs t'.legs)
    (hhome : AtHome home t) (hhome' : AtHome home t')
    : (x.run t).1 = (x.run t').1 ∧ SamePart (ofUser owner user) (x.run t).2.legs (x.run t').2.legs := by
  obtain ⟨p, f, hf, rfl, hactivity, hp⟩ := hx
  exact executeUpdate_own h hactivity (hp t hhome) (hp t' hhome')

theorem ofUser_of_ne {other : UserId} (hne : user ≠ other) {row : LegRow} (h : ofUser owner user row = true)
    : ofUser owner other row = false := by
  have howner : owner row.activityId = some user.val := of_decide_eq_true h
  apply decide_eq_false
  rw [howner]
  intro heq
  exact hne (congrArg UserId.mk (Option.some.inj heq))

theorem Updates.other {other : UserId} (hx : Updates owner home user x) (hne : user ≠ other)
    (h : SamePart (ofUser owner other) t.legs t'.legs) (hhome : AtHome home t)
    : SamePart (ofUser owner other) (x.run t).2.legs t'.legs := by
  obtain ⟨p, f, hf, rfl, hactivity, hp⟩ := hx
  exact executeUpdate_other h hactivity fun row hrow hmet => ofUser_of_ne hne (hp t hhome row hrow hmet)

theorem Updates.atHome (hx : Updates owner home user x) (hhome : AtHome home t) : AtHome home (x.run t).2 := by
  obtain ⟨p, f, hf, rfl, hactivity, _⟩ := hx
  exact hhome.executeUpdate hactivity

theorem ofUser_of_owner {activityId : ActivityId} (howner : owner activityId.val = some user.val) {row : LegRow}
    (hrow : row.activityId = activityId.val) : ofUser owner user row = true := by
  rw [← hrow] at howner
  exact decide_eq_true howner

theorem updates_updateLeg {leg : Leg} (h : LegOf owner home user leg.id) : Updates owner home user (updateLeg leg) :=
  ⟨_, _, _, rfl, fun _ => rfl, fun _ hhome _ hrow hmet => ofUser_of_leg h hhome hrow (of_decide_eq_true hmet)⟩

theorem updates_placeLeg {legId : LegId} (h : LegOf owner home user legId) (now : Timestamp) (newPosition : Nat)
    : Updates owner home user (LegMethod.placeLeg now legId newPosition) :=
  ⟨_, _, _, rfl, fun _ => rfl, fun _ hhome _ hrow hmet => ofUser_of_leg h hhome hrow (of_decide_eq_true hmet)⟩

theorem updates_shiftLegs {activityId : ActivityId} (h : owner activityId.val = some user.val) (now : Timestamp)
    (legId : LegId) (currentPosition newPosition : Nat)
    : Updates owner home user
        (LegMethod.shiftLegs .infrastructure now legId activityId currentPosition newPosition) := by
  unfold LegMethod.shiftLegs
  split
  . exact ⟨_, _, _, rfl, fun _ => rfl, fun _ _ _ _ hmet => ofUser_of_owner h (of_decide_eq_true hmet).1⟩
  . exact ⟨_, _, _, rfl, fun _ => rfl, fun _ _ _ _ hmet => ofUser_of_owner h (of_decide_eq_true hmet).1⟩

/-
The statements on legs.
-/

variable {statement : LegStatement}

theorem leg_own (hasks : Asks owner home user (.leg statement)) (h : SamePart (ofUser owner user) t.legs t'.legs)
    (hhome : AtHome home t) (hhome' : AtHome home t')
    : Tells owner home user (.leg statement) (statement.execute.run t).1 (statement.execute.run t').1
        ∧ SamePart (ofUser owner user) (statement.execute.run t).2.legs (statement.execute.run t').2.legs := by
  cases statement with
  | listLegs activityId =>
    refine ⟨.inr ⟨_, _, rfl, rfl, ?_, ?_⟩, h⟩
    . rw [h.selectOrdered]
      intro row hrow
      exact ofUser_of_owner hasks (of_decide_eq_true hrow)
    . intro leg hleg
      obtain ⟨row, hrow, rfl⟩ := List.mem_map.mp hleg
      obtain ⟨hfind, hrow⟩ := (t.legs.mem_selectOrdered).mp hrow
      have hid := hhome row (Sql.Table.mem_of_find? hfind)
      rw [of_decide_eq_true hrow] at hid
      exact hid
  | findLeg legId =>
    have hknown : ∀ {t : LegTable}, AtHome home t →
        ∀ leg ∈ (t.legs.find? legId.val).map rowToLeg, KnownLeg home legId leg := by
      intro t hhome leg hleg
      obtain ⟨row, hrow, rfl⟩ := Option.map_eq_some_iff.mp hleg
      have hid := Sql.Table.key_of_find? hrow
      refine ⟨congrArg LegId.mk hid, ?_⟩
      rw [← hid]
      exact hhome row (Sql.Table.mem_of_find? hrow)
    refine ⟨.inr ⟨_, _, rfl, rfl, hknown hhome, hknown hhome', ?_⟩, h⟩
    rcases h.find? legId.val with heq | ⟨hother, hother'⟩
    . exact .inl (congrArg _ heq)
    . have hnot : ∀ {t : LegTable}, (∀ row, t.legs.find? legId.val = some row → ofUser owner user row = false) →
          ∀ leg ∈ (t.legs.find? legId.val).map rowToLeg, ¬owner leg.activityId.val = some user.val := by
        intro t hother leg hleg
        obtain ⟨row, hrow, rfl⟩ := Option.map_eq_some_iff.mp hleg
        exact of_decide_eq_false (hother row hrow)
      exact .inr ⟨hnot hother, hnot hother'⟩
  | saveLeg leg => exact saveLeg_own h hhome hhome' hasks.1 hasks.2
  | updateLeg leg => exact (updates_updateLeg hasks).own h hhome hhome'
  | deleteLeg legId => exact ⟨rfl, h.deleteWhere⟩
  | nextLegNumber activityId =>
    refine ⟨?_, h⟩
    have hnumbers : t.numbers activityId.val = t'.numbers activityId.val := by
      unfold LegTable.numbers
      rw [h.filter]
      intro row hrow
      exact ofUser_of_owner hasks (of_decide_eq_true hrow)
    show (Except.ok _ : Except LegError Nat) = .ok _
    rw [hnumbers]
  | shiftLegs now legId activityId currentPosition newPosition =>
    exact (updates_shiftLegs hasks now legId currentPosition newPosition).own h hhome hhome'
  | placeLeg now legId newPosition => exact (updates_placeLeg hasks now newPosition).own h hhome hhome'

theorem leg_other {other : UserId} (hasks : Asks owner home user (.leg statement)) (hne : user ≠ other)
    (h : SamePart (ofUser owner other) t.legs t'.legs) (hhome : AtHome home t)
    : SamePart (ofUser owner other) (statement.execute.run t).2.legs t'.legs := by
  cases statement with
  | listLegs _ | findLeg _ | nextLegNumber _ => exact h
  | saveLeg leg =>
    show SamePart _ ((saveLeg leg).run t).2.legs t'.legs
    rcases saveLeg_cases leg t with hsaved | hsaved
    . exact h.insert?_other (ofUser_of_ne hne (decide_eq_true hasks.2)) hsaved
    . rw [hsaved]
      exact h
  | updateLeg leg => exact (updates_updateLeg hasks).other hne h hhome
  | deleteLeg legId =>
    exact h.deleteWhere_other fun row hrow hmet =>
      ofUser_of_ne hne (ofUser_of_leg hasks hhome hrow (of_decide_eq_true hmet))
  | shiftLegs now legId activityId currentPosition newPosition =>
    exact (updates_shiftLegs hasks now legId currentPosition newPosition).other hne h hhome
  | placeLeg now legId newPosition => exact (updates_placeLeg hasks now newPosition).other hne h hhome

theorem leg_atHome (hasks : Asks owner home user (.leg statement)) (hhome : AtHome home t)
    : AtHome home (statement.execute.run t).2 := by
  cases statement with
  | listLegs _ | findLeg _ | nextLegNumber _ => exact hhome
  | saveLeg leg =>
    show AtHome home ((saveLeg leg).run t).2
    rcases saveLeg_cases leg t with hsaved | hsaved
    . intro row hrow
      rw [Sql.Table.rows_insert? hsaved, List.mem_append, List.mem_singleton] at hrow
      rcases hrow with hrow | rfl
      . exact hhome row hrow
      . exact hasks.1
    . rw [hsaved]
      exact hhome
  | updateLeg leg => exact (updates_updateLeg hasks).atHome hhome
  | deleteLeg legId => exact fun row hrow => hhome row (List.mem_of_mem_filter hrow)
  | shiftLegs now legId activityId currentPosition newPosition =>
    exact (updates_shiftLegs hasks now legId currentPosition newPosition).atHome hhome
  | placeLeg now legId newPosition => exact (updates_placeLeg hasks now newPosition).atHome hhome

end LegTables

/-
All tables.
-/

section Tables

open ActivityCatalog (ActivityRow ActivityTable PgActivityRepository.rowToActivity
  PgActivityRepository.setActivity)
open Sql.Table (SamePart)

variable (owner home : Uuid → Option Uuid) (observer : UserId)

def ownedBy (user : UserId) (row : ActivityRow) : Bool := row.ownerId = user.val

/--
Every activity has its owner and every leg its activity. The titles of the others can be read.
-/
structure Consistent (s : Tables) : Prop where
  owners : ∀ id, (s.db.activities.find? id).map (·.ownerId) = owner id
  legs : AtHome home s.legs
  titles : ∀ row ∈ s.db.activities.rows, ownedBy observer row = false → ActivityCatalog.ActivityTitle.Cuts row.title

/--
The tables look the same to the observer.
-/
structure SameFor (s s' : Tables) : Prop where
  activities : SamePart (ownedBy observer) s.db.activities s'.db.activities
  legs : SamePart (ofUser owner observer) s.legs.legs s'.legs.legs
  routeVersions : s.db.routeVersions = s'.db.routeVersions
  recordedTracks : s.db.recordedTracks = s'.db.recordedTracks

variable {owner home observer} {user : UserId} {s s' : Tables}

theorem ownedBy_setActivity (activity : Activity) (row : ActivityRow)
    : ownedBy user (PgActivityRepository.setActivity activity row) = ownedBy user row := rfl

-- what is found under an id
theorem known_findById (user : UserId) {activities : ActivityTable}
    (howners : ∀ row ∈ activities.rows, owner row.id = some row.ownerId)
    {id : ActivityId} {row : ActivityRow} (hrow : activities.find? id.val = some row) {a : Activity}
    (ha : PgActivityRepository.rowToActivity row = .ok a)
    : KnownActivity owner id a ∧ (a.ownerId = user ↔ ownedBy user row = true) := by
  obtain ⟨_, hid, howner, _⟩ := ActivityCatalog.PgActivityRepository.rowToActivity_eq_ok ha
  have hkey := Sql.Table.key_of_find? hrow
  refine ⟨⟨?_, ?_⟩, ?_⟩
  . exact congrArg ActivityId.mk (hid.trans hkey)
  . rw [← hkey, howner]
    exact howners row (Sql.Table.mem_of_find? hrow)
  . unfold ownedBy
    rw [decide_eq_true_eq, ← howner]
    constructor
    . rintro rfl
      rfl
    . exact congrArg UserId.mk

def NotOwn (user : UserId) (row : ActivityRow) : Prop :=
  ownedBy user row = false ∧ ActivityCatalog.ActivityTitle.Cuts row.title

theorem findById_other {activities : ActivityTable}
    (howners : ∀ row ∈ activities.rows, owner row.id = some row.ownerId) {id : ActivityId}
    (hother : ∀ row, activities.find? id.val = some row → NotOwn user row)
    : ∃ found, ActivityCatalog.PgActivityRepository.findById id activities = .ok found
        ∧ (∀ a ∈ found, KnownActivity owner id a) ∧ ∀ a ∈ found, ¬a.ownerId = user := by
  unfold ActivityCatalog.PgActivityRepository.findById
  cases hrow : activities.find? id.val with
  | none => exact ⟨none, rfl, by simp, by simp⟩
  | some row =>
    obtain ⟨hnot, hcuts⟩ := hother row hrow
    obtain ⟨_, a, ha⟩ := Imports.readable_iff.mpr hcuts
    obtain ⟨hknown, hown⟩ := known_findById user howners hrow ha
    refine ⟨some a, congrArg (Except.map some) ha, ?_, ?_⟩
    . rintro _ ⟨⟩
      exact hknown
    . rintro _ ⟨⟩ howner
      rw [hown.mp howner] at hnot
      cases hnot

theorem findById_own {activities activities' : ActivityTable} (id : ActivityId)
    (howners : ∀ row ∈ activities.rows, owner row.id = some row.ownerId)
    (howners' : ∀ row ∈ activities'.rows, owner row.id = some row.ownerId)
    (h : activities.find? id.val = activities'.find? id.val
      ∨ (∀ row, activities.find? id.val = some row → NotOwn user row)
        ∧ ∀ row, activities'.find? id.val = some row → NotOwn user row)
    : Replies (FoundActivities owner user id)
        (ActivityCatalog.PgActivityRepository.findById id activities)
        (ActivityCatalog.PgActivityRepository.findById id activities') := by
  rcases h with heq | ⟨hother, hother'⟩
  . unfold ActivityCatalog.PgActivityRepository.findById
    rw [← heq]
    cases hrow : activities.find? id.val with
    | none => exact .inr ⟨none, none, rfl, rfl, by simp, by simp, .inl rfl⟩
    | some row =>
      cases ha : PgActivityRepository.rowToActivity row with
      | error e => exact .inl ⟨e, congrArg (Except.map some) ha, congrArg (Except.map some) ha⟩
      | ok a =>
        have hknown := (known_findById user howners hrow ha).1
        have hfound : ∀ a' ∈ some a, KnownActivity owner id a' := by
          rintro _ ⟨⟩
          exact hknown
        have hread := congrArg (Except.map some) ha
        exact .inr ⟨some a, some a, hread, hread, hfound, hfound, .inl rfl⟩
  . obtain ⟨found, hfound, hknown, hnot⟩ := findById_other howners hother
    obtain ⟨found', hfound', hknown', hnot'⟩ := findById_other howners' hother'
    exact .inr ⟨found, found', hfound, hfound', hknown, hknown', .inr ⟨hnot, hnot'⟩⟩

theorem listActivities_own (h : SamePart (ownedBy user) s.db.activities s'.db.activities)
    (cursors : CursorExternals) (cursor : Option String) (pageSize : Option Nat)
    : ActivityCatalog.listActivities cursors user cursor pageSize s.db.activities
        = ActivityCatalog.listActivities cursors user cursor pageSize s'.db.activities := by
  have howned : ActivityCatalog.PgActivityRepository.ownedActivities user s.db.activities
      = ActivityCatalog.PgActivityRepository.ownedActivities user s'.db.activities := by
    unfold ActivityCatalog.PgActivityRepository.ownedActivities
    apply h.filter
    intro row hrow
    exact decide_eq_true (of_decide_eq_true hrow).1
  unfold ActivityCatalog.listActivities ActivityCatalog.PgActivityRepository.listActivities
    ActivityCatalog.PgActivityRepository.selectActivities
  rw [howned]

theorem getLegSummary_own (h : SameFor owner observer s s') (hhome : AtHome home s.legs)
    (hhome' : AtHome home s'.legs) {legId : LegId} (hleg : LegOf owner home observer legId)
    : PgLegRepository.getLegSummary s.legs s.db legId .infrastructure
        = PgLegRepository.getLegSummary s'.legs s'.db legId .infrastructure := by
  unfold PgLegRepository.getLegSummary PgLegRepository.findTrack
  rw [SamePart.find?_home h.legs hhome hhome' hleg, h.recordedTracks]

theorem update_own (h : SamePart (ownedBy user) s.db.activities s'.db.activities) (activity : Activity)
    : SamePart (ownedBy user) (ActivityCatalog.PgActivityRepository.update activity s.db.activities)
        (ActivityCatalog.PgActivityRepository.update activity s'.db.activities) :=
  h.updateWhere fun row => ownedBy_setActivity activity row

theorem update_other {other : UserId} (hne : user ≠ other)
    (h : SamePart (ownedBy other) s.db.activities s'.db.activities)
    (howners : ∀ row ∈ s.db.activities.rows, owner row.id = some row.ownerId) {activity : Activity}
    (hasks : owner activity.id.val = some user.val)
    : SamePart (ownedBy other) (ActivityCatalog.PgActivityRepository.update activity s.db.activities)
        s'.db.activities := by
  refine h.updateWhere_other (fun row => ownedBy_setActivity activity row) ?_
  intro row hrow hmet
  have howner := howners row hrow
  rw [of_decide_eq_true hmet, hasks] at howner
  apply decide_eq_false
  rw [← Option.some.inj howner]
  exact fun heq => hne (congrArg UserId.mk heq)

theorem Consistent.owner_of_mem (h : Consistent owner home observer s) (row : ActivityRow)
    (hrow : row ∈ s.db.activities.rows) : owner row.id = some row.ownerId := by
  rw [← h.owners, Sql.Table.find?_of_mem hrow]
  rfl

theorem Consistent.update (h : Consistent owner home observer s) (activity : Activity)
    : Consistent owner home observer { s with db := { s.db with
        activities := ActivityCatalog.PgActivityRepository.update activity s.db.activities
      } } := by
  have hrows : ∀ row ∈ (ActivityCatalog.PgActivityRepository.update activity s.db.activities).rows,
      row ∈ s.db.activities.rows
        ∨ ∃ old ∈ s.db.activities.rows, row = PgActivityRepository.setActivity activity old := by
    intro row hrow
    obtain ⟨old, hold, rfl⟩ := List.mem_map.mp hrow
    split
    . exact .inr ⟨old, hold, rfl⟩
    . exact .inl hold
  constructor
  . intro id
    rw [← h.owners id]
    show ((ActivityCatalog.PgActivityRepository.update activity s.db.activities).find? id).map _ = _
    unfold ActivityCatalog.PgActivityRepository.update
    rw [Sql.Table.find?_updateWhere, Option.map_map]
    congr 1
    funext row
    simp only [Function.comp]
    split <;> rfl
  . exact h.legs
  . intro row hrow hother
    rcases hrows row hrow with hrow | ⟨old, hold, rfl⟩
    . exact h.titles row hrow hother
    . exact ActivityCatalog.ActivityTitle.cuts_text activity.title

variable {statement : Statement}

theorem Consistent.answer (h : Consistent owner home observer s) (errors : SerdeErrors)
    (hasks : Asks owner home user statement) : Consistent owner home observer (answer errors statement s).2 := by
  cases statement with
  | activity command =>
    cases command with
    | findById _ | findVersion _ => exact h
    | update activity => exact h.update activity
    | commit externals data => exact hasks.elim
  | listActivities cursors ownerId cursor pageSize => exact h
  | leg statement => exact ⟨h.owners, leg_atHome hasks h.legs, h.titles⟩
  | getLegSummary legId => exact h

-- a user is told the truth about what he has found
theorem tells_self (h : Consistent owner home observer s) (errors : SerdeErrors)
    (hasks : Asks owner home user statement)
    : Tells owner home user statement (answer errors statement s).1 (answer errors statement s).1 := by
  cases statement with
  | activity command =>
    cases command with
    | findById id => exact findById_own id h.owner_of_mem h.owner_of_mem (.inl rfl)
    | findVersion _ | update _ => exact rfl
    | commit externals data => exact hasks.elim
  | listActivities cursors ownerId cursor pageSize => exact rfl
  | leg statement => exact (leg_own hasks (.refl _ _) h.legs h.legs).1
  | getLegSummary legId => exact fun _ => rfl

theorem SameFor.answer_other (hsame : SameFor owner observer s s') (h : Consistent owner home observer s)
    (errors : SerdeErrors) (hasks : Asks owner home user statement) (hne : user ≠ observer)
    : SameFor owner observer (answer errors statement s).2 s' := by
  cases statement with
  | activity command =>
    cases command with
    | findById _ | findVersion _ => exact hsame
    | update activity =>
      exact ⟨update_other hne hsame.activities h.owner_of_mem hasks, hsame.legs, hsame.routeVersions,
        hsame.recordedTracks⟩
    | commit externals data => exact hasks.elim
  | listActivities cursors ownerId cursor pageSize => exact hsame
  | leg statement =>
    exact ⟨hsame.activities, leg_other hasks hne hsame.legs h.legs, hsame.routeVersions, hsame.recordedTracks⟩
  | getLegSummary legId => exact hsame

theorem SameFor.answer_own (hsame : SameFor owner observer s s') (h : Consistent owner home observer s)
    (h' : Consistent owner home observer s') (errors : SerdeErrors) (hasks : Asks owner home observer statement)
    : Tells owner home observer statement (answer errors statement s).1 (answer errors statement s').1
        ∧ SameFor owner observer (answer errors statement s).2 (answer errors statement s').2 := by
  cases statement with
  | activity command =>
    cases command with
    | findById id =>
      refine ⟨findById_own id h.owner_of_mem h'.owner_of_mem ?_, hsame⟩
      rcases hsame.activities.find? id.val with heq | ⟨hother, hother'⟩
      . exact .inl heq
      . refine .inr ⟨?_, ?_⟩
        . intro row hrow
          exact ⟨hother row hrow, h.titles row (Sql.Table.mem_of_find? hrow) (hother row hrow)⟩
        . intro row hrow
          exact ⟨hother' row hrow, h'.titles row (Sql.Table.mem_of_find? hrow) (hother' row hrow)⟩
    | findVersion id =>
      refine ⟨?_, hsame⟩
      show ActivityCatalog.findVersion errors id _ = ActivityCatalog.findVersion errors id _
      unfold ActivityCatalog.findVersion
      rw [hsame.routeVersions]
    | update activity =>
      exact ⟨rfl, update_own hsame.activities activity, hsame.legs, hsame.routeVersions, hsame.recordedTracks⟩
    | commit externals data => exact hasks.elim
  | listActivities cursors ownerId cursor pageSize =>
    obtain rfl : ownerId = observer := hasks
    exact ⟨listActivities_own hsame.activities cursors cursor pageSize, hsame⟩
  | leg statement =>
    obtain ⟨htells, hlegs⟩ := leg_own hasks hsame.legs h.legs h'.legs
    exact ⟨htells, hsame.activities, hlegs, hsame.routeVersions, hsame.recordedTracks⟩
  | getLegSummary legId => exact ⟨fun hleg => getLegSummary_own hsame h.legs h'.legs hleg, hsame⟩

theorem isolates (owner home : Uuid → Option Uuid) (observer : UserId) (errors : SerdeErrors)
    : Program.Isolates (answer errors) Reads (Asks owner home) (Tells owner home)
        (Consistent owner home observer) (SameFor owner observer) observer where
  state statement s hreads := by
    cases statement with
    | getLegSummary legId => rfl
    | activity _ | listActivities _ _ _ _ | leg _ => exact hreads.elim
  keeps _ _ _ hasks h := h.answer errors hasks
  reply _ _ _ hasks h := tells_self h errors hasks
  others _ _ _ _ hasks hne h hsame := hsame.answer_other h errors hasks hne
  own _ _ _ hasks h h' hsame := hsame.answer_own h h' errors hasks

/-
Runs.
-/

section Runs

variable {ι : Type} [DecidableEq ι]

abbrev Client := Program Statement.Reply (Except (Fault ApiError) Response)

def start (cursors : CursorExternals) (calls : ι → Call) (s : Tables) : Config Tables Client ι where
  shared := s
  clients i := ((calls i).endpoint cursors).run

def Call.AddsLeg (call : Call) : Prop := ∃ activityId title date, call.request = .addLeg activityId title date

/--
No id that is drawn for a leg has been drawn before.
-/
structure NewIds (calls : ι → Call) (s : Tables) : Prop where
  fresh : ∀ i, (calls i).AddsLeg → s.legs.legs.find? (calls i).newLegId = none
  distinct : ∀ i j, (calls i).AddsLeg → (calls j).AddsLeg → (calls i).newLegId = (calls j).newLegId → i = j

def activitiesOf (user : UserId) (s : Tables) : List ActivityRow := s.db.activities.rows.filter (ownedBy user)

def legsOf (user : UserId) (s : Tables) : List LegRow :=
  s.legs.legs.rows.filter fun row => (s.db.activities.find? row.activityId).any (ownedBy user)

/--
The user owns the same in the one run as in the other. Whatever one of his requests has been answered in one of
them, it has been answered in the other, or there is no other answer left.
-/
structure Unnoticed (user : UserId) (calls : ι → Call) (c c' : Config Tables Client ι) : Prop where
  activities : activitiesOf user c.shared = activitiesOf user c'.shared
  legs : legsOf user c.shared = legsOf user c'.shared
  answers : ∀ i, (calls i).user = user → ∀ answer, c.clients i = .done answer →
    (c'.clients i).Ends (· = answer)
  answers' : ∀ i, (calls i).user = user → ∀ answer, c'.clients i = .done answer →
    (c.clients i).Ends (· = answer)

omit [DecidableEq ι] in
theorem NewIds.exists_home {calls : ι → Call} (h : NewIds calls s)
    : ∃ home : Uuid → Option Uuid, AtHome home s.legs ∧ ∀ i activityId title date,
        (calls i).request = .addLeg activityId title date → home (calls i).newLegId = some activityId := by
  have hexists : ∀ id, ∃ activityId : Option Uuid,
      (∀ row, s.legs.legs.find? id = some row → activityId = some row.activityId)
        ∧ ∀ i activityId' title date, (calls i).request = .addLeg activityId' title date →
          (calls i).newLegId = id → activityId = some activityId' := by
    intro id
    cases hrow : s.legs.legs.find? id with
    | some row =>
      refine ⟨some row.activityId, ?_, ?_⟩
      . rintro _ ⟨⟩
        rfl
      . rintro i activityId title date hrequest rfl
        rw [h.fresh i ⟨activityId, title, date, hrequest⟩] at hrow
        cases hrow
    | none =>
      by_cases hdrawn : ∃ i, (calls i).AddsLeg ∧ (calls i).newLegId = id
      . obtain ⟨i, ⟨activityId, title, date, hrequest⟩, rfl⟩ := hdrawn
        refine ⟨some activityId, ?_, ?_⟩
        . intro row hrow
          cases hrow
        . intro j activityId' title' date' hrequest' hid
          obtain rfl := h.distinct j i ⟨_, _, _, hrequest'⟩ ⟨_, _, _, hrequest⟩ hid
          rw [hrequest] at hrequest'
          cases hrequest'
          rfl
      . refine ⟨none, ?_, ?_⟩
        . intro row hrow
          cases hrow
        . intro i activityId title date hrequest hid
          exact (hdrawn ⟨i, ⟨activityId, title, date, hrequest⟩, hid⟩).elim
  choose home hrow hcall using hexists
  refine ⟨home, ?_, ?_⟩
  . intro row hmem
    exact hrow row.id row (Sql.Table.find?_of_mem hmem)
  . intro i activityId title date hrequest
    exact hcall _ i activityId title date hrequest rfl

-- under the owners that the tables know
theorem legsOf_eq (h : Consistent owner home observer s) (user : UserId)
    : legsOf user s = s.legs.legs.rows.filter (ofUser owner user) := by
  unfold legsOf
  apply List.filter_congr
  intro row _
  unfold ofUser
  rw [← h.owners]
  cases s.db.activities.find? row.activityId with
  | none => rfl
  | some activity => simp [ownedBy]

theorem Hides.symm {α : Type} {known own : α → Prop} {found found' : Option α} (h : Hides known own found found')
    : Hides known own found' found := by
  obtain ⟨hknown, hknown', hfound⟩ := h
  refine ⟨hknown', hknown, ?_⟩
  rcases hfound with rfl | ⟨hother, hother'⟩
  . exact .inl rfl
  . exact .inr ⟨hother', hother⟩

theorem Replies.symm {ε α : Type} {post : α → α → Prop} (hpost : ∀ a a', post a a' → post a' a)
    {reply reply' : Except ε α} (h : Replies post reply reply') : Replies post reply' reply := by
  rcases h with ⟨e, rfl, rfl⟩ | ⟨a, a', rfl, rfl, h⟩
  . exact .inl ⟨e, rfl, rfl⟩
  . exact .inr ⟨a', a, rfl, rfl, hpost a a' h⟩

theorem tells_symm (owner home : Uuid → Option Uuid) (user : UserId) (statement : Statement)
    (reply reply' : statement.Reply) (h : Tells owner home user statement reply reply')
    : Tells owner home user statement reply' reply := by
  cases statement with
  | activity command =>
    cases command with
    | findById id => exact Replies.symm (fun _ _ => Hides.symm) h
    | findVersion _ | update _ | commit _ _ => exact Eq.symm h
  | listActivities _ _ _ _ => exact Eq.symm h
  | leg statement =>
    cases statement with
    | findLeg legId => exact Replies.symm (fun _ _ => Hides.symm) h
    | listLegs activityId =>
      refine Replies.symm ?_ h
      rintro legs _ ⟨rfl, hhome⟩
      exact ⟨rfl, hhome⟩
    | saveLeg _ | updateLeg _ | deleteLeg _ | nextLegNumber _ | shiftLegs _ _ _ _ _ | placeLeg _ _ _ =>
      exact Eq.symm h
  | getLegSummary legId => exact fun hleg => (h hleg).symm

theorem others_unnoticed (cursors : CursorExternals) (errors : SerdeErrors) (calls : ι → Call) (s : Tables)
    (hnew : NewIds calls s) (user : UserId)
    (htitles : ∀ row ∈ s.db.activities.rows, row.ownerId ≠ user.val →
      ActivityCatalog.ActivityTitle.Cuts row.title)
    (schedule : List ι)
    : Unnoticed user calls (run (Program.step (answer errors)) (start cursors calls s) schedule)
        (run (Program.step (answer errors)) (start cursors calls s)
          (schedule.filter fun i => (calls i).user = user)) := by
  obtain ⟨home, hhome, hcalls⟩ := hnew.exists_home
  obtain ⟨owner, howner⟩ : ∃ owner : Uuid → Option Uuid,
      ∀ id, (s.db.activities.find? id).map (·.ownerId) = owner id := ⟨_, fun _ => rfl⟩
  have hconsistent : Consistent owner home user s :=
    ⟨howner, hhome, fun row hrow hother => htitles row hrow (of_decide_eq_false hother)⟩
  have hagrees : ∀ i, Agrees owner home (calls i).user (· = ·) (· = ·) ((calls i).endpoint cursors)
      ((calls i).endpoint cursors) := fun i => agrees_endpoint cursors (calls i) (hcalls i)
  have halike : Program.Alike Reads (Asks owner home) (Tells owner home) (Consistent owner home user)
      (SameFor owner user) user (fun i => (calls i).user) (start cursors calls s) (start cursors calls s) := by
    refine ⟨hconsistent, hconsistent, ⟨.refl _ _, .refl _ _, rfl, rfl⟩, hagrees, ?_⟩
    rintro i rfl
    exact hagrees i
  have hrun := halike.run (isolates owner home user errors) schedule
  constructor
  . exact hrun.looks.activities
  . rw [legsOf_eq hrun.keeps, legsOf_eq hrun.keeps']
    exact hrun.looks.legs
  . intro i hi answer
    exact (hrun.own i hi).ends
  . intro i hi answer
    exact ((hrun.own i hi).symm (tells_symm owner home user)).ends

end Runs

end Tables

/-
Somebody adds a leg, and another user asks for it under an activity of his own.
-/

def sampleActivity (id ownerId : BitVec 128) : ActivityCatalog.ActivityRow where
  id := ⟨id⟩
  ownerId := ⟨ownerId⟩
  title := "Two days"
  activityType := "hike"
  startedAt := none
  endedAt := none
  currentRouteVersionId := none
  recordedSummaryJson := none
  correctedSummaryJson := none
  createdAt := 0
  updatedAt := 0

def sampleTables : Tables where
  db := {
    routeEditing := .empty
    routeVersions := .empty
    activities := ⟨[sampleActivity 1 10, sampleActivity 2 20], by decide⟩
    outbox := .empty
    imports := .empty
    sourceArtifacts := .empty
    sourceRevisions := .empty
    recordedTracks := .empty
  }
  legs := .empty

def sampleCalls : Bool → Call
  | true => { user := ⟨⟨20⟩⟩, request := .addLeg ⟨2⟩ (some "Day 1") 0, now := 1, newLegId := ⟨3⟩ }
  | false => { user := ⟨⟨10⟩⟩, request := .getLegDetail ⟨1⟩ ⟨3⟩, now := 1, newLegId := ⟨4⟩ }

def sampleRun (schedule : List Bool) : Config Tables Client Bool :=
  run (Program.step (answer ActivityCatalog.sampleErrors))
    (start ActivityCatalog.listedExternals sampleCalls sampleTables) schedule

-- the leg has been added before it is asked for, but it is not there for the one who asks
theorem others_unnoticed_sampleCalls
    : Unnoticed ⟨⟨10⟩⟩ sampleCalls (sampleRun [true, true, true, false, false, false])
          (sampleRun [false, false, false])
        ∧ ((sampleRun [true, true, true, false, false, false]).shared.legs.legs.find? ⟨3⟩).isSome
        ∧ (sampleRun [true, true, true, false, false, false]).clients false
          = .done (.error (.err legNotFoundError)) := by
  have hids : ∀ i j, (sampleCalls i).newLegId = (sampleCalls j).newLegId → i = j := by decide
  refine ⟨?_, by rfl, by rfl⟩
  refine others_unnoticed ActivityCatalog.listedExternals ActivityCatalog.sampleErrors sampleCalls sampleTables
    ⟨fun _ _ => rfl, fun i j _ _ => hids i j⟩ ⟨⟨10⟩⟩ ?_ [true, true, true, false, false, false]
  intro row hrow _
  obtain ⟨id, ownerId, rfl⟩ : ∃ id ownerId, row = sampleActivity id ownerId := by
    rcases List.mem_cons.mp hrow with rfl | hrow
    . exact ⟨_, _, rfl⟩
    . exact ⟨_, _, List.mem_singleton.mp hrow⟩
  exact .inl (show (trim "Two days").utf8ByteSize ≤ ActivityCatalog.MAX_TITLE_LENGTH by decide)

end Catalog

end Api
