import Haiker.Api.System

/-!
This module contains when an owner has at most one active draft of an activity. Whether there is one is
asked before the new draft is inserted, and no constraint of the table asks again.
-/

open Rust
open RouteEditing
open RouteEditing.PgRouteDraftRepository
open RouteVersioning
open Interleaving

namespace Api

variable {ι : Type} [DecidableEq ι]

def SingleActive (s : Store) : Prop :=
  ∀ k k' row row', s.drafts.find? k = some row → s.drafts.find? k' = some row' →
    row.state = "active" → row'.state = "active" → row.activityId = row'.activityId →
      row.ownerId = row'.ownerId → k = k'

-- what client `i` inserts is the only active draft of its activity and owner
def InsertsAlone (c : Config Database Task ι) (i : ι) : Prop :=
  ∀ creation draft, c.clients i = .create creation →
    creation.inserting c.shared.routeEditing = some draft →
      ∀ k row, c.shared.routeEditing.drafts.find? k = some row → row.state = "active" →
        row.activityId = draft.activityId.val → row.ownerId ≠ draft.ownerId.val

-- the edit requests are discards
def OnlyDiscards (task : Task) : Prop :=
  ∀ client, task = .edit client → client.request = .delete ∧ client.Sound

def Steady (c : Config Database Task ι) : Prop :=
  SingleActive c.shared.routeEditing ∧ ∀ i, OnlyDiscards (c.clients i)

variable {s s' : Store} {db : Database} {draft : RouteDraft}

theorem onlyDiscards_step (db : Database) {task : Task} (h : OnlyDiscards task)
    : OnlyDiscards (Task.step db task).2 := by
  cases task with
  | edit client =>
    obtain ⟨hdelete, hsound⟩ := h client rfl
    intro other hother
    simp only [Task.step, Task.edit.injEq] at hother
    rw [← hother]
    refine ⟨?_, Client.sound_step _ hsound⟩
    rw [Client.request_step, hdelete]
  | publish publication =>
    intro client hclient
    cases hclient
  | create creation =>
    intro client hclient
    cases hclient

theorem SingleActive.of_subset (h : SingleActive s)
    (hsubset : ∀ k row, s'.drafts.find? k = some row → row.state = "active" →
      s.drafts.find? k = some row)
    : SingleActive s' := by
  intro k k' row row' hrow hrow' hactive hactive'
  exact h k k' row row' (hsubset k row hrow hactive) (hsubset k' row' hrow' hactive') hactive hactive'

theorem singleActive_discard {client : Client} (h : SingleActive s) (hdelete : client.request = .delete)
    (hsound : client.Sound) : SingleActive (client.step s).1 := by
  rw [Client.store_step]
  cases hcommit : client.committing s with
  | none => exact h
  | some draft =>
    obtain ⟨_, _, _, hlock, _, _, _, hedit⟩ := Client.of_committing hsound hcommit
    have hdiscarded : draft.state = .discarded := by
      rw [hdelete] at hedit
      obtain ⟨_, ⟨_, hasks, _⟩ | ⟨_, rfl⟩⟩ := edit_cases hedit
      . cases hasks
      . rfl
    obtain ⟨found, hfound, hrevision⟩ := hlock
    apply h.of_subset
    intro k row hrow hactive
    rw [find?_drafts_updated hfound hrevision] at hrow
    split at hrow
    . rw [Option.some.injEq] at hrow
      rw [← hrow, setDraft, hdiscarded] at hactive
      simp [stateToStr] at hactive
    . exact hrow

theorem singleActive_publish (h : SingleActive db.routeEditing) (publication : Publication)
    : SingleActive (publication.step db).1.routeEditing := by
  rcases publication.step_cases db with hsame | ⟨_, _, _, hstore⟩
  . rw [hsame]
    exact h
  . rw [hstore]
    apply h.of_subset
    intro k row hrow hactive
    rw [find?_markPublished, Option.map_eq_some_iff] at hrow
    obtain ⟨old, hold, hrow⟩ := hrow
    split at hrow
    . rw [← hrow] at hactive
      simp [setPublished] at hactive
    . rw [hold, hrow]

theorem singleActive_insert_iff {creation : Creation} (h : SingleActive s)
    (hinserting : creation.inserting s = some draft)
    : SingleActive (creation.step s).1
        ↔ ∀ k row, s.drafts.find? k = some row → row.state = "active" →
          row.activityId = draft.activityId.val → row.ownerId ≠ draft.ownerId.val := by
  obtain ⟨drafts, hinsert, hstore⟩ := Creation.step_of_inserting hinserting
  obtain ⟨_, _, hnew, _⟩ := Creation.inserting_eq_some_iff.mp hinserting
  obtain ⟨_, _, _, hactive, _⟩ := Creation.new_eq_ok hnew
  have hfind := Sql.Table.find?_insert? hinsert
  have hfree := Sql.Table.find?_eq_none_of_insert? hinsert
  have hnewActive : (rowOfDraft draft).state = "active" := by
    rw [rowOfDraft, hactive, stateToStr]
  rw [hstore]
  constructor
  . intro hsingle k row hrow hrowActive hactivity howner
    have hne : k ≠ (rowOfDraft draft).id := by
      intro heq
      rw [heq, hfree] at hrow
      cases hrow
    apply hne
    apply hsingle k (rowOfDraft draft).id row (rowOfDraft draft) _ _ hrowActive hnewActive hactivity
      howner
    . rw [hfind, if_neg hne, hrow]
    . rw [hfind, if_pos rfl]
  . intro halone k k' row row' hrow hrow' hrowActive hrowActive' hactivity howner
    simp only [hfind] at hrow hrow'
    split at hrow
    . next hk =>
      split at hrow'
      . next hk' => rw [hk, hk']
      . rw [Option.some.injEq] at hrow
        rw [← hrow] at hactivity howner
        exact absurd howner.symm (halone k' row' hrow' hrowActive' hactivity.symm)
    . split at hrow'
      . rw [Option.some.injEq] at hrow'
        rw [← hrow'] at hactivity howner
        exact absurd howner (halone k row hrow hrowActive hactivity)
      . exact h k k' row row' hrow hrow' hrowActive hrowActive' hactivity howner

theorem singleActive_step_iff {c : Config Database Task ι} {i : ι}
    (h : SingleActive c.shared.routeEditing) (hdiscards : OnlyDiscards (c.clients i))
    : SingleActive (fire Task.step c i).shared.routeEditing ↔ InsertsAlone c i := by
  unfold InsertsAlone fire
  cases hclient : c.clients i with
  | edit client =>
    obtain ⟨hdelete, hsound⟩ := hdiscards client hclient
    constructor
    . intro _ _ _ hcreation
      cases hcreation
    . intro _
      exact singleActive_discard h hdelete hsound
  | publish publication =>
    constructor
    . intro _ _ _ hcreation
      cases hcreation
    . intro _
      exact singleActive_publish h publication
  | create creation =>
    have hstore : (Task.step c.shared (.create creation)).1.routeEditing
        = (creation.step c.shared.routeEditing).1 := rfl
    rw [hstore]
    cases hinserting : creation.inserting c.shared.routeEditing with
    | none =>
      rw [Creation.step_of_not_inserting hinserting]
      constructor
      . intro _ other draft hother hsome
        injection hother with hother
        rw [← hother, hinserting] at hsome
        cases hsome
      . intro _
        exact h
    | some draft =>
      rw [singleActive_insert_iff h hinserting]
      constructor
      . intro halone other inserted hother hsome
        injection hother with hother
        rw [← hother, hinserting, Option.some.injEq] at hsome
        rw [← hsome]
        exact halone
      . intro halone
        exact halone creation draft rfl hinserting

/--
In every run of creations, discards and publications that starts with at most one active draft for each
activity and owner: it stays at one, exactly if no creation inserts its draft when there is one.
-/
theorem single_active_iff_inserts_alone (c : Config Database Task ι)
    (hsingle : SingleActive c.shared.routeEditing)
    (hclients : ∀ i client, c.clients i = .edit client → client.request = .delete ∧ client.Waiting)
    (schedule : List ι)
    : Along Task.step (fun c i => SingleActive (fire Task.step c i).shared.routeEditing) c schedule
        ↔ Along Task.step InsertsAlone c schedule := by
  have hiff : ∀ (c : Config Database Task ι) i, Steady c →
      (SingleActive (fire Task.step c i).shared.routeEditing ↔ InsertsAlone c i) := by
    intro c i hsteady
    exact singleActive_step_iff hsteady.1 (hsteady.2 i)
  have hkeeps : ∀ (c : Config Database Task ι) i, Steady c →
      SingleActive (fire Task.step c i).shared.routeEditing → Steady (fire Task.step c i) := by
    rintro c i ⟨_, hdiscards⟩ hsingle
    refine ⟨hsingle, ?_⟩
    intro j
    by_cases hj : j = i
    . subst hj
      rw [fire_clients_self]
      exact onlyDiscards_step _ (hdiscards j)
    . rw [fire_clients_ne Task.step c hj]
      exact hdiscards j
  apply along_congr_of_reached Task.step hiff hkeeps
  refine ⟨hsingle, ?_⟩
  intro i client hclient
  obtain ⟨hdelete, hwaiting⟩ := hclients i client hclient
  exact ⟨hdelete, Client.sound_of_waiting hwaiting⟩

def emptyDatabase : Database where
  routeEditing := .empty
  routeVersions := .empty
  activities := .empty
  outbox := .empty

-- two requests of one user for a draft of the same activity
def sampleCreations (second : Bool) : Task := .create {
  context := sampleContext
  id := if second then ⟨⟨6⟩⟩ else ⟨⟨1⟩⟩
  activityId := ⟨⟨2⟩⟩
  body := { geometry := geometryToDto RouteDraft.sampleGeometry, baseRouteVersionId := none }
  phase := .start
}

-- both ask whether there is an active draft, then both insert theirs
def sampleRace : List Bool := [false, true, false, true]

theorem single_active_iff_inserts_alone_sampleCreations
    : Along Task.step (fun c i => SingleActive (fire Task.step c i).shared.routeEditing)
          ⟨emptyDatabase, sampleCreations⟩ sampleRace
        ↔ Along Task.step InsertsAlone ⟨emptyDatabase, sampleCreations⟩ sampleRace := by
  apply single_active_iff_inserts_alone
  . intro k k' row row' hrow
    cases hrow
  . intro i client hclient
    cases hclient

/--
The user ends up with two active drafts of the activity.
-/
theorem two_active_drafts
    : ((run Task.step ⟨emptyDatabase, sampleCreations⟩ sampleRace).shared.routeEditing.drafts.rows.map
          fun row => (row.id, row.activityId, row.ownerId, row.state))
            = [(⟨1⟩, ⟨2⟩, ⟨3⟩, "active"), (⟨6⟩, ⟨2⟩, ⟨3⟩, "active")]
        ∧ ¬Along Task.step (fun c i => SingleActive (fire Task.step c i).shared.routeEditing)
          ⟨emptyDatabase, sampleCreations⟩ sampleRace := by
  refine ⟨by decide, ?_⟩
  intro h
  have hsplit : sampleRace = [false, true, false] ++ [true] := rfl
  rw [hsplit] at h
  have hlast : SingleActive (run Task.step ⟨emptyDatabase, sampleCreations⟩
      sampleRace).shared.routeEditing := h.last
  have hrows : ∀ id ∈ [(⟨1⟩ : Uuid), ⟨6⟩], ∃ row, (run Task.step ⟨emptyDatabase, sampleCreations⟩
      sampleRace).shared.routeEditing.drafts.find? id = some row
        ∧ (row.activityId, row.ownerId, row.state) = (⟨2⟩, ⟨3⟩, "active") := by
    intro id hid
    rw [← Option.map_eq_some_iff]
    revert id
    decide
  obtain ⟨row, hrow, hfields⟩ := hrows ⟨1⟩ (by decide)
  obtain ⟨row', hrow', hfields'⟩ := hrows ⟨6⟩ (by decide)
  simp only [Prod.mk.injEq] at hfields hfields'
  obtain ⟨hactivity, howner, hactive⟩ := hfields
  obtain ⟨hactivity', howner', hactive'⟩ := hfields'
  have hsame : (⟨1⟩ : Uuid) = ⟨6⟩ := by
    apply hlast ⟨1⟩ ⟨6⟩ row row' hrow hrow' hactive hactive'
    . rw [hactivity, hactivity']
    . rw [howner, howner']
  exact absurd hsame (by decide)

end Api
