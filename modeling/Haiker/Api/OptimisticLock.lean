import Haiker.Api.Clients
import Haiker.Concurrency.Locks
import Haiker.RouteEditing.Persistence

/-!
This module contains the effect of the optimistic lock on clients that edit one draft at the same time.
The row and the operation rows are read one after the other and can be torn by a commit in between,
but then the revision has moved on and the update does not find the row.
-/

open Rust
open RouteEditing
open RouteEditing.PgRouteDraftRepository
open Interleaving
open Versioned

namespace Api

variable {ι : Type} [DecidableEq ι]

section Draft

variable (draftId : RouteDraftId)

def revisionOf (s : Store) : Nat := (s.drafts.find? draftId.val).elim 0 (·.revision)

def rowOf (s : Store) : Option DraftRow := s.drafts.find? draftId.val

def rowsOf (s : Store) : Option DraftRow × List DraftOperationRow :=
  (rowOf draftId s, selectOperations s draftId.val)

/--
What the client has read is there as long as the revision is the one it has read.
-/
def Watched (s : Store) (client : Client) : Prop :=
  match client.phase with
  | .start | .passed | .finished => True
  | .rowRead row => ReadAt (revisionOf draftId) (rowOf draftId) s row.revision (some row)
  | .loaded row opRows | .edited row opRows _ =>
    ReadAt (revisionOf draftId) (rowsOf draftId) s row.revision (some row, opRows)

-- a client with a request on the draft, whose context is given
structure Serves (context : Context) (request : EditRequest) (s : Store) (client : Client) : Prop where
  context_eq : client.context = context
  request_eq : client.request = request
  draftId_eq : client.draftId = draftId
  sound : client.Sound
  watched : Watched draftId s client

/--
A step that commits finds the rows it was computed from in the store and raises the revision by one,
all other steps change nothing.
-/
def CommitsCurrent (c : Config Store Client ι) (i : ι) : Prop :=
  match Client.committing c.shared (c.clients i) with
  | none => (fire Client.step c i).shared = c.shared
  | some draft => ∃ row opRows row', (c.clients i).phase = .edited row opRows draft
    ∧ (c.clients i).request.edit (c.clients i).context (draftOfRows row opRows) = .ok draft
    ∧ c.shared.drafts.find? draftId.val = some row
    ∧ selectOperations c.shared draftId.val = opRows
    ∧ (fire Client.step c i).shared.drafts.find? draftId.val = some row'
    ∧ row'.revision = row.revision + 1

end Draft

variable {draftId : RouteDraftId} {context : Context} {request : EditRequest} {s s' : Store}
  {client : Client} {draft : RouteDraft} {row : DraftRow} {opRows : List DraftOperationRow}

theorem revisionOf_eq (h : s.drafts.find? draftId.val = some row)
    : revisionOf draftId s = row.revision := by
  rw [revisionOf, h, Option.elim]

theorem advances_step (hsound : client.Sound) (hid : client.draftId = draftId)
    : Advances (revisionOf draftId) (rowsOf draftId) s (Client.step s client).1 := by
  cases hcommit : Client.committing s client with
  | none =>
    have hsame : (Client.step s client).1 = s := by
      rw [Client.store_step, hcommit]
    rw [hsame]
    exact Advances.refl s
  | some draft =>
    obtain ⟨_, _, _, hlock, _⟩ := Client.of_committing hsound hcommit
    have hdraft : draft.id = draftId := (Client.id_of_committing hsound hcommit).trans hid
    obtain ⟨row, hrow, hrevision, hrow'⟩ := unlocked_revision hlock
    rw [hdraft] at hrow hrow'
    have hwritten : (setDraft draft row).revision = draft.revision := rfl
    apply Or.inr
    rw [Client.store_step_of_committing hcommit, revisionOf_eq hrow, revisionOf_eq hrow']
    omega

theorem watched_of_advances (h : Watched draftId s client)
    (hstep : Advances (revisionOf draftId) (rowsOf draftId) s s') : Watched draftId s' client := by
  have hrow : Advances (revisionOf draftId) (rowOf draftId) s s' := by
    apply hstep.imp
    intro hsame
    exact congrArg Prod.fst hsame
  unfold Watched at h ⊢
  cases hphase : client.phase with
  | start | passed | finished => trivial
  | rowRead row =>
    simp only [hphase] at h
    exact h.advances hrow
  | loaded row opRows =>
    simp only [hphase] at h
    exact h.advances hstep
  | edited row opRows draft =>
    simp only [hphase] at h
    exact h.advances hstep

-- what a client reads it has read at the revision of the row it has read
theorem watched_step (hsound : client.Sound) (hid : client.draftId = draftId)
    (h : Watched draftId s client)
    : Watched draftId (Client.step s client).1 (Client.step s client).2 := by
  unfold Client.step
  cases hphase : client.phase with
  | start =>
    simp only
    unfold Client.lookup
    split
    . split
      . trivial
      . trivial
    . trivial
    . trivial
    . trivial
    . trivial
  | passed =>
    simp only
    rw [hid]
    cases hrow : s.drafts.find? draftId.val with
    | none => trivial
    | some row =>
      have hread : ReadAt (revisionOf draftId) (rowOf draftId) s row.revision (rowOf draftId s) := by
        apply ReadAt.of_le
        rw [revisionOf_eq hrow]
      rw [rowOf, hrow] at hread
      exact hread
  | rowRead row =>
    unfold Watched at h
    unfold Client.Sound at hsound
    simp only [hphase] at h hsound ⊢
    rw [hid] at hsound
    rw [hsound]
    constructor
    . exact h.le
    . intro hrevision
      rw [rowsOf, h.eq hrevision]
  | loaded row opRows =>
    unfold Watched at h
    simp only [hphase] at h ⊢
    rcases Client.change_cases client.context client.request row opRows with
      hchange | ⟨draft, hchange, _⟩
    . rw [hchange]
      trivial
    . rw [hchange]
      exact h
  | edited => trivial
  | finished => exact h

/--
The revision that an update asks for is the one its rows were read at, so these are the rows it finds.
-/
theorem current_of_committing (hsound : client.Sound) (hid : client.draftId = draftId)
    (h : Watched draftId s client) (hcommit : Client.committing s client = some draft)
    : ∃ row opRows, client.phase = .edited row opRows draft
        ∧ client.request.edit client.context (draftOfRows row opRows) = .ok draft
        ∧ s.drafts.find? draftId.val = some row ∧ selectOperations s draftId.val = opRows
        ∧ (draftOfRows row opRows).ownerId = client.context.actor
        ∧ draft.revision = row.revision + 1 := by
  obtain ⟨row, opRows, hphase, hlock, _, _, howner, hedit⟩ := Client.of_committing hsound hcommit
  have hdraft : draft.id = draftId := (Client.id_of_committing hsound hcommit).trans hid
  unfold Watched at h
  simp only [hphase] at h
  obtain ⟨found, hfound, hrevision⟩ := hlock
  rw [hdraft] at hfound
  have hle := h.le
  rw [revisionOf_eq hfound] at hle
  -- only a raised revision is above the stored one
  have hraised : draft.revision = row.revision + 1 := by
    have hloaded : (draftOfRows row opRows).revision = row.revision := rfl
    obtain ⟨_, ⟨_, _, hedited⟩ | ⟨_, rfl⟩⟩ := edit_cases hedit
    . cases hedited.raised_or_replayed with
      | inl hraised => rw [hraised, hloaded]
      | inr hreplayed =>
        rw [hreplayed.1] at hrevision
        omega
    . simp only at hrevision
      omega
  have hcurrent := h.eq (by rw [revisionOf_eq hfound]; omega)
  rw [rowsOf, Prod.mk.injEq] at hcurrent
  exact ⟨row, opRows, hphase, hedit, hcurrent.1, hcurrent.2, howner, hraised⟩

theorem serves_step (h : Serves draftId context request s client)
    : Serves draftId context request (Client.step s client).1 (Client.step s client).2 where
  context_eq := by rw [Client.context_step, h.context_eq]
  request_eq := by rw [Client.request_step, h.request_eq]
  draftId_eq := by rw [Client.draftId_step, h.draftId_eq]
  sound := Client.sound_step s h.sound
  watched := watched_step h.sound h.draftId_eq h.watched

theorem serves_of_advances (h : Serves draftId context request s client)
    (hstep : Advances (revisionOf draftId) (rowsOf draftId) s s')
    : Serves draftId context request s' client where
  context_eq := h.context_eq
  request_eq := h.request_eq
  draftId_eq := h.draftId_eq
  sound := h.sound
  watched := watched_of_advances h.watched hstep

/--
A commit does what the whole request does when it is handled now.
-/
theorem store_step_eq_editDraft (h : Serves draftId context request s client)
    (hcommit : Client.commits s client = true)
    : (Client.step s client).1 = after (editDraft context draftId request) s := by
  rw [Client.commits, Option.isSome_iff_exists] at hcommit
  obtain ⟨draft, hcommit⟩ := hcommit
  obtain ⟨row, opRows, _, hedit, hrow, hrows, howner, _⟩ :=
    current_of_committing h.sound h.draftId_eq h.watched hcommit
  obtain ⟨_, _, _, hlock, _⟩ := Client.of_committing h.sound hcommit
  have hloaded : loaded s draftId = some (draftOfRows row opRows) := by
    rw [loaded, hrow, Option.map_some, hrows]
  rw [h.context_eq, h.request_eq] at hedit
  rw [h.context_eq] at howner
  have hrun := run_editDraft_of_edit hloaded howner hedit
  rw [if_pos hlock] at hrun
  rw [Client.store_step_of_committing hcommit, after_of_run_ok hrun]

theorem commitsCurrent_of_serves {c : Config Store Client ι} {i : ι}
    (h : Serves draftId context request c.shared (c.clients i)) : CommitsCurrent draftId c i := by
  unfold CommitsCurrent
  split
  . next hcommit =>
    apply Client.store_step_of_not_commits
    rw [Client.commits, hcommit]
    rfl
  . next draft hcommit =>
    obtain ⟨row, opRows, hphase, hedit, hrow, hrows, _, hraised⟩ :=
      current_of_committing h.sound h.draftId_eq h.watched hcommit
    obtain ⟨_, _, _, hlock, _⟩ := Client.of_committing h.sound hcommit
    have hdraft : draft.id = draftId := (Client.id_of_committing h.sound hcommit).trans h.draftId_eq
    obtain ⟨found, hfound, hrevision, hwritten⟩ := unlocked_revision hlock
    have hstore : (fire Client.step c i).shared = updated c.shared draft :=
      Client.store_step_of_committing hcommit
    rw [hdraft] at hwritten
    rw [← hstore] at hwritten
    exact ⟨row, opRows, _, hphase, hedit, hrow, hrows, hwritten, hraised⟩

/--
In every run of clients that edit one draft: every commit finds the rows it was computed from and
raises the revision by one, all other steps change nothing, and in the end the store is as if the
requests that commit had been handled one after the other, in the order of their commits.
-/
theorem commits_current_and_serial (draftId : RouteDraftId) (c : Config Store Client ι)
    (hclients : ∀ i, (c.clients i).draftId = draftId ∧ (c.clients i).Waiting) (schedule : List ι)
    : Along Client.step (CommitsCurrent draftId) c schedule
        ∧ (run Client.step c schedule).shared
            = (commitLog Client.step Client.commits c schedule).foldl (fun s i =>
                after (editDraft (c.clients i).context draftId (c.clients i).request) s) c.shared := by
  have hserves : Holds (fun _ => True)
      (fun i s client => Serves draftId (c.clients i).context (c.clients i).request s client) c := by
    refine ⟨trivial, ?_⟩
    intro i
    obtain ⟨hid, hwaiting⟩ := hclients i
    refine ⟨rfl, rfl, hid, Client.sound_of_waiting hwaiting, ?_⟩
    unfold Watched
    cases hwaiting with
    | inl hphase | inr hphase => simp [hphase]
  have hown : ∀ i s client, True →
      Serves draftId (c.clients i).context (c.clients i).request s client →
        True ∧ Serves draftId (c.clients i).context (c.clients i).request (Client.step s client).1
          (Client.step s client).2 := by
    intro i s client _ h
    exact ⟨trivial, serves_step h⟩
  have hstable : ∀ i j s client client', True → i ≠ j →
      Serves draftId (c.clients i).context (c.clients i).request s client →
        Serves draftId (c.clients j).context (c.clients j).request s client' →
          Serves draftId (c.clients j).context (c.clients j).request (Client.step s client).1
            client' := by
    intro i j s client client' _ _ h h'
    exact serves_of_advances h' (advances_step h.sound h.draftId_eq)
  constructor
  . apply hserves.along Client.step hown hstable
    intro c' i h
    exact commitsCurrent_of_serves (h.2 i)
  . apply hserves.run_eq_serial Client.step hown hstable
    . intro s client hcommit
      exact Client.store_step_of_not_commits hcommit
    . intro i s client _ h hcommit
      exact store_step_eq_editDraft h hcommit

-- two clients that move a point of the sample draft
def sampleEditors : Bool → Client
  | false => ⟨sampleContext, ⟨⟨1⟩⟩, .apply ⟨⟨10⟩⟩ (sampleMove 50 0), .start⟩
  | true => ⟨sampleContext, ⟨⟨1⟩⟩, .apply ⟨⟨11⟩⟩ (sampleMove 51 0), .start⟩

-- the first client commits between the two reads of the second
def sampleTornRead : List Bool :=
  [false, true, false, false, true, false, false, true, true, true]

theorem commits_current_and_serial_sampleEditors
    : Along Client.step (CommitsCurrent ⟨⟨1⟩⟩) ⟨sampleStore, sampleEditors⟩ sampleTornRead
        ∧ (run Client.step ⟨sampleStore, sampleEditors⟩ sampleTornRead).shared
            = (commitLog Client.step Client.commits ⟨sampleStore, sampleEditors⟩
                sampleTornRead).foldl (fun s i =>
                  after (editDraft (sampleEditors i).context ⟨⟨1⟩⟩ (sampleEditors i).request) s)
                sampleStore := by
  apply commits_current_and_serial
  intro i
  cases i with
  | false => exact ⟨rfl, .inl rfl⟩
  | true => exact ⟨rfl, .inl rfl⟩

-- the read is torn: the row is the old one, the operation is already there, and nothing is stored
example : commitLog Client.step Client.commits ⟨sampleStore, sampleEditors⟩ sampleTornRead = [false] := by
  decide

end Api
