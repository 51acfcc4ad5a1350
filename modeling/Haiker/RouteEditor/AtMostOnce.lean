import Haiker.Api.OptimisticLock
import Haiker.Api.SingleActive
import Haiker.RouteEditor.Session
import Haiker.Simulation.Runs

/-!
This module contains when the server applies an edit at most once. Every request has a key of its own,
so what keeps an edit from being applied again is the optimistic lock alone: of the requests that were
sent before the edit was applied only one gets past it, but a replay asks for the revision first.
-/

open Rust
open RouteEditing
open RouteEditing.PgRouteDraftRepository
open RouteVersioning

namespace RouteEditor

variable {draftId : RouteDraftId} {db : Database} {s s' : Store} {handler : Api.Client}
  {draft : RouteDraft}

/-
The revision of the draft never falls.
-/

theorem revision_updated (hlock : Unlocked s draft)
    : Api.revisionOf draft.id (updated s draft) = Api.revisionOf draft.id s + 1 := by
  obtain ⟨row, hrow, hrevision, hrow'⟩ := Api.unlocked_revision hlock
  rw [Api.revisionOf_eq hrow, Api.revisionOf_eq hrow', hrevision]
  rfl

theorem revision_updated_of_ne (hlock : Unlocked s draft) (hid : draftId ≠ draft.id)
    : Api.revisionOf draftId (updated s draft) = Api.revisionOf draftId s := by
  obtain ⟨row, hrow, hrevision⟩ := hlock
  have hval : draftId.val ≠ draft.id.val := by
    intro h
    cases draftId
    cases hdraft : draft.id
    rw [hdraft] at h hid
    exact hid (congrArg RouteDraftId.mk h)
  rw [Api.revisionOf, Api.revisionOf, find?_drafts_updated hrow hrevision, if_neg hval]

theorem revision_le_updated (hlock : Unlocked s draft)
    : Api.revisionOf draftId s ≤ Api.revisionOf draftId (updated s draft) := by
  by_cases hid : draftId = draft.id
  . rw [hid, revision_updated hlock]
    exact Nat.le_succ _
  . rw [revision_updated_of_ne hlock hid]

theorem revision_le_client (s : Store) (handler : Api.Client)
    : Api.revisionOf draftId s ≤ Api.revisionOf draftId (handler.step s).1 := by
  rw [Api.Client.store_step]
  cases hcommit : handler.committing s with
  | none => exact le_rfl
  | some draft =>
    obtain ⟨_, _, _, hlock⟩ := Api.Client.committing_eq_some_iff.mp hcommit
    exact revision_le_updated hlock

theorem revision_publication (db : Database) (publication : Api.Publication)
    : Api.revisionOf draftId (publication.step db).1.routeEditing
        = Api.revisionOf draftId db.routeEditing := by
  rcases Api.Publication.step_cases db publication with hsame | ⟨row, _, _, hpublished⟩
  . rw [hsame]
  . rw [hpublished, Api.revisionOf, Api.revisionOf, find?_markPublished]
    cases db.routeEditing.drafts.find? draftId.val with
    | none => rfl
    | some row =>
      simp only [Option.map_some, Option.elim]
      split_ifs
      . rfl
      . rfl

theorem revision_le_creation (s : Store) (creation : Api.Creation)
    : Api.revisionOf draftId s ≤ Api.revisionOf draftId (creation.step s).1 := by
  cases hinsert : Api.Creation.inserting s creation with
  | none => rw [Api.Creation.step_of_not_inserting hinsert]
  | some draft =>
    obtain ⟨drafts, hdrafts, hstep⟩ := Api.Creation.step_of_inserting hinsert
    rw [hstep]
    cases hrow : s.drafts.find? draftId.val with
    | none => simp [Api.revisionOf, hrow]
    | some row =>
      have hrow' := Sql.Table.find?_insert?_of_some hdrafts hrow
      simp [Api.revisionOf, hrow, hrow']

theorem revision_le_task (db : Database) (task : Api.Task)
    : Api.revisionOf draftId db.routeEditing
        ≤ Api.revisionOf draftId (task.step db).1.routeEditing := by
  cases task with
  | edit client => exact revision_le_client db.routeEditing client
  | publish publication =>
    rw [Api.Task.step, revision_publication]
  | create creation => exact revision_le_creation db.routeEditing creation

/--
A request with this expected revision is not too late for the first application of the edit, and too late
for any other.
-/
structure InTime (revision : Nat) (applied : List String) (id : String) (expectedRevision : Nat)
    : Prop where
  le : expectedRevision ≤ revision
  lt : id ∈ applied → expectedRevision < revision

-- the revision does not fall, and an edit that is applied raises it
structure Moves (revision : Nat) (applied : List String) (revision' : Nat) (applied' : List String)
    : Prop where
  le : revision ≤ revision'
  applied : applied' = applied ∨ revision < revision'

variable {revision revision' expectedRevision : Nat} {applied applied' : List String} {id : String}

theorem InTime.moves (h : InTime revision applied id expectedRevision)
    (hmoves : Moves revision applied revision' applied')
    : InTime revision' applied' id expectedRevision where
  le := h.le.trans hmoves.le
  lt := by
    intro hmem
    rcases hmoves.applied with rfl | hlt
    . exact (h.lt hmem).trans_le hmoves.le
    . exact h.le.trans_lt hlt

-- the row that a request has read
def readRow? (handler : Api.Client) : Option DraftRow :=
  match handler.phase with
  | .rowRead row | .loaded row _ | .edited row _ _ => some row
  | .start | .passed | .finished => none

structure Flight.Fits (draftId : RouteDraftId) (revision : Nat) (applied : List String) (flight : Flight)
    : Prop where
  draftId : flight.handler.draftId = draftId
  sound : flight.handler.Sound
  read : ∀ row ∈ readRow? flight.handler, row.revision ≤ revision
  carries : ∀ id ∈ flight.edit, ∃ key body, flight.handler.request = .apply key body
    ∧ InTime revision applied id body.expectedRevision
  answer : ∀ r, flight.answer = some (.ok r) → r ≤ revision

variable {flight : Flight} {failure : Failure}

theorem Flight.Fits.moves (h : flight.Fits draftId revision applied)
    (hmoves : Moves revision applied revision' applied') : flight.Fits draftId revision' applied' where
  draftId := h.draftId
  sound := h.sound
  read := fun row hrow => (h.read row hrow).trans hmoves.le
  carries := by
    intro id hid
    obtain ⟨key, body, hrequest, htime⟩ := h.carries id hid
    exact ⟨key, body, hrequest, htime.moves hmoves⟩
  answer := fun r hr => (h.answer r hr).trans hmoves.le

theorem readRow?_lookup (s : Store) (handler : Api.Client)
    : readRow? (handler.goto (Api.Client.lookup s handler.request)) = none := by
  unfold Api.Client.lookup
  cases handler.request with
  | apply key body =>
    simp only
    cases s.draftOperations.find? key.val with
    | none => rfl
    | some row => rfl
  | undo | redo | reset | delete => rfl

-- a row that has been read after a step had been read before, or it is read now
theorem readRow?_step {row : DraftRow} (h : readRow? (handler.step s).2 = some row)
    : readRow? handler = some row ∨ s.drafts.find? handler.draftId.val = some row := by
  unfold Api.Client.step at h
  cases hphase : handler.phase with
  | start =>
    simp only [hphase, readRow?_lookup] at h
    cases h
  | passed =>
    simp only [hphase] at h
    cases hrow : s.drafts.find? handler.draftId.val with
    | none =>
      rw [hrow] at h
      cases h
    | some found =>
      rw [hrow] at h
      exact .inr h
  | rowRead old =>
    simp only [hphase] at h
    refine .inl ?_
    rw [readRow?, hphase]
    exact h
  | loaded old opRows =>
    simp only [hphase] at h
    refine .inl ?_
    rw [readRow?, hphase]
    rcases Api.Client.change_cases handler.context handler.request old opRows with
      hchange | ⟨draft, hchange, _⟩
    . rw [hchange] at h
      cases h
    . rw [hchange] at h
      exact h
  | edited old opRows draft =>
    simp only [hphase] at h
    cases h
  | finished =>
    simp only [hphase, readRow?] at h
    cases h

theorem read_step (hdraft : handler.draftId = draftId)
    (hread : ∀ row ∈ readRow? handler, row.revision ≤ Api.revisionOf draftId s)
    : ∀ row ∈ readRow? (handler.step s).2, row.revision ≤ Api.revisionOf draftId s := by
  intro row hrow
  rcases readRow?_step hrow with hold | hnow
  . exact hread row hold
  . rw [hdraft] at hnow
    rw [Api.revisionOf_eq hnow]

/--
A request that commits raises the revision by one. If it carries an operation, then the revision that it
expects is the one that the draft has.
-/
theorem commit_cases (hdraft : handler.draftId = draftId) (hsound : handler.Sound)
    (hread : ∀ row ∈ readRow? handler, row.revision ≤ Api.revisionOf draftId s)
    (hcommit : handler.committing s = some draft)
    : Api.revisionOf draftId (handler.step s).1 = draft.revision
        ∧ draft.revision = Api.revisionOf draftId s + 1
        ∧ ∀ key body, handler.request = .apply key body →
          body.expectedRevision = Api.revisionOf draftId s := by
  obtain ⟨row, opRows, hphase, hlock, _, _, _, hedit⟩ := Api.Client.of_committing hsound hcommit
  have hid : draft.id = draftId := (Api.Client.id_of_committing hsound hcommit).trans hdraft
  obtain ⟨stored, hstored, hnext, hwritten⟩ := Api.unlocked_revision hlock
  rw [hid] at hstored hwritten
  have hrow : row.revision ≤ Api.revisionOf draftId s := by
    apply hread
    rw [readRow?, hphase]
    rfl
  rw [Api.Client.store_step_of_committing hcommit, Api.revisionOf_eq hwritten,
    Api.revisionOf_eq hstored]
  rw [Api.revisionOf_eq hstored] at hrow
  refine ⟨rfl, hnext.symm, ?_⟩
  intro key body hrequest
  rw [hrequest] at hedit
  obtain ⟨_, ⟨command, hasks, hedited⟩ | ⟨hdelete, _⟩⟩ := Api.edit_cases hedit
  . generalize hexpected : (draftOfRows row opRows).revision = expectedRevision at hasks
    have hread : expectedRevision = row.revision := hexpected.symm
    cases hasks with
    | apply hoperation =>
      rcases hedited.raised_or_replayed with hraised | ⟨hsame, _⟩
      . rw [hexpected] at hraised
        omega
      . have hrevision : draft.revision = row.revision := by
          rw [hsame]
          rfl
        omega
  . cases hdelete

theorem applies_of_not_committing (h : flight.handler.committing s = none) : flight.applies s = [] := by
  simp [Flight.applies, Api.Client.commits, h]

theorem applies_of_committing (h : flight.handler.committing s = some draft)
    : flight.applies s = flight.edit.toList := by
  simp [Flight.applies, Api.Client.commits, h]

-- a request that is not answered by its commit is answered by an error
theorem answer_serve {r : Nat} (h : (flight.serve s failure).answer = some (.ok r))
    : flight.answer = some (.ok r) ∨ ∃ draft, flight.handler.committing s = some draft
      ∧ draft.revision = r := by
  unfold Flight.serve at h
  cases hcommit : flight.handler.committing s with
  | none =>
    simp only [hcommit] at h
    split at h
    . exact .inl h
    . cases h
    . exact .inl h
  | some draft =>
    simp only [hcommit, Option.some.injEq, Except.ok.injEq] at h
    exact .inr ⟨draft, rfl, h⟩

theorem moves_serve (h : flight.Fits draftId (Api.revisionOf draftId s) applied)
    : Moves (Api.revisionOf draftId s) applied (Api.revisionOf draftId (flight.handler.step s).1)
        (flight.applies s ++ applied) := by
  refine ⟨revision_le_client s flight.handler, ?_⟩
  cases hcommit : flight.handler.committing s with
  | none =>
    rw [applies_of_not_committing hcommit]
    exact .inl rfl
  | some draft =>
    obtain ⟨hstep, hnext, _⟩ := commit_cases h.draftId h.sound h.read hcommit
    apply Or.inr
    omega

theorem Flight.Fits.serve (h : flight.Fits draftId (Api.revisionOf draftId s) applied)
    : (flight.serve s failure).Fits draftId (Api.revisionOf draftId (flight.handler.step s).1)
        (flight.applies s ++ applied) := by
  have hmoved := h.moves (moves_serve h)
  constructor
  . exact (Api.Client.draftId_step s flight.handler).trans h.draftId
  . exact Api.Client.sound_step s h.sound
  . intro row hrow
    exact (read_step h.draftId h.read row hrow).trans (revision_le_client s flight.handler)
  . intro id hid
    obtain ⟨key, body, hrequest, htime⟩ := hmoved.carries id hid
    exact ⟨key, body, (Api.Client.request_step s flight.handler).trans hrequest, htime⟩
  . intro r hr
    rcases answer_serve hr with hold | ⟨draft, hcommit, rfl⟩
    . exact hmoved.answer r hold
    . obtain ⟨hstep, _, _⟩ := commit_cases h.draftId h.sound h.read hcommit
      exact hstep.ge

-- an edit that is applied now was not applied before, or its request would be too late
theorem nodup_serve (h : flight.Fits draftId (Api.revisionOf draftId s) applied)
    (hnodup : applied.Nodup) : (flight.applies s ++ applied).Nodup := by
  cases hcommit : flight.handler.committing s with
  | none =>
    rw [applies_of_not_committing hcommit]
    exact hnodup
  | some draft =>
    rw [applies_of_committing hcommit]
    cases hedit : flight.edit with
    | none => exact hnodup
    | some id =>
      obtain ⟨key, body, hrequest, htime⟩ := h.carries id hedit
      obtain ⟨_, _, hexpected⟩ := commit_cases h.draftId h.sound h.read hcommit
      rw [Option.toList_some, List.singleton_append, List.nodup_cons]
      refine ⟨?_, hnodup⟩
      intro hmem
      have hlt := htime.lt hmem
      rw [hexpected key body hrequest] at hlt
      exact lt_irrefl _ hlt

/-
What the editor knows of the revision.
-/

def Handler.Known (revision : Nat) (applied : List String) : Handler → Prop
  | .saved op => InTime revision applied op.id op.expectedRevision
  | .succeeded _ r | .confirmed r | .refetching r | .replaying r _ => r ≤ revision
  | .sent .. | .commanded .. | .cleaning | .conflicting | .recovering _ | .awaiting .. | .refreshing => True

structure Page.Known (revision : Nat) (applied : List String) (page : Page) : Prop where
  current : page.revision ≤ revision
  conflict : ∀ r, page.conflictRevision = some r → r ≤ revision
  handlers : ∀ handler ∈ page.handlers, handler.Known revision applied

-- the revision of the draft at the server
def World.draftRevision (draftId : RouteDraftId) (w : World) : Nat :=
  Api.revisionOf draftId w.db.routeEditing

structure World.Known (draftId : RouteDraftId) (w : World) : Prop where
  page : w.page.Known (w.draftRevision draftId) w.applied
  served : ∀ r ∈ w.served, r ≤ w.draftRevision draftId
  flights : ∀ flight ∈ w.flights, flight.Fits draftId (w.draftRevision draftId) w.applied
  nodup : w.applied.Nodup

variable {w : World} {page : Page} {r : Nat}

theorem Handler.Known.moves {handler : Handler} (h : handler.Known revision applied)
    (hmoves : Moves revision applied revision' applied') : handler.Known revision' applied' := by
  cases handler with
  | saved op => exact InTime.moves h hmoves
  | succeeded | confirmed | refetching | replaying => exact le_trans h hmoves.le
  | sent | commanded | cleaning | conflicting | recovering | awaiting | refreshing => trivial

theorem Page.Known.moves (h : page.Known revision applied)
    (hmoves : Moves revision applied revision' applied') : page.Known revision' applied' where
  current := h.current.trans hmoves.le
  conflict := fun r hr => (h.conflict r hr).trans hmoves.le
  handlers := fun handler hmem => (h.handlers handler hmem).moves hmoves

theorem Failure.known_handlers (e : Failure)
    : ∀ handler ∈ e.handlers, handler.Known revision applied := by
  intro handler hmem
  cases e with
  | conflict =>
    rw [List.mem_singleton.mp hmem]
    trivial
  | other => cases hmem

namespace World.Known

theorem ofPage (h : w.Known draftId) (hpage : page.Known (w.draftRevision draftId) w.applied)
    : { w with page }.Known draftId where
  page := hpage
  served := h.served
  flights := h.flights
  nodup := h.nodup

-- what is in IndexedDB carries no revision that is sent
theorem ofDisk (h : w.Known draftId) (disk : Disk) : { w with disk }.Known draftId where
  page := h.page
  served := h.served
  flights := h.flights
  nodup := h.nodup

theorem goOn (h : w.Known draftId) {handlers : List Handler}
    (hhandlers : ∀ handler ∈ handlers, handler.Known (w.draftRevision draftId) w.applied)
    : (w.goOn handlers).Known draftId := by
  apply h.ofPage
  refine { h.page with handlers := ?_ }
  intro handler hmem
  rcases List.mem_append.mp hmem with hold | hnew
  . exact h.page.handlers handler hold
  . exact hhandlers handler hnew

theorem goOn_one (h : w.Known draftId) {handler : Handler}
    (hhandler : handler.Known (w.draftRevision draftId) w.applied) : (w.goOn [handler]).Known draftId := by
  apply h.goOn
  intro other hmem
  rw [List.mem_singleton.mp hmem]
  exact hhandler

theorem eraseHandler (h : w.Known draftId) (i : Nat)
    : { w with page := { w.page with handlers := w.page.handlers.eraseIdx i } }.Known draftId :=
  h.ofPage { h.page with
    handlers := fun handler hmem => h.page.handlers handler (List.mem_of_mem_eraseIdx hmem)
  }

theorem setRevision (h : w.Known draftId) (hr : r ≤ w.draftRevision draftId)
    : (w.setRevision r).Known draftId := h.ofPage { h.page with current := hr }

theorem clearRecovery (h : w.Known draftId) : (w.clearRecovery draftId).Known draftId := by
  have hpage : { w.page with recoveryOps := [] }.Known (w.draftRevision draftId) w.applied :=
    { h.page with }
  exact (h.ofPage hpage).ofDisk _

theorem setConflictState (h : w.Known draftId) (hr : r ≤ w.draftRevision draftId)
    (ops : List PendingOperation) : (w.setConflictState r ops).Known draftId := by
  apply h.ofPage
  refine { h.page with conflict := ?_ }
  rintro _ ⟨⟩
  exact hr

theorem conflictRevision_le (h : w.Known draftId)
    : w.page.conflictRevision.getD w.page.revision ≤ w.draftRevision draftId := by
  cases hconflict : w.page.conflictRevision with
  | none => exact h.page.current
  | some r => exact h.page.conflict r hconflict

theorem resolveConflict (h : w.Known draftId) : w.resolveConflict.Known draftId := by
  apply h.ofPage
  refine { h.page with current := h.conflictRevision_le, conflict := ?_ }
  rintro _ ⟨⟩

theorem send (h : w.Known draftId) (draw : Draw) {edit : Option String} {request : Api.EditRequest}
    (hcarries : ∀ id ∈ edit, ∃ key body, request = .apply key body
      ∧ InTime (w.draftRevision draftId) w.applied id body.expectedRevision)
    : (w.send draftId draw edit request).Known draftId where
  page := h.page
  served := h.served
  flights := by
    intro flight hmem
    rcases List.mem_append.mp hmem with hold | hnew
    . exact h.flights flight hold
    . rw [List.mem_singleton.mp hnew]
      exact {
        draftId := rfl
        sound := trivial
        read := by
          rintro _ ⟨⟩
        carries := hcarries
        answer := by
          rintro _ ⟨⟩
      }
  nodup := h.nodup

theorem sendEdit (h : w.Known draftId) (draw : Draw) {op : PendingOperation} {expectedRevision : Nat}
    (htime : InTime (w.draftRevision draftId) w.applied op.id expectedRevision)
    : (w.send draftId draw (some op.id) (applyRequest draw op expectedRevision)).Known draftId := by
  apply h.send draw
  rintro _ ⟨⟩
  exact ⟨_, _, rfl, htime⟩

theorem answer_le (h : w.Known draftId) {flight : Nat} (hanswer : w.answer? flight = some (.ok r))
    : r ≤ w.draftRevision draftId := by
  obtain ⟨found, hfound, hr⟩ := Option.bind_eq_some_iff.mp hanswer
  exact (h.flights found (List.mem_of_getElem? hfound)).answer r hr

theorem served_le (h : w.Known draftId) {response : Nat} (hr : w.served[response]? = some r)
    : r ≤ w.draftRevision draftId := h.served r (List.mem_of_getElem? hr)

-- a handler that goes on, the loop of a replay only with an edit that is not applied
theorem resume (h : w.Known draftId) {handler : Handler} (draw : Draw) {response : Option Nat}
    (hknown : handler.Known (w.draftRevision draftId) w.applied)
    (hresponse : ∀ r, response = some r → r ≤ w.draftRevision draftId)
    (hunapplied : ∀ currentRevision op ops, handler = .replaying currentRevision (op :: ops) →
      op.id ∉ w.applied)
    : (handler.resume draftId draw response w).Known draftId := by
  cases handler with
  | saved op => exact (h.sendEdit draw hknown).goOn_one trivial
  | sent flight id =>
    simp only [Handler.resume]
    split
    . exact h.goOn_one trivial
    . next r hanswer => exact h.goOn_one (h.answer_le hanswer)
    . next e hanswer => exact h.goOn e.known_handlers
  | succeeded id r => exact (h.ofDisk _).goOn_one hknown
  | confirmed r => exact (h.ofDisk _).goOn_one hknown
  | refetching r => exact h.setRevision hknown
  | commanded flight isReset =>
    simp only [Handler.resume]
    split
    . exact h.goOn_one trivial
    . next r hanswer =>
      have hset := h.setRevision (h.answer_le hanswer)
      cases isReset with
      | true => exact hset.goOn_one trivial
      | false =>
        apply hset.goOn
        rintro _ ⟨⟩
    . next e hanswer => exact h.goOn e.known_handlers
  | cleaning => exact h.clearRecovery
  | conflicting =>
    cases response with
    | none => exact h
    | some r => exact h.setConflictState (hresponse r rfl) _
  | recovering ops =>
    cases response with
    | none => exact h
    | some r => exact h.goOn_one (hresponse r rfl)
  | replaying currentRevision ops =>
    cases ops with
    | nil => exact h.clearRecovery.goOn_one trivial
    | cons op ops =>
      have htime : InTime (w.draftRevision draftId) w.applied op.id currentRevision :=
        ⟨hknown, fun hmem => absurd hmem (hunapplied _ op ops rfl)⟩
      exact (h.sendEdit draw htime).goOn_one trivial
  | awaiting flight ops =>
    simp only [Handler.resume]
    split
    . exact h.goOn_one trivial
    . next r hanswer => exact h.goOn_one (h.answer_le hanswer)
    . next e hanswer =>
      apply h.goOn
      rw [List.forall_mem_cons]
      exact ⟨trivial, e.known_handlers⟩
  | refreshing =>
    cases response with
    | none => exact h
    | some r => exact (h.setRevision (hresponse r rfl)).ofDisk _

theorem fail (h : w.Known draftId) {handler : Handler}
    (hknown : handler.Known (w.draftRevision draftId) w.applied) : (handler.fail w).Known draftId := by
  cases handler with
  | sent flight id | commanded flight isReset => exact h
  | awaiting flight ops => exact h.goOn_one trivial
  | saved | succeeded | confirmed | refetching | cleaning | conflicting | recovering | replaying
  | refreshing => exact h.goOn_one hknown

end World.Known

-- the ids of edits that are in use
def World.ids (w : World) : List String :=
  w.applied ++ w.flights.filterMap (·.edit) ++ w.disk.pending.records.map (·.id)
    ++ w.page.handlers.filterMap fun handler => match handler with
      | .saved op => some op.id
      | _ => none

def Flight.findsKey (flight : Flight) (s : Store) : Bool :=
  match flight.handler.phase, flight.handler.request with
  | .start, .apply key _ => (s.draftOperations.find? key.val).isSome
  | _, _ => false

-- the ids and the keys that are drawn at random are new
def World.DrawsNew (w : World) : Event → Prop
  | .dispatchOperation id _ _ => id ∉ w.ids
  | .serve i _ => ∀ flight ∈ w.flights[i]?, flight.findsKey w.db.routeEditing = false
  | _ => True

-- the operation that a replay sends when the handler goes on
def World.replays (w : World) (i : Nat) : Option PendingOperation :=
  match w.page.handlers[i]? with
  | some (.replaying _ (op :: _)) => some op
  | _ => none

/--
A replay sends an edit only if the server has not applied it.
-/
def World.ReplaysUnapplied (w : World) : Event → Prop
  | .resume i _ _ => ∀ op ∈ w.replays i, op.id ∉ w.applied
  | _ => True

instance (w : World) (event : Event) : Decidable (w.DrawsNew event) :=
  match event with
  | .dispatchOperation id _ _ => inferInstanceAs (Decidable (id ∉ w.ids))
  | .serve i _ =>
    inferInstanceAs (Decidable (∀ flight ∈ w.flights[i]?, flight.findsKey w.db.routeEditing = false))
  | .createDraft _ | .checkRecovery | .setOnline _ | .reconnect _ | .command .. | .reloadDraft _
  | .acceptServerState | .retryOperations | .dismissConflict | .replayRecovery | .discardRecovery
  | .resume .. | .lose _ | .reloadPage | .getDraft | .other _ => inferInstanceAs (Decidable True)

instance (w : World) (event : Event) : Decidable (w.ReplaysUnapplied event) :=
  match event with
  | .resume i _ _ => inferInstanceAs (Decidable (∀ op ∈ w.replays i, op.id ∉ w.applied))
  | .createDraft _ | .checkRecovery | .setOnline _ | .reconnect _ | .dispatchOperation .. | .command ..
  | .reloadDraft _ | .acceptServerState | .retryOperations | .dismissConflict | .replayRecovery
  | .discardRecovery | .lose _ | .reloadPage | .getDraft | .serve .. | .other _ =>
    inferInstanceAs (Decidable True)

theorem Page.known_loading : Page.loading.Known revision applied where
  current := Nat.zero_le _
  conflict := by
    rintro _ ⟨⟩
  handlers := by
    rintro _ ⟨⟩

theorem World.Known.start (draftId : RouteDraftId) (db : Database) : (World.start db).Known draftId where
  page := Page.known_loading
  served := by
    rintro _ ⟨⟩
  flights := by
    rintro _ ⟨⟩
  nodup := .nil

-- the server goes on with what it has been sent
theorem World.Known.serve (h : w.Known draftId) {i : Nat} (hflight : w.flights[i]? = some flight)
    : { w with
        db := (Api.Task.step w.db (.edit flight.handler)).1
        flights := w.flights.set i (flight.serve w.db.routeEditing failure)
        applied := flight.applies w.db.routeEditing ++ w.applied
      }.Known draftId := by
  have hfits := h.flights flight (List.mem_of_getElem? hflight)
  have hmoves := moves_serve hfits
  constructor
  . exact h.page.moves hmoves
  . exact fun r hr => (h.served r hr).trans hmoves.le
  . intro other hmem
    rcases List.mem_or_eq_of_mem_set hmem with hold | rfl
    . exact (h.flights other hold).moves hmoves
    . exact hfits.serve
  . exact nodup_serve hfits h.nodup

theorem World.Known.other (h : w.Known draftId) (task : Api.Task)
    : { w with db := (task.step w.db).1 }.Known draftId := by
  have hmoves : Moves (w.draftRevision draftId) w.applied
      ({ w with db := (task.step w.db).1 }.draftRevision draftId) w.applied :=
    ⟨revision_le_task w.db task, .inl rfl⟩
  constructor
  . exact h.page.moves hmoves
  . exact fun r hr => (h.served r hr).trans hmoves.le
  . exact fun flight hmem => (h.flights flight hmem).moves hmoves
  . exact h.nodup

theorem World.Known.getDraft (h : w.Known draftId)
    : (w.step draftId .getDraft).Known draftId where
  page := h.page
  served := by
    intro r hr
    rcases List.mem_append.mp hr with hold | hnew
    . exact h.served r hold
    . rw [Option.mem_toList, Option.map_eq_some_iff] at hnew
      obtain ⟨row, hrow, rfl⟩ := hnew
      exact (Api.revisionOf_eq hrow).ge
  flights := h.flights
  nodup := h.nodup

theorem World.Known.step (h : w.Known draftId) {event : Event} (hnew : w.DrawsNew event)
    (hreplays : w.ReplaysUnapplied event) : (w.step draftId event).Known draftId := by
  cases event with
  | createDraft response =>
    simp only [World.step]
    split
    . next revision _ hr =>
      have hpage : { w.page with isOpen := true, revision }.Known (w.draftRevision draftId) w.applied :=
        { h.page with current := h.served_le hr }
      exact (h.ofPage hpage).ofDisk _
    . exact h
  | checkRecovery =>
    simp only [World.step]
    split_ifs
    . split
      . exact h.ofPage { h.page with }
      . exact h.ofPage { h.page with }
    . exact h
  | setOnline isOnline => exact h.ofPage { h.page with }
  | reconnect response =>
    simp only [World.step]
    split
    . next revision _ hr =>
      split_ifs
      . split
        . exact h.setRevision (h.served_le hr)
        . exact h.setConflictState (h.served_le hr) _
      . exact h
    . exact h
  | dispatchOperation id now operation =>
    simp only [World.step]
    split_ifs
    . apply (h.ofDisk _).goOn_one
      refine ⟨h.page.current, ?_⟩
      intro hmem
      refine absurd ?_ hnew
      simp only [World.ids, List.append_assoc]
      exact List.mem_append_left _ hmem
    . exact h
  | command kind draw =>
    simp only [World.step]
    split_ifs
    . refine (h.send draw ?_).goOn_one trivial
      rintro _ ⟨⟩
    . exact h
  | reloadDraft response =>
    simp only [World.step]
    split
    . next revision hr => exact h.setRevision (h.served_le hr)
    . exact h
  | acceptServerState =>
    simp only [World.step]
    cases w.page.isOpen with
    | true => exact h.clearRecovery.resolveConflict
    | false => exact h
  | retryOperations =>
    simp only [World.step]
    cases w.page.isOpen with
    | true => exact h.resolveConflict.goOn_one h.conflictRevision_le
    | false => exact h
  | dismissConflict => exact h.resolveConflict
  | replayRecovery =>
    simp only [World.step]
    cases w.page.isOpen with
    | true => exact h.goOn_one trivial
    | false => exact h
  | discardRecovery =>
    simp only [World.step]
    cases w.page.isOpen with
    | true => exact h.clearRecovery
    | false => exact h
  | resume i draw response =>
    simp only [World.step]
    cases hhandler : w.page.handlers[i]? with
    | none => exact h
    | some handler =>
      have hknown := h.page.handlers handler (List.mem_of_getElem? hhandler)
      apply (h.eraseHandler i).resume draw hknown
      . intro r hr
        exact h.served_le hr
      . rintro currentRevision op ops rfl
        apply hreplays
        rw [World.replays, hhandler]
        rfl
  | lose i =>
    simp only [World.step]
    cases hhandler : w.page.handlers[i]? with
    | none => exact h
    | some handler =>
      exact (h.eraseHandler i).fail (h.page.handlers handler (List.mem_of_getElem? hhandler))
  | reloadPage => exact h.ofPage Page.known_loading
  | getDraft => exact h.getDraft
  | serve i failure =>
    simp only [World.step]
    cases hflight : w.flights[i]? with
    | none => exact h
    | some flight => exact h.serve hflight
  | other task => exact h.other task

/--
As long as replays send no edit that is applied, every edit is applied at most once.
-/
theorem edits_applied_at_most_once (draftId : RouteDraftId) (db : Database) (events : List Event)
    (hnew : Runs.Along (World.step draftId) World.DrawsNew (.start db) events)
    (hreplays : Runs.Along (World.step draftId) World.ReplaysUnapplied (.start db) events)
    : (Runs.run (World.step draftId) (.start db) events).applied.Nodup := by
  have hstep : ∀ (w : World) event, w.Known draftId → w.DrawsNew event → w.ReplaysUnapplied event →
      (w.step draftId event).Known draftId :=
    fun w event h hnew hreplays => h.step hnew hreplays
  exact (Runs.Along.run_induction _ hstep (World.Known.start draftId db) hnew hreplays).nodup

def sampleDatabase : Database := { Api.emptyDatabase with routeEditing := sampleStore }

def sampleDraw (key : Nat) : Draw where
  idempotencyKey := ⟨⟨.ofNat 128 key⟩⟩
  context := Api.sampleContext

-- a point is added, and the request is sent
def sampleEdit : List Event := [
  .getDraft, .createDraft 0, .checkRecovery,
  .dispatchOperation "b0" 1000 (.addPoint 0 0 { latitude := .fin 50, longitude := .fin 7, elevation := none }),
  .resume 0 (sampleDraw 10) 0
]

-- the page is loaded again, and the operation that is found is replayed
def sampleRecovery : List Event := [
  .reloadPage, .getDraft, .createDraft 1, .checkRecovery, .replayRecovery,
  .resume 0 (sampleDraw 11) 1, .resume 0 (sampleDraw 11) 1
]

def handled (flight : Nat) : List Event := List.replicate 5 (.serve flight .other)

-- the first request was lost
theorem edits_applied_at_most_once_sampleEdit
    : (Runs.run (World.step ⟨⟨1⟩⟩) (.start sampleDatabase)
        (sampleEdit ++ sampleRecovery ++ handled 1)).applied.Nodup := by
  apply edits_applied_at_most_once
  . decide
  . decide

-- the first request was handled, and its answer was lost
def sampleLostAnswer : World :=
  Runs.run (World.step ⟨⟨1⟩⟩) (.start sampleDatabase)
    (sampleEdit ++ handled 0 ++ sampleRecovery ++ handled 1)

theorem edit_applied_twice
    : Runs.Along (World.step ⟨⟨1⟩⟩) World.DrawsNew (.start sampleDatabase)
          (sampleEdit ++ handled 0 ++ sampleRecovery ++ handled 1)
        ∧ ¬sampleLostAnswer.applied.Nodup
        ∧ (loaded sampleLostAnswer.db.routeEditing ⟨⟨1⟩⟩).map (fun draft =>
            draft.geometry.map fun segment => segment.map (·.coordinate.latitude))
          = some [[.fin 46, .fin 50, .fin 50, .fin 47, .fin 48]] := by
  refine ⟨by decide, by decide, by decide⟩

end RouteEditor
