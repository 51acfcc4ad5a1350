import Haiker.Api.Lemmas.Requests
import Haiker.Concurrency.Interleaving

/-!
This module contains clients whose edit requests are handled at the same time. Each query of a request
is a step of its own, a transaction is one step.
-/

open Rust
open RouteEditing
open RouteEditing.PgRouteDraftRepository

namespace Api

/--
How far a request has got.
-/
inductive Phase where
  | start
  -- the operation id, if the request has one, was not stored
  | passed
  | rowRead (row : DraftRow)
  | loaded (row : DraftRow) (opRows : List DraftOperationRow)
  -- the draft of these rows has been changed, and is about to be stored
  | edited (row : DraftRow) (opRows : List DraftOperationRow) (draft : RouteDraft)
  | finished

structure Client where
  context : Context
  draftId : RouteDraftId
  request : EditRequest
  phase : Phase

namespace Client

def goto (client : Client) (phase : Phase) : Client := { client with phase }

-- the lookup of the idempotency key, which only `post_apply_operation` makes
def lookup (s : Store) : EditRequest → Phase
  | .apply operationId _ =>
    match s.draftOperations.find? operationId.val with
    | some _ => .finished
    | none => .passed
  | .undo _ | .redo _ | .reset _ | .delete => .passed

-- check the owner and change the draft
def change (context : Context) (request : EditRequest) (row : DraftRow)
    (opRows : List DraftOperationRow) : Phase :=
  match checkOwner context.actor (draftOfRows row opRows) with
  | .error _ => .finished
  | .ok _ =>
    match request.edit context (draftOfRows row opRows) with
    | .error _ => .finished
    | .ok draft => .edited row opRows draft

def step (s : Store) (client : Client) : Store × Client :=
  match client.phase with
  | .start => (s, client.goto (lookup s client.request))
  | .passed =>
    match s.drafts.find? client.draftId.val with
    | some row => (s, client.goto (.rowRead row))
    | none => (s, client.goto .finished)
  | .rowRead row => (s, client.goto (.loaded row (selectOperations s row.id)))
  | .loaded row opRows => (s, client.goto (change client.context client.request row opRows))
  | .edited _ _ draft => (after (update draft) s, client.goto .finished)
  | .finished => (s, client)

-- the draft that the client's next step commits
def committing (s : Store) (client : Client) : Option RouteDraft :=
  match client.phase with
  | .edited _ _ draft => if Unlocked s draft then some draft else none
  | _ => none

def commits (s : Store) (client : Client) : Bool := (committing s client).isSome

-- the request has not read anything of its draft yet
def Waiting (client : Client) : Prop := client.phase = .start ∨ client.phase = .passed

variable {s : Store} {client : Client} {draft : RouteDraft} {row : DraftRow}
  {opRows : List DraftOperationRow}

theorem committing_eq_some_iff
    : committing s client = some draft
        ↔ ∃ row opRows, client.phase = .edited row opRows draft ∧ Unlocked s draft := by
  unfold committing
  cases client.phase with
  | edited row opRows other =>
    simp only [Option.ite_none_right_eq_some, Option.some.injEq, Phase.edited.injEq]
    constructor
    . rintro ⟨hlock, rfl⟩
      exact ⟨row, opRows, ⟨rfl, rfl, rfl⟩, hlock⟩
    . rintro ⟨_, _, ⟨_, _, rfl⟩, hlock⟩
      exact ⟨hlock, rfl⟩
  | start | passed | rowRead | loaded | finished => simp

theorem after_update (draft : RouteDraft) (s : Store)
    : after (update draft) s = if Unlocked s draft then updated s draft else s := by
  have hrun := run_update draft s
  split_ifs at hrun ⊢
  . exact after_of_run_ok hrun
  . exact after_of_run_error hrun
  . exact after_of_run_error hrun

theorem store_step (s : Store) (client : Client)
    : (step s client).1
        =
      match committing s client with
      | some draft => updated s draft
      | none => s := by
  unfold step committing
  cases client.phase with
  | edited row opRows draft =>
    simp only [after_update]
    split_ifs
    . rfl
    . rfl
  | passed =>
    simp only
    cases s.drafts.find? client.draftId.val with
    | none => rfl
    | some row => rfl
  | start | rowRead | loaded | finished => rfl

/-
A step changes nothing about the request.
-/

theorem goto_step (s : Store) (client : Client)
    : ∃ phase, (step s client).2 = client.goto phase := by
  unfold step
  cases hphase : client.phase with
  | passed =>
    simp only
    cases s.drafts.find? client.draftId.val with
    | none => exact ⟨_, rfl⟩
    | some row => exact ⟨_, rfl⟩
  | finished =>
    refine ⟨client.phase, ?_⟩
    rfl
  | start | rowRead | loaded | edited => exact ⟨_, rfl⟩

theorem context_step (s : Store) (client : Client) : (step s client).2.context = client.context := by
  obtain ⟨phase, hstep⟩ := goto_step s client
  rw [hstep, goto]

theorem request_step (s : Store) (client : Client) : (step s client).2.request = client.request := by
  obtain ⟨phase, hstep⟩ := goto_step s client
  rw [hstep, goto]

theorem draftId_step (s : Store) (client : Client) : (step s client).2.draftId = client.draftId := by
  obtain ⟨phase, hstep⟩ := goto_step s client
  rw [hstep, goto]

theorem store_step_of_committing (h : committing s client = some draft)
    : (step s client).1 = updated s draft := by
  rw [store_step, h]

theorem store_step_of_not_commits (h : commits s client = false) : (step s client).1 = s := by
  rw [commits, Option.isSome_eq_false_iff, Option.isNone_iff_eq_none] at h
  rw [store_step, h]

theorem change_cases (context : Context) (request : EditRequest) (row : DraftRow)
    (opRows : List DraftOperationRow)
    : change context request row opRows = .finished
        ∨ ∃ draft, change context request row opRows = .edited row opRows draft
          ∧ (draftOfRows row opRows).ownerId = context.actor
          ∧ request.edit context (draftOfRows row opRows) = .ok draft := by
  unfold change
  by_cases howner : (draftOfRows row opRows).ownerId = context.actor
  . rw [checkOwner_eq_ok howner]
    cases hedit : request.edit context (draftOfRows row opRows) with
    | error e => simp
    | ok draft => simp [howner]
  . simp [checkOwner_eq_error howner]

/--
What a client has read are rows of its draft, and what it is about to store is made of them.
-/
def Sound (client : Client) : Prop :=
  match client.phase with
  | .start | .passed | .finished => True
  | .rowRead row => row.id = client.draftId.val
  | .loaded row opRows => row.id = client.draftId.val ∧ (opRows.map (·.operationId)).Nodup
  | .edited row opRows draft => row.id = client.draftId.val ∧ (opRows.map (·.operationId)).Nodup
    ∧ (draftOfRows row opRows).ownerId = client.context.actor
    ∧ client.request.edit client.context (draftOfRows row opRows) = .ok draft

theorem sound_of_waiting (h : client.Waiting) : client.Sound := by
  unfold Sound
  cases h with
  | inl hphase | inr hphase => simp [hphase]

theorem sound_lookup (s : Store) (client : Client)
    : (client.goto (lookup s client.request)).Sound := by
  unfold lookup
  split
  . split
    . trivial
    . trivial
  . trivial
  . trivial
  . trivial
  . trivial

theorem sound_step (s : Store) (h : client.Sound) : (step s client).2.Sound := by
  unfold step
  cases hphase : client.phase with
  | start => exact sound_lookup s client
  | passed =>
    simp only
    cases hrow : s.drafts.find? client.draftId.val with
    | none => trivial
    | some row => exact Sql.Table.key_of_find? hrow
  | rowRead row =>
    unfold Sound at h
    simp only [hphase] at h
    exact ⟨h, nodup_selectOperations s row.id⟩
  | loaded row opRows =>
    unfold Sound at h
    simp only [hphase] at h
    rcases change_cases client.context client.request row opRows with hchange | ⟨draft, hchange, hedit⟩
    . simp only [hchange]
      trivial
    . simp only [hchange]
      exact ⟨h.1, h.2, hedit⟩
  | edited => trivial
  | finished => exact h

theorem of_committing (hsound : client.Sound) (h : committing s client = some draft)
    : ∃ row opRows, client.phase = .edited row opRows draft ∧ Unlocked s draft
        ∧ row.id = client.draftId.val ∧ (opRows.map (·.operationId)).Nodup
        ∧ (draftOfRows row opRows).ownerId = client.context.actor
        ∧ client.request.edit client.context (draftOfRows row opRows) = .ok draft := by
  rw [committing_eq_some_iff] at h
  obtain ⟨row, opRows, hphase, hlock⟩ := h
  unfold Sound at hsound
  simp only [hphase] at hsound
  exact ⟨row, opRows, hphase, hlock, hsound⟩

theorem id_of_committing (hsound : client.Sound) (h : committing s client = some draft)
    : draft.id = client.draftId := by
  obtain ⟨row, opRows, _, _, hid, _, _, hedit⟩ := of_committing hsound h
  rw [id_of_edit hedit, draftOfRows, hid]

theorem distinct_of_committing (hsound : client.Sound) (h : committing s client = some draft)
    : (draft.operations.map (·.id)).Nodup := by
  obtain ⟨row, opRows, _, _, _, hkeys, _, hedit⟩ := of_committing hsound h
  exact nodup_of_edit hedit (distinct_draftOfRows row hkeys)

theorem run_finished (s : Store) (client : Client) (n : Nat)
    : (Interleaving.run step ⟨s, fun _ : Unit => client.goto .finished⟩
        (List.replicate n ())).shared = s := by
  induction n with
  | zero => rfl
  | succ n ih =>
    rw [List.replicate_succ, Interleaving.run_cons, Interleaving.fire_alone]
    exact ih

-- the draft is changed, stored, and the client has finished
theorem run_loaded (hloaded : loaded s client.draftId = some (draftOfRows row opRows))
    : (Interleaving.run step ⟨s, fun _ : Unit => client.goto (.loaded row opRows)⟩
        (List.replicate 2 ())).shared
          = after (editDraft client.context client.draftId client.request) s := by
  have hchange : step s (client.goto (.loaded row opRows))
      = (s, client.goto (change client.context client.request row opRows)) := rfl
  rw [List.replicate_succ, Interleaving.run_cons, Interleaving.fire_alone, hchange, change]
  by_cases howner : (draftOfRows row opRows).ownerId = client.context.actor
  . rw [checkOwner_eq_ok howner]
    cases hedit : client.request.edit client.context (draftOfRows row opRows) with
    | error e =>
      have hrun := run_editDraft_of_edit_error hloaded howner hedit
      rw [after_of_run_error hrun]
      exact run_finished s client 1
    | ok draft =>
      have hrun := run_editDraft_of_edit hloaded howner hedit
      have hupdate : after (editDraft client.context client.draftId client.request) s
          = after (update draft) s := by
        rw [after_update]
        split_ifs at hrun ⊢
        . exact after_of_run_ok hrun
        . exact after_of_run_error hrun
        . exact after_of_run_error hrun
      rw [hupdate]
      rfl
  . have hrun : (editDraft client.context client.draftId client.request).run s
        = .error (.err ownershipNotFoundError) s := by
      apply run_editDraft_of_not_owned
      rintro ⟨draft, hdraft, hactor⟩
      rw [hloaded, Option.some.injEq] at hdraft
      rw [← hdraft] at hactor
      exact howner hactor
    rw [checkOwner_eq_error howner, after_of_run_error hrun]
    exact run_finished s client 1

theorem run_passed (s : Store) (client : Client)
    : (Interleaving.run step ⟨s, fun _ : Unit => client.goto .passed⟩ (List.replicate 4 ())).shared
        = after (editDraft client.context client.draftId client.request) s := by
  rw [List.replicate_succ, Interleaving.run_cons, Interleaving.fire_alone]
  cases hrow : s.drafts.find? client.draftId.val with
  | none =>
    have hread : step s (client.goto .passed) = (s, client.goto .finished) := by
      simp [step, goto, hrow]
    have hrun : (editDraft client.context client.draftId client.request).run s
        = .error (.err ownershipNotFoundError) s := by
      apply run_editDraft_of_not_owned
      rintro ⟨draft, hdraft, _⟩
      rw [loaded, hrow] at hdraft
      cases hdraft
    rw [hread, run_finished, after_of_run_error hrun]
  | some row =>
    have hread : step s (client.goto .passed) = (s, client.goto (.rowRead row)) := by
      simp [step, goto, hrow]
    have hid : row.id = client.draftId.val := Sql.Table.key_of_find? hrow
    have hrows : step s (client.goto (.rowRead row))
        = (s, client.goto (.loaded row (selectOperations s client.draftId.val))) := by
      simp [step, goto, hid]
    rw [hread, List.replicate_succ, Interleaving.run_cons, Interleaving.fire_alone, hrows]
    apply run_loaded
    rw [loaded, hrow, Option.map_some]

/--
A client that is alone does in its steps what the handler does in one go.
-/
theorem run_alone (s : Store) (client : Client)
    : (Interleaving.run step ⟨s, fun _ : Unit => client.goto .start⟩ (List.replicate 5 ())).shared
        = serve client.draftId s (client.context, client.request) := by
  have hstart : step s (client.goto .start) = (s, client.goto (lookup s client.request)) := rfl
  rw [List.replicate_succ, Interleaving.run_cons, Interleaving.fire_alone, hstart]
  by_cases hnew : ∀ operationId body, client.request = .apply operationId body →
      s.draftOperations.find? operationId.val = none
  . have hpassed : lookup s client.request = .passed := by
      unfold lookup
      cases hrequest : client.request with
      | apply operationId body => simp [hnew operationId body hrequest]
      | undo | redo | reset | delete => rfl
    rw [hpassed, serve_eq_edit hnew]
    exact run_passed s client
  . push Not at hnew
    obtain ⟨operationId, body, hrequest, hstored⟩ := hnew
    rw [← Option.isSome_iff_ne_none, Option.isSome_iff_exists] at hstored
    obtain ⟨row, hrow⟩ := hstored
    have hfinished : lookup s client.request = .finished := by
      simp [lookup, hrequest, hrow]
    rw [hfinished, hrequest, serve, after_postApply_of_some hrow]
    exact run_finished s client 4

end Client

end Api
