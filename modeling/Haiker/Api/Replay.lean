import Haiker.Api.Lemmas.Requests
import Haiker.RouteEditing.Persistence

/-!
This module contains when a repeated request gets the answer of the first one. The answer is made up
from where the operation is now, so it is the same only if the operation is where that gives the
first answer.
-/

open Rust
open RouteEditing
open RouteEditing.PgRouteDraftRepository

namespace Api

-- the answer's fields but the draft
def SameAnswer (answer answer' : OperationResultResponse) : Prop :=
  answer'.revision = answer.revision ∧ answer'.canUndo = answer.canUndo
    ∧ answer'.canRedo = answer.canRedo

-- the answer to an operation that the draft has as number `i` of those applied
def answerAt (draftId : RouteDraftId) (i : Nat) : OperationResultResponse where
  draftId := draftId.val
  revision := i + 1
  canUndo := true
  canRedo := false

-- repeating the request gives `answer` and changes nothing
def Replays (context : Context) (draftId : RouteDraftId) (operationId : OperationId)
    (body : ApplyOperationRequest) (answer : OperationResultResponse) (s : Store) : Prop :=
  ∃ answer', (postApplyOperation context draftId operationId body).run s = .ok answer' s
    ∧ SameAnswer answer answer'

-- the draft's operation number `i` has the id and is the one in the body
def AppliedAt (s : Store) (draftId : RouteDraftId) (operationId : OperationId)
    (body : ApplyOperationRequest) (i : Nat) : Prop :=
  ∃ draft entry operation, loaded s draftId = some draft ∧ draft.appliedOperations[i]? = some entry
    ∧ entry.id = operationId ∧ body.operation.toDomain = .ok operation
    ∧ entry.operation.partialEq operation = true

/--
The store `s` is the one that the first request meets, `s'` the one that the repeated request meets.
-/
inductive Replayable (draftId : RouteDraftId) (operationId : OperationId)
    (body : ApplyOperationRequest) (s s' : Store) : Prop where
  -- another draft has the operation
  | foreign {row} (hrow : s.draftOperations.find? operationId.val = some row)
      (hother : row.draftId ≠ draftId.val)
  -- the first request has applied it, and now as many operations are below it as there were edits
  | fresh (hnone : s.draftOperations.find? operationId.val = none)
      (happlied : AppliedAt s' draftId operationId body body.expectedRevision)
  -- it had been applied, and still is where it was
  | applied {i} (hbefore : AppliedAt s draftId operationId body i)
      (happlied : AppliedAt s' draftId operationId body i)
  -- it had been undone, and the draft was not edited since
  | undone {draft draft'} (hloaded : loaded s draftId = some draft)
      (hundone : operationId ∈ draft.undoneOperations.map (·.id))
      (hloaded' : loaded s' draftId = some draft') (hrevision : draft'.revision = draft.revision)

-- no draft but this one has the operation
def Own (s : Store) (draftId : RouteDraftId) (operationId : OperationId) : Prop :=
  ∀ row, s.draftOperations.find? operationId.val = some row → row.draftId = draftId.val

variable {context : Context} {draftId : RouteDraftId} {operationId : OperationId}
  {body : ApplyOperationRequest} {answer : OperationResultResponse} {draft draft' : RouteDraft}
  {s s' : Store} {row : DraftOperationRow} {entry : OperationEntry} {i : Nat}

/-
What the replay answers, depending on the stack that the operation is on.
-/

theorem findIdx_of_distinct {entries : List OperationEntry} (hdistinct : (entries.map (·.id)).Nodup)
    (hentry : entries[i]? = some entry)
    : entries.find? (fun e => e.id = entry.id) = some entry
        ∧ entries.findIdx (fun e => e.id = entry.id) = i := by
  induction entries generalizing i with
  | nil => simp at hentry
  | cons first entries ih =>
    rw [List.map_cons, List.nodup_cons] at hdistinct
    cases i with
    | zero =>
      rw [List.getElem?_cons_zero, Option.some.injEq] at hentry
      subst hentry
      simp [List.findIdx_cons]
    | succ i =>
      rw [List.getElem?_cons_succ] at hentry
      have hne : first.id ≠ entry.id := by
        intro heq
        apply hdistinct.1
        rw [heq]
        exact List.mem_map_of_mem (List.mem_of_getElem? hentry)
      obtain ⟨hfind, hidx⟩ := ih hdistinct.2 hentry
      rw [List.find?_cons, List.findIdx_cons, hfind, hidx]
      simp [hne]

theorem distinct_applied (h : loaded s draftId = some draft)
    : (draft.appliedOperations.map (·.id)).Nodup := by
  have hdistinct := distinct_of_loaded h
  rw [RouteDraft.operations, List.map_append] at hdistinct
  exact hdistinct.of_append_left

theorem replay_of_applied (hdistinct : (draft.appliedOperations.map (·.id)).Nodup)
    (hentry : draft.appliedOperations[i]? = some entry) {operation : RouteOperation}
    (hoperation : body.operation.toDomain = .ok operation)
    (heq : entry.operation.partialEq operation = true)
    : replay entry.id body draft
        = .ok (answerAt draft.id i) := by
  obtain ⟨hfind, hidx⟩ := findIdx_of_distinct hdistinct hentry
  unfold replay answerAt
  simp [hfind, hidx, hoperation, heq]

theorem operation_of_replay (hdistinct : (draft.appliedOperations.map (·.id)).Nodup)
    (hentry : draft.appliedOperations[i]? = some entry)
    (hreplay : replay entry.id body draft = .ok answer)
    : ∃ operation, body.operation.toDomain = .ok operation
        ∧ entry.operation.partialEq operation = true := by
  obtain ⟨hfind, _⟩ := findIdx_of_distinct hdistinct hentry
  unfold replay at hreplay
  rw [hfind] at hreplay
  cases hoperation : body.operation.toDomain with
  | error message =>
    rw [hoperation] at hreplay
    cases hreplay
  | ok operation =>
    refine ⟨operation, rfl, ?_⟩
    rw [hoperation] at hreplay
    cases heq : entry.operation.partialEq operation with
    | false => simp [heq] at hreplay
    | true => rfl

theorem replay_of_not_applied (h : operationId ∉ draft.appliedOperations.map (·.id))
    : replay operationId body draft = .ok (operationResult draft) := by
  have hfind : draft.appliedOperations.find? (fun e => e.id = operationId) = none := by
    rw [List.find?_eq_none]
    intro e he
    rw [decide_eq_true_eq]
    intro heq
    apply h
    rw [← heq]
    exact List.mem_map_of_mem he
  unfold replay
  rw [hfind]

/--
An operation that is stored under the draft: it is on one of the stacks, and which one decides.
-/
theorem replay_cases (hreadable : Readable s draftId) (hloaded : loaded s draftId = some draft)
    (hrow : s.draftOperations.find? operationId.val = some row) (hdraft : row.draftId = draftId.val)
    (hreplay : replay operationId body draft = .ok answer)
    : (∃ i, AppliedAt s draftId operationId body i
        ∧ answer = answerAt draftId i)
      ∨ operationId ∈ draft.undoneOperations.map (·.id)
        ∧ answer = operationResult draft ∧ answer.canRedo = true := by
  obtain ⟨entry, hmem, rfl⟩ := mem_operations_of_stored hreadable hloaded hrow hdraft
  by_cases happlied : entry.id ∈ draft.appliedOperations.map (·.id)
  . obtain ⟨other, hother, hid⟩ := List.mem_map.mp happlied
    obtain ⟨i, hi⟩ := List.mem_iff_getElem?.mp hother
    have hdistinct := distinct_applied hloaded
    rw [← hid] at hreplay ⊢
    obtain ⟨operation, hoperation, heq⟩ := operation_of_replay hdistinct hi hreplay
    rw [replay_of_applied hdistinct hi hoperation heq] at hreplay
    injection hreplay with hanswer
    refine .inl ⟨i, ⟨draft, other, operation, hloaded, hi, rfl, hoperation, heq⟩, ?_⟩
    rw [← hanswer, id_of_loaded hloaded]
  . rw [replay_of_not_applied happlied] at hreplay
    injection hreplay with hanswer
    have hundone : entry.id ∈ draft.undoneOperations.map (·.id) := by
      cases List.mem_append.mp hmem with
      | inl h => exact absurd (List.mem_map_of_mem h) happlied
      | inr h => exact List.mem_map_of_mem h
    refine .inr ⟨hundone, hanswer.symm, ?_⟩
    have hne : draft.undoneOperations ≠ [] := by
      intro hnil
      rw [hnil] at hundone
      simp at hundone
    rw [← hanswer]
    simp [operationResult, hne]

theorem stored_of_appliedAt (h : AppliedAt s draftId operationId body i)
    : ∃ draft row, loaded s draftId = some draft
        ∧ s.draftOperations.find? operationId.val = some row ∧ row.draftId = draftId.val
        ∧ replay operationId body draft
          = .ok (answerAt draftId i) := by
  obtain ⟨draft, entry, operation, hloaded, hentry, rfl, hoperation, heq⟩ := h
  have hmem : entry ∈ draft.operations := List.mem_append_left _ (List.mem_of_getElem? hentry)
  obtain ⟨row, hrow, hdraft, _⟩ := row_of_loaded hloaded hmem
  refine ⟨draft, row, hloaded, hrow, hdraft, ?_⟩
  rw [replay_of_applied (distinct_applied hloaded) hentry hoperation heq, id_of_loaded hloaded]

theorem run_of_replay (hrow : s.draftOperations.find? operationId.val = some row)
    (hdraft : row.draftId = draftId.val) (hloaded : loaded s draftId = some draft)
    (hreplay : replay operationId body draft = .ok answer)
    : (postApplyOperation context draftId operationId body).run s = .ok answer s := by
  have hstored : loaded s ⟨row.draftId⟩ = some draft := by
    rw [hdraft]
    exact hloaded
  rw [run_postApply_of_loaded hrow hstored, hreplay, run_ofResult_ok]

/--
A successful request has applied the operation, which was not stored, or it has found the operation
stored and replayed it.
-/
theorem answer_cases (h : (postApplyOperation context draftId operationId body).run s = .ok answer s')
    : (s.draftOperations.find? operationId.val = none
        ∧ (∃ draft draft', loaded s draftId = some draft ∧ Unlocked s draft'
          ∧ draft'.id = draftId ∧ s' = updated s draft')
        ∧ answer = answerAt draftId body.expectedRevision)
      ∨ ∃ row draft, s.draftOperations.find? operationId.val = some row
        ∧ loaded s ⟨row.draftId⟩ = some draft ∧ replay operationId body draft = .ok answer
        ∧ s' = s := by
  cases hstored : s.draftOperations.find? operationId.val with
  | none =>
    rw [run_postApply_of_none hstored, EStateM.run_bind] at h
    rcases editDraft_cases context draftId (.apply operationId body) s with
      ⟨e, hrun⟩ | ⟨draft, draft', hloaded, _, hedit, hlock, hrun⟩
    . rw [hrun] at h
      cases h
    . rw [hrun] at h
      injection h with hanswer hs
      have hid : draft'.id = draftId := (id_of_edit hedit).trans (id_of_loaded hloaded)
      refine .inl ⟨rfl, ⟨draft, draft', hloaded, hlock, hid, hs.symm⟩, ?_⟩
      obtain ⟨_, ⟨command, hasks, hedited⟩ | ⟨hdelete, _⟩⟩ := edit_cases hedit
      . generalize hrevision : draft.revision = expectedRevision at hasks
        cases hasks with
        | apply hoperation =>
          cases hedited with
          | replayed hmem =>
            exact absurd hlock (not_unlocked_of_loaded hloaded hid rfl)
          | applied hfresh hexec =>
            rw [← hanswer, ← hid, ← hrevision]
            simp [operationResult, RouteDraft.afterApply, answerAt]
      . cases hdelete
  | some row =>
    cases hloaded : loaded s ⟨row.draftId⟩ with
    | none =>
      rw [run_postApply_of_some hstored, EStateM.run_bind, run_findDraft_of_none hloaded] at h
      cases h
    | some draft =>
      rw [run_postApply_of_loaded hstored hloaded] at h
      cases hreplay : replay operationId body draft with
      | error e =>
        rw [hreplay, run_ofResult_error] at h
        cases h
      | ok result =>
        rw [hreplay, run_ofResult_ok] at h
        injection h with hanswer hs
        subst hanswer
        exact .inr ⟨row, draft, rfl, hloaded, hreplay, hs.symm⟩

-- an edit changes the store
theorem updated_ne (hlock : Unlocked s draft') : updated s draft' ≠ s := by
  intro heq
  obtain ⟨row, hrow, hrevision, hrow'⟩ := unlocked_revision hlock
  rw [heq, hrow, Option.some.injEq] at hrow'
  have hwritten : (setDraft draft' row).revision = draft'.revision := rfl
  rw [← hrow'] at hwritten
  omega

/-
The repeated request, in a store where the operation is stored under the draft or not at all.
-/

section Repeated

variable (hreadable : Readable s draftId)
  (hown : Own s draftId operationId)

include hreadable hown

theorem replays_cases (h : Replays context draftId operationId body answer s)
    : (∃ i, AppliedAt s draftId operationId body i ∧ SameAnswer answer (answerAt draftId i))
      ∨ ∃ draft, loaded s draftId = some draft ∧ operationId ∈ draft.undoneOperations.map (·.id)
        ∧ SameAnswer answer (operationResult draft) ∧ answer.canRedo = true := by
  obtain ⟨answer', hrun, hsame⟩ := h
  rcases answer_cases hrun with
    ⟨_, ⟨draft, draft', _, hlock, _, hs⟩, _⟩ | ⟨row, draft, hrow, hloaded, hreplay, _⟩
  . exact absurd hs.symm (updated_ne hlock)
  . have hdraft := hown row hrow
    rw [hdraft] at hloaded
    rcases replay_cases hreadable hloaded hrow hdraft hreplay with
      ⟨i, happlied, rfl⟩ | ⟨hundone, rfl, hredo⟩
    . exact .inl ⟨i, happlied, hsame⟩
    . refine .inr ⟨draft, hloaded, hundone, hsame, ?_⟩
      rw [← hsame.2.2]
      exact hredo

theorem replays_answerAt_iff
    : Replays context draftId operationId body (answerAt draftId i) s
        ↔ AppliedAt s draftId operationId body i := by
  constructor
  . intro h
    rcases replays_cases hreadable hown h with ⟨j, happlied, hsame⟩ | ⟨_, _, _, _, hredo⟩
    . have hrevision := hsame.1
      simp only [answerAt] at hrevision
      have : j = i := by omega
      rw [← this]
      exact happlied
    . cases hredo
  . intro h
    obtain ⟨draft, row, hloaded, hrow, hdraft, hreplay⟩ := stored_of_appliedAt h
    exact ⟨_, run_of_replay hrow hdraft hloaded hreplay, rfl, rfl, rfl⟩

end Repeated

theorem stored_of_undone (hloaded : loaded s draftId = some draft)
    (hundone : operationId ∈ draft.undoneOperations.map (·.id))
    : ∃ row, s.draftOperations.find? operationId.val = some row ∧ row.draftId = draftId.val := by
  obtain ⟨entry, hentry, rfl⟩ := List.mem_map.mp hundone
  obtain ⟨row, hrow, hdraft, _⟩ := row_of_loaded hloaded (List.mem_append_right _ hentry)
  exact ⟨row, hrow, hdraft⟩

theorem appliedAt_unique {j : Nat} (h : AppliedAt s draftId operationId body i)
    (h' : AppliedAt s draftId operationId body j) : j = i := by
  obtain ⟨draft, row, hloaded, hrow, hdraft, hreplay⟩ := stored_of_appliedAt h
  obtain ⟨draft', row', hloaded', hrow', hdraft', hreplay'⟩ := stored_of_appliedAt h'
  rw [hloaded, Option.some.injEq] at hloaded'
  rw [← hloaded', hreplay] at hreplay'
  injection hreplay' with hanswer
  simp only [answerAt, OperationResultResponse.mk.injEq] at hanswer
  omega

theorem not_undone_of_appliedAt (h : AppliedAt s draftId operationId body i)
    (hloaded : loaded s draftId = some draft)
    : operationId ∉ draft.undoneOperations.map (·.id) := by
  obtain ⟨other, entry, operation, hother, hentry, rfl, _, _⟩ := h
  rw [hloaded, Option.some.injEq] at hother
  subst hother
  have hdistinct := distinct_of_loaded hloaded
  rw [RouteDraft.operations, List.map_append, List.nodup_append] at hdistinct
  intro hundone
  have hid : entry.id ∈ draft.appliedOperations.map (·.id) :=
    List.mem_map_of_mem (List.mem_of_getElem? hentry)
  exact hdistinct.2.2 _ hid _ hundone rfl

theorem own_of_none (h : s.draftOperations.find? operationId.val = none)
    : Own s draftId operationId := by
  intro row hrow
  rw [h] at hrow
  cases hrow

theorem own_of_some (h : s.draftOperations.find? operationId.val = some row)
    (hdraft : row.draftId = draftId.val) : Own s draftId operationId := by
  intro other hother
  rw [h, Option.some.injEq] at hother
  rw [← hother]
  exact hdraft

theorem own_of_evolved (hrun : Evolved draftId s s') (hown : Own s draftId operationId)
    : Own s' draftId operationId := by
  intro row hrow
  by_contra hother
  rw [hrun.operations _ row hother] at hrow
  exact hother (hown row hrow)

theorem eq_of_revision (hrun : Evolved draftId s s') (hloaded : loaded s draftId = some draft)
    (hloaded' : loaded s' draftId = some draft') (hrevision : draft'.revision = draft.revision)
    : s' = s := by
  rcases hrun.revision with hsame | ⟨row, row', hrow, hrow', hlt⟩
  . exact hsame
  . obtain ⟨first, hfirst, hequal⟩ := revision_of_loaded hloaded
    obtain ⟨second, hsecond, hequal'⟩ := revision_of_loaded hloaded'
    rw [hrow, Option.some.injEq] at hfirst
    rw [hrow', Option.some.injEq] at hsecond
    rw [← hfirst] at hequal
    rw [← hsecond] at hequal'
    omega

/-
The three cases of the first request: it has applied the operation, it has found it applied, or it has
found it undone. Then there is the operation of another draft, which no request on this one touches.
-/

section Cases

variable {later : Context} (hreadable : Readable s draftId) (hrun : Evolved draftId s s')

include hreadable hrun

theorem replays_iff_of_fresh (hnone : s.draftOperations.find? operationId.val = none)
    : Replays later draftId operationId body (answerAt draftId body.expectedRevision) s'
        ↔ Replayable draftId operationId body s s' := by
  have hown := own_of_evolved hrun (own_of_none hnone)
  rw [replays_answerAt_iff (hrun.readable hreadable) hown]
  constructor
  . intro happlied
    exact .fresh hnone happlied
  . intro h
    cases h with
    | fresh _ happlied => exact happlied
    | foreign hrow =>
      rw [hnone] at hrow
      cases hrow
    | applied hbefore =>
      obtain ⟨_, row, _, hrow, _⟩ := stored_of_appliedAt hbefore
      rw [hnone] at hrow
      cases hrow
    | undone hloaded hundone =>
      obtain ⟨row, hrow, _⟩ := stored_of_undone hloaded hundone
      rw [hnone] at hrow
      cases hrow

theorem replays_iff_of_applied (hbefore : AppliedAt s draftId operationId body i)
    : Replays later draftId operationId body (answerAt draftId i) s'
        ↔ Replayable draftId operationId body s s' := by
  obtain ⟨_, row, _, hrow, hdraft, _⟩ := stored_of_appliedAt hbefore
  have hown := own_of_evolved hrun (own_of_some hrow hdraft)
  rw [replays_answerAt_iff (hrun.readable hreadable) hown]
  constructor
  . intro happlied
    exact .applied hbefore happlied
  . intro h
    cases h with
    | applied hbefore' happlied =>
      rw [← appliedAt_unique hbefore hbefore']
      exact happlied
    | foreign hrow' hother =>
      rw [hrow, Option.some.injEq] at hrow'
      rw [← hrow'] at hother
      exact absurd hdraft hother
    | fresh hnone =>
      rw [hrow] at hnone
      cases hnone
    | undone hloaded hundone => exact absurd hundone (not_undone_of_appliedAt hbefore hloaded)

theorem replays_iff_of_undone (hloaded : loaded s draftId = some draft)
    (hrow : s.draftOperations.find? operationId.val = some row) (hdraft : row.draftId = draftId.val)
    (hreplay : replay operationId body draft = .ok (operationResult draft))
    (hundone : operationId ∈ draft.undoneOperations.map (·.id))
    (hredo : (operationResult draft).canRedo = true)
    : Replays later draftId operationId body (operationResult draft) s'
        ↔ Replayable draftId operationId body s s' := by
  have hown := own_of_evolved hrun (own_of_some hrow hdraft)
  constructor
  . intro h
    rcases replays_cases (hrun.readable hreadable) hown h with
      ⟨i, _, hsame⟩ | ⟨draft', hloaded', _, hsame, _⟩
    . have hfalse := hsame.2.2
      rw [hredo] at hfalse
      cases hfalse
    . exact .undone hloaded hundone hloaded' hsame.1
  . intro h
    cases h with
    | undone hloaded' hundone' hlater hrevision =>
      rw [hloaded, Option.some.injEq] at hloaded'
      subst hloaded'
      rw [eq_of_revision hrun hloaded hlater hrevision]
      exact ⟨_, run_of_replay hrow hdraft hloaded hreplay, rfl, rfl, rfl⟩
    | foreign hrow' hother =>
      rw [hrow, Option.some.injEq] at hrow'
      rw [← hrow'] at hother
      exact absurd hdraft hother
    | fresh hnone =>
      rw [hrow] at hnone
      cases hnone
    | applied hbefore => exact absurd hundone (not_undone_of_appliedAt hbefore hloaded)

end Cases

theorem replays_of_foreign {later : Context} (hrun : Evolved draftId s s')
    (hrow : s.draftOperations.find? operationId.val = some row) (hother : row.draftId ≠ draftId.val)
    (hloaded : loaded s ⟨row.draftId⟩ = some draft)
    (hreplay : replay operationId body draft = .ok answer)
    : Replays later draftId operationId body answer s' := by
  have hrow' : s'.draftOperations.find? operationId.val = some row :=
    (hrun.operations _ row hother).mpr hrow
  have hloaded' : loaded s' ⟨row.draftId⟩ = some draft := by
    rw [hrun.loaded, hloaded]
    rintro rfl
    exact hother rfl
  refine ⟨answer, ?_, rfl, rfl, rfl⟩
  rw [run_postApply_of_loaded hrow' hloaded', hreplay, run_ofResult_ok]

/--
For every run of requests on a draft that was created and saved: a request that was answered with
success gets the same answer again, at any later point and without a change to the store, exactly if
the operation is where that answer is made up from.
-/
theorem replays_iff_replayable (before created : Store) (hreferential : Referential before)
    (now : Timestamp) (ownerId : Identity.UserId) (activityId : ActivityCatalog.ActivityId)
    (baseRouteVersionId : Option Uuid) (g : Geometry)
    (hcreate : RouteDraft.createFromGeometry draftId now ownerId activityId baseRouteVersionId g
      = .ok draft)
    (hsave : (save draft).run before = .ok () created) (first middle : List (Context × EditRequest))
    (hfinite : ∀ r ∈ first ++ (context, .apply operationId body) :: middle, FiniteRequest r.1 r.2)
    (horiginal : (postApplyOperation context draftId operationId body).run
      (serveAll draftId created first) = .ok answer s)
    (later : Context)
    : Replays later draftId operationId body answer (serveAll draftId s middle)
        ↔ Replayable draftId operationId body (serveAll draftId created first)
            (serveAll draftId s middle) := by
  rw [RouteDraft.createFromGeometry_eq_ok_iff] at hcreate
  obtain ⟨_, rfl⟩ := hcreate
  obtain ⟨hoperations, _, hunowned⟩ := eq_of_save hreferential rfl hsave
  rw [List.forall_mem_append, List.forall_mem_cons] at hfinite
  have hreadable : Readable (serveAll draftId created first) draftId := by
    apply (evolved_serveAll draftId created hfinite.1).readable
    intro k row hrow hdraft
    rw [hoperations] at hrow
    exact absurd hdraft (hunowned k row hrow)
  have hstep : Evolved draftId (serveAll draftId created first) s := by
    have := evolved_serve draftId (serveAll draftId created first) hfinite.2.1
    rw [serve, after_of_run_ok horiginal] at this
    exact this
  have hrun := hstep.trans (evolved_serveAll draftId s hfinite.2.2)
  rcases answer_cases horiginal with ⟨hnone, _, rfl⟩ | ⟨row, draft, hrow, hloaded, hreplay, _⟩
  . exact replays_iff_of_fresh hreadable hrun hnone
  . by_cases hdraft : row.draftId = draftId.val
    . rw [hdraft] at hloaded
      rcases replay_cases hreadable hloaded hrow hdraft hreplay with
        ⟨i, hbefore, rfl⟩ | ⟨hundone, rfl, hredo⟩
      . exact replays_iff_of_applied hreadable hrun hbefore
      . exact replays_iff_of_undone hreadable hrun hloaded hrow hdraft hreplay hundone hredo
    . constructor
      . intro _
        exact .foreign hrow hdraft
      . intro _
        exact replays_of_foreign hrun hrow hdraft hloaded hreplay

-- the sample draft after its second point was moved
def sampleMovedStore : Store :=
  after (postApplyOperation sampleContext ⟨⟨1⟩⟩ ⟨⟨10⟩⟩ (sampleMove 50 0)) sampleStore

def sampleUndo : Context × EditRequest := (sampleContext, .undo { expectedRevision := 1 })

theorem finiteRequest_sampleMove (context : Context) (operationId : OperationId) (latitude : ℚ)
    (expectedRevision : Nat)
    : FiniteRequest context (.apply operationId (sampleMove latitude expectedRevision)) := by
  intro operation hoperation
  simp only [sampleMove, OperationDto.toDomain] at hoperation
  split at hoperation
  . next coordinate hnew =>
    rw [Coordinate.new_eq_ok_iff] at hnew
    injection hoperation with hoperation
    rw [← hoperation, hnew.1]
    exact ⟨rfl, rfl⟩
  . cases hoperation

theorem replays_iff_replayable_sampleDraft
    : Replays sampleContext ⟨⟨1⟩⟩ ⟨⟨10⟩⟩ (sampleMove 50 0) (answerAt ⟨⟨1⟩⟩ 0)
          (serveAll ⟨⟨1⟩⟩ sampleMovedStore [sampleUndo])
        ↔
      Replayable ⟨⟨1⟩⟩ ⟨⟨10⟩⟩ (sampleMove 50 0) (serveAll ⟨⟨1⟩⟩ sampleStore [])
        (serveAll ⟨⟨1⟩⟩ sampleMovedStore [sampleUndo]) := by
  apply replays_iff_replayable .empty sampleStore _ 0 ⟨⟨3⟩⟩ ⟨⟨2⟩⟩ none RouteDraft.sampleGeometry
  . rfl
  . rfl
  . rw [List.nil_append, List.forall_mem_cons, List.forall_mem_singleton]
    exact ⟨finiteRequest_sampleMove sampleContext _ _ _, trivial⟩
  . apply outcome_eq_ok_iff.mp
    decide
  . intro k row hrow
    cases hrow

/--
The repeated request finds the operation on the undone stack, and answers with the draft's present
revision instead of the first answer.
-/
theorem replay_differs_after_undo
    : (postApplyOperation sampleContext ⟨⟨1⟩⟩ ⟨⟨10⟩⟩ (sampleMove 50 0)).run sampleStore
          = .ok (answerAt ⟨⟨1⟩⟩ 0) sampleMovedStore
        ∧ ¬Replays sampleContext ⟨⟨1⟩⟩ ⟨⟨10⟩⟩ (sampleMove 50 0) (answerAt ⟨⟨1⟩⟩ 0)
            (serveAll ⟨⟨1⟩⟩ sampleMovedStore [sampleUndo]) := by
  constructor
  . apply outcome_eq_ok_iff.mp
    decide
  . rintro ⟨answer, hrun, hrevision, _⟩
    have hanswer : outcome (postApplyOperation sampleContext ⟨⟨1⟩⟩ ⟨⟨10⟩⟩ (sampleMove 50 0))
        (serveAll ⟨⟨1⟩⟩ sampleMovedStore [sampleUndo])
          = .ok { draftId := ⟨1⟩, revision := 2, canUndo := false, canRedo := true } := by
      decide
    rw [outcome_of_run_ok hrun, Except.ok.injEq] at hanswer
    rw [hanswer] at hrevision
    cases hrevision

end Api
