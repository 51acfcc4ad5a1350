import Haiker.RouteEditing.Lemmas.WriteOperations

/-!
This module contains what the commit of an update means for the other drafts, and for the history of
its own draft.
-/

open Rust

namespace RouteEditing

namespace PgRouteDraftRepository

-- no operation on the stacks is stored under another draft
def OwnIds (s : Store) (draft : RouteDraft) : Prop :=
  ∀ entry ∈ draft.operations, ∀ row, s.draftOperations.find? entry.id.val = some row →
    row.draftId = draft.id.val

-- the ids on the stacks from the bottom to the top, with the flag that the stack has
def history (draft : RouteDraft) : List (Uuid × Bool) :=
  draft.appliedOperations.map (fun entry => (entry.id.val, false))
    ++ draft.undoneOperations.map (fun entry => (entry.id.val, true))

/--
The way from `s` to `s'` concerns no draft but `draft`, whose rows in `s'` are its history.
-/
structure Framed (s s' : Store) (draft : RouteDraft) : Prop where
  drafts : ∀ k, k ≠ draft.id.val → s'.drafts.find? k = s.drafts.find? k
  operations : ∀ k row, row.draftId ≠ draft.id.val →
    (s'.draftOperations.find? k = some row ↔ s.draftOperations.find? k = some row)
  own : ∀ entry ∈ draft.operations, ∃ row, s'.draftOperations.find? entry.id.val = some row
    ∧ row.draftId = draft.id.val
  loaded : ∀ id, id ≠ draft.id → loaded s' id = loaded s id
  history : (selectOperations s' draft.id.val).map (fun row => (row.operationId, row.isUndone))
    = history draft

variable {s s' : Store} {draft draft' : RouteDraft} {row : DraftOperationRow}

theorem draftId_stored (h : OwnIds s draft) (hmem : row ∈ stackRows draft)
    : (stored s.draftOperations row).draftId = draft.id.val := by
  unfold stored
  cases hold : s.draftOperations.find? row.operationId with
  | none => exact draftId_of_mem_stackRows hmem
  | some old =>
    obtain ⟨entry, hentry, hid⟩ := List.mem_map.mp (operationId_mem_of_mem_stackRows hmem)
    rw [← hid] at hold
    exact h entry hentry old hold

theorem history_stackRows
    : (stackRows draft).map (fun row => (row.operationId, row.isUndone)) = history draft := by
  have hrows : ∀ isUndone offset entries,
      (operationRows draft.id isUndone offset entries).map
          (fun row => (row.operationId, row.isUndone))
        = entries.map fun entry => (entry.id.val, isUndone) := by
    intro isUndone offset entries
    induction entries generalizing offset with
    | nil => rfl
    | cons entry entries ih =>
      simp only [operationRows, List.zipIdx_cons, List.map_cons] at ih ⊢
      rw [ih, operationRow]
  rw [stackRows, List.map_append, hrows, hrows, history]

theorem find?_operations_updated (h : OwnIds s draft)
    (hdistinct : (draft.operations.map (·.id)).Nodup) {k : Uuid} (hother : row.draftId ≠ draft.id.val)
    : (updated s draft).draftOperations.find? k = some row
        ↔ s.draftOperations.find? k = some row := by
  rw [updated]
  by_cases hk : k ∈ draft.operations.map (·.id.val)
  . obtain ⟨new, hnew, rfl⟩ := mem_stackRows_of_id hk
    rw [find?_writeOperations_of_mem hdistinct hnew, Option.some.injEq]
    constructor
    . intro hrow
      rw [← hrow] at hother
      exact absurd (draftId_stored h hnew) hother
    . intro hrow
      obtain ⟨entry, hentry, hid⟩ := List.mem_map.mp hk
      rw [← hid] at hrow
      exact absurd (h entry hentry row hrow) hother
  . rw [find?_writeOperations_of_not_mem hk, Option.filter_eq_some_iff]
    simp [hother]

theorem loaded_updated_of_ne (h : OwnIds s draft) (hdistinct : (draft.operations.map (·.id)).Nodup)
    (hlock : Unlocked s draft) {id : RouteDraftId} (hid : id ≠ draft.id)
    : loaded (updated s draft) id = loaded s id := by
  obtain ⟨row, hrow, hrevision⟩ := hlock
  have hother : id.val ≠ draft.id.val := by
    intro hval
    cases id
    simp only at hval
    rw [hval] at hid
    exact hid rfl
  have hselect : selectOperations (updated s draft) id.val = selectOperations s id.val := by
    apply Sql.Table.selectOrdered_congr
    apply filter_writeOperations hother hdistinct
    intro entry hentry old hold
    rw [h entry hentry old hold]
    exact hother.symm
  rw [loaded, loaded, find?_drafts_updated hrow hrevision, if_neg hother, hselect]

/--
The commit of an update concerns its own draft only, and leaves its history in the store, exactly if
no operation on the stacks is stored under another draft.
-/
theorem framed_updated_iff (hdistinct : (draft.operations.map (·.id)).Nodup)
    (hlock : Unlocked s draft) : Framed s (updated s draft) draft ↔ OwnIds s draft := by
  constructor
  . intro h entry hentry old hold
    obtain ⟨row, hrow, hdraft⟩ := h.own entry hentry
    have hmem : entry.id.val ∈ draft.operations.map (·.id.val) := List.mem_map_of_mem hentry
    obtain ⟨new, hnew, hid⟩ := mem_stackRows_of_id hmem
    rw [updated, ← hid, find?_writeOperations_of_mem hdistinct hnew, Option.some.injEq, stored, hid,
      hold] at hrow
    rw [← hdraft, ← hrow]
    rfl
  . intro h
    constructor
    . intro k hk
      obtain ⟨row, hrow, hrevision⟩ := hlock
      rw [find?_drafts_updated hrow hrevision, if_neg hk]
    . intro k row hother
      exact find?_operations_updated h hdistinct hother
    . intro entry hentry
      have hmem : entry.id.val ∈ draft.operations.map (·.id.val) := List.mem_map_of_mem hentry
      obtain ⟨new, hnew, hid⟩ := mem_stackRows_of_id hmem
      refine ⟨stored s.draftOperations new, ?_, draftId_stored h hnew⟩
      rw [updated, ← hid, find?_writeOperations_of_mem hdistinct hnew]
    . intro id hid
      exact loaded_updated_of_ne h hdistinct hlock hid
    . have hown : ((stackRows draft).map (stored s.draftOperations)).filter
          (fun row => row.draftId = draft.id.val) = (stackRows draft).map (stored s.draftOperations) := by
        rw [List.filter_eq_self]
        intro row hmem
        obtain ⟨new, hnew, rfl⟩ := List.mem_map.mp hmem
        rw [decide_eq_true_eq]
        exact draftId_stored h hnew
      rw [selectOperations_updated hdistinct, hown, List.map_map, ← history_stackRows]
      apply List.map_congr_left
      intro row _
      rw [Function.comp, operationId_stored, isUndone_stored]

-- no operation of the draft is skipped when it is loaded
def Readable (s : Store) (id : RouteDraftId) : Prop :=
  ∀ k row, s.draftOperations.find? k = some row → row.draftId = id.val →
    (entryOfRow row).isSome = true

theorem readable_updated (h : Readable s draft.id) (hdistinct : (draft.operations.map (·.id)).Nodup)
    (hfinite : FiniteDraft draft) : Readable (updated s draft) draft.id := by
  intro k row hrow hdraft
  rw [updated] at hrow
  by_cases hk : k ∈ draft.operations.map (·.id.val)
  . obtain ⟨new, hnew, rfl⟩ := mem_stackRows_of_id hk
    rw [find?_writeOperations_of_mem hdistinct hnew, Option.some.injEq, stored] at hrow
    cases hold : s.draftOperations.find? new.operationId with
    | none =>
      obtain ⟨entry, hentry, isUndone, position, hoperation⟩ := eq_operationRow_of_mem_stackRows hnew
      rw [hold, Option.elim, hoperation] at hrow
      rw [← hrow, entryOfRow_operationRow (hfinite.operations entry hentry)]
      rfl
    | some old =>
      rw [hold, Option.elim] at hrow
      rw [← hrow] at hdraft ⊢
      exact h _ old hold hdraft
  . rw [find?_writeOperations_of_not_mem hk, Option.filter_eq_some_iff] at hrow
    simp [hdraft] at hrow

/--
An operation that is stored under a draft and can be read is on one of its stacks.
-/
theorem mem_operations_of_stored {id : RouteDraftId} {operationId : OperationId}
    (hreadable : Readable s id) (hloaded : loaded s id = some draft)
    (hrow : s.draftOperations.find? operationId.val = some row) (hdraft : row.draftId = id.val)
    : ∃ entry ∈ draft.operations, entry.id = operationId := by
  have hread := hreadable _ row hrow hdraft
  rw [Option.isSome_iff_exists] at hread
  obtain ⟨entry, hentry⟩ := hread
  have hkey : row.operationId = operationId.val := Sql.Table.key_of_find? hrow
  refine ⟨entry, ?_, ?_⟩
  . rw [(operations_of_loaded hloaded).mem_iff, List.mem_filterMap]
    refine ⟨row, ?_, hentry⟩
    rw [selectOperations, Sql.Table.mem_selectOrdered, decide_eq_true_eq, hkey]
    exact ⟨hrow, hdraft⟩
  . have hid := operationId_of_entryOfRow hentry
    rw [hkey] at hid
    cases operationId
    cases hentryId : entry.id
    rw [hentryId] at hid
    simp only at hid
    rw [hid]

end PgRouteDraftRepository

end RouteEditing
