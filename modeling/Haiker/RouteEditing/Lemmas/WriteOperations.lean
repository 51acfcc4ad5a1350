import Haiker.RouteEditing.Lemmas.Repository

/-!
This module contains what an update leaves in the table of operations: which row there is under which
operation id, and which operations a draft is then loaded with.
-/

open Rust

namespace RouteEditing

namespace PgRouteDraftRepository

variable {s : Store} {draft : RouteDraft} {operations : OperationTable}
  {entries : List OperationEntry} {row old : DraftOperationRow} {id : RouteDraftId} {isUndone : Bool}
  {offset : Nat} {k : Uuid}

theorem operationIds_operationRows
    : (operationRows id isUndone offset entries).map (·.operationId) = entries.map (·.id.val) := by
  induction entries generalizing offset with
  | nil => rfl
  | cons entry entries ih =>
    simp only [operationRows, List.zipIdx_cons, List.map_cons] at ih ⊢
    rw [ih, operationRow]

theorem of_mem_operationRows (hmem : row ∈ operationRows id isUndone offset entries)
    : row.draftId = id.val ∧ row.isUndone = isUndone
        ∧ offset ≤ row.sequenceNumber ∧ row.sequenceNumber < offset + entries.length
        ∧ ∃ entry ∈ entries, row.operationId = entry.id.val
            ∧ row.operationData = operationData entry := by
  obtain ⟨⟨entry, sequenceNumber⟩, hentry, rfl⟩ := List.mem_map.mp hmem
  have hrange := List.mem_zipIdx hentry
  refine ⟨rfl, rfl, hrange.1, hrange.2.1, entry, ?_, rfl, rfl⟩
  rw [hrange.2.2]
  apply List.getElem_mem

theorem pairwise_operationRows
    : (operationRows id isUndone offset entries).Pairwise
        fun a b => a.sequenceNumber < b.sequenceNumber := by
  induction entries generalizing offset with
  | nil => exact List.Pairwise.nil
  | cons entry entries ih =>
    rw [operationRows, List.zipIdx_cons, List.map_cons, List.pairwise_cons]
    constructor
    . intro row hmem
      exact (of_mem_operationRows hmem).2.2.1
    . exact ih

theorem pairwise_stackRows
    : (stackRows draft).Pairwise fun a b => a.sequenceNumber < b.sequenceNumber := by
  rw [stackRows, List.pairwise_append]
  refine ⟨pairwise_operationRows, pairwise_operationRows, ?_⟩
  intro a ha b hb
  have hlt := (of_mem_operationRows ha).2.2.2.1
  have hle := (of_mem_operationRows hb).2.2.1
  omega

theorem operationIds_stackRows
    : (stackRows draft).map (·.operationId) = draft.operations.map (·.id.val) := by
  rw [stackRows, List.map_append, operationIds_operationRows, operationIds_operationRows,
    RouteDraft.operations, List.map_append]

theorem draftId_of_mem_stackRows (hmem : row ∈ stackRows draft) : row.draftId = draft.id.val := by
  cases List.mem_append.mp hmem with
  | inl h => exact (of_mem_operationRows h).1
  | inr h => exact (of_mem_operationRows h).1

theorem nodup_stackRows (hdistinct : (draft.operations.map (·.id)).Nodup)
    : ((stackRows draft).map (·.operationId)).Nodup := by
  have hval : draft.operations.map (·.id.val) = (draft.operations.map (·.id)).map (·.val) := by
    rw [List.map_map]
    rfl
  rw [operationIds_stackRows, hval]
  apply hdistinct.map
  intro a b hab
  cases a
  cases b
  simp only at hab
  rw [hab]

-- `f` sets flags on rows of the draft, and nothing else
structure SetsFlags (draft : RouteDraft) (f : DraftOperationRow → DraftOperationRow) : Prop where
  setPosition_eq : ∀ row old, setPosition row (f old) = setPosition row old
  draftId_eq : ∀ old, (f old).draftId = old.draftId
  operationId_eq : ∀ old, (f old).operationId = old.operationId
  eq_of_other : ∀ old, old.draftId ≠ draft.id.val → f old = old

theorem SetsFlags.comp {f g : DraftOperationRow → DraftOperationRow} (hf : SetsFlags draft f)
    (hg : SetsFlags draft g) : SetsFlags draft (f ∘ g) where
  setPosition_eq := by
    intro row old
    rw [Function.comp, hf.setPosition_eq, hg.setPosition_eq]
  draftId_eq := by
    intro old
    rw [Function.comp, hf.draftId_eq, hg.draftId_eq]
  operationId_eq := by
    intro old
    rw [Function.comp, hf.operationId_eq, hg.operationId_eq]
  eq_of_other := by
    intro old hother
    rw [Function.comp, hg.eq_of_other old hother, hf.eq_of_other old hother]

theorem setsFlags_setUndone {p : DraftOperationRow → Bool}
    (hp : ∀ old, p old = true → old.draftId = draft.id.val) (isUndone : Bool)
    : SetsFlags draft fun row => if p row then setUndone isUndone row else row where
  setPosition_eq := by
    intro row old
    split
    . rfl
    . rfl
  draftId_eq := by
    intro old
    split
    . rfl
    . rfl
  operationId_eq := by
    intro old
    split
    . rfl
    . rfl
  eq_of_other := by
    intro old hother
    rw [if_neg]
    intro h
    exact hother (hp old h)

theorem find?_setFlags (draft : RouteDraft)
    : ∃ f, SetsFlags draft f
        ∧ ∀ operations k, (setFlags draft operations).find? k = (operations.find? k).map f := by
  let appliedIds := draft.appliedOperations.map (·.id.val)
  have hmark : SetsFlags draft fun row =>
      if decide (row.draftId = draft.id.val) && !row.isUndone then setUndone true row else row := by
    apply setsFlags_setUndone
    intro old hp
    rw [Bool.and_eq_true, decide_eq_true_eq] at hp
    exact hp.1
  have hback : SetsFlags draft fun row =>
      if decide (row.draftId = draft.id.val) && appliedIds.contains row.operationId then
        setUndone false row
      else
        row := by
    apply setsFlags_setUndone
    intro old hp
    rw [Bool.and_eq_true, decide_eq_true_eq] at hp
    exact hp.1
  by_cases hempty : appliedIds.isEmpty = true
  . refine ⟨_, hmark, ?_⟩
    intro operations k
    rw [setFlags, if_pos hempty, Sql.Table.find?_updateWhere]
  . refine ⟨_, hback.comp hmark, ?_⟩
    intro operations k
    rw [setFlags, if_neg hempty, Sql.Table.find?_updateWhere, Sql.Table.find?_updateWhere,
      Option.map_map]

theorem find?_deleteDropped
    : (deleteDropped draft operations).find? k
        =
      (operations.find? k).filter fun row =>
        !(decide (row.draftId = draft.id.val)
          && !(draft.operations.map (·.id.val)).contains row.operationId) := by
  have hids : (draft.appliedOperations ++ draft.undoneOperations).map (·.id.val)
      = draft.operations.map (·.id.val) := rfl
  rw [deleteDropped, hids]
  by_cases hempty : (draft.operations.map (·.id.val)).isEmpty = true
  . rw [if_pos hempty, Sql.Table.find?_deleteWhere]
    rw [List.isEmpty_iff] at hempty
    simp [hempty]
  . rw [if_neg hempty, Sql.Table.find?_deleteWhere]

theorem operationId_mem_of_mem_stackRows (hmem : row ∈ stackRows draft)
    : row.operationId ∈ draft.operations.map (·.id.val) := by
  rw [← operationIds_stackRows]
  exact List.mem_map_of_mem hmem

-- what an update leaves where it writes `row`
def stored (operations : OperationTable) (row : DraftOperationRow) : DraftOperationRow :=
  (operations.find? row.operationId).elim row (setPosition row)

theorem operationId_stored : (stored operations row).operationId = row.operationId := by
  unfold stored
  cases h : operations.find? row.operationId with
  | none => rfl
  | some old =>
    have hkey : old.operationId = row.operationId := Sql.Table.key_of_find? h
    exact hkey

/--
An update leaves a row for every operation on the stacks, but what an older row says besides its
position stays.
-/
theorem find?_writeOperations_of_mem (hdistinct : (draft.operations.map (·.id)).Nodup)
    (hmem : row ∈ stackRows draft)
    : (writeOperations draft operations).find? row.operationId = some (stored operations row) := by
  obtain ⟨f, hflags, hfind⟩ := find?_setFlags draft
  have hupsert : (upsertStacks draft (setFlags draft operations)).find? row.operationId
      = some (stored operations row) := by
    rw [upsertStacks, ← Sql.Table.upsertAll_append, ← stackRows,
      Sql.Table.find?_upsertAll_of_mem _ (nodup_stackRows hdistinct) hmem, hfind, stored]
    cases operations.find? row.operationId with
    | none => rfl
    | some old => simp [hflags.setPosition_eq]
  have hkept : (draft.operations.map (·.id.val)).contains row.operationId = true := by
    rw [List.contains_iff_mem]
    exact operationId_mem_of_mem_stackRows hmem
  rw [writeOperations, find?_deleteDropped, hupsert, Option.filter_some, operationId_stored, hkept]
  simp

/--
All other operations of the draft are gone, those of other drafts are left alone.
-/
theorem find?_writeOperations_of_not_mem (hk : k ∉ draft.operations.map (·.id.val))
    : (writeOperations draft operations).find? k
        = (operations.find? k).filter fun row => row.draftId ≠ draft.id.val := by
  obtain ⟨f, hflags, hfind⟩ := find?_setFlags draft
  have hupsert : (upsertStacks draft (setFlags draft operations)).find? k
      = (operations.find? k).map f := by
    rw [upsertStacks, ← Sql.Table.upsertAll_append, Sql.Table.find?_upsertAll_of_not_mem, hfind]
    rw [← stackRows, operationIds_stackRows]
    exact hk
  have hdropped : (draft.operations.map (·.id.val)).contains k = false := by
    rw [← Bool.not_eq_true, List.contains_iff_mem]
    exact hk
  rw [writeOperations, find?_deleteDropped, hupsert]
  cases hold : operations.find? k with
  | none => rfl
  | some old =>
    have hkey : old.operationId = k := Sql.Table.key_of_find? hold
    rw [Option.map_some, Option.filter_some, Option.filter_some, hflags.draftId_eq,
      hflags.operationId_eq, hkey, hdropped]
    by_cases hother : old.draftId = draft.id.val
    . simp [hother]
    . simp [hother, hflags.eq_of_other old hother]

theorem mem_stackRows_of_id (hk : k ∈ draft.operations.map (·.id.val))
    : ∃ row ∈ stackRows draft, row.operationId = k := by
  rw [← operationIds_stackRows] at hk
  exact List.mem_map.mp hk

theorem sequenceNumber_stored : (stored operations row).sequenceNumber = row.sequenceNumber := by
  unfold stored
  cases operations.find? row.operationId with
  | none => rfl
  | some old => rfl

theorem isUndone_stored : (stored operations row).isUndone = row.isUndone := by
  unfold stored
  cases operations.find? row.operationId with
  | none => rfl
  | some old => rfl

theorem selectOperations_updated (hdistinct : (draft.operations.map (·.id)).Nodup)
    : selectOperations (updated s draft) draft.id.val
        =
      ((stackRows draft).map (stored s.draftOperations)).filter
        fun row => row.draftId = draft.id.val := by
  apply Sql.Table.selectOrdered_eq
  . apply List.Pairwise.filter
    rw [List.pairwise_map]
    apply pairwise_stackRows.imp
    intro a b hlt
    rw [sequenceNumber_stored, sequenceNumber_stored]
    exact hlt
  . intro row
    rw [List.mem_filter, List.mem_map]
    constructor
    . rintro ⟨⟨new, hnew, rfl⟩, hdraft⟩
      refine ⟨?_, hdraft⟩
      rw [operationId_stored]
      exact find?_writeOperations_of_mem hdistinct hnew
    . rintro ⟨hfind, hdraft⟩
      refine ⟨?_, hdraft⟩
      by_cases hmem : row.operationId ∈ draft.operations.map (·.id.val)
      . obtain ⟨new, hnew, hid⟩ := mem_stackRows_of_id hmem
        refine ⟨new, hnew, ?_⟩
        rw [updated, ← hid, find?_writeOperations_of_mem hdistinct hnew] at hfind
        injection hfind
      . rw [updated, find?_writeOperations_of_not_mem hmem, Option.filter_eq_some_iff] at hfind
        simp [hdraft] at hfind

-- the entry that is loaded for `entry` after an update of the draft `id`
def kept (s : Store) (id : RouteDraftId) (entry : OperationEntry) : Option OperationEntry :=
  match s.draftOperations.find? entry.id.val with
  | none => some entry
  | some old => if old.draftId = id.val then entryOfRow old else none

theorem eq_operationRow_of_mem_operationRows (hmem : row ∈ operationRows id isUndone offset entries)
    : ∃ entry ∈ entries, ∃ position, row = operationRow id isUndone entry position := by
  obtain ⟨⟨entry, position⟩, hentry, rfl⟩ := List.mem_map.mp hmem
  exact ⟨entry, List.fst_mem_of_mem_zipIdx hentry, position, rfl⟩

theorem eq_operationRow_of_mem_stackRows (hmem : row ∈ stackRows draft)
    : ∃ entry ∈ draft.operations, ∃ isUndone position,
        row = operationRow draft.id isUndone entry position := by
  cases List.mem_append.mp hmem with
  | inl h =>
    obtain ⟨entry, hentry, position, hrow⟩ := eq_operationRow_of_mem_operationRows h
    exact ⟨entry, List.mem_append_left _ hentry, false, position, hrow⟩
  | inr h =>
    obtain ⟨entry, hentry, position, hrow⟩ := eq_operationRow_of_mem_operationRows h
    exact ⟨entry, List.mem_append_right _ hentry, true, position, hrow⟩

theorem stored_of_kept {entry : OperationEntry} {position : Nat} (hfinite : entry.Finite)
    (hkept : kept s id entry = some entry)
    : (stored s.draftOperations (operationRow id isUndone entry position)).draftId = id.val
        ∧ entryOfRow (stored s.draftOperations (operationRow id isUndone entry position))
            = some entry := by
  have hid : (operationRow id isUndone entry position).operationId = entry.id.val := rfl
  rw [stored, hid]
  cases hold : s.draftOperations.find? entry.id.val with
  | none => exact ⟨rfl, entryOfRow_operationRow hfinite position⟩
  | some old =>
    rw [kept, hold] at hkept
    by_cases hdraft : old.draftId = id.val
    . simp only [hdraft, ↓reduceIte] at hkept
      exact ⟨hdraft, hkept⟩
    . simp [hdraft] at hkept

-- what the operations of one stack are loaded as
theorem filterMap_stored (hfinite : ∀ entry ∈ entries, entry.Finite)
    : (((operationRows draft.id isUndone offset entries).map (stored s.draftOperations)).filter
          fun row => row.draftId = draft.id.val).filterMap entryOfRow
        =
      entries.filterMap (kept s draft.id) := by
  induction entries generalizing offset with
  | nil => rfl
  | cons entry entries ih =>
    have ih := @ih (offset + 1) fun entry hmem => hfinite entry (List.mem_cons_of_mem _ hmem)
    have hread := @entryOfRow_operationRow draft.id isUndone entry (hfinite entry List.mem_cons_self)
      offset
    rw [operationRows, List.zipIdx_cons, List.map_cons, List.map_cons, List.filter_cons,
      List.filterMap_cons, ← ih, ← operationRows]
    have hid : (operationRow draft.id isUndone entry offset).operationId = entry.id.val := rfl
    have hdraft : (operationRow draft.id isUndone entry offset).draftId = draft.id.val := rfl
    rw [stored, hid, kept]
    cases hold : s.draftOperations.find? entry.id.val with
    | none =>
      simp only [Option.elim, hdraft, decide_true, ↓reduceIte, List.filterMap_cons, hread]
    | some old =>
      have hentry : ∀ row, entryOfRow (setPosition row old) = entryOfRow old := fun _ => rfl
      have hdraft : ∀ row, (setPosition row old).draftId = old.draftId := fun _ => rfl
      by_cases hsame : old.draftId = draft.id.val
      . simp only [Option.elim, hdraft, hsame, decide_true, ↓reduceIte, List.filterMap_cons, hentry]
      . simp only [Option.elim, hdraft, hsame, decide_false, Bool.false_eq_true, ↓reduceIte]

theorem filter_isUndone (b : Bool)
    : (((operationRows draft.id isUndone offset entries).map (stored operations)).filter
          fun row => row.draftId = draft.id.val).filter (fun row => row.isUndone == b)
        =
      if isUndone = b then
        ((operationRows draft.id isUndone offset entries).map (stored operations)).filter
          fun row => row.draftId = draft.id.val
      else
        [] := by
  have hflag : ∀ row ∈ (operationRows draft.id isUndone offset entries).map (stored operations),
      row.isUndone = isUndone := by
    intro row hmem
    obtain ⟨new, hnew, rfl⟩ := List.mem_map.mp hmem
    rw [isUndone_stored]
    exact (of_mem_operationRows hnew).2.1
  split
  . next hb =>
    rw [List.filter_eq_self]
    intro row hmem
    rw [hflag row (List.mem_of_mem_filter hmem), hb, beq_self_eq_true]
  . next hb =>
    rw [List.filter_eq_nil_iff]
    intro row hmem
    rw [hflag row (List.mem_of_mem_filter hmem), beq_iff_eq]
    exact hb

theorem loaded_updated {row : DraftRow} (hrow : s.drafts.find? draft.id.val = some row)
    (hrevision : row.revision + 1 = draft.revision)
    (hdistinct : (draft.operations.map (·.id)).Nodup)
    (hfinite : ∀ entry ∈ draft.operations, entry.Finite)
    : loaded (updated s draft) draft.id = some { draftOfRows (setDraft draft row) [] with
        appliedOperations := draft.appliedOperations.filterMap (kept s draft.id)
        undoneOperations := draft.undoneOperations.filterMap (kept s draft.id)
      } := by
  have hrow' : (updated s draft).drafts.find? draft.id.val = some (setDraft draft row) := by
    rw [find?_drafts_updated hrow hrevision, if_pos rfl]
  have happlied := @filterMap_stored s draft draft.appliedOperations false 0
    fun entry hmem => hfinite entry (List.mem_append_left _ hmem)
  have hundone := @filterMap_stored s draft draft.undoneOperations true
    draft.appliedOperations.length fun entry hmem => hfinite entry (List.mem_append_right _ hmem)
  have hfalse : (fun row : DraftOperationRow => !row.isUndone) = fun row => row.isUndone == false := by
    funext row
    simp
  have htrue : (fun row : DraftOperationRow => row.isUndone) = fun row => row.isUndone == true := by
    funext row
    simp
  rw [loaded, hrow', Option.map_some, selectOperations_updated hdistinct, stackRows, List.map_append,
    List.filter_append, draftOfRows, draftOfRows, hfalse, htrue, List.filter_append,
    List.filter_append, filter_isUndone, filter_isUndone, filter_isUndone, filter_isUndone,
    ← happlied, ← hundone]
  simp

section Frame

variable {other : Uuid} (hother : other ≠ draft.id.val)

include hother

theorem filter_setFlags
    : (setFlags draft operations).rows.filter (fun row => row.draftId = other)
        = operations.rows.filter fun row => row.draftId = other := by
  have hmiss : ∀ (b isUndone : Bool) (row : DraftOperationRow),
      (decide (row.draftId = draft.id.val) && b) = true →
        decide (row.draftId = other) = false
          ∧ decide ((setUndone isUndone row).draftId = other) = false := by
    intro b isUndone row h
    rw [Bool.and_eq_true, decide_eq_true_eq] at h
    have hne : row.draftId ≠ other := by
      rw [h.1]
      exact hother.symm
    exact ⟨decide_eq_false hne, decide_eq_false hne⟩
  unfold setFlags
  by_cases hempty : (draft.appliedOperations.map (·.id.val)).isEmpty = true
  . simp only [hempty, ↓reduceIte]
    apply Sql.Table.filter_updateWhere
    intro row _
    exact hmiss _ true row
  . simp only [hempty, Bool.false_eq_true, ↓reduceIte]
    rw [Sql.Table.filter_updateWhere, Sql.Table.filter_updateWhere]
    . intro row _
      exact hmiss _ true row
    . intro row _
      exact hmiss _ false row

theorem filter_deleteDropped
    : (deleteDropped draft operations).rows.filter (fun row => row.draftId = other)
        = operations.rows.filter fun row => row.draftId = other := by
  have hne : ∀ row : DraftOperationRow, decide (row.draftId = draft.id.val) = true →
      decide (row.draftId = other) = false := by
    intro row h
    rw [decide_eq_true_eq] at h
    rw [h]
    exact decide_eq_false hother.symm
  rw [deleteDropped]
  split
  . apply Sql.Table.filter_deleteWhere
    exact hne
  . apply Sql.Table.filter_deleteWhere
    intro row h
    rw [Bool.and_eq_true] at h
    exact hne row h.1

/--
An update leaves the operations of another draft alone unless one of them has the id of an operation
on the stacks.
-/
theorem filter_writeOperations (hdistinct : (draft.operations.map (·.id)).Nodup)
    (hforeign : ∀ entry ∈ draft.operations, ∀ old, operations.find? entry.id.val = some old →
      old.draftId ≠ other)
    : (writeOperations draft operations).rows.filter (fun row => row.draftId = other)
        = operations.rows.filter fun row => row.draftId = other := by
  obtain ⟨f, hflags, hfind⟩ := find?_setFlags draft
  rw [writeOperations, filter_deleteDropped hother, upsertStacks, ← Sql.Table.upsertAll_append,
    ← stackRows, Sql.Table.filter_upsertAll _ (nodup_stackRows hdistinct), filter_setFlags hother]
  . intro row hmem
    rw [draftId_of_mem_stackRows hmem]
    exact decide_eq_false hother.symm
  . intro row hmem old hold
    obtain ⟨entry, hentry, hid⟩ := List.mem_map.mp (operationId_mem_of_mem_stackRows hmem)
    rw [hfind, Option.map_eq_some_iff] at hold
    obtain ⟨older, holder, rfl⟩ := hold
    rw [← hid] at holder
    have hne : (f older).draftId ≠ other := by
      rw [hflags.draftId_eq]
      exact hforeign entry hentry older holder
    exact ⟨decide_eq_false hne, decide_eq_false hne⟩

end Frame

end PgRouteDraftRepository

end RouteEditing
