import Haiker.RouteEditing.Lemmas.WriteOperations
import Haiker.Simulation.Lockstep

/-!
This module compares a draft that is loaded and updated with every command to one that stays in
memory. They agree as long as no entry on the stacks changes once it is stored.
-/

open Rust
open Lockstep

namespace RouteEditing

structure Input where
  now : Timestamp
  expectedRevision : Nat
  command : Command
  deriving DecidableEq

-- what the two drafts are compared in
structure Content where
  revision : Nat
  geometry : Geometry
  appliedOperations : List OperationEntry
  undoneOperations : List OperationEntry
  deriving DecidableEq

def RouteDraft.content (draft : RouteDraft) : Content where
  revision := draft.revision
  geometry := draft.geometry
  appliedOperations := draft.appliedOperations
  undoneOperations := draft.undoneOperations

namespace PgRouteDraftRepository

-- load the draft, run the command on it, update
def serve (id : RouteDraftId) (input : Input) : RepositoryM Unit := do
  match ← findById id with
  | none => fail .draftNotFound
  | some draft =>
    match (input.command.exec input.now input.expectedRevision).run draft with
    | .ok _ draft => update draft
    | .error e _ => throw e

abbrev Outcome := Except (Fault RouteEditingError) Unit × Option Content

def storeStep (id : RouteDraftId) (s : Store) (input : Input) : Store × Outcome :=
  let s' := after (serve id input) s
  (s', outcome (serve id input) s, (loaded s' id).map RouteDraft.content)

def memoryStep (draft : RouteDraft) (input : Input) : RouteDraft × Outcome :=
  let method := input.command.exec input.now input.expectedRevision
  (after method draft, outcome method draft, some (after method draft).content)

-- a command that succeeds changes no entry that is stored, and stores none that another draft has
def Survives (before : Store) (draft : RouteDraft) (input : Input) : Prop :=
  input.expectedRevision = draft.revision →
  match input.command with
  | .apply operationId operation =>
    operationId ∉ draft.appliedOperations.map (·.id)
      ∧ ∀ geometry, (executeOperation operation).run draft.geometry = .ok () geometry →
        before.draftOperations.find? operationId.val = none
          ∧ ∀ entry ∈ draft.undoneOperations, entry.id = operationId →
            entry.operation = operation ∧ entry.geometryBefore = draft.geometry
  | .undo =>
    ∀ entry, draft.appliedOperations.getLast? = some entry → entry.geometryBefore = draft.geometry
  | .redo =>
    ∀ entry, draft.undoneOperations.getLast? = some entry → entry.geometryBefore = draft.geometry
  | .reset _ => True

-- the store holds `draft`, and of other drafts what it held `before`
structure Holds (before s : Store) (draft : RouteDraft) : Prop where
  loaded : ∃ d, loaded s draft.id = some d ∧ d.withoutTimes = draft.withoutTimes
  readable : ∀ k row, s.draftOperations.find? k = some row → row.draftId = draft.id.val →
    ∃ entry ∈ draft.operations, entryOfRow row = some entry
  foreign : ∀ k row, row.draftId ≠ draft.id.val →
    (s.draftOperations.find? k = some row ↔ before.draftOperations.find? k = some row)
  finite : FiniteDraft draft
  unowned : ∀ k row, before.draftOperations.find? k = some row → row.draftId ≠ draft.id.val
  active : draft.state = .active

variable {before s : Store} {draft draft' : RouteDraft} {input : Input} {id : RouteDraftId}

theorem run_serve (id : RouteDraftId) (input : Input) (s : Store)
    : (serve id input).run s
        =
      match loaded s id with
      | none => .error (.err .draftNotFound) s
      | some draft =>
        match (input.command.exec input.now input.expectedRevision).run draft with
        | .ok _ draft => (update draft).run s
        | .error e _ => .error e s := by
  unfold serve
  rw [EStateM.run_bind, run_findById]
  simp only
  cases loaded s id with
  | none => rfl
  | some draft =>
    simp only
    cases (input.command.exec input.now input.expectedRevision).run draft with
    | ok _ draft => rfl
    | error e _ => rfl

theorem filterMap_eq_self_iff {α : Type} {f : α → Option α} {as : List α}
    : as.filterMap f = as ↔ ∀ a ∈ as, f a = some a := by
  constructor
  . intro h
    induction as with
    | nil => simp
    | cons a as ih =>
      rw [List.filterMap_cons] at h
      cases hf : f a with
      | none =>
        rw [hf] at h
        have hlen := List.length_filterMap_le f as
        simp only at h
        rw [h, List.length_cons] at hlen
        omega
      | some b =>
        rw [hf, List.cons_eq_cons] at h
        rw [List.forall_mem_cons, hf, h.1]
        exact ⟨rfl, ih h.2⟩
  . intro h
    induction as with
    | nil => rfl
    | cons a as ih =>
      rw [List.forall_mem_cons] at h
      rw [List.filterMap_cons, h.1, ih h.2]

theorem operations_eq_of_withoutTimes {d : RouteDraft} (h : d.withoutTimes = draft.withoutTimes)
    : d.operations = draft.operations := by
  simp only [RouteDraft.withoutTimes, RouteDraft.mk.injEq] at h
  obtain ⟨_, _, _, _, _, _, happlied, hundone, _⟩ := h
  rw [RouteDraft.operations, RouteDraft.operations, happlied, hundone]

-- an update keeps the entry that is stored under the id of `entry`
theorem kept_of_stored {entry old : OperationEntry} (h : Holds before s draft)
    (hmem : old ∈ draft.operations) (hid : entry.id = old.id)
    : kept s draft.id entry = some old := by
  obtain ⟨d, hloaded, hsame⟩ := h.loaded
  rw [← operations_eq_of_withoutTimes hsame] at hmem
  obtain ⟨row, hrow, hdraft, hentry⟩ := row_of_loaded hloaded hmem
  rw [kept, hid, hrow]
  simp only [hdraft, ↓reduceIte, hentry]

/-
Which of the entries that a command leaves on the stacks an update keeps.
-/

section Kept

variable {now : Timestamp} {entry : OperationEntry} {others : List OperationEntry}
  {operationId : OperationId} {operation : RouteOperation} {g : Geometry}

theorem kept_swapped_iff (h : Holds before s draft)
    (hswapped : RouteDraft.Swapped draft draft' entry others)
    : (∀ e ∈ draft'.operations, kept s draft.id e = some e)
        ↔
      entry.geometryBefore = draft.geometry := by
  have hentry : entry ∈ draft.operations := by
    rw [hswapped.before.mem_iff]
    exact List.mem_cons_self
  have hkept : kept s draft.id { entry with geometryBefore := draft.geometry } = some entry :=
    kept_of_stored h hentry rfl
  constructor
  . intro hall
    have hswap := hall { entry with geometryBefore := draft.geometry } (by
      rw [hswapped.after.mem_iff]
      exact List.mem_cons_self)
    rw [hkept, Option.some.injEq] at hswap
    rw [hswap]
  . intro hgeometry e hmem
    rw [hswapped.after.mem_iff, List.mem_cons] at hmem
    cases hmem with
    | inl heq =>
      rw [heq, hkept, ← hgeometry]
    | inr hother =>
      apply kept_of_stored h _ rfl
      rw [hswapped.before.mem_iff]
      exact List.mem_cons_of_mem _ hother

theorem kept_applied_iff (h : Holds before s draft)
    (hfresh : operationId ∉ draft.appliedOperations.map (·.id))
    : (∀ e ∈ (draft.afterApply now operationId operation g).operations, kept s draft.id e = some e)
        ↔
      before.draftOperations.find? operationId.val = none
        ∧ ∀ e ∈ draft.undoneOperations, e.id = operationId →
          e.operation = operation ∧ e.geometryBefore = draft.geometry := by
  let new : OperationEntry := { id := operationId, operation, geometryBefore := draft.geometry }
  have hoperations : (draft.afterApply now operationId operation g).operations
      = draft.appliedOperations ++ [new] := by
    simp [RouteDraft.operations, RouteDraft.afterApply, new]
  rw [hoperations]
  constructor
  . intro hall
    have hnew : kept s draft.id new = some new := by
      apply hall
      simp
    constructor
    . cases hrow : before.draftOperations.find? operationId.val with
      | none => rfl
      | some row =>
        have hne := h.unowned _ row hrow
        rw [← h.foreign _ row hne] at hrow
        rw [kept, hrow] at hnew
        simp [hne] at hnew
    . intro e hmem hid
      have hkept : kept s draft.id new = some e :=
        kept_of_stored h (List.mem_append_right _ hmem) hid.symm
      rw [hnew, Option.some.injEq] at hkept
      rw [← hkept]
      exact ⟨rfl, rfl⟩
  . rintro ⟨hnone, hundone⟩ e hmem
    cases List.mem_append.mp hmem with
    | inl hold => exact kept_of_stored h (List.mem_append_left _ hold) rfl
    | inr hnew =>
      rw [List.mem_singleton] at hnew
      rw [hnew]
      cases hrow : s.draftOperations.find? operationId.val with
      | none => simp only [kept, new, hrow]
      | some row =>
        have hdraft : row.draftId = draft.id.val := by
          apply Classical.byContradiction
          intro hne
          rw [h.foreign _ row hne, hnone] at hrow
          cases hrow
        obtain ⟨stored, hstored, hentry⟩ := h.readable _ row hrow hdraft
        have hrowId : row.operationId = operationId.val := Sql.Table.key_of_find? hrow
        have hid : stored.id = operationId := by
          rw [operationId_of_entryOfRow hentry] at hrowId
          cases hcase : stored.id
          cases operationId
          simp_all
        have hundoneMem : stored ∈ draft.undoneOperations := by
          cases List.mem_append.mp hstored with
          | inl happlied =>
            apply absurd _ hfresh
            rw [← hid]
            exact List.mem_map_of_mem happlied
          | inr hmem => exact hmem
        obtain ⟨hoperation, hgeometry⟩ := hundone stored hundoneMem hid
        have hsame : stored = new := by
          cases stored
          simp_all [new]
        rw [← hsame]
        exact kept_of_stored h hstored rfl

end Kept

theorem kept_iff_survives (h : Holds before s draft)
    (hrevision : input.expectedRevision = draft.revision)
    (hedited : Edited input.now draft input.command draft')
    (hraised : draft'.revision = draft.revision + 1)
    : (∀ e ∈ draft'.operations, kept s draft.id e = some e) ↔ Survives before draft input := by
  obtain ⟨now, expectedRevision, command⟩ := input
  simp only at hrevision hedited
  simp only [Survives, hrevision, forall_const]
  cases hedited with
  | replayed => omega
  | applied hfresh hexec =>
    rw [kept_applied_iff h hfresh]
    constructor
    . intro hcond
      exact ⟨hfresh, fun _ _ => hcond⟩
    . intro hcond
      exact hcond.2 _ hexec
  | undone hlast =>
    rw [kept_swapped_iff h (RouteDraft.swapped_afterUndo hlast)]
    simp [hlast]
  | redone hlast =>
    rw [kept_swapped_iff h (RouteDraft.swapped_afterRedo hlast)]
    simp [hlast]
  | reset => simp [RouteDraft.operations, RouteDraft.afterReset]

theorem survives_of_error {e : Fault RouteEditingError} (hactive : draft.state = .active)
    (hrun : (input.command.exec input.now input.expectedRevision).run draft = .error e draft)
    : Survives before draft input := by
  obtain ⟨now, expectedRevision, command⟩ := input
  simp only at hrun
  intro hrevision
  simp only at hrevision ⊢
  rw [hrevision] at hrun
  cases command with
  | apply operationId operation =>
    rw [Command.exec, RouteDraft.run_applyOperation operationId operation hactive] at hrun
    by_cases hmem : operationId ∈ draft.appliedOperations.map (·.id)
    . rw [if_pos hmem] at hrun
      cases hrun
    . rw [if_neg hmem] at hrun
      refine ⟨hmem, ?_⟩
      intro geometry hexec
      rw [hexec] at hrun
      cases hrun
  | undo =>
    rw [Command.exec, RouteDraft.run_undo hactive] at hrun
    intro entry hlast
    rw [hlast] at hrun
    cases hrun
  | redo =>
    rw [Command.exec, RouteDraft.run_redo hactive] at hrun
    intro entry hlast
    rw [hlast] at hrun
    cases hrun
  | reset baseGeometry => trivial

theorem Holds.nodup (h : Holds before s draft) : (draft.operations.map (·.id)).Nodup := by
  obtain ⟨d, hloaded, hsame⟩ := h.loaded
  rw [← operations_eq_of_withoutTimes hsame]
  exact distinct_of_loaded hloaded

theorem content_eq_of_withoutTimes {d : RouteDraft} (h : d.withoutTimes = draft.withoutTimes)
    : d.content = draft.content := by
  simp only [RouteDraft.withoutTimes, RouteDraft.mk.injEq] at h
  simp only [RouteDraft.content, h]

/-
What the store answers to a command that fails, succeeds or has been applied before.
-/

theorem storeStep_of_error {e : Fault RouteEditingError} (h : Holds before s draft)
    (hrun : (input.command.exec input.now input.expectedRevision).run draft = .error e draft)
    : storeStep draft.id s input = (s, .error e, some draft.content) := by
  obtain ⟨d, hloaded, hsame⟩ := h.loaded
  have hcongr := Command.run_exec_congr input.now input.expectedRevision input.command hsame
  rw [hrun] at hcongr
  have hserve : (serve draft.id input).run s = .error e s := by
    rw [run_serve, hloaded]
    simp only
    cases hd : (input.command.exec input.now input.expectedRevision).run d with
    | ok _ d' =>
      rw [hd] at hcongr
      exact hcongr.elim
    | error e' d' =>
      rw [hd] at hcongr
      simp only
      rw [hcongr.1]
  simp only [storeStep, after_of_run_error hserve, outcome_of_run_error hserve, hloaded,
    Option.map_some, content_eq_of_withoutTimes hsame]

theorem storeStep_of_ok (h : Holds before s draft)
    (hrun : (input.command.exec input.now input.expectedRevision).run draft = .ok () draft')
    : ∃ d', d'.withoutTimes = draft'.withoutTimes
        ∧ (serve draft.id input).run s = (update d').run s := by
  obtain ⟨d, hloaded, hsame⟩ := h.loaded
  have hcongr := Command.run_exec_congr input.now input.expectedRevision input.command hsame
  rw [hrun] at hcongr
  cases hd : (input.command.exec input.now input.expectedRevision).run d with
  | ok _ d' =>
    rw [hd] at hcongr
    refine ⟨d', hcongr, ?_⟩
    rw [run_serve, hloaded]
    simp only [hd]
  | error e' d' =>
    rw [hd] at hcongr
    exact hcongr.elim

-- the columns that neither an update nor the operation rows have a say in
theorem Holds.row (h : Holds before s draft)
    : ∃ row, s.drafts.find? draft.id.val = some row ∧ row.activityId = draft.activityId.val
        ∧ row.ownerId = draft.ownerId.val ∧ row.baseRouteVersionId = draft.baseRouteVersionId
        ∧ row.revision = draft.revision := by
  obtain ⟨d, hloaded, hsame⟩ := h.loaded
  simp only [PgRouteDraftRepository.loaded, Option.map_eq_some_iff] at hloaded
  obtain ⟨row, hrow, rfl⟩ := hloaded
  simp only [RouteDraft.withoutTimes, draftOfRows, RouteDraft.mk.injEq] at hsame
  obtain ⟨_, hactivity, howner, hbase, hrevision, _⟩ := hsame
  refine ⟨row, hrow, ?_, ?_, hbase, hrevision⟩
  . rw [← hactivity]
  . rw [← howner]

theorem finite_of_withoutTimes {d : RouteDraft} (h : d.withoutTimes = draft.withoutTimes)
    (hfinite : FiniteDraft draft) : FiniteDraft d := by
  have hoperations := operations_eq_of_withoutTimes h
  simp only [RouteDraft.withoutTimes, RouteDraft.mk.injEq] at h
  obtain ⟨_, _, _, _, _, hgeometry, _⟩ := h
  constructor
  . rw [hgeometry]
    exact hfinite.geometry
  . rw [hoperations]
    exact hfinite.operations

/--
A command that raises the revision goes through the optimistic lock, and the draft is loaded again
with the entries that are kept.
-/
theorem serve_of_raised (h : Holds before s draft) (hcommand : Command.Finite input.command)
    (hrun : (input.command.exec input.now input.expectedRevision).run draft = .ok () draft')
    (hraised : draft'.revision = draft.revision + 1)
    : ∃ d', d'.withoutTimes = draft'.withoutTimes
        ∧ (serve draft.id input).run s = .ok () (updated s d')
        ∧ ∃ d, loaded (updated s d') draft.id = some d ∧ d.withoutTimes = { draft' with
            appliedOperations := draft'.appliedOperations.filterMap (kept s draft.id)
            undoneOperations := draft'.undoneOperations.filterMap (kept s draft.id)
          }.withoutTimes := by
  obtain ⟨_, _, hedited⟩ := Command.edited_of_run_exec hrun
  obtain ⟨d', hsame, hserve⟩ := storeStep_of_ok h hrun
  obtain ⟨row, hrow, hactivity, howner, hbase, hrevision⟩ := h.row
  have hfinite := finite_of_withoutTimes hsame (finite_of_edited h.finite hcommand hedited)
  have hdistinct : (d'.operations.map (·.id)).Nodup := by
    rw [operations_eq_of_withoutTimes hsame]
    exact RouteDraft.nodup_of_edited h.nodup hedited
  refine ⟨d', hsame, ?_⟩
  simp only [RouteDraft.withoutTimes, RouteDraft.mk.injEq] at hsame
  obtain ⟨hid, hactivity', howner', hbase', hrevision', hgeometry', happlied', hundone', hstate', _⟩ :=
    hsame
  have hdraftId : d'.id = draft.id := hid.trans hedited.id_eq
  rw [← hdraftId] at hrow
  have hlock : row.revision + 1 = d'.revision := by
    rw [hrevision, hrevision', hraised]
  have hrowId : row.id = d'.id.val := Sql.Table.key_of_find? hrow
  refine ⟨?_, ?_⟩
  . rw [hserve, run_update, if_pos ⟨row, hrow, hlock⟩]
  . refine ⟨_, hdraftId ▸ loaded_updated hrow hlock hdistinct hfinite.operations, ?_⟩
    simp only [RouteDraft.withoutTimes, draftOfRows, setDraft, RouteDraft.mk.injEq]
    refine ⟨?_, ?_, ?_, ?_, hrevision', ?_, ?_, ?_, ?_, trivial, trivial⟩
    . rw [hrowId, ← hid]
    . rw [hactivity, hedited.activityId_eq]
    . rw [howner, hedited.ownerId_eq]
    . rw [hbase, hedited.baseRouteVersionId_eq]
    . rw [jsonToGeometry_geometryToJson hfinite.geometry, hgeometry']
    . rw [happlied']
    . rw [hundone']
    . rw [parseState_stateToStr, hstate']

theorem Holds.updated {command : Command} {now : Timestamp} {d' : RouteDraft}
    (h : Holds before s draft) (hcommand : Command.Finite command)
    (hedited : Edited now draft command draft') (hsame : d'.withoutTimes = draft'.withoutTimes)
    (hloaded : ∃ d, PgRouteDraftRepository.loaded (updated s d') draft.id = some d
      ∧ d.withoutTimes = draft'.withoutTimes)
    (hkept : ∀ e ∈ draft'.operations, kept s draft.id e = some e)
    : Holds before (PgRouteDraftRepository.updated s d') draft' := by
  have hid : d'.id = draft.id := by
    simp only [RouteDraft.withoutTimes, RouteDraft.mk.injEq] at hsame
    exact hsame.1.trans hedited.id_eq
  have hoperations := operations_eq_of_withoutTimes hsame
  have hdistinct : (d'.operations.map (·.id)).Nodup := by
    rw [hoperations]
    exact RouteDraft.nodup_of_edited h.nodup hedited
  have hfinite := finite_of_edited h.finite hcommand hedited
  -- the row that is written for an entry is one of the draft and reads as the entry
  have hwritten : ∀ row ∈ stackRows d', (stored s.draftOperations row).draftId = draft.id.val
      ∧ ∃ entry ∈ draft'.operations, entryOfRow (stored s.draftOperations row) = some entry := by
    intro row hrow
    obtain ⟨entry, hentry, isUndone, position, rfl⟩ := eq_operationRow_of_mem_stackRows hrow
    rw [hoperations] at hentry
    rw [hid]
    obtain ⟨hdraft, hread⟩ := @stored_of_kept s draft.id isUndone entry position
      (hfinite.operations entry hentry) (hkept entry hentry)
    exact ⟨hdraft, entry, hentry, hread⟩
  have hgone : ∀ k row, k ∉ d'.operations.map (·.id.val) →
      ((writeOperations d' s.draftOperations).find? k = some row
        ↔ s.draftOperations.find? k = some row ∧ row.draftId ≠ draft.id.val) := by
    intro k row hk
    rw [find?_writeOperations_of_not_mem hk, Option.filter_eq_some_iff, hid]
    simp
  constructor
  . rw [hedited.id_eq]
    exact hloaded
  . intro k row hrow hdraft
    by_cases hk : k ∈ d'.operations.map (·.id.val)
    . obtain ⟨new, hnew, rfl⟩ := mem_stackRows_of_id hk
      rw [PgRouteDraftRepository.updated, find?_writeOperations_of_mem hdistinct hnew,
        Option.some.injEq] at hrow
      rw [← hrow]
      exact (hwritten new hnew).2
    . rw [PgRouteDraftRepository.updated, hgone k row hk] at hrow
      rw [hedited.id_eq] at hdraft
      exact absurd hdraft hrow.2
  . intro k row hne
    rw [hedited.id_eq] at hne
    rw [← h.foreign k row hne]
    by_cases hk : k ∈ d'.operations.map (·.id.val)
    . constructor
      . intro hrow
        obtain ⟨new, hnew, rfl⟩ := mem_stackRows_of_id hk
        rw [PgRouteDraftRepository.updated, find?_writeOperations_of_mem hdistinct hnew,
          Option.some.injEq] at hrow
        rw [← hrow] at hne
        exact absurd (hwritten new hnew).1 hne
      . intro hrow
        rw [hoperations] at hk
        obtain ⟨entry, hentry, rfl⟩ := List.mem_map.mp hk
        have hlost := hkept entry hentry
        rw [kept, hrow] at hlost
        simp [hne] at hlost
    . rw [PgRouteDraftRepository.updated, hgone k row hk]
      simp [hne]
  . exact hfinite
  . intro k row hrow
    rw [hedited.id_eq]
    exact h.unowned k row hrow
  . rw [hedited.state_eq]
    exact h.active

/-
One step: the two drafts give the same outcome exactly if the command survives, and then the store
holds what the draft in memory has become.
-/

theorem kept_iff_content_eq
    : ({ draft'.content with
        appliedOperations := draft'.appliedOperations.filterMap (kept s id)
        undoneOperations := draft'.undoneOperations.filterMap (kept s id)
      } : Content) = draft'.content
        ↔
      ∀ e ∈ draft'.operations, kept s id e = some e := by
  simp only [RouteDraft.content, Content.mk.injEq, true_and, filterMap_eq_self_iff,
    RouteDraft.operations, List.forall_mem_append]

-- an operation that was applied before raises no revision, which the optimistic lock asks for
theorem serve_of_replayed (h : Holds before s draft)
    (hrun : (input.command.exec input.now input.expectedRevision).run draft = .ok () draft)
    : ∃ e, (serve draft.id input).run s = .error e s := by
  obtain ⟨d', hsame, hserve⟩ := storeStep_of_ok h hrun
  obtain ⟨row, hrow, _, _, _, hrevision⟩ := h.row
  simp only [RouteDraft.withoutTimes, RouteDraft.mk.injEq] at hsame
  have hlocked : ¬Unlocked s d' := by
    rintro ⟨other, hother, hlock⟩
    rw [hsame.1, hrow, Option.some.injEq] at hother
    rw [← hother, hrevision, hsame.2.2.2.2.1] at hlock
    omega
  rw [hserve, run_update, if_neg hlocked]
  split
  . exact ⟨_, rfl⟩
  . exact ⟨_, rfl⟩

theorem outcome_eq_iff_survives (h : Holds before s draft) (hcommand : Command.Finite input.command)
    : (memoryStep draft input).2 = (storeStep draft.id s input).2 ↔ Survives before draft input := by
  rcases input.command.exec_cases input.now input.expectedRevision draft with
    ⟨e, herror⟩ | ⟨hactive, hrevision, draft', hedited, hok⟩
  . rw [storeStep_of_error h herror]
    simp only [memoryStep, after_of_run_error herror, outcome_of_run_error herror, true_iff]
    exact survives_of_error h.active herror
  . cases hedited.raised_or_replayed with
    | inl hraised =>
      obtain ⟨d', hsame, hserve, d, hloaded, hd⟩ := serve_of_raised h hcommand hok hraised
      rw [← kept_iff_survives h hrevision hedited hraised, ← kept_iff_content_eq]
      simp only [memoryStep, storeStep, after_of_run_ok hok, outcome_of_run_ok hok,
        after_of_run_ok hserve, outcome_of_run_ok hserve, hloaded, Option.map_some,
        content_eq_of_withoutTimes hd, Prod.mk.injEq, Option.some.injEq, true_and]
      exact eq_comm
    | inr hreplayed =>
      obtain ⟨rfl, operationId, operation, hcommand, hmem⟩ := hreplayed
      obtain ⟨e, herror⟩ := serve_of_replayed h hok
      simp only [memoryStep, storeStep, outcome_of_run_ok hok, outcome_of_run_error herror,
        Prod.mk.injEq, reduceCtorEq, false_and, false_iff]
      intro hsurvives
      have hcond := hsurvives hrevision
      rw [hcommand] at hcond
      exact hcond.1 hmem

theorem holds_of_survives (h : Holds before s draft) (hcommand : Command.Finite input.command)
    (hsurvives : Survives before draft input)
    : Holds before (storeStep draft.id s input).1 (memoryStep draft input).1 := by
  rcases input.command.exec_cases input.now input.expectedRevision draft with
    ⟨e, herror⟩ | ⟨hactive, hrevision, draft', hedited, hok⟩
  . rw [storeStep_of_error h herror]
    simp only [memoryStep, after_of_run_error herror]
    exact h
  . cases hedited.raised_or_replayed with
    | inl hraised =>
      obtain ⟨d', hsame, hserve, d, hloaded, hd⟩ := serve_of_raised h hcommand hok hraised
      have hkept := (kept_iff_survives h hrevision hedited hraised).mpr hsurvives
      simp only [memoryStep, storeStep, after_of_run_ok hok, after_of_run_ok hserve]
      apply h.updated hcommand hedited hsame _ hkept
      refine ⟨d, hloaded, ?_⟩
      have happlied := filterMap_eq_self_iff.mpr fun e he => hkept e (List.mem_append_left _ he)
      have hundone := filterMap_eq_self_iff.mpr fun e he => hkept e (List.mem_append_right _ he)
      rw [hd, happlied, hundone]
    | inr hreplayed =>
      obtain ⟨_, operationId, operation, hcommand, hmem⟩ := hreplayed
      have hcond := hsurvives hrevision
      rw [hcommand] at hcond
      exact absurd hmem hcond.1

theorem id_memoryStep : (memoryStep draft input).1.id = draft.id := by
  rcases input.command.exec_cases input.now input.expectedRevision draft with
    ⟨e, herror⟩ | ⟨_, _, draft', hedited, hok⟩
  . rw [memoryStep, after_of_run_error herror]
  . rw [memoryStep, after_of_run_ok hok, hedited.id_eq]

theorem holds_of_save {now : Timestamp} {ownerId : Identity.UserId}
    {activityId : ActivityCatalog.ActivityId} {baseRouteVersionId : Option Uuid} {g : Geometry}
    (hreferential : Referential before)
    (hcreate : RouteDraft.createFromGeometry id now ownerId activityId baseRouteVersionId g = .ok draft)
    (hfinite : AllPoints RoutePoint.Finite g) (hsave : (save draft).run before = .ok () s)
    : Holds before s draft := by
  rw [RouteDraft.createFromGeometry_eq_ok_iff] at hcreate
  obtain ⟨_, rfl⟩ := hcreate
  obtain ⟨hoperations, hdrafts, hunowned⟩ := eq_of_save hreferential rfl hsave
  have hselect : selectOperations s id.val = [] := by
    rw [selectOperations, List.eq_nil_iff_forall_not_mem]
    intro row hmem
    rw [Sql.Table.mem_selectOrdered, decide_eq_true_eq, hoperations] at hmem
    exact hunowned _ row hmem.1 hmem.2
  constructor
  . rw [loaded, hdrafts]
    simp only [rowOfDraft, ↓reduceIte, Option.map_some, hselect, Option.some.injEq, exists_eq_left']
    simp [RouteDraft.withoutTimes, draftOfRows, jsonToGeometry_geometryToJson hfinite,
      parseState_stateToStr]
  . intro k row hrow hdraft
    rw [hoperations] at hrow
    exact absurd hdraft (hunowned k row hrow)
  . intro k row _
    rw [hoperations]
  . exact ⟨hfinite, by simp [RouteDraft.operations]⟩
  . exact hunowned
  . rfl

/--
A draft that is loaded and updated with every command agrees with one that stays in memory exactly
as long as the commands survive.
-/
theorem persisted_eq_memory_iff (before s : Store) (hreferential : Referential before)
    (id : RouteDraftId) (now : Timestamp) (ownerId : Identity.UserId)
    (activityId : ActivityCatalog.ActivityId) (baseRouteVersionId : Option Uuid) (g : Geometry)
    (hcreate : RouteDraft.createFromGeometry id now ownerId activityId baseRouteVersionId g = .ok draft)
    (hfinite : AllPoints RoutePoint.Finite g) (hsave : (save draft).run before = .ok () s)
    (inputs : List Input) (hinputs : ∀ input ∈ inputs, Command.Finite input.command)
    : trace (storeStep id) s inputs = trace memoryStep draft inputs
        ↔
      Always memoryStep (Survives before) draft inputs := by
  have hdraft : draft.id = id := by
    rw [RouteDraft.createFromGeometry_eq_ok_iff] at hcreate
    rw [hcreate.2]
  rw [eq_comm]
  apply trace_eq_iff_always (R := fun draft s => draft.id = id ∧ Holds before s draft)
  . rintro draft s input hmem ⟨rfl, hholds⟩ hsurvives
    exact ⟨(outcome_eq_iff_survives hholds (hinputs input hmem)).mpr hsurvives, id_memoryStep,
      holds_of_survives hholds (hinputs input hmem) hsurvives⟩
  . rintro draft s input hmem ⟨rfl, hholds⟩ hlost heq
    exact hlost ((outcome_eq_iff_survives hholds (hinputs input hmem)).mp heq)
  . exact ⟨hdraft, holds_of_save hreferential hcreate hfinite hsave⟩

-- the sample draft, saved in a store that was empty
def sampleStore : Store := after (save RouteDraft.sampleDraft) .empty

-- move a point, undo, redo
def sampleInputs : List Input := [
  ⟨1000, 0, .apply ⟨⟨10⟩⟩ (.movePoint ⟨0⟩ ⟨1⟩ (RouteDraft.samplePoint 50).coordinate)⟩,
  ⟨2000, 1, .undo⟩,
  ⟨3000, 2, .redo⟩
]

theorem finite_samplePoint (latitude : ℚ) : (RouteDraft.samplePoint latitude).Finite where
  coordinate := ⟨rfl, rfl⟩
  elevation := by
    intro e he
    simp only [RouteDraft.samplePoint, Option.some.injEq] at he
    rw [← he]
    rfl

theorem finite_sampleGeometry : AllPoints RoutePoint.Finite RouteDraft.sampleGeometry := by
  intro segment hsegment point hpoint
  simp only [RouteDraft.sampleGeometry, List.mem_singleton] at hsegment
  subst hsegment
  simp only [List.mem_cons, List.not_mem_nil, or_false] at hpoint
  rcases hpoint with rfl | rfl | rfl
  . exact finite_samplePoint 46
  . exact finite_samplePoint 47
  . exact finite_samplePoint 48

theorem persisted_eq_memory_iff_sampleDraft
    : trace (storeStep RouteDraft.sampleDraft.id) sampleStore sampleInputs
        = trace memoryStep RouteDraft.sampleDraft sampleInputs
        ↔
      Always memoryStep (Survives .empty) RouteDraft.sampleDraft sampleInputs := by
  apply persisted_eq_memory_iff .empty sampleStore _ ⟨⟨1⟩⟩ 0 ⟨⟨3⟩⟩ ⟨⟨2⟩⟩ none RouteDraft.sampleGeometry
  . rfl
  . exact finite_sampleGeometry
  . rfl
  . intro input hmem
    simp only [sampleInputs, List.mem_cons, List.not_mem_nil, or_false] at hmem
    rcases hmem with rfl | rfl | rfl
    . exact (finite_samplePoint 50).coordinate
    . trivial
    . trivial
  . intro k row hrow
    cases hrow

/--
The redo does not bring the moved point back: reading the draft again gives the entry the geometry it
was stored with, not the one the undo has put there.
-/
theorem redo_lost_in_store
    : RouteDraft.createFromGeometry ⟨⟨1⟩⟩ 0 ⟨⟨3⟩⟩ ⟨⟨2⟩⟩ none RouteDraft.sampleGeometry
          = .ok RouteDraft.sampleDraft
        ∧ (save RouteDraft.sampleDraft).run .empty = .ok () sampleStore
        ∧ trace (storeStep RouteDraft.sampleDraft.id) sampleStore sampleInputs
            ≠ trace memoryStep RouteDraft.sampleDraft sampleInputs := by
  refine ⟨rfl, rfl, ?_⟩
  decide

end PgRouteDraftRepository

end RouteEditing
