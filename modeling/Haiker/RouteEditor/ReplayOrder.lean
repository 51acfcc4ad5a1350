import Mathlib.Data.List.Induction
import Haiker.Api.Replay
import Haiker.RouteEditor.Autosave

/-!
This module contains when a replay applies the edits in the order in which the user made them. The
store lists them by their ids, which are drawn at random.
-/

open Rust
open RouteEditing
open RouteEditing.PgRouteDraftRepository

namespace RouteEditor

inductive Step where
  | save (draftId : RouteDraftId) (id : String) (now : Timestamp) (operation : Api.OperationDto)
      (expectedRevision : Nat)
  | confirm (id : String)
  deriving DecidableEq

namespace Step

def id : Step → String
  | .save _ id _ _ _ => id
  | .confirm id => id

def saved? : Step → Option PendingOperation
  | .save draftId id now operation expectedRevision =>
    some (pendingOperation draftId id now operation expectedRevision)
  | .confirm _ => none

def run (store : PendingStore) : Step → PendingStore
  | .save draftId id now operation expectedRevision =>
    saveOperation draftId id now operation expectedRevision store
  | .confirm id => confirmOperation store id

end Step

def runSteps (steps : List Step) : PendingStore := steps.foldl Step.run .empty

-- an id that is drawn has not been used before
def FreshIds (steps : List Step) : Prop :=
  steps.Pairwise fun step later => later.saved?.isSome = true → step.id ≠ later.id

instance (steps : List Step) : Decidable (FreshIds steps) :=
  inferInstanceAs (Decidable (steps.Pairwise fun step later =>
    later.saved?.isSome = true → step.id ≠ later.id))

def savedOperations (steps : List Step) : List PendingOperation := steps.filterMap Step.saved?

-- the edits of the draft that are not confirmed, in the order in which the user made them
def unconfirmed (draftId : RouteDraftId) (steps : List Step) : List PendingOperation :=
  (savedOperations steps).filter fun op => op.draftId = draftId ∧ .confirm op.id ∉ steps

def applyAll (geometry : Geometry) : List PendingOperation → Option Geometry
  | [] => some geometry
  | op :: ops =>
    match op.operation.toDomain with
    | .error _ => none
    | .ok operation =>
      match (executeOperation operation).run geometry with
      | .ok _ geometry => applyAll geometry ops
      | .error _ _ => none

-- the keys are drawn at random, and the numbers of the operations went through JSON
structure Replayable (s : Store) (draws : Nat → Draw) (ops : List PendingOperation) : Prop where
  unused : ∀ i, s.draftOperations.find? (draws i).idempotencyKey.val = none
  distinct : Function.Injective fun i => (draws i).idempotencyKey.val
  finite : ∀ op ∈ ops, ∀ operation, op.operation.toDomain = .ok operation → operation.Finite

/--
A replay of `ops` that succeeds has the effect of `edits` on the geometry it starts from.
-/
def ReplayGives (draftId : RouteDraftId) (ops edits : List PendingOperation) : Prop :=
  ∀ s draft draws s', loaded s draftId = some draft → Replayable s draws ops →
    replayOperations draftId draws draft.revision 0 s ops = (ops.length, s') →
      ∃ draft', loaded s' draftId = some draft'
        ∧ applyAll draft.geometry edits = some draft'.geometry

structure ReplaysInOrder (draftId : RouteDraftId) (steps : List Step) : Prop where
  order : getUnconfirmedOperations (runSteps steps) draftId = unconfirmed draftId steps
  geometry : ReplayGives draftId (getUnconfirmedOperations (runSteps steps) draftId)
    (unconfirmed draftId steps)

/-
What the store holds.
-/

variable {draftId : RouteDraftId} {steps : List Step} {step : Step} {op record : PendingOperation}
  {id : String}

-- the record of an edit once `steps` have been made
def recordOf (steps : List Step) (op : PendingOperation) : PendingOperation :=
  { op with confirmed := decide (.confirm op.id ∈ steps) }

theorem runSteps_append (steps : List Step) (step : Step)
    : runSteps (steps ++ [step]) = step.run (runSteps steps) := by
  simp [runSteps]

theorem freshIds_append
    : FreshIds (steps ++ [step])
        ↔ FreshIds steps ∧ (step.saved?.isSome = true → ∀ other ∈ steps, other.id ≠ step.id) := by
  simp only [FreshIds, List.pairwise_append, List.pairwise_singleton, true_and, List.mem_singleton,
    forall_eq]
  apply and_congr_right
  intro _
  exact ⟨fun h hsaved other hother => h other hother hsaved,
    fun h other hother hsaved => h hsaved other hother⟩

theorem saved?_eq_some (h : step.saved? = some op) : op.id = step.id ∧ op.confirmed = false := by
  cases step with
  | save draftId id now operation expectedRevision =>
    rw [Step.saved?, Option.some.injEq] at h
    rw [← h]
    exact ⟨rfl, rfl⟩
  | confirm id => cases h

theorem mem_savedOperations : op ∈ savedOperations steps ↔ ∃ step ∈ steps, step.saved? = some op :=
  List.mem_filterMap

theorem savedOperations_append_save {now : Timestamp} {operation : Api.OperationDto}
    {expectedRevision : Nat}
    : savedOperations (steps ++ [.save draftId id now operation expectedRevision])
        = savedOperations steps ++ [pendingOperation draftId id now operation expectedRevision] := by
  rw [savedOperations, List.filterMap_append]
  rfl

theorem savedOperations_append_confirm
    : savedOperations (steps ++ [.confirm id]) = savedOperations steps := by
  rw [savedOperations, List.filterMap_append]
  exact List.append_nil _

theorem recordOf_append_save {now : Timestamp} {operation : Api.OperationDto} {expectedRevision : Nat}
    : recordOf (steps ++ [.save draftId id now operation expectedRevision]) op = recordOf steps op := by
  simp [recordOf]

-- confirming an edit is the same as setting the flag of its record
theorem recordOf_append_confirm
    : recordOf (steps ++ [.confirm id]) op
        = if op.id = id then (recordOf steps op).confirm else recordOf steps op := by
  split_ifs with hid
  . simp [recordOf, hid, PendingOperation.confirm]
  . simp [recordOf, hid]

theorem recordOf_eq_self (h : .confirm op.id ∉ steps) (hconfirmed : op.confirmed = false)
    : recordOf steps op = op := by
  rw [recordOf, decide_eq_false h, ← hconfirmed]

theorem mem_records_runSteps (hfresh : FreshIds steps)
    : record ∈ (runSteps steps).records ↔ ∃ op ∈ savedOperations steps, record = recordOf steps op := by
  induction steps using List.reverseRecOn generalizing record with
  | nil => simp [runSteps, savedOperations]
  | append_singleton steps step ih =>
    obtain ⟨hfresh, hnew⟩ := freshIds_append.mp hfresh
    have ih : ∀ {record}, record ∈ (runSteps steps).records
        ↔ ∃ op ∈ savedOperations steps, record = recordOf steps op := ih hfresh
    rw [runSteps_append]
    cases step with
    | save draftId id now operation expectedRevision =>
      have hunused : ∀ op ∈ savedOperations steps, op.id ≠ id := by
        intro op hop
        obtain ⟨other, hother, hsaved⟩ := mem_savedOperations.mp hop
        rw [(saved?_eq_some hsaved).1]
        exact hnew rfl other hother
      have hself : recordOf steps (pendingOperation draftId id now operation expectedRevision)
          = pendingOperation draftId id now operation expectedRevision := by
        apply recordOf_eq_self
        . intro hconfirm
          exact hnew rfl _ hconfirm rfl
        . rfl
      rw [Step.run, saveOperation, savePendingOperation, IndexedDb.ObjectStore.mem_put, ih,
        savedOperations_append_save]
      simp only [recordOf_append_save, List.mem_append, List.mem_singleton]
      constructor
      . rintro (rfl | ⟨⟨op, hop, rfl⟩, _⟩)
        . exact ⟨_, .inr rfl, hself.symm⟩
        . exact ⟨op, .inl hop, rfl⟩
      . rintro ⟨op, hop | rfl, rfl⟩
        . exact .inr ⟨⟨op, hop, rfl⟩, hunused op hop⟩
        . exact .inl hself
    | confirm id =>
      rw [Step.run, confirmOperation, savedOperations_append_confirm]
      simp only [recordOf_append_confirm]
      cases hget : (runSteps steps).get id with
      | none =>
        rw [IndexedDb.ObjectStore.get_eq_none_iff] at hget
        simp only [ih]
        apply exists_congr
        intro op
        apply and_congr_right
        intro hop
        have hne : op.id ≠ id := hget (recordOf steps op) (ih.mpr ⟨op, hop, rfl⟩)
        rw [if_neg hne]
      | some old =>
        rw [IndexedDb.ObjectStore.get_eq_some_iff] at hget
        obtain ⟨hold, hid⟩ := hget
        have hkey : old.confirm.id = id := hid
        simp only [IndexedDb.ObjectStore.mem_put, ih, hkey]
        constructor
        . rintro (rfl | ⟨⟨op, hop, rfl⟩, hne⟩)
          . obtain ⟨op, hop, rfl⟩ := ih.mp hold
            have heq : op.id = id := hid
            exact ⟨op, hop, (if_pos heq).symm⟩
          . have hne : op.id ≠ id := hne
            exact ⟨op, hop, (if_neg hne).symm⟩
        . rintro ⟨op, hop, rfl⟩
          split_ifs with heq
          . have hmem : recordOf steps op ∈ (runSteps steps).records := ih.mpr ⟨op, hop, rfl⟩
            have hsame : recordOf steps op = old :=
              IndexedDb.ObjectStore.eq_of_key_eq hmem hold (heq.trans hid.symm)
            rw [hsame]
            exact .inl rfl
          . exact .inr ⟨⟨op, hop, rfl⟩, heq⟩

theorem mem_getUnconfirmedOperations (hfresh : FreshIds steps)
    : op ∈ getUnconfirmedOperations (runSteps steps) draftId ↔ op ∈ unconfirmed draftId steps := by
  rw [getUnconfirmedOperations, IndexedDb.ObjectStore.getAll, List.mem_filter, List.mem_filter,
    mem_records_runSteps hfresh, unconfirmed, List.mem_filter]
  simp only [decide_eq_true_eq, Bool.not_eq_true']
  constructor
  . rintro ⟨⟨⟨saved, hsaved, rfl⟩, hdraft⟩, hunconfirmed⟩
    have hconfirm : .confirm saved.id ∉ steps := of_decide_eq_false hunconfirmed
    obtain ⟨step, _, hstep⟩ := mem_savedOperations.mp hsaved
    rw [recordOf_eq_self hconfirm (saved?_eq_some hstep).2] at hdraft ⊢
    exact ⟨hsaved, hdraft, hconfirm⟩
  . rintro ⟨hsaved, hdraft, hconfirm⟩
    obtain ⟨step, _, hstep⟩ := mem_savedOperations.mp hsaved
    have hconfirmed := (saved?_eq_some hstep).2
    exact ⟨⟨⟨op, hsaved, (recordOf_eq_self hconfirm hconfirmed).symm⟩, hdraft⟩, hconfirmed⟩

theorem getUnconfirmedOperations_eq_iff (hfresh : FreshIds steps)
    : getUnconfirmedOperations (runSteps steps) draftId = unconfirmed draftId steps
        ↔ (unconfirmed draftId steps).Pairwise fun op later => op.id < later.id := by
  have hsorted : (getUnconfirmedOperations (runSteps steps) draftId).Pairwise
      fun op later => op.id < later.id := (IndexedDb.ObjectStore.sorted_getAll _ _).filter _
  constructor
  . intro h
    rw [← h]
    exact hsorted
  . intro h
    apply IndexedDb.ObjectStore.eq_of_mem_iff hsorted h
    intro op
    exact mem_getUnconfirmedOperations hfresh

/-
What a replay does to the draft.
-/

variable {s s' : Store} {draft : RouteDraft} {draws : Nat → Draw} {ops : List PendingOperation}

-- what is stored is loaded with its geometry and its revision
theorem geometry_of_updated {draft' : RouteDraft} (hlock : Unlocked s draft')
    (hdistinct : (draft'.operations.map (·.id)).Nodup) (hfinite : FiniteDraft draft')
    : ∃ stored, loaded (updated s draft') draft'.id = some stored
        ∧ stored.geometry = draft'.geometry ∧ stored.revision = draft'.revision := by
  obtain ⟨row, hrow, hrevision⟩ := hlock
  refine ⟨_, loaded_updated hrow hrevision hdistinct hfinite.operations, ?_, rfl⟩
  exact jsonToGeometry_geometryToJson hfinite.geometry

-- of the operations that are stored, an edit adds its own only
theorem unused_of_updated {draft' : RouteDraft} {k : Uuid} (hk : k ∉ draft'.operations.map (·.id.val))
    (hunused : s.draftOperations.find? k = none)
    : (updated s draft').draftOperations.find? k = none := by
  rw [updated, find?_writeOperations_of_not_mem hk, hunused]
  rfl

theorem effect_of_postApply {context : Api.Context} {operationId : OperationId}
    {body : Api.ApplyOperationRequest} {answer : Api.OperationResultResponse}
    (hunused : s.draftOperations.find? operationId.val = none) (hloaded : loaded s draftId = some draft)
    (hfinite : ∀ operation, body.operation.toDomain = .ok operation → operation.Finite)
    (h : (Api.postApplyOperation context draftId operationId body).run s = .ok answer s')
    : ∃ operation draft', body.operation.toDomain = .ok operation
        ∧ (executeOperation operation).run draft.geometry = .ok () draft'.geometry
        ∧ loaded s' draftId = some draft' ∧ answer.revision = draft'.revision
        ∧ ∀ k, k ≠ operationId.val → s.draftOperations.find? k = none →
          s'.draftOperations.find? k = none := by
  rw [Api.run_postApply_of_none hunused, EStateM.run_bind] at h
  rcases Api.editDraft_cases context draftId (.apply operationId body) s with
    ⟨e, hrun⟩ | ⟨before, after, hbefore, _, hedit, hlock, hrun⟩
  . rw [hrun] at h
    cases h
  . rw [hrun] at h
    injection h with hanswer hs
    subst hanswer hs
    rw [hloaded, Option.some.injEq] at hbefore
    subst hbefore
    have hid : after.id = draftId := (Api.id_of_edit hedit).trans (id_of_loaded hloaded)
    have hdistinct := Api.nodup_of_edit hedit (distinct_of_loaded hloaded)
    have hrequest : Api.FiniteRequest context (.apply operationId body) := hfinite
    have hafter : FiniteDraft after := Api.finite_of_edit hrequest (finite_of_loaded hloaded) hedit
    obtain ⟨stored, hstored, hgeometry, hrevision⟩ := geometry_of_updated hlock hdistinct hafter
    rw [hid] at hstored
    obtain ⟨_, ⟨command, hasks, hedited⟩ | ⟨hdelete, _⟩⟩ := Api.edit_cases hedit
    . generalize hexpected : draft.revision = expectedRevision at hasks
      cases hasks with
      | apply hoperation =>
        cases hedited with
        | replayed hmem => exact absurd hlock (Api.not_unlocked_of_loaded hloaded hid rfl)
        | applied hfresh hexec =>
          refine ⟨_, stored, hoperation, ?_, hstored, hrevision.symm, ?_⟩
          . rw [hgeometry]
            exact hexec
          . intro k hk hnone
            apply unused_of_updated _ hnone
            intro hmem
            obtain ⟨entry, hentry, rfl⟩ := List.mem_map.mp hmem
            simp only [RouteDraft.operations, RouteDraft.afterApply, List.append_nil, List.mem_append,
              List.mem_singleton] at hentry
            rcases hentry with hold | rfl
            . have hmem : entry ∈ draft.operations := List.mem_append_left _ hold
              obtain ⟨row, hrow, _⟩ := row_of_loaded hloaded hmem
              rw [hrow] at hnone
              cases hnone
            . exact hk rfl
    . cases hdelete

theorem replayGives_of_run {currentRevision successCount : Nat}
    (hloaded : loaded s draftId = some draft) (hrevision : currentRevision = draft.revision)
    (hunused : ∀ i ≥ successCount, s.draftOperations.find? (draws i).idempotencyKey.val = none)
    (hdistinct : Function.Injective fun i => (draws i).idempotencyKey.val)
    (hfinite : ∀ op ∈ ops, ∀ operation, op.operation.toDomain = .ok operation → operation.Finite)
    (hrun : replayOperations draftId draws currentRevision successCount s ops
      = (successCount + ops.length, s'))
    : ∃ draft', loaded s' draftId = some draft'
        ∧ applyAll draft.geometry ops = some draft'.geometry := by
  induction ops generalizing s draft currentRevision successCount with
  | nil =>
    injection hrun with _ hs
    rw [← hs]
    exact ⟨draft, hloaded, rfl⟩
  | cons op ops ih =>
    rw [List.forall_mem_cons] at hfinite
    rw [replayOperations] at hrun
    split at hrun
    . next answer s₁ hpost =>
      obtain ⟨operation, mid, hoperation, hexec, hmid, hanswer, hkeys⟩ :=
        effect_of_postApply (hunused successCount le_rfl) hloaded hfinite.1 hpost
      rw [List.length_cons, ← Nat.add_assoc, Nat.add_right_comm] at hrun
      have hunused' : ∀ i ≥ successCount + 1,
          s₁.draftOperations.find? (draws i).idempotencyKey.val = none := by
        intro i hi
        apply hkeys _ _ (hunused i (by omega))
        intro hkey
        have hsame : i = successCount := hdistinct hkey
        omega
      obtain ⟨draft', hdraft', hgeometry⟩ := ih hmid hanswer hunused' hfinite.2 hrun
      refine ⟨draft', hdraft', ?_⟩
      rw [applyAll, hoperation]
      simp only [hexec]
      exact hgeometry
    . next e s₁ hpost =>
      injection hrun with hcount _
      rw [List.length_cons] at hcount
      omega

theorem replayGives_self (draftId : RouteDraftId) (ops : List PendingOperation)
    : ReplayGives draftId ops ops := by
  intro s draft draws s' hloaded hreplayable hrun
  have hunused : ∀ i ≥ 0, s.draftOperations.find? (draws i).idempotencyKey.val = none :=
    fun i _ => hreplayable.unused i
  have hall : replayOperations draftId draws draft.revision 0 s ops = (0 + ops.length, s') := by
    rw [hrun, Nat.zero_add]
  exact replayGives_of_run hloaded rfl hunused hreplayable.distinct hreplayable.finite hall

/--
A replay is in order if and only if the ids that were drawn for the edits happen to be.
-/
theorem replays_in_order_iff (draftId : RouteDraftId) (steps : List Step) (hfresh : FreshIds steps)
    : ReplaysInOrder draftId steps
        ↔ (unconfirmed draftId steps).Pairwise fun op later => op.id < later.id := by
  rw [← getUnconfirmedOperations_eq_iff hfresh]
  constructor
  . intro h
    exact h.order
  . intro horder
    refine ⟨horder, ?_⟩
    rw [horder]
    exact replayGives_self draftId _

-- the point in the middle is moved, and then deleted
def sampleSteps (first second : String) : List Step := [
  .save ⟨⟨1⟩⟩ first 1000 (.movePoint 0 1 { latitude := .fin 50, longitude := .fin 7 }) 0,
  .save ⟨⟨1⟩⟩ second 2000 (.deletePoint 0 1) 0
]

def sampleDraws (i : Nat) : Draw where
  idempotencyKey := ⟨⟨.ofNat 128 (i + 10)⟩⟩
  context := Api.sampleContext

theorem replays_in_order_iff_sampleSteps
    : ReplaysInOrder ⟨⟨1⟩⟩ (sampleSteps "3f" "b0")
        ↔ (unconfirmed ⟨⟨1⟩⟩ (sampleSteps "3f" "b0")).Pairwise fun op later => op.id < later.id := by
  apply replays_in_order_iff
  decide

-- what the replay of both edits leaves, for the sample draft
def sampleReplay : Nat × Store :=
  replayOperations ⟨⟨1⟩⟩ sampleDraws 0 0 sampleStore
    (getUnconfirmedOperations (runSteps (sampleSteps "b0" "3f")) ⟨⟨1⟩⟩)

-- the second edit drew the smaller id, so the point is deleted first and the one behind it is moved
theorem replay_moves_wrong_point
    : FreshIds (sampleSteps "b0" "3f")
        ∧ ¬ReplaysInOrder ⟨⟨1⟩⟩ (sampleSteps "b0" "3f")
        ∧ applyAll RouteDraft.sampleGeometry (unconfirmed ⟨⟨1⟩⟩ (sampleSteps "b0" "3f"))
          = some [[RouteDraft.samplePoint 46, RouteDraft.samplePoint 48]]
        ∧ sampleReplay.1 = 2
        ∧ (loaded sampleReplay.2 ⟨⟨1⟩⟩).map (·.geometry)
          = some [[RouteDraft.samplePoint 46, RouteDraft.samplePoint 50]] := by
  refine ⟨by decide, ?_, by decide, by decide, by decide⟩
  intro h
  have hlisted : (getUnconfirmedOperations (runSteps (sampleSteps "b0" "3f")) ⟨⟨1⟩⟩).map (·.timestamp)
      = [2000, 1000] := by decide
  have hmade : (unconfirmed ⟨⟨1⟩⟩ (sampleSteps "b0" "3f")).map (·.timestamp) = [1000, 2000] := by
    decide
  rw [h.order, hmade] at hlisted
  exact absurd hlisted (by decide)

end RouteEditor
