import Haiker.History.Linear
import Haiker.RouteEditing.WellFormed
import Haiker.Simulation.Lockstep

/-!
This module contains the proof that the two stacks of a draft are a linear history: the draft answers
every sequence of commands the way an editor does that consists of a list of geometries and a cursor.
-/

open Rust
open History
open Lockstep

namespace RouteEditing

-- what a caller sees of a command: the result, and the geometry there is then
abbrev Answer := Except (Fault RouteEditingError) Unit × Geometry

def Command.operationId? : Command → Option OperationId
  | .apply operationId _ => some operationId
  | .undo | .redo | .reset _ => none

/--
The editor that the draft is compared with.
-/
def Editor.step (h : Linear Geometry) (input : Timestamp × Command) : Linear Geometry × Answer :=
  match input.2 with
  | .apply _ operation =>
    match (executeOperation operation).run h.current with
    | .ok _ geometry => (h.push geometry, .ok (), geometry)
    | .error e _ => (h, .error e, h.current)
  | .undo =>
    match h.undo? with
    | some h => (h, .ok (), h.current)
    | none => (h, .error (.err .nothingToUndo), h.current)
  | .redo =>
    match h.redo? with
    | some h => (h, .ok (), h.current)
    | none => (h, .error (.err .nothingToRedo), h.current)
  | .reset baseGeometry =>
    match validateGeometry baseGeometry with
    | .ok _ => (.start baseGeometry, .ok (), baseGeometry)
    | .error e => (h, .error (.err e), h.current)

namespace RouteDraft

-- the command comes with the revision the draft has
def step (draft : RouteDraft) (input : Timestamp × Command) : RouteDraft × Answer :=
  let method := input.2.exec input.1 draft.revision
  (after method draft, outcome method draft, (after method draft).geometry)

-- the same command at each of these times
def repeated (command : Command) (times : List Timestamp) : List (Timestamp × Command) :=
  times.map fun now => (now, command)

def operationIds (inputs : List (Timestamp × Command)) : List OperationId :=
  inputs.filterMap fun input => input.2.operationId?

-- the geometry that the last reset has set, or `base` if there was none
def baseline (base : Geometry) (draft : RouteDraft) : List (Timestamp × Command) → Geometry
  | [] => base
  | input :: inputs =>
    match input.2, (draft.step input).2.1 with
    | .reset baseGeometry, .ok _ => baseline baseGeometry (draft.step input).1 inputs
    | _, _ => baseline base (draft.step input).1 inputs

-- the operation id is on neither of the stacks
def Fresh (draft : RouteDraft) (input : Timestamp × Command) : Prop :=
  match input.2 with
  | .apply operationId _ => operationId ∉ draft.operations.map (·.id)
  | _ => True

/--
The list of geometries and the cursor that the stacks stand for.
-/
def history (draft : RouteDraft) : Linear Geometry where
  states := draft.appliedOperations.map (·.geometryBefore)
    ++ draft.geometry :: (draft.undoneOperations.map (·.geometryBefore)).reverse
  cursor := draft.appliedOperations.length
  hcursor := by simp

variable {draft draft' : RouteDraft} {now : Timestamp}

@[simp]
theorem current_history (draft : RouteDraft) : draft.history.current = draft.geometry := by
  simp [Linear.current, history]

@[simp]
theorem cursor_history (draft : RouteDraft)
    : draft.history.cursor = draft.appliedOperations.length := rfl

theorem history_afterApply (operationId : OperationId) (operation : RouteOperation) (g : Geometry)
    : (draft.afterApply now operationId operation g).history = draft.history.push g := by
  apply Linear.ext
  . have htake : draft.history.states.take (draft.history.cursor + 1)
        = draft.appliedOperations.map (·.geometryBefore) ++ [draft.geometry] := by
      rw [cursor_history, history, List.take_append, List.take_of_length_le (by simp)]
      simp
    rw [Linear.states_push, htake]
    simp [history, afterApply]
  . simp [afterApply]

theorem history_afterUndo {entry : OperationEntry}
    (hlast : draft.appliedOperations.getLast? = some entry)
    : draft.history.undo? = some (draft.afterUndo now entry).history := by
  have happlied := List.dropLast_append_getLast? entry hlast
  have hpos : 0 < draft.history.cursor := by
    rw [cursor_history, ← happlied]
    simp
  rw [Linear.undo?, if_pos hpos, Option.some.injEq]
  apply Linear.ext
  . simp only [history, afterUndo]
    nth_rewrite 1 [← happlied]
    simp
  . simp [afterUndo]

theorem history_undo?_eq_none (hlast : draft.appliedOperations.getLast? = none)
    : draft.history.undo? = none := by
  rw [Linear.undo?_eq_none_iff, cursor_history, List.length_eq_zero_iff]
  rw [List.getLast?_eq_none_iff] at hlast
  exact hlast

theorem history_afterRedo {entry : OperationEntry}
    (hlast : draft.undoneOperations.getLast? = some entry)
    : draft.history.redo? = some (draft.afterRedo now entry).history := by
  have hundone := List.dropLast_append_getLast? entry hlast
  have hlt : draft.history.cursor + 1 < draft.history.states.length := by
    simp only [history]
    rw [← hundone]
    simp
  rw [Linear.redo?, dif_pos hlt, Option.some.injEq]
  apply Linear.ext
  . simp only [history, afterRedo]
    nth_rewrite 1 [← hundone]
    simp
  . simp [afterRedo]

theorem history_redo?_eq_none (hlast : draft.undoneOperations.getLast? = none)
    : draft.history.redo? = none := by
  rw [List.getLast?_eq_none_iff] at hlast
  rw [Linear.redo?_eq_none_iff]
  simp [history, hlast]

theorem history_afterReset (g : Geometry) : (draft.afterReset now g).history = .start g := by
  simp [history, afterReset, Linear.start]

theorem step_of_run_ok (command : Command)
    (h : (command.exec now draft.revision).run draft = .ok () draft')
    : draft.step (now, command) = (draft', .ok (), draft'.geometry) := by
  simp only [step, after_of_run_ok h, outcome_of_run_ok h]

theorem step_of_run_error (command : Command) {e : Fault RouteEditingError}
    (h : (command.exec now draft.revision).run draft = .error e draft)
    : draft.step (now, command) = (draft, .error e, draft.geometry) := by
  simp only [step, after_of_run_error h, outcome_of_run_error h]

-- the answer is the same, and the new draft stands for the editor's new history
structure InStep (new : RouteDraft × Answer) (expected : Linear Geometry × Answer) : Prop where
  answer : new.2 = expected.2
  history : new.1.history = expected.1
  active : new.1.state = .active

theorem inStep_apply {operationId : OperationId} {operation : RouteOperation}
    (hactive : draft.state = .active) (hfresh : operationId ∉ draft.operations.map (·.id))
    : InStep (draft.step (now, .apply operationId operation))
        (Editor.step draft.history (now, .apply operationId operation)) := by
  have hnot : operationId ∉ draft.appliedOperations.map (·.id) := by
    intro hmem
    apply hfresh
    rw [operations, List.map_append]
    exact List.mem_append_left _ hmem
  have hrun := @run_applyOperation now draft operationId operation hactive
  rw [if_neg hnot] at hrun
  simp only [Editor.step, current_history]
  cases hexec : (executeOperation operation).run draft.geometry with
  | ok _ g =>
    rw [hexec] at hrun
    rw [step_of_run_ok (.apply operationId operation) hrun]
    exact ⟨rfl, history_afterApply operationId operation g, hactive⟩
  | error e _ =>
    rw [hexec] at hrun
    rw [step_of_run_error (.apply operationId operation) hrun]
    exact ⟨rfl, rfl, hactive⟩

theorem inStep_undo (hactive : draft.state = .active)
    : InStep (draft.step (now, .undo)) (Editor.step draft.history (now, .undo)) := by
  have hrun := @run_undo now draft hactive
  simp only [Editor.step]
  cases hlast : draft.appliedOperations.getLast? with
  | none =>
    rw [hlast] at hrun
    rw [step_of_run_error .undo hrun, history_undo?_eq_none hlast]
    simp only [current_history]
    exact ⟨rfl, rfl, hactive⟩
  | some entry =>
    rw [hlast] at hrun
    rw [step_of_run_ok .undo hrun, @history_afterUndo draft now entry hlast]
    simp only [current_history]
    exact ⟨rfl, rfl, hactive⟩

theorem inStep_redo (hactive : draft.state = .active)
    : InStep (draft.step (now, .redo)) (Editor.step draft.history (now, .redo)) := by
  have hrun := @run_redo now draft hactive
  simp only [Editor.step]
  cases hlast : draft.undoneOperations.getLast? with
  | none =>
    rw [hlast] at hrun
    rw [step_of_run_error .redo hrun, history_redo?_eq_none hlast]
    simp only [current_history]
    exact ⟨rfl, rfl, hactive⟩
  | some entry =>
    rw [hlast] at hrun
    rw [step_of_run_ok .redo hrun, @history_afterRedo draft now entry hlast]
    simp only [current_history]
    exact ⟨rfl, rfl, hactive⟩

theorem inStep_reset {baseGeometry : Geometry} (hactive : draft.state = .active)
    : InStep (draft.step (now, .reset baseGeometry))
        (Editor.step draft.history (now, .reset baseGeometry)) := by
  have hrun := @run_reset now draft baseGeometry hactive
  simp only [Editor.step]
  cases hbase : validateGeometry baseGeometry with
  | ok _ =>
    rw [hbase] at hrun
    rw [step_of_run_ok (.reset baseGeometry) hrun]
    exact ⟨rfl, history_afterReset baseGeometry, hactive⟩
  | error e =>
    rw [hbase] at hrun
    rw [step_of_run_error (.reset baseGeometry) hrun]
    simp only [current_history]
    exact ⟨rfl, rfl, hactive⟩

theorem inStep {input : Timestamp × Command} (hactive : draft.state = .active)
    (hfresh : draft.Fresh input) : InStep (draft.step input) (Editor.step draft.history input) := by
  obtain ⟨now, command⟩ := input
  cases command with
  | apply operationId operation => apply inStep_apply hactive hfresh
  | undo => apply inStep_undo hactive
  | redo => apply inStep_redo hactive
  | reset baseGeometry => apply inStep_reset hactive

theorem trace_eq_editor {inputs : List (Timestamp × Command)} (hactive : draft.state = .active)
    (hfresh : Always step Fresh draft inputs)
    : trace step draft inputs = trace Editor.step draft.history inputs
        ∧ (finalState step draft inputs).history = finalState Editor.step draft.history inputs
        ∧ (finalState step draft inputs).state = .active := by
  apply hfresh.related (R := fun draft h => draft.history = h ∧ draft.state = .active)
  . rintro draft _ input _ ⟨rfl, hactive⟩ hfresh
    have h := inStep hactive hfresh
    exact ⟨h.answer, h.history, h.active⟩
  . exact ⟨rfl, hactive⟩

theorem mem_operations_of_edited {command : Command} {id : OperationId}
    (hedited : Edited now draft command draft') (hmem : id ∈ draft'.operations.map (·.id))
    : id ∈ draft.operations.map (·.id) ∨ command.operationId? = some id := by
  obtain ⟨entry, hentry, rfl⟩ := List.mem_map.mp hmem
  cases source_of_edited hedited hentry with
  | inl hold =>
    obtain ⟨old, hmem, hid, _⟩ := hold
    apply Or.inl
    rw [← hid]
    exact List.mem_map_of_mem hmem
  | inr hnew =>
    apply Or.inr
    rw [hnew, Command.operationId?]

theorem mem_operations_step {input : Timestamp × Command} {id : OperationId}
    (hmem : id ∈ (draft.step input).1.operations.map (·.id))
    : id ∈ draft.operations.map (·.id) ∨ input.2.operationId? = some id := by
  obtain ⟨now, command⟩ := input
  rcases command.exec_cases now draft.revision draft with ⟨_, herr⟩ | ⟨_, _, _, hedited, hok⟩
  . rw [step_of_run_error command herr] at hmem
    exact .inl hmem
  . rw [step_of_run_ok command hok] at hmem
    exact mem_operations_of_edited hedited hmem

theorem always_fresh {inputs : List (Timestamp × Command)} (hnodup : (operationIds inputs).Nodup)
    (hnew : ∀ id ∈ operationIds inputs, id ∉ draft.operations.map (·.id))
    : Always step Fresh draft inputs := by
  induction inputs generalizing draft with
  | nil => trivial
  | cons input inputs ih =>
    cases hid : input.2.operationId? with
    | none =>
      simp only [operationIds, List.filterMap_cons, hid] at hnodup hnew
      constructor
      . rw [Fresh]
        split
        . next heq => simp [heq, Command.operationId?] at hid
        . trivial
      . apply ih hnodup
        intro id hmem hold
        cases mem_operations_step hold with
        | inl hold => apply hnew id hmem hold
        | inr hinput => simp [hid] at hinput
    | some operationId =>
      simp only [operationIds, List.filterMap_cons, hid, List.nodup_cons] at hnodup hnew
      constructor
      . rw [Fresh]
        split
        . next heq =>
          simp only [heq, Command.operationId?, Option.some.injEq] at hid
          rw [hid]
          apply hnew
          exact List.mem_cons_self
        . trivial
      . apply ih hnodup.2
        intro id hmem hold
        cases mem_operations_step hold with
        | inl hold => apply hnew id (List.mem_cons_of_mem _ hmem) hold
        | inr hinput =>
          simp only [hid, Option.some.injEq] at hinput
          apply hnodup.1
          rw [hinput]
          exact hmem

end RouteDraft

namespace Editor

theorem origin_step (h : Linear Geometry) (input : Timestamp × Command)
    : (step h input).1.origin
        =
      match input.2, (step h input).2.1 with
      | .reset baseGeometry, .ok _ => baseGeometry
      | _, _ => h.origin := by
  obtain ⟨now, command⟩ := input
  cases command with
  | apply operationId operation =>
    simp only [step]
    split
    . simp
    . rfl
  | undo =>
    simp only [step]
    cases hu : h.undo? with
    | none => rfl
    | some g => exact Linear.origin_undo? hu
  | redo =>
    simp only [step]
    cases hr : h.redo? with
    | none => rfl
    | some g => exact Linear.origin_redo? hr
  | reset baseGeometry =>
    simp only [step]
    cases validateGeometry baseGeometry with
    | ok _ => rfl
    | error e => rfl

theorem run_repeated {command : Command} {move : Linear Geometry → Option (Linear Geometry)}
    (hmove : ∀ h f now, move h = some f → step h (now, command) = (f, .ok (), f.current))
    {times : List Timestamp} {h g : Linear Geometry} (hg : h.moveTimes move times.length = some g)
    : (∀ answer ∈ trace step h (RouteDraft.repeated command times), answer.1 = .ok ())
        ∧ finalState step h (RouteDraft.repeated command times) = g := by
  induction times generalizing h with
  | nil =>
    simp only [Linear.moveTimes, List.length_nil, Option.some.injEq] at hg
    exact ⟨by simp [trace, RouteDraft.repeated], hg⟩
  | cons now times ih =>
    rw [List.length_cons, Linear.moveTimes] at hg
    cases hf : move h with
    | none => simp [hf] at hg
    | some f =>
      rw [hf, Option.bind_some] at hg
      have hstep := hmove h f now hf
      simp only [RouteDraft.repeated, List.map_cons, trace, finalState_cons, hstep, List.mem_cons,
        forall_eq_or_imp, true_and]
      exact ih hg

theorem step_undo {h f : Linear Geometry} (now : Timestamp) (hf : h.undo? = some f)
    : step h (now, .undo) = (f, .ok (), f.current) := by
  simp only [step, hf]

theorem step_redo {h f : Linear Geometry} (now : Timestamp) (hf : h.redo? = some f)
    : step h (now, .redo) = (f, .ok (), f.current) := by
  simp only [step, hf]

end Editor

namespace RouteDraft

theorem baseline_eq_origin {inputs : List (Timestamp × Command)} (hactive : draft.state = .active)
    (hfresh : Always step Fresh draft inputs)
    : baseline draft.history.origin draft inputs = (finalState step draft inputs).history.origin := by
  induction inputs generalizing draft with
  | nil => rfl
  | cons input inputs ih =>
    have hstep := inStep hactive hfresh.1
    have horigin := Editor.origin_step draft.history input
    rw [finalState_cons, ← ih hstep.active hfresh.2, hstep.history, horigin, ← hstep.answer, baseline]
    split
    . rfl
    . rfl

theorem always_fresh_repeated {command : Command} (hid : command.operationId? = none)
    (times : List Timestamp) : Always step Fresh draft (repeated command times) := by
  have hids : operationIds (repeated command times) = [] := by
    rw [operationIds, List.filterMap_eq_nil_iff]
    intro input hmem
    obtain ⟨_, _, rfl⟩ := List.mem_map.mp hmem
    exact hid
  apply always_fresh
  . rw [hids]
    exact List.nodup_nil
  . simp [hids]

theorem run_repeated {command : Command} (hid : command.operationId? = none)
    {move : Linear Geometry → Option (Linear Geometry)}
    (hmove : ∀ h f now, move h = some f → Editor.step h (now, command) = (f, .ok (), f.current))
    {times : List Timestamp} {g : Linear Geometry} (hactive : draft.state = .active)
    (hg : draft.history.moveTimes move times.length = some g)
    : (∀ answer ∈ trace step draft (repeated command times), answer.1 = .ok ())
        ∧ (finalState step draft (repeated command times)).history = g
        ∧ (finalState step draft (repeated command times)).state = .active := by
  obtain ⟨htrace, hhistory, hstate⟩ :=
    trace_eq_editor hactive (always_fresh_repeated hid times)
  obtain ⟨hok, hfinal⟩ := Editor.run_repeated hmove hg
  rw [htrace, hhistory]
  exact ⟨hok, hfinal, hstate⟩

theorem origin_of_undo_all {times : List Timestamp} (hactive : draft.state = .active)
    (hlen : times.length = draft.appliedOperations.length)
    : (∀ answer ∈ trace step draft (repeated .undo times), answer.1 = .ok ())
        ∧ (finalState step draft (repeated .undo times)).geometry = draft.history.origin := by
  have hle : times.length ≤ draft.history.cursor := Nat.le_of_eq hlen
  obtain ⟨g, hg, hstates, hcursor⟩ := Linear.undo_isSome hle
  obtain ⟨hok, hhistory, _⟩ := run_repeated rfl (fun _ _ now => Editor.step_undo now) hactive hg
  refine ⟨hok, ?_⟩
  have hzero : g.cursor = 0 := by
    rw [cursor_history] at hcursor
    omega
  rw [← current_history, hhistory, Linear.current_of_cursor_eq_zero hzero]
  simp [Linear.origin, hstates]

theorem geometry_of_undo_redo {undos redos : List Timestamp} (hactive : draft.state = .active)
    (hle : undos.length ≤ draft.appliedOperations.length) (hlen : redos.length = undos.length)
    : (∀ answer ∈ trace step draft (repeated .undo undos ++ repeated .redo redos), answer.1 = .ok ())
        ∧ (finalState step draft (repeated .undo undos ++ repeated .redo redos)).geometry
            = draft.geometry := by
  obtain ⟨g, hg, _⟩ := Linear.undo_isSome (h := draft.history) hle
  obtain ⟨hundo, hhistory, hactive'⟩ := run_repeated rfl (fun _ _ now => Editor.step_undo now) hactive hg
  have hback : (finalState step draft (repeated .undo undos)).history.moveTimes Linear.redo?
      redos.length = some draft.history := by
    rw [hhistory, hlen]
    exact Linear.redo_undo hg
  obtain ⟨hredo, hrestored, _⟩ :=
    run_repeated rfl (fun _ _ now => Editor.step_redo now) hactive' hback
  constructor
  . rw [trace_append]
    intro answer hmem
    cases List.mem_append.mp hmem with
    | inl h => exact hundo answer h
    | inr h => exact hredo answer h
  . rw [finalState_append, ← current_history, hrestored, current_history]

/--
A new draft and the editor that starts with the same geometry answer all commands alike. What the
commands have led to can be undone back to the last reset, and undone and redone without a trace.
-/
theorem undo_redo_linear_history (id : RouteDraftId) (ownerId : Identity.UserId)
    (activityId : ActivityCatalog.ActivityId) (baseRouteVersionId : Option Uuid) (g : Geometry)
    (hcreate : createFromGeometry id now ownerId activityId baseRouteVersionId g = .ok draft)
    (inputs : List (Timestamp × Command)) (hnodup : (operationIds inputs).Nodup)
    : trace step draft inputs = trace Editor.step (.start g) inputs
        ∧ (∀ times : List Timestamp,
            times.length = (finalState step draft inputs).appliedOperations.length
              →
            (∀ answer ∈ trace step (finalState step draft inputs) (repeated .undo times),
                answer.1 = .ok ())
              ∧ (finalState step draft (inputs ++ repeated .undo times)).geometry
                  = baseline g draft inputs)
        ∧ ∀ undos redos : List Timestamp,
            undos.length ≤ (finalState step draft inputs).appliedOperations.length
              → redos.length = undos.length
              →
            (∀ answer ∈ trace step (finalState step draft inputs)
                (repeated .undo undos ++ repeated .redo redos), answer.1 = .ok ())
              ∧ (finalState step draft (inputs ++ (repeated .undo undos ++ repeated .redo redos))).geometry
                  = (finalState step draft inputs).geometry := by
  rw [createFromGeometry_eq_ok_iff] at hcreate
  obtain ⟨_, hdraft⟩ := hcreate
  have hactive : draft.state = .active := by rw [hdraft]
  have hstart : draft.history = .start g := by
    rw [hdraft]
    apply Linear.ext rfl rfl
  have hfresh : Always step Fresh draft inputs := by
    apply always_fresh hnodup
    simp [hdraft, operations]
  obtain ⟨htrace, hhistory, hactive'⟩ := trace_eq_editor hactive hfresh
  rw [hstart] at htrace
  refine ⟨htrace, ?_, ?_⟩
  . intro times hlen
    have hbaseline := baseline_eq_origin hactive hfresh
    rw [hstart, Linear.origin_start] at hbaseline
    rw [finalState_append, hbaseline]
    exact origin_of_undo_all hactive' hlen
  . intro undos redos hle hlen
    rw [finalState_append]
    exact geometry_of_undo_redo hactive' hle hlen

theorem undo_redo_linear_history_sampleDraft
    : trace step sampleDraft [
        (1000, .apply ⟨⟨10⟩⟩ (.movePoint ⟨0⟩ ⟨1⟩ (samplePoint 50).coordinate)),
        (2000, .apply ⟨⟨11⟩⟩ (.deletePoint ⟨0⟩ ⟨2⟩)),
        (3000, .undo)
      ] = trace Editor.step (.start sampleGeometry) [
        (1000, .apply ⟨⟨10⟩⟩ (.movePoint ⟨0⟩ ⟨1⟩ (samplePoint 50).coordinate)),
        (2000, .apply ⟨⟨11⟩⟩ (.deletePoint ⟨0⟩ ⟨2⟩)),
        (3000, .undo)
      ] := by
  apply (undo_redo_linear_history ⟨⟨1⟩⟩ ⟨⟨3⟩⟩ ⟨⟨2⟩⟩ none sampleGeometry rfl _ _).1
  decide

end RouteDraft

end RouteEditing
