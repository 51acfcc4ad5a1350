import Haiker.Imports.Lemmas.Copies
import Haiker.Imports.Redelivery

/-!
This module contains when the stored status of an import follows its state machine. The checks are made
on a copy, and the writes do not ask for the status that is stored.
-/

open Rust
open Interleaving

namespace Imports

def Database.statusOf (db : Database) (id : Uuid) : Option ImportStatus :=
  (db.imports.find? id).map fun row => parseStatus row.status

-- the status that the next command stores for the import, if it goes through
def Client.writes (client : Client) (id : Uuid) (db : Database) : Option ImportStatus :=
  match client.program.command? with
  | some (.update imp) =>
    if imp.id.val = id ∧ (PgImportRepository.update imp db.imports).isOk then some imp.status else none
  | some (.commit externals data) =>
    if data.importId.val = id ∧ (outcome (PgImportCommitter.commit externals data) db).isOk then
      some .completed
    else
      none
  | _ => none

section Run

variable {ι : Type} [DecidableEq ι] (id : Uuid) (c : Config Database Client ι) (i : ι)

-- the stored status follows the edges, and a final one stays
def FollowsEdges : Prop :=
  ∀ status, c.shared.statusOf id = some status →
    ∃ status', (fire Client.step c i).shared.statusOf id = some status'
      ∧ (status' ≠ status → Relation.TransGen ImportStatus.Edge status status')
      ∧ (status.isTerminal = true → status' = status)

-- what is written is stored already, or the import is in progress and has not come that far
def WritesInOrder : Prop :=
  ∀ status written, c.shared.statusOf id = some status → (c.clients i).writes id c.shared = some written →
    written = status ∨ status.Before written

-- if others have moved the import on since the client took its copy, it is still in progress and has not
-- come as far as what the client writes, unless that is stored already
def NotOvertaken : Prop :=
  ∀ status written copy, c.shared.statusOf id = some status →
    (c.clients i).writes id c.shared = some written → (c.clients i).known id = some copy →
      status ≠ copy.status → written = status ∨ status.isTerminal = false ∧ status.rank < written.rank

end Run

variable {client : Client} {db db' : Database} {id : Uuid}

theorem statusOf_update {imp : Import} {imports : ImportTable}
    (h : PgImportRepository.update imp db.imports = .ok imports) (id : Uuid)
    : ({ db with imports } : Database).statusOf id
        = (db.statusOf id).map fun status => if imp.id.val = id then imp.status else status := by
  unfold Database.statusOf
  simp only
  rw [PgImportRepository.find?_update h]
  cases hrow : db.imports.find? id with
  | none => rfl
  | some row =>
    have hid : row.id = id := Sql.Table.key_of_find? hrow
    simp only [Option.map_some, hid, Option.some.injEq]
    by_cases himp : id = imp.id.val
    . rw [if_pos himp, if_pos himp.symm, status_setImport]
    . rw [if_neg himp, if_neg (Ne.symm himp)]

theorem statusOf_committed {externals : CommitExternals} {data : ImportCommitData}
    (h : PgImportCommitter.Committed externals data db db') (id : Uuid)
    : db'.statusOf id
        = (db.statusOf id).map fun status => if data.importId.val = id then .completed else status := by
  unfold Database.statusOf
  rw [PgImportCommitter.find?_completeImport h.imports]
  cases hrow : db.imports.find? id with
  | none => rfl
  | some row =>
    have hid : row.id = id := Sql.Table.key_of_find? hrow
    simp only [Option.map_some, hid, Option.some.injEq]
    by_cases hdata : id = data.importId.val
    . rw [if_pos hdata, if_pos hdata.symm]
      rfl
    . rw [if_neg hdata, if_neg (Ne.symm hdata)]

theorem statusOf_step (client : Client) (db : Database) (id : Uuid)
    : (client.step db).1.statusOf id
        = (db.statusOf id).map fun status => (client.writes id db).getD status := by
  obtain ⟨storage, program⟩ := client
  have hkept : db.statusOf id = (db.statusOf id).map fun status => (none : Option ImportStatus).getD status := by
    simp
  cases program with
  | done result => exact hkept
  | ask command next =>
    cases command with
    | findById | findAbandoned | download | verifyUpload | check => exact hkept
    | update imp =>
      simp only [Client.step, Program.step, Client.writes, Program.command?]
      cases hupdate : PgImportRepository.update imp db.imports with
      | error e =>
        rw [answer_update_of_error storage hupdate]
        simp [Except.isOk, Except.toBool]
      | ok imports =>
        rw [answer_update_of_ok storage hupdate, statusOf_update hupdate]
        congr
        funext status
        by_cases himp : imp.id.val = id
        . simp [himp, Except.isOk, Except.toBool]
        . simp [himp]
    | commit externals data =>
      simp only [Client.step, Program.step, Client.writes, Program.command?]
      obtain ⟨e, hrun⟩ | ⟨db', hrun, hcommitted⟩ := PgImportCommitter.commit_cases externals data db
      . simp only [answer, outcome_of_run_error hrun, after_of_run_error hrun]
        simp [Except.isOk, Except.toBool]
      . simp only [answer, outcome_of_run_ok hrun, after_of_run_ok hrun]
        rw [statusOf_committed hcommitted]
        congr
        funext status
        by_cases hdata : data.importId.val = id
        . simp [hdata, Except.isOk, Except.toBool]
        . simp [hdata]

theorem followsEdges_iff {ι : Type} [DecidableEq ι] (id : Uuid) (c : Config Database Client ι) (i : ι)
    : FollowsEdges id c i ↔ WritesInOrder id c i := by
  have hstep : (fire Client.step c i).shared.statusOf id
      = (c.shared.statusOf id).map fun status => ((c.clients i).writes id c.shared).getD status :=
    statusOf_step (c.clients i) c.shared id
  constructor
  . intro h status written hstatus hwritten
    obtain ⟨status', hstatus', hpath, _⟩ := h status hstatus
    rw [hstep, hstatus, hwritten] at hstatus'
    obtain rfl : written = status' := Option.some.inj hstatus'
    by_cases hsame : written = status
    . exact .inl hsame
    . exact .inr (ImportStatus.path_iff_before.mp (hpath hsame))
  . intro h status hstatus
    rw [hstatus, Option.map_some] at hstep
    refine ⟨_, hstep, ?_⟩
    cases hwritten : (c.clients i).writes id c.shared with
    | none => exact ⟨fun hne => absurd rfl hne, fun _ => rfl⟩
    | some written =>
      obtain hsame | hbefore := h status written hstatus hwritten
      . exact ⟨fun hne => absurd hsame hne, fun _ => hsame⟩
      . refine ⟨fun _ => ImportStatus.path_iff_before.mpr hbefore, ?_⟩
        intro hterminal
        rw [hbefore.1] at hterminal
        cases hterminal

theorem before_of_writes {actor : Actor} {written : ImportStatus}
    (h : client.program.Tracks (Asks actor) Tells Known.learn (fun _ _ => True) client.known)
    (hwrites : client.writes id db = some written)
    : ∃ copy, client.known id = some copy ∧ copy.status.Before written := by
  unfold Client.writes at hwrites
  split at hwrites
  . next imp hcommand =>
    split at hwrites
    . next hid =>
      obtain rfl := Option.some.inj hwrites
      obtain ⟨copy, hcopy, hfrom⟩ := h.asks_of_command hcommand
      rw [hid.1] at hcopy
      exact ⟨copy, hcopy, hfrom.before⟩
    . cases hwrites
  . next externals data hcommand =>
    split at hwrites
    . next hid =>
      obtain rfl := Option.some.inj hwrites
      obtain ⟨copy, hcopy, hfrom⟩ := h.asks_of_command hcommand
      rw [hid.1] at hcopy
      refine ⟨copy, hcopy, ?_⟩
      rw [hfrom.committing]
      decide
    . cases hwrites
  . cases hwrites

section Run

variable {ι : Type} [DecidableEq ι] {actors : ι → Actor} {c : Config Database Client ι} {i : ι}

theorem writesInOrder_iff (h : Tracking actors c) : WritesInOrder id c i ↔ NotOvertaken id c i := by
  constructor
  . intro h' status written _ hstatus hwrites _ _
    exact h' status written hstatus hwrites
  . intro h' status written hstatus hwrites
    obtain ⟨copy, hcopy, hbefore⟩ := before_of_writes (h i) hwrites
    by_cases hsame : status = copy.status
    . rw [hsame]
      exact .inr hbefore
    . exact h' status written copy hstatus hwrites hcopy hsame

end Run

inductive SampleActor where
  | worker
  | otherWorker
  | cleaner
  deriving DecidableEq

def sampleActors : SampleActor → Actor
  | .worker | .otherWorker => .worker sampleExternals sampleJob
  | .cleaner => .cleaner (2 * ABANDONED_TIMEOUT)

def sampleWaiting : Database := { sampleImports with imports := sampleQueue }

def sampleConfig : Config Database Client SampleActor :=
  ⟨sampleWaiting, fun i => .start sampleStorage (sampleActors i)⟩

-- the cleaner looks for abandoned imports, and then the worker gets to the end
def sampleCompletion : List SampleActor := .cleaner :: List.replicate 7 .worker

end Imports
