import Haiker.Exports.RequestExport
import Haiker.Imports.Idempotency
import Haiker.Rust.UuidText

/-!
This module contains when requests of exports under the same keys at the same time are answered as if they
came one after the other, and with it the same of both commands that take an idempotency key.
-/

open Rust
open Interleaving

namespace Exports

/-
What a call does command by command.
-/

namespace Requester

open ExportRepository

variable (externals : RequestExternals) (cmd : RequestExportCommand)

def saving (job : ExportJob) : Program RequestCommand.Reply (Except ExportError ExportJob) :=
  .ask (.save job) fun reply => .done (reply.map fun _ => job)

-- the export is new, and the gateway is asked first
def creating : Program RequestCommand.Reply (Except ExportError ExportJob) :=
  .ask (.verifyOwnedRouteVersion cmd.activityId cmd.routeVersionId cmd.ownerId) fun reply =>
    match reply with
    | .error e => .done (.error e)
    | .ok _ =>
      match newExport externals cmd with
      | .ok job => saving job
      | .error e => .done (.error e)

-- the replies of the lookup
def found (reply : Except ExportError (Option ExportJob))
    : Program RequestCommand.Reply (Except ExportError ExportJob) :=
  match reply with
  | .error e => .done (.error e)
  | .ok none => creating externals cmd
  | .ok (some existing) => .done (replay externals cmd existing)

variable {externals cmd}

theorem run_create : (create externals cmd).run = creating externals cmd := by
  unfold create creating
  show Program.ask _ _ = Program.ask _ _
  congr 1
  funext reply
  cases reply with
  | error e => rfl
  | ok _ =>
    cases newExport externals cmd with
    | error e => rfl
    | ok job =>
      show Program.ask _ _ = saving job
      unfold saving
      congr 1
      funext reply
      cases reply with
      | error e => rfl
      | ok _ => rfl

theorem run_handleRequestExport
    : (handleRequestExport externals cmd).run
        = if trim cmd.idempotencyKey = "" then
            .done (.error (.validationFailed "idempotency key must not be empty"))
          else
            .ask (.findByIdempotencyKey cmd.ownerId cmd.idempotencyKey) (found externals cmd) := by
  unfold handleRequestExport
  split
  . rfl
  . show Program.ask _ _ = Program.ask _ _
    congr 1
    funext reply
    cases reply with
    | error e => rfl
    | ok existing =>
      cases existing with
      | none => exact run_create
      | some existing => rfl

variable {exportJobs exportJobs' : ExportTable} {requester : Requester} {row job : ExportJob}

-- an export that a call has made, not stored yet
structure Makes (requester : Requester) (job : ExportJob) : Prop where
  slot : keySlot job = requester.slot
  payloadHash : job.payloadHash = some (requester.cmd.payloadHash requester.externals)

theorem makes_of_newExport (h : newExport requester.externals requester.cmd = .ok job)
    : requester.Makes job := by
  unfold newExport ExportJob.new at h
  split at h
  . cases h
  . obtain rfl := Except.ok.inj h
    exact ⟨rfl, rfl⟩

theorem newExport_isOk (h : trim requester.cmd.idempotencyKey ≠ "")
    : ∃ job, newExport requester.externals requester.cmd = .ok job := by
  unfold newExport ExportJob.new
  rw [if_neg h]
  exact ⟨_, rfl⟩

/-
What the table says about a key.
-/

theorem ownerKey_eq (row : ExportJob) : ownerKey row = some (keySlot row) := rfl

theorem findByIdempotencyKey_eq_some
    (h : ExportRepository.findByIdempotencyKey requester.cmd.ownerId requester.cmd.idempotencyKey exportJobs
      = some row)
    : row ∈ exportJobs.rows ∧ keySlot row = requester.slot := by
  unfold ExportRepository.findByIdempotencyKey at h
  have hslot := List.find?_some h
  rw [decide_eq_true_eq] at hslot
  exact ⟨List.mem_of_find?_eq_some h, hslot⟩

theorem save_cases (refusal : String) (job : ExportJob) (exportJobs : ExportTable)
    : ExportRepository.save refusal job exportJobs = .error (.persistenceError refusal)
        ∨ ∃ exportJobs', ExportRepository.save refusal job exportJobs = .ok exportJobs'
          ∧ exportJobs.insert? job = some exportJobs' ∧ exportJobs.clashes ownerKey job = false := by
  unfold ExportRepository.save
  split
  . exact .inl rfl
  . next hfree =>
    split
    . next hinsert => exact .inr ⟨_, rfl, hinsert, by simpa using hfree⟩
    . exact .inl rfl

theorem save_isOk_iff (refusal : String) (hmakes : requester.Makes job)
    : (∃ exportJobs', ExportRepository.save refusal job exportJobs = .ok exportJobs')
        ↔ exportJobs.Vacant keySlot requester.slot job.id := by
  rw [← hmakes.slot, Sql.Table.vacant_iff ownerKey_eq]
  constructor
  . rintro ⟨exportJobs', hok⟩
    rcases save_cases refusal job exportJobs with hsave | ⟨_, _, hinsert, hfree⟩
    . rw [hsave] at hok
      cases hok
    . exact ⟨hfree, _, hinsert⟩
  . rintro ⟨hfree, exportJobs', hinsert⟩
    refine ⟨exportJobs', ?_⟩
    unfold ExportRepository.save
    rw [hfree, hinsert]
    rfl

theorem indexed_step (refusal : String) (requester : Requester) (h : exportJobs.Indexed ownerKey)
    : (requester.step refusal exportJobs).1.Indexed ownerKey := by
  obtain ⟨externals, cmd, verdict, program⟩ := requester
  cases program with
  | done result => exact h
  | ask command next =>
    cases command with
    | findByIdempotencyKey | verifyOwnedRouteVersion => exact h
    | save job =>
      simp only [step, Program.step, answer]
      rcases save_cases refusal job exportJobs with hsave | ⟨exportJobs', hsave, hinsert, hfree⟩
      . rw [hsave]
        exact h
      . rw [hsave]
        exact h.insert? hinsert hfree

/--
How far a call has come.
-/
inductive Pending (requester : Requester) : Prop where
  | looking (hkey : trim requester.cmd.idempotencyKey ≠ "")
    (hprogram : requester.program
      = .ask (.findByIdempotencyKey requester.cmd.ownerId requester.cmd.idempotencyKey)
        (found requester.externals requester.cmd))
  | creating (hkey : trim requester.cmd.idempotencyKey ≠ "")
    (hprogram : requester.program = Requester.creating requester.externals requester.cmd)
  | saving {job : ExportJob} (hverdict : requester.verdict = .ok ()) (hmakes : requester.Makes job)
    (hprogram : requester.program = Requester.saving job)
  | returned {result : Except ExportError ExportJob} (hprogram : requester.program = .done result)

theorem pending_start (externals : RequestExternals) (cmd : RequestExportCommand)
    (verdict : Except ExportError Unit) : Pending (start externals cmd verdict) := by
  by_cases hkey : trim cmd.idempotencyKey = ""
  . apply Pending.returned
    show (handleRequestExport externals cmd).run = _
    rw [run_handleRequestExport, if_pos hkey]
  . apply Pending.looking
    . exact hkey
    . show (handleRequestExport externals cmd).run = _
      rw [run_handleRequestExport, if_neg hkey]
      rfl

theorem Pending.step (h : Pending requester) (refusal : String) (exportJobs : ExportTable)
    : Pending (requester.step refusal exportJobs).2 := by
  cases h with
  | looking hkey hprogram =>
    simp only [Requester.step, hprogram, Program.step, answer]
    cases ExportRepository.findByIdempotencyKey requester.cmd.ownerId requester.cmd.idempotencyKey
        exportJobs with
    | none => exact .creating hkey rfl
    | some existing => exact .returned rfl
  | creating hkey hprogram =>
    simp only [Requester.step, hprogram, Requester.creating, Program.step, answer]
    cases requester.verdict with
    | error e => exact .returned rfl
    | ok _ =>
      cases hnew : newExport requester.externals requester.cmd with
      | error e => exact .returned rfl
      | ok job =>
        have hmakes := makes_of_newExport hnew
        exact .saving rfl ⟨hmakes.slot, hmakes.payloadHash⟩ rfl
  | saving hverdict hmakes hprogram =>
    simp only [Requester.step, hprogram]
    exact .returned rfl
  | returned hprogram =>
    simp only [Requester.step, hprogram]
    exact .returned rfl

/-
What a call returns.
-/

theorem replays_replay (h : exportJobs.Indexed ownerKey) (hrow : row ∈ exportJobs.rows)
    (hslot : keySlot row = requester.slot)
    : requester.Replays exportJobs (replay requester.externals requester.cmd row) := by
  have hholds := h.holds ownerKey_eq hrow
  rw [hslot] at hholds
  refine ⟨row, hholds, ?_⟩
  unfold replay
  split
  . rfl
  . rfl

theorem replays_of_save (h : exportJobs.Indexed ownerKey) (hmakes : requester.Makes job)
    {refusal : String} (hsave : ExportRepository.save refusal job exportJobs = .ok exportJobs')
    : requester.Replays exportJobs' (.ok job) := by
  rcases save_cases refusal job exportJobs with herror | ⟨inserted, hok, hinsert, hfree⟩
  . rw [herror] at hsave
    cases hsave
  . rw [hok] at hsave
    obtain rfl := Except.ok.inj hsave
    have hholds := h.holds_insert? ownerKey_eq hinsert hfree
    rw [hmakes.slot] at hholds
    refine ⟨job, hholds, ?_⟩
    rw [hmakes.payloadHash]
    simp only [Option.any_some, ne_eq, not_true, decide_false, Bool.false_eq_true, if_false]

theorem not_replays_persistenceError (message : String)
    : ¬requester.Replays exportJobs (.error (.persistenceError message)) := by
  rintro ⟨_, _, hresult⟩
  split at hresult
  . cases hresult
  . cases hresult

end Requester

section Run

variable {ι : Type} [DecidableEq ι] {refusal : String} {c : Config ExportTable Requester ι} {i : ι}

theorem returnsReplay_iff (hindexed : c.shared.Indexed ExportRepository.ownerKey)
    (hpending : (c.clients i).Pending) : ReturnsReplay refusal c i ↔ SavesFirst c i := by
  have hshared : (fire (Requester.step refusal) c i).shared = ((c.clients i).step refusal c.shared).1 := rfl
  unfold ReturnsReplay SavesFirst
  rw [hshared]
  generalize c.clients i = requester at *
  generalize c.shared = exportJobs at *
  cases hpending with
  | looking hkey hprogram =>
    refine iff_of_true ?_ ?_
    . intro hverdict result hreturns
      simp only [Requester.step, hprogram, Program.step, Requester.answer]
      simp only [Requester.returns, hprogram, Requester.answer] at hreturns
      cases hfound : ExportRepository.findByIdempotencyKey requester.cmd.ownerId
          requester.cmd.idempotencyKey exportJobs with
      | none =>
        rw [hfound] at hreturns
        cases hreturns
      | some existing =>
        rw [hfound] at hreturns
        obtain rfl := Option.some.inj hreturns
        obtain ⟨hrow, hslot⟩ := Requester.findByIdempotencyKey_eq_some hfound
        exact Requester.replays_replay hindexed hrow hslot
    . rw [hprogram]
      intro job hcommand
      cases hcommand
  | creating hkey hprogram =>
    refine iff_of_true ?_ ?_
    . intro hverdict result hreturns
      obtain ⟨job, hnew⟩ := Requester.newExport_isOk hkey
      simp only [Requester.returns, hprogram, Requester.creating, Requester.answer, hverdict, hnew,
        Requester.saving] at hreturns
      cases hreturns
    . rw [hprogram]
      intro job hcommand
      cases hcommand
  | @saving job hverdict hmakes hprogram =>
    constructor
    . intro h other hcommand
      rw [hprogram] at hcommand
      obtain rfl : job = other := RequestCommand.save.inj (Option.some.inj hcommand)
      rcases Requester.save_cases refusal job exportJobs with hsave | ⟨exportJobs', hsave, _⟩
      . have hreturns : requester.returns refusal exportJobs = some (.error (.persistenceError refusal)) := by
          simp only [Requester.returns, hprogram, Requester.saving, Requester.answer, hsave]
          rfl
        have hreplays := h hverdict _ hreturns
        exact absurd hreplays (Requester.not_replays_persistenceError refusal)
      . exact (Requester.save_isOk_iff refusal hmakes).mp ⟨exportJobs', hsave⟩
    . intro h _ result hreturns
      obtain ⟨exportJobs', hsave⟩ := (Requester.save_isOk_iff refusal hmakes).mpr (h job (by rw [hprogram]; rfl))
      simp only [Requester.returns, hprogram, Requester.saving, Requester.answer, hsave] at hreturns
      obtain rfl := Option.some.inj hreturns
      simp only [Requester.step, hprogram, Requester.saving, Program.step, Requester.answer, hsave]
      exact Requester.replays_of_save hindexed hmakes hsave
  | returned hprogram =>
    refine iff_of_true ?_ ?_
    . intro hverdict result hreturns
      simp only [Requester.returns, hprogram] at hreturns
      cases hreturns
    . rw [hprogram]
      intro job hcommand
      cases hcommand

theorem returnsReplay_along_iff (refusal : String)
    (calls : ι → RequestExternals × RequestExportCommand × Except ExportError Unit)
    (exportJobs : ExportTable) (hindexed : exportJobs.Indexed ExportRepository.ownerKey)
    (schedule : List ι)
    : Along (Requester.step refusal) (ReturnsReplay refusal)
          ⟨exportJobs, fun i => .start (calls i).1 (calls i).2.1 (calls i).2.2⟩ schedule
        ↔ Along (Requester.step refusal) SavesFirst
          ⟨exportJobs, fun i => .start (calls i).1 (calls i).2.1 (calls i).2.2⟩ schedule := by
  have h : Holds (fun exportJobs => exportJobs.Indexed ExportRepository.ownerKey)
      (fun _ _ requester => requester.Pending)
      (⟨exportJobs, fun i => .start (calls i).1 (calls i).2.1 (calls i).2.2⟩
        : Config ExportTable Requester ι) :=
    ⟨hindexed, fun i => Requester.pending_start (calls i).1 (calls i).2.1 (calls i).2.2⟩
  refine Holds.along_congr (Requester.step refusal) ?_ ?_ ?_ h schedule
  . intro i exportJobs requester hindexed hpending
    exact ⟨Requester.indexed_step refusal requester hindexed, hpending.step refusal exportJobs⟩
  . intro i j exportJobs requester other _ _ _ hpending
    exact hpending
  . intro c i h
    exact returnsReplay_iff h.1 (h.2 i)

end Run

end Exports

namespace Idempotency

section Run

variable {ι : Type} [DecidableEq ι]

/--
Calls that start imports, and calls that request exports, are answered as if the ones with the same key
came one after the other exactly if nobody is second to save under a key.
-/
theorem replays_iff_saves_first (schedule : List ι) (url : String → String)
    (starts : ι → Imports.StartExternals × Imports.StartImportCommand)
    (imports : Imports.ImportTable) (himports : imports.Indexed Imports.ownerKey) (refusal : String)
    (requests : ι → Exports.RequestExternals × Exports.RequestExportCommand × Except Exports.ExportError Unit)
    (exportJobs : Exports.ExportTable) (hexports : exportJobs.Indexed Exports.ExportRepository.ownerKey)
    : (Along (Imports.Starter.step url) (Imports.ReturnsReplay url)
            ⟨imports, fun i => .start (starts i).1 (starts i).2⟩ schedule
          ↔ Along (Imports.Starter.step url) Imports.SavesFirst
            ⟨imports, fun i => .start (starts i).1 (starts i).2⟩ schedule)
        ∧ (Along (Exports.Requester.step refusal) (Exports.ReturnsReplay refusal)
            ⟨exportJobs, fun i => .start (requests i).1 (requests i).2.1 (requests i).2.2⟩ schedule
          ↔ Along (Exports.Requester.step refusal) Exports.SavesFirst
            ⟨exportJobs, fun i => .start (requests i).1 (requests i).2.1 (requests i).2.2⟩ schedule) :=
  ⟨Imports.returnsReplay_along_iff url starts imports himports schedule,
    Exports.returnsReplay_along_iff refusal requests exportJobs hexports schedule⟩

end Run

/-
Two calls of one payload look at the same time.
-/

def sampleStart (second : Bool) : Imports.StartExternals × Imports.StartImportCommand :=
  ({
    uuidToString := Uuid.hyphenated
    sha256Hex := fun _ => "38180efe0d66e26b6367dc919383e609274edfa9f19ceba02aeea85938d352c7"
    now := 0
    importId := ⟨⟨if second then 2 else 1⟩⟩
  }, {
    ownerId := ⟨⟨7⟩⟩
    idempotencyKey := "key"
    filename := "walk.gpx"
    contentType := "application/gpx+xml"
    fileSizeBytes := 1024
  })

def sampleUrl (key : String) : String := "http://localhost:9000/" ++ key

def sampleRequest (second : Bool)
    : Exports.RequestExternals × Exports.RequestExportCommand × Except Exports.ExportError Unit :=
  ({
    sha256Hex := fun _ => "de082d1718dfbc2b6a6acd32ac8e201294cc3c0b0a1f4fdfcf71fcdfef773915"
    now := 0
    exportId := ⟨⟨if second then 2 else 1⟩⟩
  }, {
    ownerId := ⟨⟨7⟩⟩
    activityId := ⟨⟨0x30⟩⟩
    routeVersionId := ⟨⟨0x40⟩⟩
    format := .gpx
    idempotencyKey := "key"
  }, .ok ())

def sampleStarters : Config Imports.ImportTable Imports.Starter Bool :=
  ⟨.empty, fun second => .start (sampleStart second).1 (sampleStart second).2⟩

def sampleRequesters : Config Exports.ExportTable Exports.Requester Bool :=
  ⟨.empty, fun second =>
    .start (sampleRequest second).1 (sampleRequest second).2.1 (sampleRequest second).2.2⟩

def sampleRefusal : String := "duplicate key value violates unique constraint"

theorem replays_iff_saves_first_sample
    : (Along (Imports.Starter.step sampleUrl) (Imports.ReturnsReplay sampleUrl) sampleStarters
            [false, false, false, true, true]
          ↔ Along (Imports.Starter.step sampleUrl) Imports.SavesFirst sampleStarters
            [false, false, false, true, true])
        ∧ (Along (Exports.Requester.step sampleRefusal) (Exports.ReturnsReplay sampleRefusal)
            sampleRequesters [false, false, false, true, true]
          ↔ Along (Exports.Requester.step sampleRefusal) Exports.SavesFirst sampleRequesters
            [false, false, false, true, true]) :=
  replays_iff_saves_first [false, false, false, true, true] sampleUrl sampleStart .empty
    (Sql.Table.indexed_empty _) sampleRefusal sampleRequest .empty (Sql.Table.indexed_empty _)

theorem second_save_fails
    : ¬Along (Imports.Starter.step sampleUrl) (Imports.ReturnsReplay sampleUrl) sampleStarters
          [false, true, false, true, false, true]
        ∧ ¬Along (Exports.Requester.step sampleRefusal) (Exports.ReturnsReplay sampleRefusal)
          sampleRequesters [false, true, false, true, false, true] := by
  constructor
  . intro h
    have hlast : Imports.ReturnsReplay sampleUrl
        (run (Imports.Starter.step sampleUrl) sampleStarters [false, true, false, true, false]) true :=
      Along.last (Imports.Starter.step sampleUrl) h
    have hreturns : ((run (Imports.Starter.step sampleUrl) sampleStarters
          [false, true, false, true, false]).clients true).returns sampleUrl
        (run (Imports.Starter.step sampleUrl) sampleStarters [false, true, false, true, false]).shared
      = some (.error (.storageError (Imports.duplicateKey "imports_owner_id_idempotency_key_key"))) := rfl
    have hkey : trim "key" ≠ "" := by decide
    exact Imports.Starter.not_replays_storageError _ (hlast hkey _ hreturns)
  . intro h
    have hlast : Exports.ReturnsReplay sampleRefusal
        (run (Exports.Requester.step sampleRefusal) sampleRequesters [false, true, false, true, false]) true :=
      Along.last (Exports.Requester.step sampleRefusal) h
    have hreturns : ((run (Exports.Requester.step sampleRefusal) sampleRequesters
          [false, true, false, true, false]).clients true).returns sampleRefusal
        (run (Exports.Requester.step sampleRefusal) sampleRequesters
          [false, true, false, true, false]).shared
      = some (.error (.persistenceError sampleRefusal)) := rfl
    exact Exports.Requester.not_replays_persistenceError _ (hlast rfl _ hreturns)

end Idempotency
