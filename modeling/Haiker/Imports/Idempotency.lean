import Haiker.Concurrency.Interleaving
import Haiker.Imports.StartImport
import Haiker.Sql.Index

/-!
This module contains when calls that start imports under the same keys at the same time are answered as
if they came one after the other. The repository and the object storage do not fail.
-/

open Rust
open Interleaving

namespace Imports

def keySlot (row : ImportRow) : Uuid × String := (row.ownerId, row.idempotencyKey)

/--
A call with what is left of its program.
-/
structure Starter where
  externals : StartExternals
  cmd : StartImportCommand
  program : Program StartCommand.Reply (Except ImportError StartImportResult)

namespace Starter

def start (externals : StartExternals) (cmd : StartImportCommand) : Starter where
  externals
  cmd
  program := (handleStartImport externals cmd).run

def answer (url : String → String) : (command : StartCommand) → ImportTable → command.Reply × ImportTable
  | .findByIdempotencyKey ownerId key, imports =>
    (.ok (PgImportRepository.findByIdempotencyKey ownerId key imports), imports)
  | .generateUploadUrl key, imports => (.ok (url key), imports)
  | .save imp, imports =>
    match PgImportRepository.save imp imports with
    | .ok imports => (.ok (), imports)
    | .error e => (.error e, imports)

def step (url : String → String) (imports : ImportTable) (starter : Starter) : ImportTable × Starter :=
  let (imports, program) := starter.program.step (answer url) imports
  (imports, { starter with program })

-- what the next command makes the call return
def returns (url : String → String) (imports : ImportTable) (starter : Starter)
    : Option (Except ImportError StartImportResult) :=
  match starter.program with
  | .done _ => none
  | .ask command next =>
    match next (answer url command imports).1 with
    | .done result => some result
    | .ask _ _ => none

-- what the `UNIQUE` constraint of the table makes the call compete for
def slot (starter : Starter) : Uuid × String := (starter.cmd.ownerId.val, starter.cmd.idempotencyKey)

/--
There is one import under the key. If the call is of the same payload it returns it, and else that the
payloads do not match.
-/
def Replays (starter : Starter) (imports : ImportTable) (result : Except ImportError StartImportResult)
    : Prop :=
  ∃ row, imports.Holds keySlot starter.slot row
    ∧ if row.payloadHash.any (· ≠ starter.cmd.payloadHash starter.externals) then
        result = .error .idempotencyPayloadMismatch
      else
        ∃ r, result = .ok r ∧ r.imp.id.val = row.id

end Starter

section Run

variable {ι : Type} [DecidableEq ι] (url : String → String)

/--
What a call with a key returns after the step of client `i` is right.
-/
def ReturnsReplay (c : Config ImportTable Starter ι) (i : ι) : Prop :=
  trim (c.clients i).cmd.idempotencyKey ≠ "" → ∀ result,
    (c.clients i).returns url c.shared = some result →
      (c.clients i).Replays (fire (Starter.step url) c i).shared result

/--
If client `i` is about to save its import, then there is none under its key yet, nor one with its id.
-/
def SavesFirst (c : Config ImportTable Starter ι) (i : ι) : Prop :=
  ∀ imp, (c.clients i).program.command? = some (.save imp) →
    c.shared.Vacant keySlot (c.clients i).slot imp.id.val

end Run

/-
What a call does command by command.
-/

namespace Starter

variable (externals : StartExternals) (cmd : StartImportCommand)

-- the import is there already, and of the same payload
def replaying (existing : Import) : Program StartCommand.Reply (Except ImportError StartImportResult) :=
  .ask (.generateUploadUrl (storageKey externals.uuidToString cmd.ownerId existing.id)) fun reply =>
    .done (reply.map fun uploadUrl => { imp := existing, uploadUrl })

def saving (imp : Import) (uploadUrl : String)
    : Program StartCommand.Reply (Except ImportError StartImportResult) :=
  .ask (.save imp) fun reply => .done (reply.map fun _ => { imp, uploadUrl })

-- the import is new, and its upload URL is asked for first
def creating (imp : Import) : Program StartCommand.Reply (Except ImportError StartImportResult) :=
  .ask (.generateUploadUrl (storageKey externals.uuidToString cmd.ownerId imp.id)) fun reply =>
    match reply with
    | .ok uploadUrl => saving imp uploadUrl
    | .error e => .done (.error e)

-- the replies of the lookup
def found (reply : Except ImportError (Option Import))
    : Program StartCommand.Reply (Except ImportError StartImportResult) :=
  match reply with
  | .error e => .done (.error e)
  | .ok none =>
    match newImport externals cmd with
    | .error e => .done (.error e)
    | .ok imp => creating externals cmd imp
  | .ok (some existing) =>
    if existing.payloadHash.any (· ≠ cmd.payloadHash externals) then
      .done (.error .idempotencyPayloadMismatch)
    else
      replaying externals cmd existing

variable {externals cmd}

theorem run_replay (existing : Import)
    : (replay externals cmd existing).run = found externals cmd (.ok (some existing)) := by
  unfold replay
  simp only [found]
  split
  . rfl
  . show Program.ask _ _ = replaying externals cmd existing
    unfold replaying
    congr 1
    funext reply
    cases reply with
    | error e => rfl
    | ok uploadUrl => rfl

theorem run_create : (create externals cmd).run = found externals cmd (.ok none) := by
  unfold create
  simp only [found]
  cases newImport externals cmd with
  | error e => rfl
  | ok imp =>
    show Program.ask _ _ = creating externals cmd imp
    unfold creating
    congr 1
    funext reply
    cases reply with
    | error e => rfl
    | ok uploadUrl =>
      show Program.ask _ _ = saving imp uploadUrl
      unfold saving
      congr 1
      funext reply
      cases reply with
      | error e => rfl
      | ok _ => rfl

theorem run_handleStartImport
    : (handleStartImport externals cmd).run
        = match cmd.validate with
          | .error e => .done (.error e)
          | .ok () => .ask (.findByIdempotencyKey cmd.ownerId cmd.idempotencyKey) (found externals cmd) := by
  unfold handleStartImport
  cases cmd.validate with
  | error e => rfl
  | ok _ =>
    show Program.ask _ _ = Program.ask _ _
    congr 1
    funext reply
    cases reply with
    | error e => rfl
    | ok existing =>
      cases existing with
      | none => exact run_create
      | some existing => exact run_replay existing

/-
What the table says about a key.
-/

variable {imports imports' : ImportTable} {starter : Starter} {row : ImportRow} {imp : Import}

omit starter in
theorem ownerKey_eq (row : ImportRow) : ownerKey row = some (keySlot row) := rfl

theorem findByIdempotencyKey_eq_some {existing : Import}
    (h : PgImportRepository.findByIdempotencyKey starter.cmd.ownerId starter.cmd.idempotencyKey imports
      = some existing)
    : ∃ row, imports.find? existing.id.val = some row ∧ keySlot row = starter.slot
        ∧ existing.payloadHash = row.payloadHash := by
  unfold PgImportRepository.findByIdempotencyKey at h
  rw [Option.map_eq_some_iff] at h
  obtain ⟨row, hfound, rfl⟩ := h
  have hslot := List.find?_some hfound
  rw [decide_eq_true_eq] at hslot
  refine ⟨row, Sql.Table.find?_of_mem (List.mem_of_find?_eq_some hfound), ?_, rfl⟩
  rw [keySlot, slot, hslot.1, hslot.2]

-- an import that a call has made, not stored yet
structure Makes (starter : Starter) (imp : Import) : Prop where
  key : trim starter.cmd.idempotencyKey ≠ ""
  ownerId : imp.ownerId = starter.cmd.ownerId
  idempotencyKey : imp.idempotencyKey = starter.cmd.idempotencyKey
  payloadHash : imp.payloadHash = some (starter.cmd.payloadHash starter.externals)
  status : imp.status = .uploading

theorem makes_of_newImport (h : newImport starter.externals starter.cmd = .ok imp) : starter.Makes imp := by
  unfold newImport at h
  simp only [Import.new] at h
  split at h
  . cases h
  . next hkey =>
    obtain rfl := Except.ok.inj h
    exact ⟨hkey, rfl, rfl, rfl, rfl⟩

-- the program is not looked at
theorem Makes.other (h : starter.Makes imp)
    {program : Program StartCommand.Reply (Except ImportError StartImportResult)}
    : Makes { starter with program } imp := ⟨h.1, h.2, h.3, h.4, h.5⟩

theorem newImport_isOk (h : trim starter.cmd.idempotencyKey ≠ "")
    : ∃ imp, newImport starter.externals starter.cmd = .ok imp := by
  unfold newImport
  simp only [Import.new]
  rw [if_neg h]
  exact ⟨_, rfl⟩

theorem Makes.slot (h : starter.Makes imp) : keySlot (PgImportRepository.importRow imp) = starter.slot := by
  have hkey : (PgImportRepository.importRow imp).idempotencyKey = starter.cmd.idempotencyKey := h.idempotencyKey
  have hownerId : (PgImportRepository.importRow imp).ownerId = starter.cmd.ownerId.val :=
    congrArg (·.val) h.ownerId
  rw [keySlot, Starter.slot, hkey, hownerId]

theorem Makes.completedChecksum (h : starter.Makes imp)
    : Imports.completedChecksum (PgImportRepository.importRow imp) = none := by
  unfold Imports.completedChecksum PgImportRepository.importRow
  rw [h.status]
  rfl

-- the rows stay, and the index holds
structure Grows (imports imports' : ImportTable) : Prop where
  kept : ∀ k row, imports.find? k = some row → imports'.find? k = some row
  indexed : imports.Indexed ownerKey → imports'.Indexed ownerKey

theorem Grows.refl (imports : ImportTable) : Grows imports imports := ⟨fun _ _ h => h, id⟩

theorem save_cases (imp : Import) (imports : ImportTable)
    : (∃ message, PgImportRepository.save imp imports = .error (.storageError message))
        ∨ ∃ imports', PgImportRepository.save imp imports = .ok imports'
          ∧ imports.insert? (PgImportRepository.importRow imp) = some imports'
          ∧ imports.clashes ownerKey (PgImportRepository.importRow imp) = false := by
  unfold PgImportRepository.save
  split
  . exact .inl ⟨_, rfl⟩
  . next hfree =>
    split
    . exact .inl ⟨_, rfl⟩
    . split
      . next hinsert => exact .inr ⟨_, rfl, hinsert, by simpa using hfree⟩
      . exact .inl ⟨_, rfl⟩

theorem grows_step (url : String → String) (imports : ImportTable) (starter : Starter)
    : Grows imports (starter.step url imports).1 := by
  obtain ⟨externals, cmd, program⟩ := starter
  cases program with
  | done result => exact .refl imports
  | ask command next =>
    cases command with
    | findByIdempotencyKey | generateUploadUrl => exact .refl imports
    | save imp =>
      simp only [step, Program.step, answer]
      rcases save_cases imp imports with ⟨message, hsave⟩ | ⟨imports', hsave, hinsert, hfree⟩
      . rw [hsave]
        exact .refl imports
      . rw [hsave]
        exact ⟨fun _ _ hrow => Sql.Table.find?_insert?_of_some hinsert hrow,
          fun hindexed => hindexed.insert? hinsert hfree⟩

/--
How far a call has come.
-/
inductive Pending (imports : ImportTable) (starter : Starter) : Prop where
  | looking
    (hprogram : starter.program = .ask (.findByIdempotencyKey starter.cmd.ownerId starter.cmd.idempotencyKey)
      (found starter.externals starter.cmd))
  | replaying {existing : Import} {row : ImportRow}
    (hprogram : starter.program = Starter.replaying starter.externals starter.cmd existing)
    (hrow : imports.find? existing.id.val = some row) (hslot : keySlot row = starter.slot)
    (hsame : row.payloadHash.any (· ≠ starter.cmd.payloadHash starter.externals) = false)
  | creating {imp : Import} (hmakes : starter.Makes imp)
    (hprogram : starter.program = Starter.creating starter.externals starter.cmd imp)
  | saving {imp : Import} {uploadUrl : String} (hmakes : starter.Makes imp)
    (hprogram : starter.program = Starter.saving imp uploadUrl)
  | returned {result : Except ImportError StartImportResult} (hprogram : starter.program = .done result)

theorem pending_start (externals : StartExternals) (cmd : StartImportCommand) (imports : ImportTable)
    : Pending imports (start externals cmd) := by
  cases hvalid : cmd.validate with
  | error e =>
    apply Pending.returned
    show (handleStartImport externals cmd).run = _
    rw [run_handleStartImport, hvalid]
  | ok _ =>
    apply Pending.looking
    show (handleStartImport externals cmd).run = _
    rw [run_handleStartImport, hvalid]
    rfl

theorem Pending.grows (h : Pending imports starter) (hgrows : Grows imports imports')
    : Pending imports' starter := by
  cases h with
  | looking hprogram => exact .looking hprogram
  | replaying hprogram hrow hslot hsame => exact .replaying hprogram (hgrows.kept _ _ hrow) hslot hsame
  | creating hmakes hprogram => exact .creating hmakes hprogram
  | saving hmakes hprogram => exact .saving hmakes hprogram
  | returned hprogram => exact .returned hprogram

theorem Pending.step (h : Pending imports starter) (url : String → String)
    : Pending (starter.step url imports).1 (starter.step url imports).2 := by
  apply Pending.grows _ (grows_step url imports starter)
  cases h with
  | looking hprogram =>
    simp only [Starter.step, hprogram, Program.step, answer]
    cases hfound : PgImportRepository.findByIdempotencyKey starter.cmd.ownerId starter.cmd.idempotencyKey
        imports with
    | none =>
      cases hnew : newImport starter.externals starter.cmd with
      | error e =>
        apply Pending.returned
        simp only [found, hnew]
        rfl
      | ok imp =>
        have hmakes := makes_of_newImport hnew
        have hfound' : found starter.externals starter.cmd (.ok none)
            = Starter.creating starter.externals starter.cmd imp := by
          simp only [found, hnew]
        exact .creating hmakes.other hfound'
    | some existing =>
      obtain ⟨row, hrow, hslot, hhash⟩ := findByIdempotencyKey_eq_some hfound
      cases hsame : existing.payloadHash.any (· ≠ starter.cmd.payloadHash starter.externals) with
      | true =>
        apply Pending.returned
        simp only [found, hsame]
        rfl
      | false =>
        have hfound' : found starter.externals starter.cmd (.ok (some existing))
            = Starter.replaying starter.externals starter.cmd existing := by
          simp only [found, hsame]
          rfl
        rw [hhash] at hsame
        exact .replaying hfound' hrow hslot hsame
  | replaying hprogram =>
    simp only [Starter.step, hprogram]
    exact .returned rfl
  | creating hmakes hprogram =>
    simp only [Starter.step, hprogram]
    exact .saving hmakes.other rfl
  | saving hmakes hprogram =>
    simp only [Starter.step, hprogram]
    exact .returned rfl
  | returned hprogram =>
    simp only [Starter.step, hprogram]
    exact .returned rfl

/-
What a call returns.
-/

theorem replays_of_slot (h : imports.Indexed ownerKey) (hrow : row ∈ imports.rows)
    (hslot : keySlot row = starter.slot) {result : Except ImportError StartImportResult}
    (hresult : if row.payloadHash.any (· ≠ starter.cmd.payloadHash starter.externals) then
        result = .error .idempotencyPayloadMismatch
      else
        ∃ r, result = .ok r ∧ r.imp.id.val = row.id)
    : starter.Replays imports result := by
  have hholds := h.holds ownerKey_eq hrow
  rw [hslot] at hholds
  exact ⟨row, hholds, hresult⟩

theorem replays_of_looking (h : imports.Indexed ownerKey)
    (hkey : trim starter.cmd.idempotencyKey ≠ "") {result : Except ImportError StartImportResult}
    (hreturns : found starter.externals starter.cmd
        (.ok (PgImportRepository.findByIdempotencyKey starter.cmd.ownerId starter.cmd.idempotencyKey imports))
      = .done result)
    : starter.Replays imports result := by
  cases hfound : PgImportRepository.findByIdempotencyKey starter.cmd.ownerId starter.cmd.idempotencyKey
      imports with
  | none =>
    obtain ⟨imp, hnew⟩ := newImport_isOk hkey
    rw [hfound] at hreturns
    simp only [found, hnew, creating] at hreturns
    cases hreturns
  | some existing =>
    obtain ⟨row, hrow, hslot, hhash⟩ := findByIdempotencyKey_eq_some hfound
    rw [hfound] at hreturns
    simp only [found, hhash] at hreturns
    apply replays_of_slot h (Sql.Table.mem_of_find? hrow) hslot
    split at hreturns
    . next hother =>
      rw [if_pos hother]
      cases hreturns
      rfl
    . unfold replaying at hreturns
      cases hreturns

theorem save_isOk_iff (hmakes : starter.Makes imp)
    : (∃ imports', PgImportRepository.save imp imports = .ok imports')
        ↔ imports.Vacant keySlot starter.slot imp.id.val := by
  have hvacant : imports.Vacant keySlot starter.slot imp.id.val
      ↔ imports.clashes ownerKey (PgImportRepository.importRow imp) = false
        ∧ ∃ imports', imports.insert? (PgImportRepository.importRow imp) = some imports' := by
    rw [← hmakes.slot]
    exact Sql.Table.vacant_iff ownerKey_eq
  have hchecksum : imports.clashes Imports.completedChecksum (PgImportRepository.importRow imp) = false := by
    rw [← Bool.not_eq_true, Sql.Table.clashes_eq_true_iff]
    rintro ⟨_, _, _, _, hv, _⟩
    rw [hmakes.completedChecksum] at hv
    cases hv
  rw [hvacant]
  constructor
  . rintro ⟨imports', hok⟩
    rcases save_cases imp imports with ⟨message, hsave⟩ | ⟨_, _, hinsert, hfree⟩
    . rw [hsave] at hok
      cases hok
    . exact ⟨hfree, _, hinsert⟩
  . rintro ⟨hfree, imports', hinsert⟩
    refine ⟨imports', ?_⟩
    unfold PgImportRepository.save
    rw [hfree, hchecksum, hinsert]
    rfl

theorem replays_of_save (h : imports.Indexed ownerKey) (hmakes : starter.Makes imp)
    (hsave : PgImportRepository.save imp imports = .ok imports') (uploadUrl : String)
    : starter.Replays imports' (.ok { imp, uploadUrl }) := by
  rcases save_cases imp imports with ⟨message, herror⟩ | ⟨inserted, hok, hinsert, hfree⟩
  . rw [herror] at hsave
    cases hsave
  . rw [hok] at hsave
    obtain rfl := Except.ok.inj hsave
    have hholds := h.holds_insert? ownerKey_eq hinsert hfree
    rw [hmakes.slot] at hholds
    refine ⟨_, hholds, ?_⟩
    have hhash : (PgImportRepository.importRow imp).payloadHash
        = some (starter.cmd.payloadHash starter.externals) := hmakes.payloadHash
    rw [hhash]
    simp only [Option.any_some, ne_eq, not_true, decide_false, Bool.false_eq_true, if_false]
    exact ⟨_, rfl, rfl⟩

theorem not_replays_storageError (message : String)
    : ¬starter.Replays imports (.error (.storageError message)) := by
  rintro ⟨_, _, hresult⟩
  split at hresult
  . cases hresult
  . obtain ⟨_, hresult, _⟩ := hresult
    cases hresult

end Starter

section Run

variable {ι : Type} [DecidableEq ι] {url : String → String} {c : Config ImportTable Starter ι} {i : ι}

theorem returnsReplay_iff (hindexed : c.shared.Indexed ownerKey)
    (hpending : (c.clients i).Pending c.shared) : ReturnsReplay url c i ↔ SavesFirst c i := by
  have hshared : (fire (Starter.step url) c i).shared = ((c.clients i).step url c.shared).1 := rfl
  unfold ReturnsReplay SavesFirst
  rw [hshared]
  generalize c.clients i = starter at *
  generalize c.shared = imports at *
  cases hpending with
  | looking hprogram =>
    refine iff_of_true ?_ ?_
    . intro hkey result hreturns
      simp only [Starter.step, hprogram, Program.step, Starter.answer]
      apply Starter.replays_of_looking hindexed hkey
      simp only [Starter.returns, hprogram, Starter.answer] at hreturns
      split at hreturns
      . next heq => rw [heq, Option.some.inj hreturns]
      . cases hreturns
    . rw [hprogram]
      intro imp hcommand
      cases hcommand
  | replaying hprogram hrow hslot hsame =>
    refine iff_of_true ?_ ?_
    . intro hkey result hreturns
      simp only [Starter.returns, hprogram, Starter.replaying, Starter.answer] at hreturns
      obtain rfl := Option.some.inj hreturns
      simp only [Starter.step, hprogram, Starter.replaying, Program.step, Starter.answer]
      apply Starter.replays_of_slot hindexed (Sql.Table.mem_of_find? hrow) hslot
      rw [hsame]
      exact ⟨_, rfl, (Sql.Table.key_of_find? hrow).symm⟩
    . rw [hprogram]
      intro imp hcommand
      cases hcommand
  | creating hmakes hprogram =>
    refine iff_of_true ?_ ?_
    . intro hkey result hreturns
      simp only [Starter.returns, hprogram, Starter.creating, Starter.answer, Starter.saving] at hreturns
      cases hreturns
    . rw [hprogram]
      intro imp hcommand
      cases hcommand
  | @saving imp uploadUrl hmakes hprogram =>
    constructor
    . intro h other hcommand
      rw [hprogram] at hcommand
      obtain rfl : imp = other := StartCommand.save.inj (Option.some.inj hcommand)
      rcases Starter.save_cases imp imports with ⟨message, hsave⟩ | ⟨imports', hsave, _⟩
      . have hreturns : starter.returns url imports = some (.error (.storageError message)) := by
          simp only [Starter.returns, hprogram, Starter.saving, Starter.answer, hsave]
          rfl
        have hreplays := h hmakes.key _ hreturns
        simp only [Starter.step, hprogram, Starter.saving, Program.step, Starter.answer, hsave] at hreplays
        exact absurd hreplays (Starter.not_replays_storageError message)
      . exact (Starter.save_isOk_iff hmakes).mp ⟨imports', hsave⟩
    . intro h _ result hreturns
      obtain ⟨imports', hsave⟩ := (Starter.save_isOk_iff hmakes).mpr (h imp (by rw [hprogram]; rfl))
      simp only [Starter.returns, hprogram, Starter.saving, Starter.answer, hsave] at hreturns
      obtain rfl := Option.some.inj hreturns
      simp only [Starter.step, hprogram, Starter.saving, Program.step, Starter.answer, hsave]
      exact Starter.replays_of_save hindexed hmakes hsave uploadUrl
  | returned hprogram =>
    refine iff_of_true ?_ ?_
    . intro hkey result hreturns
      simp only [Starter.returns, hprogram] at hreturns
      cases hreturns
    . rw [hprogram]
      intro imp hcommand
      cases hcommand

theorem returnsReplay_along_iff (url : String → String) (calls : ι → StartExternals × StartImportCommand)
    (imports : ImportTable) (hindexed : imports.Indexed ownerKey) (schedule : List ι)
    : Along (Starter.step url) (ReturnsReplay url) ⟨imports, fun i => .start (calls i).1 (calls i).2⟩ schedule
        ↔ Along (Starter.step url) SavesFirst ⟨imports, fun i => .start (calls i).1 (calls i).2⟩ schedule := by
  have h : Holds (fun imports => imports.Indexed ownerKey) (fun _ imports starter => starter.Pending imports)
      (⟨imports, fun i => .start (calls i).1 (calls i).2⟩ : Config ImportTable Starter ι) :=
    ⟨hindexed, fun i => Starter.pending_start (calls i).1 (calls i).2 imports⟩
  refine Holds.along_congr (Starter.step url) ?_ ?_ ?_ h schedule
  . intro i imports starter hindexed hpending
    exact ⟨(Starter.grows_step url imports starter).indexed hindexed, hpending.step url⟩
  . intro i j imports starter other _ _ _ hpending
    exact hpending.grows (Starter.grows_step url imports starter)
  . intro c i h
    exact returnsReplay_iff h.1 (h.2 i)

end Run

end Imports
