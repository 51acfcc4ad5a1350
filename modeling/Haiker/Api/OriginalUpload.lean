import Haiker.Api.Uploads

/-!
This module contains that what was uploaded stays what it was when its checksum was taken, as long as nobody
is issued a URL for an import that has been uploaded already.
-/

open Rust
open Imports
open Interleaving

namespace Api

/-
The keys of the objects.
-/

theorem isObjectOf_storageKey {ownerId : Identity.UserId} {importId : ImportId} {id : Uuid}
    : IsObjectOf (storageKey Uuid.hyphenated ownerId importId) id ↔ id = importId.val := by
  have hkey : '/' :: importId.val.hyphenated.toList <:+ (storageKey Uuid.hyphenated ownerId importId).toList := by
    refine ⟨("imports/" ++ ownerId.val.hyphenated).toList, ?_⟩
    simp [storageKey]
  constructor
  . intro h
    have hlength : ('/' :: id.hyphenated.toList).length = ('/' :: importId.val.hyphenated.toList).length := by
      rw [List.length_cons, List.length_cons, String.length_toList, String.length_toList,
        Uuid.length_hyphenated, Uuid.length_hyphenated]
    have hsame := (List.suffix_of_suffix_length_le h hkey hlength.le).eq_of_length hlength
    exact Uuid.hyphenated_injective (String.toList_inj.mp (List.cons.inj hsame).2)
  . rintro rfl
    exact hkey

variable {db db' : Database} {id : Uuid}

theorem mem_of_statusOf {status : ImportStatus} (h : db.statusOf id = some status)
    : ∃ row ∈ db.imports.rows, row.id = id := by
  unfold Database.statusOf at h
  rw [Option.map_eq_some_iff] at h
  obtain ⟨row, hrow, _⟩ := h
  exact ⟨row, Sql.Table.mem_of_find? hrow, Sql.Table.key_of_find? hrow⟩

theorem settled_storageKey {ownerId : Identity.UserId} {importId : ImportId}
    : Settled db (storageKey Uuid.hyphenated ownerId importId) ↔ HasLeft db importId.val := by
  constructor
  . rintro ⟨row, _, hobject, hleft⟩
    rw [← isObjectOf_storageKey.mp hobject]
    exact hleft
  . intro hleft
    have ⟨status, hstatus, _⟩ := hleft
    obtain ⟨row, hrow, hid⟩ := mem_of_statusOf hstatus
    exact ⟨row, hrow, isObjectOf_storageKey.mpr hid, by rw [hid]; exact hleft⟩

theorem hasCompleted_storageKey {w : ObjectWorld} {ownerId : Identity.UserId} {importId : ImportId}
    : w.HasCompleted (storageKey Uuid.hyphenated ownerId importId) ↔ importId.val ∈ w.completed := by
  constructor
  . rintro ⟨id, hcompleted, hobject⟩
    rw [← isObjectOf_storageKey.mp hobject]
    exact hcompleted
  . intro hcompleted
    exact ⟨importId.val, hcompleted, isObjectOf_storageKey.mpr rfl⟩

/-
What everybody relies on.
-/

/--
A completed upload stays completed, and what has been uploaded does not change.
-/
structure Later (w w' : ObjectWorld) : Prop where
  completed : ∀ id ∈ w.completed, id ∈ w'.completed
  objects : ∀ key, w.HasCompleted key → w'.objects key = w.objects key

theorem Later.refl (w : ObjectWorld) : Later w w := ⟨fun _ h => h, fun _ _ => rfl⟩

theorem Later.hasCompleted {w w' : ObjectWorld} (h : Later w w') {key : String} (hkey : w.HasCompleted key)
    : w'.HasCompleted key := by
  obtain ⟨id, hcompleted, hobject⟩ := hkey
  exact ⟨id, h.completed id hcompleted, hobject⟩

/--
What a worker has loaded, stored and downloaded.
-/
structure Logged (peer : Peer) (w : ObjectWorld) : Prop where
  found : ∀ id imp, ⟨.findById id, .ok (some imp)⟩ ∈ peer.log → imp.id = id
  updated : ∀ imp, ⟨.update imp, .ok ()⟩ ∈ peer.log → imp.status = .parsing → imp.id.val ∈ w.completed
  downloaded : ∀ externals job, peer.actor = .worker externals job → ∀ bytes,
    ⟨.download job.objectStorageKey, .ok bytes⟩ ∈ peer.log →
      w.HasCompleted job.objectStorageKey ∧ w.objects job.objectStorageKey = some bytes

variable {sha256 : Bytes → String}

structure Peer.Relies (sha256 : Bytes → String) (peer : Peer) (w : ObjectWorld) : Prop where
  tracks : peer.program.Tracks (Imports.Asks peer.actor) Tells Known.learn (fun _ _ => True) peer.known
  logs : ∀ externals job, peer.actor = .worker externals job →
    externals.sha256 = sha256
      ∧ job.objectStorageKey = storageKey Uuid.hyphenated ⟨job.ownerId⟩ ⟨job.importId⟩
      ∧ peer.program.Tracks (AsksLogged externals ⟨job.importId⟩ job.objectStorageKey) (fun _ _ _ => True)
        Program.record (fun _ _ => True) peer.log
  begins : Begins peer.known
  logged : Logged peer w

theorem Logged.later {peer : Peer} {w w' : ObjectWorld} (h : Logged peer w) (hlater : Later w w')
    : Logged peer w' where
  found := h.found
  updated imp hupdate hparsing := hlater.completed _ (h.updated imp hupdate hparsing)
  downloaded externals job hactor bytes hdownload := by
    obtain ⟨hcompleted, hobject⟩ := h.downloaded externals job hactor bytes hdownload
    refine ⟨hlater.hasCompleted hcompleted, ?_⟩
    rw [hlater.objects _ hcompleted]
    exact hobject

theorem Peer.Relies.later {peer : Peer} {w w' : ObjectWorld} (h : peer.Relies sha256 w) (hlater : Later w w')
    : peer.Relies sha256 w' where
  tracks := h.tracks
  logs := h.logs
  begins := h.begins
  logged := h.logged.later hlater

/--
How far a call that starts an import has come. The import that it makes is not there yet.
-/
inductive Stage (db : Database) (starter : Starter) : Prop where
  | looking
    (hprogram : starter.program = .ask (.findByIdempotencyKey starter.cmd.ownerId starter.cmd.idempotencyKey)
      (Starter.found starter.externals starter.cmd))
    (hfree : db.statusOf starter.externals.importId.val = none)
  | replaying {existing : Import}
    (hprogram : starter.program = Starter.replaying starter.externals starter.cmd existing)
    (hleft : ¬HasLeft db existing.id.val)
  | creating {imp : Import} (hid : imp.id = starter.externals.importId) (hstatus : imp.status = .uploading)
    (hprogram : starter.program = Starter.creating starter.externals starter.cmd imp)
    (hfree : db.statusOf starter.externals.importId.val = none)
  | saving {imp : Import} {uploadUrl : String} (hid : imp.id = starter.externals.importId)
    (hstatus : imp.status = .uploading) (hprogram : starter.program = Starter.saving imp uploadUrl)
    (hfree : db.statusOf starter.externals.importId.val = none)
  | returned {result : Except ImportError StartImportResult} (hprogram : starter.program = .done result)

theorem Stage.mono {starter : Starter} (h : Stage db starter)
    (hfree : db.statusOf starter.externals.importId.val = none →
      db'.statusOf starter.externals.importId.val = none)
    (hleft : ∀ existing, starter.program = Starter.replaying starter.externals starter.cmd existing →
      HasLeft db' existing.id.val → HasLeft db existing.id.val) : Stage db' starter := by
  cases h with
  | looking hprogram hfree' => exact .looking hprogram (hfree hfree')
  | replaying hprogram hleft' => exact .replaying hprogram fun h => hleft' (hleft _ hprogram h)
  | creating hid hstatus hprogram hfree' => exact .creating hid hstatus hprogram (hfree hfree')
  | saving hid hstatus hprogram hfree' => exact .saving hid hstatus hprogram (hfree hfree')
  | returned hprogram => exact .returned hprogram

def StorageParty.Relies (sha256 : Bytes → String) (w : ObjectWorld) : StorageParty → Prop
  | .starter member => Stage w.db member ∧ member.externals.uuidToString = Uuid.hyphenated
  | .peer member => member.Relies sha256 w
  | .writer _ => True

structure WorldHolds (sha256 : Bytes → String) (w : ObjectWorld) : Prop where
  begun : Begun w.db
  urls : ∀ uploadUrl ∈ w.urls, uploadUrl.late = false
  artifacts : ∀ row ∈ w.db.sourceArtifacts.rows, w.HasCompleted row.objectStorageKey ∧ ∃ bytes,
    w.objects row.objectStorageKey = some bytes ∧ sha256 bytes = row.checksum

theorem WorldHolds.kept {w : ObjectWorld} (h : WorldHolds sha256 w) : OriginalsKept sha256 w :=
  ⟨h.urls, fun row hrow => (h.artifacts row hrow).2⟩

theorem WorldHolds.artifacts_later {w w' : ObjectWorld} (h : WorldHolds sha256 w) (hlater : Later w w')
    {row : SourceArtifactRow} (hrow : row ∈ w.db.sourceArtifacts.rows)
    : w'.HasCompleted row.objectStorageKey
        ∧ ∃ bytes, w'.objects row.objectStorageKey = some bytes ∧ sha256 bytes = row.checksum := by
  obtain ⟨hcompleted, bytes, hobject, hchecksum⟩ := h.artifacts row hrow
  refine ⟨hlater.hasCompleted hcompleted, bytes, ?_, hchecksum⟩
  rw [hlater.objects _ hcompleted]
  exact hobject

/-
A worker takes a step.
-/

section PeerStep

variable {command : Command}

-- the artifacts are those that are committed
theorem sourceArtifacts_answer {storage : Storage} {row : SourceArtifactRow}
    (h : row ∈ (answer storage command db).2.sourceArtifacts.rows)
    : row ∈ db.sourceArtifacts.rows
        ∨ ∃ externals data, command = .commit externals data
          ∧ row = PgImportCommitter.sourceArtifact externals data := by
  cases command with
  | findById | findAbandoned | download | verifyUpload | check => exact .inl h
  | update imp =>
    cases hupdate : PgImportRepository.update imp db.imports with
    | error e =>
      rw [answer_update_of_error storage hupdate] at h
      exact .inl h
    | ok imports =>
      rw [answer_update_of_ok storage hupdate] at h
      exact .inl h
  | commit externals data =>
    obtain ⟨e, hrun⟩ | ⟨db', hrun, hcommitted⟩ := PgImportCommitter.commit_cases externals data db
    . simp only [answer, after_of_run_error hrun] at h
      exact .inl h
    . simp only [answer, after_of_run_ok hrun] at h
      rw [Sql.Table.rows_insert? hcommitted.sourceArtifacts, List.mem_append, List.mem_singleton] at h
      rcases h with hold | rfl
      . exact .inl hold
      . exact .inr ⟨externals, data, rfl, rfl⟩

variable {peer : Peer} {w : ObjectWorld}

theorem completed_of_storedParsing {importId : ImportId} (h : Logged peer w)
    (hstored : StoredParsing importId peer.log) : importId.val ∈ w.completed := by
  obtain ⟨found, imp, hfound, hupdate, hid, hparsing⟩ := hstored
  rw [← h.found importId found hfound, ← hid]
  exact h.updated imp hupdate hparsing

theorem download_eq_ok {objects : String → Option Bytes} {key : String} {bytes : Bytes}
    (h : (peer.storage objects).download key = .ok bytes) : objects key = some bytes := by
  simp only [Peer.storage] at h
  cases houtage : peer.outage with
  | some e =>
    rw [houtage] at h
    cases h
  | none =>
    rw [houtage] at h
    cases hobject : objects key with
    | none =>
      rw [hobject] at h
      cases h
    | some stored =>
      rw [hobject] at h
      obtain rfl := Except.ok.inj h
      rfl

-- the log goes on with the reply
theorem Peer.Relies.logged_step {next : command.Reply → Program Command.Reply Unit} (h : peer.Relies sha256 w)
    (hprogram : peer.program = .ask command next) (hlater : Later w (peer.step w).1)
    : Logged (peer.step w).2 (peer.step w).1 := by
  have hdownloads := fun externals job hactor => (h.logs externals job hactor).2
  have hlogged := h.logged.later hlater
  have hcompleted := fun importId => hlater.completed importId
  unfold Peer.step at hlogged hcompleted ⊢
  simp only [hprogram] at hdownloads hlogged hcompleted ⊢
  let replies := fun command => (answer (peer.storage w.objects) command w.db).1
  constructor
  . intro id imp hevent
    rcases Program.mem_record.mp hevent with hold | hnew
    . exact hlogged.found id imp hold
    . obtain ⟨rfl, hreply⟩ := Program.reply_of_event replies hnew
      exact PgImportRepository.id_of_findById (Except.ok.inj hreply)
  . intro imp hevent hparsing
    rcases Program.mem_record.mp hevent with hold | hnew
    . exact hlogged.updated imp hold hparsing
    . obtain ⟨rfl, hreply⟩ := Program.reply_of_event replies hnew
      apply List.mem_append_right
      rw [show (answer (peer.storage w.objects) (.update imp) w.db).1 = .ok () from hreply]
      simp only [completes, hparsing]
      rw [if_pos (by decide)]
      exact List.mem_singleton_self _
  . intro externals job hactor bytes hevent
    rcases Program.mem_record.mp hevent with hold | hnew
    . exact hlogged.downloaded externals job hactor bytes hold
    . obtain ⟨rfl, hreply⟩ := Program.reply_of_event replies hnew
      obtain ⟨hkey, hlog⟩ := hdownloads externals job hactor
      have hstored := completed_of_storedParsing h.logged hlog.1.2
      refine ⟨?_, download_eq_ok hreply⟩
      rw [hkey]
      exact hasCompleted_storageKey.mpr (hcompleted _ hstored)

-- a new artifact is what has been downloaded
theorem artifact_of_commit {externals : CommitExternals} {data : ImportCommitData}
    {next : (Command.commit externals data).Reply → Program Command.Reply Unit} (h : peer.Relies sha256 w)
    (hprogram : peer.program = .ask (.commit externals data) next)
    : w.HasCompleted data.objectStorageKey
        ∧ ∃ bytes, w.objects data.objectStorageKey = some bytes ∧ sha256 bytes = data.checksum := by
  have hasks := h.tracks
  rw [hprogram] at hasks
  obtain ⟨_, _, hfrom⟩ := hasks.1
  obtain ⟨workerExternals, job, hactor, _, _⟩ := hfrom.worker
  obtain ⟨hsha256, _, hlog⟩ := h.logs workerExternals job hactor
  rw [hprogram] at hlog
  obtain ⟨fileBytes, hdownload, hmade⟩ := hlog.1
  obtain ⟨hcompleted, hobject⟩ := h.logged.downloaded workerExternals job hactor fileBytes hdownload
  rw [hmade.objectStorageKey, hmade.checksum, hsha256]
  exact ⟨hcompleted, fileBytes, hobject, rfl⟩

theorem later_peer_step (peer : Peer) (w : ObjectWorld) : Later w (peer.step w).1 := by
  cases hprogram : peer.program with
  | done result =>
    simp only [Peer.step, hprogram]
    exact .refl w
  | ask command next =>
    simp only [Peer.step, hprogram]
    exact ⟨fun id hid => List.mem_append_left _ hid, fun _ _ => rfl⟩

theorem Peer.Relies.step (h : peer.Relies sha256 w) (hworld : WorldHolds sha256 w)
    : WorldHolds sha256 (peer.step w).1 ∧ (peer.step w).2.Relies sha256 (peer.step w).1 := by
  have hlater := later_peer_step peer w
  cases hprogram : peer.program with
  | done result =>
    have hstep : peer.step w = (w, peer) := by simp only [Peer.step, hprogram]
    rw [hstep]
    exact ⟨hworld, h⟩
  | ask command next =>
    have hasks := h.tracks
    rw [hprogram] at hasks
    have hlogged := h.logged_step hprogram hlater
    unfold Peer.step at hlogged hlater ⊢
    simp only [hprogram] at hlogged hlater ⊢
    refine ⟨?_, ?_⟩
    . constructor
      . exact hworld.begun.progress (progress_answer _ w.db hasks.1 h.begins)
      . exact hworld.urls
      . intro row hrow
        rcases sourceArtifacts_answer hrow with hold | ⟨externals, data, rfl, rfl⟩
        . exact hworld.artifacts_later hlater hold
        . obtain ⟨hcompleted, hobject⟩ := artifact_of_commit h hprogram
          exact ⟨hlater.hasCompleted hcompleted, hobject⟩
    . constructor
      . exact hasks.2 _ (tells_answer _ _ _ command)
      . intro externals job hactor
        obtain ⟨hsha256, hkey, hlog⟩ := h.logs externals job hactor
        rw [hprogram] at hlog
        exact ⟨hsha256, hkey, hlog.2 _ trivial⟩
      . exact Begins.learn h.begins hworld.begun hasks.1
      . exact hlogged

theorem statusOf_peer_step (peer : Peer) (w : ObjectWorld) (id : Uuid)
    : (peer.step w).1.db.statusOf id
        = (w.db.statusOf id).map fun status => ((peer.client w).writes id w.db).getD status := by
  rw [← statusOf_step (peer.client w) w.db id]
  cases hprogram : peer.program with
  | done result => simp only [Peer.step, Imports.Client.step, Peer.client, Program.step, hprogram]
  | ask command next => simp only [Peer.step, Imports.Client.step, Peer.client, Program.step, hprogram]

end PeerStep

/-
A call that starts an import takes a step.
-/

/--
There may be a new import, which is in `uploading`.
-/
structure Starts (importId : Uuid) (db db' : Database) : Prop where
  others : ∀ id, id ≠ importId → db'.statusOf id = db.statusOf id
  own : db'.statusOf importId = db.statusOf importId
    ∨ db.statusOf importId = none ∧ db'.statusOf importId = some .uploading
  sourceArtifacts : db'.sourceArtifacts = db.sourceArtifacts

namespace Starts

variable {importId : Uuid}

theorem refl (importId : Uuid) (db : Database) : Starts importId db db := ⟨fun _ _ => rfl, .inl rfl, rfl⟩

theorem statusOf_cases (h : Starts importId db db') (id : Uuid)
    : db'.statusOf id = db.statusOf id ∨ db.statusOf id = none ∧ db'.statusOf id = some .uploading := by
  by_cases hid : id = importId
  . rw [hid]
    exact h.own
  . exact .inl (h.others id hid)

theorem hasLeft_iff (h : Starts importId db db') (id : Uuid) : HasLeft db' id ↔ HasLeft db id := by
  unfold HasLeft
  rcases h.statusOf_cases id with hsame | ⟨hnone, huploading⟩
  . rw [hsame]
  . rw [hnone, huploading]
    simp

theorem begun (h : Starts importId db db') (hbegun : Begun db) : Begun db' := by
  intro id status hstatus
  rcases h.statusOf_cases id with hsame | ⟨_, huploading⟩
  . exact hbegun id status (hsame ▸ hstatus)
  . rw [huploading] at hstatus
    rw [← Option.some.inj hstatus]
    decide

-- a new import is stored as it is
theorem of_save {imp : Import} {imports : ImportTable} (hstatus : imp.status = .uploading)
    (hinsert : db.imports.insert? (PgImportRepository.importRow imp) = some imports)
    : Starts imp.id.val db { db with imports } := by
  have hid : (PgImportRepository.importRow imp).id = imp.id.val := rfl
  have hfind := fun id => Sql.Table.find?_insert? hinsert id
  have hnone := Sql.Table.find?_eq_none_of_insert? hinsert
  rw [hid] at hfind hnone
  refine ⟨?_, .inr ⟨?_, ?_⟩, rfl⟩
  . intro id hne
    unfold Database.statusOf
    simp only
    rw [hfind id, if_neg hne]
  . unfold Database.statusOf
    rw [hnone]
    rfl
  . unfold Database.statusOf
    simp only
    rw [hfind imp.id.val, if_pos rfl, Option.map_some]
    show some (parseStatus imp.status.display) = _
    rw [hstatus]
    rfl

end Starts

section StarterStep

variable {w : ObjectWorld} {starter : Starter} (url : String → String)

theorem hasLeft_of_found {ownerId : Identity.UserId} {key : String} {existing : Import}
    (h : PgImportRepository.findByIdempotencyKey ownerId key db.imports = some existing)
    (huploading : existing.status = .uploading) : ¬HasLeft db existing.id.val := by
  unfold PgImportRepository.findByIdempotencyKey at h
  rw [Option.map_eq_some_iff] at h
  obtain ⟨row, hfound, rfl⟩ := h
  rintro ⟨status, hstatus, hrank⟩
  have hrow := Sql.Table.find?_of_mem (List.mem_of_find?_eq_some hfound)
  have hstored : db.statusOf (rowToImport row).id.val = some .uploading := by
    unfold Database.statusOf
    show (db.imports.find? row.id).map _ = _
    rw [hrow, ← huploading]
    rfl
  rw [hstored] at hstatus
  obtain rfl := Option.some.inj hstatus
  exact absurd hrank (Nat.lt_irrefl _)

theorem id_of_newImport {externals : StartExternals} {cmd : StartImportCommand} {imp : Import}
    (h : newImport externals cmd = .ok imp) : imp.id = externals.importId ∧ imp.status = .uploading := by
  unfold newImport at h
  simp only [Import.new] at h
  split at h
  . cases h
  . obtain rfl := Except.ok.inj h
    exact ⟨rfl, rfl⟩

-- the URL of an import that has not left `uploading`
theorem issued_of_not_hasLeft {importId : ImportId} {next} (huuid : starter.externals.uuidToString = Uuid.hyphenated)
    (hprogram : starter.program = .ask (.generateUploadUrl
      (storageKey starter.externals.uuidToString starter.cmd.ownerId importId)) next)
    (hleft : ¬HasLeft db importId.val) : ∀ uploadUrl ∈ issued db starter, uploadUrl.late = false := by
  have hsettled : ¬Settled db (storageKey starter.externals.uuidToString starter.cmd.ownerId importId) := by
    rw [huuid, settled_storageKey]
    exact hleft
  intro uploadUrl hissued
  simp only [issued, hprogram, Program.command?, List.mem_singleton] at hissued
  rw [hissued]
  exact decide_eq_false hsettled

-- the lookup
theorem stage_of_found {externals : StartExternals} {cmd : StartImportCommand}
    (hfree : db.statusOf externals.importId.val = none)
    (hfinds : ∀ existing, PgImportRepository.findByIdempotencyKey cmd.ownerId cmd.idempotencyKey db.imports
        = some existing →
      existing.payloadHash.any (· ≠ cmd.payloadHash externals) = false → existing.status = .uploading)
    : Stage db ⟨externals, cmd, Starter.found externals cmd
        (.ok (PgImportRepository.findByIdempotencyKey cmd.ownerId cmd.idempotencyKey db.imports))⟩ := by
  cases hfound : PgImportRepository.findByIdempotencyKey cmd.ownerId cmd.idempotencyKey db.imports with
  | none =>
    cases hnew : newImport externals cmd with
    | error e =>
      apply Stage.returned
      simp only [Starter.found, hnew]
      rfl
    | ok imp =>
      obtain ⟨hid, hstatus⟩ := id_of_newImport hnew
      have hprogram : Starter.found externals cmd (.ok none) = Starter.creating externals cmd imp := by
        simp only [Starter.found, hnew]
      exact .creating hid hstatus hprogram hfree
  | some existing =>
    cases hsame : existing.payloadHash.any (· ≠ cmd.payloadHash externals) with
    | true =>
      apply Stage.returned
      simp only [Starter.found, hsame]
      rfl
    | false =>
      have hprogram : Starter.found externals cmd (.ok (some existing))
          = Starter.replaying externals cmd existing := by
        simp only [Starter.found, hsame]
        rfl
      exact .replaying hprogram (hasLeft_of_found hfound (hfinds existing hfound hsame))

/--
What is left to do after a step of the call.
-/
structure Advances (w : ObjectWorld) (starter : Starter) (w' : ObjectWorld) (starter' : Starter) : Prop where
  starts : Starts starter.externals.importId.val w.db w'.db
  objects : w'.objects = w.objects
  completed : w'.completed = w.completed
  urls : ∃ news, w'.urls = w.urls ++ news ∧ ∀ uploadUrl ∈ news, uploadUrl.late = false
  externals : starter'.externals = starter.externals
  stage : Stage w'.db starter'

-- a step that asks for no URL
theorem Advances.quiet {db : Database} {starter' : Starter} (hexternals : starter'.externals = starter.externals)
    (hstarts : Starts starter.externals.importId.val w.db db) (hstage : Stage db starter')
    : Advances w starter { w with db, urls := w.urls ++ [] } starter' where
  starts := hstarts
  objects := rfl
  completed := rfl
  urls := by
    refine ⟨[], rfl, ?_⟩
    intro _ h
    cases h
  externals := hexternals
  stage := hstage

theorem starter_step (h : Stage w.db starter) (huuid : starter.externals.uuidToString = Uuid.hyphenated)
    (hfinds : ∀ existing ∈ (StorageParty.starter starter).finds w, existing.status = .uploading)
    : ∃ w' starter', (StorageParty.starter starter).step url w = (w', .starter starter')
        ∧ Advances w starter w' starter' := by
  obtain ⟨externals, cmd, program⟩ := starter
  refine ⟨_, _, rfl, ?_⟩
  cases h with
  | looking hprogram hfree =>
    simp only at hprogram hfree huuid
    subst hprogram
    refine .quiet rfl (.refl _ _) (stage_of_found hfree ?_)
    intro existing hfound hsame
    exact hfinds existing (Option.mem_filter_iff.mpr ⟨hfound, by rw [hsame]; rfl⟩)
  | replaying hprogram hleft =>
    have hissued := issued_of_not_hasLeft huuid hprogram hleft
    simp only at hprogram
    subst hprogram
    exact {
      starts := .refl _ _
      objects := rfl
      completed := rfl
      urls := ⟨_, rfl, hissued⟩
      externals := rfl
      stage := .returned rfl
    }
  | creating hid hstatus hprogram hfree =>
    have hleft : ¬HasLeft w.db externals.importId.val := by
      rintro ⟨status, hsome, _⟩
      rw [hfree] at hsome
      cases hsome
    rw [← hid] at hleft
    have hissued := issued_of_not_hasLeft huuid hprogram hleft
    simp only at hprogram
    subst hprogram
    exact {
      starts := .refl _ _
      objects := rfl
      completed := rfl
      urls := ⟨_, rfl, hissued⟩
      externals := rfl
      stage := .saving hid hstatus rfl hfree
    }
  | @saving imp uploadUrl hid hstatus hprogram hfree =>
    simp only at hprogram hid
    subst hprogram
    simp only [Starter.saving, Starter.answer]
    rcases Starter.save_cases imp w.db.imports with ⟨message, hsave⟩ | ⟨imports, hsave, hinsert, _⟩
    . rw [hsave]
      exact .quiet rfl (.refl _ _) (.returned rfl)
    . rw [hsave]
      have hstarts := Starts.of_save hstatus hinsert
      rw [hid] at hstarts
      exact .quiet rfl hstarts (.returned rfl)
  | returned hprogram =>
    simp only at hprogram
    subst hprogram
    exact .quiet rfl (.refl _ _) (.returned rfl)

end StarterStep

/-
Everybody at work.
-/

section Run

variable {ι : Type} [DecidableEq ι] {c : Config ObjectWorld StorageParty ι} {url : String → String}

structure Holding (sha256 : Bytes → String) (c : Config ObjectWorld StorageParty ι) : Prop where
  world : WorldHolds sha256 c.shared
  parties : ∀ i, (c.clients i).Relies sha256 c.shared
  apart : DrawsApart c.clients

-- the others go on as they were
theorem Holding.of_step {i : ι} {w' : ObjectWorld} {party' : StorageParty} (h : Holding sha256 c)
    (hstep : (c.clients i).step url c.shared = (w', party')) (hworld : WorldHolds sha256 w')
    (hlater : Later c.shared w') (hown : party'.Relies sha256 w')
    (hdraws : party'.draws = (c.clients i).draws)
    (hothers : ∀ j starter, j ≠ i → c.clients j = .starter starter → Stage c.shared.db starter →
      Stage w'.db starter)
    : Holding sha256 (fire (StorageParty.step url) c i) := by
  have hshared : (fire (StorageParty.step url) c i).shared = w' := congrArg Prod.fst hstep
  have hself : (fire (StorageParty.step url) c i).clients i = party' := by
    rw [fire_clients_self, hstep]
  have hdrawn : ∀ j, ((fire (StorageParty.step url) c i).clients j).draws = (c.clients j).draws := by
    intro j
    by_cases hji : j = i
    . subst hji
      rw [hself, hdraws]
    . rw [fire_clients_ne _ c hji]
  constructor
  . rw [hshared]
    exact hworld
  . intro j
    rw [hshared]
    by_cases hji : j = i
    . subst hji
      rw [hself]
      exact hown
    . rw [fire_clients_ne _ c hji]
      have hj := h.parties j
      cases hparty : c.clients j with
      | starter starter =>
        rw [hparty] at hj
        exact ⟨hothers j starter hji hparty hj.1, hj.2⟩
      | peer peer =>
        rw [hparty] at hj
        exact Peer.Relies.later hj hlater
      | writer writes => trivial
  . intro j k hjk
    rw [hdrawn, hdrawn]
    exact h.apart j k hjk

theorem Holding.fire_starter {i : ι} {starter : Starter} (h : Holding sha256 c)
    (hi : c.clients i = .starter starter) (hreplays : ReplaysInTime c i)
    : Holding sha256 (fire (StorageParty.step url) c i) := by
  have hown := h.parties i
  rw [hi] at hown
  obtain ⟨w', starter', hstep, hadvances⟩ := starter_step url hown.1 hown.2 (by rw [← hi]; exact hreplays.found)
  rw [← hi] at hstep
  have hstarts := hadvances.starts
  have hlater : Later c.shared w' := by
    refine ⟨?_, fun _ _ => by rw [hadvances.objects]⟩
    rw [hadvances.completed]
    exact fun _ h => h
  apply h.of_step hstep _ hlater
  . refine ⟨hadvances.stage, ?_⟩
    rw [hadvances.externals]
    exact hown.2
  . rw [hi]
    exact congrArg (fun externals => some externals.importId) hadvances.externals
  . intro j other hj hother hstage
    have hapart := h.apart j i hj other.externals.importId
    rw [hi, hother] at hapart
    have hne := hapart rfl
    apply hstage.mono
    . intro hfree
      rw [hstarts.others, hfree]
      intro hsame
      exact hne (congrArg some (congrArg ImportId.mk hsame.symm))
    . intro existing _
      exact (hstarts.hasLeft_iff _).mp
  . constructor
    . exact hstarts.begun h.world.begun
    . obtain ⟨news, hurls, hnews⟩ := hadvances.urls
      rw [hurls]
      intro uploadUrl hmem
      rcases List.mem_append.mp hmem with hold | hnew
      . exact h.world.urls uploadUrl hold
      . exact hnews uploadUrl hnew
    . intro row hrow
      rw [hstarts.sourceArtifacts] at hrow
      exact h.world.artifacts_later hlater hrow

theorem Holding.fire_peer {i : ι} {peer : Peer} (h : Holding sha256 c) (hi : c.clients i = .peer peer)
    (hreplays : ReplaysInTime c i) : Holding sha256 (fire (StorageParty.step url) c i) := by
  have hown := h.parties i
  rw [hi] at hown
  obtain ⟨hworld, hrelies⟩ := Peer.Relies.step hown h.world
  have hstep : (c.clients i).step url c.shared = ((peer.step c.shared).1, .peer (peer.step c.shared).2) := by
    rw [hi]
    rfl
  apply h.of_step hstep hworld (later_peer_step peer c.shared) hrelies
  . rw [hi]
    rfl
  . intro j other _ hother hstage
    apply hstage.mono
    . intro hfree
      rw [statusOf_peer_step, hfree]
      rfl
    . intro existing hprogram hleft
      have hreplayed : (c.clients j).replays = some existing := by
        rw [hother]
        simp only [StorageParty.replays, hprogram, Starter.replaying]
        rfl
      have hwrites := hreplays.kept j existing hreplayed
      rw [hi] at hwrites
      have hstatus := statusOf_peer_step peer c.shared existing.id.val
      rw [show (peer.client c.shared).writes existing.id.val c.shared.db = none from hwrites] at hstatus
      unfold HasLeft at hleft ⊢
      rw [hstatus] at hleft
      simpa using hleft

theorem Holding.fire_writer {i : ι} {writes : List (Nat × Bytes)} (h : Holding sha256 c)
    (hi : c.clients i = .writer writes) (hwrites : WritesInTime c i)
    : Holding sha256 (fire (StorageParty.step url) c i) := by
  cases writes with
  | nil =>
    have hstep : (c.clients i).step url c.shared = (c.shared, .writer []) := by
      rw [hi]
      rfl
    apply h.of_step hstep h.world (.refl c.shared) trivial
    . rw [hi]
    . exact fun _ _ _ _ hstage => hstage
  | cons write writes =>
    obtain ⟨n, bytes⟩ := write
    have hstep : (c.clients i).step url c.shared = (c.shared.write n bytes, .writer writes) := by
      rw [hi]
      rfl
    have hdb : (c.shared.write n bytes).db = c.shared.db := by
      unfold ObjectWorld.write
      split
      . rfl
      . rfl
    have hurls : (c.shared.write n bytes).urls = c.shared.urls := by
      unfold ObjectWorld.write
      split
      . rfl
      . rfl
    have hcompleted : (c.shared.write n bytes).completed = c.shared.completed := by
      unfold ObjectWorld.write
      split
      . rfl
      . rfl
    -- the URL is not late, so that no upload that is written has been completed
    have hobjects : ∀ key, c.shared.HasCompleted key →
        (c.shared.write n bytes).objects key = c.shared.objects key := by
      intro key hkey
      unfold ObjectWorld.write
      split
      . next uploadUrl hurl =>
        have hlate := h.world.urls uploadUrl (List.mem_of_getElem? hurl)
        have huses : (c.clients i).uses c.shared = some uploadUrl := by
          rw [hi]
          exact hurl
        have hopen := hwrites uploadUrl huses hlate
        apply Function.update_of_ne
        rintro rfl
        exact hopen hkey
      . rfl
    have hlater : Later c.shared (c.shared.write n bytes) := by
      refine ⟨?_, hobjects⟩
      rw [hcompleted]
      exact fun _ h => h
    apply h.of_step hstep _ hlater trivial
    . rw [hi]
      rfl
    . intro j other _ _ hstage
      rw [hdb]
      exact hstage
    . constructor
      . rw [hdb]
        exact h.world.begun
      . rw [hurls]
        exact h.world.urls
      . intro row hrow
        rw [hdb] at hrow
        exact h.world.artifacts_later hlater hrow

theorem Holding.fire {i : ι} (h : Holding sha256 c) (hreplays : ReplaysInTime c i) (hwrites : WritesInTime c i)
    : Holding sha256 (fire (StorageParty.step url) c i) := by
  cases hi : c.clients i with
  | starter starter => exact h.fire_starter hi hreplays
  | peer peer => exact h.fire_peer hi hreplays
  | writer writes => exact h.fire_writer hi hwrites

-- nothing has been imported yet
structure Unused (w : ObjectWorld) : Prop where
  imports : w.db.imports = .empty
  sourceArtifacts : w.db.sourceArtifacts = .empty
  urls : w.urls = []

theorem statusOf_unused {w : ObjectWorld} (h : Unused w) (id : Uuid) : w.db.statusOf id = none := by
  unfold Database.statusOf
  rw [h.imports]
  rfl

theorem stage_start {externals : StartExternals} (cmd : StartImportCommand)
    (hfree : db.statusOf externals.importId.val = none) : Stage db (.start externals cmd) := by
  cases hvalid : cmd.validate with
  | error e =>
    apply Stage.returned
    show (handleStartImport externals cmd).run = _
    rw [Starter.run_handleStartImport, hvalid]
  | ok _ =>
    apply Stage.looking _ hfree
    show (handleStartImport externals cmd).run = _
    rw [Starter.run_handleStartImport, hvalid]
    rfl

theorem relies_peer_start {actor : Actor} {outage : Option ImportError}
    {verifyUpload : String → Except ImportError UploadMetadata} (w : ObjectWorld)
    (hworker : ∀ externals job, actor = .worker externals job → externals.sha256 = sha256
      ∧ job.objectStorageKey = storageKey Uuid.hyphenated ⟨job.ownerId⟩ ⟨job.importId⟩)
    : (Peer.start actor outage verifyUpload).Relies sha256 w where
  tracks := tracks_program actor _
  logs := by
    intro externals job hactor
    obtain ⟨hsha256, hkey⟩ := hworker externals job hactor
    refine ⟨hsha256, hkey, ?_⟩
    rw [show actor = .worker externals job from hactor]
    apply Program.Tracks.bind
    exact Program.Tracks.mono ParseGpxJobHandler.logs_handle fun _ _ _ => trivial
  begins := fun _ _ h => (nomatch h)
  logged := ⟨fun _ _ h => (nomatch h), fun _ h => (nomatch h), fun _ _ _ _ h => (nomatch h)⟩

theorem relies_of_unused {w : ObjectWorld} (h : Unused w) {party : StorageParty} (hstart : party.Starting sha256)
    : party.Relies sha256 w := by
  cases party with
  | starter starter =>
    obtain ⟨hstarter, huuid⟩ := hstart
    refine ⟨?_, huuid⟩
    rw [hstarter]
    exact stage_start _ (statusOf_unused h _)
  | peer peer =>
    obtain ⟨hpeer, hworker⟩ := hstart
    show peer.Relies sha256 w
    rw [hpeer]
    exact relies_peer_start w hworker
  | writer writes => trivial

/--
As long as calls replay imports in time and clients write in time, no URL is issued for what has been
uploaded, and what is stored of every artifact has the checksum that is recorded with it.
-/
theorem originals_kept (url : String → String) (sha256 : Bytes → String) (parties : ι → StorageParty)
    (w : ObjectWorld) (hunused : Unused w) (hstart : ∀ i, (parties i).Starting sha256)
    (hapart : DrawsApart parties) {schedule : List ι}
    (h : Along (StorageParty.step url) (fun c i => ReplaysInTime c i ∧ WritesInTime c i) ⟨w, parties⟩ schedule)
    : OriginalsKept sha256 (run (StorageParty.step url) ⟨w, parties⟩ schedule).shared := by
  have hholding : Holding sha256 (⟨w, parties⟩ : Config ObjectWorld StorageParty ι) := by
    refine ⟨⟨?_, ?_, ?_⟩, fun i => relies_of_unused hunused (hstart i), hapart⟩
    . intro id status hstatus
      rw [statusOf_unused hunused id] at hstatus
      cases hstatus
    . rw [hunused.urls]
      exact fun _ h => nomatch h
    . rw [hunused.sourceArtifacts]
      exact fun _ h => nomatch h
  have hend := h.run_induction (StorageParty.step url) (fun c i hc hboth => hc.fire hboth.1 hboth.2) hholding
  exact hend.world.kept

end Run

/-
An upload that is started, written, completed and processed. Then it is started again under the same key.
-/

inductive SampleParty where
  | start
  | client
  | completion
  | worker
  | again
  deriving DecidableEq

instance : Fintype SampleParty where
  elems := {.start, .client, .completion, .worker, .again}
  complete party := by cases party <;> decide

def sampleStart (importId : Uuid) : StorageParty := .starter (.start
  {
    uuidToString := Uuid.hyphenated
    sha256Hex _ := ""
    now := 0
    importId := ⟨importId⟩
  }
  {
    ownerId := ⟨⟨2⟩⟩
    idempotencyKey := "first"
    filename := "tour.gpx"
    contentType := "application/gpx+xml"
    fileSizeBytes := 1
  })

-- two files of different contents
def sampleSha256 (bytes : Bytes) : String := if bytes = [1] then sampleChecksum.value else ""

def sampleObjectJob : ParseGpxJob where
  importId := ⟨1⟩
  ownerId := ⟨2⟩
  objectStorageKey := storageKey Uuid.hyphenated ⟨⟨2⟩⟩ ⟨⟨1⟩⟩
  correlationId := ⟨11⟩

def samplePeer (actor : Actor) : StorageParty :=
  .peer (.start actor none fun _ => .ok ⟨1, some "application/gpx+xml"⟩)

def sampleParties : SampleParty → StorageParty
  | .start => sampleStart ⟨1⟩
  | .client => .writer [(0, [1]), (1, [2])]
  | .completion => samplePeer (.uploader 0 ⟨⟨3⟩⟩ Uuid.hyphenated ⟨⟨⟨1⟩⟩, ⟨⟨2⟩⟩, sampleChecksum.value⟩)
  | .worker => samplePeer (.worker { Imports.sampleExternals with sha256 := sampleSha256 } sampleObjectJob)
  | .again => sampleStart ⟨12⟩

def sampleUrl (key : String) : String := "/" ++ key

def sampleUnused : ObjectWorld where
  db := { sampleImports with imports := .empty }
  objects _ := none
  urls := []
  completed := []

def sampleUpload : List SampleParty :=
  List.replicate 3 .start ++ [.client] ++ List.replicate 3 .completion ++ List.replicate 8 .worker

def sampleReplay : List SampleParty := sampleUpload ++ [.again, .again, .client]

theorem originals_kept_sampleUpload
    : OriginalsKept sampleSha256
        (run (StorageParty.step sampleUrl) ⟨sampleUnused, sampleParties⟩ sampleUpload).shared := by
  apply originals_kept sampleUrl sampleSha256 sampleParties sampleUnused
  . exact ⟨rfl, rfl, rfl⟩
  . intro i
    cases i with
    | start => exact ⟨rfl, rfl⟩
    | client => trivial
    | completion =>
      refine ⟨rfl, ?_⟩
      rintro _ _ ⟨⟩
    | worker =>
      refine ⟨rfl, ?_⟩
      rintro _ _ ⟨⟩
      exact ⟨rfl, rfl⟩
    | again => exact ⟨rfl, rfl⟩
  . unfold DrawsApart
    decide
  . decide +kernel

def sampleReplayed : ObjectWorld :=
  (run (StorageParty.step sampleUrl) ⟨sampleUnused, sampleParties⟩ sampleReplay).shared

/--
The client is in time with both of its writes. The second URL is for an import that is completed, and what is
written through it is not what has the checksum.
-/
theorem replay_overwrites_original
    : (Along (StorageParty.step sampleUrl) WritesInTime ⟨sampleUnused, sampleParties⟩ sampleReplay
        ∧ sampleReplayed.urls.map (·.late) = [false, true]
        ∧ sampleReplayed.db.sourceArtifacts.rows.map (fun row =>
          (row.checksum, sampleReplayed.objects row.objectStorageKey)) = [(sampleSha256 [1], some [2])])
      ∧ ¬OriginalsKept sampleSha256 sampleReplayed := by
  have hreplayed : Along (StorageParty.step sampleUrl) WritesInTime ⟨sampleUnused, sampleParties⟩ sampleReplay
      ∧ sampleReplayed.urls.map (·.late) = [false, true]
      ∧ sampleReplayed.db.sourceArtifacts.rows.map (fun row =>
        (row.checksum, sampleReplayed.objects row.objectStorageKey)) = [(sampleSha256 [1], some [2])] := by
    decide +kernel
  refine ⟨hreplayed, ?_⟩
  intro h
  have hsecond : true ∈ sampleReplayed.urls.map (·.late) := by
    rw [hreplayed.2.1]
    decide
  obtain ⟨uploadUrl, hurl, hlate⟩ := List.mem_map.mp hsecond
  rw [h.urls uploadUrl hurl] at hlate
  cases hlate

end Api
