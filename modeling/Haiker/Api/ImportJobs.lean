import Haiker.Api.Imports
import Haiker.Imports.Lifecycle

/-!
This module contains when a request that completes an upload can be repeated after the job queue has
refused it. The upload is completed before the job is enqueued, and a completed upload is not completed
again.
-/

open Rust
open Imports
open Interleaving
open JobQueue (Active JobTable idempotentCorrelation)

namespace Api

-- a `parse_gpx` job of the import
def Parses (importId : ImportId) (row : JobRow) : Prop :=
  row.jobType = PARSE_GPX_JOB_TYPE ∧ row.correlationId = some importId.val

def HasActiveJob (importId : ImportId) (jobs : JobTable) : Prop :=
  ∃ k row, jobs.find? k = some row ∧ Active row ∧ Parses importId row

def OneActiveJob (importId : ImportId) (jobs : JobTable) : Prop :=
  ∃ k row, jobs.find? k = some row ∧ Active row ∧ Parses importId row
    ∧ ∀ k' row', jobs.find? k' = some row' → Active row' → Parses importId row' → k' = k

/--
The request is answered if it is alone, and `post` holds of what it leaves and of the answer.
-/
def EndsWith (p : Platform) (request : CompletionRequest) (post : Platform → CompletionResponse → Prop)
    : Prop :=
  ∃ n response,
    let c := run Completion.step ⟨p, fun _ : Unit => .start request⟩ (List.replicate n ())
    (c.clients ()).phase = .answered response ∧ post c.shared response

-- the same request, with a queue that refuses nothing
def Repeats (request again : CompletionRequest) : Prop := again.cmd = request.cmd ∧ again.refusals = []

-- the upload is completed, there is no job, and the request is not accepted again
def Stranded (p : Platform) (request : CompletionRequest) : Prop :=
  p.db.statusOf request.cmd.importId.val = some .uploaded
    ∧ (∀ row ∈ p.queue.jobs.rows, ¬Parses request.cmd.importId row)
    ∧ ∀ again, Repeats request again →
      EndsWith p again fun _ response => ∃ error retryAfter, response = .err error retryAfter

section Run

variable {ι : Type} [DecidableEq ι]

-- the step of client `i` answers that the job has not been enqueued, though the upload is completed
def Refused (request : CompletionRequest) (c : Config Platform PlatformParty ι) (i : ι) : Prop :=
  ∃ imp enqueuer refusals error retryAfter,
    c.clients i = .completion ⟨request, .enqueuing imp enqueuer refusals⟩
      ∧ (fire PlatformParty.step c i).clients i
        = .completion ⟨request, .answered (.err error retryAfter)⟩

/--
If the queue refuses the job of a completed upload, then the import is not left behind, and the request can
be repeated.
-/
def CanBeRepeated (c : Config Platform PlatformParty ι) (i : ι) : Prop :=
  ∀ request, Refused request c i →
    ¬Stranded (fire PlatformParty.step c i).shared request
      ∧ ∀ again, Repeats request again →
        EndsWith (fire PlatformParty.step c i).shared again fun p _ =>
          OneActiveJob request.cmd.importId p.queue.jobs

/--
If the queue refuses the job of a completed upload, then it has an active one of the import already.
-/
def RefusedInVain (c : Config Platform PlatformParty ι) (i : ι) : Prop :=
  ∀ request, Refused request c i → HasActiveJob request.cmd.importId c.shared.queue.jobs

end Run

theorem oneActiveJob_iff {importId : ImportId} {jobs : JobTable} (h : jobs.Indexed idempotentCorrelation)
    : OneActiveJob importId jobs ↔ HasActiveJob importId jobs := by
  constructor
  . rintro ⟨k, row, hrow, hactive, hparses, _⟩
    exact ⟨k, row, hrow, hactive, hparses⟩
  . rintro ⟨k, row, hrow, hactive, hparses⟩
    refine ⟨k, row, hrow, hactive, hparses, ?_⟩
    intro k' row' hrow' hactive' hparses'
    exact JobQueue.atMostOneActive_of_indexed h k' k row' row importId.val hrow' hrow hactive' hactive
      (hparses'.1.trans hparses.1.symm) hparses'.2 hparses.2

/-
A request for an import that is not being uploaded is not accepted.
-/

variable {p : Platform} {request : CompletionRequest}

-- what the request does first
theorem program_cases (request : CompletionRequest)
    : (∃ e, request.program = .done (.error e))
        ∨ ∃ next, request.program = .ask (.findById request.cmd.importId) next
          ∧ (∃ e, next (.ok none) = .done (.error e))
          ∧ ∀ imp, imp.status ≠ .uploading → ∃ e, next (.ok (some imp)) = .done (.error e) := by
  unfold CompletionRequest.program handleCompleteUpload
  cases Checksum.new request.cmd.checksum with
  | error e => exact .inl ⟨e, rfl⟩
  | ok checksum =>
    refine .inr ⟨_, rfl, ⟨.notFound, rfl⟩, ?_⟩
    intro imp hstatus
    by_cases howner : imp.ownerId ≠ request.cmd.ownerId
    . refine ⟨.unauthorized, ?_⟩
      show ExceptT.run (if imp.ownerId ≠ request.cmd.ownerId then throw ImportError.unauthorized else _) = _
      rw [if_pos howner]
      rfl
    . refine ⟨.invalidTransition imp.status.display "uploaded", ?_⟩
      show ExceptT.run (if imp.ownerId ≠ request.cmd.ownerId then _ else if imp.status ≠ .uploading then
        throw (ImportError.invalidTransition imp.status.display "uploaded") else _) = _
      rw [if_neg howner, if_pos hstatus]
      rfl

-- a request that is alone ends with what is left after its next step
theorem EndsWith.of_step {post : Platform → CompletionResponse → Prop} {completion : Completion}
    (h : ∃ n response,
      let c := run Completion.step ⟨(completion.step p).1, fun _ : Unit => (completion.step p).2⟩
        (List.replicate n ())
      (c.clients ()).phase = .answered response ∧ post c.shared response)
    : ∃ n response,
        let c := run Completion.step ⟨p, fun _ : Unit => completion⟩ (List.replicate n ())
        (c.clients ()).phase = .answered response ∧ post c.shared response := by
  obtain ⟨n, response, hends⟩ := h
  refine ⟨n + 1, response, ?_⟩
  rw [List.replicate_succ, run_cons, fire_alone]
  exact hends

theorem endsWith_of_not_uploading (h : p.db.statusOf request.cmd.importId.val ≠ some .uploading)
    {post : Platform → CompletionResponse → Prop} (hpost : ∀ error retryAfter, post p (.err error retryAfter))
    : EndsWith p request post := by
  unfold EndsWith Completion.start
  rcases program_cases request with ⟨e, hdone⟩ | ⟨next, hask, ⟨e, hnone⟩, hsome⟩
  . rw [hdone]
    apply EndsWith.of_step
    exact ⟨0, _, rfl, hpost _ _⟩
  . obtain ⟨e, hrejected⟩ : ∃ e, next (.ok (PgImportRepository.findById request.cmd.importId p.db.imports))
        = .done (.error e) := by
      cases hfound : PgImportRepository.findById request.cmd.importId p.db.imports with
      | none => exact ⟨e, hnone⟩
      | some imp =>
        apply hsome imp
        intro huploading
        apply h
        unfold Database.statusOf
        unfold PgImportRepository.findById at hfound
        rw [Option.map_eq_some_iff] at hfound
        obtain ⟨row, hrow, rfl⟩ := hfound
        rw [hrow, Option.map_some, ← huploading]
        rfl
    rw [hask]
    apply EndsWith.of_step
    apply EndsWith.of_step
    simp only [Completion.step, answer, hrejected]
    exact ⟨0, _, rfl, hpost _ _⟩

-- an answer is final
theorem run_answered (p : Platform) (request : CompletionRequest) (response : CompletionResponse) (n : Nat)
    : run Completion.step ⟨p, fun _ : Unit => ⟨request, .answered response⟩⟩ (List.replicate n ())
        = ⟨p, fun _ => ⟨request, .answered response⟩⟩ := by
  induction n with
  | zero => rfl
  | succ n ih =>
    rw [List.replicate_succ, run_cons, fire_alone]
    exact ih

theorem shared_of_answered {c : Config Platform Completion Unit} {response : CompletionResponse} (n : Nat)
    (h : (c.clients ()).phase = .answered response)
    : (run Completion.step c (List.replicate n ())).shared = c.shared := by
  have hc : c = ⟨c.shared, fun _ => ⟨(c.clients ()).request, .answered response⟩⟩ := by
    rw [← h]
  rw [hc, run_answered]

theorem EndsWith.shared_eq {post : Platform → CompletionResponse → Prop} (h : EndsWith p request post)
    {p' : Platform} (h' : EndsWith p request fun final _ => final = p') : ∃ response, post p' response := by
  obtain ⟨n, response, hanswered, hpost⟩ := h
  obtain ⟨m, _, hanswered', rfl⟩ := h'
  refine ⟨response, ?_⟩
  have hfirst := shared_of_answered m hanswered
  have hsecond := shared_of_answered n hanswered'
  rw [← run_append, ← List.replicate_add] at hfirst hsecond
  rw [← hsecond, Nat.add_comm m n, hfirst]
  exact hpost

/-
The status of an import whose upload has been completed never goes back.
-/

variable {db db' : Database} {known : Known} {actor : Actor} {command : Command} {storage : Storage}

-- `handle_start_import` has started the upload of an import before it stores it
def Begun (db : Database) : Prop := ∀ id status, db.statusOf id = some status → 1 ≤ status.rank

-- a status changes only to one that comes after the upload
def Progress (db db' : Database) : Prop :=
  ∀ id status', db'.statusOf id = some status' → ∃ status, db.statusOf id = some status
    ∧ (status' = status ∨ 2 ≤ status'.rank)

-- the upload of the import is not in progress any more
def Uploaded (db : Database) (id : Uuid) : Prop := ∀ status, db.statusOf id = some status → 2 ≤ status.rank

-- what is known to be uploaded is so
structure Reliable (known : Known) (db : Database) : Prop where
  begun : ∀ id copy, known id = some copy → 1 ≤ copy.status.rank
  uploaded : ∀ id copy, known id = some copy → 2 ≤ copy.status.rank → Uploaded db id

theorem Progress.refl (db : Database) : Progress db db := fun _ status h => ⟨status, h, .inl rfl⟩

theorem Begun.progress (h : Begun db) (hprogress : Progress db db') : Begun db' := by
  intro id status' hstatus'
  obtain ⟨status, hstatus, rfl | hlater⟩ := hprogress id status' hstatus'
  . exact h id status' hstatus
  . exact Nat.le_of_succ_le hlater

theorem Uploaded.progress {id : Uuid} (h : Uploaded db id) (hprogress : Progress db db') : Uploaded db' id := by
  intro status' hstatus'
  obtain ⟨status, hstatus, rfl | hlater⟩ := hprogress id status' hstatus'
  . exact h status' hstatus
  . exact hlater

theorem Uploaded.not_uploading {id : Uuid} (h : Uploaded db id) : db.statusOf id ≠ some .uploading := by
  intro huploading
  have hrank : 2 ≤ ImportStatus.rank .uploading := h .uploading huploading
  exact absurd hrank (by decide)

theorem Reliable.progress (h : Reliable known db) (hprogress : Progress db db') : Reliable known db' where
  begun := h.begun
  uploaded := fun id copy hcopy hrank => (h.uploaded id copy hcopy hrank).progress hprogress

-- every copy is of an import whose upload has been started
def Begins (known : Known) : Prop := ∀ id copy, known id = some copy → 1 ≤ copy.status.rank

theorem progress_answer (storage : Storage) (db : Database) (hasks : Imports.Asks actor known command) (h : Begins known)
    : Progress db (answer storage command db).2 := by
  let client : Imports.Client := { storage, program := .ask command fun _ => .done (), known }
  have htracks : client.program.Tracks (Imports.Asks actor) Tells Known.learn (fun _ _ => True) client.known :=
    ⟨hasks, fun _ _ => trivial⟩
  intro id status' hstatus'
  have hstep : (answer storage command db).2.statusOf id
      = (db.statusOf id).map fun status => (client.writes id db).getD status := statusOf_step client db id
  rw [hstep, Option.map_eq_some_iff] at hstatus'
  obtain ⟨status, hstatus, rfl⟩ := hstatus'
  refine ⟨status, hstatus, ?_⟩
  cases hwrites : client.writes id db with
  | none => exact .inl rfl
  | some written =>
    obtain ⟨copy, hcopy, hbefore⟩ := before_of_writes htracks hwrites
    have hcopied : 1 ≤ copy.status.rank := h id copy hcopy
    exact .inr (Nat.lt_of_le_of_lt hcopied hbefore.2)

theorem statusOf_of_findById {id : ImportId} {imp : Import}
    (h : PgImportRepository.findById id db.imports = some imp) : db.statusOf imp.id.val = some imp.status := by
  unfold PgImportRepository.findById at h
  rw [Option.map_eq_some_iff] at h
  obtain ⟨row, hrow, rfl⟩ := h
  have hid : row.id = id.val := Sql.Table.key_of_find? hrow
  unfold Database.statusOf
  show (db.imports.find? row.id).map _ = _
  rw [hid, hrow]
  rfl

theorem statusOf_of_findAbandoned {threshold : Timestamp} {imp : Import}
    (h : imp ∈ PgImportRepository.findAbandoned threshold db.imports)
    : db.statusOf imp.id.val = some imp.status := by
  unfold PgImportRepository.findAbandoned at h
  obtain ⟨row, hrow, rfl⟩ := List.mem_map.mp h
  unfold Database.statusOf
  show (db.imports.find? row.id).map _ = _
  rw [Sql.Table.find?_of_mem (List.mem_filter.mp hrow).1]
  rfl

-- what is known anew is a copy of what is stored
theorem Reliable.of_copies {known' : Known} (h : Reliable known db)
    (hcopies : ∀ id copy, known' id = some copy → known id = some copy
      ∨ 1 ≤ copy.status.rank ∧ ∀ status, db.statusOf id = some status → status = copy.status)
    : Reliable known' db where
  begun := by
    intro id copy hcopy
    rcases hcopies id copy hcopy with hold | ⟨hrank, _⟩
    . exact h.begun id copy hold
    . exact hrank
  uploaded := by
    intro id copy hcopy hrank
    rcases hcopies id copy hcopy with hold | ⟨_, hsame⟩
    . exact h.uploaded id copy hold hrank
    . intro status hstatus
      rw [hsame status hstatus]
      exact hrank

-- what is known anew has been loaded, or stored
theorem learn_cases {id : Uuid} {copy : Import} (storage : Storage) (hasks : Imports.Asks actor known command)
    (hcopy : known.learn command (answer storage command db).1 id = some copy)
    : known id = some copy
        ∨ (db.statusOf id = some copy.status ∧ (answer storage command db).2 = db)
        ∨ ∃ old, known id = some old ∧ old.status.Before copy.status
          ∧ (answer storage command db).2.statusOf id = (db.statusOf id).map fun _ => copy.status := by
  cases command with
  | download | verifyUpload | check | commit => exact .inl hcopy
  | findById k =>
    simp only [answer, Known.learn] at hcopy
    cases hfound : PgImportRepository.findById k db.imports with
    | none =>
      rw [hfound] at hcopy
      exact .inl hcopy
    | some imp =>
      rw [hfound] at hcopy
      have hcopy : Function.update known imp.id.val (some imp) id = some copy := hcopy
      by_cases hid : id = imp.id.val
      . subst hid
        rw [Function.update_self, Option.some.injEq] at hcopy
        subst hcopy
        exact .inr (.inl ⟨statusOf_of_findById hfound, rfl⟩)
      . rw [Function.update_of_ne hid] at hcopy
        exact .inl hcopy
  | findAbandoned threshold =>
    simp only [answer, Known.learn] at hcopy
    rw [Option.or_eq_some_iff] at hcopy
    rcases hcopy with hfound | ⟨_, hold⟩
    . have hstatus := statusOf_of_findAbandoned (List.mem_of_find?_eq_some hfound)
      have hid : copy.id.val = id := by simpa using List.find?_some hfound
      rw [hid] at hstatus
      exact .inr (.inl ⟨hstatus, rfl⟩)
    . exact .inl hold
  | update imp =>
    cases hupdate : PgImportRepository.update imp db.imports with
    | error e =>
      rw [answer_update_of_error storage hupdate] at hcopy
      exact .inl hcopy
    | ok imports =>
      rw [answer_update_of_ok storage hupdate] at hcopy ⊢
      have hcopy : Function.update known imp.id.val (some imp) id = some copy := hcopy
      by_cases hid : id = imp.id.val
      . subst hid
        rw [Function.update_self, Option.some.injEq] at hcopy
        subst hcopy
        obtain ⟨old, hold, hfrom⟩ := hasks
        refine .inr (.inr ⟨old, hold, hfrom.before, ?_⟩)
        rw [statusOf_update hupdate]
        congr
        funext status
        rw [if_pos rfl]
      . rw [Function.update_of_ne hid] at hcopy
        exact .inl hcopy

theorem Begins.learn (h : Begins known) (hbegun : Begun db) (hasks : Imports.Asks actor known command)
    : Begins (known.learn command (answer storage command db).1) := by
  intro id copy hcopy
  rcases learn_cases storage hasks hcopy with hold | ⟨hstatus, _⟩ | ⟨old, hold, hbefore, _⟩
  . exact h id copy hold
  . exact hbegun id _ hstatus
  . exact Nat.le_of_lt (Nat.lt_of_le_of_lt (h id old hold) hbefore.2)

theorem Reliable.learn (h : Reliable known db) (hbegun : Begun db) (hasks : Imports.Asks actor known command)
    : Reliable (known.learn command (answer storage command db).1) (answer storage command db).2 := by
  have hlater := h.progress (progress_answer storage db hasks h.begun)
  have hbegins : Begins (known.learn command (answer storage command db).1) :=
    Begins.learn h.begun hbegun hasks
  apply hlater.of_copies
  intro id copy hcopy
  rcases learn_cases storage hasks hcopy with hold | ⟨hstatus, hsame⟩ | ⟨old, hold, hbefore, hstored⟩
  . exact .inl hold
  . refine .inr ⟨hbegins id copy hcopy, ?_⟩
    intro status hstatus'
    rw [hsame, hstatus] at hstatus'
    exact (Option.some.inj hstatus').symm
  . refine .inr ⟨hbegins id copy hcopy, ?_⟩
    intro status hstatus'
    rw [hstored, Option.map_eq_some_iff] at hstatus'
    obtain ⟨_, _, rfl⟩ := hstatus'
    rfl

/-
What everybody at work relies on.
-/

-- what a request has completed
def Completes (request : CompletionRequest) (result : Except ImportError Import) (known : Known) : Prop :=
  ∀ imp, result = .ok imp → known imp.id.val = some imp ∧ imp.status = .uploaded ∧ imp.id = request.cmd.importId

def Completion.Relies (completion : Completion) (db : Database) : Prop :=
  match completion.phase with
  | .completing program known =>
    program.Tracks (Imports.Asks completion.request.actor) Tells Known.learn (Completes completion.request) known
      ∧ Reliable known db
  | .enqueuing _ _ _ => Uploaded db completion.request.cmd.importId.val
  | .answered _ => True

def PlatformParty.Relies (party : PlatformParty) (db : Database) : Prop :=
  match party with
  | .completion member => member.Relies db
  | .importer member =>
    (∃ actor, member.program.Tracks (Imports.Asks actor) Tells Known.learn (fun _ _ => True) member.known)
      ∧ Reliable member.known db
  | .queue _ => True

structure Sound (p : Platform) : Prop where
  begun : Begun p.db
  indexed : p.queue.jobs.Indexed idempotentCorrelation

theorem PlatformParty.Relies.progress {party : PlatformParty} (h : party.Relies db)
    (hprogress : Progress db db') : party.Relies db' := by
  cases party with
  | completion member =>
    obtain ⟨request, phase⟩ := member
    cases phase with
    | completing program known => exact ⟨h.1, h.2.progress hprogress⟩
    | enqueuing imp enqueuer refusals => exact Uploaded.progress h hprogress
    | answered response => trivial
  | importer member => exact ⟨h.1, h.2.progress hprogress⟩
  | queue member => trivial

theorem indexed_insertIdempotent {row : JobRow} {jobs jobs' : JobTable} {affected : Nat}
    (h : jobs.Indexed idempotentCorrelation)
    (hinsert : JobQueue.insertIdempotent row jobs = some (jobs', affected))
    : jobs'.Indexed idempotentCorrelation := by
  unfold JobQueue.insertIdempotent at hinsert
  split at hinsert
  . rw [Option.some.injEq, Prod.mk.injEq] at hinsert
    rw [← hinsert.1]
    exact h
  . next hfree =>
    rw [Option.map_eq_some_iff] at hinsert
    obtain ⟨inserted, hinserted, heq⟩ := hinsert
    rw [Prod.mk.injEq] at heq
    rw [← heq.1]
    exact h.insert? hinserted (by simpa using hfree)

theorem indexed_enqueuer_step {jobs : JobTable} (h : jobs.Indexed idempotentCorrelation) (moment : Nat)
    (now : Timestamp) (enqueuer : JobQueue.Enqueuer)
    : (enqueuer.step moment now jobs).1.Indexed idempotentCorrelation := by
  cases enqueuer with
  | inserting call =>
    simp only [JobQueue.Enqueuer.step]
    split
    . next hinsert => exact indexed_insertIdempotent h hinsert
    . next hinsert => exact indexed_insertIdempotent h hinsert
    . exact h
  | selecting call begun =>
    simp only [JobQueue.Enqueuer.step]
    split
    . exact h
    . exact h
  | retrying call begun =>
    simp only [JobQueue.Enqueuer.step]
    split
    . next hinsert => exact indexed_insertIdempotent h hinsert
    . exact h
  | returned => exact h
  | failed => exact h

-- enqueuing does not touch imports, and a refusal not the queue either
theorem enqueue_cases (p : Platform) (imp : Import) (enqueuer : JobQueue.Enqueuer)
    (refusals : List (Option String))
    : (∃ response, Completion.enqueue p imp enqueuer refusals = (p, .answered response))
        ∨ ∃ jobs enqueuer' refusals', Completion.enqueue p imp enqueuer refusals
          = ({ p with queue := { p.queue with jobs } }, .enqueuing imp enqueuer' refusals')
          ∧ jobs = (enqueuer.step 0 p.queue.now p.queue.jobs).1 := by
  unfold Completion.enqueue
  split
  . exact .inl ⟨_, rfl⟩
  . exact .inl ⟨_, rfl⟩
  . exact .inl ⟨_, rfl⟩
  . exact .inr ⟨_, _, _, rfl, rfl⟩

theorem Sound.completion_step (h : Sound p) {completion : Completion} (hrelies : completion.Relies p.db)
    : Sound (completion.step p).1 ∧ Progress p.db (completion.step p).1.db
        ∧ (completion.step p).2.Relies (completion.step p).1.db := by
  obtain ⟨request, phase⟩ := completion
  cases phase with
  | completing program known =>
    obtain ⟨htracks, hreliable⟩ := hrelies
    cases program with
    | done result =>
      cases result with
      | error e => exact ⟨h, .refl p.db, trivial⟩
      | ok imp =>
        refine ⟨h, .refl p.db, ?_⟩
        obtain ⟨hknown, hstatus, hid⟩ := htracks imp rfl
        show Uploaded p.db request.cmd.importId.val
        rw [← hid]
        apply hreliable.uploaded imp.id.val imp hknown
        rw [hstatus]
        decide
    | ask command next =>
      have hprogress := progress_answer request.storage p.db htracks.1 hreliable.begun
      refine ⟨⟨h.begun.progress hprogress, h.indexed⟩, hprogress, ?_, ?_⟩
      . exact htracks.2 _ (tells_answer _ _ _ command)
      . exact hreliable.learn h.begun htracks.1
  | enqueuing imp enqueuer refusals =>
    simp only [Completion.step]
    rcases enqueue_cases p imp enqueuer refusals with ⟨response, heq⟩ | ⟨jobs, _, _, heq, hjobs⟩
    . rw [heq]
      exact ⟨h, .refl p.db, trivial⟩
    . rw [heq]
      refine ⟨⟨h.begun, ?_⟩, .refl p.db, hrelies⟩
      rw [hjobs]
      exact indexed_enqueuer_step h.indexed 0 p.queue.now enqueuer
  | answered response => exact ⟨h, .refl p.db, trivial⟩

theorem Sound.importer_step (h : Sound p) {client : Imports.Client}
    (hrelies : (PlatformParty.importer client).Relies p.db)
    : Sound { p with db := (client.step p.db).1 } ∧ Progress p.db (client.step p.db).1
        ∧ (PlatformParty.importer (client.step p.db).2).Relies (client.step p.db).1 := by
  obtain ⟨storage, program, known⟩ := client
  obtain ⟨⟨actor, htracks⟩, hreliable⟩ := hrelies
  cases program with
  | done result => exact ⟨h, .refl p.db, ⟨actor, htracks⟩, hreliable⟩
  | ask command next =>
    have hprogress := progress_answer storage p.db htracks.1 hreliable.begun
    refine ⟨⟨h.begun.progress hprogress, h.indexed⟩, hprogress, ⟨actor, ?_⟩, ?_⟩
    . exact htracks.2 _ (tells_answer _ _ _ command)
    . exact hreliable.learn h.begun htracks.1

theorem Sound.step (h : Sound p) {party : PlatformParty} (hrelies : party.Relies p.db)
    : Sound (party.step p).1 ∧ Progress p.db (party.step p).1.db
        ∧ (party.step p).2.Relies (party.step p).1.db := by
  cases party with
  | completion member => exact h.completion_step hrelies
  | importer member => exact h.importer_step hrelies
  | queue member =>
    exact ⟨⟨h.begun, (JobQueue.keeps_client_step p.queue member).indexed h.indexed⟩, .refl p.db, trivial⟩

section Run

variable {ι : Type} [DecidableEq ι]

-- nobody has begun yet
def Starting (party : PlatformParty) : Prop :=
  match party with
  | .completion member => member = .start member.request
  | .importer member => ∃ storage actor, member = .start storage actor
  | .queue _ => True

theorem relies_of_starting {party : PlatformParty} (h : Starting party) (db : Database) : party.Relies db := by
  have hreliable : Reliable (fun _ => none) db := ⟨fun _ _ h => (nomatch h), fun _ _ h => (nomatch h)⟩
  cases party with
  | completion member =>
    rw [show member = .start member.request from h]
    refine ⟨?_, hreliable⟩
    exact Program.Tracks.mono follows_handleCompleteUpload fun result known hresult => hresult
  | importer member =>
    obtain ⟨storage, actor, rfl⟩ := h
    exact ⟨⟨actor, tracks_program actor _⟩, hreliable⟩
  | queue member => trivial

-- a refusal leaves everything as it is
theorem shared_of_refused {c : Config Platform PlatformParty ι} {i : ι}
    (h : Refused request c i) : (fire PlatformParty.step c i).shared = c.shared := by
  obtain ⟨imp, enqueuer, refusals, error, retryAfter, hbefore, hafter⟩ := h
  rw [fire_clients_self, hbefore] at hafter
  show (PlatformParty.step c.shared (c.clients i)).1 = c.shared
  rw [hbefore]
  rcases enqueue_cases c.shared imp enqueuer refusals with ⟨response, heq⟩ | ⟨jobs, _, _, heq, _⟩
  . simp only [PlatformParty.step, Completion.step, heq]
  . simp only [PlatformParty.step, Completion.step, heq] at hafter
    cases hafter

theorem canBeRepeated_iff {c : Config Platform PlatformParty ι} {i : ι} (hsound : Sound c.shared)
    (hrelies : ∀ j, (c.clients j).Relies c.shared.db) : CanBeRepeated c i ↔ RefusedInVain c i := by
  have huploaded : ∀ request, Refused request c i →
      c.shared.db.statusOf request.cmd.importId.val ≠ some .uploading := by
    rintro request ⟨imp, enqueuer, refusals, _, _, hbefore, _⟩
    have hi := hrelies i
    rw [hbefore] at hi
    exact Uploaded.not_uploading hi
  constructor
  . intro h request hrefused
    obtain ⟨_, hrepeat⟩ := h request hrefused
    rw [shared_of_refused hrefused] at hrepeat
    have hends := hrepeat { request with refusals := [] } ⟨rfl, rfl⟩
    have hrejected : EndsWith c.shared { request with refusals := [] } fun final _ => final = c.shared := by
      apply endsWith_of_not_uploading
      . exact huploaded request hrefused
      . exact fun _ _ => rfl
    obtain ⟨_, hone⟩ := hends.shared_eq hrejected
    exact (oneActiveJob_iff hsound.indexed).mp hone
  . intro h request hrefused
    have hactive := h request hrefused
    rw [shared_of_refused hrefused]
    refine ⟨?_, ?_⟩
    . rintro ⟨_, hnone, _⟩
      obtain ⟨k, row, hrow, _, hparses⟩ := hactive
      exact hnone row (Sql.Table.mem_of_find? hrow) hparses
    . rintro again ⟨hcmd, _⟩
      apply endsWith_of_not_uploading
      . rw [hcmd]
        exact huploaded request hrefused
      . exact fun _ _ => (oneActiveJob_iff hsound.indexed).mpr hactive

/--
A request that the queue refuses can be repeated exactly if the job is there already.
-/
theorem can_be_repeated_iff_refused_in_vain (parties : ι → PlatformParty) (p : Platform)
    (hstart : ∀ i, Starting (parties i)) (hsound : Sound p) (schedule : List ι)
    : Along PlatformParty.step CanBeRepeated ⟨p, parties⟩ schedule
        ↔ Along PlatformParty.step RefusedInVain ⟨p, parties⟩ schedule := by
  have hiff : ∀ (c : Config Platform PlatformParty ι) i,
      Sound c.shared ∧ (∀ j, (c.clients j).Relies c.shared.db) → (CanBeRepeated c i ↔ RefusedInVain c i) :=
    fun c i h => canBeRepeated_iff h.1 h.2
  apply along_congr_of_reached PlatformParty.step hiff
  . rintro c i ⟨hsound, hrelies⟩ _
    obtain ⟨hsound', hprogress, hown⟩ := hsound.step (hrelies i)
    refine ⟨hsound', ?_⟩
    intro j
    by_cases hj : j = i
    . subst hj
      rw [fire_clients_self]
      exact hown
    . rw [fire_clients_ne PlatformParty.step c hj]
      exact (hrelies j).progress hprogress
  . exact ⟨hsound, fun i => relies_of_starting (hstart i) p.db⟩

end Run

-- an import that is being uploaded
def sampleUploading : Platform where
  db := { sampleImports with
    imports := {
      rows := [{ sampleQueued with status := "uploading", sourceArtifactId := none, checksum := none }]
      unique := List.nodup_singleton _
    }
  }
  queue := {
    jobs := .empty
    now := 0
    started := fun _ => 0
    revoked := []
  }

-- a request that meets the queue at its capacity
def sampleRefused : CompletionRequest where
  cmd := {
    importId := ⟨⟨1⟩⟩
    ownerId := ⟨⟨2⟩⟩
    checksum := sampleChecksum.value
  }
  now := 0
  storage := {
    download _ := .ok []
    verifyUpload _ := .ok ⟨1024, some "application/gpx+xml"⟩
  }
  uuidToString _ := "id"
  artifactId := ⟨⟨3⟩⟩
  jobId := ⟨4⟩
  retryId := ⟨5⟩
  refusals := [some "BACKPRESSURE:queue is at capacity"]

def sampleRefusal : Unit → PlatformParty := fun _ => .completion (.start sampleRefused)

theorem sound_sampleUploading : Sound sampleUploading where
  begun := by
    intro id status hstatus
    unfold Database.statusOf at hstatus
    rw [Option.map_eq_some_iff] at hstatus
    obtain ⟨row, hrow, rfl⟩ := hstatus
    rw [List.mem_singleton.mp (Sql.Table.mem_of_find? hrow)]
    decide
  indexed := by
    rw [Sql.Table.indexed_iff]
    intro a ha
    cases ha

theorem can_be_repeated_iff_refused_in_vain_sampleUploading
    : Along PlatformParty.step CanBeRepeated ⟨sampleUploading, sampleRefusal⟩ (List.replicate 5 ())
        ↔ Along PlatformParty.step RefusedInVain ⟨sampleUploading, sampleRefusal⟩ (List.replicate 5 ()) :=
  can_be_repeated_iff_refused_in_vain sampleRefusal sampleUploading (fun _ => rfl) sound_sampleUploading _

/--
A request that is to be repeated after a minute is not accepted again, and the import stays without a job.
-/
theorem refusal_strands_import
    : (run PlatformParty.step ⟨sampleUploading, sampleRefusal⟩ (List.replicate 5 ())).clients ()
          = .completion ⟨sampleRefused, .answered (.err queueBackpressure (some 60))⟩
        ∧ Stranded (run PlatformParty.step ⟨sampleUploading, sampleRefusal⟩ (List.replicate 5 ())).shared
          sampleRefused
        ∧ ¬Along PlatformParty.step CanBeRepeated ⟨sampleUploading, sampleRefusal⟩ (List.replicate 5 ()) := by
  have hanswered : (run PlatformParty.step ⟨sampleUploading, sampleRefusal⟩ (List.replicate 5 ())).clients ()
      = .completion ⟨sampleRefused, .answered (.err queueBackpressure (some 60))⟩ := by
    have hprefix : BACKPRESSURE_ERROR_PREFIX.isPrefixOf "BACKPRESSURE:queue is at capacity" = true := by
      decide +kernel
    have herror : enqueueError "BACKPRESSURE:queue is at capacity" = .err queueBackpressure (some 60) := by
      rw [enqueueError, if_pos hprefix]
    rw [← herror]
    rfl
  have hstranded : Stranded
      (run PlatformParty.step ⟨sampleUploading, sampleRefusal⟩ (List.replicate 5 ())).shared sampleRefused := by
    have hstatus : (run PlatformParty.step ⟨sampleUploading, sampleRefusal⟩
        (List.replicate 5 ())).shared.db.statusOf sampleRefused.cmd.importId.val = some .uploaded := rfl
    refine ⟨hstatus, ?_, ?_⟩
    . intro row hrow
      cases hrow
    . rintro again ⟨hcmd, _⟩
      apply endsWith_of_not_uploading
      . rw [hcmd, hstatus]
        decide
      . exact fun error retryAfter => ⟨error, retryAfter, rfl⟩
  refine ⟨hanswered, hstranded, ?_⟩
  intro h
  have hlast : CanBeRepeated (run PlatformParty.step ⟨sampleUploading, sampleRefusal⟩ (List.replicate 4 ())) () :=
    Along.last PlatformParty.step h
  exact (hlast sampleRefused ⟨_, _, _, _, _, rfl, hanswered⟩).1 hstranded

end Api
